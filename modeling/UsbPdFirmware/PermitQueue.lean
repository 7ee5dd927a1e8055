/-!
# A permit before a queue

Entries are served in their order, and some of them need a permit. The permit
is one sticky flag, so it does not say whose it is; beside it stand the
entries it was raised for. While it is raised for an entry only when nothing
else waits, the entry at the head finds it exactly when it needs it.
-/

namespace UsbPdFirmware.PermitQueue

variable {α : Type} {queue : List (α × Bool)} {raised : List α} {x : α × Bool} {a : α}

/-- The head of the queue, if it needs the permit. -/
def due : List (α × Bool) → List α
  | (a,true)::_ => [a]
  | _ => []

/-- The permit is raised for the head if that needs it, and no other entry
needs one. -/
structure Paired (queue : List (α × Bool)) (raised : List α) : Prop where
  /-- What it is raised for. -/
  raised : raised=due queue
  /-- The others. -/
  rest : ∀ x ∈ queue.tail, x.2=false

/-- Nothing is due when no entry needs the permit. -/
theorem due_eq_nil (h : ∀ x ∈ queue, x.2=false) : due queue=[] := by
  cases queue with
  | nil => rfl
  | cons x rest =>
    obtain ⟨a,needs⟩ := x
    have hneeds : needs=false := h _ List.mem_cons_self
    rw [hneeds]
    rfl

theorem paired_nil : Paired ([] : List (α × Bool)) [] := ⟨rfl,fun _ h => absurd h List.not_mem_nil⟩

/-- The permit is raised for an entry that waits alone. -/
theorem paired_announce (a : α) : Paired [(a,true)] [a] :=
  ⟨rfl,fun _ h => absurd h List.not_mem_nil⟩

/-- An entry that needs none queues up. -/
theorem Paired.append (h : Paired queue raised) (a : α) : Paired (queue++[(a,false)]) raised := by
  cases queue with
  | nil => exact ⟨h.raised,fun _ hx => absurd hx List.not_mem_nil⟩
  | cons x rest =>
    refine ⟨?_,fun y hy => ?_⟩
    · have hdue : due (x::rest++[(a,false)])=due (x::rest) := by
        obtain ⟨b,needs⟩ := x
        cases needs <;> rfl
      rw [hdue]
      exact h.raised
    · rcases List.mem_append.mp hy with hy | hy
      · exact h.rest y hy
      · rw [List.mem_singleton.mp hy]

/-- The head is served, and takes the permit if it is raised. -/
theorem Paired.served (h : Paired (x::queue) raised) : Paired queue [] :=
  ⟨(due_eq_nil h.rest).symm,fun y hy => h.rest y (List.mem_of_mem_tail hy)⟩

/-- The head, if there is one, is given up while the permit is not raised. -/
theorem Paired.gone {x : Option (α × Bool)} (h : Paired (x.toList++queue) []) : Paired queue [] := by
  cases x with
  | none => exact h
  | some x => exact h.served

/-- An entry that needs the permit and came last waits alone. -/
theorem Paired.last (h : Paired (queue++[(a,true)]) raised) : queue=[] := by
  cases queue with
  | nil => rfl
  | cons x rest =>
    have hmem : (a,true) ∈ (x::rest++[(a,true)]).tail :=
      List.mem_append_right _ (List.mem_singleton_self _)
    exact absurd (h.rest _ hmem) (by simp)

/-- The head finds the permit exactly when it needs it, and raised for itself. -/
theorem Paired.head (h : Paired (x::queue) raised) :
    (raised≠[] ↔ x.2=true) ∧ ∀ a ∈ raised, x=(a,true) := by
  obtain ⟨b,needs⟩ := x
  rw [h.raised]
  cases needs with
  | false => exact ⟨by simp [due],fun _ ha => absurd ha List.not_mem_nil⟩
  | true =>
    refine ⟨by simp [due],fun a ha => ?_⟩
    have hab : a=b := List.mem_singleton.mp ha
    rw [hab]

end UsbPdFirmware.PermitQueue
