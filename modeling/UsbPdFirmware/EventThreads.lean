import Mathlib.Data.List.Basic

/-!
# Threads that communicate by event flags and mailboxes

The kernel objects of a small real-time system: flags that stay pending until
a wait takes them, bounded mailboxes that refuse a post when full, and the
atomic actions from which a thread is composed. A wait returns all the
pending flags of its mask at once and clears them. Everything is generic in
the flags, in a thread's locals and in the memory the threads share.
-/

namespace UsbPdFirmware.EventThreads

variable {Ev Loc Sh α : Type}

section Flags

/-- The flags a wait returns: all those of its mask that are pending. -/
def taken (mask : List Ev) (pending : Ev → Bool) : List Ev := mask.filter pending

@[simp] theorem mem_taken {mask : List Ev} {pending : Ev → Bool} {e : Ev} :
    e ∈ taken mask pending ↔ e ∈ mask ∧ pending e=true := List.mem_filter

/-- A wait has nothing to return exactly when no flag of its mask is pending. -/
theorem taken_eq_nil {mask : List Ev} {pending : Ev → Bool} :
    taken mask pending=[] ↔ ∀ e ∈ mask, pending e=false := by
  simp only [taken,List.filter_eq_nil_iff,Bool.not_eq_true]

/-- It has something to return exactly when one is. -/
theorem taken_ne_nil {mask : List Ev} {pending : Ev → Bool} :
    taken mask pending≠[] ↔ ∃ e ∈ mask, pending e=true := by
  rw [ne_eq,taken_eq_nil]
  simp only [not_forall,Bool.not_eq_false,exists_prop]

variable [DecidableEq Ev]

/-- Signalling makes every listed flag pending. -/
def raise (events : List Ev) (pending : Ev → Bool) : Ev → Bool :=
  fun e => pending e || decide (e ∈ events)

/-- Returning from a wait clears every flag of its mask. -/
def clear (mask : List Ev) (pending : Ev → Bool) : Ev → Bool :=
  fun e => pending e && !decide (e ∈ mask)

@[simp] theorem raise_apply (events : List Ev) (pending : Ev → Bool) (e : Ev) :
    raise events pending e=(pending e || decide (e ∈ events)) := rfl

@[simp] theorem clear_apply (mask : List Ev) (pending : Ev → Bool) (e : Ev) :
    clear mask pending e=(pending e && !decide (e ∈ mask)) := rfl

end Flags

section Mailboxes

/-- Posting without waiting: a full mailbox refuses the message. -/
def post (capacity : ℕ) (m : α) (queue : List α) : List α :=
  if queue.length < capacity then queue++[m] else queue

/-- A mailbox with room grows by exactly the posted message. -/
theorem post_of_room {capacity : ℕ} {queue : List α} (h : queue.length < capacity) (m : α) :
    post capacity m queue=queue++[m] := if_pos h

/-- A full mailbox is unchanged by a post. -/
theorem post_of_full {capacity : ℕ} {queue : List α} (h : capacity ≤ queue.length) (m : α) :
    post capacity m queue=queue := if_neg (by omega)

end Mailboxes

/-- One atomic action of a thread, up to and including the local computation
that follows it. -/
inductive Action (Ev Loc Sh : Type) where
  /-- Block until a flag of the mask is pending, then take all of them. A
  timed wait may instead expire, and then it returns no flag. -/
  | wait (mask : List Ev) (timed : Bool) (resume : List Ev → Loc)
  /-- Take the pending flags of the mask without blocking. -/
  | poll (mask : List Ev) (resume : List Ev → Loc)
  /-- Make the listed flags pending. -/
  | signal (events : List Ev) (next : Loc)
  /-- Read and write the shared memory; `none` when no behaviour is defined. -/
  | access (effect : Sh → Option (Sh × Loc))

/-- Flags, locals and shared memory after an action. -/
structure Outcome (Ev Loc Sh : Type) where
  /-- The pending flags of every thread. -/
  pending : Ev → Bool
  /-- The acting thread's locals. -/
  loc : Loc
  /-- The memory shared by the threads. -/
  shared : Sh

namespace Action

/-- A computation on the locals alone. -/
def compute (next : Loc) : Action Ev Loc Sh := access fun sh => some (sh,next)

/-- No behaviour: a point a thread never reaches, or undefined behaviour. -/
def stuck : Action Ev Loc Sh := access fun _ => none

/-- The flags an action takes or signals. -/
def events : Action Ev Loc Sh → List Ev
  | wait mask _ _ => mask
  | poll mask _ => mask
  | signal events _ => events
  | access _ => []

variable [DecidableEq Ev]

/-- The meaning of one action. `expired` selects the expiry of a timed wait,
which is possible only while no flag of the mask is pending. -/
def perform (expired : Bool) (pending : Ev → Bool) (sh : Sh) :
    Action Ev Loc Sh → Option (Outcome Ev Loc Sh)
  | wait mask timed resume =>
    if expired then
      if timed && (taken mask pending).isEmpty then some ⟨pending,resume [],sh⟩ else none
    else if (taken mask pending).isEmpty then none
    else some ⟨clear mask pending,resume (taken mask pending),sh⟩
  | poll mask resume =>
    if expired then none else some ⟨clear mask pending,resume (taken mask pending),sh⟩
  | signal events next => if expired then none else some ⟨raise events pending,next,sh⟩
  | access effect => if expired then none else (effect sh).map fun r => ⟨pending,r.2,r.1⟩

variable {expired : Bool} {pending : Ev → Bool} {sh : Sh} {o : Outcome Ev Loc Sh}

/-- A wait either returns a nonempty set of flags and clears its mask, or it
is timed, expires with no flag pending, and returns none. -/
theorem perform_wait {mask : List Ev} {timed : Bool} {resume : List Ev → Loc} :
    (wait mask timed resume).perform expired pending sh=some o ↔
      (expired=false ∧ taken mask pending≠[] ∧
        o=⟨clear mask pending,resume (taken mask pending),sh⟩) ∨
      (expired=true ∧ timed=true ∧ taken mask pending=[] ∧ o=⟨pending,resume [],sh⟩) := by
  simp only [perform]
  cases expired <;> cases hm : taken mask pending <;> cases timed <;>
    simp [eq_comm]

/-- A wait without a timeout only ends with a flag. -/
theorem perform_wait_untimed {mask : List Ev} {resume : List Ev → Loc} :
    (wait mask false resume).perform expired pending sh=some o ↔
      expired=false ∧ (∃ e ∈ mask, pending e=true) ∧
        o=⟨clear mask pending,resume (taken mask pending),sh⟩ := by
  rw [perform_wait,taken_ne_nil]
  simp

/-- A poll always returns at once. -/
theorem perform_poll {mask : List Ev} {resume : List Ev → Loc} :
    (poll mask resume).perform expired pending sh=some o ↔
      expired=false ∧ o=⟨clear mask pending,resume (taken mask pending),sh⟩ := by
  simp only [perform]
  cases expired <;> simp [eq_comm]

/-- A signal always succeeds and touches nothing but its flags. -/
theorem perform_signal {events : List Ev} {next : Loc} :
    (signal events next).perform expired pending sh=some o ↔
      expired=false ∧ o=⟨raise events pending,next,sh⟩ := by
  simp only [perform]
  cases expired <;> simp [eq_comm]

/-- An access leaves every flag as it was. -/
theorem perform_access {effect : Sh → Option (Sh × Loc)} :
    (access effect).perform expired pending sh=some o ↔
      expired=false ∧ ∃ sh' next, effect sh=some (sh',next) ∧ o=⟨pending,next,sh'⟩ := by
  simp only [perform]
  cases expired with
  | false =>
    simp only [Bool.false_eq_true,if_false,Option.map_eq_some_iff,Prod.exists,true_and]
    simp only [eq_comm]
  | true => simp

/-- An access that is always defined. -/
theorem perform_access_some {f : Sh → Sh × Loc} :
    (access fun sh => some (f sh) : Action Ev Loc Sh).perform expired pending sh=some o ↔
      expired=false ∧ o=⟨pending,(f sh).2,(f sh).1⟩ := by
  rw [perform_access]
  constructor
  · rintro ⟨hx,sh',next,hf,rfl⟩
    rw [Option.some.inj hf]
    exact ⟨hx,rfl⟩
  · rintro ⟨hx,rfl⟩
    exact ⟨hx,_,_,rfl,rfl⟩

/-- Nothing happens where no behaviour is defined. -/
theorem perform_stuck : (stuck : Action Ev Loc Sh).perform expired pending sh≠some o := by
  intro h
  obtain ⟨-,_,_,hf,-⟩ := perform_access.mp h
  cases hf

/-- Every way in which an action can end leads to locals and memory as `R`
says. -/
def Ensures (R : Loc → Sh → Prop) (sh : Sh) : Action Ev Loc Sh → Prop
  | wait _ _ resume => ∀ evt, R (resume evt) sh
  | poll _ resume => ∀ evt, R (resume evt) sh
  | signal _ next => R next sh
  | access effect => ∀ sh' next, effect sh=some (sh',next) → R next sh'

/-- What an action ensures holds after it. -/
theorem Ensures.perform {R : Loc → Sh → Prop} {a : Action Ev Loc Sh} (hr : a.Ensures R sh)
    (h : a.perform expired pending sh=some o) : R o.loc o.shared := by
  cases a with
  | wait mask timed resume =>
    rcases perform_wait.mp h with ⟨-,-,rfl⟩ | ⟨-,-,-,rfl⟩
    · exact hr _
    · exact hr _
  | poll mask resume =>
    obtain ⟨-,rfl⟩ := perform_poll.mp h
    exact hr _
  | signal events next =>
    obtain ⟨-,rfl⟩ := perform_signal.mp h
    exact hr
  | access effect =>
    obtain ⟨-,sh',next,he,rfl⟩ := perform_access.mp h
    exact hr sh' next he

/-- An access ensures what holds after it, whatever is pending. -/
theorem ensures_access {R : Loc → Sh → Prop} {effect : Sh → Option (Sh × Loc)}
    (h : ∀ o, (access effect).perform false (fun _ : Ev => false) sh=some o → R o.loc o.shared) :
    (access effect : Action Ev Loc Sh).Ensures R sh := by
  intro sh' next he
  exact h ⟨fun _ => false,next,sh'⟩ (perform_access.mpr ⟨rfl,sh',next,he,rfl⟩)

/-- Every other flag keeps its value. -/
theorem perform_other {a : Action Ev Loc Sh} (h : a.perform expired pending sh=some o) {e : Ev}
    (he : e ∉ a.events) : o.pending e=pending e := by
  cases a with
  | wait mask timed resume =>
    have hmask : e ∉ mask := he
    rcases perform_wait.mp h with ⟨-,-,rfl⟩ | ⟨-,-,-,rfl⟩
    · simp [hmask]
    · rfl
  | poll mask resume =>
    have hmask : e ∉ mask := he
    obtain ⟨-,rfl⟩ := perform_poll.mp h
    simp [hmask]
  | signal events next =>
    have hevents : e ∉ events := he
    obtain ⟨-,rfl⟩ := perform_signal.mp h
    simp [hevents]
  | access effect =>
    obtain ⟨-,_,_,-,rfl⟩ := perform_access.mp h
    rfl

end Action

section Acts

variable [DecidableEq Ev]

/-- From these locals on, a thread acts from those, until it rests. Its i-th
action meets whatever flags and memory `world i` gives it. -/
inductive Acts (thread : Loc → Action Ev Loc Sh) (rests : Loc → Bool) (world : ℕ → (Ev → Bool) × Sh) :
    ℕ → Loc → Loc → Prop where
  | now {i : ℕ} {loc : Loc} (hr : rests loc=false) : Acts thread rests world i loc loc
  | later {i : ℕ} {loc loc' : Loc} {o : Outcome Ev Loc Sh} (hr : rests loc=false)
      (hs : (thread loc).perform false (world i).1 (world i).2=some o)
      (h : Acts thread rests world (i+1) o.loc loc') : Acts thread rests world i loc loc'

variable {thread : Loc → Action Ev Loc Sh} {rests : Loc → Bool} {world : ℕ → (Ev → Bool) × Sh} {i : ℕ}
  {loc loc' : Loc} {o : Outcome Ev Loc Sh}

/-- At rest it does not act. -/
theorem not_acts_of_rests (hr : rests loc=true) : ¬Acts thread rests world i loc loc' := by
  intro h
  cases h with
  | now hr' => exact absurd (hr.symm.trans hr') (by decide)
  | later hr' hs h => exact absurd (hr.symm.trans hr') (by decide)

/-- It acts from where it is, and from where that action leads. -/
theorem acts_iff (hr : rests loc=false)
    (hs : (thread loc).perform false (world i).1 (world i).2=some o) :
    Acts thread rests world i loc loc' ↔ loc'=loc ∨ Acts thread rests world (i+1) o.loc loc' := by
  constructor
  · intro h
    cases h with
    | now _ => exact .inl rfl
    | later _ hs' h =>
      cases hs.symm.trans hs'
      exact .inr h
  · rintro (rfl | h)
    · exact .now hr
    · exact .later hr hs h

end Acts

end UsbPdFirmware.EventThreads
