import UsbPdFirmware.EventThreads
import UsbPdFirmware.LabelledRuns

/-!
# A bounded queue with one doorbell

A sender posts an item and then rings; the receiver takes the bell and
fetches one item, or passes the bell over. Rings do not add up: the bell
tells that there are items, not how many. The queue refuses items when full.
-/

namespace UsbPdFirmware.DoorbellQueue

open LabelledRuns Machine EventThreads

variable {α : Type}

/-- The queue, the bell, and both sides in the middle of their two actions. -/
structure Doorbell (α : Type) where
  /-- Items, oldest first. -/
  queue : List α
  /-- The sender has posted and not yet rung. -/
  posting : Bool
  /-- The bell has been rung and not taken. -/
  rung : Bool
  /-- The receiver has taken the bell and not yet fetched. -/
  answering : Bool

/-- The moves of the two sides. -/
inductive Move (α : Type) where
  | post (m : α)
  | ring
  | take
  /-- The bell is taken and no item fetched for it. -/
  | pass
  | fetch

/-- One move, for a queue of the given capacity. -/
def step (capacity : ℕ) : Move α → Doorbell α → Option (Doorbell α)
  | .post m,d =>
    if d.posting=false then some {d with queue := post capacity m d.queue,posting := true} else none
  | .ring,d => if d.posting=true then some {d with posting := false,rung := true} else none
  | .take,d =>
    if d.rung=true ∧ d.answering=false then some {d with rung := false,answering := true} else none
  | .pass,d => if d.rung=true then some {d with rung := false} else none
  | .fetch,d =>
    if d.answering=true then some {d with queue := d.queue.tail,answering := false} else none

/-- A doorbell at rest. -/
def doorbell (α : Type) (capacity : ℕ) : Machine (Doorbell α) (Move α) :=
  ⟨⟨[],false,false,false⟩,step capacity⟩

section Backed

/-- Items are on the way for every ring: the queue holds one for the bell to
come, one for the bell that is rung and one for the bell that was taken. -/
def Backed (d : Doorbell α) : Prop :=
  d.posting.toNat+d.rung.toNat+d.answering.toNat ≤ d.queue.length

/-- Each move keeps it, if the queue has room for three items: only a full
queue refuses one, and a full queue backs everything. -/
theorem Backed.step {capacity : ℕ} (hc : 3 ≤ capacity) {d d' : Doorbell α} {m : Move α} (hi : Backed d)
    (hs : DoorbellQueue.step capacity m d=some d') : Backed d' := by
  unfold Backed at hi ⊢
  have hp := Bool.toNat_le d.posting
  have hr := Bool.toNat_le d.rung
  have ha := Bool.toNat_le d.answering
  cases m with
  | post m =>
    obtain ⟨hg,hs⟩ := Option.ite_none_right_eq_some.mp hs
    cases hs
    simp only [hg,Bool.toNat_false,Bool.toNat_true] at hi ⊢
    by_cases hroom : d.queue.length < capacity
    · rw [post_of_room hroom,List.length_append,List.length_singleton]
      omega
    · rw [post_of_full (by omega)]
      omega
  | ring =>
    obtain ⟨hg,hs⟩ := Option.ite_none_right_eq_some.mp hs
    cases hs
    simp only [hg,Bool.toNat_false,Bool.toNat_true] at hi ⊢
    omega
  | take =>
    obtain ⟨⟨hg,hn⟩,hs⟩ := Option.ite_none_right_eq_some.mp hs
    cases hs
    simp only [hg,hn,Bool.toNat_false,Bool.toNat_true] at hi ⊢
    omega
  | pass =>
    obtain ⟨hg,hs⟩ := Option.ite_none_right_eq_some.mp hs
    cases hs
    simp only [Bool.toNat_false]
    omega
  | fetch =>
    obtain ⟨hg,hs⟩ := Option.ite_none_right_eq_some.mp hs
    cases hs
    simp only [hg,Bool.toNat_false,Bool.toNat_true,List.length_tail] at hi ⊢
    omega

/-- Every run keeps it. -/
theorem backed_of_reach {capacity : ℕ} (hc : 3 ≤ capacity) {allowed : Doorbell α → Move α → Prop}
    {d : Doorbell α} (h : (doorbell α capacity).Reach allowed d) : Backed d := by
  refine h.invariant (Nat.le_refl 0) fun s m s' _ hi _ hs => ?_
  exact hi.step hc hs

/-- A receiver that answers finds an item. -/
theorem Backed.queue_ne_nil {d : Doorbell α} (h : Backed d) (ha : d.answering=true) : d.queue≠[] := by
  intro hq
  unfold Backed at h
  rw [ha,hq] at h
  simp only [Bool.toNat_true,List.length_nil] at h
  omega

end Backed

section Heard

/-- What keeps items from being left behind: no bell is passed over, and a
bell is taken only while it stands for one item, apart from an item that the
sender is about to ring for. -/
def heard (d : Doorbell α) (m : Move α) : Prop :=
  match m with
  | .take => d.queue.length ≤ 1+d.posting.toNat
  | .pass => False
  | _ => True

/-- No item is left behind: the queue is empty, or the bell is rung or about
to be, or the one item there is about to be fetched. -/
def Heard (d : Doorbell α) : Prop :=
  d.queue=[] ∨ d.rung=true ∨ d.posting=true ∨ (d.answering=true ∧ d.queue.length ≤ 1)

/-- Each such move keeps it. -/
theorem Heard.step {capacity : ℕ} {d d' : Doorbell α} {m : Move α} (hi : Heard d) (ha : heard d m)
    (hs : DoorbellQueue.step capacity m d=some d') : Heard d' := by
  cases m with
  | post m =>
    obtain ⟨-,hs⟩ := Option.ite_none_right_eq_some.mp hs
    cases hs
    exact .inr (.inr (.inl rfl))
  | ring =>
    obtain ⟨-,hs⟩ := Option.ite_none_right_eq_some.mp hs
    cases hs
    exact .inr (.inl rfl)
  | take =>
    obtain ⟨-,hs⟩ := Option.ite_none_right_eq_some.mp hs
    cases hs
    change d.queue.length ≤ 1+d.posting.toNat at ha
    cases hp : d.posting with
    | true => exact .inr (.inr (.inl rfl))
    | false =>
      rw [hp] at ha
      exact .inr (.inr (.inr ⟨rfl,ha⟩))
  | pass => exact absurd ha id
  | fetch =>
    obtain ⟨-,hs⟩ := Option.ite_none_right_eq_some.mp hs
    cases hs
    rcases hi with hq | hr | hp | ⟨-,hq⟩
    · exact .inl (by simp [hq])
    · exact .inr (.inl hr)
    · exact .inr (.inr (.inl hp))
    · refine .inl (List.eq_nil_of_length_eq_zero ?_)
      rw [List.length_tail]
      omega

/-- Every such run keeps it. -/
theorem heard_of_reach {capacity : ℕ} {d : Doorbell α} (h : (doorbell α capacity).Reach heard d) :
    Heard d :=
  h.invariant (.inl rfl) fun _ _ _ _ hi ha hs => hi.step ha hs

end Heard

end UsbPdFirmware.DoorbellQueue
