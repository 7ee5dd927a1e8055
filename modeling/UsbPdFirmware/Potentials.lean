import Mathlib.Algebra.BigOperators.Group.Finset.Piecewise
import Mathlib.Algebra.Order.BigOperators.Group.Finset
import UsbPdFirmware.EventThreads
import UsbPdFirmware.LabelledRuns

/-!
# The potential method for threads with event flags

Work is paid for in advance. A pending flag is worth the work it will cause, a
thread's locals the work up to its next wait, and a step is affordable when what
it takes or gives up pays for what it leaves behind and for itself. Then all the
work of a run is bounded by what its inputs bring in.
-/

namespace UsbPdFirmware.Potentials

open EventThreads LabelledRuns

section Flags

variable {Ev Loc Sh : Type} [DecidableEq Ev] [Fintype Ev] (w : Ev → ℕ)

/-- What the pending flags are worth. -/
def worth (pending : Ev → Bool) : ℕ := ∑ e, if pending e then w e else 0

/-- What the flags of a list are worth. -/
def listed : List Ev → ℕ
  | [] => 0
  | e::events => w e+listed events

variable {w} {pending : Ev → Bool} {mask events : List Ev} {e : Ev}

/-- No flag of a list is worth more than once. -/
theorem sum_listed (events : List Ev) : (∑ e, if e ∈ events then w e else 0) ≤ listed w events := by
  induction events with
  | nil => simp
  | cons f fs ih =>
    have hsplit (e : Ev) : (if e ∈ f::fs then w e else 0) ≤
        (if e=f then w e else 0)+if e ∈ fs then w e else 0 := by
      by_cases hf : e=f <;> by_cases hfs : e ∈ fs <;> simp [hf,hfs]
    refine (Finset.sum_le_sum fun e _ => hsplit e).trans ?_
    rw [Finset.sum_add_distrib,Finset.sum_ite_eq',if_pos (Finset.mem_univ f),listed]
    exact Nat.add_le_add_left ih _

/-- Signalling adds what the flags signalled are worth. -/
theorem worth_raise (events : List Ev) (pending : Ev → Bool) :
    worth w (raise events pending) ≤ worth w pending+listed w events := by
  have hflag (e : Ev) : (if raise events pending e then w e else 0) ≤
      (if pending e then w e else 0)+if e ∈ events then w e else 0 := by
    cases hp : pending e <;> by_cases he : e ∈ events <;> simp [hp,he]
  refine (Finset.sum_le_sum fun e _ => hflag e).trans ?_
  rw [Finset.sum_add_distrib]
  exact Nat.add_le_add_left (sum_listed events) _

/-- Clearing adds nothing. -/
theorem worth_clear (mask : List Ev) (pending : Ev → Bool) :
    worth w (clear mask pending) ≤ worth w pending := by
  refine Finset.sum_le_sum fun e _ => ?_
  cases hp : pending e <;> simp [hp]
  split <;> omega

/-- Clearing a pending flag sets free what it is worth. -/
theorem worth_clear_add (hm : e ∈ mask) (hp : pending e=true) :
    worth w (clear mask pending)+w e ≤ worth w pending := by
  have hflag (f : Ev) : (if clear mask pending f then w f else 0)+(if f=e then w f else 0) ≤
      if pending f then w f else 0 := by
    by_cases hf : f=e
    · simp [hf,hm,hp]
    · cases hpf : pending f <;> simp [hf,hpf]
      split <;> omega
  have hsum := Finset.sum_le_sum fun f (_ : f ∈ Finset.univ) => hflag f
  rw [Finset.sum_add_distrib,Finset.sum_ite_eq',if_pos (Finset.mem_univ e)] at hsum
  exact hsum

variable {before after : ℕ}

/-- A flag that is taken pays for a step. -/
theorem paid_by_flag (e : Ev) (hm : e ∈ mask) (hp : pending e=true) (h : after+1 ≤ before+w e) :
    worth w (clear mask pending)+after+1 ≤ worth w pending+before := by
  have hworth := worth_clear_add (w := w) hm hp
  omega

/-- A poll that takes nothing is paid for by the locals. -/
theorem paid_by_poll (mask : List Ev) (h : after+1 ≤ before) :
    worth w (clear mask pending)+after+1 ≤ worth w pending+before := by
  have hworth := worth_clear (w := w) mask pending
  omega

/-- So is a signal, with the flags it raises. -/
theorem paid_by_signal (events : List Ev) (h : after+listed w events+1 ≤ before) :
    worth w (raise events pending)+after+1 ≤ worth w pending+before := by
  have hworth := worth_raise (w := w) events pending
  omega

/-- An action pays for itself: a wait out of one of the flags it returns,
anything else out of the locals. -/
def Affordable (w : Ev → ℕ) (rank : Loc → ℕ) (loc : Loc) : Action Ev Loc Sh → Prop
  | .wait mask _ resume => ∀ evt ⊆ mask, evt≠[] → ∃ e ∈ evt, rank (resume evt)+1 ≤ rank loc+w e
  | .poll _ resume => ∀ evt, rank (resume evt)+1 ≤ rank loc
  | .signal events next => rank next+listed w events+1 ≤ rank loc
  | .access effect => ∀ sh sh' next, effect sh=some (sh',next) → rank next+1 ≤ rank loc

variable {rank : Loc → ℕ} {loc : Loc} {a : Action Ev Loc Sh} {sh : Sh} {o : Outcome Ev Loc Sh}

omit [Fintype Ev] in
/-- An access is affordable when it is with no flag pending. -/
theorem affordable_access {effect : Sh → Option (Sh × Loc)}
    (h : ∀ sh (o : Outcome Ev Loc Sh), (Action.access effect).perform false (fun _ => false) sh=some o →
      rank o.loc+1 ≤ rank loc) : Affordable w rank loc (.access effect : Action Ev Loc Sh) :=
  fun sh sh' next he => h sh ⟨fun _ => false,next,sh'⟩ (Action.perform_access.mpr ⟨rfl,sh',next,he,rfl⟩)

/-- An affordable action leaves less than there was. -/
theorem Affordable.perform (h : Affordable w rank loc a) (hp : a.perform false pending sh=some o) :
    worth w o.pending+rank o.loc+1 ≤ worth w pending+rank loc := by
  cases a with
  | wait mask timed resume =>
    rcases Action.perform_wait.mp hp with ⟨-,hne,rfl⟩ | ⟨hx,-⟩
    · obtain ⟨e,he,hpaid⟩ := h (taken mask pending) (List.filter_subset_self mask) hne
      exact paid_by_flag e (mem_taken.mp he).1 (mem_taken.mp he).2 hpaid
    · cases hx
  | poll mask resume =>
    obtain ⟨-,rfl⟩ := Action.perform_poll.mp hp
    exact paid_by_poll mask (h _)
  | signal events next =>
    obtain ⟨-,rfl⟩ := Action.perform_signal.mp hp
    exact paid_by_signal events h
  | access effect =>
    obtain ⟨-,sh',next,he,rfl⟩ := Action.perform_access.mp hp
    have hpaid := h sh sh' next he
    dsimp only
    omega

omit [Fintype Ev] in
/-- A wait that expires leaves the flags alone. -/
theorem expired_pending (hp : a.perform true pending sh=some o) : o.pending=pending := by
  cases a with
  | wait mask timed resume =>
    rcases Action.perform_wait.mp hp with ⟨hx,-⟩ | ⟨-,-,-,rfl⟩
    · cases hx
    · rfl
  | poll mask resume => exact absurd (Action.perform_poll.mp hp).1 (by decide)
  | signal events next => exact absurd (Action.perform_signal.mp hp).1 (by decide)
  | access effect => exact absurd (Action.perform_access.mp hp).1 (by decide)

/-- A thread stands at a wait, with nothing pending that it waits for. -/
def Waiting (pending : Ev → Bool) : Action Ev Loc Sh → Prop
  | .wait mask _ _ => ∀ e ∈ mask, pending e=false
  | _ => False

/-- No behaviour is defined for a thread's next action. -/
def Undefined (sh : Sh) : Action Ev Loc Sh → Prop
  | .access effect => effect sh=none
  | _ => False

omit [Fintype Ev] in
/-- A thread that cannot act waits, or has no behaviour. -/
theorem waiting_or_undefined (hp : a.perform false pending sh=none) :
    Waiting pending a ∨ Undefined sh a := by
  cases a with
  | wait mask timed resume =>
    left
    by_contra hne
    have htaken : taken mask pending≠[] := fun h => hne (taken_eq_nil.mp h)
    exact absurd (Action.perform_wait.mpr (.inl ⟨rfl,htaken,rfl⟩)) (by rw [hp]; simp)
  | poll mask resume => exact absurd (Action.perform_poll.mpr ⟨rfl,rfl⟩) (by rw [hp]; simp)
  | signal events next => exact absurd (Action.perform_signal.mpr ⟨rfl,rfl⟩) (by rw [hp]; simp)
  | access effect =>
    have hmap : (effect sh).map _=none := hp
    exact .inr (Option.map_eq_none_iff.mp hmap)

end Flags

section Runs

variable {State Label : Type} {M : Machine State Label} {cost credit : State → Label → ℕ}
  {potential : State → ℕ}

/-- The accounts of a run. -/
structure Account where
  /-- What its steps cost. -/
  spent : ℕ
  /-- What it was given. -/
  granted : ℕ

/-- A step is entered. -/
def Account.enter (cost credit : State → Label → ℕ) (a : Account) (s : State) (l : Label)
    (_ : State) : Account := ⟨a.spent+cost s l,a.granted+credit s l⟩

/-- When every step costs at most the potential it uses up and the price of what
it is given, so does every run. -/
theorem spent_le {price : ℕ} (hstep : ∀ s l s', M.step l s=some s' →
      potential s'+cost s l ≤ potential s+price*credit s l) {p : State × Account}
    (h : (M.observe ⟨0,0⟩ (Account.enter cost credit)).Reach Machine.anyStep p) :
    potential p.1+p.2.spent ≤ potential M.start+price*p.2.granted := by
  refine h.observed_invariant
    (I := fun s a => potential s+a.spent ≤ potential M.start+price*a.granted) (Nat.le_refl _) ?_
  intro s a l s' _ ha _ hs
  have hpaid := hstep s l s' hs
  dsimp only [Account.enter] at ha ⊢
  rw [Nat.mul_add]
  omega

variable {works : State → Label → Prop} [∀ s l, Decidable (works s l)]

/-- Work that uses up the potential takes no more steps than that. -/
theorem follow_length_le (hstep : ∀ s l s', works s l → M.step l s=some s' →
      potential s'+1 ≤ potential s) {ls : List Label} {s s' : State}
    (h : M.follow works ls s=some s') : potential s'+ls.length ≤ potential s := by
  induction ls generalizing s with
  | nil =>
    cases h
    exact Nat.le_refl _
  | cons l ls ih =>
    rw [Machine.follow_cons] at h
    obtain ⟨hw,h⟩ := Option.ite_none_right_eq_some.mp h
    obtain ⟨t,ht,h⟩ := Option.bind_eq_some_iff.mp h
    have hpaid := hstep s l t hw ht
    have hrest := ih h
    rw [List.length_cons]
    omega

/-- So it comes to an end. -/
theorem exists_rest (hstep : ∀ s l s', works s l → M.step l s=some s' →
      potential s'+1 ≤ potential s) (s : State) :
    ∃ ls s', M.follow works ls s=some s' ∧ ∀ l, works s' l → M.step l s'=none := by
  induction hn : potential s using Nat.strong_induction_on generalizing s with
  | h n ih =>
    by_cases hrest : ∀ l, works s l → M.step l s=none
    · exact ⟨[],s,rfl,hrest⟩
    · simp only [not_forall] at hrest
      obtain ⟨l,hw,hne⟩ := hrest
      obtain ⟨t,ht⟩ := Option.ne_none_iff_exists'.mp hne
      have hpaid := hstep s l t hw ht
      obtain ⟨ls,s',hf,hrest⟩ := ih (potential t) (by omega) t rfl
      refine ⟨l::ls,s',?_,hrest⟩
      rw [Machine.follow_cons,if_pos hw,ht]
      exact hf

end Runs

end UsbPdFirmware.Potentials
