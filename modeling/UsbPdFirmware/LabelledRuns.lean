import Mathlib.Tactic.SplitIfs

/-!
# Runs of labelled machines

A machine has one start state and a partial step for every label. A run is
restricted by a condition on the state before each step, so that one
induction serves every invariant, conditional or not. History is observed
beside a machine rather than stored in it, and a machine is compared with a
more abstract one through a projection of its states.
-/

namespace UsbPdFirmware.LabelledRuns

/-- A machine: a start state and one partial step for every label. -/
structure Machine (State Label : Type) where
  /-- The state in which every run begins. -/
  start : State
  /-- One step; `none` when the label is not enabled in the state. -/
  step : Label → State → Option State

namespace Machine

variable {State Label History Abstract Move : Type}

/-- States reached by a run whose steps all meet `allowed`, a condition on
the state before the step and on the label taken there. -/
inductive Reach (M : Machine State Label) (allowed : State → Label → Prop) : State → Prop where
  | start : Reach M allowed M.start
  | step {s s' : State} {l : Label} :
      Reach M allowed s → allowed s l → M.step l s=some s' → Reach M allowed s'

/-- The condition that restricts nothing: every interleaving is a run. -/
def anyStep : State → Label → Prop := fun _ _ => True

instance (s : State) (l : Label) : Decidable (anyStep s l) := isTrue trivial

/-- A property of the start state that every allowed step preserves holds in
every state reached. The step may use that its source state was reached. -/
theorem Reach.invariant {M : Machine State Label} {allowed : State → Label → Prop}
    {I : State → Prop} (hstart : I M.start)
    (hstep : ∀ s l s', M.Reach allowed s → I s → allowed s l → M.step l s=some s' → I s')
    {s : State} (h : M.Reach allowed s) : I s := by
  induction h with
  | start => exact hstart
  | step hr ha hs ih => exact hstep _ _ _ hr ih ha hs

/-- Whatever restricts the steps of a run, it is a run. -/
theorem Reach.any {M : Machine State Label} {allowed : State → Label → Prop} {s : State}
    (h : M.Reach allowed s) : M.Reach anyStep s := by
  induction h with
  | start => exact .start
  | step _ _ hs ih => exact .step ih trivial hs

/-- Follow a list of labels from a state, giving up at the first step that
is disabled or breaks the condition. -/
def follow (M : Machine State Label) (allowed : State → Label → Prop)
    [∀ s l, Decidable (allowed s l)] : List Label → State → Option State
  | [],s => some s
  | l::ls,s => if allowed s l then (M.step l s).bind (M.follow allowed ls) else none

/-- The first label is followed first. -/
theorem follow_cons (M : Machine State Label) (allowed : State → Label → Prop)
    [∀ s l, Decidable (allowed s l)] (l : Label) (ls : List Label) (s : State) :
    M.follow allowed (l::ls) s=if allowed s l then (M.step l s).bind (M.follow allowed ls) else none := rfl

/-- Labels are followed one list after the other. -/
theorem follow_append (M : Machine State Label) (allowed : State → Label → Prop)
    [∀ s l, Decidable (allowed s l)] (ls ls' : List Label) (s : State) :
    M.follow allowed (ls++ls') s=(M.follow allowed ls s).bind (M.follow allowed ls') := by
  induction ls generalizing s with
  | nil => rfl
  | cons l ls ih =>
    rw [List.cons_append,follow_cons,follow_cons]
    by_cases ha : allowed s l
    · rw [if_pos ha,if_pos ha,Option.bind_assoc]
      exact congrArg (Option.bind _) (funext ih)
    · rw [if_neg ha,if_neg ha]
      rfl

/-- A followed list of labels extends any run that leads to its first state and
whose condition is no stronger. -/
theorem Reach.follow {M : Machine State Label} {allowed allowed' : State → Label → Prop}
    [∀ s l, Decidable (allowed' s l)] {ls : List Label} {s s' : State} (h : M.Reach allowed s)
    (hweak : ∀ s l, allowed' s l → allowed s l) (hf : M.follow allowed' ls s=some s') :
    M.Reach allowed s' := by
  induction ls generalizing s with
  | nil =>
    cases hf
    exact h
  | cons l ls ih =>
    unfold Machine.follow at hf
    split_ifs at hf with ha
    obtain ⟨t,ht,hf⟩ := Option.bind_eq_some_iff.mp hf
    exact ih (.step h (hweak s l ha) ht) hf

/-- In particular one with the same condition. -/
theorem reach_of_follow {M : Machine State Label} {allowed : State → Label → Prop}
    [∀ s l, Decidable (allowed s l)] {ls : List Label} {s s' : State}
    (h : M.Reach allowed s) (hf : M.follow allowed ls s=some s') : M.Reach allowed s' :=
  h.follow (fun _ _ ha => ha) hf

/-- A list of labels whose last state passes a test exhibits a state that
some run reaches and that passes the test. -/
theorem exists_reach_of_follow (M : Machine State Label) (allowed : State → Label → Prop)
    [∀ s l, Decidable (allowed s l)] (ls : List Label) (test : State → Bool)
    (h : (M.follow allowed ls M.start).any test=true) : ∃ s, M.Reach allowed s ∧ test s=true := by
  cases hs : M.follow allowed ls M.start with
  | none =>
    rw [hs] at h
    exact absurd h Bool.false_ne_true
  | some s =>
    rw [hs] at h
    exact ⟨s,reach_of_follow .start hs,h⟩

/-- The same for a last step of its own, which need not meet the condition. -/
theorem exists_step_of_follow (M : Machine State Label) (allowed : State → Label → Prop)
    [∀ s l, Decidable (allowed s l)] (ls : List Label) (l : Label) (test : State → State → Bool)
    (h : (M.follow allowed ls M.start).any (fun s => (M.step l s).any (test s))=true) :
    ∃ s s', M.Reach allowed s ∧ M.step l s=some s' ∧ test s s'=true := by
  obtain ⟨s,hr,ht⟩ := exists_reach_of_follow M allowed ls _ h
  cases hs : M.step l s with
  | none =>
    rw [hs] at ht
    exact absurd ht Bool.false_ne_true
  | some s' =>
    rw [hs] at ht
    exact ⟨s,s',hr,hs,ht⟩

/-- A machine observed by a history that every step updates. The history
never influences the steps. -/
def observe (M : Machine State Label) (h₀ : History)
    (record : History → State → Label → State → History) : Machine (State × History) Label where
  start := (M.start,h₀)
  step l p := (M.step l p.1).map fun s => (s,record p.2 p.1 l s)

/-- One step of an observed machine is a step of the machine together with
the update of the history. -/
theorem observe_step {M : Machine State Label} {h₀ : History}
    {record : History → State → Label → State → History} {l : Label} {p q : State × History} :
    (M.observe h₀ record).step l p=some q ↔
      M.step l p.1=some q.1 ∧ q.2=record p.2 p.1 l q.1 := by
  simp only [observe,Option.map_eq_some_iff]
  constructor
  · rintro ⟨s,hs,rfl⟩
    exact ⟨hs,rfl⟩
  · rintro ⟨hs,hq⟩
    exact ⟨q.1,hs,Prod.ext rfl hq.symm⟩

/-- An invariant of an observed machine, from what each step of the machine
preserves together with the update of the history. -/
theorem Reach.observed_invariant {M : Machine State Label} {h₀ : History}
    {record : History → State → Label → State → History} {allowed : State × History → Label → Prop}
    {I : State → History → Prop} (hstart : I M.start h₀)
    (hstep : ∀ s h l s', (M.observe h₀ record).Reach allowed (s,h) → I s h → allowed (s,h) l →
      M.step l s=some s' → I s' (record h s l s')) {p : State × History}
    (hp : (M.observe h₀ record).Reach allowed p) : I p.1 p.2 := by
  refine hp.invariant (I := fun p => I p.1 p.2) hstart fun p l q hr hi ha hs => ?_
  obtain ⟨hs,hrec⟩ := observe_step.mp hs
  rw [hrec]
  exact hstep _ _ _ _ hr hi ha hs

/-- Without its history a run is a run of the machine. -/
theorem Reach.unobserved {M : Machine State Label} {h₀ : History}
    {record : History → State → Label → State → History} {p : State × History}
    (h : (M.observe h₀ record).Reach anyStep p) : M.Reach anyStep p.1 := by
  induction h with
  | start => exact .start
  | step _ _ hs ih => exact .step ih trivial (observe_step.mp hs).1

/-- Every run can be observed. -/
theorem Reach.exists_observed {M : Machine State Label} (h₀ : History)
    (record : History → State → Label → State → History) {s : State} (h : M.Reach anyStep s) :
    ∃ history, (M.observe h₀ record).Reach anyStep (s,history) := by
  induction h with
  | start => exact ⟨h₀,.start⟩
  | @step s s' l _ _ hs ih =>
    obtain ⟨history,hr⟩ := ih
    exact ⟨record history s l s',.step hr trivial (observe_step.mpr ⟨hs,rfl⟩)⟩

/-- A run of a machine is a run of another on the same states when every
allowed step is an allowed one of the other's. -/
theorem Reach.follows {M : Machine State Label} {A : Machine State Move}
    {allowed : State → Label → Prop} {allowedMove : State → Move → Prop} {f : Label → State → Move}
    (hstart : M.start=A.start)
    (hstep : ∀ s l s', allowed s l → M.step l s=some s' →
      A.step (f l s') s=some s' ∧ allowedMove s (f l s')) {s : State}
    (h : M.Reach allowed s) : A.Reach allowedMove s := by
  induction h with
  | start =>
    rw [hstart]
    exact .start
  | step _ ha hs ih =>
    obtain ⟨hmove,hm⟩ := hstep _ _ _ ha hs
    exact .step ih hm hmove

/-- So it is when nothing restricts the steps. -/
theorem Reach.imitate {M : Machine State Label} {A : Machine State Move}
    {move : Label → State → Move} (hstart : M.start=A.start)
    (hstep : ∀ s l s', M.step l s=some s' → A.step (move l s') s=some s') {s : State}
    (h : M.Reach anyStep s) : A.Reach anyStep s :=
  h.follows hstart fun s l s' _ hs => ⟨hstep s l s' hs,trivial⟩

/-- So is an observed run, when the history sees the other's steps. -/
theorem Reach.relabel {M : Machine State Label} {A : Machine State Move} {h₀ : History}
    {record : History → State → Move → State → History} {move : Label → State → Move}
    (hstart : M.start=A.start)
    (hstep : ∀ s l s', M.step l s=some s' → A.step (move l s') s=some s') {p : State × History}
    (h : (M.observe h₀ fun h s l s' => record h s (move l s') s').Reach anyStep p) :
    (A.observe h₀ record).Reach anyStep p := by
  have hbegin : (M.observe h₀ fun h s l s' => record h s (move l s') s').start=
      (A.observe h₀ record).start := Prod.ext hstart rfl
  have hsteps (p : State × History) (l : Label) (q : State × History)
      (h : (M.observe h₀ fun h s l s' => record h s (move l s') s').step l p=some q) :
      (A.observe h₀ record).step (move l q.1) p=some q := by
    obtain ⟨hs,hrec⟩ := observe_step.mp h
    exact observe_step.mpr ⟨hstep _ _ _ hs,hrec⟩
  exact Reach.imitate hbegin hsteps h

/-- What a step looks like from a more abstract machine, through a projection
of the states: nothing happens, or a move is made that the step justifies. -/
def Seen (A : Machine Abstract Move) (view : State → Abstract) (why : Move → Prop)
    (s s' : State) : Prop :=
  view s'=view s ∨ ∃ m, why m ∧ A.step m (view s)=some (view s')

/-- A step that reaches the view a move leads to is seen as the move. -/
theorem seen_move {A : Machine Abstract Move} {view : State → Abstract} {why : Move → Prop}
    {s s' : State} (m : Move) {a : Abstract} (hw : why m) (hs : A.step m (view s)=some a)
    (hv : view s'=a) : A.Seen view why s s' :=
  .inr ⟨m,hw,by rw [hs,hv]⟩

/-- A run of a machine is a run of a more abstract machine when every step is
seen as nothing or as an allowed move. -/
theorem Reach.project {M : Machine State Label} {A : Machine Abstract Move}
    {allowed : State → Label → Prop} {allowedMove : Abstract → Move → Prop} {view : State → Abstract}
    {why : State → Label → Move → Prop} (hstart : view M.start=A.start)
    (hstep : ∀ s l s', M.step l s=some s' → A.Seen view (why s l) s s')
    (hallowed : ∀ s l m, allowed s l → why s l m → allowedMove (view s) m)
    {s : State} (h : M.Reach allowed s) : A.Reach allowedMove (view s) := by
  induction h with
  | start =>
    rw [hstart]
    exact .start
  | step hr ha hs ih =>
    rcases hstep _ _ _ hs with hv | ⟨m,hw,hv⟩
    · rw [hv]
      exact ih
    · exact .step ih (hallowed _ _ _ ha hw) hv

end Machine

end UsbPdFirmware.LabelledRuns
