import Mathlib.Data.Nat.Notation
import UsbPdFirmware.LabelledRuns

/-!
# A session with a bounded number of retries

A client works to establish a session, which may drive an output. After a
failure it retries: it has the peer reset, closes what it had, and opens
again; after more than a limit of retries it gives up. A reset from outside
interrupts it in the same way. Retries are counted over the whole run: a
session between two of them takes nothing back.
-/

namespace UsbPdFirmware.BoundedRetry

open LabelledRuns Machine

/-- What the client is doing. -/
inductive Stage where
  /-- Opening. -/
  | opening
  /-- Working for a session, or in one. -/
  | working
  /-- It has failed. -/
  | failing
  /-- The peer is being reset. -/
  | retrying
  /-- Closing what it had. -/
  | closing
  /-- Everything is closed. -/
  | closed
  /-- It has given up. -/
  | givenUp
  deriving DecidableEq

/-- The client. -/
structure Retry where
  /-- What it is doing. -/
  stage : Stage
  /-- A session is in force. -/
  session : Bool
  /-- The output is on. -/
  output : Bool
  /-- Retries so far. -/
  retries : ℕ

/-- The moves of the client. Some set the output. -/
inductive Move where
  | begin
  | work (output : Bool)
  | establish (output : Bool)
  | fail (output : Bool)
  | retry
  | retried
  | giveUp
  | interrupt
  | close
  | reopen
  /-- After giving up the output is free. -/
  | idle (output : Bool)

/-- One move. Only establishing a session switches the output on, before the
client has given up. -/
def step (limit : ℕ) : Move → Retry → Option Retry
  | .begin,r => if r.stage=.opening then some {r with stage := .working,session := false} else none
  | .work output,r =>
    if r.stage=.working ∧ (output=true → r.output=true) then some {r with output := output} else none
  | .establish output,r =>
    if r.stage=.working then some {r with session := true,output := output} else none
  | .fail output,r =>
    if r.stage=.working ∧ (output=true → r.output=true) then
      some {r with stage := .failing,output := output}
    else none
  | .retry,r =>
    if r.stage=.failing ∧ r.retries ≤ limit then some {r with stage := .retrying} else none
  | .retried,r =>
    if r.stage=.retrying then some {r with stage := .closing,retries := r.retries+1} else none
  | .giveUp,r =>
    if r.stage=.failing ∧ limit < r.retries then some {r with stage := .givenUp} else none
  | .interrupt,r => if r.stage=.working then some {r with stage := .closing} else none
  | .close,r =>
    if r.stage=.closing then some {r with stage := .closed,session := false,output := false} else none
  | .reopen,r => if r.stage=.closed then some {r with stage := .opening} else none
  | .idle output,r => if r.stage=.givenUp then some {r with output := output} else none

/-- The client, about to open for the first time. -/
def client (limit : ℕ) : Machine Retry Move := ⟨⟨.opening,false,false,0⟩,step limit⟩

variable {limit : ℕ} {r r' : Retry} {m : Move}

/-- Only one move leads to giving up. -/
theorem givenUp_of_step (h : step limit m r=some r') (hs : r.stage≠.givenUp)
    (hs' : r'.stage=.givenUp) :
    r.stage=.failing ∧ limit < r.retries ∧ r'={r with stage := .givenUp} := by
  cases m <;> simp only [step,Option.ite_none_right_eq_some,Option.some.injEq] at h
  case giveUp =>
    obtain ⟨⟨hf,hl⟩,rfl⟩ := h
    exact ⟨hf,hl,rfl⟩
  case work output =>
    obtain ⟨⟨hw,-⟩,rfl⟩ := h
    exact absurd hs' hs
  case establish output =>
    obtain ⟨hw,rfl⟩ := h
    exact absurd hs' hs
  case idle output =>
    obtain ⟨hg,rfl⟩ := h
    exact absurd hg hs
  all_goals
    obtain ⟨-,rfl⟩ := h
    cases hs'

/-! ## Session and output -/

/-- What holds of the output in every run. -/
structure Guarded (r : Retry) : Prop where
  /-- Before the client has given up, only a session drives the output. -/
  session : r.output=true → r.stage≠.givenUp → r.session=true
  /-- Where everything is closed the output is off. -/
  closed : r.stage=.closed ∨ r.stage=.opening → r.output=false

/-- A turn to a stage that closes nothing, with the output as it was or off. -/
theorem Guarded.turn {stage : Stage} {output : Bool} {retries : ℕ} (hi : Guarded r)
    (hs : r.stage≠.givenUp) (ho : output=true → r.output=true) (hc : stage≠.closed)
    (hop : stage≠.opening) : Guarded ⟨stage,r.session,output,retries⟩ := by
  refine ⟨fun hon _ => hi.session (ho hon) hs,fun hst => ?_⟩
  rcases hst with hst | hst
  · exact absurd hst hc
  · exact absurd hst hop

/-- Each move keeps it. -/
theorem Guarded.step (hi : Guarded r) (h : step limit m r=some r') : Guarded r' := by
  cases m <;> simp only [BoundedRetry.step,Option.ite_none_right_eq_some,Option.some.injEq] at h
  case begin =>
    obtain ⟨hp,rfl⟩ := h
    have hoff : r.output=false := hi.closed (.inr hp)
    refine ⟨fun ho => ?_,fun _ => hoff⟩
    rw [hoff] at ho
    exact absurd ho Bool.false_ne_true
  case work output =>
    obtain ⟨⟨hp,ho⟩,rfl⟩ := h
    have hturn : Guarded ⟨.working,r.session,output,r.retries⟩ :=
      hi.turn (by rw [hp]; decide) ho (by decide) (by decide)
    rw [← hp] at hturn
    exact hturn
  case establish output =>
    obtain ⟨hp,rfl⟩ := h
    refine ⟨fun _ _ => rfl,fun hs => ?_⟩
    rcases hs with hs | hs <;> exact absurd (hs.symm.trans hp) (by decide)
  case fail output =>
    obtain ⟨⟨hp,ho⟩,rfl⟩ := h
    exact hi.turn (by rw [hp]; decide) ho (by decide) (by decide)
  case retry =>
    obtain ⟨⟨hp,-⟩,rfl⟩ := h
    exact hi.turn (by rw [hp]; decide) id (by decide) (by decide)
  case retried =>
    obtain ⟨hp,rfl⟩ := h
    exact hi.turn (by rw [hp]; decide) id (by decide) (by decide)
  case giveUp =>
    obtain ⟨⟨hp,-⟩,rfl⟩ := h
    exact hi.turn (by rw [hp]; decide) id (by decide) (by decide)
  case interrupt =>
    obtain ⟨hp,rfl⟩ := h
    exact hi.turn (by rw [hp]; decide) id (by decide) (by decide)
  case close =>
    obtain ⟨hp,rfl⟩ := h
    exact ⟨fun ho => absurd ho Bool.false_ne_true,fun _ => rfl⟩
  case reopen =>
    obtain ⟨hp,rfl⟩ := h
    have hoff : r.output=false := hi.closed (.inl hp)
    refine ⟨fun ho => ?_,fun _ => hoff⟩
    rw [hoff] at ho
    exact absurd ho Bool.false_ne_true
  case idle output =>
    obtain ⟨hp,rfl⟩ := h
    refine ⟨fun _ hs => absurd hp hs,fun hs => ?_⟩
    rcases hs with hs | hs <;> exact absurd (hs.symm.trans hp) (by decide)

theorem guarded_of_reach {allowed : Retry → Move → Prop} (h : (client limit).Reach allowed r) :
    Guarded r := by
  refine h.invariant ⟨fun ho => absurd ho Bool.false_ne_true,fun _ => rfl⟩ ?_
  exact fun _ _ _ _ hi _ hs => hi.step hs

/-- No failure in a session once the retries are used up. -/
def spares (limit : ℕ) (r : Retry) (m : Move) : Prop :=
  (∃ output, m=.fail output) → r.session=true → r.retries ≤ limit

/-- In every run under that condition a client that has failed in a session
has a retry left. -/
theorem spared_of_reach (h : (client limit).Reach (spares limit) r) (hf : r.stage=.failing)
    (hs : r.session=true) : r.retries ≤ limit := by
  suffices hinv : r.stage=.failing → r.session=true → r.retries ≤ limit from hinv hf hs
  refine h.invariant (I := fun r => r.stage=.failing → r.session=true → r.retries ≤ limit) ?_ ?_
  · exact fun hf => by cases hf
  · intro r m r' _ hi ha hm hf' hs'
    cases m <;> simp only [client,step,Option.ite_none_right_eq_some,Option.some.injEq] at hm
    case fail output =>
      obtain ⟨⟨hp,-⟩,rfl⟩ := hm
      exact ha ⟨output,rfl⟩ hs'
    case work output =>
      obtain ⟨⟨hp,-⟩,rfl⟩ := hm
      exact hi hf' hs'
    case establish output =>
      obtain ⟨hp,rfl⟩ := hm
      exact absurd (hp.symm.trans hf') (by decide)
    case idle output =>
      obtain ⟨hp,rfl⟩ := hm
      exact absurd (hp.symm.trans hf') (by decide)
    all_goals
      obtain ⟨-,rfl⟩ := hm
      cases hf'

/-- Such a client gives up only without a session and with the output off. -/
theorem givenUp_closed (h : (client limit).Reach (spares limit) r) (hm : step limit m r=some r')
    (hs : r.stage≠.givenUp) (hs' : r'.stage=.givenUp) : r'.session=false ∧ r'.output=false := by
  obtain ⟨hf,hl,rfl⟩ := givenUp_of_step hm hs hs'
  have hsession : r.session=false := by
    refine Bool.eq_false_iff.mpr fun hn => ?_
    have hle := spared_of_reach h hf hn
    omega
  have houtput : r.output=false := by
    refine Bool.eq_false_iff.mpr fun hn => ?_
    have hon := (guarded_of_reach h).session hn hs
    rw [hsession] at hon
    exact Bool.false_ne_true hon
  exact ⟨hsession,houtput⟩

/-! ## Milestones -/

/-- What a run is remembered for. -/
inductive Milestone where
  /-- A retry. -/
  | retry
  /-- A session was established, after so many retries. -/
  | session (retries : ℕ)
  deriving DecidableEq

/-- The milestones after a move, newest first. -/
def record (h : List Milestone) (r : Retry) (m : Move) (_ : Retry) : List Milestone :=
  match m with
  | .retried => .retry::h
  | .establish _ => .session r.retries::h
  | _ => h

/-- The client with its milestones beside it. -/
def remembered (limit : ℕ) : Machine (Retry × List Milestone) Move := (client limit).observe [] record

/-- How many retries there were. -/
def retryCount : List Milestone → ℕ
  | [] => 0
  | .retry::h => retryCount h+1
  | .session _::h => retryCount h

/-- The milestones since the last `n` retries, the first of them included. -/
def sinceRetries : ℕ → List Milestone → List Milestone
  | 0,_ => []
  | _+1,[] => []
  | n+1,.retry::h => .retry::sinceRetries n h
  | n+1,.session k::h => .session k::sinceRetries (n+1) h

/-- The last `n` retries were failures in a row: no session was established
since the first of them. -/
def InARow (n : ℕ) (h : List Milestone) : Prop :=
  n ≤ retryCount h ∧ ∀ k, .session k ∉ sinceRetries n h

/-- Each session tells how many retries there were before it. -/
def Numbered : List Milestone → Prop
  | [] => True
  | .retry::h => Numbered h
  | .session k::h => k=retryCount h ∧ Numbered h

/-- Since the first retry of all, sessions are those with a retry before. -/
theorem mem_sinceRetries {h : List Milestone} (hn : Numbered h) {k : ℕ} :
    .session k ∈ sinceRetries (retryCount h) h ↔ .session k ∈ h ∧ 0 < k := by
  induction h with
  | nil => simp [sinceRetries,retryCount]
  | cons a h ih =>
    cases a with
    | retry =>
      simp only [retryCount,sinceRetries,List.mem_cons,reduceCtorEq,false_or]
      exact ih hn
    | session j =>
      obtain ⟨hj,hn⟩ := hn
      have ih := ih hn
      simp only [retryCount,List.mem_cons,Milestone.session.injEq]
      cases hc : retryCount h with
      | zero =>
        rw [hc] at ih hj
        simp only [sinceRetries] at ih ⊢
        constructor
        · exact fun hm => absurd hm List.not_mem_nil
        · rintro ⟨rfl | hm,hk⟩
          · omega
          · exact ih.mpr ⟨hm,hk⟩
      | succ n =>
        rw [hc] at ih hj
        simp only [sinceRetries,List.mem_cons,Milestone.session.injEq,ih]
        constructor
        · rintro (rfl | ⟨hm,hk⟩)
          · exact ⟨.inl rfl,by omega⟩
          · exact ⟨.inr hm,hk⟩
        · rintro ⟨rfl | hm,hk⟩
          · exact .inl rfl
          · exact .inr ⟨hm,hk⟩

/-- What holds of the milestones in every run. -/
structure Chronicled (limit : ℕ) (r : Retry) (h : List Milestone) : Prop where
  /-- Every retry is remembered. -/
  count : retryCount h=r.retries
  /-- Sessions are numbered by the retries before them. -/
  numbered : Numbered h
  /-- There is at most one retry beyond the limit. -/
  bound : r.retries ≤ limit+1
  /-- A retry under way is within it. -/
  retrying : r.stage=.retrying → r.retries ≤ limit

/-- Each move keeps it. -/
theorem Chronicled.step {h : List Milestone} (hi : Chronicled limit r h)
    (hm : step limit m r=some r') : Chronicled limit r' (record h r m r') := by
  obtain ⟨hcount,hnum,hbound,hretry⟩ := hi
  cases m <;> simp only [BoundedRetry.step,Option.ite_none_right_eq_some,Option.some.injEq] at hm
  case retried =>
    obtain ⟨hp,rfl⟩ := hm
    have hle := hretry hp
    exact ⟨congrArg (·+1) hcount,hnum,Nat.succ_le_succ hle,fun hs => by cases hs⟩
  case establish output =>
    obtain ⟨hp,rfl⟩ := hm
    exact ⟨hcount,⟨hcount.symm,hnum⟩,hbound,hretry⟩
  case retry =>
    obtain ⟨⟨hp,hle⟩,rfl⟩ := hm
    exact ⟨hcount,hnum,hbound,fun _ => hle⟩
  case work output =>
    obtain ⟨-,rfl⟩ := hm
    exact ⟨hcount,hnum,hbound,hretry⟩
  case idle output =>
    obtain ⟨-,rfl⟩ := hm
    exact ⟨hcount,hnum,hbound,hretry⟩
  all_goals
    obtain ⟨-,rfl⟩ := hm
    exact ⟨hcount,hnum,hbound,fun hs => by cases hs⟩

theorem chronicled_of_reach {allowed : Retry × List Milestone → Move → Prop}
    {p : Retry × List Milestone} (h : (remembered limit).Reach allowed p) :
    Chronicled limit p.1 p.2 := by
  refine h.observed_invariant (I := Chronicled limit) ?_ ?_
  · exact ⟨rfl,trivial,Nat.zero_le _,fun hs => by cases hs⟩
  · intro s milestones m s' _ hi _ hs
    exact hi.step hs

/-- When the client gives up, its last retries were failures in a row exactly
when every session of the run came before the first retry. -/
theorem inARow_of_givenUp {allowed : Retry × List Milestone → Move → Prop}
    {p q : Retry × List Milestone} (h : (remembered limit).Reach allowed p)
    (hm : (remembered limit).step m p=some q) (hs : p.1.stage≠.givenUp)
    (hs' : q.1.stage=.givenUp) :
    InARow (limit+1) q.2 ↔ ∀ k, .session k ∈ q.2 → k=0 := by
  obtain ⟨hstep,hrec⟩ := observe_step.mp hm
  obtain ⟨-,hl,hq⟩ := givenUp_of_step hstep hs hs'
  have hi := chronicled_of_reach h
  have hnext := hi.step hstep
  rw [← hrec] at hnext
  have hretries : q.1.retries=p.1.retries := by rw [hq]
  have hcount : retryCount q.2=limit+1 := by
    have hbound := hi.bound
    have hc := hnext.count
    omega
  unfold InARow
  rw [← hcount]
  constructor
  · intro ⟨_,hnone⟩ k hk
    refine Nat.eq_zero_of_not_pos fun hpos => ?_
    exact hnone k ((mem_sinceRetries hnext.numbered).mpr ⟨hk,hpos⟩)
  · intro hzero
    refine ⟨Nat.le_refl _,fun k hk => ?_⟩
    obtain ⟨hk,hpos⟩ := (mem_sinceRetries hnext.numbered).mp hk
    have hk0 := hzero k hk
    omega

end UsbPdFirmware.BoundedRetry
