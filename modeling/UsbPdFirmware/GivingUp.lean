import UsbPdFirmware.PolicyEngineTurns
import UsbPdFirmware.FirmwareSystem

/-!
# Giving up on the source

After more hard resets than the limit the Policy Engine gives up on the
source and takes the bus to be at 5 V. It counts every hard reset it ever
sent. So it may give up on a source with which it has a contract, at once
after a single failure, and leave the output on. Seen through contract,
output and counter, the firmware is a client with a bounded number of
retries.
-/

namespace UsbPdFirmware.GivingUp

open LabelledRuns Machine EventThreads FirmwareState FirmwareSystem BoundedRetry
open PdMessage DevicePolicy PolicyEngine PolicyEngineMoves PolicyEngineTurns ProtocolRx ProtocolTx
  HardReset

/-! ## The firmware as a client -/

/-- The Policy Engine as a client that establishes contracts. -/
def asClient (s : System) : Retry where
  stage := stage s.pe
  session := s.pe.explicitContract
  output := s.shared.dpm.outCtrl
  retries := s.pe.hardResetCounter

/-- The client is what its parts are. -/
theorem asClient_eq {s : System} {r : Retry} (hs : stage s.pe=r.stage)
    (hc : s.pe.explicitContract=r.session) (ho : s.shared.dpm.outCtrl=r.output)
    (hr : s.pe.hardResetCounter=r.retries) : asClient s=r := by
  cases r
  simp only [asClient,Retry.mk.injEq]
  exact ⟨hs,hc,ho,hr⟩

/-- The milestones after a step: a hard reset was sent, or a contract was
concluded after so many of them. -/
def record (h : List Milestone) (s : System) (l : Label) (_ : System) : List Milestone :=
  if l.isPe then
    if s.pe.point=.waitHardSent then .retry::h
    else if concludes s.pe then .session s.pe.hardResetCounter::h
    else h
  else h

/-- The firmware with its milestones beside it. -/
def remembering : Machine (System × List Milestone) Label := firmware.observe [] record

/-- Client and milestones. -/
def view (p : System × List Milestone) : Retry × List Milestone := (asClient p.1,p.2)

/-- The Policy Engine gives up what it is doing and turns to a hard reset. -/
def failsAt (s : System) (l : Label) : Prop :=
  l.isPe=true ∧ fails s.pe l.isPeTimeout s.pending s.shared=true

/-- Only a failure justifies a failure. -/
def why (s : System) (l : Label) (m : Move) : Prop := (∃ output, m=.fail output) → failsAt s l

section Record

variable {h : List Milestone} {s s' : System} {l : Label}

theorem record_retry (hl : l.isPe=true) (hp : s.pe.point=.waitHardSent) :
    record h s l s'=.retry::h := by
  unfold record
  rw [if_pos hl,if_pos hp]

theorem record_session (hl : l.isPe=true) (hn : concludes s.pe=true) (hp : s.pe.point≠.waitHardSent) :
    record h s l s'=.session s.pe.hardResetCounter::h := by
  unfold record
  rw [if_pos hl,if_neg hp,if_pos hn]

theorem record_none (hn : concludes s.pe=false) (hp : s.pe.point≠.waitHardSent) :
    record h s l s'=h := by
  unfold record
  rw [if_neg hp,hn]
  split_ifs
  · contradiction
  · rfl
  · rfl

theorem record_other (hl : l.isPe=false) : record h s l s'=h := by
  unfold record
  rw [hl]
  rfl

end Record

/-- At only one point does the thread wait for the hard reset to be sent. -/
theorem point_ne_of_stage {pe : PolicyEngine} {st : Stage} (hp : stage pe=st) (hst : st≠.retrying) :
    pe.point≠.waitHardSent := by
  intro hw
  refine hst (hp.symm.trans ?_)
  unfold stage
  rw [hw]

/-- Elsewhere than at work no contract is concluded. -/
theorem concludes_of_stage {pe : PolicyEngine} {st : Stage} (hp : stage pe=st) (hst : st≠.working) :
    concludes pe=false :=
  concludes_of_ne fun hh => hst (hp.symm.trans (stage_handle hh))

/-- A step that is a move of the client, with the milestones of the move. -/
theorem seen_as {p : System × List Milestone} {s' : System} {l : Label} (m : Move) {r : Retry}
    (hw : why p.1 l m) (hs : step pdNHardResetCount m (asClient p.1)=some r) (hv : asClient s'=r)
    (hr : record p.2 p.1 l s'=BoundedRetry.record p.2 (asClient p.1) m r) :
    (remembered pdNHardResetCount).Seen view (why p.1 l) p (s',record p.2 p.1 l s') := by
  subst hv
  exact .inr ⟨m,hw,observe_step.mpr ⟨hs,hr⟩⟩

/-- What is no failure needs no justification. -/
theorem why_other {s : System} {l : Label} {m : Move} (hm : ∀ output, m≠.fail output) : why s l m :=
  fun ⟨output,h⟩ => absurd h (hm output)

/-- The Policy Engine's part. -/
theorem pe_retries {p : System × List Milestone} {l : Label} {o : Outcome Event PolicyEngine Shared}
    (hl : l.isPe=true) (h : Turn p.1.pe l.isPeTimeout p.1.pending p.1.shared o) :
    (remembered pdNHardResetCount).Seen view (why p.1 l) p
      (p.1.withPe o,record p.2 p.1 l (p.1.withPe o)) := by
  cases h with
  | begin hp hp' hc hr ho =>
    refine seen_as .begin (why_other (by simp)) (if_pos hp) (asClient_eq hp' hc ho hr) ?_
    exact record_none (concludes_of_stage hp (by decide)) (point_ne_of_stage hp (by decide))
  | work hp hp' hn hs =>
    refine seen_as (.work o.shared.dpm.outCtrl) (why_other (by simp)) (if_pos ⟨hp,hs.output⟩)
      (asClient_eq (hp'.trans hp.symm) hs.contract rfl hs.resets) ?_
    exact record_none hn (point_ne_of_stage hp (by decide))
  | establish hp hp' hn hc hr =>
    refine seen_as (.establish o.shared.dpm.outCtrl) (why_other (by simp)) (if_pos hp)
      (asClient_eq (hp'.trans hp.symm) hc rfl hr) ?_
    exact record_session hl hn (point_ne_of_stage hp (by decide))
  | fail hp hp' hn hs hf =>
    refine seen_as (.fail o.shared.dpm.outCtrl) (fun _ => ⟨hl,hf⟩) (if_pos ⟨hp,hs.output⟩)
      (asClient_eq hp' hs.contract rfl hs.resets) ?_
    exact record_none hn (point_ne_of_stage hp (by decide))
  | retry hp hle =>
    refine seen_as .retry (why_other (by simp)) (if_pos ⟨hp,hle⟩) (asClient_eq rfl rfl rfl rfl) ?_
    exact record_none (concludes_of_stage hp (by decide)) (point_ne_of_stage hp (by decide))
  | retried hp =>
    have hst : stage p.1.pe=.retrying := by unfold stage; rw [hp]
    refine seen_as .retried (why_other (by simp)) (if_pos hst) (asClient_eq rfl rfl rfl rfl) ?_
    exact record_retry hl hp
  | giveUp hp hlt =>
    refine seen_as .giveUp (why_other (by simp)) (if_pos ⟨hp,hlt⟩) (asClient_eq rfl rfl rfl rfl) ?_
    exact record_none (concludes_of_stage hp (by decide)) (point_ne_of_stage hp (by decide))
  | interrupt hp hp' hn hc hr ho =>
    refine seen_as .interrupt (why_other (by simp)) (if_pos hp) (asClient_eq hp' hc ho hr) ?_
    exact record_none hn (point_ne_of_stage hp (by decide))
  | close hp =>
    refine seen_as .close (why_other (by simp)) (if_pos hp) (asClient_eq rfl rfl rfl rfl) ?_
    exact record_none (concludes_of_stage hp (by decide)) (point_ne_of_stage hp (by decide))
  | reopen hp =>
    have hst : stage p.1.pe=.closed := by unfold stage; rw [hp]
    refine seen_as .reopen (why_other (by simp)) (if_pos hst) (asClient_eq rfl rfl rfl rfl) ?_
    exact record_none (concludes_of_stage hst (by decide)) (point_ne_of_stage hst (by decide))
  | idle hp hp' hc hr =>
    refine seen_as (.idle o.shared.dpm.outCtrl) (why_other (by simp)) (if_pos hp)
      (asClient_eq (hp'.trans hp.symm) hc rfl hr) ?_
    exact record_none (concludes_of_stage hp (by decide)) (point_ne_of_stage hp (by decide))

/-- A step that leaves the Policy Engine and the output alone. -/
theorem seen_kept {p q : System × List Milestone} {l : Label} (hl : l.isPe=false)
    (hrec : q.2=record p.2 p.1 l q.1) (hpe : q.1.pe=p.1.pe)
    (ho : q.1.shared.dpm.outCtrl=p.1.shared.dpm.outCtrl) :
    (remembered pdNHardResetCount).Seen view (why p.1 l) p q := by
  refine .inl (Prod.ext ?_ ?_)
  · exact asClient_eq (by rw [hpe]; rfl) (by rw [hpe]; rfl) ho (by rw [hpe]; rfl)
  · exact hrec.trans (record_other hl)

/-- Every step of the firmware is a move of the client, or none. -/
theorem firmware_retries {p q : System × List Milestone} {l : Label}
    (h : remembering.step l p=some q) :
    (remembered pdNHardResetCount).Seen view (why p.1 l) p q := by
  obtain ⟨hs,hrec⟩ := observe_step.mp h
  obtain ⟨s',h'⟩ := q
  dsimp only at hs hrec
  have hmoved := firmware_moved hs
  cases hmoved with
  | pe hl he hp =>
    rw [hrec]
    rw [expired_eq hl he] at hp
    exact pe_retries hl (policyEngine_turn hp)
  | rx hr => exact seen_kept rfl hrec rfl (by rw [System.withRx,hr.frame.dpm])
  | tx ht => exact seen_kept rfl hrec rfl (by rw [System.withTx,ht.frame.dpm])
  | hr hl hh =>
    exact seen_kept (by rcases hl with rfl | rfl <;> rfl) hrec rfl (by rw [System.withHr,hh.frame.dpm])
  | intN hi => exact seen_kept rfl hrec rfl (by rw [System.withIntN,hi.frame.dpm])
  | env he => exact seen_kept rfl hrec (environment_frame he).pe (environment_frame he).outCtrl

/-- The same without the milestones. -/
theorem firmware_asClient {s s' : System} {l : Label} (h : firmware.step l s=some s') :
    (client pdNHardResetCount).Seen asClient (why s l) s s' := by
  have hs : remembering.step l (s,[])=some (s',record [] s l s') := observe_step.mpr ⟨h,rfl⟩
  rcases firmware_retries hs with hv | ⟨m,hw,hv⟩
  · exact .inl (congrArg Prod.fst hv)
  · exact .inr ⟨m,hw,(observe_step.mp hv).1⟩

/-! ## Giving up in a contract -/

/-- The next state function is `PESinkSourceUnresponsive`, and the last one
was not. -/
def Enters (s s' : System) : Prop := stage s.pe≠.givenUp ∧ stage s'.pe=.givenUp

instance (s s' : System) : Decidable (Enters s s') := inferInstanceAs (Decidable (_ ∧ _))

/-- No failure turns to a hard reset while a contract is in force and the
hard resets are used up. -/
def sparesContract (s : System) (l : Label) : Prop :=
  failsAt s l → s.pe.explicitContract=true → s.pe.hardResetCounter ≤ pdNHardResetCount

instance (s : System) (l : Label) : Decidable (sparesContract s l) :=
  inferInstanceAs (Decidable (_ ∧ _ → _))

/-- In every run under that condition the Policy Engine gives up on the
source only without a contract and with the output off. -/
theorem gaveUp_closed {s s' : System} {l : Label} (h : firmware.Reach sparesContract s)
    (hs : firmware.step l s=some s') (he : Enters s s') :
    s'.pe.explicitContract=false ∧ s'.shared.dpm.outCtrl=false := by
  have hstart : asClient firmware.start=(client pdNHardResetCount).start := rfl
  have hr : (client pdNHardResetCount).Reach (spares pdNHardResetCount) (asClient s) :=
    h.project hstart (fun _ _ _ hs => firmware_asClient hs) fun _ _ _ ha hw hf => ha (hw hf)
  rcases firmware_asClient hs with hv | ⟨m,-,hm⟩
  · have hstage : stage s'.pe=stage s.pe := congrArg Retry.stage hv
    exact absurd (hstage.symm.trans he.2) he.1
  · exact givenUp_closed hr hm he.1 he.2

/-- The hard reset asked for is sent, and every thread recovers from it. -/
def hardResetSent : List Label :=
  [.pe,.hr,.hr,.hr,.hr,.rx,.hr,.tx,.tx,.tx,.hr,.env .hardsent,.intN,.intN,.intN,.intN,.intN,.hr,.hr,
    .pe,.pe,.pe,.pe,.pe,.hr,.hr]

/-- No capabilities arrive three times in a row. -/
def threeFailures : List Label :=
  List.flatten [[.peTimeout],hardResetSent,[.peTimeout],hardResetSent,[.peTimeout],hardResetSent]

/-- A source that never answers is given up. -/
theorem gaveUp_closed_silent : ∃ s s', firmware.Reach sparesContract s ∧
    firmware.step .pe s=some s' ∧ Enters s s' ∧
    s'.pe.explicitContract=false ∧ s'.shared.dpm.outCtrl=false := by
  obtain ⟨s,s',hr,hs,ht⟩ := exists_step_of_follow firmware sparesContract
    (List.flatten [powerUp,threeFailures,[.peTimeout]]) .pe (fun s s' => decide (Enters s s'))
    (by decide +kernel)
  have he : Enters s s' := of_decide_eq_true ht
  exact ⟨s,s',hr,hs,he,gaveUp_closed hr hs he⟩

/-- A device configured for 100 mA at 5 V sends three hard resets in vain.
Then a contract is concluded at last, and the output goes on. Then the
temperature is too high. -/
def lateContract : List Label :=
  List.flatten [[.env (.storeConfig (some ⟨1,0,5000,10,0,0⟩))],powerUp,threeFailures,
    deliver (sourceCapabilities 1),[.pe,.pe,.pe,.pe,.pe,.pe],send,acknowledge 0,[.pe,.pe],
    deliver (controlMessage pdMsgtypeAccept 2),[.pe,.pe,.pe],
    deliver (controlMessage pdMsgtypePsRdy 3),[.pe,.pe,.pe,.env (.ocpTemp true),.intN,.intN,.intN,
    .intN,.intN,.pe]]

/-- The Policy Engine then gives up in a contract, with the output on. -/
theorem exists_gaveUp_powered : ¬∀ s l s', firmware.Reach anyStep s → firmware.step l s=some s' →
    Enters s s' → s'.pe.explicitContract=false ∧ s'.shared.dpm.outCtrl=false := by
  intro h
  obtain ⟨s,s',hr,hs,ht⟩ := exists_step_of_follow firmware anyStep lateContract .pe
    (fun s s' => decide (Enters s s' ∧ s'.pe.explicitContract=true ∧ s'.shared.dpm.outCtrl=true))
    (by decide +kernel)
  obtain ⟨he,hc,-⟩ := of_decide_eq_true ht
  have hclosed := (h s .pe s' hr hs he).1
  rw [hc] at hclosed
  exact absurd hclosed (by decide)

/-! ## Giving up after unrelated failures -/

/-- When the Policy Engine gives up, its last hard resets were failures in a
row exactly when every contract of the run was concluded before the first
hard reset it sent. -/
theorem gaveUp_inARow {p q : System × List Milestone} {l : Label}
    (h : remembering.Reach anyStep p) (hs : remembering.step l p=some q) (he : Enters p.1 q.1) :
    InARow (pdNHardResetCount+1) q.2 ↔ ∀ k, .session k ∈ q.2 → k=0 := by
  have hstart : view remembering.start=(remembered pdNHardResetCount).start := rfl
  have hr : (remembered pdNHardResetCount).Reach anyStep (view p) :=
    h.project hstart (fun _ _ _ hs => firmware_retries hs) fun _ _ _ _ _ => trivial
  rcases firmware_retries hs with hv | ⟨m,-,hm⟩
  · have hstage : stage q.1.pe=stage p.1.pe := congrArg (fun v => v.1.stage) hv
    exact absurd (hstage.symm.trans he.2) he.1
  · exact inARow_of_givenUp hr hm he.1 he.2

/-- A contract ends with a failure, and the source never answers again. -/
def lostContract : List Label :=
  List.flatten [negotiate,[.env (.ocpTemp true),.intN,.intN,.intN,.intN,.intN,.pe],hardResetSent,
    [.peTimeout],hardResetSent,[.peTimeout],hardResetSent,[.peTimeout]]

/-- That contract came first, and the three hard resets were failures in a row. -/
theorem gaveUp_inARow_lost : ∃ p q, remembering.Reach anyStep p ∧ remembering.step .pe p=some q ∧
    Enters p.1 q.1 ∧ q.2=[.retry,.retry,.retry,.session 0] ∧ InARow (pdNHardResetCount+1) q.2 := by
  obtain ⟨p,q,hr,hs,ht⟩ := exists_step_of_follow remembering anyStep lostContract .pe
    (fun p q => decide (Enters p.1 q.1 ∧ q.2=[.retry,.retry,.retry,.session 0])) (by decide +kernel)
  obtain ⟨he,hq⟩ := of_decide_eq_true ht
  refine ⟨p,q,hr,hs,he,hq,(gaveUp_inARow hr hs he).mpr fun k hk => ?_⟩
  rw [hq] at hk
  simpa using hk

/-- A contract concluded after three hard resets does not save the next
failure from being the last. -/
theorem exists_gaveUp_late : ¬∀ p l q, remembering.Reach anyStep p → remembering.step l p=some q →
    Enters p.1 q.1 → InARow (pdNHardResetCount+1) q.2 := by
  intro h
  obtain ⟨p,q,hr,hs,ht⟩ := exists_step_of_follow remembering anyStep lateContract .pe
    (fun p q => decide (Enters p.1 q.1 ∧ .session 3 ∈ sinceRetries (pdNHardResetCount+1) q.2))
    (by decide +kernel)
  obtain ⟨he,hmem⟩ := of_decide_eq_true ht
  exact (h p .pe q hr hs he).2 3 hmem

end UsbPdFirmware.GivingUp
