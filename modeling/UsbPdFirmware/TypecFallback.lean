import UsbPdFirmware.GivingUp
import UsbPdFirmware.OutputControl

/-!
# Falling back to Type-C Current

Once the source was given up on, the Policy Engine does nothing but measure
the Type-C Current, for ever. The output follows the measurements: the last
one that agreed with the one before it decides, with the permission of the
user at that moment.
-/

namespace UsbPdFirmware.TypecFallback

open PdMessage DevicePolicy LabelledRuns Machine EventThreads FirmwareState PolicyEngine
open FirmwareSystem Negotiation

/-! ## Agreement of two measurements -/

section Agreement

variable {α β : Type} [DecidableEq β] (f : α → β)

/-- The last element, the newest coming first, that agrees with the one
before it. -/
def agreed : List α → Option α
  | a::a'::l => if f a=f a' then some a else agreed (a'::l)
  | _ => none

variable {f} {a : α} {l : List α}

/-- A new element that does not agree changes nothing. -/
theorem agreed_cons_of_ne (h : l.head?.map f≠some (f a)) : agreed f (a::l)=agreed f l := by
  cases l with
  | nil => rfl
  | cons a' l => exact if_neg fun he => h (congrArg some he.symm)

theorem agreed_cons_of_eq (h : l.head?.map f=some (f a)) : agreed f (a::l)=some a := by
  cases l with
  | nil => cases h
  | cons a' l => exact if_pos (Option.some.inj h).symm

/-- Two elements in a row agree. -/
theorem exists_agreement (h : agreed f l=some a) : ∃ later b earlier, l=later++a::b::earlier ∧ f a=f b := by
  induction l with
  | nil => cases h
  | cons c l ih =>
    by_cases hc : l.head?.map f=some (f c)
    · rw [agreed_cons_of_eq hc] at h
      cases h
      obtain ⟨b,hb,heq⟩ := Option.map_eq_some_iff.mp hc
      obtain ⟨earlier,rfl⟩ := List.head?_eq_some_iff.mp hb
      exact ⟨[],b,earlier,rfl,heq.symm⟩
    · rw [agreed_cons_of_ne hc] at h
      obtain ⟨later,b,earlier,rfl,heq⟩ := ih h
      exact ⟨c::later,b,earlier,rfl,heq⟩

end Agreement

/-! ## What is kept outside the fallback -/

section Outside

variable {pe pe' : PolicyEngine} {pending : Event → Bool} {sh sh' : Shared} {expired : Bool}
  {o : Outcome Event PolicyEngine Shared} {m : MsgPtr} {state : PolicyEngineState}

/-- The last measurement stays, and a state begins at its first action. -/
structure Outside (pe pe' : PolicyEngine) : Prop where
  /-- The last measurement. -/
  tcc : pe'.oldTccMatch=pe.oldTccMatch
  /-- The state stays, or begins. -/
  begins : pe'.state=pe.state ∨ pe'.point=.start

theorem outside_goto {pe₁ : PolicyEngine} (h : pe₁.oldTccMatch=pe.oldTccMatch) :
    Outside pe (goto pe₁ state) := ⟨h,.inr rfl⟩

theorem outside_at {pe₁ : PolicyEngine} {point : PolicyEnginePoint} (h : pe₁.oldTccMatch=pe.oldTccMatch)
    (hs : pe₁.state=pe.state) : Outside pe (at_ pe₁ point) := ⟨h,.inl hs⟩

theorem finish_outside {pe₁ : PolicyEngine} {sh₁ : Shared} (h : finish pe₁ m sh₁ state=some (sh',pe'))
    (ht : pe₁.oldTccMatch=pe.oldTccMatch) : Outside pe pe' := by
  obtain ⟨rfl,rfl⟩ := Prod.ext_iff.mp (Option.some.inj h)
  exact outside_goto ht

theorem wait_outside {mask : List Event} {timed : Bool} {resume : List Event → PolicyEngine}
    (hr : ∀ evt, Outside pe (resume evt))
    (h : (Action.wait mask timed resume).perform expired pending sh=some o) : Outside pe o.loc := by
  rcases Action.perform_wait.mp h with ⟨-,-,rfl⟩ | ⟨-,-,-,rfl⟩
  · exact hr _
  · exact hr _

theorem sendNew_outside {build : Shared → PdMsg → PdMsg}
    (h : (sendNew pe build).perform expired pending sh=some o) : Outside pe o.loc := by
  obtain ⟨m,pool,-,rfl⟩ := sendNew_perform h
  exact outside_at rfl rfl

theorem handleMessage_outside (h : handleMessage pe m sh=some (sh',pe')) : Outside pe pe' := by
  unfold handleMessage at h
  cases hs : pe.state <;> rw [hs] at h <;> dsimp only at h
  case sinkWaitCap =>
    unfold peSinkWaitCapMessage at h
    split_ifs at h
    · obtain ⟨rfl,rfl⟩ := Prod.ext_iff.mp (Option.some.inj h)
      exact outside_goto rfl
    · exact finish_outside h rfl
    · obtain ⟨rfl,rfl⟩ := Prod.ext_iff.mp (Option.some.inj h)
      exact outside_goto rfl
  case sinkSelectCap =>
    unfold peSinkSelectCapMessage at h
    dsimp only at h
    split_ifs at h <;> exact finish_outside h rfl
  case sinkTransitionSink =>
    unfold peSinkTransitionSinkMessage at h
    dsimp only at h
    split_ifs at h <;> exact finish_outside h rfl
  case sinkReady =>
    cases peSinkReadyMessage_step h with
    | answer hs h => exact finish_outside h rfl
    | gotomin hm hg h => exact finish_outside h rfl
    | capabilities hm hsh hpe =>
      subst hpe
      exact outside_goto rfl
  case sinkSendSoftReset =>
    unfold peSinkSendSoftResetMessage at h
    split_ifs at h <;> exact finish_outside h rfl
  all_goals exact absurd h (by simp)

theorem afterSent_outside {result : TxResult}
    (h : (afterSent pe result).perform expired pending sh=some o) : Outside pe o.loc := by
  unfold afterSent at h
  cases hs : pe.state <;> rw [hs] at h <;> dsimp only at h
  case sinkSelectCap =>
    obtain ⟨-,sh',next,he,rfl⟩ := Action.perform_access.mp h
    cases result <;> obtain ⟨rfl,rfl⟩ := Prod.ext_iff.mp (Option.some.inj he)
    · exact outside_goto rfl
    · exact outside_goto rfl
    · exact outside_at rfl rfl
  case sinkSendSoftReset =>
    obtain ⟨-,rfl⟩ := Action.perform_access_some.mp h
    cases result
    · exact outside_goto rfl
    · exact outside_goto rfl
    · exact outside_at rfl rfl
  case sinkSoftReset =>
    obtain ⟨-,rfl⟩ := Action.perform_access_some.mp h
    cases result <;> exact outside_goto rfl
  case sinkSendNotSupported =>
    obtain ⟨-,rfl⟩ := Action.perform_access_some.mp h
    cases result <;> exact outside_goto rfl
  case sinkGetSourceCap =>
    obtain ⟨-,rfl⟩ := Action.perform_access_some.mp h
    cases result <;> exact outside_goto rfl
  case sinkGiveSinkCap =>
    obtain ⟨-,rfl⟩ := Action.perform_access_some.mp h
    cases result <;> exact outside_goto rfl
  all_goals exact absurd h Action.perform_stuck

theorem stateFunction_outside (hs : pe.state≠.sinkSourceUnresponsive)
    (h : (stateFunction pe).perform expired pending sh=some o) : Outside pe o.loc := by
  unfold stateFunction at h
  cases hstate : pe.state <;> rw [hstate] at h <;> dsimp only at h
  case sinkEvalCap =>
    obtain ⟨request,ppsIndex,lastPps,pool,-,rfl⟩ := peSinkEvalCap_perform h
    exact outside_goto rfl
  case sinkSelectCap =>
    obtain ⟨m,-,rfl⟩ := peSinkSelectCap_perform h
    exact outside_at rfl rfl
  case sinkHardReset =>
    unfold peSinkHardReset at h
    by_cases hl : pdNHardResetCount < pe.hardResetCounter
    · rw [if_pos hl] at h
      obtain ⟨-,rfl⟩ := Action.perform_access_some.mp h
      exact outside_goto rfl
    · rw [if_neg hl] at h
      obtain ⟨-,rfl⟩ := Action.perform_signal.mp h
      exact outside_at rfl rfl
  case sinkTransitionDefault =>
    obtain ⟨-,rfl⟩ := Action.perform_access_some.mp h
    exact outside_at rfl rfl
  case sinkSourceUnresponsive => exact absurd hstate hs
  case sinkWaitCap =>
    refine wait_outside (fun evt => ?_) h
    split_ifs
    all_goals first | exact outside_goto rfl | exact outside_at rfl rfl
  case sinkTransitionSink =>
    refine wait_outside (fun evt => ?_) h
    split_ifs
    all_goals first | exact outside_goto rfl | exact outside_at rfl rfl
  case sinkReady =>
    refine wait_outside (fun evt => ?_) h
    split_ifs
    all_goals first | exact outside_goto rfl | exact outside_at rfl rfl
  case sinkChunkReceived =>
    refine wait_outside (fun evt => ?_) h
    split_ifs
    all_goals exact outside_goto rfl
  case sinkGetSourceCap => exact sendNew_outside h
  case sinkGiveSinkCap => exact sendNew_outside h
  case sinkSoftReset => exact sendNew_outside h
  case sinkSendSoftReset => exact sendNew_outside h
  case sinkSendNotSupported => exact sendNew_outside h
  all_goals
    obtain ⟨-,rfl⟩ := Action.perform_access_some.mp h
    exact outside_goto rfl

/-- Every action of the thread outside the fallback. -/
theorem policyEngine_outside (hs : pe.state≠.sinkSourceUnresponsive)
    (h : (policyEngine pe).perform expired pending sh=some o) : Outside pe o.loc := by
  unfold policyEngine at h
  cases hp : pe.point <;> rw [hp] at h <;> dsimp only at h
  case start => exact stateFunction_outside hs h
  case sent result => exact afterSent_outside h
  case handle =>
    obtain ⟨m,sh',next,hm,he,rfl⟩ := handle_perform h
    exact handleMessage_outside he
  case dropMessage =>
    obtain ⟨-,rfl⟩ := Action.perform_access_some.mp h
    exact outside_at rfl rfl
  case startAms next =>
    obtain ⟨-,rfl⟩ := Action.perform_signal.mp h
    exact outside_goto rfl
  case signalTx =>
    obtain ⟨-,rfl⟩ := Action.perform_signal.mp h
    exact outside_at rfl rfl
  case waitTx => exact wait_outside (fun evt => outside_at rfl rfl) h
  case waitResponse =>
    refine wait_outside (fun evt => ?_) h
    split_ifs
    all_goals first | exact outside_goto rfl | exact outside_at rfl rfl
  case fetch =>
    rcases fetchMessage_perform h with ⟨-,rfl⟩ | ⟨m,rest,-,rfl⟩
    · exact outside_goto rfl
    · exact outside_at rfl rfl
  case waitHardSent =>
    refine wait_outside (fun evt => ?_) h
    exact outside_goto rfl
  case signalDone =>
    obtain ⟨-,rfl⟩ := Action.perform_signal.mp h
    exact outside_goto rfl

end Outside

/-! ## Measurements -/

/-- One measurement. -/
structure Measurement where
  /-- The Type-C Current fulfils the configured needs. -/
  sufficient : Bool
  /-- The user permits the output. -/
  enabled : Bool

/-- The measurement that the thread makes next. -/
def measure (sh : Shared) : Measurement :=
  ⟨(pdbsDpmEvaluateTypecCurrent sh.config sh.phy.bcLvl sh.dpm).2,sh.dpm.outputEnabled⟩

/-- What is remembered of the fallback. -/
structure Fallback where
  /-- The output before the first measurement. -/
  before : Bool
  /-- The measurements, the newest first. -/
  measured : List Measurement

/-- The output that measurements lead to. -/
def Fallback.output (h : Fallback) : Bool :=
  match agreed Measurement.sufficient h.measured with
  | some m => m.sufficient && m.enabled
  | none => h.before

/-- Remember the measurements. -/
def recordMeasurement (h : Fallback) (s : System) (l : Label) (s' : System) : Fallback :=
  if l.isPe then
    if s.pe.state=.sinkSourceUnresponsive then {h with measured := measure s.shared::h.measured}
    else ⟨s'.shared.dpm.outCtrl,[]⟩
  else h

/-- The firmware with the measurements beside it. -/
def measuring : Machine (System × Fallback) Label := firmware.observe ⟨false,[]⟩ recordMeasurement

/-! ## Runs -/

/-- What the thread keeps of the last measurement. -/
def keptMatch : List Measurement → ℤ
  | [] => -1
  | m::_ => if m.sufficient then 1 else 0

/-- It agrees with a measurement exactly when there was one that does. -/
theorem keptMatch_eq_iff {l : List Measurement} {m : Measurement} :
    keptMatch l=(if m.sufficient then 1 else 0) ↔ l.head?.map Measurement.sufficient=some m.sufficient := by
  cases l with
  | nil => cases hm : m.sufficient <;> simp [keptMatch]
  | cons m' l => cases hm : m.sufficient <;> cases hm' : m'.sufficient <;> simp [keptMatch,hm']

/-- What the measurements tell of the system. -/
structure Measured (s : System) (h : Fallback) : Prop where
  /-- The fallback consists of measurements only. -/
  steady : s.pe.state=.sinkSourceUnresponsive → s.pe.point=.start
  /-- Outside it there are none. -/
  outside : s.pe.state≠.sinkSourceUnresponsive → h.measured=[]
  /-- The last one is kept. -/
  kept : s.pe.oldTccMatch=keptMatch h.measured
  /-- They decide on the output. -/
  output : s.shared.dpm.outCtrl=h.output

section Runs

variable {s s' : System} {l : Label} {h : Fallback} {o : Outcome Event PolicyEngine Shared}

/-- Where others act, the system is as before for the Policy Engine. -/
theorem eq_amid (hs : firmware.step l s=some s') (hl : l.isPe=false) : amid s s'=s' := by
  have hstep := firmware_negotiates hs
  cases l with
  | pe => cases hl
  | peTimeout => cases hl
  | _ => exact Option.some.inj hstep

/-- A measurement that disagrees with the one before changes nothing. -/
theorem output_of_disagreement {m : Measurement}
    (hm : h.measured.head?.map Measurement.sufficient≠some m.sufficient) :
    Fallback.output {h with measured := m::h.measured}=h.output := by
  unfold Fallback.output
  dsimp only
  rw [agreed_cons_of_ne hm]

theorem output_of_agreement {m : Measurement}
    (hm : h.measured.head?.map Measurement.sufficient=some m.sufficient) :
    Fallback.output {h with measured := m::h.measured}=(m.sufficient && m.enabled) := by
  unfold Fallback.output
  dsimp only
  rw [agreed_cons_of_eq hm]

/-- An output that is on was on before, or two sufficient measurements in a row
put it on, the second with the user's permission. -/
theorem sufficient_twice (hon : h.output=true) (hbefore : h.before=false) :
    ∃ later m m' earlier, h.measured=later++m::m'::earlier ∧ m.sufficient=true ∧ m'.sufficient=true ∧
      m.enabled=true := by
  unfold Fallback.output at hon
  split at hon
  · next m hagreed =>
    obtain ⟨later,m',earlier,hmeasured,hsame⟩ := exists_agreement hagreed
    obtain ⟨hsufficient,henabled⟩ := Bool.and_eq_true_iff.mp hon
    exact ⟨later,m,m',earlier,hmeasured,hsufficient,hsame.symm.trans hsufficient,henabled⟩
  · rw [hbefore] at hon
    cases hon

/-- One measurement. -/
theorem Measured.measure {expired : Bool} (hm : Measured s h) (hs : s.pe.state=.sinkSourceUnresponsive)
    (ho : (policyEngine s.pe).perform expired s.pending s.shared=some o) :
    Measured (s.withPe o) {h with measured := measure s.shared::h.measured} := by
  unfold policyEngine at ho
  rw [hm.steady hs] at ho
  dsimp only at ho
  unfold stateFunction at ho
  rw [hs] at ho
  obtain ⟨-,rfl⟩ := Action.perform_access_some.mp ho
  have hiff := keptMatch_eq_iff (l := h.measured) (m := TypecFallback.measure s.shared)
  refine ⟨fun _ => rfl,fun hne => absurd rfl hne,rfl,?_⟩
  change (if s.pe.oldTccMatch=(if (TypecFallback.measure s.shared).sufficient then 1 else 0)
    then pdbsDpmTransitionTypec (pdbsDpmEvaluateTypecCurrent s.shared.config s.shared.phy.bcLvl s.shared.dpm).1
    else (pdbsDpmEvaluateTypecCurrent s.shared.config s.shared.phy.bcLvl s.shared.dpm).1).outCtrl=_
  by_cases hagrees : h.measured.head?.map Measurement.sufficient=
      some (TypecFallback.measure s.shared).sufficient
  · rw [output_of_agreement hagrees,hm.kept,if_pos (hiff.mpr hagrees)]
    rfl
  · rw [output_of_disagreement hagrees,hm.kept,if_neg fun heq => hagrees (hiff.mp heq)]
    exact hm.output

/-- Every other action. -/
theorem Measured.act {expired : Bool} (hm : Measured s h) (hs : s.pe.state≠.sinkSourceUnresponsive)
    (ho : (policyEngine s.pe).perform expired s.pending s.shared=some o) :
    Measured (s.withPe o) ⟨o.shared.dpm.outCtrl,[]⟩ := by
  have hout := policyEngine_outside hs ho
  refine ⟨fun hs' => hout.begins.resolve_left fun hsame => hs (hsame.symm.trans hs'),fun _ => rfl,?_,rfl⟩
  change o.loc.oldTccMatch=_
  rw [hout.tcc,hm.kept,hm.outside hs]

/-- In every run. -/
theorem measuring_measured {p : System × Fallback} (h : measuring.Reach anyStep p) : Measured p.1 p.2 := by
  refine h.observed_invariant (I := Measured) ?_ fun s h l s' hr hm _ hs => ?_
  · exact ⟨fun hs => (by cases hs),fun _ => rfl,rfl,rfl⟩
  · unfold recordMeasurement
    cases hl : l.isPe with
    | false =>
      have heq := eq_amid hs hl
      rw [if_neg Bool.false_ne_true,← heq]
      exact ⟨hm.steady,hm.outside,hm.kept,hm.output⟩
    | true =>
      rw [if_pos rfl]
      obtain ⟨o,ho,rfl⟩ := exists_peStep (firmware_moved hs) hl
      by_cases hstate : s.pe.state=.sinkSourceUnresponsive
      · rw [if_pos hstate]
        exact hm.measure hstate ho
      · rw [if_neg hstate]
        exact hm.act hstate ho

/-- In every interleaving, once the source was given up on the Policy Engine
measures the Type-C Current for ever, and the output is what the last two
measurements in a row that agreed lead to; before there were two, it is what
it was before the first. So two sufficient ones in a row switch it on. -/
theorem output_debounced {p : System × Fallback} (h : measuring.Reach anyStep p)
    (hs : p.1.pe.state=.sinkSourceUnresponsive) : p.1.shared.dpm.outCtrl=p.2.output ∧
      (p.1.shared.dpm.outCtrl=true → p.2.before=false → ∃ later m m' earlier,
        p.2.measured=later++m::m'::earlier ∧ m.sufficient=true ∧ m'.sufficient=true ∧ m.enabled=true) ∧
      ∀ l q, measuring.step l p=some q → q.1.pe.state=.sinkSourceUnresponsive ∧
        q.2.before=p.2.before ∧
        q.2.measured=if l.isPe then measure p.1.shared::p.2.measured else p.2.measured := by
  have hm := measuring_measured h
  refine ⟨hm.output,fun hon => sufficient_twice (hm.output.symm.trans hon),fun l q hstep => ?_⟩
  obtain ⟨hfirmware,hrecord⟩ := observe_step.mp hstep
  rw [hrecord]
  unfold recordMeasurement
  rw [if_pos hs]
  cases hl : l.isPe with
  | false =>
    rw [← eq_amid hfirmware hl]
    exact ⟨hs,rfl,rfl⟩
  | true =>
    obtain ⟨o,ho,hq⟩ := exists_peStep (firmware_moved hfirmware) hl
    have hnext := (hm.measure hs ho).outside
    refine ⟨?_,rfl,rfl⟩
    by_contra hne
    rw [hq] at hne
    cases hnext hne

/-- A device configured for 100 mA at 5 V gives up on a silent source that
advertises 1.5 A; the second measurement switches the output on. -/
theorem output_debounced_silent : ∃ p, measuring.Reach anyStep p ∧
    p.1.pe.state=.sinkSourceUnresponsive ∧ p.2.before=false ∧ p.1.shared.dpm.outCtrl=true ∧
    p.1.shared.dpm.outCtrl=p.2.output := by
  obtain ⟨p,hr,ht⟩ := exists_reach_of_follow measuring anyStep
    (List.flatten [[.env (.storeConfig (some ⟨1,0,5000,10,0,0⟩)),.env (.bcLvl .a15)],powerUp,
      GivingUp.threeFailures,[.peTimeout,.pe,.pe,.pe]])
    (fun p => decide (p.1.pe.state=.sinkSourceUnresponsive ∧ p.2.before=false ∧
      p.1.shared.dpm.outCtrl=true)) (by decide +kernel)
  obtain ⟨hs,hbefore,hout⟩ := of_decide_eq_true ht
  exact ⟨p,hr,hs,hbefore,hout,(output_debounced hr hs).1⟩

end Runs

end UsbPdFirmware.TypecFallback
