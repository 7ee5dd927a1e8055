import UsbPdFirmware.SinkCapabilities
import UsbPdFirmware.SinkPolicy

/-!
# The Policy Engine's conversation

What the Policy Engine posts and reads, hard resets included, recorded over
the runs of the firmware. Every record is a conversation under the policy of
a sink: each state function stands for a stage of it.
-/

namespace UsbPdFirmware.Conversation

open PdMessage DevicePolicy BitFields LabelledRuns Machine EventThreads FirmwareState PolicyEngine
open FirmwareSystem PolicyEngineMoves BlockCustody BlockOwners HeaderTemplate SinkCapabilities SinkPolicy

/-! ## The record -/

/-- What is said in one action of the Policy Engine. -/
def spoken (pe pe' : PolicyEngine) : Option Act :=
  match pe.point with
  | .handle => pe.message.map fun m => .read m.msg
  | .start =>
    if pe'.point=.signalTx then
      (if pe.state=.sinkSelectCap then pe'.lastDpmRequest else pe'.sending).map fun m => .post m.msg
    else if pe'.point=.waitHardSent then some .ask
    else if pe.state=.sinkTransitionDefault then some .reset
    else none
  | _ => none

/-- Add what was said. -/
def recordTalk (talk : List Act) (s : System) (l : Label) (s' : System) : List Act :=
  if l.isPe then talk++(spoken s.pe s'.pe).toList else talk

/-- The firmware with its conversation beside it. -/
def talking : Machine (System × List Act) Label := firmware.observe [] recordTalk

/-! ## Stages -/

/-- The stages in which a state function begins. -/
def startFits (stage : Stage) : PolicyEngineState → Prop
  | .sinkStartup => stage=.silent
  | .sinkDiscovery => stage=.silent
  | .sinkWaitCap => stage=.silent
  | .sinkEvalCap => stage=.offered ∨ stage.Open
  | .sinkSelectCap => stage=.offered ∨ stage.Open
  | .sinkTransitionSink => stage=.accepted
  | .sinkReady => stage.Open
  | .sinkGetSourceCap => stage.Open
  | .sinkGiveSinkCap => stage=.owing .sinkCapabilities
  | .sinkSoftReset => stage=.owing .accept
  | .sinkSendSoftReset => stage=.confused ∨ stage=.answered
  | .sinkSendNotSupported => stage=.owing .notSupported
  | .sinkChunkReceived => stage=.owing .notSupported
  | .sinkNotSupportedReceived => stage.Open
  | .sinkHardReset => True
  | .sinkTransitionDefault => True
  | .sinkSourceUnresponsive => True

/-- The stages inside a state function. -/
def insideFits (stage : Stage) : PolicyEngineState → Prop
  | .sinkWaitCap => stage=.silent
  | .sinkSoftReset => stage=.silent
  | .sinkSelectCap => stage=.requested
  | .sinkTransitionSink => stage=.accepted
  | .sinkReady => stage.Open
  | .sinkSendSoftReset => stage=.resyncing
  | .sinkSendNotSupported => stage=.answered
  | .sinkGetSourceCap => stage=.ready
  | .sinkGiveSinkCap => stage=.ready
  | _ => True

/-- The stages in which the thread can stand. -/
def fits (stage : Stage) (pe : PolicyEngine) : Prop :=
  match pe.point with
  | .start => startFits stage pe.state
  | .dropMessage => stage.Open
  | .startAms _ => stage.Open
  | .signalDone => stage=.silent
  | _ => insideFits stage pe.state

/-- The thread stands before its first action, or comes back there. -/
def opens (pe : PolicyEngine) : Prop := pe.point=.signalDone ∨ pe.point=.start ∧ pe.state=.sinkStartup

/-- The thread is at this stage of its conversation. -/
structure AtStage (stage : Stage) (pe : PolicyEngine) : Prop where
  /-- It stands where the stage allows. -/
  fits : fits stage pe
  /-- There is no contract before the first action. -/
  closed : opens pe → pe.explicitContract=false
  /-- What it keeps as its Request is one. -/
  request : ∀ r, pe.lastDpmRequest=some r → r.msg.isData pdMsgtypeRequest=true

/-- The session of a thread. -/
def session (stage : Stage) (pe : PolicyEngine) : Session := ⟨stage,pe.explicitContract⟩

/-- One act or none, under the rules. -/
def Said (s : Session) (act : Option Act) (s' : Session) : Prop :=
  match act with
  | none => s'=s
  | some a => Step s a s'

/-- An action keeps to the rules. -/
def Converses (stage : Stage) (pe pe' : PolicyEngine) : Prop :=
  ∃ stage', Said (session stage pe) (spoken pe pe') (session stage' pe') ∧ AtStage stage' pe'

/-! ## Headers -/

/-- Bits of the type and of the object count. -/
def typeMask : BitVec 16 := pdHdrMsgtype ||| pdHdrNumobj

section Headers

variable {template t : BitVec 16} {n : ℕ} {msg : PdMsg}

/-- A settled template has neither. -/
theorem settledTemplate_typeMask (first : Option PdMsg) : settledTemplate first &&& typeMask=0 := by
  cases first with
  | none => decide
  | some caps =>
    have hbase : settledTemplate (some caps)=pdDataroleUfp ||| pdPowerroleSink ||| settledSpecrev caps := rfl
    rw [hbase]
    rcases settledSpecrev_cases caps with h | h <;> rw [h] <;> decide

/-- The type that is put into a header. -/
theorem msgtypeGet_header (hm : msg.hdr=template ||| t ||| pdNumobj n) (h : template &&& typeMask=0)
    (ht : t &&& pdHdrMsgtype=t) : msg.msgtypeGet=t := by
  have hcount : pdNumobj n &&& pdHdrMsgtype=0 := fieldSet_and (by decide) _ _
  unfold PdMsg.msgtypeGet
  rw [hm,or_and_right hcount,or_and_left (and_zero_of_mask h (by decide)),ht]

/-- The object count that is put into it. -/
theorem numobjGet_header (hm : msg.hdr=template ||| t ||| pdNumobj n) (h : template &&& typeMask=0)
    (ht : t &&& pdHdrNumobj=0) (hn : n ≤ 7) : msg.numobjGet=n := by
  have hbase : (template ||| t) &&& pdHdrNumobj=0 := or_and_zero (and_zero_of_mask h (by decide)) ht
  have hpart := fieldGet_congr (or_and_left (b := pdNumobj n) hbase) pdHdrNumobjShift
  have hmask : pdHdrNumobj=BitVec.ofNat 16 (2^3-1) <<< pdHdrNumobjShift := by decide
  unfold PdMsg.numobjGet
  rw [hm]
  exact hpart.trans (fieldGet_fieldSet_of_lt hmask (show 12+3 ≤ 16 by omega) (by omega))

/-- The header of a control message. -/
theorem isControl_header (hm : msg.hdr=template ||| t ||| pdNumobj 0) (h : template &&& typeMask=0)
    (ht : t &&& pdHdrMsgtype=t) (ht' : t &&& pdHdrNumobj=0) : msg.isControl t=true := by
  unfold PdMsg.isControl
  rw [msgtypeGet_header hm h ht,numobjGet_header hm h ht' (by decide)]
  simp

/-- The header of a data message. -/
theorem isData_header (hm : msg.hdr=template ||| t ||| pdNumobj n) (h : template &&& typeMask=0)
    (ht : t &&& pdHdrMsgtype=t) (ht' : t &&& pdHdrNumobj=0) (hn : 1 ≤ n ∧ n ≤ 7) :
    msg.isData t=true := by
  unfold PdMsg.isData
  rw [msgtypeGet_header hm h ht,numobjGet_header hm h ht' hn.2]
  simp only [beq_self_eq_true,Bool.true_and,decide_eq_true_eq]
  exact hn.1

end Headers

variable {pe pe' pe₁ : PolicyEngine} {pending : Event → Bool} {sh sh' sh₁ : Shared} {expired : Bool}
  {o : Outcome Event PolicyEngine Shared} {stage stage' : Stage} {m : MsgPtr} {state : PolicyEngineState}

/-! ## Saying nothing -/

theorem spoken_quiet (hp : pe.point≠.start) (hp' : pe.point≠.handle) : spoken pe pe'=none := by
  unfold spoken
  split
  · contradiction
  · contradiction
  · rfl

theorem spoken_start (hp : pe.point=.start) (ht : pe'.point≠.signalTx) (hh : pe'.point≠.waitHardSent)
    (hs : pe.state≠.sinkTransitionDefault) : spoken pe pe'=none := by
  unfold spoken
  rw [hp]
  dsimp only
  rw [if_neg ht,if_neg hh,if_neg hs]

/-- The thread says nothing from here on to there. -/
def Quiet (pe pe' : PolicyEngine) : Prop := spoken pe pe'=none

theorem quiet_goto (hp : pe.point≠.handle) (hs : pe.point=.start → pe.state≠.sinkTransitionDefault) :
    Quiet pe (goto pe₁ state) := by
  by_cases hstart : pe.point=.start
  · exact spoken_start hstart (fun h => by cases h) (fun h => by cases h) (hs hstart)
  · exact spoken_quiet hstart hp

/-- Nothing is said, and the stage stays. -/
theorem converses_quiet (h : AtStage stage pe) (hq : Quiet pe pe') (hf : fits stage pe')
    (ho : ¬opens pe') (hc : pe'.explicitContract=pe.explicitContract)
    (hr : pe'.lastDpmRequest=pe.lastDpmRequest) : Converses stage pe pe' := by
  refine ⟨stage,?_,hf,fun hopens => absurd hopens ho,fun r hlast => h.request r (hr ▸ hlast)⟩
  unfold Quiet at hq
  rw [hq]
  exact congrArg (Session.mk stage) hc

theorem not_opens_goto (hs : state≠.sinkStartup) : ¬opens (goto pe state) := by
  rintro (hp | ⟨-,hs'⟩)
  · cases hp
  · exact hs hs'

theorem not_opens_at {point : PolicyEnginePoint} (hp : point≠.signalDone) (hp' : point≠.start) :
    ¬opens (at_ pe point) := by
  rintro (h | ⟨h,-⟩)
  · exact hp h
  · exact hp' h

/-- A next state without a word. -/
theorem goto_converses (h : AtStage stage pe) (hq : Quiet pe (goto pe₁ state)) (hs : state≠.sinkStartup)
    (hf : startFits stage state) (hc : pe₁.explicitContract=pe.explicitContract)
    (hr : pe₁.lastDpmRequest=pe.lastDpmRequest) : Converses stage pe (goto pe₁ state) :=
  converses_quiet h hq hf (not_opens_goto hs) hc hr

/-- A wait, when every way to resume keeps to the rules. -/
theorem wait_converses {mask : List Event} {timed : Bool} {resume : List Event → PolicyEngine}
    (hr : ∀ evt, Converses stage pe (resume evt))
    (h : (Action.wait mask timed resume).perform expired pending sh=some o) : Converses stage pe o.loc := by
  rcases Action.perform_wait.mp h with ⟨-,-,rfl⟩ | ⟨-,-,-,rfl⟩
  · exact hr _
  · exact hr _

/-! ## Reading -/

theorem spoken_read (hp : pe.point=.handle) (hm : pe.message=some m) :
    spoken pe pe'=some (.read m.msg) := by
  unfold spoken
  rw [hp,hm]
  rfl

/-- Reading a message and returning a state. -/
theorem goto_reads (h : AtStage stage pe) (hp : pe.point=.handle) (hm : pe.message=some m)
    (hr : pe₁.lastDpmRequest=pe.lastDpmRequest) (hs : state≠.sinkStartup)
    (hstep : Step (session stage pe) (.read m.msg) ⟨stage',pe₁.explicitContract⟩)
    (hf : startFits stage' state) : Converses stage pe (goto pe₁ state) := by
  refine ⟨stage',?_,hf,fun hopens => absurd hopens (not_opens_goto hs),fun r hlast => ?_⟩
  · rw [spoken_read hp hm]
    exact hstep
  · exact h.request r (hr ▸ hlast)

/-- The same, and freeing the message. -/
theorem finish_reads (h : AtStage stage pe) (hp : pe.point=.handle) (hm : pe.message=some m)
    (hf : finish pe₁ m sh₁ state=some (sh',pe')) (hr : pe₁.lastDpmRequest=pe.lastDpmRequest)
    (hs : state≠.sinkStartup)
    (hstep : Step (session stage pe) (.read m.msg) ⟨stage',pe₁.explicitContract⟩)
    (hfits : startFits stage' state) : Converses stage pe pe' := by
  obtain ⟨rfl,rfl⟩ := Prod.ext_iff.mp (Option.some.inj hf)
  exact goto_reads h hp hm hr hs hstep hfits

/-- Source_Capabilities are offered; a Soft_Reset obliges; nothing else will do. -/
theorem peSinkWaitCapMessage_reads (h : AtStage stage pe) (hp : pe.point=.handle) (hm : pe.message=some m)
    (hstage : stage=.silent) (he : peSinkWaitCapMessage pe m sh=some (sh',pe')) :
    Converses stage pe pe' := by
  subst hstage
  unfold peSinkWaitCapMessage at he
  split_ifs at he with hcaps hsoft
  · obtain ⟨rfl,rfl⟩ := Prod.ext_iff.mp (Option.some.inj he)
    exact goto_reads h hp hm rfl (by decide) (.offer (.inl rfl) hcaps) (.inl rfl)
  · exact finish_reads h hp hm he rfl (by decide) (.oblige .accept (.inr ⟨rfl,by simp [session]⟩) hsoft) rfl
  · obtain ⟨rfl,rfl⟩ := Prod.ext_iff.mp (Option.some.inj he)
    exact goto_reads h hp hm rfl (by decide)
      (.breakOff (.inl ⟨rfl,Bool.eq_false_iff.mpr hcaps,Bool.eq_false_iff.mpr hsoft⟩)) trivial

/-- The answers to a Request. -/
theorem peSinkSelectCapMessage_reads (h : AtStage stage pe) (hp : pe.point=.handle)
    (hm : pe.message=some m) (hstage : stage=.requested)
    (he : peSinkSelectCapMessage pe m sh=some (sh',pe')) : Converses stage pe pe' := by
  subst hstage
  have hdeclined (hd : (m.msg.isControl pdMsgtypeReject || m.msg.isControl pdMsgtypeWait)=true) :
      Step (session .requested pe) (.read m.msg)
        ⟨if pe.explicitContract then .ready else .silent,pe.explicitContract⟩ :=
    .decline rfl (Bool.or_eq_true_iff.mp hd)
  unfold peSinkSelectCapMessage at he
  dsimp only at he
  split_ifs at he with hacc hsame hsoft hdecline hcontract
  · exact finish_reads h hp hm he rfl (by decide) (.grant rfl hacc) rfl
  · exact finish_reads h hp hm he rfl (by decide) (.grant rfl hacc) rfl
  · exact finish_reads h hp hm he rfl (by decide) (.oblige .accept (.inr ⟨rfl,by simp [session]⟩) hsoft) rfl
  · rw [if_pos hcontract] at hdeclined
    exact finish_reads h hp hm he rfl (by decide) (hdeclined hdecline) (.inl rfl)
  · rw [if_neg hcontract] at hdeclined
    exact finish_reads h hp hm he rfl (by decide) (hdeclined hdecline) rfl
  · refine finish_reads h hp hm he rfl (by decide) (.misread rfl ?_) (.inl rfl)
    rw [Bool.or_eq_true_iff,not_or] at hdecline
    simp only [List.forall_mem_cons]
    exact ⟨Bool.eq_false_iff.mpr hacc,Bool.eq_false_iff.mpr hsoft,Bool.eq_false_iff.mpr hdecline.1,
      Bool.eq_false_iff.mpr hdecline.2,by simp⟩

/-- PS_RDY, or nothing. -/
theorem peSinkTransitionSinkMessage_reads (h : AtStage stage pe) (hp : pe.point=.handle)
    (hm : pe.message=some m) (hstage : stage=.accepted)
    (he : peSinkTransitionSinkMessage pe m sh=some (sh',pe')) : Converses stage pe pe' := by
  subst hstage
  unfold peSinkTransitionSinkMessage at he
  dsimp only at he
  split_ifs at he with hrdy hmin
  · exact finish_reads h hp hm he rfl (by decide) (.conclude rfl hrdy) (.inl rfl)
  · exact finish_reads h hp hm he rfl (by decide) (.conclude rfl hrdy) (.inl rfl)
  · exact finish_reads h hp hm he rfl (by decide)
      (.breakOff (.inr (.inl ⟨rfl,Bool.eq_false_iff.mpr hrdy⟩))) trivial

/-- The answers to a Soft_Reset. -/
theorem peSinkSendSoftResetMessage_reads (h : AtStage stage pe) (hp : pe.point=.handle)
    (hm : pe.message=some m) (hstage : stage=.resyncing)
    (he : peSinkSendSoftResetMessage pe m sh=some (sh',pe')) : Converses stage pe pe' := by
  subst hstage
  unfold peSinkSendSoftResetMessage at he
  split_ifs at he with hacc hsoft
  · exact finish_reads h hp hm he rfl (by decide) (.restore rfl hacc) rfl
  · exact finish_reads h hp hm he rfl (by decide) (.oblige .accept (.inr ⟨rfl,by simp [session]⟩) hsoft) rfl
  · exact finish_reads h hp hm he rfl (by decide)
      (.breakOff (.inr (.inr ⟨rfl,Bool.eq_false_iff.mpr hacc,Bool.eq_false_iff.mpr hsoft⟩))) trivial

/-- A decision, by its condition. -/
theorem of_decision {α : Type} {P : Prop} {c : Prop} [Decidable c] {a b r : α}
    (h : (if c then a else b)=r) (ha : c → a=r → P) (hb : ¬c → b=r → P) : P := by
  by_cases hc : c
  · exact ha hc (by rw [← h,if_pos hc])
  · exact hb hc (by rw [← h,if_neg hc])

/-- Messages under a contract, in the order of the source. -/
theorem peSinkReadyMessage_reads (h : AtStage stage pe) (hp : pe.point=.handle) (hm : pe.message=some m)
    (hstage : stage.Open) (he : peSinkReadyMessage pe m sh=some (sh',pe')) : Converses stage pe pe' := by
  have hrefuse (hu : unsupported m.msg=true) (he : finish pe m sh .sinkSendNotSupported=some (sh',pe')) :
      Converses stage pe pe' :=
    finish_reads h hp hm he rfl (by decide) (.oblige .notSupported (.inl hstage) (.inl hu)) rfl
  have hpuzzle (hu : understood m.msg=false) (he : finish pe m sh .sinkSendSoftReset=some (sh',pe')) :
      Converses stage pe pe' :=
    finish_reads h hp hm he rfl (by decide) (.puzzle hstage hu) (.inl rfl)
  unfold peSinkReadyMessage at he
  refine of_decision he (fun hvendor he => ?_) fun hvendor he => ?_
  · exact finish_reads h hp hm he rfl (by decide) (.hear hstage (.inl hvendor)) (.inl rfl)
  refine of_decision he (fun hping he => ?_) fun hping he => ?_
  · exact finish_reads h hp hm he rfl (by decide) (.hear hstage (.inr (.inl hping))) (.inl rfl)
  refine of_decision he (fun hdr he => hrefuse (by simp [unsupported,hdr]) he) fun hdr he => ?_
  refine of_decision he (fun hsource he => hrefuse (by simp [unsupported,hsource]) he) fun hsource he => ?_
  refine of_decision he (fun hpr he => hrefuse (by simp [unsupported,hpr]) he) fun hpr he => ?_
  refine of_decision he (fun hvconn he => hrefuse (by simp [unsupported,hvconn]) he) fun hvconn he => ?_
  refine of_decision he (fun hreq he => hrefuse (by simp [unsupported,hreq]) he) fun hreq he => ?_
  refine of_decision he (fun hsink he => hrefuse (by simp [unsupported,hsink]) he) fun hsink he => ?_
  refine of_decision he (fun hmin he => ?_) fun hmin he => ?_
  · refine of_decision he (fun hgive he => ?_) fun hgive he => ?_
    · exact finish_reads h hp hm he rfl (by decide) (.reduce hstage hmin) rfl
    · exact finish_reads h hp hm he rfl (by decide)
        (.oblige .notSupported (.inl hstage) (.inr (.inl hmin))) rfl
  refine of_decision he (fun hcaps he => ?_) fun hcaps he => ?_
  · obtain ⟨rfl,rfl⟩ := Prod.ext_iff.mp (Option.some.inj he)
    exact goto_reads h hp hm rfl (by decide) (.offer (.inr hstage) hcaps) (.inl rfl)
  refine of_decision he (fun hget he => ?_) fun hget he => ?_
  · exact finish_reads h hp hm he rfl (by decide) (.oblige .sinkCapabilities (.inl hstage) hget) rfl
  refine of_decision he (fun hsoft he => ?_) fun hsoft he => ?_
  · exact finish_reads h hp hm he rfl (by decide) (.oblige .accept (.inl hstage) hsoft) rfl
  have hnot : understood m.msg=false := by
    simp only [understood,unsupported,Bool.or_eq_false_iff]
    simp only [Bool.not_eq_true] at hvendor hping hdr hsource hpr hvconn hreq hsink hmin hcaps hget hsoft
    exact ⟨⟨⟨⟨⟨⟨hvendor,hping⟩,⟨⟨⟨⟨hdr,hsource⟩,hpr⟩,hvconn⟩,hreq⟩,hsink⟩,hmin⟩,hcaps⟩,hget⟩,hsoft⟩
  refine of_decision he (fun hrev he => ?_) fun hrev he => hpuzzle hnot he
  refine of_decision he (fun hext he => ?_) fun hext he => ?_
  · exact finish_reads h hp hm he rfl (by decide)
      (.oblige .notSupported (.inl hstage) (.inr (.inr hext.1))) rfl
  refine of_decision he (fun hns he => ?_) fun hns he => hpuzzle hnot he
  exact finish_reads h hp hm he rfl (by decide) (.hear hstage (.inr (.inr hns))) (.inl rfl)

/-- A message in every receiving state. -/
theorem handleMessage_reads (h : AtStage stage pe) (hp : pe.point=.handle) (hm : pe.message=some m)
    (he : handleMessage pe m sh=some (sh',pe')) : Converses stage pe pe' := by
  have hfits := h.fits
  unfold fits at hfits
  rw [hp] at hfits
  unfold handleMessage at he
  cases hs : pe.state <;> rw [hs] at he hfits <;> dsimp only at he
  case sinkWaitCap => exact peSinkWaitCapMessage_reads h hp hm hfits he
  case sinkSelectCap => exact peSinkSelectCapMessage_reads h hp hm hfits he
  case sinkTransitionSink => exact peSinkTransitionSinkMessage_reads h hp hm hfits he
  case sinkReady => exact peSinkReadyMessage_reads h hp hm hfits he
  case sinkSendSoftReset => exact peSinkSendSoftResetMessage_reads h hp hm hfits he
  all_goals exact absurd he (by simp)

/-! ## Posting -/

/-- A header can be built: the template leaves type and count free, and its
revision is settled where an answer depends on it. -/
structure Heading (pe : PolicyEngine) (sh : Shared) : Prop where
  /-- Type and count are free. -/
  free : sh.hdrTemplate &&& typeMask=0
  /-- The revision is settled. -/
  settled : pe.state ∉ earlyStates →
    sh.hdrTemplate &&& pdHdrSpecrev=pdSpecrev20 ∨ sh.hdrTemplate &&& pdHdrSpecrev=pdSpecrev30

theorem spoken_post (hp : pe.point=.start) (hp' : pe'.point=.signalTx)
    (hm : (if pe.state=.sinkSelectCap then pe'.lastDpmRequest else pe'.sending)=some m) :
    spoken pe pe'=some (.post m.msg) := by
  unfold spoken
  rw [hp]
  dsimp only
  rw [if_pos hp',hm]
  rfl

/-- A new message is built and posted. -/
theorem sendNew_posts (next : Stage) {build : Shared → PdMsg → PdMsg} (h : AtStage stage pe) (hp : pe.point=.start)
    (hs : pe.state≠.sinkSelectCap)
    (hb : ∀ pool, Step (session stage pe) (.post (build {sh with pool := pool} sh.junk)) (session next pe))
    (hf : insideFits next pe.state) (ho : (sendNew pe build).perform expired pending sh=some o) :
    Converses stage pe o.loc := by
  obtain ⟨-,sh',next',he,rfl⟩ := Action.perform_access.mp ho
  cases ha : sh.alloc with
  | none => simp [ha] at he
  | some r =>
    obtain ⟨block,sh₁⟩ := r
    obtain ⟨pool,-,rfl⟩ := Shared.alloc_eq_some.mp ha
    simp only [ha,Option.some.injEq,Prod.mk.injEq] at he
    obtain ⟨rfl,rfl⟩ := he
    refine ⟨next,?_,hf,fun hopens => absurd hopens (not_opens_at (by decide) (by decide)),h.request⟩
    rw [spoken_post hp rfl (if_neg hs)]
    exact hb pool

/-- The Request is posted. -/
theorem peSinkSelectCap_posts (h : AtStage stage pe) (hp : pe.point=.start) (hs : pe.state=.sinkSelectCap)
    (hstage : stage=.offered ∨ stage.Open) (ho : (peSinkSelectCap pe).perform expired pending sh=some o) :
    Converses stage pe o.loc := by
  obtain ⟨m,hm,rfl⟩ := peSinkSelectCap_perform ho
  have hfits : fits .requested (at_ pe .signalTx) := by
    change insideFits .requested pe.state
    rw [hs]
    rfl
  refine ⟨.requested,?_,hfits,fun hopens => absurd hopens (not_opens_at (by decide) (by decide)),h.request⟩
  rw [spoken_post (m := m) hp rfl (by rw [if_pos hs]; exact hm)]
  exact .request hstage (h.request m hm)

/-- Reject or Not_Supported is posted. -/
theorem peSinkSendNotSupported_posts (h : AtStage stage pe) (hd : Heading pe sh) (hp : pe.point=.start)
    (hs : pe.state=.sinkSendNotSupported) (hstage : stage=.owing .notSupported)
    (ho : (peSinkSendNotSupported pe).perform expired pending sh=some o) : Converses stage pe o.loc := by
  have hsettled := hd.settled (by rw [hs]; decide)
  refine sendNew_posts .answered h hp (by rw [hs]; decide) (fun pool => ?_) (by rw [hs]; rfl) ho
  refine .reply .notSupported hstage ?_
  by_cases h20 : sh.hdrTemplate &&& pdHdrSpecrev=pdSpecrev20
  · rw [if_pos h20]
    exact .inl (isControl_header rfl hd.free (by decide) (by decide))
  · rw [if_neg h20,if_pos (hsettled.resolve_left h20)]
    exact .inr (isControl_header rfl hd.free (by decide) (by decide))

/-- Sink_Capabilities are posted. -/
theorem peSinkGiveSinkCap_posts (h : AtStage stage pe) (hd : Heading pe sh) (hp : pe.point=.start)
    (hs : pe.state=.sinkGiveSinkCap) (hstage : stage=.owing .sinkCapabilities)
    (ho : (peSinkGiveSinkCap pe).perform expired pending sh=some o) : Converses stage pe o.loc := by
  refine sendNew_posts .ready h hp (by rw [hs]; decide) (fun pool => ?_) (by rw [hs]; rfl) ho
  refine .reply .sinkCapabilities hstage ?_
  obtain ⟨hpos,hle⟩ := sinkObjects_length sh.config sh.dpm (sh.deref sh.dpm.capabilities)
    ((sh.deref pe.message).hdr &&& pdHdrSpecrev)
  refine isData_header (congrArg PdMsg.hdr (pdbsDpmGetSinkCapability_eq _ _ _ _ sh.hdrTemplate sh.junk)) hd.free
    (by decide) (by decide) ⟨hpos,hle.trans (by decide)⟩

/-- A Request is built. -/
theorem evaluateCapability_isData (caps : Option MsgPtr) (request : MsgPtr)
    (h : sh.hdrTemplate &&& typeMask=0) :
    (evaluateCapability caps request sh).1.msg.isData pdMsgtypeRequest=true :=
  isData_header (Exit.hdr (CapabilitySelection.answer_exit caps request sh)) h (by decide) (by decide)
    (by decide)

/-! ## After a transmission -/

/-- Freeing what was sent, and going on by the result. -/
theorem freeSent_converses {result : TxResult} {onFailure onDone : PolicyEngine → PolicyEngine}
    (ho : (freeSent pe result onFailure onDone).perform expired pending sh=some o)
    (hreset : Converses stage pe (goto {pe with sending := none} .sinkTransitionDefault))
    (hfailed : Converses stage pe (onFailure {pe with sending := none}))
    (hdone : Converses stage pe (onDone {pe with sending := none})) : Converses stage pe o.loc := by
  obtain ⟨-,rfl⟩ := Action.perform_access_some.mp ho
  cases result with
  | reset => exact hreset
  | failed => exact hfailed
  | done => exact hdone

/-- What a sending state does when its transmission is over. -/
theorem afterSent_converses {result : TxResult} (h : AtStage stage pe) (hp : pe.point=.sent result)
    (hin : insideFits stage pe.state) (ho : (afterSent pe result).perform expired pending sh=some o) :
    Converses stage pe o.loc := by
  have hquiet {pe' : PolicyEngine} : Quiet pe pe' := spoken_quiet (by rw [hp]; simp) (by rw [hp]; simp)
  have hgoto {pe₁ : PolicyEngine} (state : PolicyEngineState) (hs : state≠.sinkStartup)
      (hf : startFits stage state) (hc : pe₁.explicitContract=pe.explicitContract)
      (hr : pe₁.lastDpmRequest=pe.lastDpmRequest) : Converses stage pe (goto pe₁ state) :=
    goto_converses h hquiet hs hf hc hr
  have hawait (pe₁ : PolicyEngine) (hs : pe₁.state=pe.state) (hc : pe₁.explicitContract=pe.explicitContract)
      (hr : pe₁.lastDpmRequest=pe.lastDpmRequest) : Converses stage pe (at_ pe₁ .waitResponse) :=
    converses_quiet h hquiet (show insideFits stage pe₁.state from hs ▸ hin)
      (not_opens_at (by decide) (by decide)) hc hr
  have hreset {pe₁ : PolicyEngine} (hc : pe₁.explicitContract=pe.explicitContract)
      (hr : pe₁.lastDpmRequest=pe.lastDpmRequest) : Converses stage pe (goto pe₁ .sinkTransitionDefault) :=
    hgoto .sinkTransitionDefault (by decide) trivial hc hr
  have hhard {pe₁ : PolicyEngine} (hc : pe₁.explicitContract=pe.explicitContract)
      (hr : pe₁.lastDpmRequest=pe.lastDpmRequest) : Converses stage pe (goto pe₁ .sinkHardReset) :=
    hgoto .sinkHardReset (by decide) trivial hc hr
  unfold afterSent at ho
  cases hs : pe.state <;> rw [hs] at ho hin <;> dsimp only at ho
  case sinkSelectCap =>
    obtain ⟨-,sh',next,he,rfl⟩ := Action.perform_access.mp ho
    cases result with
    | reset =>
      obtain ⟨rfl,rfl⟩ := Prod.ext_iff.mp (Option.some.inj he)
      exact hreset rfl rfl
    | failed =>
      obtain ⟨rfl,rfl⟩ := Prod.ext_iff.mp (Option.some.inj he)
      exact hhard rfl rfl
    | done =>
      obtain ⟨rfl,rfl⟩ := Prod.ext_iff.mp (Option.some.inj he)
      exact hawait pe rfl rfl rfl
  case sinkSoftReset =>
    exact freeSent_converses ho (hreset rfl rfl) (hhard rfl rfl)
      (hgoto .sinkWaitCap (by decide) hin rfl rfl)
  case sinkSendSoftReset =>
    exact freeSent_converses ho (hreset rfl rfl) (hhard rfl rfl)
      (hawait {pe with sending := none} rfl rfl rfl)
  case sinkSendNotSupported =>
    exact freeSent_converses ho (hreset rfl rfl) (hgoto .sinkSendSoftReset (by decide) (.inr hin) rfl rfl)
      (hgoto .sinkReady (by decide) (.inr hin) rfl rfl)
  case sinkGetSourceCap =>
    exact freeSent_converses ho (hreset rfl rfl) (hhard rfl rfl)
      (hgoto .sinkReady (by decide) (.inl hin) rfl rfl)
  case sinkGiveSinkCap =>
    exact freeSent_converses ho (hreset rfl rfl) (hhard rfl rfl)
      (hgoto .sinkReady (by decide) (.inl hin) rfl rfl)
  all_goals exact absurd ho Action.perform_stuck

/-! ## The thread -/

/-- The first action of a state function. -/
theorem stateFunction_converses (h : AtStage stage pe) (hd : Heading pe sh) (hp : pe.point=.start)
    (ho : (stateFunction pe).perform expired pending sh=some o) : Converses stage pe o.loc := by
  have hfits := h.fits
  unfold fits at hfits
  rw [hp] at hfits
  have hnot : pe.point≠.handle := by rw [hp]; decide
  have hgoto {pe₁ : PolicyEngine} (state : PolicyEngineState) (hn : pe.state≠.sinkTransitionDefault)
      (hs : state≠.sinkStartup) (hf : startFits stage state)
      (hc : pe₁.explicitContract=pe.explicitContract) (hr : pe₁.lastDpmRequest=pe.lastDpmRequest) :
      Converses stage pe (goto pe₁ state) :=
    goto_converses h (quiet_goto hnot fun _ => hn) hs hf hc hr
  have hreset (hn : pe.state≠.sinkTransitionDefault) : Converses stage pe (goto pe .sinkTransitionDefault) :=
    hgoto .sinkTransitionDefault hn (by decide) trivial rfl rfl
  have hhard (hn : pe.state≠.sinkTransitionDefault) : Converses stage pe (goto pe .sinkHardReset) :=
    hgoto .sinkHardReset hn (by decide) trivial rfl rfl
  have hinside (point : PolicyEnginePoint) (hn : pe.state≠.sinkTransitionDefault)
      (hf : fits stage (at_ pe point)) (hq : point ∉ [.start,.signalTx,.waitHardSent,.signalDone]) :
      Converses stage pe (at_ pe point) := by
    simp only [List.mem_cons,List.not_mem_nil,or_false,not_or] at hq
    obtain ⟨hs,ht,hw,hdone⟩ := hq
    exact converses_quiet h (spoken_start hp ht hw hn) hf (not_opens_at hdone hs) rfl rfl
  unfold stateFunction at ho
  cases hs : pe.state <;> rw [hs] at ho hfits <;> dsimp only at ho
  case sinkStartup =>
    obtain ⟨-,rfl⟩ := Action.perform_access_some.mp ho
    exact hgoto .sinkDiscovery (by rw [hs]; decide) (by decide) hfits (h.closed (.inr ⟨hp,hs⟩)).symm rfl
  case sinkDiscovery =>
    obtain ⟨-,rfl⟩ := Action.perform_access_some.mp ho
    exact hgoto .sinkWaitCap (by rw [hs]; decide) (by decide) hfits rfl rfl
  case sinkWaitCap =>
    have hn : pe.state≠.sinkTransitionDefault := by rw [hs]; decide
    refine wait_converses (fun evt => ?_) ho
    split_ifs
    · exact hhard hn
    · exact hreset hn
    · exact hgoto .sinkWaitCap hn (by decide) hfits rfl rfl
    · exact hinside .fetch hn (show insideFits stage pe.state from hs ▸ hfits) (by decide)
    · exact hhard hn
  case sinkEvalCap =>
    obtain ⟨request,ppsIndex,lastPps,pool,-,rfl⟩ := peSinkEvalCap_perform ho
    refine ⟨stage,?_,hfits,fun hopens => absurd hopens (not_opens_goto (by decide)),fun r hr => ?_⟩
    · rw [quiet_goto hnot fun _ => by rw [hs]; decide]
      rfl
    · cases hr
      exact evaluateCapability_isData pe.message request hd.free
  case sinkSelectCap => exact peSinkSelectCap_posts h hp hs hfits ho
  case sinkTransitionSink =>
    have hn : pe.state≠.sinkTransitionDefault := by rw [hs]; decide
    refine wait_converses (fun evt => ?_) ho
    split_ifs
    · exact hreset hn
    · exact hhard hn
    · exact hinside .fetch hn (show insideFits stage pe.state from hs ▸ hfits) (by decide)
  case sinkReady =>
    have hn : pe.state≠.sinkTransitionDefault := by rw [hs]; decide
    refine wait_converses (fun evt => ?_) ho
    split_ifs
    · exact hreset hn
    · exact hhard hn
    · exact hinside _ hn hfits (by simp)
    · exact hinside .dropMessage hn hfits (by decide)
    · exact hinside _ hn hfits (by simp)
    · exact hgoto .sinkSelectCap hn (by decide) (.inr hfits) rfl rfl
    · exact hinside .fetch hn (show insideFits stage pe.state from hs ▸ hfits) (by decide)
    · exact hgoto .sinkReady hn (by decide) hfits rfl rfl
  case sinkGetSourceCap =>
    exact sendNew_posts .ready h hp (by rw [hs]; decide)
      (fun pool => .query hfits (isControl_header rfl hd.free (by decide) (by decide))) (by rw [hs]; rfl) ho
  case sinkGiveSinkCap => exact peSinkGiveSinkCap_posts h hd hp hs hfits ho
  case sinkHardReset =>
    have hn : pe.state≠.sinkTransitionDefault := by rw [hs]; decide
    unfold peSinkHardReset at ho
    by_cases hl : pdNHardResetCount < pe.hardResetCounter
    · rw [if_pos hl] at ho
      obtain ⟨-,rfl⟩ := Action.perform_access_some.mp ho
      exact hgoto .sinkSourceUnresponsive hn (by decide) trivial rfl rfl
    · rw [if_neg hl] at ho
      obtain ⟨-,rfl⟩ := Action.perform_signal.mp ho
      have hspoken : spoken pe (at_ pe .waitHardSent)=some .ask := by
        unfold spoken
        rw [hp]
        rfl
      refine ⟨.broken,?_,show insideFits .broken pe.state from hs ▸ trivial,
        fun hopens => absurd hopens (not_opens_at (by decide) (by decide)),h.request⟩
      rw [hspoken]
      exact .ask
  case sinkTransitionDefault =>
    obtain ⟨-,rfl⟩ := Action.perform_access_some.mp ho
    have hspoken : spoken pe (at_ {pe with explicitContract := false} .signalDone)=some .reset := by
      unfold spoken
      rw [hp,hs]
      rfl
    refine ⟨.silent,?_,rfl,fun _ => rfl,h.request⟩
    rw [hspoken]
    exact .reset
  case sinkSoftReset =>
    exact sendNew_posts .silent h hp (by rw [hs]; decide)
      (fun pool => .reply .accept hfits (isControl_header rfl hd.free (by decide) (by decide)))
      (by rw [hs]; rfl) ho
  case sinkSendSoftReset =>
    exact sendNew_posts .resyncing h hp (by rw [hs]; decide)
      (fun pool => .resync hfits (isControl_header rfl hd.free (by decide) (by decide)))
      (by rw [hs]; rfl) ho
  case sinkSendNotSupported => exact peSinkSendNotSupported_posts h hd hp hs hfits ho
  case sinkChunkReceived =>
    have hn : pe.state≠.sinkTransitionDefault := by rw [hs]; decide
    refine wait_converses (fun evt => ?_) ho
    split_ifs
    · exact hreset hn
    · exact hgoto .sinkSendNotSupported hn (by decide) hfits rfl rfl
  case sinkNotSupportedReceived =>
    obtain ⟨-,rfl⟩ := Action.perform_access_some.mp ho
    exact hgoto .sinkReady (by rw [hs]; decide) (by decide) hfits rfl rfl
  case sinkSourceUnresponsive =>
    obtain ⟨-,rfl⟩ := Action.perform_access_some.mp ho
    exact hgoto .sinkSourceUnresponsive (by rw [hs]; decide) (by decide) trivial rfl rfl

/-- Every action of the Policy Engine keeps to the rules. -/
theorem policyEngine_converses (h : AtStage stage pe) (hd : Heading pe sh)
    (ho : (policyEngine pe).perform expired pending sh=some o) : Converses stage pe o.loc := by
  have hfits := h.fits
  unfold fits at hfits
  unfold policyEngine at ho
  cases hp : pe.point <;> rw [hp] at ho hfits <;> dsimp only at ho hfits
  case start => exact stateFunction_converses h hd hp ho
  case sent result => exact afterSent_converses h hp hfits ho
  case handle =>
    obtain ⟨m,sh',next,hm,he,rfl⟩ := handle_perform ho
    exact handleMessage_reads h hp hm he
  all_goals
    have hquiet {pe' : PolicyEngine} : Quiet pe pe' := spoken_quiet (by rw [hp]; simp) (by rw [hp]; simp)
  case dropMessage =>
    obtain ⟨-,rfl⟩ := Action.perform_access_some.mp ho
    exact converses_quiet h hquiet hfits (not_opens_at (by simp) (by simp)) rfl rfl
  case startAms next =>
    obtain ⟨-,rfl⟩ := Action.perform_signal.mp ho
    obtain ⟨state,hstate⟩ := next
    simp only [List.mem_cons,List.not_mem_nil,or_false] at hstate
    rcases hstate with rfl | rfl | rfl
    · exact goto_converses h hquiet (by simp) hfits rfl rfl
    · exact goto_converses h hquiet (by simp) (.inr hfits) rfl rfl
    · exact goto_converses h hquiet (by simp) (.inr hfits) rfl rfl
  case signalTx =>
    obtain ⟨-,rfl⟩ := Action.perform_signal.mp ho
    exact converses_quiet h hquiet hfits (not_opens_at (by decide) (by decide)) rfl rfl
  case waitTx =>
    refine wait_converses (fun evt => ?_) ho
    exact converses_quiet h hquiet hfits (not_opens_at (by simp) (by simp)) rfl rfl
  case waitResponse =>
    refine wait_converses (fun evt => ?_) ho
    split_ifs
    · exact goto_converses h hquiet (by decide) trivial rfl rfl
    · exact goto_converses h hquiet (by decide) trivial rfl rfl
    · exact converses_quiet h hquiet hfits (not_opens_at (by decide) (by decide)) rfl rfl
  case fetch =>
    rcases fetchMessage_perform ho with ⟨-,rfl⟩ | ⟨m,rest,-,rfl⟩
    · unfold emptyFetch
      by_cases hs : pe.state=.sinkReady
      · rw [hs] at hfits
        rw [if_pos hs]
        exact goto_converses h hquiet (by decide) hfits rfl rfl
      · rw [if_neg hs]
        exact goto_converses h hquiet (by decide) trivial rfl rfl
    · exact converses_quiet h hquiet hfits (not_opens_at (by decide) (by decide)) rfl rfl
  case waitHardSent =>
    refine wait_converses (fun evt => ?_) ho
    exact goto_converses h hquiet (by decide) trivial rfl rfl
  case signalDone =>
    obtain ⟨-,rfl⟩ := Action.perform_signal.mp ho
    refine ⟨stage,?_,hfits,fun _ => h.closed (.inl hp),h.request⟩
    rw [hquiet]
    rfl

/-! ## Runs -/

/-- The conversation so far leads to the stage of the thread. -/
def Conversing (s : System) (talk : List Act) : Prop :=
  ∃ stage, Talk talk (session stage s.pe) ∧ AtStage stage s.pe

/-- An act, or none, is added to a conversation. -/
theorem talk_said {talk : List Act} {s s' : Session} {act : Option Act} (h : Talk talk s)
    (hs : Said s act s') : Talk (talk++act.toList) s' := by
  cases act with
  | none =>
    cases hs
    rwa [Option.toList_none,List.append_nil]
  | some a => exact h.snoc hs

/-- In every run. -/
theorem talking_conversing {p : System × List Act} (h : talking.Reach anyStep p) : Conversing p.1 p.2 := by
  refine h.observed_invariant (I := Conversing) ?_ fun s talk l s' hr hi _ hs => ?_
  · exact ⟨.silent,.nil,rfl,fun _ => rfl,fun r hr => by cases hr⟩
  · obtain ⟨stage,htalk,hat⟩ := hi
    have hreach : firmware.Reach anyStep s := hr.unobserved
    have hmoved := firmware_moved hs
    unfold recordTalk
    cases hl : l.isPe with
    | false =>
      rw [if_neg Bool.false_ne_true]
      refine ⟨stage,?_,?_⟩ <;> rw [(template_frame hmoved hl).2]
      · exact htalk
      · exact hat
    | true =>
      rw [if_pos rfl]
      obtain ⟨first,hsettled⟩ := exists_settled hreach
      have hheading : Heading s.pe s.shared := by
        refine ⟨by rw [hsettled.template]; exact settledTemplate_typeMask first,fun hlate => ?_⟩
        exact (specrev_cases hreach).resolve_left (specrev_ne hreach hlate)
      obtain ⟨o,ho,rfl⟩ := exists_peStep hmoved hl
      obtain ⟨stage',hsaid,hat'⟩ := policyEngine_converses hat hheading ho
      exact ⟨stage',talk_said htalk hsaid,hat'⟩

/-- In every interleaving, what the Policy Engine posts, reads and resets is a
conversation under the policy of a sink, with a contract exactly where the
thread has one. -/
theorem talks_as_sink {p : System × List Act} (h : talking.Reach anyStep p) :
    ∃ s, Talk p.2 s ∧ s.contract=p.1.pe.explicitContract := by
  obtain ⟨stage,htalk,-⟩ := talking_conversing h
  exact ⟨session stage p.1.pe,htalk,rfl⟩

/-- From power-up to the contract. -/
theorem talks_as_sink_negotiated : ∃ p s, talking.Reach anyStep p ∧ p.1.pe.explicitContract=true ∧
    Talk p.2 s ∧ s.contract=p.1.pe.explicitContract := by
  obtain ⟨p,hr,ht⟩ := exists_reach_of_follow talking anyStep negotiate
    (fun p => p.1.pe.explicitContract) (by decide +kernel)
  obtain ⟨s,htalk,hc⟩ := talks_as_sink hr
  exact ⟨p,s,hr,ht,htalk,hc⟩

/-- In every interleaving the Policy Engine posts four kinds of messages:
answers, each immediately after a message that obliges to it; Requests, each
for capabilities read since the last reset, and with nothing posted before the
next message of the source or the next reset; Soft_Resets, each immediately
after a message of the source or a refusal; and Get_Source_Cap. -/
theorem says_nothing_unsolicited {p : System × List Act} {before after : List Act} {m : PdMsg}
    (h : talking.Reach anyStep p) (ht : p.2=before++.post m::after) :
    Posted m ∧
      (∀ reply : Reply, reply.Answers m → ∃ earlier q, before=earlier++[.read q] ∧ reply.Obliges q) ∧
      (m.isData pdMsgtypeRequest=true → Offered before ∧
        ∀ between m' later, after=between++.post m'::later →
          (∃ q, .read q ∈ between) ∨ .reset ∈ between) ∧
      (m.isControl pdMsgtypeSoftReset=true → ∃ earlier a, before=earlier++[a] ∧
        ((∃ q, a=.read q) ∨ ∃ q, a=.post q ∧ Reply.notSupported.Answers q)) := by
  obtain ⟨stage,htalk,-⟩ := talking_conversing h
  rw [ht] at htalk
  obtain ⟨s₁,s₂,-,hstep,-⟩ := htalk.said
  refine ⟨hstep.posted,fun reply => htalk.answers,fun hm => ⟨htalk.requests hm,?_⟩,htalk.resyncs⟩
  rintro between m' later rfl
  exact htalk.awaits hm

/-- The message that an act posts. -/
def posted : Act → Option PdMsg
  | .post m => some m
  | _ => none

theorem posted_eq_some {a : Act} {m : PdMsg} (h : posted a=some m) : a=.post m := by
  cases a <;> cases h
  rfl

/-- The first Request follows the first capabilities. -/
theorem says_nothing_unsolicited_request : ∃ p before m, talking.Reach anyStep p ∧
    p.2=before++.post m::[] ∧ m.isData pdMsgtypeRequest=true ∧ Offered before := by
  obtain ⟨p,hr,ht⟩ := exists_reach_of_follow talking anyStep
    (List.flatten [powerUp,deliver (sourceCapabilities 0),[.pe,.pe,.pe,.pe,.pe]])
    (fun p => (p.2.getLast?.bind posted).any fun m => m.isData pdMsgtypeRequest) (by decide +kernel)
  obtain ⟨m,hm,hrequest⟩ := (Option.any_eq_true _ _).mp ht
  obtain ⟨a,hlast,ha⟩ := Option.bind_eq_some_iff.mp hm
  have htalk : p.2=p.2.dropLast++.post m::[] := by
    rw [← posted_eq_some ha]
    exact (List.dropLast_append_getLast? a hlast).symm
  exact ⟨p,_,m,hr,htalk,hrequest,((says_nothing_unsolicited hr htalk).2.2.1 hrequest).1⟩

end UsbPdFirmware.Conversation
