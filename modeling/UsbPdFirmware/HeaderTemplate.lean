import UsbPdFirmware.CapabilitySelection
import UsbPdFirmware.StalePointers

/-!
# The header of what is sent

Every message of the Policy Engine takes its roles and its revision from one
header template, into which the first Source_Capabilities put the revision.
The history keeps those capabilities.
-/

namespace UsbPdFirmware.HeaderTemplate

open PdMessage DevicePolicy BitFields LabelledRuns Machine EventThreads FirmwareState
open PolicyEngine ProtocolRx ProtocolTx HardReset FirmwareSystem PolicyEngineMoves
open BlockCustody BlockOwners CapabilitySelection

/-! ## Headers -/

/-- The data role in a header. -/
def pdHdrDatarole : BitVec 16 := 0x0020

/-- The power role in a header. -/
def pdHdrPowerrole : BitVec 16 := 0x0100

/-- What a header takes from the template: Extended bit, roles and revision. -/
def templateMask : BitVec 16 := pdHdrExt ||| pdHdrPowerrole ||| pdHdrSpecrev ||| pdHdrDatarole

/-- The revision that capabilities settle on. -/
def settledSpecrev (caps : PdMsg) : BitVec 16 :=
  if pdSpecrev30 ≤ caps.hdr &&& pdHdrSpecrev then pdSpecrev30 else pdSpecrev20

/-- The template after the first capabilities. -/
def settledTemplate : Option PdMsg → BitVec 16
  | none => pdDataroleUfp ||| pdPowerroleSink
  | some caps => pdDataroleUfp ||| pdPowerroleSink ||| settledSpecrev caps

/-- A header of a sink and UFP, under revision 2.0 or 3.0, namely the one that
the first capabilities settled. -/
structure Conforms (first : Option PdMsg) (m : PdMsg) : Prop where
  /-- The data role. -/
  ufp : m.hdr &&& pdHdrDatarole=pdDataroleUfp
  /-- The power role. -/
  sink : m.hdr &&& pdHdrPowerrole=pdPowerroleSink
  /-- The Extended bit. -/
  ext : m.hdr &&& pdHdrExt=0
  /-- The revision is one of two. -/
  specrev : m.hdr &&& pdHdrSpecrev=pdSpecrev20 ∨ m.hdr &&& pdHdrSpecrev=pdSpecrev30
  /-- It is settled. -/
  settled : ∀ caps, first=some caps → m.hdr &&& pdHdrSpecrev=settledSpecrev caps

/-- Either of two revisions is settled on. -/
theorem settledSpecrev_cases (caps : PdMsg) :
    settledSpecrev caps=pdSpecrev20 ∨ settledSpecrev caps=pdSpecrev30 := by
  unfold settledSpecrev
  split
  · exact .inr rfl
  · exact .inl rfl

/-- The parts of a settled template. -/
theorem settledTemplate_parts (caps : PdMsg) :
    settledTemplate (some caps) &&& pdHdrDatarole=pdDataroleUfp ∧
      settledTemplate (some caps) &&& pdHdrPowerrole=pdPowerroleSink ∧
      settledTemplate (some caps) &&& pdHdrExt=0 ∧
      settledTemplate (some caps) &&& pdHdrSpecrev=settledSpecrev caps := by
  have hbase : settledTemplate (some caps)=pdDataroleUfp ||| pdPowerroleSink ||| settledSpecrev caps := rfl
  rw [hbase]
  rcases settledSpecrev_cases caps with h | h <;> rw [h] <;> decide

/-- A header built on the template conforms exactly after the first
capabilities. -/
theorem conforms_iff {first : Option PdMsg} {m : PdMsg}
    (h : m.hdr &&& templateMask=settledTemplate first &&& templateMask) :
    Conforms first m ↔ first≠none := by
  have hpart {k : BitVec 16} (hk : templateMask &&& k=k) : m.hdr &&& k=settledTemplate first &&& k :=
    and_of_mask h hk
  constructor
  · rintro hc rfl
    have hrev : m.hdr &&& pdHdrSpecrev=pdSpecrev10 := hpart (by decide)
    rcases hc.specrev with h20 | h30
    · exact absurd (hrev.symm.trans h20) (by decide)
    · exact absurd (hrev.symm.trans h30) (by decide)
  · intro hne
    obtain ⟨caps,rfl⟩ := Option.ne_none_iff_exists'.mp hne
    obtain ⟨hdata,hpower,hext,hrev⟩ := settledTemplate_parts caps
    have hsettled := (hpart (by decide)).trans hrev
    constructor
    case ufp => exact (hpart (by decide)).trans hdata
    case sink => exact (hpart (by decide)).trans hpower
    case ext => exact (hpart (by decide)).trans hext
    case specrev =>
      rw [hsettled]
      exact settledSpecrev_cases caps
    case settled =>
      intro caps' hfirst
      cases hfirst
      exact hsettled

/-- The first capabilities settle the template, and later ones leave it. -/
theorem chooseSpecrev_settled (first : Option PdMsg) (caps : PdMsg) :
    chooseSpecrev (settledTemplate first) caps.hdr=settledTemplate (first.or (some caps)) := by
  unfold chooseSpecrev
  cases first with
  | none =>
    rw [if_pos (by decide)]
    change _=pdDataroleUfp ||| pdPowerroleSink ||| settledSpecrev caps
    unfold settledSpecrev settledTemplate
    split <;> rfl
  | some old =>
    have hrev := (settledTemplate_parts old).2.2.2
    have hne : settledSpecrev old≠pdSpecrev10 := by
      rcases settledSpecrev_cases old with h | h <;> rw [h] <;> decide
    rw [if_neg (by rw [hrev]; exact hne)]
    rfl

/-- A type and an object count leave the template's bits. -/
theorem header_and (template msgtype : BitVec 16) (n : ℕ) (h : msgtype &&& templateMask=0) :
    (template ||| msgtype ||| pdNumobj n) &&& templateMask=template &&& templateMask := by
  have hcount : pdNumobj n &&& templateMask=0 := fieldSet_and (by decide) _ _
  rw [or_and_right hcount,or_and_right h]

/-- A Request is built on the template. -/
theorem Exit.hdr {sh : Shared} {caps request : PdMsg} {e : Evaluation} (h : Exit sh caps request e) :
    e.request.hdr=sh.hdrTemplate ||| pdMsgtypeRequest ||| pdNumobj 1 := by
  cases h <;> rfl

theorem evaluateCapability_and (caps : Option MsgPtr) (request : MsgPtr) (sh : Shared) :
    (evaluateCapability caps request sh).1.msg.hdr &&& templateMask=sh.hdrTemplate &&& templateMask := by
  have hhdr := Exit.hdr (answer_exit caps request sh)
  change (answer caps request sh).request.hdr &&& templateMask=_
  rw [hhdr,header_and _ _ _ (by decide)]

/-- Evaluating leaves the template. -/
theorem evaluateCapability_template (caps : Option MsgPtr) (request : MsgPtr) (sh : Shared) :
    (evaluateCapability caps request sh).2.hdrTemplate=sh.hdrTemplate := by
  unfold evaluateCapability pdbsDpmEvaluateCapability
  cases caps with
  | none => rfl
  | some c =>
    dsimp only
    rw [free?_eq]

/-! ## What one action does with the template -/

/-- The states before the first capabilities. -/
def earlyStates : List PolicyEngineState :=
  [.sinkStartup,.sinkDiscovery,.sinkWaitCap,.sinkHardReset,.sinkTransitionDefault,.sinkSoftReset,
    .sinkSourceUnresponsive]

/-- The next action handles Source_Capabilities. -/
def handlesCapabilities (pe : PolicyEngine) : Option PdMsg :=
  if pe.point=.handle then
    (pe.message.map MsgPtr.msg).filter fun m => m.isData pdMsgtypeSourceCapabilities
  else none

section Heads

variable (pe : PolicyEngine) (sh : Shared)

/-- The template stays, and nothing is posted. -/
structure Still (pe' : PolicyEngine) (sh' : Shared) : Prop where
  /-- The template. -/
  template : sh'.hdrTemplate=sh.hdrTemplate
  /-- The Request. -/
  request : pe'.lastDpmRequest=pe.lastDpmRequest
  /-- Before the first capabilities the thread stays there. -/
  early : pe.state ∈ earlyStates → pe'.state ∈ earlyStates
  /-- Nothing is posted. -/
  quiet : pe'.point≠.signalTx

/-- Everything one action can do with headers. -/
inductive Heads : Outcome Event PolicyEngine Shared → Prop where
  /-- Nothing. -/
  | still {o : Outcome Event PolicyEngine Shared} (h : Still pe sh o.loc o.shared)
      (hc : pe.state ∈ earlyStates → handlesCapabilities pe=none) : Heads o
  /-- Capabilities settle the template. -/
  | settle {o : Outcome Event PolicyEngine Shared} {m : MsgPtr} (hs : pe.state=.sinkWaitCap)
      (hc : handlesCapabilities pe=some m.msg)
      (ht : o.shared.hdrTemplate=chooseSpecrev sh.hdrTemplate m.msg.hdr)
      (hr : o.loc.lastDpmRequest=pe.lastDpmRequest) (hq : o.loc.point≠.signalTx) : Heads o
  /-- A Request is built. -/
  | build {o : Outcome Event PolicyEngine Shared} {r : MsgPtr} (hs : pe.state=.sinkEvalCap)
      (hc : handlesCapabilities pe=none) (ht : o.shared.hdrTemplate=sh.hdrTemplate)
      (hr : o.loc.lastDpmRequest=some r)
      (hh : r.msg.hdr &&& templateMask=sh.hdrTemplate &&& templateMask) (hq : o.loc.point≠.signalTx) :
      Heads o
  /-- The Request is posted. -/
  | request {pending : Event → Bool} {m : MsgPtr} (hp : pe.point=.start) (hs : pe.state=.sinkSelectCap)
      (hr : pe.lastDpmRequest=some m) : Heads ⟨pending,at_ pe .signalTx,postTx sh m⟩
  /-- A new message is posted. Without a revision one of them gets no header. -/
  | send {pending : Event → Bool} {m : MsgPtr} {pool : List ℕ} (hp : pe.point=.start)
      (hs : pe.state≠.sinkSelectCap)
      (hh : pe.state ∈ earlyStates ∨ sh.hdrTemplate &&& pdHdrSpecrev≠pdSpecrev10 →
        m.msg.hdr &&& templateMask=sh.hdrTemplate &&& templateMask) :
      Heads ⟨pending,at_ {pe with sending := some m} .signalTx,postTx {sh with pool := pool} m⟩

end Heads

variable {pe pe' : PolicyEngine} {pending : Event → Bool} {sh sh' : Shared} {expired : Bool}
  {o : Outcome Event PolicyEngine Shared}

/-- Away from the handling of a message there are no capabilities. -/
theorem handlesCapabilities_none (h : pe.point≠.handle) : handlesCapabilities pe=none := if_neg h

/-- Going on without a message in hand. -/
theorem heads_still (hp : pe.point≠.handle) (h : Still pe sh o.loc o.shared) : Heads pe sh o :=
  .still h fun _ => handlesCapabilities_none hp

/-- A wait, when every way to resume keeps still. -/
theorem wait_heads {mask : List Event} {timed : Bool} {resume : List Event → PolicyEngine}
    (hp : pe.point≠.handle) (hr : ∀ evt, Still pe sh (resume evt) sh)
    (h : (Action.wait mask timed resume).perform expired pending sh=some o) : Heads pe sh o := by
  rcases Action.perform_wait.mp h with ⟨-,-,rfl⟩ | ⟨-,-,-,rfl⟩
  · exact heads_still hp (hr _)
  · exact heads_still hp (hr _)

/-- Returning a state: an early one, or any from a later one. -/
theorem still_goto {pe₁ : PolicyEngine} {state : PolicyEngineState}
    (ht : sh'.hdrTemplate=sh.hdrTemplate) (hr : pe₁.lastDpmRequest=pe.lastDpmRequest)
    (hs : state ∈ earlyStates ∨ pe.state ∉ earlyStates) : Still pe sh (goto pe₁ state) sh' :=
  ⟨ht,hr,fun he => hs.resolve_right fun hn => hn he,fun hp => by cases hp⟩

/-- Going on inside a state function. -/
theorem still_at {point : PolicyEnginePoint} (h : point≠.signalTx) : Still pe sh (at_ pe point) sh :=
  ⟨rfl,rfl,id,h⟩

/-! ## Handling a message -/

/-- Freeing the message and returning a state. -/
theorem finish_still {pe₁ : PolicyEngine} {m : MsgPtr} {state : PolicyEngineState} (dpm : Dpm)
    (h : finish pe₁ m {sh with dpm := dpm} state=some (sh',pe'))
    (hr : pe₁.lastDpmRequest=pe.lastDpmRequest)
    (hs : state ∈ earlyStates ∨ pe.state ∉ earlyStates) : Still pe sh pe' sh' := by
  obtain ⟨rfl,rfl⟩ := Prod.ext_iff.mp (Option.some.inj h)
  exact still_goto rfl hr hs

/-- A message in `PESinkReady`. -/
theorem peSinkReadyMessage_still {m : MsgPtr} (hs : pe.state=.sinkReady)
    (h : peSinkReadyMessage pe m sh=some (sh',pe')) : Still pe sh pe' sh' := by
  have hlate : pe.state ∉ earlyStates := by rw [hs]; decide
  cases peSinkReadyMessage_step h with
  | answer hs h => exact finish_still sh.dpm h rfl (.inr hlate)
  | gotomin hm hg h => exact finish_still _ h rfl (.inr hlate)
  | capabilities hm hsh hpe =>
    subst hsh hpe
    exact still_goto rfl rfl (.inr hlate)

/-- A message in every receiving state. -/
theorem handleMessage_heads {m : MsgPtr} (hp : pe.point=.handle) (hm : pe.message=some m)
    (h : handleMessage pe m sh=some (sh',pe')) : Heads pe sh ⟨pending,pe',sh'⟩ := by
  unfold handleMessage at h
  cases hs : pe.state <;> rw [hs] at h <;> dsimp only at h
  case sinkWaitCap =>
    have hcaps : handlesCapabilities pe=
        if m.msg.isData pdMsgtypeSourceCapabilities then some m.msg else none := by
      unfold handlesCapabilities
      rw [if_pos hp,hm]
      rfl
    unfold peSinkWaitCapMessage at h
    split_ifs at h with hdata hsoft
    · obtain ⟨rfl,rfl⟩ := Prod.ext_iff.mp (Option.some.inj h)
      exact .settle hs (by rw [hcaps,if_pos hdata]) rfl rfl fun hp => by cases hp
    · refine .still (finish_still sh.dpm h rfl (.inl (by decide))) fun _ => ?_
      rw [hcaps,if_neg hdata]
    · obtain ⟨rfl,rfl⟩ := Prod.ext_iff.mp (Option.some.inj h)
      refine .still (still_goto rfl rfl (.inl (by decide))) fun _ => ?_
      rw [hcaps,if_neg hdata]
  case sinkReady =>
    exact .still (peSinkReadyMessage_still hs h) fun he => absurd (hs ▸ he) (by decide)
  case sinkSelectCap =>
    have hlate : pe.state ∉ earlyStates := by rw [hs]; decide
    refine .still ?_ fun he => absurd he hlate
    unfold peSinkSelectCapMessage at h
    dsimp only at h
    split_ifs at h
    · exact finish_still _ h rfl (.inr hlate)
    all_goals exact finish_still sh.dpm h rfl (.inr hlate)
  case sinkTransitionSink =>
    have hlate : pe.state ∉ earlyStates := by rw [hs]; decide
    refine .still ?_ fun he => absurd he hlate
    unfold peSinkTransitionSinkMessage at h
    dsimp only at h
    split_ifs at h
    · exact finish_still sh.dpm h rfl (.inr hlate)
    all_goals exact finish_still _ h rfl (.inr hlate)
  case sinkSendSoftReset =>
    have hlate : pe.state ∉ earlyStates := by rw [hs]; decide
    refine .still ?_ fun he => absurd he hlate
    unfold peSinkSendSoftResetMessage at h
    split_ifs at h <;> exact finish_still sh.dpm h rfl (.inr hlate)
  all_goals exact absurd h (by simp)

/-! ## Sending and waiting -/

/-- A new message with a header on the template. -/
theorem sendNew_heads {build : Shared → PdMsg → PdMsg} (hp : pe.point=.start)
    (hs : pe.state≠.sinkSelectCap)
    (hb : ∀ pool junk, pe.state ∈ earlyStates ∨ sh.hdrTemplate &&& pdHdrSpecrev≠pdSpecrev10 →
      (build {sh with pool := pool} junk).hdr &&& templateMask=sh.hdrTemplate &&& templateMask)
    (h : (sendNew pe build).perform expired pending sh=some o) : Heads pe sh o := by
  obtain ⟨-,sh',next,he,rfl⟩ := Action.perform_access.mp h
  cases ha : sh.alloc with
  | none => simp [ha] at he
  | some r =>
    obtain ⟨block,sh₁⟩ := r
    obtain ⟨pool,-,rfl⟩ := Shared.alloc_eq_some.mp ha
    simp only [ha,Option.some.injEq,Prod.mk.injEq] at he
    obtain ⟨rfl,rfl⟩ := he
    exact .send hp hs fun hrev => hb pool sh.junk hrev

/-- A control message. -/
theorem sendControl_heads {msgtype : BitVec 16} (hp : pe.point=.start) (hs : pe.state≠.sinkSelectCap)
    (hm : msgtype &&& templateMask=0)
    (h : (sendNew pe (controlMsg msgtype)).perform expired pending sh=some o) : Heads pe sh o :=
  sendNew_heads hp hs (fun _ _ _ => header_and _ _ _ hm) h

/-- The answer to what is not supported has a header under a revision only. -/
theorem peSinkSendNotSupported_heads (hp : pe.point=.start) (hs : pe.state=.sinkSendNotSupported)
    (hr : sh.hdrTemplate &&& pdHdrSpecrev=pdSpecrev10 ∨ sh.hdrTemplate &&& pdHdrSpecrev=pdSpecrev20 ∨
      sh.hdrTemplate &&& pdHdrSpecrev=pdSpecrev30)
    (h : (peSinkSendNotSupported pe).perform expired pending sh=some o) : Heads pe sh o := by
  refine sendNew_heads hp (by rw [hs]; decide) (fun pool junk hrev => ?_) h
  have hne : sh.hdrTemplate &&& pdHdrSpecrev≠pdSpecrev10 :=
    hrev.resolve_left fun he => absurd (hs ▸ he) (by decide)
  dsimp only
  split
  · exact header_and _ _ _ (by decide)
  · next h20 =>
    rw [if_pos ((hr.resolve_left hne).resolve_left h20)]
    exact header_and _ _ _ (by decide)

/-- Freeing what was sent and going on by the result. -/
theorem freeSent_heads {result : TxResult} {onFailure onDone : PolicyEngine → PolicyEngine}
    (hp : pe.point=.sent result)
    (hf : ∀ sh', sh'.hdrTemplate=sh.hdrTemplate → Still pe sh (onFailure {pe with sending := none}) sh')
    (hd : ∀ sh', sh'.hdrTemplate=sh.hdrTemplate → Still pe sh (onDone {pe with sending := none}) sh')
    (h : (freeSent pe result onFailure onDone).perform expired pending sh=some o) : Heads pe sh o := by
  have hfree : (sh.free? pe.sending).hdrTemplate=sh.hdrTemplate := by rw [free?_eq]
  obtain ⟨-,rfl⟩ := Action.perform_access_some.mp h
  refine heads_still (by rw [hp]; simp) ?_
  cases result with
  | reset => exact still_goto hfree rfl (.inl (by decide))
  | failed => exact hf _ hfree
  | done => exact hd _ hfree

/-! ## The thread -/

/-- The first action of a state function. -/
theorem stateFunction_heads (hp : pe.point=.start)
    (hr : sh.hdrTemplate &&& pdHdrSpecrev=pdSpecrev10 ∨ sh.hdrTemplate &&& pdHdrSpecrev=pdSpecrev20 ∨
      sh.hdrTemplate &&& pdHdrSpecrev=pdSpecrev30)
    (h : (stateFunction pe).perform expired pending sh=some o) : Heads pe sh o := by
  have hnot : pe.point≠.handle := by rw [hp]; decide
  unfold stateFunction at h
  cases hs : pe.state <;> rw [hs] at h <;> dsimp only at h
  case sinkSelectCap =>
    obtain ⟨m,hm,rfl⟩ := peSinkSelectCap_perform h
    exact .request hp hs hm
  case sinkEvalCap =>
    obtain ⟨request,ppsIndex,lastPps,pool,-,rfl⟩ := peSinkEvalCap_perform h
    exact .build hs (handlesCapabilities_none hnot) (evaluateCapability_template _ _ _) rfl
      (evaluateCapability_and _ _ _) fun hp => by cases hp
  case sinkSoftReset => exact sendControl_heads hp (by rw [hs]; decide) (by decide) h
  case sinkSendSoftReset => exact sendControl_heads hp (by rw [hs]; decide) (by decide) h
  case sinkGetSourceCap => exact sendControl_heads hp (by rw [hs]; decide) (by decide) h
  case sinkSendNotSupported => exact peSinkSendNotSupported_heads hp hs hr h
  case sinkGiveSinkCap =>
    exact sendNew_heads hp (by rw [hs]; decide) (fun _ _ _ => header_and _ _ _ (by decide)) h
  case sinkStartup =>
    obtain ⟨-,rfl⟩ := Action.perform_access_some.mp h
    exact heads_still hnot (still_goto rfl rfl (.inl (by decide)))
  case sinkDiscovery =>
    obtain ⟨-,rfl⟩ := Action.perform_access_some.mp h
    exact heads_still hnot (still_goto rfl rfl (.inl (by decide)))
  case sinkNotSupportedReceived =>
    obtain ⟨-,rfl⟩ := Action.perform_access_some.mp h
    exact heads_still hnot (still_goto rfl rfl (.inr (by rw [hs]; decide)))
  case sinkTransitionDefault =>
    obtain ⟨-,rfl⟩ := Action.perform_access_some.mp h
    exact heads_still hnot ⟨rfl,rfl,id,fun hp => by cases hp⟩
  case sinkSourceUnresponsive =>
    obtain ⟨-,rfl⟩ := Action.perform_access_some.mp h
    exact heads_still hnot (still_goto rfl rfl (.inl (by decide)))
  case sinkHardReset =>
    unfold peSinkHardReset at h
    split_ifs at h
    · obtain ⟨-,rfl⟩ := Action.perform_access_some.mp h
      exact heads_still hnot (still_goto rfl rfl (.inl (by decide)))
    · obtain ⟨-,rfl⟩ := Action.perform_signal.mp h
      exact heads_still hnot (still_at (by decide))
  case sinkWaitCap =>
    refine wait_heads hnot (fun evt => ?_) h
    split_ifs
    all_goals first | exact still_goto rfl rfl (.inl (by decide)) | exact still_at (by decide)
  all_goals
    have hlate : pe.state ∉ earlyStates := by rw [hs]; decide
    refine wait_heads hnot (fun evt => ?_) h
    split_ifs
    all_goals first | exact still_goto rfl rfl (.inr hlate) | exact still_at (by decide)

/-- What follows the end of a transmission. -/
theorem afterSent_heads {result : TxResult} (hp : pe.point=.sent result)
    (h : (afterSent pe result).perform expired pending sh=some o) : Heads pe sh o := by
  have hnot : pe.point≠.handle := by rw [hp]; simp
  unfold afterSent at h
  cases hs : pe.state <;> rw [hs] at h <;> dsimp only at h
  case sinkSoftReset =>
    refine freeSent_heads hp (fun _ ht => ?_) (fun _ ht => ?_) h
    · exact still_goto ht rfl (.inl (by decide))
    · exact still_goto ht rfl (.inl (by decide))
  case sinkSelectCap =>
    have hlate : pe.state ∉ earlyStates := by rw [hs]; decide
    obtain ⟨-,sh',next,he,rfl⟩ := Action.perform_access.mp h
    refine heads_still hnot ?_
    cases result with
    | reset =>
      obtain ⟨rfl,rfl⟩ := Prod.ext_iff.mp (Option.some.inj he)
      exact still_goto rfl rfl (.inr hlate)
    | failed =>
      obtain ⟨rfl,rfl⟩ := Prod.ext_iff.mp (Option.some.inj he)
      exact still_goto rfl rfl (.inr hlate)
    | done =>
      obtain ⟨rfl,rfl⟩ := Prod.ext_iff.mp (Option.some.inj he)
      exact ⟨rfl,rfl,id,fun hp => by cases hp⟩
  case sinkSendSoftReset =>
    have hlate : pe.state ∉ earlyStates := by rw [hs]; decide
    refine freeSent_heads hp (fun _ ht => ?_) (fun _ ht => ?_) h
    · exact still_goto ht rfl (.inr hlate)
    · exact ⟨ht,rfl,id,fun hp => by cases hp⟩
  case sinkSendNotSupported | sinkGetSourceCap | sinkGiveSinkCap =>
    have hlate : pe.state ∉ earlyStates := by rw [hs]; decide
    refine freeSent_heads hp (fun _ ht => ?_) (fun _ ht => ?_) h
    · exact still_goto ht rfl (.inr hlate)
    · exact still_goto ht rfl (.inr hlate)
  all_goals exact absurd h Action.perform_stuck

/-- Every action of the thread is one of these. -/
theorem policyEngine_heads (hl : leavesReady pe.point=true → pe.state=.sinkReady)
    (hr : sh.hdrTemplate &&& pdHdrSpecrev=pdSpecrev10 ∨ sh.hdrTemplate &&& pdHdrSpecrev=pdSpecrev20 ∨
      sh.hdrTemplate &&& pdHdrSpecrev=pdSpecrev30)
    (h : (policyEngine pe).perform expired pending sh=some o) : Heads pe sh o := by
  unfold policyEngine at h
  cases hp : pe.point <;> rw [hp] at h <;> dsimp only at h
  case start => exact stateFunction_heads hp hr h
  case sent result => exact afterSent_heads hp h
  case handle =>
    obtain ⟨m,sh',next,hm,he,rfl⟩ := handle_perform h
    exact handleMessage_heads hp hm he
  all_goals
    have hnot : pe.point≠.handle := by rw [hp]; simp
  case dropMessage =>
    obtain ⟨-,rfl⟩ := Action.perform_access_some.mp h
    refine heads_still hnot ⟨?_,rfl,id,fun hp => by cases hp⟩
    change (sh.free? pe.message).hdrTemplate=_
    rw [free?_eq]
  case startAms next =>
    have hs := hl (by rw [hp]; rfl)
    obtain ⟨-,rfl⟩ := Action.perform_signal.mp h
    exact heads_still hnot (still_goto rfl rfl (.inr (by rw [hs]; decide)))
  case signalTx =>
    obtain ⟨-,rfl⟩ := Action.perform_signal.mp h
    exact heads_still hnot (still_at (by decide))
  case signalDone =>
    obtain ⟨-,rfl⟩ := Action.perform_signal.mp h
    exact heads_still hnot (still_goto rfl rfl (.inl (by decide)))
  case waitTx => exact wait_heads hnot (fun evt => still_at (by simp)) h
  case waitResponse =>
    refine wait_heads hnot (fun evt => ?_) h
    split_ifs
    all_goals first | exact still_goto rfl rfl (.inl (by decide)) | exact still_at (by decide)
  case waitHardSent =>
    refine wait_heads hnot (fun evt => ?_) h
    exact still_goto rfl rfl (.inl (by decide))
  case fetch =>
    rcases fetchMessage_perform h with ⟨-,rfl⟩ | ⟨m,rest,-,rfl⟩
    · refine heads_still hnot (still_goto rfl rfl ?_)
      unfold emptyFetch
      split
      · next hs => exact .inr (by rw [hs]; decide)
      · exact .inl (by decide)
    · exact heads_still hnot ⟨rfl,rfl,id,fun hp => by cases hp⟩

/-! ## Runs -/

/-- The first capabilities the Policy Engine has handled. -/
def recordFirst (first : Option PdMsg) (s : System) (l : Label) (_ : System) : Option PdMsg :=
  if l.isPe then first.or (handlesCapabilities s.pe) else first

/-- The firmware with the first capabilities beside it. -/
def remembering : Machine (System × Option PdMsg) Label := firmware.observe none recordFirst

/-- The Policy Engine posts a message: the Request in one state, a message of
its own in the others. -/
structure Posts (s : System) (l : Label) (s' : System) (m : MsgPtr) : Prop where
  /-- It acts. -/
  acts : l.isPe=true
  /-- It began a state function. -/
  begins : s.pe.point=.start
  /-- Protocol TX is to be told. -/
  ends : s'.pe.point=.signalTx
  /-- The message. -/
  message : (if s.pe.state=.sinkSelectCap then s'.pe.lastDpmRequest else s'.pe.sending)=some m

section Posts

variable {s : System} {l : Label} {o : Outcome Event PolicyEngine Shared} {m : MsgPtr}

/-- A posted message is the Request, or is new and has its header from the
template. -/
theorem Posts.origin (hm : Posts s l (s.withPe o) m) (h : Heads s.pe s.shared o) :
    s.pe.lastDpmRequest=some m ∨
      (s.pe.state ∈ earlyStates ∨ s.shared.hdrTemplate &&& pdHdrSpecrev≠pdSpecrev10 →
        m.msg.hdr &&& templateMask=s.shared.hdrTemplate &&& templateMask) := by
  have hmessage := hm.message
  cases h with
  | still h hc => exact absurd hm.ends h.quiet
  | settle hs hc ht hr hq => exact absurd hm.ends hq
  | build hs hc ht hr hh hq => exact absurd hm.ends hq
  | request hp hs hr =>
    rw [if_pos hs] at hmessage
    exact .inl hmessage
  | @send pending m' pool hp hs hh =>
    rw [if_neg hs] at hmessage
    rw [← Option.some.inj hmessage]
    exact .inr hh

/-- It goes to Protocol TX's mailbox. -/
theorem Posts.mailbox (hm : Posts s l (s.withPe o) m) (h : Heads s.pe s.shared o) :
    o.shared.txMailbox=post pdbMsgPoolSize m s.shared.txMailbox := by
  have hmessage := hm.message
  cases h with
  | still h hc => exact absurd hm.ends h.quiet
  | settle hs hc ht hr hq => exact absurd hm.ends hq
  | build hs hc ht hr hh hq => exact absurd hm.ends hq
  | request hp hs hr =>
    rw [if_pos hs] at hmessage
    rw [Option.some.inj (hr.symm.trans hmessage)]
    rfl
  | @send pending m' pool hp hs hh =>
    rw [if_neg hs] at hmessage
    rw [← Option.some.inj hmessage]
    rfl

end Posts

/-- What the template and the Request owe to the first capabilities. -/
structure Settled (s : System) (first : Option PdMsg) : Prop where
  /-- The template. -/
  template : s.shared.hdrTemplate=settledTemplate first
  /-- Without capabilities the thread is in an early state. -/
  early : first=none → s.pe.state ∈ earlyStates
  /-- A Request was built after them, on their template. -/
  request : ∀ r, s.pe.lastDpmRequest=some r →
    first≠none ∧ r.msg.hdr &&& templateMask=settledTemplate first &&& templateMask

section Runs

variable {s s' : System} {l : Label} {first : Option PdMsg}

/-- Its revision is one of three. -/
theorem settledTemplate_specrev (first : Option PdMsg) :
    settledTemplate first &&& pdHdrSpecrev=pdSpecrev10 ∨
      settledTemplate first &&& pdHdrSpecrev=pdSpecrev20 ∨
      settledTemplate first &&& pdHdrSpecrev=pdSpecrev30 := by
  cases first with
  | none => exact .inl (by decide)
  | some caps =>
    rw [(settledTemplate_parts caps).2.2.2]
    exact .inr (settledSpecrev_cases caps)

/-- After the first capabilities there is one. -/
theorem settledTemplate_ne (h : first≠none) : settledTemplate first &&& pdHdrSpecrev≠pdSpecrev10 := by
  obtain ⟨caps,rfl⟩ := Option.ne_none_iff_exists'.mp h
  rw [(settledTemplate_parts caps).2.2.2]
  rcases settledSpecrev_cases caps with hrev | hrev <;> rw [hrev] <;> decide

/-- The actions of the Policy Engine, in a run. -/
theorem Settled.heads {expired : Bool} {o : Outcome Event PolicyEngine Shared} (h : Settled s first)
    (ht : Tidy s.pe) (ho : (policyEngine s.pe).perform expired s.pending s.shared=some o) :
    Heads s.pe s.shared o :=
  policyEngine_heads ht.ready (h.template ▸ settledTemplate_specrev first) ho

/-- The Policy Engine keeps this. -/
theorem Settled.act {o : Outcome Event PolicyEngine Shared} (h : Settled s first)
    (ho : Heads s.pe s.shared o) : Settled (s.withPe o) (first.or (handlesCapabilities s.pe)) := by
  have hsame (hc : s.pe.state ∈ earlyStates → handlesCapabilities s.pe=none) :
      first.or (handlesCapabilities s.pe)=first := by
    cases hf : first with
    | none => exact hc (h.early hf)
    | some caps => rfl
  cases ho with
  | still hstill hc =>
    rw [hsame hc]
    refine ⟨hstill.template.trans h.template,fun hf => hstill.early (h.early hf),fun r hr => ?_⟩
    exact h.request r (hstill.request.symm.trans hr)
  | @settle o m hs hc ht hr hq =>
    rw [hc]
    refine ⟨?_,fun hf => ?_,fun r hrequest => ?_⟩
    · change o.shared.hdrTemplate=_
      rw [ht,h.template]
      exact chooseSpecrev_settled first m.msg
    · cases first <;> cases hf
    · obtain ⟨hne,hand⟩ := h.request r (hr.symm.trans hrequest)
      obtain ⟨caps,rfl⟩ := Option.ne_none_iff_exists'.mp hne
      exact ⟨hne,hand⟩
  | @build o r hs hc ht hr hh hq =>
    have hne : first≠none := fun hf => absurd (hs ▸ h.early hf) (by decide)
    rw [hsame fun _ => hc]
    refine ⟨ht.trans h.template,fun hf => absurd hf hne,fun r' hr' => ⟨hne,?_⟩⟩
    have hrr : r=r' := Option.some.inj (hr.symm.trans hr')
    rw [← hrr,hh,h.template]
  | request hp hs hr =>
    rw [hsame fun _ => handlesCapabilities_none (by rw [hp]; decide)]
    exact ⟨h.template,h.early,h.request⟩
  | send hp hs hh =>
    rw [hsame fun _ => handlesCapabilities_none (by rw [hp]; decide)]
    exact ⟨h.template,h.early,h.request⟩

/-- Nobody else touches the template or the Policy Engine. -/
theorem template_frame (h : Moved s l s') (hl : l.isPe=false) :
    s'.shared.hdrTemplate=s.shared.hdrTemplate ∧ s'.pe=s.pe := by
  cases h with
  | pe hl' he hp =>
    rw [hl] at hl'
    cases hl'
  | rx hr =>
    refine ⟨?_,rfl⟩
    cases hr with
    | read hp hb =>
      change (Shared.fusbReadMessage s.shared).2.hdrTemplate=_
      rw [fusbReadMessage_eq]
    | drop hp =>
      change (s.shared.free? s.rx.message).hdrTemplate=_
      rw [free?_eq]
    | _ => rfl
  | tx ht =>
    refine ⟨?_,rfl⟩
    cases ht with
    | matchRead hp =>
      change (Shared.fusbReadMessage s.shared).2.hdrTemplate=_
      rw [fusbReadMessage_eq]
    | discard hp =>
      unfold System.withTx
      cases s.tx.message <;> rfl
    | _ => rfl
  | hr hl' hh => cases hh <;> exact ⟨rfl,rfl⟩
  | intN hi => cases hi <;> exact ⟨rfl,rfl⟩
  | env he => exact ⟨(environment_frame he).hdrTemplate,(environment_frame he).pe⟩

/-- Every run keeps it. -/
theorem remembering_settled {p : System × Option PdMsg} (h : remembering.Reach anyStep p) :
    Settled p.1 p.2 := by
  refine h.observed_invariant (I := Settled) ?_ fun s first l s' hr hi _ hs => ?_
  · exact ⟨rfl,fun _ => by decide,fun r hr => by cases hr⟩
  · have htidy := (receiver_conserved (firmware_reach hr.unobserved)).tidy
    have hmoved := firmware_moved hs
    unfold recordFirst
    cases hl : l.isPe with
    | false =>
      obtain ⟨ht,hpe⟩ := template_frame hmoved hl
      rw [if_neg Bool.false_ne_true]
      exact ⟨ht.trans hi.template,by rw [hpe]; exact hi.early,by rw [hpe]; exact hi.request⟩
    | true =>
      rw [if_pos rfl]
      obtain ⟨o,ho,rfl⟩ := exists_peStep hmoved hl
      exact hi.act (hi.heads htidy ho)

/-- So does every run of the firmware, for some first capabilities. -/
theorem exists_settled (h : firmware.Reach anyStep s) : ∃ first, Settled s first := by
  obtain ⟨first,hr⟩ := h.exists_observed none recordFirst
  exact ⟨first,remembering_settled (p := (s,first)) hr⟩

/-- The revision of the template. -/
def specrev (s : System) : BitVec 16 := s.shared.hdrTemplate &&& pdHdrSpecrev

/-- Capabilities were handled before a later state. -/
theorem specrev_ne (h : firmware.Reach anyStep s) (hs : s.pe.state ∉ earlyStates) :
    specrev s≠pdSpecrev10 := by
  obtain ⟨first,hsettled⟩ := exists_settled h
  unfold specrev
  rw [hsettled.template]
  exact settledTemplate_ne fun hf => hs (hsettled.early hf)

/-- A revision that was settled is never changed. -/
theorem specrev_kept (h : firmware.Reach anyStep s) (hs : firmware.step l s=some s')
    (hr : specrev s≠pdSpecrev10) : specrev s'=specrev s := by
  unfold specrev at hr ⊢
  have hmoved := firmware_moved hs
  cases hl : l.isPe with
  | false => rw [(template_frame hmoved hl).1]
  | true =>
    obtain ⟨first,hsettled⟩ := exists_settled h
    obtain ⟨o,ho,rfl⟩ := exists_peStep hmoved hl
    change o.shared.hdrTemplate &&& pdHdrSpecrev=_
    cases hsettled.heads (receiver_conserved (firmware_reach h)).tidy ho with
    | still hstill hc => rw [hstill.template]
    | settle hs hc ht hr' hq => rw [ht,chooseSpecrev,if_neg hr]
    | build hs hc ht hr' hh hq => rw [ht]
    | request hp hs hr' => rfl
    | send hp hs hh => rfl

/-- So it is the same in the next state. -/
theorem specrev_step (h : firmware.Reach anyStep s) (hs : firmware.step l s=some s') {r : BitVec 16}
    (hne : r≠pdSpecrev10) (hr : specrev s=r) : specrev s'=r := by
  rw [specrev_kept h hs (by rw [hr]; exact hne)]
  exact hr

/-- Before it is settled it was not settled either. -/
theorem specrev_early (h : firmware.Reach anyStep s) (hs : firmware.step l s=some s')
    (hr : specrev s'=pdSpecrev10) : specrev s=pdSpecrev10 := by
  by_contra hne
  exact hne ((specrev_kept h hs hne).symm.trans hr)

/-- It is one of three. -/
theorem specrev_cases (h : firmware.Reach anyStep s) :
    specrev s=pdSpecrev10 ∨ specrev s=pdSpecrev20 ∨ specrev s=pdSpecrev30 := by
  obtain ⟨first,hsettled⟩ := exists_settled h
  unfold specrev
  rw [hsettled.template]
  exact settledTemplate_specrev first

end Runs

/-- In every run a message posted for Protocol TX has the sink's roles and the
revision of the first capabilities exactly when there have been some. -/
theorem posted_conforms_iff {p q : System × Option PdMsg} {l : Label} {m : MsgPtr}
    (h : remembering.Reach anyStep p) (hs : remembering.step l p=some q) (hm : Posts p.1 l q.1 m) :
    q.1.shared.txMailbox=post pdbMsgPoolSize m p.1.shared.txMailbox ∧
      (Conforms p.2 m.msg ↔ p.2≠none) := by
  have hsettled := remembering_settled h
  have htidy := (receiver_conserved (firmware_reach h.unobserved)).tidy
  obtain ⟨o,ho,hq⟩ := exists_peStep (firmware_moved (observe_step.mp hs).1) hm.acts
  rw [hq] at hm ⊢
  have hheads := hsettled.heads htidy ho
  refine ⟨hm.mailbox hheads,conforms_iff ?_⟩
  rcases hm.origin hheads with hrequest | hnew
  · exact (hsettled.request m hrequest).2
  · rw [← hsettled.template]
    refine hnew ?_
    rw [hsettled.template]
    by_cases hf : p.2=none
    · exact .inl (hsettled.early hf)
    · exact .inr (settledTemplate_ne hf)

/-- The first capabilities lead to the first Request. -/
theorem posted_conforms_request : ∃ p q m, remembering.Reach anyStep p ∧
    remembering.step .pe p=some q ∧ Posts p.1 .pe q.1 m ∧ Conforms p.2 m.msg := by
  obtain ⟨p,q,hr,hs,ht⟩ := exists_step_of_follow remembering anyStep
    (List.flatten [powerUp,deliver (sourceCapabilities 0),[.pe,.pe,.pe,.pe]]) .pe
    (fun p q => decide (p.1.pe.point=.start ∧ p.1.pe.state=.sinkSelectCap ∧ q.1.pe.point=.signalTx) &&
      q.1.pe.lastDpmRequest.isSome && p.2.isSome) (by decide +kernel)
  simp only [Bool.and_eq_true,decide_eq_true_eq] at ht
  obtain ⟨⟨⟨hp,hstate,hq⟩,hrequest⟩,hfirst⟩ := ht
  obtain ⟨m,hm⟩ := Option.isSome_iff_exists.mp hrequest
  have hposts : Posts p.1 .pe q.1 m := ⟨rfl,hp,hq,by rw [if_pos hstate]; exact hm⟩
  refine ⟨p,q,m,hr,hs,hposts,(posted_conforms_iff hr hs hposts).2.mpr fun hnone => ?_⟩
  rw [hnone] at hfirst
  cases hfirst

/-- A Soft_Reset comes before any capabilities. -/
def softResetFirst : List Label :=
  List.flatten [powerUp,StalePointers.softResetReceived,[.pe,.pe,.pe]]

/-- Its Accept is posted under revision 1.0. -/
theorem exists_posted_revision10 : ¬∀ p q l m, remembering.Reach anyStep p →
    remembering.step l p=some q → Posts p.1 l q.1 m → Conforms p.2 m.msg := by
  intro hall
  obtain ⟨p,q,hr,hs,ht⟩ := exists_step_of_follow remembering anyStep softResetFirst .pe
    (fun p q => decide (p.1.pe.point=.start ∧ p.1.pe.state=.sinkSoftReset ∧ q.1.pe.point=.signalTx ∧
      q.1.pe.sending.map (fun m => m.msg.hdr &&& pdHdrSpecrev)=some pdSpecrev10)) (by decide +kernel)
  obtain ⟨hp,hstate,hq,hsending⟩ := of_decide_eq_true ht
  obtain ⟨m,hm,hrev⟩ := Option.map_eq_some_iff.mp hsending
  have hposts : Posts p.1 .pe q.1 m :=
    ⟨rfl,hp,hq,by rw [if_neg (by rw [hstate]; decide)]; exact hm⟩
  rcases (hall p q .pe m hr hs hposts).specrev with h20 | h30
  · exact absurd (hrev.symm.trans h20) (by decide)
  · exact absurd (hrev.symm.trans h30) (by decide)

end UsbPdFirmware.HeaderTemplate
