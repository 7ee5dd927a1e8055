import UsbPdFirmware.FirmwareSystem
import UsbPdFirmware.PolicyEngineMoves

/-!
# Extended messages

Control, data and extended messages share their type numbers. The firmware
tells control from data messages by the object count, and looks at the
Extended bit in one place only, after every other test has failed. What an
extended message is taken for depends on its type number and object count
alone.
-/

namespace UsbPdFirmware.ExtendedMessages

open PdMessage DevicePolicy LabelledRuns Machine EventThreads FirmwareState FirmwareSystem
open PolicyEngine PolicyEngineMoves ProtocolRx

/-! ## Kinds of messages -/

/-- The header has the Extended bit. -/
def Extended (m : PdMsg) : Prop := m.hdr &&& pdHdrExt≠0

instance (m : PdMsg) : Decidable (Extended m) := inferInstanceAs (Decidable (_≠_))

/-- Control and data messages on which the firmware acts. -/
inductive Kind where
  | sourceCapabilities
  | accept
  | reject
  | wait
  | psRdy
  | gotomin
  | softReset
  deriving DecidableEq

/-- The firmware's test for a kind. -/
def Kind.test (m : PdMsg) : Kind → Bool
  | .sourceCapabilities => m.isData pdMsgtypeSourceCapabilities
  | .accept => m.isControl pdMsgtypeAccept
  | .reject => m.isControl pdMsgtypeReject
  | .wait => m.isControl pdMsgtypeWait
  | .psRdy => m.isControl pdMsgtypePsRdy
  | .gotomin => m.isControl pdMsgtypeGotomin
  | .softReset => m.isControl pdMsgtypeSoftReset

/-- The kinds that each receiving state acts on. -/
def kinds : PolicyEngineState → List Kind
  | .sinkWaitCap => [.sourceCapabilities,.softReset]
  | .sinkSelectCap => [.accept,.softReset,.reject,.wait]
  | .sinkTransitionSink => [.psRdy]
  | .sinkReady => [.gotomin,.sourceCapabilities,.softReset]
  | .sinkSendSoftReset => [.accept,.softReset]
  | _ => []

/-- The states to which only a message of such a kind leads. -/
def understood : PolicyEngineState → List PolicyEngineState
  | .sinkWaitCap => [.sinkEvalCap,.sinkSoftReset]
  | .sinkSelectCap => [.sinkTransitionSink,.sinkReady,.sinkWaitCap,.sinkSoftReset]
  | .sinkTransitionSink => [.sinkReady]
  | .sinkReady => [.sinkTransitionSink,.sinkEvalCap,.sinkSoftReset]
  | .sinkSendSoftReset => [.sinkWaitCap,.sinkSoftReset]
  | _ => []

/-- A state acts on a kind, on GotoMin only if power can be given back. -/
def ActsOn (sh : Shared) (state : PolicyEngineState) (m : PdMsg) : Prop :=
  ∃ k ∈ kinds state, k.test m=true ∧ (k=.gotomin → givebackEnabled sh=true)

section Tests

variable {m : PdMsg} {t : BitVec 16}

/-- A message is a control message of one type only. -/
theorem isControl_of_isControl (h : m.isControl t=true) (u : BitVec 16) : m.isControl u=(t==u) := by
  simp only [PdMsg.isControl,Bool.and_eq_true,beq_iff_eq] at h
  simp [PdMsg.isControl,h.1,h.2]

/-- A control message is no data message. -/
theorem isData_of_isControl (h : m.isControl t=true) (u : BitVec 16) : m.isData u=false := by
  simp only [PdMsg.isControl,Bool.and_eq_true,beq_iff_eq] at h
  simp [PdMsg.isData,h.2]

/-- A message is a data message of one type only. -/
theorem isData_of_isData (h : m.isData t=true) (u : BitVec 16) : m.isData u=(t==u) := by
  simp only [PdMsg.isData,Bool.and_eq_true,beq_iff_eq,decide_eq_true_eq] at h
  simp [PdMsg.isData,h.1,h.2]

/-- A data message is no control message. -/
theorem isControl_of_isData (h : m.isData t=true) (u : BitVec 16) : m.isControl u=false := by
  have hpos := PdMsg.numobjGet_pos h
  simp only [PdMsg.isControl,Bool.and_eq_false_iff,beq_eq_false_iff_ne]
  exact .inr (by omega)

end Tests

/-! ## What a message is taken for -/

section Handling

variable {pe pe' : PolicyEngine} {sh sh' : Shared} {m : MsgPtr}

/-- The state in which a message leaves the thread. -/
theorem finish_state {pe₁ : PolicyEngine} {sh₁ : Shared} {state : PolicyEngineState}
    (h : finish pe₁ m sh₁ state=some (sh',pe')) : pe'.state=state := by
  obtain ⟨-,rfl⟩ := Prod.ext_iff.mp (Option.some.inj h)
  rfl

/-- A message in `PESinkReady` that is understood is of such a kind. -/
theorem peSinkReadyMessage_actsOn (h : peSinkReadyMessage pe m sh=some (sh',pe'))
    (hu : pe'.state ∈ understood .sinkReady) : ActsOn sh .sinkReady m.msg := by
  have hout {sh₁ : Shared} {state : PolicyEngineState} (hs : state ∉ understood .sinkReady)
      (h : finish pe m sh₁ state=some (sh',pe')) : ActsOn sh .sinkReady m.msg :=
    absurd (finish_state h ▸ hu) hs
  unfold peSinkReadyMessage at h
  -- The branches in the order of the source.
  iterate 8 refine of_branches h (hout (by decide)) fun h => ?_
  split at h
  · next hmin =>
    split at h
    · next hgive => exact ⟨.gotomin,by decide,hmin,fun _ => hgive⟩
    · exact hout (by decide) h
  split at h
  · next hcaps => exact ⟨.sourceCapabilities,by decide,hcaps,fun hk => by cases hk⟩
  refine of_branches h (hout (by decide)) fun h => ?_
  split at h
  · next hreset => exact ⟨.softReset,by decide,hreset,fun hk => by cases hk⟩
  refine of_branches h (fun h => ?_) (hout (by decide))
  iterate 2 refine of_branches h (hout (by decide)) fun h => ?_
  exact hout (by decide) h

/-- A message that is understood is of a kind the state acts on. -/
theorem handleMessage_actsOn (h : handleMessage pe m sh=some (sh',pe'))
    (hu : pe'.state ∈ understood pe.state) : ActsOn sh pe.state m.msg := by
  unfold handleMessage at h
  cases hs : pe.state <;> rw [hs] at h hu <;> dsimp only at h
  case sinkReady => exact peSinkReadyMessage_actsOn h hu
  case sinkWaitCap =>
    unfold peSinkWaitCapMessage at h
    split_ifs at h with hcaps hreset
    · exact ⟨.sourceCapabilities,by decide,hcaps,fun hk => by cases hk⟩
    · exact ⟨.softReset,by decide,hreset,fun hk => by cases hk⟩
    · obtain ⟨-,rfl⟩ := Prod.ext_iff.mp (Option.some.inj h)
      have hstate : PolicyEngineState.sinkHardReset ∈ understood .sinkWaitCap := hu
      exact absurd hstate (by decide)
  case sinkSelectCap =>
    unfold peSinkSelectCapMessage at h
    dsimp only at h
    split at h
    · next haccept => exact ⟨.accept,by decide,haccept,fun hk => by cases hk⟩
    split at h
    · next hreset => exact ⟨.softReset,by decide,hreset,fun hk => by cases hk⟩
    split at h
    · next hrefused =>
      rcases Bool.or_eq_true_iff.mp hrefused with hreject | hwait
      · exact ⟨.reject,by decide,hreject,fun hk => by cases hk⟩
      · exact ⟨.wait,by decide,hwait,fun hk => by cases hk⟩
    · rw [finish_state h] at hu
      exact absurd hu (by decide)
  case sinkTransitionSink =>
    unfold peSinkTransitionSinkMessage at h
    dsimp only at h
    split at h
    · next hready => exact ⟨.psRdy,by decide,hready,fun hk => by cases hk⟩
    · rw [finish_state h] at hu
      exact absurd hu (by decide)
  case sinkSendSoftReset =>
    unfold peSinkSendSoftResetMessage at h
    split_ifs at h with haccept hreset
    · exact ⟨.accept,by decide,haccept,fun hk => by cases hk⟩
    · exact ⟨.softReset,by decide,hreset,fun hk => by cases hk⟩
    · rw [finish_state h] at hu
      exact absurd hu (by decide)
  all_goals exact absurd h (by simp)

/-- A message leads to a state that means it was understood. -/
def Understands (pe : PolicyEngine) (m : MsgPtr) (sh : Shared) : Prop :=
  ∃ sh' pe', handleMessage pe m sh=some (sh',pe') ∧ pe'.state ∈ understood pe.state

/-- Returning such a state. -/
theorem goto_understood {pe₁ : PolicyEngine} {state state' : PolicyEngineState}
    (h : state' ∈ understood state) : (goto pe₁ state').state ∈ understood state := h

/-- A kind that `PESinkReady` acts on is understood. -/
theorem peSinkReadyMessage_understands (h : ActsOn sh .sinkReady m.msg) :
    ∃ sh' pe', peSinkReadyMessage pe m sh=some (sh',pe') ∧ pe'.state ∈ understood .sinkReady := by
  obtain ⟨k,hk,htest,hgive⟩ := h
  have hmem : k=.gotomin ∨ k=.sourceCapabilities ∨ k=.softReset := by simpa [kinds] using hk
  unfold peSinkReadyMessage
  -- The tests before the right one ask for another type or object count.
  rcases hmem with rfl | rfl | rfl
  · have hmin : m.msg.isControl pdMsgtypeGotomin=true := htest
    simp only [isControl_of_isControl hmin,isData_of_isControl hmin,hgive rfl]
    exact ⟨_,_,rfl,goto_understood (by decide)⟩
  · have hcaps : m.msg.isData pdMsgtypeSourceCapabilities=true := htest
    simp only [isControl_of_isData hcaps,isData_of_isData hcaps]
    exact ⟨_,_,rfl,goto_understood (by decide)⟩
  · have hreset : m.msg.isControl pdMsgtypeSoftReset=true := htest
    simp only [isControl_of_isControl hreset,isData_of_isControl hreset]
    exact ⟨_,_,rfl,goto_understood (by decide)⟩

/-- So is one that `PESinkWaitCap` acts on. -/
theorem peSinkWaitCapMessage_understands (h : ActsOn sh .sinkWaitCap m.msg) :
    ∃ sh' pe', peSinkWaitCapMessage pe m sh=some (sh',pe') ∧ pe'.state ∈ understood .sinkWaitCap := by
  obtain ⟨k,hk,htest,-⟩ := h
  have hmem : k=.sourceCapabilities ∨ k=.softReset := by simpa [kinds] using hk
  unfold peSinkWaitCapMessage
  rcases hmem with rfl | rfl
  · have hcaps : m.msg.isData pdMsgtypeSourceCapabilities=true := htest
    rw [if_pos hcaps]
    exact ⟨_,_,rfl,goto_understood (by decide)⟩
  · have hreset : m.msg.isControl pdMsgtypeSoftReset=true := htest
    rw [isData_of_isControl hreset,if_neg Bool.false_ne_true,if_pos hreset]
    exact ⟨_,_,rfl,goto_understood (by decide)⟩

/-- A response that `PESinkSelectCap` acts on is understood. -/
theorem peSinkSelectCapMessage_understands (h : ActsOn sh .sinkSelectCap m.msg) :
    ∃ sh' pe', peSinkSelectCapMessage pe m sh=some (sh',pe') ∧
      pe'.state ∈ understood .sinkSelectCap := by
  obtain ⟨k,hk,htest,-⟩ := h
  have hmem : k=.accept ∨ k=.softReset ∨ k=.reject ∨ k=.wait := by simpa [kinds] using hk
  unfold peSinkSelectCapMessage
  dsimp only
  rcases hmem with rfl | rfl | hrefused
  · have haccept : m.msg.isControl pdMsgtypeAccept=true := htest
    rw [if_pos haccept]
    exact ⟨_,_,rfl,goto_understood (by decide)⟩
  · have hreset : m.msg.isControl pdMsgtypeSoftReset=true := htest
    rw [isControl_of_isControl hreset,if_neg (by decide),if_pos hreset]
    exact ⟨_,_,rfl,goto_understood (by decide)⟩
  · have hother : m.msg.isControl pdMsgtypeAccept=false ∧ m.msg.isControl pdMsgtypeSoftReset=false ∧
        (m.msg.isControl pdMsgtypeReject || m.msg.isControl pdMsgtypeWait)=true := by
      rcases hrefused with rfl | rfl
      · have hreject : m.msg.isControl pdMsgtypeReject=true := htest
        simp only [isControl_of_isControl hreject]
        decide
      · have hwait : m.msg.isControl pdMsgtypeWait=true := htest
        simp only [isControl_of_isControl hwait]
        decide
    obtain ⟨haccept,hreset,hrefuse⟩ := hother
    rw [haccept,hreset,hrefuse,if_neg Bool.false_ne_true,if_neg Bool.false_ne_true,if_pos rfl]
    split
    · exact ⟨_,_,rfl,goto_understood (by decide)⟩
    · exact ⟨_,_,rfl,goto_understood (by decide)⟩

/-- One that `PESinkTransitionSink` acts on. -/
theorem peSinkTransitionSinkMessage_understands (h : ActsOn sh .sinkTransitionSink m.msg) :
    ∃ sh' pe', peSinkTransitionSinkMessage pe m sh=some (sh',pe') ∧
      pe'.state ∈ understood .sinkTransitionSink := by
  obtain ⟨k,hk,htest,-⟩ := h
  have hmem : k=.psRdy := by simpa [kinds] using hk
  subst hmem
  have hready : m.msg.isControl pdMsgtypePsRdy=true := htest
  unfold peSinkTransitionSinkMessage
  rw [if_pos hready]
  exact ⟨_,_,rfl,goto_understood (by decide)⟩

/-- One that `PESinkSendSoftReset` acts on. -/
theorem peSinkSendSoftResetMessage_understands (h : ActsOn sh .sinkSendSoftReset m.msg) :
    ∃ sh' pe', peSinkSendSoftResetMessage pe m sh=some (sh',pe') ∧
      pe'.state ∈ understood .sinkSendSoftReset := by
  obtain ⟨k,hk,htest,-⟩ := h
  have hmem : k=.accept ∨ k=.softReset := by simpa [kinds] using hk
  unfold peSinkSendSoftResetMessage
  rcases hmem with rfl | rfl
  · have haccept : m.msg.isControl pdMsgtypeAccept=true := htest
    rw [if_pos haccept]
    exact ⟨_,_,rfl,goto_understood (by decide)⟩
  · have hreset : m.msg.isControl pdMsgtypeSoftReset=true := htest
    rw [isControl_of_isControl hreset,if_neg (by decide),if_pos hreset]
    exact ⟨_,_,rfl,goto_understood (by decide)⟩

/-- A state understands exactly the kinds it acts on. -/
theorem understands_iff : Understands pe m sh ↔ ActsOn sh pe.state m.msg := by
  constructor
  · rintro ⟨sh',pe',h,hu⟩
    exact handleMessage_actsOn h hu
  · intro h
    unfold Understands handleMessage
    cases hs : pe.state <;> rw [hs] at h
    case sinkReady => exact peSinkReadyMessage_understands h
    case sinkWaitCap => exact peSinkWaitCapMessage_understands h
    case sinkSelectCap => exact peSinkSelectCapMessage_understands h
    case sinkTransitionSink => exact peSinkTransitionSinkMessage_understands h
    case sinkSendSoftReset => exact peSinkSendSoftResetMessage_understands h
    all_goals
      obtain ⟨k,hk,-⟩ := h
      exact absurd hk List.not_mem_nil

end Handling

/-! ## Steps of the firmware -/

section Steps

variable (s : System)

/-- No next action takes an extended message for a control or data message. -/
structure TreatsApart : Prop where
  /-- Protocol RX does not reset the layer for it. -/
  rx : s.rx.point=.readPhy → ∀ s' m, firmware.step .rx s=some s' → s'.rx.message=some m →
    Extended m.msg → s'.rx.point≠.resetCounter
  /-- The Policy Engine does not understand it. -/
  pe : s.pe.point=.handle → ∀ s' m, firmware.step .pe s=some s' → s.pe.message=some m →
    Extended m.msg → s'.pe.state ∉ understood s.pe.state

/-- An extended message that is read or handled next has the type number and
the object count of nothing that is acted on. -/
structure LooksUnknown : Prop where
  /-- The one Protocol RX reads. -/
  rx : s.rx.point=.readPhy → s.shared.pool≠[] → Extended s.shared.fusbReadMessage.1 →
    s.shared.fusbReadMessage.1.isControl pdMsgtypeSoftReset=false
  /-- The one the Policy Engine handles. -/
  pe : s.pe.point=.handle → ∀ m, s.pe.message=some m → Extended m.msg →
    ¬ActsOn s.shared s.pe.state m.msg

variable {s}

/-- A read with a free block. -/
theorem read_step {s' : System} (hp : s.rx.point=.readPhy) (h : firmware.step .rx s=some s') :
    s.shared.pool≠[] ∧ s'.rx.message.map MsgPtr.msg=some s.shared.fusbReadMessage.1 ∧
      s'.rx.point=if s.shared.fusbReadMessage.1.isControl pdMsgtypeSoftReset then .resetCounter
        else .checkPoll := by
  obtain ⟨o,ho,rfl⟩ := exists_rxStep (firmware_moved h) rfl
  obtain ⟨block,pool,hb,rfl⟩ := ho.of_readPhy hp
  exact ⟨by rw [hb]; exact List.cons_ne_nil _ _,rfl,rfl⟩

/-- There is one whenever a block is free. -/
theorem exists_read_step (hp : s.rx.point=.readPhy) (hpool : s.shared.pool≠[]) :
    ∃ s', firmware.step .rx s=some s' := by
  obtain ⟨block,pool,hb⟩ := List.exists_cons_of_ne_nil hpool
  have halloc : s.shared.alloc=some (block,{s.shared with pool := pool}) :=
    Shared.alloc_eq_some.mpr ⟨pool,hb,rfl⟩
  have hact : protocolRx s.rx=protocolRxReadPhy := by
    unfold protocolRx
    rw [hp]
  change ∃ s', ((protocolRx s.rx).perform false s.pending s.shared).map s.withRx=some s'
  rw [hact]
  simp [protocolRxReadPhy,Action.perform,halloc]

/-- Handling a message is one step. -/
theorem handle_step {m : MsgPtr} (hp : s.pe.point=.handle) (hm : s.pe.message=some m) :
    firmware.step .pe s=(handleMessage s.pe m s.shared).map fun r =>
      {s with pe := r.2,shared := r.1} := by
  have hact : policyEngine s.pe=.access (handleMessage s.pe m) := by
    unfold policyEngine
    rw [hp,hm]
  change ((policyEngine s.pe).perform false s.pending s.shared).map s.withPe=_
  rw [hact]
  change ((handleMessage s.pe m s.shared).map _).map s.withPe=_
  rw [Option.map_map]
  rfl

end Steps

/-- Extended messages are treated apart exactly when their type numbers and
object counts are those of nothing that is acted on. -/
theorem treats_apart_iff (s : System) : TreatsApart s ↔ LooksUnknown s := by
  constructor
  · intro h
    refine ⟨fun hp hpool hext => ?_,fun hp m hm hext hacts => ?_⟩
    · obtain ⟨s',hs⟩ := exists_read_step hp hpool
      obtain ⟨-,hmessage,hpoint⟩ := read_step hp hs
      obtain ⟨m,hm,hread⟩ := Option.map_eq_some_iff.mp hmessage
      have hne := h.rx hp s' m hs hm (hread ▸ hext)
      rw [hpoint] at hne
      by_contra htest
      rw [Bool.not_eq_false] at htest
      exact hne (if_pos htest)
    · obtain ⟨sh',pe',hh,hu⟩ := understands_iff.mpr hacts
      have hstep := handle_step hp hm
      rw [hh] at hstep
      exact h.pe hp _ m hstep hm hext hu
  · intro h
    refine ⟨fun hp s' m hs hm hext => ?_,fun hp s' m hs hm hext hu => ?_⟩
    · obtain ⟨hpool,hmessage,hpoint⟩ := read_step hp hs
      rw [hm] at hmessage
      have hread : m.msg=s.shared.fusbReadMessage.1 := Option.some.inj hmessage
      rw [hpoint,h.rx hp hpool (hread ▸ hext)]
      decide
    · rw [handle_step hp hm] at hs
      obtain ⟨r,hr,rfl⟩ := Option.map_eq_some_iff.mp hs
      exact h.pe hp m hm hext (understands_iff.mp ⟨r.1,r.2,hr,hu⟩)

/-- An extended message with the type number of Source_Capabilities. -/
def sourceCapabilitiesExtended (id : ℕ) : PdMsg :=
  PdMsg.setMessageid ⟨pdHdrExt ||| pdSpecrev30 ||| pdMsgtypeSourceCapabilities ||| pdNumobj 7,
    fun _ => 0⟩ id

/-- It is the first message, and evaluated. -/
theorem exists_extended_evaluated : ¬∀ s, firmware.Reach anyStep s → TreatsApart s := by
  intro h
  obtain ⟨s,s',hr,hs,ht⟩ := exists_step_of_follow firmware anyStep
    (List.flatten [powerUp,deliver (sourceCapabilitiesExtended 0),[.pe,.pe]]) .pe
    (fun s s' => decide (s.pe.point=.handle ∧ s.pe.state=.sinkWaitCap ∧ s'.pe.state=.sinkEvalCap) &&
      s.pe.message.any fun m => decide (Extended m.msg)) (by decide +kernel)
  rw [Bool.and_eq_true] at ht
  obtain ⟨hp,hstate,hnext⟩ := of_decide_eq_true ht.1
  cases hm : s.pe.message with
  | none =>
    rw [hm] at ht
    exact absurd ht.2 (by decide)
  | some m =>
    rw [hm] at ht
    refine (h s hr).pe hp s' m hs hm (of_decide_eq_true ht.2) ?_
    rw [hstate,hnext]
    decide

end UsbPdFirmware.ExtendedMessages
