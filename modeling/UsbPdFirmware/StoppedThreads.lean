import UsbPdFirmware.BlockCustody
import UsbPdFirmware.Negotiation
import UsbPdFirmware.Potentials
import UsbPdFirmware.TransmitHandoff

/-!
# What stops a thread

An action has no behaviour where it would write through a null pointer, and at
points that a thread never reaches. In every run the pointers are there where
they are written through, except the one to a block that could not be
allocated.
-/

namespace UsbPdFirmware.StoppedThreads

open PdMessage DevicePolicy LabelledRuns Machine EventThreads FirmwareState FirmwareSystem Potentials
open PolicyEngine ProtocolRx ProtocolTx PolicyEngineMoves BlockCustody NegotiationMoves Negotiation

/-- Where there is a block, it is allocated. -/
theorem exists_alloc {sh : Shared} (h : sh.pool≠[]) : ∃ r, sh.alloc=some r := by
  obtain ⟨block,rest,hb⟩ := List.exists_cons_of_ne_nil h
  exact ⟨_,Shared.alloc_eq_some.mpr ⟨rest,hb,rfl⟩⟩

/-! ## Protocol RX -/

section Receive

variable {rx : ProtocolRx} {pending : Event → Bool} {sh : Shared} {o : Outcome Event ProtocolRx Shared}

/-- The thread has the message it works on. -/
def Carries (rx : ProtocolRx) : Prop := rx.point ∈ rxHolding → rx.message≠none

theorem Carries.step (h : Carries rx) (hs : RxStep rx pending sh o) : Carries o.loc := by
  have hwait : ProtocolRxPoint.waitPhy ∉ rxHolding := by decide
  have hread : ProtocolRxPoint.readPhy ∉ rxHolding := by decide
  have hsignal : ProtocolRxPoint.storeSignalPe ∉ rxHolding := by decide
  cases hs with
  | heedReset hp => exact fun hin => absurd hin hwait
  | heedGcrcsent hp => exact fun hin => absurd hin hread
  | read hp hb => exact fun _ => Option.some_ne_none _
  | pollOn hp hr => exact fun _ => h (by rcases hp with hp | hp <;> rw [hp] <;> decide)
  | pollReset hp hr => exact fun _ => h (by rcases hp with hp | hp <;> rw [hp] <;> decide)
  | drop hp => exact fun hin => absurd hin hwait
  | post hp hm => exact fun hin => absurd hin hsignal
  | storeSignalPe hp => exact fun hin => absurd hin hwait
  | _ hp => exact fun _ => h (by rw [hp]; decide)

/-- It can be stopped where it allocates, or posts no message. -/
theorem protocolRx_undefined (h : Undefined sh (protocolRx rx)) :
    rx.point=.readPhy ∧ sh.pool=[] ∨ rx.point=.storePost ∧ rx.message=none := by
  unfold protocolRx at h
  cases hp : rx.point <;> rw [hp] at h
  case readPhy =>
    refine .inl ⟨rfl,?_⟩
    by_contra hne
    obtain ⟨r,ha⟩ := exists_alloc hne
    simp [protocolRxReadPhy,Undefined,ha] at h
  case storePost =>
    refine .inr ⟨rfl,?_⟩
    cases hm : rx.message with
    | none => rfl
    | some m => simp [protocolRxStorePost,Undefined,hm] at h
  all_goals cases h

end Receive

/-! ## Protocol TX -/

section Transmit

variable {tx : ProtocolTx} {pending : Event → Bool} {sh : Shared} {o : Outcome Event ProtocolTx Shared}

/-- The points of Protocol TX between a fetch and the first write to the
message. -/
def txFetched : List ProtocolTxPoint := [.resetCounter,.resetSignalRx,.constructPoll,.constructHeader]

/-- The thread has the message it fetched. -/
def Fetched (tx : ProtocolTx) : Prop := tx.point ∈ txFetched → tx.message≠none

theorem Fetched.step (h : Fetched tx) (hs : TxStep tx pending sh o)
    (hmail : tx.point=.fetchMessage → sh.txMailbox≠[]) : Fetched o.loc := by
  cases hs with
  | fetch hp =>
    obtain ⟨m,rest,hq⟩ := List.exists_cons_of_ne_nil (hmail hp)
    intro _
    simp [hq]
  | resetCounter hp => exact fun _ => h (by rw [hp]; decide)
  | resetSignalRx hp => exact fun _ => h (by rw [hp]; decide)
  | constructOn hp hr hd => exact fun _ => h (by rw [hp]; decide)
  | constructHeader hp hm => exact fun _ => Option.some_ne_none _
  | constructAms hp =>
    intro hin
    dsimp only [ProtocolTx.at_] at hin
    split at hin <;> simp [txFetched] at hin
  | constructSinkTxOk hp =>
    intro hin
    dsimp only at hin
    split at hin
    · simp [txFetched] at hin
    · rw [hp] at hin
      simp [txFetched] at hin
  | matchCompare hp =>
    intro hin
    dsimp only at hin
    split at hin <;> simp [txFetched] at hin
  | _ => exact fun hin => absurd hin (by simp [txFetched])

/-- It can be stopped where it writes to no message. -/
theorem protocolTx_undefined (h : Undefined sh (protocolTx tx)) :
    tx.point=.constructHeader ∧ tx.message=none := by
  unfold protocolTx at h
  cases hp : tx.point <;> rw [hp] at h
  case constructHeader =>
    refine ⟨rfl,?_⟩
    cases hm : tx.message with
    | none => rfl
    | some m => simp [protocolTxConstructHeader,Undefined,hm] at h
  case phyResetReport =>
    unfold protocolTxPhyResetReport at h
    cases hm : tx.message <;> rw [hm] at h <;> cases h
  all_goals cases h

end Transmit

/-! ## The Policy Engine -/

section Engine

variable {pe pe' : PolicyEngine} {sh sh' : Shared} {m : MsgPtr}

/-- The states that handle messages. -/
def receivingStates : List PolicyEngineState :=
  [.sinkWaitCap,.sinkSelectCap,.sinkTransitionSink,.sinkReady,.sinkSendSoftReset]

/-- Where the thread transmits, receives or handles a message, its state does
so, and there is a message to handle. -/
def Placed (pe : PolicyEngine) : Prop :=
  match pe.point with
  | .signalTx => pe.state ∈ sendingStates
  | .waitTx => pe.state ∈ sendingStates
  | .sent _ => pe.state ∈ sendingStates
  | .waitResponse => pe.state ∈ receivingStates
  | .fetch => pe.state ∈ receivingStates
  | .handle => pe.state ∈ receivingStates ∧ pe.message≠none
  | _ => True

theorem placed_start (h : pe.point=.start) : Placed pe := by
  unfold Placed
  rw [h]
  trivial

theorem placed_sent {result : TxResult} (h : Placed pe) (hp : pe.point=.sent result) :
    pe.state ∈ sendingStates := by
  unfold Placed at h
  rw [hp] at h
  exact h

theorem placed_handle (h : Placed pe) (hp : pe.point=.handle) : pe.state ∈ receivingStates := by
  unfold Placed at h
  rw [hp] at h
  exact h.1

/-- A message was handled, and a state function follows. -/
def Starts (r : PeResult) : Prop := ∃ sh pe, r=some (sh,pe) ∧ pe.point=.start

variable {r : PeResult}

theorem finish_starts {state : PolicyEngineState} (h : finish pe m sh state=r) : Starts r :=
  ⟨_,_,h.symm,rfl⟩

theorem waitCapMessage_starts (h : peSinkWaitCapMessage pe m sh=r) : Starts r :=
  of_branches h (fun h => ⟨_,_,h.symm,rfl⟩) fun h =>
    of_branches h finish_starts fun h => ⟨_,_,h.symm,rfl⟩

theorem selectCapMessage_starts (h : peSinkSelectCapMessage pe m sh=r) : Starts r :=
  of_branches h finish_starts fun h => of_branches h finish_starts fun h =>
    of_branches h (fun h => of_branches h finish_starts finish_starts) finish_starts

theorem transitionSinkMessage_starts (h : peSinkTransitionSinkMessage pe m sh=r) : Starts r :=
  of_branches h finish_starts finish_starts

theorem sendSoftResetMessage_starts (h : peSinkSendSoftResetMessage pe m sh=r) : Starts r :=
  of_branches h finish_starts fun h => of_branches h finish_starts finish_starts

theorem readyMessage_starts (h : peSinkReadyMessage pe m sh=r) : Starts r := by
  unfold peSinkReadyMessage at h
  iterate 8 refine of_branches h finish_starts fun h => ?_
  refine of_branches h (fun h => of_branches h finish_starts finish_starts) fun h => ?_
  refine of_branches h (fun h => ⟨_,_,h.symm,rfl⟩) fun h => ?_
  iterate 2 refine of_branches h finish_starts fun h => ?_
  refine of_branches h (fun h => ?_) finish_starts
  exact of_branches h finish_starts fun h => of_branches h finish_starts finish_starts

/-- The states that handle messages handle every message. -/
theorem handleMessage_starts (h : pe.state ∈ receivingStates) : Starts (handleMessage pe m sh) := by
  unfold handleMessage
  simp only [receivingStates,List.mem_cons,List.not_mem_nil,or_false] at h
  rcases h with h | h | h | h | h <;> rw [h]
  · exact waitCapMessage_starts rfl
  · exact selectCapMessage_starts rfl
  · exact transitionSinkMessage_starts rfl
  · exact readyMessage_starts rfl
  · exact sendSoftResetMessage_starts rfl

/-- No other state handles one. -/
theorem handleMessage_start (h : handleMessage pe m sh=some (sh',pe')) : pe'.point=.start := by
  have hs : pe.state ∈ receivingStates := by
    unfold handleMessage at h
    cases hs : pe.state <;> rw [hs] at h <;> first | decide | cases h
  obtain ⟨sh₁,pe₁,he,hp⟩ : Starts (handleMessage pe m sh) := handleMessage_starts hs
  rw [h] at he
  cases he
  exact hp

theorem sendNew_placed {build : Shared → PdMsg → PdMsg} (h : pe.state ∈ sendingStates) :
    (sendNew pe build).Ensures (fun pe' _ => Placed pe') sh := by
  refine Action.ensures_access fun o ho => ?_
  obtain ⟨m,pool,-,rfl⟩ := sendNew_perform ho
  exact h

theorem freeSent_placed {result : TxResult} {onFailure onDone : PolicyEngine → PolicyEngine}
    (hf : ∀ sending, Placed (onFailure {pe with sending := sending}))
    (hd : ∀ sending, Placed (onDone {pe with sending := sending})) :
    (freeSent pe result onFailure onDone).Ensures (fun pe' _ => Placed pe') sh := by
  intro sh' next he
  cases result <;> cases he
  case reset => exact trivial
  case failed => exact hf none
  case done => exact hd none

theorem afterSent_placed {result : TxResult} :
    (afterSent pe result).Ensures (fun pe' _ => Placed pe') sh := by
  unfold afterSent
  cases hs : pe.state
  case sinkSelectCap =>
    intro sh' next he
    cases result <;> cases he
    case done =>
      change pe.state ∈ receivingStates
      rw [hs]
      decide
    all_goals exact trivial
  case sinkSendSoftReset =>
    refine freeSent_placed (fun _ => trivial) fun _ => ?_
    change pe.state ∈ receivingStates
    rw [hs]
    decide
  case sinkSoftReset => exact freeSent_placed (fun _ => trivial) fun _ => trivial
  case sinkSendNotSupported => exact freeSent_placed (fun _ => trivial) fun _ => trivial
  case sinkGetSourceCap => exact freeSent_placed (fun _ => trivial) fun _ => trivial
  case sinkGiveSinkCap => exact freeSent_placed (fun _ => trivial) fun _ => trivial
  all_goals exact fun _ _ he => nomatch he

/-- What a wait for messages leads to is right for a state that handles them. -/
theorem placed_fetch {state : PolicyEngineState} (hs : pe.state=state) (h : state ∈ receivingStates) :
    Placed (PolicyEngine.at_ pe .fetch) := by
  change pe.state ∈ receivingStates
  rw [hs]
  exact h

theorem stateFunction_placed : (stateFunction pe).Ensures (fun pe' _ => Placed pe') sh := by
  unfold stateFunction
  cases hs : pe.state
  case sinkStartup => exact fun _ _ he => by cases he; trivial
  case sinkDiscovery => exact fun _ _ he => by cases he; trivial
  case sinkNotSupportedReceived => exact fun _ _ he => by cases he; trivial
  case sinkTransitionDefault => exact fun _ _ he => by cases he; trivial
  case sinkSourceUnresponsive => exact fun _ _ he => by cases he; trivial
  case sinkWaitCap =>
    intro evt
    dsimp only
    split_ifs <;> first | trivial | exact placed_fetch hs (by decide)
  case sinkTransitionSink =>
    intro evt
    dsimp only
    split_ifs <;> first | trivial | exact placed_fetch hs (by decide)
  case sinkReady =>
    intro evt
    dsimp only
    split_ifs <;> first | trivial | exact placed_fetch hs (by decide)
  case sinkChunkReceived =>
    intro evt
    dsimp only
    split_ifs <;> trivial
  case sinkEvalCap =>
    refine Action.ensures_access fun o ho => ?_
    obtain ⟨request,ppsIndex,lastPps,pool,-,rfl⟩ := peSinkEvalCap_perform ho
    trivial
  case sinkSelectCap =>
    refine Action.ensures_access fun o ho => ?_
    obtain ⟨m,-,rfl⟩ := peSinkSelectCap_perform ho
    change pe.state ∈ sendingStates
    rw [hs]
    decide
  case sinkHardReset =>
    dsimp only [peSinkHardReset]
    split
    · exact fun _ _ he => by cases he; trivial
    · trivial
  all_goals exact sendNew_placed (by rw [hs]; decide)

/-- Every action keeps the thread where its state function is. -/
theorem Placed.policyEngine (h : Placed pe) :
    (policyEngine pe).Ensures (fun pe' _ => Placed pe') sh := by
  unfold PolicyEngine.policyEngine
  unfold Placed at h
  cases hp : pe.point <;> rw [hp] at h
  case start => exact stateFunction_placed
  case dropMessage => exact fun _ _ he => by cases he; trivial
  case startAms next => trivial
  case signalTx => exact h
  case waitTx => exact fun _ => h
  case sent result => exact afterSent_placed
  case waitResponse =>
    intro evt
    dsimp only
    split_ifs
    · trivial
    · trivial
    · exact h
  case fetch =>
    refine Action.ensures_access fun o ho => ?_
    rcases fetchMessage_perform ho with ⟨-,rfl⟩ | ⟨m,rest,-,rfl⟩
    · trivial
    · exact ⟨h,Option.some_ne_none _⟩
  case handle =>
    cases hm : pe.message with
    | none => exact fun _ _ he => nomatch he
    | some m => exact fun _ _ he => placed_start (handleMessage_start he)
  case waitHardSent => exact fun _ => trivial
  case signalDone => trivial

/-- The states that begin with an allocation. -/
def allocatingStates : List PolicyEngineState :=
  [.sinkGetSourceCap,.sinkGiveSinkCap,.sinkSoftReset,.sinkSendSoftReset,.sinkSendNotSupported]

/-- The next action allocates a block. -/
def Allocates (pe : PolicyEngine) : Prop :=
  pe.point=.start ∧ (pe.state ∈ allocatingStates ∨ pe.state=.sinkEvalCap ∧ pe.lastDpmRequest=none)

theorem sendNew_undefined {build : Shared → PdMsg → PdMsg} (h : Undefined sh (sendNew pe build)) :
    sh.pool=[] := by
  by_contra hne
  obtain ⟨r,ha⟩ := exists_alloc hne
  simp [sendNew,Undefined,ha] at h

theorem evalCap_undefined (h : Undefined sh (peSinkEvalCap pe)) :
    pe.lastDpmRequest=none ∧ sh.pool=[] := by
  have hnone : prepareRequest (noteCapabilities pe) sh=none := Option.map_eq_none_iff.mp h
  obtain ⟨ppsIndex,lastPps,hn⟩ := noteCapabilities_eq pe
  rw [hn] at hnone
  unfold prepareRequest at hnone
  cases hr : pe.lastDpmRequest with
  | some r => simp [hr] at hnone
  | none =>
    refine ⟨rfl,?_⟩
    by_contra hne
    obtain ⟨r,ha⟩ := exists_alloc hne
    simp [hr,ha] at hnone

/-- It can be stopped where it allocates, or makes a Request there is none of. -/
theorem policyEngine_undefined (hplaced : Placed pe) (h : Undefined sh (policyEngine pe)) :
    Allocates pe ∧ sh.pool=[] ∨
      pe.point=.start ∧ pe.state=.sinkSelectCap ∧ pe.lastDpmRequest=none := by
  unfold PolicyEngine.policyEngine at h
  cases hp : pe.point <;> rw [hp] at h
  case start =>
    have hsend {build : Shared → PdMsg → PdMsg} (hs : pe.state ∈ allocatingStates)
        (h : Undefined sh (sendNew pe build)) : Allocates pe ∧ sh.pool=[] :=
      ⟨⟨hp,.inl hs⟩,sendNew_undefined h⟩
    unfold stateFunction at h
    cases hs : pe.state <;> rw [hs] at h
    case sinkEvalCap =>
      obtain ⟨hr,hpool⟩ := evalCap_undefined h
      exact .inl ⟨⟨hp,.inr ⟨hs,hr⟩⟩,hpool⟩
    case sinkSelectCap => exact .inr ⟨rfl,rfl,Option.map_eq_none_iff.mp h⟩
    case sinkGetSourceCap => exact .inl (hsend (by rw [hs]; decide) h)
    case sinkGiveSinkCap => exact .inl (hsend (by rw [hs]; decide) h)
    case sinkSoftReset => exact .inl (hsend (by rw [hs]; decide) h)
    case sinkSendSoftReset => exact .inl (hsend (by rw [hs]; decide) h)
    case sinkSendNotSupported => exact .inl (hsend (by rw [hs]; decide) h)
    case sinkHardReset =>
      dsimp only [peSinkHardReset] at h
      split at h <;> cases h
    all_goals cases h
  case sent result =>
    have hs := placed_sent hplaced hp
    simp only [sendingStates,List.mem_cons,List.not_mem_nil,or_false] at hs
    unfold afterSent at h
    rcases hs with hs | hs | hs | hs | hs | hs <;> rw [hs] at h
    · cases result <;> cases h
    all_goals cases h
  case fetch =>
    dsimp only [fetchMessage,Undefined] at h
    split at h <;> cases h
  case handle =>
    have hs := placed_handle hplaced hp
    unfold Placed at hplaced
    rw [hp] at hplaced
    obtain ⟨m,hm⟩ := Option.ne_none_iff_exists'.mp hplaced.2
    rw [hm] at h
    obtain ⟨sh₁,pe₁,he,-⟩ : Starts (handleMessage pe m sh) := handleMessage_starts hs
    exact absurd (he.symm.trans h) (Option.some_ne_none _)
  all_goals cases h

end Engine

/-! ## The firmware -/

section Reachable

variable {s s' : System} {l : Label}

/-- Every thread has what its point needs. -/
structure Provided (s : System) : Prop where
  /-- Protocol RX has its message. -/
  rx : Carries s.rx
  /-- So does Protocol TX. -/
  tx : Fetched s.tx
  /-- The Policy Engine is where its state function is. -/
  pe : Placed s.pe

theorem Provided.step (h : Provided s) (hmail : s.tx.point=.fetchMessage → s.shared.txMailbox≠[])
    (hs : firmware.step l s=some s') : Provided s' := by
  cases firmware_moved hs with
  | pe hl he hp => exact ⟨h.rx,h.tx,h.pe.policyEngine.perform hp⟩
  | rx hr => exact ⟨h.rx.step hr,h.tx,h.pe⟩
  | tx ht => exact ⟨h.rx,h.tx.step ht hmail,h.pe⟩
  | hr hl hh => exact ⟨h.rx,h.tx,h.pe⟩
  | intN hi => exact ⟨h.rx,h.tx,h.pe⟩
  | env he =>
    have hf := environment_frame he
    exact ⟨by rw [hf.rx]; exact h.rx,by rw [hf.tx]; exact h.tx,by rw [hf.pe]; exact h.pe⟩

/-- So it is in every run: Protocol TX fetches only what was posted. -/
theorem provided_of_reach {allowed : System → Label → Prop} (h : firmware.Reach allowed s) :
    Provided s :=
  h.invariant ⟨fun hin => absurd hin (by decide),fun hin => absurd hin (by decide),trivial⟩
    fun _ _ _ hr hi _ hs => hi.step (TransmitHandoff.txMailbox_ne_nil hr) hs

/-- Only an allocation that fails stops a thread. -/
structure StopsForBlocks (s : System) : Prop where
  /-- Protocol RX allocates a block for what it reads. -/
  rx : Undefined s.shared (protocolRx s.rx) → s.rx.point=.readPhy ∧ s.shared.pool=[]
  /-- Protocol TX allocates nothing. -/
  tx : ¬Undefined s.shared (protocolTx s.tx)
  /-- The Policy Engine allocates a block for what it builds. -/
  pe : Undefined s.shared (policyEngine s.pe) → Allocates s.pe ∧ s.shared.pool=[]

/-- In no run is a thread stopped by anything else. -/
theorem stopsForBlocks (h : firmware.Reach anyStep s) : StopsForBlocks s := by
  have hi := provided_of_reach h
  refine ⟨fun hu => ?_,fun hu => ?_,fun hu => ?_⟩
  · rcases protocolRx_undefined hu with hread | ⟨hp,hm⟩
    · exact hread
    · exact absurd hm (hi.rx (by rw [hp]; decide))
  · obtain ⟨hp,hm⟩ := protocolTx_undefined hu
    exact hi.tx (by rw [hp]; decide) hm
  · rcases policyEngine_undefined hi.pe hu with halloc | ⟨hp,hs,hr⟩
    · exact halloc
    · -- A Request is made of an object that was built.
      obtain ⟨-,r,c,hr',-⟩ := (firmware_sound h).at_ (s := .requesting) (standing_begin hp hs)
      rw [hr] at hr'
      cases hr'

end Reachable

end UsbPdFirmware.StoppedThreads
