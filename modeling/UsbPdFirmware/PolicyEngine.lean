import UsbPdFirmware.FirmwareState

/-!
# The Policy Engine thread

Every state function of `policy_engine.c`, cut at its kernel calls and shared
accesses. The sequence of posting a message, signalling Protocol TX and
waiting for the result, which six state functions repeat, and the wait for a
response, which two repeat, are written once. `policyEngine` gives the next
action of the thread.
-/

namespace UsbPdFirmware.PolicyEngine

open PdMessage DevicePolicy EventThreads FirmwareState

/-- Next action of the thread, over its own locals. -/
abbrev PeAction := Action Event PolicyEngine Shared

/-- Result of an access: shared memory and locals, or no defined behaviour. -/
abbrev PeResult := Option (Shared × PolicyEngine)

/-- Return a next state: the thread will start its state function. -/
def goto (pe : PolicyEngine) (state : PolicyEngineState) : PolicyEngine :=
  {pe with state := state,point := .start}

/-- Continue inside the present state function. -/
def at_ (pe : PolicyEngine) (point : PolicyEnginePoint) : PolicyEngine := {pe with point := point}

/-- Free the received message, clear the pointer, and return a next state. -/
def finish (pe : PolicyEngine) (m : MsgPtr) (sh : Shared) (state : PolicyEngineState) : PeResult :=
  some (sh.free m,goto {pe with message := none} state)

/-! ## Transmitting and receiving -/

/-- Post a message to Protocol TX. -/
def postTx (sh : Shared) (m : MsgPtr) : Shared :=
  {sh with txMailbox := post pdbMsgPoolSize m sh.txMailbox}

/-- Allocate a block, build a message in it and post it. A failed allocation
would be written through a null pointer. -/
def sendNew (pe : PolicyEngine) (build : Shared → PdMsg → PdMsg) : PeAction :=
  .access fun sh => match sh.alloc with
    | none => none
    | some (block,sh) =>
      let m : MsgPtr := ⟨block,build sh sh.junk⟩
      some (postTx sh m,at_ {pe with sending := some m} .signalTx)

/-- A control message: only its header is written. -/
def controlMsg (msgtype : BitVec 16) (sh : Shared) (m : PdMsg) : PdMsg :=
  {m with hdr := sh.hdrTemplate ||| msgtype ||| pdNumobj 0}

/-- How a wait for `TX_DONE | TX_ERR | RESET` is read. -/
def txResult (evt : List Event) : TxResult :=
  if .peReset ∈ evt then .reset else if .peTxDone ∉ evt then .failed else .done

/-- Free the transmitted message and go on by the result. -/
def freeSent (pe : PolicyEngine) (result : TxResult) (onFailure onDone : PolicyEngine → PolicyEngine) :
    PeAction :=
  .access fun sh =>
    let pe' := {pe with sending := none}
    some (sh.free? pe.sending,match result with
      | .reset => goto pe' .sinkTransitionDefault
      | .failed => onFailure pe'
      | .done => onDone pe')

/-- Where an empty mailbox leads after `PDB_EVT_PE_MSG_RX` was taken. -/
def emptyFetch (state : PolicyEngineState) : PolicyEngineState :=
  if state=.sinkReady then .sinkReady else .sinkHardReset

/-- Fetch the oldest received message. -/
def fetchMessage (pe : PolicyEngine) : PeAction :=
  .access fun sh => match sh.peMailbox with
    | [] => some (sh,goto pe (emptyFetch pe.state))
    | m::rest => some ({sh with peMailbox := rest},at_ {pe with message := some m} .handle)

/-- Wait for a response to a transmitted message. -/
def awaitResponse (pe : PolicyEngine) : PeAction :=
  .wait [.peMsgRx,.peReset] true fun evt =>
    if .peReset ∈ evt then goto pe .sinkTransitionDefault
    else if evt=[] then goto pe .sinkHardReset
    else at_ pe .fetch

/-! ## State functions -/

def peSinkStartup (pe : PolicyEngine) : PeAction :=
  .compute (goto {pe with explicitContract := false} .sinkDiscovery)

def peSinkDiscovery (pe : PolicyEngine) : PeAction := .compute (goto pe .sinkWaitCap)

def peSinkWaitCap (pe : PolicyEngine) : PeAction :=
  .wait [.peMsgRx,.peOvrTemp,.peReset] true fun evt =>
    if evt=[] then goto pe .sinkHardReset
    else if .peReset ∈ evt then goto pe .sinkTransitionDefault
    else if .peOvrTemp ∈ evt then goto pe .sinkWaitCap
    else if .peMsgRx ∈ evt then at_ pe .fetch
    else goto pe .sinkHardReset

/-- Fix the specification revision on the first Source_Capabilities. -/
def chooseSpecrev (template hdr : BitVec 16) : BitVec 16 :=
  if template &&& pdHdrSpecrev=pdSpecrev10 then
    if pdSpecrev30 ≤ hdr &&& pdHdrSpecrev then template ||| pdSpecrev30 else template ||| pdSpecrev20
  else template

/-- A message read in `PESinkWaitCap`. An unexpected one is freed, but the
pointer to it is kept. -/
def peSinkWaitCapMessage (pe : PolicyEngine) (m : MsgPtr) (sh : Shared) : PeResult :=
  if m.msg.isData pdMsgtypeSourceCapabilities then
    some ({sh with hdrTemplate := chooseSpecrev sh.hdrTemplate m.msg.hdr},goto pe .sinkEvalCap)
  else if m.msg.isControl pdMsgtypeSoftReset then finish pe m sh .sinkSoftReset
  else some (sh.free m,goto pe .sinkHardReset)

/-- Position of the first programmable supply, eight when there is none. -/
def firstPps (caps : PdMsg) : ℕ :=
  match (List.range caps.numobjGet).find? fun i => isPps (caps.object i) with
  | some i => i+1
  | none => 8

/-- New capabilities reset both positions; they are read before the request
object is looked at. -/
def noteCapabilities (pe : PolicyEngine) : PolicyEngine :=
  match pe.message with
  | some caps => {pe with ppsIndex := firstPps caps.msg,lastPps := 8}
  | none => pe

/-- Allocate the request object if there is none; otherwise remember its
position if it asked for a programmable supply. -/
def prepareRequest (pe : PolicyEngine) (sh : Shared) : Option (MsgPtr × PolicyEngine × Shared) :=
  match pe.lastDpmRequest with
  | none => (sh.alloc).map fun (block,sh) => (⟨block,sh.junk⟩,pe,sh)
  | some r =>
    let position := pdRdoObjposGet r.msg
    some (r,{pe with lastPps := if pe.ppsIndex ≤ position then position else 8},sh)

/-- Store new capabilities in place of the old ones, bring the profile back
into its range, build the Request. Returned last: whether there is a match. -/
def pdbsDpmEvaluateCapability (caps : Option MsgPtr) (request : MsgPtr) (sh : Shared) :
    (MsgPtr × Shared) × Bool :=
  let sh := match caps with
    | some c => {sh.free? sh.dpm.capabilities with dpm := {sh.dpm with capabilities := some c}}
    | none => sh
  let sh := {sh with profile := if sh.profile ≤ 3 then sh.profile else 0}
  let stored := sh.deref sh.dpm.capabilities
  let e := evaluateStored sh.hdrTemplate sh.config sh.profile sh.dpm stored request.msg
  (({request with msg := e.request},{sh with dpm := sh.dpm.record stored e}),e.returned)

/-- The Policy Engine does not look at the returned value. -/
def evaluateCapability (caps : Option MsgPtr) (request : MsgPtr) (sh : Shared) : MsgPtr × Shared :=
  (pdbsDpmEvaluateCapability caps request sh).1

def peSinkEvalCap (pe : PolicyEngine) : PeAction :=
  .access fun sh => (prepareRequest (noteCapabilities pe) sh).map fun (request,pe,sh) =>
    let (request,sh) := evaluateCapability pe.message request sh
    (sh,goto {pe with lastDpmRequest := some request,message := none} .sinkSelectCap)

def peSinkSelectCap (pe : PolicyEngine) : PeAction :=
  .access fun sh => pe.lastDpmRequest.map fun request => (postTx sh request,at_ pe .signalTx)

/-- The Request is kept after its transmission. Under PD 3.0 the periodic
timer runs while a programmable supply is requested. -/
def peSinkSelectCapSent (pe : PolicyEngine) (result : TxResult) : PeAction :=
  .access fun sh => match result with
    | .reset => some (sh,goto pe .sinkTransitionDefault)
    | .failed => some (sh,goto pe .sinkHardReset)
    | .done =>
      let position := pdRdoObjposGet (sh.deref pe.lastDpmRequest)
      let timer := if sh.hdrTemplate &&& pdHdrSpecrev=pdSpecrev30 then decide (pe.ppsIndex ≤ position)
        else sh.ppsTimer
      some ({sh with ppsTimer := timer},at_ pe .waitResponse)

/-- The response to a Request. -/
def peSinkSelectCapMessage (pe : PolicyEngine) (m : MsgPtr) (sh : Shared) : PeResult :=
  if m.msg.isControl pdMsgtypeAccept then
    let sh := if pdRdoObjposGet (sh.deref pe.lastDpmRequest)≠pe.lastPps then
      {sh with dpm := pdbsDpmTransitionStandby sh.dpm} else sh
    finish {pe with minPower := false} m sh .sinkTransitionSink
  else if m.msg.isControl pdMsgtypeSoftReset then finish pe m sh .sinkSoftReset
  else if m.msg.isControl pdMsgtypeReject || m.msg.isControl pdMsgtypeWait then
    if pe.explicitContract then
      finish {pe with minPower := m.msg.msgtypeGet==pdMsgtypeWait} m sh .sinkReady
    else finish pe m sh .sinkWaitCap
  else finish pe m sh .sinkSendSoftReset

def peSinkTransitionSink (pe : PolicyEngine) : PeAction :=
  .wait [.peMsgRx,.peReset] true fun evt =>
    if .peReset ∈ evt then goto pe .sinkTransitionDefault
    else if evt=[] then goto pe .sinkHardReset
    else at_ pe .fetch

/-- PS_RDY concludes an explicit contract; anything else turns the output
off and leads to a hard reset. -/
def peSinkTransitionSinkMessage (pe : PolicyEngine) (m : MsgPtr) (sh : Shared) : PeResult :=
  if m.msg.isControl pdMsgtypePsRdy then
    let sh := if pe.minPower then sh else {sh with dpm := pdbsDpmTransitionRequested sh.dpm}
    finish {pe with explicitContract := true} m sh .sinkReady
  else finish pe m {sh with dpm := pdbsDpmTransitionDefault sh.dpm} .sinkHardReset

/-- One event is acted on, in this order; the others taken with it are gone.
No event at all means that SinkRequestTimer ran out. -/
def peSinkReady (pe : PolicyEngine) : PeAction :=
  .wait [.peMsgRx,.peReset,.peOvrTemp,.peGetSourceCap,.peNewPower,.pePpsRequest] pe.minPower fun evt =>
    if .peReset ∈ evt then goto pe .sinkTransitionDefault
    else if .peOvrTemp ∈ evt then goto pe .sinkHardReset
    else if .peGetSourceCap ∈ evt then at_ pe (.startAms ⟨.sinkGetSourceCap,by decide⟩)
    else if .peNewPower ∈ evt then at_ pe .dropMessage
    else if .pePpsRequest ∈ evt then at_ pe (.startAms ⟨.sinkSelectCap,by decide⟩)
    else if evt=[] then goto pe .sinkSelectCap
    else if .peMsgRx ∈ evt then at_ pe .fetch
    else goto pe .sinkReady

/-- `pdbs_dpm_giveback_enabled`, read from whatever the configuration pointer
leads to. -/
def givebackEnabled (sh : Shared) : Bool := (sh.config.getD sh.junkConfig).giveback

/-- A message read in `PESinkReady`. -/
def peSinkReadyMessage (pe : PolicyEngine) (m : MsgPtr) (sh : Shared) : PeResult :=
  if m.msg.isData pdMsgtypeVendorDefined then finish pe m sh .sinkReady
  else if m.msg.isControl pdMsgtypePing then finish pe m sh .sinkReady
  else if m.msg.isControl pdMsgtypeDrSwap then finish pe m sh .sinkSendNotSupported
  else if m.msg.isControl pdMsgtypeGetSourceCap then finish pe m sh .sinkSendNotSupported
  else if m.msg.isControl pdMsgtypePrSwap then finish pe m sh .sinkSendNotSupported
  else if m.msg.isControl pdMsgtypeVconnSwap then finish pe m sh .sinkSendNotSupported
  else if m.msg.isData pdMsgtypeRequest then finish pe m sh .sinkSendNotSupported
  else if m.msg.isData pdMsgtypeSinkCapabilities then finish pe m sh .sinkSendNotSupported
  else if m.msg.isControl pdMsgtypeGotomin then
    if givebackEnabled sh then
      finish {pe with minPower := true} m {sh with dpm := pdbsDpmTransitionMin sh.dpm} .sinkTransitionSink
    else finish pe m sh .sinkSendNotSupported
  else if m.msg.isData pdMsgtypeSourceCapabilities then some (sh,goto pe .sinkEvalCap)
  else if m.msg.isControl pdMsgtypeGetSinkCap then finish pe m sh .sinkGiveSinkCap
  else if m.msg.isControl pdMsgtypeSoftReset then finish pe m sh .sinkSoftReset
  else if sh.hdrTemplate &&& pdHdrSpecrev=pdSpecrev30 then
    if m.msg.hdr &&& pdHdrExt≠0 ∧ pdMaxExtMsgLegacyLen < m.msg.dataSizeGet then
      finish pe m sh .sinkChunkReceived
    else if m.msg.isControl pdMsgtypeNotSupported then finish pe m sh .sinkNotSupportedReceived
    else finish pe m sh .sinkSendSoftReset
  else finish pe m sh .sinkSendSoftReset

/-- Make sure the stored capabilities will be evaluated, not a message. -/
def peSinkReadyNewPower (pe : PolicyEngine) : PeAction :=
  .access fun sh => some (sh.free? pe.message,
    at_ {pe with message := none} (.startAms ⟨.sinkEvalCap,by decide⟩))

def peSinkGetSourceCap (pe : PolicyEngine) : PeAction :=
  sendNew pe (controlMsg pdMsgtypeGetSourceCap)

/-- Ask the Device Policy Manager for the sink's capabilities. It reads the
revision through the pointer to the received message. -/
def peSinkGiveSinkCap (pe : PolicyEngine) : PeAction :=
  sendNew pe fun sh cap => pdbsDpmGetSinkCapability sh.hdrTemplate sh.config sh.dpm
    (sh.deref sh.dpm.capabilities) ((sh.deref pe.message).hdr &&& pdHdrSpecrev) cap

/-- Give up after the maximum number of hard resets; otherwise ask for one. -/
def peSinkHardReset (pe : PolicyEngine) : PeAction :=
  if pdNHardResetCount < pe.hardResetCounter then .compute (goto pe .sinkSourceUnresponsive)
  else .signal [.hardrstReset] (at_ pe .waitHardSent)

def peSinkHardResetSent (pe : PolicyEngine) : PeAction :=
  .wait [.peHardSent] false fun _ =>
    goto {pe with hardResetCounter := pe.hardResetCounter+1} .sinkTransitionDefault

def peSinkTransitionDefault (pe : PolicyEngine) : PeAction :=
  .access fun sh => some ({sh with dpm := pdbsDpmTransitionDefault sh.dpm},
    at_ {pe with explicitContract := false} .signalDone)

def peSinkSoftReset (pe : PolicyEngine) : PeAction := sendNew pe (controlMsg pdMsgtypeAccept)

def peSinkSendSoftReset (pe : PolicyEngine) : PeAction := sendNew pe (controlMsg pdMsgtypeSoftReset)

/-- The response to a Soft_Reset. -/
def peSinkSendSoftResetMessage (pe : PolicyEngine) (m : MsgPtr) (sh : Shared) : PeResult :=
  if m.msg.isControl pdMsgtypeAccept then finish pe m sh .sinkWaitCap
  else if m.msg.isControl pdMsgtypeSoftReset then finish pe m sh .sinkSoftReset
  else finish pe m sh .sinkHardReset

/-- Reject under PD 2.0, Not_Supported under PD 3.0; under neither revision
the header of the block is left as it was. -/
def peSinkSendNotSupported (pe : PolicyEngine) : PeAction :=
  sendNew pe fun sh m =>
    if sh.hdrTemplate &&& pdHdrSpecrev=pdSpecrev20 then controlMsg pdMsgtypeReject sh m
    else if sh.hdrTemplate &&& pdHdrSpecrev=pdSpecrev30 then controlMsg pdMsgtypeNotSupported sh m
    else m

def peSinkChunkReceived (pe : PolicyEngine) : PeAction :=
  .wait [.peReset] true fun evt =>
    if .peReset ∈ evt then goto pe .sinkTransitionDefault else goto pe .sinkSendNotSupported

/-- The sink registers no callback for a received Not_Supported. -/
def peSinkNotSupportedReceived (pe : PolicyEngine) : PeAction := .compute (goto pe .sinkReady)

/-- Fall back to Type-C Current; the output is set on two equal readings. -/
def peSinkSourceUnresponsive (pe : PolicyEngine) : PeAction :=
  .access fun sh =>
    let (dpm,sufficient) := pdbsDpmEvaluateTypecCurrent sh.config sh.phy.bcLvl sh.dpm
    let tccMatch : ℤ := if sufficient then 1 else 0
    let dpm := if pe.oldTccMatch=tccMatch then pdbsDpmTransitionTypec dpm else dpm
    some ({sh with dpm := dpm},goto {pe with oldTccMatch := tccMatch} .sinkSourceUnresponsive)

/-! ## The thread -/

/-- First action of each state function. -/
def stateFunction (pe : PolicyEngine) : PeAction :=
  match pe.state with
  | .sinkStartup => peSinkStartup pe
  | .sinkDiscovery => peSinkDiscovery pe
  | .sinkWaitCap => peSinkWaitCap pe
  | .sinkEvalCap => peSinkEvalCap pe
  | .sinkSelectCap => peSinkSelectCap pe
  | .sinkTransitionSink => peSinkTransitionSink pe
  | .sinkReady => peSinkReady pe
  | .sinkGetSourceCap => peSinkGetSourceCap pe
  | .sinkGiveSinkCap => peSinkGiveSinkCap pe
  | .sinkHardReset => peSinkHardReset pe
  | .sinkTransitionDefault => peSinkTransitionDefault pe
  | .sinkSoftReset => peSinkSoftReset pe
  | .sinkSendSoftReset => peSinkSendSoftReset pe
  | .sinkSendNotSupported => peSinkSendNotSupported pe
  | .sinkChunkReceived => peSinkChunkReceived pe
  | .sinkNotSupportedReceived => peSinkNotSupportedReceived pe
  | .sinkSourceUnresponsive => peSinkSourceUnresponsive pe

/-- What each sending state does when its transmission is over. -/
def afterSent (pe : PolicyEngine) (result : TxResult) : PeAction :=
  match pe.state with
  | .sinkSelectCap => peSinkSelectCapSent pe result
  | .sinkSoftReset => freeSent pe result (goto · .sinkHardReset) (goto · .sinkWaitCap)
  | .sinkSendSoftReset => freeSent pe result (goto · .sinkHardReset) (at_ · .waitResponse)
  | .sinkSendNotSupported => freeSent pe result (goto · .sinkSendSoftReset) (goto · .sinkReady)
  | .sinkGetSourceCap => freeSent pe result (goto · .sinkHardReset) (goto · .sinkReady)
  | .sinkGiveSinkCap => freeSent pe result (goto · .sinkHardReset) (goto · .sinkReady)
  | _ => .stuck

/-- What each receiving state does with a fetched message. -/
def handleMessage (pe : PolicyEngine) (m : MsgPtr) : Shared → PeResult :=
  match pe.state with
  | .sinkWaitCap => peSinkWaitCapMessage pe m
  | .sinkSelectCap => peSinkSelectCapMessage pe m
  | .sinkTransitionSink => peSinkTransitionSinkMessage pe m
  | .sinkReady => peSinkReadyMessage pe m
  | .sinkSendSoftReset => peSinkSendSoftResetMessage pe m
  | _ => fun _ => none

/-- The Policy Engine thread. -/
def policyEngine (pe : PolicyEngine) : PeAction :=
  match pe.point with
  | .start => stateFunction pe
  | .dropMessage => peSinkReadyNewPower pe
  | .startAms next => .signal [.prltxStartAms] (goto pe next.val)
  | .signalTx => .signal [.prltxMsgTx] (at_ pe .waitTx)
  | .waitTx => .wait [.peTxDone,.peTxErr,.peReset] false fun evt => at_ pe (.sent (txResult evt))
  | .sent result => afterSent pe result
  | .waitResponse => awaitResponse pe
  | .fetch => fetchMessage pe
  | .handle => match pe.message with
    | some m => .access (handleMessage pe m)
    | none => .stuck
  | .waitHardSent => peSinkHardResetSent pe
  | .signalDone => .signal [.hardrstDone] (goto pe .sinkStartup)

/-! ## What the accesses do -/

section Perform

variable {pe : PolicyEngine} {pending : Event → Bool} {sh : Shared} {expired : Bool}
  {o : Outcome Event PolicyEngine Shared}

/-- A new message takes a block and goes to Protocol TX's mailbox. -/
theorem sendNew_perform {build : Shared → PdMsg → PdMsg}
    (h : (sendNew pe build).perform expired pending sh=some o) :
    ∃ m pool, sh.pool=m.block::pool ∧
      o=⟨pending,at_ {pe with sending := some m} .signalTx,postTx {sh with pool := pool} m⟩ := by
  obtain ⟨-,sh',next,he,rfl⟩ := Action.perform_access.mp h
  cases ha : sh.alloc with
  | none => simp [ha] at he
  | some r =>
    obtain ⟨block,sh₁⟩ := r
    obtain ⟨pool,hp,rfl⟩ := Shared.alloc_eq_some.mp ha
    simp only [ha,Option.some.injEq,Prod.mk.injEq] at he
    obtain ⟨rfl,rfl⟩ := he
    exact ⟨_,pool,hp,rfl⟩

/-- The request object is posted. -/
theorem peSinkSelectCap_perform (h : (peSinkSelectCap pe).perform expired pending sh=some o) :
    ∃ m, pe.lastDpmRequest=some m ∧ o=⟨pending,at_ pe .signalTx,postTx sh m⟩ := by
  obtain ⟨-,sh',next,he,rfl⟩ := Action.perform_access.mp h
  obtain ⟨m,hm,he⟩ := Option.map_eq_some_iff.mp he
  obtain ⟨rfl,rfl⟩ := Prod.ext_iff.mp he
  exact ⟨m,hm,rfl⟩

/-- New capabilities touch the two positions only. -/
theorem noteCapabilities_eq (pe : PolicyEngine) :
    ∃ ppsIndex lastPps, noteCapabilities pe={pe with ppsIndex := ppsIndex,lastPps := lastPps} := by
  unfold noteCapabilities
  split
  · exact ⟨_,_,rfl⟩
  · exact ⟨pe.ppsIndex,pe.lastPps,rfl⟩

/-- The request object is the present one, or a new one leaves the pool as
this. -/
def RequestFrom (pe : PolicyEngine) (sh : Shared) (request : MsgPtr) (pool : List ℕ) : Prop :=
  pe.lastDpmRequest=some request ∧ pool=sh.pool ∨
    pe.lastDpmRequest=none ∧ sh.pool=request.block::pool

/-- Getting ready for a Request touches a position and the pool only. -/
theorem prepareRequest_eq {request : MsgPtr} {pe' : PolicyEngine} {sh' : Shared}
    (h : prepareRequest pe sh=some (request,pe',sh')) :
    ∃ lastPps pool, RequestFrom pe sh request pool ∧ pe'={pe with lastPps := lastPps} ∧
      sh'={sh with pool := pool} := by
  unfold prepareRequest at h
  split at h
  · next hr =>
    obtain ⟨⟨block,sh₁⟩,ha,he⟩ := Option.map_eq_some_iff.mp h
    obtain ⟨pool,hp,rfl⟩ := Shared.alloc_eq_some.mp ha
    cases he
    exact ⟨pe.lastPps,pool,.inr ⟨hr,hp⟩,rfl,rfl⟩
  · next r hr =>
    cases h
    exact ⟨_,sh.pool,.inl ⟨hr,rfl⟩,rfl,rfl⟩

/-- Evaluating capabilities leads to a Request in hand and no message. -/
theorem peSinkEvalCap_perform (h : (peSinkEvalCap pe).perform expired pending sh=some o) :
    ∃ request ppsIndex lastPps pool, RequestFrom pe sh request pool ∧
      o=⟨pending,goto {pe with
          ppsIndex := ppsIndex
          lastPps := lastPps
          lastDpmRequest := some (evaluateCapability pe.message request {sh with pool := pool}).1
          message := none} .sinkSelectCap,
        (evaluateCapability pe.message request {sh with pool := pool}).2⟩ := by
  obtain ⟨-,sh',next,he,rfl⟩ := Action.perform_access.mp h
  obtain ⟨⟨request,pe₁,sh₁⟩,hr,he⟩ := Option.map_eq_some_iff.mp he
  obtain ⟨rfl,rfl⟩ := Prod.ext_iff.mp he
  obtain ⟨ppsIndex,_,hn⟩ := noteCapabilities_eq pe
  rw [hn] at hr
  obtain ⟨lastPps,pool,hfrom,rfl,rfl⟩ := prepareRequest_eq hr
  exact ⟨request,ppsIndex,lastPps,pool,hfrom,rfl⟩

/-- A fetch finds the mailbox empty, or takes the oldest message. -/
theorem fetchMessage_perform (h : (fetchMessage pe).perform expired pending sh=some o) :
    sh.peMailbox=[] ∧ o=⟨pending,goto pe (emptyFetch pe.state),sh⟩ ∨
      ∃ m rest, sh.peMailbox=m::rest ∧
        o=⟨pending,at_ {pe with message := some m} .handle,{sh with peMailbox := rest}⟩ := by
  obtain ⟨-,sh',next,he,rfl⟩ := Action.perform_access.mp h
  cases hq : sh.peMailbox with
  | nil =>
    simp only [hq,Option.some.injEq,Prod.mk.injEq] at he
    obtain ⟨rfl,rfl⟩ := he
    exact .inl ⟨rfl,rfl⟩
  | cons m rest =>
    simp only [hq,Option.some.injEq,Prod.mk.injEq] at he
    obtain ⟨rfl,rfl⟩ := he
    exact .inr ⟨m,rest,rfl,rfl⟩

/-- What is handled is the message at hand. -/
theorem handle_perform (h : (match pe.message with
      | some m => .access (handleMessage pe m)
      | none => .stuck : PeAction).perform expired pending sh=some o) :
    ∃ m sh' next, pe.message=some m ∧ handleMessage pe m sh=some (sh',next) ∧ o=⟨pending,next,sh'⟩ := by
  cases hm : pe.message with
  | none =>
    rw [hm] at h
    exact absurd h Action.perform_stuck
  | some m =>
    rw [hm] at h
    obtain ⟨-,sh',next,he,rfl⟩ := Action.perform_access.mp h
    exact ⟨m,sh',next,rfl,he,rfl⟩

end Perform

/-! ## What a message in `PESinkReady` does -/

/-- What both branches of a decision give, the decision gives. -/
theorem of_branches {α : Type} {P : Prop} {c : Prop} [Decidable c] {a b : Option α} {r : Option α}
    (h : (if c then a else b)=r) (ha : a=r → P) (hb : b=r → P) : P := by
  by_cases hc : c
  · exact ha (by rw [← h,if_pos hc])
  · exact hb (by rw [← h,if_neg hc])

/-- The states that follow a message which is freed and changes nothing else. -/
def readyAnswers : List PolicyEngineState :=
  [.sinkReady,.sinkSendNotSupported,.sinkGiveSinkCap,.sinkSoftReset,.sinkChunkReceived,
    .sinkNotSupportedReceived,.sinkSendSoftReset]

section Ready

variable (pe : PolicyEngine) (m : MsgPtr) (sh sh' : Shared) (pe' : PolicyEngine)

/-- Everything a message in `PESinkReady` can do. -/
inductive ReadyStep : Prop where
  /-- It is freed, and a state follows. -/
  | answer {state : PolicyEngineState} (hs : state ∈ readyAnswers)
      (h : finish pe m sh state=some (sh',pe')) : ReadyStep
  /-- The source asks for the least power, and GiveBack is enabled. -/
  | gotomin (hm : m.msg.isControl pdMsgtypeGotomin=true) (hg : givebackEnabled sh=true)
      (h : finish {pe with minPower := true} m {sh with dpm := pdbsDpmTransitionMin sh.dpm}
        .sinkTransitionSink=some (sh',pe')) : ReadyStep
  /-- New capabilities are kept, to be evaluated. -/
  | capabilities (hm : m.msg.isData pdMsgtypeSourceCapabilities=true) (hsh : sh'=sh)
      (hpe : pe'=goto pe .sinkEvalCap) : ReadyStep

end Ready

/-- The branches in the order of the source; all but one free the message. -/
theorem peSinkReadyMessage_step {pe pe' : PolicyEngine} {m : MsgPtr} {sh sh' : Shared}
    (h : peSinkReadyMessage pe m sh=some (sh',pe')) : ReadyStep pe m sh sh' pe' := by
  have hanswer {state : PolicyEngineState} (hs : state ∈ readyAnswers)
      (h : finish pe m sh state=some (sh',pe')) : ReadyStep pe m sh sh' pe' := .answer hs h
  unfold peSinkReadyMessage at h
  iterate 8 refine of_branches h (hanswer (by decide)) fun h => ?_
  by_cases hmin : m.msg.isControl pdMsgtypeGotomin=true
  · rw [if_pos hmin] at h
    by_cases hg : givebackEnabled sh=true
    · rw [if_pos hg] at h
      exact .gotomin hmin hg h
    · rw [if_neg hg] at h
      exact hanswer (by decide) h
  rw [if_neg hmin] at h
  by_cases hcaps : m.msg.isData pdMsgtypeSourceCapabilities=true
  · rw [if_pos hcaps] at h
    obtain ⟨rfl,rfl⟩ := Prod.ext_iff.mp (Option.some.inj h)
    exact .capabilities hcaps rfl rfl
  rw [if_neg hcaps] at h
  iterate 2 refine of_branches h (hanswer (by decide)) fun h => ?_
  refine of_branches h (fun h => ?_) (hanswer (by decide))
  iterate 2 refine of_branches h (hanswer (by decide)) fun h => ?_
  exact hanswer (by decide) h

end UsbPdFirmware.PolicyEngine
