import UsbPdFirmware.FirmwareState

/-!
# The Protocol TX thread

The states of `protocol_tx.c`, cut at their kernel calls and shared accesses.
Both waits take every pending flag of their mask and act on the first one in
the order RESET, DISCARD, and then what the state waits for.
-/

namespace UsbPdFirmware.ProtocolTx

open PdMessage DevicePolicy EventThreads FirmwareState

/-- Next action of the thread, over its own locals. -/
abbrev TxAction := Action Event ProtocolTx Shared

/-- Continue at another point. -/
def at_ (tx : ProtocolTx) (point : ProtocolTxPoint) : ProtocolTx := {tx with point := point}

@[simp] theorem at_point (tx : ProtocolTx) (p : ProtocolTxPoint) : (at_ tx p).point=p := rfl

@[simp] theorem at_message (tx : ProtocolTx) (p : ProtocolTxPoint) :
    (at_ tx p).message=tx.message := rfl

/-- `PRL_Tx_PHY_Layer_Reset`: reset the PHY. -/
def protocolTxPhyReset (tx : ProtocolTx) : TxAction :=
  .access fun sh => some (sh.fusbReset,at_ tx .phyResetReport)

/-- Finish with the message, reporting one result, and wait for the next. -/
def report (result : Event) : TxAction := .signal [result] ⟨.waitMessage,none⟩

/-- Tell the Policy Engine that a message pending at the reset failed. -/
def protocolTxPhyResetReport (tx : ProtocolTx) : TxAction :=
  match tx.message with
  | none => .compute (at_ tx .waitMessage)
  | some _ => report .peTxErr

/-- `PRL_Tx_Wait_for_Message_Request`. -/
def protocolTxWaitMessage (tx : ProtocolTx) : TxAction :=
  .wait [.prltxReset,.prltxDiscard,.prltxMsgTx] false fun evt =>
    if .prltxReset ∈ evt then at_ tx .phyReset
    else if .prltxDiscard ∈ evt then at_ tx .discardMessage
    else if .prltxMsgTx ∈ evt then at_ tx .fetchMessage
    else at_ tx .discardMessage

/-- Fetch the message to transmit; a Soft_Reset resets the layer first. The
pointer stays null when the mailbox is empty. -/
def protocolTxFetchMessage (tx : ProtocolTx) : TxAction :=
  .access fun sh =>
    let message := (sh.txMailbox.head?).or tx.message
    some ({sh with txMailbox := sh.txMailbox.tail},
      ⟨if (sh.deref message).isControl pdMsgtypeSoftReset then .resetCounter else .constructPoll,
        message⟩)

/-- `PRL_Tx_Reset`: clear `MessageIDCounter`. -/
def protocolTxReset (tx : ProtocolTx) : TxAction :=
  .access fun sh => some ({sh with txMessageidcounter := 0},at_ tx .resetSignalRx)

/-- `PRL_Tx_Construct_Message`: make sure nobody wants a reset. -/
def protocolTxConstructPoll (tx : ProtocolTx) : TxAction :=
  .poll [.prltxReset,.prltxDiscard] fun evt =>
    if .prltxReset ∈ evt then at_ tx .phyReset
    else if .prltxDiscard ∈ evt then at_ tx .discardMessage
    else at_ tx .constructHeader

/-- Set the MessageID. Only PD 3.0 avoids collisions. -/
def protocolTxConstructHeader (tx : ProtocolTx) : TxAction :=
  .access fun sh => match tx.message with
    | none => none
    | some m => some (sh,
        ⟨if sh.hdrTemplate &&& pdHdrSpecrev=pdSpecrev30 then .constructAms else .constructSend,
          some {m with msg := m.msg.setMessageid sh.txMessageidcounter}⟩)

/-- The start of a message sequence waits for permission to transmit. -/
def protocolTxConstructAms (tx : ProtocolTx) : TxAction :=
  .poll [.prltxStartAms] fun evt =>
    if .prltxStartAms ∈ evt then at_ tx .constructSinkTxOk else at_ tx .constructSend

/-- One round of the loop that waits for `SinkTxOK`. -/
def protocolTxConstructSinkTxOk (tx : ProtocolTx) : TxAction :=
  .access fun sh => some (sh,
    if sh.phy.bcLvl=fusbSinkTxOk then at_ tx .constructSend else tx)

/-- Send the message to the PHY. -/
def protocolTxConstructSend (tx : ProtocolTx) : TxAction :=
  .access fun sh => some ({sh with phy := {sh.phy with txFifo := some (sh.deref tx.message)}},
    at_ tx .waitResponse)

/-- `PRL_Tx_Wait_for_PHY_Response`. -/
def protocolTxWaitResponse (tx : ProtocolTx) : TxAction :=
  .wait [.prltxReset,.prltxDiscard,.prltxTxsent,.prltxRetryfail] false fun evt =>
    if .prltxReset ∈ evt then at_ tx .phyReset
    else if .prltxDiscard ∈ evt then at_ tx .discardMessage
    else if .prltxTxsent ∈ evt then at_ tx .matchRead
    else if .prltxRetryfail ∈ evt then at_ tx .transmissionError
    else at_ tx .discardMessage

/-- `PRL_Tx_Match_MessageID`: read the GoodCRC. -/
def protocolTxMatchRead (tx : ProtocolTx) : TxAction :=
  .access fun sh =>
    let (goodcrc,sh) := sh.fusbReadMessage
    some (sh,at_ tx (.matchCompare goodcrc))

/-- Check that it is the GoodCRC of the message sent. -/
def protocolTxMatchCompare (tx : ProtocolTx) (goodcrc : PdMsg) : TxAction :=
  .access fun sh => some (sh,
    if goodcrc.isControl pdMsgtypeGoodcrc ∧ goodcrc.messageidGet=sh.txMessageidcounter then
      at_ tx .messageSent
    else at_ tx .transmissionError)

/-- Increment `MessageIDCounter`. -/
def incrementCounter (sh : Shared) : Shared :=
  {sh with txMessageidcounter := (sh.txMessageidcounter+1)%8}

/-- Increment the counter and continue at another point. -/
def incrementThen (tx : ProtocolTx) (next : ProtocolTxPoint) : TxAction :=
  .access fun sh => some (incrementCounter sh,at_ tx next)

/-- `PRL_Tx_Discard_Message`: a message being worked on uses up its ID. -/
def protocolTxDiscardMessage (tx : ProtocolTx) : TxAction :=
  .access fun sh => some (if tx.message.isSome then incrementCounter sh else sh,at_ tx .phyReset)

/-- The Protocol TX thread. -/
def protocolTx (tx : ProtocolTx) : TxAction :=
  match tx.point with
  | .phyReset => protocolTxPhyReset tx
  | .phyResetReport => protocolTxPhyResetReport tx
  | .waitMessage => protocolTxWaitMessage tx
  | .fetchMessage => protocolTxFetchMessage tx
  | .resetCounter => protocolTxReset tx
  | .resetSignalRx => .signal [.prlrxReset] (at_ tx .constructPoll)
  | .constructPoll => protocolTxConstructPoll tx
  | .constructHeader => protocolTxConstructHeader tx
  | .constructAms => protocolTxConstructAms tx
  | .constructSinkTxOk => protocolTxConstructSinkTxOk tx
  | .constructSend => protocolTxConstructSend tx
  | .waitResponse => protocolTxWaitResponse tx
  | .matchRead => protocolTxMatchRead tx
  | .matchCompare goodcrc => protocolTxMatchCompare tx goodcrc
  | .transmissionError => incrementThen tx .transmissionErrorSignal
  | .transmissionErrorSignal => report .peTxErr
  | .messageSent => incrementThen tx .messageSentSignal
  | .messageSentSignal => report .peTxDone
  | .discardMessage => protocolTxDiscardMessage tx

/-! ## One step of the thread -/

/-- Mask of `PRL_Tx_Wait_for_Message_Request`. -/
def waitMessageMask : List Event := [.prltxReset,.prltxDiscard,.prltxMsgTx]

/-- Mask of the poll in `PRL_Tx_Construct_Message`. -/
def constructMask : List Event := [.prltxReset,.prltxDiscard]

/-- Mask of `PRL_Tx_Wait_for_PHY_Response`. -/
def waitResponseMask : List Event := [.prltxReset,.prltxDiscard,.prltxTxsent,.prltxRetryfail]

/-- The mask of the kernel call at a point, where there is one that can be
answered by RESET and DISCARD. -/
def interruptMask : ProtocolTxPoint → List Event
  | .waitMessage => waitMessageMask
  | .constructPoll => constructMask
  | .waitResponse => waitResponseMask
  | _ => []

/-- There are three such points. -/
theorem interruptMask_point {p : ProtocolTxPoint} {e : Event} (h : e ∈ interruptMask p) :
    p=.waitMessage ∨ p=.constructPoll ∨ p=.waitResponse := by
  cases p <;> simp [interruptMask] at h ⊢

/-- The result the next action reports, if it reports one. -/
def reportedBy (tx : ProtocolTx) : Option Event :=
  match tx.point with
  | .phyResetReport => if tx.message.isSome then some .peTxErr else none
  | .transmissionErrorSignal => some .peTxErr
  | .messageSentSignal => some .peTxDone
  | _ => none

/-- The points from which a result is reported. -/
theorem reportedBy_cases {tx : ProtocolTx} {result : Event} (h : reportedBy tx=some result) :
    tx.point=.phyResetReport ∧ tx.message.isSome=true ∧ result=.peTxErr ∨
      tx.point=.transmissionErrorSignal ∧ result=.peTxErr ∨
      tx.point=.messageSentSignal ∧ result=.peTxDone := by
  unfold reportedBy at h
  cases hp : tx.point <;> rw [hp] at h
  case phyResetReport =>
    obtain ⟨hm,h⟩ := Option.ite_none_right_eq_some.mp h
    cases h
    exact .inl ⟨rfl,hm,rfl⟩
  case transmissionErrorSignal =>
    cases h
    exact .inr (.inl ⟨rfl,rfl⟩)
  case messageSentSignal =>
    cases h
    exact .inr (.inr ⟨rfl,rfl⟩)
  all_goals cases h

section Step

variable (tx : ProtocolTx) (pending : Event → Bool) (sh : Shared)

/-- Everything one action of the thread can do. -/
inductive TxStep : Outcome Event ProtocolTx Shared → Prop where
  /-- The PHY is reset. -/
  | phyReset (hp : tx.point=.phyReset) : TxStep ⟨pending,at_ tx .phyResetReport,sh.fusbReset⟩
  /-- No message was pending at the reset. -/
  | resetIdle (hp : tx.point=.phyResetReport) (hm : tx.message=none) :
      TxStep ⟨pending,at_ tx .waitMessage,sh⟩
  /-- The thread finishes with its message and reports the result. -/
  | report {result : Event} (hr : reportedBy tx=some result) :
      TxStep ⟨raise [result] pending,⟨.waitMessage,none⟩,sh⟩
  /-- RESET is taken, with whatever else was pending. -/
  | heedReset (hp : .prltxReset ∈ interruptMask tx.point) (hr : pending .prltxReset=true) :
      TxStep ⟨clear (interruptMask tx.point) pending,at_ tx .phyReset,sh⟩
  /-- DISCARD is taken and RESET is not pending. -/
  | heedDiscard (hp : .prltxDiscard ∈ interruptMask tx.point) (hr : pending .prltxReset=false)
      (hd : pending .prltxDiscard=true) :
      TxStep ⟨clear (interruptMask tx.point) pending,at_ tx .discardMessage,sh⟩
  /-- A request to transmit is taken alone. -/
  | heedMsgTx (hp : tx.point=.waitMessage) (hr : pending .prltxReset=false)
      (hd : pending .prltxDiscard=false) (hm : pending .prltxMsgTx=true) :
      TxStep ⟨clear waitMessageMask pending,at_ tx .fetchMessage,sh⟩
  /-- A message is fetched; the pointer stays when the mailbox is empty. -/
  | fetch (hp : tx.point=.fetchMessage) :
      TxStep ⟨pending,
        ⟨if (sh.deref ((sh.txMailbox.head?).or tx.message)).isControl pdMsgtypeSoftReset then
          .resetCounter else .constructPoll,(sh.txMailbox.head?).or tx.message⟩,
        {sh with txMailbox := sh.txMailbox.tail}⟩
  /-- A Soft_Reset to transmit zeroes the counter. -/
  | resetCounter (hp : tx.point=.resetCounter) :
      TxStep ⟨pending,at_ tx .resetSignalRx,{sh with txMessageidcounter := 0}⟩
  /-- It resets Protocol RX. -/
  | resetSignalRx (hp : tx.point=.resetSignalRx) :
      TxStep ⟨raise [.prlrxReset] pending,at_ tx .constructPoll,sh⟩
  /-- Nobody wants a reset. -/
  | constructOn (hp : tx.point=.constructPoll) (hr : pending .prltxReset=false)
      (hd : pending .prltxDiscard=false) :
      TxStep ⟨clear constructMask pending,at_ tx .constructHeader,sh⟩
  /-- The MessageID is set. -/
  | constructHeader {m : MsgPtr} (hp : tx.point=.constructHeader) (hm : tx.message=some m) :
      TxStep ⟨pending,
        ⟨if sh.hdrTemplate &&& pdHdrSpecrev=pdSpecrev30 then .constructAms else .constructSend,
          some {m with msg := m.msg.setMessageid sh.txMessageidcounter}⟩,sh⟩
  /-- The start of a message sequence is noticed, or there is none. -/
  | constructAms (hp : tx.point=.constructAms) :
      TxStep ⟨clear [.prltxStartAms] pending,
        at_ tx (if pending .prltxStartAms then .constructSinkTxOk else .constructSend),sh⟩
  /-- The source permits the transmission, or not yet. -/
  | constructSinkTxOk (hp : tx.point=.constructSinkTxOk) :
      TxStep ⟨pending,if sh.phy.bcLvl=fusbSinkTxOk then at_ tx .constructSend else tx,sh⟩
  /-- The message goes to the PHY. -/
  | send (hp : tx.point=.constructSend) :
      TxStep ⟨pending,at_ tx .waitResponse,
        {sh with phy := {sh.phy with txFifo := some (sh.deref tx.message)}}⟩
  /-- The PHY reports a GoodCRC. -/
  | heedTxsent (hp : tx.point=.waitResponse) (hr : pending .prltxReset=false)
      (hd : pending .prltxDiscard=false) (ht : pending .prltxTxsent=true) :
      TxStep ⟨clear waitResponseMask pending,at_ tx .matchRead,sh⟩
  /-- The PHY reports failure, and nothing else. -/
  | heedRetryfail (hp : tx.point=.waitResponse) (hr : pending .prltxReset=false)
      (hd : pending .prltxDiscard=false) (ht : pending .prltxTxsent=false)
      (hf : pending .prltxRetryfail=true) :
      TxStep ⟨clear waitResponseMask pending,at_ tx .transmissionError,sh⟩
  /-- A packet is read as the GoodCRC. -/
  | matchRead (hp : tx.point=.matchRead) :
      TxStep ⟨pending,at_ tx (.matchCompare sh.fusbReadMessage.1),sh.fusbReadMessage.2⟩
  /-- The packet read is compared with what was sent. -/
  | matchCompare {goodcrc : PdMsg} (hp : tx.point=.matchCompare goodcrc) :
      TxStep ⟨pending,
        if goodcrc.isControl pdMsgtypeGoodcrc ∧ goodcrc.messageidGet=sh.txMessageidcounter then
          at_ tx .messageSent else at_ tx .transmissionError,sh⟩
  /-- The message failed and uses up its MessageID. -/
  | transmissionError (hp : tx.point=.transmissionError) :
      TxStep ⟨pending,at_ tx .transmissionErrorSignal,incrementCounter sh⟩
  /-- The message was sent and uses up its MessageID. -/
  | messageSent (hp : tx.point=.messageSent) :
      TxStep ⟨pending,at_ tx .messageSentSignal,incrementCounter sh⟩
  /-- The message is given up and uses up its MessageID, if there is one. -/
  | discard (hp : tx.point=.discardMessage) :
      TxStep ⟨pending,at_ tx .phyReset,if tx.message.isSome then incrementCounter sh else sh⟩

end Step

variable {tx : ProtocolTx} {pending : Event → Bool} {sh : Shared} {expired : Bool}
  {o : Outcome Event ProtocolTx Shared}

/-- RESET and DISCARD come first in every wait and poll that knows them. What
the call does otherwise is left to `other`. -/
theorem interrupt_step (pending : Event → Bool) (sh : Shared) (other : ProtocolTx)
    (hr : .prltxReset ∈ interruptMask tx.point) (hd : .prltxDiscard ∈ interruptMask tx.point)
    (hother : pending .prltxReset=false → pending .prltxDiscard=false →
      TxStep tx pending sh ⟨clear (interruptMask tx.point) pending,other,sh⟩) :
    TxStep tx pending sh ⟨clear (interruptMask tx.point) pending,
      if .prltxReset ∈ taken (interruptMask tx.point) pending then at_ tx .phyReset
      else if .prltxDiscard ∈ taken (interruptMask tx.point) pending then at_ tx .discardMessage
      else other,sh⟩ := by
  cases hpr : pending .prltxReset with
  | true =>
    rw [if_pos (mem_taken.mpr ⟨hr,hpr⟩)]
    exact .heedReset hr hpr
  | false =>
    rw [if_neg (by simp [hpr])]
    cases hpd : pending .prltxDiscard with
    | true =>
      rw [if_pos (mem_taken.mpr ⟨hd,hpd⟩)]
      exact .heedDiscard hd hpr hpd
    | false =>
      rw [if_neg (by simp [hpd])]
      exact hother hpr hpd

/-- Every action of the thread is one of its steps. -/
theorem protocolTx_step (h : (protocolTx tx).perform expired pending sh=some o) :
    TxStep tx pending sh o := by
  unfold protocolTx at h
  cases hp : tx.point <;> rw [hp] at h <;> dsimp only at h
  case waitMessage =>
    obtain ⟨-,hm,rfl⟩ := Action.perform_wait_untimed.mp h
    have hi : interruptMask tx.point=waitMessageMask := by rw [hp]; rfl
    have hstep := interrupt_step pending sh
      (if .prltxMsgTx ∈ taken (interruptMask tx.point) pending then at_ tx .fetchMessage
        else at_ tx .discardMessage)
      (by rw [hi]; decide) (by rw [hi]; decide) fun hr hd => by
        have hmsg : pending .prltxMsgTx=true := by simpa [hr,hd] using hm
        rw [if_pos (by simp [hi,waitMessageMask,hmsg]),hi]
        exact .heedMsgTx hp hr hd hmsg
    rw [hi] at hstep
    exact hstep
  case waitResponse =>
    obtain ⟨-,hm,rfl⟩ := Action.perform_wait_untimed.mp h
    have hi : interruptMask tx.point=waitResponseMask := by rw [hp]; rfl
    have hstep := interrupt_step pending sh
      (if .prltxTxsent ∈ taken (interruptMask tx.point) pending then at_ tx .matchRead
        else if .prltxRetryfail ∈ taken (interruptMask tx.point) pending then
          at_ tx .transmissionError
        else at_ tx .discardMessage)
      (by rw [hi]; decide) (by rw [hi]; decide) fun hr hd => by
        cases htx : pending .prltxTxsent with
        | true =>
          rw [if_pos (by simp [hi,waitResponseMask,htx]),hi]
          exact .heedTxsent hp hr hd htx
        | false =>
          have hf : pending .prltxRetryfail=true := by simpa [hr,hd,htx] using hm
          rw [if_neg (by simp [htx]),if_pos (by simp [hi,waitResponseMask,hf]),hi]
          exact .heedRetryfail hp hr hd htx hf
    rw [hi] at hstep
    exact hstep
  case constructPoll =>
    obtain ⟨-,rfl⟩ := Action.perform_poll.mp h
    have hi : interruptMask tx.point=constructMask := by rw [hp]; rfl
    have hstep := interrupt_step pending sh (at_ tx .constructHeader)
      (by rw [hi]; decide) (by rw [hi]; decide) fun hr hd => by
        rw [hi]
        exact .constructOn hp hr hd
    rw [hi] at hstep
    exact hstep
  case constructAms =>
    obtain ⟨-,rfl⟩ := Action.perform_poll.mp h
    have hstep : TxStep tx pending sh _ := .constructAms hp
    cases ha : pending .prltxStartAms <;> simpa [ha] using hstep
  case phyResetReport =>
    unfold protocolTxPhyResetReport at h
    cases hm : tx.message with
    | none =>
      obtain ⟨-,sh',next,he,rfl⟩ := Action.perform_access.mp (by rw [hm] at h; exact h)
      obtain ⟨rfl,rfl⟩ := Prod.ext_iff.mp (Option.some.inj he)
      exact .resetIdle hp hm
    | some m =>
      obtain ⟨-,rfl⟩ := Action.perform_signal.mp (by rw [hm] at h; exact h)
      exact .report (by simp [reportedBy,hp,hm])
  case constructHeader =>
    obtain ⟨-,sh',next,he,rfl⟩ := Action.perform_access.mp h
    cases hm : tx.message with
    | none => simp [hm] at he
    | some m =>
      simp only [hm,Option.some.injEq,Prod.mk.injEq] at he
      obtain ⟨rfl,rfl⟩ := he
      exact .constructHeader hp hm
  case resetSignalRx =>
    obtain ⟨-,rfl⟩ := Action.perform_signal.mp h
    exact .resetSignalRx hp
  case transmissionErrorSignal =>
    obtain ⟨-,rfl⟩ := Action.perform_signal.mp h
    exact .report (by simp [reportedBy,hp])
  case messageSentSignal =>
    obtain ⟨-,rfl⟩ := Action.perform_signal.mp h
    exact .report (by simp [reportedBy,hp])
  all_goals
    obtain ⟨-,rfl⟩ := Action.perform_access_some.mp h
  case phyReset => exact .phyReset hp
  case fetchMessage => exact .fetch hp
  case resetCounter => exact .resetCounter hp
  case constructSinkTxOk => exact .constructSinkTxOk hp
  case constructSend => exact .send hp
  case matchRead => exact .matchRead hp
  case matchCompare goodcrc => exact .matchCompare hp
  case transmissionError => exact .transmissionError hp
  case messageSent => exact .messageSent hp
  case discardMessage => exact .discard hp

/-! ## What the thread leaves alone -/

/-- Every flag the thread takes or signals. -/
def txEvents : List Event :=
  [.prltxReset,.prltxDiscard,.prltxMsgTx,.prltxStartAms,.prltxTxsent,.prltxRetryfail,.prlrxReset,
    .peTxErr,.peTxDone]

/-- What the waits and the poll that know RESET and DISCARD take. -/
theorem interruptMask_subset (p : ProtocolTxPoint) :
    interruptMask p ⊆ [.prltxReset,.prltxDiscard,.prltxMsgTx,.prltxTxsent,.prltxRetryfail] := by
  cases p <;> simp [interruptMask,waitMessageMask,constructMask,waitResponseMask]

/-- Only the wait for a request takes the request. -/
theorem prltxMsgTx_mem_interruptMask {p : ProtocolTxPoint} (h : .prltxMsgTx ∈ interruptMask p) :
    p=.waitMessage := by
  cases p <;> simp [interruptMask,constructMask,waitResponseMask] at h ⊢

/-- Every other flag keeps its value. -/
theorem TxStep.pending_other (h : TxStep tx pending sh o) {e : Event} (he : e ∉ txEvents) :
    o.pending e=pending e := by
  have hmask (p : ProtocolTxPoint) : e ∉ interruptMask p := fun hm =>
    he (List.Subset.trans (interruptMask_subset p) (by decide) hm)
  have hmsg := hmask .waitMessage
  have hpoll := hmask .constructPoll
  have hresp := hmask .waitResponse
  simp only [interruptMask] at hmsg hpoll hresp
  simp only [txEvents,List.mem_cons,not_or] at he
  cases h with
  | report hr =>
    rcases reportedBy_cases hr with ⟨-,-,rfl⟩ | ⟨-,rfl⟩ | ⟨-,rfl⟩ <;> simp [he]
  | _ => simp [hmask,hmsg,hpoll,hresp,he]

/-- Shared memory the thread does not write. -/
structure TxFrame (sh sh' : Shared) : Prop where
  /-- The Policy Engine's mailbox. -/
  peMailbox : sh'.peMailbox=sh.peMailbox
  /-- The stored MessageID. -/
  rxMessageid : sh'.rxMessageid=sh.rxMessageid
  /-- The manager's data. -/
  dpm : sh'.dpm=sh.dpm

theorem TxStep.frame (h : TxStep tx pending sh o) : TxFrame sh o.shared := by
  cases h with
  | matchRead hp =>
    rw [fusbReadMessage_eq]
    exact ⟨rfl,rfl,rfl⟩
  | discard hp => cases tx.message <;> exact ⟨rfl,rfl,rfl⟩
  | _ => exact ⟨rfl,rfl,rfl⟩

end UsbPdFirmware.ProtocolTx
