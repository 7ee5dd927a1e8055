import UsbPdFirmware.FirmwareState

/-!
# The Protocol RX thread

The states of `protocol_rx.c`, cut at their kernel calls and shared accesses.
A reset event is noticed at three places: by the wait, which then does
nothing, and twice on the way from a read to the comparison of MessageIDs,
where the message read is freed.
-/

namespace UsbPdFirmware.ProtocolRx

open PdMessage EventThreads FirmwareState

/-- Next action of the thread, over its own locals. -/
abbrev RxAction := Action Event ProtocolRx Shared

/-- Continue at another point. -/
def at_ (rx : ProtocolRx) (point : ProtocolRxPoint) : ProtocolRx := {rx with point := point}

@[simp] theorem at_point (rx : ProtocolRx) (p : ProtocolRxPoint) : (at_ rx p).point=p := rfl

@[simp] theorem at_message (rx : ProtocolRx) (p : ProtocolRxPoint) :
    (at_ rx p).message=rx.message := rfl

/-- `PRL_Rx_Wait_for_PHY_Message`. A reset event hides a message reported by
the same wait. -/
def protocolRxWaitPhy (rx : ProtocolRx) : RxAction :=
  .wait [.prlrxReset,.prlrxGcrcsent] false fun evt =>
    if .prlrxReset ∈ evt then at_ rx .waitPhy
    else if .prlrxGcrcsent ∈ evt then at_ rx .readPhy
    else at_ rx .waitPhy

/-- Read the message into a new block; a Soft_Reset resets the layer. A failed
allocation would be written through a null pointer. -/
def protocolRxReadPhy : RxAction :=
  .access fun sh => match sh.alloc with
    | none => none
    | some (block,sh) =>
      let (msg,sh) := sh.fusbReadMessage
      some (sh,⟨if msg.isControl pdMsgtypeSoftReset then .resetCounter else .checkPoll,
        some ⟨block,msg⟩⟩)

/-- `PRL_Rx_Layer_Reset_for_Receive`, first write: `MessageIDCounter`. -/
def protocolRxResetCounter (rx : ProtocolRx) : RxAction :=
  .access fun sh => some ({sh with txMessageidcounter := 0},at_ rx .resetStoredId)

/-- `PRL_Rx_Layer_Reset_for_Receive`, second write: the stored MessageID. -/
def protocolRxResetStoredId (rx : ProtocolRx) : RxAction :=
  .access fun sh => some ({sh with rxMessageid := -1},at_ rx .resetSignalTx)

/-- Give up the message if a reset event is pending. -/
def pollReset (rx : ProtocolRx) (next : ProtocolRxPoint) : RxAction :=
  .poll [.prlrxReset] fun evt => if evt=[] then at_ rx next else at_ rx .dropMessage

/-- Free the message and wait for the next one. -/
def dropMessage (rx : ProtocolRx) : RxAction :=
  .access fun sh => some (sh.free? rx.message,⟨.waitPhy,none⟩)

/-- `PRL_Rx_Check_MessageID`: a message with the stored ID was seen before. -/
def protocolRxCheckMessageid (rx : ProtocolRx) : RxAction :=
  .access fun sh => some (sh,
    if ((sh.deref rx.message).messageidGet : ℤ)=sh.rxMessageid then at_ rx .dropMessage
    else at_ rx .storeSignalTx)

/-- `PRL_Rx_Store_MessageID`: update the stored MessageID. -/
def protocolRxStoreMessageid (rx : ProtocolRx) : RxAction :=
  .access fun sh => some ({sh with rxMessageid := (sh.deref rx.message).messageidGet},
    at_ rx .storePost)

/-- Pass the message to the Policy Engine. -/
def protocolRxStorePost (rx : ProtocolRx) : RxAction :=
  .access fun sh => match rx.message with
    | none => none
    | some m => some ({sh with peMailbox := post pdbMsgPoolSize m sh.peMailbox},at_ rx .storeSignalPe)

/-- The Protocol RX thread. The pointer it keeps after a post is overwritten
before it is read again. -/
def protocolRx (rx : ProtocolRx) : RxAction :=
  match rx.point with
  | .waitPhy => protocolRxWaitPhy rx
  | .readPhy => protocolRxReadPhy
  | .resetCounter => protocolRxResetCounter rx
  | .resetStoredId => protocolRxResetStoredId rx
  | .resetSignalTx => .signal [.prltxReset] (at_ rx .resetPoll)
  | .resetPoll => pollReset rx .checkPoll
  | .checkPoll => pollReset rx .checkCompare
  | .checkCompare => protocolRxCheckMessageid rx
  | .dropMessage => dropMessage rx
  | .storeSignalTx => .signal [.prltxDiscard] (at_ rx .storeMessageid)
  | .storeMessageid => protocolRxStoreMessageid rx
  | .storePost => protocolRxStorePost rx
  | .storeSignalPe => .signal [.peMsgRx] (at_ rx .waitPhy)

/-! ## One step of the thread -/

section Step

variable (rx : ProtocolRx) (pending : Event → Bool) (sh : Shared)

/-- Everything one action of the thread can do. -/
inductive RxStep : Outcome Event ProtocolRx Shared → Prop where
  /-- A reset event is taken, with whatever else was pending. -/
  | heedReset (hp : rx.point=.waitPhy) (hr : pending .prlrxReset=true) :
      RxStep ⟨clear [.prlrxReset,.prlrxGcrcsent] pending,at_ rx .waitPhy,sh⟩
  /-- A message is reported and no reset is. -/
  | heedGcrcsent (hp : rx.point=.waitPhy) (hr : pending .prlrxReset=false)
      (hg : pending .prlrxGcrcsent=true) :
      RxStep ⟨clear [.prlrxReset,.prlrxGcrcsent] pending,at_ rx .readPhy,sh⟩
  /-- A message is read into a new block. -/
  | read {block : ℕ} {pool : List ℕ} (hp : rx.point=.readPhy) (hb : sh.pool=block::pool) :
      RxStep ⟨pending,
        ⟨if sh.fusbReadMessage.1.isControl pdMsgtypeSoftReset then .resetCounter else .checkPoll,
          some ⟨block,sh.fusbReadMessage.1⟩⟩,{sh.fusbReadMessage.2 with pool := pool}⟩
  /-- A received Soft_Reset zeroes the counter of Protocol TX. -/
  | resetCounter (hp : rx.point=.resetCounter) :
      RxStep ⟨pending,at_ rx .resetStoredId,{sh with txMessageidcounter := 0}⟩
  /-- It clears the stored MessageID. -/
  | resetStoredId (hp : rx.point=.resetStoredId) :
      RxStep ⟨pending,at_ rx .resetSignalTx,{sh with rxMessageid := -1}⟩
  /-- It resets Protocol TX. -/
  | resetSignalTx (hp : rx.point=.resetSignalTx) :
      RxStep ⟨raise [.prltxReset] pending,at_ rx .resetPoll,sh⟩
  /-- No reset event is pending on the way to the comparison. -/
  | pollOn (hp : rx.point=.resetPoll ∨ rx.point=.checkPoll) (hr : pending .prlrxReset=false) :
      RxStep ⟨clear [.prlrxReset] pending,
        at_ rx (if rx.point=.resetPoll then .checkPoll else .checkCompare),sh⟩
  /-- A reset event gives up the message. -/
  | pollReset (hp : rx.point=.resetPoll ∨ rx.point=.checkPoll) (hr : pending .prlrxReset=true) :
      RxStep ⟨clear [.prlrxReset] pending,at_ rx .dropMessage,sh⟩
  /-- The message carries the stored MessageID. -/
  | duplicate (hp : rx.point=.checkCompare)
      (hid : ((sh.deref rx.message).messageidGet : ℤ)=sh.rxMessageid) :
      RxStep ⟨pending,at_ rx .dropMessage,sh⟩
  /-- The message carries another MessageID. -/
  | accept (hp : rx.point=.checkCompare)
      (hid : ((sh.deref rx.message).messageidGet : ℤ)≠sh.rxMessageid) :
      RxStep ⟨pending,at_ rx .storeSignalTx,sh⟩
  /-- The message is freed. -/
  | drop (hp : rx.point=.dropMessage) : RxStep ⟨pending,⟨.waitPhy,none⟩,sh.free? rx.message⟩
  /-- An accepted message discards the one being transmitted. -/
  | storeSignalTx (hp : rx.point=.storeSignalTx) :
      RxStep ⟨raise [.prltxDiscard] pending,at_ rx .storeMessageid,sh⟩
  /-- Its MessageID is stored. -/
  | storeMessageid (hp : rx.point=.storeMessageid) :
      RxStep ⟨pending,at_ rx .storePost,{sh with rxMessageid := (sh.deref rx.message).messageidGet}⟩
  /-- It is posted. -/
  | post {m : MsgPtr} (hp : rx.point=.storePost) (hm : rx.message=some m) :
      RxStep ⟨pending,at_ rx .storeSignalPe,
        {sh with peMailbox := post pdbMsgPoolSize m sh.peMailbox}⟩
  /-- The Policy Engine is told. -/
  | storeSignalPe (hp : rx.point=.storeSignalPe) :
      RxStep ⟨raise [.peMsgRx] pending,at_ rx .waitPhy,sh⟩

end Step

variable {rx : ProtocolRx} {pending : Event → Bool} {sh : Shared} {expired : Bool}
  {o : Outcome Event ProtocolRx Shared}

/-- A poll for a reset event gives up the message or goes on. -/
theorem pollReset_step (hp : rx.point=.resetPoll ∨ rx.point=.checkPoll)
    (h : (pollReset rx (if rx.point=.resetPoll then .checkPoll else .checkCompare)).perform
      expired pending sh=some o) : RxStep rx pending sh o := by
  obtain ⟨-,rfl⟩ := Action.perform_poll.mp h
  cases hr : pending .prlrxReset with
  | false =>
    rw [taken_eq_nil.mpr (by simpa using hr),if_pos rfl]
    exact .pollOn hp hr
  | true =>
    rw [if_neg (List.ne_nil_of_mem (mem_taken.mpr ⟨List.mem_singleton_self _,hr⟩))]
    exact .pollReset hp hr

/-- Every action of the thread is one of its steps. -/
theorem protocolRx_step (h : (protocolRx rx).perform expired pending sh=some o) :
    RxStep rx pending sh o := by
  unfold protocolRx at h
  cases hp : rx.point <;> rw [hp] at h <;> dsimp only at h
  case waitPhy =>
    obtain ⟨-,hm,rfl⟩ := Action.perform_wait_untimed.mp h
    cases hr : pending .prlrxReset with
    | true =>
      rw [if_pos (by simp [hr])]
      exact .heedReset hp hr
    | false =>
      have hg : pending .prlrxGcrcsent=true := by simpa [hr] using hm
      rw [if_neg (by simp [hr]),if_pos (by simp [hg])]
      exact .heedGcrcsent hp hr hg
  case readPhy =>
    obtain ⟨-,sh',next,he,rfl⟩ := Action.perform_access.mp h
    cases ha : sh.alloc with
    | none => simp [ha] at he
    | some r =>
      obtain ⟨block,sh₁⟩ := r
      obtain ⟨pool,hb,rfl⟩ := Shared.alloc_eq_some.mp ha
      simp only [ha,fusbReadMessage_pool,Option.some.injEq,Prod.mk.injEq] at he
      obtain ⟨rfl,rfl⟩ := he
      exact .read hp hb
  case resetPoll => exact pollReset_step (.inl hp) (by rw [if_pos hp]; exact h)
  case checkPoll => exact pollReset_step (.inr hp) (by rw [if_neg (by simp [hp])]; exact h)
  case checkCompare =>
    obtain ⟨-,rfl⟩ := Action.perform_access_some.mp h
    by_cases hid : ((sh.deref rx.message).messageidGet : ℤ)=sh.rxMessageid
    · rw [if_pos hid]
      exact .duplicate hp hid
    · rw [if_neg hid]
      exact .accept hp hid
  case storePost =>
    obtain ⟨-,sh',next,he,rfl⟩ := Action.perform_access.mp h
    cases hm : rx.message with
    | none => simp [hm] at he
    | some m =>
      simp only [hm,Option.some.injEq,Prod.mk.injEq] at he
      obtain ⟨rfl,rfl⟩ := he
      exact .post hp hm
  case resetSignalTx =>
    obtain ⟨-,rfl⟩ := Action.perform_signal.mp h
    exact .resetSignalTx hp
  case storeSignalTx =>
    obtain ⟨-,rfl⟩ := Action.perform_signal.mp h
    exact .storeSignalTx hp
  case storeSignalPe =>
    obtain ⟨-,rfl⟩ := Action.perform_signal.mp h
    exact .storeSignalPe hp
  all_goals
    obtain ⟨-,rfl⟩ := Action.perform_access_some.mp h
  case resetCounter => exact .resetCounter hp
  case resetStoredId => exact .resetStoredId hp
  case dropMessage => exact .drop hp
  case storeMessageid => exact .storeMessageid hp

/-- The point of a read or a post is that of no other step. -/
theorem RxStep.of_readPhy (h : RxStep rx pending sh o) (hp : rx.point=.readPhy) :
    ∃ block pool, sh.pool=block::pool ∧
      o=⟨pending,⟨if sh.fusbReadMessage.1.isControl pdMsgtypeSoftReset then .resetCounter else .checkPoll,
        some ⟨block,sh.fusbReadMessage.1⟩⟩,{sh.fusbReadMessage.2 with pool := pool}⟩ := by
  cases h with
  | @read block pool hp' hb => exact ⟨block,pool,hb,rfl⟩
  | pollOn hp' hr => rcases hp' with hp' | hp' <;> rw [hp] at hp' <;> cases hp'
  | pollReset hp' hr => rcases hp' with hp' | hp' <;> rw [hp] at hp' <;> cases hp'
  | _ hp' =>
    rw [hp] at hp'
    cases hp'

theorem RxStep.of_storePost (h : RxStep rx pending sh o) (hp : rx.point=.storePost) :
    ∃ m, rx.message=some m ∧ o=⟨pending,at_ rx .storeSignalPe,
      {sh with peMailbox := EventThreads.post pdbMsgPoolSize m sh.peMailbox}⟩ := by
  cases h with
  | @post m hp' hm => exact ⟨m,hm,rfl⟩
  | pollOn hp' hr => rcases hp' with hp' | hp' <;> rw [hp] at hp' <;> cases hp'
  | pollReset hp' hr => rcases hp' with hp' | hp' <;> rw [hp] at hp' <;> cases hp'
  | _ hp' =>
    rw [hp] at hp'
    cases hp'

/-! ## What the thread leaves alone -/

/-- Every flag the thread takes or signals. -/
def rxEvents : List Event := [.prlrxReset,.prlrxGcrcsent,.prltxReset,.prltxDiscard,.peMsgRx]

/-- Every other flag keeps its value. -/
theorem RxStep.pending_other (h : RxStep rx pending sh o) {e : Event} (he : e ∉ rxEvents) :
    o.pending e=pending e := by
  simp only [rxEvents,List.mem_cons,not_or] at he
  cases h <;> simp [he]

/-- Shared memory the thread does not write. -/
structure RxFrame (sh sh' : Shared) : Prop where
  /-- Protocol TX's mailbox. -/
  txMailbox : sh'.txMailbox=sh.txMailbox
  /-- The manager's data. -/
  dpm : sh'.dpm=sh.dpm

theorem RxStep.frame (h : RxStep rx pending sh o) : RxFrame sh o.shared := by
  cases h with
  | read hp hb =>
    rw [fusbReadMessage_eq]
    exact ⟨rfl,rfl⟩
  | drop hp => exact ⟨free?_txMailbox _ _,free?_dpm _ _⟩
  | _ => exact ⟨rfl,rfl⟩

end UsbPdFirmware.ProtocolRx
