import UsbPdFirmware.DevicePolicy
import UsbPdFirmware.EventThreads

/-!
# Flags, locals and shared memory of the firmware

The event flags of the Policy Engine, Protocol RX, Protocol TX and Hard Reset
threads, the points between two atomic actions at which each thread can
stand, and the memory the threads share: mailboxes, the message pool, the
protocol counters, the PHY and the Device Policy Manager's data.
-/

namespace UsbPdFirmware.FirmwareState

open PdMessage DevicePolicy EventThreads

/-- Every event flag, named after the thread that waits for it. -/
inductive Event where
  | peReset
  | peMsgRx
  | peTxDone
  | peTxErr
  | peHardSent
  | peOvrTemp
  | pePpsRequest
  | peGetSourceCap
  | peNewPower
  | prlrxReset
  | prlrxGcrcsent
  | prltxReset
  | prltxTxsent
  | prltxRetryfail
  | prltxDiscard
  | prltxMsgTx
  | prltxStartAms
  | hardrstReset
  | hardrstHardrst
  | hardrstHardsent
  | hardrstDone
  deriving DecidableEq

/-! ## The PHY -/

/-- What a packet in the receive FIFO is: a message from the source, or the
GoodCRC that answers one of our transmissions. -/
inductive PacketOrigin where
  | source
  | goodcrc
  deriving DecidableEq

/-- One received packet. -/
structure Packet where
  /-- Whom the packet is meant for. -/
  origin : PacketOrigin
  /-- Header and objects as read from the FIFO. -/
  msg : PdMsg

/-- Interrupt flags of the FUSB302B; reading them clears them. -/
structure Interrupts where
  /-- `I_GCRCSENT`: a source message was received and acknowledged. -/
  gcrcsent : Bool
  /-- `I_RETRYFAIL`: every retry of a transmission failed. -/
  retryfail : Bool
  /-- `I_TXSENT`: a GoodCRC for a transmission was received. -/
  txsent : Bool
  /-- `I_HARDRST`: a hard reset was received. -/
  hardrst : Bool
  /-- `I_HARDSENT`: a hard reset was sent. -/
  hardsent : Bool
  /-- `I_OCP_TEMP`: over-current or over-temperature. -/
  ocpTemp : Bool

/-- No interrupt raised. -/
def Interrupts.none : Interrupts := ⟨false,false,false,false,false,false⟩

/-- The `INT_N` line is low while an interrupt is raised. -/
def Interrupts.any (i : Interrupts) : Bool :=
  i.gcrcsent || i.retryfail || i.txsent || i.hardrst || i.hardsent || i.ocpTemp

/-- The FUSB302B as the threads see it. -/
structure Phy where
  /-- Received packets, oldest first. -/
  rxFifo : List Packet
  /-- The message last written to the transmit FIFO. -/
  txFifo : Option PdMsg
  /-- Raised interrupts. -/
  interrupts : Interrupts
  /-- The status bit `OVRTEMP`. -/
  ovrTemp : Bool
  /-- The level on the CC line. -/
  bcLvl : TypecCurrent

/-! ## Shared memory -/

/-- Memory that more than one thread, or a thread and its environment, use. -/
structure Shared where
  /-- Messages received for the Policy Engine, oldest first. -/
  peMailbox : List MsgPtr
  /-- Messages waiting to be transmitted, oldest first. -/
  txMailbox : List MsgPtr
  /-- Free blocks of the message pool. -/
  pool : List ℕ
  /-- Header template of the Policy Engine. -/
  hdrTemplate : BitVec 16
  /-- Stored MessageID of Protocol RX; minus one when there is none. -/
  rxMessageid : ℤ
  /-- MessageIDCounter of Protocol TX. -/
  txMessageidcounter : ℕ
  /-- Whether SinkPPSPeriodicTimer is running. -/
  ppsTimer : Bool
  /-- Data of the Device Policy Manager. -/
  dpm : Dpm
  /-- What `pdbs_config_flash_read` returns. -/
  config : Option PdbsConfig
  /-- The profile selected by the button, `cfg->state`. -/
  profile : ℕ
  /-- The PHY. -/
  phy : Phy
  /-- Contents of memory nobody has written: a recycled block, a stack buffer
  or what a null pointer leads to. -/
  junk : PdMsg
  /-- The same, read as a configuration. -/
  junkConfig : PdbsConfig

/-- Number of blocks of the message pool and slots of each mailbox. -/
def pdbMsgPoolSize : ℕ := 4

namespace Shared

/-- Take a block from the pool. -/
def alloc (sh : Shared) : Option (ℕ × Shared) :=
  match sh.pool with
  | [] => none
  | block::rest => some (block,{sh with pool := rest})

/-- A successful allocation takes the first free block. -/
theorem alloc_eq_some {sh sh' : Shared} {block : ℕ} :
    sh.alloc=some (block,sh') ↔ ∃ rest, sh.pool=block::rest ∧ sh'={sh with pool := rest} := by
  unfold alloc
  cases hp : sh.pool with
  | nil => simp
  | cons first rest =>
    simp only [Option.some.injEq,Prod.mk.injEq,List.cons.injEq]
    constructor
    · rintro ⟨rfl,rfl⟩
      exact ⟨rest,⟨rfl,rfl⟩,rfl⟩
    · rintro ⟨_,⟨rfl,rfl⟩,rfl⟩
      exact ⟨rfl,rfl⟩

/-- Return a block to the pool. -/
def free (sh : Shared) (p : MsgPtr) : Shared := {sh with pool := p.block::sh.pool}

/-- Return a block to the pool unless the pointer is null. -/
def free? (sh : Shared) : Option MsgPtr → Shared
  | none => sh
  | some p => sh.free p

/-- Contents behind a pointer that may be null. -/
def deref (sh : Shared) (p : Option MsgPtr) : PdMsg := (p.map MsgPtr.msg).getD sh.junk

/-- Read the oldest packet. An empty FIFO gives no SOP token, and then the
reader's buffer keeps whatever it held. -/
def fusbReadMessage (sh : Shared) : PdMsg × Shared :=
  match sh.phy.rxFifo with
  | [] => (sh.junk,sh)
  | p::rest => (p.msg,{sh with phy := {sh.phy with rxFifo := rest}})

/-- Flush both FIFOs of the PHY. -/
def fusbReset (sh : Shared) : Shared :=
  {sh with phy := {sh.phy with rxFifo := [],txFifo := none}}

end Shared

/-- Freeing a block changes nothing but the pool. -/
theorem free?_eq (sh : Shared) (p : Option MsgPtr) : sh.free? p={sh with pool := (sh.free? p).pool} := by
  cases p <;> rfl

@[simp] theorem free?_dpm (sh : Shared) (p : Option MsgPtr) : (sh.free? p).dpm=sh.dpm := by
  rw [free?_eq]

@[simp] theorem free?_peMailbox (sh : Shared) (p : Option MsgPtr) :
    (sh.free? p).peMailbox=sh.peMailbox := by
  rw [free?_eq]

@[simp] theorem free?_txMailbox (sh : Shared) (p : Option MsgPtr) :
    (sh.free? p).txMailbox=sh.txMailbox := by
  rw [free?_eq]

/-- Reading a packet changes nothing but the PHY. -/
theorem fusbReadMessage_eq (sh : Shared) :
    sh.fusbReadMessage.2={sh with phy := sh.fusbReadMessage.2.phy} := by
  unfold Shared.fusbReadMessage
  cases sh.phy.rxFifo <;> rfl

/-- What is read does not depend on the free blocks. -/
theorem fusbReadMessage_pool (sh : Shared) (pool : List ℕ) :
    Shared.fusbReadMessage {sh with pool := pool}=
      (sh.fusbReadMessage.1,{sh.fusbReadMessage.2 with pool := pool}) := by
  unfold Shared.fusbReadMessage
  cases sh.phy.rxFifo <;> rfl

/-! ## Policy Engine -/

/-- `enum policy_engine_state`. -/
inductive PolicyEngineState where
  | sinkStartup
  | sinkDiscovery
  | sinkWaitCap
  | sinkEvalCap
  | sinkSelectCap
  | sinkTransitionSink
  | sinkReady
  | sinkGetSourceCap
  | sinkGiveSinkCap
  | sinkHardReset
  | sinkTransitionDefault
  | sinkSoftReset
  | sinkSendSoftReset
  | sinkSendNotSupported
  | sinkChunkReceived
  | sinkNotSupportedReceived
  | sinkSourceUnresponsive
  deriving DecidableEq

/-- The states in which `PESinkReady` starts a message sequence. -/
abbrev AmsState : Type :=
  {state : PolicyEngineState // state ∈ [.sinkGetSourceCap,.sinkEvalCap,.sinkSelectCap]}

/-- How a wait for the end of a transmission was answered. -/
inductive TxResult where
  | reset
  | failed
  | done
  deriving DecidableEq

/-- Where the Policy Engine stands inside a state function. -/
inductive PolicyEnginePoint where
  /-- At the first action of the state function. -/
  | start
  /-- About to return the message it works on to the pool. -/
  | dropMessage
  /-- About to signal the start of a message sequence, bound for a state. -/
  | startAms (next : AmsState)
  /-- A message is in Protocol TX's mailbox; about to signal that. -/
  | signalTx
  /-- Blocked until Protocol TX reports a result. -/
  | waitTx
  /-- The wait for a result is over. -/
  | sent (result : TxResult)
  /-- Blocked until the source responds. -/
  | waitResponse
  /-- `PDB_EVT_PE_MSG_RX` was taken; about to fetch the message. -/
  | fetch
  /-- A message was fetched; about to act on it. -/
  | handle
  /-- Blocked until the hard reset it asked for was sent. -/
  | waitHardSent
  /-- About to tell the Hard Reset thread that it is done. -/
  | signalDone
  deriving DecidableEq

/-- Locals of the Policy Engine thread. -/
structure PolicyEngine where
  /-- The state function being executed. -/
  state : PolicyEngineState
  /-- Where in it the thread stands. -/
  point : PolicyEnginePoint
  /-- The received message it works on. -/
  message : Option MsgPtr
  /-- The most recent Request. -/
  lastDpmRequest : Option MsgPtr
  /-- The message a state function allocated for transmission. -/
  sending : Option MsgPtr
  /-- Whether there is an explicit contract. -/
  explicitContract : Bool
  /-- Whether the sink is receiving minimum power. -/
  minPower : Bool
  /-- Number of hard resets sent. -/
  hardResetCounter : ℕ
  /-- Result of the last Type-C Current comparison; minus one before any. -/
  oldTccMatch : ℤ
  /-- Position of the first programmable supply, eight when there is none. -/
  ppsIndex : ℕ
  /-- Position of the programmable supply just requested. -/
  lastPps : ℕ

/-! ## Protocol layer -/

/-- Where Protocol RX stands. -/
inductive ProtocolRxPoint where
  | waitPhy
  | readPhy
  | resetCounter
  | resetStoredId
  | resetSignalTx
  | resetPoll
  | checkPoll
  | checkCompare
  | dropMessage
  | storeSignalTx
  | storeMessageid
  | storePost
  | storeSignalPe
  deriving DecidableEq

/-- Locals of the Protocol RX thread. -/
structure ProtocolRx where
  /-- Where the thread stands. -/
  point : ProtocolRxPoint
  /-- The message it works on. -/
  message : Option MsgPtr

/-- Where Protocol TX stands. -/
inductive ProtocolTxPoint where
  | phyReset
  | phyResetReport
  | waitMessage
  | fetchMessage
  | resetCounter
  | resetSignalRx
  | constructPoll
  | constructHeader
  | constructAms
  | constructSinkTxOk
  | constructSend
  | waitResponse
  | matchRead
  /-- Holding what it read as the GoodCRC. -/
  | matchCompare (goodcrc : PdMsg)
  | transmissionError
  | transmissionErrorSignal
  | messageSent
  | messageSentSignal
  | discardMessage
  deriving DecidableEq

/-- Locals of the Protocol TX thread. -/
structure ProtocolTx where
  /-- Where the thread stands. -/
  point : ProtocolTxPoint
  /-- The message it works on. -/
  message : Option MsgPtr

/-- Where the Hard Reset thread stands. While it resets the layers it
remembers whether the Policy Engine started the reset. -/
inductive HardResetPoint where
  | resetLayer
  | resetRxMessageid (byPe : Bool)
  | resetTxCounter (byPe : Bool)
  | resetSignalRx (byPe : Bool)
  | resetSignalTx (byPe : Bool)
  | indicateHardReset
  | requestHardReset
  | waitPhy
  | hardResetRequested
  | waitPe
  | complete
  deriving DecidableEq

/-- Locals of the Hard Reset thread. -/
structure HardReset where
  /-- Where the thread stands. -/
  point : HardResetPoint

/-- Where the polling thread stands, with the interrupts it has read. -/
inductive IntNPoint where
  | poll
  | signalRx (status : Interrupts) (ovrTemp : Bool)
  | signalTx (status : Interrupts) (ovrTemp : Bool)
  | signalHardReset (status : Interrupts) (ovrTemp : Bool)
  | signalPe (status : Interrupts) (ovrTemp : Bool)

/-- Locals of the polling thread. -/
structure IntN where
  /-- Where the thread stands. -/
  point : IntNPoint

end UsbPdFirmware.FirmwareState
