import UsbPdFirmware.BusSections
import UsbPdFirmware.FifoBytes

/-!
# The driver of the PHY

The functions of `fusb302b.c` as transfers on the I2C bus, which every one of
them acquires first and releases last. Several threads call them, and two of
them read messages. What the PHY answers is left open.
-/

namespace UsbPdFirmware.FusbDriver

open LabelledRuns Machine PdMessage BusSections FifoBytes ByteStreams

/-! ## Registers -/

def fusbSwitches0 : BitVec 8 := 0x02
def fusbSwitches1 : BitVec 8 := 0x03
def fusbControl0 : BitVec 8 := 0x06
def fusbControl1 : BitVec 8 := 0x07
def fusbControl3 : BitVec 8 := 0x09
def fusbMask1 : BitVec 8 := 0x0A
def fusbPower : BitVec 8 := 0x0B
def fusbResetRegister : BitVec 8 := 0x0C
def fusbMaska : BitVec 8 := 0x0E
def fusbMaskb : BitVec 8 := 0x0F
def fusbStatus0a : BitVec 8 := 0x3C
def fusbStatus0 : BitVec 8 := 0x40

def fusbControl1RxFlush : BitVec 8 := 0x04
def fusbControl3SendHardReset : BitVec 8 := 0x40
def fusbResetSwRes : BitVec 8 := 0x01
def fusbResetPdReset : BitVec 8 := 0x02
/-- The voltage on the CC line. -/
def fusbStatus0BcLvl : BitVec 8 := 0x03

def fusbSwitches0MeasCc2 : BitVec 8 := 0x08
def fusbSwitches0MeasCc1 : BitVec 8 := 0x04
def fusbSwitches0Pdwn2 : BitVec 8 := 0x02
def fusbSwitches0Pdwn1 : BitVec 8 := 0x01
/-- Revision 2.0 in the headers of GoodCRCs. -/
def fusbSwitches1Specrev20 : BitVec 8 := 0x20
/-- The PHY answers with GoodCRCs on its own. -/
def fusbSwitches1AutoCrc : BitVec 8 := 0x04
def fusbSwitches1Txcc2 : BitVec 8 := 0x02
def fusbSwitches1Txcc1 : BitVec 8 := 0x01
/-- No interrupt reaches the pin. -/
def fusbControl0IntMask : BitVec 8 := 0x20
def fusbControl3NRetries : BitVec 8 := 0x06
def fusbControl3AutoRetry : BitVec 8 := 0x01

/-! ## Transfers -/

/-- `i2cMasterTransmit`: what is written, and how many bytes are read then. -/
structure Transfer where
  /-- The bytes written; the first is the address. -/
  txbuf : List (BitVec 8)
  /-- How many bytes are read. -/
  rxbytes : ℕ

/-- The answer has as many bytes as are read. -/
def fits (t : Transfer) (reply : List (BitVec 8)) : Bool := reply.length==t.rxbytes

/-- What a function of the driver gives back. -/
inductive Returned where
  | nothing
  /-- The result of `fusb_read_message`, and its buffer. -/
  | message (result : ℕ) (msg : PdMsg)
  | status (bytes : List (BitVec 8))
  | typecCurrent (bcLvl : BitVec 8)

/-- What `fusb_read_message` gives back. -/
def Returned.read : Returned → List (ℕ × PdMsg)
  | .message result msg => [(result,msg)]
  | _ => []

/-- A function of the driver while it holds the bus. The memory is the last
byte of the static `sop_seq`. -/
abbrev Routine := Script (BitVec 8) Transfer (List (BitVec 8)) Returned

/-- `fusb_write_byte`. -/
def writeByte (addr byte : BitVec 8) (next : Routine) : Routine :=
  .transfer (fun _ => ⟨[addr,byte],0⟩) fun _ => next

/-- `fusb_read_byte`. -/
def readByte (addr : BitVec 8) (next : BitVec 8 → Routine) : Routine :=
  .transfer (fun _ => ⟨[addr],1⟩) fun reply => next (reply.headD 0)

/-- `fusb_read_buf`. -/
def readBuf (addr : BitVec 8) (size : ℕ) (next : List (BitVec 8) → Routine) : Routine :=
  .transfer (fun _ => ⟨[addr],size⟩) next

/-- `fusb_write_buf`, of a buffer that may be `sop_seq`. -/
def writeBuf (addr : BitVec 8) (size : ℕ) (buf : BitVec 8 → ℕ → BitVec 8) (next : Routine) : Routine :=
  .transfer (fun last => ⟨fusbWriteBuf addr size (buf last),0⟩) fun _ => next

/-- The tokens before a message, with the last one as it is in memory. -/
def sopTokens (last : BitVec 8) : List (BitVec 8) :=
  [fusbFifoTxSop1,fusbFifoTxSop1,fusbFifoTxSop1,fusbFifoTxSop2,last]

/-- `fusb_send_message`. -/
def sendMessage (msg : PdMsg) : Routine :=
  let msgLen := 2+4*msg.numobjGet
  .store (fun _ => fusbFifoTxPacksym ||| BitVec.ofNat 8 msgLen) <|
    writeBuf fusbFifos 5 (fun last i => (sopTokens last).getD i 0) <|
    writeBuf fusbFifos msgLen (fun _ => bytes msg) <|
    writeBuf fusbFifos 4 (fun _ i => eopSeq.getD i 0) <|
    .done .nothing

/-- `fusb_read_message`. -/
def readMessage (msg : PdMsg) : Routine :=
  readByte fusbFifos fun token =>
    if token &&& fusbFifoRxTokenBits≠fusbFifoRxSop then .done (.message 1 msg)
    else
      readBuf fusbFifos 2 fun header =>
        let msg := writeBytes msg 0 header
        let numobj := msg.numobjGet
        if 0 < numobj then
          readBuf fusbFifos (numobj*4) fun objects =>
            readBuf fusbFifos 4 fun _garbage => .done (.message 0 (writeBytes msg 2 objects))
        else readBuf fusbFifos 4 fun _garbage => .done (.message 0 msg)

/-- `fusb_send_hardrst`. -/
def sendHardrst : Routine := writeByte fusbControl3 (0x07 ||| fusbControl3SendHardReset) (.done .nothing)

/-- `fusb_get_status`. -/
def getStatus : Routine := readBuf fusbStatus0a 7 fun bytes => .done (.status bytes)

/-- `fusb_get_typec_current`. -/
def getTypecCurrent : Routine :=
  readByte fusbStatus0 fun status0 => .done (.typecCurrent (status0 &&& fusbStatus0BcLvl))

/-- `fusb_reset`. -/
def reset : Routine :=
  writeByte fusbControl0 0x44 <|
    writeByte fusbControl1 fusbControl1RxFlush <|
    writeByte fusbResetRegister fusbResetPdReset <|
    .done .nothing

/-- `fusb_setup`. -/
def setup : Routine :=
  writeByte fusbResetRegister fusbResetSwRes <|
    writeByte fusbPower 0x0F <|
    writeByte fusbMask1 0x00 <|
    writeByte fusbMaska 0x00 <|
    writeByte fusbMaskb 0x00 <|
    writeByte fusbControl0 0x04 <|
    writeByte fusbControl3 0x07 <|
    writeByte fusbControl1 fusbControl1RxFlush <|
    writeByte fusbSwitches0 0x07 <|
    readByte fusbStatus0 fun status =>
    let cc1 := status &&& fusbStatus0BcLvl
    writeByte fusbSwitches0 0x0B <|
    readByte fusbStatus0 fun status =>
    let cc2 := status &&& fusbStatus0BcLvl
    if cc2 < cc1 then
      writeByte fusbSwitches1 0x25 <|
        writeByte fusbSwitches0 0x07 <|
        writeByte fusbResetRegister fusbResetPdReset <|
        .done .nothing
    else
      writeByte fusbSwitches1 0x26 <|
        writeByte fusbSwitches0 0x0B <|
        writeByte fusbResetRegister fusbResetPdReset <|
        .done .nothing

/-- What threads call once `fusb_setup` has run. -/
inductive Call where
  | sendMessage (msg : PdMsg)
  | readMessage (msg : PdMsg)
  | sendHardrst
  | getStatus
  | getTypecCurrent
  | reset

/-- The message that is sent. -/
def Call.sent : Call → List PdMsg
  | .sendMessage msg => [msg]
  | _ => []

/-- The buffer that is read into. -/
def Call.buffer : Call → List PdMsg
  | .readMessage msg => [msg]
  | _ => []

/-- What each does while it holds the bus. -/
def script : Call → Routine
  | .sendMessage msg => FusbDriver.sendMessage msg
  | .readMessage msg => FusbDriver.readMessage msg
  | .sendHardrst => FusbDriver.sendHardrst
  | .getStatus => FusbDriver.getStatus
  | .getTypecCurrent => FusbDriver.getTypecCurrent
  | .reset => FusbDriver.reset

/-- The driver as any threads call it, with what happened on the bus. -/
def driver (Thread : Type) [DecidableEq Thread] :
    Machine (Bus Thread Call (BitVec 8) Transfer (List (BitVec 8)) Returned ×
      Log Thread Call Transfer (List (BitVec 8)) Returned) (BusSections.Event Thread Call (List (BitVec 8))) :=
  logged script fits fusbFifoTxPacksym

/-! ## The FIFO register -/

/-- A transfer and its answer. -/
abbrev Answered := Transfer × List (BitVec 8)

/-- The bytes written to the FIFO. -/
def fifoWrites (ts : List Answered) : List (BitVec 8) :=
  ts.flatMap fun t => if t.1.txbuf.head?=some fusbFifos then t.1.txbuf.tail else []

/-- The bytes read from the FIFO. -/
def fifoReads (ts : List Answered) : List (BitVec 8) :=
  ts.flatMap fun t => if t.1.txbuf=[fusbFifos] then t.2 else []

/-- What is written for a message. -/
def transmission (m : PdMsg) : List (BitVec 8) := sopSeq (2+4*m.numobjGet)++payload m++eopSeq

section Calls

variable {m m' : BitVec 8} {ts ts' : List Answered} {rest : Routine} {r : Returned} {msg : PdMsg}

theorem fifoWrites_append (ts ts' : List Answered) : fifoWrites (ts++ts')=fifoWrites ts++fifoWrites ts' :=
  List.flatMap_append

/-- Every transfer has an answer. -/
theorem exists_fits (t : Transfer) : ∃ reply, fits t reply=true :=
  ⟨List.replicate t.rxbytes 0,beq_iff_eq.mpr List.length_replicate⟩

/-- A write to the FIFO. -/
theorem fifoWrites_write (size : ℕ) (buf : ℕ → BitVec 8) (reply : List (BitVec 8)) (ts : List Answered) :
    fifoWrites ((⟨fusbWriteBuf fusbFifos size buf,0⟩,reply)::ts)=(List.range size).map buf++fifoWrites ts := by
  have hhead : (fusbWriteBuf fusbFifos size buf).head?=some fusbFifos := rfl
  rw [fifoWrites,List.flatMap_cons]
  dsimp only
  rw [if_pos hhead]
  rfl

/-- A read from the FIFO. -/
theorem fifoReads_read (size : ℕ) (reply : List (BitVec 8)) (ts : List Answered) :
    fifoReads ((⟨[fusbFifos],size⟩,reply)::ts)=reply++fifoReads ts := by
  rw [fifoReads,List.flatMap_cons]
  dsimp only
  rw [if_pos rfl]
  rfl

/-- What is written for a message, by three transfers. -/
theorem sendMessage_writes (h : Runs fits (sendMessage msg) m ts (.done r) m') :
    fifoWrites ts=transmission msg := by
  simp only [sendMessage,writeBuf,runs_store,runs_transfer,runs_done] at h
  obtain ⟨_,_,rfl,-,_,_,rfl,-,_,_,rfl,-,rfl,-⟩ := h
  rw [fifoWrites_write,fifoWrites_write,fifoWrites_write,← payload_eq]
  unfold transmission
  rw [List.append_assoc]
  rfl

/-- Writes of single bytes to registers once `fusb_setup` has run. -/
def controls : List (BitVec 8 × BitVec 8) :=
  [(fusbControl3,0x07 ||| fusbControl3SendHardReset),(fusbControl0,0x44),(fusbControl1,fusbControl1RxFlush),
    (fusbResetRegister,fusbResetPdReset)]

/-- The transfers of a call: who writes to the FIFO, and who reads from it. -/
inductive Made (c : Call) : Transfer → Prop where
  | control {addr v : BitVec 8} (h : (addr,v) ∈ controls) : Made c ⟨[addr,v],0⟩
  | read {addr : BitVec 8} (size : ℕ) (h : addr=fusbFifos → ∃ msg, c=.readMessage msg) :
      Made c ⟨[addr],size⟩
  | write {size : ℕ} (buf : ℕ → BitVec 8) (hsize : 0 < size) (h : ∃ msg, c=.sendMessage msg) :
      Made c ⟨fusbWriteBuf fusbFifos size buf,0⟩

/-- A call makes no other transfers. -/
theorem script_makes (c : Call) : (script c).Makes (Made c) := by
  have hcontrol {addr v : BitVec 8} (h : (addr,v) ∈ controls) : ∀ _ : BitVec 8, Made c ⟨[addr,v],0⟩ :=
    fun _ => .control h
  cases c with
  | sendMessage msg =>
    have hwrite {size : ℕ} (hsize : 0 < size) (buf : BitVec 8 → ℕ → BitVec 8) :
        ∀ last : BitVec 8, Made (.sendMessage msg) ⟨fusbWriteBuf fusbFifos size (buf last),0⟩ :=
      fun last => .write (buf last) hsize ⟨msg,rfl⟩
    have hlen : 0 < 2+4*msg.numobjGet := by omega
    exact ⟨hwrite (by decide) _,fun _ => ⟨hwrite hlen _,fun _ => ⟨hwrite (by decide) _,fun _ => trivial⟩⟩⟩
  | readMessage msg =>
    have hread (size : ℕ) : ∀ _ : BitVec 8, Made (.readMessage msg) ⟨[fusbFifos],size⟩ :=
      fun _ => .read size fun _ => ⟨msg,rfl⟩
    refine ⟨hread 1,fun token => ?_⟩
    change Script.Makes _ (if _ then _ else _)
    split
    · trivial
    · refine ⟨hread 2,fun header => ?_⟩
      change Script.Makes _ (if _ then _ else _)
      split
      · exact ⟨hread _,fun _ => ⟨hread 4,fun _ => trivial⟩⟩
      · exact ⟨hread 4,fun _ => trivial⟩
  | sendHardrst => exact ⟨hcontrol (by decide),fun _ => trivial⟩
  | getStatus => exact ⟨fun _ => .read 7 fun h => absurd h (by decide),fun _ => trivial⟩
  | getTypecCurrent => exact ⟨fun _ => .read 1 fun h => absurd h (by decide),fun _ => trivial⟩
  | reset =>
    exact ⟨hcontrol (by decide),fun _ => ⟨hcontrol (by decide),fun _ => ⟨hcontrol (by decide),fun _ => trivial⟩⟩⟩

/-- No call but one that sends writes to the FIFO. -/
theorem other_writes {c : Call} (hc : c.sent=[]) (h : Runs fits (script c) m ts rest m') :
    fifoWrites ts=[] := by
  refine List.flatMap_eq_nil_iff.mpr fun ⟨t,reply⟩ ht => ?_
  have hmade : Made c t := h.makes (script_makes c) _ ht
  cases hmade with
  | control hmem =>
    have hfirst : fusbFifos ∉ controls.map Prod.fst := by decide
    refine if_neg fun heq => hfirst ?_
    rw [← Option.some_inj.mp heq]
    exact List.mem_map_of_mem hmem
  | read size hread => exact ite_self []
  | write buf hsize hsend =>
    obtain ⟨msg,rfl⟩ := hsend
    exact absurd hc (List.cons_ne_nil msg [])

/-- No call but one that reads a message reads from the FIFO. -/
theorem other_reads {c : Call} (hc : c.buffer=[]) (h : Runs fits (script c) m ts rest m') :
    fifoReads ts=[] := by
  refine List.flatMap_eq_nil_iff.mpr fun ⟨t,reply⟩ ht => ?_
  have hmade : Made c t := h.makes (script_makes c) _ ht
  cases hmade with
  | control hmem => exact if_neg fun heq => absurd heq (by simp)
  | read size hread =>
    refine if_neg fun heq => ?_
    obtain ⟨msg,rfl⟩ := hread (List.singleton_inj.mp heq)
    exact absurd hc (List.cons_ne_nil msg [])
  | @write size buf hsize hsend =>
    have hlong : fusbWriteBuf fusbFifos size buf≠[fusbFifos] := by
      intro heq
      have hlength := congrArg List.length heq
      simp only [fusbWriteBuf,List.length_cons,List.length_map,List.length_range,List.length_nil] at hlength
      omega
    exact if_neg hlong

/-- One byte answers a read of one. -/
theorem exists_byte {addr : BitVec 8} {reply : List (BitVec 8)} (h : fits ⟨[addr],1⟩ reply=true) :
    ∃ b, reply=[b] := List.length_eq_one_iff.mp (beq_iff_eq.mp h)

/-- `fusb_read_message` on the bus is `fusb_read_message` on the bytes it is
given, and takes just those. -/
theorem readMessage_reads (empty : BitVec 8) (h : Runs fits (readMessage msg) m ts (.done r) m') :
    ∃ result buf, r=.message result buf ∧ ∀ rest, FifoBytes.fusbReadMessage empty msg (fifoReads ts++rest)=
      ((result,buf),rest) := by
  have hread (size : ℕ) {reply : List (BitVec 8)} (hf : fits ⟨[fusbFifos],size⟩ reply=true)
      (rest : List (BitVec 8)) : fusbReadBuf empty size (reply++rest)=(reply,rest) :=
    fusbReadBuf_append empty (beq_iff_eq.mp hf) rest
  have hbyte (token : BitVec 8) (values rest : List (BitVec 8)) :
      fusbReadByte empty ([token]++values++rest)=(token,values++rest) := rfl
  obtain ⟨_,ts,rfl,hf,h⟩ := runs_transfer.mp h
  obtain ⟨token,rfl⟩ := exists_byte hf
  rw [fifoReads_read]
  unfold FifoBytes.fusbReadMessage
  dsimp only [List.headD_cons] at h
  by_cases htoken : token &&& fusbFifoRxTokenBits=fusbFifoRxSop
  · rw [if_neg (not_not.mpr htoken)] at h
    obtain ⟨header,ts,rfl,hheader,h⟩ := runs_transfer.mp h
    rw [fifoReads_read]
    split at h
    · next hpos =>
      obtain ⟨objects,ts,rfl,hobjects,h⟩ := runs_transfer.mp h
      obtain ⟨garbage,ts,rfl,hgarbage,h⟩ := runs_transfer.mp h
      obtain ⟨rfl,rfl,-⟩ := runs_done.mp h
      rw [fifoReads_read,fifoReads_read]
      refine ⟨_,_,rfl,fun rest => ?_⟩
      rw [hbyte]
      dsimp only
      rw [if_neg (not_not.mpr htoken),List.append_assoc,hread 2 hheader]
      dsimp only
      rw [if_pos hpos,List.append_assoc,hread _ hobjects]
      dsimp only
      rw [List.append_assoc,hread 4 hgarbage]
      rfl
    · next hpos =>
      obtain ⟨garbage,ts,rfl,hgarbage,h⟩ := runs_transfer.mp h
      obtain ⟨rfl,rfl,-⟩ := runs_done.mp h
      rw [fifoReads_read]
      refine ⟨_,_,rfl,fun rest => ?_⟩
      rw [hbyte]
      dsimp only
      rw [if_neg (not_not.mpr htoken),List.append_assoc,hread 2 hheader]
      dsimp only
      rw [if_neg hpos]
      dsimp only
      rw [List.append_assoc,hread 4 hgarbage]
      rfl
  · rw [if_pos htoken] at h
    obtain ⟨rfl,rfl,-⟩ := runs_done.mp h
    refine ⟨_,_,rfl,fun rest => ?_⟩
    rw [hbyte]
    dsimp only
    rw [if_pos htoken]
    rfl

/-- What a call that is over has read: its buffer, and no other. -/
theorem call_reads {c : Call} (empty : BitVec 8) (h : Runs fits (script c) m ts (.done r) m')
    (rest : List (BitVec 8)) :
    readEach (FifoBytes.fusbReadMessage empty) c.buffer (fifoReads ts++rest)=(r.read,rest) := by
  have hother (hc : c.buffer=[]) (hr : r.read=[]) :
      readEach (FifoBytes.fusbReadMessage empty) c.buffer (fifoReads ts++rest)=(r.read,rest) := by
    rw [hc,hr,other_reads hc h]
    rfl
  cases c with
  | readMessage msg =>
    obtain ⟨result,buf,rfl,hread⟩ := readMessage_reads empty h
    unfold Call.buffer Returned.read readEach readEach
    rw [hread]
  | sendMessage msg =>
    simp only [script,sendMessage,writeBuf,runs_store,runs_transfer,runs_done] at h
    obtain ⟨_,_,-,-,_,_,-,-,_,_,-,-,-,rfl,-⟩ := h
    exact hother rfl rfl
  | sendHardrst =>
    simp only [script,sendHardrst,writeByte,runs_transfer,runs_done] at h
    obtain ⟨_,_,-,-,-,rfl,-⟩ := h
    exact hother rfl rfl
  | getStatus =>
    simp only [script,getStatus,FusbDriver.readBuf,runs_transfer,runs_done] at h
    obtain ⟨_,_,-,-,-,rfl,-⟩ := h
    exact hother rfl rfl
  | getTypecCurrent =>
    simp only [script,getTypecCurrent,readByte,runs_transfer,runs_done] at h
    obtain ⟨_,_,-,-,-,rfl,-⟩ := h
    exact hother rfl rfl
  | reset =>
    simp only [script,reset,writeByte,runs_transfer,runs_done] at h
    obtain ⟨_,_,-,-,_,_,-,-,_,_,-,-,-,rfl,-⟩ := h
    exact hother rfl rfl

/-- What a call that is over has written to the FIFO. -/
theorem call_writes {c : Call} (h : Runs fits (script c) m ts (.done r) m') :
    fifoWrites ts=c.sent.flatMap transmission := by
  cases c with
  | sendMessage msg => exact (sendMessage_writes h).trans (List.append_nil _).symm
  | _ => exact other_writes rfl h

end Calls

/-! ## In turn -/

section Driver

variable {Thread : Type}

/-- The transfers of calls that are over. -/
theorem logged_transfers (xs : List (BusSections.Section Thread Call Transfer (List (BitVec 8)) Returned)) :
    (xs.flatMap BusSections.Section.logged).map Prod.snd=xs.flatMap BusSections.Section.transfers := by
  rw [List.map_flatMap]
  refine List.flatMap_congr fun x _ => ?_
  unfold BusSections.Section.logged
  rw [List.map_map]
  exact List.map_id _

variable [DecidableEq Thread]
  {p : Bus Thread Call (BitVec 8) Transfer (List (BitVec 8)) Returned ×
    Log Thread Call Transfer (List (BitVec 8)) Returned}

/-- The transfers on the bus. -/
def transfers (log : Log Thread Call Transfer (List (BitVec 8)) Returned) : List Answered :=
  log.transfers.map Prod.snd

/-- The messages sent, in the order in which the bus was acquired for them. -/
def sent (log : Log Thread Call Transfer (List (BitVec 8)) Returned) : List PdMsg :=
  log.acquired.flatMap fun x => x.2.sent

/-- The bytes written to the FIFO are those of the messages sent, whole except
for the last while it is being sent. -/
theorem transmissions (h : (driver Thread).Reach anyStep p) :
    fifoWrites (transfers p.2) <+: (sent p.2).flatMap transmission ∧
      (p.1.holder=none → fifoWrites (transfers p.2)=(sent p.2).flatMap transmission) := by
  obtain ⟨-,sections,m,hturn,-,hheld⟩ := accounted_of_reach h
  have hall : fifoWrites (sections.flatMap BusSections.Section.transfers)=
      (sections.flatMap fun x => x.call.sent).flatMap transmission := by
    have heach := hturn.all (P := fun x => fifoWrites x.transfers=x.call.sent.flatMap transmission)
      fun x m m' hx => call_writes hx
    unfold fifoWrites
    rw [List.flatMap_assoc,List.flatMap_assoc]
    exact List.flatMap_congr heach
  cases hholder : p.1.holder with
  | none =>
    rw [hholder] at hheld
    obtain ⟨-,hacquired,htransfers⟩ := hheld
    have heq : fifoWrites (transfers p.2)=(sent p.2).flatMap transmission := by
      unfold transfers sent
      rw [htransfers,hacquired,logged_transfers,List.flatMap_map]
      exact hall
    exact ⟨by rw [heq],fun _ => heq⟩
  | some t =>
    rw [hholder] at hheld
    obtain ⟨c,rest,ts,-,hruns,hacquired,htransfers⟩ := hheld
    refine ⟨?_,fun hnone => absurd hnone (by simp)⟩
    obtain ⟨ts',r,m',hrest⟩ := Script.exists_done exists_fits rest p.1.memory
    have hcall := call_writes (hruns.trans hrest)
    rw [fifoWrites_append] at hcall
    have htail : (ts.map fun r => (t,r)).map Prod.snd=ts := by
      rw [List.map_map]
      exact List.map_id _
    unfold transfers sent
    rw [htransfers,hacquired,List.map_append,logged_transfers,htail,fifoWrites_append,List.flatMap_append,
      List.flatMap_map,List.flatMap_singleton,List.flatMap_append,hall,← hcall]
    exact ⟨fifoWrites ts',List.append_assoc _ _ _⟩

/-- A message the PHY is told to send: so many bytes behind the SOP tokens, a
checksum and the end. -/
def packet (fifo : List (BitVec 8)) : Option (List (BitVec 8)) × List (BitVec 8) :=
  match fifo with
  | a::b::c::d::token::rest =>
    let size := (token &&& ~~~fusbFifoRxTokenBits).toNat
    if [a,b,c,d]=[fusbFifoTxSop1,fusbFifoTxSop1,fusbFifoTxSop1,fusbFifoTxSop2] ∧
        token &&& fusbFifoRxTokenBits=fusbFifoTxPacksym ∧ (rest.drop size).take 4=eopSeq then
      (some (rest.take size),rest.drop (size+4))
    else (none,fifo)
  | _ => (none,fifo)

/-- The length is in the token before it. -/
theorem packet_transmission (m : PdMsg) (rest : List (BitVec 8)) :
    packet (transmission m++rest)=(some (payload m),rest) := by
  have hseven := m.numobjGet_le
  have hlength := payload_length m
  have htoken : ((fusbFifoTxPacksym ||| BitVec.ofNat 8 (2+4*m.numobjGet)) &&& ~~~fusbFifoRxTokenBits).toNat=
      (payload m).length ∧ (fusbFifoTxPacksym ||| BitVec.ofNat 8 (2+4*m.numobjGet)) &&& fusbFifoRxTokenBits=
        fusbFifoTxPacksym := by
    rw [hlength]
    generalize m.numobjGet=n at hseven
    interval_cases n <;> exact ⟨rfl,rfl⟩
  have hshape : transmission m++rest=fusbFifoTxSop1::fusbFifoTxSop1::fusbFifoTxSop1::fusbFifoTxSop2::
      (fusbFifoTxPacksym ||| BitVec.ofNat 8 (2+4*m.numobjGet))::(payload m++(eopSeq++rest)) := by
    unfold transmission
    rw [List.append_assoc,List.append_assoc]
    rfl
  have hend : ((payload m++(eopSeq++rest)).drop (payload m).length).take 4=eopSeq := by
    rw [List.drop_left]
    rfl
  have hafter : (payload m++(eopSeq++rest)).drop ((payload m).length+4)=rest := by
    rw [← List.drop_drop,List.drop_left]
    rfl
  rw [hshape]
  unfold packet
  dsimp only
  rw [htoken.1,if_pos ⟨rfl,htoken.2,hend⟩,List.take_left,hafter]

/-- Whichever threads send messages at the same time, and whatever else is
done on the bus: when no one holds it, the bytes written to the FIFO make the
PHY send exactly these messages, in the order in which the bus was acquired
for them. While someone holds it they are the beginning of such bytes. -/
theorem transmitted_in_turn (h : (driver Thread).Reach anyStep p) :
    fifoWrites (transfers p.2) <+: (sent p.2).flatMap transmission ∧
      (p.1.holder=none →
        readEach (fun _ : Unit => packet) ((sent p.2).map fun _ => ()) (fifoWrites (transfers p.2))=
          ((sent p.2).map fun m => some (payload m),[])) := by
  obtain ⟨hbegun,hall⟩ := transmissions h
  refine ⟨hbegun,fun hfree => ?_⟩
  have hframes := readEach_frames (fun _ : Unit => packet_transmission) ((sent p.2).map fun m => ((),m)) []
  rw [List.map_map,List.flatMap_map,List.map_map,List.append_nil] at hframes
  rw [hall hfree]
  exact hframes

/-- One thread sends a message, and another reads one meanwhile. -/
def sharing : List (BusSections.Event Bool Call (List (BitVec 8))) :=
  let message : PdMsg := ⟨0x1041,fun _ => 0⟩
  [.call false (.sendMessage message),.call true (.readMessage ⟨0,fun _ => 0⟩),.acquire false,.store false,
    .transfer false [],.transfer false [],.transfer false [],.release false,.acquire true,
    .transfer true [0xE0],.transfer true [0x63,0x03],.transfer true [1,2,3,4],.release true]

/-- The PHY is told to send the one. -/
theorem transmitted_in_turn_one : ∃ p, (driver Bool).Reach anyStep p ∧ (sent p.2).length=1 ∧
    p.1.holder=none ∧ fifoWrites (transfers p.2) <+: (sent p.2).flatMap transmission := by
  obtain ⟨p,hr,ht⟩ := exists_reach_of_follow (driver Bool) anyStep sharing
    (fun p => decide ((sent p.2).length=1 ∧ p.1.holder=none)) (by decide +kernel)
  obtain ⟨hone,hfree⟩ := of_decide_eq_true ht
  exact ⟨p,hr,hone,hfree,(transmitted_in_turn hr).1⟩

/-- What a read finds in the FIFO. -/
inductive Found where
  /-- A message that was received. -/
  | message (frame : Frame)
  /-- Nothing, and then the FIFO gives a byte that is no SOP token. -/
  | nothing (byte : BitVec 8) (h : byte &&& fusbFifoRxTokenBits≠fusbFifoRxSop)

/-- The bytes of it. -/
def Found.bytes : Found → List (BitVec 8)
  | .message frame => frame.bytes
  | .nothing byte _ => [byte]

/-- What `fusb_read_message` makes of it. -/
def Found.into (buf : PdMsg) : Found → ℕ × PdMsg
  | .message frame => (0,received buf frame.message)
  | .nothing _ _ => (1,buf)

/-- The buffers read into, in the order in which the bus was acquired for them. -/
def buffers (log : Log Thread Call Transfer (List (BitVec 8)) Returned) : List PdMsg :=
  log.acquired.flatMap fun x => x.2.buffer

/-- What the reads gave back. -/
def readResults (log : Log Thread Call Transfer (List (BitVec 8)) Returned) : List (ℕ × PdMsg) :=
  log.released.flatMap fun x => x.2.read

/-- One read takes what it finds. -/
theorem read_found (empty : BitVec 8) (buf : PdMsg) (found : Found) (rest : List (BitVec 8)) :
    FifoBytes.fusbReadMessage empty buf (found.bytes++rest)=(found.into buf,rest) := by
  cases found with
  | message frame => exact fusbReadMessage_frame empty buf frame rest
  | nothing byte h => exact if_pos h

/-- An empty FIFO stays empty. -/
theorem readEach_empty (empty : BitVec 8) (bufs : List PdMsg) :
    (readEach (FifoBytes.fusbReadMessage empty) bufs []).2=[] := by
  induction bufs with
  | nil => rfl
  | cons buf bufs ih =>
    have hread : (FifoBytes.fusbReadMessage empty buf []).2=[] := by
      unfold FifoBytes.fusbReadMessage fusbReadByte fusbReadBuf
      dsimp only
      split_ifs <;> simp
    rw [readEach]
    dsimp only
    rw [hread]
    exact ih

/-- Reads that take just these bytes found this, one thing each. -/
theorem readEach_found (empty : BitVec 8) {bufs : List PdMsg} {founds : List Found} {results : List (ℕ × PdMsg)}
    (h : ∀ rest, readEach (FifoBytes.fusbReadMessage empty) bufs (founds.flatMap Found.bytes++rest)=
      (results,rest)) :
    bufs.length=founds.length ∧ results=List.zipWith Found.into bufs founds := by
  induction bufs generalizing founds results with
  | nil =>
    have hnil := h []
    rw [List.append_nil] at hnil
    have hbytes : founds.flatMap Found.bytes=[] := congrArg Prod.snd hnil
    cases founds with
    | nil => exact ⟨rfl,(congrArg Prod.fst hnil).symm⟩
    | cons found founds =>
      rw [List.flatMap_cons] at hbytes
      have hfound : found.bytes=[] := (List.append_eq_nil_iff.mp hbytes).1
      cases found <;> exact absurd hfound (List.cons_ne_nil _ _)
  | cons buf bufs ih =>
    cases founds with
    | nil =>
      -- No SOP token: the first read takes it, and the byte cannot be left.
      have htoken : (0 : BitVec 8) &&& fusbFifoRxTokenBits≠fusbFifoRxSop := by decide
      have hzero : FifoBytes.fusbReadMessage empty buf [0]=((1,buf),[]) := if_pos htoken
      have hleft := congrArg Prod.snd (h [0])
      rw [List.flatMap_nil,List.nil_append,readEach] at hleft
      dsimp only at hleft
      rw [hzero,readEach_empty] at hleft
      exact absurd hleft (List.cons_ne_nil _ _).symm
    | cons found founds =>
      have hstep (rest : List (BitVec 8)) : found.into buf::
          (readEach (FifoBytes.fusbReadMessage empty) bufs (founds.flatMap Found.bytes++rest)).1=results ∧
          (readEach (FifoBytes.fusbReadMessage empty) bufs (founds.flatMap Found.bytes++rest)).2=rest := by
        have hrest := h rest
        rw [List.flatMap_cons,List.append_assoc,readEach,read_found] at hrest
        exact Prod.mk.inj hrest
      obtain ⟨first,others,rfl⟩ : ∃ first others, results=first::others := ⟨_,_,(hstep []).1.symm⟩
      have hfirst : found.into buf=first := (List.cons.inj (hstep []).1).1
      obtain ⟨hlength,hothers⟩ := ih fun rest =>
        Prod.ext (List.cons.inj (hstep rest).1).2 (hstep rest).2
      rw [List.length_cons,List.length_cons,List.zipWith_cons_cons,hlength,hfirst,hothers]
      exact ⟨rfl,rfl⟩

/-- Whichever threads read messages at the same time, and whatever else is
done on the bus: when no one holds it, the reads gave back what reads one
after the other give, in the order of acquiring, and they took all of the
bytes and no more. When the bytes are those of received messages, each of
these was given to one read. -/
theorem received_in_turn (h : (driver Thread).Reach anyStep p) (hfree : p.1.holder=none) :
    (∀ empty rest, readEach (FifoBytes.fusbReadMessage empty) (buffers p.2)
        (fifoReads (transfers p.2)++rest)=(readResults p.2,rest)) ∧
      ∀ founds, fifoReads (transfers p.2)=founds.flatMap Found.bytes →
        (buffers p.2).length=founds.length ∧
          readResults p.2=List.zipWith Found.into (buffers p.2) founds := by
  obtain ⟨-,sections,m,hturn,hreleased,hheld⟩ := accounted_of_reach h
  rw [hfree] at hheld
  obtain ⟨-,hacquired,htransfers⟩ := hheld
  have hreads : ∀ empty rest, readEach (FifoBytes.fusbReadMessage empty) (buffers p.2)
      (fifoReads (transfers p.2)++rest)=(readResults p.2,rest) := by
    intro empty rest
    have heach := hturn.all (P := fun x => ∀ rest, readEach (FifoBytes.fusbReadMessage empty) x.call.buffer
      (fifoReads x.transfers++rest)=(x.result.read,rest)) fun x m m' hx => call_reads empty hx
    unfold buffers transfers readResults
    rw [htransfers,hacquired,hreleased,logged_transfers,List.flatMap_map,List.flatMap_map]
    unfold fifoReads
    rw [List.flatMap_assoc]
    exact readEach_parts heach rest
  refine ⟨hreads,fun founds hfounds => ?_⟩
  exact readEach_found 0 fun rest => by rw [← hfounds,hreads 0 rest]

/-- The other is read. -/
theorem received_in_turn_one : ∃ p, (driver Bool).Reach anyStep p ∧ p.1.holder=none ∧
    (readResults p.2).length=1 ∧ ∀ empty rest, readEach (FifoBytes.fusbReadMessage empty) (buffers p.2)
      (fifoReads (transfers p.2)++rest)=(readResults p.2,rest) := by
  obtain ⟨p,hr,ht⟩ := exists_reach_of_follow (driver Bool) anyStep sharing
    (fun p => decide (p.1.holder=none ∧ (readResults p.2).length=1)) (by decide +kernel)
  obtain ⟨hfree,hone⟩ := of_decide_eq_true ht
  exact ⟨p,hr,hfree,hone,(received_in_turn hr hfree).1⟩

/-! ## What stays set up -/

/-- The values written to a register. -/
def writes (addr : BitVec 8) (ts : List Answered) : List (BitVec 8) :=
  ts.flatMap fun t => match t.1.txbuf with
    | [a,v] => if a=addr then [v] else []
    | _ => []

/-- The levels read from the CC lines. -/
def measured (ts : List Answered) : List (BitVec 8) :=
  ts.flatMap fun t => if t.1.txbuf=[fusbStatus0] then t.2.map (· &&& fusbStatus0BcLvl) else []

/-- What the registers hold when the first line has one level and the second
the other: the PHY measures and transmits on the line with the higher level,
answers with GoodCRCs, retries three times, and masks no interrupt. -/
structure Configured (cc1 cc2 : BitVec 8) (ts : List Answered) : Prop where
  /-- Both lines are pulled down, and one is measured. -/
  switches0 : (writes fusbSwitches0 ts).getLast?=some (fusbSwitches0Pdwn1 ||| fusbSwitches0Pdwn2 |||
    if cc2 < cc1 then fusbSwitches0MeasCc1 else fusbSwitches0MeasCc2)
  /-- It is the one messages are sent on. -/
  switches1 : (writes fusbSwitches1 ts).getLast?=some (fusbSwitches1Specrev20 ||| fusbSwitches1AutoCrc |||
    if cc2 < cc1 then fusbSwitches1Txcc1 else fusbSwitches1Txcc2)
  /-- All of the PHY is powered. -/
  power : (writes fusbPower ts).getLast?=some 0x0F
  /-- No interrupt is masked. -/
  masks : ∀ addr ∈ [fusbMask1,fusbMaska,fusbMaskb], (writes addr ts).getLast?=some 0
  /-- Nor are all of them. -/
  control0 : ∃ v, (writes fusbControl0 ts).getLast?=some v ∧ v &&& fusbControl0IntMask=0
  /-- Messages are repeated. -/
  control3 : ∃ v, (writes fusbControl3 ts).getLast?=some v ∧
    v &&& (fusbControl3NRetries ||| fusbControl3AutoRetry)=fusbControl3NRetries ||| fusbControl3AutoRetry

section Setup

variable {m m' : BitVec 8} {ts ts₀ : List Answered} {r : Returned} {cc1 cc2 : BitVec 8}

theorem writes_append (addr : BitVec 8) (ts ts' : List Answered) :
    writes addr (ts++ts')=writes addr ts++writes addr ts' := List.flatMap_append

/-- `fusb_setup` measures both lines and sets the PHY up for one of them. -/
theorem setup_configures (h : Runs fits setup m ts (.done r) m') :
    ∃ cc1 cc2, measured ts=[cc1,cc2] ∧ Configured cc1 cc2 ts := by
  have hmasks {ts : List Answered} (h1 : (writes fusbMask1 ts).getLast?=some 0)
      (ha : (writes fusbMaska ts).getLast?=some 0) (hb : (writes fusbMaskb ts).getLast?=some 0) :
      ∀ addr ∈ [fusbMask1,fusbMaska,fusbMaskb], (writes addr ts).getLast?=some 0 := by
    simp only [List.forall_mem_cons]
    exact ⟨h1,ha,hb,fun _ h => absurd h List.not_mem_nil⟩
  -- Nine registers are written before the lines are measured.
  simp only [setup,writeByte,readByte,runs_transfer] at h
  obtain ⟨_,_,rfl,-,_,_,rfl,-,_,_,rfl,-,_,_,rfl,-,_,_,rfl,-,_,_,rfl,-,_,_,rfl,-,_,_,rfl,-,_,_,rfl,-,h⟩ := h
  obtain ⟨_,_,rfl,hf,_,_,rfl,-,_,_,rfl,hf',h⟩ := h
  obtain ⟨b,rfl⟩ := exists_byte hf
  obtain ⟨b',rfl⟩ := exists_byte hf'
  refine ⟨b &&& fusbStatus0BcLvl,b' &&& fusbStatus0BcLvl,?_⟩
  rw [List.headD_cons,List.headD_cons] at h
  by_cases hlt : b' &&& fusbStatus0BcLvl < b &&& fusbStatus0BcLvl
  · simp only [if_pos hlt,runs_transfer,runs_done] at h
    obtain ⟨_,_,rfl,-,_,_,rfl,-,_,_,rfl,-,rfl,-⟩ := h
    refine ⟨rfl,?_,?_,rfl,hmasks rfl rfl rfl,⟨0x04,rfl,by decide⟩,0x07,rfl,by decide⟩
    · rw [if_pos hlt]
      rfl
    · rw [if_pos hlt]
      rfl
  · simp only [if_neg hlt,runs_transfer,runs_done] at h
    obtain ⟨_,_,rfl,-,_,_,rfl,-,_,_,rfl,-,rfl,-⟩ := h
    refine ⟨rfl,?_,?_,rfl,hmasks rfl rfl rfl,⟨0x04,rfl,by decide⟩,0x07,rfl,by decide⟩
    · rw [if_neg hlt]
      rfl
    · rw [if_neg hlt]
      rfl

/-- What the threads' transfers write to a register is among these values. -/
theorem made_writes {c : Call} {t : Transfer} (h : Made c t) {addr v : BitVec 8} (haddr : addr≠fusbFifos)
    (hv : t.txbuf=[addr,v]) : (addr,v) ∈ controls := by
  cases h with
  | control hmem =>
    cases hv
    exact hmem
  | read size hread => exact absurd hv (by simp)
  | write buf hsize hsend =>
    have hfirst : fusbFifos=addr := (List.cons.inj hv).1
    exact absurd hfirst.symm haddr

/-- Every transfer is one of a call. -/
theorem made_of_reach (h : (driver Thread).Reach anyStep p) :
    ∀ t ∈ transfers p.2, ∃ c, Made c t.1 := by
  obtain ⟨-,sections,m,hturn,-,hheld⟩ := accounted_of_reach h
  have hall : ∀ t ∈ sections.flatMap BusSections.Section.transfers, ∃ c, Made c t.1 := by
    intro t ht
    obtain ⟨x,hx,ht⟩ := List.mem_flatMap.mp ht
    have hmade := hturn.all (P := fun x => ∀ t ∈ x.transfers, Made x.call t.1)
      (fun x m m' hruns => hruns.makes (script_makes x.call)) x hx
    exact ⟨x.call,hmade t ht⟩
  cases hholder : p.1.holder with
  | none =>
    rw [hholder] at hheld
    obtain ⟨-,-,htransfers⟩ := hheld
    unfold transfers
    rw [htransfers,logged_transfers]
    exact hall
  | some holder =>
    rw [hholder] at hheld
    obtain ⟨c,rest,ts,-,hruns,-,htransfers⟩ := hheld
    have htail : (ts.map fun r => (holder,r)).map Prod.snd=ts := by
      rw [List.map_map]
      exact List.map_id _
    unfold transfers
    rw [htransfers,List.map_append,logged_transfers,htail]
    intro t ht
    rcases List.mem_append.mp ht with ht | ht
    · exact hall t ht
    · exact ⟨c,hruns.makes (script_makes c) t ht⟩

/-- What is written to a register after `fusb_setup`. -/
theorem writes_of_reach (h : (driver Thread).Reach anyStep p) {addr v : BitVec 8} (haddr : addr≠fusbFifos)
    (hv : v ∈ writes addr (transfers p.2)) : (addr,v) ∈ controls := by
  obtain ⟨t,ht,hv⟩ := List.mem_flatMap.mp hv
  obtain ⟨c,hmade⟩ := made_of_reach h t ht
  split at hv
  · next a w hbuf =>
    split at hv
    · next heq =>
      rw [List.mem_singleton.mp hv]
      exact made_writes hmade haddr (hbuf.trans (by rw [heq]))
    · exact absurd hv List.not_mem_nil
  · exact absurd hv List.not_mem_nil

/-- Whatever the threads do after `fusb_setup`, the PHY stays set up as it was:
for the CC line on which the higher level was measured. -/
theorem registers_kept (hsetup : Runs fits setup m ts₀ (.done r) m') (h : (driver Thread).Reach anyStep p) :
    ∃ cc1 cc2, measured ts₀=[cc1,cc2] ∧ Configured cc1 cc2 (ts₀++transfers p.2) := by
  obtain ⟨cc1,cc2,hmeasured,hset⟩ := setup_configures hsetup
  -- Registers that no thread writes to.
  have hkept {addr : BitVec 8} (haddr : addr ∉ fusbFifos::controls.map Prod.fst) :
      writes addr (ts₀++transfers p.2)=writes addr ts₀ := by
    rw [List.mem_cons,not_or] at haddr
    have hnone : writes addr (transfers p.2)=[] := List.eq_nil_iff_forall_not_mem.mpr fun v hv =>
      haddr.2 (List.mem_map_of_mem (writes_of_reach h haddr.1 hv))
    rw [writes_append,hnone,List.append_nil]
  -- Registers that threads write one value to.
  have hlast {addr v : BitVec 8} {P : BitVec 8 → Prop} (haddr : addr≠fusbFifos)
      (hcontrol : controls.all (fun x => x.1!=addr || x.2==v)=true) (hv : P v)
      (hfirst : ∃ v, (writes addr ts₀).getLast?=some v ∧ P v) :
      ∃ v, (writes addr (ts₀++transfers p.2)).getLast?=some v ∧ P v := by
    rw [writes_append,List.getLast?_append]
    cases hwritten : (writes addr (transfers p.2)).getLast? with
    | none => exact hfirst
    | some w =>
      have hw := List.all_eq_true.mp hcontrol _ (writes_of_reach h haddr (List.mem_of_getLast? hwritten))
      rw [Bool.or_eq_true,bne_self_eq_false,or_iff_right Bool.false_ne_true,beq_iff_eq] at hw
      have hw : w=v := hw
      exact ⟨w,rfl,hw ▸ hv⟩
  refine ⟨cc1,cc2,hmeasured,?_,?_,?_,fun addr haddr => ?_,?_,?_⟩
  · rw [hkept (by decide)]
    exact hset.switches0
  · rw [hkept (by decide)]
    exact hset.switches1
  · rw [hkept (by decide)]
    exact hset.power
  · have hmask : addr ∉ fusbFifos::controls.map Prod.fst := by
      simp only [List.mem_cons,List.not_mem_nil,or_false] at haddr
      rcases haddr with rfl | rfl | rfl <;> decide
    rw [hkept hmask]
    exact hset.masks addr haddr
  · exact hlast (v := 0x44) (by decide) (by decide) (by decide) hset.control0
  · exact hlast (v := 0x47) (by decide) (by decide) (by decide) hset.control3

/-- After `fusb_setup` one thread sends a message, and another reads one. -/
theorem registers_kept_sharing : ∃ ts₀ r m' p, Runs fits setup fusbFifoTxPacksym ts₀ (.done r) m' ∧
    (driver Bool).Reach anyStep p ∧ (transfers p.2).length=6 ∧
      ∃ cc1 cc2, measured ts₀=[cc1,cc2] ∧ Configured cc1 cc2 (ts₀++transfers p.2) := by
  obtain ⟨ts₀,r,m',hsetup⟩ := Script.exists_done exists_fits setup fusbFifoTxPacksym
  obtain ⟨p,hr,ht⟩ := exists_reach_of_follow (driver Bool) anyStep sharing
    (fun p => decide ((transfers p.2).length=6)) (by decide +kernel)
  exact ⟨ts₀,r,m',p,hsetup,hr,of_decide_eq_true ht,registers_kept hsetup hr⟩

end Setup

end Driver

end UsbPdFirmware.FusbDriver
