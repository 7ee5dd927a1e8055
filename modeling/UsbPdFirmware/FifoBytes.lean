import UsbPdFirmware.ByteStreams
import UsbPdFirmware.FirmwareState

/-!
# Messages as bytes of the FIFOs

`fusb_read_message` and `fusb_send_message` down to the bytes they transfer.
Both take the length of a message from its own header, which the reader has
only after it has read the first two bytes.
-/

namespace UsbPdFirmware.FifoBytes

open PdMessage FirmwareState ByteStreams

/-! ## The union -/

/-- A byte of the union: the header, then the objects, all little-endian. -/
def bytes (m : PdMsg) (i : ℕ) : BitVec 8 :=
  if i < 2 then byte m.hdr i else byte (m.object ((i-2)/4)) ((i-2)%4)

/-- The union with these bytes. -/
def ofBytes (f : ℕ → BitVec 8) : PdMsg where
  hdr := word 16 f
  obj := fun k => word 32 fun j => f (2+4*k.val+j)

/-- The union after bytes have been written to it. -/
def writeBytes (m : PdMsg) (offset : ℕ) (values : List (BitVec 8)) : PdMsg :=
  ofBytes (overwrite (bytes m) offset values)

/-- A byte of an object. -/
theorem bytes_object (m : PdMsg) (k : Fin 7) {j : ℕ} (hj : j < 4) :
    bytes m (2+4*k.val+j)=byte (m.obj k) j := by
  have hdiv : (2+4*k.val+j-2)/4=k.val := by omega
  have hmod : (2+4*k.val+j-2)%4=j := by omega
  unfold bytes PdMsg.object
  rw [if_neg (by omega),hdiv,hmod,Fin.ofNat_eq_cast,Fin.cast_val_eq_self]

/-- Bytes that are those of a message spell it. -/
theorem ofBytes_eq {f : ℕ → BitVec 8} {m : PdMsg} (h : ∀ i < 30, f i=bytes m i) : ofBytes f=m := by
  have hhdr : word 16 f=m.hdr := by
    rw [← word_byte (k := 2) rfl m.hdr]
    refine word_congr (k := 2) rfl fun j hj => ?_
    rw [h j (by omega)]
    exact if_pos hj
  have hobj : (fun k : Fin 7 => word 32 fun j => f (2+4*k.val+j))=m.obj := by
    funext k
    rw [← word_byte (k := 4) rfl (m.obj k)]
    refine word_congr (k := 4) rfl fun j hj => ?_
    rw [h _ (by omega),bytes_object m k hj]
  unfold ofBytes
  rw [hhdr,hobj]

/-! ## Reading and sending -/

/-- The FIFO register. -/
def fusbFifos : BitVec 8 := 0x43
def fusbFifoTxTxon : BitVec 8 := 0xA1
def fusbFifoTxSop1 : BitVec 8 := 0x12
def fusbFifoTxSop2 : BitVec 8 := 0x13
def fusbFifoTxPacksym : BitVec 8 := 0x80
def fusbFifoTxJamCrc : BitVec 8 := 0xFF
def fusbFifoTxEop : BitVec 8 := 0x14
def fusbFifoTxTxoff : BitVec 8 := 0xFE
/-- The bits of a token that tell what follows. -/
def fusbFifoRxTokenBits : BitVec 8 := 0xE0
def fusbFifoRxSop : BitVec 8 := 0xE0

section Read

variable (empty : BitVec 8)

/-- Read a byte; an empty FIFO gives what the PHY has it give. -/
def fusbReadByte (fifo : List (BitVec 8)) : BitVec 8 × List (BitVec 8) :=
  (fifo.headD empty,fifo.tail)

/-- Read several bytes. -/
def fusbReadBuf (size : ℕ) (fifo : List (BitVec 8)) : List (BitVec 8) × List (BitVec 8) :=
  (fifo.takeD size empty,fifo.drop size)

/-- `fusb_read_message`: its result, the buffer it was given, and what is left
in the FIFO. -/
def fusbReadMessage (msg : PdMsg) (fifo : List (BitVec 8)) : (ℕ × PdMsg) × List (BitVec 8) :=
  let (token,fifo) := fusbReadByte empty fifo
  if token &&& fusbFifoRxTokenBits≠fusbFifoRxSop then ((1,msg),fifo)
  else
    let (header,fifo) := fusbReadBuf empty 2 fifo
    let msg := writeBytes msg 0 header
    let numobj := msg.numobjGet
    let (msg,fifo) :=
      if 0 < numobj then
        let (objects,fifo) := fusbReadBuf empty (numobj*4) fifo
        (writeBytes msg 2 objects,fifo)
      else (msg,fifo)
    let (_garbage,fifo) := fusbReadBuf empty 4 fifo
    ((0,msg),fifo)

end Read

/-- `fusb_write_buf`: the address, and so many bytes of a buffer. -/
def fusbWriteBuf (addr : BitVec 8) (size : ℕ) (buf : ℕ → BitVec 8) : List (BitVec 8) :=
  addr::(List.range size).map buf

/-- The tokens that begin a transmission. -/
def sopSeq (msgLen : ℕ) : List (BitVec 8) :=
  [fusbFifoTxSop1,fusbFifoTxSop1,fusbFifoTxSop1,fusbFifoTxSop2,fusbFifoTxPacksym ||| BitVec.ofNat 8 msgLen]

/-- The tokens that end it. -/
def eopSeq : List (BitVec 8) := [fusbFifoTxJamCrc,fusbFifoTxEop,fusbFifoTxTxoff,fusbFifoTxTxon]

/-- `fusb_send_message`: three transfers to the FIFO. -/
def fusbSendMessage (msg : PdMsg) : List (List (BitVec 8)) :=
  let msgLen := 2+4*msg.numobjGet
  [fusbWriteBuf fusbFifos 5 fun i => (sopSeq msgLen).getD i 0,
    fusbWriteBuf fusbFifos msgLen (bytes msg),
    fusbWriteBuf fusbFifos 4 fun i => eopSeq.getD i 0]

/-! ## Frames -/

/-- The header and the objects it counts. -/
def payload (m : PdMsg) : List (BitVec 8) :=
  littleEndian 2 m.hdr++(List.range m.numobjGet).flatMap fun k => littleEndian 4 (m.object k)

/-- A received message in the FIFO. -/
structure Frame where
  /-- The token before the message. -/
  token : BitVec 8
  /-- The message. -/
  message : PdMsg
  /-- The checksum after it. -/
  crc : List (BitVec 8)
  /-- The token is that of SOP. -/
  token_sop : token &&& fusbFifoRxTokenBits=fusbFifoRxSop
  /-- The checksum has four bytes. -/
  crc_length : crc.length=4

/-- Its bytes. -/
def Frame.bytes (f : Frame) : List (BitVec 8) := f.token::payload f.message++f.crc

/-- A buffer that a message was read into: its header and the objects it
counts are new. -/
def received (buf m : PdMsg) : PdMsg where
  hdr := m.hdr
  obj := fun k => if k.val < m.numobjGet then m.obj k else buf.obj k

section Payload

variable (m : PdMsg)

/-- The objects as one sequence of bytes. -/
theorem objects_eq : ((List.range m.numobjGet).flatMap fun k => littleEndian 4 (m.object k))=
    (List.range (m.numobjGet*4)).map fun j => byte (m.object (j/4)) (j%4) :=
  flatMap_chunks (fun k => byte (m.object k)) (by omega) _

theorem objects_length :
    ((List.range m.numobjGet).flatMap fun k => littleEndian 4 (m.object k)).length=m.numobjGet*4 := by
  rw [objects_eq,List.length_map,List.length_range]

/-- The payload has two bytes and four for each object. -/
theorem payload_length : (payload m).length=2+4*m.numobjGet := by
  rw [payload,List.length_append,littleEndian_length,objects_length,Nat.mul_comm]

/-- It is at the beginning of the union. -/
theorem payload_eq : payload m=(List.range (2+4*m.numobjGet)).map (bytes m) := by
  have hheader : littleEndian 2 m.hdr=(List.range 2).map (bytes m) :=
    List.map_congr_left fun i hi => (if_pos (List.mem_range.mp hi)).symm
  have hobjects : (List.range (m.numobjGet*4)).map (fun j => byte (m.object (j/4)) (j%4))=
      ((List.range (4*m.numobjGet)).map (2+·)).map (bytes m) := by
    rw [List.map_map,Nat.mul_comm]
    refine List.map_congr_left fun j _ => ?_
    change _=bytes m (2+j)
    unfold bytes
    rw [if_neg (by omega),Nat.add_sub_cancel_left]
  rw [payload,objects_eq,hheader,hobjects,← List.map_append,← List.range_add]

end Payload

/-! ## Round trip -/

section Write

variable (buf m : PdMsg)

/-- Writing a header leaves the objects. -/
theorem writeBytes_header : writeBytes buf 0 (littleEndian 2 m.hdr)={buf with hdr := m.hdr} := by
  refine ofBytes_eq fun i hi => ?_
  rw [littleEndian,overwrite_map_range]
  unfold bytes
  by_cases hlow : i < 2
  · rw [if_pos (by omega),if_pos hlow,Nat.sub_zero]
  · rw [if_neg (by omega),if_neg hlow,if_neg hlow]
    rfl

/-- An object of a buffer that was read into. -/
theorem received_object {k : ℕ} (hk : k < 7) : (received buf m).object k=
    if k < m.numobjGet then m.object k else buf.object k := by
  have hval : (Fin.ofNat 7 k).val=k := Nat.mod_eq_of_lt hk
  change (if (Fin.ofNat 7 k).val < m.numobjGet then _ else _)=_
  rw [hval]
  rfl

/-- Without objects only the header is new. -/
theorem received_bare (h : m.numobjGet=0) : received buf m={buf with hdr := m.hdr} := by
  have hobj : (fun k : Fin 7 => if k.val < m.numobjGet then m.obj k else buf.obj k)=buf.obj := by
    funext k
    rw [if_neg (by omega)]
  unfold received
  rw [hobj]

/-- Writing the objects that the header counts leaves the others. -/
theorem writeBytes_objects : writeBytes {buf with hdr := m.hdr} 2
    ((List.range m.numobjGet).flatMap fun k => littleEndian 4 (m.object k))=received buf m := by
  refine ofBytes_eq fun i hi => ?_
  rw [objects_eq,overwrite_map_range]
  unfold bytes
  by_cases hlow : i < 2
  · rw [if_neg (by omega),if_pos hlow,if_pos hlow]
    rfl
  · rw [if_neg hlow,if_neg hlow,received_object buf m (by omega)]
    by_cases hcounted : (i-2)/4 < m.numobjGet
    · rw [if_pos (by omega),if_pos hcounted]
    · rw [if_neg (by omega),if_neg hcounted]
      rfl

end Write

section Roundtrip

variable (empty : BitVec 8)

/-- Reading several bytes that are there. -/
theorem fusbReadBuf_append {values : List (BitVec 8)} {size : ℕ} (h : values.length=size)
    (rest : List (BitVec 8)) : fusbReadBuf empty size (values++rest)=(values,rest) := by
  rw [fusbReadBuf,List.takeD_left' h,List.drop_left' h]

/-- Reading takes exactly one frame. -/
theorem fusbReadMessage_frame (buf : PdMsg) (f : Frame) (rest : List (BitVec 8)) :
    fusbReadMessage empty buf (f.bytes++rest)=((0,received buf f.message),rest) := by
  have htoken : fusbReadByte empty (f.bytes++rest)=(f.token,payload f.message++(f.crc++rest)) := by
    rw [← List.append_assoc]
    rfl
  have hheader (values : List (BitVec 8)) : fusbReadBuf empty 2 (littleEndian 2 f.message.hdr++values)=
      (littleEndian 2 f.message.hdr,values) := fusbReadBuf_append empty (littleEndian_length _ _) _
  have hcrc : fusbReadBuf empty 4 (f.crc++rest)=(f.crc,rest) := fusbReadBuf_append empty f.crc_length rest
  unfold fusbReadMessage
  rw [htoken]
  dsimp only
  rw [if_neg (not_not.mpr f.token_sop),payload,List.append_assoc,hheader]
  dsimp only
  rw [writeBytes_header]
  have hnum : PdMsg.numobjGet {buf with hdr := f.message.hdr}=f.message.numobjGet := rfl
  rw [hnum]
  by_cases hpos : 0 < f.message.numobjGet
  · rw [if_pos hpos,fusbReadBuf_append empty (objects_length f.message)]
    dsimp only
    rw [writeBytes_objects,hcrc]
  · have hnone : ((List.range f.message.numobjGet).flatMap fun k => littleEndian 4 (f.message.object k))=[] := by
      rw [Nat.eq_zero_of_not_pos hpos]
      rfl
    rw [if_neg hpos,hnone,List.nil_append,hcrc,received_bare _ _ (Nat.eq_zero_of_not_pos hpos)]

/-- Messages that were received one after the other are read one after the
other without an error, each header and the objects it counts into its own
buffer, which is otherwise left alone, and the FIFO is empty then. A message
that is sent is preceded by its length and written as the same bytes. -/
theorem fifo_roundtrip (frames : List (PdMsg × Frame)) :
    readEach (fusbReadMessage empty) (frames.map Prod.fst) (frames.flatMap fun x => x.2.bytes)=
        (frames.map fun x => (0,received x.1 x.2.message),[]) ∧
      ∀ m : PdMsg, ∃ token, fusbSendMessage m=
          [[fusbFifos,fusbFifoTxSop1,fusbFifoTxSop1,fusbFifoTxSop1,fusbFifoTxSop2,token],
            fusbFifos::payload m,fusbFifos::eopSeq] ∧
        (token &&& 0x1F).toNat=(payload m).length ∧ (payload m).length=2+4*m.numobjGet ∧
          (payload m).length ≤ 30 := by
  refine ⟨?_,fun m => ⟨fusbFifoTxPacksym ||| BitVec.ofNat 8 (2+4*m.numobjGet),?_,?_,payload_length m,?_⟩⟩
  · rw [← List.append_nil (frames.flatMap fun x => x.2.bytes)]
    exact readEach_frames (fusbReadMessage_frame empty) frames []
  · rw [payload_eq]
    rfl
  · have hseven := m.numobjGet_le
    rw [payload_length]
    generalize m.numobjGet=n at hseven
    interval_cases n <;> rfl
  · rw [payload_length]
    have hseven := m.numobjGet_le
    omega

end Roundtrip

/-! ## Without a message -/

section Failure

variable {empty : BitVec 8} {buf : PdMsg} {fifo : List (BitVec 8)}

/-- A read fails exactly when the first token is not that of SOP. -/
theorem fusbReadMessage_fails_iff : (fusbReadMessage empty buf fifo).1.1=1 ↔
    fifo.headD empty &&& fusbFifoRxTokenBits≠fusbFifoRxSop := by
  unfold fusbReadMessage fusbReadByte
  dsimp only
  by_cases h : fifo.headD empty &&& fusbFifoRxTokenBits=fusbFifoRxSop
  · rw [if_neg (not_not.mpr h)]
    exact ⟨fun hzero => absurd hzero Nat.zero_ne_one,fun hne => absurd h hne⟩
  · rw [if_pos h]
    exact ⟨fun _ => h,fun _ => rfl⟩

/-- Then it leaves the buffer as it was. -/
theorem fusbReadMessage_failed (h : (fusbReadMessage empty buf fifo).1.1=1) :
    (fusbReadMessage empty buf fifo).1.2=buf := by
  have htoken := fusbReadMessage_fails_iff.mp h
  unfold fusbReadMessage fusbReadByte
  dsimp only
  rw [if_pos htoken]

/-- Where packets stand for frames, read into a block with the same contents,
the threads read what is in the bytes. With no frame left the read fails, if
an empty FIFO gives no SOP token. -/
theorem fusbReadMessage_packets {sh : Shared} {origin : Frame → PacketOrigin} {frames : List Frame}
    (hempty : empty &&& fusbFifoRxTokenBits≠fusbFifoRxSop)
    (h : sh.phy.rxFifo=frames.map fun f => ⟨origin f,received sh.junk f.message⟩) :
    (fusbReadMessage empty sh.junk (frames.flatMap Frame.bytes)).1=
        (if frames.isEmpty then 1 else 0,sh.fusbReadMessage.1) ∧
      (frames≠[] → (fusbReadMessage empty sh.junk (frames.flatMap Frame.bytes)).2=
          frames.tail.flatMap Frame.bytes) ∧
      sh.fusbReadMessage.2.phy.rxFifo=frames.tail.map fun f => ⟨origin f,received sh.junk f.message⟩ := by
  unfold Shared.fusbReadMessage
  rw [h]
  cases frames with
  | nil =>
    have hfail : (fusbReadMessage empty sh.junk ([] : List (BitVec 8))).1.1=1 :=
      fusbReadMessage_fails_iff.mpr hempty
    exact ⟨Prod.ext hfail (fusbReadMessage_failed hfail),fun hne => absurd rfl hne,h⟩
  | cons f rest =>
    rw [List.flatMap_cons,fusbReadMessage_frame]
    exact ⟨rfl,fun _ => rfl,rfl⟩

end Failure

end UsbPdFirmware.FifoBytes
