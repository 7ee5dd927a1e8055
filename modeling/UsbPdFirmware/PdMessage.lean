import Mathlib.Data.BitVec
import Mathlib.Tactic.IntervalCases

/-!
# Power Delivery messages

The message union, the header fields, the data object fields and the unit
conversions of the library's `pd.h` and `pdb_msg.h`, as far as the protocol
layer, the Policy Engine and the Device Policy Manager use them. Halfwords
and objects keep their widths; numbers read out of a field are naturals.
-/

namespace UsbPdFirmware.PdMessage

/-! ## Bit fields -/

/-- Read a field: `(word & MASK) >> SHIFT`. -/
def fieldGet {w : ℕ} (shift : ℕ) (mask word : BitVec w) : ℕ := ((word &&& mask) >>> shift).toNat

/-- Place a field: `(i << SHIFT) & MASK`. Bits that do not fit are cut off. -/
def fieldSet {w : ℕ} (shift : ℕ) (mask : BitVec w) (i : ℕ) : BitVec w :=
  (BitVec.ofNat w i <<< shift) &&& mask

/-- A field's value is bounded by its mask alone. -/
theorem fieldGet_le {w : ℕ} (shift : ℕ) (mask word : BitVec w) :
    fieldGet shift mask word ≤ mask.toNat/2^shift := by
  simp only [fieldGet,BitVec.toNat_ushiftRight,Nat.shiftRight_eq_div_pow,BitVec.toNat_and]
  exact Nat.div_le_div_right Nat.and_le_right

/-- Clearing a mask and placing a value inside it leaves exactly that value
under the mask. -/
theorem and_of_replace {w : ℕ} (word value mask : BitVec w) (h : value &&& mask=value) :
    ((word &&& ~~~mask) ||| value) &&& mask=value := by
  rw [← h]
  ext i hi
  simp only [BitVec.getElem_and,BitVec.getElem_or,BitVec.getElem_not]
  cases word[i] <;> cases mask[i] <;> cases value[i] <;> rfl

/-- A message: the header halfword and seven data objects. The extended
header shares its bytes with the low half of the first object. -/
structure PdMsg where
  /-- Message header. -/
  hdr : BitVec 16
  /-- The data objects, whether or not the header counts them. -/
  obj : Fin 7 → BitVec 32

instance : DecidableEq PdMsg := fun a b =>
  decidable_of_iff (a.hdr=b.hdr ∧ ∀ i, a.obj i=b.obj i) (by
    cases a
    cases b
    simp only [PdMsg.mk.injEq,funext_iff])

/-! ## Header -/

/-- Bits of the message type. -/
def pdHdrMsgtype : BitVec 16 := 0x001F
/-- Bits of the specification revision. -/
def pdHdrSpecrev : BitVec 16 := 0x00C0
/-- Bits of the MessageID. -/
def pdHdrMessageid : BitVec 16 := 0x0E00
/-- Position of the MessageID. -/
def pdHdrMessageidShift : ℕ := 9
/-- Bits of the number of data objects. -/
def pdHdrNumobj : BitVec 16 := 0x7000
/-- Position of the number of data objects. -/
def pdHdrNumobjShift : ℕ := 12
/-- The Extended bit. -/
def pdHdrExt : BitVec 16 := 0x8000

-- Control messages.
def pdMsgtypeGoodcrc : BitVec 16 := 0x01
def pdMsgtypeGotomin : BitVec 16 := 0x02
def pdMsgtypeAccept : BitVec 16 := 0x03
def pdMsgtypeReject : BitVec 16 := 0x04
def pdMsgtypePing : BitVec 16 := 0x05
def pdMsgtypePsRdy : BitVec 16 := 0x06
def pdMsgtypeGetSourceCap : BitVec 16 := 0x07
def pdMsgtypeGetSinkCap : BitVec 16 := 0x08
def pdMsgtypeDrSwap : BitVec 16 := 0x09
def pdMsgtypePrSwap : BitVec 16 := 0x0A
def pdMsgtypeVconnSwap : BitVec 16 := 0x0B
def pdMsgtypeWait : BitVec 16 := 0x0C
def pdMsgtypeSoftReset : BitVec 16 := 0x0D
def pdMsgtypeNotSupported : BitVec 16 := 0x10

-- Data messages, which share their numbers with the control messages.
def pdMsgtypeSourceCapabilities : BitVec 16 := 0x01
def pdMsgtypeRequest : BitVec 16 := 0x02
def pdMsgtypeSinkCapabilities : BitVec 16 := 0x04
def pdMsgtypeVendorDefined : BitVec 16 := 0x0F

-- Specification revisions and roles, in place in the header.
def pdSpecrev10 : BitVec 16 := 0x0000
def pdSpecrev20 : BitVec 16 := 0x0040
def pdSpecrev30 : BitVec 16 := 0x0080
def pdDataroleUfp : BitVec 16 := 0x0000
def pdPowerroleSink : BitVec 16 := 0x0000

/-- The object count field for a header under construction. -/
def pdNumobj (n : ℕ) : BitVec 16 := fieldSet pdHdrNumobjShift pdHdrNumobj n

/-- Longest extended message that fits one chunk. -/
def pdMaxExtMsgLegacyLen : ℕ := 26

namespace PdMsg

/-- Message type of the header. -/
def msgtypeGet (m : PdMsg) : BitVec 16 := m.hdr &&& pdHdrMsgtype

/-- Number of data objects in the header. -/
def numobjGet (m : PdMsg) : ℕ := fieldGet pdHdrNumobjShift pdHdrNumobj m.hdr

/-- MessageID of the header. -/
def messageidGet (m : PdMsg) : ℕ := fieldGet pdHdrMessageidShift pdHdrMessageid m.hdr

/-- The test for a control message: the type, and no object. -/
def isControl (m : PdMsg) (msgtype : BitVec 16) : Bool := m.msgtypeGet==msgtype && m.numobjGet==0

/-- The test for a data message: the type, and at least one object. -/
def isData (m : PdMsg) (msgtype : BitVec 16) : Bool := m.msgtypeGet==msgtype && decide (0 < m.numobjGet)

/-- A data message has an object. -/
theorem numobjGet_pos {m : PdMsg} {msgtype : BitVec 16} (h : m.isData msgtype=true) :
    0 < m.numobjGet := by
  simp only [isData,Bool.and_eq_true,decide_eq_true_eq] at h
  exact h.2

/-- Data size field of the extended header, which is read out of the first
two bytes of the first object. -/
def dataSizeGet (m : PdMsg) : ℕ := fieldGet 0 (0x01FF : BitVec 16) ((m.obj 0).setWidth 16)

/-- Data object by its index, which every loop of the source keeps below the
object count and so below seven. -/
def object (m : PdMsg) (i : ℕ) : BitVec 32 := m.obj (Fin.ofNat 7 i)

/-- The block with another header and another first object; the other objects
stay as they were. -/
def rewrite (m : PdMsg) (hdr : BitVec 16) (first : BitVec 32) : PdMsg where
  hdr := hdr
  obj := Function.update m.obj 0 first

/-- The header with the MessageID field replaced by a counter modulo eight. -/
def setMessageid (m : PdMsg) (counter : ℕ) : PdMsg :=
  {m with hdr := (m.hdr &&& ~~~pdHdrMessageid) ||| (BitVec.ofNat 16 (counter%8) <<< pdHdrMessageidShift)}

/-- An object count is at most seven. -/
theorem numobjGet_le (m : PdMsg) : m.numobjGet ≤ 7 :=
  fieldGet_le pdHdrNumobjShift pdHdrNumobj m.hdr

/-- The stamped MessageID is the counter modulo eight, whatever the header
held before. -/
theorem messageidGet_setMessageid (m : PdMsg) (counter : ℕ) :
    (m.setMessageid counter).messageidGet=counter%8 := by
  have hc : counter%8 < 8 := Nat.mod_lt _ (by omega)
  simp only [messageidGet,fieldGet,setMessageid]
  generalize counter%8=c at hc
  rw [and_of_replace]
  · interval_cases c <;> rfl
  · interval_cases c <;> rfl

end PdMsg

/-- A pointer into the message pool, together with what its block holds. The
block tells owners apart; the contents travel with the pointer. Where a block
has two owners at once, that falls short of the memory they share: there every
block has one content (`SharedBlocks.sharing`). -/
structure MsgPtr where
  /-- Which block of the pool. -/
  block : ℕ
  /-- Contents of the block as its present owner left them. -/
  msg : PdMsg

/-! ## Power data objects -/

def pdPdoType : BitVec 32 := 0xC0000000
def pdPdoTypeFixed : BitVec 32 := 0x00000000
def pdPdoTypeAugmented : BitVec 32 := 0xC0000000
def pdApdoType : BitVec 32 := 0x30000000
def pdApdoTypePps : BitVec 32 := 0x00000000

/-- Unconstrained power, in the first object of the source. -/
def pdPdoSrcFixedUnconstrained : BitVec 32 := 0x08000000
/-- Current of a fixed source object, in units of 10 mA. -/
def pdPdoSrcFixedCurrentGet (pdo : BitVec 32) : ℕ := fieldGet 0 (0x3FF : BitVec 32) pdo
/-- Voltage of a fixed source object, in units of 50 mV. -/
def pdPdoSrcFixedVoltageGet (pdo : BitVec 32) : ℕ := fieldGet 10 (0xFFC00 : BitVec 32) pdo

/-- Upper voltage of a programmable supply, in units of 100 mV. -/
def pdApdoPpsMaxVoltageGet (pdo : BitVec 32) : ℕ := fieldGet 17 (0x1FE0000 : BitVec 32) pdo
/-- Lower voltage of a programmable supply, in units of 100 mV. -/
def pdApdoPpsMinVoltageGet (pdo : BitVec 32) : ℕ := fieldGet 8 (0xFF00 : BitVec 32) pdo
/-- Current of a programmable supply, in units of 50 mA. -/
def pdApdoPpsCurrentGet (pdo : BitVec 32) : ℕ := fieldGet 0 (0x7F : BitVec 32) pdo
def pdApdoPpsMaxVoltageSet (v : ℕ) : BitVec 32 := fieldSet 17 0x1FE0000 v
def pdApdoPpsMinVoltageSet (v : ℕ) : BitVec 32 := fieldSet 8 0xFF00 v
def pdApdoPpsCurrentSet (i : ℕ) : BitVec 32 := fieldSet 0 0x7F i

def pdPdoSnkFixedHigherCap : BitVec 32 := 0x10000000
def pdPdoSnkFixedUnconstrained : BitVec 32 := 0x08000000
def pdPdoSnkFixedUsbComms : BitVec 32 := 0x04000000
def pdPdoSnkFixedVoltage : BitVec 32 := 0xFFC00
def pdPdoSnkFixedCurrent : BitVec 32 := 0x3FF
def pdPdoSnkFixedVoltageSet (v : ℕ) : BitVec 32 := fieldSet 10 pdPdoSnkFixedVoltage v
def pdPdoSnkFixedCurrentSet (i : ℕ) : BitVec 32 := fieldSet 0 pdPdoSnkFixedCurrent i

/-! ## Request data objects -/

def pdRdoGiveback : BitVec 32 := 0x08000000
def pdRdoCapMismatch : BitVec 32 := 0x04000000
def pdRdoUsbComms : BitVec 32 := 0x02000000
def pdRdoNoUsbSuspend : BitVec 32 := 0x01000000
def pdRdoObjposSet (i : ℕ) : BitVec 32 := fieldSet 28 0x70000000 i
def pdRdoFvCurrentSet (i : ℕ) : BitVec 32 := fieldSet 10 0xFFC00 i
def pdRdoFvMaxCurrentSet (i : ℕ) : BitVec 32 := fieldSet 0 0x3FF i
def pdRdoFvMinCurrentSet (i : ℕ) : BitVec 32 := fieldSet 0 0x3FF i
def pdRdoProgVoltageSet (i : ℕ) : BitVec 32 := fieldSet 9 0xFFE00 i
def pdRdoProgCurrentSet (i : ℕ) : BitVec 32 := fieldSet 0 0x7F i

/-- Object position in the Request a message holds. -/
def pdRdoObjposGet (m : PdMsg) : ℕ := fieldGet 28 (0x70000000 : BitVec 32) (m.obj 0)

/-! ## Units -/

def pdMv2Prv (mv : ℕ) : ℕ := mv/20
def pdMv2Pdv (mv : ℕ) : ℕ := mv/50
def pdMv2Pav (mv : ℕ) : ℕ := mv/100
def pdPrv2Mv (prv : ℕ) : ℕ := prv*20
def pdPdv2Mv (pdv : ℕ) : ℕ := pdv*50
def pdPav2Mv (pav : ℕ) : ℕ := pav*100
def pdMa2Ca (ma : ℕ) : ℕ := (ma+10-1)/10
def pdMa2Pdi (ma : ℕ) : ℕ := (ma+10-1)/10
def pdCa2Pai (ca : ℕ) : ℕ := (ca+5-1)/5

/-- Largest current that can be requested, in centiamperes. -/
def pdCaMax : ℕ := pdMa2Ca 5000

/-- Hard resets after which the source counts as unresponsive. -/
def pdNHardResetCount : ℕ := 2

end UsbPdFirmware.PdMessage
