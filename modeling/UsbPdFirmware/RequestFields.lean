import UsbPdFirmware.RequestedObject

/-!
# Reading a Request

The fields of a Request as its receiver reads them. Requests for fixed and for
programmable supplies use the same bits differently, so the object that is
asked for tells which fields there are.
-/

namespace UsbPdFirmware.RequestFields

open PdMessage BitFields DevicePolicy RequestedObject

/-! ## Fields -/

/-- Operating current of a Request for a fixed supply, in units of 10 mA. -/
def operatingCurrent (request : PdMsg) : ℕ := fieldGet 10 (0xFFC00 : BitVec 32) (request.object 0)

/-- Its lower field: the maximum current, or the minimum one with GiveBack. -/
def limitCurrent (request : PdMsg) : ℕ := fieldGet 0 (0x3FF : BitVec 32) (request.object 0)

/-- Voltage of a Request for a programmable supply, in units of 20 mV. -/
def programmedVoltage (request : PdMsg) : ℕ := fieldGet 9 (0xFFE00 : BitVec 32) (request.object 0)

/-- Its current, in units of 50 mA. -/
def programmedCurrent (request : PdMsg) : ℕ := fieldGet 0 (0x7F : BitVec 32) (request.object 0)

/-- The bit that reports a capability mismatch. -/
def mismatchBit (request : PdMsg) : Bool := request.object 0 &&& pdRdoCapMismatch != 0

/-- The bit that offers GiveBack. -/
def givebackBit (request : PdMsg) : Bool := request.object 0 &&& pdRdoGiveback != 0

/-- Bits without a meaning in a Request for a fixed supply, or for a message
format that is not used. -/
def fixedRest : BitVec 32 := 0x00F00000

/-- The same for a programmable supply, which knows no GiveBack. -/
def programmableRest : BitVec 32 := 0x08F00180

/-- A Request laid out for a fixed supply. -/
structure FixedLayout (request : PdMsg) (giveback : Bool) (current : ℕ) : Prop where
  /-- The operating current. -/
  operating : operatingCurrent request=current
  /-- The lower field. -/
  limit : limitCurrent request=if giveback then dpmMinCurrent else current
  /-- GiveBack. -/
  givebackBit : givebackBit request=giveback
  /-- No other bit. -/
  rest : request.object 0 &&& fixedRest=0

/-- A Request laid out for a programmable supply. -/
structure ProgrammableLayout (request : PdMsg) (voltage current : ℕ) : Prop where
  /-- The voltage. -/
  voltage : programmedVoltage request=voltage
  /-- The current. -/
  current : programmedCurrent request=current
  /-- No other bit. -/
  rest : request.object 0 &&& programmableRest=0

/-! ## Requests that are built -/

section Build

variable {hdr : BitVec 16} {usbComms : Bool} {request : PdMsg}

/-- Outside the bit for USB communications the object is the one built. -/
theorem buildRequest_object {rdo k : BitVec 32} (h : pdRdoUsbComms &&& k=0) :
    (buildRequest hdr usbComms request rdo).object 0 &&& k=rdo &&& k := buildRequest_and h

/-- A field of a Request, from the part of its object that the mask leaves. -/
theorem fieldGet_buildRequest {shift width i : ℕ} {mask rdo : BitVec 32}
    (hmask : mask=BitVec.ofNat 32 (2^width-1) <<< shift) (hw : shift+width ≤ 32) (hi : i < 2^width)
    (husb : pdRdoUsbComms &&& mask=0) (hrdo : rdo &&& mask=fieldSet shift mask i &&& mask) :
    fieldGet shift mask ((buildRequest hdr usbComms request rdo).object 0)=i := by
  have hobj : (buildRequest hdr usbComms request rdo).object 0 &&& mask=rdo &&& mask :=
    buildRequest_object husb
  exact (fieldGet_congr (hobj.trans hrdo) shift).trans (fieldGet_fieldSet_of_lt hmask hw hi)

/-- The two current fields of a Request for a fixed supply. -/
theorem fixedRdo_operating (scfg : PdbsConfig) (current i : ℕ) :
    fixedRdo scfg current i &&& 0xFFC00=pdRdoFvCurrentSet current &&& 0xFFC00 := by
  have hpos : pdRdoObjposSet i &&& 0xFFC00=0 := fieldSet_and (by decide) _ _
  unfold fixedRdo
  split
  · have hmin : pdRdoFvMinCurrentSet dpmMinCurrent &&& 0xFFC00=0 := fieldSet_and (by decide) _ _
    rw [or_and_right hpos,or_and_right (by decide),or_and_right (by decide),or_and_left hmin]
  · have hmax : pdRdoFvMaxCurrentSet current &&& 0xFFC00=0 := fieldSet_and (by decide) _ _
    rw [or_and_right hpos,or_and_right (by decide),or_and_left hmax]

theorem fixedRdo_limit (scfg : PdbsConfig) (current i : ℕ) :
    fixedRdo scfg current i &&& 0x3FF=
      pdRdoFvMaxCurrentSet (if scfg.giveback then dpmMinCurrent else current) &&& 0x3FF := by
  have hpos : pdRdoObjposSet i &&& 0x3FF=0 := fieldSet_and (by decide) _ _
  have hcur : pdRdoFvCurrentSet current &&& 0x3FF=0 := fieldSet_and (by decide) _ _
  unfold fixedRdo
  split
  · rw [or_and_right hpos,or_and_right (by decide),or_and_right (by decide),or_and_right hcur]
    rfl
  · rw [or_and_right hpos,or_and_right (by decide),or_and_right hcur]

/-- GiveBack is all the flags of a configuration add. -/
theorem fixedRdo_giveback (scfg : PdbsConfig) (current i : ℕ) :
    fixedRdo scfg current i &&& pdRdoGiveback=if scfg.giveback then pdRdoGiveback else 0 := by
  have hpos : pdRdoObjposSet i &&& pdRdoGiveback=0 := fieldSet_and (by decide) _ _
  have hcur : pdRdoFvCurrentSet current &&& pdRdoGiveback=0 := fieldSet_and (by decide) _ _
  have hmin : pdRdoFvMinCurrentSet dpmMinCurrent &&& pdRdoGiveback=0 := fieldSet_and (by decide) _ _
  have hmax : pdRdoFvMaxCurrentSet current &&& pdRdoGiveback=0 := fieldSet_and (by decide) _ _
  have hsus : pdRdoNoUsbSuspend &&& pdRdoGiveback=0 := by decide
  unfold fixedRdo
  split
  · rw [or_and_right hpos,or_and_left (or_and_zero (or_and_zero hmin hcur) hsus)]
    rfl
  · rw [or_and_right hpos]
    exact or_and_zero (or_and_zero hmax hcur) hsus

/-- Bits outside every part. -/
theorem fixedRdo_rest {k : BitVec 32} (hpos : (0x70000000 : BitVec 32) &&& k=0)
    (hop : (0xFFC00 : BitVec 32) &&& k=0) (hlim : (0x3FF : BitVec 32) &&& k=0)
    (hsus : pdRdoNoUsbSuspend &&& k=0) (hgive : pdRdoGiveback &&& k=0) (scfg : PdbsConfig)
    (current i : ℕ) : fixedRdo scfg current i &&& k=0 := by
  have hp : pdRdoObjposSet i &&& k=0 := fieldSet_and hpos _ _
  have hc : pdRdoFvCurrentSet current &&& k=0 := fieldSet_and hop _ _
  have hl (j : ℕ) : pdRdoFvMaxCurrentSet j &&& k=0 := fieldSet_and hlim _ _
  unfold fixedRdo
  split
  · exact or_and_zero (or_and_zero (or_and_zero (or_and_zero (hl _) hc) hsus) hgive) hp
  · exact or_and_zero (or_and_zero (or_and_zero (hl _) hc) hsus) hp

/-- What is built for a fixed supply is laid out for one. -/
theorem fixedLayout_buildRequest (scfg : PdbsConfig) {current : ℕ} (i : ℕ) (h : current < 2^10) :
    FixedLayout (buildRequest hdr usbComms request (fixedRdo scfg current i)) scfg.giveback current := by
  constructor
  · have hmask : (0xFFC00 : BitVec 32)=BitVec.ofNat 32 (2^10-1) <<< 10 := by decide
    exact fieldGet_buildRequest hmask (by omega) h (by decide) (fixedRdo_operating scfg current i)
  · have hlimit : (if scfg.giveback then dpmMinCurrent else current) < 2^10 := by
      split
      · decide
      · exact h
    have hmask : (0x3FF : BitVec 32)=BitVec.ofNat 32 (2^10-1) <<< 0 := by decide
    exact fieldGet_buildRequest hmask (by omega) hlimit (by decide) (fixedRdo_limit scfg current i)
  · unfold givebackBit
    rw [buildRequest_object (by decide),fixedRdo_giveback]
    cases scfg.giveback <;> rfl
  · rw [buildRequest_object (by decide)]
    exact fixedRdo_rest (by decide) (by decide) (by decide) (by decide) (by decide) scfg current i

/-- And so is what is built for a programmable one. -/
theorem programmableLayout_buildRequest {voltage current : ℕ} (i : ℕ) (hv : voltage < 2^11)
    (hc : current < 2^7) :
    ProgrammableLayout (buildRequest hdr usbComms request
      (pdRdoProgCurrentSet current ||| pdRdoProgVoltageSet voltage ||| pdRdoNoUsbSuspend |||
        pdRdoObjposSet i)) voltage current := by
  constructor
  · have hmask : (0xFFE00 : BitVec 32)=BitVec.ofNat 32 (2^11-1) <<< 9 := by decide
    refine fieldGet_buildRequest hmask (by omega) hv (by decide) ?_
    have hpos : pdRdoObjposSet i &&& 0xFFE00=0 := fieldSet_and (by decide) _ _
    have hcur : pdRdoProgCurrentSet current &&& 0xFFE00=0 := fieldSet_and (by decide) _ _
    rw [or_and_right hpos,or_and_right (by decide),or_and_left hcur]
    rfl
  · have hmask : (0x7F : BitVec 32)=BitVec.ofNat 32 (2^7-1) <<< 0 := by decide
    refine fieldGet_buildRequest hmask (by omega) hc (by decide) ?_
    have hpos : pdRdoObjposSet i &&& 0x7F=0 := fieldSet_and (by decide) _ _
    have hvolt : pdRdoProgVoltageSet voltage &&& 0x7F=0 := fieldSet_and (by decide) _ _
    rw [or_and_right hpos,or_and_right (by decide),or_and_right hvolt]
    rfl
  · rw [buildRequest_object (by decide)]
    have hpos : pdRdoObjposSet i &&& programmableRest=0 := fieldSet_and (by decide) _ _
    have hcur : pdRdoProgCurrentSet current &&& programmableRest=0 := fieldSet_and (by decide) _ _
    have hvolt : pdRdoProgVoltageSet voltage &&& programmableRest=0 := fieldSet_and (by decide) _ _
    exact or_and_zero (or_and_zero (or_and_zero hcur hvolt) (by decide)) hpos

/-- Neither reports a mismatch. -/
theorem mismatchBit_fixed (scfg : PdbsConfig) (current i : ℕ) :
    mismatchBit (buildRequest hdr usbComms request (fixedRdo scfg current i))=false := by
  unfold mismatchBit
  rw [buildRequest_object (by decide),
    fixedRdo_rest (by decide) (by decide) (by decide) (by decide) (by decide)]
  rfl

theorem mismatchBit_programmable (voltage current i : ℕ) :
    mismatchBit (buildRequest hdr usbComms request
      (pdRdoProgCurrentSet current ||| pdRdoProgVoltageSet voltage ||| pdRdoNoUsbSuspend |||
        pdRdoObjposSet i))=false := by
  have hpos : pdRdoObjposSet i &&& pdRdoCapMismatch=0 := fieldSet_and (by decide) _ _
  have hcur : pdRdoProgCurrentSet current &&& pdRdoCapMismatch=0 := fieldSet_and (by decide) _ _
  have hvolt : pdRdoProgVoltageSet voltage &&& pdRdoCapMismatch=0 := fieldSet_and (by decide) _ _
  unfold mismatchBit
  rw [buildRequest_object (by decide),or_and_zero (or_and_zero (or_and_zero hcur hvolt) (by decide)) hpos]
  rfl

/-- The fallback reports one while the output is enabled. -/
theorem mismatchBit_fallback (outputEnabled : Bool) :
    mismatchBit (fallbackRequest hdr usbComms request outputEnabled).request=outputEnabled := by
  unfold mismatchBit fallbackRequest
  dsimp only
  rw [buildRequest_object (by decide)]
  cases outputEnabled <;> decide

end Build

end UsbPdFirmware.RequestFields
