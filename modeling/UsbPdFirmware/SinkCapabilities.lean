import UsbPdFirmware.CurrentDivisor
import UsbPdFirmware.HeaderTemplate

/-!
# The sink's own capabilities

The objects that `pdbs_dpm_get_sink_capability` writes, for every configuration
of the shell and every stored message: a fixed supply of 5 V, up to two more in
the order of their voltages, and a programmable supply at the end.
-/

namespace UsbPdFirmware.SinkCapabilities

open PdMessage BitFields DevicePolicy LabelledRuns Machine HeaderTemplate
open RequestedObject CapabilitySelection
open ConfigStore ConfigStoreRuns ShellCommands ConfigRanges CurrentDivisor

/-! ## Reading a sink object -/

/-- Voltage of a fixed sink object, in units of 50 mV. -/
def pdPdoSnkFixedVoltageGet (pdo : BitVec 32) : ℕ := fieldGet 10 pdPdoSnkFixedVoltage pdo

/-- Its current, in units of 10 mA. -/
def pdPdoSnkFixedCurrentGet (pdo : BitVec 32) : ℕ := fieldGet 0 pdPdoSnkFixedCurrent pdo

/-- The bit that announces more than 5 V. -/
def higherCapBit (pdo : BitVec 32) : Bool := pdo &&& pdPdoSnkFixedHigherCap != 0

/-- The voltage field starts at its shift. -/
theorem voltageMask : pdPdoSnkFixedVoltage=BitVec.ofNat 32 (2^10-1) <<< 10 := by decide

theorem currentMask : pdPdoSnkFixedCurrent=BitVec.ofNat 32 (2^10-1) <<< 0 := by decide

section Fields

variable (v c : ℕ)

/-- A fixed object outside a mask that its current has no part in. -/
theorem sinkFixed_and_voltage {k : BitVec 32} (h : pdPdoSnkFixedCurrent &&& k=0) :
    sinkFixed v c &&& k=pdPdoSnkFixedVoltageSet v &&& k := by
  have htype : pdPdoTypeFixed &&& k=0 := BitVec.zero_and
  have hcur : pdPdoSnkFixedCurrentSet c &&& k=0 := fieldSet_and h _ _
  unfold sinkFixed
  rw [or_and_right hcur,or_and_left htype]

theorem sinkFixed_and_current {k : BitVec 32} (h : pdPdoSnkFixedVoltage &&& k=0) :
    sinkFixed v c &&& k=pdPdoSnkFixedCurrentSet c &&& k := by
  unfold sinkFixed
  have htype : (pdPdoTypeFixed ||| pdPdoSnkFixedVoltageSet v) &&& k=0 :=
    or_and_zero BitVec.zero_and (fieldSet_and h _ _)
  rw [or_and_left htype]

/-- Outside both fields it is empty. -/
theorem sinkFixed_and_rest {k : BitVec 32} (hv : pdPdoSnkFixedVoltage &&& k=0)
    (hc : pdPdoSnkFixedCurrent &&& k=0) : sinkFixed v c &&& k=0 := by
  rw [sinkFixed_and_voltage v c hc]
  exact fieldSet_and hv _ _

/-- It reads back, each field cut to its width. -/
theorem sinkFixed_voltage : pdPdoSnkFixedVoltageGet (sinkFixed v c)=v%2^10 := by
  have hpart := fieldGet_congr (sinkFixed_and_voltage v c (k := pdPdoSnkFixedVoltage) (by decide)) 10
  exact hpart.trans (fieldGet_fieldSet voltageMask (by omega) v)

theorem sinkFixed_current : pdPdoSnkFixedCurrentGet (sinkFixed v c)=c%2^10 := by
  have hpart := fieldGet_congr (sinkFixed_and_current v c (k := pdPdoSnkFixedCurrent) (by decide)) 0
  exact hpart.trans (fieldGet_fieldSet currentMask (by omega) c)

theorem sinkFixed_isFixed : isFixed (sinkFixed v c)=true := by
  have htype : sinkFixed v c &&& pdPdoType=0 := sinkFixed_and_rest v c (by decide) (by decide)
  unfold isFixed
  rw [htype]
  rfl

theorem sinkFixed_higherCap : higherCapBit (sinkFixed v c)=false := by
  have hbit : sinkFixed v c &&& pdPdoSnkFixedHigherCap=0 := sinkFixed_and_rest v c (by decide) (by decide)
  unfold higherCapBit
  rw [hbit]
  rfl

/-- Another current in the place of the present one. -/
theorem sinkFixed_raise (c' : ℕ) :
    (sinkFixed v c &&& ~~~pdPdoSnkFixedCurrent) ||| pdPdoSnkFixedCurrentSet c'=sinkFixed v c' := by
  have hclear : ~~~pdPdoSnkFixedCurrent &&& pdPdoSnkFixedVoltage=pdPdoSnkFixedVoltage := by decide
  have hvolt : pdPdoSnkFixedVoltageSet v &&& ~~~pdPdoSnkFixedCurrent=pdPdoSnkFixedVoltageSet v := by
    unfold pdPdoSnkFixedVoltageSet fieldSet
    rw [BitVec.and_assoc,BitVec.and_comm pdPdoSnkFixedVoltage,hclear]
  rw [sinkFixed_and_voltage v c (by decide),hvolt]
  have htype : pdPdoTypeFixed ||| pdPdoSnkFixedVoltageSet v=pdPdoSnkFixedVoltageSet v := BitVec.zero_or
  unfold sinkFixed
  rw [htype]

end Fields

/-! ## Sorting the last two -/

/-- Three exclusive ors exchange two words. -/
theorem xor_swap {w : ℕ} (a b : BitVec w) :
    (a ^^^ b) ^^^ (b ^^^ (a ^^^ b))=b ∧ b ^^^ (a ^^^ b)=a := by
  have hsecond : b ^^^ (a ^^^ b)=a := by
    rw [BitVec.xor_comm a b,← BitVec.xor_assoc,BitVec.xor_self,BitVec.zero_xor]
  refine ⟨?_,hsecond⟩
  rw [hsecond,BitVec.xor_comm a b,BitVec.xor_assoc,BitVec.xor_self,BitVec.xor_zero]

/-- The last two of three objects are exchanged when their voltages are out of
order. -/
theorem sortLastTwo_three (first a b : BitVec 32) :
    sortLastTwo [first,a,b]=
      if pdPdoSnkFixedVoltageGet b < pdPdoSnkFixedVoltageGet a then [first,b,a] else [first,a,b] := by
  obtain ⟨ha,hb⟩ := xor_swap a b
  unfold sortLastTwo
  dsimp only
  rw [ha,hb]
  simp only [and_lt_iff voltageMask]
  rfl

/-- No object is lost. -/
theorem sortLastTwo_perm (objs : List (BitVec 32)) : (sortLastTwo objs).Perm objs := by
  unfold sortLastTwo
  split
  · next first a b =>
    obtain ⟨ha,hb⟩ := xor_swap a b
    split
    · dsimp only
      rw [ha,hb]
      exact (List.Perm.swap a b []).cons first
    · exact .refl _
  · exact .refl _

/-! ## The objects written -/

section Objects

variable (scfg : PdbsConfig) (caps : PdMsg) (rev : BitVec 16)

/-- The configuration asks for 5 V, in units of 50 mV. -/
def wants5V : Prop := pdMv2Pdv scfg.v=pdMv2Pdv 5000

instance : Decidable (wants5V scfg) := inferInstanceAs (Decidable (_=_))

/-- The object for the configured voltage. -/
def configuredObject : BitVec 32 := sinkFixed (pdMv2Pdv scfg.v) (dpmGetCurrent scfg scfg.v)

/-- The object found in the voltage range, unless it is the first one or at
the configured voltage. -/
def rangeObject : Option (BitVec 32) :=
  let i := dpmGetRangeFixedPdoIndex caps scfg
  let range := caps.object i.toNat
  if 0 < i ∧ pdPdoSrcFixedVoltageGet range≠pdMv2Pdv scfg.v then
    some (sinkFixed (pdPdoSrcFixedVoltageGet range) (pdPdoSrcFixedCurrentGet range))
  else none

/-- The object for 5 V. It takes the configured current when 5 V are wanted or
lie in the range. -/
def firstObject : BitVec 32 :=
  if wants5V scfg ∨ dpmGetRangeFixedPdoIndex caps scfg=0 then
    sinkFixed (pdMv2Pdv 5000) (dpmGetCurrent scfg scfg.v)
  else sinkFixed (pdMv2Pdv 5000) dpmMinCurrent ||| pdPdoSnkFixedHigherCap

/-- The fixed objects after it. -/
def laterObjects : List (BitVec 32) :=
  if wants5V scfg then (rangeObject scfg caps).toList
  else match rangeObject scfg caps with
    | none => [configuredObject scfg]
    | some range =>
      if pdPdoSnkFixedVoltageGet range < pdPdoSnkFixedVoltageGet (configuredObject scfg) then
        [range,configuredObject scfg]
      else [configuredObject scfg,range]

/-- The programmable supply for the configured voltage, under PD 3.0. -/
def programmableObjects : List (BitVec 32) :=
  if pdSpecrev30 ≤ rev then
    [pdPdoTypeAugmented ||| pdApdoTypePps ||| pdApdoPpsMaxVoltageSet (pdMv2Pav scfg.v) |||
      pdApdoPpsMinVoltageSet (pdMv2Pav scfg.v) |||
      pdApdoPpsCurrentSet (pdCa2Pai (dpmGetCurrent scfg scfg.v))]
  else []

/-- An object found at index zero is not added. -/
theorem rangeObject_zero (h : dpmGetRangeFixedPdoIndex caps scfg=0) : rangeObject scfg caps=none := by
  unfold rangeObject
  rw [h]
  rfl

/-- With 5 V wanted there is no object for 5 V besides the configured one. -/
theorem objects_wants5V (h : wants5V scfg) :
    configuredObject scfg=firstObject scfg caps ∧ laterObjects scfg caps=(rangeObject scfg caps).toList := by
  have hv : pdMv2Pdv scfg.v=pdMv2Pdv 5000 := h
  unfold configuredObject firstObject laterObjects
  rw [if_pos (.inl h),if_pos h,hv]
  exact ⟨rfl,rfl⟩

/-- A list that a supply may follow. -/
theorem append_programmable (objs : List (BitVec 32)) :
    (if pdSpecrev30 ≤ rev then objs++[pdPdoTypeAugmented ||| pdApdoTypePps |||
      pdApdoPpsMaxVoltageSet (pdMv2Pav scfg.v) ||| pdApdoPpsMinVoltageSet (pdMv2Pav scfg.v) |||
      pdApdoPpsCurrentSet (pdCa2Pai (dpmGetCurrent scfg scfg.v))] else objs)=
      objs++programmableObjects scfg rev := by
  unfold programmableObjects
  split
  · rfl
  · rw [List.append_nil]

/-- The object found in the range follows what is there. -/
theorem append_range (objs : List (BitVec 32)) :
    (if 0 < dpmGetRangeFixedPdoIndex caps scfg ∧
        pdPdoSrcFixedVoltageGet (caps.object (dpmGetRangeFixedPdoIndex caps scfg).toNat)≠pdMv2Pdv scfg.v then
      objs++[sinkFixed (pdPdoSrcFixedVoltageGet (caps.object (dpmGetRangeFixedPdoIndex caps scfg).toNat))
        (pdPdoSrcFixedCurrentGet (caps.object (dpmGetRangeFixedPdoIndex caps scfg).toNat))]
    else objs)=objs++(rangeObject scfg caps).toList := by
  unfold rangeObject
  dsimp only
  split
  · rfl
  · rw [Option.toList_none,List.append_nil]

/-- A configuration writes the object for 5 V, the later fixed ones, and the
programmable supply. -/
theorem configuredObjects_eq :
    configuredObjects scfg caps rev
        (if pdMv2Pdv scfg.v≠pdMv2Pdv 5000 then [sinkFixed (pdMv2Pdv 5000) dpmMinCurrent] else [])=
      firstObject scfg caps::laterObjects scfg caps++programmableObjects scfg rev := by
  unfold configuredObjects appendObjects
  dsimp only
  rw [append_programmable]
  refine congrArg (·++programmableObjects scfg rev) ?_
  simp only [append_range]
  by_cases hv : wants5V scfg
  · have hne : ¬pdMv2Pdv scfg.v≠pdMv2Pdv 5000 := not_not.mpr hv
    obtain ⟨hconf,hlater⟩ := objects_wants5V scfg caps hv
    rw [if_neg hne,if_neg hne,hlater,← hconf,List.nil_append]
    by_cases hi : dpmGetRangeFixedPdoIndex caps scfg=0
    · rw [if_pos hi,rangeObject_zero scfg caps hi]
      exact congrArg (·::[]) (sinkFixed_raise _ _ _)
    · rw [if_neg hi]
      cases rangeObject scfg caps <;> rfl
  · have hne : pdMv2Pdv scfg.v≠pdMv2Pdv 5000 := hv
    rw [if_pos hne,if_pos hne]
    unfold firstObject laterObjects
    rw [if_neg hv]
    by_cases hi : dpmGetRangeFixedPdoIndex caps scfg=0
    · rw [if_pos hi,if_pos (.inr hi),rangeObject_zero scfg caps hi]
      exact congrArg (·::[configuredObject scfg]) (sinkFixed_raise _ _ _)
    · rw [if_neg hi,if_neg (not_or.mpr ⟨hv,hi⟩)]
      cases rangeObject scfg caps with
      | none => rfl
      | some range =>
        change sortLastTwo [_,configuredObject scfg,range]=_
        rw [sortLastTwo_three]
        dsimp only
        split_ifs <;> rfl

end Objects

/-! ## The message -/

section Message

variable (scfg : Option PdbsConfig) (dpm : Dpm) (caps : PdMsg) (rev : BitVec 16)

/-- The first object, before its flags. -/
def unflagged : BitVec 32 :=
  match scfg with
  | none => sinkFixed (pdMv2Pdv 5000) dpmMinCurrent
  | some scfg => firstObject scfg caps

/-- The flags that the first object carries for the device. -/
def deviceFlags : BitVec 32 :=
  (if dpm.unconstrainedPower then pdPdoSnkFixedUnconstrained else 0) |||
    (if dpm.usbComms then pdPdoSnkFixedUsbComms else 0)

/-- The fixed objects after the first. -/
def laterFixed : List (BitVec 32) :=
  match scfg with
  | none => []
  | some scfg => laterObjects scfg caps

/-- The programmable supply, if any. -/
def lastProgrammable : List (BitVec 32) :=
  match scfg with
  | none => []
  | some scfg => programmableObjects scfg rev

/-- Every object written, in order. -/
def sinkObjects : List (BitVec 32) :=
  (unflagged scfg caps ||| deviceFlags dpm)::laterFixed scfg caps++lastProgrammable scfg rev

/-- The message holds exactly these objects: its header counts them, and the
rest of the block is as it was. -/
structure Holds (m cap : PdMsg) (objs : List (BitVec 32)) : Prop where
  /-- The count. -/
  count : m.numobjGet=objs.length
  /-- The objects. -/
  objects : ∀ k < objs.length, objs[k]?=some (m.object k)
  /-- The rest of the block. -/
  rest : ∀ k : Fin 7, objs.length ≤ k.val → m.obj k=cap.obj k

/-- The flags go to the first object alone. -/
theorem flags_modifyHead (first : BitVec 32) (rest : List (BitVec 32)) :
    (if dpm.usbComms then
      (if dpm.unconstrainedPower then (first::rest).modifyHead (· ||| pdPdoSnkFixedUnconstrained)
        else first::rest).modifyHead (· ||| pdPdoSnkFixedUsbComms)
      else if dpm.unconstrainedPower then (first::rest).modifyHead (· ||| pdPdoSnkFixedUnconstrained)
        else first::rest)=(first ||| deviceFlags dpm)::rest := by
  unfold deviceFlags
  cases dpm.usbComms <;> cases dpm.unconstrainedPower
  · exact congrArg (·::rest) (BitVec.or_zero).symm
  · exact congrArg (·::rest) (congrArg (first ||| ·) (BitVec.or_zero).symm)
  · exact congrArg (·::rest) (congrArg (first ||| ·) (BitVec.zero_or).symm)
  · exact congrArg (·::rest) (BitVec.or_assoc _ _ _)

/-- The message is made of these objects. -/
theorem pdbsDpmGetSinkCapability_eq (hdr : BitVec 16) (cap : PdMsg) :
    pdbsDpmGetSinkCapability hdr scfg dpm caps rev cap=
      ⟨hdr ||| pdMsgtypeSinkCapabilities ||| pdNumobj (sinkObjects scfg dpm caps rev).length,
        fun k => (sinkObjects scfg dpm caps rev).getD k (cap.obj k)⟩ := by
  unfold pdbsDpmGetSinkCapability
  cases scfg with
  | none =>
    dsimp only
    rw [flags_modifyHead]
    rfl
  | some scfg =>
    dsimp only
    rw [configuredObjects_eq,List.cons_append,flags_modifyHead]
    rfl

/-- A template has no object count of its own. -/
theorem settledTemplate_numobj (first : Option PdMsg) : settledTemplate first &&& pdHdrNumobj=0 := by
  cases first with
  | none => decide
  | some caps =>
    have hbase : settledTemplate (some caps)=pdDataroleUfp ||| pdPowerroleSink ||| settledSpecrev caps := rfl
    rw [hbase]
    rcases settledSpecrev_cases caps with h | h <;> rw [h] <;> decide

/-- A header built on a template counts up to seven objects. -/
theorem numobjGet_template (first : Option PdMsg) {n : ℕ} (h : n ≤ 7) (obj : Fin 7 → BitVec 32) :
    (PdMsg.mk (settledTemplate first ||| pdMsgtypeSinkCapabilities ||| pdNumobj n) obj).numobjGet=n := by
  have hbase : (settledTemplate first ||| pdMsgtypeSinkCapabilities) &&& pdHdrNumobj=0 :=
    or_and_zero (settledTemplate_numobj first) (by decide)
  have hpart := fieldGet_congr (or_and_left (b := pdNumobj n) hbase) pdHdrNumobjShift
  have hmask : pdHdrNumobj=BitVec.ofNat 16 (2^3-1) <<< pdHdrNumobjShift := by decide
  exact hpart.trans (fieldGet_fieldSet_of_lt hmask (show 12+3 ≤ 16 by omega) (by omega))

end Message

/-! ## Later objects -/

section Later

variable {scfg : PdbsConfig} {caps : PdMsg} {o : BitVec 32}

/-- What the range adds, and at which voltage. -/
theorem rangeObject_eq_some :
    rangeObject scfg caps=some o ↔ 0 < dpmGetRangeFixedPdoIndex caps scfg ∧
      pdPdoSrcFixedVoltageGet (caps.object (dpmGetRangeFixedPdoIndex caps scfg).toNat)≠pdMv2Pdv scfg.v ∧
      o=sinkFixed (pdPdoSrcFixedVoltageGet (caps.object (dpmGetRangeFixedPdoIndex caps scfg).toNat))
        (pdPdoSrcFixedCurrentGet (caps.object (dpmGetRangeFixedPdoIndex caps scfg).toNat)) := by
  unfold rangeObject
  dsimp only
  rw [Option.ite_none_right_eq_some,Option.some_inj,and_assoc,eq_comm (b := o)]

/-- A source voltage fits the sink's field. -/
theorem rangeObject_voltage (h : rangeObject scfg caps=some o) :
    pdPdoSnkFixedVoltageGet o=
      pdPdoSrcFixedVoltageGet (caps.object (dpmGetRangeFixedPdoIndex caps scfg).toNat) := by
  obtain ⟨-,-,rfl⟩ := rangeObject_eq_some.mp h
  have hle : pdPdoSrcFixedVoltageGet (caps.object (dpmGetRangeFixedPdoIndex caps scfg).toNat) ≤ 1023 :=
    fieldGet_le 10 0xFFC00 _
  rw [sinkFixed_voltage]
  omega

theorem rangeObject_isFixed (h : rangeObject scfg caps=some o) : isFixed o=true := by
  obtain ⟨-,-,rfl⟩ := rangeObject_eq_some.mp h
  exact sinkFixed_isFixed _ _

/-- The configured voltage fits it too. -/
theorem configuredObject_voltage (hv : scfg.v ≤ 21000) :
    pdPdoSnkFixedVoltageGet (configuredObject scfg)=pdMv2Pdv scfg.v := by
  unfold configuredObject
  rw [sinkFixed_voltage]
  unfold pdMv2Pdv
  omega

/-- The later objects are the configured one, unless it is for 5 V, and the
one from the range. -/
theorem mem_laterObjects : o ∈ laterObjects scfg caps ↔
    ¬wants5V scfg ∧ o=configuredObject scfg ∨ rangeObject scfg caps=some o := by
  unfold laterObjects
  by_cases hv : wants5V scfg
  · rw [if_pos hv,Option.mem_toList]
    simp [hv]
  · rw [if_neg hv]
    cases hr : rangeObject scfg caps with
    | none => simp [hv]
    | some range =>
      dsimp only
      split <;> simp [hv,eq_comm,or_comm]

/-- They are fixed. -/
theorem laterObjects_isFixed (h : o ∈ laterObjects scfg caps) : isFixed o=true := by
  rcases mem_laterObjects.mp h with ⟨-,rfl⟩ | hr
  · exact sinkFixed_isFixed _ _
  · exact rangeObject_isFixed hr

/-- There are at most two. -/
theorem laterObjects_length (scfg : PdbsConfig) (caps : PdMsg) : (laterObjects scfg caps).length ≤ 2 := by
  unfold laterObjects
  cases rangeObject scfg caps with
  | none => split_ifs <;> simp
  | some range =>
    dsimp only
    split_ifs <;> simp

/-- Their voltages ascend. -/
theorem laterObjects_ascending (hv : scfg.v ≤ 21000) :
    ((laterObjects scfg caps).map pdPdoSnkFixedVoltageGet).Pairwise (·<·) := by
  unfold laterObjects
  cases hr : rangeObject scfg caps with
  | none => split_ifs <;> simp
  | some range =>
    have hne : pdPdoSnkFixedVoltageGet range≠pdPdoSnkFixedVoltageGet (configuredObject scfg) := by
      rw [rangeObject_voltage hr,configuredObject_voltage hv]
      exact (rangeObject_eq_some.mp hr).2.1
    dsimp only
    split_ifs with h5 hlt
    · exact List.pairwise_singleton _ _
    · exact List.pairwise_pair.mpr hlt
    · exact List.pairwise_pair.mpr (by omega)

end Later

/-! ## Well-formed messages -/

/-- A list of sink objects in the order the standard asks for. -/
structure WellFormed (objs : List (BitVec 32)) : Prop where
  /-- From one to four objects. -/
  pos : 1 ≤ objs.length
  le : objs.length ≤ 4
  /-- The first is a fixed supply of 5 V. -/
  vsafe5v : ∀ first, objs.head?=some first →
    isFixed first=true ∧ pdPdoSnkFixedVoltageGet first=pdMv2Pdv 5000
  /-- The fixed objects after it ascend. -/
  ascending : ((objs.tail.filter isFixed).map pdPdoSnkFixedVoltageGet).Pairwise (·<·)
  /-- Nothing follows a programmable supply. -/
  programmableLast : ∀ o ∈ objs.dropLast, isPps o=false

section WellFormed

variable {dpm : Dpm} {caps : PdMsg} {rev : BitVec 16} {objs : List (BitVec 32)}

/-- The flags are outside every field. -/
theorem deviceFlags_and {k : BitVec 32} (hu : pdPdoSnkFixedUnconstrained &&& k=0)
    (hc : pdPdoSnkFixedUsbComms &&& k=0) (dpm : Dpm) : deviceFlags dpm &&& k=0 := by
  unfold deviceFlags
  refine or_and_zero ?_ ?_
  · split
    · exact hu
    · exact BitVec.zero_and
  · split
    · exact hc
    · exact BitVec.zero_and

/-- Without its flags the first object is a fixed one, perhaps with the bit
that announces more. -/
theorem unflagged_eq (scfg : Option PdbsConfig) (caps : PdMsg) :
    ∃ current higher, unflagged scfg caps=sinkFixed (pdMv2Pdv 5000) current ||| higher ∧
      (higher=0 ∨ higher=pdPdoSnkFixedHigherCap) := by
  cases scfg with
  | none => exact ⟨dpmMinCurrent,0,(BitVec.or_zero).symm,.inl rfl⟩
  | some scfg =>
    change ∃ current higher, firstObject scfg caps=_ ∧ _
    unfold firstObject
    split
    · exact ⟨_,0,(BitVec.or_zero).symm,.inl rfl⟩
    · exact ⟨_,_,rfl,.inr rfl⟩

/-- It is a fixed supply of 5 V, with its flags. -/
theorem first_vsafe5v (scfg : Option PdbsConfig) (caps : PdMsg) (dpm : Dpm) :
    isFixed (unflagged scfg caps ||| deviceFlags dpm)=true ∧
      pdPdoSnkFixedVoltageGet (unflagged scfg caps ||| deviceFlags dpm)=pdMv2Pdv 5000 := by
  obtain ⟨current,higher,heq,hhigher⟩ := unflagged_eq scfg caps
  have hoff (k : BitVec 32) (hu : pdPdoSnkFixedUnconstrained &&& k=0)
      (hc : pdPdoSnkFixedUsbComms &&& k=0) (hk : pdPdoSnkFixedHigherCap &&& k=0) :
      (unflagged scfg caps ||| deviceFlags dpm) &&& k=sinkFixed (pdMv2Pdv 5000) current &&& k := by
    have hhk : higher &&& k=0 := by
      rcases hhigher with rfl | rfl
      · exact BitVec.zero_and
      · exact hk
    rw [or_and_right (deviceFlags_and hu hc dpm),heq,or_and_right hhk]
  constructor
  · unfold isFixed
    rw [hoff pdPdoType (by decide) (by decide) (by decide)]
    exact sinkFixed_isFixed _ _
  · have hvolt := fieldGet_congr (hoff pdPdoSnkFixedVoltage (by decide) (by decide) (by decide)) 10
    exact hvolt.trans (sinkFixed_voltage _ _)

/-- A programmable supply is none of the fixed ones. -/
theorem lastProgrammable_isFixed {scfg : Option PdbsConfig} {o : BitVec 32}
    (h : o ∈ lastProgrammable scfg rev) : isFixed o=false := by
  cases scfg with
  | none => exact absurd h List.not_mem_nil
  | some scfg =>
    change o ∈ programmableObjects scfg rev at h
    unfold programmableObjects at h
    split at h
    · rw [List.mem_singleton.mp h]
      have hmax : pdApdoPpsMaxVoltageSet (pdMv2Pav scfg.v) &&& pdPdoType=0 := fieldSet_and (by decide) _ _
      have hmin : pdApdoPpsMinVoltageSet (pdMv2Pav scfg.v) &&& pdPdoType=0 := fieldSet_and (by decide) _ _
      have hcur : pdApdoPpsCurrentSet (pdCa2Pai (dpmGetCurrent scfg scfg.v)) &&& pdPdoType=0 :=
        fieldSet_and (by decide) _ _
      unfold isFixed
      rw [or_and_right hcur,or_and_right hmin,or_and_right hmax]
      rfl
    · exact absurd h List.not_mem_nil

/-- There is at most one. -/
theorem lastProgrammable_length (scfg : Option PdbsConfig) (rev : BitVec 16) :
    (lastProgrammable scfg rev).length ≤ 1 := by
  cases scfg with
  | none => exact Nat.zero_le _
  | some scfg =>
    change (programmableObjects scfg rev).length ≤ 1
    unfold programmableObjects
    split <;> simp

/-- The fixed objects after the first are fixed. -/
theorem laterFixed_isFixed {scfg : Option PdbsConfig} {o : BitVec 32} (h : o ∈ laterFixed scfg caps) :
    isFixed o=true := by
  cases scfg with
  | none => exact absurd h List.not_mem_nil
  | some scfg => exact laterObjects_isFixed h

theorem laterFixed_length (scfg : Option PdbsConfig) (caps : PdMsg) :
    (laterFixed scfg caps).length ≤ 2 := by
  cases scfg with
  | none => exact Nat.zero_le _
  | some scfg => exact laterObjects_length scfg caps

/-- There are from one to four objects. -/
theorem sinkObjects_length (scfg : Option PdbsConfig) (dpm : Dpm) (caps : PdMsg) (rev : BitVec 16) :
    1 ≤ (sinkObjects scfg dpm caps rev).length ∧ (sinkObjects scfg dpm caps rev).length ≤ 4 := by
  have hlater := laterFixed_length scfg caps
  have hlast := lastProgrammable_length scfg rev
  unfold sinkObjects
  simp only [List.cons_append,List.length_cons,List.length_append]
  omega

/-- What follows the first object is fixed exactly before the programmable
supply. -/
theorem sinkObjects_tail_fixed (scfg : Option PdbsConfig) (dpm : Dpm) (caps : PdMsg) (rev : BitVec 16) :
    (sinkObjects scfg dpm caps rev).tail.filter isFixed=laterFixed scfg caps := by
  have hfixed : (laterFixed scfg caps).filter isFixed=laterFixed scfg caps :=
    List.filter_eq_self.mpr fun o ho => laterFixed_isFixed ho
  have hlast : (lastProgrammable scfg rev).filter isFixed=[] :=
    List.filter_eq_nil_iff.mpr fun o ho => by
      rw [lastProgrammable_isFixed ho]
      exact Bool.false_ne_true
  unfold sinkObjects
  rw [List.cons_append,List.tail_cons,List.filter_append,hfixed,hlast,List.append_nil]

/-- Every object but the last is fixed. -/
theorem sinkObjects_dropLast {scfg : Option PdbsConfig} {o : BitVec 32}
    (h : o ∈ (sinkObjects scfg dpm caps rev).dropLast) : isFixed o=true := by
  have hfirst := (first_vsafe5v scfg caps dpm).1
  have hinit (o : BitVec 32) (ho : o ∈ (unflagged scfg caps ||| deviceFlags dpm)::laterFixed scfg caps) :
      isFixed o=true := by
    rcases List.mem_cons.mp ho with rfl | ho
    · exact hfirst
    · exact laterFixed_isFixed ho
  have hone := lastProgrammable_length scfg rev
  unfold sinkObjects at h
  cases hl : lastProgrammable scfg rev with
  | nil =>
    rw [hl,List.append_nil] at h
    exact hinit o (List.mem_of_mem_dropLast h)
  | cons pps rest =>
    rw [hl] at hone
    have hrest : rest=[] := List.length_eq_zero_iff.mp (by
      rw [List.length_cons] at hone
      omega)
    rw [hl,hrest,List.dropLast_concat] at h
    exact hinit o h

/-- What the message holds. -/
theorem sinkCapability_holds (first : Option PdMsg) (scfg : Option PdbsConfig) (dpm : Dpm)
    (caps : PdMsg) (rev : BitVec 16) (cap : PdMsg) :
    Holds (pdbsDpmGetSinkCapability (settledTemplate first) scfg dpm caps rev cap) cap
      (sinkObjects scfg dpm caps rev) := by
  obtain ⟨-,hlen⟩ := sinkObjects_length scfg dpm caps rev
  rw [pdbsDpmGetSinkCapability_eq]
  refine ⟨numobjGet_template first (by omega) _,fun k hk => ?_,fun k hk => ?_⟩
  · have hk7 : k%7=k := Nat.mod_eq_of_lt (by omega)
    rw [List.getElem?_eq_getElem hk]
    unfold PdMsg.object
    simp only [Fin.val_ofNat,hk7]
    rw [List.getD_eq_getElem _ _ hk]
  · exact List.getD_eq_default _ _ hk

/-- With a configuration of the shell, or none, the objects are well formed. -/
theorem sinkObjects_wellFormed {scfg : Option PdbsConfig}
    (hv : ∀ c, scfg=some c → c.v ≤ 21000) (dpm : Dpm) (caps : PdMsg) (rev : BitVec 16) :
    WellFormed (sinkObjects scfg dpm caps rev) := by
  obtain ⟨hpos,hle⟩ := sinkObjects_length scfg dpm caps rev
  refine ⟨hpos,hle,?_,?_,?_⟩
  · intro first hfirst
    cases hfirst
    exact first_vsafe5v scfg caps dpm
  · rw [sinkObjects_tail_fixed]
    cases scfg with
    | none => exact List.Pairwise.nil
    | some c => exact laterObjects_ascending (hv c rfl)
  · exact fun o ho => isPps_of_isFixed (sinkObjects_dropLast ho)

/-- The configuration read from flash fits the voltage field. -/
theorem readConfig_voltage {shell : Shell} (h : console.Reach anyStep shell) {scfg : PdbsConfig}
    (hc : readConfig shell.flash=some scfg) : scfg.v ≤ 21000 := by
  obtain ⟨e,he,rfl⟩ := readConfig_inRange h hc
  exact he.v

/-- Whatever the shell has stored, or nothing, and whatever the source offers:
the message holds a well-formed list of objects, the same in every block, and
sorting loses none. -/
theorem sinkCapability_wellFormed {shell : Shell} (h : console.Reach anyStep shell)
    (first : Option PdMsg) (dpm : Dpm) (caps : PdMsg) (rev : BitVec 16) :
    (∃ objs, WellFormed objs ∧ ∀ cap, Holds
      (pdbsDpmGetSinkCapability (settledTemplate first) (readConfig shell.flash) dpm caps rev cap)
      cap objs) ∧ ∀ objs, (sortLastTwo objs).Perm objs :=
  ⟨⟨_,sinkObjects_wellFormed (fun _ hc => readConfig_voltage h hc) dpm caps rev,
    sinkCapability_holds first _ dpm caps rev⟩,sortLastTwo_perm⟩

/-- With 10 W at 9 V stored the message is well formed. -/
theorem sinkCapability_wellFormed_nineVolts :
    (∃ objs, WellFormed objs ∧ ∀ cap, Holds
      (pdbsDpmGetSinkCapability (settledTemplate (some programmableSource))
        (readConfig (typed withVoltage).flash) FirmwareSystem.initial.shared.dpm programmableSource
        pdSpecrev30 cap) cap objs) ∧ ∀ objs, (sortLastTwo objs).Perm objs :=
  sinkCapability_wellFormed (typed_reach withVoltage) _ _ _ _

end WellFormed

section Held

variable {m cap : PdMsg} {objs : List (BitVec 32)}

/-- An object counted in the header is one of those written. -/
theorem Holds.mem_iff (h : Holds m cap objs) (o : BitVec 32) :
    (∃ k < m.numobjGet, m.object k=o) ↔ o ∈ objs := by
  rw [List.mem_iff_getElem?,h.count]
  constructor
  · rintro ⟨k,hk,rfl⟩
    exact ⟨k,h.objects k hk⟩
  · rintro ⟨k,hk⟩
    obtain ⟨hlt,-⟩ := List.getElem?_eq_some_iff.mp hk
    exact ⟨k,hlt,Option.some_inj.mp ((h.objects k hlt).symm.trans hk)⟩

/-- The first object is the first written. -/
theorem Holds.first {first : BitVec 32} {rest : List (BitVec 32)} (h : Holds m cap (first::rest)) :
    m.object 0=first := by
  have hzero := h.objects 0 (Nat.succ_pos _)
  exact (Option.some_inj.mp hzero).symm

end Held

end UsbPdFirmware.SinkCapabilities
