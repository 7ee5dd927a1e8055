import Mathlib.Algebra.Order.Floor.Div
import UsbPdFirmware.SinkCapabilities

/-!
# What the sink's capabilities advertise

The bit that announces more than 5 V against the objects of the message, and
the currents against those the configuration needs. Each agrees under a
condition on the configuration and on what the range search finds.
-/

namespace UsbPdFirmware.AdvertisedPower

open PdMessage BitFields DevicePolicy LabelledRuns Machine HeaderTemplate
open CapabilitySelection SinkCapabilities ConfigRanges
open ConfigStore ConfigStoreRuns ShellCommands CurrentDivisor

/-! ## The Higher Capability bit -/

/-- The message announces more than 5 V. -/
def AnnouncesHigher (m : PdMsg) : Prop := higherCapBit (m.object 0)=true

/-- It contains a fixed object above 5 V. -/
def OffersHigher (m : PdMsg) : Prop :=
  ∃ k < m.numobjGet, isFixed (m.object k)=true ∧ pdMv2Pdv 5000 < pdPdoSnkFixedVoltageGet (m.object k)

section Higher

variable (scfg : PdbsConfig) (caps : PdMsg)

/-- The range search finds an object above 5 V, after the first. -/
def FindsHigher : Prop :=
  0 < dpmGetRangeFixedPdoIndex caps scfg ∧
    pdMv2Pdv 5000 < pdPdoSrcFixedVoltageGet (caps.object (dpmGetRangeFixedPdoIndex caps scfg).toNat)

/-- Where the test for another voltage than 5 V stands for one above it. -/
structure TestSuffices : Prop where
  /-- The range search finds the first object only when no more than 5 V are
  wanted. -/
  first : dpmGetRangeFixedPdoIndex caps scfg=0 → pdMv2Pdv scfg.v ≤ pdMv2Pdv 5000
  /-- With 5 V wanted it finds nothing above. -/
  equal : wants5V scfg → ¬FindsHigher scfg caps
  /-- With less wanted it finds the first object, or one above 5 V. -/
  below : dpmGetRangeFixedPdoIndex caps scfg≠0 → pdMv2Pdv scfg.v < pdMv2Pdv 5000 → FindsHigher scfg caps

/-- The bit is set unless 5 V are wanted or lie in the range. -/
theorem firstObject_higherCap :
    higherCapBit (firstObject scfg caps)=true ↔
      ¬wants5V scfg ∧ dpmGetRangeFixedPdoIndex caps scfg≠0 := by
  unfold firstObject
  split
  · next h =>
    rw [sinkFixed_higherCap]
    simp only [Bool.false_eq_true,false_iff,not_and_or,not_not,ne_eq]
    exact h
  · next h =>
    have hbit : sinkFixed (pdMv2Pdv 5000) dpmMinCurrent &&& pdPdoSnkFixedHigherCap=0 :=
      sinkFixed_and_rest _ _ (by decide) (by decide)
    unfold higherCapBit
    rw [or_and_left hbit]
    simp only [BitVec.and_self]
    exact iff_of_true (by decide) (not_or.mp h)

/-- A later object is above 5 V when the configured voltage is, or what the
range search finds. -/
theorem laterObjects_higher (hv : scfg.v ≤ 21000) :
    (∃ o ∈ laterObjects scfg caps, pdMv2Pdv 5000 < pdPdoSnkFixedVoltageGet o) ↔
      pdMv2Pdv 5000 < pdMv2Pdv scfg.v ∨ FindsHigher scfg caps := by
  constructor
  · rintro ⟨o,ho,hlt⟩
    rcases mem_laterObjects.mp ho with ⟨-,rfl⟩ | hr
    · rw [configuredObject_voltage hv] at hlt
      exact .inl hlt
    · rw [rangeObject_voltage hr] at hlt
      exact .inr ⟨(rangeObject_eq_some.mp hr).1,hlt⟩
  · intro h
    by_cases hconf : pdMv2Pdv 5000 < pdMv2Pdv scfg.v
    · have hne : ¬wants5V scfg := fun heq => absurd hconf (by rw [show _=_ from heq]; exact lt_irrefl _)
      refine ⟨_,mem_laterObjects.mpr (.inl ⟨hne,rfl⟩),?_⟩
      rw [configuredObject_voltage hv]
      exact hconf
    · obtain ⟨hi,hlt⟩ := h.resolve_left hconf
      have hr := rangeObject_eq_some.mpr ⟨hi,(show _≠_ by omega),rfl⟩
      refine ⟨_,mem_laterObjects.mpr (.inr hr),?_⟩
      rw [rangeObject_voltage hr]
      exact hlt

/-- The two agree exactly where the test suffices. -/
theorem testSuffices_iff :
    (¬wants5V scfg ∧ dpmGetRangeFixedPdoIndex caps scfg≠0 ↔
      pdMv2Pdv 5000 < pdMv2Pdv scfg.v ∨ FindsHigher scfg caps) ↔ TestSuffices scfg caps := by
  have hzero : dpmGetRangeFixedPdoIndex caps scfg=0 → ¬FindsHigher scfg caps := by
    rintro hi ⟨hpos,-⟩
    omega
  have htri : wants5V scfg ↔ pdMv2Pdv scfg.v=pdMv2Pdv 5000 := Iff.rfl
  constructor
  · intro hagree
    refine ⟨fun hi => ?_,fun hv hfinds => (hagree.mpr (.inr hfinds)).1 hv,fun hi hlt => ?_⟩
    · by_contra hlt
      exact (hagree.mpr (.inl (by omega))).2 hi
    · refine (hagree.mp ⟨fun hv => ?_,hi⟩).resolve_left (by omega)
      rw [htri] at hv
      omega
  · rintro ⟨hfirst,hequal,hbelow⟩
    constructor
    · rintro ⟨hv,hi⟩
      rw [htri] at hv
      by_cases hlt : pdMv2Pdv scfg.v < pdMv2Pdv 5000
      · exact .inr (hbelow hi hlt)
      · exact .inl (by omega)
    · rintro (hlt | hfinds)
      · refine ⟨fun hv => ?_,fun hi => ?_⟩
        · rw [htri] at hv
          omega
        · have hle := hfirst hi
          omega
      · exact ⟨fun hv => hequal hv hfinds,fun hi => hzero hi hfinds⟩

end Higher

section Announced

variable {m cap : PdMsg} {scfg : Option PdbsConfig} {dpm : Dpm} {caps : PdMsg} {rev : BitVec 16}

/-- The device's flags leave the bit as it is. -/
theorem announcesHigher_iff (h : Holds m cap (sinkObjects scfg dpm caps rev)) :
    AnnouncesHigher m ↔ higherCapBit (unflagged scfg caps)=true := by
  have hflags : deviceFlags dpm &&& pdPdoSnkFixedHigherCap=0 :=
    deviceFlags_and (by decide) (by decide) dpm
  unfold AnnouncesHigher
  rw [h.first]
  unfold higherCapBit
  rw [or_and_right hflags]

/-- Objects above 5 V are among the later fixed ones. -/
theorem offersHigher_iff (h : Holds m cap (sinkObjects scfg dpm caps rev)) :
    OffersHigher m ↔ ∃ o ∈ laterFixed scfg caps, pdMv2Pdv 5000 < pdPdoSnkFixedVoltageGet o := by
  constructor
  · rintro ⟨k,hk,hfixed,hlt⟩
    have hmem := (h.mem_iff _).mp ⟨k,hk,rfl⟩
    unfold sinkObjects at hmem
    rcases List.mem_append.mp hmem with hmem | hlast
    · rcases List.mem_cons.mp hmem with hfirst | hlater
      · have hv := (first_vsafe5v scfg caps dpm).2
        rw [hfirst] at hlt
        omega
      · exact ⟨_,hlater,hlt⟩
    · rw [lastProgrammable_isFixed hlast] at hfixed
      cases hfixed
  · rintro ⟨o,ho,hlt⟩
    have hmem : o ∈ sinkObjects scfg dpm caps rev :=
      List.mem_append_left _ (List.mem_cons_of_mem _ ho)
    obtain ⟨k,hk,rfl⟩ := (h.mem_iff o).mpr hmem
    exact ⟨k,hk,laterFixed_isFixed ho,hlt⟩

/-- The Higher Capability bit tells whether a fixed object above 5 V is
offered, exactly where the test for another voltage than 5 V stands for one
above it. -/
theorem higherCap_iff {shell : Shell} (h : console.Reach anyStep shell) (first : Option PdMsg)
    (dpm : Dpm) (caps : PdMsg) (rev : BitVec 16) (cap : PdMsg) :
    let m := pdbsDpmGetSinkCapability (settledTemplate first) (readConfig shell.flash) dpm caps rev cap
    (AnnouncesHigher m ↔ OffersHigher m) ↔
      ∀ scfg, readConfig shell.flash=some scfg → TestSuffices scfg caps := by
  have hholds := sinkCapability_holds first (readConfig shell.flash) dpm caps rev cap
  dsimp only
  rw [announcesHigher_iff hholds,offersHigher_iff hholds]
  cases hc : readConfig shell.flash with
  | none =>
    have hbit : higherCapBit (unflagged none caps)=false := sinkFixed_higherCap _ _
    rw [hbit]
    simp [laterFixed]
  | some scfg =>
    have hv := readConfig_voltage h hc
    change (higherCapBit (firstObject scfg caps)=true ↔ ∃ o ∈ laterObjects scfg caps,_) ↔ _
    rw [firstObject_higherCap,laterObjects_higher scfg caps hv,testSuffices_iff]
    simp only [Option.some_inj,forall_eq']

end Announced

/-- Lines that store 1 A at 9 V, and a range that begins at the given voltage. -/
def withRange (vmin : String) : List (List String) :=
  [["set_v","9000"],["set_i","1000"],["set_vrange",vmin,"9000"],["write"]]

/-- The message to a source of 5 V and a programmable supply. -/
def sinkCapabilityOf (lines : List (List String)) : PdMsg :=
  pdbsDpmGetSinkCapability (settledTemplate (some programmableSource)) (readConfig (typed lines).flash)
    FirmwareSystem.initial.shared.dpm programmableSource pdSpecrev30 ⟨0,fun _ => 0⟩

/-- The range begins above 5 V, and 9 V are announced. -/
theorem higherCap_iff_sixVolts :
    AnnouncesHigher (sinkCapabilityOf (withRange "6000")) ↔
      OffersHigher (sinkCapabilityOf (withRange "6000")) := by
  refine (higherCap_iff (typed_reach (withRange "6000")) _ _ _ _ _).mpr fun scfg hc => ?_
  have hv : (readConfig (typed (withRange "6000")).flash).map PdbsConfig.v=some 9000 := by
    decide +kernel
  have hi : (readConfig (typed (withRange "6000")).flash).map
      (dpmGetRangeFixedPdoIndex programmableSource)=some (-1) := by decide +kernel
  rw [hc] at hv hi
  have hv' : scfg.v=9000 := Option.some_inj.mp hv
  have hi' : dpmGetRangeFixedPdoIndex programmableSource scfg=-1 := Option.some_inj.mp hi
  refine ⟨fun h0 => ?_,fun h5 => ?_,fun _ hlt => ?_⟩
  · omega
  · unfold wants5V pdMv2Pdv at h5
    omega
  · unfold pdMv2Pdv at hlt
    omega

/-- The range begins at 5 V, and 9 V are offered but not announced. -/
theorem higherCap_unset_fiveVolts :
    ¬(AnnouncesHigher (sinkCapabilityOf (withRange "5000")) ↔
      OffersHigher (sinkCapabilityOf (withRange "5000"))) := by
  intro h
  have hunset : ¬AnnouncesHigher (sinkCapabilityOf (withRange "5000")) := by
    unfold AnnouncesHigher
    decide +kernel
  refine hunset (h.mpr ⟨1,?_,?_,?_⟩)
  · decide +kernel
  · decide +kernel
  · decide +kernel

/-! ## Currents -/

/-- The current a configuration needs at a voltage, in units of 10 mA: with a
power or a resistance the least that suffices. -/
def neededCurrent (scfg : PdbsConfig) (mv : ℕ) : ℕ :=
  let defn := scfg.flags &&& pdbsConfigFlagsCurrentDefn
  if defn==pdbsConfigFlagsCurrentDefnI then scfg.i
  else if defn==pdbsConfigFlagsCurrentDefnP then (scfg.i*1000) ⌈/⌉ mv
  else if defn==pdbsConfigFlagsCurrentDefnR then (mv*10) ⌈/⌉ scfg.i
  else pdCaMax+1

section Needed

variable {scfg : PdbsConfig} {mv : ℕ}

theorem neededCurrent_of_power (h : definedByPower scfg) :
    neededCurrent scfg mv=(scfg.i*1000) ⌈/⌉ mv := by
  have hdefn : scfg.flags &&& pdbsConfigFlagsCurrentDefn=pdbsConfigFlagsCurrentDefnP := h
  unfold neededCurrent
  rw [hdefn]
  rfl

theorem neededCurrent_of_resistance (h : definedByResistance scfg) :
    neededCurrent scfg mv=(mv*10) ⌈/⌉ scfg.i := by
  have hdefn : scfg.flags &&& pdbsConfigFlagsCurrentDefn=pdbsConfigFlagsCurrentDefnR := h
  unfold neededCurrent
  rw [hdefn]
  rfl

/-- A power defines the least current that delivers it. -/
theorem neededCurrent_power (h : definedByPower scfg) (hmv : 0 < mv) (c : ℕ) :
    neededCurrent scfg mv ≤ c ↔ scfg.i*1000 ≤ mv*c := by
  rw [neededCurrent_of_power h]
  exact ceilDiv_le_iff_le_mul hmv

/-- A resistance defines the least current that it lets through. -/
theorem neededCurrent_resistance (h : definedByResistance scfg) (hr : 0 < scfg.i) (mv c : ℕ) :
    neededCurrent scfg mv ≤ c ↔ mv*10 ≤ scfg.i*c := by
  rw [neededCurrent_of_resistance h]
  exact ceilDiv_le_iff_le_mul hr

end Needed

/-- What the code computes is this current, cut to a halfword. -/
theorem dpmGetCurrent_eq {scfg : PdbsConfig} (hi : scfg.i < 2^16) (mv : ℕ) :
    dpmGetCurrent scfg mv=neededCurrent scfg mv%2^16 := by
  unfold dpmGetCurrent neededCurrent
  simp only [Nat.ceilDiv_eq_add_pred_div]
  split_ifs
  · exact (Nat.mod_eq_of_lt hi).symm
  · rfl
  · rfl
  · rfl

/-- The currents lose nothing: that of the object for the configured voltage,
and that of the object for 5 V when it is raised. -/
structure LosesNothing (scfg : PdbsConfig) (caps m : PdMsg) : Prop where
  /-- The configured voltage. -/
  configured : ∀ k < m.numobjGet, isFixed (m.object k)=true →
    pdPdoSnkFixedVoltageGet (m.object k)=pdMv2Pdv scfg.v →
    pdPdoSnkFixedCurrentGet (m.object k)=neededCurrent scfg scfg.v
  /-- 5 V. -/
  raised : dpmGetRangeFixedPdoIndex caps scfg=0 →
    pdPdoSnkFixedCurrentGet (m.object 0)=neededCurrent scfg 5000

section Currents

variable {m cap : PdMsg} {scfg : PdbsConfig} {dpm : Dpm} {caps : PdMsg} {rev : BitVec 16}

/-- The device's flags leave the current. -/
theorem first_current (scfg : PdbsConfig) (caps : PdMsg) (dpm : Dpm) :
    pdPdoSnkFixedCurrentGet (firstObject scfg caps ||| deviceFlags dpm)=
      pdPdoSnkFixedCurrentGet (firstObject scfg caps) :=
  fieldGet_congr (or_and_right (deviceFlags_and (by decide) (by decide) dpm)) 0

/-- The object for 5 V has the configured current when 5 V are wanted or lie
in the range. -/
theorem firstObject_current (h : wants5V scfg ∨ dpmGetRangeFixedPdoIndex caps scfg=0) :
    pdPdoSnkFixedCurrentGet (firstObject scfg caps)=dpmGetCurrent scfg scfg.v%2^10 := by
  unfold firstObject
  rw [if_pos h]
  exact sinkFixed_current _ _

/-- The fixed objects of the configured voltage have the configured current. -/
theorem configured_current {o : BitVec 32} (ho : o ∈ sinkObjects (some scfg) dpm caps rev)
    (hfixed : isFixed o=true)
    (hvolt : pdPdoSnkFixedVoltageGet o=pdMv2Pdv scfg.v) :
    pdPdoSnkFixedCurrentGet o=dpmGetCurrent scfg scfg.v%2^10 := by
  have h5 := (first_vsafe5v (some scfg) caps dpm).2
  unfold sinkObjects at ho
  rcases List.mem_append.mp ho with ho | hlast
  · rcases List.mem_cons.mp ho with rfl | hlater
    · have hwants : wants5V scfg := hvolt.symm.trans h5
      exact (first_current scfg caps dpm).trans (firstObject_current (.inl hwants))
    · rcases mem_laterObjects.mp hlater with ⟨-,rfl⟩ | hr
      · exact sinkFixed_current _ _
      · have hne := (rangeObject_eq_some.mp hr).2.1
        rw [rangeObject_voltage hr] at hvolt
        exact absurd hvolt hne
  · rw [lastProgrammable_isFixed hlast] at hfixed
    cases hfixed

/-- There is such an object. -/
theorem exists_configured (hv : scfg.v ≤ 21000) (dpm : Dpm) (caps : PdMsg) (rev : BitVec 16) :
    ∃ o ∈ sinkObjects (some scfg) dpm caps rev, isFixed o=true ∧
      pdPdoSnkFixedVoltageGet o=pdMv2Pdv scfg.v := by
  obtain ⟨hfixed,h5⟩ := first_vsafe5v (some scfg) caps dpm
  by_cases hwants : wants5V scfg
  · exact ⟨_,List.mem_cons_self,hfixed,h5.trans (Eq.symm hwants)⟩
  · have hlater : configuredObject scfg ∈ laterFixed (some scfg) caps :=
      mem_laterObjects.mpr (.inl ⟨hwants,rfl⟩)
    exact ⟨_,List.mem_append_left _ (List.mem_cons_of_mem _ hlater),laterFixed_isFixed hlater,
      configuredObject_voltage hv⟩

/-- With a configuration of the shell the currents lose nothing exactly when
the current needed at the configured voltage fits ten bits, and the same is
needed at 5 V when the range search finds the first object. -/
theorem losesNothing_iff {shell : Shell} (h : console.Reach anyStep shell)
    (hc : readConfig shell.flash=some scfg) (first : Option PdMsg) (dpm : Dpm) (caps : PdMsg)
    (rev : BitVec 16) (cap : PdMsg) :
    LosesNothing scfg caps
        (pdbsDpmGetSinkCapability (settledTemplate first) (some scfg) dpm caps rev cap) ↔
      neededCurrent scfg scfg.v < 2^10 ∧ (dpmGetRangeFixedPdoIndex caps scfg=0 →
        neededCurrent scfg 5000=neededCurrent scfg scfg.v) := by
  have hholds := sinkCapability_holds first (some scfg) dpm caps rev cap
  generalize pdbsDpmGetSinkCapability (settledTemplate first) (some scfg) dpm caps rev cap=m at hholds ⊢
  have hv := readConfig_voltage h hc
  have hi : scfg.i < 2^16 := by
    obtain ⟨e,-,rfl⟩ := readConfig_inRange h hc
    exact (e .i).isLt
  have hcur := dpmGetCurrent_eq hi scfg.v
  have hraised (h0 : dpmGetRangeFixedPdoIndex caps scfg=0) :
      pdPdoSnkFixedCurrentGet (m.object 0)=dpmGetCurrent scfg scfg.v%2^10 := by
    rw [hholds.first]
    exact (first_current scfg caps dpm).trans (firstObject_current (.inr h0))
  constructor
  · intro hloses
    obtain ⟨o,ho,hfixed,hvolt⟩ := exists_configured hv dpm caps rev
    have hread := configured_current ho hfixed hvolt
    obtain ⟨k,hk,rfl⟩ := (hholds.mem_iff o).mpr ho
    have hexact := hloses.configured k hk hfixed hvolt
    have hneed : neededCurrent scfg scfg.v < 2^10 := by omega
    refine ⟨hneed,fun h0 => ?_⟩
    have h5 := hloses.raised h0
    have hfirst := hraised h0
    omega
  · rintro ⟨hneed,hsame⟩
    refine ⟨fun k hk hfixed hvolt => ?_,fun h0 => ?_⟩
    · have hread := configured_current ((hholds.mem_iff _).mp ⟨k,hk,rfl⟩) hfixed hvolt
      omega
    · have hfirst := hraised h0
      have h5 := hsame h0
      omega

end Currents

/-- Lines that store 100 W at 9 V. -/
def withPower : List (List String) := [["set_v","9000"],["set_p","100000"],["write"]]

/-- One ampere at 9 V is advertised as it is. -/
theorem losesNothing_oneAmpere : ∃ scfg, readConfig (typed (withRange "6000")).flash=some scfg ∧
    LosesNothing scfg programmableSource (pdbsDpmGetSinkCapability
      (settledTemplate (some programmableSource)) (some scfg) FirmwareSystem.initial.shared.dpm
      programmableSource pdSpecrev30 ⟨0,fun _ => 0⟩) := by
  cases hc : readConfig (typed (withRange "6000")).flash with
  | none => exact absurd hc (by decide +kernel)
  | some scfg =>
    have hneed : (readConfig (typed (withRange "6000")).flash).map
        (fun c => (neededCurrent c c.v,dpmGetRangeFixedPdoIndex programmableSource c))=some (100,-1) := by
      decide +kernel
    rw [hc] at hneed
    obtain ⟨hcur,hi⟩ := Prod.ext_iff.mp (Option.some_inj.mp hneed)
    dsimp only at hcur hi
    refine ⟨scfg,rfl,(losesNothing_iff (typed_reach _) hc _ _ _ _ _).mpr ⟨?_,fun h0 => ?_⟩⟩
    · omega
    · omega

/-- For 100 W at 9 V, 11.12 A are needed, and 0.88 A advertised. -/
theorem losesNothing_not_hundredWatts : ∃ scfg, readConfig (typed withPower).flash=some scfg ∧
    scfg.v≠0 ∧ ¬LosesNothing scfg programmableSource (pdbsDpmGetSinkCapability
      (settledTemplate (some programmableSource)) (some scfg) FirmwareSystem.initial.shared.dpm
      programmableSource pdSpecrev30 ⟨0,fun _ => 0⟩) := by
  cases hc : readConfig (typed withPower).flash with
  | none => exact absurd hc (by decide +kernel)
  | some scfg =>
    have hneed : (readConfig (typed withPower).flash).map (fun c => (neededCurrent c c.v,c.v))=
        some (1112,9000) := by decide +kernel
    have hread : (readConfig (typed withPower).flash).map (fun c =>
        let m := pdbsDpmGetSinkCapability (settledTemplate (some programmableSource)) (some c)
          FirmwareSystem.initial.shared.dpm programmableSource pdSpecrev30 ⟨0,fun _ => 0⟩
        (decide (1 < m.numobjGet) && isFixed (m.object 1),pdPdoSnkFixedVoltageGet (m.object 1),
          pdPdoSnkFixedCurrentGet (m.object 1)))=some (true,180,88) := by decide +kernel
    rw [hc] at hneed hread
    obtain ⟨hcur,hv⟩ := Prod.ext_iff.mp (Option.some_inj.mp hneed)
    obtain ⟨hobj,hfields⟩ := Prod.ext_iff.mp (Option.some_inj.mp hread)
    obtain ⟨hvolt,hadv⟩ := Prod.ext_iff.mp hfields
    dsimp only at hcur hv hobj hvolt hadv
    rw [Bool.and_eq_true,decide_eq_true_eq] at hobj
    refine ⟨scfg,rfl,by omega,fun hloses => ?_⟩
    have hexact := hloses.configured 1 hobj.1 hobj.2 (by rw [hvolt,hv]; rfl)
    omega

end UsbPdFirmware.AdvertisedPower
