import UsbPdFirmware.CapabilitySelection
import UsbPdFirmware.ConfigRanges

/-!
# The divisors of the configured current

`dpm_get_current` divides by the voltage it is asked for, or by the configured
resistance. The voltages asked for are collected along the callbacks that call
it; the shell's limits keep the resistance from being zero.
-/

namespace UsbPdFirmware.CurrentDivisor

open PdMessage DevicePolicy FirmwareState FirmwareSystem LabelledRuns Machine IndexSearch
open ConfigStore ConfigStoreRuns ShellCommands ConfigRanges
open RequestedObject CapabilitySelection

/-! ## Calls -/

/-- The current is defined by power. -/
def definedByPower (scfg : PdbsConfig) : Prop :=
  scfg.flags &&& pdbsConfigFlagsCurrentDefn=pdbsConfigFlagsCurrentDefnP

/-- It is defined by resistance. -/
def definedByResistance (scfg : PdbsConfig) : Prop :=
  scfg.flags &&& pdbsConfigFlagsCurrentDefn=pdbsConfigFlagsCurrentDefnR

/-- A call of `dpm_get_current` divides by zero. -/
def DividesByZero (scfg : PdbsConfig) (mv : ℕ) : Prop :=
  definedByPower scfg ∧ mv=0 ∨ definedByResistance scfg ∧ scfg.i=0

instance (scfg : PdbsConfig) : Decidable (definedByPower scfg) := inferInstanceAs (Decidable (_=_))

instance (scfg : PdbsConfig) : Decidable (definedByResistance scfg) := inferInstanceAs (Decidable (_=_))

instance (scfg : PdbsConfig) (mv : ℕ) : Decidable (DividesByZero scfg mv) :=
  inferInstanceAs (Decidable (_ ∨ _))

section Calls

variable (sh : FirmwareState.Shared) (scfg : PdbsConfig) (caps : PdMsg)

/-- The voltage of a fixed object, in millivolts. -/
def objectVoltage (j : ℕ) : ℕ := pdPdv2Mv (pdPdoSrcFixedVoltageGet (caps.object j))

/-- The objects the range search looks at, in its order. -/
def rangeVisits : List ℕ :=
  let p := fun j => inRange scfg (caps.object j)
  if scfg.hvPreferred then visits p caps.numobjGet (-1) (caps.numobjGet+1) (caps.numobjGet-1)
  else visits p caps.numobjGet 1 (caps.numobjGet+1) 0

/-- It asks for the current at each fixed one. -/
def rangeCalls : List ℕ :=
  ((rangeVisits scfg caps).filter fun j => isFixed (caps.object j)).map (objectVoltage caps)

/-- `pdbs_dpm_evaluate_capability` searches the range when it takes no object,
and asks again for the object found. -/
def evaluateCalls : List ℕ :=
  match sh.config with
  | some scfg =>
    if sh.dpm.outputEnabled ∧ (List.range caps.numobjGet).all
        (fun j => !accepted scfg (profileVoltage sh) (caps.object j)) then
      rangeCalls scfg caps++
        if 0 ≤ dpmGetRangeFixedPdoIndex caps scfg then
          [objectVoltage caps (dpmGetRangeFixedPdoIndex caps scfg).toNat] else []
    else []
  | none => []

/-- `pdbs_dpm_get_sink_capability` asks for the configured voltage, and
searches the range in the stored capabilities. -/
def sinkCapabilityCalls : List ℕ :=
  match sh.config with
  | some scfg => scfg.v::rangeCalls scfg caps
  | none => []

/-- `pdbs_dpm_evaluate_typec_current` asks at 5 V. -/
def typecCalls : List ℕ :=
  match sh.config with
  | some scfg => if scfg.v≠5000 ∧ (5000 < scfg.vmin ∨ scfg.vmax < 5000) then [] else [5000]
  | none => []

/-- None of the three callbacks divides by zero. -/
def NeverDividesByZero : Prop :=
  ∀ scfg, sh.config=some scfg →
    ∀ mv ∈ evaluateCalls sh caps++sinkCapabilityCalls sh caps++typecCalls sh, ¬DividesByZero scfg mv

/-- An object is looked at before the range search ends. -/
def Reached (j : ℕ) : Prop :=
  j < caps.numobjGet ∧ ∀ k < caps.numobjGet, (if scfg.hvPreferred then j < k else k < j) →
    inRange scfg (caps.object k)=false

/-- The range search reaches a fixed object whose voltage field is zero. -/
def ReachesZeroVoltage : Prop :=
  ∃ j, Reached scfg caps j ∧ isFixed (caps.object j)=true ∧
    pdPdoSrcFixedVoltageGet (caps.object j)=0

end Calls

/-! ## Voltages -/

section Voltages

variable {sh : FirmwareState.Shared} {scfg : PdbsConfig} {caps : PdMsg} {j : ℕ}

/-- The search looks at what it reaches. -/
theorem mem_rangeVisits : j ∈ rangeVisits scfg caps ↔ Reached scfg caps j := by
  unfold rangeVisits Reached
  dsimp only
  split
  · next hv =>
    rw [mem_visits_down (by omega) (by omega)]
    constructor
    · rintro ⟨hj,hafter⟩
      exact ⟨by omega,fun k hk hjk => hafter k hjk (by omega)⟩
    · rintro ⟨hj,hafter⟩
      exact ⟨by omega,fun k hjk hk => hafter k (by omega) hjk⟩
  · next hv =>
    rw [mem_visits_up (by omega) (by omega)]
    constructor
    · rintro ⟨-,hj,hbefore⟩
      exact ⟨hj,fun k _ hkj => hbefore k hkj (by omega)⟩
    · rintro ⟨hj,hbefore⟩
      exact ⟨by omega,hj,fun k hkj _ => hbefore k (by omega) hkj⟩

/-- It asks at zero volts when it reaches an object without voltage. -/
theorem zero_mem_rangeCalls : 0 ∈ rangeCalls scfg caps ↔ ReachesZeroVoltage scfg caps := by
  unfold rangeCalls ReachesZeroVoltage objectVoltage pdPdv2Mv
  simp only [List.mem_map,List.mem_filter,mem_rangeVisits]
  constructor
  · rintro ⟨j,⟨hj,hf⟩,hv⟩
    exact ⟨j,hj,hf,by omega⟩
  · rintro ⟨j,hj,hf,hv⟩
    exact ⟨j,⟨hj,hf⟩,by omega⟩

/-- Its result is the search's. -/
theorem dpmGetRangeFixedPdoIndex_eq : dpmGetRangeFixedPdoIndex caps scfg=
    if scfg.hvPreferred then
      search (fun j => inRange scfg (caps.object j)) caps.numobjGet (-1) (caps.numobjGet+1)
        (caps.numobjGet-1)
    else search (fun j => inRange scfg (caps.object j)) caps.numobjGet 1 (caps.numobjGet+1) 0 := by
  unfold dpmGetRangeFixedPdoIndex
  rw [rangeLoop_eq_search,rangeLoop_eq_search]

/-- The object it finds is one it looked at. -/
theorem found_mem_rangeVisits (h : 0 ≤ dpmGetRangeFixedPdoIndex caps scfg) :
    (dpmGetRangeFixedPdoIndex caps scfg).toNat ∈ rangeVisits scfg caps := by
  rw [dpmGetRangeFixedPdoIndex_eq] at h ⊢
  unfold rangeVisits
  dsimp only
  split
  · next hv =>
    rw [if_pos hv] at h
    exact search_visited h
  · next hv =>
    rw [if_neg hv] at h
    exact search_visited h

/-- And asked for. -/
theorem found_mem_rangeCalls (h : 0 ≤ dpmGetRangeFixedPdoIndex caps scfg) :
    objectVoltage caps (dpmGetRangeFixedPdoIndex caps scfg).toNat ∈ rangeCalls scfg caps := by
  have hfixed := (inRange_spec (dpmGetRangeFixedPdoIndex_found h).2).1
  exact List.mem_map_of_mem (List.mem_filter.mpr ⟨found_mem_rangeVisits h,hfixed⟩)

/-- An evaluation asks at no other voltages. -/
theorem evaluateCalls_subset (hc : sh.config=some scfg) : evaluateCalls sh caps ⊆ rangeCalls scfg caps := by
  unfold evaluateCalls
  rw [hc]
  dsimp only
  split
  · refine List.append_subset.mpr ⟨List.Subset.refl _,?_⟩
    split
    · next hfound => exact List.cons_subset.mpr ⟨found_mem_rangeCalls hfound,List.nil_subset _⟩
    · exact List.nil_subset _
  · exact List.nil_subset _

/-- Nor does the evaluation of the Type-C Current ask at zero. -/
theorem zero_not_mem_typecCalls : 0 ∉ typecCalls sh := by
  intro h
  unfold typecCalls at h
  split at h
  · split at h
    · exact absurd h List.not_mem_nil
    · exact absurd h (by decide)
  · exact absurd h List.not_mem_nil

/-- Zero volts are asked for the configured voltage, or in the range search. -/
theorem zero_mem_calls (hc : sh.config=some scfg) :
    0 ∈ evaluateCalls sh caps++sinkCapabilityCalls sh caps++typecCalls sh ↔
      scfg.v=0 ∨ ReachesZeroVoltage scfg caps := by
  have hsink : sinkCapabilityCalls sh caps=scfg.v::rangeCalls scfg caps := by
    unfold sinkCapabilityCalls
    rw [hc]
  rw [List.mem_append,List.mem_append,hsink,List.mem_cons,← zero_mem_rangeCalls]
  constructor
  · rintro ((heval | h0 | hrange) | htypec)
    · exact .inr (evaluateCalls_subset hc heval)
    · exact .inl h0.symm
    · exact .inr hrange
    · exact absurd htypec zero_not_mem_typecCalls
  · rintro (h0 | hrange)
    · exact .inl (.inr (.inl h0.symm))
    · exact .inl (.inr (.inr hrange))

end Voltages

/-! ## Configurations of the shell -/

/-- What is read from flash is in range. -/
theorem readConfig_inRange {sh : Shell} {scfg : PdbsConfig} (h : console.Reach anyStep sh)
    (hc : readConfig sh.flash=some scfg) : ∃ e, InRange e ∧ config e=scfg := by
  have hgood := console_good h
  obtain ⟨slot,hslot,hconfig⟩ := Option.map_eq_some_iff.mp hc
  obtain ⟨r,current,hst⟩ := exists_holds hgood.flash.any
  exact ⟨_,hgood.records slot (hst.read_status hslot),hconfig⟩

/-- Its resistance is none of the divisors that can be zero. -/
theorem dividesByZero_iff {e : Entry} (h : InRange e) (mv : ℕ) :
    DividesByZero (config e) mv ↔ definedByPower (config e) ∧ mv=0 := by
  refine ⟨fun hzero => ?_,.inl⟩
  rcases hzero with hp | ⟨hr,hi⟩
  · exact hp
  · have hi' : (e .i).toNat=0 := hi
    have hr' : e .flags &&& pdbsConfigFlagsCurrentDefn=pdbsConfigFlagsCurrentDefnR := hr
    rcases h.shared with ⟨hd,-⟩ | ⟨hd,-⟩ | ⟨-,hlow,-⟩
    · exact absurd (hd.symm.trans hr') (by decide)
    · exact absurd (hd.symm.trans hr') (by decide)
    · omega

/-- With a configuration of the shell the callbacks never divide by zero,
unless it is defined by power and either its voltage is zero or the range
search reaches an object without voltage. -/
theorem never_divides_by_zero_iff {shell : Shell} (h : console.Reach anyStep shell)
    {sh : FirmwareState.Shared} (hread : sh.config=readConfig shell.flash) (caps : PdMsg) :
    NeverDividesByZero sh caps ↔ ∀ scfg, sh.config=some scfg → definedByPower scfg →
      scfg.v≠0 ∧ ¬ReachesZeroVoltage scfg caps := by
  have hzero {scfg : PdbsConfig} (hc : sh.config=some scfg) (mv : ℕ) :
      DividesByZero scfg mv ↔ definedByPower scfg ∧ mv=0 := by
    obtain ⟨e,he,rfl⟩ := readConfig_inRange h (hread.symm.trans hc)
    exact dividesByZero_iff he mv
  constructor
  · intro hnever scfg hc hp
    have hnot : 0 ∉ evaluateCalls sh caps++sinkCapabilityCalls sh caps++typecCalls sh :=
      fun h0 => hnever scfg hc 0 h0 ((hzero hc 0).mpr ⟨hp,rfl⟩)
    rw [zero_mem_calls hc,not_or] at hnot
    exact hnot
  · intro hcond scfg hc mv hmv hdiv
    obtain ⟨hp,rfl⟩ := (hzero hc mv).mp hdiv
    obtain ⟨hv,hreach⟩ := hcond scfg hc hp
    rcases (zero_mem_calls hc).mp hmv with h0 | h0
    · exact hv h0
    · exact hreach h0

/-! ## On the console -/

/-- Lines typed at the first prompt. -/
def typed (lines : List (List String)) : Shell :=
  lines.foldl (fun sh words => (runWords ⟨"",none,.none⟩ (words.map String.toList) sh).shell)
    console.start

/-- They are a run. -/
theorem typed_reach (lines : List (List String)) : console.Reach anyStep (typed lines) := by
  unfold typed
  induction lines using List.reverseRecOn with
  | nil => exact .start
  | append_singleton lines words ih =>
    rw [List.foldl_append]
    exact .step (l := .line ⟨"",none,.none⟩ (words.map String.toList)) ih trivial rfl

/-- What the firmware finds after them. -/
def after (lines : List (List String)) : FirmwareState.Shared :=
  {initial.shared with config := readConfig (typed lines).flash}

/-- Lines that store 10 W at 9 V. -/
def withVoltage : List (List String) := [["set_v","9000"],["set_p","10000"],["write"]]

/-- Lines that store 10 W alone. -/
def withoutVoltage : List (List String) := [["set_p","10000"],["write"]]

/-- With 10 W at 9 V nothing divides by zero. -/
theorem never_divides_by_zero_nineVolts : NeverDividesByZero (after withVoltage) programmableSource := by
  refine (never_divides_by_zero_iff (typed_reach withVoltage) rfl programmableSource).mpr ?_
  intro scfg hc _
  have hv : (after withVoltage).config.map PdbsConfig.v=some 9000 := by decide +kernel
  rw [hc] at hv
  have hv' : scfg.v=9000 := Option.some_inj.mp hv
  refine ⟨by omega,?_⟩
  rintro ⟨j,⟨hj,-⟩,-,h0⟩
  have hj2 : j < 2 := hj
  interval_cases j
  · exact absurd h0 (by decide)
  · exact absurd h0 (by decide)

/-- A power without a voltage can be stored, and divides by zero. -/
theorem divides_by_zero_without_voltage :
    ¬NeverDividesByZero (after withoutVoltage) programmableSource := by
  intro hnever
  obtain ⟨scfg,hc,hp,hv⟩ : ∃ scfg, (after withoutVoltage).config=some scfg ∧
      definedByPower scfg ∧ scfg.v=0 := by
    cases hc : (after withoutVoltage).config with
    | none => exact absurd hc (by decide +kernel)
    | some scfg =>
      have hpair : (after withoutVoltage).config.map (fun c => (c.flags,c.v))=
          some (pdbsConfigFlagsCurrentDefnP,0) := by decide +kernel
      rw [hc] at hpair
      obtain ⟨hflags,hv⟩ := Prod.ext_iff.mp (Option.some_inj.mp hpair)
      refine ⟨scfg,rfl,?_,hv⟩
      unfold definedByPower
      rw [show scfg.flags=_ from hflags]
      rfl
  refine hnever scfg hc 0 ?_ (.inl ⟨hp,rfl⟩)
  refine List.mem_append_left _ (List.mem_append_right _ ?_)
  unfold sinkCapabilityCalls
  rw [hc,← hv]
  exact List.mem_cons_self

end UsbPdFirmware.CurrentDivisor
