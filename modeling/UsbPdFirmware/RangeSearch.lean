import Mathlib.Tactic.IntervalCases
import UsbPdFirmware.CurrentDivisor

/-!
# The search for an object in the voltage range

`dpm_get_range_fixed_pdo_index` against what it is for: of the objects that
qualify the one of highest or of lowest voltage, as the configuration prefers,
when a source lists its fixed objects by voltage.
-/

namespace UsbPdFirmware.RangeSearch

open PdMessage DevicePolicy IndexSearch RequestedObject CurrentDivisor

section Search

variable (scfg : PdbsConfig) (caps : PdMsg)

/-- An object that can be taken: a fixed supply with its voltage in the range,
in whole units of 50 mV, and the current needed at its voltage. -/
structure Qualifies (j : ℕ) : Prop where
  /-- It is one of the list. -/
  listed : j < caps.numobjGet
  /-- It is a fixed supply. -/
  fixed : isFixed (caps.object j)=true
  /-- Its voltage is not below the range. -/
  low : pdMv2Pdv scfg.vmin ≤ pdPdoSrcFixedVoltageGet (caps.object j)
  /-- Nor above. -/
  high : pdPdoSrcFixedVoltageGet (caps.object j) ≤ pdMv2Pdv scfg.vmax
  /-- It has the current. -/
  current : dpmGetCurrent scfg (objectVoltage caps j) ≤ pdPdoSrcFixedCurrentGet (caps.object j)

/-- The current is defined at the voltage of each fixed object. -/
def CurrentsDefined : Prop :=
  ∀ j < caps.numobjGet, isFixed (caps.object j)=true → ¬DividesByZero scfg (objectVoltage caps j)

/-- The fixed objects are in ascending order of voltage. -/
def AscendingVoltage : Prop :=
  ∀ j k, j < k → k < caps.numobjGet → isFixed (caps.object j)=true → isFixed (caps.object k)=true →
    objectVoltage caps j ≤ objectVoltage caps k

/-- The test of the loop. Without an answer it divides by zero. -/
def inRangeTest (j : ℕ) : Option Bool :=
  if isFixed (caps.object j)=true ∧ DividesByZero scfg (objectVoltage caps j) then none
  else some (inRange scfg (caps.object j))

/-- A run of the loop. It begins at the end that is preferred. -/
def SearchRun (r : ℤ) : Prop :=
  if scfg.hvPreferred then Run (inRangeTest scfg caps) caps.numobjGet (-1) (caps.numobjGet-1) r
  else Run (inRangeTest scfg caps) caps.numobjGet 1 0 r

variable {scfg caps} {i j : ℕ}

/-- The objects that qualify are those in range. -/
theorem qualifies_iff :
    Qualifies scfg caps j ↔ j < caps.numobjGet ∧ inRange scfg (caps.object j)=true := by
  unfold inRange
  simp only [Bool.and_eq_true,decide_eq_true_eq]
  constructor
  · intro h
    exact ⟨h.listed,⟨⟨h.fixed,h.current⟩,h.low⟩,h.high⟩
  · rintro ⟨hj,⟨⟨hfixed,hcur⟩,hlow⟩,hhigh⟩
    exact ⟨hj,hfixed,hlow,hhigh,hcur⟩

/-- The loop runs to the index returned. -/
theorem searchRun (h : CurrentsDefined scfg caps) :
    SearchRun scfg caps (dpmGetRangeFixedPdoIndex caps scfg) := by
  have htest (j : ℕ) (hj : j < caps.numobjGet) :
      inRangeTest scfg caps j=some (inRange scfg (caps.object j)) :=
    if_neg fun hzero => h j hj hzero.1 hzero.2
  rw [dpmGetRangeFixedPdoIndex_eq]
  unfold SearchRun
  split
  · exact search_run (k := caps.numobjGet) htest (by omega) (by omega)
  · exact search_run (k := caps.numobjGet) htest (by omega) (by omega)

/-- An index that is found qualifies, and none qualifies that comes first in
the preferred order. -/
theorem found_qualifies (h : dpmGetRangeFixedPdoIndex caps scfg=i) :
    Qualifies scfg caps i ∧
      ∀ k, Qualifies scfg caps k → if scfg.hvPreferred then k ≤ i else i ≤ k := by
  have hpos : 0 ≤ dpmGetRangeFixedPdoIndex caps scfg := by omega
  have hreached := mem_rangeVisits.mp (found_mem_rangeVisits hpos)
  have hfound := (dpmGetRangeFixedPdoIndex_found hpos).2
  rw [h,Int.toNat_natCast] at hreached hfound
  refine ⟨qualifies_iff.mpr ⟨hreached.1,hfound⟩,fun k hk => ?_⟩
  obtain ⟨hlist,hmatch⟩ := qualifies_iff.mp hk
  have hbefore := hreached.2 k hlist
  by_cases hv : scfg.hvPreferred=true
  · rw [if_pos hv] at hbefore ⊢
    by_contra hlt
    rw [hbefore (by omega)] at hmatch
    cases hmatch
  · rw [if_neg hv] at hbefore ⊢
    by_contra hlt
    rw [hbefore (by omega)] at hmatch
    cases hmatch

/-- Something is found when any object qualifies. -/
theorem Qualifies.found (h : Qualifies scfg caps j) : 0 ≤ dpmGetRangeFixedPdoIndex caps scfg := by
  obtain ⟨hj,hmatch⟩ := qualifies_iff.mp h
  rw [dpmGetRangeFixedPdoIndex_eq]
  split
  · have hindex : (((caps.numobjGet : ℤ)-1)+(caps.numobjGet-1-j : ℕ)*(-1)).toNat=j := by omega
    refine search_nonneg (k := caps.numobjGet-1-j) (by omega) (fun l hl => by omega) ?_
    rw [hindex]
    exact hmatch
  · have hindex : ((0 : ℤ)+j*1).toNat=j := by omega
    refine search_nonneg (k := j) (by omega) (fun l hl => by omega) ?_
    rw [hindex]
    exact hmatch

/-- In a list by voltage, an index that is not later is no higher. -/
theorem AscendingVoltage.le (h : AscendingVoltage caps) (hi : Qualifies scfg caps i)
    (hj : Qualifies scfg caps j) (hij : i ≤ j) : objectVoltage caps i ≤ objectVoltage caps j := by
  rcases Nat.eq_or_lt_of_le hij with rfl | hlt
  · exact Nat.le_refl _
  · exact h i j hlt hj.listed hi.fixed hj.fixed

/-- A negative result is minus one. -/
theorem index_nonneg_or : 0 ≤ dpmGetRangeFixedPdoIndex caps scfg ∨ dpmGetRangeFixedPdoIndex caps scfg=-1 := by
  rw [dpmGetRangeFixedPdoIndex_eq]
  split
  · exact search_nonneg_or
  · exact search_nonneg_or

/-- The loop ends inside the list. It returns minus one exactly when no object
qualifies; else the index of one that does, with the highest voltage or the
lowest as preferred, when the fixed objects are in ascending order. -/
theorem range_search (h : CurrentsDefined scfg caps) :
    SearchRun scfg caps (dpmGetRangeFixedPdoIndex caps scfg) ∧
    (dpmGetRangeFixedPdoIndex caps scfg=-1 ↔ ∀ j, ¬Qualifies scfg caps j) ∧
    (dpmGetRangeFixedPdoIndex caps scfg≠-1 →
      ∃ i : ℕ, dpmGetRangeFixedPdoIndex caps scfg=i ∧ Qualifies scfg caps i ∧
        (AscendingVoltage caps → ∀ k, Qualifies scfg caps k →
          if scfg.hvPreferred then objectVoltage caps k ≤ objectVoltage caps i
          else objectVoltage caps i ≤ objectVoltage caps k)) := by
  refine ⟨searchRun h,⟨fun hnone j hj => ?_,fun hnone => ?_⟩,fun hsome => ?_⟩
  · have hfound := hj.found
    omega
  · rcases (index_nonneg_or : 0 ≤ dpmGetRangeFixedPdoIndex caps scfg ∨ _) with hfound | hneg
    · obtain ⟨i,hi⟩ := Int.eq_ofNat_of_zero_le hfound
      exact absurd (found_qualifies hi).1 (hnone i)
    · exact hneg
  · obtain ⟨i,hi⟩ := Int.eq_ofNat_of_zero_le (index_nonneg_or.resolve_right hsome)
    obtain ⟨hq,hfirst⟩ := found_qualifies hi
    refine ⟨i,hi,hq,fun hasc k hk => ?_⟩
    have hk' := hfirst k hk
    by_cases hv : scfg.hvPreferred=true
    · rw [if_pos hv] at hk' ⊢
      exact hasc.le hk hq hk'
    · rw [if_neg hv] at hk' ⊢
      exact hasc.le hq hk hk'

end Search

/-- 10 W between 4 and 12 V, with high voltages preferred. -/
def tenWatts : PdbsConfig where
  status := pdbsConfigStatusValid
  flags := pdbsConfigFlagsHvPreferred ||| pdbsConfigFlagsCurrentDefnP
  v := 9000
  i := 1000
  vmin := 4000
  vmax := 12000

/-- A source of 5 V, 9 V and 15 V, each with 3 A. -/
def threeVoltages : PdMsg where
  hdr := pdSpecrev30 ||| pdMsgtypeSourceCapabilities ||| pdNumobj 3
  obj := fun i => if i.val=0 then 0x0001912C else if i.val=1 then 0x0002D12C else 0x0004B12C

/-- It has the second object taken. -/
theorem range_search_tenWatts : dpmGetRangeFixedPdoIndex threeVoltages tenWatts=1 ∧
    Qualifies tenWatts threeVoltages 1 ∧ objectVoltage threeVoltages 0 ≤ objectVoltage threeVoltages 1 := by
  have hdefined : CurrentsDefined tenWatts threeVoltages := by
    unfold CurrentsDefined
    decide +kernel
  have hasc : AscendingVoltage threeVoltages := by
    intro j k hjk hk
    have hnum : threeVoltages.numobjGet=3 := by decide
    rw [hnum] at hk
    interval_cases k <;> interval_cases j <;> decide +kernel
  have hindex : dpmGetRangeFixedPdoIndex threeVoltages tenWatts=1 := by decide +kernel
  obtain ⟨i,hi,hq,hbest⟩ := (range_search hdefined).2.2 (by rw [hindex]; decide)
  obtain rfl : i=1 := by omega
  have hfirst : Qualifies tenWatts threeVoltages 0 := qualifies_iff.mpr (by decide +kernel)
  have hle := hbest hasc 0 hfirst
  rw [if_pos (by decide)] at hle
  exact ⟨hindex,hq,hle⟩

end UsbPdFirmware.RangeSearch
