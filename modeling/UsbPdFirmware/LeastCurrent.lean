import Mathlib.Tactic.Ring
import UsbPdFirmware.AdvertisedPower

/-!
# The least current that suffices

`dpm_get_current` against the least number of 10 mA units that delivers the
configured power, or that the configured resistance draws. The quotient is
computed in an `int` and returned in a halfword, which cuts it when a large
power meets a low voltage.
-/

namespace UsbPdFirmware.LeastCurrent

open PdMessage DevicePolicy ConfigStore CurrentDivisor AdvertisedPower

/-! ## Least multiples -/

/-- The least number whose multiple of a divisor reaches what is needed. -/
structure Least (need divisor c : ℤ) : Prop where
  /-- It reaches it. -/
  enough : need ≤ c*divisor
  /-- One less does not. -/
  before : (c-1)*divisor < need

/-- A number is the least when it bounds from below exactly those that reach. -/
theorem least_of_galois {need divisor c : ℕ} (hd : 0 < divisor)
    (h : ∀ k, c ≤ k ↔ need ≤ divisor*k) : Least need divisor c where
  enough := by
    have henough := (h c).mp (Nat.le_refl c)
    rw [Nat.mul_comm] at henough
    exact_mod_cast henough
  before := by
    cases c with
    | zero =>
      have hneg : (((0 : ℕ) : ℤ)-1)*divisor=-divisor := by
        push_cast
        ring
      rw [hneg]
      omega
    | succ c =>
      have hless : divisor*c < need := Nat.lt_of_not_le fun hle => absurd ((h c).mpr hle) (by omega)
      have hpred : (((c+1 : ℕ) : ℤ)-1)*divisor=divisor*c := by
        push_cast
        ring
      rw [hpred]
      exact_mod_cast hless

/-! ## The quotient of the code -/

/-- The values of an `int` while a quotient is rounded up, in their order. -/
def roundUpSteps (dividend divisor : ℤ) : List ℤ :=
  [dividend,dividend+divisor,dividend+divisor-1,(dividend+divisor-1).tdiv divisor]

/-- Those of `dpm_get_current`. -/
def intermediates (scfg : PdbsConfig) (mv : ℕ) : List ℤ :=
  let defn := scfg.flags &&& pdbsConfigFlagsCurrentDefn
  if defn==pdbsConfigFlagsCurrentDefnP then roundUpSteps (scfg.i*1000) mv
  else if defn==pdbsConfigFlagsCurrentDefnR then roundUpSteps (mv*10) scfg.i
  else []

/-- The value fits an `int`. -/
def FitsInt (n : ℤ) : Prop := -2^31 ≤ n ∧ n < 2^31

/-- A power or a resistance as the shell stores it. -/
def StoresQuotient (scfg : PdbsConfig) : Prop :=
  definedByPower scfg ∧ scfg.i ≤ 10000 ∨ definedByResistance scfg ∧ 50 ≤ scfg.i ∧ scfg.i ≤ 65535

/-- The current returned at a voltage is the least that suffices, and nothing
overflows or wraps on the way. -/
structure ReturnsLeast (scfg : PdbsConfig) (mv : ℕ) : Prop where
  /-- It delivers the power. -/
  power : definedByPower scfg → Least (1000*scfg.i) mv (dpmGetCurrent scfg mv)
  /-- It is what the resistance draws. -/
  resistance : definedByResistance scfg → Least (10*mv) scfg.i (dpmGetCurrent scfg mv)
  /-- The `int` does not overflow. -/
  fits : ∀ n ∈ intermediates scfg mv, FitsInt n
  /-- The halfword does not wrap. -/
  keeps : (intermediates scfg mv).getLast?=some (dpmGetCurrent scfg mv : ℤ)

section Quotient

variable {scfg : PdbsConfig} {mv dividend divisor : ℕ}

/-- The last value is the quotient rounded up. -/
theorem roundUpSteps_eq (hpos : 0 < divisor) : roundUpSteps dividend divisor=
    [(dividend : ℤ),dividend+divisor,dividend+divisor-1,(dividend ⌈/⌉ divisor : ℕ)] := by
  have hdividend : (dividend : ℤ)+divisor-1=(dividend+divisor-1 : ℕ) := by omega
  have hquotient : ((dividend : ℤ)+divisor-1).tdiv divisor=(dividend ⌈/⌉ divisor : ℕ) := by
    rw [Nat.ceilDiv_eq_add_pred_div,hdividend]
    exact (Int.ofNat_tdiv _ _).symm
  unfold roundUpSteps
  rw [hquotient]

/-- Rounding up stays inside an `int` for numbers of this size. -/
theorem roundUpSteps_fits (hn : dividend ≤ 10000000) (hd : divisor ≤ 65535) (hpos : 0 < divisor) :
    ∀ n ∈ roundUpSteps dividend divisor, FitsInt n := by
  have hle : dividend ⌈/⌉ divisor ≤ dividend+divisor-1 := by
    rw [Nat.ceilDiv_eq_add_pred_div]
    exact Nat.div_le_self _ _
  rw [roundUpSteps_eq hpos]
  simp only [List.forall_mem_cons,FitsInt]
  refine ⟨?_,?_,?_,?_,by simp⟩ <;> omega

/-- The two definitions exclude each other. -/
theorem not_definedByResistance (h : definedByPower scfg) : ¬definedByResistance scfg := by
  intro hr
  exact absurd (h.symm.trans hr) (by decide)

theorem intermediates_power (h : definedByPower scfg) :
    intermediates scfg mv=roundUpSteps ((scfg.i*1000 : ℕ) : ℤ) mv := by
  have hdefn : scfg.flags &&& pdbsConfigFlagsCurrentDefn=pdbsConfigFlagsCurrentDefnP := h
  unfold intermediates
  rw [hdefn]
  exact if_pos rfl

theorem intermediates_resistance (h : definedByResistance scfg) :
    intermediates scfg mv=roundUpSteps ((mv*10 : ℕ) : ℤ) scfg.i := by
  have hdefn : scfg.flags &&& pdbsConfigFlagsCurrentDefn=pdbsConfigFlagsCurrentDefnR := h
  unfold intermediates
  rw [hdefn]
  rfl

/-- With a power, everything is exact while its least current fits a halfword. -/
theorem returnsLeast_of_power (h : definedByPower scfg) (hp : scfg.i ≤ 10000) (hmv : 0 < mv)
    (hmax : mv ≤ 65535) (hfit : scfg.i*1000 ≤ mv*65535) : ReturnsLeast scfg mv := by
  have hneed : neededCurrent scfg mv ≤ 65535 := (neededCurrent_power h hmv 65535).mpr hfit
  have hcur : dpmGetCurrent scfg mv=neededCurrent scfg mv := by
    rw [dpmGetCurrent_eq (by omega)]
    exact Nat.mod_eq_of_lt (by omega)
  refine ⟨fun _ => ?_,fun hr => absurd hr (not_definedByResistance h),?_,?_⟩
  · have hleast := least_of_galois hmv (neededCurrent_power h hmv)
    rw [hcur]
    exact_mod_cast (Nat.mul_comm scfg.i 1000 ▸ hleast)
  · rw [intermediates_power h]
    exact roundUpSteps_fits (by omega) hmax hmv
  · rw [intermediates_power h,roundUpSteps_eq hmv,hcur,neededCurrent_of_power h]
    rfl

/-- With a resistance of at least half an ohm it always is. -/
theorem returnsLeast_of_resistance (h : definedByResistance scfg) (hmin : 50 ≤ scfg.i)
    (hr : scfg.i ≤ 65535) (hmax : mv ≤ 65535) : ReturnsLeast scfg mv := by
  have hpos : 0 < scfg.i := by omega
  have hneed : neededCurrent scfg mv ≤ 13107 :=
    (neededCurrent_resistance h hpos mv 13107).mpr (by omega)
  have hcur : dpmGetCurrent scfg mv=neededCurrent scfg mv := by
    rw [dpmGetCurrent_eq (by omega)]
    exact Nat.mod_eq_of_lt (by omega)
  refine ⟨fun hp => absurd h (not_definedByResistance hp),fun _ => ?_,?_,?_⟩
  · have hleast := least_of_galois hpos (neededCurrent_resistance h hpos mv)
    rw [hcur]
    exact_mod_cast (Nat.mul_comm mv 10 ▸ hleast)
  · rw [intermediates_resistance h]
    exact roundUpSteps_fits (by omega) hr hpos
  · rw [intermediates_resistance h,roundUpSteps_eq hpos,hcur,neededCurrent_of_resistance h]
    rfl

/-- What delivers the power in a halfword is not cut. -/
theorem ReturnsLeast.power_le (hl : ReturnsLeast scfg mv) (h : definedByPower scfg)
    (hp : scfg.i < 2^16) : 1000*scfg.i ≤ 65535*mv := by
  have henough := (hl.power h).enough
  have hcur : dpmGetCurrent scfg mv ≤ 65535 := by
    rw [dpmGetCurrent_eq hp]
    omega
  have hmul : dpmGetCurrent scfg mv*mv ≤ 65535*mv := Nat.mul_le_mul_right mv hcur
  exact le_trans (by exact_mod_cast henough) hmul

/-- The least current is returned exactly when the current is defined by a
resistance, or the power needs no more at this voltage than a halfword holds. -/
theorem returnsLeast_iff (hs : StoresQuotient scfg) (hmv : 0 < mv) (hmax : mv ≤ 65535) :
    ReturnsLeast scfg mv ↔ definedByResistance scfg ∨ 1000*scfg.i ≤ 65535*mv := by
  constructor
  · intro hl
    rcases hs with ⟨h,hp⟩ | ⟨h,-,-⟩
    · exact .inr (hl.power_le h (by omega))
    · exact .inl h
  · intro hfit
    rcases hs with ⟨h,hp⟩ | ⟨h,hmin,hr⟩
    · have hle := hfit.resolve_left (not_definedByResistance h)
      exact returnsLeast_of_power h hp hmv hmax (by omega)
    · exact returnsLeast_of_resistance h hmin hr hmax

end Quotient

/-- Lines that store a power, and a range from 50 mV to 5 V. -/
def lowRange (power : String) : List (List String) :=
  [["set_v","5000"],["set_p",power],["set_vrange","50","5000"],["write"]]

/-- The configuration that they store. -/
def lowConfig (power : String) : PdbsConfig :=
  (readConfig (typed (lowRange power)).flash).getD ⟨0,0,0,0,0,0⟩

/-- 10 W at 9 V. -/
theorem returnsLeast_nineVolts : ReturnsLeast (lowConfig "10000") 9000 :=
  (returnsLeast_iff (.inl (by decide +kernel)) (by decide) (by decide)).mpr (.inr (by decide +kernel))

/-- A source that offers 50 mV and 1 A. -/
def lowSource : PdMsg where
  hdr := pdSpecrev30 ||| pdMsgtypeSourceCapabilities ||| pdNumobj 1
  obj := fun _ => 0x00000464

/-- For 32.77 W at 50 mV, 655.4 A are needed, but 0.04 A returned; the range
search takes the object. -/
theorem returnsLeast_not_fiftyMillivolts :
    StoresQuotient (lowConfig "32770") ∧ ¬ReturnsLeast (lowConfig "32770") 50 ∧
    dpmGetCurrent (lowConfig "32770") 50=4 ∧
    dpmGetRangeFixedPdoIndex lowSource (lowConfig "32770")=0 := by
  have hdefn : definedByPower (lowConfig "32770") := by decide +kernel
  have hp : (lowConfig "32770").i=3277 := by decide +kernel
  refine ⟨.inl ⟨hdefn,by omega⟩,fun hl => ?_,by decide +kernel,by decide +kernel⟩
  have henough := (hl.power hdefn).enough
  have hcur : dpmGetCurrent (lowConfig "32770") 50=4 := by decide +kernel
  rw [hcur,hp] at henough
  omega

end UsbPdFirmware.LeastCurrent
