import Mathlib.Data.List.Basic
import Mathlib.Tactic.Ring

/-!
# Decimal digits

The digits of a number, padded with zeros, and the number read back from a
text: what its digits say when everything else is left out.
-/

namespace UsbPdFirmware.DecimalDigits

/-- Digits of a number, padded with zeros to a width. -/
def padded (width n : ℕ) : List Char :=
  List.replicate (width-(Nat.toDigits 10 n).length) '0'++Nat.toDigits 10 n

/-- The number that the digits of a text form. -/
def value (text : List Char) : ℕ := Nat.ofDigitChars 10 (text.filter Char.isDigit) 0

section Digits

variable {n width units places fraction : ℕ} {c : Char}

theorem isDigit_of_mem (h : c ∈ Nat.toDigits 10 n) : c.isDigit=true :=
  Nat.isDigit_of_mem_toDigits (by decide) (by decide) h

theorem isDigit_of_mem_padded (h : c ∈ padded width n) : c.isDigit=true := by
  rcases List.mem_append.mp h with hzero | hdigit
  · rw [List.eq_of_mem_replicate hzero]
    rfl
  · exact isDigit_of_mem hdigit

/-- Padding fills the width when the number fits. -/
theorem padded_length (hw : 0 < width) (h : n < 10^width) : (padded width n).length=width := by
  have hle := (Nat.length_toDigits_le_iff (by decide : 1 < 10) hw).mpr h
  unfold padded
  rw [List.length_append,List.length_replicate]
  omega

/-- Zeros in front do not count. -/
theorem ofDigitChars_padded : Nat.ofDigitChars 10 (padded width n) 0=n := by
  unfold padded
  rw [Nat.ofDigitChars_append,Nat.ofDigitChars_replicate_zero,Nat.mul_zero,
    Nat.ofDigitChars_ten_toDigits]

/-- Units and as many places of a fraction. -/
theorem value_point (hp : 0 < places) (h : fraction < 10^places) :
    value (padded 0 units++ '.'::padded places fraction)=units*10^places+fraction := by
  have hunits : (padded 0 units).filter Char.isDigit=padded 0 units :=
    List.filter_eq_self.mpr fun c => isDigit_of_mem_padded
  have hfraction : (padded places fraction).filter Char.isDigit=padded places fraction :=
    List.filter_eq_self.mpr fun c => isDigit_of_mem_padded
  unfold value
  rw [List.filter_append,List.filter_cons_of_neg (by decide),hunits,hfraction,Nat.ofDigitChars_append,
    Nat.ofDigitChars_eq_ofDigitChars_zero,ofDigitChars_padded,ofDigitChars_padded,
    padded_length hp h,Nat.mul_comm]

/-- The first digit is a zero for zero only. -/
theorem toDigits_head (hn : 0 < n) : (Nat.toDigits 10 n).head?≠some '0' := by
  induction n using Nat.strongRecOn with
  | ind n ih =>
    by_cases hlt : n < 10
    · rw [Nat.toDigits_of_lt_base hlt]
      intro h
      have hdigit := congrArg (fun c => c.map Char.toNat) h
      simp only [List.head?_cons,Option.map_some,Nat.toNat_digitChar_of_lt_ten hlt,Option.some_inj] at hdigit
      have hzero : '0'.toNat=48 := rfl
      omega
    · have hne : Nat.toDigits 10 (n/10)≠[] := Nat.toDigits_ne_nil
      rw [Nat.toDigits_of_base_le (by decide) (by omega),List.head?_append_of_ne_nil _ hne]
      exact ih (n/10) (by omega) (by omega)

end Digits

end UsbPdFirmware.DecimalDigits
