import UsbPdFirmware.PdMessage

/-!
# Fields of words

Words are put together from fields that do not overlap. A part outside a mask
may be left out under it, and a field that was placed is read back, cut to
its width.
-/

namespace UsbPdFirmware.BitFields

open PdMessage

section Parts

variable {w : ℕ} {a b k mask : BitVec w}

/-- A field outside the mask has none of its bits. -/
theorem fieldSet_and (h : mask &&& k=0) (shift i : ℕ) : fieldSet shift mask i &&& k=0 := by
  rw [fieldSet,BitVec.and_assoc,h]
  exact BitVec.and_zero

/-- Parts outside the mask together have none of its bits either. -/
theorem or_and_zero (ha : a &&& k=0) (hb : b &&& k=0) : (a ||| b) &&& k=0 := by
  rw [BitVec.and_or_distrib_right,ha,hb]
  exact BitVec.or_zero

/-- A part outside the mask may be left out. -/
theorem or_and_left (h : a &&& k=0) : (a ||| b) &&& k=b &&& k := by
  rw [BitVec.and_or_distrib_right,h]
  exact BitVec.zero_or

theorem or_and_right (h : b &&& k=0) : (a ||| b) &&& k=a &&& k := by
  rw [BitVec.and_or_distrib_right,h]
  exact BitVec.or_zero

/-- A mask within another is all that is left of it. -/
theorem and_and_right (h : mask &&& k=k) : a &&& mask &&& k=a &&& k := by
  rw [BitVec.and_assoc,h]

/-- Bits under a part of a mask are those under the mask. -/
theorem and_of_mask (h : a &&& mask=b &&& mask) (hk : mask &&& k=k) : a &&& k=b &&& k := by
  rw [← and_and_right hk,h,and_and_right hk]

theorem and_zero_of_mask (h : a &&& mask=0) (hk : mask &&& k=k) : a &&& k=0 := by
  rw [← and_and_right hk,h]
  exact BitVec.zero_and

/-- Clearing sets no bit. -/
theorem and_and_zero (h : a &&& k=0) : a &&& mask &&& k=0 := by
  rw [BitVec.and_assoc,BitVec.and_comm mask,← BitVec.and_assoc,h]
  exact BitVec.zero_and

theorem and_xor_left (a b k : BitVec w) : k &&& (a ^^^ b)=(k &&& a) ^^^ (k &&& b) := by
  ext i hi
  simp only [BitVec.getElem_and,BitVec.getElem_xor]
  exact Bool.and_xor_distrib_left _ _ _

/-- Flipping other bits leaves those of a mask. -/
theorem xor_and (h : b &&& k=0) : (a ^^^ b) &&& k=a &&& k := by
  have hb : k &&& b=0 := by rw [BitVec.and_comm,h]
  rw [BitVec.and_comm,and_xor_left,hb,BitVec.and_comm a]
  exact BitVec.xor_zero

/-- A field is read out of what its mask leaves. -/
theorem fieldGet_congr (h : a &&& mask=b &&& mask) (shift : ℕ) :
    fieldGet shift mask a=fieldGet shift mask b := by
  rw [fieldGet,fieldGet,h]

end Parts

section Widths

variable {w shift width : ℕ} {mask : BitVec w}

/-- The bits of a mask that starts at the shift. -/
theorem getLsbD_mask (hmask : mask=BitVec.ofNat w (2^width-1) <<< shift) (hw : shift+width ≤ w)
    (j : ℕ) : mask.getLsbD (shift+j)=decide (j < width) := by
  rw [hmask,BitVec.getLsbD_shiftLeft,BitVec.getLsbD_ofNat,Nat.testBit_two_pow_sub_one,
    Nat.add_sub_cancel_left]
  by_cases hj : j < width
  · have hlow : j < w ∧ shift+j < w := by omega
    simp [hj,hlow]
  · simp [hj]

/-- A placed field is read back, cut to the width of its mask. -/
theorem fieldGet_fieldSet (hmask : mask=BitVec.ofNat w (2^width-1) <<< shift)
    (hw : shift+width ≤ w) (i : ℕ) : fieldGet shift mask (fieldSet shift mask i)=i%2^width := by
  refine Nat.eq_of_testBit_eq fun j => ?_
  have hvalue : (BitVec.ofNat w i <<< shift).getLsbD (shift+j)=(decide (shift+j < w) && i.testBit j) := by
    rw [BitVec.getLsbD_shiftLeft,BitVec.getLsbD_ofNat,Nat.add_sub_cancel_left]
    by_cases hj : shift+j < w
    · have hlow : j < w := by omega
      simp [hj,hlow]
    · simp [hj]
  unfold fieldGet fieldSet
  rw [Nat.testBit_mod_two_pow,BitVec.and_assoc,BitVec.and_self,BitVec.testBit_toNat,
    BitVec.getLsbD_ushiftRight,BitVec.getLsbD_and,hvalue,getLsbD_mask hmask hw]
  by_cases hj : j < width
  · have hlow : shift+j < w := by omega
    simp [hj,hlow]
  · simp [hj]

/-- A value within the width is read back whole. -/
theorem fieldGet_fieldSet_of_lt (hmask : mask=BitVec.ofNat w (2^width-1) <<< shift)
    (hw : shift+width ≤ w) {i : ℕ} (hi : i < 2^width) :
    fieldGet shift mask (fieldSet shift mask i)=i := by
  rw [fieldGet_fieldSet hmask hw,Nat.mod_eq_of_lt hi]

/-- Bits below the shift are outside the mask. -/
theorem getLsbD_mask_below (hmask : mask=BitVec.ofNat w (2^width-1) <<< shift) {j : ℕ}
    (hj : j < shift) : mask.getLsbD j=false := by
  rw [hmask,BitVec.getLsbD_shiftLeft]
  simp [hj]

/-- What the mask leaves is the field at its place. -/
theorem toNat_and_mask (hmask : mask=BitVec.ofNat w (2^width-1) <<< shift) (a : BitVec w) :
    (a &&& mask).toNat=fieldGet shift mask a*2^shift := by
  refine Nat.eq_of_testBit_eq fun j => ?_
  unfold fieldGet
  rw [Nat.testBit_mul_two_pow,BitVec.testBit_toNat,BitVec.testBit_toNat,BitVec.getLsbD_ushiftRight]
  by_cases hj : shift ≤ j
  · simp only [hj,decide_true,Bool.true_and,Nat.add_sub_cancel' hj]
  · simp only [hj,decide_false,Bool.false_and]
    rw [BitVec.getLsbD_and,getLsbD_mask_below hmask (Nat.lt_of_not_ge hj),Bool.and_false]

/-- A field that is read is placed where it was. -/
theorem fieldSet_fieldGet (hmask : mask=BitVec.ofNat w (2^width-1) <<< shift) (a : BitVec w) :
    fieldSet shift mask (fieldGet shift mask a)=a &&& mask := by
  have hplace : BitVec.ofNat w (fieldGet shift mask a) <<< shift=a &&& mask := by
    apply BitVec.eq_of_toNat_eq
    rw [BitVec.toNat_shiftLeft,BitVec.toNat_ofNat,Nat.shiftLeft_eq,Nat.mod_mul_mod,
      ← toNat_and_mask hmask,Nat.mod_eq_of_lt (BitVec.isLt _)]
  rw [fieldSet,hplace,BitVec.and_assoc,BitVec.and_self]

/-- Fields are compared in place. -/
theorem and_lt_iff (hmask : mask=BitVec.ofNat w (2^width-1) <<< shift) (a b : BitVec w) :
    a &&& mask < b &&& mask ↔ fieldGet shift mask a < fieldGet shift mask b := by
  rw [BitVec.lt_def,toNat_and_mask hmask,toNat_and_mask hmask]
  exact Nat.mul_lt_mul_right (Nat.two_pow_pos shift)

end Widths

end UsbPdFirmware.BitFields
