import Mathlib.Data.Fin.Tuple.Basic
import Mathlib.Data.Fin.Basic

/-!
# Logs of slots

A page of slots that is filled from the front: first the slots whose contents
are out of date, then at most one that is current, then blank ones. The three
kinds of contents are predicates that exclude one another. Searches find the
current slot and the first blank one; retiring, writing and erasing keep the
layout.
-/

namespace UsbPdFirmware.SlotLog

variable {Cell : Type} {n : ℕ}

/-- The kinds of contents a slot can have. -/
structure Kinds (Cell : Type) where
  /-- Ready to be written. -/
  blank : Cell → Prop
  /-- Out of date. -/
  retired : Cell → Prop
  /-- Current. -/
  live : Cell → Prop

/-- Slots in use when so many are out of date and one may be current. -/
def inUse (retired : ℕ) (current : Option Cell) : ℕ := retired+current.toList.length

@[simp] theorem inUse_none (r : ℕ) : inUse r (none : Option Cell)=r := rfl

@[simp] theorem inUse_some (r : ℕ) (c : Cell) : inUse r (some c)=r+1 := rfl

/-- The layout of a page. -/
structure Laid (K : Kinds Cell) (page : Fin n → Cell) (r : ℕ) (current : Option Cell) : Prop where
  /-- The slots in use fit on the page. -/
  fits : inUse r current ≤ n
  /-- The first slots are out of date. -/
  below : ∀ k : Fin n, k.val < r → K.retired (page k)
  /-- The next one is current, if there is a current one. -/
  here : ∀ k : Fin n, k.val=r → ∀ c, current=some c → page k=c ∧ K.live c
  /-- All others are blank. -/
  above : ∀ k : Fin n, inUse r current ≤ k.val → K.blank (page k)

variable {K : Kinds Cell} {page : Fin n → Cell} {r : ℕ} {c c' : Cell} {current : Option Cell}

/-- A page of blank slots. -/
theorem laid_blank (h : ∀ k, K.blank (page k)) : Laid K page 0 none where
  fits := Nat.zero_le n
  below k hk := absurd hk (Nat.not_lt_zero _)
  here _ _ _ hc := by cases hc
  above k _ := h k

/-- The current slot goes out of date. -/
theorem Laid.retire (h : Laid K page r (some c)) {k : Fin n} (hk : k.val=r) (hc : K.retired c') :
    Laid K (Function.update page k c') (r+1) none where
  fits := h.fits
  below j hj := by
    by_cases hjk : j=k
    · rw [hjk,Function.update_self]
      exact hc
    · have hlt : j.val < r := by
        have hne : j.val≠k.val := fun hv => hjk (Fin.ext hv)
        omega
      rw [Function.update_of_ne hjk]
      exact h.below j hlt
  here _ _ _ hc := by cases hc
  above j hj := by
    simp only [inUse_none] at hj
    have hjk : j≠k := Fin.ne_of_val_ne (by omega)
    rw [Function.update_of_ne hjk]
    exact h.above j hj

/-- The first blank slot becomes the current one, or changes while it is. -/
theorem Laid.write (h : Laid K page r current) {k : Fin n} (hk : k.val=r) (hc : K.live c) :
    Laid K (Function.update page k c) r (some c) where
  fits := by
    have hlt := k.isLt
    simp only [inUse_some]
    omega
  below j hj := by
    have hjk : j≠k := Fin.ne_of_val_ne (by omega)
    rw [Function.update_of_ne hjk]
    exact h.below j hj
  here j hj d hd := by
    have hjk : j=k := Fin.ext (by omega)
    cases hd
    rw [hjk,Function.update_self]
    exact ⟨rfl,hc⟩
  above j hj := by
    simp only [inUse_some] at hj
    have hjk : j≠k := Fin.ne_of_val_ne (by omega)
    have hle : inUse r current ≤ j.val := by
      cases current with
      | none =>
        simp only [inUse_none]
        omega
      | some d =>
        simp only [inUse_some]
        omega
    rw [Function.update_of_ne hjk]
    exact h.above j hle

section Search

variable {test : Cell → Bool}

/-- The search for a blank slot finds the first one after those in use. -/
theorem Laid.find_blank (h : Laid K page r current) (hb : ∀ d, K.blank d → test d=true)
    (hr : ∀ d, K.retired d → test d=false) (hl : ∀ d, K.live d → test d=false) {k : Fin n}
    (hk : k.val=inUse r current) : Fin.find? (fun j => test (page j))=some k := by
  rw [Fin.find?_eq_some_iff]
  refine ⟨hb _ (h.above k (by omega)),fun j hj => ?_⟩
  have hlt : j.val < inUse r current := by
    have hv : j.val < k.val := hj
    omega
  by_cases hjr : j.val < r
  · exact hr _ (h.below j hjr)
  · cases current with
    | none =>
      simp only [inUse_none] at hlt
      exact absurd hlt hjr
    | some d =>
      simp only [inUse_some] at hlt
      have hlive := h.here j (by omega) d rfl
      rw [hlive.1]
      exact hl d hlive.2

/-- On a full page it finds none. -/
theorem Laid.find_blank_full (h : Laid K page r current) (hr : ∀ d, K.retired d → test d=false)
    (hl : ∀ d, K.live d → test d=false) (hn : inUse r current=n) :
    Fin.find? (fun j => test (page j))=none := by
  rw [Fin.find?_eq_none_iff]
  intro j
  have hlt := j.isLt
  by_cases hjr : j.val < r
  · exact hr _ (h.below j hjr)
  · cases current with
    | none =>
      simp only [inUse_none] at hn
      omega
    | some d =>
      simp only [inUse_some] at hn
      have hlive := h.here j (by omega) d rfl
      rw [hlive.1]
      exact hl d hlive.2

/-- The search for the current slot finds it. -/
theorem Laid.find_live (h : Laid K page r (some c)) (hr : ∀ d, K.retired d → test d=false)
    (hl : ∀ d, K.live d → test d=true) {k : Fin n} (hk : k.val=r) :
    Fin.find? (fun j => test (page j))=some k := by
  rw [Fin.find?_eq_some_iff]
  have hlive := h.here k hk c rfl
  refine ⟨by rw [hlive.1]; exact hl c hlive.2,fun j hj => hr _ (h.below j ?_)⟩
  have hv : j.val < k.val := hj
  omega

/-- Without a current slot it finds none. -/
theorem Laid.find_live_none (h : Laid K page r none) (hb : ∀ d, K.blank d → test d=false)
    (hr : ∀ d, K.retired d → test d=false) : Fin.find? (fun j => test (page j))=none := by
  rw [Fin.find?_eq_none_iff]
  intro j
  by_cases hjr : j.val < r
  · exact hr _ (h.below j hjr)
  · exact hb _ (h.above j (by simp only [inUse_none]; omega))

end Search

end UsbPdFirmware.SlotLog
