import Mathlib.Algebra.Order.Group.Nat
import Mathlib.Tactic.Ring
import Mathlib.Tactic.SplitIfs

/-!
# Searching a list by index

The first index with a property, and the loop that looks for an index from one
end of a list or from the other. Beside its result the loop has the indexes
that it visits, the last of which is the result when there is one.
-/

namespace UsbPdFirmware.IndexSearch

/-! ## First matches -/

/-- The first index below a bound with a property. -/
structure First (n : ℕ) (P : ℕ → Prop) (i : ℕ) : Prop where
  /-- It is below the bound. -/
  lt : i < n
  /-- It has the property. -/
  holds : P i
  /-- None before has it. -/
  before : ∀ j < i, ¬P j

/-- There is one only. -/
theorem First.unique {n i j : ℕ} {P : ℕ → Prop} (hi : First n P i) (hj : First n P j) : i=j := by
  rcases Nat.lt_trichotomy i j with h | h | h
  · exact absurd hi.holds (hj.before i h)
  · exact h
  · exact absurd hj.holds (hi.before j h)

/-- When any index has the property, one of them is the first. -/
theorem exists_first {n i : ℕ} {P : ℕ → Prop} (hi : i < n) (hp : P i) : ∃ j ≤ i, First n P j := by
  induction i using Nat.strong_induction_on with
  | _ i ih =>
    by_cases hbefore : ∃ j < i, P j
    · obtain ⟨j,hj,hpj⟩ := hbefore
      obtain ⟨k,hk,hfirst⟩ := ih j hj (by omega) hpj
      exact ⟨k,by omega,hfirst⟩
    · exact ⟨i,Nat.le_refl i,hi,hp,fun j hj hpj => hbefore ⟨j,hj,hpj⟩⟩

section Find

variable {n i : ℕ} {p : ℕ → Bool}

/-- A search through all indexes finds the first match. -/
theorem first_of_find (h : (List.range n).find? p=some i) : First n (fun j => p j=true) i := by
  obtain ⟨hp,hi,hbefore⟩ := List.find?_range_eq_some.mp h
  refine ⟨List.mem_range.mp hi,hp,fun j hj => ?_⟩
  have hnot := hbefore j hj
  simpa using hnot

/-- Or there is none. -/
theorem none_of_find (h : (List.range n).find? p=none) : ∀ j < n, ¬p j=true := fun j hj =>
  List.find?_eq_none.mp h j (List.mem_range.mpr hj)

end Find

/-! ## The loop -/

section Loop

variable (p : ℕ → Bool) (n : ℕ)

/-- From index `i` by `step` while the index is inside; minus one when nothing
is found. -/
def search (step : ℤ) : ℕ → ℤ → ℤ
  | 0,_ => -1
  | rounds+1,i => if 0 ≤ i ∧ i < n then if p i.toNat then i else search step rounds (i+step) else -1

/-- A run of the loop by a test that may have no answer, to its result. It
tests nothing outside. -/
inductive Run (test : ℕ → Option Bool) (n : ℕ) (step : ℤ) : ℤ → ℤ → Prop where
  | leave {i : ℤ} : ¬(0 ≤ i ∧ i < n) → Run test n step i (-1)
  | found {j : ℕ} : j < n → test j=some true → Run test n step j j
  | next {j : ℕ} {r : ℤ} : j < n → test j=some false → Run test n step (j+step) r → Run test n step j r

/-- The indexes it visits, in their order. -/
def visits (step : ℤ) : ℕ → ℤ → List ℕ
  | 0,_ => []
  | rounds+1,i =>
    if 0 ≤ i ∧ i < n then i.toNat::(if p i.toNat then [] else visits step rounds (i+step)) else []

variable {p n} {step i : ℤ} {rounds j : ℕ}

/-- What the loop finds is inside and matches. -/
theorem search_found (h : 0 ≤ search p n step rounds i) :
    search p n step rounds i < n ∧ p (search p n step rounds i).toNat=true := by
  induction rounds generalizing i with
  | zero =>
    unfold search at h
    exact absurd h (by decide)
  | succ rounds ih =>
    unfold search at h ⊢
    split_ifs at h ⊢ with hin hp
    · exact ⟨hin.2,hp⟩
    · exact ih h
    · exact absurd h (by decide)

/-- Else it returns minus one. -/
theorem search_nonneg_or : 0 ≤ search p n step rounds i ∨ search p n step rounds i=-1 := by
  induction rounds generalizing i with
  | zero => exact .inr rfl
  | succ rounds ih =>
    unfold search
    split_ifs with hin hp
    · exact .inl hin.1
    · exact ih
    · exact .inr rfl

/-- Something is found when an index ahead matches. -/
theorem search_nonneg {k : ℕ} (hk : k < rounds) (hin : ∀ l : ℕ, l ≤ k → 0 ≤ i+l*step ∧ i+l*step < n)
    (hp : p (i+k*step).toNat=true) : 0 ≤ search p n step rounds i := by
  induction rounds generalizing i k with
  | zero => omega
  | succ rounds ih =>
    have hfirst := hin 0 (Nat.zero_le k)
    rw [Int.natCast_zero,Int.zero_mul,Int.add_zero] at hfirst
    unfold search
    rw [if_pos hfirst]
    split_ifs with hpi
    · exact hfirst.1
    · cases k with
      | zero =>
        rw [Int.natCast_zero,Int.zero_mul,Int.add_zero] at hp
        exact absurd hp hpi
      | succ k =>
        have hshift (l : ℕ) : i+step+l*step=i+(l+1 : ℕ)*step := by
          push_cast
          ring
        refine ih (k := k) (by omega) (fun l hl => ?_) ?_
        · rw [hshift]
          exact hin (l+1) (by omega)
        · rw [hshift]
          exact hp

/-- The loop runs to what it returns, when every test inside has an answer and
the rounds last until the index leaves. -/
theorem search_run {test : ℕ → Option Bool} {k : ℕ} (htest : ∀ j < n, test j=some (p j))
    (hk : k < rounds) (hout : ¬(0 ≤ i+k*step ∧ i+k*step < n)) :
    Run test n step i (search p n step rounds i) := by
  induction rounds generalizing i k with
  | zero => omega
  | succ rounds ih =>
    unfold search
    split_ifs with hin hp
    · obtain ⟨j,rfl⟩ := Int.eq_ofNat_of_zero_le hin.1
      exact .found (by omega) ((htest j (by omega)).trans (congrArg some hp))
    · obtain ⟨j,rfl⟩ := Int.eq_ofNat_of_zero_le hin.1
      have hanswer : test j=some false :=
        (htest j (by omega)).trans (congrArg some (Bool.eq_false_iff.mpr hp))
      cases k with
      | zero =>
        rw [Int.natCast_zero,Int.zero_mul,Int.add_zero] at hout
        exact absurd hin hout
      | succ k =>
        have hnext : (j : ℤ)+(k+1 : ℕ)*step=j+step+k*step := by
          push_cast
          ring
        rw [hnext] at hout
        exact .next (by omega) hanswer (ih (by omega) hout)
    · exact .leave hin

/-- And it was visited. -/
theorem search_visited (h : 0 ≤ search p n step rounds i) :
    (search p n step rounds i).toNat ∈ visits p n step rounds i := by
  induction rounds generalizing i with
  | zero =>
    unfold search at h
    exact absurd h (by decide)
  | succ rounds ih =>
    unfold search at h ⊢
    unfold visits
    split_ifs at h ⊢ with hin hp
    · exact List.mem_cons_self
    · exact List.mem_cons_of_mem _ (ih h)
    · exact absurd h (by decide)

/-- Upwards, an index is visited when nothing before it matches. -/
theorem mem_visits_up (hi : 0 ≤ i) (hr : n < i+rounds) :
    j ∈ visits p n 1 rounds i ↔ i ≤ j ∧ j < n ∧ ∀ k < j, i ≤ k → p k=false := by
  induction rounds generalizing i with
  | zero =>
    have hout : ¬(i ≤ j ∧ j < n) := by omega
    exact ⟨fun h => absurd h List.not_mem_nil,fun h => absurd ⟨h.1,h.2.1⟩ hout⟩
  | succ rounds ih =>
    unfold visits
    split_ifs with hin hp
    · rw [List.mem_singleton]
      constructor
      · rintro rfl
        exact ⟨by omega,by omega,fun k hk hik => by omega⟩
      · rintro ⟨hij,hjn,hbefore⟩
        by_contra hne
        have hmatch := hbefore i.toNat (by omega) (by omega)
        rw [hp] at hmatch
        cases hmatch
    · rw [List.mem_cons,ih (by omega) (by omega)]
      constructor
      · rintro (rfl | ⟨hij,hjn,hbefore⟩)
        · exact ⟨by omega,by omega,fun k hk hik => by omega⟩
        · refine ⟨by omega,hjn,fun k hk hik => ?_⟩
          by_cases hki : k=i.toNat
          · rw [hki]
            exact Bool.eq_false_iff.mpr hp
          · exact hbefore k hk (by omega)
      · rintro ⟨hij,hjn,hbefore⟩
        by_cases hji : j=i.toNat
        · exact .inl hji
        · exact .inr ⟨by omega,hjn,fun k hk hik => hbefore k hk (by omega)⟩
    · have hout : ¬(i ≤ j ∧ j < n) := by omega
      exact ⟨fun h => absurd h List.not_mem_nil,fun h => absurd ⟨h.1,h.2.1⟩ hout⟩

/-- Downwards, when nothing after it matches. -/
theorem mem_visits_down (hi : i < n) (hr : i < rounds) :
    j ∈ visits p n (-1) rounds i ↔ j ≤ i ∧ ∀ k, j < k → k ≤ i → p k=false := by
  induction rounds generalizing i with
  | zero =>
    have hout : ¬(j : ℤ) ≤ i := by omega
    exact ⟨fun h => absurd h List.not_mem_nil,fun h => absurd h.1 hout⟩
  | succ rounds ih =>
    unfold visits
    split_ifs with hin hp
    · rw [List.mem_singleton]
      constructor
      · rintro rfl
        exact ⟨by omega,fun k hk hki => by omega⟩
      · rintro ⟨hji,hafter⟩
        by_contra hne
        have hmatch := hafter i.toNat (by omega) (by omega)
        rw [hp] at hmatch
        cases hmatch
    · rw [List.mem_cons,ih (by omega) (by omega)]
      constructor
      · rintro (rfl | ⟨hji,hafter⟩)
        · exact ⟨by omega,fun k hk hki => by omega⟩
        · refine ⟨by omega,fun k hk hki => ?_⟩
          by_cases hke : k=i.toNat
          · rw [hke]
            exact Bool.eq_false_iff.mpr hp
          · exact hafter k hk (by omega)
      · rintro ⟨hji,hafter⟩
        by_cases hje : j=i.toNat
        · exact .inl hje
        · exact .inr ⟨by omega,fun k hk hki => hafter k hk (by omega)⟩
    · have hout : ¬(j : ℤ) ≤ i := by omega
      exact ⟨fun h => absurd h List.not_mem_nil,fun h => absurd h.1 hout⟩

end Loop

end UsbPdFirmware.IndexSearch
