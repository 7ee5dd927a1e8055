import Mathlib.Algebra.BigOperators.Group.Finset.Piecewise
import Mathlib.Algebra.Order.BigOperators.Group.Finset
import Mathlib.Algebra.Order.Group.Multiset
import Mathlib.Data.Fintype.BigOperators
import Mathlib.Tactic.Abel

/-!
# Ledgers of owned items

Finitely many places, each with a multiset of items. Items change places by
exchanges, which keep the total. Where the total has no repetition every item
has exactly one place. Everything is generic in the places and the items.
-/

namespace UsbPdFirmware.OwnershipLedger

variable {Place Item : Type}

/-- The items of every place. -/
abbrev Ledger (Place Item : Type) : Type := Place → Multiset Item

variable [Fintype Place]

/-- All items together. -/
def total (l : Ledger Place Item) : Multiset Item := ∑ p, l p

theorem total_add (l l' : Ledger Place Item) : total (l+l')=total l+total l' :=
  Finset.sum_add_distrib

/-- An item is somewhere. -/
theorem mem_total {l : Ledger Place Item} {x : Item} : x ∈ total l ↔ ∃ p, x ∈ l p := by
  unfold total
  rw [Multiset.mem_sum]
  simp only [Finset.mem_univ,true_and]

theorem le_total (l : Ledger Place Item) (p : Place) : l p ≤ total l :=
  Finset.single_le_sum (fun _ _ => Multiset.zero_le _) (Finset.mem_univ p)

/-- Two places hold no more than there is. -/
theorem add_le_total (l : Ledger Place Item) {p q : Place} (hne : p≠q) : l p+l q ≤ total l :=
  Finset.add_le_sum (fun _ _ => Multiset.zero_le _) (Finset.mem_univ p) (Finset.mem_univ q) hne

/-- Items without repetition have one place each. -/
theorem existsUnique_place {l : Ledger Place Item} {x : Item} (hn : (total l).Nodup)
    (hx : x ∈ total l) : ∃! p, x ∈ l p := by
  obtain ⟨p,hp⟩ := mem_total.mp hx
  refine ⟨p,hp,fun q hq => ?_⟩
  by_contra hne
  have hnodup : (l q+l p).Nodup := Multiset.nodup_of_le (add_le_total l hne) hn
  exact Multiset.disjoint_left.mp (Multiset.nodup_add.mp hnodup).2.2 hq hp

/-- The second ledger is the first after the same items left and came. -/
def Exchange (l l' : Ledger Place Item) : Prop := ∃ out into, l'+out=l+into ∧ total out=total into

/-- Nothing is lost and nothing is added. -/
theorem Exchange.total {l l' : Ledger Place Item} (h : Exchange l l') : total l'=total l := by
  obtain ⟨out,into,heq,hsame⟩ := h
  have hsum := congrArg OwnershipLedger.total heq
  rw [total_add,total_add,hsame] at hsum
  exact add_right_cancel hsum

theorem Exchange.refl (l : Ledger Place Item) : Exchange l l := ⟨0,0,rfl,rfl⟩

/-- One exchange after another. -/
theorem Exchange.trans {l l' l'' : Ledger Place Item} (h : Exchange l l') (h' : Exchange l' l'') :
    Exchange l l'' := by
  obtain ⟨out,into,heq,hsame⟩ := h
  obtain ⟨out',into',heq',hsame'⟩ := h'
  refine ⟨out+out',into+into',?_,?_⟩
  · calc l''+(out+out')=l''+out'+out := by abel
      _=l'+out+into' := by rw [heq']; abel
      _=l+(into+into') := by rw [heq]; abel
  · rw [total_add,total_add,hsame,hsame']

section Moves

variable [DecidableEq Place]

/-- Items at one place. -/
def only (p : Place) (items : Multiset Item) : Ledger Place Item := fun q => if q=p then items else 0

@[simp] theorem total_only (p : Place) (items : Multiset Item) : total (only p items)=items := by
  unfold total only
  rw [Finset.sum_ite_eq' Finset.univ p fun _ => items,if_pos (Finset.mem_univ p)]

/-- Items move from one place to another. -/
theorem Exchange.move {l l' : Ledger Place Item} (p q : Place) (items : Multiset Item)
    (h : ∀ r, l' r+only p items r=l r+only q items r) : Exchange l l' := by
  refine ⟨only p items,only q items,funext h,?_⟩
  rw [total_only,total_only]

end Moves

end UsbPdFirmware.OwnershipLedger
