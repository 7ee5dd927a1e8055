import Mathlib.Data.List.Basic

/-!
# Sequence numbers modulo n

A receiver that compares the number of each item with that of the item before
and passes over repetitions. Items arrive in the order of their positions, some
not at all and some several times, and carry their position modulo n.
-/

namespace UsbPdFirmware.SequenceNumbers

section Passed

variable {α : Type} (n : ℕ) (pos : α → ℕ)

/-- The items whose number is not that of the item right before. -/
def passed : Option α → List α → List α
  | _,[] => []
  | before,a::rest =>
    if before.any fun b => pos b%n==pos a%n then passed (some a) rest else a::passed (some a) rest

/-- A position is the greatest below another among those that occur. -/
def Latest (positions : List ℕ) (j i : ℕ) : Prop :=
  j ∈ positions ∧ j < i ∧ ∀ k ∈ positions, k < i → k ≤ j

variable {n pos} {before : Option α} {items : List α} {a b : α} {i j : ℕ}

/-- A repetition is passed over. -/
theorem passed_repeated {rest : List α} (h : pos b%n=pos a%n) :
    passed n pos (some b) (a::rest)=passed n pos (some a) rest := by
  rw [passed]
  exact if_pos (beq_iff_eq.mpr h)

/-- Any other item is not. -/
theorem passed_fresh {rest : List α} (h : ∀ b ∈ before, pos b%n≠pos a%n) :
    passed n pos before (a::rest)=a::passed n pos (some a) rest := by
  have hany : ¬(before.any fun b => pos b%n==pos a%n)=true := by
    rw [Option.any_eq_true]
    rintro ⟨b,hb,heq⟩
    exact h b hb (beq_iff_eq.mp heq)
  rw [passed]
  exact if_neg hany

/-- What is passed on arrived. -/
theorem passed_sublist (n : ℕ) (pos : α → ℕ) (before : Option α) (items : List α) :
    (passed n pos before items).Sublist items := by
  induction items generalizing before with
  | nil => exact List.Sublist.refl _
  | cons a rest ih =>
    unfold passed
    split
    · exact (ih (some a)).cons a
    · exact (ih (some a)).cons_cons a

/-- Items in the order of their positions are passed on at most once each, and
never one that came right before. -/
theorem passed_increasing (hitems : (items.map pos).Pairwise (· ≤ ·))
    (hbefore : ∀ b ∈ before, ∀ a ∈ items, pos b ≤ pos a) :
    ((passed n pos before items).map pos).Pairwise (· < ·) ∧
      ∀ b ∈ before, ∀ a ∈ passed n pos before items, pos b < pos a := by
  induction items generalizing before with
  | nil => exact ⟨List.Pairwise.nil,fun _ _ a ha => absurd ha List.not_mem_nil⟩
  | cons a rest ih =>
    rw [List.map_cons,List.pairwise_cons] at hitems
    have hrest : ∀ b ∈ some a, ∀ c ∈ rest, pos b ≤ pos c := by
      rintro b ⟨⟩ c hc
      exact hitems.1 _ (List.mem_map_of_mem hc)
    obtain ⟨hincreasing,hgreater⟩ := ih hitems.2 hrest
    have hafter : ∀ c ∈ passed n pos (some a) rest, pos a < pos c := hgreater a rfl
    by_cases hrepeated : ∃ b ∈ before, pos b%n=pos a%n
    · obtain ⟨b,rfl,heq⟩ := hrepeated
      rw [passed_repeated heq]
      refine ⟨hincreasing,?_⟩
      rintro b' ⟨⟩ c hc
      exact Nat.lt_of_le_of_lt (hbefore b rfl a List.mem_cons_self) (hafter c hc)
    · rw [passed_fresh fun b hb heq => hrepeated ⟨b,hb,heq⟩]
      refine ⟨List.pairwise_cons.mpr ⟨fun k hk => ?_,hincreasing⟩,fun b hb c hc => ?_⟩
      · obtain ⟨c,hc,rfl⟩ := List.mem_map.mp hk
        exact hafter c hc
      · have hle := hbefore b hb a List.mem_cons_self
        rcases List.mem_cons.mp hc with rfl | hc
        · exact Nat.lt_of_le_of_ne hle fun heq => hrepeated ⟨b,hb,congrArg (·%n) heq⟩
        · exact Nat.lt_of_le_of_lt hle (hafter c hc)

/-- The latest position before an item is not that of an item long gone. -/
theorem latest_cons {before : List ℕ} {rest : List ℕ} (hb : ∀ b ∈ before, b ≤ j) (hj : j < i) {k : ℕ} :
    Latest (before++j::rest) k i ↔ Latest (j::rest) k i := by
  constructor
  · rintro ⟨hmem,hlt,hmost⟩
    refine ⟨?_,hlt,fun m hm => hmost m (List.mem_append_right _ hm)⟩
    rcases List.mem_append.mp hmem with hk | hk
    · have hle := hmost j (List.mem_append_right _ List.mem_cons_self) hj
      rw [Nat.le_antisymm (hb k hk) hle]
      exact List.mem_cons_self
    · exact hk
  · rintro ⟨hmem,hlt,hmost⟩
    refine ⟨List.mem_append_right _ hmem,hlt,fun m hm hmi => ?_⟩
    rcases List.mem_append.mp hm with hm | hm
    · exact Nat.le_trans (hb m hm) (hmost j List.mem_cons_self hj)
    · exact hmost m hm hmi

/-- The latest position before the first item is that of the item before it. -/
theorem latest_first {rest : List ℕ} {j i k : ℕ} (hlt : j < i) (hrest : ∀ m ∈ rest, i ≤ m) :
    Latest (j::i::rest) k i ↔ k=j := by
  have hbelow {m : ℕ} (hm : m ∈ j::i::rest) (hmi : m < i) : m=j := by
    rcases List.mem_cons.mp hm with rfl | hm
    · rfl
    · rcases List.mem_cons.mp hm with rfl | hm
      · exact absurd hmi (Nat.lt_irrefl _)
      · exact absurd (hrest m hm) (Nat.not_le.mpr hmi)
  constructor
  · rintro ⟨hk,hki,-⟩
    exact hbelow hk hki
  · rintro rfl
    exact ⟨List.mem_cons_self,hlt,fun m hm hmi => Nat.le_of_eq (hbelow hm hmi)⟩

/-- The first item is passed on unless it has the number of the one before. -/
theorem first_passed {rest : List ℕ} {before : Option ℕ} (hbefore : ∀ b ∈ before, b ≤ i)
    (hrest : ∀ m ∈ rest, i ≤ m) :
    (∀ b ∈ before, b%n≠i%n) ↔ before≠some i ∧
      ∀ j, Latest (before.toList++i::rest) j i → j%n≠i%n := by
  cases before with
  | none =>
    refine iff_of_true nofun ⟨nofun,?_⟩
    rintro j ⟨hj,hlt,-⟩
    rcases List.mem_cons.mp hj with rfl | hj
    · exact absurd hlt (Nat.lt_irrefl _)
    · exact absurd (hrest j hj) (Nat.not_le.mpr hlt)
  | some b =>
    constructor
    · intro hne
      have hbi := hne b rfl
      have hlt : b < i := Nat.lt_of_le_of_ne (hbefore b rfl) fun heq => hbi (by rw [heq])
      refine ⟨fun heq => hbi (by rw [Option.some_inj.mp heq]),fun j hj => ?_⟩
      rw [(latest_first hlt hrest).mp hj]
      exact hbi
    · rintro ⟨hne,hlatest⟩ _ ⟨⟩
      have hlt : b < i := Nat.lt_of_le_of_ne (hbefore b rfl) fun heq => hne (by rw [heq])
      exact hlatest b ((latest_first hlt hrest).mpr rfl)

/-- Exactly those positions are passed on that arrived, and whose number is
not that of the latest position before them. -/
theorem mem_passed (hitems : (items.map pos).Pairwise (· ≤ ·))
    (hbefore : ∀ b ∈ before, ∀ a ∈ items, pos b ≤ pos a) :
    i ∈ (passed n pos before items).map pos ↔ i ∈ items.map pos ∧ before.map pos≠some i ∧
      ∀ j, Latest ((before.map pos).toList++items.map pos) j i → j%n≠i%n := by
  induction items generalizing before with
  | nil => exact iff_of_false List.not_mem_nil fun h => absurd h.1 List.not_mem_nil
  | cons a rest ih =>
    rw [List.map_cons,List.pairwise_cons] at hitems
    have hrest : ∀ b ∈ some a, ∀ c ∈ rest, pos b ≤ pos c := by
      rintro b ⟨⟩ c hc
      exact hitems.1 _ (List.mem_map_of_mem hc)
    have hrest' := ih hitems.2 hrest
    have hearlier : ∀ b ∈ before.map pos, b ≤ pos a := by
      intro b hb
      obtain ⟨c,hc,rfl⟩ := Option.map_eq_some_iff.mp hb
      exact hbefore c hc a List.mem_cons_self
    have hfresh : (∀ b ∈ before.map pos, b%n≠pos a%n) ↔ ∀ b ∈ before, pos b%n≠pos a%n := by
      cases before <;> simp
    have hcases : i ∈ (passed n pos before (a::rest)).map pos ↔
        i=pos a ∧ (∀ b ∈ before, pos b%n≠pos a%n) ∨ i ∈ (passed n pos (some a) rest).map pos := by
      by_cases hrepeated : ∃ b ∈ before, pos b%n=pos a%n
      · obtain ⟨b,rfl,heq⟩ := hrepeated
        rw [passed_repeated heq]
        exact ⟨.inr,fun h => h.resolve_left fun hfirst => hfirst.2 b rfl heq⟩
      · have hne : ∀ b ∈ before, pos b%n≠pos a%n := fun b hb heq => hrepeated ⟨b,hb,heq⟩
        rw [passed_fresh hne,List.map_cons,List.mem_cons]
        exact or_congr_left (and_iff_left hne).symm
    rw [hcases,hrest']
    by_cases hi : i=pos a
    · subst hi
      have hfirst := (first_passed (n := n) hearlier hitems.1).symm.trans hfresh
      rw [or_iff_left fun h => h.2.1 rfl,and_iff_right rfl]
      exact hfirst.symm.trans (and_iff_right List.mem_cons_self).symm
    · have hold : ∀ b ∈ (before.map pos).toList, b ≤ pos a := fun b hb =>
        hearlier b (Option.mem_toList.mp hb)
      rw [or_iff_right fun h => hi h.1]
      constructor
      · rintro ⟨hmem,-,hlatest⟩
        have hlt : pos a < i := Nat.lt_of_le_of_ne (hitems.1 i hmem) fun heq => hi heq.symm
        refine ⟨List.mem_cons_of_mem _ hmem,fun heq => ?_,fun j hj => ?_⟩
        · exact absurd (hearlier i heq) (Nat.not_le.mpr hlt)
        · exact hlatest j ((latest_cons hold hlt).mp hj)
      · rintro ⟨hmem,-,hlatest⟩
        have hmem := (List.mem_cons.mp hmem).resolve_left hi
        have hlt : pos a < i := Nat.lt_of_le_of_ne (hitems.1 i hmem) fun heq => hi heq.symm
        refine ⟨hmem,fun heq => hi (Option.some_inj.mp heq).symm,fun j hj => ?_⟩
        exact hlatest j ((latest_cons hold hlt).mpr hj)

end Passed

end UsbPdFirmware.SequenceNumbers
