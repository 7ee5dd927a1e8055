import Mathlib.Data.List.TakeWhile

/-!
# Maximal runs

A list split into the maximal runs of what is no separator: the relation that
says what they are, and the function that computes them.
-/

namespace UsbPdFirmware.MaximalRuns

section Runs

variable {α : Type} (sep : α → Bool)

/-- A list that is empty, or begins with a separator. -/
def Stops : List α → Prop
  | [] => True
  | a::_ => sep a=true

/-- The maximal runs of a list, from the left. Each is followed by its end or
by a separator, so none can be longer. -/
inductive Runs : List α → List (List α) → Prop where
  | none {lead : List α} : (∀ a ∈ lead, sep a=true) → Runs lead []
  | run {lead w rest : List α} {ws : List (List α)} :
      (∀ a ∈ lead, sep a=true) → w≠[] → (∀ a ∈ w, sep a=false) → Stops sep rest → Runs rest ws →
        Runs (lead++(w++rest)) (w::ws)

/-- The maximal runs, computed. -/
def runs : List α → List (List α)
  | [] => []
  | a::s =>
    if sep a then runs s
    else if s.head?.all sep then [a]::runs s
    else match runs s with
      | [] => [[a]]
      | w::ws => (a::w)::ws

variable {sep} {lead w rest s : List α} {ws : List (List α)}

theorem stops_iff : Stops sep rest ↔ rest.head?.all sep=true := by
  cases rest with
  | nil => exact iff_of_true trivial rfl
  | cons a rest => exact Iff.rfl

/-- Separators are skipped. -/
theorem runs_lead (h : ∀ a ∈ lead, sep a=true) : runs sep (lead++rest)=runs sep rest := by
  induction lead with
  | nil => rfl
  | cons a lead ih =>
    have ha := h a List.mem_cons_self
    rw [List.cons_append,runs,if_pos ha]
    exact ih fun b hb => h b (List.mem_cons_of_mem a hb)

/-- Also the one where a run stops. -/
theorem runs_tail (h : Stops sep rest) : runs sep rest.tail=runs sep rest := by
  cases rest with
  | nil => rfl
  | cons a rest =>
    have ha : ∀ b ∈ [a], sep b=true := fun b hb => by
      rw [List.mem_singleton.mp hb]
      exact h
    exact (runs_lead ha).symm

/-- They are no run. -/
theorem runs_all (h : ∀ a ∈ lead, sep a=true) : runs sep lead=[] := by
  rw [← List.append_nil lead,runs_lead h]
  rfl

/-- A run goes as far as it can. -/
theorem runs_run (hne : w≠[]) (hw : ∀ a ∈ w, sep a=false) (hstop : Stops sep rest) :
    runs sep (w++rest)=w::runs sep rest := by
  induction w with
  | nil => exact absurd rfl hne
  | cons a w ih =>
    have ha : ¬sep a=true := Bool.eq_false_iff.mp (hw a List.mem_cons_self)
    rw [List.cons_append,runs,if_neg ha]
    cases w with
    | nil =>
      rw [List.nil_append,if_pos (stops_iff.mp hstop)]
    | cons b w =>
      have hb : ¬sep b=true := Bool.eq_false_iff.mp (hw b (by simp))
      have htail := ih (List.cons_ne_nil b w) fun c hc => hw c (List.mem_cons_of_mem a hc)
      rw [htail,if_neg]
      exact hb

/-- A run is ended by a separator. -/
theorem runs_ended {b : α} (hne : w≠[]) (hw : ∀ a ∈ w, sep a=false) (hb : sep b=true) :
    runs sep (w++b::rest)=w::runs sep rest := by
  have hstop : Stops sep (b::rest) := hb
  rw [runs_run hne hw hstop,← runs_tail hstop,List.tail_cons]

/-- A list that is one run. -/
structure IsRun (sep : α → Bool) (w : List α) : Prop where
  /-- It is not empty. -/
  ne_nil : w≠[]
  /-- It has no separator. -/
  clean : ∀ a ∈ w, sep a=false

/-- Runs with a separator between them. -/
theorem runs_joined {b : α} (hb : sep b=true) (hw : IsRun sep w) (h : ∀ v ∈ ws, IsRun sep v) :
    runs sep (w++ws.flatMap (b::·))=w::ws := by
  induction ws generalizing w with
  | nil => exact runs_run hw.ne_nil hw.clean trivial
  | cons v ws ih =>
    have hv := h v List.mem_cons_self
    rw [List.flatMap_cons,List.cons_append,runs_ended hw.ne_nil hw.clean hb,
      ih hv fun u hu => h u (List.mem_cons_of_mem v hu)]

/-- Runs that each end with separators. -/
theorem runs_lines {ending : List α} (hne : ending≠[]) (hending : ∀ a ∈ ending, sep a=true)
    (h : ∀ v ∈ ws, IsRun sep v) : runs sep (ws.flatMap (·++ending))=ws := by
  induction ws with
  | nil => rfl
  | cons v ws ih =>
    have hv := h v List.mem_cons_self
    have hstop : Stops sep (ending++ws.flatMap (·++ending)) := by
      obtain ⟨b,ending,rfl⟩ := List.exists_cons_of_ne_nil hne
      exact hending b List.mem_cons_self
    rw [List.flatMap_cons,List.append_assoc,runs_run hv.ne_nil hv.clean hstop,runs_lead hending,
      ih fun u hu => h u (List.mem_cons_of_mem v hu)]

/-- What the relation relates is what is computed. -/
theorem Runs.eq (h : Runs sep s ws) : runs sep s=ws := by
  induction h with
  | none hlead => exact runs_all hlead
  | run hlead hne hw hstop hrest ih => rw [runs_lead hlead,runs_run hne hw hstop,ih]

/-- What is left when separators are skipped begins with none. -/
theorem stops_dropWhile : Stops sep (s.dropWhile fun a => !sep a) := by
  cases hrest : s.dropWhile (fun a => !sep a) with
  | nil => exact trivial
  | cons a rest =>
    have hne : s.dropWhile (fun a => !sep a)≠[] := by
      rw [hrest]
      exact List.cons_ne_nil a rest
    have hhead := List.head_dropWhile_not (fun a => !sep a) hne
    simp only [hrest,List.head_cons,Bool.not_eq_false'] at hhead
    exact hhead

/-- A list has no run, or a first one and what follows it. -/
theorem exists_first_run (sep : α → Bool) (s : List α) : (∀ a ∈ s, sep a=true) ∨
    ∃ lead w rest, s=lead++(w++rest) ∧ (∀ a ∈ lead, sep a=true) ∧ w≠[] ∧ (∀ a ∈ w, sep a=false) ∧
      Stops sep rest := by
  have hlead : ∀ a ∈ s.takeWhile sep, sep a=true := fun a ha => List.mem_takeWhile_imp ha
  cases htail : s.dropWhile sep with
  | nil => exact .inl (List.dropWhile_eq_nil_iff.mp htail)
  | cons b tail =>
    have hb : sep b=false := by
      have hne : s.dropWhile sep≠[] := by
        rw [htail]
        exact List.cons_ne_nil b tail
      have hhead := List.head_dropWhile_not sep hne
      simp only [htail,List.head_cons] at hhead
      exact hhead
    refine .inr ⟨s.takeWhile sep,(b::tail).takeWhile (fun a => !sep a),
      (b::tail).dropWhile (fun a => !sep a),?_,hlead,?_,fun a ha => ?_,stops_dropWhile⟩
    · rw [List.takeWhile_append_dropWhile,← htail,List.takeWhile_append_dropWhile]
    · rw [List.takeWhile_cons_of_pos (by rw [hb]; rfl)]
      exact List.cons_ne_nil _ _
    · have hnot := List.mem_takeWhile_imp ha
      simpa using hnot

/-- Every list is related to what is computed. -/
theorem runs_spec (s : List α) : Runs sep s (runs sep s) := by
  induction hn : s.length using Nat.strong_induction_on generalizing s with
  | _ n ih =>
    rcases exists_first_run sep s with hall | ⟨lead,w,rest,rfl,hlead,hne,hw,hstop⟩
    · rw [runs_all hall]
      exact .none hall
    · have hpos := List.length_pos_iff.mpr hne
      have hrest := ih rest.length (by simp only [List.length_append] at hn; omega) rest rfl
      rw [runs_lead hlead,runs_run hne hw hstop]
      exact .run hlead hne hw hstop hrest

end Runs

end UsbPdFirmware.MaximalRuns
