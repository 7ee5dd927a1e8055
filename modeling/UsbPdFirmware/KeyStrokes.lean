import Mathlib.Data.List.Basic

/-!
# Keystrokes

A line of bounded length under edit, whatever it is made of: characters are
appended while there is room, the last one is rubbed out, the line is entered
or abandoned. A list of keystrokes enters a list of lines.
-/

namespace UsbPdFirmware.KeyStrokes

variable {α : Type}

/-- What a key does. -/
inductive Stroke (α : Type) where
  /-- Append a character. -/
  | put (a : α)
  /-- Delete the last one. -/
  | rub
  | enter
  | abandon
  /-- Nothing. -/
  | pass

/-- The text of the line after a keystroke. -/
def press (room : ℕ) (text : List α) : Stroke α → List α
  | .put a => if text.length < room then text++[a] else text
  | .rub => text.dropLast
  | .enter => []
  | .abandon => []
  | .pass => text

/-- The line a keystroke enters. -/
def entered (text : List α) : Stroke α → Option (List α)
  | .enter => some text
  | _ => none

/-- The text under edit after keystrokes. -/
def pending (room : ℕ) (text : List α) (strokes : List (Stroke α)) : List α :=
  strokes.foldl (press room) text

/-- The lines they enter. -/
def lines (room : ℕ) : List α → List (Stroke α) → List (List α)
  | _,[] => []
  | text,k::ks => (entered text k).toList++lines room (press room text k) ks

/-- The keystrokes of a text, and Enter. -/
def typing (text : List α) : List (Stroke α) := text.map .put++[.enter]

section Typing

variable {room : ℕ} {text s : List α} {strokes strokes' : List (Stroke α)} {ss : List (List α)}

theorem pending_append : pending room text (strokes++strokes')=
    pending room (pending room text strokes) strokes' := List.foldl_append

theorem lines_append : lines room text (strokes++strokes')=
    lines room text strokes++lines room (pending room text strokes) strokes' := by
  induction strokes generalizing text with
  | nil => rfl
  | cons k ks ih =>
    rw [List.cons_append,lines,lines,ih,List.append_assoc]
    rfl

/-- There is room for a character, or it is ignored. -/
theorem press_put (h : text.length < room) (a : α) : press room text (.put a)=text++[a] := if_pos h

theorem press_put_full (h : room ≤ text.length) (a : α) : press room text (.put a)=text :=
  if_neg (Nat.not_lt.mpr h)

/-- Characters that fit are in the text, and enter nothing. -/
theorem pending_puts (h : text.length+s.length ≤ room) :
    pending room text (s.map .put)=text++s ∧ lines room text (s.map .put)=[] := by
  induction s generalizing text with
  | nil => exact ⟨(List.append_nil text).symm,rfl⟩
  | cons a s ih =>
    rw [List.length_cons] at h
    have hroom := press_put (by omega : text.length < room) a
    have hlength : (text++[a]).length+s.length ≤ room := by
      rw [List.length_append,List.length_singleton]
      omega
    obtain ⟨hpending,hlines⟩ := ih hlength
    constructor
    · calc pending room text ((a::s).map .put)=pending room (press room text (.put a)) (s.map .put) := rfl
        _=text++a::s := by rw [hroom,hpending,List.append_assoc,List.singleton_append]
    · calc lines room text ((a::s).map .put)=lines room (press room text (.put a)) (s.map .put) := rfl
        _=[] := by rw [hroom,hlines]

/-- A text that fits is typed as a line, on an empty one. -/
theorem lines_typing (h : s.length ≤ room) :
    lines room [] (typing s)=[s] ∧ pending room [] (typing s)=[] := by
  have hlength : ([] : List α).length+s.length ≤ room := by
    rw [List.length_nil,Nat.zero_add]
    exact h
  obtain ⟨hpending,hlines⟩ := pending_puts hlength
  unfold typing
  rw [lines_append,hlines,pending_append,hpending]
  exact ⟨rfl,rfl⟩

/-- Texts that fit are typed as lines. -/
theorem lines_typings (h : ∀ s ∈ ss, s.length ≤ room) :
    lines room [] (ss.flatMap typing)=ss ∧ pending room [] (ss.flatMap typing)=[] := by
  induction ss with
  | nil => exact ⟨rfl,rfl⟩
  | cons s ss ih =>
    obtain ⟨hlines,hpending⟩ := lines_typing (h s List.mem_cons_self)
    obtain ⟨hlines',hpending'⟩ := ih fun t ht => h t (List.mem_cons_of_mem s ht)
    rw [List.flatMap_cons,lines_append,pending_append,hlines,hpending,hlines',hpending']
    exact ⟨rfl,rfl⟩

end Typing

end UsbPdFirmware.KeyStrokes
