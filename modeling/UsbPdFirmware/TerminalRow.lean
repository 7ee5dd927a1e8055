import Mathlib.Data.List.Basic

/-!
# A terminal

The rows of a terminal under the bytes sent to it: characters overwrite at the
cursor, backspace moves it back, and a line is ended by carriage return and
line feed. What a row shows is known by the text before the cursor, with only
blanks behind.
-/

namespace UsbPdFirmware.TerminalRow

/-- The rows above, the cells of the present row, and the column of the
cursor. -/
structure Terminal where
  /-- The finished rows. -/
  above : List (List UInt8)
  /-- The present row. -/
  row : List UInt8
  /-- The cursor. -/
  column : ℕ

/-- Backspace. -/
def backspace : UInt8 := 8
/-- Line feed. -/
def lineFeed : UInt8 := 10
/-- Carriage return. -/
def carriageReturn : UInt8 := 13
/-- A blank cell. -/
def space : UInt8 := 32

namespace Terminal

/-- A byte is sent. -/
def put (t : Terminal) (c : UInt8) : Terminal :=
  if c=backspace then {t with column := t.column-1}
  else if c=carriageReturn then {t with column := 0}
  else if c=lineFeed then ⟨t.above++[t.row],List.replicate t.column space,t.column⟩
  else ⟨t.above,t.row.take t.column++c::t.row.drop (t.column+1),t.column+1⟩

/-- A sequence of bytes is sent. -/
def display (t : Terminal) (bytes : List UInt8) : Terminal := bytes.foldl put t

/-- The present row, below others, shows a text, and the cursor is behind it. -/
structure Shows (t : Terminal) (above : List (List UInt8)) (text : List UInt8) : Prop where
  /-- The rows above. -/
  above : t.above=above
  /-- The cursor is behind it. -/
  column : t.column=text.length
  /-- Only blanks follow. -/
  row : ∃ n, t.row=text++List.replicate n space

/-- A byte that is shown as a character. -/
structure IsShown (c : UInt8) : Prop where
  /-- It does not move the cursor back. -/
  notBack : c≠backspace
  /-- Nor to the beginning. -/
  notReturn : c≠carriageReturn
  /-- Nor to the next row. -/
  notFeed : c≠lineFeed

theorem display_append (t : Terminal) (bytes more : List UInt8) :
    t.display (bytes++more)=(t.display bytes).display more := List.foldl_append

section Put

variable {t : Terminal} {above : List (List UInt8)} {c : UInt8} {text : List UInt8}

theorem put_of_shown (hc : IsShown c) :
    t.put c=⟨t.above,t.row.take t.column++c::t.row.drop (t.column+1),t.column+1⟩ := by
  unfold put
  rw [if_neg hc.notBack,if_neg hc.notReturn,if_neg hc.notFeed]

/-- A character is appended. -/
theorem Shows.put (h : Shows t above text) (hc : IsShown c) : Shows (t.put c) above (text++[c]) := by
  obtain ⟨n,hrow⟩ := h.row
  rw [put_of_shown hc,h.column,hrow]
  refine ⟨h.above,?_,n-1,?_⟩
  · rw [List.length_append]
    rfl
  · rw [List.take_left,← List.drop_drop,List.drop_left,List.drop_replicate,List.append_assoc]
    rfl

/-- Backspace, space and backspace erase the last character. -/
theorem Shows.erase (h : Shows t above (text++[c])) :
    Shows (t.display [backspace,space,backspace]) above text := by
  obtain ⟨n,hrow⟩ := h.row
  have hcolumn := h.column
  rw [List.length_append,List.length_singleton] at hcolumn
  have hback : t.put backspace={t with column := text.length} := by
    unfold Terminal.put
    rw [if_pos rfl,hcolumn]
    rfl
  have hblank : ({t with column := text.length} : Terminal).put space=
      ⟨t.above,text++List.replicate (n+1) space,text.length+1⟩ := by
    rw [put_of_shown ⟨by decide,by decide,by decide⟩]
    simp only [hrow]
    rw [List.append_assoc,List.take_left,← List.drop_drop,List.drop_left]
    rfl
  change Shows (((t.put backspace).put space).put backspace) above text
  rw [hback,hblank]
  exact ⟨h.above,rfl,n+1,rfl⟩

/-- Carriage return and line feed finish the row. -/
theorem Shows.endLine (h : Shows t above text) :
    ∃ n, Shows (t.display [carriageReturn,lineFeed]) (above++[text++List.replicate n space]) [] := by
  obtain ⟨n,hrow⟩ := h.row
  have hend : t.display [carriageReturn,lineFeed]=⟨t.above++[t.row],[],0⟩ := rfl
  rw [hend,h.above,hrow]
  exact ⟨n,rfl,rfl,0,rfl⟩

end Put

end Terminal

end UsbPdFirmware.TerminalRow
