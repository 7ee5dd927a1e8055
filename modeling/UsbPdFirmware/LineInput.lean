import UsbPdFirmware.LabelledRuns
import UsbPdFirmware.LineTokens
import UsbPdFirmware.TerminalRow

/-!
# Reading a line

`shellGetLine` byte by byte: the line buffer, the pointer into it, and the echo
on a terminal. The screen shows what is in the buffer until the line ends.
-/

namespace UsbPdFirmware.LineInput

open LabelledRuns Machine TerminalRow Terminal MaximalRuns ConfigStore ShellCommands LineTokens

/-! ## The function -/

/-- The variables of `shellGetLine`, and what it has done. -/
structure Reading where
  /-- The line buffer. -/
  line : Buffer
  /-- The pointer, as an index. -/
  p : ℕ
  /-- The bytes sent. -/
  echo : List UInt8
  /-- The indexes that were written. -/
  written : List ℕ
  /-- The value returned: true when reading was aborted. -/
  result : Option Bool

/-- `'\x04'`. -/
def endOfTransmission : UInt8 := 0x04
/-- `'\x7F'`. -/
def delete : UInt8 := 0x7F

/-- Write a byte of the buffer. -/
def Reading.store (r : Reading) (c : UInt8) : Reading :=
  {r with line := r.line.set r.p c,written := r.p::r.written}

/-- Send bytes. -/
def Reading.send (r : Reading) (bytes : List UInt8) : Reading := {r with echo := r.echo++bytes}

/-- Move the pointer. -/
def Reading.move (r : Reading) (p : ℕ) : Reading := {r with p := p}

/-- Return. -/
def Reading.finish (r : Reading) (result : Bool) : Reading := {r with result := some result}

/-- The loop of `shellGetLine`, with the byte it reads. -/
def getLineByte (size : ℕ) (c : UInt8) (r : Reading) : Reading :=
  if c=endOfTransmission then (r.send [94,68]).finish true
  else if c=backspace ∨ c=delete then
    if r.p≠0 then (r.send [0x08,0x20,0x08]).move (r.p-1) else r
  else if c=carriageReturn then ((r.send [13,10]).store 0).finish false
  else if c < space then r
  else if r.p < size-1 then ((r.send [c]).store c).move (r.p+1)
  else r

/-- `shellGetLine` on a buffer, over the bytes received. -/
def getLine (line : Buffer) : Machine Reading UInt8 where
  start := ⟨line,0,[],[],none⟩
  step c r := if r.result=none then some (getLineByte line.length c r) else none

/-- The content of the buffer so far. -/
def content (r : Reading) : List UInt8 := r.line.take r.p

/-- A byte that is no control character and not DEL. -/
structure Printable (c : UInt8) : Prop where
  /-- It is no control character. -/
  notControl : ¬c < space
  /-- It is not DEL. -/
  notDelete : c≠delete

/-! ## The invariant -/

/-- What holds after every byte. -/
structure Invariant (size : ℕ) (t : Terminal) (above : List (List UInt8)) (prompt : List UInt8)
    (r : Reading) : Prop where
  /-- The buffer keeps its size. -/
  length : r.line.length=size
  /-- There is room for a NUL. -/
  room : r.p < size
  /-- Only the buffer was written. -/
  inside : ∀ i ∈ r.written, i < size
  /-- It has printable bytes only. -/
  printable : ∀ c ∈ content r, Printable c
  /-- The screen shows what is in it. -/
  shows : r.result=none → Shows (t.display r.echo) above (prompt++content r)
  /-- Enter ends the row and the string. -/
  entered : r.result=some false → IsString r.line 0 (content r) ∧
    ∃ n, Shows (t.display r.echo) (above++[prompt++content r++List.replicate n space]) []
  /-- `^D` is shown behind what is in the buffer. -/
  aborted : r.result=some true → Shows (t.display r.echo) above (prompt++content r++[94,68])

section Steps

variable {size : ℕ} {t : Terminal} {above : List (List UInt8)} {prompt : List UInt8} {r : Reading} {c : UInt8}

/-- A printable byte is shown as a character. -/
theorem Printable.shown (h : Printable c) : IsShown c := by
  have hctrl := h.notControl
  refine ⟨?_,?_,?_⟩ <;> rintro rfl <;> exact hctrl (by decide)

/-- Nothing is read before the first byte. -/
theorem invariant_start (line : Buffer) (hne : line≠[]) (h : Shows t above prompt) :
    Invariant line.length t above prompt (getLine line).start where
  length := rfl
  room := List.length_pos_iff.mpr hne
  inside i hi := absurd hi List.not_mem_nil
  printable c hc := absurd hc List.not_mem_nil
  shows _ := by
    have hempty : content (getLine line).start=[] := rfl
    rw [hempty,List.append_nil]
    exact h
  entered := nofun
  aborted := nofun

/-- The echo of `^D`. -/
theorem Invariant.abort (h : Invariant size t above prompt r) (hr : r.result=none) :
    Invariant size t above prompt ((r.send [94,68]).finish true) where
  length := h.length
  room := h.room
  inside := h.inside
  printable := h.printable
  shows := nofun
  entered := nofun
  aborted _ := by
    have hcaret : IsShown 94 := ⟨by decide,by decide,by decide⟩
    have hletter : IsShown 68 := ⟨by decide,by decide,by decide⟩
    have hshows := ((h.shows hr).put hcaret).put hletter
    rw [List.append_assoc] at hshows
    change Shows (t.display (r.echo++[94,68])) above (prompt++content r++[94,68])
    rw [display_append]
    exact hshows

/-- The last character goes. -/
theorem Invariant.erase (h : Invariant size t above prompt r) (hr : r.result=none) (hp : r.p≠0) :
    Invariant size t above prompt ((r.send [0x08,0x20,0x08]).move (r.p-1)) := by
  obtain ⟨q,hq⟩ := Nat.exists_eq_succ_of_ne_zero hp
  have hroom := h.room
  have hlast : content r=r.line.take q++[r.line.getD q 0] := by
    have hlt : q < r.line.length := by
      rw [h.length]
      omega
    unfold content
    rw [hq,List.take_add_one,List.getD_eq_getElem?_getD,List.getElem?_eq_getElem hlt]
    rfl
  have hcontent : content ((r.send [0x08,0x20,0x08]).move (r.p-1))=r.line.take q := by
    unfold content
    rw [hq]
    rfl
  refine ⟨h.length,?_,h.inside,fun c hc => ?_,fun _ => ?_,fun hres => ?_,fun hres => ?_⟩
  · change r.p-1 < size
    omega
  · rw [hcontent] at hc
    exact h.printable c (hlast ▸ List.mem_append_left _ hc)
  · have hshows := h.shows hr
    rw [hlast,← List.append_assoc] at hshows
    rw [hcontent]
    change Shows (t.display (r.echo++[0x08,0x20,0x08])) above (prompt++r.line.take q)
    rw [display_append]
    exact hshows.erase
  · exact absurd (hr.symm.trans hres) nofun
  · exact absurd (hr.symm.trans hres) nofun

/-- The line ends. -/
theorem Invariant.enter (h : Invariant size t above prompt r) (hr : r.result=none) :
    Invariant size t above prompt (((r.send [13,10]).store 0).finish false) := by
  have hroom := h.room
  have hlt : r.p < r.line.length := by
    rw [h.length]
    exact hroom
  have hset : r.line.set r.p 0=content r++0::r.line.drop (r.p+1) := by
    rw [List.set_eq_take_append_cons_drop,if_pos hlt]
    rfl
  have hcontent : content (((r.send [13,10]).store 0).finish false)=content r := by
    change (r.line.set r.p 0).take r.p=content r
    have hlength : (content r).length=r.p := List.length_take_of_le (by omega)
    rw [hset,List.take_left' hlength]
  have hstring : IsString (r.line.set r.p 0) 0 (content r) :=
    ⟨fun h0 => (h.printable 0 h0).notControl (by decide),_,hset⟩
  refine ⟨?_,h.room,fun i hi => ?_,fun c hc => ?_,nofun,fun _ => ?_,nofun⟩
  · exact (List.length_set ..).trans h.length
  · rcases List.mem_cons.mp hi with rfl | hi
    · exact hroom
    · exact h.inside i hi
  · rw [hcontent] at hc
    exact h.printable c hc
  · rw [hcontent]
    refine ⟨hstring,?_⟩
    change ∃ n, Shows (t.display (r.echo++[13,10])) _ []
    rw [display_append]
    exact (h.shows hr).endLine

/-- A character is appended. -/
theorem Invariant.append (h : Invariant size t above prompt r) (hr : r.result=none) (hc : Printable c)
    (hp : r.p < size-1) : Invariant size t above prompt (((r.send [c]).store c).move (r.p+1)) := by
  have hlt : r.p < r.line.length := by
    rw [h.length]
    omega
  have hcontent : content (((r.send [c]).store c).move (r.p+1))=content r++[c] := by
    change (r.line.set r.p c).take (r.p+1)=content r++[c]
    have hset : r.line.set r.p c=(content r++[c])++r.line.drop (r.p+1) := by
      rw [List.set_eq_take_append_cons_drop,if_pos hlt,List.append_assoc]
      rfl
    have hlength : (content r++[c]).length=r.p+1 := by
      rw [List.length_append,List.length_singleton]
      exact congrArg (·+1) (List.length_take_of_le (by omega))
    rw [hset,List.take_left' hlength]
  refine ⟨?_,?_,fun i hi => ?_,fun b hb => ?_,fun _ => ?_,fun hres => ?_,fun hres => ?_⟩
  · exact (List.length_set ..).trans h.length
  · change r.p+1 < size
    omega
  · rcases List.mem_cons.mp hi with rfl | hi
    · exact h.room
    · exact h.inside i hi
  · rw [hcontent] at hb
    rcases List.mem_append.mp hb with hb | hb
    · exact h.printable b hb
    · rw [List.mem_singleton.mp hb]
      exact hc
  · rw [hcontent,← List.append_assoc]
    change Shows (t.display (r.echo++[c])) above _
    rw [display_append]
    exact (h.shows hr).put hc.shown
  · exact absurd (hr.symm.trans hres) nofun
  · exact absurd (hr.symm.trans hres) nofun

/-- Every byte. -/
theorem Invariant.byte (h : Invariant size t above prompt r) (hr : r.result=none) (c : UInt8) :
    Invariant size t above prompt (getLineByte size c r) := by
  unfold getLineByte
  split_ifs with heot hback hp henter hctrl hroom
  · exact h.abort hr
  · exact h.erase hr hp
  · exact h
  · exact h.enter hr
  · exact h
  · exact h.append hr ⟨hctrl,fun hd => hback (.inr hd)⟩ hroom
  · exact h

end Steps

/-! ## Runs -/

section Runs

variable {line : Buffer} {t : Terminal} {above : List (List UInt8)} {prompt : List UInt8} {r : Reading}

/-- The invariant holds after any bytes. -/
theorem getLine_invariant (hne : line≠[]) (h : Shows t above prompt) (hr : (getLine line).Reach anyStep r) :
    Invariant line.length t above prompt r := by
  refine hr.invariant (invariant_start line hne h) fun r c r' _ hinv _ hs => ?_
  change (if r.result=none then some (getLineByte line.length c r) else none)=some r' at hs
  split_ifs at hs with hnone
  rw [← Option.some_inj.mp hs]
  exact hinv.byte hnone c

/-- Only the buffer is written, and the screen shows behind the prompt what is
in it: while the line goes on, in a finished row when Enter ends it as a string
of printable bytes with room for its NUL, and with `^D` behind when that ends
it. -/
theorem getLine_shows (hne : line≠[]) (h : Shows t above prompt) (hr : (getLine line).Reach anyStep r) :
    (∀ i ∈ r.written, i < line.length) ∧
    (r.result=none → Shows (t.display r.echo) above (prompt++content r)) ∧
    (r.result=some false →
      (∃ n, Shows (t.display r.echo) (above++[prompt++content r++List.replicate n space]) []) ∧
      IsString r.line 0 (content r) ∧ (content r).length ≤ line.length-1 ∧
      ∀ c ∈ content r, Printable c) ∧
    (r.result=some true → Shows (t.display r.echo) above (prompt++content r++[94,68])) := by
  have hinv := getLine_invariant hne h hr
  have hroom := hinv.room
  have hlength : (content r).length ≤ r.p := List.length_take_le r.p r.line
  exact ⟨hinv.inside,hinv.shows,fun hres => ⟨(hinv.entered hres).2,(hinv.entered hres).1,by omega,
    hinv.printable⟩,hinv.aborted⟩

/-- A line that Enter ended is split into its words, and run. -/
theorem entered_runs (hne : line≠[]) (hr : (getLine line).Reach anyStep r) (hres : r.result=some false)
    (tokp : Option ℕ) (args : ℕ → Option ℕ) (seen : Surroundings) (sh : Shell) :
    let t := tokenize tokp args r.line
    (dispatch seen t sh).perform t.mem sh=runWords seen ((runs blank (content r)).map toWord) sh := by
  have hblank : Shows ⟨[],[],0⟩ [] [] := ⟨rfl,rfl,0,rfl⟩
  have hstring := ((getLine_invariant hne hblank hr).entered hres).1
  exact perform_eq (tokenize_splits hstring tokp args) seen sh

end Runs

/-- The prompt on a new row. -/
def promptRow : Terminal := ⟨[],[80,68,66,83,41,32],6⟩

/-- In a buffer of three bytes, `ab`, a third letter, backspace and `c` leave
`ac`. -/
theorem getLine_shows_ac : ∃ r, (getLine [0,0,0]).Reach anyStep r ∧ content r=[97,99] ∧
    IsString r.line 0 [97,99] := by
  have hstart : Shows promptRow [] [80,68,66,83,41,32] := ⟨rfl,rfl,0,rfl⟩
  obtain ⟨r,hr,htest⟩ := exists_reach_of_follow (getLine [0,0,0]) anyStep [97,98,120,8,99,13]
    (fun r => r.result==some false && content r==[97,99]) (by decide)
  rw [Bool.and_eq_true,beq_iff_eq,beq_iff_eq] at htest
  have hentered := (getLine_shows (by decide) hstart hr).2.2.1 htest.1
  rw [htest.2] at hentered
  exact ⟨r,hr,htest.2,hentered.2.1⟩

/-- After `^D` alone the screen shows it, and nothing is in the buffer. -/
theorem getLine_echo_aborted :
    let r := getLineByte 1 endOfTransmission (getLine [0]).start
    (getLine [0]).Reach anyStep r ∧ content r=[] ∧
    Shows ((⟨[],[],0⟩ : Terminal).display r.echo) [] [94,68] ∧
    ∀ above, ¬Shows ((⟨[],[],0⟩ : Terminal).display r.echo) above (content r) := by
  refine ⟨.step (l := endOfTransmission) .start trivial rfl,rfl,⟨rfl,rfl,0,rfl⟩,fun above h => ?_⟩
  have hcolumn : 2=0 := h.column
  omega

end UsbPdFirmware.LineInput
