import UsbPdFirmware.CommandEffects
import UsbPdFirmware.KeyStrokes
import UsbPdFirmware.LineInput

/-!
# The shell on its serial line

The loop of `pdbs_shell` over the bytes that arrive: prompt, line editor,
tokenizer and command, in one buffer that is never cleared. Whatever arrives,
it does what the words of the entered lines say, in their order.
-/

namespace UsbPdFirmware.SerialConsole

open DevicePolicy ConfigStore ShellCommands ConfigRanges CommandEffects LabelledRuns Machine KeyStrokes MaximalRuns
open TerminalRow LineTokens LineInput

/-! ## The loop -/

/-- `PDBS_SHELL_MAX_LINE_LENGTH`. -/
def pdbsShellMaxLineLength : ℕ := 64

/-- The local variables of `pdbs_shell` before anything is written to them. -/
structure Frame where
  /-- The line buffer. -/
  line : Buffer
  /-- Its size. -/
  size : line.length=pdbsShellMaxLineLength
  /-- The pointer of the tokenizer. -/
  tokp : Option ℕ
  /-- The array of arguments. -/
  args : ℕ → Option ℕ

/-- What goes out on the line. -/
inductive Output where
  | prompt
  /-- The bytes the line editor sends. -/
  | echo (bytes : List UInt8)
  /-- The new line after `^D`. -/
  | abandoned
  /-- The text of a command, or of the loop. -/
  | reply (text : String)

/-- The loop while it reads a line, and what it has done. -/
structure Session where
  /-- What the commands work on. -/
  shell : Shell
  /-- The variables of `shellGetLine`. -/
  reading : Reading
  /-- The pointer of the tokenizer. -/
  tokp : Option ℕ
  /-- The array of arguments. -/
  args : ℕ → Option ℕ
  /-- What was sent before this line was finished. -/
  sent : List Output
  /-- Signals to other threads. -/
  signals : List Signal
  /-- The loop was left for the bootloader. -/
  left : Bool

namespace Session

/-- Print the prompt, and begin to read into the buffer. -/
def prompt (s : Session) (line : Buffer) : Session :=
  {s with reading := (getLine line).start,sent := s.sent++[.prompt]}

/-- The line that was entered is split and run. The bootloader does not
return to the loop. -/
def runLine (seen : Surroundings) (r : Reading) (s : Session) : Session :=
  let t := tokenize s.tokp s.args r.line
  let reply := (dispatch seen t s.shell).perform t.mem s.shell
  let s : Session := {s with
    shell := reply.shell
    tokp := t.tokp
    args := t.args
    sent := s.sent++[.echo r.echo,.reply reply.text]
    signals := s.signals++reply.signals}
  if .bootloader ∈ reply.signals then {s with reading := (getLine t.mem).start,left := true}
  else s.prompt t.mem

/-- A byte arrives. -/
def byte (seen : Surroundings) (c : UInt8) (s : Session) : Session :=
  let r := getLineByte pdbsShellMaxLineLength c s.reading
  match r.result with
  | none => {s with reading := r}
  | some true => prompt {s with sent := s.sent++[.echo r.echo,.abandoned]} r.line
  | some false => s.runLine seen r

/-- The device is started with a page in flash. -/
def boot (page : Page) (frame : Frame) (sent : List Output) (signals : List Signal) : Session :=
  prompt ⟨startShell page,(getLine frame.line).start,frame.tokp,frame.args,sent,signals,false⟩ frame.line

/-- After the bootloader the device is started again, before a byte can
arrive. -/
def wake (frame : Frame) (s : Session) : Session :=
  if s.left then .boot s.shell.flash.page frame s.sent s.signals else s

end Session

/-- What happens to the device. -/
inductive Key where
  /-- A byte arrives; `seen` is what commands would show. -/
  | byte (seen : Surroundings) (c : UInt8)
  /-- The power goes and comes back. -/
  | powerCycle (frame : Frame)

/-- The device on its serial line, from an erased page on. It starts with
`frame`, and also after the bootloader. -/
def serial (frame : Frame) : Machine Session Key where
  start := .boot (fun _ _ => erased) frame [] []
  step key s := some (match key with
    | .byte seen c => (s.wake frame).byte seen c
    | .powerCycle frame => .boot s.shell.flash.page frame s.sent s.signals)

/-! ## What is entered -/

/-- What a byte does to the line. -/
def stroke (c : UInt8) : Stroke UInt8 :=
  if c=endOfTransmission then .abandon
  else if c=backspace ∨ c=delete then .rub
  else if c=carriageReturn then .enter
  else if c < space then .pass
  else .put c

/-- Most characters of a line. -/
def lineRoom : ℕ := pdbsShellMaxLineLength-1

/-- The words of a line. -/
def wordsOf (text : List UInt8) : List Word := (runs blank text).map toWord

/-- What a key adds to the input of the console. -/
def inputOf (text : List UInt8) : Key → Option Input
  | .byte seen c => (entered text (stroke c)).map fun line => .line seen (wordsOf line)
  | .powerCycle _ => some .powerCycle

/-- The text under edit after a key. -/
def textAfter (text : List UInt8) : Key → List UInt8
  | .byte _ c => press lineRoom text (stroke c)
  | .powerCycle _ => []

/-- The input of the console that keys amount to. -/
def inputs : List UInt8 → List Key → List Input
  | _,[] => []
  | text,key::keys => (inputOf text key).toList++inputs (textAfter text key) keys

/-- The answers of the console to the lines among inputs. -/
def answers : List Input → Shell → List Reply
  | [],_ => []
  | .line seen words::rest,sh => runWords seen words sh::answers rest (runWords seen words sh).shell
  | .powerCycle::rest,sh => answers rest (startShell sh.flash.page)

/-- The texts of the loop and its commands among what was sent. -/
def replies (sent : List Output) : List String :=
  sent.filterMap fun out => match out with
    | .reply text => some text
    | _ => none

/-! ## One byte -/

/-- A line is being read, into a buffer of the size it should have. -/
def Reads (r : Reading) : Prop :=
  ∃ line, line.length=pdbsShellMaxLineLength ∧ (getLine line).Reach anyStep r ∧ r.result=none

section Bytes

variable {r : Reading} {mem : Buffer} {c : UInt8} {tokp : Option ℕ} {args : ℕ → Option ℕ} {t : Tokens}

/-- Reading begins with any buffer of that size. -/
theorem reads_start {line : Buffer} (h : line.length=pdbsShellMaxLineLength) :
    Reads (getLine line).start := ⟨line,h,.start,rfl⟩

/-- What is known of a line that is being read, or was. -/
theorem reading_invariant {line : Buffer} (h : line.length=pdbsShellMaxLineLength)
    (hr : (getLine line).Reach anyStep r) :
    r.line.length=pdbsShellMaxLineLength ∧ r.p < pdbsShellMaxLineLength ∧
      ∀ i ∈ r.written, i < pdbsShellMaxLineLength := by
  have hne : line≠[] := by
    rintro rfl
    exact absurd h (by decide)
  have hblank : TerminalRow.Terminal.Shows ⟨[],[],0⟩ [] [] := ⟨rfl,rfl,0,rfl⟩
  have hinv := getLine_invariant hne hblank hr
  rw [← h]
  exact ⟨hinv.length,hinv.room,hinv.inside⟩

/-- A token ends inside the line. -/
theorem strtok_length (str : Option ℕ) (delim : List UInt8) (saveptr : Option ℕ) (mem : Buffer) :
    (strtok str delim saveptr mem).mem.length=mem.length := by
  unfold strtok
  cases str.or saveptr with
  | none => rfl
  | some start =>
    dsimp only
    cases strpbrk mem (start+strspn mem start delim) delim with
    | none => rfl
    | some q => exact List.length_set ..

/-- Splitting a line keeps the size of the buffer. -/
theorem gather_length (t : Tokens) : (gather t).mem.length=t.mem.length := by
  fun_induction gather t with
  | case1 t r t' htoken => exact strtok_length ..
  | case2 t r t' lp htoken hfull => exact strtok_length ..
  | case3 t r t' lp htoken hroom ih => exact ih.trans (strtok_length ..)

theorem tokenize_length : (tokenize tokp args mem).mem.length=mem.length := by
  unfold tokenize
  exact (gather_length _).trans (strtok_length ..)

/-- What a byte does to the line, by the key it stands for. -/
theorem getLineByte_stroke (hr : r.result=none) (hlength : r.line.length=pdbsShellMaxLineLength)
    (hroom : r.p < pdbsShellMaxLineLength) :
    let r' := getLineByte pdbsShellMaxLineLength c r
    (stroke c=.abandon ∧ r'.result=some true) ∨
    (stroke c=.enter ∧ r'.result=some false ∧ content r'=content r) ∨
    (entered (content r) (stroke c)=none ∧ r'.result=none ∧
      content r'=press lineRoom (content r) (stroke c)) := by
  have hcontent : (content r).length=r.p := List.length_take_of_le (by omega)
  have hlt : r.p < r.line.length := by omega
  unfold getLineByte stroke
  by_cases hend : c=endOfTransmission
  · rw [if_pos hend,if_pos hend]
    exact .inl ⟨rfl,rfl⟩
  rw [if_neg hend,if_neg hend]
  by_cases hback : c=backspace ∨ c=delete
  · rw [if_pos hback,if_pos hback]
    refine .inr (.inr ⟨rfl,?_⟩)
    by_cases hp : r.p=0
    · rw [if_neg (not_not.mpr hp)]
      refine ⟨hr,?_⟩
      have hnil : content r=[] := List.length_eq_zero_iff.mp (hcontent.trans hp)
      rw [hnil]
      rfl
    · rw [if_pos hp]
      refine ⟨hr,?_⟩
      change r.line.take (r.p-1)=(r.line.take r.p).dropLast
      rw [List.dropLast_take hlt]
  rw [if_neg hback,if_neg hback]
  by_cases henter : c=carriageReturn
  · rw [if_pos henter,if_pos henter]
    refine .inr (.inl ⟨rfl,rfl,?_⟩)
    change (r.line.set r.p 0).take r.p=r.line.take r.p
    rw [List.take_set,List.set_eq_of_length_le (List.length_take_le _ _)]
  rw [if_neg henter,if_neg henter]
  by_cases hctrl : c < space
  · rw [if_pos hctrl,if_pos hctrl]
    exact .inr (.inr ⟨rfl,hr,rfl⟩)
  rw [if_neg hctrl,if_neg hctrl]
  refine .inr (.inr ⟨rfl,?_⟩)
  by_cases hp : r.p < pdbsShellMaxLineLength-1
  · rw [if_pos hp,press_put (by rw [hcontent]; exact hp)]
    refine ⟨hr,?_⟩
    change (r.line.set r.p c).take (r.p+1)=r.line.take r.p++[c]
    rw [List.take_add_one,List.take_set,List.set_eq_of_length_le (List.length_take_le _ _),
      List.getElem?_set_self hlt]
    rfl
  · rw [if_neg hp,press_put_full (by rw [hcontent]; exact Nat.not_lt.mp hp)]
    exact ⟨hr,rfl⟩

/-- A line that Enter ends is run by its words, and the buffer stays. -/
theorem reads_entered (h : Reads r) (c : UInt8)
    (hres : (getLineByte pdbsShellMaxLineLength c r).result=some false) (tokp : Option ℕ)
    (args : ℕ → Option ℕ) (seen : Surroundings) (sh : Shell) :
    let r' := getLineByte pdbsShellMaxLineLength c r
    let t := tokenize tokp args r'.line
    (dispatch seen t sh).perform t.mem sh=runWords seen (wordsOf (content r')) sh ∧
      t.mem.length=pdbsShellMaxLineLength := by
  obtain ⟨line,hlength,hr,hnone⟩ := h
  have hne : line≠[] := by
    rintro rfl
    exact absurd hlength (by decide)
  have hstep : (getLine line).step c r=some (getLineByte pdbsShellMaxLineLength c r) := by
    rw [← hlength]
    exact if_pos hnone
  have hr' := Reach.step hr trivial hstep
  refine ⟨entered_runs hne hr' hres tokp args seen sh,?_⟩
  rw [tokenize_length]
  exact (reading_invariant hlength hr').1

end Bytes

/-! ## A run -/

section Run

variable {s : Session} {text : List UInt8} {seen : Surroundings}

/-- The loop reads a line, with this text in it so far, or is about to be
started again. -/
structure AtLine (s : Session) (text : List UInt8) : Prop where
  /-- It reads. -/
  reads : Reads s.reading
  /-- The text. -/
  content : content s.reading=text
  /-- The bootloader was entered from a shell that has been reset. -/
  left : s.left=true → text=[] ∧ startShell s.shell.flash.page=s.shell

/-- What a key adds to what was done: the inputs of the console it amounts to,
answered. -/
structure Does (s s' : Session) (input : List Input) : Prop where
  /-- The commands. -/
  shell : console.follow anyStep input s.shell=some s'.shell
  /-- Their texts. -/
  replies : replies s'.sent=replies s.sent++(answers input s.shell).map Reply.text
  /-- Their signals. -/
  signals : s'.signals=s.signals++(answers input s.shell).flatMap Reply.signals

/-- A new line is empty. -/
theorem atLine_prompt {line : Buffer} (h : line.length=pdbsShellMaxLineLength) (hl : s.left=false) :
    AtLine (s.prompt line) [] :=
  ⟨reads_start h,rfl,fun hleft => absurd (hl.symm.trans hleft) Bool.false_ne_true⟩

theorem replies_append (sent sent' : List Output) : replies (sent++sent')=replies sent++replies sent' :=
  List.filterMap_append

/-- Nothing is entered. -/
theorem does_nothing {s' : Session} (hshell : s'.shell=s.shell) (hsent : replies s'.sent=replies s.sent)
    (hsignals : s'.signals=s.signals) : Does s s' [] := by
  refine ⟨?_,?_,?_⟩
  · rw [hshell]
    rfl
  · rw [hsent]
    exact (List.append_nil _).symm
  · rw [hsignals]
    exact (List.append_nil _).symm

/-- Starting again after the bootloader enters nothing. -/
theorem AtLine.wake (h : AtLine s text) (frame : Frame) :
    Does s (s.wake frame) [] ∧ AtLine (s.wake frame) text ∧ (s.wake frame).left=false := by
  unfold Session.wake
  cases hl : s.left with
  | false => exact ⟨does_nothing rfl rfl rfl,h,hl⟩
  | true =>
    obtain ⟨rfl,hshell⟩ := h.left hl
    refine ⟨does_nothing hshell ?_ rfl,atLine_prompt frame.size rfl,rfl⟩
    change replies (s.sent++[_])=_
    rw [replies_append]
    exact List.append_nil _

/-- The line that was entered does what its words say. -/
theorem does_runLine {r : Reading} (hl : s.left=false)
    (hperform : let t := tokenize s.tokp s.args r.line
      (dispatch seen t s.shell).perform t.mem s.shell=runWords seen (wordsOf text) s.shell)
    (hmem : (tokenize s.tokp s.args r.line).mem.length=pdbsShellMaxLineLength) :
    Does s (s.runLine seen r) [.line seen (wordsOf text)] ∧ AtLine (s.runLine seen r) [] := by
  unfold Session.runLine
  dsimp only at hperform ⊢
  rw [hperform]
  by_cases hboot : .bootloader ∈ (runWords seen (wordsOf text) s.shell).signals
  · rw [if_pos hboot]
    have hshell := boots_runWords seen (wordsOf text) s.shell hboot
    refine ⟨⟨rfl,?_,?_⟩,reads_start hmem,rfl,fun _ => ⟨rfl,?_⟩⟩
    · change replies (s.sent++[_,_])=_
      rw [replies_append]
      rfl
    · exact congrArg (s.signals++·) (List.append_nil _).symm
    · dsimp only
      rw [hshell,startShell_page]
  · rw [if_neg hboot]
    refine ⟨⟨rfl,?_,?_⟩,atLine_prompt hmem hl⟩
    · change replies ((s.sent++[_,_])++[_])=_
      rw [replies_append,replies_append]
      exact List.append_nil _
    · exact congrArg (s.signals++·) (List.append_nil _).symm

/-- A byte does what it enters, if anything, and leaves the loop at a line. -/
theorem AtLine.byte (h : AtLine s text) (hl : s.left=false) (seen : Surroundings) (c : UInt8) :
    Does s (s.byte seen c) (inputOf text (.byte seen c)).toList ∧
      AtLine (s.byte seen c) (textAfter text (.byte seen c)) := by
  obtain ⟨line,hlength,hr,hnone⟩ := h.reads
  obtain ⟨hsize,hroom,-⟩ := reading_invariant hlength hr
  have hstep : (getLine line).step c s.reading=some (getLineByte pdbsShellMaxLineLength c s.reading) := by
    rw [← hlength]
    exact if_pos hnone
  have hnext := Reach.step hr trivial hstep
  have hsize' := (reading_invariant hlength hnext).1
  rw [← h.content]
  unfold inputOf textAfter Session.byte
  dsimp only
  rcases getLineByte_stroke (c := c) hnone hsize hroom with
    ⟨hk,hres⟩ | ⟨hk,hres,hcontent⟩ | ⟨hk,hres,hcontent⟩
  · rw [hres,hk]
    refine ⟨does_nothing rfl ?_ rfl,atLine_prompt hsize' hl⟩
    change replies ((s.sent++[_,_])++[_])=_
    rw [replies_append,replies_append]
    exact (List.append_nil _).trans (List.append_nil _)
  · obtain ⟨hperform,hmem⟩ := reads_entered h.reads c hres s.tokp s.args seen s.shell
    rw [hcontent] at hperform
    rw [hres,hk]
    exact does_runLine hl hperform hmem
  · rw [hres,hk]
    exact ⟨does_nothing rfl rfl rfl,⟨line,hlength,hnext,hres⟩,hcontent,
      fun hleft => absurd (hl.symm.trans hleft) Bool.false_ne_true⟩

/-- The answers to more inputs go on with the shell that is there by then. -/
theorem answers_append {input : List Input} {sh sh' : Shell} (h : console.follow anyStep input sh=some sh')
    (input' : List Input) : answers (input++input') sh=answers input sh++answers input' sh' := by
  induction input generalizing sh with
  | nil =>
    cases h
    rfl
  | cons i rest ih =>
    cases i with
    | line seen words => exact congrArg (runWords seen words sh::·) (ih h)
    | powerCycle => exact ih h

/-- One thing after another. -/
theorem Does.append {s' s'' : Session} {input input' : List Input} (h : Does s s' input)
    (h' : Does s' s'' input') : Does s s'' (input++input') := by
  refine ⟨?_,?_,?_⟩
  · rw [follow_append,h.shell]
    exact h'.shell
  · rw [answers_append h.shell,List.map_append,← List.append_assoc,← h.replies]
    exact h'.replies
  · rw [answers_append h.shell,List.flatMap_append,← List.append_assoc,← h.signals]
    exact h'.signals

/-- So does every key. -/
theorem AtLine.key (h : AtLine s text) (frame : Frame) (key : Key) : ∃ s', (serial frame).step key s=some s' ∧
    Does s s' (inputOf text key).toList ∧ AtLine s' (textAfter text key) := by
  cases key with
  | byte seen c =>
    obtain ⟨hwake,hline,hl⟩ := h.wake frame
    obtain ⟨hdoes,hnext⟩ := hline.byte hl seen c
    exact ⟨_,rfl,hwake.append hdoes,hnext⟩
  | powerCycle frame' =>
    refine ⟨_,rfl,⟨rfl,?_,?_⟩,atLine_prompt frame'.size rfl⟩
    · change replies (s.sent++[_])=_
      rw [replies_append]
      rfl
    · exact (List.append_nil _).symm

/-- Any keys do what they enter. -/
theorem AtLine.keys (h : AtLine s text) (frame : Frame) (keys : List Key) :
    ∃ s', (serial frame).follow anyStep keys s=some s' ∧ Does s s' (inputs text keys) ∧
      AtLine s' (keys.foldl textAfter text) := by
  induction keys generalizing s text with
  | nil => exact ⟨s,rfl,does_nothing rfl rfl rfl,h⟩
  | cons key keys ih =>
    obtain ⟨s₁,hstep,hdoes,hline⟩ := h.key frame key
    obtain ⟨s₂,hfollow,hdoes',hline'⟩ := ih hline
    refine ⟨s₂,?_,hdoes.append hdoes',hline'⟩
    have hany : anyStep s key := trivial
    unfold follow
    rw [if_pos hany,hstep]
    exact hfollow

end Run

/-- Whatever bytes arrive and whenever the power goes, the device goes on. It
does what the words of the entered lines tell the console to do, answers and
signals as that does, and everything stays in range. -/
theorem serial_refines_console (frame : Frame) (keys : List Key) :
    ∃ s, (serial frame).follow anyStep keys (serial frame).start=some s ∧
      console.follow anyStep (inputs [] keys) console.start=some s.shell ∧
      replies s.sent=(answers (inputs [] keys) console.start).map Reply.text ∧
      s.signals=(answers (inputs [] keys) console.start).flatMap Reply.signals ∧
      content s.reading=keys.foldl textAfter [] ∧ s.reading.line.length=pdbsShellMaxLineLength ∧
      (∀ i ∈ s.reading.written, i < pdbsShellMaxLineLength) ∧ InRange s.shell.tmpcfg ∧
      ∀ slot, s.shell.flash.page slot .status=pdbsConfigStatusValid → InRange (s.shell.flash.page slot) := by
  have hstart : AtLine (serial frame).start [] := atLine_prompt frame.size rfl
  obtain ⟨s,hfollow,hdoes,hline⟩ := hstart.keys frame keys
  obtain ⟨line,hlength,hr,-⟩ := hline.reads
  have hgood := console_good (reach_of_follow .start hdoes.shell)
  obtain ⟨hsize,-,hinside⟩ := reading_invariant hlength hr
  exact ⟨s,hfollow,hdoes.shell,hdoes.replies,hdoes.signals,hline.content,hsize,hinside,hgood.buffer,
    hgood.records⟩

end UsbPdFirmware.SerialConsole
