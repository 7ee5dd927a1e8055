import UsbPdFirmware.ReenteredConfig
import UsbPdFirmware.SerialConsole

/-!
# Moving a configuration to another device

What one device prints for its configuration is typed, byte by byte, at the
serial line of another, stored there and found again after a power cycle.
-/

namespace UsbPdFirmware.ConfigTransfer

open DevicePolicy ConfigStore ConfigStoreRuns ConsoleText ShellCommands ConfigRanges ShellRecords
open PrintedConfig ReenteredConfig DecimalDigits LabelledRuns Machine MaximalRuns KeyStrokes
open TerminalRow LineTokens LineInput SerialConsole

/-! ## Typing lines -/

/-- A word as bytes. -/
def bytesOf (w : Word) : List UInt8 := w.map fun c => UInt8.ofNat c.toNat

/-- A line as it is typed, without Enter. -/
def lineBytes (line : List Word) : List UInt8 := bytesOf (unwords line)

/-- Lines, each with Enter. -/
def typedBytes (lines : List (List Word)) : List UInt8 :=
  lines.flatMap fun line => lineBytes line++[carriageReturn]

/-- Bytes arriving one after the other. -/
def arriving (seen : Surroundings) (bytes : List UInt8) : List Key := bytes.map (.byte seen)

/-- A character that can be typed into a word. -/
def Typable (c : Char) : Prop := 32 < c.toNat ∧ c.toNat < 127

instance (c : Char) : Decidable (Typable c) := inferInstanceAs (Decidable (_ ∧ _))

/-- A line of words that can be typed, and fits the buffer. -/
structure TypableLine (line : List Word) : Prop where
  /-- There is a word. -/
  ne_nil : line≠[]
  /-- No word is empty. -/
  words : ∀ w ∈ line, w≠[]
  /-- Its characters. -/
  typable : ∀ w ∈ line, ∀ c ∈ w, Typable c
  /-- There is room. -/
  room : (unwords line).length ≤ lineRoom

section Typing

variable {c : Char} {w : Word} {line : List Word} {lines : List (List Word)} {seen : Surroundings}
  {text bytes : List UInt8} {keys : List Key} {sh : Shell}

/-- A character is the byte typed for it. -/
theorem toNat_byte (h : c.toNat < 256) : (UInt8.ofNat c.toNat).toNat=c.toNat := by
  rw [UInt8.toNat_ofNat']
  exact Nat.mod_eq_of_lt h

theorem toWord_bytesOf (h : ∀ c ∈ w, c.toNat < 256) : toWord (bytesOf w)=w := by
  unfold toWord bytesOf
  rw [List.map_map]
  refine (List.map_congr_left fun c hc => ?_).trans (List.map_id w)
  change Char.ofNat (UInt8.ofNat c.toNat).toNat=c
  rw [toNat_byte (h c hc)]
  exact Char.ofNat_toNat c

/-- Bytes from the blank on are appended to the line. -/
theorem stroke_put (hlow : 32 ≤ c.toNat) (hhigh : c.toNat < 127) :
    stroke (UInt8.ofNat c.toNat)=.put (UInt8.ofNat c.toNat) := by
  have hne {b : UInt8} (hb : b.toNat < 32 ∨ b.toNat=127) : UInt8.ofNat c.toNat≠b := by
    intro heq
    rw [← heq,toNat_byte (by omega)] at hb
    omega
  have hspace : ¬UInt8.ofNat c.toNat < space := by
    intro hlt
    have hnat : (UInt8.ofNat c.toNat).toNat < 32 := UInt8.lt_iff_toNat_lt.mp hlt
    rw [toNat_byte (by omega)] at hnat
    omega
  unfold stroke
  rw [if_neg (hne (.inl (by decide))),
    if_neg (not_or.mpr ⟨hne (.inl (by decide)),hne (.inr (by decide))⟩),
    if_neg (hne (.inl (by decide))),if_neg hspace]

/-- The characters of a line are its words' and blanks. -/
theorem TypableLine.chars (h : TypableLine line) (hc : c ∈ unwords line) : 32 ≤ c.toNat ∧ c.toNat < 127 := by
  obtain ⟨w,ws,rfl⟩ := List.exists_cons_of_ne_nil h.ne_nil
  have htypable {v : Word} (hv : v ∈ w::ws) (hc : c ∈ v) : 32 ≤ c.toNat ∧ c.toNat < 127 :=
    ⟨Nat.le_of_lt (h.typable v hv c hc).1,(h.typable v hv c hc).2⟩
  rcases List.mem_append.mp hc with hc | hc
  · exact htypable List.mem_cons_self hc
  · obtain ⟨v,hv,hc⟩ := List.mem_flatMap.mp hc
    rcases List.mem_cons.mp hc with rfl | hc
    · decide
    · exact htypable (List.mem_cons_of_mem w hv) hc

/-- The shell finds the words that were typed. -/
theorem TypableLine.wordsOf (h : TypableLine line) : wordsOf (lineBytes line)=line := by
  have hrun {v : Word} (hv : v ∈ line) : IsRun blank (bytesOf v) := by
    refine ⟨fun hnil => h.words v hv (List.map_eq_nil_iff.mp hnil),fun b hb => ?_⟩
    obtain ⟨c,hc,rfl⟩ := List.mem_map.mp hb
    have htypable := h.typable v hv c hc
    have hne {b : UInt8} (hb : b.toNat ≤ 32) : UInt8.ofNat c.toNat≠b := by
      intro heq
      rw [← heq,toNat_byte (by have := htypable.2; omega)] at hb
      exact absurd htypable.1 (Nat.not_lt.mpr hb)
    have hspace : UInt8.ofNat c.toNat≠32 := hne (by decide)
    have htab : UInt8.ofNat c.toNat≠9 := hne (by decide)
    simp [blank,blanks,hspace,htab]
  have hbytes {v : Word} (hv : v ∈ line) : toWord (bytesOf v)=v :=
    toWord_bytesOf fun c hc => (h.typable v hv c hc).2.trans (by decide)
  obtain ⟨w,ws,rfl⟩ := List.exists_cons_of_ne_nil h.ne_nil
  have hjoin : lineBytes (w::ws)=bytesOf w++(ws.map bytesOf).flatMap (32::·) := by
    unfold lineBytes bytesOf unwords
    rw [List.map_append,List.map_flatMap,List.flatMap_map]
    rfl
  have hruns : runs blank (lineBytes (w::ws))=(w::ws).map bytesOf := by
    rw [hjoin]
    refine runs_joined (by decide) (hrun List.mem_cons_self) fun v hv => ?_
    obtain ⟨u,hu,rfl⟩ := List.mem_map.mp hv
    exact hrun (List.mem_cons_of_mem w hu)
  unfold SerialConsole.wordsOf
  rw [hruns,List.map_map]
  exact (List.map_congr_left fun v hv => hbytes hv).trans (List.map_id _)

/-- Its bytes are keystrokes that type it. -/
theorem TypableLine.strokes (h : TypableLine line) :
    (lineBytes line++[carriageReturn]).map stroke=typing (lineBytes line) := by
  have hputs : (lineBytes line).map stroke=(lineBytes line).map .put := by
    refine List.map_congr_left fun b hb => ?_
    obtain ⟨c,hc,rfl⟩ := List.mem_map.mp hb
    obtain ⟨hlow,hhigh⟩ := h.chars hc
    exact stroke_put hlow hhigh
  rw [List.map_append,hputs]
  rfl

/-- Bytes enter the lines of their keystrokes. -/
theorem inputs_arriving (seen : Surroundings) (text bytes : List UInt8) : inputs text (arriving seen bytes)=
      (KeyStrokes.lines lineRoom text (bytes.map stroke)).map (fun line => .line seen (SerialConsole.wordsOf line)) ∧
    (arriving seen bytes).foldl textAfter text=pending lineRoom text (bytes.map stroke) := by
  induction bytes generalizing text with
  | nil => exact ⟨rfl,rfl⟩
  | cons c bytes ih =>
    obtain ⟨hinputs,hpending⟩ := ih (press lineRoom text (stroke c))
    refine ⟨?_,hpending⟩
    change (inputOf text (.byte seen c)).toList++inputs (press lineRoom text (stroke c)) (arriving seen bytes)=_
    rw [hinputs,List.map_cons,KeyStrokes.lines,List.map_append]
    congr 1
    unfold inputOf
    dsimp only
    cases entered text (stroke c) <;> rfl

/-- Lines that are typed on an empty line are what is entered. -/
theorem inputs_typed (seen : Surroundings) (h : ∀ line ∈ lines, TypableLine line) :
    inputs [] (arriving seen (typedBytes lines))=lines.map (.line seen) ∧
      (arriving seen (typedBytes lines)).foldl textAfter []=[] := by
  have hstrokes : (typedBytes lines).map stroke=(lines.map lineBytes).flatMap typing := by
    unfold typedBytes
    rw [List.map_flatMap,List.flatMap_map]
    exact List.flatMap_congr fun line hline => (h line hline).strokes
  have hroom : ∀ s ∈ lines.map lineBytes, s.length ≤ lineRoom := by
    intro s hs
    obtain ⟨line,hline,rfl⟩ := List.mem_map.mp hs
    unfold lineBytes bytesOf
    rw [List.length_map]
    exact (h line hline).room
  obtain ⟨hlines,hpending⟩ := lines_typings hroom
  obtain ⟨hinputs,htext⟩ := inputs_arriving seen [] (typedBytes lines)
  rw [hinputs,htext,hstrokes,hlines,hpending,List.map_map]
  refine ⟨List.map_congr_left fun line hline => ?_,rfl⟩
  exact congrArg (Input.line seen) (h line hline).wordsOf

/-- Entered lines are what the shell is told to do. -/
theorem follow_lines (seen : Surroundings) (lines : List (List Word)) (sh : Shell) :
    console.follow anyStep (lines.map (.line seen)) sh=some (enter seen lines sh) := by
  induction lines generalizing sh with
  | nil => rfl
  | cons words lines ih => exact ih _

end Typing

/-! ## The lines for a configuration -/

/-- The lines that make a printed configuration the current one. -/
def transferLines (text : String) : List (List Word) :=
  ["clear_flags".toList]::(reenter (readLines text)++[["write".toList]])

/-- Their bytes, after one that abandons a line begun before. -/
def transferBytes (text : String) : List UInt8 := endOfTransmission::typedBytes (transferLines text)

section Lines

variable {n : ℕ} {cfg : PdbsConfig} {line : List Word} {flags : BitVec 16}

/-- All of a word can be typed. -/
theorem typable_of_all {w : Word} (h : w.all (fun c => decide (Typable c))=true) : ∀ c ∈ w, Typable c :=
  fun c hc => of_decide_eq_true (List.all_eq_true.mp h c hc)

/-- A number of at most six digits. -/
theorem typed_digits (h : n < 1000000) :
    typed n≠[] ∧ (∀ c ∈ typed n, Typable c) ∧ (typed n).length ≤ 6 := by
  refine ⟨Nat.toDigits_ne_nil,fun c hc => ?_,?_⟩
  · obtain ⟨hlow,hhigh⟩ : 48 ≤ c.toNat ∧ c.toNat ≤ 57 := Char.isDigit_iff_toNat.mp (isDigit_of_mem hc)
    exact ⟨by omega,by omega⟩
  · exact (Nat.length_toDigits_le_iff (by decide) (by decide)).mpr h

/-- A command with numbers. -/
theorem typable_numbers {name : Word} (ns : List ℕ) (hne : name≠[]) (hname : ∀ c ∈ name, Typable c)
    (hlength : name.length ≤ 20) (hns : ∀ n ∈ ns, n < 1000000) (hcount : ns.length ≤ 2) :
    TypableLine (name::ns.map typed) where
  ne_nil := List.cons_ne_nil _ _
  words w hw := by
    rcases List.mem_cons.mp hw with rfl | hw
    · exact hne
    · obtain ⟨n,hn,rfl⟩ := List.mem_map.mp hw
      exact (typed_digits (hns n hn)).1
  typable w hw := by
    rcases List.mem_cons.mp hw with rfl | hw
    · exact hname
    · obtain ⟨n,hn,rfl⟩ := List.mem_map.mp hw
      exact (typed_digits (hns n hn)).2.1
  room := by
    have hargs : ((ns.map typed).flatMap (' '::·)).length ≤ ns.length*7 := by
      clear hcount
      induction ns with
      | nil => exact Nat.zero_le _
      | cons n ns ih =>
        have hn := (typed_digits (hns n List.mem_cons_self)).2.2
        have hrest := ih fun m hm => hns m (List.mem_cons_of_mem n hm)
        rw [List.map_cons,List.flatMap_cons,List.length_append,List.length_cons,List.length_cons]
        omega
    have hroom : lineRoom=63 := rfl
    unfold unwords
    rw [List.length_append]
    omega

/-- The lines for a configuration in range can be typed. -/
theorem typable_transfer (hv : cfg.v ≤ 21000) (hmin : cfg.vmin ≤ 21000) (hmax : cfg.vmax ≤ 21000)
    (hi : cfg.i ≤ 65535) :
    ∀ line ∈ ["clear_flags".toList]::(configEntries cfg++[["write".toList]]), TypableLine line := by
  have hword {name : Word} (hne : name≠[]) (hname : ∀ c ∈ name, Typable c) (hlength : name.length ≤ 20) :
      TypableLine [name] :=
    typable_numbers [] hne hname hlength (fun _ hn => absurd hn List.not_mem_nil) (Nat.zero_le _)
  have htoggle : ∀ p ∈ toggles, TypableLine [p.2.toList] := by
    simp only [toggles,List.forall_mem_cons]
    refine ⟨hword (by decide) (typable_of_all (by decide)) (by decide),
      hword (by decide) (typable_of_all (by decide)) (by decide),?_⟩
    exact fun _ hp => absurd hp List.not_mem_nil
  have hsetting : (settingCommand (cfg.flags &&& pdbsConfigFlagsCurrentDefn)).toList ∈
      ["set_i".toList,"set_p".toList,"set_r".toList] := by
    unfold settingCommand
    split_ifs <;> decide
  have hsettings : ∀ name ∈ ["set_i".toList,"set_p".toList,"set_r".toList],
      name≠[] ∧ (∀ c ∈ name, Typable c) ∧ name.length ≤ 20 := by
    simp only [List.forall_mem_cons]
    refine ⟨⟨by decide,typable_of_all (by decide),by decide⟩,⟨by decide,typable_of_all (by decide),by decide⟩,
      ⟨by decide,typable_of_all (by decide),by decide⟩,?_⟩
    exact fun _ hname => absurd hname List.not_mem_nil
  intro line hline
  rw [List.mem_cons,List.mem_append,configEntries,List.mem_cons,List.mem_cons,List.mem_cons,
    List.mem_map,List.mem_singleton] at hline
  rcases hline with rfl | (rfl | rfl | rfl | ⟨p,hp,rfl⟩) | rfl
  · exact hword (by decide) (typable_of_all (by decide)) (by decide)
  · exact typable_numbers [cfg.v] (by decide) (typable_of_all (by decide)) (by decide) (by simp; omega) (Nat.le_succ 1)
  · exact typable_numbers [cfg.vmin,cfg.vmax] (by decide) (typable_of_all (by decide)) (by decide)
      (by simp; omega) le_rfl
  · obtain ⟨hne,hname,hlength⟩ := hsettings _ hsetting
    exact typable_numbers [10*cfg.i] hne hname hlength (by simp; omega) (Nat.le_succ 1)
  · exact htoggle p (List.mem_of_mem_filter hp)
  · exact hword (by decide) (typable_of_all (by decide)) (by decide)

end Lines

/-! ## The transfer -/

section Transfer

variable {e c : Entry} {sh : Shell} {seen : Surroundings} {st : Store} {r : ℕ} {slot : Slot}

/-- The lines for the text of a configuration in range. -/
theorem transferLines_print (he : InRange e) : transferLines (pdbsConfigPrint (config e))=
    ["clear_flags".toList]::(configEntries (config e)++[["write".toList]]) := by
  have hshared : Shared ((config e).flags &&& pdbsConfigFlagsCurrentDefn) (config e).i := he.shared
  unfold transferLines
  rw [readLines_print (.inl he.status),reenter_configLines hshared]

/-- They can be typed. -/
theorem typable_printed (he : InRange e) :
    ∀ line ∈ transferLines (pdbsConfigPrint (config e)), TypableLine line := by
  rw [transferLines_print he]
  have hv : (e .v).toNat ≤ 21000 := he.v
  have hmax : (e .vmax).toNat ≤ 21000 := he.vmax
  have hi : (e .i).toNat ≤ 65535 := Nat.le_of_lt_succ (e .i).isLt
  exact typable_transfer hv (he.order.trans hmax) hmax hi

/-- The shell starts with the valid structure of the page in its buffer. -/
theorem startShell_holds (h : Holds st r (some c)) :
    readConfig (startShell st.page).flash=some (config c) ∧ config (startShell st.page).tmpcfg=config c := by
  obtain ⟨k,hk⟩ := h.exists_slot
  have hread : (pdbsConfigFlashRead (setup st.page).flash).1=some k := h.reboot.read hk
  have hload : startShell st.page={setup st.page with
      flash := (pdbsConfigFlashRead (setup st.page).flash).2
      tmpcfg := fun f => if f ∈ writeOrder then (setup st.page).flash.page k f else (setup st.page).tmpcfg f} := by
    unfold startShell loadConfig
    rw [hread]
    rfl
  rw [hload]
  refine ⟨h.reboot.after_read.readConfig,?_⟩
  rw [← (h.laid.here k hk c rfl).1,config_eq_iff]
  intro f hf
  exact if_pos hf

/-- Entering the lines for a configuration in range stores it, whatever the
shell did before. -/
theorem enter_transfer (seen : Surroundings) (h : console.Reach anyStep sh) (he : InRange e) :
    let sh' := enter seen (transferLines (pdbsConfigPrint (config e))) sh
    readConfig (startShell sh'.flash.page).flash=some (config e) ∧
      config (startShell sh'.flash.page).tmpcfg=config e := by
  let cleared := (runWords seen ["clear_flags".toList] sh).shell
  let entered := enter seen (configEntries (config e)) cleared
  have hcleared : console.Reach anyStep cleared :=
    .step (l := .line seen ["clear_flags".toList]) h trivial rfl
  have hentered : console.Reach anyStep entered := reach_enter hcleared
  have hbuffer : config entered.tmpcfg=config e := by
    have hstatus : (config e).status=pdbsConfigStatusValid := he.status
    have henter : config entered.tmpcfg={config e with status := pdbsConfigStatusValid} :=
      enter_configEntries (storable_of_inRange he) (cleared_clearFlags h)
    rw [henter,← hstatus]
  have hname : Names seen "write".toList cmdWrite := names_get 5
  have hwrite : enter seen (transferLines (pdbsConfigPrint (config e))) sh=
      {entered with flash := pdbsConfigFlashUpdate entered.tmpcfg entered.flash} := by
    have hreply : runWords seen ["write".toList] entered=cmdWrite [] entered := hname.run (Nat.zero_le _)
    have hrun : (runWords seen ["write".toList] entered).shell=
        {entered with flash := pdbsConfigFlashUpdate entered.tmpcfg entered.flash} :=
      congrArg Reply.shell hreply
    rw [transferLines_print he,← hrun]
    exact List.foldl_append
  have hgood := console_good hentered
  obtain ⟨r,current,hst⟩ := exists_holds hgood.flash.any
  dsimp only
  rw [hwrite,← hbuffer,← config_torn entered.tmpcfg]
  exact startShell_holds (hst.update hgood.buffer.status)

/-- `get_cfg` reads the stored configuration and prints it. -/
theorem getCfg_reads (seen : Surroundings) (sh : Shell) :
    (runWords seen ["get_cfg".toList] sh).shell.flash=(pdbsConfigFlashRead sh.flash).2 ∧
      ∀ slot, (pdbsConfigFlashRead sh.flash).1=some slot →
        (runWords seen ["get_cfg".toList] sh).text=pdbsConfigPrint (config (sh.flash.page slot)) := by
  have hname : Names seen "get_cfg".toList cmdGetCfg := names_get 3
  rw [hname.run (Nat.zero_le _)]
  unfold cmdGetCfg
  dsimp only
  cases (pdbsConfigFlashRead sh.flash).1 with
  | none => exact ⟨rfl,nofun⟩
  | some found =>
    refine ⟨rfl,fun slot hslot => ?_⟩
    rw [Option.some_inj.mp hslot]
    rfl

end Transfer

/-! ## Two devices -/

/-- The keys that ask a device for its stored configuration. -/
def queryKeys (seen : Surroundings) : List Key :=
  arriving seen (endOfTransmission::typedBytes [["get_cfg".toList]])

/-- The keys that give a device the configuration of a text, and restart it. -/
def transferKeys (seen : Surroundings) (text : String) (frame : Frame) : List Key :=
  arriving seen (transferBytes text)++[.powerCycle frame]

section Devices

variable {s : Session} {text : List UInt8} {lines : List (List Word)} {seen : Surroundings}

/-- Lines typed after one that is abandoned are entered, and answered. -/
theorem AtLine.typed (h : AtLine s text) (frame : Frame) (seen : Surroundings)
    (hlines : ∀ line ∈ lines, TypableLine line) :
    ∃ s', (serial frame).follow anyStep (arriving seen (endOfTransmission::typedBytes lines)) s=some s' ∧
      AtLine s' [] ∧ Does s s' (lines.map (.line seen)) := by
  obtain ⟨s',hfollow,hdoes,hline⟩ := h.keys frame (arriving seen (endOfTransmission::typedBytes lines))
  obtain ⟨hinputs,htext⟩ := inputs_typed seen hlines
  have habandon : inputs text (arriving seen (endOfTransmission::typedBytes lines))=
      inputs [] (arriving seen (typedBytes lines)) := rfl
  have hempty : (arriving seen (endOfTransmission::typedBytes lines)).foldl textAfter text=
      (arriving seen (typedBytes lines)).foldl textAfter [] := rfl
  rw [habandon,hinputs] at hdoes
  rw [hempty,htext] at hline
  exact ⟨s',hfollow,hline,hdoes⟩

/-- One line. -/
theorem does_line {s' : Session} {words : List Word} (h : Does s s' [.line seen words]) :
    s'.shell=(runWords seen words s.shell).shell ∧
      (SerialConsole.replies s'.sent).getLast?=some (runWords seen words s.shell).text := by
  have hfollow : console.follow anyStep [.line seen words] s.shell=some (runWords seen words s.shell).shell :=
    follow_lines seen [words] s.shell
  have hanswers : answers [.line seen words] s.shell=[runWords seen words s.shell] := rfl
  have hreplies := h.replies
  rw [hanswers,List.map_singleton] at hreplies
  refine ⟨Option.some_inj.mp (h.shell.symm.trans hfollow),?_⟩
  rw [hreplies]
  exact List.getLast?_concat

/-- A configuration in range that is stored. -/
theorem stored_inRange {sh : Shell} {cfg : PdbsConfig} (h : Good sh) (hcfg : readConfig sh.flash=some cfg) :
    ∃ slot, (pdbsConfigFlashRead sh.flash).1=some slot ∧ config (sh.flash.page slot)=cfg ∧
      InRange (sh.flash.page slot) := by
  obtain ⟨r,current,hst⟩ := exists_holds h.flash.any
  obtain ⟨slot,hslot,hconfig⟩ := Option.map_eq_some_iff.mp hcfg
  exact ⟨slot,hslot,hconfig,h.records slot (hst.read_status hslot)⟩

/-- What is read is read again. -/
theorem readConfig_again {st : Store} (h : store.Reach whole st) :
    readConfig (pdbsConfigFlashRead st).2=readConfig st := by
  obtain ⟨r,current,hst⟩ := exists_holds h.any
  rw [hst.readConfig,hst.after_read.readConfig]

end Devices

/-- Whatever two devices went through before: when what the first prints for
its stored configuration is typed at the second and that restarts, the second
has the same configuration stored, and in its buffer. -/
theorem config_transferred (frame frame' restart : Frame) (keys keys' : List Key)
    (seen seen' : Surroundings) :
    ∃ a, (serial frame).follow anyStep (keys++queryKeys seen) (serial frame).start=some a ∧
      ∀ cfg, readConfig a.shell.flash=some cfg → ∃ text b, (replies a.sent).getLast?=some text ∧
        (serial frame').follow anyStep (keys'++transferKeys seen' text restart) (serial frame').start=some b ∧
        readConfig b.shell.flash=some cfg ∧ config b.shell.tmpcfg=cfg := by
  have hstart (frame : Frame) : AtLine (serial frame).start [] := atLine_prompt frame.size rfl
  have hquery : ∀ line ∈ [["get_cfg".toList]], TypableLine line := by
    intro line hline
    rw [List.mem_singleton.mp hline]
    exact typable_numbers [] (by decide) (typable_of_all (by decide)) (by decide)
      (fun _ hn => absurd hn List.not_mem_nil) (Nat.zero_le _)
  obtain ⟨a₀,hkeys,hdoes₀,hline₀⟩ := (hstart frame).keys frame keys
  obtain ⟨a,hask,-,hdoes⟩ := AtLine.typed hline₀ frame seen hquery
  obtain ⟨hshell,hlast⟩ := does_line hdoes
  have hgood := console_good (reach_of_follow .start hdoes₀.shell)
  refine ⟨a,?_,fun cfg hcfg => ?_⟩
  · unfold queryKeys
    rw [follow_append,hkeys,Option.bind_some,hask]
  -- What the first device read for its answer is what it stores.
  obtain ⟨hread,hprinted⟩ := getCfg_reads seen a₀.shell
  rw [hshell,hread,readConfig_again hgood.flash] at hcfg
  obtain ⟨slot,hslot,rfl,hrange⟩ := stored_inRange hgood hcfg
  rw [hprinted slot hslot] at hlast
  -- The second device is given its text.
  obtain ⟨b₀,hkeys',hdoes₁,hline₁⟩ := (hstart frame').keys frame' keys'
  obtain ⟨b₁,htype,hline₂,hdoes₂⟩ := AtLine.typed hline₁ frame' seen' (typable_printed hrange)
  obtain ⟨b,hcycle,hdoes₃,-⟩ := hline₂.keys frame' [.powerCycle restart]
  have hentered := enter_transfer seen' (reach_of_follow .start hdoes₁.shell) hrange
  have hfollow₂ := hdoes₂.shell
  rw [follow_lines] at hfollow₂
  have hrestart : startShell b₁.shell.flash.page=b.shell := Option.some_inj.mp hdoes₃.shell
  refine ⟨_,b,hlast,?_,?_⟩
  · unfold transferKeys transferBytes
    rw [follow_append,hkeys',Option.bind_some,follow_append,htype,Option.bind_some,hcycle]
  · rw [← hrestart,← Option.some_inj.mp hfollow₂]
    exact hentered

end UsbPdFirmware.ConfigTransfer
