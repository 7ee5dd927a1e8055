import UsbPdFirmware.DecimalDigits
import UsbPdFirmware.MaximalRuns
import UsbPdFirmware.ShellRecords

/-!
# Printed configurations

What `pdbs_config_print` prints, read back as a tool would: split into lines
and words, with the numbers in the units of the shell's commands. Entering
these gives the configuration back, so the text determines it.
-/

namespace UsbPdFirmware.PrintedConfig

open DevicePolicy ConfigStore ConsoleText ShellCommands ConfigRanges ShellRecords
open DecimalDigits MaximalRuns LabelledRuns Machine

/-! ## Reading a text -/

/-- The characters that end a line. -/
def lineEnd (c : Char) : Bool := c== '\r' || c== '\n'

/-- The character between words. -/
def wordEnd (c : Char) : Bool := c== ' '

/-- The words of each line. -/
def readLines (text : String) : List (List Word) := (runs lineEnd text.toList).map (runs wordEnd)

/-- What follows a label. -/
def field (label : String) (lines : List (List Word)) : Option (List Word) :=
  (lines.find? fun line => line.head?==some label.toList).map List.tail

/-- The number that follows, without its decimal point; zero when the line is
absent. -/
def fieldValue (label : String) (lines : List (List Word)) : ℕ :=
  ((field label lines).bind List.head?).elim 0 value

/-- A number as it is typed. -/
def typed (n : ℕ) : Word := Nat.toDigits 10 n

/-- The settings a current derives from, and their commands. -/
def settings : List (String × String) := [("i:","set_i"),("p:","set_p"),("r:","set_r")]

/-- The flags with a command, and these commands. -/
def toggles : List (String × String) :=
  [("GiveBack","toggle_giveback"),("HV_Preferred","toggle_hv_preferred")]

/-- The lines to enter for what was printed: volts in millivolts, and
hundredths of other units in thousandths. -/
def reenter (lines : List (List Word)) : List (List Word) :=
  ["set_v".toList,typed (fieldValue "v:" lines)]::
  ["set_vrange".toList,typed (fieldValue "vmin:" lines),typed (fieldValue "vmax:" lines)]::
  ((settings.filter fun p => (field p.1 lines).isSome).map fun p =>
    [p.2.toList,typed (10*fieldValue p.1 lines)])++
  (toggles.filter fun p => p.1.toList ∈ (field "flags:" lines).getD []).map fun p => [p.2.toList]

/-- Enter some lines. -/
def enter (seen : Surroundings) (lines : List (List Word)) (sh : Shell) : Shell :=
  lines.foldl (fun sh words => (runWords seen words sh).shell) sh

/-! ## What is printed -/

/-- The words of a line with a quantity. -/
def quantityWords (label : String) (units places fraction : ℕ) (symbol : String) : List Word :=
  [label.toList++[':'],padded 0 units++ '.'::padded places fraction,symbol.toList]

/-- Those of a voltage. -/
def voltageWords (label : String) (mv : ℕ) : List Word := quantityWords label (mv/1000) 3 (mv%1000) "V"

/-- Those of a value in hundredths. -/
def centiWords (label : String) (n : ℕ) (symbol : String) : List Word :=
  quantityWords label (n/100) 2 (n%100) symbol

/-- The name of a flag, when it is set. -/
def flagWord (flags mask : BitVec 16) (name : String) : List Word :=
  if flags &&& mask≠0 then [name.toList] else []

/-- The words after `flags:`. -/
def flagWords (flags : BitVec 16) : List Word :=
  (if flags &&& ~~~pdbsConfigFlagsCurrentDefn=0 then ["(none)".toList] else [])++
  flagWord flags pdbsConfigFlagsGiveback "GiveBack"++flagWord flags pdbsConfigFlagsVarBat "Var/Bat"++
  flagWord flags pdbsConfigFlagsHvPreferred "HV_Preferred"

/-- The lines of the voltage range. -/
def rangeLines (cfg : PdbsConfig) : List (List Word) :=
  if cfg.vmin≠0 ∨ cfg.vmax≠0 then [voltageWords "vmin" cfg.vmin,voltageWords "vmax" cfg.vmax] else []

/-- The line of the setting the current derives from. -/
def settingLines (cfg : PdbsConfig) : List (List Word) :=
  let defn := cfg.flags &&& pdbsConfigFlagsCurrentDefn
  if defn=pdbsConfigFlagsCurrentDefnI then [centiWords "i" cfg.i "A"]
  else if defn=pdbsConfigFlagsCurrentDefnP then [centiWords "p" cfg.i "W"]
  else if defn=pdbsConfigFlagsCurrentDefnR then [centiWords "r" cfg.i "Ω"]
  else []

/-- The lines of a configuration with a status word. -/
def configLines (status : String) (cfg : PdbsConfig) : List (List Word) :=
  ["status:".toList,status.toList]::("flags:".toList::flagWords cfg.flags)::voltageWords "v" cfg.v::
  (rangeLines cfg++settingLines cfg)

/-- Words with spaces between them. -/
def unwords : List Word → List Char
  | [] => []
  | w::ws => w++ws.flatMap (' '::·)

/-- Lines with their ends. -/
def unlines (lines : List (List Word)) : List Char := (lines.map unwords).flatMap (·++['\r','\n'])

section Printed

variable {label symbol status : String} {units places fraction mv n : ℕ} {flags mask : BitVec 16}
  {cfg : PdbsConfig}

theorem decimal_toList (width n : ℕ) : (decimal width n).toList=padded width n := String.toList_ofList

theorem unlines_cons (line : List Word) (lines : List (List Word)) :
    unlines (line::lines)=unwords line++['\r','\n']++unlines lines := by
  unfold unlines
  rw [List.map_cons,List.flatMap_cons]

theorem unlines_append (lines more : List (List Word)) :
    unlines (lines++more)=unlines lines++unlines more := by
  unfold unlines
  rw [List.map_append,List.flatMap_append]

theorem quantity_eq (label : String) (units places fraction : ℕ) (symbol : String) :
    (quantity label units places fraction symbol).toList=
      unlines [quantityWords label units places fraction symbol] := by
  have hcolon : ": ".toList=[':',' '] := rfl
  have hpoint : ".".toList=['.'] := rfl
  have hspace : " ".toList=[' '] := rfl
  have hend : "\r\n".toList=['\r','\n'] := rfl
  unfold quantity
  simp only [String.toList_append,decimal_toList,hcolon,hpoint,hspace,hend]
  simp [unlines,unwords,quantityWords]

/-- The name of a flag follows a space. -/
theorem printFlag_toList {text name : String} (h : text.toList= ' '::name.toList) :
    (printFlag flags mask text).toList=(flagWord flags mask name).flatMap (' '::·) := by
  unfold printFlag flagWord
  split
  · rw [h]
    simp
  · rfl

theorem printFlags_eq (flags : BitVec 16) : ("flags:"++
    (if flags &&& ~~~pdbsConfigFlagsCurrentDefn=0 then " (none)" else "")++
    printFlag flags pdbsConfigFlagsGiveback " GiveBack"++
    printFlag flags pdbsConfigFlagsVarBat " Var/Bat"++
    printFlag flags pdbsConfigFlagsHvPreferred " HV_Preferred"++"\r\n").toList=
      unlines ["flags:".toList::flagWords flags] := by
  have hnone : (if flags &&& ~~~pdbsConfigFlagsCurrentDefn=0 then " (none)" else "").toList=
      (if flags &&& ~~~pdbsConfigFlagsCurrentDefn=0 then ["(none)".toList] else []).flatMap (' '::·) := by
    split <;> rfl
  have hgive : (printFlag flags pdbsConfigFlagsGiveback " GiveBack").toList=
      (flagWord flags pdbsConfigFlagsGiveback "GiveBack").flatMap (' '::·) := printFlag_toList rfl
  have hvar : (printFlag flags pdbsConfigFlagsVarBat " Var/Bat").toList=
      (flagWord flags pdbsConfigFlagsVarBat "Var/Bat").flatMap (' '::·) := printFlag_toList rfl
  have hhv : (printFlag flags pdbsConfigFlagsHvPreferred " HV_Preferred").toList=
      (flagWord flags pdbsConfigFlagsHvPreferred "HV_Preferred").flatMap (' '::·) := printFlag_toList rfl
  have hend : "\r\n".toList=['\r','\n'] := rfl
  simp only [String.toList_append,hnone,hgive,hvar,hhv,hend]
  simp only [unlines,unwords,flagWords,List.map_cons,List.map_nil,List.flatMap_cons,List.flatMap_nil,
    List.flatMap_append,List.append_assoc,List.append_nil]

/-- The range, when there is one. -/
theorem printRange_eq (cfg : PdbsConfig) : (if cfg.vmin≠0 ∨ cfg.vmax≠0 then
    printVoltage "vmin" cfg.vmin++printVoltage "vmax" cfg.vmax else "").toList=unlines (rangeLines cfg) := by
  unfold rangeLines
  split
  · rw [String.toList_append]
    exact (congrArg₂ (·++·) (quantity_eq ..) (quantity_eq ..)).trans (unlines_append [_] [_]).symm
  · rfl

/-- The setting, when there is one. -/
theorem printCurrentDefn_eq (cfg : PdbsConfig) :
    (printCurrentDefn cfg).toList=unlines (settingLines cfg) := by
  unfold printCurrentDefn settingLines
  dsimp only
  split_ifs
  · exact quantity_eq ..
  · exact quantity_eq ..
  · exact quantity_eq ..
  · rfl

/-- The lines after the status. -/
theorem printSettings_eq (cfg : PdbsConfig) : (printSettings cfg).toList=
    unlines (("flags:".toList::flagWords cfg.flags)::voltageWords "v" cfg.v::
      (rangeLines cfg++settingLines cfg)) := by
  have hv : (printVoltage "v" cfg.v).toList=unlines [voltageWords "v" cfg.v] := quantity_eq ..
  have hlines : ("flags:".toList::flagWords cfg.flags)::voltageWords "v" cfg.v::
      (rangeLines cfg++settingLines cfg)=["flags:".toList::flagWords cfg.flags]++
        ([voltageWords "v" cfg.v]++(rangeLines cfg++settingLines cfg)) := rfl
  rw [hlines,unlines_append,unlines_append,unlines_append,← printFlags_eq,← hv,← printRange_eq,
    ← printCurrentDefn_eq]
  unfold printSettings
  simp only [String.toList_append,List.append_assoc]

/-- The status of a configuration that was stored. -/
def statusWord (cfg : PdbsConfig) : String :=
  if cfg.status=pdbsConfigStatusInvalid then "invalid" else "valid"

/-- A configuration that was stored is printed as these lines. -/
theorem print_eq (h : cfg.status=pdbsConfigStatusValid ∨ cfg.status=pdbsConfigStatusInvalid) :
    (pdbsConfigPrint cfg).toList=unlines (configLines (statusWord cfg) cfg) := by
  unfold pdbsConfigPrint configLines statusWord
  rw [unlines_cons,← printSettings_eq]
  rcases h with h | h
  · rw [h,if_neg (by decide),if_pos rfl,if_neg (by decide)]
    simp only [String.toList_append]
    rfl
  · rw [h,if_pos rfl,if_pos rfl]
    simp only [String.toList_append]
    rfl

end Printed

/-! ## What is read -/

/-- A word of a line: not empty, and with no character that ends it. -/
def IsWord (w : Word) : Prop := w≠[] ∧ ∀ c ∈ w, wordEnd c=false ∧ lineEnd c=false

-- The characters of the word only: there are too many others to go through.
instance (w : Word) : Decidable (IsWord w) := @instDecidableAnd _ _ inferInstance (List.decidableBAll _ w)

/-- A line of words, at least one. -/
def IsLine (line : List Word) : Prop := line≠[] ∧ ∀ w ∈ line, IsWord w

section Read

variable {lines : List (List Word)} {line : List Word} {label symbol : String} {w : Word}
  {units places fraction n : ℕ} {cfg : PdbsConfig}

theorem runs_unwords (h : IsLine line) : runs wordEnd (unwords line)=line := by
  obtain ⟨w,ws,rfl⟩ := List.exists_cons_of_ne_nil h.1
  have hrun {v : Word} (hv : v ∈ w::ws) : IsRun wordEnd v :=
    ⟨(h.2 v hv).1,fun c hc => ((h.2 v hv).2 c hc).1⟩
  exact runs_joined rfl (hrun List.mem_cons_self) fun v hv => hrun (List.mem_cons_of_mem w hv)

/-- Words make a line. -/
theorem isRun_unwords (h : IsLine line) : IsRun lineEnd (unwords line) := by
  obtain ⟨w,ws,rfl⟩ := List.exists_cons_of_ne_nil h.1
  have hw := h.2 w List.mem_cons_self
  refine ⟨List.append_ne_nil_of_left_ne_nil hw.1 _,fun c hc => ?_⟩
  rcases List.mem_append.mp hc with hc | hc
  · exact (hw.2 c hc).2
  · obtain ⟨v,hv,hc⟩ := List.mem_flatMap.mp hc
    rcases List.mem_cons.mp hc with rfl | hc
    · rfl
    · exact ((h.2 v (List.mem_cons_of_mem w hv)).2 c hc).2

/-- Lines of words are read as they are. -/
theorem read_unlines (h : ∀ line ∈ lines, IsLine line) :
    (runs lineEnd (unlines lines)).map (runs wordEnd)=lines := by
  have hends : ∀ c ∈ ['\r','\n'], lineEnd c=true := by simp [lineEnd]
  have hlines : runs lineEnd (unlines lines)=lines.map unwords := by
    refine runs_lines (List.cons_ne_nil _ _) hends fun v hv => ?_
    obtain ⟨line,hline,rfl⟩ := List.mem_map.mp hv
    exact isRun_unwords (h line hline)
  rw [hlines,List.map_map]
  calc lines.map (runs wordEnd ∘ unwords)=lines.map id :=
        List.map_congr_left fun line hline => runs_unwords (h line hline)
    _=lines := List.map_id lines

/-- Digits are no ends of words. -/
theorem isDigit_ends {c : Char} (h : c.isDigit=true) : wordEnd c=false ∧ lineEnd c=false := by
  unfold wordEnd lineEnd
  simp only [Bool.or_eq_false_iff,beq_eq_false_iff_ne]
  refine ⟨?_,?_,?_⟩ <;> rintro rfl <;> exact absurd h (by decide)

theorem isWord_number : IsWord (padded 0 units++ '.'::padded places fraction) := by
  refine ⟨by simp,fun c hc => ?_⟩
  rcases List.mem_append.mp hc with hc | hc
  · exact isDigit_ends (isDigit_of_mem_padded hc)
  · rcases List.mem_cons.mp hc with rfl | hc
    · decide
    · exact isDigit_ends (isDigit_of_mem_padded hc)

theorem isLine_quantity (hl : IsWord (label.toList++[':'])) (hs : IsWord symbol.toList) :
    IsLine (quantityWords label units places fraction symbol) := by
  refine ⟨List.cons_ne_nil _ _,?_⟩
  simp only [quantityWords,List.forall_mem_cons]
  exact ⟨hl,isWord_number,hs,by simp⟩

theorem isWord_flagWords (flags : BitVec 16) : ∀ w ∈ flagWords flags, IsWord w := by
  intro w hw
  unfold flagWords flagWord at hw
  simp only [List.mem_append,List.mem_ite_nil_right,List.mem_singleton] at hw
  rcases hw with ((⟨-,rfl⟩ | ⟨-,rfl⟩) | ⟨-,rfl⟩) | ⟨-,rfl⟩ <;> decide

theorem isLine_rangeLines (cfg : PdbsConfig) : ∀ line ∈ rangeLines cfg, IsLine line := by
  intro line hline
  unfold rangeLines at hline
  simp only [List.mem_ite_nil_right,List.mem_cons,List.not_mem_nil,or_false] at hline
  rcases hline with ⟨-,rfl | rfl⟩
  · exact isLine_quantity (by decide) (by decide)
  · exact isLine_quantity (by decide) (by decide)

theorem isLine_settingLines (cfg : PdbsConfig) : ∀ line ∈ settingLines cfg, IsLine line := by
  intro line hline
  unfold settingLines at hline
  dsimp only at hline
  split_ifs at hline
  · rw [List.mem_singleton.mp hline]
    exact isLine_quantity (by decide) (by decide)
  · rw [List.mem_singleton.mp hline]
    exact isLine_quantity (by decide) (by decide)
  · rw [List.mem_singleton.mp hline]
    exact isLine_quantity (by decide) (by decide)
  · exact absurd hline List.not_mem_nil

/-- The lines of a configuration are lines of words. -/
theorem isLine_configLines (cfg : PdbsConfig) : ∀ line ∈ configLines (statusWord cfg) cfg, IsLine line := by
  have hstatus : IsWord (statusWord cfg).toList := by
    unfold statusWord
    split <;> decide
  unfold configLines
  simp only [List.forall_mem_cons,List.forall_mem_append]
  refine ⟨⟨List.cons_ne_nil _ _,?_⟩,⟨List.cons_ne_nil _ _,?_⟩,isLine_quantity (by decide) (by decide),
    isLine_rangeLines cfg,isLine_settingLines cfg⟩
  · simp only [List.forall_mem_cons]
    exact ⟨by decide,hstatus,by simp⟩
  · simp only [List.forall_mem_cons]
    exact ⟨by decide,isWord_flagWords cfg.flags⟩

/-- A configuration that was stored is read as its lines. -/
theorem readLines_print (h : cfg.status=pdbsConfigStatusValid ∨ cfg.status=pdbsConfigStatusInvalid) :
    readLines (pdbsConfigPrint cfg)=configLines (statusWord cfg) cfg := by
  unfold readLines
  rw [print_eq h]
  exact read_unlines (isLine_configLines cfg)

/-- The line with the label. -/
theorem field_of_eq {ws : List Word} (h : w=label.toList) : field label ((w::ws)::lines)=some ws := by
  unfold field
  rw [List.find?_cons_of_pos (by rw [h]; exact beq_self_eq_true _)]
  rfl

/-- Another line. -/
theorem field_of_ne {ws : List Word} (h : w≠label.toList) :
    field label ((w::ws)::lines)=field label lines := by
  unfold field
  rw [List.find?_cons_of_neg]
  intro heq
  exact h (Option.some_inj.mp (beq_iff_eq.mp heq))

/-- A number with its unit. -/
theorem fieldValue_quantity {name : String} (h : name.toList++[':']=label.toList) (hp : 0 < places)
    (hf : fraction < 10^places) :
    fieldValue label (quantityWords name units places fraction symbol::lines)=units*10^places+fraction := by
  unfold fieldValue quantityWords
  rw [field_of_eq h]
  exact value_point hp hf

/-- The line of a voltage. -/
theorem fieldValue_voltage {name : String} {mv : ℕ} (h : name.toList++[':']=label.toList) :
    fieldValue label (voltageWords name mv::lines)=mv :=
  (fieldValue_quantity h (by decide) (by omega)).trans (Nat.div_add_mod' mv 1000)

/-- The line of a value in hundredths. -/
theorem fieldValue_centi {name : String} (h : name.toList++[':']=label.toList) :
    fieldValue label (centiWords name n symbol::lines)=n :=
  (fieldValue_quantity h (by decide) (by omega)).trans (Nat.div_add_mod' n 100)

theorem fieldValue_of_ne {ws : List Word} (h : w≠label.toList) :
    fieldValue label ((w::ws)::lines)=fieldValue label lines := by
  unfold fieldValue
  rw [field_of_ne h]

end Read

/-! ## The lines of a configuration -/

section Lines

variable {label status : String} {cfg : PdbsConfig} {lines : List (List Word)}

/-- Labels after the first three lines. -/
theorem field_configLines (hs : "status:".toList≠label.toList) (hf : "flags:".toList≠label.toList)
    (hv : "v:".toList≠label.toList) :
    field label (configLines status cfg)=field label (rangeLines cfg++settingLines cfg) := by
  unfold configLines
  rw [field_of_ne hs,field_of_ne hf]
  exact field_of_ne hv

/-- Labels after the range. -/
theorem field_rangeLines (hmin : "vmin:".toList≠label.toList) (hmax : "vmax:".toList≠label.toList) :
    field label (rangeLines cfg++lines)=field label lines := by
  unfold rangeLines
  split
  · exact (field_of_ne hmin).trans (field_of_ne hmax)
  · rfl

theorem field_flags : field "flags:" (configLines status cfg)=some (flagWords cfg.flags) := by
  unfold configLines
  rw [field_of_ne (by decide),field_of_eq rfl]

theorem fieldValue_v : fieldValue "v:" (configLines status cfg)=cfg.v := by
  unfold configLines
  rw [fieldValue_of_ne (by decide),fieldValue_of_ne (by decide)]
  exact fieldValue_voltage rfl

/-- The lines of the settings have other labels than these. -/
theorem field_settingLines (hi : "i:".toList≠label.toList) (hp : "p:".toList≠label.toList)
    (hr : "r:".toList≠label.toList) : field label (settingLines cfg)=none := by
  unfold settingLines
  dsimp only
  split_ifs
  · exact field_of_ne hi
  · exact field_of_ne hp
  · exact field_of_ne hr
  · rfl

/-- A range that is not printed is zero. -/
theorem fieldValue_range : fieldValue "vmin:" (configLines status cfg)=cfg.vmin ∧
    fieldValue "vmax:" (configLines status cfg)=cfg.vmax := by
  have hmin : field "vmin:" (configLines status cfg)=field "vmin:" (rangeLines cfg++settingLines cfg) :=
    field_configLines (by decide) (by decide) (by decide)
  have hmax : field "vmax:" (configLines status cfg)=field "vmax:" (rangeLines cfg++settingLines cfg) :=
    field_configLines (by decide) (by decide) (by decide)
  by_cases hrange : cfg.vmin≠0 ∨ cfg.vmax≠0
  · have hlines : rangeLines cfg=[voltageWords "vmin" cfg.vmin,voltageWords "vmax" cfg.vmax] := if_pos hrange
    unfold fieldValue
    rw [hmin,hmax,hlines]
    exact ⟨fieldValue_voltage rfl,(fieldValue_of_ne (by decide)).trans (fieldValue_voltage rfl)⟩
  · have hlines : rangeLines cfg=[] := if_neg hrange
    obtain ⟨hvmin,hvmax⟩ := not_or.mp hrange
    unfold fieldValue
    rw [hmin,hmax,hlines,not_ne_iff.mp hvmin,not_ne_iff.mp hvmax,List.nil_append,
      field_settingLines (by decide) (by decide) (by decide),
      field_settingLines (by decide) (by decide) (by decide)]
    exact ⟨rfl,rfl⟩

/-- The settings are read from the line that has one. -/
theorem field_setting {p : String × String} (hp : p ∈ settings) :
    field p.1 (configLines status cfg)=field p.1 (settingLines cfg) := by
  have hlabels : ∀ p ∈ settings, "status:".toList≠p.1.toList ∧ "flags:".toList≠p.1.toList ∧
      "v:".toList≠p.1.toList ∧ "vmin:".toList≠p.1.toList ∧ "vmax:".toList≠p.1.toList := by decide
  obtain ⟨hs,hf,hv,hmin,hmax⟩ := hlabels p hp
  exact (field_configLines hs hf hv).trans (field_rangeLines hmin hmax)

end Lines

section Reenter

variable {status name symbol : String} {cfg : PdbsConfig}

/-- The command of the setting the current derives from. -/
def settingCommand (defn : BitVec 16) : String :=
  if defn=pdbsConfigFlagsCurrentDefnI then "set_i"
  else if defn=pdbsConfigFlagsCurrentDefnP then "set_p"
  else "set_r"

/-- The lines to enter for a configuration. -/
def configEntries (cfg : PdbsConfig) : List (List Word) :=
  ["set_v".toList,typed cfg.v]::["set_vrange".toList,typed cfg.vmin,typed cfg.vmax]::
  [(settingCommand (cfg.flags &&& pdbsConfigFlagsCurrentDefn)).toList,typed (10*cfg.i)]::
  (toggles.filter fun p => p.1.toList ∈ flagWords cfg.flags).map fun p => [p.2.toList]

/-- One setting is entered when one line has it. -/
theorem entries_of_line {command : String} (h : settingLines cfg=[centiWords name cfg.i symbol])
    (hc : settings.filter (fun p => decide (name.toList++[':']=p.1.toList))=[(name++":",command)]) :
    ((settings.filter fun p => (field p.1 (configLines status cfg)).isSome).map fun p =>
      [p.2.toList,typed (10*fieldValue p.1 (configLines status cfg))])=
        [[command.toList,typed (10*cfg.i)]] := by
  have hsome : ∀ p ∈ settings, (field p.1 (configLines status cfg)).isSome=
      decide (name.toList++[':']=p.1.toList) := by
    intro p hp
    rw [field_setting hp,h]
    by_cases hname : name.toList++[':']=p.1.toList
    · rw [decide_eq_true hname]
      exact congrArg Option.isSome (field_of_eq hname)
    · rw [decide_eq_false hname]
      exact congrArg Option.isSome (field_of_ne hname)
  have hmem : (name++":",command) ∈ settings :=
    List.mem_of_mem_filter (hc ▸ List.mem_singleton_self _)
  have hvalue : fieldValue (name++":") (configLines status cfg)=cfg.i := by
    have hlabel : name.toList++[':']=(name++":").toList := by
      rw [String.toList_append]
      rfl
    unfold fieldValue
    rw [field_setting hmem,h]
    exact fieldValue_centi hlabel
  rw [List.filter_congr hsome,hc,List.map_singleton,hvalue]

/-- A current definition has one line, for its command. -/
theorem exists_settingLine (h : Shared (cfg.flags &&& pdbsConfigFlagsCurrentDefn) cfg.i) :
    ∃ name symbol, settingLines cfg=[centiWords name cfg.i symbol] ∧
      settings.filter (fun p => decide (name.toList++[':']=p.1.toList))=
        [(name++":",settingCommand (cfg.flags &&& pdbsConfigFlagsCurrentDefn))] := by
  unfold settingLines
  rcases h with ⟨hdefn,-⟩ | ⟨hdefn,-⟩ | ⟨hdefn,-⟩
  · rw [hdefn]
    exact ⟨"i","A",rfl,by decide⟩
  · rw [hdefn]
    exact ⟨"p","W",rfl,by decide⟩
  · rw [hdefn]
    exact ⟨"r","Ω",rfl,by decide⟩

/-- What is entered for a configuration that was printed. -/
theorem reenter_configLines (h : Shared (cfg.flags &&& pdbsConfigFlagsCurrentDefn) cfg.i) :
    reenter (configLines status cfg)=configEntries cfg := by
  obtain ⟨name,symbol,hline,hcommand⟩ := exists_settingLine h
  unfold reenter configEntries
  rw [entries_of_line hline hcommand,field_flags,fieldValue_v,fieldValue_range.1,fieldValue_range.2]
  rfl

end Reenter

end UsbPdFirmware.PrintedConfig
