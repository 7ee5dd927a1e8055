import UsbPdFirmware.BitFields
import UsbPdFirmware.ConfigRanges

/-!
# What the shell's commands change

Each command keeps to its part of the state, and one that answers with a usage
or error message changes nothing.
-/

namespace UsbPdFirmware.CommandEffects

open DevicePolicy ConfigStore ConfigStoreRuns ConsoleText ShellCommands ConfigRanges BitFields

/-! ## Messages -/

/-- The usage messages. -/
def usageMessages : List String :=
  ["Usage: license\r\n","Usage: identify\r\n","Usage: boot\r\n","Usage: get_cfg [index]\r\n",
    "Usage: load\r\n","Usage: write\r\n","Usage: erase\r\n","Usage: get_tmpcfg\r\n",
    "Usage: clear_flags\r\n","Usage: toggle_giveback\r\n","Usage: toggle_hv_preferred\r\n",
    "Usage: set_v voltage_in_mV\r\n","Usage: set_vrange min_voltage_in_mV max_voltage_in_mV\r\n",
    "Usage: set_i current_in_mA\r\n","Usage: set_p power_in_mW\r\n","Usage: set_r power_in_mΩ\r\n",
    "Usage: output [enable|disable]\r\n","Usage: get_source_cap\r\n","Usage: help\r\n"]

/-- The error messages. -/
def errorMessages : List String :=
  ["No configuration\r\n","Invalid index\r\n","Invalid voltage\r\n","Invalid range\r\n",
    "Invalid current\r\n","Invalid power\r\n","Invalid resistance\r\n","No Source_Capabilities\r\n",
    "too many arguments\r\n"]

/-- A text is one of these messages. -/
def IsComplaint (text : String) : Prop := text ∈ usageMessages++errorMessages

/-- Nothing is changed, and nobody is signalled. -/
structure Unchanged (sh : Shell) (r : Reply) : Prop where
  /-- The state. -/
  shell : r.shell=sh
  /-- The signals. -/
  signals : r.signals=[]

/-- A command changes nothing when it answers with a message. -/
def ComplainsOnly (cmd : Command) : Prop :=
  ∀ args sh, IsComplaint (cmd args sh).text → Unchanged sh (cmd args sh)

/-! ## Parts of the state -/

/-- The parts of the state that a command is for. -/
structure Scope where
  /-- Halfwords of the buffer, apart from the flags. -/
  fields : List Halfword
  /-- Bits of the flags. -/
  flags : BitVec 16
  /-- The page in flash. -/
  page : Bool
  /-- The cached pointer, `config_cur`. -/
  cache : Bool
  /-- `output_enabled`. -/
  output : Bool
  /-- Signals to others. -/
  signals : List Signal

/-- No part. -/
def nothing : Scope := ⟨[],0,false,false,false,[]⟩

/-- A reply leaves the other parts as they were. -/
structure Stays (scope : Scope) (sh : Shell) (r : Reply) : Prop where
  /-- The buffer. -/
  fields : ∀ f ∉ scope.fields, f≠.flags → r.shell.tmpcfg f=sh.tmpcfg f
  /-- The flags in it. -/
  flags : r.shell.tmpcfg .flags &&& ~~~scope.flags=sh.tmpcfg .flags &&& ~~~scope.flags
  /-- The page. -/
  page : scope.page=false → r.shell.flash.page=sh.flash.page
  /-- The cached pointer. -/
  cache : scope.cache=false → r.shell.flash.cur=sh.flash.cur
  /-- The output. -/
  output : scope.output=false → r.shell.outputEnabled=sh.outputEnabled
  /-- The signals. -/
  signals : r.signals ⊆ scope.signals

/-- A command keeps to its parts. -/
def Within (scope : Scope) (cmd : Command) : Prop := ∀ args sh, Stays scope sh (cmd args sh)

/-- The flags that can be toggled. -/
def toggleFlags : BitVec 16 :=
  pdbsConfigFlagsGiveback ||| pdbsConfigFlagsVarBat ||| pdbsConfigFlagsHvPreferred

/-- What the commands of the table are for, in its order. -/
def scopes : List (String × Scope) :=
  [("license",nothing),
    ("identify",{nothing with signals := [.identify]}),
    ("boot",⟨writeOrder++[.reserved0,.reserved1],BitVec.allOnes 16,false,true,true,[.bootloader]⟩),
    ("get_cfg",{nothing with cache := true}),
    ("load",{nothing with fields := writeOrder,flags := BitVec.allOnes 16,cache := true}),
    ("write",{nothing with page := true,cache := true,signals := [.newPower]}),
    ("erase",{nothing with page := true,cache := true}),
    ("get_tmpcfg",nothing),
    ("clear_flags",{nothing with flags := toggleFlags}),
    ("toggle_giveback",{nothing with flags := pdbsConfigFlagsGiveback}),
    ("toggle_hv_preferred",{nothing with flags := pdbsConfigFlagsHvPreferred}),
    ("set_v",{nothing with fields := [.v]}),
    ("set_vrange",{nothing with fields := [.vmin,.vmax]}),
    ("set_i",{nothing with fields := [.i],flags := pdbsConfigFlagsCurrentDefn}),
    ("set_p",{nothing with fields := [.i],flags := pdbsConfigFlagsCurrentDefn}),
    ("set_r",{nothing with fields := [.i],flags := pdbsConfigFlagsCurrentDefn}),
    ("output",{nothing with output := true,signals := [.newPower]}),
    ("get_source_cap",nothing)]

/-! ## Complaints -/

section Complaints

variable {usage invalid : String} {sh : Shell}

theorem unchanged_say (text : String) (sh : Shell) : Unchanged sh (say text sh) := ⟨rfl,rfl⟩

/-- Messages begin with one of these letters. -/
theorem complaint_head : ∀ text ∈ usageMessages++errorMessages,
    text.toList.head? ∈ [some 'U',some 'N',some 'I',some 't'] := by decide +kernel

/-- No answer is no message. -/
theorem not_isComplaint_empty : ¬IsComplaint "" := fun h => by
  have hhead := complaint_head "" h
  exact absurd hhead (by decide)

/-- Nor is a printed configuration. -/
theorem not_isComplaint_print (cfg : PdbsConfig) : ¬IsComplaint (pdbsConfigPrint cfg) := by
  intro h
  have hfirst : (pdbsConfigPrint cfg).toList.head?=some 's' := by
    unfold pdbsConfigPrint
    rw [String.toList_append]
    rfl
  have hhead := complaint_head _ h
  rw [hfirst] at hhead
  exact absurd hhead (by decide)

theorem complainsOnly_noArguments {action : Shell → Reply}
    (ha : ∀ sh, IsComplaint (action sh).text → Unchanged sh (action sh)) :
    ComplainsOnly (noArguments usage action) := by
  intro args sh h
  cases args with
  | nil => exact ha sh h
  | cons arg args => exact unchanged_say usage sh

/-- An action without an answer. -/
theorem complainsOnly_quiet {action : Shell → Reply} (ha : ∀ sh, (action sh).text="") :
    ComplainsOnly (noArguments usage action) :=
  complainsOnly_noArguments fun sh h => absurd (ha sh ▸ h) not_isComplaint_empty

/-- An action that only prints. -/
theorem complainsOnly_say {text : Shell → String} :
    ComplainsOnly (noArguments usage fun sh => say (text sh) sh) :=
  complainsOnly_noArguments fun sh _ => unchanged_say (text sh) sh

theorem complainsOnly_setNumber {least most : ℤ} {set : ℤ → Entry → Entry} :
    ComplainsOnly (setNumber usage invalid least most set) := by
  intro args sh h
  match args with
  | [] => exact unchanged_say usage sh
  | [arg] =>
    unfold setNumber at h ⊢
    dsimp only at h ⊢
    split
    · next hi =>
      rw [if_pos hi] at h
      exact absurd h not_isComplaint_empty
    · exact unchanged_say invalid sh
  | _::_::_ => exact unchanged_say usage sh

/-- Without a configuration nothing is cached. -/
theorem read_none {st : Store} (h : (pdbsConfigFlashRead st).1=none) : (pdbsConfigFlashRead st).2=st := by
  unfold pdbsConfigFlashRead at h ⊢
  cases hcur : st.cur with
  | some slot => rfl
  | none =>
    rw [hcur] at h
    cases hlookup : lookup st.page with
    | some slot =>
      rw [hlookup] at h
      cases h
    | none => rfl

theorem complainsOnly_getCfg : ComplainsOnly cmdGetCfg := by
  intro args sh h
  match args with
  | [] =>
    unfold cmdGetCfg at h ⊢
    dsimp only at h ⊢
    cases hread : (pdbsConfigFlashRead sh.flash).1 with
    | some slot =>
      rw [hread] at h
      exact absurd h (not_isComplaint_print _)
    | none =>
      rw [read_none hread]
      exact unchanged_say _ sh
  | [arg] =>
    unfold cmdGetCfg
    dsimp only
    split
    · exact unchanged_say _ sh
    · exact unchanged_say _ sh
  | _::_::_ => exact unchanged_say _ sh

theorem complainsOnly_load : ComplainsOnly cmdLoad :=
  complainsOnly_noArguments fun sh h => by
    cases hload : loadConfig sh with
    | none => exact unchanged_say _ sh
    | some sh' =>
      rw [hload] at h
      exact absurd h not_isComplaint_empty

/-- No value is stored when the other is refused. -/
theorem complainsOnly_setVrange : ComplainsOnly cmdSetVrange := by
  intro args sh h
  match args with
  | [] => exact unchanged_say _ sh
  | [arg] => exact unchanged_say _ sh
  | [arg,arg2] =>
    unfold cmdSetVrange at h ⊢
    dsimp only at h ⊢
    split
    · exact unchanged_say _ sh
    · next hlimits =>
      rw [if_neg hlimits] at h
      split
      · exact unchanged_say _ sh
      · next horder =>
        rw [if_neg horder] at h
        exact absurd h not_isComplaint_empty
  | _::_::_::_ => exact unchanged_say _ sh

theorem complainsOnly_output : ComplainsOnly cmdOutput := by
  intro args sh h
  match args with
  | [] => exact unchanged_say _ sh
  | [arg] =>
    simp only [cmdOutput] at h ⊢
    split
    · next henable =>
      rw [if_pos henable] at h
      exact absurd h not_isComplaint_empty
    · next henable =>
      rw [if_neg henable] at h
      split
      · next hdisable =>
        rw [if_pos hdisable] at h
        exact absurd h not_isComplaint_empty
      · exact unchanged_say _ sh
  | _::_::_ => exact unchanged_say _ sh

/-- Every command of the table. -/
theorem complainsOnly_commands (seen : Surroundings) :
    ∀ entry ∈ commands seen, ComplainsOnly entry.func := by
  simp only [commands,List.forall_mem_cons]
  exact ⟨complainsOnly_say,complainsOnly_quiet fun _ => rfl,complainsOnly_quiet fun _ => rfl,
    complainsOnly_getCfg,complainsOnly_load,complainsOnly_quiet fun _ => rfl,
    complainsOnly_quiet fun _ => rfl,complainsOnly_say,complainsOnly_quiet fun _ => rfl,
    complainsOnly_quiet fun _ => rfl,complainsOnly_quiet fun _ => rfl,complainsOnly_setNumber,
    complainsOnly_setVrange,complainsOnly_setNumber,complainsOnly_setNumber,complainsOnly_setNumber,
    complainsOnly_output,complainsOnly_say,by simp⟩

/-- A line, also one that the loop answers itself. -/
theorem complainsOnly_runWords (seen : Surroundings) : ComplainsOnly (runWords seen) := by
  intro words sh h
  cases words with
  | nil => exact unchanged_say _ sh
  | cons name args =>
    simp only [runWords] at h ⊢
    by_cases hmany : pdbsShellMaxArguments < args.length
    · rw [if_pos hmany]
      exact unchanged_say _ sh
    · rw [if_neg hmany] at h ⊢
      by_cases hhelp : name="help".toList
      · rw [if_pos hhelp] at h ⊢
        exact complainsOnly_say args sh h
      · rw [if_neg hhelp] at h ⊢
        cases hexec : cmdexec seen name with
        | none => exact unchanged_say _ sh
        | some cmd =>
          rw [hexec] at h
          obtain ⟨entry,hfind,rfl⟩ := Option.map_eq_some_iff.mp hexec
          exact complainsOnly_commands seen entry (List.mem_of_find?_eq_some hfind) args sh h

end Complaints

/-! ## Scopes -/

section Scopes

variable {scope : Scope} {usage invalid : String} {sh : Shell}

theorem stays_say (text : String) (sh : Shell) : Stays scope sh (say text sh) :=
  ⟨fun _ _ _ => rfl,rfl,fun _ => rfl,fun _ => rfl,fun _ => rfl,List.nil_subset _⟩

/-- An edit of the buffer. -/
theorem stays_edit {change : Entry → Entry}
    (hf : ∀ e, ∀ f ∉ scope.fields, f≠.flags → change e f=e f)
    (hflags : ∀ e, change e .flags &&& ~~~scope.flags=e .flags &&& ~~~scope.flags) (sh : Shell) :
    Stays scope sh (edit change sh) :=
  ⟨hf sh.tmpcfg,hflags sh.tmpcfg,fun _ => rfl,fun _ => rfl,fun _ => rfl,List.nil_subset _⟩

/-- An edit of the flags. -/
theorem stays_editFlags {change : BitVec 16 → BitVec 16}
    (hc : ∀ x, change x &&& ~~~scope.flags=x &&& ~~~scope.flags) (sh : Shell) :
    Stays scope sh (edit (editFlags change) sh) :=
  stays_edit (fun _ _ _ hf => Function.update_of_ne hf ..)
    (fun e => hc (e .flags)) sh

theorem within_noArguments {action : Shell → Reply} (ha : ∀ sh, Stays scope sh (action sh)) :
    Within scope (noArguments usage action) := by
  intro args sh
  cases args with
  | nil => exact ha sh
  | cons arg args => exact stays_say usage sh

theorem within_setNumber {least most : ℤ} {set : ℤ → Entry → Entry}
    (hs : ∀ i sh, Stays scope sh (edit (set i) sh)) :
    Within scope (setNumber usage invalid least most set) := by
  intro args sh
  match args with
  | [] => exact stays_say usage sh
  | [arg] =>
    unfold setNumber
    dsimp only
    split
    · exact hs _ sh
    · exact stays_say invalid sh
  | _::_::_ => exact stays_say usage sh

/-- The shared value goes with its current definition. -/
theorem stays_setCurrentDefn {defn : BitVec 16} (hd : defn &&& ~~~pdbsConfigFlagsCurrentDefn=0)
    (value : ℤ) (sh : Shell) :
    Stays {nothing with fields := [.i],flags := pdbsConfigFlagsCurrentDefn} sh
      (edit (setCurrentDefn defn value) sh) := by
  refine stays_edit (fun e f hf hflags => ?_) (fun e => ?_) sh
  · have hi : f≠.i := fun h => hf (List.mem_singleton.mpr h)
    exact (Function.update_of_ne hflags ..).trans (Function.update_of_ne hi ..)
  · change (e .flags &&& ~~~pdbsConfigFlagsCurrentDefn ||| defn) &&& _=_
    rw [or_and_right hd,and_and_right (BitVec.and_self ..)]

theorem within_getCfg : Within {nothing with cache := true} cmdGetCfg := by
  intro args sh
  match args with
  | [] =>
    have hread (text : String) : Stays {nothing with cache := true} sh
        (say text {sh with flash := (pdbsConfigFlashRead sh.flash).2}) :=
      ⟨fun _ _ _ => rfl,rfl,fun _ => read_page sh.flash,nofun,fun _ => rfl,List.nil_subset _⟩
    unfold cmdGetCfg
    dsimp only
    split
    · exact hread _
    · exact hread _
  | [arg] =>
    unfold cmdGetCfg
    dsimp only
    split
    · exact stays_say _ sh
    · exact stays_say _ sh
  | _::_::_ => exact stays_say _ sh

/-- Loading takes the halfwords that are stored. -/
theorem stays_load {sh' : Shell} (h : loadConfig sh=some sh') (text : String) :
    Stays {nothing with fields := writeOrder,flags := BitVec.allOnes 16,cache := true} sh
      (say text sh') := by
  obtain ⟨slot,-,rfl⟩ := Option.map_eq_some_iff.mp h
  refine ⟨fun f hf _ => if_neg hf,?_,fun _ => read_page sh.flash,nofun,fun _ => rfl,List.nil_subset _⟩
  rw [BitVec.not_allOnes,BitVec.and_zero,BitVec.and_zero]

theorem within_load :
    Within {nothing with fields := writeOrder,flags := BitVec.allOnes 16,cache := true} cmdLoad :=
  within_noArguments fun sh => by
    cases hload : loadConfig sh with
    | none => exact stays_say _ sh
    | some sh' => exact stays_load hload ""

/-- Starting anew leaves the page. -/
theorem startShell_page (page : Page) : (startShell page).flash.page=page := by
  unfold startShell
  cases hload : loadConfig (setup page) with
  | none => rfl
  | some sh' => exact (stays_load hload "").page rfl

theorem within_boot : Within ⟨writeOrder++[.reserved0,.reserved1],BitVec.allOnes 16,false,true,true,
    [.bootloader]⟩ cmdBoot := by
  refine within_noArguments fun sh => ⟨fun f hf hflags => ?_,?_,fun _ => startShell_page _,nofun,nofun,
    List.Subset.refl _⟩
  · cases f <;> exact absurd (by decide) hf
  · rw [BitVec.not_allOnes,BitVec.and_zero,BitVec.and_zero]

theorem within_write : Within {nothing with page := true,cache := true,signals := [.newPower]} cmdWrite :=
  within_noArguments fun _ => ⟨fun _ _ _ => rfl,rfl,nofun,nofun,fun _ => rfl,List.Subset.refl _⟩

theorem within_erase : Within {nothing with page := true,cache := true} cmdErase :=
  within_noArguments fun _ => ⟨fun _ _ _ => rfl,rfl,nofun,nofun,fun _ => rfl,List.nil_subset _⟩

/-- The ends of the range are stored together, or not at all. -/
theorem setVrange_together (args : List Word) (sh : Shell) :
    (∃ text, cmdSetVrange args sh=say text sh) ∨ ∃ arg arg2, args=[arg,arg2] ∧
      cmdSetVrange args sh=edit (fun e => Function.update
        (Function.update e .vmin (BitVec.ofInt 16 (strtol arg).value)) .vmax
        (BitVec.ofInt 16 (strtol arg2).value)) sh := by
  match args with
  | [] => exact .inl ⟨_,rfl⟩
  | [arg] => exact .inl ⟨_,rfl⟩
  | [arg,arg2] =>
    unfold cmdSetVrange
    dsimp only
    split
    · exact .inl ⟨_,rfl⟩
    · split
      · exact .inl ⟨_,rfl⟩
      · exact .inr ⟨arg,arg2,rfl,rfl⟩
  | _::_::_::_ => exact .inl ⟨_,rfl⟩

theorem within_setVrange : Within {nothing with fields := [.vmin,.vmax]} cmdSetVrange := by
  intro args sh
  rcases setVrange_together args sh with ⟨text,heq⟩ | ⟨arg,arg2,-,heq⟩
  · rw [heq]
    exact stays_say text sh
  · rw [heq]
    refine stays_edit (fun e f hf _ => ?_) (fun e => ?_) sh
    · have hmin : f≠.vmin := fun h => hf (h ▸ List.mem_cons_self)
      have hmax : f≠.vmax := fun h => hf (h ▸ List.mem_cons_of_mem _ List.mem_cons_self)
      rw [Function.update_of_ne hmax,Function.update_of_ne hmin]
    · rfl

theorem within_output : Within {nothing with output := true,signals := [.newPower]} cmdOutput := by
  intro args sh
  have hset (on : Bool) : Stays {nothing with output := true,signals := [.newPower]} sh
      ⟨"",[.newPower],{sh with outputEnabled := on}⟩ :=
    ⟨fun _ _ _ => rfl,rfl,fun _ => rfl,fun _ => rfl,nofun,List.Subset.refl _⟩
  match args with
  | [] => exact stays_say _ sh
  | [arg] =>
    simp only [cmdOutput]
    split
    · exact hset true
    · split
      · exact hset false
      · exact stays_say _ sh
  | _::_::_ => exact stays_say _ sh

theorem within_setV : Within {nothing with fields := [.v]} cmdSetV := by
  refine within_setNumber fun i => stays_edit (fun e f hf _ => ?_) fun e => ?_
  · exact Function.update_of_ne (fun h => hf (List.mem_singleton.mpr h)) ..
  · rfl

/-- Every command of the table keeps to what it is for. -/
theorem within_commands (seen : Surroundings) :
    List.Forall₂ (fun entry p => entry.cmd=p.1 ∧ Within p.2 entry.func) (commands seen) scopes := by
  have hsay {usage : String} {scope : Scope} {text : Shell → String} :
      Within scope (noArguments usage fun sh => say (text sh) sh) :=
    within_noArguments fun sh => stays_say (text sh) sh
  unfold commands scopes
  refine .cons ⟨rfl,hsay⟩ (.cons ⟨rfl,?_⟩ (.cons ⟨rfl,within_boot⟩ (.cons ⟨rfl,within_getCfg⟩
    (.cons ⟨rfl,within_load⟩ (.cons ⟨rfl,within_write⟩ (.cons ⟨rfl,within_erase⟩ (.cons ⟨rfl,hsay⟩
    (.cons ⟨rfl,?_⟩ (.cons ⟨rfl,?_⟩ (.cons ⟨rfl,?_⟩ (.cons ⟨rfl,?_⟩ (.cons ⟨rfl,within_setVrange⟩
    (.cons ⟨rfl,?_⟩ (.cons ⟨rfl,?_⟩ (.cons ⟨rfl,?_⟩ (.cons ⟨rfl,within_output⟩
    (.cons ⟨rfl,hsay⟩ .nil)))))))))))))))))
  · exact within_noArguments fun _ =>
      ⟨fun _ _ _ => rfl,rfl,fun _ => rfl,fun _ => rfl,fun _ => rfl,List.Subset.refl _⟩
  · exact within_noArguments (stays_editFlags fun x => and_and_right (by decide))
  · exact within_noArguments (stays_editFlags fun x => xor_and (by decide))
  · exact within_noArguments (stays_editFlags fun x => xor_and (by decide))
  · exact within_setV
  · exact within_setNumber fun i => stays_setCurrentDefn (by decide) (PdMessage.pdMa2Pdi i.toNat)
  · exact within_setNumber fun i => stays_setCurrentDefn (by decide) _
  · exact within_setNumber fun i => stays_setCurrentDefn (by decide) _

/-- Every command but `boot` leaves the bootloader alone. -/
theorem boots_or_within {entry : PdbsShellCmd} {seen : Surroundings} (h : entry ∈ commands seen) :
    entry.func=cmdBoot ∨ ∃ scope, Within scope entry.func ∧ .bootloader ∉ scope.signals := by
  have hscope : ∀ i : Fin scopes.length, i.val≠2 → .bootloader ∉ (scopes.get i).2.signals := by decide
  obtain ⟨i,hi,rfl⟩ := List.mem_iff_getElem.mp h
  have hin : i < scopes.length := (within_commands seen).length_eq ▸ hi
  by_cases htwo : i=2
  · subst htwo
    exact .inl rfl
  · exact .inr ⟨_,((within_commands seen).get hi hin).2,hscope ⟨i,hin⟩ htwo⟩

/-- A command that runs the bootloader starts the shell anew. -/
def Boots (cmd : Command) : Prop :=
  ∀ args sh, .bootloader ∈ (cmd args sh).signals → (cmd args sh).shell=startShell sh.flash.page

theorem boots_of_within {cmd : Command} (h : Within scope cmd) (hs : .bootloader ∉ scope.signals) :
    Boots cmd := fun args sh hboot => absurd ((h args sh).signals hboot) hs

theorem boots_boot : Boots cmdBoot := by
  intro args sh hboot
  cases args with
  | nil => rfl
  | cons arg args => exact absurd hboot List.not_mem_nil

/-- So does a line. -/
theorem boots_runWords (seen : Surroundings) : Boots (runWords seen) := by
  intro words sh hboot
  have hsay {text : String} : .bootloader ∉ (say text sh).signals := List.not_mem_nil
  cases words with
  | nil => exact absurd hboot hsay
  | cons name args =>
    simp only [runWords] at hboot ⊢
    by_cases hmany : pdbsShellMaxArguments < args.length
    · rw [if_pos hmany] at hboot
      exact absurd hboot hsay
    · rw [if_neg hmany] at hboot ⊢
      by_cases hhelp : name="help".toList
      · rw [if_pos hhelp] at hboot
        have hquiet : Within nothing (help seen) := within_noArguments fun sh => stays_say _ sh
        exact absurd ((hquiet args sh).signals hboot) List.not_mem_nil
      · rw [if_neg hhelp] at hboot ⊢
        cases hexec : cmdexec seen name with
        | none =>
          rw [hexec] at hboot
          exact absurd hboot hsay
        | some cmd =>
          rw [hexec] at hboot
          obtain ⟨entry,hfind,rfl⟩ := Option.map_eq_some_iff.mp hexec
          rcases boots_or_within (List.mem_of_find?_eq_some hfind) with hfunc | ⟨scope,hwithin,hnot⟩
          · dsimp only at hboot ⊢
            rw [hfunc] at hboot ⊢
            exact boots_boot args sh hboot
          · exact boots_of_within hwithin hnot args sh hboot

/-- A command that answers with a usage or error message changes nothing, and
every other keeps to what it is for; the ends of the range go together. -/
theorem command_effects (seen : Surroundings) :
    (∀ entry ∈ commands seen, ComplainsOnly entry.func) ∧ ComplainsOnly (runWords seen) ∧
    List.Forall₂ (fun entry p => entry.cmd=p.1 ∧ Within p.2 entry.func) (commands seen) scopes ∧
    ∀ args sh, (∃ text, cmdSetVrange args sh=say text sh) ∨ ∃ arg arg2, args=[arg,arg2] ∧
      cmdSetVrange args sh=edit (fun e => Function.update
        (Function.update e .vmin (BitVec.ofInt 16 (strtol arg).value)) .vmax
        (BitVec.ofInt 16 (strtol arg2).value)) sh :=
  ⟨complainsOnly_commands seen,complainsOnly_runWords seen,within_commands seen,setVrange_together⟩

end Scopes

end UsbPdFirmware.CommandEffects
