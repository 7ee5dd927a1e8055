import UsbPdFirmware.PrintedConfig

/-!
# Entering a printed configuration

What the shell makes of the lines entered for a configuration that was
printed: the numbers are read as they were typed, the unit conversions are
exact and the toggles restore the flags.
-/

namespace UsbPdFirmware.ReenteredConfig

open BitFields DevicePolicy ConfigStore ConsoleText ShellCommands ConfigRanges ShellRecords PrintedConfig
open DecimalDigits LabelledRuns Machine

/-! ## Numbers -/

section Numbers

variable {c : Char} {cs : Word} {n : ℕ}

/-- A decimal digit for `strtol`. -/
theorem digitValue_eq (h : c.isDigit=true) : digitValue c=c.toNat-48 ∧ digitValue c < 10 := by
  obtain ⟨hlow,hhigh⟩ : 48 ≤ c.toNat ∧ c.toNat ≤ 57 := Char.isDigit_iff_toNat.mp h
  unfold digitValue
  rw [if_pos ⟨hlow,hhigh⟩]
  omega

/-- A digit is no white space. -/
theorem isSpace_digit (h : c.isDigit=true) : isSpace c=false := by
  obtain ⟨hlow,hhigh⟩ : 48 ≤ c.toNat ∧ c.toNat ≤ 57 := Char.isDigit_iff_toNat.mp h
  unfold isSpace
  have hspace : (c.toNat==32)=false := beq_eq_false_iff_ne.mpr (by omega)
  rw [hspace,decide_eq_false (by omega : ¬c.toNat ≤ 13),Bool.and_false,Bool.or_false]

/-- A digit is no sign. -/
theorem splitSign_digit (h : c.isDigit=true) : splitSign (c::cs)=(false,c::cs) := by
  unfold splitSign
  split
  · next heq => exact absurd h (by rw [(List.cons.inj heq).1]; decide)
  · next heq => exact absurd h (by rw [(List.cons.inj heq).1]; decide)
  · rfl

/-- Without a zero in front the base is ten. -/
theorem splitBase_ten (h : c≠ '0') : splitBase (c::cs)=(10,c::cs) := by
  unfold splitBase
  split
  · next heq => exact absurd (List.cons.inj heq).1 h
  · next heq => exact absurd (List.cons.inj heq).1 h
  · rfl

/-- The digits are summed as they are everywhere. -/
theorem foldl_digits (hcs : ∀ c ∈ cs, c.isDigit=true) :
    cs.foldl (fun n c => n*10+digitValue c) n=Nat.ofDigitChars 10 cs n := by
  unfold Nat.ofDigitChars
  refine List.foldl_ext _ _ n fun m c hc => ?_
  have hzero : '0'.toNat=48 := rfl
  rw [(digitValue_eq (hcs c hc)).1,Nat.mul_comm,hzero]

/-- `strtol` reads a number as it was typed. -/
theorem strtol_typed (h : n < 2^31) : strtol (typed n)=⟨n,(typed n).length⟩ := by
  by_cases hn : n=0
  · rw [hn]
    decide
  · obtain ⟨c,cs,htyped⟩ : ∃ c cs, typed n=c::cs := List.exists_cons_of_ne_nil Nat.toDigits_ne_nil
    have hdigits : ∀ d ∈ c::cs, d.isDigit=true := fun d hd => isDigit_of_mem (htyped.symm ▸ hd : d ∈ typed n)
    have hc := hdigits c List.mem_cons_self
    have hhead : c≠ '0' := by
      rintro rfl
      exact toDigits_head (Nat.pos_of_ne_zero hn) (congrArg List.head? htyped)
    have hall : (c::cs).takeWhile (ShellCommands.isDigit 10)=c::cs :=
      List.takeWhile_eq_self_iff.mpr fun d hd => decide_eq_true (digitValue_eq (hdigits d hd)).2
    have hsum : (c::cs).foldl (fun n c => n*10+digitValue c) 0=n := by
      rw [foldl_digits hdigits,← htyped]
      exact Nat.ofDigitChars_ten_toDigits
    have hsaturate : saturate n=n := by
      unfold saturate
      omega
    unfold strtol
    rw [htyped,List.dropWhile_cons_of_neg (by rw [isSpace_digit hc]; decide),splitSign_digit hc]
    dsimp only
    rw [splitBase_ten hhead]
    dsimp only
    rw [hall,hsum,if_neg (List.cons_ne_nil c cs),if_neg (by decide),hsaturate,Nat.sub_self,Nat.sub_zero]

end Numbers

/-! ## Flags -/

section Flags

variable {flags mask x : BitVec 16} {i : ℕ}

/-- Flags a command sets are made of their parts. -/
theorem flags_parts (h : flags &&& unusedFlags=0) :
    ((flags &&& pdbsConfigFlagsCurrentDefn) ^^^ (flags &&& pdbsConfigFlagsGiveback)) ^^^
      (flags &&& pdbsConfigFlagsHvPreferred)=flags := by
  have hall : unusedFlags ^^^ ((pdbsConfigFlagsCurrentDefn ^^^ pdbsConfigFlagsGiveback) ^^^
      pdbsConfigFlagsHvPreferred)=BitVec.allOnes 16 := by decide
  have hsplit := and_xor_left unusedFlags ((pdbsConfigFlagsCurrentDefn ^^^
    pdbsConfigFlagsGiveback) ^^^ pdbsConfigFlagsHvPreferred) flags
  rw [hall,h,and_xor_left,and_xor_left] at hsplit
  exact (hsplit.trans BitVec.zero_xor).symm.trans BitVec.and_allOnes

/-- A flag of one bit is clear or set. -/
theorem flag_cases (hmask : mask=BitVec.twoPow 16 i) : flags &&& mask=0 ∨ flags &&& mask=mask := by
  rw [hmask,BitVec.and_twoPow]
  split
  · exact .inr rfl
  · exact .inl rfl

/-- The flags with a command are told from what else is printed. -/
theorem mem_flagWords :
    ("GiveBack".toList ∈ flagWords flags ↔ flags &&& pdbsConfigFlagsGiveback≠0) ∧
    ("HV_Preferred".toList ∈ flagWords flags ↔ flags &&& pdbsConfigFlagsHvPreferred≠0) := by
  unfold flagWords flagWord
  simp only [List.mem_append,List.mem_ite_nil_right,List.mem_singleton]
  simp

end Flags

/-! ## Lines -/

/-- A word names a command of the table. -/
def Names (seen : Surroundings) (name : Word) (cmd : Command) : Prop :=
  name≠"help".toList ∧ cmdexec seen name=some cmd

/-- A line edits the buffer, whatever the shell has in it. -/
def Enters (seen : Surroundings) (words : List Word) (change : Entry → Entry) : Prop :=
  ∀ sh, (runWords seen words sh).shell={sh with tmpcfg := change sh.tmpcfg}

section Enters

variable {seen : Surroundings} {name : Word} {args : List Word} {cmd : Command} {sh : Shell}
  {n lo hi : ℕ} {flags : BitVec 16} {change : Entry → Entry}

/-- The names of the commands are different, and none is `help`. -/
theorem names_nodup (seen : Surroundings) :
    ("help"::(commands seen).map PdbsShellCmd.cmd).Nodup := by
  have hnames : (commands seen).map PdbsShellCmd.cmd=
      (commands ⟨"",none,.none⟩).map PdbsShellCmd.cmd := rfl
  rw [hnames]
  decide +kernel

/-- A command of the table is run by its name. -/
theorem names_get (k : Fin 18) : Names seen ((commands seen).get k).cmd.toList ((commands seen).get k).func := by
  obtain ⟨hhelp,hnodup⟩ := List.nodup_cons.mp (names_nodup seen)
  have hmem := List.get_mem (commands seen) k
  refine ⟨fun heq => ?_,?_⟩
  · exact hhelp (List.mem_map.mpr ⟨_,hmem,String.toList_inj.mp heq⟩)
  · unfold cmdexec
    cases hfind : (commands seen).find? _ with
    | none => exact absurd (beq_self_eq_true _) (List.find?_eq_none.mp hfind _ hmem)
    | some found =>
      have htest := List.find?_some hfind
      have hcmd : found.cmd=((commands seen).get k).cmd := String.toList_inj.mp (beq_iff_eq.mp htest)
      rw [List.inj_on_of_nodup_map hnodup (List.mem_of_find?_eq_some hfind) hmem hcmd]
      rfl

/-- A line runs the command it names. -/
theorem Names.run (h : Names seen name cmd) (hargs : args.length ≤ pdbsShellMaxArguments) :
    runWords seen (name::args) sh=cmd args sh := by
  simp only [runWords,if_neg (Nat.not_lt.mpr hargs),if_neg h.1,h.2]

/-- A number within the limits is stored. -/
theorem enters_setNumber {usage invalid : String} {least most : ℤ} {store : ℤ → Entry → Entry}
    (hname : Names seen name (setNumber usage invalid least most store)) (hn : n < 2^31)
    (hleast : least ≤ n) (hmost : n ≤ most) : Enters seen [name,typed n] (store n) := by
  intro sh
  have hpos : 0 < (typed n).length := List.length_pos_of_ne_nil Nat.toDigits_ne_nil
  have hargs : [typed n].length ≤ pdbsShellMaxArguments := Nat.le_succ 1
  rw [hname.run hargs]
  unfold setNumber
  dsimp only
  rw [strtol_typed hn,if_pos ⟨hleast,hmost,hpos⟩]
  rfl

/-- A command without arguments that edits. -/
theorem enters_noArguments {usage : String} (hname : Names seen name (noArguments usage (edit change))) :
    Enters seen [name] change := by
  intro sh
  rw [hname.run (Nat.zero_le _)]
  rfl

/-- The preferred voltage. -/
theorem enters_setV (h : n ≤ 21000) : Enters seen ["set_v".toList,typed n]
    fun e => Function.update e .v (BitVec.ofInt 16 n) := by
  have hname : Names seen "set_v".toList cmdSetV := names_get 11
  have hmost : (n : ℤ) ≤ pdMvMax := Int.ofNat_le.mpr h
  exact enters_setNumber hname (by omega) (Int.natCast_nonneg n) hmost

/-- The voltage range, zeros included. -/
theorem enters_setVrange (horder : lo ≤ hi) (h : hi ≤ 21000) :
    Enters seen ["set_vrange".toList,typed lo,typed hi] fun e =>
      Function.update (Function.update e .vmin (BitVec.ofInt 16 lo)) .vmax (BitVec.ofInt 16 hi) := by
  intro sh
  have hname : Names seen "set_vrange".toList cmdSetVrange := names_get 12
  have hargs : [typed lo,typed hi].length ≤ pdbsShellMaxArguments := le_rfl
  have hlo : (typed lo).length≠0 := fun heq => Nat.toDigits_ne_nil (List.length_eq_zero_iff.mp heq)
  have hhi : (typed hi).length≠0 := fun heq => Nat.toDigits_ne_nil (List.length_eq_zero_iff.mp heq)
  rw [hname.run hargs]
  unfold cmdSetVrange pdMvMin pdMvMax
  dsimp only
  rw [strtol_typed (by omega),strtol_typed (by omega)]
  dsimp only
  rw [if_neg (by omega),if_neg (by omega)]
  rfl

/-- Whole hundredths survive the unit conversions, rounded up or down. -/
theorem units_exact (n : ℕ) :
    (PdMessage.pdMa2Pdi ((10*n : ℕ) : ℤ).toNat : ℤ)=n ∧ pdMw2Cw (10*n : ℕ)=n ∧ pdMo2Co (10*n : ℕ)=n := by
  unfold PdMessage.pdMa2Pdi pdMw2Cw pdMo2Co
  rw [Int.tdiv_eq_ediv_of_nonneg (by omega)]
  omega

/-- The setting the current derives from. -/
theorem enters_setting {defn : BitVec 16} (h : Shared defn n) :
    Enters seen [(settingCommand defn).toList,typed (10*n)] (setCurrentDefn defn n) := by
  obtain ⟨hcurrent,hpower,hresistance⟩ := units_exact n
  rcases h with ⟨rfl,hmax⟩ | ⟨rfl,hmax⟩ | ⟨rfl,hmin,hmax⟩
  · have hname : Names seen "set_i".toList cmdSetI := names_get 13
    have hmost : ((10*n : ℕ) : ℤ) ≤ pdMaMax := Int.ofNat_le.mpr (by omega : 10*n ≤ 5000)
    rw [← hcurrent]
    exact enters_setNumber hname (by omega) (Int.natCast_nonneg (10*n)) hmost
  · have hname : Names seen "set_p".toList cmdSetP := names_get 14
    have hmost : ((10*n : ℕ) : ℤ) ≤ pdMwMax := Int.ofNat_le.mpr (by omega : 10*n ≤ 100000)
    rw [← hpower]
    exact enters_setNumber hname (by omega) (Int.natCast_nonneg (10*n)) hmost
  · have hname : Names seen "set_r".toList cmdSetR := names_get 15
    have hleast : pdMoMin ≤ ((10*n : ℕ) : ℤ) := Int.ofNat_le.mpr (by omega : 500 ≤ 10*n)
    have hmost : ((10*n : ℕ) : ℤ) ≤ pdMoMax := Int.ofNat_le.mpr (by omega : 10*n ≤ 655350)
    rw [← hresistance]
    exact enters_setNumber hname (by omega) hleast hmost

/-- An edit that changes nothing. -/
theorem editFlags_same {e : Entry} {edits : BitVec 16 → BitVec 16} (h : edits (e .flags)=e .flags) :
    editFlags edits e=e := by
  unfold editFlags
  rw [h]
  exact Function.update_eq_self _ _

/-- Two edits. -/
theorem editFlags_twice (first second : BitVec 16 → BitVec 16) (e : Entry) :
    editFlags second (editFlags first e)=editFlags (second ∘ first) e := by
  unfold editFlags
  rw [Function.update_idem,Function.update_self]
  rfl

/-- A flag that is to be set is toggled. -/
theorem enter_toggle {mask : BitVec 16} {command : Word}
    (hcommand : Enters seen [command] (editFlags (· ^^^ mask)))
    (hmask : flags &&& mask=0 ∨ flags &&& mask=mask) :
    enter seen (if flags &&& mask≠0 then [[command]] else []) sh=
      {sh with tmpcfg := editFlags (· ^^^ (flags &&& mask)) sh.tmpcfg} := by
  by_cases hzero : flags &&& mask=0
  · rw [if_neg (not_not.mpr hzero),hzero,editFlags_same BitVec.xor_zero]
    rfl
  · rw [if_pos hzero,hmask.resolve_left hzero]
    exact hcommand sh

/-- Both flags. -/
theorem enter_toggles : enter seen
    ((toggles.filter fun p => p.1.toList ∈ flagWords flags).map fun p => [p.2.toList]) sh=
      {sh with tmpcfg := editFlags (fun x =>
        (x ^^^ (flags &&& pdbsConfigFlagsGiveback)) ^^^ (flags &&& pdbsConfigFlagsHvPreferred)) sh.tmpcfg} := by
  have hgiveback : Names seen "toggle_giveback".toList cmdToggleGiveback := names_get 9
  have hhv : Names seen "toggle_hv_preferred".toList cmdToggleHvPreferred := names_get 10
  have hfirst : Enters seen ["toggle_giveback".toList] (editFlags (· ^^^ pdbsConfigFlagsGiveback)) :=
    enters_noArguments hgiveback
  have hsecond : Enters seen ["toggle_hv_preferred".toList] (editFlags (· ^^^ pdbsConfigFlagsHvPreferred)) :=
    enters_noArguments hhv
  have hlines : ((toggles.filter fun p => p.1.toList ∈ flagWords flags).map fun p => [p.2.toList])=
      (if flags &&& pdbsConfigFlagsGiveback≠0 then [["toggle_giveback".toList]] else [])++
      (if flags &&& pdbsConfigFlagsHvPreferred≠0 then [["toggle_hv_preferred".toList]] else []) := by
    unfold toggles
    simp only [List.filter_cons,List.filter_nil,mem_flagWords.1,mem_flagWords.2,decide_eq_true_eq]
    split_ifs <;> rfl
  have hsplit (lines more : List (List Word)) :
      enter seen (lines++more) sh=enter seen more (enter seen lines sh) := List.foldl_append
  rw [hlines,hsplit,enter_toggle hfirst (flag_cases (i := 0) rfl),
    enter_toggle hsecond (flag_cases (i := 2) rfl),editFlags_twice]
  rfl

end Enters

/-! ## The buffer afterwards -/

/-- A buffer without flags. -/
def ClearedBuffer (e : Entry) : Prop :=
  e .status=pdbsConfigStatusValid ∧ e .flags &&& ~~~pdbsConfigFlagsCurrentDefn=0

section Buffer

variable {seen : Surroundings} {sh : Shell} {e : Entry}

/-- So the firmware begins. -/
theorem cleared_initial : ClearedBuffer initialTmpcfg := ⟨rfl,by decide⟩

/-- `clear_flags` clears the buffer of any shell. -/
theorem cleared_clearFlags (h : console.Reach anyStep sh) :
    ClearedBuffer (runWords seen ["clear_flags".toList] sh).shell.tmpcfg := by
  have hname : Names seen "clear_flags".toList cmdClearFlags := names_get 8
  have hrange := (console_good h).buffer
  have hclear : Enters seen ["clear_flags".toList] (editFlags (· &&&
      ~~~(pdbsConfigFlagsGiveback ||| pdbsConfigFlagsVarBat ||| pdbsConfigFlagsHvPreferred))) :=
    enters_noArguments hname
  have hmasks : ~~~(pdbsConfigFlagsGiveback ||| pdbsConfigFlagsVarBat ||| pdbsConfigFlagsHvPreferred) &&&
      ~~~pdbsConfigFlagsCurrentDefn=unusedFlags &&& ~~~(pdbsConfigFlagsVarBat) := by decide
  rw [hclear sh]
  refine ⟨hrange.status,?_⟩
  change (sh.tmpcfg .flags &&& _) &&& _=(0 : BitVec 16)
  rw [BitVec.and_assoc,hmasks,← BitVec.and_assoc,hrange.flags]
  exact BitVec.zero_and

/-- The lines for a configuration bring it into a cleared buffer. -/
theorem enter_configEntries (h : Storable e) (hsh : ClearedBuffer sh.tmpcfg) :
    config (enter seen (configEntries (config e)) sh).tmpcfg=
      {config e with status := pdbsConfigStatusValid} := by
  have hrange := h.inRange
  have hv : (e .v).toNat ≤ 21000 := hrange.v
  have horder : (e .vmin).toNat ≤ (e .vmax).toNat := hrange.order
  have hvmax : (e .vmax).toNat ≤ 21000 := hrange.vmax
  have hflags : e .flags &&& unusedFlags=0 := hrange.flags
  have hshared : Shared (e .flags &&& pdbsConfigFlagsCurrentDefn) (e .i).toNat := hrange.shared
  have hhalfword (x : BitVec 16) : (BitVec.ofInt 16 x.toNat).toNat=x.toNat := by
    rw [BitVec.ofInt_natCast,BitVec.ofNat_toNat,BitVec.setWidth_eq]
  have henter : enter seen (configEntries (config e)) sh=enter seen
      ((toggles.filter fun p => p.1.toList ∈ flagWords (e .flags)).map fun p => [p.2.toList])
      (runWords seen [(settingCommand (e .flags &&& pdbsConfigFlagsCurrentDefn)).toList,typed (10*(e .i).toNat)]
        (runWords seen ["set_vrange".toList,typed (e .vmin).toNat,typed (e .vmax).toNat]
          (runWords seen ["set_v".toList,typed (e .v).toNat] sh).shell).shell).shell := rfl
  rw [henter,enter_toggles,enters_setting hshared,enters_setVrange horder hvmax,enters_setV hv]
  have hcleared : ((sh.tmpcfg .flags &&& ~~~pdbsConfigFlagsCurrentDefn) |||
      (e .flags &&& pdbsConfigFlagsCurrentDefn))=e .flags &&& pdbsConfigFlagsCurrentDefn := by
    rw [hsh.2]
    exact BitVec.zero_or
  have hset : (((sh.tmpcfg .flags &&& ~~~pdbsConfigFlagsCurrentDefn) |||
      (e .flags &&& pdbsConfigFlagsCurrentDefn)) ^^^ (e .flags &&& pdbsConfigFlagsGiveback)) ^^^
        (e .flags &&& pdbsConfigFlagsHvPreferred)=e .flags := by
    rw [hcleared]
    exact flags_parts hflags
  change PdbsConfig.mk (sh.tmpcfg .status) (((sh.tmpcfg .flags &&& _ ||| _) ^^^ _) ^^^ _)
    (BitVec.ofInt 16 _).toNat (BitVec.ofInt 16 _).toNat (BitVec.ofInt 16 _).toNat
    (BitVec.ofInt 16 _).toNat=_
  rw [hsh.1,hset,hhalfword,hhalfword,hhalfword,hhalfword]
  rfl

/-- The lines for a printed configuration bring it into a cleared buffer. -/
theorem reenter_print (h : Storable e) (hsh : ClearedBuffer sh.tmpcfg) :
    config (enter seen (reenter (readLines (pdbsConfigPrint (config e)))) sh).tmpcfg=
      {config e with status := pdbsConfigStatusValid} := by
  have hshared : Shared ((config e).flags &&& pdbsConfigFlagsCurrentDefn) (config e).i := h.inRange.shared
  rw [readLines_print h.status,reenter_configLines hshared]
  exact enter_configEntries h hsh

/-- The status word tells the two statuses of stored configurations apart. -/
theorem status_of_lines {e' : Entry} (h : Storable e) (h' : Storable e')
    (heq : configLines (statusWord (config e)) (config e)=configLines (statusWord (config e')) (config e')) :
    (config e).status=(config e').status := by
  have hline : ["status:".toList,(statusWord (config e)).toList]=
      ["status:".toList,(statusWord (config e')).toList] := (List.cons.inj heq).1
  have hword : statusWord (config e)=statusWord (config e') :=
    String.toList_inj.mp (List.cons.inj (List.cons.inj hline).2).1
  have hvalid {c : PdbsConfig} (hc : c.status=pdbsConfigStatusValid) : statusWord c="valid" := by
    unfold statusWord
    rw [hc]
    rfl
  have hinvalid {c : PdbsConfig} (hc : c.status=pdbsConfigStatusInvalid) : statusWord c="invalid" := if_pos hc
  rcases (h.status : _ ∨ (config e).status=_) with hs | hs <;>
    rcases (h'.status : _ ∨ (config e').status=_) with hs' | hs'
  · exact hs.trans hs'.symm
  · rw [hvalid hs,hinvalid hs'] at hword
    exact absurd hword (by decide)
  · rw [hinvalid hs,hvalid hs'] at hword
    exact absurd hword (by decide)
  · exact hs.trans hs'.symm

/-- A text is printed for one configuration only: entering it gives everything
but the status back. -/
theorem config_of_print {e' : Entry} (h : Storable e) (h' : Storable e')
    (heq : pdbsConfigPrint (config e)=pdbsConfigPrint (config e')) : config e=config e' := by
  let blank : Shell := setup fun _ _ => erased
  let seen : Surroundings := ⟨"",none,.none⟩
  let again (cfg : PdbsConfig) : PdbsConfig :=
    config (enter seen (reenter (readLines (pdbsConfigPrint cfg))) blank).tmpcfg
  have hlines := congrArg readLines heq
  rw [readLines_print h.status,readLines_print h'.status] at hlines
  have hstatus := status_of_lines h h' hlines
  have hsame : again (config e)=again (config e') := congrArg (fun text =>
    config (enter seen (reenter (readLines text)) blank).tmpcfg) heq
  calc config e={again (config e) with status := (config e).status} := by
        rw [show again (config e)=_ from reenter_print h cleared_initial]
    _={again (config e') with status := (config e').status} := by rw [hsame,hstatus]
    _=config e' := by rw [show again (config e')=_ from reenter_print h' cleared_initial]

/-- Lines entered are runs of the shell. -/
theorem reach_enter {lines : List (List Word)} (h : console.Reach anyStep sh) :
    console.Reach anyStep (enter seen lines sh) := by
  induction lines generalizing sh with
  | nil => exact h
  | cons words lines ih => exact ih (.step (l := .line seen words) h trivial rfl)

end Buffer

/-- The printed text of a configuration the shell stores determines it, and
entering what was printed into a cleared buffer gives it back. Only the status
of a superseded configuration is not entered. -/
theorem printed_config {e : Entry} (h : ShellStores e) :
    (∀ e', ShellStores e' → pdbsConfigPrint (config e)=pdbsConfigPrint (config e') → config e=config e') ∧
    ∀ seen sh, ClearedBuffer sh.tmpcfg →
      config (enter seen (reenter (readLines (pdbsConfigPrint (config e)))) sh).tmpcfg=
        {config e with status := pdbsConfigStatusValid} ∧
      (e .status=pdbsConfigStatusValid →
        config (enter seen (reenter (readLines (pdbsConfigPrint (config e)))) sh).tmpcfg=config e) := by
  have hstorable := storable_of_stores h
  refine ⟨fun e' h' heq => config_of_print hstorable (storable_of_stores h') heq,fun seen sh hsh => ?_⟩
  have hagain : config (enter seen (reenter (readLines (pdbsConfigPrint (config e)))) sh).tmpcfg=_ :=
    reenter_print hstorable hsh
  refine ⟨hagain,fun hvalid => hagain.trans ?_⟩
  rw [← hvalid]
  rfl

/-- A power of 32.57 W between 9 V and 15 V, with high voltages preferred. -/
theorem printed_config_watts : ∃ e : Entry,
    pdbsConfigPrint (config e)="status: valid\r\nflags: HV_Preferred\r\nv: 9.050 V\r\nvmin: 9.000 V\r\n"++
      "vmax: 15.000 V\r\np: 32.57 W\r\n" ∧
    (∀ e', ShellStores e' → pdbsConfigPrint (config e)=pdbsConfigPrint (config e') → config e=config e') ∧
    ∀ seen sh, ClearedBuffer sh.tmpcfg →
      config (enter seen (reenter (readLines (pdbsConfigPrint (config e)))) sh).tmpcfg=
        {config e with status := pdbsConfigStatusValid} ∧
      (e .status=pdbsConfigStatusValid →
        config (enter seen (reenter (readLines (pdbsConfigPrint (config e)))) sh).tmpcfg=config e) := by
  let lines : List (List Word) := [["set_v".toList,"9050".toList],["set_p".toList,"32570".toList],
    ["set_vrange".toList,"9000".toList,"15000".toList],["toggle_hv_preferred".toList]]
  let sh : Shell := enter ⟨"",none,.none⟩ lines console.start
  have hreach : console.Reach anyStep sh := reach_enter .start
  exact ⟨sh.tmpcfg,by decide +kernel,printed_config ⟨sh,hreach,.inl rfl⟩⟩

end UsbPdFirmware.ReenteredConfig
