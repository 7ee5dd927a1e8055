import UsbPdFirmware.BitFields
import UsbPdFirmware.ConfigStoreRuns
import UsbPdFirmware.ShellCommands

/-!
# Ranges of the configuration

What the checks of the shell's commands guarantee of every configuration in
the buffer and in flash, through any sequence of commands and restarts. One
halfword holds a current, a power or a resistance, so its range goes with the
flags.
-/

namespace UsbPdFirmware.ConfigRanges

open BitFields DevicePolicy ConfigStore ConfigStoreRuns ShellCommands LabelledRuns Machine

/-! ## Flags -/

/-- The flags no command sets. -/
def unusedFlags : BitVec 16 :=
  ~~~(pdbsConfigFlagsGiveback ||| pdbsConfigFlagsHvPreferred ||| pdbsConfigFlagsCurrentDefn)

/-! ## The range of a configuration -/

/-- The shared value fits its current definition. -/
def Shared (defn : BitVec 16) (i : ℕ) : Prop :=
  defn=pdbsConfigFlagsCurrentDefnI ∧ i ≤ 500 ∨
  defn=pdbsConfigFlagsCurrentDefnP ∧ i ≤ 10000 ∨
  defn=pdbsConfigFlagsCurrentDefnR ∧ 50 ≤ i ∧ i ≤ 65535

/-- A configuration the shell can make. -/
structure InRange (e : Entry) : Prop where
  /-- The status. -/
  status : e .status=pdbsConfigStatusValid
  /-- The preferred voltage. -/
  v : (e .v).toNat ≤ 21000
  /-- The voltage range is one. -/
  order : (e .vmin).toNat ≤ (e .vmax).toNat
  /-- Its upper end. -/
  vmax : (e .vmax).toNat ≤ 21000
  /-- The flags. -/
  flags : e .flags &&& unusedFlags=0
  /-- The current definition and its value. -/
  shared : Shared (e .flags &&& pdbsConfigFlagsCurrentDefn) (e .i).toNat

theorem inRange_initial : InRange initialTmpcfg where
  status := rfl
  v := by decide
  order := by decide
  vmax := by decide
  flags := by decide
  shared := .inl (by decide)

section Edits

variable {e e' : Entry}

/-- Only the halfwords that are written matter. -/
theorem InRange.copy (h : InRange e) (heq : ∀ f ∈ writeOrder, e' f=e f) : InRange e' where
  status := by rw [heq .status (by decide)]; exact h.status
  v := by rw [heq .v (by decide)]; exact h.v
  order := by rw [heq .vmin (by decide),heq .vmax (by decide)]; exact h.order
  vmax := by rw [heq .vmax (by decide)]; exact h.vmax
  flags := by rw [heq .flags (by decide)]; exact h.flags
  shared := by rw [heq .flags (by decide),heq .i (by decide)]; exact h.shared

/-- Edits of the flags that keep the current definition. -/
theorem InRange.editFlags (h : InRange e) {change : BitVec 16 → BitVec 16}
    (hunused : change (e .flags) &&& unusedFlags=0)
    (hdefn : change (e .flags) &&& pdbsConfigFlagsCurrentDefn=
      e .flags &&& pdbsConfigFlagsCurrentDefn) :
    InRange (editFlags change e) where
  status := h.status
  v := h.v
  order := h.order
  vmax := h.vmax
  flags := hunused
  shared := by
    have hshared := h.shared
    rw [← hdefn] at hshared
    exact hshared

/-- Toggling a flag. -/
theorem InRange.toggle (h : InRange e) {mask : BitVec 16} (hunused : mask &&& unusedFlags=0)
    (hdefn : mask &&& pdbsConfigFlagsCurrentDefn=0) : InRange (ShellCommands.editFlags (· ^^^ mask) e) :=
  h.editFlags ((xor_and hunused).trans h.flags) (xor_and hdefn)

/-- Numbers within a halfword are stored as they are. -/
theorem toNat_halfword {i : ℤ} (h0 : 0 ≤ i) (h : i < 65536) : (BitVec.ofInt 16 i).toNat=i.toNat := by
  have hmod : i%((2^16 : ℕ) : ℤ)=i := Int.emod_eq_of_lt h0 h
  rw [BitVec.toNat_ofInt,hmod]

/-- Storing a shared value that fits its definition. -/
theorem InRange.setCurrentDefn (h : InRange e) {defn : BitVec 16} {value : ℤ}
    (hdefn : defn &&& pdbsConfigFlagsCurrentDefn=defn) (hunused : defn &&& unusedFlags=0)
    (h0 : 0 ≤ value) (hv : value < 65536) (hfit : Shared defn value.toNat) :
    InRange (setCurrentDefn defn value e) where
  status := h.status
  v := h.v
  order := h.order
  vmax := h.vmax
  flags := by
    change (e .flags &&& ~~~pdbsConfigFlagsCurrentDefn ||| defn) &&& unusedFlags=0
    rw [BitVec.and_or_distrib_right,and_and_zero h.flags,hunused]
    decide
  shared := by
    change Shared ((e .flags &&& ~~~pdbsConfigFlagsCurrentDefn ||| defn) &&& _)
      (BitVec.ofInt 16 value).toNat
    rw [PdMessage.and_of_replace _ _ _ hdefn,toNat_halfword h0 hv]
    exact hfit

end Edits

/-! ## Commands -/

/-- The shell while everything is in range. The store is one that updates with
status VALID can reach. -/
structure Good (sh : Shell) : Prop where
  /-- The buffer. -/
  buffer : InRange sh.tmpcfg
  /-- The store. -/
  flash : store.Reach whole sh.flash
  /-- The valid structures in flash. -/
  records : ∀ slot, sh.flash.page slot .status=pdbsConfigStatusValid → InRange (sh.flash.page slot)

/-- A command keeps everything in range. -/
def Keeps (cmd : Command) : Prop := ∀ args sh, Good sh → Good (cmd args sh).shell

section Store

variable {sh : Shell}

/-- The cache is filled. -/
theorem Good.read (h : Good sh) : Good {sh with flash := (pdbsConfigFlashRead sh.flash).2} where
  buffer := h.buffer
  flash := .step (l := .read) h.flash (fun _ _ hop => by cases hop) rfl
  records slot hv := by
    simp only [read_page] at hv ⊢
    exact h.records slot hv

/-- The current configuration goes to the buffer. -/
theorem Good.load (h : Good sh) {sh' : Shell} (hs : loadConfig sh=some sh') : Good sh' := by
  obtain ⟨slot,hslot,hsh⟩ := Option.map_eq_some_iff.mp hs
  obtain ⟨r,current,hst⟩ := exists_holds (h.flash.any)
  have hrecord := h.records slot (hst.read_status hslot)
  rw [← hsh]
  exact ⟨hrecord.copy fun f hf => if_pos hf,h.read.flash,h.read.records⟩

/-- The device is started anew. -/
theorem Good.restart (h : Good sh) : Good (startShell sh.flash.page) := by
  have hreboot : store.Reach whole (reboot sh.flash.page) :=
    .step (l := .powerCycle) h.flash (fun _ _ hop => by cases hop) rfl
  have hsetup : Good (setup sh.flash.page) := ⟨inRange_initial,hreboot,h.records⟩
  unfold startShell
  cases hload : loadConfig (setup sh.flash.page) with
  | none => exact hsetup
  | some sh' => exact hsetup.load hload

/-- The buffer is written. -/
theorem Good.write (h : Good sh) :
    Good {sh with flash := pdbsConfigFlashUpdate sh.tmpcfg sh.flash} where
  buffer := h.buffer
  flash := .step (l := .update ⟨sh.tmpcfg,h.buffer.status⟩) h.flash (fun _ _ hop => by cases hop) rfl
  records slot hv := by
    obtain ⟨r,current,hst⟩ := exists_holds (h.flash.any)
    have hcurrent := (hst.update h.buffer.status).current_of_valid hv
    rw [← Option.some_inj.mp hcurrent]
    exact h.buffer.copy fun f hf => if_pos hf

/-- The page is erased. -/
theorem Good.erase (h : Good sh) : Good {sh with flash := pdbsConfigFlashErase sh.flash} where
  buffer := h.buffer
  flash := .step (l := .erase) h.flash (fun _ _ hop => by cases hop) rfl
  records slot hv := by
    have hcurrent := (holds_erase sh.flash).current_of_valid hv
    cases hcurrent

/-- The buffer is edited. -/
theorem Good.edit (h : Good sh) {change : Entry → Entry} (hc : InRange sh.tmpcfg → InRange (change sh.tmpcfg)) :
    Good (edit change sh).shell := ⟨hc h.buffer,h.flash,h.records⟩

end Store

section Kinds

variable {usage invalid : String}

theorem keeps_noArguments {action : Shell → Reply} (ha : ∀ sh, Good sh → Good (action sh).shell) :
    Keeps (noArguments usage action) := by
  intro args sh h
  cases args with
  | nil => exact ha sh h
  | cons arg args => exact h

theorem keeps_editFlags {change : BitVec 16 → BitVec 16}
    (hc : ∀ e, InRange e → InRange (editFlags change e)) :
    Keeps (noArguments usage (edit (editFlags change))) :=
  keeps_noArguments fun sh h => h.edit (hc sh.tmpcfg)

theorem keeps_setNumber {least most : ℤ} {set : ℤ → Entry → Entry}
    (hc : ∀ i, least ≤ i → i ≤ most → ∀ e, InRange e → InRange (set i e)) :
    Keeps (setNumber usage invalid least most set) := by
  intro args sh h
  match args with
  | [] => exact h
  | [arg] =>
    unfold setNumber
    dsimp only
    split
    · next hi => exact h.edit (hc _ hi.1 hi.2.1 sh.tmpcfg)
    · exact h
  | _::_::_ => exact h

end Kinds

theorem keeps_getCfg : Keeps cmdGetCfg := by
  intro args sh h
  match args with
  | [] =>
    unfold cmdGetCfg
    dsimp only
    split
    · exact h.read
    · exact h.read
  | [arg] =>
    unfold cmdGetCfg
    dsimp only
    split
    · exact h
    · exact h
  | _::_::_ => exact h

theorem keeps_load : Keeps cmdLoad :=
  keeps_noArguments fun sh h => by
    cases hload : loadConfig sh with
    | none => exact h
    | some sh' => exact h.load hload

theorem keeps_setVrange : Keeps cmdSetVrange := by
  intro args sh h
  match args with
  | [] => exact h
  | [arg] => exact h
  | [arg,arg2] =>
    unfold cmdSetVrange
    dsimp only
    split
    · exact h
    · next hlimits =>
      split
      · exact h
      · next horder =>
        simp only [pdMvMin,pdMvMax] at hlimits
        have hmin := toNat_halfword (i := (strtol arg).value) (by omega) (by omega)
        have hmax := toNat_halfword (i := (strtol arg2).value) (by omega) (by omega)
        refine h.edit fun hr => ⟨hr.status,hr.v,?_,?_,hr.flags,hr.shared⟩
        · change (BitVec.ofInt 16 _).toNat ≤ (BitVec.ofInt 16 _).toNat
          rw [hmin,hmax]
          omega
        · change (BitVec.ofInt 16 _).toNat ≤ 21000
          rw [hmax]
          omega
  | _::_::_::_ => exact h

theorem keeps_output : Keeps cmdOutput := by
  intro args sh h
  match args with
  | [] => exact h
  | [arg] =>
    simp only [cmdOutput]
    split
    · exact ⟨h.buffer,h.flash,h.records⟩
    · split
      · exact ⟨h.buffer,h.flash,h.records⟩
      · exact h
  | _::_::_ => exact h

theorem keeps_setV : Keeps cmdSetV := by
  refine keeps_setNumber fun i hmin hmax e h => ?_
  simp only [pdMvMin,pdMvMax] at hmin hmax
  have hv : (BitVec.ofInt 16 i).toNat ≤ 21000 := by
    rw [toNat_halfword hmin (by omega)]
    omega
  exact ⟨h.status,hv,h.order,h.vmax,h.flags,h.shared⟩

/-- A current of at most 5 A, in centiamperes. -/
theorem keeps_setI : Keeps cmdSetI := by
  refine keeps_setNumber fun i hmin hmax e h => ?_
  simp only [pdMaMin,pdMaMax] at hmin hmax
  have hvalue : PdMessage.pdMa2Pdi i.toNat=(i.toNat+10-1)/10 := rfl
  have hfit : Shared pdbsConfigFlagsCurrentDefnI (PdMessage.pdMa2Pdi i.toNat : ℤ).toNat := .inl ⟨rfl,by omega⟩
  exact h.setCurrentDefn (by decide) (by decide) (by omega) (by omega) hfit

/-- A power of at most 100 W, in centiwatts. -/
theorem keeps_setP : Keeps cmdSetP := by
  refine keeps_setNumber fun i hmin hmax e h => ?_
  simp only [pdMwMin,pdMwMax] at hmin hmax
  have hvalue : pdMw2Cw i=i/10 := Int.tdiv_eq_ediv_of_nonneg hmin
  have hfit : Shared pdbsConfigFlagsCurrentDefnP (pdMw2Cw i).toNat := .inr (.inl ⟨rfl,by omega⟩)
  exact h.setCurrentDefn (by decide) (by decide) (by omega) (by omega) hfit

/-- A resistance from half an ohm to all a halfword holds, in centiohms. -/
theorem keeps_setR : Keeps cmdSetR := by
  refine keeps_setNumber fun i hmin hmax e h => ?_
  simp only [pdMoMin,pdMoMax] at hmin hmax
  have hvalue : pdMo2Co i=i/10 := Int.tdiv_eq_ediv_of_nonneg (by omega)
  have hfit : Shared pdbsConfigFlagsCurrentDefnR (pdMo2Co i).toNat :=
    .inr (.inr ⟨rfl,by omega,by omega⟩)
  exact h.setCurrentDefn (by decide) (by decide) (by omega) (by omega) hfit

/-- Every command of the table. -/
theorem keeps_commands (seen : Surroundings) : ∀ entry ∈ commands seen, Keeps entry.func := by
  simp only [commands,List.forall_mem_cons]
  refine ⟨keeps_noArguments fun _ h => h,keeps_noArguments fun _ h => h,
    keeps_noArguments fun _ h => h.restart,keeps_getCfg,keeps_load,keeps_noArguments fun _ h => h.write,
    keeps_noArguments fun _ h => h.erase,keeps_noArguments fun _ h => h,keeps_editFlags fun e h => ?_,
    keeps_editFlags fun e h => h.toggle (by decide) (by decide),
    keeps_editFlags fun e h => h.toggle (by decide) (by decide),keeps_setV,keeps_setVrange,keeps_setI,
    keeps_setP,keeps_setR,keeps_output,keeps_noArguments fun _ h => h,by simp⟩
  exact h.editFlags (and_and_zero h.flags) (and_and_right (by decide))

/-- A line. -/
theorem keeps_runWords (seen : Surroundings) : Keeps (runWords seen) := by
  intro words sh h
  cases words with
  | nil => exact h
  | cons name args =>
    simp only [runWords]
    split
    · exact h
    · split
      · exact keeps_noArguments (fun _ hsh => hsh) args sh h
      · cases hexec : cmdexec seen name with
        | none => exact h
        | some cmd =>
          obtain ⟨entry,hfind,hcmd⟩ := Option.map_eq_some_iff.mp hexec
          have hkeeps := keeps_commands seen entry (List.mem_of_find?_eq_some hfind)
          rw [← hcmd]
          exact hkeeps args sh h

/-! ## Runs -/

/-- What the shell goes through. -/
inductive Input where
  /-- A line, split into words. -/
  | line (seen : Surroundings) (words : List Word)
  | powerCycle

/-- The shell, from an erased page on. -/
def console : Machine Shell Input where
  start := startShell fun _ _ => erased
  step input sh := some (match input with
    | .line seen words => (runWords seen words sh).shell
    | .powerCycle => startShell sh.flash.page)

theorem good_start : Good console.start := by
  have hsetup : Good ⟨store.start,initialTmpcfg,false⟩ := by
    refine ⟨inRange_initial,.start,fun slot hv => ?_⟩
    have hcurrent := holds_start.current_of_valid hv
    cases hcurrent
  exact hsetup.restart

/-- Everything is in range in every state of the shell. -/
theorem console_good {sh : Shell} (h : console.Reach anyStep sh) : Good sh := by
  refine h.invariant good_start fun sh input sh' _ hsh _ hs => ?_
  rw [← Option.some_inj.mp hs]
  cases input with
  | line seen words => exact keeps_runWords seen words sh hsh
  | powerCycle => exact hsh.restart

/-- The store under the shell goes through updates with status VALID, erases,
reads and power cycles only. -/
theorem console_store {sh : Shell} (h : console.Reach anyStep sh) : store.Reach whole sh.flash :=
  (console_good h).flash

/-- The buffer and every valid structure in flash are in range. -/
theorem config_in_range {sh : Shell} (h : console.Reach anyStep sh) :
    InRange sh.tmpcfg ∧
    ∀ slot, sh.flash.page slot .status=pdbsConfigStatusValid → InRange (sh.flash.page slot) :=
  ⟨(console_good h).buffer,(console_good h).records⟩

/-- The largest power is set, on the first line of the shell. -/
theorem config_in_range_power :
    ∃ sh : Shell, sh.tmpcfg .i=10000 ∧ InRange sh.tmpcfg ∧
      ∀ slot, sh.flash.page slot .status=pdbsConfigStatusValid → InRange (sh.flash.page slot) := by
  let seen : Surroundings := ⟨"",none,.none⟩
  let words : List Word := ["set_p".toList,"100000".toList]
  have hreach : console.Reach anyStep (runWords seen words console.start).shell :=
    .step (l := .line seen words) .start trivial rfl
  exact ⟨_,by decide,config_in_range hreach⟩

end UsbPdFirmware.ConfigRanges
