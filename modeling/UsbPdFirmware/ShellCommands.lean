import UsbPdFirmware.ConfigStore
import UsbPdFirmware.ConsoleText

/-!
# The configuration shell

The commands of `shell.c` over a buffer for unwritten configuration and the
store in flash. Each command answers with a text and may signal other
threads. A line is taken here as the list of its words.
-/

namespace UsbPdFirmware.ShellCommands

open PdMessage DevicePolicy ConfigStore ConsoleText

/-! ## Reading numbers -/

/-- A word of a line. -/
abbrev Word : Type := List Char

/-- The number `strtol` returns and how many characters it used. -/
structure Strtol where
  /-- The number. -/
  value : ℤ
  /-- Characters before the end pointer. -/
  consumed : ℕ
  deriving DecidableEq

/-- White space of the C locale. -/
def isSpace (c : Char) : Bool := c.toNat==32 || decide (9 ≤ c.toNat) && decide (c.toNat ≤ 13)

/-- The value of a digit, at least 36 when the character is none. -/
def digitValue (c : Char) : ℕ :=
  if 48 ≤ c.toNat ∧ c.toNat ≤ 57 then c.toNat-48
  else if 97 ≤ c.toNat ∧ c.toNat ≤ 122 then c.toNat-97+10
  else if 65 ≤ c.toNat ∧ c.toNat ≤ 90 then c.toNat-65+10
  else 36

/-- A digit in a base. -/
def isDigit (base : ℕ) (c : Char) : Bool := decide (digitValue c < base)

/-- Take off the sign. -/
def splitSign : Word → Bool × Word
  | '-'::rest => (true,rest)
  | '+'::rest => (false,rest)
  | rest => (false,rest)

/-- Take off what announces the base: `0x` before a hexadecimal digit. A
leading zero means octal and counts as a digit. -/
def splitBase : Word → ℕ × Word
  | '0'::x::d::rest =>
    if (x= 'x' ∨ x= 'X') ∧ isDigit 16 d then (16,d::rest) else (8,'0'::x::d::rest)
  | '0'::rest => (8,'0'::rest)
  | rest => (10,rest)

/-- A `long` of 32 bits holds the nearest value. -/
def saturate (n : ℤ) : ℤ := max (-2^31) (min n (2^31-1))

/-- `strtol` with base 0. -/
def strtol (word : Word) : Strtol :=
  let (negative,unsigned) := splitSign (word.dropWhile isSpace)
  let (base,rest) := splitBase unsigned
  let digits := rest.takeWhile (isDigit base)
  let n : ℕ := digits.foldl (fun n c => n*base+digitValue c) 0
  if digits=[] then ⟨0,0⟩
  else ⟨saturate (if negative then -n else n),word.length-(rest.length-digits.length)⟩

example : strtol "-0x1Fz".toList=⟨-31,5⟩ := by decide

/-! ## State and replies -/

/-- What the shell owns. -/
structure Shell where
  /-- The configuration store. -/
  flash : Store
  /-- Buffer for unwritten configuration, `tmpcfg`. -/
  tmpcfg : Entry
  /-- `output_enabled` of the Device Policy Manager. -/
  outputEnabled : Bool

/-- What the shell shows and does not own. -/
structure Surroundings where
  /-- Copyright and license information. -/
  licenseText : String
  /-- Stored Source_Capabilities. -/
  capabilities : Option PdMsg
  /-- Type-C Current advertisement. -/
  typecCurrent : TypecCurrent

/-- Events for other threads, and the jump to the bootloader. -/
inductive Signal where
  /-- `PDB_EVT_PE_NEW_POWER`. -/
  | newPower
  /-- `PDBS_EVT_LED_IDENTIFY`. -/
  | identify
  | bootloader
  deriving DecidableEq

/-- What a command does. -/
structure Reply where
  /-- The text printed. -/
  text : String
  /-- Signals sent. -/
  signals : List Signal
  /-- The shell afterwards. -/
  shell : Shell

/-- A command is given its arguments. -/
abbrev Command : Type := List Word → Shell → Reply

/-- Print a text and do nothing else. -/
def say (text : String) (sh : Shell) : Reply := ⟨text,[],sh⟩

/-- Change the buffer without an answer. -/
def edit (change : Entry → Entry) (sh : Shell) : Reply := say "" {sh with tmpcfg := change sh.tmpcfg}

/-- The buffer the firmware begins with. -/
def initialTmpcfg : Entry := fun f => if f=.status then pdbsConfigStatusValid else 0

/-- Load the current configuration into the buffer, if there is one. -/
def loadConfig (sh : Shell) : Option Shell :=
  (pdbsConfigFlashRead sh.flash).1.map fun slot =>
    {sh with
      flash := (pdbsConfigFlashRead sh.flash).2
      tmpcfg := fun f => if f ∈ writeOrder then sh.flash.page slot f else sh.tmpcfg f}

/-- The shell before it runs, with what is in flash. -/
def setup (page : Page) : Shell := ⟨reboot page,initialTmpcfg,false⟩

/-- The shell starts by loading the configuration, quietly. -/
def startShell (page : Page) : Shell := (loadConfig (setup page)).getD (setup page)

/-! ## Kinds of commands -/

/-- A command without arguments. -/
def noArguments (usage : String) (action : Shell → Reply) : Command
  | [],sh => action sh
  | _::_,sh => say usage sh

/-- A command that stores one number within limits. -/
def setNumber (usage invalid : String) (least most : ℤ) (store : ℤ → Entry → Entry) : Command
  | [arg],sh =>
    let i := strtol arg
    if least ≤ i.value ∧ i.value ≤ most ∧ 0 < i.consumed then edit (store i.value) sh
    else say invalid sh
  | _,sh => say usage sh

/-- Change the flags of the buffer. -/
def editFlags (change : BitVec 16 → BitVec 16) (e : Entry) : Entry :=
  Function.update e .flags (change (e .flags))

/-- Store the shared value together with its current definition. -/
def setCurrentDefn (defn : BitVec 16) (value : ℤ) (e : Entry) : Entry :=
  editFlags (fun flags => flags &&& ~~~pdbsConfigFlagsCurrentDefn ||| defn)
    (Function.update e .i (BitVec.ofInt 16 value))

/-! ## Units -/

def pdMvMin : ℤ := 0
def pdMvMax : ℤ := 21000
def pdMaMin : ℤ := 0
def pdMaMax : ℤ := 5000
def pdMwMin : ℤ := 0
def pdMwMax : ℤ := 100000
def pdMoMin : ℤ := 500
def pdMoMax : ℤ := 655350

/-- Milliwatts in centiwatts. -/
def pdMw2Cw (mw : ℤ) : ℤ := mw.tdiv 10
/-- Milliohms in centiohms. -/
def pdMo2Co (mo : ℤ) : ℤ := mo.tdiv 10

/-! ## The commands -/

def cmdLicense (licenseText : String) : Command :=
  noArguments "Usage: license\r\n" (say licenseText)

def cmdIdentify : Command := noArguments "Usage: identify\r\n" fun sh => ⟨"",[.identify],sh⟩

/-- `dfu_run_bootloader` does not return: the reset loses what is not in flash,
and the shell is the one that is started afterwards. -/
def cmdBoot : Command :=
  noArguments "Usage: boot\r\n" fun sh => ⟨"",[.bootloader],startShell sh.flash.page⟩

def cmdGetCfg : Command
  | [],sh =>
    let sh' := {sh with flash := (pdbsConfigFlashRead sh.flash).2}
    match (pdbsConfigFlashRead sh.flash).1 with
    | some slot => say (pdbsConfigPrint (config (sh.flash.page slot))) sh'
    | none => say "No configuration\r\n" sh'
  | [arg],sh =>
    let i := strtol arg
    if h : (0 ≤ i.value ∧ i.value < pdbsConfigArrayLen) ∧ 0 < i.consumed then
      say (pdbsConfigPrint (config (sh.flash.page ⟨i.value.toNat,by omega⟩))) sh
    else say "Invalid index\r\n" sh
  | _,sh => say "Usage: get_cfg [index]\r\n" sh

def cmdLoad : Command :=
  noArguments "Usage: load\r\n" fun sh =>
    match loadConfig sh with
    | some sh' => say "" sh'
    | none => say "No configuration\r\n" sh

def cmdWrite : Command :=
  noArguments "Usage: write\r\n" fun sh =>
    ⟨"",[.newPower],{sh with flash := pdbsConfigFlashUpdate sh.tmpcfg sh.flash}⟩

def cmdErase : Command :=
  noArguments "Usage: erase\r\n" fun sh => say "" {sh with flash := pdbsConfigFlashErase sh.flash}

def cmdGetTmpcfg : Command :=
  noArguments "Usage: get_tmpcfg\r\n" fun sh => say (pdbsConfigPrint (config sh.tmpcfg)) sh

def cmdClearFlags : Command :=
  noArguments "Usage: clear_flags\r\n" (edit (editFlags (· &&&
    ~~~(pdbsConfigFlagsGiveback ||| pdbsConfigFlagsVarBat ||| pdbsConfigFlagsHvPreferred))))

def cmdToggleGiveback : Command :=
  noArguments "Usage: toggle_giveback\r\n" (edit (editFlags (· ^^^ pdbsConfigFlagsGiveback)))

def cmdToggleHvPreferred : Command :=
  noArguments "Usage: toggle_hv_preferred\r\n" (edit (editFlags (· ^^^ pdbsConfigFlagsHvPreferred)))

def cmdSetV : Command :=
  setNumber "Usage: set_v voltage_in_mV\r\n" "Invalid voltage\r\n" pdMvMin pdMvMax
    fun i e => Function.update e .v (BitVec.ofInt 16 i)

def cmdSetVrange : Command
  | [arg,arg2],sh =>
    let min := strtol arg
    let max := strtol arg2
    if min.value < pdMvMin ∨ pdMvMax < min.value ∨ min.consumed=0 ∨
        max.value < pdMvMin ∨ pdMvMax < max.value ∨ max.consumed=0 then
      say "Invalid voltage\r\n" sh
    else if max.value < min.value then say "Invalid range\r\n" sh
    else edit (fun e => Function.update (Function.update e .vmin (BitVec.ofInt 16 min.value)) .vmax
      (BitVec.ofInt 16 max.value)) sh
  | _,sh => say "Usage: set_vrange min_voltage_in_mV max_voltage_in_mV\r\n" sh

/-- The current has been checked not to be negative. -/
def cmdSetI : Command :=
  setNumber "Usage: set_i current_in_mA\r\n" "Invalid current\r\n" pdMaMin pdMaMax
    fun i => setCurrentDefn pdbsConfigFlagsCurrentDefnI (pdMa2Pdi i.toNat)

def cmdSetP : Command :=
  setNumber "Usage: set_p power_in_mW\r\n" "Invalid power\r\n" pdMwMin pdMwMax
    fun i => setCurrentDefn pdbsConfigFlagsCurrentDefnP (pdMw2Cw i)

def cmdSetR : Command :=
  setNumber "Usage: set_r power_in_mΩ\r\n" "Invalid resistance\r\n" pdMoMin pdMoMax
    fun i => setCurrentDefn pdbsConfigFlagsCurrentDefnR (pdMo2Co i)

def cmdOutput : Command
  | [],sh => say (if sh.outputEnabled then "enabled\r\n" else "disabled\r\n") sh
  | [arg],sh =>
    if arg="enable".toList then ⟨"",[.newPower],{sh with outputEnabled := true}⟩
    else if arg="disable".toList then ⟨"",[.newPower],{sh with outputEnabled := false}⟩
    else say "Usage: output [enable|disable]\r\n" sh
  | _,sh => say "Usage: output [enable|disable]\r\n" sh

def cmdGetSourceCap (seen : Surroundings) : Command :=
  noArguments "Usage: get_source_cap\r\n" (say (match seen.capabilities with
    | some caps => printCapabilities caps
    | none => printTypecCurrent seen.typecCurrent))

/-! ## The table and the loop -/

/-- An entry of the table of commands. -/
structure PdbsShellCmd where
  /-- Name. -/
  cmd : String
  /-- Function. -/
  func : Command
  /-- Description, printed by `help`. -/
  desc : String

/-- The table of commands. -/
def commands (seen : Surroundings) : List PdbsShellCmd :=
  [⟨"license",cmdLicense seen.licenseText,"Show copyright and license information"⟩,
    ⟨"identify",cmdIdentify,"Blink the LED to identify the device"⟩,
    ⟨"boot",cmdBoot,"Run the DfuSe bootloader"⟩,
    ⟨"get_cfg",cmdGetCfg,"Print the stored configuration"⟩,
    ⟨"load",cmdLoad,"Load the stored configuration into the buffer"⟩,
    ⟨"write",cmdWrite,"Store the configuration buffer"⟩,
    ⟨"erase",cmdErase,"Erase all stored configuration"⟩,
    ⟨"get_tmpcfg",cmdGetTmpcfg,"Print the configuration buffer"⟩,
    ⟨"clear_flags",cmdClearFlags,"Clear all flags"⟩,
    ⟨"toggle_giveback",cmdToggleGiveback,"Toggle the GiveBack flag"⟩,
    ⟨"toggle_hv_preferred",cmdToggleHvPreferred,"Toggle the HV_Preferred flag"⟩,
    ⟨"set_v",cmdSetV,"Set the voltage in millivolts"⟩,
    ⟨"set_vrange",cmdSetVrange,"Set the minimum and maximum voltage in millivolts"⟩,
    ⟨"set_i",cmdSetI,"Set the current in milliamps"⟩,
    ⟨"set_p",cmdSetP,"Set the power in milliwatts"⟩,
    ⟨"set_r",cmdSetR,"Set the resistance in milliohms"⟩,
    ⟨"output",cmdOutput,"Get or set the output status"⟩,
    ⟨"get_source_cap",cmdGetSourceCap seen,"Print the capabilities of the PD source"⟩]

/-- `list_commands`. -/
def listCommands (scp : List PdbsShellCmd) : String :=
  String.join (scp.map fun entry => "\t"++entry.cmd++": "++entry.desc++"\r\n")

/-- The help text, the only answer the loop knows by itself. -/
def help (seen : Surroundings) : Command :=
  noArguments "Usage: help\r\n" (say ("PD Buddy Sink configuration shell\r\n"++"Commands:\r\n"++
    "\thelp: Print this message\r\n"++listCommands (commands seen)))

/-- `cmdexec`: the first command of that name, if there is one. -/
def cmdexec (seen : Surroundings) (name : Word) : Option Command :=
  ((commands seen).find? fun entry => entry.cmd.toList==name).map PdbsShellCmd.func

/-- Most arguments a line can have. -/
def pdbsShellMaxArguments : ℕ := 2

/-- One round of the loop of `pdbs_shell` after its line was split. -/
def runWords (seen : Surroundings) : Command
  | [],sh => say "" sh
  | name::args,sh =>
    if pdbsShellMaxArguments < args.length then say "too many arguments\r\n" sh
    else if name="help".toList then help seen args sh
    else match cmdexec seen name with
      | some cmd => cmd args sh
      | none => say (String.ofList name++" ?\r\n") sh

end UsbPdFirmware.ShellCommands
