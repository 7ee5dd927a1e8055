import UsbPdFirmware.DevicePolicy

/-!
# What the console prints

Configuration structures and source objects as `config.c` and `shell.c` print
them. Formatting follows `chprintf`: decimals and hexadecimals, padded with
zeros to a width.
-/

namespace UsbPdFirmware.ConsoleText

open PdMessage DevicePolicy

/-! ## Numbers -/

/-- Digits padded with zeros. -/
def pad (width : ℕ) (digits : List Char) : String :=
  String.ofList (List.replicate (width-digits.length) '0'++digits)

/-- `%d` and, with a width, `%0wd`. -/
def decimal (width n : ℕ) : String := pad width (Nat.toDigits 10 n)

/-- `%0wX`. -/
def hexadecimal (width n : ℕ) : String := pad width ((Nat.toDigits 16 n).map Char.toUpper)

/-- A quantity in units and their fractions, with as many decimal places. -/
def quantity (label : String) (units places fraction : ℕ) (symbol : String) : String :=
  label++": "++decimal 0 units++"."++decimal places fraction++" "++symbol++"\r\n"

/-! ## Configuration structures -/

/-- Line for a voltage in millivolts. -/
def printVoltage (label : String) (mv : ℕ) : String := quantity label (mv/1000) 3 (mv%1000) "V"

/-- Line for a value in hundredths of a unit. -/
def printCenti (label : String) (value : ℕ) (symbol : String) : String :=
  quantity label (value/100) 2 (value%100) symbol

/-- The name of a flag, when it is set. -/
def printFlag (flags mask : BitVec 16) (name : String) : String :=
  if flags &&& mask≠0 then name else ""

/-- The setting the current is derived from. -/
def printCurrentDefn (cfg : PdbsConfig) : String :=
  let defn := cfg.flags &&& pdbsConfigFlagsCurrentDefn
  if defn=pdbsConfigFlagsCurrentDefnI then printCenti "i" cfg.i "A"
  else if defn=pdbsConfigFlagsCurrentDefnP then printCenti "p" cfg.i "W"
  else if defn=pdbsConfigFlagsCurrentDefnR then printCenti "r" cfg.i "Ω"
  else ""

/-- Everything but the status. -/
def printSettings (cfg : PdbsConfig) : String :=
  "flags:"++
  (if cfg.flags &&& ~~~pdbsConfigFlagsCurrentDefn=0 then " (none)" else "")++
  printFlag cfg.flags pdbsConfigFlagsGiveback " GiveBack"++
  printFlag cfg.flags pdbsConfigFlagsVarBat " Var/Bat"++
  printFlag cfg.flags pdbsConfigFlagsHvPreferred " HV_Preferred"++
  "\r\n"++
  printVoltage "v" cfg.v++
  (if cfg.vmin≠0 ∨ cfg.vmax≠0 then printVoltage "vmin" cfg.vmin++printVoltage "vmax" cfg.vmax
    else "")++
  printCurrentDefn cfg

/-- `pdbs_config_print`. The settings of an empty structure mean nothing. -/
def pdbsConfigPrint (cfg : PdbsConfig) : String :=
  "status: "++
  if cfg.status=pdbsConfigStatusInvalid then "in"++"valid\r\n"++printSettings cfg
  else if cfg.status=pdbsConfigStatusValid then "valid\r\n"++printSettings cfg
  else if cfg.status=pdbsConfigStatusEmpty then "empty\r\n"
  else hexadecimal 4 cfg.status.toNat++"\r\n"++printSettings cfg

/-! ## Source objects -/

/-- A field of a fixed source object that is printed when it is not zero. -/
def printField (pdo : BitVec 32) (shift : ℕ) (mask : BitVec 32) (name : String) : String :=
  let tmp := fieldGet shift mask pdo
  if tmp≠0 then "\t"++name++": "++decimal 0 tmp++"\r\n" else ""

/-- `print_src_fixed_pdo`. -/
def printSrcFixedPdo (pdo : BitVec 32) : String :=
  let v := pdPdoSrcFixedVoltageGet pdo
  let i := pdPdoSrcFixedCurrentGet pdo
  "fixed\r\n"++
  printField pdo 29 0x20000000 "dual_role_pwr"++
  printField pdo 28 0x10000000 "usb_suspend"++
  printField pdo 27 0x08000000 "unconstrained_pwr"++
  printField pdo 26 0x04000000 "usb_comms"++
  printField pdo 25 0x02000000 "dual_role_data"++
  printField pdo 24 0x01000000 "unchunked_ext_msg"++
  printField pdo 20 0x00300000 "peak_i"++
  quantity "\tv" (v/20) 2 (5*(v%20)) "V"++
  quantity "\ti" (i/100) 2 (i%100) "A"

/-- `print_src_pps_apdo`. -/
def printSrcPpsApdo (pdo : BitVec 32) : String :=
  let vmin := pdApdoPpsMinVoltageGet pdo
  let vmax := pdApdoPpsMaxVoltageGet pdo
  let i := pdApdoPpsCurrentGet pdo
  "pps\r\n"++
  quantity "\tvmin" (vmin/10) 2 (10*(vmin%10)) "V"++
  quantity "\tvmax" (vmax/10) 2 (10*(vmax%10)) "V"++
  quantity "\ti" (i/20) 2 (5*(i%20)) "A"

/-- `print_src_pdo`. -/
def printSrcPdo (pdo : BitVec 32) (index : ℕ) : String :=
  (if index≠0 then "PDO "++decimal 0 index++": " else "")++
  if isFixed pdo then printSrcFixedPdo pdo
  else if isPps pdo then printSrcPpsApdo pdo
  else hexadecimal 8 pdo.toNat++"\r\n"

/-- The objects of a message, from number 1 on. -/
def printCapabilities (caps : PdMsg) : String :=
  String.join ((List.range caps.numobjGet).map fun i => printSrcPdo (caps.object i) (i+1))

/-- The Type-C Current advertisement as the only object. -/
def printTypecCurrent : TypecCurrent → String
  | .none => "No Source_Capabilities\r\n"
  | .default => "PDO 1: typec_virtual\r\n\ti: 0.50 A\r\n"
  | .a15 => "PDO 1: typec_virtual\r\n\ti: 1.50 A\r\n"
  | .a30 => "PDO 1: typec_virtual\r\n\ti: 3.00 A\r\n"

end UsbPdFirmware.ConsoleText
