import UsbPdFirmware.PdMessage

/-!
# The Device Policy Manager of the sink

The callbacks of `device_policy_manager.c`: what to request for a list of
source objects, the sink's own capabilities, the Type-C fallback and the
power output. A stored configuration may be absent. LED signals are left
out; nothing modelled reads them.
-/

namespace UsbPdFirmware.DevicePolicy

open PdMessage

/-! ## Stored configuration -/

/-- No longer needed. -/
def pdbsConfigStatusInvalid : BitVec 16 := 0x0000
/-- The present configuration. -/
def pdbsConfigStatusValid : BitVec 16 := 0xBEEF
/-- Ready to be written. -/
def pdbsConfigStatusEmpty : BitVec 16 := 0xFFFF

/-- GiveBack supported. -/
def pdbsConfigFlagsGiveback : BitVec 16 := 0x01
/-- Variable and battery objects preferred; not implemented. -/
def pdbsConfigFlagsVarBat : BitVec 16 := 0x02
/-- High voltages preferred. -/
def pdbsConfigFlagsHvPreferred : BitVec 16 := 0x04
/-- Bits of the current definition. -/
def pdbsConfigFlagsCurrentDefn : BitVec 16 := 0x18
def pdbsConfigFlagsCurrentDefnI : BitVec 16 := 0x00
def pdbsConfigFlagsCurrentDefnP : BitVec 16 := 0x08
def pdbsConfigFlagsCurrentDefnR : BitVec 16 := 0x10

/-- A configuration structure. Current, power and resistance share one
halfword, told apart by the flags. -/
structure PdbsConfig where
  /-- Status halfword. -/
  status : BitVec 16
  /-- Flags halfword. -/
  flags : BitVec 16
  /-- Preferred voltage, in millivolts. -/
  v : ℕ
  /-- Current in centiamperes, power in centiwatts or resistance in centiohms. -/
  i : ℕ
  /-- Lower end of the voltage range, in millivolts. -/
  vmin : ℕ
  /-- Upper end of the voltage range, in millivolts. -/
  vmax : ℕ

namespace PdbsConfig

/-- GiveBack is set in the flags. -/
def giveback (scfg : PdbsConfig) : Bool := scfg.flags &&& pdbsConfigFlagsGiveback != 0

/-- High voltages are preferred. -/
def hvPreferred (scfg : PdbsConfig) : Bool := scfg.flags &&& pdbsConfigFlagsHvPreferred != 0

end PdbsConfig

/-- Current draw when the output is disabled. -/
def dpmMinCurrent : ℕ := pdMa2Pdi 30

/-- The current a configuration asks for at a voltage in millivolts, in
centiamperes, narrowed to a halfword. -/
def dpmGetCurrent (scfg : PdbsConfig) (mv : ℕ) : ℕ :=
  let defn := scfg.flags &&& pdbsConfigFlagsCurrentDefn
  if defn==pdbsConfigFlagsCurrentDefnI then scfg.i
  else if defn==pdbsConfigFlagsCurrentDefnP then ((scfg.i*1000+mv-1)/mv)%2^16
  else if defn==pdbsConfigFlagsCurrentDefnR then ((mv*10+scfg.i-1)/scfg.i)%2^16
  else pdCaMax+1

/-! ## Choosing a source object -/

/-- The object is a fixed supply. -/
def isFixed (pdo : BitVec 32) : Bool := pdo &&& pdPdoType==pdPdoTypeFixed

/-- The object is a programmable supply. -/
def isPps (pdo : BitVec 32) : Bool :=
  pdo &&& pdPdoType==pdPdoTypeAugmented && pdo &&& pdApdoType==pdApdoTypePps

/-- The test of the range search: a fixed object in the configured voltage
range with the current the configuration needs at its voltage. -/
def inRange (scfg : PdbsConfig) (pdo : BitVec 32) : Bool :=
  let v := pdPdoSrcFixedVoltageGet pdo
  isFixed pdo && decide (dpmGetCurrent scfg (pdPdv2Mv v) ≤ pdPdoSrcFixedCurrentGet pdo)
    && decide (pdMv2Pdv scfg.vmin ≤ v) && decide (v ≤ pdMv2Pdv scfg.vmax)

/-- The search loop: from index `i` by `step` while the index is inside the
list. The budget of rounds is one more than the list is long. -/
def rangeLoop (scfg : PdbsConfig) (caps : PdMsg) (step : ℤ) : ℕ → ℤ → ℤ
  | 0,_ => -1
  | rounds+1,i =>
    if 0 ≤ i ∧ i < caps.numobjGet then
      if inRange scfg (caps.object i.toNat) then i else rangeLoop scfg caps step rounds (i+step)
    else -1

/-- Index of the first object in the voltage range, in the preferred order;
minus one when there is none. -/
def dpmGetRangeFixedPdoIndex (caps : PdMsg) (scfg : PdbsConfig) : ℤ :=
  if scfg.hvPreferred then rangeLoop scfg caps (-1) (caps.numobjGet+1) (caps.numobjGet-1)
  else rangeLoop scfg caps 1 (caps.numobjGet+1) 0

/-! ## State of the Device Policy Manager -/

/-- The manager's data and the output line it drives. -/
structure Dpm where
  /-- The most recently received Source_Capabilities. -/
  capabilities : Option MsgPtr
  /-- Whether the manager may turn on the output; the user changes it. -/
  outputEnabled : Bool
  /-- Whether the device is capable of USB communications. -/
  usbComms : Bool
  /-- Whether the power supply is unconstrained. -/
  unconstrainedPower : Bool
  /-- Whether the capabilities matched. -/
  capabilityMatch : Bool
  /-- The last negotiated voltage, in millivolts. -/
  presentVoltage : ℕ
  /-- The requested voltage, in millivolts. -/
  requestedVoltage : ℕ
  /-- The line `OUT_CTRL` that switches the power output. -/
  outCtrl : Bool

/-- Profile voltages selected by the button. -/
def pdProfiles : List ℕ := [5000,9000,15000,20000]

/-- A Request, and what its exit records and returns. -/
structure Evaluation where
  /-- The Request that was built. -/
  request : PdMsg
  /-- The voltage recorded for it. -/
  requestedVoltage : ℕ
  /-- The match recorded for it. -/
  capabilityMatch : Bool
  /-- The returned value. -/
  returned : Bool

section Evaluate

variable (hdrTemplate : BitVec 16) (usbComms : Bool) (request : PdMsg)

/-- Header and first object of a Request. -/
def buildRequest (rdo : BitVec 32) : PdMsg :=
  request.rewrite (hdrTemplate ||| pdMsgtypeRequest ||| pdNumobj 1)
    (if usbComms then rdo ||| pdRdoUsbComms else rdo)

/-- Request object for a fixed supply, with or without GiveBack. -/
def fixedRdo (scfg : PdbsConfig) (current objpos : ℕ) : BitVec 32 :=
  if scfg.giveback then
    pdRdoFvMinCurrentSet dpmMinCurrent ||| pdRdoFvCurrentSet current |||
      pdRdoNoUsbSuspend ||| pdRdoGiveback ||| pdRdoObjposSet objpos
  else
    pdRdoFvMaxCurrentSet current ||| pdRdoFvCurrentSet current |||
      pdRdoNoUsbSuspend ||| pdRdoObjposSet objpos

/-- The first test of the search: a fixed supply at the profile voltage. -/
def matchesProfile (voltage current : ℕ) (pdo : BitVec 32) : Bool :=
  isFixed pdo && pdPdoSrcFixedVoltageGet pdo==pdMv2Pdv voltage
    && decide (current ≤ pdPdoSrcFixedCurrentGet pdo)

/-- The second test of the search: a programmable supply around the
configured voltage. -/
def matchesPps (scfg : PdbsConfig) (current : ℕ) (pdo : BitVec 32) : Bool :=
  isPps pdo && decide (pdMv2Pav scfg.v ≤ pdApdoPpsMaxVoltageGet pdo)
    && decide (pdApdoPpsMinVoltageGet pdo ≤ pdMv2Pav scfg.v)
    && decide (pdCa2Pai current ≤ pdApdoPpsCurrentGet pdo)

/-- Nothing matched, or there is no configuration: 5 V at low current. -/
def fallbackRequest (outputEnabled : Bool) : Evaluation where
  request :=
    let rdo := pdRdoFvMaxCurrentSet dpmMinCurrent ||| pdRdoFvCurrentSet dpmMinCurrent |||
      pdRdoNoUsbSuspend ||| pdRdoObjposSet 1
    buildRequest hdrTemplate usbComms request (if outputEnabled then rdo ||| pdRdoCapMismatch else rdo)
  requestedVoltage := 5000
  capabilityMatch := !outputEnabled
  returned := !outputEnabled

/-- The search with a configuration present and the output enabled: an
object at the profile voltage or a programmable one, in list order, else an
object in the voltage range. -/
def matchingRequest (scfg : PdbsConfig) (voltage : ℕ) (caps : PdMsg) : Option Evaluation :=
  let current := 0
  match (List.range caps.numobjGet).find? fun i =>
      matchesProfile voltage current (caps.object i) || matchesPps scfg current (caps.object i) with
  | some i =>
    if matchesProfile voltage current (caps.object i) then
      some ⟨buildRequest hdrTemplate usbComms request (fixedRdo scfg current (i+1)),
        pdPdv2Mv (pdMv2Pdv scfg.v),true,true⟩
    else
      some ⟨buildRequest hdrTemplate usbComms request
          (pdRdoProgCurrentSet (pdCa2Pai current) ||| pdRdoProgVoltageSet (pdMv2Prv scfg.v) |||
            pdRdoNoUsbSuspend ||| pdRdoObjposSet (i+1)),
        pdPrv2Mv (pdMv2Prv scfg.v),true,true⟩
  | none =>
    let i := dpmGetRangeFixedPdoIndex caps scfg
    if 0 ≤ i then
      let v := pdPdoSrcFixedVoltageGet (caps.object i.toNat)
      some ⟨buildRequest hdrTemplate usbComms request
          (fixedRdo scfg (dpmGetCurrent scfg (pdPdv2Mv v)) (i.toNat+1)),pdPdv2Mv v,true,true⟩
    else none

end Evaluate

/-- Evaluate the capabilities held by the manager. `profile` is the state
selected by the button, already inside the list of profiles. -/
def evaluateStored (hdrTemplate : BitVec 16) (scfg : Option PdbsConfig) (profile : ℕ)
    (dpm : Dpm) (caps request : PdMsg) : Evaluation :=
  let fallback := fallbackRequest hdrTemplate dpm.usbComms request dpm.outputEnabled
  match scfg with
  | some scfg =>
    if dpm.outputEnabled then
      let voltage := pdProfiles.getD profile 5000
      (matchingRequest hdrTemplate dpm.usbComms request scfg voltage caps).getD fallback
    else fallback
  | none => fallback

/-- Record an evaluation in the manager's data. -/
def Dpm.record (dpm : Dpm) (caps : PdMsg) (e : Evaluation) : Dpm :=
  {dpm with
    unconstrainedPower := caps.object 0 &&& pdPdoSrcFixedUnconstrained != 0
    requestedVoltage := e.requestedVoltage
    capabilityMatch := e.capabilityMatch}

/-! ## Sink capabilities -/

/-- A fixed sink object. -/
def sinkFixed (voltage current : ℕ) : BitVec 32 :=
  pdPdoTypeFixed ||| pdPdoSnkFixedVoltageSet voltage ||| pdPdoSnkFixedCurrentSet current

/-- Sort the last two of three objects by voltage, exchanging them in place. -/
def sortLastTwo : List (BitVec 32) → List (BitVec 32)
  | [first,a,b] =>
    if b &&& pdPdoSnkFixedVoltage < a &&& pdPdoSnkFixedVoltage then
      let a₁ := a ^^^ b
      let b₁ := b ^^^ a₁
      [first,a₁ ^^^ b₁,b₁]
    else [first,a,b]
  | objs => objs

/-- The objects contributed by a configuration, appended to what is there.
`current` is the current it asks for, `i` the index the range search found.
`caps` are the stored Source_Capabilities and `rev` the revision bits of the
message the Policy Engine points to. -/
def appendObjects (scfg : PdbsConfig) (caps : PdMsg) (rev : BitVec 16)
    (objs : List (BitVec 32)) (current : ℕ) (i : ℤ) : List (BitVec 32) :=
  let objs := objs++[sinkFixed (pdMv2Pdv scfg.v) current]
  let range := caps.object i.toNat
  let objs :=
    if i=0 then
      objs.modifyHead fun o => (o &&& ~~~pdPdoSnkFixedCurrent) ||| pdPdoSnkFixedCurrentSet current
    else
      let objs := if pdMv2Pdv scfg.v≠pdMv2Pdv 5000 then
        objs.modifyHead (· ||| pdPdoSnkFixedHigherCap) else objs
      let objs := if 0 < i ∧ pdPdoSrcFixedVoltageGet range≠pdMv2Pdv scfg.v then
        objs++[sinkFixed (pdPdoSrcFixedVoltageGet range) (pdPdoSrcFixedCurrentGet range)] else objs
      sortLastTwo objs
  if pdSpecrev30 ≤ rev then
    objs++[pdPdoTypeAugmented ||| pdApdoTypePps ||| pdApdoPpsMaxVoltageSet (pdMv2Pav scfg.v) |||
      pdApdoPpsMinVoltageSet (pdMv2Pav scfg.v) ||| pdApdoPpsCurrentSet (pdCa2Pai current)]
  else objs

/-- They take the current at the configured voltage, and one search. -/
def configuredObjects (scfg : PdbsConfig) (caps : PdMsg) (rev : BitVec 16)
    (objs : List (BitVec 32)) : List (BitVec 32) :=
  appendObjects scfg caps rev objs (dpmGetCurrent scfg scfg.v) (dpmGetRangeFixedPdoIndex caps scfg)

/-- Build a Sink_Capabilities message in the block `cap`. -/
def pdbsDpmGetSinkCapability (hdrTemplate : BitVec 16) (scfg : Option PdbsConfig) (dpm : Dpm)
    (caps : PdMsg) (rev : BitVec 16) (cap : PdMsg) : PdMsg :=
  let vsafe5v := sinkFixed (pdMv2Pdv 5000) dpmMinCurrent
  let objs := match scfg with
    | none => [vsafe5v]
    | some scfg => configuredObjects scfg caps rev
        (if pdMv2Pdv scfg.v≠pdMv2Pdv 5000 then [vsafe5v] else [])
  let objs := if dpm.unconstrainedPower then objs.modifyHead (· ||| pdPdoSnkFixedUnconstrained) else objs
  let objs := if dpm.usbComms then objs.modifyHead (· ||| pdPdoSnkFixedUsbComms) else objs
  {hdr := hdrTemplate ||| pdMsgtypeSinkCapabilities ||| pdNumobj objs.length
   obj := fun k => objs.getD k (cap.obj k)}

/-! ## Type-C Current and the power output -/

/-- Type-C Current advertisement; the two upper levels double as the levels
that forbid and permit a sink to transmit. -/
inductive TypecCurrent where
  | none
  | default
  | a15
  | a30
  deriving DecidableEq

/-- The level that permits a sink to start a transmission. -/
def fusbSinkTxOk : TypecCurrent := .a30

/-- Whether the present Type-C Current fulfils the configured needs; the bus
is taken to be at 5 V. -/
def pdbsDpmEvaluateTypecCurrent (scfg : Option PdbsConfig) (tcc : TypecCurrent) (dpm : Dpm) :
    Dpm × Bool :=
  let sufficient := match scfg with
    | none => false
    | some scfg =>
      if scfg.v≠5000 ∧ (5000 < scfg.vmin ∨ scfg.vmax < 5000) then false
      else
        let current := dpmGetCurrent scfg 5000
        tcc==.a15 && decide (current ≤ 150) || tcc==.a30 && decide (current ≤ 300)
  ({dpm with requestedVoltage := 5000,capabilityMatch := sufficient},sufficient)

/-- Set the output state; it goes on only when the user allows it. -/
def dpmOutputSet (state : Bool) (dpm : Dpm) : Dpm :=
  {dpm with presentVoltage := dpm.requestedVoltage,outCtrl := state && dpm.outputEnabled}

/-- Transition to default power. -/
def pdbsDpmTransitionDefault (dpm : Dpm) : Dpm :=
  dpmOutputSet false {dpm with requestedVoltage := 5000}

/-- Transition to the requested minimum current. -/
def pdbsDpmTransitionMin (dpm : Dpm) : Dpm := dpmOutputSet false dpm

/-- Enter standby when the voltage is changing. -/
def pdbsDpmTransitionStandby (dpm : Dpm) : Dpm :=
  if dpm.requestedVoltage≠dpm.presentVoltage then {dpm with outCtrl := false} else dpm

/-- Transition to the requested power level. -/
def pdbsDpmTransitionRequested (dpm : Dpm) : Dpm := dpmOutputSet dpm.capabilityMatch dpm

/-- Transition to the Type-C Current power level. -/
def pdbsDpmTransitionTypec (dpm : Dpm) : Dpm := dpmOutputSet dpm.capabilityMatch dpm

/-- Standby never switches the output on. -/
theorem pdbsDpmTransitionStandby_outCtrl {dpm : Dpm}
    (h : (pdbsDpmTransitionStandby dpm).outCtrl=true) : dpm.outCtrl=true := by
  unfold pdbsDpmTransitionStandby at h
  split at h
  · exact absurd h Bool.false_ne_true
  · exact h

/-- It leaves the stored capabilities and the match. -/
theorem pdbsDpmTransitionStandby_capabilities (dpm : Dpm) :
    (pdbsDpmTransitionStandby dpm).capabilities=dpm.capabilities := by
  unfold pdbsDpmTransitionStandby
  split <;> rfl

theorem pdbsDpmTransitionStandby_capabilityMatch (dpm : Dpm) :
    (pdbsDpmTransitionStandby dpm).capabilityMatch=dpm.capabilityMatch := by
  unfold pdbsDpmTransitionStandby
  split <;> rfl

end UsbPdFirmware.DevicePolicy
