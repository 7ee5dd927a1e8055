import UsbPdFirmware.CurrentDivisor

/-!
# Calls that ask for a current

The callbacks once more, with `dpm_get_current` as a parameter that may do
more than answer. With a log of the voltages it is asked for, they give the
results of the callbacks, and log the lists of their calls.
-/

namespace UsbPdFirmware.CurrentCalls

open PdMessage DevicePolicy FirmwareState IndexSearch
open RequestedObject CapabilitySelection CurrentDivisor

/-! ## Computations with a log -/

section Logs

variable {α β γ : Type}

/-- A computation gives this result, and adds these entries to its log. -/
def Logs (x : StateM (List γ) α) (a : α) (entries : List γ) : Prop :=
  ∀ log, x.run log=(a,log++entries)

theorem Logs.pure (a : α) : Logs (γ := γ) (Pure.pure a) a [] := by
  intro log
  rw [List.append_nil]
  rfl

/-- The entries of two computations follow each other. -/
theorem Logs.bind {x : StateM (List γ) α} {f : α → StateM (List γ) β} {a : α} {b : β}
    {entries entries' : List γ} (hx : Logs x a entries) (hf : Logs (f a) b entries') :
    Logs (x >>= f) b (entries++entries') := by
  intro log
  rw [StateT.run_bind,hx log,← List.append_assoc]
  exact hf (log++entries)

end Logs

/-! ## The callbacks -/

section Asking

variable {m : Type → Type} [Monad m] (getCurrent : PdbsConfig → ℕ → m ℕ)

/-- The test of the range search. -/
def inRangeBy (scfg : PdbsConfig) (pdo : BitVec 32) : m Bool :=
  if isFixed pdo then do
    let v := pdPdoSrcFixedVoltageGet pdo
    let current ← getCurrent scfg (pdPdv2Mv v)
    pure (decide (current ≤ pdPdoSrcFixedCurrentGet pdo) && decide (pdMv2Pdv scfg.vmin ≤ v) &&
      decide (v ≤ pdMv2Pdv scfg.vmax))
  else pure false

/-- Its loop. -/
def rangeLoopBy (scfg : PdbsConfig) (caps : PdMsg) (step : ℤ) : ℕ → ℤ → m ℤ
  | 0,_ => pure (-1)
  | rounds+1,i =>
    if 0 ≤ i ∧ i < caps.numobjGet then do
      let found ← inRangeBy getCurrent scfg (caps.object i.toNat)
      if found then pure i else rangeLoopBy scfg caps step rounds (i+step)
    else pure (-1)

/-- `dpm_get_range_fixed_pdo_index`. -/
def rangeIndexBy (caps : PdMsg) (scfg : PdbsConfig) : m ℤ :=
  if scfg.hvPreferred then rangeLoopBy getCurrent scfg caps (-1) (caps.numobjGet+1) (caps.numobjGet-1)
  else rangeLoopBy getCurrent scfg caps 1 (caps.numobjGet+1) 0

/-- `pdbs_dpm_evaluate_capability`. -/
def evaluateBy (sh : FirmwareState.Shared) (caps request : PdMsg) : m Evaluation :=
  let fallback := fallbackRequest sh.hdrTemplate sh.dpm.usbComms request sh.dpm.outputEnabled
  match sh.config with
  | some scfg =>
    if sh.dpm.outputEnabled then
      match (List.range caps.numobjGet).find? fun j =>
          accepted scfg (profileVoltage sh) (caps.object j) with
      | some i =>
        pure (if matchesProfile (profileVoltage sh) 0 (caps.object i) then profileAnswer sh request scfg i
          else programmableAnswer sh request scfg i)
      | none => do
        let i ← rangeIndexBy getCurrent caps scfg
        if 0 ≤ i then do
          let voltage := objectVoltage caps i.toNat
          let current ← getCurrent scfg voltage
          pure (fixedAnswer sh request scfg current i.toNat voltage)
        else pure fallback
    else pure fallback
  | none => pure fallback

/-- What `pdbs_dpm_get_sink_capability` puts together with a configuration. -/
def configuredObjectsBy (scfg : PdbsConfig) (caps : PdMsg) (rev : BitVec 16)
    (objs : List (BitVec 32)) : m (List (BitVec 32)) := do
  let current ← getCurrent scfg scfg.v
  let i ← rangeIndexBy getCurrent caps scfg
  pure (appendObjects scfg caps rev objs current i)

/-- `pdbs_dpm_evaluate_typec_current`. -/
def typecBy (config : Option PdbsConfig) (tcc : TypecCurrent) (dpm : Dpm) : m (Dpm × Bool) :=
  let answer (sufficient : Bool) : Dpm × Bool :=
    ({dpm with requestedVoltage := 5000,capabilityMatch := sufficient},sufficient)
  match config with
  | some scfg =>
    if scfg.v≠5000 ∧ (5000 < scfg.vmin ∨ scfg.vmax < 5000) then pure (answer false)
    else do
      let current ← getCurrent scfg 5000
      pure (answer (tcc==.a15 && decide (current ≤ 150) || tcc==.a30 && decide (current ≤ 300)))
  | none => pure (answer false)

end Asking

/-- `dpm_get_current` with a log. -/
def asking (scfg : PdbsConfig) (mv : ℕ) : StateM (List ℕ) ℕ :=
  fun log => (dpmGetCurrent scfg mv,log++[mv])

/-! ## Their calls -/

section Calls

variable {sh : FirmwareState.Shared} {scfg : PdbsConfig} {caps : PdMsg}

theorem logs_asking (mv : ℕ) : Logs (asking scfg mv) (dpmGetCurrent scfg mv) [mv] := fun _ => rfl

/-- The test asks at the voltage of a fixed object. -/
theorem logs_inRange (pdo : BitVec 32) : Logs (inRangeBy asking scfg pdo) (inRange scfg pdo)
    (if isFixed pdo then [pdPdv2Mv (pdPdoSrcFixedVoltageGet pdo)] else []) := by
  unfold inRangeBy inRange
  cases isFixed pdo with
  | true => exact (logs_asking _).bind (.pure _)
  | false => exact .pure _

/-- The loop asks at each fixed object it visits. -/
theorem logs_rangeLoop (step : ℤ) (rounds : ℕ) (i : ℤ) :
    Logs (rangeLoopBy asking scfg caps step rounds i) (rangeLoop scfg caps step rounds i)
      (((visits (fun j => inRange scfg (caps.object j)) caps.numobjGet step rounds i).filter
        fun j => isFixed (caps.object j)).map (objectVoltage caps)) := by
  induction rounds generalizing i with
  | zero => exact .pure _
  | succ rounds ih =>
    unfold rangeLoopBy rangeLoop visits
    by_cases hin : 0 ≤ i ∧ i < caps.numobjGet
    · rw [if_pos hin,if_pos hin,if_pos hin,← List.singleton_append,List.filter_append,List.map_append]
      have hfirst : (([i.toNat].filter fun j => isFixed (caps.object j)).map (objectVoltage caps))=
          if isFixed (caps.object i.toNat) then [objectVoltage caps i.toNat] else [] := by
        rw [List.filter_singleton]
        cases isFixed (caps.object i.toNat) <;> rfl
      rw [hfirst]
      refine (logs_inRange _).bind ?_
      cases inRange scfg (caps.object i.toNat) with
      | true => exact .pure _
      | false => exact ih _
    · rw [if_neg hin,if_neg hin,if_neg hin]
      exact .pure _

/-- The range search asks so in either direction. -/
theorem logs_rangeIndex : Logs (rangeIndexBy asking caps scfg) (dpmGetRangeFixedPdoIndex caps scfg)
    (rangeCalls scfg caps) := by
  unfold rangeIndexBy dpmGetRangeFixedPdoIndex rangeCalls rangeVisits
  cases scfg.hvPreferred with
  | true => exact logs_rangeLoop _ _ _
  | false => exact logs_rangeLoop _ _ _

/-- An evaluation searches the range when it takes no object, and asks again
for the object found. -/
theorem logs_evaluate (request : PdMsg) :
    Logs (evaluateBy asking sh caps request)
      (evaluateStored sh.hdrTemplate sh.config sh.profile sh.dpm caps request) (evaluateCalls sh caps) := by
  unfold evaluateBy evaluateStored evaluateCalls
  cases sh.config with
  | none => exact .pure _
  | some scfg =>
    dsimp only
    cases sh.dpm.outputEnabled with
    | false => exact .pure _
    | true =>
      unfold matchingRequest
      have hfound : ((List.range caps.numobjGet).find? fun j =>
          matchesProfile (pdProfiles.getD sh.profile 5000) 0 (caps.object j) ||
            matchesPps scfg 0 (caps.object j))=
          (List.range caps.numobjGet).find? fun j => accepted scfg (profileVoltage sh) (caps.object j) := rfl
      dsimp only
      rw [if_pos rfl,if_pos rfl,hfound]
      cases hfind : (List.range caps.numobjGet).find? fun j =>
          accepted scfg (profileVoltage sh) (caps.object j) with
      | some i =>
        have hnot : ¬(true=true ∧ (List.range caps.numobjGet).all
            (fun j => !accepted scfg (profileVoltage sh) (caps.object j))=true) := by
          rintro ⟨-,hall⟩
          have htaken := List.all_eq_true.mp hall i (List.mem_of_find?_eq_some hfind)
          rw [List.find?_some hfind] at htaken
          cases htaken
        rw [if_neg hnot]
        dsimp only
        by_cases hp : matchesProfile (profileVoltage sh) 0 (caps.object i)=true
        · have hprofile : matchesProfile (pdProfiles.getD sh.profile 5000) 0 (caps.object i)=true := hp
          rw [if_pos hp,if_pos hprofile]
          exact .pure _
        · have hprofile : ¬matchesProfile (pdProfiles.getD sh.profile 5000) 0 (caps.object i)=true := hp
          rw [if_neg hp,if_neg hprofile]
          exact .pure _
      | none =>
        have hall : true=true ∧ (List.range caps.numobjGet).all
            (fun j => !accepted scfg (profileVoltage sh) (caps.object j))=true := by
          refine ⟨rfl,List.all_eq_true.mpr fun j hj => ?_⟩
          rw [Bool.eq_false_iff.mpr (List.find?_eq_none.mp hfind j hj)]
          rfl
        dsimp only
        rw [if_pos hall]
        refine logs_rangeIndex.bind ?_
        by_cases hin : 0 ≤ dpmGetRangeFixedPdoIndex caps scfg
        · rw [if_pos hin,if_pos hin,if_pos hin]
          exact (logs_asking _).bind (.pure _)
        · rw [if_neg hin,if_neg hin,if_neg hin]
          exact .pure _

/-- So does a call, with the capabilities it evaluates. -/
theorem logs_answer (caps : Option MsgPtr) (request : MsgPtr) (sh : FirmwareState.Shared) :
    Logs (evaluateBy asking sh (evaluated caps sh) request.msg) (answer caps request sh)
      (evaluateCalls sh (evaluated caps sh)) := by
  rw [answer_eq]
  exact logs_evaluate request.msg

/-- Sink_Capabilities ask for the configured voltage, and search the range. -/
theorem logs_configuredObjects (hc : sh.config=some scfg) (rev : BitVec 16) (objs : List (BitVec 32)) :
    Logs (configuredObjectsBy asking scfg caps rev objs) (configuredObjects scfg caps rev objs)
      (sinkCapabilityCalls sh caps) := by
  have hcalls : sinkCapabilityCalls sh caps=[scfg.v]++(rangeCalls scfg caps++[]) := by
    unfold sinkCapabilityCalls
    rw [hc,List.append_nil]
    rfl
  rw [hcalls]
  exact (logs_asking _).bind (logs_rangeIndex.bind (.pure _))

/-- The Type-C Current is compared at 5 V. -/
theorem logs_typec (tcc : TypecCurrent) (dpm : Dpm) :
    Logs (typecBy asking sh.config tcc dpm) (pdbsDpmEvaluateTypecCurrent sh.config tcc dpm)
      (typecCalls sh) := by
  unfold typecBy pdbsDpmEvaluateTypecCurrent typecCalls
  cases sh.config with
  | none => exact .pure _
  | some scfg =>
    dsimp only
    split
    · exact .pure _
    · exact (logs_asking _).bind (.pure _)

end Calls

end UsbPdFirmware.CurrentCalls
