import UsbPdFirmware.RequestRounds

/-!
# The button

The main thread in sink mode. Its counter starts at one and is incremented
before it is used, so that the first press selects the third profile, and each
later press the one after.
-/

namespace UsbPdFirmware.ProfileButton

open PdMessage DevicePolicy LabelledRuns Machine EventThreads FirmwareState PolicyEngine
open ProtocolRx ProtocolTx HardReset FirmwareSystem CapabilitySelection RequestRounds

/-! ## The main thread -/

/-- Where the thread is in `sink`. -/
inductive SinkPoint where
  /-- The other threads were started, and `cfg->state` is set to zero. -/
  | clearState
  /-- The first evaluation is asked for. -/
  | signalFirst
  /-- The loop reads the button. -/
  | readButton
  /-- The inner loop waits until it is released. -/
  | waitRelease
  /-- An evaluation is asked for. -/
  | signalNewPower
deriving DecidableEq

/-- The thread, with its counter `_cnt`. -/
structure Sink where
  point : SinkPoint
  cnt : BitVec 8

/-- Next action of the thread, which reads the level of the button. -/
def sink (pressed : Bool) (t : Sink) : Action Event Sink Shared :=
  match t.point with
  | .clearState => .access fun sh => some ({sh with profile := 0},⟨.signalFirst,t.cnt⟩)
  | .signalFirst => .signal [.peNewPower] ⟨.readButton,1⟩
  | .readButton =>
    if pressed then
      let cnt := t.cnt+1
      .access fun sh => some ({sh with profile := cnt.toNat},⟨.waitRelease,if 3 < cnt then 0 else cnt⟩)
    else .compute t
  | .waitRelease => if pressed then .compute t else .compute ⟨.signalNewPower,t.cnt⟩
  | .signalNewPower => .signal [.peNewPower] ⟨.readButton,t.cnt⟩

/-- The firmware and its main thread. -/
structure Board where
  system : System
  main : Sink

/-- Who acts next. -/
inductive BoardLabel where
  /-- A thread of the firmware, or its environment. -/
  | thread (l : Label)
  /-- The main thread, with the button pressed or not. -/
  | main (pressed : Bool)

/-- The board after the main thread's action. -/
def Board.withMain (b : Board) (o : Outcome Event Sink Shared) : Board :=
  ⟨{b.system with pending := o.pending,shared := o.shared},o.loc⟩

/-- One action. Only the main thread selects a profile. -/
def boardStep (l : BoardLabel) (b : Board) : Option Board :=
  match l with
  | .thread (.env (.profile _)) => none
  | .thread l => (act l b.system).map fun s => ⟨s,b.main⟩
  | .main pressed =>
    ((sink pressed b.main).perform false b.system.pending b.system.shared).map b.withMain

/-- The board, with the counter not yet set. -/
def board : Machine Board BoardLabel := ⟨⟨initial,⟨.clearState,0⟩⟩,boardStep⟩

section Step

variable {b b' : Board} {l : BoardLabel}

/-- Everything the main thread can do. -/
inductive MainStep (b : Board) (pressed : Bool) : Board → Prop where
  /-- The first profile is selected. -/
  | clear (hp : b.main.point=.clearState) :
      MainStep b pressed ⟨{b.system with shared := {b.system.shared with profile := 0}},⟨.signalFirst,b.main.cnt⟩⟩
  /-- The first evaluation is asked for, and the counter is set. -/
  | first (hp : b.main.point=.signalFirst) :
      MainStep b pressed ⟨b.system.signalled .peNewPower,⟨.readButton,1⟩⟩
  /-- A press. -/
  | press (hp : b.main.point=.readButton) (hb : pressed=true) :
      MainStep b pressed ⟨{b.system with shared := {b.system.shared with profile := (b.main.cnt+1).toNat}},
        ⟨.waitRelease,if 3 < b.main.cnt+1 then 0 else b.main.cnt+1⟩⟩
  /-- The button stays as it is. -/
  | idle (hp : b.main.point=.readButton ∧ pressed=false ∨ b.main.point=.waitRelease ∧ pressed=true) :
      MainStep b pressed b
  /-- It is released. -/
  | release (hp : b.main.point=.waitRelease) (hb : pressed=false) :
      MainStep b pressed ⟨b.system,⟨.signalNewPower,b.main.cnt⟩⟩
  /-- An evaluation is asked for. -/
  | signal (hp : b.main.point=.signalNewPower) :
      MainStep b pressed ⟨b.system.signalled .peNewPower,⟨.readButton,b.main.cnt⟩⟩

/-- Every action of the thread is one of its steps. -/
theorem main_step {pressed : Bool} (h : board.step (.main pressed) b=some b') : MainStep b pressed b' := by
  obtain ⟨o,ho,rfl⟩ := Option.map_eq_some_iff.mp h
  unfold sink at ho
  cases hp : b.main.point <;> rw [hp] at ho <;> dsimp only at ho
  case clearState =>
    obtain ⟨-,rfl⟩ := Action.perform_access_some.mp ho
    exact .clear hp
  case signalFirst =>
    obtain ⟨-,rfl⟩ := Action.perform_signal.mp ho
    exact .first hp
  case readButton =>
    cases pressed with
    | true =>
      obtain ⟨-,rfl⟩ := Action.perform_access_some.mp ho
      exact .press hp rfl
    | false =>
      obtain ⟨-,rfl⟩ := Action.perform_access_some.mp ho
      exact .idle (.inl ⟨hp,rfl⟩)
  case waitRelease =>
    cases pressed with
    | true =>
      obtain ⟨-,rfl⟩ := Action.perform_access_some.mp ho
      exact .idle (.inr ⟨hp,rfl⟩)
    | false =>
      obtain ⟨-,rfl⟩ := Action.perform_access_some.mp ho
      exact .release hp rfl
  case signalNewPower =>
    obtain ⟨-,rfl⟩ := Action.perform_signal.mp ho
    exact .signal hp

/-- A step of another thread is one of the firmware that selects no profile. -/
theorem thread_step {l : Label} (h : board.step (.thread l) b=some b') :
    firmware.step l b.system=some b'.system ∧ b'.main=b.main ∧ ∀ n, l≠.env (.profile n) := by
  have hmap (h : (act l b.system).map (fun s => (⟨s,b.main⟩ : Board))=some b') :
      firmware.step l b.system=some b'.system ∧ b'.main=b.main := by
    obtain ⟨s,hs,rfl⟩ := Option.map_eq_some_iff.mp h
    exact ⟨hs,rfl⟩
  cases l with
  | env e =>
    cases e with
    | profile n => cases h
    | _ => exact ⟨(hmap h).1,(hmap h).2,fun n hn => by cases hn⟩
  | _ => exact ⟨(hmap h).1,(hmap h).2,fun n hn => by cases hn⟩

/-- What the firmware sees of the board is a run of its own: the button is its
environment. -/
theorem firmware_of_board (h : board.Reach anyStep b) : firmware.Reach anyStep b.system := by
  have hseen (b : Board) (l : BoardLabel) (b' : Board) (hs : board.step l b=some b') :
      firmware.Seen Board.system (fun _ => True) b b' := by
    cases l with
    | thread l => exact .inr ⟨l,trivial,(thread_step hs).1⟩
    | main pressed =>
      cases main_step hs with
      | clear hp => exact .inr ⟨.env (.profile 0),trivial,rfl⟩
      | first hp => exact .inr ⟨.env .newPower,trivial,rfl⟩
      | press hp hb => exact .inr ⟨.env (.profile _),trivial,rfl⟩
      | idle hp => exact .inl rfl
      | release hp hb => exact .inl rfl
      | signal hp => exact .inr ⟨.env .newPower,trivial,rfl⟩
  exact @Reach.project _ _ _ _ board firmware _ _ Board.system _ rfl hseen (fun _ _ _ _ _ => trivial) _ h

end Step

/-! ## Who else touches the profile -/

section Frame

variable {pe pe' : PolicyEngine} {sh sh' : Shared} {m : MsgPtr}

/-- Freeing a message and returning a state. -/
theorem finish_profile {pe₁ : PolicyEngine} {sh₁ : Shared} {state : PolicyEngineState}
    (h : finish pe₁ m sh₁ state=some (sh',pe')) (hp : sh₁.profile=sh.profile) : sh'.profile=sh.profile := by
  obtain ⟨rfl,rfl⟩ := Prod.ext_iff.mp (Option.some.inj h)
  exact hp

theorem free?_profile (p : Option MsgPtr) : (sh.free? p).profile=sh.profile := by
  rw [free?_eq]

/-- A message in every receiving state. -/
theorem handleMessage_profile (h : handleMessage pe m sh=some (sh',pe')) : sh'.profile=sh.profile := by
  unfold handleMessage at h
  cases hs : pe.state <;> rw [hs] at h <;> dsimp only at h
  case sinkWaitCap =>
    unfold peSinkWaitCapMessage at h
    split_ifs at h
    · obtain ⟨rfl,rfl⟩ := Prod.ext_iff.mp (Option.some.inj h)
      rfl
    · exact finish_profile h rfl
    · obtain ⟨rfl,rfl⟩ := Prod.ext_iff.mp (Option.some.inj h)
      rfl
  case sinkReady =>
    cases peSinkReadyMessage_step h with
    | answer hs h => exact finish_profile h rfl
    | gotomin hm hg h => exact finish_profile h rfl
    | capabilities hm hsh hpe => rw [hsh]
  case sinkSelectCap =>
    unfold peSinkSelectCapMessage at h
    dsimp only at h
    split_ifs at h <;> exact finish_profile h rfl
  case sinkTransitionSink =>
    unfold peSinkTransitionSinkMessage at h
    dsimp only at h
    split_ifs at h <;> exact finish_profile h rfl
  case sinkSendSoftReset =>
    unfold peSinkSendSoftResetMessage at h
    split_ifs at h <;> exact finish_profile h rfl
  all_goals exact absurd h (by simp)

/-- An evaluation brings the profile into range, which does not change what
it stands for. -/
theorem evaluateCapability_profile (caps : Option MsgPtr) (request : MsgPtr) :
    profileVoltage (evaluateCapability caps request sh).2=profileVoltage sh := by
  rw [← profileVoltage_reset sh]
  unfold evaluateCapability pdbsDpmEvaluateCapability profileVoltage
  cases caps with
  | none => rfl
  | some c =>
    dsimp only
    rw [free?_profile]

/-- The voltage that is selected stays. -/
def SameVoltage (sh : Shared) (_ : PolicyEngine) (sh' : Shared) : Prop := profileVoltage sh'=profileVoltage sh

/-- It does with the profile. -/
theorem voltage_of_profile (h : sh'.profile=sh.profile) : profileVoltage sh'=profileVoltage sh := by
  unfold profileVoltage
  rw [h]

/-- Freeing what was sent. -/
theorem freeSent_voltage {result : TxResult} {onFailure onDone : PolicyEngine → PolicyEngine} :
    (freeSent pe result onFailure onDone).Ensures (SameVoltage sh) sh := by
  intro sh' next he
  obtain ⟨rfl,rfl⟩ := Prod.ext_iff.mp (Option.some.inj he)
  exact voltage_of_profile (free?_profile _)

/-- What follows the end of a transmission. -/
theorem afterSent_voltage {result : TxResult} : (afterSent pe result).Ensures (SameVoltage sh) sh := by
  unfold afterSent
  cases pe.state <;> dsimp only
  case sinkSelectCap =>
    intro sh' next he
    cases result <;> obtain ⟨rfl,rfl⟩ := Prod.ext_iff.mp (Option.some.inj he) <;> rfl
  case sinkSoftReset | sinkSendSoftReset | sinkSendNotSupported | sinkGetSourceCap | sinkGiveSinkCap =>
    exact freeSent_voltage
  all_goals
    intro sh' next he
    cases he

/-- A message is built and posted. -/
theorem sendNew_voltage {build : Shared → PdMsg → PdMsg} :
    (sendNew pe build).Ensures (SameVoltage sh) sh := by
  refine Action.ensures_access fun o ho => ?_
  obtain ⟨m,pool,-,rfl⟩ := sendNew_perform ho
  rfl

/-- The first action of every state function. -/
theorem stateFunction_voltage : (stateFunction pe).Ensures (SameVoltage sh) sh := by
  unfold stateFunction
  cases he : pe.state <;> dsimp only
  case sinkEvalCap =>
    refine Action.ensures_access fun o ho => ?_
    obtain ⟨request,_,_,pool,-,rfl⟩ := peSinkEvalCap_perform ho
    exact evaluateCapability_profile _ _
  case sinkSelectCap =>
    refine Action.ensures_access fun o ho => ?_
    obtain ⟨m,-,rfl⟩ := peSinkSelectCap_perform ho
    rfl
  case sinkSoftReset | sinkSendSoftReset | sinkSendNotSupported | sinkGetSourceCap | sinkGiveSinkCap =>
    exact sendNew_voltage
  case sinkHardReset =>
    unfold peSinkHardReset
    split_ifs
    · intro sh' next h
      cases h
      rfl
    · rfl
  case sinkWaitCap | sinkTransitionSink | sinkReady | sinkChunkReceived => exact fun _ => rfl
  all_goals
    intro sh' next h
    cases h
    rfl

/-- No action of the Policy Engine selects another voltage. -/
theorem policyEngine_voltage : (policyEngine pe).Ensures (SameVoltage sh) sh := by
  unfold policyEngine
  cases hp : pe.point <;> dsimp only
  case start => exact stateFunction_voltage
  case sent result => exact afterSent_voltage
  case handle =>
    cases hm : pe.message with
    | none =>
      intro sh' next he
      cases he
    | some m => exact fun sh' next he => voltage_of_profile (handleMessage_profile he)
  case dropMessage =>
    intro sh' next he
    obtain ⟨rfl,rfl⟩ := Prod.ext_iff.mp (Option.some.inj he)
    exact voltage_of_profile (free?_profile _)
  case fetch =>
    refine Action.ensures_access fun o ho => ?_
    rcases fetchMessage_perform ho with ⟨-,rfl⟩ | ⟨m,rest,-,rfl⟩ <;> rfl
  all_goals first | rfl | exact fun _ => rfl

/-- No thread does, nor does the environment without the button. -/
theorem moved_voltage {s s' : System} {l : Label} (h : Moved s l s') (hl : ∀ n, l≠.env (.profile n)) :
    profileVoltage s'.shared=profileVoltage s.shared := by
  cases h with
  | pe hl' he hp => exact policyEngine_voltage.perform hp
  | rx h =>
    cases h with
    | read hp hb =>
      rw [fusbReadMessage_eq]
      rfl
    | drop hp => exact voltage_of_profile (free?_profile _)
    | _ => rfl
  | tx h =>
    cases h with
    | matchRead hp =>
      rw [fusbReadMessage_eq]
      rfl
    | discard hp => cases s.tx.message <;> rfl
    | _ => rfl
  | hr hl' h => cases h <;> rfl
  | intN h => cases h <;> rfl
  | @env e _ h =>
    cases e
    case profile n => exact absurd rfl (hl n)
    case ppsTimer =>
      simp only [environment,Option.ite_none_right_eq_some,Option.some.injEq] at h
      obtain ⟨-,rfl⟩ := h
      rfl
    all_goals
      cases h
      rfl

end Frame

/-! ## The cycle -/

/-- How often the button was pressed, and the voltage that an evaluation
after the last press looked for. -/
structure Cycle where
  presses : ℕ
  selected : Option ℕ

/-- What a step adds. -/
def recordCycle (h : Cycle) (b : Board) (l : BoardLabel) (_ : Board) : Cycle :=
  match l with
  | .main pressed => if pressed=true ∧ b.main.point=.readButton then ⟨h.presses+1,none⟩ else h
  | .thread l => if l.isPe && evaluates b.system.pe then
      {h with selected := some (profileVoltage b.system.shared)} else h

/-- The board with its cycle. -/
def cycling : Machine (Board × Cycle) BoardLabel := board.observe ⟨0,none⟩ recordCycle

/-- A profile by its position in the list, from zero. -/
def profileAt (n : ℕ) : ℕ := pdProfiles.getD (n%4) 5000

/-- The position after so many presses: the first press skips one. -/
def positionAfter (presses : ℕ) : ℕ := if presses=0 then 0 else presses+1

/-- The loop runs. -/
def looping : SinkPoint → Bool
  | .clearState | .signalFirst => false
  | .readButton | .waitRelease | .signalNewPower => true

/-- The counter and the selected voltage go with the presses. -/
structure InCycle (b : Board) (h : Cycle) : Prop where
  /-- Presses are only read in the loop. -/
  early : looping b.main.point=false → h.presses=0
  /-- The counter is one ahead. -/
  cnt : looping b.main.point=true → b.main.cnt.toNat=(h.presses+1)%4
  /-- The profile is one ahead after the first press. -/
  voltage : profileVoltage b.system.shared=profileAt (positionAfter h.presses)
  /-- So is what was selected. -/
  selected : ∀ v, h.selected=some v → v=profileAt (positionAfter h.presses)

/-- Neighbours in the list differ. -/
theorem profileAt_succ_ne (n : ℕ) : profileAt (n+1)≠profileAt n := by
  have hlt : n%4 < 4 := Nat.mod_lt _ (by decide)
  unfold profileAt
  rw [Nat.add_mod]
  interval_cases n%4 <;> decide

/-- What a press does to the counter and the profile. -/
theorem press_cnt {cnt : BitVec 8} {n : ℕ} (h : cnt.toNat=(n+1)%4) :
    (if 3 < cnt+1 then 0 else cnt+1).toNat=(n+1+1)%4 ∧
      pdProfiles.getD (cnt+1).toNat 5000=profileAt (n+1+1) := by
  have hlt : (n+1)%4 < 4 := Nat.mod_lt _ (by decide)
  have hcnt : cnt=BitVec.ofNat 8 ((n+1)%4) := by
    rw [← h,BitVec.ofNat_toNat,BitVec.setWidth_eq]
  unfold profileAt
  rw [hcnt,Nat.add_mod (n+1) 1]
  interval_cases (n+1)%4 <;> decide

section Cycling

variable {b b' : Board} {h : Cycle}

/-- A press is counted, -/
theorem recordCycle_press (hp : b.main.point=.readButton) :
    recordCycle h b (.main true) b'=⟨h.presses+1,none⟩ := if_pos ⟨rfl,hp⟩

/-- and nothing else that the main thread does. -/
theorem recordCycle_main {pressed : Bool} (hn : b.main.point=.readButton → pressed=false) :
    recordCycle h b (.main pressed) b'=h := by
  refine if_neg ?_
  rintro ⟨hb,hp⟩
  exact absurd (hb.symm.trans (hn hp)) (by decide)

/-- The main thread keeps to the cycle. -/
theorem InCycle.main {pressed : Bool} (hc : InCycle b h) (hs : MainStep b pressed b') :
    InCycle b' (recordCycle h b (.main pressed) b') := by
  have hother (hp : b.main.point≠.readButton) : recordCycle h b (.main pressed) b'=h :=
    recordCycle_main fun hread => absurd hread hp
  cases hs with
  | clear hp =>
    have hzero := hc.early (by rw [hp]; rfl)
    rw [hother (by rw [hp]; decide)]
    refine ⟨fun _ => hzero,nofun,?_,hc.selected⟩
    rw [hzero]
    rfl
  | first hp =>
    have hzero := hc.early (by rw [hp]; rfl)
    rw [hother (by rw [hp]; decide)]
    refine ⟨fun _ => hzero,fun _ => ?_,hc.voltage,hc.selected⟩
    rw [hzero]
    rfl
  | press hp hb =>
    subst hb
    obtain ⟨hcnt,hvoltage⟩ := press_cnt (hc.cnt (by rw [hp]; rfl))
    rw [recordCycle_press hp]
    exact ⟨nofun,fun _ => hcnt,hvoltage,nofun⟩
  | idle hp =>
    rcases hp with ⟨-,hb⟩ | ⟨hp,-⟩
    · rw [recordCycle_main fun _ => hb]
      exact hc
    · rw [hother (by rw [hp]; decide)]
      exact hc
  | release hp hb =>
    rw [hother (by rw [hp]; decide)]
    exact ⟨nofun,fun _ => hc.cnt (by rw [hp]; rfl),hc.voltage,hc.selected⟩
  | signal hp =>
    rw [hother (by rw [hp]; decide)]
    exact ⟨nofun,fun _ => hc.cnt (by rw [hp]; rfl),hc.voltage,hc.selected⟩

/-- So do the other threads. -/
theorem InCycle.thread {l : Label} (hc : InCycle b h) (hs : board.step (.thread l) b=some b') :
    InCycle b' (recordCycle h b (.thread l) b') := by
  obtain ⟨hstep,hmain,hl⟩ := thread_step hs
  have hvoltage := moved_voltage (firmware_moved hstep) hl
  unfold recordCycle
  dsimp only
  split
  · refine ⟨by rw [hmain]; exact hc.early,by rw [hmain]; exact hc.cnt,hvoltage.trans hc.voltage,?_⟩
    intro v hv
    rw [← Option.some.inj hv]
    exact hc.voltage
  · exact ⟨by rw [hmain]; exact hc.early,by rw [hmain]; exact hc.cnt,hvoltage.trans hc.voltage,hc.selected⟩

theorem inCycle_of_reach {p : Board × Cycle} (hr : cycling.Reach anyStep p) : InCycle p.1 p.2 := by
  refine hr.observed_invariant ?_ fun b h l b' _ hc _ hs => ?_
  · exact ⟨fun _ => rfl,nofun,rfl,nofun⟩
  · cases l with
    | thread l => exact hc.thread hs
    | main pressed => exact hc.main (main_step hs)

/-- In every run, whenever an evaluation has followed the last press, the
voltage it looked for is that of the number of presses exactly before the first
press. -/
theorem selected_inOrder_iff {p : Board × Cycle} (hr : cycling.Reach anyStep p) {v : ℕ}
    (hv : p.2.selected=some v) : v=profileAt p.2.presses ↔ p.2.presses=0 := by
  rw [(inCycle_of_reach hr).selected v hv,positionAfter]
  by_cases hzero : p.2.presses=0
  · rw [if_pos hzero,hzero]
    exact iff_of_true rfl rfl
  · rw [if_neg hzero]
    exact iff_of_false (profileAt_succ_ne _) hzero

/-- A contract is negotiated while the main thread starts. -/
def booted : List BoardLabel := [.main false,.main false]++negotiate.map .thread

/-- It is at 5 V. -/
theorem selected_inOrder_booted : ∃ p, cycling.Reach anyStep p ∧ p.1.system.pe.state=.sinkReady ∧
    p.2.presses=0 ∧ p.2.selected=some (profileAt p.2.presses) := by
  obtain ⟨p,hr,ht⟩ := exists_reach_of_follow cycling anyStep booted
    (fun p => decide (p.1.system.pe.state=.sinkReady ∧ p.2.presses=0 ∧ p.2.selected=some 5000))
    (by decide +kernel)
  obtain ⟨hready,hzero,hv⟩ := of_decide_eq_true ht
  exact ⟨p,hr,hready,hzero,hv.trans (congrArg some ((selected_inOrder_iff hr hv).mpr hzero))⟩

/-- Then the button is pressed and released, and the capabilities are
evaluated again. -/
def pressedOnce : List BoardLabel :=
  List.flatten [booted,[.main true,.main true,.main false,.main false],
    List.map .thread [.pe,.pe,.pe,.pe]]

/-- The first press selects 15 V. -/
theorem selected_skips : ¬∀ p v, cycling.Reach anyStep p → p.2.selected=some v →
    v=profileAt p.2.presses := by
  intro hall
  obtain ⟨p,hr,ht⟩ := exists_reach_of_follow cycling anyStep pressedOnce
    (fun p => decide (p.2.selected=some 15000 ∧ p.2.presses=1)) (by decide +kernel)
  obtain ⟨hv,hone⟩ := of_decide_eq_true ht
  have hnine := hall p _ hr hv
  rw [hone] at hnine
  exact absurd hnine (by decide)

end Cycling

end UsbPdFirmware.ProfileButton
