import UsbPdFirmware.FirmwareState

/-!
# The Hard Reset and polling threads

The states of `hard_reset.c`, and the loop of `int_n.c` that reads the
interrupt registers and passes each interrupt on to the thread it concerns.
-/

namespace UsbPdFirmware.HardReset

open EventThreads FirmwareState

/-- Next action of the Hard Reset thread, over its own locals. -/
abbrev HrAction := Action Event HardReset Shared

/-- `PRL_HR_Reset_Layer`, after its two writes and two signals: continue by
who started the reset. -/
def resetLayerNext (byPe : Bool) : HardResetPoint :=
  if byPe then .requestHardReset else .indicateHardReset

/-- The Hard Reset thread. Sending the reset changes nothing the threads
share; the wait for its end moves on no matter what made it stop. -/
def hardReset (hr : HardReset) : HrAction :=
  match hr.point with
  | .resetLayer => .wait [.hardrstReset,.hardrstHardrst] false fun evt =>
      ⟨.resetRxMessageid (decide (.hardrstReset ∈ evt))⟩
  | .resetRxMessageid byPe => .access fun sh => some ({sh with rxMessageid := 0},⟨.resetTxCounter byPe⟩)
  | .resetTxCounter byPe =>
    .access fun sh => some ({sh with txMessageidcounter := 0},⟨.resetSignalRx byPe⟩)
  | .resetSignalRx byPe => .signal [.prlrxReset] ⟨.resetSignalTx byPe⟩
  | .resetSignalTx byPe => .signal [.prltxReset] ⟨resetLayerNext byPe⟩
  | .indicateHardReset => .signal [.peReset] ⟨.waitPe⟩
  | .requestHardReset => .compute ⟨.waitPhy⟩
  | .waitPhy => .wait [.hardrstHardsent] true fun _ => ⟨.hardResetRequested⟩
  | .hardResetRequested => .signal [.peHardSent] ⟨.waitPe⟩
  | .waitPe => .wait [.hardrstDone] false fun _ => ⟨.complete⟩
  | .complete => .compute ⟨.resetLayer⟩

/-! ## One step of the Hard Reset thread -/

section Step

variable (hr : HardReset) (pending : Event → Bool) (sh : Shared)

/-- Everything one action of the thread can do. -/
inductive HrStep : Outcome Event HardReset Shared → Prop where
  /-- A reset is accepted; who started it is remembered. -/
  | accept (hp : hr.point=.resetLayer)
      (ht : pending .hardrstReset=true ∨ pending .hardrstHardrst=true) :
      HrStep ⟨clear [.hardrstReset,.hardrstHardrst] pending,
        ⟨.resetRxMessageid (pending .hardrstReset)⟩,sh⟩
  /-- The stored MessageID of Protocol RX is overwritten. -/
  | resetRxMessageid {byPe : Bool} (hp : hr.point=.resetRxMessageid byPe) :
      HrStep ⟨pending,⟨.resetTxCounter byPe⟩,{sh with rxMessageid := 0}⟩
  /-- The counter of Protocol TX is zeroed. -/
  | resetTxCounter {byPe : Bool} (hp : hr.point=.resetTxCounter byPe) :
      HrStep ⟨pending,⟨.resetSignalRx byPe⟩,{sh with txMessageidcounter := 0}⟩
  /-- Protocol RX is reset. -/
  | resetSignalRx {byPe : Bool} (hp : hr.point=.resetSignalRx byPe) :
      HrStep ⟨raise [.prlrxReset] pending,⟨.resetSignalTx byPe⟩,sh⟩
  /-- Protocol TX is reset. -/
  | resetSignalTx {byPe : Bool} (hp : hr.point=.resetSignalTx byPe) :
      HrStep ⟨raise [.prltxReset] pending,⟨resetLayerNext byPe⟩,sh⟩
  /-- The Policy Engine hears of a reset it did not start. -/
  | indicate (hp : hr.point=.indicateHardReset) :
      HrStep ⟨raise [.peReset] pending,⟨.waitPe⟩,sh⟩
  /-- The PHY is told to send a reset. -/
  | request (hp : hr.point=.requestHardReset) : HrStep ⟨pending,⟨.waitPhy⟩,sh⟩
  /-- The wait for the PHY ends, with or without its answer. -/
  | sent {pending' : Event → Bool} (hp : hr.point=.waitPhy)
      (hk : ∀ e, e≠.hardrstHardsent → pending' e=pending e) :
      HrStep ⟨pending',⟨.hardResetRequested⟩,sh⟩
  /-- The Policy Engine hears that its reset was sent. -/
  | requested (hp : hr.point=.hardResetRequested) :
      HrStep ⟨raise [.peHardSent] pending,⟨.waitPe⟩,sh⟩
  /-- The Policy Engine is done. -/
  | done (hp : hr.point=.waitPe) (hd : pending .hardrstDone=true) :
      HrStep ⟨clear [.hardrstDone] pending,⟨.complete⟩,sh⟩
  /-- The thread is ready for another reset. -/
  | complete (hp : hr.point=.complete) : HrStep ⟨pending,⟨.resetLayer⟩,sh⟩

end Step

variable {hr : HardReset} {pending : Event → Bool} {sh : Shared} {expired : Bool}

/-- Every action of the thread is one of its steps. -/
theorem hardReset_step {o : Outcome Event HardReset Shared}
    (h : (hardReset hr).perform expired pending sh=some o) : HrStep hr pending sh o := by
  unfold hardReset at h
  cases hp : hr.point <;> rw [hp] at h <;> dsimp only at h
  case resetLayer =>
    obtain ⟨-,hm,rfl⟩ := Action.perform_wait_untimed.mp h
    have ht : pending .hardrstReset=true ∨ pending .hardrstHardrst=true := by simpa using hm
    have hstep : HrStep hr pending sh _ := .accept hp ht
    cases hb : pending .hardrstReset <;> simpa [hb] using hstep
  case waitPhy =>
    rcases Action.perform_wait.mp h with ⟨-,-,rfl⟩ | ⟨-,-,-,rfl⟩
    · exact .sent hp fun e he => by simp [he]
    · exact .sent hp fun _ _ => rfl
  case waitPe =>
    obtain ⟨-,hm,rfl⟩ := Action.perform_wait_untimed.mp h
    have hd : pending .hardrstDone=true := by simpa using hm
    exact .done hp hd
  case resetSignalRx byPe =>
    obtain ⟨-,rfl⟩ := Action.perform_signal.mp h
    exact .resetSignalRx hp
  case resetSignalTx byPe =>
    obtain ⟨-,rfl⟩ := Action.perform_signal.mp h
    exact .resetSignalTx hp
  case indicateHardReset =>
    obtain ⟨-,rfl⟩ := Action.perform_signal.mp h
    exact .indicate hp
  case hardResetRequested =>
    obtain ⟨-,rfl⟩ := Action.perform_signal.mp h
    exact .requested hp
  all_goals
    obtain ⟨-,rfl⟩ := Action.perform_access_some.mp h
  case resetRxMessageid byPe => exact .resetRxMessageid hp
  case resetTxCounter byPe => exact .resetTxCounter hp
  case requestHardReset => exact .request hp
  case complete => exact .complete hp

/-! ## Polling `INT_N` -/

/-- Next action of the polling thread, over its own locals. -/
abbrev IntNAction := Action Event IntN Shared

/-- An event, if its interrupt is raised. -/
def whenSet (raised : Bool) (event : Event) : List Event := if raised then [event] else []

/-- The polling thread. Reading the interrupt registers clears them. -/
def intNPoll (intN : IntN) : IntNAction :=
  match intN.point with
  | .poll => .access fun sh =>
      if sh.phy.interrupts.any then
        some ({sh with phy := {sh.phy with interrupts := .none}},
          ⟨.signalRx sh.phy.interrupts sh.phy.ovrTemp⟩)
      else some (sh,⟨.poll⟩)
  | .signalRx i ovrTemp => .signal (whenSet i.gcrcsent .prlrxGcrcsent) ⟨.signalTx i ovrTemp⟩
  | .signalTx i ovrTemp =>
    .signal (whenSet i.retryfail .prltxRetryfail++whenSet i.txsent .prltxTxsent)
      ⟨.signalHardReset i ovrTemp⟩
  | .signalHardReset i ovrTemp =>
    .signal (whenSet i.hardrst .hardrstHardrst++whenSet i.hardsent .hardrstHardsent)
      ⟨.signalPe i ovrTemp⟩
  | .signalPe i ovrTemp => .signal (whenSet (i.ocpTemp && ovrTemp) .peOvrTemp) ⟨.poll⟩

/-! ## One step of the polling thread -/

/-- The flags the polling thread signals at a point, and where it goes. -/
def intNSignals : IntNPoint → List Event × IntNPoint
  | .poll => ([],.poll)
  | .signalRx i ovrTemp => (whenSet i.gcrcsent .prlrxGcrcsent,.signalTx i ovrTemp)
  | .signalTx i ovrTemp =>
    (whenSet i.retryfail .prltxRetryfail++whenSet i.txsent .prltxTxsent,.signalHardReset i ovrTemp)
  | .signalHardReset i ovrTemp =>
    (whenSet i.hardrst .hardrstHardrst++whenSet i.hardsent .hardrstHardsent,.signalPe i ovrTemp)
  | .signalPe i ovrTemp => (whenSet (i.ocpTemp && ovrTemp) .peOvrTemp,.poll)

/-- Every event the polling thread can signal. -/
def intNEvents : List Event :=
  [.prlrxGcrcsent,.prltxRetryfail,.prltxTxsent,.hardrstHardrst,.hardrstHardsent,.peOvrTemp]

/-- The signals of a point are among them. -/
theorem intNSignals_subset (p : IntNPoint) : (intNSignals p).1 ⊆ intNEvents := by
  have hset (b : Bool) (e : Event) (he : e ∈ intNEvents) : whenSet b e ⊆ intNEvents := by
    cases b <;> simp [whenSet,he]
  cases p with
  | poll => exact List.nil_subset _
  | signalRx i ovrTemp => exact hset _ _ (by decide)
  | signalTx i ovrTemp => exact List.append_subset.mpr ⟨hset _ _ (by decide),hset _ _ (by decide)⟩
  | signalHardReset i ovrTemp =>
    exact List.append_subset.mpr ⟨hset _ _ (by decide),hset _ _ (by decide)⟩
  | signalPe i ovrTemp => exact hset _ _ (by decide)

section Step

variable (intN : IntN) (pending : Event → Bool) (sh : Shared)

/-- Everything one action of the polling thread can do. -/
inductive IntNStep : Outcome Event IntN Shared → Prop where
  /-- No interrupt is raised. -/
  | idle (hp : intN.point=.poll) : IntNStep ⟨pending,⟨.poll⟩,sh⟩
  /-- The interrupts are read and cleared. -/
  | status (hp : intN.point=.poll) :
      IntNStep ⟨pending,⟨.signalRx sh.phy.interrupts sh.phy.ovrTemp⟩,
        {sh with phy := {sh.phy with interrupts := .none}}⟩
  /-- Interrupts are passed on to one thread. -/
  | signal (hp : intN.point≠.poll) :
      IntNStep ⟨raise (intNSignals intN.point).1 pending,⟨(intNSignals intN.point).2⟩,sh⟩

end Step

/-- Every action of the polling thread is one of its steps. -/
theorem intNPoll_step {intN : IntN} {o : Outcome Event IntN Shared}
    (h : (intNPoll intN).perform expired pending sh=some o) : IntNStep intN pending sh o := by
  unfold intNPoll at h
  cases hp : intN.point <;> rw [hp] at h <;> dsimp only at h
  case poll =>
    obtain ⟨-,sh',next,he,rfl⟩ := Action.perform_access.mp h
    by_cases hi : sh.phy.interrupts.any=true
    · rw [if_pos hi] at he
      obtain ⟨rfl,rfl⟩ := Prod.ext_iff.mp (Option.some.inj he)
      exact .status hp
    · rw [if_neg hi] at he
      obtain ⟨rfl,rfl⟩ := Prod.ext_iff.mp (Option.some.inj he)
      exact .idle hp
  all_goals
    obtain ⟨-,rfl⟩ := Action.perform_signal.mp h
    have hstep : IntNStep intN pending sh _ := .signal (by rw [hp]; simp)
    rw [hp] at hstep
    exact hstep

/-! ## What the two threads leave alone -/

/-- Every flag the Hard Reset thread takes or signals. -/
def hrEvents : List Event :=
  [.hardrstReset,.hardrstHardrst,.hardrstHardsent,.hardrstDone,.prlrxReset,.prltxReset,.peReset,
    .peHardSent]

/-- Every other flag keeps its value. -/
theorem HrStep.pending_other {o : Outcome Event HardReset Shared} (h : HrStep hr pending sh o)
    {e : Event} (he : e ∉ hrEvents) : o.pending e=pending e := by
  simp only [hrEvents,List.mem_cons,not_or] at he
  cases h with
  | sent hp hk => exact hk e he.2.2.1
  | _ => simp [he]

/-- Shared memory the Hard Reset thread does not write. -/
structure HrFrame (sh sh' : Shared) : Prop where
  /-- The Policy Engine's mailbox. -/
  peMailbox : sh'.peMailbox=sh.peMailbox
  /-- Protocol TX's mailbox. -/
  txMailbox : sh'.txMailbox=sh.txMailbox
  /-- The PHY. -/
  phy : sh'.phy=sh.phy
  /-- The manager's data. -/
  dpm : sh'.dpm=sh.dpm

theorem HrStep.frame {o : Outcome Event HardReset Shared} (h : HrStep hr pending sh o) :
    HrFrame sh o.shared := by
  cases h <;> exact ⟨rfl,rfl,rfl,rfl⟩

/-- Every flag the polling thread does not signal keeps its value. -/
theorem IntNStep.pending_other {intN : IntN} {o : Outcome Event IntN Shared}
    (h : IntNStep intN pending sh o) {e : Event} (he : e ∉ intNEvents) : o.pending e=pending e := by
  cases h with
  | idle hp => rfl
  | status hp => rfl
  | signal hp =>
    have hn : e ∉ (intNSignals intN.point).1 := fun hm => he (intNSignals_subset _ hm)
    simp [hn]

/-- Shared memory the polling thread does not write. -/
structure IntNFrame (sh sh' : Shared) : Prop where
  /-- The Policy Engine's mailbox. -/
  peMailbox : sh'.peMailbox=sh.peMailbox
  /-- Protocol TX's mailbox. -/
  txMailbox : sh'.txMailbox=sh.txMailbox
  /-- The stored MessageID. -/
  rxMessageid : sh'.rxMessageid=sh.rxMessageid
  /-- The counter of Protocol TX. -/
  txMessageidcounter : sh'.txMessageidcounter=sh.txMessageidcounter
  /-- The manager's data. -/
  dpm : sh'.dpm=sh.dpm

theorem IntNStep.frame {intN : IntN} {o : Outcome Event IntN Shared}
    (h : IntNStep intN pending sh o) : IntNFrame sh o.shared := by
  cases h <;> exact ⟨rfl,rfl,rfl,rfl,rfl⟩

end UsbPdFirmware.HardReset
