import UsbPdFirmware.FifoReaders
import UsbPdFirmware.PolicyEngineMoves
import UsbPdFirmware.Potentials
import UsbPdFirmware.StoppedThreads

/-!
# The work of the threads

The threads call one another by flags, so one interrupt sets off a chain of
actions: the polling thread, Protocol RX, the Policy Engine, Protocol TX, and on
failures another message or a hard reset. No such chain feeds itself. What an
input sets off is bounded, in every interleaving.
-/

namespace UsbPdFirmware.BoundedWork

open PdMessage DevicePolicy LabelledRuns Machine EventThreads FirmwareState FirmwareSystem
open PolicyEngine ProtocolRx ProtocolTx HardReset PolicyEngineMoves FifoReaders
open Potentials StoppedThreads

instance : Fintype Event where
  elems := {.peReset,.peMsgRx,.peTxDone,.peTxErr,.peHardSent,.peOvrTemp,.pePpsRequest,
    .peGetSourceCap,.peNewPower,.prlrxReset,.prlrxGcrcsent,.prltxReset,.prltxTxsent,
    .prltxRetryfail,.prltxDiscard,.prltxMsgTx,.prltxStartAms,.hardrstReset,.hardrstHardrst,
    .hardrstHardsent,.hardrstDone}
  complete e := by cases e <;> decide

/-! ## What flags and locals are worth -/

/-- The work a flag can cause. A result of Protocol TX causes none: the Policy
Engine that waits for it has that work ahead anyway. -/
def eventWorth : Event → ℕ
  | .peTxDone => 0
  | .peTxErr => 0
  | .prltxStartAms => 0
  | .prlrxReset => 1
  | .hardrstDone => 2
  | .prltxReset => 3
  | .prltxRetryfail => 3
  | .prltxDiscard => 4
  | .prltxTxsent => 5
  | .prltxMsgTx => 10
  | .hardrstReset => 10
  | .hardrstHardsent => 44
  | .hardrstHardrst => 52
  | .prlrxGcrcsent => 61
  | _ => 42

/-- The work of a sending state after its transmission. Not_Supported is
followed by Soft_Reset when it fails, and any other message by a hard reset. -/
def sentRank (state : PolicyEngineState) : ℕ := if state=.sinkSendNotSupported then 26 else 12

/-- The work from the start of a state function to the next wait. -/
def startRank : PolicyEngineState → ℕ
  | .sinkStartup => 2
  | .sinkDiscovery => 1
  | .sinkEvalCap => 26
  | .sinkHardReset => 11
  | .sinkTransitionDefault => 6
  | .sinkNotSupportedReceived => 1
  | .sinkSelectCap => 25
  | .sinkGetSourceCap => 25
  | .sinkGiveSinkCap => 25
  | .sinkSoftReset => 25
  | .sinkSendSoftReset => 25
  | .sinkSendNotSupported => 39
  | _ => 0

/-- The same from any point. -/
def peRank (pe : PolicyEngine) : ℕ :=
  match pe.point with
  | .start => startRank pe.state
  | .dropMessage => 28
  | .startAms _ => 27
  | .signalTx => sentRank pe.state+12
  | .waitTx => sentRank pe.state+1
  | .sent _ => sentRank pe.state
  | .waitResponse => 0
  | .fetch => 41
  | .handle => 40
  | .waitHardSent => 0
  | .signalDone => 5

/-- The work of Protocol RX. -/
def rxRank (rx : ProtocolRx) : ℕ :=
  match rx.point with
  | .waitPhy => 0
  | .readPhy => 60
  | .resetCounter => 59
  | .resetStoredId => 58
  | .resetSignalTx => 57
  | .resetPoll => 53
  | .checkPoll => 52
  | .checkCompare => 51
  | .dropMessage => 1
  | .storeSignalTx => 50
  | .storeMessageid => 45
  | .storePost => 44
  | .storeSignalPe => 43

/-- The work of Protocol TX. -/
def txRank (tx : ProtocolTx) : ℕ :=
  match tx.point with
  | .phyReset => 2
  | .phyResetReport => 1
  | .waitMessage => 0
  | .fetchMessage => 9
  | .resetCounter => 8
  | .resetSignalRx => 7
  | .constructPoll => 5
  | .constructHeader => 4
  | .constructAms => 3
  | .constructSinkTxOk => 2
  | .constructSend => 1
  | .waitResponse => 0
  | .matchRead => 4
  | .matchCompare _ => 3
  | .transmissionError => 2
  | .transmissionErrorSignal => 1
  | .messageSent => 2
  | .messageSentSignal => 1
  | .discardMessage => 3

/-- The work of the Hard Reset thread. A reset that the PHY received goes on to
the Policy Engine. -/
def hrRank (hr : HardReset) : ℕ :=
  match hr.point with
  | .resetLayer => 0
  | .resetRxMessageid byPe => if byPe then 9 else 51
  | .resetTxCounter byPe => if byPe then 8 else 50
  | .resetSignalRx byPe => if byPe then 7 else 49
  | .resetSignalTx byPe => if byPe then 5 else 47
  | .indicateHardReset => 43
  | .requestHardReset => 1
  | .waitPhy => 0
  | .hardResetRequested => 43
  | .waitPe => 0
  | .complete => 1

/-- What a raised interrupt sets off at Protocol RX. -/
def rxWorth (i : Interrupts) : ℕ := if i.gcrcsent then 61 else 0

/-- At Protocol TX. -/
def txWorth (i : Interrupts) : ℕ := (if i.retryfail then 3 else 0)+if i.txsent then 5 else 0

/-- At the Hard Reset thread. -/
def hardResetWorth (i : Interrupts) : ℕ := (if i.hardrst then 52 else 0)+if i.hardsent then 44 else 0

/-- At the Policy Engine. -/
def peWorth (i : Interrupts) : ℕ := if i.ocpTemp then 42 else 0

/-- The work of the polling thread, with what it has to pass on. -/
def intNRank (intN : IntN) : ℕ :=
  match intN.point with
  | .poll => 0
  | .signalRx i _ => 4+rxWorth i+txWorth i+hardResetWorth i+peWorth i
  | .signalTx i _ => 3+txWorth i+hardResetWorth i+peWorth i
  | .signalHardReset i _ => 2+hardResetWorth i+peWorth i
  | .signalPe i _ => 1+peWorth i

/-- The work that raised interrupts will cause. -/
def interruptWorth (i : Interrupts) : ℕ :=
  if i.any then 5+rxWorth i+txWorth i+hardResetWorth i+peWorth i else 0

/-- The Policy Engine has fallen back to Type-C Current, which it polls. -/
def PollsTypec (pe : PolicyEngine) : Prop := pe.point=.start ∧ pe.state=.sinkSourceUnresponsive

instance (pe : PolicyEngine) : Decidable (PollsTypec pe) := inferInstanceAs (Decidable (_ ∧ _))

/-- All the work ahead. -/
def workAhead (s : System) : ℕ :=
  worth eventWorth s.pending+peRank s.pe+rxRank s.rx+txRank s.tx+hrRank s.hr+intNRank s.intN+
    interruptWorth s.shared.phy.interrupts

/-! ## The threads pay for what they do -/

section Pays

variable {pending : Event → Bool} {sh : Shared}

theorem rx_pays {rx : ProtocolRx} {o : Outcome Event ProtocolRx Shared} (h : RxStep rx pending sh o) :
    worth eventWorth o.pending+rxRank o.loc+1 ≤ worth eventWorth pending+rxRank rx := by
  cases h with
  | heedReset hp hr => exact paid_by_flag .prlrxReset (by decide) hr (by simp [rxRank,hp,eventWorth])
  | heedGcrcsent hp hr hg =>
    exact paid_by_flag .prlrxGcrcsent (by decide) hg (by simp [rxRank,hp,eventWorth])
  | pollOn hp hr =>
    rcases hp with hp | hp <;> exact paid_by_poll _ (by simp [rxRank,hp])
  | pollReset hp hr =>
    rcases hp with hp | hp <;> exact paid_by_poll _ (by simp [rxRank,hp])
  | resetSignalTx hp => exact paid_by_signal _ (by simp [rxRank,hp,listed,eventWorth])
  | storeSignalTx hp => exact paid_by_signal _ (by simp [rxRank,hp,listed,eventWorth])
  | storeSignalPe hp => exact paid_by_signal _ (by simp [rxRank,hp,listed,eventWorth])
  | read hp hb =>
    dsimp only
    split <;> simp [rxRank,hp]
  | _ hp => simp [rxRank,hp]

theorem tx_pays {tx : ProtocolTx} {o : Outcome Event ProtocolTx Shared} (h : TxStep tx pending sh o)
    (hbusy : tx.point=.constructSinkTxOk → sh.phy.bcLvl=fusbSinkTxOk) :
    worth eventWorth o.pending+txRank o.loc+1 ≤ worth eventWorth pending+txRank tx := by
  cases h with
  | report hr =>
    rcases reportedBy_cases hr with ⟨hp,-,rfl⟩ | ⟨hp,rfl⟩ | ⟨hp,rfl⟩ <;>
      exact paid_by_signal _ (by simp [txRank,hp,listed,eventWorth])
  | heedReset hp hr =>
    refine paid_by_flag .prltxReset hp hr ?_
    rcases interruptMask_point hp with hp | hp | hp <;> simp [txRank,hp,eventWorth]
  | heedDiscard hp hr hd =>
    refine paid_by_flag .prltxDiscard hp hd ?_
    rcases interruptMask_point hp with hp | hp | hp <;> simp [txRank,hp,eventWorth]
  | heedMsgTx hp hr hd hm =>
    exact paid_by_flag .prltxMsgTx (by decide) hm (by simp [txRank,hp,eventWorth])
  | heedTxsent hp hr hd ht =>
    exact paid_by_flag .prltxTxsent (by decide) ht (by simp [txRank,hp,eventWorth])
  | heedRetryfail hp hr hd ht hf =>
    exact paid_by_flag .prltxRetryfail (by decide) hf (by simp [txRank,hp,eventWorth])
  | resetSignalRx hp => exact paid_by_signal _ (by simp [txRank,hp,listed,eventWorth])
  | constructOn hp hr hd => exact paid_by_poll _ (by simp [txRank,hp])
  | constructAms hp => exact paid_by_poll _ (by split <;> simp [txRank,hp])
  | constructSinkTxOk hp =>
    rw [if_pos (hbusy hp)]
    simp [txRank,hp]
  | fetch hp =>
    dsimp only
    split <;> simp [txRank,hp]
  | constructHeader hp hm =>
    dsimp only
    split <;> simp [txRank,hp]
  | matchCompare hp =>
    dsimp only
    split <;> simp [txRank,hp]
  | _ hp => simp [txRank,hp]

theorem hr_affordable (hr : HardReset) : Affordable eventWorth hrRank hr (hardReset hr) := by
  obtain ⟨point⟩ := hr
  cases point with
  | resetLayer =>
    intro evt hmask hne
    by_cases hr : .hardrstReset ∈ evt
    · exact ⟨_,hr,by simp [hrRank,hr,eventWorth]⟩
    · obtain ⟨e,he⟩ := List.exists_mem_of_ne_nil evt hne
      have hmem := hmask he
      simp only [List.mem_cons,List.not_mem_nil,or_false] at hmem
      rcases hmem with rfl | rfl
      · exact absurd he hr
      · exact ⟨_,he,by simp [hrRank,hr,eventWorth]⟩
  | waitPhy =>
    intro evt hmask hne
    obtain ⟨e,he⟩ := List.exists_mem_of_ne_nil evt hne
    rw [List.mem_singleton.mp (hmask he)] at he
    exact ⟨_,he,by simp [hrRank,eventWorth]⟩
  | waitPe =>
    intro evt hmask hne
    obtain ⟨e,he⟩ := List.exists_mem_of_ne_nil evt hne
    rw [List.mem_singleton.mp (hmask he)] at he
    exact ⟨_,he,by simp [hrRank,eventWorth]⟩
  | resetSignalRx byPe => cases byPe <;> simp [hardReset,Affordable,hrRank,listed,eventWorth]
  | resetSignalTx byPe =>
    cases byPe <;> simp [hardReset,Affordable,hrRank,resetLayerNext,listed,eventWorth]
  | indicateHardReset => simp [hardReset,Affordable,hrRank,listed,eventWorth]
  | hardResetRequested => simp [hardReset,Affordable,hrRank,listed,eventWorth]
  | resetRxMessageid byPe =>
    intro sh sh' next he
    cases he
    cases byPe <;> decide
  | resetTxCounter byPe =>
    intro sh sh' next he
    cases he
    cases byPe <;> decide
  | requestHardReset =>
    intro sh sh' next he
    cases he
    decide
  | complete =>
    intro sh sh' next he
    cases he
    decide

theorem listed_append (events events' : List Event) :
    listed eventWorth (events++events')=listed eventWorth events+listed eventWorth events' := by
  induction events with
  | nil => simp [listed]
  | cons e events ih => simp [listed,ih,Nat.add_assoc]

/-- What an event, if its interrupt is raised, is worth. -/
theorem listed_whenSet (b : Bool) (e : Event) :
    listed eventWorth (whenSet b e)=if b then eventWorth e else 0 := by
  cases b <;> simp [whenSet,listed]

/-- Passing interrupts on is paid for by what they are worth. -/
theorem intNSignals_paid {intN : IntN} (hp : intN.point≠.poll) :
    intNRank ⟨(intNSignals intN.point).2⟩+listed eventWorth (intNSignals intN.point).1+1 ≤
      intNRank intN := by
  obtain ⟨point⟩ := intN
  cases point with
  | poll => exact absurd rfl hp
  | signalRx i ovrTemp =>
    simp only [intNSignals,intNRank,listed_whenSet,rxWorth,eventWorth]
    omega
  | signalTx i ovrTemp =>
    simp only [intNSignals,intNRank,listed_append,listed_whenSet,txWorth,eventWorth]
    omega
  | signalHardReset i ovrTemp =>
    simp only [intNSignals,intNRank,listed_append,listed_whenSet,hardResetWorth,eventWorth]
    omega
  | signalPe i ovrTemp =>
    simp only [intNSignals,intNRank,listed_whenSet,peWorth,eventWorth]
    cases i.ocpTemp <;> cases ovrTemp <;> decide

theorem intN_pays {intN : IntN} {o : Outcome Event IntN Shared}
    (h : (intNPoll intN).perform false pending sh=some o)
    (hbusy : intN.point=.poll → sh.phy.interrupts.any=true) :
    worth eventWorth o.pending+intNRank o.loc+interruptWorth o.shared.phy.interrupts+1 ≤
      worth eventWorth pending+intNRank intN+interruptWorth sh.phy.interrupts := by
  by_cases hp : intN.point=.poll
  · -- All raised interrupts are read at once.
    have hany := hbusy hp
    unfold intNPoll at h
    rw [hp] at h
    obtain ⟨-,sh',next,he,rfl⟩ := Action.perform_access.mp h
    rw [if_pos hany] at he
    cases he
    have hnone : interruptWorth .none=0 := rfl
    have hrank : intNRank intN=0 := by simp [intNRank,hp]
    dsimp only
    rw [hnone,hrank,interruptWorth,if_pos hany,intNRank]
    dsimp only
    omega
  · cases intNPoll_step h with
    | idle hp' => exact absurd hp' hp
    | status hp' => exact absurd hp' hp
    | signal hp' =>
      have hworth := worth_raise (w := eventWorth) (intNSignals intN.point).1 pending
      have hpaid := intNSignals_paid hp
      dsimp only
      omega

end Pays

/-! ## The Policy Engine pays for what it does -/

/-- The longest way to the next wait that begins with a state function. -/
theorem startRank_le (state : PolicyEngineState) : startRank state ≤ 39 := by
  cases state <;> decide

section Affordable

variable {pe : PolicyEngine}

@[simp] theorem peRank_goto (pe : PolicyEngine) (state : PolicyEngineState) :
    peRank (goto pe state)=startRank state := rfl

@[simp] theorem peRank_fetch (pe : PolicyEngine) : peRank (PolicyEngine.at_ pe .fetch)=41 := rfl

@[simp] theorem peRank_waitResponse (pe : PolicyEngine) :
    peRank (PolicyEngine.at_ pe .waitResponse)=0 := rfl

@[simp] theorem peRank_startAms (pe : PolicyEngine) (next : AmsState) :
    peRank (PolicyEngine.at_ pe (.startAms next))=27 := rfl

@[simp] theorem peRank_dropMessage (pe : PolicyEngine) :
    peRank (PolicyEngine.at_ pe .dropMessage)=28 := rfl

theorem peRank_start (hp : pe.point=.start) : peRank pe=startRank pe.state := by
  rw [peRank,hp]

/-- Every flag that can wake the Policy Engine outside an exchange pays for the
longest way to its next wait. -/
theorem wait_affordable {mask : List Event} {timed : Bool} {resume : List Event → PolicyEngine}
    (hm : ∀ e ∈ mask, eventWorth e=42) (hr : ∀ evt, peRank (resume evt) ≤ 41) :
    Affordable eventWorth peRank pe (.wait mask timed resume : PeAction) := by
  intro evt hmask hne
  obtain ⟨e,he⟩ := List.exists_mem_of_ne_nil evt hne
  have hworth := hm e (hmask he)
  have hrank := hr evt
  exact ⟨e,he,by omega⟩

theorem compute_affordable {next : PolicyEngine} (h : peRank next+1 ≤ peRank pe) :
    Affordable eventWorth peRank pe (.compute next : PeAction) := by
  intro sh sh' pe' he
  cases he
  exact h

theorem sendNew_affordable {build : Shared → PdMsg → PdMsg} (h : sentRank pe.state+13 ≤ peRank pe) :
    Affordable eventWorth peRank pe (sendNew pe build) := by
  refine affordable_access fun sh o ho => ?_
  obtain ⟨m,pool,-,rfl⟩ := sendNew_perform ho
  exact h

theorem twelve_le_sentRank (state : PolicyEngineState) : 12 ≤ sentRank state := by
  unfold sentRank
  split <;> decide

theorem freeSent_affordable {result : TxResult} {onFailure onDone : PolicyEngine → PolicyEngine}
    (hp : pe.point=.sent result)
    (hf : ∀ pe', peRank (onFailure pe')+1 ≤ sentRank pe.state)
    (hd : ∀ pe', peRank (onDone pe')+1 ≤ sentRank pe.state) :
    Affordable eventWorth peRank pe (freeSent pe result onFailure onDone) := by
  have hrank : peRank pe=sentRank pe.state := by
    rw [peRank,hp]
  have hleast := twelve_le_sentRank pe.state
  intro sh sh' next he
  rw [hrank]
  cases result <;> cases he
  case reset =>
    change 6+1 ≤ _
    omega
  case failed => exact hf _
  case done => exact hd _

/-- What follows a transmission. -/
theorem afterSent_affordable {result : TxResult} (hp : pe.point=.sent result) :
    Affordable eventWorth peRank pe (afterSent pe result) := by
  unfold afterSent
  cases hs : pe.state
  case sinkSelectCap =>
    have hrank : peRank pe=12 := by
      rw [peRank,hp,hs]
      rfl
    intro sh sh' next he
    rw [hrank]
    cases result <;> cases he <;> simp [startRank]
  case sinkSoftReset =>
    exact freeSent_affordable hp (by simp [hs,sentRank,startRank]) (by simp [hs,sentRank,startRank])
  case sinkSendSoftReset =>
    exact freeSent_affordable hp (by simp [hs,sentRank,startRank]) (by simp [hs,sentRank])
  case sinkSendNotSupported =>
    exact freeSent_affordable hp (by simp [hs,sentRank,startRank]) (by simp [hs,sentRank,startRank])
  case sinkGetSourceCap =>
    exact freeSent_affordable hp (by simp [hs,sentRank,startRank]) (by simp [hs,sentRank,startRank])
  case sinkGiveSinkCap =>
    exact freeSent_affordable hp (by simp [hs,sentRank,startRank]) (by simp [hs,sentRank,startRank])
  all_goals exact fun _ _ _ he => by cases he

/-- Giving up costs less than another hard reset. -/
theorem hardReset_affordable (h : 11 ≤ peRank pe) :
    Affordable eventWorth peRank pe (peSinkHardReset pe) := by
  unfold peSinkHardReset
  split
  · exact compute_affordable (Nat.le_trans (by simp [startRank]) h)
  · exact h

/-- The first action of every state function but the one that polls the Type-C
Current. -/
theorem stateFunction_affordable (hp : pe.point=.start) (hbusy : pe.state≠.sinkSourceUnresponsive) :
    Affordable eventWorth peRank pe (stateFunction pe) := by
  have hrank := peRank_start hp
  unfold stateFunction
  cases hs : pe.state <;> rw [hs] at hrank
  case sinkStartup => exact compute_affordable (by simp [hrank,startRank])
  case sinkDiscovery => exact compute_affordable (by simp [hrank,startRank])
  case sinkNotSupportedReceived => exact compute_affordable (by simp [hrank,startRank])
  case sinkWaitCap =>
    refine wait_affordable (by decide) fun evt => ?_
    split_ifs <;> simp [startRank]
  case sinkTransitionSink =>
    refine wait_affordable (by decide) fun evt => ?_
    split_ifs <;> simp [startRank]
  case sinkReady =>
    refine wait_affordable (by decide) fun evt => ?_
    split_ifs <;> simp [startRank]
  case sinkChunkReceived =>
    refine wait_affordable (by decide) fun evt => ?_
    split_ifs <;> simp [startRank]
  case sinkEvalCap =>
    refine affordable_access fun sh o ho => ?_
    obtain ⟨request,ppsIndex,lastPps,pool,-,rfl⟩ := peSinkEvalCap_perform ho
    simp [hrank,startRank]
  case sinkSelectCap =>
    refine affordable_access fun sh o ho => ?_
    obtain ⟨m,-,rfl⟩ := peSinkSelectCap_perform ho
    change sentRank pe.state+12+1 ≤ _
    simp [hrank,hs,startRank,sentRank]
  case sinkHardReset => exact hardReset_affordable (by simp [hrank,startRank])
  case sinkTransitionDefault =>
    intro sh sh' next he
    cases he
    change 5+1 ≤ _
    simp [hrank,startRank]
  case sinkSourceUnresponsive => exact absurd hs hbusy
  all_goals exact sendNew_affordable (by simp [hrank,hs,startRank,sentRank])

/-- Every action of the Policy Engine but that poll. -/
theorem pe_affordable (hbusy : ¬PollsTypec pe) :
    Affordable eventWorth peRank pe (policyEngine pe) := by
  unfold policyEngine
  cases hp : pe.point with
  | start => exact stateFunction_affordable hp fun hs => hbusy ⟨hp,hs⟩
  | dropMessage =>
    intro sh sh' next he
    cases he
    simp [peRank,hp,PolicyEngine.at_]
  | startAms next =>
    have hall : ∀ state ∈ [PolicyEngineState.sinkGetSourceCap,.sinkEvalCap,.sinkSelectCap],
        startRank state ≤ 26 := by decide
    have hnext := hall next.val next.property
    have hrank : peRank pe=27 := by rw [peRank,hp]
    change startRank next.val+0+1 ≤ _
    omega
  | signalTx =>
    have hrank : peRank pe=sentRank pe.state+12 := by rw [peRank,hp]
    change sentRank pe.state+1+10+1 ≤ _
    omega
  | waitTx =>
    have hrank : peRank pe=sentRank pe.state+1 := by rw [peRank,hp]
    intro evt hmask hne
    obtain ⟨e,he⟩ := List.exists_mem_of_ne_nil evt hne
    refine ⟨e,he,?_⟩
    change sentRank pe.state+1 ≤ _
    omega
  | sent result => exact afterSent_affordable hp
  | waitResponse =>
    refine wait_affordable (by decide) fun evt => ?_
    split_ifs <;> simp [startRank]
  | fetch =>
    refine affordable_access fun sh o ho => ?_
    have hrank : peRank pe=41 := by rw [peRank,hp]
    rcases fetchMessage_perform ho with ⟨-,rfl⟩ | ⟨m,rest,-,rfl⟩
    · have hstart := startRank_le (emptyFetch pe.state)
      rw [peRank_goto]
      omega
    · change 40+1 ≤ _
      omega
  | handle =>
    have hrank : peRank pe=40 := by rw [peRank,hp]
    cases hm : pe.message with
    | none => exact fun _ _ _ he => by cases he
    | some m =>
      intro sh sh' next he
      have hstart := startRank_le next.state
      rw [hrank,peRank_start (handleMessage_start he)]
      omega
  | waitHardSent => exact wait_affordable (by decide) fun evt => by simp [startRank]
  | signalDone =>
    have hrank : peRank pe=5 := by rw [peRank,hp]
    change 2+2+1 ≤ _
    omega

end Affordable

/-! ## The firmware -/

/-- Something comes in from outside: the PHY reports, the user asks, or time
runs out. -/
def stimulates : Label → Bool
  | .peTimeout => true
  | .hrTimeout => true
  | .env (.sourceMessage _) => true
  | .env (.goodcrc _) => true
  | .env .retryfail => true
  | .env .hardrst => true
  | .env .hardsent => true
  | .env (.ocpTemp _) => true
  | .env .ppsTimer => true
  | .env .newPower => true
  | .env .getSourceCap => true
  | _ => false

/-- A thread works. It does not while it only looks whether there is something
to do: the polling thread at a quiet line, Protocol TX before it may transmit,
and the Policy Engine at the Type-C Current. -/
def works (s : System) : Label → Bool
  | .pe => decide (¬PollsTypec s.pe)
  | .rx => true
  | .tx => match s.tx.point with
    | .constructSinkTxOk => decide (s.shared.phy.bcLvl=fusbSinkTxOk)
    | _ => true
  | .hr => true
  | .intN => match s.intN.point with
    | .poll => s.shared.phy.interrupts.any
    | _ => true
  | _ => false

/-- What a step costs. -/
def stepCost (s : System) (l : Label) : ℕ := if works s l then 1 else 0

/-- What a step brings in. -/
def stimulus (_ : System) (l : Label) : ℕ := if stimulates l then 1 else 0

/-- What that is worth. -/
def income (l : Label) : ℕ := if stimulates l then 66 else 0

/-- Another raised interrupt. -/
theorem interruptWorth_raised (i : Interrupts) :
    interruptWorth {i with gcrcsent := true} ≤ interruptWorth i+66 ∧
    interruptWorth {i with txsent := true} ≤ interruptWorth i+66 ∧
    interruptWorth {i with retryfail := true} ≤ interruptWorth i+66 ∧
    interruptWorth {i with hardrst := true} ≤ interruptWorth i+66 ∧
    interruptWorth {i with hardsent := true} ≤ interruptWorth i+66 ∧
    interruptWorth {i with ocpTemp := true} ≤ interruptWorth i+66 := by
  obtain ⟨gcrcsent,retryfail,txsent,hardrst,hardsent,ocpTemp⟩ := i
  revert gcrcsent retryfail txsent hardrst hardsent ocpTemp
  decide

/-- Another flag of the user. -/
theorem workAhead_signalled (s : System) {e : Event} (he : eventWorth e=42) :
    workAhead (s.signalled e) ≤ workAhead s+66 := by
  have hworth := worth_raise (w := eventWorth) [e] s.pending
  rw [listed,listed,he] at hworth
  simp only [workAhead,System.signalled]
  omega

/-- Another PHY. -/
theorem workAhead_withPhy {s : System} {phy : Phy} {n : ℕ}
    (h : interruptWorth phy.interrupts ≤ interruptWorth s.shared.phy.interrupts+n) :
    workAhead (s.withPhy phy) ≤ workAhead s+n := by
  simp only [workAhead,System.withPhy]
  omega

/-- What comes in is paid for, and nothing else of the environment costs. -/
theorem environment_paid {e : Environment} {s s' : System} (h : environment e s=some s') :
    workAhead s' ≤ workAhead s+income (.env e) := by
  obtain ⟨hgcrcsent,htxsent,hretryfail,hhardrst,hhardsent,hocpTemp⟩ :=
    interruptWorth_raised s.shared.phy.interrupts
  cases e with
  | ppsTimer =>
    simp only [environment,Option.ite_none_right_eq_some,Option.some.injEq] at h
    obtain ⟨-,rfl⟩ := h
    exact workAhead_signalled s rfl
  | newPower =>
    cases h
    exact workAhead_signalled s rfl
  | getSourceCap =>
    cases h
    exact workAhead_signalled s rfl
  | sourceMessage m =>
    cases h
    exact workAhead_withPhy hgcrcsent
  | goodcrc m =>
    cases h
    exact workAhead_withPhy htxsent
  | retryfail =>
    cases h
    exact workAhead_withPhy hretryfail
  | hardrst =>
    cases h
    exact workAhead_withPhy hhardrst
  | hardsent =>
    cases h
    exact workAhead_withPhy hhardsent
  | ocpTemp ovrTemp =>
    cases h
    exact workAhead_withPhy hocpTemp
  | _ =>
    cases h
    exact Nat.le_add_right (workAhead s) _

/-- Where a wait of the Policy Engine or the Hard Reset thread expires, the way
to the next one is paid for. -/
theorem peRank_le (pe : PolicyEngine) : peRank pe ≤ 41 := by
  have hstart := startRank_le pe.state
  have hsent : sentRank pe.state ≤ 26 := by
    unfold sentRank
    split <;> decide
  unfold peRank
  split <;> omega

theorem hrRank_le (hr : HardReset) : hrRank hr ≤ 51 := by
  unfold hrRank
  split <;> (try split) <;> decide

section Step

variable {s : System}

theorem pe_paid {o : Outcome Event PolicyEngine Shared}
    (ho : (policyEngine s.pe).perform false s.pending s.shared=some o) :
    workAhead (s.withPe o)+stepCost s .pe ≤ workAhead s := by
  have hphy := (policyEngine_move ho).frame.phy
  by_cases hpoll : PollsTypec s.pe
  · have hidle : stepCost s .pe=0 := by simp [stepCost,works,hpoll]
    have hrank : peRank s.pe=0 := by rw [peRank_start hpoll.1,hpoll.2]; rfl
    rw [policyEngine,hpoll.1] at ho
    dsimp only at ho
    rw [stateFunction,hpoll.2] at ho
    obtain ⟨-,sh',next,he,rfl⟩ := Action.perform_access.mp ho
    cases he
    simp only [workAhead,System.withPe,hidle,hrank,peRank_goto,startRank]
    omega
  · have hpaid := (pe_affordable hpoll).perform ho
    have hwork : stepCost s .pe=1 := by simp [stepCost,works,hpoll]
    simp only [workAhead,System.withPe,hphy,hwork]
    omega

theorem rx_paid {o : Outcome Event ProtocolRx Shared} (h : RxStep s.rx s.pending s.shared o) :
    workAhead (s.withRx o)+stepCost s .rx ≤ workAhead s := by
  have hpaid := rx_pays h
  have hwork : stepCost s .rx=1 := rfl
  simp only [workAhead,System.withRx,(takes_rx h).interrupts,hwork]
  omega

theorem tx_paid {o : Outcome Event ProtocolTx Shared} (h : TxStep s.tx s.pending s.shared o) :
    workAhead (s.withTx o)+stepCost s .tx ≤ workAhead s := by
  by_cases hwait : s.tx.point=.constructSinkTxOk ∧ s.shared.phy.bcLvl≠fusbSinkTxOk
  · have hidle : stepCost s .tx=0 := by
      rw [stepCost,works,hwait.1]
      simp [hwait.2]
    have hstay : o=⟨s.pending,s.tx,s.shared⟩ := by
      cases h with
      | constructSinkTxOk hp => rw [if_neg hwait.2]
      | report hr =>
        rw [reportedBy,hwait.1] at hr
        cases hr
      | heedReset hp hr => exact absurd hp (by rw [hwait.1]; decide)
      | heedDiscard hp hr hd => exact absurd hp (by rw [hwait.1]; decide)
      | _ hp => exact absurd (hwait.1.symm.trans hp) (by simp)
    rw [hstay,hidle,Nat.add_zero]
    exact Nat.le_refl (workAhead s)
  · have hpaid := tx_pays h fun hp => by
      by_contra hlvl
      exact hwait ⟨hp,hlvl⟩
    have hcost : stepCost s .tx ≤ 1 := by
      unfold stepCost
      split <;> decide
    simp only [workAhead,System.withTx,(takes_tx h).interrupts]
    omega

theorem hr_paid {o : Outcome Event HardReset Shared}
    (ho : (hardReset s.hr).perform false s.pending s.shared=some o) :
    workAhead (s.withHr o)+stepCost s .hr ≤ workAhead s := by
  have hpaid := (hr_affordable s.hr).perform ho
  have hwork : stepCost s .hr=1 := rfl
  simp only [workAhead,System.withHr,(hardReset_step ho).frame.phy,hwork]
  omega

theorem intN_paid {o : Outcome Event IntN Shared}
    (ho : (intNPoll s.intN).perform false s.pending s.shared=some o) :
    workAhead (s.withIntN o)+stepCost s .intN ≤ workAhead s := by
  by_cases hquiet : s.intN.point=.poll ∧ s.shared.phy.interrupts.any=false
  · have hidle : stepCost s .intN=0 := by
      rw [stepCost,works,hquiet.1]
      simp [hquiet.2]
    rw [intNPoll,hquiet.1] at ho
    obtain ⟨-,sh',next,he,rfl⟩ := Action.perform_access.mp ho
    rw [if_neg (by simp [hquiet.2])] at he
    cases he
    simp only [workAhead,System.withIntN,hidle,intNRank]
    omega
  · have hpaid := intN_pays ho fun hp => by
      by_contra hany
      exact hquiet ⟨hp,Bool.eq_false_iff.mpr hany⟩
    have hcost : stepCost s .intN ≤ 1 := by
      unfold stepCost
      split <;> decide
    simp only [workAhead,System.withIntN]
    omega

/-- A wait of the Policy Engine that expires. -/
theorem peTimeout_paid {o : Outcome Event PolicyEngine Shared}
    (ho : (policyEngine s.pe).perform true s.pending s.shared=some o) :
    workAhead (s.withPe o) ≤ workAhead s+66 := by
  have hrank := peRank_le o.loc
  simp only [workAhead,System.withPe,(policyEngine_move ho).frame.phy,expired_pending ho]
  omega

theorem hrTimeout_paid {o : Outcome Event HardReset Shared}
    (ho : (hardReset s.hr).perform true s.pending s.shared=some o) :
    workAhead (s.withHr o) ≤ workAhead s+66 := by
  have hrank := hrRank_le o.loc
  simp only [workAhead,System.withHr,(hardReset_step ho).frame.phy,expired_pending ho]
  omega

end Step

/-- Every step is paid for. -/
theorem step_paid (s : System) (l : Label) (s' : System) (h : firmware.step l s=some s') :
    workAhead s'+stepCost s l ≤ workAhead s+income l := by
  change act l s=some s' at h
  cases l with
  | pe =>
    obtain ⟨o,ho,rfl⟩ := Option.map_eq_some_iff.mp h
    exact (pe_paid ho).trans (Nat.le_add_right _ _)
  | rx =>
    obtain ⟨o,ho,rfl⟩ := Option.map_eq_some_iff.mp h
    exact (rx_paid (protocolRx_step ho)).trans (Nat.le_add_right _ _)
  | tx =>
    obtain ⟨o,ho,rfl⟩ := Option.map_eq_some_iff.mp h
    exact (tx_paid (protocolTx_step ho)).trans (Nat.le_add_right _ _)
  | hr =>
    obtain ⟨o,ho,rfl⟩ := Option.map_eq_some_iff.mp h
    exact (hr_paid ho).trans (Nat.le_add_right _ _)
  | intN =>
    obtain ⟨o,ho,rfl⟩ := Option.map_eq_some_iff.mp h
    exact (intN_paid ho).trans (Nat.le_add_right _ _)
  | peTimeout =>
    obtain ⟨o,ho,rfl⟩ := Option.map_eq_some_iff.mp h
    have hcost : stepCost s .peTimeout=0 := rfl
    have hcredit : income .peTimeout=66 := rfl
    rw [hcost,hcredit,Nat.add_zero]
    exact peTimeout_paid ho
  | hrTimeout =>
    obtain ⟨o,ho,rfl⟩ := Option.map_eq_some_iff.mp h
    have hcost : stepCost s .hrTimeout=0 := rfl
    have hcredit : income .hrTimeout=66 := rfl
    rw [hcost,hcredit,Nat.add_zero]
    exact hrTimeout_paid ho
  | env e =>
    have hcost : stepCost s (.env e)=0 := rfl
    rw [hcost,Nat.add_zero]
    exact environment_paid h

/-- In every interleaving, however long, the threads take at most 66 steps for
everything that came in, and four to begin with. -/
theorem work_bounded {p : System × Account}
    (h : (firmware.observe ⟨0,0⟩ (Account.enter stepCost stimulus)).Reach anyStep p) :
    p.2.spent ≤ 66*p.2.granted+4 := by
  have hstep (s : System) (l : Label) (s' : System) (h : firmware.step l s=some s') :
      workAhead s'+stepCost s l ≤ workAhead s+66*stimulus s l := by
    have hincome : income l=66*stimulus s l := by
      unfold income stimulus
      split <;> rfl
    rw [← hincome]
    exact step_paid s l s' h
  have hpaid := spent_le hstep h
  have hstart : workAhead firmware.start=4 := by decide
  omega

/-- Capabilities arrive after the threads have reached their first waits, and
are passed on to the Policy Engine. -/
theorem work_bounded_delivered : ∃ p : System × Account,
    (firmware.observe ⟨0,0⟩ (Account.enter stepCost stimulus)).Reach anyStep p ∧
      p.2.granted=1 ∧ p.2.spent=21 ∧ p.2.spent ≤ 66*1+4 := by
  obtain ⟨p,hr,hp⟩ := exists_reach_of_follow
    (firmware.observe ⟨0,0⟩ (Account.enter stepCost stimulus)) anyStep
    (powerUp++deliver (sourceCapabilities 0)) (fun p => decide (p.2.granted=1 ∧ p.2.spent=21))
    (by decide +kernel)
  obtain ⟨hgranted,hspent⟩ := of_decide_eq_true hp
  have hbound := work_bounded hr
  rw [hgranted] at hbound
  exact ⟨p,hr,hgranted,hspent,hbound⟩

/-! ## Rest -/

/-- No thread has anything to do. What a thread cannot go on from is in every
run an allocation (`StopsForBlocks`). -/
structure AtRest (s : System) : Prop where
  /-- All interrupts have been passed on. -/
  intN : s.intN.point=.poll ∧ s.shared.phy.interrupts.any=false
  /-- The Hard Reset thread waits. -/
  hr : Waiting s.pending (hardReset s.hr)
  /-- Protocol RX waits, or cannot go on. -/
  rx : Waiting s.pending (protocolRx s.rx) ∨ Undefined s.shared (protocolRx s.rx)
  /-- So does Protocol TX, or it waits for permission to transmit. -/
  tx : Waiting s.pending (protocolTx s.tx) ∨ Undefined s.shared (protocolTx s.tx) ∨
    s.tx.point=.constructSinkTxOk ∧ s.shared.phy.bcLvl≠fusbSinkTxOk
  /-- So does the Policy Engine, or it is left with Type-C Current. -/
  pe : Waiting s.pending (policyEngine s.pe) ∨ Undefined s.shared (policyEngine s.pe) ∨ PollsTypec s.pe

/-- Every action of the polling thread has a behaviour, and none is a wait. -/
theorem intN_acts (intN : IntN) (pending : Event → Bool) (sh : Shared) :
    (intNPoll intN).perform false pending sh≠none := by
  obtain ⟨point⟩ := intN
  cases point with
  | poll =>
    intro h
    rcases waiting_or_undefined h with hw | hu
    · exact hw
    · have hdefined : (if sh.phy.interrupts.any then _ else _)=none := hu
      split at hdefined <;> cases hdefined
  | _ => exact fun h => by cases h

theorem hr_defined (hr : HardReset) (sh : Shared) : ¬Undefined sh (hardReset hr) := by
  obtain ⟨point⟩ := hr
  cases point <;> exact fun h => by cases h

/-- Protocol TX works unless it waits for permission. -/
theorem works_tx {s : System}
    (h : ¬(s.tx.point=.constructSinkTxOk ∧ s.shared.phy.bcLvl≠fusbSinkTxOk)) : works s .tx=true := by
  dsimp only [works]
  split
  · next hp => exact decide_eq_true (not_not.mp fun hlvl => h ⟨hp,hlvl⟩)
  · rfl

/-- The polling thread works unless the line is quiet. -/
theorem works_intN {s : System}
    (h : ¬(s.intN.point=.poll ∧ s.shared.phy.interrupts.any=false)) : works s .intN=true := by
  dsimp only [works]
  split
  · next hp => exact not_not.mp fun hany => h ⟨hp,Bool.eq_false_iff.mpr hany⟩
  · rfl

/-- Where no thread works, none has anything to do. -/
theorem atRest_of_idle {s : System} (h : ∀ l, works s l=true → firmware.step l s=none) : AtRest s where
  intN := by
    by_contra hbusy
    exact intN_acts s.intN s.pending s.shared (Option.map_eq_none_iff.mp (h .intN (works_intN hbusy)))
  hr := by
    have hnone := Option.map_eq_none_iff.mp (h .hr rfl)
    exact (waiting_or_undefined hnone).resolve_right (hr_defined s.hr s.shared)
  rx := waiting_or_undefined (Option.map_eq_none_iff.mp (h .rx rfl))
  tx := by
    by_cases hwait : s.tx.point=.constructSinkTxOk ∧ s.shared.phy.bcLvl≠fusbSinkTxOk
    · exact .inr (.inr hwait)
    · exact (waiting_or_undefined (Option.map_eq_none_iff.mp (h .tx (works_tx hwait)))).imp_right .inl
  pe := by
    by_cases hpoll : PollsTypec s.pe
    · exact .inr (.inr hpoll)
    · have hworks : works s .pe=true := by simp [works,hpoll]
      exact (waiting_or_undefined (Option.map_eq_none_iff.mp (h .pe hworks))).imp_right .inl

/-- Left alone, the threads come to rest, in whatever order they act: no more
steps can be taken than there is work ahead, and where none can be taken they
wait or cannot go on. On from a state of a run, only an allocation that fails
stops a thread. -/
theorem comes_to_rest (s : System) :
    (∀ ls s', firmware.follow (fun s l => works s l=true) ls s=some s' →
      ls.length ≤ workAhead s ∧ ((∀ l, works s' l=true → firmware.step l s'=none) → AtRest s')) ∧
    (∃ ls s', firmware.follow (fun s l => works s l=true) ls s=some s' ∧ AtRest s') ∧
    (firmware.Reach anyStep s → ∀ ls s',
      firmware.follow (fun s l => works s l=true) ls s=some s' → StopsForBlocks s') := by
  have hstep (s : System) (l : Label) (s' : System) (hw : works s l=true)
      (h : firmware.step l s=some s') : workAhead s'+1 ≤ workAhead s := by
    have hpaid := step_paid s l s' h
    have hcost : stepCost s l=1 := if_pos hw
    have hincome : income l=0 := by
      cases l <;> first | rfl | exact absurd hw (by simp [works])
    omega
  refine ⟨fun ls s' h => ⟨?_,atRest_of_idle⟩,?_,fun hr ls s' h => ?_⟩
  · have hlength := follow_length_le hstep h
    omega
  · obtain ⟨ls,s',h,hrest⟩ := exists_rest hstep s
    exact ⟨ls,s',h,atRest_of_idle hrest⟩
  · exact stopsForBlocks (hr.follow (fun _ _ _ => trivial) h)

end UsbPdFirmware.BoundedWork
