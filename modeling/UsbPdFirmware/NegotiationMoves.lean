import UsbPdFirmware.PolicyEngineMoves

/-!
# The Policy Engine as a negotiator

What one action of the Policy Engine does to the contract, the Request, the
stored capabilities and the output. The thread either keeps all of these and
moves on, or takes one of a dozen turns, each made in one place of the source.
-/

namespace UsbPdFirmware.NegotiationMoves

open PdMessage DevicePolicy EventThreads FirmwareState PolicyEngine PolicyEngineMoves

/-! ## Where the thread stands -/

/-- Stages of a negotiation. -/
inductive Standing where
  /-- Before the first capabilities and after every reset. -/
  | opening
  /-- Nothing that was negotiated is relied on. -/
  | idle
  /-- Capabilities are about to be evaluated. -/
  | evaluating
  /-- A Request is made. -/
  | requesting
  /-- The source prepares the power. -/
  | transition
  /-- There is a contract. -/
  | contracted
  /-- The power is at its default, which is about to be reported. -/
  | closed
  /-- The source was given up on. -/
  | unresponsive
  deriving DecidableEq

/-- `PESinkReady` and the states only it leads to. -/
def contractedStates : List PolicyEngineState :=
  [.sinkReady,.sinkGetSourceCap,.sinkGiveSinkCap,.sinkSendNotSupported,.sinkChunkReceived,
    .sinkNotSupportedReceived]

/-- Standing inside a state function. -/
def insideStanding : PolicyEngineState → Standing
  | .sinkSelectCap => .requesting
  | .sinkTransitionSink => .transition
  | .sinkReady => .contracted
  | .sinkGetSourceCap => .contracted
  | .sinkGiveSinkCap => .contracted
  | .sinkSendNotSupported => .contracted
  | .sinkChunkReceived => .contracted
  | .sinkNotSupportedReceived => .contracted
  | _ => .idle

/-- Standing at the first action of a state function. -/
def startStanding : PolicyEngineState → Standing
  | .sinkStartup => .opening
  | .sinkEvalCap => .evaluating
  | .sinkSourceUnresponsive => .unresponsive
  | state => insideStanding state

/-- Standing of the thread. -/
def standing (pe : PolicyEngine) : Standing :=
  match pe.point with
  | .start => startStanding pe.state
  | .signalDone => .closed
  | .dropMessage => .contracted
  | .startAms _ => .contracted
  | _ => insideStanding pe.state

/-- The standings between which the thread moves without a turn. -/
def steadyStandings : List Standing := [.idle,.requesting,.transition,.contracted]

section Standing

variable {pe : PolicyEngine}

theorem standing_start (h : pe.point=.start) : standing pe=startStanding pe.state := by
  unfold standing
  rw [h]

/-- At the first action of a known state. -/
theorem standing_begin {state : PolicyEngineState} (h : pe.point=.start) (hs : pe.state=state) :
    standing pe=startStanding state := by
  rw [standing_start h,hs]

/-- At the other points of a state function. -/
theorem standing_inside (h : ∀ next, pe.point≠.startAms next)
    (h' : pe.point ∉ [.start,.signalDone,.dropMessage]) : standing pe=insideStanding pe.state := by
  simp only [List.mem_cons,List.not_mem_nil,or_false,not_or] at h'
  obtain ⟨hs,hd,hm⟩ := h'
  unfold standing
  split
  · contradiction
  · contradiction
  · contradiction
  · next next hp => exact absurd hp (h next)
  · rfl

/-- A standing that one state function alone takes tells the state. -/
theorem state_of_standing {s : Standing} {state : PolicyEngineState} (h : standing pe=s)
    (hclosed : .closed≠s) (hcontracted : .contracted≠s)
    (hstart : ∀ state', startStanding state'=s → state'=state)
    (hinside : ∀ state', insideStanding state'=s → state'=state) : pe.state=state := by
  unfold standing at h
  split at h
  · exact hstart _ h
  · exact absurd h hclosed
  · exact absurd h hcontracted
  · exact absurd h hcontracted
  · exact hinside _ h

/-- The source was given up on in one state only. -/
theorem state_of_unresponsive (h : standing pe=.unresponsive) : pe.state=.sinkSourceUnresponsive := by
  refine state_of_standing h (by decide) (by decide) (fun state hs => ?_) fun state hs => ?_
  · cases state <;> first | rfl | cases hs
  · cases state <;> cases hs

/-- A transition takes place in one state only. -/
theorem state_of_transition (h : standing pe=.transition) : pe.state=.sinkTransitionSink := by
  refine state_of_standing h (by decide) (by decide) (fun state hs => ?_) fun state hs => ?_
  · cases state <;> first | rfl | cases hs
  · cases state <;> first | rfl | cases hs

theorem insideStanding_steady (state : PolicyEngineState) : insideStanding state ∈ steadyStandings := by
  cases state <;> decide

end Standing

/-- Bound for an evaluation of the stored capabilities, the thread points to
no message. -/
def Discards (pe : PolicyEngine) : Prop :=
  ∀ next, pe.point=.startAms next → next.val=.sinkEvalCap → pe.message=none

/-- Away from the announcement of a message sequence there is nothing to it. -/
theorem discards_of_ne {pe : PolicyEngine} (h : ∀ next, pe.point≠.startAms next) : Discards pe :=
  fun next hp => absurd hp (h next)

/-- The thread is in the same state function, or begins one. -/
def Continues (pe pe' : PolicyEngine) : Prop := pe'.state=pe.state ∨ pe'.point=.start

/-- What was negotiated is as before. -/
structure Same (pe pe' : PolicyEngine) (sh sh' : Shared) : Prop where
  /-- The contract. -/
  contract : pe'.explicitContract=pe.explicitContract
  /-- Whether minimum power is received. -/
  minPower : pe'.minPower=pe.minPower
  /-- The Request. -/
  request : pe'.lastDpmRequest=pe.lastDpmRequest
  /-- The manager's data. -/
  dpm : sh'.dpm=sh.dpm

/-! ## Turns -/

/-- The next action handles this message in a state. -/
structure Handles (pe : PolicyEngine) (state : PolicyEngineState) (m : MsgPtr) : Prop where
  /-- The point. -/
  point : pe.point=.handle
  /-- The state. -/
  state : pe.state=state
  /-- The message. -/
  message : pe.message=some m

/-- Handling a message, the thread is inside the state function. -/
theorem Handles.stands {pe : PolicyEngine} {state : PolicyEngineState} {m : MsgPtr}
    (h : Handles pe state m) : standing pe=insideStanding state := by
  unfold standing
  rw [h.point,h.state]

section Deal

variable (pe : PolicyEngine) (sh : Shared)

/-- Everything one action of the thread can do to what is negotiated. -/
inductive Deal : Outcome Event PolicyEngine Shared → Prop where
  /-- The thread goes on, or abandons what it relied on. -/
  | proceed {o : Outcome Event PolicyEngine Shared} (hp : standing pe ∈ steadyStandings)
      (hp' : standing o.loc=standing pe ∨ standing o.loc=.idle) (hg : Continues pe o.loc)
      (hd : Discards o.loc) (hs : Same pe o.loc sh o.shared) : Deal o
  /-- The first action of all, and after every reset. -/
  | begin {pending : Event → Bool} (hp : standing pe=.opening) :
      Deal ⟨pending,goto {pe with explicitContract := false} .sinkDiscovery,sh⟩
  /-- The source's capabilities arrived. -/
  | offer {o : Outcome Event PolicyEngine Shared} {m : MsgPtr} (hp : standing pe ∈ steadyStandings)
      (hp' : standing o.loc=.evaluating) (hm : o.loc.message=some m)
      (hn : m.msg.isData pdMsgtypeSourceCapabilities=true)
      (hs : Same pe o.loc sh o.shared) : Deal o
  /-- The stored capabilities are to be evaluated again. -/
  | reconsider {pending : Event → Bool} {next : AmsState} (hp : pe.point=.startAms next)
      (hn : next.val=.sinkEvalCap) : Deal ⟨pending,goto pe .sinkEvalCap,sh⟩
  /-- Capabilities are evaluated and a Request is built. -/
  | evaluate {o : Outcome Event PolicyEngine Shared} (hp : pe.point=.start) (hs : pe.state=.sinkEvalCap)
      (request : MsgPtr) (ppsIndex lastPps : ℕ) (pool : List ℕ)
      (ho : o.loc=goto {pe with
        ppsIndex := ppsIndex
        lastPps := lastPps
        lastDpmRequest := some (evaluateCapability pe.message request {sh with pool := pool}).1
        message := none} .sinkSelectCap)
      (hsh : o.shared=(evaluateCapability pe.message request {sh with pool := pool}).2) : Deal o
  /-- The Request is made again. -/
  | rerequest {o : Outcome Event PolicyEngine Shared} (hp : standing pe=.contracted)
      (hp' : standing o.loc=.requesting) (hs : Same pe o.loc sh o.shared) : Deal o
  /-- The source accepts the Request. -/
  | accept {o : Outcome Event PolicyEngine Shared} {m : MsgPtr} (hh : Handles pe .sinkSelectCap m)
      (hm : m.msg.isControl pdMsgtypeAccept=true) (hp' : o.loc.point=.start)
      (hs' : o.loc.state=.sinkTransitionSink) (hc : o.loc.explicitContract=pe.explicitContract)
      (hn : o.loc.minPower=false) (hr : o.loc.lastDpmRequest=pe.lastDpmRequest)
      (hd : o.shared.dpm=sh.dpm ∨ o.shared.dpm=pdbsDpmTransitionStandby sh.dpm) : Deal o
  /-- It declines, and the contract stays. -/
  | decline {o : Outcome Event PolicyEngine Shared} (hp : standing pe=.requesting)
      (hc : pe.explicitContract=true) (hp' : o.loc.point=.start) (hs' : o.loc.state=.sinkReady)
      (hc' : o.loc.explicitContract=true) (hr : o.loc.lastDpmRequest=pe.lastDpmRequest)
      (hd : o.shared.dpm=sh.dpm) : Deal o
  /-- The source asks for minimum power, which was offered. -/
  | reduce {o : Outcome Event PolicyEngine Shared} {m : MsgPtr} (hh : Handles pe .sinkReady m)
      (hm : m.msg.isControl pdMsgtypeGotomin=true) (hg : givebackEnabled sh=true)
      (hp' : o.loc.point=.start)
      (hs' : o.loc.state=.sinkTransitionSink) (hc : o.loc.explicitContract=pe.explicitContract)
      (hn : o.loc.minPower=true) (hr : o.loc.lastDpmRequest=pe.lastDpmRequest)
      (hd : o.shared.dpm=pdbsDpmTransitionMin sh.dpm) : Deal o
  /-- The power is ready. -/
  | conclude {o : Outcome Event PolicyEngine Shared} {m : MsgPtr} (hh : Handles pe .sinkTransitionSink m)
      (hm : m.msg.isControl pdMsgtypePsRdy=true) (hp' : o.loc.point=.start)
      (hs' : o.loc.state=.sinkReady) (hc : o.loc.explicitContract=true)
      (hr : o.loc.lastDpmRequest=pe.lastDpmRequest)
      (hd : o.shared.dpm=if pe.minPower then sh.dpm else pdbsDpmTransitionRequested sh.dpm) : Deal o
  /-- Something else arrives instead. -/
  | spoil {o : Outcome Event PolicyEngine Shared} (hp : standing pe=.transition)
      (hp' : standing o.loc=.idle) (hd : o.shared.dpm=pdbsDpmTransitionDefault sh.dpm) : Deal o
  /-- The power goes to its default. -/
  | close {pending : Event → Bool} (hp : standing pe=.idle) (hs : pe.state=.sinkTransitionDefault) :
      Deal ⟨pending,at_ {pe with explicitContract := false} .signalDone,
        {sh with dpm := pdbsDpmTransitionDefault sh.dpm}⟩
  /-- The reset is done. -/
  | reopen {pending : Event → Bool} (hp : standing pe=.closed) : Deal ⟨pending,goto pe .sinkStartup,sh⟩
  /-- The source is given up on. -/
  | giveUp {pending : Event → Bool} (hp : standing pe=.idle) :
      Deal ⟨pending,goto pe .sinkSourceUnresponsive,sh⟩
  /-- The thread looks at the Type-C Current only. -/
  | fallBack {o : Outcome Event PolicyEngine Shared} (hp : standing pe=.unresponsive)
      (hp' : standing o.loc=.unresponsive)
      (hc : o.shared.dpm.capabilities=sh.dpm.capabilities) : Deal o

end Deal

variable {pe pe' : PolicyEngine} {pending : Event → Bool} {sh sh' : Shared} {expired : Bool}
  {o : Outcome Event PolicyEngine Shared}

/-! ## Handling a message -/

/-- Freeing the message and returning a state, with what was negotiated as it
was. -/
theorem finish_deal {m : MsgPtr} {state : PolicyEngineState} (hp : standing pe ∈ steadyStandings)
    (h : finish pe m sh state=some (sh',pe'))
    (hs : startStanding state=standing pe ∨ startStanding state=.idle) : Deal pe sh ⟨pending,pe',sh'⟩ := by
  obtain ⟨rfl,rfl⟩ := Prod.ext_iff.mp (Option.some.inj h)
  exact .proceed hp hs (.inr rfl) (discards_of_ne fun _ hn => by cases hn) ⟨rfl,rfl,rfl,rfl⟩

/-- A message in `PESinkReady`. -/
theorem peSinkReadyMessage_deal {m : MsgPtr} (hh : Handles pe .sinkReady m)
    (hp : standing pe=.contracted) (h : peSinkReadyMessage pe m sh=some (sh',pe')) :
    Deal pe sh ⟨pending,pe',sh'⟩ := by
  have hsteady : standing pe ∈ steadyStandings := by rw [hp]; decide
  have hkeep {state : PolicyEngineState} (hs : startStanding state=.contracted ∨ startStanding state=.idle)
      (h : finish pe m sh state=some (sh',pe')) : Deal pe sh ⟨pending,pe',sh'⟩ :=
    finish_deal hsteady h (by rw [hp]; exact hs)
  have hstands : ∀ state ∈ readyAnswers, startStanding state=.contracted ∨ startStanding state=.idle := by
    decide
  cases peSinkReadyMessage_step h with
  | answer hs h => exact hkeep (hstands _ hs) h
  | gotomin hm hg h =>
    obtain ⟨rfl,rfl⟩ := Prod.ext_iff.mp (Option.some.inj h)
    exact .reduce hh hm hg rfl rfl rfl rfl rfl rfl
  | capabilities hm hsh hpe =>
    subst hsh hpe
    exact .offer hsteady rfl hh.message hm ⟨rfl,rfl,rfl,rfl⟩

/-- The response to a Request. -/
theorem peSinkSelectCapMessage_deal {m : MsgPtr} (hh : Handles pe .sinkSelectCap m)
    (hp : standing pe=.requesting) (h : peSinkSelectCapMessage pe m sh=some (sh',pe')) :
    Deal pe sh ⟨pending,pe',sh'⟩ := by
  have hidle {state : PolicyEngineState} (hs : startStanding state=.idle)
      (h : finish pe m sh state=some (sh',pe')) : Deal pe sh ⟨pending,pe',sh'⟩ :=
    finish_deal (by rw [hp]; decide) h (.inr hs)
  unfold peSinkSelectCapMessage at h
  by_cases hacc : m.msg.isControl pdMsgtypeAccept=true
  · rw [if_pos hacc] at h
    dsimp only at h
    split_ifs at h
    · obtain ⟨rfl,rfl⟩ := Prod.ext_iff.mp (Option.some.inj h)
      exact .accept hh hacc rfl rfl rfl rfl rfl (.inr rfl)
    · obtain ⟨rfl,rfl⟩ := Prod.ext_iff.mp (Option.some.inj h)
      exact .accept hh hacc rfl rfl rfl rfl rfl (.inl rfl)
  rw [if_neg hacc] at h
  refine of_branches h (hidle rfl) fun h => ?_
  refine of_branches h (fun h => ?_) (hidle rfl)
  by_cases hc : pe.explicitContract=true
  · rw [if_pos hc] at h
    obtain ⟨rfl,rfl⟩ := Prod.ext_iff.mp (Option.some.inj h)
    exact .decline hp hc rfl rfl hc rfl rfl
  · rw [if_neg hc] at h
    exact hidle rfl h

/-- A message in every receiving state. -/
theorem handleMessage_deal {m : MsgPtr} (hp : pe.point=.handle) (hm : pe.message=some m)
    (h : handleMessage pe m sh=some (sh',pe')) : Deal pe sh ⟨pending,pe',sh'⟩ := by
  have hinside : standing pe=insideStanding pe.state :=
    standing_inside (by rw [hp]; simp) (by rw [hp]; decide)
  have hsteady : standing pe ∈ steadyStandings := hinside ▸ insideStanding_steady pe.state
  have hidle {state : PolicyEngineState} (hs : startStanding state=.idle)
      (h : finish pe m sh state=some (sh',pe')) : Deal pe sh ⟨pending,pe',sh'⟩ :=
    finish_deal hsteady h (.inr hs)
  unfold handleMessage at h
  cases hs : pe.state <;> rw [hs] at h hinside <;> dsimp only at h
  case sinkWaitCap =>
    unfold peSinkWaitCapMessage at h
    split_ifs at h with hcaps hsoft
    · obtain ⟨rfl,rfl⟩ := Prod.ext_iff.mp (Option.some.inj h)
      exact .offer hsteady rfl hm hcaps ⟨rfl,rfl,rfl,rfl⟩
    · exact hidle rfl h
    · obtain ⟨rfl,rfl⟩ := Prod.ext_iff.mp (Option.some.inj h)
      exact .proceed hsteady (.inr rfl) (.inr rfl) (discards_of_ne fun _ hn => by cases hn)
        ⟨rfl,rfl,rfl,rfl⟩
  case sinkSelectCap => exact peSinkSelectCapMessage_deal ⟨hp,hs,hm⟩ hinside h
  case sinkTransitionSink =>
    unfold peSinkTransitionSinkMessage at h
    dsimp only at h
    split_ifs at h with hrdy hmin
    · obtain ⟨rfl,rfl⟩ := Prod.ext_iff.mp (Option.some.inj h)
      exact .conclude ⟨hp,hs,hm⟩ hrdy rfl rfl rfl rfl (if_pos hmin).symm
    · obtain ⟨rfl,rfl⟩ := Prod.ext_iff.mp (Option.some.inj h)
      exact .conclude ⟨hp,hs,hm⟩ hrdy rfl rfl rfl rfl (if_neg hmin).symm
    · obtain ⟨rfl,rfl⟩ := Prod.ext_iff.mp (Option.some.inj h)
      exact .spoil hinside rfl rfl
  case sinkReady => exact peSinkReadyMessage_deal ⟨hp,hs,hm⟩ hinside h
  case sinkSendSoftReset =>
    unfold peSinkSendSoftResetMessage at h
    split_ifs at h <;> exact hidle rfl h
  all_goals exact absurd h (by simp)

/-! ## Sending and waiting -/

/-- Moving on without touching what was negotiated. -/
theorem proceed_of {o : Outcome Event PolicyEngine Shared} (hp : standing pe ∈ steadyStandings)
    (hp' : standing o.loc=standing pe ∨ standing o.loc=.idle) (hg : Continues pe o.loc)
    (hn : ∀ next, o.loc.point≠.startAms next) (hs : Same pe o.loc sh o.shared) : Deal pe sh o :=
  .proceed hp hp' hg (discards_of_ne hn) hs

/-- Returning a state that relies on no more than before. -/
theorem goto_deal {state : PolicyEngineState} {pending' : Event → Bool} (hp : standing pe ∈ steadyStandings)
    (hs : startStanding state=standing pe ∨ startStanding state=.idle) :
    Deal pe sh ⟨pending',goto pe state,sh⟩ :=
  proceed_of hp hs (.inr rfl) (fun _ hn => by cases hn) ⟨rfl,rfl,rfl,rfl⟩

/-- Going on inside a state function. -/
theorem at_deal {point : PolicyEnginePoint} {pending' : Event → Bool}
    (hp : standing pe=insideStanding pe.state) (hs : standing (at_ pe point)=insideStanding pe.state)
    (hn : ∀ next, point≠.startAms next) : Deal pe sh ⟨pending',at_ pe point,sh⟩ :=
  proceed_of (hp ▸ insideStanding_steady pe.state) (.inl (hs.trans hp.symm)) (.inl rfl) hn
    ⟨rfl,rfl,rfl,rfl⟩

/-- A wait, when every way to resume is a way to go on. -/
theorem wait_deal {mask : List Event} {timed : Bool} {resume : List Event → PolicyEngine}
    (hr : ∀ evt pending', Deal pe sh ⟨pending',resume evt,sh⟩)
    (h : (Action.wait mask timed resume).perform expired pending sh=some o) : Deal pe sh o := by
  rcases Action.perform_wait.mp h with ⟨-,-,rfl⟩ | ⟨-,-,-,rfl⟩
  · exact hr _ _
  · exact hr _ _

/-- What a sending state does next, when it relies on no more than before. -/
def Advances (pe : PolicyEngine) (next : PolicyEngine → PolicyEngine) : Prop :=
  (∃ state, next=(goto · state) ∧ (startStanding state=standing pe ∨ startStanding state=.idle)) ∨
    next=(at_ · .waitResponse)

/-- Freeing what was sent and going on by the result. -/
theorem freeSent_deal {result : TxResult} {onFailure onDone : PolicyEngine → PolicyEngine}
    (hp : standing pe=insideStanding pe.state) (hf : Advances pe onFailure) (hd : Advances pe onDone)
    (h : (freeSent pe result onFailure onDone).perform expired pending sh=some o) :
    Deal pe sh o := by
  have hsteady : standing pe ∈ steadyStandings := hp ▸ insideStanding_steady pe.state
  obtain ⟨-,rfl⟩ := Action.perform_access_some.mp h
  have hdpm : (sh.free? pe.sending).dpm=sh.dpm := free?_dpm _ _
  have hgoto (state : PolicyEngineState)
      (hs : startStanding state=standing pe ∨ startStanding state=.idle) :
      Deal pe sh ⟨pending,goto {pe with sending := none} state,sh.free? pe.sending⟩ :=
    proceed_of hsteady hs (.inr rfl) (fun _ hn => by cases hn) ⟨rfl,rfl,rfl,hdpm⟩
  have hnext {next : PolicyEngine → PolicyEngine} (hn : Advances pe next) :
      Deal pe sh ⟨pending,next {pe with sending := none},sh.free? pe.sending⟩ := by
    rcases hn with ⟨state,rfl,hs⟩ | rfl
    · exact hgoto state hs
    · exact proceed_of hsteady (.inl hp.symm) (.inl rfl) (fun _ hn => by cases hn) ⟨rfl,rfl,rfl,hdpm⟩
  cases result with
  | reset => exact hgoto _ (.inr rfl)
  | failed => exact hnext hf
  | done => exact hnext hd

/-- What a sending state does when its transmission is over. -/
theorem afterSent_deal {result : TxResult} (hp : pe.point=.sent result)
    (h : (afterSent pe result).perform expired pending sh=some o) : Deal pe sh o := by
  have hinside : standing pe=insideStanding pe.state :=
    standing_inside (by rw [hp]; simp) (by rw [hp]; simp)
  have hsteady : standing pe ∈ steadyStandings := hinside ▸ insideStanding_steady pe.state
  have hidle {state : PolicyEngineState} (hs : startStanding state=.idle) : Advances pe (goto · state) :=
    .inl ⟨state,rfl,.inr hs⟩
  unfold afterSent at h
  cases hs : pe.state <;> rw [hs] at h <;> dsimp only at h
  case sinkSelectCap =>
    obtain ⟨-,sh',next,he,rfl⟩ := Action.perform_access.mp h
    cases result with
    | reset =>
      obtain ⟨rfl,rfl⟩ := Prod.ext_iff.mp (Option.some.inj he)
      exact goto_deal hsteady (.inr rfl)
    | failed =>
      obtain ⟨rfl,rfl⟩ := Prod.ext_iff.mp (Option.some.inj he)
      exact goto_deal hsteady (.inr rfl)
    | done =>
      obtain ⟨rfl,rfl⟩ := Prod.ext_iff.mp (Option.some.inj he)
      exact proceed_of hsteady (.inl hinside.symm) (.inl rfl) (fun _ hn => by cases hn) ⟨rfl,rfl,rfl,rfl⟩
  case sinkSoftReset => exact freeSent_deal hinside (hidle rfl) (hidle rfl) h
  case sinkSendSoftReset => exact freeSent_deal hinside (hidle rfl) (.inr rfl) h
  case sinkSendNotSupported =>
    exact freeSent_deal hinside (hidle rfl) (.inl ⟨.sinkReady,rfl,.inl (by rw [hinside,hs]; rfl)⟩) h
  case sinkGetSourceCap =>
    exact freeSent_deal hinside (hidle rfl) (.inl ⟨.sinkReady,rfl,.inl (by rw [hinside,hs]; rfl)⟩) h
  case sinkGiveSinkCap =>
    exact freeSent_deal hinside (hidle rfl) (.inl ⟨.sinkReady,rfl,.inl (by rw [hinside,hs]; rfl)⟩) h
  all_goals exact absurd h Action.perform_stuck

/-- A message is built and posted. -/
theorem sendNew_deal {build : Shared → PdMsg → PdMsg} (hp : standing pe=insideStanding pe.state)
    (h : (sendNew pe build).perform expired pending sh=some o) : Deal pe sh o := by
  obtain ⟨m,pool,-,rfl⟩ := sendNew_perform h
  exact proceed_of (hp ▸ insideStanding_steady pe.state) (.inl hp.symm) (.inl rfl)
    (fun _ hn => by cases hn) ⟨rfl,rfl,rfl,rfl⟩

/-! ## The thread -/

theorem peSinkReady_deal (hs : pe.state=.sinkReady) (hp : standing pe=.contracted)
    (h : (peSinkReady pe).perform expired pending sh=some o) : Deal pe sh o := by
  have hsteady : standing pe ∈ steadyStandings := by rw [hp]; decide
  have hinside : standing pe=insideStanding pe.state := by rw [hp,hs]; rfl
  refine wait_deal (fun evt pending' => ?_) h
  split_ifs
  · exact goto_deal hsteady (.inr rfl)
  · exact goto_deal hsteady (.inr rfl)
  · exact .proceed hsteady (.inl hp.symm) (.inl rfl) (fun next hn he => by cases hn; cases he)
      ⟨rfl,rfl,rfl,rfl⟩
  · exact proceed_of hsteady (.inl hp.symm) (.inl rfl) (fun _ hn => by cases hn) ⟨rfl,rfl,rfl,rfl⟩
  · exact .proceed hsteady (.inl hp.symm) (.inl rfl) (fun next hn he => by cases hn; cases he)
      ⟨rfl,rfl,rfl,rfl⟩
  · exact .rerequest hp rfl ⟨rfl,rfl,rfl,rfl⟩
  · exact at_deal hinside rfl (fun _ hn => by cases hn)
  · exact goto_deal hsteady (.inl hp.symm)

/-- The first action of a state function. -/
theorem stateFunction_deal (hp : pe.point=.start)
    (h : (stateFunction pe).perform expired pending sh=some o) : Deal pe sh o := by
  have hstand := standing_start hp
  unfold stateFunction at h
  cases hs : pe.state <;> rw [hs] at h hstand <;> dsimp only at h
  case sinkStartup =>
    obtain ⟨-,rfl⟩ := Action.perform_access_some.mp h
    exact .begin hstand
  case sinkDiscovery =>
    obtain ⟨-,rfl⟩ := Action.perform_access_some.mp h
    exact goto_deal (by rw [hstand]; decide) (.inr rfl)
  case sinkWaitCap =>
    have hsteady : standing pe ∈ steadyStandings := by rw [hstand]; decide
    have hinside : standing pe=insideStanding pe.state := by rw [hstand,hs]; rfl
    refine wait_deal (fun evt pending' => ?_) h
    split_ifs
    · exact goto_deal hsteady (.inr rfl)
    · exact goto_deal hsteady (.inr rfl)
    · exact goto_deal hsteady (.inr rfl)
    · exact at_deal hinside rfl (fun _ hn => by cases hn)
    · exact goto_deal hsteady (.inr rfl)
  case sinkEvalCap =>
    obtain ⟨request,ppsIndex,lastPps,pool,-,rfl⟩ := peSinkEvalCap_perform h
    exact .evaluate hp hs request ppsIndex lastPps pool rfl rfl
  case sinkSelectCap =>
    obtain ⟨m,-,rfl⟩ := peSinkSelectCap_perform h
    have hinside : standing pe=insideStanding pe.state := by rw [hstand,hs]; rfl
    exact proceed_of (by rw [hstand]; decide) (.inl hinside.symm) (.inl rfl)
      (fun _ hn => by cases hn) ⟨rfl,rfl,rfl,rfl⟩
  case sinkTransitionSink =>
    have hsteady : standing pe ∈ steadyStandings := by rw [hstand]; decide
    have hinside : standing pe=insideStanding pe.state := by rw [hstand,hs]; rfl
    refine wait_deal (fun evt pending' => ?_) h
    split_ifs
    · exact goto_deal hsteady (.inr rfl)
    · exact goto_deal hsteady (.inr rfl)
    · exact at_deal hinside rfl (fun _ hn => by cases hn)
  case sinkReady => exact peSinkReady_deal hs hstand h
  case sinkGetSourceCap => exact sendNew_deal (by rw [hstand,hs]; rfl) h
  case sinkGiveSinkCap => exact sendNew_deal (by rw [hstand,hs]; rfl) h
  case sinkHardReset =>
    unfold peSinkHardReset at h
    by_cases hl : pdNHardResetCount < pe.hardResetCounter
    · rw [if_pos hl] at h
      obtain ⟨-,rfl⟩ := Action.perform_access_some.mp h
      exact .giveUp hstand
    · rw [if_neg hl] at h
      obtain ⟨-,rfl⟩ := Action.perform_signal.mp h
      exact at_deal (by rw [hstand,hs]; rfl) rfl (fun _ hn => by cases hn)
  case sinkTransitionDefault =>
    obtain ⟨-,rfl⟩ := Action.perform_access_some.mp h
    exact .close hstand hs
  case sinkSoftReset => exact sendNew_deal (by rw [hstand,hs]; rfl) h
  case sinkSendSoftReset => exact sendNew_deal (by rw [hstand,hs]; rfl) h
  case sinkSendNotSupported => exact sendNew_deal (by rw [hstand,hs]; rfl) h
  case sinkChunkReceived =>
    have hsteady : standing pe ∈ steadyStandings := by rw [hstand]; decide
    refine wait_deal (fun evt pending' => ?_) h
    split_ifs
    · exact goto_deal hsteady (.inr rfl)
    · exact goto_deal hsteady (.inl hstand.symm)
  case sinkNotSupportedReceived =>
    obtain ⟨-,rfl⟩ := Action.perform_access_some.mp h
    exact goto_deal (by rw [hstand]; decide) (.inl hstand.symm)
  case sinkSourceUnresponsive =>
    obtain ⟨-,rfl⟩ := Action.perform_access_some.mp h
    exact .fallBack hstand rfl ((apply_ite Dpm.capabilities _ _ _).trans (ite_self _))

/-- Every action of the Policy Engine is one of these. -/
theorem policyEngine_deal (h : (policyEngine pe).perform expired pending sh=some o) : Deal pe sh o := by
  unfold policyEngine at h
  cases hp : pe.point <;> rw [hp] at h <;> dsimp only at h
  case start => exact stateFunction_deal hp h
  case sent result => exact afterSent_deal hp h
  case dropMessage =>
    have hstand : standing pe=.contracted := by unfold standing; rw [hp]
    obtain ⟨-,rfl⟩ := Action.perform_access_some.mp h
    refine .proceed (by rw [hstand]; decide) (.inl hstand.symm) (.inl rfl) (fun _ _ _ => rfl)
      ⟨rfl,rfl,rfl,?_⟩
    cases pe.message <;> rfl
  case startAms next =>
    have hstand : standing pe=.contracted := by unfold standing; rw [hp]
    obtain ⟨-,rfl⟩ := Action.perform_signal.mp h
    obtain ⟨state,hstate⟩ := next
    simp only [List.mem_cons,List.not_mem_nil,or_false] at hstate
    rcases hstate with rfl | rfl | rfl
    · exact goto_deal (by rw [hstand]; decide) (.inl hstand.symm)
    · exact .reconsider hp rfl
    · exact .rerequest hstand rfl ⟨rfl,rfl,rfl,rfl⟩
  case signalDone =>
    obtain ⟨-,rfl⟩ := Action.perform_signal.mp h
    exact .reopen (by unfold standing; rw [hp])
  case handle =>
    obtain ⟨m,sh',next,hm,he,rfl⟩ := handle_perform h
    exact handleMessage_deal hp hm he
  -- The other points lie inside a state function.
  all_goals
    have hinside : standing pe=insideStanding pe.state :=
      standing_inside (by rw [hp]; simp) (by rw [hp]; simp)
    have hsteady : standing pe ∈ steadyStandings := hinside ▸ insideStanding_steady pe.state
  case signalTx =>
    obtain ⟨-,rfl⟩ := Action.perform_signal.mp h
    exact at_deal hinside rfl (fun _ hn => by cases hn)
  case waitTx =>
    refine wait_deal (fun evt pending' => ?_) h
    exact at_deal hinside rfl (fun _ hn => by cases hn)
  case waitResponse =>
    refine wait_deal (fun evt pending' => ?_) h
    split_ifs
    · exact goto_deal hsteady (.inr rfl)
    · exact goto_deal hsteady (.inr rfl)
    · exact at_deal hinside rfl (fun _ hn => by cases hn)
  case fetch =>
    rcases fetchMessage_perform h with ⟨hq,rfl⟩ | ⟨m,rest,hq,rfl⟩
    · refine goto_deal hsteady ?_
      rw [hinside]
      unfold emptyFetch
      split
      · next hs => exact .inl (by rw [hs]; rfl)
      · exact .inr rfl
    · exact proceed_of hsteady (.inl hinside.symm) (.inl rfl) (fun _ hn => by cases hn) ⟨rfl,rfl,rfl,rfl⟩
  case waitHardSent =>
    refine wait_deal (fun evt pending' => ?_) h
    exact proceed_of hsteady (.inr rfl) (.inr rfl) (fun _ hn => by cases hn) ⟨rfl,rfl,rfl,rfl⟩

end UsbPdFirmware.NegotiationMoves
