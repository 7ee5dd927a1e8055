import UsbPdFirmware.PolicyEngine

/-!
# What one action of the Policy Engine does to the other threads

The sixty-odd actions of the Policy Engine reduce to a few moves when only
the flags, the mailboxes and the phase of the thread are looked at. The
phase tells whether the thread is in the middle of an exchange with another
thread.
-/

namespace UsbPdFirmware.PolicyEngineMoves

open PdMessage DevicePolicy EventThreads FirmwareState PolicyEngine

/-- The exchanges with other threads the Policy Engine can be in. -/
inductive Phase where
  /-- None. -/
  | working
  /-- A message is posted and Protocol TX not yet told. -/
  | ringing
  /-- Blocked until Protocol TX reports a result. -/
  | sending
  /-- A message was announced; about to fetch it. -/
  | fetching
  /-- Blocked until the hard reset it asked for was sent. -/
  | resetting
  /-- Bound to tell the Hard Reset thread that it is done. -/
  | owing
  deriving DecidableEq

/-- The phase in which a state function begins. -/
def startPhase (state : PolicyEngineState) : Phase :=
  if state=.sinkTransitionDefault then .owing else .working

/-- The phase of the thread. -/
def phase (pe : PolicyEngine) : Phase :=
  match pe.point with
  | .start => startPhase pe.state
  | .dropMessage => .working
  | .startAms _ => .working
  | .signalTx => .ringing
  | .waitTx => .sending
  | .sent .reset => .owing
  | .sent _ => .working
  | .waitResponse => .working
  | .fetch => .fetching
  | .handle => .working
  | .waitHardSent => .resetting
  | .signalDone => .owing

@[simp] theorem phase_goto (pe : PolicyEngine) (state : PolicyEngineState) :
    phase (goto pe state)=startPhase state := rfl

@[simp] theorem phase_at_fetch (pe : PolicyEngine) : phase (at_ pe .fetch)=.fetching := rfl

@[simp] theorem phase_at_waitTx (pe : PolicyEngine) : phase (at_ pe .waitTx)=.sending := rfl

@[simp] theorem phase_at_waitHardSent (pe : PolicyEngine) :
    phase (at_ pe .waitHardSent)=.resetting := rfl

section Phase

variable {pe : PolicyEngine}

theorem phase_start (h : pe.point=.start) : phase pe=startPhase pe.state := by
  unfold phase
  rw [h]

theorem phase_signalTx (h : pe.point=.signalTx) : phase pe=.ringing := by
  unfold phase
  rw [h]

theorem phase_waitTx (h : pe.point=.waitTx) : phase pe=.sending := by
  unfold phase
  rw [h]

theorem phase_fetch (h : pe.point=.fetch) : phase pe=.fetching := by
  unfold phase
  rw [h]

theorem phase_waitHardSent (h : pe.point=.waitHardSent) : phase pe=.resetting := by
  unfold phase
  rw [h]

theorem phase_signalDone (h : pe.point=.signalDone) : phase pe=.owing := by
  unfold phase
  rw [h]

/-- A wait for a result that a reset ended leads to default power. -/
theorem phase_sent_reset (h : pe.point=.sent .reset) : phase pe=.owing := by
  unfold phase
  rw [h]

/-- After any other result the thread works on. -/
theorem phase_sent {result : TxResult} (h : pe.point=.sent result) (hr : result≠.reset) :
    phase pe=.working := by
  unfold phase
  rw [h]
  cases result with
  | reset => exact absurd rfl hr
  | failed => rfl
  | done => rfl

end Phase

/-- The mask of the wait at which the thread stands, if it stands at one. -/
def waitMask (pe : PolicyEngine) : List Event :=
  match pe.point,pe.state with
  | .start,.sinkWaitCap => [.peMsgRx,.peOvrTemp,.peReset]
  | .start,.sinkTransitionSink => [.peMsgRx,.peReset]
  | .start,.sinkReady => [.peMsgRx,.peReset,.peOvrTemp,.peGetSourceCap,.peNewPower,.pePpsRequest]
  | .start,.sinkChunkReceived => [.peReset]
  | .waitResponse,_ => [.peMsgRx,.peReset]
  | .waitTx,_ => [.peTxDone,.peTxErr,.peReset]
  | .waitHardSent,_ => [.peHardSent]
  | _,_ => []

/-- The waits that hear messages lie outside every exchange. -/
theorem phase_of_msgRx {pe : PolicyEngine} (h : .peMsgRx ∈ waitMask pe) : phase pe=.working := by
  unfold waitMask at h
  split at h
  case h_1 hp hs => rw [phase_start hp,hs]; rfl
  case h_2 hp hs => rw [phase_start hp,hs]; rfl
  case h_3 hp hs => rw [phase_start hp,hs]; rfl
  case h_5 hp => unfold phase; rw [hp]
  all_goals exact absurd h (by decide)

/-- Shared memory that only the protocol layer and the PHY change. -/
structure Kept (sh sh' : Shared) : Prop where
  /-- The PHY. -/
  phy : sh'.phy=sh.phy
  /-- The stored MessageID. -/
  rxMessageid : sh'.rxMessageid=sh.rxMessageid
  /-- The counter of Protocol TX. -/
  txMessageidcounter : sh'.txMessageidcounter=sh.txMessageidcounter

/-- Neither that nor a mailbox is changed. -/
structure SameMail (sh sh' : Shared) : Prop extends Kept sh sh' where
  /-- The Policy Engine's mailbox. -/
  peMailbox : sh'.peMailbox=sh.peMailbox
  /-- Protocol TX's mailbox. -/
  txMailbox : sh'.txMailbox=sh.txMailbox

theorem Kept.refl (sh : Shared) : Kept sh sh := ⟨rfl,rfl,rfl⟩

theorem SameMail.refl (sh : Shared) : SameMail sh sh := ⟨⟨rfl,rfl,rfl⟩,rfl,rfl⟩

/-- The state functions that begin by posting a message. -/
def sendingStates : List PolicyEngineState :=
  [.sinkSelectCap,.sinkSoftReset,.sinkSendSoftReset,.sinkSendNotSupported,.sinkGetSourceCap,
    .sinkGiveSinkCap]

/-- The next action posts a message. -/
def sendsFrom (pe : PolicyEngine) : Prop := pe.point=.start ∧ pe.state ∈ sendingStates

section Move

variable (pe : PolicyEngine) (pending : Event → Bool) (sh : Shared)

/-- Everything one action of the thread can do to flags, mailboxes and phase. -/
inductive PeMove : Outcome Event PolicyEngine Shared → Prop where
  /-- A computation, or the expiry of a wait. -/
  | think {pe' : PolicyEngine} {sh' : Shared} (hp : phase pe=.working) (hp' : phase pe'=.working)
      (hs : SameMail sh sh') : PeMove ⟨pending,pe',sh'⟩
  /-- A message sequence is announced to Protocol TX. -/
  | startAms {pe' : PolicyEngine} (hp : phase pe=.working) (hp' : phase pe'=.working) :
      PeMove ⟨raise [.prltxStartAms] pending,pe',sh⟩
  /-- A reset signalled by the Hard Reset thread is taken. -/
  | heedReset (hp : phase pe=.working) (hm : .peReset ∈ waitMask pe) (hr : pending .peReset=true) :
      PeMove ⟨clear (waitMask pe) pending,goto pe .sinkTransitionDefault,sh⟩
  /-- Another event is taken, and a message announced with it is passed over. -/
  | pass {pe' : PolicyEngine} {e : Event} (hp : phase pe=.working) (hp' : phase pe'=.working)
      (hm : .peMsgRx ∈ waitMask pe) (hr : pending .peReset=false)
      (he : e ∈ waitMask pe) (hne : e≠.peMsgRx) (ht : pending e=true) :
      PeMove ⟨clear (waitMask pe) pending,pe',sh⟩
  /-- The announcement of a message is taken, and nothing else. -/
  | hear (hp : phase pe=.working) (hm : .peMsgRx ∈ waitMask pe) (hr : pending .peReset=false)
      (ho : ∀ e ∈ waitMask pe, e≠.peMsgRx → pending e=false) (ht : pending .peMsgRx=true) :
      PeMove ⟨clear (waitMask pe) pending,at_ pe .fetch,sh⟩
  /-- The oldest message is fetched, if there is one. -/
  | fetch {pe' : PolicyEngine} (hp : pe.point=.fetch) (hp' : phase pe'=.working) :
      PeMove ⟨pending,pe',{sh with peMailbox := sh.peMailbox.tail}⟩
  /-- A message is posted to Protocol TX. -/
  | post {pe' : PolicyEngine} {sh' : Shared} {m : MsgPtr} (hp : phase pe=.working)
      (hs : sendsFrom pe) (hp' : pe'.point=.signalTx) (hk : Kept sh sh') (hm : sh'.peMailbox=sh.peMailbox)
      (ht : sh'.txMailbox=post pdbMsgPoolSize m sh.txMailbox) : PeMove ⟨pending,pe',sh'⟩
  /-- Protocol TX is told about it. -/
  | ring (hp : pe.point=.signalTx) : PeMove ⟨raise [.prltxMsgTx] pending,at_ pe .waitTx,sh⟩
  /-- Protocol TX's result, or a reset, is taken. -/
  | result (hp : pe.point=.waitTx) (ht : taken (waitMask pe) pending≠[]) :
      PeMove ⟨clear (waitMask pe) pending,at_ pe (.sent (txResult (taken (waitMask pe) pending))),sh⟩
  /-- A hard reset is asked for. -/
  | ask (hp : pe.point=.start) (hs : pe.state=.sinkHardReset)
      (hc : pe.hardResetCounter ≤ pdNHardResetCount) :
      PeMove ⟨raise [.hardrstReset] pending,at_ pe .waitHardSent,sh⟩
  /-- The hard reset was sent. -/
  | release {pe' : PolicyEngine} (hp : pe.point=.waitHardSent) (hp' : phase pe'=.owing)
      (ht : pending .peHardSent=true) : PeMove ⟨clear (waitMask pe) pending,pe',sh⟩
  /-- The power is set to its default on the way out of a reset. -/
  | settle {pe' : PolicyEngine} {sh' : Shared} (hp : phase pe=.owing) (hp' : phase pe'=.owing)
      (hs : SameMail sh sh') : PeMove ⟨pending,pe',sh'⟩
  /-- The Hard Reset thread is told that the reset is done. -/
  | done (hp : pe.point=.signalDone) :
      PeMove ⟨raise [.hardrstDone] pending,goto pe .sinkStartup,sh⟩

end Move

variable {pe pe' : PolicyEngine} {pending : Event → Bool} {sh sh' : Shared} {expired : Bool}
  {o : Outcome Event PolicyEngine Shared}

/-- A result without a reset is not read as one. -/
theorem txResult_ne_reset {evt : List Event} (h : .peReset ∉ evt) : txResult evt≠.reset := by
  unfold txResult
  rw [if_neg h]
  split <;> decide

/-! ## Local work -/

/-- A state other than the transition to default power is begun working. -/
theorem startPhase_working {state : PolicyEngineState} (h : state≠.sinkTransitionDefault) :
    startPhase state=.working := if_neg h

/-- Work between exchanges: the thread stays out of them and posts nothing. -/
def Works (sh sh' : Shared) (pe' : PolicyEngine) : Prop := phase pe'=.working ∧ SameMail sh sh'

/-- Freeing the message and returning a next state is work, whatever was done
to the manager's data before. -/
theorem finish_works {m : MsgPtr} {state : PolicyEngineState} (dpm : Dpm)
    (hs : state≠.sinkTransitionDefault)
    (h : finish pe m {sh with dpm := dpm} state=some (sh',pe')) : Works sh sh' pe' := by
  obtain ⟨rfl,rfl⟩ := Prod.ext_iff.mp (Option.some.inj h)
  exact ⟨startPhase_working hs,⟨rfl,rfl,rfl⟩,rfl,rfl⟩

/-- Acting on a message in `PESinkReady` is work. -/
theorem peSinkReadyMessage_works {m : MsgPtr} (h : peSinkReadyMessage pe m sh=some (sh',pe')) :
    Works sh sh' pe' := by
  have hworks : ∀ state ∈ readyAnswers, state≠.sinkTransitionDefault := by decide
  cases peSinkReadyMessage_step h with
  | answer hs h => exact finish_works sh.dpm (hworks _ hs) h
  | gotomin hm hg h => exact finish_works _ (by decide) h
  | capabilities hm hsh hpe =>
    subst hsh hpe
    exact ⟨rfl,SameMail.refl _⟩

/-- Acting on a fetched message is work in every receiving state. -/
theorem handleMessage_works {m : MsgPtr} (h : handleMessage pe m sh=some (sh',pe')) :
    Works sh sh' pe' := by
  unfold handleMessage at h
  cases hs : pe.state <;> rw [hs] at h <;> dsimp only at h
  case sinkWaitCap =>
    unfold peSinkWaitCapMessage at h
    split_ifs at h
    · obtain ⟨rfl,rfl⟩ := Prod.ext_iff.mp (Option.some.inj h)
      exact ⟨rfl,⟨rfl,rfl,rfl⟩,rfl,rfl⟩
    · exact finish_works sh.dpm (by decide) h
    · obtain ⟨rfl,rfl⟩ := Prod.ext_iff.mp (Option.some.inj h)
      exact ⟨rfl,⟨rfl,rfl,rfl⟩,rfl,rfl⟩
  case sinkSelectCap =>
    unfold peSinkSelectCapMessage at h
    dsimp only at h
    split_ifs at h <;> exact finish_works _ (by decide) h
  case sinkTransitionSink =>
    unfold peSinkTransitionSinkMessage at h
    dsimp only at h
    split_ifs at h <;> exact finish_works _ (by decide) h
  case sinkReady => exact peSinkReadyMessage_works h
  case sinkSendSoftReset =>
    unfold peSinkSendSoftResetMessage at h
    split_ifs at h <;> exact finish_works sh.dpm (by decide) h
  all_goals exact absurd h (by simp)

/-- A computation on the locals is work when it keeps out of exchanges. -/
theorem compute_move (hp : phase pe=.working) (hp' : phase pe'=.working)
    (h : (Action.compute pe' : PeAction).perform expired pending sh=some o) : PeMove pe pending sh o := by
  obtain ⟨-,rfl⟩ := Action.perform_access_some.mp h
  exact .think hp hp' (SameMail.refl sh)

/-- Building a Request and storing capabilities posts nothing. -/
theorem evaluateCapability_sameMail (caps : Option MsgPtr) (request : MsgPtr) (sh : Shared) :
    SameMail sh (evaluateCapability caps request sh).2 := by
  unfold evaluateCapability pdbsDpmEvaluateCapability
  cases caps with
  | none => exact ⟨⟨rfl,rfl,rfl⟩,rfl,rfl⟩
  | some c =>
    dsimp only
    cases sh.dpm.capabilities <;> exact ⟨⟨rfl,rfl,rfl⟩,rfl,rfl⟩

theorem peSinkEvalCap_move (hp : phase pe=.working)
    (h : (peSinkEvalCap pe).perform expired pending sh=some o) : PeMove pe pending sh o := by
  obtain ⟨request,_,_,pool,-,rfl⟩ := peSinkEvalCap_perform h
  have heval := evaluateCapability_sameMail pe.message request {sh with pool := pool}
  exact .think hp rfl ⟨⟨heval.phy,heval.rxMessageid,heval.txMessageidcounter⟩,heval.peMailbox,
    heval.txMailbox⟩

/-! ## Sending -/

/-- A state function that builds a message posts it. -/
theorem sendNew_move {build : Shared → PdMsg → PdMsg} (hp : phase pe=.working) (hs : sendsFrom pe)
    (h : (sendNew pe build).perform expired pending sh=some o) : PeMove pe pending sh o := by
  obtain ⟨m,pool,-,rfl⟩ := sendNew_perform h
  exact .post hp hs rfl ⟨rfl,rfl,rfl⟩ rfl rfl

theorem peSinkSelectCap_move (hp : phase pe=.working) (hs : sendsFrom pe)
    (h : (peSinkSelectCap pe).perform expired pending sh=some o) : PeMove pe pending sh o := by
  obtain ⟨m,-,rfl⟩ := peSinkSelectCap_perform h
  exact .post hp hs rfl ⟨rfl,rfl,rfl⟩ rfl rfl

/-- Freeing the transmitted message and going on by the result. -/
theorem freeSent_move {result : TxResult} {onFailure onDone : PolicyEngine → PolicyEngine}
    (hp : pe.point=.sent result) (hf : ∀ pe, phase (onFailure pe)=.working)
    (hd : ∀ pe, phase (onDone pe)=.working)
    (h : (freeSent pe result onFailure onDone).perform expired pending sh=some o) :
    PeMove pe pending sh o := by
  obtain ⟨-,rfl⟩ := Action.perform_access_some.mp h
  have hs : SameMail sh (sh.free? pe.sending) := by
    rw [free?_eq]
    exact ⟨⟨rfl,rfl,rfl⟩,rfl,rfl⟩
  cases result with
  | reset => exact .settle (phase_sent_reset hp) rfl hs
  | failed => exact .think (phase_sent hp (by decide)) (hf _) hs
  | done => exact .think (phase_sent hp (by decide)) (hd _) hs

theorem peSinkSelectCapSent_move {result : TxResult} (hp : pe.point=.sent result)
    (h : (peSinkSelectCapSent pe result).perform expired pending sh=some o) :
    PeMove pe pending sh o := by
  obtain ⟨-,sh',next,he,rfl⟩ := Action.perform_access.mp h
  cases result with
  | reset =>
    obtain ⟨rfl,rfl⟩ := Prod.ext_iff.mp (Option.some.inj he)
    exact .settle (phase_sent_reset hp) rfl (SameMail.refl sh)
  | failed =>
    obtain ⟨rfl,rfl⟩ := Prod.ext_iff.mp (Option.some.inj he)
    exact .think (phase_sent hp (by decide)) rfl (SameMail.refl sh)
  | done =>
    obtain ⟨rfl,rfl⟩ := Prod.ext_iff.mp (Option.some.inj he)
    exact .think (phase_sent hp (by decide)) rfl ⟨⟨rfl,rfl,rfl⟩,rfl,rfl⟩

/-- What a sending state does when its transmission is over. -/
theorem afterSent_move {result : TxResult} (hp : pe.point=.sent result)
    (h : (afterSent pe result).perform expired pending sh=some o) : PeMove pe pending sh o := by
  unfold afterSent at h
  cases hs : pe.state <;> rw [hs] at h <;> dsimp only at h
  case sinkSelectCap => exact peSinkSelectCapSent_move hp h
  case sinkSoftReset => exact freeSent_move hp (fun _ => rfl) (fun _ => rfl) h
  case sinkSendSoftReset => exact freeSent_move hp (fun _ => rfl) (fun _ => rfl) h
  case sinkSendNotSupported => exact freeSent_move hp (fun _ => rfl) (fun _ => rfl) h
  case sinkGetSourceCap => exact freeSent_move hp (fun _ => rfl) (fun _ => rfl) h
  case sinkGiveSinkCap => exact freeSent_move hp (fun _ => rfl) (fun _ => rfl) h
  all_goals exact absurd h Action.perform_stuck

/-! ## Waiting -/

/-- A wait that hears messages: everything else of its mask is acted on
before a message. -/
structure Listens (pe : PolicyEngine) (resume : List Event → PolicyEngine) : Prop where
  /-- The mask has messages. -/
  msgRx : .peMsgRx ∈ waitMask pe
  /-- The mask has resets. -/
  reset : .peReset ∈ waitMask pe
  /-- A reset comes first. -/
  onReset : ∀ evt, .peReset ∈ evt → resume evt=goto pe .sinkTransitionDefault
  /-- Any other event keeps the thread working. -/
  onOther : ∀ evt e, .peReset ∉ evt → e ∈ evt → e ∈ waitMask pe → e≠.peMsgRx →
    phase (resume evt)=.working
  /-- A message on its own is fetched. -/
  onMessage : ∀ evt, .peMsgRx ∈ evt → (∀ e ∈ waitMask pe, e≠.peMsgRx → e ∉ evt) →
    resume evt=at_ pe .fetch
  /-- Expiry keeps the thread working. -/
  onExpiry : phase (resume [])=.working

/-- What such a wait does. -/
theorem Listens.move {resume : List Event → PolicyEngine} {timed : Bool} (hl : Listens pe resume)
    (hp : phase pe=.working)
    (h : (Action.wait (waitMask pe) timed resume).perform expired pending sh=some o) :
    PeMove pe pending sh o := by
  rcases Action.perform_wait.mp h with ⟨-,hm,rfl⟩ | ⟨-,-,-,rfl⟩
  · cases hr : pending .peReset with
    | true =>
      rw [hl.onReset _ (mem_taken.mpr ⟨hl.reset,hr⟩)]
      exact .heedReset hp hl.reset hr
    | false =>
      have hnr : .peReset ∉ taken (waitMask pe) pending := by simp [hr]
      by_cases ho : ∃ e ∈ waitMask pe, e≠.peMsgRx ∧ pending e=true
      · obtain ⟨e,he,hne,ht⟩ := ho
        exact .pass hp (hl.onOther _ e hnr (mem_taken.mpr ⟨he,ht⟩) he hne) hl.msgRx hr he hne ht
      · have ho : ∀ e ∈ waitMask pe, e≠.peMsgRx → pending e=false := by
          intro e he hne
          by_contra ht
          exact ho ⟨e,he,hne,Bool.eq_true_of_not_eq_false ht⟩
        have ht : pending .peMsgRx=true := by
          obtain ⟨e,he,ht⟩ := taken_ne_nil.mp hm
          by_cases hne : e=.peMsgRx
          · rw [← hne]
            exact ht
          · rw [ho e he hne] at ht
            exact absurd ht Bool.false_ne_true
        rw [hl.onMessage _ (mem_taken.mpr ⟨hl.msgRx,ht⟩) (by
          intro e he hne hmem
          rw [mem_taken,ho e he hne] at hmem
          exact Bool.false_ne_true hmem.2)]
        exact .hear hp hl.msgRx hr ho ht
  · exact .think hp hl.onExpiry (SameMail.refl sh)

theorem waitMask_sinkWaitCap (hp : pe.point=.start) (hs : pe.state=.sinkWaitCap) :
    waitMask pe=[.peMsgRx,.peOvrTemp,.peReset] := by
  unfold waitMask
  rw [hp,hs]

theorem waitMask_sinkTransitionSink (hp : pe.point=.start) (hs : pe.state=.sinkTransitionSink) :
    waitMask pe=[.peMsgRx,.peReset] := by
  unfold waitMask
  rw [hp,hs]

theorem waitMask_sinkReady (hp : pe.point=.start) (hs : pe.state=.sinkReady) :
    waitMask pe=[.peMsgRx,.peReset,.peOvrTemp,.peGetSourceCap,.peNewPower,.pePpsRequest] := by
  unfold waitMask
  rw [hp,hs]

theorem waitMask_sinkChunkReceived (hp : pe.point=.start) (hs : pe.state=.sinkChunkReceived) :
    waitMask pe=[.peReset] := by
  unfold waitMask
  rw [hp,hs]

theorem waitMask_waitResponse (hp : pe.point=.waitResponse) : waitMask pe=[.peMsgRx,.peReset] := by
  unfold waitMask
  rw [hp]

theorem waitMask_waitTx (hp : pe.point=.waitTx) : waitMask pe=[.peTxDone,.peTxErr,.peReset] := by
  unfold waitMask
  rw [hp]

theorem waitMask_waitHardSent (hp : pe.point=.waitHardSent) : waitMask pe=[.peHardSent] := by
  unfold waitMask
  rw [hp]

theorem peSinkWaitCap_move (hp : pe.point=.start) (hs : pe.state=.sinkWaitCap)
    (hw : phase pe=.working) (h : (peSinkWaitCap pe).perform expired pending sh=some o) :
    PeMove pe pending sh o := by
  have hm := waitMask_sinkWaitCap hp hs
  unfold peSinkWaitCap at h
  rw [← hm] at h
  refine Listens.move ⟨by simp [hm],by simp [hm],?_,?_,?_,rfl⟩ hw h
  · intro evt hr
    rw [if_neg (List.ne_nil_of_mem hr),if_pos hr]
  · intro evt e hr he hin hne
    have heq : e=.peOvrTemp := by
      rw [hm] at hin
      simpa [hne,show e≠.peReset from fun h => hr (h ▸ he)] using hin
    rw [if_neg (List.ne_nil_of_mem he),if_neg hr,if_pos (heq ▸ he)]
    rfl
  · intro evt ht ho
    rw [if_neg (List.ne_nil_of_mem ht),if_neg (ho _ (by simp [hm]) (by decide)),
      if_neg (ho _ (by simp [hm]) (by decide)),if_pos ht]

theorem peSinkTransitionSink_move (hp : pe.point=.start) (hs : pe.state=.sinkTransitionSink)
    (hw : phase pe=.working) (h : (peSinkTransitionSink pe).perform expired pending sh=some o) :
    PeMove pe pending sh o := by
  have hm := waitMask_sinkTransitionSink hp hs
  unfold peSinkTransitionSink at h
  rw [← hm] at h
  refine Listens.move ⟨by simp [hm],by simp [hm],?_,?_,?_,rfl⟩ hw h
  · intro evt hr
    rw [if_pos hr]
  · intro evt e hr he hin hne
    rw [hm] at hin
    exact absurd (by simpa [hne] using hin : e=.peReset) fun h => hr (h ▸ he)
  · intro evt ht ho
    rw [if_neg (ho _ (by simp [hm]) (by decide)),if_neg (List.ne_nil_of_mem ht)]

theorem awaitResponse_move (hp : pe.point=.waitResponse) (hw : phase pe=.working)
    (h : (awaitResponse pe).perform expired pending sh=some o) : PeMove pe pending sh o := by
  have hm := waitMask_waitResponse hp
  unfold awaitResponse at h
  rw [← hm] at h
  refine Listens.move ⟨by simp [hm],by simp [hm],?_,?_,?_,rfl⟩ hw h
  · intro evt hr
    rw [if_pos hr]
  · intro evt e hr he hin hne
    rw [hm] at hin
    exact absurd (by simpa [hne] using hin : e=.peReset) fun h => hr (h ▸ he)
  · intro evt ht ho
    rw [if_neg (ho _ (by simp [hm]) (by decide)),if_neg (List.ne_nil_of_mem ht)]

theorem peSinkReady_move (hp : pe.point=.start) (hs : pe.state=.sinkReady)
    (hw : phase pe=.working) (h : (peSinkReady pe).perform expired pending sh=some o) :
    PeMove pe pending sh o := by
  have hm := waitMask_sinkReady hp hs
  unfold peSinkReady at h
  rw [← hm] at h
  refine Listens.move ⟨by simp [hm],by simp [hm],?_,?_,?_,rfl⟩ hw h
  · intro evt hr
    rw [if_pos hr]
  · intro evt e hr he hin hne
    rw [if_neg hr]
    split_ifs with h1 h2 h3 h4 h5 h6
    · rfl
    · rfl
    · rfl
    · rfl
    · rfl
    · rw [hm] at hin
      simp only [List.mem_cons,List.not_mem_nil,or_false] at hin
      rcases hin with rfl | rfl | rfl | rfl | rfl | rfl <;> contradiction
    · rfl
  · intro evt ht ho
    rw [if_neg (ho _ (by simp [hm]) (by decide)),if_neg (ho _ (by simp [hm]) (by decide)),
      if_neg (ho _ (by simp [hm]) (by decide)),if_neg (ho _ (by simp [hm]) (by decide)),
      if_neg (ho _ (by simp [hm]) (by decide)),if_neg (List.ne_nil_of_mem ht),if_pos ht]

/-- Waiting between two chunks hears nothing but a reset. -/
theorem peSinkChunkReceived_move (hp : pe.point=.start) (hs : pe.state=.sinkChunkReceived)
    (hw : phase pe=.working) (h : (peSinkChunkReceived pe).perform expired pending sh=some o) :
    PeMove pe pending sh o := by
  have hm := waitMask_sinkChunkReceived hp hs
  unfold peSinkChunkReceived at h
  rw [← hm] at h
  rcases Action.perform_wait.mp h with ⟨-,ht,rfl⟩ | ⟨-,-,-,rfl⟩
  · have hr : pending .peReset=true := by simpa [hm] using taken_ne_nil.mp ht
    have hmem : .peReset ∈ waitMask pe := by simp [hm]
    rw [if_pos (mem_taken.mpr ⟨hmem,hr⟩)]
    exact .heedReset hw hmem hr
  · exact .think hw rfl (SameMail.refl sh)

theorem peSinkHardReset_move (hp : pe.point=.start) (hs : pe.state=.sinkHardReset)
    (hw : phase pe=.working) (h : (peSinkHardReset pe).perform expired pending sh=some o) :
    PeMove pe pending sh o := by
  unfold peSinkHardReset at h
  by_cases hc : pdNHardResetCount < pe.hardResetCounter
  · rw [if_pos hc] at h
    exact compute_move hw rfl h
  · rw [if_neg hc] at h
    obtain ⟨-,rfl⟩ := Action.perform_signal.mp h
    exact .ask hp hs (by omega)

/-! ## The thread -/

/-- The first action of a state function. -/
theorem stateFunction_move (hp : pe.point=.start)
    (h : (stateFunction pe).perform expired pending sh=some o) : PeMove pe pending sh o := by
  have hphase := phase_start hp
  unfold stateFunction at h
  cases hs : pe.state <;> rw [hs] at h hphase <;> dsimp only at h
  case sinkStartup => exact compute_move hphase rfl h
  case sinkDiscovery => exact compute_move hphase rfl h
  case sinkWaitCap => exact peSinkWaitCap_move hp hs hphase h
  case sinkEvalCap => exact peSinkEvalCap_move hphase h
  case sinkSelectCap => exact peSinkSelectCap_move hphase ⟨hp,by rw [hs]; decide⟩ h
  case sinkTransitionSink => exact peSinkTransitionSink_move hp hs hphase h
  case sinkReady => exact peSinkReady_move hp hs hphase h
  case sinkGetSourceCap => exact sendNew_move hphase ⟨hp,by rw [hs]; decide⟩ h
  case sinkGiveSinkCap => exact sendNew_move hphase ⟨hp,by rw [hs]; decide⟩ h
  case sinkHardReset => exact peSinkHardReset_move hp hs hphase h
  case sinkTransitionDefault =>
    obtain ⟨-,rfl⟩ := Action.perform_access_some.mp h
    exact .settle hphase rfl ⟨⟨rfl,rfl,rfl⟩,rfl,rfl⟩
  case sinkSoftReset => exact sendNew_move hphase ⟨hp,by rw [hs]; decide⟩ h
  case sinkSendSoftReset => exact sendNew_move hphase ⟨hp,by rw [hs]; decide⟩ h
  case sinkSendNotSupported => exact sendNew_move hphase ⟨hp,by rw [hs]; decide⟩ h
  case sinkChunkReceived => exact peSinkChunkReceived_move hp hs hphase h
  case sinkNotSupportedReceived => exact compute_move hphase rfl h
  case sinkSourceUnresponsive =>
    obtain ⟨-,rfl⟩ := Action.perform_access_some.mp h
    exact .think hphase rfl ⟨⟨rfl,rfl,rfl⟩,rfl,rfl⟩

/-- Every action of the Policy Engine is one of its moves. -/
theorem policyEngine_move (h : (policyEngine pe).perform expired pending sh=some o) :
    PeMove pe pending sh o := by
  unfold policyEngine at h
  cases hp : pe.point <;> rw [hp] at h <;> dsimp only at h
  case start => exact stateFunction_move hp h
  case dropMessage =>
    obtain ⟨-,rfl⟩ := Action.perform_access_some.mp h
    refine .think (by unfold phase; rw [hp]) rfl ?_
    cases pe.message <;> exact ⟨⟨rfl,rfl,rfl⟩,rfl,rfl⟩
  case startAms next =>
    obtain ⟨-,rfl⟩ := Action.perform_signal.mp h
    refine .startAms (by unfold phase; rw [hp]) (startPhase_working ?_)
    intro hn
    have hnext := next.property
    rw [show next.val=.sinkTransitionDefault from hn] at hnext
    exact absurd hnext (by decide)
  case signalTx =>
    obtain ⟨-,rfl⟩ := Action.perform_signal.mp h
    exact .ring hp
  case waitTx =>
    have hm := waitMask_waitTx hp
    obtain ⟨-,ht,rfl⟩ := Action.perform_wait_untimed.mp h
    have hmove : PeMove pe pending sh _ := .result hp (by rw [hm]; exact taken_ne_nil.mpr ht)
    rw [hm] at hmove
    exact hmove
  case sent result => exact afterSent_move hp h
  case waitResponse => exact awaitResponse_move hp (by unfold phase; rw [hp]) h
  case fetch =>
    rcases fetchMessage_perform h with ⟨hq,rfl⟩ | ⟨m,rest,hq,rfl⟩
    · have hw : phase (goto pe (emptyFetch pe.state))=.working := by
        unfold emptyFetch
        split <;> rfl
      have hmove : PeMove pe pending sh _ := .fetch hp hw
      rw [hq,List.tail_nil,← hq] at hmove
      exact hmove
    · have hw : phase (at_ {pe with message := some m} .handle)=.working := rfl
      have hmove : PeMove pe pending sh _ := .fetch hp hw
      rw [hq,List.tail_cons] at hmove
      exact hmove
  case handle =>
    obtain ⟨m,sh',next,-,he,rfl⟩ := handle_perform h
    have hw := handleMessage_works he
    exact .think (by unfold phase; rw [hp]) hw.1 hw.2
  case waitHardSent =>
    have hm := waitMask_waitHardSent hp
    obtain ⟨-,ht,rfl⟩ := Action.perform_wait_untimed.mp h
    have hs : pending .peHardSent=true := by simpa using ht
    rw [← hm]
    exact .release hp rfl hs
  case signalDone =>
    obtain ⟨-,rfl⟩ := Action.perform_signal.mp h
    exact .done hp

/-! ## What the thread leaves alone -/

/-- Every flag the Policy Engine takes or signals. -/
def peEvents : List Event :=
  [.peReset,.peMsgRx,.peTxDone,.peTxErr,.peHardSent,.peOvrTemp,.pePpsRequest,.peGetSourceCap,
    .peNewPower,.prltxMsgTx,.prltxStartAms,.hardrstReset,.hardrstDone]

/-- What its waits take is among them. -/
theorem waitMask_subset (pe : PolicyEngine) : waitMask pe ⊆ peEvents := by
  unfold waitMask
  split <;> decide

/-- Every other flag keeps its value. -/
theorem PeMove.pending_other (h : PeMove pe pending sh o) {e : Event} (he : e ∉ peEvents) :
    o.pending e=pending e := by
  have hmask : e ∉ waitMask pe := fun hm => he (waitMask_subset pe hm)
  simp only [peEvents,List.mem_cons,not_or] at he
  cases h <;> simp [hmask,he]

/-- The thread changes neither the PHY nor the counters of the protocol layer. -/
theorem PeMove.frame (h : PeMove pe pending sh o) : Kept sh o.shared := by
  cases h with
  | think hp hp' hs => exact hs.toKept
  | settle hp hp' hs => exact hs.toKept
  | post hp hs hp' hk hm ht => exact hk
  | fetch hp hp' => exact ⟨rfl,rfl,rfl⟩
  | _ => exact Kept.refl sh

end UsbPdFirmware.PolicyEngineMoves
