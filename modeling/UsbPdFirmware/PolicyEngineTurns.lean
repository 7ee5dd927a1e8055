import UsbPdFirmware.BoundedRetry
import UsbPdFirmware.PolicyEngineMoves

/-!
# The Policy Engine between contracts and hard resets

What one action of the Policy Engine does to the contract, to the counter of
hard resets and to the output. Seen so, the thread works, or it has failed
and asks for a hard reset, or it is on the way through one, or it has given
up on the source.
-/

namespace UsbPdFirmware.PolicyEngineTurns

open PdMessage DevicePolicy EventThreads FirmwareState PolicyEngine PolicyEngineMoves BoundedRetry

/-- The stage in which a state function begins. -/
def startStage : PolicyEngineState → Stage
  | .sinkStartup => .opening
  | .sinkHardReset => .failing
  | .sinkTransitionDefault => .closing
  | .sinkSourceUnresponsive => .givenUp
  | _ => .working

/-- The stage of the thread. -/
def stage (pe : PolicyEngine) : Stage :=
  match pe.point with
  | .start => startStage pe.state
  | .waitHardSent => .retrying
  | .signalDone => .closed
  | _ => .working

theorem stage_start {pe : PolicyEngine} (h : pe.point=.start) : stage pe=startStage pe.state := by
  unfold stage
  rw [h]

/-- The next action handles the PS_RDY that concludes a contract. -/
def concludes (pe : PolicyEngine) : Bool :=
  match pe.point,pe.state,pe.message with
  | .handle,.sinkTransitionSink,some m => m.msg.isControl pdMsgtypePsRdy
  | _,_,_ => false

/-- A contract is concluded only where a message is handled. -/
theorem concludes_of_ne {pe : PolicyEngine} (h : pe.point≠.handle) : concludes pe=false := by
  unfold concludes
  split
  · contradiction
  · rfl

/-- Inside a state function the thread works, and concludes a contract only
where it handles a message. -/
theorem working_inside {pe : PolicyEngine}
    (h : pe.point ∉ [.start,.waitHardSent,.signalDone,.handle]) :
    stage pe=.working ∧ concludes pe=false := by
  simp only [List.mem_cons,List.not_mem_nil,or_false,not_or] at h
  obtain ⟨hs,hw,hd,hh⟩ := h
  refine ⟨?_,concludes_of_ne hh⟩
  unfold stage
  split <;> first | contradiction | rfl

/-- The message in hand is none of those a state knows. -/
def unexpected (pe : PolicyEngine) (known : PdMsg → Bool) : Bool :=
  pe.message.any fun m => !known m.msg

/-- The next action gives up what the thread is doing and turns to a hard
reset. -/
def fails (pe : PolicyEngine) (expired : Bool) (pending : Event → Bool) (sh : Shared) : Bool :=
  match pe.point,pe.state with
  | .start,.sinkWaitCap => expired
  | .start,.sinkTransitionSink => expired
  | .start,.sinkReady => pending .peOvrTemp && !pending .peReset
  | .sent .failed,state => state != .sinkSendNotSupported
  | .waitResponse,_ => expired
  | .fetch,state => sh.peMailbox.isEmpty && state != .sinkReady
  | .handle,.sinkWaitCap => unexpected pe fun m =>
      m.isData pdMsgtypeSourceCapabilities || m.isControl pdMsgtypeSoftReset
  | .handle,.sinkTransitionSink => unexpected pe (·.isControl pdMsgtypePsRdy)
  | .handle,.sinkSendSoftReset => unexpected pe fun m =>
      m.isControl pdMsgtypeAccept || m.isControl pdMsgtypeSoftReset
  | _,_ => false

/-- Contract and counter are as before, and the output was not switched on. -/
structure Steady (pe pe' : PolicyEngine) (sh sh' : Shared) : Prop where
  /-- The contract. -/
  contract : pe'.explicitContract=pe.explicitContract
  /-- The counter. -/
  resets : pe'.hardResetCounter=pe.hardResetCounter
  /-- The output. -/
  output : sh'.dpm.outCtrl=true → sh.dpm.outCtrl=true

section Turn

variable (pe : PolicyEngine) (expired : Bool) (pending : Event → Bool) (sh : Shared)

/-- Everything one action of the thread can do to contract, counter, output
and stage. -/
inductive Turn : Outcome Event PolicyEngine Shared → Prop where
  /-- The first action of all, and after every reset. -/
  | begin {o : Outcome Event PolicyEngine Shared} (hp : stage pe=.opening)
      (hp' : stage o.loc=.working) (hc : o.loc.explicitContract=false)
      (hr : o.loc.hardResetCounter=pe.hardResetCounter)
      (ho : o.shared.dpm.outCtrl=sh.dpm.outCtrl) : Turn o
  /-- The thread goes on. -/
  | work {o : Outcome Event PolicyEngine Shared} (hp : stage pe=.working)
      (hp' : stage o.loc=.working) (hn : concludes pe=false) (hs : Steady pe o.loc sh o.shared) : Turn o
  /-- It concludes a contract. -/
  | establish {o : Outcome Event PolicyEngine Shared} (hp : stage pe=.working)
      (hp' : stage o.loc=.working) (hn : concludes pe=true) (hc : o.loc.explicitContract=true)
      (hr : o.loc.hardResetCounter=pe.hardResetCounter) : Turn o
  /-- It turns to a hard reset. -/
  | fail {o : Outcome Event PolicyEngine Shared} (hp : stage pe=.working)
      (hp' : stage o.loc=.failing) (hn : concludes pe=false) (hs : Steady pe o.loc sh o.shared)
      (hf : fails pe expired pending sh=true) : Turn o
  /-- It asks for the hard reset. -/
  | retry {pending' : Event → Bool} (hp : stage pe=.failing)
      (hl : pe.hardResetCounter ≤ pdNHardResetCount) : Turn ⟨pending',at_ pe .waitHardSent,sh⟩
  /-- The hard reset was sent. -/
  | retried {pending' : Event → Bool} (hp : pe.point=.waitHardSent) :
      Turn ⟨pending',goto {pe with hardResetCounter := pe.hardResetCounter+1} .sinkTransitionDefault,sh⟩
  /-- It gives up on the source. -/
  | giveUp {pending' : Event → Bool} (hp : stage pe=.failing)
      (hl : pdNHardResetCount < pe.hardResetCounter) :
      Turn ⟨pending',goto pe .sinkSourceUnresponsive,sh⟩
  /-- A reset reaches it. -/
  | interrupt {o : Outcome Event PolicyEngine Shared} (hp : stage pe=.working)
      (hp' : stage o.loc=.closing) (hn : concludes pe=false)
      (hc : o.loc.explicitContract=pe.explicitContract)
      (hr : o.loc.hardResetCounter=pe.hardResetCounter)
      (ho : o.shared.dpm.outCtrl=sh.dpm.outCtrl) : Turn o
  /-- The power goes to its default. -/
  | close {pending' : Event → Bool} (hp : stage pe=.closing) :
      Turn ⟨pending',at_ {pe with explicitContract := false} .signalDone,
        {sh with dpm := pdbsDpmTransitionDefault sh.dpm}⟩
  /-- The reset is done. -/
  | reopen {pending' : Event → Bool} (hp : pe.point=.signalDone) :
      Turn ⟨pending',goto pe .sinkStartup,sh⟩
  /-- The thread looks at the Type-C Current only. -/
  | idle {o : Outcome Event PolicyEngine Shared} (hp : stage pe=.givenUp)
      (hp' : stage o.loc=.givenUp) (hc : o.loc.explicitContract=pe.explicitContract)
      (hr : o.loc.hardResetCounter=pe.hardResetCounter) : Turn o

end Turn

variable {pe pe' : PolicyEngine} {pending : Event → Bool} {sh sh' : Shared} {expired : Bool}
  {o : Outcome Event PolicyEngine Shared}

/-! ## Handling a message -/

/-- The thread works on, with contract and counter as before. -/
def Persists (pe pe' : PolicyEngine) (sh sh' : Shared) : Prop :=
  stage pe'=.working ∧ Steady pe pe' sh sh'

section Finish

variable {pe₁ : PolicyEngine} {m : MsgPtr} {state : PolicyEngineState}

/-- Freeing the message and returning a state to work in, whatever was done
to the manager's data before. -/
theorem finish_dpm_persists (dpm : Dpm)
    (h : finish pe₁ m {sh with dpm := dpm} state=some (sh',pe')) (hs : startStage state=.working)
    (hc : pe₁.explicitContract=pe.explicitContract)
    (hr : pe₁.hardResetCounter=pe.hardResetCounter)
    (ho : dpm.outCtrl=true → sh.dpm.outCtrl=true) : Persists pe pe' sh sh' := by
  obtain ⟨rfl,rfl⟩ := Prod.ext_iff.mp (Option.some.inj h)
  exact ⟨hs,hc,hr,ho⟩

/-- The same, with the manager's data as they were. -/
theorem finish_persists (h : finish pe₁ m sh state=some (sh',pe'))
    (hs : startStage state=.working) (hc : pe₁.explicitContract=pe.explicitContract)
    (hr : pe₁.hardResetCounter=pe.hardResetCounter) : Persists pe pe' sh sh' :=
  finish_dpm_persists sh.dpm h hs hc hr id

end Finish

/-- Every message is handled in `PESinkReady` without a failure. -/
theorem peSinkReadyMessage_persists {m : MsgPtr}
    (h : peSinkReadyMessage pe m sh=some (sh',pe')) : Persists pe pe' sh sh' := by
  have hworks : ∀ state ∈ readyAnswers, startStage state=.working := by decide
  cases peSinkReadyMessage_step h with
  | answer hs h => exact finish_persists h (hworks _ hs) rfl rfl
  | gotomin hm hg h => exact finish_dpm_persists _ h rfl rfl rfl fun ho => absurd ho Bool.false_ne_true
  | capabilities hm hsh hpe =>
    subst hsh hpe
    exact ⟨rfl,rfl,rfl,id⟩

/-- The response to a Request is handled without a failure. -/
theorem peSinkSelectCapMessage_persists {m : MsgPtr}
    (h : peSinkSelectCapMessage pe m sh=some (sh',pe')) : Persists pe pe' sh sh' := by
  unfold peSinkSelectCapMessage at h
  refine of_branches h (fun h => ?_) fun h => ?_
  · dsimp only at h
    split_ifs at h
    · exact finish_dpm_persists _ h rfl rfl rfl pdbsDpmTransitionStandby_outCtrl
    · exact finish_persists h rfl rfl rfl
  refine of_branches h (fun h => finish_persists h rfl rfl rfl) fun h => ?_
  refine of_branches h (fun h => ?_) fun h => finish_persists h rfl rfl rfl
  refine of_branches h (fun h => ?_) fun h => finish_persists h rfl rfl rfl
  exact finish_persists h rfl rfl rfl

theorem stage_handle (hp : pe.point=.handle) : stage pe=.working := by
  unfold stage
  rw [hp]

/-- A handled message lets the thread work on, concludes a contract, or is
unexpected. -/
theorem handleMessage_turn {m : MsgPtr} (hp : pe.point=.handle) (hm : pe.message=some m)
    (h : handleMessage pe m sh=some (sh',pe')) : Turn pe expired pending sh ⟨pending,pe',sh'⟩ := by
  have hw := stage_handle hp
  unfold handleMessage at h
  cases hs : pe.state <;> rw [hs] at h <;> dsimp only at h
  case sinkWaitCap =>
    have hn : concludes pe=false := by simp [concludes,hp,hs]
    unfold peSinkWaitCapMessage at h
    split_ifs at h with hcaps hsoft
    · obtain ⟨rfl,rfl⟩ := Prod.ext_iff.mp (Option.some.inj h)
      exact .work hw rfl hn ⟨rfl,rfl,id⟩
    · have hf : Persists pe pe' sh sh' := finish_persists h rfl rfl rfl
      exact .work hw hf.1 hn hf.2
    · obtain ⟨rfl,rfl⟩ := Prod.ext_iff.mp (Option.some.inj h)
      exact .fail hw rfl hn ⟨rfl,rfl,id⟩ (by simp [fails,unexpected,hp,hs,hm,hcaps,hsoft])
  case sinkSelectCap =>
    have hn : concludes pe=false := by simp [concludes,hp,hs]
    have hf := peSinkSelectCapMessage_persists h
    exact .work hw hf.1 hn hf.2
  case sinkTransitionSink =>
    unfold peSinkTransitionSinkMessage at h
    dsimp only at h
    split_ifs at h with hrdy hmin
    · obtain ⟨rfl,rfl⟩ := Prod.ext_iff.mp (Option.some.inj h)
      exact .establish hw rfl (by simp [concludes,hp,hs,hm,hrdy]) rfl rfl
    · obtain ⟨rfl,rfl⟩ := Prod.ext_iff.mp (Option.some.inj h)
      exact .establish hw rfl (by simp [concludes,hp,hs,hm,hrdy]) rfl rfl
    · obtain ⟨rfl,rfl⟩ := Prod.ext_iff.mp (Option.some.inj h)
      exact .fail hw rfl (by simp [concludes,hp,hs,hm,hrdy])
        ⟨rfl,rfl,fun ho => absurd ho Bool.false_ne_true⟩ (by simp [fails,unexpected,hp,hs,hm,hrdy])
  case sinkReady =>
    have hn : concludes pe=false := by simp [concludes,hp,hs]
    have hf := peSinkReadyMessage_persists h
    exact .work hw hf.1 hn hf.2
  case sinkSendSoftReset =>
    have hn : concludes pe=false := by simp [concludes,hp,hs]
    unfold peSinkSendSoftResetMessage at h
    split_ifs at h with hacc hsoft
    · have hf : Persists pe pe' sh sh' := finish_persists h rfl rfl rfl
      exact .work hw hf.1 hn hf.2
    · have hf : Persists pe pe' sh sh' := finish_persists h rfl rfl rfl
      exact .work hw hf.1 hn hf.2
    · obtain ⟨rfl,rfl⟩ := Prod.ext_iff.mp (Option.some.inj h)
      exact .fail hw rfl hn ⟨rfl,rfl,id⟩ (by simp [fails,unexpected,hp,hs,hm,hacc,hsoft])
  all_goals exact absurd h (by simp)

/-! ## Sending -/

/-- Freeing what was sent and going on by the result: after a failure the
thread works on, or it turns to a hard reset. -/
theorem freeSent_turn {result : TxResult} {onFailure onDone : PolicyEngine → PolicyEngine}
    (hp : pe.point=.sent result)
    (hf : ∀ pe₁, stage (onFailure pe₁)=.working ∧ Steady pe₁ (onFailure pe₁) sh sh ∨
      stage (onFailure pe₁)=.failing ∧ Steady pe₁ (onFailure pe₁) sh sh ∧
        pe.state≠.sinkSendNotSupported)
    (hd : ∀ pe₁, stage (onDone pe₁)=.working ∧ Steady pe₁ (onDone pe₁) sh sh)
    (h : (freeSent pe result onFailure onDone).perform expired pending sh=some o) :
    Turn pe expired pending sh o := by
  obtain ⟨-,rfl⟩ := Action.perform_access_some.mp h
  obtain ⟨hw,hn⟩ := working_inside (by rw [hp]; simp)
  have ho : (sh.free? pe.sending).dpm=sh.dpm := free?_dpm _ _
  cases result with
  | reset => exact .interrupt hw rfl hn rfl rfl (by rw [ho])
  | failed =>
    rcases hf {pe with sending := none} with ⟨hs,hk⟩ | ⟨hs,hk,hne⟩
    · exact .work hw hs hn ⟨hk.contract,hk.resets,by rw [ho]; exact id⟩
    · exact .fail hw hs hn ⟨hk.contract,hk.resets,by rw [ho]; exact id⟩ (by simp [fails,hp,hne])
  | done =>
    obtain ⟨hs,hk⟩ := hd {pe with sending := none}
    exact .work hw hs hn ⟨hk.contract,hk.resets,by rw [ho]; exact id⟩

/-- Four states turn to a hard reset after a failure. -/
theorem freeSent_hardReset_turn {result : TxResult} {onDone : PolicyEngine → PolicyEngine}
    (hp : pe.point=.sent result) (hne : pe.state≠.sinkSendNotSupported)
    (hd : (∃ state, startStage state=.working ∧ onDone=(goto · state)) ∨ onDone=(at_ · .waitResponse))
    (h : (freeSent pe result (goto · .sinkHardReset) onDone).perform expired pending sh=some o) :
    Turn pe expired pending sh o := by
  refine freeSent_turn hp ?_ ?_ h
  · exact fun _ => .inr ⟨rfl,⟨rfl,rfl,id⟩,hne⟩
  · rcases hd with ⟨state,hs,rfl⟩ | rfl
    · exact fun _ => ⟨hs,rfl,rfl,id⟩
    · exact fun _ => ⟨rfl,rfl,rfl,id⟩

/-- What a sending state does when its transmission is over. -/
theorem afterSent_turn {result : TxResult} (hp : pe.point=.sent result)
    (h : (afterSent pe result).perform expired pending sh=some o) : Turn pe expired pending sh o := by
  obtain ⟨hw,hn⟩ := working_inside (by rw [hp]; simp)
  unfold afterSent at h
  cases hs : pe.state <;> rw [hs] at h <;> dsimp only at h
  case sinkSelectCap =>
    obtain ⟨-,sh',next,he,rfl⟩ := Action.perform_access.mp h
    cases result with
    | reset =>
      obtain ⟨rfl,rfl⟩ := Prod.ext_iff.mp (Option.some.inj he)
      exact .interrupt hw rfl hn rfl rfl rfl
    | failed =>
      obtain ⟨rfl,rfl⟩ := Prod.ext_iff.mp (Option.some.inj he)
      exact .fail hw rfl hn ⟨rfl,rfl,id⟩ (by simp [fails,hp,hs])
    | done =>
      obtain ⟨rfl,rfl⟩ := Prod.ext_iff.mp (Option.some.inj he)
      exact .work hw rfl hn ⟨rfl,rfl,id⟩
  case sinkSendNotSupported =>
    refine freeSent_turn hp ?_ ?_ h
    · exact fun _ => .inl ⟨rfl,rfl,rfl,id⟩
    · exact fun _ => ⟨rfl,rfl,rfl,id⟩
  case sinkSoftReset => exact freeSent_hardReset_turn hp (by rw [hs]; decide) (.inl ⟨_,rfl,rfl⟩) h
  case sinkSendSoftReset => exact freeSent_hardReset_turn hp (by rw [hs]; decide) (.inr rfl) h
  case sinkGetSourceCap => exact freeSent_hardReset_turn hp (by rw [hs]; decide) (.inl ⟨_,rfl,rfl⟩) h
  case sinkGiveSinkCap => exact freeSent_hardReset_turn hp (by rw [hs]; decide) (.inl ⟨_,rfl,rfl⟩) h
  all_goals exact absurd h Action.perform_stuck

/-! ## Waiting -/

/-- A wait that is answered by a reset, by anything the thread works on with,
or by a failure. -/
theorem wait_turn {mask : List Event} {timed : Bool} {resume : List Event → PolicyEngine}
    (hw : stage pe=.working) (hn : concludes pe=false) (hk : ∀ evt, Steady pe (resume evt) sh sh)
    (hr : taken mask pending≠[] → stage (resume (taken mask pending))=.working ∨
      stage (resume (taken mask pending))=.closing ∨
      stage (resume (taken mask pending))=.failing ∧ fails pe false pending sh=true)
    (he : stage (resume [])=.working ∨ stage (resume [])=.failing ∧ fails pe true pending sh=true)
    (h : (Action.wait mask timed resume).perform expired pending sh=some o) :
    Turn pe expired pending sh o := by
  rcases Action.perform_wait.mp h with ⟨hx,hm,rfl⟩ | ⟨hx,-,-,rfl⟩
  · rcases hr hm with hs | hs | ⟨hs,hf⟩
    · exact .work hw hs hn (hk _)
    · exact .interrupt hw hs hn (hk _).contract (hk _).resets rfl
    · exact .fail hw hs hn (hk _) (by rw [hx]; exact hf)
  · rcases he with hs | ⟨hs,hf⟩
    · exact .work hw hs hn (hk _)
    · exact .fail hw hs hn (hk _) (by rw [hx]; exact hf)

theorem peSinkWaitCap_turn (hp : pe.point=.start) (hs : pe.state=.sinkWaitCap)
    (h : (peSinkWaitCap pe).perform expired pending sh=some o) : Turn pe expired pending sh o := by
  have hw : stage pe=.working := by rw [stage_start hp,hs]; rfl
  have hn : concludes pe=false := concludes_of_ne (by rw [hp]; simp)
  refine wait_turn hw hn (fun evt => ?_) (fun hne => ?_) ?_ h
  · split_ifs <;> exact ⟨rfl,rfl,id⟩
  · rw [if_neg hne]
    split_ifs with hreset htemp hmsg
    · exact .inr (.inl rfl)
    · exact .inl rfl
    · exact .inl rfl
    · simp at hreset htemp hmsg
      exact absurd (taken_eq_nil.mpr (by simp [hreset,htemp,hmsg])) hne
  · exact .inr ⟨rfl,by simp [fails,hp,hs]⟩

theorem peSinkTransitionSink_turn (hp : pe.point=.start) (hs : pe.state=.sinkTransitionSink)
    (h : (peSinkTransitionSink pe).perform expired pending sh=some o) :
    Turn pe expired pending sh o := by
  have hw : stage pe=.working := by rw [stage_start hp,hs]; rfl
  have hn : concludes pe=false := concludes_of_ne (by rw [hp]; simp)
  refine wait_turn hw hn (fun evt => ?_) (fun hne => ?_) ?_ h
  · split_ifs <;> exact ⟨rfl,rfl,id⟩
  · rw [if_neg hne]
    split_ifs with hreset
    · exact .inr (.inl rfl)
    · exact .inl rfl
  · exact .inr ⟨rfl,by simp [fails,hp,hs]⟩

theorem awaitResponse_turn (hp : pe.point=.waitResponse)
    (h : (awaitResponse pe).perform expired pending sh=some o) : Turn pe expired pending sh o := by
  obtain ⟨hw,hn⟩ := working_inside (by rw [hp]; simp)
  refine wait_turn hw hn (fun evt => ?_) (fun hne => ?_) ?_ h
  · split_ifs <;> exact ⟨rfl,rfl,id⟩
  · rw [if_neg hne]
    split_ifs with hreset
    · exact .inr (.inl rfl)
    · exact .inl rfl
  · exact .inr ⟨rfl,by simp [fails,hp]⟩

theorem peSinkReady_turn (hp : pe.point=.start) (hs : pe.state=.sinkReady)
    (h : (peSinkReady pe).perform expired pending sh=some o) : Turn pe expired pending sh o := by
  have hw : stage pe=.working := by rw [stage_start hp,hs]; rfl
  have hn : concludes pe=false := concludes_of_ne (by rw [hp]; simp)
  refine wait_turn hw hn (fun evt => ?_) (fun hne => ?_) (.inl rfl) h
  · split_ifs <;> exact ⟨rfl,rfl,id⟩
  · split_ifs with hreset htemp
    · exact .inr (.inl rfl)
    · simp at hreset htemp
      exact .inr (.inr ⟨rfl,by simp [fails,hp,hs,hreset,htemp]⟩)
    all_goals exact .inl rfl

theorem peSinkChunkReceived_turn (hp : pe.point=.start) (hs : pe.state=.sinkChunkReceived)
    (h : (peSinkChunkReceived pe).perform expired pending sh=some o) :
    Turn pe expired pending sh o := by
  have hw : stage pe=.working := by rw [stage_start hp,hs]; rfl
  have hn : concludes pe=false := concludes_of_ne (by rw [hp]; simp)
  refine wait_turn hw hn (fun evt => ?_) (fun hne => ?_) (.inl rfl) h
  · split_ifs <;> exact ⟨rfl,rfl,id⟩
  · split_ifs with hreset
    · exact .inr (.inl rfl)
    · exact .inl rfl

/-! ## The thread -/

/-- A message is built and posted. -/
theorem sendNew_turn {build : Shared → PdMsg → PdMsg} (hw : stage pe=.working)
    (hp : pe.point=.start) (h : (sendNew pe build).perform expired pending sh=some o) :
    Turn pe expired pending sh o := by
  have hn : concludes pe=false := concludes_of_ne (by rw [hp]; simp)
  obtain ⟨m,pool,-,rfl⟩ := sendNew_perform h
  exact .work hw rfl hn ⟨rfl,rfl,id⟩

/-- Building a Request leaves the output alone. -/
theorem evaluateCapability_outCtrl (caps : Option MsgPtr) (request : MsgPtr) (sh : Shared) :
    (evaluateCapability caps request sh).2.dpm.outCtrl=sh.dpm.outCtrl := by
  unfold evaluateCapability pdbsDpmEvaluateCapability
  cases caps with
  | none => rfl
  | some c =>
    dsimp only
    cases sh.dpm.capabilities <;> rfl

theorem peSinkEvalCap_turn (hw : stage pe=.working) (hp : pe.point=.start)
    (h : (peSinkEvalCap pe).perform expired pending sh=some o) : Turn pe expired pending sh o := by
  have hn : concludes pe=false := concludes_of_ne (by rw [hp]; simp)
  obtain ⟨request,_,_,pool,-,rfl⟩ := peSinkEvalCap_perform h
  have hout := evaluateCapability_outCtrl pe.message request {sh with pool := pool}
  exact .work hw rfl hn ⟨rfl,rfl,fun ho => hout.symm.trans ho⟩

/-- The first action of a state function. -/
theorem stateFunction_turn (hp : pe.point=.start)
    (h : (stateFunction pe).perform expired pending sh=some o) : Turn pe expired pending sh o := by
  have hstage := stage_start hp
  have hn : concludes pe=false := concludes_of_ne (by rw [hp]; simp)
  unfold stateFunction at h
  cases hs : pe.state <;> rw [hs] at h hstage <;> dsimp only at h
  case sinkStartup =>
    obtain ⟨-,rfl⟩ := Action.perform_access_some.mp h
    exact .begin hstage rfl rfl rfl rfl
  case sinkDiscovery =>
    obtain ⟨-,rfl⟩ := Action.perform_access_some.mp h
    exact .work hstage rfl hn ⟨rfl,rfl,id⟩
  case sinkWaitCap => exact peSinkWaitCap_turn hp hs h
  case sinkEvalCap => exact peSinkEvalCap_turn hstage hp h
  case sinkSelectCap =>
    obtain ⟨m,-,rfl⟩ := peSinkSelectCap_perform h
    exact .work hstage rfl hn ⟨rfl,rfl,id⟩
  case sinkTransitionSink => exact peSinkTransitionSink_turn hp hs h
  case sinkReady => exact peSinkReady_turn hp hs h
  case sinkGetSourceCap => exact sendNew_turn hstage hp h
  case sinkGiveSinkCap => exact sendNew_turn hstage hp h
  case sinkHardReset =>
    unfold peSinkHardReset at h
    by_cases hl : pdNHardResetCount < pe.hardResetCounter
    · rw [if_pos hl] at h
      obtain ⟨-,rfl⟩ := Action.perform_access_some.mp h
      exact .giveUp hstage hl
    · rw [if_neg hl] at h
      obtain ⟨-,rfl⟩ := Action.perform_signal.mp h
      exact .retry hstage (by omega)
  case sinkTransitionDefault =>
    obtain ⟨-,rfl⟩ := Action.perform_access_some.mp h
    exact .close hstage
  case sinkSoftReset => exact sendNew_turn hstage hp h
  case sinkSendSoftReset => exact sendNew_turn hstage hp h
  case sinkSendNotSupported => exact sendNew_turn hstage hp h
  case sinkChunkReceived => exact peSinkChunkReceived_turn hp hs h
  case sinkNotSupportedReceived =>
    obtain ⟨-,rfl⟩ := Action.perform_access_some.mp h
    exact .work hstage rfl hn ⟨rfl,rfl,id⟩
  case sinkSourceUnresponsive =>
    obtain ⟨-,rfl⟩ := Action.perform_access_some.mp h
    exact .idle hstage rfl rfl rfl

/-- Every action of the Policy Engine is one of these. -/
theorem policyEngine_turn (h : (policyEngine pe).perform expired pending sh=some o) :
    Turn pe expired pending sh o := by
  unfold policyEngine at h
  cases hp : pe.point <;> rw [hp] at h <;> dsimp only at h
  case start => exact stateFunction_turn hp h
  case sent result => exact afterSent_turn hp h
  case waitResponse => exact awaitResponse_turn hp h
  case dropMessage =>
    obtain ⟨hw,hn⟩ := working_inside (by rw [hp]; simp)
    obtain ⟨-,rfl⟩ := Action.perform_access_some.mp h
    refine .work hw rfl hn ⟨rfl,rfl,?_⟩
    cases pe.message <;> exact id
  case startAms next =>
    obtain ⟨hw,hn⟩ := working_inside (by rw [hp]; simp)
    obtain ⟨-,rfl⟩ := Action.perform_signal.mp h
    refine .work hw ?_ hn ⟨rfl,rfl,id⟩
    obtain ⟨state,hs⟩ := next
    simp only [List.mem_cons,List.not_mem_nil,or_false] at hs
    rcases hs with rfl | rfl | rfl <;> rfl
  case signalTx =>
    obtain ⟨hw,hn⟩ := working_inside (by rw [hp]; simp)
    obtain ⟨-,rfl⟩ := Action.perform_signal.mp h
    exact .work hw rfl hn ⟨rfl,rfl,id⟩
  case waitTx =>
    obtain ⟨hw,hn⟩ := working_inside (by rw [hp]; simp)
    refine wait_turn hw hn (fun evt => ?_) (fun _ => .inl ?_) (.inl ?_) h
    · exact ⟨rfl,rfl,id⟩
    · rfl
    · rfl
  case fetch =>
    obtain ⟨hw,hn⟩ := working_inside (by rw [hp]; simp)
    rcases fetchMessage_perform h with ⟨hq,rfl⟩ | ⟨m,rest,hq,rfl⟩
    · by_cases hs : pe.state=.sinkReady
      · refine .work hw ?_ hn ⟨rfl,rfl,id⟩
        rw [emptyFetch,if_pos hs]
        rfl
      · refine .fail hw ?_ hn ⟨rfl,rfl,id⟩ (by simp [fails,hp,hq,hs])
        rw [emptyFetch,if_neg hs]
        rfl
    · exact .work hw rfl hn ⟨rfl,rfl,id⟩
  case handle =>
    obtain ⟨m,sh',next,hm,he,rfl⟩ := handle_perform h
    exact handleMessage_turn hp hm he
  case waitHardSent =>
    obtain ⟨-,-,rfl⟩ := Action.perform_wait_untimed.mp h
    exact .retried hp
  case signalDone =>
    obtain ⟨-,rfl⟩ := Action.perform_signal.mp h
    exact .reopen hp

end UsbPdFirmware.PolicyEngineTurns
