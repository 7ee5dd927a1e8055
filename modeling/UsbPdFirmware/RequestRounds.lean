import UsbPdFirmware.Negotiation
import UsbPdFirmware.RequestedPower

/-!
# Rounds of negotiation

Every round evaluates capabilities and makes a Request; the same Request may
be made again until the next round. Between two evaluations the Request, the
positions kept with it and the stored capabilities stay as they are.
-/

namespace UsbPdFirmware.RequestRounds

open PdMessage DevicePolicy LabelledRuns Machine EventThreads FirmwareState PolicyEngine
open FirmwareSystem NegotiationMoves Negotiation RequestedObject RequestedPower CapabilitySelection

/-! ## Between evaluations -/

/-- What only an evaluation changes. -/
structure SameRound (pe pe' : PolicyEngine) (sh sh' : Shared) : Prop where
  /-- The Request. -/
  request : pe'.lastDpmRequest=pe.lastDpmRequest
  /-- The position of the first programmable supply. -/
  ppsIndex : pe'.ppsIndex=pe.ppsIndex
  /-- The position of the one requested before. -/
  lastPps : pe'.lastPps=pe.lastPps
  /-- The stored capabilities. -/
  capabilities : sh'.dpm.capabilities=sh.dpm.capabilities

/-- The next action evaluates capabilities. -/
def evaluates (pe : PolicyEngine) : Bool := decide (pe.point=.start ∧ pe.state=.sinkEvalCap)

section Same

variable {pe pe' : PolicyEngine} {sh sh' : Shared} {m : MsgPtr}

/-- Freeing a message and returning a state. -/
theorem finish_same {pe₁ : PolicyEngine} {state : PolicyEngineState} (dpm : Dpm)
    (h : finish pe₁ m {sh with dpm := dpm} state=some (sh',pe'))
    (hr : pe₁.lastDpmRequest=pe.lastDpmRequest) (hi : pe₁.ppsIndex=pe.ppsIndex)
    (hl : pe₁.lastPps=pe.lastPps) (hd : dpm.capabilities=sh.dpm.capabilities) :
    SameRound pe pe' sh sh' := by
  obtain ⟨rfl,rfl⟩ := Prod.ext_iff.mp (Option.some.inj h)
  exact ⟨hr,hi,hl,hd⟩

/-- A message in `PESinkReady`. -/
theorem peSinkReadyMessage_same (h : peSinkReadyMessage pe m sh=some (sh',pe')) :
    SameRound pe pe' sh sh' := by
  cases peSinkReadyMessage_step h with
  | answer hs h => exact finish_same sh.dpm h rfl rfl rfl rfl
  | gotomin hm hg h => exact finish_same _ h rfl rfl rfl rfl
  | capabilities hm hsh hpe =>
    subst hsh hpe
    exact ⟨rfl,rfl,rfl,rfl⟩

/-- A message in every receiving state. -/
theorem handleMessage_same (h : handleMessage pe m sh=some (sh',pe')) : SameRound pe pe' sh sh' := by
  have hfree {pe₁ : PolicyEngine} {state : PolicyEngineState} (h : finish pe₁ m sh state=some (sh',pe'))
      (hr : pe₁.lastDpmRequest=pe.lastDpmRequest) (hi : pe₁.ppsIndex=pe.ppsIndex)
      (hl : pe₁.lastPps=pe.lastPps) : SameRound pe pe' sh sh' := finish_same sh.dpm h hr hi hl rfl
  unfold handleMessage at h
  cases hs : pe.state <;> rw [hs] at h <;> dsimp only at h
  case sinkWaitCap =>
    unfold peSinkWaitCapMessage at h
    split_ifs at h
    · obtain ⟨rfl,rfl⟩ := Prod.ext_iff.mp (Option.some.inj h)
      exact ⟨rfl,rfl,rfl,rfl⟩
    · exact hfree h rfl rfl rfl
    · obtain ⟨rfl,rfl⟩ := Prod.ext_iff.mp (Option.some.inj h)
      exact ⟨rfl,rfl,rfl,rfl⟩
  case sinkReady => exact peSinkReadyMessage_same h
  case sinkSelectCap =>
    unfold peSinkSelectCapMessage at h
    dsimp only at h
    split_ifs at h
    · exact finish_same _ h rfl rfl rfl (pdbsDpmTransitionStandby_capabilities _)
    all_goals exact hfree h rfl rfl rfl
  case sinkTransitionSink =>
    unfold peSinkTransitionSinkMessage at h
    dsimp only at h
    split_ifs at h
    · exact hfree h rfl rfl rfl
    · exact finish_same _ h rfl rfl rfl rfl
    · exact finish_same _ h rfl rfl rfl rfl
  case sinkSendSoftReset =>
    unfold peSinkSendSoftResetMessage at h
    split_ifs at h <;> exact hfree h rfl rfl rfl
  all_goals exact absurd h (by simp)

/-- Freeing what was sent. -/
theorem freeSent_same {result : TxResult} {onFailure onDone : PolicyEngine → PolicyEngine}
    (hf : ∀ sh', sh'.dpm=sh.dpm → SameRound pe (onFailure {pe with sending := none}) sh sh')
    (hd : ∀ sh', sh'.dpm=sh.dpm → SameRound pe (onDone {pe with sending := none}) sh sh') :
    (freeSent pe result onFailure onDone).Ensures (SameRound pe · sh ·) sh := by
  have hdpm : (sh.free? pe.sending).dpm=sh.dpm := free?_dpm _ _
  intro sh' next he
  obtain ⟨rfl,rfl⟩ := Prod.ext_iff.mp (Option.some.inj he)
  cases result with
  | reset => exact ⟨rfl,rfl,rfl,by rw [hdpm]⟩
  | failed => exact hf _ hdpm
  | done => exact hd _ hdpm

/-- What follows the end of a transmission. -/
theorem afterSent_same {result : TxResult} : (afterSent pe result).Ensures (SameRound pe · sh ·) sh := by
  unfold afterSent
  cases pe.state <;> dsimp only
  case sinkSelectCap =>
    intro sh' next he
    cases result with
    | reset =>
      obtain ⟨rfl,rfl⟩ := Prod.ext_iff.mp (Option.some.inj he)
      exact ⟨rfl,rfl,rfl,rfl⟩
    | failed =>
      obtain ⟨rfl,rfl⟩ := Prod.ext_iff.mp (Option.some.inj he)
      exact ⟨rfl,rfl,rfl,rfl⟩
    | done =>
      obtain ⟨rfl,rfl⟩ := Prod.ext_iff.mp (Option.some.inj he)
      exact ⟨rfl,rfl,rfl,rfl⟩
  case sinkSoftReset | sinkSendSoftReset | sinkSendNotSupported | sinkGetSourceCap | sinkGiveSinkCap =>
    exact freeSent_same (fun _ hd => ⟨rfl,rfl,rfl,by rw [hd]⟩) fun _ hd => ⟨rfl,rfl,rfl,by rw [hd]⟩
  all_goals
    intro sh' next he
    cases he

/-- A message is built and posted. -/
theorem sendNew_same {build : Shared → PdMsg → PdMsg} :
    (sendNew pe build).Ensures (SameRound pe · sh ·) sh := by
  refine Action.ensures_access fun o ho => ?_
  obtain ⟨m,pool,-,rfl⟩ := sendNew_perform ho
  exact ⟨rfl,rfl,rfl,rfl⟩

/-- The first action of a state function that evaluates nothing. -/
theorem stateFunction_same (hs : pe.state≠.sinkEvalCap) :
    (stateFunction pe).Ensures (SameRound pe · sh ·) sh := by
  have hwait (mask : List Event) (timed : Bool) (resume : List Event → PolicyEngine)
      (hr : ∀ evt, SameRound pe (resume evt) sh sh) :
      (Action.wait mask timed resume : PeAction).Ensures (SameRound pe · sh ·) sh := hr
  unfold stateFunction
  cases he : pe.state <;> dsimp only
  case sinkEvalCap => exact absurd he hs
  case sinkSelectCap =>
    refine Action.ensures_access fun o ho => ?_
    obtain ⟨m,-,rfl⟩ := peSinkSelectCap_perform ho
    exact ⟨rfl,rfl,rfl,rfl⟩
  case sinkSoftReset | sinkSendSoftReset | sinkSendNotSupported | sinkGetSourceCap | sinkGiveSinkCap =>
    exact sendNew_same
  case sinkHardReset =>
    unfold peSinkHardReset
    split_ifs
    · intro sh' next h
      cases h
      exact ⟨rfl,rfl,rfl,rfl⟩
    · exact ⟨rfl,rfl,rfl,rfl⟩
  case sinkSourceUnresponsive =>
    intro sh' next h
    cases h
    exact ⟨rfl,rfl,rfl,(apply_ite Dpm.capabilities _ _ _).trans (ite_self _)⟩
  case sinkWaitCap | sinkTransitionSink | sinkReady | sinkChunkReceived =>
    refine hwait _ _ _ fun evt => ?_
    split_ifs <;> exact ⟨rfl,rfl,rfl,rfl⟩
  all_goals
    intro sh' next h
    cases h
    exact ⟨rfl,rfl,rfl,rfl⟩

/-- Every action but an evaluation stays in the round. -/
theorem policyEngine_same (h : evaluates pe=false) :
    (policyEngine pe).Ensures (SameRound pe · sh ·) sh := by
  unfold policyEngine
  cases hp : pe.point <;> dsimp only
  case start =>
    have hne : pe.state≠.sinkEvalCap := fun hs => of_decide_eq_false h ⟨hp,hs⟩
    exact stateFunction_same hne
  case sent result => exact afterSent_same
  case handle =>
    cases hm : pe.message with
    | none =>
      intro sh' next he
      cases he
    | some m => exact fun sh' next he => handleMessage_same he
  case dropMessage =>
    intro sh' next he
    obtain ⟨rfl,rfl⟩ := Prod.ext_iff.mp (Option.some.inj he)
    exact ⟨rfl,rfl,rfl,by rw [free?_dpm]⟩
  case fetch =>
    refine Action.ensures_access fun o ho => ?_
    rcases fetchMessage_perform ho with ⟨-,rfl⟩ | ⟨m,rest,-,rfl⟩
    · exact ⟨rfl,rfl,rfl,rfl⟩
    · exact ⟨rfl,rfl,rfl,rfl⟩
  case waitResponse =>
    intro evt
    dsimp only
    split_ifs <;> exact ⟨rfl,rfl,rfl,rfl⟩
  all_goals first | exact ⟨rfl,rfl,rfl,rfl⟩ | exact fun _ => ⟨rfl,rfl,rfl,rfl⟩

end Same

/-! ## One evaluation -/

section Evaluation

variable {pe : PolicyEngine} {pending : Event → Bool} {sh : Shared} {expired : Bool}
  {o : Outcome Event PolicyEngine Shared}

/-- The position of the first programmable supply, with new capabilities or
with the stored ones. -/
def notedPps (pe : PolicyEngine) : ℕ :=
  match pe.message with
  | some caps => firstPps caps.msg
  | none => pe.ppsIndex

/-- The position that is kept of the Request before. -/
def keptPps (pe : PolicyEngine) : ℕ :=
  match pe.lastDpmRequest with
  | some r => if notedPps pe ≤ pdRdoObjposGet r.msg then pdRdoObjposGet r.msg else 8
  | none => if pe.message.isSome then 8 else pe.lastPps

/-- An evaluation notes the first programmable supply, keeps the position of
the Request before, and builds another. -/
theorem evaluation_perform (h : (peSinkEvalCap pe).perform expired pending sh=some o) :
    ∃ request pool, RequestFrom pe sh request pool ∧
      o=⟨pending,goto {pe with
          ppsIndex := notedPps pe
          lastPps := keptPps pe
          lastDpmRequest := some (evaluateCapability pe.message request {sh with pool := pool}).1
          message := none} .sinkSelectCap,
        (evaluateCapability pe.message request {sh with pool := pool}).2⟩ := by
  have hnote : noteCapabilities pe={pe with
      ppsIndex := notedPps pe
      lastPps := if pe.message.isSome then 8 else pe.lastPps} := by
    obtain ⟨state,point,message,lastDpmRequest,sending,explicitContract,minPower⟩ := pe
    cases message <;> rfl
  obtain ⟨-,sh',next,he,rfl⟩ := Action.perform_access.mp h
  obtain ⟨⟨request,pe₁,sh₁⟩,hr,he⟩ := Option.map_eq_some_iff.mp he
  obtain ⟨rfl,rfl⟩ := Prod.ext_iff.mp he
  rw [hnote] at hr
  unfold prepareRequest at hr
  dsimp only at hr
  split at hr
  · next hreq =>
    obtain ⟨⟨block,sh₂⟩,ha,he⟩ := Option.map_eq_some_iff.mp hr
    obtain ⟨pool,hp,rfl⟩ := Shared.alloc_eq_some.mp ha
    cases he
    refine ⟨⟨block,sh.junk⟩,pool,.inr ⟨hreq,hp⟩,?_⟩
    unfold keptPps
    rw [hreq]
  · next r hreq =>
    cases hr
    refine ⟨_,sh.pool,.inl ⟨hreq,rfl⟩,?_⟩
    unfold keptPps
    rw [hreq]

end Evaluation

/-! ## Steps of the firmware -/

section Steps

variable {s s' : System} {l : Label}

/-- A step evaluates capabilities, or stays in the round. -/
theorem round_step (h : firmware.step l s=some s') :
    (evaluates s.pe=true ∧ l.isPe=true ∧
      ∃ o, (peSinkEvalCap s.pe).perform l.isPeTimeout s.pending s.shared=some o ∧ s'=s.withPe o) ∨
    ((evaluates s.pe && l.isPe)=false ∧ SameRound s.pe s'.pe s.shared s'.shared) := by
  have hm := firmware_moved h
  have hothers (hl : l.isPe=false) (hpe : s'.pe=s.pe)
      (hdpm : s'.shared.dpm.capabilities=s.shared.dpm.capabilities) :
      (evaluates s.pe && l.isPe)=false ∧ SameRound s.pe s'.pe s.shared s'.shared := by
    refine ⟨by rw [hl,Bool.and_false],?_,?_,?_,hdpm⟩
    · rw [hpe]
    · rw [hpe]
    · rw [hpe]
  cases hm with
  | pe hl he hp =>
    cases hev : evaluates s.pe with
    | true =>
      obtain ⟨hpoint,hstate⟩ := of_decide_eq_true hev
      rw [expired_eq hl he] at hp
      unfold policyEngine stateFunction at hp
      rw [hpoint,hstate] at hp
      exact .inl ⟨rfl,hl,_,hp,rfl⟩
    | false => exact .inr ⟨rfl,(policyEngine_same hev).perform hp⟩
  | rx hr => exact .inr (hothers rfl rfl (congrArg Dpm.capabilities hr.frame.dpm))
  | tx ht => exact .inr (hothers rfl rfl (congrArg Dpm.capabilities ht.frame.dpm))
  | hr hl hh =>
    have hcaps := congrArg Dpm.capabilities hh.frame.dpm
    rcases hl with rfl | rfl
    · exact .inr (hothers rfl rfl hcaps)
    · exact .inr (hothers rfl rfl hcaps)
  | intN hi => exact .inr (hothers rfl rfl (congrArg Dpm.capabilities hi.frame.dpm))
  | env he => exact .inr (hothers rfl (environment_frame he).pe (by rw [environment_dpm he]))

/-- The kept position belongs to the stored capabilities. -/
def Noted (s : System) : Prop :=
  ∀ c, s.shared.dpm.capabilities=some c → s.pe.ppsIndex=firstPps c.msg

/-- Every evaluation notes it anew. -/
theorem Noted.step (h : Noted s) (hs : firmware.step l s=some s') : Noted s' := by
  rcases round_step hs with ⟨-,-,o,ho,rfl⟩ | ⟨-,hsame⟩
  · obtain ⟨request,pool,-,rfl⟩ := evaluation_perform ho
    obtain ⟨e,-,hcaps,-⟩ := evaluateCapability_spec s.pe.message request {s.shared with pool := pool}
    intro c hc
    have hc' := hcaps.symm.trans hc
    change notedPps s.pe=firstPps c.msg
    unfold notedPps
    cases hm : s.pe.message with
    | none =>
      rw [hm,Option.none_or] at hc'
      exact h c hc'
    | some m =>
      rw [hm,Option.some_or] at hc'
      cases hc'
      rfl
  · intro c hc
    rw [hsame.capabilities] at hc
    rw [hsame.ppsIndex]
    exact h c hc

/-- In every state the position of the first programmable supply is that of
the stored capabilities. -/
theorem noted_of_reach (h : firmware.Reach anyStep s) : Noted s :=
  h.invariant (I := Noted) (fun _ hc => by cases hc) fun _ _ _ _ hn _ hs => hn.step hs

end Steps

/-! ## The periodic timer -/

/-- The Request asks for an object that is no programmable supply and stands
behind one. -/
def AsksBehindPps (caps request : PdMsg) : Prop :=
  isPps (requestedObject caps request)=false ∧
    ∃ j < pdRdoObjposGet request-1, isPps (caps.object j)=true

/-- The first programmable supply is not after a position exactly when there
is one up to it. -/
theorem firstPps_le_iff {caps : PdMsg} {position : ℕ} (h : position ≤ caps.numobjGet) :
    firstPps caps ≤ position ↔ ∃ j < position, isPps (caps.object j)=true := by
  unfold firstPps
  cases hf : (List.range caps.numobjGet).find? fun i => isPps (caps.object i) with
  | some i =>
    have hfirst := IndexSearch.first_of_find hf
    dsimp only
    constructor
    · intro hle
      exact ⟨i,by omega,hfirst.holds⟩
    · rintro ⟨j,hj,hp⟩
      have hij : ¬j < i := fun hlt => hfirst.before j hlt hp
      omega
  | none =>
    have hseven := caps.numobjGet_le
    dsimp only
    constructor
    · intro hle
      omega
    · rintro ⟨j,hj,hp⟩
      exact absurd hp (IndexSearch.none_of_find hf j (by omega))

/-- Up to the requested object there is one exactly when it is one itself, or
one stands before it. -/
theorem firstPps_le_objpos {caps request : PdMsg} (hlow : 1 ≤ pdRdoObjposGet request)
    (hhigh : pdRdoObjposGet request ≤ caps.numobjGet) :
    firstPps caps ≤ pdRdoObjposGet request ↔ isPps (requestedObject caps request)=true ∨
      ∃ j < pdRdoObjposGet request-1, isPps (caps.object j)=true := by
  rw [firstPps_le_iff hhigh]
  constructor
  · rintro ⟨j,hj,hp⟩
    by_cases hlast : j=pdRdoObjposGet request-1
    · exact .inl (by unfold requestedObject; rw [← hlast]; exact hp)
    · exact .inr ⟨j,by omega,hp⟩
  · rintro (hp | ⟨j,hj,hp⟩)
    · exact ⟨_,by omega,hp⟩
    · exact ⟨j,by omega,hp⟩

/-- In `PESinkSelectCap` the Request is for one of the objects evaluated last,
which are the stored ones. -/
theorem requested_evaluated {p : System × Option EvaluationLog} (h : firmwareLogged.Reach anyStep p)
    (hs : p.1.pe.state=.sinkSelectCap) :
    ∃ r c call, p.1.pe.lastDpmRequest=some r ∧ p.1.shared.dpm.capabilities=some c ∧ p.2=some call ∧
      c.msg=call.caps ∧ 1 ≤ pdRdoObjposGet r.msg ∧ pdRdoObjposGet r.msg ≤ call.caps.numobjGet := by
  have hlogged := firmwareLogged_reach h
  have hsound := negotiator_sound hlogged.unobserved
  have hstand := hsound.requesting hs
  obtain ⟨-,r,c,hr,hcaps,hlow,hhigh⟩ := hsound.at_ hstand
  obtain ⟨call,c',hlog,-,hcaps',hmsg,-⟩ := logged_true hlogged (by rw [hstand]; decide)
  cases hcaps.symm.trans hcaps'
  exact ⟨r,c,call,hr,hcaps,hlog,hmsg,hlow,by rw [← hmsg]; exact hhigh⟩

/-- After a Request was sent under PD 3.0, the periodic timer runs exactly
while a programmable supply is requested, unless the Request asks for another
object behind one. -/
theorem periodicTimer_iff {p q : System × Option EvaluationLog} (h : firmwareLogged.Reach anyStep p)
    (hs : firmwareLogged.step .pe p=some q) (hstate : p.1.pe.state=.sinkSelectCap)
    (hpoint : p.1.pe.point=.sent .done) (hrev : p.1.shared.hdrTemplate &&& pdHdrSpecrev=pdSpecrev30) :
    ∃ r call, p.1.pe.lastDpmRequest=some r ∧ p.2=some call ∧
      ((q.1.shared.ppsTimer=true ↔ isPps (requestedObject call.caps r.msg)=true) ↔
        ¬AsksBehindPps call.caps r.msg) := by
  obtain ⟨r,c,call,hr,hcaps,hlog,hmsg,hlow,hhigh⟩ := requested_evaluated h hstate
  have hnoted : p.1.pe.ppsIndex=firstPps call.caps := by
    rw [noted_of_reach h.unobserved c hcaps,hmsg]
  have htimer : q.1.shared.ppsTimer=decide (firstPps call.caps ≤ pdRdoObjposGet r.msg) := by
    obtain ⟨hstep,-⟩ := observe_step.mp hs
    obtain ⟨o,ho,hq⟩ := Option.map_eq_some_iff.mp hstep
    unfold policyEngine afterSent at ho
    rw [hpoint,hstate] at ho
    obtain ⟨-,sh',next,he,rfl⟩ := Action.perform_access.mp ho
    obtain ⟨rfl,rfl⟩ := Prod.ext_iff.mp (Option.some.inj he)
    rw [← hq,← hnoted]
    change (if p.1.shared.hdrTemplate &&& pdHdrSpecrev=pdSpecrev30 then _ else _)=_
    rw [if_pos hrev,hr]
    rfl
  refine ⟨r,call,hr,hlog,?_⟩
  rw [htimer,decide_eq_true_iff,firstPps_le_objpos hlow hhigh]
  unfold AsksBehindPps
  cases isPps (requestedObject call.caps r.msg) <;> simp

/-- Capabilities of a PD 3.0 source: 5 V, 3.3 to 11 V programmable, and 9 V,
each at 3 A. -/
def programmableCapabilities (id : ℕ) : PdMsg :=
  PdMsg.setMessageid ⟨pdSpecrev30 ||| pdMsgtypeSourceCapabilities ||| pdNumobj 3,
    fun k => [0x0001912C,0xC0DC213C,0x0002D12C].getD k 0⟩ id

/-- A voltage is configured, 9 V is the profile, and the Request for those
capabilities has been sent. -/
def requested30 (v : ℕ) : List Label :=
  List.flatten [[.env (.storeConfig (some ⟨pdbsConfigStatusValid,0,v,100,v,v⟩)),.env (.profile 1)],powerUp,
    deliver (programmableCapabilities 0),[.pe,.pe,.pe,.pe,.pe,.pe],send,[.tx],acknowledge 0,[.pe]]

/-- With 9 V configured the programmable supply is requested, and its timer
runs. -/
theorem periodicTimer_nineVolts : ∃ p q : System × Option EvaluationLog, ∃ r call,
    firmwareLogged.Reach anyStep p ∧ firmwareLogged.step .pe p=some q ∧ p.1.pe.lastDpmRequest=some r ∧
      p.2=some call ∧ ((q.1.shared.ppsTimer=true ↔ isPps (requestedObject call.caps r.msg)=true) ↔
        ¬AsksBehindPps call.caps r.msg) := by
  obtain ⟨p,q,hr,hs,ht⟩ := exists_step_of_follow firmwareLogged anyStep (requested30 9000) .pe
    (fun p q => decide (p.1.pe.state=.sinkSelectCap ∧ p.1.pe.point=.sent .done ∧
      p.1.shared.hdrTemplate &&& pdHdrSpecrev=pdSpecrev30 ∧ q.1.shared.ppsTimer=true)) (by decide +kernel)
  obtain ⟨hstate,hpoint,hrev,-⟩ := of_decide_eq_true ht
  obtain ⟨r,call,hreq,hlog,hiff⟩ := periodicTimer_iff hr hs hstate hpoint hrev
  exact ⟨p,q,r,call,hr,hs,hreq,hlog,hiff⟩

/-- With 12 V configured the fixed object behind the programmable supply is
requested, and the timer of the programmable supply runs. -/
theorem periodicTimer_fixedRequested : ¬∀ p q r call, firmwareLogged.Reach anyStep p →
    firmwareLogged.step .pe p=some q → p.1.pe.state=.sinkSelectCap → p.1.pe.point=.sent .done →
    p.1.shared.hdrTemplate &&& pdHdrSpecrev=pdSpecrev30 → p.1.pe.lastDpmRequest=some r → p.2=some call →
    (q.1.shared.ppsTimer=true ↔ isPps (requestedObject call.caps r.msg)=true) := by
  intro hall
  obtain ⟨p,q,hr,hs,ht⟩ := exists_step_of_follow firmwareLogged anyStep (requested30 12000) .pe
    (fun p q => decide (p.1.pe.state=.sinkSelectCap ∧ p.1.pe.point=.sent .done ∧
      p.1.shared.hdrTemplate &&& pdHdrSpecrev=pdSpecrev30 ∧ q.1.shared.ppsTimer=true) &&
      p.1.pe.lastDpmRequest.any fun r => p.2.any fun call => !isPps (requestedObject call.caps r.msg))
    (by decide +kernel)
  obtain ⟨hpath,hfixed⟩ := Bool.and_eq_true_iff.mp ht
  obtain ⟨hstate,hpoint,hrev,htimer⟩ := of_decide_eq_true hpath
  obtain ⟨r,hreq,hfixed⟩ := (Option.any_eq_true _ _).mp hfixed
  obtain ⟨call,hlog,hfixed⟩ := (Option.any_eq_true _ _).mp hfixed
  have hpps := (hall p q r call hr hs hstate hpoint hrev hreq hlog).mp htimer
  rw [hpps] at hfixed
  exact absurd hfixed (by decide)

end UsbPdFirmware.RequestRounds
