import UsbPdFirmware.FirmwareSystem
import UsbPdFirmware.NegotiationMoves
import UsbPdFirmware.RequestedObject

/-!
# Negotiation amid anything else

The Policy Engine and its callbacks, with every other thread, the source and
the user replaced by anything that leaves the thread's locals and the
manager's own data alone. Any messages, results, resets and timeouts can
reach it so.
-/

namespace UsbPdFirmware.Negotiation

open PdMessage DevicePolicy LabelledRuns Machine EventThreads FirmwareState PolicyEngine
open FirmwareSystem NegotiationMoves RequestedObject

/-! ## The machine -/

/-- Who acts. -/
inductive Party where
  /-- The Policy Engine, or its wait expires. -/
  | pe (expired : Bool)
  /-- Anything else, which would make the system look like this. -/
  | others (s' : System)

/-- The system as the others would have it, save for what is not theirs. The
user sets two of the manager's data. -/
def amid (s s' : System) : System :=
  {s' with
    pe := s.pe
    shared := {s'.shared with
      dpm := {s.shared.dpm with
        outputEnabled := s'.shared.dpm.outputEnabled
        usbComms := s'.shared.dpm.usbComms}}}

/-- The Policy Engine amid anything else. -/
def negotiator : Machine System Party where
  start := initial
  step party s := match party with
    | .pe expired => ((policyEngine s.pe).perform expired s.pending s.shared).map s.withPe
    | .others s' => some (amid s s')

/-- Who takes a step of the firmware. -/
def party (l : Label) (s' : System) : Party :=
  match l with
  | .pe => .pe false
  | .peTimeout => .pe true
  | _ => .others s'

/-- The environment sets two of the manager's data at most. -/
theorem environment_dpm {e : Environment} {s s' : System} (h : environment e s=some s') :
    s'.shared.dpm={s.shared.dpm with
      outputEnabled := s'.shared.dpm.outputEnabled
      usbComms := s'.shared.dpm.usbComms} := by
  cases e
  case ppsTimer =>
    simp only [environment,Option.ite_none_right_eq_some,Option.some.injEq] at h
    obtain ⟨-,rfl⟩ := h
    rfl
  all_goals
    cases h
    rfl

/-- Every step of the firmware is one here. -/
theorem firmware_negotiates {s s' : System} {l : Label} (h : firmware.step l s=some s') :
    negotiator.step (party l s') s=some s' := by
  have hothers (hpe : s'.pe=s.pe) (hdpm : s'.shared.dpm={s.shared.dpm with
      outputEnabled := s'.shared.dpm.outputEnabled
      usbComms := s'.shared.dpm.usbComms}) : amid s s'=s' := by
    unfold amid
    rw [← hpe,← hdpm]
  have hsame (hdpm : s'.shared.dpm=s.shared.dpm) : s'.shared.dpm={s.shared.dpm with
      outputEnabled := s'.shared.dpm.outputEnabled
      usbComms := s'.shared.dpm.usbComms} := by rw [hdpm]
  cases firmware_moved h with
  | pe hl he hp =>
    rw [expired_eq hl he] at hp
    rcases Label.eq_of_isPe hl with rfl | rfl
    · exact Option.map_eq_some_iff.mpr ⟨_,hp,rfl⟩
    · exact Option.map_eq_some_iff.mpr ⟨_,hp,rfl⟩
  | rx hr => exact congrArg some (hothers rfl (hsame hr.frame.dpm))
  | tx ht => exact congrArg some (hothers rfl (hsame ht.frame.dpm))
  | hr hl hh =>
    rcases hl with rfl | rfl
    · exact congrArg some (hothers rfl (hsame hh.frame.dpm))
    · exact congrArg some (hothers rfl (hsame hh.frame.dpm))
  | intN hi => exact congrArg some (hothers rfl (hsame hi.frame.dpm))
  | env he => exact congrArg some (hothers (environment_frame he).pe (environment_dpm he))

/-! ## One evaluation -/

section Evaluate

variable (caps : Option MsgPtr) (request : MsgPtr) (sh : Shared)

/-- The object an evaluation selects, among new capabilities or the stored
ones. -/
def selectsObject : Option ℕ :=
  selectedObject sh.config (if sh.profile ≤ 3 then sh.profile else 0) sh.dpm.outputEnabled
    (sh.deref (caps.or sh.dpm.capabilities))

/-- What an evaluation leaves behind. -/
theorem evaluateCapability_spec : ∃ e,
    (evaluateCapability caps request sh).1={request with msg := e.request} ∧
    (evaluateCapability caps request sh).2.dpm.capabilities=caps.or sh.dpm.capabilities ∧
    (evaluateCapability caps request sh).2.dpm.capabilityMatch=e.capabilityMatch ∧
    (evaluateCapability caps request sh).2.dpm.outCtrl=sh.dpm.outCtrl ∧
    Selects sh.hdrTemplate sh.dpm.usbComms sh.dpm.outputEnabled
      (sh.deref (caps.or sh.dpm.capabilities)) request.msg e (selectsObject caps sh) := by
  unfold evaluateCapability pdbsDpmEvaluateCapability selectsObject
  cases caps with
  | none => exact ⟨_,rfl,rfl,rfl,rfl,evaluateStored_selects _ _ _ _ _ _⟩
  | some c =>
    dsimp only
    rw [free?_eq]
    exact ⟨_,rfl,rfl,rfl,rfl,evaluateStored_selects _ _ _ _ _ _⟩

end Evaluate

/-! ## What holds in every state -/

section Sound

variable (pe : PolicyEngine) (sh : Shared)

/-- The output needs a contract. -/
def Covered : Prop := sh.dpm.outCtrl=true → pe.explicitContract=true

/-- There are capabilities to evaluate. -/
def Offered : Prop :=
  ∃ c, pe.message.or sh.dpm.capabilities=some c ∧ c.msg.isData pdMsgtypeSourceCapabilities=true

/-- There is a Request for an object of the stored capabilities. -/
def Requested : Prop :=
  ∃ r c, pe.lastDpmRequest=some r ∧ sh.dpm.capabilities=some c ∧
    1 ≤ pdRdoObjposGet r.msg ∧ pdRdoObjposGet r.msg ≤ c.msg.numobjGet

/-- What the thread relies on where it stands. -/
def Relies : Standing → Prop
  | .opening => sh.dpm.outCtrl=false
  | .idle => Covered pe sh
  | .evaluating => Covered pe sh ∧ Offered pe sh
  | .requesting => Covered pe sh ∧ Requested pe sh
  | .transition => Covered pe sh ∧ Requested pe sh ∧ (pe.minPower=true → sh.dpm.outCtrl=false)
  | .contracted => pe.explicitContract=true ∧ Requested pe sh ∧ pe.state ∈ contractedStates ∧ Discards pe
  | .closed => sh.dpm.outCtrl=false ∧ pe.state=.sinkTransitionDefault
  | .unresponsive => True

/-- What holds between the contract, the Request, the capabilities and the
output. -/
structure Sound : Prop where
  /-- What is stored as the source's capabilities is such a message. -/
  stored : ∀ c, sh.dpm.capabilities=some c → c.msg.isData pdMsgtypeSourceCapabilities=true
  /-- The rest depends on where the thread stands. -/
  relies : Relies pe sh (standing pe)

end Sound

section Step

variable {pe pe' : PolicyEngine} {sh sh' : Shared} {o : Outcome Event PolicyEngine Shared}
  {s : Standing}

/-- Sound where the thread is known to stand. -/
theorem sound_at (hs : standing pe=s)
    (hstored : ∀ c, sh.dpm.capabilities=some c → c.msg.isData pdMsgtypeSourceCapabilities=true)
    (h : Relies pe sh s) : Sound pe sh := ⟨hstored,by rw [hs]; exact h⟩

theorem Sound.at_ (h : Sound pe sh) (hs : standing pe=s) : Relies pe sh s := by
  rw [← hs]
  exact h.relies

/-- Unless the source was given up on, the output needs a contract. -/
theorem Sound.covered (h : Sound pe sh) (hs : standing pe≠.unresponsive) : Covered pe sh := by
  have hrelies := h.relies
  cases hstand : standing pe <;> rw [hstand] at hrelies
  case opening => exact fun ho => absurd ho (by rw [show _=false from hrelies]; decide)
  case idle => exact hrelies
  case evaluating => exact hrelies.1
  case requesting => exact hrelies.1
  case transition => exact hrelies.1
  case contracted => exact fun _ => hrelies.1
  case closed => exact fun ho => absurd ho (by rw [hrelies.1]; decide)
  case unresponsive => exact absurd hstand hs

/-- A state function that begins in a contract. -/
theorem startStanding_contracted {state : PolicyEngineState}
    (h : startStanding state=.contracted) : state ∈ contractedStates := by
  cases state <;> first | decide | cases h

/-- A contract that stays covers an output that is not turned on. -/
theorem Covered.keep (h : Covered pe sh) (hc : pe'.explicitContract=pe.explicitContract)
    (ho : sh'.dpm.outCtrl=true → sh.dpm.outCtrl=true) : Covered pe' sh' := fun hon => hc.trans (h (ho hon))

/-- The Request and the stored capabilities stay. -/
theorem Requested.keep (h : Requested pe sh) (hr : pe'.lastDpmRequest=pe.lastDpmRequest)
    (hc : sh'.dpm.capabilities=sh.dpm.capabilities) : Requested pe' sh' := by
  obtain ⟨r,c,hreq,hcaps,hpos⟩ := h
  exact ⟨r,c,hr.trans hreq,hc.trans hcaps,hpos⟩

/-- What is relied on carries over while nothing negotiated changes. -/
theorem relies_of_same (hs : Same pe pe' sh sh') (hg : Continues pe pe') (hd : Discards pe')
    (hstand : standing pe'=standing pe) (hp : standing pe ∈ steadyStandings)
    (h : Relies pe sh (standing pe)) : Relies pe' sh' (standing pe) := by
  have hcovered (h : Covered pe sh) : Covered pe' sh' := h.keep hs.contract (by rw [hs.dpm]; exact id)
  have hrequested (h : Requested pe sh) : Requested pe' sh' := h.keep hs.request (by rw [hs.dpm])
  cases hpe : standing pe <;> rw [hpe] at h hp
  case idle => exact hcovered h
  case requesting => exact ⟨hcovered h.1,hrequested h.2⟩
  case transition =>
    refine ⟨hcovered h.1,hrequested h.2.1,?_⟩
    rw [hs.minPower,hs.dpm]
    exact h.2.2
  case contracted =>
    refine ⟨hs.contract.trans h.1,hrequested h.2.1,?_,hd⟩
    rcases hg with hstate | hpoint
    · rw [hstate]
      exact h.2.2.1
    · rw [hpe,standing_start hpoint] at hstand
      exact startStanding_contracted hstand
  all_goals exact absurd hp (by decide)

/-- The start. -/
theorem sound_initial : Sound initial.pe initial.shared :=
  sound_at (s := .opening) rfl (fun _ hc => by cases hc) rfl

/-- An evaluation leaves a Request for one of the capabilities it stores. -/
theorem Sound.evaluate {request : MsgPtr} {ppsIndex lastPps : ℕ} {pool : List ℕ} (h : Sound pe sh)
    (hp : pe.point=.start) (hs : pe.state=.sinkEvalCap)
    (ho : o.loc=goto {pe with
      ppsIndex := ppsIndex
      lastPps := lastPps
      lastDpmRequest := some (evaluateCapability pe.message request {sh with pool := pool}).1
      message := none} .sinkSelectCap)
    (hsh : o.shared=(evaluateCapability pe.message request {sh with pool := pool}).2) :
    Sound o.loc o.shared := by
  obtain ⟨hcov,c,hcaps,hn⟩ := h.at_ (s := .evaluating) (standing_begin hp hs)
  obtain ⟨e,hreq,hstored,-,hout,hsel⟩ := evaluateCapability_spec pe.message request {sh with pool := pool}
  rw [hcaps] at hstored hsel
  have hpos := hsel.objpos (PdMsg.numobjGet_pos hn)
  rw [ho,hsh,hreq]
  refine sound_at (s := .requesting) rfl ?_ ⟨hcov.keep rfl (by rw [hout]; exact id),_,c,rfl,hstored,hpos⟩
  intro c' hc'
  rw [hstored] at hc'
  cases hc'
  exact hn

/-- An Accept leads to the transition, with the output as it was or off. -/
theorem Sound.accept (h : Sound pe sh) (hstand : standing pe=.requesting) (hp : o.loc.point=.start)
    (hs : o.loc.state=.sinkTransitionSink) (hc : o.loc.explicitContract=pe.explicitContract)
    (hn : o.loc.minPower=false) (hr : o.loc.lastDpmRequest=pe.lastDpmRequest)
    (hd : o.shared.dpm=sh.dpm ∨ o.shared.dpm=pdbsDpmTransitionStandby sh.dpm) : Sound o.loc o.shared := by
  obtain ⟨hcov,hreq⟩ := h.at_ hstand
  have hdpm : o.shared.dpm.capabilities=sh.dpm.capabilities ∧
      (o.shared.dpm.outCtrl=true → sh.dpm.outCtrl=true) := by
    rcases hd with hd | hd <;> rw [hd]
    · exact ⟨rfl,id⟩
    · exact ⟨pdbsDpmTransitionStandby_capabilities _,pdbsDpmTransitionStandby_outCtrl⟩
  refine sound_at (s := .transition) (standing_begin hp hs) (by rw [hdpm.1]; exact h.stored)
    ⟨hcov.keep hc hdpm.2,hreq.keep hr hdpm.1,fun hmin => ?_⟩
  exact absurd (hn.symm.trans hmin) (by decide)

/-- Every action of the Policy Engine keeps all of this. -/
theorem Sound.step (h : Sound pe sh) (hd : Deal pe sh o) : Sound o.loc o.shared := by
  cases hd with
  | proceed hp hp' hg hdis hs =>
    have hstored : ∀ c, o.shared.dpm.capabilities=some c →
        c.msg.isData pdMsgtypeSourceCapabilities=true := by
      rw [hs.dpm]
      exact h.stored
    rcases hp' with hsame | hidle
    · exact sound_at hsame hstored (relies_of_same hs hg hdis hsame hp h.relies)
    · have hcov := h.covered fun hu => by rw [hu] at hp; exact absurd hp (by decide)
      exact sound_at hidle hstored (hcov.keep hs.contract (by rw [hs.dpm]; exact id))
  | begin hp =>
    have hoff : sh.dpm.outCtrl=false := h.at_ hp
    exact sound_at (s := .idle) rfl h.stored fun ho => absurd (hoff.symm.trans ho) (by decide)
  | offer hp hp' hm hn hs =>
    have hcov := h.covered fun hu => by rw [hu] at hp; exact absurd hp (by decide)
    exact sound_at hp' (by rw [hs.dpm]; exact h.stored)
      ⟨hcov.keep hs.contract (by rw [hs.dpm]; exact id),_,by rw [hm]; rfl,hn⟩
  | reconsider hp hn =>
    obtain ⟨hc,⟨r,c,-,hcaps,-,-⟩,-,hdis⟩ := h.at_ (s := .contracted) (by unfold standing; rw [hp])
    have hnone : pe.message=none := hdis _ hp hn
    refine sound_at (s := .evaluating) rfl h.stored ⟨fun _ => hc,c,?_,h.stored c hcaps⟩
    change pe.message.or _=_
    rw [hnone]
    exact hcaps
  | evaluate hp hs request ppsIndex lastPps pool ho hsh => exact h.evaluate hp hs ho hsh
  | rerequest hp hp' hs =>
    obtain ⟨hc,hreq,-,-⟩ := h.at_ hp
    exact sound_at hp' (by rw [hs.dpm]; exact h.stored)
      ⟨fun _ => hs.contract.trans hc,hreq.keep hs.request (by rw [hs.dpm])⟩
  | accept hh hm hp' hs' hc hn hr hd => exact h.accept hh.stands hp' hs' hc hn hr hd
  | decline hp hc hp' hs' hc' hr hd =>
    obtain ⟨-,hreq⟩ := h.at_ hp
    refine sound_at (s := .contracted) (standing_begin hp' hs')
      (by rw [hd]; exact h.stored) ⟨hc',hreq.keep hr (by rw [hd]),?_,discards_of_ne (by rw [hp']; simp)⟩
    rw [hs']
    decide
  | reduce hh hm hg hp' hs' hc hn hr hd =>
    have hstand : standing pe=.contracted := hh.stands
    obtain ⟨-,hreq,-,-⟩ := h.at_ hstand
    have hoff : o.shared.dpm.outCtrl=false := by rw [hd]; rfl
    refine sound_at (s := .transition) (standing_begin hp' hs')
      (by rw [hd]; exact h.stored) ⟨?_,hreq.keep hr (by rw [hd]; rfl),fun _ => hoff⟩
    exact fun ho => absurd (hoff.symm.trans ho) (by decide)
  | conclude hh hm hp' hs' hc hr hd =>
    have hstand : standing pe=.transition := hh.stands
    obtain ⟨-,hreq,-⟩ := h.at_ hstand
    have hsame : o.shared.dpm.capabilities=sh.dpm.capabilities := by
      rw [hd]
      split <;> rfl
    refine sound_at (s := .contracted) (standing_begin hp' hs')
      (by rw [hsame]; exact h.stored) ⟨hc,hreq.keep hr hsame,?_,discards_of_ne (by rw [hp']; simp)⟩
    rw [hs']
    decide
  | spoil hp hp' hd =>
    refine sound_at hp' (by rw [hd]; exact h.stored) fun ho => ?_
    rw [hd] at ho
    cases ho
  | close hp hs => exact sound_at (s := .closed) rfl h.stored ⟨rfl,hs⟩
  | reopen hp => exact sound_at (s := .opening) rfl h.stored (h.at_ hp).1
  | giveUp hp => exact sound_at (s := .unresponsive) rfl h.stored trivial
  | fallBack hp hp' hc => exact sound_at hp' (by rw [hc]; exact h.stored) trivial

end Step

/-! ## Runs -/

/-- A step is a deal of the Policy Engine, or one of the others. -/
theorem negotiator_step {who : Party} {s s' : System} (h : negotiator.step who s=some s') :
    (∃ expired o, who=.pe expired ∧ Deal s.pe s.shared o ∧ s'=s.withPe o) ∨
      ∃ t, who=.others t ∧ s'=amid s t := by
  cases who with
  | pe expired =>
    obtain ⟨o,ho,hs⟩ := Option.map_eq_some_iff.mp h
    exact .inl ⟨expired,o,rfl,policyEngine_deal ho,hs.symm⟩
  | others t => exact .inr ⟨t,rfl,(Option.some_inj.mp h).symm⟩

/-- The others leave what is relied on. -/
theorem Sound.amid {s t : System} (h : Sound s.pe s.shared) : Sound (amid s t).pe (amid s t).shared :=
  ⟨h.stored,h.relies⟩

/-- Contract, Request, capabilities and output are sound in every state. -/
theorem negotiator_sound {s : System} (h : negotiator.Reach anyStep s) : Sound s.pe s.shared := by
  refine h.invariant (I := fun s => Sound s.pe s.shared) ?_ fun s who s' _ hs _ hstep => ?_
  · exact sound_initial
  · rcases negotiator_step hstep with ⟨expired,o,-,hd,rfl⟩ | ⟨t,-,rfl⟩
    · exact hs.step hd
    · exact hs.amid

/-- So they are in every state of the firmware. -/
theorem firmware_sound {s : System} (h : firmware.Reach anyStep s) : Sound s.pe s.shared :=
  negotiator_sound
    (Reach.imitate (M := firmware) (A := negotiator) rfl (fun _ _ _ => firmware_negotiates) h)

/-! ## The latest evaluation -/

/-- One call of `pdbs_dpm_evaluate_capability`. -/
structure EvaluationLog where
  /-- The Request it built. -/
  request : MsgPtr
  /-- The capabilities it evaluated. -/
  caps : PdMsg
  /-- Whether the output was enabled then. -/
  outputEnabled : Bool
  /-- The object it selected as matching. -/
  selected : Option ℕ

/-- Remember the latest call. -/
def logEvaluation (last : Option EvaluationLog) (s : System) (who : Party) (s' : System) :
    Option EvaluationLog :=
  match who with
  | .pe _ =>
    if s.pe.point=.start ∧ s.pe.state=.sinkEvalCap then
      s'.pe.lastDpmRequest.map fun request =>
        ⟨request,s.shared.deref (s.pe.message.or s.shared.dpm.capabilities),s.shared.dpm.outputEnabled,
          selectsObject s.pe.message s.shared⟩
    else last
  | .others _ => last

/-- The negotiator with its latest evaluation. -/
def logged : Machine (System × Option EvaluationLog) Party := negotiator.observe none logEvaluation

/-- The firmware with its latest evaluation. -/
def firmwareLogged : Machine (System × Option EvaluationLog) Label :=
  firmware.observe none fun last s l s' => logEvaluation last s (party l s') s'

/-- Its runs are runs of the negotiator. -/
theorem firmwareLogged_reach {p : System × Option EvaluationLog} (h : firmwareLogged.Reach anyStep p) :
    logged.Reach anyStep p :=
  Reach.relabel (M := firmware) (A := negotiator) rfl (fun _ _ _ => firmware_negotiates) h

/-- And so are its steps. -/
theorem firmwareLogged_step {p q : System × Option EvaluationLog} {l : Label}
    (h : firmwareLogged.step l p=some q) : logged.step (party l q.1) p=some q := by
  obtain ⟨hs,hlog⟩ := observe_step.mp h
  exact observe_step.mpr ⟨firmware_negotiates hs,hlog⟩

section Logged

variable {s s' : System} {who : Party} {log last : Option EvaluationLog} {pe pe' : PolicyEngine}
  {sh sh' : Shared} {o : Outcome Event PolicyEngine Shared}

/-- Standings that rely on the Request. -/
def requestedStandings : List Standing := [.requesting,.transition,.contracted]

/-- The Request, the capabilities and the match are those of the latest call. -/
def Backed (log : Option EvaluationLog) (pe : PolicyEngine) (sh : Shared) : Prop :=
  ∃ call c, log=some call ∧ pe.lastDpmRequest=some call.request ∧ sh.dpm.capabilities=some c ∧
    c.msg=call.caps ∧ sh.dpm.capabilityMatch=(call.selected.isSome || !call.outputEnabled) ∧
    (call.outputEnabled=false → call.selected=none)

/-- Where the thread relies on the Request. -/
def Logged (log : Option EvaluationLog) (pe : PolicyEngine) (sh : Shared) : Prop :=
  standing pe ∈ requestedStandings → Backed log pe sh

theorem Backed.keep (h : Backed log pe sh) (hr : pe'.lastDpmRequest=pe.lastDpmRequest)
    (hc : sh'.dpm.capabilities=sh.dpm.capabilities)
    (hm : sh'.dpm.capabilityMatch=sh.dpm.capabilityMatch) : Backed log pe' sh' := by
  obtain ⟨call,c,hlog,hreq,hcaps,hmsg,hmatch,hdis⟩ := h
  exact ⟨call,c,hlog,hr.trans hreq,hc.trans hcaps,hmsg,hm.trans hmatch,hdis⟩

/-- Away from an evaluation the log stays. -/
theorem logEvaluation_other (h : standing s.pe≠.evaluating) : logEvaluation last s who s'=last := by
  cases who with
  | others t => rfl
  | pe expired =>
    exact if_neg fun hat => h (standing_begin hat.1 hat.2)

/-- An evaluation is logged as it is. -/
theorem Sound.logged {request : MsgPtr} {ppsIndex lastPps : ℕ} {pool : List ℕ} (hs : Sound s.pe s.shared)
    (hp : s.pe.point=.start) (hstate : s.pe.state=.sinkEvalCap)
    (ho : o.loc=goto {s.pe with
      ppsIndex := ppsIndex
      lastPps := lastPps
      lastDpmRequest := some (evaluateCapability s.pe.message request {s.shared with pool := pool}).1
      message := none} .sinkSelectCap)
    (hsh : o.shared=(evaluateCapability s.pe.message request {s.shared with pool := pool}).2)
    (last : Option EvaluationLog) (expired : Bool) :
    Backed (logEvaluation last s (.pe expired) (s.withPe o)) o.loc o.shared := by
  obtain ⟨-,c,hcaps,hn⟩ := hs.at_ (s := .evaluating) (standing_begin hp hstate)
  obtain ⟨e,hreq,hstored,hmatch,-,hsel⟩ :=
    evaluateCapability_spec s.pe.message request {s.shared with pool := pool}
  let call : EvaluationLog := ⟨(evaluateCapability s.pe.message request {s.shared with pool := pool}).1,
    s.shared.deref (s.pe.message.or s.shared.dpm.capabilities),s.shared.dpm.outputEnabled,
    selectsObject s.pe.message s.shared⟩
  have hlog : logEvaluation last s (.pe expired) (s.withPe o)=some call := by
    refine (if_pos ⟨hp,hstate⟩).trans ?_
    change o.loc.lastDpmRequest.map _=_
    rw [ho]
    rfl
  have hsel' : Selects s.shared.hdrTemplate s.shared.dpm.usbComms s.shared.dpm.outputEnabled
    (s.shared.deref (s.pe.message.or s.shared.dpm.capabilities)) request.msg e
    (selectsObject s.pe.message s.shared) := hsel
  refine ⟨call,c,hlog,?_,?_,?_,?_,?_⟩
  · rw [ho]
    rfl
  · rw [hsh]
    exact hstored.trans hcaps
  · change c.msg=s.shared.deref (s.pe.message.or s.shared.dpm.capabilities)
    rw [hcaps]
    rfl
  · rw [hsh]
    exact hmatch.trans hsel'.capabilityMatch
  · intro hoff
    have hoff' : s.shared.dpm.outputEnabled=false := hoff
    change selectedObject _ _ s.shared.dpm.outputEnabled _=none
    rw [hoff']
    exact selectedObject_disabled _ _ _

/-- A step of the Policy Engine keeps the log true. -/
theorem Logged.step (h : Logged last s.pe s.shared) (expired : Bool) (hs : Sound s.pe s.shared)
    (hd : Deal s.pe s.shared o) :
    Logged (logEvaluation last s (.pe expired) (s.withPe o)) o.loc o.shared := by
  have hkeep {st : Standing} (hst : standing s.pe=st) (hne : st≠.evaluating)
      (hmem : st ∈ requestedStandings) (hr : o.loc.lastDpmRequest=s.pe.lastDpmRequest)
      (hc : o.shared.dpm.capabilities=s.shared.dpm.capabilities)
      (hm : o.shared.dpm.capabilityMatch=s.shared.dpm.capabilityMatch) :
      Logged (logEvaluation last s (.pe expired) (s.withPe o)) o.loc o.shared := by
    rw [logEvaluation_other (by rw [hst]; exact hne)]
    exact fun _ => (h (by rw [hst]; exact hmem)).keep hr hc hm
  have hleave {t : Standing} (hst : standing o.loc=t) (hnot : t ∉ requestedStandings) :
      Logged (logEvaluation last s (.pe expired) (s.withPe o)) o.loc o.shared :=
    fun hmem => absurd (hst ▸ hmem) hnot
  cases hd with
  | proceed hp hp' hg hdis hsame =>
    rcases hp' with hst | hidle
    · by_cases hmem : standing s.pe ∈ requestedStandings
      · exact hkeep rfl (fun he => by rw [he] at hp; exact absurd hp (by decide)) hmem hsame.request
          (by rw [hsame.dpm]) (by rw [hsame.dpm])
      · exact hleave hst hmem
    · exact hleave hidle (by decide)
  | begin hp => exact hleave (t := .idle) rfl (by decide)
  | offer hp hp' hm hn hsame => exact hleave hp' (by decide)
  | reconsider hp hn => exact hleave (t := .evaluating) rfl (by decide)
  | evaluate hp hstate request ppsIndex lastPps pool ho hsh =>
    exact fun _ => hs.logged hp hstate ho hsh last expired
  | rerequest hp hp' hsame =>
    exact hkeep hp (by decide) (by decide) hsame.request (by rw [hsame.dpm]) (by rw [hsame.dpm])
  | accept hh hm hp' hs' hc hn hr hdpm =>
    have hst : standing s.pe=.requesting := hh.stands
    refine hkeep hst (by decide) (by decide) hr ?_ ?_
    · rcases hdpm with hdpm | hdpm <;> rw [hdpm]
      exact pdbsDpmTransitionStandby_capabilities _
    · rcases hdpm with hdpm | hdpm <;> rw [hdpm]
      exact pdbsDpmTransitionStandby_capabilityMatch _
  | decline hp hc hp' hs' hc' hr hdpm =>
    exact hkeep hp (by decide) (by decide) hr (by rw [hdpm]) (by rw [hdpm])
  | reduce hh hm hg hp' hs' hc hn hr hdpm =>
    have hst : standing s.pe=.contracted := hh.stands
    exact hkeep hst (by decide) (by decide) hr (by rw [hdpm]; rfl) (by rw [hdpm]; rfl)
  | conclude hh hm hp' hs' hc hr hdpm =>
    have hst : standing s.pe=.transition := hh.stands
    refine hkeep hst (by decide) (by decide) hr ?_ ?_
    · rw [hdpm]
      split <;> rfl
    · rw [hdpm]
      split <;> rfl
  | spoil hp hp' hdpm => exact hleave hp' (by decide)
  | close hp hstate => exact hleave (t := .closed) rfl (by decide)
  | reopen hp => exact hleave (t := .opening) rfl (by decide)
  | giveUp hp => exact hleave (t := .unresponsive) rfl (by decide)
  | fallBack hp hp' hc => exact hleave hp' (by decide)

/-- The log is true in every state. -/
theorem logged_true {p : System × Option EvaluationLog} (h : logged.Reach anyStep p) :
    Logged p.2 p.1.pe p.1.shared := by
  refine h.observed_invariant (I := fun s log => Logged log s.pe s.shared) ?_ ?_
  · exact fun hmem => absurd hmem (by decide)
  · intro s log who s' hr hi _ hs
    rcases negotiator_step hs with ⟨expired,o,rfl,hd,rfl⟩ | ⟨t,rfl,rfl⟩
    · exact hi.step expired (negotiator_sound hr.unobserved) hd
    · exact fun hmem => (hi hmem).keep rfl rfl rfl

end Logged

/-! ## Contract and Request, by state -/

section ByState

variable {pe : PolicyEngine} {sh : Shared}

/-- Where a state begins as it goes on, the state tells the standing. -/
theorem Sound.standing_of_state (h : Sound pe sh) (hstart : startStanding pe.state=insideStanding pe.state)
    (hd : pe.state≠.sinkTransitionDefault) :
    standing pe=insideStanding pe.state ∨ standing pe=.contracted ∧ pe.state ∈ contractedStates := by
  have hcontracted (hs : standing pe=.contracted) :
      standing pe=.contracted ∧ pe.state ∈ contractedStates := ⟨hs,(h.at_ hs).2.2.1⟩
  cases hp : pe.point with
  | start => exact .inl ((standing_start hp).trans hstart)
  | signalDone =>
    have hs : standing pe=.closed := by unfold standing; rw [hp]
    exact absurd (h.at_ hs).2 hd
  | dropMessage => exact .inr (hcontracted (by unfold standing; rw [hp]))
  | startAms next => exact .inr (hcontracted (by unfold standing; rw [hp]))
  | _ => exact .inl (standing_inside (by rw [hp]; simp) (by rw [hp]; simp))

/-- Ready, or in a state only Ready leads to, there is a contract. -/
theorem Sound.contracted (h : Sound pe sh) (hs : pe.state ∈ contractedStates) :
    Relies pe sh .contracted := by
  have hstart : startStanding pe.state=insideStanding pe.state ∧ insideStanding pe.state=.contracted ∧
      pe.state≠.sinkTransitionDefault := by
    revert hs
    cases pe.state <;> decide
  obtain ⟨hstart,hinside,hd⟩ := hstart
  rcases h.standing_of_state hstart hd with hstand | hstand
  · exact h.at_ (hstand.trans hinside)
  · exact h.at_ hstand.1

/-- A state outside the contract tells where the thread stands. -/
theorem Sound.stands (h : Sound pe sh) {state : PolicyEngineState} (hs : pe.state=state)
    (hstart : startStanding state=insideStanding state) (hmem : state ∉ contractedStates)
    (hd : state≠.sinkTransitionDefault) : standing pe=insideStanding state := by
  rw [← hs] at hstart hmem hd
  rcases h.standing_of_state hstart hd with hstand | ⟨-,hin⟩
  · rw [hstand,hs]
  · exact absurd hin hmem

/-- Making a Request, there is one. -/
theorem Sound.requesting (h : Sound pe sh) (hs : pe.state=.sinkSelectCap) :
    standing pe=.requesting := h.stands hs rfl (by decide) (by decide)

end ByState

/-- A contract and stored capabilities wherever only Ready leads, something to
evaluate at every evaluation, and in `PESinkSelectCap` a Request for an object
of the capabilities evaluated last. -/
theorem contract_and_request {p : System × Option EvaluationLog} (h : logged.Reach anyStep p) :
    (p.1.pe.state ∈ contractedStates → p.1.pe.explicitContract=true ∧
      ∃ c, p.1.shared.dpm.capabilities=some c ∧ c.msg.isData pdMsgtypeSourceCapabilities=true) ∧
    (p.1.pe.point=.start → p.1.pe.state=.sinkEvalCap →
      p.1.pe.message≠none ∨ p.1.shared.dpm.capabilities≠none) ∧
    (p.1.pe.state=.sinkSelectCap → ∃ r call, p.1.pe.lastDpmRequest=some r ∧ p.2=some call ∧
      1 ≤ pdRdoObjposGet r.msg ∧ pdRdoObjposGet r.msg ≤ call.caps.numobjGet) := by
  have hsound := negotiator_sound h.unobserved
  have hlogged := logged_true h
  refine ⟨fun hs => ?_,fun hp hs => ?_,fun hs => ?_⟩
  · obtain ⟨hc,⟨r,c,-,hcaps,-⟩,-⟩ := hsound.contracted hs
    exact ⟨hc,c,hcaps,hsound.stored c hcaps⟩
  · obtain ⟨-,c,hcaps,-⟩ := hsound.at_ (s := .evaluating) (standing_begin hp hs)
    by_contra hnone
    simp only [not_or,ne_eq,not_not] at hnone
    rw [hnone.1,hnone.2] at hcaps
    cases hcaps
  · have hstand := hsound.requesting hs
    obtain ⟨-,r,c,hr,hcaps,hlow,hhigh⟩ := hsound.at_ hstand
    obtain ⟨call,c',hlog,-,hcaps',hmsg,-⟩ := hlogged (by rw [hstand]; decide)
    rw [hcaps] at hcaps'
    cases hcaps'
    exact ⟨r,call,hr,hlog,hlow,by rw [← hmsg]; exact hhigh⟩

/-- From power-up to the first Request. -/
theorem contract_and_request_first : ∃ p, logged.Reach anyStep p ∧ p.1.pe.state=.sinkSelectCap ∧
    ∃ r call, p.1.pe.lastDpmRequest=some r ∧ p.2=some call ∧ 1 ≤ pdRdoObjposGet r.msg ∧
      pdRdoObjposGet r.msg ≤ call.caps.numobjGet := by
  obtain ⟨p,hr,hp⟩ := exists_reach_of_follow firmwareLogged anyStep request
    (fun p => decide (p.1.pe.state=.sinkSelectCap)) (by decide +kernel)
  have hs := of_decide_eq_true hp
  have hreach := firmwareLogged_reach hr
  exact ⟨p,hreach,hs,(contract_and_request hreach).2.2 hs⟩

end UsbPdFirmware.Negotiation
