import UsbPdFirmware.Negotiation

/-!
# The power output

When the line `OUT_CTRL` is on and what switches it on. The answers of the
source are remembered beside the negotiator: a Request that it accepted, and
a reduction of the power that the sink honoured.
-/

namespace UsbPdFirmware.OutputControl

open PdMessage DevicePolicy LabelledRuns Machine EventThreads FirmwareState
open FirmwareSystem NegotiationMoves Negotiation

/-! ## What switches the output on -/

section Deal

variable {pe : PolicyEngine} {sh : Shared} {o : Outcome Event PolicyEngine Shared}

/-- Only the end of a transition at the requested power switches the output
on, unless the source was given up on. -/
theorem deal_switchesOn (hd : Deal pe sh o) (hoff : sh.dpm.outCtrl=false)
    (hon : o.shared.dpm.outCtrl=true) (hs : standing pe≠.unresponsive) :
    ∃ m, Handles pe .sinkTransitionSink m ∧ m.msg.isControl pdMsgtypePsRdy=true ∧ pe.minPower=false ∧
      sh.dpm.capabilityMatch=true := by
  have hsame (hdpm : o.shared.dpm.outCtrl=sh.dpm.outCtrl) : False := by
    rw [hdpm,hoff] at hon
    cases hon
  cases hd with
  | proceed hp hp' hg hdis hkeep => exact (hsame (by rw [hkeep.dpm])).elim
  | begin hp => exact (hsame rfl).elim
  | offer hp hp' hm hn hkeep => exact (hsame (by rw [hkeep.dpm])).elim
  | reconsider hp hn => exact (hsame rfl).elim
  | evaluate hp hstate request ppsIndex lastPps pool ho hsh =>
    obtain ⟨e,-,-,-,hout,-⟩ := evaluateCapability_spec pe.message request {sh with pool := pool}
    rw [hsh] at hon
    exact absurd (hout.symm.trans hon) (by rw [hoff]; decide)
  | rerequest hp hp' hkeep => exact (hsame (by rw [hkeep.dpm])).elim
  | accept hh hm hp' hs' hc hn hr hdpm =>
    rcases hdpm with hdpm | hdpm
    · exact (hsame (by rw [hdpm])).elim
    · rw [hdpm] at hon
      exact absurd (pdbsDpmTransitionStandby_outCtrl hon) (by rw [hoff]; decide)
  | decline hp hc hp' hs' hc' hr hdpm => exact (hsame (by rw [hdpm])).elim
  | reduce hh hm hg hp' hs' hc hn hr hdpm =>
    rw [hdpm] at hon
    cases hon
  | conclude hh hm hp' hs' hc hr hdpm =>
    cases hmin : pe.minPower with
    | true => exact (hsame (by rw [hdpm,hmin]; rfl)).elim
    | false =>
      rw [hdpm,hmin] at hon
      have hmatch : (sh.dpm.capabilityMatch && sh.dpm.outputEnabled)=true := hon
      exact ⟨_,hh,hm,rfl,(Bool.and_eq_true_iff.mp hmatch).1⟩
  | spoil hp hp' hdpm =>
    rw [hdpm] at hon
    cases hon
  | close hp hstate => cases hon
  | reopen hp => exact (hsame rfl).elim
  | giveUp hp => exact (hsame rfl).elim
  | fallBack hp hp' hc =>
    exact absurd hp hs

/-- The ways into a transition. -/
theorem deal_toTransition (hd : Deal pe sh o) (h : standing o.loc=.transition) :
    standing pe=.transition ∧ Same pe o.loc sh o.shared ∨
    (∃ m, Handles pe .sinkSelectCap m ∧ m.msg.isControl pdMsgtypeAccept=true ∧
      o.loc.minPower=false ∧ o.loc.lastDpmRequest=pe.lastDpmRequest) ∨
    ∃ m, Handles pe .sinkReady m ∧ m.msg.isControl pdMsgtypeGotomin=true ∧
      o.loc.minPower=true ∧ o.loc.state=.sinkTransitionSink ∧ o.shared.dpm.outCtrl=false := by
  have hnot {s : Standing} (hs : standing o.loc=s) (hne : s≠.transition) : False := hne (hs.symm.trans h)
  cases hd with
  | proceed hp hp' hg hdis hkeep =>
    rcases hp' with hsame | hidle
    · exact .inl ⟨hsame.symm.trans h,hkeep⟩
    · exact (hnot hidle (by decide)).elim
  | begin hp => exact (hnot (s := .idle) rfl (by decide)).elim
  | offer hp hp' hm hn hkeep => exact (hnot hp' (by decide)).elim
  | reconsider hp hn => exact (hnot (s := .evaluating) rfl (by decide)).elim
  | evaluate hp hstate request ppsIndex lastPps pool ho hsh =>
    exact (hnot (s := .requesting) (by rw [ho]; rfl) (by decide)).elim
  | rerequest hp hp' hkeep => exact (hnot hp' (by decide)).elim
  | accept hh hm hp' hs' hc hn hr hdpm => exact .inr (.inl ⟨_,hh,hm,hn,hr⟩)
  | decline hp hc hp' hs' hc' hr hdpm =>
    exact (hnot (s := .contracted) (standing_begin hp' hs') (by decide)).elim
  | reduce hh hm hg hp' hs' hc hn hr hdpm => exact .inr (.inr ⟨_,hh,hm,hn,hs',by rw [hdpm]; rfl⟩)
  | conclude hh hm hp' hs' hc hr hdpm =>
    exact (hnot (s := .contracted) (standing_begin hp' hs') (by decide)).elim
  | spoil hp hp' hdpm => exact (hnot hp' (by decide)).elim
  | close hp hstate => exact (hnot (s := .closed) rfl (by decide)).elim
  | reopen hp => exact (hnot (s := .opening) rfl (by decide)).elim
  | giveUp hp => exact (hnot (s := .unresponsive) rfl (by decide)).elim
  | fallBack hp hp' hc => exact (hnot hp' (by decide)).elim

/-- Once the source was given up on, it stays so. -/
theorem deal_unresponsive (hd : Deal pe sh o) (h : standing pe=.unresponsive) :
    standing o.loc=.unresponsive := by
  have hnot {s : Standing} (hs : standing pe=s) (hne : s≠.unresponsive) : False := hne (hs.symm.trans h)
  have hsteady (hs : standing pe ∈ steadyStandings) : False := by
    rw [h] at hs
    exact absurd hs (by decide)
  have hhandles {state : PolicyEngineState} {m : MsgPtr} (hh : Handles pe state m)
      (hne : state≠.sinkSourceUnresponsive) : False := hne (hh.state.symm.trans (state_of_unresponsive h))
  cases hd with
  | proceed hp hp' hg hdis hkeep => exact (hsteady hp).elim
  | begin hp => exact (hnot hp (by decide)).elim
  | offer hp hp' hm hn hkeep => exact (hsteady hp).elim
  | reconsider hp hn => exact (hnot (s := .contracted) (by unfold standing; rw [hp]) (by decide)).elim
  | evaluate hp hstate request ppsIndex lastPps pool ho hsh =>
    exact (hnot (s := .evaluating) (standing_begin hp hstate) (by decide)).elim
  | rerequest hp hp' hkeep => exact (hnot hp (by decide)).elim
  | accept hh hm hp' hs' hc hn hr hdpm => exact (hhandles hh (by decide)).elim
  | decline hp hc hp' hs' hc' hr hdpm => exact (hnot hp (by decide)).elim
  | reduce hh hm hg hp' hs' hc hn hr hdpm => exact (hhandles hh (by decide)).elim
  | conclude hh hm hp' hs' hc hr hdpm => exact (hhandles hh (by decide)).elim
  | spoil hp hp' hdpm => exact (hnot hp (by decide)).elim
  | close hp hstate => exact (hnot hp (by decide)).elim
  | reopen hp => exact (hnot hp (by decide)).elim
  | giveUp hp => exact (hnot hp (by decide)).elim
  | fallBack hp hp' hc => exact hp'

end Deal

/-! ## The answers of the source -/

/-- What the source said about the power. -/
structure Answers where
  /-- The Request it accepted, for which the power is prepared. -/
  accepted : Option MsgPtr
  /-- It reduced the power, and has supplied no Request accepted since. -/
  reduced : Bool

/-- The next action handles a control message of a type in a state. -/
def handling (pe : PolicyEngine) (state : PolicyEngineState) (msgtype : BitVec 16) : Bool :=
  decide (pe.point=.handle) && decide (pe.state=state) && pe.message.any fun m => m.msg.isControl msgtype

/-- Remember the answers. A GotoMin is honoured when it leads to
`PESinkTransitionSink`. -/
def recordAnswer (h : Answers) (s : System) (who : Party) (s' : System) : Answers :=
  match who with
  | .others _ => h
  | .pe _ =>
    if handling s.pe .sinkSelectCap pdMsgtypeAccept then {h with accepted := s.pe.lastDpmRequest}
    else if handling s.pe .sinkReady pdMsgtypeGotomin && decide (s'.pe.state=.sinkTransitionSink) then
      ⟨none,true⟩
    else if handling s.pe .sinkTransitionSink pdMsgtypePsRdy then
      {h with reduced := h.reduced && h.accepted.isNone}
    else h

/-- The negotiator with the answers of the source. -/
def answered : Machine (System × Answers) Party := negotiator.observe ⟨none,false⟩ recordAnswer

section Answers

variable {s s' : System} {a a' : Answers} {pe : PolicyEngine} {sh : Shared} {m : MsgPtr}
  {state : PolicyEngineState} {msgtype : BitVec 16} {o : Outcome Event PolicyEngine Shared} {expired : Bool}

theorem handling_of (hh : Handles pe state m) (hm : m.msg.isControl msgtype=true) :
    handling pe state msgtype=true := by
  unfold handling
  rw [hh.point,hh.state,hh.message]
  simpa using hm

theorem handling_state (h : handling pe state msgtype=true) : pe.point=.handle ∧ pe.state=state := by
  simp only [handling,Bool.and_eq_true,decide_eq_true_eq] at h
  exact h.1

theorem handling_other {other : PolicyEngineState} (hs : pe.state=state) (hne : state≠other) :
    handling pe other msgtype=false := by
  rw [Bool.eq_false_iff]
  exact fun h => hne (hs.symm.trans (handling_state h).2)

/-- What the transition in progress is for, and what a reduction leaves. -/
structure Answered (a : Answers) (pe : PolicyEngine) (sh : Shared) : Prop where
  /-- The source accepted the Request, unless it reduces the power. -/
  accepted : standing pe=.transition → pe.minPower=false → a.accepted=pe.lastDpmRequest
  /-- It accepted none if it reduces the power. -/
  reducing : standing pe=.transition → pe.minPower=true → a.accepted=none
  /-- After a reduction the output is off. -/
  off : standing pe≠.unresponsive → a.reduced=true → sh.dpm.outCtrl=false

/-- In a transition the accepted Request stays. -/
theorem recordAnswer_accepted (hs : s.pe.state=.sinkTransitionSink) :
    (recordAnswer a s (.pe expired) s').accepted=a.accepted := by
  simp only [recordAnswer,handling_other hs (show _≠.sinkSelectCap by decide),
    handling_other hs (show _≠.sinkReady by decide),Bool.false_and,Bool.false_eq_true,if_false]
  split <;> rfl

/-- A reduction is an old one, or one just honoured. -/
theorem recordAnswer_reduced (h : (recordAnswer a s (.pe expired) s').reduced=true) :
    a.reduced=true ∨ s.pe.state=.sinkReady ∧ s'.pe.state=.sinkTransitionSink := by
  unfold recordAnswer at h
  dsimp only at h
  split_ifs at h with hacc hmin hrdy
  · exact .inl h
  · obtain ⟨hready,hstate⟩ := Bool.and_eq_true_iff.mp hmin
    exact .inr ⟨(handling_state hready).2,of_decide_eq_true hstate⟩
  · exact .inl (Bool.and_eq_true_iff.mp h).1
  · exact .inl h

/-- A transition that the state tells. -/
theorem sound_transition (h : Sound pe sh) (hs : pe.state=.sinkTransitionSink) :
    standing pe=.transition := h.stands hs rfl (by decide) (by decide)

/-- The start. -/
theorem answered_initial : Answered ⟨none,false⟩ initial.pe initial.shared :=
  ⟨fun hs => absurd hs (by decide),fun hs => absurd hs (by decide),fun _ hred => absurd hred (by decide)⟩

/-- Every action of the Policy Engine keeps the answers true. -/
theorem Answered.step (h : Answered a s.pe s.shared) (hs : Sound s.pe s.shared)
    (hd : Deal s.pe s.shared o) (expired : Bool) :
    Answered (recordAnswer a s (.pe expired) (s.withPe o)) o.loc o.shared := by
  have hnext := hs.step hd
  constructor
  case accepted =>
    intro hstand hmin
    rcases deal_toTransition hd hstand with ⟨hst,hsame⟩ | ⟨m,hh,hm,-,hr⟩ | ⟨m,-,-,hmin',-⟩
    · rw [recordAnswer_accepted (state_of_transition hst),hsame.request]
      exact h.accepted hst (hsame.minPower.symm.trans hmin)
    · unfold recordAnswer
      rw [if_pos (handling_of hh hm)]
      exact hr.symm
    · rw [hmin'] at hmin
      cases hmin
  case reducing =>
    intro hstand hmin
    rcases deal_toTransition hd hstand with ⟨hst,hsame⟩ | ⟨m,-,-,hmin',-⟩ | ⟨m,hh,hm,-,hstate,-⟩
    · rw [recordAnswer_accepted (state_of_transition hst)]
      exact h.reducing hst (hsame.minPower.symm.trans hmin)
    · rw [hmin'] at hmin
      cases hmin
    · have hmin : (handling s.pe .sinkReady pdMsgtypeGotomin &&
          decide ((s.withPe o).pe.state=.sinkTransitionSink))=true :=
        Bool.and_eq_true_iff.mpr ⟨handling_of hh hm,decide_eq_true hstate⟩
      unfold recordAnswer
      rw [if_neg (by rw [handling_other hh.state (by decide)]; decide),if_pos hmin]
  case off =>
    intro hstand hred
    rcases recordAnswer_reduced hred with hold | ⟨hready,hstate⟩
    · have hne : standing s.pe≠.unresponsive := fun hu => hstand (deal_unresponsive hd hu)
      have hoff := h.off hne hold
      by_contra hon
      obtain ⟨m,hh,hm,hmin,-⟩ := deal_switchesOn hd hoff (Bool.eq_true_of_not_eq_false hon) hne
      have hst : standing s.pe=.transition := hh.stands
      obtain ⟨-,⟨r,c,hr,-⟩,-⟩ := hs.at_ hst
      have hacc := h.accepted hst hmin
      unfold recordAnswer at hred
      rw [if_neg (by rw [handling_other hh.state (by decide)]; decide),
        if_neg (by rw [handling_other hh.state (by decide)]; simp),if_pos (handling_of hh hm)] at hred
      rw [hacc,hr] at hred
      simp at hred
    · have hst := sound_transition hnext hstate
      rcases deal_toTransition hd hst with ⟨hst',-⟩ | ⟨m,hh,-⟩ | ⟨m,-,-,-,-,hoff⟩
      · have hbad := (state_of_transition hst').symm.trans hready
        cases hbad
      · have hbad := hh.state.symm.trans hready
        cases hbad
      · exact hoff

/-- The answers are true in every state. -/
theorem answered_true {p : System × Answers} (h : answered.Reach anyStep p) :
    Answered p.2 p.1.pe p.1.shared := by
  refine h.observed_invariant (I := fun s a => Answered a s.pe s.shared) answered_initial ?_
  intro s a who s' hr hi _ hs
  rcases negotiator_step hs with ⟨expired,o,rfl,hd,rfl⟩ | ⟨t,rfl,rfl⟩
  · exact hi.step (negotiator_sound hr.unobserved) hd expired
  · exact ⟨hi.accepted,hi.reducing,hi.off⟩

end Answers

/-! ## The output needs a contract -/

/-- Unless the source was given up on, the output is on under a contract only,
goes on only when PS_RDY follows the acceptance of the present Request, and is
off after a reduction of the power. -/
theorem output_controlled {p : System × Answers} (h : answered.Reach anyStep p)
    (hs : p.1.pe.state≠.sinkSourceUnresponsive) :
    (p.1.shared.dpm.outCtrl=true → p.1.pe.explicitContract=true) ∧
    (∀ who q, answered.step who p=some q → p.1.shared.dpm.outCtrl=false →
      q.1.shared.dpm.outCtrl=true → ∃ m r, Handles p.1.pe .sinkTransitionSink m ∧
        m.msg.isControl pdMsgtypePsRdy=true ∧ p.1.pe.lastDpmRequest=some r ∧ p.2.accepted=some r) ∧
    (p.2.reduced=true → p.1.shared.dpm.outCtrl=false) := by
  have hsound := negotiator_sound h.unobserved
  have hans := answered_true h
  have hne : standing p.1.pe≠.unresponsive := fun hu => hs (state_of_unresponsive hu)
  refine ⟨hsound.covered hne,fun who q hstep hoff hon => ?_,hans.off hne⟩
  obtain ⟨hstep,-⟩ := observe_step.mp hstep
  rcases negotiator_step hstep with ⟨expired,o,-,hd,hq⟩ | ⟨t,-,hq⟩
  · rw [hq] at hon
    obtain ⟨m,hh,hm,hmin,-⟩ := deal_switchesOn hd hoff hon hne
    have hst : standing p.1.pe=.transition := hh.stands
    obtain ⟨-,⟨r,c,hr,-⟩,-⟩ := hsound.at_ hst
    exact ⟨m,r,hh,hm,hr,(hans.accepted hst hmin).trans hr⟩
  · rw [hq] at hon
    have hsame : p.1.shared.dpm.outCtrl=true := hon
    rw [hoff] at hsame
    cases hsame

/-- The firmware with the answers of the source. -/
def firmwareAnswered : Machine (System × Answers) Label :=
  firmware.observe ⟨none,false⟩ fun h s l s' => recordAnswer h s (party l s') s'

/-- Its runs are runs of the negotiator. -/
theorem firmwareAnswered_reach {p : System × Answers} (h : firmwareAnswered.Reach anyStep p) :
    answered.Reach anyStep p :=
  Reach.relabel (M := firmware) (A := negotiator) rfl (fun _ _ _ => firmware_negotiates) h

/-- A configuration for 5 V, and then an explicit contract. -/
def powered : List Label :=
  [.env (.storeConfig (some ⟨pdbsConfigStatusValid,0,5000,10,0,0⟩))]++negotiate

/-- The first contract at 5 V switches the output on. -/
theorem output_controlled_powered : ∃ p, answered.Reach anyStep p ∧
    p.1.pe.state≠.sinkSourceUnresponsive ∧ p.1.shared.dpm.outCtrl=true ∧
    p.1.pe.explicitContract=true := by
  obtain ⟨p,hr,hp⟩ := exists_reach_of_follow firmwareAnswered anyStep powered
    (fun p => decide (p.1.pe.state=.sinkReady) && p.1.shared.dpm.outCtrl) (by decide +kernel)
  simp only [Bool.and_eq_true,decide_eq_true_eq] at hp
  have hs : p.1.pe.state≠.sinkSourceUnresponsive := by
    rw [hp.1]
    decide
  have hreach := firmwareAnswered_reach hr
  exact ⟨p,hreach,hs,hp.2,(output_controlled hreach hs).1 hp.2⟩

/-! ## The output and the Request -/

/-- From power-up with a configuration to the receipt of PS_RDY, the user
disabling and enabling the output between other steps. -/
def switching (config : PdbsConfig) (before after : Bool) : List Label :=
  List.flatten [[.env (.storeConfig (some config)),.env (.output before),.env .newPower],request,send,
    acknowledge 0,[.pe,.pe],deliver (controlMessage pdMsgtypeAccept 1),[.pe,.pe,.pe],
    [.env (.output after),.env .newPower],deliver (controlMessage pdMsgtypePsRdy 2),[.pe,.pe]]

end UsbPdFirmware.OutputControl
