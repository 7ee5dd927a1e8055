import UsbPdFirmware.RequestRounds

/-!
# The shortcut around standby

On Accept the Policy Engine leaves standby out when the Request is for the
position kept of the Request before. That position is kept from one
evaluation to the next, also when the capabilities in between are new.
-/

namespace UsbPdFirmware.StandbyShortcut

open PdMessage DevicePolicy LabelledRuns Machine EventThreads FirmwareState PolicyEngine
open FirmwareSystem NegotiationMoves Negotiation RequestedObject RequestedPower CapabilitySelection
open RequestRounds

/-! ## Positions -/

/-- A position is one of three bits. -/
theorem pdRdoObjposGet_le (request : PdMsg) : pdRdoObjposGet request ≤ 7 := fieldGet_le 28 objposMask _

/-- The position asked for: that of the selected object, or the first. -/
def asksFor (selected : Option ℕ) : ℕ := selected.elim 1 (·+1)

/-- It is the position of the Request. -/
theorem objpos_eq_asksFor {hdr : BitVec 16} {usbComms outputEnabled : Bool} {caps request : PdMsg}
    {e : Evaluation} {selected : Option ℕ}
    (h : Selects hdr usbComms outputEnabled caps request e selected) :
    pdRdoObjposGet e.request=asksFor selected := by
  cases selected with
  | none => rw [show e=_ from h,fallbackRequest_objpos]; rfl
  | some i => exact h.2.2

/-! ## The repeated position -/

/-- `pe_sink_select_cap` calls `transition_standby`. -/
def callsStandby (s : System) : Bool := pdRdoObjposGet (s.shared.deref s.pe.lastDpmRequest) != s.pe.lastPps

/-- The next action handles the Accept for a Request. -/
def accepts (pe : PolicyEngine) : Bool :=
  decide (pe.state=.sinkSelectCap ∧ pe.point=.handle) &&
    pe.message.any fun m => m.msg.isControl pdMsgtypeAccept

/-- The position that the present Request repeats: that of the Request before
it, when capabilities were evaluated again, or its own once it was accepted.
A Request built from new capabilities repeats none. -/
def recordRepeated (repeated : Option ℕ) (s : System) (l : Label) (_ : System) : Option ℕ :=
  if evaluates s.pe && l.isPe then
    if s.pe.message.isSome then none else s.pe.lastDpmRequest.map fun r => pdRdoObjposGet r.msg
  else if accepts s.pe && l.isPe then s.pe.lastDpmRequest.map fun r => pdRdoObjposGet r.msg
  else repeated

/-- The firmware with the repeated position. -/
def repeating : Machine (System × Option ℕ) Label := firmware.observe none recordRepeated

/-- What is owed at an Accept. -/
structure StandbyKept (s : System) (repeated : Option ℕ) : Prop where
  /-- Standby comes before a transition to new capabilities. -/
  fresh : repeated=none → callsStandby s=true
  /-- It is left out for the same programmable supply of the same
  capabilities only. -/
  shortcut : callsStandby s=false → ∃ r c, s.pe.lastDpmRequest=some r ∧
    s.shared.dpm.capabilities=some c ∧ repeated=some (pdRdoObjposGet r.msg) ∧
      isPps (requestedObject c.msg r.msg)=true

/-- An evaluation that asks again for the position of the Request before, with
a programmable supply up to that position, evaluates the stored capabilities
and the object there is a programmable supply. -/
def RepeatsSupply (s : System) : Prop :=
  ∀ r ∈ s.pe.lastDpmRequest, firstPps (evaluated s.pe.message s.shared) ≤ pdRdoObjposGet r.msg →
    asksFor (selectsObject s.pe.message s.shared)=pdRdoObjposGet r.msg →
      s.pe.message.isNone=true ∧ isPps (requestedObject (evaluated s.pe.message s.shared) r.msg)=true

instance (s : System) : Decidable (RepeatsSupply s) := inferInstanceAs (Decidable (∀ r ∈ _, _))

/-- The condition on evaluations. -/
def repeatsSupplies (p : System × Option ℕ) (l : Label) : Prop :=
  (evaluates p.1.pe && l.isPe)=true → RepeatsSupply p.1

instance (p : System × Option ℕ) (l : Label) : Decidable (repeatsSupplies p l) :=
  inferInstanceAs (Decidable (_ → _))

/-! ## What is kept -/

section Kept

variable {s s' : System} {l : Label} {repeated : Option ℕ}

/-- The kept position is a repeated one of a programmable supply, if it is
that of the Request at all. -/
structure Kept (s : System) (repeated : Option ℕ) : Prop where
  /-- Before the first Request none is kept. -/
  unasked : s.pe.lastDpmRequest=none → s.pe.lastPps=8
  /-- The position of the Request is kept of a repeated one. -/
  kept : ∀ r, s.pe.lastDpmRequest=some r → pdRdoObjposGet r.msg=s.pe.lastPps →
    repeated=some (pdRdoObjposGet r.msg) ∧
      ∃ c, s.shared.dpm.capabilities=some c ∧ isPps (requestedObject c.msg r.msg)=true

/-- The position noted at an evaluation is that of the capabilities evaluated. -/
theorem notedPps_eq (hn : Noted s) {c : MsgPtr} (hc : s.pe.message.or s.shared.dpm.capabilities=some c) :
    notedPps s.pe=firstPps c.msg := by
  unfold notedPps
  cases hm : s.pe.message with
  | none =>
    rw [hm,Option.none_or] at hc
    exact hn c hc
  | some m =>
    rw [hm,Option.some_or] at hc
    cases hc
    rfl

/-- An evaluation keeps it, under the condition. -/
theorem Kept.evaluation {o : Outcome Event PolicyEngine Shared} (h : Kept s repeated) (hn : Noted s)
    (hsound : Sound s.pe s.shared) (hev : evaluates s.pe=true) (hl : l.isPe=true)
    (hr : RepeatsSupply s)
    (ho : (peSinkEvalCap s.pe).perform l.isPeTimeout s.pending s.shared=some o) :
    Kept (s.withPe o) (recordRepeated repeated s l (s.withPe o)) := by
  obtain ⟨hpoint,hstate⟩ := of_decide_eq_true hev
  obtain ⟨-,c,hc,-⟩ := hsound.at_ (s := .evaluating) (standing_begin hpoint hstate)
  have hnoted := notedPps_eq hn hc
  have hcaps : evaluated s.pe.message s.shared=c.msg := by
    unfold evaluated
    rw [hc]
    rfl
  obtain ⟨request,pool,-,rfl⟩ := evaluation_perform ho
  obtain ⟨e,hreq,hstored,-,-,hsel⟩ :=
    evaluateCapability_spec s.pe.message request {s.shared with pool := pool}
  have hpos : pdRdoObjposGet e.request=asksFor (selectsObject s.pe.message s.shared) :=
    objpos_eq_asksFor hsel
  refine ⟨fun hnone => absurd hnone (Option.some_ne_none _),?_⟩
  rintro r' hr' hkept
  cases hr'
  change pdRdoObjposGet (evaluateCapability _ _ _).1.msg=keptPps s.pe at hkept
  have hle := pdRdoObjposGet_le (evaluateCapability s.pe.message request {s.shared with pool := pool}).1.msg
  rw [hreq] at hkept hle ⊢
  dsimp only at hkept hle ⊢
  unfold keptPps at hkept
  cases hlast : s.pe.lastDpmRequest with
  | none =>
    -- Nothing was asked for before.
    rw [hlast,h.unasked hlast] at hkept
    have height : (if s.pe.message.isSome then 8 else 8)=8 := ite_self _
    dsimp only at hkept
    omega
  | some r =>
    rw [hlast] at hkept
    dsimp only at hkept
    split at hkept
    · next hbehind =>
      rw [hnoted,← hcaps] at hbehind
      obtain ⟨hsame,hpps⟩ := hr r hlast hbehind (by rw [← hpos,hkept])
      have hm : s.pe.message=none := Option.isNone_iff_eq_none.mp hsame
      refine ⟨?_,c,hstored.trans hc,?_⟩
      · unfold recordRepeated
        rw [hev,hl,hm,hlast,hkept]
        rfl
      · unfold requestedObject at hpps ⊢
        rw [hkept,← hcaps]
        exact hpps
    · omega

/-- Every other step keeps it. -/
theorem Kept.same (h : Kept s repeated) (hev : (evaluates s.pe && l.isPe)=false)
    (hs : SameRound s.pe s'.pe s.shared s'.shared) : Kept s' (recordRepeated repeated s l s') := by
  refine ⟨fun hnone => ?_,fun r hr hpos => ?_⟩
  · rw [hs.lastPps]
    exact h.unasked (by rw [← hs.request,hnone])
  · rw [hs.request] at hr
    rw [hs.lastPps] at hpos
    obtain ⟨hrep,c,hc,hpps⟩ := h.kept r hr hpos
    refine ⟨?_,c,hs.capabilities.trans hc,hpps⟩
    unfold recordRepeated
    rw [hev,if_neg Bool.false_ne_true,hr,hrep]
    exact ite_self _

/-- It is kept in every run under the condition. -/
theorem kept_of_reach {p : System × Option ℕ} (h : repeating.Reach repeatsSupplies p) : Kept p.1 p.2 := by
  refine h.observed_invariant (I := Kept) ?_ fun s repeated l s' hr hk ha hs => ?_
  · exact ⟨fun _ => rfl,fun r hr => by cases hr⟩
  · have hfirmware : firmware.Reach anyStep s := hr.any.unobserved
    have hsound : Sound s.pe s.shared := firmware_sound hfirmware
    rcases round_step hs with ⟨hev,hl,o,ho,rfl⟩ | ⟨hev,hsame⟩
    · exact hk.evaluation (noted_of_reach hfirmware) hsound hev hl (ha (by rw [hev,hl]; rfl)) ho
    · exact hk.same hev hsame

end Kept

/-! ## At an Accept -/

/-- The guard of `pe_sink_select_cap` decides on the manager's data alone. -/
theorem standby_dpm (s : System) (m : MsgPtr) :
    ((if pdRdoObjposGet (s.shared.deref s.pe.lastDpmRequest)≠s.pe.lastPps then
      {s.shared with dpm := pdbsDpmTransitionStandby s.shared.dpm} else s.shared).free m).dpm=
    if callsStandby s then pdbsDpmTransitionStandby s.shared.dpm else s.shared.dpm := by
  unfold callsStandby
  by_cases h : pdRdoObjposGet (s.shared.deref s.pe.lastDpmRequest)=s.pe.lastPps
  · rw [if_neg (not_not.mpr h),if_neg (by simpa using h)]
    rfl
  · rw [if_pos h,if_pos (by simpa using h)]
    rfl

/-- While evaluations repeat positions of programmable supplies only, every
Accept leads through standby as it should. -/
theorem accept_keepsStandby {p q : System × Option ℕ} {m : MsgPtr}
    (h : repeating.Reach repeatsSupplies p) (hs : repeating.step .pe p=some q)
    (hstate : p.1.pe.state=.sinkSelectCap) (hpoint : p.1.pe.point=.handle) (hm : p.1.pe.message=some m)
    (hacc : m.msg.isControl pdMsgtypeAccept=true) :
    q.1.pe.state=.sinkTransitionSink ∧
      q.1.shared.dpm=(if callsStandby p.1 then pdbsDpmTransitionStandby p.1.shared.dpm
        else p.1.shared.dpm) ∧
      StandbyKept p.1 p.2 := by
  have hkept := kept_of_reach h
  have hsound : Sound p.1.pe p.1.shared := firmware_sound h.any.unobserved
  obtain ⟨-,r,c,hr,hcaps,-⟩ := hsound.at_ (hsound.requesting hstate)
  have hshort (hcalls : callsStandby p.1=false) : p.2=some (pdRdoObjposGet r.msg) ∧
      isPps (requestedObject c.msg r.msg)=true := by
    unfold callsStandby at hcalls
    rw [hr,bne_eq_false_iff_eq] at hcalls
    obtain ⟨hrep,c',hc',hpps⟩ := hkept.kept r hr hcalls
    cases hcaps.symm.trans hc'
    exact ⟨hrep,hpps⟩
  have hstep : q.1.pe.state=.sinkTransitionSink ∧ q.1.shared.dpm=
      (if callsStandby p.1 then pdbsDpmTransitionStandby p.1.shared.dpm else p.1.shared.dpm) := by
    obtain ⟨hstep,-⟩ := observe_step.mp hs
    obtain ⟨o,ho,hq⟩ := Option.map_eq_some_iff.mp hstep
    unfold policyEngine at ho
    rw [hpoint,hm] at ho
    obtain ⟨-,sh',next,he,rfl⟩ := Action.perform_access.mp ho
    unfold handleMessage at he
    rw [hstate] at he
    obtain ⟨rfl,rfl⟩ := Prod.ext_iff.mp (Option.some.inj ((if_pos hacc).symm.trans he))
    rw [← hq]
    exact ⟨rfl,standby_dpm _ _⟩
  refine ⟨hstep.1,hstep.2,fun hnone => ?_,fun hcalls => ?_⟩
  · by_contra hcalls
    have hrep := (hshort (Bool.eq_false_iff.mpr hcalls)).1
    rw [hnone] at hrep
    cases hrep
  · obtain ⟨hrep,hpps⟩ := hshort hcalls
    exact ⟨r,c,hr,hcaps,hrep,hpps⟩

/-- A programmable supply is requested and accepted for the first time. -/
def contracted30 : List Label :=
  List.flatten [requested30 9000,[.pe],deliver (controlMessage pdMsgtypeAccept 1),[.pe,.pe,.pe],
    deliver (controlMessage pdMsgtypePsRdy 2),[.pe,.pe,.pe]]

/-- The user asks for a new negotiation of the same capabilities. -/
def negotiatedAgain : List Label :=
  List.flatten [contracted30,[.env .newPower],[.pe,.pe,.pe,.pe,.pe,.pe],[.tx,.tx,.tx,.tx,.tx],
    [.env (.bcLvl .a30)],[.tx,.tx],acknowledge 1,[.pe,.pe],deliver (controlMessage pdMsgtypeAccept 3),
    [.pe,.pe]]

/-- Then the shortcut is taken, for the same supply. -/
theorem accept_keepsStandby_again : ∃ p, repeating.Reach repeatsSupplies p ∧
    callsStandby p.1=false ∧ StandbyKept p.1 p.2 := by
  obtain ⟨p,q,hr,hs,ht⟩ := exists_step_of_follow repeating repeatsSupplies negotiatedAgain .pe
    (fun p _ => decide (p.1.pe.state=.sinkSelectCap ∧ p.1.pe.point=.handle ∧ callsStandby p.1=false) &&
      p.1.pe.message.any fun m => m.msg.isControl pdMsgtypeAccept) (by decide +kernel)
  obtain ⟨hpath,hmessage⟩ := Bool.and_eq_true_iff.mp ht
  obtain ⟨hstate,hpoint,hcalls⟩ := of_decide_eq_true hpath
  obtain ⟨m,hm,hacc⟩ := (Option.any_eq_true _ _).mp hmessage
  exact ⟨p,hr,hcalls,(accept_keepsStandby hr hs hstate hpoint hm hacc).2.2⟩

/-- The contract stands, 10 V is configured, new capabilities come, and the
Request for them is accepted. -/
def renegotiated : List Label :=
  List.flatten [contracted30,[.env (.storeConfig (some ⟨pdbsConfigStatusValid,0,10000,100,10000,10000⟩))],
    deliver (programmableCapabilities 3),[.pe,.pe,.pe,.pe,.pe,.pe],send,[.tx],acknowledge 1,[.pe,.pe],
    deliver (controlMessage pdMsgtypeAccept 4),[.pe,.pe]]

/-- Standby is left out, and the output stays on while the voltage changes. -/
theorem accept_skipsStandby : ¬∀ p q m, repeating.Reach anyStep p → repeating.step .pe p=some q →
    p.1.pe.state=.sinkSelectCap → p.1.pe.point=.handle → p.1.pe.message=some m →
    m.msg.isControl pdMsgtypeAccept=true → StandbyKept p.1 p.2 := by
  intro hall
  obtain ⟨p,q,hr,hs,ht⟩ := exists_step_of_follow repeating anyStep renegotiated .pe
    (fun p q => decide (p.1.pe.state=.sinkSelectCap ∧ p.1.pe.point=.handle ∧ p.2=none ∧
      callsStandby p.1=false ∧ q.1.shared.dpm.outCtrl=true ∧
      q.1.shared.dpm.requestedVoltage≠q.1.shared.dpm.presentVoltage) &&
      p.1.pe.message.any fun m => m.msg.isControl pdMsgtypeAccept) (by decide +kernel)
  obtain ⟨hpath,hmessage⟩ := Bool.and_eq_true_iff.mp ht
  obtain ⟨hstate,hpoint,hnone,hcalls,-⟩ := of_decide_eq_true hpath
  obtain ⟨m,hm,hacc⟩ := (Option.any_eq_true _ _).mp hmessage
  have hfresh := (hall p q m hr hs hstate hpoint hm hacc).fresh hnone
  rw [hcalls] at hfresh
  exact absurd hfresh Bool.false_ne_true

end UsbPdFirmware.StandbyShortcut
