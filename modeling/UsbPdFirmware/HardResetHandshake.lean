import UsbPdFirmware.ResetHandshake
import UsbPdFirmware.PolicyEngineMoves
import UsbPdFirmware.FirmwareSystem

/-!
# Crossing hard resets

The Policy Engine and the Hard Reset thread carry out the abstract reset
handshake: every step of the firmware is one of its moves or none. A hard
reset received while the Policy Engine is about to ask for one of its own
leaves each thread waiting for the other; without such a crossing no run
deadlocks.
-/

namespace UsbPdFirmware.HardResetHandshake

open LabelledRuns Machine EventThreads FirmwareState FirmwareSystem ResetHandshake
open PdMessage PolicyEngine PolicyEngineMoves ProtocolRx ProtocolTx HardReset

/-- The engine's part, by the phase of the Policy Engine. -/
def engineOf : Phase → Engine
  | .resetting => .waiting
  | .owing => .owing
  | _ => .working

/-- The layer's part, by where the Hard Reset thread stands. -/
def layerOf : HardResetPoint → Layer
  | .resetLayer => .idle
  | .complete => .idle
  | .resetRxMessageid byPe => if byPe then .requesting else .announcing
  | .resetTxCounter byPe => if byPe then .requesting else .announcing
  | .resetSignalRx byPe => if byPe then .requesting else .announcing
  | .resetSignalTx byPe => if byPe then .requesting else .announcing
  | .indicateHardReset => .announcing
  | .requestHardReset => .requesting
  | .waitPhy => .requesting
  | .hardResetRequested => .requesting
  | .waitPe => .waiting

/-- The flags of the handshake. -/
def handshakeEvents : List Event := [.hardrstReset,.peReset,.peHardSent,.hardrstDone]

/-- The firmware seen as a reset handshake. -/
def view (s : System) : Handshake where
  engine := engineOf (phase s.pe)
  layer := layerOf s.hr.point
  asked := s.pending .hardrstReset
  announced := s.pending .peReset
  reported := s.pending .peHardSent
  finished := s.pending .hardrstDone

/-- A step by which the Policy Engine asks for a hard reset. -/
def asksReset (s : System) (l : Label) : Prop :=
  l.isPe=true ∧ s.pe.point=.start ∧ s.pe.state=.sinkHardReset ∧
    s.pe.hardResetCounter ≤ pdNHardResetCount

/-- Hard resets do not cross: when the Policy Engine asks for one, the Hard
Reset thread is not carrying out one that it has yet to announce, and no
announcement is pending. -/
def resetsUncrossed (s : System) (l : Label) : Prop :=
  asksReset s l → layerOf s.hr.point≠.announcing ∧ s.pending .peReset=false

instance (s : System) (l : Label) : Decidable (asksReset s l) :=
  inferInstanceAs (Decidable (_ ∧ _ ∧ _ ∧ _))

instance (s : System) (l : Label) : Decidable (resetsUncrossed s l) :=
  inferInstanceAs (Decidable (_ → _ ∧ _))

/-- The view is what its six parts are. -/
theorem view_eq {s : System} {h : Handshake} (he : engineOf (phase s.pe)=h.engine)
    (hl : layerOf s.hr.point=h.layer) (ha : s.pending .hardrstReset=h.asked)
    (hn : s.pending .peReset=h.announced) (hr : s.pending .peHardSent=h.reported)
    (hf : s.pending .hardrstDone=h.finished) : view s=h := by
  cases h
  simp only [view,Handshake.mk.injEq]
  exact ⟨he,hl,ha,hn,hr,hf⟩

/-- The view is kept by a step that keeps both parts and the four flags. -/
theorem view_kept {s s' : System} (he : engineOf (phase s'.pe)=engineOf (phase s.pe))
    (hl : layerOf s'.hr.point=layerOf s.hr.point)
    (hf : ∀ e ∈ handshakeEvents, s'.pending e=s.pending e) : view s'=view s :=
  view_eq he hl (hf _ (by decide)) (hf _ (by decide)) (hf _ (by decide)) (hf _ (by decide))

/-- A wait outside the handshake takes at most the announcement. -/
theorem not_mem_waitMask {pe : PolicyEngine} {e : Event} (hp : pe.point≠.waitHardSent)
    (he : e ∈ handshakeEvents) (hne : e≠.peReset) : e ∉ waitMask pe := by
  unfold waitMask
  simp only [handshakeEvents,List.mem_cons,List.not_mem_nil,or_false] at he
  split <;> rcases he with rfl | rfl | rfl | rfl <;> first | contradiction | decide

/-- In any phase but one the thread is not at the wait for its own reset. -/
theorem point_ne_waitHardSent {pe : PolicyEngine} {p : Phase} (hp : phase pe=p) (hne : p≠.resetting) :
    pe.point≠.waitHardSent := by
  intro hw
  apply hne
  rw [← hp]
  unfold phase
  rw [hw]

/-- Signalling a flag keeps every other flag. -/
theorem raise_ne {pending : Event → Bool} {f e : Event} (hne : e≠f) :
    raise [f] pending e=pending e := by
  simp [hne]

/-- Signalling a flag outside the handshake keeps its flags. -/
theorem raise_other {pending : Event → Bool} {f e : Event} (hf : f ∉ handshakeEvents)
    (he : e ∈ handshakeEvents) : raise [f] pending e=pending e :=
  raise_ne fun h => hf (h ▸ he)

/-- A step of the firmware is a move of the handshake, or none; the move by
which the engine asks is a request of the Policy Engine. -/
def Follows (s : System) (l : Label) (s' : System) : Prop :=
  handshake.Seen view (fun m => m=.ask → asksReset s l) s s'

/-- The Policy Engine's actions are the engine's moves. -/
theorem pe_follows {s : System} {l : Label} {expired : Bool} {o : Outcome Event PolicyEngine Shared}
    (hl : l.isPe=true)
    (h : (policyEngine s.pe).perform expired s.pending s.shared=some o) : Follows s l (s.withPe o) := by
  have hwait {e : Event} (hp : s.pe.point≠.waitHardSent) (he : e ∈ handshakeEvents) (hne : e≠.peReset) :
      clear (waitMask s.pe) s.pending e=s.pending e := by
    simp [not_mem_waitMask hp he hne]
  -- A wait of a working engine that finds no announcement keeps all four flags.
  have hquiet (hp : s.pe.point≠.waitHardSent) (hr : s.pending .peReset=false) :
      ∀ e ∈ handshakeEvents, clear (waitMask s.pe) s.pending e=s.pending e := by
    intro e he
    by_cases hne : e=.peReset
    · rw [hne]
      simp [hr]
    · exact hwait hp he hne
  -- One that finds it heeds it.
  have hheed {pe' : PolicyEngine} (he : engineOf (phase s.pe)=.working) (hp : s.pe.point≠.waitHardSent)
      (hm : .peReset ∈ waitMask s.pe) (hr : s.pending .peReset=true) (hp' : phase pe'=.owing) :
      Follows s l (s.withPe ⟨clear (waitMask s.pe) s.pending,pe',s.shared⟩) := by
    refine seen_move .heed (by simp) (if_pos ⟨he,hr⟩) (view_eq ?_ rfl ?_ ?_ ?_ ?_)
    · exact congrArg engineOf hp'
    · exact hwait hp (by decide) (by decide)
    · simp [System.withPe,hm]
    · exact hwait hp (by decide) (by decide)
    · exact hwait hp (by decide) (by decide)
  cases policyEngine_move h with
  | think hp hp' hs => exact .inl (view_kept (by simp [System.withPe,hp,hp']) rfl fun _ _ => rfl)
  | startAms hp hp' =>
    exact .inl (view_kept (by simp [System.withPe,hp,hp']) rfl fun _ he => raise_other (by decide) he)
  | heedReset hp hm hr =>
    exact hheed (by rw [hp]; rfl) (point_ne_waitHardSent hp (by decide)) hm hr rfl
  | pass hp hp' hm hr he hne ht =>
    exact .inl (view_kept (by simp [System.withPe,hp,hp']) rfl
      (hquiet (point_ne_waitHardSent hp (by decide)) hr))
  | hear hp hm hr ho ht =>
    exact .inl (view_kept (by rw [hp]; rfl) rfl (hquiet (point_ne_waitHardSent hp (by decide)) hr))
  | fetch hp hp' =>
    have hph := phase_fetch hp
    exact .inl (view_kept (by simp [System.withPe,hph,hp',engineOf]) rfl fun _ _ => rfl)
  | post hp hs hp' hk hm ht =>
    have hph := phase_signalTx hp'
    exact .inl (view_kept (by simp [System.withPe,hp,hph,engineOf]) rfl fun _ _ => rfl)
  | ring hp =>
    have hph := phase_signalTx hp
    exact .inl (view_kept (by rw [hph]; rfl) rfl fun _ he => raise_other (by decide) he)
  | result hp ht =>
    have hph := phase_waitTx hp
    have hmask := waitMask_waitTx hp
    cases hr : s.pending .peReset with
    | true =>
      refine hheed (by rw [hph]; rfl) (by rw [hp]; decide) (by simp [hmask]) hr ?_
      exact phase_sent_reset (by simp [txResult,hmask,hr,PolicyEngine.at_])
    | false =>
      refine .inl (view_kept ?_ rfl (hquiet (by rw [hp]; decide) hr))
      have hw : phase (PolicyEngine.at_ s.pe (.sent (txResult (taken (waitMask s.pe) s.pending))))=
          .working := phase_sent rfl (txResult_ne_reset (by simp [hr]))
      simp [System.withPe,hph,hw,engineOf]
  | ask hp hs hc =>
    have hph : phase s.pe=.working := by
      rw [phase_start hp,hs]
      rfl
    exact seen_move .ask (fun _ => ⟨hl,hp,hs,hc⟩) (if_pos (by simp [view,hph,engineOf]))
      (view_eq rfl rfl (by simp [System.withPe]) (raise_ne (by decide)) (raise_ne (by decide))
        (raise_ne (by decide)))
  | release hp hp' ht =>
    have hph := phase_waitHardSent hp
    have hmask := waitMask_waitHardSent hp
    refine seen_move .release (by simp) (if_pos ⟨by simp [view,hph,engineOf],ht⟩)
      (view_eq ?_ rfl ?_ ?_ ?_ ?_)
    · exact congrArg engineOf hp'
    all_goals simp [System.withPe,hmask,view]
  | settle hp hp' hs => exact .inl (view_kept (by simp [System.withPe,hp,hp']) rfl fun _ _ => rfl)
  | done hp =>
    have hph := phase_signalDone hp
    exact seen_move .finish (by simp) (if_pos (by simp [view,hph,engineOf]))
      (view_eq rfl rfl (raise_ne (by decide)) (raise_ne (by decide)) (raise_ne (by decide))
        (by simp [System.withPe]))

/-- Where the thread goes after its signals, by who started the reset. -/
theorem layerOf_resetLayerNext (byPe : Bool) :
    layerOf (resetLayerNext byPe)=if byPe then .requesting else .announcing := by
  cases byPe <;> rfl

/-- The Hard Reset thread's actions are the layer's moves. -/
theorem hr_follows {s : System} {l : Label} {o : Outcome Event HardReset Shared}
    (h : HrStep s.hr s.pending s.shared o) : Follows s l (s.withHr o) := by
  cases h with
  | accept hp ht =>
    have hidle : (view s).layer=.idle := by simp [view,hp,layerOf]
    cases hr : s.pending .hardrstReset with
    | true =>
      refine seen_move .accept (by simp) (if_pos ⟨hidle,hr⟩) (view_eq rfl ?_ ?_ ?_ ?_ ?_)
      all_goals simp [System.withHr,view,layerOf]
    | false =>
      refine seen_move .notice (by simp) (if_pos ⟨hidle,hr⟩) (view_eq rfl ?_ ?_ ?_ ?_ ?_)
      all_goals simp [System.withHr,view,layerOf,hr]
  | resetRxMessageid hp => exact .inl (view_kept rfl (by rw [hp]; rfl) fun _ _ => rfl)
  | resetTxCounter hp => exact .inl (view_kept rfl (by rw [hp]; rfl) fun _ _ => rfl)
  | resetSignalRx hp =>
    exact .inl (view_kept rfl (by rw [hp]; rfl) fun _ he => raise_other (by decide) he)
  | resetSignalTx hp =>
    exact .inl (view_kept rfl (by rw [hp]; exact layerOf_resetLayerNext _)
      fun _ he => raise_other (by decide) he)
  | indicate hp =>
    exact seen_move .announce (by simp) (if_pos (by simp [view,hp,layerOf]))
      (view_eq rfl rfl (raise_ne (by decide)) (by simp [System.withHr]) (raise_ne (by decide))
        (raise_ne (by decide)))
  | request hp => exact .inl (view_kept rfl (by rw [hp]; rfl) fun _ _ => rfl)
  | sent hp hk =>
    refine .inl (view_kept rfl (by rw [hp]; rfl) fun e he => hk e ?_)
    rintro rfl
    exact absurd he (by decide)
  | requested hp =>
    exact seen_move .report (by simp) (if_pos (by simp [view,hp,layerOf]))
      (view_eq rfl rfl (raise_ne (by decide)) (raise_ne (by decide)) (by simp [System.withHr])
        (raise_ne (by decide)))
  | done hp hd =>
    refine seen_move .close (by simp) (if_pos ⟨by simp [view,hp,layerOf],hd⟩)
      (view_eq rfl ?_ ?_ ?_ ?_ ?_)
    all_goals simp [System.withHr,view,layerOf]
  | complete hp => exact .inl (view_kept rfl (by rw [hp]; rfl) fun _ _ => rfl)

/-- Every step of the firmware is a move of the handshake, or none. -/
theorem firmware_follows {s s' : System} {l : Label} (h : firmware.step l s=some s') :
    Follows s l s' := by
  have houtside (events : List Event) (ho : ∀ e ∈ handshakeEvents, e ∉ events)
      (hk : ∀ e ∉ events, s'.pending e=s.pending e) :
      ∀ e ∈ handshakeEvents, s'.pending e=s.pending e := fun e he => hk e (ho e he)
  cases firmware_moved h with
  | pe hl he hp => exact pe_follows hl hp
  | rx hr =>
    exact .inl (view_kept rfl rfl (houtside rxEvents (by decide) fun _ he => hr.pending_other he))
  | tx ht =>
    exact .inl (view_kept rfl rfl (houtside txEvents (by decide) fun _ he => ht.pending_other he))
  | hr hl hh => exact hr_follows hh
  | intN hi =>
    exact .inl (view_kept rfl rfl (houtside intNEvents (by decide) fun _ he => hi.pending_other he))
  | env he =>
    have hf := environment_frame he
    exact .inl (view_kept (by rw [hf.pe]) (by rw [hf.hr]) (houtside userEvents (by decide) hf.pending))

/-- A run of the firmware without crossing resets is a run of the handshake
without a crossing. -/
theorem handshake_of_firmware {s : System} (h : firmware.Reach resetsUncrossed s) :
    handshake.Reach uncrossed (view s) := by
  have hstart : view firmware.start=handshake.start := rfl
  exact h.project hstart (fun _ _ _ hs => firmware_follows hs) fun _ _ _ ha hw hm => ha (hw hm)

/-- The Policy Engine waits for its hard reset to be sent, the Hard Reset
thread waits for the Policy Engine to be done, and neither flag is pending. -/
def HardResetDeadlock (s : System) : Prop :=
  s.pe.point=.waitHardSent ∧ s.pending .peHardSent=false ∧
    s.hr.point=.waitPe ∧ s.pending .hardrstDone=false

instance (s : System) : Decidable (HardResetDeadlock s) :=
  inferInstanceAs (Decidable (_ ∧ _ ∧ _ ∧ _))

/-- A deadlock of the two threads is one of the handshake. -/
theorem deadlock_of_firmware {s : System} (h : HardResetDeadlock s) : Deadlock (view s) := by
  obtain ⟨hp,hs,hw,hd⟩ := h
  exact ⟨congrArg engineOf (phase_waitHardSent hp),hs,congrArg layerOf hw,hd⟩

/-- No run without crossing resets deadlocks. -/
theorem hardReset_no_deadlock {s : System} (h : firmware.Reach resetsUncrossed s) :
    ¬HardResetDeadlock s :=
  fun hd => (uncrossed_of_reach (handshake_of_firmware h)).no_deadlock (deadlock_of_firmware hd)

/-- The Policy Engine finds no capabilities and asks for a hard reset. -/
def askTrace : List Label := [.pe,.pe,.tx,.tx,.peTimeout,.pe]

/-- In such a run the Policy Engine waits for its reset. -/
theorem hardReset_no_deadlock_asked :
    ∃ s, firmware.Reach resetsUncrossed s ∧ s.pe.point=.waitHardSent ∧ ¬HardResetDeadlock s := by
  obtain ⟨s,hr,hp⟩ := exists_reach_of_follow firmware resetsUncrossed askTrace
    (fun s => decide (s.pe.point=.waitHardSent)) (by decide +kernel)
  exact ⟨s,hr,of_decide_eq_true hp,hardReset_no_deadlock hr⟩

/-- A hard reset arrives while the Policy Engine's wait for capabilities is
about to expire. The Hard Reset thread has reset the protocol layer, but not
told the Policy Engine, when that asks for a hard reset of its own. -/
def crossingTrace : List Label :=
  [.pe,.pe,.tx,.tx,.env .hardrst,.intN,.intN,.intN,.intN,.hr,.hr,.hr,.hr,.rx,.hr,.tx,.tx,.tx,
    .peTimeout,.pe,.hr]

/-- The two threads then wait for each other. -/
theorem exists_hardReset_deadlock : ¬∀ s, firmware.Reach anyStep s → ¬HardResetDeadlock s := by
  intro h
  obtain ⟨s,hr,hd⟩ := exists_reach_of_follow firmware anyStep crossingTrace
    (fun s => decide (HardResetDeadlock s)) (by decide +kernel)
  exact h s hr (of_decide_eq_true hd)

end UsbPdFirmware.HardResetHandshake
