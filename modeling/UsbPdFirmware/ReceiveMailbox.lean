import UsbPdFirmware.DoorbellQueue
import UsbPdFirmware.PolicyEngineMoves
import UsbPdFirmware.FirmwareSystem

/-!
# Messages received for the Policy Engine

Protocol RX posts a message and then tells the Policy Engine: again a queue
with one doorbell. The Policy Engine fetches one message for each flag it
takes, and none when it takes another event with it. So a burst of messages,
or an event at the wrong time, leaves a message behind that nothing
announces. When every flag is taken alone and for one message, none is.
-/

namespace UsbPdFirmware.ReceiveMailbox

open LabelledRuns Machine EventThreads FirmwareState FirmwareSystem DoorbellQueue
open PdMessage PolicyEngine PolicyEngineMoves ProtocolRx ProtocolTx HardReset

/-- The mailbox and the flag as a queue with a doorbell. -/
def rxDoorbell (s : System) : Doorbell MsgPtr where
  queue := s.shared.peMailbox
  posting := decide (s.rx.point=.storeSignalPe)
  rung := s.pending .peMsgRx
  answering := decide (phase s.pe=.fetching)

/-- The doorbell is what its parts are. -/
theorem rxDoorbell_eq {s : System} {d : Doorbell MsgPtr} (hq : s.shared.peMailbox=d.queue)
    (hp : decide (s.rx.point=.storeSignalPe)=d.posting) (hr : s.pending .peMsgRx=d.rung)
    (ha : decide (phase s.pe=.fetching)=d.answering) : rxDoorbell s=d := by
  cases d
  simp only [rxDoorbell,Doorbell.mk.injEq]
  exact ⟨hq,hp,hr,ha⟩

/-- The Policy Engine stands at a wait that hears messages. -/
def hearing (pe : PolicyEngine) : Prop := .peMsgRx ∈ waitMask pe

/-- A step by which the Policy Engine takes the announcement of a message. -/
def takesMsgRx (s : System) (l : Label) : Prop :=
  l.isPe=true ∧ hearing s.pe ∧ s.pending .peMsgRx=true

/-- Nothing else of the wait's mask is pending. -/
def alone (s : System) : Prop := ∀ e ∈ waitMask s.pe, e≠.peMsgRx → s.pending e=false

/-- What justifies the receiver's moves. -/
def why (s : System) (l : Label) (m : Move MsgPtr) : Prop :=
  match m with
  | .take => takesMsgRx s l
  | .pass => takesMsgRx s l ∧ ¬alone s
  | _ => True

/-- A wait that takes the announcement with something else passes it over. -/
theorem pe_passes {s : System} {l : Label} {pe' : PolicyEngine} {e : Event} (hl : l.isPe=true)
    (hp : phase s.pe=.working) (hp' : phase pe'≠.fetching) (he : e ∈ waitMask s.pe)
    (hne : e≠.peMsgRx) (ht : s.pending e=true) :
    (doorbell MsgPtr pdbMsgPoolSize).Seen rxDoorbell (why s l) s
      (s.withPe ⟨clear (waitMask s.pe) s.pending,pe',s.shared⟩) := by
  by_cases hb : hearing s.pe ∧ s.pending .peMsgRx=true
  · refine seen_move .pass ⟨⟨hl,hb⟩,fun ha => ?_⟩ (if_pos hb.2)
      (rxDoorbell_eq rfl rfl ?_ (by simp [System.withPe,rxDoorbell,hp,hp']))
    · rw [ha e he hne] at ht
      exact absurd ht (by decide)
    · have hm : .peMsgRx ∈ waitMask s.pe := hb.1
      simp [System.withPe,hm]
  · refine .inl (rxDoorbell_eq rfl rfl ?_ (by simp [System.withPe,rxDoorbell,hp,hp']))
    rw [not_and_or,Bool.not_eq_true] at hb
    rcases hb with hb | hb
    · have hm : .peMsgRx ∉ waitMask s.pe := hb
      simp [System.withPe,rxDoorbell,hm]
    · simp [System.withPe,rxDoorbell,hb]

/-- The Policy Engine's part. -/
theorem pe_answers {s : System} {l : Label} {expired : Bool} {o : Outcome Event PolicyEngine Shared}
    (hl : l.isPe=true) (h : (policyEngine s.pe).perform expired s.pending s.shared=some o) :
    (doorbell MsgPtr pdbMsgPoolSize).Seen rxDoorbell (why s l) s (s.withPe o) := by
  cases policyEngine_move h with
  | think hp hp' hs =>
    exact .inl (rxDoorbell_eq hs.peMailbox rfl rfl (by simp [System.withPe,rxDoorbell,hp,hp']))
  | startAms hp hp' =>
    exact .inl (rxDoorbell_eq rfl rfl (by simp [System.withPe,rxDoorbell])
      (by simp [System.withPe,rxDoorbell,hp,hp']))
  | heedReset hp hm hr => exact pe_passes hl hp (by rw [phase_goto]; decide) hm (by decide) hr
  | pass hp hp' hm hr he hne ht => exact pe_passes hl hp (by rw [hp']; decide) he hne ht
  | hear hp hm hr ho ht =>
    exact seen_move .take ⟨hl,hm,ht⟩ (if_pos ⟨ht,by simp [rxDoorbell,hp]⟩)
      (rxDoorbell_eq rfl rfl (by simp [System.withPe,hm]) (by simp [System.withPe]))
  | fetch hp hp' =>
    exact seen_move .fetch trivial (if_pos (by simp [rxDoorbell,phase_fetch hp]))
      (rxDoorbell_eq rfl rfl rfl (by simp [System.withPe,hp']))
  | post hp hs hp' hk hm ht =>
    exact .inl (rxDoorbell_eq hm rfl rfl (by simp [System.withPe,rxDoorbell,hp,phase_signalTx hp']))
  | ring hp =>
    exact .inl (rxDoorbell_eq rfl rfl (by simp [System.withPe,rxDoorbell])
      (by simp [System.withPe,rxDoorbell,phase_signalTx hp]))
  | result hp ht =>
    have hp' : phase (PolicyEngine.at_ s.pe (.sent (txResult (taken (waitMask s.pe) s.pending))))≠
        .fetching := by
      cases hr : txResult (taken (waitMask s.pe) s.pending) <;> simp [phase,PolicyEngine.at_]
    exact .inl (rxDoorbell_eq rfl rfl (by simp [System.withPe,rxDoorbell,waitMask_waitTx hp])
      (by simp [System.withPe,rxDoorbell,phase_waitTx hp,hp']))
  | ask hp hs hc =>
    have hph : phase s.pe=.working := by
      rw [phase_start hp,hs]
      rfl
    exact .inl (rxDoorbell_eq rfl rfl (by simp [System.withPe,rxDoorbell])
      (by simp [System.withPe,rxDoorbell,hph]))
  | release hp hp' ht =>
    exact .inl (rxDoorbell_eq rfl rfl (by simp [System.withPe,rxDoorbell,waitMask_waitHardSent hp])
      (by simp [System.withPe,rxDoorbell,phase_waitHardSent hp,hp']))
  | settle hp hp' hs =>
    exact .inl (rxDoorbell_eq hs.peMailbox rfl rfl (by simp [System.withPe,rxDoorbell,hp,hp']))
  | done hp =>
    exact .inl (rxDoorbell_eq rfl rfl (by simp [System.withPe,rxDoorbell])
      (by simp [System.withPe,rxDoorbell,phase_signalDone hp,startPhase]))

/-- Protocol RX posts and rings. -/
theorem rx_rings {s : System} {o : Outcome Event ProtocolRx Shared}
    (h : RxStep s.rx s.pending s.shared o) :
    (doorbell MsgPtr pdbMsgPoolSize).Seen rxDoorbell (why s .rx) s (s.withRx o) := by
  cases h with
  | post hp hm =>
    exact seen_move (.post _) trivial (if_pos (by simp [rxDoorbell,hp])) (rxDoorbell_eq rfl rfl rfl rfl)
  | storeSignalPe hp =>
    exact seen_move .ring trivial (if_pos (by simp [rxDoorbell,hp]))
      (rxDoorbell_eq rfl rfl (by simp [System.withRx]) rfl)
  | read hp hb =>
    refine .inl (rxDoorbell_eq ?_ ?_ rfl rfl)
    · simp only [System.withRx]
      rw [fusbReadMessage_eq]
      rfl
    · simp only [System.withRx,rxDoorbell,hp]
      split <;> rfl
  | pollOn hp hr =>
    refine .inl (rxDoorbell_eq rfl ?_ (by simp [System.withRx,rxDoorbell]) rfl)
    rcases hp with hp | hp <;> simp [System.withRx,rxDoorbell,hp]
  | pollReset hp hr =>
    refine .inl (rxDoorbell_eq rfl ?_ (by simp [System.withRx,rxDoorbell]) rfl)
    rcases hp with hp | hp <;> simp [System.withRx,rxDoorbell,hp]
  | drop hp =>
    refine .inl (rxDoorbell_eq ?_ (by simp [System.withRx,rxDoorbell,hp]) rfl rfl)
    simp only [System.withRx,rxDoorbell]
    cases s.rx.message <;> rfl
  | _ hp =>
    exact .inl (rxDoorbell_eq rfl (by simp [System.withRx,rxDoorbell,hp])
      (by simp [System.withRx,rxDoorbell]) rfl)

/-- A step that leaves the mailbox, the flag and both sides alone. -/
theorem rxDoorbell_kept {s s' : System} (hq : s'.shared.peMailbox=s.shared.peMailbox)
    (hrx : s'.rx=s.rx) (hr : s'.pending .peMsgRx=s.pending .peMsgRx) (hpe : s'.pe=s.pe) :
    rxDoorbell s'=rxDoorbell s :=
  rxDoorbell_eq hq (by rw [hrx]; rfl) hr (by rw [hpe]; rfl)

/-- Every step of the firmware is a move of the doorbell, or none. -/
theorem firmware_rings {s s' : System} {l : Label} (h : firmware.step l s=some s') :
    (doorbell MsgPtr pdbMsgPoolSize).Seen rxDoorbell (why s l) s s' := by
  cases firmware_moved h with
  | pe hl he hp => exact pe_answers hl hp
  | rx hr => exact rx_rings hr
  | tx ht => exact .inl (rxDoorbell_kept ht.frame.peMailbox rfl (ht.pending_other (by decide)) rfl)
  | hr hl hh => exact .inl (rxDoorbell_kept hh.frame.peMailbox rfl (hh.pending_other (by decide)) rfl)
  | intN hi => exact .inl (rxDoorbell_kept hi.frame.peMailbox rfl (hi.pending_other (by decide)) rfl)
  | env he =>
    have hf := environment_frame he
    exact .inl (rxDoorbell_kept hf.peMailbox hf.rx (hf.pending _ (by decide)) hf.pe)

/-! ## Messages left behind -/

/-- Every announcement is taken alone, and stands for one message: the
mailbox holds no more, apart from one that is about to be announced. -/
def oneByOne (s : System) (l : Label) : Prop :=
  takesMsgRx s l → alone s ∧
    s.shared.peMailbox.length ≤ 1+(decide (s.rx.point=.storeSignalPe)).toNat

instance (s : System) (l : Label) : Decidable (oneByOne s l) :=
  inferInstanceAs (Decidable ((_ ∧ _ ∈ _ ∧ _) → (∀ e ∈ waitMask s.pe, _ → _) ∧ _))

/-- The mailbox is empty, or the Policy Engine has been told. -/
def Announced (s : System) : Prop := s.shared.peMailbox=[] ∨ s.pending .peMsgRx=true

/-- In every run that takes messages one by one, no message waits unannounced
where the Policy Engine would hear of it, except while Protocol RX is between
posting it and announcing it. -/
theorem received_announced {s : System} (h : firmware.Reach oneByOne s) (hw : hearing s.pe)
    (hp : s.rx.point≠.storeSignalPe) : Announced s := by
  have hstart : rxDoorbell firmware.start=(doorbell MsgPtr pdbMsgPoolSize).start := rfl
  have hr : (doorbell MsgPtr pdbMsgPoolSize).Reach heard (rxDoorbell s) := by
    refine h.project hstart (fun _ _ _ hs => firmware_rings hs) fun s l m ha hm => ?_
    cases m with
    | take => exact (ha hm).2
    | pass => exact absurd (ha hm.1).1 hm.2
    | _ => trivial
  rcases heard_of_reach hr with hq | hr | hs | ⟨hf,-⟩
  · exact .inl hq
  · exact .inr hr
  · exact absurd (of_decide_eq_true hs) hp
  · have hfetch : phase s.pe=.fetching := of_decide_eq_true hf
    rw [phase_of_msgRx hw] at hfetch
    exact absurd hfetch (by decide)

/-- A whole negotiation takes its three messages one by one. -/
theorem received_announced_negotiate : ∃ s, firmware.Reach oneByOne s ∧ hearing s.pe ∧
    s.rx.point≠.storeSignalPe ∧ s.pe.explicitContract=true ∧ Announced s := by
  obtain ⟨s,hr,ht⟩ := exists_reach_of_follow firmware oneByOne negotiate
    (fun s => decide (.peMsgRx ∈ waitMask s.pe ∧ s.rx.point≠.storeSignalPe ∧
      s.pe.explicitContract=true)) (by decide +kernel)
  obtain ⟨hw,hp,hc⟩ := of_decide_eq_true ht
  exact ⟨s,hr,hw,hp,hc,received_announced hr hw hp⟩

/-- Nothing that the wait would take is pending. -/
def blocked (s : System) : Prop := ∀ e ∈ waitMask s.pe, s.pending e=false

/-- While the Policy Engine waits for its hard reset to be sent, capabilities
and an over-temperature interrupt arrive. The wait for capabilities takes both
flags and acts on the temperature. -/
def strandedTrace : List Label :=
  List.flatten [powerUp,[.peTimeout,.pe,.hr,.hr,.hr,.hr,.rx,.hr,.tx,.tx,.tx,.hr],
    deliver (sourceCapabilities 1),[.env (.ocpTemp true),.intN,.intN,.intN,.intN,.intN,
    .env .hardsent,.intN,.intN,.intN,.intN,.hr,.hr,.pe,.pe,.pe,.hr,.hr,.intN,.pe,.pe,.pe]]

/-- The capabilities then stay in the mailbox, and no flag is pending. -/
theorem exists_received_stranded : ¬∀ s, firmware.Reach anyStep s → hearing s.pe → blocked s →
    s.rx.point≠.storeSignalPe → Announced s := by
  intro h
  obtain ⟨s,hr,ht⟩ := exists_reach_of_follow firmware anyStep strandedTrace
    (fun s => decide (.peMsgRx ∈ waitMask s.pe ∧ (∀ e ∈ waitMask s.pe, s.pending e=false) ∧
      s.rx.point=.waitPhy) && !s.shared.peMailbox.isEmpty) (by decide +kernel)
  rw [Bool.and_eq_true] at ht
  obtain ⟨hw,hb,hp⟩ := of_decide_eq_true ht.1
  rcases h s hr hw hb (by rw [hp]; decide) with hq | hm
  · rw [hq] at ht
    exact absurd ht.2 (by decide)
  · rw [hb _ hw] at hm
    exact absurd hm (by decide)

end UsbPdFirmware.ReceiveMailbox
