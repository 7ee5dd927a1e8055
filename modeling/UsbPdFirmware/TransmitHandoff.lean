import UsbPdFirmware.DoorbellQueue
import UsbPdFirmware.HardResetHandshake

/-!
# Handing a message to Protocol TX

The Policy Engine posts a message, tells Protocol TX, and waits. Mailbox and
flag are a queue with a doorbell, so Protocol TX never finds the mailbox
empty. But a request to transmit that is taken together with RESET or
DISCARD is dropped: nobody reports on the message, and the Policy Engine
waits for good unless a hard reset frees it.
-/

namespace UsbPdFirmware.TransmitHandoff

open LabelledRuns Machine EventThreads FirmwareState FirmwareSystem DoorbellQueue
open PdMessage PolicyEngine PolicyEngineMoves ProtocolRx ProtocolTx HardReset HardResetHandshake

/-! ## Transmitting, as the Policy Engine sees it -/

/-- The flags by which a transmission is requested and answered. -/
def transmitEvents : List Event := [.prltxMsgTx,.peTxDone,.peTxErr]

/-- Only the wait for a result takes one of them. -/
theorem not_mem_waitMask_transmit {pe : PolicyEngine} {e : Event} (hp : pe.point≠.waitTx)
    (he : e ∈ transmitEvents) : e ∉ waitMask pe := by
  unfold waitMask
  simp only [transmitEvents,List.mem_cons,List.not_mem_nil,or_false] at he
  split <;> rcases he with rfl | rfl | rfl <;> first | contradiction | decide

/-- The phases of a transmission. -/
def transmitting : Phase → Bool
  | .ringing => true
  | .sending => true
  | _ => false

section Transmits

variable (pe : PolicyEngine) (pending : Event → Bool) (sh : Shared)

/-- Everything one action of the Policy Engine can do to a transmission. -/
inductive Transmits : Outcome Event PolicyEngine Shared → Prop where
  /-- It is not transmitting. -/
  | idle {o : Outcome Event PolicyEngine Shared} (hp : transmitting (phase pe)=false)
      (hp' : transmitting (phase o.loc)=false) (hq : o.shared.txMailbox=sh.txMailbox)
      (hf : ∀ e ∈ transmitEvents, o.pending e=pending e) :
      Transmits o
  /-- It posts a message. -/
  | post {pe' : PolicyEngine} {sh' : Shared} {m : MsgPtr} (hp : phase pe=.working)
      (hs : sendsFrom pe) (hp' : phase pe'=.ringing)
      (hq : sh'.txMailbox=post pdbMsgPoolSize m sh.txMailbox) :
      Transmits ⟨pending,pe',sh'⟩
  /-- It tells Protocol TX. -/
  | ring {pe' : PolicyEngine} (hp : phase pe=.ringing) (hp' : phase pe'=.sending) :
      Transmits ⟨raise [.prltxMsgTx] pending,pe',sh⟩
  /-- It takes the result. -/
  | result {pe' : PolicyEngine} (hp : pe.point=.waitTx) (hw : phase pe'=.working ∨ phase pe'=.owing)
      (ht : taken (waitMask pe) pending≠[]) : Transmits ⟨clear (waitMask pe) pending,pe',sh⟩

end Transmits

/-- Only at one point does the thread wait for a result. -/
theorem point_ne_waitTx {pe : PolicyEngine} {p : Phase} (hp : phase pe=p) (hne : p≠.sending) :
    pe.point≠.waitTx := by
  intro hw
  exact hne (hp.symm.trans (phase_waitTx hw))

/-- The phase of that wait has no other point. -/
theorem point_waitTx {pe : PolicyEngine} (h : phase pe=.sending) : pe.point=.waitTx := by
  unfold phase at h
  split at h
  case h_5 hp => exact hp
  case h_1 =>
    unfold startPhase at h
    split at h <;> cases h
  all_goals cases h

/-- Every action of the Policy Engine is one of these. -/
theorem policyEngine_transmits {pe : PolicyEngine} {pending : Event → Bool} {sh : Shared}
    {expired : Bool} {o : Outcome Event PolicyEngine Shared}
    (h : (policyEngine pe).perform expired pending sh=some o) : Transmits pe pending sh o := by
  have hclear {p : Phase} (hp : phase pe=p) (hne : p≠.sending) :
      ∀ e ∈ transmitEvents, clear (waitMask pe) pending e=pending e := by
    intro e he
    simp [not_mem_waitMask_transmit (point_ne_waitTx hp hne) he]
  have hraise {f : Event} (hf : f ∉ transmitEvents) :
      ∀ e ∈ transmitEvents, raise [f] pending e=pending e := fun e he =>
    raise_ne fun heq => hf (heq ▸ he)
  cases policyEngine_move h with
  | think hp hp' hs => exact .idle (by rw [hp]; rfl) (by rw [hp']; rfl) hs.txMailbox fun _ _ => rfl
  | startAms hp hp' => exact .idle (by rw [hp]; rfl) (by rw [hp']; rfl) rfl (hraise (by decide))
  | heedReset hp hm hr => exact .idle (by rw [hp]; rfl) rfl rfl (hclear hp (by decide))
  | pass hp hp' hm hr he hne ht =>
    exact .idle (by rw [hp]; rfl) (by rw [hp']; rfl) rfl (hclear hp (by decide))
  | hear hp hm hr ho ht => exact .idle (by rw [hp]; rfl) rfl rfl (hclear hp (by decide))
  | fetch hp hp' => exact .idle (by rw [phase_fetch hp]; rfl) (by rw [hp']; rfl) rfl fun _ _ => rfl
  | post hp hs hp' hk hm ht => exact .post hp hs (phase_signalTx hp') ht
  | ring hp => exact .ring (phase_signalTx hp) rfl
  | result hp ht =>
    refine .result hp ?_ ht
    cases hr : txResult (taken (waitMask pe) pending) with
    | reset => exact .inr rfl
    | failed => exact .inl rfl
    | done => exact .inl rfl
  | ask hp hs hc => exact .idle (by rw [phase_start hp,hs]; rfl) rfl rfl (hraise (by decide))
  | release hp hp' ht =>
    have hph := phase_waitHardSent hp
    exact .idle (by rw [hph]; rfl) (by rw [hp']; rfl) rfl (hclear hph (by decide))
  | settle hp hp' hs => exact .idle (by rw [hp]; rfl) (by rw [hp']; rfl) hs.txMailbox fun _ _ => rfl
  | done hp => exact .idle (by rw [phase_signalDone hp]; rfl) rfl rfl (hraise (by decide))

/-! ## The mailbox of Protocol TX -/

/-- The mailbox and the flag as a queue with a doorbell. -/
def txDoorbell (s : System) : Doorbell MsgPtr where
  queue := s.shared.txMailbox
  posting := decide (phase s.pe=.ringing)
  rung := s.pending .prltxMsgTx
  answering := decide (s.tx.point=.fetchMessage)

/-- The doorbell is what its parts are. -/
theorem txDoorbell_eq {s : System} {d : Doorbell MsgPtr} (hq : s.shared.txMailbox=d.queue)
    (hp : decide (phase s.pe=.ringing)=d.posting) (hr : s.pending .prltxMsgTx=d.rung)
    (ha : decide (s.tx.point=.fetchMessage)=d.answering) : txDoorbell s=d := by
  cases d
  simp only [txDoorbell,Doorbell.mk.injEq]
  exact ⟨hq,hp,hr,ha⟩

/-- A step that leaves the mailbox, the flag and both sides alone. -/
theorem txDoorbell_kept {s s' : System} (hq : s'.shared.txMailbox=s.shared.txMailbox)
    (hpe : s'.pe=s.pe) (hr : s'.pending .prltxMsgTx=s.pending .prltxMsgTx) (htx : s'.tx=s.tx) :
    txDoorbell s'=txDoorbell s :=
  txDoorbell_eq hq (by rw [hpe]; rfl) hr (by rw [htx]; rfl)

/-- The Policy Engine posts and rings. -/
theorem pe_rings {s : System} {expired : Bool} {o : Outcome Event PolicyEngine Shared}
    (h : (policyEngine s.pe).perform expired s.pending s.shared=some o) :
    (doorbell MsgPtr pdbMsgPoolSize).Seen txDoorbell (fun _ => True) s (s.withPe o) := by
  cases policyEngine_transmits h with
  | idle hp hp' hq hf =>
    have hr : phase s.pe≠.ringing := by
      rintro hr
      rw [hr] at hp
      exact absurd hp (by decide)
    have hr' : phase o.loc≠.ringing := by
      rintro hr
      rw [hr] at hp'
      exact absurd hp' (by decide)
    exact .inl (txDoorbell_eq hq (by simp [System.withPe,txDoorbell,hr,hr']) (hf _ (by decide)) rfl)
  | post hp hs hp' hq =>
    exact seen_move (.post _) trivial (if_pos (by simp [txDoorbell,hp]))
      (txDoorbell_eq hq (by simp [System.withPe,hp']) rfl rfl)
  | ring hp hp' =>
    exact seen_move .ring trivial (if_pos (by simp [txDoorbell,hp]))
      (txDoorbell_eq rfl (by simp [System.withPe,hp']) (by simp [System.withPe]) rfl)
  | result hp hw ht =>
    have hph := phase_waitTx hp
    refine .inl (txDoorbell_eq rfl ?_ ?_ rfl)
    · rcases hw with hw | hw <;> simp [System.withPe,txDoorbell,hph,hw]
    · simp [System.withPe,txDoorbell,waitMask_waitTx hp]

/-- Protocol TX passes the bell over when it takes the request together with a
reset or a discard. -/
theorem tx_passes {s : System} {p : ProtocolTxPoint} {e : Event} (he : e ∈ interruptMask s.tx.point)
    (hp : p≠.fetchMessage) :
    (doorbell MsgPtr pdbMsgPoolSize).Seen txDoorbell (fun _ => True) s
      (s.withTx ⟨clear (interruptMask s.tx.point) s.pending,ProtocolTx.at_ s.tx p,s.shared⟩) := by
  have hfetch : s.tx.point≠.fetchMessage := by
    intro hf
    rw [hf] at he
    exact absurd he List.not_mem_nil
  by_cases hb : .prltxMsgTx ∈ interruptMask s.tx.point ∧ s.pending .prltxMsgTx=true
  · exact seen_move .pass trivial (if_pos hb.2)
      (txDoorbell_eq rfl rfl (by simp [System.withTx,hb.1])
        (by simp [System.withTx,txDoorbell,hp,hfetch]))
  · refine .inl (txDoorbell_eq rfl rfl ?_ (by simp [System.withTx,txDoorbell,hp,hfetch]))
    simp only [System.withTx,txDoorbell,clear_apply]
    rw [not_and_or,Bool.not_eq_true] at hb
    rcases hb with hb | hb <;> simp [hb]

/-- Protocol TX answers, or passes the bell over. -/
theorem tx_answers {s : System} {o : Outcome Event ProtocolTx Shared}
    (h : TxStep s.tx s.pending s.shared o) :
    (doorbell MsgPtr pdbMsgPoolSize).Seen txDoorbell (fun _ => True) s (s.withTx o) := by
  cases h with
  | fetch hp =>
    refine seen_move .fetch trivial (if_pos (by simp [txDoorbell,hp])) (txDoorbell_eq rfl rfl rfl ?_)
    simp only [System.withTx]
    split <;> rfl
  | heedMsgTx hp hr hd hm =>
    exact seen_move .take trivial (if_pos ⟨hm,by simp [txDoorbell,hp]⟩)
      (txDoorbell_eq rfl rfl (by simp [System.withTx,waitMessageMask]) (by simp [System.withTx]))
  | heedReset hp hr => exact tx_passes hp (by simp)
  | heedDiscard hp hr hd => exact tx_passes hp (by simp)
  | report hr =>
    refine .inl (txDoorbell_eq rfl rfl ?_ ?_)
    · rcases reportedBy_cases hr with ⟨-,-,rfl⟩ | ⟨-,rfl⟩ | ⟨-,rfl⟩ <;> simp [System.withTx,txDoorbell]
    · rcases reportedBy_cases hr with ⟨hp,-⟩ | ⟨hp,-⟩ | ⟨hp,-⟩ <;> simp [System.withTx,txDoorbell,hp]
  | constructAms hp =>
    refine .inl (txDoorbell_eq rfl rfl (by simp [System.withTx,txDoorbell]) ?_)
    simp only [System.withTx,txDoorbell,hp]
    split <;> rfl
  | constructSinkTxOk hp =>
    refine .inl (txDoorbell_eq rfl rfl rfl ?_)
    simp only [System.withTx,txDoorbell]
    split
    · rw [hp]
      rfl
    · rfl
  | matchRead hp =>
    refine .inl (txDoorbell_eq ?_ rfl rfl (by simp [System.withTx,txDoorbell,hp]))
    simp only [System.withTx]
    rw [fusbReadMessage_eq]
    rfl
  | matchCompare hp =>
    refine .inl (txDoorbell_eq rfl rfl rfl ?_)
    simp only [System.withTx,txDoorbell,hp]
    split <;> rfl
  | discard hp =>
    refine .inl (txDoorbell_eq ?_ rfl rfl (by simp [System.withTx,txDoorbell,hp]))
    simp only [System.withTx,txDoorbell]
    split <;> rfl
  | constructHeader hp hm =>
    refine .inl (txDoorbell_eq rfl rfl rfl ?_)
    simp only [System.withTx,txDoorbell,hp]
    split <;> rfl
  | phyReset hp => exact .inl (txDoorbell_eq rfl rfl rfl (by simp [System.withTx,txDoorbell,hp]))
  | _ hp =>
    refine .inl (txDoorbell_eq rfl rfl ?_ ?_)
    all_goals simp [System.withTx,txDoorbell,constructMask,waitResponseMask,hp]

/-- Every step of the firmware is a move of the doorbell, or none. -/
theorem firmware_rings {s s' : System} {l : Label} (h : firmware.step l s=some s') :
    (doorbell MsgPtr pdbMsgPoolSize).Seen txDoorbell (fun _ => True) s s' := by
  cases firmware_moved h with
  | pe hl he hp => exact pe_rings hp
  | rx hr => exact .inl (txDoorbell_kept hr.frame.txMailbox rfl (hr.pending_other (by decide)) rfl)
  | tx ht => exact tx_answers ht
  | hr hl hh => exact .inl (txDoorbell_kept hh.frame.txMailbox rfl (hh.pending_other (by decide)) rfl)
  | intN hi => exact .inl (txDoorbell_kept hi.frame.txMailbox rfl (hi.pending_other (by decide)) rfl)
  | env he =>
    have hf := environment_frame he
    exact .inl (txDoorbell_kept hf.txMailbox hf.pe (hf.pending _ (by decide)) hf.tx)

/-- Protocol TX never fetches from an empty mailbox. -/
theorem txMailbox_ne_nil {allowed : System → Label → Prop} {s : System}
    (h : firmware.Reach allowed s) (hp : s.tx.point=.fetchMessage) : s.shared.txMailbox≠[] := by
  have hstart : txDoorbell firmware.start=(doorbell MsgPtr pdbMsgPoolSize).start := rfl
  have hr : (doorbell MsgPtr pdbMsgPoolSize).Reach anyStep (txDoorbell s) :=
    h.project hstart (fun _ _ _ hs => firmware_rings hs) fun _ _ _ _ _ => trivial
  exact (backed_of_reach (by decide) hr).queue_ne_nil (by simp [txDoorbell,hp])

/-! ## Requests that are dropped -/

/-- Protocol TX has a message, or is about to fetch one. -/
def busy (tx : ProtocolTx) : Prop := tx.point=.fetchMessage ∨ tx.message.isSome=true

/-- A result or a reset is on its way to the Policy Engine. -/
def released (s : System) : Prop :=
  s.pending .peTxDone=true ∨ s.pending .peTxErr=true ∨ s.pending .peReset=true ∨
    layerOf s.hr.point=.announcing

/-- A step by which Protocol TX takes a request to transmit together with a
RESET or a DISCARD, and so does not act on it. -/
def dropsRequest (s : System) (l : Label) : Prop :=
  l.isTx=true ∧ s.tx.point=.waitMessage ∧ s.pending .prltxMsgTx=true ∧
    (s.pending .prltxReset=true ∨ s.pending .prltxDiscard=true)

/-- No request is dropped while the Policy Engine waits for its result and
nothing is on its way to it. -/
def requestsHeard (s : System) (l : Label) : Prop :=
  dropsRequest s l → s.pe.point=.waitTx → released s

instance (s : System) (l : Label) : Decidable (requestsHeard s l) :=
  inferInstanceAs (Decidable ((_ ∧ _ ∧ _ ∧ _) → _ → _ ∨ _ ∨ _ ∨ _))

/-- Somebody will see to the message the Policy Engine waits for. -/
def Attended (s : System) : Prop := busy s.tx ∨ s.pending .prltxMsgTx=true ∨ released s

/-- What holds in every run in which no request is dropped. -/
structure Handed (s : System) : Prop where
  /-- Waiting for a request, Protocol TX has no message. -/
  idle : s.tx.point=.waitMessage → s.tx.message=none
  /-- A message waited for is attended to. -/
  attended : phase s.pe=.sending → Attended s

/-- Flags of the exchange that only the two sides of it touch. -/
theorem attended_of_frame {s s' : System} (h : Attended s) (htx : s'.tx=s.tx)
    (hf : ∀ e ∈ transmitEvents, s'.pending e=s.pending e)
    (hr : s.pending .peReset=true → s'.pending .peReset=true)
    (hl : layerOf s.hr.point=.announcing →
      layerOf s'.hr.point=.announcing ∨ s'.pending .peReset=true) : Attended s' := by
  unfold Attended released at h ⊢
  rw [htx,hf _ (by decide),hf _ (by decide),hf _ (by decide)]
  rcases h with h | h | h | h | h | h
  · exact .inl h
  · exact .inr (.inl h)
  · exact .inr (.inr (.inl h))
  · exact .inr (.inr (.inr (.inl h)))
  · exact .inr (.inr (.inr (.inr (.inl (hr h)))))
  · rcases hl h with h | h
    · exact .inr (.inr (.inr (.inr (.inr h))))
    · exact .inr (.inr (.inr (.inr (.inl h))))

/-- The Hard Reset thread announces what it carries out. -/
theorem hr_announces {hr : HardReset} {pending : Event → Bool} {sh : Shared}
    {o : Outcome Event HardReset Shared} (h : HrStep hr pending sh o)
    (hl : layerOf hr.point=.announcing) : layerOf o.loc.point=.announcing ∨ o.pending .peReset=true := by
  cases h with
  | indicate hp => exact .inr (by simp)
  | resetSignalTx hp =>
    refine .inl ?_
    rw [hp] at hl
    rw [layerOf_resetLayerNext]
    exact hl
  | resetRxMessageid hp => exact .inl (by rw [hp] at hl; exact hl)
  | resetTxCounter hp => exact .inl (by rw [hp] at hl; exact hl)
  | resetSignalRx hp => exact .inl (by rw [hp] at hl; exact hl)
  | accept hp ht => exact absurd hl (by rw [hp]; decide)
  | request hp => exact absurd hl (by rw [hp]; decide)
  | sent hp hk => exact absurd hl (by rw [hp]; decide)
  | requested hp => exact absurd hl (by rw [hp]; decide)
  | done hp hd => exact absurd hl (by rw [hp]; decide)
  | complete hp => exact absurd hl (by rw [hp]; decide)

/-- The Hard Reset thread takes no announcement back. -/
theorem hr_keeps_peReset {hr : HardReset} {pending : Event → Bool} {sh : Shared}
    {o : Outcome Event HardReset Shared} (h : HrStep hr pending sh o)
    (hr : pending .peReset=true) : o.pending .peReset=true := by
  cases h with
  | sent hp hk => exact (hk _ (by decide)).trans hr
  | _ => simp [hr]

/-- Protocol TX gives its message up only by reporting on it. -/
theorem tx_idle {tx : ProtocolTx} {pending : Event → Bool} {sh : Shared}
    {o : Outcome Event ProtocolTx Shared} (h : TxStep tx pending sh o) :
    o.loc.point=.waitMessage → o.loc.message=none := by
  intro hp'
  cases h with
  | resetIdle hp hm => exact hm
  | report hr => rfl
  | fetch hp =>
    simp only at hp'
    split at hp' <;> cases hp'
  | constructHeader hp hm =>
    simp only at hp'
    split at hp' <;> cases hp'
  | constructAms hp =>
    simp only [ProtocolTx.at_point] at hp'
    split at hp' <;> cases hp'
  | constructSinkTxOk hp =>
    simp only at hp'
    split at hp'
    · cases hp'
    · rw [hp] at hp'
      cases hp'
  | matchCompare hp =>
    simp only at hp'
    split at hp' <;> cases hp'
  | _ => cases hp'

/-- Protocol TX keeps a message attended to by a step that keeps the flags and
whatever makes it busy. -/
theorem attended_withTx {s : System} {o : Outcome Event ProtocolTx Shared} (ha : Attended s)
    (hb : busy s.tx → busy o.loc) (hf : ∀ e ∈ transmitEvents, o.pending e=s.pending e)
    (hr : o.pending .peReset=s.pending .peReset) : Attended (s.withTx o) := by
  unfold Attended released at ha ⊢
  simp only [System.withTx]
  rw [hf _ (by decide),hf _ (by decide),hf _ (by decide),hr]
  exact ha.imp_left hb

/-- A message at hand keeps the thread busy wherever it goes. -/
theorem busy_of_message {tx tx' : ProtocolTx} (hp : tx.point≠.fetchMessage)
    (hm : tx'.message=tx.message) (h : busy tx) : busy tx' := by
  rcases h with h | h
  · exact absurd h hp
  · exact .inr (by rw [hm]; exact h)

/-- Protocol TX keeps a message attended to when it heeds a reset or a
discard, if it drops no request while nothing is on the way. -/
theorem interrupt_attends {s : System} {p : ProtocolTxPoint} {e : Event}
    (he : e ∈ interruptMask s.tx.point) (hpend : s.pending e=true) (hne : e=.prltxReset ∨ e=.prltxDiscard)
    (ha : Attended s) (hd : dropsRequest s .tx → released s) :
    Attended (s.withTx ⟨clear (interruptMask s.tx.point) s.pending,ProtocolTx.at_ s.tx p,s.shared⟩) := by
  have hkept : ∀ f ∈ [Event.peTxDone,.peTxErr,.peReset],
      clear (interruptMask s.tx.point) s.pending f=s.pending f := by
    intro f hf
    have hapart : ∀ f ∈ [Event.peTxDone,.peTxErr,.peReset],
        f ∉ [Event.prltxReset,.prltxDiscard,.prltxMsgTx,.prltxTxsent,.prltxRetryfail] := by decide
    have hn : f ∉ interruptMask s.tx.point := fun hm => hapart f hf (interruptMask_subset _ hm)
    simp [hn]
  have hreleased (hr : released s) : Attended (s.withTx
      ⟨clear (interruptMask s.tx.point) s.pending,ProtocolTx.at_ s.tx p,s.shared⟩) := by
    unfold released at hr
    rw [← hkept .peTxDone (by decide),← hkept .peTxErr (by decide),← hkept .peReset (by decide)] at hr
    exact .inr (.inr hr)
  rcases ha with hb | hm | hr
  · have hfetch : s.tx.point≠.fetchMessage := by
      intro hf
      rw [hf] at he
      exact absurd he List.not_mem_nil
    exact .inl (busy_of_message hfetch rfl hb)
  · by_cases hw : s.tx.point=.waitMessage
    · refine hreleased (hd ⟨rfl,hw,hm,?_⟩)
      rcases hne with rfl | rfl
      · exact .inl hpend
      · exact .inr hpend
    · have hn : .prltxMsgTx ∉ interruptMask s.tx.point := fun h =>
        hw (prltxMsgTx_mem_interruptMask h)
      exact .inr (.inl (by simp [System.withTx,hn,hm]))
  · exact hreleased hr

/-- Protocol TX keeps a message attended to, if it never fetches from an empty
mailbox and drops no request while nothing is on the way. -/
theorem tx_attends {s : System} {o : Outcome Event ProtocolTx Shared}
    (h : TxStep s.tx s.pending s.shared o) (ha : Attended s)
    (hq : s.tx.point=.fetchMessage → s.shared.txMailbox≠[])
    (hd : dropsRequest s .tx → released s) : Attended (s.withTx o) := by
  have hreset : o.pending .peReset=s.pending .peReset := h.pending_other (by decide)
  cases h with
  | heedReset hp hr => exact interrupt_attends hp hr (.inl rfl) ha hd
  | heedDiscard hp hr hd' => exact interrupt_attends hp hd' (.inr rfl) ha hd
  | heedMsgTx hp hr hd' hm => exact .inl (.inl rfl)
  | fetch hp =>
    obtain ⟨m,rest,hm⟩ := List.exists_cons_of_ne_nil (hq hp)
    exact .inl (.inr (by simp [System.withTx,hm]))
  | report hr =>
    rcases reportedBy_cases hr with ⟨-,-,rfl⟩ | ⟨-,rfl⟩ | ⟨-,rfl⟩
    · exact .inr (.inr (.inr (.inl (by simp [System.withTx]))))
    · exact .inr (.inr (.inr (.inl (by simp [System.withTx]))))
    · exact .inr (.inr (.inl (by simp [System.withTx])))
  | constructHeader hp hm => exact .inl (.inr rfl)
  | constructSinkTxOk hp =>
    refine attended_withTx ha (busy_of_message (by rw [hp]; decide) ?_) (fun _ _ => rfl) hreset
    split <;> rfl
  | matchCompare hp =>
    refine attended_withTx ha (busy_of_message (by rw [hp]; simp) ?_) (fun _ _ => rfl) hreset
    split <;> rfl
  | matchRead hp =>
    exact attended_withTx ha (busy_of_message (by rw [hp]; decide) rfl) (fun _ _ => rfl) hreset
  | _ hp =>
    refine attended_withTx ha (busy_of_message (by rw [hp]; decide) rfl) (fun e he => ?_) hreset
    simp only [transmitEvents,List.mem_cons,List.not_mem_nil,or_false] at he
    rcases he with rfl | rfl | rfl <;> simp [constructMask,waitResponseMask]

/-- A step of the firmware keeps what holds in runs that drop no request. -/
theorem Handed.step {s s' : System} {l : Label} (hi : Handed s)
    (hq : s.tx.point=.fetchMessage → s.shared.txMailbox≠[]) (ha : requestsHeard s l)
    (hs : firmware.step l s=some s') : Handed s' := by
  have hrx : ∀ e ∈ transmitEvents, e ∉ rxEvents := by decide
  have hhr : ∀ e ∈ transmitEvents, e ∉ hrEvents := by decide
  have hintN : ∀ e ∈ transmitEvents, e ∉ intNEvents := by decide
  have huser : ∀ e ∈ transmitEvents, e ∉ userEvents := by decide
  cases firmware_moved hs with
  | pe hl he hp =>
    refine ⟨hi.idle,fun hsend => ?_⟩
    cases policyEngine_transmits hp with
    | idle ht ht' hq hf => exact absurd (ht'.symm.trans (congrArg transmitting hsend)) (by decide)
    | post hw hs hw' hq => exact absurd (hw'.symm.trans hsend) (by decide)
    | ring hr hr' => exact .inr (.inl (by simp [System.withPe]))
    | result hw hw' ht =>
      rcases hw' with hw' | hw'
      · exact absurd (hw'.symm.trans hsend) (by decide)
      · exact absurd (hw'.symm.trans hsend) (by decide)
  | rx hr =>
    refine ⟨hi.idle,fun hsend => attended_of_frame (hi.attended hsend) rfl ?_ ?_ .inl⟩
    · exact fun e he => hr.pending_other (hrx e he)
    · intro h
      exact (hr.pending_other (by decide)).trans h
  | tx ht =>
    refine ⟨tx_idle ht,fun hsend => tx_attends ht (hi.attended hsend) hq fun hd => ?_⟩
    exact ha hd (point_waitTx hsend)
  | hr hl hh =>
    refine ⟨hi.idle,fun hsend => attended_of_frame (hi.attended hsend) rfl ?_ ?_ ?_⟩
    · exact fun e he => hh.pending_other (hhr e he)
    · exact hr_keeps_peReset hh
    · exact hr_announces hh
  | intN hn =>
    refine ⟨hi.idle,fun hsend => attended_of_frame (hi.attended hsend) rfl ?_ ?_ .inl⟩
    · exact fun e he => hn.pending_other (hintN e he)
    · intro h
      exact (hn.pending_other (by decide)).trans h
  | env he =>
    have hf := environment_frame he
    refine ⟨by rw [hf.tx]; exact hi.idle,fun hsend => ?_⟩
    rw [hf.pe] at hsend
    refine attended_of_frame (hi.attended hsend) hf.tx ?_ ?_ (by rw [hf.hr]; exact .inl)
    · exact fun e he => hf.pending e (huser e he)
    · intro h
      exact (hf.pending _ (by decide)).trans h

/-- Every run that drops no request keeps it. -/
theorem handed_of_reach {s : System} (h : firmware.Reach requestsHeard s) : Handed s :=
  h.invariant ⟨fun _ => rfl,fun h => absurd h (by decide)⟩
    fun _ _ _ hr hi ha hs => hi.step (txMailbox_ne_nil hr) ha hs

/-- Another thread is about to signal one of the flags that the Policy Engine
or Protocol TX waits for. -/
def aboutToSignal (s : System) : Prop :=
  s.rx.point ∈ [.resetCounter,.resetStoredId,.resetSignalTx,.storeSignalTx] ∨
    s.hr.point ∉ [.resetLayer,.requestHardReset,.waitPhy,.hardResetRequested,.waitPe,.complete]

instance (s : System) : Decidable (aboutToSignal s) := inferInstanceAs (Decidable (_ ∨ _))

/-- A posted message is lost: the Policy Engine waits for its result and
Protocol TX for a request, none of their flags is pending, and no other thread
is about to signal one. -/
def Lost (s : System) : Prop :=
  s.pe.point=.waitTx ∧ s.pending .peTxDone=false ∧ s.pending .peTxErr=false ∧
    s.pending .peReset=false ∧ s.tx.point=.waitMessage ∧ s.pending .prltxReset=false ∧
    s.pending .prltxDiscard=false ∧ s.pending .prltxMsgTx=false ∧ ¬aboutToSignal s

instance (s : System) : Decidable (Lost s) :=
  inferInstanceAs (Decidable (_ ∧ _ ∧ _ ∧ _ ∧ _ ∧ _ ∧ _ ∧ _ ∧ _))

/-- No run that drops no request loses a message. -/
theorem transmit_not_lost {s : System} (h : firmware.Reach requestsHeard s) : ¬Lost s := by
  rintro ⟨hpe,hdone,herr,hreset,htx,-,-,hmsg,hnone⟩
  have hi := handed_of_reach h
  rcases hi.attended (phase_waitTx hpe) with (hb | hb) | hb | hb | hb | hb | hb
  · rw [htx] at hb
    exact absurd hb (by decide)
  · rw [hi.idle htx] at hb
    exact absurd hb (by decide)
  · rw [hmsg] at hb
    exact absurd hb (by decide)
  · rw [hdone] at hb
    exact absurd hb (by decide)
  · rw [herr] at hb
    exact absurd hb (by decide)
  · rw [hreset] at hb
    exact absurd hb (by decide)
  · refine hnone (.inr fun hm => ?_)
    simp only [List.mem_cons,List.not_mem_nil,or_false] at hm
    rcases hm with hm | hm | hm | hm | hm | hm <;> rw [hm] at hb <;> exact absurd hb (by decide)

/-- The start of a negotiation is such a run; a Request waits to be sent. -/
theorem transmit_not_lost_request :
    ∃ s, firmware.Reach requestsHeard s ∧ s.pe.point=.waitTx ∧ ¬Lost s := by
  obtain ⟨s,hr,hp⟩ := exists_reach_of_follow firmware requestsHeard request
    (fun s => decide (s.pe.point=.waitTx)) (by decide +kernel)
  exact ⟨s,hr,of_decide_eq_true hp,transmit_not_lost hr⟩

/-- The user asks for a new negotiation while Protocol RX works on a message.
The Request is posted just before Protocol RX tells Protocol TX to discard
what it transmits. -/
def discardTrace : List Label :=
  List.flatten [negotiate,[.env (.sourceMessage (controlMessage pdMsgtypePing 3)),.intN,.intN,.rx,
    .rx,.rx,.env .newPower,.pe,.pe,.pe,.pe,.pe,.pe,.rx,.rx,.tx,.tx,.tx,.tx,.rx,.rx,.rx,.intN,.intN,
    .intN]]

/-- The Request is then lost. -/
theorem exists_transmit_lost : ¬∀ s, firmware.Reach anyStep s → ¬Lost s := by
  intro h
  obtain ⟨s,hr,hl⟩ := exists_reach_of_follow firmware anyStep discardTrace
    (fun s => decide (Lost s)) (by decide +kernel)
  exact h s hr (of_decide_eq_true hl)

end UsbPdFirmware.TransmitHandoff
