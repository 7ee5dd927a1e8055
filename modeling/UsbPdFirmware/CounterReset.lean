import UsbPdFirmware.SharedBlocks

/-!
# The first MessageID after a received Soft_Reset

Protocol RX zeroes the counter of Protocol TX and then signals it. Until
Protocol TX has taken the signal and sent its next message, the counter must
stay at zero. It does not where Protocol TX is about to finish or to give up a
message when the counter is zeroed, or gives up the message fetched next. The
signal and the first message are watched beside the firmware over its shared
blocks; that message carries zero when no MessageID is used up in between and
nobody else writes its block before it is sent.
-/

namespace UsbPdFirmware.CounterReset

open LabelledRuns Machine EventThreads FirmwareState FirmwareSystem
open PdMessage PolicyEngine PolicyEngineMoves ProtocolRx ProtocolTx HardReset
open BlockOwners SharedBlocks

/-! ## Watching a Soft_Reset -/

/-- What is watched. -/
structure Watch where
  /-- Protocol RX has signalled a Soft_Reset that Protocol TX has not taken. -/
  signalled : Bool
  /-- Protocol TX has taken one and given up its message, and has sent none
  since. -/
  cleared : Bool

/-- Protocol RX has zeroed the counter and not yet signalled it. -/
def zeroing : ProtocolRxPoint → Bool
  | .resetStoredId => true
  | .resetSignalTx => true
  | _ => false

/-- Protocol TX takes a reset event next. -/
def takesReset (s : System) : Bool :=
  s.pending .prltxReset && decide (.prltxReset ∈ interruptMask s.tx.point)

/-- Protocol TX uses up a MessageID next. -/
def usesId (tx : ProtocolTx) : Bool :=
  match tx.point with
  | .transmissionError => true
  | .messageSent => true
  | .discardMessage => tx.message.isSome
  | _ => false

/-- The watch after a step. -/
def record (h : Watch) (s : System) (l : Label) : Watch where
  signalled := l.isRx && decide (s.rx.point=.resetSignalTx) ||
    h.signalled && !(l.isTx && takesReset s)
  cleared := h.signalled && (l.isTx && takesReset s) ||
    h.cleared && !(l.isTx && decide (s.tx.point=.constructSend))

/-- The firmware over its shared blocks, with the watch beside it. -/
def watched : Machine (Pooled × Watch) Label :=
  sharing.observe ⟨false,false⟩ fun h s l _ => record h s.toSystem l

/-- The next message is the first after some Soft_Reset, which Protocol RX has
begun to handle. -/
def owes (s : System) (h : Watch) : Bool := zeroing s.rx.point || h.signalled || h.cleared

/-- The points at which a numbered message waits to be sent. -/
def numberedPoints : List ProtocolTxPoint := [.constructAms,.constructSinkTxOk,.constructSend]

/-- Protocol TX uses up no MessageID between the zeroing of the counter and
the first message. -/
def usesNone (p : Pooled × Watch) (l : Label) : Prop :=
  l.isTx=true → owes p.1.toSystem p.2=true → usesId p.1.tx=false

/-- While the first message waits to be sent, nobody frees its block or puts a
message into it. -/
def keepsBlock (p : Pooled × Watch) (l : Label) : Prop :=
  p.2.cleared=true → p.1.tx.point ∈ numberedPoints →
    ∀ m ∈ p.1.tx.message, writes p.1.toSystem l m.block=false

/-- Both. -/
def undisturbed (p : Pooled × Watch) (l : Label) : Prop := usesNone p l ∧ keepsBlock p l

instance (p : Pooled × Watch) (l : Label) : Decidable (undisturbed p l) :=
  have : Decidable (usesNone p l) := by unfold usesNone; infer_instance
  have : Decidable (keepsBlock p l) := by unfold keepsBlock; infer_instance
  inferInstanceAs (Decidable (_ ∧ _))

/-! ## The counter -/

theorem rx_counter {rx : ProtocolRx} {pending : Event → Bool} {sh : Shared}
    {o : Outcome Event ProtocolRx Shared} (h : RxStep rx pending sh o) :
    o.shared.txMessageidcounter=
      if rx.point=.resetCounter then 0 else sh.txMessageidcounter := by
  cases h with
  | resetCounter hp => rw [if_pos hp]
  | read hp hb =>
    simp only [hp]
    rw [fusbReadMessage_eq]
    rfl
  | drop hp =>
    simp only [hp]
    cases rx.message <;> rfl
  | pollOn hp hr => rcases hp with hp | hp <;> simp only [hp] <;> rfl
  | pollReset hp hr => rcases hp with hp | hp <;> simp only [hp] <;> rfl
  | _ hp =>
    simp only [hp]
    rfl

/-- Where RESET and DISCARD are known, no MessageID is used up. -/
theorem usesId_interruptible {tx : ProtocolTx} {e : Event} (h : e ∈ interruptMask tx.point) :
    tx.point≠.resetCounter ∧ usesId tx=false := by
  unfold usesId
  rcases interruptMask_point h with hp | hp | hp <;> rw [hp] <;> exact ⟨by decide,rfl⟩

theorem tx_counter {tx : ProtocolTx} {pending : Event → Bool} {sh : Shared}
    {o : Outcome Event ProtocolTx Shared} (h : TxStep tx pending sh o) :
    o.shared.txMessageidcounter=
      if tx.point=.resetCounter then 0
      else if usesId tx then (sh.txMessageidcounter+1)%8 else sh.txMessageidcounter := by
  cases h with
  | resetCounter hp => rw [if_pos hp]
  | discard hp =>
    simp only [usesId,hp]
    cases tx.message <;> rfl
  | matchRead hp =>
    simp only [usesId,hp]
    rw [fusbReadMessage_eq]
    rfl
  | report hr =>
    rcases reportedBy_cases hr with ⟨hp,-,-⟩ | ⟨hp,-⟩ | ⟨hp,-⟩
    all_goals
      simp only [usesId,hp]
      rfl
  | heedReset hp hr =>
    obtain ⟨hne,hu⟩ := usesId_interruptible hp
    rw [if_neg hne,hu]
    rfl
  | heedDiscard hp hr hd =>
    obtain ⟨hne,hu⟩ := usesId_interruptible hp
    rw [if_neg hne,hu]
    rfl
  | _ hp =>
    simp only [usesId,hp]
    rfl

theorem hr_counter {hr : HardReset} {pending : Event → Bool} {sh : Shared}
    {o : Outcome Event HardReset Shared} (h : HrStep hr pending sh o) :
    o.shared.txMessageidcounter=0 ∨ o.shared.txMessageidcounter=sh.txMessageidcounter := by
  cases h with
  | resetTxCounter hp => exact .inl rfl
  | _ => exact .inr rfl

/-- Protocol RX zeroes the counter before anything else it does for a
Soft_Reset. -/
theorem rx_zeroing {rx : ProtocolRx} {pending : Event → Bool} {sh : Shared}
    {o : Outcome Event ProtocolRx Shared} (h : RxStep rx pending sh o)
    (hz : zeroing o.loc.point=true) : rx.point=.resetCounter ∨ zeroing rx.point=true := by
  cases h with
  | resetCounter hp => exact .inl hp
  | resetStoredId hp => exact .inr (by rw [hp]; rfl)
  | read hp =>
    dsimp only at hz
    split at hz <;> exact absurd hz (by decide)
  | pollOn hp =>
    rcases hp with hp | hp <;> simp [hp,zeroing] at hz
  | _ => exact absurd hz (by simp [zeroing])

/-! ## What one step keeps -/

section Step

variable {s s' : System} {l : Label} {h : Watch}

/-- Only Protocol RX signals a Soft_Reset. -/
theorem signalled_record (hr : (record h s l).signalled=true) :
    h.signalled=true ∨ (l.isRx=true ∧ s.rx.point=.resetSignalTx) := by
  simp only [record,Bool.or_eq_true,Bool.and_eq_true,decide_eq_true_eq] at hr
  rcases hr with hr | ⟨hr,-⟩
  · exact .inr hr
  · exact .inl hr

/-- Only a reset event that Protocol TX takes makes it give up its message. -/
theorem cleared_record (hr : (record h s l).cleared=true) :
    (h.signalled=true ∧ l.isTx=true ∧ takesReset s=true) ∨
    (h.cleared=true ∧ ¬(l.isTx=true ∧ s.tx.point=.constructSend)) := by
  simp only [record,Bool.or_eq_true,Bool.and_eq_true,Bool.not_eq_true',← Bool.not_eq_true,
    decide_eq_true_eq] at hr
  exact hr

theorem zeroing_step (hm : Moved s l s') (hz : zeroing s'.rx.point=true) :
    zeroing s.rx.point=true ∨ (l.isRx=true ∧ s.rx.point=.resetCounter) := by
  cases hm with
  | rx hr =>
    rcases rx_zeroing hr hz with hp | hz
    · exact .inr ⟨rfl,hp⟩
    · exact .inl hz
  | env he =>
    rw [(environment_frame he).rx] at hz
    exact .inl hz
  | _ => exact .inl hz

/-- A step after which the first message is owed zeroes the counter, or the
message was owed before. -/
theorem owes_step (hm : Moved s l s') (ho : owes s' (record h s l)=true) :
    owes s h=true ∨ (l.isRx=true ∧ s.rx.point=.resetCounter) := by
  simp only [owes,Bool.or_eq_true] at ho ⊢
  rcases ho with (hz | hsig) | hcl
  · rcases zeroing_step hm hz with hz | hz
    · exact .inl (.inl (.inl hz))
    · exact .inr hz
  · rcases signalled_record hsig with hsig | ⟨-,hp⟩
    · exact .inl (.inl (.inr hsig))
    · exact .inl (.inl (.inl (by rw [hp]; rfl)))
  · rcases cleared_record hcl with ⟨hsig,-⟩ | ⟨hcl,-⟩
    · exact .inl (.inl (.inr hsig))
    · exact .inl (.inr hcl)

/-- The counter stays at zero while Protocol TX uses up no MessageID. -/
theorem counter_kept (hm : Moved s l s') (hc : s.shared.txMessageidcounter=0)
    (hu : l.isTx=true → usesId s.tx=false) : s'.shared.txMessageidcounter=0 := by
  cases hm with
  | pe hl he hp => exact (policyEngine_move hp).frame.txMessageidcounter.trans hc
  | rx hr =>
    have hkept := rx_counter hr
    rw [hc,ite_self] at hkept
    exact hkept
  | tx ht =>
    have hkept := tx_counter ht
    rw [hu rfl,hc,if_neg Bool.false_ne_true,ite_self] at hkept
    exact hkept
  | hr hl hh =>
    rcases hr_counter hh with hz | hkept
    · exact hz
    · exact hkept.trans hc
  | intN hi => exact hi.frame.txMessageidcounter.trans hc
  | env he => exact (environment_frame he).txMessageidcounter.trans hc

/-- Only Protocol TX changes its locals. -/
theorem tx_other (hm : Moved s l s') (hl : l.isTx=false) : s'.tx=s.tx := by
  cases hm with
  | tx ht => exact absurd hl (by decide)
  | env he => exact (environment_frame he).tx
  | _ => rfl

end Step

/-! ## The first message -/

/-- What is known while the first message is owed. -/
structure Counted (s : System) (h : Watch) : Prop where
  /-- The counter is at zero. -/
  counter : owes s h=true → s.shared.txMessageidcounter=0
  /-- A message numbered since the messages in progress were given up carries
  zero. -/
  numbered : h.cleared=true → s.tx.point ∈ numberedPoints →
    ∃ m, s.tx.message=some m ∧ m.msg.messageidGet=0

/-- Protocol TX numbers a message, or keeps the one it has numbered. -/
theorem tx_numbered {tx : ProtocolTx} {pending : Event → Bool} {sh : Shared}
    {o : Outcome Event ProtocolTx Shared} (h : TxStep tx pending sh o)
    (hp' : o.loc.point ∈ numberedPoints) :
    (tx.point=.constructHeader ∧ ∃ m : MsgPtr, o.loc.message=some m ∧
      m.msg.messageidGet=sh.txMessageidcounter%8) ∨
    tx.point ∈ numberedPoints ∧ o.loc.message=tx.message := by
  cases h with
  | constructHeader hp hm => exact .inl ⟨hp,_,rfl,PdMsg.messageidGet_setMessageid _ _⟩
  | constructAms hp => exact .inr ⟨by rw [hp]; decide,rfl⟩
  | constructSinkTxOk hp =>
    refine .inr ⟨by rw [hp]; decide,?_⟩
    dsimp only
    split <;> rfl
  | fetch hp =>
    dsimp only at hp'
    split at hp' <;> exact absurd hp' (by decide)
  | matchCompare hp =>
    dsimp only at hp'
    split at hp' <;> simp [numberedPoints] at hp'
  | _ => simp [numberedPoints] at hp'

/-- A reset event is taken where no message is numbered. -/
theorem takesReset_point {s : System} (h : takesReset s=true) :
    s.tx.point ∉ ProtocolTxPoint.constructHeader::numberedPoints := by
  simp only [takesReset,Bool.and_eq_true,decide_eq_true_eq] at h
  rcases interruptMask_point h.2 with hp | hp | hp <;> rw [hp] <;> decide

/-- One step of the firmware keeps it. -/
theorem Counted.step {s s' : System} {h : Watch} {l : Label} (hi : Counted s h)
    (ha : l.isTx=true → owes s h=true → usesId s.tx=false) (hs : firmware.step l s=some s') :
    Counted s' (record h s l) := by
  have hmoved := firmware_moved hs
  refine ⟨fun ho => ?_,fun hc hq => ?_⟩
  · rcases owes_step hmoved ho with ho | ⟨hl,hp⟩
    · exact counter_kept hmoved (hi.counter ho) fun hl => ha hl ho
    · obtain ⟨o,hr,rfl⟩ := exists_rxStep hmoved hl
      exact (rx_counter hr).trans (if_pos hp)
  have hcase := cleared_record hc
  cases hl : l.isTx with
  | false =>
    have htx := tx_other hmoved hl
    rw [htx] at hq ⊢
    rcases hcase with ⟨-,ht,-⟩ | ⟨hcleared,-⟩
    · exact absurd (hl.symm.trans ht) (by decide)
    · exact hi.numbered hcleared hq
  | true =>
    obtain ⟨o,hstep,rfl⟩ := exists_txStep hmoved hl
    have hnumbers := tx_numbered hstep hq
    rcases hcase with ⟨-,-,ht⟩ | ⟨hcleared,-⟩
    · have hpoint := takesReset_point ht
      rcases hnumbers with ⟨hp,-⟩ | ⟨hp,-⟩
      · exact absurd (hp ▸ List.mem_cons_self) hpoint
      · exact absurd (List.mem_cons_of_mem _ hp) hpoint
    rcases hnumbers with ⟨hp,m,hm,hid⟩ | ⟨hp,hm⟩
    · have hzero := hi.counter (by simp [owes,hcleared])
      exact ⟨m,hm,by rw [hid,hzero]⟩
    · obtain ⟨m,hm',hid⟩ := hi.numbered hcleared hp
      exact ⟨m,hm.trans hm',hid⟩

/-- The block of the first message still holds it after a step. -/
theorem numbered_stored {p : Pooled × Watch} {s' : System} {l : Label} {m : MsgPtr}
    (hcoherent : Coherent p.1) (ha : keepsBlock p l) (hs : firmware.step l p.1.toSystem=some s')
    (hc : (record p.2 p.1.toSystem l).cleared=true) (hp : s'.tx.point ∈ numberedPoints)
    (hm : s'.tx.message=some m) : stored p.1.toSystem l s' p.1.contents m.block=m.msg := by
  have hmoved := firmware_moved hs
  cases hl : l.isTx with
  | true =>
    refine stored_tx hcoherent hs hl (fun hfetch => ?_) hm
    obtain ⟨o,hstep,rfl⟩ := exists_txStep hmoved hl
    rcases tx_numbered hstep hp with ⟨hpoint,-⟩ | ⟨hpoint,-⟩
    · rw [hfetch] at hpoint
      cases hpoint
    · rw [hfetch] at hpoint
      exact absurd hpoint (by decide)
  | false =>
    rw [tx_other hmoved hl] at hp hm
    have hcleared : p.2.cleared=true := by
      rcases cleared_record hc with ⟨-,ht,-⟩ | ⟨hcleared,-⟩
      · exact absurd (hl.symm.trans ht) (by decide)
      · exact hcleared
    rw [stored_of_not_writes hs (ha hcleared hp m hm)]
    exact hcoherent.tx hm

/-- In every run in which no MessageID is used up before it and nobody else
writes its block, the first message carries zero. -/
theorem first_id_zero {p : Pooled × Watch} (h : watched.Reach undisturbed p)
    (hc : p.2.cleared=true) (hp : p.1.tx.point=.constructSend) :
    (p.1.shared.deref p.1.tx.message).messageidGet=0 := by
  have hinv : Counted p.1.toSystem p.2 := by
    refine h.invariant (I := fun p => Counted p.1.toSystem p.2) ?_ ?_
    · exact ⟨fun ho => absurd ho (by decide),fun hc => absurd hc (by decide)⟩
    intro p l q hr hi ha hs
    obtain ⟨hstep,hrec⟩ := observe_step.mp hs
    obtain ⟨s',hfirmware,hq⟩ := sharing_step.mp hstep
    have hcounted := hi.step ha.1 hfirmware
    rw [hrec,hq]
    refine ⟨hcounted.counter,fun hcleared hpoint => ?_⟩
    obtain ⟨m,hm,hid⟩ := hcounted.numbered hcleared hpoint
    refine ⟨load (stored p.1.toSystem l s' p.1.contents) m,congrArg (Option.map _) hm,?_⟩
    have hcoherent := sharing_coherent hr.any.unobserved
    change (stored p.1.toSystem l s' p.1.contents m.block).messageidGet=0
    rw [numbered_stored hcoherent ha.2 hfirmware hcleared hpoint hm]
    exact hid
  obtain ⟨m,hm,hid⟩ := hinv.numbered hc (by rw [hp]; decide)
  rw [hm]
  exact hid

/-- A Soft_Reset in a contract is answered with MessageID zero. -/
theorem first_id_zero_accept : ∃ p, watched.Reach undisturbed p ∧ p.2.cleared=true ∧
    p.1.tx.point=.constructSend ∧ (p.1.shared.deref p.1.tx.message).messageidGet=0 := by
  obtain ⟨p,hr,ht⟩ := exists_reach_of_follow watched undisturbed
    (List.flatten [negotiate,[.env (.sourceMessage (controlMessage pdMsgtypeSoftReset 3)),.intN,
      .intN,.rx,.rx,.rx,.rx,.rx,.tx,.tx,.tx,.rx,.rx,.rx,.rx,.tx,.tx,.tx,.tx,.rx,.rx,.rx,.pe,.pe,
      .pe,.pe,.pe,.tx,.tx,.tx,.tx]])
    (fun p => decide (p.2.cleared=true ∧ p.1.tx.point=.constructSend)) (by decide +kernel)
  obtain ⟨hc,hp⟩ := of_decide_eq_true ht
  exact ⟨p,hr,hc,hp,first_id_zero hr hc hp⟩

/-- A Soft_Reset and the GoodCRC for the Request are reported together.
Protocol RX zeroes the counter while Protocol TX is about to read the
GoodCRC. The Request then counts as sent, and the Accept is numbered next. -/
def countedTrace : List Label :=
  List.flatten [request,send,[.env (.sourceMessage (controlMessage pdMsgtypeSoftReset 1)),
    .env (.goodcrc (controlMessage pdMsgtypeGoodcrc 0)),.intN,.intN,.rx,.intN,.tx,.rx,.rx,.rx,.rx,
    .tx,.tx,.tx,.tx,.tx,.tx,.tx,.rx,.rx,.rx,.rx,.tx,.tx,.tx,.tx,.rx,.rx,.rx,.intN,.intN,.pe,.pe,.pe,
    .pe,.pe,.pe,.pe,.tx,.tx,.tx,.tx]]

/-- The first message sent after the Soft_Reset then carries one. -/
theorem exists_first_id_one : ¬∀ p, watched.Reach anyStep p → p.2.cleared=true →
    p.1.tx.point=.constructSend → (p.1.shared.deref p.1.tx.message).messageidGet=0 := by
  intro h
  obtain ⟨p,hr,ht⟩ := exists_reach_of_follow watched anyStep countedTrace
    (fun p => decide (p.2.cleared=true ∧ p.1.tx.point=.constructSend ∧
      (p.1.shared.deref p.1.tx.message).messageidGet=1)) (by decide +kernel)
  obtain ⟨hc,hp,hone⟩ := of_decide_eq_true ht
  have hzero := h p hr hc hp
  omega

end UsbPdFirmware.CounterReset
