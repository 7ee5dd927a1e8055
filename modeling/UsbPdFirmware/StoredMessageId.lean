import UsbPdFirmware.SharedBlocks

/-!
# The first message after a reset of Protocol RX

The Hard Reset thread and Protocol TX reset Protocol RX by an event. Taking
it clears nothing, and the Hard Reset thread stores zero, a MessageID like
any other. So the first message after either reset passes for a duplicate
when it carries the MessageID that was left behind, or when Protocol TX sets
that MessageID through a pointer into the block of a message it no longer
has. Progress is watched beside the firmware over its shared blocks, for any
kind of reset.
-/

namespace UsbPdFirmware.StoredMessageId

open LabelledRuns Machine EventThreads FirmwareState FirmwareSystem
open PdMessage PolicyEngine PolicyEngineMoves ProtocolRx ProtocolTx HardReset
open BlockCustody BlockOwners SharedBlocks

/-! ## Watching a reset -/

/-- How far a reset of Protocol RX has come. -/
inductive Progress where
  /-- No reset is under way. -/
  | idle
  /-- Protocol RX was signalled. -/
  | signalled
  /-- Protocol RX has taken the event. -/
  | handled
  /-- Protocol RX works on the first message it has read since. -/
  | first
  deriving DecidableEq

/-- Protocol RX takes a reset event next. -/
def takesReset (s : System) : Bool :=
  s.pending .prlrxReset && decide (s.rx.point ∈ [.waitPhy,.resetPoll,.checkPoll])

/-- Protocol RX reads a packet next. -/
def readsPacket (s : System) : Bool :=
  decide (s.rx.point=.readPhy) && !s.shared.phy.rxFifo.isEmpty

/-- Protocol RX finishes with a message next. -/
def finishes (s : System) : Bool := decide (s.rx.point ∈ [.dropMessage,.storePost])

/-- Progress made by Protocol RX. An event taken while it works on the first
message gives that message up, and the next one is the first. -/
def rxProgress (h : Progress) (s : System) : Progress :=
  if takesReset s then (if h=.idle then .idle else .handled)
  else if finishes s then (if h=.first then .idle else h)
  else if readsPacket s then (if h=.handled then .first else h)
  else h

/-- Progress after a step, for the resets signalled by certain steps. -/
def record (resets : System → Label → Bool) (h : Progress) (s : Pooled) (l : Label) (_ : Pooled) :
    Progress :=
  if resets s.toSystem l then .signalled else if l.isRx then rxProgress h s.toSystem else h

/-- The firmware over its shared blocks, with the progress of a reset beside
it. -/
def watched (resets : System → Label → Bool) : Machine (Pooled × Progress) Label :=
  sharing.observe .idle (record resets)

/-- The points at which Protocol RX is bound to post the message it holds. -/
def deliveryPoints : List ProtocolRxPoint :=
  [.resetCounter,.resetStoredId,.resetSignalTx,.resetPoll,.checkPoll,.checkCompare,.storeSignalTx,
    .storeMessageid,.storePost]

/-- Protocol RX is bound to post the message it holds, and does not take it
for a duplicate. -/
def Delivers (s : System) : Prop :=
  s.rx.point ∈ deliveryPoints ∧ ∃ m ∈ s.rx.message,
    s.rx.point=.checkCompare → (m.msg.messageidGet : ℤ)≠s.shared.rxMessageid

instance (s : System) : Decidable (Delivers s) := by
  unfold Delivers
  cases s.rx.message with
  | none => exact .isFalse (by simp)
  | some m => exact decidable_of_iff (s.rx.point ∈ deliveryPoints ∧
      (s.rx.point=.checkCompare → (m.msg.messageidGet : ℤ)≠s.shared.rxMessageid)) (by simp)

/-! ## The condition -/

/-- From these points on the stored MessageID decides about the message. -/
def comparisonPoints : List ProtocolRxPoint := [.resetSignalTx,.resetPoll,.checkPoll,.checkCompare]

/-- The Hard Reset thread overwrites the stored MessageID next. -/
def storesZero : HardResetPoint → Bool
  | .resetRxMessageid _ => true
  | _ => false

/-- A first message is read only if it is a Soft_Reset or carries another
MessageID than the stored one. -/
def readsFresh (p : Pooled × Progress) (l : Label) : Prop :=
  l.isRx=true → p.2=.handled → p.1.rx.point=.readPhy → ∀ q ∈ p.1.shared.phy.rxFifo.head?,
    q.msg.isControl pdMsgtypeSoftReset=true ∨ (q.msg.messageidGet : ℤ)≠p.1.shared.rxMessageid

/-- The Hard Reset thread does not store the MessageID of a first message
that is yet to be compared. -/
def staysFresh (p : Pooled × Progress) (l : Label) : Prop :=
  l.isHr=true → storesZero p.1.hr.point=true → p.2=.first → p.1.rx.point ∈ comparisonPoints →
    ∀ m ∈ p.1.rx.message, m.msg.messageidGet≠0

/-- Nor does Protocol TX set the stored MessageID in the block of such a
message. -/
def stampsFresh (p : Pooled × Progress) (l : Label) : Prop :=
  l.isTx=true → p.1.tx.point=.constructHeader → p.2=.first → p.1.rx.point ∈ comparisonPoints →
    ∀ m ∈ p.1.rx.message, ∀ t ∈ p.1.tx.message, t.block=m.block →
      (p.1.shared.txMessageidcounter : ℤ)%8≠p.1.shared.rxMessageid

/-- All three. -/
def freshId (p : Pooled × Progress) (l : Label) : Prop :=
  readsFresh p l ∧ staysFresh p l ∧ stampsFresh p l

instance (p : Pooled × Progress) (l : Label) : Decidable (freshId p l) :=
  have : Decidable (readsFresh p l) := by unfold readsFresh; infer_instance
  have : Decidable (staysFresh p l) := by unfold staysFresh; infer_instance
  have : Decidable (stampsFresh p l) := by unfold stampsFresh; infer_instance
  inferInstanceAs (Decidable (_ ∧ _ ∧ _))

/-! ## The first message is delivered -/

/-- What is known of the first message. -/
structure First (s : System) : Prop where
  /-- Protocol RX is bound to post it. -/
  point : s.rx.point ∈ deliveryPoints
  /-- Where it matters, it does not carry the stored MessageID. -/
  message : ∃ m, s.rx.message=some m ∧
    (s.rx.point ∈ comparisonPoints → (m.msg.messageidGet : ℤ)≠s.shared.rxMessageid)

theorem First.delivers {s : System} (hi : First s) : Delivers s := by
  obtain ⟨m,hm,hid⟩ := hi.message
  refine ⟨hi.point,m,hm,fun hp => hid ?_⟩
  rw [hp]
  decide

/-- The same, at a known point. -/
theorem first_at {s : System} {m : MsgPtr} (point : ProtocolRxPoint) (hp : s.rx.point=point)
    (hd : point ∈ deliveryPoints) (hm : s.rx.message=some m)
    (hid : point ∈ comparisonPoints → (m.msg.messageidGet : ℤ)≠s.shared.rxMessageid) : First s := by
  subst hp
  exact ⟨hd,m,hm,hid⟩

/-- A step of another thread that leaves the stored MessageID alone. -/
theorem First.frame {s s' : System} (hi : First s) (hrx : s'.rx=s.rx)
    (hid : s'.shared.rxMessageid=s.shared.rxMessageid) : First s' := by
  obtain ⟨hp,hm⟩ := hi
  refine ⟨?_,?_⟩
  · rw [hrx]
    exact hp
  · rw [hrx,hid]
    exact hm

/-- Protocol RX goes on with the first message, unless it takes a reset or
finishes. -/
theorem First.rx {s : System} {o : Outcome Event ProtocolRx Shared} (hi : First s)
    (h : RxStep s.rx s.pending s.shared o) (hr : takesReset s=false) (hf : finishes s=false) :
    First (s.withRx o) := by
  obtain ⟨hpt,m,hm,hid⟩ := hi
  cases h with
  | resetCounter hp => exact first_at .resetStoredId rfl (by decide) hm fun hc => absurd hc (by decide)
  | resetStoredId hp =>
    refine first_at .resetSignalTx rfl (by decide) hm fun _ => ?_
    have hpos : (0 : ℤ) ≤ m.msg.messageidGet := Int.natCast_nonneg _
    change (m.msg.messageidGet : ℤ)≠-1
    omega
  | resetSignalTx hp =>
    exact first_at .resetPoll rfl (by decide) hm fun _ => hid (by rw [hp]; decide)
  | pollOn hp hr' =>
    rcases hp with hp | hp
    · rw [if_pos hp]
      exact first_at .checkPoll rfl (by decide) hm fun _ => hid (by rw [hp]; decide)
    · rw [if_neg (by rw [hp]; decide)]
      exact first_at .checkCompare rfl (by decide) hm fun _ => hid (by rw [hp]; decide)
  | pollReset hp hr' =>
    have htake : takesReset s=true := by
      rcases hp with hp | hp <;> simp [takesReset,hr',hp]
    rw [hr] at htake
    exact absurd htake Bool.false_ne_true
  | duplicate hp hdup =>
    have hne := hid (by rw [hp]; decide)
    rw [hm] at hdup
    exact absurd hdup hne
  | accept hp hdup => exact first_at .storeSignalTx rfl (by decide) hm fun hc => absurd hc (by decide)
  | storeSignalTx hp =>
    exact first_at .storeMessageid rfl (by decide) hm fun hc => absurd hc (by decide)
  | storeMessageid hp => exact first_at .storePost rfl (by decide) hm fun hc => absurd hc (by decide)
  | post hp hm' =>
    rw [finishes,hp] at hf
    exact absurd hf (by decide)
  | drop hp =>
    rw [hp] at hpt
    exact absurd hpt (by decide)
  | _ hp =>
    rw [hp] at hpt
    exact absurd hpt (by decide)

/-- Protocol RX reads the first message. -/
theorem First.read {s : System} {o : Outcome Event ProtocolRx Shared} {q : Packet}
    (h : RxStep s.rx s.pending s.shared o) (hp : s.rx.point=.readPhy)
    (hq : s.shared.phy.rxFifo.head?=some q)
    (hfresh : q.msg.isControl pdMsgtypeSoftReset=true ∨
      (q.msg.messageidGet : ℤ)≠s.shared.rxMessageid) : First (s.withRx o) := by
  have hmsg : s.shared.fusbReadMessage.1=q.msg := by
    unfold Shared.fusbReadMessage
    cases hf : s.shared.phy.rxFifo with
    | nil => rw [hf] at hq; cases hq
    | cons p rest => rw [hf] at hq; cases hq; rfl
  have hid : s.shared.fusbReadMessage.2.rxMessageid=s.shared.rxMessageid := by
    rw [fusbReadMessage_eq]
  obtain ⟨block,pool,hb,rfl⟩ := h.of_readPhy hp
  rw [hmsg]
  cases hs : q.msg.isControl pdMsgtypeSoftReset with
  | true => exact first_at .resetCounter rfl (by decide) rfl fun hc => absurd hc (by decide)
  | false =>
    refine first_at .checkPoll rfl (by decide) rfl fun _ => ?_
    simp only [System.withRx,hid]
    exact hfresh.resolve_left (by rw [hs]; decide)

/-- Protocol RX works on a first message that it had before, or reads one. -/
theorem rxProgress_first {h : Progress} {s : System} (hf : rxProgress h s=.first) :
    h=.first ∧ takesReset s=false ∧ finishes s=false ∨ h=.handled ∧ readsPacket s=true := by
  unfold rxProgress at hf
  cases ht : takesReset s with
  | true =>
    rw [ht,if_pos rfl] at hf
    split_ifs at hf
  | false =>
    rw [ht,if_neg (by decide)] at hf
    cases hfin : finishes s with
    | true =>
      rw [hfin,if_pos rfl] at hf
      split_ifs at hf with hh
      exact absurd hf hh
    | false =>
      rw [hfin,if_neg (by decide)] at hf
      split_ifs at hf with hr hh
      · exact .inr ⟨hh,hr⟩
      · exact .inl ⟨hf,rfl,rfl⟩
      · exact .inl ⟨hf,rfl,rfl⟩

/-- Another thread leaves the stored MessageID alone, unless the Hard Reset
thread stores zero. -/
theorem other_stored {s s' : System} {l : Label} (h : Moved s l s') (hl : l.isRx=false) :
    s'.rx=s.rx ∧ (s'.shared.rxMessageid=s.shared.rxMessageid ∨
      l.isHr=true ∧ storesZero s.hr.point=true ∧ s'.shared.rxMessageid=0) := by
  cases h with
  | pe hl' he hp => exact ⟨rfl,.inl (policyEngine_move hp).frame.rxMessageid⟩
  | rx hr => exact absurd hl (by decide)
  | tx ht => exact ⟨rfl,.inl ht.frame.rxMessageid⟩
  | hr hl' hh =>
    refine ⟨rfl,?_⟩
    cases hh with
    | resetRxMessageid hp =>
      refine .inr ⟨by rcases hl' with rfl | rfl <;> rfl,?_,rfl⟩
      rw [hp]
      rfl
    | _ => exact .inl rfl
  | intN hi => exact ⟨rfl,.inl hi.frame.rxMessageid⟩
  | env he => exact ⟨(environment_frame he).rx,.inl (environment_frame he).rxMessageid⟩

/-- One step of the firmware keeps what is known of the first message. -/
theorem First.step {resets : System → Label → Bool} {p : Pooled × Progress} {s' : System}
    {t : Pooled} {l : Label} (hi : p.2=.first → First p.1.toSystem) (ha : freshId p l)
    (hs : firmware.step l p.1.toSystem=some s') (hq : record resets p.2 p.1 l t=.first) :
    First s' := by
  have hmoved := firmware_moved hs
  unfold record at hq
  split_ifs at hq with hres hrx
  · obtain ⟨o,hstep,rfl⟩ := exists_rxStep hmoved hrx
    rcases rxProgress_first hq with ⟨hf,htake,hfin⟩ | ⟨hh,hread⟩
    · exact (hi hf).rx hstep htake hfin
    · rw [readsPacket,Bool.and_eq_true,decide_eq_true_eq] at hread
      cases hfifo : p.1.shared.phy.rxFifo with
      | nil =>
        rw [hfifo] at hread
        exact absurd hread.2 (by decide)
      | cons packet rest =>
        have hhead : p.1.shared.phy.rxFifo.head?=some packet := by rw [hfifo]; rfl
        exact First.read hstep hread.1 hhead (ha.1 hrx hh hread.1 packet hhead)
  · obtain ⟨hrx',hid⟩ := other_stored hmoved (Bool.eq_false_of_not_eq_true hrx)
    have hfirst := hi hq
    rcases hid with hid | ⟨hl,hz,hid⟩
    · exact hfirst.frame hrx' hid
    · obtain ⟨hpt,m,hm,hne⟩ := hfirst
      refine ⟨by rw [hrx']; exact hpt,m,by rw [hrx']; exact hm,fun hc => ?_⟩
      rw [hrx'] at hc
      rw [hid]
      exact_mod_cast ha.2.1 hl hz hq hc m hm

/-- What is known of the first message holds of the contents of its block. -/
theorem First.of_contents {s : System} {contents : ℕ → PdMsg} (hi : First s)
    (hm : ∀ m, s.rx.message=some m → s.rx.point ∈ comparisonPoints →
      contents m.block=m.msg ∨ ((contents m.block).messageidGet : ℤ)≠s.shared.rxMessageid) :
    First (loaded contents s).toSystem := by
  obtain ⟨hpt,m,hmessage,hid⟩ := hi
  refine ⟨hpt,load contents m,congrArg (Option.map (load contents)) hmessage,fun hc => ?_⟩
  change ((contents m.block).messageidGet : ℤ)≠s.shared.rxMessageid
  rcases hm m hmessage hc with heq | hne
  · rw [heq]
    exact hid hc
  · exact hne

/-- From a read to the post the first message is Protocol RX's. -/
theorem First.holding {s : System} (hi : First s) : s.rx.point ∈ rxHolding := by
  have hsubset : deliveryPoints ⊆ rxHolding := by decide
  exact hsubset hi.point

/-- Nobody sets the stored MessageID in the block of the first message. -/
theorem First.pooled {resets : System → Label → Bool} {p : Pooled × Progress} {s' : System}
    {l : Label} {t : Pooled} (hcoherent : Coherent p.1) (hc : Conserved s') (ha : freshId p l)
    (hs : firmware.step l p.1.toSystem=some s') (hq : record resets p.2 p.1 l t=.first)
    (hi : First s') : First (loaded (stored p.1.toSystem l s' p.1.contents) s').toSystem := by
  refine hi.of_contents fun m hm hpoint => ?_
  have hhand : rxHand s'.rx=some m := by
    unfold rxHand
    rw [if_pos hi.holding]
    exact hm
  rcases stored_rx hcoherent hc hs hhand with heq | ⟨hl,hp,w,hw,hb⟩
  · exact .inl heq
  refine .inr ?_
  have hmoved := firmware_moved hs
  have hfetch : p.1.tx.point≠.fetchMessage := by rw [hp]; decide
  rw [← hb,stored_tx hcoherent hs hl hfetch hw]
  obtain ⟨o,hstep,rfl⟩ := exists_txStep hmoved hl
  obtain ⟨hid,m₀,hm₀,hblock⟩ := txStep_stamped hstep hp hw
  have hfirst : p.2=.first := by
    have hrx : l.isRx=false := by cases l <;> first | rfl | cases hl
    unfold record at hq
    rw [hrx,if_neg Bool.false_ne_true] at hq
    split_ifs at hq
    exact hq
  have hne := ha.2.2 hl hp hfirst hpoint m hm m₀ hm₀ (hblock.trans hb)
  rw [hid,show (p.1.toSystem.withTx o).shared.rxMessageid=p.1.shared.rxMessageid from
    hstep.frame.rxMessageid]
  exact_mod_cast hne

/-- In every run that reads fresh first messages, whatever signals the reset,
the first message is delivered. -/
theorem first_delivered {resets : System → Label → Bool} {p : Pooled × Progress}
    (h : (watched resets).Reach freshId p) (hp : p.2=.first) : Delivers p.1.toSystem := by
  have hinv : p.2=.first → First p.1.toSystem := by
    refine h.invariant (I := fun p => p.2=.first → First p.1.toSystem) (fun hf => by cases hf) ?_
    intro p l q hr hi ha hs hq
    obtain ⟨hstep,hrec⟩ := observe_step.mp hs
    obtain ⟨s',hfirmware,hq1⟩ := sharing_step.mp hstep
    rw [hrec] at hq
    have hreach := hr.any.unobserved
    have hc := (sharing_conserved hreach).step (firmware_receives hfirmware)
    rw [hq1]
    exact (First.step hi ha hfirmware hq).pooled (sharing_coherent hreach) hc ha hfirmware hq
  exact (hinv hp).delivers

/-! ## After a hard reset -/

/-- The Hard Reset thread is about to reset Protocol RX. -/
def resetsRx : HardResetPoint → Bool
  | .resetSignalRx _ => true
  | _ => false

/-- The steps by which the Hard Reset thread resets Protocol RX. -/
def hardResets (s : System) (l : Label) : Bool := l.isHr && resetsRx s.hr.point

/-- The source sends a hard reset, and every thread recovers from it. -/
def recovery : List Label :=
  List.flatten [powerUp,[.env .hardrst,.intN,.intN,.intN,.intN,.intN,.hr,.hr,.hr,.hr,.rx,.hr,.tx,
    .tx,.tx,.hr,.pe,.pe,.pe,.pe,.pe,.hr,.hr]]

/-- Capabilities arrive, and Protocol RX reads them. -/
def arrive (m : PdMsg) : List Label := [.env (.sourceMessage m),.intN,.intN,.rx,.rx,.rx]

/-- The steps by which Protocol TX resets Protocol RX. -/
def softResets (s : System) (l : Label) : Bool := l.isTx && decide (s.tx.point=.resetSignalRx)

/-- The source sends its capabilities with MessageID seven and answers the
Request with a Ping, and so we send a Soft_Reset. -/
def softResetSent : List Label :=
  List.flatten [powerUp,deliver (sourceCapabilities 7),[.pe,.pe,.pe,.pe,.pe,.pe],send,acknowledge 0,
    [.pe,.pe],deliver (controlMessage pdMsgtypePing 0),[.pe,.pe,.pe,.pe,.pe,.tx,.tx,.tx,.tx,.rx,.tx,
    .tx,.tx],acknowledge 0,[.pe,.pe]]

end UsbPdFirmware.StoredMessageId
