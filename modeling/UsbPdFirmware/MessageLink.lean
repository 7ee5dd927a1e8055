import UsbPdFirmware.HeaderTemplate
import UsbPdFirmware.ReceiveFilter
import UsbPdFirmware.SequenceNumbers
import UsbPdFirmware.TransmitNumbers

/-!
# Messages over a lossy link

What one device's Protocol TX hands to its PHY arrives at another device's
PHY any number of times or not at all, and is read there by Protocol RX. With
numbers modulo eight on one side and the stored MessageID on the other, what
is posted are the messages that were sent, in order and never twice.
-/

namespace UsbPdFirmware.MessageLink

open LabelledRuns Machine EventThreads FirmwareState FirmwareSystem
open PdMessage ProtocolRx ProtocolTx TransmitNumbers ReceiveFilter SequenceNumbers

/-! ## What is handed to the PHY -/

/-- The k-th message fetched was handed to the PHY as this one. -/
def Handed (jobs : List Job) (k : ℕ) (m : PdMsg) : Prop :=
  ∃ job, jobs.reverse[k]?=some job ∧ m ∈ job.sent

/-- What was handed to the PHY last. -/
def lastHanded : List Job → Option PdMsg
  | [] => none
  | job::rest => job.sent.getLast?.or (lastHanded rest)

section Sender

variable {s s' : System} {who : Sender} {job : Job} {jobs : List Job} {k : ℕ} {m : PdMsg}
  {p : System × List Job} {fetched : MsgPtr}

/-- It belongs to the newest job or to one before. -/
theorem handed_cons : Handed (job::jobs) k m ↔ Handed jobs k m ∨ k=jobs.length ∧ m ∈ job.sent := by
  constructor
  · rintro ⟨other,hk,hm⟩
    rcases getElem?_reverse_cons hk with hk | ⟨rfl,rfl⟩
    · exact .inl ⟨other,hk,hm⟩
    · exact .inr ⟨rfl,hm⟩
  · rintro (⟨other,hk,hm⟩ | ⟨rfl,hm⟩)
    · refine ⟨other,?_,hm⟩
      rw [List.reverse_cons,List.getElem?_append_left (List.getElem?_eq_some_iff.mp hk).1]
      exact hk
    · refine ⟨job,?_,hm⟩
      rw [List.reverse_cons,List.getElem?_append_right (Nat.le_of_eq List.length_reverse),
        List.length_reverse,Nat.sub_self]
      rfl

/-- Only so many jobs were begun. -/
theorem Handed.lt (h : Handed jobs k m) : k < jobs.length := by
  obtain ⟨other,hk,-⟩ := h
  rw [← List.length_reverse]
  exact (List.getElem?_eq_some_iff.mp hk).1

/-- What was handed to the PHY stays in the log. -/
theorem Handed.mono (h : Handed jobs k m) : Handed (recordJob jobs s who s') k m := by
  cases who with
  | others t => exact h
  | tx =>
    by_cases hp : s.tx.point=.fetchMessage
    · unfold recordJob
      dsimp only
      rw [if_pos hp]
      cases s.shared.txMailbox.head? with
      | none => exact h
      | some fetched => exact handed_cons.mpr (.inl h)
    · cases jobs with
      | nil => exact absurd h.lt (Nat.not_lt_zero k)
      | cons job rest =>
        rw [recordJob_extend hp]
        rcases handed_cons.mp h with hrest | ⟨rfl,hm⟩
        · exact handed_cons.mpr (.inl hrest)
        · exact handed_cons.mpr (.inr ⟨rfl,List.mem_append_left _ hm⟩)

/-- The last belongs to the newest job for which anything was handed over. -/
theorem handed_last (h : lastHanded jobs=some m) :
    ∃ k, Handed jobs k m ∧ ∀ k' m', Handed jobs k' m' → k' ≤ k := by
  induction jobs with
  | nil => cases h
  | cons job rest ih =>
    unfold lastHanded at h
    cases hlast : job.sent.getLast? with
    | none =>
      rw [hlast,Option.none_or] at h
      obtain ⟨k,hk,hmost⟩ := ih h
      refine ⟨k,handed_cons.mpr (.inl hk),fun k' m' hk' => ?_⟩
      rcases handed_cons.mp hk' with hk' | ⟨-,hm'⟩
      · exact hmost k' m' hk'
      · rw [List.getLast?_eq_none_iff.mp hlast] at hm'
        exact absurd hm' List.not_mem_nil
    | some last =>
      rw [hlast,Option.some_or] at h
      cases h
      refine ⟨rest.length,handed_cons.mpr (.inr ⟨rfl,List.mem_of_getLast? hlast⟩),fun k' m' hk' => ?_⟩
      exact Nat.le_of_lt_succ hk'.lt

/-- Every job carries its number. -/
theorem kept_of_sending (h : numbered.Reach plainly p) (hk : p.2.reverse[k]?=some job) : Kept k job := by
  obtain ⟨-,hsending⟩ := sending_of_reach h
  rcases hsending.past with hpast | ⟨-,newest,rest,hjobs,hpast,hkept⟩
  · exact (hpast.concluded hk).kept
  · rw [hjobs] at hk
    rcases getElem?_reverse_cons hk with hk | ⟨rfl,rfl⟩
    · exact (hpast.concluded hk).kept
    · exact hkept

/-- What kind of control message it is does not depend on the MessageID. -/
theorem numbered_isControl {fetched sent : PdMsg} (h : Numbered k fetched sent) (msgtype : BitVec 16) :
    sent.isControl msgtype=fetched.isControl msgtype := by
  have hpart {field : BitVec 16} (hfield : ~~~pdHdrMessageid &&& field=field) :
      sent.hdr &&& field=fetched.hdr &&& field := BitFields.and_of_mask h.header hfield
  have htype : sent.msgtypeGet=fetched.msgtypeGet := hpart (by decide)
  have hobjects : sent.numobjGet=fetched.numobjGet :=
    BitFields.fieldGet_congr (hpart (by decide)) pdHdrNumobjShift
  unfold PdMsg.isControl
  rw [htype,hobjects]

/-- Jobs that are extended keep the messages that were fetched. -/
theorem recordJob_message (hp : s.tx.point≠.fetchMessage) (hmem : job ∈ recordJob jobs s .tx s') :
    ∃ before ∈ jobs, job.message=before.message := by
  cases jobs with
  | nil =>
    rw [recordJob,if_neg hp] at hmem
    exact absurd hmem List.not_mem_nil
  | cons newest rest =>
    rw [recordJob_extend hp] at hmem
    rcases List.mem_cons.mp hmem with rfl | hmem
    · exact ⟨newest,List.mem_cons_self,rfl⟩
    · exact ⟨job,List.mem_cons_of_mem _ hmem,rfl⟩

/-- Where a fetch leads. -/
theorem fetched_point {o : Outcome Event ProtocolTx Shared} (h : TxStep s.tx s.pending s.shared o)
    (hp : s.tx.point=.fetchMessage) (hm : s.shared.txMailbox.head?=some fetched) :
    o.loc.point=if fetched.msg.isControl pdMsgtypeSoftReset then .resetCounter else .constructPoll := by
  cases h with
  | fetch hp' =>
    rw [hm]
    rfl
  | report hr => rcases reportedBy_cases hr with ⟨hp',-,-⟩ | ⟨hp',-⟩ | ⟨hp',-⟩ <;>
      exact absurd (hp.symm.trans hp') (by decide)
  | heedReset hp' hr =>
    rw [hp] at hp'
    exact absurd hp' (by decide)
  | heedDiscard hp' hr hd =>
    rw [hp] at hp'
    exact absurd hp' (by decide)
  | matchCompare hp' => exact absurd (hp.symm.trans hp') (by simp)
  | _ hp' => exact absurd (hp.symm.trans hp') (by decide)

/-- No Soft_Reset was handed to the PHY, and unless one is about to reset the
counter none was fetched. -/
def Ordinary (s : System) (jobs : List Job) : Prop :=
  (∀ job ∈ jobs, ∀ m ∈ job.sent, m.isControl pdMsgtypeSoftReset=false) ∧
    (s.tx.point≠.resetCounter → ∀ job ∈ jobs, job.message.isControl pdMsgtypeSoftReset=false)

/-- While the counter is not reset no Soft_Reset is handed to the PHY. -/
theorem ordinary_of_reach (h : numbered.Reach plainly p) : Ordinary p.1 p.2 := by
  refine h.observed_invariant ⟨fun _ hjob => absurd hjob List.not_mem_nil,
    fun _ _ hjob => absurd hjob List.not_mem_nil⟩ ?_
  intro s jobs who s' hreach ⟨hsent,hfetched⟩ ha hs
  cases who with
  | others t =>
    cases hs
    exact ⟨hsent,hfetched⟩
  | tx =>
    have hnext : numbered.Reach plainly (s',recordJob jobs s .tx s') :=
      .step hreach ha (observe_step.mpr ⟨hs,rfl⟩)
    obtain ⟨o,ho,rfl⟩ := Option.map_eq_some_iff.mp hs
    by_cases hp : s.tx.point=.fetchMessage
    · cases hm : s.shared.txMailbox.head? with
      | none =>
        have hsame : recordJob jobs s .tx (s.withTx o)=jobs := by
          unfold recordJob
          dsimp only
          rw [if_pos hp,hm]
        rw [hsame]
        exact ⟨hsent,fun _ => hfetched ha.1⟩
      | some fetched =>
        have hbegin : recordJob jobs s .tx (s.withTx o)=⟨fetched.msg,[],[],[]⟩::jobs := by
          unfold recordJob
          dsimp only
          rw [if_pos hp,hm]
        rw [hbegin]
        refine ⟨List.forall_mem_cons.mpr ⟨fun _ hm => absurd hm List.not_mem_nil,hsent⟩,fun hne => ?_⟩
        refine List.forall_mem_cons.mpr ⟨?_,hfetched ha.1⟩
        have hpoint := fetched_point (protocolTx_step ho) hp hm
        cases hsoft : fetched.msg.isControl pdMsgtypeSoftReset with
        | false => rfl
        | true =>
          rw [hsoft] at hpoint
          exact absurd hpoint hne
    · have hmessage : ∀ job ∈ recordJob jobs s .tx (s.withTx o),
          job.message.isControl pdMsgtypeSoftReset=false := by
        intro job hjob
        obtain ⟨before,hbefore,heq⟩ := recordJob_message hp hjob
        rw [heq]
        exact hfetched ha.1 before hbefore
      refine ⟨fun job hjob m hm => ?_,fun _ => hmessage⟩
      obtain ⟨k,hk⟩ := List.getElem?_of_mem (List.mem_reverse.mpr hjob)
      rw [numbered_isControl ((kept_of_sending hnext hk).sent m hm)]
      exact hmessage job hjob

end Sender

/-! ## The link -/

/-- Two devices, each with its log. -/
structure Link where
  /-- The one that sends. -/
  sender : System × List Job
  /-- The one that receives. -/
  receiver : System × List Handling

/-- What happens next. -/
inductive LinkStep where
  /-- The sender's Protocol TX acts, or anything else there. -/
  | sender (who : Sender)
  /-- A thread of the receiver acts, or its environment. -/
  | receiver (l : Label)
  /-- What the sender handed to its PHY last arrives at the receiver's. -/
  | arrive

/-- The receiver after its step. -/
def Link.withReceiver (p : Link) (q : System × List Handling) : Link := {p with receiver := q}

/-- Two devices over a link that loses and repeats messages. -/
def link : Machine Link LinkStep where
  start := ⟨numbered.start,received.start⟩
  step l p := match l with
    | .sender who => (numbered.step who p.sender).map fun q => {p with sender := q}
    | .receiver l => (received.step l p.receiver).map p.withReceiver
    | .arrive => (lastHanded p.sender.2).bind fun m =>
      (received.step (.env (.sourceMessage m)) p.receiver).map p.withReceiver

/-- A message arrives from nowhere. -/
def isForged : Label → Bool
  | .env (.sourceMessage _) => true
  | _ => false

/-- Neither device resets its protocol layer, only the sender's messages
arrive, and Protocol RX is not handed a GoodCRC. -/
def oneWay (p : Link) : LinkStep → Prop
  | .sender who => plainly p.sender who
  | .receiver l => unreset p.receiver l ∧ isForged l=false ∧
      (l.isRx=true → p.receiver.1.rx.point=.readPhy →
        ∀ packet ∈ p.receiver.1.shared.phy.rxFifo.head?, packet.origin=.source)
  | .arrive => True

instance (p : System × List Job) (who : Sender) : Decidable (plainly p who) :=
  match who with
  | .tx => inferInstanceAs (Decidable (_ ∧ _))
  | .others _ => isTrue trivial

instance (p : Link) (l : LinkStep) : Decidable (oneWay p l) :=
  match l with
  | .sender who => inferInstanceAs (Decidable (plainly p.sender who))
  | .receiver _ => inferInstanceAs (Decidable (_ ∧ _ ∧ _))
  | .arrive => isTrue trivial

/-- Each device runs as if alone. -/
theorem apart_of_reach {p : Link} (h : link.Reach oneWay p) :
    numbered.Reach plainly p.sender ∧ received.Reach unreset p.receiver := by
  refine h.invariant (I := fun p => numbered.Reach plainly p.sender ∧ received.Reach unreset p.receiver)
    ⟨.start,.start⟩ ?_
  rintro p l p' - ⟨hsender,hreceiver⟩ ha hs
  cases l with
  | sender who =>
    obtain ⟨q,hq,rfl⟩ := Option.map_eq_some_iff.mp hs
    exact ⟨.step hsender ha hq,hreceiver⟩
  | receiver l =>
    obtain ⟨q,hq,rfl⟩ := Option.map_eq_some_iff.mp hs
    exact ⟨hsender,.step hreceiver ha.1 hq⟩
  | arrive =>
    obtain ⟨m,-,hs⟩ := Option.bind_eq_some_iff.mp hs
    obtain ⟨q,hq,rfl⟩ := Option.map_eq_some_iff.mp hs
    have hallowed : unreset p.receiver (.env (.sourceMessage m)) := ⟨rfl,nofun,nofun⟩
    exact ⟨hsender,.step hreceiver hallowed hq⟩

/-! ## What the receiver has of it -/

/-- The messages in a FIFO that are no GoodCRC. -/
def messages (fifo : List Packet) : List PdMsg :=
  (fifo.filter fun packet => decide (packet.origin=.source)).map Packet.msg

/-- The messages that were read, and then those that wait in the FIFO. -/
def arrived (q : System × List Handling) : List PdMsg := reads q.2++messages q.1.shared.phy.rxFifo

section Receiver

variable {s s' : System} {l : Label} {log : List Handling} {q q' : System × List Handling}

/-- Packets that are lost take no others along. -/
theorem messages_sublist {fifo fifo' : List Packet} (h : fifo'.Sublist fifo) :
    (messages fifo').Sublist (messages fifo) := (h.filter _).map _

/-- A GoodCRC is no message. -/
theorem messages_goodcrc (fifo : List Packet) (m : PdMsg) : messages (fifo++[⟨.goodcrc,m⟩])=messages fifo := by
  unfold messages
  rw [List.filter_append]
  exact congrArg (List.map Packet.msg) (List.append_nil _)

/-- A message at the end. -/
theorem messages_source (fifo : List Packet) (m : PdMsg) :
    messages (fifo++[⟨.source,m⟩])=messages fifo++[m] := by
  unfold messages
  rw [List.filter_append,List.map_append]
  rfl

/-- Only a read adds to what was read. -/
theorem reads_kept (h : l.isRx=true → s.rx.point≠.readPhy) : reads (recordHandling log s l s')=reads log := by
  cases hl : l.isRx with
  | false => exact congrArg reads (if_neg (by rw [hl]; decide))
  | true =>
    have hlabel : l=.rx := by cases l <;> first | rfl | cases hl
    rw [hlabel,recordHandling_rx (h hl)]
    cases log <;> rfl

/-- Protocol RX takes packets where it reads only. -/
theorem rxStep_phy {o : Outcome Event ProtocolRx Shared} (h : RxStep s.rx s.pending s.shared o)
    (hp : s.rx.point≠.readPhy) : o.shared.phy=s.shared.phy := by
  cases h with
  | read hp' => exact absurd hp' hp
  | drop hp' => rw [free?_eq]
  | _ => rfl

/-- Protocol TX takes packets, and adds none. -/
theorem txStep_rxFifo {o : Outcome Event ProtocolTx Shared} (h : TxStep s.tx s.pending s.shared o) :
    o.shared.phy.rxFifo.Sublist s.shared.phy.rxFifo := by
  cases h with
  | phyReset hp => exact List.nil_sublist _
  | matchRead hp =>
    unfold Shared.fusbReadMessage
    cases hfifo : s.shared.phy.rxFifo with
    | nil =>
      rw [hfifo]
    | cons packet rest => exact List.sublist_cons_self packet rest
  | discard hp => cases s.tx.message <;> exact List.Sublist.refl _
  | _ => exact List.Sublist.refl _

/-- The environment adds packets. -/
theorem environment_messages {e : Environment} (h : environment e s=some s') (hl : isForged (.env e)=false) :
    messages s'.shared.phy.rxFifo=messages s.shared.phy.rxFifo := by
  cases e with
  | sourceMessage m => cases hl
  | goodcrc m =>
    cases h
    exact messages_goodcrc _ m
  | ppsTimer =>
    simp only [environment,Option.ite_none_right_eq_some,Option.some.injEq] at h
    obtain ⟨-,rfl⟩ := h
    rfl
  | _ =>
    cases h
    rfl

/-- A read moves the oldest message from the FIFO to the log. -/
theorem arrived_read {o : Outcome Event ProtocolRx Shared} (h : RxStep s.rx s.pending s.shared o)
    (hp : s.rx.point=.readPhy) (hread : s.shared.phy.rxFifo.isEmpty=false)
    (hsource : ∀ packet ∈ s.shared.phy.rxFifo.head?, packet.origin=.source) :
    arrived (s.withRx o,recordHandling log s .rx (s.withRx o))=arrived (s,log) := by
  obtain ⟨block,pool,-,rfl⟩ := h.of_readPhy hp
  obtain ⟨packet,rest,hfifo⟩ := List.exists_cons_of_ne_nil (List.isEmpty_eq_false_iff.mp hread)
  have horigin : packet.origin=.source := hsource packet (by rw [hfifo]; rfl)
  have hmsg : s.shared.fusbReadMessage.1=packet.msg := by
    unfold Shared.fusbReadMessage
    rw [hfifo]
  have hrest : s.shared.fusbReadMessage.2.phy.rxFifo=rest := by
    unfold Shared.fusbReadMessage
    rw [hfifo]
  have hmessages : messages (packet::rest)=packet.msg::messages rest := by
    unfold messages
    rw [List.filter_cons,if_pos (decide_eq_true horigin),List.map_cons]
  rw [recordHandling_read hp]
  unfold arrived
  change reads (⟨s.shared.fusbReadMessage.1,[],0⟩::log)++messages s.shared.fusbReadMessage.2.phy.rxFifo=
    reads log++messages s.shared.phy.rxFifo
  rw [hrest,hfifo,hmessages,hmsg]
  unfold reads
  rw [List.map_cons,List.reverse_cons,List.append_assoc]
  rfl

/-- Messages are lost, but none comes from nowhere. -/
theorem arrived_step (h : firmware.step l s=some s') (ha : unreset (s,log) l) (hl : isForged l=false)
    (hsource : l.isRx=true → s.rx.point=.readPhy →
      ∀ packet ∈ s.shared.phy.rxFifo.head?, packet.origin=.source) :
    (arrived (s',recordHandling log s l s')).Sublist (arrived (s,log)) := by
  -- Everything but a read keeps what was read.
  have hkept (hread : l.isRx=true → s.rx.point≠.readPhy)
      (hfifo : (messages s'.shared.phy.rxFifo).Sublist (messages s.shared.phy.rxFifo)) :
      (arrived (s',recordHandling log s l s')).Sublist (arrived (s,log)) := by
    unfold arrived
    rw [reads_kept hread]
    exact (List.Sublist.refl _).append hfifo
  cases firmware_moved h with
  | pe hl' he hp =>
    have hphy := (PolicyEngineMoves.policyEngine_move hp).frame.phy
    refine hkept (fun hrx => ?_) ?_
    · rcases Label.eq_of_isPe hl' with rfl | rfl <;> cases hrx
    · exact messages_sublist (by rw [System.withPe,hphy])
  | rx hx =>
    by_cases hp : s.rx.point=.readPhy
    · rw [arrived_read hx hp (ha.2.2 rfl hp) (hsource rfl hp)]
    · exact hkept (fun _ => hp) (messages_sublist (by rw [System.withRx,rxStep_phy hx hp]))
  | tx ht => exact hkept (fun hrx => by cases hrx) (messages_sublist (txStep_rxFifo ht))
  | hr hl' hh => rcases hl' with rfl | rfl <;> exact absurd ha.1 (by decide)
  | intN hi => exact hkept (fun hrx => by cases hrx) (messages_sublist (by cases hi <;> exact List.Sublist.refl _))
  | env he => exact hkept (fun hrx => by cases hrx) (by rw [environment_messages he hl])

/-- A message arrives. -/
theorem arrived_arrive {m : PdMsg} (h : firmware.step (.env (.sourceMessage m)) s=some s') :
    arrived (s',recordHandling log s (.env (.sourceMessage m)) s')=arrived (s,log)++[m] := by
  have hfifo : s'.shared.phy.rxFifo=s.shared.phy.rxFifo++[⟨.source,m⟩] := by
    cases h
    rfl
  have hreads : reads (recordHandling log s (.env (.sourceMessage m)) s')=reads log :=
    reads_kept fun hrx => absurd hrx Bool.false_ne_true
  unfold arrived
  rw [hreads,hfifo,messages_source,List.append_assoc]

end Receiver

/-! ## Over the link -/

/-- What the receiver has was handed to the sender's PHY, in this order. -/
structure Carried (p : Link) (carried : List (ℕ × PdMsg)) : Prop where
  /-- Nothing overtakes. -/
  ordered : (carried.map Prod.fst).Pairwise (· ≤ ·)
  /-- All of it was sent. -/
  handed : ∀ c ∈ carried, Handed p.sender.2 c.1 c.2
  /-- It is what arrived and was not lost. -/
  arrived : arrived p.receiver=carried.map Prod.snd

section Run

variable {p p' : Link} {carried : List (ℕ × PdMsg)}

/-- The sender goes on. -/
theorem Carried.sent {who : Sender} {q : System × List Job} (h : Carried p carried)
    (hs : numbered.step who p.sender=some q) : Carried {p with sender := q} carried := by
  obtain ⟨-,hrec⟩ := observe_step.mp hs
  refine ⟨h.ordered,fun c hc => ?_,h.arrived⟩
  change Handed q.2 c.1 c.2
  rw [hrec]
  exact (h.handed c hc).mono

/-- Messages are lost or read. -/
theorem Carried.lost {q : System × List Handling} (h : Carried p carried)
    (hq : (MessageLink.arrived q).Sublist (MessageLink.arrived p.receiver)) :
    ∃ rest, Carried (p.withReceiver q) rest := by
  rw [h.arrived] at hq
  obtain ⟨rest,hrest,heq⟩ := List.sublist_map_iff.mp hq
  exact ⟨rest,h.ordered.sublist (hrest.map _),fun c hc => h.handed c (hrest.subset hc),heq⟩

/-- The message handed to the PHY last arrives. -/
theorem Carried.arrive {q : System × List Handling} {m : PdMsg} (h : Carried p carried)
    (hm : lastHanded p.sender.2=some m)
    (hq : MessageLink.arrived q=MessageLink.arrived p.receiver++[m]) :
    ∃ k, Carried (p.withReceiver q) (carried++[(k,m)]) := by
  obtain ⟨k,hk,hmost⟩ := handed_last hm
  refine ⟨k,?_,fun c hc => ?_,?_⟩
  · rw [List.map_append,List.pairwise_append]
    refine ⟨h.ordered,List.pairwise_singleton _ _,fun i hi j hj => ?_⟩
    obtain ⟨c,hc,rfl⟩ := List.mem_map.mp hi
    rw [List.mem_singleton.mp hj]
    exact hmost c.1 c.2 (h.handed c hc)
  · rcases List.mem_append.mp hc with hc | hc
    · exact h.handed c hc
    · rw [List.mem_singleton.mp hc]
      exact hk
  · change MessageLink.arrived q=_
    rw [hq,h.arrived,List.map_append]
    rfl

/-- Whatever the link loses or repeats, the receiver has what was sent. -/
theorem carried_of_reach (h : link.Reach oneWay p) : ∃ carried, Carried p carried := by
  refine h.invariant (I := fun p => ∃ carried, Carried p carried) ?_ ?_
  · exact ⟨[],List.Pairwise.nil,fun _ hc => absurd hc List.not_mem_nil,rfl⟩
  · rintro p l p' - ⟨carried,hcarried⟩ ha hs
    cases l with
    | sender who =>
      obtain ⟨q,hq,rfl⟩ := Option.map_eq_some_iff.mp hs
      exact ⟨carried,hcarried.sent hq⟩
    | receiver l =>
      obtain ⟨q,hq,rfl⟩ := Option.map_eq_some_iff.mp hs
      obtain ⟨hstep,hrec⟩ := observe_step.mp hq
      have hq : q=(q.1,recordHandling p.receiver.2 p.receiver.1 l q.1) := Prod.ext rfl hrec
      rw [hq]
      exact hcarried.lost (arrived_step hstep ha.1 ha.2.1 ha.2.2)
    | arrive =>
      obtain ⟨m,hm,hs⟩ := Option.bind_eq_some_iff.mp hs
      obtain ⟨q,hq,rfl⟩ := Option.map_eq_some_iff.mp hs
      obtain ⟨hstep,hrec⟩ := observe_step.mp hq
      have hq : q=(q.1,recordHandling p.receiver.2 p.receiver.1 (.env (.sourceMessage m)) q.1) :=
        Prod.ext rfl hrec
      rw [hq]
      obtain ⟨k,hk⟩ := hcarried.arrive hm (arrived_arrive hstep)
      exact ⟨_,hk⟩

/-- Of numbered messages those are let through whose number is not that of the
message right before. -/
theorem unrepeated_numbered (items : List (ℕ × PdMsg)) (before : Option (ℕ × PdMsg))
    (hitems : ∀ c ∈ items, c.2.messageidGet=c.1%8 ∧ c.2.isControl pdMsgtypeSoftReset=false)
    (hbefore : ∀ c ∈ before, c.2.messageidGet=c.1%8) :
    unrepeated (before.map Prod.snd) (items.map Prod.snd)=(passed 8 Prod.fst before items).map Prod.snd := by
  induction items generalizing before with
  | nil => rfl
  | cons c rest ih =>
    obtain ⟨⟨hid,hsoft⟩,hrest⟩ := List.forall_mem_cons.mp hitems
    have hlater : unrepeated (some c.2) (rest.map Prod.snd)=(passed 8 Prod.fst (some c) rest).map Prod.snd := by
      refine ih (some c) hrest ?_
      rintro _ ⟨⟩
      exact hid
    have hrepeats : repeatsId (before.map Prod.snd) c.2=before.any fun b => b.1%8==c.1%8 := by
      unfold repeatsId
      rw [hsoft,hid]
      cases before with
      | none => rfl
      | some b =>
        change (b.2.messageidGet==c.1%8)=_
        rw [hbefore b rfl]
        rfl
    rw [List.map_cons]
    unfold unrepeated passed
    rw [hrepeats,hlater]
    split <;> rfl

/-- Over a link that loses and repeats messages, and whatever else the two
devices do, every message posted is one the sender fetched, with its MessageID
and unchanged otherwise. They are posted in the order in which they were
fetched and never twice. A message that was read is posted unless a multiple
of eight separates it from the last one read before it. -/
theorem delivered_once (h : link.Reach oneWay p) (hp : p.receiver.1.rx.point=.waitPhy) :
    ∃ read delivered : List (ℕ × PdMsg),
      reads p.receiver.2=read.map Prod.snd ∧ posted p.receiver.2=delivered.map Prod.snd ∧
        (∀ c ∈ read, ∃ job, p.sender.2.reverse[c.1]?=some job ∧ c.2 ∈ job.sent ∧
          Numbered c.1 job.message c.2) ∧
        delivered.Sublist read ∧ (delivered.map Prod.fst).Pairwise (· < ·) ∧
        ∀ k, k ∈ delivered.map Prod.fst ↔ k ∈ read.map Prod.fst ∧
          ∀ j, Latest (read.map Prod.fst) j k → j%8≠k%8 := by
  obtain ⟨hsender,hreceiver⟩ := apart_of_reach h
  obtain ⟨carried,hcarried⟩ := carried_of_reach h
  have harrived : (reads p.receiver.2).Sublist (carried.map Prod.snd) := by
    rw [← hcarried.arrived]
    exact List.sublist_append_left _ _
  obtain ⟨read,hread,hreads⟩ := List.sublist_map_iff.mp harrived
  have hordered : (read.map Prod.fst).Pairwise (· ≤ ·) := hcarried.ordered.sublist (hread.map _)
  have hjobs : ∀ c ∈ read, ∃ job, p.sender.2.reverse[c.1]?=some job ∧ c.2 ∈ job.sent ∧
      Numbered c.1 job.message c.2 := by
    intro c hc
    obtain ⟨job,hjob,hm⟩ := hcarried.handed c (hread.subset hc)
    exact ⟨job,hjob,hm,(kept_of_sending hsender hjob).sent c.2 hm⟩
  have hnumbered : ∀ c ∈ read, c.2.messageidGet=c.1%8 ∧ c.2.isControl pdMsgtypeSoftReset=false := by
    intro c hc
    obtain ⟨job,hjob,hm,hnum⟩ := hjobs c hc
    have hmem : job ∈ p.sender.2 := List.mem_reverse.mp (List.mem_of_getElem? hjob)
    exact ⟨hnum.messageid,(ordinary_of_reach hsender).1 job hmem c.2 hm⟩
  have hposted : posted p.receiver.2=(passed 8 Prod.fst none read).map Prod.snd := by
    obtain ⟨-,hwork⟩ := working_of_reach hreceiver
    unfold Working at hwork
    rw [hp] at hwork
    obtain ⟨before,-,hlog⟩ := hwork
    have hmessages : reads p.receiver.2=before.reverse := by rw [hlog,reads,handlings_messages]
    rw [hlog,posted_handlings,← hmessages,hreads]
    exact unrepeated_numbered read none hnumbered fun _ hc => absurd hc (Option.not_mem_none _)
  have hfirst : ∀ b ∈ (none : Option (ℕ × PdMsg)), ∀ c ∈ read, b.1 ≤ c.1 :=
    fun b hb => absurd hb (Option.not_mem_none b)
  refine ⟨read,passed 8 Prod.fst none read,hreads,hposted,hjobs,passed_sublist _ _ _ _,
    (passed_increasing hordered hfirst).1,fun k => ?_⟩
  rw [mem_passed hordered hfirst]
  exact and_congr_right fun _ => and_iff_right (Option.some_ne_none k).symm

end Run

/-- The sender's Policy Engine posts a message and rings for Protocol TX. -/
def posting (m : PdMsg) : System :=
  {initial with
    pending := fun e => e==.prltxMsgTx
    shared := {initial.shared with txMailbox := [⟨0,m⟩]}}

/-- A message is handed to the PHY, and arrives twice. -/
def sentOnce : List LinkStep :=
  [.sender .tx,.sender .tx,.sender (.others (posting (sourceCapabilities 0)))]++
    send.map (fun _ => .sender .tx)++
    .arrive::[.intN,.intN,.rx,.rx,.rx,.rx,.rx,.rx,.rx,.rx,.intN,.intN,.intN].map .receiver++
    .arrive::[.intN,.intN,.rx,.rx,.rx,.rx,.rx].map .receiver

/-- It is read twice and posted once. -/
theorem delivered_once_twice : ∃ p, link.Reach oneWay p ∧ (reads p.receiver.2).length=2 ∧
    (posted p.receiver.2).length=1 ∧
      ∃ read delivered : List (ℕ × PdMsg),
        reads p.receiver.2=read.map Prod.snd ∧ posted p.receiver.2=delivered.map Prod.snd ∧
          (delivered.map Prod.fst).Pairwise (· < ·) := by
  obtain ⟨p,hr,ht⟩ := exists_reach_of_follow link oneWay sentOnce
    (fun p => decide (p.receiver.1.rx.point=.waitPhy ∧ (reads p.receiver.2).length=2 ∧
      (posted p.receiver.2).length=1))
    (by decide +kernel)
  obtain ⟨hp,htwo,hone⟩ := of_decide_eq_true ht
  obtain ⟨read,delivered,hreads,hposted,-,-,horder,-⟩ := delivered_once hr hp
  exact ⟨p,hr,htwo,hone,read,delivered,hreads,hposted,horder⟩

end UsbPdFirmware.MessageLink
