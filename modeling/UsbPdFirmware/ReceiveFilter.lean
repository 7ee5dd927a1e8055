import UsbPdFirmware.BlockOwners
import UsbPdFirmware.StoredMessageId

/-!
# What Protocol RX lets through

While nothing resets Protocol RX, the stored MessageID is that of the message
read last. So of a sequence of messages exactly those are posted that are a
Soft_Reset or do not repeat the MessageID of the message right before them.
-/

namespace UsbPdFirmware.ReceiveFilter

open LabelledRuns Machine EventThreads FirmwareState FirmwareSystem
open PdMessage PolicyEngineMoves ProtocolRx ProtocolTx BlockOwners StoredMessageId

/-! ## The filter -/

/-- The message repeats the MessageID of the one before, and is no Soft_Reset. -/
def repeatsId (before : Option PdMsg) (m : PdMsg) : Bool :=
  !m.isControl pdMsgtypeSoftReset && before.any fun b => b.messageidGet==m.messageidGet

/-- A sequence, oldest first, without the messages that repeat the MessageID
of the message immediately before them. -/
def unrepeated : Option PdMsg → List PdMsg → List PdMsg
  | _,[] => []
  | before,m::rest =>
    if repeatsId before m then unrepeated (some m) rest else m::unrepeated (some m) rest

/-- One more message is let through or not by the last one before it. -/
theorem unrepeated_concat (before : Option PdMsg) (ms : List PdMsg) (m : PdMsg) :
    unrepeated before (ms++[m])=
      unrepeated before ms++if repeatsId (ms.getLast?.or before) m then [] else [m] := by
  induction ms generalizing before with
  | nil =>
    change (if repeatsId before m then [] else [m])=_
    rfl
  | cons first rest ih =>
    have hlast : (first::rest).getLast?.or before=rest.getLast?.or (some first) := by
      rw [List.getLast?_cons,Option.some_or]
      cases rest.getLast? <;> rfl
    rw [List.cons_append,hlast]
    unfold unrepeated
    rw [ih]
    split <;> rfl

/-! ## The log -/

/-- What became of a message that was read. -/
structure Handling where
  /-- The message. -/
  message : PdMsg
  /-- What was added to the Policy Engine's mailbox. -/
  posts : List PdMsg
  /-- How often Protocol TX was told to discard. -/
  discards : ℕ

/-- How often an action signals a discard. -/
def discardsOf : RxAction → ℕ
  | .signal events _ => events.count .prltxDiscard
  | _ => 0

/-- Every read begins a handling, the newest first; what Protocol RX does
until the next read belongs to it. -/
def recordHandling (log : List Handling) (s : System) (l : Label) (s' : System) : List Handling :=
  if l.isRx then
    if s.rx.point=.readPhy then ⟨s.shared.fusbReadMessage.1,[],0⟩::log
    else log.modifyHead fun h =>
      {h with
        posts := h.posts++(s'.shared.peMailbox.drop s.shared.peMailbox.length).map MsgPtr.msg
        discards := h.discards+discardsOf (protocolRx s.rx)}
  else log

/-- The firmware with the log. -/
def received : Machine (System × List Handling) Label := firmware.observe [] recordHandling

/-- The messages read, oldest first. -/
def reads (log : List Handling) : List PdMsg := (log.map Handling.message).reverse

/-- The messages posted, oldest first. -/
def posted (log : List Handling) : List PdMsg := log.reverse.flatMap Handling.posts

/-- No hard reset is worked on, Protocol TX does not reset Protocol RX, and
every read finds a packet. -/
def unreset (p : System × List Handling) (l : Label) : Prop :=
  l.isHr=false ∧ (l.isTx=true → p.1.tx.point≠.resetSignalRx) ∧
    (l.isRx=true → p.1.rx.point=.readPhy → p.1.shared.phy.rxFifo.isEmpty=false)

instance (p : System × List Handling) (l : Label) : Decidable (unreset p l) :=
  inferInstanceAs (Decidable (_ ∧ _ ∧ _))

/-- The handling of a message, by the messages before it, newest first. -/
def handling (before : List PdMsg) (m : PdMsg) : Handling :=
  if repeatsId before.head? m then ⟨m,[],0⟩ else ⟨m,[m],1⟩

/-- The handlings of messages, newest first. -/
def handlings : List PdMsg → List Handling
  | [] => []
  | m::before => handling before m::handlings before

theorem handlings_cons (m : PdMsg) (before : List PdMsg) :
    handlings (m::before)=handling before m::handlings before := rfl

/-- A repeating message is dropped, any other posted after one discard. -/
theorem handling_repeated {before : List PdMsg} {m : PdMsg} (h : repeatsId before.head? m=true) :
    handling before m=⟨m,[],0⟩ := if_pos h

theorem handling_fresh {before : List PdMsg} {m : PdMsg} (h : repeatsId before.head? m=false) :
    handling before m=⟨m,[m],1⟩ := if_neg (by rw [h]; decide)

/-- Each is the handling of a message. -/
theorem handling_of_mem {ms : List PdMsg} {h : Handling} (hmem : h ∈ handlings ms) :
    ∃ before m, h=handling before m := by
  induction ms with
  | nil => cases hmem
  | cons m before ih =>
    rw [handlings_cons] at hmem
    rcases List.mem_cons.mp hmem with rfl | hmem
    · exact ⟨before,m,rfl⟩
    · exact ih hmem

/-- They are of these messages. -/
theorem handlings_messages (ms : List PdMsg) : (handlings ms).map Handling.message=ms := by
  induction ms with
  | nil => rfl
  | cons m before ih =>
    unfold handlings handling
    rw [List.map_cons,ih]
    split <;> rfl

/-- Their posts are the filtered sequence. -/
theorem posted_handlings (ms : List PdMsg) : posted (handlings ms)=unrepeated none ms.reverse := by
  induction ms with
  | nil => rfl
  | cons m before ih =>
    have hlast : before.reverse.getLast?.or none=before.head? := by
      rw [Option.or_none,List.getLast?_reverse]
    have hposted : posted (handlings (m::before))=
        posted (handlings before)++(handling before m).posts := by
      unfold posted
      rw [handlings_cons,List.reverse_cons,List.flatMap_append,List.flatMap_singleton]
    rw [hposted,List.reverse_cons,unrepeated_concat,← ih,hlast]
    unfold handling
    split <;> rfl

/-! ## Protocol RX at work -/

/-- The stored MessageID after messages, newest first. -/
def storedAfter : List PdMsg → ℤ
  | [] => -1
  | m::_ => m.messageidGet

/-- A message carries the stored MessageID exactly when it repeats the last. -/
theorem eq_storedAfter_iff (m : PdMsg) (before : List PdMsg)
    (hs : m.isControl pdMsgtypeSoftReset=false) :
    (m.messageidGet : ℤ)=storedAfter before ↔ repeatsId before.head? m=true := by
  unfold repeatsId
  rw [hs]
  cases before with
  | nil =>
    have hpos : (0 : ℤ) ≤ m.messageidGet := Int.natCast_nonneg _
    change (m.messageidGet : ℤ)=-1 ↔ _
    simp
  | cons b rest =>
    change (m.messageidGet : ℤ)=b.messageidGet ↔ _
    simp
    omega

section Working

variable {s s' : System} {log : List Handling} {o : Outcome Event ProtocolRx Shared}

/-- Protocol RX holds a message, the newest in the log and not yet posted. -/
def Holds (s : System) (log : List Handling) (discards : ℕ) (known : List PdMsg → PdMsg → Prop) : Prop :=
  ∃ before m, s.rx.message=some m ∧ log=⟨m.msg,[],discards⟩::handlings before ∧ known before m.msg

/-- What is known, by where Protocol RX stands. -/
def Working (s : System) (log : List Handling) : Prop :=
  match s.rx.point with
  | .waitPhy | .readPhy | .storeSignalPe =>
    ∃ before, s.shared.rxMessageid=storedAfter before ∧ log=handlings before
  | .resetCounter | .resetStoredId => Holds s log 0 fun _ m => m.isControl pdMsgtypeSoftReset=true
  | .resetSignalTx | .resetPoll | .checkPoll | .checkCompare =>
    Holds s log 0 fun before m =>
      (m.messageidGet : ℤ)=s.shared.rxMessageid ↔ repeatsId before.head? m=true
  | .dropMessage => Holds s log 0 fun before m =>
      repeatsId before.head? m=true ∧ s.shared.rxMessageid=m.messageidGet
  | .storeSignalTx => Holds s log 0 fun before m => repeatsId before.head? m=false
  | .storeMessageid => Holds s log 1 fun before m => repeatsId before.head? m=false
  | .storePost => Holds s log 1 fun before m =>
      repeatsId before.head? m=false ∧ s.shared.rxMessageid=m.messageidGet

/-- The others leave Protocol RX at work. -/
theorem Working.frame (h : Working s log) (hrx : s'.rx=s.rx)
    (hid : s'.shared.rxMessageid=s.shared.rxMessageid) : Working s' log := by
  unfold Working Holds at h ⊢
  rw [hrx,hid]
  exact h

/-- Only one point signals a discard. -/
theorem discardsOf_other {rx : ProtocolRx} (hp : rx.point≠.storeSignalTx) :
    discardsOf (protocolRx rx)=0 := by
  unfold protocolRx
  cases h : rx.point <;> first | exact absurd h hp | rfl

/-- A read begins a handling. -/
theorem recordHandling_read (hp : s.rx.point=.readPhy) :
    recordHandling log s .rx s'=⟨s.shared.fusbReadMessage.1,[],0⟩::log := (if_pos rfl).trans (if_pos hp)

/-- What a step that reads nothing adds to the newest handling. -/
theorem recordHandling_rx (hp : s.rx.point≠.readPhy) : recordHandling log s .rx s'=
    log.modifyHead fun h =>
      {h with
        posts := h.posts++(s'.shared.peMailbox.drop s.shared.peMailbox.length).map MsgPtr.msg
        discards := h.discards+discardsOf (protocolRx s.rx)} :=
  (if_pos rfl).trans (if_neg hp)

/-- Away from a read, a discard and a post the log stays. -/
theorem recordHandling_same (hp : s.rx.point≠.readPhy) (hd : s.rx.point≠.storeSignalTx)
    (hq : s'.shared.peMailbox=s.shared.peMailbox) : recordHandling log s .rx s'=log := by
  rw [recordHandling_rx hp,discardsOf_other hd,hq,List.drop_length]
  cases log with
  | nil => rfl
  | cons h rest =>
    rw [List.modifyHead_cons,List.map_nil,List.append_nil]
    rfl

/-- What is known at a point. -/
theorem Working.known {point : ProtocolRxPoint} (h : Working s log) (hp : s.rx.point=point) :
    Working {s with rx := ⟨point,s.rx.message⟩} log := by
  rw [← hp]
  exact h

/-- A read begins with a message whose MessageID is compared later, unless it
is a Soft_Reset. -/
theorem Working.read {block : ℕ} {pool : List ℕ} (h : Working s log) (hp : s.rx.point=.readPhy) :
    Working (s.withRx ⟨s.pending,
        ⟨if s.shared.fusbReadMessage.1.isControl pdMsgtypeSoftReset then .resetCounter else .checkPoll,
          some ⟨block,s.shared.fusbReadMessage.1⟩⟩,{s.shared.fusbReadMessage.2 with pool := pool}⟩)
      (⟨s.shared.fusbReadMessage.1,[],0⟩::log) := by
  obtain ⟨before,hid,rfl⟩ := h.known hp
  cases hs : s.shared.fusbReadMessage.1.isControl pdMsgtypeSoftReset with
  | true => exact ⟨before,⟨block,_⟩,rfl,rfl,hs⟩
  | false =>
    refine ⟨before,⟨block,_⟩,rfl,rfl,?_⟩
    have hkept : s.shared.fusbReadMessage.2.rxMessageid=storedAfter before := by
      rw [fusbReadMessage_eq]
      exact hid
    change (s.shared.fusbReadMessage.1.messageidGet : ℤ)=s.shared.fusbReadMessage.2.rxMessageid ↔ _
    rw [hkept]
    exact eq_storedAfter_iff _ _ hs

/-- A Soft_Reset repeats nothing, and no MessageID is the one it stores. -/
theorem Working.resetStoredId (h : Working s log) (hp : s.rx.point=.resetStoredId) :
    Working (s.withRx ⟨s.pending,at_ s.rx .resetSignalTx,{s.shared with rxMessageid := -1}⟩) log := by
  obtain ⟨before,m,hm,hlog,hs⟩ := h.known hp
  have hpos : (0 : ℤ) ≤ m.msg.messageidGet := Int.natCast_nonneg _
  have hfresh : repeatsId before.head? m.msg=false := by
    unfold repeatsId
    rw [hs]
    rfl
  refine ⟨before,m,hm,hlog,?_⟩
  change (m.msg.messageidGet : ℤ)=-1 ↔ _
  rw [hfresh]
  simp

/-- The comparison tells whether the message repeats the last. -/
theorem Working.compared (h : Working s log) (hp : s.rx.point=.checkCompare) :
    ∃ before m, s.rx.message=some m ∧ log=⟨m.msg,[],0⟩::handlings before ∧
      (((s.shared.deref s.rx.message).messageidGet : ℤ)=s.shared.rxMessageid ↔
        repeatsId before.head? m.msg=true) := by
  obtain ⟨before,m,hm,hlog,hiff⟩ := h.known hp
  have hm' : s.rx.message=some m := hm
  refine ⟨before,m,hm',hlog,?_⟩
  rw [hm']
  exact hiff

/-- A message that is dropped was handled. -/
theorem Working.drop (h : Working s log) (hp : s.rx.point=.dropMessage) :
    Working (s.withRx ⟨s.pending,⟨.waitPhy,none⟩,s.shared.free? s.rx.message⟩) log := by
  obtain ⟨before,m,hm,rfl,hr,hid⟩ := h.known hp
  refine ⟨m.msg::before,?_,?_⟩
  · change (s.shared.free? s.rx.message).rxMessageid=_
    rw [free?_eq]
    exact hid
  · rw [handlings_cons,handling_repeated hr]

/-- The discard of a message that will be posted. -/
theorem Working.discard (h : Working s log) (hp : s.rx.point=.storeSignalTx)
    (ho : o=⟨raise [.prltxDiscard] s.pending,at_ s.rx .storeMessageid,s.shared⟩) :
    Working (s.withRx o) (recordHandling log s .rx (s.withRx o)) := by
  obtain ⟨before,m,hm,hlog,hr⟩ := h.known hp
  subst ho
  refine ⟨before,m,hm,?_,hr⟩
  rw [recordHandling_rx (by rw [hp]; decide),hlog,List.modifyHead_cons]
  unfold protocolRx
  rw [hp]
  change Handling.mk m.msg ([]++(s.shared.peMailbox.drop s.shared.peMailbox.length).map MsgPtr.msg) 1::_=_
  rw [List.drop_length]
  rfl

/-- Its post, into a mailbox with room. -/
theorem Working.post {m : MsgPtr} (h : Working s log) (hp : s.rx.point=.storePost)
    (hm : s.rx.message=some m) (hroom : s.shared.peMailbox.length < pdbMsgPoolSize)
    (ho : o=⟨s.pending,at_ s.rx .storeSignalPe,
      {s.shared with peMailbox := EventThreads.post pdbMsgPoolSize m s.shared.peMailbox}⟩) :
    Working (s.withRx o) (recordHandling log s .rx (s.withRx o)) := by
  obtain ⟨before,m',hm',hlog,hr,hid⟩ := h.known hp
  cases hm.symm.trans hm'
  subst ho
  have hpost : EventThreads.post pdbMsgPoolSize m s.shared.peMailbox=s.shared.peMailbox++[m] :=
    post_of_room hroom m
  refine ⟨m.msg::before,hid,?_⟩
  rw [recordHandling_rx (by rw [hp]; decide),discardsOf_other (by rw [hp]; decide),hlog,
    List.modifyHead_cons,handlings_cons,handling_fresh hr]
  change Handling.mk m.msg
    ([]++((EventThreads.post pdbMsgPoolSize m s.shared.peMailbox).drop _).map MsgPtr.msg) 1::_=_
  rw [hpost,List.drop_left]
  rfl

/-- Protocol RX goes on with its work. -/
theorem Working.rx (h : Working s log) (hs : RxStep s.rx s.pending s.shared o)
    (hreset : s.pending .prlrxReset=false)
    (hroom : ∀ m, s.rx.point=.storePost → s.rx.message=some m →
      s.shared.peMailbox.length < pdbMsgPoolSize) :
    Working (s.withRx o) (recordHandling log s .rx (s.withRx o)) := by
  -- A log that stays at a point.
  have hsame {point : ProtocolRxPoint} (hp : s.rx.point=point) (hne : point ∉ [.readPhy,.storeSignalTx])
      (hq : o.shared.peMailbox=s.shared.peMailbox) : recordHandling log s .rx (s.withRx o)=log := by
    rw [← hp] at hne
    exact recordHandling_same (fun hr => hne (by rw [hr]; decide)) (fun hd => hne (by rw [hd]; decide)) hq
  cases hs with
  | heedReset hp hr => exact absurd (hreset.symm.trans hr) (by decide)
  | heedGcrcsent hp hr hg =>
    rw [hsame hp (by decide) rfl]
    exact h.known hp
  | read hp hb =>
    rw [recordHandling_read hp]
    exact h.read hp
  | resetCounter hp =>
    rw [hsame hp (by decide) rfl]
    exact h.known hp
  | resetStoredId hp =>
    rw [hsame hp (by decide) rfl]
    exact h.resetStoredId hp
  | resetSignalTx hp =>
    rw [hsame hp (by decide) rfl]
    exact h.known hp
  | pollOn hp hr =>
    rcases hp with hp | hp
    · rw [hsame hp (by decide) rfl,if_pos hp]
      exact h.known hp
    · rw [hsame hp (by decide) rfl,if_neg (by rw [hp]; decide)]
      exact h.known hp
  | pollReset hp hr => exact absurd (hreset.symm.trans hr) (by decide)
  | duplicate hp hid =>
    rw [hsame hp (by decide) rfl]
    obtain ⟨before,m,hm,hlog,hiff⟩ := h.compared hp
    have hrepeats := hiff.mp hid
    rw [hm] at hid
    exact ⟨before,m,hm,hlog,hrepeats,hid.symm⟩
  | accept hp hid =>
    rw [hsame hp (by decide) rfl]
    obtain ⟨before,m,hm,hlog,hiff⟩ := h.compared hp
    exact ⟨before,m,hm,hlog,Bool.eq_false_iff.mpr fun hr => hid (hiff.mpr hr)⟩
  | drop hp =>
    rw [hsame hp (by decide) (free?_peMailbox _ _)]
    exact h.drop hp
  | storeSignalTx hp => exact h.discard hp rfl
  | storeMessageid hp =>
    rw [hsame hp (by decide) rfl]
    obtain ⟨before,m,hm,hlog,hr⟩ := h.known hp
    have hm' : s.rx.message=some m := hm
    refine ⟨before,m,hm,hlog,hr,?_⟩
    change ((s.shared.deref s.rx.message).messageidGet : ℤ)=_
    rw [hm']
    rfl
  | post hp hm => exact h.post hp hm (hroom _ hp hm) rfl
  | storeSignalPe hp =>
    rw [hsame hp (by decide) rfl]
    exact h.known hp

end Working

/-! ## Runs -/

section Runs

variable {p : System × List Handling} {s s' : System} {l : Label} {log : List Handling}

/-- Protocol TX resets Protocol RX at one point only. -/
theorem txStep_prlrxReset {o : Outcome Event ProtocolTx Shared} (h : TxStep s.tx s.pending s.shared o)
    (hp : s.tx.point≠.resetSignalRx) (hr : s.pending .prlrxReset=false) : o.pending .prlrxReset=false := by
  cases h with
  | resetSignalRx hp' => exact absurd hp' hp
  | report hr' => rcases reportedBy_cases hr' with ⟨-,-,rfl⟩ | ⟨-,rfl⟩ | ⟨-,rfl⟩ <;> simp [hr]
  | _ => simp [hr]

/-- While no one resets Protocol RX, no reset event is pending. -/
theorem prlrxReset_step (h : Moved s l s') (ha : unreset (s,log) l) (hr : s.pending .prlrxReset=false) :
    s'.pending .prlrxReset=false := by
  cases h with
  | pe hl he hp => exact ((policyEngine_move hp).pending_other (by decide)).trans hr
  | rx hs => cases hs <;> simp [System.withRx,hr]
  | tx ht => exact txStep_prlrxReset ht (ha.2.1 rfl) hr
  | hr hl hh => rcases hl with rfl | rfl <;> exact absurd ha.1 (by decide)
  | intN hi => exact (hi.pending_other (by decide)).trans hr
  | env he => exact ((environment_frame he).pending _ (by decide)).trans hr

/-- What is known of Protocol RX holds in every run without resets. -/
theorem working_of_reach (h : received.Reach unreset p) :
    p.1.pending .prlrxReset=false ∧ Working p.1 p.2 := by
  refine h.observed_invariant (I := fun s log => s.pending .prlrxReset=false ∧ Working s log) ?_ ?_
  · exact ⟨rfl,[],rfl,rfl⟩
  · intro s log l s' hreach ⟨hreset,hwork⟩ ha hs
    have hmoved := firmware_moved hs
    refine ⟨prlrxReset_step hmoved ha hreset,?_⟩
    cases hl : l.isRx with
    | true =>
      obtain ⟨o,ho,rfl⟩ := exists_rxStep hmoved hl
      have hconserved := receiver_conserved (firmware_reach hreach.any.unobserved)
      have hlabel : l=.rx := by cases l <;> first | rfl | cases hl
      rw [hlabel]
      exact hwork.rx ho hreset fun m hp hm => hconserved.room hp hm
    | false =>
      have hrec : recordHandling log s l s'=log := if_neg (by rw [hl]; decide)
      obtain ⟨hrx,hid | ⟨hhr,-⟩⟩ := other_stored hmoved hl
      · rw [hrec]
        exact hwork.frame hrx hid
      · rw [ha.1] at hhr
        cases hhr

/-- Between two messages, exactly those were posted, in order, that are a
Soft_Reset or do not repeat the MessageID of the message right before them.
Each posted message told Protocol TX once to discard, a dropped one never. -/
theorem posted_unrepeated (h : received.Reach unreset p) (hp : p.1.rx.point=.waitPhy) :
    posted p.2=unrepeated none (reads p.2) ∧
      ∀ h ∈ p.2, h.posts=[h.message] ∧ h.discards=1 ∨ h.posts=[] ∧ h.discards=0 := by
  obtain ⟨-,hwork⟩ := working_of_reach h
  unfold Working at hwork
  rw [hp] at hwork
  obtain ⟨before,-,hlog⟩ := hwork
  rw [hlog]
  refine ⟨?_,fun h hmem => ?_⟩
  · rw [posted_handlings,reads,handlings_messages]
  · obtain ⟨before,m,rfl⟩ := handling_of_mem hmem
    cases hr : repeatsId before.head? m with
    | true =>
      rw [handling_repeated hr]
      exact .inr ⟨rfl,rfl⟩
    | false =>
      rw [handling_fresh hr]
      exact .inl ⟨rfl,rfl⟩

end Runs

/-- Capabilities, the same again, and a Soft_Reset, all numbered zero. -/
def repeated : List Label :=
  List.flatten [powerUp,deliver (sourceCapabilities 0),
    [.env (.sourceMessage (sourceCapabilities 0)),.intN,.intN,.rx,.rx,.rx,.rx,.rx,.intN,.intN,.intN],
    [.env (.sourceMessage (controlMessage pdMsgtypeSoftReset 0)),.intN,.intN,.rx,.rx,.rx,.rx,.rx,.rx,.rx,.rx,
      .rx,.rx,.rx,.rx]]

/-- Two of the three are posted. -/
theorem posted_unrepeated_three : ∃ p, received.Reach unreset p ∧ (reads p.2).length=3 ∧
    (posted p.2).length=2 ∧ posted p.2=unrepeated none (reads p.2) := by
  obtain ⟨p,hr,ht⟩ := exists_reach_of_follow received unreset repeated
    (fun p => decide (p.1.rx.point=.waitPhy ∧ (reads p.2).length=3 ∧ (posted p.2).length=2))
    (by decide +kernel)
  obtain ⟨hp,hreads,hposted⟩ := of_decide_eq_true ht
  exact ⟨p,hr,hreads,hposted,(posted_unrepeated hr hp).1⟩

end UsbPdFirmware.ReceiveFilter
