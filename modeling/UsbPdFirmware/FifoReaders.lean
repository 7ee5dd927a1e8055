import UsbPdFirmware.PolicyEngineMoves
import UsbPdFirmware.FirmwareSystem

/-!
# Two readers of one FIFO

Source messages and GoodCRC replies share the receive FIFO. Protocol RX and
Protocol TX each read its head when they are notified, and a notification
does not say where in the FIFO its packet is. A log beside the firmware keeps
what each of them reads. When a packet arrives only while nothing of the
other kind is unread or notified, each packet goes to the right reader.
-/

namespace UsbPdFirmware.FifoReaders

open LabelledRuns Machine EventThreads FirmwareState FirmwareSystem
open PdMessage PolicyEngine PolicyEngineMoves ProtocolRx ProtocolTx HardReset

/-- The other kind of packet. -/
def other : PacketOrigin → PacketOrigin
  | .source => .goodcrc
  | .goodcrc => .source

theorem eq_of_ne_other {k k' : PacketOrigin} (h : k≠other k') : k=k' := by
  cases k <;> cases k' <;> first | rfl | exact absurd rfl h

/-! ## The log of reads -/

/-- Who read what, and what became of it. -/
structure ReadLog where
  /-- For each packet read, the kind its reader expects and its own kind. -/
  reads : List (PacketOrigin × PacketOrigin)
  /-- The kind of the packet Protocol RX holds, if it is a packet. -/
  held : Option PacketOrigin
  /-- The kinds of the packets posted to the Policy Engine. -/
  posts : List PacketOrigin

/-- The kind of the oldest packet. -/
def head (s : System) : Option PacketOrigin := (s.shared.phy.rxFifo.head?).map Packet.origin

/-- The log after a step. -/
def record (h : ReadLog) (s : System) (l : Label) (_ : System) : ReadLog :=
  if l.isRx then
    if s.rx.point=.readPhy then
      {h with reads := h.reads++(head s).toList.map (.source,·),held := head s}
    else if s.rx.point=.storePost then {h with posts := h.posts++h.held.toList}
    else h
  else if l.isTx then
    if s.tx.point=.matchRead then {h with reads := h.reads++(head s).toList.map (.goodcrc,·)} else h
  else h

/-- The firmware with the log beside it. -/
def readers : Machine (System × ReadLog) Label := firmware.observe ⟨[],none,[]⟩ record

/-- Each packet was read by the machine it is meant for, and no GoodCRC was
posted to the Policy Engine. -/
def WellRead (h : ReadLog) : Prop := (∀ r ∈ h.reads, r.1=r.2) ∧ .goodcrc ∉ h.posts

instance (h : ReadLog) : Decidable (WellRead h) := inferInstanceAs (Decidable (_ ∧ _))

/-! ## Notifications -/

/-- The interrupt that reports a kind is raised. -/
def reported (i : Interrupts) : PacketOrigin → Bool
  | .source => i.gcrcsent
  | .goodcrc => i.txsent

/-- The flag that notifies the reader of a kind. -/
def readerFlag : PacketOrigin → Event
  | .source => .prlrxGcrcsent
  | .goodcrc => .prltxTxsent

/-- The polling thread has yet to pass on a notification of this kind. -/
def carried : PacketOrigin → IntNPoint → Bool
  | k,.signalRx i _ => reported i k
  | .goodcrc,.signalTx i _ => i.txsent
  | _,_ => false

/-- The reader of a kind is about to read. -/
def reading (s : System) : PacketOrigin → Bool
  | .source => decide (s.rx.point=.readPhy)
  | .goodcrc => decide (s.tx.point=.matchRead)

/-- The reader of a kind has been notified, or will be: the interrupt is
raised, read, or passed on, or the reader is about to read. -/
def notified (s : System) (k : PacketOrigin) : Bool :=
  reported s.shared.phy.interrupts k || carried k s.intN.point || s.pending (readerFlag k) ||
    reading s k

theorem notified_iff {s : System} {k : PacketOrigin} : notified s k=true ↔
    reported s.shared.phy.interrupts k=true ∨ carried k s.intN.point=true ∨
      s.pending (readerFlag k)=true ∨ reading s k=true := by
  simp only [notified,Bool.or_eq_true,or_assoc]

/-- A reader that is notified finds nothing but its own kind. -/
def Apart (s : System) : Prop :=
  ∀ k, notified s k=true → ∀ p ∈ s.shared.phy.rxFifo, p.origin=k

/-- The kind of a packet that arrives. -/
def arrival : Label → Option PacketOrigin
  | .env (.sourceMessage _) => some .source
  | .env (.goodcrc _) => some .goodcrc
  | _ => none

/-- A packet arrives only while no packet of the other kind is unread and no
notification of the other kind is under way. -/
def arrivesApart (s : System) (l : Label) : Prop :=
  ∀ k ∈ arrival l, notified s (other k)=false ∧ ∀ p ∈ s.shared.phy.rxFifo, p.origin≠other k

instance (s : System) (l : Label) : Decidable (arrivesApart s l) :=
  inferInstanceAs (Decidable (∀ k ∈ arrival l, _ ∧ _))

/-- Reading, flushing and forgetting keep the kinds apart. -/
theorem Apart.shrink {s s' : System} (hi : Apart s)
    (hf : ∀ p ∈ s'.shared.phy.rxFifo, p ∈ s.shared.phy.rxFifo)
    (hn : ∀ k, notified s' k=true → notified s k=true) : Apart s' :=
  fun k hk p hp => hi k (hn k hk) p (hf p hp)

/-- A step of a thread that is no reader. -/
theorem Apart.frame {s s' : System} (hi : Apart s)
    (hf : s'.shared.phy.rxFifo=s.shared.phy.rxFifo)
    (hr : ∀ k, reported s'.shared.phy.interrupts k=reported s.shared.phy.interrupts k)
    (hintN : s'.intN=s.intN) (hrx : s'.rx=s.rx) (htx : s'.tx=s.tx)
    (hp : ∀ k, s'.pending (readerFlag k)=s.pending (readerFlag k)) : Apart s' := by
  refine hi.shrink (by rw [hf]; exact fun _ h => h) fun k hk => ?_
  have hg : reading s' k=reading s k := by cases k <;> simp only [reading,hrx,htx]
  simp only [notified,hr,hintN,hp,hg] at hk
  exact hk

/-! ## The readers -/

/-- At most, packets were taken out of the FIFO. -/
structure Takes (sh sh' : Shared) : Prop where
  /-- No packet is new. -/
  rxFifo : ∀ p ∈ sh'.phy.rxFifo, p ∈ sh.phy.rxFifo
  /-- No interrupt was raised or cleared. -/
  interrupts : sh'.phy.interrupts=sh.phy.interrupts

theorem Takes.refl (sh : Shared) : Takes sh sh := ⟨fun _ h => h,rfl⟩

/-- Reading a packet. -/
theorem takes_fusbReadMessage (sh : Shared) : Takes sh sh.fusbReadMessage.2 := by
  unfold Shared.fusbReadMessage
  cases h : sh.phy.rxFifo with
  | nil => exact Takes.refl sh
  | cons p rest => exact ⟨fun _ hp => by rw [h]; exact List.mem_cons_of_mem _ hp,rfl⟩

theorem takes_rx {rx : ProtocolRx} {pending : Event → Bool} {sh : Shared}
    {o : Outcome Event ProtocolRx Shared} (h : RxStep rx pending sh o) : Takes sh o.shared := by
  cases h with
  | read hp hb => exact ⟨(takes_fusbReadMessage sh).rxFifo,(takes_fusbReadMessage sh).interrupts⟩
  | drop hp => cases rx.message <;> exact ⟨fun _ h => h,rfl⟩
  | _ => exact ⟨fun _ h => h,rfl⟩

theorem takes_tx {tx : ProtocolTx} {pending : Event → Bool} {sh : Shared}
    {o : Outcome Event ProtocolTx Shared} (h : TxStep tx pending sh o) : Takes sh o.shared := by
  cases h with
  | phyReset hp => exact ⟨fun p hp => absurd hp List.not_mem_nil,rfl⟩
  | matchRead hp => exact takes_fusbReadMessage sh
  | discard hp => cases tx.message <;> exact ⟨fun _ h => h,rfl⟩
  | _ => exact ⟨fun _ h => h,rfl⟩

/-- Protocol RX never notifies itself. -/
theorem rx_gcrcsent {rx : ProtocolRx} {pending : Event → Bool} {sh : Shared}
    {o : Outcome Event ProtocolRx Shared} (h : RxStep rx pending sh o)
    (hn : o.pending .prlrxGcrcsent=true) : pending .prlrxGcrcsent=true := by
  cases h <;> simp at hn
  all_goals exact hn

/-- Protocol RX reads next only when it was notified. -/
theorem rx_readPhy {rx : ProtocolRx} {pending : Event → Bool} {sh : Shared}
    {o : Outcome Event ProtocolRx Shared} (h : RxStep rx pending sh o)
    (hn : o.loc.point=.readPhy) : pending .prlrxGcrcsent=true := by
  cases h with
  | heedGcrcsent hp hr hg => exact hg
  | read hp hb =>
    dsimp only at hn
    split at hn <;> cases hn
  | pollOn hp hr =>
    rw [ProtocolRx.at_point] at hn
    split at hn <;> cases hn
  | _ => cases hn

/-- Protocol TX never notifies itself. -/
theorem tx_txsent {tx : ProtocolTx} {pending : Event → Bool} {sh : Shared}
    {o : Outcome Event ProtocolTx Shared} (h : TxStep tx pending sh o)
    (hn : o.pending .prltxTxsent=true) : pending .prltxTxsent=true := by
  cases h with
  | report hr =>
    rcases reportedBy_cases hr with ⟨-,-,rfl⟩ | ⟨-,rfl⟩ | ⟨-,rfl⟩
    all_goals
      simp at hn
      exact hn
  | heedReset hp hr =>
    simp at hn
    exact hn.1
  | heedDiscard hp hr hd =>
    simp at hn
    exact hn.1
  | _ =>
    simp at hn
    simp [hn]

/-- Protocol TX matches next only when it was notified. -/
theorem tx_matchRead {tx : ProtocolTx} {pending : Event → Bool} {sh : Shared}
    {o : Outcome Event ProtocolTx Shared} (h : TxStep tx pending sh o)
    (hn : o.loc.point=.matchRead) : pending .prltxTxsent=true := by
  cases h with
  | heedTxsent hp hr hd ht => exact ht
  | fetch hp =>
    dsimp only at hn
    split at hn <;> cases hn
  | constructHeader hp hm =>
    dsimp only at hn
    split at hn <;> cases hn
  | constructAms hp =>
    rw [ProtocolTx.at_point] at hn
    split at hn <;> cases hn
  | constructSinkTxOk hp =>
    dsimp only at hn
    split at hn
    · cases hn
    · rw [hp] at hn
      cases hn
  | matchCompare hp =>
    dsimp only at hn
    split at hn <;> cases hn
  | _ => cases hn

/-! ## Every step keeps the kinds apart -/

theorem Apart.rx {s : System} {o : Outcome Event ProtocolRx Shared} (hi : Apart s)
    (h : RxStep s.rx s.pending s.shared o) : Apart (s.withRx o) := by
  have hx := takes_rx h
  refine hi.shrink hx.rxFifo fun k hk => ?_
  rw [notified_iff] at hk ⊢
  simp only [System.withRx,hx.interrupts] at hk
  rcases hk with hk | hk | hk | hk
  · exact .inl hk
  · exact .inr (.inl hk)
  · cases k with
    | source => exact .inr (.inr (.inl (rx_gcrcsent h hk)))
    | goodcrc =>
      have ht : o.pending .prltxTxsent=s.pending .prltxTxsent := h.pending_other (by decide)
      exact .inr (.inr (.inl (ht.symm.trans hk)))
  · cases k with
    | source => exact .inr (.inr (.inl (rx_readPhy h (of_decide_eq_true hk))))
    | goodcrc => exact .inr (.inr (.inr hk))

theorem Apart.tx {s : System} {o : Outcome Event ProtocolTx Shared} (hi : Apart s)
    (h : TxStep s.tx s.pending s.shared o) : Apart (s.withTx o) := by
  have hx := takes_tx h
  refine hi.shrink hx.rxFifo fun k hk => ?_
  rw [notified_iff] at hk ⊢
  simp only [System.withTx,hx.interrupts] at hk
  rcases hk with hk | hk | hk | hk
  · exact .inl hk
  · exact .inr (.inl hk)
  · cases k with
    | source =>
      have hg : o.pending .prlrxGcrcsent=s.pending .prlrxGcrcsent := h.pending_other (by decide)
      exact .inr (.inr (.inl (hg.symm.trans hk)))
    | goodcrc => exact .inr (.inr (.inl (tx_txsent h hk)))
  · cases k with
    | source => exact .inr (.inr (.inr hk))
    | goodcrc => exact .inr (.inr (.inl (tx_matchRead h (of_decide_eq_true hk))))

/-- What the polling thread signals or still carries, it carried before. -/
theorem carried_of_signal {p : IntNPoint} {k : PacketOrigin}
    (h : carried k (intNSignals p).2=true ∨ readerFlag k ∈ (intNSignals p).1) : carried k p=true := by
  revert h
  cases p <;> cases k <;> simp [carried,reported,readerFlag,intNSignals,whenSet]

/-- The polling thread only moves notifications along. -/
theorem Apart.intN {s : System} {o : Outcome Event IntN Shared} (hi : Apart s)
    (h : IntNStep s.intN s.pending s.shared o) : Apart (s.withIntN o) := by
  cases h with
  | idle hp =>
    refine hi.shrink (fun _ h => h) fun k hk => ?_
    rw [notified_iff] at hk ⊢
    rw [hp]
    exact hk
  | status hp =>
    refine hi.shrink (fun _ h => h) fun k hk => ?_
    rw [notified_iff] at hk ⊢
    have hnone : reported .none k=false := by cases k <;> rfl
    simp only [System.withIntN,hnone,carried] at hk
    rcases hk with hk | hk | hk | hk
    · exact absurd hk Bool.false_ne_true
    · exact .inl hk
    · exact .inr (.inr (.inl hk))
    · exact .inr (.inr (.inr hk))
  | signal hp =>
    refine hi.shrink (fun _ h => h) fun k hk => ?_
    rw [notified_iff] at hk ⊢
    simp only [System.withIntN,raise_apply,Bool.or_eq_true,decide_eq_true_eq] at hk
    rcases hk with hk | hk | (hk | hk) | hk
    · exact .inl hk
    · exact .inr (.inl (carried_of_signal (.inl hk)))
    · exact .inr (.inr (.inl hk))
    · exact .inr (.inl (carried_of_signal (.inr hk)))
    · exact .inr (.inr (.inr hk))

/-- A packet that arrives apart joins only packets of its kind. -/
theorem apart_arrive {s s' : System} {p : Packet}
    (hn : notified s (other p.origin)=false) (hf : ∀ q ∈ s.shared.phy.rxFifo, q.origin≠other p.origin)
    (hf' : s'.shared.phy.rxFifo=s.shared.phy.rxFifo++[p])
    (hn' : notified s' (other p.origin)=notified s (other p.origin)) : Apart s' := by
  intro k hk q hq
  have hkp : k=p.origin := eq_of_ne_other fun hk' => by
    rw [hk',hn',hn] at hk
    exact Bool.false_ne_true hk
  rw [hf',List.mem_append,List.mem_singleton] at hq
  rcases hq with hq | hq
  · rw [hkp]
    exact eq_of_ne_other (hf q hq)
  · rw [hkp,hq]

/-- What the environment does. -/
theorem Apart.env {s s' : System} {e : Environment} (hi : Apart s)
    (ha : arrivesApart s (.env e)) (h : environment e s=some s') : Apart s' := by
  have hframe := environment_frame h
  have hp (k : PacketOrigin) : s'.pending (readerFlag k)=s.pending (readerFlag k) :=
    hframe.pending _ (by cases k <;> decide)
  cases e
  case sourceMessage m =>
    cases h
    obtain ⟨hn,hf⟩ := ha .source rfl
    exact apart_arrive (p := ⟨.source,m⟩) hn hf rfl rfl
  case goodcrc m =>
    cases h
    obtain ⟨hn,hf⟩ := ha .goodcrc rfl
    exact apart_arrive (p := ⟨.goodcrc,m⟩) hn hf rfl rfl
  case ppsTimer =>
    simp only [environment,Option.ite_none_right_eq_some,Option.some.injEq] at h
    obtain ⟨-,rfl⟩ := h
    exact hi.frame rfl (fun _ => rfl) rfl rfl rfl hp
  all_goals
    cases h
    exact hi.frame rfl (fun k => by cases k <;> rfl) rfl rfl rfl hp

/-- Every step under the condition keeps the kinds apart. -/
theorem Apart.step {s s' : System} {l : Label} (hi : Apart s) (ha : arrivesApart s l)
    (h : firmware.step l s=some s') : Apart s' := by
  cases firmware_moved h with
  | pe hl he hp =>
    have hm := policyEngine_move hp
    have hphy := hm.frame.phy
    refine hi.frame ?_ ?_ rfl rfl rfl fun k => hm.pending_other (by cases k <;> decide)
    · rw [System.withPe,hphy]
    · intro k
      rw [System.withPe,hphy]
  | rx hr => exact hi.rx hr
  | tx ht => exact hi.tx ht
  | hr hl hh =>
    have hphy := hh.frame.phy
    refine hi.frame ?_ ?_ rfl rfl rfl fun k => hh.pending_other (by cases k <;> decide)
    · rw [System.withHr,hphy]
    · intro k
      rw [System.withHr,hphy]
  | intN hn => exact hi.intN hn
  | env he => exact hi.env ha he

/-! ## The log -/

/-- Where its reader is about to read, the oldest packet is of the right kind. -/
theorem Apart.head_eq {s : System} {k k' : PacketOrigin} (hi : Apart s) (hk : reading s k=true)
    (hh : head s=some k') : k'=k := by
  obtain ⟨p,hp,rfl⟩ := Option.map_eq_some_iff.mp hh
  exact hi k (notified_iff.mpr (.inr (.inr (.inr hk)))) p (List.mem_of_mem_head? hp)

/-- What is held and what was logged. -/
structure Clean (h : ReadLog) : Prop where
  /-- Everything was well read. -/
  wellRead : WellRead h
  /-- No GoodCRC is held. -/
  held : h.held≠some .goodcrc

/-- Reading the right kind keeps the log well read. -/
theorem WellRead.read {h : ReadLog} {k : PacketOrigin} (hw : WellRead h) {next : Option PacketOrigin}
    (hn : ∀ k' ∈ next, k'=k) :
    ∀ r ∈ h.reads++next.toList.map (k,·), r.1=r.2 := by
  intro r hr
  rw [List.mem_append,List.mem_map] at hr
  rcases hr with hr | ⟨k',hk',rfl⟩
  · exact hw.1 r hr
  · exact (hn k' (Option.mem_toList.mp hk')).symm

/-- One step of the log. -/
theorem Clean.record {h : ReadLog} {s s' : System} {l : Label} (hc : Clean h) (hi : Apart s) :
    Clean (record h s l s') := by
  unfold FifoReaders.record
  split_ifs with hrx hread hpost htx hmatch
  · have hh : ∀ k' ∈ head s, k'=.source := fun k' hk' => hi.head_eq (decide_eq_true hread) hk'
    refine ⟨⟨hc.wellRead.read hh,hc.wellRead.2⟩,fun hheld => ?_⟩
    exact absurd (hh _ hheld) (by decide)
  · refine ⟨⟨hc.wellRead.1,fun hmem => ?_⟩,hc.held⟩
    rw [List.mem_append,Option.mem_toList] at hmem
    rcases hmem with hmem | hmem
    · exact hc.wellRead.2 hmem
    · exact hc.held hmem
  · exact hc
  · have hh : ∀ k' ∈ head s, k'=.goodcrc := fun k' hk' => hi.head_eq (decide_eq_true hmatch) hk'
    exact ⟨⟨hc.wellRead.read hh,hc.wellRead.2⟩,hc.held⟩
  · exact hc
  · exact hc

/-- When packets arrive apart, each is read by the machine it is meant for. -/
theorem read_by_addressee {p : System × ReadLog}
    (h : readers.Reach (fun p l => arrivesApart p.1 l) p) : WellRead p.2 := by
  have hinv : Apart p.1 ∧ Clean p.2 := by
    refine h.observed_invariant (I := fun s log => Apart s ∧ Clean log) ?_ ?_
    · refine ⟨fun k hk p hp => absurd hp List.not_mem_nil,⟨?_,?_⟩,?_⟩
      · exact fun r hr => absurd hr List.not_mem_nil
      · exact List.not_mem_nil
      · exact fun h => by cases h
    · intro s log l s' _ hi ha hs
      exact ⟨hi.1.step ha hs,hi.2.record hi.1⟩
  exact hinv.2.wellRead

/-- In a whole negotiation three messages and one GoodCRC arrive apart. -/
theorem read_by_addressee_negotiate :
    ∃ p, readers.Reach (fun p l => arrivesApart p.1 l) p ∧
      p.2.reads=[(.source,.source),(.goodcrc,.goodcrc),(.source,.source),(.source,.source)] ∧
      WellRead p.2 := by
  obtain ⟨p,hr,ht⟩ := exists_reach_of_follow readers (fun p l => arrivesApart p.1 l) negotiate
    (fun p => decide (p.2.reads=
      [(.source,.source),(.goodcrc,.goodcrc),(.source,.source),(.source,.source)]))
    (by decide +kernel)
  exact ⟨p,hr,of_decide_eq_true ht,read_by_addressee hr⟩

/-- A Request is sent. The GoodCRC arrives and then the Accept, and one poll
reports both; Protocol RX is notified first. -/
def crossedTrace : List Label :=
  List.flatten [request,send,[.env (.goodcrc (controlMessage pdMsgtypeGoodcrc 0)),
    .env (.sourceMessage (controlMessage pdMsgtypeAccept 1)),.intN,.intN,.rx,.rx]]

/-- Protocol RX then reads the GoodCRC. -/
theorem exists_misread : ¬∀ p, readers.Reach anyStep p → WellRead p.2 := by
  intro h
  obtain ⟨p,hr,ht⟩ := exists_reach_of_follow readers anyStep crossedTrace
    (fun p => !decide (WellRead p.2)) (by decide +kernel)
  rw [Bool.not_eq_true',decide_eq_false_iff_not] at ht
  exact ht (h p hr)

end UsbPdFirmware.FifoReaders
