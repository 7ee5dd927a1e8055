import UsbPdFirmware.FifoBytes
import UsbPdFirmware.FirmwareSystem

/-!
# Reads that fail

Neither Protocol RX nor Protocol TX looks at the result of
`fusb_read_message`. After a read that fails they go on with whatever the
buffer held before, a recycled block or unwritten stack memory.
-/

namespace UsbPdFirmware.FailedReads

open LabelledRuns Machine EventThreads FirmwareState FirmwareSystem
open PdMessage ProtocolRx ProtocolTx FifoBytes

/-! ## After a read -/

/-- Protocol RX, with what it read in a new block. -/
def rxAfterRead (block : ℕ) (msg : PdMsg) : ProtocolRx :=
  ⟨if msg.isControl pdMsgtypeSoftReset then .resetCounter else .checkPoll,some ⟨block,msg⟩⟩

/-- Protocol TX, with what it read as the GoodCRC of its message. -/
def txAfterRead (message : Option MsgPtr) (goodcrc : PdMsg) : ProtocolTx :=
  ⟨.matchCompare goodcrc,message⟩

/-- These are the reads of the threads. -/
theorem rx_reads {rx : ProtocolRx} {pending : Event → Bool} {sh : Shared} {block : ℕ} {pool : List ℕ}
    (hp : rx.point=.readPhy) (hb : sh.pool=block::pool) :
    (protocolRx rx).perform false pending sh=
      some ⟨pending,rxAfterRead block sh.fusbReadMessage.1,{sh.fusbReadMessage.2 with pool := pool}⟩ := by
  have halloc : sh.alloc=some (block,{sh with pool := pool}) := Shared.alloc_eq_some.mpr ⟨pool,hb,rfl⟩
  unfold protocolRx
  rw [hp]
  refine Action.perform_access.mpr ⟨rfl,{sh.fusbReadMessage.2 with pool := pool},
    rxAfterRead block sh.fusbReadMessage.1,?_,rfl⟩
  rw [halloc]
  dsimp only
  rw [fusbReadMessage_pool]
  rfl

theorem tx_reads {tx : ProtocolTx} {pending : Event → Bool} {sh : Shared} (hp : tx.point=.matchRead) :
    (protocolTx tx).perform false pending sh=
      some ⟨pending,txAfterRead tx.message sh.fusbReadMessage.1,sh.fusbReadMessage.2⟩ := by
  unfold protocolTx
  rw [hp]
  rfl

/-! ## Effects -/

/-- Protocol RX is done with a message. -/
def rxRests (rx : ProtocolRx) : Bool := decide (rx.point=.waitPhy)

/-- Protocol TX is done with a message. -/
def txRests (tx : ProtocolTx) : Bool := decide (tx.point=.waitMessage)

/-- The points at which Protocol RX resets, stores a MessageID and posts. -/
def rxEffects : List ProtocolRxPoint := [.resetCounter,.resetStoredId,.resetSignalTx,.storeMessageid,.storePost]

theorem checkPoll_quiet : .checkPoll ∉ rxEffects := by decide

theorem checkCompare_quiet : .checkCompare ∉ rxEffects := by decide

theorem dropMessage_quiet : .dropMessage ∉ rxEffects := by decide

theorem storeMessageid_effect : .storeMessageid ∈ rxEffects := by decide

/-- Flags and memory as each action of a thread meets them. -/
abbrev World : Type := ℕ → (Event → Bool) × Shared

/-- Having read this, Protocol RX has no effect, whatever happens meanwhile. -/
def RxHarmless (block : ℕ) (msg : PdMsg) (world : World) : Prop :=
  ∀ rx, Acts protocolRx rxRests world 0 (rxAfterRead block msg) rx → rx.point ∉ rxEffects

/-- Having read this, Protocol TX does not report success. -/
def TxHarmless (message : Option MsgPtr) (msg : PdMsg) (world : World) : Prop :=
  ∀ tx, Acts protocolTx txRests world 0 (txAfterRead message msg) tx → reportedBy tx≠some .peTxDone

section Effects

variable {block : ℕ} {message : Option MsgPtr} {msg : PdMsg} {world : World}

/-- The poll on the way to the comparison. -/
theorem checkPoll_perform (m : Option MsgPtr) (pending : Event → Bool) (sh : Shared) :
    (protocolRx ⟨.checkPoll,m⟩).perform false pending sh=
      some ⟨clear [.prlrxReset] pending,⟨if pending .prlrxReset then .dropMessage else .checkCompare,m⟩,sh⟩ := by
  refine Action.perform_poll.mpr ⟨rfl,?_⟩
  cases hr : pending .prlrxReset with
  | true => rw [if_neg (List.ne_nil_of_mem (mem_taken.mpr ⟨List.mem_singleton_self _,hr⟩))]; rfl
  | false => rw [taken_eq_nil.mpr (by simpa using hr),if_pos rfl]; rfl

/-- The comparison. -/
theorem checkCompare_perform (m : Option MsgPtr) (pending : Event → Bool) (sh : Shared) :
    (protocolRx ⟨.checkCompare,m⟩).perform false pending sh=
      some ⟨pending,⟨if ((sh.deref m).messageidGet : ℤ)=sh.rxMessageid then .dropMessage
        else .storeSignalTx,m⟩,sh⟩ := by
  refine Action.perform_access_some.mpr ⟨rfl,?_⟩
  split <;> rfl

/-- Giving up a message has no effect. -/
theorem acts_drop {i : ℕ} {m : Option MsgPtr} {rx : ProtocolRx}
    (h : Acts protocolRx rxRests world i ⟨.dropMessage,m⟩ rx) : rx=⟨.dropMessage,m⟩ := by
  rcases (acts_iff rfl rfl).mp h with rfl | h
  · rfl
  · exact absurd h (not_acts_of_rests rfl)

/-- A stale message has no effect on Protocol RX exactly when it is no
Soft_Reset and is given up for a reset or as a duplicate. -/
theorem rxHarmless_iff : RxHarmless block msg world ↔ msg.isControl pdMsgtypeSoftReset=false ∧
    ((world 0).1 .prlrxReset=true ∨ (msg.messageidGet : ℤ)=(world 1).2.rxMessageid) := by
  unfold RxHarmless rxAfterRead
  cases hs : msg.isControl pdMsgtypeSoftReset with
  | true => exact iff_of_false (fun h => h _ (.now rfl) (List.mem_cons_self)) (by simp)
  | false =>
    have hpoll := checkPoll_perform (some ⟨block,msg⟩) (world 0).1 (world 0).2
    have hcompare := checkCompare_perform (some ⟨block,msg⟩) (world 1).1 (world 1).2
    change _=some (Outcome.mk _ (ProtocolRx.mk (if (msg.messageidGet : ℤ)=_ then _ else _) _) _) at hcompare
    change (∀ rx, Acts protocolRx rxRests world 0 ⟨.checkPoll,some ⟨block,msg⟩⟩ rx → _) ↔ _
    cases hr : (world 0).1 .prlrxReset with
    | true =>
      rw [hr,if_pos rfl] at hpoll
      refine iff_of_true (fun rx h => ?_) ⟨rfl,.inl rfl⟩
      rcases (acts_iff rfl hpoll).mp h with rfl | h
      · exact checkPoll_quiet
      · rw [acts_drop h]
        exact dropMessage_quiet
    | false =>
      rw [hr,if_neg Bool.false_ne_true] at hpoll
      by_cases hid : (msg.messageidGet : ℤ)=(world 1).2.rxMessageid
      · rw [if_pos hid] at hcompare
        refine iff_of_true (fun rx h => ?_) ⟨rfl,.inr hid⟩
        rcases (acts_iff rfl hpoll).mp h with rfl | h
        · exact checkPoll_quiet
        · rcases (acts_iff rfl hcompare).mp h with rfl | h
          · exact checkCompare_quiet
          · rw [acts_drop h]
            exact dropMessage_quiet
      · rw [if_neg hid] at hcompare
        refine iff_of_false (fun h => ?_) (by simp [hid])
        have hstore : (protocolRx ⟨.storeSignalTx,some ⟨block,msg⟩⟩).perform false (world 2).1 (world 2).2=
            some ⟨raise [.prltxDiscard] (world 2).1,⟨.storeMessageid,some ⟨block,msg⟩⟩,(world 2).2⟩ := rfl
        exact h _ (.later rfl hpoll (.later rfl hcompare (.later rfl hstore (.now rfl)))) storeMessageid_effect

/-- A stale message makes Protocol TX report success exactly when it is a
GoodCRC with the number of the message sent. -/
theorem txHarmless_iff : TxHarmless message msg world ↔
    ¬(msg.isControl pdMsgtypeGoodcrc=true ∧ msg.messageidGet=(world 0).2.txMessageidcounter) := by
  unfold TxHarmless txAfterRead
  have hcompare : (protocolTx ⟨.matchCompare msg,message⟩).perform false (world 0).1 (world 0).2=
      some ⟨(world 0).1,if msg.isControl pdMsgtypeGoodcrc ∧ msg.messageidGet=(world 0).2.txMessageidcounter
        then ⟨.messageSent,message⟩ else ⟨.transmissionError,message⟩,(world 0).2⟩ := rfl
  by_cases hm : msg.isControl pdMsgtypeGoodcrc ∧ msg.messageidGet=(world 0).2.txMessageidcounter
  · rw [if_pos hm] at hcompare
    refine iff_of_false (fun h => ?_) (not_not.mpr hm)
    exact h _ (.later rfl hcompare (.later rfl rfl (.now rfl))) rfl
  · rw [if_neg hm] at hcompare
    refine iff_of_true (fun tx h => ?_) hm
    rcases (acts_iff rfl hcompare).mp h with rfl | h
    · intro hr
      cases hr
    · rcases (acts_iff rfl rfl).mp h with rfl | h
      · intro hr
        cases hr
      · rcases (acts_iff rfl rfl).mp h with rfl | h
        · intro hr
          cases hr
        · exact absurd h (not_acts_of_rests rfl)

end Effects

/-! ## After a failed read -/

/-- After a read that fails the buffer alone decides: Protocol RX has no
effect exactly when it held no Soft_Reset and its MessageID is the stored one
or a reset is pending, and Protocol TX reports no success exactly when it held
no GoodCRC with the number of the message. -/
theorem failedRead_harmless_iff {empty : BitVec 8} {buf : PdMsg} {fifo : List (BitVec 8)}
    (hfail : (fusbReadMessage empty buf fifo).1.1=1) (block : ℕ) (message : Option MsgPtr) (world : World) :
    (RxHarmless block (fusbReadMessage empty buf fifo).1.2 world ↔
      buf.isControl pdMsgtypeSoftReset=false ∧
        ((world 0).1 .prlrxReset=true ∨ (buf.messageidGet : ℤ)=(world 1).2.rxMessageid)) ∧
    (TxHarmless message (fusbReadMessage empty buf fifo).1.2 world ↔
      ¬(buf.isControl pdMsgtypeGoodcrc=true ∧ buf.messageidGet=(world 0).2.txMessageidcounter)) := by
  rw [fusbReadMessage_failed hfail]
  exact ⟨rxHarmless_iff,txHarmless_iff⟩

/-- A cleared buffer is a duplicate when the stored MessageID is zero, and no
GoodCRC. -/
theorem failedRead_harmless_cleared :
    RxHarmless 0 (fusbReadMessage 0 ⟨0,fun _ => 0⟩ []).1.2
        (fun _ => (fun _ => false,{initial.shared with rxMessageid := 0})) ∧
      TxHarmless none (fusbReadMessage 0 ⟨0,fun _ => 0⟩ []).1.2 (fun _ => (fun _ => false,initial.shared)) := by
  have hfail : (fusbReadMessage 0 ⟨0,fun _ => 0⟩ []).1.1=1 := by decide
  exact ⟨(failedRead_harmless_iff hfail 0 none _).1.mpr ⟨by decide,.inr rfl⟩,
    (failedRead_harmless_iff hfail 0 none _).2.mpr (by decide)⟩

/-- A message arrives and the PHY is reset before it is read. -/
def flushed : List Label :=
  [.env (.sourceMessage (controlMessage pdMsgtypePing 0)),.intN,.intN,.tx,.rx]

/-- Protocol RX reads from the empty FIFO, stores the MessageID of the block
and posts the block. -/
theorem failedRead_posts : ∃ s s' : System, firmware.Reach anyStep s ∧ s.rx.point=.readPhy ∧
    s.shared.phy.rxFifo=[] ∧ (fusbReadMessage 0 s.shared.junk []).1=(1,s.shared.fusbReadMessage.1) ∧
    ¬RxHarmless (s.shared.pool.headD 0) (fusbReadMessage 0 s.shared.junk []).1.2
      (fun _ => (s.pending,s.shared)) ∧
    firmware.follow anyStep (List.replicate 6 .rx) s=some s' ∧
    s'.shared.rxMessageid≠s.shared.rxMessageid ∧ s'.shared.peMailbox≠s.shared.peMailbox := by
  obtain ⟨s,hr,ht⟩ := exists_reach_of_follow firmware anyStep flushed
    (fun s => decide (s.rx.point=.readPhy ∧ s.shared.phy.rxFifo.length=0 ∧
      s.pending .prlrxReset=false ∧ (s.shared.junk.messageidGet : ℤ)≠s.shared.rxMessageid) &&
      (firmware.follow anyStep (List.replicate 6 .rx) s).any fun s' =>
        decide (s'.shared.rxMessageid≠s.shared.rxMessageid ∧
          s'.shared.peMailbox.length≠s.shared.peMailbox.length)) (by decide +kernel)
  rw [Bool.and_eq_true,decide_eq_true_eq] at ht
  obtain ⟨⟨hp,hf,hreset,hid⟩,hafter⟩ := ht
  obtain ⟨s',hs',ht'⟩ := (Option.any_eq_true _ _).mp hafter
  obtain ⟨hstored,hmailbox⟩ := of_decide_eq_true ht'
  have hempty : s.shared.phy.rxFifo=[] := List.length_eq_zero_iff.mp hf
  have hfail : (fusbReadMessage 0 s.shared.junk []).1.1=1 := fusbReadMessage_fails_iff.mpr (by decide)
  have hread : s.shared.fusbReadMessage.1=s.shared.junk := by
    unfold Shared.fusbReadMessage
    rw [hempty]
  refine ⟨s,s',hr,hp,hempty,?_,?_,hs',hstored,fun h => hmailbox (congrArg List.length h)⟩
  · rw [hread]
    exact Prod.ext hfail (fusbReadMessage_failed hfail)
  · rw [fusbReadMessage_failed hfail,rxHarmless_iff]
    rintro ⟨-,hpending | hsame⟩
    · exact absurd (hreset.symm.trans hpending) (by decide)
    · exact hid hsame

end UsbPdFirmware.FailedReads
