import UsbPdFirmware.BlockCustody
import UsbPdFirmware.GivingUp

/-!
# One owner for every message block

The Policy Engine and Protocol RX amid anything else that leaves the pool,
the mailbox and the stored capabilities alone. Blocks go from place to place,
so that each of the four has exactly one owner in every state.
-/

namespace UsbPdFirmware.BlockOwners

open PdMessage DevicePolicy LabelledRuns Machine EventThreads FirmwareState
open PolicyEngine ProtocolRx ProtocolTx HardReset FirmwareSystem OwnershipLedger BlockCustody

/-! ## Actions as exchanges -/

section Exchanges

variable {pe : PolicyEngine} {rx : ProtocolRx} {pending : Event → Bool} {sh sh' : Shared}

/-- Nothing moves. -/
theorem exchange_of_same {pe' : PolicyEngine} {rx' : ProtocolRx} (hh : hand pe'=hand pe)
    (hr : pe'.lastDpmRequest=pe.lastDpmRequest) (hs : pe'.sending=pe.sending)
    (hx : rxHand rx'=rxHand rx) (hp : sh'.pool=sh.pool) (hq : sh'.peMailbox=sh.peMailbox)
    (hc : sh'.dpm.capabilities=sh.dpm.capabilities) :
    Exchange (held pe rx sh) (held pe' rx' sh') := by
  have hsame : held pe' rx' sh'=held pe rx sh := by
    funext place
    cases place <;> simp only [held,hh,hr,hs,hx,hp,hq,hc]
  rw [hsame]
  exact .refl _

/-- A list begins with one more item. -/
theorem coe_cons (b : ℕ) (l : List ℕ) : (↑(b::l) : Multiset ℕ)=↑l+{b} := by
  rw [← Multiset.cons_coe,← Multiset.singleton_add,Multiset.add_comm]

/-- A pool after a block was freed, if there was one. -/
theorem free?_pool (sh : Shared) (p : Option MsgPtr) :
    (↑(sh.free? p).pool : Multiset ℕ)=↑sh.pool+blockOf p := by
  cases p with
  | none => exact (Multiset.add_zero _).symm
  | some m => exact coe_cons _ _

/-- A first Request takes a block. -/
theorem request_exchange {request : MsgPtr} {pool : List ℕ} (hb : RequestFrom pe sh request pool) :
    Exchange (held pe rx sh)
      (held {pe with lastDpmRequest := some request} rx {sh with pool := pool}) := by
  rcases hb with ⟨hr,rfl⟩ | ⟨hr,hp⟩
  · exact exchange_of_same rfl hr.symm rfl rfl rfl rfl rfl
  · have hhand : hand {pe with lastDpmRequest := some request}=hand pe := rfl
    refine .move .free .request {request.block} fun place => ?_
    cases place <;> simp [held,only,hr,hp,hhand,coe_cons]

/-- New capabilities replace the stored ones, which are freed. -/
theorem evaluate_exchange {pe' : PolicyEngine} {request : MsgPtr} (hh : hand pe=pe.message)
    (hh' : hand pe'=none) (hr : pe.lastDpmRequest=some request)
    (hr' : pe'.lastDpmRequest=some (evaluateCapability pe.message request sh).1)
    (hs : pe'.sending=pe.sending) :
    Exchange (held pe rx sh) (held pe' rx (evaluateCapability pe.message request sh).2) := by
  have hblock : blockOf pe'.lastDpmRequest=blockOf pe.lastDpmRequest := by
    rw [hr,hr']
    rfl
  cases hm : pe.message with
  | none =>
    refine ⟨0,0,funext fun place => ?_,rfl⟩
    rw [hm] at hh
    cases place <;> simp [held,hh,hh',hs,hblock,evaluateCapability,pdbsDpmEvaluateCapability,Dpm.record]
  | some c =>
    rw [hm] at hh
    refine ⟨only .stored (blockOf sh.dpm.capabilities)+only .hand {c.block},
      only .free (blockOf sh.dpm.capabilities)+only .stored {c.block},funext fun place => ?_,?_⟩
    · cases place <;>
        simp [held,only,hh,hh',hs,hblock,free?_pool,evaluateCapability,pdbsDpmEvaluateCapability,Dpm.record,add_comm]
    · rw [total_add,total_add,total_only,total_only,total_only,total_only]

/-- Every action of the Policy Engine is an exchange. -/
theorem custody_exchange {o : Outcome Event PolicyEngine Shared} (hc : Custody pe sh o) :
    Exchange (held pe rx sh) (held o.loc rx o.shared) := by
  cases hc with
  | keep h => exact exchange_of_same h.hand h.request h.sending rfl h.pool h.peMailbox h.stored
  | @fetch pending m rest hh hq =>
    have hhand : hand {pe with message := some m,point := .handle}=some m := rfl
    refine .move .mailbox .hand {m.block} fun place => ?_
    cases place <;> simp [held,only,hh,hhand,hq,coe_cons,PolicyEngine.at_]
  | @release o m hh hh' hr hs hp hq ht hc =>
    refine .move .hand .free {m.block} fun place => ?_
    cases place <;> simp [held,only,hh,hh',hr,hs,hp,hq,hc,coe_cons]
  | @send pending m pool hh hs hp =>
    have hhand : hand {pe with sending := some m,point := .signalTx}=none := rfl
    refine .move .free .sending {m.block} fun place => ?_
    cases place <;> simp [held,only,hh,hhand,hs,hp,coe_cons,PolicyEngine.at_,postTx]
  | @request pending m hh hr => exact exchange_of_same hh.symm rfl rfl rfl rfl rfl rfl
  | @reclaim o result hp hh hh' hr hs ho =>
    refine .move .sending .free (blockOf pe.sending) fun place => ?_
    cases place <;> simp [held,only,hh,hh',hr,hs,ho,free?_pool]
  | @evaluate pending request ppsIndex lastPps pool hh hb =>
    refine (request_exchange hb).trans (evaluate_exchange ?_ ?_ ?_ ?_ ?_)
    · exact hh
    all_goals rfl

/-- Protocol RX answers for no message before a read and after a post. -/
theorem rxHand_none {p : ProtocolRxPoint} (hp : rx.point=p) (h : p ∉ rxHolding) : rxHand rx=none :=
  if_neg (by rw [hp]; exact h)

theorem rxHand_message {p : ProtocolRxPoint} (hp : rx.point=p) (h : p ∈ rxHolding) :
    rxHand rx=rx.message := if_pos (by rw [hp]; exact h)

/-- Every action of Protocol RX is an exchange, if the mailbox has room. -/
theorem rx_exchange {o : Outcome Event ProtocolRx Shared} (h : RxStep rx pending sh o)
    (hroom : ∀ m, rx.point=.storePost → rx.message=some m →
      sh.peMailbox.length < pdbMsgPoolSize) :
    Exchange (held pe rx sh) (held pe o.loc o.shared) := by
  have hpoint {p q : ProtocolRxPoint} (hp : rx.point=p) (hx : p ∈ rxHolding ↔ q ∈ rxHolding) :
      rxHand (ProtocolRx.at_ rx q)=rxHand rx := by
    unfold rxHand
    rw [hp]
    exact if_congr hx.symm rfl rfl
  have hsame {p q : ProtocolRxPoint} {sh' : Shared} (hp : rx.point=p)
      (hx : p ∈ rxHolding ↔ q ∈ rxHolding) (hpool : sh'.pool=sh.pool)
      (hq : sh'.peMailbox=sh.peMailbox) (hd : sh'.dpm=sh.dpm) :
      Exchange (held pe rx sh) (held pe (ProtocolRx.at_ rx q) sh') :=
    exchange_of_same rfl rfl rfl (hpoint hp hx) hpool hq (by rw [hd])
  cases h with
  | heedReset hp hr => exact hsame hp (by decide) rfl rfl rfl
  | heedGcrcsent hp hr hg => exact hsame hp (by decide) rfl rfl rfl
  | @read block pool hp hb =>
    have hread := fusbReadMessage_eq sh
    have hmail : sh.fusbReadMessage.2.peMailbox=sh.peMailbox ∧ sh.fusbReadMessage.2.dpm=sh.dpm := by
      rw [hread]
      exact ⟨rfl,rfl⟩
    have hhand (c : Prop) [Decidable c] (m : MsgPtr) :
        rxHand ⟨if c then .resetCounter else .checkPoll,some m⟩=some m := by
      by_cases hc : c
      · rw [if_pos hc]
        rfl
      · rw [if_neg hc]
        rfl
    refine .move .free .rx {block} fun place => ?_
    cases place <;> simp [held,only,rxHand_none hp (by decide),hhand,hmail,hb,coe_cons]
  | resetCounter hp => exact hsame hp (by decide) rfl rfl rfl
  | resetStoredId hp => exact hsame hp (by decide) rfl rfl rfl
  | resetSignalTx hp => exact hsame hp (by decide) rfl rfl rfl
  | pollOn hp hr =>
    rcases hp with hp | hp
    · exact hsame hp (by rw [hp]; decide) rfl rfl rfl
    · exact hsame hp (by rw [hp]; decide) rfl rfl rfl
  | pollReset hp hr =>
    rcases hp with hp | hp
    · exact hsame hp (by decide) rfl rfl rfl
    · exact hsame hp (by decide) rfl rfl rfl
  | duplicate hp hid => exact hsame hp (by decide) rfl rfl rfl
  | accept hp hid => exact hsame hp (by decide) rfl rfl rfl
  | drop hp =>
    have hhand : rxHand ⟨.waitPhy,none⟩=none := rfl
    refine .move .rx .free (blockOf rx.message) fun place => ?_
    cases place <;> simp [held,only,rxHand_message hp (by decide),hhand,free?_pool]
  | storeSignalTx hp => exact hsame hp (by decide) rfl rfl rfl
  | storeMessageid hp => exact hsame hp (by decide) rfl rfl rfl
  | @post m hp hm =>
    have hhand : rxHand (ProtocolRx.at_ rx .storeSignalPe)=none := rfl
    refine .move .rx .mailbox {m.block} fun place => ?_
    cases place <;> simp [held,only,rxHand_message hp (by decide),hhand,hm,post_of_room (hroom m hp hm)]
    exact (Multiset.coe_add _ _).symm
  | storeSignalPe hp => exact hsame hp (by decide) rfl rfl rfl

end Exchanges

/-! ## The machine -/

/-- Who acts. -/
inductive Mover where
  /-- The Policy Engine, or its wait expires. -/
  | pe (expired : Bool)
  | rx
  /-- Anything else, which would make the system look like this. -/
  | others (s' : System)

/-- The system as the others would have it, save for what is not theirs. -/
def aside (s s' : System) : System :=
  {s' with
    pe := s.pe
    rx := s.rx
    shared := {s'.shared with
      peMailbox := s.shared.peMailbox
      pool := s.shared.pool
      dpm := {s'.shared.dpm with capabilities := s.shared.dpm.capabilities}}}

/-- The Policy Engine and Protocol RX amid anything else. A failed allocation
ends a run. -/
def receiver : Machine System Mover where
  start := initial
  step who s := match who with
    | .pe expired => ((policyEngine s.pe).perform expired s.pending s.shared).map s.withPe
    | .rx => ((protocolRx s.rx).perform false s.pending s.shared).map s.withRx
    | .others s' => some (aside s s')

/-- Who takes a step of the firmware. -/
def mover (l : Label) (s' : System) : Mover :=
  match l with
  | .pe => .pe false
  | .peTimeout => .pe true
  | .rx => .rx
  | _ => .others s'

section Frames

variable {pending : Event → Bool} {sh : Shared}

/-- Protocol TX takes and frees no block. -/
theorem txStep_pool {tx : ProtocolTx} {o : Outcome Event ProtocolTx Shared}
    (h : TxStep tx pending sh o) : o.shared.pool=sh.pool := by
  cases h with
  | matchRead hp =>
    rw [fusbReadMessage_eq]
  | discard hp => cases tx.message <;> rfl
  | _ => rfl

theorem hrStep_pool {hr : HardReset} {o : Outcome Event HardReset Shared} (h : HrStep hr pending sh o) :
    o.shared.pool=sh.pool := by
  cases h <;> rfl

theorem intNStep_pool {intN : IntN} {o : Outcome Event IntN Shared}
    (h : IntNStep intN pending sh o) : o.shared.pool=sh.pool := by
  cases h <;> rfl

theorem environment_pool {e : Environment} {s s' : System} (h : environment e s=some s') :
    s'.shared.pool=s.shared.pool ∧ s'.shared.dpm.capabilities=s.shared.dpm.capabilities := by
  cases e
  case ppsTimer =>
    simp only [environment,Option.ite_none_right_eq_some,Option.some.injEq] at h
    obtain ⟨-,rfl⟩ := h
    exact ⟨rfl,rfl⟩
  all_goals
    cases h
    exact ⟨rfl,rfl⟩

end Frames

/-- Every step of the firmware is one here. -/
theorem firmware_receives {s s' : System} {l : Label} (h : firmware.step l s=some s') :
    receiver.step (mover l s') s=some s' := by
  have hothers (hpe : s'.pe=s.pe) (hrx : s'.rx=s.rx) (hq : s'.shared.peMailbox=s.shared.peMailbox)
      (hp : s'.shared.pool=s.shared.pool)
      (hc : s'.shared.dpm.capabilities=s.shared.dpm.capabilities) : some (aside s s')=some s' := by
    unfold aside
    rw [← hpe,← hrx,← hq,← hp,← hc]
  cases firmware_moved h with
  | pe hl he hp =>
    rw [expired_eq hl he] at hp
    rcases Label.eq_of_isPe hl with rfl | rfl
    · exact Option.map_eq_some_iff.mpr ⟨_,hp,rfl⟩
    · exact Option.map_eq_some_iff.mpr ⟨_,hp,rfl⟩
  | rx hr => exact h
  | tx ht => exact hothers rfl rfl ht.frame.peMailbox (txStep_pool ht) (congrArg Dpm.capabilities ht.frame.dpm)
  | hr hl hh =>
    rcases hl with rfl | rfl
    · exact hothers rfl rfl hh.frame.peMailbox (hrStep_pool hh) (congrArg Dpm.capabilities hh.frame.dpm)
    · exact hothers rfl rfl hh.frame.peMailbox (hrStep_pool hh) (congrArg Dpm.capabilities hh.frame.dpm)
  | intN hi => exact hothers rfl rfl hi.frame.peMailbox (intNStep_pool hi) (congrArg Dpm.capabilities hi.frame.dpm)
  | env he =>
    have hframe := environment_frame he
    exact hothers hframe.pe hframe.rx hframe.peMailbox (environment_pool he).1 (environment_pool he).2

/-! ## Conservation -/

/-- The blocks of every place in a system. -/
def owned (s : System) : Ledger Place ℕ := held s.pe s.rx s.shared

/-- Every block is somewhere, once, and the pointers are tidy. -/
structure Conserved (s : System) : Prop where
  /-- The blocks. -/
  blocks : total (owned s)=Multiset.range pdbMsgPoolSize
  /-- The pointers. -/
  tidy : Tidy s.pe

section Conserved

variable {s s' : System} {who : Mover}

/-- While Protocol RX has a message to post, the mailbox has room. -/
theorem Conserved.room (h : Conserved s) {m : MsgPtr} (hp : s.rx.point=.storePost)
    (hm : s.rx.message=some m) : s.shared.peMailbox.length < pdbMsgPoolSize := by
  have hle := Multiset.card_le_card (add_le_total (owned s) (show Place.rx≠.mailbox by decide))
  have hrx : owned s .rx={m.block} := by
    change blockOf (rxHand s.rx)=_
    rw [rxHand_message hp (by decide),hm]
    rfl
  have hmail : Multiset.card (owned s .mailbox)=s.shared.peMailbox.length := by
    change Multiset.card (↑(s.shared.peMailbox.map MsgPtr.block) : Multiset ℕ)=_
    rw [Multiset.coe_card,List.length_map]
  rw [h.blocks,Multiset.card_add,hrx,hmail,Multiset.card_singleton,Multiset.card_range] at hle
  omega

theorem conserved_initial : Conserved initial := by
  refine ⟨by decide,fun _ => rfl,fun hl => ?_,fun hs => ?_⟩
  · exact absurd hl Bool.false_ne_true
  · exact absurd rfl hs

/-- Every step conserves the blocks. -/
theorem Conserved.step (h : Conserved s) (hstep : receiver.step who s=some s') : Conserved s' := by
  cases who with
  | pe expired =>
    obtain ⟨o,ho,rfl⟩ := Option.map_eq_some_iff.mp hstep
    have hord := policyEngine_orderly h.tidy ho
    exact ⟨(custody_exchange hord.custody).total.trans h.blocks,hord.tidy⟩
  | rx =>
    obtain ⟨o,ho,rfl⟩ := Option.map_eq_some_iff.mp hstep
    exact ⟨(rx_exchange (protocolRx_step ho) fun _ hp hm => h.room hp hm).total.trans h.blocks,h.tidy⟩
  | others t =>
    cases hstep
    exact ⟨h.blocks,h.tidy⟩

theorem receiver_conserved (h : receiver.Reach anyStep s) : Conserved s :=
  h.invariant conserved_initial fun _ _ _ _ hc _ hstep => hc.step hstep

end Conserved

/-- Each of the four blocks has exactly one owner in every state, and nobody
holds anything else. -/
theorem one_owner {s : System} (h : receiver.Reach anyStep s) :
    (∀ block < pdbMsgPoolSize, ∃! place, block ∈ owned s place) ∧
      ∀ place, (owned s place).Nodup ∧ ∀ block ∈ owned s place, block < pdbMsgPoolSize := by
  have hblocks := (receiver_conserved h).blocks
  have hnodup : (total (owned s)).Nodup := by
    rw [hblocks]
    exact Multiset.nodup_range _
  refine ⟨fun block hb => existsUnique_place hnodup ?_,fun place => ⟨?_,fun block hb => ?_⟩⟩
  · rw [hblocks]
    exact Multiset.mem_range.mpr hb
  · exact Multiset.nodup_of_le (le_total _ place) hnodup
  · have hmem := Multiset.mem_of_le (le_total (owned s) place) hb
    rw [hblocks] at hmem
    exact Multiset.mem_range.mp hmem

/-- The runs of the firmware are runs here. -/
theorem firmware_reach {s : System} (h : firmware.Reach anyStep s) : receiver.Reach anyStep s :=
  Reach.imitate (M := firmware) (A := receiver) rfl (fun _ _ _ => firmware_receives) h

/-- After an explicit contract the first block is the capabilities'. -/
theorem one_owner_negotiate : ∃ s, receiver.Reach anyStep s ∧ s.pe.state=.sinkReady ∧
    0 ∈ owned s .stored ∧ ∃! place, 0 ∈ owned s place := by
  obtain ⟨s,hr,hs⟩ := exists_reach_of_follow firmware anyStep negotiate
    (fun s => decide (s.pe.state=.sinkReady ∧ 0 ∈ owned s .stored)) (by decide +kernel)
  obtain ⟨hs,hmem⟩ := of_decide_eq_true hs
  exact ⟨s,firmware_reach hr,hs,hmem,(one_owner (firmware_reach hr)).1 0 (by decide)⟩

/-! ## Exhaustion -/

/-- Blocks that wait for the Policy Engine, that it works on, and that it and
the manager keep. -/
def engaged (s : System) : ℕ :=
  s.shared.peMailbox.length+(hand s.pe).toList.length+s.pe.sending.toList.length+
    s.pe.lastDpmRequest.toList.length+s.shared.dpm.capabilities.toList.length

theorem card_blockOf (p : Option MsgPtr) : Multiset.card (blockOf p)=p.toList.length := by
  cases p <;> rfl

/-- When Protocol RX is to read a message, a block is free if and only if the
others are engaged in fewer than four. -/
theorem free_iff_engaged {s : System} (h : receiver.Reach anyStep s) (hp : s.rx.point=.readPhy) :
    s.shared.pool≠[] ↔ engaged s < pdbMsgPoolSize := by
  have hcard := congrArg Multiset.card (receiver_conserved h).blocks
  have hsum : Multiset.card (total (owned s))=s.shared.pool.length+engaged s := by
    unfold total
    rw [Multiset.card_sum]
    change ∑ place ∈ {.free,.rx,.mailbox,.hand,.request,.stored,.sending},
      Multiset.card (owned s place)=_
    simp [owned,held,engaged,card_blockOf,rxHand_none hp (by decide)]
    omega
  rw [hsum,Multiset.card_range] at hcard
  rw [← List.length_pos_iff]
  omega

/-- In a contract two blocks are engaged, and one of the others is free for a
Ping. -/
theorem free_iff_engaged_ping : ∃ s, receiver.Reach anyStep s ∧ s.rx.point=.readPhy ∧
    engaged s=2 ∧ s.shared.pool≠[] := by
  obtain ⟨s,hr,hs⟩ := exists_reach_of_follow firmware anyStep
    (negotiate++[.env (.sourceMessage (controlMessage pdMsgtypePing 3)),.intN,.intN,.rx])
    (fun s => decide (s.rx.point=.readPhy ∧ engaged s=2)) (by decide +kernel)
  obtain ⟨hp,hengaged⟩ := of_decide_eq_true hs
  have hfew : engaged s < pdbMsgPoolSize := by
    rw [hengaged]
    decide
  exact ⟨s,firmware_reach hr,hp,hengaged,(free_iff_engaged (firmware_reach hr) hp).mpr hfew⟩

/-- The source is silent until it is given up on, and then sends its
capabilities time and again. -/
def lateSource (ids : List ℕ) : List Label :=
  List.flatten [powerUp,GivingUp.threeFailures,[.peTimeout,.pe],
    ids.flatMap fun id => deliver (sourceCapabilities id)++[.pe]]

/-- The fifth message finds no block. -/
theorem exists_no_block : ∃ s, receiver.Reach anyStep s ∧ s.rx.point=.readPhy ∧ s.shared.pool=[] := by
  obtain ⟨s,hr,hs⟩ := exists_reach_of_follow firmware anyStep
    (lateSource [1,2,3,4]++[.env (.sourceMessage (sourceCapabilities 5)),.intN,.intN,.rx])
    (fun s => decide (s.rx.point=.readPhy ∧ s.shared.pool=[])) (by decide +kernel)
  exact ⟨s,firmware_reach hr,of_decide_eq_true hs⟩

end UsbPdFirmware.BlockOwners
