import UsbPdFirmware.BlockOwners

/-!
# One content for every block

A pointer of the firmware carries the message behind it by value, while in
the pool every pointer to a block leads to the same memory. Here the blocks
have contents of their own. A step of the firmware writes them, and every
pointer then shows what its block holds. So a pointer that Protocol TX keeps
into a freed and recycled block shows the message of the next owner, and
writes into it.
-/

namespace UsbPdFirmware.SharedBlocks

open PdMessage LabelledRuns Machine EventThreads FirmwareState FirmwareSystem
open PolicyEngine ProtocolRx ProtocolTx HardReset OwnershipLedger BlockCustody BlockOwners

/-! ## The machine -/

/-- The firmware with the memory of the pool. -/
structure Pooled extends System where
  /-- What every block holds. -/
  contents : ℕ → PdMsg

/-- The message that a step puts into its block: Protocol RX reads one,
Protocol TX sets the MessageID of one, and the Policy Engine builds a Request
or another message. -/
def written (s : System) (l : Label) (s' : System) : Option MsgPtr :=
  if l.isRx then if s.rx.point=.readPhy then s'.rx.message else none
  else if l.isTx then if s.tx.point=.constructHeader then s'.tx.message else none
  else if l.isPe && decide (s.pe.point=.start) then
    if s.pe.state=.sinkEvalCap then s'.pe.lastDpmRequest else s'.pe.sending
  else none

/-- A step returns a block to the pool. -/
def freed (s s' : System) (block : ℕ) : Bool :=
  decide (block ∈ s'.shared.pool) && decide (block ∉ s.shared.pool)

/-- The contents after a step. In a freed block the pool keeps a link where the
header was. -/
def stored (s : System) (l : Label) (s' : System) (contents : ℕ → PdMsg) (block : ℕ) : PdMsg :=
  match (written s l s').filter fun w => w.block==block with
  | some w => w.msg
  | none =>
    if freed s s' block then {contents block with hdr := s.shared.junk.hdr} else contents block

/-- A pointer as its block has it. -/
def load (contents : ℕ → PdMsg) (m : MsgPtr) : MsgPtr := {m with msg := contents m.block}

/-- The system with every pointer replaced. -/
def mapPointers (f : MsgPtr → MsgPtr) (s : System) : System :=
  {s with
    pe := {s.pe with
      message := s.pe.message.map f
      lastDpmRequest := s.pe.lastDpmRequest.map f
      sending := s.pe.sending.map f}
    rx := {s.rx with message := s.rx.message.map f}
    tx := {s.tx with message := s.tx.message.map f}
    shared := {s.shared with
      peMailbox := s.shared.peMailbox.map f
      txMailbox := s.shared.txMailbox.map f
      dpm := {s.shared.dpm with capabilities := s.shared.dpm.capabilities.map f}}}

/-- A system as the contents of the pool have it. -/
def loaded (contents : ℕ → PdMsg) (s : System) : Pooled :=
  ⟨mapPointers (load contents) s,contents⟩

/-- The firmware over a pool whose blocks have one content each. -/
def sharing : Machine Pooled Label where
  start := ⟨initial,fun _ => initial.shared.junk⟩
  step l s := (firmware.step l s.toSystem).map fun s' =>
    loaded (stored s.toSystem l s' s.contents) s'

/-- Every step is one of the firmware. -/
theorem sharing_step {s t : Pooled} {l : Label} :
    sharing.step l s=some t ↔ ∃ s', firmware.step l s.toSystem=some s' ∧
      t=loaded (stored s.toSystem l s' s.contents) s' := by
  change Option.map _ _=_ ↔ _
  rw [Option.map_eq_some_iff]
  exact exists_congr fun s' => and_congr_right fun _ => eq_comm

/-- A step puts a message into a block, or returns the block to the pool. -/
def writes (s : System) (l : Label) (block : ℕ) : Bool :=
  (firmware.step l s).any fun s' =>
    ((written s l s').any fun w => w.block==block) || freed s s' block

/-! ## What a pointer shows -/

/-- Every pointer shows what its block holds. -/
def Coherent (s : Pooled) : Prop := mapPointers (load s.contents) s.toSystem=s.toSystem

theorem sharing_coherent {allowed : Pooled → Label → Prop} {s : Pooled}
    (h : sharing.Reach allowed s) : Coherent s := by
  have hstart : Coherent sharing.start := rfl
  refine h.invariant hstart fun s l t _ _ _ hs => ?_
  obtain ⟨s',-,rfl⟩ := sharing_step.mp hs
  simp only [Coherent,loaded,mapPointers,Option.map_map,List.map_map]
  rfl

section Shown

variable {s : Pooled} {m : MsgPtr}

theorem msg_of_load {contents : ℕ → PdMsg} {p : Option MsgPtr} (h : p.map (load contents)=p)
    (hm : p=some m) : contents m.block=m.msg := by
  rw [hm] at h
  exact congrArg MsgPtr.msg (Option.some.inj h)

/-- Protocol RX sees what is in its block. -/
theorem Coherent.rx (h : Coherent s) (hm : s.rx.message=some m) : s.contents m.block=m.msg :=
  msg_of_load (congrArg (fun t : System => t.rx.message) h) hm

/-- So does Protocol TX. -/
theorem Coherent.tx (h : Coherent s) (hm : s.tx.message=some m) : s.contents m.block=m.msg :=
  msg_of_load (congrArg (fun t : System => t.tx.message) h) hm

end Shown

section Stored

variable {s s' : System} {l : Label} {contents : ℕ → PdMsg} {block : ℕ}

/-- What is written is what the block holds. -/
theorem stored_of_written {w : MsgPtr} (hw : written s l s'=some w) :
    stored s l s' contents w.block=w.msg := by
  unfold stored
  rw [hw,Option.filter_some,beq_self_eq_true]
  rfl

/-- A block that is neither written nor freed holds what it held. -/
theorem stored_eq_self (hw : ∀ w ∈ written s l s', w.block≠block) (hf : freed s s' block=false) :
    stored s l s' contents block=contents block := by
  have hnone : (written s l s').filter (fun w => w.block==block)=none := by
    rw [Option.filter_eq_none_iff]
    intro w hmem
    rw [beq_iff_eq]
    exact hw w hmem
  unfold stored
  rw [hnone,hf]
  rfl

/-- The same for a block that a step spares. -/
theorem stored_of_not_writes (h : firmware.step l s=some s') (hw : writes s l block=false) :
    stored s l s' contents block=contents block := by
  unfold writes at hw
  rw [h,Option.any_some,Bool.or_eq_false_iff] at hw
  refine stored_eq_self (fun w hmem hb => ?_) hw.2
  have hany : ((written s l s').any fun w => w.block==block)=true := by
    rw [hmem,Option.any_some,hb,beq_self_eq_true]
  rw [hw.1] at hany
  cases hany

/-- Who writes what. -/
theorem written_cases {w : MsgPtr} (h : w ∈ written s l s') :
    (l.isRx=true ∧ s.rx.point=.readPhy ∧ s'.rx.message=some w) ∨
    (l.isTx=true ∧ s.tx.point=.constructHeader ∧ s'.tx.message=some w) ∨
    l.isPe=true ∧ (s'.pe.lastDpmRequest=some w ∨ s'.pe.sending=some w) := by
  unfold written at h
  split_ifs at h with hx hp htx hp hpe hs
  · exact .inl ⟨hx,hp,h⟩
  · cases h
  · exact .inr (.inl ⟨htx,hp,h⟩)
  · cases h
  · exact .inr (.inr ⟨(Bool.and_eq_true_iff.mp hpe).1,.inl h⟩)
  · exact .inr (.inr ⟨(Bool.and_eq_true_iff.mp hpe).1,.inr h⟩)
  · cases h

end Stored

/-! ## Blocks do not move -/

section Owners

variable {f : MsgPtr → MsgPtr}

theorem blockOf_map (hb : ∀ m, (f m).block=m.block) (p : Option MsgPtr) :
    blockOf (p.map f)=blockOf p := by
  cases p with
  | none => rfl
  | some m => exact congrArg (fun block => ({block} : Multiset ℕ)) (hb m)

theorem hand_mapPointers (s : System) : hand (mapPointers f s).pe=(hand s.pe).map f := by
  have hpoint : (mapPointers f s).pe.point=s.pe.point := rfl
  unfold hand
  rw [hpoint]
  cases s.pe.point with
  | start => exact (apply_ite (Option.map f) (s.pe.state=.sinkEvalCap) s.pe.message none).symm
  | _ => rfl

theorem rxHand_mapPointers (s : System) : rxHand (mapPointers f s).rx=(rxHand s.rx).map f := by
  unfold rxHand
  exact (apply_ite (Option.map f) (s.rx.point ∈ rxHolding) s.rx.message none).symm

/-- Every block stays with its owner. -/
theorem owned_mapPointers (hb : ∀ m, (f m).block=m.block) (s : System) :
    owned (mapPointers f s)=owned s := by
  funext place
  cases place with
  | free => rfl
  | rx =>
    change blockOf (rxHand (mapPointers f s).rx)=_
    rw [rxHand_mapPointers,blockOf_map hb]
    rfl
  | mailbox =>
    change (↑((s.shared.peMailbox.map f).map MsgPtr.block) : Multiset ℕ)=_
    rw [List.map_map,show MsgPtr.block ∘ f=MsgPtr.block from funext hb]
    rfl
  | hand =>
    change blockOf (hand (mapPointers f s).pe)=_
    rw [hand_mapPointers,blockOf_map hb]
    rfl
  | request => exact blockOf_map hb _
  | stored => exact blockOf_map hb _
  | sending => exact blockOf_map hb _

/-- What the Policy Engine's pointers are good for stays the same. -/
theorem tidy_mapPointers {s : System} (h : Tidy s.pe) : Tidy (mapPointers f s).pe := by
  refine ⟨fun hs => ?_,h.ready,fun hs => h.sending fun hnone => hs ?_⟩
  · rw [hand_mapPointers,← h.message hs]
    rfl
  · change s.pe.sending.map f=none
    rw [hnone]
    rfl

theorem conserved_mapPointers {s : System} (h : Conserved s) (hb : ∀ m, (f m).block=m.block) :
    Conserved (mapPointers f s) := by
  refine ⟨?_,tidy_mapPointers h.tidy⟩
  rw [owned_mapPointers hb]
  exact h.blocks

end Owners

/-- Blocks are conserved as they are in the firmware. -/
theorem sharing_conserved {allowed : Pooled → Label → Prop} {s : Pooled}
    (h : sharing.Reach allowed s) : Conserved s.toSystem := by
  refine h.invariant (I := fun s => Conserved s.toSystem) conserved_initial fun s l t _ hc _ hs => ?_
  obtain ⟨s',hstep,rfl⟩ := sharing_step.mp hs
  exact conserved_mapPointers (hc.step (firmware_receives hstep)) fun _ => rfl

/-! ## The messages of Protocol RX and Protocol TX -/

section Messages

variable {s : Pooled} {s' : System} {l : Label} {m : MsgPtr}

/-- Protocol RX reads a message or keeps the one it has. -/
theorem rxStep_message {rx : ProtocolRx} {pending : Event → Bool} {sh : Shared}
    {o : Outcome Event ProtocolRx Shared} (h : RxStep rx pending sh o) (hm : o.loc.message=some m) :
    rx.point=.readPhy ∨ rx.message=some m := by
  cases h with
  | read hp hb => exact .inl hp
  | drop hp => cases hm
  | _ => exact .inr hm

/-- Protocol TX numbers its message or keeps it, unless it fetches one. -/
theorem txStep_message {tx : ProtocolTx} {pending : Event → Bool} {sh : Shared}
    {o : Outcome Event ProtocolTx Shared} (h : TxStep tx pending sh o) (hm : o.loc.message=some m) :
    tx.point=.constructHeader ∨ tx.point=.fetchMessage ∨ tx.message=some m := by
  cases h with
  | constructHeader hp hm' => exact .inl hp
  | fetch hp => exact .inr (.inl hp)
  | report hr => cases hm
  | constructSinkTxOk hp =>
    refine .inr (.inr ?_)
    rw [← hm]
    dsimp only
    split <;> rfl
  | matchCompare hp =>
    refine .inr (.inr ?_)
    rw [← hm]
    dsimp only
    split <;> rfl
  | _ => exact .inr (.inr hm)

/-- What Protocol TX makes of its message's header. -/
theorem txStep_stamped {tx : ProtocolTx} {pending : Event → Bool} {sh : Shared}
    {o : Outcome Event ProtocolTx Shared} (h : TxStep tx pending sh o) (hp : tx.point=.constructHeader)
    (hm : o.loc.message=some m) :
    m.msg.messageidGet=sh.txMessageidcounter%8 ∧ ∃ m₀, tx.message=some m₀ ∧ m₀.block=m.block := by
  cases h with
  | @constructHeader m₀ hp' hm' =>
    cases hm
    exact ⟨PdMsg.messageidGet_setMessageid _ _,m₀,hm',rfl⟩
  | report hr => cases hm
  | heedReset hp' hr =>
    rw [hp] at hp'
    exact absurd hp' (by decide)
  | heedDiscard hp' hr hd =>
    rw [hp] at hp'
    exact absurd hp' (by decide)
  | _ hp' =>
    rw [hp] at hp'
    cases hp'

/-- Only Protocol RX changes its locals. -/
theorem rx_other {s s' : System} {l : Label} (h : Moved s l s') (hl : l.isRx=false) : s'.rx=s.rx := by
  cases h with
  | rx hr => cases hl
  | env he => exact (environment_frame he).rx
  | _ => rfl

/-- What Protocol TX works on is in its block. -/
theorem stored_tx (hs : Coherent s) (h : firmware.step l s.toSystem=some s') (hl : l.isTx=true)
    (hp : s.tx.point≠.fetchMessage) (hm : s'.tx.message=some m) :
    stored s.toSystem l s' s.contents m.block=m.msg := by
  have hrx : l.isRx=false := by cases l <;> first | rfl | cases hl
  have hw : written s.toSystem l s'=if s.tx.point=.constructHeader then s'.tx.message else none := by
    unfold written
    rw [hrx,if_neg Bool.false_ne_true,if_pos hl]
  obtain ⟨o,hstep,rfl⟩ := exists_txStep (firmware_moved h) hl
  have hkept : freed s.toSystem (s.toSystem.withTx o) m.block=false := by
    unfold freed
    change (decide (m.block ∈ o.shared.pool) && decide (m.block ∉ s.shared.pool))=false
    rw [txStep_pool hstep]
    simp
  by_cases hh : s.tx.point=.constructHeader
  · rw [if_pos hh] at hw
    exact stored_of_written (hw.trans hm)
  · rw [if_neg hh] at hw
    have hsame : s.tx.message=some m :=
      ((txStep_message hstep hm).resolve_left hh).resolve_left hp
    rw [stored_eq_self (fun w hmem => by rw [hw] at hmem; cases hmem) hkept]
    exact hs.tx hsame

/-- What Protocol RX works on is in its block, unless Protocol TX sets a
MessageID there. -/
theorem stored_rx (hs : Coherent s) (hc : Conserved s') (h : firmware.step l s.toSystem=some s')
    (hm : rxHand s'.rx=some m) :
    stored s.toSystem l s' s.contents m.block=m.msg ∨
      l.isTx=true ∧ s.tx.point=.constructHeader ∧ ∃ w, s'.tx.message=some w ∧ w.block=m.block := by
  have hmessage : s'.rx.message=some m := (Option.ite_none_right_eq_some.mp hm).2
  have hmem : m.block ∈ owned s' .rx := by
    change m.block ∈ blockOf (rxHand s'.rx)
    rw [hm]
    exact Multiset.mem_singleton_self _
  have hnodup : (total (owned s')).Nodup := by
    rw [hc.blocks]
    exact Multiset.nodup_range _
  have hunique := existsUnique_place hnodup (mem_total.mpr ⟨_,hmem⟩)
  -- No other owner has the block, so nobody else frees or fills it.
  have hother (place : Place) (hne : place≠.rx) : m.block ∉ owned s' place := fun hplace =>
    hne (hunique.unique hplace hmem)
  have hkept : freed s.toSystem s' m.block=false := by
    have hfree : m.block ∉ s'.shared.pool := fun hp =>
      hother .free (by decide) (Multiset.mem_coe.mpr hp)
    unfold freed
    rw [decide_eq_false hfree,Bool.false_and]
  have hpe {p : Option MsgPtr} {w : MsgPtr} (hp : p=some w) (hb : w.block=m.block) :
      m.block ∈ blockOf p := by
    rw [hp,← hb]
    exact Multiset.mem_singleton_self _
  by_cases hread : l.isRx=true ∧ s.rx.point=.readPhy
  · refine .inl (stored_of_written ?_)
    unfold written
    rw [if_pos hread.1,if_pos hread.2,hmessage]
  by_cases hw : ∃ w ∈ written s.toSystem l s', w.block=m.block
  · obtain ⟨w,hmem,hb⟩ := hw
    rcases written_cases hmem with ⟨hl,hp,-⟩ | ⟨hl,hp,hw⟩ | ⟨-,hw | hw⟩
    · exact absurd ⟨hl,hp⟩ hread
    · exact .inr ⟨hl,hp,w,hw,hb⟩
    · exact absurd (hpe hw hb) (hother .request (by decide))
    · exact absurd (hpe hw hb) (hother .sending (by decide))
  · refine .inl ?_
    rw [stored_eq_self (fun w hmem hb => hw ⟨w,hmem,hb⟩) hkept]
    refine hs.rx ?_
    cases hl : l.isRx with
    | true =>
      obtain ⟨o,hstep,rfl⟩ := exists_rxStep (firmware_moved h) hl
      exact (rxStep_message hstep hmessage).resolve_left fun hp => hread ⟨hl,hp⟩
    | false =>
      rw [← hmessage,rx_other (firmware_moved h) hl]

end Messages

end UsbPdFirmware.SharedBlocks
