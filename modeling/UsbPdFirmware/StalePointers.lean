import UsbPdFirmware.BlockOwners

/-!
# Pointers to freed messages in Protocol TX

The Policy Engine frees its message as soon as it takes a result or a reset,
while Protocol TX may still have the pointer in its mailbox or in hand. What
was freed since it was posted is remembered beside the firmware.
-/

namespace UsbPdFirmware.StalePointers

open PdMessage LabelledRuns Machine EventThreads FirmwareState FirmwareSystem
open PolicyEngine ProtocolRx ProtocolTx HardReset OwnershipLedger BlockCustody BlockOwners

/-! ## What was freed -/

/-- What was freed since it was posted. -/
structure Freed where
  /-- Of the pointers in Protocol TX's mailbox, oldest first. -/
  queue : List Bool
  /-- Of the pointer it works on. -/
  working : Bool

/-- A step returns the block behind a pointer to the pool. -/
def returned (s s' : System) (m : MsgPtr) : Bool :=
  decide (m.block ∈ s'.shared.pool) && decide (m.block ∉ s.shared.pool)

/-- A step fetches a pointer from Protocol TX's mailbox. -/
def fetches (s : System) (l : Label) : Bool := l.isTx && decide (s.tx.point=.fetchMessage)

/-- Remember what is freed, in step with the mailbox. -/
def recordFreed (h : Freed) (s : System) (l : Label) (s' : System) : Freed :=
  if fetches s l then ⟨h.queue.tail,h.queue.headD false⟩
  else
    let queue := List.zipWith (fun m freed => freed || returned s s' m) s.shared.txMailbox h.queue
    let posted := List.replicate (s'.shared.txMailbox.length-s.shared.txMailbox.length) false
    ⟨queue++posted,h.working || s.tx.message.any (returned s s')⟩

/-- The firmware with what was freed. -/
def watched : Machine (System × Freed) Label := firmware.observe ⟨[],false⟩ recordFreed

/-! ## The condition -/

/-- From these points Protocol TX goes on to write or send its message. -/
def boundPoints : List ProtocolTxPoint := [.constructHeader,.constructAms,.constructSinkTxOk,.constructSend]

/-- From these it does so unless a reset or a discard is pending. -/
def pollPoints : List ProtocolTxPoint := [.resetCounter,.resetSignalRx,.constructPoll]

/-- Protocol TX is bound to write or send its message. -/
def bound (tx : ProtocolTx) (pending : Event → Bool) : Bool :=
  decide (tx.point ∈ boundPoints) ||
    decide (tx.point ∈ pollPoints) && !pending .prltxReset && !pending .prltxDiscard

/-- Protocol TX has a block in its mailbox, or is bound to use it. -/
def canUse (s : System) (block : ℕ) : Bool :=
  s.shared.txMailbox.any (fun m => m.block==block) ||
    bound s.tx s.pending && s.tx.message.any fun m => m.block==block

/-- The message that a step returns after its transmission. -/
def reclaimed (s : System) (l : Label) : Option MsgPtr :=
  match l.isPe,s.pe.point with
  | true,.sent _ => s.pe.sending
  | _,_ => none

/-- The Policy Engine returns no message that Protocol TX can still use. -/
def cautious (p : System × Freed) (l : Label) : Prop :=
  (reclaimed p.1 l).all (fun m => !canUse p.1 m.block)=true

instance (p : System × Freed) (l : Label) : Decidable (cautious p l) :=
  inferInstanceAs (Decidable (_=_))

/-! ## Blocks lent to Protocol TX -/

/-- The Policy Engine still has a block for Protocol TX: the Request's or that
of the message in transmission. -/
def Lent (pe : PolicyEngine) (block : ℕ) : Prop :=
  block ∈ blockOf pe.lastDpmRequest ∨ block ∈ blockOf pe.sending

section Lent

variable {pe : PolicyEngine} {pending : Event → Bool} {sh : Shared} {block : ℕ}

/-- Such a block is not free. -/
theorem Lent.not_free {s : System} (h : Lent s.pe block) (hc : Conserved s) :
    block ∉ s.shared.pool := by
  intro hfree
  have hnodup : (total (owned s)).Nodup := by
    rw [hc.blocks]
    exact Multiset.nodup_range _
  have hmem : block ∈ owned s .free := Multiset.mem_coe.mpr hfree
  have hunique := existsUnique_place hnodup (mem_total.mpr ⟨.free,hmem⟩)
  rcases h with h | h
  · exact absurd (hunique.unique hmem (show block ∈ owned s .request from h)) (by decide)
  · exact absurd (hunique.unique hmem (show block ∈ owned s .sending from h)) (by decide)

/-- It stays lent, unless a transmission is over. -/
theorem custody_lent {o : Outcome Event PolicyEngine Shared} (hc : Custody pe sh o)
    (h : Lent pe block) :
    Lent o.loc block ∨ (∃ result, pe.point=.sent result) ∧ block ∈ blockOf pe.sending := by
  have hsame (hr : o.loc.lastDpmRequest=pe.lastDpmRequest) (hs : o.loc.sending=pe.sending) :
      Lent o.loc block := by
    unfold Lent
    rw [hr,hs]
    exact h
  cases hc with
  | keep h' => exact .inl (hsame h'.request h'.sending)
  | fetch hh hq => exact .inl (hsame rfl rfl)
  | release hh hh' hr hs hp hq ht hc => exact .inl (hsame hr hs)
  | send hh hs hp =>
    rcases h with h | h
    · exact .inl (.inl h)
    · rw [hs] at h
      exact absurd h (Multiset.notMem_zero _)
  | request hh hr => exact .inl (hsame rfl rfl)
  | reclaim hp hh hh' hr hs ho =>
    rcases h with h | h
    · exact .inl (.inl (by rw [hr]; exact h))
    · exact .inr ⟨⟨_,hp⟩,h⟩
  | @evaluate pending request ppsIndex lastPps pool hh hb =>
    rcases h with h | h
    · rcases hb with ⟨hr,-⟩ | ⟨hr,-⟩
      · rw [hr] at h
        exact .inl (.inl h)
      · rw [hr] at h
        exact absurd h (Multiset.notMem_zero _)
    · exact .inl (.inr h)

/-- What is posted is lent. -/
theorem custody_post {o : Outcome Event PolicyEngine Shared} (hc : Custody pe sh o) :
    o.shared.txMailbox=sh.txMailbox ∨
      ∃ m, o.shared.txMailbox=post pdbMsgPoolSize m sh.txMailbox ∧ Lent o.loc m.block := by
  cases hc with
  | keep h => exact .inl h.txMailbox
  | fetch hh hq => exact .inl rfl
  | release hh hh' hr hs hp hq ht hc => exact .inl ht
  | @send pending m pool hh hs hp => exact .inr ⟨m,rfl,.inr (Multiset.mem_singleton_self _)⟩
  | @request pending m hh hr =>
    refine .inr ⟨m,rfl,.inl ?_⟩
    change m.block ∈ blockOf pe.lastDpmRequest
    rw [hr]
    exact Multiset.mem_singleton_self _
  | reclaim hp hh hh' hr hs ho =>
    rw [ho]
    exact .inl (free?_txMailbox _ _)
  | @evaluate pending request ppsIndex lastPps pool hh hb =>
    exact .inl (PolicyEngineMoves.evaluateCapability_sameMail _ _ _).txMailbox

end Lent

/-! ## Nothing in use is freed -/

/-- Nothing that Protocol TX can still use was freed. -/
structure Fresh (s : System) (h : Freed) : Prop where
  /-- Nothing in its mailbox was. -/
  queue : h.queue=List.replicate s.shared.txMailbox.length false
  /-- All of that is lent. -/
  lent : ∀ m ∈ s.shared.txMailbox, Lent s.pe m.block
  /-- Nor was a message that it is bound to use, which is lent. -/
  working : bound s.tx s.pending=true →
    h.working=false ∧ ∀ m, s.tx.message=some m → Lent s.pe m.block
  /-- Before a fetch it points to no message. -/
  waiting : s.tx.point=.waitMessage ∨ s.tx.point=.fetchMessage → s.tx.message=none

section Fresh

variable {s s' : System} {l : Label} {a : Freed} {tx : ProtocolTx} {pending : Event → Bool}
  {sh : Shared} {o : Outcome Event ProtocolTx Shared}

theorem returned_eq_false {m : MsgPtr} (h : Lent s'.pe m.block) (hc : Conserved s') :
    returned s s' m=false := by
  unfold returned
  rw [decide_eq_false (h.not_free hc),Bool.false_and]

/-- Marks stay as they are while nothing marked is freed. -/
theorem zipWith_fresh {freed : MsgPtr → Bool} {queue : List MsgPtr} (h : ∀ m ∈ queue, freed m=false) :
    List.zipWith (fun m f => f || freed m) queue (List.replicate queue.length false)=
      List.replicate queue.length false := by
  induction queue with
  | nil => rfl
  | cons m rest ih =>
    have hm : freed m=false := h m (List.mem_cons_self ..)
    rw [List.length_cons,List.replicate_succ,List.zipWith_cons_cons,hm,
      ih fun m' hm' => h m' (List.mem_cons_of_mem _ hm')]
    rfl

/-- The marks of the mailbox after a step that fetches nothing. -/
theorem recordFreed_queue (hq : a.queue=List.replicate s.shared.txMailbox.length false)
    (hf : fetches s l=false) (hfree : ∀ m ∈ s.shared.txMailbox, returned s s' m=false)
    (hlen : s.shared.txMailbox.length ≤ s'.shared.txMailbox.length) :
    (recordFreed a s l s').queue=List.replicate s'.shared.txMailbox.length false := by
  unfold recordFreed
  rw [hf,hq]
  dsimp only
  rw [if_neg Bool.false_ne_true]
  dsimp only
  rw [zipWith_fresh hfree,List.replicate_append_replicate]
  congr 1
  omega

/-- The mark of the pointer in hand after such a step. -/
theorem recordFreed_working (hf : fetches s l=false) (hw : a.working=false)
    (hfree : ∀ m, s.tx.message=some m → returned s s' m=false) :
    (recordFreed a s l s').working=false := by
  unfold recordFreed
  rw [hf,if_neg Bool.false_ne_true]
  dsimp only
  rw [hw,Bool.false_or]
  cases hm : s.tx.message with
  | none => rfl
  | some m => exact hfree m hm

/-- Protocol TX does not become bound by what others do. -/
theorem bound_of_flags {pending' : Event → Bool}
    (hflags : ∀ e ∈ constructMask, pending e=true → pending' e=true) (h : bound tx pending'=true) :
    bound tx pending=true := by
  have hclear (e : Event) (he : e ∈ constructMask) (h : pending' e=false) : pending e=false := by
    by_contra hne
    rw [hflags e he (Bool.eq_true_of_not_eq_false hne)] at h
    cases h
  unfold bound at h ⊢
  simp only [Bool.or_eq_true,Bool.and_eq_true,Bool.not_eq_true'] at h ⊢
  rcases h with h | ⟨⟨h,hr⟩,hd⟩
  · exact .inl h
  · exact .inr ⟨⟨h,hclear _ (by decide) hr⟩,hclear _ (by decide) hd⟩

theorem canUse_mailbox {m : MsgPtr} (h : m ∈ s.shared.txMailbox) : canUse s m.block=true := by
  unfold canUse
  have hany : (s.shared.txMailbox.any fun m' => m'.block==m.block)=true :=
    List.any_eq_true.mpr ⟨m,h,beq_self_eq_true m.block⟩
  rw [hany,Bool.true_or]

theorem canUse_message {m : MsgPtr} (hb : bound s.tx s.pending=true) (h : s.tx.message=some m) :
    canUse s m.block=true := by
  unfold canUse
  rw [hb,h]
  simp

/-- A step of another thread keeps all of this, when what Protocol TX can use
stays lent. -/
theorem Fresh.beside (h : Fresh s a) (hc : Conserved s') (hl : l.isTx=false) (htx : s'.tx=s.tx)
    (hflags : ∀ e ∈ constructMask, s.pending e=true → s'.pending e=true)
    (hmail : s'.shared.txMailbox=s.shared.txMailbox ∨
      ∃ m, s'.shared.txMailbox=post pdbMsgPoolSize m s.shared.txMailbox ∧ Lent s'.pe m.block)
    (hlent : ∀ block, canUse s block=true → Lent s.pe block → Lent s'.pe block) :
    Fresh s' (recordFreed a s l s') := by
  have hf : fetches s l=false := by
    unfold fetches
    rw [hl,Bool.false_and]
  have hmailbox (m : MsgPtr) (hm : m ∈ s.shared.txMailbox) : Lent s'.pe m.block :=
    hlent _ (canUse_mailbox hm) (h.lent m hm)
  have hlen : s.shared.txMailbox.length ≤ s'.shared.txMailbox.length := by
    rcases hmail with hq | ⟨m,hq,-⟩
    · rw [hq]
    · rw [hq]
      unfold post
      split_ifs
      · rw [List.length_append]
        omega
      · exact le_rfl
  constructor
  case queue => exact recordFreed_queue h.queue hf (fun m hm => returned_eq_false (hmailbox m hm) hc) hlen
  case lent =>
    intro m hm
    rcases hmail with hq | ⟨posted,hq,hposted⟩
    · rw [hq] at hm
      exact hmailbox m hm
    · rw [hq] at hm
      unfold post at hm
      split_ifs at hm
      · rcases List.mem_append.mp hm with hm | hm
        · exact hmailbox m hm
        · rw [List.mem_singleton.mp hm]
          exact hposted
      · exact hmailbox m hm
  case working =>
    intro hb
    rw [htx] at hb ⊢
    have hb' := bound_of_flags hflags hb
    obtain ⟨hw,hm⟩ := h.working hb'
    have hstill (m : MsgPtr) (he : s.tx.message=some m) : Lent s'.pe m.block :=
      hlent _ (canUse_message hb' he) (hm m he)
    exact ⟨recordFreed_working hf hw fun m he => returned_eq_false (hstill m he) hc,hstill⟩
  case waiting =>
    rw [htx]
    exact h.waiting

/-- Protocol TX becomes bound by a fetch only. -/
theorem txStep_bound (h : TxStep tx pending sh o) (hp : tx.point≠.fetchMessage)
    (hb : bound o.loc o.pending=true) : bound tx pending=true ∧
      ∀ m', o.loc.message=some m' → ∃ m, tx.message=some m ∧ m.block=m'.block := by
  have hnot {p : ProtocolTxPoint} {message : Option MsgPtr} {pending' : Event → Bool}
      (hp : p ∉ boundPoints ∧ p ∉ pollPoints) (h : bound ⟨p,message⟩ pending'=true) : False := by
    unfold bound at h
    rw [decide_eq_false hp.1,decide_eq_false hp.2] at h
    cases h
  have hbound (hp : tx.point ∈ boundPoints) : bound tx pending=true := by
    unfold bound
    rw [decide_eq_true hp,Bool.true_or]
  have hpoll {p : ProtocolTxPoint} {pending' : Event → Bool} (hp : tx.point ∈ pollPoints)
      (hp' : p ∉ boundPoints) (hflags : ∀ e ∈ constructMask, pending e=true → pending' e=true)
      (h : bound ⟨p,tx.message⟩ pending'=true) : bound tx pending=true := by
    have h' := bound_of_flags hflags h
    unfold bound at h' ⊢
    rw [decide_eq_false hp',Bool.false_or,Bool.and_assoc] at h'
    rw [decide_eq_true hp,Bool.true_and,(Bool.and_eq_true_iff.mp h').2,Bool.or_true]
  have hsame : ∀ m', tx.message=some m' → ∃ m, tx.message=some m ∧ m.block=m'.block :=
    fun m' h => ⟨m',h,rfl⟩
  cases h with
  | resetCounter hp' =>
    exact ⟨hpoll (by rw [hp']; decide) (by decide) (fun _ _ he => he) hb,hsame⟩
  | resetSignalRx hp' =>
    refine ⟨hpoll (by rw [hp']; decide) (by decide) (fun e _ he => ?_) hb,hsame⟩
    change raise [.prlrxReset] pending e=true
    rw [raise_apply,he,Bool.true_or]
  | constructOn hp' hr hd =>
    refine ⟨?_,hsame⟩
    unfold bound
    rw [hp',hr,hd]
    rfl
  | @constructHeader m hp' hm =>
    refine ⟨hbound (by rw [hp']; decide),fun m' hm' => ⟨m,hm,?_⟩⟩
    rw [← Option.some.inj hm']
  | constructAms hp' => exact ⟨hbound (by rw [hp']; decide),hsame⟩
  | constructSinkTxOk hp' =>
    refine ⟨hbound (by rw [hp']; decide),fun m' hm' => ⟨m',?_,rfl⟩⟩
    rw [← hm']
    split <;> rfl
  | fetch hp' => exact absurd hp' hp
  | matchRead hp' =>
    cases hb
  | matchCompare hp' =>
    dsimp only at hb
    split at hb
    · exact (hnot (by decide) hb).elim
    · exact (hnot (by decide) hb).elim
  | _ => exact (hnot (by decide) hb).elim

/-- Where it waits or fetches, it points to no message. -/
theorem txStep_waiting (h : TxStep tx pending sh o)
    (hw : tx.point=.waitMessage ∨ tx.point=.fetchMessage → tx.message=none)
    (hp : o.loc.point=.waitMessage ∨ o.loc.point=.fetchMessage) : o.loc.message=none := by
  cases h with
  | resetIdle hp' hm => exact hm
  | report hr => rfl
  | heedMsgTx hp' hr hd hm => exact hw (.inl hp')
  | fetch hp' =>
    dsimp only at hp
    split at hp <;> simp at hp
  | constructHeader hp' hm =>
    dsimp only at hp
    split at hp <;> simp at hp
  | constructAms hp' =>
    simp only [ProtocolTx.at_point] at hp
    split at hp <;> simp at hp
  | constructSinkTxOk hp' =>
    dsimp only at hp
    split at hp <;> simp [hp'] at hp
  | matchCompare hp' =>
    dsimp only at hp
    split at hp <;> simp at hp
  | _ => simp at hp

/-- What a fetch does. -/
theorem fetch_perform (hp : tx.point=.fetchMessage)
    (h : (protocolTx tx).perform false pending sh=some o) :
    o.loc.message=(sh.txMailbox.head?).or tx.message ∧ o.shared.txMailbox=sh.txMailbox.tail := by
  unfold protocolTx at h
  rw [hp] at h
  obtain ⟨-,rfl⟩ := Action.perform_access_some.mp h
  exact ⟨rfl,rfl⟩

/-- Only a fetch takes something from the mailbox. -/
theorem txStep_txMailbox (h : TxStep tx pending sh o) (hp : tx.point≠.fetchMessage) :
    o.shared.txMailbox=sh.txMailbox := by
  cases h with
  | fetch hp' => exact absurd hp' hp
  | matchRead hp' =>
    rw [fusbReadMessage_eq]
  | discard hp' => cases tx.message <;> rfl
  | _ => rfl

/-- A step of Protocol TX keeps all of this. -/
theorem Fresh.transmit (h : Fresh s a) (ho : (protocolTx s.tx).perform false s.pending s.shared=some o)
    (hc : Conserved (s.withTx o)) : Fresh (s.withTx o) (recordFreed a s .tx (s.withTx o)) := by
  have ht := protocolTx_step ho
  have hwaiting := txStep_waiting ht h.waiting
  by_cases hp : s.tx.point=.fetchMessage
  · obtain ⟨hmessage,hmailbox⟩ := fetch_perform hp ho
    have hrecord : recordFreed a s .tx (s.withTx o)=⟨a.queue.tail,a.queue.headD false⟩ := by
      refine if_pos ?_
      unfold fetches
      rw [hp]
      rfl
    rw [hrecord]
    refine ⟨?_,fun m hm => ?_,fun _ => ⟨?_,fun m hm => ?_⟩,hwaiting⟩
    · change a.queue.tail=List.replicate o.shared.txMailbox.length false
      rw [h.queue,hmailbox,List.tail_replicate,List.length_tail]
    · have hm' : m ∈ s.shared.txMailbox.tail := hmailbox ▸ hm
      exact h.lent m (List.mem_of_mem_tail hm')
    · change a.queue.headD false=false
      rw [h.queue]
      cases s.shared.txMailbox.length <;> rfl
    · have hhead : s.shared.txMailbox.head?=some m := by
        have hm' : o.loc.message=some m := hm
        rw [hmessage,h.waiting (.inr hp),Option.or_none] at hm'
        exact hm'
      exact h.lent m (List.mem_of_head? hhead)
  · have hf : fetches s .tx=false := by
      unfold fetches
      rw [decide_eq_false hp]
      rfl
    have hmailbox : (s.withTx o).shared.txMailbox=s.shared.txMailbox := txStep_txMailbox ht hp
    constructor
    case queue =>
      exact recordFreed_queue h.queue hf (fun m hm => returned_eq_false (h.lent m hm) hc)
        (by rw [hmailbox])
    case lent =>
      rw [hmailbox]
      exact h.lent
    case working =>
      intro hb
      obtain ⟨hb',hblock⟩ := txStep_bound ht hp hb
      obtain ⟨hw,hlent⟩ := h.working hb'
      refine ⟨recordFreed_working hf hw fun m hm => returned_eq_false (hlent m hm) hc,fun m' hm' => ?_⟩
      obtain ⟨m,hm,he⟩ := hblock m' hm'
      rw [← he]
      exact hlent m hm
    case waiting => exact hwaiting

end Fresh

/-! ## Runs -/

section Runs

variable {p q : System × Freed} {l : Label}

/-- Nobody else takes the flags that stop Protocol TX. -/
theorem flags_kept {s s' : System} {l : Label} (h : Moved s l s') (hl : l.isTx=false) :
    ∀ e ∈ constructMask, s.pending e=true → s'.pending e=true := by
  intro e he hpend
  have hmask : e=.prltxReset ∨ e=.prltxDiscard := by simpa [constructMask] using he
  cases h with
  | pe hl' hx hp =>
    have hother := (PolicyEngineMoves.policyEngine_move hp).pending_other
      (show e ∉ PolicyEngineMoves.peEvents by rcases hmask with rfl | rfl <;> decide)
    exact hother.trans hpend
  | rx hr => rcases hmask with rfl | rfl <;> cases hr <;> simp [System.withRx,hpend]
  | tx ht => cases hl
  | hr hl' hh =>
    cases hh with
    | sent hp hk => exact (hk e (by rcases hmask with rfl | rfl <;> decide)).trans hpend
    | _ => rcases hmask with rfl | rfl <;> simp [System.withHr,hpend]
  | intN hi =>
    exact (hi.pending_other (by rcases hmask with rfl | rfl <;> decide)).trans hpend
  | env hx =>
    have hother := (environment_frame hx).pending e (by rcases hmask with rfl | rfl <;> decide)
    exact hother.trans hpend

/-- A step of the Policy Engine leaves lent what Protocol TX can use. -/
theorem cautious_lent {o : Outcome Event PolicyEngine Shared} (hl : l.isPe=true)
    (ha : cautious p l) (hcustody : Custody p.1.pe p.1.shared o) {block : ℕ}
    (huse : canUse p.1 block=true) (h : Lent p.1.pe block) : Lent o.loc block := by
  rcases custody_lent hcustody h with h | ⟨⟨result,hp⟩,h⟩
  · exact h
  · have hreclaimed : reclaimed p.1 l=p.1.pe.sending := by
      unfold reclaimed
      rw [hl,hp]
    unfold cautious at ha
    rw [hreclaimed] at ha
    cases hs : p.1.pe.sending with
    | none =>
      rw [hs] at h
      exact absurd h (Multiset.notMem_zero _)
    | some m =>
      rw [hs] at h ha
      have hblock : block=m.block := Multiset.mem_singleton.mp h
      have hcannot : canUse p.1 m.block=false := by simpa using ha
      rw [hblock,hcannot] at huse
      cases huse

/-- Every step under the condition keeps all of this. -/
theorem Fresh.step (h : Fresh p.1 p.2) (hc : Conserved p.1) (hc' : Conserved q.1)
    (ha : cautious p l) (hs : watched.step l p=some q) : Fresh q.1 q.2 := by
  obtain ⟨s',a'⟩ := q
  obtain ⟨hstep,hrecord⟩ := observe_step.mp hs
  dsimp only at hstep hrecord hc'
  subst hrecord
  have hmoved := firmware_moved hstep
  cases hmoved with
  | pe hl he hp =>
    have hcustody := (policyEngine_orderly hc.tidy hp).custody
    have hnot : l.isTx=false := by rcases Label.eq_of_isPe hl with rfl | rfl <;> rfl
    exact h.beside hc' hnot rfl (flags_kept (.pe hl he hp) hnot) (custody_post hcustody)
      fun block huse hlent => cautious_lent hl ha hcustody huse hlent
  | rx hr =>
    have hnot : Label.isTx .rx=false := rfl
    exact h.beside hc' hnot rfl (flags_kept (.rx hr) hnot) (.inl hr.frame.txMailbox)
      fun _ _ hlent => hlent
  | tx ht =>
    obtain ⟨o,ho,hso⟩ := Option.map_eq_some_iff.mp hstep
    rw [← hso] at hc' ⊢
    exact h.transmit ho hc'
  | hr hl hh =>
    have hnot : l.isTx=false := by rcases hl with rfl | rfl <;> rfl
    exact h.beside hc' hnot rfl (flags_kept (.hr hl hh) hnot) (.inl hh.frame.txMailbox)
      fun _ _ hlent => hlent
  | intN hi =>
    have hnot : Label.isTx .intN=false := rfl
    exact h.beside hc' hnot rfl (flags_kept (.intN hi) hnot) (.inl hi.frame.txMailbox)
      fun _ _ hlent => hlent
  | @env e s' he =>
    have hframe := environment_frame he
    have hnot : Label.isTx (.env e)=false := rfl
    refine h.beside hc' hnot hframe.tx (flags_kept (.env he) hnot) (.inl hframe.txMailbox)
      fun _ _ hlent => ?_
    rw [hframe.pe]
    exact hlent

/-- In every run under the condition nothing in use was freed. -/
theorem watched_fresh (h : watched.Reach cautious p) : Fresh p.1 p.2 := by
  have hconserved {p : System × Freed} (h : watched.Reach cautious p) : Conserved p.1 :=
    receiver_conserved (firmware_reach h.any.unobserved)
  refine h.invariant (I := fun p => Fresh p.1 p.2) ?_ fun p l q hr hf ha hs => ?_
  · refine ⟨rfl,fun m hm => ?_,fun hb => absurd hb Bool.false_ne_true,fun _ => rfl⟩
    cases hm
  · exact hf.step (hconserved hr) (hconserved (.step hr ha hs)) ha hs

end Runs

/-- While the Policy Engine returns no message that Protocol TX can still use,
what Protocol TX fetches was not freed since it was posted, nor was what it
writes or sends. -/
theorem not_freed_in_use {p : System × Freed} (h : watched.Reach cautious p) :
    (p.1.tx.point=.fetchMessage → ∀ freed ∈ p.2.queue.head?, freed=false) ∧
    (p.1.tx.point=.constructHeader ∨ p.1.tx.point=.constructSend → p.2.working=false) := by
  have hfresh := watched_fresh h
  constructor
  · intro _ freed hfreed
    have hmem : freed ∈ p.2.queue := List.mem_of_head? hfreed
    rw [hfresh.queue] at hmem
    exact (List.mem_replicate.mp hmem).2
  · intro hp
    refine (hfresh.working ?_).1
    unfold bound
    rcases hp with hp | hp <;> rw [hp] <;> rfl

/-- A Reject is sent and returned, and then the user asks for the source's
capabilities. -/
def rejectThenAsk : List Label :=
  List.flatten [negotiate,deliver (controlMessage pdMsgtypeDrSwap 3),[.pe,.pe,.pe,.pe,.pe],send,
    acknowledge 1,[.pe,.pe],[.env .getSourceCap,.pe,.pe,.pe,.pe,.tx,.tx,.tx]]

/-- Protocol TX then writes the second message, which was not freed. -/
theorem not_freed_in_use_reject : ∃ p, watched.Reach cautious p ∧ p.1.tx.point=.constructHeader ∧
    p.2.working=false := by
  obtain ⟨p,hr,hp⟩ := exists_reach_of_follow watched cautious rejectThenAsk
    (fun p => decide (p.1.tx.point=.constructHeader)) (by decide +kernel)
  have hpoint := of_decide_eq_true hp
  exact ⟨p,hr,hpoint,(not_freed_in_use hr).2 (.inl hpoint)⟩

/-- A Soft_Reset passes through the protocol layer. -/
def softResetReceived : List Label :=
  [.env (.sourceMessage (controlMessage pdMsgtypeSoftReset 3)),.intN,.intN,.rx,.rx,.rx,.rx,.rx,.tx,
    .tx,.tx,.rx,.rx,.rx,.rx,.tx,.tx,.tx,.tx,.rx,.rx,.rx,.intN,.intN,.intN]

/-- A hard reset comes before Protocol TX has taken the request to transmit,
and every thread recovers from it. -/
def hardResetReceived : List Label :=
  [.env .hardrst,.intN,.intN,.intN,.intN,.intN,.hr,.hr,.hr,.hr,.hr,.hr,.tx,.tx,.tx,.rx,.pe,.pe,.pe,.pe,
    .pe,.pe,.hr,.hr]

/-- The Accept of a Soft_Reset stays in the mailbox, freed, until the next
Request. -/
def staleFetch : List Label :=
  List.flatten [negotiate,softResetReceived,[.pe,.pe,.pe,.pe,.pe],hardResetReceived,
    deliver (sourceCapabilities 1),[.pe,.pe,.pe,.pe,.pe,.pe,.tx]]

/-- Protocol TX then fetches a freed message. -/
theorem exists_freed_fetch : ∃ p, watched.Reach anyStep p ∧ p.1.tx.point=.fetchMessage ∧
    p.2.queue.head?=some true := by
  obtain ⟨p,hr,hp⟩ := exists_reach_of_follow watched anyStep staleFetch
    (fun p => decide (p.1.tx.point=.fetchMessage ∧ p.2.queue.head?=some true)) (by decide +kernel)
  exact ⟨p,hr,of_decide_eq_true hp⟩

end UsbPdFirmware.StalePointers
