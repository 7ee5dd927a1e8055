import UsbPdFirmware.FirmwareSystem
import UsbPdFirmware.OwnershipLedger
import UsbPdFirmware.PolicyEngineMoves

/-!
# Custody of the message blocks

Where the blocks of the message pool are, and what one action of the Policy
Engine or of Protocol RX does with them. The Policy Engine keeps pointers to
blocks that it has freed, so the message it points to is in its hand only
while it handles it or passes it on for evaluation.
-/

namespace UsbPdFirmware.BlockCustody

open PdMessage DevicePolicy EventThreads FirmwareState PolicyEngine ProtocolRx FirmwareSystem
open PolicyEngineMoves OwnershipLedger

/-! ## Places -/

/-- Where a block can be. -/
inductive Place where
  /-- In the pool. -/
  | free
  /-- With Protocol RX. -/
  | rx
  /-- In the Policy Engine's mailbox. -/
  | mailbox
  /-- Handled by the Policy Engine or passed to an evaluation. -/
  | hand
  /-- The Request. -/
  | request
  /-- The capabilities stored by the Device Policy Manager. -/
  | stored
  /-- A message of the Policy Engine in transmission. -/
  | sending
  deriving DecidableEq

instance : Fintype Place :=
  ⟨{.free,.rx,.mailbox,.hand,.request,.stored,.sending},fun p => by cases p <;> decide⟩

/-- The block behind a pointer. -/
def blockOf : Option MsgPtr → Multiset ℕ
  | none => 0
  | some m => {m.block}

@[simp] theorem blockOf_none : blockOf none=0 := rfl

@[simp] theorem blockOf_some (m : MsgPtr) : blockOf (some m)={m.block} := rfl

/-- The message the Policy Engine answers for. -/
def hand (pe : PolicyEngine) : Option MsgPtr :=
  match pe.point with
  | .handle => pe.message
  | .start => if pe.state=.sinkEvalCap then pe.message else none
  | _ => none

/-- The points of Protocol RX between a read and the end of its message. -/
def rxHolding : List ProtocolRxPoint :=
  [.resetCounter,.resetStoredId,.resetSignalTx,.resetPoll,.checkPoll,.checkCompare,.dropMessage,
    .storeSignalTx,.storeMessageid,.storePost]

/-- The message Protocol RX answers for. -/
def rxHand (rx : ProtocolRx) : Option MsgPtr := if rx.point ∈ rxHolding then rx.message else none

/-- The blocks of every place. -/
def held (pe : PolicyEngine) (rx : ProtocolRx) (sh : Shared) : Ledger Place ℕ
  | .free => ↑sh.pool
  | .rx => blockOf (rxHand rx)
  | .mailbox => ↑(sh.peMailbox.map MsgPtr.block)
  | .hand => blockOf (hand pe)
  | .request => blockOf pe.lastDpmRequest
  | .stored => blockOf sh.dpm.capabilities
  | .sending => blockOf pe.sending

/-! ## Pointers to freed blocks -/

/-- States in which the thread may point to a message it has freed. -/
def staleStates : List PolicyEngineState :=
  [.sinkHardReset,.sinkTransitionDefault,.sinkStartup,.sinkDiscovery,.sinkWaitCap,
    .sinkSourceUnresponsive]

/-- A message that the thread allocated is with Protocol TX. -/
def transmitting : PolicyEnginePoint → Bool
  | .signalTx => true
  | .waitTx => true
  | .sent _ => true
  | _ => false

/-- The points of `PESinkReady` before a message sequence. -/
def leavesReady : PolicyEnginePoint → Bool
  | .dropMessage => true
  | .startAms _ => true
  | _ => false

/-- What the thread's pointers are good for. -/
structure Tidy (pe : PolicyEngine) : Prop where
  /-- It points to no message but the one in its hand. -/
  message : pe.state ∉ staleStates → pe.message=hand pe
  /-- It drops a message and announces a message sequence in one state. -/
  ready : leavesReady pe.point=true → pe.state=.sinkReady
  /-- It points to a message in transmission during that only. -/
  sending : pe.sending≠none → transmitting pe.point=true ∧ pe.state≠.sinkSelectCap

section Tidy

variable {pe pe' : PolicyEngine} {state : PolicyEngineState} {point : PolicyEnginePoint}

theorem Tidy.sending_none (h : Tidy pe) (hp : transmitting pe.point=false) : pe.sending=none := by
  by_contra hs
  rw [(h.sending hs).1] at hp
  cases hp

/-- It points to what is in its hand, and transmits nothing. -/
theorem tidy_of_hand (hm : pe.message=hand pe) (hl : leavesReady pe.point=false)
    (hs : pe.sending=none) : Tidy pe := by
  refine ⟨fun _ => hm,fun h => ?_,fun h => absurd hs h⟩
  rw [hl] at h
  cases h

/-- Without pointers there is nothing to keep tidy. -/
theorem tidy_goto (hm : pe.message=none ∨ state ∈ staleStates ∨ state=.sinkEvalCap)
    (hs : pe.sending=none) : Tidy (goto pe state) := by
  refine ⟨fun hstale => ?_,fun h => absurd h Bool.false_ne_true,fun h => absurd hs h⟩
  rcases hm with hm | hm | hm
  · change pe.message=if state=.sinkEvalCap then pe.message else none
    rw [hm,ite_self]
  · exact absurd hm hstale
  · exact (if_pos hm).symm

/-- Away from these two points the hand is empty. -/
theorem hand_eq_none (h : pe.point≠.handle) (h' : pe.point=.start → pe.state≠.sinkEvalCap) :
    hand pe=none := by
  unfold hand
  split
  · contradiction
  · next hp => exact if_neg (h' hp)
  · rfl

theorem hand_goto (h : state≠.sinkEvalCap) : hand (goto pe state)=none := if_neg h

theorem hand_handle (h : pe.point=.handle) : hand pe=pe.message := by
  unfold hand
  rw [h]

end Tidy

/-! ## What the Policy Engine does with the blocks -/

/-- Everything is where it was. -/
structure SameBlocks (pe pe' : PolicyEngine) (sh sh' : Shared) : Prop where
  /-- The message in hand. -/
  hand : hand pe'=hand pe
  /-- The Request. -/
  request : pe'.lastDpmRequest=pe.lastDpmRequest
  /-- The message in transmission. -/
  sending : pe'.sending=pe.sending
  /-- The pool. -/
  pool : sh'.pool=sh.pool
  /-- The thread's mailbox. -/
  peMailbox : sh'.peMailbox=sh.peMailbox
  /-- Protocol TX's mailbox. -/
  txMailbox : sh'.txMailbox=sh.txMailbox
  /-- The stored capabilities. -/
  stored : sh'.dpm.capabilities=sh.dpm.capabilities

section Custody

variable (pe : PolicyEngine) (sh : Shared)

/-- Everything one action of the thread can do with blocks. -/
inductive Custody : Outcome Event PolicyEngine Shared → Prop where
  /-- Nothing. -/
  | keep {o : Outcome Event PolicyEngine Shared} (h : SameBlocks pe o.loc sh o.shared) : Custody o
  /-- A message is fetched. -/
  | fetch {pending : Event → Bool} {m : MsgPtr} {rest : List MsgPtr} (hh : hand pe=none)
      (hq : sh.peMailbox=m::rest) :
      Custody ⟨pending,at_ {pe with message := some m} .handle,{sh with peMailbox := rest}⟩
  /-- The message in hand is freed. -/
  | release {o : Outcome Event PolicyEngine Shared} {m : MsgPtr} (hh : hand pe=some m)
      (hh' : hand o.loc=none) (hr : o.loc.lastDpmRequest=pe.lastDpmRequest)
      (hs : o.loc.sending=pe.sending) (hp : o.shared.pool=m.block::sh.pool)
      (hq : o.shared.peMailbox=sh.peMailbox) (ht : o.shared.txMailbox=sh.txMailbox)
      (hc : o.shared.dpm.capabilities=sh.dpm.capabilities) : Custody o
  /-- A new message is posted. -/
  | send {pending : Event → Bool} {m : MsgPtr} {pool : List ℕ} (hh : hand pe=none)
      (hs : pe.sending=none) (hp : sh.pool=m.block::pool) :
      Custody ⟨pending,at_ {pe with sending := some m} .signalTx,postTx {sh with pool := pool} m⟩
  /-- The Request is posted. -/
  | request {pending : Event → Bool} {m : MsgPtr} (hh : hand pe=none)
      (hr : pe.lastDpmRequest=some m) : Custody ⟨pending,at_ pe .signalTx,postTx sh m⟩
  /-- A transmission is over, and its message is freed. -/
  | reclaim {o : Outcome Event PolicyEngine Shared} {result : TxResult} (hp : pe.point=.sent result)
      (hh : hand pe=none) (hh' : hand o.loc=none) (hr : o.loc.lastDpmRequest=pe.lastDpmRequest)
      (hs : o.loc.sending=none) (ho : o.shared=sh.free? pe.sending) : Custody o
  /-- The message in hand is evaluated, or the stored one. A first Request
  needs a block. -/
  | evaluate {pending : Event → Bool} {request : MsgPtr} {ppsIndex lastPps : ℕ} {pool : List ℕ}
      (hh : hand pe=pe.message) (hb : RequestFrom pe sh request pool) :
      Custody ⟨pending,goto {pe with
          ppsIndex := ppsIndex
          lastPps := lastPps
          lastDpmRequest := some (evaluateCapability pe.message request {sh with pool := pool}).1
          message := none} .sinkSelectCap,
        (evaluateCapability pe.message request {sh with pool := pool}).2⟩

/-- What an action does with blocks, and that it leaves the pointers tidy. -/
structure Orderly (o : Outcome Event PolicyEngine Shared) : Prop where
  /-- The blocks. -/
  custody : Custody pe sh o
  /-- The pointers. -/
  tidy : Tidy o.loc

end Custody

variable {pe pe' : PolicyEngine} {pending : Event → Bool} {sh sh' : Shared} {expired : Bool}
  {o : Outcome Event PolicyEngine Shared}

/-! ## Handling a message -/

/-- A message is in hand to be handled. -/
structure InHand (pe : PolicyEngine) (m : MsgPtr) : Prop where
  /-- It is the hand's. -/
  hand : hand pe=some m
  /-- Nothing is in transmission. -/
  sending : pe.sending=none

/-- Freeing the message and returning a state. -/
theorem finish_orderly {pe₁ : PolicyEngine} {dpm : Dpm} {m : MsgPtr} {state : PolicyEngineState}
    (hh : InHand pe m) (h : finish pe₁ m {sh with dpm := dpm} state=some (sh',pe'))
    (hr : pe₁.lastDpmRequest=pe.lastDpmRequest) (hs : pe₁.sending=pe.sending)
    (hc : dpm.capabilities=sh.dpm.capabilities) : Orderly pe sh ⟨pending,pe',sh'⟩ := by
  obtain ⟨rfl,rfl⟩ := Prod.ext_iff.mp (Option.some.inj h)
  constructor
  · exact .release hh.hand (ite_self _) hr hs rfl rfl rfl hc
  · exact tidy_goto (.inl rfl) (hs.trans hh.sending)

/-- The same with the manager's data untouched. -/
theorem finish_plain {pe₁ : PolicyEngine} {m : MsgPtr} {state : PolicyEngineState} (hh : InHand pe m)
    (h : finish pe₁ m sh state=some (sh',pe')) (hr : pe₁.lastDpmRequest=pe.lastDpmRequest)
    (hs : pe₁.sending=pe.sending) : Orderly pe sh ⟨pending,pe',sh'⟩ :=
  finish_orderly hh h hr hs rfl

/-- Keeping the message for an evaluation. -/
theorem offer_orderly {m : MsgPtr} {sh₁ : Shared} (hh : InHand pe m) (hm : pe.message=some m)
    (hsh : SameBlocks pe pe sh sh₁) :
    Orderly pe sh ⟨pending,goto pe .sinkEvalCap,sh₁⟩ := by
  constructor
  · exact .keep ⟨hm.trans hh.hand.symm,rfl,rfl,hsh.pool,hsh.peMailbox,hsh.txMailbox,hsh.stored⟩
  · exact tidy_goto (.inr (.inr rfl)) hh.sending

/-- A message in `PESinkReady`. -/
theorem peSinkReadyMessage_orderly {m : MsgPtr} (hh : InHand pe m) (hm : pe.message=some m)
    (h : peSinkReadyMessage pe m sh=some (sh',pe')) : Orderly pe sh ⟨pending,pe',sh'⟩ := by
  cases peSinkReadyMessage_step h with
  | answer hs h => exact finish_plain hh h rfl rfl
  | gotomin hmin hg h => exact finish_orderly hh h rfl rfl rfl
  | capabilities hcaps hsh hpe =>
    subst hsh hpe
    exact offer_orderly hh hm ⟨rfl,rfl,rfl,rfl,rfl,rfl,rfl⟩

/-- The response to a Request. -/
theorem peSinkSelectCapMessage_orderly {m : MsgPtr} (hh : InHand pe m)
    (h : peSinkSelectCapMessage pe m sh=some (sh',pe')) : Orderly pe sh ⟨pending,pe',sh'⟩ := by
  unfold peSinkSelectCapMessage at h
  dsimp only at h
  split_ifs at h
  · exact finish_orderly hh h rfl rfl (pdbsDpmTransitionStandby_capabilities _)
  all_goals exact finish_plain hh h rfl rfl

/-- A message in every receiving state. -/
theorem handleMessage_orderly {m : MsgPtr} (hh : InHand pe m) (hm : pe.message=some m)
    (h : handleMessage pe m sh=some (sh',pe')) : Orderly pe sh ⟨pending,pe',sh'⟩ := by
  unfold handleMessage at h
  cases hs : pe.state <;> rw [hs] at h <;> dsimp only at h
  case sinkWaitCap =>
    unfold peSinkWaitCapMessage at h
    split_ifs at h
    · obtain ⟨rfl,rfl⟩ := Prod.ext_iff.mp (Option.some.inj h)
      exact offer_orderly hh hm ⟨rfl,rfl,rfl,rfl,rfl,rfl,rfl⟩
    · exact finish_plain hh h rfl rfl
    · -- The pointer stays, into a state that overwrites it before it is read.
      obtain ⟨rfl,rfl⟩ := Prod.ext_iff.mp (Option.some.inj h)
      exact ⟨.release hh.hand rfl rfl rfl rfl rfl rfl rfl,tidy_goto (.inr (.inl (by decide))) hh.sending⟩
  case sinkSelectCap => exact peSinkSelectCapMessage_orderly hh h
  case sinkTransitionSink =>
    unfold peSinkTransitionSinkMessage at h
    dsimp only at h
    split_ifs at h
    · exact finish_plain hh h rfl rfl
    · exact finish_orderly hh h rfl rfl rfl
    · exact finish_orderly hh h rfl rfl rfl
  case sinkReady => exact peSinkReadyMessage_orderly hh hm h
  case sinkSendSoftReset =>
    unfold peSinkSendSoftResetMessage at h
    split_ifs at h <;> exact finish_plain hh h rfl rfl
  all_goals exact absurd h (by simp)

/-! ## Sending and waiting -/

section Resting

variable {state : PolicyEngineState} {point : PolicyEnginePoint}

/-- Returning a state with empty hands. -/
theorem goto_orderly (hh : hand pe=none) (hs : pe.sending=none)
    (hm : pe.message=none ∨ state ∈ staleStates) (hne : state≠.sinkEvalCap) :
    Orderly pe sh ⟨pending,goto pe state,sh⟩ := by
  constructor
  · exact .keep ⟨(hand_goto hne).trans hh.symm,rfl,rfl,rfl,rfl,rfl,rfl⟩
  · exact tidy_goto (hm.imp_right .inl) hs

/-- A state begins, and no message is evaluated. -/
theorem Tidy.message_none (ht : Tidy pe) (hh : hand pe=none) (hs : pe.state ∉ staleStates) :
    pe.message=none := (ht.message hs).trans hh

/-- Going on inside a state function. -/
theorem at_orderly (ht : Tidy pe) (hh : hand pe=none) (hp : point≠.handle ∧ point≠.start)
    (hl : leavesReady point=true → pe.state=.sinkReady)
    (hs : transmitting pe.point=true → transmitting point=true) :
    Orderly pe sh ⟨pending,at_ pe point,sh⟩ := by
  have hempty : hand (at_ pe point)=none := hand_eq_none hp.1 fun h => absurd h hp.2
  refine ⟨.keep ⟨hempty.trans hh.symm,rfl,rfl,rfl,rfl,rfl,rfl⟩,fun hstale => ?_,hl,fun hsend => ?_⟩
  · exact (ht.message_none hh hstale).trans hempty.symm
  · exact ⟨hs (ht.sending hsend).1,(ht.sending hsend).2⟩

/-- A wait, when every way to resume is orderly. -/
theorem wait_orderly {mask : List Event} {timed : Bool} {resume : List Event → PolicyEngine}
    (hr : ∀ evt pending', Orderly pe sh ⟨pending',resume evt,sh⟩)
    (h : (Action.wait mask timed resume).perform expired pending sh=some o) : Orderly pe sh o := by
  rcases Action.perform_wait.mp h with ⟨-,-,rfl⟩ | ⟨-,-,-,rfl⟩
  · exact hr _ _
  · exact hr _ _

/-- What a sending state does next: it returns a state, or awaits a
response. -/
def Advances (next : PolicyEngine → PolicyEngine) : Prop :=
  (∃ state, next=(goto · state) ∧ state≠.sinkEvalCap) ∨ next=(at_ · .waitResponse)

theorem advances_goto (h : state≠.sinkEvalCap) : Advances (goto · state) := .inl ⟨state,rfl,h⟩

/-- Freeing what was sent and going on by the result. -/
theorem freeSent_orderly {result : TxResult} {onFailure onDone : PolicyEngine → PolicyEngine}
    (ht : Tidy pe) (hp : pe.point=.sent result) (hstate : pe.state ∉ staleStates)
    (hf : Advances onFailure) (hd : Advances onDone)
    (h : (freeSent pe result onFailure onDone).perform expired pending sh=some o) :
    Orderly pe sh o := by
  have hh : hand pe=none := hand_eq_none (by rw [hp]; simp) (by rw [hp]; simp)
  have hm : pe.message=none := ht.message_none hh hstate
  obtain ⟨-,rfl⟩ := Action.perform_access_some.mp h
  have hnext {next : PolicyEngine → PolicyEngine} (hn : Advances next) :
      Orderly pe sh ⟨pending,next {pe with sending := none},sh.free? pe.sending⟩ := by
    rcases hn with ⟨state,rfl,hne⟩ | rfl
    · exact ⟨.reclaim hp hh (hand_goto hne) rfl rfl rfl,tidy_goto (.inl hm) rfl⟩
    · exact ⟨.reclaim hp hh rfl rfl rfl rfl,tidy_of_hand hm rfl rfl⟩
  cases result with
  | reset => exact hnext (advances_goto (by decide))
  | failed => exact hnext hf
  | done => exact hnext hd

/-- What a sending state does when its transmission is over. -/
theorem afterSent_orderly {result : TxResult} (ht : Tidy pe) (hp : pe.point=.sent result)
    (h : (afterSent pe result).perform expired pending sh=some o) : Orderly pe sh o := by
  have hh : hand pe=none := hand_eq_none (by rw [hp]; simp) (by rw [hp]; simp)
  have hgo {state : PolicyEngineState} (hne : state≠.sinkEvalCap) : Advances (goto · state) :=
    advances_goto hne
  unfold afterSent at h
  cases hs : pe.state <;> rw [hs] at h <;> dsimp only at h
  case sinkSelectCap =>
    have hm : pe.message=none := ht.message_none hh (by rw [hs]; decide)
    have hsend : pe.sending=none := by
      by_contra hne
      exact (ht.sending hne).2 hs
    obtain ⟨-,sh',next,he,rfl⟩ := Action.perform_access.mp h
    cases result with
    | reset =>
      obtain ⟨rfl,rfl⟩ := Prod.ext_iff.mp (Option.some.inj he)
      exact goto_orderly hh hsend (.inl hm) (by decide)
    | failed =>
      obtain ⟨rfl,rfl⟩ := Prod.ext_iff.mp (Option.some.inj he)
      exact goto_orderly hh hsend (.inl hm) (by decide)
    | done =>
      obtain ⟨rfl,rfl⟩ := Prod.ext_iff.mp (Option.some.inj he)
      exact ⟨.keep ⟨hh.symm,rfl,rfl,rfl,rfl,rfl,rfl⟩,tidy_of_hand hm rfl hsend⟩
  case sinkSoftReset =>
    exact freeSent_orderly ht hp (by rw [hs]; decide) (hgo (by decide)) (hgo (by decide)) h
  case sinkSendSoftReset =>
    exact freeSent_orderly ht hp (by rw [hs]; decide) (hgo (by decide)) (.inr rfl) h
  case sinkSendNotSupported =>
    exact freeSent_orderly ht hp (by rw [hs]; decide) (hgo (by decide)) (hgo (by decide)) h
  case sinkGetSourceCap =>
    exact freeSent_orderly ht hp (by rw [hs]; decide) (hgo (by decide)) (hgo (by decide)) h
  case sinkGiveSinkCap =>
    exact freeSent_orderly ht hp (by rw [hs]; decide) (hgo (by decide)) (hgo (by decide)) h
  all_goals exact absurd h Action.perform_stuck

/-- A message is built and posted. -/
theorem sendNew_orderly {build : Shared → PdMsg → PdMsg} (ht : Tidy pe) (hh : hand pe=none)
    (hp : transmitting pe.point=false) (hs : pe.state≠.sinkSelectCap)
    (h : (sendNew pe build).perform expired pending sh=some o) : Orderly pe sh o := by
  obtain ⟨m,pool,hpool,rfl⟩ := sendNew_perform h
  exact ⟨.send hh (ht.sending_none hp) hpool,fun hstale => ht.message_none hh hstale,
    fun hl => absurd hl Bool.false_ne_true,fun _ => ⟨rfl,hs⟩⟩

end Resting

/-! ## The thread -/

theorem peSinkReady_orderly (ht : Tidy pe) (hp : pe.point=.start) (hs : pe.state=.sinkReady)
    (h : (peSinkReady pe).perform expired pending sh=some o) : Orderly pe sh o := by
  have hh : hand pe=none := hand_eq_none (by rw [hp]; decide) fun _ => by rw [hs]; decide
  have hm : pe.message=none := ht.message_none hh (by rw [hs]; decide)
  have hsend : pe.sending=none := ht.sending_none (by rw [hp]; rfl)
  have hat {point : PolicyEnginePoint} {pending' : Event → Bool}
      (hne : point≠.handle ∧ point≠.start) : Orderly pe sh ⟨pending',at_ pe point,sh⟩ :=
    at_orderly ht hh hne (fun _ => hs) fun htr => by rw [hp] at htr; cases htr
  refine wait_orderly (fun evt pending' => ?_) h
  split_ifs
  · exact goto_orderly hh hsend (.inl hm) (by decide)
  · exact goto_orderly hh hsend (.inl hm) (by decide)
  · exact hat (by simp)
  · exact hat (by simp)
  · exact hat (by simp)
  · exact goto_orderly hh hsend (.inl hm) (by decide)
  · exact hat (by simp)
  · exact goto_orderly hh hsend (.inl hm) (by decide)

/-- The first action of a state function. -/
theorem stateFunction_orderly (ht : Tidy pe) (hp : pe.point=.start)
    (h : (stateFunction pe).perform expired pending sh=some o) : Orderly pe sh o := by
  have hsend : pe.sending=none := ht.sending_none (by rw [hp]; rfl)
  have hidle : transmitting pe.point=false := by rw [hp]; rfl
  have hat {point : PolicyEnginePoint} {pending' : Event → Bool} (hh : hand pe=none)
      (hne : point≠.handle ∧ point≠.start) (hl : leavesReady point=false) :
      Orderly pe sh ⟨pending',at_ pe point,sh⟩ :=
    at_orderly ht hh hne (fun hl' => by rw [hl] at hl'; cases hl') fun htr => by
      rw [hidle] at htr
      cases htr
  unfold stateFunction at h
  cases hs : pe.state <;> rw [hs] at h <;> dsimp only at h
  case sinkEvalCap =>
    obtain ⟨request,ppsIndex,lastPps,pool,hfrom,rfl⟩ := peSinkEvalCap_perform h
    have hh : hand pe=pe.message := by
      unfold hand
      rw [hp,hs]
      rfl
    exact ⟨.evaluate hh hfrom,tidy_goto (.inl rfl) hsend⟩
  all_goals
    have hh : hand pe=none := hand_eq_none (by rw [hp]; decide) fun _ => by rw [hs]; decide
  case sinkStartup =>
    obtain ⟨-,rfl⟩ := Action.perform_access_some.mp h
    exact ⟨.keep ⟨hh.symm,rfl,rfl,rfl,rfl,rfl,rfl⟩,tidy_goto (.inr (.inl (by decide))) hsend⟩
  case sinkDiscovery =>
    obtain ⟨-,rfl⟩ := Action.perform_access_some.mp h
    exact goto_orderly hh hsend (.inr (by decide)) (by decide)
  case sinkWaitCap =>
    refine wait_orderly (fun evt pending' => ?_) h
    split_ifs
    · exact goto_orderly hh hsend (.inr (by decide)) (by decide)
    · exact goto_orderly hh hsend (.inr (by decide)) (by decide)
    · exact goto_orderly hh hsend (.inr (by decide)) (by decide)
    · exact hat hh (by simp) rfl
    · exact goto_orderly hh hsend (.inr (by decide)) (by decide)
  case sinkHardReset =>
    unfold peSinkHardReset at h
    split_ifs at h
    · obtain ⟨-,rfl⟩ := Action.perform_access_some.mp h
      exact goto_orderly hh hsend (.inr (by decide)) (by decide)
    · obtain ⟨-,rfl⟩ := Action.perform_signal.mp h
      exact hat hh (by simp) rfl
  case sinkTransitionDefault =>
    obtain ⟨-,rfl⟩ := Action.perform_access_some.mp h
    refine ⟨.keep ⟨hh.symm,rfl,rfl,rfl,rfl,rfl,rfl⟩,fun hstale => ?_,fun hl => ?_,fun hne => ?_⟩
    · exact absurd (by decide) (hs ▸ hstale)
    · exact absurd hl Bool.false_ne_true
    · exact absurd hsend hne
  case sinkSourceUnresponsive =>
    obtain ⟨-,rfl⟩ := Action.perform_access_some.mp h
    refine ⟨.keep ⟨hh.symm,rfl,rfl,rfl,rfl,rfl,?_⟩,tidy_goto (.inr (.inl (by decide))) hsend⟩
    exact (apply_ite Dpm.capabilities _ _ _).trans (ite_self _)
  -- In the other states the pointer is to the message in hand, and there is none.
  all_goals
    have hm : pe.message=none := ht.message_none hh (by rw [hs]; decide)
  case sinkSelectCap =>
    obtain ⟨m,hr,rfl⟩ := peSinkSelectCap_perform h
    exact ⟨.request hh hr,tidy_of_hand hm rfl hsend⟩
  case sinkTransitionSink =>
    refine wait_orderly (fun evt pending' => ?_) h
    split_ifs
    · exact goto_orderly hh hsend (.inl hm) (by decide)
    · exact goto_orderly hh hsend (.inl hm) (by decide)
    · exact hat hh (by simp) rfl
  case sinkReady => exact peSinkReady_orderly ht hp hs h
  case sinkChunkReceived =>
    refine wait_orderly (fun evt pending' => ?_) h
    split_ifs
    · exact goto_orderly hh hsend (.inl hm) (by decide)
    · exact goto_orderly hh hsend (.inl hm) (by decide)
  case sinkNotSupportedReceived =>
    obtain ⟨-,rfl⟩ := Action.perform_access_some.mp h
    exact goto_orderly hh hsend (.inl hm) (by decide)
  all_goals exact sendNew_orderly ht hh hidle (by rw [hs]; decide) h

/-- Every action of the Policy Engine is orderly. -/
theorem policyEngine_orderly (ht : Tidy pe)
    (h : (policyEngine pe).perform expired pending sh=some o) : Orderly pe sh o := by
  unfold policyEngine at h
  cases hp : pe.point <;> rw [hp] at h <;> dsimp only at h
  case start => exact stateFunction_orderly ht hp h
  case sent result => exact afterSent_orderly ht hp h
  case handle =>
    obtain ⟨m,sh',next,hm,he,rfl⟩ := handle_perform h
    exact handleMessage_orderly ⟨(hand_handle hp).trans hm,ht.sending_none (by rw [hp]; rfl)⟩ hm he
  all_goals
    have hh : hand pe=none := hand_eq_none (by rw [hp]; simp) (by rw [hp]; simp)
  case dropMessage =>
    have hs := ht.ready (by rw [hp]; rfl)
    have hm : pe.message=none := ht.message_none hh (by rw [hs]; decide)
    have hsend : pe.sending=none := ht.sending_none (by rw [hp]; rfl)
    obtain ⟨-,rfl⟩ := Action.perform_access_some.mp h
    rw [hm]
    exact ⟨.keep ⟨hh.symm,rfl,rfl,rfl,rfl,rfl,rfl⟩,fun _ => rfl,fun _ => hs,fun hne => absurd hsend hne⟩
  case startAms next =>
    have hs := ht.ready (by rw [hp]; rfl)
    have hm : pe.message=none := ht.message_none hh (by rw [hs]; decide)
    obtain ⟨-,rfl⟩ := Action.perform_signal.mp h
    refine ⟨.keep ⟨?_,rfl,rfl,rfl,rfl,rfl,rfl⟩,tidy_goto (.inl hm) (ht.sending_none (by rw [hp]; rfl))⟩
    rw [hh]
    change (if next.val=.sinkEvalCap then pe.message else none)=none
    rw [hm,ite_self]
  case signalTx =>
    obtain ⟨-,rfl⟩ := Action.perform_signal.mp h
    exact at_orderly ht hh (by simp) (fun hl => by cases hl) fun _ => rfl
  case waitTx =>
    refine wait_orderly (fun evt pending' => ?_) h
    exact at_orderly ht hh (by simp) (fun hl => by cases hl) fun _ => rfl
  all_goals
    have hidle : transmitting pe.point=false := by rw [hp]; rfl
    have hsend : pe.sending=none := ht.sending_none hidle
  case signalDone =>
    obtain ⟨-,rfl⟩ := Action.perform_signal.mp h
    exact goto_orderly hh hsend (.inr (by decide)) (by decide)
  case waitResponse =>
    refine wait_orderly (fun evt pending' => ?_) h
    split_ifs
    · exact goto_orderly hh hsend (.inr (by decide)) (by decide)
    · exact goto_orderly hh hsend (.inr (by decide)) (by decide)
    · exact at_orderly ht hh (by simp) (fun hl => by cases hl) fun htr => by rw [hidle] at htr; cases htr
  case waitHardSent =>
    refine wait_orderly (fun evt pending' => ?_) h
    exact ⟨.keep ⟨hh.symm,rfl,rfl,rfl,rfl,rfl,rfl⟩,tidy_goto (.inr (.inl (by decide))) hsend⟩
  case fetch =>
    rcases fetchMessage_perform h with ⟨hq,rfl⟩ | ⟨m,rest,hq,rfl⟩
    · unfold emptyFetch
      split
      · next hs => exact goto_orderly hh hsend (.inl (ht.message_none hh (by rw [hs]; decide))) (by decide)
      · exact goto_orderly hh hsend (.inr (by decide)) (by decide)
    · exact ⟨.fetch hh hq,tidy_of_hand rfl rfl hsend⟩

end UsbPdFirmware.BlockCustody
