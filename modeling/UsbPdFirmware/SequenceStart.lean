import UsbPdFirmware.HeaderTemplate
import UsbPdFirmware.PermitQueue
import UsbPdFirmware.TransmitResults

/-!
# Permission for a message sequence

Under PD 3.0 a sink waits for the level SinkTxOk before the first message of a
sequence that it starts. The Policy Engine says so by START_AMS, a sticky flag
that Protocol TX takes with whatever message it sends next. Beside the
firmware a log numbers the messages, and keeps which of them open a sequence
and for which the flag was raised.
-/

namespace UsbPdFirmware.SequenceStart

open PdMessage DevicePolicy LabelledRuns Machine EventThreads FirmwareState FirmwareSystem
open PolicyEngine PolicyEngineMoves ProtocolRx ProtocolTx HardReset TransmitHandoff TransmitResults
open BlockCustody BlockOwners HeaderTemplate PermitQueue

/-! ## The log -/

/-- Messages on their way to the PHY. -/
structure SequenceLog where
  /-- Number of the message posted last. -/
  posted : ℕ
  /-- The next one will open a sequence. -/
  opening : Bool
  /-- Numbers in Protocol TX's mailbox, and whether they open a sequence. -/
  queued : List (ℕ × Bool)
  /-- The same for the message Protocol TX works on. -/
  current : Option (ℕ × Bool)
  /-- Numbers for which START_AMS was signalled since it was last polled. -/
  raised : List ℕ

/-- The next action signals START_AMS. -/
def announces (pe : PolicyEngine) : Bool :=
  match pe.point with
  | .startAms _ => true
  | _ => false

/-- SinkRequestTimer runs out, and the Request will be repeated. -/
def repeats (s : System) (l : Label) : Bool :=
  l.isPeTimeout && decide (s.pe.point=.start ∧ s.pe.state=.sinkReady)

/-- The log after a step. -/
def recordSequence (a : SequenceLog) (s : System) (l : Label) (s' : System) : SequenceLog :=
  if l.isPe then
    if announces s.pe then {a with opening := true,raised := a.raised++[a.posted+1]}
    else if repeats s l then {a with opening := true}
    else if phase s'.pe=.ringing then
      {a with
        posted := a.posted+1
        opening := false
        queued := EventThreads.post pdbMsgPoolSize (a.posted+1,a.opening) a.queued}
    else a
  else if l.isTx then
    if (reportedBy s.tx).isSome then {a with current := none}
    else if s.tx.point=.fetchMessage then
      {a with queued := a.queued.tail,current := (a.queued.head?).or a.current}
    else if s.tx.point=.constructAms then {a with raised := []}
    else a
  else a

/-- The firmware with the log beside it. -/
def sequenced : Machine (System × SequenceLog) Label :=
  firmware.observe ⟨0,false,[],none,[]⟩ recordSequence

/-- The message that Protocol TX works on opens a sequence. -/
def Opens (a : SequenceLog) : Prop := ∃ n, a.current=some (n,true)

/-- The points of Protocol TX from a fetch up to its poll for START_AMS. -/
def unpolled : List ProtocolTxPoint :=
  [.resetCounter,.resetSignalRx,.constructPoll,.constructHeader,.constructAms]

/-- Protocol TX gives up its message before the poll, with START_AMS pending. -/
def abandons (s : System) (l : Label) : Prop :=
  l.isTx=true ∧ s.tx.point=.constructPoll ∧
    (s.pending .prltxReset=true ∨ s.pending .prltxDiscard=true) ∧ s.pending .prltxStartAms=true

/-- Under PD 3.0 the Policy Engine does not repeat a Request by the timer, it
signals START_AMS only when no message waits for the poll, and Protocol TX
does not leave the flag behind. -/
def startsAlone (p : System × SequenceLog) (l : Label) : Prop :=
  specrev p.1=pdSpecrev30 →
    repeats p.1 l=false ∧ ¬abandons p.1 l ∧
      (l.isPe=true → announces p.1.pe=true → p.1.shared.txMailbox=[] ∧ p.1.tx.point ∉ unpolled)

instance (p : System × SequenceLog) (l : Label) : Decidable (startsAlone p l) :=
  inferInstanceAs (Decidable (_ → _ ∧ ¬(_ ∧ _ ∧ _ ∧ _) ∧ (_ → _ → _ ∧ _)))

/-- Messages that are still to pass the poll, in their order. -/
def ahead (s : System) (a : SequenceLog) : List (ℕ × Bool) :=
  (if s.tx.point ∈ unpolled then a.current.toList else [])++a.queued++
    if a.opening then [(a.posted+1,true)] else []

/-! ## The Policy Engine -/

/-- Only where it announces a sequence does it touch the flag. -/
theorem startAms_events {pe : PolicyEngine} (h : announces pe=false) :
    .prltxStartAms ∉ (policyEngine pe).events := by
  have hlist (events : List Event) (he : .prltxStartAms ∉ events) {a : PeAction}
      (ha : a.events=events) : .prltxStartAms ∉ a.events := by
    rw [ha]
    exact he
  unfold policyEngine
  cases hp : pe.point <;> dsimp only
  case startAms next =>
    unfold announces at h
    rw [hp] at h
    cases h
  case start =>
    unfold stateFunction
    cases pe.state <;> dsimp only
    case sinkHardReset =>
      unfold peSinkHardReset
      split
      · exact List.not_mem_nil
      · exact hlist [.hardrstReset] (by decide) rfl
    case sinkWaitCap => exact hlist [.peMsgRx,.peOvrTemp,.peReset] (by decide) rfl
    case sinkTransitionSink => exact hlist [.peMsgRx,.peReset] (by decide) rfl
    case sinkReady =>
      exact hlist [.peMsgRx,.peReset,.peOvrTemp,.peGetSourceCap,.peNewPower,.pePpsRequest] (by decide) rfl
    case sinkChunkReceived => exact hlist [.peReset] (by decide) rfl
    all_goals exact List.not_mem_nil
  case sent result =>
    unfold afterSent
    cases pe.state <;> exact List.not_mem_nil
  case handle => cases pe.message <;> exact List.not_mem_nil
  case dropMessage => exact List.not_mem_nil
  case fetch => exact List.not_mem_nil
  case signalTx => exact hlist [.prltxMsgTx] (by decide) rfl
  case waitTx => exact hlist [.peTxDone,.peTxErr,.peReset] (by decide) rfl
  case waitResponse => exact hlist [.peMsgRx,.peReset] (by decide) rfl
  case waitHardSent => exact hlist [.peHardSent] (by decide) rfl
  case signalDone => exact hlist [.hardrstDone] (by decide) rfl

/-- The states to which a sequence leads until its first message is posted. -/
def amsStates : List PolicyEngineState := [.sinkGetSourceCap,.sinkEvalCap,.sinkSelectCap]

section Sequences

variable (pe : PolicyEngine) (pending : Event → Bool) (sh : Shared) (expired : Bool)

/-- Everything one action of the Policy Engine can do with sequences. -/
inductive Sequences : Outcome Event PolicyEngine Shared → Prop where
  /-- It announces one. -/
  | announce {next : AmsState} (hp : pe.point=.startAms next) :
      Sequences ⟨raise [.prltxStartAms] pending,goto pe next.val,sh⟩
  /-- It repeats its Request. -/
  | again (hx : expired=true) (hp : pe.point=.start) (hs : pe.state=.sinkReady) :
      Sequences ⟨pending,goto pe .sinkSelectCap,sh⟩
  /-- It posts a message. -/
  | post {o : Outcome Event PolicyEngine Shared} {m : MsgPtr} (hp : pe.point=.start)
      (hs : pe.state ∈ sendingStates) (hp' : phase o.loc=.ringing)
      (hq : o.shared.txMailbox=EventThreads.post pdbMsgPoolSize m sh.txMailbox)
      (hf : o.pending .prltxStartAms=pending .prltxStartAms) : Sequences o
  /-- None of this. Once one is announced it goes on to a message. -/
  | keep {o : Outcome Event PolicyEngine Shared} (ha : announces pe=false)
      (hx : ¬(expired=true ∧ pe.point=.start ∧ pe.state=.sinkReady)) (hp' : phase o.loc≠.ringing)
      (hq : o.shared.txMailbox=sh.txMailbox)
      (hf : o.pending .prltxStartAms=pending .prltxStartAms)
      (hb : pe.point=.start → pe.state ∈ amsStates → o.loc.point=.start ∧ o.loc.state ∈ amsStates) :
      Sequences o

end Sequences

section Thread

variable {pe : PolicyEngine} {pending : Event → Bool} {sh : Shared} {expired : Bool}
  {o : Outcome Event PolicyEngine Shared}

/-- What follows the announcement: capabilities are evaluated, or a message is
posted. -/
theorem ams_goes_on (hp : pe.point=.start) (hs : pe.state ∈ amsStates)
    (h : (policyEngine pe).perform expired pending sh=some o) (hp' : phase o.loc≠.ringing) :
    o.loc.point=.start ∧ o.loc.state ∈ amsStates := by
  have hfunction : policyEngine pe=stateFunction pe := by
    unfold policyEngine
    rw [hp]
  rw [hfunction] at h
  unfold stateFunction at h
  have hcases : pe.state=.sinkGetSourceCap ∨ pe.state=.sinkEvalCap ∨ pe.state=.sinkSelectCap := by
    simpa [amsStates] using hs
  rcases hcases with hs | hs | hs <;> rw [hs] at h <;> dsimp only at h
  · obtain ⟨m,pool,-,rfl⟩ := sendNew_perform h
    exact absurd rfl hp'
  · obtain ⟨request,_,_,pool,-,rfl⟩ := peSinkEvalCap_perform h
    exact ⟨rfl,show PolicyEngineState.sinkSelectCap ∈ amsStates by decide⟩
  · obtain ⟨m,-,rfl⟩ := peSinkSelectCap_perform h
    exact absurd rfl hp'

/-- Every action of the Policy Engine is one of these. -/
theorem policyEngine_sequences (h : (policyEngine pe).perform expired pending sh=some o) :
    Sequences pe pending sh expired o := by
  cases ha : announces pe with
  | true =>
    unfold announces at ha
    split at ha
    · next next hp =>
      unfold policyEngine at h
      rw [hp] at h
      obtain ⟨-,rfl⟩ := Action.perform_signal.mp h
      exact .announce hp
    · cases ha
  | false =>
    have hf : o.pending .prltxStartAms=pending .prltxStartAms :=
      Action.perform_other h (startAms_events ha)
    by_cases hx : expired=true ∧ pe.point=.start ∧ pe.state=.sinkReady
    · obtain ⟨rfl,hp,hs⟩ := hx
      unfold policyEngine at h
      rw [hp] at h
      unfold stateFunction at h
      rw [hs] at h
      rcases Action.perform_wait.mp h with ⟨hx,-,-⟩ | ⟨-,-,-,rfl⟩
      · cases hx
      · exact .again rfl hp hs
    · have hgoes (hp' : phase o.loc≠.ringing) :
          pe.point=.start → pe.state ∈ amsStates → o.loc.point=.start ∧ o.loc.state ∈ amsStates :=
        fun hp hs => ams_goes_on hp hs h hp'
      cases policyEngine_transmits h with
      | idle hp hp' hq _ =>
        have hne : phase o.loc≠.ringing := by
          intro hr
          rw [hr] at hp'
          exact absurd hp' (by decide)
        exact .keep ha hx hne hq hf (hgoes hne)
      | post hp hs hp' hq => exact .post hs.1 hs.2 hp' hq rfl
      | @ring pe' hp hp' =>
        have hne : phase pe'≠.ringing := by
          rw [hp']
          decide
        exact .keep ha hx hne rfl hf (hgoes hne)
      | @result pe' hp hw _ =>
        have hne : phase pe'≠.ringing := by
          rcases hw with hw | hw <;> rw [hw] <;> decide
        exact .keep ha hx hne rfl hf (hgoes hne)

end Thread

/-! ## Protocol TX -/

section Proceeds

variable (tx : ProtocolTx) (pending : Event → Bool) (sh : Shared)

/-- Everything one action of Protocol TX can do with the flag, by where its
message stands to the poll. -/
inductive Proceeds : Outcome Event ProtocolTx Shared → Prop where
  /-- It has none that is still to pass, and fetches none. -/
  | apart {o : Outcome Event ProtocolTx Shared} (hp : tx.point ∉ unpolled) (hf : tx.point≠.fetchMessage)
      (hp' : o.loc.point ∉ unpolled) (hs : o.pending .prltxStartAms=pending .prltxStartAms) : Proceeds o
  /-- It fetches one. -/
  | fetch {o : Outcome Event ProtocolTx Shared} (hp : tx.point=.fetchMessage)
      (hp' : o.loc.point ∈ unpolled) (hs : o.pending .prltxStartAms=pending .prltxStartAms) : Proceeds o
  /-- It goes on towards the poll. -/
  | within {o : Outcome Event ProtocolTx Shared} (hp : tx.point ∈ unpolled)
      (hne : tx.point≠.constructAms) (hp' : o.loc.point ∈ unpolled)
      (hs : o.pending .prltxStartAms=pending .prltxStartAms) : Proceeds o
  /-- It gives the message up before. -/
  | giveUp {o : Outcome Event ProtocolTx Shared} (hp : tx.point=.constructPoll)
      (hr : pending .prltxReset=true ∨ pending .prltxDiscard=true) (hp' : o.loc.point ∉ unpolled)
      (hs : o.pending .prltxStartAms=pending .prltxStartAms) : Proceeds o
  /-- It does without the poll, for want of PD 3.0. -/
  | plain {o : Outcome Event ProtocolTx Shared} (hp : tx.point=.constructHeader)
      (hr : sh.hdrTemplate &&& pdHdrSpecrev≠pdSpecrev30) (hp' : o.loc.point ∉ unpolled)
      (hs : o.pending .prltxStartAms=pending .prltxStartAms) : Proceeds o
  /-- It polls. -/
  | poll {o : Outcome Event ProtocolTx Shared} (hp : tx.point=.constructAms)
      (hp' : o.loc.point=if pending .prltxStartAms then .constructSinkTxOk else .constructSend)
      (hs : o.pending .prltxStartAms=false) : Proceeds o

end Proceeds

section Transmitter

variable {tx : ProtocolTx} {pending : Event → Bool} {sh : Shared} {o : Outcome Event ProtocolTx Shared}

/-- No wait or poll but one takes the flag. -/
theorem startAms_clear (pending : Event → Bool) (p : ProtocolTxPoint) :
    clear (interruptMask p) pending .prltxStartAms=pending .prltxStartAms := by
  have hmask : .prltxStartAms ∉ interruptMask p := fun h => absurd (interruptMask_subset p h) (by decide)
  simp [hmask]

/-- A point of the waits and polls that know RESET, as the message stands. -/
theorem interrupted_proceeds {p : ProtocolTxPoint} {e : Event}
    (hp : e ∈ interruptMask tx.point) (hr : pending .prltxReset=true ∨ pending .prltxDiscard=true)
    (hp' : p ∉ unpolled) :
    Proceeds tx pending sh ⟨clear (interruptMask tx.point) pending,ProtocolTx.at_ tx p,sh⟩ := by
  have hs := startAms_clear pending tx.point
  rcases interruptMask_point hp with h | h | h
  · exact .apart (by rw [h]; decide) (by rw [h]; decide) hp' hs
  · exact .giveUp h hr hp' hs
  · exact .apart (by rw [h]; decide) (by rw [h]; decide) hp' hs

/-- Every action of Protocol TX is one of these. -/
theorem txStep_proceeds (h : TxStep tx pending sh o) : Proceeds tx pending sh o := by
  cases h with
  | heedReset hp hr => exact interrupted_proceeds hp (.inl hr) (by decide)
  | heedDiscard hp hr hd => exact interrupted_proceeds hp (.inr hd) (by decide)
  | fetch hp =>
    refine .fetch hp ?_ rfl
    dsimp only
    split <;> decide
  | resetCounter hp => exact .within (by rw [hp]; decide) (by rw [hp]; decide) (by simp [unpolled]) rfl
  | resetSignalRx hp =>
    exact .within (by rw [hp]; decide) (by rw [hp]; decide) (by simp [unpolled]) (by simp)
  | constructOn hp hr hd =>
    exact .within (by rw [hp]; decide) (by rw [hp]; decide) (by simp [unpolled])
      (by simp [constructMask])
  | constructHeader hp hm =>
    by_cases hrev : sh.hdrTemplate &&& pdHdrSpecrev=pdSpecrev30
    · refine .within (by rw [hp]; decide) (by rw [hp]; decide) ?_ rfl
      rw [if_pos hrev]
      simp [unpolled]
    · refine .plain hp hrev ?_ rfl
      rw [if_neg hrev]
      simp [unpolled]
  | constructAms hp => exact .poll hp rfl (by simp)
  | report hr =>
    rcases reportedBy_cases hr with ⟨hp,-,rfl⟩ | ⟨hp,rfl⟩ | ⟨hp,rfl⟩
    all_goals exact .apart (by rw [hp]; decide) (by rw [hp]; decide) (by simp [unpolled]) (by simp)
  | constructSinkTxOk hp =>
    refine .apart (by rw [hp]; decide) (by rw [hp]; decide) ?_ rfl
    dsimp only
    split
    · simp [unpolled]
    · rw [hp]
      decide
  | matchCompare hp =>
    refine .apart (by rw [hp]; simp [unpolled]) (by rw [hp]; simp) ?_ rfl
    dsimp only
    split <;> simp [unpolled]
  | matchRead hp => exact .apart (by rw [hp]; decide) (by rw [hp]; decide) (by simp [unpolled]) rfl
  | resetIdle hp hm => exact .apart (by rw [hp]; decide) (by rw [hp]; decide) (by simp [unpolled]) rfl
  | _ hp =>
    exact .apart (by rw [hp]; decide) (by rw [hp]; decide) (by simp [unpolled])
      (by simp [waitMessageMask,waitResponseMask])

/-- The poll comes under PD 3.0 only. -/
theorem txStep_constructAms (h : TxStep tx pending sh o) (hp' : o.loc.point=.constructAms) :
    sh.hdrTemplate &&& pdHdrSpecrev=pdSpecrev30 := by
  cases h with
  | constructHeader hp hm =>
    by_contra hrev
    dsimp only at hp'
    rw [if_neg hrev] at hp'
    cases hp'
  | fetch hp =>
    dsimp only at hp'
    split at hp' <;> cases hp'
  | constructAms hp =>
    dsimp only [ProtocolTx.at_point] at hp'
    split at hp' <;> cases hp'
  | constructSinkTxOk hp =>
    dsimp only at hp'
    split at hp'
    · cases hp'
    · rw [hp] at hp'
      cases hp'
  | matchCompare hp =>
    dsimp only at hp'
    split at hp' <;> cases hp'
  | _ => cases hp'

/-- At the poll the flag decides. -/
theorem txStep_poll (h : TxStep tx pending sh o) (hp : tx.point=.constructAms) :
    o.loc.point=if pending .prltxStartAms then .constructSinkTxOk else .constructSend := by
  have hmem : tx.point ∈ unpolled := by rw [hp]; decide
  cases txStep_proceeds h with
  | apart hn hf hp' hs => exact absurd hmem hn
  | fetch hn hp' hs => exact absurd (hn.symm.trans hp) (by decide)
  | within hn hne hp' hs => exact absurd hp hne
  | giveUp hn hi hp' hs => exact absurd (hn.symm.trans hp) (by decide)
  | plain hn hr hp' hs => exact absurd (hn.symm.trans hp) (by decide)
  | poll hn hp' hs => exact hp'

/-- Under PD 3.0 a message goes to the PHY only after the poll, and after a wait
only at SinkTxOk. -/
theorem txStep_constructSend (h : TxStep tx pending sh o)
    (hrev : sh.hdrTemplate &&& pdHdrSpecrev=pdSpecrev30) (hp' : o.loc.point=.constructSend) :
    tx.point=.constructAms ∨ tx.point=.constructSinkTxOk ∧ sh.phy.bcLvl=fusbSinkTxOk := by
  cases h with
  | constructHeader hp hm =>
    dsimp only at hp'
    rw [if_pos hrev] at hp'
    cases hp'
  | fetch hp =>
    dsimp only at hp'
    split at hp' <;> cases hp'
  | constructAms hp => exact .inl hp
  | constructSinkTxOk hp =>
    refine .inr ⟨hp,?_⟩
    by_contra hlevel
    dsimp only at hp'
    rw [if_neg hlevel,hp] at hp'
    cases hp'
  | matchCompare hp =>
    dsimp only at hp'
    split at hp' <;> cases hp'
  | _ => cases hp'

end Transmitter

/-! ## The log is right -/

/-- What holds in every run that starts its sequences alone. -/
structure Sequenced (s : System) (a : SequenceLog) : Prop where
  /-- START_AMS is pending exactly while there are numbers behind it. -/
  flag : s.pending .prltxStartAms=true ↔ a.raised≠[]
  /-- There is an entry for every message in the mailbox. -/
  queued : a.queued.length=s.shared.txMailbox.length
  /-- There is an entry for the message Protocol TX works on. -/
  current : a.current.isSome=s.tx.message.isSome
  /-- Protocol TX has a message where it needs one. -/
  holds : Carries s.tx
  /-- An announced sequence is on its way to its first message. -/
  bound : a.opening=true → s.pe.point=.start ∧ s.pe.state ∈ amsStates
  /-- There is none before the first capabilities. -/
  early : specrev s=pdSpecrev10 → s.pending .prltxStartAms=false
  /-- The poll comes under PD 3.0. -/
  polled : s.tx.point=.constructAms → specrev s=pdSpecrev30
  /-- The flag goes with the messages before the poll. -/
  paired : specrev s≠pdSpecrev20 → Paired (ahead s a) a.raised

section Runs

variable {s s' : System} {a : SequenceLog} {l : Label}

/-- A step that leaves the flag, the mailbox, Protocol TX and the log alone. -/
theorem Sequenced.beside (h : Sequenced s a) (hr : firmware.Reach anyStep s)
    (hs : firmware.step l s=some s') (hf : s'.pending .prltxStartAms=s.pending .prltxStartAms)
    (hq : s'.shared.txMailbox=s.shared.txMailbox) (htx : s'.tx=s.tx)
    (hb : a.opening=true → s'.pe.point=.start ∧ s'.pe.state ∈ amsStates) : Sequenced s' a := by
  have hahead : ahead s' a=ahead s a := by
    unfold ahead
    rw [htx]
  constructor
  case flag =>
    rw [hf]
    exact h.flag
  case queued =>
    rw [hq]
    exact h.queued
  case current =>
    rw [htx]
    exact h.current
  case holds =>
    rw [htx]
    exact h.holds
  case bound => exact hb
  case early =>
    intro hrev
    rw [hf]
    exact h.early (specrev_early hr hs hrev)
  case polled =>
    intro hp
    rw [htx] at hp
    exact specrev_step hr hs (by decide) (h.polled hp)
  case paired =>
    intro hne
    rw [hahead]
    exact h.paired fun hrev => hne (specrev_step hr hs (by decide) hrev)

/-- In `PESinkReady` a revision other than 2.0 is 3.0. -/
theorem specrev_ready (hr : firmware.Reach anyStep s) (hs : s.pe.state=.sinkReady)
    (hne : specrev s≠pdSpecrev20) : specrev s=pdSpecrev30 := by
  have h10 := specrev_ne hr (by rw [hs]; decide)
  rcases specrev_cases hr with h | h | h
  · exact absurd h h10
  · exact absurd h hne
  · exact h

/-- A message that is posted comes last, or is refused. -/
theorem ahead_post (htx : s'.tx=s.tx) (h : Paired (ahead s a) a.raised) :
    Paired (ahead s' {a with
      posted := a.posted+1
      opening := false
      queued := EventThreads.post pdbMsgPoolSize (a.posted+1,a.opening) a.queued}) a.raised := by
  let before := if s.tx.point ∈ unpolled then a.current.toList else []
  have hnew : ahead s' {a with
      posted := a.posted+1
      opening := false
      queued := EventThreads.post pdbMsgPoolSize (a.posted+1,a.opening) a.queued}=
      before++EventThreads.post pdbMsgPoolSize (a.posted+1,a.opening) a.queued := by
    unfold ahead
    rw [htx]
    exact List.append_nil _
  have hold : ahead s a=before++a.queued++if a.opening then [(a.posted+1,true)] else [] := rfl
  rw [hold] at h
  rw [hnew]
  cases hopening : a.opening with
  | true =>
    -- It opens a sequence, so it waits alone and is not refused.
    rw [hopening,if_pos rfl] at h
    obtain ⟨hbefore,hqueued⟩ := List.append_eq_nil_iff.mp h.last
    rw [hbefore,hqueued] at h
    rw [hbefore,hqueued,post_of_room (by decide)]
    exact h
  | false =>
    rw [hopening,if_neg Bool.false_ne_true,List.append_nil] at h
    by_cases hroom : a.queued.length < pdbMsgPoolSize
    · rw [post_of_room hroom,← List.append_assoc]
      exact h.append _
    · rw [post_of_full (Nat.le_of_not_lt hroom)]
      exact h

section Acts

variable {o : Outcome Event PolicyEngine Shared}

/-- The Policy Engine announces a sequence. -/
theorem Sequenced.announce {next : AmsState} (h : Sequenced s a) (hr : firmware.Reach anyStep s)
    (hl : l.isPe=true) (ha : startsAlone (s,a) l) (hp : s.pe.point=.startAms next) :
    Sequenced (s.withPe ⟨raise [.prltxStartAms] s.pending,goto s.pe next.val,s.shared⟩)
      {a with opening := true,raised := a.raised++[a.posted+1]} := by
  have hready : s.pe.state=.sinkReady :=
    (receiver_conserved (firmware_reach hr)).tidy.ready (by rw [hp]; rfl)
  constructor
  case flag => simp [System.withPe]
  case queued => exact h.queued
  case current => exact h.current
  case holds => exact h.holds
  case bound => exact fun _ => ⟨rfl,next.property⟩
  case early =>
    have h10 : specrev s≠pdSpecrev10 := specrev_ne hr (by rw [hready]; decide)
    exact fun hrev => absurd hrev h10
  case polled => exact h.polled
  case paired =>
    intro hne
    obtain ⟨-,-,halone⟩ := ha (specrev_ready hr hready hne)
    obtain ⟨hmail,hpoint⟩ := halone hl (by unfold announces; rw [hp])
    have hqueued : a.queued=[] := by
      apply List.eq_nil_of_length_eq_zero
      rw [h.queued,hmail]
      rfl
    have hopening : a.opening=false := by
      by_contra hopen
      have hstart := (h.bound (Bool.not_eq_false _ ▸ hopen)).1
      rw [hp] at hstart
      cases hstart
    have hbefore : ahead s a=[] := by
      unfold ahead
      rw [if_neg hpoint,hqueued,hopening]
      rfl
    have hraised : a.raised=[] := by
      have hdue := (h.paired hne).raised
      rw [hbefore] at hdue
      exact hdue
    have hafter : ahead (s.withPe ⟨raise [.prltxStartAms] s.pending,goto s.pe next.val,s.shared⟩)
        {a with opening := true,raised := a.raised++[a.posted+1]}=[(a.posted+1,true)] := by
      change (if s.tx.point ∈ unpolled then _ else [])++a.queued++[(a.posted+1,true)]=_
      rw [if_neg hpoint,hqueued]
      rfl
    rw [hafter,hraised]
    exact paired_announce (a.posted+1)

/-- It posts a message. -/
theorem Sequenced.post {m : MsgPtr} (h : Sequenced s a) (hr : firmware.Reach anyStep s)
    (hs : firmware.step l s=some (s.withPe o))
    (hq : o.shared.txMailbox=EventThreads.post pdbMsgPoolSize m s.shared.txMailbox)
    (hf : o.pending .prltxStartAms=s.pending .prltxStartAms) :
    Sequenced (s.withPe o) {a with
      posted := a.posted+1
      opening := false
      queued := EventThreads.post pdbMsgPoolSize (a.posted+1,a.opening) a.queued} := by
  constructor
  case flag =>
    change o.pending .prltxStartAms=true ↔ _
    rw [hf]
    exact h.flag
  case queued =>
    change _=o.shared.txMailbox.length
    rw [hq]
    exact post_length h.queued
  case current => exact h.current
  case holds => exact h.holds
  case bound => exact fun hopen => absurd hopen Bool.false_ne_true
  case early =>
    intro hrev
    change o.pending .prltxStartAms=false
    rw [hf]
    exact h.early (specrev_early hr hs hrev)
  case polled => exact fun hp => specrev_step hr hs (by decide) (h.polled hp)
  case paired =>
    intro hne
    exact ahead_post rfl (h.paired fun hrev => hne (specrev_step hr hs (by decide) hrev))

/-- It repeats its Request, which a run that starts its sequences alone leaves
out. -/
theorem Sequenced.again (h : Sequenced s a) (hr : firmware.Reach anyStep s)
    (ha : startsAlone (s,a) l) (hx : l.isPeTimeout=true) (hp : s.pe.point=.start)
    (hst : s.pe.state=.sinkReady) :
    Sequenced (s.withPe ⟨s.pending,goto s.pe .sinkSelectCap,s.shared⟩) {a with opening := true} := by
  constructor
  case flag => exact h.flag
  case queued => exact h.queued
  case current => exact h.current
  case holds => exact h.holds
  case bound => exact fun _ => ⟨rfl,show PolicyEngineState.sinkSelectCap ∈ amsStates by decide⟩
  case early => exact h.early
  case polled => exact h.polled
  case paired =>
    intro hne
    have hrepeats : repeats s l=false := (ha (specrev_ready hr hst hne)).1
    simp [repeats,hx,hp,hst] at hrepeats

/-- The Policy Engine's part. -/
theorem Sequenced.pe (h : Sequenced s a) (hr : firmware.Reach anyStep s) (hl : l.isPe=true)
    (ha : startsAlone (s,a) l) (hs : firmware.step l s=some (s.withPe o))
    (ho : (policyEngine s.pe).perform l.isPeTimeout s.pending s.shared=some o) :
    Sequenced (s.withPe o) (recordSequence a s l (s.withPe o)) := by
  unfold recordSequence
  rw [if_pos hl]
  cases policyEngine_sequences ho with
  | announce hp =>
    rw [if_pos (by unfold announces; rw [hp])]
    exact h.announce hr hl ha hp
  | again hx hp hst =>
    rw [if_neg (by unfold announces; rw [hp]; decide),if_pos (by simp [repeats,hx,hp,hst])]
    exact h.again hr ha hx hp hst
  | post hp hst hp' hq hf =>
    have hready : s.pe.state≠.sinkReady := by
      intro hready
      rw [hready] at hst
      exact absurd hst (by decide)
    rw [if_neg (by unfold announces; rw [hp]; decide),if_neg (by simp [repeats,hready])]
    rw [show (s.withPe o).pe=o.loc from rfl,if_pos hp']
    exact h.post hr hs hq hf
  | keep hn hx hp' hq hf hb =>
    rw [if_neg (by rw [hn]; decide),if_neg (by simpa [repeats] using hx)]
    rw [show (s.withPe o).pe=o.loc from rfl,if_neg hp']
    refine h.beside hr hs hf hq rfl fun hopen => ?_
    obtain ⟨hp,hst⟩ := h.bound hopen
    exact hb hp hst

end Acts

section Sends

variable {o : Outcome Event ProtocolTx Shared}

/-- Nothing is reported up to the poll. -/
theorem reportedBy_early {tx : ProtocolTx} (h : tx.point=.fetchMessage ∨ tx.point ∈ unpolled) :
    (reportedBy tx).isSome=false := by
  have hpoints : tx.point=.fetchMessage ∨ tx.point=.resetCounter ∨ tx.point=.resetSignalRx ∨
      tx.point=.constructPoll ∨ tx.point=.constructHeader ∨ tx.point=.constructAms := by
    simpa [unpolled] using h
  unfold reportedBy
  rcases hpoints with hp | hp | hp | hp | hp | hp <;> rw [hp] <;> rfl

/-- What the log does with a step of Protocol TX. -/
theorem recordSequence_tx (a : SequenceLog) (s s' : System) :
    recordSequence a s .tx s'=
      if (reportedBy s.tx).isSome then {a with current := none}
      else if s.tx.point=.fetchMessage then
        {a with queued := a.queued.tail,current := (a.queued.head?).or a.current}
      else if s.tx.point=.constructAms then {a with raised := []}
      else a := rfl

/-- Away from the poll only the message of Protocol TX may change in the log. -/
theorem recordSequence_apart (hp : s.tx.point ∉ unpolled) (hf : s.tx.point≠.fetchMessage) :
    ∃ current, recordSequence a s .tx s'={a with current := current} := by
  have hpoll : s.tx.point≠.constructAms := by
    intro hpoll
    rw [hpoll] at hp
    exact hp (by decide)
  rw [recordSequence_tx]
  cases (reportedBy s.tx).isSome with
  | true => exact ⟨none,rfl⟩
  | false =>
    rw [if_neg Bool.false_ne_true,if_neg hf,if_neg hpoll]
    exact ⟨a.current,rfl⟩

theorem recordSequence_fetch (hp : s.tx.point=.fetchMessage) :
    recordSequence a s .tx s'=
      {a with queued := a.queued.tail,current := (a.queued.head?).or a.current} := by
  rw [recordSequence_tx,if_neg (by rw [reportedBy_early (.inl hp)]; decide),if_pos hp]

theorem recordSequence_within (hp : s.tx.point ∈ unpolled) (hne : s.tx.point≠.constructAms) :
    recordSequence a s .tx s'=a := by
  have hf : s.tx.point≠.fetchMessage := by
    intro hf
    rw [hf] at hp
    exact absurd hp (by decide)
  rw [recordSequence_tx,if_neg (by rw [reportedBy_early (.inr hp)]; decide),
    if_neg hf,if_neg hne]

theorem recordSequence_poll (hp : s.tx.point=.constructAms) :
    recordSequence a s .tx s'={a with raised := []} := by
  have hearly := reportedBy_early (.inr (by rw [hp]; decide : s.tx.point ∈ unpolled))
  rw [recordSequence_tx,if_neg (by rw [hearly]; decide),if_neg (by rw [hp]; decide),
    if_pos hp]

/-- The log keeps an entry for every message that Protocol TX takes or fetches. -/
theorem Sequenced.mail (h : Sequenced s a) (hh : Handles s.tx s.pending s.shared o) :
    (recordSequence a s .tx s').queued.length=o.shared.txMailbox.length ∧
      (recordSequence a s .tx s').current.isSome=o.loc.message.isSome := by
  cases hh with
  | report hr =>
    have hrecord : recordSequence a s .tx s'={a with current := none} := by
      rw [recordSequence_tx,if_pos (by rw [hr]; rfl)]
    rw [hrecord]
    exact ⟨h.queued,rfl⟩
  | fetch hp hm hq hf =>
    rw [recordSequence_fetch hp,hm,hq,List.length_tail,List.length_tail,h.queued]
    refine ⟨rfl,?_⟩
    have hlen := h.queued
    cases hqueued : a.queued with
    | nil =>
      rw [hqueued] at hlen
      rw [List.eq_nil_of_length_eq_zero hlen.symm]
      exact h.current
    | cons x rest =>
      rw [hqueued] at hlen
      obtain ⟨m,ms,hmail⟩ := List.exists_cons_of_length_eq_add_one hlen.symm
      rw [hmail]
      rfl
  | keep hr hp hm hq hd he =>
    rw [hm,hq]
    rw [recordSequence_tx,if_neg (by rw [hr]; decide),if_neg hp]
    split
    · exact ⟨h.queued,h.current⟩
    · exact ⟨h.queued,h.current⟩

/-- Away from the poll the messages ahead are those of the mailbox, and the
announced one. -/
theorem ahead_apart (hp : s.tx.point ∉ unpolled) :
    ahead s a=a.queued++if a.opening then [(a.posted+1,true)] else [] := by
  unfold ahead
  rw [if_neg hp]
  rfl

/-- Up to the poll there is the message of Protocol TX before them. -/
theorem ahead_unpolled (hp : s.tx.point ∈ unpolled) :
    ahead s a=a.current.toList++(a.queued++if a.opening then [(a.posted+1,true)] else []) := by
  unfold ahead
  rw [if_pos hp,List.append_assoc]

/-- A message that leaves without the poll leaves no flag behind. -/
theorem ahead_leaves (hp : s.tx.point ∈ unpolled) (hp' : s'.tx.point ∉ unpolled) (hr : a.raised=[])
    (h : Paired (ahead s a) a.raised) : Paired (ahead s' a) a.raised := by
  rw [hr,ahead_unpolled hp] at h
  rw [hr,ahead_apart hp']
  exact h.gone

/-- The message that is fetched was the first in the mailbox. -/
theorem ahead_fetch {x : ℕ × Bool} {rest : List (ℕ × Bool)} (hp : s.tx.point ∉ unpolled)
    (hp' : s'.tx.point ∈ unpolled) (hq : a.queued=x::rest) :
    ahead s' {a with queued := a.queued.tail,current := (a.queued.head?).or a.current}=ahead s a := by
  rw [ahead_unpolled hp',ahead_apart hp,hq]
  rfl

/-- With the flag down nothing is behind it. -/
theorem Sequenced.raised_nil (h : Sequenced s a) (hf : s.pending .prltxStartAms=false) : a.raised=[] := by
  by_contra hne
  exact absurd (h.flag.mpr hne) (by rw [hf]; decide)

/-- Nor are there sequences before a revision is settled. -/
theorem Sequenced.raised_early (h : Sequenced s a) (hr : firmware.Reach anyStep s)
    (h20 : specrev s≠pdSpecrev20) (h30 : specrev s≠pdSpecrev30) : a.raised=[] := by
  rcases specrev_cases hr with h10 | h' | h'
  · exact h.raised_nil (h.early h10)
  · exact absurd h' h20
  · exact absurd h' h30

/-- Nor while the message before the poll is given up. -/
theorem Sequenced.raised_abandoned (h : Sequenced s a) (hr : firmware.Reach anyStep s)
    (ha : startsAlone (s,a) .tx) (hp : s.tx.point=.constructPoll)
    (hi : s.pending .prltxReset=true ∨ s.pending .prltxDiscard=true) (h20 : specrev s≠pdSpecrev20) :
    a.raised=[] := by
  by_cases h30 : specrev s=pdSpecrev30
  · refine h.raised_nil ?_
    by_contra hpend
    exact (ha h30).2.1 ⟨rfl,hp,hi,Bool.not_eq_false _ ▸ hpend⟩
  · exact h.raised_early hr h20 h30

/-- The mailbox has an entry when a message is fetched. -/
theorem Sequenced.exists_queued (h : Sequenced s a) (hr : firmware.Reach anyStep s)
    (hp : s.tx.point=.fetchMessage) : ∃ x rest, a.queued=x::rest := by
  refine List.exists_cons_of_ne_nil fun hnil => ?_
  have hlen := h.queued
  rw [hnil] at hlen
  exact txMailbox_ne_nil hr hp (List.eq_nil_of_length_eq_zero hlen.symm)

/-- At the poll there is an entry for the message. -/
theorem Sequenced.exists_current (h : Sequenced s a) (hp : s.tx.point=.constructAms) :
    ∃ x, a.current=some x := by
  refine Option.isSome_iff_exists.mp ?_
  rw [h.current]
  exact h.holds (by rw [hp]; rfl)

/-- Whether START_AMS is pending after a step of Protocol TX, and for what. -/
theorem Sequenced.proceeds {a' : SequenceLog} (h : Sequenced s a) (hr : firmware.Reach anyStep s)
    (ha : startsAlone (s,a) .tx) (ht : TxStep s.tx s.pending s.shared o)
    (ha' : recordSequence a s .tx (s.withTx o)=a') :
    (o.pending .prltxStartAms=true ↔ a'.raised≠[]) ∧
      (s.pending .prltxStartAms=false → o.pending .prltxStartAms=false) ∧
      (specrev s≠pdSpecrev20 → Paired (ahead (s.withTx o) a') a'.raised) := by
  have hkept (hs : o.pending .prltxStartAms=s.pending .prltxStartAms) :
      (o.pending .prltxStartAms=true ↔ a.raised≠[]) ∧
        (s.pending .prltxStartAms=false → o.pending .prltxStartAms=false) := by
    rw [hs]
    exact ⟨h.flag,id⟩
  cases txStep_proceeds ht with
  | apart hp hf hp' hs =>
    obtain ⟨current,rfl⟩ : ∃ current, a'={a with current := current} := by
      rw [← ha']
      exact recordSequence_apart hp hf
    refine ⟨(hkept hs).1,(hkept hs).2,fun hne => ?_⟩
    rw [ahead_apart hp']
    have hpaired := h.paired hne
    rw [ahead_apart hp] at hpaired
    exact hpaired
  | fetch hp hp' hs =>
    rw [recordSequence_fetch hp] at ha'
    subst ha'
    obtain ⟨x,rest,hq⟩ := h.exists_queued hr hp
    refine ⟨(hkept hs).1,(hkept hs).2,fun hne => ?_⟩
    rw [ahead_fetch (by rw [hp]; decide) hp' hq]
    exact h.paired hne
  | within hp hne hp' hs =>
    rw [recordSequence_within hp hne] at ha'
    subst ha'
    refine ⟨(hkept hs).1,(hkept hs).2,fun hrev => ?_⟩
    have hpaired := h.paired hrev
    rw [ahead_unpolled hp] at hpaired
    rw [ahead_unpolled hp']
    exact hpaired
  | giveUp hp hi hp' hs =>
    have hmem : s.tx.point ∈ unpolled := by rw [hp]; decide
    rw [recordSequence_within hmem (by rw [hp]; decide)] at ha'
    subst ha'
    refine ⟨(hkept hs).1,(hkept hs).2,fun hne => ?_⟩
    exact ahead_leaves hmem hp' (h.raised_abandoned hr ha hp hi hne) (h.paired hne)
  | plain hp hrev hp' hs =>
    have hmem : s.tx.point ∈ unpolled := by rw [hp]; decide
    rw [recordSequence_within hmem (by rw [hp]; decide)] at ha'
    subst ha'
    refine ⟨(hkept hs).1,(hkept hs).2,fun hne => ?_⟩
    exact ahead_leaves hmem hp' (h.raised_early hr hne hrev) (h.paired hne)
  | poll hp hp' hs =>
    rw [recordSequence_poll hp] at ha'
    subst ha'
    refine ⟨by rw [hs]; simp,fun _ => hs,fun hne => ?_⟩
    obtain ⟨x,hx⟩ := h.exists_current hp
    have hleft : (s.withTx o).tx.point ∉ unpolled := by
      change o.loc.point ∉ unpolled
      rw [hp']
      split <;> decide
    have hpaired := h.paired hne
    rw [ahead_unpolled (by rw [hp]; decide),hx] at hpaired
    rw [ahead_apart hleft]
    exact hpaired.served

/-- Protocol TX's part. -/
theorem Sequenced.tx (h : Sequenced s a) (hr : firmware.Reach anyStep s)
    (ha : startsAlone (s,a) .tx) (hs : firmware.step .tx s=some (s.withTx o))
    (ht : TxStep s.tx s.pending s.shared o) :
    Sequenced (s.withTx o) (recordSequence a s .tx (s.withTx o)) := by
  have htemplate : specrev (s.withTx o)=specrev s :=
    congrArg (· &&& pdHdrSpecrev) (template_frame (firmware_moved hs) rfl).1
  have hopening : (recordSequence a s .tx (s.withTx o)).opening=a.opening := by
    rw [recordSequence_tx]
    split_ifs <;> rfl
  obtain ⟨hqueued,hcurrent⟩ :
      (recordSequence a s .tx (s.withTx o)).queued.length=o.shared.txMailbox.length ∧
        (recordSequence a s .tx (s.withTx o)).current.isSome=o.loc.message.isSome :=
    h.mail (protocolTx_handles ht)
  obtain ⟨hflag,hearly,hpaired⟩ := h.proceeds hr ha ht rfl
  constructor
  case flag => exact hflag
  case queued => exact hqueued
  case current => exact hcurrent
  case holds => exact h.holds.step ht
  case bound =>
    rw [hopening]
    exact h.bound
  case early =>
    rw [htemplate]
    exact fun h10 => hearly (h.early h10)
  case polled =>
    rw [htemplate]
    exact txStep_constructAms ht
  case paired =>
    rw [htemplate]
    exact hpaired

end Sends

/-- The other threads and the environment. -/
theorem Sequenced.other (h : Sequenced s a) (hr : firmware.Reach anyStep s)
    (hs : firmware.step l s=some s') (hpe : l.isPe=false) (htx : l.isTx=false) :
    Sequenced s' (recordSequence a s l s') := by
  have hmoved := firmware_moved hs
  have hrecord : recordSequence a s l s'=a := by
    unfold recordSequence
    rw [hpe,htx]
    rfl
  have hflag : s'.pending .prltxStartAms=s.pending .prltxStartAms := by
    cases hmoved with
    | pe hl he hp => exact absurd (hl.symm.trans hpe) (by decide)
    | rx hrx => exact hrx.pending_other (by decide)
    | tx ht => exact absurd htx (by decide)
    | hr hl hh => exact hh.pending_other (by decide)
    | intN hn => exact hn.pending_other (by decide)
    | env he => exact (environment_frame he).pending _ (by decide)
  obtain ⟨hq,htx,hpe,-⟩ := transmit_frame hmoved hpe htx
  rw [hrecord]
  refine h.beside hr hs hflag hq htx fun hopen => ?_
  rw [hpe]
  exact h.bound hopen

/-- One step of a run that starts its sequences alone. -/
theorem Sequenced.step (h : Sequenced s a) (hr : firmware.Reach anyStep s) (ha : startsAlone (s,a) l)
    (hs : firmware.step l s=some s') : Sequenced s' (recordSequence a s l s') := by
  have hmoved := firmware_moved hs
  cases hpe : l.isPe with
  | true =>
    obtain ⟨o,ho,rfl⟩ := exists_peStep hmoved hpe
    exact h.pe hr hpe ha hs ho
  | false =>
    cases htx : l.isTx with
    | true =>
      obtain ⟨o,ho,rfl⟩ := exists_txStep hmoved htx
      have hl : l=.tx := by
        cases l <;> first | rfl | cases htx
      rw [hl] at hs ha
      rw [hl]
      exact h.tx hr ha hs ho
    | false => exact h.other hr hs hpe htx

end Runs

/-- The log is right in every such run. -/
theorem sequenced_of_reach {p : System × SequenceLog} (h : sequenced.Reach startsAlone p) :
    Sequenced p.1 p.2 := by
  refine h.observed_invariant (I := Sequenced) ?_ fun _ _ _ _ hr hi ha hs =>
    hi.step hr.any.unobserved ha hs
  constructor
  case flag => exact ⟨fun hp => absurd hp (by decide),fun hn => absurd rfl hn⟩
  case queued => rfl
  case current => rfl
  case holds => exact fun hc => absurd hc (by decide)
  case bound => exact fun hopen => absurd hopen (by decide)
  case early => exact fun _ => rfl
  case polled => exact fun hp => absurd hp (by decide)
  case paired => exact fun _ => paired_nil

/-! ## Waiting for the level -/

/-- What a step of Protocol TX under PD 3.0 has to do with the level. -/
structure AwaitsLevel (p q : System × SequenceLog) : Prop where
  /-- It starts to wait exactly when its message opens a sequence. -/
  poll : p.1.tx.point=.constructAms → (q.1.tx.point=.constructSinkTxOk ↔ Opens p.2)
  /-- The flag that it takes was signalled for this message. -/
  own : p.1.tx.point=.constructAms → ∀ n ∈ p.2.raised, p.2.current=some (n,true)
  /-- It goes on to the PHY from there, or at the end of the wait. -/
  level : q.1.tx.point=.constructSend → p.1.tx.point=.constructAms ∨
    p.1.tx.point=.constructSinkTxOk ∧ p.1.shared.phy.bcLvl=fusbSinkTxOk

/-- In every run that starts its sequences alone, Protocol TX waits for the level
exactly with their first messages. -/
theorem waits_iff_opens {p q : System × SequenceLog} (h : sequenced.Reach startsAlone p)
    (hrev : specrev p.1=pdSpecrev30) (hs : sequenced.step .tx p=some q) : AwaitsLevel p q := by
  have hlog := sequenced_of_reach h
  obtain ⟨o,ht,hq⟩ := exists_txStep (firmware_moved (observe_step.mp hs).1) rfl
  have hhead (hp : p.1.tx.point=.constructAms) :
      ∃ x, p.2.current=some x ∧ (p.2.raised≠[] ↔ x.2=true) ∧ ∀ n ∈ p.2.raised, x=(n,true) := by
    obtain ⟨x,hx⟩ := hlog.exists_current hp
    have hpaired := hlog.paired (by rw [hrev]; decide)
    rw [ahead_unpolled (by rw [hp]; decide),hx] at hpaired
    exact ⟨x,hx,hpaired.head⟩
  constructor
  case poll =>
    intro hp
    obtain ⟨x,hx,hneeds,-⟩ := hhead hp
    have hwait : q.1.tx.point=.constructSinkTxOk ↔ p.1.pending .prltxStartAms=true := by
      rw [hq]
      change o.loc.point=_ ↔ _
      rw [txStep_poll ht hp]
      cases p.1.pending .prltxStartAms <;> decide
    have hopens : Opens p.2 ↔ x.2=true := by
      unfold Opens
      rw [hx]
      constructor
      · rintro ⟨n,hn⟩
        rw [Option.some.inj hn]
      · exact fun h => ⟨x.1,congrArg some (Prod.ext rfl h)⟩
    exact hwait.trans (hlog.flag.trans (hneeds.trans hopens.symm))
  case own =>
    intro hp n hn
    obtain ⟨x,hx,-,hown⟩ := hhead hp
    rw [hx,hown n hn]
  case level =>
    intro hp'
    rw [hq] at hp'
    exact txStep_constructSend ht hrev hp'

/-- Capabilities of a PD 3.0 source that offers 5 V at 3 A. -/
def sourceCapabilities30 (id : ℕ) : PdMsg :=
  PdMsg.setMessageid ⟨pdSpecrev30 ||| pdMsgtypeSourceCapabilities ||| pdNumobj 1,
    fun _ => 0x0001912C⟩ id

/-- From power-up to an explicit contract under PD 3.0. -/
def negotiate30 : List Label :=
  List.flatten [powerUp,deliver (sourceCapabilities30 0),[.pe,.pe,.pe,.pe,.pe,.pe],send,[.tx],
    acknowledge 0,[.pe,.pe],deliver (controlMessage pdMsgtypeAccept 1),[.pe,.pe,.pe],
    deliver (controlMessage pdMsgtypePsRdy 2),[.pe,.pe,.pe]]

/-- The user asks for a new negotiation, and its Request reaches the poll. -/
def renewed : List Label :=
  List.flatten [negotiate30,[.env .newPower],[.pe,.pe,.pe,.pe,.pe,.pe],[.tx,.tx,.tx,.tx]]

/-- It waits there. -/
theorem waits_iff_opens_renewed : ∃ p q, sequenced.Reach startsAlone p ∧
    sequenced.step .tx p=some q ∧ Opens p.2 ∧ q.1.tx.point=.constructSinkTxOk := by
  obtain ⟨p,q,hr,hs,ht⟩ := exists_step_of_follow sequenced startsAlone renewed .tx
    (fun p _ => decide (p.1.tx.point=.constructAms ∧ specrev p.1=pdSpecrev30 ∧
      p.2.current=some (2,true))) (by decide +kernel)
  obtain ⟨hp,hrev,hcurrent⟩ := of_decide_eq_true ht
  have hopens : Opens p.2 := ⟨2,hcurrent⟩
  exact ⟨p,q,hr,hs,hopens,((waits_iff_opens hr hrev hs).poll hp).mpr hopens⟩

/-- A stored configuration with GiveBack. -/
def givesBack : PdbsConfig := ⟨pdbsConfigStatusValid,pdbsConfigFlagsGiveback,5000,10,0,0⟩

/-- Power is given back, then SinkRequestTimer runs out, and the Request is
repeated up to the poll. -/
def repeated : List Label :=
  List.flatten [[.env (.storeConfig (some givesBack))],negotiate30,
    deliver (controlMessage pdMsgtypeGotomin 3),[.pe,.pe,.pe],
    deliver (controlMessage pdMsgtypePsRdy 4),[.pe,.pe,.pe,.peTimeout,.pe,.pe],[.tx,.tx,.tx,.tx]]

/-- It opens a sequence, but goes to the PHY without a wait. -/
theorem exists_unawaited_repeat : ¬∀ p q, sequenced.Reach anyStep p → specrev p.1=pdSpecrev30 →
    sequenced.step .tx p=some q → AwaitsLevel p q := by
  intro hall
  obtain ⟨p,q,hr,hs,ht⟩ := exists_step_of_follow sequenced anyStep repeated .tx
    (fun p q => decide (p.1.tx.point=.constructAms ∧ specrev p.1=pdSpecrev30 ∧
      p.2.current=some (2,true) ∧ q.1.tx.point=.constructSend)) (by decide +kernel)
  obtain ⟨hp,hrev,hcurrent,hq⟩ := of_decide_eq_true ht
  have hwait := ((hall p q hr hrev hs).poll hp).mpr ⟨2,hcurrent⟩
  exact absurd (hwait.symm.trans hq) (by decide)

end UsbPdFirmware.SequenceStart
