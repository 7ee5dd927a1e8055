import UsbPdFirmware.TransmitHandoff

/-!
# Whose result the Policy Engine takes

The flags TX_DONE and TX_ERR carry no identity. Beside the firmware a log
numbers the posted messages and follows each number through the mailbox and
Protocol TX to the flag that answers it. A hard reset can free the Policy
Engine before Protocol TX reports on the abandoned message; the flag then
stays pending and is taken for the result of a later message. When every
message is posted with nothing left over, no result is taken for another.
-/

namespace UsbPdFirmware.TransmitResults

open LabelledRuns Machine EventThreads FirmwareState FirmwareSystem
open PdMessage PolicyEngine PolicyEngineMoves ProtocolRx ProtocolTx HardReset TransmitHandoff

/-- The numbers of the messages on their way, and the results taken. -/
structure TransmitLog where
  /-- Number of the message posted last. -/
  posted : ℕ
  /-- Numbers in Protocol TX's mailbox. -/
  queued : List ℕ
  /-- Number of the message Protocol TX works on. -/
  current : Option ℕ
  /-- Numbers behind a pending TX_DONE. -/
  doneBy : List ℕ
  /-- Numbers behind a pending TX_ERR. -/
  errBy : List ℕ
  /-- For each result taken, the message waited for and the messages behind
  the flags. -/
  results : List (ℕ × List ℕ)

namespace TransmitLog

variable (h : TransmitLog)

/-- The Policy Engine posts a message. -/
def post : TransmitLog :=
  {h with posted := h.posted+1,queued := EventThreads.post pdbMsgPoolSize (h.posted+1) h.queued}

/-- Protocol TX fetches a message. -/
def fetch : TransmitLog := {h with queued := h.queued.tail,current := (h.queued.head?).or h.current}

/-- Protocol TX reports on its message. -/
def report (result : Event) : TransmitLog :=
  if result=.peTxDone then {h with doneBy := h.doneBy++h.current.toList,current := none}
  else {h with errBy := h.errBy++h.current.toList,current := none}

/-- The Policy Engine takes the flags; with a reset it takes no result. -/
def take (reset : Bool) : TransmitLog :=
  {h with
    doneBy := []
    errBy := []
    results := if reset then h.results else h.results++[(h.posted,h.doneBy++h.errBy)]}

/-- Every number on its way to the Policy Engine. -/
def inFlight : List ℕ := h.queued++h.current.toList++h.doneBy++h.errBy

end TransmitLog

/-- The log after a step. -/
def record (h : TransmitLog) (s : System) (l : Label) (s' : System) : TransmitLog :=
  if l.isPe then
    if s.pe.point=.waitTx then h.take (s.pending .peReset)
    else if phase s'.pe=.ringing then h.post else h
  else if l.isTx then
    match reportedBy s.tx with
    | some result => h.report result
    | none => if s.tx.point=.fetchMessage then h.fetch else h
  else h

section Record

variable {h : TransmitLog} {s s' : System} {l : Label}

theorem record_idle (hl : l.isPe=true) (hp : transmitting (phase s.pe)=false)
    (hp' : transmitting (phase s'.pe)=false) : record h s l s'=h := by
  have hwait : s.pe.point≠.waitTx := by
    intro hw
    rw [phase_waitTx hw] at hp
    exact absurd hp (by decide)
  have hring : phase s'.pe≠.ringing := by
    intro hr
    rw [hr] at hp'
    exact absurd hp' (by decide)
  rw [record,if_pos hl,if_neg hwait,if_neg hring]

theorem record_post (hl : l.isPe=true) (hp : phase s.pe=.working) (hp' : phase s'.pe=.ringing) :
    record h s l s'=h.post := by
  rw [record,if_pos hl,if_neg (point_ne_waitTx hp (by decide)),if_pos hp']

theorem record_ring (hl : l.isPe=true) (hp : phase s.pe=.ringing) (hp' : phase s'.pe=.sending) :
    record h s l s'=h := by
  have hring : phase s'.pe≠.ringing := by
    rw [hp']
    decide
  rw [record,if_pos hl,if_neg (point_ne_waitTx hp (by decide)),if_neg hring]

theorem record_result (hl : l.isPe=true) (hp : s.pe.point=.waitTx) :
    record h s l s'=h.take (s.pending .peReset) := by
  rw [record,if_pos hl,if_pos hp]

theorem record_report {result : Event} (hr : reportedBy s.tx=some result) :
    record h s .tx s'=h.report result := by
  simp [record,Label.isPe,Label.isTx,hr]

theorem record_fetch (hp : s.tx.point=.fetchMessage) : record h s .tx s'=h.fetch := by
  simp [record,Label.isPe,Label.isTx,reportedBy,hp]

theorem record_tx (hr : reportedBy s.tx=none) (hp : s.tx.point≠.fetchMessage) :
    record h s .tx s'=h := by
  simp [record,Label.isPe,Label.isTx,hr,hp]

theorem record_other (hl : l.isPe=false) (ht : l.isTx=false) : record h s l s'=h := by
  simp [record,hl,ht]

end Record

/-- The firmware with the log beside it. -/
def logged : Machine (System × TransmitLog) Label := firmware.observe ⟨0,[],none,[],[],[]⟩ record

/-- Every result taken was raised for the message waited for. -/
def OwnResults (h : TransmitLog) : Prop := ∀ r ∈ h.results, r.2≠[] ∧ ∀ n ∈ r.2, n=r.1

instance (h : TransmitLog) : Decidable (OwnResults h) :=
  inferInstanceAs (Decidable (∀ r ∈ h.results, _ ∧ _))

/-- A message is posted only when nothing of an earlier one is left: the
mailbox is empty, Protocol TX has no message, and no result is pending. -/
def startsClean (p : System × TransmitLog) (l : Label) : Prop :=
  l.isPe=true → p.1.pe.point=.start → p.1.pe.state ∈ sendingStates →
    p.1.shared.txMailbox=[] ∧ p.1.tx.message=none ∧ p.1.pending .peTxDone=false ∧
      p.1.pending .peTxErr=false

/-! ## Protocol TX carries a message -/

/-- The points past the construction of the header, up to the report. -/
def carries : ProtocolTxPoint → Bool
  | .constructAms => true
  | .constructSinkTxOk => true
  | .constructSend => true
  | .waitResponse => true
  | .matchRead => true
  | .matchCompare _ => true
  | .transmissionError => true
  | .transmissionErrorSignal => true
  | .messageSent => true
  | .messageSentSignal => true
  | _ => false

/-- At those points the thread has a message. -/
def Carries (tx : ProtocolTx) : Prop := carries tx.point=true → tx.message.isSome=true

/-- Each action keeps it. -/
theorem Carries.step {tx : ProtocolTx} {pending : Event → Bool} {sh : Shared}
    {o : Outcome Event ProtocolTx Shared} (hc : Carries tx) (h : TxStep tx pending sh o) :
    Carries o.loc := by
  intro hp'
  cases h with
  | constructHeader hp hm => rfl
  | fetch hp =>
    simp only at hp'
    split at hp' <;> cases hp'
  | constructAms hp => exact hc (by rw [hp]; rfl)
  | constructSinkTxOk hp =>
    have hm := hc (by rw [hp]; rfl)
    simp only
    split <;> exact hm
  | send hp => exact hc (by rw [hp]; rfl)
  | heedTxsent hp hr hd ht => exact hc (by rw [hp]; rfl)
  | heedRetryfail hp hr hd ht hf => exact hc (by rw [hp]; rfl)
  | matchRead hp => exact hc (by rw [hp]; rfl)
  | matchCompare hp =>
    have hm := hc (by rw [hp]; rfl)
    simp only
    split <;> exact hm
  | transmissionError hp => exact hc (by rw [hp]; rfl)
  | messageSent hp => exact hc (by rw [hp]; rfl)
  | _ => cases hp'

/-- A thread that reports has a message. -/
theorem Carries.isSome_of_reportedBy {tx : ProtocolTx} {result : Event} (hc : Carries tx)
    (h : reportedBy tx=some result) : tx.message.isSome=true := by
  rcases reportedBy_cases h with ⟨-,hm,-⟩ | ⟨hp,-⟩ | ⟨hp,-⟩
  · exact hm
  · exact hc (by rw [hp]; rfl)
  · exact hc (by rw [hp]; rfl)

/-! ## The log is right -/

/-- The log agrees with the firmware, in every run. -/
structure Logged (p : System × TransmitLog) : Prop where
  /-- There is a number for every message in the mailbox. -/
  queued : p.2.queued.length=p.1.shared.txMailbox.length
  /-- There is a number for the message Protocol TX works on. -/
  current : p.2.current.isSome=p.1.tx.message.isSome
  /-- Protocol TX has a message where it needs one. -/
  holds : Carries p.1.tx
  /-- TX_DONE is pending exactly while there are numbers behind it. -/
  doneBy : p.1.pending .peTxDone=true ↔ p.2.doneBy≠[]
  /-- So is TX_ERR. -/
  errBy : p.1.pending .peTxErr=true ↔ p.2.errBy≠[]

/-- A thread that has no part in transmissions keeps the log right. -/
theorem Logged.frame {s s' : System} {h : TransmitLog} (hi : Logged (s,h))
    (hq : s'.shared.txMailbox=s.shared.txMailbox) (htx : s'.tx=s.tx)
    (hf : ∀ e ∈ transmitEvents, s'.pending e=s.pending e) : Logged (s',h) := by
  refine ⟨?_,?_,?_,?_,?_⟩
  · rw [hq]
    exact hi.queued
  · rw [htx]
    exact hi.current
  · rw [htx]
    exact hi.holds
  · rw [hf _ (by decide)]
    exact hi.doneBy
  · rw [hf _ (by decide)]
    exact hi.errBy

/-- Posting a number and posting a message give mailboxes of one length. -/
theorem post_length {α β : Type} {c : ℕ} {m : α} {n : β} {q : List α} {r : List β}
    (h : q.length=r.length) : (EventThreads.post c m q).length=(EventThreads.post c n r).length := by
  unfold EventThreads.post
  rw [h]
  split_ifs
  · simp [h]
  · exact h

/-- The Policy Engine's part. -/
theorem Logged.pe {s : System} {l : Label} {h : TransmitLog} {o : Outcome Event PolicyEngine Shared}
    (hl : l.isPe=true) (ht : Transmits s.pe s.pending s.shared o) (hi : Logged (s,h)) :
    Logged (s.withPe o,record h s l (s.withPe o)) := by
  cases ht with
  | idle hp hp' hq hf =>
    rw [record_idle hl hp hp']
    exact hi.frame hq rfl hf
  | post hp hs hp' hq =>
    rw [record_post hl hp hp']
    refine ⟨?_,hi.current,hi.holds,hi.doneBy,hi.errBy⟩
    simp only [System.withPe,hq]
    exact post_length hi.queued
  | ring hp hp' =>
    rw [record_ring hl hp hp']
    exact ⟨hi.queued,hi.current,hi.holds,by simpa [System.withPe] using hi.doneBy,
      by simpa [System.withPe] using hi.errBy⟩
  | result hp hw ht =>
    rw [record_result hl hp]
    exact ⟨hi.queued,hi.current,hi.holds,by simp [System.withPe,TransmitLog.take,waitMask_waitTx hp],
      by simp [System.withPe,TransmitLog.take,waitMask_waitTx hp]⟩

section Handles

variable (tx : ProtocolTx) (pending : Event → Bool) (sh : Shared)

/-- Everything one action of Protocol TX can do to the messages on their way. -/
inductive Handles : Outcome Event ProtocolTx Shared → Prop where
  /-- It reports on its message and gives it up. -/
  | report {result : Event} (hr : reportedBy tx=some result) :
      Handles ⟨raise [result] pending,⟨.waitMessage,none⟩,sh⟩
  /-- It fetches a message. -/
  | fetch {o : Outcome Event ProtocolTx Shared} (hp : tx.point=.fetchMessage)
      (hm : o.loc.message=(sh.txMailbox.head?).or tx.message)
      (hq : o.shared.txMailbox=sh.txMailbox.tail) (hf : o.pending=pending) : Handles o
  /-- It does neither. -/
  | keep {o : Outcome Event ProtocolTx Shared} (hr : reportedBy tx=none) (hp : tx.point≠.fetchMessage)
      (hm : o.loc.message.isSome=tx.message.isSome) (hq : o.shared.txMailbox=sh.txMailbox)
      (hd : o.pending .peTxDone=pending .peTxDone) (he : o.pending .peTxErr=pending .peTxErr) :
      Handles o

end Handles

/-- A point that knows RESET neither fetches nor reports. -/
theorem interruptible {tx : ProtocolTx} {e : Event} (h : e ∈ interruptMask tx.point) :
    reportedBy tx=none ∧ tx.point≠.fetchMessage := by
  unfold reportedBy
  rcases interruptMask_point h with hp | hp | hp <;> rw [hp] <;> exact ⟨rfl,by decide⟩

/-- Every action of Protocol TX is one of these. -/
theorem protocolTx_handles {tx : ProtocolTx} {pending : Event → Bool} {sh : Shared}
    {o : Outcome Event ProtocolTx Shared} (h : TxStep tx pending sh o) : Handles tx pending sh o := by
  have hapart (p : ProtocolTxPoint) : .peTxDone ∉ interruptMask p ∧ .peTxErr ∉ interruptMask p :=
    ⟨fun h => absurd (interruptMask_subset p h) (by decide),
      fun h => absurd (interruptMask_subset p h) (by decide)⟩
  cases h with
  | report hr => exact .report hr
  | fetch hp => exact .fetch hp rfl rfl rfl
  | heedReset hp hr =>
    have hn := interruptible hp
    exact .keep hn.1 hn.2 rfl rfl (by simp [hapart]) (by simp [hapart])
  | heedDiscard hp hr hd =>
    have hn := interruptible hp
    exact .keep hn.1 hn.2 rfl rfl (by simp [hapart]) (by simp [hapart])
  | constructHeader hp hm =>
    exact .keep (by simp [reportedBy,hp]) (by rw [hp]; decide) (by rw [hm]; rfl) rfl rfl rfl
  | constructSinkTxOk hp =>
    exact .keep (by simp [reportedBy,hp]) (by rw [hp]; decide) (by simp only; split <;> rfl) rfl rfl rfl
  | matchCompare hp =>
    exact .keep (by simp [reportedBy,hp]) (by rw [hp]; simp) (by simp only; split <;> rfl) rfl rfl rfl
  | matchRead hp =>
    exact .keep (by simp [reportedBy,hp]) (by rw [hp]; decide) rfl (by rw [fusbReadMessage_eq])
      rfl rfl
  | discard hp =>
    exact .keep (by simp [reportedBy,hp]) (by rw [hp]; decide) rfl (by simp only; split <;> rfl) rfl rfl
  | resetIdle hp hm => exact .keep (by simp [reportedBy,hp,hm]) (by rw [hp]; decide) rfl rfl rfl rfl
  | _ hp =>
    exact .keep (by simp [reportedBy,hp]) (by rw [hp]; decide) rfl rfl
      (by simp [waitMessageMask,constructMask,waitResponseMask])
      (by simp [waitMessageMask,constructMask,waitResponseMask])

/-- Protocol TX's part. -/
theorem Logged.tx {s : System} {h : TransmitLog} {o : Outcome Event ProtocolTx Shared}
    (ht : TxStep s.tx s.pending s.shared o) (hi : Logged (s,h)) :
    Logged (s.withTx o,record h s .tx (s.withTx o)) := by
  have hholds := hi.holds.step ht
  cases protocolTx_handles ht with
  | report hr =>
    have hsome : h.current.isSome=true := by
      rw [hi.current]
      exact hi.holds.isSome_of_reportedBy hr
    obtain ⟨n,hn⟩ := Option.isSome_iff_exists.mp hsome
    rw [record_report hr]
    rcases reportedBy_cases hr with ⟨-,-,rfl⟩ | ⟨-,rfl⟩ | ⟨-,rfl⟩
    · exact ⟨hi.queued,rfl,hholds,by simpa [System.withTx,TransmitLog.report] using hi.doneBy,
        by simp [System.withTx,TransmitLog.report,hn]⟩
    · exact ⟨hi.queued,rfl,hholds,by simpa [System.withTx,TransmitLog.report] using hi.doneBy,
        by simp [System.withTx,TransmitLog.report,hn]⟩
    · exact ⟨hi.queued,rfl,hholds,by simp [System.withTx,TransmitLog.report,hn],
        by simpa [System.withTx,TransmitLog.report] using hi.errBy⟩
  | fetch hp hm hq hf =>
    rw [record_fetch hp]
    refine ⟨?_,?_,hholds,?_,?_⟩
    · simp only [System.withTx,TransmitLog.fetch,hq,List.length_tail]
      rw [hi.queued]
    · simp only [System.withTx,TransmitLog.fetch,hm]
      have hlen := hi.queued
      dsimp only at hlen
      cases hql : h.queued with
      | nil =>
        rw [hql] at hlen
        rw [List.eq_nil_of_length_eq_zero hlen.symm]
        exact hi.current
      | cons n ns =>
        rw [hql] at hlen
        obtain ⟨m,ms,hmail⟩ := List.exists_cons_of_length_eq_add_one hlen.symm
        rw [hmail]
        rfl
    · rw [show (s.withTx o).pending=s.pending from hf]
      exact hi.doneBy
    · rw [show (s.withTx o).pending=s.pending from hf]
      exact hi.errBy
  | keep hr hp hm hq hd he =>
    rw [record_tx hr hp]
    refine ⟨hi.queued.trans (congrArg List.length hq).symm,hi.current.trans hm.symm,hholds,?_,?_⟩
    · rw [show (s.withTx o).pending .peTxDone=s.pending .peTxDone from hd]
      exact hi.doneBy
    · rw [show (s.withTx o).pending .peTxErr=s.pending .peTxErr from he]
      exact hi.errBy

/-- Other threads and the environment have no part in transmissions. -/
theorem transmit_frame {s s' : System} {l : Label} (h : Moved s l s') (hl : l.isPe=false)
    (ht : l.isTx=false) :
    s'.shared.txMailbox=s.shared.txMailbox ∧ s'.tx=s.tx ∧ s'.pe=s.pe ∧
      ∀ e ∈ transmitEvents, s'.pending e=s.pending e := by
  have hrx : ∀ e ∈ transmitEvents, e ∉ rxEvents := by decide
  have hhr : ∀ e ∈ transmitEvents, e ∉ hrEvents := by decide
  have hintN : ∀ e ∈ transmitEvents, e ∉ intNEvents := by decide
  have huser : ∀ e ∈ transmitEvents, e ∉ userEvents := by decide
  cases h with
  | pe hl' he hp => exact absurd (hl'.symm.trans hl) (by decide)
  | rx hr => exact ⟨hr.frame.txMailbox,rfl,rfl,fun e he => hr.pending_other (hrx e he)⟩
  | tx ht' => exact absurd ht (by decide)
  | hr hl' hh => exact ⟨hh.frame.txMailbox,rfl,rfl,fun e he => hh.pending_other (hhr e he)⟩
  | intN hn => exact ⟨hn.frame.txMailbox,rfl,rfl,fun e he => hn.pending_other (hintN e he)⟩
  | env he =>
    have hf := environment_frame he
    exact ⟨hf.txMailbox,hf.tx,hf.pe,fun e he => hf.pending e (huser e he)⟩

/-- A property of firmware and log is kept by a step if it is kept by the
Policy Engine, by Protocol TX, and by whoever has no part in transmissions. -/
theorem logged_cases {p q : System × TransmitLog} {l : Label} {P : System × TransmitLog → Prop}
    (hs : logged.step l p=some q)
    (hpe : ∀ o, l.isPe=true → Transmits p.1.pe p.1.pending p.1.shared o →
      P (p.1.withPe o,record p.2 p.1 l (p.1.withPe o)))
    (htx : ∀ o, TxStep p.1.tx p.1.pending p.1.shared o →
      P (p.1.withTx o,record p.2 p.1 .tx (p.1.withTx o)))
    (hother : ∀ s', s'.shared.txMailbox=p.1.shared.txMailbox → s'.tx=p.1.tx → s'.pe=p.1.pe →
      (∀ e ∈ transmitEvents, s'.pending e=p.1.pending e) → P (s',p.2)) : P q := by
  obtain ⟨s,h⟩ := p
  obtain ⟨s',h'⟩ := q
  obtain ⟨hf,hh⟩ := observe_step.mp hs
  dsimp only at hf hh
  subst hh
  have hm := firmware_moved hf
  have hrest (hl : l.isPe=false) (ht : l.isTx=false) : P (s',record h s l s') := by
    obtain ⟨hq,htx,hpe,hf⟩ := transmit_frame hm hl ht
    rw [record_other hl ht]
    exact hother s' hq htx hpe hf
  cases hm with
  | pe hl he hp => exact hpe _ hl (policyEngine_transmits hp)
  | tx ht => exact htx _ ht
  | rx hr => exact hrest rfl rfl
  | hr hl hh => rcases hl with rfl | rfl <;> exact hrest rfl rfl
  | intN hn => exact hrest rfl rfl
  | env he => exact hrest rfl rfl

/-- One step keeps the log right. -/
theorem Logged.step {p q : System × TransmitLog} {l : Label} (hi : Logged p)
    (hs : logged.step l p=some q) : Logged q :=
  logged_cases hs (fun _ hl ht => hi.pe hl ht) (fun _ ht => hi.tx ht)
    fun _ hq htx _ hf => hi.frame hq htx hf

/-- The log is right in every run. -/
theorem logged_of_reach {allowed : System × TransmitLog → Label → Prop} {p : System × TransmitLog}
    (h : logged.Reach allowed p) : Logged p := by
  refine h.invariant ⟨rfl,rfl,?_,?_,?_⟩ fun _ _ _ _ hi _ hs => hi.step hs
  · exact fun hc => absurd hc (by decide)
  · exact ⟨fun h => absurd h (by decide),fun h => absurd rfl h⟩
  · exact ⟨fun h => absurd h (by decide),fun h => absurd rfl h⟩

/-! ## Clean starts -/

/-- What holds when every message is posted with nothing left over. -/
structure Own (p : System × TransmitLog) : Prop where
  /-- During a transmission, everything on its way is the last message's. -/
  inFlight : transmitting (phase p.1.pe)=true → ∀ n ∈ p.2.inFlight, n=p.2.posted
  /-- Every result taken was the message's own. -/
  results : OwnResults p.2

/-- A log right about a clean state has nothing in flight. -/
theorem Logged.inFlight_eq_nil {s : System} {h : TransmitLog} (hi : Logged (s,h))
    (hq : s.shared.txMailbox=[]) (hm : s.tx.message=none) (hd : s.pending .peTxDone=false)
    (he : s.pending .peTxErr=false) : h.queued=[] ∧ h.current=none ∧ h.doneBy=[] ∧ h.errBy=[] := by
  have hqueued := hi.queued
  have hcurrent := hi.current
  have hdone := hi.doneBy
  have herr := hi.errBy
  dsimp only at hqueued hcurrent hdone herr
  rw [hq] at hqueued
  rw [hm] at hcurrent
  rw [hd] at hdone
  rw [he] at herr
  refine ⟨List.eq_nil_of_length_eq_zero hqueued,?_,?_,?_⟩
  · exact Option.isNone_iff_eq_none.mp (by simpa using hcurrent)
  · by_contra hn
    exact absurd (hdone.mpr hn) (by decide)
  · by_contra hn
    exact absurd (herr.mpr hn) (by decide)

/-- The Policy Engine's part. -/
theorem Own.pe {s : System} {l : Label} {h : TransmitLog} {o : Outcome Event PolicyEngine Shared}
    (hl : l.isPe=true) (ht : Transmits s.pe s.pending s.shared o) (hg : Logged (s,h))
    (ha : startsClean (s,h) l) (hi : Own (s,h)) : Own (s.withPe o,record h s l (s.withPe o)) := by
  cases ht with
  | idle hp hp' hq hf =>
    rw [record_idle hl hp hp']
    exact ⟨fun ht => absurd (hp'.symm.trans ht) (by decide),hi.results⟩
  | post hp hs hp' hq =>
    obtain ⟨hq,hm,hd,he⟩ := ha hl hs.1 hs.2
    obtain ⟨hqueued,hcurrent,hdone,herr⟩ := hg.inFlight_eq_nil hq hm hd he
    rw [record_post hl hp hp']
    refine ⟨fun _ n hn => ?_,hi.results⟩
    simpa [TransmitLog.inFlight,TransmitLog.post,hqueued,hcurrent,hdone,herr,EventThreads.post,
      pdbMsgPoolSize] using hn
  | ring hp hp' =>
    rw [record_ring hl hp hp']
    exact ⟨fun _ => hi.inFlight (by rw [hp]; rfl),hi.results⟩
  | result hp hw ht =>
    rw [record_result hl hp]
    refine ⟨fun ht => ?_,fun r hr => ?_⟩
    · rcases hw with hw | hw
      · exact absurd ((congrArg transmitting hw).symm.trans ht) (by decide)
      · exact absurd ((congrArg transmitting hw).symm.trans ht) (by decide)
    · unfold TransmitLog.take at hr
      cases hreset : s.pending .peReset with
      | true =>
        rw [hreset] at hr
        exact hi.results r hr
      | false =>
        rw [hreset] at hr
        rcases List.mem_append.mp hr with hr | hr
        · exact hi.results r hr
        · rw [List.mem_singleton] at hr
          subst hr
          have hfl := hi.inFlight (by rw [phase_waitTx hp]; rfl)
          refine ⟨fun hnil => ?_,fun n hn => hfl n ?_⟩
          · obtain ⟨hdone,herr⟩ := List.append_eq_nil_iff.mp hnil
            have hd : ¬s.pending .peTxDone=true := fun hp => hg.doneBy.mp hp hdone
            have he : ¬s.pending .peTxErr=true := fun hp => hg.errBy.mp hp herr
            refine ht (taken_eq_nil.mpr ?_)
            simp [waitMask_waitTx hp,hd,he,hreset]
          · unfold TransmitLog.inFlight
            rw [List.append_assoc]
            exact List.mem_append_right _ hn

/-- What is in flight after Protocol TX's action was so before it. -/
theorem tx_inFlight {s : System} {h : TransmitLog} {o : Outcome Event ProtocolTx Shared}
    (ht : Handles s.tx s.pending s.shared o) :
    (record h s .tx (s.withTx o)).posted=h.posted ∧
      (record h s .tx (s.withTx o)).results=h.results ∧
      ∀ n ∈ (record h s .tx (s.withTx o)).inFlight, n ∈ h.inFlight := by
  cases ht with
  | report hr =>
    rw [record_report hr]
    unfold TransmitLog.report
    split
    · refine ⟨rfl,rfl,fun n hn => ?_⟩
      simp only [TransmitLog.inFlight,List.mem_append,Option.toList_none,List.not_mem_nil] at hn ⊢
      tauto
    · refine ⟨rfl,rfl,fun n hn => ?_⟩
      simp only [TransmitLog.inFlight,List.mem_append,Option.toList_none,List.not_mem_nil] at hn ⊢
      tauto
  | fetch hp hm hq hf =>
    rw [record_fetch hp]
    refine ⟨rfl,rfl,fun n hn => ?_⟩
    unfold TransmitLog.fetch at hn
    simp only [TransmitLog.inFlight,List.mem_append] at hn ⊢
    cases hql : h.queued with
    | nil =>
      rw [hql] at hn
      simpa using hn
    | cons k ks =>
      rw [hql] at hn
      simp only [List.tail_cons,List.head?_cons,Option.some_or,Option.toList_some,List.mem_cons] at hn ⊢
      tauto
  | keep hr hp hm hq hd he =>
    rw [record_tx hr hp]
    exact ⟨rfl,rfl,fun _ hn => hn⟩

/-- One step from a clean start keeps the results apart. -/
theorem Own.step {p q : System × TransmitLog} {l : Label} (hi : Own p) (hg : Logged p)
    (ha : startsClean p l) (hs : logged.step l p=some q) : Own q := by
  refine logged_cases hs (fun _ hl ht => hi.pe hl ht hg ha) (fun o ht => ?_) fun s' _ _ hpe _ => ?_
  · obtain ⟨hposted,hresults,hfl⟩ := tx_inFlight (protocolTx_handles ht) (h := p.2)
    refine ⟨fun ht n hn => ?_,?_⟩
    · rw [hposted]
      exact hi.inFlight ht n (hfl n hn)
    · unfold OwnResults
      rw [hresults]
      exact hi.results
  · exact ⟨by rw [hpe]; exact hi.inFlight,hi.results⟩

/-- In every run whose messages start clean, no result is taken for another
message's. -/
theorem own_results {p : System × TransmitLog} (h : logged.Reach startsClean p) : OwnResults p.2 := by
  have hown : Own p := by
    refine h.invariant ⟨fun h => absurd h (by decide),fun _ h => absurd h List.not_mem_nil⟩ ?_
    exact fun _ _ _ hr hi ha hs => hi.step (logged_of_reach hr) ha hs
  exact hown.results

instance (p : System × TransmitLog) (l : Label) : Decidable (startsClean p l) :=
  inferInstanceAs (Decidable (_ → _ → _ → _ ∧ _ ∧ _ ∧ _))

/-- A Request that is sent and acknowledged is such a run, and its own result
is taken. -/
theorem own_results_request :
    ∃ p, logged.Reach startsClean p ∧ p.2.results=[(1,[1])] ∧ OwnResults p.2 := by
  obtain ⟨p,hr,hp⟩ := exists_reach_of_follow logged startsClean
    (List.flatten [request,send,acknowledge 0,[.pe]]) (fun p => decide (p.2.results=[(1,[1])]))
    (by decide +kernel)
  exact ⟨p,hr,of_decide_eq_true hp,own_results hr⟩

/-- A hard reset arrives while a Request is being transmitted. Protocol TX is
still resetting the PHY when the Policy Engine is freed; it reports on the
Request only after that. Then a new negotiation starts. -/
def staleTrace : List Label :=
  List.flatten [request,send,[.env .hardrst,.intN,.intN,.intN,.intN,.hr,.hr,.hr,.hr,.rx,.hr,.tx,.hr,
    .pe,.pe,.pe,.pe,.hr,.hr,.pe,.pe,.tx,.tx,.intN],deliver (sourceCapabilities 1),[.pe,.pe,.pe,.pe,
    .pe,.pe,.pe]]

/-- The second Request gets the first one's result. -/
theorem exists_stale_result : ¬∀ p, logged.Reach anyStep p → OwnResults p.2 := by
  intro h
  obtain ⟨p,hr,hp⟩ := exists_reach_of_follow logged anyStep staleTrace
    (fun p => decide (¬OwnResults p.2)) (by decide +kernel)
  exact of_decide_eq_true hp (h p hr)

end UsbPdFirmware.TransmitResults
