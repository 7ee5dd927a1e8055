import UsbPdFirmware.BitFields
import UsbPdFirmware.CounterReset

/-!
# The numbers of transmitted messages

Protocol TX advances its counter in three states and reports a result in
three others. While nothing resets it, every message it fetches uses up one
MessageID and gets one result, whatever interrupts it.
-/

namespace UsbPdFirmware.TransmitNumbers

open LabelledRuns Machine EventThreads FirmwareState FirmwareSystem
open PdMessage PolicyEngineMoves ProtocolRx ProtocolTx HardReset CounterReset

/-! ## Protocol TX amid anything else -/

/-- Who acts. -/
inductive Sender where
  | tx
  /-- Anything else, which would make the system look like this. -/
  | others (s' : System)

/-- The system as the others would have it, save for Protocol TX, its counter
and RESET. -/
def besideTx (s s' : System) : System :=
  {s' with
    tx := s.tx
    pending := fun e => if e=.prltxReset then s.pending e else s'.pending e
    shared := {s'.shared with txMessageidcounter := s.shared.txMessageidcounter}}

/-- Protocol TX amid anything but RESET. -/
def transmitter : Machine System Sender where
  start := initial
  step who s := match who with
    | .tx => ((protocolTx s.tx).perform false s.pending s.shared).map s.withTx
    | .others s' => some (besideTx s s')

/-! ## The log -/

/-- What became of a message that was fetched. -/
structure Job where
  /-- The message as it was in the mailbox. -/
  message : PdMsg
  /-- What was handed to the PHY. -/
  sent : List PdMsg
  /-- What was read as its GoodCRC. -/
  replies : List PdMsg
  /-- The results that were signalled. -/
  results : List Event

/-- The results an action signals. -/
def resultsOf : TxAction → List Event
  | .signal events _ => events.filter fun e => decide (e ∈ [.peTxDone,.peTxErr])
  | _ => []

/-- What an action adds to the newest job. -/
def Job.extend (job : Job) (s s' : System) : Job :=
  {job with
    sent := job.sent++if s.tx.point=.constructSend then s'.shared.phy.txFifo.toList else []
    replies := job.replies++if s.tx.point=.matchRead then [s.shared.fusbReadMessage.1] else []
    results := job.results++resultsOf (protocolTx s.tx)}

/-- Every message that is fetched begins a job, the newest first; what
Protocol TX does until the next one belongs to it. -/
def recordJob (jobs : List Job) (s : System) (who : Sender) (s' : System) : List Job :=
  match who with
  | .tx =>
    if s.tx.point=.fetchMessage then
      match s.shared.txMailbox.head? with
      | some m => ⟨m.msg,[],[],[]⟩::jobs
      | none => jobs
    else jobs.modifyHead fun job => job.extend s s'
  | .others _ => jobs

/-- Protocol TX with the log. -/
def numbered : Machine (System × List Job) Sender := transmitter.observe [] recordJob

/-- Protocol TX sends no Soft_Reset, and every read of a GoodCRC finds a
packet. -/
def plainly (p : System × List Job) (who : Sender) : Prop :=
  match who with
  | .tx => p.1.tx.point≠.resetCounter ∧
      (p.1.tx.point=.matchRead → p.1.shared.phy.rxFifo.isEmpty=false)
  | .others _ => True

/-! ## Numbers -/

/-- What is sent is what was fetched, with this number modulo eight. -/
structure Numbered (k : ℕ) (fetched sent : PdMsg) : Prop where
  /-- The MessageID. -/
  messageid : sent.messageidGet=k%8
  /-- Every other bit of the header. -/
  header : sent.hdr &&& ~~~pdHdrMessageid=fetched.hdr &&& ~~~pdHdrMessageid
  /-- The objects. -/
  objects : sent.obj=fetched.obj

/-- Setting the MessageID changes nothing else. -/
theorem numbered_setMessageid (m : PdMsg) {k counter : ℕ} (h : counter=k%8) :
    Numbered k m (m.setMessageid counter) := by
  refine ⟨?_,?_,rfl⟩
  · rw [PdMsg.messageidGet_setMessageid,h,Nat.mod_mod]
  · have hlt : counter%8 < 8 := Nat.mod_lt _ (by omega)
    have hid : (BitVec.ofNat 16 (counter%8) <<< pdHdrMessageidShift) &&& ~~~pdHdrMessageid=0 := by
      generalize counter%8=c at hlt
      interval_cases c <;> rfl
    unfold PdMsg.setMessageid
    rw [BitFields.or_and_right hid,BitVec.and_assoc,BitVec.and_self]

/-- A GoodCRC with this number modulo eight was read. -/
def Acknowledged (k : ℕ) (job : Job) : Prop :=
  ∃ g ∈ job.replies, g.isControl pdMsgtypeGoodcrc=true ∧ g.messageidGet=k%8

/-- A job that is over. -/
structure Concluded (k : ℕ) (job : Job) : Prop where
  /-- What was sent carries its number. -/
  sent : ∀ m ∈ job.sent, Numbered k job.message m
  /-- There is one result. -/
  result : job.results=[.peTxDone] ∨ job.results=[.peTxErr]
  /-- Success needs a GoodCRC with its number. -/
  done : .peTxDone ∈ job.results → Acknowledged k job

/-- Jobs that are over, each with its number. -/
def Past : List Job → Prop
  | [] => True
  | job::rest => Concluded rest.length job ∧ Past rest

section Sending

variable {tx : ProtocolTx} {counter : ℕ} {jobs : List Job} {s : System}
  {o : Outcome Event ProtocolTx Shared}

/-- There is no message, and the counter is at the next number. -/
structure Idle (message : Option MsgPtr) (counter : ℕ) (jobs : List Job) : Prop where
  /-- No message. -/
  message : message=none
  /-- The counter. -/
  counter : counter=jobs.length%8
  /-- The jobs. -/
  past : Past jobs

/-- The message is that of the newest job, and its number is used up or not. -/
def Busy (message : Option MsgPtr) (counter : ℕ) (jobs : List Job) (used : ℕ)
    (known : ℕ → Job → PdMsg → Prop) : Prop :=
  ∃ job rest m, jobs=job::rest ∧ message=some m ∧ Past rest ∧ counter=(rest.length+used)%8 ∧
    (∀ sent ∈ job.sent, Numbered rest.length job.message sent) ∧ job.results=[] ∧
      known rest.length job m.msg

/-- What is known, by where Protocol TX stands. -/
def Sending (tx : ProtocolTx) (counter : ℕ) (jobs : List Job) : Prop :=
  match tx.point with
  | .waitMessage | .fetchMessage => Idle tx.message counter jobs
  | .phyReset | .phyResetReport =>
    Idle tx.message counter jobs ∨ Busy tx.message counter jobs 1 fun _ _ _ => True
  | .resetCounter | .resetSignalRx | .constructPoll | .constructHeader =>
    Idle tx.message counter jobs ∨ Busy tx.message counter jobs 0 fun _ job m => m=job.message
  | .constructAms | .constructSinkTxOk | .constructSend =>
    Busy tx.message counter jobs 0 fun k job m => Numbered k job.message m
  | .waitResponse | .matchRead | .transmissionError =>
    Busy tx.message counter jobs 0 fun _ _ _ => True
  | .matchCompare goodcrc => Busy tx.message counter jobs 0 fun _ job _ => goodcrc ∈ job.replies
  | .messageSent => Busy tx.message counter jobs 0 fun k job _ => Acknowledged k job
  | .transmissionErrorSignal => Busy tx.message counter jobs 1 fun _ _ _ => True
  | .messageSentSignal => Busy tx.message counter jobs 1 fun k job _ => Acknowledged k job
  | .discardMessage => Idle tx.message counter jobs ∨ Busy tx.message counter jobs 0 fun _ _ _ => True

/-- Less may be known. -/
theorem Busy.mono {message : Option MsgPtr} {used : ℕ} {known known' : ℕ → Job → PdMsg → Prop}
    (h : Busy message counter jobs used known) (hk : ∀ k job m, known k job m → known' k job m) :
    Busy message counter jobs used known' := by
  obtain ⟨job,rest,m,hjobs,hm,hpast,hc,hsent,hres,hknown⟩ := h
  exact ⟨job,rest,m,hjobs,hm,hpast,hc,hsent,hres,hk _ _ _ hknown⟩

/-- Using up the number. -/
theorem Busy.increment {message : Option MsgPtr} {known : ℕ → Job → PdMsg → Prop}
    (h : Busy message counter jobs 0 known) : Busy message ((counter+1)%8) jobs 1 known := by
  obtain ⟨job,rest,m,hjobs,hm,hpast,hc,hsent,hres,hknown⟩ := h
  exact ⟨job,rest,m,hjobs,hm,hpast,by omega,hsent,hres,hknown⟩

/-- An action signals the results it reports. -/
theorem resultsOf_eq (tx : ProtocolTx) : resultsOf (protocolTx tx)=(reportedBy tx).toList := by
  unfold protocolTx reportedBy
  cases tx.point <;> try rfl
  unfold protocolTxPhyResetReport
  cases tx.message <;> rfl

/-- What a step that fetches nothing adds. -/
theorem recordJob_extend {job : Job} {s' : System} (hp : s.tx.point≠.fetchMessage) :
    recordJob (job::jobs) s .tx s'=job.extend s s'::jobs := (if_neg hp).trans List.modifyHead_cons

/-- A message that is fetched begins a job. -/
theorem Idle.fetch {message : Option MsgPtr} (h : Idle message counter jobs)
    (hp : s.tx.point=.fetchMessage) (s' : System) :
    Idle ((s.shared.txMailbox.head?).or message) counter (recordJob jobs s .tx s') ∨
      Busy ((s.shared.txMailbox.head?).or message) counter (recordJob jobs s .tx s') 0
        fun _ job m => m=job.message := by
  unfold recordJob
  dsimp only
  rw [if_pos hp]
  cases s.shared.txMailbox.head? with
  | none => exact .inl h
  | some m =>
    exact .inr ⟨_,_,m,rfl,rfl,h.past,h.counter,fun _ hmem => absurd hmem List.not_mem_nil,rfl,rfl⟩

/-- Where nothing is fetched, sent, read or reported, the log stays. -/
theorem recordJob_same {s' : System} (hp : s.tx.point ∉ [.fetchMessage,.constructSend,.matchRead])
    (hr : reportedBy s.tx=none) : recordJob jobs s .tx s'=jobs := by
  simp only [List.mem_cons,List.not_mem_nil,or_false,not_or] at hp
  cases jobs with
  | nil => exact if_neg hp.1
  | cons job rest =>
    rw [recordJob_extend hp.1]
    unfold Job.extend
    rw [if_neg hp.2.1,if_neg hp.2.2,resultsOf_eq,hr]
    simp

/-- Finishing with a message and its result. -/
theorem idle_reported {known : ℕ → Job → PdMsg → Prop} {result : Event} {s' : System}
    (h : Busy s.tx.message counter jobs 1 known) (hr : reportedBy s.tx=some result)
    (hresult : result=.peTxErr ∨ result=.peTxDone ∧ ∀ k job m, known k job m → Acknowledged k job) :
    Idle none counter (recordJob jobs s .tx s') := by
  obtain ⟨job,rest,m,rfl,hm,hpast,hc,hsent,hres,hknown⟩ := h
  have hpoint : s.tx.point ∉ [.fetchMessage,.constructSend,.matchRead] := by
    rcases reportedBy_cases hr with ⟨hp,-,-⟩ | ⟨hp,-⟩ | ⟨hp,-⟩ <;> rw [hp] <;> decide
  have hrec : recordJob (job::rest) s .tx s'={job with results := [result]}::rest := by
    simp only [List.mem_cons,List.not_mem_nil,or_false,not_or] at hpoint
    rw [recordJob_extend hpoint.1]
    unfold Job.extend
    rw [if_neg hpoint.2.1,if_neg hpoint.2.2,resultsOf_eq,hr,hres]
    simp
  rw [hrec]
  refine ⟨rfl,by rw [hc,List.length_cons],⟨hsent,?_,?_⟩,hpast⟩
  · rcases hresult with rfl | ⟨rfl,-⟩
    · exact .inr rfl
    · exact .inl rfl
  · intro hdone
    rcases hresult with rfl | ⟨rfl,hack⟩
    · rcases List.mem_singleton.mp hdone with hdone
      cases hdone
    · obtain ⟨g,hg,hack⟩ := hack _ _ _ hknown
      exact ⟨g,hg,hack⟩

/-- Points at which nothing is fetched, sent, read or reported. -/
def quiet : ProtocolTxPoint → Bool
  | .phyResetReport | .fetchMessage | .constructSend | .matchRead | .transmissionErrorSignal
  | .messageSentSignal => false
  | _ => true

/-- The log stays there. -/
theorem recordJob_quiet {s' : System} (hq : quiet s.tx.point=true) : recordJob jobs s .tx s'=jobs := by
  refine recordJob_same (fun hmem => ?_) ?_
  · simp only [List.mem_cons,List.not_mem_nil,or_false] at hmem
    rcases hmem with hp | hp | hp <;> rw [hp] at hq <;> cases hq
  · cases hr : reportedBy s.tx with
    | none => rfl
    | some result =>
      rcases reportedBy_cases hr with ⟨hp,-,-⟩ | ⟨hp,-⟩ | ⟨hp,-⟩ <;> rw [hp] at hq <;> cases hq

/-- What is known at a point. -/
theorem Sending.known {point : ProtocolTxPoint} (h : Sending s.tx counter jobs) (hp : s.tx.point=point) :
    Sending ⟨point,s.tx.message⟩ counter jobs := by
  rw [← hp]
  exact h

/-- The header gets the number. -/
theorem Sending.header {m : MsgPtr} (h : Sending s.tx s.shared.txMessageidcounter jobs)
    (hp : s.tx.point=.constructHeader) (hm : s.tx.message=some m) :
    Busy (some {m with msg := m.msg.setMessageid s.shared.txMessageidcounter}) s.shared.txMessageidcounter jobs 0
      fun k job m => Numbered k job.message m := by
  rcases h.known hp with hidle | ⟨job,rest,m',hjobs,hm',hpast,hc,hsent,hres,hmsg⟩
  · exact absurd (hm.symm.trans hidle.message) (by simp)
  · cases hm.symm.trans hm'
    refine ⟨job,rest,_,hjobs,rfl,hpast,hc,hsent,hres,?_⟩
    rw [hmsg]
    exact numbered_setMessageid job.message hc

/-- A GoodCRC with the number acknowledges the message. -/
theorem Busy.acknowledge {message : Option MsgPtr} {goodcrc : PdMsg}
    (h : Busy message counter jobs 0 fun _ job _ => goodcrc ∈ job.replies)
    (hmatch : goodcrc.isControl pdMsgtypeGoodcrc=true ∧ goodcrc.messageidGet=counter) :
    Busy message counter jobs 0 fun k job _ => Acknowledged k job := by
  obtain ⟨job,rest,m,hjobs,hm,hpast,hc,hsent,hres,hg⟩ := h
  exact ⟨job,rest,m,hjobs,hm,hpast,hc,hsent,hres,goodcrc,hg,hmatch.1,hmatch.2.trans hc⟩

/-- Giving up a message uses up its number; without one the counter stays. -/
theorem Sending.discard (h : Sending s.tx s.shared.txMessageidcounter jobs)
    (hp : s.tx.point=.discardMessage) :
    Sending ⟨.phyReset,s.tx.message⟩
      (if s.tx.message.isSome then incrementCounter s.shared else s.shared).txMessageidcounter jobs := by
  rcases h.known hp with hidle | hbusy
  · have hnone : s.tx.message=none := hidle.message
    rw [hnone]
    exact .inl ⟨rfl,hidle.counter,hidle.past⟩
  · have hbusy' : Busy s.tx.message s.shared.txMessageidcounter jobs 0 fun _ _ _ => True := hbusy
    have hsome : s.tx.message.isSome=true := by
      obtain ⟨_,_,m,-,hm,-⟩ := hbusy'
      rw [hm]
      rfl
    rw [if_pos hsome]
    exact .inr hbusy'.increment

/-- A step from a quiet point. -/
theorem Sending.quietly (h : Sending s.tx s.shared.txMessageidcounter jobs)
    (hs : TxStep s.tx s.pending s.shared o) (hreset : s.pending .prltxReset=false)
    (hplain : s.tx.point≠.resetCounter) (hq : quiet s.tx.point=true) :
    Sending o.loc o.shared.txMessageidcounter jobs := by
  cases hs with
  | phyReset hp =>
    have hnow := h.known hp
    exact hnow
  | heedReset hp hr => exact absurd (hreset.symm.trans hr) (by decide)
  | heedDiscard hp hr hd =>
    rcases interruptMask_point hp with hp | hp | hp
    · have hnow := h.known hp
      exact .inl hnow
    · have hnow := h.known hp
      exact hnow.imp id fun hbusy => hbusy.mono fun _ _ _ _ => trivial
    · have hnow := h.known hp
      exact .inr hnow
  | heedMsgTx hp hr hd hm =>
    have hnow := h.known hp
    exact hnow
  | resetCounter hp => exact absurd hp hplain
  | resetSignalRx hp =>
    have hnow := h.known hp
    exact hnow
  | constructOn hp hr hd =>
    have hnow := h.known hp
    exact hnow
  | constructHeader hp hm =>
    unfold Sending
    dsimp only
    split_ifs <;> exact h.header hp hm
  | constructAms hp =>
    have hnow := h.known hp
    cases s.pending .prltxStartAms <;> exact hnow
  | constructSinkTxOk hp =>
    have hnow := h.known hp
    split
    · exact hnow
    · exact h
  | heedTxsent hp hr hd ht =>
    have hnow := h.known hp
    exact hnow
  | heedRetryfail hp hr hd ht hf =>
    have hnow := h.known hp
    exact hnow
  | matchCompare hp =>
    have hbusy : Busy s.tx.message s.shared.txMessageidcounter jobs 0 fun _ job _ => _ ∈ job.replies := h.known hp
    dsimp only
    split
    · next hmatch => exact hbusy.acknowledge hmatch
    · exact hbusy.mono fun _ _ _ _ => trivial
  | transmissionError hp =>
    have hbusy : Busy s.tx.message s.shared.txMessageidcounter jobs 0 fun _ _ _ => True := h.known hp
    exact hbusy.increment
  | messageSent hp =>
    have hbusy : Busy s.tx.message s.shared.txMessageidcounter jobs 0 fun k job _ => Acknowledged k job :=
      h.known hp
    exact hbusy.increment
  | discard hp => exact h.discard hp
  | report hr =>
    rcases reportedBy_cases hr with ⟨hp,-,-⟩ | ⟨hp,-⟩ | ⟨hp,-⟩ <;> rw [hp] at hq <;> cases hq
  | _ hp =>
    rw [hp] at hq
    cases hq

/-- The results reported so far, where none is reported now. -/
theorem Job.extend_results {job : Job} {s' : System} (hr : reportedBy s.tx=none) :
    (job.extend s s').results=job.results := by
  unfold Job.extend
  dsimp only
  rw [resultsOf_eq,hr]
  exact List.append_nil _

/-- The message is handed to the PHY. -/
theorem Busy.send (h : Busy s.tx.message counter jobs 0 fun k job m => Numbered k job.message m)
    (hp : s.tx.point=.constructSend) (ho : o.shared.phy.txFifo=some (s.shared.deref s.tx.message)) :
    Busy s.tx.message counter (recordJob jobs s .tx (s.withTx o)) 0 fun _ _ _ => True := by
  obtain ⟨job,rest,m,rfl,hm,hpast,hc,hsent,hres,hnumbered⟩ := h
  have hnone : reportedBy s.tx=none := by
    unfold reportedBy
    rw [hp]
  rw [recordJob_extend (by rw [hp]; decide)]
  refine ⟨_,rest,m,rfl,hm,hpast,hc,fun sent hmem => ?_,(Job.extend_results hnone).trans hres,trivial⟩
  unfold Job.extend at hmem
  dsimp only at hmem
  rw [if_pos hp] at hmem
  rcases List.mem_append.mp hmem with hmem | hmem
  · exact hsent sent hmem
  · change sent ∈ o.shared.phy.txFifo.toList at hmem
    rw [ho,hm] at hmem
    rw [List.mem_singleton.mp hmem]
    exact hnumbered

/-- A packet is read as its GoodCRC. -/
theorem Busy.read (h : Busy s.tx.message counter jobs 0 fun _ _ _ => True)
    (hp : s.tx.point=.matchRead) (s' : System) :
    Busy s.tx.message counter (recordJob jobs s .tx s') 0
      fun _ job _ => s.shared.fusbReadMessage.1 ∈ job.replies := by
  obtain ⟨job,rest,m,rfl,hm,hpast,hc,hsent,hres,-⟩ := h
  have hnone : reportedBy s.tx=none := by
    unfold reportedBy
    rw [hp]
  rw [recordJob_extend (by rw [hp]; decide)]
  refine ⟨_,rest,m,rfl,hm,hpast,hc,fun sent hmem => ?_,(Job.extend_results hnone).trans hres,?_⟩
  · unfold Job.extend at hmem
    dsimp only at hmem
    rw [if_neg (by rw [hp]; decide),List.append_nil] at hmem
    exact hsent sent hmem
  · unfold Job.extend
    dsimp only
    rw [if_pos hp]
    exact List.mem_append_right _ (List.mem_singleton_self _)

/-- A result is reported. -/
theorem Sending.report {result : Event} (h : Sending s.tx counter jobs) (hr : reportedBy s.tx=some result)
    (s' : System) : Idle none counter (recordJob jobs s .tx s') := by
  rcases reportedBy_cases hr with ⟨hp,hm,rfl⟩ | ⟨hp,rfl⟩ | ⟨hp,rfl⟩
  · rcases h.known hp with hidle | hbusy
    · have hnone : s.tx.message=none := hidle.message
      rw [hnone] at hm
      exact absurd hm (by decide)
    · exact idle_reported hbusy hr (.inl rfl)
  · have hbusy : Busy s.tx.message counter jobs 1 fun _ _ _ => True := h.known hp
    exact idle_reported hbusy hr (.inl rfl)
  · have hbusy : Busy s.tx.message counter jobs 1 fun k job _ => Acknowledged k job := h.known hp
    exact idle_reported hbusy hr (.inr ⟨rfl,fun _ _ _ hk => hk⟩)

/-- Protocol TX goes on with its work. -/
theorem Sending.step (h : Sending s.tx s.shared.txMessageidcounter jobs)
    (hs : TxStep s.tx s.pending s.shared o) (hreset : s.pending .prltxReset=false)
    (hplain : s.tx.point≠.resetCounter) :
    Sending o.loc o.shared.txMessageidcounter (recordJob jobs s .tx (s.withTx o)) := by
  by_cases hq : quiet s.tx.point=true
  · rw [recordJob_quiet hq]
    exact h.quietly hs hreset hplain hq
  cases hs with
  | resetIdle hp hm =>
    have hnone : reportedBy s.tx=none := by
      unfold reportedBy
      rw [hp,hm]
      rfl
    rw [recordJob_same (by rw [hp]; decide) hnone]
    rcases h.known hp with hidle | ⟨job,rest,m,-,hm',-⟩
    · exact hidle
    · exact absurd (hm.symm.trans hm') (by simp)
  | report hr => exact h.report hr _
  | fetch hp =>
    have hidle : Idle s.tx.message s.shared.txMessageidcounter jobs := h.known hp
    unfold Sending
    dsimp only
    split_ifs <;> exact hidle.fetch hp _
  | send hp =>
    have hbusy : Busy s.tx.message s.shared.txMessageidcounter jobs 0
      fun k job m => Numbered k job.message m := h.known hp
    exact hbusy.send hp rfl
  | matchRead hp =>
    have hbusy : Busy s.tx.message s.shared.txMessageidcounter jobs 0 fun _ _ _ => True := h.known hp
    rw [fusbReadMessage_eq]
    exact hbusy.read hp _
  | heedReset hp hr => exact absurd (hreset.symm.trans hr) (by decide)
  | heedDiscard hp hr hd =>
    rcases interruptMask_point hp with hp | hp | hp <;> rw [hp] at hq <;> exact absurd rfl hq
  | _ hp =>
    rw [hp] at hq
    exact absurd rfl hq

end Sending

/-! ## Runs -/

/-- What holds of a job at any time. -/
structure Kept (k : ℕ) (job : Job) : Prop where
  /-- What was sent carries its number. -/
  sent : ∀ m ∈ job.sent, Numbered k job.message m
  /-- There is at most one result. -/
  result : job.results=[] ∨ job.results=[.peTxDone] ∨ job.results=[.peTxErr]
  /-- Success needs a GoodCRC with its number. -/
  done : .peTxDone ∈ job.results → Acknowledged k job

section Runs

variable {p : System × List Job} {tx : ProtocolTx} {counter k : ℕ} {job : Job} {jobs : List Job}

/-- A job that is over is one. -/
theorem Concluded.kept (h : Concluded k job) : Kept k job := ⟨h.sent,.inr h.result,h.done⟩

/-- The jobs before the newest, and it, by their numbers. -/
theorem getElem?_reverse_cons {newest : Job} (hk : (newest::jobs).reverse[k]?=some job) :
    jobs.reverse[k]?=some job ∨ k=jobs.length ∧ job=newest := by
  rw [List.reverse_cons] at hk
  rcases Nat.lt_or_ge k jobs.reverse.length with hlt | hge
  · rw [List.getElem?_append_left hlt] at hk
    exact .inl hk
  · rw [List.getElem?_append_right hge,List.length_reverse,List.getElem?_singleton,
      Option.ite_none_right_eq_some] at hk
    rw [List.length_reverse] at hge
    obtain ⟨hzero,hjob⟩ := hk
    cases hjob
    exact .inr ⟨by omega,rfl⟩

/-- Jobs that are over have their numbers in the order they were begun. -/
theorem Past.concluded (h : Past jobs) (hk : jobs.reverse[k]?=some job) : Concluded k job := by
  induction jobs with
  | nil => cases hk
  | cons newest rest ih =>
    rcases getElem?_reverse_cons hk with hk | ⟨rfl,rfl⟩
    · exact ih h.2 hk
    · exact h.1

/-- Each of them has one result. -/
theorem Past.result (h : Past jobs) (hmem : job ∈ jobs) :
    job.results=[.peTxDone] ∨ job.results=[.peTxErr] := by
  induction jobs with
  | nil => cases hmem
  | cons newest rest ih =>
    rcases List.mem_cons.mp hmem with rfl | hmem
    · exact h.1.result
    · exact ih h.2 hmem

/-- A job that is under way. -/
theorem Busy.newest {message : Option MsgPtr} {used : ℕ} {known : ℕ → Job → PdMsg → Prop}
    (h : Busy message counter jobs used known) :
    ∃ newest rest, jobs=newest::rest ∧ Past rest ∧ Kept rest.length newest := by
  obtain ⟨job,rest,m,hjobs,-,hpast,-,hsent,hres,-⟩ := h
  refine ⟨job,rest,hjobs,hpast,hsent,.inl hres,fun hdone => ?_⟩
  rw [hres] at hdone
  cases hdone

/-- The newest job may still be under way, unless another is to be fetched;
every other one is over. -/
theorem Sending.past (h : Sending tx counter jobs) : Past jobs ∨ tx.point≠.fetchMessage ∧
    ∃ newest rest, jobs=newest::rest ∧ Past rest ∧ Kept rest.length newest := by
  unfold Sending at h
  cases hp : tx.point <;> rw [hp] at h <;> dsimp only at h
  case waitMessage | fetchMessage => exact .inl h.past
  case phyReset | phyResetReport | resetCounter | resetSignalRx | constructPoll | constructHeader |
      discardMessage =>
    exact h.imp Idle.past fun hbusy => ⟨by decide,hbusy.newest⟩
  case matchCompare => exact .inr ⟨by simp,h.newest⟩
  all_goals exact .inr ⟨by decide,h.newest⟩

/-- Protocol TX never resets itself. -/
theorem txStep_prltxReset {pending : Event → Bool} {sh : Shared} {o : Outcome Event ProtocolTx Shared}
    (h : TxStep tx pending sh o) (hr : pending .prltxReset=false) : o.pending .prltxReset=false := by
  cases h with
  | report hr' => rcases reportedBy_cases hr' with ⟨-,-,rfl⟩ | ⟨-,rfl⟩ | ⟨-,rfl⟩ <;> simp [hr]
  | _ => simp [hr]

/-- RESET is never pending, and Protocol TX is at its work, in every run. -/
theorem sending_of_reach (h : numbered.Reach plainly p) :
    p.1.pending .prltxReset=false ∧ Sending p.1.tx p.1.shared.txMessageidcounter p.2 := by
  refine h.observed_invariant (I := fun s jobs =>
    s.pending .prltxReset=false ∧ Sending s.tx s.shared.txMessageidcounter jobs) ?_ ?_
  · exact ⟨rfl,.inl ⟨rfl,rfl,trivial⟩⟩
  · rintro s jobs who s' - ⟨hreset,hsending⟩ ha hs
    cases who with
    | tx =>
      obtain ⟨o,ho,rfl⟩ := Option.map_eq_some_iff.mp hs
      have hstep := protocolTx_step ho
      exact ⟨txStep_prltxReset hstep hreset,hsending.step hstep hreset ha.1⟩
    | others t =>
      cases hs
      exact ⟨hreset,hsending⟩

/-- The k-th message fetched goes to the PHY with MessageID k modulo eight and
is otherwise unchanged; success is reported only after a GoodCRC with that
MessageID was read; and there is exactly one result for every message before
the next one is fetched. -/
theorem numbered_and_answered (h : numbered.Reach plainly p) :
    (∀ k job, p.2.reverse[k]?=some job → Kept k job) ∧
      (∀ job ∈ p.2.tail, job.results=[.peTxDone] ∨ job.results=[.peTxErr]) ∧
        (p.1.tx.point=.fetchMessage → ∀ job ∈ p.2, job.results=[.peTxDone] ∨ job.results=[.peTxErr]) := by
  obtain ⟨-,hsending⟩ := sending_of_reach h
  rcases hsending.past with hpast | ⟨hp,newest,rest,hjobs,hpast,hkept⟩
  · refine ⟨fun k job hk => (hpast.concluded hk).kept,fun job hmem => ?_,fun _ job hmem => hpast.result hmem⟩
    exact hpast.result (List.mem_of_mem_tail hmem)
  · rw [hjobs]
    refine ⟨fun k job hk => ?_,fun job hmem => hpast.result hmem,fun hfetch => absurd hfetch hp⟩
    rcases getElem?_reverse_cons hk with hk | ⟨rfl,rfl⟩
    · exact (hpast.concluded hk).kept
    · exact hkept

end Runs

/-! ## In the firmware -/

section Firmware

variable {s s' : System} {l : Label}

/-- Whose step of the firmware it is. -/
def sender (l : Label) (s' : System) : Sender := if l.isTx then .tx else .others s'

/-- The firmware with the log. -/
def firmwareNumbered : Machine (System × List Job) Label :=
  firmware.observe [] fun jobs s l s' => recordJob jobs s (sender l s') s'

/-- No hard reset is worked on, Protocol RX does not handle a Soft_Reset, and
Protocol TX runs as above. -/
def undisturbed (p : System × List Job) (l : Label) : Prop :=
  l.isHr=false ∧ (l.isRx=true → p.1.rx.point ∉ [.resetCounter,.resetSignalTx]) ∧
    (l.isTx=true → p.1.tx.point≠.resetCounter ∧
      (p.1.tx.point=.matchRead → p.1.shared.phy.rxFifo.isEmpty=false))

instance (p : System × List Job) (l : Label) : Decidable (undisturbed p l) :=
  inferInstanceAs (Decidable (_ ∧ _ ∧ _))

/-- Protocol RX resets Protocol TX at one point only. -/
theorem rxStep_prltxReset {o : Outcome Event ProtocolRx Shared} (h : RxStep s.rx s.pending s.shared o)
    (hp : s.rx.point≠.resetSignalTx) : o.pending .prltxReset=s.pending .prltxReset := by
  cases h with
  | resetSignalTx hp' => exact absurd hp' hp
  | _ => simp

/-- What the others leave of Protocol TX. -/
theorem others_beside (h : Moved s l s') (hl : l.isTx=false) (hr : l.isHr=false)
    (hx : l.isRx=true → s.rx.point ∉ [.resetCounter,.resetSignalTx]) : besideTx s s'=s' := by
  have hsame (htx : s'.tx=s.tx) (hp : s'.pending .prltxReset=s.pending .prltxReset)
      (hc : s'.shared.txMessageidcounter=s.shared.txMessageidcounter) : besideTx s s'=s' := by
    have hpending : (fun e => if e=.prltxReset then s.pending e else s'.pending e)=s'.pending := by
      funext e
      by_cases he : e=.prltxReset
      · rw [if_pos he,he,hp]
      · rw [if_neg he]
    unfold besideTx
    rw [hpending,← htx,← hc]
  cases h with
  | pe hl' he hp =>
    have hm := policyEngine_move hp
    exact hsame rfl (hm.pending_other (by decide)) hm.frame.txMessageidcounter
  | rx hs =>
    have hpoint := hx rfl
    simp only [List.mem_cons,List.not_mem_nil,or_false,not_or] at hpoint
    refine hsame rfl (rxStep_prltxReset hs hpoint.2) ?_
    exact (rx_counter hs).trans (if_neg hpoint.1)
  | tx ht => exact absurd hl (by decide)
  | hr hl' hh => rcases hl' with rfl | rfl <;> exact absurd hr (by decide)
  | intN hi => exact hsame rfl (hi.pending_other (by decide)) hi.frame.txMessageidcounter
  | env he =>
    have hframe := environment_frame he
    exact hsame hframe.tx (hframe.pending _ (by decide)) hframe.txMessageidcounter

/-- Undisturbed runs of the firmware are runs of Protocol TX. -/
theorem firmwareNumbered_reach {p : System × List Job} (h : firmwareNumbered.Reach undisturbed p) :
    numbered.Reach plainly p := by
  refine h.follows (f := fun l q => sender l q.1) rfl fun p l q ha hs => ?_
  obtain ⟨hs,hrec⟩ := observe_step.mp hs
  cases hl : l.isTx with
  | true =>
    have hlabel : l=.tx := by cases l <;> first | rfl | cases hl
    subst hlabel
    exact ⟨observe_step.mpr ⟨hs,hrec⟩,ha.2.2 rfl⟩
  | false =>
    have hsender : sender l q.1=.others q.1 := if_neg (by rw [hl]; decide)
    rw [hsender] at hrec ⊢
    refine ⟨observe_step.mpr ⟨?_,hrec⟩,trivial⟩
    exact congrArg some (others_beside (firmware_moved hs) hl ha.1 ha.2.1)

/-- A Request is sent and answered, and so is the next one. -/
def requestedTwice : List Label :=
  List.flatten [negotiate,[.env .newPower],[.pe,.pe,.pe,.pe,.pe,.pe],send,acknowledge 1]

/-- The second has MessageID one, and its own result. -/
theorem numbered_and_answered_twice : ∃ p, numbered.Reach plainly p ∧ p.2.length=2 ∧
    (∀ job ∈ p.2, job.sent.length=1 ∧ job.results=[.peTxDone]) ∧
      ∀ k job, p.2.reverse[k]?=some job → Kept k job := by
  obtain ⟨p,hr,ht⟩ := exists_reach_of_follow firmwareNumbered undisturbed requestedTwice
    (fun p => decide (p.2.length=2 ∧ ∀ job ∈ p.2, job.sent.length=1 ∧ job.results=[.peTxDone]))
    (by decide +kernel)
  obtain ⟨htwo,hjobs⟩ := of_decide_eq_true ht
  have hreach := firmwareNumbered_reach hr
  exact ⟨p,hreach,htwo,hjobs,(numbered_and_answered hreach).1⟩

end Firmware

end UsbPdFirmware.TransmitNumbers
