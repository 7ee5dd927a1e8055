import UsbPdFirmware.PdMessage

/-!
# The policy of a sink

What a sink may say to its source and when: its messages and the source's,
hard resets and resets, without threads, timers or power. A message the sink
posts is a Request for what was offered, a question of its own, the answer
that the last message obliges to, or a Soft_Reset.
-/

namespace UsbPdFirmware.SinkPolicy

open PdMessage

/-- What is said. -/
inductive Act where
  /-- The sink hands a message over for transmission. -/
  | post (m : PdMsg)
  /-- It takes a message of the source. -/
  | read (m : PdMsg)
  /-- It asks for a hard reset. -/
  | ask
  /-- A hard reset brings the power to its default. -/
  | reset

/-- Answers that a message can oblige to. -/
inductive Reply where
  | accept
  | notSupported
  | sinkCapabilities
  deriving DecidableEq

/-- Stages of a conversation. -/
inductive Stage where
  /-- Source_Capabilities are awaited. -/
  | silent
  /-- They came, and a Request is due. -/
  | offered
  /-- The answer to a Request is awaited. -/
  | requested
  /-- The power is awaited. -/
  | accepted
  /-- There is a contract, and nothing is due. -/
  | ready
  /-- The same, but the last answer may be lost. -/
  | answered
  /-- An answer is due. -/
  | owing (reply : Reply)
  /-- A Soft_Reset is due. -/
  | confused
  /-- The answer to a Soft_Reset is awaited. -/
  | resyncing
  /-- Nothing but a hard reset is left. -/
  | broken
  deriving DecidableEq

/-- A conversation: its stage, and whether there is a contract. -/
structure Session where
  stage : Stage
  contract : Bool

/-- Nothing was said yet. -/
def Session.initial : Session := ⟨.silent,false⟩

/-- There is a contract, and nothing is due. -/
def Stage.Open (stage : Stage) : Prop := stage=.ready ∨ stage=.answered

/-! ## Messages -/

/-- The messages that are an answer. -/
def Reply.Answers : Reply → PdMsg → Prop
  | .accept,m => m.isControl pdMsgtypeAccept=true
  | .notSupported,m => m.isControl pdMsgtypeReject=true ∨ m.isControl pdMsgtypeNotSupported=true
  | .sinkCapabilities,m => m.isData pdMsgtypeSinkCapabilities=true

/-- The stage after an answer. -/
def Reply.after : Reply → Stage
  | .accept => .silent
  | .notSupported => .answered
  | .sinkCapabilities => .ready

/-- Messages of types that a sink does not support. -/
def unsupported (m : PdMsg) : Bool :=
  m.isControl pdMsgtypeDrSwap || m.isControl pdMsgtypeGetSourceCap || m.isControl pdMsgtypePrSwap ||
    m.isControl pdMsgtypeVconnSwap || m.isData pdMsgtypeRequest || m.isData pdMsgtypeSinkCapabilities

/-- Messages that a sink with a contract understands under every revision. -/
def understood (m : PdMsg) : Bool :=
  m.isData pdMsgtypeVendorDefined || m.isControl pdMsgtypePing || unsupported m ||
    m.isControl pdMsgtypeGotomin || m.isData pdMsgtypeSourceCapabilities ||
    m.isControl pdMsgtypeGetSinkCap || m.isControl pdMsgtypeSoftReset

/-- The messages that oblige to an answer. A sink may refuse minimum power,
and extended messages. -/
def Reply.Obliges : Reply → PdMsg → Prop
  | .accept,m => m.isControl pdMsgtypeSoftReset=true
  | .notSupported,m => unsupported m=true ∨ m.isControl pdMsgtypeGotomin=true ∨ m.hdr &&& pdHdrExt≠0
  | .sinkCapabilities,m => m.isControl pdMsgtypeGetSinkCap=true

/-! ## Rules -/

/-- The rules of a conversation. -/
inductive Step : Session → Act → Session → Prop where
  /-- The source offers its capabilities. -/
  | offer {s : Session} {m : PdMsg} (hs : s.stage=.silent ∨ s.stage.Open)
      (hm : m.isData pdMsgtypeSourceCapabilities=true) : Step s (.read m) {s with stage := .offered}
  /-- The sink asks for what was offered, then or later. -/
  | request {s : Session} {m : PdMsg} (hs : s.stage=.offered ∨ s.stage.Open)
      (hm : m.isData pdMsgtypeRequest=true) : Step s (.post m) {s with stage := .requested}
  /-- The source grants it. -/
  | grant {s : Session} {m : PdMsg} (hs : s.stage=.requested)
      (hm : m.isControl pdMsgtypeAccept=true) : Step s (.read m) {s with stage := .accepted}
  /-- The source declines; a contract stands. -/
  | decline {s : Session} {m : PdMsg} (hs : s.stage=.requested)
      (hm : m.isControl pdMsgtypeReject=true ∨ m.isControl pdMsgtypeWait=true) :
      Step s (.read m) {s with stage := if s.contract then .ready else .silent}
  /-- The power is there: a contract is concluded. -/
  | conclude {s : Session} {m : PdMsg} (hs : s.stage=.accepted)
      (hm : m.isControl pdMsgtypePsRdy=true) : Step s (.read m) ⟨.ready,true⟩
  /-- The source asks for minimum power, and gets it. -/
  | reduce {s : Session} {m : PdMsg} (hs : s.stage.Open)
      (hm : m.isControl pdMsgtypeGotomin=true) : Step s (.read m) {s with stage := .accepted}
  /-- Messages without consequence. -/
  | hear {s : Session} {m : PdMsg} (hs : s.stage.Open)
      (hm : m.isData pdMsgtypeVendorDefined=true ∨ m.isControl pdMsgtypePing=true ∨
        m.isControl pdMsgtypeNotSupported=true) : Step s (.read m) {s with stage := .ready}
  /-- The sink asks for capabilities. -/
  | query {s : Session} {m : PdMsg} (hs : s.stage.Open)
      (hm : m.isControl pdMsgtypeGetSourceCap=true) : Step s (.post m) {s with stage := .ready}
  /-- A message obliges to an answer; a Soft_Reset does so early, too. -/
  | oblige {s : Session} {m : PdMsg} (reply : Reply)
      (hs : s.stage.Open ∨ reply=.accept ∧ s.stage ∈ [.silent,.requested,.resyncing])
      (hm : reply.Obliges m) : Step s (.read m) {s with stage := .owing reply}
  /-- It is answered. -/
  | reply {s : Session} {m : PdMsg} (reply : Reply) (hs : s.stage=.owing reply) (hm : reply.Answers m) :
      Step s (.post m) {s with stage := reply.after}
  /-- An answer to a Request is not understood. -/
  | misread {s : Session} {m : PdMsg} (hs : s.stage=.requested)
      (hm : ∀ t ∈ [pdMsgtypeAccept,pdMsgtypeSoftReset,pdMsgtypeReject,pdMsgtypeWait],
        m.isControl t=false) : Step s (.read m) {s with stage := .confused}
  /-- Nor is another message. -/
  | puzzle {s : Session} {m : PdMsg} (hs : s.stage.Open) (hm : understood m=false) :
      Step s (.read m) {s with stage := .confused}
  /-- A Soft_Reset, for that or for an answer that was lost. -/
  | resync {s : Session} {m : PdMsg} (hs : s.stage=.confused ∨ s.stage=.answered)
      (hm : m.isControl pdMsgtypeSoftReset=true) : Step s (.post m) {s with stage := .resyncing}
  /-- The source accepts it. -/
  | restore {s : Session} {m : PdMsg} (hs : s.stage=.resyncing)
      (hm : m.isControl pdMsgtypeAccept=true) : Step s (.read m) {s with stage := .silent}
  /-- Where one message only will do, another breaks the conversation. -/
  | breakOff {s : Session} {m : PdMsg}
      (hs : s.stage=.silent ∧ m.isData pdMsgtypeSourceCapabilities=false ∧
          m.isControl pdMsgtypeSoftReset=false ∨
        s.stage=.accepted ∧ m.isControl pdMsgtypePsRdy=false ∨
        s.stage=.resyncing ∧ m.isControl pdMsgtypeAccept=false ∧
          m.isControl pdMsgtypeSoftReset=false) : Step s (.read m) {s with stage := .broken}
  /-- A hard reset can be asked for at any time. -/
  | ask {s : Session} : Step s .ask {s with stage := .broken}
  /-- A hard reset ends the contract. -/
  | reset {s : Session} : Step s .reset ⟨.silent,false⟩

/-- A conversation from its beginning. -/
inductive Talk : List Act → Session → Prop where
  | nil : Talk [] .initial
  | snoc {talk : List Act} {s s' : Session} {a : Act} (h : Talk talk s) (hs : Step s a s') :
      Talk (talk++[a]) s'

/-! ## What the rules exclude -/

section Rules

variable {s s' : Session} {a : Act} {m : PdMsg} {talk talk' : List Act}

/-- A control message has one type. -/
theorem isControl_unique {t t' : BitVec 16} (h : m.isControl t=true) (h' : m.isControl t'=true) : t=t' := by
  unfold PdMsg.isControl at h h'
  simp only [Bool.and_eq_true,beq_iff_eq] at h h'
  exact h.1.symm.trans h'.1

/-- It is no data message. -/
theorem isData_of_isControl {t t' : BitVec 16} (h : m.isControl t=true) : m.isData t'=false := by
  unfold PdMsg.isControl at h
  unfold PdMsg.isData
  simp only [Bool.and_eq_true,beq_iff_eq] at h
  simp [h.2]

/-- A data message has one type. -/
theorem isData_unique {t t' : BitVec 16} (h : m.isData t=true) (h' : m.isData t'=true) : t=t' := by
  unfold PdMsg.isData at h h'
  simp only [Bool.and_eq_true,beq_iff_eq] at h h'
  exact h.1.symm.trans h'.1

/-- An answer is none of the other messages a sink posts. -/
theorem Reply.Answers.only {reply : Reply} (h : reply.Answers m) :
    m.isData pdMsgtypeRequest=false ∧ m.isControl pdMsgtypeGetSourceCap=false ∧
      m.isControl pdMsgtypeSoftReset=false ∧ ∀ reply' : Reply, reply'.Answers m → reply'=reply := by
  have hcontrol {t t' : BitVec 16} (ht : m.isControl t=true) (hne : t≠t') : m.isControl t'=false :=
    Bool.eq_false_iff.mpr fun ht' => hne (isControl_unique ht ht')
  have hno {t : BitVec 16} {P : Prop} (hd : m.isData t=true) (hc : ∃ t', m.isControl t'=true) : P := by
    obtain ⟨t',hc⟩ := hc
    rw [isData_of_isControl hc] at hd
    cases hd
  cases reply with
  | accept =>
    refine ⟨isData_of_isControl h,hcontrol h (by decide),hcontrol h (by decide),fun reply' h' => ?_⟩
    cases reply' with
    | accept => rfl
    | notSupported =>
      rcases h' with h' | h'
      · exact absurd (isControl_unique h h') (by decide)
      · exact absurd (isControl_unique h h') (by decide)
    | sinkCapabilities => exact hno h' ⟨_,h⟩
  | notSupported =>
    rcases h with h | h
    all_goals
      refine ⟨isData_of_isControl h,hcontrol h (by decide),hcontrol h (by decide),fun reply' h' => ?_⟩
      cases reply' with
      | accept => exact absurd (isControl_unique h h') (by decide)
      | notSupported => rfl
      | sinkCapabilities => exact hno h' ⟨_,h⟩
  | sinkCapabilities =>
    have hnot (t : BitVec 16) : m.isControl t=false :=
      Bool.eq_false_iff.mpr fun ht => hno h ⟨t,ht⟩
    refine ⟨Bool.eq_false_iff.mpr fun hr => absurd (isData_unique h hr) (by decide),hnot _,hnot _,
      fun reply' h' => ?_⟩
    cases reply' with
    | accept => exact hno h ⟨_,h'⟩
    | notSupported => exact hno h (h'.elim (⟨_,·⟩) (⟨_,·⟩))
    | sinkCapabilities => rfl

/-- An answer is posted where it is due. -/
theorem Step.owing {reply : Reply} (h : Step s (.post m) s') (hm : reply.Answers m) :
    s.stage=.owing reply := by
  obtain ⟨hrequest,hquery,hsoft,hreply⟩ := hm.only
  cases h with
  | request hs hr => rw [hrequest] at hr; cases hr
  | query hs hq => rw [hquery] at hq; cases hq
  | resync hs hr => rw [hsoft] at hr; cases hr
  | reply reply' hs hr => rw [hs,hreply reply' hr]

/-- It is due after a message that obliges to it. -/
theorem Step.obliged {reply : Reply} (h : Step s a s') (hs : s'.stage=.owing reply) :
    ∃ m, a=.read m ∧ reply.Obliges m := by
  cases h with
  | @oblige m reply' hs' hm =>
    cases hs
    exact ⟨m,rfl,hm⟩
  | decline hs' hm =>
    dsimp only at hs
    split at hs <;> cases hs
  | reply reply' hs' hm => cases reply' <;> cases hs
  | _ => cases hs

/-- The messages that a sink posts. -/
inductive Posted (m : PdMsg) : Prop where
  | request (hm : m.isData pdMsgtypeRequest=true)
  | query (hm : m.isControl pdMsgtypeGetSourceCap=true)
  | answer (reply : Reply) (hm : reply.Answers m)
  | softReset (hm : m.isControl pdMsgtypeSoftReset=true)

/-- It posts no other. -/
theorem Step.posted (h : Step s (.post m) s') : Posted m := by
  cases h with
  | request hs hm => exact .request hm
  | query hs hm => exact .query hm
  | reply reply hs hm => exact .answer reply hm
  | resync hs hm => exact .softReset hm

/-- A Soft_Reset is posted in these stages. -/
theorem Step.resyncs (h : Step s (.post m) s') (hm : m.isControl pdMsgtypeSoftReset=true) :
    s.stage=.confused ∨ s.stage=.answered := by
  cases h with
  | request hs hr => rw [isData_of_isControl hm] at hr; cases hr
  | query hs hq => exact absurd (isControl_unique hm hq) (by decide)
  | reply reply hs hr => rw [hr.only.2.2.1] at hm; cases hm
  | resync hs hr => exact hs

/-- They follow a message that was read, or a refusal. -/
theorem Step.confuses (h : Step s a s') (hs : s'.stage=.confused ∨ s'.stage=.answered) :
    (∃ m, a=.read m) ∨ ∃ m, a=.post m ∧ Reply.notSupported.Answers m := by
  cases h with
  | misread hs' hm => exact .inl ⟨_,rfl⟩
  | puzzle hs' hm => exact .inl ⟨_,rfl⟩
  | decline hs' hm => exact .inl ⟨_,rfl⟩
  | @reply m reply hs' hm =>
    cases reply with
    | accept => simp [Reply.after] at hs
    | notSupported => exact .inr ⟨m,rfl,hm⟩
    | sinkCapabilities => simp [Reply.after] at hs
  | _ => simp at hs

/-- What was said last, and before it. -/
theorem Talk.unsnoc (h : Talk (talk++[a]) s') : ∃ s, Talk talk s ∧ Step s a s' := by
  generalize htalk : talk++[a]=all at h
  cases h with
  | nil => simp at htalk
  | snoc h hs =>
    obtain ⟨rfl,ha⟩ := List.append_inj' htalk rfl
    cases ha
    exact ⟨_,h,hs⟩

/-- What was said first was a conversation already. -/
theorem Talk.before (h : Talk (talk++talk') s) : ∃ s', Talk talk s' := by
  induction talk' using List.reverseRecOn generalizing s with
  | nil => exact ⟨s,by rwa [List.append_nil] at h⟩
  | append_singleton talk' a ih =>
    rw [← List.append_assoc] at h
    obtain ⟨s',h',-⟩ := h.unsnoc
    exact ih h'

/-- Where an answer is due, the message that obliges to it was read last. -/
theorem Talk.obliged {reply : Reply} (h : Talk talk s) (hs : s.stage=.owing reply) :
    ∃ earlier m, talk=earlier++[.read m] ∧ reply.Obliges m := by
  cases h with
  | nil => cases hs
  | snoc h hstep =>
    obtain ⟨m,rfl,hm⟩ := hstep.obliged hs
    exact ⟨_,m,rfl,hm⟩

/-- What was said after a beginning, and the beginning. -/
theorem Talk.said {after : List Act} (h : Talk (talk++a::after) s') :
    ∃ s₁ s₂, Talk talk s₁ ∧ Step s₁ a s₂ ∧ Talk (talk++[a]) s₂ := by
  rw [← List.singleton_append,← List.append_assoc] at h
  obtain ⟨s₂,h⟩ := h.before
  obtain ⟨s₁,hbefore,hstep⟩ := h.unsnoc
  exact ⟨s₁,s₂,hbefore,hstep,h⟩

/-- Every answer is preceded immediately by a message that obliges to it. -/
theorem Talk.answers {reply : Reply} {after : List Act} (h : Talk (talk++.post m::after) s)
    (hm : reply.Answers m) : ∃ earlier q, talk=earlier++[.read q] ∧ reply.Obliges q := by
  obtain ⟨s₁,s₂,hbefore,hstep,-⟩ := h.said
  exact hbefore.obliged (hstep.owing hm)

/-- Every Soft_Reset is preceded immediately by a message of the source, or by
a refusal of the sink. -/
theorem Talk.resyncs {after : List Act} (h : Talk (talk++.post m::after) s)
    (hm : m.isControl pdMsgtypeSoftReset=true) : ∃ earlier a, talk=earlier++[a] ∧
      ((∃ q, a=.read q) ∨ ∃ q, a=.post q ∧ Reply.notSupported.Answers q) := by
  obtain ⟨s₁,s₂,hbefore,hstep,-⟩ := h.said
  have hstage := hstep.resyncs hm
  cases hbefore with
  | nil => simp [Session.initial] at hstage
  | snoc hearlier hlast => exact ⟨_,_,rfl,hlast.confuses hstage⟩

/-- Capabilities were read after the last reset. -/
def Offered (talk : List Act) : Prop :=
  ∃ earlier m later, talk=earlier++.read m::later ∧ m.isData pdMsgtypeSourceCapabilities=true ∧
    .reset ∉ later

/-- They stay read until the next reset. -/
theorem Offered.snoc (h : Offered talk) (ha : a≠.reset) : Offered (talk++[a]) := by
  obtain ⟨earlier,m,later,rfl,hm,hlater⟩ := h
  refine ⟨earlier,m,later++[a],by simp,hm,?_⟩
  simp only [List.mem_append,List.mem_singleton,not_or]
  exact ⟨hlater,Ne.symm ha⟩

/-- The stages, apart from the open ones, in which capabilities are known. -/
def knowingStages : List Stage :=
  [.offered,.requested,.accepted,.owing .notSupported,.owing .sinkCapabilities]

/-- The capabilities of the source are known. -/
def Stage.Knows (stage : Stage) : Prop := stage.Open ∨ stage ∈ knowingStages

/-- A stage in which capabilities are known comes after another, or after an
offer. -/
theorem Step.knows (h : Step s a s') (hs : s'.stage.Knows) :
    a≠.reset ∧ (s.stage.Knows ∨ ∃ m, a=.read m ∧ m.isData pdMsgtypeSourceCapabilities=true) := by
  have hopen (h : s.stage.Open) : s.stage.Knows := .inl h
  have hin {stage : Stage} (h : s.stage=stage) (hmem : stage ∈ knowingStages) : s.stage.Knows :=
    .inr (h ▸ hmem)
  cases h with
  | offer hs' hm => exact ⟨nofun,.inr ⟨_,rfl,hm⟩⟩
  | request hs' hm => exact ⟨nofun,.inl (hs'.elim (hin · (by decide)) hopen)⟩
  | grant hs' hm => exact ⟨nofun,.inl (hin hs' (by decide))⟩
  | decline hs' hm => exact ⟨nofun,.inl (hin hs' (by decide))⟩
  | conclude hs' hm => exact ⟨nofun,.inl (hin hs' (by decide))⟩
  | reduce hs' hm => exact ⟨nofun,.inl (hopen hs')⟩
  | hear hs' hm => exact ⟨nofun,.inl (hopen hs')⟩
  | query hs' hm => exact ⟨nofun,.inl (hopen hs')⟩
  | oblige reply hs' hm =>
    refine ⟨nofun,.inl (hs'.elim hopen fun haccept => ?_)⟩
    rw [haccept.1] at hs
    simp [Stage.Knows,Stage.Open,knowingStages] at hs
  | reply reply hs' hm =>
    refine ⟨nofun,.inl ?_⟩
    cases reply with
    | accept => simp [Stage.Knows,Stage.Open,Reply.after,knowingStages] at hs
    | notSupported => exact hin hs' (by decide)
    | sinkCapabilities => exact hin hs' (by decide)
  | _ => simp [Stage.Knows,Stage.Open,knowingStages] at hs

/-- Where capabilities are known, they were read after the last reset. -/
theorem Talk.offered (h : Talk talk s) (hs : s.stage.Knows) : Offered talk := by
  induction h with
  | nil => simp [Session.initial,Stage.Knows,Stage.Open,knowingStages] at hs
  | snoc h hstep ih =>
    obtain ⟨hne,hknows | ⟨m,rfl,hm⟩⟩ := hstep.knows hs
    · exact (ih hknows).snoc hne
    · exact ⟨_,m,[],rfl,hm,by simp⟩

/-- A Request is posted in these stages, and its answer is awaited then. -/
theorem Step.requesting (h : Step s (.post m) s') (hm : m.isData pdMsgtypeRequest=true) :
    s.stage.Knows ∧ s'.stage=.requested := by
  cases h with
  | request hs hr => exact ⟨hs.elim (fun hs => .inr (by rw [hs]; decide)) .inl,rfl⟩
  | query hs hq => rw [isData_of_isControl hq] at hm; cases hm
  | resync hs hr => rw [isData_of_isControl hr] at hm; cases hm
  | reply reply hs hr => rw [hr.only.1] at hm; cases hm

/-- An answer is awaited, or nothing but a hard reset is left. -/
def Stage.Awaits (stage : Stage) : Prop := stage=.requested ∨ stage=.broken

/-- Nothing is posted then, and only a message or a reset ends it. -/
theorem Step.awaiting (h : Step s a s') (hs : s.stage.Awaits) :
    (∃ q, a=.read q) ∨ a=.reset ∨ a=.ask ∧ s'.stage.Awaits := by
  cases h with
  | ask => exact .inr (.inr ⟨rfl,.inr rfl⟩)
  | reset => exact .inr (.inl rfl)
  | request hs' hr => rcases hs with hs | hs <;> simp [hs,Stage.Open] at hs'
  | query hs' hq => rcases hs with hs | hs <;> simp [hs,Stage.Open] at hs'
  | resync hs' hr => rcases hs with hs | hs <;> simp [hs] at hs'
  | reply reply hs' hr => rcases hs with hs | hs <;> simp [hs] at hs'
  | _ => exact .inl ⟨_,rfl⟩

/-- Every Request is for something that was offered after the last reset. -/
theorem Talk.requests {after : List Act} (h : Talk (talk++.post m::after) s)
    (hm : m.isData pdMsgtypeRequest=true) : Offered talk := by
  obtain ⟨s₁,s₂,hbefore,hstep,-⟩ := h.said
  exact hbefore.offered (hstep.requesting hm).1

/-- After a Request an answer stays awaited, over whatever is neither a message
of the source nor a reset. -/
theorem Talk.awaiting {between : List Act} (h : Talk (talk++.post m::between) s)
    (hm : m.isData pdMsgtypeRequest=true) (hread : ∀ q, .read q ∉ between) (hreset : .reset ∉ between) :
    s.stage.Awaits := by
  induction between using List.reverseRecOn generalizing s with
  | nil =>
    obtain ⟨s₁,-,hstep⟩ := h.unsnoc
    exact .inl (hstep.requesting hm).2
  | append_singleton between a ih =>
    simp only [List.mem_append,List.mem_singleton,not_or] at hread hreset
    rw [← List.cons_append,← List.append_assoc] at h
    obtain ⟨s₁,hbefore,hstep⟩ := h.unsnoc
    have hs : s₁.stage.Awaits := ih hbefore (fun q => (hread q).1) hreset.1
    rcases hstep.awaiting hs with ⟨q,ha⟩ | ha | ⟨-,ha⟩
    · exact absurd ha.symm (hread q).2
    · exact absurd ha.symm hreset.2
    · exact ha

/-- After a Request the sink posts nothing before it reads a message of the
source or there is a reset. -/
theorem Talk.awaits {between after : List Act} {m' : PdMsg}
    (h : Talk (talk++.post m::(between++.post m'::after)) s) (hm : m.isData pdMsgtypeRequest=true) :
    (∃ q, .read q ∈ between) ∨ .reset ∈ between := by
  by_contra hno
  obtain ⟨hread,hreset⟩ := not_or.mp hno
  rw [← List.cons_append,← List.append_assoc] at h
  obtain ⟨s₁,s₂,hbefore,hstep,-⟩ := h.said
  have hs : s₁.stage.Awaits := hbefore.awaiting hm (not_exists.mp hread) hreset
  rcases hstep.awaiting hs with ⟨q,ha⟩ | ha | ⟨ha,-⟩ <;> cases ha

end Rules

end UsbPdFirmware.SinkPolicy
