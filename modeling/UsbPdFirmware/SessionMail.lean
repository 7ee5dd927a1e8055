import UsbPdFirmware.TransmitResults

/-!
# Mail of an earlier session

A hard reset leaves the Policy Engine's mailbox as it is. Beside the firmware
every message in it is marked: as old when a reset comes after it, and as
stale when the Policy Engine then settles on default power. A reset that the
sink asks for comes when the PHY has sent it, and at the latest when the
Policy Engine settles for it.
-/

namespace UsbPdFirmware.SessionMail

open PdMessage LabelledRuns Machine EventThreads FirmwareState FirmwareSystem
open PolicyEngine PolicyEngineMoves ProtocolRx ProtocolTx HardReset

/-! ## Marks -/

/-- How a message stands to the resets since it was posted. -/
inductive Age where
  /-- None came. -/
  | fresh
  /-- One came. -/
  | old
  /-- The Policy Engine has settled on default power for it. -/
  | stale
  deriving DecidableEq

/-- A reset comes. -/
def Age.reset : Age → Age
  | .fresh => .old
  | a => a

/-- The Policy Engine settles on default power. -/
def Age.settle : Age → Age
  | .old => .stale
  | a => a

/-- Marks beside the Policy Engine's mailbox. -/
structure Marks where
  /-- One for each message in it. -/
  queue : List Age
  /-- The mark of the message fetched last. -/
  fetched : Option Age
  /-- The Hard Reset thread has accepted a reset from the Policy Engine, and the
  PHY has not sent it yet. -/
  unsent : Bool

/-- The marks when the Policy Engine settles: a reset not yet sent comes now. -/
def Marks.due (a : Marks) : List Age := if a.unsent then a.queue.map Age.reset else a.queue

/-- Protocol RX posts a message. -/
def posts (s : System) (l : Label) : Bool := l.isRx && decide (s.rx.point=.storePost)

/-- The Policy Engine fetches a message. -/
def fetches (s : System) (l : Label) : Bool := l.isPe && decide (s.pe.point=.fetch)

/-- The Policy Engine executes `PESinkTransitionDefault`. -/
def settles (s : System) (l : Label) : Bool :=
  l.isPe && decide (s.pe.point=.start ∧ s.pe.state=.sinkTransitionDefault)

/-- The Hard Reset thread accepts a reset. -/
def accepts (s : System) (l : Label) : Bool := l.isHr && decide (s.hr.point=.resetLayer)

/-- The PHY reports that it has sent a reset. -/
def isHardsent : Label → Bool
  | .env .hardsent => true
  | _ => false

/-- The PHY has sent the reset that the Hard Reset thread told it to send. -/
def sends (s : System) (l : Label) : Bool := isHardsent l && decide (s.hr.point=.waitPhy)

/-- The marks after a step. -/
def recordAge (a : Marks) (s : System) (l : Label) (_ : System) : Marks :=
  if posts s l then {a with queue := post pdbMsgPoolSize .fresh a.queue}
  else if fetches s l then {a with queue := a.queue.tail,fetched := a.queue.head?}
  else if settles s l then {a with queue := a.due.map Age.settle,unsent := false}
  else if accepts s l then
    {a with queue := a.queue.map Age.reset,unsent := s.pending .hardrstReset}
  else if sends s l then {a with queue := a.due,unsent := false}
  else a

/-- The firmware with the marks beside it. -/
def dated : Machine (System × Marks) Label := firmware.observe ⟨[],none,false⟩ recordAge

/-- When the Policy Engine settles on default power, its mailbox holds no
message from before the reset. -/
def drained (p : System × Marks) (l : Label) : Prop := settles p.1 l=true → .old ∉ p.2.due

instance (p : System × Marks) (l : Label) : Decidable (drained p l) :=
  inferInstanceAs (Decidable (_ → _))

/-! ## The mailbox -/

section Mailbox

variable {s s' : System} {l : Label} {a : Marks}

/-- Protocol RX alone posts. -/
theorem peMailbox_post (h : Moved s l s') (hp : posts s l=true) :
    ∃ m, s'.shared.peMailbox=post pdbMsgPoolSize m s.shared.peMailbox := by
  obtain ⟨hl,hpoint⟩ := Bool.and_eq_true_iff.mp hp
  have hpost : s.rx.point=.storePost := of_decide_eq_true hpoint
  obtain ⟨o,ho,rfl⟩ := exists_rxStep h hl
  obtain ⟨m,-,rfl⟩ := ho.of_storePost hpost
  exact ⟨m,rfl⟩

/-- The Policy Engine alone fetches. -/
theorem peMailbox_fetch (h : Moved s l s') (hf : fetches s l=true) :
    s'.shared.peMailbox=s.shared.peMailbox.tail := by
  obtain ⟨hl,hpoint⟩ := Bool.and_eq_true_iff.mp hf
  have hfetch : policyEngine s.pe=fetchMessage s.pe := by
    unfold policyEngine
    rw [of_decide_eq_true hpoint]
  obtain ⟨o,ho,rfl⟩ := exists_peStep h hl
  rw [hfetch] at ho
  rcases fetchMessage_perform ho with ⟨hq,rfl⟩ | ⟨m,rest,hq,rfl⟩
  · change s.shared.peMailbox=_
    rw [hq]
    rfl
  · change rest=_
    rw [hq]
    rfl

/-- Everything else leaves the mailbox. -/
theorem peMailbox_kept (h : Moved s l s') (hp : posts s l=false) (hf : fetches s l=false) :
    s'.shared.peMailbox=s.shared.peMailbox := by
  cases h with
  | pe hl he ho =>
    cases policyEngine_move ho with
    | fetch hpoint hp' =>
      unfold fetches at hf
      rw [hl,decide_eq_true hpoint] at hf
      cases hf
    | think hp' hp'' hs => exact hs.peMailbox
    | post hp' hs hp'' hk hm ht => exact hm
    | settle hp' hp'' hs => exact hs.peMailbox
    | _ => rfl
  | rx hr =>
    cases hr with
    | post hpoint hm =>
      unfold posts at hp
      rw [decide_eq_true hpoint] at hp
      cases hp
    | read hpoint hb =>
      change (Shared.fusbReadMessage s.shared).2.peMailbox=_
      rw [fusbReadMessage_eq]
    | drop hpoint => exact free?_peMailbox _ _
    | _ => rfl
  | tx ht => exact ht.frame.peMailbox
  | hr hl hh => exact hh.frame.peMailbox
  | intN hi => exact hi.frame.peMailbox
  | env he => exact (environment_frame he).peMailbox

end Mailbox

/-! ## Marks in step with the mailbox -/

section Marks

variable {s s' : System} {l : Label} {a : Marks} {p q : System × Marks}

theorem due_length (a : Marks) : a.due.length=a.queue.length := by
  unfold Marks.due
  split
  · exact List.length_map _
  · rfl

/-- A reset makes nothing stale. -/
theorem stale_of_reset {queue : List Age} (h : .stale ∈ queue.map Age.reset) : .stale ∈ queue := by
  obtain ⟨age,hage,he⟩ := List.mem_map.mp h
  cases age with
  | fresh => cases he
  | old => cases he
  | stale => exact hage

theorem stale_of_due (h : .stale ∈ a.due) : .stale ∈ a.queue := by
  unfold Marks.due at h
  split at h
  · exact stale_of_reset h
  · exact h

/-- The marks keep the length of the mailbox. -/
theorem recordAge_length (h : Moved s l s') (ha : a.queue.length=s.shared.peMailbox.length) :
    (recordAge a s l s').queue.length=s'.shared.peMailbox.length := by
  unfold recordAge
  by_cases hp : posts s l=true
  · obtain ⟨m,hm⟩ := peMailbox_post h hp
    rw [if_pos hp,hm]
    exact TransmitResults.post_length ha
  rw [if_neg hp]
  by_cases hf : fetches s l=true
  · rw [if_pos hf,peMailbox_fetch h hf,List.length_tail,List.length_tail,ha]
  rw [if_neg hf,peMailbox_kept h (Bool.not_eq_true _ ▸ hp) (Bool.not_eq_true _ ▸ hf)]
  split
  · rw [List.length_map,due_length,ha]
  split
  · rw [List.length_map,ha]
  split
  · rw [due_length,ha]
  · exact ha

/-- There is a mark for every message, in every run. -/
theorem dated_length {allowed : System × Marks → Label → Prop} (h : dated.Reach allowed p) :
    p.2.queue.length=p.1.shared.peMailbox.length :=
  h.observed_invariant (I := fun s a => a.queue.length=s.shared.peMailbox.length) rfl
    fun _ _ _ _ _ hi _ hs => recordAge_length (firmware_moved hs) hi

/-- No message is stale, nor was the one fetched last. -/
structure Clean (a : Marks) : Prop where
  /-- In the mailbox. -/
  queue : .stale ∉ a.queue
  /-- Fetched. -/
  fetched : a.fetched≠some .stale

/-- A step under the condition makes no message stale. -/
theorem Clean.step (h : Clean a) (ha : settles s l=true → .old ∉ a.due) :
    Clean (recordAge a s l s') := by
  unfold recordAge
  split
  · refine ⟨?_,h.fetched⟩
    change .stale ∉ post pdbMsgPoolSize .fresh a.queue
    unfold post
    split
    · simp [h.queue]
    · exact h.queue
  split
  · refine ⟨fun hm => h.queue (List.mem_of_mem_tail hm),fun hm => h.queue ?_⟩
    exact List.mem_of_head? hm
  split
  · next hsettles =>
    refine ⟨fun hm => ?_,h.fetched⟩
    obtain ⟨age,hage,he⟩ := List.mem_map.mp hm
    cases age with
    | fresh => cases he
    | old => exact ha hsettles hage
    | stale => exact h.queue (stale_of_due hage)
  split
  · exact ⟨fun hm => h.queue (stale_of_reset hm),h.fetched⟩
  split
  · exact ⟨fun hm => h.queue (stale_of_due hm),h.fetched⟩
  · exact h

/-- Settling makes a message from before the reset stale. -/
theorem stale_settled (hs : settles s l=true) (h : .old ∈ a.due) :
    .stale ∈ (recordAge a s l s').queue := by
  obtain ⟨hl,hpoint⟩ := Bool.and_eq_true_iff.mp hs
  have hposts : posts s l=false := by
    rcases Label.eq_of_isPe hl with rfl | rfl <;> rfl
  have hfetches : fetches s l=false := by
    unfold fetches
    rw [(of_decide_eq_true hpoint).1]
    exact Bool.and_false _
  unfold recordAge
  rw [hposts,hfetches,if_neg Bool.false_ne_true,if_neg Bool.false_ne_true,if_pos hs]
  exact List.mem_map.mpr ⟨.old,h,rfl⟩

end Marks

/-- A hard reset arrives while the Policy Engine waits for capabilities, and
every thread recovers from it. -/
def hardResetWaiting : List Label :=
  [.env .hardrst,.intN,.intN,.intN,.intN,.intN,.hr,.hr,.hr,.hr,.hr,.hr,.tx,.tx,.tx,.rx,.pe,.pe,.pe,.pe,
    .pe,.hr,.hr]

/-- Capabilities arrive just before the reset, and again after it. The wait takes
the reset with the first announcement. -/
def leftOver : List Label :=
  List.flatten [powerUp,deliver (sourceCapabilities 0),hardResetWaiting,
    deliver (sourceCapabilities 1),[.pe,.pe]]

end UsbPdFirmware.SessionMail
