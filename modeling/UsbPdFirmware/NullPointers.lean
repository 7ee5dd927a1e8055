import UsbPdFirmware.BlockOwners
import UsbPdFirmware.Negotiation

/-!
# Pointers of the callbacks

Which pointers the callbacks of the Device Policy Manager follow, and when
they are null. The stored configuration can be erased at any moment; the
capabilities and the received message belong to the Policy Engine.
-/

namespace UsbPdFirmware.NullPointers

open PdMessage DevicePolicy LabelledRuns Machine FirmwareState PolicyEngine FirmwareSystem
open NegotiationMoves Negotiation BlockCustody BlockOwners

/-! ## Callbacks -/

/-- The callbacks that are registered. -/
inductive Callback where
  | pdStart
  | evaluateCapability
  | getSinkCapability
  | givebackEnabled
  | evaluateTypecCurrent
  | transitionDefault
  | transitionMin
  | transitionStandby
  | transitionRequested
  | transitionTypec
  deriving DecidableEq

/-- Pointers with different owners. -/
inductive Pointer where
  /-- What `pdbs_config_flash_read` returns. -/
  | config
  /-- The capabilities under evaluation, new or stored. -/
  | offered
  /-- The stored capabilities. -/
  | stored
  /-- The message of the Policy Engine. -/
  | message
  deriving DecidableEq

/-- The next action handles a GotoMin message in `PESinkReady`. -/
def handlesGotomin (pe : PolicyEngine) : Bool :=
  decide (pe.point=.handle ∧ pe.state=.sinkReady) &&
    pe.message.any fun m => m.msg.isControl pdMsgtypeGotomin

/-- The next action builds Sink_Capabilities. -/
def givesSinkCap (pe : PolicyEngine) : Bool := decide (pe.point=.start ∧ pe.state=.sinkGiveSinkCap)

/-- The callbacks that the next action can run. -/
def callbacks (pe : PolicyEngine) : List Callback :=
  match pe.point,pe.state with
  | .start,.sinkStartup => [.pdStart]
  | .start,.sinkEvalCap => [.evaluateCapability]
  | .start,.sinkGiveSinkCap => [.getSinkCapability]
  | .start,.sinkTransitionDefault => [.transitionDefault]
  | .start,.sinkSourceUnresponsive => [.evaluateTypecCurrent,.transitionTypec]
  | .handle,.sinkSelectCap => [.transitionStandby]
  | .handle,.sinkTransitionSink => [.transitionRequested,.transitionDefault]
  | .handle,.sinkReady => if handlesGotomin pe then [.givebackEnabled,.transitionMin] else []
  | _,_ => []

/-- The pointers each of them follows. Two look for a configuration first; one
does not look. -/
def follows (sh : Shared) : Callback → List Pointer
  | .evaluateCapability =>
    .offered::(if sh.config.isSome && sh.dpm.outputEnabled then [.config] else [])
  | .getSinkCapability => if sh.config.isSome then [.config,.stored,.message] else []
  | .givebackEnabled => [.config]
  | .evaluateTypecCurrent => if sh.config.isSome then [.config] else []
  | _ => []

/-- A pointer is null. -/
def isNull (s : System) : Pointer → Bool
  | .config => s.shared.config.isNone
  | .offered => (s.pe.message.or s.shared.dpm.capabilities).isNone
  | .stored => s.shared.dpm.capabilities.isNone
  | .message => s.pe.message.isNone

/-- The next action can follow a null pointer. -/
def FollowsNull (s : System) : Prop :=
  ∃ c ∈ callbacks s.pe, ∃ p ∈ follows s.shared c, isNull s p=true

/-! ## When they are null -/

section Null

variable {s : System}

/-- There are capabilities to evaluate. -/
theorem offered_present (h : negotiator.Reach anyStep s) (hp : s.pe.point=.start)
    (hs : s.pe.state=.sinkEvalCap) : isNull s .offered=false := by
  obtain ⟨-,c,hcaps,-⟩ := (negotiator_sound h).at_ (s := .evaluating) (standing_begin hp hs)
  change (s.pe.message.or s.shared.dpm.capabilities).isNone=false
  rw [hcaps]
  rfl

/-- There are stored ones wherever the sink's are built. -/
theorem stored_present (h : negotiator.Reach anyStep s) (hs : s.pe.state=.sinkGiveSinkCap) :
    isNull s .stored=false := by
  obtain ⟨-,⟨-,c,-,hcaps,-⟩,-⟩ := (negotiator_sound h).contracted (by rw [hs]; decide)
  change s.shared.dpm.capabilities.isNone=false
  rw [hcaps]
  rfl

/-- The message that asked for them was freed, and its pointer cleared. -/
theorem message_absent (h : receiver.Reach anyStep s) (hp : s.pe.point=.start)
    (hs : s.pe.state=.sinkGiveSinkCap) : isNull s .message=true := by
  have hhand : hand s.pe=none := hand_eq_none (by rw [hp]; decide) fun _ => by rw [hs]; decide
  have hnone := (receiver_conserved h).tidy.message_none hhand (by rw [hs]; decide)
  change s.pe.message.isNone=true
  rw [hnone]
  rfl

theorem isNull_config : isNull s .config=!s.shared.config.isSome := by
  change s.shared.config.isNone=_
  cases s.shared.config <;> rfl

/-- A configuration that was looked for is not null. -/
theorem config_present (h : s.shared.config.isSome=true) : isNull s .config=false := by
  rw [isNull_config,h]
  rfl

/-- Evaluating capabilities follows no null pointer. -/
theorem evaluateCapability_safe (h : negotiator.Reach anyStep s) (hp : s.pe.point=.start)
    (hs : s.pe.state=.sinkEvalCap) :
    ∀ p ∈ follows s.shared .evaluateCapability, isNull s p=false := by
  change ∀ p ∈ Pointer.offered::(if s.shared.config.isSome && s.shared.dpm.outputEnabled then
    [.config] else []), isNull s p=false
  rw [List.forall_mem_cons]
  refine ⟨offered_present h hp hs,?_⟩
  split
  · next hc =>
    rw [Bool.and_eq_true] at hc
    simpa using config_present hc.1
  · exact fun p hp => absurd hp List.not_mem_nil

/-- So does evaluating the Type-C Current. -/
theorem evaluateTypecCurrent_safe :
    ∀ p ∈ follows s.shared .evaluateTypecCurrent, isNull s p=false := by
  change ∀ p ∈ (if s.shared.config.isSome then [Pointer.config] else []), isNull s p=false
  split
  · next hc => simpa using config_present hc
  · exact fun p hp => absurd hp List.not_mem_nil

/-- Building Sink_Capabilities does when there is a configuration. -/
theorem getSinkCapability_null (h : receiver.Reach anyStep s) (hg : givesSinkCap s.pe=true) :
    (∃ p ∈ follows s.shared .getSinkCapability, isNull s p=true) ↔ s.shared.config≠none := by
  change (∃ p ∈ (if s.shared.config.isSome then [Pointer.config,.stored,.message] else []),
    isNull s p=true) ↔ _
  obtain ⟨hp,hs⟩ := of_decide_eq_true hg
  split
  · next hc =>
    refine ⟨fun _ => Option.isSome_iff_ne_none.mp hc,fun _ => ⟨.message,by simp,?_⟩⟩
    exact message_absent h hp hs
  · next hc =>
    refine ⟨fun ⟨p,hp,_⟩ => absurd hp List.not_mem_nil,fun hne => ?_⟩
    exact absurd (Option.isSome_iff_ne_none.mpr hne) hc

/-- Asking for GiveBack does when there is none. -/
theorem givebackEnabled_null :
    (∃ p ∈ follows s.shared .givebackEnabled, isNull s p=true) ↔ s.shared.config=none := by
  change (∃ p ∈ [Pointer.config], isNull s p=true) ↔ _
  simp [isNull_config]

end Null

section Callbacks

variable {pe : PolicyEngine}

/-- When the next action runs the callbacks that follow pointers. -/
inductive Called (pe : PolicyEngine) : Callback → Prop where
  /-- Capabilities are evaluated. -/
  | evaluateCapability (hp : pe.point=.start) (hs : pe.state=.sinkEvalCap) : Called pe .evaluateCapability
  /-- The sink's capabilities are built. -/
  | getSinkCapability (hg : givesSinkCap pe=true) : Called pe .getSinkCapability
  /-- A GotoMin message is handled. -/
  | givebackEnabled (hg : handlesGotomin pe=true) : Called pe .givebackEnabled
  /-- The Type-C Current is evaluated. -/
  | evaluateTypecCurrent : Called pe .evaluateTypecCurrent
  /-- The others follow none. -/
  | other {c : Callback} (hf : ∀ sh, follows sh c=[]) : Called pe c

theorem called_of_mem {c : Callback} (h : c ∈ callbacks pe) : Called pe c := by
  unfold callbacks at h
  split at h
  case h_1 =>
    cases List.mem_singleton.mp h
    exact .other fun _ => rfl
  case h_2 hp hs =>
    cases List.mem_singleton.mp h
    exact .evaluateCapability hp hs
  case h_3 hp hs =>
    cases List.mem_singleton.mp h
    exact .getSinkCapability (decide_eq_true ⟨hp,hs⟩)
  case h_4 =>
    cases List.mem_singleton.mp h
    exact .other fun _ => rfl
  case h_5 =>
    rcases List.mem_pair.mp h with rfl | rfl
    · exact .evaluateTypecCurrent
    · exact .other fun _ => rfl
  case h_6 =>
    cases List.mem_singleton.mp h
    exact .other fun _ => rfl
  case h_7 => rcases List.mem_pair.mp h with rfl | rfl <;> exact .other fun _ => rfl
  case h_8 =>
    split at h
    · next hg =>
      rcases List.mem_pair.mp h with rfl | rfl
      · exact .givebackEnabled hg
      · exact .other fun _ => rfl
    · cases h
  case h_9 => cases h

theorem getSinkCapability_mem (h : givesSinkCap pe=true) : .getSinkCapability ∈ callbacks pe := by
  obtain ⟨hp,hs⟩ := of_decide_eq_true h
  unfold callbacks
  rw [hp,hs]
  exact List.mem_singleton_self _

theorem givebackEnabled_mem (h : handlesGotomin pe=true) : .givebackEnabled ∈ callbacks pe := by
  have hat := h
  unfold handlesGotomin at hat
  rw [Bool.and_eq_true,decide_eq_true_eq] at hat
  unfold callbacks
  rw [hat.1.1,hat.1.2]
  dsimp only
  rw [if_pos h]
  decide

end Callbacks

/-- The callbacks follow no null pointer exactly when GotoMin is not handled
without a configuration, and the sink's capabilities are not given with one.
The source's capabilities are there whenever they are followed. -/
theorem follows_no_null_iff {s : System} (h : firmware.Reach anyStep s) :
    (¬FollowsNull s ↔ (handlesGotomin s.pe=true → s.shared.config≠none) ∧
      (givesSinkCap s.pe=true → s.shared.config=none)) ∧
    ∀ c ∈ callbacks s.pe, ∀ p ∈ follows s.shared c, p=.offered ∨ p=.stored → isNull s p=false := by
  have hn : negotiator.Reach anyStep s :=
    Reach.imitate (M := firmware) (A := negotiator) rfl (fun _ _ _ => firmware_negotiates) h
  have hr := firmware_reach h
  refine ⟨⟨fun hsafe => ⟨fun hg hnone => ?_,fun hg => ?_⟩,?_⟩,fun c hc p hp hcaps => ?_⟩
  · exact hsafe ⟨_,givebackEnabled_mem hg,givebackEnabled_null.mpr hnone⟩
  · by_contra hne
    exact hsafe ⟨_,getSinkCapability_mem hg,(getSinkCapability_null hr hg).mpr hne⟩
  · rintro ⟨hmin,hgive⟩ ⟨c,hc,p,hp,hnull⟩
    cases called_of_mem hc with
    | evaluateCapability hpt hs =>
      rw [evaluateCapability_safe hn hpt hs p hp] at hnull
      cases hnull
    | getSinkCapability hg => exact (getSinkCapability_null hr hg).mp ⟨p,hp,hnull⟩ (hgive hg)
    | givebackEnabled hg => exact hmin hg (givebackEnabled_null.mp ⟨p,hp,hnull⟩)
    | evaluateTypecCurrent =>
      rw [evaluateTypecCurrent_safe p hp] at hnull
      cases hnull
    | other hf =>
      rw [hf] at hp
      cases hp
  · cases called_of_mem hc with
    | evaluateCapability hpt hs => exact evaluateCapability_safe hn hpt hs p hp
    | getSinkCapability hg =>
      obtain ⟨-,hs⟩ := of_decide_eq_true hg
      have hstored := stored_present hn hs
      have hp' : p ∈ if s.shared.config.isSome then [Pointer.config,.stored,.message] else [] := hp
      rcases hcaps with rfl | rfl
      · split at hp' <;> exact absurd hp' (by decide)
      · exact hstored
    | givebackEnabled hg =>
      have hp' : p ∈ [Pointer.config] := hp
      rcases hcaps with rfl | rfl <;> exact absurd hp' (by decide)
    | evaluateTypecCurrent => exact evaluateTypecCurrent_safe p hp
    | other hf =>
      rw [hf] at hp
      cases hp

/-- A source asks for minimum power. -/
def gotominReceived : List Label :=
  List.flatten [negotiate,deliver (controlMessage pdMsgtypeGotomin 3),[.pe,.pe]]

/-- With a configuration stored before, the answer is read from that. -/
theorem follows_no_null_iff_gotomin : ∃ s, firmware.Reach anyStep s ∧
    .givebackEnabled ∈ callbacks s.pe ∧ ¬FollowsNull s := by
  obtain ⟨s,hr,hs⟩ := exists_reach_of_follow firmware anyStep
    (.env (.storeConfig (some ⟨pdbsConfigStatusValid,0,5000,10,0,0⟩))::gotominReceived)
    (fun s => handlesGotomin s.pe && s.shared.config.isSome && !givesSinkCap s.pe) (by decide +kernel)
  simp only [Bool.and_eq_true,Bool.not_eq_true'] at hs
  obtain ⟨⟨hmin,hconfig⟩,hgive⟩ := hs
  refine ⟨s,hr,givebackEnabled_mem hmin,(follows_no_null_iff hr).1.mpr ⟨fun _ => ?_,fun hg => ?_⟩⟩
  · exact Option.isSome_iff_ne_none.mp hconfig
  · rw [hgive] at hg
    cases hg

/-- Nothing was ever stored, and the answer is read from nowhere. -/
theorem exists_followsNull : ¬∀ s, firmware.Reach anyStep s → ¬FollowsNull s := by
  intro hsafe
  obtain ⟨s,hr,hs⟩ := exists_reach_of_follow firmware anyStep gotominReceived
    (fun s => handlesGotomin s.pe && s.shared.config.isNone) (by decide +kernel)
  simp only [Bool.and_eq_true,Option.isNone_iff_eq_none] at hs
  exact hsafe s hr ⟨_,givebackEnabled_mem hs.1,givebackEnabled_null.mpr hs.2⟩

end UsbPdFirmware.NullPointers
