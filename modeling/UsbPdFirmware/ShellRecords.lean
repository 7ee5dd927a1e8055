import UsbPdFirmware.CommandEffects

/-!
# Configurations the shell stores

Those in the buffer and those in flash, the superseded ones included. Each was
in range when it was written, and superseding it changes its status only.
-/

namespace UsbPdFirmware.ShellRecords

open DevicePolicy ConfigStore ConfigStoreRuns ShellCommands ConfigRanges LabelledRuns Machine SlotLog
open CommandEffects

/-- The configuration while it was the current one. -/
def validated (e : Entry) : Entry := Function.update e .status pdbsConfigStatusValid

/-- A configuration in range, current or superseded. -/
structure Storable (e : Entry) : Prop where
  /-- It was in range. -/
  inRange : InRange (validated e)
  /-- Its status. -/
  status : e .status=pdbsConfigStatusValid ∨ e .status=pdbsConfigStatusInvalid

/-- All configurations on a page are. -/
def Recorded (page : Page) : Prop :=
  ∀ slot, page slot .status=pdbsConfigStatusValid ∨ page slot .status=pdbsConfigStatusInvalid →
    InRange (validated (page slot))

/-- What is in the buffer of the shell at some time, or in flash and not empty. -/
def ShellStores (e : Entry) : Prop :=
  ∃ sh, console.Reach anyStep sh ∧ (e=sh.tmpcfg ∨ ∃ slot, e=sh.flash.page slot ∧
    (e .status=pdbsConfigStatusValid ∨ e .status=pdbsConfigStatusInvalid))

section Validated

variable {e : Entry}

theorem validated_eq (h : e .status=pdbsConfigStatusValid) : validated e=e := by
  rw [validated,← h]
  exact Function.update_eq_self _ _

/-- A configuration that is current and in range. -/
theorem storable_of_inRange (h : InRange e) : Storable e :=
  ⟨by rw [validated_eq h.status]; exact h,.inl h.status⟩

end Validated

/-! ## Updates -/

section Update

variable {st : Store} {page : Page} {r : ℕ} {current : Option Entry} {cfg : Entry}

/-- An erased page has no configuration. -/
theorem recorded_erase (page : Page) : Recorded (FlashOp.erase.apply page) := by
  rintro slot (h | h)
  · exact absurd (show erased=pdbsConfigStatusValid from h) (by decide)
  · exact absurd (show erased=pdbsConfigStatusInvalid from h) (by decide)

/-- Superseding changes the status only. -/
theorem Recorded.invalidate (h : Recorded st.page) (hst : Holds st r current) :
    Recorded (applyAll (invalidateOps st) st.page) := by
  unfold invalidateOps
  cases current with
  | none =>
    rw [hst.read_none]
    exact h
  | some c =>
    obtain ⟨k,hk⟩ := hst.exists_slot
    have hlive := hst.read_status (hst.read hk)
    have hlegal : (FlashOp.program k .status pdbsConfigStatusInvalid).Legal st.page := .inr rfl
    rw [hst.read hk]
    change Recorded ((FlashOp.program k .status pdbsConfigStatusInvalid).apply st.page)
    rw [apply_program hlegal]
    intro slot hslot
    by_cases hs : slot=k
    · rw [hs,Function.update_self]
      have hsame : validated (Function.update (st.page k) .status pdbsConfigStatusInvalid)=
          validated (st.page k) := Function.update_idem _ _ _
      rw [hsame]
      exact h k (.inl hlive)
    · rw [Function.update_of_ne hs] at hslot ⊢
      exact h slot hslot

/-- Making room keeps what is left. -/
theorem Recorded.room (h : Recorded page) : Recorded (applyAll (roomOps page).1 page) := by
  unfold roomOps
  cases findStatus pdbsConfigStatusEmpty page with
  | some slot => exact h
  | none => exact recorded_erase page

/-- An update adds a configuration in range. -/
theorem Recorded.update (h : Recorded st.page) (hst : Holds st r current) (hcfg : InRange cfg) :
    Recorded (pdbsConfigFlashUpdate cfg st).page := by
  have hclear : Recorded (applyAll (clearingOps st) st.page) := by
    unfold clearingOps
    rw [applyAll_append]
    exact (h.invalidate hst).room
  have hwrite : LegalRun ((writeOps (updateSlot st) cfg).take writeOrder.length) _ ∧ _ :=
    hst.write writeOrder.length
  have hops : (writeOps (updateSlot st) cfg).take writeOrder.length=writeOps (updateSlot st) cfg :=
    List.take_of_length_le (by simp [writeOps])
  have hpage : (pdbsConfigFlashUpdate cfg st).page=
      applyAll (writeOps (updateSlot st) cfg) (applyAll (clearingOps st) st.page) :=
    applyAll_append _ _ _
  rw [hops,List.take_length] at hwrite
  rw [hpage,hwrite.2]
  intro slot hslot
  by_cases hs : slot=updateSlot st
  · have htorn : InRange (torn cfg writeOrder) := hcfg.copy fun f hf => if_pos hf
    rw [hs,Function.update_self,validated_eq htorn.status]
    exact htorn
  · rw [Function.update_of_ne hs] at hslot ⊢
    exact hclear slot hslot

end Update

/-! ## Runs -/

/-- All commands but two leave the page. -/
theorem entry_page (seen : Surroundings) : ∀ entry ∈ commands seen,
    (∀ args sh, (entry.func args sh).shell.flash.page=sh.flash.page) ∨ entry.func=cmdWrite ∨
      entry.func=cmdErase := by
  have hkeeps {scope : Scope} {cmd : Command} (hpage : scope.page=false) (h : Within scope cmd) :
      ∀ args sh, (cmd args sh).shell.flash.page=sh.flash.page := fun args sh => (h args sh).page hpage
  have hall := within_commands seen
  simp only [commands,scopes,List.forall₂_cons] at hall
  obtain ⟨h1,h2,h3,h4,h5,-,-,h8,h9,h10,h11,h12,h13,h14,h15,h16,h17,h18,-⟩ := hall
  simp only [commands,List.forall_mem_cons]
  exact ⟨.inl (hkeeps rfl h1.2),.inl (hkeeps rfl h2.2),.inl (hkeeps rfl h3.2),.inl (hkeeps rfl h4.2),
    .inl (hkeeps rfl h5.2),.inr (.inl trivial),.inr (.inr trivial),.inl (hkeeps rfl h8.2),.inl (hkeeps rfl h9.2),
    .inl (hkeeps rfl h10.2),.inl (hkeeps rfl h11.2),.inl (hkeeps rfl h12.2),.inl (hkeeps rfl h13.2),
    .inl (hkeeps rfl h14.2),.inl (hkeeps rfl h15.2),.inl (hkeeps rfl h16.2),.inl (hkeeps rfl h17.2),
    .inl (hkeeps rfl h18.2),by simp⟩

/-- A line leaves the page, updates it from the buffer, or erases it. -/
theorem runWords_page (seen : Surroundings) (words : List Word) (sh : Shell) :
    (runWords seen words sh).shell.flash.page=sh.flash.page ∨
    (runWords seen words sh).shell.flash=pdbsConfigFlashUpdate sh.tmpcfg sh.flash ∨
    (runWords seen words sh).shell.flash=pdbsConfigFlashErase sh.flash := by
  cases words with
  | nil => exact .inl rfl
  | cons name args =>
    simp only [runWords]
    split
    · exact .inl rfl
    · split
      · cases args <;> exact .inl rfl
      · cases hexec : cmdexec seen name with
        | none => exact .inl rfl
        | some cmd =>
          obtain ⟨entry,hfind,rfl⟩ := Option.map_eq_some_iff.mp hexec
          rcases entry_page seen entry (List.mem_of_find?_eq_some hfind) with hkeep | hwrite | herase
          · exact .inl (hkeep args sh)
          · rw [hwrite]
            cases args with
            | nil => exact .inr (.inl rfl)
            | cons arg args => exact .inl rfl
          · rw [herase]
            cases args with
            | nil => exact .inr (.inr rfl)
            | cons arg args => exact .inl rfl

/-- Every configuration in flash was in range. -/
theorem recorded_of_reach {sh : Shell} (h : console.Reach anyStep sh) : Recorded sh.flash.page := by
  refine h.invariant (I := fun sh => Recorded sh.flash.page) ?_ fun sh input sh' hr hrec _ hs => ?_
  · rw [show console.start.flash.page=_ from startShell_page _]
    exact recorded_erase fun _ _ => erased
  · have hgood := console_good hr
    obtain ⟨r,current,hst⟩ := exists_holds hgood.flash.any
    rw [← Option.some_inj.mp hs]
    cases input with
    | line seen words =>
      rcases runWords_page seen words sh with heq | heq | heq
      · rw [heq]
        exact hrec
      · rw [heq]
        exact hrec.update hst hgood.buffer
      · rw [heq]
        exact recorded_erase sh.flash.page
    | powerCycle =>
      rw [startShell_page]
      exact hrec

/-- What the shell stores was in range. -/
theorem storable_of_stores {e : Entry} (h : ShellStores e) : Storable e := by
  obtain ⟨sh,hr,rfl | ⟨slot,rfl,hstatus⟩⟩ := h
  · exact storable_of_inRange (console_good hr).buffer
  · exact ⟨recorded_of_reach hr slot hstatus,hstatus⟩

end UsbPdFirmware.ShellRecords
