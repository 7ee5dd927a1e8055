import UsbPdFirmware.ConfigStore
import UsbPdFirmware.LabelledRuns
import UsbPdFirmware.SlotLog

/-!
# Runs of the configuration store

Updates, erases, reads and power cycles in any order, on a page that begins
erased. The page is a log of slots: invalid structures, at most one valid one,
and empty ones. So reading gives the latest configuration written, and the
slots are used up one after the other.
-/

namespace UsbPdFirmware.ConfigStoreRuns

open DevicePolicy ConfigStore SlotLog LabelledRuns Machine

/-! ## The layout of the page -/

/-- The kinds of structures. An empty one is erased altogether. -/
def entryKinds : Kinds Entry where
  blank e := ∀ f, e f=erased
  retired e := e .status=pdbsConfigStatusInvalid
  live e := e .status=pdbsConfigStatusValid

/-- The page is laid out as a log, and the cache points to its valid structure
or nowhere. -/
structure Holds (st : Store) (r : ℕ) (current : Option Entry) : Prop where
  /-- The layout. -/
  laid : Laid entryKinds st.page r current
  /-- The cache. -/
  cached : ∀ slot, st.cur=some slot → slot.val=r ∧ current≠none

section Statuses

variable {e : Entry}

theorem blank_status (h : entryKinds.blank e) : e .status=pdbsConfigStatusEmpty := h .status

theorem retired_status (h : entryKinds.retired e) : e .status=pdbsConfigStatusInvalid := h

theorem live_status (h : entryKinds.live e) : e .status=pdbsConfigStatusValid := h

theorem valid_blank (h : entryKinds.blank e) : hasStatus pdbsConfigStatusValid e=false := by
  rw [hasStatus,blank_status h]
  decide

theorem valid_retired (h : entryKinds.retired e) : hasStatus pdbsConfigStatusValid e=false := by
  rw [hasStatus,retired_status h]
  decide

theorem valid_live (h : entryKinds.live e) : hasStatus pdbsConfigStatusValid e=true := by
  rw [hasStatus,live_status h]
  decide

theorem empty_blank (h : entryKinds.blank e) : hasStatus pdbsConfigStatusEmpty e=true := by
  rw [hasStatus,blank_status h]
  decide

theorem empty_retired (h : entryKinds.retired e) : hasStatus pdbsConfigStatusEmpty e=false := by
  rw [hasStatus,retired_status h]
  decide

theorem empty_live (h : entryKinds.live e) : hasStatus pdbsConfigStatusEmpty e=false := by
  rw [hasStatus,live_status h]
  decide

end Statuses

section Find

variable {page : Page} {r : ℕ} {c : Entry} {k : Slot} {current : Option Entry}

/-- The search for a valid structure finds it. -/
theorem findStatus_valid (h : Laid entryKinds page r (some c)) (hk : k.val=r) :
    findStatus pdbsConfigStatusValid page=some k := by
  rw [findStatus]
  exact h.find_live (fun _ => valid_retired) (fun _ => valid_live) hk

theorem findStatus_valid_none (h : Laid entryKinds page r none) :
    findStatus pdbsConfigStatusValid page=none := by
  rw [findStatus]
  exact h.find_live_none (fun _ => valid_blank) fun _ => valid_retired

/-- The search for an empty structure finds the one after those in use. -/
theorem findStatus_empty (h : Laid entryKinds page r current) (hk : k.val=inUse r current) :
    findStatus pdbsConfigStatusEmpty page=some k := by
  rw [findStatus]
  exact h.find_blank (fun _ => empty_blank) (fun _ => empty_retired) (fun _ => empty_live) hk

theorem findStatus_empty_none (h : Laid entryKinds page r current)
    (hn : inUse r current=pdbsConfigArrayLen) : findStatus pdbsConfigStatusEmpty page=none := by
  rw [findStatus]
  exact h.find_blank_full (fun _ => empty_retired) (fun _ => empty_live) hn

/-- The early exit on an empty first structure loses nothing. -/
theorem lookup_eq (h : Laid entryKinds page r (some c)) (hk : k.val=r) : lookup page=some k := by
  have hne : page ⟨0,by decide⟩ .status≠pdbsConfigStatusEmpty := by
    by_cases hr : r=0
    · have hlive := h.here ⟨0,by decide⟩ hr.symm c rfl
      rw [hlive.1,live_status hlive.2]
      decide
    · rw [retired_status (h.below ⟨0,by decide⟩ (Nat.pos_of_ne_zero hr))]
      decide
  rw [lookup,if_neg hne]
  exact findStatus_valid h hk

theorem lookup_none (h : Laid entryKinds page r none) : lookup page=none := by
  unfold lookup
  split
  · rfl
  · exact findStatus_valid_none h

end Find

-- Unfolding the search over all structures is never what a later proof needs.
attribute [local irreducible] findStatus

section Read

variable {st : Store} {r : ℕ} {c : Entry} {k : Slot} {current : Option Entry}

/-- Reading finds the valid structure, through the cache or not. -/
theorem Holds.read (h : Holds st r (some c)) (hk : k.val=r) :
    (pdbsConfigFlashRead st).1=some k := by
  unfold pdbsConfigFlashRead
  cases hcur : st.cur with
  | some slot =>
    have hslot := (h.cached slot hcur).1
    exact congrArg some (Fin.ext (by omega))
  | none =>
    dsimp only
    rw [lookup_eq h.laid hk]

/-- There is a slot for the valid structure. -/
theorem Holds.exists_slot (h : Holds st r (some c)) : ∃ k : Slot, k.val=r := by
  have hfits := h.laid.fits
  rw [inUse_some] at hfits
  exact ⟨⟨r,hfits⟩,rfl⟩

/-- Without a valid structure it finds none. -/
theorem Holds.read_none (h : Holds st r none) : (pdbsConfigFlashRead st).1=none := by
  unfold pdbsConfigFlashRead
  cases hcur : st.cur with
  | some slot => exact absurd rfl (h.cached slot hcur).2
  | none =>
    dsimp only
    rw [lookup_none h.laid]

/-- Reading only fills the cache. -/
theorem Holds.after_read (h : Holds st r current) : Holds (pdbsConfigFlashRead st).2 r current := by
  unfold pdbsConfigFlashRead
  cases hcur : st.cur with
  | some slot => exact h
  | none =>
    dsimp only
    cases current with
    | none =>
      rw [lookup_none h.laid]
      exact h
    | some c =>
      obtain ⟨k,hk⟩ := h.exists_slot
      rw [lookup_eq h.laid hk]
      refine ⟨h.laid,fun slot hslot => ⟨?_,by simp⟩⟩
      cases hslot
      exact hk

/-- What is read is the valid structure's configuration. -/
theorem Holds.readConfig (h : Holds st r current) : readConfig st=current.map config := by
  unfold ConfigStore.readConfig
  cases current with
  | none =>
    rw [h.read_none]
    rfl
  | some c =>
    obtain ⟨k,hk⟩ := h.exists_slot
    rw [h.read hk,Option.map_some,Option.map_some,(h.laid.here k hk c rfl).1]

/-- A reboot keeps the page. -/
theorem Holds.reboot (h : Holds st r current) : Holds (reboot st.page) r current :=
  ⟨h.laid,fun _ hslot => by cases hslot⟩

/-- The pointer found after a reboot is the one found before. -/
theorem Holds.read_reboot (h : Holds st r current) :
    (pdbsConfigFlashRead (ConfigStore.reboot st.page)).1=(pdbsConfigFlashRead st).1 := by
  cases current with
  | none => rw [h.read_none,h.reboot.read_none]
  | some c =>
    obtain ⟨k,hk⟩ := h.exists_slot
    rw [h.read hk,h.reboot.read hk]

/-- A structure with status VALID is the current one. -/
theorem Holds.current_of_valid (h : Holds st r current) {slot : Slot}
    (hv : st.page slot .status=pdbsConfigStatusValid) : current=some (st.page slot) := by
  by_cases hlt : slot.val < r
  · rw [retired_status (h.laid.below slot hlt)] at hv
    exact absurd hv (by decide)
  · by_cases hle : inUse r current ≤ slot.val
    · rw [blank_status (h.laid.above slot hle)] at hv
      exact absurd hv (by decide)
    · cases current with
      | none => exact absurd (Nat.not_lt.mp hlt) hle
      | some c =>
        have hr : slot.val=r := by
          rw [inUse_some] at hle
          omega
        rw [(h.laid.here slot hr c rfl).1]

/-- Reading leaves the page. -/
theorem read_page (st : Store) : (pdbsConfigFlashRead st).2.page=st.page := by
  unfold pdbsConfigFlashRead
  cases st.cur with
  | some slot => rfl
  | none => cases lookup st.page <;> rfl

/-- What reading finds is a valid structure. -/
theorem Holds.read_status (h : Holds st r current) {slot : Slot}
    (hs : (pdbsConfigFlashRead st).1=some slot) : st.page slot .status=pdbsConfigStatusValid := by
  cases current with
  | none =>
    rw [h.read_none] at hs
    cases hs
  | some c =>
    obtain ⟨k,hk⟩ := h.exists_slot
    rw [h.read hk] at hs
    have hlive := h.laid.here k hk c rfl
    rw [← Option.some_inj.mp hs,hlive.1]
    exact live_status hlive.2

end Read

/-! ## One update -/

/-- What holds of the page before and after each of some operations holds
before and after each of more, when it does from where the first ones end. -/
theorem prefix_append (P : Page → Prop) {ops ops' : List FlashOp} {page : Page}
    (h : ∀ k, P (applyAll (ops.take k) page))
    (h' : ∀ k, P (applyAll (ops'.take k) (applyAll ops page))) (k : ℕ) :
    P (applyAll ((ops++ops').take k) page) := by
  rw [List.take_append,applyAll_append]
  by_cases hk : k ≤ ops.length
  · rw [Nat.sub_eq_zero_of_le hk]
    exact h k
  · have hall : ops.take k=ops := List.take_of_length_le (by omega)
    rw [hall]
    exact h' _

/-- The same for no operation or one. -/
theorem prefix_singleton (P : Page → Prop) {op : FlashOp} {page : Page} (h : P page)
    (h' : P (op.apply page)) (k : ℕ) : P (applyAll ([op].take k) page) := by
  cases k with
  | zero => exact h
  | succ k =>
    rw [List.take_of_length_le (by simp)]
    exact h'

/-- The page is a log of structures. -/
def PageLaid (page : Page) : Prop := ∃ r current, Laid entryKinds page r current

/-- The page is a log without a valid structure. -/
def Vacant (page : Page) : Prop := ∃ r, Laid entryKinds page r none

/-- The page is as it was, or has no valid structure. -/
def Cleared (old page : Page) : Prop := page=old ∨ Vacant page

section Update

variable {st : Store} {page : Page} {r : ℕ} {current : Option Entry} {cfg : Entry}

/-- Invalidating the old structure leaves none that is valid. -/
theorem Holds.invalidate (h : Holds st r current) :
    LegalRun (invalidateOps st) st.page ∧
    Laid entryKinds (applyAll (invalidateOps st) st.page) (inUse r current) none ∧
    ∀ k, Cleared st.page (applyAll ((invalidateOps st).take k) st.page) := by
  unfold invalidateOps
  cases current with
  | none =>
    rw [h.read_none]
    exact ⟨trivial,h.laid,fun k => .inl (by rw [List.take_nil]; rfl)⟩
  | some c =>
    obtain ⟨k,hk⟩ := h.exists_slot
    rw [h.read hk]
    have hlegal : (FlashOp.program k .status pdbsConfigStatusInvalid).Legal st.page := .inr rfl
    have hretired : entryKinds.retired
        (Function.update (st.page k) .status pdbsConfigStatusInvalid) := Function.update_self _ _ _
    have hlaid := h.laid.retire hk hretired
    rw [← apply_program hlegal] at hlaid
    exact ⟨⟨hlegal,trivial⟩,hlaid,prefix_singleton (Cleared st.page) (.inl rfl) (.inr ⟨_,hlaid⟩)⟩

/-- Room is found in the first empty structure. -/
theorem roomOps_room (h : Laid entryKinds page r none) (hr : r < pdbsConfigArrayLen) :
    roomOps page=([],⟨r,hr⟩) := by
  have hslot : (⟨r,hr⟩ : Slot).val=inUse r (none : Option Entry) := rfl
  unfold roomOps
  rw [findStatus_empty h hslot]

/-- Room is found in the first empty structure, or made by erasing the page,
which happens exactly when the page is full. -/
theorem roomOps_spec (h : Laid entryKinds page r none) :
    LegalRun (roomOps page).1 page ∧
    Laid entryKinds (applyAll (roomOps page).1 page) (roomOps page).2.val none ∧
    (∀ k, Vacant (applyAll ((roomOps page).1.take k) page)) ∧
    (roomOps page).2.val=r%pdbsConfigArrayLen ∧
    (.erase ∈ (roomOps page).1 ↔ r=pdbsConfigArrayLen) := by
  have hfits := h.fits
  rw [inUse_none] at hfits
  by_cases hr : r=pdbsConfigArrayLen
  · have herase : Laid entryKinds (FlashOp.erase.apply page) 0 none := laid_blank fun _ _ => rfl
    unfold roomOps
    rw [findStatus_empty_none h hr]
    refine ⟨⟨trivial,trivial⟩,herase,prefix_singleton Vacant ⟨r,h⟩ ⟨0,herase⟩,?_,?_⟩
    · rw [hr,Nat.mod_self]
    · simp [hr]
  · have hlt : r < pdbsConfigArrayLen := by omega
    rw [roomOps_room h hlt]
    refine ⟨trivial,h,fun k => ⟨r,by rw [List.take_nil]; exact h⟩,?_,?_⟩
    · rw [Nat.mod_eq_of_lt hlt]
    · simp [hr]

/-- Everything before the new structure is written. -/
theorem Holds.clear (h : Holds st r current) :
    LegalRun (clearingOps st) st.page ∧
    Laid entryKinds (applyAll (clearingOps st) st.page) (updateSlot st).val none ∧
    (∀ k, Cleared st.page (applyAll ((clearingOps st).take k) st.page)) ∧
    (updateSlot st).val=inUse r current%pdbsConfigArrayLen ∧
    (.erase ∈ clearingOps st ↔ inUse r current=pdbsConfigArrayLen) := by
  obtain ⟨hlegal,hlaid,hmid⟩ := h.invalidate
  obtain ⟨hlegal',hlaid',hmid',hslot,herase⟩ := roomOps_spec hlaid
  have hnot : FlashOp.erase ∉ invalidateOps st := by
    unfold invalidateOps
    cases (pdbsConfigFlashRead st).1 <;> simp
  unfold clearingOps
  refine ⟨legalRun_append.mpr ⟨hlegal,hlegal'⟩,?_,?_,hslot,?_⟩
  · rw [applyAll_append]
    exact hlaid'
  · exact prefix_append (Cleared st.page) hmid fun k => .inr (hmid' k)
  · rw [List.mem_append,← herase]
    exact or_iff_right hnot

/-- The slot an update writes is erased by then. -/
theorem Holds.slot_erased (h : Holds st r current) (f : Halfword) :
    applyAll (clearingOps st) st.page (updateSlot st) f=erased := by
  obtain ⟨-,hlaid,-⟩ := h.clear
  exact hlaid.above _ (by rw [inUse_none]) f

/-- The page while the new structure is written. -/
theorem Holds.write (h : Holds st r current) (k : ℕ) :
    LegalRun ((writeOps (updateSlot st) cfg).take k) (applyAll (clearingOps st) st.page) ∧
    applyAll ((writeOps (updateSlot st) cfg).take k) (applyAll (clearingOps st) st.page)=
      Function.update (applyAll (clearingOps st) st.page) (updateSlot st)
        (torn cfg (writeOrder.take k)) := write_erased k h.slot_erased

/-- A structure whose status is written is valid. -/
theorem torn_live {k : ℕ} (hv : cfg .status=pdbsConfigStatusValid) :
    entryKinds.live (torn cfg (writeOrder.take (k+1))) := by
  have hmem : Halfword.status ∈ writeOrder.take (k+1) := by simp [writeOrder]
  change torn cfg _ .status=_
  rw [torn,if_pos hmem]
  exact hv

/-- The layout while the new structure is written. -/
theorem Holds.write_laid (h : Holds st r current) (hv : cfg .status=pdbsConfigStatusValid) (k : ℕ) :
    Laid entryKinds
      (applyAll ((writeOps (updateSlot st) cfg).take (k+1)) (applyAll (clearingOps st) st.page))
      (updateSlot st).val (some (torn cfg (writeOrder.take (k+1)))) := by
  obtain ⟨-,hlaid,-⟩ := h.clear
  rw [(h.write _).2]
  exact hlaid.write rfl (torn_live hv)

/-- Every operation of an update is legal. -/
theorem Holds.update_legal (h : Holds st r current) (cfg : Entry) :
    LegalRun (updateOps cfg st) st.page := by
  obtain ⟨hwrite,-⟩ := h.write (writeOps (updateSlot st) cfg).length
  rw [List.take_length] at hwrite
  exact legalRun_append.mpr ⟨h.clear.1,hwrite⟩

/-- The page is a log before and after every operation of an update. -/
theorem Holds.cut_laid (h : Holds st r current) (hv : cfg .status=pdbsConfigStatusValid) (k : ℕ) :
    PageLaid (cutPage cfg st k) := by
  obtain ⟨-,hlaid,hmid,-,-⟩ := h.clear
  have hclear (j : ℕ) : PageLaid (applyAll ((clearingOps st).take j) st.page) := by
    rcases hmid j with heq | ⟨r',hnone⟩
    · rw [heq]
      exact ⟨r,current,h.laid⟩
    · exact ⟨r',none,hnone⟩
  refine prefix_append PageLaid hclear (fun j => ?_) k
  cases j with
  | zero => exact ⟨_,_,hlaid⟩
  | succ j => exact ⟨_,_,h.write_laid hv j⟩

/-- An update ends with its configuration as the valid structure. -/
theorem Holds.update (h : Holds st r current) (hv : cfg .status=pdbsConfigStatusValid) :
    Holds (pdbsConfigFlashUpdate cfg st) (updateSlot st).val (some (torn cfg writeOrder)) := by
  have hops : (writeOps (updateSlot st) cfg).take (5+1)=writeOps (updateSlot st) cfg :=
    List.take_of_length_le (by simp [writeOps,writeOrder])
  have horder : writeOrder.take (5+1)=writeOrder := List.take_of_length_le (by simp [writeOrder])
  have hlaid := h.write_laid hv 5
  rw [hops,horder] at hlaid
  have hpage : (pdbsConfigFlashUpdate cfg st).page=
      applyAll (writeOps (updateSlot st) cfg) (applyAll (clearingOps st) st.page) :=
    applyAll_append _ _ _
  refine ⟨by rw [hpage]; exact hlaid,fun slot hslot => ⟨?_,by simp⟩⟩
  have hcur : updateSlot st=slot := Option.some_inj.mp hslot
  rw [hcur]

/-- Writing the new structure erases nothing. -/
theorem erase_mem_updateOps : .erase ∈ updateOps cfg st ↔ .erase ∈ clearingOps st := by
  rw [updateOps,List.mem_append]
  have hnot : FlashOp.erase ∉ writeOps (updateSlot st) cfg := by simp [writeOps]
  exact or_iff_left hnot

end Update

/-! ## Runs -/

/-- A structure with status VALID, the only ones the shell writes. -/
abbrev ValidEntry : Type := {cfg : Entry // cfg .status=pdbsConfigStatusValid}

/-- What happens to the store. -/
inductive Operation where
  /-- `pdbs_config_flash_update`. -/
  | update (cfg : ValidEntry)
  /-- `pdbs_config_flash_erase`. -/
  | erase
  /-- `pdbs_config_flash_read`. -/
  | read
  /-- A power cycle between operations. -/
  | powerCycle
  /-- An update of which only so many flash operations happen, and a reboot. -/
  | cutUpdate (cfg : ValidEntry) (done : ℕ)

/-- The store after an operation. -/
def Operation.run (st : Store) : Operation → Store
  | .update cfg => pdbsConfigFlashUpdate cfg.val st
  | .erase => pdbsConfigFlashErase st
  | .read => (pdbsConfigFlashRead st).2
  | .powerCycle => reboot st.page
  | .cutUpdate cfg done => reboot (cutPage cfg.val st done)

/-- The store in use, from an erased page on. -/
def store : Machine Store Operation where
  start := ⟨fun _ _ => erased,none⟩
  step op st := some (op.run st)

/-- No power loss during an update. -/
def whole (_ : Store) (op : Operation) : Prop := ∀ cfg done, op≠.cutUpdate cfg done

theorem holds_start : Holds store.start 0 none :=
  ⟨laid_blank fun _ _ => rfl,fun _ hslot => by cases hslot⟩

theorem holds_erase (st : Store) : Holds (pdbsConfigFlashErase st) 0 none :=
  ⟨laid_blank fun _ _ => rfl,fun _ hslot => by cases hslot⟩

/-- The page is a log in every state, whatever happens. -/
theorem exists_holds {st : Store} (h : store.Reach anyStep st) : ∃ r current, Holds st r current := by
  refine h.invariant (I := fun st => ∃ r current, Holds st r current) ⟨0,none,holds_start⟩ ?_
  intro st op st' _ hst _ hs
  obtain ⟨r,current,hst⟩ := hst
  cases hs
  cases op with
  | update cfg => exact ⟨_,_,hst.update cfg.property⟩
  | erase => exact ⟨_,_,holds_erase st⟩
  | read => exact ⟨_,_,hst.after_read⟩
  | powerCycle => exact ⟨_,_,hst.reboot⟩
  | cutUpdate cfg done =>
    obtain ⟨r',current',hlaid⟩ := hst.cut_laid cfg.property done
    exact ⟨r',current',hlaid,fun _ hslot => by cases hslot⟩

/-! ## The abstract register -/

/-- The structure of the latest update since the last erase. -/
def remember (last : Option Entry) (_ : Store) : Operation → Store → Option Entry
  | .update cfg,_ => some cfg.val
  | .erase,_ => none
  | _,_ => last

/-- A structure with all its halfwords written has the configuration given. -/
theorem config_torn (cfg : Entry) : config (torn cfg writeOrder)=config cfg := by
  rw [config_eq_iff]
  intro f hf
  exact if_pos hf

/-- What is read is the register, and the pointer, cached or not, is the one a
search finds, with the early exit or without. -/
theorem refines_register {p : Store × Option Entry}
    (h : (store.observe none remember).Reach (fun p op => whole p.1 op) p) :
    readConfig p.1=p.2.map config ∧
    (pdbsConfigFlashRead p.1).1=(pdbsConfigFlashRead (reboot p.1.page)).1 ∧
    (pdbsConfigFlashRead p.1).1=findStatus pdbsConfigStatusValid p.1.page := by
  have hinv : ∃ r current, Holds p.1 r current ∧ current.map config=p.2.map config := by
    refine h.observed_invariant (I := fun st last => ∃ r current, Holds st r current ∧
      current.map config=last.map config) ⟨0,none,holds_start,rfl⟩ ?_
    intro st last op st' _ hp hwhole hs
    obtain ⟨r,current,hp,hreg⟩ := hp
    rw [← Option.some_inj.mp hs]
    cases op with
    | update cfg =>
      refine ⟨_,_,hp.update cfg.property,?_⟩
      exact congrArg some (config_torn cfg.val)
    | erase => exact ⟨_,_,holds_erase st,rfl⟩
    | read => exact ⟨_,_,hp.after_read,hreg⟩
    | powerCycle => exact ⟨_,_,hp.reboot,hreg⟩
    | cutUpdate cfg done => exact absurd rfl (hwhole cfg done)
  obtain ⟨r,current,hp,hreg⟩ := hinv
  refine ⟨hp.readConfig.trans hreg,hp.read_reboot.symm,?_⟩
  cases current with
  | none => rw [hp.read_none,findStatus_valid_none hp.laid]
  | some c =>
    obtain ⟨k,hk⟩ := hp.exists_slot
    rw [hp.read hk,findStatus_valid hp.laid hk]

/-- A valid structure that asks for 9 V. -/
def nineVolts : ValidEntry :=
  ⟨fun f => if f=.status then pdbsConfigStatusValid else if f=.v then 9000 else 0,rfl⟩

/-- A configuration is read back after an update and a power cycle. -/
theorem refines_register_powerCycle : ∃ p : Store × Option Entry,
    (store.observe none remember).Reach (fun p op => whole p.1 op) p ∧ p.1.cur=none ∧
      readConfig p.1=some (config nineVolts.val) := by
  let st := pdbsConfigFlashUpdate nineVolts.val store.start
  have hupdate : (store.observe none remember).Reach (fun p op => whole p.1 op)
      (st,some nineVolts.val) := .step (l := .update nineVolts) .start (fun _ _ h => by cases h) rfl
  have hcycle : (store.observe none remember).Reach (fun p op => whole p.1 op)
      (reboot st.page,some nineVolts.val) :=
    .step (l := .powerCycle) hupdate (fun _ _ h => by cases h) rfl
  exact ⟨_,hcycle,rfl,(refines_register hcycle).1⟩

/-! ## Slots and programs -/

/-- Updates since the page was last erased, by an update or otherwise. -/
def countUpdates (used : ℕ) (st : Store) : Operation → Store → ℕ
  | .update cfg,_ => if .erase ∈ updateOps cfg.val st then 1 else used+1
  | .erase,_ => 0
  | _,_ => used

/-- Every update programs legally and keeps the page a log throughout. It
writes the slots in turn, and erases the page when all of them are used. -/
theorem slots_in_order {p : Store × ℕ}
    (h : (store.observe 0 countUpdates).Reach (fun p op => whole p.1 op) p) (cfg : ValidEntry) :
    LegalRun (updateOps cfg.val p.1) p.1.page ∧
    (∀ done, PageLaid (cutPage cfg.val p.1 done)) ∧
    (updateSlot p.1).val=p.2%pdbsConfigArrayLen ∧
    (.erase ∈ updateOps cfg.val p.1 ↔ p.2=pdbsConfigArrayLen) := by
  have hinv : ∃ r current, Holds p.1 r current ∧ inUse r current=p.2 := by
    refine h.observed_invariant (I := fun st used => ∃ r current, Holds st r current ∧
      inUse r current=used) ⟨0,none,holds_start,rfl⟩ ?_
    intro st used op st' _ hp hwhole hs
    obtain ⟨r,current,hp,hused⟩ := hp
    rw [← Option.some_inj.mp hs]
    cases op with
    | update cfg =>
      obtain ⟨-,-,-,hslot,herase⟩ := hp.clear
      refine ⟨_,_,hp.update cfg.property,?_⟩
      rw [inUse_some,hslot,hused]
      simp only [countUpdates,erase_mem_updateOps,herase,hused]
      have hfits := hp.laid.fits
      split
      · next hfull => rw [hfull,Nat.mod_self]
      · next hroom => rw [Nat.mod_eq_of_lt (by omega)]
    | erase => exact ⟨_,_,holds_erase st,rfl⟩
    | read => exact ⟨_,_,hp.after_read,hused⟩
    | powerCycle => exact ⟨_,_,hp.reboot,hused⟩
    | cutUpdate cfg done => exact absurd rfl (hwhole cfg done)
  obtain ⟨r,current,hp,hused⟩ := hinv
  obtain ⟨-,-,-,hslot,herase⟩ := hp.clear
  rw [hused] at hslot herase
  exact ⟨hp.update_legal cfg.val,hp.cut_laid cfg.property,hslot,erase_mem_updateOps.trans herase⟩

/-- The update after an erase and another update writes slot 1. -/
theorem slots_in_order_second :
    (updateSlot (pdbsConfigFlashUpdate nineVolts.val (pdbsConfigFlashErase store.start))).val=1 := by
  let st := pdbsConfigFlashErase store.start
  have herase : (store.observe 0 countUpdates).Reach (fun p op => whole p.1 op) (st,0) :=
    .step (l := .erase) .start (fun _ _ h => by cases h) rfl
  have hcount : countUpdates 0 st (.update nineVolts) st=1 := by simp [countUpdates]
  have hupdate : (store.observe 0 countUpdates).Reach (fun p op => whole p.1 op)
      (pdbsConfigFlashUpdate nineVolts.val st,countUpdates 0 st (.update nineVolts) st) :=
    .step (l := .update nineVolts) herase (fun _ _ h => by cases h) rfl
  obtain ⟨-,-,hslot,-⟩ := slots_in_order hupdate nineVolts
  rw [hcount] at hslot
  exact hslot

end UsbPdFirmware.ConfigStoreRuns
