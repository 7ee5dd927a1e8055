import UsbPdFirmware.ConfigStoreRuns

/-!
# Power loss during an update

An update writes the status of the new structure first, so the structure is
valid before its configuration is there. What is read after a power loss is
nothing, the old configuration, or a structure of which some halfwords are
written and the others still erased.
-/

namespace UsbPdFirmware.PowerLoss

open DevicePolicy ConfigStore ConfigStoreRuns SlotLog LabelledRuns Machine

attribute [local irreducible] findStatus

/-- The structure of the present configuration. -/
def oldEntry (st : Store) : Option Entry := (pdbsConfigFlashRead st).1.map st.page

/-- The first configuration read after a power loss cuts an update short. -/
def readAfterCut (cfg : Entry) (st : Store) (done : ℕ) : Option PdbsConfig :=
  readConfig (reboot (cutPage cfg st done))

/-- The halfwords of the new structure that are written by then. -/
def written (st : Store) (done : ℕ) : List Halfword :=
  writeOrder.take (done-(clearingOps st).length)

/-- The power is lost before the new structure is begun; or the halfwords of
it that are missing are to be erased ones; or the old configuration is the one
that has the halfwords written and erased ones for the others. -/
def CutClean (cfg : Entry) (st : Store) (done : ℕ) : Prop :=
  done ≤ (clearingOps st).length ∨
  (∀ f ∈ writeOrder, f ∉ written st done → cfg f=erased) ∨
  ∃ old, oldEntry st=some old ∧
    ∀ f ∈ writeOrder, old f=if f ∈ written st done then cfg f else erased

section Cut

variable {st : Store} {r : ℕ} {current : Option Entry} {cfg : Entry} {done : ℕ}

theorem readConfig_oldEntry (st : Store) : readConfig st=(oldEntry st).map config := by
  rw [readConfig,oldEntry,Option.map_map]
  rfl

/-- Without a valid structure on the page nothing is read. -/
theorem readConfig_vacant {page : Page} (h : Vacant page) : readConfig (reboot page)=none := by
  obtain ⟨r,hlaid⟩ := h
  have hholds : Holds (reboot page) r none := ⟨hlaid,fun _ hslot => by cases hslot⟩
  exact hholds.readConfig

/-- Before the new structure is begun, nothing or the old configuration is read. -/
theorem read_early (h : Holds st r current) (hd : done ≤ (clearingOps st).length) :
    readAfterCut cfg st done=none ∨ readAfterCut cfg st done=readConfig st := by
  obtain ⟨-,-,hmid,-,-⟩ := h.clear
  have hpage : cutPage cfg st done=applyAll ((clearingOps st).take done) st.page := by
    rw [cutPage,updateOps,List.take_append_of_le_length hd]
  rw [readAfterCut,hpage]
  rcases hmid done with hsame | hnone
  · rw [hsame,h.reboot.readConfig,h.readConfig]
    exact .inr rfl
  · exact .inl (readConfig_vacant hnone)

/-- From then on the torn structure is read. -/
theorem read_late (h : Holds st r current) (hv : cfg .status=pdbsConfigStatusValid)
    (hd : (clearingOps st).length < done) :
    readAfterCut cfg st done=some (config (torn cfg (written st done))) := by
  have hpage : cutPage cfg st done=applyAll
      ((writeOps (updateSlot st) cfg).take (done-(clearingOps st).length))
      (applyAll (clearingOps st) st.page) := by
    rw [cutPage,updateOps,List.take_append,List.take_of_length_le hd.le,applyAll_append]
  obtain ⟨k,hk⟩ : ∃ k, done-(clearingOps st).length=k+1 :=
    Nat.exists_eq_succ_of_ne_zero (by omega)
  have hlaid := h.write_laid hv k
  rw [← hk,← hpage] at hlaid
  have hholds : Holds (reboot (cutPage cfg st done)) (updateSlot st).val
      (some (torn cfg (written st done))) := ⟨hlaid,fun _ hslot => by cases hslot⟩
  exact hholds.readConfig

/-- A torn structure has the whole configuration when the rest is erased. -/
theorem config_torn_iff (fs : List Halfword) :
    config (torn cfg fs)=config cfg ↔ ∀ f ∈ writeOrder, f ∉ fs → cfg f=erased := by
  rw [config_eq_iff]
  refine forall₂_congr fun f _ => ?_
  by_cases hf : f ∈ fs <;> simp [torn,hf,eq_comm]

/-- The old configuration is the torn one. -/
theorem config_old_iff (fs : List Halfword) :
    some (config (torn cfg fs))=readConfig st ↔
      ∃ old, oldEntry st=some old ∧ ∀ f ∈ writeOrder, old f=if f ∈ fs then cfg f else erased := by
  rw [readConfig_oldEntry,eq_comm,Option.map_eq_some_iff]
  refine exists_congr fun old => and_congr_right fun _ => ?_
  rw [config_eq_iff]
  rfl

end Cut

/-- What is read after the power loss is nothing, the old configuration or the
new one exactly when the cut is clean. -/
theorem readAfterCut_iff {st : Store} (h : store.Reach anyStep st) (cfg : ValidEntry) (done : ℕ) :
    (readAfterCut cfg.val st done=none ∨ readAfterCut cfg.val st done=readConfig st ∨
      readAfterCut cfg.val st done=some (config cfg.val)) ↔ CutClean cfg.val st done := by
  obtain ⟨r,current,hst⟩ := exists_holds h
  by_cases hd : done ≤ (clearingOps st).length
  · refine iff_of_true ?_ (.inl hd)
    rcases read_early hst hd with hnone | hold
    · exact .inl hnone
    · exact .inr (.inl hold)
  · rw [read_late hst cfg.property (by omega),config_old_iff,Option.some_inj,config_torn_iff]
    constructor
    · rintro (hnone | hold | hnew)
      · cases hnone
      · exact .inr (.inr hold)
      · exact .inr (.inl hnew)
    · rintro (hle | hnew | hold)
      · exact absurd hle hd
      · exact .inr (.inr hnew)
      · exact .inr (.inl hold)

/-- With room and no old structure the new one is begun at once. -/
theorem clearingOps_room {st : Store} {r : ℕ} (h : Holds st r none)
    (hr : r < pdbsConfigArrayLen) : clearingOps st=[] := by
  have hinvalidate : invalidateOps st=[] := by
    rw [invalidateOps,h.read_none]
  unfold clearingOps
  rw [hinvalidate,applyAll_nil,roomOps_room h.laid hr,List.append_nil]

theorem clearingOps_start : clearingOps store.start=[] :=
  clearingOps_room holds_start (by decide)

/-- All the halfwords are written, or all but the last. -/
theorem written_start (done : ℕ) : written store.start done=writeOrder.take done := by
  rw [written,clearingOps_start,List.length_nil,Nat.sub_zero]

/-- The second update is cut when the structure of the first has been
invalidated. -/
theorem readAfterCut_iff_invalidated : ∃ st, store.Reach anyStep st ∧
    1 < (updateOps nineVolts.val st).length ∧ CutClean nineVolts.val st 1 ∧
    (readAfterCut nineVolts.val st 1=none ∨ readAfterCut nineVolts.val st 1=readConfig st ∨
      readAfterCut nineVolts.val st 1=some (config nineVolts.val)) := by
  have hreach : store.Reach anyStep (pdbsConfigFlashUpdate nineVolts.val store.start) :=
    .step (l := .update nineVolts) .start trivial rfl
  have hclean : CutClean nineVolts.val (pdbsConfigFlashUpdate nineVolts.val store.start) 1 :=
    .inl (by decide +kernel)
  refine ⟨_,hreach,?_,hclean,(readAfterCut_iff hreach nineVolts 1).mpr hclean⟩
  decide +kernel

/-- Power is lost on an erased page before the last of the six halfwords is
written: the structure read has an upper end of the range of 65535 mV. -/
theorem torn_vmax :
    ¬ ∀ st, store.Reach anyStep st → ∀ (cfg : ValidEntry) done,
      readAfterCut cfg.val st done=none ∨ readAfterCut cfg.val st done=readConfig st ∨
        readAfterCut cfg.val st done=some (config cfg.val) := by
  intro h
  have hbegun : (clearingOps store.start).length < 5 := by
    rw [clearingOps_start]
    decide
  have hread := read_late holds_start nineVolts.property hbegun
  rcases h store.start .start nineVolts 5 with hnone | hold | hnew
  · rw [hread] at hnone
    cases hnone
  · rw [hread,holds_start.readConfig] at hold
    cases hold
  · rw [hread,Option.some_inj,config_torn_iff,written_start] at hnew
    have hvmax := hnew .vmax (by decide) (by decide)
    exact absurd hvmax (by decide)

end UsbPdFirmware.PowerLoss
