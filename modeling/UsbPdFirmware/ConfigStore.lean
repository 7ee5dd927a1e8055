import UsbPdFirmware.DevicePolicy

/-!
# The configuration page in flash

The store of `config.c`: one flash page of configuration structures and the
cached pointer to the present one. Updating issues a sequence of page erases
and halfword programs, which is what a power loss can cut short. The
controller refuses to program a halfword that is not erased, except with zero.
-/

namespace UsbPdFirmware.ConfigStore

open DevicePolicy

/-! ## Configuration structures in memory -/

/-- The halfwords of `struct pdbs_config`; `i` stands for the union. -/
inductive Halfword where
  | status
  | flags
  | v
  | i
  | vmin
  | vmax
  | reserved0
  | reserved1
  deriving DecidableEq

/-- A configuration structure in memory. -/
abbrev Entry : Type := Halfword → BitVec 16

/-- Contents of an erased halfword. -/
def erased : BitVec 16 := 0xFFFF

/-- The configuration a structure holds. -/
def config (e : Entry) : PdbsConfig :=
  ⟨e .status,e .flags,(e .v).toNat,(e .i).toNat,(e .vmin).toNat,(e .vmax).toNat⟩

/-- The halfwords an update writes, in its order. -/
def writeOrder : List Halfword := [.status,.flags,.v,.i,.vmin,.vmax]

/-- Structures hold the same configuration when they agree on those. -/
theorem config_eq_iff {e e' : Entry} : config e=config e' ↔ ∀ f ∈ writeOrder, e f=e' f := by
  simp [config,writeOrder,BitVec.toNat_inj]

/-! ## Flash operations -/

/-- Number of structures on the page. -/
def pdbsConfigArrayLen : ℕ := 128

/-- Index of a structure on the page. -/
abbrev Slot : Type := Fin pdbsConfigArrayLen

/-- The page, `pdbs_config_array`. -/
abbrev Page : Type := Slot → Entry

/-- What the flash controller does in one go. -/
inductive FlashOp where
  /-- `flash_erase`. -/
  | erase
  /-- `flash_write_halfword`. -/
  | program (slot : Slot) (field : Halfword) (data : BitVec 16)
  deriving DecidableEq

/-- A halfword can be programmed while it is erased, or with zero. -/
def FlashOp.Legal (page : Page) : FlashOp → Prop
  | .erase => True
  | .program slot field data => page slot field=erased ∨ data=0

instance (page : Page) (op : FlashOp) : Decidable (op.Legal page) := by
  cases op with
  | erase => exact isTrue trivial
  | program slot field data => exact inferInstanceAs (Decidable (_ ∨ _))

/-- The page after an operation. The controller refuses what is not legal. -/
def FlashOp.apply (page : Page) (op : FlashOp) : Page :=
  if op.Legal page then
    match op with
    | .erase => fun _ _ => erased
    | .program slot field data =>
      Function.update page slot (Function.update (page slot) field data)
  else page

/-- The page after a sequence of operations. -/
def applyAll (ops : List FlashOp) (page : Page) : Page := ops.foldl FlashOp.apply page

/-! ## The store -/

/-- The page and the cached pointer. -/
structure Store where
  /-- The page. -/
  page : Page
  /-- `config_cur`. -/
  cur : Option Slot

/-- A structure has a status. -/
def hasStatus (status : BitVec 16) (e : Entry) : Bool := e .status==status

/-- The first structure with a status, as the loops of the source find it. -/
def findStatus (status : BitVec 16) (page : Page) : Option Slot :=
  Fin.find? fun k => hasStatus status (page k)

/-- The full lookup, which gives up when the first structure is empty. -/
def lookup (page : Page) : Option Slot :=
  if page ⟨0,by decide⟩ .status=pdbsConfigStatusEmpty then none
  else findStatus pdbsConfigStatusValid page

/-- `pdbs_config_flash_read`: the pointer it returns, and the cache. -/
def pdbsConfigFlashRead (st : Store) : Option Slot × Store :=
  match st.cur with
  | some slot => (some slot,st)
  | none =>
    match lookup st.page with
    | some slot => (some slot,{st with cur := some slot})
    | none => (none,st)

/-- What is found behind that pointer. -/
def readConfig (st : Store) : Option PdbsConfig :=
  (pdbsConfigFlashRead st).1.map fun slot => config (st.page slot)

/-- `pdbs_config_flash_erase`. -/
def pdbsConfigFlashErase (st : Store) : Store := ⟨FlashOp.erase.apply st.page,none⟩

/-- Write a configuration to an empty structure. -/
def writeOps (slot : Slot) (cfg : Entry) : List FlashOp :=
  writeOrder.map fun f => .program slot f (cfg f)

/-- Invalidate the old structure, if there is one. -/
def invalidateOps (st : Store) : List FlashOp :=
  match (pdbsConfigFlashRead st).1 with
  | some old => [.program old .status pdbsConfigStatusInvalid]
  | none => []

/-- Find room for a new structure: the first empty one, else the first one of
the page, which is erased for it. -/
def roomOps (page : Page) : List FlashOp × Slot :=
  match findStatus pdbsConfigStatusEmpty page with
  | some empty => ([],empty)
  | none => ([.erase],⟨0,by decide⟩)

/-- Where an update writes. -/
def updateSlot (st : Store) : Slot := (roomOps (applyAll (invalidateOps st) st.page)).2

/-- The operations before the new structure is written. -/
def clearingOps (st : Store) : List FlashOp :=
  invalidateOps st++(roomOps (applyAll (invalidateOps st) st.page)).1

/-- The operations an update issues, in their order. -/
def updateOps (cfg : Entry) (st : Store) : List FlashOp :=
  clearingOps st++writeOps (updateSlot st) cfg

/-- `pdbs_config_flash_update`. -/
def pdbsConfigFlashUpdate (cfg : Entry) (st : Store) : Store :=
  ⟨applyAll (updateOps cfg st) st.page,some (updateSlot st)⟩

/-- The page left behind by an update that a power loss cuts short. -/
def cutPage (cfg : Entry) (st : Store) (done : ℕ) : Page :=
  applyAll ((updateOps cfg st).take done) st.page

/-- The reboot after a power loss: the page is kept, the cache is not. -/
def reboot (page : Page) : Store := ⟨page,none⟩

/-! ## Writing a structure -/

@[simp] theorem applyAll_nil (page : Page) : applyAll [] page=page := rfl

@[simp] theorem applyAll_cons (op : FlashOp) (ops : List FlashOp) (page : Page) :
    applyAll (op::ops) page=applyAll ops (op.apply page) := rfl

theorem applyAll_append (ops ops' : List FlashOp) (page : Page) :
    applyAll (ops++ops') page=applyAll ops' (applyAll ops page) := List.foldl_append

@[simp] theorem apply_erase (page : Page) : FlashOp.erase.apply page=fun _ _ => erased := rfl

theorem apply_program {page : Page} {slot : Slot} {f : Halfword} {data : BitVec 16}
    (h : (FlashOp.program slot f data).Legal page) :
    (FlashOp.program slot f data).apply page=
      Function.update page slot (Function.update (page slot) f data) := if_pos h

/-- Every operation of a sequence is legal where its turn comes. -/
def LegalRun : List FlashOp → Page → Prop
  | [],_ => True
  | op::ops,page => op.Legal page ∧ LegalRun ops (op.apply page)

theorem legalRun_append {ops ops' : List FlashOp} {page : Page} :
    LegalRun (ops++ops') page ↔ LegalRun ops page ∧ LegalRun ops' (applyAll ops page) := by
  induction ops generalizing page with
  | nil => simp [LegalRun]
  | cons op ops ih => simp [LegalRun,ih,and_assoc]

/-- A structure of which some halfwords are written and the others erased. -/
def torn (cfg : Entry) (written : List Halfword) : Entry :=
  fun f => if f ∈ written then cfg f else erased

/-- Programming distinct halfwords of a structure, each erased before, sets
them and nothing else; all the programs are legal. -/
theorem program_fields {fs : List Halfword} (hn : fs.Nodup) (slot : Slot) (cfg : Entry) {page : Page}
    (he : ∀ f ∈ fs, page slot f=erased) :
    LegalRun (fs.map fun f => .program slot f (cfg f)) page ∧
    applyAll (fs.map fun f => .program slot f (cfg f)) page=
      Function.update page slot fun f => if f ∈ fs then cfg f else page slot f := by
  induction fs generalizing page with
  | nil => exact ⟨trivial,by simp⟩
  | cons g gs ih =>
    obtain ⟨hg,hn⟩ := List.nodup_cons.mp hn
    have hlegal : (FlashOp.program slot g (cfg g)).Legal page := .inl (he g List.mem_cons_self)
    have hstep := apply_program hlegal
    have hrest : ∀ f ∈ gs, (FlashOp.program slot g (cfg g)).apply page slot f=erased := by
      intro f hf
      have hne : f≠g := fun h => hg (h ▸ hf)
      rw [hstep,Function.update_self,Function.update_of_ne hne]
      exact he f (List.mem_cons_of_mem g hf)
    obtain ⟨hrun,hall⟩ := ih hn hrest
    refine ⟨⟨hlegal,hrun⟩,?_⟩
    rw [List.map_cons,applyAll_cons,hall,hstep,Function.update_self,Function.update_idem]
    congr 1
    funext f
    by_cases hf : f=g
    · rw [hf]
      simp [hg]
    · simp [hf]

/-- Part of a new structure is written to an erased one. -/
theorem write_erased {slot : Slot} {cfg : Entry} {page : Page} (k : ℕ)
    (he : ∀ f, page slot f=erased) :
    LegalRun ((writeOps slot cfg).take k) page ∧
    applyAll ((writeOps slot cfg).take k) page=
      Function.update page slot (torn cfg (writeOrder.take k)) := by
  have hn : (writeOrder.take k).Nodup := (List.take_sublist k writeOrder).nodup (by decide)
  have herased : ∀ f ∈ writeOrder.take k, page slot f=erased := fun f _ => he f
  have hfields := program_fields hn slot cfg herased
  rw [writeOps,← List.map_take]
  refine ⟨hfields.1,hfields.2.trans ?_⟩
  congr 1
  funext f
  rw [torn,he f]

end UsbPdFirmware.ConfigStore
