import UsbPdFirmware.ConfigStoreRuns

/-!
# Wear of the configuration page

How often the page is erased and its halfwords programmed, in any run of the
store, power losses during updates included. An update that finds the page full
pays for its erase with the 128 updates that filled it.
-/

namespace UsbPdFirmware.FlashWear

open DevicePolicy ConfigStore ConfigStoreRuns SlotLog LabelledRuns Machine

/-! ## Counting -/

/-- What the flash has been through. -/
structure Wear where
  /-- Updates begun, whether or not the power lasted. -/
  updates : ℕ
  /-- Erases that updates made for room. -/
  evictions : ℕ
  /-- Programs of each halfword since the page was last erased. -/
  programs : Slot → Halfword → ℕ

/-- A halfword is programmed once more. -/
def count (programs : Slot → Halfword → ℕ) (slot : Slot) (f : Halfword) : Slot → Halfword → ℕ :=
  Function.update programs slot (Function.update (programs slot) f (programs slot f+1))

/-- One flash operation of an update. -/
def Wear.operate (w : Wear) : FlashOp → Wear
  | .erase => {w with evictions := w.evictions+1,programs := fun _ _ => 0}
  | .program slot f _ => {w with programs := count w.programs slot f}

/-- A sequence of them. -/
def Wear.operateAll (ops : List FlashOp) (w : Wear) : Wear := ops.foldl Wear.operate w

@[simp] theorem operateAll_nil (w : Wear) : w.operateAll []=w := rfl

@[simp] theorem operateAll_cons (op : FlashOp) (ops : List FlashOp) (w : Wear) :
    w.operateAll (op::ops)=(w.operate op).operateAll ops := rfl

theorem operateAll_append (ops ops' : List FlashOp) (w : Wear) :
    w.operateAll (ops++ops')=(w.operateAll ops).operateAll ops' := List.foldl_append

/-- What is recorded beside the store. -/
def recordWear (w : Wear) (st : Store) : Operation → Store → Wear
  | .update cfg,_ => {w.operateAll (updateOps cfg.val st) with updates := w.updates+1}
  | .cutUpdate cfg done,_ =>
    {w.operateAll ((updateOps cfg.val st).take done) with updates := w.updates+1}
  | .erase,_ => {w with programs := fun _ _ => 0}
  | .read,_ => w
  | .powerCycle,_ => w

/-- A new flash. -/
def unworn : Wear := ⟨0,0,fun _ _ => 0⟩

/-- Programming distinct halfwords of a structure counts each of them once. -/
theorem operateAll_fields {fs : List Halfword} (hn : fs.Nodup) (slot : Slot) (cfg : Entry) (w : Wear) :
    (w.operateAll (fs.map fun f => .program slot f (cfg f))).evictions=w.evictions ∧
    (w.operateAll (fs.map fun f => .program slot f (cfg f))).programs=
      Function.update w.programs slot fun f => w.programs slot f+if f ∈ fs then 1 else 0 := by
  induction fs generalizing w with
  | nil => exact ⟨rfl,by simp⟩
  | cons g gs ih =>
    obtain ⟨hg,hn⟩ := List.nodup_cons.mp hn
    obtain ⟨hevictions,hprograms⟩ := ih hn (w.operate (.program slot g (cfg g)))
    refine ⟨hevictions,?_⟩
    have hstep : (w.operate (.program slot g (cfg g))).programs=count w.programs slot g := rfl
    rw [List.map_cons,operateAll_cons,hprograms,hstep,count,Function.update_idem,Function.update_self]
    congr 1
    funext f
    by_cases hf : f=g
    · rw [hf,Function.update_self,if_neg hg,if_pos List.mem_cons_self]
    · rw [Function.update_of_ne hf]
      simp [hf]

/-! ## What the contents say about the wear -/

/-- How often a halfword may be programmed between two erases. -/
def limit (f : Halfword) : ℕ := if f=.status then 2 else 1

theorem one_le_limit (f : Halfword) : 1 ≤ limit f := by
  unfold limit
  split <;> decide

/-- Blank structures have not been programmed, and a valid one at most once. -/
structure Worn (page : Page) (programs : Slot → Halfword → ℕ) : Prop where
  /-- Blank ones. -/
  blank : ∀ slot, entryKinds.blank (page slot) → ∀ f, programs slot f=0
  /-- Valid ones. -/
  live : ∀ slot, entryKinds.live (page slot) → ∀ f, programs slot f ≤ 1
  /-- All of them. -/
  limited : ∀ slot f, programs slot f ≤ limit f

theorem worn_erased (page : Page) : Worn page fun _ _ => 0 :=
  ⟨fun _ _ _ => rfl,fun _ _ _ => Nat.zero_le _,fun _ _ => Nat.zero_le _⟩

section Worn

variable {page : Page} {w : Wear} {slot : Slot}

/-- A structure changes together with its counts. -/
theorem Worn.update {programs : Slot → Halfword → ℕ} (h : Worn page programs) {e : Entry}
    {counts : Halfword → ℕ} (hblank : ¬entryKinds.blank e)
    (hlive : entryKinds.live e → ∀ f, counts f ≤ 1) (hlimit : ∀ f, counts f ≤ limit f) :
    Worn (Function.update page slot e) (Function.update programs slot counts) where
  blank s hs f := by
    by_cases hslot : s=slot
    · rw [hslot,Function.update_self] at hs
      exact absurd hs hblank
    · rw [Function.update_of_ne hslot] at hs ⊢
      exact h.blank s hs f
  live s hs f := by
    by_cases hslot : s=slot
    · rw [hslot,Function.update_self] at hs ⊢
      exact hlive hs f
    · rw [Function.update_of_ne hslot] at hs ⊢
      exact h.live s hs f
  limited s f := by
    by_cases hslot : s=slot
    · rw [hslot,Function.update_self]
      exact hlimit f
    · rw [Function.update_of_ne hslot]
      exact h.limited s f

/-- The valid structure is invalidated. -/
theorem Worn.retire (h : Worn page w.programs) (hlive : entryKinds.live (page slot)) :
    Worn ((FlashOp.program slot .status pdbsConfigStatusInvalid).apply page)
      (w.operate (.program slot .status pdbsConfigStatusInvalid)).programs := by
  have hlegal : (FlashOp.program slot .status pdbsConfigStatusInvalid).Legal page := .inr rfl
  have hone := h.live slot hlive
  have hstep : (w.operate (.program slot .status pdbsConfigStatusInvalid)).programs=
      count w.programs slot .status := rfl
  rw [apply_program hlegal,hstep,count]
  refine h.update ?_ ?_ fun f => ?_
  · intro hblank
    have hstatus := hblank .status
    rw [Function.update_self] at hstatus
    exact absurd hstatus (by decide)
  · intro hvalid
    have hstatus : _=pdbsConfigStatusValid := live_status hvalid
    rw [Function.update_self] at hstatus
    exact absurd hstatus (by decide)
  · by_cases hf : f=.status
    · rw [hf,Function.update_self]
      exact Nat.succ_le_succ (hone .status)
    · rw [Function.update_of_ne hf]
      exact h.limited slot f

/-- A blank structure is written, or part of it. -/
theorem Worn.write (h : Worn page w.programs) {cfg : Entry} (hv : cfg .status=pdbsConfigStatusValid)
    (hblank : entryKinds.blank (page slot)) (k : ℕ) :
    Worn (applyAll ((writeOps slot cfg).take (k+1)) page)
      (w.operateAll ((writeOps slot cfg).take (k+1))).programs := by
  have hn : (writeOrder.take (k+1)).Nodup := (List.take_sublist _ writeOrder).nodup (by decide)
  obtain ⟨-,hcounts⟩ := operateAll_fields hn slot cfg w
  rw [(write_erased _ hblank).2,writeOps,← List.map_take,hcounts]
  have hone (f : Halfword) :
      w.programs slot f+(if f ∈ writeOrder.take (k+1) then 1 else 0) ≤ 1 := by
    rw [h.blank slot hblank f]
    split <;> omega
  refine h.update ?_ (fun _ => hone) fun f => (hone f).trans (one_le_limit f)
  intro hb
  have hstatus := (live_status (torn_live (k := k) hv)).symm.trans (blank_status hb)
  exact absurd hstatus (by decide)

end Worn

/-! ## One update -/

/-- The wear is paid for by so many updates: every erase by the updates that
filled the page, and every slot in use by another one. -/
def Paid (n : ℕ) (page : Page) (w : Wear) : Prop :=
  ∃ r current, Laid entryKinds page r current ∧
    pdbsConfigArrayLen*w.evictions+inUse r current ≤ n ∧ Worn page w.programs

theorem Paid.mono {n m : ℕ} {page : Page} {w : Wear} (h : Paid n page w) (hle : n ≤ m) :
    Paid m page w := by
  obtain ⟨r,current,hlaid,hpaid,hworn⟩ := h
  exact ⟨r,current,hlaid,hpaid.trans hle,hworn⟩

/-- What holds before and after each of some operations, and of more of them
from there on, holds throughout. -/
theorem throughout_append (P : Page → Wear → Prop) {ops ops' : List FlashOp} {page : Page} {w : Wear}
    (h : ∀ k, P (applyAll (ops.take k) page) (w.operateAll (ops.take k)))
    (h' : ∀ k, P (applyAll (ops'.take k) (applyAll ops page))
      ((w.operateAll ops).operateAll (ops'.take k))) (k : ℕ) :
    P (applyAll ((ops++ops').take k) page) (w.operateAll ((ops++ops').take k)) := by
  rw [List.take_append,applyAll_append,operateAll_append]
  by_cases hk : k ≤ ops.length
  · rw [Nat.sub_eq_zero_of_le hk]
    exact h k
  · have hall : ops.take k=ops := List.take_of_length_le (by omega)
    rw [hall]
    exact h' _

/-- The same for a single operation. -/
theorem throughout_singleton (P : Page → Wear → Prop) {op : FlashOp} {page : Page} {w : Wear}
    (h : P page w) (h' : P (op.apply page) (w.operate op)) (k : ℕ) :
    P (applyAll ([op].take k) page) (w.operateAll ([op].take k)) := by
  cases k with
  | zero => exact h
  | succ k =>
    rw [List.take_of_length_le (by simp)]
    exact h'

section Update

variable {st : Store} {page : Page} {w : Wear} {r n : ℕ} {current : Option Entry} {cfg : Entry}

/-- Invalidating the old structure. -/
theorem invalidate_paid (h : Holds st r current)
    (hpaid : pdbsConfigArrayLen*w.evictions+inUse r current ≤ n) (hworn : Worn st.page w.programs) :
    (∀ k, Paid n (applyAll ((invalidateOps st).take k) st.page)
      (w.operateAll ((invalidateOps st).take k))) ∧
    (w.operateAll (invalidateOps st)).evictions=w.evictions ∧
    Worn (applyAll (invalidateOps st) st.page) (w.operateAll (invalidateOps st)).programs := by
  have hbefore : Paid n st.page w := ⟨r,current,h.laid,hpaid,hworn⟩
  obtain ⟨-,hlaid,-⟩ := h.invalidate
  unfold invalidateOps at hlaid ⊢
  cases current with
  | none =>
    rw [h.read_none]
    refine ⟨fun k => ?_,rfl,hworn⟩
    rw [List.take_nil]
    exact hbefore
  | some c =>
    obtain ⟨k,hk⟩ := h.exists_slot
    rw [h.read hk] at hlaid ⊢
    have hlive := h.laid.here k hk c rfl
    have hvalid : entryKinds.live (st.page k) := by
      rw [hlive.1]
      exact hlive.2
    have hretired := hworn.retire hvalid
    refine ⟨throughout_singleton (Paid n) hbefore ⟨_,none,hlaid,?_,hretired⟩,rfl,hretired⟩
    exact hpaid

/-- Making room. A page that is full has been paid for. -/
theorem room_paid (h : Laid entryKinds page r none)
    (hpaid : pdbsConfigArrayLen*w.evictions+r ≤ n) (hworn : Worn page w.programs) :
    (∀ k, Paid n (applyAll ((roomOps page).1.take k) page) (w.operateAll ((roomOps page).1.take k))) ∧
    pdbsConfigArrayLen*(w.operateAll (roomOps page).1).evictions+(roomOps page).2.val ≤ n ∧
    Worn (applyAll (roomOps page).1 page) (w.operateAll (roomOps page).1).programs := by
  have hbefore : Paid n page w := ⟨r,none,h,hpaid,hworn⟩
  have hfits := h.fits
  rw [inUse_none] at hfits
  by_cases hr : r=pdbsConfigArrayLen
  · have hroom : roomOps page=([.erase],⟨0,by decide⟩) := by
      unfold roomOps
      rw [findStatus_empty_none h hr]
    have hlaid : Laid entryKinds (FlashOp.erase.apply page) 0 none := laid_blank fun _ _ => rfl
    have hnew : pdbsConfigArrayLen*(w.evictions+1)+0 ≤ n := by
      rw [Nat.mul_succ]
      omega
    rw [hroom]
    exact ⟨throughout_singleton (Paid n) hbefore ⟨0,none,hlaid,hnew,worn_erased _⟩,hnew,worn_erased _⟩
  · rw [roomOps_room h (by omega)]
    refine ⟨fun k => ?_,hpaid,hworn⟩
    rw [List.take_nil]
    exact hbefore

/-- Everything before the new structure is written. -/
theorem clear_paid (h : Holds st r current)
    (hpaid : pdbsConfigArrayLen*w.evictions+inUse r current ≤ n) (hworn : Worn st.page w.programs) :
    (∀ k, Paid n (applyAll ((clearingOps st).take k) st.page)
      (w.operateAll ((clearingOps st).take k))) ∧
    pdbsConfigArrayLen*(w.operateAll (clearingOps st)).evictions+(updateSlot st).val ≤ n ∧
    Worn (applyAll (clearingOps st) st.page) (w.operateAll (clearingOps st)).programs := by
  obtain ⟨hinvalidate,hevictions,hretired⟩ := invalidate_paid h hpaid hworn
  obtain ⟨-,hlaid,-⟩ := h.invalidate
  rw [← hevictions] at hpaid
  obtain ⟨hroom,hslot,hclear⟩ := room_paid hlaid hpaid hretired
  rw [updateSlot,clearingOps,applyAll_append,operateAll_append]
  exact ⟨throughout_append (Paid n) hinvalidate hroom,hslot,hclear⟩

/-- The new structure takes one more slot. -/
theorem write_paid (h : Holds st r current) (hv : cfg .status=pdbsConfigStatusValid)
    (hpaid : pdbsConfigArrayLen*w.evictions+(updateSlot st).val ≤ n)
    (hworn : Worn (applyAll (clearingOps st) st.page) w.programs) (k : ℕ) :
    pdbsConfigArrayLen*(w.operateAll ((writeOps (updateSlot st) cfg).take (k+1))).evictions+
      ((updateSlot st).val+1) ≤ n+1 ∧
    Worn (applyAll ((writeOps (updateSlot st) cfg).take (k+1)) (applyAll (clearingOps st) st.page))
      (w.operateAll ((writeOps (updateSlot st) cfg).take (k+1))).programs := by
  have hn : (writeOrder.take (k+1)).Nodup := (List.take_sublist _ writeOrder).nodup (by decide)
  refine ⟨?_,hworn.write hv h.slot_erased k⟩
  rw [writeOps,← List.map_take,(operateAll_fields hn _ cfg _).1,← Nat.add_assoc]
  exact Nat.succ_le_succ hpaid

/-- One more update pays for all an update does, however far it gets. -/
theorem cut_paid (h : Holds st r current) (hv : cfg .status=pdbsConfigStatusValid)
    (hpaid : pdbsConfigArrayLen*w.evictions+inUse r current ≤ n) (hworn : Worn st.page w.programs)
    (k : ℕ) : Paid (n+1) (cutPage cfg st k) (w.operateAll ((updateOps cfg st).take k)) := by
  obtain ⟨hstages,hslot,hclear⟩ := clear_paid h hpaid hworn
  obtain ⟨-,hlaid,-⟩ := h.clear
  refine throughout_append (Paid (n+1)) (fun j => (hstages j).mono (Nat.le_succ n)) (fun j => ?_) k
  cases j with
  | zero =>
    rw [List.take_zero,applyAll_nil,operateAll_nil]
    refine ⟨_,none,hlaid,?_,hclear⟩
    rw [inUse_none]
    exact Nat.le_succ_of_le hslot
  | succ j =>
    obtain ⟨hroom,hwritten⟩ := write_paid h hv hslot hclear j
    exact ⟨_,_,h.write_laid hv j,hroom,hwritten⟩

end Update

/-! ## Runs -/

/-- What the updates so far have paid for in a store. -/
def Sound (st : Store) (w : Wear) : Prop :=
  ∃ r current, Holds st r current ∧
    pdbsConfigArrayLen*w.evictions+inUse r current ≤ w.updates ∧ Worn st.page w.programs

section Sound

variable {st : Store} {w : Wear}

theorem sound_start : Sound store.start unworn :=
  ⟨0,none,holds_start,Nat.le_refl 0,worn_erased _⟩

/-- An erase on request is not charged to anyone, and pays for nothing. -/
theorem Sound.erase (h : Sound st w) :
    Sound (pdbsConfigFlashErase st) {w with programs := fun _ _ => 0} := by
  obtain ⟨r,current,-,hpaid,-⟩ := h
  exact ⟨0,none,holds_erase st,(Nat.le_add_right _ _).trans hpaid,worn_erased _⟩

theorem Sound.update (h : Sound st w) (cfg : ValidEntry) :
    Sound (pdbsConfigFlashUpdate cfg.val st)
      {w.operateAll (updateOps cfg.val st) with updates := w.updates+1} := by
  obtain ⟨r,current,hst,hpaid,hworn⟩ := h
  obtain ⟨-,hslot,hclear⟩ := clear_paid hst hpaid hworn
  obtain ⟨hroom,hwritten⟩ := write_paid hst cfg.property hslot hclear 5
  have hops : (writeOps (updateSlot st) cfg.val).take (5+1)=writeOps (updateSlot st) cfg.val :=
    List.take_of_length_le (by simp [writeOps,writeOrder])
  rw [hops,← operateAll_append] at hroom hwritten
  rw [← applyAll_append] at hwritten
  exact ⟨_,_,hst.update cfg.property,hroom,hwritten⟩

theorem Sound.cut (h : Sound st w) (cfg : ValidEntry) (done : ℕ) :
    Sound (reboot (cutPage cfg.val st done))
      {w.operateAll ((updateOps cfg.val st).take done) with updates := w.updates+1} := by
  obtain ⟨r,current,hst,hpaid,hworn⟩ := h
  obtain ⟨r',current',hlaid,hpaid',hworn'⟩ := cut_paid hst cfg.property hpaid hworn done
  exact ⟨r',current',⟨hlaid,fun _ hslot => by cases hslot⟩,hpaid',hworn'⟩

end Sound

/-- Whatever happens, updates erase the page at most once for every 128 of
them, between two erases every halfword is programmed at most once, a status at
most twice, and the controller accepts every operation of the next update. -/
theorem wear_bounded {p : Store × Wear} (h : (store.observe unworn recordWear).Reach anyStep p) :
    pdbsConfigArrayLen*p.2.evictions ≤ p.2.updates ∧
    (∀ slot f, p.2.programs slot f ≤ limit f) ∧
    ∀ cfg, LegalRun (updateOps cfg p.1) p.1.page := by
  have hsound : Sound p.1 p.2 := by
    refine h.observed_invariant (I := Sound) sound_start ?_
    intro st w op st' _ hst _ hs
    rw [← Option.some_inj.mp hs]
    cases op with
    | update cfg => exact hst.update cfg
    | erase => exact hst.erase
    | read =>
      obtain ⟨r,current,hst,hpaid,hworn⟩ := hst
      refine ⟨r,current,hst.after_read,hpaid,?_⟩
      rw [Operation.run,read_page]
      exact hworn
    | powerCycle =>
      obtain ⟨r,current,hst,hpaid,hworn⟩ := hst
      exact ⟨r,current,hst.reboot,hpaid,hworn⟩
    | cutUpdate cfg done => exact hst.cut cfg done
  obtain ⟨r,current,hst,hpaid,hworn⟩ := hsound
  exact ⟨(Nat.le_add_right _ _).trans hpaid,hworn.limited,hst.update_legal⟩

/-- The bounds hold after an update and another one that stops at the new
structure's status. -/
theorem wear_bounded_torn : ∃ p : Store × Wear, (store.observe unworn recordWear).Reach anyStep p ∧
    p.2.updates=2 ∧ pdbsConfigArrayLen*p.2.evictions ≤ 2 ∧
    LegalRun (updateOps nineVolts.val p.1) p.1.page := by
  have hstep (p : Store × Wear) (op : Operation) : (store.observe unworn recordWear).step op p=
      some (op.run p.1,recordWear p.2 p.1 op (op.run p.1)) := rfl
  have hupdate : (store.observe unworn recordWear).Reach anyStep _ :=
    .step .start trivial (hstep _ (.update nineVolts))
  obtain ⟨p,hcut,hupdates⟩ : ∃ p, (store.observe unworn recordWear).Reach anyStep p ∧
      p.2.updates=2 := ⟨_,hupdate.step trivial (hstep _ (.cutUpdate nineVolts 2)),rfl⟩
  obtain ⟨hevictions,-,hlegal⟩ := wear_bounded hcut
  rw [hupdates] at hevictions
  exact ⟨p,hcut,hupdates,hevictions,hlegal nineVolts.val⟩

end UsbPdFirmware.FlashWear
