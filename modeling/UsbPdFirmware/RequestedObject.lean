import UsbPdFirmware.BitFields
import UsbPdFirmware.DevicePolicy
import UsbPdFirmware.IndexSearch

/-!
# The object a Request asks for

An evaluation of capabilities either selects an object of the message, and
then the Request carries its position, or falls back to the first object.
-/

namespace UsbPdFirmware.RequestedObject

open PdMessage BitFields DevicePolicy IndexSearch

/-- The object that `pdbs_dpm_evaluate_capability` selects as matching. -/
def selectedObject (scfg : Option PdbsConfig) (profile : ℕ) (outputEnabled : Bool) (caps : PdMsg) :
    Option ℕ :=
  match scfg with
  | some scfg =>
    if outputEnabled then
      match (List.range caps.numobjGet).find? fun i =>
          matchesProfile (pdProfiles.getD profile 5000) 0 (caps.object i) ||
            matchesPps scfg 0 (caps.object i) with
      | some i => some i
      | none =>
        if 0 ≤ dpmGetRangeFixedPdoIndex caps scfg then some (dpmGetRangeFixedPdoIndex caps scfg).toNat
        else none
    else none
  | none => none

/-! ## Positions in request objects -/

/-- The bits of the position. -/
def objposMask : BitVec 32 := 0x70000000

/-- A position of one of seven objects is read back. -/
theorem objpos_roundtrip {i : ℕ} (h : i ≤ 7) :
    fieldGet 28 objposMask (pdRdoObjposSet i)=i :=
  fieldGet_fieldSet_of_lt rfl (show 28+3 ≤ 32 by omega) (by omega)

section Positions

variable {hdr : BitVec 16} {usbComms : Bool} {request : PdMsg} {rdo : BitVec 32} {i : ℕ}

/-- The flag for USB communications is all a Request adds to its object. -/
theorem buildRequest_and {k : BitVec 32} (hk : pdRdoUsbComms &&& k=0) :
    (buildRequest hdr usbComms request rdo).obj 0 &&& k=rdo &&& k := by
  have hobj : (buildRequest hdr usbComms request rdo).obj 0=
      if usbComms then rdo ||| pdRdoUsbComms else rdo := by
    unfold buildRequest PdMsg.rewrite
    dsimp only
    rw [Function.update_self]
  rw [hobj]
  split
  · exact or_and_right hk
  · rfl

/-- A Request has the position of the object it is built with. -/
theorem pdRdoObjposGet_buildRequest (h : rdo &&& objposMask=pdRdoObjposSet i &&& objposMask)
    (hi : i ≤ 7) : pdRdoObjposGet (buildRequest hdr usbComms request rdo)=i := by
  have hrdo : (buildRequest hdr usbComms request rdo).obj 0 &&& objposMask=
      pdRdoObjposSet i &&& objposMask := (buildRequest_and (by decide)).trans h
  exact (fieldGet_congr hrdo 28).trans (objpos_roundtrip hi)

theorem fixedRdo_objpos (scfg : PdbsConfig) (current : ℕ) :
    fixedRdo scfg current i &&& objposMask=pdRdoObjposSet i &&& objposMask := by
  unfold fixedRdo
  split
  · have hmin : pdRdoFvMinCurrentSet dpmMinCurrent &&& objposMask=0 := fieldSet_and (by decide) _ _
    have hcur : pdRdoFvCurrentSet current &&& objposMask=0 := fieldSet_and (by decide) _ _
    exact or_and_left (or_and_zero (or_and_zero (or_and_zero hmin hcur) (by decide)) (by decide))
  · have hmax : pdRdoFvMaxCurrentSet current &&& objposMask=0 := fieldSet_and (by decide) _ _
    have hcur : pdRdoFvCurrentSet current &&& objposMask=0 := fieldSet_and (by decide) _ _
    exact or_and_left (or_and_zero (or_and_zero hmax hcur) (by decide))

/-- Request object for a programmable supply. -/
theorem progRdo_objpos (current voltage : ℕ) :
    (pdRdoProgCurrentSet current ||| pdRdoProgVoltageSet voltage ||| pdRdoNoUsbSuspend |||
      pdRdoObjposSet i) &&& objposMask=pdRdoObjposSet i &&& objposMask := by
  have hcur : pdRdoProgCurrentSet current &&& objposMask=0 := fieldSet_and (by decide) _ _
  have hvolt : pdRdoProgVoltageSet voltage &&& objposMask=0 := fieldSet_and (by decide) _ _
  exact or_and_left (or_and_zero (or_and_zero hcur hvolt) (by decide))

/-- The fallback asks for the first object. -/
theorem fallbackRequest_objpos (outputEnabled : Bool) :
    pdRdoObjposGet (fallbackRequest hdr usbComms request outputEnabled).request=1 := by
  refine pdRdoObjposGet_buildRequest ?_ (by omega)
  cases outputEnabled <;> decide

end Positions

/-! ## Evaluations -/

section Evaluation

variable {hdr : BitVec 16} {usbComms : Bool} {request caps : PdMsg}

/-- The range search is a search by index. -/
theorem rangeLoop_eq_search (scfg : PdbsConfig) (caps : PdMsg) (step : ℤ) (rounds : ℕ) (i : ℤ) :
    rangeLoop scfg caps step rounds i=
      search (fun j => inRange scfg (caps.object j)) caps.numobjGet step rounds i := by
  induction rounds generalizing i with
  | zero => rfl
  | succ rounds ih =>
    unfold rangeLoop search
    rw [ih]

/-- What the range search finds is an object in range. -/
theorem dpmGetRangeFixedPdoIndex_found {scfg : PdbsConfig}
    (h : 0 ≤ dpmGetRangeFixedPdoIndex caps scfg) :
    dpmGetRangeFixedPdoIndex caps scfg < caps.numobjGet ∧
      inRange scfg (caps.object (dpmGetRangeFixedPdoIndex caps scfg).toNat)=true := by
  unfold dpmGetRangeFixedPdoIndex at h ⊢
  simp only [rangeLoop_eq_search] at h ⊢
  split at h
  · next hv =>
    rw [if_pos hv]
    exact search_found h
  · next hv =>
    rw [if_neg hv]
    exact search_found h

/-- What an evaluation is, by the object selected. -/
def Selects (hdr : BitVec 16) (usbComms outputEnabled : Bool) (caps request : PdMsg) (e : Evaluation) :
    Option ℕ → Prop
  | some i => i < caps.numobjGet ∧ e.capabilityMatch=true ∧ pdRdoObjposGet e.request=i+1
  | none => e=fallbackRequest hdr usbComms request outputEnabled

/-- An evaluation is for the selected object, or falls back without one. -/
theorem evaluateStored_selects (hdr : BitVec 16) (scfg : Option PdbsConfig) (profile : ℕ) (dpm : Dpm)
    (caps request : PdMsg) :
    Selects hdr dpm.usbComms dpm.outputEnabled caps request
      (evaluateStored hdr scfg profile dpm caps request)
      (selectedObject scfg profile dpm.outputEnabled caps) := by
  have hseven := caps.numobjGet_le
  cases scfg with
  | none => rfl
  | some scfg =>
    unfold evaluateStored selectedObject
    dsimp only
    cases henabled : dpm.outputEnabled with
    | false => rfl
    | true =>
      rw [if_pos rfl,if_pos rfl]
      unfold matchingRequest
      dsimp only
      cases hfind : (List.range caps.numobjGet).find? fun i =>
          matchesProfile (pdProfiles.getD profile 5000) 0 (caps.object i) ||
            matchesPps scfg 0 (caps.object i) with
      | some i =>
        have hi : i < caps.numobjGet := List.mem_range.mp (List.mem_of_find?_eq_some hfind)
        dsimp only
        split
        · exact ⟨hi,rfl,pdRdoObjposGet_buildRequest (fixedRdo_objpos scfg 0) (by omega)⟩
        · exact ⟨hi,rfl,pdRdoObjposGet_buildRequest (progRdo_objpos _ _) (by omega)⟩
      | none =>
        dsimp only
        by_cases hi : 0 ≤ dpmGetRangeFixedPdoIndex caps scfg
        · have hlt := (dpmGetRangeFixedPdoIndex_found hi).1
          rw [if_pos hi,if_pos hi]
          exact ⟨by omega,rfl,pdRdoObjposGet_buildRequest (fixedRdo_objpos scfg _) (by omega)⟩
        · rw [if_neg hi,if_neg hi]
          rfl

section Selected

variable {outputEnabled : Bool} {e : Evaluation} {selected : Option ℕ}

/-- The Request is for an object of the message. -/
theorem Selects.objpos (h : Selects hdr usbComms outputEnabled caps request e selected)
    (hn : 0 < caps.numobjGet) : 1 ≤ pdRdoObjposGet e.request ∧ pdRdoObjposGet e.request ≤ caps.numobjGet := by
  cases selected with
  | none =>
    rw [show e=_ from h,fallbackRequest_objpos]
    omega
  | some i =>
    rw [h.2.2]
    have hi := h.1
    omega

/-- A match is reported for a selected object, and without one exactly while
the output is disabled. -/
theorem Selects.capabilityMatch (h : Selects hdr usbComms outputEnabled caps request e selected) :
    e.capabilityMatch=(selected.isSome || !outputEnabled) := by
  cases selected with
  | none =>
    rw [show e=_ from h]
    rfl
  | some i => exact h.2.1

end Selected

/-- Nothing is selected while the output is disabled. -/
theorem selectedObject_disabled (scfg : Option PdbsConfig) (profile : ℕ) (caps : PdMsg) :
    selectedObject scfg profile false caps=none := by
  cases scfg <;> rfl

end Evaluation

end UsbPdFirmware.RequestedObject
