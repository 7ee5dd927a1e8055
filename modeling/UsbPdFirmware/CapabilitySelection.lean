import Mathlib.Data.List.GetD
import UsbPdFirmware.FirmwareSystem
import UsbPdFirmware.RequestFields

/-!
# Which object a call selects

The exits of `pdbs_dpm_evaluate_capability`, and how its choice compares with
what the configuration asks for: the first fixed supply at the profile voltage
or programmable supply around the configured voltage, else an object in the
voltage range, else 5 V at low current.
-/

namespace UsbPdFirmware.CapabilitySelection

open PdMessage DevicePolicy FirmwareState PolicyEngine FirmwareSystem
open RequestedObject RequestFields IndexSearch

/-! ## Calls -/

section Calls

variable (caps : Option MsgPtr) (request : MsgPtr) (sh : Shared)

/-- The capabilities a call evaluates: new ones, or else the stored ones. -/
def evaluated : PdMsg := sh.deref (caps.or sh.dpm.capabilities)

/-- What a call answers: the Request, what it records, and what it returns. -/
def answer : Evaluation :=
  let r := pdbsDpmEvaluateCapability caps request sh
  ⟨r.1.1.msg,r.1.2.dpm.requestedVoltage,r.1.2.dpm.capabilityMatch,r.2⟩

/-- The voltage of the profile, the first one when the state is out of range. -/
def profileVoltage : ℕ := pdProfiles.getD sh.profile 5000

/-- A state out of range counts as the first. -/
theorem profileVoltage_reset : pdProfiles.getD (if sh.profile ≤ 3 then sh.profile else 0) 5000=
    profileVoltage sh := by
  unfold profileVoltage
  split
  · rfl
  · next h =>
    have hlong : pdProfiles.length ≤ sh.profile := by
      change 4 ≤ sh.profile
      omega
    rw [List.getD_eq_default _ _ hlong]
    rfl

/-- The answer is that of the evaluation. -/
theorem answer_eq : answer caps request sh=
    evaluateStored sh.hdrTemplate sh.config sh.profile sh.dpm (evaluated caps sh) request.msg := by
  have hprofile := profileVoltage_reset sh
  unfold profileVoltage at hprofile
  unfold answer pdbsDpmEvaluateCapability evaluated evaluateStored
  cases caps with
  | none =>
    dsimp only
    rw [hprofile]
    rfl
  | some c =>
    dsimp only
    rw [free?_eq,hprofile]
    rfl

/-- Profile voltages are whole units. -/
theorem profileVoltage_mod : profileVoltage sh%50=0 := by
  unfold profileVoltage
  rcases Nat.lt_or_ge sh.profile 4 with h | h
  · interval_cases sh.profile <;> rfl
  · rw [List.getD_eq_default _ _ h]

end Calls

/-! ## Exits -/

/-- The two tests of the search: an object is taken without regard to its
current. -/
def accepted (scfg : PdbsConfig) (voltage : ℕ) (pdo : BitVec 32) : Bool :=
  matchesProfile voltage 0 pdo || matchesPps scfg 0 pdo

section Exits

variable (sh : Shared) (caps request : PdMsg)

/-- With a configuration and the output enabled, the search takes this object. -/
structure Takes (scfg : PdbsConfig) (i : ℕ) : Prop where
  /-- The configuration. -/
  config : sh.config=some scfg
  /-- The output. -/
  enabled : sh.dpm.outputEnabled=true
  /-- The object. -/
  first : First caps.numobjGet (fun j => accepted scfg (profileVoltage sh) (caps.object j)=true) i

/-- The search takes none. -/
def TakesNone (scfg : PdbsConfig) : Prop :=
  ∀ j < caps.numobjGet, ¬accepted scfg (profileVoltage sh) (caps.object j)=true

/-- The answer with a Request for a fixed supply. -/
def fixedAnswer (scfg : PdbsConfig) (current i voltage : ℕ) : Evaluation :=
  ⟨buildRequest sh.hdrTemplate sh.dpm.usbComms request (fixedRdo scfg current (i+1)),voltage,true,true⟩

/-- The answer for one at the profile voltage, with no current. -/
def profileAnswer (scfg : PdbsConfig) (i : ℕ) : Evaluation :=
  fixedAnswer sh request scfg 0 i (pdPdv2Mv (pdMv2Pdv scfg.v))

/-- The answer for a programmable supply, with no current. -/
def programmableAnswer (scfg : PdbsConfig) (i : ℕ) : Evaluation :=
  ⟨buildRequest sh.hdrTemplate sh.dpm.usbComms request
      (pdRdoProgCurrentSet (pdCa2Pai 0) ||| pdRdoProgVoltageSet (pdMv2Prv scfg.v) |||
        pdRdoNoUsbSuspend ||| pdRdoObjposSet (i+1)),
    pdPrv2Mv (pdMv2Prv scfg.v),true,true⟩

/-- The answer for an object in the voltage range. -/
def rangedAnswer (scfg : PdbsConfig) (i : ℕ) : Evaluation :=
  let voltage := pdPdv2Mv (pdPdoSrcFixedVoltageGet (caps.object i))
  fixedAnswer sh request scfg (dpmGetCurrent scfg voltage) i voltage

/-- Every exit, with its answer. -/
inductive Exit : Evaluation → Prop where
  /-- A fixed supply at the profile voltage. -/
  | profile {scfg : PdbsConfig} {i : ℕ} (ht : Takes sh caps scfg i)
      (hm : matchesProfile (profileVoltage sh) 0 (caps.object i)=true) :
      Exit (profileAnswer sh request scfg i)
  /-- A programmable supply around the configured voltage. -/
  | programmable {scfg : PdbsConfig} {i : ℕ} (ht : Takes sh caps scfg i)
      (hm : matchesPps scfg 0 (caps.object i)=true) : Exit (programmableAnswer sh request scfg i)
  /-- An object in the voltage range. -/
  | ranged {scfg : PdbsConfig} {i : ℕ} (hc : sh.config=some scfg) (he : sh.dpm.outputEnabled=true)
      (hn : TakesNone sh caps scfg) (hi : dpmGetRangeFixedPdoIndex caps scfg=i)
      (hlt : i < caps.numobjGet) (hr : inRange scfg (caps.object i)=true) :
      Exit (rangedAnswer sh caps request scfg i)
  /-- 5 V at low current. -/
  | fallback (h : ∀ scfg, sh.config=some scfg → sh.dpm.outputEnabled=true →
      TakesNone sh caps scfg ∧ dpmGetRangeFixedPdoIndex caps scfg < 0) :
      Exit (fallbackRequest sh.hdrTemplate sh.dpm.usbComms request sh.dpm.outputEnabled)

variable {sh caps request}

/-- Every evaluation leaves by one of the exits. -/
theorem evaluateStored_exit (sh : Shared) (caps request : PdMsg) :
    Exit sh caps request
      (evaluateStored sh.hdrTemplate sh.config sh.profile sh.dpm caps request) := by
  unfold evaluateStored
  cases hconfig : sh.config with
  | none => exact .fallback fun scfg hc => by rw [hconfig] at hc; cases hc
  | some scfg =>
    dsimp only
    cases henabled : sh.dpm.outputEnabled with
    | false =>
      rw [if_neg Bool.false_ne_true,← henabled]
      exact .fallback fun _ _ he => by rw [henabled] at he; cases he
    | true =>
      rw [if_pos rfl]
      unfold matchingRequest
      dsimp only
      cases hfind : (List.range caps.numobjGet).find? fun j =>
          matchesProfile (pdProfiles.getD sh.profile 5000) 0 (caps.object j) ||
            matchesPps scfg 0 (caps.object j) with
      | some i =>
        have ht : Takes sh caps scfg i := ⟨hconfig,henabled,first_of_find hfind⟩
        dsimp only
        by_cases hm : matchesProfile (pdProfiles.getD sh.profile 5000) 0 (caps.object i)=true
        · rw [if_pos hm]
          exact .profile ht hm
        · rw [if_neg hm]
          exact .programmable ht ((Bool.or_eq_true _ _ ▸ ht.first.holds).resolve_left hm)
      | none =>
        have hn : TakesNone sh caps scfg := none_of_find hfind
        dsimp only
        by_cases hi : 0 ≤ dpmGetRangeFixedPdoIndex caps scfg
        · obtain ⟨hlt,hr⟩ := dpmGetRangeFixedPdoIndex_found hi
          rw [if_pos hi]
          exact .ranged hconfig henabled hn (Int.toNat_of_nonneg hi).symm (by omega) hr
        · rw [if_neg hi,← henabled]
          refine .fallback fun scfg' hc _ => ?_
          rw [hconfig] at hc
          cases hc
          exact ⟨hn,by omega⟩

/-- So does every call. -/
theorem answer_exit (caps : Option MsgPtr) (request : MsgPtr) (sh : Shared) :
    Exit sh (evaluated caps sh) request.msg (answer caps request sh) := by
  rw [answer_eq]
  exact evaluateStored_exit sh _ _

end Exits

/-! ## Sound selection -/

/-- What the configuration wants: a fixed supply at the profile voltage, or a
programmable supply whose range covers the configured voltage. -/
def Wanted (scfg : PdbsConfig) (voltage : ℕ) (pdo : BitVec 32) : Prop :=
  isFixed pdo=true ∧ pdPdv2Mv (pdPdoSrcFixedVoltageGet pdo)=voltage ∨
    isPps pdo=true ∧ pdPav2Mv (pdApdoPpsMinVoltageGet pdo) ≤ scfg.v ∧
      scfg.v ≤ pdPav2Mv (pdApdoPpsMaxVoltageGet pdo)

instance (scfg : PdbsConfig) (voltage : ℕ) (pdo : BitVec 32) : Decidable (Wanted scfg voltage pdo) :=
  inferInstanceAs (Decidable (_ ∨ _))

/-- The Request is laid out for the object's kind, within its current. -/
def Fits (scfg : PdbsConfig) (pdo : BitVec 32) (request : PdMsg) : Prop :=
  (isFixed pdo=true ∧ ∃ current ≤ pdPdoSrcFixedCurrentGet pdo,
    FixedLayout request scfg.giveback current) ∨
  (isPps pdo=true ∧ ∃ current ≤ pdApdoPpsCurrentGet pdo,
    ProgrammableLayout request (pdMv2Prv scfg.v) current)

/-- The answer is a match with this object. -/
structure Selected (scfg : PdbsConfig) (caps : PdMsg) (e : Evaluation) (i : ℕ) : Prop where
  /-- Its position. -/
  position : pdRdoObjposGet e.request=i+1
  /-- The recorded match. -/
  capabilityMatch : e.capabilityMatch=true
  /-- The returned one. -/
  returned : e.returned=true
  /-- The layout and the current. -/
  fits : Fits scfg (caps.object i) e.request

/-- Nothing is wanted. -/
def WantsNone (scfg : PdbsConfig) (voltage : ℕ) (caps : PdMsg) : Prop :=
  ∀ j < caps.numobjGet, ¬Wanted scfg voltage (caps.object j)

/-- A sound and complete selection. -/
structure SelectsSoundly (sh : Shared) (caps : PdMsg) (e : Evaluation) : Prop where
  /-- The position is that of an object. -/
  position : 1 ≤ pdRdoObjposGet e.request ∧ pdRdoObjposGet e.request ≤ caps.numobjGet
  /-- The first object that is wanted comes first. -/
  wanted : ∀ scfg i, sh.config=some scfg → sh.dpm.outputEnabled=true →
    First caps.numobjGet (fun j => Wanted scfg (profileVoltage sh) (caps.object j)) i →
    Selected scfg caps e i
  /-- Then an object in the voltage range. -/
  ranged : ∀ scfg (i : ℕ), sh.config=some scfg → sh.dpm.outputEnabled=true →
    WantsNone scfg (profileVoltage sh) caps → dpmGetRangeFixedPdoIndex caps scfg=i →
    Selected scfg caps e i
  /-- Then the first object, as a fallback. -/
  fallback : ∀ scfg, sh.config=some scfg → sh.dpm.outputEnabled=true →
    WantsNone scfg (profileVoltage sh) caps → dpmGetRangeFixedPdoIndex caps scfg < 0 →
    pdRdoObjposGet e.request=1 ∧ e.returned=false
  /-- The reports of success agree. -/
  reports : (e.returned=true ↔ mismatchBit e.request=false) ∧ e.capabilityMatch=e.returned

/-- Programmable supplies that the search takes only because it rounds the
configured voltage down come after an object that is wanted. -/
def RoundedLast (scfg : PdbsConfig) (voltage : ℕ) (caps : PdMsg) : Prop :=
  ∀ i < caps.numobjGet, matchesPps scfg 0 (caps.object i)=true →
    pdPav2Mv (pdApdoPpsMaxVoltageGet (caps.object i)) < scfg.v →
    ∃ j < i, Wanted scfg voltage (caps.object j)

section Sound

variable {scfg : PdbsConfig} {voltage : ℕ} {pdo : BitVec 32}

/-- No object is of both kinds. -/
theorem isPps_of_isFixed (h : isFixed pdo=true) : isPps pdo=false := by
  unfold isFixed at h
  unfold isPps
  rw [beq_iff_eq.mp h]
  rfl

/-- The first test is exact at a voltage of whole units. -/
theorem matchesProfile_iff (hv : voltage%50=0) : matchesProfile voltage 0 pdo=true ↔
    isFixed pdo=true ∧ pdPdv2Mv (pdPdoSrcFixedVoltageGet pdo)=voltage := by
  simp only [matchesProfile,pdPdv2Mv,pdMv2Pdv,Bool.and_eq_true,beq_iff_eq,decide_eq_true_eq]
  constructor
  · rintro ⟨⟨hf,heq⟩,-⟩
    exact ⟨hf,by omega⟩
  · rintro ⟨hf,heq⟩
    exact ⟨⟨hf,by omega⟩,Nat.zero_le _⟩

/-- The second test rounds the configured voltage down. -/
theorem matchesPps_iff : matchesPps scfg 0 pdo=true ↔
    isPps pdo=true ∧ scfg.v/100 ≤ pdApdoPpsMaxVoltageGet pdo ∧
      pdApdoPpsMinVoltageGet pdo ≤ scfg.v/100 := by
  simp only [matchesPps,Bool.and_eq_true,decide_eq_true_eq]
  unfold pdMv2Pav
  constructor
  · rintro ⟨⟨⟨hp,hmax⟩,hmin⟩,-⟩
    exact ⟨hp,hmax,hmin⟩
  · rintro ⟨hp,hmax,hmin⟩
    exact ⟨⟨⟨hp,hmax⟩,hmin⟩,Nat.zero_le _⟩

/-- What is wanted is taken. -/
theorem accepted_of_wanted (hv : voltage%50=0) (h : Wanted scfg voltage pdo) :
    accepted scfg voltage pdo=true := by
  unfold accepted
  rw [Bool.or_eq_true,matchesProfile_iff hv,matchesPps_iff]
  unfold Wanted pdPav2Mv at h
  rcases h with h | ⟨hp,hmin,hmax⟩
  · exact .inl h
  · exact .inr ⟨hp,by omega,by omega⟩

/-- What is taken is wanted, or a programmable supply below the configured
voltage. -/
theorem wanted_of_accepted (hv : voltage%50=0) (h : accepted scfg voltage pdo=true) :
    Wanted scfg voltage pdo ∨
      matchesPps scfg 0 pdo=true ∧ pdPav2Mv (pdApdoPpsMaxVoltageGet pdo) < scfg.v := by
  unfold accepted at h
  rw [Bool.or_eq_true,matchesProfile_iff hv] at h
  rcases h with h | h
  · exact .inl (.inl h)
  · obtain ⟨hp,hmax,hmin⟩ := matchesPps_iff.mp h
    by_cases hcover : scfg.v ≤ pdPav2Mv (pdApdoPpsMaxVoltageGet pdo)
    · have hlow : pdPav2Mv (pdApdoPpsMinVoltageGet pdo) ≤ scfg.v := by
        unfold pdPav2Mv
        omega
      exact .inl (.inr ⟨hp,hlow,hcover⟩)
    · exact .inr ⟨h,by omega⟩

end Sound

section Answers

variable {sh : Shared} {caps request : PdMsg} {e : Evaluation} {scfg : PdbsConfig} {i : ℕ}

/-- The voltage of a programmable supply that is taken fits its field. -/
theorem programmedVoltage_lt (h : matchesPps scfg 0 (caps.object i)=true) :
    pdMv2Prv scfg.v < 2^11 := by
  obtain ⟨-,hmax,-⟩ := matchesPps_iff.mp h
  have hfield : pdApdoPpsMaxVoltageGet (caps.object i) ≤ 255 := fieldGet_le 17 0x1FE0000 _
  unfold pdMv2Prv
  omega

theorem isFixed_of_matchesProfile {voltage current : ℕ} {pdo : BitVec 32}
    (h : matchesProfile voltage current pdo=true) : isFixed pdo=true := by
  unfold matchesProfile at h
  rw [Bool.and_eq_true,Bool.and_eq_true] at h
  exact h.1.1

/-- An object in range is a fixed supply with the current that is needed. -/
theorem inRange_spec {pdo : BitVec 32} (h : inRange scfg pdo=true) : isFixed pdo=true ∧
    dpmGetCurrent scfg (pdPdv2Mv (pdPdoSrcFixedVoltageGet pdo)) ≤ pdPdoSrcFixedCurrentGet pdo := by
  unfold inRange at h
  simp only [Bool.and_eq_true,decide_eq_true_eq] at h
  exact ⟨h.1.1.1,h.1.1.2⟩

/-- Taking an object, a call leaves by one of the first two exits. -/
theorem Exit.eq_of_takes (h : Exit sh caps request e) (ht : Takes sh caps scfg i) :
    matchesProfile (profileVoltage sh) 0 (caps.object i)=true ∧ e=profileAnswer sh request scfg i ∨
      matchesPps scfg 0 (caps.object i)=true ∧ e=programmableAnswer sh request scfg i := by
  have hsame {scfg' : PdbsConfig} {j : ℕ} (ht' : Takes sh caps scfg' j) : scfg'=scfg ∧ j=i := by
    have hc := ht'.config.symm.trans ht.config
    cases hc
    exact ⟨rfl,ht'.first.unique ht.first⟩
  cases h with
  | profile ht' hm =>
    obtain ⟨rfl,rfl⟩ := hsame ht'
    exact .inl ⟨hm,rfl⟩
  | programmable ht' hm =>
    obtain ⟨rfl,rfl⟩ := hsame ht'
    exact .inr ⟨hm,rfl⟩
  | ranged hc he hn hi hlt hr =>
    have hcc := hc.symm.trans ht.config
    cases hcc
    exact absurd ht.first.holds (hn i ht.first.lt)
  | fallback hnone =>
    obtain ⟨hn,-⟩ := hnone scfg ht.config ht.enabled
    exact absurd ht.first.holds (hn i ht.first.lt)

/-- Taking none, by one of the last two. -/
theorem Exit.eq_of_takesNone (h : Exit sh caps request e) (hc : sh.config=some scfg)
    (he : sh.dpm.outputEnabled=true) (hn : TakesNone sh caps scfg) :
    (∃ i : ℕ, dpmGetRangeFixedPdoIndex caps scfg=i ∧ i < caps.numobjGet ∧
      inRange scfg (caps.object i)=true ∧ e=rangedAnswer sh caps request scfg i) ∨
    dpmGetRangeFixedPdoIndex caps scfg < 0 ∧
      e=fallbackRequest sh.hdrTemplate sh.dpm.usbComms request true := by
  have htaken {scfg' : PdbsConfig} {j : ℕ} (ht : Takes sh caps scfg' j) : False := by
    have hcc := ht.config.symm.trans hc
    cases hcc
    exact hn j ht.first.lt ht.first.holds
  cases h with
  | profile ht hm => exact absurd ht htaken
  | programmable ht hm => exact absurd ht htaken
  | ranged hc' he' hn' hi hlt hr =>
    have hcc := hc'.symm.trans hc
    cases hcc
    exact .inl ⟨_,hi,hlt,hr,rfl⟩
  | fallback hnone =>
    rw [he]
    exact .inr ⟨(hnone scfg hc he).2,rfl⟩

/-- A match for a fixed supply within its current. -/
theorem selected_fixed {current voltage : ℕ} (hi : i < caps.numobjGet)
    (hf : isFixed (caps.object i)=true) (hcur : current ≤ pdPdoSrcFixedCurrentGet (caps.object i)) :
    Selected scfg caps (fixedAnswer sh request scfg current i voltage) i := by
  have hseven := caps.numobjGet_le
  have hfield : pdPdoSrcFixedCurrentGet (caps.object i) ≤ 1023 := fieldGet_le 0 0x3FF _
  refine ⟨pdRdoObjposGet_buildRequest (fixedRdo_objpos scfg _) (by omega),rfl,rfl,.inl ⟨hf,_,hcur,?_⟩⟩
  exact fixedLayout_buildRequest scfg _ (by omega)

/-- The layout of a Request for a programmable supply that is taken. -/
theorem programmableAnswer_layout (hm : matchesPps scfg 0 (caps.object i)=true) :
    ProgrammableLayout (programmableAnswer sh request scfg i).request (pdMv2Prv scfg.v) 0 :=
  programmableLayout_buildRequest _ (programmedVoltage_lt hm) (by decide)

/-- Taking an object, the answer is a match with it. -/
theorem Exit.of_takes (h : Exit sh caps request e) (ht : Takes sh caps scfg i) :
    Selected scfg caps e i := by
  have hseven := caps.numobjGet_le
  have hlt := ht.first.lt
  rcases h.eq_of_takes ht with ⟨hm,rfl⟩ | ⟨hm,rfl⟩
  · exact selected_fixed hlt (isFixed_of_matchesProfile hm) (Nat.zero_le _)
  · refine ⟨pdRdoObjposGet_buildRequest (progRdo_objpos _ _) (by omega),rfl,rfl,.inr ⟨?_,0,?_,?_⟩⟩
    · exact (matchesPps_iff.mp hm).1
    · exact Nat.zero_le _
    · exact programmableAnswer_layout hm

/-- Taking none, it is a match with an object in range, or the fallback. -/
theorem Exit.of_takesNone (h : Exit sh caps request e) (hc : sh.config=some scfg)
    (he : sh.dpm.outputEnabled=true) (hn : TakesNone sh caps scfg) :
    (∀ i : ℕ, dpmGetRangeFixedPdoIndex caps scfg=i → Selected scfg caps e i) ∧
      (dpmGetRangeFixedPdoIndex caps scfg < 0 →
        pdRdoObjposGet e.request=1 ∧ e.returned=false) := by
  rcases h.eq_of_takesNone hc he hn with ⟨j,hj,hlt,hr,rfl⟩ | ⟨hneg,rfl⟩
  · obtain ⟨hfixed,hcur⟩ := inRange_spec hr
    refine ⟨fun i hi => ?_,fun hneg => by omega⟩
    have hij : j=i := by omega
    rw [← hij]
    exact selected_fixed hlt hfixed hcur
  · exact ⟨fun i hi => by omega,fun _ => ⟨fallbackRequest_objpos _,rfl⟩⟩

/-- Every exit asks for an object of the message. -/
theorem Exit.position (h : Exit sh caps request e) (hpos : 0 < caps.numobjGet) :
    1 ≤ pdRdoObjposGet e.request ∧ pdRdoObjposGet e.request ≤ caps.numobjGet := by
  cases h with
  | profile ht hm =>
    have hlt := ht.first.lt
    rw [((Exit.profile ht hm : Exit sh caps request _).of_takes ht).position]
    omega
  | programmable ht hm =>
    have hlt := ht.first.lt
    rw [((Exit.programmable ht hm : Exit sh caps request _).of_takes ht).position]
    omega
  | ranged hc he hn hi hlt hr =>
    have hexit : Exit sh caps request _ := .ranged hc he hn hi hlt hr
    rw [((hexit.of_takesNone hc he hn).1 _ hi).position]
    omega
  | fallback hnone =>
    rw [fallbackRequest_objpos]
    omega

/-- The returned match, the recorded one and the mismatch bit of the Request
agree at every exit. -/
theorem Exit.reports (h : Exit sh caps request e) :
    (e.returned=true ↔ mismatchBit e.request=false) ∧ e.capabilityMatch=e.returned := by
  cases h with
  | profile ht hm => exact ⟨⟨fun _ => mismatchBit_fixed _ _ _,fun _ => rfl⟩,rfl⟩
  | programmable ht hm => exact ⟨⟨fun _ => mismatchBit_programmable _ _ _,fun _ => rfl⟩,rfl⟩
  | ranged hc he hn hi hlt hr => exact ⟨⟨fun _ => mismatchBit_fixed _ _ _,fun _ => rfl⟩,rfl⟩
  | fallback hnone =>
    refine ⟨?_,rfl⟩
    rw [mismatchBit_fallback]
    change (!sh.dpm.outputEnabled)=true ↔ _
    cases sh.dpm.outputEnabled <;> decide

end Answers

section Selection

variable {sh : Shared} {caps request : PdMsg} {e : Evaluation}

/-- Without a supply that is taken by rounding only, the selection is sound. -/
theorem selectsSoundly_of_roundedLast (h : Exit sh caps request e) (hpos : 0 < caps.numobjGet)
    (hr : ∀ scfg, sh.config=some scfg → sh.dpm.outputEnabled=true →
      RoundedLast scfg (profileVoltage sh) caps) : SelectsSoundly sh caps e := by
  have hv := profileVoltage_mod sh
  have hnone {scfg : PdbsConfig} (hc : sh.config=some scfg) (he : sh.dpm.outputEnabled=true)
      (hw : WantsNone scfg (profileVoltage sh) caps) : TakesNone sh caps scfg := by
    intro j hj ha
    rcases wanted_of_accepted hv ha with hwant | ⟨hm,hbelow⟩
    · exact hw j hj hwant
    · obtain ⟨k,hk,hwant⟩ := hr scfg hc he j hj hm hbelow
      exact hw k (by omega) hwant
  refine ⟨h.position hpos,fun scfg i hc he hf => ?_,fun scfg i hc he hw hi => ?_,
    fun scfg hc he hw hneg => ?_,h.reports⟩
  · refine h.of_takes ⟨hc,he,hf.lt,accepted_of_wanted hv hf.holds,fun j hj ha => ?_⟩
    rcases wanted_of_accepted hv ha with hwant | ⟨hm,hbelow⟩
    · exact hf.before j hj hwant
    · obtain ⟨k,hk,hwant⟩ := hr scfg hc he j (by have := hf.lt; omega) hm hbelow
      exact hf.before k (by omega) hwant
  · exact (h.of_takesNone hc he (hnone hc he hw)).1 i hi
  · exact (h.of_takesNone hc he (hnone hc he hw)).2 hneg

/-- And with one that comes first it is not. -/
theorem roundedLast_of_selectsSoundly (h : Exit sh caps request e) (hs : SelectsSoundly sh caps e)
    {scfg : PdbsConfig} (hc : sh.config=some scfg) (he : sh.dpm.outputEnabled=true) :
    RoundedLast scfg (profileVoltage sh) caps := by
  intro i hi hm hbelow
  by_contra hnot
  simp only [not_exists,not_and] at hnot
  have hacc : accepted scfg (profileVoltage sh) (caps.object i)=true := Bool.or_eq_true _ _ ▸ .inr hm
  obtain ⟨k,hk,hfirst⟩ := exists_first (P := fun j => accepted scfg (profileVoltage sh)
    (caps.object j)=true) hi hacc
  have hunwanted : ¬Wanted scfg (profileVoltage sh) (caps.object k) := by
    rcases Nat.lt_or_eq_of_le hk with hlt | rfl
    · exact hnot k hlt
    · rintro (⟨hfixed,-⟩ | ⟨-,-,hmax⟩)
      · have hpps := (matchesPps_iff.mp hm).1
        rw [isPps_of_isFixed hfixed] at hpps
        cases hpps
      · omega
  have hpps : isPps (caps.object k)=true := by
    rcases wanted_of_accepted (profileVoltage_mod sh) hfirst.holds with hwant | ⟨hm',-⟩
    · exact absurd hwant hunwanted
    · exact (matchesPps_iff.mp hm').1
  have hsel : Selected scfg caps e k := h.of_takes ⟨hc,he,hfirst⟩
  by_cases hw : WantsNone scfg (profileVoltage sh) caps
  · rcases lt_or_ge (dpmGetRangeFixedPdoIndex caps scfg) 0 with hneg | hnonneg
    · have hfalse := (hs.fallback scfg hc he hw hneg).2
      rw [hsel.returned] at hfalse
      cases hfalse
    · -- The object in range is a fixed supply.
      have hm := hs.ranged scfg _ hc he hw (Int.toNat_of_nonneg hnonneg).symm
      have hpos := hsel.position.symm.trans hm.position
      have hfixed := (inRange_spec (dpmGetRangeFixedPdoIndex_found hnonneg).2).1
      rw [← Nat.succ_injective hpos] at hfixed
      rw [isPps_of_isFixed hfixed] at hpps
      cases hpps
  · simp only [WantsNone,not_forall,not_not] at hw
    obtain ⟨j,hj,hwant⟩ := hw
    obtain ⟨l,-,hl⟩ := exists_first (P := fun j => Wanted scfg (profileVoltage sh) (caps.object j))
      hj hwant
    have hm := hs.wanted scfg l hc he hl
    have hpos := hsel.position.symm.trans hm.position
    rw [← Nat.succ_injective hpos] at hl
    exact hunwanted hl.holds

end Selection

/-- A call selects soundly exactly when rounding puts no programmable supply
before what is wanted. -/
theorem selects_soundly_iff (caps : Option MsgPtr) (request : MsgPtr) (sh : Shared)
    (hpos : 0 < (evaluated caps sh).numobjGet) :
    SelectsSoundly sh (evaluated caps sh) (answer caps request sh) ↔
      ∀ scfg, sh.config=some scfg → sh.dpm.outputEnabled=true →
        RoundedLast scfg (profileVoltage sh) (evaluated caps sh) := by
  have hexit := answer_exit caps request sh
  constructor
  · exact fun hs scfg hc he => roundedLast_of_selectsSoundly hexit hs hc he
  · exact selectsSoundly_of_roundedLast hexit hpos

/-! ## A source with a programmable supply -/

/-- Capabilities of a source that offers 5 V at 3 A, fixed and programmable
from 3.3 V to 5.9 V. -/
def programmableSource : PdMsg where
  hdr := pdSpecrev30 ||| pdMsgtypeSourceCapabilities ||| pdNumobj 2
  obj := fun i => if i.val=0 then 0x0001912C else 0xC076213C

/-- Settings to evaluate it with: a stored configuration for one ampere, and
the profile for 9 V. -/
def configured (v : ℕ) : Shared :=
  {initial.shared with config := some ⟨pdbsConfigStatusValid,0,v,100,0,0⟩,profile := 1}

/-- The call that evaluates it. -/
def evaluateProgrammable (v : ℕ) : Evaluation :=
  answer (some ⟨0,programmableSource⟩) ⟨1,⟨0,fun _ => 0⟩⟩ (configured v)

/-- At 5.5 V the programmable supply is a sound choice. -/
theorem selects_soundly_iff_programmable :
    SelectsSoundly (configured 5500) programmableSource (evaluateProgrammable 5500) := by
  refine (selects_soundly_iff (some ⟨0,programmableSource⟩) _ (configured 5500) (by decide)).mpr ?_
  intro scfg hc _ i hi hm hbelow
  cases hc
  have hi2 : i < 2 := hi
  interval_cases i
  · exact absurd hm (by decide)
  · exact absurd hbelow (by decide)

/-- At 5.95 V it is out of reach, and chosen all the same. -/
theorem selects_unsoundly_by_rounding :
    ¬SelectsSoundly (configured 5950) programmableSource (evaluateProgrammable 5950) := by
  intro h
  have hnone : WantsNone ⟨pdbsConfigStatusValid,0,5950,100,0,0⟩ (profileVoltage (configured 5950))
      programmableSource := by
    intro j hj
    have hj2 : j < 2 := hj
    interval_cases j <;> decide
  have hmatch := (h.fallback _ rfl rfl hnone (by decide)).2
  exact absurd hmatch (by decide)

end UsbPdFirmware.CapabilitySelection
