import UsbPdFirmware.CapabilitySelection

/-!
# What a Request asks for

The voltage and the current of the Request that a call builds, against the
recorded voltage, the range of a programmable supply and the current the
configuration needs. Each agrees under a condition on the object that is
taken.
-/

namespace UsbPdFirmware.RequestedPower

open PdMessage DevicePolicy FirmwareState FirmwareSystem RequestedObject RequestFields
open CapabilitySelection

/-! ## Reading the answer -/

/-- The object at the position of a Request. -/
def requestedObject (caps request : PdMsg) : BitVec 32 := caps.object (pdRdoObjposGet request-1)

/-- The voltage a Request asks for, in millivolts. -/
def askedVoltage (caps request : PdMsg) : ℕ :=
  if isPps (requestedObject caps request) then pdPrv2Mv (programmedVoltage request)
  else pdPdv2Mv (pdPdoSrcFixedVoltageGet (requestedObject caps request))

/-- The object offers the current the configuration needs at that voltage, and
the Request asks for it, in the units of either kind of supply. -/
def Sufficient (scfg : PdbsConfig) (caps request : PdMsg) : Prop :=
  let need := dpmGetCurrent scfg (askedVoltage caps request)
  if isPps (requestedObject caps request) then
    need ≤ 5*pdApdoPpsCurrentGet (requestedObject caps request) ∧
      pdCa2Pai need ≤ programmedCurrent request
  else need ≤ pdPdoSrcFixedCurrentGet (requestedObject caps request) ∧ need ≤ operatingCurrent request

/-- The voltage at which an object is taken. -/
def takenVoltage (scfg : PdbsConfig) (pdo : BitVec 32) : ℕ :=
  if isPps pdo then pdPrv2Mv (pdMv2Prv scfg.v) else pdPdv2Mv (pdPdoSrcFixedVoltageGet pdo)

section Answers

variable {sh : Shared} {caps request : PdMsg} {e : Evaluation} {scfg : PdbsConfig} {i : ℕ}

/-- The position of a match leads back to its object. -/
theorem requestedObject_eq (h : Selected scfg caps e i) :
    requestedObject caps e.request=caps.object i := by
  unfold requestedObject
  rw [h.position,Nat.add_sub_cancel]

/-- A fixed supply is taken at the profile voltage, with no current. -/
theorem taken_fixed (h : Exit sh caps request e) (ht : Takes sh caps scfg i)
    (hf : isFixed (caps.object i)=true) :
    pdPdv2Mv (pdPdoSrcFixedVoltageGet (caps.object i))=profileVoltage sh ∧
      e=profileAnswer sh request scfg i := by
  rcases h.eq_of_takes ht with ⟨hm,he⟩ | ⟨hm,-⟩
  · exact ⟨((matchesProfile_iff (profileVoltage_mod sh)).mp hm).2,he⟩
  · have hp := (matchesPps_iff.mp hm).1
    rw [isPps_of_isFixed hf] at hp
    cases hp

/-- A programmable one is taken at the configured voltage. -/
theorem taken_programmable (h : Exit sh caps request e) (ht : Takes sh caps scfg i)
    (hp : isPps (caps.object i)=true) :
    matchesPps scfg 0 (caps.object i)=true ∧ e=programmableAnswer sh request scfg i := by
  rcases h.eq_of_takes ht with ⟨hm,-⟩ | hm
  · rw [isPps_of_isFixed (isFixed_of_matchesProfile hm)] at hp
    cases hp
  · exact hm

/-- What is taken is of one of the two kinds. -/
theorem taken_kind (ht : Takes sh caps scfg i) :
    isFixed (caps.object i)=true ∨ isPps (caps.object i)=true := by
  rcases wanted_of_accepted (profileVoltage_mod sh) ht.first.holds with (⟨hf,-⟩ | ⟨hp,-⟩) | ⟨hm,-⟩
  · exact .inl hf
  · exact .inr hp
  · exact .inr (matchesPps_iff.mp hm).1

/-- The Request asks for the voltage at which the object is taken. -/
theorem askedVoltage_taken (h : Exit sh caps request e) (ht : Takes sh caps scfg i) :
    askedVoltage caps e.request=takenVoltage scfg (caps.object i) := by
  unfold askedVoltage takenVoltage
  rw [requestedObject_eq (h.of_takes ht)]
  by_cases hp : isPps (caps.object i)=true
  · obtain ⟨hm,rfl⟩ := taken_programmable h ht hp
    rw [if_pos hp,if_pos hp,(programmableAnswer_layout hm).voltage]
  · rw [if_neg hp,if_neg hp]

/-- A match takes an object, or finds one in the voltage range. -/
theorem match_cases (h : Exit sh caps request e) (he : sh.dpm.outputEnabled=true)
    (hm : e.returned=true) :
    (∃ scfg i, Takes sh caps scfg i) ∨
      ∃ scfg i, sh.config=some scfg ∧ i < caps.numobjGet ∧ inRange scfg (caps.object i)=true ∧
        e=rangedAnswer sh caps request scfg i := by
  cases h with
  | profile ht _ => exact .inl ⟨_,_,ht⟩
  | programmable ht _ => exact .inl ⟨_,_,ht⟩
  | ranged hc _ _ _ hlt hr => exact .inr ⟨_,_,hc,hlt,hr,rfl⟩
  | fallback _ =>
    rw [he] at hm
    cases hm

/-- A match in the range is for a fixed supply within its current. -/
theorem selected_ranged (hlt : i < caps.numobjGet) (hr : inRange scfg (caps.object i)=true) :
    Selected scfg caps (rangedAnswer sh caps request scfg i) i :=
  selected_fixed hlt (inRange_spec hr).1 (inRange_spec hr).2

/-- The Request asks for the voltage of that supply. -/
theorem askedVoltage_ranged (hlt : i < caps.numobjGet) (hr : inRange scfg (caps.object i)=true) :
    askedVoltage caps (rangedAnswer sh caps request scfg i).request=
      pdPdv2Mv (pdPdoSrcFixedVoltageGet (caps.object i)) := by
  unfold askedVoltage
  rw [requestedObject_eq (selected_ranged hlt hr),isPps_of_isFixed (inRange_spec hr).1]
  rfl

/-- An object that is taken suffices only for no current. -/
theorem sufficient_taken (h : Exit sh caps request e) (ht : Takes sh caps scfg i) :
    Sufficient scfg caps e.request ↔ dpmGetCurrent scfg (takenVoltage scfg (caps.object i))=0 := by
  unfold Sufficient
  rw [askedVoltage_taken h ht,requestedObject_eq (h.of_takes ht)]
  generalize dpmGetCurrent scfg (takenVoltage scfg (caps.object i))=need
  rcases taken_kind ht with hf | hp
  · obtain ⟨-,rfl⟩ := taken_fixed h ht hf
    have hlayout : FixedLayout (profileAnswer sh request scfg i).request scfg.giveback 0 :=
      fixedLayout_buildRequest scfg _ (by decide)
    rw [isPps_of_isFixed hf,hlayout.operating]
    constructor
    · exact fun h => Nat.le_zero.mp h.2
    · rintro rfl
      exact ⟨Nat.zero_le _,Nat.le_refl 0⟩
  · obtain ⟨hm,rfl⟩ := taken_programmable h ht hp
    have hunits : pdCa2Pai need ≤ 0 ↔ need=0 := by
      unfold pdCa2Pai
      omega
    rw [hp,(programmableAnswer_layout hm).current]
    constructor
    · exact fun h => hunits.mp h.2
    · rintro rfl
      exact ⟨Nat.zero_le _,Nat.le_refl 0⟩

/-- One in the range suffices. -/
theorem sufficient_ranged (hlt : i < caps.numobjGet) (hr : inRange scfg (caps.object i)=true) :
    Sufficient scfg caps (rangedAnswer sh caps request scfg i).request := by
  obtain ⟨hf,hcur⟩ := inRange_spec hr
  have hfield : pdPdoSrcFixedCurrentGet (caps.object i) ≤ 1023 := fieldGet_le 0 0x3FF _
  have hlayout : FixedLayout (rangedAnswer sh caps request scfg i).request scfg.giveback
      (dpmGetCurrent scfg (pdPdv2Mv (pdPdoSrcFixedVoltageGet (caps.object i)))) :=
    fixedLayout_buildRequest scfg _ (by omega)
  unfold Sufficient
  rw [askedVoltage_ranged hlt hr,requestedObject_eq (selected_ranged hlt hr),isPps_of_isFixed hf,
    hlayout.operating]
  exact ⟨hcur,Nat.le_refl _⟩

end Answers

/-! ## The recorded voltage -/

/-- A match records the voltage that its Request asks for. -/
def RecordsVoltage (sh : Shared) (caps : PdMsg) (e : Evaluation) : Prop :=
  sh.dpm.outputEnabled=true → e.returned=true →
    e.requestedVoltage=askedVoltage caps e.request

/-- It does, unless a fixed supply is taken at a profile voltage other than the
configured one. -/
theorem records_voltage_iff (caps : Option MsgPtr) (request : MsgPtr) (sh : Shared) :
    RecordsVoltage sh (evaluated caps sh) (answer caps request sh) ↔
      ∀ scfg i, Takes sh (evaluated caps sh) scfg i → isFixed ((evaluated caps sh).object i)=true →
        pdMv2Pdv scfg.v=pdMv2Pdv (profileVoltage sh) := by
  have hexit := answer_exit caps request sh
  generalize evaluated caps sh=stored at hexit ⊢
  generalize answer caps request sh=e at hexit ⊢
  have hunits (v : ℕ) : pdPdv2Mv (pdMv2Pdv v)/50=pdMv2Pdv v := Nat.mul_div_cancel _ (by omega)
  constructor
  · intro hrec scfg i ht hf
    obtain ⟨hv,he⟩ := taken_fixed hexit ht hf
    have heq := hrec ht.enabled (hexit.of_takes ht).returned
    rw [askedVoltage_taken hexit ht,takenVoltage,isPps_of_isFixed hf,if_neg Bool.false_ne_true] at heq
    have hrecorded : pdPdv2Mv (pdMv2Pdv scfg.v)=profileVoltage sh := by
      rw [← hv,← heq,he]
      rfl
    rw [← hunits,hrecorded]
    rfl
  · intro hsame henabled hmatch
    rcases match_cases hexit henabled hmatch with ⟨scfg,i,ht⟩ | ⟨scfg,i,-,hlt,hr,he⟩
    · rw [askedVoltage_taken hexit ht,takenVoltage]
      rcases taken_kind ht with hf | hp
      · obtain ⟨hv,he⟩ := taken_fixed hexit ht hf
        have hdiv := hunits (profileVoltage sh)
        have hmod := profileVoltage_mod sh
        rw [isPps_of_isFixed hf,he]
        change pdPdv2Mv (pdMv2Pdv scfg.v)=pdPdv2Mv (pdPdoSrcFixedVoltageGet (stored.object i))
        rw [hsame scfg i ht hf,hv]
        unfold pdPdv2Mv pdMv2Pdv
        omega
      · obtain ⟨hm,he⟩ := taken_programmable hexit ht hp
        rw [if_pos hp,he]
        rfl
    · rw [he,askedVoltage_ranged hlt hr]
      rfl

/-- Capabilities of a source that offers 5 V and 9 V at 3 A. -/
def nineVoltSource : PdMsg where
  hdr := pdSpecrev30 ||| pdMsgtypeSourceCapabilities ||| pdNumobj 2
  obj := fun i => if i.val=0 then 0x0001912C else 0x0002D12C

/-- With 5 V stored and the profile for 9 V, the Request is for 9 V and 5 V
are recorded. -/
theorem records_configured_voltage : ¬RecordsVoltage (configured 5000) nineVoltSource
    (answer (some ⟨0,nineVoltSource⟩) ⟨1,⟨0,fun _ => 0⟩⟩ (configured 5000)) := by
  intro h
  exact absurd (h rfl (by decide)) (by decide)

/-! ## The current -/

/-- A match is for a supply that delivers the configured power, and asks for
it. -/
def DeliversPower (sh : Shared) (caps : PdMsg) (e : Evaluation) : Prop :=
  ∀ scfg, sh.config=some scfg → sh.dpm.outputEnabled=true → e.returned=true →
    Sufficient scfg caps e.request

/-- It is, unless the configuration needs a current from an object that is
taken: that one is taken without. -/
theorem delivers_power_iff (caps : Option MsgPtr) (request : MsgPtr) (sh : Shared) :
    DeliversPower sh (evaluated caps sh) (answer caps request sh) ↔
      ∀ scfg i, Takes sh (evaluated caps sh) scfg i →
        dpmGetCurrent scfg (takenVoltage scfg ((evaluated caps sh).object i))=0 := by
  have hexit := answer_exit caps request sh
  generalize evaluated caps sh=stored at hexit ⊢
  generalize answer caps request sh=e at hexit ⊢
  constructor
  · intro hdel scfg i ht
    exact (sufficient_taken hexit ht).mp
      (hdel scfg ht.config ht.enabled (hexit.of_takes ht).returned)
  · intro hzero scfg hc henabled hmatch
    rcases match_cases hexit henabled hmatch with ⟨scfg',i,ht⟩ | ⟨scfg',i,hc',hlt,hr,he⟩
    · cases hc.symm.trans ht.config
      exact (sufficient_taken hexit ht).mpr (hzero scfg i ht)
    · cases hc.symm.trans hc'
      rw [he]
      exact sufficient_ranged hlt hr

/-- One ampere is configured, and the Request is for none. -/
theorem delivers_no_current : ¬DeliversPower (configured 9000) nineVoltSource
    (answer (some ⟨0,nineVoltSource⟩) ⟨1,⟨0,fun _ => 0⟩⟩ (configured 9000)) := by
  intro h
  have hsuff := h _ rfl rfl (by decide)
  unfold Sufficient at hsuff
  exact absurd hsuff (by decide)

/-! ## The voltage of a programmable supply -/

/-- A match with a programmable supply asks for a voltage in its range. -/
def StaysInRange (sh : Shared) (caps : PdMsg) (e : Evaluation) : Prop :=
  ∀ i < caps.numobjGet, sh.config≠none → sh.dpm.outputEnabled=true → e.returned=true →
    pdRdoObjposGet e.request=i+1 → isPps (caps.object i)=true →
    pdPav2Mv (pdApdoPpsMinVoltageGet (caps.object i)) ≤ pdPrv2Mv (programmedVoltage e.request) ∧
      pdPrv2Mv (programmedVoltage e.request) ≤ pdPav2Mv (pdApdoPpsMaxVoltageGet (caps.object i))

/-- It does, unless the configured voltage is 20 mV or more above the upper
end, but less than one unit of it. -/
theorem stays_in_range_iff (caps : Option MsgPtr) (request : MsgPtr) (sh : Shared) :
    StaysInRange sh (evaluated caps sh) (answer caps request sh) ↔
      ∀ scfg i, Takes sh (evaluated caps sh) scfg i → isPps ((evaluated caps sh).object i)=true →
        ¬(pdApdoPpsMaxVoltageGet ((evaluated caps sh).object i)=pdMv2Pav scfg.v ∧ 20 ≤ scfg.v%100) := by
  have hexit := answer_exit caps request sh
  generalize evaluated caps sh=stored at hexit ⊢
  generalize answer caps request sh=e at hexit ⊢
  constructor
  · rintro hstay scfg i ht hp ⟨hmax,hrest⟩
    have hsel := hexit.of_takes ht
    have hconfig : sh.config≠none := by rw [ht.config]; exact Option.some_ne_none _
    obtain ⟨-,hhigh⟩ := hstay i ht.first.lt hconfig ht.enabled hsel.returned hsel.position hp
    obtain ⟨hm,rfl⟩ := taken_programmable hexit ht hp
    rw [(programmableAnswer_layout hm).voltage,hmax] at hhigh
    unfold pdPrv2Mv pdMv2Prv pdPav2Mv pdMv2Pav at hhigh
    omega
  · intro hbelow i hi hconfig henabled hmatch hpos hp
    rcases match_cases hexit henabled hmatch with ⟨scfg,j,ht⟩ | ⟨scfg,j,-,hlt,hr,he⟩
    · have hij : i=j := Nat.succ_injective (hpos.symm.trans (hexit.of_takes ht).position)
      rw [← hij] at ht
      obtain ⟨hm,rfl⟩ := taken_programmable hexit ht hp
      obtain ⟨-,hhigh,hlow⟩ := matchesPps_iff.mp hm
      have hnot := hbelow scfg i ht hp
      rw [(programmableAnswer_layout hm).voltage]
      unfold pdPrv2Mv pdMv2Prv pdPav2Mv
      unfold pdMv2Pav at hnot
      omega
    · have hselj : Selected scfg stored e j := by
        rw [he]
        exact selected_ranged hlt hr
      have hij : i=j := Nat.succ_injective (hpos.symm.trans hselj.position)
      rw [hij,isPps_of_isFixed (inRange_spec hr).1] at hp
      cases hp

/-- With 5.95 V configured, 5.94 V are asked of a supply that ends at 5.9 V. -/
theorem stays_below_configured : ¬StaysInRange (configured 5950) programmableSource
    (evaluateProgrammable 5950) := by
  intro h
  exact absurd (h 1 (by decide) (by decide) rfl (by decide) (by decide) (by decide)) (by decide)

end UsbPdFirmware.RequestedPower
