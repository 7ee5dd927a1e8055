import UsbPdFirmware.BitFields
import UsbPdFirmware.PrintedConfig

/-!
# Printed source capabilities

What `get_source_cap` prints, read back: the text is split into the sections of
the objects, and the fields of each are put together again. So the text tells
every bit of an object that has a meaning, and no other.
-/

namespace UsbPdFirmware.PrintedSource

open PdMessage DevicePolicy ConsoleText ShellCommands PrintedConfig DecimalDigits MaximalRuns BitFields

/-! ## Hexadecimal digits -/

/-- The value of a hexadecimal digit in upper case. -/
def hexDigit (c : Char) : ℕ := if c.isDigit then c.toNat-48 else c.toNat-55

/-- The number that hexadecimal digits form. -/
def hexValue (digits : List Char) : ℕ := digits.foldl (fun n c => 16*n+hexDigit c) 0

section Hexadecimal

theorem hexDigit_digitChar {n : ℕ} (h : n < 16) : hexDigit n.digitChar.toUpper=n := by
  interval_cases n <;> rfl

theorem hexValue_append (digits : List Char) (c : Char) :
    hexValue (digits++[c])=16*hexValue digits+hexDigit c := by
  rw [hexValue,List.foldl_append]
  rfl

/-- Digits that are printed are read. -/
theorem hexValue_toDigits (n : ℕ) : hexValue ((Nat.toDigits 16 n).map Char.toUpper)=n := by
  induction n using Nat.strongRecOn with
  | ind n ih =>
    by_cases hlt : n < 16
    · rw [Nat.toDigits_of_lt_base hlt]
      have hdigit := hexDigit_digitChar hlt
      simpa [hexValue] using hdigit
    · have hmod : n%16 < 16 := Nat.mod_lt _ (by decide)
      rw [Nat.toDigits_of_base_le (by decide) (by omega),List.map_append,List.map_singleton,
        hexValue_append,ih (n/16) (by omega),hexDigit_digitChar hmod]
      omega

/-- Zeros in front do not count. -/
theorem hexValue_zeros (k : ℕ) (digits : List Char) :
    hexValue (List.replicate k '0'++digits)=hexValue digits := by
  induction k with
  | zero => rfl
  | succ k ih =>
    rw [List.replicate_succ,List.cons_append]
    exact ih

end Hexadecimal

/-! ## Sections -/

section Sections

variable {α : Type} (starts : α → Bool)

/-- The sections of a list, each from an element that starts one, and what
comes before them. -/
def sections : List α → List α × List (List α)
  | [] => ([],[])
  | a::s =>
    if starts a then ([],(a::(sections s).1)::(sections s).2) else (a::(sections s).1,(sections s).2)

variable {starts}

/-- Elements that start nothing belong to what comes before. -/
theorem sections_body {body : List α} (h : ∀ a ∈ body, starts a=false) (s : List α) :
    sections starts (body++s)=(body++(sections starts s).1,(sections starts s).2) := by
  induction body with
  | nil => rfl
  | cons a body ih =>
    have ha := h a List.mem_cons_self
    rw [List.cons_append,sections,if_neg (by simp [ha]),ih fun b hb => h b (List.mem_cons_of_mem a hb)]
    rfl

/-- Sections that are put together are found again. -/
theorem sections_flatten {parts : List (List α)}
    (h : ∀ part ∈ parts, ∃ a body, part=a::body ∧ starts a=true ∧ ∀ b ∈ body, starts b=false) :
    sections starts parts.flatten=([],parts) := by
  induction parts with
  | nil => rfl
  | cons part parts ih =>
    obtain ⟨a,body,rfl,ha,hbody⟩ := h part List.mem_cons_self
    have hrest := ih fun part hpart => h part (List.mem_cons_of_mem _ hpart)
    rw [List.flatten_cons,List.cons_append,sections,if_pos ha,sections_body hbody,hrest,List.append_nil]

end Sections

/-! ## Fields of source objects -/

/-- A field of a source object that is printed. -/
structure SourceField where
  /-- The label, without its colon. -/
  name : String
  /-- Its place in the object. -/
  shift : ℕ
  width : ℕ
  /-- Steps to a unit, their size in hundredths and the unit's symbol. A field
  without a unit is printed when it is not zero. -/
  unit : Option (ℕ × ℕ × String)

namespace SourceField

variable (f : SourceField)

/-- Its bits. -/
def mask : BitVec 32 := BitVec.ofNat 32 (2^f.width-1) <<< f.shift

/-- Its value. -/
def get (pdo : BitVec 32) : ℕ := fieldGet f.shift f.mask pdo

/-- The words of its line. -/
def words (n : ℕ) : List Word :=
  match f.unit with
  | none => [f.name.toList++[':'],padded 0 n]
  | some (per,step,symbol) => quantityWords f.name (n/per) 2 (step*(n%per)) symbol

/-- Its lines: one or none. -/
def lines (pdo : BitVec 32) : List (List Word) :=
  if f.unit.isSome ∨ f.get pdo≠0 then [f.words (f.get pdo)] else []

/-- The value that a number on its line stands for. -/
def value (n : ℕ) : ℕ :=
  match f.unit with
  | none => n
  | some (_,step,_) => n/step

/-- Steps and units agree, and so does the place. -/
structure Sound : Prop where
  /-- The place is inside the object. -/
  inside : f.shift+f.width ≤ 32
  /-- A unit has a hundred hundredths. -/
  hundred : ∀ per step symbol, f.unit=some (per,step,symbol) → per*step=100

end SourceField

/-- The fields of `print_src_fixed_pdo`. -/
def fixedFields : List SourceField :=
  [⟨"\tdual_role_pwr",29,1,none⟩,⟨"\tusb_suspend",28,1,none⟩,⟨"\tunconstrained_pwr",27,1,none⟩,
    ⟨"\tusb_comms",26,1,none⟩,⟨"\tdual_role_data",25,1,none⟩,⟨"\tunchunked_ext_msg",24,1,none⟩,
    ⟨"\tpeak_i",20,2,none⟩,⟨"\tv",10,10,some (20,5,"V")⟩,⟨"\ti",0,10,some (100,1,"A")⟩]

/-- The fields of `print_src_pps_apdo`. -/
def ppsFields : List SourceField :=
  [⟨"\tvmin",8,8,some (10,10,"V")⟩,⟨"\tvmax",17,8,some (10,10,"V")⟩,⟨"\ti",0,7,some (20,5,"A")⟩]

theorem sound_count {name : String} {shift width : ℕ} (h : shift+width ≤ 32) :
    SourceField.Sound ⟨name,shift,width,none⟩ := ⟨h,fun _ _ _ hu => by cases hu⟩

theorem sound_amount {name symbol : String} {shift width per step : ℕ} (h : shift+width ≤ 32)
    (hh : per*step=100) : SourceField.Sound ⟨name,shift,width,some (per,step,symbol)⟩ :=
  ⟨h,fun _ _ _ hu => by cases hu; exact hh⟩

theorem sound_fixed : ∀ f ∈ fixedFields, f.Sound := by
  simp only [fixedFields,List.forall_mem_cons]
  refine ⟨sound_count (by decide),sound_count (by decide),sound_count (by decide),
    sound_count (by decide),sound_count (by decide),sound_count (by decide),sound_count (by decide),
    sound_amount (by decide) rfl,sound_amount (by decide) rfl,by simp⟩

theorem sound_pps : ∀ f ∈ ppsFields, f.Sound := by
  simp only [ppsFields,List.forall_mem_cons]
  exact ⟨sound_amount (by decide) rfl,sound_amount (by decide) rfl,sound_amount (by decide) rfl,by simp⟩

/-! ## Reading them back -/

/-- Put together the fields of some lines. -/
def readFields (fs : List SourceField) (lines : List (List Word)) : BitVec 32 :=
  fs.foldr (fun f word => fieldSet f.shift f.mask (f.value (fieldValue (f.name++":") lines)) ||| word) 0

/-- All the bits of some fields. -/
def allBits (fs : List SourceField) : BitVec 32 := fs.foldr (fun f word => f.mask ||| word) 0

section Fields

variable {f : SourceField} {fs : List SourceField} {pdo : BitVec 32} {lines : List (List Word)} {n : ℕ}

theorem name_ne {g : SourceField} (h : g.name≠f.name) : g.name.toList++[':']≠(f.name++":").toList := by
  intro heq
  rw [String.toList_append] at heq
  exact h (String.toList_inj.mp (List.append_cancel_right heq))

theorem value_padded (width n : ℕ) : DecimalDigits.value (padded width n)=n := by
  unfold DecimalDigits.value
  rw [List.filter_eq_self.mpr fun c => isDigit_of_mem_padded,ofDigitChars_padded]

/-- The number on a line. -/
theorem value_words (hs : f.Sound) : f.value (fieldValue (f.name++":") (f.words n::lines))=n := by
  have hlabel : f.name.toList++[':']=(f.name++":").toList := by
    rw [String.toList_append]
    rfl
  unfold SourceField.value SourceField.words
  cases hu : f.unit with
  | none =>
    dsimp only
    unfold fieldValue
    rw [field_of_eq hlabel]
    exact value_padded 0 n
  | some u =>
    obtain ⟨per,step,symbol⟩ := u
    have hhundred := hs.hundred per step symbol hu
    have hper : 0 < per := Nat.pos_of_ne_zero fun h => by simp [h] at hhundred
    have hstep : 0 < step := Nat.pos_of_ne_zero fun h => by simp [h] at hhundred
    have hfraction : step*(n%per) < 10^2 := by
      have hmod := Nat.mul_lt_mul_of_pos_left (Nat.mod_lt n hper) hstep
      rw [Nat.mul_comm step per,hhundred] at hmod
      exact hmod
    dsimp only
    rw [fieldValue_quantity hlabel (by decide) hfraction]
    have hall : n/per*10^2+step*(n%per)=step*n := calc
      n/per*10^2+step*(n%per)=step*(per*(n/per)+n%per) := by
        have hten : (10 : ℕ)^2=per*step := hhundred.symm
        rw [hten]
        ring
      _=step*n := by rw [Nat.div_add_mod]
    rw [hall,Nat.mul_div_cancel_left n hstep]

/-- Other lines. -/
theorem fieldValue_skip {g : SourceField} (h : g.name≠f.name) :
    fieldValue (f.name++":") (g.lines pdo++lines)=fieldValue (f.name++":") lines := by
  unfold SourceField.lines
  split
  · unfold SourceField.words
    cases g.unit <;> exact fieldValue_of_ne (name_ne h)
  · rfl

theorem fieldValue_absent (h : f.name ∉ fs.map SourceField.name) :
    fieldValue (f.name++":") (fs.flatMap (·.lines pdo))=0 := by
  induction fs with
  | nil => rfl
  | cons g fs ih =>
    rw [List.map_cons,List.mem_cons,not_or] at h
    rw [List.flatMap_cons,fieldValue_skip (Ne.symm h.1)]
    exact ih h.2

/-- Every field has the value that is read from its line, or has none. -/
theorem value_lines (hn : (fs.map SourceField.name).Nodup) (hf : f ∈ fs) (hs : f.Sound) :
    f.value (fieldValue (f.name++":") (fs.flatMap (·.lines pdo)))=f.get pdo := by
  induction fs with
  | nil => exact absurd hf List.not_mem_nil
  | cons g fs ih =>
    obtain ⟨hg,hn⟩ := List.nodup_cons.mp hn
    rw [List.flatMap_cons]
    rcases List.mem_cons.mp hf with rfl | hf
    · by_cases hprinted : f.unit.isSome ∨ f.get pdo≠0
      · rw [SourceField.lines,if_pos hprinted]
        exact value_words hs
      · rw [SourceField.lines,if_neg hprinted,List.nil_append,fieldValue_absent hg]
        obtain ⟨hunit,hzero⟩ := not_or.mp hprinted
        have hnone : f.unit=none := Option.not_isSome_iff_eq_none.mp hunit
        rw [SourceField.value,hnone]
        exact (not_ne_iff.mp hzero).symm
    · have hne : g.name≠f.name := fun h => hg (h ▸ List.mem_map_of_mem hf)
      rw [fieldValue_skip hne]
      exact ih hn hf

/-- So the fields are put together. -/
theorem readFields_lines (hn : (fs.map SourceField.name).Nodup) (hs : ∀ f ∈ fs, f.Sound) :
    readFields fs (fs.flatMap (·.lines pdo))=pdo &&& allBits fs := by
  have hpart (gs : List SourceField) (hgs : ∀ f ∈ gs, f ∈ fs) :
      readFields gs (fs.flatMap (·.lines pdo))=pdo &&& allBits gs := by
    induction gs with
    | nil => exact BitVec.and_zero.symm
    | cons g gs ih =>
      have hg := hgs g List.mem_cons_self
      have hvalue : g.value (fieldValue (g.name++":") (fs.flatMap (·.lines pdo)))=g.get pdo :=
        value_lines hn hg (hs g hg)
      have hplace : fieldSet g.shift g.mask (g.get pdo)=pdo &&& g.mask := fieldSet_fieldGet rfl pdo
      have hrest := ih fun f hf => hgs f (List.mem_cons_of_mem g hf)
      rw [readFields,List.foldr_cons,hvalue,hplace]
      change (pdo &&& g.mask) ||| readFields gs _=pdo &&& (g.mask ||| allBits gs)
      rw [hrest,← BitVec.and_or_distrib_left]
  exact hpart fs fun _ hf => hf

end Fields

/-! ## What is printed -/

/-- The words of the line that names an object. -/
def headWords (index : ℕ) (kind : Word) : List Word := ["PDO".toList,padded 0 index++[':'],kind]

/-- The lines of an object. -/
def objectLines (pdo : BitVec 32) (index : ℕ) : List (List Word) :=
  if isFixed pdo then headWords index "fixed".toList::fixedFields.flatMap (·.lines pdo)
  else if isPps pdo then headWords index "pps".toList::ppsFields.flatMap (·.lines pdo)
  else [headWords index (hexadecimal 8 pdo.toNat).toList]

section Printed

variable {f : SourceField} {pdo : BitVec 32} {index n : ℕ}

/-- A field without a unit. -/
theorem printField_eq {name label : String} {shift width : ℕ} {mask : BitVec 32}
    (hm : mask=SourceField.mask ⟨label,shift,width,none⟩) (hlabel : label="\t"++name) :
    (printField pdo shift mask name).toList=
      unlines (SourceField.lines ⟨label,shift,width,none⟩ pdo) := by
  have hcolon : ": ".toList=[':',' '] := rfl
  have hend : "\r\n".toList=['\r','\n'] := rfl
  unfold printField SourceField.lines SourceField.get SourceField.words
  rw [hm]
  dsimp only
  by_cases hzero : fieldGet shift (SourceField.mask ⟨label,shift,width,none⟩) pdo=0
  · rw [if_neg (not_not.mpr hzero),if_neg (by simp [hzero])]
    rfl
  · rw [if_pos hzero,if_pos (.inr hzero),← hlabel]
    simp only [String.toList_append,decimal_toList,hcolon,hend]
    simp [unlines,unwords]

/-- A field with one. -/
theorem quantity_lines {name symbol : String} {per step n : ℕ} (hu : f.unit=some (per,step,symbol))
    (hn : n=f.get pdo) (hname : name=f.name) :
    (quantity name (n/per) 2 (step*(n%per)) symbol).toList=unlines (f.lines pdo) := by
  have hprinted : f.unit.isSome=true ∨ f.get pdo≠0 := by
    rw [hu]
    exact .inl rfl
  rw [quantity_eq,SourceField.lines,if_pos hprinted,SourceField.words,hu,hn,hname]

theorem printSrcFixedPdo_eq : (printSrcFixedPdo pdo).toList=
    "fixed\r\n".toList++unlines (fixedFields.flatMap (·.lines pdo)) := by
  have hpower : (printField pdo 29 0x20000000 "dual_role_pwr").toList=
      unlines (SourceField.lines ⟨"\tdual_role_pwr",29,1,none⟩ pdo) := printField_eq (by decide) (by decide)
  have hsuspend : (printField pdo 28 0x10000000 "usb_suspend").toList=
      unlines (SourceField.lines ⟨"\tusb_suspend",28,1,none⟩ pdo) := printField_eq (by decide) (by decide)
  have hunconstrained : (printField pdo 27 0x08000000 "unconstrained_pwr").toList=
      unlines (SourceField.lines ⟨"\tunconstrained_pwr",27,1,none⟩ pdo) := printField_eq (by decide) (by decide)
  have hcomms : (printField pdo 26 0x04000000 "usb_comms").toList=
      unlines (SourceField.lines ⟨"\tusb_comms",26,1,none⟩ pdo) := printField_eq (by decide) (by decide)
  have hdata : (printField pdo 25 0x02000000 "dual_role_data").toList=
      unlines (SourceField.lines ⟨"\tdual_role_data",25,1,none⟩ pdo) := printField_eq (by decide) (by decide)
  have hunchunked : (printField pdo 24 0x01000000 "unchunked_ext_msg").toList=
      unlines (SourceField.lines ⟨"\tunchunked_ext_msg",24,1,none⟩ pdo) := printField_eq (by decide) (by decide)
  have hpeak : (printField pdo 20 0x00300000 "peak_i").toList=
      unlines (SourceField.lines ⟨"\tpeak_i",20,2,none⟩ pdo) := printField_eq (by decide) (by decide)
  have hvoltage : (quantity "\tv" (pdPdoSrcFixedVoltageGet pdo/20) 2
      (5*(pdPdoSrcFixedVoltageGet pdo%20)) "V").toList=
      unlines (SourceField.lines ⟨"\tv",10,10,some (20,5,"V")⟩ pdo) := quantity_lines rfl rfl rfl
  have hcurrent : (quantity "\ti" (pdPdoSrcFixedCurrentGet pdo/100) 2 (pdPdoSrcFixedCurrentGet pdo%100)
      "A").toList=unlines (SourceField.lines ⟨"\ti",0,10,some (100,1,"A")⟩ pdo) := by
    rw [← Nat.one_mul (pdPdoSrcFixedCurrentGet pdo%100)]
    exact quantity_lines rfl rfl rfl
  have hnil : unlines []=[] := rfl
  unfold printSrcFixedPdo fixedFields
  dsimp only
  simp only [String.toList_append,List.flatMap_cons,List.flatMap_nil,unlines_append,List.append_assoc]
  rw [hpower,hsuspend,hunconstrained,hcomms,hdata,hunchunked,hpeak,hvoltage,hcurrent,hnil,
    List.append_nil]

theorem printSrcPpsApdo_eq : (printSrcPpsApdo pdo).toList=
    "pps\r\n".toList++unlines (ppsFields.flatMap (·.lines pdo)) := by
  have hmin : (quantity "\tvmin" (pdApdoPpsMinVoltageGet pdo/10) 2
      (10*(pdApdoPpsMinVoltageGet pdo%10)) "V").toList=
      unlines (SourceField.lines ⟨"\tvmin",8,8,some (10,10,"V")⟩ pdo) := quantity_lines rfl rfl rfl
  have hmax : (quantity "\tvmax" (pdApdoPpsMaxVoltageGet pdo/10) 2
      (10*(pdApdoPpsMaxVoltageGet pdo%10)) "V").toList=
      unlines (SourceField.lines ⟨"\tvmax",17,8,some (10,10,"V")⟩ pdo) := quantity_lines rfl rfl rfl
  have hcurrent : (quantity "\ti" (pdApdoPpsCurrentGet pdo/20) 2
      (5*(pdApdoPpsCurrentGet pdo%20)) "A").toList=
      unlines (SourceField.lines ⟨"\ti",0,7,some (20,5,"A")⟩ pdo) := quantity_lines rfl rfl rfl
  have hnil : unlines []=[] := rfl
  unfold printSrcPpsApdo ppsFields
  dsimp only
  simp only [String.toList_append,List.flatMap_cons,List.flatMap_nil,unlines_append,List.append_assoc]
  rw [hmin,hmax,hcurrent,hnil,List.append_nil]

/-- The line that names an object. -/
theorem unlines_head (kind : Word) (lines : List (List Word)) :
    unlines (headWords index kind::lines)=
      "PDO ".toList++padded 0 index++": ".toList++kind++['\r','\n']++unlines lines := by
  have hspace : "PDO ".toList="PDO".toList++[' '] := rfl
  have hcolon : ": ".toList=[':',' '] := rfl
  rw [unlines_cons,hspace,hcolon]
  simp [headWords,unwords]

theorem printSrcPdo_eq (hi : index≠0) :
    (printSrcPdo pdo index).toList=unlines (objectLines pdo index) := by
  unfold printSrcPdo objectLines
  rw [if_pos hi,String.toList_append,String.toList_append,String.toList_append,decimal_toList]
  by_cases hfixed : isFixed pdo=true
  · rw [if_pos hfixed,if_pos hfixed,printSrcFixedPdo_eq,unlines_head]
    simp
  · rw [if_neg hfixed,if_neg hfixed]
    by_cases hpps : isPps pdo=true
    · rw [if_pos hpps,if_pos hpps,printSrcPpsApdo_eq,unlines_head]
      simp
    · rw [if_neg hpps,if_neg hpps,unlines_head,String.toList_append]
      simp [unlines]

theorem unlines_flatMap {α : Type} (l : List α) (g : α → List (List Word)) :
    unlines (l.flatMap g)=l.flatMap fun a => unlines (g a) := by
  induction l with
  | nil => rfl
  | cons a l ih => rw [List.flatMap_cons,unlines_append,ih,List.flatMap_cons]

theorem printCapabilities_eq (caps : PdMsg) : (printCapabilities caps).toList=
    unlines ((List.range caps.numobjGet).flatMap fun i => objectLines (caps.object i) (i+1)) := by
  rw [printCapabilities,String.toList_join,List.flatMap_map,unlines_flatMap]
  exact congrArg (List.flatMap · _) (funext fun i => printSrcPdo_eq (Nat.succ_ne_zero i))

end Printed

/-! ## What is read -/

/-- Digits are made from numbers below sixteen. -/
theorem exists_digit {n : ℕ} {c : Char} (h : c ∈ Nat.toDigits 16 n) : ∃ d < 16, c=d.digitChar := by
  induction n using Nat.strongRecOn with
  | ind n ih =>
    by_cases hlt : n < 16
    · rw [Nat.toDigits_of_lt_base hlt] at h
      exact ⟨n,hlt,List.mem_singleton.mp h⟩
    · rw [Nat.toDigits_of_base_le (by decide) (by omega)] at h
      rcases List.mem_append.mp h with h | h
      · exact ih (n/16) (by omega) h
      · exact ⟨n%16,Nat.mod_lt _ (by decide),List.mem_singleton.mp h⟩

theorem hexadecimal_toList (width n : ℕ) : (hexadecimal width n).toList=
    List.replicate (width-((Nat.toDigits 16 n).map Char.toUpper).length) '0'++
      (Nat.toDigits 16 n).map Char.toUpper := String.toList_ofList

/-- They are in upper case. -/
theorem exists_hexDigit {width n : ℕ} {c : Char} (h : c ∈ (hexadecimal width n).toList) :
    ∃ d < 16, c=d.digitChar.toUpper := by
  rw [hexadecimal_toList] at h
  rcases List.mem_append.mp h with h | h
  · exact ⟨0,by decide,List.eq_of_mem_replicate h⟩
  · obtain ⟨c',hc,rfl⟩ := List.mem_map.mp h
    obtain ⟨d,hd,rfl⟩ := exists_digit hc
    exact ⟨d,hd,rfl⟩

/-- Words of hexadecimal digits. -/
theorem isWord_hexadecimal (width n : ℕ) : IsWord (hexadecimal width n).toList := by
  refine ⟨?_,fun c hc => ?_⟩
  · rw [hexadecimal_toList]
    exact List.append_ne_nil_of_right_ne_nil _ (by simp)
  · obtain ⟨d,hd,rfl⟩ := exists_hexDigit hc
    interval_cases d <;> decide

/-- A word with another character is none of them. -/
theorem hexadecimal_ne {width n : ℕ} {w : Word} {c : Char} (hc : c ∈ w)
    (h : ∀ d < 16, c≠d.digitChar.toUpper) : (hexadecimal width n).toList≠w := by
  intro heq
  obtain ⟨d,hd,hcd⟩ := exists_hexDigit (heq ▸ hc)
  exact h d hd hcd

/-- The words for the kinds of supplies are no hexadecimal digits. -/
theorem hexadecimal_kind (width n : ℕ) : (hexadecimal width n).toList≠"fixed".toList ∧
    (hexadecimal width n).toList≠"pps".toList ∧ (hexadecimal width n).toList≠"typec_virtual".toList :=
  ⟨hexadecimal_ne (c := 'x') (by decide) (by decide),hexadecimal_ne (c := 'p') (by decide) (by decide),
    hexadecimal_ne (c := 't') (by decide) (by decide)⟩

theorem hexValue_hexadecimal (width n : ℕ) : hexValue (hexadecimal width n).toList=n := by
  rw [hexadecimal_toList,hexValue_zeros,hexValue_toDigits]

theorem isWord_padded (width n : ℕ) : IsWord (padded width n) := by
  refine ⟨?_,fun c hc => isDigit_ends (isDigit_of_mem_padded hc)⟩
  exact List.append_ne_nil_of_right_ne_nil _ Nat.toDigits_ne_nil

theorem isWord_append {v w : Word} (hv : IsWord v) (hw : IsWord w) : IsWord (v++w) := by
  refine ⟨List.append_ne_nil_of_left_ne_nil hv.1 _,fun c hc => ?_⟩
  rcases List.mem_append.mp hc with hc | hc
  · exact hv.2 c hc
  · exact hw.2 c hc

/-- The labels and symbols of a field are words, and no object begins there. -/
def Readable (f : SourceField) : Prop :=
  IsWord (f.name.toList++[':']) ∧ f.name.toList++[':']≠"PDO".toList ∧
    ∀ u ∈ f.unit, IsWord u.2.2.toList

theorem readable_fields : ∀ f ∈ fixedFields++ppsFields, Readable f := by
  unfold Readable
  decide

/-- A line on which an object begins. -/
def startsObject (line : List Word) : Bool := line.head?==some "PDO".toList

section Lines

variable {f : SourceField} {pdo : BitVec 32} {index n : ℕ} {line : List Word}

theorem isLine_words (h : Readable f) : IsLine (f.words n) := by
  obtain ⟨hname,-,hsymbol⟩ := h
  unfold SourceField.words
  cases hu : f.unit with
  | none =>
    refine ⟨List.cons_ne_nil _ _,?_⟩
    simp only [List.forall_mem_cons]
    exact ⟨hname,isWord_padded 0 n,by simp⟩
  | some u => exact isLine_quantity hname (hsymbol u hu)

theorem startsObject_words (h : Readable f) : startsObject (f.words n)=false := by
  obtain ⟨-,hname,-⟩ := h
  unfold SourceField.words startsObject
  cases f.unit <;> simpa [quantityWords] using hname

theorem isLine_head {kind : Word} (h : IsWord kind) : IsLine (headWords index kind) := by
  refine ⟨List.cons_ne_nil _ _,?_⟩
  simp only [headWords,List.forall_mem_cons]
  exact ⟨by decide,isWord_append (isWord_padded 0 index) (by decide),h,by simp⟩

/-- The lines of some fields. -/
theorem mem_fieldLines {fs : List SourceField} (h : line ∈ fs.flatMap (·.lines pdo)) :
    ∃ f ∈ fs, line=f.words (f.get pdo) := by
  obtain ⟨f,hf,hline⟩ := List.mem_flatMap.mp h
  unfold SourceField.lines at hline
  simp only [List.mem_ite_nil_right,List.mem_singleton] at hline
  exact ⟨f,hf,hline.2⟩

theorem readable_fixed {f : SourceField} (h : f ∈ fixedFields) : Readable f :=
  readable_fields f (List.mem_append_left _ h)

theorem readable_pps {f : SourceField} (h : f ∈ ppsFields) : Readable f :=
  readable_fields f (List.mem_append_right _ h)

/-- An object has a head and the lines of its fields, whatever it is. -/
theorem objectLines_eq (pdo : BitVec 32) (index : ℕ) : ∃ (kind : Word) (fs : List SourceField),
    objectLines pdo index=headWords index kind::fs.flatMap (·.lines pdo) ∧ IsWord kind ∧
      kind≠"typec_virtual".toList ∧ ∀ f ∈ fs, Readable f := by
  unfold objectLines
  split
  · exact ⟨_,fixedFields,rfl,by decide,by decide,fun _ => readable_fixed⟩
  · split
    · exact ⟨_,ppsFields,rfl,by decide,by decide,fun _ => readable_pps⟩
    · obtain ⟨-,-,hkind⟩ := hexadecimal_kind 8 pdo.toNat
      exact ⟨_,[],rfl,isWord_hexadecimal 8 _,hkind,fun _ hf => absurd hf List.not_mem_nil⟩

/-- The lines of an object are lines of words. -/
theorem isLine_objectLines (pdo : BitVec 32) (index : ℕ) : ∀ line ∈ objectLines pdo index, IsLine line := by
  obtain ⟨kind,fs,heq,hkind,-,hfs⟩ := objectLines_eq pdo index
  intro line hline
  rw [heq] at hline
  rcases List.mem_cons.mp hline with rfl | hline
  · exact isLine_head hkind
  · obtain ⟨f,hf,rfl⟩ := mem_fieldLines hline
    exact isLine_words (hfs f hf)

/-- Only the first begins an object. -/
theorem objectLines_section (pdo : BitVec 32) (index : ℕ) : ∃ head body,
    objectLines pdo index=head::body ∧ startsObject head=true ∧
      ∀ line ∈ body, startsObject line=false := by
  obtain ⟨kind,fs,heq,-,-,hfs⟩ := objectLines_eq pdo index
  refine ⟨_,_,heq,beq_self_eq_true _,fun line hline => ?_⟩
  obtain ⟨f,hf,rfl⟩ := mem_fieldLines hline
  exact startsObject_words (hfs f hf)

end Lines

/-- The object that a section describes. -/
def readObject (lines : List (List Word)) : BitVec 32 :=
  let kind := (lines.head?.bind fun head => head[2]?).getD []
  if kind="fixed".toList then pdPdoTypeFixed ||| readFields fixedFields lines.tail
  else if kind="pps".toList then pdPdoTypeAugmented ||| pdApdoTypePps ||| readFields ppsFields lines.tail
  else BitVec.ofNat 32 (hexValue kind)

/-- The objects that a text describes. -/
def readCapabilities (text : String) : List (BitVec 32) :=
  (sections startsObject (readLines text)).2.map readObject

/-- An object without its reserved bits: bits 23 and 22 of a fixed supply, and
bits 27 to 25, 16 and 7 of a programmable one. -/
def shown (pdo : BitVec 32) : BitVec 32 :=
  if isFixed pdo then pdo &&& 0xFF3FFFFF
  else if isPps pdo then pdo &&& 0xF1FEFF7F
  else pdo

section Read

variable {pdo pdo' : BitVec 32}

/-- The type and the fields are put together. -/
theorem typed_bits {mask type bits : BitVec 32} (h : pdo &&& mask=type) :
    type ||| (pdo &&& bits)=pdo &&& (mask ||| bits) := by
  rw [← h,BitVec.and_or_distrib_left]

theorem isFixed_iff : isFixed pdo=true ↔ pdo &&& pdPdoType=pdPdoTypeFixed := beq_iff_eq

theorem isPps_iff : isPps pdo=true ↔
    pdo &&& pdPdoType=pdPdoTypeAugmented ∧ pdo &&& pdApdoType=pdApdoTypePps := by
  simp only [isPps,Bool.and_eq_true,beq_iff_eq]

theorem readObject_head (index : ℕ) (kind : Word) (lines : List (List Word)) :
    readObject (headWords index kind::lines)=
      if kind="fixed".toList then pdPdoTypeFixed ||| readFields fixedFields lines
      else if kind="pps".toList then pdPdoTypeAugmented ||| pdApdoTypePps ||| readFields ppsFields lines
      else BitVec.ofNat 32 (hexValue kind) := rfl

theorem readObject_lines (pdo : BitVec 32) (index : ℕ) : readObject (objectLines pdo index)=shown pdo := by
  unfold objectLines shown
  by_cases hfixed : isFixed pdo=true
  · have hfields : readFields fixedFields (fixedFields.flatMap (·.lines pdo))=pdo &&& allBits fixedFields :=
      readFields_lines (by decide) sound_fixed
    rw [if_pos hfixed,if_pos hfixed,readObject_head,if_pos rfl,hfields,typed_bits (isFixed_iff.mp hfixed)]
    rfl
  · rw [if_neg hfixed,if_neg hfixed]
    by_cases hpps : isPps pdo=true
    · have hfields : readFields ppsFields (ppsFields.flatMap (·.lines pdo))=pdo &&& allBits ppsFields :=
        readFields_lines (by decide) sound_pps
      obtain ⟨htype,hapdo⟩ := isPps_iff.mp hpps
      rw [if_pos hpps,if_pos hpps,readObject_head,if_neg (by decide),if_pos rfl,hfields,BitVec.or_assoc,typed_bits hapdo,typed_bits htype]
      rfl
    · obtain ⟨hneFixed,hnePps,-⟩ := hexadecimal_kind 8 pdo.toNat
      rw [if_neg hpps,if_neg hpps,readObject_head,if_neg hneFixed,if_neg hnePps,hexValue_hexadecimal,BitVec.ofNat_toNat,BitVec.setWidth_eq]

theorem readLines_capabilities (caps : PdMsg) : readLines (printCapabilities caps)=
    (List.range caps.numobjGet).flatMap fun i => objectLines (caps.object i) (i+1) := by
  unfold readLines
  rw [printCapabilities_eq]
  refine read_unlines fun line hline => ?_
  obtain ⟨i,-,hline⟩ := List.mem_flatMap.mp hline
  exact isLine_objectLines _ _ line hline

/-- The objects of a message without their reserved bits. -/
def shownObjects (caps : PdMsg) : List (BitVec 32) :=
  (List.range caps.numobjGet).map fun i => shown (caps.object i)

/-- They are what is read. -/
theorem readCapabilities_print (caps : PdMsg) :
    readCapabilities (printCapabilities caps)=shownObjects caps := by
  unfold readCapabilities
  rw [readLines_capabilities,List.flatMap_def,sections_flatten,List.map_map]
  · exact List.map_congr_left fun i _ => readObject_lines _ _
  · intro part hpart
    obtain ⟨i,-,rfl⟩ := List.mem_map.mp hpart
    exact objectLines_section _ _

theorem isFixed_shown : isFixed (shown pdo)=isFixed pdo := by
  unfold shown
  split
  · unfold isFixed
    rw [and_and_right (by decide)]
  · split
    · unfold isFixed
      rw [and_and_right (by decide)]
    · rfl

theorem isPps_shown : isPps (shown pdo)=isPps pdo := by
  unfold shown
  split
  · unfold isPps
    rw [and_and_right (by decide)]
    -- A fixed supply is no programmable one, whatever its other bits.
    simp_all [isFixed,pdPdoTypeFixed,pdPdoTypeAugmented]
  · split
    · unfold isPps
      rw [and_and_right (by decide),and_and_right (by decide)]
    · rfl

/-- Fields in the same bits have the same lines. -/
theorem fieldLines_congr {fs : List SourceField} {bits : BitVec 32} (h : pdo &&& bits=pdo' &&& bits)
    (hfs : ∀ f ∈ fs, bits &&& f.mask=f.mask) : fs.flatMap (·.lines pdo)=fs.flatMap (·.lines pdo') := by
  rw [List.flatMap_def,List.flatMap_def]
  refine congrArg List.flatten (List.map_congr_left fun f hf => ?_)
  have hbits : pdo &&& f.mask=pdo' &&& f.mask := by
    rw [← and_and_right (hfs f hf),h,and_and_right (hfs f hf)]
  have hget : f.get pdo=f.get pdo' := fieldGet_congr hbits f.shift
  unfold SourceField.lines
  rw [hget]

/-- Objects that differ in reserved bits only are printed alike. -/
theorem objectLines_congr (h : shown pdo=shown pdo') (index : ℕ) :
    objectLines pdo index=objectLines pdo' index := by
  have hfixed' : isFixed pdo=isFixed pdo' := by rw [← isFixed_shown,h,isFixed_shown]
  have hpps' : isPps pdo=isPps pdo' := by rw [← isPps_shown,h,isPps_shown]
  unfold objectLines
  unfold shown at h
  rw [← hfixed',← hpps'] at h ⊢
  by_cases hfixed : isFixed pdo=true
  · rw [if_pos hfixed,if_pos hfixed] at h ⊢
    rw [fieldLines_congr h (by decide)]
  · rw [if_neg hfixed,if_neg hfixed] at h ⊢
    by_cases hpps : isPps pdo=true
    · rw [if_pos hpps,if_pos hpps] at h ⊢
      rw [fieldLines_congr h (by decide)]
    · rw [if_neg hpps,if_neg hpps] at h ⊢
      rw [h]

end Read

/-! ## The report -/

/-- What a report tells about a source: its objects, or its advertisement. -/
inductive Known where
  | objects (l : List (BitVec 32))
  | current (i : TypecCurrent)

/-- What is known about a source. -/
def known (seen : Surroundings) : Known :=
  match seen.capabilities with
  | some caps => .objects (shownObjects caps)
  | none => .current seen.typecCurrent

section Report

variable {caps caps' : PdMsg} {i : TypecCurrent}

/-- Messages with the same shown objects have the same report. -/
theorem printCapabilities_congr (h : shownObjects caps=shownObjects caps') :
    printCapabilities caps=printCapabilities caps' := by
  have hlength : caps.numobjGet=caps'.numobjGet := by
    have := congrArg List.length h
    simpa [shownObjects] using this
  unfold shownObjects at h
  rw [← hlength,List.map_inj_left] at h
  rw [← String.toList_inj,printCapabilities_eq,printCapabilities_eq,← hlength,List.flatMap_def,
    List.flatMap_def]
  exact congrArg (unlines ·.flatten) (List.map_congr_left fun k hk => objectLines_congr (h k hk) _)

/-- The first line of a report of objects. -/
theorem head_capabilities (caps : PdMsg) (line : List Word)
    (h : (readLines (printCapabilities caps)).head?=some line) :
    ∃ kind, line=headWords 1 kind ∧ kind≠"typec_virtual".toList := by
  rw [readLines_capabilities] at h
  cases hn : caps.numobjGet with
  | zero => simp [hn] at h
  | succ n =>
    obtain ⟨kind,fs,heq,-,hkind,-⟩ := objectLines_eq (caps.object 0) 1
    rw [hn,List.range_succ_eq_map,List.flatMap_cons,heq] at h
    exact ⟨kind,(Option.some.inj h).symm,hkind⟩

/-- The report of an advertisement has a line of its own. -/
theorem head_current (i : TypecCurrent) : (readLines (printTypecCurrent i)).head?=
    some (if i=.none then ["No".toList,"Source_Capabilities".toList] else headWords 1 "typec_virtual".toList) := by
  cases i <;> decide

theorem capabilities_ne_current (caps : PdMsg) (i : TypecCurrent) :
    printCapabilities caps≠printTypecCurrent i := by
  intro heq
  obtain ⟨kind,hline,hkind⟩ := head_capabilities caps _ (heq ▸ head_current i)
  unfold headWords at hline
  split at hline
  · exact absurd (List.cons.inj hline).1 (by decide)
  · simp only [List.cons.injEq,and_true,true_and] at hline
    exact hkind hline.symm

theorem printTypecCurrent_injective : Function.Injective printTypecCurrent := by
  intro i j h
  cases i <;> cases j <;> first | rfl | exact absurd h (by decide)

/-- A report tells exactly what is known. -/
theorem report_determines (seen seen' : Surroundings) (sh : Shell) :
    (cmdGetSourceCap seen [] sh).text=(cmdGetSourceCap seen' [] sh).text ↔ known seen=known seen' := by
  change (match seen.capabilities with
    | some caps => printCapabilities caps
    | none => printTypecCurrent seen.typecCurrent)=(match seen'.capabilities with
    | some caps => printCapabilities caps
    | none => printTypecCurrent seen'.typecCurrent) ↔ _
  unfold known
  cases seen.capabilities with
  | some caps =>
    cases seen'.capabilities with
    | some caps' =>
      refine ⟨fun h => ?_,fun h => printCapabilities_congr (Known.objects.inj h)⟩
      have hread := congrArg readCapabilities h
      dsimp only at hread
      rw [readCapabilities_print,readCapabilities_print] at hread
      exact congrArg Known.objects hread
    | none => exact ⟨fun h => absurd h (capabilities_ne_current _ _),fun h => by cases h⟩
  | none =>
    cases seen'.capabilities with
    | some caps => exact ⟨fun h => absurd h.symm (capabilities_ne_current _ _),fun h => by cases h⟩
    | none => exact ⟨fun h => congrArg Known.current (printTypecCurrent_injective h),
        fun h => congrArg printTypecCurrent (Known.current.inj h)⟩

end Report

end UsbPdFirmware.PrintedSource
