import UsbPdFirmware.MaximalRuns
import UsbPdFirmware.ShellCommands

/-!
# Splitting a line into words

The tokenizer of `shell.c` on the bytes of the line buffer. `_strtok` ends each
word where it stands and keeps a pointer behind it; the loop of `pdbs_shell`
gathers the pointers to the arguments. Pointers are indexes in the buffer, and
`NULL` is none.
-/

namespace UsbPdFirmware.LineTokens

open MaximalRuns ConfigStore ShellCommands

/-! ## Strings in memory -/

/-- The bytes of the line buffer. -/
abbrev Buffer : Type := List UInt8

/-- The byte at a pointer. -/
def deref (mem : Buffer) (p : ℕ) : UInt8 := mem.getD p 0

/-- The string at a pointer, up to its NUL. -/
def stringAt (mem : Buffer) (p : ℕ) : List UInt8 := (mem.drop p).takeWhile (· ≠ 0)

/-- `strspn`: how many of the first characters are among those given. -/
def strspn (mem : Buffer) (p : ℕ) (accept : List UInt8) : ℕ :=
  ((mem.drop p).takeWhile accept.contains).length

/-- `strpbrk`: where the first of the characters given is, before the NUL. -/
def strpbrk (mem : Buffer) (p : ℕ) (accept : List UInt8) : Option ℕ :=
  let q := p+((mem.drop p).takeWhile fun c => c≠0 && !accept.contains c).length
  if accept.contains (deref mem q) then some q else none

/-- A NUL-terminated string is at a pointer. -/
structure IsString (mem : Buffer) (p : ℕ) (s : List UInt8) : Prop where
  /-- It has no NUL of its own. -/
  noNul : (0 : UInt8) ∉ s
  /-- It is in memory, and a NUL follows. -/
  held : ∃ tail, mem.drop p=s++0::tail

section Strings

variable {mem : Buffer} {p q : ℕ} {c : UInt8} {s u w lead rest accept : List UInt8}

theorem IsString.stringAt_eq (h : IsString mem p s) : stringAt mem p=s := by
  obtain ⟨tail,htail⟩ := h.held
  have hne : ∀ a ∈ s, decide (a≠0)=true := fun a ha => decide_eq_true fun h0 => h.noNul (h0 ▸ ha)
  unfold stringAt
  rw [htail,List.takeWhile_append_of_pos hne,List.takeWhile_cons_of_neg (by decide),List.append_nil]

/-- A string further on. -/
theorem IsString.drop (h : IsString mem p (u++s)) : IsString mem (p+u.length) s where
  noNul hmem := h.noNul (List.mem_append_right u hmem)
  held := by
    obtain ⟨tail,htail⟩ := h.held
    refine ⟨tail,?_⟩
    rw [← List.drop_drop,htail,List.append_assoc,List.drop_left]

/-- The byte at a string is its first, or the NUL. -/
theorem IsString.deref_eq (h : IsString mem p s) : deref mem p=s.headD 0 := by
  obtain ⟨tail,htail⟩ := h.held
  have hget := congrArg List.head? htail
  rw [List.head?_drop] at hget
  unfold deref
  rw [List.getD_eq_getElem?_getD,hget]
  cases s <;> rfl

theorem IsString.deref_cons (h : IsString mem p (c::s)) : deref mem p=c := h.deref_eq

theorem IsString.deref_nil (h : IsString mem p []) : deref mem p=0 := h.deref_eq

/-- The end of the string may come in place of a separator. -/
theorem takeWhile_string {f : UInt8 → Bool} (hu : ∀ a ∈ u, f a=true) (hrest : ∀ a ∈ rest.head?, f a=false)
    (h0 : f 0=false) (tail : List UInt8) : ((u++rest)++0::tail).takeWhile f=u := by
  rw [List.append_assoc,List.takeWhile_append_of_pos hu]
  cases rest with
  | nil => rw [List.nil_append,List.takeWhile_cons_of_neg (by rw [h0]; decide),List.append_nil]
  | cons a rest =>
    have ha := hrest a rfl
    rw [List.cons_append,List.takeWhile_cons_of_neg (by rw [ha]; decide),List.append_nil]

theorem IsString.strspn_eq (h : IsString mem p (lead++rest)) (hlead : ∀ a ∈ lead, accept.contains a=true)
    (hrest : ∀ a ∈ rest.head?, accept.contains a=false) (h0 : accept.contains 0=false) :
    strspn mem p accept=lead.length := by
  obtain ⟨tail,htail⟩ := h.held
  unfold strspn
  rw [htail,takeWhile_string hlead hrest h0]

/-- `strpbrk` stops where the string does, or at a separator. -/
theorem IsString.strpbrk_eq (h : IsString mem p (w++rest)) (hw : ∀ a ∈ w, accept.contains a=false)
    (hstop : Stops accept.contains rest) (h0 : accept.contains 0=false) :
    strpbrk mem p accept=if rest=[] then none else some (p+w.length) := by
  obtain ⟨tail,htail⟩ := h.held
  have hrest : ∀ a ∈ rest.head?, (decide (a≠0) && !accept.contains a)=false := by
    intro a ha
    cases rest with
    | nil => cases ha
    | cons b rest =>
      obtain rfl : b=a := Option.some_inj.mp ha
      rw [show accept.contains b=true from hstop]
      exact Bool.and_false _
  have hin : ∀ a ∈ w, (decide (a≠0) && !accept.contains a)=true := by
    intro a ha
    have hne : a≠0 := fun hz => h.noNul (hz ▸ List.mem_append_left rest ha)
    rw [hw a ha,decide_eq_true hne]
    rfl
  have hlength : ((mem.drop p).takeWhile fun c => decide (c≠0) && !accept.contains c)=w := by
    rw [htail]
    exact takeWhile_string hin hrest rfl tail
  have hnext := h.drop
  unfold strpbrk
  simp only [hlength]
  cases rest with
  | nil => rw [hnext.deref_nil,h0,if_pos rfl]; rfl
  | cons b rest =>
    have hb : accept.contains b=true := hstop
    rw [hnext.deref_cons,if_pos hb,if_neg (List.cons_ne_nil b rest)]

/-- Writing behind the end of a string leaves it. -/
theorem IsString.set_after (h : IsString mem p s) (hq : p+s.length < q) : IsString (mem.set q 0) p s where
  noNul := h.noNul
  held := by
    obtain ⟨tail,htail⟩ := h.held
    obtain ⟨k,rfl⟩ := Nat.exists_eq_add_of_lt hq
    have hset : (mem.set (p+s.length+k+1) 0).drop p=(mem.drop p).set (s.length+(k+1)) 0 := by
      rw [List.set_drop,← Nat.add_assoc,← Nat.add_assoc]
    refine ⟨tail.set k 0,?_⟩
    rw [hset,htail,List.set_append_right _ _ (Nat.le_add_right _ _),Nat.add_sub_cancel_left]
    rfl

/-- Ending it early leaves two strings. -/
theorem IsString.set_at (h : IsString mem p (w++c::rest)) :
    IsString (mem.set (p+w.length) 0) p w ∧ IsString (mem.set (p+w.length) 0) (p+w.length+1) rest := by
  obtain ⟨tail,htail⟩ := h.held
  have hset : (mem.set (p+w.length) 0).drop p=w++0::(rest++0::tail) := by
    rw [← List.set_drop,htail,List.append_assoc,List.set_append_right _ _ (Nat.le_refl _),Nat.sub_self]
    rfl
  have hnoNul := h.noNul
  simp only [List.mem_append,List.mem_cons,not_or] at hnoNul
  refine ⟨⟨hnoNul.1,_,hset⟩,⟨hnoNul.2.2,tail,?_⟩⟩
  rw [Nat.add_assoc,← List.drop_drop,hset,← List.drop_drop,List.drop_left]
  rfl

end Strings

/-! ## The tokenizer -/

/-- What `_strtok` leaves. -/
structure Strtok where
  /-- The token returned. -/
  token : Option ℕ
  /-- `*saveptr`. -/
  saveptr : Option ℕ
  /-- The line. -/
  mem : Buffer

/-- `_strtok`. -/
def strtok (str : Option ℕ) (delim : List UInt8) (saveptr : Option ℕ) (mem : Buffer) :
    Strtok :=
  match str.or saveptr with
  | none => ⟨none,none,mem⟩
  | some start =>
    let token := start+strspn mem start delim
    let stop := strpbrk mem token delim
    let mem := match stop with
      | some q => mem.set q 0
      | none => mem
    ⟨if deref mem token≠0 then some token else none,stop.map (·+1),mem⟩

/-- Space and tab, `" \t"`. -/
def blanks : List UInt8 := [32,9]

/-- The variables of `pdbs_shell` while it splits a line. -/
structure Tokens where
  /-- The first token, unless there are too many. -/
  cmd : Option ℕ
  /-- Number of arguments. -/
  n : ℕ
  /-- The array `args`. -/
  args : ℕ → Option ℕ
  /-- The indexes it was written at. -/
  written : List ℕ
  /-- The pointer kept between calls. -/
  tokp : Option ℕ
  /-- The line. -/
  mem : Buffer
  /-- Too many arguments were reported. -/
  tooMany : Bool

/-- Write an entry of `args`. -/
def Tokens.store (t : Tokens) (i : ℕ) (p : Option ℕ) : Tokens :=
  {t with args := Function.update t.args i p,written := i::t.written}

/-- The loop that gathers arguments. -/
def gather (t : Tokens) : Tokens :=
  let r := strtok none blanks t.tokp t.mem
  let t' := {t with tokp := r.saveptr,mem := r.mem}
  match r.token with
  | none => t'
  | some lp =>
    if pdbsShellMaxArguments ≤ t.n then {t' with cmd := none,tooMany := true}
    else gather {t'.store t.n (some lp) with n := t.n+1}
termination_by pdbsShellMaxArguments-t.n

/-- Split the line at the beginning of the buffer. What `tokp` and `args` hold
before does not matter. -/
def tokenize (tokp : Option ℕ) (args : ℕ → Option ℕ) (mem : Buffer) : Tokens :=
  let r := strtok (some 0) blanks tokp mem
  let t := gather ⟨r.token,0,args,[],r.saveptr,r.mem,false⟩
  t.store t.n none

/-! ## Running a line -/

/-- A byte as a character of a word. -/
def toWord (s : List UInt8) : Word := s.map fun c => Char.ofNat c.toNat

/-- A call of a command's function. -/
structure Call where
  /-- The command. -/
  entry : PdbsShellCmd
  /-- Number of arguments. -/
  argc : ℕ
  /-- The array of arguments. -/
  argv : ℕ → Option ℕ

/-- The calls that `cmdexec` makes down the table, and whether it fails. -/
def cmdexecCalls (name : Word) (argc : ℕ) (argv : ℕ → Option ℕ) : List PdbsShellCmd → List Call × Bool
  | [] => ([],true)
  | scp::rest =>
    if scp.cmd.toList==name then ([⟨scp,argc,argv⟩],false) else cmdexecCalls name argc argv rest

/-- What the loop of `pdbs_shell` does with a line that was split. -/
structure Dispatch where
  /-- The commands it calls, in their order. -/
  calls : List Call
  /-- What it prints itself. -/
  text : String

/-- The words that a function finds in `argv`. -/
def argWords (mem : Buffer) (argc : ℕ) (argv : ℕ → Option ℕ) : List Word :=
  (List.range argc).map fun i => toWord ((argv i).elim [] (stringAt mem))

/-- The rest of the loop. -/
def dispatch (seen : Surroundings) (t : Tokens) (sh : Shell) : Dispatch :=
  match t.cmd with
  | none => ⟨[],if t.tooMany then "too many arguments\r\n" else ""⟩
  | some cmd =>
    let name := toWord (stringAt t.mem cmd)
    if name="help".toList then ⟨[],(help seen (argWords t.mem t.n t.args) sh).text⟩
    else match cmdexecCalls name t.n t.args (commands seen) with
      | (calls,false) => ⟨calls,""⟩
      | (calls,true) => ⟨calls,String.ofList name++" ?\r\n"⟩

/-- Print, then make the calls. -/
def Dispatch.perform (d : Dispatch) (mem : Buffer) (sh : Shell) : Reply :=
  d.calls.foldl (fun r call =>
    let r' := call.entry.func (argWords mem call.argc call.argv) r.shell
    ⟨r.text++r'.text,r.signals++r'.signals,r'.shell⟩) (say d.text sh)

/-! ## One token -/

/-- What is left of the line begins at the pointer kept. Without one there is
nothing left. -/
def Remains (mem : Buffer) (saveptr : Option ℕ) (s : List UInt8) : Prop :=
  match saveptr with
  | some p => IsString mem p s
  | none => s=[]

/-- A string that ends before what is left. -/
def Held (mem : Buffer) (saveptr : Option ℕ) (a : ℕ) (u : List UInt8) : Prop :=
  IsString mem a u ∧ ∀ p ∈ saveptr, a+u.length < p

section Token

variable {mem : Buffer} {saveptr : Option ℕ} {p : ℕ} {s lead w rest : List UInt8}

/-- A separator of the shell. -/
abbrev blank : UInt8 → Bool := blanks.contains

/-- Nothing is left when there are only separators. -/
theorem strtok_none (h : Remains mem saveptr s) (hs : ∀ a ∈ s, blank a=true) :
    strtok none blanks saveptr mem=⟨none,none,mem⟩ := by
  cases saveptr with
  | none => rfl
  | some p =>
    have hstring : IsString mem p (s++[]) := by
      rw [List.append_nil]
      exact h
    have hspan := hstring.strspn_eq hs (fun a ha => by cases ha) rfl
    have hend : IsString mem (p+s.length) ([]++[]) := hstring.drop
    have hbrk : strpbrk mem (p+s.length) blanks=none :=
      hend.strpbrk_eq (fun a ha => by cases ha) trivial rfl
    unfold strtok
    simp only [Option.none_or,hspan,hbrk,Option.map_none,hend.deref_nil]
    rfl

/-- Else the first word is taken, and ended where it stands. -/
theorem strtok_word (h : IsString mem p (lead++(w++rest))) (hlead : ∀ a ∈ lead, blank a=true)
    (hne : w≠[]) (hw : ∀ a ∈ w, blank a=false) (hstop : Stops blank rest) :
    ∃ saveptr' mem', strtok none blanks (some p) mem=⟨some (p+lead.length),saveptr',mem'⟩ ∧
      Held mem' saveptr' (p+lead.length) w ∧ Remains mem' saveptr' rest.tail ∧
      ∀ a u, Held mem (some p) a u → Held mem' saveptr' a u := by
  have hnext : IsString mem (p+lead.length) (w++rest) := h.drop
  obtain ⟨b,w,rfl⟩ := List.exists_cons_of_ne_nil hne
  have hb : blank b=false := hw b List.mem_cons_self
  have hb0 : b≠0 := fun h0 => hnext.noNul (h0 ▸ List.mem_cons_self)
  have hspan := h.strspn_eq hlead (fun a ha => by cases ha; exact hb) rfl
  have hbrk := hnext.strpbrk_eq hw hstop rfl
  cases rest with
  | nil =>
    rw [if_pos rfl] at hbrk
    rw [List.append_nil] at hnext
    refine ⟨none,mem,?_,⟨hnext,nofun⟩,rfl,fun a u hu => ⟨hu.1,nofun⟩⟩
    unfold strtok
    simp only [Option.none_or,hspan,hbrk,Option.map_none,hnext.deref_cons]
    rw [if_pos hb0]
  | cons c rest =>
    rw [if_neg (List.cons_ne_nil c rest)] at hbrk
    obtain ⟨hword,hrest⟩ := hnext.set_at
    refine ⟨some (p+lead.length+(b::w).length+1),mem.set (p+lead.length+(b::w).length) 0,?_,
      ⟨hword,fun q hq => ?_⟩,hrest,fun a u hu => ?_⟩
    · unfold strtok
      simp only [Option.none_or,hspan,hbrk,Option.map_some,hword.deref_cons]
      rw [if_pos hb0]
    · cases hq
      omega
    · have hlt := hu.2 p rfl
      refine ⟨hu.1.set_after (by omega),fun q hq => ?_⟩
      cases hq
      omega

/-- A call returns the first word of the rest, or nothing when there is none. -/
theorem strtok_cases (h : Remains mem saveptr s) :
    runs blank s=[] ∧ strtok none blanks saveptr mem=⟨none,none,mem⟩ ∨
    ∃ w s' a saveptr' mem', runs blank s=w::runs blank s' ∧
      strtok none blanks saveptr mem=⟨some a,saveptr',mem'⟩ ∧ Held mem' saveptr' a w ∧
      Remains mem' saveptr' s' ∧ ∀ a u, Held mem saveptr a u → Held mem' saveptr' a u := by
  rcases exists_first_run blank s with hall | ⟨lead,w,rest,rfl,hlead,hne,hw,hstop⟩
  · exact .inl ⟨runs_all hall,strtok_none h hall⟩
  · cases saveptr with
    | none => exact absurd (show lead++(w++rest)=[] from h) (by simp [hne])
    | some p =>
      obtain ⟨saveptr',mem',heq,hword,hrest,hkeep⟩ := strtok_word h hlead hne hw hstop
      refine .inr ⟨w,rest.tail,_,saveptr',mem',?_,heq,hword,hrest,hkeep⟩
      rw [runs_lead hlead,runs_run hne hw hstop,runs_tail hstop]

end Token

/-! ## All tokens -/

/-- The variables while words are gathered: the arguments so far, and what is
left of the line. -/
structure Gathered (t : Tokens) (done : List (List UInt8)) (s : List UInt8) : Prop where
  /-- What is left. -/
  rest : Remains t.mem t.tokp s
  /-- The arguments are counted. -/
  count : t.n=done.length
  /-- There are not too many. -/
  fits : done.length ≤ pdbsShellMaxArguments
  /-- Each is in its place. -/
  placed : ∀ i, ∀ hi : i < done.length, ∃ a, t.args i=some a ∧ Held t.mem t.tokp a done[i]
  /-- Only their places were written. -/
  written : ∀ i ∈ t.written, i < pdbsShellMaxArguments

section Gather

variable {t : Tokens} {done ws : List (List UInt8)} {s w : List UInt8}

/-- The loop stops without a token. -/
theorem gather_of_none {r : Strtok} (hr : strtok none blanks t.tokp t.mem=r) (h : r.token=none) :
    gather t={t with tokp := r.saveptr,mem := r.mem} := by
  rw [gather,hr]
  simp only [h]

/-- It gives up with one too many. -/
theorem gather_of_full {r : Strtok} {lp : ℕ} (hr : strtok none blanks t.tokp t.mem=r)
    (h : r.token=some lp) (hn : pdbsShellMaxArguments ≤ t.n) :
    gather t={t with tokp := r.saveptr,mem := r.mem,cmd := none,tooMany := true} := by
  rw [gather,hr]
  simp only [h]
  rw [if_pos hn]

/-- Else it goes on. -/
theorem gather_of_some {r : Strtok} {lp : ℕ} (hr : strtok none blanks t.tokp t.mem=r)
    (h : r.token=some lp) (hn : ¬pdbsShellMaxArguments ≤ t.n) :
    gather t=gather {({t with tokp := r.saveptr,mem := r.mem} : Tokens).store t.n (some lp) with
      n := t.n+1} := by
  rw [gather,hr]
  simp only [h]
  rw [if_neg hn]

/-- One more argument is put in its place. -/
theorem Gathered.next (h : Gathered t done s) {r : Strtok} {lp : ℕ} {s' : List UInt8}
    (hn : done.length < pdbsShellMaxArguments) (hword : Held r.mem r.saveptr lp w)
    (hrest : Remains r.mem r.saveptr s')
    (hkeep : ∀ a u, Held t.mem t.tokp a u → Held r.mem r.saveptr a u) :
    Gathered {({t with tokp := r.saveptr,mem := r.mem} : Tokens).store t.n (some lp) with
      n := t.n+1} (done++[w]) s' where
  rest := hrest
  count := by
    rw [List.length_append,← h.count]
    rfl
  fits := by
    rw [List.length_append]
    exact hn
  placed i hi := by
    by_cases hlast : i=done.length
    · refine ⟨lp,?_,?_⟩
      · rw [hlast,← h.count]
        exact Function.update_self ..
      · simp only [hlast,List.getElem_concat_length]
        exact hword
    · have hlt : i < done.length := by
        rw [List.length_append,List.length_singleton] at hi
        omega
      obtain ⟨a,ha,hheld⟩ := h.placed i hlt
      refine ⟨a,?_,?_⟩
      · rw [← ha]
        exact Function.update_of_ne (by rw [h.count]; exact hlast) _ _
      · rw [List.getElem_append_left hlt]
        exact hkeep a _ hheld
  written i hi := by
    rcases List.mem_cons.mp hi with rfl | hi
    · rw [h.count]
      exact hn
    · exact h.written i hi

/-- The loop gathers all words of the rest when there is room for them, and
keeps the strings before. -/
theorem gather_all (h : Gathered t done s) (hws : runs blank s=ws)
    (hroom : done.length+ws.length ≤ pdbsShellMaxArguments) :
    (∃ s', Gathered (gather t) (done++ws) s') ∧ (gather t).cmd=t.cmd ∧ (gather t).tooMany=t.tooMany ∧
      ∀ a u, Held t.mem t.tokp a u → IsString (gather t).mem a u := by
  induction ws generalizing t done s with
  | nil =>
    rcases strtok_cases h.rest with ⟨-,hr⟩ | ⟨w,s',a,saveptr',mem',hruns,-⟩
    · rw [gather_of_none hr rfl,List.append_nil]
      refine ⟨⟨[],rfl,h.count,h.fits,fun i hi => ?_,h.written⟩,rfl,rfl,fun a u hu => hu.1⟩
      obtain ⟨a,ha,hheld⟩ := h.placed i hi
      exact ⟨a,ha,hheld.1,nofun⟩
    · rw [hruns] at hws
      cases hws
  | cons w ws ih =>
    rcases strtok_cases h.rest with ⟨hruns,-⟩ | ⟨w',s',a,saveptr',mem',hruns,hr,hword,hrest,hkeep⟩
    · rw [hruns] at hws
      cases hws
    · rw [hruns] at hws
      obtain ⟨rfl,hws'⟩ := List.cons_eq_cons.mp hws
      rw [List.length_cons] at hroom
      have hn : ¬pdbsShellMaxArguments ≤ t.n := by
        rw [h.count]
        omega
      have hnext := h.next (r := ⟨some a,saveptr',mem'⟩) (by omega) hword hrest hkeep
      obtain ⟨hgathered,hcmd,hmany,hstrings⟩ := ih hnext hws' (by
        rw [List.length_append,List.length_singleton]
        omega)
      rw [gather_of_some hr rfl hn]
      rw [List.append_assoc] at hgathered
      exact ⟨hgathered,hcmd,hmany,fun b u hu => hstrings b u (hkeep b u hu)⟩

/-- It gives up when there is none. -/
theorem gather_tooMany (h : Gathered t done s) (hws : runs blank s=ws)
    (hfull : pdbsShellMaxArguments < done.length+ws.length) :
    (gather t).cmd=none ∧ (gather t).tooMany=true ∧ (gather t).n ≤ pdbsShellMaxArguments ∧
      ∀ i ∈ (gather t).written, i < pdbsShellMaxArguments := by
  induction ws generalizing t done s with
  | nil =>
    have hfits := h.fits
    rw [List.length_nil] at hfull
    omega
  | cons w ws ih =>
    rcases strtok_cases h.rest with ⟨hruns,-⟩ | ⟨w',s',a,saveptr',mem',hruns,hr,hword,hrest,hkeep⟩
    · rw [hruns] at hws
      cases hws
    · rw [hruns] at hws
      obtain ⟨rfl,hws'⟩ := List.cons_eq_cons.mp hws
      have hcount := h.count
      by_cases hn : pdbsShellMaxArguments ≤ t.n
      · rw [gather_of_full hr rfl hn]
        exact ⟨rfl,rfl,by rw [hcount]; exact h.fits,h.written⟩
      · rw [List.length_cons] at hfull
        have hnext := h.next (r := ⟨some a,saveptr',mem'⟩) (by omega) hword hrest hkeep
        rw [gather_of_some hr rfl hn]
        refine ih hnext hws' ?_
        rw [List.length_append,List.length_singleton]
        omega

end Gather

/-- The variables after a line with the given words. -/
structure Splits (t : Tokens) (ws : List (List UInt8)) : Prop where
  /-- The array is written inside its bounds. -/
  inside : ∀ i ∈ t.written, i < pdbsShellMaxArguments+1
  /-- Without a word there is no command. -/
  empty : ws=[] → t.cmd=none ∧ t.tooMany=false
  /-- The first word is the command, the others are the arguments, and `NULL`
  follows them. -/
  fits : ∀ name rest, ws=name::rest → rest.length ≤ pdbsShellMaxArguments →
    (∃ c, t.cmd=some c ∧ stringAt t.mem c=name) ∧ t.n=rest.length ∧
    (∀ i, ∀ hi : i < rest.length, ∃ a, t.args i=some a ∧ stringAt t.mem a=rest[i]) ∧
    t.args rest.length=none
  /-- With more words there is none either. -/
  full : pdbsShellMaxArguments+1 < ws.length → t.cmd=none ∧ t.tooMany=true

section Line

variable {mem : Buffer} {text : List UInt8} {t : Tokens} {ws : List (List UInt8)}

/-- Ending the array keeps what is known of its entries. -/
theorem Gathered.placed_store {done : List (List UInt8)} {s : List UInt8} (h : Gathered t done s) (i : ℕ)
    (hi : i < done.length) : ∃ a, (t.store t.n none).args i=some a ∧ stringAt t.mem a=done[i] := by
  obtain ⟨a,ha,hheld⟩ := h.placed i hi
  refine ⟨a,?_,hheld.1.stringAt_eq⟩
  rw [← ha]
  exact Function.update_of_ne (by rw [h.count]; omega) _ _

/-- The end of the array is inside it too. -/
theorem store_inside (hn : t.n ≤ pdbsShellMaxArguments)
    (hw : ∀ i ∈ t.written, i < pdbsShellMaxArguments) :
    ∀ i ∈ (t.store t.n none).written, i < pdbsShellMaxArguments+1 := by
  intro i hi
  rcases List.mem_cons.mp hi with rfl | hi
  · omega
  · have hlt := hw i hi
    omega

/-- The tokenizer splits every line into its words. -/
theorem tokenize_splits (h : IsString mem 0 text) (tokp : Option ℕ) (args : ℕ → Option ℕ) :
    Splits (tokenize tokp args mem) (runs blank text) := by
  have hline : Remains mem (some 0) text := h
  have hfirst : strtok (some 0) blanks tokp mem=strtok none blanks (some 0) mem := rfl
  unfold tokenize
  rw [hfirst]
  rcases strtok_cases hline with ⟨hruns,hr⟩ | ⟨name,s,a,saveptr,mem',hruns,hr,hword,hrest,-⟩
  · rw [hruns,hr]
    have hstart : Gathered ⟨none,0,args,[],none,mem,false⟩ [] [] :=
      ⟨rfl,rfl,Nat.zero_le _,fun i hi => absurd hi (Nat.not_lt_zero i),fun i hi => absurd hi List.not_mem_nil⟩
    obtain ⟨⟨s,hg⟩,hcmd,hmany,-⟩ := gather_all hstart rfl (Nat.zero_le _)
    exact ⟨store_inside (by rw [hg.count]; exact hg.fits) hg.written,fun _ => ⟨hcmd,hmany⟩,nofun,
      fun hfull => absurd hfull (Nat.not_lt_zero _)⟩
  · rw [hruns,hr]
    have hstart : Gathered ⟨some a,0,args,[],saveptr,mem',false⟩ [] s :=
      ⟨hrest,rfl,Nat.zero_le _,fun i hi => absurd hi (Nat.not_lt_zero i),fun i hi => absurd hi List.not_mem_nil⟩
    by_cases hroom : (runs blank s).length ≤ pdbsShellMaxArguments
    · obtain ⟨⟨s',hg⟩,hcmd,-,hkeep⟩ := gather_all hstart rfl (by rw [List.length_nil,Nat.zero_add]; exact hroom)
      have hcount := hg.count
      refine ⟨store_inside (by rw [hcount]; exact hg.fits) hg.written,nofun,fun name' rest hws _ => ?_,
        fun hfull => ?_⟩
      · obtain ⟨rfl,rfl⟩ := List.cons_eq_cons.mp hws
        refine ⟨⟨a,hcmd,(hkeep a name hword).stringAt_eq⟩,hcount,hg.placed_store,?_⟩
        rw [show (runs blank s).length=_ from hcount.symm]
        exact Function.update_self ..
      · rw [List.length_cons] at hfull
        omega
    · have hfull : pdbsShellMaxArguments < ([] : List (List UInt8)).length+(runs blank s).length := by
        rw [List.length_nil,Nat.zero_add]
        omega
      obtain ⟨hcmd,hmany,hn,hw⟩ := gather_tooMany hstart rfl hfull
      refine ⟨store_inside hn hw,nofun,fun name' rest hws hle => ?_,fun _ => ⟨hcmd,hmany⟩⟩
      obtain ⟨-,rfl⟩ := List.cons_eq_cons.mp hws
      exact absurd hle hroom

/-- The table is searched for the first entry of that name. -/
theorem cmdexecCalls_eq (name : Word) (argc : ℕ) (argv : ℕ → Option ℕ) (scp : List PdbsShellCmd) :
    cmdexecCalls name argc argv scp=((scp.find? fun entry => entry.cmd.toList==name).elim ([],true)
      fun entry => ([⟨entry,argc,argv⟩],false)) := by
  induction scp with
  | nil => rfl
  | cons entry scp ih =>
    unfold cmdexecCalls
    rw [List.find?_cons]
    by_cases hname : (entry.cmd.toList==name)=true
    · rw [if_pos hname,hname]
      rfl
    · rw [if_neg hname,Bool.eq_false_iff.mpr hname]
      exact ih

/-- Words in place are found by a function. -/
theorem argWords_eq {args : List (List UInt8)} {argv : ℕ → Option ℕ}
    (h : ∀ i, ∀ hi : i < args.length, ∃ a, argv i=some a ∧ stringAt mem a=args[i]) :
    argWords mem args.length argv=args.map toWord := by
  refine List.ext_getElem (by simp [argWords]) fun i hi hi' => ?_
  rw [List.length_map] at hi'
  obtain ⟨a,ha,hstring⟩ := h i hi'
  simp only [argWords,List.getElem_map,List.getElem_range,ha,Option.elim_some,hstring]

/-- What is done with the words of a line: with none nothing; with too many
only this is said; else `help` is answered, one command is called with exactly
the arguments, or the name is not known. -/
inductive Does (seen : Surroundings) (sh : Shell) (argv : ℕ → Option ℕ) :
    List (List UInt8) → Dispatch → Prop where
  | nothing : Does seen sh argv [] ⟨[],""⟩
  | help {name : List UInt8} {args : List (List UInt8)} :
      args.length ≤ pdbsShellMaxArguments → toWord name="help".toList →
        Does seen sh argv (name::args) ⟨[],(help seen (args.map toWord) sh).text⟩
  | command {name : List UInt8} {args : List (List UInt8)} {entry : PdbsShellCmd} :
      args.length ≤ pdbsShellMaxArguments → toWord name≠"help".toList → entry ∈ commands seen →
        entry.cmd.toList=toWord name → Does seen sh argv (name::args) ⟨[⟨entry,args.length,argv⟩],""⟩
  | unknown {name : List UInt8} {args : List (List UInt8)} :
      args.length ≤ pdbsShellMaxArguments → toWord name≠"help".toList →
        (∀ entry ∈ commands seen, entry.cmd.toList≠toWord name) →
          Does seen sh argv (name::args) ⟨[],String.ofList (toWord name)++" ?\r\n"⟩
  | tooMany {ws : List (List UInt8)} :
      pdbsShellMaxArguments+1 < ws.length → Does seen sh argv ws ⟨[],"too many arguments\r\n"⟩

/-- With words that fit, the name decides. -/
theorem dispatch_eq {name : List UInt8} {args : List (List UInt8)} (h : Splits t (name::args))
    (hle : args.length ≤ pdbsShellMaxArguments) (seen : Surroundings) (sh : Shell) :
    argWords t.mem args.length t.args=args.map toWord ∧
    dispatch seen t sh=if toWord name="help".toList then ⟨[],(help seen (args.map toWord) sh).text⟩
      else ((commands seen).find? fun entry => entry.cmd.toList==toWord name).elim
        ⟨[],String.ofList (toWord name)++" ?\r\n"⟩ fun entry => ⟨[⟨entry,args.length,t.args⟩],""⟩ := by
  obtain ⟨⟨c,hcmd,hname⟩,hn,hargs,-⟩ := h.fits name args rfl hle
  have hwords := argWords_eq hargs
  refine ⟨hwords,?_⟩
  unfold dispatch
  simp only [hcmd,hname,hn,hwords,cmdexecCalls_eq]
  split
  · rfl
  · cases (commands seen).find? fun entry => entry.cmd.toList==toWord name with
    | none => rfl
    | some entry => rfl

/-- Without a name there is nothing to do. -/
theorem dispatch_none (h : t.cmd=none) (seen : Surroundings) (sh : Shell) :
    dispatch seen t sh=⟨[],if t.tooMany then "too many arguments\r\n" else ""⟩ := by
  unfold dispatch
  rw [h]

/-- After the split, this is done. -/
theorem dispatch_does (h : Splits t ws) (seen : Surroundings) (sh : Shell) :
    Does seen sh t.args ws (dispatch seen t sh) := by
  cases ws with
  | nil =>
    obtain ⟨hcmd,hmany⟩ := h.empty rfl
    rw [dispatch_none hcmd,hmany]
    exact .nothing
  | cons name args =>
    by_cases hle : args.length ≤ pdbsShellMaxArguments
    · rw [(dispatch_eq h hle seen sh).2]
      split
      · next hhelp => exact .help hle hhelp
      · next hhelp =>
        cases hfind : (commands seen).find? fun entry => entry.cmd.toList==toWord name with
        | none =>
          refine .unknown hle hhelp fun entry hentry heq => ?_
          have hnot := List.find?_eq_none.mp hfind entry hentry
          exact hnot (beq_iff_eq.mpr heq)
        | some entry =>
          have heq := List.find?_some hfind
          exact .command hle hhelp (List.mem_of_find?_eq_some hfind) (beq_iff_eq.mp heq)
    · have hfull : pdbsShellMaxArguments+1 < (name::args).length := by
        rw [List.length_cons]
        omega
      obtain ⟨hcmd,hmany⟩ := h.full hfull
      rw [dispatch_none hcmd,hmany]
      exact .tooMany hfull

/-- `help` only prints. -/
theorem help_eq (seen : Surroundings) (words : List Word) (sh : Shell) :
    help seen words sh=say (help seen words sh).text sh := by
  cases words <;> rfl

/-- It is what the loop does with a list of words. -/
theorem perform_eq (h : Splits t ws) (seen : Surroundings) (sh : Shell) :
    (dispatch seen t sh).perform t.mem sh=runWords seen (ws.map toWord) sh := by
  cases ws with
  | nil =>
    obtain ⟨hcmd,hmany⟩ := h.empty rfl
    rw [dispatch_none hcmd,hmany]
    rfl
  | cons name args =>
    rw [List.map_cons,runWords,List.length_map]
    by_cases hle : args.length ≤ pdbsShellMaxArguments
    · obtain ⟨hwords,hdispatch⟩ := dispatch_eq h hle seen sh
      rw [hdispatch,if_neg (Nat.not_lt.mpr hle)]
      split
      · exact (help_eq seen (args.map toWord) sh).symm
      · unfold cmdexec
        cases (commands seen).find? fun entry => entry.cmd.toList==toWord name with
        | none => rfl
        | some entry =>
          simp only [Option.elim_some,Option.map_some,Dispatch.perform,List.foldl_cons,List.foldl_nil,
            hwords,say,String.empty_append,List.nil_append]
    · have hfull : pdbsShellMaxArguments+1 < (name::args).length := by
        rw [List.length_cons]
        omega
      obtain ⟨hcmd,hmany⟩ := h.full hfull
      rw [dispatch_none hcmd,hmany,if_pos (Nat.lt_of_not_le hle)]
      rfl

/-- Every line is split into its maximal runs of characters other than space
and tab, inside the array of arguments, and what is done goes by these words. -/
theorem line_words (h : IsString mem 0 text) (tokp : Option ℕ) (args : ℕ → Option ℕ)
    (seen : Surroundings) (sh : Shell) :
    let t := tokenize tokp args mem
    ∃ ws, Runs blank text ws ∧ Splits t ws ∧ Does seen sh t.args ws (dispatch seen t sh) ∧
      (dispatch seen t sh).perform t.mem sh=runWords seen (ws.map toWord) sh :=
  have hsplit := tokenize_splits h tokp args
  ⟨_,runs_spec text,hsplit,dispatch_does hsplit seen sh,perform_eq hsplit seen sh⟩

end Line

/-- A line with leading, repeated and trailing blanks, before what is left of
an older one. -/
def spacedLine : Buffer := [32,115,101,116,95,118,9,32,53,48,48,48,32]++0::[120,121,0]

/-- It is `set_v 5000`. -/
theorem line_words_spaced :
    let t := tokenize none (fun _ => none) spacedLine
    let sh := setup fun _ _ => erased
    t.n=1 ∧ (dispatch ⟨"",none,.none⟩ t sh).perform t.mem sh=
      runWords ⟨"",none,.none⟩ ["set_v".toList,"5000".toList] sh := by
  have hstring : IsString spacedLine 0 [32,115,101,116,95,118,9,32,53,48,48,48,32] :=
    ⟨by decide,_,rfl⟩
  obtain ⟨ws,hruns,hsplit,-,hperform⟩ :=
    line_words hstring none (fun _ => none) ⟨"",none,.none⟩ (setup fun _ _ => erased)
  have hws : ws=[[115,101,116,95,118],[53,48,48,48]] := hruns.eq.symm.trans (by decide)
  rw [hws] at hsplit hperform
  exact ⟨(hsplit.fits _ _ rfl (by decide)).2.1,hperform⟩

end UsbPdFirmware.LineTokens
