import Mathlib.Algebra.Group.Nat.Defs
import Mathlib.Data.List.TakeDrop

/-!
# Words in streams of bytes

Words are read from and written to bytes with the least significant byte
first. A stream is read by a reader that takes what it needs and leaves the
rest; a reader that takes exactly one frame reads a sequence of frames.
-/

namespace UsbPdFirmware.ByteStreams

/-! ## Little-endian words -/

section Words

variable {w k : ℕ} {f g : ℕ → BitVec 8}

/-- A byte of a word, the least significant one first. -/
def byte (v : BitVec w) (j : ℕ) : BitVec 8 := v.extractLsb' (8*j) 8

/-- The number that bytes spell. -/
def joined (f : ℕ → BitVec 8) : ℕ → ℕ
  | 0 => 0
  | k+1 => joined f k+(f k).toNat*256^k

/-- The word that bytes spell. -/
def word (w : ℕ) (f : ℕ → BitVec 8) : BitVec w := BitVec.ofNat w (joined f (w/8))

theorem byte_toNat (v : BitVec w) (j : ℕ) : (byte v j).toNat=v.toNat/256^j%256 := by
  have hpow : 2^(8*j)=256^j := by rw [Nat.pow_mul]
  rw [byte,BitVec.extractLsb'_toNat,Nat.shiftRight_eq_div_pow,hpow]

/-- The bytes of a word spell its low part. -/
theorem joined_byte (v : BitVec w) (k : ℕ) : joined (byte v) k=v.toNat%256^k := by
  induction k with
  | zero => rw [Nat.pow_zero,Nat.mod_one]; rfl
  | succ k ih =>
    unfold joined
    rw [ih,byte_toNat,Nat.mod_pow_succ,Nat.mul_comm]

/-- A word is spelled by its own bytes. -/
theorem word_byte (hw : w=8*k) (v : BitVec w) : word w (byte v)=v := by
  have hdiv : w/8=k := by omega
  have hpow : 2^w=256^k := by rw [hw,Nat.pow_mul]
  refine BitVec.eq_of_toNat_eq ?_
  rw [word,hdiv,joined_byte,← hpow,BitVec.toNat_ofNat,Nat.mod_mod,Nat.mod_eq_of_lt v.isLt]

theorem joined_congr (h : ∀ j < k, f j=g j) : joined f k=joined g k := by
  induction k with
  | zero => rfl
  | succ k ih =>
    unfold joined
    rw [ih fun j hj => h j (by omega),h k (by omega)]

/-- Only the bytes inside a word matter. -/
theorem word_congr (hw : w=8*k) (h : ∀ j < k, f j=g j) : word w f=word w g := by
  have hdiv : w/8=k := by omega
  rw [word,word,hdiv,joined_congr h]

/-- The first bytes of a word. -/
def littleEndian (k : ℕ) (v : BitVec w) : List (BitVec 8) := (List.range k).map (byte v)

@[simp] theorem littleEndian_length (k : ℕ) (v : BitVec w) : (littleEndian k v).length=k := by
  rw [littleEndian,List.length_map,List.length_range]

end Words

/-! ## Memory and streams -/

section Streams

variable {α β Buf Out : Type}

/-- Memory with values written from an offset on. -/
def overwrite (memory : ℕ → α) (offset : ℕ) (values : List α) : ℕ → α :=
  fun i => if offset ≤ i then (values[i-offset]?).getD (memory i) else memory i

/-- The values of a function, written one after the other. -/
theorem overwrite_map_range (memory f : ℕ → α) (offset n i : ℕ) :
    overwrite memory offset ((List.range n).map f) i=
      if offset ≤ i ∧ i < offset+n then f (i-offset) else memory i := by
  unfold overwrite
  by_cases hlow : offset ≤ i
  · by_cases hhigh : i < offset+n
    · rw [if_pos hlow,if_pos ⟨hlow,hhigh⟩,List.getElem?_map,List.getElem?_range (by omega)]
      rfl
    · rw [if_pos hlow,if_neg fun h => hhigh h.2,List.getElem?_map,
        List.getElem?_eq_none (by rw [List.length_range]; omega)]
      rfl
  · rw [if_neg hlow,if_neg fun h => hlow h.1]

/-- Chunks of one length, one after the other, are indexed by quotient and
remainder. -/
theorem flatMap_chunks (f : ℕ → ℕ → α) {c : ℕ} (hc : 0 < c) (n : ℕ) :
    (List.range n).flatMap (fun k => (List.range c).map (f k))=
      (List.range (n*c)).map fun j => f (j/c) (j%c) := by
  induction n with
  | zero => rw [Nat.zero_mul]; rfl
  | succ n ih =>
    have hlast : (List.range c).map (f n)=
        ((List.range c).map (n*c+·)).map fun j => f (j/c) (j%c) := by
      rw [List.map_map]
      refine List.map_congr_left fun j hj => ?_
      have hlt : j < c := List.mem_range.mp hj
      have hdiv : (n*c+j)/c=n := by
        rw [Nat.mul_comm,Nat.mul_add_div hc,Nat.div_eq_of_lt hlt,Nat.add_zero]
      have hmod : (n*c+j)%c=j := by
        rw [Nat.mul_comm,Nat.mul_add_mod,Nat.mod_eq_of_lt hlt]
      change f n j=f ((n*c+j)/c) ((n*c+j)%c)
      rw [hdiv,hmod]
    rw [List.range_succ,List.flatMap_append,ih,List.flatMap_singleton,hlast,← List.map_append,
      ← List.range_add,Nat.succ_mul]

/-- Read once for each buffer, from what the read before has left. -/
def readEach (read : Buf → List α → Out × List α) : List Buf → List α → List Out × List α
  | [],stream => ([],stream)
  | b::rest,stream =>
    let first := read b stream
    let others := readEach read rest first.2
    (first.1::others.1,others.2)

/-- A reader that takes exactly one frame from any stream reads frames written
one after the other, each into its own buffer, and leaves what follows. -/
theorem readEach_frames {read : Buf → List α → Out × List α} {encode : β → List α}
    {out : Buf → β → Out} (h : ∀ b f rest, read b (encode f++rest)=(out b f,rest))
    (frames : List (Buf × β)) (rest : List α) :
    readEach read (frames.map Prod.fst) (frames.flatMap (fun x => encode x.2)++rest)=
      (frames.map fun x => out x.1 x.2,rest) := by
  induction frames with
  | nil => rfl
  | cons x frames ih =>
    rw [List.map_cons,List.flatMap_cons,List.append_assoc,List.map_cons]
    unfold readEach
    dsimp only
    rw [h,ih]

/-- Some buffers are read into after others. -/
theorem readEach_append (read : Buf → List α → Out × List α) (bs bs' : List Buf) (stream : List α) :
    readEach read (bs++bs') stream=
      ((readEach read bs stream).1++(readEach read bs' (readEach read bs stream).2).1,
        (readEach read bs' (readEach read bs stream).2).2) := by
  induction bs generalizing stream with
  | nil => rfl
  | cons b bs ih =>
    rw [List.cons_append,readEach,ih]
    rfl

/-- Readers that take exactly their own part of a stream, one after the other. -/
theorem readEach_parts {γ : Type} {read : Buf → List α → Out × List α} {buffers : γ → List Buf}
    {part : γ → List α} {outs : γ → List Out} {xs : List γ}
    (h : ∀ x ∈ xs, ∀ rest, readEach read (buffers x) (part x++rest)=(outs x,rest)) (rest : List α) :
    readEach read (xs.flatMap buffers) (xs.flatMap part++rest)=(xs.flatMap outs,rest) := by
  induction xs with
  | nil => rfl
  | cons x xs ih =>
    obtain ⟨hx,hxs⟩ := List.forall_mem_cons.mp h
    rw [List.flatMap_cons,List.flatMap_cons,List.flatMap_cons,List.append_assoc,readEach_append,hx,ih hxs]

end Streams

end UsbPdFirmware.ByteStreams
