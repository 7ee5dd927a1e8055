import Mathlib.Data.Nat.Notation
import UsbPdFirmware.LabelledRuns

/-!
# A reset handshake between an engine and a layer

Either side can start a reset. The engine asks, the layer carries the reset
out and reports, and the engine tells it when it has finished; or the layer
notices a reset from outside, announces it, and waits for the engine to
finish in the same way. The engine does not listen for announcements while
it waits for a report. Four flags carry the messages.
-/

namespace UsbPdFirmware.ResetHandshake

open LabelledRuns

/-- What the engine is doing. -/
inductive Engine where
  /-- Its own work; it hears announcements. -/
  | working
  /-- Waiting for the report on the reset it asked for. -/
  | waiting
  /-- Bound to say that it has finished. -/
  | owing
  deriving DecidableEq

/-- What the layer is doing. -/
inductive Layer where
  /-- Ready for a reset. -/
  | idle
  /-- Carrying out a reset it has yet to announce. -/
  | announcing
  /-- Carrying out a reset the engine asked for. -/
  | requesting
  /-- Waiting for the engine to finish. -/
  | waiting
  deriving DecidableEq

/-- Both sides and the flags between them. -/
structure Handshake where
  /-- The engine. -/
  engine : Engine
  /-- The layer. -/
  layer : Layer
  /-- The engine asks for a reset. -/
  asked : Bool
  /-- The layer announces a reset. -/
  announced : Bool
  /-- The layer reports that the reset was carried out. -/
  reported : Bool
  /-- The engine has finished. -/
  finished : Bool

/-- The moves of the two sides. -/
inductive Move where
  | ask
  | accept
  | notice
  | announce
  | report
  | heed
  | release
  | finish
  | close
  deriving DecidableEq

/-- One move. A request the layer finds takes precedence over a reset from
outside. -/
def step : Move → Handshake → Option Handshake
  | .ask,h =>
    if h.engine=.working then some {h with engine := .waiting,asked := true} else none
  | .accept,h =>
    if h.layer=.idle ∧ h.asked=true then some {h with layer := .requesting,asked := false} else none
  | .notice,h =>
    if h.layer=.idle ∧ h.asked=false then some {h with layer := .announcing} else none
  | .announce,h =>
    if h.layer=.announcing then some {h with layer := .waiting,announced := true} else none
  | .report,h =>
    if h.layer=.requesting then some {h with layer := .waiting,reported := true} else none
  | .heed,h =>
    if h.engine=.working ∧ h.announced=true then some {h with engine := .owing,announced := false}
    else none
  | .release,h =>
    if h.engine=.waiting ∧ h.reported=true then some {h with engine := .owing,reported := false}
    else none
  | .finish,h =>
    if h.engine=.owing then some {h with engine := .working,finished := true} else none
  | .close,h =>
    if h.layer=.waiting ∧ h.finished=true then some {h with layer := .idle,finished := false}
    else none

/-- The handshake, begun with both sides at rest. -/
def handshake : Machine Handshake Move := ⟨⟨.working,.idle,false,false,false,false⟩,step⟩

/-- The two kinds of reset do not cross: the engine asks for none while one
is being announced. -/
def uncrossed (h : Handshake) (m : Move) : Prop :=
  m=.ask → h.layer≠.announcing ∧ h.announced=false

/-- Each side waits for the other, and neither has anything to take. -/
def Deadlock (h : Handshake) : Prop :=
  h.engine=.waiting ∧ h.reported=false ∧ h.layer=.waiting ∧ h.finished=false

/-- How many tokens stand for the engine's part in a reset the layer has
finished with: a flag on its way to the engine, its debt, or its answer. -/
def tokens (h : Handshake) : ℕ :=
  h.announced.toNat+h.reported.toNat+(decide (h.engine=.owing)).toNat+h.finished.toNat

/-- What holds in every run in which the two kinds do not cross. -/
structure Uncrossed (h : Handshake) : Prop where
  /-- The layer waits exactly while there is one token. -/
  token : tokens h=(decide (h.layer=.waiting)).toNat
  /-- Only a waiting engine has asked. -/
  asked : h.asked=true → h.engine=.waiting
  /-- A request being carried out is no longer asked for. -/
  requesting : h.layer=.requesting → h.engine=.waiting ∧ h.asked=false
  /-- Nor is a request reported on. -/
  reported : h.reported=true → h.engine=.waiting ∧ h.asked=false
  /-- A waiting engine's request is in one of three places. -/
  place : h.engine=.waiting → h.asked=true ∨ h.layer=.requesting ∨ h.reported=true
  /-- No announcement is made to a waiting engine. -/
  silent : h.engine=.waiting → h.layer≠.announcing ∧ h.announced=false

/-- No move of such a run breaks it. -/
theorem Uncrossed.step {h h' : Handshake} {m : Move} (hi : Uncrossed h) (ha : uncrossed h m)
    (hs : ResetHandshake.step m h=some h') : Uncrossed h' := by
  obtain ⟨engine,layer,asked,announced,reported,finished⟩ := h
  obtain ⟨token,hasked,requesting,hreported,place,silent⟩ := hi
  dsimp only [tokens] at token hasked requesting hreported place silent
  cases m <;> simp only [ResetHandshake.step,Option.ite_none_right_eq_some,Option.some.injEq] at hs
  case ask =>
    obtain ⟨rfl,rfl⟩ := hs
    have hsilent := ha rfl
    exact ⟨token,fun _ => rfl,fun hl => absurd (requesting hl).1 (by decide),
      fun hr => absurd (hreported hr).1 (by decide),fun _ => .inl rfl,fun _ => hsilent⟩
  case accept =>
    obtain ⟨⟨rfl,rfl⟩,rfl⟩ := hs
    have he := hasked rfl
    exact ⟨token,by simp,fun _ => ⟨he,rfl⟩,fun hr => absurd (hreported hr).2 (by simp),
      fun _ => .inr (.inl rfl),fun he => ⟨by simp,(silent he).2⟩⟩
  case notice =>
    obtain ⟨⟨rfl,rfl⟩,rfl⟩ := hs
    have he : engine≠.waiting := by
      intro he
      rcases place he with h | h | hr
      · exact absurd h (by decide)
      · exact absurd h (by decide)
      · rw [hr] at token
        simp only [Bool.toNat_true,reduceCtorEq,decide_false,Bool.toNat_false] at token
        omega
    exact ⟨token,by simp,by simp,hreported,fun h => absurd h he,fun h => absurd h he⟩
  case announce =>
    obtain ⟨rfl,rfl⟩ := hs
    have he : engine≠.waiting := fun he => (silent he).1 rfl
    refine ⟨?_,hasked,by simp,hreported,fun h => absurd h he,fun h => absurd h he⟩
    simp only [tokens,Bool.toNat_true,reduceCtorEq,decide_true,decide_false,Bool.toNat_false] at token ⊢
    omega
  case report =>
    obtain ⟨rfl,rfl⟩ := hs
    obtain ⟨he,hq⟩ := requesting rfl
    refine ⟨?_,hasked,by simp,fun _ => ⟨he,hq⟩,fun _ => .inr (.inr rfl),
      fun he => ⟨by simp,(silent he).2⟩⟩
    simp only [tokens,Bool.toNat_true,reduceCtorEq,decide_true,decide_false,Bool.toNat_false] at token ⊢
    omega
  case heed =>
    obtain ⟨⟨rfl,rfl⟩,rfl⟩ := hs
    refine ⟨?_,fun h => absurd (hasked h) (by decide),fun h => absurd (requesting h).1 (by decide),
      fun h => absurd (hreported h).1 (by decide),by simp,by simp⟩
    simp only [tokens,Bool.toNat_true,reduceCtorEq,decide_true,decide_false,Bool.toNat_false] at token ⊢
    omega
  case release =>
    obtain ⟨⟨rfl,rfl⟩,rfl⟩ := hs
    have hq := (hreported rfl).2
    refine ⟨?_,by simp [hq],?_,by simp,by simp,by simp⟩
    · simp only [tokens,Bool.toNat_true,reduceCtorEq,decide_true,decide_false,Bool.toNat_false] at token ⊢
      omega
    · rintro rfl
      simp only [Bool.toNat_true,reduceCtorEq,decide_false,Bool.toNat_false] at token
      omega
  case finish =>
    obtain ⟨rfl,rfl⟩ := hs
    refine ⟨?_,fun h => absurd (hasked h) (by decide),fun h => absurd (requesting h).1 (by decide),
      fun h => absurd (hreported h).1 (by decide),by simp,by simp⟩
    simp only [tokens,Bool.toNat_true,reduceCtorEq,decide_true,decide_false,Bool.toNat_false] at token ⊢
    have hl : (decide (layer=.waiting)).toNat ≤ 1 := Bool.toNat_le _
    omega
  case close =>
    obtain ⟨⟨rfl,rfl⟩,rfl⟩ := hs
    refine ⟨?_,hasked,by simp,hreported,?_,fun he => ⟨by simp,(silent he).2⟩⟩
    · simp only [tokens,Bool.toNat_true,reduceCtorEq,decide_true,decide_false,Bool.toNat_false] at token ⊢
      omega
    · intro he
      rcases place he with h | h | hr
      · exact .inl h
      · exact absurd h (by decide)
      · rw [hr] at token
        simp only [Bool.toNat_true,decide_true] at token
        omega

/-- Every run without a crossing keeps it. -/
theorem uncrossed_of_reach {h : Handshake} (hr : handshake.Reach uncrossed h) : Uncrossed h := by
  refine hr.invariant ?_ fun s m s' _ hi ha hs => hi.step ha hs
  constructor <;> decide

/-- Without a crossing there is no deadlock: the token that makes the layer
wait is with the engine, and a waiting engine holds none. -/
theorem Uncrossed.no_deadlock {h : Handshake} (hi : Uncrossed h) : ¬Deadlock h := by
  rintro ⟨he,hr,hl,hf⟩
  have ht := hi.token
  have hs := (hi.silent he).2
  rw [tokens,hs,hr,hl,hf,he] at ht
  exact absurd ht (by decide)

end UsbPdFirmware.ResetHandshake
