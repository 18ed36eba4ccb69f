import Sleepytale.Sni.Frames
import Sleepytale.Lib.Ticks

/-!
# The frame walk ends by consuming its input

The loops of `reassemble_crypto` again, statement for statement as in the model of
the peek, with every iteration counted. An ACK frame announces its number of
ranges, so that number is the sender's. What bounds the walk is the bytes left in
the reader: each frame takes its type byte, and each ACK range takes two integers
or is the last iteration there is.
-/

namespace Sleepytale.Sni.Progress

open Sleepytale.Net
open Sleepytale.Lib.Ticks
open Sleepytale.Lib.Ticks.Counted (Pays ofOption iteration)

/-- `for _ in 0..ranges`. -/
def ackRanges : Nat → Reader → Counted Reader
  | 0, r => pure r
  | ranges + 1, r => iteration do
      let (_, r) ← ofOption r.varint
      let (_, r) ← ofOption r.varint
      ackRanges ranges r

def ackFrame (frame : UInt8) (r : Reader) : Counted Reader := do
  let (_, r) ← ofOption r.varint
  let (_, r) ← ofOption r.varint
  let (ranges, r) ← ofOption r.varint
  let (_, r) ← ofOption r.varint
  let r ← ackRanges ranges r
  if frame = 0x03 then
    let (_, r) ← ofOption r.varint
    let (_, r) ← ofOption r.varint
    let (_, r) ← ofOption r.varint
    return r
  else return r

/-- `while let Some(frame) = r.u8()`. -/
def frames : Nat → Reader → List (Nat × Bytes) → Counted (List (Nat × Bytes))
  | 0, _, _ => ofOption none
  | fuel + 1, r, pieces =>
      match r.u8 with
      | none => pure pieces
      | some (frame, r) => iteration <|
          if frame = 0x00 ∨ frame = 0x01 then frames fuel r pieces
          else if frame = 0x02 ∨ frame = 0x03 then do
            let r ← ackFrame frame r
            frames fuel r pieces
          else if frame = 0x06 then do
            let (offset, r) ← ofOption r.varint
            let (len, r) ← ofOption r.varint
            let (data, r) ← ofOption (r.take len)
            frames fuel r (pieces ++ [(offset, data)])
          else pure pieces

variable {n : Nat} {r : Reader}

theorem varint_pays {β : Type} {f : Nat × Reader → Counted β} {g : Nat × Reader → Option β}
    {Q : β → Nat → Prop} (spare : Nat) (h : r.Left n)
    (hf : ∀ value r' m, r'.Left m → Pays (f (value, r')) (g (value, r')) (m + (spare + 1)) Q) :
    Pays (ofOption r.varint >>= f) (r.varint >>= g) (n + spare) Q := by
  apply Pays.read
  intro field hread
  obtain ⟨value, r'⟩ := field
  obtain ⟨m, rfl, left'⟩ := h.varint hread
  rw [Nat.add_assoc, Nat.add_comm 1]
  exact hf value r' m left'

/-- The one iteration that the bytes left do not pay for is the one that finds none. -/
theorem ackRanges_pays (ranges : Nat) (h : r.Left n) :
    Pays (ackRanges ranges r) (Sni.ackRanges ranges r) (n + 1)
      fun r' rest => ∃ m, rest = m + 1 ∧ r'.Left m := by
  induction ranges generalizing r n with
  | zero => exact Pays.pure ⟨n, rfl, h⟩
  | succ ranges ih =>
    apply Pays.iteration
    refine varint_pays 0 h fun _ r₁ _ left₁ => ?_
    refine varint_pays 1 left₁ fun _ r₂ m left₂ => ?_
    exact (ih left₂).mono (by omega) fun _ _ hp => hp

theorem ackFrame_pays (frame : UInt8) (h : r.Left n) :
    Pays (ackFrame frame r) (Sni.ackFrame frame r) n fun r' rest => r'.Left rest := by
  refine varint_pays 0 h fun _ r₁ _ left₁ => ?_
  refine varint_pays 1 left₁ fun _ r₂ _ left₂ => ?_
  refine varint_pays 2 left₂ fun ranges r₃ _ left₃ => ?_
  refine varint_pays 3 left₃ fun _ r₄ m left₄ => ?_
  have hranges := (ackRanges_pays ranges left₄).mono (show m + 1 ≤ m + 4 by omega)
    fun _ _ hp => hp
  apply hranges.bind
  intro r₅ rest hrest
  obtain ⟨m, rfl, left₅⟩ := hrest
  apply Pays.ite
  · intro _
    refine varint_pays 1 left₅ fun _ r₆ _ left₆ => ?_
    refine varint_pays 2 left₆ fun _ r₇ _ left₇ => ?_
    refine varint_pays 3 left₇ fun _ r₈ _ left₈ => ?_
    exact Pays.pure (left₈.mono (by omega))
  · intro _
    exact Pays.pure (left₅.mono (by omega))

theorem frames_pays (fuel : Nat) (pieces : List (Nat × Bytes)) (h : r.Left n) :
    Pays (frames fuel r pieces) (Sni.frames fuel r pieces) n fun _ _ => True := by
  induction fuel generalizing r n pieces with
  | zero => exact Pays.none
  | succ fuel ih =>
    simp only [frames, Sni.frames]
    cases hread : r.u8 with
    | none => exact Pays.pure trivial
    | some read =>
      obtain ⟨frame, r₁⟩ := read
      obtain ⟨m, rfl, left₁⟩ := h.u8 hread
      apply Pays.iteration
      apply Pays.ite
      · intro _
        exact ih pieces left₁
      intro _
      apply Pays.ite
      · intro _
        apply (ackFrame_pays frame left₁).bind
        intro r₂ rest left₂
        exact ih pieces left₂
      intro _
      apply Pays.ite
      · intro _
        refine varint_pays 0 left₁ fun offset r₂ _ left₂ => ?_
        refine varint_pays 1 left₂ fun len r₃ _ left₃ => ?_
        apply Pays.read
        intro field h₄
        obtain ⟨data, r₄⟩ := field
        obtain ⟨k, rfl, left₄⟩ := left₃.take h₄
        exact (ih _ left₄).mono (by omega) fun _ _ hp => hp
      · intro _
        exact Pays.pure trivial

/-- More fuel than bytes is never used up: any two such fuels give one walk. -/
theorem frames_fuel {fuel fuel' : Nat} (pieces : List (Nat × Bytes)) (h : r.Left n)
    (hfuel : n < fuel) (hfuel' : n < fuel') : frames fuel r pieces = frames fuel' r pieces := by
  induction fuel generalizing r n pieces fuel' with
  | zero => omega
  | succ fuel ih =>
    obtain _ | fuel' := fuel'
    · omega
    simp only [frames]
    cases hread : r.u8 with
    | none => rfl
    | some read =>
      obtain ⟨frame, r₁⟩ := read
      obtain ⟨m, rfl, left₁⟩ := h.u8 hread
      have hnext : ∀ {r₂ : Reader} (pieces : List (Nat × Bytes)), r₂.Left m →
          frames fuel r₂ pieces = frames fuel' r₂ pieces :=
        fun pieces left₂ => ih pieces left₂ (by omega) (by omega)
      apply congrArg iteration
      apply ite_congr rfl
      · intro _
        exact hnext pieces left₁
      intro _
      apply ite_congr rfl
      · intro _
        apply Counted.bind_congr
        intro r₂ h₂
        rw [(ackFrame_pays frame left₁).result] at h₂
        exact hnext pieces (ackFrame_left left₁ h₂)
      intro _
      apply ite_congr rfl
      · intro _
        apply Counted.bind_congr
        intro field h₂
        obtain ⟨offset, r₂⟩ := field
        obtain ⟨_, rfl, left₂⟩ := left₁.varint h₂
        apply Counted.bind_congr
        intro field h₃
        obtain ⟨len, r₃⟩ := field
        obtain ⟨_, rfl, left₃⟩ := left₂.varint h₃
        apply Counted.bind_congr
        intro field h₄
        obtain ⟨data, r₄⟩ := field
        obtain ⟨k, rfl, left₄⟩ := left₃.take h₄
        exact hnext _ (left₄.mono (by omega))
      · intro _
        rfl

/--
Whatever counts a payload announces, the frame loop and the ACK-range loops
together begin no more iterations than it has bytes. The count is of the whole
walk: it gives the pieces that the peek collects, and more fuel changes neither.
-/
theorem frame_walk_makes_progress (payload : Bytes) :
    (frames (payload.length + 1) (Reader.new payload) []).ticks ≤ payload.length ∧
      (frames (payload.length + 1) (Reader.new payload) []).result =
        Sni.frames (payload.length + 1) (Reader.new payload) [] ∧
      ∀ extra, frames (payload.length + 1 + extra) (Reader.new payload) [] =
        frames (payload.length + 1) (Reader.new payload) [] := by
  have hleft := Reader.left_new payload
  have hpays := frames_pays (payload.length + 1) [] hleft
  refine ⟨hpays.ticks, hpays.result, fun extra => ?_⟩
  exact frames_fuel [] hleft (by omega) (by omega)

/-- An ACK frame that announces the largest number of ranges and brings one. -/
example :
    (frames 16 (Reader.new
      [0x02, 0, 0, 0xff, 0xff, 0xff, 0xff, 0xff, 0xff, 0xff, 0xff, 0, 7, 7]) []).ticks = 3 := by
  decide +kernel

end Sleepytale.Sni.Progress
