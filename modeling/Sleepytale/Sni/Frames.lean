import Sleepytale.Sni.Cursor

/-!
# The frames of a client Initial

`Frame` has the frames that `reassemble_crypto` understands, with every field in
any width it fits, and `encode` writes them as a client does. The frame walk
reads back the CRYPTO pieces in packet order, and reassembly turns pieces of one
stream into the part of it they cover from its beginning on.
-/

namespace Sleepytale.Sni

open Sleepytale.Net
open Sleepytale.Lib.Bytes

/-- The fields of an ACK frame up to its ECN counts. -/
structure Ack where
  largest : Varint
  delay : Varint
  count : Varint
  first : Varint
  ranges : List (Varint × Varint)
  counted : count.value = ranges.length

structure CryptoPiece where
  offset : Varint
  len : Varint
  data : Bytes
  sized : len.value = data.length

inductive Frame where
  | padding
  | ping
  | ack (body : Ack)
  | ackEcn (body : Ack) (ect0 ect1 ce : Varint)
  | crypto (piece : CryptoPiece)

def Ack.encode (ack : Ack) : Bytes :=
  ack.largest.encode ++ ack.delay.encode ++ ack.count.encode ++ ack.first.encode ++
    ack.ranges.flatMap fun range => range.1.encode ++ range.2.encode

def Frame.encode : Frame → Bytes
  | padding => [0x00]
  | ping => [0x01]
  | ack body => 0x02 :: body.encode
  | ackEcn body ect0 ect1 ce => 0x03 :: (body.encode ++ ect0.encode ++ ect1.encode ++ ce.encode)
  | crypto piece => 0x06 :: (piece.offset.encode ++ piece.len.encode ++ piece.data)

/-- The CRYPTO pieces of a list of frames, in packet order. -/
def cryptoPieces (fs : List Frame) : List (Nat × Bytes) :=
  fs.filterMap fun
    | .crypto piece => some (piece.offset.value, piece.data)
    | _ => none

def encodeFrames (fs : List Frame) : Bytes := fs.flatMap Frame.encode

open Reader (between)

theorem ackRanges_encode (pre rest : Bytes) (ranges : List (Varint × Varint)) :
    ackRanges ranges.length
        (between pre ((ranges.flatMap fun range => range.1.encode ++ range.2.encode) ++ rest)) =
      some (between (pre ++ ranges.flatMap fun range => range.1.encode ++ range.2.encode) rest) := by
  induction ranges generalizing pre with
  | nil => simp [ackRanges]
  | cons range ranges ih =>
    simp only [List.length_cons, ackRanges, List.flatMap_cons, List.append_assoc,
      Reader.varint_encode, Option.bind_eq_bind, Option.bind_some, ih]

theorem ackFrame_encode (pre rest : Bytes) (ack : Ack) :
    ackFrame 0x02 (between pre (ack.encode ++ rest)) = some (between (pre ++ ack.encode) rest) := by
  simp only [ackFrame, Ack.encode, List.append_assoc, Reader.varint_encode, Option.bind_eq_bind,
    Option.bind_some, ack.counted, ackRanges_encode]
  rfl

theorem ackFrame_encode_ecn (pre rest : Bytes) (ack : Ack) (ect0 ect1 ce : Varint) :
    ackFrame 0x03 (between pre (ack.encode ++ ect0.encode ++ ect1.encode ++ ce.encode ++ rest)) =
      some (between (pre ++ (ack.encode ++ ect0.encode ++ ect1.encode ++ ce.encode)) rest) := by
  simp only [ackFrame, Ack.encode, List.append_assoc, Reader.varint_encode, Option.bind_eq_bind,
    Option.bind_some, ack.counted, ackRanges_encode, if_true, Option.pure_def]

/-- One turn of the frame loop reads one frame. -/
theorem frames_cons (fuel : Nat) (pre rest : Bytes) (pieces : List (Nat × Bytes)) (f : Frame) :
    frames (fuel + 1) (between pre (f.encode ++ rest)) pieces =
      frames fuel (between (pre ++ f.encode) rest) (pieces ++ cryptoPieces [f]) := by
  cases f with
  | padding => simp [frames, Frame.encode, Reader.u8_cons, cryptoPieces]
  | ping => simp [frames, Frame.encode, Reader.u8_cons, cryptoPieces]
  | ack body =>
    simp [frames, Frame.encode, Reader.u8_cons, cryptoPieces, ackFrame_encode]
  | ackEcn body ect0 ect1 ce =>
    have h := ackFrame_encode_ecn (pre ++ [0x03]) rest body ect0 ect1 ce
    simp only [List.append_assoc] at h
    simp [frames, Frame.encode, Reader.u8_cons, cryptoPieces, h]
  | crypto piece =>
    simp [frames, Frame.encode, Reader.u8_cons, cryptoPieces, Reader.varint_encode, piece.sized,
      Reader.take_between]

theorem cryptoPieces_cons (f : Frame) (fs : List Frame) :
    cryptoPieces (f :: fs) = cryptoPieces [f] ++ cryptoPieces fs := by
  rw [← List.singleton_append, cryptoPieces, List.filterMap_append]
  rfl

/-- The frame loop reads a list of frames and goes on after it. -/
theorem frames_encode (fs : List Frame) (fuel : Nat) (pre rest : Bytes)
    (pieces : List (Nat × Bytes)) :
    frames (fs.length + fuel) (between pre (encodeFrames fs ++ rest)) pieces =
      frames fuel (between (pre ++ encodeFrames fs) rest) (pieces ++ cryptoPieces fs) := by
  induction fs generalizing pre pieces with
  | nil => simp [encodeFrames, cryptoPieces]
  | cons f fs ih =>
    have hcons : encodeFrames (f :: fs) = f.encode ++ encodeFrames fs := rfl
    rw [List.length_cons, Nat.succ_add, hcons, List.append_assoc, frames_cons, ih,
      cryptoPieces_cons f fs, List.append_assoc, List.append_assoc]

theorem length_encode_pos (f : Frame) : 0 < f.encode.length := by
  cases f <;> simp [Frame.encode]

theorem length_le_encodeFrames (fs : List Frame) : fs.length ≤ (encodeFrames fs).length := by
  induction fs with
  | nil => exact Nat.le_refl _
  | cons f fs ih =>
    have hpos := length_encode_pos f
    have hcons : encodeFrames (f :: fs) = f.encode ++ encodeFrames fs := rfl
    rw [List.length_cons, hcons, List.length_append]
    omega

/-- What may stand after the frames a client sends in an Initial: nothing, or a
frame of another type and anything after it. -/
def Stops (rest : Bytes) : Prop :=
  ∀ frame ∈ rest.head?, frame ∉ [0x00, 0x01, 0x02, 0x03, (0x06 : UInt8)]

theorem stops_iff (rest : Bytes) :
    Stops rest ↔ (rest.head?.all (· ∉ [0x00, 0x01, 0x02, 0x03, (0x06 : UInt8)])) = true := by
  cases rest <;> simp [Stops]

instance (rest : Bytes) : Decidable (Stops rest) := decidable_of_iff _ (stops_iff rest).symm

theorem stops_nil : Stops [] := by decide

/-- The frame loop ends where the understood frames end. -/
theorem frames_stops (fuel : Nat) (pre : Bytes) {rest : Bytes} (h : Stops rest)
    (pieces : List (Nat × Bytes)) : frames (fuel + 1) (between pre rest) pieces = some pieces := by
  cases rest with
  | nil =>
    rw [frames, Reader.u8_nil]
  | cons frame after =>
    have hframe := h frame (by simp)
    simp only [List.mem_cons, List.not_mem_nil, or_false, not_or] at hframe
    obtain ⟨h₀, h₁, h₂, h₃, h₆⟩ := hframe
    simp only [frames, Reader.u8_cons, h₀, h₁, h₂, h₃, h₆, or_self, if_false]

/-- The walk over a payload gives the CRYPTO pieces of its frames. -/
theorem frames_payload (fs : List Frame) {rest : Bytes} (h : Stops rest) :
    frames ((encodeFrames fs ++ rest).length + 1) (Reader.new (encodeFrames fs ++ rest)) [] =
      some (cryptoPieces fs) := by
  have hlen := length_le_encodeFrames fs
  have hfuel : (encodeFrames fs ++ rest).length + 1 =
      fs.length + ((encodeFrames fs).length - fs.length + rest.length + 1) := by
    rw [List.length_append]
    omega
  rw [hfuel, Reader.new_eq, frames_encode, frames_stops _ _ h, List.nil_append]

/-- The pieces are cut out of one stream. -/
def Agree (stream : Bytes) (pieces : List (Nat × Bytes)) : Prop :=
  ∀ piece ∈ pieces, slice? stream piece.1 (piece.1 + piece.2.length) = some piece.2

/-- The byte at index `i` is in one of the pieces. -/
def Covered (pieces : List (Nat × Bytes)) (i : Nat) : Prop :=
  ∃ piece ∈ pieces, piece.1 ≤ i ∧ i < piece.1 + piece.2.length

/-- A piece that begins within what is in hand extends it to the piece's end. -/
theorem take_append_piece {stream data : Bytes} {offset inHand : Nat}
    (hpiece : slice? stream offset (offset + data.length) = some data) (hbegin : offset ≤ inHand)
    (hend : inHand - offset ≤ data.length) :
    offset + data.length ≤ stream.length ∧
    stream.take inHand ++ data.drop (inHand - offset) = stream.take (offset + data.length) := by
  rw [slice?] at hpiece
  split at hpiece
  · next hbound =>
    rw [Option.some.injEq, Nat.add_sub_cancel_left] at hpiece
    refine ⟨hbound.2, ?_⟩
    obtain ⟨n, rfl⟩ : ∃ n, inHand = offset + n := ⟨inHand - offset, by omega⟩
    rw [Nat.add_sub_cancel_left] at hend ⊢
    nth_rewrite 1 [← hpiece]
    rw [List.drop_take, List.drop_drop, ← List.take_add]
    congr 1
    omega
  · cases hpiece

theorem assemble_cons (offset : Nat) (data : Bytes) (rest : List (Nat × Bytes)) (crypto : Bytes) :
    assemble ((offset, data) :: rest) crypto =
      if offset > crypto.length then crypto
      else assemble rest (if crypto.length - offset ≤ data.length then
        crypto ++ data.drop (crypto.length - offset) else crypto) := rfl

/-- What assembling sorted pieces of a stream ends with: the stream up to the
first index from `k` on that no piece covers. -/
theorem assemble_spec {stream : Bytes} {pieces : List (Nat × Bytes)}
    (hsorted : pieces.Pairwise fun a b => a.1 ≤ b.1) (hagree : Agree stream pieces) {k : Nat}
    (hk : k ≤ stream.length) :
    ∃ m, k ≤ m ∧ m ≤ stream.length ∧ assemble pieces (stream.take k) = stream.take m ∧
      (∀ i, k ≤ i → i < m → Covered pieces i) ∧ ¬ Covered pieces m := by
  induction pieces generalizing k with
  | nil => exact ⟨k, Nat.le_refl _, hk, rfl, by omega, by simp [Covered]⟩
  | cons piece rest ih =>
    obtain ⟨offset, data⟩ := piece
    obtain ⟨hfirst, hrest⟩ := List.pairwise_cons.mp hsorted
    have hagree' : Agree stream rest := fun p hp => hagree p (List.mem_cons_of_mem _ hp)
    have hlen : (stream.take k).length = k := List.length_take_of_le hk
    have hgo : ∀ {k' : Nat}, k ≤ k' → k' ≤ stream.length → offset + data.length ≤ k' →
        (∀ i, k ≤ i → i < k' → Covered ((offset, data) :: rest) i) →
        ∃ m, k ≤ m ∧ m ≤ stream.length ∧ assemble rest (stream.take k') = stream.take m ∧
          (∀ i, k ≤ i → i < m → Covered ((offset, data) :: rest) i) ∧
          ¬ Covered ((offset, data) :: rest) m := by
      intro k' hkk' hk' hdone hcovered
      obtain ⟨m, hkm, hm, hassemble, hcov, hnot⟩ := ih hrest hagree' hk'
      refine ⟨m, Nat.le_trans hkk' hkm, hm, hassemble, fun i hki him => ?_, ?_⟩
      · rcases Nat.lt_or_ge i k' with hi | hi
        · exact hcovered i hki hi
        · obtain ⟨p, hp, hin⟩ := hcov i hi him
          exact ⟨p, List.mem_cons_of_mem _ hp, hin⟩
      · rintro ⟨p, hp, hin⟩
        rcases List.mem_cons.mp hp with rfl | hp
        · have hlt : m < offset + data.length := hin.2
          omega
        · exact hnot ⟨p, hp, hin⟩
    rw [assemble_cons, hlen]
    by_cases hhole : offset > k
    · -- A hole: this piece and all after it begin beyond it.
      rw [if_pos hhole]
      refine ⟨k, Nat.le_refl _, hk, rfl, by omega, ?_⟩
      rintro ⟨p, hp, hle, _⟩
      rcases List.mem_cons.mp hp with rfl | hp
      · exact Nat.not_lt.mpr hle hhole
      · have := hfirst p hp
        omega
    · rw [if_neg hhole]
      have hbegin : offset ≤ k := Nat.le_of_not_lt hhole
      by_cases hnew : k - offset ≤ data.length
      · have hpiece : slice? stream offset (offset + data.length) = some data :=
          hagree (offset, data) List.mem_cons_self
        obtain ⟨hend, htake⟩ := take_append_piece hpiece hbegin hnew
        rw [if_pos hnew, htake]
        refine hgo (by omega) hend (Nat.le_refl _) fun i hki hi => ?_
        exact ⟨(offset, data), List.mem_cons_self, Nat.le_trans hbegin hki, hi⟩
      · rw [if_neg hnew]
        exact hgo (Nat.le_refl _) hk (by omega) (by omega)

/-- Sorted or not, pieces of a stream give its covered prefix: the stream up to
the first index that no piece covers. -/
theorem assemble_sorted {stream : Bytes} {pieces : List (Nat × Bytes)}
    (hagree : Agree stream pieces) :
    ∃ m, m ≤ stream.length ∧
      assemble (pieces.insertionSort fun a b => a.1 ≤ b.1) [] = stream.take m ∧
      (∀ i, i < m → Covered pieces i) ∧ ¬ Covered pieces m := by
  have hperm := pieces.perm_insertionSort fun a b => a.1 ≤ b.1
  have htotal : Std.Total fun a b : Nat × Bytes => a.1 ≤ b.1 := ⟨fun a b => Nat.le_total a.1 b.1⟩
  have htrans : IsTrans (Nat × Bytes) fun a b => a.1 ≤ b.1 := ⟨fun _ _ _ => Nat.le_trans⟩
  have hsorted := pieces.pairwise_insertionSort fun a b => a.1 ≤ b.1
  have hcovered : ∀ i, Covered (pieces.insertionSort fun a b => a.1 ≤ b.1) i ↔ Covered pieces i :=
    fun i => exists_congr fun piece => and_congr_left' hperm.mem_iff
  obtain ⟨m, _, hm, hassemble, hbelow, hnot⟩ := assemble_spec hsorted
    (fun p hp => hagree p (hperm.mem_iff.mp hp)) (Nat.zero_le _)
  rw [List.take_zero] at hassemble
  exact ⟨m, hm, hassemble, fun i hi => (hcovered i).mp (hbelow i (Nat.zero_le _) hi),
    fun h => hnot ((hcovered m).mpr h)⟩

/-- Pieces that cover the whole stream give it back. -/
theorem assemble_of_covered {stream : Bytes} {pieces : List (Nat × Bytes)}
    (hagree : Agree stream pieces) (hcovered : ∀ i, i < stream.length → Covered pieces i) :
    assemble (pieces.insertionSort fun a b => a.1 ≤ b.1) [] = stream := by
  obtain ⟨m, hm, hassemble, _, hnot⟩ := assemble_sorted hagree
  have hall : m = stream.length := by
    refine Nat.le_antisymm hm (Nat.le_of_not_lt fun hlt => hnot ?_)
    exact hcovered m hlt
  rw [hassemble, hall, List.take_length]

/-- How many bytes from the beginning of the stream on the pieces cover. -/
def CoveredPrefix (pieces : List (Nat × Bytes)) (m : Nat) : Prop :=
  IsGreatest {m | ∀ i, i < m → Covered pieces i} m

theorem CoveredPrefix.unique {pieces pieces' : List (Nat × Bytes)} {m m' : Nat}
    (h : CoveredPrefix pieces m) (h' : CoveredPrefix pieces' m')
    (hsame : ∀ i, Covered pieces i ↔ Covered pieces' i) : m = m' :=
  Nat.le_antisymm (h'.2 fun i hi => (hsame i).mp (h.1 i hi))
    (h.2 fun i hi => (hsame i).mpr (h'.1 i hi))

/-- What `reassemble_crypto` returns for the pieces of one stream. -/
theorem reassembleCrypto_eq {stream : Bytes} {fs : List Frame} {rest : Bytes}
    (hstops : Stops rest) (hagree : Agree stream (cryptoPieces fs)) :
    ∃ m, CoveredPrefix (cryptoPieces fs) m ∧
      reassembleCrypto (encodeFrames fs ++ rest) =
        if m = 0 then none else some (stream.take m) := by
  obtain ⟨m, hm, hassemble, hbelow, hnot⟩ := assemble_sorted hagree
  refine ⟨m, ⟨hbelow, fun k hk => ?_⟩, ?_⟩
  · exact Nat.le_of_not_lt fun hlt => hnot (hk m hlt)
  · simp only [reassembleCrypto, frames_payload fs hstops, Option.bind_eq_bind, Option.bind_some,
      hassemble, List.isEmpty_iff, List.take_eq_nil_iff]
    by_cases hzero : m = 0
    · rw [if_pos hzero, if_pos (Or.inl hzero)]
    · have hne : stream ≠ [] := by
        rintro rfl
        exact hzero (Nat.le_zero.mp hm)
      rw [if_neg hzero, if_neg (not_or.mpr ⟨hzero, hne⟩)]
      rfl

/-- `reassemble_crypto` returns the part of the stream that the CRYPTO frames
cover from its beginning on, or nothing if that is empty. Which frames cover it,
in which order, how often and with what between them makes no difference. -/
theorem reassembly_is_covered_prefix (stream : Bytes) (fs : List Frame) (rest : Bytes)
    (hstops : Stops rest) (hagree : Agree stream (cryptoPieces fs)) :
    (∃ m, IsGreatest {m | ∀ i, i < m → Covered (cryptoPieces fs) i} m ∧
      reassembleCrypto (encodeFrames fs ++ rest) =
        if m = 0 then none else some (stream.take m)) ∧
    ∀ (fs' : List Frame) (rest' : Bytes), Stops rest' → Agree stream (cryptoPieces fs') →
      (∀ i, Covered (cryptoPieces fs) i ↔ Covered (cryptoPieces fs') i) →
      reassembleCrypto (encodeFrames fs' ++ rest') = reassembleCrypto (encodeFrames fs ++ rest) := by
  refine ⟨reassembleCrypto_eq hstops hagree, fun fs' rest' hstops' hagree' hsame => ?_⟩
  obtain ⟨m, hm, hread⟩ := reassembleCrypto_eq hstops hagree
  obtain ⟨m', hm', hread'⟩ := reassembleCrypto_eq hstops' hagree'
  obtain rfl := hm.unique hm' hsame
  rw [hread, hread']

/-- Two overlapping frames in the wrong order with PADDING between them. -/
def overlapping : List Frame :=
  [.crypto ⟨⟨⟨1, by decide⟩, 1, by decide⟩, ⟨⟨0, by decide⟩, 2, by decide⟩, [8, 9], rfl⟩, .padding,
    .crypto ⟨⟨⟨2, by decide⟩, 0, by decide⟩, ⟨⟨0, by decide⟩, 2, by decide⟩, [7, 8], rfl⟩]

theorem mem_overlapping {piece : Nat × Bytes} (h : piece ∈ cryptoPieces overlapping) :
    piece = (1, [8, 9]) ∨ piece = (0, [7, 8]) := by
  simpa [overlapping, cryptoPieces] using h

/-- A frame of another type follows the two. -/
theorem reassembly_is_covered_prefix_overlapping :
    reassembleCrypto (encodeFrames overlapping ++ [0x1c, 0x00]) = some [7, 8, 9] := by
  have hstops : Stops [0x1c, 0x00] := by decide
  have hagree : Agree [7, 8, 9] (cryptoPieces overlapping) := by
    intro piece hm
    rcases mem_overlapping hm with rfl | rfl
    · rfl
    · rfl
  obtain ⟨⟨m, hm, hread⟩, _⟩ :=
    reassembly_is_covered_prefix [7, 8, 9] overlapping [0x1c, 0x00] hstops hagree
  have hthree : CoveredPrefix (cryptoPieces overlapping) 3 := by
    refine ⟨fun i hi => ?_, fun k hk => Nat.le_of_not_lt fun hlt => ?_⟩
    · by_cases htwo : i < 2
      · exact ⟨(0, [7, 8]), by simp [overlapping, cryptoPieces], Nat.zero_le _, htwo⟩
      · have hlast : i = 2 := by
          have : i < 3 := hi
          omega
        exact ⟨(1, [8, 9]), by simp [overlapping, cryptoPieces], by simp [hlast]⟩
    · obtain ⟨piece, hp, hin⟩ := hk 3 hlt
      rcases mem_overlapping hp with rfl | rfl
      · simp at hin
      · simp at hin
  obtain rfl := CoveredPrefix.unique hm hthree fun i => Iff.rfl
  exact hread

/-- The bytes the pieces of some frames carry fit into the payload. -/
def dataLength (pieces : List (Nat × Bytes)) : Nat := (pieces.map fun piece => piece.2.length).sum

theorem dataLength_le_encodeFrames (fs : List Frame) :
    dataLength (cryptoPieces fs) ≤ (encodeFrames fs).length := by
  induction fs with
  | nil => exact Nat.le_refl _
  | cons f fs ih =>
    have hcons : encodeFrames (f :: fs) = f.encode ++ encodeFrames fs := rfl
    have hone : dataLength (cryptoPieces [f]) ≤ f.encode.length := by
      cases f with
      | crypto piece =>
        have hdata : dataLength (cryptoPieces [.crypto piece]) = piece.data.length := by
          simp [dataLength, cryptoPieces]
        rw [hdata, Frame.encode, List.length_cons, List.length_append]
        omega
      | _ => exact Nat.zero_le _
    rw [hcons, List.length_append, cryptoPieces_cons, dataLength, List.map_append, List.sum_append]
    exact Nat.add_le_add hone ih

theorem length_assemble_le (pieces : List (Nat × Bytes)) (crypto : Bytes) :
    (assemble pieces crypto).length ≤ crypto.length + dataLength pieces := by
  induction pieces generalizing crypto with
  | nil => exact Nat.le_refl _
  | cons piece rest ih =>
    obtain ⟨offset, data⟩ := piece
    have hsum : dataLength ((offset, data) :: rest) = data.length + dataLength rest := by
      simp [dataLength]
    rw [assemble_cons, hsum]
    split
    · omega
    · refine Nat.le_trans (ih _) ?_
      split
      · rw [List.length_append, List.length_drop]
        omega
      · omega

theorem ackRanges_left {ranges n : Nat} {r r' : Reader} (h : r.Left n)
    (hread : ackRanges ranges r = some r') : r'.Left n := by
  induction ranges generalizing r n with
  | zero =>
    obtain rfl := Option.some.inj hread
    exact h
  | succ ranges ih =>
    simp only [ackRanges, Option.bind_eq_bind, Option.bind_eq_some_iff, Prod.exists] at hread
    obtain ⟨_, r₁, h₁, _, r₂, h₂, hrest⟩ := hread
    obtain ⟨m, rfl, hm⟩ := h.varint h₁
    obtain ⟨k, rfl, hk⟩ := hm.varint h₂
    exact (ih hk hrest).mono (by omega)

theorem ackFrame_left {frame : UInt8} {n : Nat} {r r' : Reader} (h : r.Left n)
    (hread : ackFrame frame r = some r') : r'.Left n := by
  simp only [ackFrame, Option.bind_eq_bind, Option.bind_eq_some_iff, Prod.exists] at hread
  obtain ⟨_, r₁, h₁, _, r₂, h₂, _, r₃, h₃, _, r₄, h₄, r₅, h₅, hread⟩ := hread
  obtain ⟨_, rfl, left₁⟩ := h.varint h₁
  obtain ⟨_, rfl, left₂⟩ := left₁.varint h₂
  obtain ⟨_, rfl, left₃⟩ := left₂.varint h₃
  obtain ⟨_, rfl, left₄⟩ := left₃.varint h₄
  have left₅ := ackRanges_left left₄ h₅
  split at hread
  · simp only [Option.bind_eq_some_iff, Prod.exists] at hread
    obtain ⟨_, r₆, h₆, _, r₇, h₇, _, r₈, h₈, hread⟩ := hread
    obtain ⟨_, rfl, left₆⟩ := left₅.varint h₆
    obtain ⟨_, rfl, left₇⟩ := left₆.varint h₇
    obtain ⟨_, rfl, left₈⟩ := left₇.varint h₈
    obtain rfl := Option.some.inj hread
    exact left₈.mono (by omega)
  · obtain rfl := Option.some.inj hread
    exact left₅.mono (by omega)

/-- The pieces the frame walk collects lie side by side in the payload. -/
theorem dataLength_frames_le {fuel n : Nat} {r : Reader} {pieces pieces' : List (Nat × Bytes)}
    (h : r.Left n) (hwalk : frames fuel r pieces = some pieces') :
    dataLength pieces' ≤ dataLength pieces + n := by
  induction fuel generalizing r n pieces with
  | zero => cases hwalk
  | succ fuel ih =>
    rw [frames] at hwalk
    cases hu : r.u8 with
    | none =>
      rw [hu] at hwalk
      obtain rfl := Option.some.inj hwalk
      exact Nat.le_add_right _ _
    | some read =>
      obtain ⟨frame, r₁⟩ := read
      rw [hu] at hwalk
      dsimp only at hwalk
      obtain ⟨m, rfl, hm⟩ := h.u8 hu
      split at hwalk
      · have := ih hm hwalk
        omega
      split at hwalk
      · obtain ⟨r₂, h₂, hwalk⟩ := Option.bind_eq_some_iff.mp hwalk
        have := ih (ackFrame_left hm h₂) hwalk
        omega
      split at hwalk
      · simp only [Option.bind_eq_bind, Option.bind_eq_some_iff, Prod.exists] at hwalk
        obtain ⟨offset, r₂, h₂, len, r₃, h₃, data, r₄, h₄, hwalk⟩ := hwalk
        obtain ⟨_, rfl, left₂⟩ := hm.varint h₂
        obtain ⟨_, rfl, left₃⟩ := left₂.varint h₃
        obtain ⟨_, rfl, left₄⟩ := left₃.take h₄
        have hle := ih left₄ hwalk
        have hsum : dataLength (pieces ++ [(offset, data)]) = dataLength pieces + data.length := by
          simp [dataLength]
        omega
      · obtain rfl := Option.some.inj hwalk
        exact Nat.le_add_right _ _

/-- What is reassembled is no longer than the payload. -/
theorem length_reassembleCrypto_le {payload stream : Bytes}
    (h : reassembleCrypto payload = some stream) : stream.length ≤ payload.length := by
  simp only [reassembleCrypto, Option.bind_eq_bind, Option.bind_eq_some_iff,
    Option.ite_none_left_eq_some, Option.pure_def, Option.some.injEq] at h
  obtain ⟨pieces, hwalk, _, rfl⟩ := h
  have hperm := pieces.perm_insertionSort fun a b => a.1 ≤ b.1
  have hsum : dataLength (pieces.insertionSort fun a b => a.1 ≤ b.1) = dataLength pieces :=
    (hperm.map _).sum_nat
  have hassemble := length_assemble_le (pieces.insertionSort fun a b => a.1 ≤ b.1) []
  have hdata := dataLength_frames_le (Reader.left_new payload) hwalk
  have hnil : dataLength [] = 0 := rfl
  rw [hsum, List.length_nil] at hassemble
  omega

section Stream

variable {stream : Bytes} {fs : List Frame} (hagree : Agree stream (cryptoPieces fs))
  (hcovered : ∀ i, i < stream.length → Covered (cryptoPieces fs) i)
include hagree hcovered

/-- Reassembly undoes cutting a stream into frames. -/
theorem reassembleCrypto_encodeFrames (hne : stream ≠ []) :
    reassembleCrypto (encodeFrames fs) = some stream := by
  have hempty : stream.isEmpty = false := by simpa using hne
  have hwalk := frames_payload fs stops_nil
  rw [List.append_nil] at hwalk
  simp only [reassembleCrypto, hwalk, Option.bind_eq_bind, Option.bind_some,
    assemble_of_covered hagree hcovered, hempty]
  rfl

theorem length_le_of_covered : stream.length ≤ (encodeFrames fs).length := by
  have hassemble := assemble_of_covered hagree hcovered
  have hperm := (cryptoPieces fs).perm_insertionSort fun a b => a.1 ≤ b.1
  have hle := length_assemble_le ((cryptoPieces fs).insertionSort fun a b => a.1 ≤ b.1) []
  have hsum : dataLength ((cryptoPieces fs).insertionSort fun a b => a.1 ≤ b.1) =
      dataLength (cryptoPieces fs) := (hperm.map _).sum_nat
  rw [hassemble, hsum, List.length_nil, Nat.zero_add] at hle
  exact Nat.le_trans hle (dataLength_le_encodeFrames fs)

end Stream

/-- A run of PADDING frames. -/
theorem encodeFrames_padding (n : Nat) :
    encodeFrames (List.replicate n .padding) = List.replicate n 0 := by
  induction n with
  | zero => rfl
  | succ n ih =>
    have hcons : encodeFrames (List.replicate (n + 1) .padding) =
        0 :: encodeFrames (List.replicate n .padding) := rfl
    rw [hcons, ih, List.replicate_succ]

theorem cryptoPieces_padding (n : Nat) : cryptoPieces (List.replicate n .padding) = [] := by
  induction n with
  | zero => rfl
  | succ n ih => exact ih

/-- A stream in one piece. -/
theorem agree_whole (stream : Bytes) : Agree stream [(0, stream)] := by
  intro piece hm
  obtain rfl := List.mem_singleton.mp hm
  simpa using slice?_append [] stream []

theorem covered_whole {stream : Bytes} {i : Nat} (h : i < stream.length) :
    Covered [(0, stream)] i :=
  ⟨(0, stream), List.mem_singleton_self _, Nat.zero_le _, by simpa using h⟩

end Sleepytale.Sni
