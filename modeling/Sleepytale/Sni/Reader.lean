import Sleepytale.Lib.Bytes
import Sleepytale.Net

/-!
# The cursor of `sni.rs`

`Reader` reads big-endian fields and QUIC varints and refuses to run off the
end. Each read returns the value with the advanced cursor. Lengths and values
are naturals: a varint is below `2 ^ 62` and a position never passes the end of
the slice, so no 64-bit operation of the source can wrap or be cut short.

The lemmas say what each read does on the bytes a sender writes for its field,
whatever stands behind the cursor and after the field.
-/

namespace Sleepytale.Sni

open Sleepytale.Net
open Sleepytale.Lib.Bytes

def maxCid : Nat := 20

structure Reader where
  bytes : Bytes
  pos : Nat
  deriving DecidableEq, Repr

namespace Reader

def new (bytes : Bytes) : Reader := ⟨bytes, 0⟩

def position (r : Reader) : Nat := r.pos

def take (r : Reader) (len : Nat) : Option (Bytes × Reader) := do
  let stop := r.pos + len
  let piece ← slice? r.bytes r.pos stop
  return (piece, { r with pos := stop })

def skip (r : Reader) (len : Nat) : Option Reader := do
  let (_, r) ← r.take len
  return r

def u8 (r : Reader) : Option (UInt8 × Reader) := do
  let (b, r) ← r.take 1
  return (b.headD 0, r)

def u16 (r : Reader) : Option (Nat × Reader) := do
  let (b, r) ← r.take 2
  return (beNat b, r)

def u24 (r : Reader) : Option (Nat × Reader) := do
  let (b, r) ← r.take 3
  return (beNat b, r)

def u32 (r : Reader) : Option (Nat × Reader) := do
  let (b, r) ← r.take 4
  return (beNat b, r)

/-- A connection ID, length-prefixed by one byte. -/
def cid (r : Reader) : Option (Bytes × Reader) := do
  let (len, r) ← r.u8
  if len.toNat > maxCid then none
  else r.take len.toNat

/-- RFC 9000, Section 16: the first two bits give the encoded length. -/
def varint (r : Reader) : Option (Nat × Reader) := do
  let (first, r) ← r.u8
  let len := 1 <<< (first >>> 6).toNat
  let (tail, r) ← r.take (len - 1)
  return (tail.foldl (fun value byte => value <<< 8 ||| byte.toNat) (first &&& 0x3f).toNat, r)

/-- A cursor with `pre` behind it and `rest` before it. -/
def between (pre rest : Bytes) : Reader := ⟨pre ++ rest, pre.length⟩

theorem new_eq (bytes : Bytes) : new bytes = between [] bytes := rfl

@[simp] theorem position_between (pre rest : Bytes) : (between pre rest).position = pre.length := rfl

theorem take_between (pre piece rest : Bytes) :
    (between pre (piece ++ rest)).take piece.length = some (piece, between (pre ++ piece) rest) := by
  simp only [take, between, slice?_append, Option.pure_def, Option.bind_eq_bind, Option.bind_some,
    List.append_assoc, List.length_append]

theorem take_of_length {pre piece rest : Bytes} {len : Nat} (h : piece.length = len) :
    (between pre (piece ++ rest)).take len = some (piece, between (pre ++ piece) rest) := by
  rw [← h]
  exact take_between pre piece rest

theorem take_all (pre piece : Bytes) :
    (between pre piece).take piece.length = some (piece, between (pre ++ piece) []) := by
  have h := take_between pre piece []
  rw [List.append_nil] at h
  exact h

theorem skip_of_length {pre piece rest : Bytes} {len : Nat} (h : piece.length = len) :
    (between pre (piece ++ rest)).skip len = some (between (pre ++ piece) rest) := by
  rw [skip, take_of_length h]
  rfl

theorem u8_cons (pre rest : Bytes) (b : UInt8) :
    (between pre (b :: rest)).u8 = some (b, between (pre ++ [b]) rest) := by
  have h := take_between pre [b] rest
  rw [List.singleton_append, List.length_singleton] at h
  rw [u8, h]
  rfl

theorem take_nil (pre : Bytes) {len : Nat} (h : 0 < len) : (between pre []).take len = none := by
  have hshort : (pre ++ []).length < pre.length + len := by
    rw [List.append_nil]
    omega
  simp only [take, between, slice?_eq_none hshort]
  rfl

theorem u8_nil (pre : Bytes) : (between pre []).u8 = none := by
  rw [u8, take_nil pre (by decide)]
  rfl

theorem u16_nil (pre : Bytes) : (between pre []).u16 = none := by
  rw [u16, take_nil pre (by decide)]
  rfl

theorem u16_beBytes (pre rest : Bytes) {n : Nat} (h : n < 2 ^ 16) :
    (between pre (beBytes 2 n ++ rest)).u16 = some (n, between (pre ++ beBytes 2 n) rest) := by
  rw [u16, take_of_length (length_beBytes 2 n)]
  simp [beNat_beBytes (show n < 256 ^ 2 from h)]

theorem u24_beBytes (pre rest : Bytes) {n : Nat} (h : n < 2 ^ 24) :
    (between pre (beBytes 3 n ++ rest)).u24 = some (n, between (pre ++ beBytes 3 n) rest) := by
  rw [u24, take_of_length (length_beBytes 3 n)]
  simp [beNat_beBytes (show n < 256 ^ 3 from h)]

theorem u32_beBytes (pre rest : Bytes) {n : Nat} (h : n < 2 ^ 32) :
    (between pre (beBytes 4 n ++ rest)).u32 = some (n, between (pre ++ beBytes 4 n) rest) := by
  rw [u32, take_of_length (length_beBytes 4 n)]
  simp [beNat_beBytes (show n < 256 ^ 4 from h)]

theorem cid_cons (pre id rest : Bytes) (h : id.length ≤ maxCid) :
    (between pre (UInt8.ofNat id.length :: (id ++ rest))).cid =
      some (id, between (pre ++ [UInt8.ofNat id.length] ++ id) rest) := by
  have hlen : (UInt8.ofNat id.length).toNat = id.length := by
    rw [UInt8.toNat_ofNat']
    exact Nat.mod_eq_of_lt (Nat.lt_of_le_of_lt h (by decide))
  rw [cid, u8_cons]
  simp only [Option.bind_eq_bind, Option.bind_some, hlen, if_neg (Nat.not_lt.mpr h),
    take_between]

end Reader

/-- A QUIC variable-length integer: a value and one of the widths it fits. -/
structure Varint where
  exponent : Fin 4
  value : Nat
  bound : value < 2 ^ (8 * 2 ^ exponent.val - 2)

def Varint.encode (v : Varint) : Bytes :=
  beBytes (2 ^ v.exponent.val) (v.exponent.val * 2 ^ (8 * 2 ^ v.exponent.val - 2) + v.value)

theorem toNat_shiftRight_six (b : UInt8) : (b >>> 6).toNat = b.toNat / 64 := by
  rw [UInt8.toNat_shiftRight, Nat.shiftRight_eq_div_pow]
  rfl

theorem toNat_and_63 (b : UInt8) : (b &&& 0x3f).toNat = b.toNat % 64 := by
  rw [UInt8.toNat_and]
  exact Nat.and_two_pow_sub_one_eq_mod b.toNat 6

theorem toNat_and_three_lt (b : UInt8) : (b &&& 0x03).toNat < 4 := by
  rw [UInt8.toNat_and]
  exact Nat.lt_succ_of_le Nat.and_le_right

/-- The first byte carries the width and the top of the value, the others the rest. -/
theorem Varint.encode_eq (v : Varint) : ∃ (first : UInt8) (tail : Bytes),
    v.encode = first :: tail ∧ first.toNat / 64 = v.exponent.val ∧
    tail.length = 2 ^ v.exponent.val - 1 ∧
    tail.foldl (fun n b => n <<< 8 ||| b.toNat) (first.toNat % 64) = v.value := by
  obtain ⟨⟨e, he⟩, value, hbound⟩ := v
  obtain ⟨width, hwidth⟩ : ∃ width, 2 ^ e = width + 1 :=
    Nat.exists_eq_add_one_of_ne_zero (Nat.ne_of_gt (Nat.two_pow_pos e))
  have hpow : 2 ^ (8 * 2 ^ e - 2) = 64 * 256 ^ width := by
    rw [hwidth, show 8 * (width + 1) - 2 = 6 + 8 * width by omega, Nat.pow_add, Nat.pow_mul]
  have hpos : 0 < 256 ^ width := Nat.pow_pos (by decide)
  rw [hpow, Nat.mul_comm 64] at hbound
  have hquot : value / 256 ^ width < 64 := Nat.div_lt_of_lt_mul hbound
  generalize hN : e * 2 ^ (8 * 2 ^ e - 2) + value = N
  rw [hpow, ← Nat.mul_assoc, Nat.add_comm] at hN
  have htop : N / 256 ^ width = value / 256 ^ width + e * 64 := by
    rw [← hN, Nat.add_mul_div_right _ _ hpos]
  have hlow : N % 256 ^ width = value % 256 ^ width := by
    rw [← hN, Nat.add_mul_mod_self_right]
  have hbyte : (UInt8.ofNat (N / 256 ^ width)).toNat = value / 256 ^ width + e * 64 := by
    rw [htop, UInt8.toNat_ofNat']
    exact Nat.mod_eq_of_lt (by omega)
  refine ⟨UInt8.ofNat (N / 256 ^ width), beBytes width N, ?_, ?_, ?_, ?_⟩
  · rw [← beBytes_succ, ← hwidth, ← hN, Nat.add_comm, Nat.mul_assoc, ← hpow]
    rfl
  · rw [hbyte, Nat.add_mul_div_right _ _ (by decide), Nat.div_eq_of_lt hquot, Nat.zero_add]
  · rw [length_beBytes, hwidth]
    rfl
  · rw [foldl_beBytes, hbyte, hlow, Nat.add_mul_mod_self_right, Nat.mod_eq_of_lt hquot]
    exact Nat.div_add_mod' value (256 ^ width)

theorem Reader.varint_encode (pre rest : Bytes) (v : Varint) :
    (between pre (v.encode ++ rest)).varint = some (v.value, between (pre ++ v.encode) rest) := by
  obtain ⟨first, tail, hencode, hexponent, hlength, hvalue⟩ := v.encode_eq
  have htake : tail.length = 1 <<< (first >>> 6).toNat - 1 := by
    rw [hlength, toNat_shiftRight_six, hexponent, Nat.one_shiftLeft]
  rw [hencode, List.cons_append, varint, u8_cons]
  simp only [Option.bind_eq_bind, Option.bind_some, take_of_length htake, toNat_and_63, hvalue,
    Option.pure_def, List.append_assoc, List.singleton_append]

end Sleepytale.Sni
