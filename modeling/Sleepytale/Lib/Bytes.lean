import Mathlib.Data.List.Induction
import Mathlib.Tactic.Ring
import Sleepytale.Lib.Lists

/-!
# Byte strings: slices and big-endian numbers

`beBytes` writes a number and `beNat` reads one; the fold that reads may also
start from what earlier bytes said.
-/

namespace Sleepytale.Lib.Bytes

open Sleepytale.Lib.Lists

/-- `bytes.get(start..stop)`. -/
def slice? (bytes : List UInt8) (start stop : Nat) : Option (List UInt8) :=
  if start ≤ stop ∧ stop ≤ bytes.length then some ((bytes.drop start).take (stop - start))
  else none

/-- The number a big-endian byte string denotes. -/
def beNat (bytes : List UInt8) : Nat := bytes.foldl (fun n b => n <<< 8 ||| b.toNat) 0

/-- The `width` low bytes of a number, most significant first. -/
def beBytes : Nat → Nat → List UInt8
  | 0, _ => []
  | width + 1, n => beBytes width (n / 256) ++ [UInt8.ofNat n]

theorem slice?_append (pre piece rest : List UInt8) :
    slice? (pre ++ (piece ++ rest)) pre.length (pre.length + piece.length) = some piece := by
  have hbound : pre.length + piece.length ≤ (pre ++ (piece ++ rest)).length := by
    simp only [List.length_append]
    omega
  rw [slice?, if_pos ⟨Nat.le_add_right _ _, hbound⟩, List.drop_left, Nat.add_sub_cancel_left,
    List.take_left]

theorem slice?_eq_none {bytes : List UInt8} {stop : Nat} (h : bytes.length < stop) (start : Nat) :
    slice? bytes start stop = none := by
  rw [slice?, if_neg (fun hb => Nat.lt_irrefl _ (Nat.lt_of_lt_of_le h hb.2))]

theorem exists_slice? {bytes : List UInt8} {start stop : Nat} (h : start ≤ stop)
    (h' : stop ≤ bytes.length) : ∃ piece, slice? bytes start stop = some piece :=
  ⟨_, if_pos ⟨h, h'⟩⟩

theorem length_slice? {bytes piece : List UInt8} {start stop : Nat}
    (h : slice? bytes start stop = some piece) : piece.length = stop - start := by
  obtain ⟨hbounds, hpiece⟩ := Option.ite_none_right_eq_some.mp h
  rw [← Option.some.inj hpiece, List.length_take, List.length_drop]
  omega

theorem shift_or (n : Nat) (b : UInt8) : n <<< 8 ||| b.toNat = n * 256 + b.toNat := by
  have hb : b.toNat < 2 ^ 8 := b.toNat_lt
  rw [Nat.shiftLeft_eq, Nat.mul_comm n, ← Nat.two_pow_add_eq_or_of_lt hb, Nat.mul_comm]

theorem length_beBytes (width n : Nat) : (beBytes width n).length = width := by
  induction width generalizing n with
  | zero => rfl
  | succ width ih => rw [beBytes, List.length_append, ih, List.length_singleton]

theorem foldl_beBytes (width a n : Nat) :
    (beBytes width n).foldl (fun n b => n <<< 8 ||| b.toNat) a =
      a * 256 ^ width + n % 256 ^ width := by
  induction width generalizing n with
  | zero => simp [beBytes, Nat.mod_one]
  | succ width ih =>
    rw [beBytes, List.foldl_append, ih]
    simp only [List.foldl_cons, List.foldl_nil, shift_or]
    have hbyte : (UInt8.ofNat n).toNat = n % 256 := UInt8.toNat_ofNat'
    have hpow : 256 ^ (width + 1) = 256 * 256 ^ width := by rw [Nat.pow_succ, Nat.mul_comm]
    rw [hbyte, hpow, Nat.mod_mul]
    ring

theorem beNat_beBytes {width n : Nat} (h : n < 256 ^ width) : beNat (beBytes width n) = n := by
  rw [beNat, foldl_beBytes, Nat.mod_eq_of_lt h, Nat.zero_mul, Nat.zero_add]

/-- Reading goes on from what earlier bytes said. -/
theorem foldl_eq (bytes : List UInt8) (a : Nat) :
    bytes.foldl (fun n b => n <<< 8 ||| b.toNat) a = a * 256 ^ bytes.length + beNat bytes := by
  induction bytes using List.reverseRecOn with
  | nil => simp [beNat]
  | append_singleton bytes b ih =>
    rw [beNat, List.foldl_append, List.foldl_append, ih, ← beNat]
    simp only [List.foldl_cons, List.foldl_nil, shift_or, List.length_append, List.length_singleton]
    ring

theorem beNat_concat (bytes : List UInt8) (b : UInt8) :
    beNat (bytes ++ [b]) = beNat bytes * 256 + b.toNat := by
  rw [beNat, List.foldl_append, ← beNat]
  exact shift_or _ b

theorem beNat_lt (bytes : List UInt8) : beNat bytes < 256 ^ bytes.length := by
  induction bytes using List.reverseRecOn with
  | nil => decide
  | append_singleton bytes b ih =>
    have hb : b.toNat < 256 := b.toNat_lt
    rw [beNat_concat, List.length_append, List.length_singleton, Nat.pow_succ]
    omega

/-- A byte string is what is written for the number it denotes. -/
theorem beBytes_beNat (bytes : List UInt8) : beBytes bytes.length (beNat bytes) = bytes := by
  induction bytes using List.reverseRecOn with
  | nil => rfl
  | append_singleton bytes b ih =>
    have hb : b.toNat < 256 := b.toNat_lt
    have hlow : UInt8.ofNat (beNat bytes * 256 + b.toNat) = b := by
      apply UInt8.toNat_inj.mp
      rw [UInt8.toNat_ofNat', Nat.mul_comm, Nat.mul_add_mod, Nat.mod_eq_of_lt hb]
    have hhigh : (beNat bytes * 256 + b.toNat) / 256 = beNat bytes := by omega
    rw [List.length_append, List.length_singleton, beNat_concat, beBytes, hlow, hhigh, ih]

theorem beBytes_one_toNat (b : UInt8) : beBytes 1 b.toNat = [b] := by
  rw [beBytes, UInt8.ofNat_toNat]
  rfl

theorem beBytes_succ (width n : Nat) :
    beBytes (width + 1) n = UInt8.ofNat (n / 256 ^ width) :: beBytes width n := by
  induction width generalizing n with
  | zero => simp [beBytes]
  | succ width ih =>
    rw [beBytes, ih, beBytes, List.cons_append, Nat.div_div_eq_div_mul, Nat.pow_succ,
      Nat.mul_comm 256]

/-- Leading zeros. -/
theorem beBytes_add {width n : Nat} (h : n < 256 ^ width) (extra : Nat) :
    beBytes (extra + width) n = List.replicate extra 0 ++ beBytes width n := by
  induction extra with
  | zero => simp
  | succ extra ih =>
    have hpow : n / 256 ^ (extra + width) = 0 := by
      refine Nat.div_eq_of_lt (Nat.lt_of_lt_of_le h ?_)
      exact Nat.pow_le_pow_right (by decide) (Nat.le_add_left _ _)
    rw [Nat.succ_add, beBytes_succ, hpow, ih, List.replicate_succ]
    rfl

theorem xor_xor_cancel (a m : UInt8) : a ^^^ m ^^^ m = a := by
  rw [UInt8.xor_assoc, UInt8.xor_self, UInt8.xor_zero]

/-- Xoring a pad into a byte string twice leaves it as it was. -/
theorem mapIdx_xor_cancel (bytes : List UInt8) (pad : Nat → UInt8) :
    (bytes.mapIdx fun i b => b ^^^ pad i).mapIdx (fun i b => b ^^^ pad i) = bytes := by
  rw [List.mapIdx_mapIdx]
  exact mapIdx_eq_self fun i _ b => xor_xor_cancel b (pad i)

end Sleepytale.Lib.Bytes
