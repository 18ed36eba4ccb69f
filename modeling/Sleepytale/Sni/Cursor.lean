import Sleepytale.Sni.Peek

/-!
# What a successful read took

Each read of the cursor succeeds exactly on the bytes a sender writes for its
field. So a value that was read names the bytes it came from, and reading is
local: what follows a field has no influence on it.
-/

namespace Sleepytale.Sni

open Sleepytale.Net
open Sleepytale.Lib.Bytes

namespace Reader

variable {pre rest : Bytes} {r : Reader}

theorem take_eq_some_iff {len : Nat} {piece : Bytes} :
    (between pre rest).take len = some (piece, r) ↔
      piece.length = len ∧ ∃ after, rest = piece ++ after ∧ r = between (pre ++ piece) after := by
  constructor
  · intro h
    simp only [take, between, slice?, Option.bind_eq_bind, Option.bind_eq_some_iff, Option.pure_def,
      Option.some.injEq, Prod.mk.injEq] at h
    obtain ⟨piece', hslice, rfl, rfl⟩ := h
    obtain ⟨hbound, hpiece⟩ := Option.ite_none_right_eq_some.mp hslice
    have hle : len ≤ rest.length := by
      have := hbound.2
      rw [List.length_append] at this
      omega
    rw [Option.some.injEq, List.drop_left, Nat.add_sub_cancel_left] at hpiece
    refine ⟨?_, rest.drop len, ?_, ?_⟩
    · rw [← hpiece, List.length_take, Nat.min_eq_left hle]
    · rw [← hpiece, List.take_append_drop]
    · rw [← hpiece, between, List.append_assoc, List.take_append_drop, List.length_append,
        List.length_take, Nat.min_eq_left hle]
  · rintro ⟨hlen, after, rfl, rfl⟩
    exact take_of_length hlen

theorem skip_eq_some_iff {len : Nat} :
    (between pre rest).skip len = some r ↔
      ∃ piece after, piece.length = len ∧ rest = piece ++ after ∧
        r = between (pre ++ piece) after := by
  simp only [skip, Option.bind_eq_bind, Option.bind_eq_some_iff, Option.pure_def,
    Option.some.injEq, Prod.exists, take_eq_some_iff]
  constructor
  · rintro ⟨piece, r', ⟨hlen, after, hrest, hr'⟩, rfl⟩
    exact ⟨piece, after, hlen, hrest, hr'⟩
  · rintro ⟨piece, after, hlen, hrest, hr⟩
    exact ⟨piece, r, ⟨hlen, after, hrest, hr⟩, rfl⟩

theorem u8_eq_some_iff {b : UInt8} :
    (between pre rest).u8 = some (b, r) ↔
      ∃ after, rest = b :: after ∧ r = between (pre ++ [b]) after := by
  constructor
  · intro h
    simp only [u8, Option.bind_eq_bind, Option.bind_eq_some_iff, Option.pure_def,
      Option.some.injEq, Prod.mk.injEq, Prod.exists, take_eq_some_iff] at h
    obtain ⟨piece, r', ⟨hlen, after, hrest, hr'⟩, hb, rfl⟩ := h
    obtain ⟨b', rfl⟩ := List.length_eq_one_iff.mp hlen
    obtain rfl : b' = b := hb
    exact ⟨after, hrest, hr'⟩
  · rintro ⟨after, rfl, rfl⟩
    exact u8_cons pre after b

/-- A big-endian field of a fixed width. -/
theorem field_eq_some_iff (width : Nat) {n : Nat} :
    ((between pre rest).take width).map (fun (b, r) => (beNat b, r)) = some (n, r) ↔
      n < 256 ^ width ∧ ∃ after, rest = beBytes width n ++ after ∧
        r = between (pre ++ beBytes width n) after := by
  simp only [Option.map_eq_some_iff, Prod.exists, Prod.mk.injEq, take_eq_some_iff]
  constructor
  · rintro ⟨piece, r', ⟨rfl, after, hrest, hr'⟩, rfl, rfl⟩
    rw [beBytes_beNat]
    exact ⟨beNat_lt piece, after, hrest, hr'⟩
  · rintro ⟨hn, after, hrest, hr⟩
    exact ⟨beBytes width n, r, ⟨length_beBytes _ _, after, hrest, hr⟩, beNat_beBytes hn, rfl⟩

theorem u16_eq_some_iff {n : Nat} :
    (between pre rest).u16 = some (n, r) ↔
      n < 2 ^ 16 ∧ ∃ after, rest = beBytes 2 n ++ after ∧ r = between (pre ++ beBytes 2 n) after := by
  refine Iff.trans ?_ (field_eq_some_iff 2)
  rw [Option.map_eq_bind]
  rfl

theorem u24_eq_some_iff {n : Nat} :
    (between pre rest).u24 = some (n, r) ↔
      n < 2 ^ 24 ∧ ∃ after, rest = beBytes 3 n ++ after ∧ r = between (pre ++ beBytes 3 n) after := by
  refine Iff.trans ?_ (field_eq_some_iff 3)
  rw [Option.map_eq_bind]
  rfl

theorem u32_eq_some_iff {n : Nat} :
    (between pre rest).u32 = some (n, r) ↔
      n < 2 ^ 32 ∧ ∃ after, rest = beBytes 4 n ++ after ∧ r = between (pre ++ beBytes 4 n) after := by
  refine Iff.trans ?_ (field_eq_some_iff 4)
  rw [Option.map_eq_bind]
  rfl

theorem cid_eq_some_iff {id : Bytes} :
    (between pre rest).cid = some (id, r) ↔
      id.length ≤ maxCid ∧ ∃ after, rest = UInt8.ofNat id.length :: (id ++ after) ∧
        r = between (pre ++ [UInt8.ofNat id.length] ++ id) after := by
  constructor
  · intro h
    simp only [cid, Option.bind_eq_bind, Option.bind_eq_some_iff, Prod.exists, u8_eq_some_iff] at h
    obtain ⟨len, r', ⟨after', rfl, rfl⟩, hrest⟩ := h
    split at hrest
    · cases hrest
    · next hshort =>
      obtain ⟨hlen, after, rfl, rfl⟩ := take_eq_some_iff.mp hrest
      rw [hlen, UInt8.ofNat_toNat]
      exact ⟨Nat.le_of_not_lt hshort, after, rfl, rfl⟩
  · rintro ⟨hshort, after, rfl, rfl⟩
    exact cid_cons pre id after hshort

/-- The bytes of a variable-length integer are one of its encodings. -/
theorem exists_varint {first : UInt8} {tail : Bytes} (h : tail.length = 1 <<< (first >>> 6).toNat - 1) :
    ∃ v : Varint, v.encode = first :: tail ∧
      v.value = tail.foldl (fun n b => n <<< 8 ||| b.toNat) (first &&& 0x3f).toNat := by
  have hfirst : first.toNat < 256 := first.toNat_lt
  rw [toNat_shiftRight_six, Nat.one_shiftLeft] at h
  rw [toNat_and_63, foldl_eq]
  obtain ⟨e, he⟩ : ∃ e, first.toNat / 64 = e := ⟨_, rfl⟩
  obtain ⟨low, hlow⟩ : ∃ low, first.toNat % 64 = low := ⟨_, rfl⟩
  have hsplit : first.toNat = e * 64 + low := by omega
  rw [he] at h
  rw [hlow]
  have hwidth : 2 ^ e = tail.length + 1 := by
    have := Nat.two_pow_pos e
    omega
  have hpow : 2 ^ (8 * 2 ^ e - 2) = 64 * 256 ^ tail.length := by
    rw [hwidth, show 8 * (tail.length + 1) - 2 = 6 + 8 * tail.length by omega, Nat.pow_add,
      Nat.pow_mul]
  have htail := beNat_lt tail
  have hvalue : low * 256 ^ tail.length + beNat tail < 2 ^ (8 * 2 ^ e - 2) := by
    have hle : (low + 1) * 256 ^ tail.length ≤ 64 * 256 ^ tail.length :=
      Nat.mul_le_mul_right _ (by omega)
    rw [hpow]
    rw [Nat.add_mul, Nat.one_mul] at hle
    omega
  refine ⟨⟨⟨e, by omega⟩, low * 256 ^ tail.length + beNat tail, hvalue⟩, ?_, rfl⟩
  have hwhole : e * 2 ^ (8 * 2 ^ e - 2) + (low * 256 ^ tail.length + beNat tail) =
      beNat (first :: tail) := by
    have hcons : beNat (first :: tail) = first.toNat * 256 ^ tail.length + beNat tail := by
      rw [← foldl_eq tail first.toNat, beNat, List.foldl_cons, shift_or, Nat.zero_mul, Nat.zero_add]
    rw [hcons, hpow, hsplit]
    ring
  rw [Varint.encode, hwhole, hwidth]
  exact beBytes_beNat (first :: tail)

theorem varint_eq_some_iff {n : Nat} :
    (between pre rest).varint = some (n, r) ↔
      ∃ (v : Varint) (after : Bytes), v.value = n ∧ rest = v.encode ++ after ∧
        r = between (pre ++ v.encode) after := by
  constructor
  · intro h
    simp only [varint, Option.bind_eq_bind, Option.bind_eq_some_iff, Prod.exists, u8_eq_some_iff,
      Option.pure_def, Option.some.injEq, Prod.mk.injEq] at h
    obtain ⟨first, r', ⟨after', rfl, rfl⟩, tail, r'', htake, hvalue, rfl⟩ := h
    obtain ⟨hlen, after, rfl, rfl⟩ := take_eq_some_iff.mp htake
    obtain ⟨v, hencode, hv⟩ := exists_varint hlen
    refine ⟨v, after, hv.trans hvalue, ?_, ?_⟩
    · rw [hencode, List.cons_append]
    · rw [hencode, List.append_assoc, List.singleton_append]
  · rintro ⟨v, after, rfl, rfl, rfl⟩
    exact varint_encode pre after v

/-- At most `n` bytes are left before the cursor. -/
def Left (n : Nat) (r : Reader) : Prop := ∃ pre rest, r = between pre rest ∧ rest.length ≤ n

theorem left_new (bytes : Bytes) : Left bytes.length (new bytes) :=
  ⟨[], bytes, rfl, Nat.le_refl _⟩

theorem Left.mono {n m : Nat} (h : Left n r) (hle : n ≤ m) : Left m r := by
  obtain ⟨pre, rest, hr, hlen⟩ := h
  exact ⟨pre, rest, hr, Nat.le_trans hlen hle⟩

/-- A byte that is read is one fewer left. -/
theorem Left.u8 {n : Nat} {b : UInt8} {r' : Reader} (h : Left n r) (hread : r.u8 = some (b, r')) :
    ∃ m, n = m + 1 ∧ Left m r' := by
  obtain ⟨pre, rest, rfl, hlen⟩ := h
  obtain ⟨after, rfl, rfl⟩ := u8_eq_some_iff.mp hread
  rw [List.length_cons] at hlen
  exact ⟨n - 1, by omega, _, after, rfl, by omega⟩

theorem Left.take {n len : Nat} {piece : Bytes} {r' : Reader} (h : Left n r)
    (hread : r.take len = some (piece, r')) : ∃ m, n = piece.length + m ∧ Left m r' := by
  obtain ⟨pre, rest, rfl, hlen⟩ := h
  obtain ⟨rfl, after, rfl, rfl⟩ := take_eq_some_iff.mp hread
  rw [List.length_append] at hlen
  exact ⟨n - piece.length, by omega, _, after, rfl, by omega⟩

theorem Left.varint {n value : Nat} {r' : Reader} (h : Left n r)
    (hread : r.varint = some (value, r')) : ∃ m, n = m + 1 ∧ Left m r' := by
  simp only [Reader.varint, Option.bind_eq_bind, Option.bind_eq_some_iff, Prod.exists,
    Option.pure_def, Option.some.injEq, Prod.mk.injEq] at hread
  obtain ⟨first, r₁, hfirst, tail, r₂, htail, _, rfl⟩ := hread
  obtain ⟨m, rfl, hm⟩ := h.u8 hfirst
  obtain ⟨k, rfl, hk⟩ := hm.take htail
  exact ⟨tail.length + k, rfl, hk.mono (by omega)⟩

end Reader

end Sleepytale.Sni
