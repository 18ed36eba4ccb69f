import Sleepytale.Knock
import Sleepytale.Lib.Panic
import Sleepytale.Sni.FirstPacket
import Sleepytale.Sni.Frames
import Sleepytale.Sni.Initial

/-!
# The peek path with every operation checked

The functions of `sni.rs` and `is_quic_initial` once more, now with the machine's
integers: each `+`, `-` and shift, each index and slice is an operation that may
panic. `usize` has 64 bits; `usize::try_from` of a `u64` and `u64::try_from` of a
`usize` then never fail and are left out. Each function agrees with its
unchecked model, so it panics on nothing.
-/

namespace Sleepytale.Sni

open Sleepytale.Net
open Sleepytale.Lib.Bytes
open Sleepytale.Lib.Panic

/-- The crates, with what `decrypt` returns in a `Vec`, which has fewer than
`2 ^ 63` bytes. -/
structure VecCrypto extends Crypto where
  vec : ∀ key nonce msg aad plaintext, decrypt key nonce msg aad = some plaintext →
    plaintext.length < 2 ^ 63

/-- Any crates, where a plaintext that no `Vec` holds counts as rejected. -/
def VecCrypto.ofCrypto (crypto : Crypto) : VecCrypto where
  toCrypto := { crypto with
    decrypt := fun key nonce msg aad =>
      (crypto.decrypt key nonce msg aad).filter fun plaintext => plaintext.length < 2 ^ 63 }
  vec _ _ _ _ _ h := of_decide_eq_true (Option.filter_eq_some_iff.mp h).2

theorem initial_ofCrypto (crypto : Crypto) (version : Nat) (dcid : Bytes) :
    Keys.initial (VecCrypto.ofCrypto crypto).toCrypto version dcid =
      Keys.initial crypto version dcid := rfl

theorem open_ofCrypto (crypto : Crypto) (keys : Keys) {datagram plaintext : Bytes}
    {pnOffset length : Nat} (h : keys.open crypto datagram pnOffset length = some plaintext)
    (hvec : plaintext.length < 2 ^ 63) :
    keys.open (VecCrypto.ofCrypto crypto).toCrypto datagram pnOffset length = some plaintext := by
  simp only [Keys.open, Option.bind_eq_bind, Option.bind_eq_some_iff] at h ⊢
  obtain ⟨sample, hsample, header, hheader, ciphertext, hciphertext, hopen⟩ := h
  refine ⟨sample, hsample, header, hheader, ciphertext, hciphertext, ?_⟩
  exact Option.filter_eq_some_iff.mpr ⟨hopen, decide_eq_true hvec⟩

namespace Checked

open Lib.Panic.Checked

def take (r : Reader) (len : Nat) : Checked (Bytes × Reader) := do
  let stop ← checkedAdd r.pos len
  let piece ← ofOption (slice? r.bytes r.pos stop)
  return (piece, { r with pos := stop })

def skip (r : Reader) (len : Nat) : Checked Reader := do
  let (_, r) ← take r len
  return r

def u8 (r : Reader) : Checked (UInt8 × Reader) := do
  let (b, r) ← take r 1
  let b₀ ← index b 0
  return (b₀, r)

/-- `u16::from_be_bytes([b[0], b[1]])`. -/
def u16 (r : Reader) : Checked (Nat × Reader) := do
  let (b, r) ← take r 2
  let b₀ ← index b 0
  let b₁ ← index b 1
  return (beNat [b₀, b₁], r)

def u24 (r : Reader) : Checked (Nat × Reader) := do
  let (b, r) ← take r 3
  let b₀ ← index b 0
  let high ← shl 64 b₀.toNat 16
  let b₁ ← index b 1
  let middle ← shl 64 b₁.toNat 8
  let b₂ ← index b 2
  return (high ||| middle ||| b₂.toNat, r)

/-- `u32::from_be_bytes([b[0], b[1], b[2], b[3]])`. -/
def u32 (r : Reader) : Checked (Nat × Reader) := do
  let (b, r) ← take r 4
  let b₀ ← index b 0
  let b₁ ← index b 1
  let b₂ ← index b 2
  let b₃ ← index b 3
  return (beNat [b₀, b₁, b₂, b₃], r)

def cid (r : Reader) : Checked (Bytes × Reader) := do
  let (len, r) ← u8 r
  if len.toNat > maxCid then ofOption none
  else take r len.toNat

/-- `value = (value << 8) | u64::from(*byte)` for each byte. -/
def shiftIn : Bytes → Nat → Checked Nat
  | [], value => pure value
  | byte :: rest, value => do
      let value ← shl 64 value 8
      shiftIn rest (value ||| byte.toNat)

def varint (r : Reader) : Checked (Nat × Reader) := do
  let (first, r) ← u8 r
  let exponent ← shr 8 first.toNat 6
  let len ← shl 64 1 exponent
  let count ← sub len 1
  let (tail, r) ← take r count
  let value ← shiftIn tail (first &&& 0x3f).toNat
  return (value, r)

def parseLongHeader (datagram : Bytes) : Checked LongHeader := do
  let r := Reader.new datagram
  let (first, r) ← u8 r
  if first &&& 0xc0 ≠ 0xc0 then ofOption none
  else
    let (version, r) ← u32 r
    let type ← ofOption (initialType version)
    let typeBits ← shr 8 (first &&& 0x30).toNat 4
    if typeBits ≠ type.toNat then ofOption none
    else
      let (dcid, r) ← cid r
      let (_, r) ← cid r
      let (tokenLen, r) ← varint r
      let r ← skip r tokenLen
      let (length, r) ← varint r
      let pnOffset := r.position
      let shortest ← add sampleLen tagLen
      if length < shortest then ofOption none
      else
        let stop ← add pnOffset length
        if datagram.length < stop then ofOption none
        else return { version, dcid, pnOffset, length }

def expandLabel (crypto : Crypto) (prk : Vector UInt8 32) (label : Bytes) (len : Nat) :
    Checked (Vector UInt8 len) := do
  let fixed ← add 4 6
  let _capacity ← add fixed label.length
  if len < 2 ^ 16 then
    let labelLen ← add 6 label.length
    if labelLen < 2 ^ 8 then
      ofOption (crypto.expand prk
        (beBytes 2 len ++ beBytes 1 labelLen ++ ascii "tls13 " ++ label ++ [0]) len)
    else ofOption none
  else ofOption none

/-- `Keys::initial` after the match on the version. -/
def clientKeys (crypto : Crypto) (salt dcid keyLabel ivLabel hpLabel : Bytes) : Checked Keys := do
  let initial := crypto.extract salt dcid
  let clientInitial ← expandLabel crypto initial (ascii "client in") 32
  let client ← ofOption (crypto.fromPrk clientInitial)
  let key ← expandLabel crypto client keyLabel 16
  let iv ← expandLabel crypto client ivLabel 12
  let hp ← expandLabel crypto client hpLabel 16
  return { key, iv, hp }

def initialKeys (crypto : Crypto) (version : Nat) (dcid : Bytes) : Checked Keys :=
  if version = V1 then
    clientKeys crypto v1Salt dcid (ascii "quic key") (ascii "quic iv") (ascii "quic hp")
  else if version = V2 then
    clientKeys crypto v2Salt dcid (ascii "quicv2 key") (ascii "quicv2 iv") (ascii "quicv2 hp")
  else ofOption none

/-- `mask.copy_from_slice(sample)`. -/
def copyFromSlice (sample : Bytes) : Checked (Vector UInt8 16) :=
  if sample.length = sampleLen then pure (block sample) else panic .index

/-- The loop over the protected packet number: `*byte ^= mask[1 + i]`, and the
byte is shifted into the number. -/
def unmask (mask : Bytes) : Nat → Bytes → Nat → Checked (Bytes × Nat)
  | _, [], number => pure ([], number)
  | i, byte :: rest, number => do
      let slot ← add 1 i
      let pad ← index mask slot
      let byte := byte ^^^ pad
      let number ← shl 64 number 8
      let (bytes, number) ← unmask mask (i + 1) rest (number ||| byte.toNat)
      return (byte :: bytes, number)

/-- The loop over the packet number's bytes: `nonce[i + 4] ^= byte`. -/
def xorNumber : Nat → Bytes → Vector UInt8 12 → Checked (Vector UInt8 12)
  | _, [], nonce => pure nonce
  | i, byte :: rest, nonce => do
      let slot ← add i 4
      if h : slot < 12 then xorNumber (i + 1) rest (nonce.set slot (nonce[slot] ^^^ byte))
      else panic .index

def openPacket (crypto : Crypto) (keys : Keys) (datagram : Bytes) (pnOffset length : Nat) :
    Checked Bytes := do
  let sampleAt ← add pnOffset 4
  let sampleEnd ← add sampleAt sampleLen
  let sample ← ofOption (slice? datagram sampleAt sampleEnd)
  let copied ← copyFromSlice sample
  let mask := (crypto.encryptBlock keys.hp copied).toList
  let first ← index datagram 0
  let mask₀ ← index mask 0
  let first := first ^^^ (mask₀ &&& 0x0f)
  let pnLen ← add (first &&& 0x03).toNat 1
  let headerEnd ← add pnOffset pnLen
  let header ← ofOption (slice? datagram 0 headerEnd)
  let header ← store header 0 first
  let tail ← sliceFrom header pnOffset
  let (number, packetNumber) ← unmask mask 0 tail 0
  let nonce ← xorNumber 0 (beBytes 8 packetNumber) keys.iv
  let cipherEnd ← add pnOffset length
  let ciphertext ← ofOption (slice? datagram headerEnd cipherEnd)
  ofOption (crypto.decrypt keys.key nonce ciphertext (header.take pnOffset ++ number))

def ackRanges : Nat → Reader → Checked Reader
  | 0, r => pure r
  | ranges + 1, r => do
      let (_, r) ← varint r
      let (_, r) ← varint r
      ackRanges ranges r

def ackFrame (frame : UInt8) (r : Reader) : Checked Reader := do
  let (_, r) ← varint r
  let (_, r) ← varint r
  let (ranges, r) ← varint r
  let (_, r) ← varint r
  let r ← ackRanges ranges r
  if frame = 0x03 then
    let (_, r) ← varint r
    let (_, r) ← varint r
    let (_, r) ← varint r
    return r
  else return r

def frames : Nat → Reader → List (Nat × Bytes) → Checked (List (Nat × Bytes))
  | 0, _, _ => ofOption none
  | fuel + 1, r, pieces =>
      whileSome (u8 r) (pure pieces) fun (frame, r) =>
        if frame = 0x00 ∨ frame = 0x01 then frames fuel r pieces
        else if frame = 0x02 ∨ frame = 0x03 then do
          let r ← ackFrame frame r
          frames fuel r pieces
        else if frame = 0x06 then do
          let (offset, r) ← varint r
          let (len, r) ← varint r
          let (data, r) ← take r len
          frames fuel r (pieces ++ [(offset, data)])
        else pure pieces

def assemble : List (Nat × Bytes) → Bytes → Checked Bytes
  | [], crypto => pure crypto
  | (offset, data) :: rest, crypto =>
      if offset > crypto.length then pure crypto
      else do
        let skip ← sub crypto.length offset
        assemble rest (if skip ≤ data.length then crypto ++ data.drop skip else crypto)

def reassembleCrypto (payload : Bytes) : Checked Bytes := do
  let pieces ← frames (payload.length + 1) (Reader.new payload) []
  let crypto ← assemble (pieces.insertionSort fun a b => a.1 ≤ b.1) []
  if crypto.isEmpty then ofOption none else return crypto

def nameList : Nat → Reader → Checked String
  | 0, _ => ofOption none
  | fuel + 1, r =>
      whileSome (u8 r) (ofOption none) fun (kind, r) => do
        let (len, r) ← u16 r
        let (name, r) ← take r len
        if kind = 0x00 ∧ 1 ≤ name.length ∧ name.length ≤ maxServerName then
          ofOption (String.fromUTF8? ⟨name.toArray⟩)
        else nameList fuel r

def extensions : Nat → Reader → Checked String
  | 0, _ => ofOption none
  | fuel + 1, r =>
      whileSome (u16 r) (ofOption none) fun (extension, r) => do
        let (len, r) ← u16 r
        let (body, r) ← take r len
        if extension ≠ 0x0000 then extensions fuel r
        else
          let (listLen, r) ← u16 (Reader.new body)
          let (list, _) ← take r listLen
          nameList (list.length + 1) (Reader.new list)

def clientHelloServerName (handshake : Bytes) : Checked String := do
  let (type, r) ← u8 (Reader.new handshake)
  if type ≠ 0x01 then ofOption none
  else
    let (bodyLen, r) ← u24 r
    let (body, _) ← take r bodyLen
    let fixed ← add 2 32
    let r ← skip (Reader.new body) fixed
    let (sessionId, r) ← u8 r
    let r ← skip r sessionId.toNat
    let (cipherSuites, r) ← u16 r
    let r ← skip r cipherSuites
    let (compression, r) ← u8 r
    let r ← skip r compression.toNat
    let (extensionsLen, r) ← u16 r
    let (block, _) ← take r extensionsLen
    extensions (block.length + 1) (Reader.new block)

def peekServerName (crypto : Crypto) (datagram : Bytes) : Checked String := do
  let header ← parseLongHeader datagram
  let keys ← initialKeys crypto header.version header.dcid
  let plaintext ← openPacket crypto keys datagram header.pnOffset header.length
  let stream ← reassembleCrypto plaintext
  clientHelloServerName stream

/-- `is_quic_initial`, where `&&` and `||` leave out what they do not need. -/
def isQuicInitial (datagram : Bytes) : Checked Bool :=
  if minInitial ≤ datagram.length then do
    let version ← slice datagram 1 5
    let v1 ← if version = quicV1 then do
        let first ← index datagram 0
        pure (first &&& 0xf0 == 0xc0)
      else pure false
    if v1 then pure true
    else do
      let version ← slice datagram 1 5
      if version = quicV2 then do
        let first ← index datagram 0
        pure (first &&& 0xf0 == 0xd0)
      else pure false
  else pure false

/-- The cursor is in its slice, and the slice is one the machine can hold. -/
def InBounds (r : Reader) : Prop := r.pos ≤ r.bytes.length ∧ r.bytes.length < 2 ^ 63

theorem inBounds_new {bytes : Bytes} (h : bytes.length < 2 ^ 63) : InBounds (Reader.new bytes) :=
  ⟨Nat.zero_le _, h⟩

theorem take_agrees {r : Reader} (h : InBounds r) (len : Nat) :
    Agrees (take r len) (r.take len) fun read =>
      read.1.length = len ∧ read.1.length < 2 ^ 63 ∧ InBounds read.2 := by
  obtain ⟨hpos, hsize⟩ := h
  by_cases hstop : r.pos + len < 2 ^ 64
  · have hadd : checkedAdd r.pos len = pure (r.pos + len) := if_pos hstop
    apply Agrees.bind_pure hadd
    apply Agrees.bind (P := fun piece => piece.length = len ∧ r.pos + len ≤ r.bytes.length)
    · apply Agrees.ofOption
      intro piece hpiece
      obtain ⟨hbound, hpiece⟩ := Option.ite_none_right_eq_some.mp hpiece
      have hlen : piece.length = len := by
        rw [← Option.some.inj hpiece, List.length_take, List.length_drop]
        omega
      exact ⟨hlen, hbound.2⟩
    · intro piece hpiece
      have hfits : piece.length < 2 ^ 63 := by omega
      apply Agrees.pure
      exact ⟨hpiece.1, hfits, hpiece.2, hsize⟩
  · have hnone : r.take len = none := by
      have hshort : r.bytes.length < r.pos + len := by omega
      rw [Reader.take, slice?_eq_none hshort]
      rfl
    have hadd : checkedAdd r.pos len = ofOption none := if_neg hstop
    rw [take, hadd, hnone]
    exact Agrees.none

theorem skip_agrees {r : Reader} (h : InBounds r) (len : Nat) :
    Agrees (skip r len) (r.skip len) InBounds := by
  apply Agrees.bind (take_agrees h len)
  intro read hread
  exact Agrees.pure hread.2.2

theorem u8_agrees {r : Reader} (h : InBounds r) :
    Agrees (u8 r) r.u8 fun read => InBounds read.2 := by
  apply Agrees.bind (take_agrees h 1)
  intro read hread
  obtain ⟨b, r⟩ := read
  obtain ⟨hlen, _, hr⟩ := hread
  obtain ⟨b₀, rfl⟩ := List.length_eq_one_iff.mp hlen
  apply Agrees.bind_pure (index_eq rfl)
  exact Agrees.pure hr

theorem u16_agrees {r : Reader} (h : InBounds r) :
    Agrees (u16 r) r.u16 fun read => InBounds read.2 := by
  apply Agrees.bind (take_agrees h 2)
  intro read hread
  obtain ⟨b, r⟩ := read
  obtain ⟨hlen, _, hr⟩ := hread
  obtain ⟨b₀, b₁, rfl⟩ := List.length_eq_two.mp hlen
  apply Agrees.bind_pure (index_eq rfl)
  apply Agrees.bind_pure (index_eq rfl)
  exact Agrees.pure hr

theorem u24_agrees {r : Reader} (h : InBounds r) :
    Agrees (u24 r) r.u24 fun read => InBounds read.2 := by
  apply Agrees.bind (take_agrees h 3)
  intro read hread
  obtain ⟨b, r⟩ := read
  obtain ⟨hlen, _, hr⟩ := hread
  obtain ⟨b₀, b₁, b₂, rfl⟩ := List.length_eq_three.mp hlen
  have h₀ : b₀.toNat < 2 ^ 8 := b₀.toNat_lt
  have h₁ : b₁.toNat < 2 ^ 8 := b₁.toNat_lt
  have hvalue : b₀.toNat <<< 16 ||| b₁.toNat <<< 8 ||| b₂.toNat = beNat [b₀, b₁, b₂] := by
    rw [beNat, List.foldl_cons, List.foldl_cons, List.foldl_cons, List.foldl_nil, Nat.zero_shiftLeft,
      Nat.zero_or, Nat.shiftLeft_or_distrib, ← Nat.shiftLeft_add]
  apply Agrees.bind_pure (index_eq rfl)
  apply Agrees.bind_pure (shl_eq (by decide) (by rw [Nat.shiftLeft_eq]; omega))
  apply Agrees.bind_pure (index_eq rfl)
  apply Agrees.bind_pure (shl_eq (by decide) (by rw [Nat.shiftLeft_eq]; omega))
  apply Agrees.bind_pure (index_eq rfl)
  rw [hvalue]
  exact Agrees.pure hr

theorem u32_agrees {r : Reader} (h : InBounds r) :
    Agrees (u32 r) r.u32 fun read => InBounds read.2 := by
  apply Agrees.bind (take_agrees h 4)
  intro read hread
  obtain ⟨b, r⟩ := read
  obtain ⟨hlen, _, hr⟩ := hread
  obtain ⟨b₀, b₁, b₂, b₃, rfl⟩ : ∃ b₀ b₁ b₂ b₃, b = [b₀, b₁, b₂, b₃] := by
    match b, hlen with
    | [b₀, b₁, b₂, b₃], _ => exact ⟨b₀, b₁, b₂, b₃, rfl⟩
  apply Agrees.bind_pure (index_eq rfl)
  apply Agrees.bind_pure (index_eq rfl)
  apply Agrees.bind_pure (index_eq rfl)
  apply Agrees.bind_pure (index_eq rfl)
  exact Agrees.pure hr

theorem cid_agrees {r : Reader} (h : InBounds r) :
    Agrees (cid r) r.cid fun read => InBounds read.2 := by
  apply Agrees.bind (u8_agrees h)
  intro read hread
  apply Agrees.ite
  · intro _
    exact Agrees.none
  · intro _
    exact (take_agrees hread read.1.toNat).mono fun _ h => h.2.2

/-- One more byte fits in, and shifting makes room for it. -/
theorem shl_byte_eq {value width : Nat} (h : (value + 1) * 256 ^ (width + 1) ≤ 2 ^ 62) (byte : UInt8) :
    shl 64 value 8 = pure (value <<< 8) ∧
      ((value <<< 8 ||| byte.toNat) + 1) * 256 ^ width ≤ 2 ^ 62 := by
  have hbyte : byte.toNat < 256 := byte.toNat_lt
  have hpow : 0 < 256 ^ width := Nat.pow_pos (by decide)
  rw [Nat.pow_succ, Nat.mul_comm (256 ^ width), ← Nat.mul_assoc] at h
  have hle : (value + 1) * 256 ≤ (value + 1) * 256 * 256 ^ width := Nat.le_mul_of_pos_right _ hpow
  have hnext : (value <<< 8 ||| byte.toNat) + 1 ≤ (value + 1) * 256 := by
    rw [shift_or]
    omega
  refine ⟨shl_eq (by decide) ?_, Nat.le_trans (Nat.mul_le_mul_right _ hnext) h⟩
  rw [Nat.shiftLeft_eq]
  omega

/-- Up to seven bytes are shifted in after six bits without a bit lost. -/
theorem shiftIn_eq (bytes : Bytes) (value : Nat) (h : (value + 1) * 256 ^ bytes.length ≤ 2 ^ 62) :
    shiftIn bytes value =
      pure (bytes.foldl (fun value byte => value <<< 8 ||| byte.toNat) value) := by
  induction bytes generalizing value with
  | nil => rfl
  | cons byte rest ih =>
    obtain ⟨hshl, hnext⟩ := shl_byte_eq h byte
    rw [shiftIn, hshl, pure_bind, List.foldl_cons]
    exact ih _ hnext

theorem foldl_shiftIn_lt (bytes : Bytes) {value : Nat}
    (h : (value + 1) * 256 ^ bytes.length ≤ 2 ^ 62) :
    bytes.foldl (fun value byte => value <<< 8 ||| byte.toNat) value < 2 ^ 62 := by
  have hlow := beNat_lt bytes
  rw [foldl_eq]
  rw [Nat.add_mul, Nat.one_mul] at h
  omega

theorem varint_agrees {r : Reader} (h : InBounds r) :
    Agrees (varint r) r.varint fun read => read.1 < 2 ^ 62 ∧ InBounds read.2 := by
  apply Agrees.bind (u8_agrees h)
  intro read hread
  obtain ⟨first, r⟩ := read
  have hfirst : first.toNat < 256 := first.toNat_lt
  have hshift : first.toNat >>> 6 = (first >>> 6).toNat := by
    rw [toNat_shiftRight_six, Nat.shiftRight_eq_div_pow]
  have hexponent : (first >>> 6).toNat < 4 := by
    rw [toNat_shiftRight_six]
    omega
  have hlen : 1 <<< (first >>> 6).toNat ≤ 8 := by
    rw [Nat.one_shiftLeft]
    exact Nat.pow_le_pow_right (by decide) (Nat.le_of_lt_succ hexponent)
  have hone : 1 ≤ 1 <<< (first >>> 6).toNat := by
    rw [Nat.one_shiftLeft]
    exact Nat.one_le_two_pow
  apply Agrees.bind_pure (shr_eq (by decide))
  rw [hshift]
  apply Agrees.bind_pure (shl_eq (by omega) (by omega))
  apply Agrees.bind_pure (sub_eq hone)
  apply Agrees.bind (take_agrees hread _)
  intro read hread
  obtain ⟨tail, r⟩ := read
  obtain ⟨htail, _, hr⟩ := hread
  have hfits : ((first &&& 0x3f).toNat + 1) * 256 ^ tail.length ≤ 2 ^ 62 := by
    have hlow : (first &&& 0x3f).toNat + 1 ≤ 64 := by
      rw [toNat_and_63]
      omega
    have hseven : tail.length ≤ 7 := by
      have hlength : tail.length = 1 <<< (first >>> 6).toNat - 1 := htail
      omega
    calc ((first &&& 0x3f).toNat + 1) * 256 ^ tail.length
        ≤ 64 * 256 ^ 7 := Nat.mul_le_mul hlow (Nat.pow_le_pow_right (by decide) hseven)
      _ = 2 ^ 62 := by decide
  apply Agrees.bind_pure (shiftIn_eq tail _ hfits)
  exact Agrees.pure ⟨foldl_shiftIn_lt tail hfits, hr⟩

theorem parseLongHeader_agrees {datagram : Bytes} (h : datagram.length < 2 ^ 63) :
    Agrees (parseLongHeader datagram) (Sni.parseLongHeader datagram) fun _ => True := by
  apply Agrees.bind (u8_agrees (inBounds_new h))
  intro read hr
  obtain ⟨first, r⟩ := read
  apply Agrees.ite
  · intro _
    exact Agrees.none
  intro _
  apply Agrees.bind (u32_agrees hr)
  intro read hr
  obtain ⟨version, r⟩ := read
  apply Agrees.bind (P := fun _ => True) (Agrees.ofOption fun _ _ => trivial)
  intro type _
  have hbits : (first &&& 0x30).toNat >>> 4 ≠ type.toNat ↔ (first &&& 0x30) >>> 4 ≠ type := by
    have hshift : (first &&& 0x30).toNat >>> 4 = ((first &&& 0x30) >>> 4).toNat := by
      rw [UInt8.toNat_shiftRight]
      rfl
    rw [hshift, ne_eq, UInt8.toNat_inj]
  apply Agrees.bind_pure (shr_eq (by decide))
  apply Agrees.ite_iff hbits
  · intro _
    exact Agrees.none
  intro _
  apply Agrees.bind (cid_agrees hr)
  intro read hr
  obtain ⟨dcid, r⟩ := read
  apply Agrees.bind (cid_agrees hr)
  intro read hr
  apply Agrees.bind (varint_agrees hr)
  intro read hr
  apply Agrees.bind (skip_agrees hr.2 read.1)
  intro r hr
  apply Agrees.bind (varint_agrees hr)
  intro read hread
  obtain ⟨length, r⟩ := read
  dsimp only at hread ⊢
  obtain ⟨hlength, hpos, hsize⟩ := hread
  have hstop : r.position + length < 2 ^ 64 := by
    have hposition : r.position ≤ r.bytes.length := hpos
    omega
  apply Agrees.bind_pure (add_eq (by decide))
  by_cases hshort : length < sampleLen + tagLen
  · rw [if_pos hshort, if_pos (Or.inl hshort)]
    exact Agrees.none
  · rw [if_neg hshort]
    apply Agrees.bind_pure (add_eq hstop)
    simp only [hshort, false_or]
    apply Agrees.ite
    · intro _
      exact Agrees.none
    · intro _
      exact Agrees.pure trivial

theorem expandLabel_agrees (crypto : Crypto) (prk : Vector UInt8 32) {label : Bytes}
    (h : label.length < 2 ^ 32) (len : Nat) :
    Agrees (expandLabel crypto prk label len) (Sni.expandLabel crypto prk label len)
      fun _ => True := by
  apply Agrees.bind_pure (add_eq (by decide))
  apply Agrees.bind_pure (add_eq (by omega))
  rw [Sni.expandLabel]
  by_cases hlen : len < 2 ^ 16
  · rw [if_pos hlen]
    apply Agrees.bind_pure (add_eq (by omega))
    apply Agrees.ite_iff (by simp only [hlen, true_and])
    · intro _
      exact Agrees.ofOption fun _ _ => trivial
    · intro _
      exact Agrees.none
  · rw [if_neg hlen, if_neg fun hboth => hlen hboth.1]
    exact Agrees.none

theorem clientKeys_agrees (crypto : Crypto) (salt dcid : Bytes) {keyLabel ivLabel hpLabel : Bytes}
    (hkey : keyLabel.length < 2 ^ 32) (hiv : ivLabel.length < 2 ^ 32)
    (hhp : hpLabel.length < 2 ^ 32) :
    Agrees (clientKeys crypto salt dcid keyLabel ivLabel hpLabel)
      (do
        let clientInitial ← Sni.expandLabel crypto (crypto.extract salt dcid) (ascii "client in") 32
        let client ← crypto.fromPrk clientInitial
        let key ← Sni.expandLabel crypto client keyLabel 16
        let iv ← Sni.expandLabel crypto client ivLabel 12
        let hp ← Sni.expandLabel crypto client hpLabel 16
        return ({ key, iv, hp } : Keys)) fun _ => True := by
  apply Agrees.bind (expandLabel_agrees crypto _ (by decide) 32)
  intro clientInitial _
  apply Agrees.bind (P := fun _ => True) (Agrees.ofOption fun _ _ => trivial)
  intro client _
  apply Agrees.bind (expandLabel_agrees crypto client hkey 16)
  intro key _
  apply Agrees.bind (expandLabel_agrees crypto client hiv 12)
  intro iv _
  apply Agrees.bind (expandLabel_agrees crypto client hhp 16)
  intro hp _
  exact Agrees.pure trivial

theorem initialKeys_agrees (crypto : Crypto) (version : Nat) (dcid : Bytes) :
    Agrees (initialKeys crypto version dcid) (Keys.initial crypto version dcid)
      fun _ => True := by
  apply Agrees.ite
  · intro _
    exact clientKeys_agrees crypto v1Salt dcid (by decide) (by decide) (by decide)
  intro _
  apply Agrees.ite
  · intro _
    exact clientKeys_agrees crypto v2Salt dcid (by decide) (by decide) (by decide)
  · intro _
    exact Agrees.none

/-- The bytes of a packet number are unmasked one by one. -/
theorem unmask_eq {mask : Bytes} (hmask : mask.length = 16) (bytes : Bytes) (i number : Nat)
    (hi : i + bytes.length ≤ 4) (hnumber : (number + 1) * 256 ^ bytes.length ≤ 2 ^ 62) :
    unmask mask i bytes number =
      pure (bytes.mapIdx fun j byte => byte ^^^ mask.getD (1 + i + j) 0,
        (bytes.mapIdx fun j byte => byte ^^^ mask.getD (1 + i + j) 0).foldl
          (fun n b => n <<< 8 ||| b.toNat) number) := by
  induction bytes generalizing i number with
  | nil => rfl
  | cons byte rest ih =>
    rw [List.length_cons] at hi hnumber
    have hpad : mask[1 + i]? = some (mask.getD (1 + i) 0) := by
      rw [List.getD_eq_getElem?_getD, List.getElem?_eq_getElem (by omega)]
      rfl
    obtain ⟨hshl, hnext⟩ := shl_byte_eq hnumber (byte ^^^ mask.getD (1 + i) 0)
    have hrest : (fun (j : Nat) (b : UInt8) => b ^^^ mask.getD (1 + (i + 1) + j) 0) =
        fun j b => b ^^^ mask.getD (1 + i + (j + 1)) 0 := by
      funext j b
      rw [show 1 + (i + 1) + j = 1 + i + (j + 1) by omega]
    rw [unmask, add_eq (by omega), pure_bind, index_eq hpad, pure_bind, hshl, pure_bind,
      ih (i + 1) _ (by omega) hnext, hrest, List.mapIdx_cons]
    rfl

/-- The nonce after the packet number's bytes from the `i`th on. -/
theorem xorNumber_eq (bytes : Bytes) (i : Nat) (nonce : Vector UInt8 12)
    (hi : i + bytes.length ≤ 8) :
    xorNumber i bytes nonce = pure (Vector.ofFn fun j =>
      if i + 4 ≤ j.val ∧ j.val < i + 4 + bytes.length then
        nonce[j] ^^^ bytes.getD (j.val - (i + 4)) 0 else nonce[j]) := by
  induction bytes generalizing i nonce with
  | nil =>
    rw [xorNumber]
    congr 1
    refine Vector.ext fun j hj => ?_
    rw [Vector.getElem_ofFn, if_neg (by rw [List.length_nil]; omega)]
    rfl
  | cons byte rest ih =>
    rw [List.length_cons] at hi
    have hslot : i + 4 < 12 := by omega
    rw [xorNumber, add_eq (by omega), pure_bind, dif_pos hslot, ih _ _ (by omega)]
    congr 1
    refine Vector.ext fun j hj => ?_
    simp only [Vector.getElem_ofFn, List.length_cons, Fin.getElem_fin]
    by_cases hhere : j = i + 4
    · subst hhere
      rw [if_neg (by omega), if_pos (by omega), Vector.getElem_set_self, Nat.sub_self]
      rfl
    · rw [Vector.getElem_set_ne hslot hj (fun he => hhere he.symm)]
      by_cases hin : i + 4 ≤ j ∧ j < i + 4 + (rest.length + 1)
      · obtain ⟨k, hk⟩ : ∃ k, j - (i + 4) = k + 1 := ⟨j - (i + 4) - 1, by omega⟩
        rw [if_pos (by omega), if_pos hin, hk, show j - (i + 1 + 4) = k by omega]
        rfl
      · rw [if_neg (by omega), if_neg hin]

theorem xorNumber_nonce (iv : Vector UInt8 12) (packetNumber : Nat) :
    xorNumber 0 (beBytes 8 packetNumber) iv = pure (nonceOf iv packetNumber) := by
  rw [xorNumber_eq _ _ _ (by rw [length_beBytes])]
  rfl

section Open

variable (crypto : Crypto) (keys : Keys) {datagram : Bytes} {pnOffset length : Nat}
  (hlong : sampleLen + tagLen ≤ length) (hwhole : pnOffset + length ≤ datagram.length)
include hlong hwhole

/-- All slices of `Keys::open` exist, so it answers what the AEAD answers. -/
theorem open_slices :
    ∃ sample, slice? datagram (pnOffset + 4) (pnOffset + 4 + sampleLen) = some sample ∧
      ∃ mask, mask = (crypto.encryptBlock keys.hp (block sample)).toList ∧
      ∃ pnLen, pnLen = ((datagram.headD 0 ^^^ (mask.getD 0 0 &&& 0x0f)) &&& 0x03).toNat + 1 ∧
      ∃ header, slice? datagram 0 (pnOffset + pnLen) = some header ∧
      ∃ ciphertext, slice? datagram (pnOffset + pnLen) (pnOffset + length) = some ciphertext ∧
      ∃ nonce aad, keys.open crypto datagram pnOffset length =
        crypto.decrypt keys.key nonce ciphertext aad := by
  have hmin : 32 ≤ length := hlong
  have hsampleEnd : pnOffset + 4 + sampleLen ≤ datagram.length := by
    show pnOffset + 4 + 16 ≤ _
    omega
  obtain ⟨sample, hsample⟩ := exists_slice? (Nat.le_add_right _ _) hsampleEnd
  refine ⟨sample, hsample, _, rfl, _, rfl, ?_⟩
  generalize hmask : (crypto.encryptBlock keys.hp (block sample)).toList = mask
  generalize hfirst : datagram.headD 0 ^^^ (mask.getD 0 0 &&& 0x0f) = first
  have hpn := toNat_and_three_lt first
  obtain ⟨header, hheader⟩ := exists_slice? (Nat.zero_le _)
    (show pnOffset + ((first &&& 0x03).toNat + 1) ≤ datagram.length by omega)
  obtain ⟨ciphertext, hcipher⟩ := exists_slice?
    (show pnOffset + ((first &&& 0x03).toNat + 1) ≤ pnOffset + length by omega) hwhole
  refine ⟨header, hheader, ciphertext, hcipher, ?_⟩
  simp only [Keys.open, hsample, Option.bind_eq_bind, Option.bind_some, hmask, hfirst, hheader,
    hcipher]
  exact ⟨_, _, rfl⟩

theorem openPacket_agrees (hsize : datagram.length < 2 ^ 63) :
    Agrees (openPacket crypto keys datagram pnOffset length)
      (keys.open crypto datagram pnOffset length) fun plaintext =>
        ∃ nonce msg aad, crypto.decrypt keys.key nonce msg aad = some plaintext := by
  have hmin : 32 ≤ length := hlong
  apply Agrees.bind_pure (add_eq (by omega))
  apply Agrees.bind_pure (add_eq (by omega))
  apply Agrees.bind (P := fun sample => sample.length = sampleLen)
  · apply Agrees.ofOption
    intro sample hsample
    rw [length_slice? hsample, Nat.add_sub_cancel_left]
  intro sample hsample
  have hcopy : copyFromSlice sample = pure (block sample) := if_pos hsample
  apply Agrees.bind_pure hcopy
  dsimp only
  generalize hmask : (crypto.encryptBlock keys.hp (block sample)).toList = mask
  have hmaskLen : mask.length = 16 := by rw [← hmask, Vector.length_toList]
  have hfirst : datagram[0]? = some (datagram.headD 0) := by
    cases datagram with
    | nil =>
      rw [List.length_nil] at hwhole
      omega
    | cons first rest => rfl
  have hmask₀ : mask[0]? = some (mask.getD 0 0) := by
    rw [List.getD_eq_getElem?_getD, List.getElem?_eq_getElem (by omega)]
    rfl
  apply Agrees.bind_pure (index_eq hfirst)
  apply Agrees.bind_pure (index_eq hmask₀)
  generalize datagram.headD 0 ^^^ (mask.getD 0 0 &&& 0x0f) = first
  have hpn := toNat_and_three_lt first
  apply Agrees.bind_pure (add_eq (by omega))
  apply Agrees.bind_pure (add_eq (by omega))
  apply Agrees.bind (P := fun header => header.length = pnOffset + ((first &&& 0x03).toNat + 1))
  · apply Agrees.ofOption
    intro header hheader
    rw [length_slice? hheader, Nat.sub_zero]
  intro header hheader
  have hset : (header.set 0 first).length = header.length := List.length_set
  have htail : ((header.set 0 first).drop pnOffset).length = (first &&& 0x03).toNat + 1 := by
    rw [List.length_drop, hset, hheader, Nat.add_sub_cancel_left]
  have hnumber : (0 + 1) * 256 ^ ((header.set 0 first).drop pnOffset).length ≤ 2 ^ 62 := by
    rw [htail, Nat.one_mul]
    calc 256 ^ ((first &&& 0x03).toNat + 1) ≤ 256 ^ 4 :=
          Nat.pow_le_pow_right (by decide) (by omega)
      _ ≤ 2 ^ 62 := by decide
  apply Agrees.bind_pure (store_eq (by omega) first)
  apply Agrees.bind_pure (sliceFrom_eq (by omega))
  apply Agrees.bind_pure (unmask_eq hmaskLen _ 0 0 (by omega) hnumber)
  apply Agrees.bind_pure (xorNumber_nonce keys.iv _)
  apply Agrees.bind_pure (add_eq (by omega))
  dsimp only
  apply Agrees.bind (P := fun _ => True) (Agrees.ofOption fun _ _ => trivial)
  intro ciphertext _
  apply Agrees.ofOption
  intro plaintext hplaintext
  exact ⟨_, _, _, hplaintext⟩

end Open

theorem ackRanges_agrees (ranges : Nat) {r : Reader} (h : InBounds r) :
    Agrees (ackRanges ranges r) (Sni.ackRanges ranges r) InBounds := by
  induction ranges generalizing r with
  | zero => exact Agrees.pure h
  | succ ranges ih =>
    apply Agrees.bind (varint_agrees h)
    intro read hread
    apply Agrees.bind (varint_agrees hread.2)
    intro read hread
    exact ih hread.2

theorem ackFrame_agrees (frame : UInt8) {r : Reader} (h : InBounds r) :
    Agrees (ackFrame frame r) (Sni.ackFrame frame r) InBounds := by
  apply Agrees.bind (varint_agrees h)
  intro read hread
  apply Agrees.bind (varint_agrees hread.2)
  intro read hread
  apply Agrees.bind (varint_agrees hread.2)
  intro read hread
  obtain ⟨ranges, r⟩ := read
  apply Agrees.bind (varint_agrees hread.2)
  intro read hread
  apply Agrees.bind (ackRanges_agrees ranges hread.2)
  intro r hr
  apply Agrees.ite
  · intro _
    apply Agrees.bind (varint_agrees hr)
    intro read hread
    apply Agrees.bind (varint_agrees hread.2)
    intro read hread
    apply Agrees.bind (varint_agrees hread.2)
    intro read hread
    exact Agrees.pure hread.2
  · intro _
    exact Agrees.pure hr

theorem frames_agrees (fuel : Nat) {r : Reader} (h : InBounds r) (pieces : List (Nat × Bytes)) :
    Agrees (frames fuel r pieces) (Sni.frames fuel r pieces) fun _ => True := by
  induction fuel generalizing r pieces with
  | zero => exact Agrees.none
  | succ fuel ih =>
    rw [frames, Sni.frames]
    have hread := u8_agrees h
    cases hu : r.u8 with
    | none =>
      rw [hu] at hread
      exact Agrees.whileSome_none hread (Agrees.pure trivial)
    | some read =>
      rw [hu] at hread
      obtain ⟨frame, r⟩ := read
      apply Agrees.whileSome_some hread
      intro hr
      apply Agrees.ite
      · intro _
        exact ih hr pieces
      intro _
      apply Agrees.ite
      · intro _
        apply Agrees.bind (ackFrame_agrees frame hr)
        intro r hr
        exact ih hr pieces
      intro _
      apply Agrees.ite
      · intro _
        apply Agrees.bind (varint_agrees hr)
        intro read hread
        apply Agrees.bind (varint_agrees hread.2)
        intro read hread
        apply Agrees.bind (take_agrees hread.2 read.1)
        intro read hread
        exact ih hread.2.2 _
      · intro _
        exact Agrees.pure trivial

theorem assemble_agrees (pieces : List (Nat × Bytes)) (crypto : Bytes) :
    Agrees (assemble pieces crypto) (some (Sni.assemble pieces crypto)) fun _ => True := by
  induction pieces generalizing crypto with
  | nil => exact Agrees.pure trivial
  | cons piece rest ih =>
    obtain ⟨offset, data⟩ := piece
    rw [assemble, Sni.assemble]
    by_cases hhole : offset > crypto.length
    · rw [if_pos hhole, if_pos hhole]
      exact Agrees.pure trivial
    · rw [if_neg hhole, if_neg hhole]
      apply Agrees.bind_pure (sub_eq (Nat.le_of_not_lt hhole))
      exact ih _

theorem reassembleCrypto_agrees {payload : Bytes} (h : payload.length < 2 ^ 63) :
    Agrees (reassembleCrypto payload) (Sni.reassembleCrypto payload) fun stream =>
      stream.length < 2 ^ 63 := by
  have hanswer : reassembleCrypto payload = ofOption (Sni.reassembleCrypto payload) := by
    apply And.left
    apply Agrees.bind (P := fun _ => True) (frames_agrees _ (inBounds_new h) [])
    intro pieces _
    apply Agrees.bind_pure (assemble_agrees (pieces.insertionSort fun a b => a.1 ≤ b.1) []).1
    apply Agrees.ite (P := fun _ => True)
    · intro _
      exact Agrees.none
    · intro _
      exact Agrees.pure trivial
  refine ⟨hanswer, fun stream hstream => ?_⟩
  exact Nat.lt_of_le_of_lt (length_reassembleCrypto_le hstream) h

theorem nameList_agrees (fuel : Nat) {r : Reader} (h : InBounds r) :
    Agrees (nameList fuel r) (Sni.nameList fuel r) fun _ => True := by
  induction fuel generalizing r with
  | zero => exact Agrees.none
  | succ fuel ih =>
    rw [nameList, Sni.nameList]
    have hread := u8_agrees h
    cases hu : r.u8 with
    | none =>
      rw [hu] at hread
      exact Agrees.whileSome_none hread Agrees.none
    | some read =>
      rw [hu] at hread
      apply Agrees.whileSome_some hread
      intro hr
      apply Agrees.bind (u16_agrees hr)
      intro read hr
      apply Agrees.bind (take_agrees hr read.1)
      intro read hr
      apply Agrees.ite
      · intro _
        exact Agrees.ofOption fun _ _ => trivial
      · intro _
        exact ih hr.2.2

theorem extensions_agrees (fuel : Nat) {r : Reader} (h : InBounds r) :
    Agrees (extensions fuel r) (Sni.extensions fuel r) fun _ => True := by
  induction fuel generalizing r with
  | zero => exact Agrees.none
  | succ fuel ih =>
    rw [extensions, Sni.extensions]
    have hread := u16_agrees h
    cases hu : r.u16 with
    | none =>
      rw [hu] at hread
      exact Agrees.whileSome_none hread Agrees.none
    | some read =>
      rw [hu] at hread
      apply Agrees.whileSome_some hread
      intro hr
      apply Agrees.bind (u16_agrees hr)
      intro read hr
      apply Agrees.bind (take_agrees hr read.1)
      intro read hr
      apply Agrees.ite
      · intro _
        exact ih hr.2.2
      intro _
      apply Agrees.bind (u16_agrees (inBounds_new hr.2.1))
      intro read hr
      apply Agrees.bind (take_agrees hr read.1)
      intro read hr
      exact nameList_agrees _ (inBounds_new hr.2.1)

theorem clientHelloServerName_agrees {handshake : Bytes} (h : handshake.length < 2 ^ 63) :
    Agrees (clientHelloServerName handshake) (Sni.clientHelloServerName handshake)
      fun _ => True := by
  apply Agrees.bind (u8_agrees (inBounds_new h))
  intro read hr
  apply Agrees.ite
  · intro _
    exact Agrees.none
  intro _
  apply Agrees.bind (u24_agrees hr)
  intro read hr
  apply Agrees.bind (take_agrees hr read.1)
  intro read hr
  apply Agrees.bind_pure (add_eq (by decide))
  apply Agrees.bind (skip_agrees (inBounds_new hr.2.1) (2 + 32))
  intro r hr
  apply Agrees.bind (u8_agrees hr)
  intro read hr
  apply Agrees.bind (skip_agrees hr read.1.toNat)
  intro r hr
  apply Agrees.bind (u16_agrees hr)
  intro read hr
  apply Agrees.bind (skip_agrees hr read.1)
  intro r hr
  apply Agrees.bind (u8_agrees hr)
  intro read hr
  apply Agrees.bind (skip_agrees hr read.1.toNat)
  intro r hr
  apply Agrees.bind (u16_agrees hr)
  intro read hr
  apply Agrees.bind (take_agrees hr read.1)
  intro read hr
  exact extensions_agrees _ (inBounds_new hr.2.1)

theorem peekServerName_agrees (crypto : VecCrypto) {datagram : Bytes}
    (h : datagram.length < 2 ^ 63) :
    Agrees (peekServerName crypto.toCrypto datagram) (Sni.peekServerName crypto.toCrypto datagram)
      fun _ => True := by
  have hparse := parseLongHeader_agrees h
  cases hheader : Sni.parseLongHeader datagram with
  | none =>
    rw [peekServerName, Sni.peekServerName, hparse.1, hheader]
    exact Agrees.none
  | some header =>
    obtain ⟨_, hlong, hwhole⟩ := parseLongHeader_bounds hheader
    rw [Sni.peekServerName, hheader]
    rw [hheader] at hparse
    apply Agrees.bind_pure hparse.1
    apply Agrees.bind (initialKeys_agrees crypto.toCrypto header.version header.dcid)
    intro keys _
    apply Agrees.bind (openPacket_agrees crypto.toCrypto keys hlong hwhole h)
    intro plaintext hplaintext
    obtain ⟨nonce, msg, aad, hdecrypt⟩ := hplaintext
    apply Agrees.bind (reassembleCrypto_agrees (crypto.vec _ _ _ _ _ hdecrypt))
    intro stream hstream
    exact clientHelloServerName_agrees hstream

theorem isQuicInitial_agrees (datagram : Bytes) :
    Agrees (isQuicInitial datagram) (some (Sleepytale.isQuicInitial datagram)) fun _ => True := by
  rw [isQuicInitial, Sleepytale.isQuicInitial]
  by_cases hlen : minInitial ≤ datagram.length
  · have hmin : 1200 ≤ datagram.length := hlen
    have hslice : slice datagram 1 5 = pure ((datagram.drop 1).take 4) :=
      slice_eq (by decide) (by omega)
    have hfirst : datagram[0]? = some (datagram.headD 0) := by
      cases datagram with
      | nil => cases hlen
      | cons first rest => rfl
    generalize (datagram.drop 1).take 4 = version at hslice
    generalize datagram.headD 0 = first at hfirst
    rw [if_pos hlen, hslice]
    simp only [pure_bind, index_eq hfirst, decide_eq_true hlen, Bool.true_and]
    by_cases hv1 : version = quicV1
    · cases hbits : first &&& 0xf0 == 0xc0 with
      | true =>
        simp only [hv1, if_true, beq_self_eq_true, Bool.true_and, Bool.true_or]
        exact Agrees.pure trivial
      | false =>
        have hother : ¬ quicV1 = quicV2 := by decide
        simp only [hv1, hother, if_true, if_false, Bool.false_eq_true,
          beq_eq_false_iff_ne.mpr hother, Bool.and_false, Bool.false_and, Bool.or_false]
        exact Agrees.pure trivial
    · have hbeq : (version == quicV1) = false := beq_eq_false_iff_ne.mpr hv1
      simp only [hv1, hbeq, if_false, Bool.false_eq_true, Bool.false_and, Bool.false_or]
      by_cases hv2 : version = quicV2
      · simp only [hv2, if_true, beq_self_eq_true, Bool.true_and]
        exact Agrees.pure trivial
      · have hbeq : (version == quicV2) = false := beq_eq_false_iff_ne.mpr hv2
        simp only [hv2, hbeq, if_false, Bool.false_and]
        exact Agrees.pure trivial
  · rw [if_neg hlen, decide_eq_false hlen]
    exact Agrees.pure trivial

/-- No operation of the peek path panics on a datagram, and each function answers
what its unchecked model answers. Where `parse_long_header` accepts, `Keys::open`
finds all its slices. -/
theorem peek_path_never_panics (crypto : VecCrypto) (datagram : Datagram) :
    peekServerName crypto.toCrypto datagram.bytes =
      ofOption (Sni.peekServerName crypto.toCrypto datagram.bytes) ∧
    isQuicInitial datagram.bytes = ofOption (some (Sleepytale.isQuicInitial datagram.bytes)) ∧
    ∀ header, Sni.parseLongHeader datagram.bytes = some header → ∀ keys : Keys,
      ∃ sample, slice? datagram.bytes (header.pnOffset + 4) (header.pnOffset + 4 + sampleLen) =
          some sample ∧
        ∃ mask, mask = (crypto.encryptBlock keys.hp (block sample)).toList ∧
        ∃ pnLen, pnLen =
            ((datagram.bytes.headD 0 ^^^ (mask.getD 0 0 &&& 0x0f)) &&& 0x03).toNat + 1 ∧
        ∃ aad, slice? datagram.bytes 0 (header.pnOffset + pnLen) = some aad ∧
        ∃ ciphertext, slice? datagram.bytes (header.pnOffset + pnLen)
            (header.pnOffset + header.length) = some ciphertext ∧
        ∃ nonce aad', keys.open crypto.toCrypto datagram.bytes header.pnOffset header.length =
          crypto.decrypt keys.key nonce ciphertext aad' := by
  have hsize : datagram.bytes.length < 2 ^ 63 :=
    Nat.lt_of_le_of_lt datagram.fits (by decide)
  refine ⟨(peekServerName_agrees crypto hsize).1, (isQuicInitial_agrees datagram.bytes).1, ?_⟩
  intro header hheader keys
  obtain ⟨_, hlong, hwhole⟩ := parseLongHeader_bounds hheader
  exact open_slices crypto.toCrypto keys hlong hwhole

/-- On the packet of RFC 9001 the checked functions answer the name of its ClientHello
and that it is an Initial. -/
theorem peek_path_never_panics_rfc9001 :
    peekServerName (VecCrypto.ofCrypto Rfc9001.crypto).toCrypto Rfc9001.clientInitial =
      ofOption (some "example.com") ∧
    isQuicInitial Rfc9001.clientInitial = ofOption (some true) := by
  have hfits : Rfc9001.clientInitial.length ≤ 65536 := by
    rw [Rfc9001.length_clientInitial]
    decide
  have hnever := peek_path_never_panics (.ofCrypto Rfc9001.crypto) ⟨Rfc9001.clientInitial, hfits⟩
  obtain ⟨hparse, hopened, hstream⟩ := Rfc9001.clientInitial_parts
  have hvec : Rfc9001.payload.length < 2 ^ 63 := by
    rw [Rfc9001.length_payload]
    decide
  have hkeys := (initial_ofCrypto Rfc9001.crypto _ _).trans Rfc9001.initial_keys
  have hname : Sni.peekServerName (VecCrypto.ofCrypto Rfc9001.crypto).toCrypto
      Rfc9001.clientInitial = some "example.com" := by
    rw [peekServerName_of_parts hparse hkeys (open_ofCrypto _ _ hopened hvec) hstream,
      clientHelloServerName_encode, Rfc9001.serverName_hello]
  have hinitial : Sleepytale.isQuicInitial Rfc9001.clientInitial = true := by decide +kernel
  constructor
  · rw [← hname]
    exact hnever.1
  · rw [← hinitial]
    exact hnever.2.1

end Checked

end Sleepytale.Sni
