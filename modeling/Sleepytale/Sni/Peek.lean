import Sleepytale.Sni.Reader
import Mathlib.Data.List.Sort

/-!
# Reading the server name of a client Initial (`sni.rs`)

The HKDF, AES and AES-GCM crates are the fields of `Crypto`. Keys and nonces
have their fixed widths in their types, so the width errors of the crates'
constructors (`new_from_slice`) cannot occur. The loops of the source carry
fuel; each starts with more than the bytes it can consume.
-/

namespace Sleepytale.Sni

open Sleepytale.Net
open Sleepytale.Lib.Bytes

def V1 : Nat := 0x00000001
def V2 : Nat := 0x6b3343cf

def v1Salt : Bytes :=
  [0x38, 0x76, 0x2c, 0xf7, 0xf5, 0x59, 0x34, 0xb3, 0x4d, 0x17, 0x9a, 0xe6, 0xa4, 0xc8, 0x0c, 0xad,
    0xcc, 0xbb, 0x7f, 0x0a]

def v2Salt : Bytes :=
  [0x0d, 0xed, 0xe3, 0xde, 0xf7, 0x00, 0xa6, 0xdb, 0x81, 0x93, 0x81, 0xbe, 0x6e, 0x26, 0x9d, 0xcb,
    0xf9, 0xbd, 0x2e, 0xd9]

def tagLen : Nat := 16

def sampleLen : Nat := 16

def maxServerName : Nat := 253

/-- The third-party primitives. `expand` answers `none` where the crate refuses
the requested output length; `decrypt` answers `none` where the tag is wrong. -/
structure Crypto where
  extract (salt ikm : Bytes) : Vector UInt8 32
  fromPrk (prk : Vector UInt8 32) : Option (Vector UInt8 32)
  expand (prk : Vector UInt8 32) (info : Bytes) (len : Nat) : Option (Vector UInt8 len)
  encryptBlock (key block : Vector UInt8 16) : Vector UInt8 16
  decrypt (key : Vector UInt8 16) (nonce : Vector UInt8 12) (msg aad : Bytes) : Option Bytes

/-- What the long header says of the packet that starts the datagram. -/
structure LongHeader where
  version : Nat
  dcid : Bytes
  pnOffset : Nat
  length : Nat
  deriving DecidableEq, Repr

/-- The long-header packet type of an Initial, by version. -/
def initialType (version : Nat) : Option UInt8 :=
  if version = V1 then some 0 else if version = V2 then some 1 else none

def parseLongHeader (datagram : Bytes) : Option LongHeader := do
  let r := Reader.new datagram
  let (first, r) ← r.u8
  if first &&& 0xc0 ≠ 0xc0 then none
  else
    let (version, r) ← r.u32
    let type ← initialType version
    if (first &&& 0x30) >>> 4 ≠ type then none
    else
      let (dcid, r) ← r.cid
      let (_, r) ← r.cid
      let (tokenLen, r) ← r.varint
      let r ← r.skip tokenLen
      let (length, r) ← r.varint
      let pnOffset := r.position
      if length < sampleLen + tagLen ∨ datagram.length < pnOffset + length then none
      else return { version, dcid, pnOffset, length }

/-- Initial keys for the client's side of a connection. -/
structure Keys where
  key : Vector UInt8 16
  iv : Vector UInt8 12
  hp : Vector UInt8 16
  deriving DecidableEq

def ascii (text : String) : Bytes := text.toList.map fun c => UInt8.ofNat c.toNat

/-- HKDF-Expand-Label from TLS 1.3, with the empty context QUIC always uses. -/
def expandLabel (crypto : Crypto) (prk : Vector UInt8 32) (label : Bytes) (len : Nat) :
    Option (Vector UInt8 len) :=
  if len < 2 ^ 16 ∧ 6 + label.length < 2 ^ 8 then
    crypto.expand prk
      (beBytes 2 len ++ beBytes 1 (6 + label.length) ++ ascii "tls13 " ++ label ++ [0]) len
  else none

def Keys.initial (crypto : Crypto) (version : Nat) (dcid : Bytes) : Option Keys := do
  let (salt, keyLabel, ivLabel, hpLabel) ←
    if version = V1 then some (v1Salt, ascii "quic key", ascii "quic iv", ascii "quic hp")
    else if version = V2 then
      some (v2Salt, ascii "quicv2 key", ascii "quicv2 iv", ascii "quicv2 hp")
    else none
  let initial := crypto.extract salt dcid
  let clientInitial ← expandLabel crypto initial (ascii "client in") 32
  let client ← crypto.fromPrk clientInitial
  let key ← expandLabel crypto client keyLabel 16
  let iv ← expandLabel crypto client ivLabel 12
  let hp ← expandLabel crypto client hpLabel 16
  return { key, iv, hp }

/-- `mask.copy_from_slice(sample)`, for a sample of `sampleLen` bytes. -/
def block (sample : Bytes) : Vector UInt8 16 := Vector.ofFn fun i => sample.getD i 0

/-- The nonce: the IV with the packet number xored into its last eight bytes. -/
def nonceOf (iv : Vector UInt8 12) (packetNumber : Nat) : Vector UInt8 12 :=
  Vector.ofFn fun i =>
    if i.val < 4 then iv[i] else iv[i] ^^^ (beBytes 8 packetNumber).getD (i.val - 4) 0

/-- Remove header protection, then decrypt the packet payload. -/
def Keys.open (crypto : Crypto) (keys : Keys) (datagram : Bytes) (pnOffset length : Nat) :
    Option Bytes := do
  let sampleAt := pnOffset + 4
  let sample ← slice? datagram sampleAt (sampleAt + sampleLen)
  let mask := (crypto.encryptBlock keys.hp (block sample)).toList
  let first := datagram.headD 0 ^^^ (mask.getD 0 0 &&& 0x0f)
  let pnLen := (first &&& 0x03).toNat + 1
  let header ← slice? datagram 0 (pnOffset + pnLen)
  let header := header.set 0 first
  let number := (header.drop pnOffset).mapIdx fun i byte => byte ^^^ mask.getD (1 + i) 0
  let nonce := nonceOf keys.iv (beNat number)
  let ciphertext ← slice? datagram (pnOffset + pnLen) (pnOffset + length)
  crypto.decrypt keys.key nonce ciphertext (header.take pnOffset ++ number)

/-- The range pairs of an ACK frame. -/
def ackRanges : Nat → Reader → Option Reader
  | 0, r => some r
  | ranges + 1, r => do
      let (_, r) ← r.varint
      let (_, r) ← r.varint
      ackRanges ranges r

/-- The body of an ACK frame, with ECN counts in the `0x03` form. -/
def ackFrame (frame : UInt8) (r : Reader) : Option Reader := do
  let (_, r) ← r.varint
  let (_, r) ← r.varint
  let (ranges, r) ← r.varint
  let (_, r) ← r.varint
  let r ← ackRanges ranges r
  if frame = 0x03 then
    let (_, r) ← r.varint
    let (_, r) ← r.varint
    let (_, r) ← r.varint
    return r
  else return r

/-- The frame walk of `reassemble_crypto`: CRYPTO pieces in packet order. -/
def frames : Nat → Reader → List (Nat × Bytes) → Option (List (Nat × Bytes))
  | 0, _, _ => none
  | fuel + 1, r, pieces =>
      match r.u8 with
      | none => some pieces
      | some (frame, r) =>
          if frame = 0x00 ∨ frame = 0x01 then frames fuel r pieces
          else if frame = 0x02 ∨ frame = 0x03 then do
            let r ← ackFrame frame r
            frames fuel r pieces
          else if frame = 0x06 then do
            let (offset, r) ← r.varint
            let (len, r) ← r.varint
            let (data, r) ← r.take len
            frames fuel r (pieces ++ [(offset, data)])
          else some pieces

/-- Append the sorted pieces, skipping what is in hand, up to the first hole. -/
def assemble : List (Nat × Bytes) → Bytes → Bytes
  | [], crypto => crypto
  | (offset, data) :: rest, crypto =>
      if offset > crypto.length then crypto
      else
        let skip := crypto.length - offset
        assemble rest (if skip ≤ data.length then crypto ++ data.drop skip else crypto)

def reassembleCrypto (payload : Bytes) : Option Bytes := do
  let pieces ← frames (payload.length + 1) (Reader.new payload) []
  let crypto := assemble (pieces.insertionSort fun a b => a.1 ≤ b.1) []
  if crypto.isEmpty then none else return crypto

/-- The entries of a `ServerNameList`: the first host name of usable length. -/
def nameList : Nat → Reader → Option String
  | 0, _ => none
  | fuel + 1, r =>
      match r.u8 with
      | none => none
      | some (kind, r) => do
          let (len, r) ← r.u16
          let (name, r) ← r.take len
          if kind = 0x00 ∧ 1 ≤ name.length ∧ name.length ≤ maxServerName then
            String.fromUTF8? ⟨name.toArray⟩
          else nameList fuel r

/-- The extension loop, which decides at the first `server_name` extension. -/
def extensions : Nat → Reader → Option String
  | 0, _ => none
  | fuel + 1, r =>
      match r.u16 with
      | none => none
      | some (extension, r) => do
          let (len, r) ← r.u16
          let (body, r) ← r.take len
          if extension ≠ 0x0000 then extensions fuel r
          else
            let (listLen, r) ← (Reader.new body).u16
            let (list, _) ← r.take listLen
            nameList (list.length + 1) (Reader.new list)

/-- The `server_name` extension of a TLS ClientHello. -/
def clientHelloServerName (handshake : Bytes) : Option String := do
  let (type, r) ← (Reader.new handshake).u8
  if type ≠ 0x01 then none
  else
    let (bodyLen, r) ← r.u24
    let (body, _) ← r.take bodyLen
    let r ← (Reader.new body).skip (2 + 32)
    let (sessionId, r) ← r.u8
    let r ← r.skip sessionId.toNat
    let (cipherSuites, r) ← r.u16
    let r ← r.skip cipherSuites
    let (compression, r) ← r.u8
    let r ← r.skip compression.toNat
    let (extensionsLen, r) ← r.u16
    let (block, _) ← r.take extensionsLen
    extensions (block.length + 1) (Reader.new block)

def peekServerName (crypto : Crypto) (datagram : Bytes) : Option String := do
  let header ← parseLongHeader datagram
  let keys ← Keys.initial crypto header.version header.dcid
  let plaintext ← keys.open crypto datagram header.pnOffset header.length
  let stream ← reassembleCrypto plaintext
  clientHelloServerName stream

end Sleepytale.Sni
