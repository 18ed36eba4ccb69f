import Mathlib.Data.List.GetD
import Sleepytale.Sni.FirstPacket
import Sleepytale.Sni.Frames
import Sleepytale.Sni.Hello
import Sleepytale.Sni.Rfc9001

/-!
# A client Initial, from the frames to the wire and back

`Initial` is a client's Initial packet before protection. `Initial.packet` is the
sender's procedure: seal the payload with the header as associated data, then mask
the first byte and the packet number with what AES makes of the sampled
ciphertext. `peek_server_name` undoes it.
-/

namespace Sleepytale.Sni

open Sleepytale.Net
open Sleepytale.Lib.Bytes
open Sleepytale.Lib.Lists
open Reader (between)

inductive Version where
  | v1
  | v2
  deriving DecidableEq

namespace Version

def number : Version → Nat
  | v1 => 0x00000001
  | v2 => 0x6b3343cf

/-- The packet type bits of an Initial. -/
def typeBits : Version → Nat
  | v1 => 0
  | v2 => 1

end Version

/-- A client Initial before protection. `pnLength` is one less than the number of
bytes of the packet number, as the first byte has it. -/
structure Initial where
  version : Version
  reserved : Fin 4
  dcid : Bytes
  scid : Bytes
  tokenLength : Varint
  token : Bytes
  length : Varint
  pnLength : Fin 4
  packetNumber : Nat
  frames : List Frame
  shortDcid : dcid.length ≤ maxCid
  shortScid : scid.length ≤ maxCid
  tokenSized : tokenLength.value = token.length
  numberFits : packetNumber < 256 ^ (pnLength.val + 1)
  lengthSized : length.value = pnLength.val + 1 + (encodeFrames frames).length + tagLen

/-- The nonce of a packet: the IV xored with the packet number, padded to its
width. -/
def packetNonce (iv : Vector UInt8 12) (packetNumber : Nat) : Vector UInt8 12 :=
  Vector.ofFn fun i => iv.get i ^^^ (beBytes 12 packetNumber).getD i.val 0

/-- Header protection with a mask: the low bits of the first byte, and the bytes
of the packet number. -/
def maskHeader (mask : Bytes) (pnOffset pnLen : Nat) (packet : Bytes) : Bytes :=
  packet.mapIdx fun i byte =>
    if i = 0 then byte ^^^ (mask.getD 0 0 &&& 0x0f)
    else if pnOffset ≤ i ∧ i < pnOffset + pnLen then byte ^^^ mask.getD (1 + (i - pnOffset)) 0
    else byte

namespace Initial

def firstByte (initial : Initial) : UInt8 :=
  UInt8.ofNat (0xc0 + 16 * initial.version.typeBits + 4 * initial.reserved.val +
    initial.pnLength.val)

/-- The header between the first byte and the packet number. -/
def fields (initial : Initial) : Bytes :=
  beBytes 4 initial.version.number ++ (UInt8.ofNat initial.dcid.length :: initial.dcid) ++
    (UInt8.ofNat initial.scid.length :: initial.scid) ++
    (initial.tokenLength.encode ++ initial.token) ++ initial.length.encode

def number (initial : Initial) : Bytes := beBytes (initial.pnLength.val + 1) initial.packetNumber

def header (initial : Initial) : Bytes :=
  initial.firstByte :: (initial.fields ++ initial.number)

def pnOffset (initial : Initial) : Nat := 1 + initial.fields.length

def payload (initial : Initial) : Bytes := encodeFrames initial.frames

section Protection

variable (crypto : Crypto)
  (encrypt : Vector UInt8 16 → Vector UInt8 12 → (msg aad : Bytes) → Bytes) (keys : Keys)

/-- The packet after the AEAD and before header protection. -/
def sealed (initial : Initial) : Bytes :=
  initial.header ++
    encrypt keys.key (packetNonce keys.iv initial.packetNumber) initial.payload initial.header

/-- The packet on the wire. -/
def packet (initial : Initial) : Bytes :=
  let sealedPacket := initial.sealed encrypt keys
  let sample := (sealedPacket.drop (initial.pnOffset + 4)).take sampleLen
  let mask := (crypto.encryptBlock keys.hp (block sample)).toList
  maskHeader mask initial.pnOffset (initial.pnLength.val + 1) sealedPacket

end Protection

end Initial

/-- The parts of a packet under header protection. -/
theorem maskHeader_parts (mask fields number rest : Bytes) (first : UInt8) :
    maskHeader mask (1 + fields.length) number.length (first :: (fields ++ (number ++ rest))) =
      (first ^^^ (mask.getD 0 0 &&& 0x0f)) ::
        (fields ++ ((number.mapIdx fun i byte => byte ^^^ mask.getD (1 + i) 0) ++ rest)) := by
  rw [maskHeader, List.mapIdx_cons, List.mapIdx_append, List.mapIdx_append, if_pos rfl]
  congr 1
  congr 1
  · refine mapIdx_eq_self fun i hi byte => ?_
    rw [if_neg (by omega), if_neg (by omega)]
  congr 1
  · refine List.ext_getElem (by simp) fun i hi _ => ?_
    rw [List.length_mapIdx] at hi
    rw [List.getElem_mapIdx, List.getElem_mapIdx, if_neg (by omega), if_pos (by omega)]
    congr 3
    omega
  · refine mapIdx_eq_self fun i hi byte => ?_
    rw [if_neg (by omega), if_neg (by omega)]

/-- The sample lies in the ciphertext, whatever the length of the packet number. -/
theorem sample_parts {number number' ciphertext : Bytes} (hlen : number'.length = number.length)
    (hnumber : number.length ≤ 4) (hlong : 4 + sampleLen ≤ number.length + ciphertext.length)
    (front trailing : Bytes) :
    slice? (front ++ (number' ++ (ciphertext ++ trailing))) (front.length + 4)
        (front.length + 4 + sampleLen) =
      some (((number ++ ciphertext).drop 4).take sampleLen) := by
  have hskip : ∀ {n rest : Bytes}, n.length = number.length →
      (n ++ rest).drop 4 = rest.drop (4 - number.length) := by
    intro n rest hn
    rw [List.drop_append, List.drop_of_length_le (by omega), List.nil_append, hn]
  have hbound : front.length + 4 + sampleLen ≤
      (front ++ (number' ++ (ciphertext ++ trailing))).length := by
    simp only [List.length_append]
    omega
  have htake : sampleLen ≤ (ciphertext.drop (4 - number.length)).length := by
    rw [List.length_drop]
    omega
  rw [slice?, if_pos ⟨Nat.le_add_right _ _, hbound⟩, ← List.drop_drop, List.drop_left,
    Nat.add_sub_cancel_left, hskip hlen, hskip rfl, List.drop_append_of_le_length (by omega),
    List.take_append_of_le_length htake]

section Open

variable (crypto : Crypto) (keys : Keys) {first : UInt8} {fields number ciphertext : Bytes}

/-- `Keys::open` on a protected packet: header protection comes off, and the AEAD
is asked about the header and the packet number the sender used. -/
theorem open_parts (hnumber : number.length = (first &&& 0x03).toNat + 1)
    (hlong : 4 + sampleLen ≤ number.length + ciphertext.length) (trailing mask : Bytes)
    (hmask : mask = (crypto.encryptBlock keys.hp
      (block (((number ++ ciphertext).drop 4).take sampleLen))).toList) :
    keys.open crypto ((first ^^^ (mask.getD 0 0 &&& 0x0f)) :: (fields ++
        ((number.mapIdx fun i byte => byte ^^^ mask.getD (1 + i) 0) ++ (ciphertext ++ trailing))))
        (1 + fields.length) (number.length + ciphertext.length) =
      crypto.decrypt keys.key (nonceOf keys.iv (beNat number)) ciphertext
        (first :: (fields ++ number)) := by
  have hpn : (first &&& 0x03).toNat + 1 ≤ 4 := by
    have := toNat_and_three_lt first
    omega
  generalize hmasked : (number.mapIdx fun i byte => byte ^^^ mask.getD (1 + i) 0) = number'
  have hlen : number'.length = number.length := by
    rw [← hmasked, List.length_mapIdx]
  generalize hfirst : first ^^^ (mask.getD 0 0 &&& 0x0f) = first'
  generalize hdatagram :
    first' :: (fields ++ (number' ++ (ciphertext ++ trailing))) = datagram
  have hfront : (first' :: fields).length = 1 + fields.length := by
    rw [List.length_cons, Nat.add_comm]
  have hwhole : (first' :: (fields ++ number')).length = 1 + fields.length + number.length := by
    rw [List.length_cons, List.length_append, hlen]
    omega
  have hsample : slice? datagram (1 + fields.length + 4) (1 + fields.length + 4 + sampleLen) =
      some (((number ++ ciphertext).drop 4).take sampleLen) := by
    rw [← hdatagram, ← hfront]
    exact sample_parts hlen (by omega) hlong (first' :: fields) trailing
  have hheader : slice? datagram 0 (1 + fields.length + number.length) =
      some (first' :: (fields ++ number')) := by
    have h := slice?_append [] (first' :: (fields ++ number')) (ciphertext ++ trailing)
    rw [hwhole] at h
    simpa [← hdatagram] using h
  have hcipher : slice? datagram (1 + fields.length + number.length)
      (1 + fields.length + (number.length + ciphertext.length)) = some ciphertext := by
    have h := slice?_append (first' :: (fields ++ number')) ciphertext trailing
    rw [hwhole, Nat.add_assoc (1 + fields.length)] at h
    simpa [← hdatagram] using h
  have hhead : datagram.headD 0 ^^^ (mask.getD 0 0 &&& 0x0f) = first := by
    rw [← hdatagram, List.headD_cons, ← hfirst, xor_xor_cancel]
  have hdrop : (first :: (fields ++ number')).drop (1 + fields.length) = number' := by
    rw [Nat.add_comm, List.drop_succ_cons, List.drop_left]
  have htake : (first :: (fields ++ number')).take (1 + fields.length) = first :: fields := by
    rw [Nat.add_comm, List.take_succ_cons, List.take_left]
  have hunmask : (number'.mapIdx fun i byte => byte ^^^ mask.getD (1 + i) 0) = number := by
    rw [← hmasked]
    exact mapIdx_xor_cancel number fun i => mask.getD (1 + i) 0
  simp only [Keys.open, hsample, Option.bind_eq_bind, Option.bind_some, ← hmask, hhead, ← hnumber,
    hheader, List.set_cons_zero, hdrop, htake, hunmask, hcipher, List.cons_append]

end Open

/-- Padding the packet number to the width of the IV is xoring its eight bytes
into the end. -/
theorem packetNonce_eq (iv : Vector UInt8 12) {packetNumber : Nat} (h : packetNumber < 256 ^ 8) :
    packetNonce iv packetNumber = nonceOf iv packetNumber := by
  have hpad : beBytes 12 packetNumber = List.replicate 4 0 ++ beBytes 8 packetNumber :=
    beBytes_add h 4
  refine Vector.ext fun i hi => ?_
  simp only [packetNonce, nonceOf, Vector.getElem_ofFn, hpad]
  split
  · next hlt =>
    rw [List.getD_append _ _ _ _ (by simpa using hlt), List.getD_replicate _ hlt]
    exact UInt8.xor_zero
  · next hge =>
    rw [List.getD_append_right _ _ _ _ (by simpa using hge), List.length_replicate]
    rfl

/-- Bits outside the low four survive header protection. -/
theorem xor_low_and {k : UInt8} (hk : 0x0f &&& k = 0) (a m : UInt8) :
    (a ^^^ (m &&& 0x0f)) &&& k = a &&& k := by
  apply UInt8.eq_of_toBitVec_eq
  ext i hi
  have hbit : (0x0f &&& k).toBitVec[i] = (0 : UInt8).toBitVec[i] := by rw [hk]
  simp only [UInt8.toBitVec_and, UInt8.toBitVec_xor, BitVec.getElem_and, BitVec.getElem_xor]
    at hbit ⊢
  cases h : (0x0f : UInt8).toBitVec[i] <;> cases hk : k.toBitVec[i] <;> simp_all

namespace Initial

theorem firstByte_bits (initial : Initial) :
    initial.firstByte &&& 0xc0 = 0xc0 ∧
    initialType initial.version.number = some ((initial.firstByte &&& 0x30) >>> 4) ∧
    (initial.firstByte &&& 0x03).toNat = initial.pnLength.val := by
  rw [firstByte]
  generalize initial.version = version
  generalize initial.reserved = reserved
  generalize initial.pnLength = pnLength
  revert reserved pnLength
  cases version <;> decide

/-- `parse_long_header` on a packet whose first byte is masked. -/
theorem parseLongHeader_fields (initial : Initial) (m : UInt8) {rest : Bytes}
    (hlong : sampleLen + tagLen ≤ initial.length.value) (hrest : initial.length.value ≤ rest.length) :
    parseLongHeader ((initial.firstByte ^^^ (m &&& 0x0f)) :: (initial.fields ++ rest)) =
      some ⟨initial.version.number, initial.dcid, initial.pnOffset, initial.length.value⟩ := by
  obtain ⟨hlead, htype, _⟩ := initial.firstByte_bits
  have hversion : initial.version.number < 2 ^ 32 := by cases initial.version <;> decide
  have hlead' : (initial.firstByte ^^^ (m &&& 0x0f)) &&& 0xc0 = 0xc0 := by
    rw [xor_low_and (by decide), hlead]
  have htype' : initialType initial.version.number =
      some (((initial.firstByte ^^^ (m &&& 0x0f)) &&& 0x30) >>> 4) := by
    rw [xor_low_and (by decide), htype]
  let bytes : HeaderBytes :=
    { first := initial.firstByte ^^^ (m &&& 0x0f), version := initial.version.number,
      dcid := initial.dcid, scid := initial.scid, tokenLength := initial.tokenLength,
      token := initial.token, length := initial.length, longForm := hlead',
      versionFits := hversion, typed := htype', shortDcid := initial.shortDcid,
      shortScid := initial.shortScid, tokenSized := initial.tokenSized.symm, sampled := hlong }
  have hencode : bytes.encode = (initial.firstByte ^^^ (m &&& 0x0f)) :: initial.fields := by
    simp only [bytes, HeaderBytes.encode, fields, List.append_assoc, List.cons_append,
      List.nil_append]
  have hparse := parseLongHeader_encode bytes hrest
  rw [hencode, List.cons_append] at hparse
  rw [hparse, HeaderBytes.header, hencode, List.length_cons, pnOffset, Nat.add_comm 1]

section Protection

variable (crypto : Crypto)
  {encrypt : Vector UInt8 16 → Vector UInt8 12 → (msg aad : Bytes) → Bytes}
  (hencrypt : ∀ key nonce msg aad, (encrypt key nonce msg aad).length = msg.length + tagLen)
  (initial : Initial) (keys : Keys)

theorem length_number : initial.number.length = initial.pnLength.val + 1 := by
  rw [number, length_beBytes]

variable (encrypt) in
/-- The packet on the wire in its parts. -/
theorem packet_parts : ∃ mask ciphertext : Bytes,
    ciphertext = encrypt keys.key (packetNonce keys.iv initial.packetNumber) initial.payload
      initial.header ∧
    mask = (crypto.encryptBlock keys.hp
      (block (((initial.number ++ ciphertext).drop 4).take sampleLen))).toList ∧
    initial.packet crypto encrypt keys =
      (initial.firstByte ^^^ (mask.getD 0 0 &&& 0x0f)) :: (initial.fields ++
        ((initial.number.mapIdx fun i byte => byte ^^^ mask.getD (1 + i) 0) ++ ciphertext)) := by
  refine ⟨_, _, rfl, rfl, ?_⟩
  generalize hc : encrypt keys.key (packetNonce keys.iv initial.packetNumber) initial.payload
    initial.header = ciphertext
  have hsealed : initial.sealed encrypt keys =
      initial.firstByte :: (initial.fields ++ (initial.number ++ ciphertext)) := by
    rw [sealed, hc, header, List.cons_append, List.append_assoc]
  have hdrop : (initial.sealed encrypt keys).drop (initial.pnOffset + 4) =
      (initial.number ++ ciphertext).drop 4 := by
    rw [hsealed, pnOffset, ← List.drop_drop, Nat.add_comm 1, List.drop_succ_cons, List.drop_left]
  simp only [packet, hdrop, ← length_number]
  rw [hsealed]
  exact maskHeader_parts _ initial.fields initial.number ciphertext initial.firstByte

variable {crypto} {initial}
include hencrypt

/-- Parsing and opening a packet gives its payload back. -/
theorem open_packet (hlong : sampleLen ≤ initial.payload.length)
    (hopen : ∀ key nonce msg aad,
      crypto.decrypt key nonce (encrypt key nonce msg aad) aad = some msg) (trailing : Bytes) :
    parseLongHeader (initial.packet crypto encrypt keys ++ trailing) =
      some ⟨initial.version.number, initial.dcid, initial.pnOffset, initial.length.value⟩ ∧
    keys.open crypto (initial.packet crypto encrypt keys ++ trailing) initial.pnOffset
      initial.length.value = some initial.payload := by
  obtain ⟨mask, ciphertext, hc, hmask, hpacket⟩ := initial.packet_parts crypto encrypt keys
  have hcipher : ciphertext.length = initial.payload.length + tagLen := by
    rw [hc, hencrypt]
  have hnumber := initial.length_number
  have hlength : initial.length.value = initial.number.length + ciphertext.length := by
    rw [initial.lengthSized, hnumber, hcipher, payload, Nat.add_assoc]
  have hfits : initial.packetNumber < 256 ^ 8 := by
    refine Nat.lt_of_lt_of_le initial.numberFits (Nat.pow_le_pow_right (by decide) ?_)
    omega
  have hbits : initial.number.length = (initial.firstByte &&& 0x03).toNat + 1 := by
    rw [hnumber, initial.firstByte_bits.2.2]
  rw [hpacket]
  simp only [List.cons_append, List.append_assoc]
  constructor
  · refine initial.parseLongHeader_fields _ ?_ ?_
    · rw [hlength, hcipher]
      omega
    · simp only [List.length_append, List.length_mapIdx]
      omega
  · have hsampled : 4 + sampleLen ≤ initial.number.length + ciphertext.length := by
      have htag : 4 ≤ tagLen := by decide
      omega
    rw [hlength, pnOffset, open_parts crypto keys hbits hsampled trailing mask hmask, number,
      beNat_beBytes initial.numberFits, ← packetNonce_eq keys.iv hfits, hc]
    exact hopen keys.key _ initial.payload initial.header

end Protection

end Initial

/-- `peek_server_name` from the answers of its parts. -/
theorem peekServerName_of_parts {crypto : Crypto} {datagram plaintext stream : Bytes}
    {header : LongHeader} {keys : Keys} (hparse : parseLongHeader datagram = some header)
    (hkeys : Keys.initial crypto header.version header.dcid = some keys)
    (hopen : keys.open crypto datagram header.pnOffset header.length = some plaintext)
    (hstream : reassembleCrypto plaintext = some stream) :
    peekServerName crypto datagram = clientHelloServerName stream := by
  simp only [peekServerName, hparse, Option.bind_eq_bind, Option.bind_some, hkeys, hopen, hstream]

/-- `peek_server_name` undoes Initial protection: on any packet the sender's
procedure builds around a ClientHello, with anything after it, it answers the
first usable host name of the ClientHello. -/
theorem peek_undoes_protection (crypto : Crypto)
    (encrypt : Vector UInt8 16 → Vector UInt8 12 → (msg aad : Bytes) → Bytes)
    (hopen : ∀ key nonce msg aad,
      crypto.decrypt key nonce (encrypt key nonce msg aad) aad = some msg)
    (hencrypt : ∀ key nonce msg aad, (encrypt key nonce msg aad).length = msg.length + tagLen)
    (initial : Initial) (keys : Keys)
    (hkeys : Keys.initial crypto initial.version.number initial.dcid = some keys)
    (hello : ClientHello) (hagree : Agree hello.encode (cryptoPieces initial.frames))
    (hcovered : ∀ i, i < hello.encode.length → Covered (cryptoPieces initial.frames) i)
    (trailing : Bytes) :
    peekServerName crypto (initial.packet crypto encrypt keys ++ trailing) = hello.serverName := by
  have hge := hello.length_encode_ge
  have hle := length_le_of_covered hagree hcovered
  have hlong : sampleLen ≤ initial.payload.length := by
    rw [Initial.payload]
    exact Nat.le_trans (Nat.le_trans (by decide) hge) hle
  have hne : hello.encode ≠ [] := by simp [ClientHello.encode]
  obtain ⟨hparse, hopened⟩ := Initial.open_packet hencrypt keys hlong hopen trailing
  rw [peekServerName_of_parts hparse hkeys hopened (reassembleCrypto_encodeFrames hagree hcovered hne)]
  exact clientHelloServerName_encode hello

namespace Rfc9001

def hello : ClientHello where
  version := word 2 0x0303
  random := word 32 0xebf8fa56f12939b9584a3896472ec40bb863cfd3e86804fe3a47f06a2b69484c
  sessionId := []
  cipherSuites := beBytes 4 0x13011302
  compression := [0]
  extensions := [
    .serverName [⟨0, ascii "example.com", by decide⟩] (by decide),
    .other 0xff01 [0] (by decide) (by decide),
    .other 0x000a (beBytes 8 0x0006001d00170018) (by decide) (by decide),
    .other 0x0010 (beBytes 7 0x000504616c706e) (by decide) (by decide),
    .other 0x0005 (beBytes 5 0x0100000000) (by decide) (by decide),
    .other 0x0033 (beBytes 38
      0x0024001d00209370b2c9caa47fbabaf4559fedba753de171fa71f50f1ce15d43e994ec74d748)
      (by decide) (by decide),
    .other 0x002b (beBytes 3 0x020304) (by decide) (by decide),
    .other 0x000d (beBytes 16 0x000e0403050306030203080408050806) (by decide) (by decide),
    .other 0x002d (beBytes 2 0x0101) (by decide) (by decide),
    .other 0x001c (beBytes 2 0x4001) (by decide) (by decide),
    .other 0x0039 (beBytes 50
      0x0408ffffffffffffffff05048000ffff07048000ffff0801100104800075300901100f088394c8f03e51570806048000ffff)
      (by decide) (by decide)]
  shortSessionId := by decide
  shortCipherSuites := by decide
  shortCompression := by decide
  shortExtensions := by decide +kernel

theorem encode_hello : hello.encode = cryptoFrame.drop 4 := by decide +kernel

def cryptoPiece : CryptoPiece where
  offset := ⟨0, 0, by decide⟩
  len := ⟨1, 241, by decide⟩
  data := hello.encode
  sized := by
    rw [encode_hello]
    decide +kernel

def frames : List Frame := .crypto cryptoPiece :: List.replicate 917 .padding

theorem encode_frames : encodeFrames frames = payload := by
  have hcons : encodeFrames frames =
      (Frame.crypto cryptoPiece).encode ++ encodeFrames (List.replicate 917 .padding) := rfl
  have hcrypto : (Frame.crypto cryptoPiece).encode = cryptoFrame := by decide +kernel
  rw [hcons, hcrypto, encodeFrames_padding]
  rfl

theorem pieces_frames : cryptoPieces frames = [(0, hello.encode)] := by
  rw [frames, cryptoPieces_cons, cryptoPieces_padding]
  rfl

def initial : Initial where
  version := .v1
  reserved := 0
  dcid := dcid
  scid := []
  tokenLength := ⟨0, 0, by decide⟩
  token := []
  length := ⟨1, 1182, by decide⟩
  pnLength := 3
  packetNumber := 2
  frames := frames
  shortDcid := by decide
  shortScid := by decide
  tokenSized := rfl
  numberFits := by decide
  lengthSized := by
    rw [encode_frames, length_payload]
    rfl

theorem encrypt_initial :
    encrypt keys.key (packetNonce keys.iv initial.packetNumber) initial.payload initial.header =
      ciphertext := by
  have hnonce : packetNonce keys.iv initial.packetNumber = nonce :=
    packetNonce_eq keys.iv (by decide)
  have hheader : initial.header = header := by decide +kernel
  rw [encrypt, if_pos ⟨rfl, hnonce, hheader, encode_frames⟩]

theorem packet_initial : initial.packet crypto encrypt keys = clientInitial := by
  obtain ⟨mask', ciphertext', hc, hmask, hpacket⟩ := initial.packet_parts crypto encrypt keys
  rw [encrypt_initial] at hc
  subst hc
  have hsample : ((initial.number ++ ciphertext).drop 4).take sampleLen =
      (clientInitial.drop 22).take 16 := rfl
  have hmask' : mask' = mask.toList := by
    rw [hmask, hsample]
    exact congrArg Vector.toList encryptBlock_sample
  have hfront : (initial.firstByte ^^^ (mask'.getD 0 0 &&& 0x0f)) :: (initial.fields ++
      initial.number.mapIdx fun i byte => byte ^^^ mask'.getD (1 + i) 0) =
      clientInitial.take 22 := by
    rw [hmask']
    decide +kernel
  rw [hpacket, ← List.append_assoc, ← List.cons_append, hfront]
  exact List.take_append_drop 22 clientInitial

theorem serverName_hello : hello.serverName = some "example.com" := by decide +kernel

theorem initial_keys : Keys.initial crypto V1 dcid = some keys := by decide +kernel

theorem agree_hello : Agree hello.encode (cryptoPieces initial.frames) := by
  show Agree hello.encode (cryptoPieces frames)
  rw [pieces_frames]
  exact agree_whole hello.encode

theorem covered_hello (i : Nat) (hi : i < hello.encode.length) :
    Covered (cryptoPieces initial.frames) i := by
  show Covered (cryptoPieces frames) i
  rw [pieces_frames]
  exact covered_whole hi

end Rfc9001

/-- The packet of RFC 9001 is one the sender's procedure builds. -/
theorem peek_undoes_protection_rfc9001 :
    Rfc9001.initial.packet Rfc9001.crypto Rfc9001.encrypt Rfc9001.keys = Rfc9001.clientInitial ∧
    peekServerName Rfc9001.crypto
      (Rfc9001.initial.packet Rfc9001.crypto Rfc9001.encrypt Rfc9001.keys ++ [0x00]) =
        some "example.com" := by
  refine ⟨Rfc9001.packet_initial, ?_⟩
  rw [← Rfc9001.serverName_hello]
  exact peek_undoes_protection Rfc9001.crypto Rfc9001.encrypt Rfc9001.decrypt_encrypt
    Rfc9001.length_encrypt Rfc9001.initial Rfc9001.keys Rfc9001.initial_keys Rfc9001.hello
    Rfc9001.agree_hello Rfc9001.covered_hello [0x00]

namespace Rfc9001

theorem clientInitial_parts :
    parseLongHeader clientInitial =
      some ⟨initial.version.number, initial.dcid, initial.pnOffset, initial.length.value⟩ ∧
    keys.open crypto clientInitial initial.pnOffset initial.length.value = some payload ∧
    reassembleCrypto payload = some hello.encode := by
  have hpayload : initial.payload = payload := encode_frames
  have hlong : sampleLen ≤ initial.payload.length := by
    rw [hpayload, length_payload]
    decide
  obtain ⟨hparse, hopened⟩ := Initial.open_packet length_encrypt keys hlong decrypt_encrypt []
  rw [List.append_nil, packet_initial] at hparse hopened
  rw [hpayload] at hopened
  refine ⟨hparse, hopened, ?_⟩
  rw [← hpayload]
  exact reassembleCrypto_encodeFrames agree_hello covered_hello (by simp [ClientHello.encode])

/-- `reads_the_server_name_from_the_rfc_9001_client_initial` of the source's tests. -/
theorem peek_clientInitial : peekServerName crypto clientInitial = some "example.com" := by
  obtain ⟨hparse, hopened, hstream⟩ := clientInitial_parts
  rw [peekServerName_of_parts hparse initial_keys hopened hstream, clientHelloServerName_encode,
    serverName_hello]

end Rfc9001

end Sleepytale.Sni
