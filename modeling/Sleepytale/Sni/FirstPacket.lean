import Sleepytale.Sni.Cursor
import Sleepytale.Sni.Rfc9001

/-!
# The first packet of a datagram

`parse_long_header` accepts exactly the datagrams that begin with a long header
of an Initial and hold all the bytes its Length field covers. What it and
`Keys::open` look at ends with that packet.
-/

namespace Sleepytale.Sni

open Sleepytale.Net
open Sleepytale.Lib.Bytes
open Reader (between)

/-- A long header up to its packet number, as it stands on the wire. -/
structure HeaderBytes where
  first : UInt8
  version : Nat
  dcid : Bytes
  scid : Bytes
  tokenLength : Varint
  token : Bytes
  length : Varint
  longForm : first &&& 0xc0 = 0xc0
  versionFits : version < 2 ^ 32
  typed : initialType version = some ((first &&& 0x30) >>> 4)
  shortDcid : dcid.length ≤ maxCid
  shortScid : scid.length ≤ maxCid
  tokenSized : token.length = tokenLength.value
  sampled : sampleLen + tagLen ≤ length.value

namespace HeaderBytes

def encode (bytes : HeaderBytes) : Bytes :=
  [bytes.first] ++ beBytes 4 bytes.version ++ [UInt8.ofNat bytes.dcid.length] ++ bytes.dcid ++
    [UInt8.ofNat bytes.scid.length] ++ bytes.scid ++ bytes.tokenLength.encode ++ bytes.token ++
    bytes.length.encode

def header (bytes : HeaderBytes) : LongHeader :=
  ⟨bytes.version, bytes.dcid, bytes.encode.length, bytes.length.value⟩

end HeaderBytes

theorem parseLongHeader_encode (bytes : HeaderBytes) {rest : Bytes}
    (h : bytes.length.value ≤ rest.length) :
    parseLongHeader (bytes.encode ++ rest) = some bytes.header := by
  have hbounds : ¬ (bytes.length.value < sampleLen + tagLen ∨
      (bytes.encode ++ rest).length < bytes.encode.length + bytes.length.value) := by
    have hsampled := bytes.sampled
    rw [List.length_append]
    omega
  have hread : Reader.new (bytes.encode ++ rest) = between [] (bytes.first ::
      (beBytes 4 bytes.version ++ (UInt8.ofNat bytes.dcid.length :: (bytes.dcid ++
        (UInt8.ofNat bytes.scid.length :: (bytes.scid ++ (bytes.tokenLength.encode ++
          (bytes.token ++ (bytes.length.encode ++ rest))))))))) := by
    simp only [Reader.new_eq, HeaderBytes.encode, List.append_assoc, List.cons_append, List.nil_append]
  rw [parseLongHeader, hread]
  simp only [Reader.u8_cons, Option.bind_eq_bind, Option.bind_some, bytes.longForm,
    Reader.u32_beBytes _ _ bytes.versionFits, bytes.typed, Reader.cid_cons _ _ _ bytes.shortDcid,
    Reader.cid_cons _ _ _ bytes.shortScid, Reader.varint_encode,
    Reader.skip_of_length bytes.tokenSized, ne_eq, not_true_eq_false, if_false,
    Reader.position_between, List.nil_append]
  exact if_neg hbounds

/-- `parse_long_header` accepts nothing else. -/
theorem exists_of_parseLongHeader {datagram : Bytes} {header : LongHeader}
    (h : parseLongHeader datagram = some header) :
    ∃ (bytes : HeaderBytes) (rest : Bytes), datagram = bytes.encode ++ rest ∧
      bytes.length.value ≤ rest.length ∧ header = bytes.header := by
  rw [parseLongHeader, Reader.new_eq] at h
  simp only [Option.bind_eq_bind, Option.bind_eq_some_iff, Prod.exists,
    Option.ite_none_left_eq_some, Reader.u8_eq_some_iff] at h
  obtain ⟨first, _, ⟨after, rfl, rfl⟩, hlong, h⟩ := h
  simp only [Reader.u32_eq_some_iff] at h
  obtain ⟨version, _, ⟨hversion, after, rfl, rfl⟩, type, htype, htyped, h⟩ := h
  simp only [Reader.cid_eq_some_iff] at h
  obtain ⟨dcid, _, ⟨hdcid, after, rfl, rfl⟩, scid, _, hcid, h⟩ := h
  obtain ⟨hscid, after, rfl, rfl⟩ := Reader.cid_eq_some_iff.mp hcid
  simp only [Reader.varint_eq_some_iff] at h
  obtain ⟨_, _, ⟨tokenLength, after, rfl, rfl, rfl⟩, _, hskip, h⟩ := h
  obtain ⟨token, after, htoken, rfl, rfl⟩ := Reader.skip_eq_some_iff.mp hskip
  simp only [Reader.varint_eq_some_iff] at h
  obtain ⟨_, _, ⟨length, rest, rfl, rfl, rfl⟩, hbounds, h⟩ := h
  obtain ⟨hsampled, hwhole⟩ := not_or.mp hbounds
  obtain rfl := not_not.mp htyped
  let bytes : HeaderBytes :=
    { first, version, dcid, scid, tokenLength, token, length,
      longForm := not_not.mp hlong, versionFits := hversion, typed := htype, shortDcid := hdcid,
      shortScid := hscid, tokenSized := htoken, sampled := Nat.le_of_not_lt hsampled }
  have hdatagram : first :: (beBytes 4 version ++ UInt8.ofNat dcid.length :: (dcid ++
      UInt8.ofNat scid.length :: (scid ++ (tokenLength.encode ++ (token ++ (length.encode ++
        rest)))))) = bytes.encode ++ rest := by
    simp only [bytes, HeaderBytes.encode, List.append_assoc, List.cons_append, List.nil_append]
  refine ⟨bytes, rest, hdatagram, ?_, ?_⟩
  · rw [hdatagram, List.length_append] at hwhole
    exact Nat.le_of_add_le_add_left (Nat.le_of_not_lt hwhole)
  · exact (Option.some.inj h).symm

theorem parseLongHeader_bounds {datagram : Bytes} {header : LongHeader}
    (h : parseLongHeader datagram = some header) :
    0 < header.pnOffset ∧ sampleLen + tagLen ≤ header.length ∧
      header.pnOffset + header.length ≤ datagram.length := by
  obtain ⟨bytes, rest, rfl, hrest, rfl⟩ := exists_of_parseLongHeader h
  refine ⟨?_, bytes.sampled, ?_⟩
  · simp [HeaderBytes.header, HeaderBytes.encode]
  · rw [List.length_append]
    exact Nat.add_le_add_left hrest _

theorem parseLongHeader_of_prefix {datagram datagram' : Bytes} {header : LongHeader}
    (h : parseLongHeader datagram = some header)
    (hstarts : datagram.take (header.pnOffset + header.length) <+: datagram') :
    parseLongHeader datagram' = some header := by
  obtain ⟨bytes, rest, rfl, hrest, rfl⟩ := exists_of_parseLongHeader h
  obtain ⟨after, rfl⟩ := hstarts
  have htake : (bytes.encode ++ rest).take (bytes.encode.length + bytes.length.value) =
      bytes.encode ++ rest.take bytes.length.value := List.take_length_add_append _
  have hlen : bytes.length.value ≤ (rest.take bytes.length.value ++ after).length := by
    rw [List.length_append, List.length_take, Nat.min_eq_left hrest]
    omega
  change parseLongHeader ((bytes.encode ++ rest).take (bytes.encode.length + bytes.length.value) ++
    after) = _
  rw [htake, List.append_assoc]
  exact parseLongHeader_encode bytes hlen

theorem slice?_take_append {bytes : Bytes} {stop k : Nat} (hstop : stop ≤ k)
    (hk : k ≤ bytes.length) (start : Nat) (after : Bytes) :
    slice? (bytes.take k ++ after) start stop = slice? bytes start stop := by
  have hlen : (bytes.take k).length = k := List.length_take_of_le hk
  by_cases hstart : start ≤ stop
  · have hdrop : ((bytes.take k ++ after).drop start).take (stop - start) =
        (bytes.drop start).take (stop - start) := by
      rw [List.drop_append_of_le_length (by omega), List.take_append_of_le_length (by
        rw [List.length_drop]
        omega), List.drop_take, List.take_take, Nat.min_eq_left (by omega)]
    rw [slice?, slice?, if_pos ⟨hstart, by rw [List.length_append]; omega⟩,
      if_pos ⟨hstart, by omega⟩, hdrop]
  · rw [slice?, slice?, if_neg (fun h => hstart h.1), if_neg (fun h => hstart h.1)]

/-- `Keys::open` looks at its packet alone. -/
theorem open_take_append (crypto : Crypto) (keys : Keys) {datagram : Bytes} {pnOffset length : Nat}
    (hlong : sampleLen + tagLen ≤ length) (hwhole : pnOffset + length ≤ datagram.length)
    (after : Bytes) :
    keys.open crypto (datagram.take (pnOffset + length) ++ after) pnOffset length =
      keys.open crypto datagram pnOffset length := by
  have hmin : 32 ≤ length := hlong
  have hslice := fun (start stop : Nat) (hstop : stop ≤ pnOffset + length) =>
    slice?_take_append hstop hwhole start after
  have hhead : (datagram.take (pnOffset + length) ++ after).headD 0 = datagram.headD 0 := by
    cases datagram with
    | nil =>
      rw [List.length_nil] at hwhole
      omega
    | cons first rest =>
      obtain ⟨n, hn⟩ : ∃ n, pnOffset + length = n + 1 := ⟨pnOffset + length - 1, by omega⟩
      rw [hn]
      rfl
  have hsample := hslice (pnOffset + 4) (pnOffset + 4 + sampleLen) (by
    show pnOffset + 4 + 16 ≤ _
    omega)
  have hheader := fun first : UInt8 => hslice 0 (pnOffset + ((first &&& 0x03).toNat + 1)) (by
    have := toNat_and_three_lt first
    omega)
  have hcipher := fun first : UInt8 =>
    hslice (pnOffset + ((first &&& 0x03).toNat + 1)) (pnOffset + length) (Nat.le_refl _)
  simp only [Keys.open, hsample, hhead, hheader, hcipher]

/-- The peek is decided by the first packet: cut short it has no name, and what
follows it changes nothing. -/
theorem peek_first_packet_only (crypto : Crypto) (datagram : Bytes) (header : LongHeader)
    (h : parseLongHeader datagram = some header) :
    (∀ k, k < header.pnOffset + header.length → peekServerName crypto (datagram.take k) = none) ∧
    ∀ trailing, peekServerName crypto (datagram.take (header.pnOffset + header.length) ++ trailing) =
      peekServerName crypto datagram := by
  obtain ⟨_, hlong, hwhole⟩ := parseLongHeader_bounds h
  constructor
  · intro k hk
    cases hshort : parseLongHeader (datagram.take k) with
    | none =>
      rw [peekServerName, hshort]
      rfl
    | some header' =>
      -- A header found in the cut datagram is the header of the whole one.
      obtain ⟨_, _, hwhole'⟩ := parseLongHeader_bounds hshort
      have hsame : parseLongHeader datagram = some header' :=
        parseLongHeader_of_prefix hshort
          ((List.take_prefix _ _).trans (List.take_prefix _ _))
      obtain rfl := Option.some.inj (h.symm.trans hsame)
      rw [List.length_take] at hwhole'
      omega
  · intro trailing
    have hparse := parseLongHeader_of_prefix h (List.prefix_append _ trailing)
    simp only [peekServerName, h, hparse, Option.bind_eq_bind, Option.bind_some,
      open_take_append crypto _ hlong hwhole trailing]

/-- The packet of RFC 9001 fills its datagram. -/
theorem peek_first_packet_only_rfc9001 :
    peekServerName Rfc9001.crypto (Rfc9001.clientInitial.take 1199) = none ∧
    peekServerName Rfc9001.crypto (Rfc9001.clientInitial.take 1200 ++ [0x40]) =
      peekServerName Rfc9001.crypto Rfc9001.clientInitial := by
  have hparse : parseLongHeader Rfc9001.clientInitial = some ⟨V1, Rfc9001.dcid, 18, 1182⟩ := by
    decide +kernel
  obtain ⟨hcut, htrailing⟩ := peek_first_packet_only Rfc9001.crypto _ _ hparse
  exact ⟨hcut 1199 (by decide), htrailing [0x40]⟩

end Sleepytale.Sni
