import Sleepytale.Sni.Cursor
import Sleepytale.Sni.Hello

/-!
# The grammar of a ClientHello

`client_hello_server_name` answers a name exactly if the handshake bytes have
the shape of a ClientHello up to that name. Whatever stands after a block whose
length is given, and after the entry that decides, is not looked at.
-/

namespace Sleepytale.Sni

open Sleepytale.Net
open Sleepytale.Lib.Bytes
open Reader (between)

/-- A `ServerNameList` whose first usable host name is `name`. -/
def ListNames (list : Bytes) (name : String) : Prop :=
  ∃ (before : List ServerName) (entry : ServerName) (after : Bytes),
    list = encodeNames before ++ entry.encode ++ after ∧
    (∀ other ∈ before, ¬ other.Usable) ∧ entry.Usable ∧
    name.toUTF8 = ⟨entry.name.toArray⟩

/-- An extension block whose first `server_name` extension has such a list. -/
def BlockNames (block : Bytes) (name : String) : Prop :=
  ∃ (before : List Extension) (body list trailing after : Bytes),
    block = encodeExtensions before ++ (beBytes 2 0 ++ beBytes 2 body.length ++ body) ++ after ∧
    (∀ other ∈ before, other.names? = none) ∧ body.length < 2 ^ 16 ∧
    body = beBytes 2 list.length ++ list ++ trailing ∧ list.length < 2 ^ 16 ∧
    ListNames list name

def HelloNames (handshake : Bytes) (name : String) : Prop :=
  ∃ (fixed sessionId cipherSuites compression block trailing body after : Bytes),
    handshake = 0x01 :: (beBytes 3 body.length ++ body ++ after) ∧ body.length < 2 ^ 24 ∧
    body = fixed ++ (beBytes 1 sessionId.length ++ sessionId) ++
      (beBytes 2 cipherSuites.length ++ cipherSuites) ++
      (beBytes 1 compression.length ++ compression) ++
      (beBytes 2 block.length ++ block) ++ trailing ∧
    fixed.length = 34 ∧ sessionId.length < 2 ^ 8 ∧ cipherSuites.length < 2 ^ 16 ∧
    compression.length < 2 ^ 8 ∧ block.length < 2 ^ 16 ∧ BlockNames block name

theorem fromUTF8?_eq_some_iff {bytes : Bytes} {name : String} :
    String.fromUTF8? ⟨bytes.toArray⟩ = some name ↔ name.toUTF8 = ⟨bytes.toArray⟩ := by
  unfold String.fromUTF8?
  constructor
  · intro h
    split at h
    · obtain rfl := Option.some.inj h
      rfl
    · cases h
  · intro h
    rw [← h, String.toUTF8_eq_toByteArray, dif_pos name.isValidUTF8]
    rfl

theorem exists_entry {fuel : Nat} {pre list : Bytes} {name : String}
    (h : nameList (fuel + 1) (between pre list) = some name) :
    ∃ (entry : ServerName) (after : Bytes), list = entry.encode ++ after := by
  rw [nameList] at h
  cases hkind : (between pre list).u8 with
  | none =>
    rw [hkind] at h
    cases h
  | some read =>
    obtain ⟨kind, r⟩ := read
    obtain ⟨after, rfl, rfl⟩ := Reader.u8_eq_some_iff.mp hkind
    simp only [Reader.u8_cons, Option.bind_eq_bind, Option.bind_eq_some_iff, Prod.exists,
      Reader.u16_eq_some_iff] at h
    obtain ⟨len, _, ⟨hlen, after, rfl, rfl⟩, body, _, htake, _⟩ := h
    obtain ⟨rfl, after, rfl, _⟩ := Reader.take_eq_some_iff.mp htake
    refine ⟨⟨kind, body, hlen⟩, after, ?_⟩
    rw [ServerName.encode, List.cons_append, List.append_assoc]

theorem length_encode_name_pos (entry : ServerName) : 0 < entry.encode.length := by
  rw [ServerName.encode, List.length_cons]
  exact Nat.succ_pos _

/-- The name loop answers with the first usable host name of the list. -/
theorem nameList_eq_some_iff {fuel : Nat} {pre list : Bytes} {name : String}
    (hfuel : list.length < fuel) :
    nameList fuel (between pre list) = some name ↔ ListNames list name := by
  induction fuel generalizing pre list with
  | zero => omega
  | succ fuel ih =>
    constructor
    · intro h
      obtain ⟨entry, after, rfl⟩ := exists_entry h
      rw [nameList_cons] at h
      have hpos := length_encode_name_pos entry
      rw [List.length_append] at hfuel
      split at h
      · next husable =>
        exact ⟨[], entry, after, rfl, by simp, husable, fromUTF8?_eq_some_iff.mp h⟩
      · next hother =>
        obtain ⟨before, found, after, rfl, hbefore, hfound⟩ := (ih (by omega)).mp h
        refine ⟨entry :: before, found, after, ?_, ?_, hfound⟩
        · have hcons : encodeNames (entry :: before) = entry.encode ++ encodeNames before := rfl
          rw [hcons, List.append_assoc, List.append_assoc, List.append_assoc]
        · intro other hm
          rcases List.mem_cons.mp hm with rfl | hm
          · exact hother
          · exact hbefore other hm
    · rintro ⟨before, entry, after, rfl, hbefore, husable, hname⟩
      cases before with
      | nil =>
        have hnil : encodeNames [] ++ entry.encode ++ after = entry.encode ++ after := rfl
        rw [hnil, nameList_cons, if_pos husable]
        exact fromUTF8?_eq_some_iff.mpr hname
      | cons other before =>
        have hcons : encodeNames (other :: before) ++ entry.encode ++ after =
            other.encode ++ (encodeNames before ++ entry.encode ++ after) := by
          rw [← List.append_assoc, ← List.append_assoc]
          rfl
        have hpos := length_encode_name_pos other
        rw [hcons, List.length_append] at hfuel
        rw [hcons, nameList_cons, if_neg (hbefore other List.mem_cons_self)]
        refine (ih (by omega)).mpr ⟨before, entry, after, rfl, ?_, husable, hname⟩
        exact fun other hm => hbefore other (List.mem_cons_of_mem _ hm)

theorem bodyName_eq_some_iff {body : Bytes} {name : String} :
    bodyName body = some name ↔
      ∃ list trailing, body = beBytes 2 list.length ++ list ++ trailing ∧ list.length < 2 ^ 16 ∧
        ListNames list name := by
  constructor
  · intro h
    simp only [bodyName, Reader.new_eq, Option.bind_eq_bind, Option.bind_eq_some_iff, Prod.exists,
      Reader.u16_eq_some_iff] at h
    obtain ⟨len, _, ⟨hlen, after, rfl, rfl⟩, list, _, htake, hlist⟩ := h
    obtain ⟨rfl, trailing, rfl, _⟩ := Reader.take_eq_some_iff.mp htake
    refine ⟨list, trailing, (List.append_assoc _ _ _).symm, hlen, ?_⟩
    exact (nameList_eq_some_iff (Nat.lt_succ_self _)).mp hlist
  · rintro ⟨list, trailing, rfl, hlen, hlist⟩
    have hanswer : nameList (list.length + 1) (between [] list) = some name :=
      (nameList_eq_some_iff (Nat.lt_succ_self _)).mpr hlist
    simp only [bodyName, Reader.new_eq, List.append_assoc, Reader.u16_beBytes _ _ hlen,
      Reader.take_between, Option.bind_eq_bind, Option.bind_some, hanswer]

theorem exists_extension {fuel : Nat} {pre block : Bytes} {name : String}
    (h : extensions (fuel + 1) (between pre block) = some name) :
    ∃ (type : Nat) (body after : Bytes), type < 2 ^ 16 ∧ body.length < 2 ^ 16 ∧
      block = beBytes 2 type ++ beBytes 2 body.length ++ body ++ after := by
  rw [extensions] at h
  cases htype : (between pre block).u16 with
  | none =>
    rw [htype] at h
    cases h
  | some read =>
    obtain ⟨type, r⟩ := read
    obtain ⟨hfits, after, rfl, rfl⟩ := Reader.u16_eq_some_iff.mp htype
    simp only [Reader.u16_beBytes _ _ hfits, Option.bind_eq_bind, Option.bind_eq_some_iff,
      Prod.exists, Reader.u16_eq_some_iff] at h
    obtain ⟨len, _, ⟨hlen, after, rfl, rfl⟩, body, _, htake, _⟩ := h
    obtain ⟨rfl, after, rfl, _⟩ := Reader.take_eq_some_iff.mp htake
    refine ⟨type, body, after, hfits, hlen, ?_⟩
    rw [List.append_assoc, List.append_assoc]

/-- The extension loop answers for the first `server_name` extension. -/
theorem extensions_eq_some_iff {fuel : Nat} {pre block : Bytes} {name : String}
    (hfuel : block.length < fuel) :
    extensions fuel (between pre block) = some name ↔ BlockNames block name := by
  induction fuel generalizing pre block with
  | zero => omega
  | succ fuel ih =>
    constructor
    · intro h
      obtain ⟨type, body, after, htype, hbody, rfl⟩ := exists_extension h
      rw [extensions_cons _ _ _ _ htype hbody] at h
      split at h
      · next hother =>
        have hshorter : after.length < fuel := by
          simp only [List.length_append, length_beBytes] at hfuel
          omega
        obtain ⟨before, body', list, trailing, after', rfl, hbefore, hrest⟩ :=
          (ih hshorter).mp h
        refine ⟨.other type body ⟨hother, htype⟩ hbody :: before, body', list, trailing, after',
          ?_, ?_, hrest⟩
        · have hcons : encodeExtensions (.other type body ⟨hother, htype⟩ hbody :: before) =
              beBytes 2 type ++ beBytes 2 body.length ++ body ++ encodeExtensions before := rfl
          rw [hcons]
          simp only [List.append_assoc]
        · intro other hm
          rcases List.mem_cons.mp hm with rfl | hm
          · rfl
          · exact hbefore other hm
      · next hzero =>
        obtain rfl := not_not.mp hzero
        obtain ⟨list, trailing, hlist⟩ := bodyName_eq_some_iff.mp h
        exact ⟨[], body, list, trailing, after, rfl, by simp, hbody, hlist⟩
    · rintro ⟨before, body, list, trailing, after, rfl, hbefore, hbody, hlist⟩
      cases before with
      | nil =>
        have hnil : encodeExtensions [] ++ (beBytes 2 0 ++ beBytes 2 body.length ++ body) ++ after =
            beBytes 2 0 ++ beBytes 2 body.length ++ body ++ after := rfl
        rw [hnil, extensions_cons _ _ _ _ (by decide) hbody, if_neg (by decide)]
        exact bodyName_eq_some_iff.mpr ⟨list, trailing, hlist⟩
      | cons other before =>
        cases other with
        | serverName names short =>
          have hnone := hbefore (.serverName names short) List.mem_cons_self
          cases hnone
        | other type body' typed short =>
          have hcons : encodeExtensions (.other type body' typed short :: before) =
              beBytes 2 type ++ beBytes 2 body'.length ++ body' ++ encodeExtensions before := rfl
          rw [hcons, List.append_assoc (_ ++ _ ++ _), List.append_assoc (_ ++ _ ++ _)] at hfuel ⊢
          have hshorter : (encodeExtensions before ++
              ((beBytes 2 0 ++ beBytes 2 body.length ++ body) ++ after)).length < fuel := by
            simp only [List.length_append, length_beBytes] at hfuel ⊢
            omega
          rw [extensions_cons _ _ _ _ typed.2 short, if_pos typed.1]
          refine (ih hshorter).mpr ⟨before, body, list, trailing, after, ?_, ?_, hbody, hlist⟩
          · exact (List.append_assoc _ _ _).symm
          · exact fun other hm => hbefore other (List.mem_cons_of_mem _ hm)

/-- `client_hello_server_name` accepts exactly this grammar. -/
theorem client_hello_accepts_grammar (handshake : Bytes) (name : String) :
    clientHelloServerName handshake = some name ↔ HelloNames handshake name := by
  constructor
  · intro h
    simp only [clientHelloServerName, Reader.new_eq, Option.bind_eq_bind, Option.bind_eq_some_iff,
      Prod.exists, Option.ite_none_left_eq_some, Reader.u8_eq_some_iff] at h
    obtain ⟨type, _, ⟨after, rfl, rfl⟩, htype, h⟩ := h
    simp only [Reader.u24_eq_some_iff] at h
    obtain ⟨bodyLen, _, ⟨hbody, after, rfl, rfl⟩, body, _, htake, _, hskip, h⟩ := h
    obtain ⟨rfl, after, rfl, _⟩ := Reader.take_eq_some_iff.mp htake
    obtain ⟨fixed, rest, hfixed, rfl, rfl⟩ := Reader.skip_eq_some_iff.mp hskip
    simp only [Reader.u8_eq_some_iff] at h
    obtain ⟨sessionLen, _, ⟨rest, rfl, rfl⟩, _, hskip, h⟩ := h
    obtain ⟨sessionId, rest, hsession, rfl, rfl⟩ := Reader.skip_eq_some_iff.mp hskip
    simp only [Reader.u16_eq_some_iff] at h
    obtain ⟨_, _, ⟨hsuites, rest, rfl, rfl⟩, _, hskip, h⟩ := h
    obtain ⟨cipherSuites, rest, rfl, rfl, rfl⟩ := Reader.skip_eq_some_iff.mp hskip
    simp only [Reader.u8_eq_some_iff] at h
    obtain ⟨compressionLen, _, ⟨rest, rfl, rfl⟩, _, hskip, h⟩ := h
    obtain ⟨compression, rest, hcompression, rfl, rfl⟩ := Reader.skip_eq_some_iff.mp hskip
    simp only [Reader.u16_eq_some_iff] at h
    obtain ⟨_, _, ⟨hblock, rest, rfl, rfl⟩, block, _, htake, h⟩ := h
    obtain ⟨rfl, trailing, rfl, _⟩ := Reader.take_eq_some_iff.mp htake
    obtain rfl := not_not.mp htype
    refine ⟨fixed, sessionId, cipherSuites, compression, block, trailing, _, after, rfl, hbody, ?_,
      hfixed, ?_, hsuites, ?_, hblock, (extensions_eq_some_iff (Nat.lt_succ_self _)).mp h⟩
    · rw [hsession, hcompression, beBytes_one_toNat, beBytes_one_toNat]
      simp only [List.append_assoc, List.cons_append, List.nil_append]
    · rw [hsession]
      exact sessionLen.toNat_lt
    · rw [hcompression]
      exact compressionLen.toNat_lt
  · rintro ⟨fixed, sessionId, cipherSuites, compression, block, trailing, body, after, rfl, hbody,
      hparts, hfixed, hsession, hsuites, hcompression, hblock, hnames⟩
    have hanswer : extensions (block.length + 1) (between [] block) = some name :=
      (extensions_eq_some_iff (Nat.lt_succ_self _)).mpr hnames
    have hlen : ∀ {piece : Bytes}, piece.length < 2 ^ 8 →
        piece.length = (UInt8.ofNat piece.length).toNat := by
      intro piece hshort
      rw [UInt8.toNat_ofNat', Nat.mod_eq_of_lt hshort]
    have hone : ∀ n, beBytes 1 n = [UInt8.ofNat n] := fun n => rfl
    have hread : between [] body = between [] (fixed ++ (UInt8.ofNat sessionId.length :: (sessionId ++
        (beBytes 2 cipherSuites.length ++ (cipherSuites ++ (UInt8.ofNat compression.length ::
          (compression ++ (beBytes 2 block.length ++ (block ++ trailing))))))))) := by
      simp only [hparts, hone, List.append_assoc, List.cons_append, List.nil_append]
    simp only [clientHelloServerName, Reader.new_eq, Reader.u8_cons, Option.bind_eq_bind,
      Option.bind_some, ne_eq, not_true_eq_false, if_false, List.append_assoc,
      Reader.u24_beBytes _ _ hbody, Reader.take_between]
    simp only [hread, Reader.skip_of_length (show fixed.length = 2 + 32 from hfixed),
      Option.bind_some, Reader.u8_cons, Reader.skip_of_length (hlen hsession),
      Reader.u16_beBytes _ _ hsuites, Reader.skip_of_length rfl,
      Reader.skip_of_length (hlen hcompression), Reader.u16_beBytes _ _ hblock,
      Reader.take_between, hanswer]

end Sleepytale.Sni
