import Sleepytale.Sni.Peek

/-!
# The ClientHello

`ClientHello` is the message as TLS builds it, its length bounds part of its
type. `client_hello_server_name` reads from its encoding the first host name of
usable length in its `server_name` extension.
-/

namespace Sleepytale.Sni

open Sleepytale.Net
open Sleepytale.Lib.Bytes
open Reader (between)

/-- An entry of a `ServerNameList`. -/
structure ServerName where
  kind : UInt8
  name : Bytes
  short : name.length < 2 ^ 16

def ServerName.encode (entry : ServerName) : Bytes :=
  entry.kind :: (beBytes 2 entry.name.length ++ entry.name)

/-- A `host_name` of a length that a name can have. -/
def ServerName.Usable (entry : ServerName) : Prop :=
  entry.kind = 0x00 ∧ 1 ≤ entry.name.length ∧ entry.name.length ≤ maxServerName

instance (entry : ServerName) : Decidable entry.Usable :=
  inferInstanceAs (Decidable (_ ∧ _))

def encodeNames (names : List ServerName) : Bytes := names.flatMap ServerName.encode

/-- The body of a `server_name` extension: its `ServerNameList`. -/
def nameListBody (names : List ServerName) : Bytes :=
  beBytes 2 (encodeNames names).length ++ encodeNames names

inductive Extension where
  | serverName (names : List ServerName) (short : (nameListBody names).length < 2 ^ 16)
  | other (type : Nat) (body : Bytes) (typed : type ≠ 0 ∧ type < 2 ^ 16)
      (short : body.length < 2 ^ 16)

def Extension.encode : Extension → Bytes
  | serverName names _ => beBytes 2 0 ++ beBytes 2 (nameListBody names).length ++ nameListBody names
  | other type body _ _ => beBytes 2 type ++ beBytes 2 body.length ++ body

def Extension.names? : Extension → Option (List ServerName)
  | serverName names _ => some names
  | other _ _ _ _ => none

def encodeExtensions (exts : List Extension) : Bytes := exts.flatMap Extension.encode

structure ClientHello where
  version : Vector UInt8 2
  random : Vector UInt8 32
  sessionId : Bytes
  cipherSuites : Bytes
  compression : Bytes
  extensions : List Extension
  shortSessionId : sessionId.length < 2 ^ 8
  shortCipherSuites : cipherSuites.length < 2 ^ 16
  shortCompression : compression.length < 2 ^ 8
  shortExtensions : (encodeExtensions extensions).length < 2 ^ 16

namespace ClientHello

/-- `legacy_version` and `random`. -/
def fixed (hello : ClientHello) : Bytes := hello.version.toList ++ hello.random.toList

def body (hello : ClientHello) : Bytes :=
  hello.fixed ++
    (UInt8.ofNat hello.sessionId.length :: hello.sessionId) ++
    (beBytes 2 hello.cipherSuites.length ++ hello.cipherSuites) ++
    (UInt8.ofNat hello.compression.length :: hello.compression) ++
    (beBytes 2 (encodeExtensions hello.extensions).length ++ encodeExtensions hello.extensions)

def encode (hello : ClientHello) : Bytes :=
  0x01 :: (beBytes 3 hello.body.length ++ hello.body)

/-- The first usable host name of the `server_name` extension. -/
def hostName (hello : ClientHello) : Option Bytes := do
  let names ← hello.extensions.findSome? Extension.names?
  let entry ← names.find? fun entry => decide entry.Usable
  return entry.name

/-- The same as text. -/
def serverName (hello : ClientHello) : Option String := do
  let name ← hello.hostName
  String.fromUTF8? ⟨name.toArray⟩

end ClientHello

/-- One turn of the name loop reads one entry. -/
theorem nameList_cons (fuel : Nat) (pre after : Bytes) (entry : ServerName) :
    nameList (fuel + 1) (between pre (entry.encode ++ after)) =
      if entry.Usable then String.fromUTF8? ⟨entry.name.toArray⟩
      else nameList fuel (between (pre ++ entry.encode) after) := by
  rw [nameList, ServerName.encode, List.cons_append, List.append_assoc]
  simp only [Reader.u8_cons, Reader.u16_beBytes _ _ entry.short, Reader.take_between,
    Option.bind_eq_bind, Option.bind_some, List.append_assoc, List.singleton_append]
  rfl

theorem nameList_encode (names : List ServerName) (fuel : Nat) (pre : Bytes) :
    nameList (names.length + (fuel + 1)) (between pre (encodeNames names)) =
      (names.find? fun entry => decide entry.Usable).bind fun entry =>
        String.fromUTF8? ⟨entry.name.toArray⟩ := by
  induction names generalizing pre with
  | nil =>
    rw [List.length_nil, Nat.zero_add, nameList]
    simp only [encodeNames, List.flatMap_nil, Reader.u8_nil]
    rfl
  | cons entry names ih =>
    have hcons : encodeNames (entry :: names) = entry.encode ++ encodeNames names := rfl
    rw [List.length_cons, Nat.succ_add, hcons, nameList_cons, ih, List.find?_cons]
    by_cases husable : entry.Usable
    · rw [if_pos husable, decide_eq_true husable]
      rfl
    · rw [if_neg husable, decide_eq_false husable]

theorem length_le_encodeNames (names : List ServerName) :
    names.length ≤ (encodeNames names).length := by
  induction names with
  | nil => exact Nat.le_refl _
  | cons entry names ih =>
    have hcons : encodeNames (entry :: names) = entry.encode ++ encodeNames names := rfl
    rw [hcons, List.length_append, List.length_cons, ServerName.encode, List.length_cons]
    omega

/-- A name list is walked to its end with the fuel its length gives. -/
theorem nameList_whole (names : List ServerName) :
    nameList ((encodeNames names).length + 1) (Reader.new (encodeNames names)) =
      (names.find? fun entry => decide entry.Usable).bind fun entry =>
        String.fromUTF8? ⟨entry.name.toArray⟩ := by
  have hlen := length_le_encodeNames names
  have hfuel : (encodeNames names).length + 1 =
      names.length + ((encodeNames names).length - names.length + 1) := by omega
  rw [hfuel, Reader.new_eq]
  exact nameList_encode names _ []

/-- What the extension loop answers at a `server_name` extension. -/
def bodyName (body : Bytes) : Option String := do
  let (listLen, r) ← (Reader.new body).u16
  let (list, _) ← r.take listLen
  nameList (list.length + 1) (Reader.new list)

/-- One turn of the extension loop reads one extension and decides at type 0. -/
theorem extensions_cons (fuel : Nat) (pre after body : Bytes) {type : Nat} (htype : type < 2 ^ 16)
    (hbody : body.length < 2 ^ 16) :
    extensions (fuel + 1)
        (between pre (beBytes 2 type ++ beBytes 2 body.length ++ body ++ after)) =
      if type ≠ 0 then
        extensions fuel (between (pre ++ (beBytes 2 type ++ beBytes 2 body.length ++ body)) after)
      else bodyName body := by
  rw [extensions]
  simp only [List.append_assoc, Reader.u16_beBytes _ _ htype, Reader.u16_beBytes _ _ hbody,
    Reader.take_between, Option.bind_eq_bind, Option.bind_some]
  rfl

theorem extensions_encode (exts : List Extension) (fuel : Nat) (pre : Bytes) :
    extensions (exts.length + (fuel + 1)) (between pre (encodeExtensions exts)) =
      (exts.findSome? Extension.names?).bind fun names =>
        (names.find? fun entry => decide entry.Usable).bind fun entry =>
          String.fromUTF8? ⟨entry.name.toArray⟩ := by
  induction exts generalizing pre with
  | nil =>
    rw [List.length_nil, Nat.zero_add, extensions]
    simp only [encodeExtensions, List.flatMap_nil, Reader.u16_nil]
    rfl
  | cons ext exts ih =>
    have hcons : encodeExtensions (ext :: exts) = ext.encode ++ encodeExtensions exts := rfl
    rw [List.length_cons, Nat.succ_add, hcons]
    cases ext with
    | other type body typed short =>
      rw [Extension.encode, extensions_cons _ _ _ _ typed.2 short, if_pos typed.1, ih]
      rfl
    | serverName names short =>
      have hlist : (encodeNames names).length < 2 ^ 16 := by
        rw [nameListBody, List.length_append] at short
        omega
      have hbody : (Reader.new (nameListBody names)).u16 = some ((encodeNames names).length,
          between (beBytes 2 (encodeNames names).length) (encodeNames names)) :=
        Reader.u16_beBytes [] (encodeNames names) hlist
      rw [Extension.encode, extensions_cons _ _ _ _ (by decide) short]
      simp only [ne_eq, not_true_eq_false, if_false, bodyName, hbody, Option.bind_eq_bind,
        Option.bind_some, Reader.take_all]
      exact nameList_whole names

theorem length_le_encodeExtensions (exts : List Extension) :
    exts.length ≤ (encodeExtensions exts).length := by
  induction exts with
  | nil => exact Nat.le_refl _
  | cons ext exts ih =>
    have hcons : encodeExtensions (ext :: exts) = ext.encode ++ encodeExtensions exts := rfl
    have hpos : 0 < ext.encode.length := by
      cases ext <;> simp [Extension.encode, length_beBytes]
    rw [hcons, List.length_append, List.length_cons]
    omega

namespace ClientHello

theorem length_fixed (hello : ClientHello) : hello.fixed.length = 2 + 32 := by
  rw [fixed, List.length_append, Vector.length_toList, Vector.length_toList]

theorem length_body_lt (hello : ClientHello) : hello.body.length < 2 ^ 24 := by
  have h₁ := hello.shortSessionId
  have h₂ := hello.shortCipherSuites
  have h₃ := hello.shortCompression
  have h₄ := hello.shortExtensions
  simp only [body, List.length_append, List.length_cons, length_beBytes, length_fixed]
  omega

theorem length_encode_ge (hello : ClientHello) : 44 ≤ hello.encode.length := by
  simp only [encode, body, List.length_append, List.length_cons, length_beBytes, length_fixed]
  omega

end ClientHello

/-- What is read from a ClientHello is its server name. -/
theorem clientHelloServerName_encode (hello : ClientHello) :
    clientHelloServerName hello.encode = hello.serverName := by
  have hsession : hello.sessionId.length = (UInt8.ofNat hello.sessionId.length).toNat := by
    rw [UInt8.toNat_ofNat']
    exact (Nat.mod_eq_of_lt hello.shortSessionId).symm
  have hcompression : hello.compression.length = (UInt8.ofNat hello.compression.length).toNat := by
    rw [UInt8.toNat_ofNat']
    exact (Nat.mod_eq_of_lt hello.shortCompression).symm
  have hfuel : (encodeExtensions hello.extensions).length + 1 = hello.extensions.length +
      ((encodeExtensions hello.extensions).length - hello.extensions.length + 1) := by
    have := length_le_encodeExtensions hello.extensions
    omega
  have hwalk := extensions_encode hello.extensions
    ((encodeExtensions hello.extensions).length - hello.extensions.length) []
  rw [← hfuel] at hwalk
  simp only [clientHelloServerName, ClientHello.encode, Reader.new_eq, Reader.u8_cons,
    Option.bind_eq_bind, Option.bind_some, ne_eq, not_true_eq_false, if_false,
    Reader.u24_beBytes _ _ hello.length_body_lt, Reader.take_all]
  simp only [ClientHello.body, List.append_assoc, List.cons_append,
    Reader.skip_of_length hello.length_fixed, Option.bind_some, Reader.u8_cons, Reader.skip_of_length hsession,
    Reader.u16_beBytes _ _ hello.shortCipherSuites, Reader.skip_of_length rfl,
    Reader.skip_of_length hcompression, Reader.u16_beBytes _ _ hello.shortExtensions,
    Reader.take_all, hwalk]
  simp only [ClientHello.serverName, ClientHello.hostName, Option.bind_eq_bind, Option.bind_assoc,
    Option.pure_def, Option.bind_some]

end Sleepytale.Sni
