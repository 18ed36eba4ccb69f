import Sleepytale.Sni.Peek

/-!
# The client Initial of RFC 9001, Appendix A.2

The protected datagram of the source's test, and the answers the cryptographic
crates give on the inputs that reading it asks for. On every other input the
answers below are placeholders.
-/

namespace Sleepytale.Sni.Rfc9001

open Sleepytale.Net
open Sleepytale.Lib.Bytes

/-- `rfc9001_client_initial`, 1200 bytes. -/
def clientInitial : Bytes :=
  [
    0xc000000001088394c8f03e5157080000449e7b9aec34d1b1c98dd7689fb8ec11d242b123,
    0xdc9bd8bab936b47d92ec356c0bab7df5976d27cd449f63300099f3991c260ec4c60d17b3,
    0x1f8429157bb35a1282a643a8d2262cad67500cadb8e7378c8eb7539ec4d4905fed1bee1f,
    0xc8aafba17c750e2c7ace01e6005f80fcb7df621230c83711b39343fa028cea7f7fb5ff89,
    0xeac2308249a02252155e2347b63d58c5457afd84d05dfffdb20392844ae812154682e9cf,
    0x012f9021a6f0be17ddd0c2084dce25ff9b06cde535d0f920a2db1bf362c23e596d11a4f5,
    0xa6cf3948838a3aec4e15daf8500a6ef69ec4e3feb6b1d98e610ac8b7ec3faf6ad760b7ba,
    0xd1db4ba3485e8a94dc250ae3fdb41ed15fb6a8e5eba0fc3dd60bc8e30c5c4287e53805db,
    0x059ae0648db2f64264ed5e39be2e20d82df566da8dd5998ccabdae053060ae6c7b4378e8,
    0x46d29f37ed7b4ea9ec5d82e7961b7f25a9323851f681d582363aa5f89937f5a67258bf63,
    0xad6f1a0b1d96dbd4faddfcefc5266ba6611722395c906556be52afe3f565636ad1b17d50,
    0x8b73d8743eeb524be22b3dcbc2c7468d54119c7468449a13d8e3b95811a198f3491de3e7,
    0xfe942b330407abf82a4ed7c1b311663ac69890f4157015853d91e923037c227a33cdd5ec,
    0x281ca3f79c44546b9d90ca00f064c99e3dd97911d39fe9c5d0b23a229a234cb36186c481,
    0x9e8b9c5927726632291d6a418211cc2962e20fe47feb3edf330f2c603a9d48c0fcb5699d,
    0xbfe5896425c5bac4aee82e57a85aaf4e2513e4f05796b07ba2ee47d80506f8d2c25e50fd,
    0x14de71e6c418559302f939b0e1abd576f279c4b2e0feb85c1f28ff18f58891ffef132eef,
    0x2fa09346aee33c28eb130ff28f5b766953334113211996d20011a198e3fc433f9f254101,
    0x0ae17c1bf202580f6047472fb36857fe843b19f5984009ddc324044e847a4f4a0ab34f71,
    0x9595de37252d6235365e9b84392b061085349d73203a4a13e96f5432ec0fd4a1ee65accd,
    0xd5e3904df54c1da510b0ff20dcc0c77fcb2c0e0eb605cb0504db87632cf3d8b4dae6e705,
    0x769d1de354270123cb11450efc60ac47683d7b8d0f811365565fd98c4c8eb936bcab8d06,
    0x9fc33bd801b03adea2e1fbc5aa463d08ca19896d2bf59a071b851e6c239052172f296bfb,
    0x5e72404790a2181014f3b94a4e97d117b438130368cc39dbb2d198065ae3986547926cd2,
    0x162f40a29f0c3c8745c0f50fba3852e566d44575c29d39a03f0cda721984b6f440591f35,
    0x5e12d439ff150aab7613499dbd49adabc8676eef023b15b65bfc5ca06948109f23f350db,
    0x82123535eb8a7433bdabcb909271a6ecbcb58b936a88cd4e8f2e6ff5800175f113253d8f,
    0xa9ca8885c2f552e657dc603f252e1a8e308f76f0be79e2fb8f5d5fbbe2e30ecadd220723,
    0xc8c0aea8078cdfcb3868263ff8f0940054da48781893a7e49ad5aff4af300cd804a6b627,
    0x9ab3ff3afb64491c85194aab760d58a606654f9f4400e8b38591356fbf6425aca26dc852,
    0x44259ff2b19c41b9f96f3ca9ec1dde434da7d2d392b905ddf3d1f9af93d1af5950bd493f,
    0x5aa731b4056df31bd267b6b90a079831aaf579be0a39013137aac6d404f518cfd4684064,
    0x7e78bfe706ca4cf5e9c5453e9f7cfd2b8b4c8d169a44e55c88d4a9a7f9474241e221af44
  ].flatMap (beBytes 36) ++
    beBytes 12 0x860018ab0856972e194cd934

/-- The CRYPTO frame of the decrypted payload, before 917 bytes of PADDING. -/
def cryptoFrame : Bytes :=
  [
    0x060040f1010000ed0303ebf8fa56f12939b9584a3896472ec40bb863cfd3e86804fe3a47,
    0xf06a2b69484c00000413011302010000c000000010000e00000b6578616d706c652e636f,
    0x6dff01000100000a00080006001d0017001800100007000504616c706e00050005010000,
    0x0000003300260024001d00209370b2c9caa47fbabaf4559fedba753de171fa71f50f1ce1,
    0x5d43e994ec74d748002b0003020304000d0010000e040305030603020308040805080600,
    0x2d00020101001c00024001003900320408ffffffffffffffff05048000ffff07048000ff
  ].flatMap (beBytes 36) ++
    beBytes 29 0xff0801100104800075300901100f088394c8f03e51570806048000ffff

def payload : Bytes := cryptoFrame ++ List.replicate 917 0

def dcid : Bytes := beBytes 8 0x8394c8f03e515708

/-- A fixed-width value written as one number. -/
def word (width n : Nat) : Vector UInt8 width := Vector.ofFn fun i => (beBytes width n).getD i 0

def initialSecret : Vector UInt8 32 :=
  word 32 0x7db5df06e7a69e432496adedb00851923595221596ae2ae9fb8115c1e9ed0a44

def clientSecret : Vector UInt8 32 :=
  word 32 0xc00cf151ca5be075ed0ebfb5c80323c42d6b7db67881289af4008f1f6c357aea

def keys : Keys where
  key := word 16 0x1f369613dd76d5467730efcbe3b1a22d
  iv := word 12 0xfa044b2f42a3fd3b46fb255c
  hp := word 16 0x9f50449e04a0e810283a1e9933adedd2

def mask : Vector UInt8 16 := word 16 0x437b9aec36be423400cdd115d9db3241

/-- The unprotected header, with packet number 2 in four bytes. -/
def header : Bytes := beBytes 22 0xc300000001088394c8f03e5157080000449e00000002

/-- The bytes header protection samples, four past the packet number. -/
def sample : Vector UInt8 16 := block ((clientInitial.drop 22).take 16)

def nonce : Vector UInt8 12 := nonceOf keys.iv 2

/-- What AES-128-GCM makes of the payload, with the tag. -/
def ciphertext : Bytes := clientInitial.drop 22

/-- The `info` argument of HKDF-Expand for a label. -/
def info (label : String) (len : Nat) : Bytes :=
  beBytes 2 len ++ beBytes 1 (6 + (ascii label).length) ++ ascii "tls13 " ++ ascii label ++ [0]

def expanded (prk : Vector UInt8 32) (info' : Bytes) : Bytes :=
  if prk = initialSecret ∧ info' = info "client in" 32 then clientSecret.toList
  else if prk = clientSecret ∧ info' = info "quic key" 16 then keys.key.toList
  else if prk = clientSecret ∧ info' = info "quic iv" 12 then keys.iv.toList
  else if prk = clientSecret ∧ info' = info "quic hp" 16 then keys.hp.toList
  else []

def encrypt (key : Vector UInt8 16) (nonce' : Vector UInt8 12) (msg aad : Bytes) : Bytes :=
  if key = keys.key ∧ nonce' = nonce ∧ aad = header ∧ msg = payload then ciphertext
  else msg ++ List.replicate tagLen 0

/-- The primitives, as a table of this packet. -/
def crypto : Crypto where
  extract salt ikm := if salt = v1Salt ∧ ikm = dcid then initialSecret else word 32 0
  fromPrk prk := some prk
  expand prk info' _ := some (Vector.ofFn fun i => (expanded prk info').getD i 0)
  encryptBlock key block := if key = keys.hp ∧ block = sample then mask else word 16 0
  decrypt key nonce' msg aad :=
    if key = keys.key ∧ nonce' = nonce ∧ aad = header ∧ msg = ciphertext then some payload
    else if tagLen ≤ msg.length then some (msg.take (msg.length - tagLen))
    else none

theorem encryptBlock_sample : crypto.encryptBlock keys.hp sample = mask := by
  show (if keys.hp = keys.hp ∧ sample = sample then mask else word 16 0) = mask
  exact if_pos ⟨rfl, rfl⟩

theorem length_clientInitial : clientInitial.length = 1200 := by
  simp [clientInitial, length_beBytes]

theorem length_payload : payload.length = 1162 := by
  have hframe : cryptoFrame.length = 245 := by simp [cryptoFrame, length_beBytes]
  rw [payload, List.length_append, hframe, List.length_replicate]

theorem length_encrypt (key : Vector UInt8 16) (nonce' : Vector UInt8 12) (msg aad : Bytes) :
    (encrypt key nonce' msg aad).length = msg.length + tagLen := by
  rw [encrypt]
  split
  · next h =>
    rw [h.2.2.2, ciphertext, List.length_drop, length_clientInitial, length_payload]
    rfl
  · rw [List.length_append, List.length_replicate]

theorem decrypt_encrypt (key : Vector UInt8 16) (nonce' : Vector UInt8 12) (msg aad : Bytes) :
    crypto.decrypt key nonce' (encrypt key nonce' msg aad) aad = some msg := by
  rw [encrypt]
  split
  · next h =>
    rw [h.2.2.2]
    exact if_pos ⟨h.1, h.2.1, h.2.2.1, rfl⟩
  · next h =>
    -- No ciphertext of the table ends in a tag of zeros.
    have hne : msg ++ List.replicate tagLen 0 ≠ ciphertext := by
      intro he
      have hlast : (msg ++ List.replicate tagLen 0).getLast? = ciphertext.getLast? := by rw [he]
      have hzero : (msg ++ List.replicate tagLen 0).getLast? = some 0 := by
        simp [tagLen]
      rw [hzero] at hlast
      revert hlast
      decide +kernel
    have hlen : tagLen ≤ (msg ++ List.replicate tagLen 0).length := by simp
    have hmsg : (msg ++ List.replicate tagLen 0).take
        ((msg ++ List.replicate tagLen 0).length - tagLen) = msg := by simp
    refine (if_neg (fun hc => hne hc.2.2.2)).trans ((if_pos hlen).trans ?_)
    rw [hmsg]

end Sleepytale.Sni.Rfc9001
