import Caw.Dot11.Suites

/-!
# Key derivation, the EAPOL-Key MIC and the key unwrap

The symmetric half of the crypto crate over its hash and block-cipher libraries, which enter as a
parameter.

* `Primitives`: the library functions;
* `prfSha1`, `kdfSha256`, `derivePtk`: the pairwise key hierarchy;
* `KeyDescriptorVersion`, `computeMic`, `verifyMic`;
* `unwrapKeyData`, `derivePmk`;
* **`verifyMic_computeMic`**: a MIC computed with the KCK verifies under it.
-/

namespace Caw

/-- The hash and cipher functions of the third-party crypto libraries. -/
structure Primitives where
  hmacSha1 : Bytes → Bytes → Octets 20
  hmacSha256 : Bytes → Bytes → Octets 32
  /-- AES-128-CMAC. -/
  aesCmac : Octets 16 → Bytes → Octets 16
  /-- The RFC 3394 unwrap under an AES-128 key; `none` when the check value does not verify. -/
  aesKwUnwrap : Octets 16 → (wrapped : Bytes) → Option (Octets (wrapped.length - 8))
  /-- PBKDF2-HMAC-SHA1 of a password, a salt and an iteration count, to 32 octets. -/
  pbkdf2HmacSha1 : Bytes → Bytes → ℕ → Octets 32
  /-- HKDF-SHA256: salt, input key, info and the length asked for. -/
  hkdfSha256 : Bytes → Bytes → Bytes → (len : ℕ) → Octets len

namespace Crypto

/-- The crypto crate's errors. -/
inductive Error where
  | micMismatch
  | malformed
  | unsupportedAkm
  | authFailed
  | unsupportedVersion
  | keyUnwrapFailed
  | protocol
deriving DecidableEq

/-- The text shown for an error. -/
def Error.text : Error → String
  | micMismatch => "EAPOL-Key MIC mismatch (wrong passphrase?)"
  | malformed => "malformed input"
  | unsupportedAkm => "unsupported AKM suite"
  | authFailed => "authentication rejected"
  | unsupportedVersion => "unsupported EAPOL-Key descriptor version"
  | keyUnwrapFailed => "key unwrap integrity check failed"
  | protocol => "authentication driven out of order"

end Crypto

/-- Pairwise Master Key. -/
abbrev Pmk : Type := Octets 32

/-- Pairwise Transient Key. -/
structure Ptk where
  kck : Octets 16
  kek : Octets 16
  tk : Octets 16
deriving DecidableEq

variable (P : Primitives)

/-! ## Pseudo-random functions -/

/-- The octets of a string. -/
def octetsOf (s : String) : Bytes := s.toUTF8.toList

/-- The number of blocks of `width` octets that `len` octets take. -/
def blocks (len width : ℕ) : ℕ := (len + width - 1) / width

/-- The HMAC-SHA1 construction of IEEE 802.11 PRF-n; the counter follows the data. -/
def prfSha1 (key : Bytes) (label : String) (data : Bytes) (len : ℕ) : Octets len :=
  Bytes.slice 0 len <| (List.range (blocks len 20)).flatMap fun i =>
    (P.hmacSha1 key (octetsOf label ++ [0] ++ data ++ [UInt8.ofNat i])).toList

/-- The HMAC-SHA256 KDF: the counter leads, the requested length in bits closes, both
little-endian. -/
def kdfSha256 (key : Bytes) (label : String) (data : Bytes) (len : ℕ) : Octets len :=
  Bytes.slice 0 len <| (List.range (blocks len 32)).flatMap fun i =>
    (P.hmacSha256 key
      (Bytes.toLE 2 (i + 1) ++ octetsOf label ++ data ++ Bytes.toLE 2 (len * 8))).toList

/-! ## The pairwise key hierarchy -/

/-- Hashed verbatim into every PTK. -/
def ptkLabel : String := "Pairwise key expansion"

/-- KCK, KEK and TK of the CCMP-128 hierarchy. -/
def ptkLen : ℕ := 48

/-- Which pseudo-random function an AKM selects. -/
inductive PtkHash where
  | sha1
  | sha256

/-- The hash of the pairwise hierarchy under an AKM. -/
def ptkHash : Akm → Except Crypto.Error PtkHash
  | .dot1x | .psk => .ok .sha1
  | .dot1xSha256 | .pskSha256 | .sae | .owe => .ok .sha256
  | _ => .error .unsupportedAkm

/-- The three keys are a straight split of the output. -/
def Ptk.split (ptk : Bytes) : Ptk where
  kck := Bytes.slice 0 16 ptk
  kek := Bytes.slice 16 16 ptk
  tk := Bytes.slice 32 16 ptk

/-- Derives the PTK from a PMK and the two nonces; addresses and nonces go in sorted. -/
def derivePtk (pmk : Pmk) (akm : Akm) (aa spa : Mac) (anonce snonce : Octets 32) :
    Except Crypto.Error Ptk := do
  let hash ← ptkHash akm
  let (addrLo, addrHi) := if Octets.lt aa spa then (aa, spa) else (spa, aa)
  let (nonceLo, nonceHi) := if Octets.lt anonce snonce then (anonce, snonce) else (snonce, anonce)
  let data := addrLo.toList ++ addrHi.toList ++ nonceLo.toList ++ nonceHi.toList
  let ptk := match hash with
    | .sha1 => prfSha1 P pmk.toList ptkLabel data ptkLen
    | .sha256 => kdfSha256 P pmk.toList ptkLabel data ptkLen
  return Ptk.split ptk.toList

/-! ## The EAPOL-Key MIC -/

/-- The MIC and key-wrap pairing named by the low three bits of Key Information. -/
inductive KeyDescriptorVersion where
  | hmacSha1
  | aesCmac
  | akmDefinedCmac
deriving DecidableEq

namespace KeyDescriptorVersion

/-- Decode the Key Descriptor Version subfield. -/
def fromKeyInfo (keyInfo : UInt16) : Except Crypto.Error KeyDescriptorVersion :=
  if keyInfo &&& 0x0007 = 2 then .ok hmacSha1
  else if keyInfo &&& 0x0007 = 3 then .ok aesCmac
  else .error .unsupportedVersion

/-- Decode the subfield for a handshake running under `akm`. -/
def fromKeyInfoFor (keyInfo : UInt16) (akm : Akm) : Except Crypto.Error KeyDescriptorVersion :=
  if keyInfo &&& 0x0007 = 0 ∧ akm.isSae then .ok akmDefinedCmac else fromKeyInfo keyInfo

/-- The subfield value, for building a frame. -/
def bits : KeyDescriptorVersion → UInt16
  | hmacSha1 => 2
  | aesCmac => 3
  | akmDefinedCmac => 0

end KeyDescriptorVersion

/-- Width of the MIC field. -/
abbrev micLen : ℕ := 16

/-- Compute the MIC over an EAPOL-Key frame with the KCK. -/
def computeMic (kck : Octets 16) (version : KeyDescriptorVersion) (frame : Bytes) :
    Octets micLen :=
  match version with
  | .hmacSha1 => Bytes.slice 0 micLen (P.hmacSha1 kck.toList frame).toList
  | .aesCmac | .akmDefinedCmac => P.aesCmac kck frame

/-- Check a received MIC. The field's width is its type, so the length check of the source cannot
fail here. -/
def verifyMic (kck : Octets 16) (version : KeyDescriptorVersion) (frame : Bytes)
    (mic : Octets micLen) : Except Crypto.Error Unit :=
  if computeMic P kck version frame = mic then .ok () else .error .micMismatch

/-- **A MIC computed with the KCK verifies under it.** -/
@[simp] theorem verifyMic_computeMic (kck : Octets 16) (version : KeyDescriptorVersion)
    (frame : Bytes) : verifyMic P kck version frame (computeMic P kck version frame) = .ok () :=
  if_pos rfl

theorem verifyMic_eq_ok {kck : Octets 16} {version : KeyDescriptorVersion} {frame : Bytes}
    {mic : Octets micLen} :
    verifyMic P kck version frame mic = .ok () ↔ computeMic P kck version frame = mic := by
  unfold verifyMic
  split_ifs with h <;> simp [h]

/-! ## Key unwrap and the passphrase mapping -/

/-- The wrap's integrity check value occupies one semiblock. -/
def icvLen : ℕ := 8

/-- Unwrap an EAPOL-Key Key Data field with the KEK. -/
def unwrapKeyData (kek : Octets 16) (wrapped : Bytes) : Except Crypto.Error Bytes :=
  if wrapped.length < 2 * icvLen ∨ wrapped.length % icvLen ≠ 0 then .error .malformed
  else
    match P.aesKwUnwrap kek wrapped with
    | some out => .ok out.toList
    | none => .error .keyUnwrapFailed

/-- Iteration count of the passphrase-to-PSK mapping. -/
def pskIterations : ℕ := 4096

/-- The PMK of a passphrase: the salt is the raw SSID. -/
def derivePmk (passphrase : String) (ssid : Bytes) : Pmk :=
  P.pbkdf2HmacSha1 (octetsOf passphrase) ssid pskIterations

/-! ## Providers of a PMK -/

/-- When a provider runs, relative to association. -/
inductive AuthStage where
  | «local»
  | preAssoc
  | postAssoc
deriving DecidableEq

/-- What the caller of a provider should do next. -/
inductive Step where
  | send (frame : Bytes)
  | wait
  | done (pmk : Pmk)
deriving DecidableEq

/-- Everything a provider needs about the peer. -/
structure AuthContext where
  ssid : Bytes
  bssid : Mac
  ownMac : Mac
  akm : Akm

/-! ## Sample primitives -/

/-- Check value of the sample key wrap, and the initial value of the real one. -/
def sampleIcv : Bytes := List.replicate icvLen 0xa6

/-- Functions of the right shape that evaluate at once: a keyed digest that returns the end of its
message, and a key wrap that prefixes the check value. -/
def Primitives.sample : Primitives where
  hmacSha1 key msg := Bytes.slice 0 20 (msg.reverse ++ key)
  hmacSha256 key msg := Bytes.slice 0 32 (msg.reverse ++ key)
  aesCmac key msg := Bytes.slice 0 16 (msg.reverse ++ key.toList)
  aesKwUnwrap _ wrapped :=
    if wrapped.take icvLen = sampleIcv then some ⟨wrapped.drop icvLen, by simp [icvLen]⟩ else none
  pbkdf2HmacSha1 password salt _ := Bytes.slice 0 32 (password ++ salt)
  hkdfSha256 salt key info len := Bytes.slice 0 len (info.reverse ++ key ++ salt)

theorem Primitives.sample_unwrap (kek : Octets 16) (keyData : Bytes) (hmin : icvLen ≤ keyData.length)
    (hmul : keyData.length % icvLen = 0) :
    unwrapKeyData Primitives.sample kek (sampleIcv ++ keyData) = .ok keyData := by
  have hicv : sampleIcv.length = icvLen := rfl
  have hlen : ¬ ((sampleIcv ++ keyData).length < 2 * icvLen ∨
      (sampleIcv ++ keyData).length % icvLen ≠ 0) := by
    rw [List.length_append, hicv]
    simp only [icvLen] at *
    omega
  rw [unwrapKeyData, if_neg hlen]
  simp only [Primitives.sample, List.take_left' hicv, if_true, List.drop_left' hicv]
  rfl

end Caw
