import Caw.Nl80211.Suites

/-!
# The station's RSN element

The element the station puts in its association request and repeats in message 2.

* `StationRsn`, `StationRsn.encode`;
* **`StationRsn.length_encode_le`**: it is at most 44 octets long.
-/

namespace Caw

/-- The suites and capabilities the station asks for. -/
structure StationRsn where
  group : Cipher
  pairwise : Cipher
  akm : Akm
  mfpCapable : Bool
  mfpRequired : Bool
  /-- Names the PMK an SAE exchange has derived. -/
  pmkid : Option (Octets 16)
  groupMgmt : Option Cipher

/-- The four selector octets of a cipher. -/
def cipherSelector (cipher : Cipher) : Bytes :=
  Bytes.toBE 4 ((Nl80211.cipherSuite cipher).getD Nl80211.wlanCipherSuiteUseGroup).toNat

/-- The four selector octets of an AKM. -/
def akmSelector (akm : Akm) : Bytes := Bytes.toBE 4 (Nl80211.akmSuite akm).toNat

namespace StationRsn

/-- The RSN element. -/
def eidRsn : UInt8 := 48

/-- RSN capabilities: management frame protection as bit 6, and as a requirement bit 7. -/
def capabilities (s : StationRsn) : ℕ :=
  (if s.mfpCapable then 64 else 0) + (if s.mfpRequired then 128 else 0)

/-- The PMKID count is there whenever one of the two fields behind it is. -/
def tail (s : StationRsn) : Bytes :=
  if s.pmkid.isSome ∨ s.groupMgmt.isSome then
    Bytes.toLE 2 (if s.pmkid.isSome then 1 else 0) ++ (s.pmkid.map fun p => p.toList).getD [] ++
      (s.groupMgmt.map cipherSelector).getD []
  else []

/-- The element behind its two-octet header. -/
def payload (s : StationRsn) : Bytes :=
  Bytes.toLE 2 1 ++ cipherSelector s.group ++ Bytes.toLE 2 1 ++ cipherSelector s.pairwise ++
    Bytes.toLE 2 1 ++ akmSelector s.akm ++ Bytes.toLE 2 s.capabilities ++ s.tail

/-- The octets of the element. -/
def encode (s : StationRsn) : Bytes := [eidRsn, UInt8.ofNat s.payload.length] ++ s.payload

theorem length_tail_le (s : StationRsn) : s.tail.length ≤ 22 := by
  unfold tail
  cases s.pmkid <;> cases s.groupMgmt <;> simp [cipherSelector]

/-- **The element fits**: its length octet does not overflow. -/
theorem length_encode_le (s : StationRsn) : s.encode.length ≤ 44 := by
  have htail := s.length_tail_le
  simp only [encode, payload, cipherSelector, akmSelector, List.length_append, List.length_cons,
    List.length_nil, Bytes.length_toBE, Bytes.length_toLE]
  omega

end StationRsn

end Caw
