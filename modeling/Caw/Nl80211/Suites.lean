import Caw.Dot11.Suites

/-!
# Suite selectors and enumerations of nl80211

The kernel's 32-bit form of a suite selector, and the enumerations an association request uses.
-/

namespace Caw

namespace Nl80211

/-- A suite under the IEEE OUI. -/
def ieee (suiteType : UInt8) : UInt32 := UInt32.ofNat (Bytes.ofBE [0x00, 0x0f, 0xac, suiteType])

/-- Cipher: the one of the group. -/
def wlanCipherSuiteUseGroup : UInt32 := ieee 0
/-- Cipher: WEP with 40 bits. -/
def wlanCipherSuiteWep40 : UInt32 := ieee 1
/-- Cipher: TKIP. -/
def wlanCipherSuiteTkip : UInt32 := ieee 2
/-- Cipher: CCMP with 128 bits. -/
def wlanCipherSuiteCcmp : UInt32 := ieee 4
/-- Cipher: WEP with 104 bits. -/
def wlanCipherSuiteWep104 : UInt32 := ieee 5
/-- Cipher: BIP with CMAC, for management frames. -/
def wlanCipherSuiteAesCmac : UInt32 := ieee 6
/-- Cipher: GCMP with 128 bits. -/
def wlanCipherSuiteGcmp : UInt32 := ieee 8
/-- Cipher: GCMP with 256 bits. -/
def wlanCipherSuiteGcmp256 : UInt32 := ieee 9
/-- Cipher: CCMP with 256 bits. -/
def wlanCipherSuiteCcmp256 : UInt32 := ieee 10

/-- Key management: 802.1X. -/
def wlanAkmSuite8021x : UInt32 := ieee 1
/-- Key management: a pre-shared key. -/
def wlanAkmSuitePsk : UInt32 := ieee 2
/-- Key management: fast transition over 802.1X. -/
def wlanAkmSuiteFt8021x : UInt32 := ieee 3
/-- Key management: fast transition over a pre-shared key. -/
def wlanAkmSuiteFtPsk : UInt32 := ieee 4
/-- Key management: 802.1X with SHA-256. -/
def wlanAkmSuite8021xSha256 : UInt32 := ieee 5
/-- Key management: a pre-shared key with SHA-256. -/
def wlanAkmSuitePskSha256 : UInt32 := ieee 6
/-- Key management: SAE. -/
def wlanAkmSuiteSae : UInt32 := ieee 8
/-- Key management: fast transition over SAE. -/
def wlanAkmSuiteFtOverSae : UInt32 := ieee 9
/-- Key management: 802.1X at 192 bits. -/
def wlanAkmSuite8021xSuiteB192 : UInt32 := ieee 12
/-- Key management: opportunistic encryption. -/
def wlanAkmSuiteOwe : UInt32 := ieee 18

/-- Authentication: open system. -/
def authtypeOpenSystem : UInt32 := 0
/-- Authentication: SAE. -/
def authtypeSae : UInt32 := 4

/-- The WPA version bit of WPA2. -/
def wpaVersion2 : UInt32 := 2
/-- The WPA version bit of WPA3. -/
def wpaVersion3 : UInt32 := 4

/-- Management frames are not protected. -/
def mfpNo : UInt32 := 0
/-- Management frames have to be protected. -/
def mfpRequired : UInt32 := 1
/-- Management frames are protected where the access point can. -/
def mfpOptional : UInt32 := 2

/-- The number a selector denotes. -/
def fromSelector (s : Selector) : UInt32 := UInt32.ofNat (Bytes.ofBE s.toList)

/-- **The number a selector denotes is written as that selector.** -/
theorem toBE_fromSelector (sel : Selector) : Bytes.toBE 4 (fromSelector sel).toNat = sel.toList := by
  have hlt : Bytes.ofBE sel.toList < 2 ^ 32 := by
    have hbound := Bytes.ofBE_lt sel.toList
    rw [sel.toList_length] at hbound
    exact hbound
  have hback := Bytes.toBE_ofBE sel.toList
  rw [sel.toList_length] at hback
  rw [fromSelector, UInt32.toNat_ofNat', Nat.mod_eq_of_lt hlt, hback]

/-- The selector of a cipher; a station cannot ask for the group key to be used. -/
def cipherSuite : Cipher → Option UInt32
  | .useGroup => none
  | .wep40 => some wlanCipherSuiteWep40
  | .tkip => some wlanCipherSuiteTkip
  | .ccmp128 => some wlanCipherSuiteCcmp
  | .wep104 => some wlanCipherSuiteWep104
  | .bipCmac128 => some wlanCipherSuiteAesCmac
  | .gcmp128 => some wlanCipherSuiteGcmp
  | .gcmp256 => some wlanCipherSuiteGcmp256
  | .ccmp256 => some wlanCipherSuiteCcmp256
  | .unknown s => some (fromSelector s)

/-- The selector of an AKM. -/
def akmSuite : Akm → UInt32
  | .psk => wlanAkmSuitePsk
  | .pskSha256 => wlanAkmSuitePskSha256
  | .sae => wlanAkmSuiteSae
  | .dot1x => wlanAkmSuite8021x
  | .dot1xSha256 => wlanAkmSuite8021xSha256
  | .owe => wlanAkmSuiteOwe
  | .ftPsk => wlanAkmSuiteFtPsk
  | .ftSae => wlanAkmSuiteFtOverSae
  | .ftDot1x => wlanAkmSuiteFt8021x
  | .dot1xSuiteB192 => wlanAkmSuite8021xSuiteB192
  | .unknown s => fromSelector s

end Nl80211

end Caw
