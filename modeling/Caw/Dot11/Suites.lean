import Caw.Lib.Octets

/-!
# Suites, security levels and scan results

What caw takes from a beacon: the cipher and AKM suites of an RSN element, the security level a
network is classified at, and one BSS of a scan.

* `Cipher`, `Akm`, with `Akm.isPsk`, `Akm.isSae`, `Akm.isEnterprise`;
* `Security`;
* `RsnIe`, `Bss`.
-/

namespace Caw

/-- A hardware address. -/
abbrev Mac : Type := Octets 6

/-- A suite selector: three OUI bytes then a one-byte suite type. -/
abbrev Selector : Type := Octets 4

/-- Cipher suites from the RSN element. -/
inductive Cipher where
  | useGroup
  | wep40
  | tkip
  | ccmp128
  | wep104
  | bipCmac128
  | gcmp128
  | gcmp256
  | ccmp256
  | unknown (selector : Selector)
deriving DecidableEq

/-- Authentication and key-management suites from the RSN element. -/
inductive Akm where
  | psk
  | pskSha256
  | sae
  | dot1x
  | dot1xSha256
  | owe
  | ftPsk
  | ftSae
  | ftDot1x
  | dot1xSuiteB192
  | unknown (selector : Selector)
deriving DecidableEq

namespace Akm

/-- Authenticates with a pre-shared key, i.e. WPA2-Personal. -/
def isPsk : Akm → Bool
  | psk | pskSha256 | ftPsk => true
  | _ => false

/-- Authenticates with SAE, i.e. WPA3-Personal. -/
def isSae : Akm → Bool
  | sae | ftSae => true
  | _ => false

/-- Authenticates with 802.1X. -/
def isEnterprise : Akm → Bool
  | dot1x | dot1xSha256 | ftDot1x | dot1xSuiteB192 => true
  | _ => false

end Akm

/-- What a network requires, distilled from its RSN element. -/
inductive Security where
  | «open»
  | wep
  | wpa1Personal
  | wpa1Enterprise
  | wpa2Personal
  | wpa3Personal
  | wpa2Wpa3Personal
  | wpa2Enterprise
  | wpa3Enterprise
  | owe
deriving DecidableEq

namespace Security

/-- As it is shown. -/
def asStr : Security → String
  | «open» => "open"
  | wep => "WEP"
  | wpa1Personal => "WPA1-Personal"
  | wpa1Enterprise => "WPA1-Enterprise"
  | wpa2Personal => "WPA2-Personal"
  | wpa3Personal => "WPA3-Personal"
  | wpa2Wpa3Personal => "WPA2/WPA3-Personal"
  | wpa2Enterprise => "WPA2-Enterprise"
  | wpa3Enterprise => "WPA3-Enterprise"
  | owe => "OWE"

end Security

/-- The parsed contents of an RSN element. -/
structure RsnIe where
  version : UInt16
  groupCipher : Cipher
  pairwiseCiphers : List Cipher
  akms : List Akm
  capabilities : UInt16
  mfpCapable : Bool
  mfpRequired : Bool
  groupMgmtCipher : Option Cipher
  /-- The element exactly as received; the handshake MIC covers these bytes. -/
  raw : Bytes
deriving DecidableEq

/-- One BSS from a scan. -/
structure Bss where
  bssid : Mac
  ssid : Bytes
  freqMhz : UInt32
  signalDbm : Int32
  lastSeenMs : UInt32
  capability : UInt16
  security : Security
  rsn : Option RsnIe
deriving DecidableEq

end Caw
