import Caw.Dot11.Suites
import Caw.Lib.Text

/-!
# What a person reads of a network

The texts of security levels, AKM suites, 802.11 reason codes and SSIDs.
-/

namespace Caw

/-- The text of a security level. -/
def Security.text : Security → String
  | .open => "open"
  | .wep => "WEP"
  | .wpa1Personal => "WPA1-Personal"
  | .wpa1Enterprise => "WPA1-Enterprise"
  | .wpa2Personal => "WPA2-Personal"
  | .wpa3Personal => "WPA3-Personal"
  | .wpa2Wpa3Personal => "WPA2/WPA3-Personal"
  | .wpa2Enterprise => "WPA2-Enterprise"
  | .wpa3Enterprise => "WPA3-Enterprise"
  | .owe => "OWE"

/-- The text of a suite selector. -/
def Selector.text (s : Selector) : String :=
  let hex := fun i => String.ofList (Text.hexByte (s.toList.getD i 0))
  hex 0 ++ "-" ++ hex 1 ++ "-" ++ hex 2 ++ ":" ++ toString (s.toList.getD 3 0).toNat

/-- The text of an AKM suite. -/
def Akm.text : Akm → String
  | .psk => "PSK"
  | .pskSha256 => "PSK-SHA256"
  | .sae => "SAE"
  | .dot1x => "802.1X"
  | .dot1xSha256 => "802.1X-SHA256"
  | .owe => "OWE"
  | .ftPsk => "FT-PSK"
  | .ftSae => "FT-SAE"
  | .ftDot1x => "FT-802.1X"
  | .dot1xSuiteB192 => "802.1X-SuiteB-192"
  | .unknown s => Selector.text s

/-- What an 802.11 reason code means; codes outside the table have no text. -/
def reasonText (code : UInt16) : Option String :=
  match code.toNat with
  | 1 => some "unspecified reason"
  | 2 => some "previous authentication no longer valid"
  | 3 => some "the station is leaving the network"
  | 4 => some "inactive for too long"
  | 5 => some "the access point cannot handle any more stations"
  | 6 => some "a frame arrived from a station that had not authenticated"
  | 7 => some "a frame arrived from a station that had not associated"
  | 8 => some "the station is leaving the access point"
  | 9 => some "reassociation requested by a station that had not authenticated"
  | 10 => some "power capability unacceptable"
  | 11 => some "supported channels unacceptable"
  | 12 => some "moved off by BSS transition management"
  | 13 => some "invalid information element"
  | 14 => some "message integrity check failure"
  | 15 => some "4-way handshake timeout (often a wrong passphrase)"
  | 16 => some "group key handshake timeout"
  | 17 => some "security element differs from the one advertised"
  | 18 => some "invalid group cipher"
  | 19 => some "invalid pairwise cipher"
  | 20 => some "invalid key management suite"
  | 21 => some "unsupported RSN element version"
  | 22 => some "invalid RSN capabilities"
  | 23 => some "802.1X authentication failed"
  | 24 => some "cipher suite rejected by security policy"
  | 25 => some "TDLS direct link unreachable"
  | 26 => some "TDLS direct link torn down"
  | 32 => some "unspecified QoS reason"
  | 33 => some "not enough bandwidth for this station"
  | 34 => some "too many frames went unacknowledged (poor signal)"
  | 35 => some "transmitting outside the station's transmit opportunity limits"
  | 36 => some "the peer is leaving"
  | 37 => some "the peer does not want this mechanism"
  | 38 => some "the peer has not set up this mechanism"
  | 39 => some "the peer timed out"
  | 45 => some "cipher suite not supported by the peer"
  | 46 => some "the access point disassociated the station for another reason"
  | _ => none

/-- An access point that hides its name sends no octets, or only zeros. -/
def ssidHidden (ssid : Bytes) : Bool := ssid.all (· = 0)

/-- An SSID for a terminal: lossy, with control characters escaped. -/
def ssidText (ssid : Bytes) : String :=
  if ssidHidden ssid then "<hidden>"
  else String.ofList ((Text.lossyFrom 0 ssid).flatMap fun c =>
    if Text.isControl c then Text.escapeDebug c else [c])

end Caw
