import Caw.Dot11.Elements
import Caw.Nl80211.Event

/-!
# Scan results

One BSS nest of the kernel's scan results turned into a `Bss`.

* `Nl80211.BssReport`, `Nl80211.BssReport.ofNested`: what the nest says;
* `BssReport.elements`: probe-response elements, or else the beacon's;
* `Bss.parse`: the BSS of a nest, none without a BSSID;
* **`bss_parse`**: its security and its RSN element are those of the elements reported.
-/

set_option autoImplicit false

namespace Caw

namespace Nl80211

/-- Attribute: the address of the access point. -/
def bssBssid : ℕ := 1
/-- Attribute: the frequency in MHz. -/
def bssFrequency : ℕ := 2
/-- Attribute: the capability field. -/
def bssCapability : ℕ := 5
/-- Attribute: the elements of a probe response. -/
def bssInformationElements : ℕ := 6
/-- Attribute: the signal in hundredths of a dBm. -/
def bssSignalMbm : ℕ := 7
/-- Attribute: how long ago it was seen, in milliseconds. -/
def bssSeenMsAgo : ℕ := 10
/-- Attribute: the elements of the beacon. -/
def bssBeaconIes : ℕ := 11

/-- The Privacy bit of the capability field. -/
def capabilityPrivacy : UInt16 := 16

/-- Stands for a signal strength the driver did not report: it sorts last. -/
def unknownSignal : Int32 := Int32.minValue

/-- To whole dBm, rounded to nearest. -/
def mbmToDbm (mbm : Int32) : Int32 :=
  let signum : Int32 := if 0 < mbm then 1 else if mbm < 0 then -1 else 0
  (mbm + 50 * signum) / 100

/-- The attributes of a BSS nest that are read. -/
structure BssReport where
  bssid : Option Mac
  freqMhz : UInt32
  signalDbm : Int32
  lastSeenMs : UInt32
  capability : UInt16
  ies : Bytes
  beaconIes : Bytes
deriving DecidableEq

namespace BssReport

/-- A report before its first attribute. -/
def empty : BssReport where
  bssid := none
  freqMhz := 0
  signalDbm := unknownSignal
  lastSeenMs := 0
  capability := 0
  ies := []
  beaconIes := []

/-- One attribute of a report. -/
def add (report : BssReport) (attr : Attr) : BssReport :=
  if attr.kind = bssBssid then { report with bssid := macOf attr.payload }
  else if attr.kind = bssFrequency then { report with freqMhz := (u32Of attr.payload).getD 0 }
  else if attr.kind = bssCapability then { report with capability := (u16Of attr.payload).getD 0 }
  else if attr.kind = bssSignalMbm then
    { report with
      signalDbm := ((u32Of attr.payload).map fun v => mbmToDbm v.toInt32).getD unknownSignal }
  else if attr.kind = bssSeenMsAgo then { report with lastSeenMs := (u32Of attr.payload).getD 0 }
  else if attr.kind = bssInformationElements then { report with ies := attr.payload }
  else if attr.kind = bssBeaconIes then { report with beaconIes := attr.payload }
  else report

/-- A report from the attributes of a nest. -/
def ofNested (nested : Bytes) : BssReport := (attrsFrom nested.length nested).foldl add empty

/-- Probe responses win: a hidden network names itself there only. -/
def elements (report : BssReport) : Bytes := if report.ies = [] then report.beaconIes else report.ies

/-- The Privacy bit of the capability field. -/
def privacy (report : BssReport) : Bool := report.capability &&& capabilityPrivacy ≠ 0

end BssReport

end Nl80211

/-- Decode a BSS nest. -/
def Bss.parse (nested : Bytes) : Option Bss :=
  let report := Nl80211.BssReport.ofNested nested
  let parsed := BeaconIes.parse report.elements
  report.bssid.map fun bssid =>
    { bssid, ssid := parsed.ssid.getD [], freqMhz := report.freqMhz, signalDbm := report.signalDbm
      lastSeenMs := report.lastSeenMs, capability := report.capability
      security := parsed.security report.privacy, rsn := parsed.rsn }

/-- **What a BSS is classified by.** -/
theorem bss_parse {nested : Bytes} {bss : Bss} (h : Bss.parse nested = some bss) :
    bss.rsn = (BeaconIes.parse (Nl80211.BssReport.ofNested nested).elements).rsn ∧
      bss.security = (BeaconIes.parse (Nl80211.BssReport.ofNested nested).elements).security
        (Nl80211.BssReport.ofNested nested).privacy := by
  obtain ⟨bssid, -, rfl⟩ := Option.map_eq_some_iff.mp h
  exact ⟨rfl, rfl⟩

end Caw
