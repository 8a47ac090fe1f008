import Caw.Dot11.Text
import Mathlib.Data.List.MinMax

/-!
# Profiles and policy

Which network to join, with which suites, and when to refuse.

* `Credential`, `Profile`;
* `Policy.strength`, `securityFloor`, `negotiatedSecurity`: the downgrade order;
* `Policy.bestBss`, `bestKnown`, `roamTarget`: the choice of a BSS;
* `Policy.chooseAkm`, `choosePairwise`: the choice of suites;
* **`Policy.chooseAkm_mem`**, `choosePairwise_mem`, `bestBss_mem`, `roamTarget_mem`: what is chosen
  is on offer;
* `bestBss_le`, `bestKnown_le`, `roamTarget_worth`: and nothing on offer is stronger.
-/

set_option autoImplicit false

namespace Caw

/-! ## Profiles -/

/-- An inner method of 802.1X, with its secrets. -/
inductive EnterpriseMethod where
  | peap (password : String)
  | ttls (password : String)
  | tls (clientCert key : String)
deriving DecidableEq

/-- How a network is authenticated. -/
inductive Credential where
  | none
  | passphrase (secret : String)
  | enterprise (identity : String) (anonymousIdentity serverName : Option String)
      (method : EnterpriseMethod) (caCert : Option String)
deriving DecidableEq

/-- A saved network. -/
structure Profile where
  ssid : Bytes
  security : Security
  credential : Credential
  autoconnect : Bool
  /-- Refuse to join with weaker security than this. -/
  minSecurity : Security
deriving DecidableEq

namespace Policy

/-! ## The downgrade order -/

/-- Security levels, weakest to strongest. -/
def strength : Security → ℕ
  | .open => 0
  | .wep => 1
  | .wpa1Personal | .wpa1Enterprise => 2
  | .owe => 3
  | .wpa2Personal | .wpa2Enterprise => 4
  | .wpa2Wpa3Personal => 5
  | .wpa3Personal | .wpa3Enterprise => 6

/-- Whether `offered` clears a recorded floor. -/
def isAtLeast (offered floor : Security) : Bool := strength floor ≤ strength offered

/-- The floor a profile records: a transition network means its weaker half. -/
def securityFloor : Security → Security
  | .wpa2Wpa3Personal => .wpa2Personal
  | observed => observed

/-! ## The choice of a BSS -/

/-- How much better a candidate must be to be worth roaming to, in dB. -/
def roamMarginDb : ℤ := 8

/-- The largest signal a reading can hold. -/
def maxSignal : ℤ := 2 ^ 31 - 1

/-- The element with the largest key; of several, the last. -/
def maxByKey {α : Type} (key : α → ℤ) (l : List α) : Option α :=
  -- the instances are named, since the order of `ℤ` as a conditionally complete one does not compute
  @List.argmax α ℤ Int.instLinearOrder.toPreorder Int.instLinearOrder.toDecidableLT key l.reverse

/-- The strongest BSS advertising `ssid`. -/
def bestBss (scan : List Bss) (ssid : Bytes) : Option Bss :=
  maxByKey (fun bss => bss.signalDbm.toInt) (scan.filter fun bss => bss.ssid = ssid)

/-- A BSS with the profile that lets the machine join it unasked. -/
def known (profiles : List Profile) (bss : Bss) : Option (Bss × Profile) :=
  (profiles.find? fun p => p.autoconnect && p.ssid = bss.ssid).map fun p => (bss, p)

/-- The strongest BSS the machine has a profile for. -/
def bestKnown (scan : List Bss) (profiles : List Profile) : Option (Bss × Profile) :=
  maxByKey (fun entry => entry.1.signalDbm.toInt) (scan.filterMap (known profiles))

/-- A BSS of the same network worth leaving the current one for. -/
def roamTarget (scan : List Bss) (ssid : Bytes) (current : Mac) (currentSignal : Int32) :
    Option Bss :=
  let floor := min (currentSignal.toInt + roamMarginDb) maxSignal
  maxByKey (fun bss => bss.signalDbm.toInt) (scan.filter fun bss =>
    bss.ssid = ssid && bss.bssid ≠ current && floor ≤ bss.signalDbm.toInt)

/-! ## The choice of suites -/

/-- Whether a credential is the kind an AKM asks for; before one is supplied, any is. -/
def satisfies (akm : Akm) : Option Credential → Bool
  | none => true
  | some .none => false
  | some (.passphrase _) => akm.isPsk || akm.isSae
  | some (.enterprise ..) => akm.isEnterprise

/-- Whether caw can run an AKM at all; 802.1X needs the enterprise build. -/
def runnable (enterprise : Bool) (akm : Akm) : Bool :=
  if akm = .psk ∨ akm = .pskSha256 ∨ akm = .sae then true
  else enterprise && (akm = .dot1x || akm = .dot1xSha256)

/-- Strongest first within each family. -/
def akmPreference : List Akm := [.sae, .dot1xSha256, .pskSha256, .dot1x, .psk]

/-- The strongest AKM on offer that the credential satisfies and this build can run. -/
def chooseAkm (enterprise : Bool) (rsn : RsnIe) (credential : Option Credential) : Option Akm :=
  akmPreference.find? fun akm =>
    rsn.akms.contains akm && satisfies akm credential && runnable enterprise akm

/-- The pairwise ciphers caw can install keys for. -/
def pairwisePreference : List Cipher := [.ccmp128, .gcmp128]

/-- The preferred cipher among those on offer. -/
def choosePairwise (rsn : RsnIe) : Option Cipher :=
  pairwisePreference.find? fun c => rsn.pairwiseCiphers.contains c

/-- The security level an association with this AKM provides. -/
def negotiatedSecurity (akm : Akm) (mfpRequired : Bool) : Security :=
  if akm.isSae then .wpa3Personal
  else if akm.isPsk then .wpa2Personal
  else if akm = .owe then .owe
  else if akm.isEnterprise then
    if mfpRequired || akm = .dot1xSuiteB192 then .wpa3Enterprise else .wpa2Enterprise
  else .open

/-! ## What is chosen is on offer -/

theorem maxByKey_mem {α : Type} {key : α → ℤ} {l : List α} {a : α}
    (h : maxByKey key l = some a) : a ∈ l :=
  List.mem_reverse.mp (List.argmax_mem h)

theorem maxByKey_le {α : Type} {key : α → ℤ} {l : List α} {a : α} (h : maxByKey key l = some a) :
    ∀ b ∈ l, key b ≤ key a :=
  fun _ hb => List.le_of_mem_argmax (List.mem_reverse.mpr hb) h

theorem bestBss_mem {scan : List Bss} {ssid : Bytes} {bss : Bss} (h : bestBss scan ssid = some bss) :
    bss ∈ scan ∧ bss.ssid = ssid := by
  simpa using maxByKey_mem h

theorem bestKnown_mem {scan : List Bss} {profiles : List Profile} {bss : Bss} {p : Profile}
    (h : bestKnown scan profiles = some (bss, p)) :
    bss ∈ scan ∧ p ∈ profiles ∧ p.autoconnect = true ∧ p.ssid = bss.ssid := by
  obtain ⟨bss', hmem, hknown⟩ := List.mem_filterMap.mp (maxByKey_mem h)
  obtain ⟨p', hp, heq⟩ := Option.map_eq_some_iff.mp hknown
  cases heq
  have hfound := List.find?_some hp
  simp only [Bool.and_eq_true, decide_eq_true_eq] at hfound
  exact ⟨hmem, List.mem_of_find?_eq_some hp, hfound.1, hfound.2⟩

theorem roamTarget_mem {scan : List Bss} {ssid : Bytes} {current : Mac} {signal : Int32} {bss : Bss}
    (h : roamTarget scan ssid current signal = some bss) :
    bss ∈ scan ∧ bss.ssid = ssid ∧ bss.bssid ≠ current := by
  have hmem := maxByKey_mem h
  simp only [List.mem_filter, Bool.and_eq_true, decide_eq_true_eq] at hmem
  exact ⟨hmem.1, hmem.2.1.1, hmem.2.1.2⟩

theorem known_eq_some {profiles : List Profile} {bss : Bss} :
    (∃ entry, known profiles bss = some entry) ↔
      ∃ p ∈ profiles, p.autoconnect = true ∧ p.ssid = bss.ssid := by
  simp [known, Option.map_eq_some_iff, ← Option.isSome_iff_exists]

theorem known_fst {profiles : List Profile} {bss : Bss} {entry : Bss × Profile}
    (h : known profiles bss = some entry) : entry.1 = bss := by
  obtain ⟨p, -, rfl⟩ := Option.map_eq_some_iff.mp h
  rfl

theorem bestBss_le {scan : List Bss} {ssid : Bytes} {bss : Bss} (h : bestBss scan ssid = some bss) :
    ∀ b ∈ scan, b.ssid = ssid → b.signalDbm.toInt ≤ bss.signalDbm.toInt :=
  fun b hb hssid => maxByKey_le h b (List.mem_filter.mpr ⟨hb, decide_eq_true hssid⟩)

theorem bestKnown_le {scan : List Bss} {profiles : List Profile} {bss : Bss} {p : Profile}
    (h : bestKnown scan profiles = some (bss, p)) :
    ∀ b ∈ scan, (∃ p ∈ profiles, p.autoconnect = true ∧ p.ssid = b.ssid) →
      b.signalDbm.toInt ≤ bss.signalDbm.toInt := by
  intro b hb hp
  obtain ⟨entry, hentry⟩ := known_eq_some.mpr hp
  have hle := maxByKey_le h entry (List.mem_filterMap.mpr ⟨b, hb, hentry⟩)
  rwa [known_fst hentry] at hle

/-- Worth roaming to: another BSS of the network, better by the margin. -/
def WorthRoaming (ssid : Bytes) (current : Mac) (currentSignal : Int32) (bss : Bss) : Prop :=
  bss.ssid = ssid ∧ bss.bssid ≠ current ∧
    min (currentSignal.toInt + roamMarginDb) maxSignal ≤ bss.signalDbm.toInt

theorem roamTarget_worth {scan : List Bss} {ssid : Bytes} {current : Mac} {signal : Int32} {bss : Bss}
    (h : roamTarget scan ssid current signal = some bss) :
    WorthRoaming ssid current signal bss ∧
      ∀ b ∈ scan, WorthRoaming ssid current signal b → b.signalDbm.toInt ≤ bss.signalDbm.toInt := by
  have hmem := maxByKey_mem h
  simp only [List.mem_filter, Bool.and_eq_true, decide_eq_true_eq] at hmem
  refine ⟨⟨hmem.2.1.1, hmem.2.1.2, hmem.2.2⟩, fun b hb hworth => ?_⟩
  refine maxByKey_le h b (List.mem_filter.mpr ⟨hb, ?_⟩)
  simp only [Bool.and_eq_true, decide_eq_true_eq]
  exact ⟨⟨hworth.1, hworth.2.1⟩, hworth.2.2⟩

/-- **The AKM chosen is one the access point offers**, and the credential satisfies it. -/
theorem chooseAkm_mem {enterprise : Bool} {rsn : RsnIe} {credential : Option Credential} {akm : Akm}
    (h : chooseAkm enterprise rsn credential = some akm) :
    akm ∈ rsn.akms ∧ satisfies akm credential = true ∧ runnable enterprise akm = true := by
  have hfound := List.find?_some h
  simp only [Bool.and_eq_true, List.contains_iff_mem] at hfound
  exact ⟨hfound.1.1, hfound.1.2, hfound.2⟩

theorem choosePairwise_mem {rsn : RsnIe} {cipher : Cipher} (h : choosePairwise rsn = some cipher) :
    cipher ∈ rsn.pairwiseCiphers := by
  have hfound := List.find?_some h
  simpa using hfound

end Policy

namespace Profile

/-- A profile for a network just joined: without a credential it is not joined unasked. -/
def new (ssid : Bytes) (security : Security) (credential : Credential) : Profile where
  ssid := ssid
  security := security
  credential := credential
  autoconnect := credential ≠ .none
  minSecurity := Policy.securityFloor security

/-- Whether joining at `offered` is no downgrade from what the profile recorded. -/
def accepts (p : Profile) (offered : Security) : Bool := Policy.isAtLeast offered p.minSecurity

theorem accepts_iff {p : Profile} {offered : Security} :
    p.accepts offered = true ↔ Policy.strength p.minSecurity ≤ Policy.strength offered := by
  simp [accepts, Policy.isAtLeast]

end Profile

end Caw
