import Caw.Core.Saved
import Caw.Dot11.Selectors

/-!
# The suites asked for are suites on offer

Suites go through three tables: from octets to an enumeration, to the kernel's number, and back to
octets. Here the octets at the two ends are compared.

* `Selector.ofCipher`, `Selector.ofAkm`: the selector the station writes;
* `rsnFields_payload`: the fields of the station's element;
* `NamesOffered`: the station's element and its association request name suites of the access point's
  element;
* `GroupKept`, `SuitesKept`: where the tables give back the octets they were given;
* **`names_offered_iff`**: the suites named are suites on offer exactly there;
* `relabelled_group`: a group cipher under the Microsoft OUI is renamed.
-/

set_option autoImplicit false

namespace Caw

open Caw.Core Dot11

/-! ## What the station writes -/

namespace Selector

/-- The selector a cipher is written as. -/
def ofCipher (cipher : Cipher) : Selector := ⟨cipherSelector cipher, Bytes.length_toBE _ _⟩

/-- The selector an AKM is written as. -/
def ofAkm (akm : Akm) : Selector := ⟨akmSelector akm, Bytes.length_toBE _ _⟩

/-- **A number is denoted by the selector it is written as.** -/
theorem fromSelector_toBE (number : UInt32) :
    Nl80211.fromSelector ⟨Bytes.toBE 4 number.toNat, Bytes.length_toBE _ _⟩ = number := by
  show UInt32.ofNat (Bytes.ofBE (Bytes.toBE 4 number.toNat)) = number
  have hlt : number.toNat < 256 ^ 4 := number.toNat_lt
  rw [Bytes.ofBE_toBE, Nat.mod_eq_of_lt hlt, UInt32.ofNat_toNat]

theorem fromSelector_ofAkm (akm : Akm) : Nl80211.fromSelector (ofAkm akm) = Nl80211.akmSuite akm :=
  fromSelector_toBE _

theorem fromSelector_ofCipher {cipher : Cipher} {number : UInt32}
    (h : Nl80211.cipherSuite cipher = some number) : Nl80211.fromSelector (ofCipher cipher) = number := by
  have hsel : ofCipher cipher = ⟨Bytes.toBE 4 number.toNat, Bytes.length_toBE _ _⟩ := by
    apply List.Vector.toList_injective
    show cipherSelector cipher = Bytes.toBE 4 number.toNat
    rw [cipherSelector, h]
    rfl
  rw [hsel, fromSelector_toBE]

end Selector

theorem suitesAt_singleton {off : ℕ} (pre : Bytes) (hpre : pre.length = off) (sel : Selector)
    (post : Bytes) : suitesAt off (pre ++ (Bytes.toLE 2 1 ++ (sel.toList ++ post))) = some [sel] := by
  have hsel : sel.toList.length = 4 := sel.toList_length
  have hlen : (pre ++ (Bytes.toLE 2 1 ++ (sel.toList ++ post))).length = off + 6 + post.length := by
    simp only [List.length_append, Bytes.length_toLE, hsel, hpre]
    omega
  have hslice : Bytes.slice (off + 2) 4 (pre ++ (Bytes.toLE 2 1 ++ (sel.toList ++ post))) = sel := by
    rw [← List.append_assoc, Bytes.slice_append_right (by simp [hpre]), List.length_append,
      Bytes.length_toLE, hpre, Nat.sub_self, Bytes.slice_zero_append]
  unfold suitesAt
  rw [hlen, if_neg (by omega), Bytes.ofLE_slice_append 2 1 pre _ hpre]
  have hroom : min (1 % 256 ^ 2) ((off + 6 + post.length - (off + 2)) / 4) = 1 := by omega
  rw [hroom]
  simp [hslice]

/-- **The fields of the station's element**: one suite of each kind. -/
theorem rsnFields_payload (s : StationRsn) : rsnFields s.payload =
    { group := some (.ofCipher s.group), pairwise := some [.ofCipher s.pairwise]
      akm := some [.ofAkm s.akm] } := by
  have hcipher : ∀ c, (Selector.ofCipher c).toList = cipherSelector c := fun _ => rfl
  have hlength : ∀ c, (cipherSelector c).length = 4 := fun _ => Bytes.length_toBE _ _
  have hpayload : s.payload = (Bytes.toLE 2 1 ++ cipherSelector s.group) ++ (Bytes.toLE 2 1 ++
      ((Selector.ofCipher s.pairwise).toList ++ (Bytes.toLE 2 1 ++ ((Selector.ofAkm s.akm).toList ++
        (Bytes.toLE 2 s.capabilities ++ s.tail))))) := by
    simp only [StationRsn.payload, hcipher, List.append_assoc]
    rfl
  have hpairwise : suitesAt 6 s.payload = some [.ofCipher s.pairwise] := by
    rw [hpayload]
    exact suitesAt_singleton _ (by simp [hlength]) _ _
  have hakm : suitesAt 12 s.payload = some [.ofAkm s.akm] := by
    have hsplit : s.payload = ((Bytes.toLE 2 1 ++ cipherSelector s.group) ++ (Bytes.toLE 2 1 ++
        (Selector.ofCipher s.pairwise).toList)) ++ (Bytes.toLE 2 1 ++ ((Selector.ofAkm s.akm).toList ++
          (Bytes.toLE 2 s.capabilities ++ s.tail))) := by
      rw [hpayload]
      simp only [List.append_assoc]
    rw [hsplit]
    exact suitesAt_singleton _ (by simp [hlength, hcipher]) _ _
  have hgroup : Bytes.slice 2 4 s.payload = Selector.ofCipher s.group := by
    rw [hpayload, List.append_assoc, Bytes.slice_append_right (by simp), Bytes.length_toLE,
      Nat.sub_self, ← hcipher, Bytes.slice_zero_append]
  have hlen : ¬s.payload.length < 6 := by
    rw [hpayload]
    simp only [List.length_append, Bytes.length_toLE, hlength]
    omega
  simp only [rsnFields, if_neg hlen, hgroup, hpairwise, Option.bind_some, List.length_singleton]
  rw [hakm]

/-! ## What the tables give back -/

/-- The numbers the table of ciphers knows. -/
def cipherTypes : List UInt8 := [0, 1, 2, 4, 5, 6, 8, 9, 10]

/-- The numbers the table of AKMs knows. -/
def akmTypes : List UInt8 := [1, 2, 3, 4, 5, 6, 8, 9, 12, 18]

/-- A group selector the tables give back: no number of theirs under the Microsoft OUI. -/
def GroupKept (sel : Selector) : Prop := ∀ suiteType ∈ cipherTypes, sel ≠ .microsoft suiteType

/-- The kernel's number of a group selector; no station can ask for the one that says to use the group
key. -/
def groupNumber (sel : Selector) : Option UInt32 :=
  if sel = .ieee 0 then none else some (Nl80211.fromSelector sel)

namespace Selector

/-- No number of a table under either OUI. -/
def Foreign (types : List UInt8) (sel : Selector) : Prop :=
  ∀ suiteType ∈ types, sel ≠ ieee suiteType ∧ sel ≠ microsoft suiteType

theorem ieee_inj {suiteType number : UInt8} (h : ieee suiteType = ieee number) :
    suiteType = number := congrArg (fun sel : Selector => sel.get 3) h

theorem microsoft_inj {suiteType number : UInt8} (h : microsoft suiteType = microsoft number) :
    suiteType = number := congrArg (fun sel : Selector => sel.get 3) h

theorem ieee_ne_microsoft (suiteType number : UInt8) : ieee suiteType ≠ microsoft number := by
  intro h
  have hsecond : (0x0f : UInt8) = 0x50 := congrArg (fun sel : Selector => sel.get 1) h
  cases hsecond

theorem cases_table {types : List UInt8} {P : Selector → Prop}
    (hother : ∀ sel : Selector, sel.standard = false → P sel)
    (hieee : ∀ suiteType ∉ types, P (ieee suiteType))
    (hmicrosoft : ∀ suiteType ∉ types, P (microsoft suiteType)) (sel : Selector) :
    (∃ suiteType ∈ types, sel = ieee suiteType) ∨ (∃ suiteType ∈ types, sel = microsoft suiteType) ∨
      (P sel ∧ sel.Foreign types) := by
  rcases sel.cases_oui with ⟨suiteType, rfl⟩ | ⟨suiteType, rfl⟩ | hsel
  · by_cases hknown : suiteType ∈ types
    · exact .inl ⟨suiteType, hknown, rfl⟩
    · refine .inr (.inr ⟨hieee suiteType hknown, fun number hnumber => ⟨fun h => ?_, ?_⟩⟩)
      · exact hknown (ieee_inj h ▸ hnumber)
      · exact ieee_ne_microsoft suiteType number
  · by_cases hknown : suiteType ∈ types
    · exact .inr (.inl ⟨suiteType, hknown, rfl⟩)
    · refine .inr (.inr ⟨hmicrosoft suiteType hknown, fun number hnumber => ⟨?_, fun h => ?_⟩⟩)
      · exact (ieee_ne_microsoft number suiteType).symm
      · exact hknown (microsoft_inj h ▸ hnumber)
  · refine .inr (.inr ⟨hother sel hsel, fun number _ => ⟨?_, ?_⟩⟩)
    · rintro rfl
      cases hsel
    · rintro rfl
      cases hsel

theorem ne_of_unknown {types : List UInt8} {suiteType : UInt8} (h : suiteType ∉ types) :
    ∀ n ∈ types.map UInt8.toNat, suiteType.toNat ≠ n := by
  intro n hn heq
  obtain ⟨number, hnumber, rfl⟩ := List.mem_map.mp hn
  exact h (UInt8.toNat_inj.mp heq ▸ hnumber)

theorem cases_cipher (sel : Selector) :
    (∃ suiteType ∈ cipherTypes, sel = ieee suiteType) ∨
      (∃ suiteType ∈ cipherTypes, sel = microsoft suiteType) ∨
      (Cipher.fromSelector sel = .unknown sel ∧ sel.Foreign cipherTypes) := by
  have hread : ∀ suiteType ∉ cipherTypes, ∀ oui : UInt8 → Selector,
      (∀ suiteType, (oui suiteType).get 3 = suiteType) →
      Cipher.fromSelector (oui suiteType) = .unknown (oui suiteType) := by
    intro suiteType hunknown oui hget
    have hne := ne_of_unknown hunknown
    unfold Cipher.fromSelector
    rw [hget]
    split_ifs
    · rfl
    · split <;> first | rfl | (rename_i heq; exact absurd heq (hne _ (by decide)))
  exact cases_table (P := fun sel => Cipher.fromSelector sel = .unknown sel)
    (fun sel hsel => if_pos (by rw [hsel]; rfl))
    (fun suiteType h => hread suiteType h ieee fun _ => rfl)
    (fun suiteType h => hread suiteType h microsoft fun _ => rfl) sel

theorem cases_akm (sel : Selector) :
    (∃ suiteType ∈ akmTypes, sel = ieee suiteType) ∨
      (∃ suiteType ∈ akmTypes, sel = microsoft suiteType) ∨
      (Akm.fromSelector sel = .unknown sel ∧ sel.Foreign akmTypes) := by
  have hread : ∀ suiteType ∉ akmTypes, ∀ oui : UInt8 → Selector,
      (∀ suiteType, (oui suiteType).get 3 = suiteType) →
      Akm.fromSelector (oui suiteType) = .unknown (oui suiteType) := by
    intro suiteType hunknown oui hget
    have hne := ne_of_unknown hunknown
    unfold Akm.fromSelector
    rw [hget]
    split_ifs
    · rfl
    · split <;> first | rfl | (rename_i heq; exact absurd heq (hne _ (by decide)))
  exact cases_table (P := fun sel => Akm.fromSelector sel = .unknown sel)
    (fun sel hsel => if_pos (by rw [hsel]; rfl))
    (fun suiteType h => hread suiteType h ieee fun _ => rfl)
    (fun suiteType h => hread suiteType h microsoft fun _ => rfl) sel

theorem ofCipher_unknown (sel : Selector) : ofCipher (.unknown sel) = sel := by
  apply List.Vector.toList_injective
  exact Nl80211.toBE_fromSelector sel

/-- **A group selector is written as it was read, and asked for**, exactly where it is kept. -/
theorem ofCipher_fromSelector_iff (sel : Selector) :
    (ofCipher (Cipher.fromSelector sel) = sel ∧
      Nl80211.cipherSuite (Cipher.fromSelector sel) = groupNumber sel) ↔ GroupKept sel := by
  unfold GroupKept groupNumber
  rcases sel.cases_cipher with ⟨suiteType, hknown, rfl⟩ | ⟨suiteType, hknown, rfl⟩ | ⟨hunread, hsel⟩
  · revert suiteType
    decide +kernel
  · revert suiteType
    decide +kernel
  · rw [hunread, if_neg (hsel 0 (by decide)).1]
    exact iff_of_true ⟨ofCipher_unknown sel, rfl⟩ fun suiteType h => (hsel suiteType h).2

end Selector

/-! ## What the choices fall on -/

/-- The number of a suite caw can ask for. -/
def Cipher.suiteType (cipher : Cipher) : UInt8 := (Selector.ofCipher cipher).get ⟨3, Nat.lt_add_one 3⟩

/-- The number of an AKM caw can ask for. -/
def Akm.suiteType (akm : Akm) : UInt8 := (Selector.ofAkm akm).get ⟨3, Nat.lt_add_one 3⟩

/-- **A cipher caw asks for is read under both OUIs.** -/
theorem fromSelector_pairwise_iff {cipher : Cipher} (hcipher : cipher ∈ Policy.pairwisePreference)
    (sel : Selector) : Cipher.fromSelector sel = cipher ↔
      sel = .ieee cipher.suiteType ∨ sel = .microsoft cipher.suiteType := by
  rcases sel.cases_cipher with ⟨suiteType, hknown, rfl⟩ | ⟨suiteType, hknown, rfl⟩ | ⟨hunread, hsel⟩
  · revert cipher suiteType
    decide +kernel
  · revert cipher suiteType
    decide +kernel
  · rw [hunread]
    have htype : cipher.suiteType ∈ cipherTypes := by
      revert cipher
      decide +kernel
    refine iff_of_false ?_ (not_or.mpr (hsel _ htype))
    rintro rfl
    revert hcipher
    simp [Policy.pairwisePreference]

/-- **And so is an AKM.** -/
theorem fromSelector_akm_iff {akm : Akm} (hakm : akm ∈ Policy.akmPreference) (sel : Selector) :
    Akm.fromSelector sel = akm ↔ sel = .ieee akm.suiteType ∨ sel = .microsoft akm.suiteType := by
  rcases sel.cases_akm with ⟨suiteType, hknown, rfl⟩ | ⟨suiteType, hknown, rfl⟩ | ⟨hunread, hsel⟩
  · revert akm suiteType
    decide +kernel
  · revert akm suiteType
    decide +kernel
  · rw [hunread]
    have htype : akm.suiteType ∈ akmTypes := by
      revert akm
      decide +kernel
    refine iff_of_false ?_ (not_or.mpr (hsel _ htype))
    rintro rfl
    revert hakm
    simp [Policy.akmPreference]

/-! ## The element and the request -/

/-- The station's element and its request name suites of the access point's element: its group selector,
and one of its pairwise and one of its AKM selectors, octet for octet. The defaults of 802.11 stand for
the fields its element ends before. -/
structure NamesOffered (ap own : RsnFields) (request : AssocRequest) : Prop where
  group : own.group = some (ap.group.getD (.ieee 4)) ∧
    request.groupCipher = groupNumber (ap.group.getD (.ieee 4))
  pairwise : ∃ sel ∈ ap.pairwise.getD [.ieee 4], own.pairwise = some [sel] ∧
    request.pairwiseCiphers = [Nl80211.fromSelector sel]
  akm : ∃ sel ∈ ap.akm.getD [.ieee 1], own.akm = some [sel] ∧
    request.akms = [Nl80211.fromSelector sel]

/-- The AKMs a build can run with a credential, strongest first. -/
def usable (enterprise : Bool) (credential : Option Credential) : List Akm :=
  Policy.akmPreference.filter fun akm =>
    Policy.satisfies akm credential && Policy.runnable enterprise akm

/-- The group selector is one the tables give back, and the suites that will be chosen are on offer under
the IEEE OUI. -/
structure SuitesKept (enterprise : Bool) (credential : Option Credential) (ap : RsnFields) : Prop where
  group : GroupKept (ap.group.getD (.ieee 4))
  pairwise : FirstIsIeee (ap.pairwise.getD [.ieee 4]) (Policy.pairwisePreference.map Cipher.suiteType)
  akm : FirstIsIeee (ap.akm.getD [.ieee 1]) ((usable enterprise credential).map Akm.suiteType)

theorem ofCipher_pairwise {cipher : Cipher} (h : cipher ∈ Policy.pairwisePreference) :
    Selector.ofCipher cipher = .ieee cipher.suiteType ∧
      (Nl80211.cipherSuite cipher).isSome = true := by
  revert cipher
  decide +kernel

theorem ofAkm_preferred {akm : Akm} (h : akm ∈ Policy.akmPreference) :
    Selector.ofAkm akm = .ieee akm.suiteType := by
  revert akm
  decide +kernel

theorem map_getD {α : Type} (decode : Selector → α) (l : Option (List Selector)) (sel : Selector) :
    (l.map fun l => l.map decode).getD [decode sel] = (l.getD [sel]).map decode := by
  cases l <;> rfl

section Named

variable {S : Platform} {element payload : Bytes} {ie : RsnIe} {credential : Option Credential}
  {n : Negotiated}

/-- The pairwise suite chosen is on offer under the IEEE OUI exactly where the first on offer is. -/
theorem pairwise_listed_iff (hpayload : payloadOf eidRsn element = some payload)
    (hparse : RsnIe.parse element = .ok ie)
    (hn : negotiate S.enterprise ie credential = .ok n) :
    Selector.ofCipher n.pairwise ∈ (rsnFields payload).pairwise.getD [.ieee 4] ↔
      FirstIsIeee ((rsnFields payload).pairwise.getD [.ieee 4])
        (Policy.pairwisePreference.map Cipher.suiteType) := by
  obtain ⟨-, hpairwise, -⟩ := Connection.negotiate_eq_ok hn
  have hmem := Policy.choosePairwise_mem hpairwise
  obtain ⟨-, hfields, -⟩ := parse_fields hpayload hparse (List.ne_nil_of_mem hmem)
  have hread : ie.pairwiseCiphers =
      ((rsnFields payload).pairwise.getD [.ieee 4]).map Cipher.fromSelector := by
    rw [hfields]
    exact map_getD Cipher.fromSelector _ (.ieee 4)
  rw [Policy.choosePairwise, hread] at hpairwise
  rw [(ofCipher_pairwise (List.mem_of_find?_eq_some hpairwise)).1]
  exact mem_ieee_iff (fun cipher h sel => fromSelector_pairwise_iff h sel) hpairwise

theorem akm_listed_iff (hpayload : payloadOf eidRsn element = some payload)
    (hparse : RsnIe.parse element = .ok ie)
    (hn : negotiate S.enterprise ie credential = .ok n) :
    Selector.ofAkm n.akm ∈ (rsnFields payload).akm.getD [.ieee 1] ↔
      FirstIsIeee ((rsnFields payload).akm.getD [.ieee 1])
        ((usable S.enterprise credential).map Akm.suiteType) := by
  obtain ⟨hakm, hpairwise, -⟩ := Connection.negotiate_eq_ok hn
  have hmem := Policy.choosePairwise_mem hpairwise
  obtain ⟨-, -, hfields⟩ := parse_fields hpayload hparse (List.ne_nil_of_mem hmem)
  have hread : ie.akms = ((rsnFields payload).akm.getD [.ieee 1]).map Akm.fromSelector := by
    rw [hfields]
    exact map_getD Akm.fromSelector _ (.ieee 1)
  have hchosen : ((usable S.enterprise credential).find? fun akm =>
      (((rsnFields payload).akm.getD [.ieee 1]).map Akm.fromSelector).contains akm) = some n.akm := by
    rw [usable, List.find?_filter, ← hakm, Policy.chooseAkm, hread]
    congr 1
    funext akm
    rw [Bool.decide_and, Bool.decide_eq_true, Bool.decide_eq_true, Bool.and_comm, Bool.and_assoc]
  have hpreferred : ∀ akm ∈ usable S.enterprise credential, akm ∈ Policy.akmPreference :=
    fun akm h => (List.mem_filter.mp h).1
  rw [ofAkm_preferred (hpreferred _ (List.mem_of_find?_eq_some hchosen))]
  exact mem_ieee_iff (fun akm h sel => fromSelector_akm_iff (hpreferred akm h) sel) hchosen

/-- The RSN element of a session, before it is written. -/
def stationRsn (session : Session S) (n : Negotiated) : StationRsn where
  group := n.group
  pairwise := n.pairwise
  akm := n.akm
  mfpCapable := n.mfpCapable
  mfpRequired := n.mfpRequired
  pmkid := session.pmkid
  groupMgmt := if n.mfpCapable then n.groupMgmt else none

theorem next_encode (s : StationRsn) (rest : Bytes) : Ies.next (s.encode ++ rest) =
    some (⟨eidRsn, s.payload, eidRsn :: UInt8.ofNat s.payload.length :: s.payload⟩, rest) := by
  have hlen : s.payload.length < 256 := by
    have hbound := s.length_encode_le
    rw [StationRsn.encode, List.length_append] at hbound
    omega
  have hval : (UInt8.ofNat s.payload.length).toNat = s.payload.length := by
    rw [UInt8.toNat_ofNat', Nat.mod_eq_of_lt hlen]
  exact Ies.next_append hval.symm rest

/-- **What is asked for**: the session's element first among the request's, and the kernel's numbers of
the suites negotiated. -/
theorem assocRequest_suites {session : Session S} (hrsn : session.choice.rsn = some n)
    (ifindex : UInt32) (ssid : Bytes) :
    (∃ rest, (Connection.assocRequest ifindex ssid session).ies = (stationRsn session n).encode ++ rest) ∧
      (Connection.assocRequest ifindex ssid session).groupCipher = Nl80211.cipherSuite n.group ∧
      (Connection.assocRequest ifindex ssid session).pairwiseCiphers =
        (Nl80211.cipherSuite n.pairwise).toList ∧
      (Connection.assocRequest ifindex ssid session).akms = [Nl80211.akmSuite n.akm] := by
  unfold Connection.assocRequest
  rw [hrsn]
  exact ⟨⟨_, rfl⟩, rfl, rfl, rfl⟩

theorem own_of_next {session : Session S} (hrsn : session.choice.rsn = some n) {ifindex : UInt32}
    {ssid : Bytes} {own : Element} {rest : Bytes}
    (h : Ies.next (Connection.assocRequest ifindex ssid session).ies = some (own, rest)) :
    own.payload = (stationRsn session n).payload := by
  obtain ⟨⟨rest', hies⟩, -⟩ := assocRequest_suites hrsn ifindex ssid
  rw [hies, next_encode] at h
  cases h
  rfl

theorem namesOffered_iff (hpayload : payloadOf eidRsn element = some payload)
    (hparse : RsnIe.parse element = .ok ie) (hn : negotiate S.enterprise ie credential = .ok n)
    {session : Session S} (hrsn : session.choice.rsn = some n) (ifindex : UInt32) (ssid : Bytes) :
    NamesOffered (rsnFields payload) (rsnFields (stationRsn session n).payload)
      (Connection.assocRequest ifindex ssid session) ↔
      SuitesKept S.enterprise credential (rsnFields payload) := by
  obtain ⟨-, hgroup, hpairwise, hakms⟩ := assocRequest_suites hrsn ifindex ssid
  have hchosen := Connection.negotiate_eq_ok hn
  obtain ⟨hread, -, -⟩ := parse_fields hpayload hparse
    (List.ne_nil_of_mem (Policy.choosePairwise_mem hchosen.2.1))
  have hcipher : n.group = Cipher.fromSelector ((rsnFields payload).group.getD (.ieee 4)) := by
    rw [hchosen.2.2.1, hread]
    cases (rsnFields payload).group <;> rfl
  have hlisted := pairwise_listed_iff hpayload hparse hn
  have hakm := akm_listed_iff hpayload hparse hn
  have hnumber : (Nl80211.cipherSuite n.pairwise).toList =
      [Nl80211.fromSelector (.ofCipher n.pairwise)] := by
    obtain ⟨number, hsome⟩ := Option.isSome_iff_exists.mp
      (ofCipher_pairwise (List.mem_of_find?_eq_some hchosen.2.1)).2
    rw [Selector.fromSelector_ofCipher hsome, hsome]
    rfl
  rw [rsnFields_payload (stationRsn session n)]
  constructor
  · intro hnames
    refine ⟨?_, hlisted.mp ?_, hakm.mp ?_⟩
    · rw [← Selector.ofCipher_fromSelector_iff, ← hcipher, ← hgroup]
      exact ⟨Option.some.inj hnames.group.1, hnames.group.2⟩
    · obtain ⟨sel, hsel, hsame, -⟩ := hnames.pairwise
      cases hsame
      exact hsel
    · obtain ⟨sel, hsel, hsame, -⟩ := hnames.akm
      cases hsame
      exact hsel
  · intro hkept
    obtain ⟨hsame, hasked⟩ := (Selector.ofCipher_fromSelector_iff _).mpr hkept.group
    rw [← hcipher] at hsame hasked
    refine ⟨⟨congrArg some hsame, hgroup.trans hasked⟩, ⟨_, hlisted.mpr hkept.pairwise, rfl, ?_⟩,
      ⟨_, hakm.mpr hkept.akm, rfl, ?_⟩⟩
    · rw [hpairwise, hnumber]
    · rw [hakms, Selector.fromSelector_ofAkm]

/-- **The suites named are suites on offer** exactly where the tables give back the access point's group
selector, and the suites to be chosen are on offer under the IEEE OUI. -/
theorem names_offered_iff (hpayload : payloadOf eidRsn element = some payload)
    (hparse : RsnIe.parse element = .ok ie) (hn : negotiate S.enterprise ie credential = .ok n)
    (session : Session S) (hrsn : session.choice.rsn = some n) (ifindex : UInt32) (ssid : Bytes) :
    (∃ own rest, Ies.next (Connection.assocRequest ifindex ssid session).ies = some (own, rest) ∧
      own.id = eidRsn ∧ NamesOffered (rsnFields payload) (rsnFields own.payload)
        (Connection.assocRequest ifindex ssid session)) ↔
      SuitesKept S.enterprise credential (rsnFields payload) := by
  rw [← namesOffered_iff hpayload hparse hn hrsn ifindex ssid]
  constructor
  · rintro ⟨own, rest, hnext, -, hnames⟩
    rwa [own_of_next hrsn hnext] at hnames
  · intro hnames
    obtain ⟨⟨rest, hies⟩, -⟩ := assocRequest_suites hrsn ifindex ssid
    exact ⟨_, rest, by rw [hies, next_encode], rfl, hnames⟩

end Named

/-! ### Two access points -/

namespace Connection

/-- A session with the suites of the mixed network. -/
def sampleMixedSession : Session .sample :=
  newSession
    { bssid := .zero 6, freqMhz := 2412, signalDbm := -50, advertised := .wpa3Enterprise
      negotiated := .wpa2Personal
      rsn := (((RsnIe.parse sampleMixedIe).toOption).bind fun ie =>
        (negotiate false ie (some (.passphrase "password"))).toOption)
      roaming := false } .open

theorem names_offered_sample : ∃ own rest,
    Ies.next (assocRequest 3 [110] sampleMixedSession).ies = some (own, rest) ∧ own.id = eidRsn ∧
      NamesOffered (rsnFields (sampleMixedIe.drop 2)) (rsnFields own.payload)
        (assocRequest 3 [110] sampleMixedSession) := by
  obtain ⟨ie, n, hparse, hn, hrsn⟩ : ∃ ie n, RsnIe.parse sampleMixedIe = .ok ie ∧
      negotiate Platform.sample.enterprise ie (some (.passphrase "password")) = .ok n ∧
      sampleMixedSession.choice.rsn = some n := ⟨_, _, rfl, rfl, rfl⟩
  exact (names_offered_iff rfl hparse hn sampleMixedSession hrsn 3 [110]).mpr
    ⟨by unfold GroupKept; decide +kernel, by decide +kernel, by decide +kernel⟩

/-- CCMP and PSK, and TKIP under the Microsoft OUI for the group. -/
def sampleWpaGroupIe : Bytes :=
  [48, 20, 1, 0, 0x00, 0x50, 0xf2, 2, 1, 0, 0x00, 0x0f, 0xac, 4, 1, 0, 0x00, 0x0f, 0xac, 2, 0, 0]

/-- The group selector the station sends is not the one the access point sent. -/
theorem relabelled_group : ∃ ie n, RsnIe.parse sampleWpaGroupIe = .ok ie ∧
    negotiate Platform.sample.enterprise ie (some (.passphrase "password")) = .ok n ∧
    ∀ session : Session .sample, session.choice.rsn = some n → ∀ ifindex ssid,
      ¬∃ own rest, Ies.next (assocRequest ifindex ssid session).ies = some (own, rest) ∧
        own.id = eidRsn ∧ NamesOffered (rsnFields (sampleWpaGroupIe.drop 2)) (rsnFields own.payload)
          (assocRequest ifindex ssid session) := by
  obtain ⟨ie, n, hparse, hn⟩ : ∃ ie n, RsnIe.parse sampleWpaGroupIe = .ok ie ∧
      negotiate Platform.sample.enterprise ie (some (.passphrase "password")) = .ok n :=
    ⟨_, _, rfl, rfl⟩
  have hpayload : payloadOf eidRsn sampleWpaGroupIe = some (sampleWpaGroupIe.drop 2) := rfl
  refine ⟨ie, n, hparse, hn, fun session hrsn ifindex ssid => ?_⟩
  rintro ⟨own, rest, hnext, -, hnames⟩
  rw [own_of_next hrsn hnext, namesOffered_iff hpayload hparse hn hrsn] at hnames
  exact hnames.group 2 (by decide) (by decide +kernel)

end Connection

end Caw
