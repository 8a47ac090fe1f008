import Caw.Core.Rsn
import Caw.Dot11.Reading

/-!
# The station's element, read back

The element the station builds passes through two tables of suites and back through a third.

* `Cipher.Parsed`, `Akm.Parsed`: the suites that come out of an element;
* `cipherOf_cipherSelector`, `akmOf_akmSelector`: they go back into one as they came;
* **`StationRsn.encode_reread`**: the station's element is read back field by field, whatever follows it.
-/

set_option autoImplicit false

namespace Caw

open Dot11

/-- A cipher that some selector stands for. -/
def Cipher.Parsed (c : Cipher) : Prop := ∃ sel, Cipher.fromSelector sel = c

/-- An AKM that some selector stands for. -/
def Akm.Parsed (a : Akm) : Prop := ∃ sel, Akm.fromSelector sel = a

theorem Cipher.fromSelector_unknown {sel : Selector} (h : (Cipher.unknown sel).Parsed) :
    Cipher.fromSelector sel = .unknown sel := by
  obtain ⟨sel', hsel⟩ := h
  have hself : sel' = sel := by
    unfold Cipher.fromSelector at hsel
    split_ifs at hsel
    · cases hsel
      rfl
    · split at hsel <;> cases hsel
      rfl
  rwa [hself] at hsel

theorem Akm.fromSelector_unknown {sel : Selector} (h : (Akm.unknown sel).Parsed) :
    Akm.fromSelector sel = .unknown sel := by
  obtain ⟨sel', hsel⟩ := h
  have hself : sel' = sel := by
    unfold Akm.fromSelector at hsel
    split_ifs at hsel
    · cases hsel
      rfl
    · split at hsel <;> cases hsel
      rfl
  rwa [hself] at hsel

theorem length_cipherSelector (c : Cipher) : (cipherSelector c).length = 4 := Bytes.length_toBE 4 _

theorem length_akmSelector (a : Akm) : (akmSelector a).length = 4 := Bytes.length_toBE 4 _

/-- **A cipher goes back as it came.** -/
theorem cipherOf_cipherSelector {c : Cipher} (h : c.Parsed) :
    RsnIe.cipherOf (cipherSelector c) = c := by
  cases c with
  | unknown sel =>
    rw [RsnIe.cipherOf, cipherSelector, Nl80211.cipherSuite, Option.getD_some,
      Nl80211.toBE_fromSelector, Bytes.slice_zero_toList]
    exact Cipher.fromSelector_unknown h
  | _ => decide

/-- **And so does an AKM.** -/
theorem akmOf_akmSelector {a : Akm} (h : a.Parsed) : RsnIe.akmOf (akmSelector a) = a := by
  cases a with
  | unknown sel =>
    rw [RsnIe.akmOf, akmSelector, Nl80211.akmSuite, Nl80211.toBE_fromSelector,
      Bytes.slice_zero_toList]
    exact Akm.fromSelector_unknown h
  | _ => decide

namespace StationRsn

/-- The suites of the element are ones that come out of an element. -/
structure Parsed (s : StationRsn) : Prop where
  group : s.group.Parsed
  pairwise : s.pairwise.Parsed
  akm : s.akm.Parsed
  groupMgmt : ∀ c, s.groupMgmt = some c → c.Parsed

variable (s : StationRsn)

theorem drop_payload : s.payload.drop 2 = cipherSelector s.group ++ (Bytes.toLE 2 1 ++
    (cipherSelector s.pairwise ++ (Bytes.toLE 2 1 ++ (akmSelector s.akm ++
      (Bytes.toLE 2 s.capabilities ++ s.tail))))) := by
  simp only [payload, List.append_assoc]
  exact List.drop_left' (Bytes.length_toLE 2 1)

theorem walkGroupMgmt_append (pmkids : Bytes) {count : ℕ} (hcount : pmkids.length = count * 16)
    (h : ∀ c, s.groupMgmt = some c → c.Parsed) :
    RsnIe.walkGroupMgmt count (pmkids ++ (s.groupMgmt.map cipherSelector).getD []) = s.groupMgmt := by
  rw [RsnIe.walkGroupMgmt, Fields.stay_append _ _ hcount]
  cases hmgmt : s.groupMgmt with
  | none => rfl
  | some c =>
    have hselector : Fields.stay 4 (fun c => some (RsnIe.cipherOf c)) none (cipherSelector c ++ []) =
        (some (RsnIe.cipherOf (cipherSelector c)), []) :=
      Fields.stay_append (cipherSelector c) [] (length_cipherSelector c)
    rw [List.append_nil] at hselector
    simp only [if_true, Option.map_some, Option.getD_some]
    rw [hselector, cipherOf_cipherSelector (h c hmgmt)]

theorem walkGroupMgmt_tail (h : ∀ c, s.groupMgmt = some c → c.Parsed) :
    RsnIe.walkGroupMgmt (Fields.stay 2 Bytes.ofLE 0 s.tail).1
      (Fields.stay 2 Bytes.ofLE 0 s.tail).2 = s.groupMgmt := by
  by_cases htail : s.pmkid.isSome ∨ s.groupMgmt.isSome
  · have hcount (n : ℕ) (hn : n < 256) : Bytes.ofLE (Bytes.toLE 2 n) = n := by
      rw [Bytes.ofLE_toLE]
      exact Nat.mod_eq_of_lt (by omega)
    rw [tail, if_pos htail, List.append_assoc, Fields.stay_append _ _ (Bytes.length_toLE 2 _)]
    cases hpmkid : s.pmkid with
    | none =>
      rw [hcount _ (by decide)]
      exact s.walkGroupMgmt_append [] rfl h
    | some pmkid =>
      rw [show (if (some pmkid).isSome = true then 1 else 0) = 1 from rfl, hcount 1 (by decide)]
      exact s.walkGroupMgmt_append pmkid.toList pmkid.toList_length h
  · have hmgmt : s.groupMgmt = none := by
      rw [not_or, Option.not_isSome_iff_eq_none] at htail
      simpa using htail.2
    rw [tail, if_neg htail, hmgmt]
    rfl

theorem length_payload_lt : s.payload.length < 256 := by
  have hle := s.length_encode_le
  rw [encode, List.length_append] at hle
  omega

/-- **The capabilities say what they were built from.** -/
theorem capabilities_flags :
    numberOf (Bytes.toLE 2 s.capabilities) = UInt16.ofNat s.capabilities ∧
      decide (UInt16.ofNat s.capabilities &&& rsnCapMfpc ≠ 0) = s.mfpCapable ∧
      decide (UInt16.ofNat s.capabilities &&& rsnCapMfpr ≠ 0) = s.mfpRequired := by
  unfold capabilities
  cases s.mfpCapable <;> cases s.mfpRequired <;> decide

/-- What the element is read as. -/
def reread (s : StationRsn) : RsnIe where
  version := 1
  groupCipher := s.group
  pairwiseCiphers := [s.pairwise]
  akms := [s.akm]
  capabilities := UInt16.ofNat s.capabilities
  mfpCapable := s.mfpCapable
  mfpRequired := s.mfpRequired
  groupMgmtCipher := s.groupMgmt
  raw := s.encode

variable {s}

theorem walkGroup_payload (h : s.Parsed) : RsnIe.walkGroup s.payload = (s.group,
    Bytes.toLE 2 1 ++ (cipherSelector s.pairwise ++ (Bytes.toLE 2 1 ++ (akmSelector s.akm ++
      (Bytes.toLE 2 s.capabilities ++ s.tail))))) := by
  rw [RsnIe.walkGroup, drop_payload, Fields.stay_append _ _ (length_cipherSelector _),
    cipherOf_cipherSelector h.group]

theorem walkPairwise_payload (h : s.Parsed) : RsnIe.walkPairwise s.payload = ([s.pairwise],
    Bytes.toLE 2 1 ++ (akmSelector s.akm ++ (Bytes.toLE 2 s.capabilities ++ s.tail))) := by
  rw [RsnIe.walkPairwise, walkGroup_payload h, Fields.stayList_singleton (by decide) _ _ _
    (Bytes.length_toLE 2 1) (length_cipherSelector _) rfl, cipherOf_cipherSelector h.pairwise]

theorem walkAkms_payload (h : s.Parsed) : RsnIe.walkAkms s.payload = ([s.akm],
    Bytes.toLE 2 s.capabilities ++ s.tail) := by
  rw [RsnIe.walkAkms, walkPairwise_payload h, Fields.stayList_singleton (by decide) _ _ _
    (Bytes.length_toLE 2 1) (length_akmSelector _) rfl, akmOf_akmSelector h.akm]

/-- **Every field is where the cursor looks for it.** -/
theorem walked_payload (h : s.Parsed) : RsnIe.walked s.encode s.payload = s.reread := by
  obtain ⟨hcaps, hcapable, hrequired⟩ := s.capabilities_flags
  rw [RsnIe.walked, walkGroup_payload h, walkPairwise_payload h, walkAkms_payload h,
    Fields.stay_append _ _ (Bytes.length_toLE 2 _)]
  dsimp only
  rw [s.walkGroupMgmt_tail h.groupMgmt, RsnIe.ofFields, reread, hcaps, hcapable, hrequired]

/-- **The station's element is read back field by field**, whatever follows it, and its length octet
is exact. -/
theorem encode_reread (h : s.Parsed) (rest : Bytes) :
    RsnIe.parse (s.encode ++ rest) = .ok s.reread ∧
      ∃ len payload, s.encode = eidRsn :: len :: payload ∧ len.toNat = payload.length := by
  have hlen : (UInt8.ofNat s.payload.length).toNat = s.payload.length := by
    rw [UInt8.toNat_ofNat']
    exact Nat.mod_eq_of_lt s.length_payload_lt
  have hfits : (UInt8.ofNat s.payload.length).toNat ≤ (s.payload ++ rest).length := by
    rw [hlen, List.length_append]
    omega
  have hpayload : payloadOf Dot11.eidRsn (s.encode ++ rest) = some s.payload := by
    change (if _ ∧ _ then some ((s.payload ++ rest).take _) else none) = _
    rw [if_pos ⟨rfl, hfits⟩, hlen, List.take_left' rfl]
  have hraw : (s.encode ++ rest).take (2 + s.payload.length) = s.encode := by
    refine List.take_left' ?_
    rw [encode, List.length_append]
    rfl
  refine ⟨?_, _, _, rfl, hlen⟩
  rw [rsnIe_parse_eq hpayload rfl, hraw, walked_payload h]

/-- An SAE association with management frame protection, its RSNXE behind it. -/
def sampleSae : StationRsn where
  group := .ccmp128
  pairwise := .ccmp128
  akm := .sae
  mfpCapable := true
  mfpRequired := true
  pmkid := some (.replicate 16 0xab)
  groupMgmt := some .bipCmac128

theorem encode_reread_sae :
    RsnIe.parse (sampleSae.encode ++ [244, 1, 32]) = .ok sampleSae.reread := by
  have hccmp : Cipher.ccmp128.Parsed := ⟨⟨[0x00, 0x0f, 0xac, 4], rfl⟩, rfl⟩
  have hbip : Cipher.bipCmac128.Parsed := ⟨⟨[0x00, 0x0f, 0xac, 6], rfl⟩, rfl⟩
  have hsae : Akm.sae.Parsed := ⟨⟨[0x00, 0x0f, 0xac, 8], rfl⟩, rfl⟩
  refine (encode_reread (s := sampleSae) ⟨hccmp, hccmp, hsae, fun c hc => ?_⟩ [244, 1, 32]).1
  cases hc
  exact hbip

end StationRsn

end Caw
