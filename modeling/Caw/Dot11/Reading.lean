import Caw.Dot11.Elements
import Caw.Lib.Fields

/-!
# The fields of an RSN element

The reading of an RSN element that 802.11 asks for, and the one caw's cursor gives. They part where a
field is cut short and the cursor takes what is left of it for the next one.

* `RsnIe.reading`: the fields in their order; the first that does not fit ends the reading, and the rest
  have their defaults;
* `RsnIe.walked`, **`parseBody_eq`**: the reading of the cursor, as the code gives it;
* `RsnIe.Clean`: no field that is cut short leaves anything that reads as another;
* **`rsnIe_parse_iff`**: the code reads an element as it should exactly where it is clean;
* `rsn_reading_fails`: an element that ends inside of its group cipher.
-/

set_option autoImplicit false

namespace Caw

open Dot11

/-! ## The cursor as it reads -/

namespace RsnIe

/-- The cipher a selector stands for. -/
def cipherOf (c : Bytes) : Cipher := Cipher.fromSelector (Bytes.slice 0 4 c)

/-- The AKM four octets stand for. -/
def akmOf (c : Bytes) : Akm := Akm.fromSelector (Bytes.slice 0 4 c)

end RsnIe

/-- The number in two octets. -/
def numberOf (c : Bytes) : UInt16 := UInt16.ofNat (Bytes.ofLE c)

theorem numberOf_toNat {c : Bytes} (h : c.length = 2) : (numberOf c).toNat = Bytes.ofLE c := by
  have hlt := Bytes.ofBE_lt c.reverse
  rw [List.length_reverse, h] at hlt
  rw [numberOf, UInt16.toNat_ofNat']
  exact Nat.mod_eq_of_lt hlt

section Cursor

variable {α : Type} (b : Bytes)

theorem u16le_stay :
    (Cursor.u16le b).1.getD 0 = (Fields.stay 2 numberOf 0 b).1 ∧
      (Cursor.u16le b).2 = (Fields.stay 2 numberOf 0 b).2 := by
  rw [Cursor.u16le, Cursor.take, Fields.stay]
  split_ifs <;> exact ⟨rfl, rfl⟩

theorem selector_stay :
    ((Cursor.selector b).1.map Cipher.fromSelector).getD .ccmp128 =
        (Fields.stay 4 RsnIe.cipherOf .ccmp128 b).1 ∧
      (Cursor.selector b).2 = (Fields.stay 4 RsnIe.cipherOf .ccmp128 b).2 := by
  rw [Cursor.selector, Cursor.take, Fields.stay]
  split_ifs <;> exact ⟨rfl, rfl⟩

theorem selectors_eq (count : ℕ) : Cursor.selectors count b =
    (Fields.items 4 (Bytes.slice 0 4) (Fields.whole 4 count b) b,
      b.drop (4 * Fields.whole 4 count b)) := by
  induction count generalizing b with
  | zero => rw [Cursor.selectors, Fields.whole, Nat.zero_min, Fields.items, Nat.mul_zero, List.drop_zero]
  | succ count ih =>
    by_cases hlt : b.length < 4
    · have hnone : Fields.whole 4 (count + 1) b = 0 := by
        rw [Fields.whole]
        omega
      rw [Cursor.selectors, Cursor.selector, Cursor.take, if_pos hlt, hnone]
      rfl
    · have hone : Fields.whole 4 (count + 1) b = Fields.whole 4 count (b.drop 4) + 1 := by
        rw [Fields.whole, Fields.whole, List.length_drop]
        omega
      rw [Cursor.selectors, Cursor.selector, Cursor.take, if_neg hlt, hone, Fields.items]
      dsimp only [Option.map_some]
      rw [ih, List.drop_drop, Nat.mul_add, Nat.mul_one, Nat.add_comm]

theorem items_map {f : Selector → α} {g : Bytes → α} (hg : ∀ c, f (Bytes.slice 0 4 c) = g c) (k : ℕ) :
    (Fields.items 4 (Bytes.slice 0 4) k b).map f = Fields.items 4 g k b := by
  induction k generalizing b with
  | zero => rfl
  | succ k ih => rw [Fields.items, Fields.items, List.map_cons, ih, hg]

theorem suiteList_stay {f : Selector → α} {g : Bytes → α} (hg : ∀ c, f (Bytes.slice 0 4 c) = g c)
    (dflts : List α) :
    ((Cursor.suiteList b).1.map fun l => l.map f).getD dflts =
        (Fields.stayList 2 4 Bytes.ofLE g dflts b).1 ∧
      (Cursor.suiteList b).2 =
        (Fields.stayList 2 4 Bytes.ofLE g dflts b).2 := by
  rw [Cursor.suiteList, Cursor.u16le, Cursor.take, Fields.stayList]
  by_cases hlt : b.length < 2
  · rw [if_pos hlt, if_pos hlt]
    exact ⟨rfl, rfl⟩
  · rw [if_neg hlt, if_neg hlt]
    have hlen : (b.take 2).length = 2 := by
      rw [List.length_take]
      omega
    dsimp only [Option.map_some, Option.getD_some]
    rw [selectors_eq, items_map _ hg,
      show UInt16.ofNat (Bytes.ofLE (b.take 2)) = numberOf (b.take 2) from rfl, numberOf_toNat hlen]
    exact ⟨rfl, rfl⟩

end Cursor

/-! ## Two readings -/

namespace RsnIe

/-- An element of version 1, from its fields. -/
def ofFields (raw : Bytes) (group : Cipher) (pairwise : List Cipher) (akms : List Akm) (caps : UInt16)
    (groupMgmt : Option Cipher) : RsnIe where
  version := 1
  groupCipher := group
  pairwiseCiphers := pairwise
  akms := akms
  capabilities := caps
  mfpCapable := caps &&& rsnCapMfpc ≠ 0
  mfpRequired := caps &&& rsnCapMfpr ≠ 0
  groupMgmtCipher := groupMgmt
  raw := raw

/-- The group management cipher behind `count` PMKIDs. -/
def readGroupMgmt (count : ℕ) (r : Option Bytes) : Option Cipher :=
  (Fields.field 4 (fun c => some (cipherOf c)) none
    (Fields.field (count * 16) (fun _ => ()) () r).2).1

/-- The fields behind the version: first the group cipher. -/
def readGroup (body : Bytes) : Cipher × Option Bytes :=
  Fields.field 4 cipherOf .ccmp128 (some (body.drop 2))

/-- The pairwise ciphers, and what follows them. -/
def readPairwise (body : Bytes) : List Cipher × Option Bytes :=
  Fields.list 2 4 Bytes.ofLE cipherOf [.ccmp128] (readGroup body).2

/-- The AKMs, and what follows them. -/
def readAkms (body : Bytes) : List Akm × Option Bytes :=
  Fields.list 2 4 Bytes.ofLE akmOf [.dot1x] (readPairwise body).2

/-- **The reading of the format.** -/
def reading (raw body : Bytes) : RsnIe :=
  let caps := Fields.field 2 numberOf 0 (readAkms body).2
  let pmkids := Fields.field 2 Bytes.ofLE 0 caps.2
  ofFields raw (readGroup body).1 (readPairwise body).1 (readAkms body).1 caps.1
    (readGroupMgmt pmkids.1 pmkids.2)

/-- The same for the cursor, which reads it only where the PMKIDs are there. -/
def walkGroupMgmt (count : ℕ) (b : Bytes) : Option Cipher :=
  let skipped := Fields.stay (count * 16) (fun _ => true) false b
  if skipped.1 then (Fields.stay 4 (fun c => some (cipherOf c)) none skipped.2).1 else none

/-- The group cipher, and where the cursor is after it. -/
def walkGroup (body : Bytes) : Cipher × Bytes := Fields.stay 4 cipherOf .ccmp128 (body.drop 2)

/-- The pairwise ciphers, and where the cursor is after them. -/
def walkPairwise (body : Bytes) : List Cipher × Bytes :=
  Fields.stayList 2 4 Bytes.ofLE cipherOf [.ccmp128] (walkGroup body).2

/-- The AKMs, and where the cursor is after them. -/
def walkAkms (body : Bytes) : List Akm × Bytes :=
  Fields.stayList 2 4 Bytes.ofLE akmOf [.dot1x] (walkPairwise body).2

/-- The reading of the cursor. -/
def walked (raw body : Bytes) : RsnIe :=
  let caps := Fields.stay 2 numberOf 0 (walkAkms body).2
  let pmkids := Fields.stay 2 Bytes.ofLE 0 caps.2
  ofFields raw (walkGroup body).1 (walkPairwise body).1 (walkAkms body).1 caps.1
    (walkGroupMgmt pmkids.1 pmkids.2)

end RsnIe

section Walked

variable {raw body : Bytes}

theorem drop_version (h : body.take 2 = [1, 0]) :
    Cursor.u16le body = (some 1, body.drop 2) := by
  have hone := (u16le_eq_one body).mpr h
  have hlen : ¬ body.length < 2 := by
    have hlen := congrArg List.length h
    rw [List.length_take] at hlen
    simp only [List.length_cons, List.length_nil] at hlen
    omega
  rw [Prod.ext_iff]
  refine ⟨hone, ?_⟩
  rw [Cursor.u16le, Cursor.take, if_neg hlen]

theorem pmkids_stay (b : Bytes) :
    ((Cursor.u16le b).1.getD 0).toNat = (Fields.stay 2 Bytes.ofLE 0 b).1 ∧
      (Cursor.u16le b).2 = (Fields.stay 2 Bytes.ofLE 0 b).2 := by
  rw [Cursor.u16le, Cursor.take, Fields.stay]
  by_cases hlt : b.length < 2
  · rw [if_pos hlt, if_pos hlt]
    exact ⟨rfl, rfl⟩
  · rw [if_neg hlt, if_neg hlt]
    have hlen : (b.take 2).length = 2 := by
      rw [List.length_take]
      omega
    exact ⟨numberOf_toNat hlen, rfl⟩

theorem groupMgmt_stay (count : ℕ) (b : Bytes) :
    ((Cursor.take (count * 16) b).1.bind fun _ =>
      (Cursor.selector (Cursor.take (count * 16) b).2).1.map Cipher.fromSelector) =
        RsnIe.walkGroupMgmt count b := by
  have hselector (b : Bytes) : (Cursor.selector b).1.map Cipher.fromSelector =
      (Fields.stay 4 (fun c => some (RsnIe.cipherOf c)) none b).1 := by
    rw [Cursor.selector, Cursor.take, Fields.stay]
    split_ifs <;> rfl
  rw [RsnIe.walkGroupMgmt, Cursor.take, Fields.stay]
  by_cases hlt : b.length < count * 16
  · rw [if_pos hlt, if_pos hlt]
    rfl
  · rw [if_neg hlt, if_neg hlt]
    exact hselector _

/-- **The code reads as its cursor walks.** -/
theorem parseBody_eq (h : body.take 2 = [1, 0]) :
    RsnIe.parseBody body = .ok (RsnIe.walked [] body) := by
  obtain ⟨hgroup, hgroup'⟩ := selector_stay (body.drop 2)
  obtain ⟨hpairwise, hpairwise'⟩ := suiteList_stay (g := RsnIe.cipherOf) (RsnIe.walkGroup body).2
    (fun _ => rfl) [.ccmp128]
  obtain ⟨hakms, hakms'⟩ := suiteList_stay (g := RsnIe.akmOf) (RsnIe.walkPairwise body).2
    (fun _ => rfl) [.dot1x]
  rw [← RsnIe.walkGroup] at hgroup hgroup'
  rw [← RsnIe.walkPairwise] at hpairwise hpairwise'
  rw [← RsnIe.walkAkms] at hakms hakms'
  rw [RsnIe.parseBody, drop_version h]
  simp only [ne_eq, not_true_eq_false, if_false]
  rw [hgroup', hgroup, hpairwise, hpairwise', hakms, hakms', (u16le_stay _).1, (u16le_stay _).2,
    (pmkids_stay _).1, (pmkids_stay _).2, groupMgmt_stay]
  rfl

end Walked

/-! ## Where the two agree -/

section Agree

variable {b : Bytes} {r : Option Bytes}

/-- Behind the same place, and behind the end of the reading, the last field reads the same. -/
theorem groupMgmt_eq {count : ℕ} (ht : Fields.Tracks 2 b r) (hcount : r = none → count = 0) :
    RsnIe.walkGroupMgmt count b = RsnIe.readGroupMgmt count r := by
  rw [RsnIe.walkGroupMgmt, RsnIe.readGroupMgmt]
  rcases ht with rfl | ⟨rfl, hshort⟩
  · rw [Fields.stay, Fields.field]
    by_cases hlt : b.length < count * 16
    · rw [if_pos hlt, if_pos hlt]
      rfl
    · rw [if_neg hlt, if_neg hlt]
      exact Fields.stay_fst
  · rw [hcount rfl, Nat.zero_mul, Fields.stay, if_neg (Nat.not_lt_zero _)]
    have hselector : (b.drop 0).length < 4 := by
      rw [List.drop_zero]
      omega
    exact congrArg Prod.fst (Fields.stay_of_lt hselector)

/-- **The fields behind the lists** are read alike. -/
theorem tail_eq (ht : Fields.Tracks 2 b r) :
    (Fields.stay 2 numberOf 0 b).1 = (Fields.field 2 numberOf 0 r).1 ∧
      RsnIe.walkGroupMgmt (Fields.stay 2 Bytes.ofLE 0 (Fields.stay 2 numberOf 0 b).2).1
          (Fields.stay 2 Bytes.ofLE 0 (Fields.stay 2 numberOf 0 b).2).2 =
        RsnIe.readGroupMgmt (Fields.field 2 Bytes.ofLE 0 (Fields.field 2 numberOf 0 r).2).1
          (Fields.field 2 Bytes.ofLE 0 (Fields.field 2 numberOf 0 r).2).2 := by
  have hkeeps {α : Type} {f : Bytes → α} {d : α} {b : Bytes} {r : Option Bytes}
      (ht : Fields.Tracks 2 b r) : Fields.Tracks 2 (Fields.stay 2 f d b).2 (Fields.field 2 f d r).2 := by
    rcases ht with rfl | ⟨rfl, hshort⟩
    · exact Fields.tracks_field_iff.mpr id
    · rw [Fields.stay_of_lt hshort]
      exact Fields.tracks_none.mpr hshort
  have hcaps := hkeeps (f := numberOf) (d := 0) ht
  refine ⟨ht.field le_rfl, ?_⟩
  rw [hcaps.field le_rfl]
  exact groupMgmt_eq (hkeeps hcaps) Fields.field_fst_of_none

/-- Two octets left of a selector are capabilities to the cursor, and nothing else. -/
theorem tail_short (hle : 2 ≤ b.length) (hlt : b.length < 4) :
    (Fields.stay 2 numberOf 0 b).1 = numberOf (b.take 2) ∧
      RsnIe.walkGroupMgmt (Fields.stay 2 Bytes.ofLE 0 (Fields.stay 2 numberOf 0 b).2).1
        (Fields.stay 2 Bytes.ofLE 0 (Fields.stay 2 numberOf 0 b).2).2 = none := by
  have hcaps : Fields.stay 2 numberOf 0 b = (numberOf (b.take 2), b.drop 2) :=
    if_neg (Nat.not_lt.mpr hle)
  have hshort : (b.drop 2).length < 2 := by
    rw [List.length_drop]
    omega
  rw [hcaps, Fields.stay_of_lt hshort,
    groupMgmt_eq (Fields.tracks_none.mpr hshort) fun _ => rfl]
  exact ⟨rfl, rfl⟩

theorem numberOf_eq_zero {c : Bytes} (h : 2 ≤ c.length) :
    numberOf (c.take 2) = 0 ↔ c.take 2 = [0, 0] := by
  obtain ⟨x, y, hc⟩ : ∃ x y, c.take 2 = [x, y] := by
    match c, h with
    | x :: y :: _, _ => exact ⟨x, y, rfl⟩
  have hx := x.toNat_lt
  have hy := y.toNat_lt
  rw [hc, ← UInt16.toNat_inj, numberOf_toNat rfl, UInt16.toNat_zero]
  have hnum : Bytes.ofLE [x, y] = y.toNat * 256 + x.toNat := by simp [Bytes.ofLE, Bytes.ofBE]
  rw [hnum]
  simp only [List.cons.injEq, and_true, ← UInt8.toNat_inj, UInt8.toNat_zero]
  omega

end Agree

namespace RsnIe

/-- The pairwise list, and what is behind it. -/
def pairwiseField (body : Bytes) : Bytes := (body.drop 2).drop 4

/-- The list of AKMs, and what is behind it. -/
def akmField (body : Bytes) : Bytes := Fields.behind 2 4 Bytes.ofLE (pairwiseField body)

/-- **Nothing that is left of a field reads as another.** A group selector that is cut short leaves less
than a count, and so does a pairwise list; a list of AKMs leaves less than capabilities, or none of
them. -/
structure Clean (body : Bytes) : Prop where
  group : (body.drop 2).length < 4 → (body.drop 2).length < 2
  pairwise : Fields.Overruns 2 4 Bytes.ofLE (pairwiseField body) →
    (Fields.leftover 2 4 (pairwiseField body)).length < 2
  akms : Fields.Overruns 2 4 Bytes.ofLE (akmField body) →
    (Fields.leftover 2 4 (akmField body)).length < 2 ∨
      (Fields.leftover 2 4 (akmField body)).take 2 = [0, 0]

theorem length_leftover (b : Bytes) : (Fields.leftover 2 4 b).length < 4 := by
  rw [Fields.leftover, List.length_drop]
  omega

variable {raw body : Bytes}

theorem tracks_group : Fields.Tracks 2 (walkGroup body).2 (readGroup body).2 ↔
    ((body.drop 2).length < 4 → (body.drop 2).length < 2) :=
  Fields.tracks_field_iff

theorem tracks_pairwise (h : Fields.Tracks 2 (walkGroup body).2 (readGroup body).2) :
    Fields.Tracks 2 (walkPairwise body).2 (readPairwise body).2 ↔
      (Fields.Overruns 2 4 Bytes.ofLE (pairwiseField body) →
        (Fields.leftover 2 4 (pairwiseField body)).length < 2) := by
  have hfield : (readGroup body).2.getD [] = pairwiseField body := Fields.getD_field
  rw [← hfield]
  exact h.list_iff rfl (by decide) (by decide)

theorem getD_readPairwise : (readPairwise body).2.getD [] = akmField body := by
  have hfield : (readGroup body).2.getD [] = pairwiseField body := Fields.getD_field
  rw [akmField, ← hfield]
  exact Fields.getD_list

theorem tracks_akms (h : Fields.Tracks 2 (walkPairwise body).2 (readPairwise body).2) :
    Fields.Tracks 2 (walkAkms body).2 (readAkms body).2 ↔
      (Fields.Overruns 2 4 Bytes.ofLE (akmField body) →
        (Fields.leftover 2 4 (akmField body)).length < 2) := by
  rw [← getD_readPairwise]
  exact h.list_iff rfl (by decide) (by decide)

theorem eq_some_of_overruns {b : Bytes} {r : Option Bytes} (ht : Fields.Tracks 2 b r)
    (ho : Fields.Overruns 2 4 Bytes.ofLE (r.getD [])) : r = some b := by
  rcases ht with hsome | ⟨rfl, -⟩
  · exact hsome
  · exact absurd ho (Fields.not_overruns_nil (by decide))

theorem ne_of_group (hlt : (body.drop 2).length < 4) (hle : 2 ≤ (body.drop 2).length) :
    walked raw body ≠ reading raw body := by
  intro heq
  have hstay : walkGroup body = (.ccmp128, body.drop 2) := Fields.stay_of_lt hlt
  have hread : readGroup body = (.ccmp128, none) := if_pos hlt
  have hpairwise : (walkPairwise body).1 = (readPairwise body).1 := congrArg pairwiseCiphers heq
  rw [walkPairwise, readPairwise, hstay, hread, Fields.stayList_short hle (by omega)] at hpairwise
  cases hpairwise

theorem ne_of_pairwise (ht : Fields.Tracks 2 (walkGroup body).2 (readGroup body).2)
    (ho : Fields.Overruns 2 4 Bytes.ofLE (pairwiseField body))
    (hle : 2 ≤ (Fields.leftover 2 4 (pairwiseField body)).length) :
    walked raw body ≠ reading raw body := by
  intro heq
  have hfield : (readGroup body).2.getD [] = pairwiseField body := Fields.getD_field
  have hsome := eq_some_of_overruns ht (hfield ▸ ho)
  have hat : (walkGroup body).2 = pairwiseField body := by rw [← hfield, hsome, Option.getD_some]
  rw [hat] at hsome
  obtain ⟨hstay, hread⟩ := Fields.stayList_of_overruns cipherOf [.ccmp128] ho
  have hlt := length_leftover (pairwiseField body)
  have hakms : (walkAkms body).1 = (readAkms body).1 := congrArg RsnIe.akms heq
  rw [walkAkms, readAkms, walkPairwise, readPairwise, hat, hsome, hstay, hread,
    Fields.stayList_short hle (by omega)] at hakms
  cases hakms

theorem eq_iff_of_akms (ht : Fields.Tracks 2 (walkGroup body).2 (readGroup body).2)
    (ht' : Fields.Tracks 2 (walkPairwise body).2 (readPairwise body).2)
    (ho : Fields.Overruns 2 4 Bytes.ofLE (akmField body))
    (hle : 2 ≤ (Fields.leftover 2 4 (akmField body)).length) :
    walked raw body = reading raw body ↔ (Fields.leftover 2 4 (akmField body)).take 2 = [0, 0] := by
  have hsome := eq_some_of_overruns ht' (getD_readPairwise ▸ ho)
  have hat : (walkPairwise body).2 = akmField body := by
    rw [← getD_readPairwise, hsome, Option.getD_some]
  rw [hat] at hsome
  obtain ⟨hstay, hread⟩ := Fields.stayList_of_overruns akmOf [.dot1x] ho
  have hwalk : (walkAkms body).2 = Fields.leftover 2 4 (akmField body) := by
    rw [walkAkms, hat, hstay]
  have hend : (readAkms body).2 = none := by rw [readAkms, hsome, hread]
  obtain ⟨hcaps, hmgmt⟩ := tail_short hle (length_leftover (akmField body))
  rw [← numberOf_eq_zero hle]
  constructor
  · intro heq
    have hsame : (Fields.stay 2 numberOf 0 (walkAkms body).2).1 =
        (Fields.field 2 numberOf 0 (readAkms body).2).1 := congrArg capabilities heq
    rwa [hwalk, hend, hcaps] at hsame
  · intro hzero
    have hgroup : (walkGroup body).1 = (readGroup body).1 := Fields.stay_fst
    have hpairwise : (walkPairwise body).1 = (readPairwise body).1 := ht.list le_rfl
    have hakms : (walkAkms body).1 = (readAkms body).1 := ht'.list le_rfl
    rw [walked, reading, hgroup, hpairwise, hakms, hwalk, hend, hmgmt, hcaps, hzero]
    rfl

/-- **The cursor reads the fields as it should** exactly where they are clean. -/
theorem walked_eq_reading_iff : walked raw body = reading raw body ↔ Clean body := by
  by_cases hgroup : (body.drop 2).length < 4 → (body.drop 2).length < 2
  · have ht := tracks_group.mpr hgroup
    by_cases hpairwise : Fields.Overruns 2 4 Bytes.ofLE (pairwiseField body) →
        (Fields.leftover 2 4 (pairwiseField body)).length < 2
    · have ht' := (tracks_pairwise ht).mpr hpairwise
      by_cases hakms : Fields.Overruns 2 4 Bytes.ofLE (akmField body) →
          (Fields.leftover 2 4 (akmField body)).length < 2
      · obtain ⟨hcaps, hmgmt⟩ := tail_eq ((tracks_akms ht').mpr hakms)
        have hgroup' : (walkGroup body).1 = (readGroup body).1 := Fields.stay_fst
        have hpairwise' : (walkPairwise body).1 = (readPairwise body).1 := ht.list le_rfl
        have hakms' : (walkAkms body).1 = (readAkms body).1 := ht'.list le_rfl
        refine iff_of_true ?_ ⟨hgroup, hpairwise, fun ho => .inl (hakms ho)⟩
        rw [walked, reading, hgroup', hpairwise', hakms', hmgmt, hcaps]
      · rw [Classical.not_imp, Nat.not_lt] at hakms
        rw [eq_iff_of_akms ht ht' hakms.1 hakms.2]
        refine ⟨fun hzero => ⟨hgroup, hpairwise, fun _ => .inr hzero⟩, fun hclean => ?_⟩
        exact (hclean.akms hakms.1).resolve_left (Nat.not_lt.mpr hakms.2)
    · refine iff_of_false ?_ fun hclean => hpairwise hclean.pairwise
      rw [Classical.not_imp, Nat.not_lt] at hpairwise
      exact ne_of_pairwise ht hpairwise.1 hpairwise.2
  · refine iff_of_false ?_ fun hclean => hgroup hclean.group
    rw [Classical.not_imp, Nat.not_lt] at hgroup
    exact ne_of_group hgroup.1 hgroup.2

end RsnIe

/-! ## Whole elements -/

variable {element payload : Bytes}

theorem RsnIe.ofFields_raw (raw raw' : Bytes) (group : Cipher) (pairwise : List Cipher)
    (akms : List Akm) (caps : UInt16) (groupMgmt : Option Cipher) :
    { ofFields raw group pairwise akms caps groupMgmt with raw := raw' } =
      ofFields raw' group pairwise akms caps groupMgmt :=
  rfl

theorem RsnIe.walked_raw (raw body : Bytes) :
    { walked [] body with raw := raw } = walked raw body := by
  simp only [walked, ofFields_raw]

/-- **What an element of version 1 is read as.** -/
theorem rsnIe_parse_eq (h : payloadOf Dot11.eidRsn element = some payload)
    (hversion : payload.take 2 = [1, 0]) :
    RsnIe.parse element = .ok (RsnIe.walked (element.take (2 + payload.length)) payload) := by
  rw [RsnIe.parse, h]
  dsimp only
  rw [parseBody_eq hversion, Except.map, RsnIe.walked_raw]

/-- **An RSN element is read as it should** exactly where it is clean: the fields in their order, the
first that does not fit ending the reading, a list that is cut short keeping its whole selectors,
everything behind it left at its default, and the octets of the element kept as they are. -/
theorem rsnIe_parse_iff (h : payloadOf Dot11.eidRsn element = some payload)
    (hversion : payload.take 2 = [1, 0]) :
    RsnIe.parse element = .ok (RsnIe.reading (element.take (2 + payload.length)) payload) ↔
      RsnIe.Clean payload := by
  rw [rsnIe_parse_eq h hversion, Except.ok.injEq]
  exact RsnIe.walked_eq_reading_iff

/-- The element of a WPA2 network whose list of AKMs counts two and holds one. -/
def sampleOverrun : Bytes :=
  [48, 18, 1, 0, 0x00, 0x0f, 0xac, 4, 1, 0, 0x00, 0x0f, 0xac, 4, 2, 0, 0x00, 0x0f, 0xac, 2]

theorem rsnIe_parse_sample : RsnIe.parse sampleOverrun =
    .ok (RsnIe.reading sampleOverrun (sampleOverrun.drop 2)) :=
  (@rsnIe_parse_iff sampleOverrun (sampleOverrun.drop 2) rfl rfl).mpr
    ⟨by decide, by decide, by decide⟩

/-- **Half a selector is read as a count**: of an element that ends inside of its group cipher, the
pairwise list is empty. -/
theorem rsn_reading_fails : ¬ ∀ element payload, payloadOf Dot11.eidRsn element = some payload →
    payload.take 2 = [1, 0] →
      RsnIe.parse element = .ok (RsnIe.reading (element.take (2 + payload.length)) payload) := by
  intro h
  have hsame := h [48, 4, 1, 0, 0x00, 0x0f] [1, 0, 0x00, 0x0f] rfl rfl
  have hpairwise : Except.ok [] = (Except.ok [.ccmp128] : Except Dot11.Error (List Cipher)) :=
    congrArg (Except.map RsnIe.pairwiseCiphers) hsame
  cases hpairwise

end Caw
