import Caw.Dot11.Elements
import Caw.Lib.Except

/-!
# The selectors of an RSN element

Where the selectors of an RSN element stand in it, apart from what they decode to: a field is at its
offset, or the element ends before it.

* `RsnFields`, `rsnFields`: the group selector and the two lists, by position;
* `Cursor.selectors_drop`, `Cursor.suiteList_drop`: the reads of the parser, by position;
* **`parseBody_fields`**: what the parser decodes is what stands there, the defaults of 802.11 aside;
* `Selector.ieee`, `Selector.microsoft`: a suite number under either OUI;
* **`mem_ieee_iff`**, `FirstIsIeee`: of the suites wanted, the first on offer is under the IEEE OUI.
-/

set_option autoImplicit false

namespace Caw

namespace Dot11

/-! ## Fields by position -/

/-- The suite selectors an RSN element carries, octet for octet. -/
structure RsnFields where
  group : Option Selector
  pairwise : Option (List Selector)
  akm : Option (List Selector)
deriving DecidableEq

/-- A count, and as many selectors as it announces and the payload has room for. -/
def suitesAt (off : ℕ) (payload : Bytes) : Option (List Selector) :=
  if payload.length < off + 2 then none
  else some ((List.range (min (Bytes.ofLE (Bytes.slice off 2 payload).toList)
    ((payload.length - (off + 2)) / 4))).map fun i => Bytes.slice (off + 2 + 4 * i) 4 payload)

/-- The fields of a payload: a version, the group selector, the pairwise list, the AKM list. -/
def rsnFields (payload : Bytes) : RsnFields where
  group := if payload.length < 6 then none else some (Bytes.slice 2 4 payload)
  pairwise := suitesAt 6 payload
  akm := (suitesAt 6 payload).bind fun l => suitesAt (8 + 4 * l.length) payload

end Dot11

open Dot11

/-! ## The reads of the parser -/

namespace Cursor

variable (payload : Bytes)

theorem take_drop (off n : ℕ) : take n (payload.drop off) =
    if payload.length < off + n ∧ 0 < n then (none, payload.drop off)
    else (some ((payload.drop off).take n), payload.drop (off + n)) := by
  unfold take
  rw [List.length_drop, List.drop_drop]
  by_cases h : payload.length - off < n
  · rw [if_pos h, if_pos (by omega)]
  · rw [if_neg h, if_neg (by omega)]

theorem selector_drop (off : ℕ) : selector (payload.drop off) =
    if payload.length < off + 4 then (none, payload.drop off)
    else (some (Bytes.slice off 4 payload), payload.drop (off + 4)) := by
  unfold selector
  rw [take_drop]
  by_cases h : payload.length < off + 4
  · rw [if_pos ⟨h, by decide⟩, if_pos h]
    rfl
  · rw [if_neg (fun hshort => h hshort.1), if_neg h]
    have hslice : Bytes.slice 0 4 ((payload.drop off).take 4) = Bytes.slice off 4 payload := by
      apply List.Vector.toList_injective
      rw [Bytes.slice_toList _ _ _ (by rw [List.length_take, List.length_drop]; omega),
        Bytes.slice_toList _ _ _ (by omega), List.drop_zero, List.take_take, min_self]
    show (some (Bytes.slice 0 4 ((payload.drop off).take 4)), payload.drop (off + 4)) = _
    rw [hslice]

/-- **As many selectors as are announced and there is room for.** -/
theorem selectors_drop (count off : ℕ) : selectors count (payload.drop off) =
    ((List.range (min count ((payload.length - off) / 4))).map fun i =>
        Bytes.slice (off + 4 * i) 4 payload,
      payload.drop (off + 4 * min count ((payload.length - off) / 4))) := by
  induction count generalizing off with
  | zero => simp [selectors]
  | succ count ih =>
    rw [selectors, selector_drop]
    by_cases h : payload.length < off + 4
    · have hroom : (payload.length - off) / 4 = 0 := Nat.div_eq_of_lt (by omega)
      rw [if_pos h, hroom]
      simp
    · have hroom : min (count + 1) ((payload.length - off) / 4) =
          min count ((payload.length - (off + 4)) / 4) + 1 := by omega
      rw [if_neg h]
      dsimp only
      rw [ih, hroom, List.range_succ_eq_map, List.map_cons, List.map_map]
      refine Prod.ext ?_ ?_
      · dsimp only
        congr 1
        refine List.map_congr_left fun i _ => ?_
        show Bytes.slice (off + 4 + 4 * i) 4 payload = Bytes.slice (off + 4 * (i + 1)) 4 payload
        rw [Nat.mul_add, Nat.mul_one, Nat.add_assoc, Nat.add_comm 4]
      · dsimp only
        congr 1
        omega

theorem suiteList_drop (off : ℕ) : suiteList (payload.drop off) = (suitesAt off payload,
    payload.drop (off + ((suitesAt off payload).map fun l => 2 + 4 * l.length).getD 0)) := by
  unfold suiteList u16le suitesAt
  rw [take_drop]
  by_cases h : payload.length < off + 2
  · rw [if_pos ⟨h, by decide⟩, if_pos h]
    simp
  · rw [if_neg (fun hshort => h hshort.1), if_neg h]
    have hcount : (UInt16.ofNat (Bytes.ofLE ((payload.drop off).take 2))).toNat =
        Bytes.ofLE (Bytes.slice off 2 payload).toList := by
      rw [← Bytes.slice_toList _ _ _ (by omega), UInt16.toNat_ofNat', Nat.mod_eq_of_lt]
      have hlt := Bytes.ofBE_lt (Bytes.slice off 2 payload).toList.reverse
      rw [List.length_reverse, List.Vector.toList_length] at hlt
      exact hlt
    dsimp only
    rw [Option.map_some]
    dsimp only
    rw [hcount, selectors_drop]
    simp only [Option.map_some, Option.getD_some, List.length_map, List.length_range]
    rw [Nat.add_assoc]

end Cursor

theorem u16le_version {payload : Bytes} {ie : RsnIe} (h : RsnIe.parseBody payload = .ok ie) :
    Cursor.u16le payload = (some 1, payload.drop 2) := by
  have hone : (Cursor.u16le payload).1 = some 1 := by
    rw [u16le_eq_one, ← parseBody_isOk, h]
    rfl
  refine Prod.ext hone ?_
  unfold Cursor.u16le Cursor.take at hone ⊢
  by_cases hlen : payload.length < 2
  · rw [if_pos hlen] at hone
    cases hone
  · rw [if_neg hlen]

/-- **The parser reads the fields that stand there**, with the defaults for the ones that do not, where
it finds a pairwise cipher to choose. -/
theorem parseBody_fields {payload : Bytes} {ie : RsnIe} (h : RsnIe.parseBody payload = .ok ie)
    (hpairwise : ie.pairwiseCiphers ≠ []) :
    ie.groupCipher = ((rsnFields payload).group.map Cipher.fromSelector).getD .ccmp128 ∧
      ie.pairwiseCiphers =
        ((rsnFields payload).pairwise.map fun l => l.map Cipher.fromSelector).getD [.ccmp128] ∧
      ie.akms = ((rsnFields payload).akm.map fun l => l.map Akm.fromSelector).getD [.dot1x] := by
  have hversion := u16le_version h
  unfold RsnIe.parseBody at h
  simp only [hversion, Cursor.selector_drop] at h
  by_cases hgroup : payload.length < 6
  · -- what follows is too short for a list with anything in it
    rw [if_pos hgroup] at h
    simp only [Cursor.suiteList_drop] at h
    have hlist : suitesAt 2 payload = none ∨ suitesAt 2 payload = some [] := by
      unfold suitesAt
      by_cases hlen : payload.length < 2 + 2
      · exact .inl (if_pos hlen)
      · have hroom : (payload.length - (2 + 2)) / 4 = 0 := Nat.div_eq_of_lt (by omega)
        rw [if_neg hlen, hroom]
        exact .inr (by simp)
    have hnone : suitesAt 6 payload = none := if_pos (by omega)
    simp only [rsnFields, if_pos hgroup, hnone, Option.bind_none, Option.map_none, Option.getD_none]
    rcases hlist with hlist | hlist
    · simp only [hlist, Option.map_none, Option.getD_none, Nat.add_zero] at h
      cases h
      exact ⟨rfl, rfl, rfl⟩
    · simp only [hlist] at h
      cases h
      exact absurd rfl hpairwise
  · rw [if_neg hgroup] at h
    simp only [Cursor.suiteList_drop] at h
    simp only [rsnFields, if_neg hgroup]
    cases hlist : suitesAt 6 payload with
    | none =>
      simp only [hlist, Option.map_none, Option.getD_none, Nat.add_zero] at h
      cases h
      exact ⟨rfl, rfl, rfl⟩
    | some l =>
      simp only [hlist, Option.map_some, Option.getD_some] at h
      cases h
      refine ⟨rfl, rfl, ?_⟩
      rw [Option.bind_some, ← Nat.add_assoc]

theorem parse_fields {element payload : Bytes} {ie : RsnIe}
    (hpayload : payloadOf Dot11.eidRsn element = some payload) (h : RsnIe.parse element = .ok ie)
    (hpairwise : ie.pairwiseCiphers ≠ []) :
    ie.groupCipher = ((rsnFields payload).group.map Cipher.fromSelector).getD .ccmp128 ∧
      ie.pairwiseCiphers =
        ((rsnFields payload).pairwise.map fun l => l.map Cipher.fromSelector).getD [.ccmp128] ∧
      ie.akms = ((rsnFields payload).akm.map fun l => l.map Akm.fromSelector).getD [.dot1x] := by
  unfold RsnIe.parse at h
  rw [hpayload] at h
  obtain ⟨body, hbody, rfl⟩ := Except.map_eq_ok.mp h
  have hfields := parseBody_fields hbody hpairwise
  exact hfields

theorem Ies.next_append {id len : UInt8} {payload : Bytes} (h : payload.length = len.toNat)
    (rest : Bytes) : Ies.next (id :: len :: (payload ++ rest)) =
      some ({ id, payload, raw := id :: len :: payload }, rest) := by
  unfold Ies.next
  dsimp only
  rw [← h, if_neg (by simp), List.take_left, List.drop_left]

/-! ## One suite under two OUIs -/

namespace Selector

/-- A suite number under the IEEE OUI. -/
def ieee (suiteType : UInt8) : Selector := ⟨[0x00, 0x0f, 0xac, suiteType], rfl⟩

/-- The same number under the Microsoft OUI, which the parser reads as the same suite. -/
def microsoft (suiteType : UInt8) : Selector := ⟨[0x00, 0x50, 0xf2, suiteType], rfl⟩

theorem cases_oui (sel : Selector) :
    (∃ suiteType, sel = ieee suiteType) ∨ (∃ suiteType, sel = microsoft suiteType) ∨
      sel.standard = false := by
  obtain ⟨l, hl⟩ := sel
  match l, hl with
  | [a, b, c, suiteType], hl =>
    by_cases hieee : [a, b, c] = ouiIeee
    · cases hieee
      exact .inl ⟨suiteType, rfl⟩
    · by_cases hmicrosoft : [a, b, c] = ouiMicrosoft
      · cases hmicrosoft
        exact .inr (.inl ⟨suiteType, rfl⟩)
      · refine .inr (.inr ?_)
        show (decide ([a, b, c] = ouiIeee) || decide ([a, b, c] = ouiMicrosoft)) = false
        rw [decide_eq_false hieee, decide_eq_false hmicrosoft]
        rfl

end Selector

/-- Of the suites wanted, strongest first, the first on offer under either OUI is on offer under the
IEEE one. -/
def FirstIsIeee (listed : List Selector) : List UInt8 → Prop
  | [] => True
  | suiteType :: rest => Selector.ieee suiteType ∈ listed ∨
      (Selector.microsoft suiteType ∉ listed ∧ FirstIsIeee listed rest)

instance FirstIsIeee.decidable (listed : List Selector) :
    ∀ types, Decidable (FirstIsIeee listed types)
  | [] => inferInstanceAs (Decidable True)
  | suiteType :: rest =>
    have := FirstIsIeee.decidable listed rest
    inferInstanceAs (Decidable (Selector.ieee suiteType ∈ listed ∨
      (Selector.microsoft suiteType ∉ listed ∧ FirstIsIeee listed rest)))

/-- **The suite chosen is on offer under the IEEE OUI** exactly where the first on offer is, for a
decoder that reads a suite under both. -/
theorem mem_ieee_iff {α : Type} [DecidableEq α] {decode : Selector → α} {number : α → UInt8}
    {listed : List Selector} {wanted : List α}
    (hdecode : ∀ a ∈ wanted, ∀ sel, decode sel = a ↔
      sel = Selector.ieee (number a) ∨ sel = Selector.microsoft (number a))
    {a : α} (hfind : (wanted.find? fun a => (listed.map decode).contains a) = some a) :
    Selector.ieee (number a) ∈ listed ↔ FirstIsIeee listed (wanted.map number) := by
  induction wanted with
  | nil => cases hfind
  | cons b rest ih =>
    have hlisted : (listed.map decode).contains b = true ↔
        Selector.ieee (number b) ∈ listed ∨ Selector.microsoft (number b) ∈ listed := by
      rw [List.contains_iff_mem, List.mem_map]
      constructor
      · rintro ⟨sel, hsel, hb⟩
        rcases (hdecode b List.mem_cons_self sel).mp hb with rfl | rfl
        · exact .inl hsel
        · exact .inr hsel
      · rintro (h | h)
        · exact ⟨_, h, (hdecode b List.mem_cons_self _).mpr (.inl rfl)⟩
        · exact ⟨_, h, (hdecode b List.mem_cons_self _).mpr (.inr rfl)⟩
    rw [List.find?_cons] at hfind
    rw [List.map_cons, FirstIsIeee]
    by_cases hb : (listed.map decode).contains b = true
    · rw [hb] at hfind
      cases hfind
      refine ⟨.inl, ?_⟩
      rintro (h | ⟨hno, -⟩)
      · exact h
      · exact (hlisted.mp hb).resolve_right hno
    · rw [Bool.not_eq_true] at hb
      rw [hb] at hfind
      have hno : ¬(Selector.ieee (number b) ∈ listed ∨ Selector.microsoft (number b) ∈ listed) := by
        rw [← hlisted, hb]
        exact Bool.false_ne_true
      rw [ih (fun a ha => hdecode a (List.mem_cons_of_mem b ha)) hfind]
      obtain ⟨hieee, hmicrosoft⟩ := not_or.mp hno
      rw [or_iff_right hieee, and_iff_right hmicrosoft]

end Caw
