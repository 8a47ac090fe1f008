import Caw.Dot11.Suites
import Caw.Lib.Walk

/-!
# Information elements

What caw reads out of a beacon or a probe response: the element walk, the RSN element and the legacy
WPA element, and the security they add up to.

* `Ies.next`, `elements`, `clipped`: the whole elements of a body, and one cut off at its end;
* `Cursor.take`, `Cursor.suiteList`: the reads of a fixed-layout field, which stay where they are when a
  field does not fit;
* `RsnIe.parse`, `WpaIe.parse`, `BeaconIes.parse`;
* `Security.classify`;
* **`rsnIe_parse_isOk`**, **`wpaIe_parse_isOk`**: the elements that parse at all;
* `Protects`, `Element.Legible`: that a body holds a security element, and that an element is of the
  version there is;
* **`beaconIes_isSome`**: where a security element is read out of a body;
* **`classify_open_iff`**: what passes for an open network.
-/

set_option autoImplicit false

namespace Caw

namespace Dot11

/-- The SSID element. -/
def eidSsid : UInt8 := 0
/-- The element with the channel. -/
def eidDsParams : UInt8 := 3
/-- The RSN element. -/
def eidRsn : UInt8 := 48
/-- The element of a vendor. -/
def eidVendor : UInt8 := 221

/-- 00-0F-AC, the OUI in front of every standard suite selector. -/
def ouiIeee : Bytes := [0x00, 0x0f, 0xac]

/-- 00-50-F2, the OUI of the legacy WPA element and of the selectors inside it. -/
def ouiMicrosoft : Bytes := [0x00, 0x50, 0xf2]

/-- The vendor type of the legacy WPA element. -/
def wpa1VendorType : UInt8 := 1

/-- RSN capabilities bit 6: the access point can protect management frames. -/
def rsnCapMfpc : UInt16 := 64

/-- RSN capabilities bit 7: it demands that. -/
def rsnCapMfpr : UInt16 := 128

/-- Why an element was not read. -/
inductive Error where
  | truncated
  | malformed
deriving DecidableEq

end Dot11

open Dot11

/-- Standard selectors, and the ones WPA1 numbers the same way. -/
def Selector.standard (sel : Selector) : Bool :=
  sel.toList.take 3 = Dot11.ouiIeee || sel.toList.take 3 = Dot11.ouiMicrosoft

/-- The cipher a selector stands for. -/
def Cipher.fromSelector (sel : Selector) : Cipher :=
  if !Selector.standard sel then .unknown sel
  else
    match (sel.get 3).toNat with
    | 0 => .useGroup
    | 1 => .wep40
    | 2 => .tkip
    | 4 => .ccmp128
    | 5 => .wep104
    | 6 => .bipCmac128
    | 8 => .gcmp128
    | 9 => .gcmp256
    | 10 => .ccmp256
    | _ => .unknown sel

/-- The AKM a selector stands for. -/
def Akm.fromSelector (sel : Selector) : Akm :=
  if !Selector.standard sel then .unknown sel
  else
    match (sel.get 3).toNat with
    | 1 => .dot1x
    | 2 => .psk
    | 3 => .ftDot1x
    | 4 => .ftPsk
    | 5 => .dot1xSha256
    | 6 => .pskSha256
    | 8 => .sae
    | 9 => .ftSae
    | 12 => .dot1xSuiteB192
    | 18 => .owe
    | _ => .unknown sel

/-! ## The element walk -/

/-- One information element. -/
structure Element where
  id : UInt8
  payload : Bytes
  /-- The element with its header. -/
  raw : Bytes
deriving DecidableEq

/-- One element off the front. A body may end inside of one: there the walk stops. -/
def Ies.next : Bytes → Option (Element × Bytes)
  | id :: len :: rest =>
    if rest.length < len.toNat then none
    else some ({ id, payload := rest.take len.toNat, raw := id :: len :: rest.take len.toNat },
      rest.drop len.toNat)
  | _ => none

/-- The whole elements of a body. -/
def elements (body : Bytes) : List Element := Walk.items Ies.next body.length body

/-- An element cut off by the end of the body. -/
def clipped (body : Bytes) : Option Element :=
  match Walk.left Ies.next body.length body with
  | [] => none
  | id :: rest => some { id, payload := rest.drop 1, raw := id :: rest }

/-! ## Fields -/

namespace Cursor

/-- The next `n` octets, and the rest; where there are fewer, nothing is taken. -/
def take (n : ℕ) (rest : Bytes) : Option Bytes × Bytes :=
  if rest.length < n then (none, rest) else (some (rest.take n), rest.drop n)

/-- Two octets, least first. -/
def u16le (rest : Bytes) : Option UInt16 × Bytes :=
  let r := take 2 rest
  (r.1.map fun b => UInt16.ofNat (Bytes.ofLE b), r.2)

/-- A selector of four octets. -/
def selector (rest : Bytes) : Option Selector × Bytes :=
  let r := take 4 rest
  (r.1.map (Bytes.slice 0 4), r.2)

/-- At most `count` selectors, as many as there are. -/
def selectors : ℕ → Bytes → List Selector × Bytes
  | 0, rest => ([], rest)
  | count + 1, rest =>
    match selector rest with
    | (none, rest) => ([], rest)
    | (some sel, rest) =>
      let r := selectors count rest
      (sel :: r.1, r.2)

/-- A count and that many selectors. -/
def suiteList (rest : Bytes) : Option (List Selector) × Bytes :=
  match u16le rest with
  | (none, rest) => (none, rest)
  | (some count, rest) =>
    let r := selectors count.toNat rest
    (some r.1, r.2)

end Cursor

/-! ## The RSN element -/

/-- The payload of an element, where its length does not lie. -/
def payloadOf (eid : UInt8) (element : Bytes) : Option Bytes :=
  match element with
  | id :: len :: rest =>
    if id = eid ∧ len.toNat ≤ rest.length then some (rest.take len.toNat) else none
  | _ => none

namespace RsnIe

/-- Everything after the version is optional, and read as far as it goes. -/
def parseBody (body : Bytes) : Except Dot11.Error RsnIe :=
  let version := Cursor.u16le body
  match version.1 with
  | none => .error .truncated
  | some v =>
    if v ≠ 1 then .error .malformed
    else
      let group := Cursor.selector version.2
      let pairwise := Cursor.suiteList group.2
      let akm := Cursor.suiteList pairwise.2
      let capabilities := Cursor.u16le akm.2
      -- PMKIDs sit in front of the group management cipher
      let pmkids := Cursor.u16le capabilities.2
      let skipped := Cursor.take ((pmkids.1.getD 0).toNat * 16) pmkids.2
      let caps := capabilities.1.getD 0
      .ok
        { version := v
          groupCipher := (group.1.map Cipher.fromSelector).getD .ccmp128
          pairwiseCiphers := (pairwise.1.map fun l => l.map Cipher.fromSelector).getD [.ccmp128]
          akms := (akm.1.map fun l => l.map Akm.fromSelector).getD [.dot1x]
          capabilities := caps
          mfpCapable := caps &&& rsnCapMfpc ≠ 0
          mfpRequired := caps &&& rsnCapMfpr ≠ 0
          groupMgmtCipher := skipped.1.bind fun _ =>
            (Cursor.selector skipped.2).1.map Cipher.fromSelector
          raw := [] }

/-- Parse from the whole element, header included. -/
def parse (element : Bytes) : Except Dot11.Error RsnIe :=
  match payloadOf Dot11.eidRsn element with
  | none => .error .truncated
  | some payload =>
    (parseBody payload).map fun ie => { ie with raw := element.take (2 + payload.length) }

end RsnIe

/-- The legacy WPA1 element, under its vendor id. -/
structure WpaIe where
  version : UInt16
  groupCipher : Cipher
  pairwiseCiphers : List Cipher
  akms : List Akm
  raw : Bytes
deriving DecidableEq

namespace WpaIe

/-- What follows the OUI and the type of WPA1. -/
def bodyOf : Bytes → Option Bytes
  | a :: b :: c :: kind :: rest =>
    if kind = wpa1VendorType ∧ [a, b, c] = Dot11.ouiMicrosoft then some rest else none
  | _ => none

/-- Read a WPA element, its header included. -/
def parse (element : Bytes) : Except Dot11.Error WpaIe :=
  match payloadOf Dot11.eidVendor element with
  | none => .error .truncated
  | some payload =>
    match bodyOf payload with
    -- another vendor's element, or another of Microsoft's
    | none => .error .malformed
    | some body =>
      let version := Cursor.u16le body
      match version.1 with
      | none => .error .truncated
      | some v =>
        if v ≠ 1 then .error .malformed
        else
          let group := Cursor.selector version.2
          let pairwise := Cursor.suiteList group.2
          let akm := Cursor.suiteList pairwise.2
          .ok
            { version := v
              groupCipher := (group.1.map Cipher.fromSelector).getD .tkip
              pairwiseCiphers := (pairwise.1.map fun l => l.map Cipher.fromSelector).getD [.tkip]
              akms := (akm.1.map fun l => l.map Akm.fromSelector).getD [.dot1x]
              raw := element.take (2 + payload.length) }

end WpaIe

/-! ## A beacon -/

namespace Security

/-- The level a list of AKMs stands for; none where none of them is known. -/
def fromAkms (akms : List Akm) (mfpRequired : Bool) : Option Security :=
  let sae := akms.any Akm.isSae
  let psk := akms.any Akm.isPsk
  let enterprise := akms.any Akm.isEnterprise
  let owe := akms.contains .owe
  if sae && psk then some .wpa2Wpa3Personal
  else if sae then some .wpa3Personal
  else if owe then some .owe
  else if enterprise then
    if mfpRequired || akms.contains .dot1xSuiteB192 then some .wpa3Enterprise else some .wpa2Enterprise
  else if psk then some .wpa2Personal
  else none

/-- What an RSN element is worth on its own. -/
def ofRsn (rsn : Option RsnIe) : Option Security :=
  rsn.bind fun ie => fromAkms ie.akms ie.mfpRequired

/-- Classify a network from what its beacon advertised. -/
def classify (rsn : Option RsnIe) (wpa : Option WpaIe) (privacy : Bool) : Security :=
  match ofRsn rsn with
  | some security => security
  | none =>
    match wpa with
    | some wpa => if wpa.akms.any Akm.isEnterprise then .wpa1Enterprise else .wpa1Personal
    | none => if privacy then .wep else .open

end Security

/-- Everything caw takes from a beacon or probe response. -/
structure BeaconIes where
  ssid : Option Bytes
  channel : Option UInt8
  rsn : Option RsnIe
  wpa : Option WpaIe
deriving DecidableEq

namespace BeaconIes

/-- One element. The first occurrence wins; a security element that does not parse is no
occurrence. -/
def add (out : BeaconIes) (el : Element) : BeaconIes :=
  if el.id = Dot11.eidSsid ∧ out.ssid.isNone then { out with ssid := some el.payload }
  else if el.id = Dot11.eidDsParams ∧ out.channel.isNone then { out with channel := el.payload.head? }
  else if el.id = Dot11.eidRsn ∧ out.rsn.isNone then { out with rsn := (RsnIe.parse el.raw).toOption }
  else if el.id = Dot11.eidVendor ∧ out.wpa.isNone then
    { out with wpa := (WpaIe.parse el.raw).toOption }
  else out

/-- Read the elements of a beacon or a probe response. -/
def parse (body : Bytes) : BeaconIes :=
  (elements body).foldl add { ssid := none, channel := none, rsn := none, wpa := none }

/-- What the elements and the Privacy bit add up to. -/
def security (ies : BeaconIes) (privacy : Bool) : Security :=
  Security.classify ies.rsn ies.wpa privacy

end BeaconIes

/-! ## What the walk gives -/

theorem Ies.next_eq_some {b rest : Bytes} {el : Element} (h : Ies.next b = some (el, rest)) :
    ∃ len, el.raw = el.id :: len :: el.payload ∧ el.payload.length = len.toNat ∧
      b = el.raw ++ rest := by
  unfold next at h
  split at h
  · rename_i id len tail
    split_ifs at h with hlen
    cases h
    exact ⟨len, rfl, by rw [List.length_take]; omega, by simp⟩
  · cases h

/-- An element as the walk yields it: its header names its payload. -/
def Element.Whole (el : Element) : Prop :=
  ∃ len, el.raw = el.id :: len :: el.payload ∧ el.payload.length = len.toNat

theorem whole_of_mem {body : Bytes} {el : Element} (h : el ∈ elements body) : el.Whole := by
  refine Walk.forall_items (fun b el rest hnext => ?_) _ _ el h
  obtain ⟨len, hraw, hlen, -⟩ := Ies.next_eq_some hnext
  exact ⟨len, hraw, hlen⟩

/-- **The walk drops nothing**: the elements, whole and clipped, are the body. -/
theorem flatMap_elements (body : Bytes) :
    (elements body).flatMap Element.raw ++ ((clipped body).map Element.raw).getD [] = body := by
  have hwalk := Walk.flatMap_raw (fun b el rest h => by
    obtain ⟨len, -, -, hb⟩ := Ies.next_eq_some h
    exact hb) body.length body
  have hleft : ((clipped body).map Element.raw).getD [] = Walk.left Ies.next body.length body := by
    unfold clipped
    split
    · rename_i h
      rw [h]
      rfl
    · rename_i h
      rw [h]
      rfl
  rw [hleft]
  exact hwalk

/-! ## What parses -/

theorem payloadOf_raw {el : Element} (h : el.Whole) (eid : UInt8) :
    payloadOf eid el.raw = if el.id = eid then some el.payload else none := by
  obtain ⟨len, hraw, hlen⟩ := h
  rw [hraw, payloadOf, ← hlen, List.take_length]
  simp

theorem u16le_cons (x y : UInt8) (rest : Bytes) :
    Cursor.u16le (x :: y :: rest) = (some (UInt16.ofNat (y.toNat * 256 + x.toNat)), rest) := by
  have htake : Cursor.take 2 (x :: y :: rest) = (some [x, y], rest) := by
    rw [Cursor.take, if_neg (by rw [List.length_cons, List.length_cons]; omega)]
    rfl
  have hnum : Bytes.ofLE [x, y] = y.toNat * 256 + x.toNat := by simp [Bytes.ofLE, Bytes.ofBE]
  rw [Cursor.u16le, htake, Option.map_some, hnum]

theorem u16le_eq_one (b : Bytes) : (Cursor.u16le b).1 = some 1 ↔ b.take 2 = [1, 0] := by
  match b with
  | [] => simp [Cursor.u16le, Cursor.take]
  | [x] => simp [Cursor.u16le, Cursor.take]
  | x :: y :: rest =>
    have hx := x.toNat_lt
    have hy := y.toNat_lt
    have hnum : UInt16.ofNat (y.toNat * 256 + x.toNat) = 1 ↔ x.toNat = 1 ∧ y.toNat = 0 := by
      rw [← UInt16.toNat_inj, UInt16.toNat_ofNat', UInt16.toNat_one]
      omega
    rw [u16le_cons, Option.some.injEq, hnum]
    simp [← UInt8.toNat_inj]

theorem parseBody_isOk (body : Bytes) :
    (RsnIe.parseBody body).isOk = true ↔ body.take 2 = [1, 0] := by
  rw [← u16le_eq_one]
  unfold RsnIe.parseBody
  cases h : (Cursor.u16le body).1 with
  | none => simp [h, Except.isOk, Except.toBool]
  | some v =>
    by_cases hv : v = 1
    · simp [h, hv, Except.isOk, Except.toBool]
    · simp [h, hv, Except.isOk, Except.toBool]

/-- **The RSN elements that parse**: those of version 1, however short. -/
theorem rsnIe_parse_isOk {el : Element} (h : el.Whole) :
    (RsnIe.parse el.raw).isOk = true ↔ el.id = Dot11.eidRsn ∧ el.payload.take 2 = [1, 0] := by
  rw [RsnIe.parse, payloadOf_raw h, ← parseBody_isOk]
  by_cases hid : el.id = Dot11.eidRsn
  · rw [if_pos hid]
    dsimp only
    cases RsnIe.parseBody el.payload <;> simp [hid, Except.map, Except.isOk, Except.toBool]
  · simp [hid, Except.isOk, Except.toBool]

/-- The payload of a WPA1 element begins with these octets. -/
def wpa1Prefix : Bytes := Dot11.ouiMicrosoft ++ [wpa1VendorType]

theorem bodyOf_eq_some {payload body : Bytes} :
    WpaIe.bodyOf payload = some body ↔ payload = wpa1Prefix ++ body := by
  unfold WpaIe.bodyOf
  split
  · rename_i a b c kind rest
    simp only [wpa1Prefix, Dot11.ouiMicrosoft, List.cons_append, List.nil_append, List.cons.injEq,
      and_true]
    constructor
    · intro h
      split_ifs at h with hp
      cases h
      exact ⟨hp.2.1, hp.2.2.1, hp.2.2.2, hp.1, rfl⟩
    · rintro ⟨rfl, rfl, rfl, rfl, rfl⟩
      rfl
  · rename_i hno
    constructor
    · intro h
      cases h
    · intro h
      exact absurd h (hno 0x00 0x50 0xf2 wpa1VendorType body)

/-- **The WPA elements that parse**: those of version 1. -/
theorem wpaIe_parse_isOk {el : Element} (h : el.Whole) : (WpaIe.parse el.raw).isOk = true ↔
    el.id = Dot11.eidVendor ∧ el.payload.take 6 = wpa1Prefix ++ [1, 0] := by
  rw [WpaIe.parse, payloadOf_raw h]
  by_cases hid : el.id = Dot11.eidVendor
  · rw [if_pos hid]
    dsimp only
    cases hbody : WpaIe.bodyOf el.payload with
    | none =>
      have hno : el.payload.take 6 ≠ wpa1Prefix ++ [1, 0] := by
        intro heq
        have hsplit := List.take_append_drop 6 el.payload
        rw [heq, List.append_assoc] at hsplit
        rw [bodyOf_eq_some.mpr hsplit.symm] at hbody
        cases hbody
      simp [hno, Except.isOk, Except.toBool]
    | some body =>
      rw [bodyOf_eq_some] at hbody
      have htake : el.payload.take 6 = wpa1Prefix ++ [1, 0] ↔ body.take 2 = [1, 0] := by
        rw [hbody, List.take_append]
        simp [wpa1Prefix, Dot11.ouiMicrosoft]
      rw [htake, ← u16le_eq_one]
      cases hv : (Cursor.u16le body).1 with
      | none => simp [hv, Except.isOk, Except.toBool]
      | some v =>
        by_cases hone : v = 1
        · simp [hv, hone, hid, Except.isOk, Except.toBool]
        · simp [hv, hone, Except.isOk, Except.toBool]
  · simp [hid, Except.isOk, Except.toBool]

/-! ## What a body is read to hold -/

/-- What one element is worth as an RSN element. -/
def rsnOf (el : Element) : Option RsnIe :=
  if el.id = Dot11.eidRsn then (RsnIe.parse el.raw).toOption else none

/-- And as a WPA element. -/
def wpaOf (el : Element) : Option WpaIe :=
  if el.id = Dot11.eidVendor then (WpaIe.parse el.raw).toOption else none

theorem add_rsn (out : BeaconIes) (el : Element) : (out.add el).rsn = out.rsn.or (rsnOf el) := by
  have hids : Dot11.eidSsid ≠ Dot11.eidRsn ∧ Dot11.eidDsParams ≠ Dot11.eidRsn ∧
      Dot11.eidVendor ≠ Dot11.eidRsn := by decide
  unfold BeaconIes.add rsnOf
  cases hrsn : out.rsn <;> split_ifs <;> simp_all

theorem add_wpa (out : BeaconIes) (el : Element) : (out.add el).wpa = out.wpa.or (wpaOf el) := by
  have hids : Dot11.eidSsid ≠ Dot11.eidVendor ∧ Dot11.eidDsParams ≠ Dot11.eidVendor ∧
      Dot11.eidRsn ≠ Dot11.eidVendor := by decide
  unfold BeaconIes.add wpaOf
  cases hwpa : out.wpa <;> split_ifs <;> simp_all

/-- A field that every element adds to where it is still empty holds the first that adds anything. -/
theorem foldl_field {β : Type} {field : BeaconIes → Option β} {f : Element → Option β}
    (hadd : ∀ (out : BeaconIes) (el : Element), field (out.add el) = (field out).or (f el))
    (l : List Element) (out : BeaconIes) :
    field (l.foldl BeaconIes.add out) = (field out).or (l.findSome? f) := by
  induction l generalizing out with
  | nil => simp
  | cons el l ih =>
    rw [List.foldl_cons, ih, hadd, List.findSome?_cons, Option.or_assoc]
    cases f el <;> rfl

theorem parse_rsn (body : Bytes) : (BeaconIes.parse body).rsn = (elements body).findSome? rsnOf :=
  foldl_field add_rsn _ _

theorem parse_wpa (body : Bytes) : (BeaconIes.parse body).wpa = (elements body).findSome? wpaOf :=
  foldl_field add_wpa _ _

namespace Element

/-- An RSN element, whatever is in it. -/
def IsRsn (el : Element) : Prop := el.id = Dot11.eidRsn

/-- A WPA1 element, whatever follows its type. -/
def IsWpa1 (el : Element) : Prop := el.id = Dot11.eidVendor ∧ el.payload.take 4 = wpa1Prefix

/-- Of version 1, the only one there is. -/
def Legible (el : Element) : Prop :=
  (el.id = Dot11.eidRsn ∧ el.payload.take 2 = [1, 0]) ∨
    (el.id = Dot11.eidVendor ∧ el.payload.take 6 = wpa1Prefix ++ [1, 0])

end Element

/-- The body holds a security element, one cut off at its end included. -/
def Protects (body : Bytes) : Prop :=
  ∃ el, (el ∈ elements body ∨ clipped body = some el) ∧ (el.IsRsn ∨ el.IsWpa1)

theorem rsnOf_isSome {el : Element} (h : el.Whole) :
    (rsnOf el).isSome = true ↔ el.id = Dot11.eidRsn ∧ el.payload.take 2 = [1, 0] := by
  rw [← rsnIe_parse_isOk h, rsnOf]
  split_ifs with hid
  · cases RsnIe.parse el.raw <;> simp [Except.toOption, Except.isOk, Except.toBool]
  · simp [rsnIe_parse_isOk h, hid]

theorem wpaOf_isSome {el : Element} (h : el.Whole) :
    (wpaOf el).isSome = true ↔
      el.id = Dot11.eidVendor ∧ el.payload.take 6 = wpa1Prefix ++ [1, 0] := by
  rw [← wpaIe_parse_isOk h, wpaOf]
  split_ifs with hid
  · cases WpaIe.parse el.raw <;> simp [Except.toOption, Except.isOk, Except.toBool]
  · simp [wpaIe_parse_isOk h, hid]

/-- **A security element is read** exactly where one of the whole elements is legible. -/
theorem beaconIes_isSome (body : Bytes) :
    ((BeaconIes.parse body).rsn.isSome = true ∨ (BeaconIes.parse body).wpa.isSome = true) ↔
      ∃ el ∈ elements body, el.Legible := by
  rw [parse_rsn, parse_wpa, List.findSome?_isSome_iff, List.findSome?_isSome_iff]
  constructor
  · rintro (⟨el, hel, hsome⟩ | ⟨el, hel, hsome⟩)
    · exact ⟨el, hel, .inl ((rsnOf_isSome (whole_of_mem hel)).mp hsome)⟩
    · exact ⟨el, hel, .inr ((wpaOf_isSome (whole_of_mem hel)).mp hsome)⟩
  · rintro ⟨el, hel, hlegible | hlegible⟩
    · exact .inl ⟨el, hel, (rsnOf_isSome (whole_of_mem hel)).mpr hlegible⟩
    · exact .inr ⟨el, hel, (wpaOf_isSome (whole_of_mem hel)).mpr hlegible⟩

/-! ## What passes for an open network -/

theorem fromAkms_ne_open (akms : List Akm) (mfpRequired : Bool) :
    Security.fromAkms akms mfpRequired ≠ some .open := by
  unfold Security.fromAkms
  dsimp only
  split_ifs <;> simp

/-- **Nothing that was read makes a network open.** -/
theorem classify_open_iff (rsn : Option RsnIe) (wpa : Option WpaIe) (privacy : Bool) :
    Security.classify rsn wpa privacy = .open ↔
      Security.ofRsn rsn = none ∧ wpa = none ∧ privacy = false := by
  unfold Security.classify
  cases hrsn : Security.ofRsn rsn with
  | some security =>
    obtain ⟨ie, -, hie⟩ := Option.bind_eq_some_iff.mp hrsn
    have hne : security ≠ .open := fun h => fromAkms_ne_open _ _ (h ▸ hie)
    simp [hne]
  | none =>
    cases wpa with
    | some wpa =>
      dsimp only
      split_ifs <;> simp
    | none => cases privacy <;> simp

end Caw
