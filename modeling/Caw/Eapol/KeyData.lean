import Caw.Eapol.Frame
import Caw.Lib.Walk

/-!
# Key Data

The elements of a decrypted Key Data field as an authenticator writes them, and what is read of them.

* `KeyDataItems.next`, **`keyDataItems_eq`**: the iterator, and that it stops;
* `KeyData.Element`, `KeyData.padding`: an element that is not empty, and what fills the key wrap up;
* `KeyDataItem.raw`, **`flatMap_keyDataItems`**: the octets of an item, which lie in the field;
* **`KeyData.keyDataItems_field`**: the elements are read back;
* **`KeyData.keyData_read`**: with the first GTK and the first RSN element among them.
-/

set_option autoImplicit false

namespace Caw

open Eapol (Error)

/-! ## The iterator -/

/-- One element off the front. -/
def KeyDataItems.next : Bytes → Option (KeyDataItem × Bytes)
  | id :: len :: rest =>
    if len = 0 ∨ rest.length < len.toNat then none
    else some (.ofElement id len (rest.take len.toNat), rest.drop len.toNat)
  | _ => none

theorem shrinks_keyDataItems : Walk.Shrinks KeyDataItems.next := by
  intro b item rest h
  unfold KeyDataItems.next at h
  split at h
  · split_ifs at h
    cases h
    simp only [List.length_drop, List.length_cons]
    omega
  · cases h

/-- **The items are those of the iterator**, which has stopped after them. -/
theorem keyDataItems_eq (data : Bytes) :
    keyDataItems data = Walk.items KeyDataItems.next data.length data := by
  induction hlen : data.length using Nat.strongRecOn generalizing data with
  | ind n ih =>
    subst hlen
    rw [Walk.items_eq shrinks_keyDataItems, keyDataItems.eq_def]
    rcases data with _ | ⟨id, _ | ⟨len, rest⟩⟩
    · rfl
    · rfl
    · rw [KeyDataItems.next]
      simp only
      by_cases hend : len = 0 ∨ rest.length < len.toNat
      · rw [if_pos hend, if_pos hend]
      · rw [if_neg hend, if_neg hend]
        refine congrArg (_ :: ·) (ih _ ?_ _ rfl)
        simp only [List.length_drop, List.length_cons]
        omega

/-- The octets an item stands for. -/
def KeyDataItem.raw : KeyDataItem → Bytes
  | .kde oui dataType data => eidVendor :: UInt8.ofNat (4 + data.length) :: (oui ++ dataType :: data)
  | .ie _ raw => raw

/-- **An item keeps every octet of its element.** -/
theorem KeyDataItem.raw_ofElement {id len : UInt8} {payload : Bytes}
    (hlen : payload.length = len.toNat) :
    (KeyDataItem.ofElement id len payload).raw = id :: len :: payload := by
  unfold KeyDataItem.ofElement
  split_ifs with hid
  · rcases payload with _ | ⟨a, _ | ⟨b, _ | ⟨c, _ | ⟨dataType, data⟩⟩⟩⟩
    · rfl
    · rfl
    · rfl
    · rfl
    · have hval : UInt8.ofNat (4 + data.length) = len := by
        apply UInt8.toNat_inj.mp
        have hlt := len.toNat_lt
        simp only [List.length_cons] at hlen
        rw [UInt8.toNat_ofNat_of_lt' (show 4 + data.length < 256 by omega)]
        omega
      rw [raw, hval, hid]
      rfl
  · rfl

theorem raw_next {b : Bytes} {item : KeyDataItem} {rest : Bytes}
    (h : KeyDataItems.next b = some (item, rest)) : b = item.raw ++ rest := by
  unfold KeyDataItems.next at h
  split at h
  · split_ifs at h with hend
    cases h
    rw [KeyDataItem.raw_ofElement (by rw [List.length_take]; omega), List.cons_append,
      List.cons_append, List.take_append_drop]
  · cases h

/-- **No item reaches past the end**: they make up the field one after another, up to where the iterator
stops. -/
theorem flatMap_keyDataItems (data : Bytes) : (keyDataItems data).flatMap KeyDataItem.raw ++
    Walk.left KeyDataItems.next data.length data = data := by
  rw [keyDataItems_eq]
  exact Walk.flatMap_raw (fun _ _ _ => raw_next) _ data

/-! ## What is written -/

namespace KeyData

/-- An element with a body. -/
structure Element where
  id : UInt8
  body : Bytes
  ne_nil : body ≠ []
  fits : body.length < 256

/-- The element with its header. -/
def Element.raw (e : Element) : Bytes := e.id :: UInt8.ofNat e.body.length :: e.body

/-- What fills the field up: nothing, or one octet and zeros behind it. -/
def padding : Option ℕ → Bytes
  | none => []
  | some zeros => 0xdd :: List.replicate zeros 0

/-- The field with these elements. -/
def field (elements : List Element) (pad : Option ℕ) : Bytes :=
  elements.flatMap Element.raw ++ padding pad

namespace Element

/-- The element is a KDE of the vendor who numbers the group keys. -/
def gtkBody (e : Element) : Option Bytes :=
  if e.id = eidVendor ∧ e.body.take 4 = ouiIeee ++ [kdeGtk] then some (e.body.drop 4) else none

/-- What the element is read as. -/
def item (e : Element) : KeyDataItem :=
  if e.id = eidVendor ∧ 4 ≤ e.body.length then
    .kde (e.body.take 3) (e.body.getD 3 0) (e.body.drop 4)
  else .ie e.id e.raw

theorem toNat_length (e : Element) : (UInt8.ofNat e.body.length).toNat = e.body.length :=
  UInt8.toNat_ofNat_of_lt' e.fits

theorem length_ne_zero (e : Element) : UInt8.ofNat e.body.length ≠ 0 := by
  intro h
  have hlen := e.toNat_length
  rw [h] at hlen
  exact e.ne_nil (List.eq_nil_of_length_eq_zero hlen.symm)

theorem ofElement_eq (e : Element) :
    KeyDataItem.ofElement e.id (UInt8.ofNat e.body.length) e.body = e.item := by
  unfold KeyDataItem.ofElement
  rw [item, raw]
  by_cases hid : e.id = eidVendor
  · rw [if_pos hid]
    rcases e.body with _ | ⟨a, _ | ⟨b, _ | ⟨c, _ | ⟨dataType, data⟩⟩⟩⟩ <;> simp [hid]
  · rw [if_neg hid, if_neg fun h => hid h.1]

theorem raw_item (e : Element) : e.item.raw = e.raw := by
  rw [← ofElement_eq, KeyDataItem.raw_ofElement e.toNat_length.symm]
  rfl

end Element

theorem keyDataItems_padding (pad : Option ℕ) : keyDataItems (padding pad) = [] := by
  rw [keyDataItems.eq_def]
  rcases pad with _ | _ | zeros
  · rfl
  · rfl
  · exact if_pos (.inl rfl)

/-- **The elements are read back**, whatever fills the field up. -/
theorem keyDataItems_field (elements : List Element) (pad : Option ℕ) :
    keyDataItems (field elements pad) = elements.map Element.item := by
  induction elements with
  | nil => exact keyDataItems_padding pad
  | cons e elements ih =>
    have hcons : field (e :: elements) pad =
        e.id :: UInt8.ofNat e.body.length :: (e.body ++ field elements pad) := by
      simp [field, Element.raw]
    rw [hcons, keyDataItems_cons _ _ _ _ e.toNat_length.symm e.length_ne_zero, e.ofElement_eq, ih,
      List.map_cons]

theorem gtkKde_field (elements : List Element) (pad : Option ℕ) :
    gtkKde (field elements pad) = match elements.findSome? Element.gtkBody with
      | some body => Gtk.ofKde body
      | none => .error .gtkMissing := by
  have hbody : ∀ e : Element, (match e.item with
      | .kde oui dataType data => if oui = ouiIeee ∧ dataType = kdeGtk then some data else none
      | .ie _ _ => none) = e.gtkBody := by
    intro e
    rw [Element.item, Element.gtkBody]
    by_cases hid : e.id = eidVendor
    · rcases e.body with _ | ⟨a, _ | ⟨b, _ | ⟨c, _ | ⟨dataType, data⟩⟩⟩⟩ <;>
        simp [hid, ouiIeee, and_assoc]
    · rw [if_neg fun h => hid h.1, if_neg fun h => hid h.1]
  rw [gtkKde, keyDataItems_field, List.findSome?_map]
  exact congrArg (fun found => match found with
    | some body => Gtk.ofKde body
    | none => .error .gtkMissing) (congrArg (elements.findSome? ·) (funext hbody))

theorem rsnElement_field (elements : List Element) (pad : Option ℕ) :
    rsnElement (field elements pad) =
      (elements.find? fun e => e.id = eidRsn).map Element.raw := by
  rw [rsnElement, keyDataItems_field, List.findSome?_map]
  induction elements with
  | nil => rfl
  | cons e elements ih =>
    by_cases hid : e.id = eidRsn
    · have hitem : e.item = .ie e.id e.raw := by
        rw [Element.item, if_neg fun h => absurd (h.1.symm.trans hid) (by decide)]
      simp [hitem, hid]
    · have hskip : e.item = .ie e.id e.raw ∨ ∃ oui dataType data, e.item = .kde oui dataType data := by
        rw [Element.item]
        split_ifs with hkde
        · exact .inr ⟨_, _, _, rfl⟩
        · exact .inl rfl
      rcases hskip with hitem | ⟨oui, dataType, data, hitem⟩
      · simpa [hitem, hid] using ih
      · simpa [hitem, hid] using ih

/-- **What is read of Key Data.** The elements written, each with its own octets, whatever fills the
field up, and the first GTK and the first RSN element among them; and of any octets at all the items are
parts of the field, up to where the iterator stops. -/
theorem keyData_read :
    (∀ (elements : List Element) (pad : Option ℕ),
      keyDataItems (field elements pad) = elements.map Element.item ∧
      (keyDataItems (field elements pad)).map KeyDataItem.raw = elements.map Element.raw ∧
      gtkKde (field elements pad) = (match elements.findSome? Element.gtkBody with
        | some body => Gtk.ofKde body
        | none => .error .gtkMissing) ∧
      rsnElement (field elements pad) =
        (elements.find? fun e => e.id = eidRsn).map Element.raw) ∧
    ∀ data, keyDataItems data = Walk.items KeyDataItems.next data.length data ∧
      KeyDataItems.next (Walk.left KeyDataItems.next data.length data) = none ∧
      (keyDataItems data).flatMap KeyDataItem.raw ++ Walk.left KeyDataItems.next data.length data =
        data := by
  refine ⟨fun elements pad => ⟨keyDataItems_field elements pad, ?_, gtkKde_field elements pad,
    rsnElement_field elements pad⟩, fun data => ⟨keyDataItems_eq data,
    Walk.next_left shrinks_keyDataItems le_rfl, flatMap_keyDataItems data⟩⟩
  rw [keyDataItems_field, List.map_map]
  exact congrArg (elements.map ·) (funext Element.raw_item)

end KeyData

end Caw
