import Caw.Dot11.Elements

/-!
# The first element of a kind

A beacon names its network, its channel and its security once. Where it does so twice, the first
element is to be taken, whatever follows it.

* `first`: the first element of a kind among the whole elements of a body;
* `elements_append`, `exists_completion`: what octets behind a body can add to it;
* `findSome?_of_find?`, **`settled_iff`**: where the first element of a kind settles what is read of it;
* `FirstWins`, `FirstsLegible`, **`first_wins_iff`**: the first elements settle the beacon exactly where
  they can be read;
* `first_wins_fails`: a second RSN element behind one of another version.
-/

set_option autoImplicit false

namespace Caw

open Dot11

/-! ## Octets behind a body -/

theorem Ies.shrinks : Walk.Shrinks Ies.next := by
  intro b el rest h
  obtain ⟨len, hraw, -, hb⟩ := Ies.next_eq_some h
  rw [hb, hraw, List.length_append, List.length_cons]
  omega

theorem Ies.next_grow (b : Bytes) (el : Element) (rest more : Bytes)
    (h : Ies.next b = some (el, rest)) : Ies.next (b ++ more) = some (el, rest ++ more) := by
  match b, h with
  | id :: len :: tail, h =>
    rw [next] at h
    split_ifs at h with hlt
    have hle : len.toNat ≤ tail.length := Nat.le_of_not_lt hlt
    have hlt' : ¬ (tail ++ more).length < len.toNat := by
      rw [List.length_append]
      omega
    cases h
    rw [List.cons_append, List.cons_append, next, if_neg hlt', List.take_append_of_le_length hle,
      List.drop_append_of_le_length hle]

/-- **The elements of a body stay what they are.** -/
theorem elements_append (body more : Bytes) : elements (body ++ more) =
    elements body ++ elements (Walk.left Ies.next body.length body ++ more) :=
  Walk.items_append Ies.shrinks Ies.next_grow body more

theorem elements_of_next {b rest : Bytes} {el : Element} (h : Ies.next b = some (el, rest)) :
    elements b = el :: elements rest := by
  rw [elements, Walk.items_eq Ies.shrinks, h]
  rfl

theorem exists_completion (body : Bytes) : ∃ pad, ∀ more, ∃ between,
    elements (body ++ (pad ++ more)) = elements body ++ between ++ elements more := by
  have hleft := Walk.next_left Ies.shrinks (le_refl body.length)
  suffices hpad : ∀ b, Ies.next b = none → ∃ pad, ∀ more, ∃ between,
      elements (b ++ (pad ++ more)) = between ++ elements more by
    obtain ⟨pad, hpad⟩ := hpad _ hleft
    refine ⟨pad, fun more => ?_⟩
    obtain ⟨between, hbetween⟩ := hpad more
    exact ⟨between, by rw [elements_append, hbetween, List.append_assoc]⟩
  intro b hb
  match b, hb with
  | [], _ => exact ⟨[], fun more => ⟨[], rfl⟩⟩
  | [id], _ =>
    refine ⟨[0], fun more => ⟨[{ id, payload := [], raw := [id, 0] }], ?_⟩⟩
    exact elements_of_next rfl
  | id :: len :: tail, hb =>
    have hlt : tail.length < len.toNat := by
      rw [Ies.next] at hb
      split_ifs at hb with hlt
      exact hlt
    let zeros := List.replicate (len.toNat - tail.length) (0 : UInt8)
    have hlen : (tail ++ zeros).length = len.toNat := by
      rw [List.length_append, List.length_replicate]
      omega
    refine ⟨zeros, fun more => ?_⟩
    have hnext : Ies.next (id :: len :: tail ++ (zeros ++ more)) =
        some (⟨id, tail ++ zeros, id :: len :: (tail ++ zeros)⟩, more) := by
      have hfits : ¬ (tail ++ zeros ++ more).length < len.toNat := by
        rw [List.length_append, hlen]
        omega
      rw [List.cons_append, List.cons_append, ← List.append_assoc, Ies.next, if_neg hfits,
        List.take_left' hlen, List.drop_left' hlen]
    exact ⟨[_], elements_of_next hnext⟩

/-! ## The first of a kind -/

section First

variable {α β : Type} {p : α → Bool} {f : α → Option β} {l : List α} {a : α}

/-- **The first of a kind is the one that is read**, where it can be. -/
theorem findSome?_of_find? (hkind : ∀ b ∈ l, (f b).isSome = true → p b = true)
    (h : l.find? p = some a) (ha : (f a).isSome = true) (more : List α) :
    (l ++ more).findSome? f = f a := by
  obtain ⟨hp, before, after, rfl, hbefore⟩ := List.find?_eq_some_iff_append.mp h
  have hnone : before.findSome? f = none := by
    rw [List.findSome?_eq_none_iff]
    intro b hb
    have hb' := hkind b (List.mem_append_left _ hb)
    have hno := hbefore b hb
    rw [← Option.not_isSome_iff_eq_none]
    intro hsome
    simp [hb' hsome] at hno
  obtain ⟨v, hv⟩ := Option.isSome_iff_exists.mp ha
  rw [List.append_assoc, List.findSome?_append, hnone, Option.none_or, List.cons_append,
    List.findSome?_cons, hv]

end First

/-- The first element of a kind among the whole elements of a body. -/
def first (kind : Element → Bool) (body : Bytes) : Option Element := (elements body).find? kind

variable {β : Type} {kind : Element → Bool} {f : Element → Option β} {body : Bytes}

/-- **The first element settles what is read of its kind**, whatever comes behind the body, exactly
where it can be read itself. -/
theorem settled_iff (body : Bytes)
    (hkind : ∀ el : Element, el.Whole → (f el).isSome = true → kind el = true)
    (hlegible : ∃ octets el, elements octets = [el] ∧ (f el).isSome = true) :
    (∀ el, first kind body = some el → ∀ more, (elements (body ++ more)).findSome? f = f el) ↔
      ∀ el, first kind body = some el → (f el).isSome = true := by
  constructor
  · intro h el hel
    obtain ⟨octets, good, hgood, hsome⟩ := hlegible
    obtain ⟨pad, hpad⟩ := exists_completion body
    obtain ⟨between, heq⟩ := hpad octets
    rw [← h el hel (pad ++ octets), heq, List.findSome?_isSome_iff]
    exact ⟨good, by rw [hgood]; exact List.mem_append_right _ List.mem_cons_self, hsome⟩
  · intro h el hel more
    rw [elements_append]
    exact findSome?_of_find? (fun b hb => hkind b (whole_of_mem hb)) hel (h el hel) _

/-! ## The four of a beacon -/

/-- What an element is worth as an SSID. -/
def ssidOf (el : Element) : Option Bytes := if el.id = Dot11.eidSsid then some el.payload else none

/-- And as a channel. -/
def channelOf (el : Element) : Option UInt8 :=
  if el.id = Dot11.eidDsParams then el.payload.head? else none

theorem add_ssid (out : BeaconIes) (el : Element) :
    (out.add el).ssid = out.ssid.or (ssidOf el) := by
  have hids : Dot11.eidDsParams ≠ Dot11.eidSsid ∧ Dot11.eidRsn ≠ Dot11.eidSsid ∧
      Dot11.eidVendor ≠ Dot11.eidSsid := by decide
  unfold BeaconIes.add ssidOf
  cases hssid : out.ssid <;> split_ifs <;> simp_all

theorem add_channel (out : BeaconIes) (el : Element) :
    (out.add el).channel = out.channel.or (channelOf el) := by
  have hids : Dot11.eidSsid ≠ Dot11.eidDsParams ∧ Dot11.eidRsn ≠ Dot11.eidDsParams ∧
      Dot11.eidVendor ≠ Dot11.eidDsParams := by decide
  unfold BeaconIes.add channelOf
  cases hchannel : out.channel <;> split_ifs <;> simp_all

theorem parse_ssid (body : Bytes) :
    (BeaconIes.parse body).ssid = (elements body).findSome? ssidOf :=
  foldl_field add_ssid _ _

theorem parse_channel (body : Bytes) :
    (BeaconIes.parse body).channel = (elements body).findSome? channelOf :=
  foldl_field add_channel _ _

/-- The element of a WPA1 network, whatever follows its type. -/
def isWpa1 (el : Element) : Bool := el.id = Dot11.eidVendor && el.payload.take 4 = wpa1Prefix

theorem isWpa1_iff {el : Element} :
    isWpa1 el = true ↔ el.id = Dot11.eidVendor ∧ el.payload.take 4 = wpa1Prefix := by
  simp [isWpa1]

theorem isWpa1_of_legible {el : Element}
    (h : el.id = Dot11.eidVendor ∧ el.payload.take 6 = wpa1Prefix ++ [1, 0]) : isWpa1 el = true := by
  have htake : el.payload.take 4 = (el.payload.take 6).take 4 := by rw [List.take_take]; rfl
  rw [isWpa1_iff, htake, h.2]
  exact ⟨h.1, rfl⟩

/-- **The first occurrence wins**: what is read of a body is what its first element of each kind says,
whatever comes behind it, be it good or bad. -/
structure FirstWins (body : Bytes) : Prop where
  ssid : ∀ el, first (fun el => el.id = Dot11.eidSsid) body = some el → ∀ more,
    (BeaconIes.parse (body ++ more)).ssid = some el.payload
  channel : ∀ el, first (fun el => el.id = Dot11.eidDsParams) body = some el → ∀ more,
    (BeaconIes.parse (body ++ more)).channel = el.payload.head?
  rsn : ∀ el, first (fun el => el.id = Dot11.eidRsn) body = some el → ∀ more,
    (BeaconIes.parse (body ++ more)).rsn = (RsnIe.parse el.raw).toOption
  wpa : ∀ el, first isWpa1 body = some el → ∀ more,
    (BeaconIes.parse (body ++ more)).wpa = (WpaIe.parse el.raw).toOption

/-- The first channel is there, and the first security elements are of the version there is. -/
structure FirstsLegible (body : Bytes) : Prop where
  channel : ∀ el, first (fun el => el.id = Dot11.eidDsParams) body = some el → el.payload ≠ []
  rsn : ∀ el, first (fun el => el.id = Dot11.eidRsn) body = some el → el.payload.take 2 = [1, 0]
  wpa : ∀ el, first isWpa1 body = some el → el.payload.take 6 = wpa1Prefix ++ [1, 0]

theorem of_first {el : Element} (h : first kind body = some el) : el.Whole ∧ kind el = true :=
  ⟨whole_of_mem (List.mem_of_find?_eq_some h), List.find?_some h⟩

/-- **A field of the beacon is settled by the first element of its kind** exactly where that element is
legible. -/
theorem field_settled_iff (body : Bytes) (field : BeaconIes → Option β) (f : Element → Option β)
    (kind : Element → Bool) (worth : Element → Option β) (Legible : Element → Prop)
    (hparse : ∀ body, field (BeaconIes.parse body) = (elements body).findSome? f)
    (hkind : ∀ el : Element, el.Whole → (f el).isSome = true → kind el = true)
    (hworth : ∀ el : Element, kind el = true → f el = worth el)
    (hlegible : ∀ el : Element, el.Whole → kind el = true → ((f el).isSome = true ↔ Legible el))
    (hgood : ∃ octets el, elements octets = [el] ∧ (f el).isSome = true) :
    (∀ el, first kind body = some el → ∀ more,
        field (BeaconIes.parse (body ++ more)) = worth el) ↔
      ∀ el, first kind body = some el → Legible el := by
  have hsettled := settled_iff body hkind hgood
  constructor
  · intro h el hel
    obtain ⟨hwhole, hel'⟩ := of_first hel
    refine (hlegible el hwhole hel').mp (hsettled.mp (fun el hel more => ?_) el hel)
    rw [← hparse, h el hel more, hworth el (of_first hel).2]
  · intro h el hel more
    rw [hparse, ← hworth el (of_first hel).2]
    refine hsettled.mpr (fun el hel => ?_) el hel more
    obtain ⟨hwhole, hel'⟩ := of_first hel
    exact (hlegible el hwhole hel').mpr (h el hel)

/-- **The first occurrence wins** exactly where the first elements are legible: whatever the body, and
whatever comes behind it. -/
theorem first_wins_iff (body : Bytes) : FirstWins body ↔ FirstsLegible body := by
  have hssid := field_settled_iff body BeaconIes.ssid ssidOf (fun el => el.id = Dot11.eidSsid)
    (fun el => some el.payload) (fun _ => True) parse_ssid
    (fun el _ h => by by_contra hid; simp_all [ssidOf])
    (fun el h => if_pos (of_decide_eq_true h))
    (fun el _ h => by rw [ssidOf, if_pos (of_decide_eq_true h)]; simp)
    ⟨[0, 0], _, rfl, rfl⟩
  have hchannel := field_settled_iff body BeaconIes.channel channelOf
    (fun el => el.id = Dot11.eidDsParams) (fun el => el.payload.head?) (fun el => el.payload ≠ [])
    parse_channel
    (fun el _ h => by by_contra hid; simp_all [channelOf])
    (fun el h => if_pos (of_decide_eq_true h))
    (fun el _ h => by rw [channelOf, if_pos (of_decide_eq_true h)]; simp)
    ⟨[3, 1, 6], _, rfl, rfl⟩
  have hrsn := field_settled_iff body BeaconIes.rsn rsnOf (fun el => el.id = Dot11.eidRsn)
    (fun el => (RsnIe.parse el.raw).toOption) (fun el => el.payload.take 2 = [1, 0]) parse_rsn
    (fun el hwhole h => decide_eq_true ((rsnOf_isSome hwhole).mp h).1)
    (fun el h => if_pos (of_decide_eq_true h))
    (fun el hwhole h => by rw [rsnOf_isSome hwhole]; exact and_iff_right (of_decide_eq_true h))
    ⟨[48, 2, 1, 0], _, rfl, rfl⟩
  have hwpa := field_settled_iff body BeaconIes.wpa wpaOf isWpa1
    (fun el => (WpaIe.parse el.raw).toOption)
    (fun el => el.payload.take 6 = wpa1Prefix ++ [1, 0]) parse_wpa
    (fun el hwhole h => isWpa1_of_legible ((wpaOf_isSome hwhole).mp h))
    (fun el h => if_pos (isWpa1_iff.mp h).1)
    (fun el hwhole h => by rw [wpaOf_isSome hwhole]; exact and_iff_right (isWpa1_iff.mp h).1)
    ⟨[221, 6, 0x00, 0x50, 0xf2, 1, 1, 0], _, rfl, rfl⟩
  exact ⟨fun h => ⟨hchannel.mp h.channel, hrsn.mp h.rsn, hwpa.mp h.wpa⟩,
    fun h => ⟨hssid.mpr fun _ _ => trivial, hchannel.mpr h.channel, hrsn.mpr h.rsn, hwpa.mpr h.wpa⟩⟩

/-- **A second RSN element is taken** where the first is of another version. -/
theorem first_wins_fails : ¬ ∀ body, FirstWins body := by
  intro h
  have hrsn := (h [48, 2, 2, 0]).rsn _ rfl [48, 2, 1, 0]
  cases hrsn

end Caw
