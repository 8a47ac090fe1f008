import Caw.Lib.Except
import Caw.Lib.Walk
import Caw.Nl80211.Event

/-!
# Netlink framing

Messages and attributes as the kernel's netlink sockets carry them, and the two walks over attributes.

* `Netlink.Message`, `Netlink.Message.parse`: one message off the front of a datagram;
* `Netlink.nextWith`, `Netlink.Attrs.next`, `Nl80211.Attrs.next`: one attribute off a stream;
* `Netlink.MsgBuilder`, `Nl80211.Nest`: the builders;
* **`Netlink.shrinks_nextWith`**, **`Netlink.inOrder_nextWith`**: every step takes octets off, and the
  payloads lie in the stream in order;
* `Nl80211.attrsFrom_eq`: the attribute list of a message body is the same walk.
-/

set_option autoImplicit false

namespace Caw

open Nl80211 (Attr align attrHdrLen genlHdrlen typeMask)

namespace Netlink

/-- Length of `struct nlmsghdr`. -/
abbrev hdrLen : ℕ := 16

/-- What can go wrong with a socket or a message. -/
inductive Error where
  | io (errno : ℕ)
  | truncated
  | shortSend
  | overrun
  | kernel (errno : Int32)
deriving DecidableEq

/-! ## Messages -/

/-- The header fields of a message, and everything after the header. -/
structure Message where
  len : UInt32
  kind : UInt16
  flags : UInt16
  seq : UInt32
  pid : UInt32
  payload : Bytes
deriving DecidableEq

/-- Read one message off the front. -/
def Message.parse (buf : Bytes) : Except Error Message :=
  if buf.length < hdrLen then .error .truncated
  else
    let len := UInt32.ofNat (Bytes.ofLE (Bytes.slice 0 4 buf).toList)
    if len.toNat < hdrLen ∨ buf.length < len.toNat then .error .truncated
    else .ok
      { len := len
        kind := UInt16.ofNat (Bytes.ofLE (Bytes.slice 4 2 buf).toList)
        flags := UInt16.ofNat (Bytes.ofLE (Bytes.slice 6 2 buf).toList)
        seq := UInt32.ofNat (Bytes.ofLE (Bytes.slice 8 4 buf).toList)
        pid := UInt32.ofNat (Bytes.ofLE (Bytes.slice 12 4 buf).toList)
        payload := (buf.take len.toNat).drop hdrLen }

/-! ## Attributes -/

/-- The next attribute of a stream, its type read through `mask`. -/
def nextWith (mask : ℕ → ℕ) (rest : Bytes) : Option (Attr × Bytes) :=
  if rest.length < attrHdrLen then none
  else
    let len := Bytes.ofLE (Bytes.slice 0 2 rest).toList
    let kind := Bytes.ofLE (Bytes.slice 2 2 rest).toList
    if len < attrHdrLen ∨ rest.length < len then none
    else some ({ kind := mask kind, payload := (rest.take len).drop attrHdrLen },
      rest.drop (min (align len) rest.length))

/-- The walk over a message's own attributes: the type as it is on the wire. -/
def Attrs.next : Bytes → Option (Attr × Bytes) := nextWith id

/-- The attributes of a message behind a fixed family header. -/
def Message.attrs (msg : Message) (familyHeaderLen : ℕ) : List Attr :=
  let rest := msg.payload.drop (min (align familyHeaderLen) msg.payload.length)
  Walk.items Attrs.next rest.length rest

/-! ## Building -/

/-- Zero octets up to the next multiple of four. -/
def pad (buf : Bytes) : Bytes := buf ++ List.replicate (align buf.length - buf.length) 0

/-- An attribute appended to what is built so far: length, type, payload, padding. -/
def pushAttr (buf : Bytes) (kind : UInt16) (data : Bytes) : Bytes :=
  pad (buf ++ Bytes.toLE 2 (attrHdrLen + data.length) ++ Bytes.toLE 2 kind.toNat ++ data)

/-- A message under construction. -/
structure MsgBuilder where
  buf : Bytes
deriving DecidableEq

namespace MsgBuilder

/-- The length is patched in by `finish`; the kernel fills in the port. -/
def new (kind flags : UInt16) (seq : UInt32) : MsgBuilder :=
  ⟨Bytes.toLE 4 0 ++ Bytes.toLE 2 kind.toNat ++ Bytes.toLE 2 flags.toNat ++
    Bytes.toLE 4 seq.toNat ++ Bytes.toLE 4 0⟩

/-- Append a fixed family header. -/
def header (b : MsgBuilder) (bytes : Bytes) : MsgBuilder := ⟨pad (b.buf ++ bytes)⟩

/-- Append an attribute. -/
def attr (b : MsgBuilder) (kind : UInt16) (data : Bytes) : MsgBuilder := ⟨pushAttr b.buf kind data⟩

/-- Patch in the total length. -/
def finish (b : MsgBuilder) : Bytes := Bytes.splice 0 (Bytes.toLE 4 b.buf.length) b.buf

end MsgBuilder

end Netlink

namespace Nl80211

/-- The walk over a nested attribute or a message body: the flags in a type are masked off. -/
def Attrs.next : Bytes → Option (Attr × Bytes) := Netlink.nextWith typeMask

/-- The attributes of a stream. -/
def Attrs.all (bytes : Bytes) : List Attr := Walk.items Attrs.next bytes.length bytes

/-- The payload of a nested attribute while it is built. -/
structure Nest where
  buf : Bytes
deriving DecidableEq

namespace Nest

/-- An empty nest. -/
def new : Nest := ⟨[]⟩

/-- Append an attribute to a nest. -/
def attr (n : Nest) (kind : UInt16) (data : Bytes) : Nest := ⟨Netlink.pushAttr n.buf kind data⟩

/-- The octets of a nest. -/
def finish (n : Nest) : Bytes := n.buf

end Nest

end Nl80211

/-! ## One message -/

namespace Netlink

namespace Message

/-- The octets of a message. -/
def octets (msg : Message) : Bytes :=
  Bytes.toLE 4 msg.len.toNat ++ (Bytes.toLE 2 msg.kind.toNat ++ (Bytes.toLE 2 msg.flags.toNat ++
    (Bytes.toLE 4 msg.seq.toNat ++ (Bytes.toLE 4 msg.pid.toNat ++ msg.payload))))

/-- The length field counts the header and the payload. -/
def WellFormed (msg : Message) : Prop := msg.len.toNat = hdrLen + msg.payload.length

theorem length_octets {msg : Message} (h : msg.WellFormed) : msg.octets.length = msg.len.toNat := by
  rw [h]
  simp only [octets, List.length_append, Bytes.length_toLE, hdrLen]
  omega

end Message

/-- **A message is read off the front of a datagram.** -/
theorem parse_octets {msg : Message} (h : msg.WellFormed) (rest : Bytes) :
    Message.parse (msg.octets ++ rest) = .ok msg := by
  have hlength := Message.length_octets h
  have hkind : msg.kind.toNat < 2 ^ 16 := msg.kind.toNat_lt
  have hflags : msg.flags.toNat < 2 ^ 16 := msg.flags.toNat_lt
  have hseq : msg.seq.toNat < 2 ^ 32 := msg.seq.toNat_lt
  have hpid : msg.pid.toNat < 2 ^ 32 := msg.pid.toNat_lt
  have hlen : msg.len.toNat < 2 ^ 32 := msg.len.toNat_lt
  have hhdr : hdrLen ≤ msg.len.toNat := h ▸ Nat.le_add_right _ _
  have heq : msg.octets ++ rest = Bytes.toLE 4 msg.len.toNat ++ (Bytes.toLE 2 msg.kind.toNat ++
      (Bytes.toLE 2 msg.flags.toNat ++ (Bytes.toLE 4 msg.seq.toNat ++
        (Bytes.toLE 4 msg.pid.toNat ++ (msg.payload ++ rest))))) := by
    simp only [Message.octets, List.append_assoc]
  have hread : Bytes.ofLE (Bytes.slice 0 4 (msg.octets ++ rest)).toList = msg.len.toNat := by
    rw [heq, Bytes.ofLE_slice_toLE]
    omega
  have hreadKind : Bytes.ofLE (Bytes.slice 4 2 (msg.octets ++ rest)).toList = msg.kind.toNat := by
    rw [heq, Bytes.ofLE_slice_append 2 _ _ _ (Bytes.length_toLE 4 _)]
    omega
  have hreadFlags : Bytes.ofLE (Bytes.slice 6 2 (msg.octets ++ rest)).toList = msg.flags.toNat := by
    rw [heq, ← List.append_assoc, Bytes.ofLE_slice_append 2 _ _ _ (by simp)]
    omega
  have hreadSeq : Bytes.ofLE (Bytes.slice 8 4 (msg.octets ++ rest)).toList = msg.seq.toNat := by
    rw [heq, ← List.append_assoc, ← List.append_assoc, Bytes.ofLE_slice_append 4 _ _ _ (by simp)]
    omega
  have hreadPid : Bytes.ofLE (Bytes.slice 12 4 (msg.octets ++ rest)).toList = msg.pid.toNat := by
    rw [heq, ← List.append_assoc, ← List.append_assoc, ← List.append_assoc,
      Bytes.ofLE_slice_append 4 _ _ _ (by simp)]
    omega
  have hpayload : ((msg.octets ++ rest).take msg.len.toNat).drop hdrLen = msg.payload := by
    rw [List.take_left' hlength, Message.octets, ← List.append_assoc, ← List.append_assoc,
      ← List.append_assoc, ← List.append_assoc]
    exact List.drop_left' (by simp)
  rw [Message.parse, List.length_append, hlength, if_neg (by omega)]
  simp only [hread, hreadKind, hreadFlags, hreadSeq, hreadPid, hpayload, UInt16.ofNat_toNat,
    UInt32.ofNat_toNat]
  rw [if_neg (by omega)]

/-- **A message cut off behind its header is not read.** -/
theorem parse_cut {msg : Message} (h : msg.WellFormed) {n : ℕ} (hhdr : hdrLen ≤ n)
    (hcut : n < msg.len.toNat) : Message.parse (msg.octets.take n) = .error .truncated := by
  have hlen : msg.len.toNat < 2 ^ 32 := msg.len.toNat_lt
  have hsize : hdrLen = 16 := rfl
  have htake : (msg.octets.take n).length = n := by
    rw [List.length_take, Message.length_octets h]
    omega
  have hread : Bytes.ofLE (Bytes.slice 0 4 (msg.octets.take n)).toList = msg.len.toNat := by
    rw [Message.octets, List.take_append, List.take_of_length_le (by simp; omega),
      Bytes.ofLE_slice_toLE]
    omega
  rw [Message.parse, htake, if_neg (by omega)]
  simp only [hread, UInt32.ofNat_toNat]
  rw [if_pos (Or.inr hcut)]

end Netlink

/-! ## One step of a walk -/

namespace Netlink

theorem le_align (n : ℕ) : n ≤ align n := by
  rw [align]
  omega

theorem align_mod (n : ℕ) : align n % 4 = 0 := by
  rw [align]
  omega

theorem align_add {n : ℕ} (m : ℕ) (h : n % 4 = 0) : align (n + m) = n + align m := by
  simp only [align]
  omega

theorem nextWith_eq_some {mask : ℕ → ℕ} {b rest : Bytes} {a : Attr}
    (h : nextWith mask b = some (a, rest)) :
    ∃ len, attrHdrLen ≤ len ∧ len ≤ b.length ∧ a.payload = (b.take len).drop attrHdrLen ∧
      rest = b.drop (min (align len) b.length) := by
  rw [nextWith] at h
  split_ifs at h with hshort
  dsimp only at h
  split_ifs at h with hlen
  obtain ⟨rfl, rfl⟩ := Prod.mk.inj (Option.some_inj.mp h)
  rw [not_or, not_lt, not_lt] at hlen
  exact ⟨_, hlen.1, hlen.2, rfl, rfl⟩

/-- **Every attribute takes octets off the stream**, so a walk ends. -/
theorem shrinks_nextWith (mask : ℕ → ℕ) : Walk.Shrinks (nextWith mask) := by
  intro b a rest h
  obtain ⟨len, hlow, hhigh, -, rfl⟩ := nextWith_eq_some h
  have halign := le_align len
  have hpos : 0 < attrHdrLen := by decide
  rw [List.length_drop]
  omega

/-- **The payload of an attribute lies in front of what is left of the stream.** -/
theorem inOrder_nextWith (mask : ℕ → ℕ) (b : Bytes) (a : Attr) (rest : Bytes)
    (h : nextWith mask b = some (a, rest)) :
    ∃ gap pad, b = gap ++ (a.payload ++ (pad ++ rest)) := by
  obtain ⟨len, hlow, hhigh, hpayload, rfl⟩ := nextWith_eq_some h
  have halign : len ≤ min (align len) b.length := le_min (le_align len) hhigh
  refine ⟨b.take attrHdrLen, (b.drop len).take (min (align len) b.length - len), ?_⟩
  have hpad : b.drop len =
      (b.drop len).take (min (align len) b.length - len) ++ b.drop (min (align len) b.length) := by
    rw [← Nat.add_sub_cancel' halign, ← List.drop_drop, Nat.add_sub_cancel_left,
      List.take_append_drop]
  have hfront : b.take attrHdrLen ++ (b.take len).drop attrHdrLen = b.take len := by
    rw [← min_eq_left hlow, ← List.take_take, min_eq_left hlow, List.take_append_drop]
  rw [← hpad, hpayload, ← List.append_assoc, hfront, List.take_append_drop]

/-! ## Attributes written -/

theorem length_pad (b : Bytes) : (pad b).length = align b.length := by
  have h := le_align b.length
  rw [pad, List.length_append, List.length_replicate]
  omega

theorem pad_append {a : Bytes} (b : Bytes) (h : a.length % 4 = 0) : pad (a ++ b) = a ++ pad b := by
  rw [pad, pad, List.length_append, align_add _ h, Nat.add_sub_add_left, List.append_assoc]

/-- The octets of one attribute. -/
def attrOctets (kind : UInt16) (data : Bytes) : Bytes := pushAttr [] kind data

theorem pushAttr_eq {buf : Bytes} (h : buf.length % 4 = 0) (kind : UInt16) (data : Bytes) :
    pushAttr buf kind data = buf ++ attrOctets kind data := by
  simp only [attrOctets, pushAttr, List.append_assoc, List.nil_append]
  exact pad_append _ h

theorem length_pushAttr_mod (buf : Bytes) (kind : UInt16) (data : Bytes) :
    (pushAttr buf kind data).length % 4 = 0 := by
  rw [pushAttr, length_pad]
  exact align_mod _

theorem attrOctets_eq (kind : UInt16) (data : Bytes) :
    attrOctets kind data = Bytes.toLE 2 (attrHdrLen + data.length) ++ (Bytes.toLE 2 kind.toNat ++
      (data ++ List.replicate (align (attrHdrLen + data.length) - (attrHdrLen + data.length)) 0)) := by
  have hlen : 2 + (2 + data.length) = attrHdrLen + data.length := by rw [← Nat.add_assoc]
  simp only [attrOctets, pushAttr, pad, List.length_append, Bytes.length_toLE, List.nil_append,
    List.append_assoc, hlen]

theorem length_attrOctets (kind : UInt16) (data : Bytes) :
    (attrOctets kind data).length = align (attrHdrLen + data.length) := by
  have halign := le_align (attrHdrLen + data.length)
  have hhdr : attrHdrLen = 4 := rfl
  simp only [attrOctets_eq, List.length_append, Bytes.length_toLE, List.length_replicate]
  omega

/-- **An attribute written is the next one read.** -/
theorem nextWith_attrOctets (mask : ℕ → ℕ) {kind : UInt16} {data : Bytes}
    (hdata : data.length ≤ 65531) (rest : Bytes) :
    nextWith mask (attrOctets kind data ++ rest) = some (⟨mask kind.toNat, data⟩, rest) := by
  have hhdr : attrHdrLen = 4 := rfl
  have hkind : kind.toNat < 65536 := kind.toNat_lt
  have hoctets := attrOctets_eq kind data
  have hfull := length_attrOctets kind data
  generalize hlen : attrHdrLen + data.length = len at hoctets hfull
  generalize List.replicate (align len - len) (0 : UInt8) = zeros at hoctets
  have halign := le_align len
  have hread : Bytes.ofLE (Bytes.slice 0 2 (attrOctets kind data ++ rest)).toList = len := by
    rw [hoctets, List.append_assoc, Bytes.ofLE_slice_toLE]
    omega
  have hreadKind : Bytes.ofLE (Bytes.slice 2 2 (attrOctets kind data ++ rest)).toList =
      kind.toNat := by
    rw [hoctets, List.append_assoc, List.append_assoc,
      Bytes.ofLE_slice_append 2 _ _ _ (Bytes.length_toLE 2 len)]
    omega
  have hpayload : ((attrOctets kind data ++ rest).take len).drop attrHdrLen = data := by
    have hfront : (Bytes.toLE 2 len ++ Bytes.toLE 2 kind.toNat).length = attrHdrLen := by
      rw [List.length_append, Bytes.length_toLE, Bytes.length_toLE]
    rw [hoctets, List.append_assoc, List.append_assoc, List.append_assoc, ← List.append_assoc,
      List.drop_take, List.drop_left' hfront, ← hlen, Nat.add_sub_cancel_left, List.take_left]
  have hrest : (attrOctets kind data ++ rest).drop (min (align len)
      (align len + rest.length)) = rest := by
    rw [min_eq_left (Nat.le_add_right _ _)]
    exact List.drop_left' hfull
  rw [nextWith, List.length_append, hfull, if_neg (by omega)]
  simp only [hread, hreadKind, hpayload, hrest]
  rw [if_neg (by omega)]

end Netlink

/-! ## The walk over a message body -/

namespace Nl80211

theorem next_cons (l0 l1 k0 k1 : UInt8) (rest : Bytes) :
    Attrs.next (l0 :: l1 :: k0 :: k1 :: rest) =
      let len := Bytes.ofLE [l0, l1]
      if len < attrHdrLen ∨ attrHdrLen + rest.length < len then none
      else some (⟨typeMask (Bytes.ofLE [k0, k1]), rest.take (len - attrHdrLen)⟩,
        rest.drop (align len - attrHdrLen)) := by
  have hlength : (l0 :: l1 :: k0 :: k1 :: rest).length = attrHdrLen + rest.length := by
    rw [Nat.add_comm]
    rfl
  have hlen : (Bytes.slice 0 2 (l0 :: l1 :: k0 :: k1 :: rest)).toList = [l0, l1] := rfl
  have hkind : (Bytes.slice 2 2 (l0 :: l1 :: k0 :: k1 :: rest)).toList = [k0, k1] := rfl
  rw [Attrs.next, Netlink.nextWith, hlength, if_neg (by omega)]
  simp only [hlen, hkind]
  generalize Bytes.ofLE [l0, l1] = len
  split_ifs with hbad
  · rfl
  · have halign := Netlink.le_align len
    have hdrop : ∀ n, attrHdrLen ≤ n →
        (l0 :: l1 :: k0 :: k1 :: rest).drop n = rest.drop (n - attrHdrLen) := by
      intro n hn
      obtain ⟨m, rfl⟩ := Nat.exists_eq_add_of_le' hn
      rfl
    rw [List.drop_take, hdrop _ (le_refl _), Nat.sub_self, List.drop_zero, hdrop _ (by omega)]
    congr 2
    rcases le_total (align len) (attrHdrLen + rest.length) with h | h
    · rw [min_eq_left h]
    · rw [min_eq_right h, Nat.add_sub_cancel_left, List.drop_length,
        List.drop_of_length_le (by omega)]

theorem attrsFrom_items (fuel : ℕ) (b : Bytes) :
    attrsFrom fuel b = Walk.items Attrs.next fuel b := by
  induction fuel generalizing b with
  | zero => rfl
  | succ fuel ih =>
    match b with
    | [] | [_] | [_, _] | [_, _, _] => rfl
    | l0 :: l1 :: k0 :: k1 :: rest =>
      rw [attrsFrom, Walk.items, next_cons]
      dsimp only
      split_ifs
      · rfl
      · exact congrArg (_ :: ·) (ih _)

/-- **The attributes of a message body are those of the walk.** -/
theorem attrsFrom_eq (b : Bytes) : attrsFrom b.length b = Attrs.all b := attrsFrom_items b.length b

end Nl80211

end Caw
