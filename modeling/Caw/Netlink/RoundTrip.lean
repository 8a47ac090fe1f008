import Caw.Netlink.Message

/-!
# What the builders write and the walks read

A message is built out of a header and attributes, of which some are nests of attributes themselves.

* `Netlink.Tree`, `Netlink.Tree.payload`: an attribute to be written, and its octets;
* `Netlink.request`: the message of a header and attributes;
* `Netlink.Tree.Fits`: types and payloads a length field and a type field hold;
* `Netlink.Tree.Walked`: both walks yield the attributes of every nest, to any depth;
* `Netlink.all_stream`, **`Netlink.Tree.Fits.walked`**: a walk over the attributes written yields them;
* **`Netlink.round_trip`**: so do the parser and the walks over a message shorter than `2 ^ 32` octets,
  and over any octets at all both walks end and yield parts of them in order;
* `Netlink.length_wraps`: a longer message is read as another.
-/

set_option autoImplicit false

namespace Caw

open Nl80211 (Attr Nest align attrHdrLen genlHdrlen typeMask)

namespace Netlink

/-- The attributes of a stream, their types as they are on the wire. -/
def Attrs.all (bytes : Bytes) : List Attr := Walk.items Attrs.next bytes.length bytes

/-! ## What is built -/

/-- An attribute to be written: with a payload, or with attributes of its own. -/
inductive Tree where
  | leaf (kind : UInt16) (data : Bytes)
  | nest (kind : UInt16) (attrs : List Tree)

namespace Tree

/-- The type of the attribute. -/
def kind : Tree → UInt16
  | leaf kind _ => kind
  | nest kind _ => kind

mutual

/-- The octets a builder is handed for an attribute. -/
def payload : Tree → Bytes
  | leaf _ data => data
  | nest _ attrs => (addTo Nest.new attrs).finish

/-- A nest with the attributes added one by one. -/
def addTo (n : Nest) : List Tree → Nest
  | [] => n
  | t :: attrs => addTo (n.attr t.kind t.payload) attrs

end

/-- An attribute as a walk yields it. -/
def attr (t : Tree) : Attr := ⟨t.kind.toNat, t.payload⟩

/-- A type below the flags and a payload the length field holds, to any depth. -/
inductive Fits : Tree → Prop
  | leaf {kind : UInt16} {data : Bytes} : kind.toNat < 0x4000 → data.length ≤ 65531 →
      Fits (leaf kind data)
  | nest {kind : UInt16} {attrs : List Tree} : kind.toNat < 0x4000 →
      (nest kind attrs).payload.length ≤ 65531 → (∀ t ∈ attrs, Fits t) → Fits (nest kind attrs)

/-- Both walks over the payload of every nest yield what was put in it. -/
inductive Walked : Tree → Prop
  | leaf (kind : UInt16) (data : Bytes) : Walked (leaf kind data)
  | nest {kind : UInt16} {attrs : List Tree} :
      Attrs.all (nest kind attrs).payload = attrs.map attr →
      Nl80211.Attrs.all (nest kind attrs).payload = attrs.map attr →
      (∀ t ∈ attrs, Walked t) → Walked (nest kind attrs)

end Tree

/-- The message of a family header and attributes. -/
def request (kind flags : UInt16) (seq : UInt32) (header : Bytes) (attrs : List Tree) : Bytes :=
  (attrs.foldl (fun b t => b.attr t.kind t.payload) ((MsgBuilder.new kind flags seq).header header)).finish

/-! ## The octets written -/

/-- The octets of the attributes, one after another. -/
def stream (attrs : List Tree) : Bytes := attrs.flatMap fun t => attrOctets t.kind t.payload

theorem addTo_eq (n : Nest) (hn : n.buf.length % 4 = 0) (attrs : List Tree) :
    (Tree.addTo n attrs).buf = n.buf ++ stream attrs := by
  induction attrs generalizing n with
  | nil => rw [Tree.addTo, stream, List.flatMap_nil, List.append_nil]
  | cons t attrs ih =>
    have hattr : (n.attr t.kind t.payload).buf = n.buf ++ attrOctets t.kind t.payload :=
      pushAttr_eq hn _ _
    have hmod : (n.attr t.kind t.payload).buf.length % 4 = 0 := length_pushAttr_mod _ _ _
    rw [Tree.addTo, ih _ hmod, hattr, List.append_assoc]
    rfl

theorem payload_nest (kind : UInt16) (attrs : List Tree) :
    (Tree.nest kind attrs).payload = stream attrs := by
  rw [Tree.payload]
  exact addTo_eq Nest.new rfl attrs

theorem foldl_attr_eq (b : MsgBuilder) (hb : b.buf.length % 4 = 0) (attrs : List Tree) :
    (attrs.foldl (fun b t => b.attr t.kind t.payload) b).buf = b.buf ++ stream attrs := by
  induction attrs generalizing b with
  | nil => rw [List.foldl_nil, stream, List.flatMap_nil, List.append_nil]
  | cons t attrs ih =>
    have hattr : (b.attr t.kind t.payload).buf = b.buf ++ attrOctets t.kind t.payload :=
      pushAttr_eq hb _ _
    have hmod : (b.attr t.kind t.payload).buf.length % 4 = 0 := length_pushAttr_mod _ _ _
    rw [List.foldl_cons, ih _ hmod, hattr, List.append_assoc]
    rfl

/-! ## Walks over what was written -/

theorem Tree.Fits.kind_lt {t : Tree} (h : t.Fits) : t.kind.toNat < 0x4000 := by
  cases h with
  | leaf hkind _ => exact hkind
  | nest hkind _ _ => exact hkind

theorem Tree.Fits.length_le {t : Tree} (h : t.Fits) : t.payload.length ≤ 65531 := by
  cases h with
  | leaf _ hdata => rwa [Tree.payload]
  | nest _ hlen _ => exact hlen

/-- **A walk over the attributes written yields them.** -/
theorem items_stream (mask : ℕ → ℕ) (hmask : ∀ n < 0x4000, mask n = n) {attrs : List Tree}
    (h : ∀ t ∈ attrs, t.Fits) :
    Walk.items (nextWith mask) (stream attrs).length (stream attrs) = attrs.map Tree.attr := by
  refine Walk.items_flatMap (shrinks_nextWith mask) fun t ht rest => ?_
  rw [nextWith_attrOctets mask (h t ht).length_le, hmask _ (h t ht).kind_lt]
  rfl

theorem all_stream {attrs : List Tree} (h : ∀ t ∈ attrs, t.Fits) :
    Attrs.all (stream attrs) = attrs.map Tree.attr ∧
      Nl80211.Attrs.all (stream attrs) = attrs.map Tree.attr :=
  ⟨items_stream id (fun _ _ => rfl) h, items_stream typeMask (fun _ hn => Nat.mod_eq_of_lt hn) h⟩

/-- **To any depth.** -/
theorem Tree.Fits.walked {t : Tree} (h : t.Fits) : t.Walked := by
  induction h with
  | leaf _ _ => exact .leaf _ _
  | nest _ _ hattrs ih =>
    have hall := all_stream hattrs
    rw [← payload_nest] at hall
    exact .nest hall.1 hall.2 ih

/-! ## Whole messages -/

section Messages

variable (kind flags : UInt16) (seq : UInt32) (header : Bytes) (attrs : List Tree)

/-- The length of a message. -/
def requestLen : ℕ := hdrLen + (align header.length + (stream attrs).length)

theorem request_eq : request kind flags seq header attrs =
    Bytes.toLE 4 (requestLen header attrs) ++ (Bytes.toLE 2 kind.toNat ++ (Bytes.toLE 2 flags.toNat ++
      (Bytes.toLE 4 seq.toNat ++ (Bytes.toLE 4 0 ++ (pad header ++ stream attrs))))) := by
  have hnew : (MsgBuilder.new kind flags seq).buf.length = hdrLen := by
    simp only [MsgBuilder.new, List.length_append, Bytes.length_toLE]
  have hheader : ((MsgBuilder.new kind flags seq).header header).buf =
      (MsgBuilder.new kind flags seq).buf ++ pad header :=
    pad_append header (congrArg (· % 4) hnew)
  have hmod : ((MsgBuilder.new kind flags seq).header header).buf.length % 4 = 0 := by
    rw [hheader, List.length_append, hnew, length_pad, hdrLen]
    have halign := align_mod header.length
    omega
  rw [request, MsgBuilder.finish, foldl_attr_eq _ hmod, hheader]
  have hlen : ((MsgBuilder.new kind flags seq).buf ++ pad header ++ stream attrs).length =
      requestLen header attrs := by
    rw [List.length_append, List.length_append, hnew, length_pad, requestLen, Nat.add_assoc]
  rw [hlen]
  simp only [MsgBuilder.new, List.append_assoc]
  exact Bytes.splice_append (Bytes.toLE 4 (requestLen header attrs)) [] (Bytes.toLE 4 0) _ rfl
    (by rw [Bytes.length_toLE, Bytes.length_toLE])

theorem length_request :
    (request kind flags seq header attrs).length = requestLen header attrs := by
  simp only [request_eq, List.length_append, Bytes.length_toLE, length_pad, requestLen, hdrLen]
  omega

variable {kind flags seq header attrs}

/-- **The parser reads the header fields back**, and the payload behind them. -/
theorem parse_request (h : requestLen header attrs < 2 ^ 32) :
    Message.parse (request kind flags seq header attrs) = .ok
      { len := UInt32.ofNat (requestLen header attrs), kind := kind, flags := flags, seq := seq
        pid := 0, payload := pad header ++ stream attrs } := by
  have hlen : (UInt32.ofNat (requestLen header attrs)).toNat = requestLen header attrs := by
    rw [UInt32.toNat_ofNat', Nat.mod_eq_of_lt h]
  generalize hmsg : Message.mk (UInt32.ofNat (requestLen header attrs)) kind flags seq 0
    (pad header ++ stream attrs) = msg
  have hoctets : request kind flags seq header attrs = msg.octets := by
    rw [request_eq, ← hmsg, Message.octets, hlen]
    rfl
  have hwell : msg.WellFormed := by
    rw [← hmsg, Message.WellFormed, hlen, List.length_append, length_pad]
    rfl
  rw [hoctets, ← List.append_nil msg.octets]
  exact parse_octets hwell []

theorem attrs_request {msg : Message} (hpayload : msg.payload = pad header ++ stream attrs) :
    msg.attrs header.length = Attrs.all (stream attrs) := by
  have hdrop : msg.payload.drop (min (align header.length) msg.payload.length) = stream attrs := by
    rw [hpayload, List.length_append, length_pad, min_eq_left (Nat.le_add_right _ _)]
    exact List.drop_left' (length_pad header)
  rw [Message.attrs, hdrop]
  rfl

end Messages

/-- A walk over any octets: it ends with nothing more to take, no longer walk yields more, and the
payloads are parts of the octets in order. -/
structure Sound (next : Bytes → Option (Attr × Bytes)) (b : Bytes) : Prop where
  ends : next (Walk.left next b.length b) = none
  complete : ∀ fuel, b.length ≤ fuel → Walk.items next fuel b = Walk.items next b.length b
  inOrder : Walk.InOrder ((Walk.items next b.length b).map Attr.payload) b

theorem sound_nextWith (mask : ℕ → ℕ) (b : Bytes) : Sound (nextWith mask) b where
  ends := Walk.next_left (shrinks_nextWith mask) le_rfl
  complete := fun _ h => Walk.items_fuel (shrinks_nextWith mask) h le_rfl
  inOrder := Walk.inOrder_items (inOrder_nextWith mask) b.length b

/-- **What is built is read back**, as long as the length of the message fits its field; and over any
octets both walks are sound. -/
theorem round_trip :
    (∀ (kind flags : UInt16) (seq : UInt32) (header : Bytes) (attrs : List Tree),
      (∀ t ∈ attrs, t.Fits) → (request kind flags seq header attrs).length < 2 ^ 32 →
      ∃ msg, Message.parse (request kind flags seq header attrs) = .ok msg ∧
        msg.len.toNat = (request kind flags seq header attrs).length ∧
        msg.kind = kind ∧ msg.flags = flags ∧ msg.seq = seq ∧ msg.pid = 0 ∧
        msg.attrs header.length = attrs.map Tree.attr ∧
        (header.length = genlHdrlen → Nl80211.attrs msg.payload = attrs.map Tree.attr) ∧
        ∀ t ∈ attrs, t.Walked) ∧
    ∀ b, Sound Attrs.next b ∧ Sound Nl80211.Attrs.next b := by
  refine ⟨?_, fun b => ⟨sound_nextWith id b, sound_nextWith typeMask b⟩⟩
  intro kind flags seq header attrs hfits hlen
  rw [length_request] at hlen
  refine ⟨_, parse_request hlen, ?_, rfl, rfl, rfl, rfl, ?_, ?_, fun t ht => (hfits t ht).walked⟩
  · rw [length_request, UInt32.toNat_ofNat', Nat.mod_eq_of_lt hlen]
  · rw [attrs_request rfl]
    exact (all_stream hfits).1
  · intro hheader
    have hstream : (pad header ++ stream attrs).drop genlHdrlen = stream attrs := by
      refine List.drop_left' ?_
      rw [length_pad, hheader]
      rfl
    simp only [Nl80211.attrs, hstream]
    rw [Nl80211.attrsFrom_eq]
    exact (all_stream hfits).2

/-- No attribute of a message whose length field is full lies behind a longer header. -/
theorem attrs_eq_nil {b : Bytes} {msg : Message} (h : Message.parse b = .ok msg) {n : ℕ}
    (hn : 2 ^ 32 ≤ n) : msg.attrs n = [] := by
  have hlen : msg.payload.length < 2 ^ 32 := by
    rw [Message.parse] at h
    split_ifs at h
    dsimp only at h
    split_ifs at h
    rw [← Except.ok.inj h]
    have hlt := (UInt32.ofNat (Bytes.ofLE (Bytes.slice 0 4 b).toList)).toNat_lt
    simp only [List.length_drop, List.length_take]
    omega
  have halign := le_align n
  rw [Message.attrs, min_eq_right (by omega), List.drop_length]
  rfl

/-- **A length past its field**: the message of a header of `2 ^ 32` octets and one attribute is not
read back. -/
theorem length_wraps :
    (∀ t ∈ [Tree.leaf 1 []], t.Fits) ∧
      ¬∃ msg, Message.parse (request 0 0 0 (List.replicate (2 ^ 32) 0) [.leaf 1 []]) = .ok msg ∧
        msg.attrs (List.replicate (2 ^ 32) (0 : UInt8)).length = [Tree.leaf 1 []].map Tree.attr := by
  constructor
  · refine List.forall_mem_singleton.mpr (.leaf ?_ ?_)
    · decide
    · decide
  · rintro ⟨msg, hparse, hattrs⟩
    rw [attrs_eq_nil hparse (by rw [List.length_replicate])] at hattrs
    cases hattrs

end Netlink

end Caw
