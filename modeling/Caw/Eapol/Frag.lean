import Caw.Eapol.Frame
import Caw.Lib.Machine

/-!
# Fragments of TLS messages

A TLS message does not fit an EAP packet, so it crosses in fragments, each acknowledged before the
next one leaves.

* `Fragment.parse`: the flags octet, the length if it carries one, and a slice of the message;
* `Reassembler.push`, `Fragmenter.next`: the two ends of one message;
* `Exchange.onRequest`, `Exchange.send`: both directions, in lock step;
* `Fragmenter.parse_cut`: a fragment is read back as it was cut;
* `Holds`, **`Holds.push_cut`**: what one fragment does to a reassembler that holds what came before;
* `Joined`, `Joined.step`: two exchanges and the packet between them;
* `Joined.outward_run`, `Joined.Idle.converse`: one message across, and a conversation;
* **`Frag.delivers`**: every message arrives whole, over the fragments alone and over two exchanges
  joined back to back.
-/

set_option autoImplicit false

namespace Caw

namespace Frag

open Eapol (Error)

/-- The TLS Message Length field is present. -/
def flagLengthIncluded : UInt8 := 0x80

/-- More fragments follow; acknowledge this one. -/
def flagMoreFragments : UInt8 := 0x40

/-- Start of a TLS exchange. -/
def flagStart : UInt8 := 0x20

/-- Reserved in EAP-TLS, the version number in PEAP and TTLS. -/
def versionMask : UInt8 := 0x07

/-- Ceiling on a reassembled TLS message. -/
def maxTlsMessage : ℕ := 64 * 1024

/-! ## One fragment -/

/-- One parsed fragment. -/
structure Fragment where
  flags : UInt8
  /-- The total length of the message being reassembled, present only on a first fragment. -/
  declaredLen : Option ℕ
  data : Bytes
deriving DecidableEq

namespace Fragment

/-- Parse the Type-Data of an EAP-TLS/PEAP/TTLS request. -/
def parse : Bytes → Except Error Fragment
  | [] => .error .malformed
  | flags :: rest =>
    if flags &&& flagLengthIncluded ≠ 0 then
      if rest.length < 4 then .error .malformed
      else .ok { flags, declaredLen := some (Bytes.ofBE (rest.take 4)), data := rest.drop 4 }
    else .ok { flags, declaredLen := none, data := rest }

/-- Fragments follow. -/
def more (f : Fragment) : Bool := f.flags &&& flagMoreFragments ≠ 0

/-- The server begins the method. -/
def start (f : Fragment) : Bool := f.flags &&& flagStart ≠ 0

/-- The peer's protocol version, which PEAP and TTLS expect mirrored back. -/
def version (f : Fragment) : UInt8 := f.flags &&& versionMask

end Fragment

/-! ## Reassembly -/

/-- Reassembles a TLS message from the fragments an authenticator sends. -/
structure Reassembler where
  buf : Bytes
  /-- Set by the first fragment's Length field. -/
  declared : Option ℕ
deriving DecidableEq

namespace Reassembler

/-- Nothing has come in. -/
def new : Reassembler := { buf := [], declared := none }

/-- True while fragments are outstanding. -/
def inProgress (r : Reassembler) : Bool := r.declared.isSome || !r.buf.isEmpty

/-- Drop a partial message. -/
def reset (_ : Reassembler) : Reassembler := new

/-- More is held than was declared, or than the ceiling if nothing was. -/
def overflows (r : Reassembler) : Bool :=
  match r.declared with
  | some declared => declared < r.buf.length
  | none => maxTlsMessage < r.buf.length

/-- Take in the data of a fragment that is in order. -/
def extend (r : Reassembler) (fragment : Fragment) :
    Except Error (Option Bytes) × Reassembler :=
  let r := { r with buf := r.buf ++ fragment.data }
  if r.overflows then (.error .fragmentTooLarge, r.reset)
  else if fragment.more then (.ok none, r)
  else if r.declared.any (r.buf.length ≠ ·) then (.error .fragmentTooLarge, r.reset)
  else (.ok (some r.buf), { buf := [], declared := none })

/-- Feed one fragment. Returns the complete message once the last one arrives. -/
def push (r : Reassembler) (fragment : Fragment) : Except Error (Option Bytes) × Reassembler :=
  match fragment.declaredLen with
  | some declared =>
    -- A length in the middle of a message would splice two of them together.
    if r.inProgress then (.error .fragmentOutOfOrder, r)
    else if maxTlsMessage < declared then (.error .fragmentTooLarge, r)
    else extend { r with declared := some declared } fragment
  | none =>
    -- A continuation with nothing to continue.
    if !r.inProgress && fragment.more then (.error .fragmentOutOfOrder, r)
    else r.extend fragment

/-- A fragment as it comes off the wire. -/
def receive (r : Reassembler) (wire : Bytes) : Reassembler × Except Error (Option Bytes) :=
  match Fragment.parse wire with
  | .error e => (r, .error e)
  | .ok fragment => ((r.push fragment).2, (r.push fragment).1)

end Reassembler

/-! ## Fragmentation -/

/-- Splits an outgoing TLS message across EAP packets. -/
structure Fragmenter where
  pending : Bytes
  sent : ℕ
  fragmentSize : ℕ
  size_pos : 0 < fragmentSize

namespace Fragmenter

/-- Nothing is going out. -/
def new (fragmentSize : ℕ) : Fragmenter :=
  { pending := [], sent := 0, fragmentSize := max fragmentSize 1, size_pos := by omega }

/-- Queue a complete TLS message for transmission. -/
def queue (f : Fragmenter) (message : Bytes) : Fragmenter :=
  { f with pending := message, sent := 0 }

/-- True once every fragment has been handed out. -/
def isEmpty (f : Fragmenter) : Bool := f.pending.length ≤ f.sent

/-- Where the fragment at the front ends. -/
def cutEnd (f : Fragmenter) : ℕ := min (f.sent + f.fragmentSize) f.pending.length

/-- The fragment at the front is not the last. -/
def more (f : Fragmenter) : Bool := f.cutEnd < f.pending.length

/-- The Length field goes on the first fragment only, and only when the message is fragmented. -/
def includeLen (f : Fragmenter) : Bool := f.sent = 0 && f.more

/-- The flags of the fragment at the front. -/
def flags (f : Fragmenter) (baseFlags : UInt8) : UInt8 :=
  let flags := if f.more then baseFlags ||| flagMoreFragments else baseFlags
  if f.includeLen then flags ||| flagLengthIncluded else flags

/-- The octets of the next fragment. -/
def chunk (f : Fragmenter) : Bytes := (f.pending.take f.cutEnd).drop f.sent

/-- The fragment at the front, and what is left to send behind it. -/
def cut (f : Fragmenter) (baseFlags : UInt8) : Bytes × Fragmenter :=
  -- The source panics on a message of 2^32 bytes and more, where the length here would wrap.
  let total := if f.includeLen then Bytes.toBE 4 f.pending.length else []
  (f.flags baseFlags :: (total ++ f.chunk), { f with sent := f.cutEnd })

/-- The next fragment's Type-Data, `baseFlags` carrying the method's version bits. -/
def next (f : Fragmenter) (baseFlags : UInt8) : Option Bytes × Fragmenter :=
  if f.isEmpty then (none, f) else (some (f.cut baseFlags).1, (f.cut baseFlags).2)

end Fragmenter

/-! ## The exchange -/

/-- The lock step EAP-TLS, PEAP and TTLS share above the TLS stack. -/
structure Exchange where
  inbound : Reassembler
  outbound : Fragmenter
  baseFlags : UInt8
  mirrorVersion : Bool

/-- What a received request turned out to be. -/
inductive Incoming where
  /-- The peer is opening or restarting the exchange. -/
  | restart
  /-- Send these bytes and wait. -/
  | reply (typeData : Bytes)
  /-- A complete TLS message, ready for the TLS stack. -/
  | message (m : Bytes)
deriving DecidableEq

namespace Exchange

/-- Nothing has passed either way. -/
def new (fragmentSize : ℕ) (mirrorVersion : Bool) : Exchange :=
  { inbound := .new, outbound := .new fragmentSize, baseFlags := 0, mirrorVersion }

/-- The acknowledgement: flags and nothing else. -/
def emptyReply (x : Exchange) : Bytes := [x.baseFlags]

/-- The flags follow the peer's version, for the methods that have one. -/
def mirror (x : Exchange) (fragment : Fragment) : Exchange :=
  { x with baseFlags := if x.mirrorVersion then fragment.version else x.baseFlags }

/-- A request of the server: a start, a fragment or an acknowledgement. -/
def onRequest (x : Exchange) (typeData : Bytes) : Except Error Incoming × Exchange :=
  match Fragment.parse typeData with
  | .error e => (.error e, x)
  | .ok fragment =>
    let x := x.mirror fragment
    if fragment.start then (.ok .restart, { x with inbound := x.inbound.reset })
    else if !x.outbound.isEmpty then
      -- The peer acknowledges our last fragment; data here would interleave two flights.
      if !fragment.data.isEmpty then (.error .fragmentOutOfOrder, x)
      else
        let (next, outbound) := x.outbound.cut x.baseFlags
        (.ok (.reply next), { x with outbound })
    else
      match x.inbound.push fragment with
      | (.error e, inbound) => (.error e, { x with inbound })
      | (.ok none, inbound) => (.ok (.reply x.emptyReply), { x with inbound })
      | (.ok (some message), inbound) => (.ok (.message message), { x with inbound })

/-- Queue an outgoing message and take its first fragment. -/
def send (x : Exchange) (message : Bytes) : Option Bytes × Exchange :=
  if message.isEmpty then (none, x)
  else
    let (first, outbound) := (x.outbound.queue message).next x.baseFlags
    (first, { x with outbound })

end Exchange


/-! ## One fragment across -/

/-- The base flags carry version bits only. -/
def Masked (base : UInt8) : Prop := base &&& versionMask = base

instance (base : UInt8) : Decidable (Masked base) := inferInstanceAs (Decidable (_ = _))

theorem masked_version (fragment : Fragment) : Masked fragment.version := by
  rw [Masked, Fragment.version, UInt8.and_assoc]
  rfl

theorem Masked.mem {base : UInt8} (h : Masked base) : base ∈ (List.range 8).map UInt8.ofNat := by
  have hlt : base.toNat < 8 := by
    rw [← h, UInt8.toNat_and]
    exact lt_of_le_of_lt Nat.and_le_right (by decide)
  exact List.mem_map.mpr ⟨base.toNat, List.mem_range.mpr hlt, UInt8.ofNat_toNat⟩

theorem flags_bits {base : UInt8} (h : Masked base) (f : Fragmenter) :
    (f.flags base &&& flagLengthIncluded ≠ 0 ↔ f.includeLen = true) ∧
      (f.flags base &&& flagMoreFragments ≠ 0 ↔ f.more = true) ∧
      f.flags base &&& flagStart = 0 ∧ f.flags base &&& versionMask = base := by
  have hmore : f.includeLen = true → f.more = true := fun h => (Bool.and_eq_true_iff.mp h).2
  have hbits : ∀ base ∈ (List.range 8).map UInt8.ofNat, ∀ first more : Bool, (first → more) →
      let flags := if more then base ||| flagMoreFragments else base
      let flags := if first then flags ||| flagLengthIncluded else flags
      (flags &&& flagLengthIncluded ≠ 0 ↔ first = true) ∧
        (flags &&& flagMoreFragments ≠ 0 ↔ more = true) ∧
        flags &&& flagStart = 0 ∧ flags &&& versionMask = base := by decide +kernel
  exact hbits base h.mem f.includeLen f.more hmore

namespace Fragmenter

variable {f : Fragmenter} {base : UInt8}

theorem not_isEmpty : f.isEmpty = false ↔ f.sent < f.pending.length := by
  rw [isEmpty, decide_eq_false_iff_not, not_le]

theorem sent_lt_cutEnd (h : f.isEmpty = false) : f.sent < f.cutEnd := by
  have := not_isEmpty.mp h
  have := f.size_pos
  rw [cutEnd]
  omega

/-- What the fragment at the front is worth to the peer. -/
def fragment (f : Fragmenter) (base : UInt8) : Fragment :=
  { flags := f.flags base
    declaredLen := if f.includeLen then some f.pending.length else none
    data := f.chunk }

/-- **A fragment is read back as it was cut.** -/
theorem parse_cut (hbase : Masked base) (hlen : f.pending.length ≤ maxTlsMessage) :
    Fragment.parse (f.cut base).1 = .ok (f.fragment base) := by
  have hbit := (flags_bits hbase f).1
  rw [cut, Fragment.parse, fragment]
  by_cases hincl : f.includeLen = true
  · have hval : Bytes.ofBE (Bytes.toBE 4 f.pending.length) = f.pending.length := by
      rw [Bytes.ofBE_toBE, Nat.mod_eq_of_lt]
      rw [maxTlsMessage] at hlen
      omega
    have htotal := Bytes.length_toBE 4 f.pending.length
    rw [if_pos (hbit.mpr hincl), if_pos hincl, if_pos hincl, if_neg (by simp),
      List.take_left' htotal, List.drop_left' htotal, hval]
  · rw [if_neg (mt hbit.mp hincl), if_neg hincl, if_neg hincl, List.nil_append]

theorem take_append_chunk (h : f.isEmpty = false) :
    f.pending.take f.sent ++ f.chunk = f.pending.take f.cutEnd := by
  have hle := (sent_lt_cutEnd h).le
  have hsplit := List.take_append_drop f.sent (f.pending.take f.cutEnd)
  rwa [List.take_take, min_eq_left hle] at hsplit

end Fragmenter

/-- The reassembler holds what has been sent so far of a message that is not all sent. -/
structure Holds (r : Reassembler) (f : Fragmenter) : Prop where
  buf : r.buf = f.pending.take f.sent
  declared : r.declared = if f.sent = 0 then none else some f.pending.length
  left : f.isEmpty = false
  fits : f.pending.length ≤ maxTlsMessage

section Holds

variable {r : Reassembler} {f : Fragmenter} {base : UInt8}

theorem holds_queue {message : Bytes} (hne : message ≠ []) (hlen : message.length ≤ maxTlsMessage)
    (f : Fragmenter) : Holds .new (f.queue message) where
  buf := rfl
  declared := rfl
  left := Fragmenter.not_isEmpty.mpr (List.length_pos_iff.mpr hne)
  fits := hlen

theorem fragment_more (hbase : Masked base) (f : Fragmenter) : (f.fragment base).more = f.more := by
  rw [Bool.eq_iff_iff, Fragment.more, decide_eq_true_iff]
  exact (flags_bits hbase f).2.1

/-- The fragment at the front is in order; only a message of one fragment goes without a length. -/
theorem Holds.push_fragment (h : Holds r f) (hbase : Masked base) :
    r.push (f.fragment base) = Reassembler.extend
      { buf := f.pending.take f.sent
        declared := if f.sent = 0 ∧ f.more = false then none else some f.pending.length }
      (f.fragment base) := by
  obtain ⟨buf, declared⟩ := r
  obtain ⟨rfl, rfl, hleft, hfits⟩ := h
  rw [Reassembler.push, fragment_more hbase, Fragmenter.fragment, Fragmenter.includeLen]
  rcases Nat.eq_zero_or_pos f.sent with h0 | h0
  · cases hmore : f.more with
    | true => simp [h0, Reassembler.inProgress, hfits]
    | false => simp [h0]
  · have hne : f.sent ≠ 0 := by omega
    simp [hne, Reassembler.inProgress]

/-- **One fragment.** It is taken in, and the last one completes the message. -/
theorem Holds.push_cut (h : Holds r f) (hbase : Masked base) :
    (∃ r', r.push (f.fragment base) = (.ok none, r') ∧ Holds r' (f.cut base).2) ∨
      (r.push (f.fragment base) = (.ok (some f.pending), .new) ∧
        (f.cut base).2.isEmpty = true) := by
  have hlen : (f.pending.take f.cutEnd).length = f.cutEnd := by
    rw [List.length_take, Fragmenter.cutEnd, min_assoc, min_self]
  have hend : f.cutEnd ≤ f.pending.length := min_le_right _ _
  have hlt := Fragmenter.sent_lt_cutEnd h.left
  have hfits := h.fits
  have hover : ∀ p : Prop, [Decidable p] → Reassembler.overflows
      { buf := f.pending.take f.cutEnd, declared := if p then none else some f.pending.length } =
      false := by
    intro p _
    rw [Reassembler.overflows]
    split_ifs <;> exact decide_eq_false (by simp only [hlen]; omega)
  rw [h.push_fragment hbase, Reassembler.extend]
  simp only
  rw [show (f.fragment base).data = f.chunk from rfl, Fragmenter.take_append_chunk h.left, hover,
    fragment_more hbase]
  cases hmore : f.more with
  | true =>
    have hleft : (f.cut base).2.isEmpty = false := Fragmenter.not_isEmpty.mpr (of_decide_eq_true hmore)
    refine Or.inl ⟨_, rfl, rfl, ?_, hleft, hfits⟩
    have hne : f.cutEnd ≠ 0 := by omega
    simp [Fragmenter.cut, hne]
  | false =>
    have hall : f.cutEnd = f.pending.length :=
      le_antisymm hend (not_lt.mp (of_decide_eq_false hmore))
    refine Or.inr ⟨?_, decide_eq_true hall.ge⟩
    rw [hall, List.take_length]
    by_cases h0 : f.sent = 0 <;> simp [h0, Reassembler.new]

theorem Holds.receive_cut (h : Holds r f) (hbase : Masked base) :
    r.receive (f.cut base).1 = ((r.push (f.fragment base)).2, (r.push (f.fragment base)).1) := by
  rw [Reassembler.receive, Fragmenter.parse_cut hbase h.fits]

end Holds

/-! ## All fragments of a message -/

/-- Every fragment that is left to send, in order. -/
def Fragmenter.fragments (f : Fragmenter) (base : UInt8) : List Bytes :=
  if _h : f.isEmpty = true then [] else (f.cut base).1 :: fragments (f.cut base).2 base
termination_by f.pending.length - f.sent
decreasing_by
  have hleft : f.isEmpty = false := Bool.eq_false_iff.mpr _h
  have := Fragmenter.not_isEmpty.mp hleft
  have := Fragmenter.sent_lt_cutEnd hleft
  simp only [Fragmenter.cut]
  omega

/-- What the reassembler makes of one fragment after the other. -/
def received (r : Reassembler) (wires : List Bytes) : List (Except Error (Option Bytes)) :=
  (Machine.log Reassembler.receive r wires).map Machine.Entry.output

theorem Fragmenter.fragments_of_isEmpty {f : Fragmenter} (h : f.isEmpty = true) (base : UInt8) :
    f.fragments base = [] := by
  rw [Fragmenter.fragments, dif_pos h]

theorem Fragmenter.fragments_of_left {f : Fragmenter} (h : f.isEmpty = false) (base : UInt8) :
    f.fragments base = (f.cut base).1 :: (f.cut base).2.fragments base := by
  rw [Fragmenter.fragments, dif_neg (by simp [h])]

/-- **Nothing until the last fragment, then exactly the message.** -/
theorem Holds.received {base : UInt8} (hbase : Masked base) {r : Reassembler} {f : Fragmenter}
    (h : Holds r f) : ∃ n, (f.fragments base).length = n + 1 ∧
      Frag.received r (f.fragments base) = List.replicate n (.ok none) ++ [.ok (some f.pending)] ∧
      Machine.exec Reassembler.receive r (f.fragments base) = .new := by
  induction hk : f.pending.length - f.sent using Nat.strongRecOn generalizing r f with
  | ind k ih =>
    have hsent := Fragmenter.not_isEmpty.mp h.left
    have hcut := Fragmenter.sent_lt_cutEnd h.left
    have hr := h.receive_cut hbase
    rw [Fragmenter.fragments_of_left h.left]
    obtain ⟨r', hpush, h'⟩ | ⟨hpush, hempty⟩ := h.push_cut hbase <;> rw [hpush] at hr
    · obtain ⟨n, hn, hlog, hexec⟩ := ih _ (by simp only [Fragmenter.cut]; omega) h' rfl
      refine ⟨n + 1, by rw [List.length_cons, hn], ?_, ?_⟩
      · rw [Frag.received, Machine.log_cons_of_eq hr, List.map_cons, List.replicate_succ,
          List.cons_append]
        exact congrArg _ hlog
      · rw [Machine.exec_cons_of_eq hr, hexec]
    · rw [Fragmenter.fragments_of_isEmpty hempty]
      refine ⟨0, rfl, ?_, ?_⟩
      · rw [Frag.received, Machine.log_cons_of_eq hr]
        rfl
      · rw [Machine.exec_cons_of_eq hr]
        rfl

/-! ## Two exchanges joined back to back -/

/-- The two ends of the link. -/
inductive Side where
  | left
  | right
deriving DecidableEq

/-- The other end. -/
def Side.peer : Side → Side
  | left => right
  | right => left

/-- Two exchanges, and the packet on its way to one of them. -/
structure Joined where
  ends : Side → Exchange
  flight : Option (Side × Bytes)

/-- What is asked of the link: an end has a message to send, or the packet arrives. -/
inductive Joined.Input where
  | send (side : Side) (message : Bytes)
  | carry

/-- What an end makes of the packets, beyond answering them. -/
inductive Joined.Event where
  | message (side : Side) (m : Bytes)
  | restart (side : Side)
  | error (side : Side) (e : Error)
deriving DecidableEq

namespace Joined

/-- One end after it has moved, and the packet it puts on the link. -/
def moved (p : Joined) (side : Side) (x : Exchange) (packet : Option Bytes) : Joined :=
  { ends := Function.update p.ends side x, flight := packet.map (side.peer, ·) }

/-- One packet across: what it is answered with goes back. -/
def step (p : Joined) : Input → Joined × Option Event
  | .send side message =>
    (p.moved side ((p.ends side).send message).2 ((p.ends side).send message).1, none)
  | .carry =>
    match p.flight with
    | none => (p, none)
    | some (side, wire) =>
      match (p.ends side).onRequest wire with
      | (.ok (.reply typeData), x) => (p.moved side x (some typeData), none)
      | (.ok (.message m), x) => (p.moved side x none, some (.message side m))
      | (.ok .restart, x) => (p.moved side x none, some (.restart side))
      | (.error e, x) => (p.moved side x none, some (.error side e))

/-- The events of a run, in order. -/
def events (p : Joined) (inputs : List Input) : List Event :=
  (Machine.log step p inputs).filterMap Machine.Entry.output

end Joined

/-! ## Carrying one message -/

section Carry

variable {x : Exchange} {f : Fragmenter} {base : UInt8}

/-- An exchange between messages. -/
structure Exchange.Ready (x : Exchange) : Prop where
  inbound : x.inbound = .new
  outbound : x.outbound.isEmpty = true
  masked : Masked x.baseFlags

theorem masked_zero : Masked 0 := by decide

theorem Exchange.ready_new (fragmentSize : ℕ) (mirrorVersion : Bool) :
    (Exchange.new fragmentSize mirrorVersion).Ready :=
  ⟨rfl, rfl, masked_zero⟩

theorem Exchange.masked_mirror (h : Masked x.baseFlags) (fragment : Fragment) :
    Masked (x.mirror fragment).baseFlags := by
  rw [Exchange.mirror]
  split_ifs
  · exact masked_version fragment
  · exact h

theorem fragment_start (hbase : Masked base) (f : Fragmenter) :
    (f.fragment base).start = false := by
  rw [Fragment.start, decide_eq_false_iff_not, not_not]
  exact (flags_bits hbase f).2.2.1

theorem parse_ack (h : Masked base) :
    Fragment.parse [base] = .ok { flags := base, declaredLen := none, data := [] } := by
  have hbit : ∀ base ∈ (List.range 8).map UInt8.ofNat, base &&& flagLengthIncluded = 0 := by
    decide +kernel
  rw [Fragment.parse, if_neg (not_not.mpr (hbit base h.mem))]

/-- An exchange with nothing to send takes the fragment in: it acknowledges it, or has the
message. -/
theorem Exchange.onRequest_cut (hempty : x.outbound.isEmpty = true) (h : Holds x.inbound f)
    (hbase : Masked base) :
    ∃ x', x'.outbound = x.outbound ∧ (Masked x.baseFlags → Masked x'.baseFlags) ∧
      ((x.onRequest (f.cut base).1 = (.ok (.reply x'.emptyReply), x') ∧
          Holds x'.inbound (f.cut base).2) ∨
        (x.onRequest (f.cut base).1 = (.ok (.message f.pending), x') ∧ x'.inbound = .new ∧
          (f.cut base).2.isEmpty = true)) := by
  have hreq : x.onRequest (f.cut base).1 = match x.inbound.push (f.fragment base) with
      | (.error e, inbound) => (.error e, { x.mirror (f.fragment base) with inbound })
      | (.ok none, inbound) =>
        (.ok (.reply [(x.mirror (f.fragment base)).baseFlags]),
          { x.mirror (f.fragment base) with inbound })
      | (.ok (some message), inbound) =>
        (.ok (.message message), { x.mirror (f.fragment base) with inbound }) := by
    rw [Exchange.onRequest, Fragmenter.parse_cut hbase h.fits]
    simp only [fragment_start hbase, Exchange.mirror, Exchange.emptyReply, hempty, Bool.not_true,
      Bool.false_eq_true, if_false]
  refine ⟨{ x.mirror (f.fragment base) with inbound := (x.inbound.push (f.fragment base)).2 }, rfl,
    fun hx => x.masked_mirror hx _, ?_⟩
  obtain ⟨r', hpush, h'⟩ | ⟨hpush, hlast⟩ := h.push_cut hbase
  · rw [hpush] at hreq ⊢
    exact Or.inl ⟨hreq, h'⟩
  · rw [hpush] at hreq ⊢
    exact Or.inr ⟨hreq, rfl, hlast⟩

theorem Exchange.onRequest_ack (hleft : x.outbound.isEmpty = false) (hbase : Masked base) :
    ∃ x', x'.inbound = x.inbound ∧ (Masked x.baseFlags → Masked x'.baseFlags) ∧
      x'.outbound = (x.outbound.cut x'.baseFlags).2 ∧
      x.onRequest [base] = (.ok (.reply (x.outbound.cut x'.baseFlags).1), x') := by
  have hstart : ∀ base ∈ (List.range 8).map UInt8.ofNat, (base &&& flagStart ≠ 0) = False := by
    decide +kernel
  refine ⟨{ x.mirror ⟨base, none, []⟩ with
    outbound := (x.outbound.cut (x.mirror ⟨base, none, []⟩).baseFlags).2 }, rfl,
    fun h => x.masked_mirror h _, rfl, ?_⟩
  rw [Exchange.onRequest, parse_ack hbase]
  simp [Exchange.mirror, Fragment.start, hstart base hbase.mem, hleft]

end Carry

namespace Joined

section Steps

variable {p : Joined} {side : Side} {f : Fragmenter}

/-- Nothing crosses. -/
structure Idle (p : Joined) : Prop where
  ready : ∀ side, (p.ends side).Ready
  flight : p.flight = none

/-- A message crosses: one end holds what the other has sent of it. -/
structure Crossing (p : Joined) (side : Side) (f : Fragmenter) : Prop where
  inbound : (p.ends side).inbound = .new
  outbound : (p.ends side.peer).outbound.isEmpty = true
  holds : Holds (p.ends side.peer).inbound f
  masked : ∀ s, Masked (p.ends s).baseFlags

/-- The fragment at the front is on its way. -/
structure Outward (p : Joined) (side : Side) (f : Fragmenter) : Prop where
  crossing : p.Crossing side f
  flight : ∃ base, Masked base ∧ p.flight = some (side.peer, (f.cut base).1)
  rest : (p.ends side).outbound = (f.cut 0).2

/-- The fragment at the front waits for an acknowledgement. -/
structure Back (p : Joined) (side : Side) (f : Fragmenter) : Prop where
  crossing : p.Crossing side f
  flight : ∃ base, Masked base ∧ p.flight = some (side, [base])
  rest : (p.ends side).outbound = f

@[simp] theorem Side.peer_peer (side : Side) : side.peer.peer = side := by cases side <;> rfl

theorem Side.peer_ne (side : Side) : side.peer ≠ side := by cases side <;> nofun

theorem Side.eq_or_peer (s side : Side) : s = side ∨ s = side.peer := by
  cases s <;> cases side <;> simp [Side.peer]

@[simp] theorem moved_self (p : Joined) (side : Side) (x : Exchange) (packet : Option Bytes) :
    (p.moved side x packet).ends side = x := Function.update_self ..

@[simp] theorem moved_peer (p : Joined) (side : Side) (x : Exchange) (packet : Option Bytes) :
    (p.moved side x packet).ends side.peer = p.ends side.peer :=
  Function.update_of_ne (Side.peer_ne side) ..

@[simp] theorem moved_peer_self (p : Joined) (side : Side) (x : Exchange)
    (packet : Option Bytes) : (p.moved side.peer x packet).ends side = p.ends side :=
  Function.update_of_ne (Side.peer_ne side).symm ..

theorem forall_moved {P : Exchange → Prop} (h : ∀ s, P (p.ends s)) {x : Exchange} (hx : P x)
    (packet : Option Bytes) : ∀ s, P ((p.moved side x packet).ends s) := by
  intro s
  rcases Side.eq_or_peer s side with rfl | rfl
  · rwa [moved_self]
  · rw [moved_peer]
    exact h _

theorem send_outward (h : p.Idle) {message : Bytes} (hne : message ≠ [])
    (hlen : message.length ≤ maxTlsMessage) : ∃ p', p.step (.send side message) = (p', none) ∧
      p'.Outward side ((p.ends side).outbound.queue message) := by
  have hx := h.ready side
  have hholds := holds_queue hne hlen (p.ends side).outbound
  have hsend : (p.ends side).send message =
      (some (((p.ends side).outbound.queue message).cut (p.ends side).baseFlags).1,
        { p.ends side with
          outbound := (((p.ends side).outbound.queue message).cut (p.ends side).baseFlags).2 }) := by
    rw [Exchange.send, if_neg (by simpa using hne), Fragmenter.next, if_neg (by simp [hholds.left])]
  refine ⟨_, rfl, ⟨?_, ?_, ?_, ?_⟩, ⟨_, hx.masked, ?_⟩, ?_⟩
  · rw [moved_self, hsend]
    exact hx.inbound
  · rw [moved_peer]
    exact (h.ready _).outbound
  · rw [moved_peer, (h.ready _).inbound]
    exact hholds
  · refine forall_moved (P := fun x => Masked x.baseFlags) (fun s => (h.ready s).masked) ?_ _
    rw [hsend]
    exact hx.masked
  · rw [hsend]
    rfl
  · rw [moved_self, hsend]
    rfl

/-- **A fragment arrives.** It is acknowledged, or completes the message. -/
theorem carry_outward (h : p.Outward side f) :
    (∃ p', p.step .carry = (p', none) ∧ p'.Back side (f.cut 0).2) ∨
      ∃ p', p.step .carry = (p', some (.message side.peer f.pending)) ∧ p'.Idle := by
  obtain ⟨⟨hin, hempty, hholds, hmasked⟩, ⟨base, hbase, hflight⟩, hrest⟩ := h
  obtain ⟨x', hout, hx', ⟨hreq, h'⟩ | ⟨hreq, hnew, hlast⟩⟩ :=
    Exchange.onRequest_cut hempty hholds hbase
  · have hcrossing : (p.moved side.peer x' (some x'.emptyReply)).Crossing side (f.cut 0).2 := by
      refine ⟨?_, ?_, ?_, ?_⟩
      · rwa [moved_peer_self]
      · rwa [moved_self, hout]
      · rwa [moved_self]
      · exact forall_moved (P := fun x => Masked x.baseFlags) hmasked (hx' (hmasked _)) _
    refine Or.inl ⟨_, ?_, hcrossing, ⟨x'.baseFlags, hx' (hmasked _), ?_⟩, ?_⟩
    · rw [step, hflight]
      simp only [hreq]
    · rw [moved, Side.peer_peer]
      rfl
    · rwa [moved_peer_self]
  · refine Or.inr ⟨p.moved side.peer x' none, ?_, ?_, rfl⟩
    · rw [step, hflight]
      simp only [hreq]
    · intro s
      rcases Side.eq_or_peer s side with rfl | rfl
      · rw [moved_peer_self]
        refine ⟨hin, ?_, hmasked s⟩
        rw [hrest]
        exact hlast
      · rw [moved_self]
        exact ⟨hnew, hout ▸ hempty, hx' (hmasked _)⟩

/-- **An acknowledgement arrives.** The next fragment leaves. -/
theorem carry_back (h : p.Back side f) :
    ∃ p', p.step .carry = (p', none) ∧ p'.Outward side f := by
  obtain ⟨⟨hin, hempty, hholds, hmasked⟩, ⟨base, hbase, hflight⟩, hrest⟩ := h
  subst hrest
  obtain ⟨x', hin', hx', hrest', hreq⟩ := Exchange.onRequest_ack hholds.left hbase
  have hcrossing : (p.moved side x' (some ((p.ends side).outbound.cut x'.baseFlags).1)).Crossing side
      (p.ends side).outbound := by
    refine ⟨?_, ?_, ?_, ?_⟩
    · rwa [moved_self, hin']
    · rwa [moved_peer]
    · rwa [moved_peer]
    · exact forall_moved (P := fun x => Masked x.baseFlags) hmasked (hx' (hmasked _)) _
  refine ⟨_, ?_, hcrossing, ⟨x'.baseFlags, hx' (hmasked _), rfl⟩, ?_⟩
  · rw [step, hflight]
    simp only [hreq]
  · rw [moved_self]
    exact hrest'

theorem carry_idle (h : p.Idle) : p.step .carry = (p, none) := by
  rw [step, h.flight]

theorem events_cons_of_eq {p' : Joined} {i : Input} {o : Option Event} (h : p.step i = (p', o))
    (inputs : List Input) : p.events (i :: inputs) = o.toList ++ p'.events inputs := by
  rw [events, Machine.log_cons_of_eq h]
  cases o <;> rfl

theorem events_append (p : Joined) (is js : List Input) :
    p.events (is ++ js) = p.events is ++ (Machine.exec step p is).events js := by
  rw [events, Machine.log_append, List.filterMap_append]
  rfl

theorem idle_run (h : p.Idle) (n : ℕ) : p.events (List.replicate n .carry) = [] ∧
    Machine.exec step p (List.replicate n .carry) = p := by
  induction n with
  | zero => exact ⟨rfl, rfl⟩
  | succ n ih =>
    rw [List.replicate_succ, events_cons_of_eq (carry_idle h),
      Machine.exec_cons_of_eq (carry_idle h)]
    exact ih

/-- **A message on its way arrives once**, with two packets for each octet at the most. -/
theorem outward_run (h : p.Outward side f) {n : ℕ} (hn : 2 * (f.pending.length - f.sent) ≤ n) :
    p.events (List.replicate n .carry) = [.message side.peer f.pending] ∧
      (Machine.exec step p (List.replicate n .carry)).Idle := by
  induction hk : f.pending.length - f.sent using Nat.strongRecOn generalizing p f n with
  | ind k ih =>
    have hleft := h.crossing.holds.left
    have hsent := Fragmenter.not_isEmpty.mp hleft
    have hcut := Fragmenter.sent_lt_cutEnd hleft
    obtain ⟨n, rfl⟩ : ∃ m, n = m + 2 := ⟨n - 2, by omega⟩
    rw [List.replicate_succ]
    obtain ⟨p', hstep, hback⟩ | ⟨p', hstep, hidle⟩ := carry_outward h
    · -- One fragment and its acknowledgement; the rest is a shorter message of the same kind.
      obtain ⟨p'', hstep', hout⟩ := carry_back hback
      have hk' : (f.cut 0).2.pending.length - (f.cut 0).2.sent < k := by
        simp only [Fragmenter.cut]
        omega
      rw [events_cons_of_eq hstep, Machine.exec_cons_of_eq hstep, List.replicate_succ,
        events_cons_of_eq hstep', Machine.exec_cons_of_eq hstep']
      exact ih _ hk' hout (by omega) rfl
    · rw [events_cons_of_eq hstep, Machine.exec_cons_of_eq hstep]
      obtain ⟨hev, hexec⟩ := idle_run hidle (n + 1)
      rw [hev, hexec]
      exact ⟨rfl, hidle⟩

end Steps

end Joined

/-! ## Conversations -/

/-- Two fresh exchanges. -/
def Joined.new (fragmentSize : Side → ℕ) (mirrorVersion : Side → Bool) : Joined :=
  { ends := fun side => .new (fragmentSize side) (mirrorVersion side), flight := none }

theorem Joined.idle_new (fragmentSize : Side → ℕ) (mirrorVersion : Side → Bool) :
    (Joined.new fragmentSize mirrorVersion).Idle :=
  ⟨fun side => Exchange.ready_new (fragmentSize side) (mirrorVersion side), rfl⟩

/-- A message, the end that sends it, and the packets there is time for before the next one. -/
structure Utterance where
  side : Side
  message : Bytes
  packets : ℕ

/-- The message is one the exchange is made for, and there is time enough for it. -/
structure Utterance.Proper (u : Utterance) : Prop where
  ne_nil : u.message ≠ []
  fits : u.message.length ≤ maxTlsMessage
  time : 2 * u.message.length ≤ u.packets

/-- What is asked of the link to hold a conversation. -/
def Utterance.inputs (u : Utterance) : List Joined.Input :=
  .send u.side u.message :: List.replicate u.packets .carry

/-- **A conversation crosses message for message**, and leaves the link idle. -/
theorem Joined.Idle.converse {p : Joined} (h : p.Idle) {us : List Utterance}
    (hus : ∀ u ∈ us, u.Proper) :
    p.events (us.flatMap Utterance.inputs) = us.map (fun u => .message u.side.peer u.message) ∧
      (Machine.exec step p (us.flatMap Utterance.inputs)).Idle := by
  induction us generalizing p with
  | nil => exact ⟨rfl, h⟩
  | cons u us ih =>
    have hu := hus u List.mem_cons_self
    obtain ⟨p', hstep, hout⟩ := Joined.send_outward h (show u.message ≠ [] from hu.ne_nil) hu.fits
    obtain ⟨hev, hidle⟩ := Joined.outward_run hout (n := u.packets) hu.time
    obtain ⟨hevs, hend⟩ := ih hidle fun v hv => hus v (List.mem_cons_of_mem _ hv)
    rw [List.flatMap_cons, Utterance.inputs, List.cons_append, Joined.events_cons_of_eq hstep,
      Machine.exec_cons_of_eq hstep, Joined.events_append, Machine.exec_append, hev, hevs]
    exact ⟨rfl, hend⟩

/-- **Every message arrives whole**: over its fragments alone, and in any conversation of two
exchanges joined back to back, once and without an error. -/
theorem delivers :
    (∀ (message : Bytes) (fragmentSize : ℕ) (base : UInt8), message ≠ [] →
      message.length ≤ maxTlsMessage → Masked base →
      ∃ n, (((Fragmenter.new fragmentSize).queue message).fragments base).length = n + 1 ∧
        received .new (((Fragmenter.new fragmentSize).queue message).fragments base) =
          List.replicate n (.ok none) ++ [.ok (some message)]) ∧
    ∀ (p : Joined) (us : List Utterance), p.Idle → (∀ u ∈ us, u.Proper) →
      p.events (us.flatMap Utterance.inputs) = us.map fun u => .message u.side.peer u.message := by
  refine ⟨fun message fragmentSize base hne hlen hbase => ?_, fun p us h hus => (h.converse hus).1⟩
  obtain ⟨n, hn, hlog, -⟩ := (holds_queue hne hlen (.new fragmentSize)).received hbase
  exact ⟨n, hn, hlog⟩

/-- A question in two fragments and its answer in one. -/
def sampleTalk : List Utterance := [⟨.left, [1, 2, 3], 6⟩, ⟨.right, [9], 2⟩]

theorem delivers_sample :
    (∃ n, (((Fragmenter.new 2).queue [1, 2, 3, 4, 5]).fragments 1).length = n + 1 ∧
      received .new (((Fragmenter.new 2).queue [1, 2, 3, 4, 5]).fragments 1) =
        List.replicate n (.ok none) ++ [.ok (some [1, 2, 3, 4, 5])]) ∧
    (Joined.new (fun _ => 2) (fun _ => true)).events (sampleTalk.flatMap Utterance.inputs) =
      [.message .right [1, 2, 3], .message .left [9]] := by
  have hus : ∀ u ∈ sampleTalk, u.Proper := by
    intro u hu
    rcases List.mem_cons.mp hu with rfl | hu
    · exact ⟨nofun, by decide, by decide⟩
    · rw [List.mem_singleton.mp hu]
      exact ⟨nofun, by decide, by decide⟩
  exact ⟨delivers.1 _ 2 1 nofun (by decide) (by decide),
    delivers.2 _ _ (Joined.idle_new _ _) hus⟩

end Frag

end Caw
