import Caw.Dhcp.Codec
import Caw.Dhcp.Lifetime

/-!
# Unusable datagrams

The client's socket hears every exchange on the segment. Two runs are compared that differ in one
datagram the client can do nothing with.

* `Dhcp4.Unusable`: a datagram that is unusable where it arrives;
* `Dhcp4.AddresslessOffer`: an offer of no address, which the client takes all the same;
* `poll_unusable`: every other unusable datagram is ignored;
* **`Dhcp4.noise_ignored_iff`**: a run is the same without an unusable datagram exactly when that is
  not an offer of no address;
* `noise_fails`: such an offer keeps the client from the good one behind it.
-/

set_option autoImplicit false

namespace Caw

namespace Dhcp4

open Dhcp Machine

/-- The messages a state waits for. -/
def Expects (s : Dhcp.State) (type : Option MessageType) : Prop :=
  (s = .selecting ∧ type = some .offer) ∨ (Asking s ∧ (type = some .ack ∨ type = some .nak))

/-- A datagram that is of no use to the client where it arrives. -/
inductive Unusable (m : Dhcp4) (bytes : Bytes) : Prop
  | undecodable (e) : Message.decode bytes = .error e → Unusable m bytes
  | foreign (msg) : Message.decode bytes = .ok msg → ¬ m.Datagram bytes msg → Unusable m bytes
  | offer (msg) : Message.decode bytes = .ok msg → msg.messageType = some .offer →
      msg.serverId = none ∨ msg.yiaddr = .unspecified → Unusable m bytes
  | ack (msg e) : Message.decode bytes = .ok msg → msg.messageType = some .ack →
      Lease.fromAck msg = .error e → Unusable m bytes
  | unexpected (msg) : Message.decode bytes = .ok msg → ¬ Expects m.state msg.messageType →
      Unusable m bytes

/-- An offer of no address, from a server that names itself, while offers are awaited. -/
def AddresslessOffer (m : Dhcp4) (bytes : Bytes) : Prop :=
  m.state = .selecting ∧ ∃ msg server, m.Datagram bytes msg ∧ msg.messageType = some .offer ∧
    msg.serverId = some server ∧ msg.yiaddr = .unspecified

/-- Everything the client has asked for in a run. -/
def actions (m : Dhcp4) (inputs : List Dhcp.Input) : List Dhcp.Action :=
  (log poll m inputs).flatMap Entry.output

variable {m : Dhcp4} {bytes : Bytes} {msg : Message}

/-- A message the client can do something with. -/
def Usable (m : Dhcp4) (msg : Message) : Prop :=
  (m.state = .selecting ∧ msg.messageType = some .offer ∧ ∃ server, msg.serverId = some server) ∨
    (Asking m.state ∧ ((msg.messageType = some .ack ∧ ∃ lease, Lease.fromAck msg = .ok lease) ∨
      msg.messageType = some .nak))

theorem messageType_of_fromAck {lease : Lease} (h : Lease.fromAck msg = .ok lease) :
    msg.messageType = some .ack := by
  unfold Lease.fromAck at h
  split at h
  · cases h
  · assumption
  · cases h

/-- **A datagram is ignored unless the client can do something with it.** -/
theorem ignored_or_usable (hdecode : Message.decode bytes = .ok msg) :
    m.poll (.datagram bytes) = (m, []) ∨ (m.Datagram bytes msg ∧ m.Usable msg) := by
  have hsame {msg' : Message} (hmsg : m.Datagram bytes msg') : msg' = msg :=
    Except.ok.inj (hmsg.decoded.symm.trans hdecode)
  have hs := m.poll_step (.datagram bytes)
  generalize m.poll (.datagram bytes) = r at hs ⊢
  obtain ⟨m', out⟩ := r
  cases hs with
  | ignore => exact .inl rfl
  | offer _ msg' server hmsg htype hserver hstate =>
    cases hsame hmsg
    exact .inr ⟨hmsg, .inl ⟨hstate, htype, server, hserver⟩⟩
  | ack _ msg' lease hmsg hlease hstate =>
    cases hsame hmsg
    exact .inr ⟨hmsg, .inr ⟨hstate, .inl ⟨messageType_of_fromAck hlease, lease, hlease⟩⟩⟩
  | nak _ msg' hmsg htype hstate =>
    cases hsame hmsg
    exact .inr ⟨hmsg, .inr ⟨hstate, .inr htype⟩⟩

/-- **An unusable datagram is ignored**, an offer of no address apart. -/
theorem poll_unusable (h : m.Unusable bytes) (hoffer : ¬ m.AddresslessOffer bytes) :
    m.poll (.datagram bytes) = (m, []) := by
  cases h with
  | undecodable e hdecode => simp only [poll, onDatagram, hdecode]
  | foreign msg hdecode hforeign =>
    exact (ignored_or_usable hdecode).resolve_right fun h => hforeign h.1
  | offer msg hdecode htype hbad =>
    refine (ignored_or_usable hdecode).resolve_right fun h => ?_
    obtain ⟨hmsg, husable⟩ := h
    rcases husable with ⟨hstate, -, server, hserver⟩ | ⟨-, ⟨hack, -⟩ | hnak⟩
    · rcases hbad with hnone | hyiaddr
      · rw [hnone] at hserver
        cases hserver
      · exact hoffer ⟨hstate, msg, server, hmsg, htype, hserver, hyiaddr⟩
    · rw [htype] at hack
      cases hack
    · rw [htype] at hnak
      cases hnak
  | ack msg e hdecode htype hbad =>
    refine (ignored_or_usable hdecode).resolve_right fun h => ?_
    obtain ⟨-, husable⟩ := h
    rcases husable with ⟨-, hoffered, -⟩ | ⟨-, ⟨-, lease, hlease⟩ | hnak⟩
    · rw [htype] at hoffered
      cases hoffered
    · rw [hbad] at hlease
      cases hlease
    · rw [htype] at hnak
      cases hnak
  | unexpected msg hdecode hunexpected =>
    refine (ignored_or_usable hdecode).resolve_right fun h => hunexpected ?_
    obtain ⟨-, husable⟩ := h
    rcases husable with ⟨hstate, htype, -⟩ | ⟨hstate, ⟨htype, -⟩ | htype⟩
    · exact .inl ⟨hstate, htype⟩
    · exact .inr ⟨hstate, .inl htype⟩
    · exact .inr ⟨hstate, .inr htype⟩

theorem poll_addresslessOffer (h : m.AddresslessOffer bytes) :
    (m.poll (.datagram bytes)).1.state = .requesting := by
  obtain ⟨hstate, msg, server, hmsg, htype, hserver, -⟩ := h
  have hgood : ¬ (msg.op ≠ bootreply ∨ msg.xid ≠ m.xid ∨
      Bytes.slice 0 6 msg.chaddr.toList ≠ m.mac) := by
    simp only [not_or, not_not]
    exact ⟨hmsg.isReply, hmsg.sameXid, hmsg.sameMac⟩
  simp only [poll, onDatagram, hmsg.decoded, if_neg hgood, hstate, htype, onOffer, hserver]
  rfl

/-! ## Two runs -/

theorem actions_append (m : Dhcp4) (before after : List Dhcp.Input) :
    m.actions (before ++ after) = m.actions before ++ (exec poll m before).actions after := by
  rw [actions, log_append, List.flatMap_append]
  rfl

/-- **Noise changes nothing, save an offer of no address.** Whatever came before, a run with an
unusable datagram in it ends as the run without it does and asks for the same, whatever comes after,
exactly when that datagram is not an offer of no address that comes while offers are awaited. -/
theorem noise_ignored_iff (mac : Mac) (xid : UInt32) (hostname : Option String)
    (before : List Dhcp.Input) (bytes : Bytes)
    (h : (exec poll (fresh mac xid hostname) before).Unusable bytes) :
    (∀ after,
      exec poll (fresh mac xid hostname) (before ++ .datagram bytes :: after) =
          exec poll (fresh mac xid hostname) (before ++ after) ∧
        (fresh mac xid hostname).actions (before ++ .datagram bytes :: after) =
          (fresh mac xid hostname).actions (before ++ after)) ↔
      ¬ (exec poll (fresh mac xid hostname) before).AddresslessOffer bytes := by
  constructor
  · intro hsame hoffer
    have hend := congrArg Dhcp4.state (hsame []).1
    rw [List.append_nil, exec_concat, poll_addresslessOffer hoffer, hoffer.1] at hend
    cases hend
  · intro hoffer after
    have hpoll := poll_unusable h hoffer
    have hentry : entry poll (exec poll (fresh mac xid hostname) before) (.datagram bytes) =
        ⟨exec poll (fresh mac xid hostname) before, .datagram bytes, [],
          exec poll (fresh mac xid hostname) before⟩ := by
      rw [entry, hpoll]
    constructor
    · rw [exec_append, exec, hpoll, ← exec_append]
    · rw [actions_append, actions_append, actions, actions, log, hentry, List.flatMap_cons, hpoll,
        List.nil_append, actions]

/-! ## The offer of no address -/

/-- A reply of the exchange under way. -/
def sampleReply (kind : MessageType) (yiaddr : Ipv4Addr) : Message :=
  { Message.request 1 (.zero 6) with
    op := bootreply
    yiaddr
    options := [.messageType kind, .serverId (.replicate 4 2), .subnetMask (.replicate 4 255),
      .leaseTime 3600] }

theorem decode_sampleReply (kind : MessageType) (yiaddr : Ipv4Addr)
    (h : (DhcpOption.messageType kind).Proper) :
    Message.decode (sampleReply kind yiaddr).encode = .ok (sampleReply kind yiaddr) := by
  refine Message.WellFormed.decode_encode ⟨fun o hmem => ?_,
    Message.fitsField_empty (by decide), Message.fitsField_empty (by decide)⟩
  simp only [sampleReply, List.mem_cons, List.not_mem_nil, or_false] at hmem
  rcases hmem with rfl | rfl | rfl | rfl
  · exact ⟨by simp [DhcpOption.data], h⟩
  · exact ⟨by decide, trivial⟩
  · exact ⟨by decide, trivial⟩
  · exact ⟨by decide, trivial⟩

/-- A client at rest. -/
def sampleClient : Dhcp4 := fresh (.zero 6) 0 none

/-- The offer of an address, and one of none. -/
def sampleOffer : Bytes := (sampleReply .offer (.replicate 4 1)).encode

/-- An OFFER of no address. -/
def sampleAddressless : Bytes := (sampleReply .offer .unspecified).encode

/-- **An offer of no address is taken**: the client asks for it, and has no ear for the good offer
behind it. -/
theorem noise_fails :
    (exec poll sampleClient [.start 1]).Unusable sampleAddressless ∧
      exec poll sampleClient [.start 1, .datagram sampleAddressless] ≠
        exec poll sampleClient [.start 1] ∧
      (exec poll sampleClient [.start 1, .datagram sampleAddressless,
        .datagram sampleOffer]).offered = .unspecified ∧
      (exec poll sampleClient [.start 1, .datagram sampleOffer]).offered = .replicate 4 1 := by
  have hdecode := decode_sampleReply .offer .unspecified trivial
  refine ⟨.offer _ hdecode rfl (.inr rfl), fun h => ?_, by decide +kernel, by decide +kernel⟩
  have hend := congrArg Dhcp4.state h
  revert hend
  decide +kernel

/-- An address is offered and asked for. -/
def sampleRequested : List Dhcp.Input := [.start 1, .datagram sampleOffer]

/-- The acknowledgement of no address. -/
def sampleEmptyAck : Bytes := (sampleReply .ack .unspecified).encode

/-- An acknowledgement of no address, by contrast, is ignored. -/
theorem noise_ignored_sample :
    exec poll sampleClient (sampleRequested ++ .datagram sampleEmptyAck :: sampleRequested) =
        exec poll sampleClient (sampleRequested ++ sampleRequested) ∧
      sampleClient.actions (sampleRequested ++ .datagram sampleEmptyAck :: sampleRequested) =
        sampleClient.actions (sampleRequested ++ sampleRequested) := by
  have hdecode := decode_sampleReply .ack .unspecified trivial
  have hunusable : (exec poll sampleClient sampleRequested).Unusable sampleEmptyAck :=
    .ack _ .malformed hdecode rfl rfl
  have hstate : (exec poll sampleClient sampleRequested).state = .requesting := by decide +kernel
  have hoffer : ¬ (exec poll sampleClient sampleRequested).AddresslessOffer sampleEmptyAck := by
    intro h
    rw [h.1] at hstate
    cases hstate
  exact (noise_ignored_iff (.zero 6) 0 none sampleRequested sampleEmptyAck hunusable).mpr hoffer
    sampleRequested

end Dhcp4

end Caw
