import Caw.Dhcp.Codec
import Caw.Dhcp.Lifetime

/-!
# The messages of a client

Every datagram a client emits is read back as the message its state calls for.

* `Dhcp4.Sends`: the message that goes with a state;
* `decode_discover`, `decode_requestSelecting`, `decode_requestRenew`: how each is read;
* `Dhcp4.Accepts`, `Dhcp4.Grants`: the polls that take an offer and a lease;
* `Dhcp4.Remembers`, **`Remembers.step`**: what is remembered comes from the latest of them;
* `Dhcp4.Conforms`: what a message of each state carries;
* **`Dhcp4.requests_conform`**: every datagram of every run conforms, and its seconds never go back
  within an exchange.
-/

set_option autoImplicit false

namespace Caw

namespace Dhcp4

open Dhcp Machine

/-- The poll emits this datagram. -/
def Emits (e : Turn) (data : Bytes) : Prop :=
  .broadcast data ∈ e.output ∨ ∃ addr, .unicast addr data ∈ e.output

/-- The message that goes with a state. -/
inductive Sends (m : Dhcp4) : Bytes → Prop
  | discover : m.state = .selecting → Sends m m.discover
  | select : m.state = .requesting → Sends m m.requestSelecting
  | renew : m.state = .renewing ∨ m.state = .rebinding → Sends m m.requestRenew

variable {past : List Turn} {m m' : Dhcp4} {input : Dhcp.Input} {out : List Dhcp.Action}

/-- **A poll emits nothing but the message of the state it ends in.** -/
theorem sends_of_step (h : Step m input m' out) {data : Bytes}
    (hdata : Emits ⟨m, input, out, m'⟩ data) : m'.Sends data := by
  cases h with
  | ignore | ack | nak | expire | giveUp => simp [Emits] at hdata
  | start xid =>
    have hd : data = (m.started xid).discover := by simpa [Emits, broadcast] using hdata
    rw [hd]
    exact .discover rfl
  | offer bytes msg server =>
    have hd : data = (m.accepting server msg.yiaddr).requestSelecting := by
      simpa [Emits, broadcast] using hdata
    rw [hd]
    exact .select rfl
  | resend sent hst hmore hsent =>
    have hd : data = sent := by simpa [Emits, broadcast] using hdata
    rw [hd, hsent]
    rcases hst with hst | hst
    · rw [if_pos hst]
      exact .discover hst
    · rw [if_neg (by simp [hst])]
      exact .select hst
  | renewAgain hst =>
    have hd : data = m.halveRenewInterval.requestRenew := by simpa [Emits] using hdata
    rw [hd]
    exact .renew (.inl hst)
  | rebindAgain hst =>
    have hd : data = m.halveRenewInterval.requestRenew := by simpa [Emits] using hdata
    rw [hd]
    exact .renew (.inr hst)
  | renew lease =>
    have hd : data = (m.renewWith lease).requestRenew := by simpa [Emits] using hdata
    rw [hd]
    exact .renew (.inl rfl)
  | rebind lease =>
    have hd : data = (m.rebindWith lease).requestRenew := by simpa [Emits] using hdata
    rw [hd]
    exact .renew (.inr rfl)

/-! ## How the messages are read -/

/-- The options every message carries, as they are read: a long name is cut off. -/
def readOptions (m : Dhcp4) (kind : MessageType) : List DhcpOption :=
  [.messageType kind, .clientId (htypeEthernet :: m.mac.toList)] ++
    (m.hostname.map fun name =>
      DhcpOption.hostName (Text.lossy (name.toUTF8.toList.take 255))).toList ++
    [.parameterRequest paramRequest]

theorem reads_base (m : Dhcp4) (kind : MessageType) (h : (DhcpOption.messageType kind).Proper) :
    List.Forall₂ DhcpOption.Reads (m.base kind).options (m.readOptions kind) := by
  have htype : DhcpOption.Reads (.messageType kind) (.messageType kind) :=
    DhcpOption.WellFormed.reads ⟨by simp [DhcpOption.data], h⟩
  have hclient : DhcpOption.Reads (.clientId (htypeEthernet :: m.mac.toList))
      (.clientId (htypeEthernet :: m.mac.toList)) :=
    DhcpOption.WellFormed.reads ⟨by simp [DhcpOption.data], trivial⟩
  have hparams : DhcpOption.Reads (.parameterRequest paramRequest)
      (.parameterRequest paramRequest) :=
    DhcpOption.WellFormed.reads ⟨by decide, trivial⟩
  unfold base readOptions
  cases m.hostname with
  | none => exact .cons htype (.cons hclient (.cons hparams .nil))
  | some name =>
    have hname : DhcpOption.Reads (.hostName name)
        (.hostName (Text.lossy (name.toUTF8.toList.take 255))) :=
      ⟨(by decide : optHostname ∉ DhcpOption.framingCodes), rfl⟩
    exact .cons htype (.cons hclient (.cons hname (.cons hparams .nil)))

theorem decode_plain {msg : Message} {options : List DhcpOption} (hsname : msg.sname = "")
    (hfile : msg.file = "") (h : List.Forall₂ DhcpOption.Reads msg.options options) :
    Message.decode msg.encode = .ok { msg with options := options } := by
  have hempty (width : ℕ) (hwidth : 0 < width) : textField (textOut "" width) = "" :=
    textField_textOut (Message.fitsField_empty hwidth).1 (Message.fitsField_empty hwidth).2
  rw [Message.decode_encode_of h, hsname, hfile, hempty _ (by decide), hempty _ (by decide),
    ← hsname]

theorem decode_discover (m : Dhcp4) : Message.decode m.discover =
    .ok { m.base .discover with flags := flagBroadcast, options := m.readOptions .discover } :=
  decode_plain rfl rfl (m.reads_base _ trivial)

theorem decode_requestSelecting {server : Ipv4Addr} (h : m.server = some server) :
    Message.decode m.requestSelecting = .ok { m.base .request with
      flags := flagBroadcast
      options := m.readOptions .request ++ [.requestedIp m.offered] ++ [.serverId server] } := by
  have hoffered : DhcpOption.Reads (.requestedIp m.offered) (.requestedIp m.offered) :=
    DhcpOption.WellFormed.reads ⟨by simp [DhcpOption.data], trivial⟩
  have hserver : DhcpOption.Reads (.serverId server) (.serverId server) :=
    DhcpOption.WellFormed.reads ⟨by simp [DhcpOption.data], trivial⟩
  unfold requestSelecting
  rw [h]
  exact decode_plain rfl rfl
    (List.rel_append (List.rel_append (m.reads_base .request trivial) (.cons hoffered .nil))
      (.cons hserver .nil))

theorem decode_requestRenew (m : Dhcp4) : Message.decode m.requestRenew =
    .ok { m.base .request with
      ciaddr := (m.lease.map Lease.addr).getD .unspecified
      options := m.readOptions .request } :=
  decode_plain rfl rfl (m.reads_base _ trivial)

/-! ## What the client remembers -/

/-- The poll takes an offer. -/
def Accepts (e : Turn) (offer : Message) : Prop :=
  e.pre.state = .selecting ∧ e.post.state = .requesting ∧
    ∃ bytes, e.input = .datagram bytes ∧ Message.decode bytes = .ok offer

/-- The poll hands a lease to the caller. -/
def Grants (e : Turn) (lease : Lease) : Prop := .configured lease ∈ e.output

/-- The offer and the lease in the client's fields are the latest it took. -/
structure Remembers (past : List Turn) (m : Dhcp4) : Prop where
  inv : LeaseInv m
  offer : m.state = .requesting → ∃ offer, Latest Accepts past offer ∧ m.offered = offer.yiaddr ∧
    offer.serverId = m.server ∧ m.server.isSome
  lease : ∀ lease, m.lease = some lease → Latest Grants past lease

theorem remembers_fresh (mac : Mac) (xid : UInt32) (hostname : Option String) :
    Remembers [] (fresh mac xid hostname) :=
  ⟨leaseInv_new mac xid, nofun, nofun⟩

theorem Remembers.keep_lease (h : Remembers past m) (hlease : m'.lease = m.lease)
    (hout : ∀ lease, .configured lease ∉ out) (lease : Lease) (hm : m'.lease = some lease) :
    Latest Grants (past ++ [⟨m, input, out, m'⟩]) lease :=
  (latest_concat past _ lease).mpr (.inr ⟨hout, h.lease lease (hlease ▸ hm)⟩)

theorem Remembers.keep_offer (h : Remembers past m) (hst : m.state = .requesting)
    (hoffered : m'.offered = m.offered) (hserver : m'.server = m.server) :
    ∃ offer, Latest Accepts (past ++ [⟨m, input, out, m'⟩]) offer ∧ m'.offered = offer.yiaddr ∧
      offer.serverId = m'.server ∧ m'.server.isSome := by
  obtain ⟨offer, hlatest, hfields⟩ := h.offer hst
  refine ⟨offer, (latest_concat past _ offer).mpr (.inr ⟨fun offer' haccepts => ?_, hlatest⟩), ?_⟩
  · have hpre : m.state = .selecting := haccepts.1
    rw [hst] at hpre
    cases hpre
  · rw [hoffered, hserver]
    exact hfields

/-- **Every poll keeps what is remembered.** -/
theorem Remembers.step (h : Remembers past m) (input : Dhcp.Input) :
    Remembers (past ++ [entry poll m input]) (m.poll input).1 := by
  have hs := m.poll_step input
  have hinv := h.inv.poll input
  unfold entry
  generalize m.poll input = r at hs hinv ⊢
  obtain ⟨m', out⟩ := r
  cases hs with
  | ignore =>
    exact ⟨hinv, fun hst => h.keep_offer hst rfl rfl, h.keep_lease rfl fun _ => List.not_mem_nil⟩
  | start => exact ⟨hinv, nofun, nofun⟩
  | offer bytes msg server hmsg htype hserver hst =>
    refine ⟨hinv, fun _ => ⟨msg, (latest_concat past _ msg).mpr (.inl ?_), rfl, hserver, rfl⟩,
      h.keep_lease rfl (by simp)⟩
    exact ⟨hst, rfl, bytes, rfl, hmsg.decoded⟩
  | ack bytes msg lease =>
    refine ⟨hinv, nofun, fun lease' hm => (latest_concat past _ lease').mpr (.inl ?_)⟩
    cases hm
    exact List.mem_of_getLast? rfl
  | nak => exact ⟨hinv, nofun, nofun⟩
  | expire => exact ⟨hinv, nofun, nofun⟩
  | giveUp => exact ⟨hinv, nofun, h.keep_lease rfl (by simp)⟩
  | resend =>
    exact ⟨hinv, fun hst => h.keep_offer hst rfl rfl, h.keep_lease rfl (by simp)⟩
  | renewAgain hrenewing =>
    exact ⟨hinv, fun hst => h.keep_offer hst rfl rfl, h.keep_lease rfl (by simp)⟩
  | rebindAgain hrebinding =>
    exact ⟨hinv, fun hst => h.keep_offer hst rfl rfl, h.keep_lease rfl (by simp)⟩
  | renew => exact ⟨hinv, nofun, h.keep_lease rfl (by simp)⟩
  | rebind => exact ⟨hinv, nofun, h.keep_lease rfl (by simp)⟩

/-! ## What a message carries -/

/-- The DISCOVER of a client that awaits offers. -/
structure IsDiscover (msg : Message) : Prop where
  type : msg.messageType = some .discover
  ciaddr : msg.ciaddr = .unspecified
  flags : msg.flags = flagBroadcast

/-- The REQUEST that answers this offer. -/
structure Answers (offer msg : Message) : Prop where
  type : msg.messageType = some .request
  ciaddr : msg.ciaddr = .unspecified
  requested : msg.get optRequestedIp = some (.requestedIp offer.yiaddr)
  server : ∃ server, offer.serverId = some server ∧ msg.get optServerId = some (.serverId server)

/-- The REQUEST that extends this lease. -/
structure Extends (lease : Lease) (msg : Message) : Prop where
  type : msg.messageType = some .request
  ciaddr : msg.ciaddr = lease.addr
  requested : msg.get optRequestedIp = none
  server : msg.get optServerId = none

/-- The message emitted at the end of a log, by the state of the client. -/
inductive ByState (past : List Turn) (m : Dhcp4) (msg : Message) : Prop
  | discover : m.state = .selecting → IsDiscover msg → ByState past m msg
  | select (offer) : m.state = .requesting → Latest Accepts past offer → Answers offer msg →
      ByState past m msg
  | renew (lease) : m.state = .renewing ∨ m.state = .rebinding → m.lease = some lease →
      Latest Grants past lease → Extends lease msg → ByState past m msg

/-- The message emitted at the end of a log conforms. -/
structure Conforms (past : List Turn) (m : Dhcp4) (msg : Message) : Prop where
  op : msg.op = bootrequest
  xid : msg.xid = m.xid
  chaddr : msg.chaddr = Bytes.slice 0 16 m.mac.toList
  secs : msg.secs.toNat = min m.elapsed 65535
  byState : ByState past m msg

theorem secs_base (m : Dhcp4) (kind : MessageType) :
    (m.base kind).secs.toNat = min m.elapsed 65535 := by
  change (UInt16.ofNat (min m.elapsed 65535)).toNat = _
  rw [UInt16.toNat_ofNat']
  omega

theorem messageType_readOptions (m : Dhcp4) (kind : MessageType) (rest : List DhcpOption)
    {msg : Message} (h : msg.options = m.readOptions kind ++ rest) :
    msg.messageType = some kind := by
  rw [Message.messageType, h]
  rfl

theorem find_readOptions (m : Dhcp4) (kind : MessageType) {code : UInt8}
    (h : code = optRequestedIp ∨ code = optServerId) :
    (m.readOptions kind).find? (fun o => o.code = code) = none := by
  rw [List.find?_eq_none]
  intro o hmem
  have hcode : o.code ∈ [optMessageType, optClientId, optHostname, optParamRequest] := by
    simp only [readOptions, List.mem_append, List.mem_cons, List.not_mem_nil, or_false,
      Option.mem_toList, Option.map_eq_some_iff] at hmem
    rcases hmem with ((rfl | rfl) | ⟨name, -, rfl⟩) | rfl <;> simp [DhcpOption.code]
  have hne : code ∉ [optMessageType, optClientId, optHostname, optParamRequest] := by
    rcases h with rfl | rfl <;> decide
  simpa using fun heq : o.code = code => hne (heq ▸ hcode)

/-- **What is sent conforms.** -/
theorem Remembers.conforms (h : Remembers past m) {data : Bytes} (hsends : m.Sends data) :
    ∃ msg, Message.decode data = .ok msg ∧ Conforms past m msg := by
  cases hsends with
  | discover hst =>
    refine ⟨_, m.decode_discover, rfl, rfl, rfl, m.secs_base .discover,
      .discover hst ⟨?_, rfl, rfl⟩⟩
    exact m.messageType_readOptions .discover [] (List.append_nil _).symm
  | select hst =>
    obtain ⟨offer, hlatest, hoffered, hserver, hsome⟩ := h.offer hst
    obtain ⟨server, hm⟩ := Option.isSome_iff_exists.mp hsome
    refine ⟨_, decode_requestSelecting hm, rfl, rfl, rfl, m.secs_base .request,
      .select offer hst hlatest ⟨?_, rfl, ?_, server, hserver.trans hm, ?_⟩⟩
    · exact m.messageType_readOptions .request _ (List.append_assoc _ _ _)
    · rw [Message.get, List.find?_append, List.find?_append, m.find_readOptions _ (.inl rfl),
        ← hoffered]
      rfl
    · rw [Message.get, List.find?_append, List.find?_append, m.find_readOptions _ (.inr rfl)]
      rfl
  | renew hst =>
    have hholding : Holding m.state := .inr hst
    obtain ⟨lease, hm⟩ := Option.isSome_iff_exists.mp (h.inv.mpr hholding)
    refine ⟨_, m.decode_requestRenew, rfl, rfl, rfl, m.secs_base .request,
      .renew lease hst hm (h.lease lease hm) ⟨?_, ?_, ?_, ?_⟩⟩
    · exact m.messageType_readOptions .request [] (List.append_nil _).symm
    · rw [hm]
      rfl
    · exact m.find_readOptions _ (.inl rfl)
    · exact m.find_readOptions _ (.inr rfl)

/-! ## The seconds of an exchange -/

theorem secs_le_poll (m : Dhcp4) {input : Dhcp.Input} (h : ∀ xid, input ≠ .start xid) :
    min m.elapsed 65535 ≤ min (m.poll input).1.elapsed 65535 := by
  have hs := m.poll_step input
  generalize m.poll input = r at hs ⊢
  obtain ⟨m', out⟩ := r
  cases hs with
  | start xid => exact absurd rfl (h xid)
  | resend =>
    have hage : m.age.elapsed = min (m.elapsed + m.backoff) (2 ^ 32 - 1) := rfl
    change min m.elapsed 65535 ≤ min m.age.elapsed 65535
    omega
  | _ => exact le_rfl

theorem secs_le_exec (m : Dhcp4) {inputs : List Dhcp.Input} (h : ∀ xid, .start xid ∉ inputs) :
    min m.elapsed 65535 ≤ min (exec poll m inputs).elapsed 65535 := by
  induction inputs generalizing m with
  | nil => exact le_rfl
  | cons input inputs ih =>
    have hinput : ∀ xid, input ≠ .start xid := fun xid heq => h xid (heq ▸ List.mem_cons_self)
    exact (m.secs_le_poll hinput).trans (ih _ fun xid hmem => h xid (List.mem_cons_of_mem _ hmem))

/-! ## Every run -/

theorem remembers_run (mac : Mac) (xid : UInt32) (hostname : Option String)
    (inputs : List Dhcp.Input) : Remembers (log poll (fresh mac xid hostname) inputs)
      (exec poll (fresh mac xid hostname) inputs) :=
  run_induction (J := Remembers) (G := fun _ _ => True) (remembers_fresh mac xid hostname)
    (fun _ _ input h _ => h.step input) inputs fun _ _ _ _ => trivial

/-- **Every message of a client conforms.** Whatever reaches a client, each datagram it emits is
read back as the message its state calls for; and the seconds of two messages of one exchange,
whatever lies between them, are in their order. -/
theorem requests_conform (mac : Mac) (xid : UInt32) (hostname : Option String) :
    (∀ inputs, Along (fun past e => ∀ data, Emits e data →
        ∃ msg, Message.decode data = .ok msg ∧ Conforms (past ++ [e]) e.post msg)
      (log poll (fresh mac xid hostname) inputs)) ∧
    ∀ (before between : List Dhcp.Input) (first second : Dhcp.Input),
      (∀ xid, .start xid ∉ between ++ [second]) → ∀ data data' msg msg',
      Emits (entry poll (exec poll (fresh mac xid hostname) before) first) data →
      Emits (entry poll (exec poll (fresh mac xid hostname) (before ++ first :: between)) second)
        data' →
      Message.decode data = .ok msg → Message.decode data' = .ok msg' → msg.secs ≤ msg'.secs := by
  have hconforms (before : List Dhcp.Input) (input : Dhcp.Input) {data : Bytes}
      (hdata : Emits (entry poll (exec poll (fresh mac xid hostname) before) input) data) :
      ∃ msg, Message.decode data = .ok msg ∧ Conforms (log poll (fresh mac xid hostname) before ++
        [entry poll (exec poll (fresh mac xid hostname) before) input])
        ((exec poll (fresh mac xid hostname) before).poll input).1 msg :=
    ((remembers_run mac xid hostname before).step input).conforms
      (sends_of_step (Dhcp4.poll_step _ input) hdata)
  constructor
  · exact fun inputs => (along_log_iff _ _ _).mpr fun before input after _ data hdata =>
      hconforms before input hdata
  · intro before between first second hstart data data' msg msg' hdata hdata' hmsg hmsg'
    obtain ⟨read, hread, hc⟩ := hconforms before first hdata
    obtain ⟨read', hread', hc'⟩ := hconforms (before ++ first :: between) second hdata'
    cases hmsg.symm.trans hread
    cases hmsg'.symm.trans hread'
    have hend : ((exec poll (fresh mac xid hostname) (before ++ first :: between)).poll second).1 =
        exec poll ((exec poll (fresh mac xid hostname) before).poll first).1
          (between ++ [second]) := by
      rw [exec_append, exec_append, exec]
      rfl
    rw [UInt16.le_iff_toNat_le, hc.secs, hc'.secs, hend]
    exact secs_le_exec _ hstart

/-- A DISCOVER and the one sent again when nobody answers. -/
theorem requests_conform_sample : ∃ data data' msg msg',
    Emits (entry poll (fresh (.zero 6) 0 none) (.start 1)) data ∧
      Emits (entry poll (exec poll (fresh (.zero 6) 0 none) [.start 1])
        (.timeout .retransmit)) data' ∧
      Message.decode data = .ok msg ∧ Message.decode data' = .ok msg' ∧ msg.secs ≤ msg'.secs := by
  let m := (fresh (.zero 6) 0 none).started 1
  have hdata : Emits (entry poll (fresh (.zero 6) 0 none) (.start 1)) m.discover :=
    .inl List.mem_cons_self
  have hdata' : Emits (entry poll (exec poll (fresh (.zero 6) 0 none) [.start 1])
      (.timeout .retransmit)) m.age.discover := .inl List.mem_cons_self
  exact ⟨_, _, _, _, hdata, hdata', m.decode_discover, m.age.decode_discover,
    (requests_conform (.zero 6) 0 none).2 [] [] (.start 1) (.timeout .retransmit) (by simp) _ _ _ _
      hdata hdata' m.decode_discover m.age.decode_discover⟩

end Dhcp4

end Caw
