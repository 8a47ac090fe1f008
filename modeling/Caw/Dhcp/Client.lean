import Caw.Dhcp.Message

/-!
# The DHCPv4 client

The client of RFC 2131 as a state machine fed with datagrams and timer expiries.

* `Lease`, `Lease.fromAck`;
* `Dhcp4`, `Dhcp4.poll` and its handlers;
* `Dhcp4.Datagram`: the checks a datagram has passed when a handler sees it;
* **`Dhcp4.poll_step`**: every poll is one of the cases of `Dhcp4.Step`;
* **`Dhcp4.LeaseInv.poll`**: a lease is held exactly in the bound, renewing and rebinding states.
-/

set_option autoImplicit false

namespace Caw

namespace Dhcp

/-- Options caw asks every server for. -/
def paramRequest : Bytes := [optSubnetMask, optRouter, optDns, optLeaseTime, optT1, optT2]

/-- The floor of the renewal retransmission interval, in seconds. -/
def minRenewInterval : ℕ := 60

/-- Sends of a DISCOVER or of a selecting REQUEST before the exchange is given up. -/
def maxTries : ℕ := 4

/-- A configured address and everything that comes with it; times are in seconds from the grant. -/
structure Lease where
  addr : Ipv4Addr
  prefixLen : ℕ
  gateway : Option Ipv4Addr
  dns : List Ipv4Addr
  server : Ipv4Addr
  leaseSecs : ℕ
  renewSecs : ℕ
  rebindSecs : ℕ
deriving DecidableEq

/-- The server's T1 where it lies inside the lease, or half the lease. -/
def renewTime (msg : Message) (leaseSecs : ℕ) : ℕ :=
  match msg.get optT1 with
  | some (.t1 t) => if 0 < t.toNat ∧ t.toNat < leaseSecs then t.toNat else leaseSecs / 2
  | _ => leaseSecs / 2

/-- The server's T2 where it lies between T1 and the end of the lease, or seven eighths of it. -/
def rebindTime (msg : Message) (leaseSecs renewSecs : ℕ) : ℕ :=
  let fallback := max (leaseSecs * 7 / 8) renewSecs
  match msg.get optT2 with
  | some (.t2 t) => if renewSecs < t.toNat ∧ t.toNat < leaseSecs then t.toNat else fallback
  | _ => fallback

/-- Read a lease out of a DHCPACK. -/
def Lease.fromAck (msg : Message) : Except Error Lease :=
  match msg.messageType with
  | some .nak => .error .nak
  | some .ack =>
    if msg.yiaddr = .unspecified then .error .malformed
    else
      match msg.get optSubnetMask with
      | some (.subnetMask mask) =>
        match prefixLenFromMask mask with
        | none => .error .malformed
        | some prefixLen =>
          match msg.get optLeaseTime with
          | some (.leaseTime secs) =>
            match msg.serverId with
            | none => .error (.incomplete optServerId)
            | some server =>
              let leaseSecs := secs.toNat
              let renewSecs := renewTime msg leaseSecs
              .ok { addr := msg.yiaddr, prefixLen, server, leaseSecs, renewSecs
                    rebindSecs := rebindTime msg leaseSecs renewSecs
                    -- a router of 0.0.0.0 says that there is no gateway
                    gateway := match msg.get optRouter with
                      | some (.router list) => list.find? (· ≠ .unspecified)
                      | _ => none
                    dns := match msg.get optDns with
                      | some (.dns list) => list
                      | _ => [] }
          | _ => .error (.incomplete optLeaseTime)
      | _ => .error (.incomplete optSubnetMask)
  | _ => .error .malformed

/-- Where the exchange has got to. -/
inductive State where
  | init
  | selecting
  | requesting
  | bound
  | renewing
  | rebinding
deriving DecidableEq

/-- Timers the caller arms on the machine's behalf. -/
inductive Timer where
  | retransmit
  | renew
  | rebind
  | expire
deriving DecidableEq

/-- Why a configured lease has to come off the interface. -/
inductive Reason where
  | nak
  | expired
deriving DecidableEq

/-- What happens to an exchange. -/
inductive Input where
  | start (xid : UInt32)
  | datagram (bytes : Bytes)
  | timeout (timer : Timer)
deriving DecidableEq

/-- What the caller must do. -/
inductive Action where
  | broadcast (data : Bytes)
  | unicast (addr : Ipv4Addr) (data : Bytes)
  | setTimer (timer : Timer) (secs : ℕ)
  | configured (lease : Lease)
  | deconfigure (reason : Reason)
  | failed
deriving DecidableEq

end Dhcp

open Dhcp

/-- One DHCPv4 exchange on one interface. -/
structure Dhcp4 where
  mac : Mac
  hostname : Option String
  xid : UInt32
  state : Dhcp.State
  /-- The server of the offer or ack in play. -/
  server : Option Ipv4Addr
  offered : Ipv4Addr
  lease : Option Lease
  tries : ℕ
  elapsed : ℕ
  renewInterval : ℕ
deriving DecidableEq

namespace Dhcp4

/-- A client that has sent nothing yet. -/
def new (mac : Mac) (xid : UInt32) : Dhcp4 where
  mac := mac
  hostname := none
  xid := xid
  state := .init
  server := none
  offered := .unspecified
  lease := none
  tries := 0
  elapsed := 0
  renewInterval := minRenewInterval

/-- The exchange with a name to give. -/
def withHostname (m : Dhcp4) (hostname : String) : Dhcp4 := { m with hostname := some hostname }

/-! ## The messages sent -/

/-- Four seconds, doubling to sixty-four, a second more or less by a bit of the transaction id. -/
def backoff (m : Dhcp4) : ℕ :=
  let base := 4 * 2 ^ min m.tries 4
  if m.xid.toNat.testBit (m.tries % 32) then base + 1 else base - 1

/-- Charge the interval that has elapsed, and move on to the next one. -/
def age (m : Dhcp4) : Dhcp4 :=
  { m with elapsed := min (m.elapsed + m.backoff) (2 ^ 32 - 1), tries := m.tries + 1 }

/-- A message to the server, with the options all of them have. -/
def base (m : Dhcp4) (kind : MessageType) : Message :=
  { Message.request m.xid m.mac with
    secs := UInt16.ofNat (min m.elapsed 65535)
    options := [.messageType kind, .clientId (htypeEthernet :: m.mac.toList)] ++
      (m.hostname.map DhcpOption.hostName).toList ++ [.parameterRequest paramRequest] }

/-- A DISCOVER. -/
def discover (m : Dhcp4) : Bytes := { m.base .discover with flags := flagBroadcast }.encode

/-- The REQUEST that answers an offer. -/
def requestSelecting (m : Dhcp4) : Bytes :=
  let msg := m.base .request
  { msg with
    flags := flagBroadcast
    options := msg.options ++ [DhcpOption.requestedIp m.offered] ++
      (m.server.map DhcpOption.serverId).toList }.encode

/-- The REQUEST that renews or rebinds: the address moves to `ciaddr`. -/
def requestRenew (m : Dhcp4) : Bytes :=
  { m.base .request with ciaddr := (m.lease.map Lease.addr).getD .unspecified }.encode

/-- Broadcast a message and wait for the answer. -/
def broadcast (m : Dhcp4) (data : Bytes) : List Action :=
  [.broadcast data, .setTimer .retransmit m.backoff]

/-! ## Handlers -/

/-- The client once an exchange is begun. -/
def started (m : Dhcp4) (xid : UInt32) : Dhcp4 :=
  { m with xid := xid, state := .selecting, server := none, offered := .unspecified, lease := none
           tries := 0, elapsed := 0 }

/-- Begin the exchange under a fresh identifier. -/
def start (m : Dhcp4) (xid : UInt32) : Dhcp4 × List Action :=
  let m := m.started xid
  (m, m.broadcast m.discover)

/-- The client once an offer is accepted. -/
def accepting (m : Dhcp4) (server offered : Ipv4Addr) : Dhcp4 :=
  { m with server := some server, offered := offered, state := .requesting, tries := 0 }

/-- An OFFER is taken while one is looked for. -/
def onOffer (m : Dhcp4) (msg : Message) : Dhcp4 × List Action :=
  match msg.serverId with
  | none => (m, [])
  | some server =>
    let m := m.accepting server msg.yiaddr
    (m, m.broadcast m.requestSelecting)

/-- The client once it holds a lease. -/
def leased (m : Dhcp4) (lease : Lease) : Dhcp4 :=
  { m with state := .bound, server := some lease.server, tries := 0, lease := some lease }

/-- An ACK is a lease, if it can be read as one. -/
def onAck (m : Dhcp4) (msg : Message) : Dhcp4 × List Action :=
  match Lease.fromAck msg with
  | .error _ => (m, [])
  | .ok lease =>
    (m.leased lease,
      [.setTimer .renew lease.renewSecs, .setTimer .rebind lease.rebindSecs,
        .setTimer .expire lease.leaseSecs, .configured lease])

/-- The client once its lease, or the address it asked for, is gone. -/
def unleased (m : Dhcp4) : Dhcp4 := { m with state := .init, server := none, lease := none }

/-- A NAK ends the lease. -/
def onNak (m : Dhcp4) : Dhcp4 × List Action := (m.unleased, [.deconfigure .nak])

/-- A datagram of the server, for an exchange that waits for it. -/
def onDatagram (m : Dhcp4) (bytes : Bytes) : Dhcp4 × List Action :=
  match Message.decode bytes with
  | .error _ => (m, [])
  | .ok msg =>
    if msg.op ≠ bootreply ∨ msg.xid ≠ m.xid ∨ Bytes.slice 0 6 msg.chaddr.toList ≠ m.mac then (m, [])
    else
      match m.state, msg.messageType with
      | .selecting, some .offer => m.onOffer msg
      | .requesting, some .ack | .renewing, some .ack | .rebinding, some .ack => m.onAck msg
      | .requesting, some .nak | .renewing, some .nak | .rebinding, some .nak => m.onNak
      | _, _ => (m, [])

/-- The client once the exchange is given up. -/
def gaveUp (m : Dhcp4) : Dhcp4 :=
  { m with state := .init, server := none, offered := .unspecified }

/-- The renewal interval halves down to its floor. -/
def halveRenewInterval (m : Dhcp4) : Dhcp4 :=
  { m with renewInterval := max (m.renewInterval / 2) minRenewInterval }

/-- Nothing has come: the message is sent again, or the exchange gives up. -/
def retransmit (m : Dhcp4) : Dhcp4 × List Action :=
  match m.state with
  | .selecting =>
    if m.tries + 1 ≥ maxTries then (m.gaveUp, [.failed]) else (m.age, m.age.broadcast m.age.discover)
  | .requesting =>
    if m.tries + 1 ≥ maxTries then (m.gaveUp, [.failed])
    else (m.age, m.age.broadcast m.age.requestSelecting)
  | .renewing =>
    let m := m.halveRenewInterval
    (m, [.unicast (m.server.getD .broadcast) m.requestRenew, .setTimer .retransmit m.renewInterval])
  | .rebinding =>
    let m := m.halveRenewInterval
    (m, [.broadcast m.requestRenew, .setTimer .retransmit m.renewInterval])
  | .init | .bound => (m, [])

/-- The client once it renews with the granting server: half the time left until T2. -/
def renewWith (m : Dhcp4) (lease : Lease) : Dhcp4 :=
  { m with state := .renewing
           renewInterval := max ((lease.rebindSecs - lease.renewSecs) / 2) minRenewInterval }

/-- Ask the server of the lease to extend it. -/
def enterRenewing (m : Dhcp4) : Dhcp4 × List Action :=
  match m.lease with
  | none => (m, [])
  | some lease =>
    let m := m.renewWith lease
    (m, [.unicast lease.server m.requestRenew, .setTimer .retransmit m.renewInterval])

/-- The client once it asks any server. -/
def rebindWith (m : Dhcp4) (lease : Lease) : Dhcp4 :=
  { m with state := .rebinding
           renewInterval := max ((lease.leaseSecs - lease.rebindSecs) / 2) minRenewInterval }

/-- Ask any server to extend the lease. -/
def enterRebinding (m : Dhcp4) : Dhcp4 × List Action :=
  match m.lease with
  | none => (m, [])
  | some lease =>
    let m := m.rebindWith lease
    (m, [.broadcast m.requestRenew, .setTimer .retransmit m.renewInterval])

/-- A deadline has run out. -/
def onTimeout (m : Dhcp4) (timer : Timer) : Dhcp4 × List Action :=
  match timer with
  | .retransmit => m.retransmit
  | .renew => if m.state = .bound then m.enterRenewing else (m, [])
  | .rebind => if m.state = .bound ∨ m.state = .renewing then m.enterRebinding else (m, [])
  | .expire => if m.lease.isSome then (m.unleased, [.deconfigure .expired]) else (m, [])

/-- One input, and the actions it leads to. -/
def poll (m : Dhcp4) : Dhcp.Input → Dhcp4 × List Action
  | .start xid => m.start xid
  | .datagram bytes => m.onDatagram bytes
  | .timeout timer => m.onTimeout timer

/-! ## What one poll can do -/

/-- A reply of this exchange. -/
structure Datagram (m : Dhcp4) (bytes : Bytes) (msg : Message) : Prop where
  decoded : Message.decode bytes = .ok msg
  isReply : msg.op = bootreply
  sameXid : msg.xid = m.xid
  sameMac : Bytes.slice 0 6 msg.chaddr.toList = m.mac

/-- The states in which a REQUEST is unanswered. -/
def Asking (s : Dhcp.State) : Prop := s = .requesting ∨ s = .renewing ∨ s = .rebinding

/-- **What one poll can do.** -/
inductive Step (m : Dhcp4) : Dhcp.Input → Dhcp4 → List Action → Prop
  | ignore (input) : Step m input m []
  | start (xid) : Step m (.start xid) (m.started xid)
      ((m.started xid).broadcast (m.started xid).discover)
  | offer (bytes msg server) : m.Datagram bytes msg → msg.messageType = some .offer →
      msg.serverId = some server → m.state = .selecting →
      Step m (.datagram bytes) (m.accepting server msg.yiaddr)
        ((m.accepting server msg.yiaddr).broadcast (m.accepting server msg.yiaddr).requestSelecting)
  | ack (bytes msg lease) : m.Datagram bytes msg → Lease.fromAck msg = .ok lease → Asking m.state →
      Step m (.datagram bytes) (m.leased lease)
        [.setTimer .renew lease.renewSecs, .setTimer .rebind lease.rebindSecs,
          .setTimer .expire lease.leaseSecs, .configured lease]
  | nak (bytes msg) : m.Datagram bytes msg → msg.messageType = some .nak → Asking m.state →
      Step m (.datagram bytes) m.unleased [.deconfigure .nak]
  | expire (lease) : m.lease = some lease → Step m (.timeout .expire) m.unleased [.deconfigure .expired]
  | giveUp : m.state = .selecting ∨ m.state = .requesting → maxTries ≤ m.tries + 1 →
      Step m (.timeout .retransmit) m.gaveUp [.failed]
  | resend (data) : m.state = .selecting ∨ m.state = .requesting → m.tries + 1 < maxTries →
      data = (if m.state = .selecting then m.age.discover else m.age.requestSelecting) →
      Step m (.timeout .retransmit) m.age (m.age.broadcast data)
  | renewAgain : m.state = .renewing →
      Step m (.timeout .retransmit) m.halveRenewInterval
        [.unicast (m.server.getD .broadcast) m.halveRenewInterval.requestRenew,
          .setTimer .retransmit m.halveRenewInterval.renewInterval]
  | rebindAgain : m.state = .rebinding →
      Step m (.timeout .retransmit) m.halveRenewInterval
        [.broadcast m.halveRenewInterval.requestRenew,
          .setTimer .retransmit m.halveRenewInterval.renewInterval]
  | renew (lease) : m.state = .bound → m.lease = some lease →
      Step m (.timeout .renew) (m.renewWith lease)
        [.unicast lease.server (m.renewWith lease).requestRenew,
          .setTimer .retransmit (m.renewWith lease).renewInterval]
  | rebind (lease) : m.state = .bound ∨ m.state = .renewing → m.lease = some lease →
      Step m (.timeout .rebind) (m.rebindWith lease)
        [.broadcast (m.rebindWith lease).requestRenew,
          .setTimer .retransmit (m.rebindWith lease).renewInterval]

section Inversion

variable (m : Dhcp4)

theorem onAck_step {bytes : Bytes} {msg : Message} (h : m.Datagram bytes msg) (hs : Asking m.state) :
    Step m (.datagram bytes) (m.onAck msg).1 (m.onAck msg).2 := by
  unfold onAck
  cases hack : Lease.fromAck msg with
  | error e => exact .ignore _
  | ok lease => exact .ack bytes msg lease h hack hs

theorem onDatagram_step (bytes : Bytes) :
    Step m (.datagram bytes) (m.onDatagram bytes).1 (m.onDatagram bytes).2 := by
  unfold onDatagram
  cases hmsg : Message.decode bytes with
  | error e => exact .ignore _
  | ok msg =>
    by_cases hbad : msg.op ≠ bootreply ∨ msg.xid ≠ m.xid ∨ Bytes.slice 0 6 msg.chaddr.toList ≠ m.mac
    · simp only [hbad, if_true]
      exact .ignore _
    · have h : m.Datagram bytes msg := by
        simp only [not_or, not_not] at hbad
        exact ⟨hmsg, hbad.1, hbad.2.1, hbad.2.2⟩
      simp only [hbad, if_false]
      split
      · rename_i hst htype
        unfold onOffer
        cases hserver : msg.serverId with
        | none => exact .ignore _
        | some server => exact .offer bytes msg server h htype hserver hst
      · rename_i hst _
        exact m.onAck_step h (.inl hst)
      · rename_i hst _
        exact m.onAck_step h (.inr (.inl hst))
      · rename_i hst _
        exact m.onAck_step h (.inr (.inr hst))
      · rename_i hst htype
        exact .nak bytes msg h htype (.inl hst)
      · rename_i hst htype
        exact .nak bytes msg h htype (.inr (.inl hst))
      · rename_i hst htype
        exact .nak bytes msg h htype (.inr (.inr hst))
      · exact .ignore _

theorem retransmit_step : Step m (.timeout .retransmit) m.retransmit.1 m.retransmit.2 := by
  unfold retransmit
  cases hst : m.state with
  | init => exact .ignore _
  | bound => exact .ignore _
  | selecting =>
    by_cases hlast : m.tries + 1 ≥ maxTries
    · simp only [hlast, if_true]
      exact .giveUp (.inl hst) hlast
    · simp only [hlast, if_false]
      exact .resend _ (.inl hst) (by omega) (by rw [if_pos hst])
  | requesting =>
    by_cases hlast : m.tries + 1 ≥ maxTries
    · simp only [hlast, if_true]
      exact .giveUp (.inr hst) hlast
    · simp only [hlast, if_false]
      exact .resend _ (.inr hst) (by omega) (by rw [if_neg (by simp [hst])])
  | renewing => exact .renewAgain hst
  | rebinding => exact .rebindAgain hst

theorem onTimeout_step (timer : Timer) :
    Step m (.timeout timer) (m.onTimeout timer).1 (m.onTimeout timer).2 := by
  cases timer with
  | retransmit => exact m.retransmit_step
  | renew =>
    unfold onTimeout enterRenewing
    by_cases hst : m.state = .bound
    · simp only [hst, if_true]
      cases hl : m.lease with
      | none => exact .ignore _
      | some lease => exact .renew lease hst hl
    · simp only [hst, if_false]
      exact .ignore _
  | rebind =>
    unfold onTimeout enterRebinding
    by_cases hst : m.state = .bound ∨ m.state = .renewing
    · simp only [hst, if_true]
      cases hl : m.lease with
      | none => exact .ignore _
      | some lease => exact .rebind lease hst hl
    · simp only [hst, if_false]
      exact .ignore _
  | expire =>
    unfold onTimeout
    cases hl : m.lease with
    | none => exact .ignore _
    | some lease => exact .expire lease hl

/-- **Every poll is one of these steps.** -/
theorem poll_step (input : Dhcp.Input) : Step m input (m.poll input).1 (m.poll input).2 := by
  cases input with
  | start xid => exact .start xid
  | datagram bytes => exact m.onDatagram_step bytes
  | timeout timer => exact m.onTimeout_step timer

end Inversion

/-! ## The lease and the state -/

/-- The states in which a lease is held. -/
def Holding (s : Dhcp.State) : Prop := s = .bound ∨ s = .renewing ∨ s = .rebinding

instance (s : Dhcp.State) : Decidable (Holding s) := inferInstanceAs (Decidable (_ ∨ _ ∨ _))

/-- A lease is held exactly in the states that go with one. -/
def LeaseInv (m : Dhcp4) : Prop := m.lease.isSome ↔ Holding m.state

theorem leaseInv_new (mac : Mac) (xid : UInt32) : LeaseInv (new mac xid) := by
  simp [LeaseInv, Holding, new]

theorem LeaseInv.withHostname {m : Dhcp4} (h : LeaseInv m) (name : String) :
    LeaseInv (m.withHostname name) := h

/-- **A lease is held exactly in the bound, renewing and rebinding states.** -/
theorem LeaseInv.poll {m : Dhcp4} (h : LeaseInv m) (input : Dhcp.Input) :
    LeaseInv (m.poll input).1 := by
  have hs := m.poll_step input
  generalize m.poll input = r at hs ⊢
  obtain ⟨m', out⟩ := r
  unfold LeaseInv at h
  cases hs with
  | ignore => exact h
  | start => simp [LeaseInv, Holding]
  | offer bytes msg server _ _ _ hst =>
    have hl : m.lease = none := by simpa [hst, Holding] using h
    simp [LeaseInv, Holding, hl]
  | ack => simp [LeaseInv, Holding]
  | nak => simp [LeaseInv, Holding]
  | expire => simp [LeaseInv, Holding]
  | giveUp hst =>
    have hl : m.lease = none := by rcases hst with hst | hst <;> simpa [hst, Holding] using h
    simp [LeaseInv, Holding, hl]
  | resend => exact h
  | renewAgain => exact h
  | rebindAgain => exact h
  | renew lease _ hl => simp [LeaseInv, Holding, hl]
  | rebind lease _ hl => simp [LeaseInv, Holding, hl]

end Dhcp4

end Caw
