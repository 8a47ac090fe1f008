import Caw.Dhcp.Noise
import Caw.Dhcp.Requests

/-!
# The tries of an exchange

An exchange is given up after a bounded number of transmissions, whatever is heard in the meantime.

* `readsDiscover`, `readsSelecting`, `transmissions`: the transmissions of a kind, as they are read off
  the wire;
* `Dhcp4.Paced`, **`Paced.step`**: how many of each kind an exchange has made, by its state;
* `poll_idle`: the client that gave up does nothing until it is started again;
* `gives_up`: the retransmission timer ends the wait;
* **`Dhcp4.exchange_bounded`**: an exchange from its start on.
-/

set_option autoImplicit false

namespace Caw

namespace Dhcp4

open Dhcp Machine

/-! ## Transmissions -/

/-- The datagram is read as a DISCOVER. -/
def readsDiscover (data : Bytes) : Bool :=
  (Message.decode data).toOption.any fun msg => msg.messageType = some .discover

/-- The datagram is read as a REQUEST for the address of an offer. -/
def readsSelecting (data : Bytes) : Bool :=
  (Message.decode data).toOption.any fun msg =>
    msg.messageType = some .request && (msg.get optRequestedIp).isSome

/-- The action puts a datagram of this kind on the wire. -/
def transmits (kind : Bytes → Bool) : Dhcp.Action → Bool
  | .broadcast data => kind data
  | .unicast _ data => kind data
  | _ => false

/-- How many messages of a kind are sent. -/
def transmissions (kind : Bytes → Bool) (l : List Dhcp.Action) : ℕ := l.countP (transmits kind)

/-- What is transmitted again in each of the two waits. -/
def phase (s : Dhcp.State) : Bytes → Bool :=
  if s = .selecting then readsDiscover else readsSelecting

variable {kind : Bytes → Bool} {m m' : Dhcp4} {data : Bytes}

@[simp] theorem transmissions_nil : transmissions kind [] = 0 := rfl

@[simp] theorem transmissions_append (l l' : List Dhcp.Action) :
    transmissions kind (l ++ l') = transmissions kind l + transmissions kind l' :=
  List.countP_append

theorem transmissions_broadcast (kind : Bytes → Bool) (m : Dhcp4) (data : Bytes) :
    transmissions kind (m.broadcast data) = if kind data then 1 else 0 := by
  cases h : kind data <;> simp [transmissions, broadcast, transmits, h]

theorem reads_of_decode {msg : Message} (h : Message.decode data = .ok msg) :
    (readsDiscover data = true ↔ msg.messageType = some .discover) ∧
      (readsSelecting data = true ↔
        msg.messageType = some .request ∧ (msg.get optRequestedIp).isSome = true) := by
  simp [readsDiscover, readsSelecting, h, Except.toOption]

theorem reads_discover (m : Dhcp4) :
    readsDiscover m.discover = true ∧ readsSelecting m.discover = false := by
  obtain ⟨hdiscover, hselecting⟩ := reads_of_decode m.decode_discover
  rw [m.messageType_readOptions .discover [] (List.append_nil _).symm] at hdiscover hselecting
  exact ⟨hdiscover.mpr rfl, by simpa using hselecting⟩

theorem decode_names_offered (m : Dhcp4) : ∃ msg, Message.decode m.requestSelecting = .ok msg ∧
    msg.messageType = some .request ∧ msg.get optRequestedIp = some (.requestedIp m.offered) := by
  have hreads (o : DhcpOption) (h : o.WellFormed) : DhcpOption.Reads o o := h.reads
  have hoffered := hreads (.requestedIp m.offered) ⟨by simp [DhcpOption.data], trivial⟩
  have hserver : List.Forall₂ DhcpOption.Reads (m.server.map DhcpOption.serverId).toList
      (m.server.map DhcpOption.serverId).toList := by
    cases m.server with
    | none => exact .nil
    | some server => exact .cons (hreads (.serverId server) ⟨by simp [DhcpOption.data], trivial⟩) .nil
  refine ⟨_, decode_plain rfl rfl (List.rel_append (List.rel_append
    (m.reads_base .request trivial) (.cons hoffered .nil)) hserver), ?_, ?_⟩
  · exact m.messageType_readOptions .request _ (List.append_assoc _ _ _)
  · rw [Message.get, List.find?_append, List.find?_append, m.find_readOptions _ (.inl rfl)]
    rfl

theorem reads_requestSelecting (m : Dhcp4) :
    readsDiscover m.requestSelecting = false ∧ readsSelecting m.requestSelecting = true := by
  obtain ⟨msg, hdecode, htype, hget⟩ := m.decode_names_offered
  obtain ⟨hdiscover, hselecting⟩ := reads_of_decode hdecode
  rw [htype] at hdiscover hselecting
  exact ⟨by simpa using hdiscover, hselecting.mpr ⟨rfl, by rw [hget]; rfl⟩⟩

theorem reads_requestRenew (m : Dhcp4) :
    readsDiscover m.requestRenew = false ∧ readsSelecting m.requestRenew = false := by
  obtain ⟨hdiscover, hselecting⟩ := reads_of_decode m.decode_requestRenew
  rw [m.messageType_readOptions .request [] (List.append_nil _).symm] at hdiscover hselecting
  rw [Message.get, m.find_readOptions _ (.inl rfl)] at hselecting
  exact ⟨by simpa using hdiscover, by simpa using hselecting⟩

theorem transmissions_requestRenew (m : Dhcp4) (secs : ℕ) (hkind : kind m.requestRenew = false)
    (addr : Ipv4Addr) :
    transmissions kind [.unicast addr m.requestRenew, .setTimer .retransmit secs] = 0 ∧
      transmissions kind [.broadcast m.requestRenew, .setTimer .retransmit secs] = 0 := by
  simp [transmissions, transmits, hkind]

/-! ## Counting -/

/-- What an exchange has asked for since its start. -/
structure Paced (sent : List Dhcp.Action) (m : Dhcp4) : Prop where
  lease : LeaseInv m
  discovers : transmissions readsDiscover sent ≤ maxTries
  selects : transmissions readsSelecting sent ≤ maxTries
  selecting : m.state = .selecting → m.tries < maxTries ∧
    transmissions readsDiscover sent = m.tries + 1 ∧ transmissions readsSelecting sent = 0
  requesting : m.state = .requesting → m.tries < maxTries ∧
    transmissions readsSelecting sent = m.tries + 1
  failed : .failed ∉ sent ∨ (sent.count .failed = 1 ∧ m.state = .init)

namespace Paced

variable {sent out : List Dhcp.Action} {input : Dhcp.Input}

theorem started (m : Dhcp4) (xid : UInt32) : Paced (m.start xid).2 (m.start xid).1 := by
  have hdiscovers : transmissions readsDiscover (m.start xid).2 = 1 := by
    rw [start, transmissions_broadcast, (m.started xid).reads_discover.1]
    rfl
  have hselects : transmissions readsSelecting (m.start xid).2 = 0 := by
    rw [start, transmissions_broadcast, (m.started xid).reads_discover.2]
    rfl
  refine ⟨⟨nofun, fun h => ?_⟩, ?_, ?_, fun _ => ⟨?_, hdiscovers, hselects⟩, nofun, .inl ?_⟩
  · rcases h with h | h | h <;> cases h
  · rw [hdiscovers]
    decide
  · rw [hselects]
    decide
  · exact show 0 < maxTries by decide
  · simp [start, broadcast]

theorem not_failed (h : Paced sent m) (hst : m.state ≠ .init) : .failed ∉ sent :=
  h.failed.resolve_right fun hfailed => hst hfailed.2

/-- A poll that transmits nothing of the exchange, and after which it no longer waits. -/
theorem quiet (h : Paced sent m) (hinv : LeaseInv m')
    (hdiscovers : transmissions readsDiscover out = 0)
    (hselects : transmissions readsSelecting out = 0) (hstate : ¬ Waiting m'.state)
    (hfailed : .failed ∉ out) (hpre : m.state ≠ .init) : Paced (sent ++ out) m' := by
  refine ⟨hinv, ?_, ?_, fun hst => absurd (.inl hst) hstate, fun hst => absurd (.inr hst) hstate,
    .inl ?_⟩
  · rw [transmissions_append, hdiscovers]
    exact h.discovers
  · rw [transmissions_append, hselects]
    exact h.selects
  · rw [List.mem_append, not_or]
    exact ⟨h.not_failed hpre, hfailed⟩

theorem discover (h : Paced sent m) (hst : m.state = .selecting) (hstate : m'.state = .selecting)
    (hinv : LeaseInv m') (htries : m'.tries = m.tries + 1) (hmore : m.tries + 1 < maxTries) :
    Paced (sent ++ m'.broadcast m'.discover) m' := by
  obtain ⟨-, hdiscovers, hselects⟩ := h.selecting hst
  have hdiscovers' : transmissions readsDiscover (sent ++ m'.broadcast m'.discover) = m'.tries + 1 := by
    rw [transmissions_append, transmissions_broadcast, m'.reads_discover.1, hdiscovers, htries]
    rfl
  have hselects' : transmissions readsSelecting (sent ++ m'.broadcast m'.discover) = 0 := by
    rw [transmissions_append, transmissions_broadcast, m'.reads_discover.2, hselects]
    rfl
  refine ⟨hinv, by omega, by omega, fun _ => ⟨by omega, hdiscovers', hselects'⟩, fun h => ?_, .inl ?_⟩
  · rw [hstate] at h
    cases h
  · simp [h.not_failed (by simp [hst]), broadcast]

theorem select (h : Paced sent m) (hst : m.state ≠ .init) (hstate : m'.state = .requesting)
    (hinv : LeaseInv m') (htries : m'.tries < maxTries)
    (hselects : transmissions readsSelecting sent = m'.tries) :
    Paced (sent ++ m'.broadcast m'.requestSelecting) m' := by
  have hdiscovers' : transmissions readsDiscover (sent ++ m'.broadcast m'.requestSelecting) =
      transmissions readsDiscover sent := by
    rw [transmissions_append, transmissions_broadcast, m'.reads_requestSelecting.1]
    rfl
  have hselects' : transmissions readsSelecting (sent ++ m'.broadcast m'.requestSelecting) =
      m'.tries + 1 := by
    rw [transmissions_append, transmissions_broadcast, m'.reads_requestSelecting.2, hselects]
    rfl
  have hdiscovers := h.discovers
  refine ⟨hinv, by omega, by omega, fun h => ?_, fun _ => ⟨htries, hselects'⟩, .inl ?_⟩
  · rw [hstate] at h
    cases h
  · simp [h.not_failed hst, broadcast]

theorem renewing (h : Paced sent m) (hinv : LeaseInv m') (hpre : m.state ≠ .init)
    (hstate : ¬ Waiting m'.state) (addr : Ipv4Addr) (secs : ℕ) :
    Paced (sent ++ [.unicast addr m'.requestRenew, .setTimer .retransmit secs]) m' ∧
      Paced (sent ++ [.broadcast m'.requestRenew, .setTimer .retransmit secs]) m' := by
  obtain ⟨hdiscover, hselect⟩ := m'.reads_requestRenew
  exact ⟨h.quiet hinv (transmissions_requestRenew m' secs hdiscover addr).1
      (transmissions_requestRenew m' secs hselect addr).1 hstate (by simp) hpre,
    h.quiet hinv (transmissions_requestRenew m' secs hdiscover addr).2
      (transmissions_requestRenew m' secs hselect addr).2 hstate (by simp) hpre⟩

/-- **Every poll but a start keeps the count.** -/
theorem step (h : Paced sent m) (hinput : ∀ xid, input ≠ .start xid) :
    Paced (sent ++ (m.poll input).2) (m.poll input).1 := by
  have hs := m.poll_step input
  have hinv := h.lease.poll input
  generalize m.poll input = r at hs hinv ⊢
  obtain ⟨m', out⟩ := r
  dsimp only at hs hinv ⊢
  cases hs with
  | ignore => rwa [List.append_nil]
  | start xid => exact absurd rfl (hinput xid)
  | offer bytes msg server _ _ _ hst =>
    exact h.select (by simp [hst]) rfl hinv (show 0 < maxTries by decide) (h.selecting hst).2.2
  | ack bytes msg lease _ _ hasking =>
    refine h.quiet hinv rfl rfl (by simp [Waiting, leased]) (by simp) ?_
    rcases hasking with hst | hst | hst <;> simp [hst]
  | nak bytes msg _ _ hasking =>
    refine h.quiet hinv rfl rfl (by simp [Waiting, unleased]) (by simp) ?_
    rcases hasking with hst | hst | hst <;> simp [hst]
  | expire lease hlease =>
    have hholding : Holding m.state := h.lease.mp (by rw [hlease]; rfl)
    refine h.quiet hinv rfl rfl (by simp [Waiting, unleased]) (by simp) ?_
    rcases hholding with hst | hst | hst <;> simp [hst]
  | giveUp hst =>
    have hfailed := h.not_failed (by rcases hst with hst | hst <;> simp [hst])
    have hnone (kind : Bytes → Bool) : transmissions kind (sent ++ [.failed]) =
        transmissions kind sent := transmissions_append sent [.failed]
    refine ⟨hinv, ?_, ?_, by rintro ⟨⟩, by rintro ⟨⟩, .inr ⟨?_, rfl⟩⟩
    · rw [hnone]
      exact h.discovers
    · rw [hnone]
      exact h.selects
    · rw [List.count_append, List.count_eq_zero_of_not_mem hfailed]
      rfl
  | resend sent' hst hmore hsent =>
    have htries : m.age.tries = m.tries + 1 := rfl
    rcases hst with hst | hst
    · rw [hsent, if_pos hst]
      exact h.discover hst hst hinv htries hmore
    · rw [hsent, if_neg (by simp [hst])]
      exact h.select (by simp [hst]) hst hinv (by omega) (h.requesting hst).2
  | renewAgain hst =>
    exact (h.renewing hinv (by simp [hst]) (by simp [Waiting, halveRenewInterval, hst]) _ _).1
  | rebindAgain hst =>
    exact (h.renewing hinv (by simp [hst]) (by simp [Waiting, halveRenewInterval, hst])
      .unspecified _).2
  | renew lease hst =>
    exact (h.renewing hinv (by simp [hst]) (by simp [Waiting, renewWith]) _ _).1
  | rebind lease hst =>
    refine (h.renewing hinv ?_ (by simp [Waiting, rebindWith]) .unspecified _).2
    rcases hst with hst | hst <;> simp [hst]

theorem run (h : Paced sent m) {inputs : List Dhcp.Input} (hinputs : ∀ xid, .start xid ∉ inputs) :
    Paced (sent ++ m.actions inputs) (exec poll m inputs) := by
  induction inputs generalizing m sent with
  | nil => simpa [actions, log, exec] using h
  | cons input inputs ih =>
    have hinput : ∀ xid, input ≠ .start xid := fun xid heq => hinputs xid (heq ▸ List.mem_cons_self)
    have hrest := ih (h.step hinput) fun xid hmem => hinputs xid (List.mem_cons_of_mem _ hmem)
    rwa [List.append_assoc] at hrest

end Paced

/-! ## The end of the wait -/

theorem lease_eq_none (hinv : LeaseInv m) (hstate : ¬ Holding m.state) : m.lease = none := by
  rw [← Option.not_isSome_iff_eq_none]
  exact mt hinv.mp hstate

/-- **A client without an exchange does nothing** until it is started. -/
theorem poll_idle (hinv : LeaseInv m) (hstate : m.state = .init) {input : Dhcp.Input}
    (hinput : ∀ xid, input ≠ .start xid) : m.poll input = (m, []) := by
  have hlease : m.lease = none := lease_eq_none hinv (by simp [hstate, Holding])
  have hs := m.poll_step input
  generalize m.poll input = r at hs ⊢
  obtain ⟨m', out⟩ := r
  cases hs with
  | ignore => rfl
  | start xid => exact absurd rfl (hinput xid)
  | offer bytes msg server _ _ _ hst => simp [hstate] at hst
  | ack bytes msg lease _ _ hasking => simp [Asking, hstate] at hasking
  | nak bytes msg _ _ hasking => simp [Asking, hstate] at hasking
  | expire lease hheld => simp [hlease] at hheld
  | giveUp hst => simp [hstate] at hst
  | resend _ hst => simp [hstate] at hst
  | renewAgain hst => simp [hstate] at hst
  | rebindAgain hst => simp [hstate] at hst
  | renew lease hst => simp [hstate] at hst
  | rebind lease hst => simp [hstate] at hst

theorem run_idle (hinv : LeaseInv m) (hstate : m.state = .init) {inputs : List Dhcp.Input}
    (hinputs : ∀ xid, .start xid ∉ inputs) : exec poll m inputs = m ∧ m.actions inputs = [] := by
  induction inputs with
  | nil => exact ⟨rfl, rfl⟩
  | cons input inputs ih =>
    have hpoll : m.poll input = (m, []) :=
      poll_idle hinv hstate fun xid heq => hinputs xid (heq ▸ List.mem_cons_self)
    obtain ⟨hexec, hactions⟩ := ih fun xid hmem => hinputs xid (List.mem_cons_of_mem _ hmem)
    rw [actions, log, entry, List.flatMap_cons, exec, hpoll]
    exact ⟨hexec, hactions⟩

/-- The deliveries of the retransmission timer that a wait outlasts. -/
def patience (m : Dhcp4) : ℕ :=
  if m.state = .selecting then 2 * maxTries - 2 - m.tries else maxTries - 1 - m.tries

/-- The poll gives the exchange up. -/
def GivesUp (m : Dhcp4) (input : Dhcp.Input) : Prop :=
  input = .timeout .retransmit ∧ Waiting m.state ∧ maxTries ≤ m.tries + 1 ∧
    m.poll input = (m.gaveUp, [.failed])

/-- What a poll of a client that waits comes to, where it brings neither a lease nor a NAK. -/
theorem wait_step (hwaiting : Waiting m.state) (htries : m.tries < maxTries) (hinv : LeaseInv m)
    {input : Dhcp.Input} (hinput : ∀ xid, input ≠ .start xid)
    (hlease : ∀ lease, .configured lease ∉ (m.poll input).2)
    (hnak : .deconfigure .nak ∉ (m.poll input).2) :
    m.GivesUp input ∨ (Waiting (m.poll input).1.state ∧ (m.poll input).1.tries < maxTries ∧
      (m.poll input).1.patience + (if input = .timeout .retransmit then 1 else 0) ≤ m.patience) := by
  have hs := m.poll_step input
  unfold GivesUp
  generalize hpoll : m.poll input = r at hs hlease hnak ⊢
  obtain ⟨m', out⟩ := r
  dsimp only at hs hlease hnak ⊢
  cases hs with
  | ignore =>
    have hne : input ≠ .timeout .retransmit := by
      rintro rfl
      exact not_acts_of_ignored hpoll (acts_retransmit hwaiting)
    rw [if_neg hne]
    exact .inr ⟨hwaiting, htries, le_rfl⟩
  | start xid => exact absurd rfl (hinput xid)
  | offer bytes msg server _ _ _ hst =>
    refine .inr ⟨.inr rfl, show 0 < maxTries by decide, ?_⟩
    have hafter : (m.accepting server msg.yiaddr).patience = maxTries - 1 := rfl
    have hmax : maxTries = 4 := rfl
    rw [hafter, patience, if_pos hst, if_neg (by simp)]
    omega
  | ack bytes msg lease => exact absurd (by simp) (hlease lease)
  | nak => exact absurd (by simp) hnak
  | expire lease hheld =>
    have hnot : ¬ Holding m.state := by rcases hwaiting with hst | hst <;> simp [hst, Holding]
    rw [lease_eq_none hinv hnot] at hheld
    cases hheld
  | giveUp hst hlast => exact .inl ⟨rfl, hwaiting, hlast, rfl⟩
  | resend data hst hmore =>
    have hage : m.age.tries = m.tries + 1 ∧ m.age.state = m.state := ⟨rfl, rfl⟩
    refine .inr ⟨hwaiting, hmore, ?_⟩
    rw [if_pos rfl, patience, patience, hage.1, hage.2]
    have hmax : maxTries = 4 := rfl
    split_ifs <;> omega
  | renewAgain hst => rcases hwaiting with h | h <;> simp [hst] at h
  | rebindAgain hst => rcases hwaiting with h | h <;> simp [hst] at h
  | renew lease hst => rcases hwaiting with h | h <;> simp [hst] at h
  | rebind lease hst => rcases hwaiting with h | h <;> simp [h] at hst

/-- **The retransmission timer ends the wait**, where neither a lease nor a NAK does. -/
theorem gives_up (hwaiting : Waiting m.state) (htries : m.tries < maxTries) (hinv : LeaseInv m)
    {inputs : List Dhcp.Input} (hinputs : ∀ xid, .start xid ∉ inputs)
    (hlease : ∀ lease, .configured lease ∉ m.actions inputs)
    (hnak : .deconfigure .nak ∉ m.actions inputs)
    (hcount : m.patience < inputs.count (.timeout .retransmit)) :
    ∃ before input after, inputs = before ++ input :: after ∧ (exec poll m before).GivesUp input := by
  induction inputs generalizing m with
  | nil => exact absurd hcount (Nat.not_lt_zero _)
  | cons input inputs ih =>
    have hsplit : m.actions (input :: inputs) =
      (m.poll input).2 ++ (m.poll input).1.actions inputs := rfl
    rw [hsplit] at hlease hnak
    simp only [List.mem_append, not_or] at hlease hnak
    rcases wait_step hwaiting htries hinv (fun xid heq => hinputs xid (heq ▸ List.mem_cons_self))
      (fun lease => (hlease lease).1) hnak.1 with hgiven | ⟨hwaiting', htries', hpatience⟩
    · exact ⟨[], input, inputs, rfl, hgiven⟩
    · have hrest : (m.poll input).1.patience < inputs.count (.timeout .retransmit) := by
        rw [List.count_cons] at hcount
        simp only [beq_iff_eq] at hcount
        omega
      obtain ⟨before, last, after, rfl, hgiven⟩ := ih hwaiting' htries' (hinv.poll input)
        (fun xid hmem => hinputs xid (List.mem_cons_of_mem _ hmem)) (fun lease => (hlease lease).2)
        hnak.2 hrest
      exact ⟨input :: before, last, after, rfl, hgiven⟩

/-! ## An exchange from its start on -/

/-- **How an exchange fails**: the retransmission timer is delivered once more after as many
transmissions of the phase as there are tries, and from then on nothing is sent. -/
structure Fails (m : Dhcp4) (before : List Dhcp.Input) (input : Dhcp.Input)
    (after : List Dhcp.Input) : Prop where
  timer : input = .timeout .retransmit
  waiting : Waiting (exec poll m before).state
  tries : transmissions (phase (exec poll m before).state) (m.actions before) = maxTries
  first : .failed ∉ m.actions before
  output : ((exec poll m before).poll input).2 = [.failed]
  state : ((exec poll m before).poll input).1.state = .init
  lease : ((exec poll m before).poll input).1.lease = none
  stays : exec poll ((exec poll m before).poll input).1 after = ((exec poll m before).poll input).1
  silent : ((exec poll m before).poll input).1.actions after = []

theorem Paced.fails {before after : List Dhcp.Input} {input : Dhcp.Input}
    (h : Paced (m.actions before) (exec poll m before)) (hgiven : (exec poll m before).GivesUp input)
    (hafter : ∀ xid, .start xid ∉ after) : Fails m before input after := by
  have hinv := h.lease.poll input
  obtain ⟨htimer, hwaiting, hlast, hpoll⟩ := hgiven
  rw [hpoll] at hinv
  obtain ⟨hstays, hsilent⟩ := run_idle hinv rfl hafter
  have hlease : (exec poll m before).gaveUp.lease = none :=
    lease_eq_none hinv (by simp [Holding, gaveUp])
  refine ⟨htimer, hwaiting, ?_, h.not_failed ?_, ?_, ?_, ?_, ?_, ?_⟩
  · rcases hwaiting with hst | hst
    · obtain ⟨htries, hcount, -⟩ := h.selecting hst
      rw [phase, if_pos hst]
      omega
    · obtain ⟨htries, hcount⟩ := h.requesting hst
      rw [phase, if_neg (by simp [hst])]
      omega
  · rcases hwaiting with hst | hst <;> simp [hst]
  · rw [hpoll]
  · rw [hpoll]
    rfl
  · rw [hpoll]
    exact hlease
  · rw [hpoll]
    exact hstays
  · rw [hpoll]
    exact hsilent

theorem givesUp_of_failed {input : Dhcp.Input} (h : .failed ∈ (m.poll input).2) :
    m.GivesUp input := by
  have hs := m.poll_step input
  unfold GivesUp
  generalize m.poll input = r at hs h ⊢
  obtain ⟨m', out⟩ := r
  dsimp only at hs h ⊢
  cases hs with
  | giveUp hst hlast => exact ⟨rfl, hst, hlast, rfl⟩
  | ignore => exact absurd h List.not_mem_nil
  | start | offer | resend => simp [broadcast] at h
  | ack | nak | expire | renewAgain | rebindAgain | renew | rebind => simp at h

/-- **An exchange makes a bounded number of tries.** From a start on, of whatever client and whatever
reaches it until the next start: no more DISCOVERs are transmitted than there are tries, and no more
REQUESTs for an offer; a failure is reported once at most, and as `Fails` says; and where neither a
lease nor a NAK comes, it is reported once the retransmission timer has been delivered often
enough for both phases. -/
theorem exchange_bounded (m : Dhcp4) (xid : UInt32) (inputs : List Dhcp.Input)
    (hinputs : ∀ xid', .start xid' ∉ inputs) :
    (transmissions readsDiscover (m.actions (.start xid :: inputs)) ≤ maxTries ∧
      transmissions readsSelecting (m.actions (.start xid :: inputs)) ≤ maxTries) ∧
    (m.actions (.start xid :: inputs)).count .failed ≤ 1 ∧
    (∀ before input after, inputs = before ++ input :: after →
      .failed ∈ ((exec poll m (.start xid :: before)).poll input).2 →
      Fails m (.start xid :: before) input after) ∧
    ((∀ lease, .configured lease ∉ m.actions (.start xid :: inputs)) →
      .deconfigure .nak ∉ m.actions (.start xid :: inputs) →
      2 * maxTries - 1 ≤ inputs.count (.timeout .retransmit) →
      ∃ before input after, inputs = before ++ input :: after ∧
        Fails m (.start xid :: before) input after) := by
  have hpaced (before : List Dhcp.Input) (h : ∀ xid', .start xid' ∉ before) :
      Paced (m.actions (.start xid :: before)) (exec poll m (.start xid :: before)) :=
    (Paced.started m xid).run h
  have hfails (before : List Dhcp.Input) (input : Dhcp.Input) (after : List Dhcp.Input)
      (heq : inputs = before ++ input :: after)
      (hgiven : (exec poll m (.start xid :: before)).GivesUp input) :
      Fails m (.start xid :: before) input after := by
    rw [heq] at hinputs
    simp only [List.mem_append, List.mem_cons, not_or] at hinputs
    exact (hpaced before fun xid' => (hinputs xid').1).fails hgiven fun xid' => (hinputs xid').2.2
  have h := hpaced inputs hinputs
  refine ⟨⟨h.discovers, h.selects⟩, ?_, fun before input after heq hfailed =>
    hfails before input after heq (givesUp_of_failed hfailed), fun hlease hnak hcount => ?_⟩
  · rcases h.failed with hnone | ⟨hone, -⟩
    · rw [List.count_eq_zero_of_not_mem hnone]
      exact Nat.zero_le 1
    · exact hone.le
  · have hsplit : m.actions (.start xid :: inputs) =
        (m.start xid).2 ++ (m.start xid).1.actions inputs := rfl
    rw [hsplit] at hlease hnak
    simp only [List.mem_append, not_or] at hlease hnak
    have hpatience : (m.start xid).1.patience = 2 * maxTries - 2 := rfl
    have hmax : maxTries = 4 := rfl
    obtain ⟨before, input, after, heq, hgiven⟩ := gives_up (m := (m.start xid).1) (.inl rfl)
      (show 0 < maxTries by decide) (Paced.started m xid).lease hinputs (fun lease => (hlease lease).2)
      hnak.2 (by omega)
    exact ⟨before, input, after, heq, hfails before input after heq hgiven⟩

/-- Nobody answers: the fourth delivery is the failure. -/
theorem exchange_bounded_sample :
    Fails sampleClient (.start 1 :: List.replicate 3 (.timeout .retransmit)) (.timeout .retransmit)
      [.timeout .retransmit] :=
  (exchange_bounded sampleClient 1 (List.replicate 5 (.timeout .retransmit)) (by simp)).2.2.1
    (List.replicate 3 (.timeout .retransmit)) (.timeout .retransmit) [.timeout .retransmit] rfl
    List.mem_cons_self

end Dhcp4

end Caw
