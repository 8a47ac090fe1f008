import Caw.Core.Joined
import Caw.Daemon.Entry

/-!
# The core and its address exchange

The core asks for an address and waits for the exchange; the exchange reports, and the core moves on.

* `Daemon.exchange`, `Daemon.Busy`, `Daemon.Leased`, `Daemon.Settled`: neither waits for the other;
* `reported`, `runs_driveDhcp`, `yields_startDhcp`: what the exchange comes to and reports;
* `Daemon.Paired`: the invariant of both machines, with **`turn_paired`** for one turn of the core;
* `Daemon.Orderly`: the exchange does not end while the core waits for it or roams;
* **`settled_run`**: in a run whose steps are orderly neither machine waits for the other;
* `settled_fails`: a refusal while an address is first asked for leaves the core waiting.
-/

set_option autoImplicit false

namespace Caw

open Caw.Core

namespace Daemon

open Effect
open Machine (exec log Along run_induction)

variable {S : Platform} {E : System S} {d d' : Daemon S E}

/-- The address exchange, if there is one. -/
def exchange (d : Daemon S E) : Option Dhcp4 := d.dhcp.map DhcpRun.machine

/-- An exchange is in progress. -/
def Busy (d : Daemon S E) : Prop := ∃ m, d.exchange = some m ∧ m.state ≠ .init

/-- A lease is held. -/
def Leased (d : Daemon S E) : Prop :=
  ∃ m, d.exchange = some m ∧ m.lease.isSome ∧ Dhcp4.Holding m.state

/-- A core that configures has an exchange to wait for, and one that is connected has a lease. -/
structure Settled (d : Daemon S E) : Prop where
  configuring : d.state = .configuring → d.Busy
  connected : d.state = .connected → d.Leased

/-! ## What an exchange reports -/

/-- The outcome a list of exchange actions reports: the last of them. -/
def reported : List Dhcp.Action → Option LeaseEvent → Option LeaseEvent
  | [], out => out
  | .configured lease :: rest, _ => reported rest (some (.acquired lease))
  | .deconfigure reason :: rest, _ => reported rest (some (.lost reason))
  | .failed :: rest, _ => reported rest (some .failed)
  | .broadcast _ :: rest, out | .unicast .. :: rest, out | .setTimer .. :: rest, out =>
    reported rest out

/-- Performing what an exchange asks for reports its outcome, and cannot fail. -/
theorem runs_performDhcp {actions : List Dhcp.Action} {out : Option LeaseEvent}
    {r : Except String (Option LeaseEvent)} (h : Runs (performDhcp actions out) d r d') :
    r = .ok (reported actions out) := by
  induction actions generalizing d out with
  | nil => exact (runs_pure.mp h).1
  | cons action rest ih =>
    cases action with
    | configured lease => exact ih h
    | deconfigure reason => exact ih h
    | failed => exact ih h
    | broadcast data => exact ih (runs_modifyGet_bind.mp h)
    | unicast addr data => exact ih (runs_modifyGet_bind.mp h)
    | setTimer timer secs => exact ih (runs_modify_bind.mp h)

/-- Neither the core nor the exchange has moved. -/
structure Calm (d d' : Daemon S E) : Prop extends Kin d d' where
  exchange : d'.exchange = d.exchange

instance : IsPreorder (Daemon S E) Calm where
  refl _ := ⟨refl _, rfl⟩
  trans _ _ _ h h' := ⟨IsTrans.trans _ _ _ h.toKin h'.toKin, h'.exchange.trans h.exchange⟩

theorem permits_calm : Permits (Calm : Daemon S E → Daemon S E → Prop) where
  calls d op := ⟨admits_kin.calls d op, rfl⟩
  timers d timers h := ⟨admits_kin.timers d timers h, rfl⟩
  routes d run hrun := ⟨admits_kin.routes d run hrun, by simp [exchange, hrun]⟩
  profiles d profile := ⟨admits_kin.profiles d profile, rfl⟩
  eapol d eapol := ⟨admits_kin.eapol d eapol, rfl⟩

theorem speaks_calm : Speaks (Calm : Daemon S E → Daemon S E → Prop) where
  sends d client message := ⟨speaks_kin.sends d client message, rfl⟩
  unwatched d := ⟨speaks_kin.unwatched d, rfl⟩
  prompts d token pending := ⟨speaks_kin.prompts d token pending, rfl⟩

/-- **One input for the exchange**: it takes one step, and what it reports is handed back. -/
theorem runs_driveDhcp {input : Dhcp.Input} {r : Except String (Option LeaseEvent)}
    (h : Runs (driveDhcp input) d r d') :
    (d.exchange = none ∧ d' = d ∧ r = .ok none) ∨
      ∃ m, d.exchange = some m ∧ Kin d d' ∧ d'.exchange = some (m.poll input).1 ∧
        r = .ok (reported (m.poll input).2 none) := by
  have hkin := admits_kin.driveDhcp input _ _ _ h
  rw [driveDhcp, runs_get_bind] at h
  cases hrun : d.dhcp with
  | none =>
    rw [hrun] at h
    obtain ⟨rfl, rfl⟩ := runs_pure.mp h
    exact .inl ⟨by rw [exchange, hrun, Option.map_none], rfl, rfl⟩
  | some run =>
    rw [hrun] at h
    dsimp only at h
    rw [runs_modify_bind] at h
    have hcalm := permits_calm.toSpares.performDhcp _ _ _ _ _ h
    exact .inr ⟨run.machine, by rw [exchange, hrun, Option.map_some], hkin, hcalm.exchange,
      runs_performDhcp h⟩

/-- **A fresh exchange** has sent its first message and reports nothing yet. -/
theorem yields_startDhcp : Yields (fun next d => next = none ∧ ∃ m : Dhcp4,
    d.exchange = some m ∧ m.state = .selecting) (startDhcp : EngineM S E _) := by
  refine yields_bind fun ifindex => yields_bind fun d => ?_
  split
  · exact yields_throw _
  refine yields_bind fun _ => yields_bind fun probeRoute => yields_bind fun _ =>
    yields_bind fun xid => yields_bind fun hostname => ?_
  intro d next d' h
  rw [runs_modify_bind] at h
  rcases runs_bind.mp h with ⟨event, d₁, hdrive, hpure⟩ | ⟨e, -, hr⟩
  · obtain ⟨hr, rfl⟩ := runs_pure.mp hpure
    rcases runs_driveDhcp hdrive with ⟨hnone, -, -⟩ | ⟨m, hm, -, hexchange, hevent⟩
    · cases hnone
    · cases hm
      cases hevent
      cases hr
      exact ⟨rfl, _, hexchange, rfl⟩
  · cases hr

/-! ## What one input does to an exchange -/

/-- The input ends what the exchange asks for or holds: a refusal of its request, or the end of its
lease. -/
def Ends (m : Dhcp4) : Dhcp.Input → Prop
  | .start _ => False
  | .datagram bytes => Dhcp4.Asking m.state ∧
      ∃ msg, m.Datagram bytes msg ∧ msg.messageType = some .nak
  | .timeout timer => timer = .expire ∧ m.lease.isSome

/-- What one input does to an exchange, by what it reports. -/
inductive Report (m : Dhcp4) (input : Dhcp.Input) (m' : Dhcp4) : Option LeaseEvent → Prop
  | quiet : (m.state ≠ .init → m'.state ≠ .init) →
      (m.lease.isSome ∧ Dhcp4.Holding m.state → m'.lease.isSome ∧ Dhcp4.Holding m'.state) →
      Report m input m' none
  | acquired (lease) : m'.lease.isSome → Dhcp4.Holding m'.state →
      Report m input m' (some (.acquired lease))
  | lost (reason) : Ends m input → Report m input m' (some (.lost reason))
  | failed : Report m input m' (some .failed)

theorem report_poll (m : Dhcp4) {input : Dhcp.Input} (hinput : ∀ xid, input ≠ .start xid) :
    Report m input (m.poll input).1 (reported (m.poll input).2 none) := by
  have hs := m.poll_step input
  generalize m.poll input = r at hs ⊢
  obtain ⟨m', out⟩ := r
  have hasks {p q : Prop} {s : Dhcp.State} (hst : m.state = s) (h : ¬ Dhcp4.Holding s) :
      p ∧ Dhcp4.Holding m.state → q := fun hp => absurd (hst ▸ hp.2) h
  cases hs with
  | ignore => exact .quiet id id
  | start xid => exact absurd rfl (hinput xid)
  | offer bytes msg server _ _ _ hst =>
    exact .quiet (fun _ => by simp) (hasks hst (by simp [Dhcp4.Holding]))
  | ack bytes msg lease =>
    exact .acquired lease rfl (.inl rfl)
  | nak bytes msg hmsg htype hst => exact .lost .nak ⟨hst, msg, hmsg, htype⟩
  | expire lease hl => exact .lost .expired ⟨rfl, by rw [hl]; rfl⟩
  | giveUp => exact .failed
  | resend data hst =>
    refine .quiet (fun h => h) ?_
    rcases hst with hst | hst
    · exact hasks hst (by simp [Dhcp4.Holding])
    · exact hasks hst (by simp [Dhcp4.Holding])
  | renewAgain hst => exact .quiet (fun h => h) (fun h => h)
  | rebindAgain hst => exact .quiet (fun h => h) (fun h => h)
  | renew lease hst hl =>
    exact .quiet (fun _ => by simp) fun h => ⟨h.1, .inr (.inl rfl)⟩
  | rebind lease hst hl =>
    exact .quiet (fun _ => by simp) fun h => ⟨h.1, .inr (.inr rfl)⟩

/-! ## What actions do to the exchange -/

/-- An input an action brings is a scan. -/
def IsScan (input : Input) : Prop := ∃ scan, input = .scanResults scan

theorem yields_fetchScanResults (ifindex : UInt32) :
    Yields (fun input _ => IsScan input) (fetchScanResults ifindex : EngineM S E Input) := by
  refine yields_bind fun _ => yields_bind fun scan => ?_
  intro d input d' h
  obtain ⟨hr, -⟩ := runs_pure.mp h
  cases hr
  exact ⟨scan, rfl⟩

theorem brings_perform (action : Core.Action) :
    Yields (fun next _ => ∀ input ∈ next, IsScan input ∧ ∃ ifindex, action = .fetchScanResults ifindex)
      (perform action : EngineM S E _) := by
  have hnone : Yields (fun next _ => ∀ input ∈ next, IsScan input ∧
      ∃ ifindex, action = .fetchScanResults ifindex) (pure none : EngineM S E (Option Input)) := by
    intro d next d' h
    obtain ⟨hr, -⟩ := runs_pure.mp h
    cases hr
    rintro input ⟨⟩
  refine yields_bind fun _ => ?_
  cases action with
  | fetchScanResults ifindex =>
    intro d next d' h
    rcases runs_bind.mp h with ⟨fetched, d₁, hfetch, hpure⟩ | ⟨e, -, hr⟩
    · obtain ⟨hr, -⟩ := runs_pure.mp hpure
      cases hr
      rintro input ⟨⟩
      exact ⟨yields_fetchScanResults ifindex d fetched d₁ hfetch, ifindex, rfl⟩
    · cases hr
  | startDhcp =>
    intro d next d' h
    obtain ⟨rfl, -⟩ := yields_startDhcp d next d' h
    rintro input ⟨⟩
  | authenticate req => exact yields_bind fun _ => yields_bind fun _ => hnone
  | _ => exact yields_bind fun _ => hnone

theorem brings_performAll (actions : List Core.Action) :
    Yields (fun next _ => ∀ input ∈ next, IsScan input ∧
        ∃ ifindex, Core.Action.fetchScanResults ifindex ∈ actions)
      (performAll actions : EngineM S E (List Input)) := by
  induction actions with
  | nil =>
    intro d next d' h
    obtain ⟨hr, -⟩ := runs_pure.mp h
    cases hr
    exact fun _ hinput => absurd hinput List.not_mem_nil
  | cons action rest ih =>
    intro d next d' h
    rcases runs_bind.mp h with ⟨first, d₁, hfirst, hrest⟩ | ⟨e, -, hr⟩
    · rcases runs_bind.mp hrest with ⟨others, d₂, hothers, hpure⟩ | ⟨e, -, hr⟩
      · obtain ⟨hr, -⟩ := runs_pure.mp hpure
        cases hr
        intro input hinput
        rcases List.mem_append.mp hinput with hinput | hinput
        · obtain ⟨hscan, ifindex, rfl⟩ :=
            brings_perform action d first d₁ hfirst input (Option.mem_toList.mp hinput)
          exact ⟨hscan, ifindex, List.mem_cons_self⟩
        · obtain ⟨hscan, ifindex, hmem⟩ := ih d₁ others d₂ hothers input hinput
          exact ⟨hscan, ifindex, List.mem_cons_of_mem _ hmem⟩
      · cases hr
    · cases hr

theorem yields_performAll (actions : List Core.Action) :
    Yields (fun next _ => ∀ input ∈ next, IsScan input)
      (performAll actions : EngineM S E (List Input)) :=
  fun d next d' h input hinput => (brings_performAll actions d next d' h input hinput).1

theorem calm_perform {action : Core.Action} (h : ¬ Addresses action) :
    Keeps Calm (perform action : EngineM S E _) :=
  permits_calm.perform speaks_calm (fun _ => ⟨⟨rfl, rfl⟩, rfl⟩) h

/-- **Actions that report no failure** leave the exchange alone, or begin a fresh one. -/
theorem performAll_exchange {actions : List Core.Action} {next : List Input}
    (hfailed : ∀ failure, .failed failure ∉ actions)
    (h : Runs (performAll actions) d (.ok next) d') :
    (.startDhcp ∉ actions → d'.exchange = d.exchange) ∧ (.startDhcp ∈ actions → d'.Busy) := by
  induction actions generalizing d next with
  | nil =>
    obtain ⟨-, rfl⟩ := runs_pure.mp h
    exact ⟨fun _ => rfl, fun h => absurd h List.not_mem_nil⟩
  | cons action rest ih =>
    rcases runs_bind.mp h with ⟨first, d₁, hfirst, hrest⟩ | ⟨e, -, hr⟩
    · rcases runs_bind.mp hrest with ⟨others, d₂, hothers, hpure⟩ | ⟨e, -, hr⟩
      · obtain ⟨-, rfl⟩ := runs_pure.mp hpure
        have hlater := ih (fun failure hmem => hfailed failure (List.mem_cons_of_mem _ hmem)) hothers
        by_cases hstart : action = .startDhcp
        · subst hstart
          refine ⟨fun hno => absurd List.mem_cons_self hno, fun _ => ?_⟩
          by_cases hagain : Core.Action.startDhcp ∈ rest
          · exact hlater.2 hagain
          · rw [perform, runs_modify_bind] at hfirst
            obtain ⟨-, m, hm, hst⟩ := yields_startDhcp _ _ _ hfirst
            exact ⟨m, (hlater.1 hagain).trans hm, by simp [hst]⟩
        · have hother : ¬ Addresses action := by
            cases action with
            | startDhcp => exact absurd rfl hstart
            | failed failure => exact absurd List.mem_cons_self (hfailed failure)
            | _ => exact id
          have hcalm := (calm_perform hother _ _ _ hfirst).exchange
          refine ⟨fun hno => (hlater.1 fun hmem => hno (List.mem_cons_of_mem _ hmem)).trans hcalm,
            fun hmem => hlater.2 ?_⟩
          exact (List.mem_cons.mp hmem).resolve_left fun heq => hstart heq.symm
      · cases hr
    · cases hr

/-! ## The invariant of both machines -/

/-- What the core needs of the exchange. -/
structure Served (d : Daemon S E) (core : Connection S) : Prop where
  grounded : core.Grounded
  configuring : core.state = .configuring → d.Busy
  needsLease : core.NeedsLease → d.Leased

/-- **The core has the exchange it needs.** -/
def Paired (d : Daemon S E) : Prop := ∀ core, d.core = some core → Served d core

theorem Paired.settled (h : d.Paired) : d.Settled := by
  unfold Paired at h
  constructor
  · intro hst
    cases hcore : d.core with
    | none => simp [state, hcore] at hst
    | some core => exact (h core hcore).configuring (by simpa [state, hcore] using hst)
  · intro hst
    cases hcore : d.core with
    | none => simp [state, hcore] at hst
    | some core => exact (h core hcore).needsLease (.inl (by simpa [state, hcore] using hst))

theorem Rests.paired (h : d.Rests) : d.Paired := by
  intro core hcore
  obtain ⟨hst, -, -⟩ := h core hcore
  exact ⟨by simp [Connection.Grounded, hst], by simp [hst], by simp [Connection.NeedsLease, hst]⟩

theorem Served.of_eq {core core' : Connection S} (h : Served d core)
    (hstate : core'.state = core.state) (hsession : core'.session = core.session)
    (hexchange : d'.exchange = d.exchange) : Served d' core' := by
  have hroams : core'.roams = core.roams := by rw [Connection.roams, Connection.roams, hsession]
  refine ⟨fun hst => ?_, fun hst => ?_, fun hneeds => ?_⟩
  · exact hroams.trans (h.grounded (hstate.symm.trans hst))
  · obtain ⟨m, hm, hinit⟩ := h.configuring (hstate.symm.trans hst)
    exact ⟨m, hexchange.trans hm, hinit⟩
  · have hneeds' : core.NeedsLease := by
      unfold Connection.NeedsLease at hneeds ⊢
      rwa [hstate, hroams] at hneeds
    obtain ⟨m, hm, hheld⟩ := h.needsLease hneeds'
    exact ⟨m, hexchange.trans hm, hheld⟩

/-- Nothing the engine does beside the core and the exchange unpairs them. -/
theorem Paired.calm (h : d.Paired) (hcalm : Calm d d') : d'.Paired := by
  intro core' hcore'
  cases hcore : d.core with
  | none =>
    have hnone := hcalm.standing
    simp [standing, hcore, hcore'] at hnone
  | some core =>
    obtain ⟨core'', hcore'', hstate, hsession, -⟩ := hcalm.toKin.core hcore
    cases hcore'.symm.trans hcore''
    exact (h core hcore).of_eq hstate hsession hcalm.exchange

/-- What a poll leaves the exchange to do: it goes on as it is, or is begun afresh. -/
structure Sustains (d : Daemon S E) (q : Connection S × List Core.Action) : Prop where
  grounded : q.1.Grounded
  configuring : q.1.state = .configuring → .startDhcp ∈ q.2 ∨ d.Busy
  needsLease : q.1.NeedsLease → .startDhcp ∉ q.2 ∧ d.Leased
  failed : ∀ failure, .failed failure ∈ q.2 → q.1.state = .idle

/-- **A turn** pairs the core and the exchange, whatever of it succeeds. -/
theorem Sustains.outcome {q : Connection S × List Core.Action} {world : E.World}
    {journal : List Done} {x : Except String (List Input)} (h : Sustains d q)
    (hperform : Runs (performAll q.2)
      { d with world := world, core := some q.1, journal := journal } x d') :
    Outcome Paired IsScan x d' := by
  cases x with
  | error e => exact fun r d₃ habort => (runs_abort habort).paired
  | ok next =>
    refine ⟨?_, yields_performAll q.2 _ next d' hperform⟩
    intro core' hcore'
    obtain ⟨core'', hcore'', hstate, hsession, -⟩ := (kin_performAll q.2 _ _ _ hperform).core rfl
    cases hcore'.symm.trans hcore''
    have hroams : core'.roams = q.1.roams := by rw [Connection.roams, Connection.roams, hsession]
    have hgrounded : core'.Grounded := fun hst => hroams.trans (h.grounded (hstate.symm.trans hst))
    by_cases hfailed : ∃ failure, .failed failure ∈ q.2
    · obtain ⟨failure, hmem⟩ := hfailed
      have hidle := hstate.trans (h.failed failure hmem)
      exact ⟨hgrounded, by simp [hidle], by simp [Connection.NeedsLease, hidle]⟩
    · obtain ⟨hsame, hbusy⟩ := performAll_exchange (fun failure hmem => hfailed ⟨failure, hmem⟩)
        hperform
      refine ⟨hgrounded, fun hst => ?_, fun hneeds => ?_⟩
      · by_cases hstart : Core.Action.startDhcp ∈ q.2
        · exact hbusy hstart
        · obtain ⟨m, hm, hinit⟩ := (h.configuring (hstate.symm.trans hst)).resolve_left hstart
          exact ⟨m, (hsame hstart).trans hm, hinit⟩
      · have hneeds' : q.1.NeedsLease := by
          unfold Connection.NeedsLease at hneeds ⊢
          rwa [hstate, hroams] at hneeds
        obtain ⟨hstart, m, hm, hheld⟩ := h.needsLease hneeds'
        exact ⟨m, (hsame hstart).trans hm, hheld⟩

/-- Every poll but the one that acquires a lease goes on with what there is. -/
theorem Served.sustains {core : Connection S} {draws : Draws S} {input : Input}
    {q : Connection S × List Core.Action} (h : Served d core) (hpoll : core.poll draws input = some q)
    (hinput : ∀ lease, input ≠ .lease (.acquired lease)) : Sustains d q := by
  have hstep := Connection.leaseStep_move h.grounded hinput (Connection.poll_move hpoll)
  have hmem {action : Core.Action} (hd : Connection.isDecision action = true) :
      action ∈ q.2 → action ∈ Connection.decisions q.2 := (Connection.mem_decisions hd).mpr
  refine ⟨hstep.grounded, fun hst => ?_, fun hneeds => ⟨fun hstart => ?_, ?_⟩, fun failure hf => ?_⟩
  · rcases hstep.configuring hst with hstart | hst'
    · exact .inl ((Connection.mem_decisions rfl).mp hstart)
    · exact .inr (h.configuring hst')
  · have hst := hstep.started (hmem rfl hstart)
    simp [Connection.NeedsLease, hst] at hneeds
  · exact h.needsLease (hstep.needsLease hneeds)
  · exact hstep.failed failure (hmem rfl hf)

theorem turn_paired {input : Input} (h : d.Paired)
    (hinput : ∀ lease, input ≠ .lease (.acquired lease)) : Turn Paired IsScan d input := by
  intro core q x d' hcore hpoll hperform
  exact ((h core hcore).sustains hpoll hinput).outcome hperform

theorem feed_paired {input : Input} (h : Turn Paired IsScan d input) (hnone : d.core = none → d.Paired)
    {r : Except String Unit} (hfeed : Runs (feed input) d r d') : d'.Paired := by
  refine feed_ensures (fun d input hpaired hscan => turn_paired hpaired fun lease => ?_) h hnone hfeed
  rintro rfl
  obtain ⟨scan, hscan⟩ := hscan
  cases hscan

/-! ## Lease events -/

/-- The core waits for an address, or roams and keeps the one it has. -/
def Waits (d : Daemon S E) : Prop := ∃ core, d.core = some core ∧
  (core.state = .configuring ∨
    (core.state = .associating ∨ core.state = .handshaking) ∧ core.roams = true)

theorem turn_acquired (lease : Dhcp.Lease) (h : d.Leased) :
    Turn Paired IsScan d (.lease (.acquired lease)) := by
  intro core q x d' hcore hpoll hperform
  cases Option.some.inj hpoll
  obtain ⟨hstate, hdecisions⟩ := Connection.onLease_acquired (c := core) lease
  have hno {action : Core.Action} (hd : Connection.isDecision action = true) :
      action ∉ (core.onLease (.acquired lease)).2 := by
    rw [← Connection.mem_decisions hd, hdecisions]
    exact List.not_mem_nil
  refine Sustains.outcome ⟨?_, ?_, fun _ => ⟨hno rfl, h⟩, fun failure hf => absurd hf (hno rfl)⟩
    hperform
  · simp [Connection.Grounded, hstate]
  · simp [hstate]

/-- A core that is up and neither waits nor roams asks for another address; any other takes no
notice. -/
theorem turn_lost (reason : Dhcp.Reason) (hgrounded : ∀ core, d.core = some core → core.Grounded)
    (hwaits : ¬ d.Waits) : Turn Paired IsScan d (.lease (.lost reason)) := by
  intro core q x d' hcore hpoll hperform
  cases Option.some.inj hpoll
  by_cases hst : core.state = .connected
  · obtain ⟨hstate, hdecisions⟩ := Connection.onLease_lost_connected hst reason
    refine Sustains.outcome ⟨?_, fun _ => .inl ?_, ?_, fun failure hf => ?_⟩ hperform
    · simp [Connection.Grounded, hstate]
    · rw [← Connection.mem_decisions rfl, hdecisions]
      exact List.mem_singleton_self _
    · simp [Connection.NeedsLease, hstate]
    · rw [← Connection.mem_decisions rfl, hdecisions] at hf
      cases List.mem_singleton.mp hf
  · rw [Connection.onLease_lost hst] at hperform
    refine Sustains.outcome ⟨hgrounded core hcore, fun h => ?_, fun h => ?_,
      fun failure hf => absurd hf List.not_mem_nil⟩ hperform
    · exact absurd ⟨core, hcore, .inl h⟩ hwaits
    · exact absurd ⟨core, hcore, .inr (h.resolve_left hst)⟩ hwaits

theorem turn_failed : Turn (S := S) (E := E) Paired IsScan d (.lease .failed) := by
  intro core q x d' hcore hpoll hperform
  cases Option.some.inj hpoll
  have hstep := Connection.leaseStep_fail (c := core) core .dhcp
  have hstate : (core.fail .dhcp).1.state = .idle ∨ (core.fail .dhcp).1.state = .reconnecting := by
    rw [Connection.fail_fst]
    split_ifs <;> simp
  refine Sustains.outcome ⟨hstep.grounded, fun h => ?_, fun h => ?_, fun failure hf => ?_⟩ hperform
  · rcases hstate with hst | hst <;> cases hst.symm.trans h
  · have hneeds : (core.fail .dhcp).1.NeedsLease := h
    unfold Connection.NeedsLease at hneeds
    rcases hstate with hst | hst <;> simp only [hst] at hneeds <;> simp at hneeds
  · exact hstep.failed failure ((Connection.mem_decisions rfl).mpr hf)

/-! ## Events -/

/-- What an event feeds to the exchange. -/
def Event.dhcpInput : Event → Option Dhcp.Input
  | .datagram bytes => some (.datagram bytes)
  | .dhcpTimer t => some (.timeout t)
  | _ => none

/-- The event does not end the exchange while the core waits for it or roams. -/
def Orderly (d : Daemon S E) (event : Event) : Prop :=
  ∀ m input, d.exchange = some m → event.dhcpInput = some input → Ends m input → ¬ d.Waits

theorem Served.goes_on {core core' : Connection S} {m m' : Dhcp4} (h : Served d core)
    (hstate : core'.state = core.state) (hsession : core'.session = core.session)
    (hm : d.exchange = some m) (hm' : d'.exchange = some m')
    (hbusy : m.state ≠ .init → m'.state ≠ .init)
    (hheld : m.lease.isSome ∧ Dhcp4.Holding m.state → m'.lease.isSome ∧ Dhcp4.Holding m'.state) :
    Served d' core' := by
  have hroams : core'.roams = core.roams := by rw [Connection.roams, Connection.roams, hsession]
  refine ⟨fun hst => ?_, fun hst => ?_, fun hneeds => ?_⟩
  · exact hroams.trans (h.grounded (hstate.symm.trans hst))
  · obtain ⟨_, hold, hinit⟩ := h.configuring (hstate.symm.trans hst)
    cases hm.symm.trans hold
    exact ⟨m', hm', hbusy hinit⟩
  · have hneeds' : core.NeedsLease := by
      unfold Connection.NeedsLease at hneeds ⊢
      rwa [hstate, hroams] at hneeds
    obtain ⟨_, hold, hlease⟩ := h.needsLease hneeds'
    cases hm.symm.trans hold
    exact ⟨m', hm', hheld hlease⟩

theorem Waits.kin (h : d'.Waits) (hkin : Kin d d') : d.Waits := by
  obtain ⟨core', hcore', hwaits⟩ := h
  cases hcore : d.core with
  | none =>
    have hnone := hkin.standing
    simp [standing, hcore, hcore'] at hnone
  | some core =>
    obtain ⟨core'', hcore'', hstate, hsession, -⟩ := hkin.core hcore
    cases hcore'.symm.trans hcore''
    refine ⟨core, hcore, ?_⟩
    rwa [Connection.roams, hstate, hsession] at hwaits

/-- What an exchange reports is fed to the core. -/
def onReport (event : Option LeaseEvent) : EngineM S E Unit :=
  match event with
  | none => pure ()
  | some event => feed (.lease event)

/-- **A report is taken**, unless it ends what the core waits for. -/
theorem onReport_paired {input : Dhcp.Input} {m m' : Dhcp4} {event : Option LeaseEvent}
    {r : Except String Unit} (hpaired : d.Paired) (hkin : Kin d d') (hm : d.exchange = some m)
    (hm' : d'.exchange = some m' ∨ event = some .failed) (hreport : Report m input m' event)
    (hends : Ends m input → ¬ d.Waits) {d₂ : Daemon S E} (h : Runs (onReport event) d' r d₂) :
    d₂.Paired := by
  have hserved (core' : Connection S) (hcore' : d'.core = some core') : ∃ core, Served d core ∧
      core'.state = core.state ∧ core'.session = core.session := by
    cases hcore : d.core with
    | none =>
      have hnone := hkin.standing
      simp [standing, hcore, hcore'] at hnone
    | some core =>
      obtain ⟨core'', hcore'', hstate, hsession, -⟩ := hkin.core hcore
      cases hcore'.symm.trans hcore''
      exact ⟨core, hpaired core hcore, hstate, hsession⟩
  have hnone : d'.core = none → d'.Paired := fun hnone core hcore => by
    rw [hnone] at hcore
    cases hcore
  cases hreport with
  | quiet hbusy hheld =>
    obtain ⟨-, rfl⟩ := runs_pure.mp h
    intro core' hcore'
    obtain ⟨core, hs, hstate, hsession⟩ := hserved core' hcore'
    exact hs.goes_on hstate hsession hm (hm'.resolve_right (by rintro ⟨⟩)) hbusy hheld
  | acquired lease hlease hheld =>
    exact feed_paired (turn_acquired lease ⟨m', hm'.resolve_right (by rintro ⟨⟩), hlease, hheld⟩) hnone h
  | lost reason hend =>
    refine feed_paired (turn_lost reason (fun core' hcore' => ?_) fun hwaits => ?_) hnone h
    · obtain ⟨core, hs, hstate, hsession⟩ := hserved core' hcore'
      have hroams : core'.roams = core.roams := by rw [Connection.roams, Connection.roams, hsession]
      exact fun hst => hroams.trans (hs.grounded (hstate.symm.trans hst))
    · exact hends hend (hwaits.kin hkin)
  | failed => exact feed_paired turn_failed hnone h

theorem onDhcpDatagram_paired {bytes : Bytes} {r : Except String Unit} (hpaired : d.Paired)
    (hord : Orderly d (.datagram bytes)) (h : Runs (onDhcpDatagram bytes) d r d') : d'.Paired := by
  rcases runs_bind.mp h with ⟨event, d₁, hdrive, hrest⟩ | ⟨e, hdrive, -⟩
  · rcases runs_driveDhcp hdrive with ⟨-, rfl, hevent⟩ | ⟨m, hm, hkin, hm', hevent⟩
    · cases hevent
      obtain ⟨-, rfl⟩ := runs_pure.mp hrest
      exact hpaired
    · cases hevent
      refine onReport_paired hpaired hkin hm (.inl hm') (report_poll m nofun)
        (hord m _ hm rfl) (r := r) ?_
      unfold onReport
      cases hreported : reported (m.poll (.datagram bytes)).2 none with
      | none => rwa [hreported] at hrest
      | some event => rwa [hreported] at hrest
  · rcases runs_driveDhcp hdrive with ⟨-, -, hevent⟩ | ⟨m, -, -, -, hevent⟩ <;> cases hevent

theorem onDhcpTimer_paired {t : Dhcp.Timer} {r : Except String Unit} (hpaired : d.Paired)
    (hord : Orderly d (.dhcpTimer t)) (h : Runs (onDhcpTimer t) d r d') : d'.Paired := by
  rcases runs_bind.mp h with ⟨event, d₁, hdrive, hrest⟩ | ⟨e, hdrive, -⟩
  · rcases runs_driveDhcp hdrive with ⟨-, rfl, hevent⟩ | ⟨m, hm, hkin, hm', hevent⟩
    · cases hevent
      obtain ⟨-, rfl⟩ := runs_pure.mp hrest
      exact hpaired
    · cases hevent
      have hreport : Report m (.timeout t) _ _ := report_poll m nofun
      have hends := hord m _ hm rfl
      cases hreported : reported (m.poll (.timeout t)).2 none with
      | none =>
        rw [hreported] at hreport hrest
        exact onReport_paired hpaired hkin hm (.inl hm') hreport hends hrest
      | some event =>
        rw [hreported] at hreport hrest
        dsimp only at hrest
        by_cases hfailed : event = .failed
        · subst hfailed
          rw [if_pos rfl] at hrest
          rcases runs_bind.mp hrest with ⟨_, d₂, hstop, hfeed⟩ | ⟨e, hstop, -⟩
          · exact onReport_paired hpaired (IsTrans.trans _ _ _ hkin (admits_kin.stopDhcp _ _ _ hstop))
              hm (.inr rfl) hreport hends hfeed
          · exact absurd hstop (total_stopDhcp _ _ _)
        · rw [if_neg hfailed] at hrest
          exact onReport_paired hpaired hkin hm (.inl hm') hreport hends hrest
  · rcases runs_driveDhcp hdrive with ⟨-, -, hevent⟩ | ⟨m, -, -, -, hevent⟩ <;> cases hevent

/-! ## The other events -/

theorem keeping_of_calm {α : Type} {m : EngineM S E α} (h : Keeps Calm m) :
    Keeps (Keeping Paired) m := h.mono fun _ _ hcalm hpaired => hpaired.calm hcalm

theorem permits_paired : Permits (Keeping Paired : Daemon S E → Daemon S E → Prop) where
  calls d op hd := hd.calm (permits_calm.calls d op)
  timers d timers h hd := hd.calm (permits_calm.timers d timers h)
  routes d run hrun hd := hd.calm (permits_calm.routes d run hrun)
  profiles d profile hd := hd.calm (permits_calm.profiles d profile)
  eapol d eapol hd := hd.calm (permits_calm.eapol d eapol)

theorem paired_feed {input : Input} (hinput : ∀ event, input ≠ .lease event) :
    Keeps (Keeping Paired) (feed input : EngineM S E Unit) := fun _ _ _ h hpaired =>
  feed_paired (turn_paired hpaired fun _ => hinput _) (fun _ => hpaired) h

theorem calm_supersede (client : ClientId) (reason : String) :
    Keeps Calm (supersede client reason : EngineM S E Unit) := by
  have hforget : Keeps Calm (modify fun d => { d with pendingSecret := none } : EngineM S E _) :=
    keeps_modify fun d => speaks_calm.prompts d d.nextToken none
  refine keeps_bind keeps_get fun d => keeps_bind (keeps_modify fun _ => ⟨⟨rfl, rfl⟩, rfl⟩) fun _ => ?_
  cases d.watcher with
  | none => exact hforget
  | some previous =>
    dsimp only
    split_ifs
    · exact keeps_bind (speaks_calm.send _ _) fun _ => hforget
    · exact hforget

theorem paired_retaken (client : ClientId) (reason : String) (command : Command) :
    Keeps (Keeping Paired) (do
      supersede client reason
      feed (.command command) : EngineM S E Unit) :=
  keeps_bind (keeping_of_calm (calm_supersede client reason)) fun _ => paired_feed nofun

/-- **The entry points leave a pair a pair.** -/
theorem upheld_paired : Upheld (fun _ => True) (Paired : Daemon S E → Prop) where
  allows := permits_paired.toAllows
  feed _ hinput := paired_feed hinput.ne_lease
  leaves := paired_feed nofun
  abort _ _ _ _ h _ := (runs_abort h).paired
  rebuilt device := by
    refine keeps_rebuilt permits_paired.toAllows device fun profiles d r d' h _ => ?_
    rw [runs_modify_bind] at h
    have hrests : d'.Rests := by
      refine Rests.kin ?_ (admits_kin.stopDhcp _ _ _ h)
      rintro core ⟨⟩
      exact ⟨rfl, rfl, rfl⟩
    exact ⟨hrests.paired, hrests.isIdle⟩
  removed d _ _ := by rintro core ⟨⟩
  retaken client _ reason command _ _ _ _ _ := paired_retaken client reason command _ _ _
  answered value :=
    keeps_bind (keeping_of_calm (keeps_modify fun d => speaks_calm.prompts d d.nextToken none))
      fun _ => paired_feed nofun

/-- **An event that is orderly leaves a pair a pair.** -/
theorem handle_paired {event : Event} {r : Except String Unit} (hpaired : d.Paired)
    (hord : Orderly d event) (h : Runs (handle event) d r d') : d'.Paired := by
  cases event with
  | connect ifindex ssid client => exact upheld_paired.connect trivial _ _ _ _ _ h hpaired
  | autoconnect ifindex => exact upheld_paired.autoconnect _ _ _ _ h hpaired
  | disconnect ssid client => exact upheld_paired.disconnect trivial _ _ _ _ h hpaired
  | forget ssid client =>
    exact keeps_bind (upheld_paired.forget trivial ssid) (fun _ => keeps_pure _) _ _ _ h hpaired
  | secret token value client => exact upheld_paired.secret _ _ _ _ _ _ h hpaired
  | notification body => exact upheld_paired.onNotification _ _ _ _ h hpaired
  | eapol frame => exact upheld_paired.onEapol _ _ _ _ h hpaired
  | datagram bytes => exact onDhcpDatagram_paired hpaired hord h
  | dhcpTimer t => exact onDhcpTimer_paired hpaired hord h
  | timer id => exact upheld_paired.onTimer _ _ _ _ h hpaired
  | link event => exact upheld_paired.onLink _ _ _ _ h hpaired
  | forgetClient client =>
    have hcalm : Keeps Calm (forgetClient client : EngineM S E Unit) :=
      keeps_modify fun _ => ⟨⟨rfl, rfl⟩, rfl⟩
    exact hpaired.calm (hcalm _ _ _ h)
  | resume => exact upheld_paired.resume _ _ _ h hpaired
  | shutDown => exact upheld_paired.shutDown _ _ _ h hpaired

theorem start_paired (world : E.World) (nl rtnl : Bool) :
    (start world nl rtnl : Daemon S E).Paired := by
  rintro core ⟨⟩

theorem step_paired {woken : ℕ × Event} (hpaired : d.Paired) (hord : Orderly d woken.2) :
    (step d woken).1.Paired := by
  have hnow : ({ d with now := woken.1 } : Daemon S E).Paired := fun core hcore =>
    (hpaired core hcore).of_eq rfl rfl rfl
  unfold step wake
  cases hrun : (handle woken.2).run.run { d with now := woken.1 } with
  | none => exact hpaired
  | some p => exact handle_paired hnow hord hrun

/-- **Neither machine waits for the other** in a run whose steps are orderly. -/
theorem settled_run (world : E.World) (nl rtnl : Bool) (events : List (ℕ × Event))
    (h : Along (fun _ e => Orderly e.pre e.input.2) (log step (start world nl rtnl : Daemon S E)
      events)) :
    Settled (exec step (start world nl rtnl : Daemon S E) events) :=
  Paired.settled (run_induction (J := fun _ d => d.Paired) (start_paired world nl rtnl)
    (fun _ _ _ hpaired hord => step_paired hpaired hord) events h)

/-! ### An address for an open network -/

/-- What the server answers. -/
def sampleReply (kind : Dhcp.MessageType) : Bytes :=
  { Dhcp.Message.request 1 (.zero 6) with
    op := Dhcp.bootreply
    yiaddr := .replicate 4 1
    options := [.messageType kind, .serverId (.replicate 4 2), .subnetMask (.replicate 4 255),
      .leaseTime 3600] }.encode

/-- An open network, and a second access point of it that is better. -/
def sampleStart : Daemon .sample .sample :=
  start [[Connection.sampleBss],
    [Connection.sampleBss,
      { Connection.sampleBss with bssid := .replicate 6 1, signalDbm := -40 }]] true true

/-- It is found and joined, and an address is offered. -/
def sampleOffered : List (ℕ × Event) :=
  [(0, .connect 3 "n" 7), (1, .notification [Nl80211.cmdNewScanResults, 1, 0, 0]),
    (2, .notification [Nl80211.cmdConnect, 1, 0, 0]), (3, .datagram (sampleReply .offer))]

/-- The address is acknowledged. -/
def sampleLeased : List (ℕ × Event) := sampleOffered ++ [(4, .datagram (sampleReply .ack))]

theorem orderly_sampleReply {kind : Dhcp.MessageType}
    (h : (Dhcp.Message.decode (sampleReply kind)).toOption.bind Dhcp.Message.messageType ≠ some .nak) :
    Orderly d (.datagram (sampleReply kind)) := by
  intro m input _ hinput hends
  cases Option.some.inj hinput
  obtain ⟨-, msg, hmsg, htype⟩ := hends
  rw [Except.toOption_eq_some.mpr hmsg.decoded] at h
  exact absurd htype h

theorem settled_run_sample : (exec step sampleStart sampleLeased).state = .connected ∧
    Settled (exec step sampleStart sampleLeased) := by
  refine ⟨by decide +kernel, settled_run _ true true sampleLeased ?_⟩
  have hcalm (d : Daemon .sample .sample) {event : Event} (h : event.dhcpInput = none) :
      Orderly d event := fun m input _ hinput => by rw [h] at hinput; cases hinput
  refine (Machine.along_log_iff _ _ _).mpr fun before woken after heq => ?_
  have hmem : woken ∈ sampleLeased := by rw [heq]; simp
  simp only [sampleLeased, sampleOffered, List.cons_append, List.nil_append, List.mem_cons,
    List.not_mem_nil, or_false] at hmem
  rcases hmem with rfl | rfl | rfl | rfl | rfl
  · exact hcalm _ rfl
  · exact hcalm _ rfl
  · exact hcalm _ rfl
  · exact orderly_sampleReply (by decide +kernel)
  · exact orderly_sampleReply (by decide +kernel)

/-- **A refusal instead**: the exchange is back where it began, and the core waits for it. -/
theorem settled_fails :
    (exec step sampleStart (sampleOffered ++ [(4, .datagram (sampleReply .nak))])).state =
        .configuring ∧
      ¬ Settled (exec step sampleStart (sampleOffered ++ [(4, .datagram (sampleReply .nak))])) := by
  have hstate : (exec step sampleStart (sampleOffered ++
      [(4, .datagram (sampleReply .nak))])).state = .configuring := by decide +kernel
  have hinit : (exec step sampleStart (sampleOffered ++
      [(4, .datagram (sampleReply .nak))])).exchange.map Dhcp4.state = some .init := by
    decide +kernel
  refine ⟨hstate, fun h => ?_⟩
  obtain ⟨m, hm, hbusy⟩ := h.configuring hstate
  rw [hm] at hinit
  exact hbusy (Option.some.inj hinit)

/-- The lease runs out while the core roams to the better access point, and the core comes up
without one. -/
def sampleRoam : List (ℕ × Event) :=
  sampleLeased ++ [(5, .notification [Nl80211.cmdNewScanResults, 1, 0, 0]), (6, .dhcpTimer .expire),
    (7, .notification [Nl80211.cmdConnect, 1, 0, 0])]

theorem settled_fails_roaming : (exec step sampleStart sampleRoam).state = .connected ∧
    ¬ Settled (exec step sampleStart sampleRoam) := by
  have hstate : (exec step sampleStart sampleRoam).state = .connected := by decide +kernel
  have hlease : (exec step sampleStart sampleRoam).exchange.bind Dhcp4.lease = none := by
    decide +kernel
  refine ⟨hstate, fun h => ?_⟩
  obtain ⟨m, hm, hleased, -⟩ := h.connected hstate
  rw [hm, Option.bind_some] at hlease
  rw [hlease] at hleased
  cases hleased

end Daemon

end Caw
