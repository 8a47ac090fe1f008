import Caw.Daemon.Outlive

/-!
# Who is told of success

A request to join is answered when the core comes up, and also when it comes to rest.

* `Daemon.oks`, **`oks_abort`**, `oks_performAll`: how often a client was told of success, and what tells
  nobody;
* `Daemon.Keen`, **`upheld_keen`**: a connection that is watched holds no lease yet;
* `Daemon.Acquired`, `Daemon.Unsaved`, **`feed_acquired`**: what becomes of a lease that is reported;
* **`oks_handle`**: what one event tells a client that has not just asked to leave.
-/

set_option autoImplicit false

namespace Caw

open Caw.Core

namespace Daemon

open Effect
open Machine (Entry exec log Along)

variable {S : Platform} {E : System S} {d d' : Daemon S E} {client : ClientId}

/-! ## Success -/

/-- The client is told that its request has succeeded. -/
def Done.isOk (client : ClientId) : Done → Bool
  | .send recipient .ok => recipient = client
  | _ => false

theorem Done.isOk_iff {done : Done} : done.isOk client = true ↔ done = .send client .ok := by
  constructor
  · intro h
    unfold isOk at h
    split at h
    · rw [of_decide_eq_true h]
    · cases h
  · rintro rfl
    exact decide_eq_true rfl

/-- How often a client was told so. -/
def oks (client : ClientId) (d : Daemon S E) : ℕ := d.journal.countP (Done.isOk client)

@[simp] theorem oks_record (done : Done) :
    oks client (d.record done) = oks client d + if done.isOk client then 1 else 0 := by
  simp [oks, List.countP_singleton]

/-- A client that does not watch is not told. -/
def Hushed (client : ClientId) (d d' : Daemon S E) : Prop :=
  d.watcher ≠ some client → d'.watcher ≠ some client ∧ oks client d' = oks client d

instance : IsPreorder (Daemon S E) (Hushed client) where
  refl _ hd := ⟨hd, rfl⟩
  trans _ _ _ h h' hd := ⟨(h' (h hd).1).1, (h' (h hd).1).2.trans (h hd).2⟩

theorem admits_hushed : Admits (Hushed client : Daemon S E → Daemon S E → Prop) where
  calls d op hd := ⟨hd, oks_record (d := d) (.call op _)⟩
  timers _ _ _ hd := ⟨hd, rfl⟩
  routes _ _ _ hd := ⟨hd, rfl⟩
  dhcp _ _ hd := ⟨hd, rfl⟩
  eapol _ _ hd := ⟨hd, rfl⟩
  profiles _ _ hd := ⟨hd, rfl⟩

theorem admits_oks : Admits (Level (oks client) : Daemon S E → Daemon S E → Prop) where
  calls d op := oks_record (d := d) (.call op _)
  timers _ _ _ := rfl
  routes _ _ _ := rfl
  dhcp _ _ := rfl
  eapol _ _ := rfl
  profiles _ _ := rfl

theorem oks_tellFailed (reason : String) :
    Keeps (Level (oks client)) (tellFailed reason : EngineM S E Unit) := by
  intro d r d' h
  rw [(runs_tellFailed h).2, Level, afterFailure]
  cases d.watcher with
  | none => rfl
  | some watcher => simp [oks, Done.isOk]

theorem oks_requestSecret (prompt : String) :
    Keeps (Level (oks client)) (requestSecret prompt : EngineM S E Unit) := by
  intro d r d' h
  rcases runs_requestSecret h with ⟨-, rfl, -⟩ | ⟨watcher, -, -, rfl⟩
  · rfl
  · simp [Level, oks, Done.isOk]

theorem isOk_progress {watcher : ClientId} {bssid : Option Mac} {state : State} {message : Message}
    (h : progress bssid state = some message) : (Done.send watcher message).isOk client = false := by
  cases state <;> cases h <;> rfl

theorem oks_notify {state : State} (h : state ≠ .connected ∧ state ≠ .idle) :
    Keeps (Level (oks client)) (notify state : EngineM S E Unit) := by
  intro d r d' hrun
  rw [(runs_notify hrun).2, Level, afterNotice]
  cases d.watcher with
  | none => rfl
  | some watcher =>
    dsimp only
    rw [if_neg (not_or.mpr h)]
    cases hmessage : progress d.bssid state with
    | none => rfl
    | some message => simp [isOk_progress hmessage]

theorem oks_perform {action : Core.Action}
    (h : ∀ state, action = .notify state → state ≠ .connected ∧ state ≠ .idle) :
    Keeps (Level (oks client)) (perform action : EngineM S E _) :=
  admits_oks.perform (fun d => oks_record (d := d) (.perform action))
    (fun state hstate => oks_notify (h state hstate)) (fun _ _ => oks_tellFailed _) fun _ _ =>
      oks_requestSecret _

theorem hushed_of_oks {α : Type} {m : EngineM S E α} (hfades : Keeps Fades m)
    (hoks : Keeps (Level (oks client)) m) : Keeps (Hushed client) m :=
  fun _ _ _ h hd => ⟨fun hclient => hd (hfades _ _ _ h client hclient), hoks _ _ _ h⟩

theorem hushed_notify (state : State) :
    Keeps (Hushed client) (notify state : EngineM S E Unit) := by
  intro d r d' h hd
  have heq := (runs_notify h).2
  unfold afterNotice at heq
  cases hwatcher : d.watcher with
  | none =>
    rw [hwatcher] at heq
    subst heq
    exact ⟨hd, rfl⟩
  | some watcher =>
    rw [hwatcher] at heq
    subst heq
    have hother : (Done.send watcher .ok).isOk client = false :=
      decide_eq_false fun heq => hd (hwatcher.trans (congrArg some heq))
    have hanswered (d : Daemon S E) : oks client ({ d.record (.send watcher .ok) with
        watcher := none } : Daemon S E) = oks client d := by
      calc oks client _
        _ = oks client (d.record (.send watcher .ok)) := rfl
        _ = oks client d := by rw [oks_record, hother]; rfl
    dsimp only
    cases hmessage : progress d.bssid state with
    | none =>
      dsimp only
      split_ifs
      · exact ⟨(Option.some_ne_none client).symm, hanswered d⟩
      · exact ⟨hd, rfl⟩
    | some message =>
      have htold : oks client (d.record (.send watcher message)) = oks client d := by
        rw [oks_record, isOk_progress hmessage]
        rfl
      dsimp only
      split_ifs
      · exact ⟨(Option.some_ne_none client).symm, (hanswered _).trans htold⟩
      · exact ⟨hd, htold⟩

theorem hushed_perform (action : Core.Action) :
    Keeps (Hushed client) (perform action : EngineM S E _) :=
  admits_hushed.perform (fun d hd => ⟨hd, oks_record (d := d) (.perform action)⟩)
    (fun state _ => hushed_notify state)
    (fun _ _ => hushed_of_oks (speaks_fades.tellFailed _) (oks_tellFailed _))
    (fun _ _ => hushed_of_oks (speaks_fades.requestSecret _) (oks_requestSecret _))

@[simp] theorem oks_afterSupersede (asker : ClientId) (reason : String) :
    oks client (d.afterSupersede asker reason) = oks client d := by
  unfold afterSupersede
  split
  · rfl
  · split_ifs
    · simp [oks, Done.isOk]
    · rfl

/-- **A client that asks for nothing and does not watch** is told nothing. -/
theorem spans_hushed : Spans (· ≠ client) (Hushed client : Daemon S E → Daemon S E → Prop) where
  toAdmits := admits_hushed
  polls input d _ _ _ _ hd := ⟨hd, oks_record (d := d) (.poll input)⟩
  performs := hushed_perform
  tells _ := hushed_of_oks (speaks_fades.tellFailed _) (oks_tellFailed _)
  builds _ _ _ hd := ⟨hd, rfl⟩
  removes _ hd := ⟨hd, rfl⟩
  supersedes asker hasker reason d r d' h _ := by
    rw [(runs_supersede h).2]
    refine ⟨fun hclient => hasker ?_, oks_afterSupersede asker reason⟩
    rw [afterSupersede_watcher] at hclient
    exact Option.some.inj hclient
  takes _ hd := ⟨hd, rfl⟩

theorem oks_retaken {asker : ClientId} {reason : String} {input : Input} {r : Except String Unit}
    (hasker : asker ≠ client) (h : Runs (do
      supersede asker reason
      feed input : EngineM S E Unit) d r d') : oks client d' = oks client d := by
  have hfeed := (runs_retaken h).2
  have hwatcher : (d.afterSupersede asker reason).watcher ≠ some client := by
    rw [afterSupersede_watcher]
    exact fun heq => hasker (Option.some.inj heq)
  exact (spans_hushed.feed input _ _ _ hfeed hwatcher).2.trans (oks_afterSupersede asker reason)

/-- **A failure** is no success. -/
theorem oks_abort (reason : String) :
    Keeps (Level (oks client)) (abort reason : EngineM S E Unit) := by
  intro d r d' h
  rcases runs_bind.mp h with ⟨_, d₁, htell, hreset⟩ | ⟨e, htell, -⟩
  · have hreset' : Keeps (Hushed client) (reset : EngineM S E Unit) :=
      admits_hushed.reset (spans_hushed.polls _) fun action _ => hushed_perform action
    have hwatcher : d₁.watcher ≠ some client := by
      rw [tellFailed_unwatched htell]
      exact (Option.some_ne_none client).symm
    exact (hreset' _ _ _ hreset hwatcher).2.trans (oks_tellFailed reason _ _ _ htell)
  · exact absurd htell (total_tellFailed _ _ _ _)

/-- Actions that settle nothing tell nobody of success, and nor do any where nobody watches. -/
theorem oks_performAll {actions : List Core.Action} {x : Except String (List Input)}
    (hquiet : d.watcher = none ∨
      ∀ state, .notify state ∈ actions → state ≠ .connected ∧ state ≠ .idle)
    (h : Runs (performAll actions) d x d') : oks client d' = oks client d := by
  rcases hquiet with hnone | hquiet
  · have hwatcher : d.watcher ≠ some client := by
      rw [hnone]
      exact (Option.some_ne_none client).symm
    exact (keeps_performAll (fun action _ => hushed_perform action) _ _ _ h hwatcher).2
  · refine keeps_performAll (fun action hmem => oks_perform fun state hstate => ?_) _ _ _ h
    exact hquiet state (hstate ▸ hmem)

/-! ## A connection that is watched -/

/-- A connection that is watched holds no lease yet. -/
structure Keen (d : Daemon S E) : Prop extends Live d where
  grounded : ∀ core, d.core = some core → core.Grounded
  patient : ∀ client, d.watcher = some client → ∀ core, d.core = some core → ¬ core.NeedsLease

theorem Keen.of_unwatched (hhoused : d.Housed)
    (hgrounded : ∀ core, d.core = some core → core.Grounded) (h : d.watcher = none) : d.Keen :=
  ⟨.of_unwatched hhoused h, hgrounded, fun client hclient => by cases h.symm.trans hclient⟩

theorem Keen.keep (h : d.Keen) (hkin : Kin d d') (hfades : Fades d d') : d'.Keen := by
  refine ⟨h.toLive.keep hkin hfades, hkin.grounded h.grounded, fun client hclient core' hcore' => ?_⟩
  obtain ⟨core, hcore, -⟩ := h.watched client (hfades client hclient)
  obtain ⟨core'', hcore'', hstate, hsession, -⟩ := hkin.core hcore
  cases hcore'.symm.trans hcore''
  have hneeds := h.patient client (hfades client hclient) core hcore
  rwa [Connection.NeedsLease, Connection.roams, hstate, hsession]

theorem keen_abort {reason : String} {r : Except String Unit} (h : Runs (abort reason) d r d')
    (hhoused : d.Housed) : d'.Keen :=
  .of_unwatched (live_abort h hhoused).housed (runs_abort h).grounded (abort_unwatched h)

/-- **A turn** that tells the watcher of a lease that is held. -/
theorem turn_keen {input : Input} (hlive : Turn Live (fun _ => True) d input)
    (hgrounded : ∀ core, d.core = some core → core.Grounded)
    (hneeds : ∀ core q, d.core = some core → core.poll (E.draw d.world).1 input = some q →
      q.1.NeedsLease → d.watcher = none ∨ ∃ action ∈ q.2, Concludes action) :
    Turn Keen (fun _ => True) d input := by
  intro core q x d' hcore hpoll hperform
  have hout := hlive core q x d' hcore hpoll hperform
  cases x with
  | error e =>
    intro r d'' habort
    exact .of_unwatched (hout r d'' habort).housed (runs_abort habort).grounded
      (abort_unwatched habort)
  | ok next =>
    have hkin := kin_performAll _ _ _ _ hperform
    have hgrounded' : q.1.Grounded :=
      Connection.grounded_move (hgrounded core hcore) (Connection.poll_move hpoll)
    refine ⟨⟨hout.1, hkin.grounded ?_, fun client hclient core' hcore' hneeded => ?_⟩,
      fun _ _ => trivial⟩
    · rintro _ ⟨⟩
      exact hgrounded'
    · obtain ⟨core'', hcore'', hstate, hsession, -⟩ := hkin.core rfl
      cases hcore'.symm.trans hcore''
      rw [Connection.NeedsLease, Connection.roams, hstate, hsession] at hneeded
      rcases hneeds core q hcore hpoll hneeded with hnone | hconcludes
      · cases (keeps_performAll (fun action _ => fades_perform action) _ _ _ hperform client
          hclient).symm.trans hnone
      · cases (performAll_unwatched hconcludes hperform).symm.trans hclient

theorem turn_keen_any {input : Input} (h : d.Keen) : Turn Keen (fun _ => True) d input := by
  refine turn_keen (turn_live_any h.toLive) h.grounded fun core q hcore hpoll hneeded => ?_
  have hmove := Connection.poll_move hpoll
  cases hwatcher : d.watcher with
  | none => exact .inl rfl
  | some client =>
    by_cases hlease : ∃ lease, input = .lease (.acquired lease)
    · obtain ⟨core', hcore', -, hconnected⟩ := h.watched client hwatcher
      cases hcore.symm.trans hcore'
      obtain ⟨lease, rfl⟩ := hlease
      cases Option.some.inj hpoll
      have hreports := (Connection.reports_move hmove).connected (Connection.onLease_acquired lease).1
      exact .inr ⟨_, hreports.resolve_left hconnected, .inl rfl⟩
    · have hstep := Connection.leaseStep_move (h.grounded core hcore)
        (fun lease heq => hlease ⟨lease, heq⟩) hmove
      exact absurd (hstep.needsLease hneeded) (h.patient client hwatcher core hcore)

theorem keen_feed {input : Input} : Keeps (Keeping Keen) (feed input : EngineM S E Unit) :=
  fun _ _ _ h hd => feed_ensures (fun _ _ hd _ => turn_keen_any hd) (turn_keen_any hd) (fun _ => hd) h

theorem admits_keen : Admits (Keeping Keen : Daemon S E → Daemon S E → Prop) where
  calls d op h := h.keep (admits_kin.calls d op) (admits_fades.calls d op)
  timers d timers hsparing h :=
    h.keep (admits_kin.timers d timers hsparing) (admits_fades.timers d timers hsparing)
  routes d run hrun h := h.keep (admits_kin.routes d run hrun) (admits_fades.routes d run hrun)
  dhcp d run h := h.keep (admits_kin.dhcp d run) (admits_fades.dhcp d run)
  eapol d eapol h := h.keep (admits_kin.eapol d eapol) (admits_fades.eapol d eapol)
  profiles d profile h := h.keep (admits_kin.profiles d profile) (admits_fades.profiles d profile)

/-- A core that is told to join, or to leave, by whoever takes over the watch. -/
theorem turn_keen_retaken {reason : String} {command : Command}
    (hcommand : command = .disconnect ∨ ∃ ssid, command = .connect ssid) (h : d.Keen) :
    Turn Keen (fun _ => True) (d.afterSupersede client reason) (.command command) := by
  refine turn_keen (turn_live_retaken hcommand h.housed) (fun core hcore => ?_)
    fun core q hcore hpoll hneeded => ?_
  · rw [afterSupersede_core] at hcore
    exact h.grounded core hcore
  · rcases hcommand with rfl | ⟨ssid, rfl⟩
    · cases Option.some.inj hpoll
      simp [Connection.NeedsLease] at hneeded
    · cases Option.some.inj hpoll
      simp [Connection.NeedsLease] at hneeded

theorem keen_rebuilt (device : Device) (profiles : List Profile) :
    Keeps (Keeping fun d => Keen d ∧ d.isIdle = true) (do
      modify fun d =>
        { d.withCore (.new device profiles) with device := some device, eapol := none }
      stopDhcp : EngineM S E Unit) := by
  intro d r d' h hd
  rw [runs_modify_bind] at h
  have hnew : Keen ({ d.withCore (.new device profiles) with
      device := some device, eapol := none } : Daemon S E) := by
    refine .of_unwatched rfl ?_ (hd.1.unwatched hd.2)
    rintro core ⟨⟩
    intro hst
    cases hst
  exact ⟨admits_keen.stopDhcp _ _ _ h hnew, (admits_kin.stopDhcp _ _ _ h).isIdle⟩

/-- **The entry points** leave a connection that is watched without a lease. -/
theorem upheld_keen : Upheld (fun _ => True) (Keen : Daemon S E → Prop) where
  allows := admits_keen.toAllows
  feed _ _ := keen_feed
  leaves := keen_feed
  abort _ _ _ _ h hd := keen_abort h hd.housed
  rebuilt device := keeps_rebuilt admits_keen.toAllows device (keen_rebuilt device)
  removed _ hd hidle := .of_unwatched rfl (by rintro core ⟨⟩) (hd.unwatched hidle)
  retaken _ _ _ _ hcommand _ _ _ hbased h hd := retaken_ensures (fun _ _ hd _ => turn_keen_any hd)
    (hd.isSome_core hbased) (turn_keen_retaken hcommand hd) h
  answered _ := keeps_bind (keeps_modify fun _ h => ⟨⟨h.housed, h.watched⟩, h.grounded, h.patient⟩)
    fun _ => keen_feed

/-! ## Nobody is told -/

/-- The client has not been told of success since. -/
structure Untold (client : ClientId) (n : ℕ) (d : Daemon S E) : Prop extends Keen d where
  untold : oks client d = n

section Untold

variable {n : ℕ}

theorem oks_polled (core : Connection S) (input : Input) :
    oks client (d.polled core input) = oks client d :=
  oks_record (d := d) (.poll input)

theorem turn_untold {input : Input} (hkeen : Turn Keen (fun _ => True) d input) (hn : oks client d = n)
    (hinput : input ≠ .command .disconnect)
    (hup : ∀ core q, d.core = some core → core.poll (E.draw d.world).1 input = some q →
      q.1.state = .connected → d.watcher = none) : Turn (Untold client n) IsScan d input := by
  intro core q x d' hcore hpoll hperform
  have hout := hkeen core q x d' hcore hpoll hperform
  have hoks : oks client d' = n := by
    refine (oks_performAll ?_ hperform).trans ((oks_polled q.1 input).trans hn)
    by_cases hst : q.1.state = .connected
    · exact .inl (hup core q hcore hpoll hst)
    · refine .inr fun state hmem => ?_
      obtain ⟨hidle, hconnected⟩ := Connection.announces_move hinput (Connection.poll_move hpoll) state
        (Connection.mem_notices.mpr hmem)
      exact ⟨fun h => hst (hconnected h), hidle⟩
  cases x with
  | error e => exact fun r d'' habort => ⟨hout r d'' habort, (oks_abort e _ _ _ habort).trans hoks⟩
  | ok next => exact ⟨⟨hout.1, hoks⟩, yields_performAll _ _ _ _ hperform⟩

/-- **A turn** that is neither told to rest nor given a lease. -/
theorem turn_untold_any {input : Input} (h : Untold client n d) (hinput : input ≠ .command .disconnect)
    (hlease : ∀ lease, input ≠ .lease (.acquired lease)) : Turn (Untold client n) IsScan d input := by
  refine turn_untold (turn_keen_any h.toKeen) h.untold hinput fun core q hcore hpoll hst => ?_
  have hstep := Connection.leaseStep_move (h.grounded core hcore) hlease (Connection.poll_move hpoll)
  cases hwatcher : d.watcher with
  | none => rfl
  | some client => exact absurd (hstep.needsLease (.inl hst)) (h.patient client hwatcher core hcore)

theorem feed_untold {input : Input} (hinput : input ≠ .command .disconnect)
    (hlease : ∀ lease, input ≠ .lease (.acquired lease)) :
    Keeps (Keeping (Untold client n)) (feed input : EngineM S E Unit) := by
  intro d r d' h hd
  refine feed_ensures (fun d input hd hscan => ?_) (turn_untold_any hd hinput hlease) (fun _ => hd) h
  obtain ⟨scan, rfl⟩ := hscan
  exact turn_untold_any hd (by rintro ⟨⟩) (by rintro lease ⟨⟩)

theorem admits_untold : Admits (Keeping (Untold client n) : Daemon S E → Daemon S E → Prop) where
  calls d op h := ⟨admits_keen.calls d op h.toKeen, (admits_oks.calls d op).trans h.untold⟩
  timers d timers hsparing h := ⟨admits_keen.timers d timers hsparing h.toKeen, h.untold⟩
  routes d run hrun h := ⟨admits_keen.routes d run hrun h.toKeen, h.untold⟩
  dhcp d run h := ⟨admits_keen.dhcp d run h.toKeen, h.untold⟩
  eapol d eapol h := ⟨admits_keen.eapol d eapol h.toKeen, h.untold⟩
  profiles d profile h := ⟨admits_keen.profiles d profile h.toKeen, h.untold⟩

theorem borne_untold : Borne (fun _ => False) (Untold client n : Daemon S E → Prop) where
  allows := admits_untold.toAllows
  feed input hinput := feed_untold (by rintro rfl; exact hinput) fun lease => hinput.ne_lease _
  abort reason _ _ _ h hd :=
    ⟨keen_abort h hd.housed, (oks_abort reason _ _ _ h).trans hd.untold⟩
  rebuilt device := by
    refine keeps_rebuilt admits_untold.toAllows device fun profiles d r d' h hd => ?_
    obtain ⟨hkeen, hidle⟩ := keen_rebuilt device profiles _ _ _ h ⟨hd.1.toKeen, hd.2⟩
    rw [runs_modify_bind] at h
    exact ⟨⟨hkeen, (admits_oks.stopDhcp _ _ _ h).trans hd.1.untold⟩, hidle⟩
  removed d hd hidle := ⟨upheld_keen.removed d hd.toKeen hidle, hd.untold⟩
  retaken client hclient := hclient.elim

/-- **A request to join** tells nobody of success, however it goes on. -/
theorem oks_connect {asker : ClientId} {ifindex : UInt32} {ssid : String} {r : Except String Unit}
    (hd : d.Keen) (h : Runs (connect ifindex ssid asker) d r d') : oks client d' = oks client d := by
  have hprepared {x : Except String Unit} {d₁ : Daemon S E} (hrun : Runs (prepare ifindex) d x d₁) :
      Untold client (oks client d) d₁ := borne_untold.prepare ifindex _ _ _ hrun ⟨hd, rfl⟩
  rcases runs_connect h with ⟨e, -, rfl | hprepare⟩ | ⟨-, -, d₁, hprepare, hretaken⟩
  · rfl
  · exact (hprepared hprepare).untold
  · have hd₁ := hprepared hprepare
    refine (retaken_ensures (J := Untold client (oks client d)) (fun d input hd hscan => ?_)
      (hd₁.isSome_core (.inr (yields_prepare ifindex _ _ _ hprepare))) (turn_untold
        (turn_keen_retaken (.inr ⟨_, rfl⟩) hd₁.toKeen) ((oks_afterSupersede _ _).trans hd₁.untold)
        (by rintro ⟨⟩) fun core q _ hpoll hst => ?_) hretaken).untold
    · obtain ⟨scan, rfl⟩ := hscan
      exact turn_untold_any hd (by rintro ⟨⟩) (by rintro lease ⟨⟩)
    · cases Option.some.inj hpoll
      simp at hst

theorem untold_secret (token : UInt64) (value : String) (asker : ClientId) :
    Keeps (Keeping (Untold client n)) (secret token value asker : EngineM S E Unit) := by
  refine keeps_secret (keeps_bind (keeps_modify fun d h => ?_) fun _ =>
    feed_untold (by rintro ⟨⟩) (by rintro lease ⟨⟩)) token asker
  exact ⟨h.toKeen.keep ⟨rfl, rfl⟩ fun _ => id, h.untold⟩

theorem oks_plain {event : Event} {r : Except String Unit} (hd : d.Keen)
    (h : Runs (handle event) d r d') (hplain : event.Plain) : oks client d' = oks client d :=
  (borne_untold.handle_plain hplain _ _ _ h ⟨hd, rfl⟩).untold

end Untold

/-! ## A lease -/

theorem exists_of_performAll_error {actions : List Core.Action} {e : String}
    (h : Runs (performAll actions) d (.error e) d') :
    ∃ action ∈ actions, ∃ d₁, Continues d d₁ ∧ Runs (perform action) d₁ (.error e) d' := by
  induction actions generalizing d with
  | nil => cases (runs_pure.mp h).1
  | cons first rest ih =>
    rcases runs_bind.mp h with ⟨x, d₁, hfirst, hrest⟩ | ⟨e', hfirst, hr⟩
    · rcases runs_bind.mp hrest with ⟨others, d₂, -, hpure⟩ | ⟨e', hothers, hr⟩
      · cases (runs_pure.mp hpure).1
      · cases hr
        obtain ⟨action, hmem, d₂, hcontinues, haction⟩ := ih hothers
        exact ⟨action, List.mem_cons_of_mem _ hmem, d₂,
          (conducts_continues.perform first _ _ _ hfirst).trans hcontinues, haction⟩
    · cases hr
      exact ⟨first, List.mem_cons_self, d, refl d, hfirst⟩

/-- A lease is put on the interface, and the rest of what is done of it can only fail on disk. -/
theorem onLease_acquired_snd (core : Connection S) (lease : Dhcp.Lease) :
    ∃ rest, (core.onLease (.acquired lease)).2 = .applyLease lease :: rest ∧ ∀ action ∈ rest,
      (∃ id, action = .clearTimer id) ∨ action = .notify .connected ∨
        ∃ profile, action = .saveProfile profile := by
  refine ⟨(core.enter .connected).2 ++
    ({ (core.enter .connected).1 with attempts := 0 } : Connection S).saveProfile.2, rfl, ?_⟩
  intro action hmem
  rcases List.mem_append.mp hmem with hmem | hmem
  · rcases List.mem_append.mp hmem with hmem | hmem
    · split_ifs at hmem
      · exact .inl (mem_disarm hmem)
      · cases hmem
    · exact .inr (.inl (List.mem_singleton.mp hmem))
  · unfold Connection.saveProfile at hmem
    split at hmem
    · split_ifs at hmem
      · cases hmem
      · split at hmem
        · cases hmem
        · exact .inr (.inr ⟨_, List.mem_singleton.mp hmem⟩)
    · cases hmem

/-- A timer that is disarmed, and a state that is told of, cannot fail. -/
theorem total_perform {action : Core.Action}
    (h : (∃ id, action = .clearTimer id) ∨ ∃ state, action = .notify state) :
    Total (perform action : EngineM S E _) := by
  refine total_bind (total_modify _) fun _ => ?_
  rcases h with ⟨id, rfl⟩ | ⟨state, rfl⟩
  · exact total_bind (total_modify _) fun _ => total_pure _
  · exact total_bind (fun _ _ _ hnotify => by cases (runs_notify hnotify).1) fun _ => total_pure _

theorem not_saved {profile : Profile} {e : String}
    (h : Runs (perform (.saveProfile profile)) d (.error e) d') :
    .call (.saveProfile profile) false ∈ d'.journal.drop d.journal.length := by
  rw [perform, runs_modify_bind] at h
  rcases runs_bind.mp h with ⟨_, d₁, -, hpure⟩ | ⟨e', hsave, hr⟩
  · cases (runs_pure.mp hpure).1
  · rcases runs_bind.mp hsave with ⟨_, d₁, -, hmodify⟩ | ⟨e'', hrequest, -⟩
    · cases (runs_modify.mp hmodify).1
    · rw [runs_request hrequest]
      simp [Except.isOk, Except.toBool]

/-- Where what is done of a lease fails, nobody has been told of success, or the profile could not be
saved. -/
theorem oks_unleased {core : Connection S} {lease : Dhcp.Lease} {e : String}
    (h : Runs (performAll (core.onLease (.acquired lease)).2) d (.error e) d') :
    oks client d' = oks client d ∨ ∃ profile, .call (.saveProfile profile) false ∈
      d'.journal.drop d.journal.length := by
  obtain ⟨rest, hactions, hrest⟩ := onLease_acquired_snd core lease
  have happly : Keeps (Level (oks client)) (perform (.applyLease lease) : EngineM S E _) :=
    oks_perform (by rintro state ⟨⟩)
  rw [hactions] at h
  rcases runs_bind.mp h with ⟨x, d₁, hfirst, hothers⟩ | ⟨e', hfirst, -⟩
  · rcases runs_bind.mp hothers with ⟨others, d₂, -, hpure⟩ | ⟨e', hfail, -⟩
    · cases (runs_pure.mp hpure).1
    · obtain ⟨action, hmem, d₂, hcontinues, haction⟩ := exists_of_performAll_error hfail
      rcases hrest action hmem with ⟨id, rfl⟩ | rfl | ⟨profile, rfl⟩
      · exact absurd haction (total_perform (.inl ⟨id, rfl⟩) _ _ _)
      · exact absurd haction (total_perform (.inr ⟨_, rfl⟩) _ _ _)
      · have hd₂ : d.journal <+: d₂.journal :=
          (conducts_continues.perform _ _ _ _ hfirst).trans hcontinues
        refine .inr ⟨profile, List.drop_subset_drop_left _ hd₂.length_le (not_saved haction)⟩
  · exact .inl (happly _ _ _ hfirst)

/-- The core has come up with a lease, and everything that takes was done. -/
def Acquired (d d' : Daemon S E) : Prop := ∃ d₁ core lease next, Kin d d₁ ∧ Continues d d₁ ∧
  d₁.core = some core ∧
  Runs (performAll (core.onLease (.acquired lease)).2)
    (d₁.polled (core.onLease (.acquired lease)).1 (.lease (.acquired lease))) (.ok next) d'

/-- A profile could not be saved in between. -/
def Unsaved (d d' : Daemon S E) : Prop :=
  ∃ profile, .call (.saveProfile profile) false ∈ d'.journal.drop d.journal.length

theorem Unsaved.trans {d₀ d₁ d₂ : Daemon S E} (h : Unsaved d d₁) (hbefore : Continues d₀ d)
    (hafter : Continues d₁ d₂) : Unsaved d₀ d₂ := by
  obtain ⟨profile, hmem⟩ := h
  refine ⟨profile, ?_⟩
  have hmem' := (hafter.drop d.journal.length).subset hmem
  exact List.drop_subset_drop_left _ hbefore.length_le hmem'

/-- **A lease is reported**: nobody is told of success, or the core has come up, or its profile could
not be saved. -/
theorem feed_acquired {lease : Dhcp.Lease} {r : Except String Unit}
    (h : Runs (feed (.lease (.acquired lease))) d r d') :
    oks client d' = oks client d ∨ Unsaved d d' ∨ Acquired d d' := by
  cases hcore : d.core with
  | none =>
    rw [runs_feed_none hcore h]
    exact .inl rfl
  | some core =>
    obtain ⟨x, d₁, hperform, hrest⟩ := runs_attempt_bind.mp (runs_turn hcore rfl h)
    have hpolled : Continues d (d.polled (core.onLease (.acquired lease)).1
        (.lease (.acquired lease))) := continues_of rfl
    cases x with
    | error e =>
      rcases oks_unleased hperform with hsame | hunsaved
      · exact .inl ((oks_abort e _ _ _ hrest).trans (hsame.trans (oks_polled _ _)))
      · exact .inr (.inl (Unsaved.trans hunsaved hpolled (conducts_continues.abort e _ _ _ hrest)))
    | ok next =>
      obtain ⟨rest, hactions, hrests⟩ := onLease_acquired_snd core lease
      have hnext : next = [] := by
        refine List.eq_nil_iff_forall_not_mem.mpr fun input hinput => ?_
        obtain ⟨-, ifindex, hmem⟩ := brings_performAll _ _ _ _ hperform input hinput
        rw [hactions] at hmem
        rcases List.mem_cons.mp hmem with hmem | hmem
        · cases hmem
        · rcases hrests _ hmem with ⟨id, heq⟩ | heq | ⟨profile, heq⟩ <;> cases heq
      subst hnext
      obtain ⟨-, rfl⟩ := runs_pure.mp hrest
      exact .inr (.inr ⟨d, core, lease, [], refl d, refl d, hcore, hperform⟩)

theorem oks_reported {d₀ : Daemon S E} {event : LeaseEvent} {r : Except String Unit} (hd : d.Keen)
    (hkin : Kin d₀ d) (hcontinues : Continues d₀ d) (hoks : oks client d = oks client d₀)
    (h : Runs (feed (.lease event)) d r d') :
    oks client d' = oks client d₀ ∨ Unsaved d₀ d' ∨
      ∃ lease, event = .acquired lease ∧ Acquired d₀ d' := by
  by_cases hlease : ∃ lease, event = .acquired lease
  · obtain ⟨lease, rfl⟩ := hlease
    rcases feed_acquired h with hsame | hunsaved | hacquired
    · exact .inl (hsame.trans hoks)
    · exact .inr (.inl (hunsaved.trans hcontinues (refl d')))
    · obtain ⟨d₁, core, lease', next, hkin', hcontinues', hcore, hrun⟩ := hacquired
      exact .inr (.inr ⟨lease, rfl, d₁, core, lease', next, IsTrans.trans _ _ _ hkin hkin',
        hcontinues.trans hcontinues', hcore, hrun⟩)
  · refine .inl ((feed_untold (by rintro ⟨⟩) (fun lease heq => ?_) _ _ _ h ⟨hd, hoks⟩).untold)
    exact hlease ⟨lease, by cases heq; rfl⟩

/-- On this input the exchange reports a lease. -/
def Leases (d : Daemon S E) (input : Dhcp.Input) : Prop :=
  ∃ m lease, d.exchange = some m ∧ reported (m.poll input).2 none = some (.acquired lease)

theorem driven {input : Dhcp.Input} {event : LeaseEvent}
    (h : Runs (driveDhcp input) d (.ok (some event)) d') :
    ∃ m, d.exchange = some m ∧ reported (m.poll input).2 none = some event := by
  rcases runs_driveDhcp h with ⟨-, -, hr⟩ | ⟨m, hm, -, -, hr⟩
  · cases hr
  · exact ⟨m, hm, (Except.ok.inj hr).symm⟩

theorem oks_datagram {bytes : Bytes} {r : Except String Unit} (hd : d.Keen)
    (h : Runs (onDhcpDatagram bytes) d r d') :
    oks client d' = oks client d ∨ Unsaved d d' ∨ (Leases d (.datagram bytes) ∧ Acquired d d') := by
  rcases runs_bind.mp h with ⟨event, d₁, hdrive, hrest⟩ | ⟨e, hdrive, -⟩
  · have hoks : oks client d₁ = oks client d := admits_oks.driveDhcp _ _ _ _ hdrive
    cases event with
    | none =>
      obtain ⟨-, rfl⟩ := runs_pure.mp hrest
      exact .inl hoks
    | some event =>
      obtain ⟨m, hm, hevent⟩ := driven hdrive
      rcases oks_reported (admits_keen.driveDhcp _ _ _ _ hdrive hd)
        (admits_kin.driveDhcp _ _ _ _ hdrive) (conducts_continues.drives _ _ _ _ hdrive) hoks hrest
        with hsame | hunsaved | ⟨lease, rfl, hacquired⟩
      · exact .inl hsame
      · exact .inr (.inl hunsaved)
      · exact .inr (.inr ⟨⟨m, lease, hm, hevent⟩, hacquired⟩)
  · exact absurd hdrive (total_driveDhcp _ _ _ _)

theorem oks_dhcpTimer {timer : Dhcp.Timer} {r : Except String Unit} (hd : d.Keen)
    (h : Runs (onDhcpTimer timer) d r d') :
    oks client d' = oks client d ∨ Unsaved d d' ∨ (Leases d (.timeout timer) ∧ Acquired d d') := by
  rcases runs_bind.mp h with ⟨event, d₁, hdrive, hrest⟩ | ⟨e, hdrive, -⟩
  · have hoks : oks client d₁ = oks client d := admits_oks.driveDhcp _ _ _ _ hdrive
    have hkeen := admits_keen.driveDhcp _ _ _ _ hdrive hd
    have hkin := admits_kin.driveDhcp _ _ _ _ hdrive
    have hcontinues := conducts_continues.drives _ _ _ _ hdrive
    cases event with
    | none =>
      obtain ⟨-, rfl⟩ := runs_pure.mp hrest
      exact .inl hoks
    | some event =>
      obtain ⟨m, hm, hevent⟩ := driven hdrive
      have hout : oks client d' = oks client d ∨ Unsaved d d' ∨
          ∃ lease, event = .acquired lease ∧ Acquired d d' := by
        dsimp only at hrest
        split_ifs at hrest
        · rcases runs_bind.mp hrest with ⟨_, d₂, hstop, hfeed⟩ | ⟨e, hstop, -⟩
          · exact oks_reported (admits_keen.stopDhcp _ _ _ hstop hkeen)
              (IsTrans.trans _ _ _ hkin (admits_kin.stopDhcp _ _ _ hstop))
              (hcontinues.trans (conducts_continues.stops _ _ _ hstop))
              ((admits_oks.stopDhcp _ _ _ hstop).trans hoks) hfeed
          · exact absurd hstop (total_stopDhcp _ _ _)
        · exact oks_reported hkeen hkin hcontinues hoks hrest
      rcases hout with hsame | hunsaved | ⟨lease, rfl, hacquired⟩
      · exact .inl hsame
      · exact .inr (.inl hunsaved)
      · exact .inr (.inr ⟨⟨m, lease, hm, hevent⟩, hacquired⟩)
  · exact absurd hdrive (total_driveDhcp _ _ _ _)

/-! ## Events -/

/-- The event has begun a request of the client. -/
def Takes (d : Daemon S E) (r : Except String Unit) (client : ClientId) : Event → Prop
  | .connect _ _ asker | .disconnect _ asker => r = .ok () ∧ asker = client
  | .forget ssid asker => r = .ok () ∧ asker = client ∧ d.ssid = some ssid
  | _ => False

theorem oks_forget {asker : ClientId} {ssid : String} {r : Except String Bool}
    (hother : r = .ok true → d.ssid = some ssid → asker ≠ client)
    (h : Runs (forget ssid asker) d r d') : oks client d' = oks client d := by
  obtain ⟨x, d₁, hdelete, hout⟩ := runs_forget h
  have hsame : oks client d₁ = oks client d := admits_oks.request _ _ _ _ _ hdelete
  rcases hout with ⟨rfl, -⟩ | ⟨hr, -, hssid, hleave⟩
  · exact hsame
  · rcases runs_disconnect hleave with ⟨e, hr, -⟩ | ⟨-, -, hretaken⟩
    · cases hr
    · rw [(admits_kin.request _ _ _ _ _ hdelete).ssid] at hssid
      exact (oks_retaken (hother hr hssid) hretaken).trans hsame

/-- A client that does not watch is told nothing of an event that asks for no network. -/
theorem oks_unwatched {event : Event} {r : Except String Unit} (hasker : event.asker = none)
    (hwatcher : d.watcher ≠ some client) (h : Runs (handle event) d r d') :
    oks client d' = oks client d := by
  have hkeeps : Keeps (Keeping (Hushed client d)) (handle event : EngineM S E Unit) :=
    spans_hushed.handle_unasked (fun _ _ h hd => IsTrans.trans _ _ _ hd h) (fun gone => ?_) hasker
  · exact (hkeeps _ _ _ h (refl d) hwatcher).2
  · intro d₁ r d₂ hrun hd
    refine IsTrans.trans _ _ _ hd fun hd₁ => ⟨fun hclient => ?_, ?_⟩
    · exact hd₁ (fades_forgetClient gone _ _ _ hrun client hclient)
    · rw [(runs_modify.mp hrun).2]
      rfl

/-- **A client that has not just asked to leave** is told of success only if it watches, and then only
at the end, where a profile is not saved, or with a lease. -/
theorem oks_handle {event : Event} {r : Except String Unit} (hd : d.Keen)
    (h : Runs (handle event) d r d')
    (htakes : Takes d r client event → ∃ ifindex ssid, event = .connect ifindex ssid client) :
    oks client d' = oks client d ∨ (d.watcher = some client ∧ (event = .shutDown ∨ Unsaved d d' ∨
      ∃ input, event.dhcpInput = some input ∧ Leases d input ∧ Acquired d d')) := by
  by_cases hwatcher : event.asker = none ∧ d.watcher ≠ some client
  · exact .inl (oks_unwatched hwatcher.1 hwatcher.2 h)
  have hwatched (hasker : event.asker = none) : d.watcher = some client := by
    by_contra hother
    exact hwatcher ⟨hasker, hother⟩
  cases event with
  | connect ifindex ssid asker => exact .inl (oks_connect hd h)
  | disconnect ssid asker =>
    rcases runs_disconnect h with ⟨e, -, -, rfl⟩ | ⟨hr, -, hretaken⟩
    · exact .inl rfl
    · refine .inl (oks_retaken (fun hasker => ?_) hretaken)
      obtain ⟨_, _, heq⟩ := htakes ⟨hr, hasker⟩
      cases heq
  | forget ssid asker =>
    rcases runs_bind.mp h with ⟨begun, d₁, hforget, hpure⟩ | ⟨e, hforget, -⟩
    · obtain ⟨hr, rfl⟩ := runs_pure.mp hpure
      refine .inl (oks_forget (fun _ hssid hasker => ?_) hforget)
      obtain ⟨_, _, heq⟩ := htakes ⟨hr, hasker, hssid⟩
      cases heq
    · exact .inl (oks_forget (by rintro ⟨⟩) hforget)
  | secret token value asker =>
    exact .inl (untold_secret token value asker _ _ _ h ⟨hd, rfl⟩).untold
  | datagram bytes =>
    rcases oks_datagram hd h with hsame | hunsaved | hacquired
    · exact .inl hsame
    · exact .inr ⟨hwatched rfl, .inr (.inl hunsaved)⟩
    · exact .inr ⟨hwatched rfl, .inr (.inr ⟨_, rfl, hacquired⟩)⟩
  | dhcpTimer timer =>
    rcases oks_dhcpTimer hd h with hsame | hunsaved | hacquired
    · exact .inl hsame
    · exact .inr ⟨hwatched rfl, .inr (.inl hunsaved)⟩
    · exact .inr ⟨hwatched rfl, .inr (.inr ⟨_, rfl, hacquired⟩)⟩
  | forgetClient gone =>
    refine .inl ?_
    rw [(runs_modify.mp h).2]
    rfl
  | shutDown => exact .inr ⟨hwatched rfl, .inl rfl⟩
  | _ => exact .inl (oks_plain hd h trivial)

end Daemon

end Caw
