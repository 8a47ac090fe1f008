import Caw.Daemon.Watch

/-!
# An action that fails

What the engine leaves behind when an action of the core cannot be performed, whichever it is and
however much of the list was done.

* `runs_stopDhcp`, `reset_stopped`: no exchange, no deadline of one and no socket are left;
* `Daemon.sent`, `Mute`, **`mute_reset`**: the way back to idle tells nobody anything;
* `Daemon.Cleared`, **`cleared_abort`**: the daemon once it is back;
* `Told`: what a client is sent of it;
* `carryOut`, `Strikes`: the actions of one poll, and a failure among those of any poll of a feed;
* **`cleared_run`**: a failure clears the daemon and is told once.
-/

set_option autoImplicit false

namespace Caw

open Caw.Core

namespace Daemon

open Effect

variable {S : Platform} {E : System S} {d d' : Daemon S E}

/-! ## What is stopped -/

/-- It is a deadline of the address exchange. -/
def Key.isDhcp : Key → Bool
  | .dhcp _ => true
  | _ => false

theorem Timers.cancel_all (t : Timers) :
    (((t.cancel (.dhcp .retransmit)).cancel (.dhcp .renew)).cancel (.dhcp .rebind)).cancel
      (.dhcp .expire) = t.cancelIf Key.isDhcp := by
  simp only [cancel, cancelIf, List.filter_filter]
  refine congrArg Timers.mk (List.filter_congr fun e _ => ?_)
  rcases e with ⟨_ | _ | _ | timer, due⟩
  · simp [Key.isDhcp]
  · simp [Key.isDhcp]
  · simp [Key.isDhcp]
  · cases timer <;> simp [Key.isDhcp]

/-- What is done about the probe route: nothing where there is none, and it is asked away where there
is. -/
theorem runs_dropProbeRoute {r : Except String Unit} (h : Runs dropProbeRoute d r d') :
    (d' = d ∧ ∀ run, d.dhcp = some run → run.probeRoute = false) ∨
      ∃ run, d.dhcp = some run ∧ run.probeRoute = true ∧
        d' = { d.record (.call (.delDhcpProbeRoute run.ifindex)
            (E.call (.delDhcpProbeRoute run.ifindex) d.world).1.isOk) with
          dhcp := some { run with probeRoute := false }
          world := (E.call (.delDhcpProbeRoute run.ifindex) d.world).2 } := by
  rw [dropProbeRoute, runs_get_bind] at h
  cases hrun : d.dhcp with
  | none =>
    rw [hrun] at h
    obtain ⟨-, rfl⟩ := runs_pure.mp h
    exact .inl ⟨rfl, by rintro run ⟨⟩⟩
  | some run =>
    rw [hrun] at h
    dsimp only at h
    split_ifs at h with hroute
    · rw [runs_modify_bind, ask, runs_modifyGet_bind] at h
      obtain ⟨-, rfl⟩ := runs_pure.mp h
      exact .inr ⟨run, rfl, hroute, rfl⟩
    · obtain ⟨-, rfl⟩ := runs_pure.mp h
      refine .inl ⟨rfl, fun run' hrun' => ?_⟩
      cases hrun'
      simpa using hroute

/-- The end of an exchange, with the daemon once the probe route is dropped. -/
theorem runs_stopDhcp_drop {r : Except String Unit} (h : Runs stopDhcp d r d') :
    ∃ d₁, (d.rtnl = true → ∃ r₁, Runs dropProbeRoute d r₁ d₁) ∧ (d.rtnl = false → d₁ = d) ∧
      d' = { d₁ with dhcp := none, timers := d₁.timers.cancelIf Key.isDhcp } := by
  have hend {d₁ : Daemon S E} (h : Runs (do
      modify fun d => { d with dhcp := none }
      Daemon.cancel (.dhcp .retransmit)
      Daemon.cancel (.dhcp .renew)
      Daemon.cancel (.dhcp .rebind)
      Daemon.cancel (.dhcp .expire) : EngineM S E Unit) d₁ r d') :
      d' = { d₁ with dhcp := none, timers := d₁.timers.cancelIf Key.isDhcp } := by
    obtain ⟨-, rfl⟩ := runs_modify.mp h
    rw [← Timers.cancel_all]
  rw [stopDhcp, runs_get_bind] at h
  cases hrtnl : d.rtnl with
  | false =>
    rw [hrtnl] at h
    exact ⟨d, nofun, fun _ => rfl, hend h⟩
  | true =>
    rw [hrtnl] at h
    rcases runs_bind.mp h with ⟨_, d₁, hdrop, hrest⟩ | ⟨e, hdrop, -⟩
    · exact ⟨d₁, fun _ => ⟨_, hdrop⟩, nofun, hend hrest⟩
    · exact absurd hdrop (total_dropProbeRoute _ _ _)

/-- **The end of an exchange**: it is gone, with its deadlines and no others. -/
theorem runs_stopDhcp {r : Except String Unit} (h : Runs stopDhcp d r d') :
    d'.dhcp = none ∧ d'.eapol = d.eapol ∧ d'.timers = d.timers.cancelIf Key.isDhcp := by
  obtain ⟨d₁, hdrop, hsame, rfl⟩ := runs_stopDhcp_drop h
  have hframe : d₁.timers = d.timers ∧ d₁.eapol = d.eapol := by
    cases hrtnl : d.rtnl with
    | false => rw [hsame hrtnl]; exact ⟨rfl, rfl⟩
    | true =>
      obtain ⟨r₁, hrun⟩ := hdrop hrtnl
      rcases runs_dropProbeRoute hrun with ⟨rfl, -⟩ | ⟨run, -, -, rfl⟩
      · exact ⟨rfl, rfl⟩
      · exact ⟨rfl, rfl⟩
  exact ⟨rfl, hframe.2, congrArg (Timers.cancelIf · Key.isDhcp) hframe.1⟩

/-! ## Nobody is told -/

/-- What every client was sent, oldest first. -/
def sent (d : Daemon S E) : List (ClientId × Message) :=
  d.journal.filterMap fun
    | .send client message => some (client, message)
    | _ => none

theorem sent_append {done : List Done} (h : d'.journal = d.journal ++ done)
    (hsend : ∀ client message, .send client message ∉ done) : d'.sent = d.sent := by
  have hnone : done.filterMap (fun
      | .send client message => some (client, message)
      | _ => none) = [] := by
    rw [List.filterMap_eq_nil_iff]
    intro a ha
    cases a with
    | send client message => exact absurd ha (hsend client message)
    | poll _ | perform _ | call _ _ => rfl
  rw [sent, sent, h, List.filterMap_append, hnone, List.append_nil]

/-- A daemon that nobody watches, and that asks nobody anything, sends nothing. -/
def Mute (d d' : Daemon S E) : Prop := d.watcher = none → d.pendingSecret = none →
  d'.watcher = none ∧ d'.pendingSecret = none ∧ d'.sent = d.sent

instance : IsPreorder (Daemon S E) Mute where
  refl _ hwatcher hpending := ⟨hwatcher, hpending, rfl⟩
  trans _ _ _ h h' hwatcher hpending := by
    obtain ⟨hwatcher', hpending', hsent⟩ := h hwatcher hpending
    obtain ⟨hwatcher'', hpending'', hsent'⟩ := h' hwatcher' hpending'
    exact ⟨hwatcher'', hpending'', hsent'.trans hsent⟩

theorem mute_record (done : Done) (h : ∀ client message, done ≠ .send client message) :
    Mute d (d.record done) := fun hwatcher hpending =>
  ⟨hwatcher, hpending, sent_append rfl fun client message hmem =>
    h client message (List.mem_singleton.mp hmem).symm⟩

theorem admits_mute : Admits (Mute : Daemon S E → Daemon S E → Prop) where
  calls d op hwatcher hpending :=
    mute_record (.call op (E.call op d.world).1.isOk) (fun _ _ => nofun) hwatcher hpending
  timers _ _ _ hwatcher hpending := ⟨hwatcher, hpending, rfl⟩
  routes _ _ _ hwatcher hpending := ⟨hwatcher, hpending, rfl⟩
  dhcp _ _ hwatcher hpending := ⟨hwatcher, hpending, rfl⟩
  eapol _ _ hwatcher hpending := ⟨hwatcher, hpending, rfl⟩
  profiles _ _ hwatcher hpending := ⟨hwatcher, hpending, rfl⟩

theorem mute_perform (action : Core.Action) : Keeps Mute (perform action : EngineM S E _) := by
  refine admits_mute.perform (fun d => mute_record _ nofun) (fun state _ d r d' h => ?_)
    (fun failure _ d r d' h => ?_) (fun prompt _ d r d' h => ?_)
  · intro hwatcher hpending
    rw [(runs_notify h).2, afterNotice, hwatcher]
    exact ⟨hwatcher, hpending, rfl⟩
  · intro hwatcher hpending
    rw [(runs_tellFailed h).2, afterFailure, hwatcher]
    exact ⟨rfl, rfl, rfl⟩
  · intro hwatcher hpending
    rcases runs_requestSecret h with ⟨-, rfl, -⟩ | ⟨client, hclient, -⟩
    · exact ⟨hwatcher, hpending, rfl⟩
    · cases hwatcher.symm.trans hclient

/-- **The way back to idle** tells nobody anything. -/
theorem mute_reset : Keeps Mute (reset : EngineM S E Unit) :=
  admits_mute.reset (fun _ _ _ _ _ => mute_record (.poll _) nofun) fun action _ => mute_perform action

/-! ## Back to idle -/

/-- Nothing is left of what the core had begun. -/
structure Cleared (d : Daemon S E) : Prop where
  core : ∃ core, d.core = some core ∧ core.state = .idle
  timers : ∀ e ∈ d.timers.entries, e.1.isCore = false ∧ e.1.isDhcp = false
  eapol : d.eapol = none
  dhcp : d.dhcp = none
  watcher : d.watcher = none
  pendingSecret : d.pendingSecret = none

theorem reset_stopped {r : Except String Unit} (hcore : d.core.isSome) (h : Runs reset d r d') :
    (∀ e ∈ d'.timers.entries, e.1.isCore = false ∧ e.1.isDhcp = false) ∧ d'.eapol = none ∧
      d'.dhcp = none := by
  obtain ⟨core, hcore⟩ := Option.isSome_iff_exists.mp hcore
  rw [reset, runs_get_bind, hcore] at h
  dsimp only at h
  rcases runs_bind.mp h with ⟨actions, d₁, -, hrest⟩ | ⟨e, hpoll, -⟩
  · rcases runs_bind.mp hrest with ⟨_, d₂, -, hrest⟩ | ⟨e, hbest, -⟩
    · rw [cancelCoreTimers, runs_modify_bind, runs_modify_bind] at hrest
      obtain ⟨hdhcp, heapol, htimers⟩ := runs_stopDhcp hrest
      refine ⟨fun e he => ?_, heapol, hdhcp⟩
      rw [htimers] at he
      simp only [Timers.cancelIf, List.mem_filter, Bool.not_eq_true'] at he
      exact ⟨he.1.2, he.2⟩
    · exact absurd hbest (total_performBestEffort _ _ _ _)
  · exact absurd hpoll (total_pollCore _ _ _ _ _)

/-- What a client is told of a failure. -/
def Told (reason : String) (d d' : Daemon S E) : Prop :=
  d'.sent = d.sent ++ match d.watcher with
    | none => []
    | some client => [(client, .failed reason), (client, .error reason)]

/-- Between these two, a client that still waits at the failure is answered once. -/
def AnsweredOnce (d₂ d d' : Daemon S E) : Prop :=
  ∀ client, d₂.watcher = some client → responses client d' = responses client d + 1

/-- **A failure clears the daemon** and is told to the watcher, once. -/
theorem cleared_abort {reason : String} {r : Except String Unit} (hcore : d.core.isSome)
    (h : Runs (abort reason) d r d') : d'.Cleared ∧ Told reason d d' := by
  have hidle := runs_abort h
  have habides : d'.core.isSome := by rwa [(abides_abort reason _ _ _ h).core]
  obtain ⟨core, hcore'⟩ := Option.isSome_iff_exists.mp habides
  rcases runs_bind.mp h with ⟨_, d₁, htell, hreset⟩ | ⟨e, htell, -⟩
  · have hd₁ := (runs_tellFailed htell).2
    have hquiet : d₁.watcher = none ∧ d₁.pendingSecret = none ∧ d₁.core = d.core ∧
        Told reason d d₁ := by
      rw [hd₁, Told, afterFailure]
      cases d.watcher with
      | none => exact ⟨rfl, rfl, rfl, by simp [sent]⟩
      | some client => exact ⟨rfl, rfl, rfl, by simp [sent]⟩
    obtain ⟨hwatcher, hpending, hsame, htold⟩ := hquiet
    obtain ⟨hwatcher', hpending', hsent⟩ := mute_reset _ _ _ hreset hwatcher hpending
    obtain ⟨htimers, heapol, hdhcp⟩ := reset_stopped (hsame ▸ hcore) hreset
    exact ⟨⟨⟨core, hcore', (hidle core hcore').1⟩, htimers, heapol, hdhcp, hwatcher', hpending'⟩,
      hsent.trans htold⟩
  · exact absurd htell (total_tellFailed _ _ _ _)

/-! ## Feeds -/

/-- What a feed makes of the actions of one poll. -/
def carryOut (turns : ℕ) (queue : List Input) (actions : List Core.Action) : EngineM S E Unit := do
  match ← (performAll actions).attempt with
  | .error e => abort e
  | .ok next => feedTurns turns (queue ++ next)

theorem feedTurns_cons_eq (turns : ℕ) (input : Input) (queue : List Input) :
    (feedTurns (turns + 1) (input :: queue) : EngineM S E Unit) = (do
      match (← get).core with
      | none => pure ()
      | some core => do carryOut turns queue (← pollCore core input)) := rfl

/-- An action of the list fails: the ones before it are done, the ones after it are dropped. -/
theorem runs_performAll_error {before after : List Core.Action} {action : Core.Action}
    {next : List Input} {e : String} {d₁ d₂ : Daemon S E}
    (hbefore : Runs (performAll before) d (.ok next) d₁)
    (haction : Runs (perform action) d₁ (.error e) d₂) :
    Runs (performAll (before ++ action :: after)) d (.error e) d₂ := by
  induction before generalizing d next with
  | nil =>
    obtain ⟨-, rfl⟩ := runs_pure.mp hbefore
    exact runs_bind.mpr (.inr ⟨e, haction, rfl⟩)
  | cons first rest ih =>
    rcases runs_bind.mp hbefore with ⟨x, d₀, hfirst, hrest⟩ | ⟨e, -, hr⟩
    · rcases runs_bind.mp hrest with ⟨others, d₃, hothers, hpure⟩ | ⟨e, -, hr⟩
      · obtain ⟨-, rfl⟩ := runs_pure.mp hpure
        exact runs_bind.mpr (.inl ⟨x, d₀, hfirst, runs_bind.mpr (.inr ⟨e, ih hothers, rfl⟩)⟩)
      · cases hr
    · cases hr

/-- The daemon once its core has taken an input. -/
def polled (d : Daemon S E) (core : Connection S) (input : Input) : Daemon S E :=
  { d with world := (E.draw d.world).2, core := some core, journal := d.journal ++ [.poll input] }

/-- A feed comes to an action that fails, in this turn or in a later one. -/
inductive Strikes : ℕ → List Input → Daemon S E → String → Daemon S E → Prop where
  | now {turns input queue d core q before action after next e d₁ d₂} : d.core = some core →
      core.poll (E.draw d.world).1 input = some q → q.2 = before ++ action :: after →
      Runs (performAll before) (d.polled q.1 input) (.ok next) d₁ →
      Runs (perform action) d₁ (.error e) d₂ → Strikes (turns + 1) (input :: queue) d e d₂
  | later {turns input queue d core q next e d₁ d₂} : d.core = some core →
      core.poll (E.draw d.world).1 input = some q →
      Runs (performAll q.2) (d.polled q.1 input) (.ok next) d₁ →
      Strikes turns (queue ++ next) d₁ e d₂ → Strikes (turns + 1) (input :: queue) d e d₂

section Strikes

variable {turns : ℕ} {queue : List Input} {input : Input} {e : String} {d₁ d₂ : Daemon S E}
  {r : Except String Unit}

/-- What is left of an account once nobody watches is what has been answered. -/
theorem answeredOnce (hfades : Fades d d₂)
    (haccount : ∀ client, account client d' = account client d) (hwatcher : d'.watcher = none) :
    AnsweredOnce d₂ d d' := by
  intro client hclient
  have hsame := haccount client
  rw [account, account, watching, watching, hwatcher, hfades client hclient, if_pos rfl,
    if_neg (Option.some_ne_none client).symm] at hsame
  exact hsame

theorem cleared_carryOut {before after : List Core.Action} {action : Core.Action}
    {next : List Input} (hcore : d.core.isSome)
    (hbefore : Runs (performAll before) d (.ok next) d₁)
    (haction : Runs (perform action) d₁ (.error e) d₂)
    (h : Runs (carryOut turns queue (before ++ action :: after)) d r d') :
    d'.Cleared ∧ Told e d₂ d' ∧ AnsweredOnce d₂ d d' := by
  have hfail : Runs (performAll (before ++ action :: after)) d (.error e) d₂ :=
    runs_performAll_error hbefore haction
  have hcore₂ : d₂.core.isSome := by
    rwa [(keeps_performAll (fun action _ => abides_perform action) _ _ _ hfail).core]
  obtain ⟨x, d₃, hperform, habort⟩ := runs_attempt_bind.mp h
  cases (Option.some.inj (hfail.symm.trans hperform) : (Except.error e, d₂) = (x, d₃))
  obtain ⟨hcleared, htold⟩ := cleared_abort hcore₂ habort
  refine ⟨hcleared, htold, answeredOnce ?_ (fun client => ?_) hcleared.watcher⟩
  · exact keeps_performAll (fun action _ => fades_perform action) _ _ _ hfail
  · exact (spans_account.abort _ _ _ _ habort).trans
      (keeps_performAll (fun action _ => account_perform action) _ _ _ hfail)

theorem runs_turn {core : Connection S} {q : Connection S × List Core.Action}
    (hcore : d.core = some core) (hpoll : core.poll (E.draw d.world).1 input = some q)
    (h : Runs (feedTurns (turns + 1) (input :: queue)) d r d') :
    Runs (carryOut turns queue q.2) (d.polled q.1 input) r d' := by
  rw [feedTurns_cons_eq, runs_get_bind, hcore] at h
  dsimp only at h
  rcases runs_bind.mp h with ⟨actions, d₁, hrun, hrest⟩ | ⟨e, hrun, -⟩
  · obtain ⟨q', hq', hr, rfl⟩ := runs_pollCore hrun
    cases hpoll.symm.trans hq'
    cases hr
    exact hrest
  · exact absurd hrun (total_pollCore _ _ _ _ _)

theorem Strikes.fades (hstrikes : Strikes turns queue d e d₂) : Fades d d₂ := by
  induction hstrikes with
  | @now _ _ _ d _ q _ _ _ _ _ d₁ d₂ _ _ _ hbefore haction =>
    have hd₁ : Fades (d.polled q.1 _) d₁ :=
      keeps_performAll (fun action _ => fades_perform action) _ _ _ hbefore
    exact IsTrans.trans (d.polled q.1 _) d₁ d₂ hd₁ (fades_perform _ _ _ _ haction)
  | @later _ _ _ d _ q _ _ d₁ d₂ _ _ hperform _ ih =>
    have hd₁ : Fades (d.polled q.1 _) d₁ :=
      keeps_performAll (fun action _ => fades_perform action) _ _ _ hperform
    exact IsTrans.trans (d.polled q.1 _) d₁ d₂ hd₁ ih

theorem Strikes.cleared (hstrikes : Strikes turns queue d e d₂)
    (h : Runs (feedTurns turns queue) d r d') : d'.Cleared ∧ Told e d₂ d' := by
  induction hstrikes with
  | now hcore hpoll hq hbefore haction =>
    have hturn := runs_turn hcore hpoll h
    rw [hq] at hturn
    obtain ⟨hcleared, htold, -⟩ := cleared_carryOut rfl hbefore haction hturn
    exact ⟨hcleared, htold⟩
  | later hcore hpoll hperform _ ih =>
    have hturn := runs_turn hcore hpoll h
    obtain ⟨x, d₃, hrun, hrest⟩ := runs_attempt_bind.mp hturn
    cases Option.some.inj (hperform.symm.trans hrun)
    exact ih hrest

end Strikes

/-- **An action that fails**, at any place of any list of actions and in any turn of a feed, leaves the
daemon cleared, and whoever waits is told, once. -/
theorem cleared_run :
    (∀ (turns : ℕ) (queue : List Input) (before after : List Core.Action) (action : Core.Action)
      (next : List Input) (e : String) (d d₁ d₂ d' : Daemon S E) (r : Except String Unit),
      d.core.isSome → Runs (performAll before) d (.ok next) d₁ →
      Runs (perform action) d₁ (.error e) d₂ →
      Runs (carryOut turns queue (before ++ action :: after)) d r d' →
      d'.Cleared ∧ Told e d₂ d' ∧ AnsweredOnce d₂ d d') ∧
    ∀ (input : Input) (e : String) (d d₂ d' : Daemon S E) (r : Except String Unit),
      Strikes maxTurns [input] d e d₂ → Runs (feed input) d r d' →
      d'.Cleared ∧ Told e d₂ d' ∧ AnsweredOnce d₂ d d' := by
  refine ⟨fun _ _ _ _ _ _ _ _ _ _ _ _ hcore hbefore haction h =>
    cleared_carryOut hcore hbefore haction h, fun input e d d₂ d' r hstrikes h => ?_⟩
  obtain ⟨hcleared, htold⟩ := hstrikes.cleared h
  exact ⟨hcleared, htold, answeredOnce hstrikes.fades
    (fun _ => spans_account.feed input _ _ _ h) hcleared.watcher⟩

/-! ## A sample -/

/-- A system where nothing works. -/
def System.broken : System .sample where
  World := Unit
  call _ world := (.error { kernel := none, text := "broken" }, world)
  draw world := (.sample, world)

/-- A core that has nothing to do. -/
def sampleCore : Connection .sample :=
  .new { ifindex := 3, mac := .zero 6, caps :=
    { offloads4wayPsk := false, offloads4way1x := false, offloadsSae := false } } []

/-- A client waits for it. -/
def sampleWatched : Daemon .sample System.broken :=
  { start () true true with core := some sampleCore, watcher := some 7 }

/-- The client asks for a network. -/
def sampleJoin : Input := .command (.connect [1])

/-- The core is on its way to it. -/
def samplePolled : Daemon .sample System.broken :=
  sampleWatched.polled ((sampleCore.restart (some (sampleCore.aimedAt [1]))).startScan).1 sampleJoin

/-- The scan of a request to join fails, once the client has been told that it begins. -/
theorem cleared_run_sample : ∃ d₂ d' r, sampleWatched.watcher = some 7 ∧
    Runs (feed sampleJoin) sampleWatched r d' ∧
    (d'.Cleared ∧ Told "broken" d₂ d' ∧ AnsweredOnce d₂ sampleWatched d') ∧
    ∃ d'' r',
      Runs (carryOut 0 [] [.notify .scanning, .triggerScan 3, .startDhcp]) samplePolled r' d'' ∧
      d''.Cleared ∧ Told "broken" d₂ d'' ∧ AnsweredOnce d₂ samplePolled d'' := by
  obtain ⟨d₁, d₂, hbefore, haction⟩ : ∃ d₁ d₂,
      Runs (performAll [.notify .scanning]) samplePolled (.ok []) d₁ ∧
        Runs (perform (.triggerScan 3)) d₁ (.error "broken") d₂ := ⟨_, _, rfl, rfl⟩
  have hstrikes : Strikes maxTurns [sampleJoin] sampleWatched "broken" d₂ := by
    exact .now rfl rfl (show _ = [.notify .scanning] ++ _ :: _ from rfl) hbefore haction
  have hreturns : ((feed sampleJoin).run.run sampleWatched).isSome = true := by decide +kernel
  obtain ⟨⟨r, d'⟩, hfeed⟩ := Option.isSome_iff_exists.mp hreturns
  have hends : ((carryOut 0 [] [.notify .scanning, .triggerScan 3, .startDhcp]).run.run
      samplePolled).isSome = true := by
    decide +kernel
  obtain ⟨⟨r', d''⟩, hcarry⟩ := Option.isSome_iff_exists.mp hends
  exact ⟨d₂, d', r, rfl, hfeed, cleared_run.2 _ _ _ _ _ _ hstrikes hfeed, d'', r', hcarry,
    cleared_run.1 0 [] [.notify .scanning] [.startDhcp] _ _ _ _ _ _ _ _ rfl hbefore haction hcarry⟩

end Daemon

end Caw
