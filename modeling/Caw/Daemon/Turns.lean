import Caw.Daemon.Frame

/-!
# The turns of the core

What the engine makes of one poll, of an action that fails, and of a run of polls.

* `Daemon.Kin`, **`kin_perform`**: no action touches the state, the session or the prompt of the core;
* `runs_pollCore`: one poll;
* `Calls.reset`, `Calls.abort`, `Calls.feed`: a relation that the calls of a plain action keep is kept by
  the way back to idle, by a failure and by a feed;
* **`runs_abort`**: an action that fails ends in an idle core, or in none;
* `Turn`, **`feedTurns_ensures`**, **`feed_ensures`**: what every turn maintains holds when the core asks
  for nothing more;
* **`total_feed`**: an input fed cannot fail;
* **`runs_connect`**, **`runs_disconnect`**, **`runs_forget`**: what a request comes to.
-/

set_option autoImplicit false

namespace Caw

open Caw.Core

namespace Daemon

open Effect

variable {S : Platform} {E : System S} {d d' : Daemon S E}

/-- Where the core is, with the session and the prompt it holds and the network it aims at. -/
def standing (d : Daemon S E) : Option (State × Option (Session S) × Option Bss × Option Bytes) :=
  d.core.map fun core => (core.state, core.session, core.pending, core.target.map Target.ssid)

theorem insertProfile_ssid (core : Connection S) (profile : Profile) :
    (core.insertProfile profile).target.map Target.ssid = core.target.map Target.ssid := by
  rw [Connection.insertProfile, Option.map_map]
  refine congrArg (fun f => core.target.map f) (funext fun target => ?_)
  rw [Function.comp_apply]
  split_ifs <;> rfl

/-- The core has not moved. -/
structure Kin (d d' : Daemon S E) : Prop where
  standing : d'.standing = d.standing
  device : d'.device = d.device

instance : IsPreorder (Daemon S E) Kin where
  refl _ := ⟨rfl, rfl⟩
  trans _ _ _ h h' := ⟨h'.standing.trans h.standing, h'.device.trans h.device⟩

theorem admits_kin : Admits (Kin : Daemon S E → Daemon S E → Prop) where
  calls _ _ := ⟨rfl, rfl⟩
  timers _ _ _ := ⟨rfl, rfl⟩
  routes _ _ _ := ⟨rfl, rfl⟩
  dhcp _ _ := ⟨rfl, rfl⟩
  profiles d profile := by
    refine ⟨?_, rfl⟩
    rw [Daemon.standing, Daemon.standing, Option.map_map]
    refine congrArg (fun f => d.core.map f) (funext fun core => ?_)
    exact congrArg (fun ssid => (core.state, core.session, core.pending, ssid))
      (insertProfile_ssid core profile)
  eapol _ _ := ⟨rfl, rfl⟩

theorem speaks_kin : Speaks (Kin : Daemon S E → Daemon S E → Prop) where
  sends _ _ _ := ⟨rfl, rfl⟩
  unwatched _ := ⟨rfl, rfl⟩
  prompts _ _ _ := ⟨rfl, rfl⟩

/-- **No action moves the core.** -/
theorem kin_perform (action : Core.Action) : Keeps Kin (perform action : EngineM S E _) :=
  admits_kin.perform_of_speaks speaks_kin fun _ => ⟨rfl, rfl⟩

theorem kin_performAll (actions : List Core.Action) :
    Keeps Kin (performAll actions : EngineM S E _) :=
  keeps_performAll fun action _ => kin_perform action

theorem Kin.core {core : Connection S} (h : Kin d d') (hcore : d.core = some core) :
    ∃ core', d'.core = some core' ∧ core'.state = core.state ∧ core'.session = core.session ∧
      core'.pending = core.pending ∧ core'.target.map Target.ssid = core.target.map Target.ssid := by
  have hstanding := h.standing
  rw [Daemon.standing, Daemon.standing, hcore, Option.map_some, Option.map_eq_some_iff] at hstanding
  obtain ⟨core', hcore', heq⟩ := hstanding
  simp only [Prod.mk.injEq] at heq
  exact ⟨core', hcore', heq⟩

/-! ## One poll -/

/-- **One poll**: the core takes it with what is drawn, and its actions are handed back. -/
theorem runs_pollCore {core : Connection S} {input : Input} {r : Except String (List Core.Action)}
    (h : Runs (pollCore core input) d r d') :
    ∃ q, core.poll (E.draw d.world).1 input = some q ∧ r = .ok q.2 ∧
      d' = { d with
        world := (E.draw d.world).2, core := some q.1, journal := d.journal ++ [.poll input] } := by
  rw [pollCore, draw, runs_modifyGet_bind] at h
  cases hpoll : core.poll (E.draw d.world).1 input with
  | none =>
    rw [hpoll] at h
    exact absurd h runs_halt
  | some q =>
    rw [hpoll] at h
    obtain ⟨rfl, rfl⟩ := runs_pure.mp h
    exact ⟨q, rfl, rfl, rfl⟩

/-! ## What a client is told -/

/-- The daemon once its watcher has been told of a failure. -/
def afterFailure (d : Daemon S E) (reason : String) : Daemon S E :=
  match d.watcher with
  | none => { d with pendingSecret := none }
  | some client =>
    { (d.record (.send client (.failed reason))).record (.send client (.error reason)) with
      watcher := none, pendingSecret := none }

theorem runs_tellFailed {reason : String} {r : Except String Unit}
    (h : Runs (tellFailed reason) d r d') : r = .ok () ∧ d' = d.afterFailure reason := by
  rw [tellFailed, runs_get_bind] at h
  unfold afterFailure
  cases hwatcher : d.watcher with
  | none =>
    rw [hwatcher] at h
    obtain ⟨hr, hd⟩ := runs_modify.mp h
    rw [hwatcher] at hd
    exact ⟨hr, hd⟩
  | some client =>
    rw [hwatcher] at h
    exact runs_modify.mp h

/-- The daemon once its watcher has been told of a state. -/
def afterNotice (d : Daemon S E) (state : State) : Daemon S E :=
  match d.watcher with
  | none => d
  | some client =>
    let d := match progress d.bssid state with
      | none => d
      | some message => d.record (.send client message)
    if state = .connected ∨ state = .idle then { d.record (.send client .ok) with watcher := none }
    else d

theorem runs_notify {state : State} {r : Except String Unit} (h : Runs (notify state) d r d') :
    r = .ok () ∧ d' = d.afterNotice state := by
  rw [notify, runs_get_bind] at h
  unfold afterNotice
  cases hwatcher : d.watcher with
  | none =>
    rw [hwatcher] at h
    exact runs_pure.mp h
  | some client =>
    rw [hwatcher] at h
    dsimp only at h ⊢
    cases hmessage : progress d.bssid state with
    | none =>
      rw [hmessage] at h
      dsimp only at h ⊢
      split_ifs at h ⊢
      · exact runs_modify.mp h
      · exact runs_pure.mp h
    | some message =>
      rw [hmessage] at h
      dsimp only at h ⊢
      rw [send, runs_modify_bind] at h
      split_ifs at h ⊢
      · exact runs_modify.mp h
      · exact runs_pure.mp h

theorem runs_requestSecret {prompt : String} {r : Except String Unit}
    (h : Runs (requestSecret prompt) d r d') :
    (d.watcher = none ∧ d' = d ∧ ∃ e, r = .error e) ∨ ∃ client, d.watcher = some client ∧
      r = .ok () ∧ d' = { d.record (.send client (.needSecret d.nextToken prompt)) with
        nextToken := d.nextToken + 1, pendingSecret := some ⟨d.nextToken, client⟩ } := by
  rw [requestSecret, runs_get_bind] at h
  cases hwatcher : d.watcher with
  | none =>
    rw [hwatcher] at h
    obtain ⟨rfl, rfl⟩ := runs_throw.mp h
    exact .inl ⟨rfl, rfl, _, rfl⟩
  | some client =>
    rw [hwatcher] at h
    obtain ⟨rfl, rfl⟩ := runs_modify.mp h
    exact .inr ⟨client, rfl, rfl, rfl⟩

/-- The daemon once a client has taken the place of its watcher. -/
def afterSupersede (d : Daemon S E) (client : ClientId) (reason : String) : Daemon S E :=
  match d.watcher with
  | none => { d with watcher := some client, pendingSecret := none }
  | some previous =>
    if previous ≠ client then
      { d.record (.send previous (.error reason)) with watcher := some client, pendingSecret := none }
    else { d with watcher := some client, pendingSecret := none }

theorem runs_supersede {client : ClientId} {reason : String} {r : Except String Unit}
    (h : Runs (supersede client reason) d r d') :
    r = .ok () ∧ d' = d.afterSupersede client reason := by
  rw [supersede, runs_get_bind, runs_modify_bind] at h
  unfold afterSupersede
  cases hwatcher : d.watcher with
  | none =>
    rw [hwatcher] at h
    exact runs_modify.mp h
  | some previous =>
    rw [hwatcher] at h
    dsimp only at h ⊢
    split_ifs at h ⊢
    · rw [send, runs_modify_bind] at h
      exact runs_modify.mp h
    · exact runs_modify.mp h

@[simp] theorem afterSupersede_core (client : ClientId) (reason : String) :
    (d.afterSupersede client reason).core = d.core := by
  unfold afterSupersede
  split
  · rfl
  · split_ifs <;> rfl

@[simp] theorem afterSupersede_pendingSecret (client : ClientId) (reason : String) :
    (d.afterSupersede client reason).pendingSecret = none := by
  unfold afterSupersede
  split
  · rfl
  · split_ifs <;> rfl

@[simp] theorem afterSupersede_watcher (client : ClientId) (reason : String) :
    (d.afterSupersede client reason).watcher = some client := by
  unfold afterSupersede
  split
  · rfl
  · split_ifs <;> rfl

/-! ## What cannot fail -/

theorem total_dropProbeRoute : Total (dropProbeRoute : EngineM S E _) := by
  refine total_bind total_get fun d => ?_
  cases d.dhcp with
  | none => exact total_pure _
  | some run =>
    dsimp only
    split_ifs
    · exact total_bind (total_modify _) fun _ => total_bind (total_modifyGet _) fun _ => total_pure _
    · exact total_pure _

theorem total_stopDhcp : Total (stopDhcp : EngineM S E _) := by
  have hend : Total (do
      modify fun d => { d with dhcp := none }
      Daemon.cancel (.dhcp .retransmit)
      Daemon.cancel (.dhcp .renew)
      Daemon.cancel (.dhcp .rebind)
      Daemon.cancel (.dhcp .expire) : EngineM S E _) :=
    total_bind (total_modify _) fun _ => total_bind (total_modify _) fun _ =>
      total_bind (total_modify _) fun _ => total_bind (total_modify _) fun _ => total_modify _
  refine total_bind total_get fun d => ?_
  cases d.rtnl with
  | true => exact total_bind total_dropProbeRoute fun _ => hend
  | false => exact hend

/-! ## Back to idle -/

/-- The core is idle and holds nothing, or there is none. -/
def Rests (d : Daemon S E) : Prop := ∀ core, d.core = some core → core.state = .idle ∧
  core.session = none ∧ core.pending = none

theorem Rests.kin (h : d.Rests) (hkin : Kin d d') : d'.Rests := by
  intro core' hcore'
  cases hcore : d.core with
  | none =>
    have hnone := hkin.standing
    simp [standing, hcore, hcore'] at hnone
  | some core =>
    obtain ⟨core'', hcore'', hstate, hsession, hpending, -⟩ := hkin.core hcore
    cases hcore'.symm.trans hcore''
    obtain ⟨h₁, h₂, h₃⟩ := h core hcore
    exact ⟨hstate.trans h₁, hsession.trans h₂, hpending.trans h₃⟩

theorem runs_reset {r : Except String Unit} (h : Runs reset d r d') : d'.Rests := by
  rw [reset, runs_get_bind] at h
  cases hcore : d.core with
  | none =>
    rw [hcore] at h
    obtain ⟨-, rfl⟩ := runs_pure.mp h
    intro core hcore'
    rw [hcore] at hcore'
    cases hcore'
  | some core =>
    rw [hcore] at h
    dsimp only at h
    rcases runs_bind.mp h with ⟨actions, d₁, hpoll, hrest⟩ | ⟨e, hpoll, -⟩
    · obtain ⟨q, hq, -, rfl⟩ := runs_pollCore hpoll
      have hidle : ({ d with
          world := (E.draw d.world).2, core := some q.1,
          journal := d.journal ++ [.poll (.command .disconnect)] } : Daemon S E).Rests := by
        rintro core' ⟨⟩
        cases Option.some.inj hq
        exact ⟨rfl, rfl, rfl⟩
      refine hidle.kin ?_
      refine keeps_bind (keeps_performBestEffort fun action _ => kin_perform action) (fun _ => ?_)
        _ _ _ hrest
      exact keeps_bind admits_kin.toCalls.cancelCoreTimers fun _ =>
        keeps_bind (keeps_modify fun d => admits_kin.eapol d none) fun _ => admits_kin.stopDhcp
    · obtain ⟨q, -, hr, -⟩ := runs_pollCore hpoll
      cases hr

theorem total_performDhcp (actions : List Dhcp.Action) (out : Option LeaseEvent) :
    Total (performDhcp actions out : EngineM S E _) := by
  induction actions generalizing out with
  | nil => exact total_pure _
  | cons action rest ih =>
    cases action with
    | broadcast data => exact total_bind (total_modifyGet _) fun _ => ih _
    | unicast addr data => exact total_bind (total_modifyGet _) fun _ => ih _
    | setTimer timer secs => exact total_bind (total_modify _) fun _ => ih _
    | configured lease => exact ih _
    | deconfigure reason => exact ih _
    | failed => exact ih _

theorem total_driveDhcp (input : Dhcp.Input) : Total (driveDhcp input : EngineM S E _) := by
  refine total_bind total_get fun d => ?_
  cases d.dhcp with
  | none => exact total_pure _
  | some run => exact total_bind (total_modify _) fun _ => total_performDhcp _ _

theorem total_tellFailed (reason : String) : Total (tellFailed reason : EngineM S E Unit) := by
  intro d e d' h
  cases (runs_tellFailed h).1

theorem total_pollCore (core : Connection S) (input : Input) :
    Total (pollCore core input : EngineM S E _) := by
  intro d e d' h
  obtain ⟨q, -, hr, -⟩ := runs_pollCore h
  cases hr

theorem total_performBestEffort (actions : List Core.Action) :
    Total (performBestEffort actions : EngineM S E _) := by
  induction actions with
  | nil => exact total_pure _
  | cons action rest ih => exact total_bind (total_attempt _) fun _ => ih

theorem total_abort (reason : String) : Total (abort reason : EngineM S E Unit) := by
  refine total_bind (total_tellFailed _) fun _ => total_bind total_get fun d => ?_
  cases d.core with
  | none => exact total_pure _
  | some core =>
    exact total_bind (total_pollCore _ _) fun actions =>
      total_bind (total_performBestEffort _) fun _ => total_bind (total_modify _) fun _ =>
        total_bind (total_modify _) fun _ => total_stopDhcp

section Reset

variable {R : Daemon S E → Daemon S E → Prop} [IsPreorder (Daemon S E) R]

/-- The relation permits the core to be polled. -/
def Polls (R : Daemon S E → Daemon S E → Prop) (input : Input) : Prop :=
  ∀ d core q, d.core = some core → core.poll (E.draw d.world).1 input = some q →
    R d { d with
      world := (E.draw d.world).2, core := some q.1, journal := d.journal ++ [.poll input] }

/-- An action on the way back to idle. -/
def Idles (S : Platform) (action : Core.Action) : Prop :=
  ∃ (core : Connection S) (draws : Draws S) (q : Connection S × List Core.Action),
    core.poll draws (.command .disconnect) = some q ∧ action ∈ q.2

theorem Calls.reset_of (hR : Calls R) (hpolls : Polls R (.command .disconnect))
    (hperform : ∀ action, Idles S action → Keeps R (Daemon.perform action : EngineM S E _))
    (hstop : Keeps R (stopDhcp : EngineM S E Unit)) :
    Keeps R (Daemon.reset : EngineM S E Unit) := by
  intro d r d' h
  rw [Daemon.reset, runs_get_bind] at h
  cases hcore : d.core with
  | none =>
    rw [hcore] at h
    exact keeps_pure _ _ _ _ h
  | some core =>
    rw [hcore] at h
    dsimp only at h
    rcases runs_bind.mp h with ⟨actions, d₁, hpoll, hrest⟩ | ⟨e, hpoll, -⟩
    · obtain ⟨q, hq, hr, rfl⟩ := runs_pollCore hpoll
      cases hr
      refine IsTrans.trans _ _ _ (hpolls d core q hcore hq) (keeps_bind (keeps_performBestEffort
        fun action hmem => hperform action ⟨core, _, q, hq, hmem⟩) (fun _ => ?_) _ _ _ hrest)
      exact keeps_bind hR.cancelCoreTimers fun _ =>
        keeps_bind (keeps_modify fun d => hR.eapol d none) fun _ => hstop
    · obtain ⟨q, -, hr, -⟩ := runs_pollCore hpoll
      cases hr

theorem Idles.not_decision {action : Core.Action} (h : Idles S action) :
    Connection.isDecision action = false := by
  obtain ⟨core, draws, q, hq, hmem⟩ := h
  cases Option.some.inj hq
  by_contra hd
  rw [← Connection.mem_decisions (by simpa using hd)] at hmem
  simp at hmem

theorem Calls.reset (hR : Calls R) (hpolls : Polls R (.command .disconnect))
    (hperform : ∀ action, Connection.isDecision action = false →
      Keeps R (Daemon.perform action : EngineM S E _))
    (hstop : Keeps R (stopDhcp : EngineM S E Unit)) :
    Keeps R (Daemon.reset : EngineM S E Unit) :=
  hR.reset_of hpolls (fun action h => hperform action h.not_decision) hstop

theorem Calls.abort_of (hR : Calls R) (hpolls : Polls R (.command .disconnect))
    (hperform : ∀ action, Idles S action → Keeps R (Daemon.perform action : EngineM S E _))
    (hstop : Keeps R (stopDhcp : EngineM S E Unit)) {reason : String}
    (htell : Keeps R (tellFailed reason : EngineM S E Unit)) :
    Keeps R (Daemon.abort reason : EngineM S E Unit) :=
  keeps_bind htell fun _ => hR.reset_of hpolls hperform hstop

theorem Calls.abort (hR : Calls R) (hpolls : Polls R (.command .disconnect))
    (hperform : ∀ action, Connection.isDecision action = false →
      Keeps R (Daemon.perform action : EngineM S E _))
    (hstop : Keeps R (stopDhcp : EngineM S E Unit)) {reason : String}
    (htell : Keeps R (tellFailed reason : EngineM S E Unit)) :
    Keeps R (Daemon.abort reason : EngineM S E Unit) :=
  keeps_bind htell fun _ => hR.reset hpolls hperform hstop

theorem Exchanges.reset (hR : Exchanges R) (hpolls : Polls R (.command .disconnect))
    (hperform : ∀ action, Connection.isDecision action = false →
      Keeps R (Daemon.perform action : EngineM S E _)) :
    Keeps R (Daemon.reset : EngineM S E Unit) :=
  hR.toCalls.reset hpolls hperform hR.stopDhcp

theorem Exchanges.abort (hR : Exchanges R) (hpolls : Polls R (.command .disconnect))
    (hperform : ∀ action, Connection.isDecision action = false →
      Keeps R (Daemon.perform action : EngineM S E _)) {reason : String}
    (htell : Keeps R (tellFailed reason : EngineM S E Unit)) :
    Keeps R (Daemon.abort reason : EngineM S E Unit) :=
  keeps_bind htell fun _ => hR.reset hpolls hperform

end Reset

/-- **An action that fails** ends in an idle core, or in none. -/
theorem runs_abort {reason : String} {r : Except String Unit} (h : Runs (abort reason) d r d') :
    d'.Rests := by
  rcases runs_bind.mp h with ⟨a, d₁, -, hreset⟩ | ⟨e, htell, -⟩
  · exact runs_reset hreset
  · cases (runs_tellFailed htell).1

/-! ## Runs of polls -/

theorem total_feedTurns (turns : ℕ) (queue : List Input) :
    Total (feedTurns turns queue : EngineM S E Unit) := by
  induction turns generalizing queue with
  | zero => exact total_pure _
  | succ turns ih =>
    cases queue with
    | nil => exact total_pure _
    | cons input queue =>
      refine total_bind total_get fun d => ?_
      cases d.core with
      | none => exact total_pure _
      | some core =>
        refine total_bind (total_pollCore _ _) fun actions => total_bind (total_attempt _) fun x => ?_
        cases x with
        | ok next => exact ih _
        | error e => exact total_abort e

/-- **An input fed** cannot fail: what fails on the way is dealt with. -/
theorem total_feed (input : Input) : Total (feed input : EngineM S E Unit) := total_feedTurns _ _

theorem total_onDhcpTimer (timer : Dhcp.Timer) : Total (onDhcpTimer timer : EngineM S E Unit) := by
  refine total_bind (total_driveDhcp _) fun event => ?_
  cases event with
  | none => exact total_pure _
  | some event =>
    dsimp only
    split_ifs
    · exact total_bind total_stopDhcp fun _ => total_feed _
    · exact total_feed _

/-- What a turn comes to: the invariant and inputs that fit it, or an attempt to abort. -/
def Outcome (J : Daemon S E → Prop) (F : Input → Prop) :
    Except String (List Input) → Daemon S E → Prop
  | .ok next, d => J d ∧ ∀ input ∈ next, F input
  | .error e, d => ∀ r d', Runs (abort e) d r d' → J d'

/-- One poll and its actions. -/
def Turn (J : Daemon S E → Prop) (F : Input → Prop) (d : Daemon S E) (input : Input) : Prop :=
  ∀ core q x d', d.core = some core → core.poll (E.draw d.world).1 input = some q →
    Runs (performAll q.2) { d with
      world := (E.draw d.world).2, core := some q.1, journal := d.journal ++ [.poll input] } x d' →
    Outcome J F x d'

section Turns

variable {J : Daemon S E → Prop} {F : Input → Prop}

theorem feedTurns_cons {turns : ℕ} {input : Input} {queue : List Input} {r : Except String Unit}
    (hturn : Turn J F d input) (hnone : d.core = none → J d)
    (hrest : ∀ d₁ next, J d₁ → (∀ i ∈ next, F i) →
      Runs (feedTurns turns (queue ++ next)) d₁ r d' → J d')
    (h : Runs (feedTurns (turns + 1) (input :: queue)) d r d') : J d' := by
  rw [feedTurns, runs_get_bind] at h
  cases hcore : d.core with
  | none =>
    rw [hcore] at h
    obtain ⟨-, rfl⟩ := runs_pure.mp h
    exact hnone hcore
  | some core =>
    rw [hcore] at h
    dsimp only at h
    rcases runs_bind.mp h with ⟨actions, d₁, hpoll, hactions⟩ | ⟨e, hpoll, -⟩
    · obtain ⟨q, hq, hr, rfl⟩ := runs_pollCore hpoll
      cases hr
      obtain ⟨x, d₂, hperform, hnext⟩ := runs_attempt_bind.mp hactions
      have hout := hturn core q x d₂ hcore hq hperform
      cases x with
      | error e => exact hout r d' hnext
      | ok next => exact hrest d₂ next hout.1 hout.2 hnext
    · obtain ⟨q, -, hr, -⟩ := runs_pollCore hpoll
      cases hr

/-- **What every turn maintains holds when the core asks for nothing more.** -/
theorem feedTurns_ensures (hturn : ∀ d input, J d → F input → Turn J F d input) (turns : ℕ)
    (queue : List Input) (hqueue : ∀ i ∈ queue, F i) (hJ : J d) {r : Except String Unit}
    (h : Runs (feedTurns turns queue) d r d') : J d' := by
  induction turns generalizing d queue with
  | zero =>
    obtain ⟨-, rfl⟩ := runs_pure.mp h
    exact hJ
  | succ turns ih =>
    cases queue with
    | nil =>
      obtain ⟨-, rfl⟩ := runs_pure.mp h
      exact hJ
    | cons input queue =>
      refine feedTurns_cons (hturn d input hJ (hqueue input List.mem_cons_self)) (fun _ => hJ) ?_ h
      intro d₁ next hJ₁ hnext hrest
      refine ih (queue ++ next) (fun i hi => ?_) hJ₁ hrest
      rcases List.mem_append.mp hi with hi | hi
      · exact hqueue i (List.mem_cons_of_mem _ hi)
      · exact hnext i hi

/-- **One input fed**: its own turn, and then whatever it brings. -/
theorem feed_ensures (hturn : ∀ d input, J d → F input → Turn J F d input) {input : Input}
    (hfirst : Turn J F d input) (hnone : d.core = none → J d) {r : Except String Unit}
    (h : Runs (feed input) d r d') : J d' :=
  feedTurns_cons hfirst hnone (fun _ next hJ hnext hrest =>
    feedTurns_ensures hturn _ ([] ++ next) hnext hJ hrest) h

/-- **A relation that permits everything but the polls** is kept by an input, however the core takes it
and whatever that brings. -/
theorem Calls.feed {R : Daemon S E → Daemon S E → Prop} [IsPreorder (Daemon S E) R]
    (hR : Calls R)
    (hpolls : ∀ input, Polls R input)
    (hperform : ∀ action, Keeps R (Daemon.perform action : EngineM S E _))
    (hstop : Keeps R (stopDhcp : EngineM S E Unit))
    (htell : ∀ reason, Keeps R (tellFailed reason : EngineM S E Unit)) (input : Input) :
    Keeps R (Daemon.feed input : EngineM S E Unit) := by
  intro d r d' h
  have hturn (d₁ : Daemon S E) (input : Input) (hd : R d d₁) :
      Turn (R d) (fun _ => True) d₁ input := by
    intro core q x d₂ hcore hq hrun
    have hd₂ : R d d₂ := IsTrans.trans _ _ _ hd (IsTrans.trans _ _ _ (hpolls input d₁ core q hcore hq)
      (keeps_performAll (fun action _ => hperform action) _ _ _ hrun))
    cases x with
    | ok next => exact ⟨hd₂, fun _ _ => trivial⟩
    | error e =>
      exact fun r d' habort => IsTrans.trans _ _ _ hd₂ (hR.abort (hpolls _)
        (fun action _ => hperform action) hstop (htell e) _ _ _ habort)
  exact feed_ensures (fun d₁ input hd _ => hturn d₁ input hd) (hturn d input (refl d))
    (fun _ => refl d) h

theorem Exchanges.feed {R : Daemon S E → Daemon S E → Prop} [IsPreorder (Daemon S E) R]
    (hR : Exchanges R)
    (hpolls : ∀ input, Polls R input)
    (hperform : ∀ action, Keeps R (Daemon.perform action : EngineM S E _))
    (htell : ∀ reason, Keeps R (tellFailed reason : EngineM S E Unit)) (input : Input) :
    Keeps R (Daemon.feed input : EngineM S E Unit) :=
  hR.toCalls.feed hpolls hperform hR.stopDhcp htell input

theorem runs_feed_none {input : Input} (hcore : d.core = none) {r : Except String Unit}
    (h : Runs (feed input) d r d') : d' = d := by
  refine feed_ensures (J := fun d' => d' = d) (F := fun _ => False)
    (fun _ _ _ hfits => hfits.elim) (fun core q x d₁ hcore' => ?_) (fun _ => rfl) h
  cases hcore.symm.trans hcore'

theorem runs_feed_ignored {core : Connection S} {input : Input} (hcore : d.core = some core)
    (hpoll : core.poll (E.draw d.world).1 input = some (core, [])) {r : Except String Unit}
    (h : Runs (feed input) d r d') :
    d' = { d with world := (E.draw d.world).2, journal := d.journal ++ [.poll input] } := by
  refine feed_ensures (J := fun d' => d' =
      { d with world := (E.draw d.world).2, journal := d.journal ++ [.poll input] })
    (F := fun _ => False) (fun _ _ _ hfits => hfits.elim) ?_ (fun hnone => ?_) h
  · intro core' q x d' hcore' hpoll' hperform
    cases hcore.symm.trans hcore'
    cases hpoll.symm.trans hpoll'
    obtain ⟨rfl, rfl⟩ := runs_pure.mp hperform
    exact ⟨by rw [← hcore], nofun⟩
  · cases hcore.symm.trans hnone

end Turns

/-! ## Requests -/

section Requests

variable {ifindex : UInt32} {ssid : String} {client : ClientId}

/-- A client takes over the watch, and the core is told what it asks for. -/
theorem runs_retaken {reason : String} {input : Input} {r : Except String Unit}
    (h : Runs (do
      supersede client reason
      feed input : EngineM S E Unit) d r d') :
    r = .ok () ∧ Runs (feed input) (d.afterSupersede client reason) (.ok ()) d' := by
  rcases runs_bind.mp h with ⟨_, d₁, hsupersede, hfeed⟩ | ⟨e, hsupersede, -⟩
  · obtain ⟨-, rfl⟩ := runs_supersede hsupersede
    cases r with
    | ok => exact ⟨rfl, hfeed⟩
    | error e => exact absurd hfeed (total_feed _ _ _ _)
  · cases (runs_supersede hsupersede).1

theorem retaken_ensures {J : Daemon S E → Prop} {F : Input → Prop}
    (hturn : ∀ d input, J d → F input → Turn J F d input) {reason : String} {input : Input}
    (hcore : d.core.isSome) (hfirst : Turn J F (d.afterSupersede client reason) input)
    {r : Except String Unit} (h : Runs (do
      supersede client reason
      feed input : EngineM S E Unit) d r d') : J d' := by
  refine feed_ensures hturn hfirst (fun hnone => ?_) (runs_retaken h).2
  rw [afterSupersede_core] at hnone
  rw [hnone] at hcore
  cases hcore

/-- **A request to join** fails before anything is asked of the core, or has its client watch. -/
theorem runs_connect {r : Except String Unit} (h : Runs (connect ifindex ssid client) d r d') :
    (∃ e, r = .error e ∧ (d' = d ∨ Runs (prepare ifindex) d (.error e) d')) ∨
      (r = .ok () ∧ ssid ≠ "" ∧ ∃ d₁, Runs (prepare ifindex) d (.ok ()) d₁ ∧ Runs (do
        supersede client "superseded by another connect request"
        feed (.command (.connect (octetsOf ssid))) : EngineM S E Unit) d₁ r d') := by
  have hjoin (h : Runs (do
      prepare ifindex
      supersede client "superseded by another connect request"
      feed (.command (.connect (octetsOf ssid))) : EngineM S E Unit) d r d') :
      (∃ e, r = .error e ∧ (d' = d ∨ Runs (prepare ifindex) d (.error e) d')) ∨
        (r = .ok () ∧ ∃ d₁, Runs (prepare ifindex) d (.ok ()) d₁ ∧ Runs (do
          supersede client "superseded by another connect request"
          feed (.command (.connect (octetsOf ssid))) : EngineM S E Unit) d₁ r d') := by
    rcases runs_bind.mp h with ⟨_, d₁, hprepare, hrest⟩ | ⟨e, hprepare, hr⟩
    · exact .inr ⟨(runs_retaken hrest).1, d₁, hprepare, hrest⟩
    · exact .inl ⟨e, hr, .inr hprepare⟩
  unfold connect at h
  split_ifs at h with hssid
  · rcases runs_bind.mp h with ⟨_, d₁, hthrow, -⟩ | ⟨e, hthrow, hr⟩
    · cases (runs_throw.mp hthrow).1
    · exact .inl ⟨e, hr, .inl (runs_throw.mp hthrow).2⟩
  · rcases hjoin h with hrefused | ⟨hr, hjoined⟩
    · exact .inl hrefused
    · exact .inr ⟨hr, hssid, hjoined⟩

/-- **A request to leave** fails with nothing done, or has its client watch. -/
theorem runs_disconnect {r : Except String Unit} (h : Runs (disconnect ssid client) d r d') :
    (∃ e, r = .error e ∧ d.ssid ≠ some ssid ∧ d' = d) ∨ (r = .ok () ∧ d.ssid = some ssid ∧ Runs (do
      supersede client "superseded by a disconnect request"
      feed (.command .disconnect) : EngineM S E Unit) d r d') := by
  rw [disconnect, runs_get_bind] at h
  cases hssid : d.ssid with
  | none =>
    rw [hssid] at h
    obtain ⟨hr, rfl⟩ := runs_throw.mp h
    exact .inl ⟨_, hr, (Option.some_ne_none _).symm, rfl⟩
  | some current =>
    rw [hssid] at h
    dsimp only at h
    split_ifs at h with hother
    · rcases runs_bind.mp h with ⟨_, d₁, hthrow, -⟩ | ⟨e, hthrow, hr⟩
      · cases (runs_throw.mp hthrow).1
      · exact .inl ⟨e, hr, fun heq => hother (Option.some.inj heq), (runs_throw.mp hthrow).2⟩
    · exact .inr ⟨(runs_retaken h).1, congrArg some (not_not.mp hother), h⟩

/-- **A request to delete a profile** is one to leave as well where the network is the one joined. -/
theorem runs_forget {r : Except String Bool} (h : Runs (forget ssid client) d r d') :
    ∃ x d₁, Runs (request (.deleteProfile (octetsOf ssid)) id) d x d₁ ∧
      ((d' = d₁ ∧ r ≠ .ok true ∧ (d₁.ssid = some ssid → ∃ e, x = .error e ∧ r = .error e)) ∨
        (r = .ok true ∧ (∃ deleted, x = .ok deleted) ∧ d₁.ssid = some ssid ∧
          Runs (disconnect ssid client) d₁ (.ok ()) d')) := by
  rcases runs_bind.mp h with ⟨deleted, d₁, hdelete, hrest⟩ | ⟨e, hdelete, hr⟩
  · refine ⟨.ok deleted, d₁, hdelete, ?_⟩
    rw [runs_get_bind] at hrest
    split_ifs at hrest with hssid hdeleted
    · rcases runs_bind.mp hrest with ⟨_, d₂, hleave, hpure⟩ | ⟨e, hleave, -⟩
      · obtain ⟨hr, rfl⟩ := runs_pure.mp hpure
        exact .inr ⟨hr, ⟨deleted, rfl⟩, hssid, hleave⟩
      · rcases runs_disconnect hleave with ⟨_, -, hother, -⟩ | ⟨hr, -⟩
        · exact absurd hssid hother
        · cases hr
    · rcases runs_bind.mp hrest with ⟨_, d₂, hthrow, -⟩ | ⟨e, hthrow, hr⟩
      · cases (runs_throw.mp hthrow).1
      · refine .inl ⟨(runs_throw.mp hthrow).2, ?_, fun heq => absurd heq hssid⟩
        rw [hr]
        rintro ⟨⟩
    · obtain ⟨hr, hd⟩ := runs_pure.mp hrest
      refine .inl ⟨hd, ?_, fun heq => absurd heq hssid⟩
      rw [hr]
      rintro ⟨⟩
  · refine ⟨.error e, d', hdelete, .inl ⟨rfl, ?_, fun _ => ⟨e, rfl, hr⟩⟩⟩
    rw [hr]
    rintro ⟨⟩

end Requests

end Daemon

end Caw
