import Caw.Core.Prompt
import Caw.Core.Report
import Caw.Daemon.Loop

/-!
# Prompts and who is asked

The core parks a network until somebody gives its passphrase, and the engine remembers who was asked.

* `Daemon.Parked`, `Daemon.Asked`: that the core waits, and that a client there is was asked;
* `Daemon.Attended`: the invariant, with **`turn_attended`** for one turn of the core and
  **`upheld_attended`** for the entry points;
* **`attended_iff`**: a parked core has somebody to answer it throughout a run exactly if nobody
  leaves while the prompt is theirs;
* `asker_leaves`: the client that was asked goes away, and the core waits for nobody.
-/

set_option autoImplicit false

namespace Caw

open Caw.Core

namespace Daemon

open Effect

variable {S : Platform} {E : System S} {d d' : Daemon S E} {clients : List ClientId}

/-- The core waits for a passphrase. -/
def Parked (d : Daemon S E) : Prop := ∃ core, d.core = some core ∧ core.pending.isSome

/-- A prompt is out, and it went to one of these clients. -/
def Asked (clients : List ClientId) (d : Daemon S E) : Prop :=
  ∃ prompt, d.pendingSecret = some prompt ∧ prompt.client ∈ clients

/-- The core is sound, and one of these clients watches it, or nobody. -/
structure Manned (clients : List ClientId) (d : Daemon S E) : Prop where
  sound : ∀ core, d.core = some core → core.Sound
  watched : ∀ client, d.watcher = some client → client ∈ clients

/-- A core that waits for a passphrase has one of these clients to ask. -/
structure Attended (clients : List ClientId) (d : Daemon S E) : Prop extends Manned clients d where
  asked : d.Parked → Asked clients d

/-! ## What actions do -/

theorem admits_manned : Admits (Keeping (Manned clients) : Daemon S E → Daemon S E → Prop) where
  calls _ _ h := ⟨h.sound, h.watched⟩
  timers _ _ _ h := ⟨h.sound, h.watched⟩
  routes _ _ _ h := ⟨h.sound, h.watched⟩
  dhcp _ _ h := ⟨h.sound, h.watched⟩
  eapol _ _ h := ⟨h.sound, h.watched⟩
  profiles d profile h := by
    refine ⟨fun core hcore => ?_, h.watched⟩
    obtain ⟨core', hcore', rfl⟩ := Option.map_eq_some_iff.mp hcore
    exact (h.sound core' hcore').step (.insertProfile profile)

theorem speaks_manned : Speaks (Keeping (Manned clients) : Daemon S E → Daemon S E → Prop) where
  sends _ _ _ h := ⟨h.sound, h.watched⟩
  unwatched _ h := ⟨h.sound, nofun⟩
  prompts _ _ _ h := ⟨h.sound, h.watched⟩

theorem manned_perform (action : Core.Action) :
    Keeps (Keeping (Manned clients)) (perform action : EngineM S E _) :=
  admits_manned.perform_of_speaks speaks_manned fun _ h => ⟨h.sound, h.watched⟩

theorem polls_manned (input : Input) :
    Polls (Keeping (Manned clients) : Daemon S E → Daemon S E → Prop) input := by
  intro d core q hcore hpoll h
  refine ⟨?_, h.watched⟩
  rintro _ ⟨⟩
  exact (h.sound core hcore).move (Connection.poll_move hpoll)

theorem manned_abort (reason : String) :
    Keeps (Keeping (Manned clients)) (abort reason : EngineM S E Unit) :=
  admits_manned.abort (polls_manned _) (fun action _ => manned_perform action)
    (speaks_manned.tellFailed reason)

theorem admits_asked : Admits (Keeping (Asked clients) : Daemon S E → Daemon S E → Prop) where
  calls _ _ := id
  timers _ _ _ := id
  routes _ _ _ := id
  dhcp _ _ := id
  eapol _ _ := id
  profiles _ _ := id

theorem tells_asked : Tells (Keeping (Asked clients) : Daemon S E → Daemon S E → Prop) where
  sends _ _ _ := id
  unwatched _ := id

theorem asked_perform {action : Core.Action} (hfailed : ∀ failure, action ≠ .failed failure)
    (hsecret : ∀ prompt, action ≠ .requestSecret prompt) :
    Keeps (Keeping (Asked clients)) (perform action : EngineM S E _) :=
  admits_asked.perform (fun _ => id) (fun _ _ => tells_asked.notify _)
    (fun failure h => absurd h (hfailed failure)) fun prompt h => absurd h (hsecret prompt)

/-- **Who is asked** is the watcher. -/
theorem perform_requestSecret {prompt : String} {next : Option Input}
    (hwatched : ∀ client, d.watcher = some client → client ∈ clients)
    (h : Runs (perform (.requestSecret prompt)) d (.ok next) d') : Asked clients d' := by
  rw [perform, runs_modify_bind] at h
  rcases runs_bind.mp h with ⟨_, d₁, hrequest, hpure⟩ | ⟨e, -, hr⟩
  · obtain ⟨-, rfl⟩ := runs_pure.mp hpure
    rcases runs_requestSecret hrequest with ⟨-, -, e, hr⟩ | ⟨client, hwatcher, -, rfl⟩
    · cases hr
    · exact ⟨_, rfl, hwatched client hwatcher⟩
  · cases hr

theorem performAll_asked {actions : List Core.Action} {next : List Input}
    (hfailed : ∀ failure, .failed failure ∉ actions) (hmanned : Manned clients d)
    (hasked : Asked clients d ∨ ∃ prompt, .requestSecret prompt ∈ actions)
    (h : Runs (performAll actions) d (.ok next) d') : Asked clients d' := by
  induction actions generalizing d next with
  | nil =>
    obtain ⟨-, rfl⟩ := runs_pure.mp h
    exact hasked.resolve_right fun ⟨_, hmem⟩ => absurd hmem List.not_mem_nil
  | cons action rest ih =>
    rcases runs_bind.mp h with ⟨first, d₁, hfirst, hrest⟩ | ⟨e, -, hr⟩
    · rcases runs_bind.mp hrest with ⟨others, d₂, hothers, hpure⟩ | ⟨e, -, hr⟩
      · obtain ⟨-, rfl⟩ := runs_pure.mp hpure
        refine ih (fun failure hmem => hfailed failure (List.mem_cons_of_mem _ hmem))
          (manned_perform action _ _ _ hfirst hmanned) ?_ hothers
        by_cases hsecret : ∃ prompt, action = .requestSecret prompt
        · obtain ⟨prompt, rfl⟩ := hsecret
          exact .inl (perform_requestSecret hmanned.watched hfirst)
        · rcases hasked with hasked | ⟨prompt, hmem⟩
          · refine .inl (asked_perform (fun failure heq => ?_) (fun prompt heq => ?_) _ _ _ hfirst hasked)
            · exact hfailed failure (heq ▸ List.mem_cons_self)
            · exact hsecret ⟨prompt, heq⟩
          · refine .inr ⟨prompt, (List.mem_cons.mp hmem).resolve_left fun heq => ?_⟩
            exact hsecret ⟨prompt, heq.symm⟩
      · cases hr
    · cases hr

/-! ## Turns -/

/-- **A turn** leaves a parked core with somebody to answer it. -/
theorem turn_attended {input : Input} (hmanned : Manned clients d)
    (hasked : ∀ core q, d.core = some core → core.poll (E.draw d.world).1 input = some q →
      q.1.pending.isSome → Asked clients d ∨ ∃ prompt, .requestSecret prompt ∈ q.2) :
    Turn (Attended clients) (fun _ => True) d input := by
  intro core q x d' hcore hpoll hperform
  have hmanned' : Manned clients d' := keeps_performAll (fun action _ => manned_perform action)
    _ _ _ hperform (polls_manned input d core q hcore hpoll hmanned)
  cases x with
  | error e =>
    intro r d'' habort
    refine ⟨manned_abort e _ _ _ habort hmanned', ?_⟩
    rintro ⟨core', hcore', hpending⟩
    rw [(runs_abort habort core' hcore').2.2] at hpending
    cases hpending
  | ok next =>
    refine ⟨⟨hmanned', ?_⟩, fun _ _ => trivial⟩
    rintro ⟨core', hcore', hpending⟩
    obtain ⟨core'', hcore'', -, -, hsame, -⟩ := (kin_performAll _ _ _ _ hperform).core rfl
    cases hcore'.symm.trans hcore''
    rw [hsame] at hpending
    refine performAll_asked (fun failure hmem => ?_)
      (polls_manned input d core q hcore hpoll hmanned) (hasked core q hcore hpoll hpending) hperform
    have hnone := ((Connection.reports_move (Connection.poll_move hpoll)).failed failure hmem).2
    rw [hnone] at hpending
    cases hpending

theorem turn_attended_any {input : Input} (h : Attended clients d) :
    Turn (Attended clients) (fun _ => True) d input := by
  refine turn_attended h.toManned fun core q hcore hpoll hpending => ?_
  rcases (Connection.reports_move (Connection.poll_move hpoll)).asked hpending with hparked | hsecret
  · exact .inl (h.asked ⟨core, hcore, hparked⟩)
  · exact .inr hsecret

theorem attended_feed {input : Input} (hturn : Turn (Attended clients) (fun _ => True) d input)
    (hmanned : Manned clients d) {r : Except String Unit} (h : Runs (feed input) d r d') :
    Attended clients d' := by
  refine feed_ensures (fun d _ hd _ => turn_attended_any hd) hturn (fun hnone => ⟨hmanned, ?_⟩) h
  rintro ⟨core, hcore, -⟩
  cases hnone.symm.trans hcore

/-! ## Entry points -/

theorem poll_restart {core : Connection S} {draws : Draws S} {command : Command}
    {q : Connection S × List Core.Action}
    (hcommand : command = .disconnect ∨ ∃ ssid, command = .connect ssid)
    (hpoll : core.poll draws (.command command) = some q) : q.1.pending = none := by
  rcases hcommand with rfl | ⟨ssid, rfl⟩
  · cases Option.some.inj hpoll
    rfl
  · cases Option.some.inj hpoll
    simp

theorem attended_retaken {client : ClientId} (hclient : client ∈ clients) (reason : String)
    {command : Command} (hcommand : command = .disconnect ∨ ∃ ssid, command = .connect ssid) :
    Keeps (Keeping (Attended clients)) (do
      supersede client reason
      feed (.command command) : EngineM S E Unit) := by
  intro d r d' h hd
  rcases runs_bind.mp h with ⟨_, d₁, hsupersede, hfeed⟩ | ⟨e, hsupersede, -⟩
  · obtain ⟨-, rfl⟩ := runs_supersede hsupersede
    have hmanned : Manned clients (d.afterSupersede client reason) := by
      refine ⟨fun core hcore => hd.sound core (by simpa using hcore), fun c hc => ?_⟩
      rw [afterSupersede_watcher] at hc
      exact Option.some.inj hc ▸ hclient
    refine attended_feed (turn_attended hmanned fun core q _ hpoll hpending => ?_) hmanned hfeed
    rw [poll_restart hcommand hpoll] at hpending
    cases hpending
  · cases (runs_supersede hsupersede).1

theorem poll_secret {core : Connection S} {draws : Draws S} {value : String}
    {q : Connection S × List Core.Action} (hsound : core.Sound)
    (hpoll : core.poll draws (.command (.secret value)) = some q) (hpending : q.1.pending.isSome) :
    ∃ prompt, .requestSecret prompt ∈ q.2 := by
  cases Connection.poll_move hpoll with
  | ignore _ hplans =>
    exfalso
    obtain ⟨target, htarget⟩ := Option.isSome_iff_exists.mp (hsound.targeted (.inr hpending))
    obtain ⟨bss, hbss : core.pending = some bss⟩ := Option.isSome_iff_exists.mp hpending
    simp [Connection.plans, htarget, hbss] at hplans
  | secret _ target htarget hnone =>
    rw [Connection.withTarget_pending, hnone] at hpending
    cases hpending
  | answer _ target bss _ htarget _ hplanned =>
    exact ((Connection.reports_planned hplanned).asked hpending).resolve_left (by rintro ⟨⟩)

theorem attended_answered (value : String) : Keeps (Keeping (Attended clients)) (do
    modify fun d => { d with pendingSecret := none }
    feed (.command (.secret value)) : EngineM S E Unit) := by
  intro d r d' h hd
  rw [runs_modify_bind] at h
  have hmanned : Manned clients ({ d with pendingSecret := none } : Daemon S E) :=
    ⟨hd.sound, hd.watched⟩
  exact attended_feed (turn_attended hmanned fun core q hcore hpoll hpending =>
    .inr (poll_secret (hd.sound core hcore) hpoll hpending)) hmanned h

theorem admits_attended : Admits (Keeping (Attended clients) : Daemon S E → Daemon S E → Prop) where
  calls d op h := ⟨admits_manned.calls d op h.toManned, h.asked⟩
  timers d timers hsparing h := ⟨admits_manned.timers d timers hsparing h.toManned, h.asked⟩
  routes d run hrun h := ⟨admits_manned.routes d run hrun h.toManned, h.asked⟩
  dhcp d run h := ⟨admits_manned.dhcp d run h.toManned, h.asked⟩
  eapol d eapol h := ⟨admits_manned.eapol d eapol h.toManned, h.asked⟩
  profiles d profile h := by
    refine ⟨admits_manned.profiles d profile h.toManned, ?_⟩
    rintro ⟨core, hcore, hpending⟩
    obtain ⟨core', hcore', rfl⟩ := Option.map_eq_some_iff.mp hcore
    exact h.asked ⟨core', hcore', hpending⟩

theorem attended_rebuilt (device : Device) (profiles : List Profile) :
    Keeps (Keeping fun d => Attended clients d ∧ d.isIdle = true) (do
      modify fun d =>
        { d.withCore (.new device profiles) with device := some device, eapol := none }
      stopDhcp : EngineM S E Unit) := by
  intro d r d' h hd
  rw [runs_modify_bind] at h
  have hnew : Attended clients ({ d.withCore (.new device profiles) with
      device := some device, eapol := none } : Daemon S E) := by
    refine ⟨⟨fun core hcore => ?_, hd.1.watched⟩, ?_⟩
    · rw [← Option.some.inj hcore]
      exact Connection.sound_new device profiles
    · rintro ⟨core, hcore, hpending⟩
      rw [← Option.some.inj hcore] at hpending
      cases hpending
  exact ⟨admits_attended.stopDhcp _ _ _ h hnew, (admits_kin.stopDhcp _ _ _ h).isIdle⟩

theorem attended_abort (reason : String) :
    Keeps (Keeping (Attended clients)) (abort reason : EngineM S E Unit) := by
  intro d r d' h hd
  refine ⟨manned_abort reason _ _ _ h hd.toManned, ?_⟩
  rintro ⟨core, hcore, hpending⟩
  rw [(runs_abort h core hcore).2.2] at hpending
  cases hpending

theorem attended_removed (h : Attended clients d) :
    Attended clients ({ d with core := none, device := none } : Daemon S E) := by
  refine ⟨⟨fun core hcore => ?_, h.watched⟩, ?_⟩
  · cases hcore
  · rintro ⟨core, hcore, -⟩
    cases hcore

/-- **The entry points** leave a parked core with somebody to answer it. -/
theorem upheld_attended : Upheld (· ∈ clients) (Attended clients : Daemon S E → Prop) where
  allows := admits_attended.toAllows
  feed _ _ _ _ _ h hd := attended_feed (turn_attended_any hd) hd.toManned h
  leaves _ _ _ h hd := attended_feed (turn_attended_any hd) hd.toManned h
  abort := attended_abort
  rebuilt device := keeps_rebuilt admits_attended.toAllows device (attended_rebuilt device)
  removed _ hd _ := attended_removed hd
  retaken _ hclient reason _ hcommand _ _ _ _ := attended_retaken hclient reason hcommand _ _ _
  answered := attended_answered

theorem Attended.mono {clients' : List ClientId} (h : Attended clients d) (hsub : clients ⊆ clients') :
    Attended clients' d where
  sound := h.sound
  watched client hclient := hsub (h.watched client hclient)
  asked hparked := by
    obtain ⟨prompt, hprompt, hclient⟩ := h.asked hparked
    exact ⟨prompt, hprompt, hsub hclient⟩

end Daemon

namespace Reactor

open Daemon Effect Machine

variable {S : Platform} {E : System S} {r : Reactor S E}

/-! ## Runs of the loop -/

theorem hosted_attended (clients : List ClientId) (next : ClientId) :
    Hosted (S := S) (E := E) (· ∈ clients) (fun _ => True) (fun _ : Unit => Attended clients)
      fun r => r.clients = clients ∧ r.nextId = next ∧ Attended clients r.engine :=
  hosted_engine upheld_attended admits_attended
    (fun _ _ _ _ h hd => attended_feed (turn_attended_any hd) hd.toManned h)
    (fun _ _ _ h => ⟨⟨h.sound, h.watched⟩, h.asked⟩) fun _ _ h => ⟨⟨h.sound, h.watched⟩, h.asked⟩

/-- The core does not wait for a client that goes away. -/
def Stays (r : Reactor S E) (event : Event) : Prop :=
  ∀ gone, event = .reap gone → r.engine.Parked → ∀ prompt, r.engine.pendingSecret = some prompt →
    prompt.client ∉ gone

/-- A core that waits for a passphrase has asked a client that is still there. -/
def Attends (r : Reactor S E) : Prop := r.engine.Parked → Asked r.clients r.engine

theorem reap_manned {gone : List ClientId} (now : ℕ) (h : Manned r.clients r.engine) :
    Manned (step r (now, .reap gone)).1.clients (step r (now, .reap gone)).1.engine := by
  rw [step_reap, foldl_forgotten_clients]
  refine ⟨fun core hcore => h.sound core ?_, fun client hclient => ?_⟩
  · rwa [foldl_forgotten_core] at hcore
  · rw [foldl_forgotten_watcher, Option.filter_eq_some_iff] at hclient
    have hmem := h.watched client hclient.1
    simpa [leaving, hmem] using hclient.2

/-- **Clients that go away** leave a prompt to be answered exactly if none of them was asked. -/
theorem reap_attends {gone : List ClientId} (now : ℕ) (h : r.Attends) :
    (step r (now, .reap gone)).1.Attends ↔ r.Stays (.reap gone) := by
  have hparked : (step r (now, .reap gone)).1.engine.Parked ↔ r.engine.Parked := by
    simp only [Daemon.Parked, step_reap, foldl_forgotten_core]
    exact Iff.rfl
  have hasked : Asked (step r (now, .reap gone)).1.clients (step r (now, .reap gone)).1.engine ↔
      ∃ prompt, r.engine.pendingSecret = some prompt ∧ prompt.client ∈ r.clients ∧
        prompt.client ∉ gone := by
    simp only [Asked, step_reap, foldl_forgotten_clients, foldl_forgotten_pendingSecret,
      Option.filter_eq_some_iff, wokenAt, List.mem_filter, leaving, decide_eq_true_eq]
    exact exists_congr fun prompt => by tauto
  unfold Attends
  rw [hparked, hasked]
  constructor
  · rintro hattends gone' heq hpark prompt hprompt
    cases heq
    obtain ⟨prompt', hprompt', -, hgone⟩ := hattends hpark
    cases hprompt.symm.trans hprompt'
    exact hgone
  · intro hstays hpark
    obtain ⟨prompt, hprompt, hclient⟩ := h hpark
    exact ⟨prompt, hprompt, hclient, hstays gone rfl hpark prompt hprompt⟩

/-- **A step** after which nobody who was asked is gone. -/
theorem step_attended {woken : ℕ × Event} (h : Attended r.clients r.engine)
    (hstays : r.Stays woken.2) :
    Attended (step r woken).1.clients (step r woken).1.engine := by
  have hwoken : Attended (r.wokenAt woken.1).clients (r.wokenAt woken.1).engine :=
    ⟨⟨h.sound, h.watched⟩, h.asked⟩
  obtain ⟨now, event⟩ := woken
  by_cases hreap : ∃ gone, event = .reap gone
  · obtain ⟨gone, rfl⟩ := hreap
    exact ⟨reap_manned now h.toManned, (reap_attends now h.asked).mpr hstays⟩
  rcases step_runs r (now, event) with hsame | ⟨x, hrun⟩
  · rwa [hsame]
  by_cases haccept : event = .accept
  · subst haccept
    obtain ⟨-, heq⟩ := runs_modify.mp hrun
    rw [heq]
    exact hwoken.mono fun client hclient => List.mem_append_left _ hclient
  · have hkept := (hosted_attended (r.wokenAt now).clients r.nextId).dispatch
      (fun _ => keeps_modify fun _ h => ⟨h.1, h.2.1, ⟨h.2.2.sound, h.2.2.watched⟩, h.2.2.asked⟩) haccept
      (fun gone heq => hreap ⟨gone, heq⟩) (fun client _ _ hclient => hclient) (fun _ _ => trivial)
      ⟨rfl, rfl, hwoken⟩ hrun
    rw [hkept.1]
    exact hkept.2.2

theorem start_attended (world : E.World) (nl rtnl autoconnect : Bool) (offset : ℕ) :
    Attended (start world nl rtnl autoconnect offset : Reactor S E).clients
      (start world nl rtnl autoconnect offset : Reactor S E).engine := by
  have hnone : (start world nl rtnl autoconnect offset : Reactor S E).engine.core = none := by
    cases autoconnect <;> rfl
  have hwatcher : (start world nl rtnl autoconnect offset : Reactor S E).engine.watcher = none := by
    cases autoconnect <;> rfl
  refine ⟨⟨fun core hcore => ?_, fun client hclient => ?_⟩, ?_⟩
  · cases hnone.symm.trans hcore
  · cases hwatcher.symm.trans hclient
  · rintro ⟨core, hcore, -⟩
    cases hnone.symm.trans hcore

/-- **A parked core has somebody to answer it** throughout a run exactly if nobody leaves while the
prompt is theirs. -/
theorem attended_iff (world : E.World) (nl rtnl autoconnect : Bool) (offset : ℕ)
    (events : List (ℕ × Event)) :
    Along (fun _ e => e.post.Attends) (log step (start world nl rtnl autoconnect offset) events) ↔
      Along (fun _ e => e.pre.Stays e.input.2)
        (log step (start world nl rtnl autoconnect offset) events) := by
  constructor
  · refine along_of_inv (J := fun _ r => r.Attends)
      (start_attended world nl rtnl autoconnect offset).asked (fun _ _ _ _ hpost => hpost)
      (fun _ r woken hpre hpost => ?_) events
    rintro gone hgone
    obtain ⟨now, event⟩ := woken
    cases hgone
    exact (reap_attends now hpre).mp hpost gone rfl
  · exact along_of_inv (J := fun _ r => Attended r.clients r.engine)
      (start_attended world nl rtnl autoconnect offset) (fun _ _ _ h hstays => step_attended h hstays)
      (fun _ _ _ h hstays => (step_attended h hstays).asked) events

/-! ## A client that leaves -/

/-- A loop whose scans find a network that needs a passphrase. -/
def sampleLoop : Reactor .sample .sample :=
  start [[Connection.samplePskBss]] true true false 0

/-- A client asks for the network, and is asked for the passphrase. -/
def sampleWaiting : List (ℕ × Event) :=
  [(0, .accept), (1, .request 1 (.connect "n" none)), (2, .wireless [34, 1, 0, 0])]

/-- **It goes away**, and the core waits on, with nobody to answer and no deadline. -/
theorem asker_leaves : (exec step sampleLoop sampleWaiting).Attends ∧
    ¬ (exec step sampleLoop (sampleWaiting ++ [(3, .reap [1])])).Attends ∧
    (exec step sampleLoop (sampleWaiting ++ [(3, .reap [1])])).engine.isIdle = false ∧
    (exec step sampleLoop (sampleWaiting ++ [(3, .reap [1])])).engine.timers.entries = [] := by
  have hasked : (exec step sampleLoop sampleWaiting).engine.pendingSecret.map
      PendingSecret.client = some 1 := by decide +kernel
  have hclients : (exec step sampleLoop sampleWaiting).clients = [1] := by decide +kernel
  have hparked : (exec step sampleLoop (sampleWaiting ++ [(3, .reap [1])])).engine.core.any
      (fun core => core.pending.isSome) = true := by decide +kernel
  have hnobody : (exec step sampleLoop (sampleWaiting ++ [(3, .reap [1])])).engine.pendingSecret.map
      PendingSecret.client = none := by decide +kernel
  refine ⟨fun _ => ?_, fun h => ?_, by decide +kernel, by decide +kernel⟩
  · obtain ⟨prompt, hprompt, hclient⟩ := Option.map_eq_some_iff.mp hasked
    exact ⟨prompt, hprompt, by rw [hclients, hclient]; exact List.mem_singleton_self _⟩
  · obtain ⟨core, hcore, hpending⟩ := (Option.any_eq_true _ _).mp hparked
    obtain ⟨prompt, hprompt, -⟩ := h ⟨core, hcore, hpending⟩
    rw [hprompt] at hnobody
    cases hnobody

end Reactor

end Caw
