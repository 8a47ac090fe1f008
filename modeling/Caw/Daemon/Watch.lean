import Caw.Core.Report
import Caw.Daemon.Entry

/-!
# The watcher

One request at a time waits for what becomes of the connection, and its client watches until then.

* `Daemon.responses`, `Daemon.account`: the responses a client was sent, with the one it watches for;
* **`spans_account`**: the engine keeps the account of every client that asks for nothing;
* **`adds_connect`**, `adds_disconnect`, `account_forget`: a request that begins is one more;
* `Daemon.Live`, **`upheld_live`**: a connection that is watched is on its way.
-/

set_option autoImplicit false

namespace Caw

open Caw.Core

namespace Daemon

open Effect

variable {S : Platform} {E : System S} {d d' : Daemon S E} {client : ClientId}

/-- It is a response to the client. -/
def Done.responds (client : ClientId) : Done → Bool
  | .send recipient message => recipient = client && message.isResponse
  | _ => false

/-- The responses a client has been sent. -/
def responses (client : ClientId) (d : Daemon S E) : ℕ := d.journal.countP (Done.responds client)

/-- One, while the client watches. -/
def watching (client : ClientId) (d : Daemon S E) : ℕ := if d.watcher = some client then 1 else 0

/-- The requests of a client that were answered, or that it watches for. -/
def account (client : ClientId) (d : Daemon S E) : ℕ := responses client d + watching client d

/-! ## What is sent -/

@[simp] theorem responses_record (done : Done) :
    responses client (d.record done) = responses client d + if done.responds client then 1 else 0 := by
  simp [responses, List.countP_singleton]

@[simp] theorem watching_record (done : Done) : watching client (d.record done) = watching client d :=
  rfl

theorem account_eq (hjournal : responses client d' = responses client d)
    (hwatcher : d'.watcher = d.watcher) : account client d' = account client d := by
  rw [account, account, watching, watching, hjournal, hwatcher]

theorem account_answered {watcher : ClientId} {message : Message} (h : d.watcher = some watcher)
    (hmessage : message.isResponse = true) :
    account client ({ d.record (.send watcher message) with watcher := none } : Daemon S E) =
      account client d := by
  by_cases heq : watcher = client
  · simp [account, watching, h, heq, responses, Done.responds, hmessage]
  · simp [account, watching, h, heq, responses, Done.responds]

theorem account_told {watcher : ClientId} {message : Message} (hmessage : message.isResponse = false) :
    account client (d.record (.send watcher message)) = account client d := by
  simp [account, Done.responds, hmessage]

theorem account_afterFailure (reason : String) :
    account client (d.afterFailure reason) = account client d := by
  unfold afterFailure
  cases hwatcher : d.watcher with
  | none => exact account_eq rfl hwatcher.symm
  | some watcher =>
    calc account client _
      _ = account client (d.record (.send watcher (.failed reason))) :=
          account_answered hwatcher rfl
      _ = account client d := account_told rfl

theorem account_afterNotice (state : State) :
    account client (d.afterNotice state) = account client d := by
  unfold afterNotice
  cases hwatcher : d.watcher with
  | none => rfl
  | some watcher =>
    have hprogress (message : Message) (h : progress d.bssid state = some message) :
        message.isResponse = false := by
      cases state <;> cases h <;> rfl
    dsimp only
    cases hmessage : progress d.bssid state with
    | none =>
      dsimp only
      split_ifs
      · exact account_answered hwatcher rfl
      · rfl
    | some message =>
      dsimp only
      split_ifs
      · calc account client _
          _ = account client (d.record (.send watcher message)) := account_answered hwatcher rfl
          _ = account client d := account_told (hprogress message hmessage)
      · exact account_told (hprogress message hmessage)

theorem account_afterSupersede (asker : ClientId) (reason : String) :
    account client (d.afterSupersede asker reason) =
      account client d + if asker = client ∧ d.watcher ≠ some client then 1 else 0 := by
  unfold afterSupersede
  cases hwatcher : d.watcher with
  | none =>
    by_cases heq : asker = client
    · simp [account, watching, hwatcher, heq, responses]
    · simp [account, watching, hwatcher, heq, responses]
  | some previous =>
    dsimp only
    by_cases hsame : previous = asker
    · by_cases heq : asker = client
      · simp [account, watching, hwatcher, heq, hsame, responses]
      · simp [account, watching, hwatcher, heq, hsame, responses]
    · by_cases heq : asker = client
      · have hprev : previous ≠ client := heq ▸ hsame
        simp [account, watching, hwatcher, heq, hprev, responses, Done.responds, Message.isResponse]
      · by_cases hprev : previous = client
        · subst hprev
          simp [account, watching, hwatcher, heq, hsame, responses, Done.responds, Message.isResponse]
        · simp [account, watching, hwatcher, heq, hsame, hprev, responses, Done.responds,
            Message.isResponse]

/-! ## The engine -/

/-- The account of a client stays as it is. -/
abbrev SameAccount (client : ClientId) : Daemon S E → Daemon S E → Prop := Level (account client)

theorem admits_account : Admits (SameAccount client : Daemon S E → Daemon S E → Prop) where
  calls d op := account_eq (responses_record (d := d) (.call op _)) rfl
  timers _ _ _ := rfl
  routes _ _ _ := rfl
  dhcp _ _ := rfl
  eapol _ _ := rfl
  profiles _ _ := rfl

theorem account_tellFailed (reason : String) :
    Keeps (SameAccount client) (tellFailed reason : EngineM S E Unit) := by
  intro d r d' h
  rw [(runs_tellFailed h).2]
  exact account_afterFailure reason

theorem account_perform (action : Core.Action) :
    Keeps (SameAccount client) (perform action : EngineM S E _) := by
  refine admits_account.perform (fun d => account_eq (responses_record (d := d) (.perform action)) rfl)
    (fun state _ d r d' h => ?_) (fun failure _ => account_tellFailed _) fun prompt _ d r d' h => ?_
  · rw [(runs_notify h).2]
    exact account_afterNotice state
  · rcases runs_requestSecret h with ⟨-, rfl, -⟩ | ⟨watcher, -, -, rfl⟩
    · rfl
    · exact account_eq (by simp [responses, Done.responds, Message.isResponse]) rfl

/-- **The account of a client that asks for nothing** stays as it is. -/
theorem spans_account :
    Spans (· ≠ client) (SameAccount client : Daemon S E → Daemon S E → Prop) where
  toAdmits := admits_account
  polls input d _ _ _ _ := account_eq (responses_record (d := d) (.poll input)) rfl
  performs := account_perform
  tells := account_tellFailed
  builds _ _ _ := rfl
  removes _ := rfl
  supersedes asker hasker reason d r d' h := by
    rw [(runs_supersede h).2]
    exact (account_afterSupersede asker reason).trans (by simp [hasker])
  takes _ := rfl

/-! ## Requests that begin -/

theorem adds_supersede (reason : String) (h : d.watcher ≠ some client) :
    Adds (account client) 1 (supersede client reason : EngineM S E Unit) d := by
  intro r d' hrun
  obtain ⟨rfl, rfl⟩ := runs_supersede hrun
  exact (account_afterSupersede client reason).trans (by simp [h])

theorem adds_retaken (reason : String) (input : Input) (h : d.watcher ≠ some client) :
    Adds (account client) 1 (do
      supersede client reason
      feed input : EngineM S E Unit) d :=
  adds_then (adds_supersede reason h) (fun _ => spans_account.feed _) fun _ => total_feed _

/-- **A request to join** that begins is one more, unless the client watches already. -/
theorem adds_connect {ifindex : UInt32} {ssid : String}
    (h : ssid ≠ "" → ∀ d', Runs (prepare ifindex) d (.ok ()) d' → d'.watcher ≠ some client) :
    Adds (account client) 1 (connect ifindex ssid client : EngineM S E Unit) d := by
  have hprepared {x : Except String Unit} {d₁ : Daemon S E} (hrun : Runs (prepare ifindex) d x d₁) :
      account client d₁ = account client d :=
    (spans_account.upheld (J := fun d' => account client d' = account client d)
      fun _ _ hlevel => hlevel.trans).prepare ifindex _ _ _ hrun rfl
  intro r d' hrun
  rcases runs_connect hrun with ⟨e, rfl, rfl | hprepare⟩ | ⟨-, hssid, d₁, hprepare, hretaken⟩
  · rfl
  · exact hprepared hprepare
  · rw [← hprepared hprepare]
    exact adds_retaken _ _ (h hssid d₁ hprepare) _ _ hretaken

theorem adds_disconnect {ssid : String} (h : d.ssid = some ssid → d.watcher ≠ some client) :
    Adds (account client) 1 (disconnect ssid client : EngineM S E Unit) d := by
  intro r d' hrun
  rcases runs_disconnect hrun with ⟨e, rfl, -, rfl⟩ | ⟨-, hssid, hretaken⟩
  · rfl
  · exact adds_retaken _ _ (h hssid) _ _ hretaken

/-- What a request to delete a profile adds: it may end in a watch, be answered, or fail. -/
theorem account_forget {ssid : String} {r : Except String Bool}
    (h : ∀ deleted d', Runs (request (.deleteProfile (octetsOf ssid)) id) d (.ok deleted) d' →
      d'.ssid = some ssid → d'.watcher ≠ some client)
    (hrun : Runs (forget ssid client) d r d') :
    account client d' = account client d + if r = .ok true then 1 else 0 := by
  obtain ⟨x, d₁, hrequest, hout⟩ := runs_forget hrun
  rw [← show account client d₁ = account client d from admits_account.request _ _ _ _ _ hrequest]
  rcases hout with ⟨rfl, hr, -⟩ | ⟨rfl, ⟨deleted, rfl⟩, hssid, hleave⟩
  · rw [if_neg hr]
    rfl
  · rw [if_pos rfl]
    exact adds_disconnect (fun _ => h deleted d₁ hrequest hssid) _ _ hleave

/-! ## A connection that is watched -/

/-- The daemon once a watcher can only go away. -/
def Fades (d d' : Daemon S E) : Prop := ∀ client, d'.watcher = some client → d.watcher = some client

instance : IsPreorder (Daemon S E) Fades where
  refl _ _ := id
  trans _ _ _ h h' client := h client ∘ h' client

theorem Fades.none (h : Fades d d') (hd : d.watcher = none) : d'.watcher = none := by
  cases hwatcher : d'.watcher with
  | none => rfl
  | some client => cases hd.symm.trans (h client hwatcher)

theorem admits_fades : Admits (Fades : Daemon S E → Daemon S E → Prop) where
  calls _ _ _ := id
  timers _ _ _ _ := id
  routes _ _ _ _ := id
  dhcp _ _ _ := id
  eapol _ _ _ := id
  profiles _ _ _ := id

theorem speaks_fades : Speaks (Fades : Daemon S E → Daemon S E → Prop) where
  sends _ _ _ _ := id
  unwatched _ _ := nofun
  prompts _ _ _ _ := id

theorem fades_perform (action : Core.Action) : Keeps Fades (perform action : EngineM S E _) :=
  admits_fades.perform_of_speaks speaks_fades fun _ _ => id

theorem spans_fades : Spans (fun _ => False) (Fades : Daemon S E → Daemon S E → Prop) where
  toAdmits := admits_fades
  polls _ _ _ _ _ _ _ := id
  performs := fades_perform
  tells := speaks_fades.tellFailed
  builds _ _ _ _ := id
  removes _ _ := id
  supersedes _ h := h.elim
  takes _ _ := id

theorem fades_forgetClient (client : ClientId) :
    Keeps Fades (forgetClient client : EngineM S E Unit) := by
  refine keeps_modify fun d watcher hwatcher => ?_
  change (if d.watcher = some client then none else d.watcher) = some watcher at hwatcher
  split_ifs at hwatcher
  exact hwatcher

/-- The action tells the watcher what has become of its request. -/
def Concludes : Core.Action → Prop
  | .notify state => state = .connected ∨ state = .idle
  | .failed _ => True
  | _ => False

theorem afterNotice_unwatched {state : State} (h : state = .connected ∨ state = .idle) :
    (d.afterNotice state).watcher = none := by
  unfold afterNotice
  cases hwatcher : d.watcher with
  | none => exact hwatcher
  | some client =>
    dsimp only
    rw [if_pos h]

theorem tellFailed_unwatched {reason : String} {r : Except String Unit}
    (h : Runs (tellFailed reason) d r d') : d'.watcher = none := by
  rw [(runs_tellFailed h).2]
  unfold afterFailure
  cases d.watcher with
  | none => rfl
  | some client => rfl

/-- **Nobody watches** once the watcher has been told what has become of its request. -/
theorem perform_unwatched {action : Core.Action} (hconcludes : Concludes action)
    {r : Except String (Option Input)} (h : Runs (perform action) d r d') : d'.watcher = none := by
  cases action with
  | notify state =>
    rw [perform, runs_modify_bind] at h
    rcases runs_bind.mp h with ⟨_, d₁, hnotify, hpure⟩ | ⟨e, hnotify, -⟩
    · obtain ⟨-, rfl⟩ := runs_pure.mp hpure
      rw [(runs_notify hnotify).2]
      exact afterNotice_unwatched hconcludes
    · cases (runs_notify hnotify).1
  | failed failure =>
    rw [perform, runs_modify_bind] at h
    have hfailed {r : Except String Unit} {d' : Daemon S E}
        (h : Runs (failed failure) (d.record (.perform (.failed failure))) r d') :
        d'.watcher = none := by
      rcases runs_bind.mp h with ⟨_, d₁, htell, hrest⟩ | ⟨e, htell, -⟩
      · refine Fades.none ?_ (tellFailed_unwatched htell)
        split_ifs at hrest
        · exact keeps_bind (keeps_modify fun d => admits_fades.eapol d none)
            (fun _ => admits_fades.stopDhcp) _ _ _ hrest
        · exact keeps_pure _ _ _ _ hrest
      · exact tellFailed_unwatched htell
    rcases runs_bind.mp h with ⟨_, d₁, hrun, hpure⟩ | ⟨e, hrun, -⟩
    · obtain ⟨-, rfl⟩ := runs_pure.mp hpure
      exact hfailed hrun
    · exact hfailed hrun
  | _ => exact hconcludes.elim

theorem performAll_unwatched {actions : List Core.Action} {next : List Input}
    (hconcludes : ∃ action ∈ actions, Concludes action)
    (h : Runs (performAll actions) d (.ok next) d') : d'.watcher = none := by
  induction actions generalizing d next with
  | nil =>
    obtain ⟨action, hmem, -⟩ := hconcludes
    cases hmem
  | cons action rest ih =>
    rcases runs_bind.mp h with ⟨first, d₁, hfirst, hrest⟩ | ⟨e, -, hr⟩
    · rcases runs_bind.mp hrest with ⟨others, d₂, hothers, hpure⟩ | ⟨e, -, hr⟩
      · obtain ⟨-, rfl⟩ := runs_pure.mp hpure
        obtain ⟨concluding, hmem, hconcluding⟩ := hconcludes
        rcases List.mem_cons.mp hmem with rfl | hmem
        · exact (keeps_performAll (fun action _ => fades_perform action) _ _ _ hothers).none
            (perform_unwatched hconcluding hfirst)
        · exact ih ⟨concluding, hmem, hconcluding⟩ hothers
      · cases hr
    · cases hr

/-- The core and the device come and go together. -/
def Housed (d : Daemon S E) : Prop := d.core.isSome = d.device.isSome

/-- **A connection that is watched** is on its way. -/
structure Live (d : Daemon S E) : Prop where
  housed : d.Housed
  watched : ∀ client, d.watcher = some client →
    ∃ core, d.core = some core ∧ core.state ≠ .idle ∧ core.state ≠ .connected

theorem Live.of_unwatched (hhoused : d.Housed) (h : d.watcher = none) : d.Live where
  housed := hhoused
  watched client hclient := by cases h.symm.trans hclient

theorem Live.unwatched (h : d.Live) (hidle : d.isIdle = true) : d.watcher = none := by
  cases hwatcher : d.watcher with
  | none => rfl
  | some client =>
    obtain ⟨core, hcore, hstate, -⟩ := h.watched client hwatcher
    exact absurd (by simpa [isIdle, state, hcore] using hidle) hstate

/-- There is a core for the same device. -/
structure Abides (d d' : Daemon S E) : Prop where
  core : d'.core.isSome = d.core.isSome
  device : d'.device = d.device

instance : IsPreorder (Daemon S E) Abides where
  refl _ := ⟨rfl, rfl⟩
  trans _ _ _ h h' := ⟨h'.core.trans h.core, h'.device.trans h.device⟩

theorem Kin.abides (h : Kin d d') : Abides d d' := by
  refine ⟨?_, h.device⟩
  have hstanding := congrArg Option.isSome h.standing
  simpa only [Daemon.standing, Option.isSome_map] using hstanding

theorem Housed.abides (h : d.Housed) (habides : Abides d d') : d'.Housed := by
  rw [Housed, habides.core, habides.device]
  exact h

theorem admits_abides : Admits (Abides : Daemon S E → Daemon S E → Prop) where
  calls _ _ := ⟨rfl, rfl⟩
  timers _ _ _ := ⟨rfl, rfl⟩
  routes _ _ _ := ⟨rfl, rfl⟩
  dhcp _ _ := ⟨rfl, rfl⟩
  eapol _ _ := ⟨rfl, rfl⟩
  profiles _ _ := ⟨Option.isSome_map, rfl⟩

theorem polls_abides (input : Input) :
    Polls (Abides : Daemon S E → Daemon S E → Prop) input := by
  intro d core q hcore _
  refine ⟨?_, rfl⟩
  rw [hcore]
  rfl

theorem abides_perform (action : Core.Action) : Keeps Abides (perform action : EngineM S E _) :=
  (kin_perform action).mono fun _ _ => Kin.abides

theorem abides_abort (reason : String) : Keeps Abides (abort reason : EngineM S E Unit) :=
  admits_abides.abort (polls_abides _) (fun action _ => abides_perform action)
    ((speaks_kin.tellFailed reason).mono fun _ _ => Kin.abides)

theorem abort_unwatched {reason : String} {r : Except String Unit} (h : Runs (abort reason) d r d') :
    d'.watcher = none := by
  rcases runs_bind.mp h with ⟨_, d₁, htell, hreset⟩ | ⟨e, htell, -⟩
  · refine Fades.none ?_ (tellFailed_unwatched htell)
    exact admits_fades.reset (fun _ _ _ _ _ _ => id) (fun action _ => fades_perform action) _ _ _ hreset
  · exact tellFailed_unwatched htell

theorem live_abort {reason : String} {r : Except String Unit} (h : Runs (abort reason) d r d')
    (hhoused : d.Housed) : d'.Live :=
  .of_unwatched (hhoused.abides (abides_abort reason _ _ _ h)) (abort_unwatched h)

/-- **A turn** that settles the connection, and tells the watcher so. -/
theorem turn_live {input : Input} (hhoused : d.Housed)
    (hsettles : ∀ core q, d.core = some core → core.poll (E.draw d.world).1 input = some q →
      q.1.state = .idle ∨ q.1.state = .connected →
      d.watcher = none ∨ ∃ action ∈ q.2, Concludes action) :
    Turn Live (fun _ => True) d input := by
  intro core q x d' hcore hpoll hperform
  have hhoused' : d'.Housed := (hhoused.abides (polls_abides input d core q hcore hpoll)).abides
    (keeps_performAll (fun action _ => abides_perform action) _ _ _ hperform)
  cases x with
  | error e => exact fun r d'' habort => live_abort habort hhoused'
  | ok next =>
    refine ⟨⟨hhoused', fun client hclient => ?_⟩, fun _ _ => trivial⟩
    obtain ⟨core', hcore', hstate, -⟩ := (kin_performAll _ _ _ _ hperform).core rfl
    refine ⟨core', hcore', ?_⟩
    by_contra hsettled
    rw [hstate, ← not_or, not_not] at hsettled
    rcases hsettles core q hcore hpoll hsettled with hnone | hconcludes
    · cases (keeps_performAll (fun action _ => fades_perform action) _ _ _ hperform client
        hclient).symm.trans hnone
    · cases (performAll_unwatched hconcludes hperform).symm.trans hclient

theorem turn_live_any {input : Input} (h : d.Live) : Turn Live (fun _ => True) d input := by
  refine turn_live h.housed fun core q hcore hpoll hsettled => ?_
  have hreports := Connection.reports_move (Connection.poll_move hpoll)
  cases hwatcher : d.watcher with
  | none => exact .inl rfl
  | some client =>
    obtain ⟨core', hcore', hidle, hconnected⟩ := h.watched client hwatcher
    cases hcore.symm.trans hcore'
    refine .inr ?_
    rcases hsettled with hst | hst
    · rcases hreports.idle hst with hst | hst | ⟨failure, hst⟩
      · exact absurd hst hidle
      · exact ⟨_, hst, .inr rfl⟩
      · exact ⟨_, hst, trivial⟩
    · exact ⟨_, (hreports.connected hst).resolve_left hconnected, .inl rfl⟩

theorem live_feed {input : Input} (hturn : Turn Live (fun _ => True) d input)
    (hnone : d.core = none → d.Live) {r : Except String Unit} (h : Runs (feed input) d r d') :
    d'.Live :=
  feed_ensures (fun _ _ hd _ => turn_live_any hd) hturn hnone h

theorem Live.keep (h : d.Live) (hkin : Kin d d') (hfades : Fades d d') : d'.Live where
  housed := h.housed.abides hkin.abides
  watched client hclient := by
    obtain ⟨core, hcore, hstate⟩ := h.watched client (hfades client hclient)
    obtain ⟨core', hcore', heq, -⟩ := hkin.core hcore
    exact ⟨core', hcore', heq ▸ hstate⟩

theorem admits_live : Admits (Keeping Live : Daemon S E → Daemon S E → Prop) where
  calls d op h := h.keep (admits_kin.calls d op) (admits_fades.calls d op)
  timers d timers hsparing h :=
    h.keep (admits_kin.timers d timers hsparing) (admits_fades.timers d timers hsparing)
  routes d run hrun h := h.keep (admits_kin.routes d run hrun) (admits_fades.routes d run hrun)
  dhcp d run h := h.keep (admits_kin.dhcp d run) (admits_fades.dhcp d run)
  eapol d eapol h := h.keep (admits_kin.eapol d eapol) (admits_fades.eapol d eapol)
  profiles d profile h := h.keep (admits_kin.profiles d profile) (admits_fades.profiles d profile)

/-- A connection that is told to join is on its way, and one that is told to leave says so. -/
theorem poll_retaken {core : Connection S} {draws : Draws S} {command : Command}
    {q : Connection S × List Core.Action}
    (hcommand : command = .disconnect ∨ ∃ ssid, command = .connect ssid)
    (hpoll : core.poll draws (.command command) = some q)
    (hsettled : q.1.state = .idle ∨ q.1.state = .connected) : ∃ action ∈ q.2, Concludes action := by
  rcases hcommand with rfl | ⟨ssid, rfl⟩
  · cases Option.some.inj hpoll
    exact ⟨.notify .idle, by simp [Connection.goIdle], .inr rfl⟩
  · cases Option.some.inj hpoll
    simp at hsettled

theorem housed_afterSupersede (reason : String) (h : d.Housed) :
    (d.afterSupersede client reason).Housed := by
  have hdevice : (d.afterSupersede client reason).device = d.device := by
    unfold afterSupersede
    split
    · rfl
    · split_ifs <;> rfl
  rw [Housed, afterSupersede_core, hdevice]
  exact h

/-- The core is told to join, or to leave, by whoever takes over the watch. -/
theorem turn_live_retaken {reason : String} {command : Command}
    (hcommand : command = .disconnect ∨ ∃ ssid, command = .connect ssid) (h : d.Housed) :
    Turn Live (fun _ => True) (d.afterSupersede client reason) (.command command) :=
  turn_live (housed_afterSupersede reason h) fun _ _ _ hpoll hsettled =>
    .inr (poll_retaken hcommand hpoll hsettled)

theorem Live.isSome_core (h : d.Live) (hbased : d.core.isSome ∨ d.device.isSome) : d.core.isSome :=
  hbased.elim id fun hdevice => h.housed.trans hdevice

theorem live_rebuilt (device : Device) (profiles : List Profile) :
    Keeps (Keeping fun d => Live d ∧ d.isIdle = true) (do
      modify fun d =>
        { d.withCore (.new device profiles) with device := some device, eapol := none }
      stopDhcp : EngineM S E Unit) := by
  intro d r d' h hd
  rw [runs_modify_bind] at h
  have hnew : Live ({ d.withCore (.new device profiles) with
      device := some device, eapol := none } : Daemon S E) :=
    .of_unwatched rfl (hd.1.unwatched hd.2)
  exact ⟨admits_live.stopDhcp _ _ _ h hnew, (admits_kin.stopDhcp _ _ _ h).isIdle⟩

/-- **The entry points** leave a connection that is watched on its way. -/
theorem upheld_live : Upheld (fun _ => True) (Live : Daemon S E → Prop) where
  allows := admits_live.toAllows
  feed _ _ _ _ _ h hd := live_feed (turn_live_any hd) (fun _ => hd) h
  leaves _ _ _ h hd := live_feed (turn_live_any hd) (fun _ => hd) h
  abort _ _ _ _ h hd := live_abort h hd.housed
  rebuilt device := keeps_rebuilt admits_live.toAllows device (live_rebuilt device)
  removed _ hd hidle := .of_unwatched rfl (hd.unwatched hidle)
  retaken _ _ _ _ hcommand _ _ _ hbased h hd := retaken_ensures (fun _ _ hd _ => turn_live_any hd)
    (hd.isSome_core hbased) (turn_live_retaken hcommand hd.housed) h
  answered _ := keeps_bind (keeps_modify fun _ h => ⟨h.housed, h.watched⟩) fun _ _ _ _ h hd =>
    live_feed (turn_live_any hd) (fun _ => hd) h

end Daemon

end Caw
