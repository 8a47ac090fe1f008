import Caw.Core.Target
import Caw.Daemon.Success

/-!
# The network a client waits for

A request to join is answered for the network it asked for, and with an address asked for since.

* `Daemon.Pursues`, **`turn_pursues`**, `borne_pursues`: a connection that is watched is on its way to
  that network;
* **`pursues_connect`**, **`pursues_handle`**: and so it is once a client has asked for it, and after
  every event it does not ask for;
* `Begins`, `Reached`, `Honoured`: a request, what it was for, and an answer that keeps to it;
* `Sincere`, **`honoured_run`**: every answer does in a run whose steps are sincere;
* `honoured_fails`: one given when the daemon is shut down does not.
-/

set_option autoImplicit false

namespace Caw

open Caw.Core

namespace Daemon

open Effect
open Machine (Entry exec log Along Latest)

variable {S : Platform} {E : System S} {d d' : Daemon S E} {client : ClientId}

/-! ## On the way -/

/-- Whoever watches waits for this network, and an address has been asked for since if one is waited
for. -/
structure Pursues (since : ℕ) (ssid : String) (d : Daemon S E) : Prop extends Keen d where
  since_le : since ≤ d.journal.length
  aims : ∀ client, d.watcher = some client → ∀ core, d.core = some core →
    core.target.map Target.ssid = some (octetsOf ssid) ∧
      (core.state = .configuring → .perform .startDhcp ∈ d.journal.drop since)

section Pursues

variable {since : ℕ} {ssid : String}

theorem Pursues.of_unwatched (hkeen : d.Keen) (hsince : since ≤ d.journal.length)
    (h : d.watcher = none) : Pursues since ssid d :=
  ⟨hkeen, hsince, fun client hclient => by cases h.symm.trans hclient⟩

theorem Pursues.keep (h : Pursues since ssid d) (hkin : Kin d d') (hfades : Fades d d')
    (hcontinues : Continues d d') : Pursues since ssid d' := by
  refine ⟨h.toKeen.keep hkin hfades, h.since_le.trans hcontinues.length_le,
    fun client hclient core' hcore' => ?_⟩
  obtain ⟨core, hcore, -⟩ := h.watched client (hfades client hclient)
  obtain ⟨core'', hcore'', hstate, -, -, htarget⟩ := hkin.core hcore
  cases hcore'.symm.trans hcore''
  obtain ⟨haims, hasked⟩ := h.aims client (hfades client hclient) core hcore
  refine ⟨htarget.trans haims, fun hst => ?_⟩
  exact (hcontinues.drop since).subset (hasked (hstate.symm.trans hst))

theorem admits_pursues :
    Admits (Keeping (Pursues since ssid) : Daemon S E → Daemon S E → Prop) where
  calls d op h := h.keep (admits_kin.calls d op) (admits_fades.calls d op) (continues_of rfl)
  timers d timers hsparing h := h.keep (admits_kin.timers d timers hsparing)
    (admits_fades.timers d timers hsparing) (continues_same rfl)
  routes d run hrun h := h.keep (admits_kin.routes d run hrun) (admits_fades.routes d run hrun)
    (continues_same rfl)
  dhcp d run h := h.keep (admits_kin.dhcp d run) (admits_fades.dhcp d run) (continues_same rfl)
  eapol d eapol h := h.keep (admits_kin.eapol d eapol) (admits_fades.eapol d eapol)
    (continues_same rfl)
  profiles d profile h := h.keep (admits_kin.profiles d profile) (admits_fades.profiles d profile)
    (continues_same rfl)

theorem continues_performAll {actions : List Core.Action} {core : Connection S} {input : Input}
    {x : Except String (List Input)} (h : Runs (performAll actions) (d.polled core input) x d') :
    Continues d d' := by
  have hpolled : Continues d (d.polled core input) := continues_of rfl
  exact hpolled.trans (keeps_performAll (fun action _ => conducts_continues.perform action) _ _ _ h)

/-- **A turn** leaves the network aimed at, and asks for an address before it waits for one. -/
theorem turn_pursues {input : Input} (h : Pursues since ssid d)
    (hconnect : ∀ ssid, input ≠ .command (.connect ssid)) :
    Turn (Pursues since ssid) IsScan d input := by
  intro core q x d' hcore hpoll hperform
  have hout := turn_keen_any h.toKeen core q x d' hcore hpoll hperform
  have hcontinues : Continues d d' := continues_performAll hperform
  cases x with
  | error e =>
    intro r d'' habort
    refine .of_unwatched (hout r d'' habort) (h.since_le.trans ?_) (abort_unwatched habort)
    exact (hcontinues.trans (conducts_continues.abort e _ _ _ habort)).length_le
  | ok next =>
    refine ⟨⟨hout.1, h.since_le.trans hcontinues.length_le, fun client hclient core' hcore' => ?_⟩,
      yields_performAll _ _ _ _ hperform⟩
    have hwatcher : d.watcher = some client :=
      keeps_performAll (fun action _ => fades_perform action) _ _ _ hperform client hclient
    obtain ⟨haims, hasked⟩ := h.aims client hwatcher core hcore
    obtain ⟨core₀, hcore₀, hidle, -⟩ := h.watched client hwatcher
    cases hcore.symm.trans hcore₀
    obtain ⟨core₁, hcore₁, hidle', -⟩ := hout.1.watched client hclient
    cases hcore'.symm.trans hcore₁
    have hpolled : (d.polled q.1 input).core = some q.1 := rfl
    obtain ⟨core'', hcore'', hstate, -, -, htarget⟩ :=
      (kin_performAll _ _ _ _ hperform).core hpolled
    cases hcore'.symm.trans hcore''
    obtain ⟨target, htgt, hssid⟩ := Option.map_eq_some_iff.mp haims
    constructor
    · rcases Connection.ssid_poll hpoll hconnect hidle htgt with hst | ⟨target', htarget', heq⟩
      · exact absurd (hstate.trans hst) hidle'
      · rw [htarget, htarget', Option.map_some, heq, hssid]
    · intro hst
      rw [hstate] at hst
      have hmove := Connection.poll_move hpoll
      have hlease (lease : Dhcp.Lease) : input ≠ .lease (.acquired lease) := by
        rintro rfl
        cases Option.some.inj hpoll
        cases (Connection.onLease_acquired lease).1.symm.trans hst
      rcases (Connection.leaseStep_move (h.grounded core hcore) hlease hmove).configuring hst with
        hmem | hold
      · obtain ⟨more, hmore, hdone⟩ := performAll_done hperform
        have hstart := hdone _ ((Connection.mem_decisions rfl).mp hmem) trivial
        have hmore' : d'.journal = (d.journal ++ [.poll input]) ++ more := hmore
        have hle : since ≤ (d.journal ++ [Done.poll input]).length := by
          rw [List.length_append]
          exact h.since_le.trans (Nat.le_add_right _ _)
        rw [hmore', List.drop_append_of_le_length hle]
        exact List.mem_append_right _ hstart
      · exact (hcontinues.drop since).subset (hasked hold)

theorem feed_pursues {input : Input} (hconnect : ∀ ssid, input ≠ .command (.connect ssid)) :
    Keeps (Keeping (Pursues since ssid)) (feed input : EngineM S E Unit) := by
  intro d r d' h hd
  refine feed_ensures (fun d input hd hscan => ?_) (turn_pursues hd hconnect) (fun _ => hd) h
  obtain ⟨scan, rfl⟩ := hscan
  exact turn_pursues hd (by rintro ssid ⟨⟩)

/-- **What nobody asks for** leaves it on its way. -/
theorem borne_pursues : Borne (fun _ => False) (Pursues since ssid : Daemon S E → Prop) where
  allows := admits_pursues.toAllows
  feed input hinput := feed_pursues fun ssid => by
    rintro rfl
    exact hinput
  abort reason _ _ _ h hd := .of_unwatched (keen_abort h hd.housed)
    (hd.since_le.trans (conducts_continues.abort reason _ _ _ h).length_le) (abort_unwatched h)
  rebuilt device := by
    refine keeps_rebuilt admits_pursues.toAllows device fun profiles d r d' h hd => ?_
    obtain ⟨hkeen, hidle⟩ := keen_rebuilt device profiles _ _ _ h ⟨hd.1.toKeen, hd.2⟩
    rw [runs_modify_bind] at h
    refine ⟨.of_unwatched hkeen (hd.1.since_le.trans ?_) (hkeen.unwatched hidle), hidle⟩
    exact (conducts_continues.stops _ _ _ h).length_le
  removed d hd hidle := .of_unwatched (upheld_keen.removed d hd.toKeen hidle) hd.since_le
    (hd.unwatched hidle)
  retaken client hclient := hclient.elim

theorem upheld_pursues : Upheld (fun _ => False) (Pursues since ssid : Daemon S E → Prop) where
  toBorne := borne_pursues
  leaves := feed_pursues (by rintro ssid ⟨⟩)
  answered _ := by
    refine keeps_bind (keeps_modify fun d h => ?_) fun _ => feed_pursues (by rintro ssid ⟨⟩)
    exact h.keep ⟨rfl, rfl⟩ (fun _ => id) (continues_same rfl)

theorem handle_pursues {event : Event} (hasker : event.asker = none) :
    Keeps (Keeping (Pursues since ssid)) (handle event : EngineM S E Unit) := by
  refine upheld_pursues.handle_unasked admits_pursues.toExchanges
    (fun _ => feed_pursues (by rintro ssid ⟨⟩)) (fun client d r d' h hd => ?_) hasker
  have hfades := fades_forgetClient client _ _ _ h
  rw [(runs_modify.mp h).2] at hfades ⊢
  exact hd.keep ⟨rfl, rfl⟩ hfades (continues_same rfl)

end Pursues

/-! ## Requests -/

theorem continues_afterSupersede (reason : String) :
    Continues d (d.afterSupersede client reason) := by
  unfold afterSupersede
  split
  · exact continues_same rfl
  · split_ifs
    · exact continues_of rfl
    · exact continues_same rfl

theorem turn_pursued {since : ℕ} {ssid reason : String} (hd : d.Keen)
    (hsince : since ≤ d.journal.length) :
    Turn (Pursues since ssid) IsScan (d.afterSupersede client reason)
      (.command (.connect (octetsOf ssid))) := by
  intro core q x d' hcore hpoll hperform
  have hout := turn_keen_retaken (.inr ⟨_, rfl⟩) hd core q x d' hcore hpoll hperform
  have hcontinues : Continues d d' :=
    (continues_afterSupersede reason).trans (continues_performAll hperform)
  cases x with
  | error e =>
    intro r d'' habort
    refine .of_unwatched (hout r d'' habort) (hsince.trans ?_) (abort_unwatched habort)
    exact (hcontinues.trans (conducts_continues.abort e _ _ _ habort)).length_le
  | ok next =>
    refine ⟨⟨hout.1, hsince.trans hcontinues.length_le, fun _ _ core' hcore' => ?_⟩,
      yields_performAll _ _ _ _ hperform⟩
    have hpolled : ((d.afterSupersede client reason).polled q.1
        (.command (.connect (octetsOf ssid)))).core = some q.1 := rfl
    obtain ⟨core'', hcore'', hstate, -, -, htarget⟩ :=
      (kin_performAll _ _ _ _ hperform).core hpolled
    cases hcore'.symm.trans hcore''
    cases Option.some.inj hpoll
    refine ⟨htarget.trans (by simp [Connection.aimedAt]), fun hst => ?_⟩
    rw [hstate] at hst
    simp at hst

/-- **A client that asks to join** a network waits for that one. -/
theorem pursues_connect {ifindex : UInt32} {ssid : String} (hd : d.Keen)
    (h : Runs (connect ifindex ssid client) d (.ok ()) d') : Pursues d.journal.length ssid d' := by
  rcases runs_connect h with ⟨e, hr, -⟩ | ⟨-, -, d₁, hprepare, hretaken⟩
  · cases hr
  · have hd₁ : d₁.Keen := upheld_keen.toBorne.prepare ifindex _ _ _ hprepare hd
    refine retaken_ensures (fun d input hd hscan => ?_)
      (hd₁.isSome_core (.inr (yields_prepare ifindex _ _ _ hprepare)))
      (turn_pursued hd₁ (conducts_continues.hosts.prepare ifindex _ _ _ hprepare).length_le) hretaken
    obtain ⟨scan, rfl⟩ := hscan
    exact turn_pursues hd (by rintro ssid ⟨⟩)

theorem watcher_retaken {asker : ClientId} {reason : String} {input : Input} {r : Except String Unit}
    (h : Runs (do
      supersede asker reason
      feed input : EngineM S E Unit) d r d') (hclient : d'.watcher = some client) : asker = client := by
  have hwatcher := spans_fades.feed input _ _ _ (runs_retaken h).2 client hclient
  rw [afterSupersede_watcher] at hwatcher
  exact Option.some.inj hwatcher

theorem pursues_forget {asker : ClientId} {name : String} {r : Except String Bool}
    (h : Runs (forget name asker) d r d') (hclient : d'.watcher = some client)
    (htakes : r = .ok true → d.ssid = some name → asker ≠ client) :
    d.watcher = some client ∧ ∀ since ssid, Pursues since ssid d → Pursues since ssid d' := by
  obtain ⟨x, d₁, hdelete, hout⟩ := runs_forget h
  rcases hout with ⟨rfl, -⟩ | ⟨hr, -, hssid, hleave⟩
  · exact ⟨admits_fades.request _ _ _ _ _ hdelete client hclient,
      fun _ _ hd => admits_pursues.request _ _ _ _ _ hdelete hd⟩
  · rcases runs_disconnect hleave with ⟨e, hr, -⟩ | ⟨-, -, hretaken⟩
    · cases hr
    · rw [(admits_kin.request _ _ _ _ _ hdelete).ssid] at hssid
      exact absurd (watcher_retaken hretaken hclient) (htakes hr hssid)

/-- **A client that watches and has not just asked** watched before, and for the same network. -/
theorem pursues_handle {event : Event} {r : Except String Unit} (h : Runs (handle event) d r d')
    (hclient : d'.watcher = some client) (htakes : ¬ Takes d r client event) :
    d.watcher = some client ∧ ∀ since ssid, Pursues since ssid d → Pursues since ssid d' := by
  have hspans (d₁ d₂ : Daemon S E) (hfades : Fades d₁ d₂) (hd₁ : Fades d d₁) : Fades d d₂ :=
    IsTrans.trans _ _ _ hd₁ hfades
  have hunasked (hasker : event.asker = none) :
      d.watcher = some client ∧ ∀ since ssid, Pursues since ssid d → Pursues since ssid d' := by
    refine ⟨?_, fun _ _ hd => handle_pursues hasker _ _ _ h hd⟩
    refine spans_fades.handle_unasked hspans (fun gone => ?_) hasker _ _ _ h (refl d) client hclient
    exact (fades_forgetClient gone).mono hspans
  cases event with
  | connect ifindex name asker =>
    rcases runs_connect h with ⟨e, -, rfl | hprepare⟩ | ⟨hr, -, d₁, hprepare, hretaken⟩
    · exact ⟨hclient, fun _ _ hd => hd⟩
    · refine ⟨?_, fun _ _ hd => borne_pursues.prepare ifindex _ _ _ hprepare hd⟩
      exact (spans_fades.upheld hspans).toBorne.prepare ifindex _ _ _ hprepare (refl d) client hclient
    · exact absurd ⟨hr, watcher_retaken hretaken hclient⟩ htakes
  | disconnect name asker =>
    rcases runs_disconnect h with ⟨e, -, -, rfl⟩ | ⟨hr, -, hretaken⟩
    · exact ⟨hclient, fun _ _ hd => hd⟩
    · exact absurd ⟨hr, watcher_retaken hretaken hclient⟩ htakes
  | forget name asker =>
    rcases runs_bind.mp h with ⟨begun, d₁, hforget, hpure⟩ | ⟨e, hforget, -⟩
    · obtain ⟨hr, rfl⟩ := runs_pure.mp hpure
      exact pursues_forget hforget hclient fun _ hssid hasker => htakes ⟨hr, hasker, hssid⟩
    · exact pursues_forget hforget hclient (by rintro ⟨⟩)
  | _ => exact hunasked rfl

/-! ## Runs -/

/-- What a client asks for. -/
inductive Errand where
  /-- To join a network, when so much had been done. -/
  | join (ssid : String) (since : ℕ)
  | leave

/-- The engine takes what it was woken by without an error. -/
def Accepted (e : Entry (Daemon S E) (ℕ × Event) Unit) : Prop :=
  ∃ d', e.pre.wake e.input.1 e.input.2 = some (.ok (), d')

/-- The step begins a request of the client. -/
def Begins (client : ClientId) (e : Entry (Daemon S E) (ℕ × Event) Unit) : Errand → Prop
  | .join ssid since => Accepted e ∧ (∃ ifindex, e.input.2 = .connect ifindex ssid client) ∧
      since = e.pre.journal.length
  | .leave => Accepted e ∧ ∃ ssid, e.pre.ssid = some ssid ∧
      (e.input.2 = .disconnect ssid client ∨ e.input.2 = .forget ssid client)

/-- The core has come up for the network: it had been waiting for an address that was asked for since,
and all that is done of the lease was. -/
structure Reached (ssid : String) (since : ℕ) (d d' : Daemon S E) : Prop where
  connected : d'.state = .connected
  network : ∃ core, d'.core = some core ∧ core.target.map Target.ssid = some (octetsOf ssid)
  performed : ∃ d₁ core lease next, Continues d d₁ ∧ d₁.core = some core ∧
    core.state = .configuring ∧ .perform .startDhcp ∈ d₁.journal.drop since ∧
      Runs (performAll (core.onLease (.acquired lease)).2)
        (d₁.polled (core.onLease (.acquired lease)).1 (.lease (.acquired lease))) (.ok next) d'

/-- A client whose last request was to join is told of success only of that. -/
def Honoured (past : List (Entry (Daemon S E) (ℕ × Event) Unit))
    (e : Entry (Daemon S E) (ℕ × Event) Unit) : Prop :=
  ∀ client ssid since, Latest (Begins client) (past ++ [e]) (.join ssid since) →
    .send client .ok ∈ deeds e → Reached ssid since e.pre e.post

/-- While a client watches, the daemon is not shut down, no exchange left over reports a lease, and no
profile fails to be saved. -/
structure Sincere (d : Daemon S E) (event : Event) (done : List Done) : Prop where
  stays : d.watcher.isSome → event ≠ .shutDown
  leases : d.watcher.isSome → ∀ input, event.dhcpInput = some input → Leases d input →
    d.state = .configuring
  saves : d.watcher.isSome → ∀ profile, .call (.saveProfile profile) false ∉ done

/-- Whoever watches waits for the network it last asked for. -/
def Tracks (past : List (Entry (Daemon S E) (ℕ × Event) Unit)) (d : Daemon S E) : Prop :=
  d.Keen ∧ ∀ client ssid since, d.watcher = some client →
    Latest (Begins client) past (.join ssid since) → Pursues since ssid d

section Step

variable {past : List (Entry (Daemon S E) (ℕ × Event) Unit)} {woken : ℕ × Event}

theorem keen_handle (event : Event) : Keeps (Keeping Keen) (handle event : EngineM S E Unit) := by
  refine upheld_keen.toBorne.handle admits_keen.toExchanges (fun _ => keen_feed) (fun _ _ => trivial)
    (fun token value client _ => upheld_keen.secret token value client) (fun client _ => ?_)
    fun _ => upheld_keen.shutDown
  intro d r d' h hd
  have hfades := fades_forgetClient client _ _ _ h
  rw [(runs_modify.mp h).2] at hfades ⊢
  exact hd.keep ⟨rfl, rfl⟩ hfades

theorem Keen.later (h : d.Keen) (now : ℕ) : ({ d with now := now } : Daemon S E).Keen :=
  h.keep ⟨rfl, rfl⟩ fun _ => id

theorem Pursues.later {since : ℕ} {ssid : String} (h : Pursues since ssid d) (now : ℕ) :
    Pursues since ssid ({ d with now := now } : Daemon S E) :=
  h.keep ⟨rfl, rfl⟩ (fun _ => id) (continues_same rfl)

theorem begins_of_takes {r : Except String Unit}
    (hwake : d.wake woken.1 woken.2 = some (r, d')) (htakes : Takes d r client woken.2) :
    ∃ errand, Begins client (Machine.entry step d woken) errand := by
  have haccepted (hr : r = .ok ()) : Accepted (Machine.entry step d woken) := ⟨d', hr ▸ hwake⟩
  cases hevent : woken.2 with
  | connect ifindex ssid asker =>
    rw [hevent] at htakes
    obtain ⟨hr, rfl⟩ := htakes
    exact ⟨.join ssid d.journal.length, haccepted hr, ⟨ifindex, hevent⟩, rfl⟩
  | disconnect ssid asker =>
    rw [hevent] at htakes
    obtain ⟨hr, rfl⟩ := htakes
    have hrun : Runs (handle woken.2) { d with now := woken.1 } r d' := hwake
    rw [hevent] at hrun
    rcases runs_disconnect hrun with ⟨e, hr', -⟩ | ⟨-, hssid, -⟩
    · cases hr.symm.trans hr'
    · exact ⟨.leave, haccepted hr, ssid, hssid, .inl hevent⟩
  | forget ssid asker =>
    rw [hevent] at htakes
    obtain ⟨hr, rfl, hssid⟩ := htakes
    exact ⟨.leave, haccepted hr, ssid, hssid, .inr hevent⟩
  | _ =>
    rw [hevent] at htakes
    exact htakes.elim

theorem tracks_step (h : Tracks past d) :
    Tracks (past ++ [Machine.entry step d woken]) (step d woken).1 := by
  obtain ⟨hkeen, hpursues⟩ := h
  cases hwake : d.wake woken.1 woken.2 with
  | none =>
    have hstep : (step d woken).1 = d := by rw [step, hwake]; rfl
    rw [hstep]
    refine ⟨hkeen, fun client ssid since hclient hlatest => ?_⟩
    rcases (Machine.latest_concat _ _ _).mp hlatest with ⟨⟨d', haccepted⟩, -⟩ | ⟨-, hlatest⟩
    · cases hwake.symm.trans haccepted
    · exact hpursues client ssid since hclient hlatest
  | some p =>
    obtain ⟨r, d'⟩ := p
    have hrun : Runs (handle woken.2) { d with now := woken.1 } r d' := hwake
    rw [step_eq hrun]
    refine ⟨keen_handle _ _ _ _ hrun (hkeen.later _), fun client ssid since hclient hlatest => ?_⟩
    rcases (Machine.latest_concat _ _ _).mp hlatest with ⟨⟨d₁, haccepted⟩, ⟨ifindex, hevent⟩, hsince⟩ |
      ⟨hnone, hlatest⟩
    · cases hwake.symm.trans haccepted
      rw [show woken.2 = .connect ifindex ssid client from hevent] at hrun
      have hpursues := pursues_connect (hkeen.later woken.1) hrun
      rw [hsince]
      exact hpursues
    · have htakes : ¬ Takes { d with now := woken.1 } r client woken.2 := fun htakes => by
        obtain ⟨errand, hbegins⟩ := begins_of_takes hwake htakes
        exact hnone errand hbegins
      obtain ⟨hwatcher, hkeeps⟩ := pursues_handle hrun hclient htakes
      exact hkeeps _ _ ((hpursues client ssid since hwatcher hlatest).later _)

theorem oks_lt {e : Entry (Daemon S E) (ℕ × Event) Unit} (hok : .send client .ok ∈ deeds e)
    (hdeeds : e.post.journal = e.pre.journal ++ deeds e) : oks client e.pre < oks client e.post := by
  have hpos : 0 < (deeds e).countP (Done.isOk client) :=
    List.countP_pos_iff.mpr ⟨_, hok, Done.isOk_iff.mpr rfl⟩
  rw [oks, oks, hdeeds, List.countP_append]
  exact Nat.lt_add_of_pos_right hpos

/-- A lease for a core that waits for one, with all that is done of it. -/
theorem reached_of_acquired {since : ℕ} {ssid : String} (hd : Pursues since ssid d)
    (hwatcher : d.watcher = some client) (hstate : d.state = .configuring)
    (h : Acquired d d') : Reached ssid since d d' := by
  obtain ⟨d₁, core, lease, next, hkin, hcontinues, hcore, hrun⟩ := h
  obtain ⟨core₀, hcore₀, -⟩ := hd.watched client hwatcher
  obtain ⟨core₁, hcore₁, hstate₁, -, -, htarget₁⟩ := hkin.core hcore₀
  cases hcore.symm.trans hcore₁
  obtain ⟨haims, hasked⟩ := hd.aims client hwatcher core₀ hcore₀
  have hconfiguring : core₀.state = .configuring := by
    rw [Daemon.state, hcore₀] at hstate
    exact hstate
  have hstarted := (hcontinues.drop since).subset (hasked hconfiguring)
  obtain ⟨core', hcore', hstate', -, -, htarget'⟩ := (kin_performAll _ _ _ _ hrun).core rfl
  have hup := (Connection.onLease_acquired (c := core) lease).1
  refine ⟨?_, ⟨core', hcore', ?_⟩, d₁, core, lease, next, hcontinues, hcore,
    hstate₁.trans hconfiguring, hstarted, hrun⟩
  · rw [Daemon.state, hcore']
    exact hstate'.trans hup
  · obtain ⟨target, htgt, hssid⟩ := Option.map_eq_some_iff.mp (htarget₁.trans haims)
    have hidle : core.state ≠ .idle := by
      rw [hstate₁, hconfiguring]
      rintro ⟨⟩
    have hpoll : core.poll (E.draw d₁.world).1 (.lease (.acquired lease)) =
        some (core.onLease (.acquired lease)) := rfl
    rcases Connection.ssid_poll hpoll (by rintro ssid ⟨⟩) hidle htgt with hst | ⟨target', htgt', heq⟩
    · cases hup.symm.trans hst
    · rw [htarget', htgt', Option.map_some, heq, hssid]

theorem honoured_step (h : Tracks past d)
    (hsincere : Sincere d woken.2 (deeds (Machine.entry step d woken))) :
    Honoured past (Machine.entry step d woken) := by
  intro client ssid since hlatest hok
  have hlt := oks_lt hok (deeds_eq d woken)
  rw [Machine.entry_pre, Machine.entry_post] at hlt
  cases hwake : d.wake woken.1 woken.2 with
  | none =>
    have hstep : (step d woken).1 = d := by rw [step, hwake]; rfl
    rw [hstep] at hlt
    exact absurd hlt (lt_irrefl _)
  | some p =>
    obtain ⟨r, d'⟩ := p
    have hrun : Runs (handle woken.2) { d with now := woken.1 } r d' := hwake
    have hdeeds : deeds (Machine.entry step d woken) = d'.journal.drop d.journal.length := by
      rw [deeds, Machine.entry_post, step_eq hrun, Machine.entry_pre]
    rw [step_eq hrun] at hlt
    rw [Machine.entry_pre, Machine.entry_post, step_eq hrun]
    have hasked := (Machine.latest_concat _ _ _).mp hlatest
    have htakes (htakes : Takes { d with now := woken.1 } r client woken.2) :
        ∃ ifindex ssid, woken.2 = .connect ifindex ssid client := by
      rcases hasked with ⟨-, ⟨ifindex, hevent⟩, -⟩ | ⟨hnone, -⟩
      · exact ⟨ifindex, ssid, hevent⟩
      · obtain ⟨errand, hbegins⟩ := begins_of_takes hwake htakes
        exact absurd hbegins (hnone errand)
    rcases oks_handle (h.1.later woken.1) hrun htakes with hsame | ⟨hwatcher, hout⟩
    · exact absurd (hlt.trans_eq hsame) (lt_irrefl _)
    · have hwatched : d.watcher.isSome := by
        rw [show d.watcher = some client from hwatcher]
        rfl
      rcases hout with hshut | ⟨profile, hmem⟩ | ⟨input, hinput, hleases, hacquired⟩
      · exact absurd hshut (hsincere.stays hwatched)
      · exact absurd (hdeeds ▸ hmem) (hsincere.saves hwatched profile)
      · rcases hasked with ⟨-, ⟨ifindex, hevent⟩, -⟩ | ⟨-, hlatest⟩
        · rw [show woken.2 = .connect ifindex ssid client from hevent] at hinput
          cases hinput
        · obtain ⟨hconnected, hnetwork, hperformed⟩ := reached_of_acquired
            ((h.2 client ssid since hwatcher hlatest).later woken.1) hwatcher
            (hsincere.leases hwatched input hinput hleases) hacquired
          exact ⟨hconnected, hnetwork, hperformed⟩

end Step

theorem start_tracks (world : E.World) (nl rtnl : Bool) :
    Tracks [] (start world nl rtnl : Daemon S E) := by
  refine ⟨.of_unwatched rfl ?_ rfl, ?_⟩
  · rintro core ⟨⟩
  · rintro client ssid since ⟨⟩

/-- **Success is told of what it was asked for**, in a run whose steps are sincere. -/
theorem honoured_run (world : E.World) (nl rtnl : Bool) (events : List (ℕ × Event))
    (h : Along (fun _ e => Sincere e.pre e.input.2 (deeds e))
      (log step (start world nl rtnl : Daemon S E) events)) :
    Along Honoured (log step (start world nl rtnl : Daemon S E) events) :=
  Machine.along_of_inv (J := Tracks) (start_tracks world nl rtnl)
    (fun _ _ _ htracks _ => tracks_step htracks)
    (fun _ _ _ htracks hsincere => honoured_step htracks hsincere) events h

/-! ### Samples -/

/-- A profile is not saved. -/
def Done.isUnsaved : Done → Bool
  | .call (.saveProfile _) ok => !ok
  | _ => false

/-- Where the daemon stays, the exchange is waited for and every profile is saved, a step is sincere. -/
theorem sincere_of {event : Event} {done : List Done} (hstays : event ≠ .shutDown)
    (hleases : event.dhcpInput.isSome → d.state = .configuring)
    (hsaves : done.any Done.isUnsaved = false) : Sincere d event done := by
  refine ⟨fun _ => hstays, fun _ input hinput _ => hleases ?_, fun _ profile hmem => ?_⟩
  · rw [hinput]
    rfl
  · simpa [Done.isUnsaved] using List.any_eq_false.mp hsaves _ hmem

theorem honoured_run_sample : 0 < oks 7 (exec step sampleStart sampleLeased) ∧
    Along Honoured (log step sampleStart sampleLeased) := by
  refine ⟨by decide +kernel, honoured_run _ true true sampleLeased ?_⟩
  have hleases : (log step sampleStart sampleLeased).all (fun e =>
      !e.input.2.dhcpInput.isSome || decide (e.pre.state = .configuring)) = true := by decide +kernel
  have hsaves : (log step sampleStart sampleLeased).all
      (fun e => !(deeds e).any Done.isUnsaved) = true := by decide +kernel
  have hstays : (log step sampleStart sampleLeased).all (fun e => match e.input.2 with
      | .shutDown => false
      | _ => true) = true := by decide +kernel
  refine Machine.along_iff_forall.mpr fun e he => sincere_of (fun hshut => ?_) (fun hsome => ?_)
    (by simpa using List.all_eq_true.mp hsaves e he)
  · have hevent := List.all_eq_true.mp hstays e he
    rw [hshut] at hevent
    cases hevent
  · simpa [hsome] using List.all_eq_true.mp hleases e he

/-- **The daemon is shut down** while a client waits: it is told of success. -/
theorem honoured_fails :
    ¬ Along Honoured (log step sampleStart [(0, .connect 3 "n" 7), (1, .shutDown)]) := by
  intro h
  have hhonoured := h [Machine.entry step sampleStart (0, .connect 3 "n" 7)]
    (Machine.entry step (exec step sampleStart [(0, .connect 3 "n" 7)]) (1, .shutDown)) [] rfl
  have hok : (deeds (Machine.entry step (exec step sampleStart [(0, .connect 3 "n" 7)])
      (1, .shutDown))).any (Done.isOk 7) = true := by decide +kernel
  obtain ⟨done, hmem, hdone⟩ := List.any_eq_true.mp hok
  rw [Done.isOk_iff.mp hdone] at hmem
  have haccepted : (sampleStart.wake 0 (.connect 3 "n" 7)).any (fun p => p.1.isOk) = true := by
    decide +kernel
  have hstate : (step (exec step sampleStart [(0, .connect 3 "n" 7)]) (1, .shutDown)).1.state =
      .idle := by decide +kernel
  obtain ⟨⟨r, d'⟩, hwake, hr⟩ := (Option.any_eq_true _ _).mp haccepted
  cases r with
  | error e => cases hr
  | ok =>
    have hlatest : Latest (Begins 7) [Machine.entry step sampleStart (0, .connect 3 "n" 7),
        Machine.entry step (exec step sampleStart [(0, .connect 3 "n" 7)]) (1, .shutDown)]
        (.join "n" sampleStart.journal.length) := by
      refine ⟨[], _, [_], rfl, ⟨⟨d', hwake⟩, ⟨3, rfl⟩, rfl⟩, fun later hlater errand hbegins => ?_⟩
      rw [List.mem_singleton.mp hlater] at hbegins
      cases errand with
      | join ssid since => obtain ⟨-, ⟨_, hevent⟩, -⟩ := hbegins; cases hevent
      | leave => obtain ⟨-, _, -, hevent | hevent⟩ := hbegins <;> cases hevent
    cases (hhonoured 7 "n" _ hlatest hmem).connected.symm.trans hstate

end Daemon

end Caw
