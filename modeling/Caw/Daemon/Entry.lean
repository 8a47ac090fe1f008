import Caw.Daemon.Turns

/-!
# Invariants of the entry points

Every entry point of the engine is made of a few parts: what the system is asked for, inputs fed to the
core, the way back to idle, a new core, and a client that becomes the watcher or answers a prompt.

* **`yields_prepare`**: an interface is made ready with a core that is built for it;
* `Daemon.Borne`, `Daemon.Upheld`: what an invariant asks of each of these parts;
* **`Borne.prepare`**, `Borne.connect`, `Borne.onLink`, `Upheld.secret`, …: the entry points keep it;
* **`Borne.handle`**, `Upheld.handle_unasked`: and so does any event;
* `Spans`, **`Spans.upheld`**: a relation that holds across every part, and what it preserves.
-/

set_option autoImplicit false

namespace Caw

open Caw.Core

namespace Daemon

open Effect

variable {S : Platform} {E : System S} {d d' : Daemon S E}

theorem Rests.isIdle (h : d.Rests) : d.isIdle = true := by
  unfold Daemon.isIdle state
  cases hcore : d.core with
  | none => rfl
  | some core => simp [(h core hcore).1]

theorem Kin.state (h : Kin d d') : d'.state = d.state := by
  have hstate (d : Daemon S E) : d.state = ((Daemon.standing d).map Prod.fst).getD .idle := by
    cases hcore : d.core <;> simp [Daemon.state, Daemon.standing, hcore]
  rw [hstate, hstate, h.standing]

theorem Kin.isIdle (h : Kin d d') : d'.isIdle = d.isIdle := by
  rw [Daemon.isIdle, Daemon.isIdle, h.state]

theorem Kin.ssid (h : Kin d d') : d'.ssid = d.ssid := by
  have hssid (d : Daemon S E) :
      d.ssid = ((Daemon.standing d).bind fun standing => standing.2.2.2).map Text.lossy := by
    cases hcore : d.core with
    | none => simp [Daemon.ssid, Daemon.standing, hcore]
    | some core => simp [Daemon.ssid, Daemon.standing, hcore, Option.map_map, Function.comp_def]
  rw [hssid, hssid, h.standing]

theorem isSome_core_of_ssid {ssid : String} (h : d.ssid = some ssid) : d.core.isSome := by
  cases hcore : d.core with
  | none => simp [Daemon.ssid, hcore] at h
  | some core => rfl

/-! ## The device -/

theorem yields_rebuild (device : Device) :
    Yields (fun _ d => d.device.isSome) (rebuild device : EngineM S E Unit) := by
  have hbuild : Yields (fun _ d => d.device.isSome) (do
      cancelCoreTimers
      let profiles ← loadProfiles
      modify fun d => { d.withCore (.new device profiles) with device := some device, eapol := none }
      stopDhcp : EngineM S E Unit) := by
    refine yields_bind fun _ => yields_bind fun profiles d a d' h => ?_
    rw [runs_modify_bind] at h
    rw [(admits_kin.stopDhcp _ _ _ h).device]
    rfl
  refine yields_bind fun d => ?_
  cases d.isIdle with
  | true => exact hbuild
  | false => exact yields_bind fun _ => hbuild

theorem yields_prepare (ifindex : UInt32) :
    Yields (fun _ d => d.device.isSome) (prepare ifindex : EngineM S E Unit) := by
  have hopen : Keeps Kin (do
      if (← get).eapol.isNone then
        let _ ← request (.openEapol ifindex) fun e =>
          "cannot open the EAPOL socket (needs CAP_NET_RAW): " ++ e
        modify fun d => { d with eapol := some ifindex } : EngineM S E Unit) := by
    refine keeps_bind keeps_get fun d => ?_
    split_ifs
    · exact keeps_bind (admits_kin.request _ _) fun _ => keeps_modify fun d => admits_kin.eapol d _
    · exact keeps_pure _
  refine yields_bind fun device d a d' h => ?_
  rw [runs_get_bind] at h
  by_cases hdevice : d.device = some device
  · simp only [hdevice, ne_eq, not_true, if_false] at h
    rw [(hopen _ _ _ h).device, hdevice]
    rfl
  · simp only [hdevice, ne_eq, not_false_eq_true, if_true] at h
    rcases runs_bind.mp h with ⟨_, d₁, hrebuild, hrest⟩ | ⟨e, -, hr⟩
    · rw [(hopen _ _ _ hrest).device]
      exact yields_rebuild device _ _ _ hrebuild
    · cases hr

/-! ## Invariants -/

/-- An input that no request makes and no exchange reports. -/
def Unbidden : Input → Prop
  | .command (.connect _) | .command (.secret _) | .command .disconnect | .lease _ => False
  | _ => True

theorem Unbidden.ne_lease {input : Input} (h : Unbidden input) (event : LeaseEvent) :
    input ≠ .lease event := by
  rintro rfl
  exact h

/-- What an invariant asks of the parts the entry points but the answer to a prompt are made of, where
these clients make requests. -/
structure Borne (Asks : ClientId → Prop) (J : Daemon S E → Prop) : Prop where
  allows : Allows (Keeping J)
  feed : ∀ input, Unbidden input → Keeps (Keeping J) (feed input : EngineM S E Unit)
  abort : ∀ reason, Keeps (Keeping J) (abort reason : EngineM S E Unit)
  rebuilt : ∀ device, Keeps (Keeping fun d => J d ∧ d.isIdle = true) (do
    let profiles ← loadProfiles
    modify fun d => { d.withCore (.new device profiles) with device := some device, eapol := none }
    stopDhcp : EngineM S E Unit)
  removed : ∀ d, J d → d.isIdle = true → J { d with core := none, device := none }
  retaken : ∀ client, Asks client → ∀ reason command,
    (command = .disconnect ∨ ∃ ssid, command = .connect ssid) → ∀ d r d',
      d.core.isSome ∨ d.device.isSome → Runs (do
        supersede client reason
        Daemon.feed (.command command) : EngineM S E Unit) d r d' → J d → J d'

/-- What an invariant asks of the parts the entry points are made of, where these clients make
requests. -/
structure Upheld (Asks : ClientId → Prop) (J : Daemon S E → Prop) : Prop extends Borne Asks J where
  leaves : Keeps (Keeping J) (Daemon.feed (.command .disconnect) : EngineM S E Unit)
  answered : ∀ value, Keeps (Keeping J) (do
    modify fun d => { d with pendingSecret := none }
    Daemon.feed (.command (.secret value)) : EngineM S E Unit)

/-- It is no request and no news of a client or of the exchange. -/
def Event.Plain : Event → Prop
  | .autoconnect _ | .notification _ | .eapol _ | .timer _ | .link _ | .resume => True
  | _ => False

theorem keeps_idle {α : Type} {J : Daemon S E → Prop} {m : EngineM S E α} (hm : Keeps (Keeping J) m)
    (hkin : Keeps Kin m) : Keeps (Keeping fun d => J d ∧ d.isIdle = true) m :=
  fun _ _ _ hrun hd => ⟨hm _ _ _ hrun hd.1, (hkin _ _ _ hrun).isIdle.trans hd.2⟩

theorem keeps_rebuilt {J : Daemon S E → Prop} (hallows : Allows (Keeping J)) (device : Device)
    (h : ∀ profiles, Keeps (Keeping fun d => J d ∧ d.isIdle = true) (do
      modify fun d => { d.withCore (.new device profiles) with device := some device, eapol := none }
      stopDhcp : EngineM S E Unit)) :
    Keeps (Keeping fun d => J d ∧ d.isIdle = true) (do
      let profiles ← loadProfiles
      modify fun d => { d.withCore (.new device profiles) with device := some device, eapol := none }
      stopDhcp : EngineM S E Unit) :=
  keeps_bind (keeps_idle hallows.loadProfiles admits_kin.loadProfiles) h

namespace Borne

variable {Asks : ClientId → Prop} {J : Daemon S E → Prop} (hJ : Borne Asks J)
include hJ

theorem rebuild (device : Device) : Keeps (Keeping J) (rebuild device : EngineM S E Unit) := by
  intro d r d' h hd
  have hbuild (d₁ : Daemon S E) (hd₁ : J d₁) (hidle : d₁.isIdle = true)
      (h : Runs (do
        Daemon.cancelCoreTimers
        let profiles ← Daemon.loadProfiles
        modify fun d =>
          { d.withCore (.new device profiles) with device := some device, eapol := none }
        stopDhcp : EngineM S E Unit) d₁ r d') : J d' := by
    have hkeeps : Keeps (Keeping fun d => J d ∧ d.isIdle = true) (do
        Daemon.cancelCoreTimers
        let profiles ← Daemon.loadProfiles
        modify fun d =>
          { d.withCore (.new device profiles) with device := some device, eapol := none }
        stopDhcp : EngineM S E Unit) :=
      keeps_bind
        (keeps_idle hJ.allows.toCalls.cancelCoreTimers admits_kin.toCalls.cancelCoreTimers)
        fun _ => hJ.rebuilt device
    exact (hkeeps _ _ _ h ⟨hd₁, hidle⟩).1
  rw [Daemon.rebuild, runs_get_bind] at h
  cases hidle : d.isIdle with
  | true =>
    rw [hidle] at h
    exact hbuild d hd hidle h
  | false =>
    rw [hidle] at h
    rcases runs_bind.mp h with ⟨_, d₁, habort, hrest⟩ | ⟨e, habort, -⟩
    · exact hbuild d₁ (hJ.abort _ _ _ _ habort hd) (runs_abort habort).isIdle hrest
    · exact hJ.abort _ _ _ _ habort hd

/-- **The core for an interface.** -/
theorem prepare (ifindex : UInt32) : Keeps (Keeping J) (prepare ifindex : EngineM S E Unit) := by
  have hopen : Keeps (Keeping J) (do
      if (← get).eapol.isNone then
        let _ ← Daemon.request (.openEapol ifindex) fun e =>
          "cannot open the EAPOL socket (needs CAP_NET_RAW): " ++ e
        modify fun d => { d with eapol := some ifindex } : EngineM S E Unit) := by
    refine keeps_bind keeps_get fun d => ?_
    split_ifs
    · exact keeps_bind (hJ.allows.request _ _) fun _ => keeps_modify fun d => hJ.allows.eapol d _
    · exact keeps_pure _
  refine keeps_bind (hJ.allows.toCalls.describe _) fun device => keeps_bind keeps_get fun d => ?_
  by_cases hdevice : d.device = some device
  · simpa only [hdevice, ne_eq, not_true, if_false] using hopen
  · simpa only [hdevice, ne_eq, not_false_eq_true, if_true] using
      keeps_bind (hJ.rebuild device) fun _ => hopen

theorem connect {client : ClientId} (hclient : Asks client) (ifindex : UInt32) (ssid : String) :
    Keeps (Keeping J) (connect ifindex ssid client : EngineM S E Unit) := by
  intro d r d' h hd
  rcases runs_connect h with ⟨e, -, rfl | hprepare⟩ | ⟨-, -, d₁, hprepare, hretaken⟩
  · exact hd
  · exact hJ.prepare _ _ _ _ hprepare hd
  · exact hJ.retaken client hclient _ _ (.inr ⟨_, rfl⟩) _ _ _
      (.inr (yields_prepare ifindex _ _ _ hprepare)) hretaken (hJ.prepare _ _ _ _ hprepare hd)

theorem autoconnect (ifindex : UInt32) :
    Keeps (Keeping J) (autoconnect ifindex : EngineM S E Unit) :=
  keeps_bind (hJ.prepare _) fun _ => hJ.feed _ trivial

theorem disconnect {client : ClientId} (hclient : Asks client) (ssid : String) :
    Keeps (Keeping J) (disconnect ssid client : EngineM S E Unit) := by
  intro d r d' h hd
  rcases runs_disconnect h with ⟨e, -, -, rfl⟩ | ⟨-, hssid, hretaken⟩
  · exact hd
  · exact hJ.retaken client hclient _ _ (.inl rfl) _ _ _ (.inl (isSome_core_of_ssid hssid)) hretaken hd

theorem forget {client : ClientId} (hclient : Asks client) (ssid : String) :
    Keeps (Keeping J) (forget ssid client : EngineM S E Bool) := by
  intro d r d' h hd
  obtain ⟨x, d₁, hdelete, hout⟩ := runs_forget h
  have hd₁ := hJ.allows.request _ _ _ _ _ hdelete hd
  rcases hout with ⟨rfl, -⟩ | ⟨-, -, -, hleave⟩
  · exact hd₁
  · exact hJ.disconnect hclient ssid _ _ _ hleave hd₁

theorem onWireless (event : Nl80211.Event) :
    Keeps (Keeping J) (onWireless event : EngineM S E Unit) := hJ.feed _ trivial

theorem onNotification (body : Bytes) :
    Keeps (Keeping J) (onNotification body : EngineM S E Unit) := by
  unfold Daemon.onNotification
  split
  · exact keeps_pure _
  · exact hJ.onWireless _

theorem onEapol (frame : Bytes) : Keeps (Keeping J) (onEapol frame : EngineM S E Unit) :=
  hJ.feed _ trivial

theorem onTimer (id : TimerId) : Keeps (Keeping J) (onTimer id : EngineM S E Unit) :=
  hJ.feed _ trivial

theorem onLink (event : LinkEvent) : Keeps (Keeping J) (onLink event : EngineM S E Unit) := by
  refine keeps_bind keeps_get fun d => ?_
  cases d.ifindex with
  | none => exact keeps_pure _
  | some ifindex =>
    cases event with
    | changed changed up carrier =>
      dsimp only
      split_ifs
      · exact hJ.abort _
      · exact hJ.feed _ trivial
      · exact keeps_pure _
    | removed gone =>
      dsimp only
      split_ifs
      · intro d r d' h hd
        rcases runs_bind.mp h with ⟨_, d₁, habort, hmodify⟩ | ⟨e, habort, -⟩
        · obtain ⟨-, rfl⟩ := runs_modify.mp hmodify
          exact hJ.removed d₁ (hJ.abort _ _ _ _ habort hd) (runs_abort habort).isIdle
        · exact hJ.abort _ _ _ _ habort hd
      · exact keeps_pure _
    | addressChanged _ => exact keeps_pure _

theorem resume : Keeps (Keeping J) (resume : EngineM S E Unit) := by
  refine keeps_bind keeps_get fun d => ?_
  cases d.isIdle with
  | true => exact keeps_pure _
  | false => exact hJ.abort _

/-- The events that are no request and no news of a client or of the exchange. -/
theorem handle_plain {event : Event} (h : event.Plain) :
    Keeps (Keeping J) (handle event : EngineM S E Unit) := by
  cases event with
  | autoconnect ifindex => exact hJ.autoconnect ifindex
  | notification body => exact hJ.onNotification body
  | eapol frame => exact hJ.onEapol frame
  | timer id => exact hJ.onTimer id
  | link event => exact hJ.onLink event
  | resume => exact hJ.resume
  | _ => exact h.elim

end Borne

theorem keeps_shutDown {R : Daemon S E → Daemon S E → Prop} [IsPreorder (Daemon S E) R]
    (h : Keeps R (Daemon.feed (.command .disconnect) : EngineM S E Unit)) :
    Keeps R (shutDown : EngineM S E Unit) := by
  refine keeps_bind keeps_get fun d => ?_
  split_ifs
  · exact h
  · exact keeps_pure _

theorem Upheld.shutDown {Asks : ClientId → Prop} {J : Daemon S E → Prop} (hJ : Upheld Asks J) :
    Keeps (Keeping J) (shutDown : EngineM S E Unit) := keeps_shutDown hJ.leaves

section Reports

variable {R : Daemon S E → Daemon S E → Prop} [IsPreorder (Daemon S E) R]
  (hlease : ∀ event, Keeps R (Daemon.feed (.lease event) : EngineM S E Unit))
include hlease

theorem keeps_onDhcpDatagram (hdrives : ∀ input, Keeps R (driveDhcp input : EngineM S E _))
    (bytes : Bytes) : Keeps R (Daemon.onDhcpDatagram bytes : EngineM S E Unit) := by
  refine keeps_bind (hdrives _) fun event => ?_
  cases event with
  | none => exact keeps_pure _
  | some event => exact hlease event

theorem keeps_onDhcpTimer (hdrives : ∀ input, Keeps R (driveDhcp input : EngineM S E _))
    (hstops : Keeps R (stopDhcp : EngineM S E Unit)) (timer : Dhcp.Timer) :
    Keeps R (Daemon.onDhcpTimer timer : EngineM S E Unit) := by
  refine keeps_bind (hdrives _) fun event => ?_
  cases event with
  | none => exact keeps_pure _
  | some event =>
    dsimp only
    split_ifs
    · exact keeps_bind hstops fun _ => hlease _
    · exact hlease _

end Reports

theorem keeps_secret {R : Daemon S E → Daemon S E → Prop} [IsPreorder (Daemon S E) R] {value : String}
    (h : Keeps R (do
      modify fun d => { d with pendingSecret := none }
      Daemon.feed (.command (.secret value)) : EngineM S E Unit)) (token : UInt64)
    (client : ClientId) : Keeps R (secret token value client : EngineM S E Unit) := by
  refine keeps_bind keeps_get fun d => ?_
  cases d.pendingSecret with
  | none => exact keeps_throw _
  | some pending =>
    dsimp only
    split_ifs
    · exact h
    · exact keeps_throw _

/-- **The answer to a prompt.** -/
theorem Upheld.secret {Asks : ClientId → Prop} {J : Daemon S E → Prop} (hJ : Upheld Asks J)
    (token : UInt64) (value : String) (client : ClientId) :
    Keeps (Keeping J) (secret token value client : EngineM S E Unit) :=
  keeps_secret (hJ.answered value) token client

/-- The client that asks to join a network or to leave one. -/
def Event.asker : Event → Option ClientId
  | .connect _ _ client | .disconnect _ client | .forget _ client => some client
  | _ => none

/-- **An event**, given what becomes of the answer to a prompt, of a client that goes away and of the
end. -/
theorem Borne.handle {Asks : ClientId → Prop} {J : Daemon S E → Prop} (hJ : Borne Asks J)
    (hexchanges : Exchanges (Keeping J))
    (hlease : ∀ event, Keeps (Keeping J) (Daemon.feed (.lease event) : EngineM S E Unit)) {event : Event}
    (hasks : ∀ client, event.asker = some client → Asks client)
    (hanswer : ∀ token value client, event = .secret token value client →
      Keeps (Keeping J) (Daemon.secret token value client : EngineM S E Unit))
    (hleave : ∀ client, event = .forgetClient client →
      Keeps (Keeping J) (Daemon.forgetClient client : EngineM S E Unit))
    (hend : event = .shutDown → Keeps (Keeping J) (Daemon.shutDown : EngineM S E Unit)) :
    Keeps (Keeping J) (handle event : EngineM S E Unit) := by
  cases event with
  | connect ifindex ssid client => exact hJ.connect (hasks client rfl) ifindex ssid
  | disconnect ssid client => exact hJ.disconnect (hasks client rfl) ssid
  | forget ssid client => exact keeps_bind (hJ.forget (hasks client rfl) ssid) fun _ => keeps_pure _
  | secret token value client => exact hanswer _ _ _ rfl
  | datagram bytes => exact keeps_onDhcpDatagram hlease hexchanges.driveDhcp bytes
  | dhcpTimer timer => exact keeps_onDhcpTimer hlease hexchanges.driveDhcp hexchanges.stopDhcp timer
  | forgetClient client => exact hleave _ rfl
  | shutDown => exact hend rfl
  | _ => exact hJ.handle_plain trivial

/-- **An event that asks for no network**, given what becomes of a client that goes away. -/
theorem Upheld.handle_unasked {Asks : ClientId → Prop} {J : Daemon S E → Prop} (hJ : Upheld Asks J)
    (hexchanges : Exchanges (Keeping J))
    (hlease : ∀ event, Keeps (Keeping J) (Daemon.feed (.lease event) : EngineM S E Unit))
    (hleave : ∀ client, Keeps (Keeping J) (Daemon.forgetClient client : EngineM S E Unit))
    {event : Event} (hasker : event.asker = none) :
    Keeps (Keeping J) (handle event : EngineM S E Unit) := by
  refine hJ.toBorne.handle hexchanges hlease (fun client hclient => ?_)
    (fun token value client _ => hJ.secret token value client) (fun client _ => hleave client)
    fun _ => hJ.shutDown
  cases hasker.symm.trans hclient

/-! ## Relations -/

/-- What a relation that holds across every part of the engine permits, where these clients make
requests. -/
structure Spans (Asks : ClientId → Prop) (R : Daemon S E → Daemon S E → Prop) : Prop
    extends Admits R where
  polls : ∀ input, Polls R input
  performs : ∀ action, Keeps R (perform action : EngineM S E _)
  tells : ∀ reason, Keeps R (tellFailed reason : EngineM S E Unit)
  builds : ∀ d device profiles,
    R d { d.withCore (.new device profiles) with device := some device, eapol := none }
  removes : ∀ d, R d { d with core := none, device := none }
  supersedes : ∀ client, Asks client → ∀ reason,
    Keeps R (supersede client reason : EngineM S E Unit)
  takes : ∀ d, R d { d with pendingSecret := none }

theorem Spans.admits_keeping {Asks : ClientId → Prop} {R : Daemon S E → Daemon S E → Prop}
    {J : Daemon S E → Prop} (hR : Spans Asks R) (hJ : ∀ d d', R d d' → J d → J d') :
    Admits (Keeping J) where
  calls d op := hJ _ _ (hR.calls d op)
  timers d timers hsparing := hJ _ _ (hR.timers d timers hsparing)
  routes d run hrun := hJ _ _ (hR.routes d run hrun)
  dhcp d run := hJ _ _ (hR.dhcp d run)
  eapol d eapol := hJ _ _ (hR.eapol d eapol)
  profiles d profile := hJ _ _ (hR.profiles d profile)

section Spans

variable {Asks : ClientId → Prop} {R : Daemon S E → Daemon S E → Prop} [IsPreorder (Daemon S E) R]
  {J : Daemon S E → Prop}

theorem Spans.feed (hR : Spans Asks R) (input : Input) :
    Keeps R (feed input : EngineM S E Unit) := hR.toAdmits.feed hR.polls hR.performs hR.tells input

theorem Spans.abort (hR : Spans Asks R) (reason : String) :
    Keeps R (abort reason : EngineM S E Unit) :=
  hR.toAdmits.abort (hR.polls _) (fun action _ => hR.performs action) (hR.tells reason)

/-- **What such a relation preserves** is kept by the entry points. -/
theorem Spans.upheld (hR : Spans Asks R) (hJ : ∀ d d', R d d' → J d → J d') : Upheld Asks J where
  allows := (hR.admits_keeping hJ).toAllows
  feed input _ := (hR.feed input).mono hJ
  abort reason := (hR.abort reason).mono hJ
  rebuilt device := by
    refine keeps_rebuilt (hR.admits_keeping hJ).toAllows device fun profiles d r d' h hd => ?_
    rw [runs_modify_bind] at h
    exact ⟨hJ _ _ (IsTrans.trans _ _ _ (hR.builds d device profiles)
      (hR.toAdmits.stopDhcp _ _ _ h)) hd.1, (admits_kin.stopDhcp _ _ _ h).isIdle⟩
  removed d hd _ := hJ _ _ (hR.removes d) hd
  retaken client hclient reason command _ d r d' _ h := hJ _ _
    (keeps_bind (hR.supersedes client hclient reason) (fun _ => hR.feed _) _ _ _ h)
  answered value := (keeps_bind (keeps_modify hR.takes) fun _ => hR.feed _).mono hJ
  leaves := (hR.feed _).mono hJ

/-- What such a relation preserves is kept by an event that asks for no network. -/
theorem Spans.handle_unasked (hR : Spans Asks R) (hJ : ∀ d d', R d d' → J d → J d')
    (hleave : ∀ client, Keeps (Keeping J) (Daemon.forgetClient client : EngineM S E Unit))
    {event : Event} (hasker : event.asker = none) :
    Keeps (Keeping J) (handle event : EngineM S E Unit) :=
  (hR.upheld hJ).handle_unasked (hR.admits_keeping hJ).toExchanges (fun _ => (hR.feed _).mono hJ)
    hleave hasker

end Spans

end Daemon

end Caw
