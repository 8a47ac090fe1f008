import Caw.Daemon.Entry

/-!
# What holds across every event

A relation between the daemon before and after is kept by whatever wakes it, once it is kept by the
parts the engine is made of. The exchange, the profiles on disk and a new core are parts taken whole.

* `Daemon.Hosts`, **`Hosts.handle`**: what such a relation asks of the inputs fed and of the other parts,
  and the events it is then kept by;
* `Daemon.Conducts`: what it asks where every input is fed, with `Admits.conducts` where all it forbids is
  little;
* `Conducts.perform`, `Conducts.abort`, `Conducts.feed`: it is kept by actions and by inputs;
* **`Conducts.handle`**: and by every event.
-/

set_option autoImplicit false
set_option linter.unusedSectionVars false

namespace Caw

open Caw.Core

namespace Daemon

open Effect

variable {S : Platform} {E : System S}

/-- What a relation asks of the inputs that are fed and of the other parts. -/
structure Hosts (F : Input → Prop) (R : Daemon S E → Daemon S E → Prop) : Prop
    extends Calls R, Speaks R where
  feeds : ∀ input, F input → Keeps R (feed input : EngineM S E Unit)
  aborts : ∀ reason, Keeps R (abort reason : EngineM S E Unit)
  watches : ∀ d client, R d { d with watcher := some client }
  removes : ∀ d, R d { d with core := none, device := none }
  rebuilds : ∀ device, Keeps R (do
    let profiles ← loadProfiles
    modify fun d => { d.withCore (.new device profiles) with device := some device, eapol := none }
    stopDhcp : EngineM S E Unit)

/-- The event is handled without the exchange, and without a profile deleted. -/
def Event.Direct : Event → Prop
  | .forget .. | .datagram _ | .dhcpTimer _ => False
  | _ => True

/-- An input such an event may feed. -/
def Event.MayFeed (event : Event) (input : Input) : Prop :=
  (∀ news, input ≠ .lease news) ∧ ∀ octets, input = .command (.connect octets) →
    ∃ ifindex ssid client, event = .connect ifindex ssid client ∧ octets = octetsOf ssid

namespace Hosts

variable {F : Input → Prop} {R : Daemon S E → Daemon S E → Prop} [IsPreorder (Daemon S E) R]
  (hR : Hosts F R)
include hR

/-! ## Entry points -/

theorem rebuild (device : Device) : Keeps R (rebuild device : EngineM S E Unit) := by
  have hbuild : Keeps R (do
      Daemon.cancelCoreTimers
      let profiles ← Daemon.loadProfiles
      modify fun d => { d.withCore (.new device profiles) with device := some device, eapol := none }
      stopDhcp : EngineM S E Unit) :=
    keeps_bind hR.cancelCoreTimers fun _ => hR.rebuilds device
  refine keeps_bind keeps_get fun d => ?_
  cases d.isIdle with
  | true => exact hbuild
  | false => exact keeps_bind (hR.aborts _) fun _ => hbuild

theorem prepare (ifindex : UInt32) : Keeps R (prepare ifindex : EngineM S E Unit) := by
  have hopen : Keeps R (do
      if (← get).eapol.isNone then
        let _ ← Daemon.request (.openEapol ifindex) fun e =>
          "cannot open the EAPOL socket (needs CAP_NET_RAW): " ++ e
        modify fun d => { d with eapol := some ifindex } : EngineM S E Unit) := by
    refine keeps_bind keeps_get fun d => ?_
    split_ifs
    · exact keeps_bind (hR.request rfl _) fun _ => keeps_modify fun d => hR.eapol d _
    · exact keeps_pure _
  refine keeps_bind (hR.describe _) fun device => keeps_bind keeps_get fun d => ?_
  by_cases hdevice : d.device = some device
  · simpa only [hdevice, ne_eq, not_true, if_false] using hopen
  · simpa only [hdevice, ne_eq, not_false_eq_true, if_true] using
      keeps_bind (hR.rebuild device) fun _ => hopen

theorem takes : Keeps R (modify fun d => { d with pendingSecret := none } : EngineM S E Unit) :=
  keeps_modify fun d => hR.prompts d d.nextToken none

theorem supersede (client : ClientId) (reason : String) :
    Keeps R (supersede client reason : EngineM S E Unit) := by
  refine keeps_bind keeps_get fun d => keeps_bind (keeps_modify fun d => hR.watches d client) fun _ => ?_
  cases d.watcher with
  | none => exact hR.takes
  | some previous =>
    dsimp only
    split_ifs
    · exact keeps_bind (hR.send _ _) fun _ => hR.takes
    · exact hR.takes

theorem connect (ifindex : UInt32) (ssid : String) (client : ClientId)
    (hF : F (.command (.connect (octetsOf ssid)))) :
    Keeps R (connect ifindex ssid client : EngineM S E Unit) := by
  have hjoin : Keeps R (do
      Daemon.prepare ifindex
      Daemon.supersede client "superseded by another connect request"
      Daemon.feed (.command (.connect (octetsOf ssid))) : EngineM S E Unit) :=
    keeps_bind (hR.prepare _) fun _ => keeps_bind (hR.supersede _ _) fun _ => hR.feeds _ hF
  unfold Daemon.connect
  split_ifs
  · exact keeps_bind (keeps_throw _) fun _ => hjoin
  · exact hjoin

theorem disconnect (ssid : String) (client : ClientId) (hF : F (.command .disconnect)) :
    Keeps R (disconnect ssid client : EngineM S E Unit) := by
  have hleave : Keeps R (do
      Daemon.supersede client "superseded by a disconnect request"
      Daemon.feed (.command .disconnect) : EngineM S E Unit) :=
    keeps_bind (hR.supersede _ _) fun _ => hR.feeds _ hF
  refine keeps_bind keeps_get fun d => ?_
  cases d.ssid with
  | none => exact keeps_throw _
  | some current =>
    dsimp only
    split_ifs
    · exact keeps_bind (keeps_throw _) fun _ => hleave
    · exact hleave

theorem forget {ssid : String} (client : ClientId)
    (hdeletes : Keeps R (request (.deleteProfile (octetsOf ssid)) id : EngineM S E Bool))
    (hF : F (.command .disconnect)) : Keeps R (forget ssid client : EngineM S E Bool) := by
  refine keeps_bind hdeletes fun deleted => keeps_bind keeps_get fun d => ?_
  dsimp only
  split_ifs
  · exact keeps_bind (hR.disconnect _ _ hF) fun _ => keeps_pure _
  · exact keeps_bind (keeps_throw _) fun _ => keeps_pure _
  · exact keeps_pure _

theorem secret (token : UInt64) (value : String) (client : ClientId)
    (hF : F (.command (.secret value))) :
    Keeps R (secret token value client : EngineM S E Unit) :=
  keeps_secret (keeps_bind hR.takes fun _ => hR.feeds _ hF) token client

theorem onNotification (body : Bytes) (hF : ∀ event, F (.wireless event)) :
    Keeps R (onNotification body : EngineM S E Unit) := by
  unfold Daemon.onNotification
  split
  · exact keeps_pure _
  · exact hR.feeds _ (hF _)

theorem onLink (event : LinkEvent) (hF : ∀ event, F (.wireless event)) :
    Keeps R (onLink event : EngineM S E Unit) := by
  refine keeps_bind keeps_get fun d => ?_
  cases d.ifindex with
  | none => exact keeps_pure _
  | some ifindex =>
    cases event with
    | changed changed up carrier =>
      dsimp only
      split_ifs
      · exact hR.aborts _
      · exact hR.feeds _ (hF _)
      · exact keeps_pure _
    | removed gone =>
      dsimp only
      split_ifs
      · exact keeps_bind (hR.aborts _) fun _ => keeps_modify hR.removes
      · exact keeps_pure _
    | addressChanged _ => exact keeps_pure _

theorem forgetClient (client : ClientId) : Keeps R (forgetClient client : EngineM S E Unit) := by
  refine keeps_modify fun d => ?_
  have hwatcher : R d { d with watcher := if d.watcher = some client then none else d.watcher } := by
    split_ifs
    · exact hR.unwatched d
    · exact refl d
  exact IsTrans.trans _ _ _ hwatcher (hR.prompts _ d.nextToken _)

theorem resume : Keeps R (resume : EngineM S E Unit) := by
  refine keeps_bind keeps_get fun d => ?_
  cases d.isIdle with
  | true => exact keeps_pure _
  | false => exact hR.aborts _

/-- **An event** that needs neither the exchange nor the store. -/
theorem handle {event : Event} (hdirect : event.Direct) (hF : ∀ input, event.MayFeed input → F input) :
    Keeps R (handle event : EngineM S E Unit) := by
  have hfeeds (input : Input) (hlease : ∀ news, input ≠ .lease news)
      (hconnect : ∀ octets, input ≠ .command (.connect octets)) : F input :=
    hF input ⟨hlease, fun octets heq => absurd heq (hconnect octets)⟩
  cases event with
  | connect ifindex ssid client =>
    refine hR.connect ifindex ssid client (hF _ ⟨by rintro _ ⟨⟩, fun octets heq => ?_⟩)
    cases heq
    exact ⟨ifindex, ssid, client, rfl, rfl⟩
  | autoconnect ifindex =>
    exact keeps_bind (hR.prepare ifindex) fun _ =>
      hR.feeds _ (hfeeds _ (by rintro _ ⟨⟩) (by rintro _ ⟨⟩))
  | disconnect ssid client =>
    exact hR.disconnect ssid client (hfeeds _ (by rintro _ ⟨⟩) (by rintro _ ⟨⟩))
  | secret token value client =>
    exact hR.secret token value client (hfeeds _ (by rintro _ ⟨⟩) (by rintro _ ⟨⟩))
  | notification body =>
    exact hR.onNotification body fun _ => hfeeds _ (by rintro _ ⟨⟩) (by rintro _ ⟨⟩)
  | eapol frame => exact hR.feeds _ (hfeeds _ (by rintro _ ⟨⟩) (by rintro _ ⟨⟩))
  | timer id => exact hR.feeds _ (hfeeds _ (by rintro _ ⟨⟩) (by rintro _ ⟨⟩))
  | link event => exact hR.onLink event fun _ => hfeeds _ (by rintro _ ⟨⟩) (by rintro _ ⟨⟩)
  | forgetClient client => exact hR.forgetClient client
  | resume => exact hR.resume
  | shutDown => exact keeps_shutDown (hR.feeds _ (hfeeds _ (by rintro _ ⟨⟩) (by rintro _ ⟨⟩)))
  | _ => exact hdirect.elim

end Hosts

/-- What a relation that holds across every event asks of the parts. -/
structure Conducts (R : Daemon S E → Daemon S E → Prop) : Prop extends Calls R, Speaks R where
  polls : ∀ input, Polls R input
  performs : ∀ d action, R d (d.record (.perform action))
  watches : ∀ d client, R d { d with watcher := some client }
  removes : ∀ d, R d { d with core := none, device := none }
  rebuilds : ∀ device, Keeps R (do
    let profiles ← loadProfiles
    modify fun d => { d.withCore (.new device profiles) with device := some device, eapol := none }
    stopDhcp : EngineM S E Unit)
  saves : ∀ profile, Keeps R (saveProfile profile : EngineM S E Unit)
  deletes : ∀ ssid, Keeps R (request (.deleteProfile ssid) id : EngineM S E Bool)
  drops : Keeps R (dropProbeRoute : EngineM S E Unit)
  starts : Keeps R (startDhcp : EngineM S E (Option Input))
  stops : Keeps R (stopDhcp : EngineM S E Unit)
  drives : ∀ input, Keeps R (driveDhcp input : EngineM S E (Option LeaseEvent))

namespace Conducts

variable {R : Daemon S E → Daemon S E → Prop} [IsPreorder (Daemon S E) R] (hR : Conducts R)
include hR

/-! ## Actions and inputs -/

theorem failed (failure : Failure) : Keeps R (failed failure : EngineM S E Unit) := by
  refine keeps_bind (hR.tellFailed _) fun _ => ?_
  split_ifs
  · exact keeps_bind (keeps_modify fun d => hR.eapol d none) fun _ => hR.stops
  · exact keeps_pure _

theorem perform (action : Core.Action) : Keeps R (perform action : EngineM S E _) := by
  by_cases hquiet : Quiet action
  · exact hR.perform_quiet (fun d => hR.performs d action) hquiet hR.drops fun profile _ =>
      hR.saves profile
  refine keeps_bind (keeps_modify fun d => hR.performs d action) fun _ => ?_
  cases action with
  | startDhcp => exact hR.starts
  | requestSecret prompt => exact keeps_bind (hR.requestSecret _) fun _ => keeps_pure _
  | notify state => exact keeps_bind (hR.notify _) fun _ => keeps_pure _
  | failed failure => exact keeps_bind (hR.failed _) fun _ => keeps_pure _
  | _ => exact absurd trivial hquiet

theorem abort (reason : String) : Keeps R (abort reason : EngineM S E Unit) :=
  hR.toCalls.abort (hR.polls _) (fun action _ => hR.perform action) hR.stops (hR.tellFailed reason)

theorem feed (input : Input) : Keeps R (feed input : EngineM S E Unit) :=
  hR.toCalls.feed hR.polls hR.perform hR.stops hR.tellFailed input

theorem hosts : Hosts (fun _ => True) R where
  toCalls := hR.toCalls
  toSpeaks := hR.toSpeaks
  feeds input _ := hR.feed input
  aborts := hR.abort
  watches := hR.watches
  removes := hR.removes
  rebuilds := hR.rebuilds

/-- **Every event.** -/
theorem handle (event : Event) : Keeps R (handle event : EngineM S E Unit) := by
  cases event with
  | forget ssid client =>
    exact keeps_bind (hR.hosts.forget client (hR.deletes _) trivial) fun _ => keeps_pure _
  | datagram bytes => exact keeps_onDhcpDatagram (fun _ => hR.feed _) hR.drives bytes
  | dhcpTimer timer => exact keeps_onDhcpTimer (fun _ => hR.feed _) hR.drives hR.stops timer
  | _ => exact hR.hosts.handle trivial fun _ _ => trivial

end Conducts

theorem Admits.conducts {R : Daemon S E → Daemon S E → Prop} [IsPreorder (Daemon S E) R]
    (hR : Admits R) (hS : Speaks R) (hpolls : ∀ input, Polls R input)
    (hperforms : ∀ d action, R d (d.record (.perform action)))
    (hwatches : ∀ d client, R d { d with watcher := some client })
    (hremoves : ∀ d, R d { d with core := none, device := none })
    (hbuilds : ∀ d device profiles,
      R d { d.withCore (.new device profiles) with device := some device, eapol := none }) :
    Conducts R where
  toCalls := hR.toCalls
  toSpeaks := hS
  polls := hpolls
  performs := hperforms
  watches := hwatches
  removes := hremoves
  rebuilds device := keeps_bind hR.loadProfiles fun profiles =>
    keeps_bind (keeps_modify fun d => hbuilds d device profiles) fun _ => hR.stopDhcp
  saves := hR.saveProfile
  deletes _ := hR.request _ _
  drops := hR.toSpares.dropProbeRoute
  starts := hR.startDhcp
  stops := hR.stopDhcp
  drives := hR.driveDhcp

end Daemon

end Caw
