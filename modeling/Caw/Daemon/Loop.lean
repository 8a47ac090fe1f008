import Caw.Daemon.Entry
import Caw.Daemon.Reactor

/-!
# Invariants of the loop

The loop runs the engine, answers clients, and keeps the scans they wait for.

* `Reactor.Hosted`: what an invariant of the loop asks of the engine and of these parts;
* **`Hosted.handle`**, `Hosted.onWireless`, `Hosted.onTimer`, …: the handlers keep it;
* **`Hosted.dispatch`**: any event does but the coming and going of clients, where those it
  `Addresses` may be answered;
* `forgotten`, **`step_reap`**: what becomes of a loop whose clients go away.
-/

set_option autoImplicit false
set_option linter.unusedSectionVars false

namespace Caw

open Caw.Core Daemon

namespace Daemon

open Effect

variable {S : Platform} {E : System S}

/-! ## What a request asks of the system -/

namespace Allows

variable {R : Daemon S E → Daemon S E → Prop} [IsPreorder (Daemon S E) R] (hR : Allows R)
include hR

theorem rtnlPort (describe : String → String) : Keeps R (rtnlPort describe : EngineM S E _) := by
  refine keeps_bind keeps_get fun d => ?_
  split_ifs
  · exact keeps_pure _
  · exact keeps_throw _

theorem portsSummary (only : Option String) : Keeps R (portsSummary only : EngineM S E _) := by
  refine keeps_bind (hR.rtnlPort _) fun _ => keeps_bind (hR.request _ _) fun links =>
    keeps_bind (hR.request _ _) fun addresses => ?_
  cases only with
  | none => exact keeps_pure _
  | some name =>
    dsimp only
    split_ifs
    · exact keeps_throw _
    · exact keeps_pure _

theorem setLinkUp (ifindex : UInt32) (up : Bool) (describe : String → String) :
    Keeps R (setLinkUp ifindex up describe : EngineM S E _) :=
  keeps_bind (hR.rtnlPort _) fun _ => keeps_bind (hR.request _ _) fun _ => keeps_pure _

theorem disablePowerSave (ifindex : UInt32) :
    Keeps R (disablePowerSave ifindex : EngineM S E _) := by
  refine keeps_bind keeps_get fun d => ?_
  split_ifs
  · exact keeps_bind (hR.ask _) fun _ => keeps_pure _
  · exact keeps_pure _

theorem wirelessInterface (port : Option String) :
    Keeps R (wirelessInterface port : EngineM S E _) := by
  refine keeps_bind hR.toCalls.nlPort fun _ => keeps_bind (hR.request _ _) fun interfaces => ?_
  cases port with
  | some name =>
    dsimp only
    split
    · exact keeps_pure _
    · exact keeps_throw _
  | none =>
    dsimp only
    split
    · exact keeps_throw _
    · exact keeps_pure _
    · exact keeps_throw _

theorem wirelessIfindexUp (port : Option String) :
    Keeps R (wirelessIfindexUp port : EngineM S E _) :=
  keeps_bind (hR.wirelessInterface _) fun _ => keeps_bind (hR.setLinkUp _ _ _) fun _ =>
    keeps_bind (hR.disablePowerSave _) fun _ => keeps_pure _

theorem beginScan (interface : Interface) : Keeps R (beginScan interface : EngineM S E _) := by
  refine keeps_bind hR.toCalls.nlPort fun _ => keeps_bind (hR.ask _) fun x => ?_
  cases x with
  | ok => exact keeps_pure _
  | error e =>
    dsimp only
    split_ifs
    · exact keeps_pure _
    · exact keeps_throw _
    · exact keeps_throw _

theorem networks (ifindex : UInt32) : Keeps R (networks ifindex : EngineM S E _) :=
  keeps_bind hR.toCalls.nlPort fun _ => keeps_bind (hR.request _ _) fun _ =>
    keeps_bind (hR.request _ _) fun _ => keeps_pure _

theorem orEmpty {α : Type} (op : Op) (shown : op.Reply → α) (empty : α) :
    Keeps R (orEmpty op shown empty : EngineM S E α) := by
  refine keeps_bind (hR.ask _) fun x => ?_
  cases x with
  | ok => exact keeps_pure _
  | error => exact keeps_pure _

theorem status : Keeps R (status : EngineM S E _) := by
  refine keeps_bind keeps_get fun d => ?_
  split
  · exact keeps_bind (hR.orEmpty _ _ _) fun _ => keeps_bind (hR.orEmpty _ _ _) fun _ => keeps_pure _
  · exact keeps_pure _

end Allows

end Daemon

namespace Reactor

open Effect

variable {S : Platform} {E : System S}

/-- What an invariant of the loop asks of the engine and of the parts the loop is made of, where
`Asks` are the clients that make requests and `Hears` those that are answered. -/
structure Hosted (Asks Hears : ClientId → Prop) {ι : Type} (J : ι → Daemon S E → Prop)
    (I : Reactor S E → Prop) : Prop where
  upheld : ∀ k, Upheld Asks (J k)
  admits : ∀ k, Admits (Keeping (J k))
  lease : ∀ k event, Keeps (Keeping (J k)) (feed (.lease event) : EngineM S E Unit)
  engine : ∀ {α : Type} (m : EngineM S E α), (∀ k, Keeps (Keeping (J k)) m) →
    Keeps (Keeping I) (withEngine m)
  fields : ∀ r r' : Reactor S E, r'.engine = r.engine → r'.clients = r.clients →
    r'.nextId = r.nextId → r'.scans = r.scans → I r → I r'
  reply : ∀ client, Hears client → ∀ message, Keeps (Keeping I) (reply client message)
  opens : ∀ client, Hears client → ∀ ifindex, Keeps (Keeping I) (do
    modify fun r => { r with scans := r.scans ++ [{ client, ifindex }] }
    withEngine (arm (.scan client) scanTimeout) : ReactorM S E Unit)
  finish : ∀ client, Hears client → ∀ response, Keeps (Keeping I) (finishScan client response)

/-- The event may answer the client, besides whoever watches. -/
def Addresses (r : Reactor S E) (event : Event) (client : ClientId) : Prop :=
  match event with
  | .request sender _ => client = sender
  | .wireless body => ∃ wiphy ifindex, (Nl80211.Event.decode body = some (.scanComplete wiphy ifindex) ∨
      Nl80211.Event.decode body = some (.scanAborted wiphy ifindex)) ∧ client ∈ r.waitingOn ifindex
  | .timer => .scan client ∈ r.engine.timers.expired r.engine.now
  | .suspendClock _ => client ∈ r.scans.map PendingScan.client
  | _ => False

namespace Hosted

variable {Asks Hears : ClientId → Prop} {ι : Type} {J : ι → Daemon S E → Prop}
  {I : Reactor S E → Prop} (hI : Hosted Asks Hears J I)
include hI

theorem permitted {α : Type} {m : EngineM S E α}
    (hm : ∀ {R : Daemon S E → Daemon S E → Prop} [IsPreorder (Daemon S E) R], Allows R → Keeps R m) :
    Keeps (Keeping I) (withEngine m) := hI.engine m fun k => hm (hI.upheld k).allows

theorem field {f : Reactor S E → Reactor S E} (hengine : ∀ r, (f r).engine = r.engine)
    (hclients : ∀ r, (f r).clients = r.clients) (hnext : ∀ r, (f r).nextId = r.nextId)
    (hscans : ∀ r, (f r).scans = r.scans) : Keeps (Keeping I) (modify f : ReactorM S E Unit) :=
  keeps_modify fun r => hI.fields r (f r) (hengine r) (hclients r) (hnext r) (hscans r)

theorem orError {client : ClientId} (hears : Hears client) {m : ReactorM S E Unit}
    (hm : Keeps (Keeping I) m) : Keeps (Keeping I) (orError client m) := by
  refine keeps_bind (keeps_attempt hm) fun x => ?_
  cases x with
  | ok => exact keeps_pure _
  | error => exact hI.reply client hears _

theorem answer {α : Type} {client : ClientId} (hears : Hears client) {m : EngineM S E α}
    {response : α → Message} (hm : Keeps (Keeping I) (withEngine m)) :
    Keeps (Keeping I) (answer client m response) :=
  hI.orError hears (keeps_bind hm fun _ => hI.reply client hears _)

theorem mayChangeState (client : ClientId) : Keeps (Keeping I) (mayChangeState client) := by
  refine keeps_bind keeps_get fun r => ?_
  split_ifs
  · refine keeps_bind (hI.permitted fun hR => hR.ask _) fun x => ?_
    cases x with
    | ok => exact keeps_pure _
    | error => exact keeps_pure _
  · exact keeps_pure _

theorem startScan {client : ClientId} (hears : Hears client) (port : Option String) :
    Keeps (Keeping I) (startScan client port) := by
  refine keeps_bind (hI.permitted fun hR => hR.wirelessInterface _) fun interface =>
    keeps_bind (hI.permitted fun hR => hR.beginScan _) fun _ => ?_
  have hbegun : Keeps (Keeping I) (do
      (do
        modify fun r => { r with scans := r.scans ++ [{ client, ifindex := interface.ifindex }] }
        withEngine (arm (.scan client) scanTimeout))
      Reactor.reply client .scanning : ReactorM S E Unit) :=
    keeps_bind (hI.opens client hears _) fun _ => hI.reply client hears _
  simpa only [bind_assoc] using hbegun

theorem finishScans {response : Message} {clients : List ClientId}
    (hears : ∀ client ∈ clients, Hears client) :
    Keeps (Keeping I) (finishScans response clients) := by
  induction clients with
  | nil => exact keeps_pure _
  | cons client rest ih =>
    exact keeps_bind (hI.finish client (hears client List.mem_cons_self) _) fun _ =>
      ih fun c hc => hears c (List.mem_cons_of_mem _ hc)

theorem setPortUp (name : String) (up : Bool) : Keeps (Keeping I) (setPortUp name up) := by
  refine keeps_bind (hI.permitted fun hR => hR.rtnlPort _) fun _ =>
    keeps_bind (hI.permitted fun hR => hR.request _ _) fun link => ?_
  cases link with
  | none => exact keeps_throw _
  | some link =>
    refine keeps_bind (hI.permitted fun hR => hR.setLinkUp _ _ _) fun _ => ?_
    split_ifs
    · exact keeps_bind (hI.field (fun _ => rfl) (fun _ => rfl) (fun _ => rfl) fun _ => rfl) fun _ =>
        hI.permitted fun hR => hR.disablePowerSave _
    · exact hI.field (fun _ => rfl) (fun _ => rfl) (fun _ => rfl) fun _ => rfl
    · exact keeps_pure _

theorem handlePermitted {client : ClientId} (asks : Asks client) (hears : Hears client)
    (request : Request) : Keeps (Keeping I) (handlePermitted client request) := by
  cases request with
  | listPorts => exact hI.answer hears (hI.permitted fun hR => hR.portsSummary _)
  | portInfo name => exact hI.answer hears (hI.permitted fun hR => hR.portsSummary _)
  | portUp name up =>
    exact hI.orError hears (keeps_bind (hI.setPortUp _ _) fun _ => hI.reply client hears _)
  | scan port => exact hI.orError hears (hI.startScan hears port)
  | connect ssid port =>
    refine keeps_bind (hI.field (fun _ => rfl) (fun _ => rfl) (fun _ => rfl) fun _ => rfl) fun _ =>
      hI.orError hears (keeps_bind (hI.permitted fun hR => hR.wirelessIfindexUp _) fun ifindex => ?_)
    exact hI.engine _ fun k => (hI.upheld k).connect asks ifindex ssid
  | disconnect ssid =>
    exact hI.orError hears (keeps_bind (hI.engine _ fun k => (hI.upheld k).disconnect asks ssid)
      fun _ => hI.field (fun _ => rfl) (fun _ => rfl) (fun _ => rfl) fun _ => rfl)
  | forget ssid =>
    refine hI.orError hears (keeps_bind (hI.engine _ fun k => (hI.upheld k).forget asks ssid)
      fun begun => ?_)
    split_ifs
    · exact keeps_pure _
    · exact hI.reply client hears _
  | status => exact hI.answer hears (hI.permitted fun hR => hR.status)
  | secret token value =>
    exact hI.orError hears (hI.engine _ fun k => (hI.upheld k).secret token value client)
  | shutdown =>
    exact keeps_bind (hI.reply client hears _) fun _ =>
      hI.field (fun _ => rfl) (fun _ => rfl) (fun _ => rfl) fun _ => rfl

/-- **One request.** -/
theorem handle {client : ClientId} (asks : Asks client) (hears : Hears client) (request : Request) :
    Keeps (Keeping I) (handle client request) := by
  unfold Reactor.handle
  split_ifs
  · refine keeps_bind (hI.mayChangeState client) fun allowed => ?_
    cases allowed with
    | true => exact hI.handlePermitted asks hears request
    | false => exact hI.reply client hears _
  · exact hI.handlePermitted asks hears request

theorem armAutoconnect (delay : ℕ) :
    Keeps (Keeping I) (armAutoconnect delay : ReactorM S E Unit) :=
  hI.permitted fun hR => hR.toSpares.arm rfl _

theorem onAutoconnect : Keeps (Keeping I) (onAutoconnect : ReactorM S E Unit) := by
  refine keeps_bind keeps_get fun r => ?_
  split_ifs
  · exact keeps_pure _
  · exact keeps_bind (hI.field (fun _ => rfl) (fun _ => rfl) (fun _ => rfl) fun _ => rfl) fun _ =>
      hI.armAutoconnect _
  · refine keeps_bind (keeps_attempt (hI.engine _ fun k => keeps_bind
      ((hI.upheld k).allows.wirelessIfindexUp _) fun ifindex => (hI.upheld k).autoconnect _))
      fun _ => keeps_bind (hI.field (fun _ => rfl) (fun _ => rfl) (fun _ => rfl) fun _ => rfl) fun _ =>
        keeps_bind keeps_get fun _ => hI.armAutoconnect _

theorem onDhcpTimer (t : Dhcp.Timer) :
    Keeps (Keeping I) (withEngine (onDhcpTimer t) : ReactorM S E Unit) :=
  hI.engine _ fun k => keeps_onDhcpTimer (hI.lease k) (hI.admits k).driveDhcp (hI.admits k).stopDhcp t

theorem onDhcpDatagram (bytes : Bytes) :
    Keeps (Keeping I) (withEngine (onDhcpDatagram bytes) : ReactorM S E Unit) :=
  hI.engine _ fun k => keeps_onDhcpDatagram (hI.lease k) (hI.admits k).driveDhcp bytes

theorem onKey {key : Key} (hears : ∀ client, key = .scan client → Hears client) :
    Keeps (Keeping I) (onKey key : ReactorM S E Unit) := by
  cases key with
  | scan client => exact hI.finish client (hears client rfl) _
  | core id => exact hI.engine _ fun k => (hI.upheld k).onTimer id
  | autoconnect => exact hI.onAutoconnect
  | dhcp t => exact hI.onDhcpTimer t

theorem onKeys {keys : List Key} (hears : ∀ client, .scan client ∈ keys → Hears client) :
    Keeps (Keeping I) (onKeys keys : ReactorM S E Unit) := by
  induction keys with
  | nil => exact keeps_pure _
  | cons key rest ih =>
    refine keeps_bind (hI.onKey fun client h => hears client ?_) fun _ =>
      ih fun client h => hears client (List.mem_cons_of_mem _ h)
    rw [h]
    exact List.mem_cons_self

/-! ## Events -/

theorem onScanDone {ifindex : UInt32} {r r' : Reactor S E} {x : Except String Unit}
    (hears : ∀ client ∈ r.waitingOn ifindex, Hears client) (hr : I r)
    (h : Runs (onScanDone ifindex) r x r') : I r' := by
  rw [Reactor.onScanDone, runs_get_bind] at h
  dsimp only at h
  split_ifs at h
  · exact keeps_pure (R := Keeping I) _ _ _ _ h hr
  · refine keeps_bind (R := Keeping I) (keeps_attempt (hI.permitted fun hR => hR.networks _))
      (fun found => ?_) _ _ _ h hr
    cases found with
    | ok => exact hI.finishScans hears
    | error => exact hI.finishScans hears

theorem onScanAborted {ifindex : UInt32} {r r' : Reactor S E} {x : Except String Unit}
    (hears : ∀ client ∈ r.waitingOn ifindex, Hears client) (hr : I r)
    (h : Runs (onScanAborted ifindex) r x r') : I r' := by
  rw [Reactor.onScanAborted, runs_get_bind] at h
  exact hI.finishScans hears _ _ _ h hr

/-- **A notification**, where those who wait for the scan it ends may be answered. -/
theorem onWireless {body : Bytes} {r r' : Reactor S E} {x : Except String Unit}
    (hears : ∀ wiphy ifindex, (Nl80211.Event.decode body = some (.scanComplete wiphy ifindex) ∨
      Nl80211.Event.decode body = some (.scanAborted wiphy ifindex)) →
      ∀ client ∈ r.waitingOn ifindex, Hears client) (hr : I r)
    (h : Runs (onWireless body) r x r') : I r' := by
  have hrest (event : Nl80211.Event) (r₁ : Reactor S E) (hr₁ : I r₁)
      (h : Runs (withEngine (Daemon.onWireless event)) r₁ x r') : I r' :=
    hI.engine _ (fun k => (hI.upheld k).onWireless event) _ _ _ h hr₁
  rw [Reactor.onWireless, runs_get_bind] at h
  split_ifs at h
  · cases hevent : Nl80211.Event.decode body with
    | none =>
      rw [hevent] at h
      exact keeps_pure (R := Keeping I) _ _ _ _ h hr
    | some event =>
      rw [hevent] at h
      cases event with
      | scanComplete wiphy ifindex =>
        have hwaiting := hears wiphy ifindex (.inl hevent)
        rcases runs_bind.mp h with ⟨_, r₁, hdone, hfeed⟩ | ⟨e, hdone, -⟩
        · exact hrest _ r₁ (hI.onScanDone hwaiting hr hdone) hfeed
        · exact hI.onScanDone hwaiting hr hdone
      | scanAborted wiphy ifindex =>
        have hwaiting := hears wiphy ifindex (.inr hevent)
        rcases runs_bind.mp h with ⟨_, r₁, hdone, hfeed⟩ | ⟨e, hdone, -⟩
        · exact hrest _ r₁ (hI.onScanAborted hwaiting hr hdone) hfeed
        · exact hI.onScanAborted hwaiting hr hdone
      | _ => exact hrest _ r hr h
  · exact keeps_pure (R := Keeping I) _ _ _ _ h hr

theorem onLink (event : LinkEvent) : Keeps (Keeping I) (onLink event : ReactorM S E Unit) := by
  refine keeps_bind (hI.engine _ fun k => (hI.upheld k).onLink event) fun _ =>
    keeps_bind keeps_get fun r => ?_
  split_ifs
  · exact keeps_bind (hI.field (fun _ => rfl) (fun _ => rfl) (fun _ => rfl) fun _ => rfl) fun _ =>
      hI.armAutoconnect _
  · exact keeps_pure _

/-- **The end of a sleep**, where those who wait for a scan may be answered. -/
theorem checkResume {offset : ℕ} {r r' : Reactor S E} {x : Except String Unit}
    (hears : ∀ client ∈ r.scans.map PendingScan.client, Hears client) (hr : I r)
    (h : Runs (checkResume offset) r x r') : I r' := by
  have hread : Keeps (Keeping I)
      (modify fun r => { r with suspendOffset := offset } : ReactorM S E Unit) :=
    hI.field (fun _ => rfl) (fun _ => rfl) (fun _ => rfl) fun _ => rfl
  have hresume : Keeps (Keeping I) (withEngine Daemon.resume) :=
    hI.engine _ fun k => (hI.upheld k).resume
  have hwaken : Keeps (Keeping I) (do
      modify fun r => { r with autoAttempts := 0 }
      if (← get).autoconnect then Reactor.armAutoconnect 0
      modify fun r => { r with suspendOffset := offset } : ReactorM S E Unit) := by
    refine keeps_bind (hI.field (fun _ => rfl) (fun _ => rfl) (fun _ => rfl) fun _ => rfl) fun _ =>
      keeps_bind keeps_get fun r => ?_
    split_ifs
    · exact keeps_bind (hI.armAutoconnect _) fun _ => hread
    · exact hread
  rw [Reactor.checkResume, runs_get_bind] at h
  split_ifs at h
  · rcases runs_bind.mp h with ⟨_, r₁, hrun, hrest⟩ | ⟨e, hrun, -⟩
    · have hr₁ := hresume _ _ _ hrun hr
      obtain ⟨d, -, rfl⟩ := runs_zoom.mp hrun
      rw [runs_get_bind] at hrest
      rcases runs_bind.mp hrest with ⟨_, r₂, hscans, hlast⟩ | ⟨e, hscans, -⟩
      · exact hwaken _ _ _ hlast (hI.finishScans hears _ _ _ hscans hr₁)
      · exact hI.finishScans hears _ _ _ hscans hr₁
    · exact hresume _ _ _ hrun hr
  · exact hread _ _ _ h hr

theorem onTimer (hexpire : Keeps (Keeping I) (withEngine (modify fun d =>
      { d with timers := d.timers.unexpired d.now }) : ReactorM S E Unit))
    {r r' : Reactor S E} {x : Except String Unit}
    (hears : ∀ client, .scan client ∈ r.engine.timers.expired r.engine.now → Hears client) (hr : I r)
    (h : Runs onTimer r x r') : I r' := by
  rw [Reactor.onTimer, runs_get_bind] at h
  exact keeps_bind (R := Keeping I) hexpire (fun _ => hI.onKeys hears) _ _ _ h hr

/-- **One event** other than the coming and going of clients, where those it may answer may be
answered. -/
theorem dispatch {event : Event} (hexpire : event = .timer → Keeps (Keeping I) (withEngine (modify
      fun d => { d with timers := d.timers.unexpired d.now }) : ReactorM S E Unit))
    (haccept : event ≠ .accept) (hreap : ∀ gone, event ≠ .reap gone)
    {r r' : Reactor S E} {x : Except String Unit}
    (asks : ∀ client request, event = .request client request → client ∈ r.clients → Asks client)
    (hears : ∀ client, Addresses r event client → Hears client) (hr : I r)
    (h : Runs (dispatch event) r x r') : I r' := by
  cases event with
  | accept => exact absurd rfl haccept
  | reap gone => exact absurd rfl (hreap gone)
  | request client request =>
    rw [Reactor.dispatch, runs_get_bind] at h
    split_ifs at h with hclient
    · exact hI.handle (asks client request rfl hclient) (hears client rfl) request _ _ _ h hr
    · exact keeps_pure (R := Keeping I) _ _ _ _ h hr
  | wireless body =>
    exact hI.onWireless (fun wiphy ifindex hbody client hmem =>
      hears client ⟨wiphy, ifindex, hbody, hmem⟩) hr h
  | link event => exact hI.onLink event _ _ _ h hr
  | eapol frame => exact hI.engine _ (fun k => (hI.upheld k).onEapol frame) _ _ _ h hr
  | datagram bytes => exact hI.onDhcpDatagram bytes _ _ _ h hr
  | timer => exact hI.onTimer (hexpire rfl) hears hr h
  | suspendClock offset => exact hI.checkResume hears hr h
  | signal =>
    obtain ⟨-, rfl⟩ := runs_modify.mp h
    exact hI.fields r _ rfl rfl rfl rfl hr
  | shutdown => exact hI.engine _ (fun k => (hI.upheld k).shutDown) _ _ _ h hr

end Hosted

/-! ## Invariants of the engine -/

/-- **An invariant of the engine** that leaves open what is sent and armed is one of the loop, which
keeps its clients. -/
theorem hosted_engine {clients : List ClientId} {next : ClientId} {Asks : ClientId → Prop}
    {J : Daemon S E → Prop} (upheld : Upheld Asks J) (admits : Admits (Keeping J))
    (lease : ∀ event, Keeps (Keeping J) (feed (.lease event) : EngineM S E Unit))
    (sends : ∀ d client message, J d → J (d.record (.send client message)))
    (timers : ∀ d timers, J d → J { d with timers := timers }) :
    Hosted Asks (fun _ => True) (fun _ : Unit => J)
      fun r => r.clients = clients ∧ r.nextId = next ∧ J r.engine := by
  have hengine {α : Type} {m : EngineM S E α} (hm : Keeps (Keeping J) m) :
      Keeps (Keeping fun r => r.clients = clients ∧ r.nextId = next ∧ J r.engine) (withEngine m) :=
    keeps_zoom hm fun _ _ h hr => ⟨hr.1, hr.2.1, h hr.2.2⟩
  exact
    { upheld := fun _ => upheld
      admits := fun _ => admits
      lease := fun _ => lease
      engine := fun _ hm => hengine (hm ())
      fields := fun _ _ hsame hclients hnext _ hr =>
        ⟨hclients.trans hr.1, hnext.trans hr.2.1, hsame ▸ hr.2.2⟩
      reply := fun client _ message => hengine (keeps_modify fun d => sends d client message)
      opens := fun _ _ _ => keeps_bind (keeps_modify fun _ => id) fun _ =>
        hengine (keeps_modify fun d => timers d _)
      finish := fun client _ response => keeps_bind (keeps_modify fun _ => id) fun _ =>
        keeps_bind (hengine (keeps_modify fun d => timers d _)) fun _ =>
          hengine (keeps_modify fun d => sends d client response) }

/-! ## The coming and going of clients -/

/-- The loop without what it holds for a client. -/
def forgotten (r : Reactor S E) (client : ClientId) : Reactor S E :=
  { r with
    scans := r.scans.filter fun s => s.client ≠ client
    engine :=
      { r.engine with
        timers := r.engine.timers.cancel (.scan client)
        watcher := if r.engine.watcher = some client then none else r.engine.watcher
        pendingSecret := if r.engine.pendingSecret.any fun p => p.client = client then none
          else r.engine.pendingSecret } }

theorem runs_forget {client : ClientId} {r r' : Reactor S E} {x : Except String Unit} :
    Runs (forget client) r x r' ↔ x = .ok () ∧ r' = r.forgotten client := by
  rw [forget, runs_modify_bind]
  exact runs_modify (s := r) (f := fun _ => r.forgotten client)

theorem runs_forgetAll {clients : List ClientId} {r r' : Reactor S E} {x : Except String Unit} :
    Runs (forgetAll clients) r x r' ↔ x = .ok () ∧ r' = clients.foldl forgotten r := by
  induction clients generalizing r with
  | nil => exact runs_pure
  | cons client rest ih =>
    rw [forgetAll, runs_bind, List.foldl_cons]
    constructor
    · rintro (⟨_, r₁, hforget, hrest⟩ | ⟨e, hforget, -⟩)
      · obtain ⟨-, rfl⟩ := runs_forget.mp hforget
        exact ih.mp hrest
      · cases (runs_forget.mp hforget).1
    · exact fun h => .inl ⟨(), _, runs_forget.mpr ⟨rfl, rfl⟩, ih.mpr h⟩

/-- The clients that go away. -/
def leaving (r : Reactor S E) (gone : List ClientId) : List ClientId :=
  r.clients.filter fun client => client ∈ gone

theorem runs_reap {gone : List ClientId} {r r' : Reactor S E} {x : Except String Unit} :
    Runs (reap gone) r x r' ↔ x = .ok () ∧ r' = (r.leaving gone).foldl forgotten
      { r with clients := r.clients.filter fun client => client ∉ gone } := by
  rw [reap, runs_get_bind, runs_modify_bind]
  exact runs_forgetAll

section Forgotten

variable {r : Reactor S E} (clients : List ClientId)

theorem foldl_forgotten_clients : (clients.foldl forgotten r).clients = r.clients := by
  induction clients generalizing r with
  | nil => rfl
  | cons client rest ih => exact ih

theorem foldl_forgotten_nextId : (clients.foldl forgotten r).nextId = r.nextId := by
  induction clients generalizing r with
  | nil => rfl
  | cons client rest ih => exact ih

theorem foldl_forgotten_core : (clients.foldl forgotten r).engine.core = r.engine.core := by
  induction clients generalizing r with
  | nil => rfl
  | cons client rest ih => exact ih

theorem foldl_forgotten_watcher : (clients.foldl forgotten r).engine.watcher =
    r.engine.watcher.filter fun client => client ∉ clients := by
  induction clients generalizing r with
  | nil => cases hwatcher : r.engine.watcher <;> simp [hwatcher, Option.filter_some]
  | cons client rest ih =>
    rw [List.foldl_cons, ih]
    cases hwatcher : r.engine.watcher with
    | none => simp [forgotten, hwatcher]
    | some watcher =>
      by_cases heq : watcher = client
      · simp [forgotten, hwatcher, heq, Option.filter_some]
      · simp [forgotten, hwatcher, heq, Option.filter_some]

theorem foldl_forgotten_pendingSecret : (clients.foldl forgotten r).engine.pendingSecret =
    r.engine.pendingSecret.filter fun prompt => prompt.client ∉ clients := by
  induction clients generalizing r with
  | nil => cases hprompt : r.engine.pendingSecret <;> simp [hprompt, Option.filter_some]
  | cons client rest ih =>
    rw [List.foldl_cons, ih]
    cases hprompt : r.engine.pendingSecret with
    | none => simp [forgotten, hprompt]
    | some prompt =>
      by_cases heq : prompt.client = client
      · simp [forgotten, hprompt, heq, Option.filter_some]
      · simp [forgotten, hprompt, heq, Option.filter_some]

end Forgotten

/-! ## Steps -/

/-- **A step** is an event handled in full, or none where the daemon panics. -/
theorem step_runs (r : Reactor S E) (woken : ℕ × Event) : (step r woken).1 = r ∨
    ∃ x, Runs (dispatch woken.2) (r.wokenAt woken.1) x (step r woken).1 := by
  cases hrun : (Reactor.dispatch woken.2).run.run (r.wokenAt woken.1) with
  | none => exact .inl (by simp [step, hrun])
  | some p =>
    refine .inr ⟨p.1, ?_⟩
    simp [Runs, step, hrun]

theorem step_eq {r r' : Reactor S E} {woken : ℕ × Event} {x : Except String Unit}
    (h : Runs (dispatch woken.2) (r.wokenAt woken.1) x r') : (step r woken).1 = r' := by
  unfold Runs at h
  simp [step, h]

theorem step_reap (r : Reactor S E) (now : ℕ) (gone : List ClientId) :
    (step r (now, .reap gone)).1 = (r.leaving gone).foldl forgotten
      { r.wokenAt now with clients := r.clients.filter fun client => client ∉ gone } :=
  step_eq (runs_reap.mpr ⟨rfl, rfl⟩)

end Reactor

end Caw
