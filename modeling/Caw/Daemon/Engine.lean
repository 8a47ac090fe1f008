import Caw.Daemon.Ports

/-!
# The engine

The seam between the system and the decisions of the core: inputs go in, the actions that come back
are performed, and what they bring back goes in again.

* `Daemon`: the engine with the ports it acts on;
* `perform`, `performAll`: an action, and a list of them up to the first that fails;
* `feed`, `abort`, `reset`: the core run until it asks for nothing more, and the way back to idle;
* `connect`, `disconnect`, `onWireless`, `onDhcpDatagram`, …: the entry points;
* `Daemon.Event`, `Daemon.step`: what a daemon is woken by, as a machine.
-/

set_option autoImplicit false

namespace Caw

open Caw.Core

namespace Daemon

/-- One DHCP exchange and what it has left on the interface. -/
structure DhcpRun where
  machine : Dhcp4
  ifindex : UInt32
  /-- The probe route is installed. -/
  probeRoute : Bool

/-- The prompt a client is to answer. -/
structure PendingSecret where
  token : UInt64
  client : ClientId

/-- What a daemon does: an input it gives the core, an action it performs, an operation it asks for and
whether that succeeded, a message it sends. -/
inductive Done where
  | poll (input : Core.Input)
  | perform (action : Core.Action)
  | call (op : Op) (ok : Bool)
  | send (client : ClientId) (message : Message)

/-- A rtnetlink notification. -/
inductive LinkEvent where
  | changed (ifindex : UInt32) (up carrier : Bool)
  | removed (ifindex : UInt32)
  | addressChanged (ifindex : UInt32)

end Daemon

open Daemon

/-- The engine, with the ports it acts on and the system behind them. -/
structure Daemon (S : Platform) (E : System S) where
  core : Option (Connection S)
  device : Option Device
  /-- The client that watches the connection in progress. -/
  watcher : Option ClientId
  pendingSecret : Option PendingSecret
  nextToken : UInt64
  /-- There is an nl80211 socket. -/
  nl : Bool
  /-- There is an rtnetlink socket. -/
  rtnl : Bool
  /-- The interface the EAPOL socket is open on. -/
  eapol : Option UInt32
  dhcp : Option DhcpRun
  timers : Timers
  now : ℕ
  world : E.World
  /-- Everything done so far, oldest first. -/
  journal : List Done

namespace Daemon

/-- How many inputs the core takes in one go. -/
def maxTurns : ℕ := 32

/-- Told to a client on a machine without nl80211. -/
def noWireless : String := "no wireless stack: the kernel has no nl80211 family"

variable {S : Platform} {E : System S}

/-- The interface of the current device. -/
def ifindex (d : Daemon S E) : Option UInt32 := d.device.map Device.ifindex

/-- Where the connection stands. -/
def state (d : Daemon S E) : State := (d.core.map Connection.state).getD .idle

/-- The connection is at rest. -/
def isIdle (d : Daemon S E) : Bool := d.state = .idle

/-- The network joined or being joined, as text. -/
def ssid (d : Daemon S E) : Option String :=
  (d.core.bind Connection.target).map fun target => Text.lossy target.ssid

/-- The access point of the session. -/
def bssid (d : Daemon S E) : Option Mac :=
  (d.core.bind Connection.session).map fun session => session.choice.bssid

/-- The daemon with one more deed in its journal. -/
@[simps]
def record (d : Daemon S E) (done : Done) : Daemon S E := { d with journal := d.journal ++ [done] }

/-- The daemon with its core replaced. -/
@[simps]
def withCore (d : Daemon S E) (core : Connection S) : Daemon S E := { d with core := some core }

/-- A computation of the engine. -/
abbrev EngineM (S : Platform) (E : System S) (α : Type) : Type := Effect String (Daemon S E) α

/-- Ask the system for one operation. -/
def ask (op : Op) : EngineM S E (Except SysError op.Reply) :=
  modifyGet fun d => ((E.call op d.world).1,
    { d.record (.call op (E.call op d.world).1.isOk) with world := (E.call op d.world).2 })

/-- The same, where a failure ends what is being done. -/
def request (op : Op) (describe : String → String) : EngineM S E op.Reply := do
  match ← ask op with
  | .ok reply => pure reply
  | .error e => throw (describe e.text)

/-- The draws for one poll. -/
def draw : EngineM S E (Draws S) :=
  modifyGet fun d => ((E.draw d.world).1, { d with world := (E.draw d.world).2 })

/-- Send a message to a client. -/
def send (client : ClientId) (message : Message) : EngineM S E Unit :=
  modify fun d => d.record (.send client message)

/-- The nl80211 socket, or the reason there is none. -/
def nlPort : EngineM S E Unit := do
  unless (← get).nl do throw noWireless

/-- The interface the connection runs on. -/
def ifindexFor (reason : String) : EngineM S E UInt32 := do
  match (← get).ifindex with
  | some ifindex => pure ifindex
  | none => throw reason

/-- Arm a deadline. -/
def arm (key : Key) (delay : ℕ) : EngineM S E Unit :=
  modify fun d => { d with timers := d.timers.arm key delay d.now }

/-- Cancel a deadline. -/
def cancel (key : Key) : EngineM S E Unit :=
  modify fun d => { d with timers := d.timers.cancel key }

/-- Disarm every deadline of the core. -/
def cancelCoreTimers : EngineM S E Unit :=
  modify fun d => { d with timers := d.timers.cancelIf Key.isCore }

/-! ## The DHCP exchange -/

/-- Take the probe route off the interface of the exchange, once. -/
def dropProbeRoute : EngineM S E Unit := do
  match (← get).dhcp with
  | some run =>
    if run.probeRoute then
      modify fun d => { d with dhcp := some { run with probeRoute := false } }
      let _ ← ask (.delDhcpProbeRoute run.ifindex)
  | none => pure ()

/-- End the exchange and disarm its timers. -/
def stopDhcp : EngineM S E Unit := do
  if (← get).rtnl then dropProbeRoute
  modify fun d => { d with dhcp := none }
  cancel (.dhcp .retransmit)
  cancel (.dhcp .renew)
  cancel (.dhcp .rebind)
  cancel (.dhcp .expire)

/-- Perform what the exchange asks for; the last outcome is the one reported. -/
def performDhcp : List Dhcp.Action → Option LeaseEvent → EngineM S E (Option LeaseEvent)
  | [], out => pure out
  | .broadcast data :: rest, out => do
    let _ ← ask (.sendBroadcast data)
    performDhcp rest out
  | .unicast addr data :: rest, out => do
    let _ ← ask (.sendTo addr data)
    performDhcp rest out
  | .setTimer timer secs :: rest, out => do
    arm (.dhcp timer) (1000 * secs)
    performDhcp rest out
  | .configured lease :: rest, _ => performDhcp rest (some (.acquired lease))
  | .deconfigure reason :: rest, _ => performDhcp rest (some (.lost reason))
  | .failed :: rest, _ => performDhcp rest (some .failed)

/-- Push one input through the exchange. -/
def driveDhcp (input : Dhcp.Input) : EngineM S E (Option LeaseEvent) := do
  match (← get).dhcp with
  | none => pure none
  | some run =>
    modify fun d => { d with dhcp := some { run with machine := (run.machine.poll input).1 } }
    performDhcp (run.machine.poll input).2 none

/-- Two routes that let the first messages through, both where they can be had. -/
def probeRoutes (ifindex : UInt32) : EngineM S E Bool := do
  if (← get).rtnl then
    let _ ← ask (.addBroadcastRoute ifindex)
    match ← ask (.addDhcpProbeRoute ifindex) with
    | .ok _ => pure true
    | .error _ => pure false
  else pure false

/-- A machine that gives the name of this host, if it has one. -/
def named (machine : Dhcp4) : Except SysError String → Dhcp4
  | .ok hostname => if hostname = "" then machine else machine.withHostname hostname
  | .error _ => machine

/-- A fresh exchange on the interface of the connection. -/
def startDhcp : EngineM S E (Option Input) := do
  let ifindex ← ifindexFor "no interface for DHCP"
  match (← get).device with
  | none => throw "no device MAC for DHCP"
  | some device =>
    stopDhcp
    let probeRoute ← probeRoutes ifindex
    let _ ← request .openDhcp fun e =>
      "cannot open the DHCP socket (binding port 68 needs root): " ++ e
    let xid ← request .newXid id
    let hostname ← ask .readHostname
    let run : DhcpRun :=
      { machine := named (Dhcp4.new device.mac xid) hostname, ifindex, probeRoute }
    modify fun d => { d with dhcp := some run }
    let event ← driveDhcp (.start xid)
    pure (event.map Input.lease)

/-! ## Actions -/

/-- An address in dotted form. -/
def addrText (addr : Ipv4Addr) : String :=
  ".".intercalate (addr.toList.map fun b => toString b.toNat)

/-- Remove the earlier addresses of the interface; what cannot be removed stays. -/
def removeStale (ifindex : UInt32) (lease : Dhcp.Lease) : List Address → EngineM S E Unit
  | [] => pure ()
  | address :: rest => do
    if address.index = ifindex ∧ address.addr ≠ lease.addr then
      let _ ← ask (.delAddress ifindex address.addr address.prefixLen)
    removeStale ifindex lease rest

/-- Put a lease on the interface. -/
def applyLease (lease : Dhcp.Lease) : EngineM S E Unit := do
  let ifindex ← ifindexFor "no interface to configure"
  unless (← get).rtnl do throw "no rtnetlink socket to apply the lease"
  let addresses ← request .addresses fun e =>
    "cannot list addresses before applying DHCP: " ++ e
  removeStale ifindex lease addresses
  let _ ← request (.addAddress ifindex lease.addr lease.prefixLen) fun e =>
    "cannot add " ++ addrText lease.addr ++ "/" ++ toString lease.prefixLen ++ ": " ++ e
  match lease.gateway with
  | none => pure ()
  | some gateway =>
    let _ ← request (.addDefaultRoute ifindex gateway) fun e =>
      "cannot add the default route via " ++ addrText gateway ++ ": " ++ e
  dropProbeRoute
  let _ ← ask (.writeResolvConf lease.dns)

/-- Install the keys the core hands over. -/
def installKeys (keys : KeyInstall) : EngineM S E Unit := do
  let ifindex ← ifindexFor "no interface to key"
  nlPort
  match keys.pairwise with
  | none => pure ()
  | some pairwise =>
    let _ ← request (.newPairwiseKey ifindex pairwise) id
  let _ ← request (.newGroupKey ifindex keys.group) id
  let _ ← request (.setDefaultKey ifindex keys.group.gtk.index) id

/-- Ask the kernel to associate. -/
def associate (req : AssocRequest) : EngineM S E Unit := do
  if req.offload.isSome then
    throw ("this device runs the handshake in firmware, which needs " ++
      "NL80211_ATTR_PMK support in caw-nl80211")
  nlPort
  if req.authenticated then
    let _ ← request (.associate req) id
  else
    let _ ← request (.connect req) id

/-- What a client is told of a state. -/
def progress (bssid : Option Mac) : State → Option Message
  | .scanning => some .scanning
  | .authenticating | .handshaking => some .authenticating
  | .associating => some (.associating ((bssid.map formatMac).getD ""))
  | .configuring => some .configuring
  | .connected => some .connected
  | .reconnecting | .idle => none

/-- Tell the watcher of a state; the two settled ones answer its request. -/
def notify (state : State) : EngineM S E Unit := do
  let d ← get
  match d.watcher with
  | none => pure ()
  | some client =>
    match progress d.bssid state with
    | none => pure ()
    | some message => send client message
    if state = .connected ∨ state = .idle then
      send client .ok
      modify fun d => { d with watcher := none }

/-- Tell the watcher that its request has failed, and forget both it and any prompt. -/
def tellFailed (reason : String) : EngineM S E Unit := do
  match (← get).watcher with
  | none => pure ()
  | some client =>
    modify fun d => { d with watcher := none }
    send client (.failed reason)
    send client (.error reason)
  modify fun d => { d with pendingSecret := none }

/-- An attempt has failed: whoever watches is told, and a terminal failure releases what it held. -/
def failed (failure : Failure) : EngineM S E Unit := do
  tellFailed failure.text
  if failure.isTerminal then
    modify fun d => { d with eapol := none }
    stopDhcp

/-- Ask the client that watches for a passphrase. -/
def requestSecret (prompt : String) : EngineM S E Unit := do
  let d ← get
  match d.watcher with
  | none => throw "this network needs a passphrase and no client is attached"
  | some client =>
    modify fun d =>
      { d with nextToken := d.nextToken + 1, pendingSecret := some ⟨d.nextToken, client⟩ }
    send client (.needSecret d.nextToken prompt)

/-- Ask for a scan. -/
def triggerScan (ifindex : UInt32) : EngineM S E Unit := do
  nlPort
  match ← ask (.triggerScan ifindex) with
  | .ok _ => pure ()
  -- the radio is scanning already, and announces those results
  | .error e => if e.kernel = some ebusy then pure () else throw e.text

/-- Read the results of a scan, as an input for the core. -/
def fetchScanResults (ifindex : UInt32) : EngineM S E Input := do
  nlPort
  let scan ← request (.scanResults ifindex) id
  pure (.scanResults scan)

/-- Ask the kernel to leave the network. -/
def disconnectLink (reason : UInt16) : EngineM S E Unit := do
  let ifindex ← ifindexFor "no interface to disconnect"
  nlPort
  let _ ← request (.disconnect ifindex reason) id

/-- Send a frame on the EAPOL port. -/
def sendEapol (frame : Bytes) : EngineM S E Unit := do
  if (← get).eapol.isNone then throw "no EAPOL socket"
  let _ ← request (.sendEapol frame) id

/-- Write a profile out, and have the core take it up. -/
def saveProfile (profile : Profile) : EngineM S E Unit := do
  let _ ← request (.saveProfile profile) id
  modify fun d => { d with core := d.core.map fun core => core.insertProfile profile }

/-- Perform one action, and hand back what it brings for the core. -/
def perform (action : Core.Action) : EngineM S E (Option Input) := do
  modify fun d => d.record (.perform action)
  match action with
  | .triggerScan ifindex => do triggerScan ifindex; pure none
  | .fetchScanResults ifindex => do pure (some (← fetchScanResults ifindex))
  | .associate req => do associate req; pure none
  | .authenticate req => do
    nlPort
    let _ ← request (.authenticate req) id
    pure none
  | .disconnect reason => do disconnectLink reason; pure none
  | .sendEapol frame => do sendEapol frame; pure none
  | .installKeys keys => do installKeys keys; pure none
  | .startDhcp => startDhcp
  | .applyLease lease => do applyLease lease; pure none
  | .setTimer id millis => do arm (.core id) millis; pure none
  | .clearTimer id => do cancel (.core id); pure none
  | .requestSecret prompt => do requestSecret prompt; pure none
  | .saveProfile profile => do saveProfile profile; pure none
  | .notify state => do notify state; pure none
  | .failed failure => do failed failure; pure none

/-- Perform actions up to the first that fails. -/
def performAll : List Core.Action → EngineM S E (List Input)
  | [] => pure []
  | action :: rest => do
    let next ← perform action
    let others ← performAll rest
    pure (next.toList ++ others)

/-- Perform actions whatever becomes of them. -/
def performBestEffort : List Core.Action → EngineM S E Unit
  | [] => pure ()
  | action :: rest => do
    let _ ← (perform action).attempt
    performBestEffort rest

/-! ## The core -/

/-- One poll of the core. -/
def pollCore (core : Connection S) (input : Input) : EngineM S E (List Core.Action) := do
  match core.poll (← draw) input with
  | none => .halt
  | some r =>
    modify fun d => (d.record (.poll input)).withCore r.1
    pure r.2

/-- Back to idle after an action that failed: the core is told to disconnect, and whatever of that
can be done is done. -/
def reset : EngineM S E Unit := do
  match (← get).core with
  | none => pure ()
  | some core =>
    let actions ← pollCore core (.command .disconnect)
    performBestEffort actions
    cancelCoreTimers
    modify fun d => { d with eapol := none }
    stopDhcp

/-- An action could not be performed. -/
def abort (reason : String) : EngineM S E Unit := do
  tellFailed reason
  reset

/-- Run the core until it asks for nothing more, within a bound. -/
def feedTurns : ℕ → List Input → EngineM S E Unit
  | 0, _ => pure ()
  | _ + 1, [] => pure ()
  | turns + 1, input :: queue => do
    match (← get).core with
    | none => pure ()
    | some core =>
      let actions ← pollCore core input
      match ← (performAll actions).attempt with
      | .error e => abort e
      | .ok next => feedTurns turns (queue ++ next)

/-- An input, and the inputs its actions feed back. -/
def feed (input : Input) : EngineM S E Unit := feedTurns maxTurns [input]

/-! ## Entry points -/

/-- What the core needs to know of an interface. -/
def describe (ifindex : UInt32) : EngineM S E Device := do
  nlPort
  let interfaces ← request .interfaces id
  match interfaces.find? fun i => i.ifindex = ifindex with
  | none => throw "no such wireless port"
  | some interface =>
    match interface.mac with
    | none => throw "the interface has no address to derive keys from"
    | some mac =>
      let wiphys ← request .wiphys id
      let caps := match wiphys.find? fun w => w.index = interface.wiphy with
        | some wiphy => wiphy.caps
        | none => { offloads4wayPsk := false, offloads4way1x := false, offloadsSae := false }
      pure { ifindex, mac, caps }

/-- The profiles on disk, or none where they cannot be read. -/
def loadProfiles : EngineM S E (List Profile) := do
  match ← ask .loadProfiles with
  | .ok profiles => pure profiles
  | .error _ => pure []

/-- Build the core again for a device that is not the one it was built for. -/
def rebuild (device : Device) : EngineM S E Unit := do
  unless (← get).isIdle do
    abort ("the address or capabilities of ifindex " ++ toString device.ifindex.toNat ++ " changed")
  cancelCoreTimers
  let profiles ← loadProfiles
  modify fun d => { d.withCore (.new device profiles) with device := some device, eapol := none }
  stopDhcp

/-- Make sure that there is a core for an interface, and an EAPOL socket for it to speak through. -/
def prepare (ifindex : UInt32) : EngineM S E Unit := do
  let device ← describe ifindex
  if (← get).device ≠ some device then rebuild device
  if (← get).eapol.isNone then
    let _ ← request (.openEapol ifindex) fun e =>
      "cannot open the EAPOL socket (needs CAP_NET_RAW): " ++ e
    modify fun d => { d with eapol := some ifindex }

/-- Make a client the watcher, and tell the one before it. -/
def supersede (client : ClientId) (reason : String) : EngineM S E Unit := do
  let d ← get
  modify fun d => { d with watcher := some client }
  match d.watcher with
  | none => pure ()
  | some previous => if previous ≠ client then send previous (.error reason)
  modify fun d => { d with pendingSecret := none }

/-- A request to join a network by name. -/
def connect (ifindex : UInt32) (ssid : String) (client : ClientId) : EngineM S E Unit := do
  if ssid = "" then throw "a network name cannot be empty"
  prepare ifindex
  supersede client "superseded by another connect request"
  feed (.command (.connect (octetsOf ssid)))

/-- Join what is known, if anything. -/
def autoconnect (ifindex : UInt32) : EngineM S E Unit := do
  prepare ifindex
  feed (.command .autoconnect)

/-- A request to leave a network. -/
def disconnect (ssid : String) (client : ClientId) : EngineM S E Unit := do
  match (← get).ssid with
  | none => throw "not connected"
  | some current =>
    if current ≠ ssid then throw ("connected to " ++ current ++ ", not " ++ ssid)
    supersede client "superseded by a disconnect request"
    feed (.command .disconnect)

/-- Delete a saved profile, and leave the network if it is the one joined; whether that was begun. -/
def forget (ssid : String) (client : ClientId) : EngineM S E Bool := do
  let deleted ← request (.deleteProfile (octetsOf ssid)) id
  if (← get).ssid = some ssid then
    disconnect ssid client
    pure true
  else
    if !deleted then throw (ssid ++ " is not a saved network")
    pure false

/-- Answer a prompt: only the client that was asked, and only for that prompt. -/
def secret (token : UInt64) (value : String) (client : ClientId) : EngineM S E Unit := do
  match (← get).pendingSecret with
  | none => throw "nothing is waiting for a secret"
  | some pending =>
    if pending.token = token ∧ pending.client = client then
      modify fun d => { d with pendingSecret := none }
      feed (.command (.secret value))
    else throw "no secret was asked of you"

/-- News of the kernel goes to the core. -/
def onWireless (event : Nl80211.Event) : EngineM S E Unit := feed (.wireless event)

/-- A frame of the EAPOL port goes to the core. -/
def onEapol (frame : Bytes) : EngineM S E Unit := feed (.eapol frame)

/-- A datagram of the exchange, and what it reports. -/
def onDhcpDatagram (bytes : Bytes) : EngineM S E Unit := do
  match ← driveDhcp (.datagram bytes) with
  | none => pure ()
  | some event => feed (.lease event)

/-- A deadline of the exchange, and what it reports; one that fails is closed. -/
def onDhcpTimer (timer : Dhcp.Timer) : EngineM S E Unit := do
  match ← driveDhcp (.timeout timer) with
  | none => pure ()
  | some event =>
    if event = .failed then stopDhcp
    feed (.lease event)

/-- A deadline of the core. -/
def onTimer (id : TimerId) : EngineM S E Unit := feed (.timer id)

/-- A link notification, where it is about the interface of the connection. -/
def onLink (event : LinkEvent) : EngineM S E Unit := do
  let d ← get
  match d.ifindex with
  | none => pure ()
  | some ifindex =>
    match event with
    | .removed gone =>
      if gone = ifindex then
        abort ("ifindex " ++ toString ifindex.toNat ++ " was removed")
        modify fun d => { d with core := none, device := none }
    | .changed changed up carrier =>
      if changed = ifindex ∧ !up ∧ !d.isIdle then
        abort ("ifindex " ++ toString ifindex.toNat ++ " was taken down")
      else if changed = ifindex ∧ up ∧ !carrier ∧ d.state = .connected then
        feed (.wireless (.disconnected 0 false))
    | .addressChanged _ => pure ()

/-- A client went away; the connection carries on. -/
def forgetClient (client : ClientId) : EngineM S E Unit :=
  modify fun d =>
    { d with
      watcher := if d.watcher = some client then none else d.watcher
      pendingSecret := if d.pendingSecret.any fun p => p.client = client then none
        else d.pendingSecret }

/-- The system wakes up: whatever is under way is given up. -/
def resume : EngineM S E Unit := do
  unless (← get).isIdle do abort "system resumed; re-establishing connection"

/-- The daemon ends: whatever is under way is left. -/
def shutDown : EngineM S E Unit := do
  let d ← get
  if d.core.isSome ∧ !d.isIdle then feed (.command .disconnect)

/-! ## Events -/

/-- What wakes the daemon. -/
inductive Event where
  | connect (ifindex : UInt32) (ssid : String) (client : ClientId)
  | autoconnect (ifindex : UInt32)
  | disconnect (ssid : String) (client : ClientId)
  | forget (ssid : String) (client : ClientId)
  | secret (token : UInt64) (value : String) (client : ClientId)
  /-- A message of the nl80211 event socket. -/
  | notification (body : Bytes)
  | eapol (frame : Bytes)
  | datagram (bytes : Bytes)
  | dhcpTimer (timer : Dhcp.Timer)
  | timer (id : TimerId)
  | link (event : LinkEvent)
  | forgetClient (client : ClientId)
  | resume
  | shutDown

/-- A notification that decodes is handed to the core. -/
def onNotification (body : Bytes) : EngineM S E Unit := do
  match Nl80211.Event.decode body with
  | none => pure ()
  | some event => onWireless event

/-- What happens to the engine. -/
def handle : Event → EngineM S E Unit
  | .connect ifindex ssid client => connect ifindex ssid client
  | .autoconnect ifindex => autoconnect ifindex
  | .disconnect ssid client => disconnect ssid client
  | .forget ssid client => do let _ ← forget ssid client
  | .secret token value client => secret token value client
  | .notification body => onNotification body
  | .eapol frame => onEapol frame
  | .datagram bytes => onDhcpDatagram bytes
  | .dhcpTimer timer => onDhcpTimer timer
  | .timer id => onTimer id
  | .link event => onLink event
  | .forgetClient client => forgetClient client
  | .resume => resume
  | .shutDown => shutDown

/-- A daemon that has just started. -/
def start (world : E.World) (nl rtnl : Bool) : Daemon S E where
  core := none
  device := none
  watcher := none
  pendingSecret := none
  nextToken := 1
  nl := nl
  rtnl := rtnl
  eapol := none
  dhcp := none
  timers := ⟨[]⟩
  now := 0
  world := world
  journal := []

/-- One event, at an instant, handled in full; `none` where the daemon panics. The response to a
request that fails is the caller's to send. -/
def wake (d : Daemon S E) (now : ℕ) (event : Event) : Option (Except String Unit × Daemon S E) :=
  (handle event).run.run { d with now := now }

/-- The same as a machine: a panic ends the process, and the machine goes on from the state before
it. -/
def step (d : Daemon S E) (woken : ℕ × Event) : Daemon S E × Unit :=
  (((d.wake woken.1 woken.2).map Prod.snd).getD d, ())

end Daemon

end Caw
