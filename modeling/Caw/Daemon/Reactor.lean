import Caw.Daemon.Engine

/-!
# The reactor

The loop around the engine: clients and what they ask for, the scans they wait for, the daemon's own
attempts, and the clock.

* `Reactor`: the engine with its clients;
* `withEngine`, `reply`: the engine run inside the loop, and a message to a client;
* `startScan`, `onScanDone`, `finishScan`: scans clients wait for;
* `handle`: one request;
* `Reactor.Event`, `Reactor.step`: what wakes the loop, as a machine.
-/

set_option autoImplicit false

namespace Caw

open Caw.Core Daemon

namespace Daemon

variable {S : Platform} {E : System S}

/-! ## What a request asks of the system -/

/-- Told to a client on a machine without rtnetlink. -/
def noRtnetlink : String := "rtnetlink is not available"

/-- The rtnetlink socket, or the reason there is none. -/
def rtnlPort (describe : String → String) : EngineM S E Unit := do
  unless (← get).rtnl do throw (describe noRtnetlink)

/-- The addresses of an interface, as they are shown. -/
def addrsOf (index : UInt32) (addresses : List Address) : List String :=
  (addresses.filter fun a => a.index = index).map fun a =>
    addrText a.addr ++ "/" ++ toString a.prefixLen

/-- An interface as a client is told of it. -/
def portSummary (addresses : List Address) (link : Link) : PortSummary where
  name := link.name
  mac := (link.mac.map formatMac).getD ""
  up := link.up
  carrier := link.carrier
  wireless := link.wireless
  addrs := addrsOf link.index addresses

/-- The interfaces there are, or the one of that name. -/
def portsSummary (only : Option String) : EngineM S E (List PortSummary) := do
  rtnlPort id
  let links ← request .links id
  let addresses ← request .addresses id
  let summary := (links.filter fun link => only.all fun name => link.name = name).map
    (portSummary addresses)
  match only with
  | some name => if summary.isEmpty then throw ("no such port: " ++ name) else pure summary
  | none => pure summary

/-- Bring a link up or down. -/
def setLinkUp (ifindex : UInt32) (up : Bool) (describe : String → String) : EngineM S E Unit := do
  rtnlPort describe
  let _ ← request (.setUp ifindex up) describe

/-- Switch power saving off; what cannot be switched off stays on. -/
def disablePowerSave (ifindex : UInt32) : EngineM S E Unit := do
  if (← get).nl then
    let _ ← ask (.setPowerSave ifindex false)

/-- The interface a wireless request applies to: the one named, or the only station. -/
def wirelessInterface (port : Option String) : EngineM S E Interface := do
  nlPort
  let interfaces ← request .interfaces id
  match port with
  | some name =>
    match interfaces.find? fun i => i.name = name with
    | some interface => pure interface
    | none => throw (name ++ " is not a wireless port")
  | none =>
    match interfaces.filter Interface.station with
    | [] => throw "no wireless port"
    | [only] => pure only
    | _ => throw "several wireless ports; name one"

/-- The same interface, brought up. -/
def wirelessIfindexUp (port : Option String) : EngineM S E UInt32 := do
  let interface ← wirelessInterface port
  setLinkUp interface.ifindex true fun e => "could not bring " ++ interface.name ++ " up: " ++ e
  disablePowerSave interface.ifindex
  pure interface.ifindex

/-- Begin a scan a client asked for. -/
def beginScan (interface : Interface) : EngineM S E Unit := do
  nlPort
  match ← ask (.triggerScan interface.ifindex) with
  | .ok _ => pure ()
  -- the radio is scanning already, and the same notification announces those results
  | .error e =>
    if e.kernel = some ebusy then pure ()
    else if e.kernel = some enetdown then
      throw (interface.name ++ " is down (caw port up " ++ interface.name ++ ")")
    else throw e.text

/-- An entry of a scan as a client is told of it. -/
def networkSummary (profiles : List Profile) (bss : Bss) : NetworkSummary where
  ssid := Text.lossy bss.ssid
  bssid := formatMac bss.bssid
  signalDbm := bss.signalDbm
  freqMhz := bss.freqMhz
  security := bss.security.asStr
  known := profiles.any fun p => p.ssid = bss.ssid

/-- What a scan found, strongest first. -/
def networks (ifindex : UInt32) : EngineM S E (List NetworkSummary) := do
  nlPort
  let results ← request (.scanResults ifindex) id
  let profiles ← request .loadProfiles id
  pure ((results.insertionSort fun a b => b.signalDbm ≤ a.signalDbm).map (networkSummary profiles))

/-- The name of a state, for a client. -/
def stateName : State → String
  | .idle => "Idle"
  | .scanning => "Scanning"
  | .authenticating => "Authenticating"
  | .associating => "Associating"
  | .handshaking => "Handshaking"
  | .configuring => "Configuring"
  | .connected => "Connected"
  | .reconnecting => "Reconnecting"

/-- What becomes of a request that shows nothing where it fails. -/
def orEmpty {α : Type} (op : Op) (shown : op.Reply → α) (empty : α) : EngineM S E α := do
  match ← ask op with
  | .ok reply => pure (shown reply)
  | .error _ => pure empty

/-- The connection, with the name and the addresses of its interface. -/
def status : EngineM S E ConnectionStatus := do
  let d ← get
  match d.ifindex, d.rtnl with
  | some ifindex, true => do
    let port ← orEmpty .links
      (fun links => ((links.find? fun l => l.index = ifindex).map Link.name).getD "") ""
    let addrs ← orEmpty .addresses (addrsOf ifindex) []
    pure { port, ssid := d.ssid, state := stateName d.state, addrs }
  | _, _ => pure { port := "", ssid := d.ssid, state := stateName d.state, addrs := [] }

end Daemon

/-- A scan a client waits for. -/
structure PendingScan where
  client : ClientId
  ifindex : UInt32

/-- What a client asks for. -/
inductive Request where
  | listPorts
  | portInfo (name : String)
  | portUp (name : String) (up : Bool)
  | scan (port : Option String)
  | connect (ssid : String) (port : Option String)
  | disconnect (ssid : String)
  | forget (ssid : String)
  | status
  | secret (token : UInt64) (value : String)
  | shutdown

/-- Only some clients may issue it. -/
def Request.isStateChanging : Request → Bool
  | .listPorts | .portInfo _ | .scan _ | .status | .secret .. => false
  | .portUp .. | .connect .. | .disconnect _ | .forget _ | .shutdown => true

/-- The loop, with the engine it runs. -/
structure Reactor (S : Platform) (E : System S) where
  engine : Daemon S E
  /-- The clients there are. -/
  clients : List ClientId
  nextId : ClientId
  scans : List PendingScan
  /-- Saved networks are joined without being asked. -/
  autoconnect : Bool
  autoAttempts : ℕ
  autoPaused : Bool
  stopping : Bool
  /-- By how much the machine has been asleep, in milliseconds. -/
  suspendOffset : ℕ

namespace Reactor

/-- How long the scan of a client may take, in milliseconds. -/
def scanTimeout : ℕ := 15000
/-- The delay before the first autoconnect, in milliseconds. -/
def autoconnectStart : ℕ := 2000
/-- The least delay between two autoconnects, in seconds. -/
def autoconnectMin : ℕ := 10
/-- The greatest delay between two autoconnects, in seconds. -/
def autoconnectMax : ℕ := 300
/-- The delay while there is nothing to attempt, in milliseconds. -/
def autoconnectSettled : ℕ := 60000

variable {S : Platform} {E : System S}

/-- A computation of the loop. -/
abbrev ReactorM (S : Platform) (E : System S) (α : Type) : Type := Effect String (Reactor S E) α

/-- Run the engine. -/
def withEngine {α : Type} (m : EngineM S E α) : ReactorM S E α :=
  Effect.zoom Reactor.engine (fun r d => { r with engine := d }) m

/-- Answer a client. -/
def reply (client : ClientId) (message : Message) : ReactorM S E Unit :=
  withEngine (send client message)

/-- What fails is answered with the reason. -/
def orError (client : ClientId) (m : ReactorM S E Unit) : ReactorM S E Unit := do
  match ← m.attempt with
  | .ok _ => pure ()
  | .error e => reply client (.error e)

/-- What succeeds is the response. -/
def answer {α : Type} (client : ClientId) (m : EngineM S E α) (response : α → Message) :
    ReactorM S E Unit :=
  orError client do
    let a ← withEngine m
    reply client (response a)

/-- The client is allowed to change anything. -/
def mayChangeState (client : ClientId) : ReactorM S E Bool := do
  if client ∈ (← get).clients then
    match ← withEngine (ask (.mayChangeState client)) with
    | .ok allowed => pure allowed
    | .error _ => pure false
  else pure false

/-! ## Scans -/

/-- A scan for a client, which waits for the results. -/
def startScan (client : ClientId) (port : Option String) : ReactorM S E Unit := do
  let interface ← withEngine (wirelessInterface port)
  withEngine (beginScan interface)
  modify fun r => { r with scans := r.scans ++ [{ client, ifindex := interface.ifindex }] }
  withEngine (arm (.scan client) scanTimeout)
  reply client .scanning

/-- The clients that wait for a scan of the interface, once for each scan. -/
def waitingOn (r : Reactor S E) (ifindex : UInt32) : List ClientId :=
  (r.scans.filter fun s => s.ifindex = ifindex).map PendingScan.client

/-- The client waits no longer, and is told why. -/
def finishScan (client : ClientId) (response : Message) : ReactorM S E Unit := do
  modify fun r => { r with scans := r.scans.filter fun s => s.client ≠ client }
  withEngine (cancel (.scan client))
  reply client response

/-- Answer a list of clients that wait. -/
def finishScans (response : Message) : List ClientId → ReactorM S E Unit
  | [] => pure ()
  | client :: rest => do
    finishScan client response
    finishScans response rest

/-- The results of a scan are there for those that wait. -/
def onScanDone (ifindex : UInt32) : ReactorM S E Unit := do
  let waiting := (← get).waitingOn ifindex
  if waiting.isEmpty then pure ()
  else
    match ← (withEngine (networks ifindex)).attempt with
    | .ok list => finishScans (.networks list) waiting
    | .error e => finishScans (.error e) waiting

/-- The kernel has given a scan up. -/
def onScanAborted (ifindex : UInt32) : ReactorM S E Unit := do
  finishScans (.error "the kernel aborted the scan") ((← get).waitingOn ifindex)

/-! ## Requests -/

/-- Raise or lower a port; a radio taken down is not brought back by the daemon itself. -/
def setPortUp (name : String) (up : Bool) : ReactorM S E Unit := do
  withEngine (rtnlPort id)
  match ← withEngine (request (.linkByName name) id) with
  | none => throw ("no such port: " ++ name)
  | some link =>
    withEngine (setLinkUp link.index up id)
    if link.wireless then
      modify fun r => { r with autoPaused := !up }
      if up then withEngine (disablePowerSave link.index)

/-- A request of a client that may make it. -/
def handlePermitted (client : ClientId) : Request → ReactorM S E Unit
  | .listPorts => answer client (portsSummary none) .ports
  | .portInfo name => answer client (portsSummary (some name)) .ports
  | .portUp name up => orError client do
    setPortUp name up
    reply client .ok
  | .scan port => orError client (startScan client port)
  | .status => answer client status .status
  | .connect ssid port => do
    modify fun r => { r with autoPaused := false }
    orError client do
      let ifindex ← withEngine (wirelessIfindexUp port)
      withEngine (Daemon.connect ifindex ssid client)
  | .disconnect ssid => orError client do
    withEngine (Daemon.disconnect ssid client)
    modify fun r => { r with autoPaused := true }
  | .forget ssid => orError client do
    if ← withEngine (Daemon.forget ssid client) then pure () else reply client .ok
  | .secret token value => orError client (withEngine (Daemon.secret token value client))
  | .shutdown => do
    reply client .ok
    modify fun r => { r with stopping := true }

/-- Told to a client that may not change anything. -/
def denied : String := "permission denied: this needs root or membership of the caw group"

/-- A request: what changes anything is for those that may. -/
def handle (client : ClientId) (request : Request) : ReactorM S E Unit := do
  if request.isStateChanging then
    if ← mayChangeState client then handlePermitted client request
    else reply client (.error denied)
  else handlePermitted client request

/-! ## Timers -/

/-- How long to wait after that many attempts, in milliseconds. -/
def autoconnectBackoff (attempts : ℕ) : ℕ :=
  1000 * min (autoconnectMin * 2 ^ min (attempts - 1) 16) autoconnectMax

/-- Try to join what is known after a delay. -/
def armAutoconnect (delay : ℕ) : ReactorM S E Unit := withEngine (arm .autoconnect delay)

/-- One turn of the daemon's own attempts. -/
def onAutoconnect : ReactorM S E Unit := do
  let r ← get
  if !r.autoconnect then pure ()
  else if r.autoPaused ∨ !r.engine.isIdle then
    modify fun r => { r with autoAttempts := 0 }
    armAutoconnect autoconnectSettled
  else
    let _ ← (withEngine do
      let ifindex ← wirelessIfindexUp none
      Daemon.autoconnect ifindex).attempt
    modify fun r => { r with autoAttempts := min (r.autoAttempts + 1) (2 ^ 32 - 1) }
    armAutoconnect (autoconnectBackoff (← get).autoAttempts)

/-- A deadline has run out. -/
def onKey : Key → ReactorM S E Unit
  | .scan client => finishScan client (.error "scan timed out")
  | .core id => withEngine (Daemon.onTimer id)
  | .autoconnect => onAutoconnect
  | .dhcp timer => withEngine (onDhcpTimer timer)

/-- All the deadlines that have run out. -/
def onKeys : List Key → ReactorM S E Unit
  | [] => pure ()
  | key :: rest => do
    onKey key
    onKeys rest

/-- Everything due. -/
def onTimer : ReactorM S E Unit := do
  let d := (← get).engine
  withEngine (modify fun d => { d with timers := d.timers.unexpired d.now })
  onKeys (d.timers.expired d.now)

/-! ## The other sources -/

/-- A notification of nl80211. -/
def onWireless (body : Bytes) : ReactorM S E Unit := do
  if (← get).engine.nl then
    match Nl80211.Event.decode body with
    | none => pure ()
    | some event =>
      match event with
      | .scanComplete _ ifindex => onScanDone ifindex
      | .scanAborted _ ifindex => onScanAborted ifindex
      | _ => pure ()
      withEngine (Daemon.onWireless event)

/-- News of a link. -/
def onLink (event : LinkEvent) : ReactorM S E Unit := do
  withEngine (Daemon.onLink event)
  let r ← get
  if r.autoconnect ∧ !r.autoPaused ∧ r.engine.isIdle then
    modify fun r => { r with autoAttempts := 0 }
    armAutoconnect autoconnectStart

/-- A reading of the suspend clock. -/
def checkResume (offset : ℕ) : ReactorM S E Unit := do
  if offset - (← get).suspendOffset > 500 then
    withEngine Daemon.resume
    finishScans (.error "scan interrupted by suspend") ((← get).scans.map PendingScan.client)
    modify fun r => { r with autoAttempts := 0 }
    if (← get).autoconnect then armAutoconnect 0
  modify fun r => { r with suspendOffset := offset }

/-- A client went away: drop what is held for it. -/
def forget (client : ClientId) : ReactorM S E Unit := do
  modify fun r => { r with scans := r.scans.filter fun s => s.client ≠ client }
  withEngine (cancel (.scan client))
  withEngine (forgetClient client)

/-- Clients that have gone away. -/
def forgetAll : List ClientId → ReactorM S E Unit
  | [] => pure ()
  | client :: rest => do
    forget client
    forgetAll rest

/-- Drop the clients that are finished. -/
def reap (gone : List ClientId) : ReactorM S E Unit := do
  let reaped := (← get).clients.filter fun client => client ∈ gone
  modify fun r => { r with clients := r.clients.filter fun client => client ∉ gone }
  forgetAll reaped

/-! ## Events -/

/-- What wakes the loop. -/
inductive Event where
  | accept
  | request (client : ClientId) (request : Request)
  /-- A message of the nl80211 event socket. -/
  | wireless (body : Bytes)
  | link (event : LinkEvent)
  | eapol (frame : Bytes)
  | datagram (bytes : Bytes)
  | timer
  | suspendClock (offset : ℕ)
  | reap (gone : List ClientId)
  | signal
  /-- The loop has ended. -/
  | shutdown

/-- What the loop wakes up for. -/
def dispatch : Event → ReactorM S E Unit
  | .accept => modify fun r => { r with clients := r.clients ++ [r.nextId], nextId := r.nextId + 1 }
  | .request client request => do
    if client ∈ (← get).clients then handle client request
  | .wireless body => onWireless body
  | .link event => onLink event
  | .eapol frame => withEngine (onEapol frame)
  | .datagram bytes => withEngine (onDhcpDatagram bytes)
  | .timer => onTimer
  | .suspendClock offset => checkResume offset
  | .reap gone => reap gone
  | .signal => modify fun r => { r with stopping := true }
  | .shutdown => withEngine shutDown

/-- A loop that has just been set up. -/
def start (world : E.World) (nl rtnl autoconnect : Bool) (suspendOffset : ℕ) : Reactor S E where
  engine :=
    let engine : Daemon S E := .start world nl rtnl
    if autoconnect then
      { engine with timers := engine.timers.arm .autoconnect autoconnectStart engine.now }
    else engine
  clients := []
  nextId := 1
  scans := []
  autoconnect := autoconnect
  autoAttempts := 0
  autoPaused := false
  stopping := false
  suspendOffset := suspendOffset

/-- The loop, at an instant. -/
def wokenAt (r : Reactor S E) (now : ℕ) : Reactor S E := { r with engine := { r.engine with now := now } }

/-- One event, at an instant, handled in full; a panic ends the process, and the machine goes on from
the state before it. -/
def step (r : Reactor S E) (woken : ℕ × Event) : Reactor S E × Unit :=
  ((((dispatch woken.2).run.run (r.wokenAt woken.1)).map Prod.snd).getD r, ())

end Reactor

end Caw
