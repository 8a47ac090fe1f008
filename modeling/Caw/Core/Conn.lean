import Caw.Core.Auth
import Caw.Core.Rsn
import Caw.Dhcp.Client
import Caw.Lib.Machine
import Caw.Nl80211.Event

/-!
# The connection state machine

One wireless connection on one interface, from the choice of a BSS to a configured address. A
handler returns the next connection and the actions to take; `none` where the source panics.

* `Core.State`, `Core.Input`, `Core.Action`, and the requests actions carry;
* `Connection`, `Session`, `Choice`, `Target`;
* `Connection.poll` and its handlers, in the order of the source;
* `Connection.step`: a poll, or a change of the saved profiles, as a machine.
-/

set_option autoImplicit false

namespace Caw

namespace Core

/-- How long a scan may take, in milliseconds. -/
def scanTimeoutMs : ℕ := 10000
/-- How long an answer to an authentication frame may take. -/
def authTimeoutMs : ℕ := 3000
/-- How long an association may take. -/
def assocTimeoutMs : ℕ := 8000
/-- The first delay before another attempt. -/
def backoffBaseMs : ℕ := 1000
/-- The delay that is doubled no further. -/
def backoffMaxMs : ℕ := 60000

/-- 802.11 reason code 3: the station is leaving. -/
def reasonLeaving : UInt16 := 3

/-- The RSN Extension element that declares hash-to-element. -/
def rsnxeSaeH2e : Bytes := [244, 1, 32]

/-- The management header in front of a frame body. -/
def mgmtHeaderLen : ℕ := 24

/-- Frame control of an Authentication frame. -/
def fcAuth : UInt8 := 0xb0

/-- Where a connection is. -/
inductive State where
  | idle
  | scanning
  | authenticating
  | associating
  | handshaking
  | configuring
  | connected
  | reconnecting
deriving DecidableEq

/-- The interface a connection runs on. -/
structure Device where
  ifindex : UInt32
  mac : Mac
  caps : DeviceCaps
deriving DecidableEq

/-- What a client asks of the connection. -/
inductive Command where
  | connect (ssid : Bytes)
  | autoconnect
  | secret (value : String)
  | disconnect
deriving DecidableEq

/-- What the daemon's address configuration reports. -/
inductive LeaseEvent where
  | acquired (lease : Dhcp.Lease)
  | lost (reason : Dhcp.Reason)
  | failed
deriving DecidableEq

/-- The timers this machine arms. -/
inductive TimerId where
  | scanTimeout
  | authTimeout
  | assocTimeout
  | handshakeRetry
  | reconnectBackoff
deriving DecidableEq

/-- Things that happen to a connection. -/
inductive Input where
  | command (command : Command)
  | wireless (event : Nl80211.Event)
  | scanResults (scan : List Bss)
  | eapol (frame : Bytes)
  | lease (event : LeaseEvent)
  | timer (id : TimerId)
deriving DecidableEq

/-- One authentication frame to send. -/
structure AuthRequest where
  ifindex : UInt32
  ssid : Bytes
  bssid : Mac
  freqMhz : UInt32
  authType : UInt32
  data : Bytes
deriving DecidableEq

/-- Everything an association request needs. -/
structure AssocRequest where
  ifindex : UInt32
  ssid : Bytes
  bssid : Mac
  freqMhz : UInt32
  authType : UInt32
  wpaVersions : UInt32
  pairwiseCiphers : List UInt32
  groupCipher : Option UInt32
  akms : List UInt32
  mfp : Option UInt32
  ies : Bytes
  offload : Option Offload
  /-- The station has authenticated with this BSS itself. -/
  authenticated : Bool
deriving DecidableEq

/-- The pairwise key of the link, for the kernel. -/
structure PairwiseKey where
  peer : Mac
  cipher : UInt32
  ptk : Ptk
deriving DecidableEq

/-- The group key of the link, for the kernel. -/
structure GroupKey where
  cipher : UInt32
  gtk : Gtk
deriving DecidableEq

/-- Keys to install; a group rekey has no pairwise key. -/
structure KeyInstall where
  pairwise : Option PairwiseKey
  group : GroupKey
deriving DecidableEq

/-- What the daemon should do. -/
inductive Action where
  | triggerScan (ifindex : UInt32)
  | fetchScanResults (ifindex : UInt32)
  | associate (request : AssocRequest)
  | authenticate (request : AuthRequest)
  | disconnect (reason : UInt16)
  | sendEapol (frame : Bytes)
  | installKeys (keys : KeyInstall)
  | startDhcp
  | applyLease (lease : Dhcp.Lease)
  | setTimer (id : TimerId) (millis : ℕ)
  | clearTimer (id : TimerId)
  | requestSecret (prompt : String)
  | saveProfile (profile : Profile)
  | notify (state : State)
  | failed (failure : Failure)
deriving DecidableEq

/-- The network a connection works towards. -/
structure Target where
  ssid : Bytes
  /-- Typed for this attempt. -/
  secret : Option String
  /-- Retry with backoff rather than report a failure. -/
  retry : Bool
  /-- Write a profile once the connection stands up. -/
  save : Bool
deriving DecidableEq

/-- The suites a join settled on. -/
structure Negotiated where
  akm : Akm
  pairwise : Cipher
  group : Cipher
  groupMgmt : Option Cipher
  mfpCapable : Bool
  mfpRequired : Bool
  /-- The element of the access point, octet for octet. -/
  beaconIe : Bytes
deriving DecidableEq

/-- The suites and addresses of one attempt against one BSS. -/
structure Choice where
  bssid : Mac
  freqMhz : UInt32
  signalDbm : Int32
  /-- What the network advertised. -/
  advertised : Security
  /-- What this association provides. -/
  negotiated : Security
  rsn : Option Negotiated
  roaming : Bool
deriving DecidableEq

/-- Length of the longest element a station sends. -/
def maxAssocIe : ℕ := 47

/-- The element of an association request; message 2 repeats it. -/
abbrev AssocIe : Type := { ie : Bytes // ie.length ≤ maxAssocIe }

theorem AssocIe.fits (ie : AssocIe) : bodyMin + ie.val.length < 65536 :=
  Nat.lt_of_le_of_lt (Nat.add_le_add_left ie.property _) (by decide)

/-- One association attempt, from the moment a BSS is chosen. -/
structure Session (S : Platform) where
  choice : Choice
  auth : Auth S
  pmkid : Option (Octets 16)
  assocIe : AssocIe
  handshake : Option FourWay

namespace Session

variable {S : Platform} (session : Session S)

/-- The session with its authentication moved on. -/
@[simps]
def withAuth (auth : Auth S) : Session S := { session with auth := auth }

/-- The session with its handshake moved on. -/
@[simps]
def withHandshake (handshake : FourWay) : Session S := { session with handshake := some handshake }

/-- The session with the signal of its BSS measured again. -/
@[simps]
def withSignal (signalDbm : Int32) : Session S :=
  { session with choice := { session.choice with signalDbm := signalDbm } }

end Session

/-- What a pre-association provider is told. -/
inductive SaeEvent where
  | start
  | frame (bytes : Bytes)
  | timeout

/-- The timer a state waits on. -/
def timerOf : State → Option TimerId
  | .scanning => some .scanTimeout
  | .authenticating => some .authTimeout
  | .associating => some .assocTimeout
  | .handshaking | .connected => some .handshakeRetry
  | .reconnecting => some .reconnectBackoff
  | .idle | .configuring => none

/-- Exponential backoff; attempts count from one. -/
def backoffMs (attempt : UInt32) : ℕ :=
  let shift := min (attempt.toNat - 1) 31
  min (backoffBaseMs * 2 ^ min shift 20) backoffMaxMs

/-- The suites to ask for on a secured network. -/
def negotiate (enterprise : Bool) (rsn : RsnIe) (credential : Option Credential) :
    Except Failure Negotiated :=
  match Policy.chooseAkm enterprise rsn credential with
  | none => .error .unsupportedSecurity
  | some akm =>
    match Policy.choosePairwise rsn with
    | none => .error .unsupportedSecurity
    | some pairwise =>
      let mfpRequired := rsn.mfpRequired || akm.isSae
      .ok { akm, pairwise, group := rsn.groupCipher, groupMgmt := rsn.groupMgmtCipher
            mfpCapable := rsn.mfpCapable || mfpRequired, mfpRequired, beaconIe := rsn.raw }

/-- The security an association with these suites provides. -/
def provided : Option Negotiated → Security
  | some n => Policy.negotiatedSecurity n.akm n.mfpRequired
  | none => .open

/-- The peer a provider authenticates against. -/
def authContext (ssid : Bytes) (choice : Choice) (ownMac : Mac) : AuthContext where
  ssid := ssid
  bssid := choice.bssid
  ownMac := ownMac
  akm := (choice.rsn.map Negotiated.akm).getD .psk

end Core

open Caw.Core

/-- One wireless connection on one interface. -/
structure Connection (S : Platform) where
  device : Device
  profiles : List Profile
  state : State
  target : Option Target
  session : Option (Session S)
  /-- Consecutive failed attempts. -/
  attempts : UInt32
  /-- The timer this machine last asked for. -/
  armed : Option TimerId
  /-- A BSS parked until a passphrase is supplied. -/
  pending : Option Bss

namespace Connection

variable {S : Platform}

/-- The connection with its session replaced. -/
@[simps]
def withSession (c : Connection S) (session : Session S) : Connection S :=
  { c with session := some session }

/-- The connection with its target replaced. -/
@[simps]
def withTarget (c : Connection S) (target : Target) : Connection S :=
  { c with target := some target }

/-- A handler's result, and then what another one makes of it. -/
def andThen (r : Connection S × List Action)
    (f : Connection S → Connection S × List Action) : Connection S × List Action :=
  ((f r.1).1, r.2 ++ (f r.1).2)

/-- The same for a handler that may panic. -/
def tryThen (r : Connection S × List Action)
    (f : Connection S → Option (Connection S × List Action)) :
    Option (Connection S × List Action) :=
  (f r.1).map fun r' => (r'.1, r.2 ++ r'.2)

/-- A connection at rest, with the profiles that were loaded. -/
@[simps]
def new (device : Device) (profiles : List Profile) : Connection S where
  device := device
  profiles := profiles
  state := .idle
  target := none
  session := none
  attempts := 0
  armed := none
  pending := none

/-- Add or replace a saved network. -/
@[simps]
def insertProfile (c : Connection S) (profile : Profile) : Connection S :=
  { c with
    target := c.target.map fun t =>
      if t.ssid = profile.ssid then { t with retry := profile.autoconnect } else t
    profiles := (c.profiles.filter fun p => p.ssid ≠ profile.ssid) ++ [profile] }

/-- Drop a saved profile. -/
@[simps]
def forgetProfile (c : Connection S) (ssid : Bytes) : Connection S :=
  { c with profiles := c.profiles.filter fun p => p.ssid ≠ ssid }

/-! ## Transitions -/

/-- The states in which there is a link to lose. -/
def associated (c : Connection S) : Bool :=
  c.state = .associating || c.state = .handshaking || c.state = .configuring || c.state = .connected

/-- Arm a timer, which is the one armed from then on. -/
def arm (c : Connection S) (id : TimerId) (millis : ℕ) : Connection S × List Action :=
  ({ c with armed := some id }, [.setTimer id millis])

/-- Clear the armed timer, if there is one. -/
def disarm (c : Connection S) : Connection S × List Action :=
  ({ c with armed := none }, (c.armed.map Action.clearTimer).toList)

/-- Move to a state; a timer of another state is cleared. -/
def enter (c : Connection S) (state : State) : Connection S × List Action :=
  andThen (if c.armed.isSome ∧ c.armed ≠ timerOf state then c.disarm else (c, [])) fun c =>
    ({ c with state := state }, [.notify state])

/-- Give up everything and rest. -/
def goIdle (c : Connection S) : Connection S × List Action :=
  andThen c.disarm fun c =>
    ({ c with state := .idle, target := none, session := none, pending := none, attempts := 0 },
      [.notify .idle])

/-- Back off before the next attempt. -/
def backOff (c : Connection S) : Connection S × List Action :=
  andThen ({ c with attempts := c.attempts + 1 }.enter .reconnecting) fun c =>
    c.arm .reconnectBackoff (backoffMs c.attempts)

/-- Report the failure and stop. -/
def giveUp (c : Connection S) (failure : Failure) : Connection S × List Action :=
  andThen c.disarm fun c =>
    ({ c with state := .idle, target := none, attempts := 0 }, [.failed failure])

/-- End the attempt: back off and try again, or report and stop. -/
def fail (c : Connection S) (failure : Failure) : Connection S × List Action :=
  andThen (c, if c.associated && !failure.isDisconnected then [.disconnect reasonLeaving] else [])
    fun c =>
      let c := { c with session := none, pending := none }
      if !failure.isTerminal && c.target.any Target.retry then c.backOff else c.giveUp failure

/-! ## Scanning -/

/-- Scan, with a deadline. -/
def startScan (c : Connection S) : Connection S × List Action :=
  andThen (c.enter .scanning) fun c =>
    andThen (c, [.triggerScan c.device.ifindex]) fun c => c.arm .scanTimeout scanTimeoutMs

/-- The SSID of the target. -/
def ssidBytes (c : Connection S) : Bytes := (c.target.map Target.ssid).getD []

/-- The saved profile of the network worked towards. -/
def profile (c : Connection S) : Option Profile :=
  c.target.bind fun t => c.profiles.find? fun p => p.ssid = t.ssid

/-- The credential to join with; none in hand means a prompt. -/
def credential (c : Connection S) (isOpen : Bool) : Option Credential :=
  if isOpen then some .none
  else
    match c.profile with
    | some profile => some profile.credential
    | none => c.target.bind fun t => t.secret.map .passphrase

/-- The suites of one BSS, where policy lets it be joined at all. -/
def negotiateBss (bss : Bss) (credential : Option Credential) :
    Except Failure (Option Negotiated) :=
  match bss.rsn with
  | none => if bss.security = .open then .ok none else .error .unsupportedSecurity
  | some rsn => (negotiate S.enterprise rsn credential).map some

/-- Everything policy has to say about one BSS. The floor is compared with what the association would
provide, not with what the beacon claims. -/
def evaluate (c : Connection S) (bss : Bss) (credential : Option Credential) (roaming : Bool) :
    Except Failure Choice :=
  (negotiateBss (S := S) bss credential).bind fun rsn =>
    let choice : Choice :=
      { bssid := bss.bssid, freqMhz := bss.freqMhz, signalDbm := bss.signalDbm
        advertised := bss.security, negotiated := provided rsn, rsn, roaming }
    match c.profile with
    | some profile =>
      if profile.accepts choice.negotiated then .ok choice
      else .error (.downgrade profile.minSecurity choice.negotiated)
    | none => .ok choice

/-! ## Association -/

/-- The element of an association request, and whether the station has authenticated itself: after
SAE the RSN Extension element follows the RSN element. -/
def assocIe (session : Session S) (rsn : Negotiated) (offloaded : Bool) : AssocIe :=
  let element := StationRsn.encode
    { group := rsn.group, pairwise := rsn.pairwise, akm := rsn.akm, mfpCapable := rsn.mfpCapable
      mfpRequired := rsn.mfpRequired, pmkid := session.pmkid
      groupMgmt := if rsn.mfpCapable then rsn.groupMgmt else none }
  ⟨element ++ (if rsn.akm.isSae && !offloaded then rsnxeSaeH2e else []), by
    have := StationRsn.length_encode_le
      { group := rsn.group, pairwise := rsn.pairwise, akm := rsn.akm, mfpCapable := rsn.mfpCapable
        mfpRequired := rsn.mfpRequired, pmkid := session.pmkid
        groupMgmt := if rsn.mfpCapable then rsn.groupMgmt else none }
    split <;> simp [element, rsnxeSaeH2e, maxAssocIe] <;> omega⟩

/-- The offload of a session, if the device is to run the handshake. -/
def offloadOf (session : Session S) : Option Offload :=
  match session.auth with
  | .offloaded offload => some offload
  | _ => none

/-- The session once its request is out: an offloaded credential has been handed over. -/
@[simps]
def requested (session : Session S) : Session S :=
  { session with
    auth := match session.auth with
      | .offloaded _ => .open
      | auth => auth
    assocIe := match session.choice.rsn with
      | some rsn => assocIe session rsn (offloadOf session).isSome
      | none => session.assocIe }

/-- The association request of a session. -/
def assocRequest (ifindex : UInt32) (ssid : Bytes) (session : Session S) : AssocRequest :=
  let offload := offloadOf session
  let plain : AssocRequest :=
    { ifindex, ssid, bssid := session.choice.bssid, freqMhz := session.choice.freqMhz
      authType := Nl80211.authtypeOpenSystem, wpaVersions := 0, pairwiseCiphers := []
      groupCipher := none, akms := [], mfp := none, ies := [], offload, authenticated := false }
  match session.choice.rsn with
  | none => plain
  | some rsn =>
    { plain with
      authType := if rsn.akm.isSae then Nl80211.authtypeSae else Nl80211.authtypeOpenSystem
      wpaVersions :=
        if rsn.akm.isSae then Nl80211.wpaVersion2 ||| Nl80211.wpaVersion3 else Nl80211.wpaVersion2
      pairwiseCiphers := (Nl80211.cipherSuite rsn.pairwise).toList
      groupCipher := Nl80211.cipherSuite rsn.group
      akms := [Nl80211.akmSuite rsn.akm]
      mfp := some (if rsn.mfpRequired then Nl80211.mfpRequired
        else if rsn.mfpCapable then Nl80211.mfpOptional else Nl80211.mfpNo)
      ies := (assocIe session rsn offload.isSome).val
      authenticated := rsn.akm.isSae && offload.isNone }

/-- Associate for a target and a session. -/
def associateWith (c : Connection S) (target : Target) (session : Session S) :
    Connection S × List Action :=
  andThen ((c.withSession (requested session)).enter .associating) fun c =>
    andThen (c, [.associate (assocRequest c.device.ifindex target.ssid session)]) fun c =>
      c.arm .assocTimeout assocTimeoutMs

/-- Associate with what the session has settled on. -/
def associate (c : Connection S) : Option (Connection S × List Action) :=
  match c.target, c.session with
  | some target, some session => some (c.associateWith target session)
  | _, _ => none

/-! ## Pre-association authentication -/

/-- Address an SAE frame to the BSS authenticated with; the kernel writes the algorithm number. -/
def authRequest (c : Connection S) (frame : Bytes) : Option AuthRequest :=
  match c.target, c.session with
  | some target, some session =>
    if frame.length < 2 then none
    else some { ifindex := c.device.ifindex, ssid := target.ssid, bssid := session.choice.bssid
                freqMhz := session.choice.freqMhz, authType := Nl80211.authtypeSae
                data := frame.drop 2 }
  | _, _ => none

/-- The body of an authentication frame from the access point authenticated with. -/
def authBody (c : Connection S) (frame : Bytes) : Option Bytes :=
  c.session.bind fun session =>
    if frame.length < mgmtHeaderLen ∨ frame.headD 0 ≠ fcAuth then none
    else if Bytes.slice 10 6 frame ≠ session.choice.bssid then none
    else some (frame.drop mgmtHeaderLen)

/-- The session once its SAE exchange is done. -/
@[simps]
def keyed (session : Session S) (pmk : Pmk) : Session S :=
  { session with
    pmkid := match session.auth with
      | .preAssoc provider => provider.pmkid
      | _ => session.pmkid
    auth := .ready pmk }

/-- What a step of the SAE exchange asks for. -/
def onSaeStep (c : Connection S) : Except Crypto.Fault Step → Option (Connection S × List Action)
  | .error .panic => none
  | .error (.error e) => some (c.fail (.fromCrypto e))
  | .ok .wait => some (c, [])
  | .ok (.send frame) =>
    match c.authRequest frame with
    | none => some (c.fail (.internal "SAE produced a frame with no body"))
    | some request =>
      some (andThen (c, [.authenticate request]) fun c => c.arm .authTimeout authTimeoutMs)
  | .ok (.done pmk) =>
    match c.session with
    | none => none
    | some session => (c.withSession (keyed session pmk)).associate

/-- One call of the provider. -/
def saeCall (provider : SaeProvider S.curve) (ctx : AuthContext) :
    SaeEvent → SaeProvider S.curve × Except Crypto.Fault Step
  | .start => provider.startCall S.prim ctx
  | .frame bytes => provider.onFrame S.prim bytes
  | .timeout => provider.onTimeout

/-- Feed the pre-association provider one event and act on what it says. -/
def driveSae (c : Connection S) (event : SaeEvent) : Option (Connection S × List Action) :=
  match c.target, c.session with
  | some target, some session =>
    match session.auth with
    | .preAssoc provider =>
      let r := saeCall provider (authContext target.ssid session.choice c.device.mac) event
      (c.withSession (session.withAuth (.preAssoc r.1))).onSaeStep r.2
    | _ => some (c, [])
  | _, _ => some (c, [])

/-- Open the SAE exchange. -/
def startSae (c : Connection S) : Option (Connection S × List Action) :=
  tryThen (c.enter .authenticating) fun c => c.driveSae .start

/-! ## Planning -/

/-- A session with one BSS, before anything is sent. -/
@[simps]
def newSession (choice : Choice) (auth : Auth S) : Session S where
  choice := choice
  auth := auth
  pmkid := none
  assocIe := ⟨[], Nat.zero_le _⟩
  handshake := none

/-- The authentication of a choice; an open network has none. -/
def stage (c : Connection S) (draws : Draws S) (choice : Choice) (credential : Credential) :
    Except Failure (Auth S) :=
  match choice.rsn with
  | none => .ok .open
  | some _ =>
    let ctx := authContext c.ssidBytes choice c.device.mac
    assemble draws ctx.akm credential c.device.caps ctx

/-- Park a BSS and ask for its passphrase. The scan timeout stops: the wait is on a person. -/
def prompt (c : Connection S) (bss : Bss) : Connection S × List Action :=
  andThen c.disarm fun c =>
    ({ c with pending := some bss }, [.requestSecret ("Passphrase for " ++ ssidText c.ssidBytes)])

/-- Begin an attempt. Roaming does not authenticate with a second access point: that would drop the
working link. -/
def begin (c : Connection S) (choice : Choice) (auth : Auth S) :
    Option (Connection S × List Action) :=
  match auth with
  | .preAssoc _ =>
    if choice.roaming then some (c, [])
    else (c.withSession (newSession choice auth)).startSae
  | _ => (c.withSession (newSession choice auth)).associate

/-- Decide how to join one BSS, and start doing it. A roam that will not plan is no failure. -/
def plan (c : Connection S) (draws : Draws S) (bss : Bss) (roaming : Bool) :
    Option (Connection S × List Action) :=
  let credential := c.credential bss.rsn.isNone
  match c.evaluate bss credential roaming with
  | .error failure => some (if roaming then (c, []) else c.fail failure)
  | .ok choice =>
    match credential with
    | none =>
      if choice.rsn.any fun n => n.akm.isEnterprise then some (c.fail .noCredential)
      else some (c.prompt bss)
    | some credential =>
      match c.stage draws choice credential with
      | .error failure => some (c.fail failure)
      | .ok auth => c.begin choice auth

/-- The first BSS of a scan with a BSSID. -/
def planBssid (c : Connection S) (draws : Draws S) (scan : List Bss) (bssid : Mac) (roaming : Bool) :
    Option (Connection S × List Action) :=
  match scan.find? fun bss => bss.bssid = bssid with
  | none => none
  | some bss => c.plan draws bss roaming

/-- The target an autoconnect finds. -/
def discovered (ssid : Bytes) : Target where
  ssid := ssid
  secret := none
  retry := true
  save := false

/-- Pick a BSS out of a scan and start working towards it. -/
def select (c : Connection S) (draws : Draws S) (scan : List Bss) :
    Option (Connection S × List Action) :=
  match c.target with
  | some target =>
    match Policy.bestBss scan target.ssid with
    | some bss => c.planBssid draws scan bss.bssid false
    | none => some (c.fail .notFound)
  | none =>
    match Policy.bestKnown scan c.profiles with
    | some (bss, profile) =>
      (c.withTarget (discovered profile.ssid)).planBssid draws scan bss.bssid false
    | none => some (c.fail .noKnownNetwork)

/-! ## Roaming -/

/-- The current signal: a fresh reading, or the one recorded. -/
def currentSignal (session : Session S) (scan : List Bss) : Int32 :=
  match scan.find? fun bss => bss.bssid = session.choice.bssid with
  | some bss => bss.signalDbm
  | none => session.choice.signalDbm

/-- A survey while connected: move where an entry is worth it. -/
def considerRoam (c : Connection S) (draws : Draws S) (scan : List Bss) :
    Option (Connection S × List Action) :=
  match c.session, c.target with
  | some session, some target =>
    let signal := currentSignal session scan
    match Policy.roamTarget scan target.ssid session.choice.bssid signal with
    | none =>
      some (c.withSession (session.withSignal signal), [])
    | some better => c.planBssid draws scan better.bssid true
  | _, _ => some (c, [])

/-- The results of a scan, for a state that wants them. -/
def onScanResults (c : Connection S) (draws : Draws S) (scan : List Bss) :
    Option (Connection S × List Action) :=
  match c.state with
  | .scanning => c.select draws scan
  | .connected => c.considerRoam draws scan
  | _ => some (c, [])

/-! ## Commands -/

/-- The target of an explicit command. -/
def aimedAt (c : Connection S) (ssid : Bytes) : Target :=
  let profile := c.profiles.find? fun p => p.ssid = ssid
  { ssid, secret := none, retry := profile.any Profile.autoconnect, save := profile.isNone }

/-- A fresh attempt at a target, or at whatever the scan shows. -/
@[simps]
def restart (c : Connection S) (target : Option Target) : Connection S :=
  { c with target, session := none, pending := none, attempts := 0 }

/-- A command of the user. -/
def onCommand (c : Connection S) (draws : Draws S) :
    Command → Option (Connection S × List Action)
  | .connect ssid =>
    some (andThen (c, if c.state = .idle then [] else [.disconnect reasonLeaving]) fun c =>
      (c.restart (some (c.aimedAt ssid))).startScan)
  | .autoconnect =>
    some (if c.state = .idle then (c.restart none).startScan else (c, []))
  | .secret value =>
    match c.target with
    | none => some (c, [])
    | some target =>
      let c := c.withTarget { target with secret := some value }
      match c.pending with
      | none => some (c, [])
      | some bss => { c with pending := none }.plan draws bss false
  | .disconnect => some (andThen (c, [.disconnect reasonLeaving]) goIdle)

/-! ## Address configuration -/

/-- The link is keyed: configure an address, unless this was a roam. -/
def configured (c : Connection S) : Connection S × List Action :=
  if c.session.any fun s => s.choice.roaming then
    andThen (c.enter .connected) fun c => ({ c with attempts := 0 }, [])
  else andThen (c.enter .configuring) fun c => (c, [.startDhcp])

/-- The credential a join succeeded with: none on an open network, or the passphrase typed. -/
def joinedWith (target : Target) (session : Session S) : Option Credential :=
  match session.choice.rsn with
  | some _ => target.secret.map .passphrase
  | none => some .none

/-- Remember an explicitly joined network once its address stands. -/
def saveProfile (c : Connection S) : Connection S × List Action :=
  match c.target, c.session with
  | some target, some session =>
    if !target.save then (c, [])
    else
      match joinedWith target session with
      | none => (c, [])
      | some credential =>
        let profile :=
          { Profile.new target.ssid session.choice.advertised credential with autoconnect := true }
        ((c.withTarget { target with save := false }).insertProfile profile,
          [.saveProfile profile])
  | _, _ => (c, [])

/-- News of the address exchange. -/
def onLease (c : Connection S) : LeaseEvent → Connection S × List Action
  | .acquired lease =>
    andThen (c, [.applyLease lease]) fun c =>
      andThen (c.enter .connected) fun c => { c with attempts := 0 }.saveProfile
  | .lost _ =>
    -- the link still works: ask for another address
    if c.state = .connected then andThen (c.enter .configuring) fun c => (c, [.startDhcp])
    else (c, [])
  | .failed => c.fail .dhcp

/-! ## The 4-way handshake and 802.1X -/

/-- The handshake's view of an association. -/
def handshakeConfig (c : Connection S) (session : Session S) (rsn : Negotiated) : Config where
  akm := rsn.akm
  ownMac := c.device.mac
  bssid := session.choice.bssid
  assocRsnIe := session.assocIe.val
  beaconRsnIe := rsn.beaconIe
  assocFits := session.assocIe.fits

/-- Begin the four-way handshake with a PMK. -/
def startHandshake (c : Connection S) (draws : Draws S) (pmk : Pmk) :
    Option (Connection S × List Action) :=
  match c.session with
  | none => none
  | some session =>
    match session.choice.rsn with
    | none => none
    | some rsn =>
      match draws.snonce with
      | .error e => some (c.fail (.fromEapol S (.io e)))
      | .ok snonce =>
        let handshake := FourWay.withSnonce pmk (c.handshakeConfig session rsn) snonce
        some ((c.withSession (session.withHandshake handshake)).enter .handshaking)

/-- One call of the 802.1X provider. -/
def dot1xCall (provider : S.Dot1x) (ctx : AuthContext) :
    Option Bytes → S.Dot1x × Except Crypto.Error Step
  | some frame => S.dot1xOnFrame provider ctx frame
  | none => S.dot1xStart provider ctx

/-- What the 802.1X provider answers; the key it ends with goes to the handshake. -/
def onDot1xStep (c : Connection S) (draws : Draws S) (session : Session S) :
    Except Crypto.Error Step → Option (Connection S × List Action)
  | .ok (.send frame) => some (c, [.sendEapol frame])
  | .ok .wait => some (c, [])
  | .ok (.done pmk) =>
    (c.withSession (session.withAuth .running)).startHandshake draws pmk
  | .error e => some (c.fail (.fromCrypto e))

/-- Hand a frame, or the start, to the 802.1X provider. -/
def driveDot1x (c : Connection S) (draws : Draws S) (frame : Option Bytes) :
    Option (Connection S × List Action) :=
  match c.target, c.session with
  | some target, some session =>
    match session.auth with
    | .postAssoc provider =>
      let r := dot1xCall provider (authContext target.ssid session.choice c.device.mac) frame
      let session := session.withAuth (.postAssoc r.1)
      (c.withSession session).onDot1xStep draws session r.2
    | _ => some (c, [])
  | _, _ => some (c, [])

/-- The group cipher the session settled on. -/
def groupSuite (c : Connection S) : UInt32 :=
  ((c.session.bind fun s => s.choice.rsn).bind fun rsn => Nl80211.cipherSuite rsn.group).getD
    Nl80211.wlanCipherSuiteCcmp

/-- The keys of a finished handshake as an installation. -/
def pairwiseInstall (c : Connection S) (keys : Keys) : Option KeyInstall :=
  c.session.bind fun session => session.choice.rsn.map fun rsn =>
    { pairwise := some
        { peer := session.choice.bssid
          cipher := (Nl80211.cipherSuite rsn.pairwise).getD Nl80211.wlanCipherSuiteCcmp
          ptk := keys.ptk }
      group := { cipher := c.groupSuite, gtk := keys.gtk } }

/-- Carry out what the handshake asks for. -/
def handshakeAction (c : Connection S) : FourWay.Action → Option (Connection S × List Action)
  | .send frame => some (c, [.sendEapol frame])
  | .armTimer ms => some (c.arm .handshakeRetry ms)
  | .disarmTimer => some c.disarm
  | .complete keys => (c.pairwiseInstall keys).map fun install => (c, [.installKeys install])
  | .newGtk gtk =>
    some (c, [.installKeys { pairwise := none, group := { cipher := c.groupSuite, gtk } }])

/-- The actions of the handshake, in order. -/
def handshakeActions (c : Connection S) : List FourWay.Action → Option (Connection S × List Action)
  | [] => some (c, [])
  | action :: rest => (c.handshakeAction action).bind fun r => tryThen r fun c => c.handshakeActions rest

/-- The handshake hands its keys over. -/
def isComplete : FourWay.Action → Bool
  | .complete _ => true
  | _ => false

/-- Only a finished pairwise handshake moves the connection on. -/
def onHandshakeActions (c : Connection S) :
    Except Eapol.Error (List FourWay.Action) → Option (Connection S × List Action)
  | .error e => some (c.fail (.fromEapol S e))
  | .ok actions => (c.handshakeActions actions).map fun r =>
      andThen r fun c => if actions.any isComplete then c.configured else (c, [])

/-- Hand a frame or a timeout to the handshake. -/
def driveHandshake (c : Connection S) (input : FourWay.Input) :
    Option (Connection S × List Action) :=
  match c.session with
  | none => some (c, [])
  | some session =>
    match session.handshake with
    | none => some (c, [])
    | some handshake =>
      let r := handshake.poll S.prim input
      (c.withSession (session.withHandshake r.1)).onHandshakeActions r.2

/-- A frame of the EAPOL port. -/
def onEapol (c : Connection S) (draws : Draws S) (frame : Bytes) :
    Option (Connection S × List Action) :=
  if c.state ≠ .handshaking ∧ c.state ≠ .connected then some (c, [])
  else
    match Eapol.parse frame with
    | .error _ => some (c, [])
    | .ok eapol =>
      match eapol.packetType with
      | .key => c.driveHandshake (.frame frame)
      | .eap => c.driveDot1x draws (some frame)
      -- EAPOL-Start and Logoff are an authenticator's to receive
      | .start | .logoff => some (c, [])

/-- The kernel reports the association. -/
def onAssociated (c : Connection S) (draws : Draws S) : Option (Connection S × List Action) :=
  match c.session with
  | none => some (c, [])
  | some session =>
    match session.auth with
    | .open | .offloaded _ =>
      some (c.withSession (session.withAuth .open)).configured
    | .ready pmk =>
      (c.withSession (session.withAuth .running)).startHandshake draws pmk
    | .postAssoc _ => tryThen (c.enter .handshaking) fun c => c.driveDot1x draws none
    | .preAssoc _ | .running =>
      some (c.fail (.internal "associated with no authentication staged"))

/-! ## Events and timers -/

/-- News of the kernel. -/
def onWireless (c : Connection S) (draws : Draws S) :
    Nl80211.Event → Option (Connection S × List Action)
  | .scanComplete .. =>
    some (c, if c.state = .scanning ∨ c.state = .connected
      then [.fetchScanResults c.device.ifindex] else [])
  | .scanAborted .. => some (if c.state = .scanning then c.fail .notFound else (c, []))
  | .connected _ status =>
    if c.state ≠ .associating then some (c, [])
    else
      match status with
      | .success => c.onAssociated draws
      | .refused code => some (c.fail (.refused code))
      | .timedOut => some (c.fail .assocTimeout)
  | .disconnected reason byAp =>
    -- only an association can be lost
    some (if c.associated then c.fail (.disconnected reason byAp) else (c, []))
  | .externalAuth _ _ abort =>
    some (if abort ∧ c.state = .authenticating then c.fail .authFailed else (c, []))
  | .authenticate frame =>
    if c.state ≠ .authenticating then some (c, [])
    else
      match c.authBody frame with
      | some body => c.driveSae (.frame body)
      | none => some (c, [])
  | .authTimedOut | .frame _ => some (c, [])

/-- A deadline has run out. -/
def onTimer (c : Connection S) (id : TimerId) :
    Option (Connection S × List Action) :=
  match id, c.state with
  | .scanTimeout, .scanning => some (if c.pending.isNone then c.fail .notFound else (c, []))
  | .assocTimeout, .associating => some (c.fail .assocTimeout)
  | .authTimeout, .authenticating => c.driveSae .timeout
  | .handshakeRetry, .handshaking | .handshakeRetry, .connected => c.driveHandshake .timeout
  | .reconnectBackoff, .reconnecting => some c.startScan
  -- a timer of a state already left
  | _, _ => some (c, [])

/-- One input, and the actions it leads to. -/
def poll (c : Connection S) (draws : Draws S) : Input → Option (Connection S × List Action)
  | .command command => c.onCommand draws command
  | .wireless event => c.onWireless draws event
  | .scanResults scan => c.onScanResults draws scan
  | .eapol frame => c.onEapol draws frame
  | .lease event => some (c.onLease event)
  | .timer id => c.onTimer id

end Connection

namespace Core

/-- A call the daemon makes. -/
inductive Call (S : Platform) where
  | poll (draws : Draws S) (input : Input)
  | insertProfile (profile : Profile)
  | forgetProfile (ssid : Bytes)

end Core

namespace Connection

variable {S : Platform}

/-- One call, as a step of a machine. A panic ends the process; the machine goes on from the state
before it, so that a run of the code that ends in one is the beginning of a run of the machine. -/
def step (c : Connection S) : Call S → Connection S × List Action
  | .poll draws input => (c.poll draws input).getD (c, [])
  | .insertProfile profile => (c.insertProfile profile, [])
  | .forgetProfile ssid => (c.forgetProfile ssid, [])

/-- One call of a run. -/
abbrev Entry (S : Platform) := Machine.Entry (Connection S) (Call S) (List Action)

end Connection

end Caw
