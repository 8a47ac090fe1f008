import Caw.Core.Conn

/-!
# What one poll of a connection can do

The result of every transition field by field, and the polls of a connection taken apart into cases.

* `enter_fst`, `fail_fst`, `startScan_fst`, `associateWith_fst`, …: the transitions;
* `decisions`: the actions that begin or end something, with `decisions_fail`, …;
* `SaeMove`, `SaeDriven`, `Planned`, `KeyStart`, `Dot1xMove`, `HandshakeMove`: the handlers that more
  than one input reaches;
* **`Connection.poll_move`**: every poll is one of the cases of `Connection.Move`.
-/

set_option autoImplicit false

namespace Caw

open Caw.Core

namespace Connection

variable {S : Platform} (c : Connection S)

/-! ## Transitions -/

section Transitions

variable (r : Connection S × List Action) (f : Connection S → Connection S × List Action)

@[simp] theorem andThen_fst : (andThen r f).1 = (f r.1).1 := rfl

@[simp] theorem andThen_snd : (andThen r f).2 = r.2 ++ (f r.1).2 := rfl

theorem tryThen_eq_some {g : Connection S → Option (Connection S × List Action)}
    {q : Connection S × List Action} :
    tryThen r g = some q ↔ ∃ q', g r.1 = some q' ∧ q = (q'.1, r.2 ++ q'.2) := by
  simp [tryThen, eq_comm]

@[simp] theorem arm_fst (id : TimerId) (ms : ℕ) : (c.arm id ms).1 = { c with armed := some id } := rfl

@[simp] theorem arm_snd (id : TimerId) (ms : ℕ) : (c.arm id ms).2 = [.setTimer id ms] := rfl

@[simp] theorem disarm_fst : c.disarm.1 = { c with armed := none } := rfl

/-- The timer left behind on entering a state. -/
def leaving (state : State) : List Action :=
  if c.armed.isSome ∧ c.armed ≠ timerOf state then c.disarm.2 else []

@[simp] theorem enter_fst (state : State) : (c.enter state).1 =
    { c with state := state, armed := if c.armed = timerOf state then c.armed else none } := by
  unfold enter
  cases harmed : c.armed with
  | none => simp [harmed]
  | some id =>
    by_cases h : some id = timerOf state
    · simp [h, harmed]
    · simp [h]

@[simp] theorem enter_snd (state : State) :
    (c.enter state).2 = c.leaving state ++ [.notify state] := by
  unfold enter leaving
  rw [andThen_snd]
  split_ifs <;> rfl

/-- Whether a failure is followed by another attempt. -/
def retries (failure : Failure) : Bool := !failure.isTerminal && c.target.any Target.retry

/-- The connection once it backs off. -/
@[simps]
def backedOff : Connection S :=
  { c with session := none, pending := none, attempts := c.attempts + 1, state := .reconnecting
           armed := some .reconnectBackoff }

/-- The connection once an attempt is over for good. -/
@[simps]
def stopped : Connection S :=
  { c with session := none, pending := none, target := none, attempts := 0, state := .idle
           armed := none }

@[simp] theorem fail_fst (failure : Failure) :
    (c.fail failure).1 = if c.retries failure then c.backedOff else c.stopped := by
  unfold fail retries
  simp only [andThen_fst]
  split_ifs
  · simp [backOff, backedOff]
  · simp [giveUp, stopped]

@[simp] theorem goIdle_fst : c.goIdle.1 = c.stopped := rfl

@[simp] theorem startScan_fst :
    c.startScan.1 = { c with state := .scanning, armed := some .scanTimeout } := by
  simp [startScan]

@[simp] theorem associateWith_fst (target : Target) (session : Session S) :
    (c.associateWith target session).1 =
      { c with session := some (requested session), state := .associating
               armed := some .assocTimeout } := by
  simp [associateWith]

theorem associateWith_snd (target : Target) (session : Session S) :
    (c.associateWith target session).2 =
      (c.withSession (requested session)).leaving .associating ++
        [.notify .associating, .associate (assocRequest c.device.ifindex target.ssid session),
          .setTimer .assocTimeout assocTimeoutMs] := by
  simp [associateWith]

/-- The state a keyed link goes to. -/
def afterKeys : State := if c.session.any fun s => s.choice.roaming then .connected else .configuring

@[simp] theorem configured_state : c.configured.1.state = c.afterKeys := by
  unfold configured afterKeys
  split_ifs <;> simp

@[simp] theorem configured_session : c.configured.1.session = c.session := by
  unfold configured
  split_ifs <;> simp

@[simp] theorem configured_target : c.configured.1.target = c.target := by
  unfold configured
  split_ifs <;> simp

@[simp] theorem configured_pending : c.configured.1.pending = c.pending := by
  unfold configured
  split_ifs <;> simp

@[simp] theorem configured_profiles : c.configured.1.profiles = c.profiles := by
  unfold configured
  split_ifs <;> simp

@[simp] theorem configured_device : c.configured.1.device = c.device := by
  unfold configured
  split_ifs <;> simp

end Transitions

/-! ### What is decided -/

/-- The actions that begin or end something: requests, address configuration, and giving up. -/
@[simp]
def isDecision : Action → Bool
  | .associate _ | .authenticate _ | .startDhcp | .failed _ => true
  | _ => false

/-- The decisions among the actions. -/
def decisions (actions : List Action) : List Action := actions.filter isDecision

section Decisions

variable (c : Connection S)

@[simp] theorem decisions_nil : decisions [] = [] := rfl

@[simp] theorem decisions_append (actions rest : List Action) :
    decisions (actions ++ rest) = decisions actions ++ decisions rest :=
  List.filter_append ..

@[simp] theorem decisions_cons (action : Action) (rest : List Action) :
    decisions (action :: rest) =
      if isDecision action then action :: decisions rest else decisions rest :=
  List.filter_cons

theorem mem_decisions {action : Action} {actions : List Action} (h : isDecision action = true) :
    action ∈ decisions actions ↔ action ∈ actions := by
  rw [decisions, List.mem_filter]
  exact and_iff_left h

@[simp] theorem decisions_disarm : decisions c.disarm.2 = [] := by
  unfold disarm
  cases c.armed <;> rfl

@[simp] theorem decisions_leaving (state : State) : decisions (c.leaving state) = [] := by
  unfold leaving
  split_ifs <;> simp

@[simp] theorem decisions_startScan : decisions c.startScan.2 = [] := by
  simp [startScan]

@[simp] theorem decisions_goIdle : decisions c.goIdle.2 = [] := by
  simp [goIdle]

@[simp] theorem decisions_fail (failure : Failure) :
    decisions (c.fail failure).2 = if c.retries failure then [] else [.failed failure] := by
  unfold fail retries backOff giveUp
  rw [andThen_snd, decisions_append]
  dsimp only
  split_ifs <;> simp

@[simp] theorem decisions_associateWith (target : Target) (session : Session S) :
    decisions (c.associateWith target session).2 =
      [.associate (assocRequest c.device.ifindex target.ssid session)] := by
  simp [associateWith_snd]

@[simp] theorem decisions_configured :
    decisions c.configured.2 =
      if c.session.any fun s => s.choice.roaming then [] else [.startDhcp] := by
  unfold configured
  split_ifs <;> simp

@[simp] theorem decisions_saveProfile : decisions c.saveProfile.2 = [] := by
  unfold saveProfile
  split
  · split_ifs
    · rfl
    · split <;> rfl
  · rfl

end Decisions

/-! ## Handlers more than one input reaches -/

/-- What the answer of the SAE provider leads to. -/
inductive SaeMove : Except Crypto.Fault Step → Connection S × List Action → Prop
  | wait : SaeMove (.ok .wait) (c, [])
  | send (frame request) : c.authRequest frame = some request →
      SaeMove (.ok (.send frame))
        (andThen (c, [.authenticate request]) fun c => c.arm .authTimeout authTimeoutMs)
  | noBody (frame) : c.authRequest frame = none →
      SaeMove (.ok (.send frame)) (c.fail (.internal "SAE produced a frame with no body"))
  | done (target session pmk) : c.target = some target → c.session = some session →
      SaeMove (.ok (.done pmk))
        ((c.withSession (keyed session pmk)).associateWith target (keyed session pmk))
  | fail (e) : SaeMove (.error (.error e)) (c.fail (.fromCrypto e))

/-- What an event for the SAE provider leads to. -/
inductive SaeDriven (event : SaeEvent) : Connection S × List Action → Prop
  | off : (∀ target session provider, c.target = some target → c.session = some session →
      session.auth ≠ .preAssoc provider) → SaeDriven event (c, [])
  | call (target session provider q r) : c.target = some target → c.session = some session →
      session.auth = .preAssoc provider →
      saeCall provider (authContext target.ssid session.choice c.device.mac) event = q →
      SaeMove (c.withSession (session.withAuth (.preAssoc q.1))) q.2 r →
      SaeDriven event r

/-- A BSS policy accepts with the credential in hand. -/
structure Chosen (bss : Bss) (roaming : Bool) (credential : Credential) (choice : Choice) : Prop where
  inHand : c.credential bss.rsn.isNone = some credential
  evaluated : c.evaluate bss (some credential) roaming = .ok choice

/-- What planning for a BSS leads to. -/
inductive Planned (draws : Draws S) (bss : Bss) (roaming : Bool) :
    Connection S × List Action → Prop
  | refused (failure) : c.evaluate bss (c.credential bss.rsn.isNone) roaming = .error failure →
      roaming = false → Planned draws bss roaming (c.fail failure)
  | stay : roaming = true → Planned draws bss roaming (c, [])
  | enterprise (choice) : c.credential bss.rsn.isNone = none →
      c.evaluate bss none roaming = .ok choice →
      Planned draws bss roaming (c.fail .noCredential)
  | prompt (choice) : c.credential bss.rsn.isNone = none →
      c.evaluate bss none roaming = .ok choice →
      (choice.rsn.any fun n => n.akm.isEnterprise) = false →
      Planned draws bss roaming (c.prompt bss)
  | unstaged (credential choice failure) : c.Chosen bss roaming credential choice →
      c.stage draws choice credential = .error failure →
      Planned draws bss roaming (c.fail failure)
  | sae (credential choice provider r) : c.Chosen bss roaming credential choice →
      c.stage draws choice credential = .ok (.preAssoc provider) → choice.roaming = false →
      SaeDriven ((c.withSession (newSession choice (.preAssoc provider))).enter .authenticating).1
        .start r →
      Planned draws bss roaming (r.1,
        (c.withSession (newSession choice (.preAssoc provider))).leaving .authenticating ++
          .notify .authenticating :: r.2)
  | associate (credential choice auth target) : c.Chosen bss roaming credential choice →
      c.stage draws choice credential = .ok auth → (∀ p, auth ≠ .preAssoc p) →
      c.target = some target →
      Planned draws bss roaming ((c.withSession (newSession choice auth)).associateWith target
        (newSession choice auth))

/-- What the start of the 4-way handshake leads to. -/
inductive KeyStart (draws : Draws S) (pmk : Pmk) : Connection S × List Action → Prop
  | noNonce (e) : draws.snonce = .error e → KeyStart draws pmk (c.fail (.fromEapol S (.io e)))
  | start (session rsn snonce) : c.session = some session → session.choice.rsn = some rsn →
      draws.snonce = .ok snonce →
      KeyStart draws pmk ((c.withSession (session.withHandshake
        (.withSnonce pmk (c.handshakeConfig session rsn) snonce))).enter .handshaking)

/-- What the answer of the 802.1X provider leads to, `session` being the session of `c`. -/
inductive Dot1xMove (draws : Draws S) (session : Session S) :
    Except Crypto.Error Step → Connection S × List Action → Prop
  | send (frame) : Dot1xMove draws session (.ok (.send frame)) (c, [.sendEapol frame])
  | wait : Dot1xMove draws session (.ok .wait) (c, [])
  | done (pmk r) : KeyStart (c.withSession (session.withAuth .running)) draws pmk r →
      Dot1xMove draws session (.ok (.done pmk)) r
  | fail (e) : Dot1xMove draws session (.error e) (c.fail (.fromCrypto e))

/-- What an event for the 802.1X provider leads to. -/
inductive Dot1xDriven (draws : Draws S) (frame : Option Bytes) : Connection S × List Action → Prop
  | off : (∀ target session provider, c.target = some target → c.session = some session →
      session.auth ≠ .postAssoc provider) → Dot1xDriven draws frame (c, [])
  | call (target session provider q r) : c.target = some target → c.session = some session →
      session.auth = .postAssoc provider →
      dot1xCall provider (authContext target.ssid session.choice c.device.mac) frame = q →
      Dot1xMove (c.withSession (session.withAuth (.postAssoc q.1))) draws
        (session.withAuth (.postAssoc q.1)) q.2 r →
      Dot1xDriven draws frame r

/-- What an input for the 4-way handshake leads to. -/
inductive HandshakeMove (input : FourWay.Input) : Connection S × List Action → Prop
  | off : (∀ session, c.session = some session → session.handshake = none) →
      HandshakeMove input (c, [])
  | fail (session handshake e) : c.session = some session → session.handshake = some handshake →
      (handshake.poll S.prim input).2 = .error e →
      HandshakeMove input ((c.withSession
        (session.withHandshake (handshake.poll S.prim input).1)).fail (.fromEapol S e))
  | actions (session handshake actions r) : c.session = some session →
      session.handshake = some handshake → (handshake.poll S.prim input).2 = .ok actions →
      (c.withSession (session.withHandshake (handshake.poll S.prim input).1)).handshakeActions
        actions = some r →
      HandshakeMove input
        (andThen r fun c => if actions.any isComplete then c.configured else (c, []))

/-! ## Polls -/

/-- The target and the BSSID a scan is read for. -/
def selection (scan : List Bss) : Option (Target × Mac) :=
  match c.target with
  | some target => (Policy.bestBss scan target.ssid).map fun bss => (target, bss.bssid)
  | none => (Policy.bestKnown scan c.profiles).map fun p => (discovered p.2.ssid, p.1.bssid)

/-- The connection that plans, the BSS it plans for, and whether that is a roam. -/
def plans : Input → Option (Connection S × Bss × Bool)
  | .scanResults scan =>
    match c.state with
    | .scanning => (c.selection scan).bind fun p =>
        (scan.find? fun bss => bss.bssid = p.2).map fun bss => (c.withTarget p.1, bss, false)
    | .connected =>
      match c.session, c.target with
      | some session, some target =>
        (Policy.roamTarget scan target.ssid session.choice.bssid
            (currentSignal session scan)).bind fun better =>
          (scan.find? fun bss => bss.bssid = better.bssid).map fun bss => (c, bss, true)
      | _, _ => none
    | _ => none
  | .command (.secret value) =>
    match c.target, c.pending with
    | some target, some bss =>
      some ({ c.withTarget { target with secret := some value } with pending := none }, bss, false)
    | _, _ => none
  | _ => none

/-- The failure a notification reports, in the states that take it. -/
def linkFailure : Nl80211.Event → Option Failure
  | .scanAborted .. => if c.state = .scanning then some .notFound else none
  | .connected _ (.refused code) => if c.state = .associating then some (.refused code) else none
  | .connected _ .timedOut => if c.state = .associating then some .assocTimeout else none
  | .disconnected reason byAp => if c.associated then some (.disconnected reason byAp) else none
  | .externalAuth _ _ abort => if abort ∧ c.state = .authenticating then some .authFailed else none
  | _ => none

/-- The failure a timer stands for. -/
def timerFailure : TimerId → Option Failure
  | .scanTimeout => if c.state = .scanning ∧ c.pending.isNone then some .notFound else none
  | .assocTimeout => if c.state = .associating then some .assocTimeout else none
  | _ => none

/-- The states in which EAPOL is listened to. -/
def Listening : Prop := c.state = .handshaking ∨ c.state = .connected

/-- **What one poll can do.** -/
inductive Move (draws : Draws S) : Input → Connection S × List Action → Prop
  | ignore (input) : c.plans input = none → Move draws input (c, [])
  | connect (ssid) : Move draws (.command (.connect ssid))
      (andThen (c, if c.state = .idle then [] else [.disconnect reasonLeaving]) fun c =>
        (c.restart (some (c.aimedAt ssid))).startScan)
  | autoconnect : c.state = .idle → Move draws (.command .autoconnect) (c.restart none).startScan
  | secret (value target) : c.target = some target → c.pending = none →
      Move draws (.command (.secret value))
        (c.withTarget { target with secret := some value }, [])
  | answer (value target bss r) : c.target = some target → c.pending = some bss →
      Planned { c.withTarget { target with secret := some value } with pending := none } draws bss
        false r →
      Move draws (.command (.secret value)) r
  | disconnect : Move draws (.command .disconnect) (andThen (c, [.disconnect reasonLeaving]) goIdle)
  | noNetwork (scan failure) : c.state = .scanning → c.selection scan = none →
      (failure = .notFound ∨ failure = .noKnownNetwork) →
      Move draws (.scanResults scan) (c.fail failure)
  | selected (scan target bssid bss r) : c.state = .scanning →
      c.selection scan = some (target, bssid) →
      (scan.find? fun bss => bss.bssid = bssid) = some bss →
      Planned (c.withTarget target) draws bss false r →
      Move draws (.scanResults scan) r
  | surveyed (scan session target) : c.state = .connected → c.session = some session →
      c.target = some target →
      Policy.roamTarget scan target.ssid session.choice.bssid (currentSignal session scan) = none →
      Move draws (.scanResults scan)
        (c.withSession (session.withSignal (currentSignal session scan)), [])
  | roam (scan session target better bss r) : c.state = .connected → c.session = some session →
      c.target = some target →
      Policy.roamTarget scan target.ssid session.choice.bssid (currentSignal session scan) =
        some better →
      (scan.find? fun bss => bss.bssid = better.bssid) = some bss →
      Planned c draws bss true r → Move draws (.scanResults scan) r
  | eapolKey (frame eapol r) : c.Listening → Eapol.parse frame = .ok eapol →
      eapol.packetType = .key → HandshakeMove c (.frame frame) r → Move draws (.eapol frame) r
  | eapolEap (frame eapol r) : c.Listening → Eapol.parse frame = .ok eapol →
      eapol.packetType = .eap → Dot1xDriven c draws (some frame) r → Move draws (.eapol frame) r
  | lease (event) : Move draws (.lease event) (c.onLease event)
  | fetch (wiphy ifindex) : c.state = .scanning ∨ c.state = .connected →
      Move draws (.wireless (.scanComplete wiphy ifindex)) (c, [.fetchScanResults c.device.ifindex])
  | linkFailed (event failure) : c.linkFailure event = some failure →
      Move draws (.wireless event) (c.fail failure)
  | joinedOpen (bssid session) : c.state = .associating → c.session = some session →
      (session.auth = .open ∨ ∃ o, session.auth = .offloaded o) →
      Move draws (.wireless (.connected bssid .success))
        (c.withSession (session.withAuth .open)).configured
  | joinedReady (bssid session pmk r) : c.state = .associating → c.session = some session →
      session.auth = .ready pmk →
      KeyStart (c.withSession (session.withAuth .running)) draws pmk r →
      Move draws (.wireless (.connected bssid .success)) r
  | joinedDot1x (bssid session provider r) : c.state = .associating → c.session = some session →
      session.auth = .postAssoc provider → Dot1xDriven (c.enter .handshaking).1 draws none r →
      Move draws (.wireless (.connected bssid .success))
        (r.1, c.leaving .handshaking ++ .notify .handshaking :: r.2)
  | joinedUnstaged (bssid session) : c.state = .associating → c.session = some session →
      (session.auth = .running ∨ ∃ p, session.auth = .preAssoc p) →
      Move draws (.wireless (.connected bssid .success))
        (c.fail (.internal "associated with no authentication staged"))
  | saeFrame (frame body r) : c.state = .authenticating → c.authBody frame = some body →
      SaeDriven c (.frame body) r → Move draws (.wireless (.authenticate frame)) r
  | saeTimeout (r) : c.state = .authenticating → SaeDriven c .timeout r →
      Move draws (.timer .authTimeout) r
  | handshakeRetry (r) : c.Listening → HandshakeMove c .timeout r →
      Move draws (.timer .handshakeRetry) r
  | timedOut (id failure) : c.timerFailure id = some failure → Move draws (.timer id) (c.fail failure)
  | rescan : c.state = .reconnecting → Move draws (.timer .reconnectBackoff) c.startScan

/-! ### The polls are these moves -/

section Inversion

variable {c} {draws : Draws S} {r : Connection S × List Action}

theorem associate_eq_some (h : c.associate = some r) : ∃ target session,
    c.target = some target ∧ c.session = some session ∧ r = c.associateWith target session := by
  unfold associate at h
  split at h
  · rename_i target session htarget hsession
    cases h
    exact ⟨target, session, htarget, hsession, rfl⟩
  · cases h

theorem onSaeStep_move {x : Except Crypto.Fault Step} (h : c.onSaeStep x = some r) :
    SaeMove c x r := by
  unfold onSaeStep at h
  split at h
  · cases h
  · cases h
    exact .fail _
  · cases h
    exact .wait
  · rename_i frame
    cases hreq : c.authRequest frame with
    | none =>
      rw [hreq] at h
      cases h
      exact .noBody frame hreq
    | some request =>
      rw [hreq] at h
      cases h
      exact .send frame request hreq
  · rename_i pmk
    cases hsession : c.session with
    | none => rw [hsession] at h; cases h
    | some session =>
      rw [hsession] at h
      obtain ⟨target, session', htarget, hsession', rfl⟩ := associate_eq_some h
      cases hsession'
      exact .done target session pmk htarget hsession

theorem driveSae_driven {event : SaeEvent} (h : c.driveSae event = some r) :
    SaeDriven c event r := by
  unfold driveSae at h
  split at h
  · rename_i target session htarget hsession
    split at h
    · rename_i provider hauth
      exact .call target session provider _ r htarget hsession hauth rfl (onSaeStep_move h)
    · rename_i hauth
      cases h
      refine .off fun _ _ _ _ hsession' => ?_
      cases hsession.symm.trans hsession'
      exact hauth _
  · rename_i hno
    cases h
    exact .off fun target session _ htarget hsession => absurd hsession (hno target session htarget)

theorem begin_planned {bss : Bss} {roaming : Bool} {credential : Credential} {choice : Choice}
    {auth : Auth S} (hchosen : c.Chosen bss roaming credential choice)
    (hstage : c.stage draws choice credential = .ok auth) (hroaming : choice.roaming = roaming)
    (h : c.begin choice auth = some r) : Planned c draws bss roaming r := by
  unfold begin at h
  split at h
  · rename_i provider
    split_ifs at h with hr
    · cases h
      exact .stay (hroaming ▸ hr)
    · unfold startSae at h
      obtain ⟨q, hq, rfl⟩ := (tryThen_eq_some _).mp h
      have hplanned := Planned.sae credential choice provider q hchosen hstage (by simpa using hr)
        (driveSae_driven hq)
      simpa using hplanned
  · rename_i hpre
    obtain ⟨target, session, htarget, hsession, rfl⟩ := associate_eq_some h
    cases hsession
    exact .associate credential choice auth target hchosen hstage hpre htarget

theorem evaluate_eq_ok {bss : Bss} {credential : Option Credential} {roaming : Bool}
    {choice : Choice} (h : c.evaluate bss credential roaming = .ok choice) :
    ∃ rsn, negotiateBss (S := S) bss credential = .ok rsn ∧
      choice = { bssid := bss.bssid, freqMhz := bss.freqMhz, signalDbm := bss.signalDbm
                 advertised := bss.security, negotiated := provided rsn, rsn, roaming } ∧
      ∀ profile, c.profile = some profile → profile.accepts (provided rsn) = true := by
  unfold evaluate at h
  obtain ⟨rsn, hrsn, h⟩ := Except.bind_eq_ok.mp h
  refine ⟨rsn, hrsn, ?_⟩
  cases hprofile : c.profile with
  | none =>
    rw [hprofile] at h
    cases h
    exact ⟨rfl, fun _ hp => nomatch hp⟩
  | some profile =>
    rw [hprofile] at h
    simp only at h
    split_ifs at h with haccepts
    cases h
    exact ⟨rfl, fun _ hp => by cases hp; exact haccepts⟩

theorem plan_planned {bss : Bss} {roaming : Bool} (h : c.plan draws bss roaming = some r) :
    Planned c draws bss roaming r := by
  unfold plan at h
  simp only at h
  cases heval : c.evaluate bss (c.credential bss.rsn.isNone) roaming with
  | error failure =>
    rw [heval] at h
    cases h
    cases roaming with
    | true => exact .stay rfl
    | false => exact .refused failure heval rfl
  | ok choice =>
    rw [heval] at h
    cases hcred : c.credential bss.rsn.isNone with
    | none =>
      rw [hcred] at h heval
      simp only at h
      split_ifs at h with hent
      · cases h
        exact .enterprise choice hcred heval
      · cases h
        exact .prompt choice hcred heval (by simpa using hent)
    | some credential =>
      rw [hcred] at h heval
      have hchosen : c.Chosen bss roaming credential choice := ⟨hcred, heval⟩
      simp only at h
      cases hstage : c.stage draws choice credential with
      | error failure =>
        rw [hstage] at h
        cases h
        exact .unstaged credential choice failure hchosen hstage
      | ok auth =>
        rw [hstage] at h
        obtain ⟨rsn, -, hchoice, -⟩ := evaluate_eq_ok heval
        exact begin_planned hchosen hstage (by rw [hchoice]) h

theorem planBssid_planned {scan : List Bss} {bssid : Mac} {roaming : Bool}
    (h : c.planBssid draws scan bssid roaming = some r) :
    ∃ bss, (scan.find? fun bss => bss.bssid = bssid) = some bss ∧ Planned c draws bss roaming r := by
  unfold planBssid at h
  split at h
  · cases h
  · rename_i bss hfind
    exact ⟨bss, hfind, plan_planned h⟩

theorem startHandshake_keyStart {pmk : Pmk} (h : c.startHandshake draws pmk = some r) :
    KeyStart c draws pmk r := by
  unfold startHandshake at h
  split at h
  · cases h
  · rename_i session hsession
    split at h
    · cases h
    · rename_i rsn hrsn
      split at h
      · rename_i e hnonce
        cases h
        exact .noNonce e hnonce
      · rename_i snonce hnonce
        cases h
        exact .start session rsn snonce hsession hrsn hnonce

theorem driveDot1x_driven {frame : Option Bytes} (h : c.driveDot1x draws frame = some r) :
    Dot1xDriven c draws frame r := by
  unfold driveDot1x at h
  split at h
  · rename_i target session htarget hsession
    split at h
    · rename_i provider hauth
      refine .call target session provider _ r htarget hsession hauth rfl ?_
      simp only [onDot1xStep] at h
      split at h
      · rename_i f heq
        cases h
        rw [heq]
        exact .send f
      · rename_i heq
        cases h
        rw [heq]
        exact .wait
      · rename_i pmk heq
        rw [heq]
        exact .done pmk r (startHandshake_keyStart h)
      · rename_i e heq
        cases h
        rw [heq]
        exact .fail e
    · rename_i hauth
      cases h
      refine .off fun _ _ _ _ hsession' => ?_
      cases hsession.symm.trans hsession'
      exact hauth _
  · rename_i hno
    cases h
    exact .off fun target session _ htarget hsession => absurd hsession (hno target session htarget)

theorem driveHandshake_move {input : FourWay.Input} (h : c.driveHandshake input = some r) :
    HandshakeMove c input r := by
  unfold driveHandshake at h
  split at h
  · rename_i hsession
    cases h
    exact .off fun session hsession' => nomatch hsession.symm.trans hsession'
  · rename_i session hsession
    split at h
    · rename_i hhandshake
      cases h
      refine .off fun _ hsession' => ?_
      cases hsession.symm.trans hsession'
      exact hhandshake
    · rename_i handshake hhandshake
      simp only [onHandshakeActions] at h
      split at h
      · rename_i e heq
        cases h
        exact .fail session handshake e hsession hhandshake heq
      · rename_i actions heq
        obtain ⟨q, hq, rfl⟩ := Option.map_eq_some_iff.mp h
        exact .actions session handshake actions q hsession hhandshake heq hq

theorem onCommand_move {command : Command} (h : c.onCommand draws command = some r) :
    Move c draws (.command command) r := by
  unfold onCommand at h
  split at h
  · cases h
    exact .connect _
  · cases h
    by_cases hidle : c.state = .idle
    · rw [if_pos hidle]
      exact .autoconnect hidle
    · rw [if_neg hidle]
      exact .ignore _ rfl
  · split at h
    · rename_i htarget
      cases h
      exact .ignore _ (by simp [plans, htarget])
    · rename_i target htarget
      simp only at h
      split at h
      · rename_i hpending
        cases h
        exact .secret _ target htarget hpending
      · rename_i bss hpending
        exact .answer _ target bss r htarget hpending (plan_planned h)
  · cases h
    exact .disconnect

theorem onScanResults_move {scan : List Bss} (h : c.onScanResults draws scan = some r) :
    Move c draws (.scanResults scan) r := by
  unfold onScanResults at h
  split at h
  · rename_i hstate
    unfold select at h
    cases htarget : c.target with
    | some target =>
      rw [htarget] at h
      simp only at h
      cases hbest : Policy.bestBss scan target.ssid with
      | some best =>
        rw [hbest] at h
        obtain ⟨bss, hfind, hplanned⟩ := planBssid_planned h
        refine .selected scan target best.bssid bss r hstate ?_ hfind ?_
        · simp [selection, htarget, hbest]
        · have hsame : c.withTarget target = c := by rw [withTarget, ← htarget]
          rw [hsame]
          exact hplanned
      | none =>
        rw [hbest] at h
        cases h
        exact .noNetwork scan _ hstate (by simp [selection, htarget, hbest]) (.inl rfl)
    | none =>
      rw [htarget] at h
      simp only at h
      cases hbest : Policy.bestKnown scan c.profiles with
      | some best =>
        rw [hbest] at h
        obtain ⟨bss, hfind, hplanned⟩ := planBssid_planned h
        exact .selected scan (discovered best.2.ssid) best.1.bssid bss r hstate
          (by simp [selection, htarget, hbest]) hfind hplanned
      | none =>
        rw [hbest] at h
        cases h
        exact .noNetwork scan _ hstate (by simp [selection, htarget, hbest]) (.inr rfl)
  · rename_i hstate
    unfold considerRoam at h
    split at h
    · rename_i session target hsession htarget
      simp only at h
      split at h
      · rename_i hroam
        cases h
        exact .surveyed scan session target hstate hsession htarget hroam
      · rename_i better hroam
        obtain ⟨bss, hfind, hplanned⟩ := planBssid_planned h
        exact .roam scan session target better bss r hstate hsession htarget hroam hfind hplanned
    · rename_i hno
      cases h
      refine .ignore _ ?_
      simp only [plans, hstate]
  · rename_i hscanning hconnected
    cases h
    refine .ignore _ ?_
    simp only [plans]

theorem onEapol_move {frame : Bytes} (h : c.onEapol draws frame = some r) :
    Move c draws (.eapol frame) r := by
  unfold onEapol at h
  split_ifs at h with hstate
  · cases h
    exact .ignore _ rfl
  · have hlisten : c.Listening := by
      by_contra hno
      exact hstate (not_or.mp hno)
    split at h
    · cases h
      exact .ignore _ rfl
    · rename_i eapol hparse
      split at h
      · rename_i htype
        exact .eapolKey frame eapol r hlisten hparse htype (driveHandshake_move h)
      · rename_i htype
        exact .eapolEap frame eapol r hlisten hparse htype (driveDot1x_driven h)
      · cases h
        exact .ignore _ rfl
      · cases h
        exact .ignore _ rfl

theorem onAssociated_move {bssid : Option Mac} (hstate : c.state = .associating)
    (h : c.onAssociated draws = some r) :
    Move c draws (.wireless (.connected bssid .success)) r := by
  unfold onAssociated at h
  split at h
  · cases h
    exact .ignore _ rfl
  · rename_i session hsession
    split at h
    · rename_i hauth
      cases h
      exact .joinedOpen bssid session hstate hsession (.inl hauth)
    · rename_i o hauth
      cases h
      exact .joinedOpen bssid session hstate hsession (.inr ⟨o, hauth⟩)
    · rename_i pmk hauth
      exact .joinedReady bssid session pmk r hstate hsession hauth (startHandshake_keyStart h)
    · rename_i provider hauth
      obtain ⟨q, hq, rfl⟩ := (tryThen_eq_some _).mp h
      have hmove := Move.joinedDot1x bssid session provider q hstate hsession hauth
        (driveDot1x_driven hq)
      simpa using hmove
    · rename_i p hauth
      cases h
      exact .joinedUnstaged bssid session hstate hsession (.inr ⟨p, hauth⟩)
    · rename_i hauth
      cases h
      exact .joinedUnstaged bssid session hstate hsession (.inl hauth)

theorem linkFailure_move {event : Nl80211.Event} {p : Prop} [Decidable p] {failure : Failure}
    (hevent : c.linkFailure event = if p then some failure else none) :
    Move c draws (.wireless event) (if p then c.fail failure else (c, [])) := by
  by_cases hp : p
  · rw [if_pos hp] at hevent ⊢
    exact .linkFailed event failure hevent
  · rw [if_neg hp]
    exact .ignore _ rfl

theorem onWireless_move {event : Nl80211.Event} (h : c.onWireless draws event = some r) :
    Move c draws (.wireless event) r := by
  unfold onWireless at h
  split at h
  · cases h
    by_cases hstate : c.state = .scanning ∨ c.state = .connected
    · rw [if_pos hstate]
      exact .fetch _ _ hstate
    · rw [if_neg hstate]
      exact .ignore _ rfl
  · cases h
    exact linkFailure_move rfl
  · split_ifs at h with hstate
    · cases h
      exact .ignore _ rfl
    · have hstate : c.state = .associating := not_not.mp hstate
      split at h
      · exact onAssociated_move hstate h
      · cases h
        exact .linkFailed _ _ (if_pos hstate)
      · cases h
        exact .linkFailed _ _ (if_pos hstate)
  · cases h
    exact linkFailure_move rfl
  · cases h
    exact linkFailure_move rfl
  · split_ifs at h with hstate
    · cases h
      exact .ignore _ rfl
    · split at h
      · rename_i body hbody
        exact .saeFrame _ body r (not_not.mp hstate) hbody (driveSae_driven h)
      · cases h
        exact .ignore _ rfl
  · cases h
    exact .ignore _ rfl
  · cases h
    exact .ignore _ rfl

theorem onTimer_move {id : TimerId} (h : c.onTimer id = some r) : Move c draws (.timer id) r := by
  unfold onTimer at h
  split at h
  · rename_i hstate
    cases h
    by_cases hp : c.pending.isNone = true
    · rw [if_pos hp]
      exact .timedOut _ _ (if_pos ⟨hstate, hp⟩)
    · rw [if_neg hp]
      exact .ignore _ rfl
  · rename_i hstate
    cases h
    exact .timedOut _ _ (if_pos hstate)
  · rename_i hstate
    exact .saeTimeout r hstate (driveSae_driven h)
  · rename_i hstate
    exact .handshakeRetry r (.inl hstate) (driveHandshake_move h)
  · rename_i hstate
    exact .handshakeRetry r (.inr hstate) (driveHandshake_move h)
  · rename_i hstate
    cases h
    exact .rescan hstate
  · cases h
    exact .ignore _ rfl

/-- **Every poll is one of these moves.** -/
theorem poll_move {input : Input} (h : c.poll draws input = some r) : Move c draws input r := by
  unfold poll at h
  split at h
  · exact onCommand_move h
  · exact onWireless_move h
  · exact onScanResults_move h
  · exact onEapol_move h
  · cases h
    exact .lease _
  · exact onTimer_move h

end Inversion

end Connection

end Caw
