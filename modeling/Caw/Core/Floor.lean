import Caw.Core.Late

/-!
# The floor under every request

A BSS is chosen in one place and joined from many: at once, after SAE, after a prompt, on a retry, on
a roam. Whatever the way, a request clears the floor of the profile saved when its BSS was chosen and
asks for suites the BSS offers.

* `requests`: the requests among the actions;
* `Pick`, `Connection.picks`, `lastPick`: the BSS chosen last, and the profile saved then;
* `Pick.Clears`, `AssocRequest.Carries`: what clearing the floor means, and what a request shows of
  the suites;
* `Course`, `Move.course`: every request is planned, or ends the exchange of a planned session;
* **`requests_cleared`**: every request of every run clears the floor.
-/

set_option autoImplicit false

namespace Caw

open Caw.Core

variable {S : Platform}

namespace Connection

/-! ## Requests -/

/-- It asks the kernel to join a network. -/
@[simp]
def isRequest : Action → Bool
  | .associate _ | .authenticate _ => true
  | _ => false

/-- The requests among some actions. -/
def requests (actions : List Action) : List Action := (decisions actions).filter isRequest

@[simp] theorem requests_nil : requests [] = [] := rfl

@[simp] theorem requests_cons (action : Action) (rest : List Action) :
    requests (action :: rest) =
      if isRequest action then action :: requests rest else requests rest := by
  cases action <;> simp [requests, List.filter_cons]

theorem requests_of_decisions {actions : List Action} (h : decisions actions = []) :
    requests actions = [] := by
  rw [requests, h]
  rfl

@[simp] theorem requests_append (actions rest : List Action) :
    requests (actions ++ rest) = requests actions ++ requests rest := by
  simp [requests]

theorem mem_requests {action : Action} {actions : List Action} :
    action ∈ requests actions ↔ action ∈ actions ∧ isRequest action = true := by
  rw [requests, List.mem_filter]
  refine and_congr_left fun h => mem_decisions ?_
  cases action <;> simp_all

@[simp] theorem requests_leaving (c : Connection S) (state : State) :
    requests (c.leaving state) = [] := requests_of_decisions (decisions_leaving c state)

@[simp] theorem requests_fail (c : Connection S) (failure : Failure) :
    requests (c.fail failure).2 = [] := by
  rw [requests, decisions_fail]
  split_ifs <;> rfl

@[simp] theorem requests_configured (c : Connection S) : requests c.configured.2 = [] := by
  rw [requests, decisions_configured]
  split_ifs <;> rfl

@[simp] theorem requests_onLease (c : Connection S) (event : LeaseEvent) :
    requests (c.onLease event).2 = [] := by
  cases event with
  | acquired lease => simp [onLease, requests]
  | lost reason =>
    unfold onLease
    split_ifs <;> simp [requests]
  | failed => simp [onLease]

section Handlers

variable {c : Connection S} {draws : Draws S} {r : Connection S × List Action}

theorem requests_keyStart {pmk : Pmk} (hk : KeyStart c draws pmk r) : requests r.2 = [] := by
  cases hk <;> simp

theorem requests_dot1xDriven {frame : Option Bytes} (hd : Dot1xDriven c draws frame r) :
    requests r.2 = [] := by
  cases hd with
  | off => rfl
  | call target session provider q r htarget hsession hauth hq hm =>
    obtain ⟨p', x⟩ := q
    cases hm with
    | send => rfl
    | wait => rfl
    | done pmk r hk => exact requests_keyStart hk
    | fail => simp

theorem requests_handshakeMove {input : FourWay.Input} (hm : HandshakeMove c input r) :
    requests r.2 = [] := by
  cases hm with
  | off => rfl
  | fail => simp
  | actions session handshake actions q hsession hhandshake hpoll hactions =>
    rw [andThen_snd, requests_append,
      requests_of_decisions (decisions_handshakeActions hactions)]
    split_ifs <;> simp

end Handlers

end Connection

/-! ## What a poll means for the choice made -/

namespace Connection

variable {c : Connection S} {draws : Draws S} {r : Connection S × List Action}

theorem fail_not_authenticating (c : Connection S) (failure : Failure) :
    (c.fail failure).1.state ≠ .authenticating := by
  rw [fail_fst]
  split_ifs <;> simp

theorem fail_idle (c : Connection S) (failure : Failure) {P : Action → Prop} {q : Prop} :
    (∀ action ∈ requests (c.fail failure).2, P action) ∧
      ((c.fail failure).1.state = .authenticating → q) :=
  ⟨by simp, fun hst => absurd hst (fail_not_authenticating c failure)⟩

theorem configured_not_authenticating (c : Connection S) : c.configured.1.state ≠ .authenticating := by
  rw [configured_state]
  unfold afterKeys
  split_ifs <;> simp

theorem keyStart_not_authenticating {pmk : Pmk} (hk : KeyStart c draws pmk r) :
    r.1.state ≠ .authenticating := by
  cases hk with
  | noNonce => exact fail_not_authenticating _ _
  | start => simp

theorem dot1xDriven_not_authenticating {frame : Option Bytes} (hst : c.state ≠ .authenticating)
    (hd : Dot1xDriven c draws frame r) : r.1.state ≠ .authenticating := by
  cases hd with
  | off => exact hst
  | call target session provider q r htarget hsession hauth hq hm =>
    obtain ⟨p', x⟩ := q
    cases hm with
    | send => exact hst
    | wait => exact hst
    | done pmk r hk => exact keyStart_not_authenticating hk
    | fail => exact fail_not_authenticating _ _

theorem handshakeMove_not_authenticating {input : FourWay.Input} (hst : c.state ≠ .authenticating)
    (hm : HandshakeMove c input r) : r.1.state ≠ .authenticating := by
  cases hm with
  | off => exact hst
  | fail => exact fail_not_authenticating _ _
  | actions session handshake actions q hsession hhandshake hpoll hactions =>
    obtain ⟨armed, hfst⟩ := handshakeActions_fst hactions
    rw [andThen_fst]
    split_ifs
    · exact configured_not_authenticating _
    · rw [hfst]
      exact hst

theorem Listening.not_authenticating (h : c.Listening) : c.state ≠ .authenticating := by
  rcases h with h | h <;> simp [h]

/-- The SSID worked towards. -/
def aim (c : Connection S) : Option Bytes := c.target.map Target.ssid

/-- The choice of the session under way, its signal aside: a survey refreshes that. -/
def joinOf (c : Connection S) : Option Choice :=
  c.session.map fun session => { session.choice with signalDbm := 0 }

/-- What is parked in `c'` was parked in `c`, for the same network. -/
def KeepsParked (c c' : Connection S) : Prop :=
  c'.pending = none ∨ (c'.pending = c.pending ∧ c'.aim = c.aim)

/-- Nothing new is parked, and no other choice is joined. -/
structure Retains (c c' : Connection S) : Prop where
  parked : c.KeepsParked c'
  joined : c'.joinOf = none ∨ c'.joinOf = c.joinOf

theorem retains_of_eq {c' : Connection S} (hpending : c'.pending = c.pending) (haim : c'.aim = c.aim)
    (hjoin : c'.joinOf = c.joinOf) : c.Retains c' :=
  ⟨.inr ⟨hpending, haim⟩, .inr hjoin⟩

theorem retains_refl : c.Retains c := retains_of_eq rfl rfl rfl

theorem Retains.trans {c' c'' : Connection S} (h : c.Retains c') (h' : c'.Retains c'') :
    c.Retains c'' := by
  refine ⟨?_, ?_⟩
  · rcases h'.parked with hnone | ⟨hpending, haim⟩
    · exact .inl hnone
    · rcases h.parked with hnone | ⟨hpending', haim'⟩
      · exact .inl (hpending.trans hnone)
      · exact .inr ⟨hpending.trans hpending', haim.trans haim'⟩
  · rcases h'.joined with hnone | heq
    · exact .inl hnone
    · rw [heq]
      exact h.joined

theorem retains_fail (failure : Failure) : c.Retains (c.fail failure).1 := by
  rw [fail_fst]
  split_ifs <;> exact ⟨.inl rfl, .inl rfl⟩

theorem retains_session {session s : Session S} (hsession : c.session = some session)
    (hchoice : s.choice = session.choice) : c.Retains (c.withSession s) :=
  retains_of_eq rfl rfl (by simp [joinOf, hsession, hchoice])

theorem retains_configured : c.Retains c.configured.1 :=
  retains_of_eq (configured_pending c) (by rw [aim, aim, configured_target])
    (by rw [joinOf, joinOf, configured_session])

theorem retains_enter (state : State) : c.Retains (c.enter state).1 := by
  rw [enter_fst]
  exact retains_of_eq rfl rfl rfl

theorem retains_keyStart {pmk : Pmk} (hk : KeyStart c draws pmk r) : c.Retains r.1 := by
  cases hk with
  | noNonce => exact retains_fail _
  | start session rsn snonce hsession =>
    exact (retains_session (s := session.withHandshake _) hsession rfl).trans (retains_enter _)

theorem retains_dot1xDriven {frame : Option Bytes} (hd : Dot1xDriven c draws frame r) :
    c.Retains r.1 := by
  cases hd with
  | off => exact retains_refl
  | call target session provider q r htarget hsession hauth hq hm =>
    obtain ⟨p', x⟩ := q
    have hkept : c.Retains (c.withSession (session.withAuth (.postAssoc p'))) :=
      retains_session hsession rfl
    cases hm with
    | send => exact hkept
    | wait => exact hkept
    | done pmk r hk =>
      have hrunning := hkept.trans (retains_session (s := (session.withAuth
        (.postAssoc p')).withAuth .running) rfl rfl)
      exact hrunning.trans (retains_keyStart hk)
    | fail => exact hkept.trans (retains_fail _)

theorem retains_handshakeMove {input : FourWay.Input} (hm : HandshakeMove c input r) :
    c.Retains r.1 := by
  cases hm with
  | off => exact retains_refl
  | fail session handshake e hsession =>
    exact (retains_session hsession rfl).trans (retains_fail _)
  | actions session handshake actions q hsession hhandshake hpoll hactions =>
    obtain ⟨armed, hfst⟩ := handshakeActions_fst hactions
    have hkept : c.Retains q.1 := by
      rw [hfst]
      exact retains_of_eq rfl rfl (by simp [joinOf, hsession])
    rw [andThen_fst]
    split_ifs
    · exact hkept.trans retains_configured
    · exact hkept

theorem retains_saeDriven {event : SaeEvent} (hd : SaeDriven c event r) : c.Retains r.1 := by
  cases hd with
  | off => exact retains_refl
  | call target session provider q r htarget hsession hauth hq hm =>
    obtain ⟨p', x⟩ := q
    have hkept : c.Retains (c.withSession (session.withAuth (.preAssoc p'))) :=
      retains_session hsession rfl
    cases hm with
    | wait => exact hkept
    | send => exact hkept.trans (retains_of_eq rfl rfl rfl)
    | noBody => exact hkept.trans (retains_fail _)
    | done target session' pmk htarget' hsession' =>
      cases hsession'
      rw [associateWith_fst]
      exact retains_of_eq rfl rfl (by simp [joinOf, hsession])
    | fail => exact hkept.trans (retains_fail _)

theorem retains_saveProfile : c.Retains c.saveProfile.1 := by
  unfold saveProfile
  split
  · rename_i target session htarget hsession
    split_ifs
    · exact retains_refl
    · split
      · exact retains_refl
      · refine retains_of_eq rfl ?_ rfl
        rw [aim, aim, htarget, insertProfile_target, withTarget_target, Option.map_some, Option.map_some]
        dsimp only
        split_ifs <;> rfl
  · exact retains_refl

theorem retains_onLease (event : LeaseEvent) : c.Retains (c.onLease event).1 := by
  cases event with
  | acquired lease =>
    have hconnected : c.Retains { (c.enter .connected).1 with attempts := 0 } :=
      (retains_enter .connected).trans (retains_of_eq rfl rfl rfl)
    exact hconnected.trans retains_saveProfile
  | lost reason =>
    unfold onLease
    split_ifs
    · exact retains_enter _
    · exact retains_refl
  | failed => exact retains_fail _

theorem credential_typed (target : Target) (value : String) (bss : Bss) :
    { c.withTarget { target with secret := some value } with pending := none }.credential
      bss.rsn.isNone ≠ none := by
  unfold credential
  split_ifs
  · simp
  · split <;> simp

variable (c draws) in
/-- **A poll asks for nothing, plans, or runs the exchange of the session chosen.** -/
inductive Course (input : Input) : Connection S × List Action → Prop
  | quiet (q) : c.plans input = none → requests q.2 = [] → c.Retains q.1 →
      (q.1.state = .authenticating →
        c.state = .authenticating ∧ q.1.session = c.session ∧ q.1.aim = c.aim) → Course input q
  | planned (c' bss roaming q) : c.plans input = some (c', bss, roaming) → c'.target.isSome →
      (c'.state = .authenticating → roaming = false ∧ c'.credential bss.rsn.isNone ≠ none) →
      Planned c' draws bss roaming q → Course input q
  | exchange (event q) : c.plans input = none → c.state = .authenticating → SaeDriven c event q →
      Course input q

theorem course_leaves {input : Input} (hplans : c.plans input = none) (hrequests : requests r.2 = [])
    (hretains : c.Retains r.1) (hst : r.1.state ≠ .authenticating) : Course c draws input r :=
  .quiet r hplans hrequests hretains fun h => absurd h hst

theorem course_fail {input : Input} (hplans : c.plans input = none) (failure : Failure) :
    Course c draws input (c.fail failure) :=
  course_leaves hplans (by simp) (retains_fail failure) (fail_not_authenticating c failure)

theorem course_onLease (event : LeaseEvent) : Course c draws (.lease event) (c.onLease event) := by
  refine .quiet _ rfl (requests_onLease c event) (retains_onLease event) ?_
  cases event with
  | acquired lease =>
    intro hst
    obtain ⟨hstate, -, -⟩ := saveProfile_frame { (c.enter .connected).1 with attempts := 0 }
    rw [show (c.onLease (.acquired lease)).1.state = _ from hstate] at hst
    simp at hst
  | lost reason =>
    unfold onLease
    split_ifs
    · intro hst
      simp at hst
    · exact fun hst => ⟨hst, rfl, rfl⟩
  | failed => exact fun hst => absurd hst (fail_not_authenticating _ _)

theorem Move.course {input : Input} (hm : Move c draws input r) : Course c draws input r := by
  have hsame : c.state = .authenticating →
      c.state = .authenticating ∧ c.session = c.session ∧ c.aim = c.aim := fun h => ⟨h, rfl, rfl⟩
  cases hm with
  | ignore _ hplans => exact .quiet _ hplans rfl retains_refl hsame
  | connect ssid =>
    exact course_leaves rfl (requests_of_decisions (by simp; split_ifs <;> simp))
      ⟨.inl (by simp), .inl (by simp [joinOf])⟩ (by simp)
  | autoconnect =>
    exact course_leaves rfl (requests_of_decisions (by simp))
      ⟨.inl (by simp), .inl (by simp [joinOf])⟩ (by simp)
  | secret value target htarget hpending =>
    refine .quiet _ (by simp [plans, htarget, hpending]) rfl ⟨.inl hpending, .inr rfl⟩ fun hst => ?_
    exact ⟨hst, rfl, by simp [aim, htarget]⟩
  | answer value target bss r htarget hpending hplanned =>
    exact .planned _ bss false r (by simp [plans, htarget, hpending]) rfl
      (fun _ => ⟨rfl, credential_typed target value bss⟩) hplanned
  | disconnect =>
    exact course_leaves rfl (requests_of_decisions (by simp)) ⟨.inl rfl, .inl rfl⟩ (by simp)
  | noNetwork scan failure hst hselection => exact course_fail (by simp [plans, hst, hselection]) _
  | selected scan target bssid bss r hst hselection hfind hplanned =>
    exact .planned _ bss false r (by simp [plans, hst, hselection, hfind]) rfl
      (fun h => by simp [hst] at h) hplanned
  | surveyed scan session target hst hsession htarget hroam =>
    exact course_leaves (by simp [plans, hst, hsession, htarget, hroam]) rfl
      (retains_of_eq rfl rfl (by simp [joinOf, hsession])) (by simp [hst])
  | roam scan session target better bss r hst hsession htarget hroam hfind hplanned =>
    exact .planned _ bss true r (by simp [plans, hst, hsession, htarget, hroam, hfind])
      (by simp [htarget]) (fun h => by simp [hst] at h) hplanned
  | eapolKey frame eapol r hl hparse htype hm =>
    exact course_leaves rfl (requests_handshakeMove hm) (retains_handshakeMove hm)
      (handshakeMove_not_authenticating hl.not_authenticating hm)
  | eapolEap frame eapol r hl hparse htype hd =>
    exact course_leaves rfl (requests_dot1xDriven hd) (retains_dot1xDriven hd)
      (dot1xDriven_not_authenticating hl.not_authenticating hd)
  | lease event => exact course_onLease event
  | fetch => exact .quiet _ rfl rfl retains_refl hsame
  | linkFailed => exact course_fail rfl _
  | joinedOpen bssid session hst hsession hauth =>
    have hretains : c.Retains (c.withSession (session.withAuth .open)) := retains_session hsession rfl
    exact course_leaves rfl (by simp) (hretains.trans retains_configured)
      (configured_not_authenticating _)
  | joinedReady bssid session pmk r hst hsession hauth hk =>
    have hretains : c.Retains (c.withSession (session.withAuth .running)) :=
      retains_session hsession rfl
    exact course_leaves rfl (requests_keyStart hk) (hretains.trans (retains_keyStart hk))
      (keyStart_not_authenticating hk)
  | joinedDot1x bssid session provider r hst hsession hauth hd =>
    have hentered : (c.enter .handshaking).1.state ≠ .authenticating := by simp
    have hst' := dot1xDriven_not_authenticating hentered hd
    have hretains := (retains_enter .handshaking).trans (retains_dot1xDriven hd)
    exact course_leaves rfl (by simp [requests_dot1xDriven hd]) hretains hst'
  | joinedUnstaged => exact course_fail rfl _
  | saeFrame frame body r hst hbody hd => exact .exchange _ r rfl hst hd
  | saeTimeout r hst hd => exact .exchange _ r rfl hst hd
  | handshakeRetry r hl hm =>
    exact course_leaves rfl (requests_handshakeMove hm) (retains_handshakeMove hm)
      (handshakeMove_not_authenticating hl.not_authenticating hm)
  | timedOut => exact course_fail rfl _
  | rescan =>
    have hretains : c.Retains c.startScan.1 := by
      rw [startScan_fst]
      exact retains_of_eq rfl rfl rfl
    exact course_leaves rfl (requests_of_decisions (by simp)) hretains (by simp)

end Connection

/-! ## What is chosen -/

/-- A BSS chosen, the network it was chosen for, and the profile saved for that network then. -/
structure Pick where
  ssid : Bytes
  bss : Bss
  profile : Option Profile

/-- A request shows the suites negotiated. -/
def Core.AssocRequest.Carries (request : AssocRequest) : Option Negotiated → Prop
  | none => request.akms = [] ∧ request.pairwiseCiphers = [] ∧ request.groupCipher = none ∧
      request.mfp = none
  | some n => request.akms = [Nl80211.akmSuite n.akm] ∧
      request.pairwiseCiphers = (Nl80211.cipherSuite n.pairwise).toList ∧
      request.groupCipher = Nl80211.cipherSuite n.group ∧
      (request.mfp = some Nl80211.mfpRequired ↔ n.mfpRequired = true)

namespace Pick

variable (pick : Pick)

/-- Suites the BSS offers, at least as strong as the profile asks for. -/
structure Clears (rsn : Option Negotiated) : Prop where
  floor : ∀ profile, pick.profile = some profile →
    Policy.strength profile.minSecurity ≤ Policy.strength (provided rsn)
  offered : (rsn = none ∧ pick.bss.rsn = none ∧ pick.bss.security = .open) ∨
    ∃ ie n, pick.bss.rsn = some ie ∧ rsn = some n ∧ n.akm ∈ ie.akms ∧
      n.pairwise ∈ ie.pairwiseCiphers ∧ n.group = ie.groupCipher

/-- A request for the BSS chosen, with suites that clear the floor. -/
def Permits : Action → Prop
  | .associate request => request.ssid = pick.ssid ∧ request.bssid = pick.bss.bssid ∧
      ∃ rsn, request.Carries rsn ∧ pick.Clears rsn
  | .authenticate request => request.ssid = pick.ssid ∧ request.bssid = pick.bss.bssid ∧
      request.authType = Nl80211.authtypeSae ∧ ∃ n, n.akm.isSae = true ∧ pick.Clears (some n)
  | _ => True

/-- The session under way authenticates with the BSS chosen. -/
def Fits (c : Connection S) : Prop :=
  ∃ session target n, c.session = some session ∧ c.target = some target ∧
    target.ssid = pick.ssid ∧ session.choice.bssid = pick.bss.bssid ∧
    session.choice.rsn = some n ∧ n.akm.isSae = true ∧ pick.Clears (some n)

end Pick

namespace Connection

variable {c : Connection S} {draws : Draws S} {r : Connection S × List Action} {pick : Pick}

/-- The BSS, with the profile there is for the target. -/
def pickOf (c : Connection S) (bss : Bss) : Pick := ⟨c.ssidBytes, bss, c.profile⟩

/-- What one input makes a connection choose. -/
def picks (c : Connection S) (input : Input) : Option Pick :=
  (c.plans input).map fun p => p.1.pickOf p.2.1

theorem Chosen.clears {bss : Bss} {roaming : Bool} {credential : Credential} {choice : Choice}
    (h : c.Chosen bss roaming credential choice) :
    choice.bssid = bss.bssid ∧ (c.pickOf bss).Clears choice.rsn := by
  obtain ⟨rsn, hrsn, rfl, haccepts⟩ := evaluate_eq_ok h.evaluated
  refine ⟨rfl, fun profile hp => Profile.accepts_iff.mp (haccepts profile hp), ?_⟩
  rcases negotiateBss_eq_ok hrsn with ⟨hnone, hopen, rfl⟩ | ⟨ie, n, hie, rfl, hn⟩
  · exact .inl ⟨rfl, hnone, hopen⟩
  · obtain ⟨hakm, hpairwise, hgroup, -⟩ := negotiate_eq_ok hn
    exact .inr ⟨ie, n, hie, rfl, (Policy.chooseAkm_mem hakm).1, Policy.choosePairwise_mem hpairwise,
      hgroup⟩

theorem mfp_required_iff (required capable : Bool) :
    some (if required then Nl80211.mfpRequired
      else if capable then Nl80211.mfpOptional else Nl80211.mfpNo) = some Nl80211.mfpRequired ↔
      required = true := by
  cases required <;> cases capable <;> decide

theorem carries_assocRequest (ifindex : UInt32) (ssid : Bytes) (session : Session S) :
    (assocRequest ifindex ssid session).Carries session.choice.rsn := by
  unfold assocRequest
  cases session.choice.rsn with
  | none => exact ⟨rfl, rfl, rfl, rfl⟩
  | some n =>
    refine ⟨rfl, rfl, rfl, ?_⟩
    exact mfp_required_iff n.mfpRequired n.mfpCapable

theorem assocRequest_ssid (ifindex : UInt32) (ssid : Bytes) (session : Session S) :
    (assocRequest ifindex ssid session).ssid = ssid := by
  unfold assocRequest
  split <;> rfl

theorem assocRequest_bssid (ifindex : UInt32) (ssid : Bytes) (session : Session S) :
    (assocRequest ifindex ssid session).bssid = session.choice.bssid := by
  unfold assocRequest
  split <;> rfl

@[simp] theorem requests_associateWith (target : Target) (session : Session S) :
    requests (c.associateWith target session).2 =
      [.associate (assocRequest c.device.ifindex target.ssid session)] := by
  simp [requests]

theorem permits_associateWith {target : Target} {session : Session S}
    (hssid : target.ssid = pick.ssid) (hbssid : session.choice.bssid = pick.bss.bssid)
    (hclears : pick.Clears session.choice.rsn) :
    ∀ action ∈ requests (c.associateWith target session).2, pick.Permits action := by
  rw [requests_associateWith, List.forall_mem_singleton]
  exact ⟨(assocRequest_ssid ..).trans hssid, (assocRequest_bssid ..).trans hbssid,
    session.choice.rsn, carries_assocRequest .., hclears⟩

/-- **The exchange of a planned session asks for nothing else.** -/
theorem permits_saeDriven {event : SaeEvent} (hfits : pick.Fits c)
    (hd : SaeDriven c event r) : (∀ action ∈ requests r.2, pick.Permits action) ∧
      (r.1.state = .authenticating → pick.Fits r.1) := by
  obtain ⟨session, target, n, hsession, htarget, hssid, hbssid, hrsn, hsae, hclears⟩ := hfits
  cases hd with
  | off => exact ⟨by simp, fun _ => ⟨session, target, n, hsession, htarget, hssid, hbssid, hrsn,
      hsae, hclears⟩⟩
  | call target' session' provider q r htarget' hsession' hauth hq hm =>
    rw [hsession] at hsession'
    rw [htarget] at htarget'
    cases hsession'
    cases htarget'
    have hfits' : pick.Fits (c.withSession (session.withAuth (.preAssoc q.1))) :=
      ⟨_, target, n, rfl, htarget, hssid, hbssid, hrsn, hsae, hclears⟩
    obtain ⟨p', x⟩ := q
    cases hm with
    | wait => exact ⟨by simp, fun _ => hfits'⟩
    | send frame request hreq =>
      refine ⟨?_, fun _ => hfits'⟩
      simp only [authRequest, withSession_session, withSession_target, htarget] at hreq
      split_ifs at hreq
      cases hreq
      simp only [andThen_snd, arm_snd, List.cons_append, List.nil_append, requests_cons, isRequest,
        if_true, Bool.false_eq_true, if_false, requests_nil, List.forall_mem_singleton]
      exact ⟨hssid, hbssid, rfl, n, hsae, hclears⟩
    | noBody => exact fail_idle _ _
    | fail => exact fail_idle _ _
    | done target' session' pmk htarget' hsession' =>
      cases hsession'
      rw [withSession_target, htarget] at htarget'
      cases htarget'
      have hkeyed : pick.Clears (keyed (session.withAuth (.preAssoc p')) pmk).choice.rsn := by
        rw [keyed_choice, Session.withAuth_choice, hrsn]
        exact hclears
      refine ⟨permits_associateWith hssid hbssid hkeyed, fun hst => ?_⟩
      rw [associateWith_fst] at hst
      cases hst

/-- **What is planned clears the floor.** Where nothing is begun, the plan was for a roam or the
credential is still to come. -/
theorem permits_planned {bss : Bss} {roaming : Bool} (htarget : c.target.isSome)
    (hp : Planned c draws bss roaming r) :
    (∀ action ∈ requests r.2, (c.pickOf bss).Permits action) ∧
      (r.1.state = .authenticating → (c.pickOf bss).Fits r.1 ∨
        (c.state = .authenticating ∧ (roaming = true ∨ c.credential bss.rsn.isNone = none))) := by
  obtain ⟨target, htarget⟩ := Option.isSome_iff_exists.mp htarget
  have hssid : target.ssid = (c.pickOf bss).ssid := by simp [pickOf, ssidBytes, htarget]
  cases hp with
  | refused => exact fail_idle _ _
  | enterprise => exact fail_idle _ _
  | unstaged => exact fail_idle _ _
  | stay hroaming => exact ⟨by simp, fun hst => .inr ⟨hst, .inl hroaming⟩⟩
  | prompt choice hcredential =>
    exact ⟨by simp [requests, Connection.prompt], fun hst => .inr ⟨hst, .inr hcredential⟩⟩
  | sae credential choice provider q hchosen hstage hroaming hd =>
    obtain ⟨hbssid, hclears⟩ := hchosen.clears
    obtain ⟨n, hrsn, hsae⟩ : ∃ n, choice.rsn = some n ∧ n.akm.isSae = true := by
      unfold stage at hstage
      split at hstage
      · cases hstage
      · rename_i n hrsn
        have hsae := assemble_preAssoc hstage
        simp only [authContext, hrsn, Option.map_some, Option.getD_some] at hsae
        exact ⟨n, hrsn, hsae⟩
    rw [hrsn] at hclears
    have hfits : (c.pickOf bss).Fits ((c.withSession (newSession choice (.preAssoc provider))).enter
        .authenticating).1 := by
      rw [enter_fst]
      exact ⟨_, target, n, rfl, htarget, hssid, hbssid, hrsn, hsae, hclears⟩
    obtain ⟨hpermits, hstays⟩ := permits_saeDriven hfits hd
    refine ⟨?_, fun hst => .inl (hstays hst)⟩
    simpa using hpermits
  | associate credential choice auth target' hchosen hstage hpre htarget' =>
    obtain ⟨hbssid, hclears⟩ := hchosen.clears
    rw [htarget] at htarget'
    cases htarget'
    refine ⟨permits_associateWith hssid hbssid hclears, fun hst => ?_⟩
    rw [associateWith_fst] at hst
    cases hst

/-! ## Polls -/

/-- The pick an authentication under way was begun for. -/
def PickInv (last : Option Pick) (c : Connection S) : Prop :=
  c.state = .authenticating → ∃ pick, last = some pick ∧ pick.Fits c

/-- A poll whose requests the last pick permits, and that leaves the next exchange to one. -/
structure Cleared (last : Option Pick) (r : Connection S × List Action) : Prop where
  permits : ∀ action ∈ requests r.2, ∃ pick, last = some pick ∧ pick.Permits action
  inv : PickInv last r.1

variable {last : Option Pick}

theorem cleared_of_quiet (hrequests : requests r.2 = []) (hinv : PickInv last r.1) :
    Cleared last r :=
  ⟨by simp [hrequests], hinv⟩

theorem cleared_planned {c' : Connection S} {bss : Bss} {roaming : Bool} (htarget : c'.target.isSome)
    (hbegins : c'.state = .authenticating → roaming = false ∧ c'.credential bss.rsn.isNone ≠ none)
    (hp : Planned c' draws bss roaming r) : Cleared (some (c'.pickOf bss)) r := by
  obtain ⟨hpermits, hfits⟩ := permits_planned htarget hp
  refine ⟨fun action ha => ⟨_, rfl, hpermits action ha⟩, fun hst => ⟨_, rfl, ?_⟩⟩
  rcases hfits hst with h | ⟨hst', h | h⟩
  · exact h
  · rw [(hbegins hst').1] at h
    cases h
  · exact absurd h (hbegins hst').2

theorem cleared_saeDriven {event : SaeEvent} (hinv : PickInv last c)
    (hst : c.state = .authenticating) (hd : SaeDriven c event r) : Cleared last r := by
  obtain ⟨pick, hlast, hfits⟩ := hinv hst
  obtain ⟨hpermits, hstays⟩ := permits_saeDriven hfits hd
  exact ⟨fun action ha => ⟨pick, hlast, hpermits action ha⟩, fun hst => ⟨pick, hlast, hstays hst⟩⟩

/-- Of an exchange under way nothing is read but the session and the SSID. -/
theorem PickInv.congr {c' : Connection S} (h : PickInv last c) (hstate : c'.state = c.state)
    (hsession : c'.session = c.session)
    (htarget : ∀ target, c.target = some target →
      ∃ target', c'.target = some target' ∧ target'.ssid = target.ssid) : PickInv last c' := by
  intro hst
  obtain ⟨pick, hlast, session, target, n, hs, ht, hssid, hrest⟩ := h (hstate ▸ hst)
  obtain ⟨target', ht', hssid'⟩ := htarget target ht
  exact ⟨pick, hlast, session, target', n, hsession.trans hs, ht', hssid'.trans hssid, hrest⟩

/-- **One poll.** -/
theorem cleared_move {input : Input} (hinv : PickInv last c) (hm : Move c draws input r) :
    Cleared ((c.picks input).or last) r := by
  cases hm.course with
  | quiet _ hplans hrequests hretains hstays =>
    rw [picks, hplans]
    refine cleared_of_quiet hrequests fun hst => ?_
    obtain ⟨hst', hsession, haim⟩ := hstays hst
    refine hinv.congr (hst.trans hst'.symm) hsession (fun target htarget => ?_) hst
    rw [aim, aim, htarget] at haim
    exact Option.map_eq_some_iff.mp haim
  | planned c' bss roaming _ hplans htarget hbegins hplanned =>
    rw [picks, hplans]
    exact cleared_planned htarget hbegins hplanned
  | exchange event _ hplans hst hd =>
    rw [picks, hplans]
    exact cleared_saeDriven hinv hst hd

/-! ## Runs -/

/-- What a call makes the connection choose; one that panics chooses nothing. -/
def picksCall (c : Connection S) : Call S → Option Pick
  | .poll draws input => (c.poll draws input).bind fun _ => c.picks input
  | _ => none

/-- The choice made last in a run. -/
def lastPick (past : List (Entry S)) : Option Pick :=
  past.foldl (fun last e => (e.pre.picksCall e.input).or last) none

/-- Every request is one the choice made last permits. -/
def RequestsCleared (past : List (Entry S)) (e : Entry S) : Prop :=
  ∀ action ∈ e.output, isRequest action = true →
    ∃ pick, (e.pre.picksCall e.input).or (lastPick past) = some pick ∧ pick.Permits action

/-- **One call.** -/
theorem cleared_step (hinv : PickInv last c) (call : Call S) :
    Cleared ((c.picksCall call).or last) (c.step call) := by
  cases call with
  | poll draws input =>
    change Cleared (((c.poll draws input).bind fun _ => c.picks input).or last)
      ((c.poll draws input).getD (c, []))
    cases hpoll : c.poll draws input with
    | none => exact cleared_of_quiet rfl hinv
    | some r => exact cleared_move hinv (poll_move hpoll)
  | insertProfile profile =>
    refine cleared_of_quiet rfl (hinv.congr rfl rfl fun target ht => ?_)
    change ∃ target', (c.insertProfile profile).target = some target' ∧ _
    rw [insertProfile_target, ht]
    exact ⟨_, rfl, by dsimp only; split_ifs <;> rfl⟩
  | forgetProfile ssid =>
    refine cleared_of_quiet rfl (hinv.congr rfl rfl fun target ht => ⟨target, ht, rfl⟩)

theorem lastPick_concat (past : List (Entry S)) (e : Entry S) :
    lastPick (past ++ [e]) = (e.pre.picksCall e.input).or (lastPick past) := by
  simp [lastPick]

/-- **The floor under every request.** In every run, whatever the scans, the profiles, the secrets and
the order of events, every request for authentication or association goes to the BSS chosen last, asks
for suites that BSS offers, and clears the floor of the profile saved for its network then. -/
theorem requests_cleared (device : Device) (profiles : List Profile) (calls : List (Call S)) :
    Machine.Along RequestsCleared (Machine.log step (new device profiles) calls) := by
  have hinit : PickInv (lastPick (S := S) []) (new device profiles : Connection S) :=
    fun hst => nomatch hst
  have hstep : ∀ past (c : Connection S) call, PickInv (lastPick past) c →
      Cleared (lastPick (past ++ [Machine.entry step c call])) (c.step call) := by
    intro past c call hinv
    rw [lastPick_concat]
    exact cleared_step hinv call
  refine Machine.along_of_inv (G := fun _ _ => True) hinit
    (fun past c call hinv _ => (hstep past c call hinv).inv) ?_ calls fun _ _ _ _ => trivial
  intro past c call hinv _ action hmem hrequest
  obtain ⟨pick, hlast, hpermits⟩ := (hstep past c call hinv).permits action
    (mem_requests.mpr ⟨hmem, hrequest⟩)
  exact ⟨pick, by rw [← hlast, lastPick_concat], hpermits⟩

end Connection

end Caw
