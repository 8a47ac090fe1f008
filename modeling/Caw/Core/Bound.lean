import Caw.Core.Keyring
import Caw.Core.Selection
import Caw.Eapol.Replay

/-!
# What a handshake is bound to

A handshake repeats the element of the request its session made, and compares with the element of the
scan entry that session was planned on.

* `FourWay.Uses`: the element of message 2, and the one message 3 must show;
* `Trail`: the scan entry a session was planned on, and the request made last since;
* `Session.Bound`: what the trail of a history says of a session, with its handshake;
* **`handshake_elements`**: it holds of every reachable connection.
-/

set_option autoImplicit false

namespace Caw

open Caw.Core

/-! ## The elements of a handshake -/

section Elements

variable {P : Primitives}

theorem FourWay.poll_config (P : Primitives) (h : FourWay) (input : FourWay.Input) :
    (h.poll P input).1.config = h.config := by
  have hstep := FourWay.poll_step (P := P) h input
  generalize h.poll P input = polled at hstep
  obtain ⟨h', x⟩ := polled
  cases hstep <;> rfl

variable (P) in
/-- Message 2 is sent with the one element, and a message 3 is answered only with the other one in
it. -/
structure FourWay.Uses (h : FourWay) (own theirs : Bytes) : Prop where
  sends : ∀ eapol msg1 h' actions, h.onMsg1 P eapol msg1 = .ok (h', actions) →
    ∃ sent msg2, actions = [.send sent, .armTimer retryIntervalMs] ∧
      FourWay.keyFrame sent = .ok msg2 ∧ msg2.keyData = own
  compares : ∀ eapol msg3 install h' actions, h.onMsg3 P eapol msg3 install = .ok (h', actions) →
    ∃ ptk keyData, h.ptk = some ptk ∧ unwrapKeyData P ptk.kek msg3.keyData = .ok keyData ∧
      rsnElement keyData = some theirs

/-- **The two elements are those of the configuration.** -/
theorem FourWay.uses (h : FourWay) : h.Uses P h.config.assocRsnIe h.config.beaconRsnIe := by
  refine ⟨fun eapol msg1 h' actions hok => ?_, fun eapol msg3 install h' actions hok => ?_⟩
  · obtain ⟨version, ptk, -, -, -, hactions⟩ := FourWay.onMsg1_eq_ok hok
    exact ⟨_, _, hactions, FourWay.keyFrame_encodeSigned _ _ _ _ h.config.assocFits, rfl⟩
  · obtain ⟨ptk, keyData, gtk, hptk, -, -, -, hdata, hrsn, -⟩ := FourWay.onMsg3_eq_ok hok
    exact ⟨ptk, keyData, hptk, hdata, hrsn⟩

end Elements

variable {S : Platform}

/-! ## The trail of a history -/

/-- What a history says of the session begun last. -/
structure Trail where
  /-- The scan entry it was planned on. -/
  bss : Option Bss
  /-- The association asked for last since. -/
  request : Option AssocRequest

namespace Connection

/-- The association an action asks for. -/
def association : Action → Option AssocRequest
  | .associate request => some request
  | _ => none

/-- The association asked for last among some actions. -/
def lastAsked (actions : List Action) : Option AssocRequest :=
  (actions.filterMap association).getLast?

/-- The scan entry a call begins a session with. -/
def begunFor (e : Entry S) : Option Bss :=
  match e.input with
  | .poll _ input => if begins e.output then (e.pre.plans input).map fun p => p.2.1 else none
  | _ => none

end Connection

namespace Trail

open Connection

/-- One call. -/
def record (t : Trail) (e : Entry S) : Trail :=
  match begunFor e with
  | some bss => ⟨some bss, lastAsked e.output⟩
  | none => ⟨t.bss, (lastAsked e.output).or t.request⟩

/-- What a history has begun and asked for last. -/
def ofLog (past : List (Entry S)) : Trail := past.foldl record ⟨none, none⟩

theorem ofLog_concat (past : List (Entry S)) (e : Entry S) :
    ofLog (past ++ [e]) = (ofLog past).record e := by
  simp [ofLog]

end Trail

namespace Connection

variable {c c' : Connection S} {draws : Draws S} {input : Input} {r : Connection S × List Action}
  {t : Trail} {e : Entry S}

theorem lastAsked_of_requests {actions : List Action} (h : requests actions = []) :
    lastAsked actions = none := by
  have hnone : actions.filterMap association = [] := by
    refine List.filterMap_eq_nil_iff.mpr fun action hmem => ?_
    cases haction : action with
    | associate request =>
      have hin : action ∈ requests actions := mem_requests.mpr ⟨hmem, by rw [haction]; rfl⟩
      rw [h] at hin
      cases hin
    | _ => rfl
  rw [lastAsked, hnone]
  rfl

theorem lastAsked_append (actions rest : List Action) :
    lastAsked (actions ++ rest) = (lastAsked rest).or (lastAsked actions) := by
  rw [lastAsked, List.filterMap_append, List.getLast?_append]
  rfl

theorem lastAsked_associateWith (target : Target) (session : Session S) :
    lastAsked (c.associateWith target session).2 =
      some (assocRequest c.device.ifindex target.ssid session) := by
  rw [associateWith_snd, lastAsked_append]
  rfl

theorem begunFor_of_plans (hinput : e.input = .poll draws input) (hplans : e.pre.plans input = none) :
    begunFor e = none := by
  simp [begunFor, hinput, hplans]

theorem begunFor_of_quiet (h : begins e.output = false) : begunFor e = none := by
  unfold begunFor
  split
  · simp [h]
  · rfl

theorem begins_fail (c : Connection S) (failure : Failure) : begins (c.fail failure).2 = false := by
  unfold fail begins
  rw [andThen_snd]
  dsimp only
  split_ifs <;> cases c.armed <;> simp [backOff, giveUp, leaving, disarm, timerOf]

theorem begunFor_eq (hinput : e.input = .poll draws input) {bss : Bss} {roaming : Bool}
    (hplans : e.pre.plans input = some (c', bss, roaming)) (hbegins : begins e.output = true) :
    begunFor e = some bss := by
  simp [begunFor, hinput, hplans, hbegins]

/-- A call that begins no session and asks for nothing leaves the trail there was. -/
theorem record_of_quiet (hbegun : begunFor e = none) (h : requests e.output = []) :
    t.record e = t := by
  rw [Trail.record, hbegun, lastAsked_of_requests h]
  rfl

/-! ## What the trail says of a session -/

end Connection

namespace Core

/-- The session has made this request: its element, its BSS, its AKM. -/
structure Session.Asked (session : Session S) (request : AssocRequest) : Prop where
  bssid : request.bssid = session.choice.bssid
  suites : ∀ n, session.choice.rsn = some n →
    request.ies = session.assocIe.val ∧ request.akms = [Nl80211.akmSuite n.akm]

/-- The handshake is configured for the session. -/
def Session.Configures (session : Session S) (handshake : FourWay) : Prop :=
  ∃ n, session.choice.rsn = some n ∧ handshake.config.akm = n.akm ∧
    handshake.config.bssid = session.choice.bssid ∧
    handshake.config.assocRsnIe = session.assocIe.val ∧ handshake.config.beaconRsnIe = n.beaconIe

/-- **What the trail says of a session.** -/
structure Session.Bound (t : Trail) (session : Session S) : Prop where
  /-- Its suites were negotiated with the element of the scan entry. -/
  beacon : ∀ n, session.choice.rsn = some n →
    ∃ bss ie, t.bss = some bss ∧ bss.rsn = some ie ∧ n.beaconIe = ie.raw
  /-- No handshake starts before an SAE exchange has ended. -/
  fresh : ∀ provider, session.auth = .preAssoc provider → session.handshake = none
  /-- The request made last is its own. -/
  asked : (∃ provider, session.auth = .preAssoc provider) ∨
    ∃ request, t.request = some request ∧ session.Asked request
  handshake : ∀ handshake, session.handshake = some handshake → session.Configures handshake

theorem Session.Bound.request {t : Trail} {session : Session S} (h : session.Bound t)
    (hauth : ∀ provider, session.auth ≠ .preAssoc provider) :
    ∃ request, t.request = some request ∧ session.Asked request :=
  h.asked.resolve_left fun ⟨provider, hpre⟩ => hauth provider hpre

end Core

namespace Connection

variable {c c' : Connection S} {draws : Draws S} {input : Input} {r : Connection S × List Action}
  {t : Trail} {e : Entry S} {session session' : Session S}

/-- **A session that advances stays bound.** -/
theorem Advance.bound (h : c.Advance session session') (hbound : session.Bound t) :
    session'.Bound t := by
  cases h with
  | same => exact hbound
  | heard signalDbm =>
    refine ⟨hbound.beacon, hbound.fresh, ?_, hbound.handshake⟩
    rcases hbound.asked with hpre | ⟨request, hrequest, hasked⟩
    · exact .inl hpre
    · exact .inr ⟨request, hrequest, hasked.bssid, hasked.suites⟩
  | joined hauth =>
    have hpre : ∀ provider, session.auth ≠ .preAssoc provider := by
      intro provider hp
      rcases hauth with hauth | ⟨o, hauth⟩ <;> cases hauth.symm.trans hp
    obtain ⟨request, hrequest, hasked⟩ := hbound.request hpre
    refine ⟨hbound.beacon, by rintro _ ⟨⟩, .inr ⟨request, hrequest, hasked.bssid, hasked.suites⟩,
      hbound.handshake⟩
  | ready pmk n snonce hauth hn =>
    obtain ⟨request, hrequest, hasked⟩ := hbound.request (by rw [hauth]; rintro _ ⟨⟩)
    refine ⟨hbound.beacon, by rintro _ ⟨⟩, .inr ⟨request, hrequest, hasked.bssid, hasked.suites⟩, ?_⟩
    rintro _ ⟨⟩
    exact ⟨n, hn, rfl, rfl, rfl, rfl⟩
  | asked provider provider' hauth =>
    obtain ⟨request, hrequest, hasked⟩ := hbound.request (by rw [hauth]; rintro _ ⟨⟩)
    exact ⟨hbound.beacon, by rintro _ ⟨⟩, .inr ⟨request, hrequest, hasked.bssid, hasked.suites⟩,
      hbound.handshake⟩
  | derived provider pmk n snonce hauth hn =>
    obtain ⟨request, hrequest, hasked⟩ := hbound.request (by rw [hauth]; rintro _ ⟨⟩)
    refine ⟨hbound.beacon, by rintro _ ⟨⟩, .inr ⟨request, hrequest, hasked.bssid, hasked.suites⟩, ?_⟩
    rintro _ ⟨⟩
    exact ⟨n, hn, rfl, rfl, rfl, rfl⟩
  | polled handshake input hhandshake =>
    have hpre : ∀ provider, session.auth ≠ .preAssoc provider := by
      intro provider hp
      cases (hbound.fresh provider hp).symm.trans hhandshake
    obtain ⟨request, hrequest, hasked⟩ := hbound.request hpre
    refine ⟨hbound.beacon, fun provider hp => absurd hp (hpre provider),
      .inr ⟨request, hrequest, hasked.bssid, hasked.suites⟩, ?_⟩
    rintro _ ⟨⟩
    obtain ⟨n, hn, hakm, hbssid, hown, htheirs⟩ := hbound.handshake handshake hhandshake
    refine ⟨n, hn, ?_⟩
    rw [FourWay.poll_config]
    exact ⟨hakm, hbssid, hown, htheirs⟩

/-- **A session that makes its request** is bound to it. -/
theorem bound_requested {s : Session S} {ifindex : UInt32} {ssid : Bytes} {bss : Option Bss}
    (hbeacon : ∀ n, s.choice.rsn = some n →
      ∃ entry ie, bss = some entry ∧ entry.rsn = some ie ∧ n.beaconIe = ie.raw)
    (hhandshake : s.handshake = none) :
    (requested s).Bound ⟨bss, some (assocRequest ifindex ssid s)⟩ := by
  refine ⟨hbeacon, fun _ _ => hhandshake, .inr ⟨_, rfl, ?_, fun n hn => ?_⟩, ?_⟩
  · exact assocRequest_bssid ifindex ssid s
  · replace hn : s.choice.rsn = some n := hn
    constructor <;> simp only [assocRequest, requested_assocIe, hn]
  · intro handshake h
    cases hhandshake.symm.trans h

/-- **A session in its exchange** stays bound, or makes its request at the end of it. -/
theorem bound_saeDriven {event : SaeEvent} (hd : SaeDriven c event r)
    (hbound : ∀ session, c.session = some session → session.Bound t) :
    ∀ session, r.1.session = some session →
      session.Bound ⟨t.bss, (lastAsked r.2).or t.request⟩ := by
  cases hd with
  | off => exact hbound
  | call target session provider q r htarget hsession hauth hq hm =>
    have hpre := hbound session hsession
    have hkept : (session.withAuth (.preAssoc q.1)).Bound t :=
      ⟨hpre.beacon, fun _ _ => hpre.fresh provider hauth, .inl ⟨q.1, rfl⟩, hpre.handshake⟩
    obtain ⟨p', x⟩ := q
    intro session' hsession'
    cases hm with
    | wait =>
      cases hsession'
      exact hkept
    | send frame request hrequest =>
      cases hsession'
      exact hkept
    | noBody => exact nomatch (fail_session _ _).symm.trans hsession'
    | fail => exact nomatch (fail_session _ _).symm.trans hsession'
    | done target' held pmk htarget' hheld =>
      obtain rfl := Option.some.inj hheld
      rw [associateWith_fst] at hsession'
      obtain rfl := Option.some.inj hsession'
      rw [lastAsked_associateWith]
      exact bound_requested (s := keyed (session.withAuth (.preAssoc p')) pmk) hpre.beacon
        (hpre.fresh provider hauth)

/-- The suites of a choice are negotiated with the element of its scan entry. -/
theorem Chosen.beacon {bss : Bss} {roaming : Bool} {credential : Credential} {choice : Choice}
    (h : c.Chosen bss roaming credential choice) {n : Negotiated} (hn : choice.rsn = some n) :
    ∃ entry ie, some bss = some entry ∧ entry.rsn = some ie ∧ n.beaconIe = ie.raw := by
  obtain ⟨rsn, hrsn, rfl, -⟩ := evaluate_eq_ok h.evaluated
  rcases negotiateBss_eq_ok hrsn with ⟨-, -, rfl⟩ | ⟨ie, n', hie, rfl, hnegotiate⟩
  · cases hn
  · obtain rfl := Option.some.inj hn
    obtain ⟨-, -, -, -, -, -, hbeacon⟩ := negotiate_eq_ok hnegotiate
    exact ⟨bss, ie, rfl, hie, hbeacon⟩

/-! ## One call -/

/-- A history, and the connection it leaves: what the trail says holds of the session. -/
structure Tied (past : List (Entry S)) (c : Connection S) : Prop where
  surveyed : ∀ bss, (Trail.ofLog past).bss = some bss → ∃ ssid, Surveyed past ssid bss
  session : ∀ session, c.session = some session → session.Bound (Trail.ofLog past)

variable {past : List (Entry S)}

theorem tied_new (device : Device) (profiles : List Profile) :
    Tied [] (new device profiles : Connection S) :=
  ⟨(fun _ h => nomatch h), (fun _ h => nomatch h)⟩

theorem Tied.quiet (h : Tied past c) (hbegun : begunFor e = none) (hrequests : requests e.output = [])
    (hsession : ∀ session', c'.session = some session' →
      ∃ session, c.session = some session ∧ ∀ t, session.Bound t → session'.Bound t) :
    Tied (past ++ [e]) c' := by
  have htrail : Trail.ofLog (past ++ [e]) = Trail.ofLog past := by
    rw [Trail.ofLog_concat, record_of_quiet hbegun hrequests]
  refine ⟨?_, fun session' hs => ?_⟩
  · rw [htrail]
    intro bss hbss
    obtain ⟨ssid, hsurveyed⟩ := h.surveyed bss hbss
    exact ⟨ssid, hsurveyed.mono [e]⟩
  · rw [htrail]
    obtain ⟨session, hsession, hbound⟩ := hsession session' hs
    exact hbound _ (h.session session hsession)

theorem Tied.same (h : Tied past c) (hbegun : begunFor e = none) (hrequests : requests e.output = [])
    (hsession : c'.session = c.session) : Tied (past ++ [e]) c' :=
  h.quiet hbegun hrequests fun session' hs => ⟨session', hsession ▸ hs, fun _ => id⟩

theorem Tied.gone (h : Tied past c) (hbegun : begunFor e = none) (hrequests : requests e.output = [])
    (hsession : c'.session = none) : Tied (past ++ [e]) c' :=
  h.quiet hbegun hrequests fun _ hs => nomatch hsession.symm.trans hs

/-- **A poll that plans** leaves the session there was, or one bound to the entry planned for. -/
theorem Tied.planned {bss : Bss} {roaming : Bool} (h : Tied past c)
    (hplans : c.plans input = some (c', bss, roaming))
    (hsurveyed : ∃ ssid, Surveyed (past ++ [polled c draws input r]) ssid bss)
    (hp : Planned c' draws bss roaming r) : Tied (past ++ [polled c draws input r]) r.1 := by
  have hsame := plans_session hplans
  -- what is begun starts a trail of its own
  have hbegin : begins r.2 = true → (∀ session, r.1.session = some session →
      session.Bound ⟨some bss, lastAsked r.2⟩) → Tied (past ++ [polled c draws input r]) r.1 := by
    intro hbegins hbound
    have htrail : Trail.ofLog (past ++ [polled c draws input r]) = ⟨some bss, lastAsked r.2⟩ := by
      rw [Trail.ofLog_concat, Trail.record, begunFor_eq rfl hplans hbegins]
    refine ⟨fun bss' hbss' => ?_, ?_⟩
    · rw [htrail] at hbss'
      obtain rfl := Option.some.inj hbss'
      exact hsurveyed
    · rw [htrail]
      exact hbound
  cases hp with
  | refused failure => exact h.gone (begunFor_of_quiet (begins_fail _ _)) (by simp) (fail_session _ _)
  | stay => exact h.same (begunFor_of_quiet rfl) rfl hsame
  | enterprise => exact h.gone (begunFor_of_quiet (begins_fail _ _)) (by simp) (fail_session _ _)
  | prompt choice =>
    refine h.same (begunFor_of_quiet ?_) (requests_of_decisions (by simp [Connection.prompt])) hsame
    unfold Connection.prompt disarm
    cases c'.armed <;> rfl
  | unstaged => exact h.gone (begunFor_of_quiet (begins_fail _ _)) (by simp) (fail_session _ _)
  | sae credential choice provider q hchosen hstage hroaming hd =>
    refine hbegin (by simp [begins]) fun session hsession => ?_
    have hbound := bound_saeDriven (t := ⟨some bss, none⟩) hd (fun session hsession => ?_) session
      hsession
    · rw [lastAsked_append, lastAsked_of_requests (requests_leaving _ _), Option.or_none]
      rwa [Option.or_none] at hbound
    · rw [enter_fst] at hsession
      obtain rfl := Option.some.inj hsession
      exact ⟨fun n hn => hchosen.beacon hn, fun _ _ => rfl, .inl ⟨provider, rfl⟩, by rintro _ ⟨⟩⟩
  | associate credential choice auth target hchosen hstage hpre htarget =>
    refine hbegin (by simp [begins, associateWith_snd]) fun session hsession => ?_
    rw [associateWith_fst] at hsession
    obtain rfl := Option.some.inj hsession
    rw [lastAsked_associateWith]
    exact bound_requested (s := newSession choice auth) (fun n hn => hchosen.beacon hn) rfl

/-- What holds of a history and the connection it leaves. -/
structure TiedInv (past : List (Entry S)) (c : Connection S) : Prop where
  traced : Traced past c
  tied : Tied past c

/-- **One call.** -/
theorem TiedInv.step (h : TiedInv past c) (call : Call S) :
    TiedInv (past ++ [Machine.entry step c call]) (c.step call).1 := by
  refine ⟨(h.traced.step call).traced, ?_⟩
  cases call with
  | poll draws input =>
    cases hpoll : c.poll draws input with
    | none =>
      rw [entry_panicked hpoll, Connection.step, hpoll]
      exact h.tied.same (begunFor_of_quiet rfl) rfl rfl
    | some r =>
      rw [entry_polled hpoll, Connection.step, hpoll]
      show Tied _ r.1
      have hm := poll_move hpoll
      cases hplans : c.plans input with
      | none =>
        have hbegun : begunFor (polled c draws input r) = none := begunFor_of_plans rfl hplans
        rcases hm.advances hplans with hadvances | ⟨event, -, hd⟩
        · refine h.tied.quiet hbegun hadvances.requests fun session' hs => ?_
          obtain ⟨session, hsession, hadvance⟩ := hadvances.session session' hs
          exact ⟨session, hsession, fun t => hadvance.bound⟩
        · have htrail : Trail.ofLog (past ++ [polled c draws input r]) =
              ⟨(Trail.ofLog past).bss, (lastAsked r.2).or (Trail.ofLog past).request⟩ := by
            rw [Trail.ofLog_concat, Trail.record, hbegun]
          refine ⟨?_, ?_⟩
          · rw [htrail]
            intro bss hbss
            obtain ⟨ssid, hsurveyed⟩ := h.tied.surveyed bss hbss
            exact ⟨ssid, hsurveyed.mono _⟩
          · rw [htrail]
            exact bound_saeDriven hd h.tied.session
      | some p =>
        obtain ⟨c', bss, roaming⟩ := p
        cases hm.course with
        | quiet _ hnone => cases hnone.symm.trans hplans
        | exchange event _ hnone => cases hnone.symm.trans hplans
        | planned _ _ _ _ hplans' htarget hbegins hp =>
          cases hplans.symm.trans hplans'
          obtain ⟨⟨ssid, -, hsurveyed⟩, -⟩ :=
            surveyed_planned (e := polled c draws input r) h.traced.parked h.traced.sound rfl rfl
              hplans hp
          exact h.tied.planned hplans ⟨ssid, hsurveyed⟩ hp
  | insertProfile profile => exact h.tied.same rfl rfl rfl
  | forgetProfile ssid => exact h.tied.same rfl rfl rfl

/-! ## Runs -/

/-- **What a handshake is bound to.** In every connection a run comes to, the handshake of its session
sends in message 2, octet for octet, the element of the association asked for last since that session
was begun; it runs with the BSSID and the AKM of that request; and it compares message 3 with the RSN
element, octet for octet, of the entry, found in a scan of the run, that the session was planned on. -/
theorem handshake_elements (device : Device) (profiles : List Profile) (calls : List (Call S))
    {session : Session S} {handshake : FourWay}
    (hsession : (Machine.exec step (new device profiles) calls).session = some session)
    (hhandshake : session.handshake = some handshake) :
    ∃ bss ie request ssid,
      (Trail.ofLog (Machine.log step (new device profiles) calls)).bss = some bss ∧
      Surveyed (Machine.log step (new device profiles) calls) ssid bss ∧ bss.rsn = some ie ∧
      (Trail.ofLog (Machine.log step (new device profiles) calls)).request = some request ∧
      handshake.config.bssid = request.bssid ∧
      request.akms = [Nl80211.akmSuite handshake.config.akm] ∧
      handshake.config.assocRsnIe = request.ies ∧ handshake.config.beaconRsnIe = ie.raw ∧
      handshake.Uses S.prim request.ies ie.raw := by
  have hinv : TiedInv (Machine.log step (new device profiles) calls)
      (Machine.exec step (new device profiles) calls) :=
    Machine.run_induction (G := fun _ _ => True) ⟨traced_new device profiles, tied_new device profiles⟩
      (fun _ _ call h _ => h.step call) calls fun _ _ _ _ => trivial
  have hbound := hinv.tied.session session hsession
  obtain ⟨n, hn, hakm, hbssid, hown, htheirs⟩ := hbound.handshake handshake hhandshake
  obtain ⟨bss, ie, hbss, hie, hbeacon⟩ := hbound.beacon n hn
  obtain ⟨ssid, hsurveyed⟩ := hinv.tied.surveyed bss hbss
  have hpre : ∀ provider, session.auth ≠ .preAssoc provider := by
    intro provider hp
    cases (hbound.fresh provider hp).symm.trans hhandshake
  obtain ⟨request, hrequest, hasked⟩ := hbound.request hpre
  obtain ⟨hies, hakms⟩ := hasked.suites n hn
  replace hown : handshake.config.assocRsnIe = request.ies := hown.trans hies.symm
  replace htheirs : handshake.config.beaconRsnIe = ie.raw := htheirs.trans hbeacon
  refine ⟨bss, ie, request, ssid, hbss, hsurveyed, hie, hrequest, hbssid.trans hasked.bssid.symm,
    ?_, hown, htheirs, ?_⟩
  · rw [hakm]
    exact hakms
  · rw [← hown, ← htheirs]
    exact handshake.uses

theorem handshake_elements_sample : ∃ session handshake request,
    (Machine.exec step (new sampleDevice [] : Connection .sample) sampleAssociation).session =
      some session ∧ session.handshake = some handshake ∧
    (Trail.ofLog (Machine.log step (new sampleDevice [] : Connection .sample)
      sampleAssociation)).request = some request ∧
    handshake.Uses Platform.sample.prim request.ies [48, 2, 1, 0] := by
  have hsome : ((Machine.exec step (new sampleDevice [] : Connection .sample)
      sampleAssociation).session.bind Session.handshake).isSome = true := by decide +kernel
  obtain ⟨handshake, hbind⟩ := Option.isSome_iff_exists.mp hsome
  obtain ⟨session, hsession, hhandshake⟩ := Option.bind_eq_some_iff.mp hbind
  obtain ⟨bss, ie, request, ssid, hbss, -, hie, hrequest, -, -, -, -, huses⟩ :=
    handshake_elements sampleDevice [] sampleAssociation hsession hhandshake
  have hentry : (Trail.ofLog (Machine.log step (new sampleDevice [] : Connection .sample)
      sampleAssociation)).bss = some samplePskBss := by decide +kernel
  rw [hbss] at hentry
  obtain rfl := Option.some.inj hentry
  cases hie
  exact ⟨session, handshake, request, hsession, hhandshake, hrequest, huses⟩

end Connection

end Caw
