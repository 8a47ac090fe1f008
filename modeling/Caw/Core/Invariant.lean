import Caw.Core.Moves

/-!
# What holds of every reachable connection

* `Session.Secured`: only an open network goes without keys;
* `Connection.StateInv`: what a state says of the session;
* **`Connection.Sound`**, `Connection.Sound.step`: the invariant of all three;
* **`Connection.Reachable.sound`**: it holds of every reachable connection.
-/

set_option autoImplicit false

namespace Caw

open Caw.Core

variable {S : Platform}

namespace Core

/-- Keys belong to a secured network. -/
def Session.Secured (session : Session S) : Prop :=
  session.auth ≠ .open ∨ session.handshake.isSome → session.choice.rsn.isSome

/-- What a request leaves of an authentication: a credential in hand, or none that is needed. -/
inductive Auth.AfterRequest : Auth S → Prop
  | open : AfterRequest .open
  | ready (pmk : Pmk) : AfterRequest (.ready pmk)
  | postAssoc (p : S.Dot1x) : AfterRequest (.postAssoc p)

end Core

namespace Connection

variable (c : Connection S)

/-- What a state says of the session and the target. -/
def StateInv : Prop :=
  match c.state with
  | .idle => c.session = none ∧ c.pending = none ∧ c.target = none
  | .scanning => c.session = none
  | .reconnecting => c.session = none ∧ c.pending = none
  | .authenticating => ∃ s p, c.session = some s ∧ s.auth = .preAssoc p
  | .associating => ∃ s, c.session = some s ∧ Auth.AfterRequest s.auth
  | .handshaking => ∃ s, c.session = some s
  | .configuring | .connected => True

/-- What holds of every reachable connection. -/
structure Sound : Prop where
  state : c.StateInv
  targeted : c.session.isSome ∨ c.pending.isSome → c.target.isSome
  secured : ∀ s, c.session = some s → s.Secured

variable {c} {draws : Draws S} {r : Connection S × List Action}

/-! ## Transitions -/

theorem sound_new (device : Device) (profiles : List Profile) :
    (new device profiles : Connection S).Sound :=
  ⟨⟨rfl, rfl, rfl⟩, by simp, by simp⟩

/-- **Every failure leaves a sound connection**, whatever it ends. -/
theorem sound_fail (failure : Failure) : (c.fail failure).1.Sound := by
  rw [fail_fst]
  split_ifs
  · exact ⟨⟨rfl, rfl⟩, by simp, by simp⟩
  · exact ⟨⟨rfl, rfl, rfl⟩, by simp, by simp⟩

theorem sound_startScan (hsession : c.session = none) (hpending : c.pending.isSome → c.target.isSome) :
    c.startScan.1.Sound := by
  rw [startScan_fst]
  exact ⟨hsession, by simpa [hsession] using hpending, by simp [hsession]⟩

theorem sound_associateWith {target : Target} {session : Session S} (htarget : c.target.isSome)
    (hsecured : session.Secured) (hpre : ∀ p, session.auth ≠ .preAssoc p)
    (hrunning : session.auth ≠ .running) : (c.associateWith target session).1.Sound := by
  rw [associateWith_fst]
  refine ⟨⟨requested session, rfl, ?_⟩, fun _ => htarget, ?_⟩
  · rw [requested_auth]
    cases hauth : session.auth with
    | «open» => exact .open
    | offloaded o => exact .open
    | ready pmk => exact .ready pmk
    | postAssoc p => exact .postAssoc p
    | preAssoc p => exact absurd hauth (hpre p)
    | running => exact absurd hauth hrunning
  · rintro s ⟨⟩ hs
    apply hsecured
    rw [requested_auth, requested_handshake] at hs
    rcases hs with hs | hs
    · cases hauth : session.auth with
      | «open» => rw [hauth] at hs; exact absurd rfl hs
      | _ => exact .inl fun h => nomatch h
    · exact .inr hs

theorem Sound.withSession (h : c.Sound) {session s : Session S} (hs : c.session = some session)
    (hsecured : s.Secured)
    (hpre : (∃ p, session.auth = .preAssoc p) → ∃ p, s.auth = .preAssoc p)
    (hafter : Auth.AfterRequest session.auth → Auth.AfterRequest s.auth) :
    (c.withSession s).Sound := by
  refine ⟨?_, fun _ => h.targeted (.inl (by simp [hs])), by rintro _ ⟨⟩; exact hsecured⟩
  have hstate := h.state
  unfold StateInv at hstate ⊢
  rw [withSession_state]
  cases hst : c.state with
  | authenticating =>
    simp only [hst] at hstate ⊢
    obtain ⟨held, p, hs', hp⟩ := hstate
    rw [hs] at hs'
    cases hs'
    obtain ⟨p', hp'⟩ := hpre ⟨p, hp⟩
    exact ⟨s, p', rfl, hp'⟩
  | associating =>
    simp only [hst] at hstate ⊢
    obtain ⟨held, hs', ha⟩ := hstate
    rw [hs] at hs'
    cases hs'
    exact ⟨s, rfl, hafter ha⟩
  | handshaking => exact ⟨s, rfl⟩
  | configuring => trivial
  | connected => trivial
  | idle => simp [hst, hs] at hstate
  | scanning => simp [hst, hs] at hstate
  | reconnecting => simp [hst, hs] at hstate

theorem Sound.withArmed (h : c.Sound) (armed : Option TimerId) : { c with armed := armed }.Sound :=
  ⟨h.state, h.targeted, h.secured⟩

theorem Sound.withPending (h : c.Sound) (htarget : c.target.isSome) (hst : c.state ≠ .reconnecting)
    (pending : Option Bss) {armed : Option TimerId} :
    { c with pending := pending, armed := armed }.Sound := by
  refine ⟨?_, fun _ => htarget, h.secured⟩
  have hstate := h.state
  unfold StateInv at hstate ⊢
  cases hc : c.state with
  | idle =>
    simp only [hc] at hstate
    rw [hstate.2.2] at htarget
    cases htarget
  | reconnecting => exact absurd hc hst
  | _ =>
    rw [hc] at hstate
    exact hstate

theorem sound_configured {session : Session S} (hs : c.session = some session)
    (hsecured : session.Secured) (htarget : c.target.isSome) : c.configured.1.Sound := by
  refine ⟨?_, fun _ => by simpa using htarget, ?_⟩
  · unfold StateInv
    rw [configured_state]
    unfold afterKeys
    split_ifs <;> trivial
  · intro s hs'
    rw [configured_session, hs] at hs'
    cases hs'
    exact hsecured

/-! ## Handlers -/

theorem sound_saeMove {x : Except Crypto.Fault Step} (h : c.Sound)
    (hrsn : ∀ s, c.session = some s → s.choice.rsn.isSome) (hm : SaeMove c x r) : r.1.Sound := by
  cases hm with
  | wait => exact h
  | send frame request => exact h.withArmed _
  | noBody => exact sound_fail _
  | fail => exact sound_fail _
  | done target session pmk htarget hsession =>
    exact sound_associateWith (by simp [htarget]) (fun _ => hrsn session hsession)
      (fun p hp => nomatch hp) (fun hp => nomatch hp)

theorem sound_saeDriven {event : SaeEvent} (h : c.Sound) (hd : SaeDriven c event r) : r.1.Sound := by
  cases hd with
  | off => exact h
  | call target session provider q r htarget hsession hauth hq hm =>
    have hrsn : session.choice.rsn.isSome :=
      h.secured session hsession (.inl (by rw [hauth]; exact fun hp => nomatch hp))
    have hsound : (c.withSession (session.withAuth (.preAssoc q.1))).Sound :=
      h.withSession hsession (fun _ => hrsn) (fun _ => ⟨q.1, rfl⟩) (by rw [hauth]; exact nofun)
    exact sound_saeMove hsound (by rintro s ⟨⟩; exact hrsn) hm

theorem sound_keyStart {pmk : Pmk} (htarget : c.target.isSome) (hk : KeyStart c draws pmk r) :
    r.1.Sound := by
  cases hk with
  | noNonce => exact sound_fail _
  | start session rsn snonce hsession hrsn hnonce =>
    rw [enter_fst]
    refine ⟨⟨_, rfl⟩, fun _ => htarget, ?_⟩
    rintro s ⟨⟩ -
    simp [hrsn]

theorem sound_dot1xDriven {frame : Option Bytes} (h : c.Sound) (hd : Dot1xDriven c draws frame r) :
    r.1.Sound := by
  cases hd with
  | off => exact h
  | call target session provider q r htarget hsession hauth hq hm =>
    have hrsn : session.choice.rsn.isSome :=
      h.secured session hsession (.inl (by rw [hauth]; exact fun hp => nomatch hp))
    have hsound : (c.withSession (session.withAuth (.postAssoc q.1))).Sound :=
      h.withSession hsession (fun _ => hrsn) (by rw [hauth]; rintro ⟨p, hp⟩; cases hp)
        fun _ => .postAssoc q.1
    obtain ⟨p', x⟩ := q
    cases hm with
    | send => exact hsound
    | wait => exact hsound
    | fail => exact sound_fail _
    | done pmk r hk =>
      exact sound_keyStart (by simp [htarget]) hk

theorem handshakeAction_fst {action : FourWay.Action} (h : c.handshakeAction action = some r) :
    ∃ armed, r.1 = { c with armed := armed } := by
  cases action with
  | send => cases h; exact ⟨c.armed, rfl⟩
  | armTimer => cases h; exact ⟨_, rfl⟩
  | disarmTimer => cases h; exact ⟨none, rfl⟩
  | complete keys =>
    obtain ⟨install, -, rfl⟩ := Option.map_eq_some_iff.mp h
    exact ⟨c.armed, rfl⟩
  | newGtk => cases h; exact ⟨c.armed, rfl⟩

theorem handshakeActions_fst {actions : List FourWay.Action} (h : c.handshakeActions actions = some r) :
    ∃ armed, r.1 = { c with armed := armed } := by
  induction actions generalizing c r with
  | nil =>
    cases h
    exact ⟨c.armed, rfl⟩
  | cons action rest ih =>
    obtain ⟨q, hq, hrest⟩ := Option.bind_eq_some_iff.mp h
    obtain ⟨q', hq', rfl⟩ := (tryThen_eq_some _).mp hrest
    obtain ⟨armed, hfst⟩ := ih hq'
    obtain ⟨armed', hone⟩ := handshakeAction_fst hq
    exact ⟨armed, by rw [hfst, hone]⟩

theorem handshakeActions_isSome {n : Negotiated} {actions : List FourWay.Action} {session : Session S}
    (hsession : c.session = some session) (hn : session.choice.rsn = some n) :
    (c.handshakeActions actions).isSome := by
  induction actions generalizing c with
  | nil => rfl
  | cons action rest ih =>
    obtain ⟨q, hq⟩ : ∃ q, c.handshakeAction action = some q := by
      refine Option.isSome_iff_exists.mp ?_
      cases action <;> simp [handshakeAction, pairwiseInstall, hsession, hn]
    obtain ⟨armed, hfst⟩ := handshakeAction_fst hq
    rw [handshakeActions, hq, Option.bind_some, tryThen, Option.isSome_map]
    exact ih (by rw [hfst]; exact hsession)

/-- What a handshake may ask for. -/
def Keying : Action → Prop
  | .sendEapol _ | .installKeys _ | .setTimer .. | .clearTimer _ => True
  | _ => False

theorem keying_disarm (c : Connection S) : ∀ action ∈ c.disarm.2, Keying action := by
  unfold disarm
  cases c.armed with
  | none => exact fun _ hmem => absurd hmem List.not_mem_nil
  | some id =>
    intro action hmem
    rw [List.mem_singleton.mp hmem]
    trivial

theorem keying_handshakeActions {actions : List FourWay.Action}
    (h : c.handshakeActions actions = some r) : ∀ action ∈ r.2, Keying action := by
  induction actions generalizing c r with
  | nil =>
    cases h
    exact fun _ hmem => absurd hmem List.not_mem_nil
  | cons action rest ih =>
    obtain ⟨q, hq, hrest⟩ := Option.bind_eq_some_iff.mp h
    obtain ⟨q', hq', rfl⟩ := (tryThen_eq_some _).mp hrest
    have hone : ∀ action ∈ q.2, Keying action := by
      cases action with
      | complete keys =>
        obtain ⟨install, -, rfl⟩ := Option.map_eq_some_iff.mp hq
        intro action hmem
        rw [List.mem_singleton.mp hmem]
        trivial
      | disarmTimer =>
        cases hq
        exact keying_disarm c
      | _ =>
        cases hq
        intro action hmem
        rw [List.mem_singleton.mp hmem]
        trivial
    exact fun action hmem => (List.mem_append.mp hmem).elim (hone action) (ih hq' action)

theorem decisions_handshakeActions {actions : List FourWay.Action}
    (h : c.handshakeActions actions = some r) : decisions r.2 = [] := by
  refine List.filter_eq_nil_iff.mpr fun action hmem hd => ?_
  have hkeying := keying_handshakeActions h action hmem
  cases action <;> first | exact hkeying.elim | cases hd

theorem sound_handshakeMove {input : FourWay.Input} (h : c.Sound) (hm : HandshakeMove c input r) :
    r.1.Sound := by
  cases hm with
  | off => exact h
  | fail => exact sound_fail _
  | actions session handshake actions r hsession hhandshake hpoll hactions =>
    have hrsn : session.choice.rsn.isSome := h.secured session hsession (.inr (by simp [hhandshake]))
    have hsound := h.withSession (s := session.withHandshake (handshake.poll S.prim input).1)
      hsession (fun _ => hrsn) id id
    obtain ⟨armed, hfst⟩ := handshakeActions_fst hactions
    rw [andThen_fst, hfst]
    split_ifs
    · exact sound_configured rfl (fun _ => hrsn) (hsound.targeted (.inl rfl))
    · exact hsound.withArmed armed

/-! ## Planning -/

theorem negotiate_eq_ok {rsn : RsnIe} {credential : Option Credential} {n : Negotiated}
    (h : negotiate S.enterprise rsn credential = .ok n) :
    Policy.chooseAkm S.enterprise rsn credential = some n.akm ∧
      Policy.choosePairwise rsn = some n.pairwise ∧ n.group = rsn.groupCipher ∧
      n.groupMgmt = rsn.groupMgmtCipher ∧ n.mfpRequired = (rsn.mfpRequired || n.akm.isSae) ∧
      n.mfpCapable = (rsn.mfpCapable || n.mfpRequired) ∧ n.beaconIe = rsn.raw := by
  unfold negotiate at h
  split at h
  · cases h
  · rename_i akm hakm
    split at h
    · cases h
    · rename_i pairwise hpairwise
      cases h
      exact ⟨hakm, hpairwise, rfl, rfl, rfl, rfl, rfl⟩

theorem negotiateBss_eq_ok {bss : Bss} {credential : Option Credential} {rsn : Option Negotiated}
    (h : negotiateBss (S := S) bss credential = .ok rsn) :
    (bss.rsn = none ∧ bss.security = .open ∧ rsn = none) ∨
      ∃ ie n, bss.rsn = some ie ∧ rsn = some n ∧ negotiate S.enterprise ie credential = .ok n := by
  unfold negotiateBss at h
  split at h
  · rename_i hnone
    split_ifs at h with hopen
    cases h
    exact .inl ⟨hnone, hopen, rfl⟩
  · rename_i ie hie
    obtain ⟨n, hn, rfl⟩ := Except.map_eq_ok.mp h
    exact .inr ⟨ie, n, hie, rfl, hn⟩

/-- What a new session starts from: nothing on an open network, and something staged on a secured
one. -/
theorem stage_eq_ok {bss : Bss} {roaming : Bool} {credential : Credential} {choice : Choice}
    {auth : Auth S} (hchosen : c.Chosen bss roaming credential choice)
    (h : c.stage draws choice credential = .ok auth) :
    (choice.rsn = none ∧ auth = .open) ∨ (choice.rsn.isSome ∧ auth.Staged) := by
  obtain ⟨rsn, hrsn, rfl, -⟩ := evaluate_eq_ok hchosen.evaluated
  unfold stage at h
  rcases negotiateBss_eq_ok hrsn with ⟨-, -, rfl⟩ | ⟨ie, n, -, rfl, hn⟩
  · cases h
    exact .inl ⟨rfl, rfl⟩
  · have hsat := (Policy.chooseAkm_mem (negotiate_eq_ok hn).1).2.1
    exact .inr ⟨rfl, assemble_secured hsat h⟩

theorem sound_planned {bss : Bss} {roaming : Bool} (h : c.Sound) (htarget : c.target.isSome)
    (hstate : c.state ≠ .reconnecting) (hp : Planned c draws bss roaming r) : r.1.Sound := by
  cases hp with
  | refused => exact sound_fail _
  | enterprise => exact sound_fail _
  | unstaged => exact sound_fail _
  | stay => exact h
  | prompt => exact h.withPending htarget hstate (some bss)
  | sae credential choice provider r hchosen hstage hroaming hd =>
    suffices hsound : ((c.withSession (newSession choice (.preAssoc provider))).enter
        .authenticating).1.Sound by
      have hr := sound_saeDriven hsound hd
      exact hr
    rcases stage_eq_ok hchosen hstage with ⟨-, hauth⟩ | ⟨hrsn, -⟩
    · cases hauth
    · rw [enter_fst]
      refine ⟨⟨_, provider, rfl, rfl⟩, fun _ => htarget, ?_⟩
      rintro s ⟨⟩ -
      exact hrsn
  | associate credential choice auth target hchosen hstage hpre htarget' =>
    refine sound_associateWith htarget ?_ hpre ?_
    · intro hs
      rcases stage_eq_ok hchosen hstage with ⟨-, hauth⟩ | ⟨hrsn, -⟩
      · rcases hs with hs | hs
        · exact absurd hauth hs
        · cases hs
      · exact hrsn
    · rcases stage_eq_ok hchosen hstage with ⟨-, hauth⟩ | ⟨-, hstaged⟩
      · rw [newSession_auth, hauth]
        exact fun hr => nomatch hr
      · rw [newSession_auth]
        rintro rfl
        cases hstaged

/-! ## Polls -/

theorem Sound.state_of_pending (h : c.Sound) {bss : Bss} (hp : c.pending = some bss) :
    c.state ≠ .reconnecting := by
  intro hst
  have hstate := h.state
  simp [StateInv, hst, hp] at hstate

theorem Sound.withTarget (h : c.Sound) (target : Target) (hst : c.state ≠ .idle) :
    (c.withTarget target).Sound := by
  refine ⟨?_, fun _ => rfl, h.secured⟩
  have hstate := h.state
  unfold StateInv at hstate ⊢
  rw [withTarget_state, withTarget_session, withTarget_pending]
  cases hc : c.state with
  | idle => exact absurd hc hst
  | _ =>
    rw [hc] at hstate
    exact hstate

theorem Sound.idle_of_target (h : c.Sound) {target : Target} (ht : c.target = some target) :
    c.state ≠ .idle := by
  intro hst
  have hstate := h.state
  simp [StateInv, hst, ht] at hstate

theorem Sound.insertProfile (h : c.Sound) (profile : Profile) : (c.insertProfile profile).Sound := by
  refine ⟨?_, fun hs => by simpa using h.targeted hs, h.secured⟩
  have hstate := h.state
  unfold StateInv at hstate ⊢
  rw [insertProfile_state, insertProfile_session, insertProfile_pending]
  cases hc : c.state with
  | idle =>
    simp only [hc] at hstate
    simp [hstate]
  | _ =>
    rw [hc] at hstate
    exact hstate

theorem Sound.saveProfile (h : c.Sound) (hst : c.state ≠ .idle) : c.saveProfile.1.Sound := by
  unfold Connection.saveProfile
  split
  · split_ifs
    · exact h
    · split
      · exact h
      · exact (h.withTarget _ hst).insertProfile _
  · exact h

/-- Saving a profile changes nothing of the session, and of the target not its SSID. -/
theorem saveProfile_frame (c : Connection S) : c.saveProfile.1.state = c.state ∧
    c.saveProfile.1.session = c.session ∧ ∀ target, c.target = some target →
      ∃ target', c.saveProfile.1.target = some target' ∧ target'.ssid = target.ssid := by
  unfold saveProfile
  split
  · rename_i target session htarget hsession
    split_ifs
    · exact ⟨rfl, rfl, fun t ht => ⟨t, ht, rfl⟩⟩
    · split
      · exact ⟨rfl, rfl, fun t ht => ⟨t, ht, rfl⟩⟩
      · refine ⟨rfl, rfl, fun t ht => ?_⟩
        rw [htarget] at ht
        cases ht
        exact ⟨_, rfl, by dsimp only; split_ifs <;> rfl⟩
  · exact ⟨rfl, rfl, fun t ht => ⟨t, ht, rfl⟩⟩

theorem Sound.enter_idle_free (h : c.Sound) {state : State}
    (hst : state = .configuring ∨ state = .connected) (attempts : UInt32) :
    { (c.enter state).1 with attempts := attempts }.Sound := by
  rw [enter_fst]
  refine ⟨?_, h.targeted, h.secured⟩
  rcases hst with rfl | rfl <;> trivial

/-- **Every lease event keeps the invariant**, in whatever state it comes. -/
theorem sound_onLease (h : c.Sound) (event : LeaseEvent) : (c.onLease event).1.Sound := by
  cases event with
  | acquired lease =>
    exact (h.enter_idle_free (.inr rfl) 0).saveProfile (by simp)
  | lost reason =>
    unfold onLease
    split_ifs
    · exact h.enter_idle_free (.inl rfl) _
    · exact h
  | failed => exact sound_fail _

/-- **Every poll keeps the invariant.** -/
theorem Sound.move (h : c.Sound) {input : Input} (hm : Move c draws input r) : r.1.Sound := by
  cases hm with
  | ignore => exact h
  | connect ssid => exact sound_startScan rfl (fun hp => nomatch hp)
  | autoconnect => exact sound_startScan rfl (fun hp => nomatch hp)
  | secret value target htarget hpending => exact h.withTarget _ (h.idle_of_target htarget)
  | answer value target bss r htarget hpending hplanned =>
    have hst := h.state_of_pending hpending
    exact sound_planned ((h.withTarget _ (h.idle_of_target htarget)).withPending rfl hst none) rfl
      hst hplanned
  | disconnect => exact ⟨⟨rfl, rfl, rfl⟩, by simp, by simp⟩
  | noNetwork => exact sound_fail _
  | selected scan target bssid bss r hst hselection hfind hplanned =>
    exact sound_planned (h.withTarget target (by simp [hst])) rfl (by simp [hst]) hplanned
  | surveyed scan session target hst hsession =>
    exact h.withSession hsession (h.secured session hsession) id id
  | roam scan session target better bss r hst hsession htarget hroam hfind hplanned =>
    exact sound_planned h (by simp [htarget]) (by simp [hst]) hplanned
  | eapolKey frame eapol r hl hparse htype hm => exact sound_handshakeMove h hm
  | eapolEap frame eapol r hl hparse htype hd => exact sound_dot1xDriven h hd
  | lease event => exact sound_onLease h event
  | fetch => exact h
  | linkFailed => exact sound_fail _
  | joinedOpen bssid session hst hsession hauth =>
    refine sound_configured rfl (fun hs => h.secured session hsession ?_)
      (h.targeted (.inl (by simp [hsession])))
    exact .inr (hs.resolve_left fun hno => hno rfl)
  | joinedReady bssid session pmk r hst hsession hauth hk =>
    have htarget : (c.withSession (session.withAuth .running)).target.isSome :=
      h.targeted (.inl (by simp [hsession]))
    exact sound_keyStart htarget hk
  | joinedDot1x bssid session provider r hst hsession hauth hd =>
    have hsound : (c.enter .handshaking).1.Sound := by
      rw [enter_fst]
      exact ⟨⟨session, hsession⟩, h.targeted, h.secured⟩
    have hr := sound_dot1xDriven hsound hd
    exact hr
  | joinedUnstaged => exact sound_fail _
  | saeFrame frame body r hst hbody hd => exact sound_saeDriven h hd
  | saeTimeout r hst hd => exact sound_saeDriven h hd
  | handshakeRetry r hl hm => exact sound_handshakeMove h hm
  | timedOut => exact sound_fail _
  | rescan hst =>
    have hstate := h.state
    simp only [StateInv, hst] at hstate
    exact sound_startScan hstate.1 (by simp [hstate.2])

/-- **Every call keeps the invariant.** -/
theorem Sound.step (h : c.Sound) (call : Call S) : (c.step call).1.Sound := by
  cases call with
  | poll draws input =>
    change ((c.poll draws input).getD (c, [])).1.Sound
    cases hpoll : c.poll draws input with
    | none => exact h
    | some r => exact h.move (poll_move hpoll)
  | insertProfile profile => exact h.insertProfile profile
  | forgetProfile ssid => exact ⟨h.state, h.targeted, h.secured⟩

/-- The connections a daemon can come to. -/
abbrev Reachable (device : Device) (profiles : List Profile) (c : Connection S) : Prop :=
  Machine.Reachable step (new device profiles) c

/-- **What holds of every reachable connection.** -/
theorem Reachable.sound {device : Device} {profiles : List Profile} (h : Reachable device profiles c) :
    c.Sound :=
  h.invariant (sound_new device profiles) fun _ call hs => hs.step call

end Connection

end Caw
