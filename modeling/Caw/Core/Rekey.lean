import Caw.Core.Timers

/-!
# Frames after the handshake

What becomes of the frames an access point sends once the keys are in place: a message 3 whose answer
was lost, and the group messages that follow.

* `holdsKeys`: a history has installed a pairwise key, and has been in no state without one since;
* `Connection.KeyHolder`, `keyHolder_move`: the handshake outlives every transition until then;
* `FourWay.Refresh`: a frame of the access point, authentic and fresh;
* `Connection.Replies`, **`refresh_answered_iff`**: it is answered in exactly one of the two states
  that hold keys;
* `message3_dropped`: the other one drops it.
-/

set_option autoImplicit false

namespace Caw

open Caw.Core

variable {S : Platform}

namespace Core

/-! ## The keys a history leaves -/

/-- Whether keys are held once an action is taken. -/
def keysAfter (held : Bool) : Action → Bool
  | .installKeys keys => held || keys.pairwise.isSome
  | .notify state => held && (state = .configuring || state = .connected)
  | .failed _ => false
  | _ => held

/-- The actions of one poll. -/
def keysAfterAll (held : Bool) (actions : List Action) : Bool := actions.foldl keysAfter held

/-- A pairwise key has been installed, and no state that has none entered since. -/
def holdsKeys (past : List (Connection.Entry S)) : Bool :=
  past.foldl (fun held e => keysAfterAll held e.output) false

variable (held : Bool)

@[simp] theorem keysAfterAll_nil : keysAfterAll held [] = held := rfl

@[simp] theorem keysAfterAll_cons (action : Action) (rest : List Action) :
    keysAfterAll held (action :: rest) = keysAfterAll (keysAfter held action) rest := rfl

@[simp] theorem keysAfterAll_append (actions rest : List Action) :
    keysAfterAll held (actions ++ rest) = keysAfterAll (keysAfterAll held actions) rest :=
  List.foldl_append

theorem holdsKeys_concat (past : List (Connection.Entry S)) (e : Connection.Entry S) :
    holdsKeys (past ++ [e]) = keysAfterAll (holdsKeys past) e.output := by
  simp [holdsKeys]

end Core

namespace Connection

variable (c : Connection S) {held : Bool} {draws : Draws S} {r : Connection S × List Action}

/-! ## Transitions -/

@[simp] theorem keysAfterAll_disarm : keysAfterAll held c.disarm.2 = held := by
  unfold disarm
  cases c.armed <;> rfl

@[simp] theorem keysAfterAll_leaving (state : State) : keysAfterAll held (c.leaving state) = held := by
  unfold leaving
  split_ifs <;> simp

@[simp] theorem keysAfterAll_startScan : keysAfterAll held c.startScan.2 = false := by
  simp [startScan_snd, keysAfter]

@[simp] theorem keysAfterAll_associateWith (target : Target) (session : Session S) :
    keysAfterAll held (c.associateWith target session).2 = false := by
  simp [associateWith_snd, keysAfter]

@[simp] theorem keysAfterAll_fail (failure : Failure) :
    keysAfterAll held (c.fail failure).2 = false := by
  unfold fail
  rw [andThen_snd]
  dsimp only
  split_ifs <;> simp [backOff, giveUp, keysAfter]

@[simp] theorem keysAfterAll_configured : keysAfterAll held c.configured.2 = held := by
  rw [configured_snd]
  unfold afterKeys
  split_ifs <;> simp [keysAfter]

@[simp] theorem keysAfterAll_saveProfile : keysAfterAll held c.saveProfile.2 = held := by
  unfold saveProfile
  split
  · split_ifs
    · rfl
    · split <;> rfl
  · rfl

/-! ## The handshake outlives them -/

/-- The 4-way handshake of the session, in a state that answers the access point. -/
structure KeyHolder : Prop where
  state : c.state = .configuring ∨ c.state = .connected
  handshake : ∃ session handshake, c.session = some session ∧
    session.handshake = some handshake ∧
    (handshake.state = .established ∨ handshake.state = .awaitingMsg3)

variable {c}

theorem KeyHolder.congr {c' : Connection S} (h : c.KeyHolder) (hsession : c'.session = c.session)
    (hstate : c'.state = .configuring ∨ c'.state = .connected) : c'.KeyHolder :=
  ⟨hstate, hsession ▸ h.handshake⟩

theorem keyHolder_handshakeMove {input : FourWay.Input}
    (h : held = true → c.KeyHolder) (hm : HandshakeMove c input r) :
    keysAfterAll held r.2 = true → r.1.KeyHolder := by
  cases hm with
  | off => exact h
  | fail => simp
  | actions session handshake actions q hsession hhandshake hpoll hactions =>
    have hstep := FourWay.poll_step (P := S.prim) handshake input
    generalize handshake.poll S.prim input = polled at hstep hpoll hactions
    obtain ⟨handshake', x⟩ := polled
    dsimp only at hstep hpoll hactions
    subst hpoll
    have hsame : handshake'.state = handshake.state ∨ handshake'.state = .awaitingMsg3 →
        held = true → (c.withSession (session.withHandshake handshake')).KeyHolder := by
      intro hstate hheld
      obtain ⟨hst, session', hand, hs, hhand, hdone⟩ := h hheld
      cases hsession.symm.trans hs
      cases hhandshake.symm.trans hhand
      refine ⟨hst, _, handshake', rfl, rfl, ?_⟩
      rcases hstate with hstate | hstate
      · rwa [hstate]
      · exact .inr hstate
    cases hstep with
    | ignore => cases hactions; exact hsame (.inl rfl)
    | quiet => cases hactions; exact hsame (.inl rfl)
    | retransmit => cases hactions; exact fun hheld => (hsame (.inl rfl) hheld).congr rfl (h hheld).state
    | message1 => cases hactions; exact fun hheld => (hsame (.inr rfl) hheld).congr rfl (h hheld).state
    | groupMessage1 =>
      cases hactions
      intro hheld
      have hbefore : held = true := by simpa [keysAfter, isComplete] using hheld
      exact hsame (.inl rfl) hbefore
    | message3 bytes eapol frame ptk keyData gtk h3 =>
      obtain ⟨installs, rfl, hinstalls⟩ := handshakeActions_message3 hactions
      rw [andThen_snd, keysAfterAll_append]
      dsimp only [andThen_fst]
      split_ifs with hcomplete
      · intro _
        refine ⟨?_, session.withHandshake (handshake.afterMsg3 frame), handshake.afterMsg3 frame, ?_,
          rfl, .inl rfl⟩
        · rw [configured_state]
          unfold afterKeys
          split_ifs <;> simp
        · rw [configured_session]
          rfl
      · rcases hinstalls with ⟨-, rfl⟩ | ⟨hinstall, installed, rfl⟩
        · intro hheld
          have hbefore : held = true := by simpa [keysAfter] using hheld
          obtain ⟨hst, -⟩ := h hbefore
          exact ⟨hst, _, _, rfl, rfl, .inl rfl⟩
        · rw [hinstall] at hcomplete
          simp [FourWay.completion, isComplete] at hcomplete

theorem held_of_saeDriven {event : SaeEvent} (hd : SaeDriven c event r)
    (hheld : keysAfterAll held r.2 = true) : held = true := by
  cases hd with
  | off => exact hheld
  | call target session provider q r htarget hsession hauth hq hm =>
    obtain ⟨p', x⟩ := q
    cases hm with
    | wait => exact hheld
    | send => exact hheld
    | noBody => simp at hheld
    | fail => simp at hheld
    | done => simp at hheld

theorem not_held (h : held = true → c.KeyHolder)
    (hst : c.state ≠ .configuring ∧ c.state ≠ .connected) : held = false := by
  by_contra hheld
  exact (h (by simpa using hheld)).state.elim hst.1 hst.2

theorem keyHolder_keyStart {pmk : Pmk} (hk : KeyStart c draws pmk r) :
    keysAfterAll held r.2 = false := by
  cases hk with
  | noNonce => simp
  | start => simp [keysAfter]

theorem keyHolder_dot1xDriven {frame : Option Bytes} (h : held = true → c.KeyHolder)
    (hd : Dot1xDriven c draws frame r) : keysAfterAll held r.2 = true → r.1.KeyHolder := by
  cases hd with
  | off => exact h
  | call target session provider q r htarget hsession hauth hq hm =>
    obtain ⟨p', x⟩ := q
    have hstill : held = true →
        (c.withSession (session.withAuth (.postAssoc p'))).KeyHolder := by
      intro hheld
      obtain ⟨hst, session', handshake, hs, hhand, hdone⟩ := h hheld
      cases hsession.symm.trans hs
      exact ⟨hst, _, handshake, rfl, hhand, hdone⟩
    cases hm with
    | send => exact hstill
    | wait => exact hstill
    | fail => simp
    | done pmk r hk => simp [keyHolder_keyStart hk]

theorem keyHolder_planned {bss : Bss} {roaming : Bool} (h : held = true → c.KeyHolder)
    (hp : Planned c draws bss roaming r) : keysAfterAll held r.2 = true → r.1.KeyHolder := by
  cases hp with
  | refused => simp
  | enterprise => simp
  | unstaged => simp
  | stay => exact h
  | prompt =>
    intro hheld
    have hbefore : held = true := by simpa [Connection.prompt, keysAfter] using hheld
    exact (h hbefore).congr rfl (h hbefore).state
  | sae credential choice provider q hchosen hstage hroaming hd =>
    intro hheld
    have hnone : keysAfterAll false q.2 = true := by simpa [keysAfter] using hheld
    exact nomatch held_of_saeDriven hd hnone
  | associate => simp

/-- **Every poll keeps the handshake of the keys**, or ends what they are for. -/
theorem keyHolder_move {input : Input} (h : held = true → c.KeyHolder) (hm : Move c draws input r) :
    keysAfterAll held r.2 = true → r.1.KeyHolder := by
  cases hm with
  | ignore => exact h
  | connect ssid => simp
  | autoconnect => simp
  | secret value target => exact fun hheld => (h hheld).congr rfl (h hheld).state
  | answer value target bss r htarget hpending hplanned =>
    refine keyHolder_planned (fun hheld => ?_) hplanned
    exact (h hheld).congr rfl (h hheld).state
  | disconnect => simp [goIdle, keysAfter]
  | noNetwork => simp
  | selected scan target bssid bss r hst hselection hfind hplanned =>
    refine keyHolder_planned (fun hheld => ?_) hplanned
    exact (h hheld).congr rfl (h hheld).state
  | surveyed scan session target hst hsession =>
    intro hheld
    obtain ⟨hst, session', handshake, hs, hhand, hdone⟩ := h hheld
    cases hsession.symm.trans hs
    exact ⟨hst, _, handshake, rfl, hhand, hdone⟩
  | roam scan session target better bss r hst hsession htarget hroam hfind hplanned =>
    exact keyHolder_planned h hplanned
  | eapolKey frame eapol r hl hparse htype hm => exact keyHolder_handshakeMove h hm
  | eapolEap frame eapol r hl hparse htype hd => exact keyHolder_dot1xDriven h hd
  | lease event =>
    intro hheld
    cases event with
    | acquired lease =>
      have hbefore : held = true := by simpa [onLease, keysAfter] using hheld
      obtain ⟨hstate, hsession, -⟩ := saveProfile_frame { (c.enter .connected).1 with attempts := 0 }
      exact (h hbefore).congr (hsession.trans (by simp)) (.inr (hstate.trans (by simp)))
    | lost reason =>
      by_cases hst : c.state = .connected
      · have hbefore : held = true := by simpa [onLease, hst, keysAfter] using hheld
        exact (h hbefore).congr (by simp [onLease, hst]) (.inl (by simp [onLease, hst]))
      · rw [onLease_lost hst] at hheld ⊢
        exact h hheld
    | failed =>
      change keysAfterAll held (c.fail .dhcp).2 = true at hheld
      simp at hheld
  | fetch => exact h
  | linkFailed => simp
  | joinedOpen bssid session hst hsession hauth => simp [not_held h (by simp [hst])]
  | joinedReady bssid session pmk r hst hsession hauth hk => simp [keyHolder_keyStart hk]
  | joinedDot1x bssid session provider r hst hsession hauth hd =>
    intro hheld
    have hnone : keysAfterAll false r.2 = true := by simpa [keysAfter] using hheld
    have hr := keyHolder_dot1xDriven (fun hf => by cases hf) hd hnone
    exact hr
  | joinedUnstaged => simp
  | saeFrame frame body r hst hbody hd =>
    intro hheld
    have hnot := held_of_saeDriven hd hheld
    rw [not_held h (by simp [hst])] at hnot
    cases hnot
  | saeTimeout r hst hd =>
    intro hheld
    have hnot := held_of_saeDriven hd hheld
    rw [not_held h (by simp [hst])] at hnot
    cases hnot
  | handshakeRetry r hl hm => exact keyHolder_handshakeMove h hm
  | timedOut id => simp
  | rescan => simp

/-- **As long as the keys of a handshake are held, so is the handshake.** -/
theorem keyHolder_of_holdsKeys (device : Device) (profiles : List Profile) (calls : List (Call S))
    (hkeys : holdsKeys (Machine.log step (new device profiles : Connection S) calls) = true) :
    (Machine.exec step (new device profiles) calls : Connection S).KeyHolder := by
  refine Machine.run_induction (m := step)
    (J := fun past c => holdsKeys past = true → c.KeyHolder) (G := fun _ _ => True)
    (fun h => nomatch h) (fun past c call hpast _ => ?_) calls (fun _ _ _ _ => trivial) hkeys
  rw [holdsKeys_concat]
  cases call with
  | poll draws input =>
    change keysAfterAll _ ((c.poll draws input).getD (c, [])).2 = true →
      ((c.poll draws input).getD (c, [])).1.KeyHolder
    cases hpoll : c.poll draws input with
    | none => exact hpast
    | some r => exact keyHolder_move hpast (poll_move hpoll)
  | insertProfile profile => exact fun hheld => (hpast hheld).congr rfl (hpast hheld).state
  | forgetProfile ssid => exact fun hheld => (hpast hheld).congr rfl (hpast hheld).state

end Connection

/-! ## What is answered -/

/-- A retransmitted message 3, or a group message 1, that a handshake takes. -/
def FourWay.Refresh (P : Primitives) (h : FourWay) (bytes : Bytes) : Prop :=
  ∃ eapol frame ptk keyData gtk, FourWay.Message3 P h bytes eapol frame ptk keyData gtk ∨
    FourWay.GroupMessage1 P h bytes eapol frame ptk keyData gtk

namespace Connection

variable {c : Connection S} {session : Session S} {handshake : FourWay} {draws : Draws S}
  {bytes : Bytes}

theorem poll_eapolKey {eapol : Eapol} {frame : KeyFrame} (hl : c.Listening)
    (hsession : c.session = some session) (hhandshake : session.handshake = some handshake)
    (hin : FourWay.Incoming handshake bytes eapol frame) :
    c.poll draws (.eapol bytes) =
      (c.withSession (session.withHandshake (handshake.poll S.prim (.frame bytes)).1)).onHandshakeActions
        (handshake.poll S.prim (.frame bytes)).2 := by
  have hlisten : ¬ (c.state ≠ .handshaking ∧ c.state ≠ .connected) := fun hno =>
    hl.elim hno.1 hno.2
  change c.onEapol draws bytes = _
  unfold onEapol
  rw [if_neg hlisten, hin.header]
  simp only [hin.isKey, driveHandshake, hsession, hhandshake]

/-- An EAPOL frame is answered with another. -/
def Replies (c : Connection S) (draws : Draws S) (bytes : Bytes) : Prop :=
  ∃ r reply, c.poll draws (.eapol bytes) = some r ∧ .sendEapol reply ∈ r.2

theorem not_replies_of_configuring (hst : c.state = .configuring) : ¬ c.Replies draws bytes := by
  rintro ⟨r, reply, hpoll, hmem⟩
  have hignored : c.poll draws (.eapol bytes) = some (c, []) := by
    change c.onEapol draws bytes = _
    simp [onEapol, hst]
  rw [hignored] at hpoll
  cases hpoll
  cases hmem

/-- Every list of actions a message 3 is answered with can be performed on a secured link. -/
theorem handshakeActions_completion (hsession : c.session = some session)
    (hrsn : session.choice.rsn.isSome) (install : Bool) (keys : Keys) :
    ∃ installs, c.handshakeActions (FourWay.completion install keys) = some (c, installs) := by
  cases install with
  | false => exact ⟨[], rfl⟩
  | true =>
    obtain ⟨rsn, hrsn⟩ := Option.isSome_iff_exists.mp hrsn
    simp [FourWay.completion, handshakeActions, handshakeAction, pairwiseInstall, hsession, hrsn,
      tryThen]

theorem replies_of_refresh (hst : c.state = .connected) (hsession : c.session = some session)
    (hhandshake : session.handshake = some handshake) (hrsn : session.choice.rsn.isSome)
    (h : handshake.Refresh S.prim bytes) : c.Replies draws bytes := by
  obtain ⟨eapol, frame, ptk, keyData, gtk, h3 | hg⟩ := h
  · unfold Replies
    rw [poll_eapolKey (.inr hst) hsession hhandshake h3.toIncoming, h3.poll_eq]
    obtain ⟨installs, hinstalls⟩ := handshakeActions_completion
      (c := (c.withSession (session.withHandshake (handshake.afterMsg3 frame))).disarm.1)
      rfl hrsn
      (handshake.state = .awaitingMsg3) { ptk, gtk }
    simp only [onHandshakeActions, List.cons_append, List.nil_append, handshakeActions,
      handshakeAction, Option.bind_some, tryThen, hinstalls, Option.map_some]
    exact ⟨_, _, rfl, List.mem_append_left _ List.mem_cons_self⟩
  · unfold Replies
    rw [poll_eapolKey (.inr hst) hsession hhandshake hg.toIncoming, hg.poll_eq]
    exact ⟨_, _, rfl, List.mem_append_left _ List.mem_cons_self⟩

/-- The PTK of the sample passphrase and the sample ANonce. -/
def samplePtk : Ptk :=
  Ptk.split (prfSha1 .sample (derivePmk .sample "password" [110]).toList ptkLabel
    ((Octets.zero 6).toList ++ (Octets.zero 6).toList ++ (Octets.zero 32).toList ++
      Sample.anonce.toList) ptkLen).toList

/-- Key data with a short RSN element. -/
def sampleKeyData : Bytes :=
  eidRsn :: 2 :: ([1, 0] ++ (Authenticator.gtkKdeBytes 1 Sample.gtk.key ++ [0xdd, 0, 0, 0]))

/-- The message 3 of the sample network. -/
def sampleMsg3 (counter : UInt64) : Bytes :=
  Authenticator.msg3 .sample .hmacSha1 counter Sample.anonce samplePtk.kck (sampleIcv ++ sampleKeyData)

/-- The association of the sample network, and its handshake. -/
def sampleHandshake : List (Call .sample) :=
  sampleAssociation ++
    [.poll .sample (.eapol (Authenticator.msg1 .hmacSha1 1 Sample.anonce)),
      .poll .sample (.eapol (sampleMsg3 2))]

/-- The handshake of the sample network once it has completed. -/
def sampleEstablished (h : FourWay) : Bool :=
  h.state = .established && h.descriptorVersion = .hmacSha1 && h.ptk = some samplePtk &&
    h.anonce = Sample.anonce && h.rxCounter = some 2 && h.config.beaconRsnIe = [eidRsn, 2, 1, 0]

theorem sampleMsg3_refresh {c : Connection .sample} {session : Session .sample}
    {handshake : FourWay} (hdone : (c.session.bind Session.handshake).all sampleEstablished = true)
    (hsession : c.session = some session) (hhandshake : session.handshake = some handshake) :
    handshake.Refresh Primitives.sample (sampleMsg3 3) := by
  rw [hsession, Option.bind_some, hhandshake, Option.all_some] at hdone
  simp only [sampleEstablished, Bool.and_eq_true, decide_eq_true_eq] at hdone
  obtain ⟨⟨⟨⟨⟨hst, hver⟩, hptk⟩, hnonce⟩, hcounter⟩, hrsn⟩ := hdone
  refine ⟨_, _, samplePtk, sampleKeyData, Sample.gtk, .inl (Authenticator.msg3_answered (.inr hst)
    (by decide) hver ?_ hptk hnonce (Primitives.sample_unwrap _ _ (by decide) (by decide)) ?_ ?_)⟩
  · rw [hcounter]
    rintro _ ⟨⟩
    decide
  · rw [hrsn]
    exact Authenticator.rsnElement_cons 2 [1, 0] _ rfl (by decide)
  · rw [sampleKeyData, Authenticator.gtkKde_skip 2 [1, 0] _ rfl (by decide),
      Authenticator.gtkKde_cons 1 Sample.gtk.key _ (.inl rfl)]
    rfl

end Connection

end Caw
