import Caw.Core.Floor

/-!
# What becomes of a session

A session is replaced as a whole where a BSS is planned for, and where its SAE exchange ends; any other
poll leaves it, ends it, or changes one thing about it.

* `Connection.Advance`: the changes there are;
* `Connection.Advances`: a poll that asks for nothing and changes the session by one of them;
* **`Move.advances`**: every poll that plans for nothing and runs no SAE is such a poll.
-/

set_option autoImplicit false

namespace Caw

open Caw.Core

namespace Connection

variable {S : Platform} {c c' : Connection S} {draws : Draws S} {r : Connection S × List Action}

/-- The session once its handshake has been started with a PMK. -/
def handshaking (c : Connection S) (session : Session S) (n : Negotiated) (pmk : Pmk)
    (snonce : Octets 32) : Session S :=
  (session.withAuth .running).withHandshake
    (.withSnonce pmk (c.handshakeConfig (session.withAuth .running) n) snonce)

variable (c) in
/-- **What can become of a session** in one poll. -/
inductive Advance : Session S → Session S → Prop
  | same (session) : Advance session session
  | heard (session signalDbm) : Advance session (session.withSignal signalDbm)
  | joined (session) : (session.auth = .open ∨ ∃ o, session.auth = .offloaded o) →
      Advance session (session.withAuth .open)
  | ready (session pmk n snonce) : session.auth = .ready pmk → session.choice.rsn = some n →
      Advance session (c.handshaking session n pmk snonce)
  | asked (session provider provider') : session.auth = .postAssoc provider →
      Advance session (session.withAuth (.postAssoc provider'))
  | derived (session provider pmk n snonce) : session.auth = .postAssoc provider →
      session.choice.rsn = some n → Advance session (c.handshaking session n pmk snonce)
  | polled (session handshake input) : session.handshake = some handshake →
      Advance session (session.withHandshake (handshake.poll S.prim input).1)

variable (c) in
/-- The result asks for nothing, and the session is gone or has advanced. -/
structure Advances (r : Connection S × List Action) : Prop where
  requests : requests r.2 = []
  session : ∀ session', r.1.session = some session' →
    ∃ session, c.session = some session ∧ c.Advance session session'

theorem advances_of_eq (hrequests : Connection.requests r.2 = []) (h : r.1.session = c.session) :
    c.Advances r :=
  ⟨hrequests, fun session' hs => ⟨session', h ▸ hs, .same session'⟩⟩

theorem advances_of_none (hrequests : Connection.requests r.2 = []) (h : r.1.session = none) :
    c.Advances r :=
  ⟨hrequests, fun _ hs => nomatch h.symm.trans hs⟩

theorem advances_to {session session' : Session S} (hrequests : Connection.requests r.2 = [])
    (hsession : c.session = some session) (h : r.1.session = some session')
    (hadvance : c.Advance session session') : c.Advances r := by
  refine ⟨hrequests, fun s hs => ⟨session, hsession, ?_⟩⟩
  rw [h] at hs
  cases hs
  exact hadvance

theorem fail_session (c : Connection S) (failure : Failure) : (c.fail failure).1.session = none := by
  rw [fail_fst]
  split_ifs <;> rfl

theorem advances_fail (c' : Connection S) (failure : Failure) : c.Advances (c'.fail failure) :=
  advances_of_none (by simp) (fail_session c' failure)

theorem advances_keyStart {session : Session S} {pmk : Pmk} (hk : KeyStart c' draws pmk r)
    (hdevice : c'.device = c.device) (hsession' : c'.session = some (session.withAuth .running))
    (hsession : c.session = some session) (hready : ∀ n snonce, session.choice.rsn = some n →
      c.Advance session (c.handshaking session n pmk snonce)) : c.Advances r := by
  cases hk with
  | noNonce e hnonce => exact advances_fail _ _
  | start s n snonce hs hn hnonce =>
    rw [hsession'] at hs
    cases hs
    refine advances_to (by simp) hsession ?_ (hready n snonce hn)
    rw [enter_fst, handshaking, handshakeConfig, handshakeConfig, hdevice]
    rfl

theorem advances_dot1xDriven {frame : Option Bytes} (hdevice : c'.device = c.device)
    (hsession' : c'.session = c.session) (hd : Dot1xDriven c' draws frame r) : c.Advances r := by
  cases hd with
  | off hoff => exact advances_of_eq rfl hsession'
  | call target session provider q r htarget hsession hauth hq hm =>
    rw [hsession'] at hsession
    obtain ⟨provider', answer⟩ := q
    cases hm with
    | send frame => exact advances_to rfl hsession rfl (.asked session provider provider' hauth)
    | wait => exact advances_to rfl hsession rfl (.asked session provider provider' hauth)
    | done pmk r hk =>
      exact advances_keyStart hk hdevice (show _ = some (session.withAuth .running) from rfl) hsession
        fun n snonce hn => .derived session provider pmk n snonce hauth hn
    | fail e => exact advances_fail _ _

theorem advances_handshakeMove {input : FourWay.Input} (hm : HandshakeMove c input r) :
    c.Advances r := by
  have hrequests := requests_handshakeMove hm
  cases hm with
  | off hoff => exact advances_of_eq rfl rfl
  | fail session handshake e hsession hhandshake hpoll => exact advances_fail _ _
  | actions session handshake actions q hsession hhandshake hpoll hactions =>
    obtain ⟨armed, hfst⟩ := handshakeActions_fst hactions
    refine advances_to hrequests hsession ?_ (.polled session handshake input hhandshake)
    rw [andThen_fst]
    split_ifs
    · rw [configured_session, hfst]
      rfl
    · rw [hfst]
      rfl

theorem advances_onLease (event : LeaseEvent) : c.Advances (c.onLease event) := by
  refine ⟨requests_onLease c event, fun session' hs => ?_⟩
  cases event with
  | acquired lease =>
    obtain ⟨-, hsession, -⟩ := saveProfile_frame { (c.enter .connected).1 with attempts := 0 }
    have hsame : c.session = some session' := by
      rw [← hs]
      refine (hsession.trans ?_).symm
      rw [enter_fst]
    exact ⟨session', hsame, .same session'⟩
  | lost reason =>
    have hsame : c.session = some session' := by
      rw [← hs]
      unfold onLease
      split_ifs <;> simp
    exact ⟨session', hsame, .same session'⟩
  | failed => exact nomatch (fail_session c .dhcp).symm.trans hs

/-- An event for the SAE exchange that an input is: the body of an authentication frame, or a
timeout. -/
structure Input.IsSae (c : Connection S) (input : Input) (event : SaeEvent) : Prop where
  running : event ≠ .start
  frame : ∀ body, event = .frame body → ∃ frame,
    input = .wireless (.authenticate frame) ∧ c.authBody frame = some body

/-- **A poll that plans for nothing** advances the session, or runs its SAE exchange. -/
theorem Move.advances {input : Input} (hplans : c.plans input = none) (hm : Move c draws input r) :
    c.Advances r ∨ ∃ event, Input.IsSae c input event ∧ SaeDriven c event r := by
  cases hm with
  | ignore => exact .inl (advances_of_eq rfl rfl)
  | connect ssid =>
    refine .inl (advances_of_none ?_ (by simp))
    rw [andThen_snd, requests_append, requests_of_decisions (decisions_startScan _)]
    dsimp only
    split_ifs <;> rfl
  | autoconnect hidle =>
    exact .inl (advances_of_none (requests_of_decisions (decisions_startScan _)) (by simp))
  | secret value target => exact .inl (advances_of_eq rfl rfl)
  | answer value target bss r htarget hpending => simp [plans, htarget, hpending] at hplans
  | disconnect => exact .inl (advances_of_none (requests_of_decisions (by simp)) rfl)
  | noNetwork scan failure => exact .inl (advances_fail c failure)
  | selected scan target bssid bss r hst hselection hfind =>
    simp [plans, hst, hselection, hfind] at hplans
  | surveyed scan session target hst hsession =>
    exact .inl (advances_to rfl hsession rfl (.heard session _))
  | roam scan session target better bss r hst hsession htarget hroam hfind =>
    simp [plans, hst, hsession, htarget, hroam, hfind] at hplans
  | eapolKey frame eapol r hl hparse htype hm => exact .inl (advances_handshakeMove hm)
  | eapolEap frame eapol r hl hparse htype hd => exact .inl (advances_dot1xDriven rfl rfl hd)
  | lease event => exact .inl (advances_onLease event)
  | fetch => exact .inl (advances_of_eq rfl rfl)
  | linkFailed event failure => exact .inl (advances_fail c failure)
  | joinedOpen bssid session hst hsession hauth =>
    exact .inl (advances_to (requests_configured _) hsession (configured_session _)
      (.joined session hauth))
  | joinedReady bssid session pmk r hst hsession hauth hk =>
    exact .inl (advances_keyStart hk rfl rfl hsession fun n snonce hn =>
      .ready session pmk n snonce hauth hn)
  | joinedDot1x bssid session provider r hst hsession hauth hd =>
    obtain ⟨hrequests, hadvance⟩ : c.Advances r :=
      advances_dot1xDriven (by rw [enter_fst]) (by rw [enter_fst]) hd
    refine .inl ⟨?_, hadvance⟩
    rw [requests_append, requests_leaving, requests_cons, hrequests]
    rfl
  | joinedUnstaged => exact .inl (advances_fail c _)
  | saeFrame frame body r hst hbody hd =>
    exact .inr ⟨.frame body, ⟨by rintro ⟨⟩, by rintro _ ⟨⟩; exact ⟨frame, rfl, hbody⟩⟩, hd⟩
  | saeTimeout r hst hd => exact .inr ⟨.timeout, ⟨by rintro ⟨⟩, by rintro _ ⟨⟩⟩, hd⟩
  | handshakeRetry r hl hm => exact .inl (advances_handshakeMove hm)
  | timedOut id failure => exact .inl (advances_fail c failure)
  | rescan =>
    refine .inl (advances_of_eq (requests_of_decisions (decisions_startScan _)) ?_)
    rw [startScan_fst]

end Connection

end Caw
