import Caw.Core.Late

/-!
# What address configuration sees of the core

An address is asked for on the way into `configuring`, and a lease is held from `connected` on and
throughout a roam.

* `Connection.roams`, `Connection.NeedsLease`, `Connection.Grounded`;
* `Connection.LeaseStep`: what one poll does to address configuration;
* **`leaseStep_move`**: every poll does that, the acquisition of a lease aside;
* `grounded_move`, `started_move`: what every poll does of it;
* `onLease_acquired`, `onLease_lost`: the two outcomes of the exchange.
-/

set_option autoImplicit false

namespace Caw

open Caw.Core

variable {S : Platform}

namespace Connection

variable (c : Connection S)

/-- The session was begun as a roam. -/
def roams : Bool := c.session.any fun s => s.choice.roaming

/-- The states in which a lease is to be held: up, or moving to another BSS while up. -/
def NeedsLease : Prop :=
  c.state = .connected ∨ ((c.state = .associating ∨ c.state = .handshaking) ∧ c.roams = true)

/-- No roam authenticates with a second access point. -/
def Grounded : Prop := c.state = .authenticating → c.roams = false

/-- What one poll does to address configuration. -/
structure LeaseStep (r : Connection S × List Action) : Prop where
  configuring : r.1.state = .configuring → .startDhcp ∈ decisions r.2 ∨ c.state = .configuring
  needsLease : r.1.NeedsLease → c.NeedsLease
  grounded : r.1.Grounded
  started : .startDhcp ∈ decisions r.2 → r.1.state = .configuring
  failed : ∀ failure, .failed failure ∈ decisions r.2 → r.1.state = .idle

variable {c} {draws : Draws S} {r : Connection S × List Action}

theorem leaseStep_same (hgrounded : c.Grounded) (hdecisions : decisions r.2 = [])
    (hstate : r.1.state = c.state) (hroams : r.1.roams = c.roams) : c.LeaseStep r where
  configuring h := .inr (hstate ▸ h)
  needsLease h := by
    unfold NeedsLease at h ⊢
    rwa [hstate, hroams] at h
  grounded h := hroams.trans (hgrounded (hstate ▸ h))
  started h := by simp [hdecisions] at h
  failed failure h := by simp [hdecisions] at h

theorem leaseStep_leaves (hstate : r.1.state = .idle ∨ r.1.state = .scanning ∨
      r.1.state = .reconnecting)
    (hstarted : .startDhcp ∉ decisions r.2)
    (hfailed : ∀ failure, .failed failure ∈ decisions r.2 → r.1.state = .idle) : c.LeaseStep r where
  configuring h := by rcases hstate with hst | hst | hst <;> simp [hst] at h
  needsLease h := by
    rcases hstate with hst | hst | hst <;> simp [NeedsLease, hst] at h
  grounded h := by rcases hstate with hst | hst | hst <;> simp [hst] at h
  started h := absurd h hstarted
  failed := hfailed

theorem leaseStep_fail (c' : Connection S) (failure : Failure) : c.LeaseStep (c'.fail failure) := by
  refine leaseStep_leaves ?_ ?_ ?_
  · rw [fail_fst]
    split_ifs <;> simp
  · rw [decisions_fail]
    split_ifs <;> simp
  · intro f
    rw [decisions_fail, fail_fst]
    split_ifs <;> simp

theorem leaseStep_up (hstate : r.1.state = .connected) (hdecisions : decisions r.2 = [])
    (hneeds : c.NeedsLease) : c.LeaseStep r :=
  ⟨by simp [hstate], fun _ => hneeds, by simp [Grounded, hstate], by simp [hdecisions],
    by simp [hdecisions]⟩

theorem leaseStep_asks (hstate : r.1.state = .configuring)
    (hdecisions : decisions r.2 = [.startDhcp]) : c.LeaseStep r :=
  ⟨by simp [hdecisions], by simp [NeedsLease, hstate], by simp [Grounded, hstate], fun _ => hstate,
    by simp [hdecisions]⟩

/-- The keyed link goes up as it is after a roam, and asks for an address otherwise. -/
theorem leaseStep_configured {c' : Connection S} (hneeds : c'.roams = true → c.NeedsLease) :
    c.LeaseStep c'.configured := by
  have hstate : c'.configured.1.state = if c'.roams then .connected else .configuring :=
    configured_state c'
  have hdecisions : decisions c'.configured.2 = if c'.roams then [] else [.startDhcp] :=
    decisions_configured c'
  cases hroams : c'.roams with
  | true =>
    rw [hroams] at hstate hdecisions
    exact leaseStep_up hstate hdecisions (hneeds hroams)
  | false =>
    rw [hroams] at hstate hdecisions
    exact leaseStep_asks hstate hdecisions

theorem leaseStep_associateWith {c' : Connection S} {target : Target} {session : Session S}
    (hneeds : session.choice.roaming = true → c.NeedsLease) :
    c.LeaseStep (c'.associateWith target session) := by
  refine ⟨by simp, fun h => hneeds ?_, by simp [Grounded], by simp, by simp⟩
  simpa [NeedsLease, roams] using h

theorem leaseStep_saeDriven {c' : Connection S} {event : SaeEvent}
    (hst : c'.state = .authenticating) (hgrounded : c'.Grounded) (hd : SaeDriven c' event r) :
    c.LeaseStep r := by
  have hquiet : ∀ q : Connection S × List Action, q.1.state = .authenticating →
      q.1.roams = false → .startDhcp ∉ decisions q.2 → (∀ failure, .failed failure ∉ decisions q.2) →
      c.LeaseStep q := fun q hq hroams hstarted hfailed =>
    ⟨by simp [hq], by simp [NeedsLease, hq], fun _ => hroams, fun h => absurd h hstarted,
      fun failure h => absurd h (hfailed failure)⟩
  have hroams := hgrounded hst
  cases hd with
  | off => exact hquiet _ hst hroams (by simp) (by simp)
  | call target session provider q r htarget hsession hauth hq hm =>
    have hroaming : session.choice.roaming = false := by simpa [roams, hsession] using hroams
    obtain ⟨p', x⟩ := q
    cases hm with
    | wait => exact hquiet _ hst (by simpa [roams] using hroaming) (by simp) (by simp)
    | send => exact hquiet _ hst (by simpa [roams] using hroaming) (by simp) (by simp)
    | noBody => exact leaseStep_fail _ _
    | fail => exact leaseStep_fail _ _
    | done target' session' pmk htarget' hsession' =>
      cases hsession'
      refine leaseStep_associateWith fun h => ?_
      rw [keyed_choice, Session.withAuth_choice, hroaming] at h
      cases h

theorem leaseStep_keyStart {c' : Connection S} {pmk : Pmk} (hneeds : c'.roams = true → c.NeedsLease)
    (hk : KeyStart c' draws pmk r) : c.LeaseStep r := by
  cases hk with
  | noNonce => exact leaseStep_fail _ _
  | start session rsn snonce hsession hrsn hnonce =>
    refine ⟨by simp, fun h => hneeds ?_, by simp [Grounded], by simp, by simp⟩
    simpa [NeedsLease, roams, hsession] using h

theorem roams_withSession {session session' : Session S} (hsession : c.session = some session)
    (hchoice : session'.choice.roaming = session.choice.roaming) :
    (c.withSession session').roams = c.roams := by
  simp [roams, hsession, hchoice]

theorem Listening.needsLease (h : c.Listening) (hroams : c.roams = true) : c.NeedsLease := by
  rcases h with h | h
  · exact .inr ⟨.inr h, hroams⟩
  · exact .inl h

theorem Listening.grounded (h : c.Listening) : c.Grounded := by
  rcases h with h | h <;> simp [Grounded, h]

theorem leaseStep_dot1xDriven {frame : Option Bytes} (hl : c.Listening)
    (hd : Dot1xDriven c draws frame r) : c.LeaseStep r := by
  cases hd with
  | off => exact leaseStep_same hl.grounded rfl rfl rfl
  | call target session provider q r htarget hsession hauth hq hm =>
    have hroams : (c.withSession (session.withAuth (.postAssoc q.1))).roams = c.roams :=
      roams_withSession hsession rfl
    obtain ⟨p', x⟩ := q
    cases hm with
    | send => exact leaseStep_same hl.grounded rfl rfl hroams
    | wait => exact leaseStep_same hl.grounded rfl rfl hroams
    | fail => exact leaseStep_fail _ _
    | done pmk r hk =>
      refine leaseStep_keyStart (fun h => hl.needsLease ?_) hk
      rw [← hroams]
      exact h

theorem LeaseStep.append {l : List Action} (h : c.LeaseStep r)
    (hactions : decisions l = []) : c.LeaseStep (r.1, l ++ r.2) := by
  obtain ⟨hconfiguring, hneeds, hgrounded, hstarted, hfailed⟩ := h
  constructor <;> simpa only [decisions_append, hactions, List.nil_append]

theorem LeaseStep.of_entered {c' : Connection S} (h : c'.LeaseStep r)
    (hstate : c'.state ≠ .configuring) (hneeds : c'.NeedsLease → c.NeedsLease) : c.LeaseStep r where
  configuring hr := .inl ((h.configuring hr).resolve_right hstate)
  needsLease hr := hneeds (h.needsLease hr)
  grounded := h.grounded
  started := h.started
  failed := h.failed

theorem leaseStep_handshakeMove {input : FourWay.Input} (hl : c.Listening)
    (hm : HandshakeMove c input r) : c.LeaseStep r := by
  cases hm with
  | off => exact leaseStep_same hl.grounded rfl rfl rfl
  | fail => exact leaseStep_fail _ _
  | actions session handshake actions q hsession hhandshake hpoll hactions =>
    obtain ⟨armed, hfst⟩ := handshakeActions_fst hactions
    have hroams : q.1.roams = c.roams := by
      rw [hfst]
      exact roams_withSession hsession rfl
    refine LeaseStep.append ?_ (decisions_handshakeActions hactions)
    split_ifs
    · refine leaseStep_configured fun h => hl.needsLease ?_
      rw [← hroams]
      exact h
    · refine leaseStep_same hl.grounded rfl ?_ hroams
      rw [hfst]
      rfl

theorem leaseStep_planned {c' : Connection S} {bss : Bss} {roaming : Bool}
    (hgrounded : c'.Grounded) (hstate : c'.state = c.state) (hroams : c'.roams = c.roams)
    (hroam : roaming = true → c.NeedsLease) (hp : Planned c' draws bss roaming r) :
    c.LeaseStep r := by
  have hgrounded' : c.Grounded := fun h => hroams ▸ hgrounded (hstate.trans h)
  cases hp with
  | refused => exact leaseStep_fail _ _
  | enterprise => exact leaseStep_fail _ _
  | unstaged => exact leaseStep_fail _ _
  | stay => exact leaseStep_same hgrounded' rfl hstate hroams
  | prompt =>
    refine leaseStep_same hgrounded' (by simp [Connection.prompt]) hstate hroams
  | sae credential choice provider q hchosen hstage hroaming hd =>
    have hentered : ((c'.withSession (newSession choice (.preAssoc provider))).enter
        .authenticating).1.Grounded := fun _ => by simpa [roams] using hroaming
    have hstep := leaseStep_saeDriven (c := c) (by simp) hentered hd
    exact (hstep.append (l := [.notify .authenticating]) (by simp)).append
      (decisions_leaving _ _)
  | associate credential choice auth target hchosen hstage hpre htarget =>
    refine leaseStep_associateWith fun h => hroam ?_
    obtain ⟨rsn, -, hchoice, -⟩ := evaluate_eq_ok hchosen.evaluated
    rw [newSession_choice, hchoice] at h
    exact h

theorem onLease_acquired (lease : Dhcp.Lease) :
    (c.onLease (.acquired lease)).1.state = .connected ∧
      decisions (c.onLease (.acquired lease)).2 = [] := by
  obtain ⟨hstate, -⟩ := saveProfile_frame { (c.enter .connected).1 with attempts := 0 }
  refine ⟨hstate.trans (by simp), ?_⟩
  simp [onLease]

theorem onLease_lost_connected (h : c.state = .connected) (reason : Dhcp.Reason) :
    (c.onLease (.lost reason)).1.state = .configuring ∧
      decisions (c.onLease (.lost reason)).2 = [.startDhcp] := by
  simp [onLease, h]

/-- **Every poll is a step of address configuration**, the acquisition of a lease aside. -/
theorem leaseStep_move {input : Input} (hgrounded : c.Grounded)
    (hlate : ∀ lease, input ≠ .lease (.acquired lease)) (hm : Move c draws input r) :
    c.LeaseStep r := by
  cases hm with
  | ignore => exact leaseStep_same hgrounded rfl rfl rfl
  | connect ssid =>
    exact leaseStep_leaves (by simp) (by simp; split_ifs <;> simp) (by simp; split_ifs <;> simp)
  | autoconnect => exact leaseStep_leaves (by simp) (by simp) (by simp)
  | secret value target => exact leaseStep_same hgrounded rfl rfl rfl
  | answer value target bss r htarget hpending hplanned =>
    refine leaseStep_planned ?_ ?_ ?_ ?_ hplanned
    · exact hgrounded
    · rfl
    · rfl
    · exact fun h => nomatch h
  | disconnect => exact leaseStep_leaves (by simp) (by simp) (by simp)
  | noNetwork => exact leaseStep_fail _ _
  | selected scan target bssid bss r hst hselection hfind hplanned =>
    refine leaseStep_planned ?_ ?_ ?_ ?_ hplanned
    · exact hgrounded
    · rfl
    · rfl
    · exact fun h => nomatch h
  | surveyed scan session target hst hsession =>
    exact leaseStep_same hgrounded rfl rfl (roams_withSession hsession rfl)
  | roam scan session target better bss r hst hsession htarget hroam hfind hplanned =>
    exact leaseStep_planned hgrounded rfl rfl (fun _ => .inl hst) hplanned
  | eapolKey frame eapol r hl hparse htype hm => exact leaseStep_handshakeMove hl hm
  | eapolEap frame eapol r hl hparse htype hd => exact leaseStep_dot1xDriven hl hd
  | lease event =>
    cases event with
    | acquired lease => exact absurd rfl (hlate lease)
    | lost reason =>
      by_cases hst : c.state = .connected
      · obtain ⟨hstate, hdecisions⟩ := onLease_lost_connected hst reason
        exact leaseStep_asks hstate hdecisions
      · rw [onLease_lost hst]
        exact leaseStep_same hgrounded rfl rfl rfl
    | failed => exact leaseStep_fail _ _
  | fetch => exact leaseStep_same hgrounded rfl rfl rfl
  | linkFailed => exact leaseStep_fail _ _
  | joinedOpen bssid session hst hsession hauth =>
    have hroams : (c.withSession (session.withAuth .open)).roams = c.roams :=
      roams_withSession hsession rfl
    exact leaseStep_configured fun h => .inr ⟨.inl hst, hroams ▸ h⟩
  | joinedReady bssid session pmk r hst hsession hauth hk =>
    have hroams : (c.withSession (session.withAuth .running)).roams = c.roams :=
      roams_withSession hsession rfl
    exact leaseStep_keyStart (fun h => .inr ⟨.inl hst, hroams ▸ h⟩) hk
  | joinedDot1x bssid session provider r hst hsession hauth hd =>
    have hentered : (c.enter .handshaking).1.state = .handshaking := by simp
    have hstep := leaseStep_dot1xDriven (.inl hentered) hd
    refine ((hstep.of_entered (by simp) ?_).append (l := [.notify .handshaking])
      (by simp)).append (decisions_leaving c _)
    simp only [NeedsLease, enter_fst, roams, hst]
    simp
  | joinedUnstaged => exact leaseStep_fail _ _
  | saeFrame frame body r hst hbody hd => exact leaseStep_saeDriven hst hgrounded hd
  | saeTimeout r hst hd => exact leaseStep_saeDriven hst hgrounded hd
  | handshakeRetry r hl hm => exact leaseStep_handshakeMove hl hm
  | timedOut => exact leaseStep_fail _ _
  | rescan => exact leaseStep_leaves (by simp) (by simp) (by simp)

theorem grounded_move {input : Input} (hgrounded : c.Grounded) (hm : Move c draws input r) :
    r.1.Grounded := by
  by_cases hlease : ∃ lease, input = .lease (.acquired lease)
  · obtain ⟨lease, rfl⟩ := hlease
    cases hm with
    | ignore => exact hgrounded
    | lease =>
      intro hst
      cases (onLease_acquired lease).1.symm.trans hst
  · exact (leaseStep_move hgrounded (fun lease h => hlease ⟨lease, h⟩) hm).grounded

theorem started_move {input : Input} (hgrounded : c.Grounded) (hm : Move c draws input r)
    (h : .startDhcp ∈ r.2) : r.1.state = .configuring := by
  rw [← mem_decisions rfl] at h
  by_cases hlease : ∃ lease, input = .lease (.acquired lease)
  · obtain ⟨lease, rfl⟩ := hlease
    cases hm with
    | ignore => cases h
    | lease =>
      rw [(onLease_acquired lease).2] at h
      cases h
  · exact (leaseStep_move hgrounded (fun lease h => hlease ⟨lease, h⟩) hm).started h

end Connection

end Caw
