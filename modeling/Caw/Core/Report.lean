import Caw.Core.Address

/-!
# What a poll reports

A connection comes to rest, and comes up, only with a notice of it; it gives up with nothing left to
ask; and a prompt it holds is one it has asked for.

* `Connection.Reports`: what the actions of a poll say of the state it ends in;
* `reports_fail`, `reports_planned`, `reports_handshakeMove`, …: the handlers;
* **`reports_move`**: every poll does;
* `notices`, `Announces`, **`announces_move`**: what notice is given of rest and of a connection.
-/

set_option autoImplicit false

namespace Caw

open Caw.Core

variable {S : Platform}

namespace Connection

/-- What the actions of a poll say of the state it ends in. -/
structure Reports (c : Connection S) (r : Connection S × List Action) : Prop where
  failed : ∀ failure, .failed failure ∈ r.2 → r.1.state = .idle ∧ r.1.pending = none
  idle : r.1.state = .idle →
    c.state = .idle ∨ .notify .idle ∈ r.2 ∨ ∃ failure, .failed failure ∈ r.2
  connected : r.1.state = .connected → c.state = .connected ∨ .notify .connected ∈ r.2
  asked : r.1.pending.isSome → c.pending.isSome ∨ ∃ prompt, .requestSecret prompt ∈ r.2

variable {c c' : Connection S} {draws : Draws S} {r : Connection S × List Action}

theorem reports_same (hdecisions : decisions r.2 = []) (hstate : r.1.state = c.state)
    (hpending : r.1.pending.isSome → c.pending.isSome) : c.Reports r where
  failed failure h := by
    rw [← mem_decisions rfl, hdecisions] at h
    cases h
  idle h := .inl (hstate ▸ h)
  connected h := .inl (hstate ▸ h)
  asked h := .inl (hpending h)

theorem reports_goes (hfailed : ∀ failure, .failed failure ∉ decisions r.2)
    (hstate : r.1.state ≠ .idle ∧ r.1.state ≠ .connected)
    (hpending : r.1.pending.isSome → c.pending.isSome) : c.Reports r where
  failed failure h := absurd ((mem_decisions rfl).mpr h) (hfailed failure)
  idle h := absurd h hstate.1
  connected h := absurd h hstate.2
  asked h := .inl (hpending h)

theorem reports_fail (c' : Connection S) (failure : Failure) : c.Reports (c'.fail failure) := by
  have hmem (f : Failure) : .failed f ∈ (c'.fail failure).2 ↔
      c'.retries failure = false ∧ f = failure := by
    rw [← mem_decisions rfl, decisions_fail]
    split_ifs with hretries <;> simp [hretries]
  refine ⟨fun f h => ?_, fun h => ?_, fun h => ?_, fun h => ?_⟩
  · simp [((hmem f).mp h).1]
  · rw [fail_fst] at h
    split_ifs at h with hretries
    · cases h
    · exact .inr (.inr ⟨failure, (hmem failure).mpr ⟨by simpa using hretries, rfl⟩⟩)
  · rw [fail_fst] at h
    split_ifs at h <;> cases h
  · rw [fail_fst] at h
    split_ifs at h <;> cases h

theorem reports_enter {state : State} (hpending : c'.pending.isSome → c.pending.isSome) :
    c.Reports (c'.enter state) := by
  refine ⟨fun failure h => ?_, fun h => .inr (.inl ?_), fun h => .inr ?_, fun h => .inl ?_⟩
  · rw [← mem_decisions rfl] at h
    simp at h
  · rw [enter_fst] at h
    cases h
    simp
  · rw [enter_fst] at h
    cases h
    simp
  · rw [enter_fst] at h
    exact hpending h

theorem Reports.append {l : List Action} (h : c.Reports r)
    (hactions : decisions l = []) : c.Reports (r.1, l ++ r.2) where
  failed failure hmem := by
    refine h.failed failure ((List.mem_append.mp hmem).resolve_left fun hmem => ?_)
    rw [← mem_decisions rfl, hactions] at hmem
    cases hmem
  idle hst := by
    rcases h.idle hst with hst | hst | ⟨failure, hst⟩
    · exact .inl hst
    · exact .inr (.inl (List.mem_append_right _ hst))
    · exact .inr (.inr ⟨failure, List.mem_append_right _ hst⟩)
  connected hst := (h.connected hst).imp_right (List.mem_append_right _)
  asked hst := (h.asked hst).imp_right fun ⟨prompt, hmem⟩ => ⟨prompt, List.mem_append_right _ hmem⟩

theorem Reports.of (h : c'.Reports r) (hidle : c'.state = .idle → c.state = .idle)
    (hconnected : c'.state = .connected → c.state = .connected)
    (hpending : c'.pending.isSome → c.pending.isSome) : c.Reports r where
  failed := h.failed
  idle hst := (h.idle hst).imp_left hidle
  connected hst := (h.connected hst).imp_left hconnected
  asked hst := (h.asked hst).imp_left hpending

theorem reports_configured (hpending : c'.pending.isSome → c.pending.isSome) :
    c.Reports c'.configured := by
  have hnotify : .notify c'.afterKeys ∈ c'.configured.2 := by
    unfold configured afterKeys
    split_ifs <;> simp
  refine ⟨fun failure h => ?_, fun h => ?_, fun h => .inr ?_, fun h => .inl ?_⟩
  · rw [← mem_decisions rfl, decisions_configured] at h
    split_ifs at h <;> simp at h
  · rw [configured_state, afterKeys] at h
    split_ifs at h
  · rw [configured_state] at h
    rwa [h] at hnotify
  · rw [configured_pending] at h
    exact hpending h

theorem reports_associateWith {target : Target} {session : Session S}
    (hpending : c'.pending.isSome → c.pending.isSome) :
    c.Reports (c'.associateWith target session) :=
  reports_goes (by simp) (by simp) (by simpa using hpending)

theorem reports_startScan (hpending : c'.pending.isSome → c.pending.isSome) :
    c.Reports c'.startScan :=
  reports_goes (by simp) (by simp) (by simpa using hpending)

/-! ## Handlers -/

theorem reports_saeDriven {event : SaeEvent} (hd : SaeDriven c event r) : c.Reports r := by
  cases hd with
  | off => exact reports_same rfl rfl id
  | call target session provider q r htarget hsession hauth hq hm =>
    obtain ⟨p', x⟩ := q
    cases hm with
    | wait => exact reports_same rfl rfl id
    | send => exact ⟨by simp, .inl, .inl, .inl⟩
    | noBody => exact reports_fail _ _
    | fail => exact reports_fail _ _
    | done => exact reports_associateWith id

theorem reports_keyStart {pmk : Pmk} (hk : KeyStart c draws pmk r) : c.Reports r := by
  cases hk with
  | noNonce => exact reports_fail _ _
  | start => exact reports_enter id

theorem reports_dot1xDriven {frame : Option Bytes} (hd : Dot1xDriven c draws frame r) :
    c.Reports r := by
  cases hd with
  | off => exact reports_same rfl rfl id
  | call target session provider q r htarget hsession hauth hq hm =>
    obtain ⟨p', x⟩ := q
    cases hm with
    | send => exact reports_same rfl rfl id
    | wait => exact reports_same rfl rfl id
    | fail => exact reports_fail _ _
    | done pmk r hk => exact (reports_keyStart hk).of id id id

theorem reports_handshakeMove {input : FourWay.Input} (hm : HandshakeMove c input r) :
    c.Reports r := by
  cases hm with
  | off => exact reports_same rfl rfl id
  | fail => exact reports_fail _ _
  | actions session handshake actions q hsession hhandshake hpoll hactions =>
    obtain ⟨armed, hfst⟩ := handshakeActions_fst hactions
    refine Reports.append ?_ (decisions_handshakeActions hactions)
    split_ifs
    · refine reports_configured ?_
      rw [hfst]
      exact id
    · refine reports_same rfl ?_ ?_
      · rw [hfst]
        rfl
      · rw [hfst]
        exact id

theorem reports_planned {bss : Bss} {roaming : Bool} (hp : Planned c draws bss roaming r) :
    c.Reports r := by
  cases hp with
  | refused => exact reports_fail _ _
  | enterprise => exact reports_fail _ _
  | unstaged => exact reports_fail _ _
  | stay => exact reports_same rfl rfl id
  | prompt =>
    refine ⟨fun failure h => ?_, fun h => .inl ?_, fun h => .inl ?_, fun _ => .inr ?_⟩
    · rw [← mem_decisions rfl] at h
      simp [Connection.prompt] at h
    · simpa [Connection.prompt] using h
    · simpa [Connection.prompt] using h
    · exact ⟨_, List.mem_append_right _ (List.mem_singleton_self _)⟩
  | sae credential choice provider q hchosen hstage hroaming hd =>
    have hstep := (reports_saeDriven hd).of (c := c) (by simp) (by simp) (by simp)
    exact (hstep.append (l := [.notify .authenticating]) (by simp)).append
      (decisions_leaving _ _)
  | associate => exact reports_associateWith id

theorem saveProfile_pending (c : Connection S) : c.saveProfile.1.pending = c.pending := by
  unfold saveProfile
  split
  · split_ifs
    · rfl
    · split <;> rfl
  · rfl

theorem reports_onLease (event : LeaseEvent) : c.Reports (c.onLease event) := by
  cases event with
  | acquired lease =>
    obtain ⟨hstate, hdecisions⟩ := onLease_acquired (c := c) lease
    refine ⟨fun failure h => ?_, fun h => ?_, fun _ => .inr ?_, fun h => .inl ?_⟩
    · rw [← mem_decisions rfl, hdecisions] at h
      cases h
    · cases hstate.symm.trans h
    · simp [onLease]
    · have hpending : (c.onLease (.acquired lease)).1.pending = c.pending :=
        (saveProfile_pending _).trans (by simp)
      rwa [hpending] at h
  | lost reason =>
    unfold onLease
    split_ifs
    · exact reports_goes (by simp) (by simp) (by simp)
    · exact reports_same rfl rfl id
  | failed => exact reports_fail _ _

/-- **Every poll reports the state it ends in.** -/
theorem reports_move {input : Input} (hm : Move c draws input r) : c.Reports r := by
  cases hm with
  | ignore => exact reports_same rfl rfl id
  | connect ssid => exact (reports_startScan (by simp)).append (by split_ifs <;> simp)
  | autoconnect => exact reports_startScan (by simp)
  | secret value target => exact reports_same rfl rfl id
  | answer value target bss r htarget hpending hplanned =>
    exact (reports_planned hplanned).of id id (by simp)
  | disconnect =>
    have hdecisions : decisions (andThen (c, [.disconnect reasonLeaving]) goIdle).2 = [] := by simp
    refine ⟨fun failure h => ?_, fun _ => .inr (.inl ?_), nofun, nofun⟩
    · rw [← mem_decisions rfl, hdecisions] at h
      cases h
    · simp [goIdle]
  | noNetwork scan => exact reports_fail _ _
  | selected scan target bssid bss r hst hselection hfind hplanned =>
    exact (reports_planned hplanned).of id id id
  | surveyed => exact reports_same rfl rfl id
  | roam scan session target better bss r hst hsession htarget hroam hfind hplanned =>
    exact reports_planned hplanned
  | eapolKey frame eapol r hl hparse htype hm => exact reports_handshakeMove hm
  | eapolEap frame eapol r hl hparse htype hd => exact reports_dot1xDriven hd
  | lease event => exact reports_onLease event
  | fetch => exact reports_same rfl rfl id
  | linkFailed => exact reports_fail _ _
  | joinedOpen => exact reports_configured id
  | joinedReady bssid session pmk r hst hsession hauth hk => exact (reports_keyStart hk).of id id id
  | joinedDot1x bssid session provider r hst hsession hauth hd =>
    have hstep := (reports_dot1xDriven hd).of (c := c) (by simp) (by simp) (by simp)
    exact (hstep.append (l := [.notify .handshaking]) (by simp)).append (decisions_leaving c _)
  | joinedUnstaged => exact reports_fail _ _
  | saeFrame frame body r hst hbody hd => exact reports_saeDriven hd
  | saeTimeout r hst hd => exact reports_saeDriven hd
  | handshakeRetry r hl hm => exact reports_handshakeMove hm
  | timedOut => exact reports_fail _ _
  | rescan => exact reports_startScan id

/-! ## Notices -/

/-- The state an action reports. -/
def noticeOf : Action → Option State
  | .notify state => some state
  | _ => none

/-- The states some actions give notice of. -/
def notices (actions : List Action) : List State := actions.filterMap noticeOf

section Notices

variable (c : Connection S)

@[simp] theorem notices_nil : notices [] = [] := rfl

@[simp] theorem notices_append (actions rest : List Action) :
    notices (actions ++ rest) = notices actions ++ notices rest :=
  List.filterMap_append

@[simp] theorem notices_cons (action : Action) (rest : List Action) :
    notices (action :: rest) = (noticeOf action).toList ++ notices rest := by
  cases action <;> rfl

theorem mem_notices {state : State} {actions : List Action} :
    state ∈ notices actions ↔ .notify state ∈ actions := by
  rw [notices, List.mem_filterMap]
  constructor
  · rintro ⟨action, hmem, hstate⟩
    cases action <;> cases hstate
    exact hmem
  · exact fun hmem => ⟨_, hmem, rfl⟩

@[simp] theorem notices_disarm : notices c.disarm.2 = [] := by
  unfold disarm
  cases c.armed <;> rfl

@[simp] theorem notices_leaving (state : State) : notices (c.leaving state) = [] := by
  unfold leaving
  split_ifs <;> simp

@[simp] theorem notices_fail (failure : Failure) :
    notices (c.fail failure).2 = if c.retries failure then [.reconnecting] else [] := by
  unfold fail retries backOff giveUp
  rw [andThen_snd, notices_append]
  dsimp only
  split_ifs <;> simp [noticeOf]

@[simp] theorem notices_saveProfile : notices c.saveProfile.2 = [] := by
  unfold saveProfile
  split
  · split_ifs
    · rfl
    · split <;> rfl
  · rfl

end Notices

/-- No notice of rest is given, and one of a connection only where there is one. -/
def Announces (r : Connection S × List Action) : Prop :=
  ∀ state ∈ notices r.2, state ≠ .idle ∧ (state = .connected → r.1.state = .connected)

theorem announces_of (states : List State) (h : notices r.2 = states)
    (hstates : ∀ state ∈ states, state ≠ .idle ∧ state ≠ .connected) : Announces r := by
  intro state hmem
  rw [h] at hmem
  exact ⟨(hstates state hmem).1, fun heq => absurd heq (hstates state hmem).2⟩

theorem announces_quiet (h : notices r.2 = []) : Announces r := announces_of _ h nofun

theorem Announces.append {l : List Action} (h : Announces r)
    (hl : ∀ state ∈ notices l, state ≠ .idle ∧ state ≠ .connected) : Announces (r.1, l ++ r.2) := by
  intro state hmem
  rw [notices_append, List.mem_append] at hmem
  rcases hmem with hmem | hmem
  · exact ⟨(hl state hmem).1, fun heq => absurd heq (hl state hmem).2⟩
  · exact h state hmem

theorem announces_fail (failure : Failure) : Announces (c.fail failure) := by
  refine announces_of _ (notices_fail c failure) ?_
  split_ifs <;> simp

theorem announces_enter {state : State} (h : state ≠ .idle) : Announces (c.enter state) := by
  intro state' hmem
  have heq : state' = state := by simpa [noticeOf] using hmem
  subst heq
  exact ⟨h, fun heq => by simp [heq]⟩

theorem announces_startScan : Announces c.startScan :=
  announces_of [.scanning] (by simp [startScan, noticeOf]) (by simp)

theorem announces_associateWith (target : Target) (session : Session S) :
    Announces (c.associateWith target session) :=
  announces_of [.associating] (by simp [associateWith_snd, noticeOf]) (by simp)

theorem announces_configured : Announces c.configured := by
  have hnotices : notices c.configured.2 = [c.afterKeys] := by
    unfold configured afterKeys
    split_ifs <;> simp [noticeOf]
  intro state hmem
  rw [hnotices, List.mem_singleton] at hmem
  subst hmem
  refine ⟨?_, fun heq => by rw [configured_state, heq]⟩
  unfold afterKeys
  split_ifs <;> nofun

theorem announces_saeDriven {event : SaeEvent} (hd : SaeDriven c event r) : Announces r := by
  cases hd with
  | off => exact announces_quiet rfl
  | call target session provider q r htarget hsession hauth hq hm =>
    obtain ⟨p', x⟩ := q
    cases hm with
    | wait => exact announces_quiet rfl
    | send => exact announces_quiet rfl
    | noBody => exact announces_fail _
    | fail => exact announces_fail _
    | done => exact announces_associateWith _ _

theorem announces_keyStart {pmk : Pmk} (hk : KeyStart c draws pmk r) : Announces r := by
  cases hk with
  | noNonce => exact announces_fail _
  | start => exact announces_enter nofun

theorem announces_dot1xDriven {frame : Option Bytes} (hd : Dot1xDriven c draws frame r) :
    Announces r := by
  cases hd with
  | off => exact announces_quiet rfl
  | call target session provider q r htarget hsession hauth hq hm =>
    obtain ⟨p', x⟩ := q
    cases hm with
    | send => exact announces_quiet rfl
    | wait => exact announces_quiet rfl
    | fail => exact announces_fail _
    | done pmk r hk => exact announces_keyStart hk

theorem announces_handshakeMove {input : FourWay.Input} (hm : HandshakeMove c input r) :
    Announces r := by
  cases hm with
  | off => exact announces_quiet rfl
  | fail => exact announces_fail _
  | actions session handshake actions q hsession hhandshake hpoll hactions =>
    have hnone : notices q.2 = [] := by
      refine List.filterMap_eq_nil_iff.mpr fun action hmem => ?_
      have hkeying := keying_handshakeActions hactions action hmem
      cases action <;> first | rfl | exact hkeying.elim
    refine Announces.append ?_ (by simp [hnone])
    split_ifs
    · exact announces_configured
    · exact announces_quiet rfl

theorem announces_planned {bss : Bss} {roaming : Bool} (hp : Planned c draws bss roaming r) :
    Announces r := by
  cases hp with
  | refused => exact announces_fail _
  | enterprise => exact announces_fail _
  | unstaged => exact announces_fail _
  | stay => exact announces_quiet rfl
  | prompt => exact announces_quiet (by simp [Connection.prompt, noticeOf])
  | sae credential choice provider q hchosen hstage hroaming hd =>
    have hnotify : Announces (q.1, [.notify .authenticating] ++ q.2) :=
      (announces_saeDriven hd).append (by simp [noticeOf])
    exact hnotify.append (by simp)
  | associate => exact announces_associateWith _ _

theorem announces_onLease (event : LeaseEvent) : Announces (c.onLease event) := by
  cases event with
  | acquired lease =>
    refine fun state hmem => ?_
    have heq : state = .connected := by simpa [onLease, noticeOf] using hmem
    exact ⟨by simp [heq], fun _ => (onLease_acquired lease).1⟩
  | lost reason =>
    unfold onLease
    split_ifs
    · exact announces_of [.configuring] (by simp [noticeOf]) (by simp)
    · exact announces_quiet rfl
  | failed => exact announces_fail _

/-- **Rest is given notice of** only where it was asked for, and a connection only where there is
one. -/
theorem announces_move {input : Input} (hinput : input ≠ .command .disconnect)
    (hm : Move c draws input r) : Announces r := by
  cases hm with
  | ignore => exact announces_quiet rfl
  | connect ssid => exact announces_startScan.append (by split_ifs <;> simp [noticeOf])
  | autoconnect => exact announces_startScan
  | secret => exact announces_quiet rfl
  | answer value target bss r htarget hpending hplanned => exact announces_planned hplanned
  | disconnect => exact absurd rfl hinput
  | noNetwork => exact announces_fail _
  | selected scan target bssid bss r hst hselection hfind hplanned => exact announces_planned hplanned
  | surveyed => exact announces_quiet rfl
  | roam scan session target better bss r hst hsession htarget hroam hfind hplanned =>
    exact announces_planned hplanned
  | eapolKey frame eapol r hl hparse htype hm => exact announces_handshakeMove hm
  | eapolEap frame eapol r hl hparse htype hd => exact announces_dot1xDriven hd
  | lease event => exact announces_onLease event
  | fetch => exact announces_quiet rfl
  | linkFailed => exact announces_fail _
  | joinedOpen => exact announces_configured
  | joinedReady bssid session pmk r hst hsession hauth hk => exact announces_keyStart hk
  | joinedDot1x bssid session provider r hst hsession hauth hd =>
    have hnotify : Announces (r.1, [.notify .handshaking] ++ r.2) :=
      (announces_dot1xDriven hd).append (by simp [noticeOf])
    exact hnotify.append (by simp)
  | joinedUnstaged => exact announces_fail _
  | saeFrame frame body r hst hbody hd => exact announces_saeDriven hd
  | saeTimeout r hst hd => exact announces_saeDriven hd
  | handshakeRetry r hl hm => exact announces_handshakeMove hm
  | timedOut => exact announces_fail _
  | rescan => exact announces_startScan

end Connection

end Caw
