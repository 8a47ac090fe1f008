import Caw.Core.Late

/-!
# What stands behind the connected state

An observer of a run keeps the association request last sent, whether its success has been reported,
and the peer of the pairwise key installed since. When the connection reports that it is up, the
three are those of the session it holds.

* `Ledger`, `Ledger.hear`, `Ledger.see`, `Ledger.ofLog`: the observer;
* `Ledger.Covers`: what is to hold when the connection reports `connected`;
* `Ledger.Inv`, `Ledger.Keeps`: the invariant, and what one poll keeps of it;
* **`connected_covered`**: in every run whose leases come while they are waited for, every report of
  `connected` is covered.
-/

set_option autoImplicit false

namespace Caw

open Caw.Core

variable {S : Platform}

/-- The station runs no handshake of its own. -/
def Core.Session.Keyless (session : Session S) : Prop :=
  session.auth = .open ∨ ∃ o, session.auth = .offloaded o

/-- What an observer keeps of the attempt under way. -/
@[ext]
structure Ledger where
  request : Option AssocRequest
  joined : Bool
  /-- The peer of the pairwise key. -/
  keyed : Option Mac

namespace Ledger

/-- Before anything has happened. -/
def blank : Ledger := ⟨none, false, none⟩

/-- An association request begins a page of its own; the states outside an association end it. -/
def see (m : Ledger) : Action → Ledger
  | .associate request => ⟨some request, false, none⟩
  | .installKeys ⟨some key, _⟩ => { m with keyed := some key.peer }
  | .notify .handshaking | .notify .configuring | .notify .connected => m
  | .notify _ | .failed _ => blank
  | _ => m

/-- The actions of one poll. -/
def seeAll (m : Ledger) (actions : List Action) : Ledger := actions.foldl see m

/-- A success counts for the request under way. -/
def hear (m : Ledger) (c : Connection S) : Input → Ledger
  | .wireless (.connected _ .success) =>
    if c.state = .associating then { m with joined := true } else m
  | _ => m

/-- One call. -/
def hearCall (m : Ledger) (c : Connection S) : Call S → Ledger
  | .poll _ input => m.hear c input
  | _ => m

/-- The observer at the end of a run. -/
def ofLog (past : List (Connection.Entry S)) : Ledger :=
  past.foldl (fun m e => (m.hearCall e.pre e.input).seeAll e.output) blank

/-- The request is that of the session the connection holds, for the target it holds. -/
structure Linked (m : Ledger) (c : Connection S) (session : Session S) (target : Target)
    (request : AssocRequest) : Prop where
  session_eq : c.session = some session
  target_eq : c.target = some target
  request_eq : m.request = some request
  ssid_eq : request.ssid = target.ssid
  bssid_eq : request.bssid = session.choice.bssid

/-- There is a live session for the target, its association has succeeded, and where the station runs
the handshake its pairwise key is installed. -/
def Covers (m : Ledger) (c : Connection S) : Prop :=
  ∃ session target request, m.Linked c session target request ∧ m.joined = true ∧
    (session.choice.rsn.isSome → request.offload = none →
      m.keyed = some session.choice.bssid)

/-- There is a live session for the target, and its association has succeeded. -/
def Held (m : Ledger) (c : Connection S) : Prop :=
  ∃ session target request, m.Linked c session target request ∧ m.joined = true

/-- What a state says of the ledger. -/
def Inv (m : Ledger) (c : Connection S) : Prop :=
  match c.state with
  | .associating => ∃ session target request, m.Linked c session target request ∧
      (session.Keyless → session.choice.rsn.isSome → request.offload.isSome)
  | .handshaking => m.Held c
  | .configuring | .connected => m.Covers c
  | _ => True

/-- A poll after which the ledger agrees again, and whose reports of `connected` are covered. -/
structure Keeps (m : Ledger) (r : Connection S × List Action) : Prop where
  covered : ∀ before after, r.2 = before ++ .notify .connected :: after →
    (m.seeAll before).Covers r.1
  inv : (m.seeAll r.2).Inv r.1

/-- The states in which an association stands or is under way. -/
def Linking (state : State) : Prop :=
  state = .associating ∨ state = .handshaking ∨ state = .configuring ∨ state = .connected

variable {m : Ledger} {c : Connection S} {r : Connection S × List Action}

theorem seeAll_append (actions rest : List Action) :
    m.seeAll (actions ++ rest) = (m.seeAll actions).seeAll rest := by
  simp [seeAll]

theorem inv_of_not_linking (h : ¬ Linking c.state) : m.Inv c := by
  unfold Inv
  cases hst : c.state <;> simp_all [Linking]

theorem keeps_of_not_linking (hst : ¬ Linking r.1.state) (hout : .notify .connected ∉ r.2) :
    m.Keeps r := by
  refine ⟨fun before after heq => absurd ?_ hout, inv_of_not_linking hst⟩
  rw [heq]
  exact List.mem_append_right _ List.mem_cons_self

/-- An action that neither begins nor ends an attempt, and installs no pairwise key. -/
def Plain : Action → Prop
  | .associate _ | .notify _ | .failed _ | .installKeys ⟨some _, _⟩ => False
  | _ => True

theorem see_plain {action : Action} (h : Plain action) : m.see action = m := by
  unfold Plain at h
  unfold see
  split at h <;> simp_all

theorem seeAll_plain {actions : List Action} (h : ∀ action ∈ actions, Plain action) :
    m.seeAll actions = m := by
  induction actions with
  | nil => rfl
  | cons action rest ih =>
    change (m.see action).seeAll rest = m
    rw [see_plain (h action List.mem_cons_self)]
    exact ih fun a ha => h a (List.mem_cons_of_mem _ ha)

theorem not_mem_plain {actions : List Action} (h : ∀ action ∈ actions, Plain action) (state : State) :
    Action.notify state ∉ actions := fun hmem => h _ hmem

theorem keeps_of_not_mem (hout : .notify .connected ∉ r.2) (hinv : (m.seeAll r.2).Inv r.1) :
    m.Keeps r := by
  refine ⟨fun before after heq => absurd ?_ hout, hinv⟩
  rw [heq]
  exact List.mem_append_right _ List.mem_cons_self

theorem keeps_plain {actions : List Action} (h : ∀ action ∈ actions, Plain action)
    (hinv : m.Inv c) : m.Keeps (c, actions) :=
  keeps_of_not_mem (not_mem_plain h _) (by rw [seeAll_plain h]; exact hinv)

theorem keeps_nil (hinv : m.Inv c) : m.Keeps (c, []) := keeps_plain (by simp) hinv

theorem keeps_append {l : List Action} (hout : .notify .connected ∉ l)
    (hkeeps : (m.seeAll l).Keeps r) : m.Keeps (r.1, l ++ r.2) := by
  refine ⟨fun before after heq => ?_, by rw [seeAll_append]; exact hkeeps.inv⟩
  rcases List.append_eq_append_iff.mp heq with ⟨mid, rfl, hr⟩ | ⟨mid, hactions, hr⟩
  · rw [seeAll_append]
    exact hkeeps.covered mid after hr
  · cases mid with
    | nil =>
      rw [List.append_nil] at hactions
      subst hactions
      exact hkeeps.covered [] after hr.symm
    | cons action mid =>
      cases hr
      exact absurd (hactions ▸ List.mem_append_right _ List.mem_cons_self) hout

theorem keeps_plain_append {actions : List Action} (h : ∀ action ∈ actions, Plain action)
    (hkeeps : m.Keeps r) : m.Keeps (r.1, actions ++ r.2) :=
  keeps_append (not_mem_plain h _) (by rw [seeAll_plain h]; exact hkeeps)

/-! ## What the ledger reads -/

section Congr

variable {c' : Connection S} {session session' : Session S} {target target' : Target}
  {request : AssocRequest}

theorem Linked.withSession (h : m.Linked c session target request)
    (hbssid : session'.choice.bssid = session.choice.bssid) :
    m.Linked (c.withSession session') session' target request :=
  ⟨rfl, h.target_eq, h.request_eq, h.ssid_eq, h.bssid_eq.trans hbssid.symm⟩

theorem Covers.held (h : m.Covers c) : m.Held c := by
  obtain ⟨session, target, request, hlinked, hjoined, -⟩ := h
  exact ⟨session, target, request, hlinked, hjoined⟩

theorem Held.withSession (h : m.Held c) (hsession : c.session = some session)
    (hchoice : session'.choice.bssid = session.choice.bssid) : m.Held (c.withSession session') := by
  obtain ⟨s, target, request, hlinked, hjoined⟩ := h
  obtain rfl : s = session := by simpa [hlinked.session_eq] using hsession
  exact ⟨session', target, request, hlinked.withSession hchoice, hjoined⟩

theorem Covers.withSession (h : m.Covers c) (hsession : c.session = some session)
    (hbssid : session'.choice.bssid = session.choice.bssid)
    (hrsn : session'.choice.rsn = session.choice.rsn) : m.Covers (c.withSession session') := by
  obtain ⟨s, target, request, hlinked, hjoined, hkeyed⟩ := h
  obtain rfl : s = session := by simpa [hlinked.session_eq] using hsession
  refine ⟨session', target, request, hlinked.withSession hbssid, hjoined, ?_⟩
  rw [hrsn, hbssid]
  exact hkeyed

theorem Linked.congr (h : m.Linked c session target request) (hsession : c'.session = c.session)
    (htarget : c'.target = some target') (hssid : target'.ssid = target.ssid) :
    m.Linked c' session target' request :=
  ⟨hsession.trans h.session_eq, htarget, h.request_eq, h.ssid_eq.trans hssid.symm, h.bssid_eq⟩

theorem Covers.congr (h : m.Covers c) (hsession : c'.session = c.session)
    (htarget : ∀ target, c.target = some target →
      ∃ target', c'.target = some target' ∧ target'.ssid = target.ssid) : m.Covers c' := by
  obtain ⟨session, target, request, hlinked, hrest⟩ := h
  obtain ⟨target', htarget', hssid⟩ := htarget target hlinked.target_eq
  exact ⟨session, target', request, hlinked.congr hsession htarget' hssid, hrest⟩

theorem Held.congr (h : m.Held c) (hsession : c'.session = c.session)
    (htarget : ∀ target, c.target = some target →
      ∃ target', c'.target = some target' ∧ target'.ssid = target.ssid) : m.Held c' := by
  obtain ⟨session, target, request, hlinked, hjoined⟩ := h
  obtain ⟨target', htarget', hssid⟩ := htarget target hlinked.target_eq
  exact ⟨session, target', request, hlinked.congr hsession htarget' hssid, hjoined⟩

theorem Inv.congr (h : m.Inv c) (hstate : c'.state = c.state) (hsession : c'.session = c.session)
    (htarget : ∀ target, c.target = some target →
      ∃ target', c'.target = some target' ∧ target'.ssid = target.ssid) : m.Inv c' := by
  unfold Inv at h ⊢
  rw [hstate]
  cases hst : c.state with
  | associating =>
    simp only [hst] at h ⊢
    obtain ⟨session, target, request, hlinked, hopen⟩ := h
    obtain ⟨target', htarget', hssid⟩ := htarget target hlinked.target_eq
    exact ⟨session, target', request, hlinked.congr hsession htarget' hssid, hopen⟩
  | handshaking =>
    simp only [hst] at h ⊢
    exact h.congr hsession htarget
  | configuring =>
    simp only [hst] at h ⊢
    exact h.congr hsession htarget
  | connected =>
    simp only [hst] at h ⊢
    exact h.congr hsession htarget
  | _ => trivial

theorem Inv.same (h : m.Inv c) (hstate : c'.state = c.state) (hsession : c'.session = c.session)
    (htarget : c'.target = c.target) : m.Inv c' :=
  h.congr hstate hsession fun target ht => ⟨target, htarget.trans ht, rfl⟩

end Congr

/-! ## Transitions -/

theorem plain_leaving (c : Connection S) (state : State) :
    ∀ action ∈ c.leaving state, Plain action := by
  unfold Connection.leaving Connection.disarm
  split_ifs
  · intro action hmem
    cases harmed : c.armed <;> simp_all [Plain]
  · simp

theorem plain_disarm (c : Connection S) : ∀ action ∈ c.disarm.2, Plain action := by
  unfold Connection.disarm
  intro action hmem
  cases harmed : c.armed <;> simp_all [Plain]

theorem not_mem_backOff : .notify .connected ∉ c.backOff.2 := by
  have hplain := not_mem_plain (plain_leaving { c with attempts := c.attempts + 1 } .reconnecting)
    .connected
  simpa [Connection.backOff] using hplain

theorem not_mem_giveUp (failure : Failure) : .notify .connected ∉ (c.giveUp failure).2 := by
  have hplain := not_mem_plain (plain_disarm c) .connected
  simpa [Connection.giveUp] using hplain

theorem keeps_fail (failure : Failure) : m.Keeps (c.fail failure) := by
  refine keeps_of_not_linking ?_ ?_
  · rw [Connection.fail_fst]
    split_ifs <;> simp [Linking]
  · unfold Connection.fail
    rw [Connection.andThen_snd, List.mem_append, not_or]
    refine ⟨by split_ifs <;> simp, ?_⟩
    dsimp only
    split_ifs
    · exact not_mem_backOff
    · exact not_mem_giveUp failure

theorem keeps_startScan : m.Keeps c.startScan := by
  refine keeps_of_not_linking (by simp [Linking]) ?_
  unfold Connection.startScan
  have hplain := not_mem_plain (plain_leaving c .scanning) .connected
  simpa using hplain

theorem keeps_goIdle : m.Keeps c.goIdle := by
  refine keeps_of_not_linking (by simp [Linking]) ?_
  have hplain := not_mem_plain (plain_disarm c) .connected
  simpa [Connection.goIdle] using hplain

theorem keeps_enter {s : State} (hinv : (m.see (.notify s)).Inv (c.enter s).1)
    (hcovered : s = .connected → m.Covers (c.enter s).1) : m.Keeps (c.enter s) := by
  have hkeeps : m.Keeps ((c.enter s).1, [.notify s]) := by
    refine ⟨fun before after heq => ?_, hinv⟩
    cases before with
    | nil =>
      cases heq
      exact hcovered rfl
    | cons action before => simp at heq
  have h := keeps_plain_append (plain_leaving c s) hkeeps
  rwa [← Connection.enter_snd] at h

theorem Keeps.plain_after (h : m.Keeps r) {actions : List Action}
    (hplain : ∀ action ∈ actions, Plain action) {c' : Connection S} (hstate : c'.state = r.1.state)
    (hsession : c'.session = r.1.session)
    (htarget : ∀ target, r.1.target = some target →
      ∃ target', c'.target = some target' ∧ target'.ssid = target.ssid) :
    m.Keeps (c', r.2 ++ actions) := by
  refine ⟨fun before after heq => ?_, ?_⟩
  · rcases List.append_eq_append_iff.mp heq with ⟨mid, rfl, hactions⟩ | ⟨mid, hr, hactions⟩
    · exact absurd (hactions ▸ List.mem_append_right _ List.mem_cons_self)
        (not_mem_plain hplain .connected)
    · cases mid with
      | nil =>
        rw [List.nil_append] at hactions
        exact absurd (hactions ▸ List.mem_cons_self) (not_mem_plain hplain .connected)
      | cons action mid =>
        cases hactions
        exact (h.covered before mid hr).congr hsession htarget
  · rw [seeAll_append, seeAll_plain hplain]
    exact h.inv.congr hstate hsession htarget

theorem keeps_configured (h : m.Covers c) : m.Keeps c.configured := by
  unfold Connection.configured
  split_ifs
  · refine (keeps_enter ?_ fun _ => ?_).plain_after (by simp) rfl rfl
      fun target ht => ⟨target, ht, rfl⟩
    · rw [Connection.enter_fst]
      exact h.congr rfl fun target ht => ⟨target, ht, rfl⟩
    · rw [Connection.enter_fst]
      exact h.congr rfl fun target ht => ⟨target, ht, rfl⟩
  · refine (keeps_enter (s := .configuring) ?_ (fun hst => nomatch hst)).plain_after ?_ rfl rfl
      fun target ht => ⟨target, ht, rfl⟩
    · rw [Connection.enter_fst]
      exact h.congr rfl fun target ht => ⟨target, ht, rfl⟩
    · simp [Plain]

/-- **A request begins a page of its own**, and no secured session goes open without an offload. -/
theorem keeps_associateWith {target : Target} {session : Session S} (htarget : c.target = some target)
    (hopen : session.auth = .open → session.choice.rsn = none) :
    m.Keeps (c.associateWith target session) := by
  let request := Connection.assocRequest c.device.ifindex target.ssid session
  have hkeeps : m.Keeps ((c.associateWith target session).1,
      [.notify .associating, .associate request, .setTimer .assocTimeout assocTimeoutMs]) := by
    refine keeps_of_not_mem (by simp) ?_
    rw [Connection.associateWith_fst]
    refine ⟨Connection.requested session, target, request, ⟨rfl, htarget, rfl, ?_, ?_⟩, ?_⟩
    · simp only [request, Connection.assocRequest]
      split <;> rfl
    · simp only [request, Connection.assocRequest, Connection.requested_choice]
      split <;> rfl
    · simp only [Session.Keyless, request, Connection.assocRequest, Connection.offloadOf,
        Connection.requested_auth, Connection.requested_choice]
      cases hauth : session.auth with
      | «open» => simp [hopen hauth]
      | offloaded o =>
        intro _ hrsn
        obtain ⟨rsn, hrsn⟩ := Option.isSome_iff_exists.mp hrsn
        rw [hrsn]
        rfl
      | _ => simp
  have h := keeps_plain_append (plain_leaving (c.withSession (Connection.requested session))
    .associating) hkeeps
  rwa [← Connection.associateWith_snd] at h

/-! ## Handlers -/

variable {draws : Draws S}

theorem keeps_saeDriven {event : SaeEvent} (hst : ¬ Linking c.state)
    (hd : Connection.SaeDriven c event r) : m.Keeps r := by
  cases hd with
  | off => exact keeps_nil (inv_of_not_linking hst)
  | call target session provider q r htarget hsession hauth hq hm =>
    obtain ⟨p', x⟩ := q
    cases hm with
    | wait => exact keeps_nil (inv_of_not_linking hst)
    | send frame request => exact keeps_plain (by simp [Plain]) (inv_of_not_linking hst)
    | noBody => exact keeps_fail _
    | fail => exact keeps_fail _
    | done target session pmk htarget' hsession' =>
      exact keeps_associateWith htarget' nofun

theorem keeps_planned {bss : Bss} {roaming : Bool} (hinv : r.1.session = c.session → m.Inv c)
    (hp : Connection.Planned c draws bss roaming r) : m.Keeps r := by
  cases hp with
  | refused => exact keeps_fail _
  | enterprise => exact keeps_fail _
  | unstaged => exact keeps_fail _
  | stay => exact keeps_nil (hinv rfl)
  | prompt =>
    have hkeeps : m.Keeps ({ c.disarm.1 with pending := some bss },
        [.requestSecret ("Passphrase for " ++ ssidText c.ssidBytes)]) :=
      keeps_plain (by simp [Plain]) ((hinv rfl).same rfl rfl rfl)
    exact keeps_plain_append (plain_disarm c) hkeeps
  | sae credential choice provider r hchosen hstage hroaming hd =>
    have hkeeps := keeps_saeDriven (m := m.see (.notify .authenticating)) (by simp [Linking]) hd
    exact keeps_plain_append (plain_leaving _ _)
      (keeps_append (l := [.notify .authenticating]) (by simp) hkeeps)
  | associate credential choice auth target hchosen hstage hpre htarget =>
    refine keeps_associateWith htarget fun hopen => ?_
    rcases Connection.stage_eq_ok hchosen hstage with ⟨hrsn, -⟩ | ⟨-, hstaged⟩
    · exact hrsn
    · rw [show auth = .open from hopen] at hstaged
      cases hstaged

theorem keeps_keyStart {pmk : Pmk} (h : m.Held c) (hk : Connection.KeyStart c draws pmk r) :
    m.Keeps r := by
  cases hk with
  | noNonce => exact keeps_fail _
  | start session rsn snonce hsession hrsn hnonce =>
    refine keeps_enter ?_ (fun hst => nomatch hst)
    let handshake := FourWay.withSnonce pmk (c.handshakeConfig session rsn) snonce
    have hheld : m.Held (c.withSession (session.withHandshake handshake)) :=
      h.withSession hsession rfl
    rw [Connection.enter_fst]
    exact hheld.congr rfl fun target ht => ⟨target, ht, rfl⟩

/-- In the states that listen to EAPOL the session holds what it was associated with. -/
theorem Inv.held (h : m.Inv c) (hl : c.Listening) : m.Held c := by
  unfold Inv at h
  rcases hl with hst | hst
  · rw [hst] at h
    exact h
  · rw [hst] at h
    exact h.held

theorem Inv.withSession (h : m.Inv c) (hl : c.Listening) {session session' : Session S}
    (hsession : c.session = some session) (hchoice : session'.choice = session.choice) :
    m.Inv (c.withSession session') := by
  unfold Inv at h ⊢
  rw [Connection.withSession_state]
  rcases hl with hst | hst
  · rw [hst] at h ⊢
    exact h.withSession hsession (by rw [hchoice])
  · rw [hst] at h ⊢
    exact h.withSession hsession (by rw [hchoice]) (by rw [hchoice])

theorem keeps_dot1xDriven {frame : Option Bytes} (hinv : m.Inv c) (hl : c.Listening)
    (hd : Connection.Dot1xDriven c draws frame r) : m.Keeps r := by
  cases hd with
  | off => exact keeps_nil hinv
  | call target session provider q r htarget hsession hauth hq hm =>
    have hinv' : m.Inv (c.withSession (session.withAuth (.postAssoc q.1))) :=
      hinv.withSession hl hsession rfl
    obtain ⟨p', x⟩ := q
    cases hm with
    | send => exact keeps_plain (by simp [Plain]) hinv'
    | wait => exact keeps_nil hinv'
    | fail => exact keeps_fail _
    | done pmk r hk =>
      refine keeps_keyStart ?_ hk
      exact (hinv'.held hl).withSession rfl rfl

theorem handshakeAction_see {action : FourWay.Action} {session : Session S}
    (hsession : c.session = some session) (h : c.handshakeAction action = some r) :
    .notify .connected ∉ r.2 ∧ m.seeAll r.2 =
      if Connection.isComplete action then { m with keyed := some session.choice.bssid } else m := by
  cases action with
  | complete keys =>
    obtain ⟨install, hinstall, rfl⟩ := Option.map_eq_some_iff.mp h
    obtain ⟨s, hs, hmap⟩ := Option.bind_eq_some_iff.mp hinstall
    obtain ⟨rsn, -, rfl⟩ := Option.map_eq_some_iff.mp hmap
    obtain rfl : session = s := by simpa [hsession] using hs
    exact ⟨by simp, rfl⟩
  | disarmTimer =>
    cases h
    exact ⟨not_mem_plain (plain_disarm c) _, seeAll_plain (plain_disarm c)⟩
  | _ =>
    cases h
    exact ⟨by simp, rfl⟩

theorem handshakeActions_see {actions : List FourWay.Action} {session : Session S}
    (hsession : c.session = some session) (h : c.handshakeActions actions = some r) :
    .notify .connected ∉ r.2 ∧ m.seeAll r.2 =
      if actions.any Connection.isComplete then { m with keyed := some session.choice.bssid }
      else m := by
  induction actions generalizing m c r with
  | nil =>
    cases h
    exact ⟨by simp, rfl⟩
  | cons action rest ih =>
    obtain ⟨q, hq, hrest⟩ := Option.bind_eq_some_iff.mp h
    obtain ⟨q', hq', rfl⟩ := (Connection.tryThen_eq_some _).mp hrest
    obtain ⟨armed, hone⟩ := Connection.handshakeAction_fst hq
    have hfirst := handshakeAction_see (m := m) hsession hq
    have hothers := ih (m := m.seeAll q.2) (by rw [hone]; exact hsession) hq'
    refine ⟨by simp [hfirst.1, hothers.1], ?_⟩
    rw [seeAll_append, hothers.2, hfirst.2, List.any_cons]
    by_cases hc : Connection.isComplete action <;> simp [hc]

theorem keeps_handshakeMove {input : FourWay.Input} (hinv : m.Inv c) (hl : c.Listening)
    (hm : Connection.HandshakeMove c input r) : m.Keeps r := by
  cases hm with
  | off => exact keeps_nil hinv
  | fail => exact keeps_fail _
  | actions session handshake actions q hsession hhandshake hpoll hactions =>
    have hinv' : m.Inv (c.withSession (session.withHandshake (handshake.poll S.prim input).1)) :=
      hinv.withSession hl hsession rfl
    obtain ⟨hout, hsee⟩ := handshakeActions_see (m := m) rfl hactions
    obtain ⟨armed, hfst⟩ := Connection.handshakeActions_fst hactions
    refine keeps_append hout ?_
    rw [hsee]
    split_ifs with hcomplete
    · refine keeps_configured ?_
      obtain ⟨s, target, request, hlinked, hjoined⟩ := hinv'.held hl
      have hs : s = session.withHandshake (handshake.poll S.prim input).1 := by
        simpa using hlinked.session_eq.symm
      subst hs
      rw [hfst]
      exact ⟨_, target, request, ⟨rfl, hlinked.target_eq, hlinked.request_eq, hlinked.ssid_eq,
        hlinked.bssid_eq⟩, hjoined, fun _ _ => rfl⟩
    · refine keeps_nil ?_
      rw [hfst]
      exact hinv'.same rfl rfl rfl

/-! ## Polls -/

theorem inv_hear (hinv : m.Inv c) (input : Input) : (m.hear c input).Inv c := by
  unfold hear
  split
  · split_ifs with hst
    · unfold Inv at hinv ⊢
      rw [hst] at hinv ⊢
      obtain ⟨session, target, request, hlinked, hopen⟩ := hinv
      exact ⟨session, target, request, ⟨hlinked.session_eq, hlinked.target_eq, hlinked.request_eq,
        hlinked.ssid_eq, hlinked.bssid_eq⟩, hopen⟩
    · exact hinv
  · exact hinv

theorem held_of_success (hinv : m.Inv c) (hst : c.state = .associating) (bssid : Option Mac) :
    ∃ session target request,
      (m.hear c (.wireless (.connected bssid .success))).Linked c session target request ∧
      (m.hear c (.wireless (.connected bssid .success))).joined = true ∧
      (session.Keyless → session.choice.rsn.isSome → request.offload.isSome) := by
  have h := inv_hear hinv (.wireless (.connected bssid .success))
  have hjoined : (m.hear c (.wireless (.connected bssid .success))).joined = true := by
    rw [hear, if_pos hst]
  unfold Inv at h
  rw [hst] at h
  obtain ⟨session, target, request, hlinked, hopen⟩ := h
  exact ⟨session, target, request, hlinked, hjoined, hopen⟩

theorem covers_onLease (hinv : m.Inv c) (h : c.state = .configuring ∨ c.state = .connected) :
    m.Covers c := by
  unfold Inv at hinv
  rcases h with hst | hst <;> rw [hst] at hinv <;> exact hinv

theorem plain_saveProfile (c : Connection S) : ∀ action ∈ c.saveProfile.2, Plain action := by
  unfold Connection.saveProfile
  split
  · split_ifs
    · simp
    · split <;> simp [Plain]
  · simp

theorem keeps_onLease (hinv : m.Inv c) {event : LeaseEvent}
    (htimely : ∀ lease, event = .acquired lease → c.state = .configuring ∨ c.state = .connected) :
    m.Keeps (c.onLease event) := by
  cases event with
  | failed => exact keeps_fail _
  | lost reason =>
    unfold Connection.onLease
    split_ifs with hst
    · refine (keeps_enter (s := .configuring) ?_ (fun h => nomatch h)).plain_after
        (by simp [Plain]) rfl rfl fun target ht => ⟨target, ht, rfl⟩
      rw [Connection.enter_fst]
      exact (covers_onLease hinv (.inr hst)).congr rfl fun target ht => ⟨target, ht, rfl⟩
    · exact keeps_nil hinv
  | acquired lease =>
    have hcovers := covers_onLease hinv (htimely lease rfl)
    have hcovers' : m.Covers (c.enter .connected).1 := by
      rw [Connection.enter_fst]
      exact hcovers.congr rfl fun target ht => ⟨target, ht, rfl⟩
    have hkeeps : m.Keeps (c.enter .connected) := keeps_enter hcovers' fun _ => hcovers'
    let entered : Connection S := { (c.enter .connected).1 with attempts := 0 }
    obtain ⟨hstate, hsession, htarget⟩ := Connection.saveProfile_frame entered
    have hsaved := hkeeps.plain_after (plain_saveProfile entered) hstate hsession htarget
    exact keeps_plain_append (by simp [Plain]) hsaved

/-- **One poll.** What the ledger has heard by then covers every report of `connected`. -/
theorem keeps_move {input : Input} (hinv : m.Inv c)
    (htimely : ∀ lease, input = .lease (.acquired lease) →
      c.state = .configuring ∨ c.state = .connected)
    (hm : Connection.Move c draws input r) : (m.hear c input).Keeps r := by
  have hheard := inv_hear hinv input
  cases hm with
  | ignore => exact keeps_nil hheard
  | connect ssid =>
    refine keeps_append ?_ keeps_startScan
    split_ifs <;> simp
  | autoconnect => exact keeps_startScan
  | secret value target htarget hpending =>
    refine keeps_nil (hheard.congr rfl rfl fun t ht => ?_)
    rw [htarget] at ht
    cases ht
    exact ⟨_, rfl, rfl⟩
  | answer value target bss r htarget hpending hplanned =>
    refine keeps_planned (fun _ => ?_) hplanned
    refine hheard.congr rfl rfl fun t ht => ?_
    rw [htarget] at ht
    cases ht
    exact ⟨_, rfl, rfl⟩
  | disconnect => exact keeps_append (by simp) keeps_goIdle
  | noNetwork => exact keeps_fail _
  | selected scan target bssid bss r hst hselection hfind hplanned =>
    exact keeps_planned (fun _ => inv_of_not_linking (by simp [Linking, hst])) hplanned
  | surveyed scan session target hst hsession =>
    have hcovers := covers_onLease hheard (.inr hst)
    have hcovers' : (m.hear c (.scanResults scan)).Covers (c.withSession
        (session.withSignal (Connection.currentSignal session scan))) :=
      hcovers.withSession hsession rfl rfl
    refine keeps_nil ?_
    unfold Inv
    rw [Connection.withSession_state, hst]
    exact hcovers'
  | roam scan session target better bss r hst hsession htarget hroam hfind hplanned =>
    exact keeps_planned (fun _ => hheard) hplanned
  | eapolKey frame eapol r hl hparse htype hm => exact keeps_handshakeMove hheard hl hm
  | eapolEap frame eapol r hl hparse htype hd => exact keeps_dot1xDriven hheard hl hd
  | lease event => exact keeps_onLease hheard fun lease hl => htimely lease (by rw [hl])
  | fetch => exact keeps_plain (by simp [Plain]) hheard
  | linkFailed => exact keeps_fail _
  | joinedOpen bssid session hst hsession hauth =>
    obtain ⟨s, target, request, hlinked, hjoined, hopen⟩ := held_of_success hinv hst bssid
    obtain rfl : s = session := by simpa [hlinked.session_eq] using hsession
    refine keeps_configured ⟨_, target, request, hlinked.withSession rfl, hjoined, ?_⟩
    intro hrsn hoffload
    have hsome := hopen hauth hrsn
    rw [hoffload] at hsome
    cases hsome
  | joinedReady bssid session pmk r hst hsession hauth hk =>
    obtain ⟨s, target, request, hlinked, hjoined, -⟩ := held_of_success hinv hst bssid
    refine keeps_keyStart ?_ hk
    exact Held.withSession ⟨s, target, request, hlinked, hjoined⟩ hsession rfl
  | joinedDot1x bssid session provider r hst hsession hauth hd =>
    obtain ⟨s, target, request, hlinked, hjoined, -⟩ := held_of_success hinv hst bssid
    have hheld : (m.hear c (.wireless (.connected bssid .success))).Inv
        (c.enter .handshaking).1 := by
      rw [Connection.enter_fst]
      exact ⟨s, target, request, hlinked.congr rfl hlinked.target_eq rfl, hjoined⟩
    have hkeeps := keeps_dot1xDriven hheld (.inl (by simp)) hd
    exact keeps_plain_append (plain_leaving _ _)
      (keeps_append (l := [.notify .handshaking]) (by simp) hkeeps)
  | joinedUnstaged => exact keeps_fail _
  | saeFrame frame body r hst hbody hd =>
    exact keeps_saeDriven (by simp [Linking, hst]) hd
  | saeTimeout r hst hd => exact keeps_saeDriven (by simp [Linking, hst]) hd
  | handshakeRetry r hl hm => exact keeps_handshakeMove hheard hl hm
  | timedOut => exact keeps_fail _
  | rescan => exact keeps_startScan

end Ledger

/-! ## Runs -/

namespace Connection

open Ledger

/-- A lease is acquired only while one is waited for or held. -/
def Timely (_ : List (Entry S)) (e : Entry S) : Prop :=
  ∀ draws lease, e.input = .poll draws (.lease (.acquired lease)) →
    e.pre.state = .configuring ∨ e.pre.state = .connected

/-- Every report of `connected` is covered by what was heard and asked for up to it. -/
def ReportsCovered (past : List (Entry S)) (e : Entry S) : Prop :=
  ∀ before after, e.output = before ++ .notify .connected :: after →
    (((ofLog past).hearCall e.pre e.input).seeAll before).Covers e.post

variable {m : Ledger} {c : Connection S}

/-- **One call.** -/
theorem keeps_step (hinv : m.Inv c) (call : Call S)
    (htimely : ∀ draws lease, call = .poll draws (.lease (.acquired lease)) →
      c.state = .configuring ∨ c.state = .connected) :
    (m.hearCall c call).Keeps (c.step call) := by
  cases call with
  | poll draws input =>
    change (m.hear c input).Keeps ((c.poll draws input).getD (c, []))
    cases hpoll : c.poll draws input with
    | none => exact keeps_nil (inv_hear hinv input)
    | some r =>
      exact keeps_move hinv (fun lease hl => htimely draws lease (by rw [hl])) (poll_move hpoll)
  | insertProfile profile =>
    refine keeps_nil (hinv.congr rfl rfl fun target ht => ?_)
    rw [insertProfile_target, ht]
    exact ⟨_, rfl, by dsimp only; split_ifs <;> rfl⟩
  | forgetProfile ssid => exact keeps_nil (hinv.same rfl rfl rfl)

theorem ofLog_concat (past : List (Entry S)) (e : Entry S) :
    ofLog (past ++ [e]) = ((ofLog past).hearCall e.pre e.input).seeAll e.output := by
  simp [ofLog]

/-- **What stands behind the connected state.** In every run whose leases are acquired while one is
waited for or held, the connection reports `connected` only for a live session with the target, after
the association of that very session succeeded and, where the station runs the handshake, after its
pairwise key was installed. -/
theorem connected_covered (device : Device) (profiles : List Profile) (calls : List (Call S))
    (htimely : Machine.Along Timely (Machine.log step (new device profiles) calls)) :
    Machine.Along ReportsCovered (Machine.log step (new device profiles) calls) := by
  have hinit : (ofLog ([] : List (Entry S))).Inv (new device profiles : Connection S) :=
    trivial
  have hstep : ∀ past (c : Connection S) call, (ofLog past).Inv c →
      Timely past (Machine.entry step c call) →
      ((ofLog past).hearCall c call).Keeps (c.step call) :=
    fun past c call hinv ht => keeps_step hinv call ht
  refine Machine.along_of_inv hinit (fun past c call hinv ht => ?_)
    (fun past c call hinv ht => (hstep past c call hinv ht).covered) calls htimely
  rw [ofLog_concat]
  exact (hstep past c call hinv ht).inv

/-! ### Joining an open network -/

/-- The sample network. -/
def sampleBss : Bss where
  bssid := .zero 6
  ssid := [110]
  freqMhz := 2412
  signalDbm := -50
  lastSeenMs := 0
  capability := 1
  security := .open
  rsn := none

/-- An open network is found, joined, and gives an address. -/
def sampleJoin : List (Call .sample) :=
  [.poll .sample (.command (.connect [110])), .poll .sample (.scanResults [sampleBss]),
    .poll .sample (.wireless (.connected none .success)),
    .poll .sample (.lease (.acquired sampleLease))]

theorem connected_covered_sample :
    (Machine.exec step (new sampleDevice [] : Connection .sample) sampleJoin).state = .connected ∧
      Machine.Along ReportsCovered (Machine.log step (new sampleDevice []) sampleJoin) := by
  refine ⟨rfl, connected_covered sampleDevice [] sampleJoin ?_⟩
  rw [Machine.along_log_iff]
  rintro before call after heq draws lease hin
  obtain rfl : call = _ := hin
  match before, heq with
  | [_, _, _], heq =>
    cases heq
    exact .inl rfl
  | _ :: _ :: _ :: _ :: _, heq => exact absurd (congrArg List.length heq) (by simp [sampleJoin])

/-! ### A lease without a session -/

/-- Told to join a network, and then handed the lease of an earlier one. -/
def sampleLate : List (Call .sample) :=
  [.poll .sample (.command (.connect [110])), .poll .sample (.lease (.acquired sampleLease))]

/-- The connection reports that it is up, without a session. -/
theorem connected_uncovered :
    (Machine.exec step (new sampleDevice [] : Connection .sample) sampleLate).state = .connected ∧
      (Machine.exec step (new sampleDevice [] : Connection .sample) sampleLate).session = none ∧
      ¬ Machine.Along ReportsCovered (Machine.log step (new sampleDevice []) sampleLate) := by
  refine ⟨rfl, rfl, fun h => ?_⟩
  obtain ⟨session, target, request, hlinked, -⟩ :=
    h [_] _ [] rfl [.applyLease sampleLease, .clearTimer .scanTimeout] [] rfl
  exact nomatch hlinked.session_eq

end Connection

end Caw
