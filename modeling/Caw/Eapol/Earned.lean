import Caw.Eapol.Peap

/-!
# How PEAP's key is earned

* `Peap.Answers`, `Accepts`, `Grants`: a challenge answered, a success accepted, a result of success;
* `Peap.Earned`: the three in a history, in order;
* `Peap.Wrong`: a result of failure, a success that proves nothing, and a result too early;
* `Peap.Tells`, **`Peap.Tells.step`**: what the state of the method says of its history;
* **`Peap.msk_earned`**: the key is there only once it is earned, and what is wrong is refused and
  leaves the key as it was;
* `Peap.eapMethod`, **`Peap.pmk_earned`**: PEAP under 802.1X, whose PMK is earned by requests of which
  none was refused.
-/

set_option autoImplicit false

namespace Caw

open Eapol (Error)
open Machine (log exec Along Occurs)
open MsChap (firstField)
open Mschapv2 (Reply IsChallenge IsSuccess)

namespace Peap

variable {T : Type} (O : Tunnel T) (C : Ciphers)

/-! ## Histories -/

/-- One request and what came of it. -/
abbrev Event (T : Type) : Type := Machine.Entry (Peap T) Bytes Reply

/-- The request carried this one through the tunnel. -/
def Carries (e : Event T) (requested : UInt8) (data : Bytes) : Prop :=
  ∃ q plaintext id, e.pre.unwrap O e.input = (q, .ok (.established plaintext)) ∧
    Asks plaintext id requested data

/-- The request carried this one, and the inner method answered it. -/
def Says (e : Event T) (requested : UInt8) (data : Bytes) : Prop :=
  ∃ q plaintext id reply, e.pre.unwrap O e.input = (q, .ok (.established plaintext)) ∧
    Asks plaintext id requested data ∧ (q.phase2 C plaintext).2 = some (.ok (some reply))

/-- An inner challenge was answered. -/
def Answers (challenge : Octets 16) (e : Event T) : Prop :=
  ∃ data msId, Says O C e EapType.mschapv2 data ∧ IsChallenge data msId challenge

variable (m : Mschapv2)

/-- An inner success was accepted whose first `S=` field is the authenticator response to the
challenge, for the password of the method. -/
def Accepts (challenge : Octets 16) (e : Event T) : Prop :=
  ∃ data body, Says O C e EapType.mschapv2 data ∧ IsSuccess data body ∧
    firstField body = some (m.authenticatorResponse C challenge).toList

/-- A protected result of success arrived, and was acknowledged. -/
def Grants (e : Event T) : Prop :=
  ∃ data, Says O C e EapType.tlv data ∧ findResultTlv data = some tlvResultSuccess

/-- The challenge has been answered. -/
def Asked (challenge : Octets 16) (past : List (Event T)) : Prop :=
  Occurs (fun _ => Answers O C challenge) past

/-- A challenge was answered, and then the success for it accepted. -/
def Proved (past : List (Event T)) : Prop :=
  Occurs (fun before e => ∃ challenge, Asked O C challenge before ∧ Accepts O C m challenge e) past

/-- And after that the result arrived. -/
def Earned (past : List (Event T)) : Prop :=
  Occurs (fun before e => Proved O C m before ∧ Grants O C e) past

/-- The request is a result of failure, a success that proves nothing, or a result too early. -/
inductive Wrong (past : List (Event T)) (e : Event T) : Prop
  | failure (data) : Carries O e EapType.tlv data → findResultTlv data = some tlvResultFailure →
      Wrong past e
  | response (data body) : Carries O e EapType.mschapv2 data → IsSuccess data body →
      (∀ challenge, Asked O C challenge past →
        firstField body ≠ some (m.authenticatorResponse C challenge).toList) → Wrong past e
  | early (data) : Carries O e EapType.tlv data → findResultTlv data = some tlvResultSuccess →
      ¬ Proved O C m past → Wrong past e

/-- It is answered with an error, and leaves the inner exchange and the key as they were. -/
structure Refused (e : Event T) : Prop where
  failed : ∃ err, e.output = some (.error err)
  inner : e.post.inner = e.pre.inner
  authenticated : e.post.authenticated = e.pre.authenticated
  msk : e.post.msk = e.pre.msk

/-- What the state of the method says of its history. -/
structure Tells (past : List (Event T)) (p : Peap T) : Prop where
  ours : p.inner.authenticatorResponse C = m.authenticatorResponse C
  asked : ∀ x, p.inner.expectedResponse = some x ↔
    ∃ challenge, Asked O C challenge past ∧ x = m.authenticatorResponse C challenge
  waiting : p.inner.expectedResponse = none ↔ p.inner.state = .awaitingChallenge
  proved : p.inner.state = .authenticated ↔ Proved O C m past
  earned : p.authenticated = true → Earned O C m past
  exported : p.authenticated = true → p.tunnelMsk.isSome

section Steps

variable {O C m} {past : List (Event T)} {p q : Peap T} {e : Event T} {plaintext data : Bytes}
  {id requested : UInt8}

theorem carries_iff (h : e.pre.unwrap O e.input = (q, .ok (.established plaintext))) :
    Carries O e requested data ↔ ∃ id, Asks plaintext id requested data := by
  constructor
  · rintro ⟨q', plaintext', id, h', hasks⟩
    cases h.symm.trans h'
    exact ⟨id, hasks⟩
  · rintro ⟨id, hasks⟩
    exact ⟨q, plaintext, id, h, hasks⟩

theorem Says.carries (h : Says O C e requested data) : Carries O e requested data := by
  obtain ⟨q, plaintext, id, -, hunwrap, hasks, -⟩ := h
  exact ⟨q, plaintext, id, hunwrap, hasks⟩

theorem Carries.unique {requested' : UInt8} {data' : Bytes} (h : Carries O e requested data)
    (h' : Carries O e requested' data') : requested = requested' ∧ data = data' := by
  obtain ⟨q, plaintext, id, hunwrap, hasks⟩ := h
  obtain ⟨id', hasks'⟩ := (carries_iff hunwrap).mp h'
  exact hasks.unique hasks'

theorem not_answers_of_tlv (h : Carries O e EapType.tlv data) (challenge : Octets 16) :
    ¬ Answers O C challenge e := by
  rintro ⟨_, _, hsaid, -⟩
  exact nomatch (h.unique hsaid.carries).1

theorem not_accepts_of_tlv (h : Carries O e EapType.tlv data) (challenge : Octets 16) :
    ¬ Accepts O C m challenge e := by
  rintro ⟨_, _, hsaid, -⟩
  exact nomatch (h.unique hsaid.carries).1

theorem not_accepts_of_challenge {msId : UInt8} {challenge : Octets 16}
    (h : Carries O e EapType.mschapv2 data) (hchallenge : IsChallenge data msId challenge)
    (challenge' : Octets 16) : ¬ Accepts O C m challenge' e := by
  rintro ⟨data', body, hsaid, hsuccess, -⟩
  obtain ⟨-, rfl⟩ := h.unique hsaid.carries
  exact hsuccess.not_isChallenge msId challenge hchallenge

theorem not_answers_of_success {body : Bytes} (h : Carries O e EapType.mschapv2 data)
    (hsuccess : IsSuccess data body) (challenge : Octets 16) : ¬ Answers O C challenge e := by
  rintro ⟨data', msId, hsaid, hchallenge⟩
  obtain ⟨-, rfl⟩ := h.unique hsaid.carries
  exact hsuccess.not_isChallenge msId challenge hchallenge

/-! ### What a history gains -/

theorem asked_concat (challenge : Octets 16) :
    Asked O C challenge (past ++ [e]) ↔ Asked O C challenge past ∨ Answers O C challenge e :=
  Machine.occurs_concat past e

theorem proved_concat : Proved O C m (past ++ [e]) ↔ Proved O C m past ∨
    ∃ challenge, Asked O C challenge past ∧ Accepts O C m challenge e :=
  Machine.occurs_concat past e

theorem earned_concat : Earned O C m (past ++ [e]) ↔
    Earned O C m past ∨ (Proved O C m past ∧ Grants O C e) :=
  Machine.occurs_concat past e

theorem Tells.earned_of_msk (h : Tells O C m past p) (hmsk : p.msk.isSome) : Earned O C m past := by
  refine h.earned ?_
  unfold msk at hmsk
  split_ifs at hmsk with hauthenticated
  · exact hauthenticated
  · cases hmsk

theorem Tells.quiet (h : Tells O C m past p) (hinner : q.inner = p.inner)
    (hauthenticated : q.authenticated = p.authenticated)
    (hmsk : p.tunnelMsk.isSome → q.tunnelMsk.isSome)
    (hanswers : ∀ challenge, ¬ Answers O C challenge e)
    (haccepts : ∀ challenge, ¬ Accepts O C m challenge e) : Tells O C m (past ++ [e]) q := by
  refine ⟨by rw [hinner]; exact h.ours, fun x => ?_, by rw [hinner]; exact h.waiting, ?_, ?_, ?_⟩
  · rw [hinner, h.asked]
    simp only [asked_concat, hanswers, or_false]
  · rw [hinner, h.proved, proved_concat]
    simp only [haccepts, and_false, exists_false, or_false]
  · rw [hauthenticated, earned_concat]
    exact fun hpost => .inl (h.earned hpost)
  · rw [hauthenticated]
    exact fun hpost => hmsk (h.exported hpost)

theorem Tells.challenged {msId : UInt8} {challenge : Octets 16} (h : Tells O C m past p)
    (hinner : q.inner = p.inner.answered C challenge)
    (hauthenticated : q.authenticated = p.authenticated) (hmsk : q.tunnelMsk.isSome)
    (hst : p.inner.state = .awaitingChallenge) (hsaid : Says O C e EapType.mschapv2 data)
    (hchallenge : IsChallenge data msId challenge) : Tells O C m (past ++ [e]) q := by
  have hnone := h.waiting.mpr hst
  have hunasked : ∀ challenge, ¬ Asked O C challenge past := by
    intro challenge hasked
    exact nomatch hnone.symm.trans ((h.asked _).mpr ⟨challenge, hasked, rfl⟩)
  have hanswers : ∀ challenge', Answers O C challenge' e ↔ challenge' = challenge := by
    intro challenge'
    constructor
    · rintro ⟨data', msId', hsaid', r', hparse', -, -, hbody'⟩
      obtain ⟨-, rfl⟩ := hsaid.carries.unique hsaid'.carries
      obtain ⟨r, hparse, -, -, hbody⟩ := hchallenge
      cases hparse.symm.trans hparse'
      exact Except.ok.inj (hbody'.symm.trans hbody)
    · rintro rfl
      exact ⟨data, msId, hsaid, hchallenge⟩
  have haccepts := fun challenge' =>
    not_accepts_of_challenge (C := C) (m := m) hsaid.carries hchallenge challenge'
  have hours : p.inner.authenticatorResponse C challenge = m.authenticatorResponse C challenge := by
    rw [h.ours]
  refine ⟨?_, fun x => ?_, ?_, ?_, ?_, fun _ => hmsk⟩
  · rw [hinner]
    exact h.ours
  · rw [hinner]
    simp only [asked_concat, hunasked, hanswers, false_or, exists_eq_left]
    show some (p.inner.authenticatorResponse C challenge) = some x ↔ _
    rw [hours, Option.some_inj, eq_comm]
  · rw [hinner]
    exact ⟨fun hno => (nomatch hno), fun hno => (nomatch hno)⟩
  · rw [hinner, proved_concat, ← h.proved, hst]
    simp only [haccepts, and_false, exists_false, or_false]
    exact ⟨fun hno => (nomatch hno), fun hno => (nomatch hno)⟩
  · rw [hauthenticated, earned_concat]
    exact fun hpost => .inl (h.earned hpost)

theorem Tells.accepted {body : Bytes} {expected : Octets 42} (h : Tells O C m past p)
    (hinner : q.inner = p.inner.verified) (hauthenticated : q.authenticated = p.authenticated)
    (hmsk : q.tunnelMsk.isSome) (hexpected : p.inner.expectedResponse = some expected)
    (hsaid : Says O C e EapType.mschapv2 data) (hsuccess : IsSuccess data body)
    (hfield : firstField body = some expected.toList) : Tells O C m (past ++ [e]) q := by
  have hanswers := fun challenge =>
    not_answers_of_success (C := C) hsaid.carries hsuccess challenge
  obtain ⟨challenge, hasked, rfl⟩ := (h.asked _).mp hexpected
  refine ⟨?_, fun x => ?_, ?_, ?_, ?_, fun _ => hmsk⟩
  · rw [hinner]
    exact h.ours
  · rw [hinner]
    simp only [asked_concat, hanswers, or_false]
    exact h.asked x
  · rw [hinner]
    refine ⟨fun hno => ?_, fun hno => (nomatch hno)⟩
    cases hexpected.symm.trans hno
  · rw [hinner, proved_concat]
    exact ⟨fun _ => .inr ⟨challenge, hasked, data, body, hsaid, hsuccess, hfield⟩, fun _ => rfl⟩
  · rw [hauthenticated, earned_concat]
    exact fun hpost => .inl (h.earned hpost)

theorem Tells.granted (h : Tells O C m past p) (hinner : q.inner = p.inner) (hmsk : q.tunnelMsk.isSome)
    (hproved : p.inner.authenticated = true) (hsaid : Says O C e EapType.tlv data)
    (hfind : findResultTlv data = some tlvResultSuccess) : Tells O C m (past ++ [e]) q := by
  have hpast : Proved O C m past := h.proved.mp (of_decide_eq_true hproved)
  refine ⟨by rw [hinner]; exact h.ours, fun x => ?_, by rw [hinner]; exact h.waiting, ?_, ?_,
    fun _ => hmsk⟩
  · rw [hinner, h.asked]
    simp only [asked_concat, not_answers_of_tlv hsaid.carries, or_false]
  · rw [hinner, h.proved, proved_concat]
    simp only [not_accepts_of_tlv hsaid.carries, and_false, exists_false, or_false]
  · rw [earned_concat]
    exact fun _ => .inr ⟨hpast, data, hsaid, hfind⟩

/-- A request that carries nothing of MSCHAPv2 and no result, or one that is not answered. -/
theorem not_says_of_unanswered {o : Reply} (hunwrap : e.pre.unwrap O e.input =
      (q, .ok (.established plaintext))) (hphase : (q.phase2 C plaintext).2 = o)
    (hquiet : Unanswered plaintext o) (h : Says O C e requested data) :
    ¬ (requested = EapType.mschapv2 ∨ requested = EapType.tlv) := by
  intro heither
  obtain ⟨q', plaintext', id, reply, hunwrap', hasks, hreply⟩ := h
  cases hunwrap.symm.trans hunwrap'
  exact hquiet id requested data hasks heither reply (hphase.symm.trans hreply)

theorem not_says_of_outside (hempty : ∀ q plaintext,
      e.pre.unwrap O e.input = (q, .ok (.established plaintext)) → plaintext = []) :
    ¬ Says O C e requested data := by
  rintro ⟨q, plaintext, id, reply, hunwrap, ⟨packet, hparse, -⟩, -⟩
  rw [hempty q plaintext hunwrap] at hparse
  cases hparse

theorem tells_quiet (h : Tells O C m past p) (hinner : q.inner = p.inner)
    (hauthenticated : q.authenticated = p.authenticated)
    (hmsk : p.tunnelMsk.isSome → q.tunnelMsk.isSome)
    (hsaid : ∀ data, ¬ Says O C e EapType.mschapv2 data) : Tells O C m (past ++ [e]) q := by
  refine h.quiet hinner hauthenticated hmsk ?_ ?_
  · rintro challenge ⟨data, msId, h, -⟩
    exact hsaid data h
  · rintro challenge ⟨data, body, h, -⟩
    exact hsaid data h

variable (O C) in
/-- **Every request keeps it.** -/
theorem Tells.step (h : Tells O C m past p) (request : Bytes) :
    Tells O C m (past ++ [Machine.entry (onRequest O C) p request]) (p.onRequest O C request).1 := by
  obtain ⟨hinner, -, hauthenticated, hmsk⟩ := unwrap_kept (O := O) (p := p) request
  by_cases hinside : ∃ q plaintext,
      p.unwrap O request = (q, .ok (.established plaintext)) ∧ plaintext ≠ []
  · obtain ⟨q, plaintext, hunwrap, hne⟩ := hinside
    have hexported := unwrap_established hunwrap
    rw [hunwrap] at hinner hauthenticated
    dsimp only at hinner hauthenticated
    have hsame := tunnelled_same (O := O) (C := C) (p := q) plaintext
    rw [← onRequest_inside hunwrap hne] at hsame
    have hstep := phase2_step (C := C) (p := q) plaintext
    generalize hphase : q.phase2 C plaintext = r at hsame hstep
    obtain ⟨q', o⟩ := r
    have houtput : (q.phase2 C plaintext).2 = o := by rw [hphase]
    cases hstep with
    | quiet o hquiet =>
      refine tells_quiet h (hsame.inner.trans hinner) (hsame.authenticated.trans hauthenticated)
        (fun _ => hsame.tunnelMsk ▸ hexported) fun data hsaid => ?_
      exact not_says_of_unanswered (C := C) hunwrap houtput hquiet hsaid (.inl rfl)
    | challenged id data msId challenge reply hasks hchallenge hst =>
      refine h.challenged (hsame.inner.trans ?_) (hsame.authenticated.trans hauthenticated)
        (hsame.tunnelMsk ▸ hexported) (hinner ▸ hst)
        ⟨q, plaintext, id, reply, hunwrap, hasks, houtput⟩ hchallenge
      rw [← hinner]
    | proved id data body expected reply hasks hsuccess hst hexpected hfield =>
      refine h.accepted (hsame.inner.trans ?_) (hsame.authenticated.trans hauthenticated)
        (hsame.tunnelMsk ▸ hexported) (hinner ▸ hexpected)
        ⟨q, plaintext, id, reply, hunwrap, hasks, houtput⟩ hsuccess hfield
      rw [← hinner]
    | granted id data reply hasks hfind hproved =>
      exact h.granted (hsame.inner.trans hinner) (hsame.tunnelMsk ▸ hexported) (hinner ▸ hproved)
        ⟨q, plaintext, id, reply, hunwrap, hasks, houtput⟩ hfind
  · have hempty : ∀ q plaintext,
        p.unwrap O request = (q, .ok (.established plaintext)) → plaintext = [] := by
      intro q plaintext hunwrap
      by_contra hne
      exact hinside ⟨q, plaintext, hunwrap, hne⟩
    rw [onRequest_outside hempty]
    exact tells_quiet h hinner hauthenticated (fun hsome => hmsk hsome ▸ hsome)
      fun data => not_says_of_outside hempty

/-! ### What is wrong is refused -/

theorem refused_of_phase2 {x : Error} (h : Tells O C m past p) {request : Bytes}
    (hunwrap : p.unwrap O request = (q, .ok (.established plaintext))) (hne : plaintext ≠ [])
    (hphase : q.phase2 C plaintext = (q, some (.error x))) :
    Refused (Machine.entry (onRequest O C) p request) := by
  obtain ⟨hinner, -, hauthenticated, hmsk⟩ := unwrap_kept (O := O) (p := p) request
  rw [hunwrap] at hinner hauthenticated hmsk
  have hresult : p.onRequest O C request = (q, some (.error x)) := by
    rw [onRequest_inside hunwrap hne, tunnelled_error hphase]
  refine ⟨⟨x, by rw [Machine.entry_output, hresult]⟩, ?_, ?_, ?_⟩
  · rw [Machine.entry_post, hresult]
    exact hinner
  · rw [Machine.entry_post, hresult]
    exact hauthenticated
  · rw [Machine.entry_post, hresult]
    show q.msk = p.msk
    unfold msk
    rw [show q.authenticated = p.authenticated from hauthenticated]
    by_cases hgranted : p.authenticated = true
    · rw [if_pos hgranted, if_pos hgranted]
      exact hmsk (h.exported hgranted)
    · rw [if_neg hgranted, if_neg hgranted]

theorem Asks.ne_nil (h : Asks plaintext id requested data) : plaintext ≠ [] := by
  obtain ⟨packet, hparse, -⟩ := h
  rintro rfl
  cases hparse

variable (O C) in
/-- **What is wrong is refused.** -/
theorem Tells.refused (h : Tells O C m past p) (request : Bytes)
    (hwrong : Wrong O C m past (Machine.entry (onRequest O C) p request)) :
    Refused (Machine.entry (onRequest O C) p request) := by
  have hinner : ∀ {q plaintext}, p.unwrap O request = (q, .ok (.established plaintext)) →
      q.inner = p.inner := by
    intro q plaintext hunwrap
    have hkept := (unwrap_kept (O := O) (p := p) request).inner
    rwa [hunwrap] at hkept
  cases hwrong with
  | failure data hcarries hfind =>
    obtain ⟨q, plaintext, id, hunwrap, hasks⟩ := hcarries
    refine refused_of_phase2 h hunwrap hasks.ne_nil (x := .rejected) ?_
    rw [hasks.phase2_tlv, onResultTlv, hfind]
    rfl
  | response data body hcarries hsuccess hwrong =>
    obtain ⟨q, plaintext, id, hunwrap, hasks⟩ := hcarries
    have hunproved : ∀ expected, q.inner.state = .awaitingSuccess →
        q.inner.expectedResponse = some expected → firstField body ≠ some expected.toList := by
      intro expected _ hexpected
      rw [hinner hunwrap] at hexpected
      obtain ⟨challenge, hasked, rfl⟩ := (h.asked _).mp hexpected
      exact hwrong challenge hasked
    obtain ⟨err, hrefuses⟩ := Mschapv2.onRequest_wrong (C := C) hsuccess hunproved
    refine refused_of_phase2 h hunwrap hasks.ne_nil (x := err) ?_
    rw [hasks.phase2_mschapv2, onMschapv2, hrefuses]
    rfl
  | early data hcarries hfind hunproved =>
    obtain ⟨q, plaintext, id, hunwrap, hasks⟩ := hcarries
    have hnot : q.inner.authenticated = false := by
      rw [hinner hunwrap]
      exact decide_eq_false fun hst => hunproved (h.proved.mp hst)
    refine refused_of_phase2 h hunwrap hasks.ne_nil (x := .prematureSuccess) ?_
    rw [hasks.phase2_tlv, onResultTlv, hfind]
    simp [tlvResultSuccess, tlvResultFailure, hnot]

end Steps

/-! ## Runs -/

section Runs

variable (tunnel : T) (identity password : String) (peerChallenge : Octets 16)

theorem tells_new : Tells O C (Mschapv2.withPeerChallenge identity password peerChallenge) []
    (new tunnel identity password peerChallenge) where
  ours := rfl
  asked x := by
    constructor
    · exact fun h => (nomatch h)
    · rintro ⟨challenge, hasked, -⟩
      exact absurd hasked Machine.not_occurs_nil
  waiting := ⟨fun _ => rfl, fun _ => rfl⟩
  proved := ⟨fun h => (nomatch h), fun h => absurd h Machine.not_occurs_nil⟩
  earned h := nomatch h
  exported h := nomatch h

variable (requests : List Bytes)

theorem tells_run : Tells O C (Mschapv2.withPeerChallenge identity password peerChallenge)
    (log (onRequest O C) (new tunnel identity password peerChallenge) requests)
    (exec (onRequest O C) (new tunnel identity password peerChallenge) requests) :=
  Machine.run_induction (G := fun _ _ => True) (tells_new O C tunnel identity password peerChallenge)
    (fun _ _ request h _ => h.step O C request) requests fun _ _ _ _ => trivial

/-- **The key is earned.** After every run of requests, over whatever tunnel, the key is there only if
a challenge was answered, then the success for that challenge and the password accepted, and then a
result of success received, in that order; and a result of failure, a success that proves nothing and
a result too early are refused, with the key left as it was. -/
theorem msk_earned :
    ((exec (onRequest O C) (new tunnel identity password peerChallenge) requests).msk.isSome →
      Earned O C (Mschapv2.withPeerChallenge identity password peerChallenge)
        (log (onRequest O C) (new tunnel identity password peerChallenge) requests)) ∧
    Along (fun past e =>
        Wrong O C (Mschapv2.withPeerChallenge identity password peerChallenge) past e → Refused e)
      (log (onRequest O C) (new tunnel identity password peerChallenge) requests) :=
  ⟨(tells_run O C tunnel identity password peerChallenge requests).earned_of_msk,
    Machine.along_of_inv (G := fun _ _ => True)
      (tells_new O C tunnel identity password peerChallenge)
      (fun _ _ request h _ => h.step O C request)
      (fun _ _ request h _ hwrong => h.refused O C request hwrong) requests fun _ _ _ _ => trivial⟩

end Runs

/-! ## Under 802.1X -/

section Provider

/-- PEAP as a method of 802.1X, for a name that fits. -/
def eapMethod : EapMethod { p : Peap T // p.Fits } where
  typeCode _ := EapType.peap
  onRequest p data := (⟨(p.1.onRequest O C data).1, (onRequest_fitting p.2 data).fits⟩,
    (p.1.onRequest O C data).2.get (onRequest_fitting p.2 data).isSome)
  msk p := p.1.msk

variable {O C} {p₀ : Peap T} {provider : Dot1xProvider { p : Peap T // p.Fits }}

/-- The method is where a run of requests has left it, and a provider that is still running has seen
none of them fail. -/
def Driven (O : Tunnel T) (C : Ciphers) (p₀ : Peap T)
    (provider : Dot1xProvider { p : Peap T // p.Fits }) : Prop :=
  ∃ requests, provider.method.1 = exec (onRequest O C) p₀ requests ∧ (provider.state = .running →
    ∀ e ∈ log (onRequest O C) p₀ requests, ∀ err, e.output ≠ some (.error err))

theorem Driven.step (h : Driven O C p₀ provider) (i : Dot1xProvider.Input) :
    Driven O C p₀ (provider.call (eapMethod O C) i).1 := by
  obtain ⟨requests, hmethod, hclean⟩ := h
  have hover := (@Dot1xProvider.call_step _ (eapMethod O C) provider i).2
  have hwas : (provider.call (eapMethod O C) i).1.state = .running → provider.state = .running := by
    intro hrun
    by_contra hno
    exact hover (.inl hno) hrun
  rcases @Dot1xProvider.call_drives _ (eapMethod O C) provider i with
    hsame | ⟨data, hdriven, hfailed⟩
  · exact ⟨requests, by rw [hsame, hmethod], fun hrun => hclean (hwas hrun)⟩
  · refine ⟨requests ++ [data], ?_, fun hrun e he err herr => ?_⟩
    · rw [hdriven, Machine.exec_concat, ← hmethod]
      rfl
    · rw [Machine.log_concat] at he
      rcases List.mem_append.mp he with he | he
      · exact hclean (hwas hrun) e he err herr
      · rw [List.mem_singleton.mp he, Machine.entry_output, ← hmethod] at herr
        refine hfailed ⟨err, ?_⟩ hrun
        show (provider.method.1.onRequest O C data).2.get _ = .error err
        simp only [herr, Option.get_some]

variable (tunnel : T) (identity password : String) (peerChallenge : Octets 16)

/-- **A PMK of 802.1X over PEAP is earned**, by requests of which none was refused. -/
theorem pmk_earned (hfits : (new tunnel identity password peerChallenge).Fits) (outer : String)
    (inputs : List Dot1xProvider.Input) :
    Along (fun _ e => ∀ pmk, Dot1xProvider.donePmk e.output = some pmk → ∃ requests,
        e.pre.method.1 = exec (onRequest O C) (new tunnel identity password peerChallenge) requests ∧
        (∀ e' ∈ log (onRequest O C) (new tunnel identity password peerChallenge) requests,
          ∀ err, e'.output ≠ some (.error err)) ∧
        Earned O C (Mschapv2.withPeerChallenge identity password peerChallenge)
          (log (onRequest O C) (new tunnel identity password peerChallenge) requests))
      (log (Dot1xProvider.call (eapMethod O C)) (Dot1xProvider.new outer ⟨_, hfits⟩) inputs) := by
  have hinit : Driven O C (new tunnel identity password peerChallenge)
      (Dot1xProvider.new outer ⟨_, hfits⟩) := ⟨[], rfl, fun _ _ he => nomatch he⟩
  refine Machine.along_of_inv (J := fun _ => Driven O C (new tunnel identity password peerChallenge))
    (G := fun _ _ => True) hinit (fun _ _ i h _ => h.step i) ?_ inputs fun _ _ _ _ => trivial
  intro _ provider i h _ pmk hpmk
  obtain ⟨requests, hmethod, hclean⟩ := h
  obtain ⟨hrun, -, msk, -, -, hmsk, -⟩ :=
    (@Dot1xProvider.call_step _ (eapMethod O C) provider i).1 pmk hpmk
  have hkey : provider.method.1.msk = some msk := hmsk
  refine ⟨requests, hmethod, hclean hrun, ?_⟩
  refine (tells_run O C tunnel identity password peerChallenge requests).earned_of_msk ?_
  rw [← hmethod, hkey]
  rfl

end Provider

end Peap

/-! ### A server that knows the password -/

/-- Functions of the right shape that evaluate at once. -/
def Ciphers.sample : Ciphers where
  md4 b := Bytes.slice 0 16 b
  sha1 b := Bytes.slice 0 20 b.reverse
  des _ block := block

/-- A tunnel that hands over what it is given. -/
def Tunnel.sample : Tunnel Unit where
  onRequest _ data := ((), .ok (.established data))
  emptyReply _ := [0]
  sendTunnelled _ plaintext := ((), .ok plaintext)
  exportMsk _ _ _ := .ok (.zero 64)

namespace Peap

/-- An inner request. -/
def innerRequest (requested : UInt8) (data : Bytes) : Bytes :=
  (EapPacket.encode .request 1 (requested :: data)).getD []

/-- The inner method of the samples. -/
def sampleInner : Mschapv2 := Mschapv2.withPeerChallenge "u" "p" (.zero 16)

/-- A challenge inside the tunnel. -/
def sampleChallenge : Bytes :=
  innerRequest EapType.mschapv2
    ((Mschapv2.message Mschapv2.opChallenge 7 (16 :: List.replicate 16 1)).getD [])

/-- A success inside the tunnel, with the right proof. -/
def sampleSuccess : Bytes :=
  innerRequest EapType.mschapv2 ((Mschapv2.message Mschapv2.opSuccess 8
    (sampleInner.authenticatorResponse Ciphers.sample (.replicate 16 1)).toList).getD [])

/-- Result TLVs inside the tunnel. -/
def sampleResult (results : List ℕ) : Bytes := innerRequest EapType.tlv (results.flatMap resultTlv)

/-- The method of the samples. -/
def samplePeap : Peap Unit := new () "u" "p" (.zero 16)

/-- A result of success is believed with one of failure behind it in the same packet, and the key is
there. A result of failure by itself is refused; but that neither keeps the key from those who go on,
nor takes back one already earned. -/
theorem failure_behind_success :
    { tlvType := tlvResult, value := Bytes.toBE 2 tlvResultFailure } ∈
      Walk.items nextTlv 12 (resultTlv tlvResultSuccess ++ resultTlv tlvResultFailure) ∧
    (exec (onRequest Tunnel.sample Ciphers.sample) samplePeap
      [sampleChallenge, sampleSuccess, sampleResult [tlvResultSuccess, tlvResultFailure]]).msk.isSome ∧
    (samplePeap.onRequest Tunnel.sample Ciphers.sample (sampleResult [tlvResultFailure])).2 =
      some (.error .rejected) ∧
    (exec (onRequest Tunnel.sample Ciphers.sample) samplePeap
      [sampleResult [tlvResultFailure], sampleChallenge, sampleSuccess,
        sampleResult [tlvResultSuccess]]).msk.isSome ∧
    (exec (onRequest Tunnel.sample Ciphers.sample) samplePeap
      [sampleChallenge, sampleSuccess, sampleResult [tlvResultSuccess],
        sampleResult [tlvResultFailure]]).msk.isSome := by
  decide +kernel

end Peap

end Caw
