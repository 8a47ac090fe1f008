import Caw.Core.Rekey
import Caw.Core.Saved
import Caw.Core.Sessions

/-!
# The passphrase a join stores

A profile is saved with the passphrase of the target; the link was keyed with the one in hand when its
session was begun.

* `Session.RunsOn`, `Connection.Carries`, `carries_move`: the PMK of a session is the one it began with;
* `Session.ExchangedWith`, `Connection.Exchanged`, `exchanges_move`: or the one its SAE exchange
  returned, under the password it began with;
* `Keyring`: the passphrase a history sent last, and the credential of the session it began last;
* `Connection.Attested`, `Connection.Attested.poll`: the invariant, and what one poll keeps of it;
* **`saved_credential_iff`**: what is saved is what the session runs on exactly when it stands and no
  other passphrase has been sent since it began;
* `saved_unproven`: a run that stores a passphrase the access point has never seen.
-/

set_option autoImplicit false

namespace Caw

open Caw.Core

variable {S : Platform}

/-! ## What a session runs on -/

theorem FourWay.poll_pmk (P : Primitives) (h : FourWay) (input : Input) :
    (h.poll P input).1.pmk = h.pmk := by
  have hstep := FourWay.poll_step (P := P) h input
  generalize h.poll P input = polled at hstep
  obtain ⟨h', x⟩ := polled
  cases hstep <;> rfl

theorem Connection.saeCall_password (provider : SaeProvider S.curve) (ctx : AuthContext)
    (event : SaeEvent) : (saeCall provider ctx event).1.password = provider.password := by
  cases event with
  | start =>
    rw [saeCall, SaeProvider.startCall]
    cases hr : provider.start S.prim ctx with
    | error e => rfl
    | ok q =>
      obtain ⟨p', st⟩ := q
      obtain ⟨-, commit, -, rfl, -⟩ := SaeProvider.start_eq_ok hr
      rfl
  | frame bytes =>
    have hstep := SaeProvider.onFrame_step (P := S.prim) provider bytes
    rw [saeCall]
    generalize provider.onFrame S.prim bytes = q at hstep
    obtain ⟨p', x⟩ := q
    cases hstep with
    | keep => rfl
    | fail => rfl
    | token => rfl
    | confirm => rfl
    | commit commit auth p' st hst hauth hseq hstatus hok =>
      obtain ⟨_, _, _, _, _, -, -, -, -, -, rfl, -⟩ := SaeProvider.onCommit_eq_ok hok
      rfl
  | timeout =>
    obtain ⟨sync, hp, -⟩ := SaeProvider.onTimeout_eq provider
    rw [saeCall, hp]

theorem Connection.saeCall_done {provider : SaeProvider S.curve} {ctx : AuthContext}
    {event : SaeEvent} {pmk : Pmk} (h : (saeCall provider ctx event).2 = .ok (.done pmk)) :
    ∃ body, event = .frame body ∧ (provider.onFrame S.prim body).2 = .ok (.done pmk) := by
  cases event with
  | start =>
    rw [saeCall, SaeProvider.startCall] at h
    cases hr : provider.start S.prim ctx with
    | error e => rw [hr] at h; cases h
    | ok q =>
      obtain ⟨p', st⟩ := q
      obtain ⟨-, commit, -, -, rfl⟩ := SaeProvider.start_eq_ok hr
      rw [hr] at h
      cases h
  | frame bytes => exact ⟨bytes, rfl, h⟩
  | timeout =>
    obtain ⟨sync, -, hsilent | ⟨hsent, -⟩⟩ := SaeProvider.onTimeout_eq provider
    · rw [saeCall] at h
      rw [h] at hsilent
      cases hsilent
    · rw [saeCall, hsent] at h
      cases h

namespace Core

/-- The session has a PMK in hand or with its handshake, and no exchange that would give it another. -/
structure Session.RunsOn (session : Session S) (pmk : Pmk) : Prop where
  preAssoc : ∀ provider, session.auth ≠ .preAssoc provider
  postAssoc : ∀ provider, session.auth ≠ .postAssoc provider
  ready : ∀ inHand, session.auth = .ready inHand → inHand = pmk
  handshake : ∀ handshake, session.handshake = some handshake → handshake.pmk = pmk

theorem Session.RunsOn.of_open {session : Session S} {pmk : Pmk} (hauth : session.auth = .open)
    (hhandshake : session.handshake = none) : session.RunsOn pmk := by
  refine ⟨fun _ h => ?_, fun _ h => ?_, fun _ h => ?_, fun _ h => ?_⟩
  · exact nomatch hauth.symm.trans h
  · exact nomatch hauth.symm.trans h
  · exact nomatch hauth.symm.trans h
  · exact nomatch hhandshake.symm.trans h

/-- The SAE exchange of the session meets `Runs`, and every PMK it has had from one `Returned`. -/
structure Session.ExchangedWith (session : Session S) (Runs : SaeProvider S.curve → Prop)
    (Returned : Pmk → Prop) : Prop where
  preAssoc : ∀ provider, session.auth = .preAssoc provider → Runs provider
  postAssoc : ∀ provider, session.auth ≠ .postAssoc provider
  ready : ∀ inHand, session.auth = .ready inHand → Returned inHand
  handshake : ∀ handshake, session.handshake = some handshake → Returned handshake.pmk

theorem Session.ExchangedWith.mono {session : Session S} {Runs : SaeProvider S.curve → Prop}
    {Returned Returned' : Pmk → Prop} (h : session.ExchangedWith Runs Returned)
    (hmono : ∀ pmk, Returned pmk → Returned' pmk) : session.ExchangedWith Runs Returned' :=
  ⟨h.preAssoc, h.postAssoc, fun _ hauth => hmono _ (h.ready _ hauth),
    fun _ hs => hmono _ (h.handshake _ hs)⟩

theorem Session.runsOn_iff {session : Session S} {pmk : Pmk} :
    session.RunsOn pmk ↔ session.ExchangedWith (fun _ => False) (· = pmk) :=
  ⟨fun h => ⟨h.preAssoc, h.postAssoc, h.ready, h.handshake⟩,
    fun h => ⟨h.preAssoc, h.postAssoc, h.ready, h.handshake⟩⟩

end Core

namespace Connection

variable {c c' : Connection S} {draws : Draws S} {r : Connection S × List Action}

/-- **A session that advances has its PMK of the same exchange.** -/
theorem Advance.exchangedWith {session session' : Session S} {Runs : SaeProvider S.curve → Prop}
    {Returned : Pmk → Prop} (h : c.Advance session session')
    (hex : session.ExchangedWith Runs Returned) : session'.ExchangedWith Runs Returned := by
  cases h with
  | same => exact hex
  | heard => exact ⟨hex.preAssoc, hex.postAssoc, hex.ready, hex.handshake⟩
  | joined => exact ⟨nofun, nofun, nofun, hex.handshake⟩
  | ready inHand n snonce hauth =>
    refine ⟨nofun, nofun, nofun, ?_⟩
    rintro _ ⟨⟩
    exact hex.ready inHand hauth
  | asked provider provider' hauth => exact absurd hauth (hex.postAssoc provider)
  | derived provider inHand n snonce hauth => exact absurd hauth (hex.postAssoc provider)
  | polled handshake input hhandshake =>
    refine ⟨hex.preAssoc, hex.postAssoc, hex.ready, ?_⟩
    rintro _ ⟨⟩
    rw [FourWay.poll_pmk]
    exact hex.handshake handshake hhandshake

/-- **A session that advances runs on what it ran on.** -/
theorem Advance.runsOn {session session' : Session S} {pmk : Pmk}
    (h : c.Advance session session') (hruns : session.RunsOn pmk) : session'.RunsOn pmk :=
  Session.runsOn_iff.mpr (h.exchangedWith (Session.runsOn_iff.mp hruns))

/-- **An exchange that is driven** keeps its password, and leaves a PMK that it returned. -/
theorem exchangedWith_saeDriven {event : SaeEvent} {session session' : Session S}
    {password : String} {Returned : Pmk → Prop} (hd : SaeDriven c event r)
    (hsession : c.session = some session) (hsession' : r.1.session = some session')
    (hex : session.ExchangedWith (·.password = password) Returned)
    (hdone : ∀ provider body pmk, session.auth = .preAssoc provider → event = .frame body →
      (provider.onFrame S.prim body).2 = .ok (.done pmk) → Returned pmk) :
    session'.ExchangedWith (·.password = password) Returned := by
  have hgone : ∀ (c : Connection S) failure, (c.fail failure).1.session ≠ some session' :=
    fun c failure h => nomatch (fail_session c failure).symm.trans h
  cases hd with
  | off =>
    cases hsession.symm.trans hsession'
    exact hex
  | call target session₀ provider q r htarget hsession₀ hauth hq hm =>
    cases hsession.symm.trans hsession₀
    have hpassword : q.1.password = password := by
      rw [← hq, saeCall_password]
      exact hex.preAssoc provider hauth
    have hkept : (session.withAuth (.preAssoc q.1)).ExchangedWith (·.password = password) Returned := by
      refine ⟨?_, nofun, nofun, hex.handshake⟩
      rintro _ ⟨⟩
      exact hpassword
    obtain ⟨p', x⟩ := q
    cases hm with
    | wait =>
      cases hsession'
      exact hkept
    | send frame request hrequest =>
      cases hsession'
      exact hkept
    | noBody => exact absurd hsession' (hgone _ _)
    | fail => exact absurd hsession' (hgone _ _)
    | done target' session₁ pmk htarget' hsession₁ =>
      cases hsession₁
      obtain ⟨body, hevent, hreturned⟩ := saeCall_done (congrArg Prod.snd hq)
      rw [associateWith_fst] at hsession'
      cases hsession'
      refine ⟨nofun, nofun, ?_, hex.handshake⟩
      rintro _ ⟨⟩
      exact hdone provider body pmk hauth hevent hreturned

/-- A session that is left runs on what it ran on. -/
def Carries (c c' : Connection S) : Prop :=
  ∀ session', c'.session = some session' →
    ∃ session, c.session = some session ∧ ∀ pmk, session.RunsOn pmk → session'.RunsOn pmk

theorem carries_of_eq (h : c'.session = c.session) : c.Carries c' := fun session' hs =>
  ⟨session', h ▸ hs, fun _ => id⟩

theorem carries_saeDriven {event : SaeEvent} (hd : SaeDriven c event r) : c.Carries r.1 := by
  cases hd with
  | off => exact carries_of_eq rfl
  | call target session provider q r htarget hsession hauth hq hm =>
    exact fun _ _ => ⟨session, hsession, fun _ hruns => absurd hauth (hruns.preAssoc provider)⟩

/-- **A poll that plans for nothing leaves the session what it runs on.** -/
theorem carries_move {input : Input} (hplans : c.plans input = none) (hm : Move c draws input r) :
    c.Carries r.1 := by
  rcases hm.advances hplans with hadvances | ⟨event, -, hd⟩
  · intro session' hs
    obtain ⟨session, hsession, hadvance⟩ := hadvances.session session' hs
    exact ⟨session, hsession, fun pmk => hadvance.runsOn⟩
  · exact carries_saeDriven hd

/-- The entry of a poll. -/
abbrev polled (c : Connection S) (draws : Draws S) (input : Input)
    (r : Connection S × List Action) : Entry S :=
  ⟨c, .poll draws input, r.2, r.1⟩

/-- An authentication frame of the history has had an SAE exchange with this password return the
PMK. -/
def Exchanged (past : List (Entry S)) (password : String) (pmk : Pmk) : Prop :=
  ∃ e ∈ past, ∃ draws frame body session provider,
    e.input = .poll draws (.wireless (.authenticate frame)) ∧ e.pre.authBody frame = some body ∧
    e.pre.session = some session ∧ session.auth = .preAssoc provider ∧
    provider.password = password ∧ (provider.onFrame S.prim body).2 = .ok (.done pmk)

/-- The session that is left has its PMK of the same exchange as the one there was. -/
def Exchanges (past : List (Entry S)) (e : Entry S) : Prop :=
  ∀ session session' password, e.pre.session = some session → e.post.session = some session' →
    session.ExchangedWith (·.password = password) (Exchanged past password) →
    session'.ExchangedWith (·.password = password) (Exchanged (past ++ [e]) password)

section Exchanges

variable {past : List (Entry S)} {e : Entry S} {input : Input} {password : String} {pmk : Pmk}

theorem Exchanged.concat (h : Exchanged past password pmk) : Exchanged (past ++ [e]) password pmk := by
  obtain ⟨e', he', hfacts⟩ := h
  exact ⟨e', List.mem_append_left _ he', hfacts⟩

theorem exchanges_of_eq (h : e.post.session = e.pre.session) : Exchanges past e := by
  intro session session' password hsession hsession' hex
  rw [h, hsession] at hsession'
  cases hsession'
  exact hex.mono fun _ => Exchanged.concat

/-- **A poll that plans for nothing leaves the session its exchange.** -/
theorem exchanges_move (hplans : c.plans input = none) (hm : Move c draws input r) :
    Exchanges past (polled c draws input r) := by
  intro session session' password hsession hsession' hex
  rcases hm.advances hplans with hadvances | ⟨event, hevent, hd⟩
  · obtain ⟨session₀, hsession₀, hadvance⟩ := hadvances.session session' hsession'
    cases hsession.symm.trans hsession₀
    exact (hadvance.exchangedWith hex).mono fun _ => Exchanged.concat
  · refine exchangedWith_saeDriven hd hsession hsession' (hex.mono fun _ => Exchanged.concat) ?_
    intro provider body pmk hauth hbody hreturned
    obtain ⟨frame, rfl, hframe⟩ := hevent.frame body hbody
    exact ⟨_, List.mem_append_right _ List.mem_cons_self, draws, frame, body, session, provider, rfl,
      hframe, hsession, hauth, hex.preAssoc provider hauth, hreturned⟩

end Exchanges

end Connection

/-! ## The keyring of a history -/

/-- What a history says of passphrases. -/
structure Keyring where
  /-- The passphrase sent last. -/
  typed : Option String
  /-- The credential of the session begun last, and the passphrase sent last by then. -/
  planned : Option (Credential × Option String)

namespace Connection

/-- The passphrase a call that returns has passed on. -/
def sent (e : Entry S) : Option String :=
  match e.input with
  | .poll draws input => (e.pre.poll draws input).bind fun _ => input.sent
  | _ => none

/-- A session that is begun goes on to authenticate or to associate. -/
def begins (actions : List Action) : Bool :=
  .notify .authenticating ∈ actions || .notify .associating ∈ actions

/-- The credential a call begins a session with: the one in hand for the BSS planned for. -/
def begun (e : Entry S) : Option Credential :=
  match e.input with
  | .poll _ input =>
    if begins e.output then (e.pre.plans input).bind fun p => p.1.credential p.2.1.rsn.isNone
    else none
  | _ => none

end Connection

namespace Keyring

/-- One call. -/
def record (k : Keyring) (e : Connection.Entry S) : Keyring :=
  let typed := (Connection.sent e).or k.typed
  { typed, planned := ((Connection.begun e).map fun credential => (credential, typed)).or k.planned }

/-- What a history has typed and planned. -/
def ofLog (past : List (Connection.Entry S)) : Keyring := past.foldl record ⟨none, none⟩

theorem ofLog_concat (past : List (Connection.Entry S)) (e : Connection.Entry S) :
    ofLog (past ++ [e]) = (ofLog past).record e := by
  simp [ofLog]

end Keyring

/-- The offload hands over a key made of the passphrase. -/
def Offload.MadeOf (P : Primitives) (secret : String) (ssid : Bytes) : Offload → Prop
  | .pmk inHand => inHand = derivePmk P secret ssid
  | .saePassword password => password = secret

namespace Connection

/-- The session was begun with the passphrase: under a PSK its PMK is made of it, under SAE it is the
password of the exchange and the PMK is one that exchange returned, and whatever its request offloads
is made of it. -/
structure KeyedWith (past : List (Entry S)) (session : Session S) (ssid : Bytes) (secret : String) :
    Prop where
  begun : ∃ sent, (Keyring.ofLog past).planned = some (.passphrase secret, sent)
  psk : (session.choice.rsn.any fun n => n.akm.isPsk) = true →
    session.RunsOn (derivePmk S.prim secret ssid)
  sae : (session.choice.rsn.any fun n => n.akm.isSae) = true →
    session.ExchangedWith (·.password = secret) (Exchanged past secret)
  offload : ∀ request offload, (Ledger.ofLog past).request = some request →
    request.offload = some offload → offload.MadeOf S.prim secret ssid

/-- The link is up: the association of the session has succeeded, and its keys are in place. -/
structure Stands (past : List (Entry S)) (c : Connection S) : Prop where
  state : c.state = .configuring ∨ c.state = .connected
  covered : (Ledger.ofLog past).Covers c

/-- What is saved is for the target, with the credential its session runs on. -/
def SavesProven (past : List (Entry S)) (e : Entry S) : Prop :=
  ∀ profile, .saveProfile profile ∈ e.output → ∃ target session,
    e.pre.target = some target ∧ e.pre.session = some session ∧ profile.ssid = target.ssid ∧
    (session.choice.rsn = none → profile.credential = .none) ∧
    (session.choice.rsn.isSome → Stands past e.pre ∧
      ∃ secret, profile.credential = .passphrase secret ∧
        KeyedWith past session target.ssid secret)

/-- A lease for a secured network that is still to be saved comes while the link is up, and the
passphrase sent last is the one sent last when its session was begun. -/
def Undisturbed (past : List (Entry S)) (e : Entry S) : Prop :=
  ∀ draws lease target session, e.input = .poll draws (.lease (.acquired lease)) →
    e.pre.target = some target → target.save = true → e.pre.session = some session →
    session.choice.rsn.isSome →
    (e.pre.state = .configuring ∨ e.pre.state = .connected) ∧
      ∃ credential, (Keyring.ofLog past).planned = some (credential, (Keyring.ofLog past).typed)

/-! ## The invariant -/

/-- The session was begun with a passphrase, and that was the one sent last by then. -/
def BegunWith (past : List (Entry S)) (target : Target) (session : Session S) : Prop :=
  target.secret.isSome ∧ ∃ secret,
    (Keyring.ofLog past).planned = some (.passphrase secret, some secret) ∧
      KeyedWith past session target.ssid secret

/-- What holds of a target that is still to be saved, and of its session. -/
structure Attested (past : List (Entry S)) (c : Connection S) : Prop where
  unsaved : ∀ target, c.target = some target → target.save = true → c.profile = none
  typed : ∀ target, c.target = some target →
    target.secret = none ∨ target.secret = (Keyring.ofLog past).typed
  keyed : ∀ target session, c.target = some target → target.save = true →
    c.session = some session → session.choice.rsn.isSome → BegunWith past target session
  covered : ∀ target, c.target = some target → target.save = true → c.session.isSome →
    (Ledger.ofLog past).Inv c

variable {c c' : Connection S} {draws : Draws S} {input : Input} {r : Connection S × List Action}
  {past : List (Entry S)}

theorem attested_new (device : Device) (profiles : List Profile) :
    Attested [] (new device profiles : Connection S) := by
  refine ⟨fun _ h => ?_, fun _ h => ?_, fun _ _ h => ?_, fun _ h => ?_⟩ <;> cases h

/-! ### The target after a poll -/

theorem Attested.unsaved_poll (h : Attested past c) (hpoll : c.poll draws input = some r) :
    ∀ target, r.1.target = some target → target.save = true → r.1.profile = none := by
  intro target' htarget' hsave
  cases aimed_poll hpoll with
  | lost hnone => exact absurd (htarget'.symm.trans hnone) (Option.some_ne_none target')
  | fresh target htarget hsession hsecret hprofile =>
    obtain rfl := Option.some.inj (htarget.symm.trans htarget')
    exact hprofile hsave
  | kept _ hkept =>
    have hsame := hkept.target_of_some htarget'
    have hnone := h.unsaved target' hsame hsave
    rw [profile, hsame] at hnone
    rwa [profile, htarget', hkept.profiles]
  | typed target value htarget hsent hpost hunsaved =>
    obtain rfl := Option.some.inj (hpost.symm.trans htarget')
    have hnone := h.unsaved target htarget hsave
    rw [profile, htarget] at hnone
    rwa [profile, hpost, hunsaved.profiles]
  | found target htarget hsettled =>
    obtain rfl := Option.some.inj (htarget.symm.trans htarget')
    rw [hsettled] at hsave
    cases hsave
  | saved lease target _ profile _ _ htarget _ hsettled =>
    obtain rfl := Option.some.inj (htarget.symm.trans htarget')
    rw [hsettled] at hsave
    cases hsave

theorem Attested.typed_poll (h : Attested past c) (hpoll : c.poll draws input = some r) :
    ∀ target, r.1.target = some target →
      target.secret = none ∨ target.secret = input.sent.or (Keyring.ofLog past).typed := by
  intro target' htarget'
  cases aimed_poll hpoll with
  | lost hnone => exact absurd (htarget'.symm.trans hnone) (Option.some_ne_none target')
  | fresh target htarget hsession hsecret =>
    obtain rfl := Option.some.inj (htarget.symm.trans htarget')
    exact .inl hsecret
  | kept hsent hkept =>
    rw [hsent, Option.none_or]
    exact h.typed target' (hkept.target_of_some htarget')
  | typed target value htarget hsent hpost =>
    obtain rfl := Option.some.inj (hpost.symm.trans htarget')
    rw [hsent, Option.some_or]
    exact .inr rfl
  | found target htarget _ hsecret =>
    obtain rfl := Option.some.inj (htarget.symm.trans htarget')
    exact .inl hsecret
  | saved lease target _ profile hinput htarget hpost hsecret =>
    obtain rfl := Option.some.inj (hpost.symm.trans htarget')
    rw [hsecret, hinput]
    exact h.typed target htarget

/-- The target of a session that goes on is one there was, with a passphrase if it had one. -/
theorem target_of_poll (hpoll : c.poll draws input = some r) {target' : Target}
    (htarget' : r.1.target = some target') (hsave : target'.save = true)
    (hsession : r.1.session.isSome) : ∃ target, c.target = some target ∧ target.save = true ∧
      target'.ssid = target.ssid ∧ (target.secret.isSome → target'.secret.isSome) := by
  cases aimed_poll hpoll with
  | lost hnone => exact absurd (htarget'.symm.trans hnone) (Option.some_ne_none target')
  | fresh target htarget hnone =>
    rw [hnone] at hsession
    cases hsession
  | kept _ hkept => exact ⟨target', hkept.target_of_some htarget', hsave, rfl, id⟩
  | typed target value htarget hsent hpost =>
    obtain rfl := Option.some.inj (hpost.symm.trans htarget')
    exact ⟨target, htarget, hsave, rfl, fun _ => rfl⟩
  | found target htarget hsettled =>
    obtain rfl := Option.some.inj (htarget.symm.trans htarget')
    rw [hsettled] at hsave
    cases hsave
  | saved lease target _ profile _ _ htarget _ hsettled =>
    obtain rfl := Option.some.inj (htarget.symm.trans htarget')
    rw [hsettled] at hsave
    cases hsave

end Connection

/-! ### The request after a poll -/

namespace Ledger

open Connection (assocRequest offloadOf requests requests_cons)

variable {m : Ledger} {c : Connection S} {r : Connection S × List Action}

@[simp] theorem hearCall_request (call : Call S) : (m.hearCall c call).request = m.request := by
  cases call with
  | poll draws input =>
    change (m.hear c input).request = m.request
    unfold hear
    split
    · split_ifs <;> rfl
    · rfl
  | _ => rfl

/-- Without a request of its own a poll leaves the request there was, or none. -/
theorem request_of_requests {actions : List Action} (h : requests actions = []) {request : AssocRequest}
    (hrequest : (m.seeAll actions).request = some request) : m.request = some request := by
  induction actions generalizing m with
  | nil => exact hrequest
  | cons action rest ih =>
    rw [requests_cons] at h
    split_ifs at h with hone
    have hrest : (m.see action).request = some request := ih h hrequest
    unfold see at hrest
    split at hrest <;> first | exact hrest | exact absurd rfl hone | cases hrest

theorem assocRequest_offload (ifindex : UInt32) (ssid : Bytes) (session : Session S) :
    (assocRequest ifindex ssid session).offload = offloadOf session := by
  unfold assocRequest
  dsimp only
  split <;> rfl

theorem seeAll_associateWith (target : Target) (session : Session S) :
    m.seeAll (c.associateWith target session).2 =
      ⟨some (assocRequest c.device.ifindex target.ssid session), false, none⟩ := by
  rw [Connection.associateWith_snd, seeAll_append, seeAll_plain (plain_leaving _ _)]
  rfl

theorem request_of_saeDriven {event : SaeEvent} (hd : Connection.SaeDriven c event r)
    {request : AssocRequest} (hrequest : (m.seeAll r.2).request = some request)
    (hoffload : request.offload.isSome) : m.request = some request := by
  cases hd with
  | off => exact hrequest
  | call target session provider q r htarget hsession hauth hq hm =>
    obtain ⟨p', x⟩ := q
    cases hm with
    | wait => exact hrequest
    | send => exact hrequest
    | noBody => exact request_of_requests (by simp) hrequest
    | fail => exact request_of_requests (by simp) hrequest
    | done target session pmk =>
      rw [seeAll_associateWith] at hrequest
      cases hrequest
      rw [assocRequest_offload] at hoffload
      cases hoffload

end Ledger

namespace Connection

variable {c c' : Connection S} {draws : Draws S} {input : Input} {r : Connection S × List Action}
  {past : List (Entry S)}

/-! ### The session after a poll -/

section Record

variable {e : Entry S}

theorem planned_of_not_begun (h : begun e = none) :
    ((Keyring.ofLog past).record e).planned = (Keyring.ofLog past).planned := by
  simp [Keyring.record, h]

theorem begun_of_plans (hinput : e.input = .poll draws input) (hplans : e.pre.plans input = none) :
    begun e = none := by
  simp [begun, hinput, hplans]

theorem begun_of_quiet (h : begins e.output = false) : begun e = none := by
  unfold begun
  split
  · simp [h]
  · rfl

theorem begun_eq (hinput : e.input = .poll draws input) {bss : Bss} {roaming : Bool}
    (hplans : e.pre.plans input = some (c', bss, roaming)) (hbegins : begins e.output = true) :
    begun e = c'.credential bss.rsn.isNone := by
  simp [begun, hinput, hplans, hbegins]

end Record

theorem KeyedWith.carried {session session' : Session S} {ssid : Bytes} {secret : String} {e : Entry S}
    (h : KeyedWith past session ssid secret) (hbegun : Connection.begun e = none)
    (hrsn : session'.choice.rsn = session.choice.rsn)
    (hruns : ∀ pmk, session.RunsOn pmk → session'.RunsOn pmk)
    (hexchange : session.ExchangedWith (·.password = secret) (Exchanged past secret) →
      session'.ExchangedWith (·.password = secret) (Exchanged (past ++ [e]) secret))
    (hrequest : ∀ request, (Ledger.ofLog (past ++ [e])).request = some request →
      request.offload.isSome → (Ledger.ofLog past).request = some request) :
    KeyedWith (past ++ [e]) session' ssid secret where
  begun := by
    rw [Keyring.ofLog_concat, planned_of_not_begun hbegun]
    exact h.begun
  psk hpsk := hruns _ (h.psk (hrsn ▸ hpsk))
  sae hsae := hexchange (h.sae (hrsn ▸ hsae))
  offload request offload hlast hoffload :=
    h.offload request offload (hrequest request hlast (by simp [hoffload])) hoffload

theorem entry_polled (hpoll : c.poll draws input = some r) :
    Machine.entry step c (.poll draws input) = polled c draws input r := by
  have hstep : c.step (.poll draws input) = r := by
    rw [step, hpoll]
    rfl
  rw [Machine.entry, hstep]

theorem rsn_of_joinOf {session session' : Session S} (h : c'.joinOf = c.joinOf)
    (hsession : c.session = some session) (hsession' : c'.session = some session') :
    session'.choice.rsn = session.choice.rsn := by
  simp only [joinOf, hsession, hsession', Option.map_some, Option.some.injEq, Choice.mk.injEq] at h
  exact h.2.2.2.2.2.1

theorem Attested.keyed_kept (h : Attested past c) (hpoll : c.poll draws input = some r)
    (hbegun : begun (polled c draws input r) = none)
    (hjoined : r.1.joinOf = none ∨ r.1.joinOf = c.joinOf) (hcarries : c.Carries r.1)
    (hexchanges : Exchanges past (polled c draws input r))
    (hrequest : ∀ request, (Ledger.ofLog (past ++ [polled c draws input r])).request = some request →
      request.offload.isSome → (Ledger.ofLog past).request = some request) :
    ∀ target session, r.1.target = some target → target.save = true →
      r.1.session = some session → session.choice.rsn.isSome →
      BegunWith (past ++ [polled c draws input r]) target session := by
  intro target' session' htarget' hsave' hsession' hrsn'
  obtain ⟨target, htarget, hsave, hssid, hsecret⟩ :=
    target_of_poll hpoll htarget' hsave' (by simp [hsession'])
  obtain ⟨session, hsession, hruns⟩ := hcarries session' hsession'
  have hrsn : session'.choice.rsn = session.choice.rsn := by
    rcases hjoined with hnone | hsame
    · rw [joinOf_eq_none] at hnone
      exact nomatch hnone.symm.trans hsession'
    · exact rsn_of_joinOf hsame hsession hsession'
  obtain ⟨hsome, secret, hplanned, hkeyed⟩ := h.keyed target session htarget hsave hsession (hrsn ▸ hrsn')
  refine ⟨hsecret hsome, secret, ?_, hssid ▸ hkeyed.carried hbegun hrsn hruns
    (hexchanges session session' secret hsession hsession') hrequest⟩
  rw [Keyring.ofLog_concat, planned_of_not_begun hbegun]
  exact hplanned

theorem request_quiet (h : requests r.2 = []) {request : AssocRequest}
    (hrequest : (Ledger.ofLog (past ++ [polled c draws input r])).request = some request) :
    (Ledger.ofLog past).request = some request := by
  rw [ofLog_concat] at hrequest
  rw [← Ledger.hearCall_request (c := c) (.poll draws input)]
  exact Ledger.request_of_requests h hrequest

theorem credential_of_unsaved {target : Target} {credential : Credential}
    (htarget : c.target = some target) (hprofile : c.profile = none)
    (h : c.credential false = some credential) :
    ∃ secret, target.secret = some secret ∧ credential = .passphrase secret := by
  simp only [Connection.credential, Bool.false_eq_true, if_false, hprofile, htarget,
    Option.bind_some] at h
  obtain ⟨secret, hsecret, rfl⟩ := Option.map_eq_some_iff.mp h
  exact ⟨secret, hsecret, rfl⟩

theorem stage_passphrase {choice : Choice} {secret : String} {auth : Auth S} {target : Target}
    {n : Negotiated} (htarget : c.target = some target) (hrsn : choice.rsn = some n)
    (h : c.stage draws choice (.passphrase secret) = .ok auth) :
    (n.akm.isPsk = true → auth = .offloaded (.pmk (derivePmk S.prim secret target.ssid)) ∨
      auth = .ready (derivePmk S.prim secret target.ssid)) ∧
    (n.akm.isSae = true → (∀ provider, auth = .preAssoc provider → provider.password = secret) ∧
      (∀ provider, auth ≠ .postAssoc provider) ∧ ∀ pmk, auth ≠ .ready pmk) ∧
    ∀ offload, auth = .offloaded offload → offload.MadeOf S.prim secret target.ssid := by
  have hssid : c.ssidBytes = target.ssid := by simp [ssidBytes, htarget]
  simp only [stage, hrsn, assemble, authContext, Option.map_some, Option.getD_some, hssid] at h
  split_ifs at h with hsae hoffloads hpsk hoffloads <;> cases h
  · refine ⟨fun hpsk => ?_, fun _ => ⟨by rintro _ ⟨⟩, by rintro _ ⟨⟩, by rintro _ ⟨⟩⟩, ?_⟩
    · cases hakm : n.akm <;> simp [hakm, Akm.isPsk, Akm.isSae] at hpsk hsae
    · rintro _ ⟨⟩
      rfl
  · refine ⟨fun hpsk => ?_, fun _ => ⟨?_, by rintro _ ⟨⟩, by rintro _ ⟨⟩⟩, by rintro _ ⟨⟩⟩
    · cases hakm : n.akm <;> simp [hakm, Akm.isPsk, Akm.isSae] at hpsk hsae
    · rintro _ ⟨⟩
      rfl
  · refine ⟨fun _ => .inl rfl, fun h => absurd h hsae, ?_⟩
    rintro _ ⟨⟩
    rfl
  · exact ⟨fun _ => .inr rfl, fun h => absurd h hsae, by rintro _ ⟨⟩⟩

/-- **A session that is begun** for a target still to be saved. -/
theorem begunWith_planned {bss : Bss} {roaming : Bool} {credential : Credential} {choice : Choice}
    {auth : Auth S} {target : Target} {session : Session S} (h : Attested past c)
    (hpoll : c.poll draws input = some r) (hplans : c.plans input = some (c', bss, roaming))
    (hchosen : c'.Chosen bss roaming credential choice)
    (hstage : c'.stage draws choice credential = .ok auth) (hkept : c'.Kept r)
    (hbegins : begins r.2 = true) (htarget : r.1.target = some target) (hsave : target.save = true)
    (hrsn : session.choice.rsn = choice.rsn) (hsome : choice.rsn.isSome)
    (hruns : ∀ pmk, auth = .offloaded (.pmk pmk) ∨ auth = .ready pmk → session.RunsOn pmk)
    (hexchange : ∀ secret Returned, (∀ provider, auth = .preAssoc provider →
      provider.password = secret) → (∀ provider, auth ≠ .postAssoc provider) →
        (∀ pmk, auth ≠ .ready pmk) → session.ExchangedWith (·.password = secret) Returned)
    (hrequest : ∀ request offload,
      (Ledger.ofLog (past ++ [polled c draws input r])).request = some request →
      request.offload = some offload → auth = .offloaded offload) :
    BegunWith (past ++ [polled c draws input r]) target session := by
  have htarget' : c'.target = some target := hkept.target_of_some htarget
  have hprofile : c'.profile = none := by
    have hnone := h.unsaved_poll hpoll target htarget hsave
    rwa [profile, htarget, hkept.profiles, ← htarget'] at hnone
  obtain ⟨n, hn⟩ := Option.isSome_iff_exists.mp hsome
  have hopen : bss.rsn.isNone = false := by
    obtain ⟨rsn, hbss, hchoice, -⟩ := evaluate_eq_ok hchosen.evaluated
    rcases negotiateBss_eq_ok hbss with ⟨-, -, rfl⟩ | ⟨ie, n', hie, -⟩
    · rw [hchoice] at hn
      cases hn
    · rw [hie]
      rfl
  have hinHand := hchosen.inHand
  rw [hopen] at hinHand
  obtain ⟨secret, hsecret, rfl⟩ := credential_of_unsaved htarget' hprofile hinHand
  have htyped : input.sent.or (Keyring.ofLog past).typed = some secret := by
    rcases h.typed_poll hpoll target htarget with hnone | hsent
    · rw [hnone] at hsecret
      cases hsecret
    · exact hsent.symm.trans hsecret
  have hbegun : begun (polled c draws input r) = some (.passphrase secret) := by
    rw [begun_eq rfl hplans hbegins, hopen, hinHand]
  have hplanned : (Keyring.ofLog (past ++ [polled c draws input r])).planned =
      some (.passphrase secret, some secret) := by
    rw [Keyring.ofLog_concat, Keyring.record, hbegun]
    simp [sent, hpoll, htyped]
  obtain ⟨hpsk, hsae, hoffload⟩ := stage_passphrase htarget' hn hstage
  refine ⟨by simp [hsecret], secret, hplanned, ⟨_, hplanned⟩, fun hany => hruns _ (hpsk ?_),
    fun hany => ?_, fun request offload hreq ho => hoffload offload (hrequest request offload hreq ho)⟩
  · rw [hrsn, hn] at hany
    simpa using hany
  · rw [hrsn, hn] at hany
    obtain ⟨hpassword, hpost, hready⟩ := hsae (by simpa using hany)
    exact hexchange secret _ hpassword hpost hready

/-- **SAE begun at once** is begun with the passphrase typed. -/
theorem Attested.begunWith_sae {bss : Bss} {roaming : Bool} {credential : Credential}
    {choice : Choice} {provider : SaeProvider S.curve} {q : Connection S × List Action}
    {target : Target} {session : Session S} (h : Attested past c)
    (hpoll : c.poll draws input = some (q.1,
      (c'.withSession (newSession choice (.preAssoc provider))).leaving .authenticating ++
        .notify .authenticating :: q.2))
    (hplans : c.plans input = some (c', bss, roaming))
    (hkept : c'.Kept (q.1,
      (c'.withSession (newSession choice (.preAssoc provider))).leaving .authenticating ++
        .notify .authenticating :: q.2))
    (hchosen : c'.Chosen bss roaming credential choice)
    (hstage : c'.stage draws choice credential = .ok (.preAssoc provider))
    (hd : SaeDriven ((c'.withSession (newSession choice (.preAssoc provider))).enter
      .authenticating).1 .start q)
    (htarget : q.1.target = some target) (hsave : target.save = true)
    (hsession : q.1.session = some session) (hrsn : session.choice.rsn.isSome) :
    BegunWith (past ++ [polled c draws input (q.1,
      (c'.withSession (newSession choice (.preAssoc provider))).leaving .authenticating ++
        .notify .authenticating :: q.2)]) target session := by
  have hentered : ((c'.withSession (newSession choice (.preAssoc provider))).enter
      .authenticating).1.session = some (newSession choice (.preAssoc provider)) := by simp
  have hsecured : session.choice.rsn = choice.rsn := by
    rcases (retains_saeDriven hd).joined with hnone | hsame
    · rw [joinOf_eq_none.mp hnone] at hsession
      cases hsession
    · exact rsn_of_joinOf hsame hentered hsession
  refine begunWith_planned h hpoll hplans hchosen hstage hkept (by simp [begins]) htarget hsave
    hsecured (hsecured ▸ hrsn) ?_ (fun secret Returned hpassword _ _ => ?_)
    fun request offload hrequest hoffload => ?_
  · rintro pmk (hauth | hauth) <;> cases hauth
  · refine exchangedWith_saeDriven hd hentered hsession ⟨?_, by rintro _ ⟨⟩, by rintro _ ⟨⟩,
      by rintro _ ⟨⟩⟩ fun _ _ _ _ hstart => by cases hstart
    rintro _ ⟨⟩
    exact hpassword provider rfl
  · rw [ofLog_concat, Ledger.seeAll_append, Ledger.seeAll_plain (Ledger.plain_leaving _ _)] at hrequest
    -- the exchange starts from a blank page
    have hblank := Ledger.request_of_saeDriven hd hrequest (by simp [hoffload])
    cases hblank

/-- **An association asked for at once** is begun with the passphrase typed. -/
theorem Attested.begunWith_associate {bss : Bss} {roaming : Bool} {credential : Credential}
    {choice : Choice} {auth : Auth S} {target target' : Target} (h : Attested past c)
    (hpoll : c.poll draws input = some ((c'.withSession (newSession choice auth)).associateWith
      target' (newSession choice auth)))
    (hplans : c.plans input = some (c', bss, roaming))
    (hkept : c'.Kept ((c'.withSession (newSession choice auth)).associateWith target'
      (newSession choice auth)))
    (hchosen : c'.Chosen bss roaming credential choice)
    (hstage : c'.stage draws choice credential = .ok auth)
    (hpre : ∀ provider, auth ≠ .preAssoc provider)
    (htarget : ((c'.withSession (newSession choice auth)).associateWith target'
      (newSession choice auth)).1.target = some target) (hsave : target.save = true)
    (hrsn : (requested (newSession choice auth)).choice.rsn.isSome) :
    BegunWith (past ++ [polled c draws input
      ((c'.withSession (newSession choice auth)).associateWith target' (newSession choice auth))])
      target (requested (newSession choice auth)) := by
  -- an offload is open once asked for, and every other method stays what it was
  have hauth : ∀ auth', .open ≠ auth' → auth ≠ auth' →
      (requested (newSession choice auth)).auth ≠ auth' := by
    intro auth' hopen hother
    rw [requested_auth, newSession_auth]
    split
    · exact hopen
    · exact hother
  refine begunWith_planned h hpoll hplans hchosen hstage hkept ?_ htarget hsave rfl hrsn ?_
    (fun secret Returned _ hpost hready => ?_) fun request offload hrequest hoffload => ?_
  · simp [begins, associateWith_snd]
  · rintro pmk (rfl | rfl)
    · exact .of_open rfl rfl
    · refine ⟨by rintro _ ⟨⟩, by rintro _ ⟨⟩, ?_, by rintro _ ⟨⟩⟩
      rintro _ ⟨⟩
      rfl
  · exact ⟨fun provider hp => absurd hp (hauth _ (by rintro ⟨⟩) (hpre provider)),
      fun provider hp => absurd hp (hauth _ (by rintro ⟨⟩) (hpost provider)),
      fun pmk hp => absurd hp (hauth _ (by rintro ⟨⟩) (hready pmk)), by rintro _ ⟨⟩⟩
  · rw [ofLog_concat, Ledger.seeAll_associateWith] at hrequest
    cases hrequest
    rw [Ledger.assocRequest_offload, offloadOf] at hoffload
    split at hoffload
    · rename_i hoffloaded
      cases hoffload
      exact hoffloaded
    · cases hoffload

/-- **A session planned for** is begun with a passphrase, or is the one there was. -/
theorem Attested.keyed_planned {bss : Bss} {roaming : Bool} (h : Attested past c)
    (hpoll : c.poll draws input = some r) (hplans : c.plans input = some (c', bss, roaming))
    (hp : Planned c' draws bss roaming r) :
    ∀ target session, r.1.target = some target → target.save = true →
      r.1.session = some session → session.choice.rsn.isSome →
      BegunWith (past ++ [polled c draws input r]) target session := by
  have hsame := plans_session hplans
  have hkept := kept_planned hp
  have hgone : r.1.session = none → ∀ target session, r.1.target = some target →
      target.save = true → r.1.session = some session → session.choice.rsn.isSome →
      BegunWith (past ++ [polled c draws input r]) target session :=
    fun hnone _ session _ _ hsession =>
      absurd (hsession.symm.trans hnone) (Option.some_ne_none session)
  have hfailed : ∀ failure, (c'.fail failure).1.session = none := by
    intro failure
    rw [fail_fst]
    split_ifs <;> rfl
  cases hp with
  | refused => exact hgone (hfailed _)
  | enterprise => exact hgone (hfailed _)
  | unstaged => exact hgone (hfailed _)
  | stay =>
    exact h.keyed_kept hpoll (begun_of_quiet rfl) (.inr (by rw [joinOf, joinOf, hsame]))
      (carries_of_eq hsame) (exchanges_of_eq hsame) fun request hrequest _ => request_quiet rfl hrequest
  | prompt choice =>
    refine h.keyed_kept hpoll (begun_of_quiet ?_) (.inr ?_) (carries_of_eq hsame)
      (exchanges_of_eq hsame) fun request hrequest _ => request_quiet ?_ hrequest
    · unfold Connection.prompt disarm
      cases c'.armed <;> rfl
    · change c'.session.map _ = _
      rw [hsame]
      rfl
    · exact requests_of_decisions (by simp [Connection.prompt])
  | sae credential choice provider q hchosen hstage hroaming hd =>
    exact fun target session htarget hsave hsession hrsn =>
      h.begunWith_sae hpoll hplans hkept hchosen hstage hd htarget hsave hsession hrsn
  | associate credential choice auth target' hchosen hstage hpre htarget' =>
    intro target session htarget hsave hsession hrsn
    rw [associateWith_fst] at hsession
    obtain rfl : requested (newSession choice auth) = session := Option.some.inj hsession
    exact h.begunWith_associate hpoll hplans hkept hchosen hstage hpre htarget hsave hrsn

/-- **What a poll leaves keyed**, whichever course it takes. -/
theorem Attested.keyed_poll (h : Attested past c) (hpoll : c.poll draws input = some r) :
    ∀ target session, r.1.target = some target → target.save = true →
      r.1.session = some session → session.choice.rsn.isSome →
      BegunWith (past ++ [polled c draws input r]) target session := by
  have hm := poll_move hpoll
  cases hm.course with
  | quiet _ hplans hrequests hretains =>
    exact h.keyed_kept hpoll (begun_of_plans rfl hplans) hretains.joined (carries_move hplans hm)
      (exchanges_move hplans hm) fun request hrequest _ => request_quiet hrequests hrequest
  | exchange event _ hplans hst hd =>
    refine h.keyed_kept hpoll (begun_of_plans rfl hplans) (retains_saeDriven hd).joined
      (carries_move hplans hm) (exchanges_move hplans hm) fun request hrequest hoffload => ?_
    rw [ofLog_concat] at hrequest
    have hheard := Ledger.request_of_saeDriven hd hrequest hoffload
    rwa [Ledger.hearCall_request] at hheard
  | planned c' bss roaming _ hplans htarget hbegins hp => exact h.keyed_planned hpoll hplans hp

theorem saveProfile_settles {target target' : Target} {session : Session S}
    (htarget : c.target = some target) (hsession : c.session = some session)
    (hsecret : session.choice.rsn.isSome → target.secret.isSome)
    (htarget' : c.saveProfile.1.target = some target') : target'.save = false := by
  obtain ⟨credential, hjoined⟩ : ∃ credential, joinedWith target session = some credential := by
    unfold joinedWith
    cases hrsn : session.choice.rsn with
    | none => exact ⟨_, rfl⟩
    | some rsn =>
      obtain ⟨secret, hs⟩ := Option.isSome_iff_exists.mp (hsecret (by simp [hrsn]))
      exact ⟨.passphrase secret, by simp [hs]⟩
  unfold saveProfile at htarget'
  rw [htarget, hsession] at htarget'
  simp only [hjoined] at htarget'
  split_ifs at htarget' with hsave
  · cases htarget.symm.trans htarget'
    simpa using hsave
  · obtain rfl := Option.some.inj htarget'
    dsimp only
    split_ifs <;> rfl

theorem Attested.covered_poll (h : Attested past c) (hpoll : c.poll draws input = some r) :
    ∀ target, r.1.target = some target → target.save = true → r.1.session.isSome →
      (Ledger.ofLog (past ++ [polled c draws input r])).Inv r.1 := by
  intro target' htarget' hsave' hsome'
  rw [ofLog_concat]
  obtain ⟨target, htarget, hsave, -, -⟩ := target_of_poll hpoll htarget' hsave' hsome'
  have hm := poll_move hpoll
  by_cases hsome : c.session.isSome
  · obtain ⟨session, hsession⟩ := Option.isSome_iff_exists.mp hsome
    refine (Ledger.keeps_move (h.covered target htarget hsave hsome) (fun lease hlease => ?_) hm).inv
    subst hlease
    cases hpoll
    -- a lease would have settled what there is to save
    have hsettled := saveProfile_settles (c := { (c.enter .connected).1 with attempts := 0 })
      (by simpa using htarget) (by simpa using hsession)
      (fun hrsn => (h.keyed target session htarget hsave hsession hrsn).1) htarget'
    exact nomatch hsettled.symm.trans hsave'
  · have hnone : c.session = none := by simpa using hsome
    have hgone : ∀ c' : Connection S, c'.joinOf = none ∨ c'.joinOf = c.joinOf → c'.session = none := by
      intro c' hjoined
      rw [joinOf_eq_none.mpr hnone, or_self] at hjoined
      exact joinOf_eq_none.mp hjoined
    cases hm.course with
    | quiet _ hplans hrequests hretains => simp [hgone _ hretains.joined] at hsome'
    | exchange event _ hplans hst hd => simp [hgone _ (retains_saeDriven hd).joined] at hsome'
    | planned c' bss roaming _ hplans htarget hbegins hp =>
      refine (Ledger.keeps_planned (fun hsame => ?_) hp).inv
      simp [hsame, plans_session hplans, hnone] at hsome'

theorem Attested.poll (h : Attested past c) (hpoll : c.poll draws input = some r) :
    Attested (past ++ [polled c draws input r]) r.1 where
  unsaved := h.unsaved_poll hpoll
  typed := by
    simpa [Keyring.ofLog_concat, Keyring.record, sent, hpoll] using h.typed_poll hpoll
  keyed := h.keyed_poll hpoll
  covered := h.covered_poll hpoll

theorem entry_panicked (hpoll : c.poll draws input = none) :
    Machine.entry step c (.poll draws input) = polled c draws input (c, []) := by
  have hstep : c.step (.poll draws input) = (c, []) := by
    rw [step, hpoll]
    rfl
  rw [Machine.entry, hstep]

theorem Attested.panic (h : Attested past c) (hpoll : c.poll draws input = none) :
    Attested (past ++ [polled c draws input (c, [])]) c := by
  have hbegun : begun (polled c draws input (c, [])) = none := begun_of_quiet rfl
  refine ⟨h.unsaved, ?_, fun target session htarget hsave hsession hrsn => ?_,
    fun target htarget hsave hsession => ?_⟩
  · simpa [Keyring.ofLog_concat, Keyring.record, sent, hpoll] using h.typed
  · obtain ⟨hsome, secret, hplanned, hkeyed⟩ := h.keyed target session htarget hsave hsession hrsn
    refine ⟨hsome, secret, ?_, hkeyed.carried hbegun rfl (fun _ => id)
      (fun hex => hex.mono fun _ => Exchanged.concat) fun request hrequest _ => request_quiet rfl hrequest⟩
    rw [Keyring.ofLog_concat, planned_of_not_begun hbegun]
    exact hplanned
  · rw [ofLog_concat]
    exact Ledger.inv_hear (h.covered target htarget hsave hsession) input

/-! ## What is saved -/

/-- The connection `saveProfile` sees on a lease. -/
def leased (c : Connection S) : Connection S := { (c.enter .connected).1 with attempts := 0 }

@[simp] theorem leased_target (c : Connection S) : c.leased.target = c.target := by simp [leased]

@[simp] theorem leased_session (c : Connection S) : c.leased.session = c.session := by simp [leased]

theorem Attested.savesProven (h : Attested past c) (hpoll : c.poll draws input = some r)
    (hundisturbed : Undisturbed past (polled c draws input r)) :
    SavesProven past (polled c draws input r) := by
  intro profile hmem
  obtain ⟨lease, rfl⟩ : ∃ lease, input = .lease (.acquired lease) := by
    rcases profiles_poll hpoll with hu | ⟨lease, -, hinput, -⟩
    · rw [← mem_saves, hu.saves] at hmem
      cases hmem
    · exact ⟨lease, hinput⟩
  cases hpoll
  obtain ⟨target, session, credential, htarget, hsession, hsave, hjoined, rfl, -⟩ :=
    saved_profile (mem_onLease_acquired.mp hmem)
  replace htarget : c.target = some target := (leased_target c).symm.trans htarget
  replace hsession : c.session = some session := (leased_session c).symm.trans hsession
  refine ⟨target, session, htarget, hsession, rfl, fun hrsn => ?_, fun hrsn => ?_⟩
  · rw [joinedWith, hrsn] at hjoined
    exact (Option.some.inj hjoined).symm
  obtain ⟨hst, credential', hplanned'⟩ :=
    hundisturbed draws lease target session rfl htarget hsave hsession hrsn
  obtain ⟨hsome, secret, hplanned, hkeyed⟩ := h.keyed target session htarget hsave hsession hrsn
  have hcovered := h.covered target htarget hsave (by simp [hsession])
  -- the passphrase stored is the one sent last
  have hsecret : target.secret = some secret := by
    obtain ⟨-, htyped⟩ := Prod.mk.inj (Option.some.inj (hplanned.symm.trans hplanned'))
    rcases h.typed target htarget with hnone | hlast
    · rw [hnone] at hsome
      cases hsome
    · exact hlast.trans htyped.symm
  refine ⟨⟨hst, Ledger.covers_onLease hcovered hst⟩, secret, ?_, hkeyed⟩
  obtain ⟨rsn, hrsn⟩ := Option.isSome_iff_exists.mp hrsn
  rw [joinedWith, hrsn, hsecret] at hjoined
  exact (Option.some.inj hjoined).symm

theorem Attested.undisturbed (h : Attested past c)
    (hproven : SavesProven past (polled c draws input r)) (hpoll : c.poll draws input = some r) :
    Undisturbed past (polled c draws input r) := by
  intro draws' lease target session hinput htarget hsave hsession hrsn
  cases hinput
  cases hpoll
  obtain ⟨hsome, secret, hplanned, -⟩ := h.keyed target session htarget hsave hsession hrsn
  obtain ⟨secret', hsecret'⟩ := Option.isSome_iff_exists.mp hsome
  have hjoined : joinedWith target session = some (.passphrase secret') := by
    obtain ⟨rsn, hrsn⟩ := Option.isSome_iff_exists.mp hrsn
    rw [joinedWith, hrsn, hsecret']
    rfl
  have hmem : .saveProfile { Profile.new target.ssid session.choice.advertised (.passphrase secret') with
      autoconnect := true } ∈ (c.onLease (.acquired lease)).2 := by
    rw [mem_onLease_acquired]
    change _ ∈ c.leased.saveProfile.2
    rw [saveProfile, leased_target, leased_session, htarget, hsession]
    simp [hsave, hjoined]
  obtain ⟨target₁, session₁, htarget₁, hsession₁, -, -, hsecured⟩ := hproven _ hmem
  cases htarget.symm.trans htarget₁
  cases hsession.symm.trans hsession₁
  obtain ⟨hstands, secret₁, hcredential, hkeyed⟩ := hsecured hrsn
  obtain ⟨sent, hsent⟩ := hkeyed.begun
  refine ⟨hstands.state, .passphrase secret, ?_⟩
  -- the session was begun with the passphrase stored, and that is the one sent last
  cases hcredential
  cases hplanned.symm.trans hsent
  rcases h.typed target htarget with hnone | hlast
  · rw [hnone] at hsecret'
    cases hsecret'
  · rw [← hlast, hsecret']
    exact hplanned

/-- A run of polls. -/
def polls (inputs : List (Draws S × Input)) : List (Call S) := inputs.map fun p => .poll p.1 p.2

/-- **The passphrase a join stores.** At every poll of every run, whatever is saved is for the target,
with the credential its session runs on, exactly when a lease for a secured network that is still to
be saved comes while the link is up and the passphrase sent last is the one sent last when the session
was begun. -/
theorem saved_credential_iff (device : Device) (profiles : List Profile)
    (inputs : List (Draws S × Input)) :
    Machine.Along (fun past e => SavesProven past e ↔ Undisturbed past e)
      (Machine.log step (new device profiles) (polls inputs)) := by
  refine Machine.along_of_inv (J := Attested)
    (G := fun _ e => ∃ draws input, e.input = .poll draws input) (attested_new device profiles) ?_ ?_ _ ?_
  · rintro past c call h ⟨draws, input, rfl⟩
    cases hpoll : c.poll draws input with
    | none =>
      rw [entry_panicked hpoll, step, hpoll]
      exact h.panic hpoll
    | some r =>
      rw [entry_polled hpoll, step, hpoll]
      exact h.poll hpoll
  · rintro past c call h ⟨draws, input, rfl⟩
    cases hpoll : c.poll draws input with
    | none =>
      rw [entry_panicked hpoll]
      refine iff_of_true (fun profile hmem => absurd hmem List.not_mem_nil)
        fun draws' lease target session hinput => ?_
      -- a lease never panics
      cases hinput
      cases hpoll
    | some r =>
      rw [entry_polled hpoll]
      exact ⟨fun hproven => h.undisturbed hproven hpoll, h.savesProven hpoll⟩
  · rw [Machine.along_log_iff]
    intro before call after heq
    have hmem : call ∈ polls inputs := by
      rw [heq]
      exact List.mem_append_right _ List.mem_cons_self
    obtain ⟨p, -, rfl⟩ := List.mem_map.mp hmem
    exact ⟨p.1, p.2, rfl⟩

/-! ### Another passphrase in the middle -/

/-- The sample network is joined with one passphrase, and another one is sent before its address. -/
def sampleRetyped : List (Draws .sample × Input) :=
  [(.sample, .command (.connect [110])), (.sample, .scanResults [samplePskBss]),
    (.sample, .command (.secret "password")), (.sample, .wireless (.connected none .success)),
    (.sample, .eapol (Authenticator.msg1 .hmacSha1 1 Sample.anonce)), (.sample, .eapol (sampleMsg3 2)),
    (.sample, .command (.secret "mistyped"))]

/-- The profile that is saved then. -/
def sampleRetypedProfile : Profile where
  ssid := [110]
  security := .wpa2Personal
  credential := .passphrase "mistyped"
  autoconnect := true
  minSecurity := .wpa2Personal

set_option maxRecDepth 10000 in
/-- The passphrase that is stored is not the one the access point has seen. -/
theorem saved_unproven :
    ¬ Machine.Along SavesProven (Machine.log step (new sampleDevice [])
      (polls (sampleRetyped ++ [(.sample, .lease (.acquired sampleLease))]))) := by
  intro h
  have hsplit : polls (sampleRetyped ++ [(.sample, .lease (.acquired sampleLease))]) =
      polls sampleRetyped ++ [.poll .sample (.lease (.acquired sampleLease))] := rfl
  rw [hsplit, Machine.log_concat, Machine.along_concat] at h
  have hplanned : (Keyring.ofLog (Machine.log step (new sampleDevice [])
      (polls sampleRetyped))).planned =
        some (.passphrase "password", some "password") := by decide +kernel
  obtain ⟨target, session, -, hsession, -, -, hsecured⟩ :=
    h.2 sampleRetypedProfile (by decide +kernel)
  have hrsn : ((Machine.exec step (new sampleDevice []) (polls sampleRetyped)).session.all
      fun s => s.choice.rsn.isSome) = true := by decide +kernel
  rw [Machine.entry_pre] at hsession
  rw [hsession] at hrsn
  obtain ⟨-, secret, hcredential, hkeyed⟩ := hsecured hrsn
  obtain ⟨sent, hsent⟩ := hkeyed.begun
  cases hcredential
  exact absurd (hplanned.symm.trans hsent) (by simp)

end Connection

end Caw
