import Caw.Crypto.Sae
import Caw.Lib.Machine

/-!
# Two ends of one SAE exchange

Two providers with one password, one SSID and each other's address, and a network between them that
may lose, repeat and reorder their frames and may ask either of them for its commit again with a
token.

* `Side`, `Setup`, `Party`, `Event`, `step`: the system;
* `Setup.Derives`: a session is the one both commits determine;
* **`Derives.agree`**: the sessions of the two sides hold the same keys;
* `PartyInv`, `PairInv`: what holds in every reachable state;
* **`sae_agreement`**: sides that have processed each other's commits hold the same keys, each one's
  confirm verifies at the other, and a PMK is returned only where the other side derived the same one.
-/

set_option autoImplicit false

namespace Caw

open Crypto (Fault)
open Sae SaeProvider

namespace SaePair

/-- The two ends. -/
inductive Side where
  | station
  | accessPoint
deriving DecidableEq

/-- The other end. -/
def Side.peer : Side → Side
  | station => accessPoint
  | accessPoint => station

@[simp] theorem Side.peer_peer (s : Side) : s.peer.peer = s := by cases s <;> rfl

theorem Side.peer_ne (s : Side) : s.peer ≠ s := by cases s <;> exact fun h => nomatch h

theorem Side.eq_or_eq_peer (s t : Side) : t = s ∨ t = s.peer := by
  cases s <;> cases t <;> simp [peer]

/-- What the two ends share, and what each brings. -/
structure Setup where
  password : String
  ssid : Bytes
  mac : Side → Mac
  seed : Side → Octets seedLen

/-- One end with what an observer has seen of it: the frames it put on the air, the session it
derived from the peer's commit, the PMKs it returned. -/
structure Party (C : Curve) where
  provider : SaeProvider C
  sent : List Bytes
  session : Option Session
  done : List Pmk

/-- What can happen between the two sides. -/
inductive Event where
  | start (side : Side)
  | timeout (side : Side)
  /-- The `n`-th frame of the peer arrives, for the first time or again. -/
  | deliver (side : Side) (n : ℕ)
  /-- A token request arrives. -/
  | tokenRequest (side : Side) (body : Bytes)

variable {C : Curve}

/-- The session a state holds. -/
def heldSession : Sae.State C → Option Session
  | .confirmed session => some session
  | _ => none

/-- The frame a call sends. -/
def sentBy : Except Fault Step → List Bytes
  | .ok (.send frame) => [frame]
  | _ => []

/-- The PMK a call ends with. -/
def doneBy : Except Fault Step → List Pmk
  | .ok (.done pmk) => [pmk]
  | _ => []

/-- A party after one call of its provider. -/
def Party.record (a : Party C) (r : SaeProvider C × Except Fault Step) : Party C where
  provider := r.1
  sent := a.sent ++ sentBy r.2
  session := (heldSession r.1.state).or a.session
  done := a.done ++ doneBy r.2

variable (P : Primitives) (x : Setup)

/-- What a provider is told about its peer. -/
def Setup.ctx (s : Side) : AuthContext where
  ssid := x.ssid
  bssid := x.mac s.peer
  ownMac := x.mac s
  akm := .sae

/-- The token request with a given body. -/
def tokenRequestFrame (body : Bytes) : Bytes := authHeader seqCommit statusAntiClogging ++ body

/-- The state of the system: one party a side. -/
abbrev Pair (C : Curve) : Type := Side → Party C

/-- Two sides at rest, with the password they share. -/
def init : Pair C := fun s =>
  { provider := withSeed x.password (x.seed s), sent := [], session := none, done := [] }

/-- One event. -/
def step (S : Pair C) : Event → Pair C
  | .start s => Function.update S s ((S s).record ((S s).provider.startCall P (x.ctx s)))
  | .timeout s => Function.update S s ((S s).record (S s).provider.onTimeout)
  | .deliver s n =>
    match (S s.peer).sent[n]? with
    | some frame => Function.update S s ((S s).record ((S s).provider.onFrame P frame))
    | none => S
  | .tokenRequest s body =>
    Function.update S s ((S s).record ((S s).provider.onFrame P (tokenRequestFrame body)))

/-- The system after a list of events. -/
def run (events : List Event) : Pair C :=
  Machine.exec (fun S e => (step P x S e, ())) (init x) events

/-! ## The keys both commits determine -/

/-- The password element of a side. -/
def Setup.pwe (s : Side) : C.Point :=
  passwordElement C P (passwordToken C P x.ssid x.password) (x.mac s) (x.mac s.peer)

/-- The commit a side makes. -/
def Setup.IsCommit (s : Side) (c : Commit C) : Prop := newCommit (x.pwe P s) (x.seed s) = .ok c

/-- The session and the PMKID a side derives from its own commit and its peer's. -/
def Setup.Derives (s : Side) (session : Session) (pmkid : Octets 16) : Prop :=
  ∃ (own peer : Commit C) (element : C.Point) (k : Octets 32),
    x.IsCommit P s own ∧ x.IsCommit P s.peer peer ∧
    decodeElement C peer.elementBytes = .ok element ∧
    xCoordinate C (sharedPoint own peer.scalar element) = .ok k ∧
    session = newSession P own peer.scalarBytes peer.elementBytes peer.scalar k ∧
    pmkid = pmkidOf (context own peer.scalar)

variable {P x} {s : Side} {S : Pair C}

theorem sentBy_silent {r : Except Fault Step} (h : Silent r) : sentBy r = [] := by
  cases r with
  | error e => rfl
  | ok st =>
    cases st with
    | wait => rfl
    | send f => cases h
    | done pmk => cases h

theorem doneBy_silent {r : Except Fault Step} (h : Silent r) : doneBy r = [] := by
  cases r with
  | error e => rfl
  | ok st =>
    cases st with
    | wait => rfl
    | send f => rfl
    | done pmk => cases h

theorem pwe_peer (s : Side) : x.pwe (C := C) P s.peer = x.pwe P s := by
  unfold Setup.pwe
  rw [Side.peer_peer, passwordElement_comm]

theorem IsCommit.unique {c c' : Commit C} (h : x.IsCommit P s c) (h' : x.IsCommit P s c') :
    c = c' := by
  unfold Setup.IsCommit at h h'
  rw [h] at h'
  exact Except.ok.inj h'

/-- **The sessions of the two sides hold the same keys**, with the commits the other way round. -/
theorem Derives.agree {v v' : Session} {i i' : Octets 16}
    (h : x.Derives (C := C) P s v i) (h' : x.Derives (C := C) P s.peer v' i') :
    v.kck = v'.kck ∧ v.pmk = v'.pmk ∧ i = i' ∧
      v.ownScalarBytes = v'.peerScalarBytes ∧ v.ownElementBytes = v'.peerElementBytes ∧
      v.peerScalarBytes = v'.ownScalarBytes ∧ v.peerElementBytes = v'.ownElementBytes := by
  obtain ⟨own, peer, element, k, hown, hpeer, helement, hk, rfl, rfl⟩ := h
  obtain ⟨own', peer', element', k', hown', hpeer', helement', hk', rfl, rfl⟩ := h'
  rw [Side.peer_peer] at hpeer'
  obtain rfl := IsCommit.unique hpeer hown'
  obtain rfl := IsCommit.unique hown hpeer'
  obtain ⟨maskA, hpweA, hsumA, -, hencA⟩ := newCommit_eq_ok hown
  obtain ⟨maskB, hpweB, hsumB, -, hencB⟩ := newCommit_eq_ok hpeer
  rw [pwe_peer] at hpweB hencB
  rw [decodeElement_encodeElement hencB helement] at hk
  rw [decodeElement_encodeElement hencA helement'] at hk'
  have hkk : k = k' := by
    rw [sharedPoint_comm hpweA hpweB hsumA hsumB, hk'] at hk
    exact (Except.ok.inj hk).symm
  have hcontext : context own peer.scalar = context peer own.scalar := by
    unfold context
    rw [add_comm]
  subst hkk
  refine ⟨?_, ?_, ?_, rfl, rfl, rfl, rfl⟩
  · simp only [newSession, hcontext]
  · simp only [newSession, hcontext]
  · rw [hcontext]

/-! ## The invariant of one side -/

variable (P x) in
/-- A frame this side may send: a commit frame of its commit, or a confirm of its session. -/
def MaySend (s : Side) (a : Party C) (f : Bytes) : Prop :=
  (∃ token c, x.IsCommit (C := C) P s c ∧ f = commitFrame token c) ∨
    ∃ n v, a.session = some v ∧ f = confirmFrame P n v

variable (P x) in
/-- What holds of one side: its commit is the one its seed gives, its session the one both commits
determine, and every frame it has sent is a commit or a confirm over them. -/
structure PartyInv (s : Side) (a : Party C) : Prop where
  idle : a.provider.state = .idle → a.provider.password = x.password ∧ a.provider.seed = x.seed s
  committed : ∀ c, a.provider.state = .committed c →
    x.IsCommit P s c ∧ ∃ token, a.provider.lastSent = commitFrame token c
  confirmed : ∀ v, a.provider.state = .confirmed v →
    a.session = some v ∧ ∃ n, a.provider.lastSent = confirmFrame P n v
  early : (a.provider.state = .idle ∨ ∃ c, a.provider.state = .committed c) → a.session = none
  derived : ∀ v, a.session = some v →
    ∃ pmkid, a.provider.pmkid = some pmkid ∧ x.Derives (C := C) P s v pmkid
  sent : ∀ f ∈ a.sent, MaySend P x s a f

section Party

variable {a : Party C}

/-- A call that keeps the state's payload and the PMKID, or ends the exchange. -/
theorem PartyInv.quiet (h : PartyInv P x s a) (p' : SaeProvider C) (r : Except Fault Step)
    (hsends : ∀ f ∈ sentBy r, MaySend P x s a f)
    (hpassword : p'.password = a.provider.password) (hseed : p'.seed = a.provider.seed)
    (hpmkid : p'.pmkid = a.provider.pmkid)
    (hstate : p'.state = .failed ∨ p'.state = .accepted ∨
      (p'.state = a.provider.state ∧ p'.lastSent = a.provider.lastSent)) :
    PartyInv P x s (a.record (p', r)) ∧ (a.record (p', r)).session = a.session := by
  have hsession : (a.record (p', r)).session = a.session := by
    change (heldSession p'.state).or a.session = a.session
    rcases hstate with hst | hst | ⟨hst, -⟩
    · rw [hst]; rfl
    · rw [hst]; rfl
    · rw [hst]
      cases ha : a.provider.state with
      | confirmed v => rw [(h.confirmed v ha).1]; rfl
      | _ => rfl
  refine ⟨⟨?_, ?_, ?_, ?_, ?_, ?_⟩, hsession⟩
  · change p'.state = .idle → _
    rcases hstate with hst | hst | ⟨hst, -⟩
    · rw [hst]; exact fun hi => nomatch hi
    · rw [hst]; exact fun hi => nomatch hi
    · rw [hst]
      intro hi
      exact ⟨hpassword.trans (h.idle hi).1, hseed.trans (h.idle hi).2⟩
  · change ∀ c, p'.state = .committed c → _ ∧ ∃ token, p'.lastSent = _
    rcases hstate with hst | hst | ⟨hst, hlast⟩
    · rw [hst]; exact fun c hi => nomatch hi
    · rw [hst]; exact fun c hi => nomatch hi
    · rw [hst, hlast]; exact h.committed
  · rw [hsession]
    change ∀ v, p'.state = .confirmed v → _ ∧ ∃ n, p'.lastSent = _
    rcases hstate with hst | hst | ⟨hst, hlast⟩
    · rw [hst]; exact fun v hi => nomatch hi
    · rw [hst]; exact fun v hi => nomatch hi
    · rw [hst, hlast]; exact h.confirmed
  · rw [hsession]
    change (p'.state = .idle ∨ ∃ c, p'.state = .committed c) → _
    rcases hstate with hst | hst | ⟨hst, -⟩
    · rw [hst]; rintro (hi | ⟨c, hi⟩) <;> cases hi
    · rw [hst]; rintro (hi | ⟨c, hi⟩) <;> cases hi
    · rw [hst]; exact h.early
  · rw [hsession]
    change ∀ v, a.session = some v → ∃ pmkid, p'.pmkid = some pmkid ∧ _
    rw [hpmkid]
    exact h.derived
  · intro f hf
    rw [MaySend, hsession]
    rcases List.mem_append.mp hf with hf | hf
    · exact h.sent f hf
    · exact hsends f hf

theorem PartyInv.recommit (h : PartyInv P x s a) (p' : SaeProvider C) {c : Commit C}
    (token : Option Bytes) (hc : x.IsCommit P s c) (hearly : a.session = none)
    (hstate : p'.state = .committed c) (hlast : p'.lastSent = commitFrame token c) :
    PartyInv P x s (a.record (p', .ok (.send (commitFrame token c)))) ∧
      (a.record (p', .ok (.send (commitFrame token c)))).session = a.session := by
  have hsession : (a.record (p', .ok (.send (commitFrame token c)))).session = a.session := by
    change (heldSession p'.state).or a.session = a.session
    rw [hstate]; rfl
  refine ⟨⟨?_, ?_, ?_, ?_, ?_, ?_⟩, hsession⟩
  · change p'.state = .idle → _
    rw [hstate]; exact fun hi => nomatch hi
  · change ∀ c', p'.state = .committed c' → _ ∧ ∃ token, p'.lastSent = _
    rw [hstate, hlast]
    rintro c' ⟨⟩
    exact ⟨hc, token, rfl⟩
  · change ∀ v, p'.state = .confirmed v → _
    rw [hstate]; exact fun v hi => nomatch hi
  · rw [hsession]
    exact fun _ => hearly
  · rw [hsession, hearly]
    exact fun v hv => nomatch hv
  · intro f hf
    rw [MaySend, hsession]
    rcases List.mem_append.mp hf with hf | hf
    · exact h.sent f hf
    · exact .inl ⟨token, c, hc, List.mem_singleton.mp hf⟩

variable (P x) in
/-- Where the frames a side receives come from. -/
structure FromPeer (s : Side) (peer : Party C) (frame : Bytes) : Prop where
  commit : ∀ auth, parseAuth frame = .ok auth → auth.seq = seqCommit → auth.status = statusH2e →
    ∃ c, x.IsCommit (C := C) P s.peer c ∧
      parseCommit auth.body = .ok (c.scalarBytes, c.elementBytes)
  confirm : ∀ auth, parseAuth frame = .ok auth → auth.seq = seqConfirm →
    ∃ v, peer.session = some v

/-- **One frame keeps the invariant**, and a session once derived stays. -/
theorem PartyInv.onFrame {peer : Party C} {frame : Bytes} (h : PartyInv P x s a)
    (hfrom : FromPeer P x s peer frame) :
    PartyInv P x s (a.record (a.provider.onFrame P frame)) ∧
      ∀ v, a.session = some v → (a.record (a.provider.onFrame P frame)).session = some v := by
  have hs := onFrame_step (P := P) a.provider frame
  generalize a.provider.onFrame P frame = q at hs ⊢
  obtain ⟨p', r⟩ := q
  cases hs with
  | keep _ hsilent =>
    obtain ⟨hinv, hsession⟩ := h.quiet a.provider r
      (fun f hf => by rw [sentBy_silent hsilent] at hf; cases hf) rfl rfl rfl (.inr (.inr ⟨rfl, rfl⟩))
    exact ⟨hinv, fun v hv => hsession.trans hv⟩
  | fail e =>
    obtain ⟨hinv, hsession⟩ := h.quiet { a.provider with state := .failed } (.error e)
      (fun f hf => nomatch hf) rfl rfl rfl (.inl rfl)
    exact ⟨hinv, fun v hv => hsession.trans hv⟩
  | confirm v auth hst hauth hseq =>
    obtain ⟨hinv, hsession⟩ := h.quiet { a.provider with state := .accepted, lastSent := [] }
      (.ok (.done v.pmk)) (fun f hf => nomatch hf) rfl rfl rfl (.inr (.inl rfl))
    exact ⟨hinv, fun v hv => hsession.trans hv⟩
  | token c token hst =>
    obtain ⟨hinv, hsession⟩ := h.recommit (a.provider.afterTokenRequest c token) (some token)
      (h.committed c hst).1 (h.early (.inr ⟨c, hst⟩)) rfl rfl
    exact ⟨hinv, fun v hv => hsession.trans hv⟩
  | commit c auth _ st hst hauth hseq hstatus hok =>
    obtain ⟨scalarB, elementB, peerScalar, element, k, hparse, -, hscalar, helement, hk, rfl, rfl⟩ :=
      onCommit_eq_ok hok
    obtain ⟨c', hc', hparse'⟩ := hfrom.commit auth hauth hseq hstatus
    rw [hparse'] at hparse
    cases hparse
    obtain ⟨mask, -, -, hbytes, -⟩ := newCommit_eq_ok hc'
    rw [hbytes] at hscalar
    obtain rfl := decodeScalar_scalarBytes hscalar
    have hearly := h.early (.inr ⟨c, hst⟩)
    refine ⟨⟨fun hi => (nomatch hi), fun c hi => (nomatch hi), ?_, ?_, ?_, ?_⟩, ?_⟩
    · rintro v ⟨⟩
      exact ⟨rfl, _, rfl⟩
    · rintro (hi | ⟨c, hi⟩) <;> cases hi
    · rintro v ⟨⟩
      exact ⟨_, rfl, c, c', element, k, (h.committed c hst).1, hc', helement, hk, rfl, rfl⟩
    · intro f hf
      rcases List.mem_append.mp hf with hf | hf
      · rcases h.sent f hf with hcommit | ⟨n, v, hv, -⟩
        · exact .inl hcommit
        · rw [hearly] at hv
          cases hv
      · exact .inr ⟨_, _, rfl, List.mem_singleton.mp hf⟩
    · rw [hearly]
      exact fun v hv => nomatch hv

theorem PartyInv.onTimeout (h : PartyInv P x s a) :
    PartyInv P x s (a.record a.provider.onTimeout) ∧
      (a.record a.provider.onTimeout).session = a.session := by
  obtain ⟨sync, hp, hr⟩ := onTimeout_eq a.provider
  generalize a.provider.onTimeout = q at hp hr ⊢
  obtain ⟨p', r⟩ := q
  simp only at hp hr
  subst hp
  refine h.quiet _ r ?_ rfl rfl rfl (.inr (.inr ⟨rfl, rfl⟩))
  intro f hf
  rcases hr with hsilent | ⟨rfl, ⟨c, hst⟩ | ⟨v, hst⟩⟩
  · rw [sentBy_silent hsilent] at hf
    cases hf
  · obtain ⟨hc, token, hlast⟩ := h.committed c hst
    exact .inl ⟨token, c, hc, (List.mem_singleton.mp hf).trans hlast⟩
  · obtain ⟨hv, n, hlast⟩ := h.confirmed v hst
    exact .inr ⟨n, v, hv, (List.mem_singleton.mp hf).trans hlast⟩

theorem PartyInv.onStart (h : PartyInv P x s a) :
    PartyInv P x s (a.record (a.provider.startCall P (x.ctx s))) ∧
      (a.record (a.provider.startCall P (x.ctx s))).session = a.session := by
  unfold startCall
  cases hr : a.provider.start P (x.ctx s) with
  | error e => exact h.quiet _ (.error e) (fun f hf => nomatch hf) rfl rfl rfl (.inr (.inr ⟨rfl, rfl⟩))
  | ok q =>
    obtain ⟨p', st⟩ := q
    obtain ⟨hidle, c, hc, rfl, rfl⟩ := start_eq_ok hr
    obtain ⟨hpassword, hseed⟩ := h.idle hidle
    rw [hpassword, hseed] at hc
    exact h.recommit (a.provider.afterStart c) a.provider.token hc (h.early (.inl hidle)) rfl rfl

/-- A PMK is returned only on a confirm, out of the session that awaits it. -/
theorem onFrame_done {p : SaeProvider C} {frame : Bytes} {pmk : Pmk}
    (h : pmk ∈ doneBy (p.onFrame P frame).2) : ∃ v auth, p.state = .confirmed v ∧ pmk = v.pmk ∧
      parseAuth frame = .ok auth ∧ auth.seq = seqConfirm := by
  have hs := onFrame_step (P := P) p frame
  generalize p.onFrame P frame = q at hs h
  obtain ⟨p', r⟩ := q
  cases hs with
  | keep _ hsilent => rw [doneBy_silent hsilent] at h; cases h
  | fail e => cases h
  | token c token hst => cases h
  | confirm v auth hst hauth hseq => exact ⟨v, auth, hst, List.mem_singleton.mp h, hauth, hseq⟩
  | commit c auth _ st hst hauth hseq hstatus hok =>
    obtain ⟨_, _, _, _, _, -, -, -, -, -, -, rfl⟩ := onCommit_eq_ok hok
    cases h

end Party

/-! ## The invariant of the system -/

theorem PartyInv.fromPeer {peer : Party C} {f : Bytes} (h : PartyInv P x s.peer peer)
    (hf : f ∈ peer.sent) : FromPeer P x s peer f := by
  rcases h.sent f hf with ⟨token, c, hc, rfl⟩ | ⟨n, v, hv, rfl⟩
  · obtain ⟨body, hparse, hcommit⟩ := parseCommit_commitFrame token c
    refine ⟨?_, ?_⟩
    · intro auth hauth _ _
      rw [hparse] at hauth
      cases hauth
      exact ⟨c, hc, hcommit⟩
    · intro auth hauth hseq
      rw [hparse] at hauth
      cases hauth
      cases hseq
  · obtain ⟨body, hparse, -⟩ := parseAuth_confirmFrame (P := P) n v
    refine ⟨?_, fun auth _ _ => ⟨v, hv⟩⟩
    intro auth hauth hseq _
    rw [hparse] at hauth
    cases hauth
    cases hseq

theorem fromPeer_tokenRequest {peer : Party C} (body : Bytes) :
    FromPeer P x s peer (tokenRequestFrame body) := by
  have hparse : parseAuth (tokenRequestFrame body) =
      .ok { seq := seqCommit, status := statusAntiClogging, body } :=
    parseAuth_authHeader _ _ _ (by decide) (by decide)
  refine ⟨?_, ?_⟩
  · intro auth hauth _ hstatus
    rw [hparse] at hauth
    cases hauth
    cases hstatus
  · intro auth hauth hseq
    rw [hparse] at hauth
    cases hauth
    cases hseq

variable (P x) in
/-- What holds of both sides: each keeps its invariant, and a PMK was returned only where both have
derived a session. -/
structure PairInv (S : Pair C) : Prop where
  party : ∀ s, PartyInv P x s (S s)
  done : ∀ s, ∀ pmk ∈ (S s).done, ∃ v v',
    (S s).session = some v ∧ (S s.peer).session = some v' ∧ pmk = v.pmk

theorem PairInv.update (h : PairInv P x S) (t : Side) (r : SaeProvider C × Except Fault Step)
    (hparty : PartyInv P x t ((S t).record r))
    (hsession : ∀ v, (S t).session = some v → ((S t).record r).session = some v)
    (hdone : ∀ pmk ∈ doneBy r.2, ∃ v v',
      (S t).session = some v ∧ (S t.peer).session = some v' ∧ pmk = v.pmk) :
    PairInv P x (Function.update S t ((S t).record r)) := by
  have hself : Function.update S t ((S t).record r) t = (S t).record r := Function.update_self ..
  have hpeer : Function.update S t ((S t).record r) t.peer = S t.peer :=
    Function.update_of_ne t.peer_ne _ _
  refine ⟨?_, ?_⟩
  · intro s
    rcases Side.eq_or_eq_peer t s with rfl | rfl
    · rw [hself]
      exact hparty
    · rw [hpeer]
      exact h.party _
  · intro s pmk hmem
    rcases Side.eq_or_eq_peer t s with rfl | rfl
    · rw [hself] at hmem ⊢
      rw [hpeer]
      obtain ⟨v, v', hv, hv', hpmk⟩ : ∃ v v', (S s).session = some v ∧
          (S s.peer).session = some v' ∧ pmk = v.pmk := by
        rcases List.mem_append.mp hmem with hmem | hmem
        · exact h.done s pmk hmem
        · exact hdone pmk hmem
      exact ⟨v, v', hsession v hv, hv', hpmk⟩
    · rw [hpeer] at hmem ⊢
      obtain ⟨v, v', hv, hv', hpmk⟩ := h.done t.peer pmk hmem
      rw [Side.peer_peer] at hv' ⊢
      rw [hself]
      exact ⟨v, v', hv, hsession v' hv', hpmk⟩

theorem PairInv.receive (h : PairInv P x S) (t : Side) (frame : Bytes)
    (hfrom : FromPeer P x t (S t.peer) frame) :
    PairInv P x (Function.update S t ((S t).record ((S t).provider.onFrame P frame))) := by
  obtain ⟨hparty, hsession⟩ := (h.party t).onFrame hfrom
  refine h.update t _ hparty hsession ?_
  intro pmk hmem
  obtain ⟨v, auth, hst, hpmk, hauth, hseq⟩ := onFrame_done hmem
  obtain ⟨v', hv'⟩ := hfrom.confirm auth hauth hseq
  exact ⟨v, v', ((h.party t).confirmed v hst).1, hv', hpmk⟩

/-- **One event keeps the invariant.** -/
theorem PairInv.step (h : PairInv P x S) (e : Event) : PairInv P x (step P x S e) := by
  cases e with
  | start t =>
    obtain ⟨hparty, hsession⟩ := (h.party t).onStart
    refine h.update t _ hparty (fun v hv => hsession.trans hv) ?_
    intro pmk hmem
    unfold startCall at hmem
    cases hr : (S t).provider.start P (x.ctx t) with
    | error e => rw [hr] at hmem; cases hmem
    | ok q =>
      obtain ⟨p', st⟩ := q
      obtain ⟨-, c, -, rfl, rfl⟩ := start_eq_ok hr
      rw [hr] at hmem
      cases hmem
  | timeout t =>
    obtain ⟨hparty, hsession⟩ := (h.party t).onTimeout
    refine h.update t _ hparty (fun v hv => hsession.trans hv) ?_
    intro pmk hmem
    obtain ⟨sync, -, hr⟩ := onTimeout_eq (S t).provider
    rcases hr with hsilent | ⟨hr, -⟩
    · rw [doneBy_silent hsilent] at hmem
      cases hmem
    · rw [hr] at hmem
      cases hmem
  | deliver t n =>
    simp only [SaePair.step]
    cases hn : (S t.peer).sent[n]? with
    | none => exact h
    | some frame => exact h.receive t frame ((h.party t.peer).fromPeer (List.mem_of_getElem? hn))
  | tokenRequest t body => exact h.receive t _ (fromPeer_tokenRequest body)

theorem pairInv_init : PairInv (C := C) P x (init x) := by
  refine ⟨fun s => ⟨fun _ => ⟨rfl, rfl⟩, fun c hc => (nomatch hc), fun v hv => (nomatch hv),
    fun _ => rfl, fun v hv => (nomatch hv), fun f hf => (nomatch hf)⟩, fun s pmk hmem => nomatch hmem⟩

theorem pairInv_run (events : List Event) : PairInv (C := C) P x (run P x events) :=
  Machine.Reachable.invariant ⟨events, rfl⟩ pairInv_init fun _ e h => h.step e

/-! ## Agreement -/

/-- The frame is a confirm. -/
def IsConfirm (frame : Bytes) : Prop := ∃ auth, parseAuth frame = .ok auth ∧ auth.seq = seqConfirm

/-- **A side's confirm verifies at the other.** -/
theorem PairInv.confirm_verifies (h : PairInv P x S) {v : Session} {frame : Bytes}
    (hst : (S s).provider.state = .confirmed v) (hsent : frame ∈ (S s.peer).sent)
    (hconfirm : IsConfirm frame) : ((S s).provider.onFrame P frame).2 = .ok (.done v.pmk) := by
  obtain ⟨auth, hauth, hseq⟩ := hconfirm
  rcases (h.party s.peer).sent frame hsent with ⟨token, c, -, rfl⟩ | ⟨n, v', hv', rfl⟩
  · obtain ⟨body, hparse, -⟩ := parseCommit_commitFrame token c
    rw [hparse] at hauth
    cases hauth
    cases hseq
  · obtain ⟨body, hparse, hlen, hcounter, hhash⟩ := parseAuth_confirmFrame (P := P) n v'
    obtain ⟨i, -, hd⟩ := (h.party s).derived v ((h.party s).confirmed v hst).1
    obtain ⟨i', -, hd'⟩ := (h.party s.peer).derived v' hv'
    obtain ⟨hkck, hpmk, -, hos, hoe, hps, hpe⟩ := Derives.agree hd hd'
    have hverify : (S s).provider.onConfirm P v body =
        .ok ({ (S s).provider with state := .accepted, lastSent := [] }, .done v.pmk) := by
      unfold onConfirm
      rw [if_neg (by omega)]
      simp only [hcounter, hhash, hkck, hos, hoe, hps, hpe, if_true]
    rw [onFrame, hparse]
    simp only [hst, admissible, hverify]
    rfl

/-- The frame is a commit. -/
def IsCommitFrame (frame : Bytes) : Prop :=
  ∃ auth, parseAuth frame = .ok auth ∧ auth.seq = seqCommit ∧ auth.status = statusH2e

/-- **A commit that is processed without error leaves a session.** -/
theorem session_of_commit {c : Commit C} {n : ℕ} {frame : Bytes} {st : Step}
    (hst : (S s).provider.state = .committed c) (hsent : (S s.peer).sent[n]? = some frame)
    (hcommit : IsCommitFrame frame) (hok : ((S s).provider.onFrame P frame).2 = .ok st) :
    ∃ v, (step P x S (.deliver s n) s).session = some v := by
  obtain ⟨auth, hauth, hseq, hstatus⟩ := hcommit
  have hadm : admissible auth = true := by simp [admissible, hseq, hstatus]
  have htoken : auth.status ≠ statusAntiClogging := by rw [hstatus]; decide
  have hframe : (S s).provider.onFrame P frame =
      (S s).provider.settle ((S s).provider.onCommit P c auth.body) := by
    rw [onFrame, hauth]
    simp only [hadm, hst, hseq, htoken, Bool.not_true, Bool.false_eq_true, if_true, if_false]
  simp only [SaePair.step, hsent, Function.update_self]
  rw [hframe] at hok ⊢
  cases hr : (S s).provider.onCommit P c auth.body with
  | error e => rw [hr] at hok; cases hok
  | ok r =>
    obtain ⟨p', st'⟩ := r
    obtain ⟨_, _, peerScalar, _, _, -, -, -, -, -, rfl, -⟩ := onCommit_eq_ok hr
    exact ⟨_, rfl⟩

/-- **Agreement.** In every state the two sides can reach, through any order of their frames with
losses, repetitions, retransmissions and token requests: a peer's commit processed without error
leaves a session; sides that have processed each other's commits hold the same KCK, PMK and PMKID; a
confirm of one is accepted by the other; and a PMK is returned only where both sides derived it. -/
theorem sae_agreement (C : Curve) (P : Primitives) (x : Setup) (events : List Event) (s : Side) :
    let S : Pair C := run P x events
    (∀ c n frame st, (S s).provider.state = .committed c → (S s.peer).sent[n]? = some frame →
      IsCommitFrame frame → ((S s).provider.onFrame P frame).2 = .ok st →
      ∃ v, (step P x S (.deliver s n) s).session = some v) ∧
    (∀ v v', (S s).session = some v → (S s.peer).session = some v' →
      v.kck = v'.kck ∧ v.pmk = v'.pmk ∧
        ∃ pmkid, (S s).provider.pmkid = some pmkid ∧ (S s.peer).provider.pmkid = some pmkid) ∧
    (∀ v frame, (S s).provider.state = .confirmed v → frame ∈ (S s.peer).sent → IsConfirm frame →
      ((S s).provider.onFrame P frame).2 = .ok (.done v.pmk)) ∧
    (∀ pmk ∈ (S s).done, ∃ v v', (S s).session = some v ∧ (S s.peer).session = some v' ∧
      pmk = v.pmk ∧ pmk = v'.pmk) ∧
    (∀ pmk ∈ (S s).done, ∀ pmk' ∈ (S s.peer).done, pmk = pmk') := by
  intro S
  have h : PairInv P x S := pairInv_run events
  have hagree : ∀ v v', (S s).session = some v → (S s.peer).session = some v' →
      v.kck = v'.kck ∧ v.pmk = v'.pmk ∧
        ∃ pmkid, (S s).provider.pmkid = some pmkid ∧ (S s.peer).provider.pmkid = some pmkid := by
    intro v v' hv hv'
    obtain ⟨i, hi, hd⟩ := (h.party s).derived v hv
    obtain ⟨i', hi', hd'⟩ := (h.party s.peer).derived v' hv'
    obtain ⟨hkck, hpmk, rfl, -⟩ := Derives.agree hd hd'
    exact ⟨hkck, hpmk, i, hi, hi'⟩
  have hdone : ∀ pmk ∈ (S s).done, ∃ v v', (S s).session = some v ∧
      (S s.peer).session = some v' ∧ pmk = v.pmk ∧ pmk = v'.pmk := by
    intro pmk hmem
    obtain ⟨v, v', hv, hv', rfl⟩ := h.done s pmk hmem
    exact ⟨v, v', hv, hv', rfl, (hagree v v' hv hv').2.1⟩
  refine ⟨fun c n frame st hst hsent hc hok => session_of_commit hst hsent hc hok, hagree,
    fun v frame hst hsent hc => h.confirm_verifies hst hsent hc, hdone, ?_⟩
  intro pmk hmem pmk' hmem'
  obtain ⟨v, v', -, hv', -, hpmk⟩ := hdone pmk hmem
  obtain ⟨w', w, hw', -, hpmk'⟩ := h.done s.peer pmk' hmem'
  rw [hv'] at hw'
  cases hw'
  rw [hpmk, hpmk']

/-! ### A sample run -/

/-- Two stations with one password. -/
def sampleSetup : Setup where
  password := "password"
  ssid := [110]
  mac
    | .station => List.Vector.replicate 6 2
    | .accessPoint => List.Vector.replicate 6 1
  seed
    | .station => List.Vector.replicate _ 3
    | .accessPoint => List.Vector.replicate _ 2

/-- The station's commit is lost, sent again, and asked for with a token; the access point's arrives
twice; then each side has the other's confirm. -/
def sampleEvents : List Event :=
  [.start .station, .timeout .station, .tokenRequest .station [19, 0, 255, 2, 93, 7],
    .start .accessPoint, .deliver .accessPoint 2, .deliver .station 0, .deliver .station 0,
    .deliver .station 1, .deliver .accessPoint 3]

/-- The exchange of the two, up to the end. -/
def sampleRun : Pair .five := run .sample sampleSetup sampleEvents

/-- **Both sides of the sample run are done**, with one PMK. -/
theorem sae_agreement_sample :
    ∃ pmk, (sampleRun .station).done = [pmk] ∧ (sampleRun .accessPoint).done = [pmk] := by
  have hstation : (sampleRun .station).done.length = 1 := by decide +kernel
  have hpeer : (sampleRun .accessPoint).done.length = 1 := by decide +kernel
  obtain ⟨pmk, hpmk⟩ := List.length_eq_one_iff.mp hstation
  obtain ⟨pmk', hpmk'⟩ := List.length_eq_one_iff.mp hpeer
  have hsame : ∀ pmk ∈ (sampleRun .station).done, ∀ pmk' ∈ (sampleRun .accessPoint).done,
      pmk = pmk' :=
    (sae_agreement .five .sample sampleSetup sampleEvents .station).2.2.2.2
  rw [hpmk, hpmk'] at hsame
  obtain rfl := hsame pmk (List.mem_singleton_self _) pmk' (List.mem_singleton_self _)
  exact ⟨pmk, hpmk, hpmk'⟩

end SaePair

end Caw
