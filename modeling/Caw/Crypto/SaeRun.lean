import Caw.Crypto.Sae
import Caw.Lib.Machine

/-!
# Runs of one SAE exchange

One provider against whatever frames and timeouts reach it, tokens, replays and forgeries included.

* `Input`, `call`: a provider as a machine;
* `sentFrame`, `donePmk`, `lastFrame`: what an observer sees of it;
* `CommitsTo`: the commit frames of a history carry one scalar and one element;
* `Verifies`, `onFrame_eq_done`: the confirm a PMK is returned on;
* `Tells`: the invariant that ties the provider's state to its history;
* **`exchange_run`**: one commit, unchanged retransmissions, and at most one PMK, on a confirm that
  verifies.
-/

set_option autoImplicit false

namespace Caw

open Crypto (Error Fault)
open Machine (Entry entry log exec Along)
open Sae

namespace SaeProvider

/-- A call of a provider. -/
inductive Input where
  | start (ctx : AuthContext)
  | frame (bytes : Bytes)
  | timeout

variable {C : Curve} (P : Primitives)

/-- One input to a provider. -/
def call (p : SaeProvider C) : Input → SaeProvider C × Except Fault Step
  | .start ctx => p.startCall P ctx
  | .frame bytes => p.onFrame P bytes
  | .timeout => p.onTimeout

/-- A step of a provider's run. -/
abbrev Event (C : Curve) : Type := Entry (SaeProvider C) Input (Except Fault Step)

/-! ## Observations -/

/-- The frame a call puts on the air. -/
def sentFrame : Except Fault Step → Option Bytes
  | .ok (.send frame) => some frame
  | _ => none

/-- The PMK a call returns. -/
def donePmk : Except Fault Step → Option Pmk
  | .ok (.done pmk) => some pmk
  | _ => none

/-- The frames of a history. -/
def framesOf (past : List (Event C)) : List Bytes := past.filterMap fun e => sentFrame e.output

/-- The frame a history put on the air last. -/
def lastFrame (past : List (Event C)) : Option Bytes := (framesOf past).getLast?

/-- The PMKs a history returned. -/
def pmksOf (past : List (Event C)) : List Pmk := past.filterMap fun e => donePmk e.output

/-- If the frame is a commit, it carries this scalar and this element. -/
def CarriesCommit (scalar : Octets scalarLen) (element : Octets elementLen) (frame : Bytes) : Prop :=
  ∀ auth, parseAuth frame = .ok auth → auth.seq = seqCommit →
    parseCommit auth.body = .ok (scalar, element)

/-- Every commit a history has put on the air, and every session it has held, is over this scalar and
this element. -/
structure CommitsTo (past : List (Event C)) (scalar : Octets scalarLen)
    (element : Octets elementLen) : Prop where
  sent : ∀ frame ∈ framesOf past, CarriesCommit scalar element frame
  held : ∀ e ∈ past, ∀ session, e.pre.state = .confirmed session →
    session.ownScalarBytes = scalar ∧ session.ownElementBytes = element

/-- A confirm that verifies under the KCK of a session, over the peer's and then the own commit. -/
structure Verifies (p : SaeProvider C) (frame : Bytes) (session : Session) (auth : AuthFrame) :
    Prop where
  awaited : p.state = .confirmed session
  header : parseAuth frame = .ok auth
  seq : auth.seq = seqConfirm
  status : auth.status = statusSuccess
  whole : 2 + hashLen ≤ auth.body.length
  verifier : Bytes.slice 2 hashLen auth.body = confirmHash P session.kck (Bytes.slice 0 2 auth.body)
    session.peerScalarBytes session.peerElementBytes session.ownScalarBytes session.ownElementBytes

/-- The commit a session was derived from has arrived. -/
def PeerCommitted (past : List (Event C)) (session : Session) : Prop :=
  ∃ e ∈ past, ∃ bytes auth, e.input = .frame bytes ∧ parseAuth bytes = .ok auth ∧
    auth.seq = seqCommit ∧ auth.status = statusH2e ∧
    parseCommit auth.body = .ok (session.peerScalarBytes, session.peerElementBytes) ∧
    e.post.state = .confirmed session

@[simp] theorem framesOf_concat (past : List (Event C)) (e : Event C) :
    framesOf (past ++ [e]) = framesOf past ++ (sentFrame e.output).toList := by
  rw [framesOf, List.filterMap_append]
  cases h : sentFrame e.output <;> simp [h, framesOf]

@[simp] theorem pmksOf_concat (past : List (Event C)) (e : Event C) :
    pmksOf (past ++ [e]) = pmksOf past ++ (donePmk e.output).toList := by
  rw [pmksOf, List.filterMap_append]
  cases h : donePmk e.output <;> simp [h, pmksOf]

theorem sentFrame_silent {o : Except Fault Step} (h : Silent o) : sentFrame o = none := by
  unfold Silent at h
  split at h
  · rfl
  · rfl
  · exact h.elim

theorem donePmk_silent {o : Except Fault Step} (h : Silent o) : donePmk o = none := by
  unfold Silent at h
  split at h
  · rfl
  · rfl
  · exact h.elim

variable {P} {p : SaeProvider C} {past : List (Event C)} {frame : Bytes}

theorem PeerCommitted.concat {session : Session} (h : PeerCommitted past session) (e : Event C) :
    PeerCommitted (past ++ [e]) session := by
  obtain ⟨e', hmem, hrest⟩ := h
  exact ⟨e', List.mem_append_left _ hmem, hrest⟩

theorem CommitsTo.concat {scalar : Octets scalarLen} {element : Octets elementLen} {e : Event C}
    (h : CommitsTo past scalar element)
    (hsent : ∀ frame, sentFrame e.output = some frame → CarriesCommit scalar element frame)
    (hheld : ∀ session, e.pre.state = .confirmed session →
      session.ownScalarBytes = scalar ∧ session.ownElementBytes = element) :
    CommitsTo (past ++ [e]) scalar element := by
  refine ⟨fun frame hmem => ?_, fun e' hmem => ?_⟩
  · rw [framesOf_concat] at hmem
    rcases List.mem_append.mp hmem with hmem | hmem
    · exact h.sent frame hmem
    · exact hsent frame (Option.mem_toList.mp hmem)
  · rcases List.mem_append.mp hmem with hmem | hmem
    · exact h.held e' hmem
    · rw [List.mem_singleton.mp hmem]
      exact hheld

theorem carriesCommit_commitFrame (token : Option Bytes) (commit : Commit C) :
    CarriesCommit commit.scalarBytes commit.elementBytes (commitFrame token commit) := by
  obtain ⟨body, hparse, hcommit⟩ := parseCommit_commitFrame token commit
  intro auth hauth _
  rw [hparse] at hauth
  cases hauth
  exact hcommit

theorem carriesCommit_confirmFrame (n : UInt16) (session : Session) (scalar : Octets scalarLen)
    (element : Octets elementLen) : CarriesCommit scalar element (confirmFrame P n session) := by
  obtain ⟨body, hparse, -⟩ := parseAuth_confirmFrame (P := P) n session
  intro auth hauth hseq
  rw [hparse] at hauth
  cases hauth
  cases hseq

/-! ## The confirm a PMK is returned on -/

theorem onConfirm_verified {session : Session} {body : Bytes} {r : SaeProvider C × Step}
    (h : p.onConfirm P session body = .ok r) : 2 + hashLen ≤ body.length ∧
      Bytes.slice 2 hashLen body = confirmHash P session.kck (Bytes.slice 0 2 body)
        session.peerScalarBytes session.peerElementBytes session.ownScalarBytes
        session.ownElementBytes := by
  unfold onConfirm at h
  simp only at h
  split_ifs at h with hlen hver
  exact ⟨not_lt.mp hlen, hver.symm⟩

/-- **A PMK is returned on a confirm that verifies**, and it is the one of the session. -/
theorem onFrame_eq_done {pmk : Pmk} (h : (p.onFrame P frame).2 = .ok (.done pmk)) :
    ∃ session auth, Verifies P p frame session auth ∧ pmk = session.pmk := by
  have hs := onFrame_step (P := P) p frame
  obtain ⟨p', r, hq⟩ : ∃ p' r, p.onFrame P frame = (p', r) := ⟨_, _, rfl⟩
  rw [hq] at hs h
  cases hs with
  | keep _ hsilent => rw [h] at hsilent; exact hsilent.elim
  | fail e => cases h
  | token commit token hst => cases h
  | commit commit auth _ step hst hauth hseq hstatus hok =>
    obtain ⟨_, _, _, _, _, -, -, -, -, -, -, rfl⟩ := onCommit_eq_ok hok
    cases h
  | confirm session auth hst hauth hseq =>
    cases h
    unfold onFrame at hq
    simp only [hauth, hst, hseq] at hq
    split_ifs at hq with hadm
    · cases (Prod.mk.inj hq).2
    · have hstatus : auth.status = statusSuccess := by
        simpa [admissible, hseq, seqCommit, seqConfirm] using hadm
      cases hr : p.onConfirm P session auth.body with
      | error e => rw [hr] at hq; cases (Prod.mk.inj hq).2
      | ok r =>
        obtain ⟨hwhole, hver⟩ := onConfirm_verified hr
        exact ⟨session, auth, ⟨hst, hauth, hseq, hstatus, hwhole, hver⟩, rfl⟩

/-! ## The invariant of a run -/

variable (P) in
/-- The provider's state tells its history: the commit it has sent, the frame it would retransmit,
the peer's commit its session comes from, and whether a PMK has been returned. -/
structure Tells (past : List (Event C)) (p : SaeProvider C) : Prop where
  unstarted : p.state = .idle → framesOf past = [] ∧ ∀ e ∈ past, e.pre.state = .idle
  commits : ∃ scalar element, CommitsTo past scalar element ∧
    (∀ c, p.state = .committed c → c.scalarBytes = scalar ∧ c.elementBytes = element) ∧
    ∀ v, p.state = .confirmed v → v.ownScalarBytes = scalar ∧ v.ownElementBytes = element
  last : ((∃ c, p.state = .committed c) ∨ ∃ v, p.state = .confirmed v) →
    lastFrame past = some p.lastSent
  derived : ∀ v, p.state = .confirmed v → PeerCommitted past v
  returned : p.state ≠ .accepted → p.state ≠ .failed → pmksOf past = []
  once : (pmksOf past).length ≤ 1

variable {i : Input} {e : Event C}

theorem tells_init (password : String) (seed : Octets seedLen) :
    Tells ([] : List (Event C)) (withSeed password seed) := by
  have hidle : (withSeed password seed : SaeProvider C).state = .idle := rfl
  exact ⟨fun _ => ⟨rfl, by simp⟩, ⟨.zero _, .zero _, ⟨by simp [framesOf], by simp⟩, by simp [hidle],
    by simp [hidle]⟩, by simp [hidle], by simp [hidle], fun _ _ => rfl, by simp [pmksOf]⟩

/-- A step that puts nothing on the air and returns no PMK, and at most fails. -/
theorem Tells.silent {p' : SaeProvider C} (h : Tells past p) (hpre : e.pre = p)
    (hsilent : Silent e.output)
    (hstate : p'.state = .failed ∨ (p'.state = p.state ∧ p'.lastSent = p.lastSent)) :
    Tells (past ++ [e]) p' := by
  have hframes : framesOf (past ++ [e]) = framesOf past := by
    rw [framesOf_concat, sentFrame_silent hsilent, Option.toList_none, List.append_nil]
  have hpmks : pmksOf (past ++ [e]) = pmksOf past := by
    rw [pmksOf_concat, donePmk_silent hsilent, Option.toList_none, List.append_nil]
  obtain ⟨scalar, element, hcommits, hcommitted, hconfirmed⟩ := h.commits
  have hcommits' : CommitsTo (past ++ [e]) scalar element :=
    hcommits.concat (by simp [sentFrame_silent hsilent]) (by rwa [hpre])
  rcases hstate with hst | ⟨hst, hlast⟩
  · exact ⟨by simp [hst], ⟨scalar, element, hcommits', by simp [hst], by simp [hst]⟩,
      by simp [hst], by simp [hst], fun _ hnot => absurd hst hnot, by rw [hpmks]; exact h.once⟩
  · refine ⟨?_, ⟨scalar, element, hcommits', by rwa [hst], by rwa [hst]⟩, ?_, ?_, ?_, ?_⟩
    · rw [hst, hframes]
      intro hidle
      obtain ⟨hnone, hpast⟩ := h.unstarted hidle
      refine ⟨hnone, fun e' hmem => ?_⟩
      rcases List.mem_append.mp hmem with hmem | hmem
      · exact hpast e' hmem
      · rw [List.mem_singleton.mp hmem, hpre]
        exact hidle
    · rw [hst, hlast, lastFrame, hframes]
      exact h.last
    · rw [hst]
      exact fun v hv => (h.derived v hv).concat e
    · rw [hst, hpmks]
      exact h.returned
    · rw [hpmks]
      exact h.once

/-- A step that puts a frame on the air and keeps it for retransmission. -/
theorem Tells.sends {p' : SaeProvider C} {scalar : Octets scalarLen} {element : Octets elementLen}
    (h : Tells past p) (hout : e.output = .ok (.send frame)) (haccepted : p.state ≠ .accepted)
    (hfailed : p.state ≠ .failed) (hcommits : CommitsTo (past ++ [e]) scalar element)
    (hidle : p'.state ≠ .idle)
    (hcommitted : ∀ c, p'.state = .committed c → c.scalarBytes = scalar ∧ c.elementBytes = element)
    (hconfirmed : ∀ v, p'.state = .confirmed v → v.ownScalarBytes = scalar ∧ v.ownElementBytes = element)
    (hderived : ∀ v, p'.state = .confirmed v → PeerCommitted (past ++ [e]) v)
    (hlast : p'.lastSent = frame) : Tells (past ++ [e]) p' := by
  have hpmks : pmksOf (past ++ [e]) = [] := by
    rw [pmksOf_concat, hout, h.returned haccepted hfailed]
    rfl
  refine ⟨fun hno => absurd hno hidle, ⟨scalar, element, hcommits, hcommitted, hconfirmed⟩,
    fun _ => ?_, hderived, fun _ _ => hpmks, by rw [hpmks]; exact Nat.zero_le _⟩
  rw [lastFrame, framesOf_concat, hout, hlast]
  exact List.getLast?_concat

theorem Tells.returns {p' : SaeProvider C} {pmk : Pmk} (h : Tells past p) (hpre : e.pre = p)
    (hout : e.output = .ok (.done pmk)) (haccepted : p.state ≠ .accepted)
    (hfailed : p.state ≠ .failed) (hstate : p'.state = .accepted) : Tells (past ++ [e]) p' := by
  have hpmks : pmksOf (past ++ [e]) = [pmk] := by
    rw [pmksOf_concat, hout, h.returned haccepted hfailed]
    rfl
  obtain ⟨scalar, element, hcommits, -, hconfirmed⟩ := h.commits
  have hcommits' : CommitsTo (past ++ [e]) scalar element :=
    hcommits.concat (by simp [hout, sentFrame]) (by rwa [hpre])
  exact ⟨by simp [hstate], ⟨scalar, element, hcommits', by simp [hstate], by simp [hstate]⟩,
    by simp [hstate], by simp [hstate], fun hno => absurd hstate hno, by simp [hpmks]⟩

theorem Tells.onStart (h : Tells past p) (ctx : AuthContext) :
    Tells (past ++ [entry (call P) p (.start ctx)]) (p.startCall P ctx).1 := by
  cases hr : p.start P ctx with
  | error err =>
    have hcall : p.startCall P ctx = (p, .error err) := by rw [startCall, hr]
    have hentry : entry (call P) p (.start ctx) = ⟨p, .start ctx, .error err, p⟩ := by
      simp only [entry, call, hcall]
    rw [hcall, hentry]
    exact h.silent rfl trivial (.inr ⟨rfl, rfl⟩)
  | ok r =>
    obtain ⟨p', step⟩ := r
    obtain ⟨hst, commit, -, rfl, rfl⟩ := start_eq_ok hr
    have hcall : p.startCall P ctx = (p.afterStart commit, .ok (.send (commitFrame p.token commit))) := by
      rw [startCall, hr]
    have hentry : entry (call P) p (.start ctx) =
        ⟨p, .start ctx, .ok (.send (commitFrame p.token commit)), p.afterStart commit⟩ := by
      simp only [entry, call, hcall]
    obtain ⟨hnone, hpast⟩ := h.unstarted hst
    have hcommits : CommitsTo past commit.scalarBytes commit.elementBytes := by
      refine ⟨by simp [hnone], fun e hmem v hv => ?_⟩
      rw [hpast e hmem] at hv
      cases hv
    rw [hcall, hentry]
    refine h.sends rfl (by simp [hst]) (by simp [hst]) (hcommits.concat ?_ (by simp [hst]))
      (by simp [afterStart]) ?_ (by simp [afterStart]) (by simp [afterStart]) rfl
    · rintro _ ⟨⟩
      exact carriesCommit_commitFrame p.token commit
    · rintro c ⟨⟩
      exact ⟨rfl, rfl⟩

theorem Tells.onTimeout (h : Tells past p) :
    Tells (past ++ [entry (call P) p .timeout]) p.onTimeout.1 := by
  obtain ⟨sync, hpost, hsilent | ⟨hsend, hlive⟩⟩ := onTimeout_eq p
  · rw [hpost]
    exact h.silent rfl hsilent (.inr ⟨rfl, rfl⟩)
  · obtain ⟨scalar, element, hcommits, hcommitted, hconfirmed⟩ := h.commits
    have hcarries : CarriesCommit scalar element p.lastSent :=
      hcommits.sent _ (List.mem_of_getLast? (h.last hlive))
    have hcommits' : CommitsTo (past ++ [entry (call P) p .timeout]) scalar element := by
      refine hcommits.concat (fun f hf => ?_) hconfirmed
      change sentFrame p.onTimeout.2 = some f at hf
      rw [hsend] at hf
      cases hf
      exact hcarries
    rw [hpost]
    refine h.sends hsend ?_ ?_ hcommits' ?_ hcommitted hconfirmed
      (fun v hv => (h.derived v hv).concat _) rfl
    all_goals rcases hlive with ⟨c, hst⟩ | ⟨v, hst⟩ <;> simp [hst]

theorem Tells.onFrame (h : Tells past p) (frame : Bytes) :
    Tells (past ++ [entry (call P) p (.frame frame)]) (p.onFrame P frame).1 := by
  have hs := onFrame_step (P := P) p frame
  obtain ⟨p', r, hcall⟩ : ∃ p' r, p.onFrame P frame = (p', r) := ⟨_, _, rfl⟩
  have hentry : entry (call P) p (.frame frame) = ⟨p, .frame frame, r, p'⟩ := by
    simp only [entry, call, hcall]
  rw [hcall] at hs ⊢
  rw [hentry]
  obtain ⟨scalar, element, hcommits, hcommitted, hconfirmed⟩ := h.commits
  cases hs with
  | keep _ hsilent => exact h.silent rfl hsilent (.inr ⟨rfl, rfl⟩)
  | fail err => exact h.silent rfl trivial (.inl rfl)
  | token commit token hst =>
    obtain ⟨rfl, rfl⟩ := hcommitted commit hst
    refine h.sends rfl (by simp [hst]) (by simp [hst]) (hcommits.concat ?_ hconfirmed) (by simp) ?_
      (by simp) (by simp) rfl
    · rintro _ ⟨⟩
      exact carriesCommit_commitFrame _ commit
    · rintro c ⟨⟩
      exact ⟨rfl, rfl⟩
  | commit commit auth _ step hst hauth hseq hstatus hok =>
    obtain ⟨scalarB, elementB, peerScalar, peerElement, k, hparse, -, -, -, -, rfl, rfl⟩ :=
      onCommit_eq_ok hok
    obtain ⟨rfl, rfl⟩ := hcommitted commit hst
    refine h.sends rfl (by simp [hst]) (by simp [hst]) (hcommits.concat ?_ hconfirmed)
      (by simp [afterCommit]) (by simp [afterCommit]) ?_ ?_ rfl
    · rintro _ ⟨⟩
      exact carriesCommit_confirmFrame _ _ _ _
    · rintro v ⟨⟩
      exact ⟨rfl, rfl⟩
    · rintro v ⟨⟩
      exact ⟨_, List.mem_append_right _ List.mem_cons_self, frame, auth, rfl, hauth, hseq, hstatus,
        hparse, rfl⟩
  | confirm session auth hst hauth hseq =>
    exact h.returns rfl rfl (by simp [hst]) (by simp [hst]) rfl

/-- **One call keeps the invariant.** -/
theorem Tells.call (h : Tells past p) (i : Input) :
    Tells (past ++ [entry (call P) p i]) (p.call P i).1 := by
  cases i with
  | start ctx => exact h.onStart ctx
  | frame bytes => exact h.onFrame bytes
  | timeout => exact h.onTimeout

/-! ## The laws of a run -/

theorem Tells.repeats (h : Tells past p) (htimeout : i = .timeout)
    (hout : (p.call P i).2 = .ok (.send frame)) : lastFrame past = some frame := by
  subst htimeout
  obtain ⟨sync, -, hsilent | ⟨hsend, hlive⟩⟩ := onTimeout_eq p
  · change p.onTimeout.2 = _ at hout
    rw [hout] at hsilent
    exact hsilent.elim
  · cases hout.symm.trans hsend
    exact h.last hlive

/-- A PMK is returned on a confirm that verifies over a commit that has arrived. -/
theorem Tells.verified {pmk : Pmk} (h : Tells past p) (hout : (p.call P i).2 = .ok (.done pmk)) :
    ∃ bytes session auth, i = .frame bytes ∧ Verifies P p bytes session auth ∧ pmk = session.pmk ∧
      PeerCommitted past session := by
  cases i with
  | start ctx =>
    change (p.startCall P ctx).2 = _ at hout
    cases hr : p.start P ctx with
    | error err => rw [startCall, hr] at hout; cases hout
    | ok r =>
      obtain ⟨p', step⟩ := r
      obtain ⟨-, commit, -, -, rfl⟩ := start_eq_ok hr
      rw [startCall, hr] at hout
      cases hout
  | timeout =>
    obtain ⟨sync, -, hsilent | ⟨hsend, -⟩⟩ := onTimeout_eq p
    · change p.onTimeout.2 = _ at hout
      rw [hout] at hsilent
      exact hsilent.elim
    · cases hout.symm.trans hsend
  | frame bytes =>
    obtain ⟨session, auth, hverifies, hpmk⟩ := onFrame_eq_done hout
    exact ⟨bytes, session, auth, rfl, hverifies, hpmk, h.derived session hverifies.awaited⟩

/-- **One exchange.** In every run all commits sent carry one scalar and one element, a timeout
repeats the last frame sent octet for octet, and at most one PMK is returned: on a confirm that
verifies over a commit of the peer and then the one sent. -/
theorem exchange_run (P : Primitives) (password : String) (seed : Octets seedLen)
    (inputs : List Input) :
    let run := log (SaeProvider.call P) (withSeed password seed : SaeProvider C) inputs
    (∃ scalar element, CommitsTo run scalar element) ∧
      Along (fun past e => e.input = .timeout → ∀ frame, e.output = .ok (.send frame) →
        lastFrame past = some frame) run ∧
      (pmksOf run).length ≤ 1 ∧
      Along (fun past e => ∀ pmk, e.output = .ok (.done pmk) → ∃ bytes session auth,
        e.input = .frame bytes ∧ Verifies P e.pre bytes session auth ∧ pmk = session.pmk ∧
        PeerCommitted past session) run := by
  intro run
  have hinit : Tells ([] : List (Event C)) (withSeed password seed) := tells_init password seed
  have hstep (past : List (Event C)) (p : SaeProvider C) (i : Input) (h : Tells past p) (_ : True) :
      Tells (past ++ [entry (SaeProvider.call P) p i]) (p.call P i).1 := h.call i
  have htriv : Along (fun _ _ => True) run := fun _ _ _ _ => trivial
  have hend := Machine.run_induction hinit hstep inputs htriv
  obtain ⟨scalar, element, hcommits, -⟩ := hend.commits
  refine ⟨⟨scalar, element, hcommits⟩, ?_, hend.once, ?_⟩
  · refine Machine.along_of_inv hinit hstep (fun past p i h _ => ?_) inputs htriv
    exact fun htimeout frame hout => h.repeats htimeout hout
  · refine Machine.along_of_inv hinit hstep (fun past p i h _ => ?_) inputs htriv
    exact fun pmk hout => h.verified hout

end SaeProvider

end Caw
