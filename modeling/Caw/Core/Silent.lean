import Caw.Core.Timers
import Caw.Core.Total

/-!
# Silence

An attempt at a network to be retried from which nothing more is heard: only deadlines come, those due
and those in flight when they were cleared.

* `Connection.elapse`: one deadline delivered, with what the daemon has outstanding after it;
* `Connection.Attempting`, `Connection.Backing`: the stages of an attempt, and the end a transient
  fault has;
* `Connection.RidesOut`: no run of deadlines ends in a failure reported, one is always outstanding, and
  enough of them lead to a backoff;
* `Patient`, **`Patient.elapse`**: the stages that do, kept by every deadline, with a rank;
* **`authenticating_fails`**: enough deadlines of SAE report that the station was rejected;
* **`ridesOut_iff`**: an attempt rides the silence out unless it is in SAE, waits for a passphrase, or
  is associated and has answered no message 1.
-/

set_option autoImplicit false

namespace Caw

open Caw.Core

variable {S : Platform}

namespace Core

instance : Nonempty (Draws S) := ⟨⟨.zero _, .ok (.zero 32), fun _ _ _ _ _ => .error "unsupported"⟩⟩

end Core

namespace Connection

/-! ## Deadlines alone -/

/-- A connection, and the deadlines outstanding for it. -/
abbrev Awaited (S : Platform) := Connection S × Finset TimerId

/-- One deadline delivered. -/
def elapse (w : Awaited S) (d : Draws S × TimerId) : Awaited S × List Action :=
  let call : Call S := .poll d.1 (.timer d.2)
  let r := w.1.step call
  ((r.1, afterActions (delivered w.2 call) r.2), r.2)

/-- The deadline delivered was outstanding. -/
def isDue (e : Machine.Entry (Awaited S) (Draws S × TimerId) (List Action)) : Bool :=
  e.input.2 ∈ e.pre.2

/-- An attempt is being made. -/
def Attempting (c : Connection S) : Prop :=
  c.state = .scanning ∨ c.state = .authenticating ∨ c.state = .associating ∨ c.state = .handshaking

/-- The network is to be tried again. -/
def Retrying (c : Connection S) : Prop := c.target.any Target.retry = true

/-- The attempt has ended, and the next one has its deadline. -/
def Backing (w : Awaited S) : Prop := w.1.state = .reconnecting ∧ .reconnectBackoff ∈ w.2

/-- A silence is a transient fault. -/
structure RidesOut (w : Awaited S) : Prop where
  /-- Nothing is reported to have failed, and the machine does not stop. -/
  goesOn : ∀ ds, ∀ e ∈ Machine.log elapse w ds,
    e.post.1.state ≠ .idle ∧ ∀ failure, .failed failure ∉ e.output
  /-- There is a deadline to come until the attempt has ended. -/
  awaits : ∀ ds, (∀ e ∈ Machine.log elapse w ds, ¬ Backing e.post) →
    (Machine.exec elapse w ds).2.Nonempty
  /-- As many deadlines as there are to come end it. -/
  backsOff : ∃ n, ∀ ds, n ≤ (Machine.log elapse w ds).countP isDue →
    ∃ e ∈ Machine.log elapse w ds, Backing e.post

variable {w : Awaited S} {d : Draws S × TimerId} {c : Connection S} {r : Connection S × List Action}

theorem elapse_eq (h : w.1.onTimer d.2 = some r) :
    elapse w d = ((r.1, afterActions (w.2.erase d.2) r.2), r.2) := by
  have hstep : w.1.step (.poll d.1 (.timer d.2)) = r := by
    show (w.1.onTimer d.2).getD (w.1, []) = r
    rw [h, Option.getD_some]
  unfold elapse
  dsimp only
  rw [hstep]
  rfl

/-! ## What a deadline leads to -/

theorem fail_retrying {failure : Failure} (hretry : c.Retrying)
    (hterminal : failure.isTerminal = false) :
    (c.fail failure).1 = c.backedOff ∧ ∀ f, .failed f ∉ (c.fail failure).2 := by
  have hretries : c.retries failure = true := by
    unfold retries
    rw [hterminal, hretry]
    rfl
  refine ⟨by rw [fail_fst, if_pos hretries], fun f hmem => ?_⟩
  have hdecided := (mem_decisions (by rfl)).mpr hmem
  simp [hretries] at hdecided

theorem fail_terminal {failure : Failure} (hterminal : failure.isTerminal = true) :
    .failed failure ∈ (c.fail failure).2 := by
  refine (mem_decisions (by rfl)).mp ?_
  simp [retries, hterminal]

theorem poll_timeout {handshake : FourWay} {frame : Bytes} (hsent : handshake.lastSent = some frame) :
    handshake.poll S.prim .timeout =
      if handshake.retries ≥ retryLimit then ({ handshake with state := .failed }, .error .timeout)
      else ({ handshake with retries := handshake.retries + 1 },
        .ok [.send frame, .armTimer retryIntervalMs]) := by
  simp only [FourWay.poll, FourWay.handle, FourWay.onTimeout, hsent]
  split_ifs <;> rfl

/-! ## The stages that ride a silence out -/

/-- How many deadlines can still come before the attempt ends. -/
def deadlinesLeft (c : Connection S) : ℕ :=
  match c.session.bind Session.handshake with
  | some handshake => retryLimit - handshake.retries + 1
  | none => 1

/-- A network to be retried is waited for: not in SAE, not for a passphrase, and not for a message 1. -/
structure Patient (w : Awaited S) : Prop where
  ticking : Ticking w.2 w.1
  sound : w.1.Sound
  retrying : w.1.Retrying
  waiting : w.1.Waiting
  confirmed : w.1.state ≠ .authenticating
  answered : ¬ w.1.Unanswered

/-- What a deadline leads to, where the silence goes on to be waited out. -/
structure Endures (c : Connection S) (r : Connection S × List Action) : Prop where
  retrying : r.1.Retrying
  waiting : r.1.Waiting
  confirmed : r.1.state ≠ .authenticating
  answered : ¬ r.1.Unanswered
  unreported : ∀ failure, .failed failure ∉ r.2
  nearer : c.state ≠ .reconnecting → r.1.state = .reconnecting ∨ r.1.deadlinesLeft < c.deadlinesLeft

theorem endures_fail {c' : Connection S} {failure : Failure} (hretry : c'.Retrying)
    (hterminal : failure.isTerminal = false) : c.Endures (c'.fail failure) := by
  obtain ⟨hpost, hunreported⟩ := fail_retrying hretry hterminal
  have hstate : (c'.fail failure).1.state = .reconnecting := by rw [hpost, backedOff_state]
  refine ⟨?_, ?_, ?_, ?_, hunreported, fun _ => .inl hstate⟩
  · rw [hpost]
    exact hretry
  · exact .inr (.inr (.inr (.inr hstate)))
  · rw [hstate]
    rintro ⟨⟩
  · rintro ⟨hst, -⟩
    cases hstate.symm.trans hst

namespace Patient

variable (h : Patient w)

include h

theorem awaited : ∃ id, timerOf w.1.state = some id ∧ id ∈ w.2 :=
  (h.ticking.waiting h.waiting).mpr h.answered

theorem not_idle : w.1.state ≠ .idle := by
  rcases h.waiting with ⟨hst, -⟩ | hst | hst | hst | hst <;> simp [hst]

theorem backing (hst : w.1.state = .reconnecting) : Backing w := by
  obtain ⟨id, hid, hmem⟩ := h.awaited
  rw [hst] at hid
  cases hid
  exact ⟨hst, hmem⟩

theorem elapse_early (hdue : d.2 ∉ w.2) : elapse w d = (w, []) := by
  obtain ⟨id, hid, hmem⟩ := h.awaited
  have hother : timerOf w.1.state ≠ some d.2 := by
    intro heq
    rw [hid, Option.some_inj] at heq
    exact hdue (heq ▸ hmem)
  rw [elapse_eq (onTimer_other (.inl hother)), afterActions_nil, Finset.erase_eq_of_notMem hdue]

theorem elapse_due (hdue : d.2 ∈ w.2) : ∃ r, w.1.onTimer d.2 = some r ∧ w.1.Endures r := by
  have hid := h.ticking.timerOf_of_mem hdue
  obtain ⟨draws, id⟩ := d
  dsimp only at hid ⊢
  rcases h.waiting with ⟨hst, hpending⟩ | hst | hst | hst | hst
  · rw [hst] at hid
    cases hid
    refine ⟨w.1.fail .notFound, by simp [onTimer, hst, hpending], endures_fail h.retrying rfl⟩
  · exact absurd hst h.confirmed
  · rw [hst] at hid
    cases hid
    exact ⟨w.1.fail .assocTimeout, by simp [onTimer, hst], endures_fail h.retrying rfl⟩
  · rw [hst] at hid
    cases hid
    obtain ⟨session, handshake, hsession, hhandshake, hidle⟩ : w.1.Answered :=
      not_not.mp fun hno => h.answered ⟨hst, hno⟩
    obtain ⟨hwaits, hsome, -⟩ :=
      (h.ticking.live.handshake hst hsession hhandshake).resolve_left hidle
    obtain ⟨frame, hsent⟩ := Option.isSome_iff_exists.mp hsome
    have hdrive : w.1.onTimer .handshakeRetry = (w.1.withSession (session.withHandshake
        (handshake.poll S.prim .timeout).1)).onHandshakeActions
          (handshake.poll S.prim .timeout).2 := by
      simp only [onTimer, hst, driveHandshake, hsession, hhandshake]
    rw [poll_timeout hsent] at hdrive
    split_ifs at hdrive with hlimit
    · have hretry : (w.1.withSession (session.withHandshake
          { handshake with state := .failed })).Retrying := h.retrying
      exact ⟨_, hdrive, endures_fail hretry rfl⟩
    · refine ⟨_, hdrive, h.retrying, .inr (.inr (.inr (.inl hst))), h.confirmed, ?_, ?_, ?_⟩
      · rintro ⟨-, hunanswered⟩
        exact hunanswered ⟨_, _, rfl, rfl, hidle⟩
      · intro failure hmem
        have hactions : Action.failed failure ∈
            [.sendEapol frame, .setTimer .handshakeRetry retryIntervalMs] := hmem
        simp at hactions
      · refine fun _ => .inr ?_
        show retryLimit - (handshake.retries + 1) + 1 < _
        simp only [deadlinesLeft, hsession, Option.bind_some, hhandshake]
        omega
  · rw [hst] at hid
    cases hid
    have hstate := h.sound.state
    rw [StateInv, hst] at hstate
    refine ⟨w.1.startScan, by simp [onTimer, hst], ?_, ?_, ?_, ?_, ?_, fun hno => absurd hst hno⟩
    · rw [startScan_fst]
      exact h.retrying
    · rw [startScan_fst]
      exact .inl ⟨rfl, hstate.2⟩
    · simp
    · rintro ⟨hst, -⟩
      simp at hst
    · intro failure hmem
      have hdecided := (mem_decisions (by rfl)).mpr hmem
      simp at hdecided

/-- **What every deadline keeps.** -/
theorem elapse (d : Draws S × TimerId) : Patient (elapse w d).1 ∧
    (∀ failure, .failed failure ∉ (Connection.elapse w d).2) ∧
    (w.1.state ≠ .reconnecting → (Connection.elapse w d).1.1.state = .reconnecting ∨
      (Connection.elapse w d).1.1.deadlinesLeft +
        (if isDue (Machine.entry Connection.elapse w d) then 1 else 0) ≤ w.1.deadlinesLeft) := by
  by_cases hdue : d.2 ∈ w.2
  · obtain ⟨r, hr, hendures⟩ := h.elapse_due hdue
    have hticking : Ticking (Connection.elapse w d).1.2 (Connection.elapse w d).1.1 :=
      h.ticking.step h.sound _
    have hsound : (Connection.elapse w d).1.1.Sound := h.sound.step _
    rw [elapse_eq hr] at hticking hsound ⊢
    refine ⟨⟨hticking, hsound, hendures.retrying, hendures.waiting, hendures.confirmed,
      hendures.answered⟩, hendures.unreported, fun hst => (hendures.nearer hst).imp_right ?_⟩
    intro hlt
    dsimp only
    split_ifs <;> omega
  · have hearly : isDue (Machine.entry Connection.elapse w d) = false := by simp [isDue, hdue]
    rw [h.elapse_early hdue, hearly]
    refine ⟨h, ?_, fun _ => .inr (Nat.le_refl _)⟩
    rintro failure ⟨⟩

theorem exec (ds : List (Draws S × TimerId)) : Patient (Machine.exec Connection.elapse w ds) :=
  Machine.Reachable.invariant ⟨ds, rfl⟩ h fun _ d hpatient => (hpatient.elapse d).1

/-- **A silence is ridden out.** -/
theorem ridesOut (hst : w.1.state ≠ .reconnecting) : RidesOut w where
  goesOn ds := by
    refine Machine.along_iff_forall.mp ?_
    refine Machine.along_of_inv (J := fun _ => Patient) (G := fun _ _ => True) h ?_ ?_ ds
      fun _ _ _ _ => trivial
    · exact fun _ _ d hpatient _ => (hpatient.elapse d).1
    · intro _ _ d hpatient _
      obtain ⟨hpost, hunreported, -⟩ := hpatient.elapse d
      exact ⟨hpost.not_idle, hunreported⟩
  awaits ds _ := by
    obtain ⟨id, -, hmem⟩ := (h.exec ds).awaited
    exact ⟨id, hmem⟩
  backsOff := by
    refine ⟨w.1.deadlinesLeft + 1, fun ds hcount => ?_⟩
    refine Machine.exists_goal (J := fun w => Patient w ∧ w.1.state ≠ .reconnecting)
      (f := fun w => w.1.deadlinesLeft) ?_ ⟨h, hst⟩ ds hcount
    rintro w d ⟨hpatient, hst⟩
    obtain ⟨hpost, -, hnearer⟩ := hpatient.elapse d
    by_cases hback : (Connection.elapse w d).1.1.state = .reconnecting
    · exact .inl (hpost.backing hback)
    · exact .inr ⟨⟨hpost, hback⟩, (hnearer hst).resolve_left hback⟩

end Patient

/-! ## SAE does not -/

/-- One deadline of SAE: the exchange is reported to have been rejected, or it sends again. -/
theorem elapse_sae {session : Session S} {provider : SaeProvider S.curve} {target : Target}
    (draws : Draws S) (hst : w.1.state = .authenticating) (htarget : w.1.target = some target)
    (hsession : w.1.session = some session) (hauth : session.auth = .preAssoc provider)
    (hway : provider.UnderWay) :
    (∃ failure, .failed failure ∈ (elapse w (draws, .authTimeout)).2) ∨
      (provider.sync + 1 ≤ Sae.syncMax ∧
        (elapse w (draws, .authTimeout)).1.1.state = .authenticating ∧
        ∃ session', (elapse w (draws, .authTimeout)).1.1.session = some session' ∧
          session'.auth = .preAssoc { provider with sync := provider.sync + 1 }) := by
  have hdrive : w.1.onTimer .authTimeout = (w.1.withSession (session.withAuth
      (.preAssoc provider.onTimeout.1))).onSaeStep provider.onTimeout.2 := by
    simp only [onTimer, hst, driveSae, htarget, hsession, hauth]
    rfl
  rw [SaeProvider.onTimeout_underWay hway] at hdrive
  dsimp only at hdrive
  split_ifs at hdrive with hlimit
  · rw [elapse_eq hdrive]
    exact .inl ⟨_, fail_terminal rfl⟩
  · simp only [onSaeStep] at hdrive
    split at hdrive
    · rw [elapse_eq hdrive]
      exact .inl ⟨_, fail_terminal rfl⟩
    · rw [elapse_eq hdrive]
      exact .inr ⟨UInt8.not_lt.mp hlimit, hst, _, rfl, rfl⟩

theorem left_lt {sync : UInt8} (hlimit : sync + 1 ≤ Sae.syncMax) :
    (Sae.syncMax - (sync + 1)).toNat < (Sae.syncMax - sync).toNat := by
  have hmax : Sae.syncMax.toNat = 5 := rfl
  have hle : (sync + 1).toNat ≤ 5 := UInt8.le_iff_toNat_le.mp hlimit
  have hsync := sync.toNat_lt
  rw [UInt8.toNat_sub, UInt8.toNat_sub, hmax]
  rw [UInt8.toNat_add] at hle ⊢
  have hone : (1 : UInt8).toNat = 1 := rfl
  omega

/-- **SAE reports that the station was rejected** once enough deadlines have come. -/
theorem authenticating_fails (hticking : Ticking w.2 w.1) (hsound : w.1.Sound)
    (hst : w.1.state = .authenticating) :
    ∃ ds, ∃ e ∈ Machine.log elapse w ds, ∃ failure, .failed failure ∈ e.output := by
  obtain ⟨draws⟩ := (inferInstance : Nonempty (Draws S))
  have hlive := hticking.live
  unfold Live at hlive
  rw [hst] at hlive
  obtain ⟨-, session, provider, hsession, hauth, -, hway⟩ := hlive
  obtain ⟨target, htarget⟩ :=
    Option.isSome_iff_exists.mp (hsound.targeted (.inl (by simp [hsession])))
  -- by induction on how far the counter is from its limit
  induction hn : (Sae.syncMax - provider.sync).toNat using Nat.strong_induction_on
    generalizing w session provider target with
  | _ n ih =>
    rcases elapse_sae draws hst htarget hsession hauth hway with
      hfailed | ⟨hlimit, hpost, session', hsession', hauth'⟩
    · exact ⟨[(draws, .authTimeout)], _, List.mem_cons_self, hfailed⟩
    · have hticking' : Ticking (elapse w (draws, .authTimeout)).1.2
          (elapse w (draws, .authTimeout)).1.1 := hticking.step hsound _
      have hsound' : (elapse w (draws, .authTimeout)).1.1.Sound := hsound.step _
      obtain ⟨target', htarget'⟩ :=
        Option.isSome_iff_exists.mp (hsound'.targeted (.inl (by simp [hsession'])))
      have hlt : (Sae.syncMax - (provider.sync + 1)).toNat < n := by
        rw [← hn]
        exact left_lt hlimit
      obtain ⟨ds, e, hmem, hfailed⟩ := ih _ hlt hticking' hsound' hpost session' _ hsession' hauth'
        hway target' htarget' rfl
      exact ⟨(draws, .authTimeout) :: ds, e, List.mem_cons_of_mem _ hmem, hfailed⟩

/-! ## Which attempts do -/

/-- What an attempt waits for is more than the next deadline: an answer in SAE, a passphrase, or a
message 1. -/
def Exposed (c : Connection S) : Prop :=
  c.state = .authenticating ∨ (c.state = .scanning ∧ c.pending.isSome) ∨ c.Unanswered

theorem not_ridesOut_of_parked (hticking : Ticking w.2 w.1) (hst : w.1.state = .scanning)
    (hpending : w.1.pending.isSome) : ¬ RidesOut w := by
  intro hrides
  obtain ⟨draws⟩ := (inferInstance : Nonempty (Draws S))
  have hsame : elapse w (draws, .scanTimeout) = ((w.1, w.2.erase .scanTimeout), []) :=
    elapse_eq (onTimer_other (.inr ⟨rfl, hpending⟩))
  obtain ⟨id, hmem⟩ := hrides.awaits [(draws, .scanTimeout)] (by
    intro e he hback
    rw [List.mem_singleton.mp he, Machine.entry_post, hsame] at hback
    cases hst.symm.trans hback.1)
  rw [Machine.exec_cons_of_eq hsame] at hmem
  obtain ⟨hne, hout⟩ := Finset.mem_erase.mp hmem
  have hid := hticking.timerOf_of_mem hout
  rw [hst] at hid
  cases hid
  exact hne rfl

theorem not_ridesOut_of_unanswered (hticking : Ticking w.2 w.1) (hun : w.1.Unanswered) :
    ¬ RidesOut w := by
  intro hrides
  obtain ⟨id, hmem⟩ := hrides.awaits [] fun _ he => nomatch he
  exact (hticking.waiting (.inr (.inr (.inr (.inl hun.1))))).mp
    ⟨id, hticking.timerOf_of_mem hmem, hmem⟩ hun

theorem Ticking.ridesOut_iff_not_exposed (hticking : Ticking w.2 w.1) (hsound : w.1.Sound)
    (hretry : w.1.Retrying) (hattempt : w.1.Attempting) : RidesOut w ↔ ¬ w.1.Exposed := by
  constructor
  · rintro hrides (hst | ⟨hst, hpending⟩ | hun)
    · obtain ⟨ds, e, hmem, failure, hfailed⟩ := authenticating_fails hticking hsound hst
      exact (hrides.goesOn ds e hmem).2 failure hfailed
    · exact not_ridesOut_of_parked hticking hst hpending hrides
    · exact not_ridesOut_of_unanswered hticking hun hrides
  · intro hexposed
    have hconfirmed : w.1.state ≠ .authenticating := fun hst => hexposed (.inl hst)
    have hanswered : ¬ w.1.Unanswered := fun hun => hexposed (.inr (.inr hun))
    have hwaiting : w.1.Waiting := by
      rcases hattempt with hst | hst | hst | hst
      · refine .inl ⟨hst, ?_⟩
        cases hpending : w.1.pending with
        | none => rfl
        | some bss => exact absurd (.inr (.inl ⟨hst, by simp [hpending]⟩)) hexposed
      · exact .inr (.inl hst)
      · exact .inr (.inr (.inl hst))
      · exact .inr (.inr (.inr (.inl hst)))
    refine Patient.ridesOut ⟨hticking, hsound, hretry, hwaiting, hconfirmed, hanswered⟩ ?_
    intro hst
    rcases hattempt with h | h | h | h <;> cases hst.symm.trans h

section Runs

variable (device : Device) (profiles : List Profile)

/-- **Silence.** Whatever has gone before, an attempt at a network to be retried rides the silence out
unless it is in SAE, waits for a passphrase, or is associated and has answered no message 1. -/
theorem ridesOut_iff (calls : List (Call S))
    (hretry : (Machine.exec step (new device profiles) calls).Retrying)
    (hattempt : (Machine.exec step (new device profiles) calls).Attempting) :
    RidesOut (Machine.exec step (new device profiles) calls,
        outstanding (Machine.log step (new device profiles) calls)) ↔
      ¬ (Machine.exec step (new device profiles) calls).Exposed :=
  (ticking_run device profiles calls).ridesOut_iff_not_exposed (Reachable.sound ⟨calls, rfl⟩) hretry
    hattempt

end Runs

/-! ### A saved network that runs SAE -/

/-- A network joined by itself whenever it is in range. -/
def sampleSaved : Profile where
  ssid := [110]
  security := .wpa3Personal
  credential := .passphrase "password"
  autoconnect := true
  minSecurity := .wpa3Personal

/-- The network is asked for, and found. -/
def sampleSought : List (Call .sampleSae) :=
  [.poll .sampleSae (.command (.connect [110])), .poll .sampleSae (.scanResults [sampleSaeBss])]

theorem ridesOut_iff_sample :
    RidesOut (Machine.exec step (new sampleDevice [sampleSaved] : Connection .sampleSae)
        (sampleSought.take 1),
      outstanding (Machine.log step (new sampleDevice [sampleSaved] : Connection .sampleSae)
        (sampleSought.take 1))) := by
  refine (ridesOut_iff sampleDevice [sampleSaved] (sampleSought.take 1) (by rfl) (.inl rfl)).mpr ?_
  rintro (hst | ⟨-, hpending⟩ | ⟨hst, -⟩)
  · cases hst
  · cases hpending
  · cases hst

/-- The commit is sent six times, and then the station is said to have been rejected: the network is
not tried again. -/
theorem not_ridesOut_sampleSae :
    (Machine.exec step (new sampleDevice [sampleSaved]) sampleSought).Retrying ∧
    (Machine.exec step (new sampleDevice [sampleSaved]) sampleSought).Attempting ∧
    (∃ e ∈ Machine.log elapse (Machine.exec step (new sampleDevice [sampleSaved]) sampleSought,
        outstanding (Machine.log step (new sampleDevice [sampleSaved]) sampleSought))
        (List.replicate 6 (.sampleSae, .authTimeout)),
      e.post.1.state = .idle ∧ .failed .authFailed ∈ e.output) ∧
    ¬ RidesOut (Machine.exec step (new sampleDevice [sampleSaved]) sampleSought,
      outstanding (Machine.log step (new sampleDevice [sampleSaved]) sampleSought)) := by
  have hfails : ∃ e ∈ Machine.log elapse
      (Machine.exec step (new sampleDevice [sampleSaved]) sampleSought,
        outstanding (Machine.log step (new sampleDevice [sampleSaved]) sampleSought))
      (List.replicate 6 (.sampleSae, .authTimeout)),
      e.post.1.state = .idle ∧ .failed .authFailed ∈ e.output := by
    decide +kernel
  obtain ⟨e, hmem, hidle, hfailed⟩ := hfails
  exact ⟨rfl, .inr (.inl rfl), ⟨e, hmem, hidle, hfailed⟩,
    fun hrides => (hrides.goesOn _ e hmem).1 hidle⟩

end Connection

end Caw
