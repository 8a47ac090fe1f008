import Caw.Core.Checked
import Caw.Core.Range
import Caw.Core.Report
import Caw.Crypto.SaeErrors

/-!
# A core that cannot panic

At every call of every run the poll returns, also with each of its reads checked, what it counts and
measures fits, and what the source reports as an error of its own is never reported.

* `NoInternal`, `stage_ne_internal`, `evaluate_ne_internal`, …: what no failure says;
* `Tallies`, **`tallies_move`**: what a poll reports and counts;
* `Connection.streak`, `AvoidsIdentity`: the failures in a row, and the elements of the exchanges;
* `Unfailing`, **`run_total`**: nothing fails at any call of any run.
-/

set_option autoImplicit false

namespace Caw

open Caw.Core

variable {S : Platform}

namespace Connection

variable {c c' : Connection S} {draws : Draws S} {input : Input} {r : Connection S × List Action}
  {session session' : Session S}

/-! ## What is reported -/

/-- No error of the program itself is reported. -/
def NoInternal (actions : List Action) : Prop := ∀ why, .failed (.internal why) ∉ actions

theorem noInternal_of_decisions {actions : List Action} (h : decisions actions = []) :
    NoInternal actions := by
  intro why hmem
  rw [← mem_decisions rfl, h] at hmem
  cases hmem

theorem NoInternal.append {actions rest : List Action} (h : NoInternal actions)
    (hrest : NoInternal rest) : NoInternal (actions ++ rest) :=
  fun why hmem => (List.mem_append.mp hmem).elim (h why) (hrest why)

theorem noInternal_fail {failure : Failure} (h : ∀ why, failure ≠ .internal why) :
    NoInternal (c.fail failure).2 := by
  intro why hmem
  rw [← mem_decisions rfl, decisions_fail] at hmem
  split_ifs at hmem
  · cases hmem
  · have heq := List.mem_singleton.mp hmem
    exact h why (Action.failed.inj heq).symm

theorem fromCrypto_ne_internal (e : Crypto.Error) (why : String) :
    Failure.fromCrypto e ≠ .internal why := by
  cases e <;> simp [Failure.fromCrypto]

theorem fromEapol_ne_internal (e : Eapol.Error) (why : String) :
    Failure.fromEapol S e ≠ .internal why := by
  cases e <;> first
    | exact fromCrypto_ne_internal _ _
    | simp [Failure.fromEapol]

theorem evaluate_ne_internal {bss : Bss} {credential : Option Credential} {roaming : Bool}
    {failure : Failure} (h : c.evaluate bss credential roaming = .error failure) (why : String) :
    failure ≠ .internal why := by
  rintro rfl
  rcases Except.bind_eq_error.mp h with hnegotiate | ⟨rsn, -, h⟩
  · unfold negotiateBss at hnegotiate
    split at hnegotiate
    · split_ifs at hnegotiate
      cases hnegotiate
    · rename_i ie hie
      cases hn : negotiate S.enterprise ie credential with
      | ok n =>
        rw [hn] at hnegotiate
        cases hnegotiate
      | error f =>
        rw [hn] at hnegotiate
        cases hnegotiate
        unfold negotiate at hn
        split at hn
        · cases hn
        · split at hn <;> cases hn
  · dsimp only at h
    split at h
    · split_ifs at h
      cases h
    · cases h

theorem enterpriseProvider_ne_internal {identity : String} {anonymousIdentity serverName : Option String}
    {method : EnterpriseMethod} {caCert : Option String} {failure : Failure}
    (h : enterpriseProvider draws identity anonymousIdentity serverName method caCert = .error failure)
    (why : String) : failure ≠ .internal why := by
  rintro rfl
  unfold enterpriseProvider at h
  split_ifs at h
  · cases h
  · dsimp only at h
    split at h
    · cases h
    · split at h
      · cases h
      · obtain ⟨e, -, he⟩ := Except.mapError_eq_error.mp h
        cases he

theorem stage_ne_internal {choice : Choice} {credential : Credential} {failure : Failure}
    (h : c.stage draws choice credential = .error failure) (why : String) :
    failure ≠ .internal why := by
  rintro rfl
  unfold stage at h
  split at h
  · cases h
  · cases credential with
    | none => cases h
    | passphrase secret =>
      dsimp only [assemble] at h
      split_ifs at h
      cases h
    | enterprise identity anonymousIdentity serverName method caCert =>
      dsimp only [assemble] at h
      split_ifs at h
      · cases hp : enterpriseProvider draws identity anonymousIdentity serverName method caCert with
        | ok p =>
          rw [hp] at h
          cases h
        | error f =>
          rw [hp] at h
          cases h
          exact enterpriseProvider_ne_internal hp why rfl
      · cases h

/-- **What a poll reports and counts**: no error of the program, and one failed attempt more where it
backs off, unless the attempts are forgotten. -/
structure Tallies (c : Connection S) (r : Connection S × List Action) : Prop where
  internal : NoInternal r.2
  connected : .connected ∈ notices r.2 → r.1.attempts = 0
  attempts : r.1.attempts = 0 ∨ (r.1.attempts = c.attempts ∧ .reconnecting ∉ notices r.2) ∨
    (r.1.attempts = c.attempts + 1 ∧ .reconnecting ∈ notices r.2)

/-- Notices that count for nothing. -/
def Uncounted (actions : List Action) : Prop :=
  ∀ state ∈ notices actions, state ≠ .connected ∧ state ≠ .reconnecting

theorem tallies_of (hattempts : r.1.attempts = c.attempts) (hinternal : NoInternal r.2)
    (huncounted : Uncounted r.2) : c.Tallies r :=
  ⟨hinternal, fun hmem => absurd rfl (huncounted _ hmem).1,
    .inr (.inl ⟨hattempts, fun hmem => (huncounted _ hmem).2 rfl⟩)⟩

theorem tallies_quiet (hattempts : r.1.attempts = c.attempts) (hdecisions : decisions r.2 = [])
    (hnotices : notices r.2 = []) : c.Tallies r :=
  tallies_of hattempts (noInternal_of_decisions hdecisions) (by simp [Uncounted, hnotices])

theorem tallies_fail {failure : Failure} (hattempts : c'.attempts = c.attempts)
    (h : ∀ why, failure ≠ .internal why) : c.Tallies (c'.fail failure) := by
  refine ⟨noInternal_fail h, ?_, ?_⟩
  · rw [notices_fail]
    split_ifs <;> simp
  · rw [notices_fail, fail_fst]
    split_ifs
    · exact .inr (.inr ⟨by rw [backedOff_attempts, hattempts], by simp⟩)
    · exact .inl rfl

theorem Tallies.append {l : List Action} (h : c.Tallies r) (hinternal : NoInternal l)
    (hnotices : notices l = []) : c.Tallies (r.1, l ++ r.2) := by
  refine ⟨hinternal.append h.internal, ?_, ?_⟩
  · rw [notices_append, hnotices]
    exact h.connected
  · rw [notices_append, hnotices]
    exact h.attempts

theorem Tallies.of (h : c'.Tallies r) (hattempts : c'.attempts = c.attempts) : c.Tallies r :=
  ⟨h.internal, h.connected, hattempts ▸ h.attempts⟩

theorem Tallies.notify {state : State} {l : List Action} (h : c.Tallies r) (hl : decisions l = [])
    (hnotices : notices l = []) (hstate : state ≠ .connected ∧ state ≠ .reconnecting) :
    c.Tallies (r.1, l ++ .notify state :: r.2) := by
  refine ⟨?_, ?_, ?_⟩
  · refine (noInternal_of_decisions hl).append fun why hmem => ?_
    rcases List.mem_cons.mp hmem with hmem | hmem
    · cases hmem
    · exact h.internal why hmem
  · intro hmem
    refine h.connected ?_
    simpa [hnotices, noticeOf, hstate.1.symm] using hmem
  · have hsame : .reconnecting ∈ notices (l ++ .notify state :: r.2) ↔ .reconnecting ∈ notices r.2 := by
      simp [hnotices, noticeOf, hstate.2.symm]
    rw [hsame]
    exact h.attempts

theorem tallies_enter {state : State} (hattempts : c'.attempts = c.attempts)
    (hstate : state ≠ .connected ∧ state ≠ .reconnecting) : c.Tallies (c'.enter state) := by
  refine tallies_of ?_ (noInternal_of_decisions (by simp)) fun state' hmem => ?_
  · rw [enter_fst]
    exact hattempts
  · obtain rfl : state' = state := by simpa [noticeOf] using hmem
    exact hstate

theorem tallies_startScan (hattempts : c'.attempts = c.attempts) : c.Tallies c'.startScan := by
  refine tallies_of ?_ (noInternal_of_decisions (by simp)) ?_
  · rw [startScan_fst]
    exact hattempts
  · simp [Uncounted, startScan, noticeOf]

theorem tallies_associateWith {target : Target} (hattempts : c'.attempts = c.attempts) :
    c.Tallies (c'.associateWith target session) := by
  refine tallies_of ?_ (fun why hmem => ?_) ?_
  · rw [associateWith_fst]
    exact hattempts
  · rw [← mem_decisions rfl, decisions_associateWith] at hmem
    cases List.mem_singleton.mp hmem
  · simp [Uncounted, associateWith_snd, noticeOf]

theorem tallies_configured (hattempts : c'.attempts = c.attempts) : c.Tallies c'.configured := by
  have hinternal : NoInternal c'.configured.2 := by
    intro why hmem
    rw [← mem_decisions rfl, decisions_configured] at hmem
    split_ifs at hmem
    · cases hmem
    · cases List.mem_singleton.mp hmem
  unfold configured at hinternal ⊢
  split_ifs at hinternal ⊢
  · exact ⟨hinternal, fun _ => rfl, .inl rfl⟩
  · refine tallies_of ?_ hinternal (by simp [Uncounted, noticeOf])
    rw [andThen_fst, enter_fst]
    exact hattempts

/-! ### The handlers -/

theorem tallies_saeDriven {event : SaeEvent} (hanswers : c.Answers event)
    (hd : SaeDriven c event r) : c.Tallies r := by
  cases hd with
  | off => exact tallies_quiet rfl rfl rfl
  | call target session p q r htarget hsession hauth hq hm =>
    have hhandled := hanswers target session p htarget hsession hauth
    rw [hq] at hhandled
    obtain ⟨p', x⟩ := q
    cases hm with
    | wait => exact tallies_quiet rfl rfl rfl
    | send frame request =>
      exact tallies_of rfl (fun why hmem => by simp at hmem) (by simp [Uncounted, noticeOf])
    | noBody frame hnone =>
      -- a frame of the exchange has a body
      have hlong := hhandled.sent frame rfl
      simp only [authRequest, withSession_target, htarget, withSession_session] at hnone
      rw [if_neg (by omega)] at hnone
      cases hnone
    | fail e => exact tallies_fail rfl (fromCrypto_ne_internal e)
    | done => exact tallies_associateWith rfl

theorem tallies_keyStart {pmk : Pmk} (hk : KeyStart c draws pmk r) : c.Tallies r := by
  cases hk with
  | noNonce e => exact tallies_fail rfl (fromEapol_ne_internal _)
  | start => exact tallies_enter rfl ⟨by rintro ⟨⟩, by rintro ⟨⟩⟩

theorem tallies_dot1xDriven {frame : Option Bytes} (hd : Dot1xDriven c draws frame r) :
    c.Tallies r := by
  cases hd with
  | off => exact tallies_quiet rfl rfl rfl
  | call target session provider q r htarget hsession hauth hq hm =>
    obtain ⟨p', x⟩ := q
    cases hm with
    | send => exact tallies_quiet rfl rfl rfl
    | wait => exact tallies_quiet rfl rfl rfl
    | fail e => exact tallies_fail rfl (fromCrypto_ne_internal e)
    | done pmk r hk => exact (tallies_keyStart hk).of rfl

theorem tallies_handshakeMove {input : FourWay.Input} (hm : HandshakeMove c input r) :
    c.Tallies r := by
  cases hm with
  | off => exact tallies_quiet rfl rfl rfl
  | fail session handshake e => exact tallies_fail rfl (fromEapol_ne_internal e)
  | actions session handshake actions q hsession hhandshake hpoll hactions =>
    obtain ⟨armed, hfst⟩ := handshakeActions_fst hactions
    have hnone : notices q.2 = [] := by
      refine List.filterMap_eq_nil_iff.mpr fun action hmem => ?_
      have hkeying := keying_handshakeActions hactions action hmem
      cases action <;> first | rfl | exact hkeying.elim
    refine Tallies.append ?_ (noInternal_of_decisions (decisions_handshakeActions hactions)) hnone
    split_ifs
    · refine tallies_configured ?_
      rw [hfst]
      rfl
    · refine tallies_quiet ?_ rfl rfl
      rw [hfst]
      rfl

theorem tallies_planned {bss : Bss} {roaming : Bool}
    (hcoordinates : ∀ q : S.curve.Point, S.curve.coordinates q = none → q = 0)
    (hencodable : roaming = false → c.Encodable draws bss) (hp : Planned c draws bss roaming r) :
    c.Tallies r := by
  cases hp with
  | refused failure heval => exact tallies_fail rfl (evaluate_ne_internal heval)
  | stay => exact tallies_quiet rfl rfl rfl
  | enterprise => exact tallies_fail rfl (by rintro _ ⟨⟩)
  | prompt =>
    exact tallies_quiet rfl (by simp [Connection.prompt]) (by simp [Connection.prompt, noticeOf])
  | unstaged credential choice failure hchosen hstage =>
    exact tallies_fail rfl (stage_ne_internal hstage)
  | sae credential choice p q hchosen hstage hroaming hd =>
    obtain rfl : roaming = false := by
      obtain ⟨rsn, -, rfl, -⟩ := evaluate_eq_ok hchosen.evaluated
      exact hroaming
    have htallies := tallies_saeDriven
      (answers_start hcoordinates (hencodable rfl) hchosen hstage) hd
    refine (htallies.of ?_).notify (decisions_leaving _ _) (notices_leaving _ _)
      ⟨by rintro ⟨⟩, by rintro ⟨⟩⟩
    rw [enter_fst]
    rfl
  | associate => exact tallies_associateWith rfl

theorem tallies_onLease (event : LeaseEvent) : c.Tallies (c.onLease event) := by
  cases event with
  | acquired lease =>
    obtain ⟨-, hdecisions⟩ := onLease_acquired (c := c) lease
    have hzero : (c.onLease (.acquired lease)).1.attempts = 0 := by
      show (saveProfile { (c.enter .connected).1 with attempts := 0 }).1.attempts = 0
      unfold saveProfile
      split
      · split_ifs
        · rfl
        · split <;> rfl
      · rfl
    exact ⟨noInternal_of_decisions hdecisions, fun _ => hzero, .inl hzero⟩
  | lost reason =>
    unfold onLease
    split_ifs
    · refine tallies_of ?_ (fun why hmem => ?_) (by simp [Uncounted, noticeOf])
      · rw [andThen_fst, enter_fst]
      · rw [← mem_decisions rfl] at hmem
        simp at hmem
    · exact tallies_quiet rfl rfl rfl
  | failed => exact tallies_fail rfl (by rintro _ ⟨⟩)

theorem linkFailure_ne_internal {event : Nl80211.Event} {failure : Failure}
    (h : c.linkFailure event = some failure) (why : String) : failure ≠ .internal why := by
  rintro rfl
  unfold linkFailure at h
  split at h <;> first
    | cases h
    | (split_ifs at h; cases h)

theorem timerFailure_ne_internal {id : TimerId} {failure : Failure}
    (h : c.timerFailure id = some failure) (why : String) : failure ≠ .internal why := by
  rintro rfl
  unfold timerFailure at h
  split at h <;> first
    | cases h
    | (split_ifs at h; cases h)

/-- **Every poll of a sound connection** reports no error of the program, and counts. -/
theorem tallies_move (hcoordinates : ∀ q : S.curve.Point, S.curve.coordinates q = none → q = 0)
    (h : c.Sound) (hin : c.InRange) (hencodes : c.Encodes draws input) (hm : Move c draws input r) :
    c.Tallies r := by
  cases hm with
  | ignore => exact tallies_quiet rfl rfl rfl
  | connect ssid =>
    have hscan : ((c.restart (some (c.aimedAt ssid))).startScan).1.attempts = 0 := by
      rw [startScan_fst]
      rfl
    refine ⟨noInternal_of_decisions (by simp; split_ifs <;> simp), fun _ => hscan, .inl hscan⟩
  | autoconnect =>
    have hscan : ((c.restart none).startScan).1.attempts = 0 := by
      rw [startScan_fst]
      rfl
    exact ⟨noInternal_of_decisions (by simp), fun _ => hscan, .inl hscan⟩
  | secret => exact tallies_quiet rfl rfl rfl
  | answer value target bss r htarget hpending hplanned =>
    have hplans : c.plans (.command (.secret value)) = some
        ({ c.withTarget { target with secret := some value } with pending := none }, bss, false) := by
      simp [plans, htarget, hpending]
    exact (tallies_planned hcoordinates (fun _ => hencodes _ bss hplans) hplanned).of rfl
  | disconnect => exact ⟨noInternal_of_decisions (by simp), fun _ => rfl, .inl rfl⟩
  | noNetwork scan failure hst hselection hfailure =>
    exact tallies_fail rfl (by rcases hfailure with rfl | rfl <;> rintro _ ⟨⟩)
  | selected scan target bssid bss r hst hselection hfind hplanned =>
    have hplans : c.plans (.scanResults scan) = some (c.withTarget target, bss, false) := by
      simp [plans, hst, hselection, hfind]
    exact (tallies_planned hcoordinates (fun _ => hencodes _ bss hplans) hplanned).of rfl
  | surveyed => exact tallies_quiet rfl rfl rfl
  | roam scan session target better bss r hst hsession htarget hroam hfind hplanned =>
    exact tallies_planned hcoordinates (by rintro ⟨⟩) hplanned
  | eapolKey frame eapol r hl hparse htype hm => exact tallies_handshakeMove hm
  | eapolEap frame eapol r hl hparse htype hd => exact tallies_dot1xDriven hd
  | lease event => exact tallies_onLease event
  | fetch => exact tallies_quiet rfl rfl rfl
  | linkFailed event failure hfailure => exact tallies_fail rfl (linkFailure_ne_internal hfailure)
  | joinedOpen => exact tallies_configured rfl
  | joinedReady bssid session pmk r hst hsession hauth hk => exact (tallies_keyStart hk).of rfl
  | joinedDot1x bssid session provider r hst hsession hauth hd =>
    refine ((tallies_dot1xDriven hd).of ?_).notify (decisions_leaving _ _) (notices_leaving _ _)
      ⟨by rintro ⟨⟩, by rintro ⟨⟩⟩
    rw [enter_fst]
  | joinedUnstaged bssid session hst hsession hauth =>
    -- what has been requested has something staged, or needs nothing
    have hstate := h.state
    simp only [StateInv, hst] at hstate
    obtain ⟨held, hheld, hafter⟩ := hstate
    obtain rfl := Option.some.inj (hsession.symm.trans hheld)
    rcases hauth with hauth | ⟨p, hauth⟩ <;> rw [hauth] at hafter <;> cases hafter
  | saeFrame frame body r hst hbody hd =>
    exact tallies_saeDriven (hin.answers hcoordinates (by rintro ⟨⟩)) hd
  | saeTimeout r hst hd => exact tallies_saeDriven (hin.answers hcoordinates (by rintro ⟨⟩)) hd
  | handshakeRetry r hl hm => exact tallies_handshakeMove hm
  | timedOut id failure hfailure => exact tallies_fail rfl (timerFailure_ne_internal hfailure)
  | rescan => exact tallies_startScan rfl

/-! ## Runs -/

/-- A fresh start or a success: the failures before it are forgotten. -/
def settles (e : Entry S) : Bool :=
  match e.input with
  | .poll _ (.command (.connect _)) => true
  | .poll _ (.command .autoconnect) => e.pre.state = .idle
  | _ => .notify .connected ∈ e.output

/-- The failures in a row after one more call. -/
def streakAfter (n : ℕ) (e : Entry S) : ℕ :=
  if .notify .reconnecting ∈ e.output then n + 1 else if settles e then 0 else n

/-- The failures in a row that a history ends with. -/
def streak (past : List (Entry S)) : ℕ := past.foldl streakAfter 0

theorem streak_concat (past : List (Entry S)) (e : Entry S) :
    streak (past ++ [e]) = streakAfter (streak past) e := by
  simp [streak]

/-- No exchange that the call begins has the identity for its element. -/
def AvoidsIdentity (e : Entry S) : Prop :=
  ∀ draws input, e.input = .poll draws input → e.pre.Encodes draws input

/-- **Nothing of the call fails**: it returns, and the same with every read of a frame checked; it
reports no error of the program, and what it counts and measures fits. -/
structure Unfailing (e : Entry S) : Prop where
  returns : ∀ draws input, e.input = .poll draws input → (e.pre.poll draws input).isSome
  reads : ∀ draws input, e.input = .poll draws input →
    e.pre.pollChecked draws input = some (e.post, e.output)
  internal : ∀ why, .failed (.internal why) ∉ e.output
  attempts : .notify .reconnecting ∈ e.output → e.pre.attempts.toNat + 1 < 2 ^ 32
  fits : ∀ session, e.pre.session = some session ∨ e.post.session = some session → session.Fits

/-- What a run keeps. -/
structure TotalInv (past : List (Entry S)) (c : Connection S) : Prop where
  sound : c.Sound
  inRange : c.InRange
  counted : c.attempts.toNat ≤ streak past

variable {past : List (Entry S)} {e : Entry S}

theorem totalInv_new (device : Device) (profiles : List Profile) :
    TotalInv [] (new device profiles : Connection S) :=
  ⟨sound_new device profiles, inRange_of_none rfl, Nat.le_refl 0⟩

theorem streak_le_of_quiet (past : List (Entry S)) (h : e.output = []) (hsettles : settles e = false) :
    streak past ≤ streak (past ++ [e]) := by
  rw [streak_concat, streakAfter, h, hsettles]
  simp

theorem counted_poll (hcounted : c.attempts.toNat ≤ streak past) (htallies : c.Tallies r)
    (hfresh : ∀ ssid, input = .command (.connect ssid) → r.1.attempts = 0)
    (hauto : input = .command .autoconnect → c.state = .idle → r.1.attempts = 0)
    (hlimit : streak (past ++ [⟨c, .poll draws input, r.2, r.1⟩]) < 2 ^ 32) :
    r.1.attempts.toNat ≤ streak (past ++ [⟨c, .poll draws input, r.2, r.1⟩]) := by
  rw [streak_concat, streakAfter] at hlimit ⊢
  dsimp only at hlimit ⊢
  rcases htallies.attempts with hzero | ⟨hsame, hquiet⟩ | ⟨hone, hreconnecting⟩
  · rw [hzero]
    exact Nat.zero_le _
  · rw [mem_notices] at hquiet
    rw [if_neg hquiet]
    split_ifs with hsettles
    · -- what settles a run has set the count back
      have hzero : r.1.attempts = 0 := by
        unfold settles at hsettles
        split at hsettles
        · rename_i draws' ssid hinput
          cases hinput
          exact hfresh ssid rfl
        · rename_i draws' hinput
          cases hinput
          exact hauto rfl (of_decide_eq_true hsettles)
        · exact htallies.connected (mem_notices.mpr (of_decide_eq_true hsettles))
      rw [hzero]
      exact Nat.zero_le _
    · rw [hsame]
      exact hcounted
  · rw [mem_notices] at hreconnecting
    rw [if_pos hreconnecting] at hlimit ⊢
    rw [hone, UInt32.toNat_add, Nat.mod_eq_of_lt (by simp; omega)]
    simpa using hcounted

/-- **One call.** -/
theorem TotalInv.step (hcoordinates : ∀ q : S.curve.Point, S.curve.coordinates q = none → q = 0)
    (h : TotalInv past c) {call : Call S}
    (hlimit : streak (past ++ [Machine.entry step c call]) < 2 ^ 32)
    (havoids : AvoidsIdentity (Machine.entry step c call)) :
    TotalInv (past ++ [Machine.entry step c call]) (c.step call).1 ∧
      Unfailing (Machine.entry step c call) := by
  have hsound := h.sound.step call
  cases call with
  | poll draws input =>
    have hencodes : c.Encodes draws input := havoids draws input rfl
    have hsome := poll_isSome hcoordinates h.sound h.inRange hencodes
    obtain ⟨r, hpoll⟩ := Option.isSome_iff_exists.mp hsome
    have hstep : c.step (.poll draws input) = r := by rw [Connection.step, hpoll]; rfl
    have hentry : Machine.entry Connection.step c (.poll draws input) =
        ⟨c, .poll draws input, r.2, r.1⟩ := by rw [Machine.entry, hstep]
    rw [hstep] at hsound ⊢
    rw [hentry] at hlimit ⊢
    have hm := poll_move hpoll
    have htallies := tallies_move hcoordinates h.sound h.inRange hencodes hm
    have hin := inRange_move hcoordinates h.inRange hencodes hm
    refine ⟨⟨hsound, hin, counted_poll h.counted htallies ?_ ?_ hlimit⟩,
      ⟨?_, ?_, htallies.internal, fun hnotice => ?_, ?_⟩⟩
    · rintro ssid rfl
      cases hpoll
      rw [andThen_fst, startScan_fst]
      rfl
    · rintro rfl hidle
      simp only [poll, onCommand, hidle, if_true, Option.some.injEq] at hpoll
      rw [← hpoll, startScan_fst]
      rfl
    · rintro draws' input' ⟨⟩
      exact hsome
    · rintro draws' input' ⟨⟩
      rw [pollChecked_eq]
      exact hpoll
    · rw [streak_concat, streakAfter, if_pos hnotice] at hlimit
      exact Nat.lt_of_le_of_lt (Nat.succ_le_succ h.counted) hlimit
    · rintro session (hs | hs)
      · exact (h.inRange session hs).fits
      · exact (hin session hs).fits
  | insertProfile profile =>
    have hle := streak_le_of_quiet past
      (e := Machine.entry Connection.step c (.insertProfile profile)) rfl rfl
    refine ⟨⟨hsound, h.inRange, h.counted.trans hle⟩, ⟨by rintro _ _ ⟨⟩, by rintro _ _ ⟨⟩, ?_, ?_, ?_⟩⟩
    · rintro _ ⟨⟩
    · rintro ⟨⟩
    · rintro session (hs | hs) <;> exact (h.inRange session hs).fits
  | forgetProfile ssid =>
    have hle := streak_le_of_quiet past
      (e := Machine.entry Connection.step c (.forgetProfile ssid)) rfl rfl
    refine ⟨⟨hsound, h.inRange, h.counted.trans hle⟩, ⟨by rintro _ _ ⟨⟩, by rintro _ _ ⟨⟩, ?_, ?_, ?_⟩⟩
    · rintro _ ⟨⟩
    · rintro ⟨⟩
    · rintro session (hs | hs) <;> exact (h.inRange session hs).fits

/-- **Nothing fails in any run** of fewer than 2^32 failures in a row, with no identity for an element,
on a curve on which only the identity has no coordinates. -/
theorem run_total (hcoordinates : ∀ q : S.curve.Point, S.curve.coordinates q = none → q = 0)
    (device : Device) (profiles : List Profile) (calls : List (Call S))
    (hrun : Machine.Along (fun past e => streak (past ++ [e]) < 2 ^ 32 ∧ AvoidsIdentity e)
      (Machine.log step (new device profiles) calls)) :
    Machine.Along (fun _ e => Unfailing e) (Machine.log step (new device profiles) calls) :=
  Machine.along_of_inv (totalInv_new device profiles)
    (fun _ _ _ h hG => (h.step hcoordinates hG.1 hG.2).1)
    (fun _ _ _ h hG => (h.step hcoordinates hG.1 hG.2).2) calls hrun

/-! ### An exchange that is begun and never answered -/

end Connection

/-- On the curve of order five the station's element is never the identity. -/
theorem SaeProvider.stationElement_five (secret : String) (ctx : AuthContext) :
    (withSeed secret (.zero _) : SaeProvider .five).stationElement .sample ctx ≠ 0 := by
  have hmask : @Eq (ZMod 5) (Sae.commitScalars Curve.five (.zero Sae.seedLen)).2 2 := rfl
  unfold stationElement Sae.passwordElement
  dsimp only
  generalize Bytes.ofBE _ = n
  have hlt : n % (Curve.five.order - 1) < 4 := Nat.mod_lt _ (by decide)
  generalize n % (Curve.five.order - 1) = k at hlt
  have helement : ∀ mask : ZMod 5, mask = 2 → -(mask * (((k + 1 : ℕ) : ZMod 5) * 2)) ≠ 0 := by
    rintro _ rfl
    have hk : k = 0 ∨ k = 1 ∨ k = 2 ∨ k = 3 := by omega
    rcases hk with rfl | rfl | rfl | rfl <;> decide
  exact helement _ hmask

/-- The sample platform with that curve. -/
def Platform.sampleSae : Platform := { Platform.sample with curve := .five }

/-- Draws without a provider for 802.1X. -/
def Draws.sampleSae : Draws .sampleSae where
  saeSeed := .zero _
  snonce := .ok (.zero 32)
  dot1x _ _ _ _ _ := .error "unsupported"

namespace Connection

/-- An access point that runs SAE. -/
def sampleSaeBss : Bss :=
  { sampleBss with
    security := .wpa3Personal
    rsn := some
      { version := 1, groupCipher := .ccmp128, pairwiseCiphers := [.ccmp128], akms := [.sae]
        capabilities := 192, mfpCapable := true, mfpRequired := true, groupMgmtCipher := none
        raw := [48, 2, 1, 0] } }

/-- The network is chosen, its passphrase typed, and the exchange is not answered. -/
def sampleSilent : List (Call .sampleSae) :=
  [.poll .sampleSae (.command (.connect [110])), .poll .sampleSae (.scanResults [sampleSaeBss]),
    .poll .sampleSae (.command (.secret "password")), .poll .sampleSae (.timer .authTimeout)]

theorem encodes_sampleSae (c : Connection .sampleSae) (input : Input) :
    c.Encodes .sampleSae input := by
  intro c' bss _ credential choice p _ hstage
  unfold stage at hstage
  split at hstage
  · cases hstage
  · obtain ⟨secret, rfl⟩ := assemble_withSeed hstage
    exact SaeProvider.stationElement_five secret _

theorem streak_le_length (past : List (Entry S)) : streak past ≤ past.length := by
  induction past using List.reverseRecOn with
  | nil => exact Nat.le_refl 0
  | append_singleton past e ih =>
    rw [streak_concat, List.length_append, List.length_singleton, streakAfter]
    split_ifs <;> omega

theorem run_total_sample :
    (Machine.exec step (new sampleDevice []) sampleSilent).state = .authenticating ∧
    Machine.Along (fun _ e => Unfailing e) (Machine.log step (new sampleDevice []) sampleSilent) := by
  refine ⟨by decide +kernel, run_total ?_ sampleDevice [] sampleSilent ?_⟩
  · intro q hq
    change (if q = 0 then none else _) = none at hq
    split_ifs at hq with hzero
    exact hzero
  · rw [Machine.along_log_iff]
    intro before call after heq
    refine ⟨?_, ?_⟩
    · have hlog : (Machine.log step (new sampleDevice []) sampleSilent).length = 4 := rfl
      rw [heq, Machine.log_append] at hlog
      rw [List.length_append, Machine.log, List.length_cons] at hlog
      refine Nat.lt_of_le_of_lt (streak_le_length _) ?_
      rw [List.length_append, List.length_singleton]
      omega
    · have hmem : call ∈ sampleSilent := by
        rw [heq]
        exact List.mem_append_right _ List.mem_cons_self
      simp only [sampleSilent, List.mem_cons, List.not_mem_nil, or_false] at hmem
      rintro draws input hinput
      obtain rfl : call = .poll draws input := hinput
      rcases hmem with hcall | hcall | hcall | hcall <;> cases hcall <;> exact encodes_sampleSae _ _

end Connection

end Caw
