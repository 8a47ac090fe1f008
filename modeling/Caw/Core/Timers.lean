import Caw.Core.Joined
import Mathlib.Data.Finset.Basic
import Mathlib.Data.Finset.Option

/-!
# Timers

The deadlines outstanding at the daemon against the one the core has on record, and the states that
wait for one.

* `outstanding`: the deadlines a history leaves outstanding;
* `after_fail`, `after_associateWith`, …: what each transition leaves outstanding;
* `Connection.Clocked`, `Connection.Ticking`: the record is of the current state and covers them, and the
  deadline of a state that waits is among them;
* **`Ticking.move`**, **`Ticking.deliver`**: what a poll and a deadline that runs out keep of that;
* **`outstanding_armed`**: so in every run;
* `Connection.Waiting`, `Connection.Unanswered`: the states that wait, and the one that waits for
  nothing;
* **`waiting_outstanding`**: every other state that waits has its deadline outstanding.
-/

set_option autoImplicit false

namespace Caw

open Caw.Core

variable {S : Platform}

namespace Core

/-! ## The daemon's deadlines -/

/-- The deadlines outstanding once an action is taken. -/
def afterAction (out : Finset TimerId) : Action → Finset TimerId
  | .setTimer id _ => insert id out
  | .clearTimer id => out.erase id
  | _ => out

/-- The actions of one poll. -/
def afterActions (out : Finset TimerId) (actions : List Action) : Finset TimerId :=
  actions.foldl afterAction out

/-- A deadline that is delivered is outstanding no more. -/
def delivered (out : Finset TimerId) : Call S → Finset TimerId
  | .poll _ (.timer id) => out.erase id
  | _ => out

/-- The deadlines a history leaves outstanding. -/
def outstanding (past : List (Connection.Entry S)) : Finset TimerId :=
  past.foldl (fun out e => afterActions (delivered out e.input) e.output) ∅

variable (out : Finset TimerId)

@[simp] theorem afterActions_nil : afterActions out [] = out := rfl

@[simp] theorem afterActions_cons (action : Action) (rest : List Action) :
    afterActions out (action :: rest) = afterActions (afterAction out action) rest := rfl

@[simp] theorem afterActions_append (actions rest : List Action) :
    afterActions out (actions ++ rest) = afterActions (afterActions out actions) rest :=
  List.foldl_append

@[simp] theorem outstanding_concat (past : List (Connection.Entry S)) (e : Connection.Entry S) :
    outstanding (past ++ [e]) = afterActions (delivered (outstanding past) e.input) e.output := by
  simp [outstanding]

end Core

namespace Connection

variable (c : Connection S) {out : Finset TimerId} {draws : Draws S} {r : Connection S × List Action}

/-! ## Transitions -/

theorem startScan_snd : c.startScan.2 = c.leaving .scanning ++
    [.notify .scanning, .triggerScan c.device.ifindex, .setTimer .scanTimeout scanTimeoutMs] := by
  simp [startScan]

theorem configured_snd : c.configured.2 = c.leaving c.afterKeys ++ .notify c.afterKeys ::
    if c.session.any fun s => s.choice.roaming then [] else [.startDhcp] := by
  unfold configured afterKeys
  split_ifs <;> simp

section Transitions

variable (hcovers : out ⊆ c.armed.toFinset)

include hcovers

theorem after_disarm : afterActions out c.disarm.2 = ∅ := by
  unfold disarm
  cases harmed : c.armed with
  | none => simpa [harmed] using hcovers
  | some id => simpa [harmed, afterAction, Finset.erase_eq_empty_iff, ← Finset.subset_singleton_iff]
      using hcovers

theorem after_leaving (state : State) :
    afterActions out (c.leaving state) = if c.armed = timerOf state then out else ∅ := by
  unfold leaving
  by_cases harmed : c.armed = timerOf state
  · simp [harmed]
  · rw [if_neg harmed]
    split_ifs with h
    · exact after_disarm c hcovers
    · have hnone : c.armed = none := by simpa [harmed] using h
      simpa [hnone] using hcovers

theorem covers_enter (state : State) :
    afterActions out (c.leaving state) ⊆ (c.enter state).1.armed.toFinset := by
  rw [after_leaving c hcovers, enter_fst]
  dsimp only
  split_ifs
  · exact hcovers
  · exact Finset.empty_subset _

theorem after_leaving_subset (state : State) :
    afterActions out (c.leaving state) ⊆ (timerOf state).toFinset := by
  rw [after_leaving c hcovers]
  split_ifs with h
  · rwa [← h]
  · exact Finset.empty_subset _

theorem after_leaving_arm {state : State} {id : TimerId} (hid : timerOf state = some id) :
    insert id (afterActions out (c.leaving state)) = {id} := by
  have h := after_leaving_subset c hcovers state
  rw [hid, Option.toFinset_some] at h
  exact (Finset.insert_subset (Finset.mem_singleton_self id) h).antisymm
    (Finset.singleton_subset_iff.mpr (Finset.mem_insert_self ..))

theorem after_startScan : afterActions out c.startScan.2 = {.scanTimeout} := by
  rw [startScan_snd, afterActions_append]
  exact after_leaving_arm c hcovers rfl

theorem after_associateWith (target : Target) (session : Session S) :
    afterActions out (c.associateWith target session).2 = {.assocTimeout} := by
  rw [associateWith_snd, afterActions_append]
  exact after_leaving_arm (c.withSession (requested session)) hcovers rfl

theorem after_fail (failure : Failure) : afterActions out (c.fail failure).2 =
    if c.retries failure then {.reconnectBackoff} else ∅ := by
  unfold fail retries
  rw [andThen_snd, afterActions_append]
  have hsame : afterActions out (if c.associated && !failure.isDisconnected
      then [.disconnect reasonLeaving] else []) = out := by
    split_ifs <;> rfl
  rw [hsame]
  dsimp only
  split_ifs with h
  · simp only [backOff, andThen_snd, enter_snd, arm_snd, afterActions_append]
    exact after_leaving_arm _ hcovers rfl
  · simp only [giveUp, andThen_snd, afterActions_append]
    rw [after_disarm { c with session := none, pending := none } hcovers]
    rfl

omit hcovers in
theorem timerOf_of_entered {state : State} {id : TimerId} (h : (c.enter state).1.armed = some id) :
    timerOf state = some id := by
  rw [enter_fst] at h
  dsimp only at h
  split_ifs at h with harmed
  rw [← harmed, h]

omit hcovers in
theorem after_configured :
    afterActions out c.configured.2 = afterActions out (c.leaving c.afterKeys) := by
  rw [configured_snd, afterActions_append]
  split_ifs <;> rfl

end Transitions

/-! ## What holds between the two -/

/-- The 4-way handshake has answered a message 1. -/
def Answered : Prop :=
  ∃ session handshake, c.session = some session ∧ session.handshake = some handshake ∧
    handshake.state ≠ .idle

/-- Of what a state waits for, the deadline that moves it on. -/
def Live (out : Finset TimerId) : Prop :=
  match c.state with
  | .scanning => c.pending = none → .scanTimeout ∈ out
  | .authenticating => .authTimeout ∈ out ∧
      ∃ s p, c.session = some s ∧ s.auth = .preAssoc p ∧ s.handshake = none ∧ p.UnderWay
  | .associating => .assocTimeout ∈ out
  | .handshaking => ∀ s h, c.session = some s → s.handshake = some h →
      h.state = .idle ∨ (h.state = .awaitingMsg3 ∧ h.lastSent.isSome ∧ .handshakeRetry ∈ out)
  | .reconnecting => .reconnectBackoff ∈ out
  | .idle | .configuring | .connected => True

/-- The timer on record is of the state, and covers what is outstanding. -/
structure Clocked (out : Finset TimerId) (c : Connection S) : Prop where
  covers : out ⊆ c.armed.toFinset
  current : ∀ id, c.armed = some id → timerOf c.state = some id
  staged : ∀ s p, c.session = some s → s.auth = .postAssoc p → s.handshake = none
  unsent : ∀ s h, c.session = some s → s.handshake = some h → h.state = .idle → h.lastSent = none
  answered : .handshakeRetry ∈ out → c.Answered

/-- The same, with the deadline of a state that waits outstanding. -/
structure Ticking (out : Finset TimerId) (c : Connection S) : Prop extends Clocked out c where
  live : c.Live out

variable {c}

theorem Clocked.mono {out' : Finset TimerId} (h : Clocked out c) (hsub : out' ⊆ out) :
    Clocked out' c :=
  ⟨hsub.trans h.covers, h.current, h.staged, h.unsent, fun hmem => h.answered (hsub hmem)⟩

/-- Only the session may differ, and not in how it is authenticated and keyed. -/
theorem Ticking.congr {c' : Connection S} (h : Ticking out c) (harmed : c'.armed = c.armed)
    (hstate : c'.state = c.state) (hpending : c'.pending = c.pending)
    (hsession : c'.session.map (fun s => (s.auth, s.handshake)) =
      c.session.map fun s => (s.auth, s.handshake)) : Ticking out c' := by
  have hfind : ∀ s', c'.session = some s' → ∃ s, c.session = some s ∧ s.auth = s'.auth ∧
      s.handshake = s'.handshake := by
    intro s' hs'
    rw [hs', Option.map_some, eq_comm, Option.map_eq_some_iff] at hsession
    obtain ⟨s, hs, heq⟩ := hsession
    exact ⟨s, hs, (Prod.mk.inj heq).1, (Prod.mk.inj heq).2⟩
  have hfind' : ∀ s, c.session = some s → ∃ s', c'.session = some s' ∧ s'.auth = s.auth ∧
      s'.handshake = s.handshake := by
    intro s hs
    rw [hs, Option.map_some, Option.map_eq_some_iff] at hsession
    obtain ⟨s', hs', heq⟩ := hsession
    exact ⟨s', hs', (Prod.mk.inj heq).1, (Prod.mk.inj heq).2⟩
  refine ⟨⟨harmed ▸ h.covers, fun id hid => hstate ▸ h.current id (harmed ▸ hid), ?_, ?_, ?_⟩,
    ?_⟩
  · intro s' p hs' hauth
    obtain ⟨s, hs, hsauth, hhand⟩ := hfind s' hs'
    exact hhand ▸ h.staged s p hs (hsauth.trans hauth)
  · intro s' handshake hs' hhand'
    obtain ⟨s, hs, -, hhand⟩ := hfind s' hs'
    exact h.unsent s handshake hs (hhand.trans hhand')
  · intro hmem
    obtain ⟨s, handshake, hs, hhand, hidle⟩ := h.answered hmem
    obtain ⟨s', hs', -, hhand'⟩ := hfind' s hs
    exact ⟨s', handshake, hs', hhand'.trans hhand, hidle⟩
  · have hlive := h.live
    unfold Live at hlive ⊢
    rw [hstate, hpending]
    cases hst : c.state with
    | authenticating =>
      rw [hst] at hlive
      obtain ⟨hmem, s, p, hs, hauth, hnone, hway⟩ := hlive
      obtain ⟨s', hs', hauth', hhand'⟩ := hfind' s hs
      exact ⟨hmem, s', p, hs', hauth'.trans hauth, hhand'.trans hnone, hway⟩
    | handshaking =>
      rw [hst] at hlive
      intro s' handshake hs' hhand
      obtain ⟨s, hs, -, hhand'⟩ := hfind s' hs'
      exact hlive s handshake hs (hhand'.trans hhand)
    | _ =>
      rw [hst] at hlive
      exact hlive

theorem Clocked.timerOf_of_mem {id : TimerId} (h : Clocked out c) (hmem : id ∈ out) :
    timerOf c.state = some id :=
  h.current id (by simpa using h.covers hmem)

theorem Clocked.insert_eq {id : TimerId} (h : Clocked out c) (hid : timerOf c.state = some id) :
    insert id out = {id} := by
  refine (Finset.insert_subset (Finset.mem_singleton_self id) fun id' hid' => ?_).antisymm
    (Finset.singleton_subset_iff.mpr (Finset.mem_insert_self ..))
  cases hid.symm.trans (h.timerOf_of_mem hid')
  exact Finset.mem_singleton_self _

/-! ## Transitions keep it -/

theorem ticking_fail (hcovers : out ⊆ c.armed.toFinset) (failure : Failure) :
    Ticking (afterActions out (c.fail failure).2) (c.fail failure).1 := by
  rw [after_fail c hcovers, fail_fst]
  split_ifs
  · exact ⟨⟨by simp, by simp [timerOf], by simp, by simp, by simp⟩, by simp [Live]⟩
  · exact ⟨⟨by simp, by simp, by simp, by simp, by simp⟩, by simp [Live]⟩

theorem ticking_startScan (hcovers : out ⊆ c.armed.toFinset) (hsession : c.session = none) :
    Ticking (afterActions out c.startScan.2) c.startScan.1 := by
  rw [after_startScan c hcovers, startScan_fst]
  exact ⟨⟨by simp, by simp [timerOf], by simp [hsession], by simp [hsession], by simp⟩,
    by simp [Live]⟩

theorem ticking_associateWith {target : Target} {session : Session S}
    (hcovers : out ⊆ c.armed.toFinset)
    (hstaged : session.handshake = none) :
    Ticking (afterActions out (c.associateWith target session).2)
      (c.associateWith target session).1 := by
  rw [after_associateWith c hcovers, associateWith_fst]
  refine ⟨⟨by simp, by simp [timerOf], ?_, ?_, by simp⟩, by simp [Live]⟩
  · rintro s p ⟨⟩ -
    exact hstaged
  · rintro s handshake ⟨⟩ hhand
    exact nomatch hstaged.symm.trans hhand

theorem Clocked.enter (h : Clocked out c) (state : State) :
    Clocked (afterActions out (c.leaving state)) (c.enter state).1 := by
  have hstate : (c.enter state).1.state = state := by simp
  have hsession : (c.enter state).1.session = c.session := by simp
  refine ⟨covers_enter c h.covers state, fun id hid => ?_, ?_, ?_, fun hmem => ?_⟩
  · rw [hstate]
    exact timerOf_of_entered c hid
  · rw [hsession]
    exact h.staged
  · rw [hsession]
    exact h.unsent
  · rw [after_leaving c h.covers] at hmem
    unfold Answered
    rw [hsession]
    split_ifs at hmem
    · exact h.answered hmem
    · simp at hmem

theorem ticking_enter {s : State} (h : Clocked out c)
    (hst : s = .configuring ∨ s = .connected) :
    Ticking (afterActions out (c.leaving s)) (c.enter s).1 := by
  refine ⟨h.enter s, ?_⟩
  rw [enter_fst]
  rcases hst with rfl | rfl <;> trivial

theorem ticking_configured (h : Clocked out c) :
    Ticking (afterActions out c.configured.2) c.configured.1 := by
  have hentered := ticking_enter h (s := c.afterKeys) (by unfold afterKeys; split_ifs <;> simp)
  rw [after_configured]
  refine hentered.congr ?_ (by simp) (by simp) (by simp)
  unfold configured afterKeys
  split_ifs <;> simp

/-! ## Handlers keep it -/

/-- What the provider answers leaves the exchange under way, unless it ends it. -/
theorem saeCall_underWay {provider : SaeProvider S.curve} {ctx : AuthContext} {event : SaeEvent}
    (hway : event = .start ∨ provider.UnderWay) :
    (∀ frame, (saeCall provider ctx event).2 = .ok (.send frame) →
      (saeCall provider ctx event).1.UnderWay) ∧
    ((saeCall provider ctx event).2 = .ok .wait →
      (saeCall provider ctx event).1.UnderWay ∧ ∃ bytes, event = .frame bytes) := by
  cases event with
  | start =>
    change (∀ frame, (provider.startCall S.prim ctx).2 = _ → (provider.startCall S.prim ctx).1.UnderWay) ∧
      ((provider.startCall S.prim ctx).2 = _ → _)
    unfold SaeProvider.startCall
    cases hstart : provider.start S.prim ctx with
    | error e => exact ⟨fun _ h => (nomatch h), fun h => (nomatch h)⟩
    | ok q =>
      obtain ⟨-, commit, -, hfst, hsnd⟩ := SaeProvider.start_eq_ok hstart
      refine ⟨fun _ _ => ?_, fun h => ?_⟩
      · rw [hfst]
        exact .inl ⟨commit, rfl⟩
      · simp [hsnd] at h
  | frame bytes =>
    have hway : provider.UnderWay := hway.resolve_left fun h => nomatch h
    have hstep := SaeProvider.onFrame_step (P := S.prim) provider bytes
    have hcall : saeCall provider ctx (.frame bytes) = provider.onFrame S.prim bytes := rfl
    rw [hcall]
    generalize provider.onFrame S.prim bytes = q at hstep ⊢
    obtain ⟨p', x⟩ := q
    cases hstep with
    | keep _ hsilent => exact ⟨fun _ _ => hway, fun _ => ⟨hway, bytes, rfl⟩⟩
    | fail e => exact ⟨fun _ h => (nomatch h), fun h => (nomatch h)⟩
    | token commit token => exact ⟨fun _ _ => .inl ⟨commit, rfl⟩, fun h => (nomatch h)⟩
    | commit commit auth _ step _ _ _ _ hcommit =>
      obtain ⟨_, _, _, _, _, -, -, -, -, -, rfl, rfl⟩ := SaeProvider.onCommit_eq_ok hcommit
      exact ⟨fun _ _ => .inr ⟨_, rfl⟩, fun h => (nomatch h)⟩
    | confirm => exact ⟨fun _ h => (nomatch h), fun h => (nomatch h)⟩
  | timeout =>
    have hway : provider.UnderWay := hway.resolve_left fun h => nomatch h
    obtain ⟨sync, hfst, -⟩ := provider.onTimeout_eq
    refine ⟨fun _ _ => ?_, fun h => ?_⟩
    · change provider.onTimeout.1.UnderWay
      rw [hfst]
      exact hway
    · change provider.onTimeout.2 = _ at h
      unfold SaeProvider.onTimeout at h
      rcases hway with ⟨commit, hst⟩ | ⟨session, hst⟩
      all_goals
        rw [hst] at h
        simp only at h
        split_ifs at h
        all_goals cases h

theorem ticking_saeDriven {event : SaeEvent} {s : Session S} {provider : SaeProvider S.curve}
    (h : Clocked out c) (hst : c.state = .authenticating) (htarget : c.target.isSome)
    (hsession : c.session = some s) (hauth : s.auth = .preAssoc provider)
    (hnone : s.handshake = none)
    (hway : event = .start ∨ provider.UnderWay)
    (hlive : ∀ bytes, event = .frame bytes → .authTimeout ∈ out) (hd : SaeDriven c event r) :
    Ticking (afterActions out r.2) r.1 := by
  cases hd with
  | off hoff =>
    obtain ⟨target, htarget⟩ := Option.isSome_iff_exists.mp htarget
    exact absurd hauth (hoff target s provider htarget hsession)
  | call target session' provider' q r htarget' hsession' hauth' hq hm =>
    cases hsession.symm.trans hsession'
    cases hauth.symm.trans hauth'
    obtain ⟨hsend, hwait⟩ := saeCall_underWay (S := S)
      hway
    rw [hq] at hsend hwait
    obtain ⟨p', x⟩ := q
    cases hm with
    | fail => exact ticking_fail (c := c.withSession _) h.covers _
    | noBody => exact ticking_fail (c := c.withSession _) h.covers _
    | wait =>
      obtain ⟨hway', bytes, hevent⟩ := hwait rfl
      refine ⟨⟨h.covers, h.current, ?_, ?_, fun hmem => ?_⟩, ?_⟩
      · rintro _ p ⟨⟩ hp
        cases hp
      · rintro _ handshake ⟨⟩
        exact h.unsent s handshake hsession
      · obtain ⟨s', handshake, hs, hhand, hidle⟩ := h.answered hmem
        cases hsession.symm.trans hs
        exact ⟨_, handshake, rfl, hhand, hidle⟩
      · simp only [Live, withSession_state, hst]
        exact ⟨hlive bytes hevent, _, p', rfl, rfl, hnone, hway'⟩
    | send frame request hrequest =>
      change Ticking (insert .authTimeout out) _
      rw [h.insert_eq (by rw [hst]; rfl)]
      refine ⟨⟨by simp, by simp [timerOf, hst], ?_, ?_, by simp⟩, ?_⟩
      · rintro _ p ⟨⟩ hp
        cases hp
      · rintro _ handshake ⟨⟩
        exact h.unsent s handshake hsession
      · simp only [Live, andThen_fst, arm_fst, withSession_state, hst]
        exact ⟨by simp, _, p', rfl, rfl, hnone, hsend frame rfl⟩
    | done target' session' pmk htarget' hsession' =>
      cases hsession'
      exact ticking_associateWith (c := c.withSession (keyed _ pmk)) h.covers hnone

theorem ticking_keyStart {pmk : Pmk} (h : Clocked out c)
    (hauth : ∀ s, c.session = some s → ∀ p, s.auth ≠ .postAssoc p) (hquiet : .handshakeRetry ∉ out)
    (hk : KeyStart c draws pmk r) : Ticking (afterActions out r.2) r.1 := by
  cases hk with
  | noNonce => exact ticking_fail h.covers _
  | start session rsn snonce hsession hrsn hnonce =>
    have hleft : afterActions out (c.leaving .handshaking) ⊆ out := by
      rw [after_leaving c h.covers]
      split_ifs
      · exact subset_rfl
      · exact Finset.empty_subset _
    have hcovers := covers_enter (c.withSession (session.withHandshake
      (.withSnonce pmk (c.handshakeConfig session rsn) snonce))) h.covers .handshaking
    rw [enter_snd, afterActions_append]
    refine ⟨⟨hcovers, fun id hid => ?_, ?_, ?_, fun hmem => absurd (hleft hmem) hquiet⟩, ?_⟩
    · rw [enter_fst]
      exact timerOf_of_entered _ hid
    · rw [enter_fst]
      rintro s p ⟨⟩ hp
      exact absurd hp (hauth session hsession p)
    · rw [enter_fst]
      rintro s handshake ⟨⟩ ⟨⟩ -
      rfl
    · rw [enter_fst]
      rintro s handshake ⟨⟩ ⟨⟩
      exact .inl rfl

theorem ticking_dot1xDriven {frame : Option Bytes} (h : Clocked out c) (hl : c.Listening)
    (hlive : c.Live out) (hd : Dot1xDriven c draws frame r) :
    Ticking (afterActions out r.2) r.1 := by
  cases hd with
  | off => exact ⟨h, hlive⟩
  | call target session provider q r htarget hsession hauth hq hm =>
    have hnone : session.handshake = none := h.staged session provider hsession hauth
    have hquiet : .handshakeRetry ∉ out := by
      intro hmem
      obtain ⟨s, handshake, hs, hhand, -⟩ := h.answered hmem
      cases hsession.symm.trans hs
      exact nomatch hnone.symm.trans hhand
    obtain ⟨p', x⟩ := q
    have hstill : Ticking out (c.withSession (session.withAuth (.postAssoc p'))) := by
      refine ⟨⟨h.covers, h.current, ?_, ?_, fun hmem => absurd hmem hquiet⟩, ?_⟩
      · rintro s p ⟨⟩ -
        exact hnone
      · rintro s handshake ⟨⟩ hhand
        exact nomatch hnone.symm.trans hhand
      · unfold Live
        rw [withSession_state]
        rcases hl with hst | hst
        · rw [hst]
          rintro s handshake ⟨⟩ hhand
          exact nomatch hnone.symm.trans hhand
        · rw [hst]
          trivial
    cases hm with
    | send => exact hstill
    | wait => exact hstill
    | fail => exact ticking_fail (c := c.withSession _) h.covers _
    | done pmk r hk =>
      refine ticking_keyStart ?_ ?_ hquiet hk
      · refine ⟨h.covers, h.current, ?_, ?_, fun hmem => absurd hmem hquiet⟩
        · rintro s p ⟨⟩ hp
          cases hp
        · rintro s handshake ⟨⟩ hhand
          exact nomatch hnone.symm.trans hhand
      · rintro s ⟨⟩ p hp
        cases hp

theorem Clocked.withHandshake {session : Session S} {handshake w : FourWay}
    (h : Clocked out c) (hsession : c.session = some session)
    (hhandshake : session.handshake = some handshake)
    (hunsent : w.state = .idle → w.lastSent = none)
    (hanswered : handshake.state ≠ .idle → w.state ≠ .idle) :
    Clocked out (c.withSession (session.withHandshake w)) := by
  refine ⟨h.covers, h.current, ?_, ?_, fun hmem => ?_⟩
  · rintro s p ⟨⟩ hp
    exact nomatch (h.staged session p hsession hp).symm.trans hhandshake
  · rintro s hand ⟨⟩ ⟨⟩
    exact hunsent
  · obtain ⟨s, hand, hs, hhand, hidle⟩ := h.answered hmem
    cases hsession.symm.trans hs
    cases hhandshake.symm.trans hhand
    exact ⟨_, w, rfl, rfl, hanswered hidle⟩

theorem ticking_sends {session : Session S} {handshake handshake' : FourWay} {frame : Bytes}
    {ms : ℕ} (h : Clocked out c) (hl : c.Listening) (hsession : c.session = some session)
    (hhandshake : session.handshake = some handshake) (hidle : handshake'.state ≠ .idle)
    (hwaits : c.state = .handshaking →
      handshake'.state = .awaitingMsg3 ∧ handshake'.lastSent.isSome) :
    Ticking (afterActions out [.sendEapol frame, .setTimer .handshakeRetry ms])
      ((c.withSession (session.withHandshake handshake')).arm .handshakeRetry ms).1 := by
  have htimer : timerOf c.state = some .handshakeRetry := by rcases hl with hst | hst <;> rw [hst] <;> rfl
  change Ticking (insert .handshakeRetry out) _
  rw [h.insert_eq htimer]
  refine ⟨⟨by simp, by simp [htimer], ?_, ?_, fun _ => ⟨_, handshake', rfl, rfl, hidle⟩⟩, ?_⟩
  · rintro s p ⟨⟩ hp
    exact nomatch (h.staged session p hsession hp).symm.trans hhandshake
  · rintro s hand ⟨⟩ ⟨⟩ hst
    exact absurd hst hidle
  · unfold Live
    simp only [arm_fst, withSession_state]
    rcases hl with hst | hst
    · rw [hst]
      rintro s hand ⟨⟩ ⟨⟩
      exact .inr ⟨(hwaits hst).1, (hwaits hst).2, by simp⟩
    · rw [hst]
      trivial

theorem Live.handshake {session : Session S} {handshake : FourWay} (h : c.Live out)
    (hst : c.state = .handshaking) (hsession : c.session = some session)
    (hhandshake : session.handshake = some handshake) :
    handshake.state = .idle ∨ (handshake.state = .awaitingMsg3 ∧ handshake.lastSent.isSome ∧
      .handshakeRetry ∈ out) := by
  unfold Live at h
  rw [hst] at h
  exact h session handshake hsession hhandshake

theorem Ticking.withHandshake {session : Session S} {handshake handshake' : FourWay}
    (h : Ticking out c) (hl : c.Listening) (hsession : c.session = some session)
    (hhandshake : session.handshake = some handshake) (hstate : handshake'.state = handshake.state)
    (hsent : handshake'.lastSent = handshake.lastSent) :
    Ticking out (c.withSession (session.withHandshake handshake')) := by
  refine ⟨h.toClocked.withHandshake hsession hhandshake ?_ (hstate ▸ id), ?_⟩
  · rw [hstate, hsent]
    exact h.unsent session handshake hsession hhandshake
  · unfold Live
    rw [withSession_state]
    rcases hl with hst | hst
    · rw [hst]
      rintro s hand ⟨⟩ ⟨⟩
      rw [hstate, hsent]
      exact h.live.handshake hst hsession hhandshake
    · rw [hst]
      trivial

theorem Live.mono {out' : Finset TimerId} (h : c.Live out) (hsub : out ⊆ out') : c.Live out' := by
  unfold Live at h ⊢
  cases hst : c.state with
  | scanning =>
    rw [hst] at h
    exact fun hp => hsub (h hp)
  | authenticating =>
    rw [hst] at h
    exact ⟨hsub h.1, h.2⟩
  | associating =>
    rw [hst] at h
    exact hsub h
  | handshaking =>
    rw [hst] at h
    exact fun s handshake hs hhand => (h s handshake hs hhand).imp_right fun hwait =>
      ⟨hwait.1, hwait.2.1, hsub hwait.2.2⟩
  | reconnecting =>
    rw [hst] at h
    exact hsub h
  | _ => trivial

theorem Live.of_connected (hst : c.state = .connected) : c.Live out := by
  unfold Live
  rw [hst]
  trivial

/-- What message 3 is answered with: the timer stops, and the keys of a first installation follow. -/
theorem handshakeActions_message3 {frame : Bytes} {install : Bool} {keys : Keys}
    (h : c.handshakeActions ([.send frame, .disarmTimer] ++ FourWay.completion install keys) =
      some r) :
    ∃ installs, r = (c.disarm.1, .sendEapol frame :: (c.disarm.2 ++ installs)) ∧
      ((install = false ∧ installs = []) ∨
        (install = true ∧ ∃ installed, installs = [.installKeys installed])) := by
  cases install with
  | false =>
    cases h
    exact ⟨[], rfl, .inl ⟨rfl, rfl⟩⟩
  | true =>
    obtain ⟨q, hq, hrest⟩ := Option.bind_eq_some_iff.mp h
    cases hq
    obtain ⟨q₁, h₁, rfl⟩ := (tryThen_eq_some _).mp hrest
    obtain ⟨q₂, hq₂, hrest₂⟩ := Option.bind_eq_some_iff.mp h₁
    cases hq₂
    obtain ⟨q₃, h₃, rfl⟩ := (tryThen_eq_some _).mp hrest₂
    obtain ⟨q₄, hq₄, hrest₄⟩ := Option.bind_eq_some_iff.mp h₃
    obtain ⟨installed, -, rfl⟩ := Option.map_eq_some_iff.mp hq₄
    cases hrest₄
    exact ⟨[.installKeys installed], by simp, .inr ⟨rfl, installed, rfl⟩⟩

theorem ticking_handshakeMove {input : FourWay.Input} (h : Clocked out c) (hl : c.Listening)
    (hlive : c.Live (insert .handshakeRetry out)) (hframe : input ≠ .timeout → c.Live out)
    (hm : HandshakeMove c input r) : Ticking (afterActions out r.2) r.1 := by
  cases hm with
  | off hoff =>
    refine ⟨h, ?_⟩
    rcases hl with hst | hst
    · unfold Live
      rw [hst]
      intro s handshake hs hhand
      exact nomatch (hoff s hs).symm.trans hhand
    · exact .of_connected hst
  | fail => exact ticking_fail (c := c.withSession _) h.covers _
  | actions session handshake actions q hsession hhandshake hpoll hactions =>
    have hstep := FourWay.poll_step (P := S.prim) handshake input
    generalize handshake.poll S.prim input = polled at hstep hpoll hactions
    obtain ⟨handshake', x⟩ := polled
    dsimp only at hstep hpoll hactions
    subst hpoll
    cases hstep with
    | ignore bytes =>
      cases hactions
      exact (Ticking.mk h (hframe fun hi => nomatch hi)).withHandshake hl hsession hhandshake rfl rfl
    | quiet hsent =>
      cases hactions
      refine Ticking.withHandshake ⟨h, ?_⟩ hl hsession hhandshake rfl rfl
      rcases hl with hst | hst
      · unfold Live
        rw [hst]
        intro s hand hs hhand
        cases hsession.symm.trans hs
        cases hhandshake.symm.trans hhand
        refine .inl ((hlive.handshake hst hsession hhandshake).resolve_right fun hwait => ?_)
        rw [hsent] at hwait
        cases hwait.2.1
      · exact .of_connected hst
    | retransmit frame hsent hretries =>
      cases hactions
      have hidle : handshake.state ≠ .idle := fun hst =>
        nomatch (h.unsent session handshake hsession hhandshake hst).symm.trans hsent
      refine ticking_sends h hl hsession hhandshake hidle fun hst => ?_
      obtain ⟨hwait, hsome, -⟩ := (hlive.handshake hst hsession hhandshake).resolve_left hidle
      exact ⟨hwait, hsome⟩
    | message1 bytes eapol frame version ptk h1 =>
      cases hactions
      exact ticking_sends h hl hsession hhandshake (fun hst => nomatch hst)
        fun _ => ⟨rfl, rfl⟩
    | message3 bytes eapol frame ptk keyData gtk h3 =>
      have hclocked := h.withHandshake (w := handshake.afterMsg3 frame) hsession hhandshake
        (fun hst => nomatch hst) fun _ hst => nomatch hst
      obtain ⟨installs, rfl, hinstalls⟩ := handshakeActions_message3 hactions
      have hinstalls : ∀ out, afterActions out installs = out := by
        rcases hinstalls with ⟨-, rfl⟩ | ⟨-, installed, rfl⟩ <;> exact fun _ => rfl
      have hafter : afterActions out (.sendEapol (handshake.signedMsg4 S.prim frame ptk) ::
          ((c.withSession (session.withHandshake (handshake.afterMsg3 frame))).disarm.2 ++
            installs)) = ∅ := by
        rw [afterActions_cons, afterActions_append, hinstalls]
        exact after_disarm (c.withSession _) h.covers
      have hdisarmed : Clocked ∅
          (c.withSession (session.withHandshake (handshake.afterMsg3 frame))).disarm.1 :=
        ⟨by simp, by simp, hclocked.staged, hclocked.unsent, by simp⟩
      rw [andThen_snd, afterActions_append, hafter]
      dsimp only [andThen_fst]
      split_ifs with hcomplete
      · exact ticking_configured hdisarmed
      · have hst : c.state = .connected := hl.resolve_left fun hst => by
          rcases hlive.handshake hst hsession hhandshake with hidle | ⟨hwait, -⟩
          · rcases h3.expected with hexp | hexp <;> exact nomatch hidle.symm.trans hexp
          · simp [hwait, FourWay.completion, isComplete] at hcomplete
        exact ⟨hdisarmed, .of_connected hst⟩
    | groupMessage1 bytes eapol frame ptk keyData gtk hg =>
      cases hactions
      have hst : c.state = .connected := hl.resolve_left fun hst => by
        rcases hlive.handshake hst hsession hhandshake with hidle | ⟨hwait, -⟩
        · exact nomatch hidle.symm.trans hg.expected
        · exact nomatch hwait.symm.trans hg.expected
      exact Ticking.withHandshake ⟨h, .of_connected hst⟩ hl hsession hhandshake rfl rfl

theorem credential_ne_none {target : Target} (htarget : c.target = some target)
    (hsecret : target.secret.isSome) (isOpen : Bool) : c.credential isOpen ≠ none := by
  obtain ⟨secret, hsecret⟩ := Option.isSome_iff_exists.mp hsecret
  unfold credential
  split_ifs
  · exact fun h => nomatch h
  · cases c.profile with
    | some profile => exact fun h => nomatch h
    | none => simp [htarget, hsecret]

theorem Clocked.aiming {target : Option Target} {pending : Option Bss} (h : Clocked out c) :
    Clocked out { c with target := target, pending := pending } :=
  ⟨h.covers, h.current, h.staged, h.unsent, h.answered⟩

theorem prompt_fst (bss : Bss) :
    (c.prompt bss).1 = { c with armed := none, pending := some bss } := rfl

theorem ticking_planned {bss : Bss} {roaming : Bool} (h : Clocked out c) (htarget : c.target.isSome)
    (hstay : roaming = true → c.Live out)
    (hprompt : c.credential bss.rsn.isNone = none → c.state = .scanning ∨ c.state = .connected)
    (hp : Planned c draws bss roaming r) : Ticking (afterActions out r.2) r.1 := by
  cases hp with
  | refused => exact ticking_fail h.covers _
  | enterprise => exact ticking_fail h.covers _
  | unstaged => exact ticking_fail h.covers _
  | stay hroaming => exact ⟨h, hstay hroaming⟩
  | prompt choice hcredential =>
    have hafter : afterActions out (c.prompt bss).2 = ∅ := by
      unfold Connection.prompt
      rw [andThen_snd, afterActions_append, after_disarm c h.covers]
      rfl
    rw [hafter, prompt_fst]
    refine ⟨⟨by simp, by simp, h.staged, h.unsent, by simp⟩, ?_⟩
    rcases hprompt hcredential with hst | hst <;> simp [Live, hst]
  | sae credential choice provider q hchosen hstage hroaming hd =>
    have hcovers := covers_enter (c.withSession (newSession choice (.preAssoc provider)))
      h.covers .authenticating
    have hleft := after_leaving_subset (c.withSession (newSession choice (.preAssoc provider)))
      h.covers .authenticating
    rw [afterActions_append, afterActions_cons]
    refine ticking_saeDriven (s := newSession choice (.preAssoc provider))
      ⟨hcovers, fun id hid => ?_, ?_, ?_, fun hmem => ?_⟩ (by simp) ?_ ?_ rfl rfl (.inl rfl)
      (fun _ hevent => nomatch hevent) hd
    · rw [enter_fst]
      exact timerOf_of_entered _ hid
    · rw [enter_fst]
      rintro s p ⟨⟩ hp
      cases hp
    · rw [enter_fst]
      rintro s handshake ⟨⟩ hhand
      cases hhand
    · have hmem := hleft hmem
      simp [timerOf] at hmem
    · rw [enter_fst]
      exact htarget
    · rw [enter_fst]
      rfl
  | associate credential choice auth target hchosen hstage hpre htarget' =>
    exact ticking_associateWith (c := c.withSession _) h.covers rfl

/-! ## Polls keep it -/

theorem saveProfile_clock (c : Connection S) : c.saveProfile.1.armed = c.armed ∧
    c.saveProfile.1.pending = c.pending ∧ ∀ out, afterActions out c.saveProfile.2 = out := by
  unfold saveProfile
  split
  · split_ifs
    · exact ⟨rfl, rfl, fun _ => rfl⟩
    · split
      · exact ⟨rfl, rfl, fun _ => rfl⟩
      · exact ⟨rfl, rfl, fun _ => rfl⟩
  · exact ⟨rfl, rfl, fun _ => rfl⟩

theorem ticking_onLease (h : Ticking out c) (event : LeaseEvent) :
    Ticking (afterActions out (c.onLease event).2) (c.onLease event).1 := by
  cases event with
  | acquired lease =>
    have hentered := ticking_enter h.toClocked (.inr rfl)
    obtain ⟨hstate, hsession, -⟩ := saveProfile_frame { (c.enter .connected).1 with attempts := 0 }
    obtain ⟨harmed, hpending, hafter⟩ :=
      saveProfile_clock { (c.enter .connected).1 with attempts := 0 }
    have hleft : afterActions out (c.onLease (.acquired lease)).2 =
        afterActions out (c.leaving .connected) := by
      simp only [onLease, andThen_snd, enter_snd, afterActions_append, hafter]
      rfl
    rw [hleft]
    exact hentered.congr harmed hstate hpending (by rw [onLease]; exact congrArg _ hsession)
  | lost reason =>
    by_cases hst : c.state = .connected
    · have hentered := ticking_enter h.toClocked (.inl rfl)
      simpa [onLease, hst, afterAction] using hentered
    · rw [onLease_lost hst]
      exact h
  | failed => exact ticking_fail h.covers _

theorem Clocked.not_mem_of_associating (h : Clocked out c) (hst : c.state = .associating) :
    .handshakeRetry ∉ out := by
  intro hmem
  have hcurrent := h.timerOf_of_mem hmem
  simp [hst, timerOf] at hcurrent

/-- **Every poll keeps it**, the deliveries of a deadline aside. -/
theorem Ticking.move {input : Input} (h : Ticking out c) (hsound : c.Sound)
    (htimer : ∀ id, input ≠ .timer id) (hm : Move c draws input r) :
    Ticking (afterActions out r.2) r.1 := by
  cases hm with
  | ignore => exact h
  | connect ssid =>
    rw [andThen_snd, afterActions_append]
    have hsame :
        afterActions out (if c.state = .idle then [] else [.disconnect reasonLeaving]) = out := by
      split_ifs <;> rfl
    rw [hsame]
    exact ticking_startScan (c := c.restart _) h.covers rfl
  | autoconnect => exact ticking_startScan (c := c.restart none) h.covers rfl
  | secret value target => exact h.congr rfl rfl rfl rfl
  | answer value target bss r htarget hpending hplanned =>
    refine ticking_planned h.aiming (by rfl) (fun hroam => by cases hroam) (fun hnone => ?_) hplanned
    exact absurd hnone (credential_ne_none rfl rfl _)
  | disconnect =>
    have hafter : afterActions out (.disconnect reasonLeaving :: c.goIdle.2) = ∅ := by
      change afterActions out (c.disarm.2 ++ [.notify .idle]) = ∅
      rw [afterActions_append, after_disarm c h.covers]
      rfl
    change Ticking (afterActions out (.disconnect reasonLeaving :: c.goIdle.2)) c.goIdle.1
    rw [hafter, goIdle_fst]
    exact ⟨⟨by simp, by simp, by simp, by simp, by simp⟩, by simp [Live]⟩
  | noNetwork => exact ticking_fail h.covers _
  | selected scan target bssid bss r hst hselection hfind hplanned =>
    exact ticking_planned (c := c.withTarget target) h.aiming rfl (fun hroam => by cases hroam)
      (fun _ => .inl hst) hplanned
  | surveyed scan session target hst hsession =>
    exact h.congr rfl rfl rfl (by rw [hsession]; rfl)
  | roam scan session target better bss r hst hsession htarget hroam hfind hplanned =>
    exact ticking_planned h.toClocked (by simp [htarget]) (fun _ => h.live) (fun _ => .inr hst)
      hplanned
  | eapolKey frame eapol r hl hparse htype hm =>
    refine ticking_handshakeMove h.toClocked hl ?_ (fun _ => h.live) hm
    exact h.live.mono (Finset.subset_insert ..)
  | eapolEap frame eapol r hl hparse htype hd => exact ticking_dot1xDriven h.toClocked hl h.live hd
  | lease event => exact ticking_onLease h event
  | fetch => exact h
  | linkFailed => exact ticking_fail h.covers _
  | joinedOpen bssid session hst hsession hauth =>
    refine ticking_configured ⟨h.covers, h.current, ?_, ?_, fun hmem => ?_⟩
    · rintro s p ⟨⟩ hp
      cases hp
    · rintro s handshake ⟨⟩
      exact h.unsent session handshake hsession
    · exact absurd hmem (h.not_mem_of_associating hst)
  | joinedReady bssid session pmk r hst hsession hauth hk =>
    have hquiet := h.not_mem_of_associating hst
    refine ticking_keyStart (c := c.withSession (session.withAuth .running))
      ⟨h.covers, h.current, ?_, ?_, fun hmem => absurd hmem hquiet⟩ ?_ hquiet hk
    · rintro s p ⟨⟩ hp
      cases hp
    · rintro s handshake ⟨⟩
      exact h.unsent session handshake hsession
    · rintro s ⟨⟩ p hp
      cases hp
  | joinedDot1x bssid session provider r hst hsession hauth hd =>
    rw [afterActions_append, afterActions_cons]
    refine ticking_dot1xDriven (h.toClocked.enter .handshaking) (.inl (by simp)) ?_ hd
    unfold Live
    rw [enter_fst]
    intro s handshake hs hhand
    cases hsession.symm.trans hs
    exact nomatch (h.staged session provider hsession hauth).symm.trans hhand
  | joinedUnstaged => exact ticking_fail h.covers _
  | saeFrame frame body r hst hbody hd =>
    have hlive := h.live
    unfold Live at hlive
    rw [hst] at hlive
    obtain ⟨hmem, session, provider, hsession, hauth, hnone, hway⟩ := hlive
    exact ticking_saeDriven h.toClocked hst (hsound.targeted (.inl (by simp [hsession]))) hsession
      hauth hnone (.inr hway) (fun _ _ => hmem) hd
  | saeTimeout r hst hd => exact absurd rfl (htimer _)
  | handshakeRetry r hl hm => exact absurd rfl (htimer _)
  | timedOut id => exact absurd rfl (htimer id)
  | rescan => exact absurd rfl (htimer _)

/-! ## Deliveries keep it -/

/-- A deadline of no concern to the state, and the one of a scan with a BSS parked, say nothing. -/
theorem onTimer_other {id : TimerId}
    (h : timerOf c.state ≠ some id ∨ (id = .scanTimeout ∧ c.pending.isSome)) :
    c.onTimer id = some (c, []) := by
  rcases h with h | ⟨rfl, hpending⟩
  · unfold onTimer
    cases id <;> cases hst : c.state <;> first | rfl | exact absurd (by rw [hst]; rfl) h
  · unfold onTimer
    obtain ⟨bss, hpending⟩ := Option.isSome_iff_exists.mp hpending
    cases hst : c.state <;> simp [hpending]

theorem Live.erase {id : TimerId} (h : c.Live out)
    (hother : timerOf c.state ≠ some id ∨ (id = .scanTimeout ∧ c.pending.isSome)) :
    c.Live (out.erase id) := by
  have hkeep : ∀ own, timerOf c.state = some own → (own = .scanTimeout → c.pending = none) →
      own ∈ out → own ∈ out.erase id := by
    intro own hown hpending hmem
    refine Finset.mem_erase.mpr ⟨?_, hmem⟩
    rintro rfl
    rcases hother with hne | ⟨hscan, hparked⟩
    · exact hne hown
    · simp [hpending hscan] at hparked
  unfold Live at h ⊢
  cases hst : c.state with
  | scanning =>
    rw [hst] at h hkeep
    exact fun hpending => hkeep _ rfl (fun _ => hpending) (h hpending)
  | authenticating =>
    rw [hst] at h hkeep
    exact ⟨hkeep _ rfl (fun hid => nomatch hid) h.1, h.2⟩
  | associating =>
    rw [hst] at h hkeep
    exact hkeep _ rfl (fun hid => nomatch hid) h
  | handshaking =>
    rw [hst] at h hkeep
    exact fun s handshake hs hhand => (h s handshake hs hhand).imp_right fun hwait =>
      ⟨hwait.1, hwait.2.1, hkeep _ rfl (fun hid => nomatch hid) hwait.2.2⟩
  | reconnecting =>
    rw [hst] at h hkeep
    exact hkeep _ rfl (fun hid => nomatch hid) h
  | _ => trivial

/-- **Every delivery of a deadline keeps it.** -/
theorem Ticking.deliver {id : TimerId} (h : Ticking out c) (hsound : c.Sound)
    (hr : c.onTimer id = some r) : Ticking (afterActions (out.erase id) r.2) r.1 := by
  have hclocked := h.toClocked.mono (Finset.erase_subset id out)
  by_cases hother : timerOf c.state ≠ some id ∨ (id = .scanTimeout ∧ c.pending.isSome)
  · rw [onTimer_other hother] at hr
    cases hr
    exact ⟨hclocked, h.live.erase hother⟩
  obtain ⟨hid, hpending⟩ := not_or.mp hother
  have hid := not_not.mp hid
  have hlive := h.live
  unfold onTimer at hr
  cases hst : c.state with
  | scanning =>
    rw [hst] at hid hr
    cases hid
    have hnone : c.pending = none := by simpa using hpending
    simp only [hnone] at hr
    cases hr
    exact ticking_fail hclocked.covers _
  | authenticating =>
    rw [hst] at hid hr
    cases hid
    unfold Live at hlive
    rw [hst] at hlive
    obtain ⟨-, session, provider, hsession, hauth, hnone, hway⟩ := hlive
    exact ticking_saeDriven hclocked hst (hsound.targeted (.inl (by simp [hsession]))) hsession
      hauth hnone (.inr hway) (fun _ hevent => by cases hevent) (driveSae_driven hr)
  | associating =>
    rw [hst] at hid hr
    cases hid
    cases hr
    exact ticking_fail hclocked.covers _
  | handshaking =>
    rw [hst] at hid hr
    cases hid
    refine ticking_handshakeMove hclocked (.inl hst) ?_ (fun hno => absurd rfl hno)
      (driveHandshake_move hr)
    exact hlive.mono (Finset.subset_insert_iff.mpr subset_rfl)
  | connected =>
    rw [hst] at hid hr
    cases hid
    exact ticking_handshakeMove hclocked (.inr hst) (.of_connected hst) (fun _ => .of_connected hst)
      (driveHandshake_move hr)
  | reconnecting =>
    rw [hst] at hid hr
    cases hid
    cases hr
    have hstate := hsound.state
    simp only [StateInv, hst] at hstate
    exact ticking_startScan hclocked.covers hstate.1
  | idle =>
    rw [hst] at hid
    cases hid
  | configuring =>
    rw [hst] at hid
    cases hid

theorem driveSae_timeout_ne_none : c.driveSae .timeout ≠ none := by
  have hsae : ∀ (p : SaeProvider S.curve) (c' : Connection S), c'.onSaeStep p.onTimeout.2 ≠ none := by
    intro p c'
    unfold SaeProvider.onTimeout
    cases p.state with
    | committed _ | confirmed _ =>
      dsimp only
      split_ifs
      · exact fun h => nomatch h
      · unfold onSaeStep
        dsimp only
        split <;> exact fun h => nomatch h
    | idle | accepted | failed => exact fun h => nomatch h
  unfold driveSae
  split
  · split
    · exact hsae _ _
    · exact fun h => nomatch h
  · exact fun h => nomatch h

theorem driveHandshake_timeout_ne_none : c.driveHandshake .timeout ≠ none := by
  unfold driveHandshake
  split
  · exact fun h => nomatch h
  · rename_i session hsession
    split
    · exact fun h => nomatch h
    · rename_i handshake hhandshake
      have hstep := FourWay.poll_step (P := S.prim) handshake .timeout
      generalize handshake.poll S.prim .timeout = polled at hstep
      obtain ⟨handshake', x⟩ := polled
      cases hstep with
      | quiet => exact fun h => nomatch h
      | retransmit => exact fun h => nomatch h
      | fail => exact fun h => nomatch h

theorem onTimer_ne_none (id : TimerId) : c.onTimer id ≠ none := by
  unfold onTimer
  split
  · exact fun h => nomatch h
  · exact fun h => nomatch h
  · exact driveSae_timeout_ne_none
  · exact driveHandshake_timeout_ne_none
  · exact driveHandshake_timeout_ne_none
  · exact fun h => nomatch h
  · exact fun h => nomatch h

/-- **Every call keeps it.** -/
theorem Ticking.step (h : Ticking out c) (hsound : c.Sound) (call : Call S) :
    Ticking (afterActions (delivered out call) (c.step call).2) (c.step call).1 := by
  cases call with
  | poll draws input =>
    change Ticking (afterActions _ ((c.poll draws input).getD (c, [])).2)
      ((c.poll draws input).getD (c, [])).1
    cases hpoll : c.poll draws input with
    | none =>
      cases input with
      | timer id => exact absurd hpoll (onTimer_ne_none id)
      | _ => exact h
    | some r =>
      cases input with
      | timer id => exact h.deliver hsound hpoll
      | _ => exact h.move hsound (by rintro _ ⟨⟩) (poll_move hpoll)
  | insertProfile profile => exact h.congr rfl rfl rfl rfl
  | forgetProfile ssid => exact h.congr rfl rfl rfl rfl

/-! ## Runs -/

section Runs

variable (device : Device) (profiles : List Profile)

/-- **What holds at the end of every run.** -/
theorem ticking_run (calls : List (Call S)) :
    Ticking (outstanding (Machine.log step (new device profiles) calls))
      (Machine.exec step (new device profiles) calls) := by
  have hinit : Ticking (outstanding ([] : List (Entry S))) (new device profiles : Connection S) :=
    ⟨⟨by simp [outstanding], by simp, by simp, by simp, by simp [outstanding]⟩, trivial⟩
  have hinv := Machine.run_induction
    (J := fun past (c : Connection S) => Ticking (outstanding past) c ∧ c.Sound)
    (G := fun _ _ => True) ⟨hinit, sound_new device profiles⟩
    (fun past c call hpast _ => ⟨by
      rw [outstanding_concat]
      exact hpast.1.step hpast.2 call, hpast.2.step call⟩)
    calls fun _ _ _ _ => trivial
  exact hinv.1

/-- **Outstanding deadlines.** After every call of every run, what is outstanding at the daemon is at
most the timer the core has on record, and that is the timer of its state. -/
theorem outstanding_armed (calls : List (Call S)) :
    (∀ id ∈ outstanding (Machine.log step (new device profiles) calls),
      (Machine.exec step (new device profiles) calls).armed = some id) ∧
    ∀ id, (Machine.exec step (new device profiles) calls).armed = some id →
      timerOf (Machine.exec step (new device profiles) calls).state = some id :=
  ⟨fun _ hid => by simpa using (ticking_run device profiles calls).covers hid,
    (ticking_run device profiles calls).current⟩

/-! ### What waits for a deadline -/

/-- The states that wait on the network, a scan on hold for a prompt aside. -/
def Waiting (c : Connection S) : Prop :=
  (c.state = .scanning ∧ c.pending = none) ∨ c.state = .authenticating ∨ c.state = .associating ∨
    c.state = .handshaking ∨ c.state = .reconnecting

/-- Associated, and no message 1 of the 4-way handshake answered yet: 802.1X runs here too. -/
def Unanswered (c : Connection S) : Prop := c.state = .handshaking ∧ ¬ c.Answered

theorem Ticking.waiting {c : Connection S} {out : Finset TimerId} (h : Ticking out c)
    (hwaiting : c.Waiting) :
    (∃ id, timerOf c.state = some id ∧ id ∈ out) ↔ ¬ c.Unanswered := by
  have hlive := h.live
  unfold Live at hlive
  rcases hwaiting with ⟨hst, hpending⟩ | hst | hst | hst | hst
  · rw [hst] at hlive
    simpa [hst, Unanswered, timerOf] using hlive hpending
  · rw [hst] at hlive
    simpa [hst, Unanswered, timerOf] using hlive.1
  · rw [hst] at hlive
    simpa [hst, Unanswered, timerOf] using hlive
  · rw [hst] at hlive
    have hiff : (∃ id, timerOf c.state = some id ∧ id ∈ out) ↔ .handshakeRetry ∈ out := by
      simp [hst, timerOf]
    rw [hiff]
    refine ⟨fun hmem hun => hun.2 (h.answered hmem), fun hun => ?_⟩
    obtain ⟨session, handshake, hsession, hhandshake, hidle⟩ :=
      not_not.mp fun hno => hun ⟨hst, hno⟩
    exact ((hlive session handshake hsession hhandshake).resolve_left hidle).2.2
  · rw [hst] at hlive
    simpa [hst, Unanswered, timerOf] using hlive

/-- **What waits has a deadline.** After every call of every run, a connection that waits on the
network has the timer of its state outstanding, unless it is associated and has not answered a
message 1 yet; then it has none. -/
theorem waiting_outstanding (calls : List (Call S)) :
    (Machine.exec step (new device profiles) calls).Waiting →
      ((∃ id, timerOf (Machine.exec step (new device profiles) calls).state = some id ∧
          id ∈ outstanding (Machine.log step (new device profiles) calls)) ↔
        ¬ (Machine.exec step (new device profiles) calls).Unanswered) :=
  (ticking_run device profiles calls).waiting

end Runs

/-! ### A handshake that never begins -/

/-- An access point that asks for a passphrase. -/
def samplePskBss : Bss :=
  { sampleBss with
    security := .wpa2Personal
    rsn := some
      { version := 1, groupCipher := .ccmp128, pairwiseCiphers := [.ccmp128], akms := [.psk]
        capabilities := 0, mfpCapable := false, mfpRequired := false, groupMgmtCipher := none
        raw := [48, 2, 1, 0] } }

/-- A network is joined with the passphrase typed, up to its association. -/
def sampleAssociation : List (Call .sample) :=
  [.poll .sample (.command (.connect [110])), .poll .sample (.scanResults [samplePskBss]),
    .poll .sample (.command (.secret "password")),
    .poll .sample (.wireless (.connected none .success))]

theorem waiting_outstanding_sample :
    (Machine.exec step (new sampleDevice [] : Connection .sample)
        (sampleAssociation.take 1)).Waiting ∧
      ∃ id, id ∈ outstanding (Machine.log step (new sampleDevice [] : Connection .sample)
        (sampleAssociation.take 1)) := by
  have hwaiting : (Machine.exec step (new sampleDevice [] : Connection .sample)
      (sampleAssociation.take 1)).Waiting := .inl ⟨rfl, rfl⟩
  obtain ⟨id, -, hid⟩ := (waiting_outstanding sampleDevice [] (sampleAssociation.take 1)
    hwaiting).mpr fun h => nomatch h.1
  exact ⟨hwaiting, id, hid⟩

/-- Associated, the connection waits for message 1 with no deadline at all. -/
theorem handshaking_not_outstanding :
    (Machine.exec step (new sampleDevice [] : Connection .sample) sampleAssociation).Waiting ∧
      (Machine.exec step (new sampleDevice [] : Connection .sample) sampleAssociation).state =
        .handshaking ∧
      outstanding (Machine.log step (new sampleDevice [] : Connection .sample) sampleAssociation) =
        ∅ :=
  ⟨.inr (.inr (.inr (.inl rfl))), rfl, rfl⟩

end Connection

end Caw
