import Caw.Core.Report

/-!
# The backoff of a run

How long a connection waits after each failure that it retries.

* `Beat`, `beats`, `history`: the backoffs of a run, and what a series of them ends with;
* `series`, `Doubling`: the failures in a row, and the delays that go with them;
* `Connection.Strides`, **`strides_move`**: one poll backs off once more, or starts over, or does neither;
* `Paced`: the law of the backoff;
* **`paced_iff`**: a run obeys it exactly when no failure is retried that comes after 2^32 - 1 in a row.
-/

set_option autoImplicit false

namespace Caw

open Caw.Core

variable {S : Platform}

/-! ## Series of failures -/

namespace Core

/-- A backoff, or the end of a series of them. -/
inductive Beat where
  | backoff (millis : ℕ)
  | rest
deriving DecidableEq

/-- The backoffs in a row after one more beat. -/
def seriesAfter (n : ℕ) : Beat → ℕ
  | .backoff _ => n + 1
  | .rest => 0

/-- The backoffs in a row that a history ends with. -/
def series (bs : List Beat) : ℕ := bs.foldl seriesAfter 0

/-- The delay of the `n`-th backoff in a row, in milliseconds. -/
def nominalMs (n : ℕ) : ℕ := min (backoffBaseMs * 2 ^ (n - 1)) backoffMaxMs

/-- Every backoff has the delay of its place in its series. -/
def Doubling (bs : List Beat) : Prop :=
  ∀ before ms after, bs = before ++ .backoff ms :: after → ms = nominalMs (series before + 1)

variable {bs : List Beat}

theorem series_concat (bs : List Beat) (b : Beat) : series (bs ++ [b]) = seriesAfter (series bs) b := by
  simp [series]

theorem doubling_nil : Doubling [] := by
  intro before ms after h
  simp at h

theorem Doubling.concat {b : Beat} (h : Doubling bs)
    (hb : ∀ ms, b = .backoff ms → ms = nominalMs (series bs + 1)) : Doubling (bs ++ [b]) := by
  intro before ms after heq
  rcases List.eq_nil_or_concat after with rfl | ⟨after', last, rfl⟩
  · obtain ⟨rfl, hcons⟩ := List.append_inj' heq rfl
    cases hcons
    exact hb ms rfl
  · have hsplit : bs ++ [b] = (before ++ .backoff ms :: after') ++ [last] := by simp [heq]
    exact h before ms after' (List.append_inj' hsplit rfl).1

theorem nominalMs_mono {m n : ℕ} (h : m ≤ n) : nominalMs m ≤ nominalMs n :=
  min_le_min_right _ (Nat.mul_le_mul_left _ (Nat.pow_le_pow_right (by decide) (by omega)))

theorem series_le_append (before after : List Beat) (h : .rest ∉ after) :
    series before ≤ series (before ++ after) := by
  induction after using List.reverseRecOn with
  | nil => rw [List.append_nil]
  | append_singleton after b ih =>
    rw [← List.append_assoc, series_concat]
    have hle := ih fun hmem => h (List.mem_append_left _ hmem)
    cases b with
    | rest => exact absurd (by simp) h
    | backoff ms => exact hle.trans (Nat.le_succ _)

/-- **Delays do not decrease within a series.** -/
theorem Doubling.steady (h : Doubling bs) {before between after : List Beat} {ms ms' : ℕ}
    (heq : bs = before ++ .backoff ms :: (between ++ .backoff ms' :: after))
    (hbetween : .rest ∉ between) : ms ≤ ms' := by
  have hsplit : bs = ((before ++ [.backoff ms]) ++ between) ++ .backoff ms' :: after := by
    simp [heq]
  rw [h before ms _ heq, h _ ms' after hsplit]
  refine nominalMs_mono (Nat.succ_le_succ ?_)
  have hle := series_le_append (before ++ [.backoff ms]) between hbetween
  rw [series_concat] at hle
  exact (Nat.le_succ _).trans hle

theorem backoffMs_eq (n : UInt32) : backoffMs n = nominalMs n.toNat := by
  unfold backoffMs nominalMs
  dsimp only
  by_cases h : n.toNat - 1 ≤ 20
  · have hshift : min (min (n.toNat - 1) 31) 20 = n.toNat - 1 := by omega
    rw [hshift]
  · -- six doublings reach the cap
    have hcap (k : ℕ) (hk : 6 ≤ k) : backoffMaxMs ≤ backoffBaseMs * 2 ^ k := by
      have hpow : 2 ^ 6 ≤ 2 ^ k := Nat.pow_le_pow_right (by decide) hk
      simp only [backoffMaxMs, backoffBaseMs]
      omega
    rw [Nat.min_eq_right (hcap _ (by omega)), Nat.min_eq_right (hcap _ (by omega))]

end Core

namespace Connection

/-! ## The beats of a run -/

/-- A backoff armed, or an end: the link stands, or the attempts are over. -/
def beatOf : Action → Option Beat
  | .setTimer .reconnectBackoff millis => some (.backoff millis)
  | .notify .connected | .notify .idle | .failed _ => some .rest
  | _ => none

/-- The beats among the actions. -/
def beats (actions : List Action) : List Beat := actions.filterMap beatOf

/-- A command to connect starts over. -/
def freshStart : Call S → List Beat
  | .poll _ (.command (.connect _)) => [.rest]
  | _ => []

/-- The beats of one call. -/
def beatsOf (e : Entry S) : List Beat := freshStart e.input ++ beats e.output

/-- The beats of a run. -/
def history (run : List (Entry S)) : List Beat := run.flatMap beatsOf

theorem history_concat (past : List (Entry S)) (e : Entry S) :
    history (past ++ [e]) = history past ++ beatsOf e := by
  simp [history]

section Beats

variable (c : Connection S)

@[simp] theorem beats_nil : beats [] = [] := rfl

@[simp] theorem beats_append (actions rest : List Action) :
    beats (actions ++ rest) = beats actions ++ beats rest :=
  List.filterMap_append

@[simp] theorem beats_cons (action : Action) (rest : List Action) :
    beats (action :: rest) = (beatOf action).toList ++ beats rest := by
  rw [beats, List.filterMap_cons]
  cases beatOf action <;> rfl

@[simp] theorem beats_disarm : beats c.disarm.2 = [] := by
  unfold disarm
  cases c.armed <;> rfl

@[simp] theorem beats_leaving (state : State) : beats (c.leaving state) = [] := by
  unfold leaving
  split_ifs <;> simp

@[simp] theorem beats_startScan : beats c.startScan.2 = [] := by
  simp [startScan, beatOf]

@[simp] theorem beats_goIdle : beats c.goIdle.2 = [.rest] := by
  simp [goIdle, beatOf]

@[simp] theorem beats_fail (failure : Failure) : beats (c.fail failure).2 =
    if c.retries failure then [.backoff (backoffMs (c.attempts + 1))] else [.rest] := by
  unfold fail retries backOff giveUp
  rw [andThen_snd, beats_append]
  dsimp only
  split_ifs <;> simp [beatOf]

@[simp] theorem beats_associateWith (target : Target) (session : Session S) :
    beats (c.associateWith target session).2 = [] := by
  simp [associateWith_snd, beatOf]

@[simp] theorem beats_saveProfile : beats c.saveProfile.2 = [] := by
  unfold saveProfile
  split
  · split_ifs
    · rfl
    · split <;> rfl
  · rfl

theorem beats_handshakeAction {c : Connection S} {r : Connection S × List Action}
    {action : FourWay.Action} (h : c.handshakeAction action = some r) : beats r.2 = [] := by
  cases action with
  | send frame => cases h; rfl
  | armTimer ms => cases h; rfl
  | disarmTimer => cases h; exact beats_disarm c
  | newGtk gtk => cases h; rfl
  | complete keys =>
    obtain ⟨install, -, rfl⟩ := Option.map_eq_some_iff.mp h
    rfl

theorem beats_handshakeActions {c : Connection S} {r : Connection S × List Action}
    {actions : List FourWay.Action} (h : c.handshakeActions actions = some r) : beats r.2 = [] := by
  induction actions generalizing c r with
  | nil =>
    cases h
    rfl
  | cons action rest ih =>
    obtain ⟨q, hq, hrest⟩ := Option.bind_eq_some_iff.mp h
    obtain ⟨q', hq', rfl⟩ := (tryThen_eq_some _).mp hrest
    rw [beats_append, beats_handshakeAction hq, ih hq']
    rfl

end Beats

/-! ## One poll -/

/-- What one poll makes of the count, and the beats it has. -/
inductive Stride (n : UInt32) : List Beat → UInt32 → Prop
  | quiet : Stride n [] n
  | rest : Stride n [.rest] 0
  | backoff : Stride n [.backoff (backoffMs (n + 1))] (n + 1)

/-- Nothing is counted in a connection at rest. -/
def IdleAtZero (c : Connection S) : Prop := c.state = .idle → c.attempts = 0

/-- A poll counts its backoffs, and forgets them at rest. -/
structure Strides (c : Connection S) (r : Connection S × List Action) : Prop where
  stride : Stride c.attempts (beats r.2) r.1.attempts
  cleared : r.1.IdleAtZero

variable {c c' : Connection S} {draws : Draws S} {input : Input} {r : Connection S × List Action}
  {session : Session S}

theorem cleared_of_ne (h : c.state ≠ .idle) : c.IdleAtZero := fun hidle => absurd hidle h

theorem strides_quiet (hattempts : r.1.attempts = c.attempts) (hbeats : beats r.2 = [])
    (hcleared : r.1.IdleAtZero) : c.Strides r := by
  refine ⟨?_, hcleared⟩
  rw [hattempts, hbeats]
  exact .quiet

theorem Strides.of (h : c'.Strides r) (hattempts : c'.attempts = c.attempts) : c.Strides r :=
  ⟨hattempts ▸ h.stride, h.cleared⟩

theorem Strides.after {l : List Action} (h : c.Strides r) (hl : beats l = []) :
    c.Strides (r.1, l ++ r.2) := by
  refine ⟨?_, h.cleared⟩
  rw [beats_append, hl]
  exact h.stride

theorem Strides.notify {state : State} {l : List Action} (h : c.Strides r) (hl : beats l = [])
    (hstate : beatOf (.notify state) = none) : c.Strides (r.1, l ++ .notify state :: r.2) := by
  refine ⟨?_, h.cleared⟩
  rw [beats_append, beats_cons, hl, hstate]
  exact h.stride

theorem strides_fail (failure : Failure) (hattempts : c'.attempts = c.attempts) :
    c.Strides (c'.fail failure) := by
  refine Strides.of ⟨?_, ?_⟩ hattempts
  · rw [beats_fail, fail_fst]
    split_ifs
    · exact .backoff
    · exact .rest
  · intro hidle
    rw [fail_fst] at hidle ⊢
    split_ifs at hidle ⊢
    · cases hidle
    · rfl

theorem strides_startScan (hattempts : c'.attempts = c.attempts) : c.Strides c'.startScan := by
  refine strides_quiet ?_ (beats_startScan _) (cleared_of_ne ?_)
  · rw [startScan_fst]
    exact hattempts
  · rw [startScan_fst]
    rintro ⟨⟩

theorem strides_associateWith (target : Target) (hattempts : c'.attempts = c.attempts) :
    c.Strides (c'.associateWith target session) := by
  refine strides_quiet ?_ (beats_associateWith _ _ _) (cleared_of_ne ?_)
  · rw [associateWith_fst]
    exact hattempts
  · rw [associateWith_fst]
    rintro ⟨⟩

theorem strides_configured (hattempts : c'.attempts = c.attempts) : c.Strides c'.configured := by
  refine ⟨?_, cleared_of_ne ?_⟩
  · unfold configured
    split_ifs
    · simp only [andThen_fst, andThen_snd, enter_snd, beats_append, beats_leaving]
      exact .rest
    · simp only [andThen_fst, andThen_snd, enter_fst, enter_snd, beats_append, beats_leaving,
        hattempts]
      exact .quiet
  · rw [configured_state, afterKeys]
    split_ifs <;> rintro ⟨⟩

theorem strides_enter {state : State} (hattempts : c'.attempts = c.attempts)
    (hstate : beatOf (.notify state) = none) : c.Strides (c'.enter state) := by
  refine strides_quiet ?_ ?_ (cleared_of_ne ?_)
  · rw [enter_fst]
    exact hattempts
  · simp [hstate]
  · rw [enter_fst]
    rintro rfl
    cases hstate

/-! ### The handlers -/

theorem strides_saeDriven {event : SaeEvent} (hcleared : c.IdleAtZero) (hd : SaeDriven c event r) :
    c.Strides r := by
  cases hd with
  | off => exact strides_quiet rfl rfl hcleared
  | call target session p q r htarget hsession hauth hq hm =>
    obtain ⟨p', x⟩ := q
    cases hm with
    | wait => exact strides_quiet rfl rfl hcleared
    | send frame request => exact strides_quiet rfl rfl hcleared
    | noBody => exact strides_fail _ rfl
    | fail => exact strides_fail _ rfl
    | done => exact strides_associateWith _ rfl

theorem strides_keyStart {pmk : Pmk} (hk : KeyStart c draws pmk r) : c.Strides r := by
  cases hk with
  | noNonce e => exact strides_fail _ rfl
  | start => exact strides_enter rfl rfl

theorem strides_dot1xDriven {frame : Option Bytes} (hcleared : c.IdleAtZero)
    (hd : Dot1xDriven c draws frame r) : c.Strides r := by
  cases hd with
  | off => exact strides_quiet rfl rfl hcleared
  | call target session provider q r htarget hsession hauth hq hm =>
    obtain ⟨p', x⟩ := q
    cases hm with
    | send => exact strides_quiet rfl rfl hcleared
    | wait => exact strides_quiet rfl rfl hcleared
    | fail => exact strides_fail _ rfl
    | done pmk r hk => exact (strides_keyStart hk).of rfl

theorem strides_handshakeMove {input : FourWay.Input} (hcleared : c.IdleAtZero)
    (hm : HandshakeMove c input r) : c.Strides r := by
  cases hm with
  | off => exact strides_quiet rfl rfl hcleared
  | fail => exact strides_fail _ rfl
  | actions session handshake actions q hsession hhandshake hpoll hactions =>
    obtain ⟨armed, hfst⟩ := handshakeActions_fst hactions
    have hattempts : q.1.attempts = c.attempts := by rw [hfst]; rfl
    refine Strides.after ?_ (beats_handshakeActions hactions)
    split_ifs
    · exact strides_configured hattempts
    · refine strides_quiet hattempts rfl fun hidle => ?_
      rw [hfst] at hidle ⊢
      exact hcleared hidle

theorem strides_planned {bss : Bss} {roaming : Bool} (hcleared : c.IdleAtZero)
    (hp : Planned c draws bss roaming r) : c.Strides r := by
  cases hp with
  | refused => exact strides_fail _ rfl
  | stay => exact strides_quiet rfl rfl hcleared
  | enterprise => exact strides_fail _ rfl
  | prompt => exact strides_quiet rfl (by simp [Connection.prompt, beatOf]) hcleared
  | unstaged => exact strides_fail _ rfl
  | associate => exact strides_associateWith _ rfl
  | sae credential choice p q hchosen hstage hroaming hd =>
    refine ((strides_saeDriven (cleared_of_ne ?_) hd).of ?_).notify (beats_leaving _ _) rfl
    · rw [enter_fst]
      rintro ⟨⟩
    · rw [enter_fst]
      rfl

theorem strides_onLease (hcleared : c.IdleAtZero) (event : LeaseEvent) : c.Strides (c.onLease event) := by
  cases event with
  | acquired lease =>
    have hattempts : (c.onLease (.acquired lease)).1.attempts = 0 := by
      show (saveProfile { (c.enter .connected).1 with attempts := 0 }).1.attempts = 0
      unfold saveProfile
      split
      · split_ifs
        · rfl
        · split <;> rfl
      · rfl
    refine ⟨?_, fun _ => hattempts⟩
    rw [hattempts]
    simp only [onLease, andThen_snd, enter_snd, beats_append, beats_leaving, beats_saveProfile]
    exact .rest
  | lost reason =>
    unfold onLease
    split_ifs
    · refine strides_quiet ?_ ?_ (cleared_of_ne ?_) <;> simp [beatOf]
    · exact strides_quiet rfl rfl hcleared
  | failed => exact strides_fail _ rfl

/-- **Every poll but a command to connect** backs off once more, or starts over, or does neither. -/
theorem strides_move (hcleared : c.IdleAtZero) (hm : Move c draws input r)
    (hinput : ∀ ssid, input ≠ .command (.connect ssid)) : c.Strides r := by
  cases hm with
  | ignore => exact strides_quiet rfl rfl hcleared
  | connect ssid => exact absurd rfl (hinput ssid)
  | autoconnect hidle =>
    exact strides_startScan (hcleared hidle).symm
  | secret => exact strides_quiet rfl rfl hcleared
  | answer value target bss r htarget hpending hplanned =>
    refine (strides_planned ?_ hplanned).of rfl
    exact hcleared
  | disconnect =>
    refine ⟨?_, fun _ => rfl⟩
    rw [andThen_snd, beats_append, beats_goIdle]
    exact .rest
  | noNetwork => exact strides_fail _ rfl
  | selected scan target bssid bss r hst hselection hfind hplanned =>
    refine (strides_planned ?_ hplanned).of rfl
    exact hcleared
  | surveyed => exact strides_quiet rfl rfl hcleared
  | roam scan session target better bss r hst hsession htarget hroam hfind hplanned =>
    exact strides_planned hcleared hplanned
  | eapolKey frame eapol r hl hparse htype hm => exact strides_handshakeMove hcleared hm
  | eapolEap frame eapol r hl hparse htype hd => exact strides_dot1xDriven hcleared hd
  | lease event => exact strides_onLease hcleared event
  | fetch => exact strides_quiet rfl rfl hcleared
  | linkFailed => exact strides_fail _ rfl
  | joinedOpen => exact strides_configured rfl
  | joinedReady bssid session pmk r hst hsession hauth hk => exact (strides_keyStart hk).of rfl
  | joinedDot1x bssid session provider r hst hsession hauth hd =>
    refine ((strides_dot1xDriven (cleared_of_ne ?_) hd).of ?_).notify (beats_leaving _ _) rfl
    · rw [enter_fst]
      rintro ⟨⟩
    · rw [enter_fst]
  | joinedUnstaged => exact strides_fail _ rfl
  | saeFrame frame body r hst hbody hd => exact strides_saeDriven hcleared hd
  | saeTimeout r hst hd => exact strides_saeDriven hcleared hd
  | handshakeRetry r hl hm => exact strides_handshakeMove hcleared hm
  | timedOut => exact strides_fail _ rfl
  | rescan => exact strides_startScan rfl

/-! ## Runs -/

/-- The call arms a backoff timer. -/
def BacksOff (e : Entry S) : Prop := ∃ ms, .backoff ms ∈ beatsOf e

/-- **The law of the backoff.** -/
structure Paced (run : List (Entry S)) : Prop where
  /-- The `n`-th backoff in a row has the `n`-th delay. -/
  delay : ∀ before ms after, history run = before ++ .backoff ms :: after →
    ms = nominalMs (series before + 1)
  /-- No backoff of a series is shorter than an earlier one. -/
  steady : ∀ before ms between ms' after,
    history run = before ++ .backoff ms :: (between ++ .backoff ms' :: after) → .rest ∉ between →
    ms ≤ ms'
  /-- The count of the connection does not overflow. -/
  counts : ∀ e ∈ run, BacksOff e → e.post.attempts.toNat = e.pre.attempts.toNat + 1

/-- The count of the connection is the length of the series. -/
structure Counted (past : List (Entry S)) (c : Connection S) : Prop where
  count : c.attempts.toNat = series (history past)
  doubling : Doubling (history past)
  cleared : c.IdleAtZero

theorem stride_connect (c : Connection S) (draws : Draws S) (ssid : Bytes) :
    Stride c.attempts (beatsOf (Machine.entry step c (.poll draws (.command (.connect ssid)))))
        (c.step (.poll draws (.command (.connect ssid)))).1.attempts ∧
      (c.step (.poll draws (.command (.connect ssid)))).1.IdleAtZero := by
  have hstep : c.step (.poll draws (.command (.connect ssid))) =
      andThen (c, if c.state = .idle then [] else [.disconnect reasonLeaving]) fun c =>
        (c.restart (some (c.aimedAt ssid))).startScan := rfl
  rw [beatsOf, Machine.entry_output, hstep, andThen_fst, andThen_snd, startScan_fst, beats_append,
    beats_startScan]
  refine ⟨?_, fun hidle => (nomatch hidle)⟩
  split_ifs <;> exact .rest

/-- **One call** of a connection that is cleared backs off once more, or starts over, or does neither. -/
theorem stride_step (hcleared : c.IdleAtZero) (call : Call S) :
    Stride c.attempts (beatsOf (Machine.entry step c call)) (c.step call).1.attempts ∧
      (c.step call).1.IdleAtZero := by
  cases call with
  | insertProfile profile => exact ⟨.quiet, hcleared⟩
  | forgetProfile ssid => exact ⟨.quiet, hcleared⟩
  | poll draws input =>
    by_cases hinput : ∀ ssid, input ≠ .command (.connect ssid)
    · have hfresh : freshStart (Call.poll draws input) = [] := by
        unfold freshStart
        split
        · rename_i ssid heq
          cases heq
          exact absurd rfl (hinput ssid)
        · rfl
      rw [beatsOf, Machine.entry_input, Machine.entry_output, hfresh, List.nil_append]
      cases hpoll : c.poll draws input with
      | none =>
        rw [step, hpoll]
        exact ⟨.quiet, hcleared⟩
      | some r =>
        rw [step, hpoll]
        have hstrides := strides_move hcleared (poll_move hpoll) hinput
        exact ⟨hstrides.stride, hstrides.cleared⟩
    · obtain ⟨ssid, hssid⟩ := not_forall_not.mp hinput
      rw [hssid]
      exact stride_connect c draws ssid

/-- A stride that does not overflow counts, and has the delay of the count. -/
theorem Stride.counts {n m : UInt32} {bs past : List Beat} (hs : Stride n bs m)
    (hlimit : (∃ ms, .backoff ms ∈ bs) → n.toNat + 1 < 2 ^ 32) (hn : n.toNat = series past)
    (hpast : Doubling past) :
    m.toNat = series (past ++ bs) ∧ Doubling (past ++ bs) ∧
      ((∃ ms, .backoff ms ∈ bs) → m.toNat = n.toNat + 1) := by
  cases hs with
  | quiet =>
    rw [List.append_nil]
    exact ⟨hn, hpast, fun ⟨ms, hmem⟩ => absurd hmem List.not_mem_nil⟩
  | rest =>
    refine ⟨(series_concat past .rest).symm, hpast.concat fun ms h => (nomatch h), ?_⟩
    rintro ⟨ms, hmem⟩
    cases List.mem_singleton.mp hmem
  | backoff =>
    have hnext : (n + 1).toNat = n.toNat + 1 := by
      have hlt := hlimit ⟨_, List.mem_singleton.mpr rfl⟩
      rw [UInt32.toNat_add]
      exact Nat.mod_eq_of_lt hlt
    refine ⟨?_, hpast.concat fun ms h => ?_, fun _ => hnext⟩
    · rw [hnext, series_concat, hn]
      rfl
    · cases h
      rw [backoffMs_eq, hnext, hn]

theorem Counted.step {past : List (Entry S)} (h : Counted past c) {call : Call S}
    (hlimit : BacksOff (Machine.entry step c call) → c.attempts.toNat + 1 < 2 ^ 32) :
    Counted (past ++ [Machine.entry Connection.step c call]) (c.step call).1 := by
  obtain ⟨hstride, hcleared⟩ := stride_step h.cleared call
  obtain ⟨hcount, hdoubling, -⟩ := hstride.counts hlimit h.count h.doubling
  exact ⟨by rw [history_concat]; exact hcount, by rw [history_concat]; exact hdoubling, hcleared⟩

theorem counted_new (device : Device) (profiles : List Profile) :
    Counted [] (new device profiles : Connection S) :=
  ⟨rfl, doubling_nil, fun _ => rfl⟩

/-- **When a run keeps to its backoff.** In every run each backoff has the delay of its place in its
series, none is shorter than an earlier one of its series, and none makes the count overflow, exactly
when none is armed by a connection whose count has reached 2^32 - 1. -/
theorem paced_iff (device : Device) (profiles : List Profile) (calls : List (Call S)) :
    Paced (Machine.log step (new device profiles) calls) ↔
      ∀ e ∈ Machine.log step (new device profiles) calls,
        BacksOff e → e.pre.attempts.toNat + 1 < 2 ^ 32 := by
  constructor
  · intro hpaced e he hbacks
    rw [← hpaced.counts e he hbacks]
    exact e.post.attempts.toNat_lt
  · intro hlimit
    have halong := Machine.along_iff_forall.mpr hlimit
    have hcounted := Machine.run_induction (counted_new device profiles)
      (fun _ _ _ h hG => h.step hG) calls halong
    have hcounts := Machine.along_of_inv (P := fun _ e =>
        BacksOff e → e.post.attempts.toNat = e.pre.attempts.toNat + 1)
      (counted_new device profiles) (fun _ _ _ h hG => h.step hG)
      (fun _ _ call h hG => ((stride_step h.cleared call).1.counts hG h.count h.doubling).2.2)
      calls halong
    exact ⟨hcounted.doubling, fun _ _ _ _ _ heq => hcounted.doubling.steady heq,
      Machine.along_iff_forall.mp hcounts⟩

/-! ### A series that overflows -/

/-- A saved network that is joined on its own. -/
def sampleAuto : Profile := { Profile.new [110] .open .none with autoconnect := true }

/-- A connection scanning for it, after `n` failures in a row. -/
def sampleWaiting (n : UInt32) : Connection .sample :=
  { new sampleDevice [sampleAuto] with
    state := .scanning, attempts := n, armed := some .scanTimeout
    target := some { ssid := [110], secret := none, retry := true, save := false } }

/-- The scan times out, and so does the backoff, so many times. -/
def sampleTimeouts : ℕ → List (Call .sample)
  | 0 => []
  | n + 1 => .poll .sample (.timer .scanTimeout) :: .poll .sample (.timer .reconnectBackoff) ::
      sampleTimeouts n

theorem step_sampleWaiting (n : UInt32) :
    beatsOf (Machine.entry step (sampleWaiting n) (.poll .sample (.timer .scanTimeout))) =
        [.backoff (backoffMs (n + 1))] ∧
      Machine.exec step (sampleWaiting n) (sampleTimeouts 1) = sampleWaiting (n + 1) :=
  ⟨rfl, rfl⟩

theorem sampleTimeouts_run (n : ℕ) (m : UInt32) (past : List Beat) :
    Machine.exec step (sampleWaiting m) (sampleTimeouts n) = sampleWaiting (m + UInt32.ofNat n) ∧
      series (past ++ history (Machine.log step (sampleWaiting m) (sampleTimeouts n))) =
        series past + n := by
  induction n generalizing m past with
  | zero =>
    refine ⟨by simp [sampleTimeouts, Machine.exec], ?_⟩
    show series (past ++ []) = series past
    rw [List.append_nil]
  | succ n ih =>
    obtain ⟨hexec, hseries⟩ := ih (m + 1) (past ++ [.backoff (backoffMs (m + 1))])
    have hsplit : sampleTimeouts (n + 1) = sampleTimeouts 1 ++ sampleTimeouts n := rfl
    have hone : history (Machine.log step (sampleWaiting m) (sampleTimeouts 1)) =
        [.backoff (backoffMs (m + 1))] := rfl
    rw [hsplit, Machine.exec_append, Machine.log_append, (step_sampleWaiting m).2, hexec]
    refine ⟨?_, ?_⟩
    · rw [UInt32.ofNat_add, UInt32.add_assoc, UInt32.add_comm (UInt32.ofNat n)]
      rfl
    · rw [history, List.flatMap_append, ← List.append_assoc]
      change series (past ++ history (Machine.log step (sampleWaiting m) (sampleTimeouts 1)) ++
        history _) = _
      rw [hone, hseries, series_concat]
      show series past + 1 + n = series past + (n + 1)
      omega

/-- The network is asked for, and is not there for so many scans. -/
def sampleAbsent (n : ℕ) : List (Call .sample) :=
  .poll .sample (.command (.connect [110])) :: sampleTimeouts n

theorem sampleAbsent_run (n : ℕ) :
    Machine.exec step (new sampleDevice [sampleAuto]) (sampleAbsent n) =
        sampleWaiting (UInt32.ofNat n) ∧
      series (history (Machine.log step (new sampleDevice [sampleAuto]) (sampleAbsent n))) = n := by
  have hstep : (step (new sampleDevice [sampleAuto])
      (.poll .sample (.command (.connect [110])))).1 = sampleWaiting 0 := rfl
  have hrest : beatsOf (Machine.entry step (new sampleDevice [sampleAuto])
      (.poll .sample (.command (.connect [110])))) = [.rest] := rfl
  obtain ⟨hexec, hseries⟩ := sampleTimeouts_run n 0 [.rest]
  rw [sampleAbsent, Machine.exec, Machine.log, hstep, hexec, history, List.flatMap_cons, hrest]
  exact ⟨by rw [UInt32.zero_add], hseries.trans (Nat.zero_add n)⟩

/-- **The 2^32-th failure in a row** waits one second, as the first one does, and not a minute. -/
theorem backoff_overflows :
    series (history (Machine.log step (new sampleDevice [sampleAuto])
        (sampleAbsent (2 ^ 32 - 1)))) = 2 ^ 32 - 1 ∧
      nominalMs (2 ^ 32) = 60000 ∧
      beatsOf (Machine.entry step
        (Machine.exec step (new sampleDevice [sampleAuto]) (sampleAbsent (2 ^ 32 - 1)))
        (.poll .sample (.timer .scanTimeout))) = [.backoff 1000] ∧
      ¬ Paced (Machine.log step (new sampleDevice [sampleAuto])
        (sampleAbsent (2 ^ 32 - 1) ++ [.poll .sample (.timer .scanTimeout)])) := by
  obtain ⟨hexec, hseries⟩ := sampleAbsent_run (2 ^ 32 - 1)
  have hwrap : UInt32.ofNat (2 ^ 32 - 1) + 1 = 0 := by decide
  have hdelay : nominalMs (2 ^ 32) = 60000 := by
    unfold nominalMs
    rw [Nat.min_eq_right]
    · rfl
    · have hpow : 2 ^ 6 ≤ 2 ^ (2 ^ 32 - 1) := Nat.pow_le_pow_right (by decide) (by decide)
      exact (show backoffMaxMs ≤ backoffBaseMs * 2 ^ 6 by decide).trans (Nat.mul_le_mul_left _ hpow)
  have hbeats : beatsOf (Machine.entry step
      (Machine.exec step (new sampleDevice [sampleAuto]) (sampleAbsent (2 ^ 32 - 1)))
      (.poll .sample (.timer .scanTimeout))) = [.backoff 1000] := by
    rw [hexec, (step_sampleWaiting _).1, hwrap]
    rfl
  refine ⟨hseries, hdelay, hbeats, fun hpaced => ?_⟩
  have hlast := hpaced.delay
    (history (Machine.log step (new sampleDevice [sampleAuto]) (sampleAbsent (2 ^ 32 - 1)))) 1000 []
    (by rw [Machine.log_concat, history_concat, hbeats])
  rw [hseries, show 2 ^ 32 - 1 + 1 = 2 ^ 32 from rfl, hdelay] at hlast
  cases hlast

end Connection

end Caw
