import Caw.Core.Common
import Caw.Daemon.Abort
import Caw.Daemon.Lease

/-!
# How a feed ends

The engine bounds the turns of a feed. The bound is never met: only a scan that ends brings the core
another input, and what the core makes of that one brings none.

* `Fetchless`, **`fetchless_move`**: only the end of a scan has results fetched;
* `Feeds`: a feed without a bound, and the inputs the core takes in it;
* **`feeds_run`**, **`feed_settles`**: with two turns or more the bounded feed is the one without a
  bound, and its queue is empty at the end.
-/

set_option autoImplicit false

namespace Caw

open Caw.Core

/-! ## What has results fetched -/

namespace Connection

variable {S : Platform} {c : Connection S} {draws : Draws S} {input : Input}
  {r : Connection S × List Action}

/-- No scan results are fetched. -/
def Fetchless (actions : List Action) : Prop := ∀ ifindex, .fetchScanResults ifindex ∉ actions

theorem Common.fetchless {actions : List Action} (h : Common actions) : Fetchless actions :=
  fun _ hmem => h _ hmem

theorem fetchless_handshakeMove {event : FourWay.Input} (hm : HandshakeMove c event r) :
    Fetchless r.2 := by
  cases hm with
  | off => exact common_nil.fetchless
  | fail => exact (common_fail _ _).fetchless
  | actions session handshake actions q hsession hhandshake hpoll hactions =>
    intro ifindex hmem
    rw [andThen_snd] at hmem
    rcases List.mem_append.mp hmem with hmem | hmem
    · exact keying_handshakeActions hactions _ hmem
    · split_ifs at hmem
      · exact common_configured _ _ hmem
      · cases hmem

/-- **Only the end of a scan has results fetched**, and then nothing else is asked for. -/
theorem fetchless_move (hm : Move c draws input r) :
    Fetchless r.2 ∨ ∃ wiphy ifindex, input = .wireless (.scanComplete wiphy ifindex) ∧
      r.2 = [.fetchScanResults c.device.ifindex] := by
  rcases common_move hm with hcommon | hfetch | ⟨frame, -, -, hm⟩ | ⟨-, -, hm⟩
  · exact .inl hcommon.fetchless
  · exact .inr hfetch
  · exact .inl (fetchless_handshakeMove hm)
  · exact .inl (fetchless_handshakeMove hm)

end Connection

namespace Daemon

open Effect

variable {S : Platform} {E : System S}

/-! ## A feed without a bound -/

/-- No action in front of another one brings an input. -/
def Barren (actions : List Core.Action) (d : Daemon S E) : Prop :=
  ∀ before action after next d', actions = before ++ action :: after →
    Runs (performAll before) d (.ok next) d' → next = []

/-- The core takes the inputs of a queue and whatever they bring until there are no more. An action that
fails ends this as well, and drops no input. -/
inductive Feeds : List Input → Daemon S E → List Input → Daemon S E → Prop where
  | settled (d : Daemon S E) : Feeds [] d [] d
  | turn {input : Input} {queue next taken : List Input} {d d₁ d' : Daemon S E} {core : Connection S}
      {q : Connection S × List Core.Action} : d.core = some core →
      core.poll (E.draw d.world).1 input = some q →
      Runs (performAll q.2) (d.polled q.1 input) (.ok next) d₁ →
      Feeds (queue ++ next) d₁ taken d' → Feeds (input :: queue) d (input :: taken) d'
  | aborted {input : Input} {d d₁ d' : Daemon S E} {core : Connection S}
      {q : Connection S × List Core.Action} {e : String} : d.core = some core →
      core.poll (E.draw d.world).1 input = some q →
      Runs (performAll q.2) (d.polled q.1 input) (.error e) d₁ → Barren q.2 (d.polled q.1 input) →
      Runs (abort e) d₁ (.ok ()) d' → Feeds [input] d [input] d'

variable {d d' d₁ : Daemon S E} {input : Input} {queue next : List Input} {r : Except String Unit}
  {turns : ℕ}

theorem runs_turn_iff {core : Connection S} {q : Connection S × List Core.Action}
    (hcore : d.core = some core) (hpoll : core.poll (E.draw d.world).1 input = some q) :
    Runs (feedTurns (turns + 1) (input :: queue)) d r d' ↔
      Runs (carryOut turns queue q.2) (d.polled q.1 input) r d' := by
  refine ⟨runs_turn hcore hpoll, fun h => ?_⟩
  rw [feedTurns_cons_eq, runs_get_bind, hcore]
  refine runs_bind.mpr (.inl ⟨q.2, d.polled q.1 input, ?_, h⟩)
  rw [pollCore, draw, runs_modifyGet_bind, hpoll]
  exact runs_modify_bind.mpr (runs_pure.mpr ⟨rfl, rfl⟩)

/-- **A feed without a bound is a bounded one** that has as many turns as the core takes inputs. -/
theorem feeds_run {taken : List Input} (h : Feeds queue d taken d')
    (hturns : taken.length ≤ turns) : Runs (feedTurns turns queue) d (.ok ()) d' := by
  induction h generalizing turns with
  | settled =>
    cases turns <;> exact runs_pure.mpr ⟨rfl, rfl⟩
  | turn hcore hpoll hperform hrest ih =>
    obtain ⟨n, rfl⟩ : ∃ n, turns = n + 1 := ⟨turns - 1, by simp at hturns; omega⟩
    rw [runs_turn_iff hcore hpoll]
    exact runs_attempt_bind.mpr ⟨_, _, hperform, ih (Nat.le_of_succ_le_succ hturns)⟩
  | aborted hcore hpoll hperform hbarren habort =>
    obtain ⟨n, rfl⟩ : ∃ n, turns = n + 1 := ⟨turns - 1, by simp at hturns; omega⟩
    rw [runs_turn_iff hcore hpoll]
    exact runs_attempt_bind.mpr ⟨_, _, hperform, habort⟩

/-! ## What brings nothing more -/

theorem brings_nothing {actions : List Core.Action} (hfetchless : Connection.Fetchless actions)
    (h : Runs (performAll actions) d (.ok next) d') : next = [] := by
  refine List.eq_nil_iff_forall_not_mem.mpr fun input hinput => ?_
  obtain ⟨-, ifindex, hmem⟩ := brings_performAll _ _ _ _ h input hinput
  exact hfetchless ifindex hmem

/-- What one poll asks for brings an input with the last action at most. -/
theorem barren_poll {core : Connection S} {q : Connection S × List Core.Action} {draws : Draws S}
    (hpoll : core.poll draws input = some q) (d : Daemon S E) : Barren q.2 d := by
  intro before action after next d' heq hbefore
  rcases Connection.fetchless_move (Connection.poll_move hpoll) with hnone | ⟨-, -, -, hone⟩
  · refine brings_nothing (fun ifindex hmem => hnone ifindex ?_) hbefore
    rw [heq]
    exact List.mem_append_left _ hmem
  · have hempty : before = [] := by
      refine List.eq_nil_of_length_eq_zero ?_
      have hlength := congrArg List.length (heq.symm.trans hone)
      simp only [List.length_append, List.length_cons, List.length_nil] at hlength
      omega
    rw [hempty] at hbefore
    exact (Except.ok.inj (runs_pure.mp hbefore).1)

theorem brings_scan {ifindex : UInt32}
    (h : Runs (performAll [.fetchScanResults ifindex]) d (.ok next) d') :
    ∃ scan, next = [.scanResults scan] := by
  rcases runs_bind.mp h with ⟨first, d₁, hfirst, hrest⟩ | ⟨e, -, hr⟩
  · rcases runs_bind.mp hrest with ⟨others, d₂, hothers, hpure⟩ | ⟨e, -, hr⟩
    · obtain ⟨hr, -⟩ := runs_pure.mp hpure
      obtain ⟨hothers, -⟩ := runs_pure.mp hothers
      cases hr
      cases hothers
      rcases runs_bind.mp (runs_modify_bind.mp hfirst) with ⟨input, d₃, hfetch, hsome⟩ | ⟨e, -, hr⟩
      · obtain ⟨hsome, -⟩ := runs_pure.mp hsome
        cases hsome
        obtain ⟨scan, rfl⟩ := yields_fetchScanResults ifindex _ _ _ hfetch
        exact ⟨scan, rfl⟩
      · cases hr
    · cases hr
  · cases hr

theorem runs_turn_cases {core : Connection S} (hcore : d.core = some core)
    (h : Runs (feedTurns (turns + 1) [input]) d r d') :
    (r = .ok () ∧ Feeds [input] d [input] d') ∨ ∃ q next d₁,
      core.poll (E.draw d.world).1 input = some q ∧
      Runs (performAll q.2) (d.polled q.1 input) (.ok next) d₁ ∧ Runs (feedTurns turns next) d₁ r d' := by
  obtain ⟨q, hpoll⟩ : ∃ q, core.poll (E.draw d.world).1 input = some q := by
    rw [feedTurns_cons_eq, runs_get_bind, hcore] at h
    rcases runs_bind.mp h with ⟨actions, d₁, hrun, -⟩ | ⟨e, hrun, -⟩ <;>
      obtain ⟨q, hq, -⟩ := runs_pollCore hrun <;> exact ⟨q, hq⟩
  obtain ⟨x, d₁, hperform, hrest⟩ := runs_attempt_bind.mp (runs_turn hcore hpoll h)
  cases x with
  | ok next => exact .inr ⟨q, next, d₁, hpoll, hperform, hrest⟩
  | error e =>
    cases r with
    | error e' => exact absurd hrest (total_abort e _ _ _)
    | ok => exact .inl ⟨rfl, .aborted hcore hpoll hperform (barren_poll hpoll _) hrest⟩

theorem runs_feedTurns_nil (h : Runs (feedTurns turns []) d r d') : r = .ok () ∧ d' = d := by
  cases turns <;> exact runs_pure.mp h

/-- **An input that brings nothing is the last.** -/
theorem feeds_last {core : Connection S} (hcore : d.core = some core)
    (hinput : ∀ wiphy ifindex, input ≠ .wireless (.scanComplete wiphy ifindex))
    (h : Runs (feedTurns (turns + 1) [input]) d r d') : r = .ok () ∧ Feeds [input] d [input] d' := by
  rcases runs_turn_cases hcore h with haborted | ⟨q, next, d₁, hpoll, hperform, hrest⟩
  · exact haborted
  · rcases Connection.fetchless_move (Connection.poll_move hpoll) with hnone | ⟨w, i, heq, -⟩
    · obtain rfl := brings_nothing hnone hperform
      obtain ⟨hr, rfl⟩ := runs_feedTurns_nil hrest
      exact ⟨hr, .turn hcore hpoll hperform (.settled _)⟩
    · exact absurd heq (hinput w i)

/-- **Two turns are enough.** -/
theorem runs_two_turns (h : Runs (feedTurns (turns + 2) [input]) d r d') :
    r = .ok () ∧ ((d.core = none ∧ d' = d) ∨
      ∃ taken, Feeds [input] d taken d' ∧ taken.length ≤ 2) := by
  cases hcore : d.core with
  | none =>
    rw [feedTurns_cons_eq, runs_get_bind, hcore] at h
    obtain ⟨hr, hd⟩ := runs_pure.mp h
    exact ⟨hr, .inl ⟨rfl, hd⟩⟩
  | some core =>
    rcases runs_turn_cases hcore h with ⟨hr, hfeeds⟩ | ⟨q, next, d₁, hpoll, hperform, hrest⟩
    · exact ⟨hr, .inr ⟨_, hfeeds, Nat.le_succ 1⟩⟩
    · rcases Connection.fetchless_move (Connection.poll_move hpoll) with hnone | ⟨w, i, heq, hone⟩
      · obtain rfl := brings_nothing hnone hperform
        obtain ⟨hr, rfl⟩ := runs_feedTurns_nil hrest
        exact ⟨hr, .inr ⟨_, .turn hcore hpoll hperform (.settled _), Nat.le_succ 1⟩⟩
      · have hfetch := hperform
        rw [hone] at hfetch
        obtain ⟨scan, rfl⟩ := brings_scan hfetch
        -- the core is still there to take the scan
        obtain ⟨core', hcore', -⟩ := (kin_performAll q.2 _ _ _ hperform).core rfl
        obtain ⟨hr, hfeeds⟩ := feeds_last hcore' (by rintro _ _ ⟨⟩) hrest
        exact ⟨hr, .inr ⟨_, .turn hcore hpoll hperform hfeeds, Nat.le_refl 2⟩⟩

/-- **How a feed ends.** With two turns or more, whatever the state of the core, the input and the
answers of the system, a feed empties its queue after the core has taken two inputs at most, or stops
at an action that fails with the queue empty; the bound on its turns makes no difference. -/
theorem feed_settles (d : Daemon S E) (input : Input) (r : Except String Unit) (d' : Daemon S E) :
    (Runs (feed input) d r d' ↔ r = .ok () ∧ ((d.core = none ∧ d' = d) ∨
      ∃ taken, Feeds [input] d taken d' ∧ taken.length ≤ 2)) ∧
    ∀ turns, Runs (feedTurns (turns + 2) [input]) d r d' ↔ Runs (feed input) d r d' := by
  have hturns (turns : ℕ) : Runs (feedTurns (turns + 2) [input]) d r d' ↔
      r = .ok () ∧ ((d.core = none ∧ d' = d) ∨
        ∃ taken, Feeds [input] d taken d' ∧ taken.length ≤ 2) := by
    refine ⟨runs_two_turns, ?_⟩
    rintro ⟨rfl, ⟨hcore, rfl⟩ | ⟨taken, hfeeds, hlength⟩⟩
    · rw [feedTurns_cons_eq, runs_get_bind, hcore]
      exact runs_pure.mpr ⟨rfl, rfl⟩
    · exact feeds_run hfeeds (by omega)
  exact ⟨hturns 30, fun turns => (hturns turns).trans (hturns 30).symm⟩

end Daemon

end Caw
