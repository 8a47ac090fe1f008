import Caw.Daemon.Lease
import Caw.Daemon.Responses

/-!
# The deadlines due at one wake-up

The reactor takes every key that is due out of its timers and then runs their handlers, one after the
other, whatever the earlier ones do to the later.

* `Timers.Distinct`, `Distinct.apply`: a key is armed once at most, whatever is done;
* `Handlers`, `Firing`, `fire`, `onWake`: handlers of any behaviour, run as the reactor runs them;
* `Serves`: every handler runs in its turn, once, and for an arming that still stands;
* `Apart`: no handler touches a key that has its turn after it;
* **`serves_iff`**: the one is the case exactly when the other is;
* `Alters`, `Reactor.handlers`, **`Reactor.runs_onTimer`**: the reactor is such handlers, run so;
* **`Reactor.serves_run`**: and at every wake-up of a run they serve what is due under that condition.
-/

set_option autoImplicit false

namespace Caw

open Caw.Core

namespace Daemon

namespace Timers

/-- Every key is armed once at most. -/
def Distinct (t : Timers) : Prop := (t.entries.map Prod.fst).Nodup

instance (t : Timers) : Decidable t.Distinct := inferInstanceAs (Decidable (List.Nodup _))

variable {t : Timers}

theorem Distinct.sublist {entries : List (Key × ℕ)} (h : t.Distinct)
    (hsub : entries.Sublist t.entries) : Distinct ⟨entries⟩ := (hsub.map Prod.fst).nodup h

/-- **An arming replaces the one before it.** -/
theorem Distinct.arm (h : t.Distinct) (key : Key) (delay now : ℕ) :
    (t.arm key delay now).Distinct := by
  unfold Timers.arm
  split_ifs with hany
  · have hkeys : (t.entries.map fun e => if e.1 = key then (key, now + delay) else e).map Prod.fst =
        t.entries.map Prod.fst := by
      rw [List.map_map]
      refine List.map_congr_left fun e _ => ?_
      by_cases he : e.1 = key
      · simp [he]
      · simp [he]
    rw [Distinct, hkeys]
    exact h
  · rw [Distinct, List.map_append, List.nodup_append]
    refine ⟨h, List.nodup_singleton _, fun a ha b hb heq => hany ?_⟩
    obtain ⟨e, he, rfl⟩ := List.mem_map.mp ha
    rw [List.map_singleton, List.mem_singleton] at hb
    exact List.any_eq_true.mpr ⟨e, he, decide_eq_true (heq.trans hb)⟩

theorem Distinct.apply (h : t.Distinct) (change : Change) : (t.apply change).Distinct := by
  cases change with
  | arm key delay now => exact h.arm key delay now
  | cancel key => exact h.sublist List.filter_sublist
  | cancelIf matching => exact h.sublist List.filter_sublist

theorem Distinct.unexpired (h : t.Distinct) (now : ℕ) : (t.unexpired now).Distinct :=
  h.sublist List.filter_sublist

theorem applyAll_append (changes rest : List Change) :
    t.applyAll (changes ++ rest) = (t.applyAll changes).applyAll rest := List.foldl_append

end Timers

open Timers (Change Distinct)

/-! ## Handlers -/

/-- What the handler of a key does: anything, as the timers and the rest of the world have it. -/
abbrev Handlers (W : Type) : Type := Key → Timers → W → List Change × W

/-- A handler that was run: what had been done to the timers since the wake-up, and what it did. -/
structure Firing where
  key : Key
  past : List Change
  changes : List Change

section Batch

variable {W : Type} (H : Handlers W)

/-- The handlers of a list of keys, run one after the other. -/
def fire : List Key → List Change → Timers → W → List Firing × Timers × W
  | [], _, t, w => ([], t, w)
  | key :: rest, past, t, w =>
    let (changes, w') := H key t w
    let (fired, t', w'') := fire rest (past ++ changes) (t.applyAll changes) w'
    (⟨key, past, changes⟩ :: fired, t', w'')

/-- Everything due at an instant. -/
def onWake (now : ℕ) (t : Timers) (w : W) : List Firing × Timers × W :=
  fire H (t.expired now) [] (t.unexpired now) w

/-- Every handler runs in its turn, once, and for an arming that is due and still stands. -/
structure Serves (now : ℕ) (t : Timers) (fired : List Firing) : Prop where
  live : ∀ f ∈ fired, ∃ due ≤ now, (f.key, due) ∈ t.entries ∧
    ∀ change ∈ f.past, change.touches f.key = false
  ordered : fired.Pairwise fun f f' => ∀ due due', (f.key, due) ∈ t.entries →
    (f'.key, due') ∈ t.entries → due ≤ due'
  once : (fired.map Firing.key).Nodup
  complete : ∀ key due, due ≤ now → (key, due) ∈ t.entries →
    key ∈ fired.map Firing.key ∨ ∃ f ∈ fired, ∃ change ∈ f.changes, change.touches key = true

/-- No handler touches a key that has its turn after it. -/
def Apart : List Key → Timers → W → Prop
  | [], _, _ => True
  | key :: rest, t, w => (∀ later ∈ rest, ∀ change ∈ (H key t w).1, change.touches later = false) ∧
    Apart rest (t.applyAll (H key t w).1) (H key t w).2

theorem fire_keys (keys : List Key) (past : List Change) (t : Timers) (w : W) :
    (fire H keys past t w).1.map Firing.key = keys := by
  induction keys generalizing past t w with
  | nil => rfl
  | cons key rest ih => rw [fire, List.map_cons, ih]

/-- **One key after the other**: what the earlier handlers did leaves the later keys alone. -/
theorem fire_untouched_iff (keys : List Key) (past : List Change) (t : Timers) (w : W) :
    (∀ f ∈ (fire H keys past t w).1, ∀ change ∈ f.past, change.touches f.key = false) ↔
      (∀ key ∈ keys, ∀ change ∈ past, change.touches key = false) ∧ Apart H keys t w := by
  induction keys generalizing past t w with
  | nil => simp [fire, Apart]
  | cons key rest ih =>
    rw [fire, List.forall_mem_cons, ih, List.forall_mem_cons, Apart]
    constructor
    · rintro ⟨hkey, hrest, hapart⟩
      exact ⟨⟨hkey, fun later hlater change hc => hrest later hlater change (by simp [hc])⟩,
        fun later hlater change hc => hrest later hlater change (by simp [hc]), hapart⟩
    · rintro ⟨⟨hkey, hpast⟩, hnow, hapart⟩
      refine ⟨hkey, fun later hlater change hc => ?_, hapart⟩
      rcases List.mem_append.mp hc with hc | hc
      · exact hpast later hlater change hc
      · exact hnow later hlater change hc

variable {now : ℕ} {t : Timers}

theorem Timers.Distinct.due_eq (h : t.Distinct) {key : Key} {due due' : ℕ}
    (hdue : (key, due) ∈ t.entries) (hdue' : (key, due') ∈ t.entries) : due = due' :=
  congrArg Prod.snd (List.inj_on_of_nodup_map h hdue hdue' rfl)

theorem Timers.Distinct.nodup_expired (h : t.Distinct) : (t.expired now).Nodup :=
  ((List.perm_insertionSort _ _).map Prod.fst).nodup_iff.mpr
    ((List.filter_sublist.map Prod.fst).nodup h)

/-- **Soonest first.** -/
theorem Timers.Distinct.ordered_expired (h : t.Distinct) : (t.expired now).Pairwise fun key key' =>
    ∀ due due', (key, due) ∈ t.entries → (key', due') ∈ t.entries → due ≤ due' := by
  rw [Timers.expired, List.pairwise_map]
  have hsorted := List.pairwise_insertionSort (fun a b : Key × ℕ => a.2 ≤ b.2)
    (t.entries.filter fun e => e.2 ≤ now)
  refine hsorted.imp_of_mem fun {a b} ha hb hle due due' hdue hdue' => ?_
  have hmem {e : Key × ℕ} (he : e ∈ (t.entries.filter fun e => e.2 ≤ now).insertionSort
      fun a b => a.2 ≤ b.2) : (e.1, e.2) ∈ t.entries :=
    (List.mem_filter.mp ((List.perm_insertionSort _ _).mem_iff.mp he)).1
  rw [h.due_eq hdue (hmem ha), h.due_eq hdue' (hmem hb)]
  exact hle

/-- **What is due at a wake-up is served** exactly when no handler touches a key that is due with it
and has its turn later. -/
theorem serves_iff (h : t.Distinct) (w : W) : Serves now t (onWake H now t w).1 ↔
    Apart H (t.expired now) (t.unexpired now) w := by
  have hkeys : (onWake H now t w).1.map Firing.key = t.expired now := fire_keys ..
  have huntouched := fire_untouched_iff H (t.expired now) [] (t.unexpired now) w
  constructor
  · intro hserves
    refine (huntouched.mp fun f hf => ?_).2
    obtain ⟨-, -, -, hf⟩ := hserves.live f hf
    exact hf
  · intro hapart
    have hpast := huntouched.mpr ⟨fun _ _ => nofun, hapart⟩
    refine ⟨fun f hf => ?_, ?_, ?_, fun key due hdue hmem => ?_⟩
    · have hkey : f.key ∈ t.expired now := hkeys ▸ List.mem_map_of_mem hf
      obtain ⟨due, hdue, hmem⟩ := t.mem_expired.mp hkey
      exact ⟨due, hdue, hmem, hpast f hf⟩
    · exact List.pairwise_map.mp (hkeys.symm ▸ h.ordered_expired)
    · rw [hkeys]
      exact h.nodup_expired
    · rw [hkeys]
      exact Or.inl (t.mem_expired.mpr ⟨due, hdue, hmem⟩)

end Batch

/-! ## The reactor -/

open Effect

variable {S : Platform} {E : System S}

/-- A list of changes leads from the timers of the one to those of the other. -/
def Alters (d d' : Daemon S E) : Prop := ∃ changes, d'.timers = d.timers.applyAll changes

theorem alters_same {d d' : Daemon S E} (h : d'.timers = d.timers) : Alters d d' := ⟨[], h⟩

instance : IsPreorder (Daemon S E) Alters where
  refl _ := alters_same rfl
  trans := by
    rintro d d₁ d₂ ⟨changes, h⟩ ⟨rest, hrest⟩
    exact ⟨changes ++ rest, by rw [Timers.applyAll_append, ← h, hrest]⟩

theorem admits_alters : Admits (Alters : Daemon S E → Daemon S E → Prop) where
  calls _ _ := alters_same rfl
  timers _ _ hsparing := hsparing.changed.imp' (fun change => [change]) fun _ => id
  routes _ _ _ := alters_same rfl
  dhcp _ _ := alters_same rfl
  eapol _ _ := alters_same rfl
  profiles _ _ := alters_same rfl

theorem speaks_alters : Speaks (Alters : Daemon S E → Daemon S E → Prop) where
  sends _ _ _ := alters_same rfl
  unwatched _ := alters_same rfl
  prompts _ _ _ := alters_same rfl

/-- **Everything the engine does** to its timers is a list of changes. -/
theorem spans_alters : Spans (fun _ => True) (Alters : Daemon S E → Daemon S E → Prop) where
  toAdmits := admits_alters
  polls _ _ _ _ _ _ := alters_same rfl
  performs action := admits_alters.perform_of_speaks speaks_alters fun _ => alters_same rfl
  tells := speaks_alters.tellFailed
  builds _ _ _ := alters_same rfl
  removes _ := alters_same rfl
  supersedes client _ reason d x d' h := by
    rw [(runs_supersede h).2]
    refine alters_same ?_
    unfold afterSupersede
    split
    · rfl
    · split_ifs <;> rfl
  takes _ := alters_same rfl

end Daemon

namespace Reactor

open Daemon Effect
open Timers (Change)

variable {S : Platform} {E : System S} {r r' : Reactor S E} {x : Except String Unit}

/-- **A property of the timers that every change keeps** is an invariant of the loop. -/
theorem hosted_timers {J : Timers → Prop} (hJ : ∀ t change, J t → J (t.apply change)) :
    Hosted (S := S) (E := E) (fun _ => True) (fun _ => True) (fun (_ : Unit) d => J d.timers)
      fun r => J r.engine.timers := by
  have hall (t : Timers) (changes : List Change) (h : J t) : J (t.applyAll changes) := by
    induction changes generalizing t with
    | nil => exact h
    | cons change rest ih => exact ih _ (hJ t change h)
  have hkeeps : ∀ d d' : Daemon S E, Alters d d' → J d.timers → J d'.timers := by
    rintro d d' ⟨changes, h⟩ hd
    rw [h]
    exact hall _ changes hd
  have hengine {α : Type} {m : EngineM S E α} (hm : Keeps (Keeping fun d => J d.timers) m) :
      Keeps (Keeping fun r => J r.engine.timers) (withEngine m) :=
    keeps_zoom hm fun _ _ h hr => h hr
  exact
    { upheld := fun _ => spans_alters.upheld hkeeps
      admits := fun _ => spans_alters.admits_keeping hkeeps
      lease := fun _ _ => (spans_alters.feed _).mono hkeeps
      engine := fun _ hm => hengine (hm ())
      fields := fun _ _ hsame _ _ _ hr => hsame ▸ hr
      reply := fun _ _ _ => hengine (keeps_modify fun _ => id)
      opens := fun _ _ _ => keeps_bind (keeps_modify fun _ => id) fun _ =>
        hengine (keeps_modify fun d => hJ d.timers (.arm _ _ _))
      finish := fun _ _ _ => keeps_bind (keeps_modify fun _ => id) fun _ =>
        keeps_bind (hengine (keeps_modify fun d => hJ d.timers (.cancel _))) fun _ =>
          hengine (keeps_modify fun _ => id) }

/-- **What the handler of a key does to the timers** is a list of changes. -/
theorem onKey_alters {key : Key} (h : Runs (onKey key) r x r') :
    ∃ changes, r'.engine.timers = r.engine.timers.applyAll changes := by
  refine (hosted_timers (J := fun t => ∃ changes, t = r.engine.timers.applyAll changes) ?_).onKey
    (fun _ _ => trivial) _ _ _ h ⟨[], rfl⟩
  rintro t change ⟨changes, rfl⟩
  exact ⟨changes ++ [change], (Timers.applyAll_append changes [change]).symm⟩

/-- The loop with other timers. -/
def withTimers (r : Reactor S E) (t : Timers) : Reactor S E :=
  { r with engine := { r.engine with timers := t } }

/-- The handlers of the loop: what they make of the loop, and changes that make of the timers what
they make of them. -/
noncomputable def handlers : Handlers (Reactor S E) := fun key t r =>
  match (onKey key).run.run (r.withTimers t) with
  | some (_, r') => (Classical.epsilon fun changes => r'.engine.timers = t.applyAll changes, r')
  | none => ([], r)

theorem handlers_of_runs {key : Key} {t : Timers} (h : Runs (onKey key) (r.withTimers t) x r') :
    t.applyAll (handlers key t r).1 = r'.engine.timers ∧ (handlers key t r).2 = r' := by
  have hrun : (onKey key).run.run (r.withTimers t) = some (x, r') := h
  rw [handlers, hrun]
  exact ⟨(Classical.epsilon_spec (onKey_alters h)).symm, rfl⟩

/-- **The reactor runs the handlers of a list of keys one after the other.** -/
theorem runs_onKeys {keys : List Key} (past : List Change) {t : Timers}
    (h : Runs (onKeys keys) (r.withTimers t) x r') :
    x = .ok () ∧ (fire handlers keys past t r).2.1 = r'.engine.timers ∧
      (fire handlers keys past t r).2.2.withTimers r'.engine.timers = r' := by
  induction keys generalizing past t r with
  | nil =>
    obtain ⟨rfl, rfl⟩ := runs_pure.mp h
    exact ⟨rfl, rfl, rfl⟩
  | cons key rest ih =>
    rcases runs_bind.mp h with ⟨_, r₁, hkey, hrest⟩ | ⟨e, hkey, -⟩
    · obtain ⟨htimers, hr₁⟩ := handlers_of_runs hkey
      rw [fire]
      dsimp only
      rw [htimers, hr₁]
      exact ih _ hrest
    · exact absurd hkey (total_onKey key _ _ _)

/-- **A wake-up of the reactor** is one of its handlers. -/
theorem runs_onTimer (h : Runs onTimer r x r') :
    let woken := onWake handlers r.engine.now r.engine.timers r
    x = .ok () ∧ woken.2.1 = r'.engine.timers ∧ woken.2.2.withTimers woken.2.1 = r' := by
  rw [onTimer, runs_get_bind] at h
  rcases runs_bind.mp h with ⟨_, r₁, hexpire, hkeys⟩ | ⟨e, hexpire, -⟩
  · obtain ⟨d, hd, rfl⟩ := runs_zoom.mp hexpire
    obtain ⟨-, rfl⟩ := runs_modify.mp hd
    obtain ⟨hx, htimers, hloop⟩ := runs_onKeys [] (r := r)
      (t := r.engine.timers.unexpired r.engine.now) hkeys
    exact ⟨hx, htimers, by rw [onWake, htimers]; exact hloop⟩
  · obtain ⟨d, hd, -⟩ := runs_zoom.mp hexpire
    cases (runs_modify.mp hd).1

theorem distinct_forgotten (h : r.engine.timers.Distinct) (clients : List ClientId) :
    (clients.foldl forgotten r).engine.timers.Distinct := by
  induction clients generalizing r with
  | nil => exact h
  | cons client rest ih => exact ih (h.apply (.cancel (.scan client)))

/-- **No event arms a key twice.** -/
theorem distinct_step (h : r.engine.timers.Distinct) (woken : ℕ × Event) :
    (step r woken).1.engine.timers.Distinct := by
  rcases step_runs r woken with hsame | ⟨x, hrun⟩
  · rw [hsame]
    exact h
  obtain ⟨now, event⟩ := woken
  have hwoken : (r.wokenAt now).engine.timers.Distinct := h
  by_cases haccept : event = .accept
  · subst haccept
    rw [(runs_modify.mp hrun).2]
    exact hwoken
  by_cases hreap : ∃ gone, event = .reap gone
  · obtain ⟨gone, rfl⟩ := hreap
    rw [(runs_reap.mp hrun).2]
    exact distinct_forgotten
      (r := { r.wokenAt now with clients := r.clients.filter fun client => client ∉ gone }) hwoken _
  · have hexpire : Keeps (Keeping fun r : Reactor S E => r.engine.timers.Distinct)
        (withEngine (modify fun d => { d with timers := d.timers.unexpired d.now })) :=
      keeps_zoom (Q := Keeping fun d : Daemon S E => d.timers.Distinct)
        (keeps_modify fun d hd => Timers.Distinct.unexpired hd d.now) fun _ _ hq => hq
    exact (hosted_timers (J := Timers.Distinct) fun _ change ht => ht.apply change).dispatch
      (fun _ => hexpire) haccept (fun gone heq => hreap ⟨gone, heq⟩) (fun _ _ _ _ => trivial)
      (fun _ _ => trivial) hwoken hrun

/-- **At every wake-up of a run** what is due is served exactly when no handler of the loop touches a
key that is due with it and has its turn later. -/
theorem serves_run (world : E.World) (nl rtnl autoconnect : Bool) (suspendOffset : ℕ)
    (events : List (ℕ × Event)) (now : ℕ) :
    let r : Reactor S E :=
      (Machine.exec step (start world nl rtnl autoconnect suspendOffset) events).wokenAt now
    Serves now r.engine.timers (onWake handlers now r.engine.timers r).1 ↔
      Apart handlers (r.engine.timers.expired now) (r.engine.timers.unexpired now) r := by
  intro r
  have hinit : (start (S := S) (E := E) world nl rtnl autoconnect
      suspendOffset).engine.timers.Distinct := by
    have hnone : (⟨[]⟩ : Timers).Distinct := List.nodup_nil
    unfold start
    dsimp only
    split_ifs
    · exact hnone.arm .autoconnect _ _
    · exact hnone
  have hrun : (Machine.exec step (start (S := S) (E := E) world nl rtnl autoconnect suspendOffset)
      events).engine.timers.Distinct := by
    induction events using List.reverseRecOn with
    | nil => exact hinit
    | append_singleton events woken ih =>
      rw [Machine.exec_concat]
      exact distinct_step ih woken
  exact serves_iff handlers hrun r

end Reactor

namespace Daemon

/-- What the end of a lease does to the timers: the exchange is stopped, and begun anew. -/
def sampleRestart : Handlers Unit
  | .dhcp .expire, _, _ =>
    ([.cancel (.dhcp .retransmit), .cancel (.dhcp .renew), .cancel (.dhcp .rebind),
      .cancel (.dhcp .expire), .arm (.dhcp .retransmit) 3000 4000000], ())
  | _, _, _ => ([], ())

/-- The lease ends, and the next message to renew it is due soon after. -/
def sampleDue : Timers := ⟨[(.dhcp .expire, 3600004), (.dhcp .retransmit, 3815004)]⟩

/-- An attempt of the daemon's own, armed anew each time, and a scan that gives way to a pause. -/
def sampleRearm : Handlers ℕ
  | .autoconnect, _, attempts => ([.arm .autoconnect (20 * attempts) 10], attempts + 1)
  | .core .scanTimeout, _, attempts =>
    ([.cancel (.core .assocTimeout), .arm (.core .scanTimeout) 40 10,
      .arm (.core .reconnectBackoff) 5 10], attempts)
  | _, _, attempts => ([], attempts)

/-- Three deadlines that are due at once, and one that is not. -/
def sampleTogether : Timers :=
  ⟨[(.autoconnect, 8), (.dhcp .renew, 900), (.core .scanTimeout, 5), (.scan 7, 10)]⟩

theorem sampleTogether_distinct : sampleTogether.Distinct := by decide

/-- Handlers that arm themselves again, and others: each runs once, in its turn. -/
theorem serves_sample :
    Serves 10 sampleTogether (onWake sampleRearm 10 sampleTogether 1).1 ∧
      (onWake sampleRearm 10 sampleTogether 1).1.map Firing.key =
        [.core .scanTimeout, .autoconnect, .scan 7] ∧
      (onWake sampleRearm 10 sampleTogether 1).2.1.entries =
        [(.dhcp .renew, 900), (.core .scanTimeout, 50), (.core .reconnectBackoff, 15),
          (.autoconnect, 30)] :=
  ⟨(serves_iff sampleRearm sampleTogether_distinct 1).mpr
    ⟨by decide, by decide, by decide, trivial⟩, by decide, by decide⟩

/-- An address is leased, renewed from its server, and then from any. -/
def sampleRebinding : List (ℕ × Reactor.Event) :=
  [(0, .accept), (0, .request 1 (.connect "n" none)),
    (1, .wireless [Nl80211.cmdNewScanResults, 1, 0, 0]), (2, .wireless [Nl80211.cmdConnect, 1, 0, 0]),
    (3, .datagram (sampleReply .offer)), (4, .datagram (sampleReply .ack)), (1800004, .timer),
    (3590004, .timer)]

/-- It is a datagram sent to every server. -/
def Done.isBroadcast : Done → Bool
  | .call (.sendBroadcast _) _ => true
  | _ => false

/-- The reactor after more of these events. -/
def sampleReactor (events : List (ℕ × Reactor.Event)) : Reactor .sample .sample :=
  Machine.exec Reactor.step (.start [[Connection.sampleBss]] true true false 0)
    (sampleRebinding ++ events)

/-- **The retransmission that the end of the lease has cancelled and armed again runs all the same**:
the exchange begun anew sends its first message twice. -/
theorem serves_fails :
    ¬ Serves 4000000 sampleDue (onWake sampleRestart 4000000 sampleDue ()).1 ∧
      (sampleReactor []).engine.timers.entries = sampleDue.entries ∧
      ((sampleReactor [(3600004, .timer)]).engine.journal.countP Done.isBroadcast =
        (sampleReactor []).engine.journal.countP Done.isBroadcast + 1) ∧
      (sampleReactor [(4000000, .timer)]).engine.journal.countP Done.isBroadcast =
        (sampleReactor []).engine.journal.countP Done.isBroadcast + 2 := by
  refine ⟨fun h => ?_, by decide +kernel, by decide +kernel, by decide +kernel⟩
  obtain ⟨-, -, -, hf⟩ := h.live ⟨.dhcp .retransmit, _, _⟩ (List.mem_cons_of_mem _ List.mem_cons_self)
  exact absurd (hf (.cancel (.dhcp .retransmit)) List.mem_cons_self) (by decide)

end Daemon

end Caw
