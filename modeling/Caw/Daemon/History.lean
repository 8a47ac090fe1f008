import Caw.Daemon.Conduct
import Caw.Lib.Machine

/-!
# What happens in a run

A run of the engine, as its steps and as what it was woken by and what it did.

* `step_runs`, `step_eq`: a step is an event handled in full;
* `Daemon.Continues`, **`deeds_eq`**: what was done stays done;
* `Daemon.deeds`, `Daemon.Happening`, `Daemon.history`: what a step did, and what happened in a run.
-/

set_option autoImplicit false

namespace Caw

open Caw.Core

namespace Daemon

open Effect
open Machine (Entry)

/-- What a daemon is woken by, and what it does. -/
inductive Happening where
  | woken (event : Event)
  | did (done : Done)

variable {S : Platform} {E : System S} {d d' : Daemon S E}

theorem step_runs (d : Daemon S E) (woken : ℕ × Event) : (step d woken).1 = d ∨
    ∃ r, Runs (handle woken.2) { d with now := woken.1 } r (step d woken).1 := by
  unfold step wake
  cases hrun : (handle woken.2).run.run { d with now := woken.1 } with
  | none => exact .inl rfl
  | some p => exact .inr ⟨p.1, hrun⟩

theorem step_eq {woken : ℕ × Event} {r : Except String Unit}
    (h : Runs (handle woken.2) { d with now := woken.1 } r d') : (step d woken).1 = d' := by
  unfold step wake
  rw [show (handle woken.2).run.run { d with now := woken.1 } = some (r, d') from h]
  rfl

/-- What was done stays done. -/
def Continues (d d' : Daemon S E) : Prop := d.journal <+: d'.journal

instance : IsPreorder (Daemon S E) Continues where
  refl d := List.prefix_refl d.journal
  trans _ _ _ h h' := List.IsPrefix.trans h h'

theorem continues_of {done : List Done} (h : d'.journal = d.journal ++ done) : Continues d d' :=
  ⟨done, h.symm⟩

theorem continues_same (h : d'.journal = d.journal) : Continues d d' :=
  ⟨[], by rw [h, List.append_nil]⟩

theorem conducts_continues : Conducts (Continues : Daemon S E → Daemon S E → Prop) := by
  have hadmits : Admits (Continues : Daemon S E → Daemon S E → Prop) :=
    { calls := fun _ _ => continues_of rfl
      timers := fun _ _ _ => continues_same rfl
      routes := fun _ _ _ => continues_same rfl
      dhcp := fun _ _ => continues_same rfl
      eapol := fun _ _ => continues_same rfl
      profiles := fun _ _ => continues_same rfl }
  have hspeaks : Speaks (Continues : Daemon S E → Daemon S E → Prop) :=
    { sends := fun _ _ _ => continues_of rfl
      unwatched := fun _ => continues_same rfl
      prompts := fun _ _ _ => continues_same rfl }
  exact hadmits.conducts hspeaks (fun _ _ _ _ _ _ => continues_of rfl) (fun _ _ => continues_of rfl)
    (fun _ _ => continues_same rfl) (fun _ => continues_same rfl) fun _ _ _ => continues_same rfl

/-- What a step did. -/
def deeds (e : Entry (Daemon S E) (ℕ × Event) Unit) : List Done :=
  e.post.journal.drop e.pre.journal.length

/-- **A step adds what it did.** -/
theorem deeds_eq (d : Daemon S E) (woken : ℕ × Event) :
    (step d woken).1.journal = d.journal ++ deeds (Machine.entry step d woken) := by
  have hcontinues : d.journal <+: (step d woken).1.journal := by
    rcases step_runs d woken with hstep | ⟨r, hrun⟩
    · rw [hstep]
    · exact conducts_continues.handle woken.2 { d with now := woken.1 } r _ hrun
  exact (List.prefix_iff_eq_append.mp hcontinues).symm

/-- What happened in a run. -/
def history (past : List (Entry (Daemon S E) (ℕ × Event) Unit)) : List Happening :=
  past.flatMap fun e => .woken e.input.2 :: (deeds e).map .did

theorem history_concat (past : List (Entry (Daemon S E) (ℕ × Event) Unit))
    (e : Entry (Daemon S E) (ℕ × Event) Unit) :
    history (past ++ [e]) = history past ++ .woken e.input.2 :: (deeds e).map .did := by
  simp [history]

end Daemon

end Caw
