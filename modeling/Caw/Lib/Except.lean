import Mathlib.Tactic.Basic

/-!
# Fallible computations

Peeling an `Except` computation apart: what its parts did when the whole succeeded or failed.

* **`Except.bind_eq_ok`**, `Except.bind_eq_error`: the two outcomes of a bind;
* `Except.map_eq_ok`, `Except.mapError_eq_ok`, `Except.mapError_eq_error`: and of a map of the value
  or the error;
* `Except.toOption_eq_some`: a computation whose error is dropped.
-/

namespace Except

universe u

variable {ε ε' : Type*} {α β : Type u}

/-- **A bind succeeds when both of its parts do.** -/
theorem bind_eq_ok {x : Except ε α} {f : α → Except ε β} {b : β} :
    x >>= f = .ok b ↔ ∃ a, x = .ok a ∧ f a = .ok b := by
  cases x with
  | ok a => exact ⟨fun h => ⟨a, rfl, h⟩, fun ⟨a', ha, h⟩ => by cases ha; exact h⟩
  | error e => exact ⟨fun h => (nomatch h), fun ⟨a, ha, _⟩ => (nomatch ha)⟩

theorem bind_eq_error {x : Except ε α} {f : α → Except ε β} {e : ε} :
    x >>= f = .error e ↔ x = .error e ∨ ∃ a, x = .ok a ∧ f a = .error e := by
  cases x with
  | ok a => simp [bind, Except.bind]
  | error e' => simp [bind, Except.bind]

@[simp] theorem ok_bind (a : α) (f : α → Except ε β) : (Except.ok a : Except ε α) >>= f = f a := rfl

@[simp] theorem pure_eq_ok (a b : α) : (pure a : Except ε α) = .ok b ↔ a = b :=
  ⟨fun h => by cases h; rfl, fun h => by rw [h]; rfl⟩

theorem map_eq_ok {f : α → β} {x : Except ε α} {b : β} :
    x.map f = .ok b ↔ ∃ a, x = .ok a ∧ f a = b := by
  cases x <;> simp [Except.map]

theorem mapError_eq_ok {f : ε → ε'} {x : Except ε α} {a : α} :
    Except.mapError f x = .ok a ↔ x = .ok a := by
  cases x with
  | ok v =>
    change (Except.ok v : Except ε' α) = .ok a ↔ _
    rw [Except.ok.injEq, Except.ok.injEq]
  | error e => exact iff_of_false (fun h => by cases h) (fun h => by cases h)

theorem mapError_eq_error {f : ε → ε'} {x : Except ε α} {e' : ε'} :
    Except.mapError f x = .error e' ↔ ∃ e, x = .error e ∧ f e = e' := by
  cases x with
  | ok v => exact iff_of_false (fun h => by cases h) (fun ⟨_, h, _⟩ => by cases h)
  | error e =>
    change (Except.error (f e) : Except ε' α) = .error e' ↔ _
    simp

theorem toOption_eq_some {x : Except ε α} {a : α} : x.toOption = some a ↔ x = .ok a := by
  cases x <;> simp [Except.toOption]

end Except
