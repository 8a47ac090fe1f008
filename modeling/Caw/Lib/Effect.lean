import Mathlib.Data.Nat.Notation
import Mathlib.Order.Defs.Unbundled

/-!
# Effects

A computation on a state that may fail with an error, keeping what it did until then, or panic. Errors
are results; a panic has none.

* `Effect`, `Effect.Runs`: a computation, and its big-step meaning;
* `runs_pure`, `runs_throw`, **`runs_bind`**, `runs_modify`, …: the meaning of each form;
* `halt`, `attempt`, `zoom`: a panic, a computation whose error is handed over as a value, and one on a
  part of the state;
* `Effect.Keeps`: every run stays within a relation, with **`keeps_bind`** and a rule for each form;
* `Effect.Yields`: what holds of every run that succeeds, with **`yields_bind`**;
* `Effect.Total`: no run fails;
* `Effect.Level`, `Effect.Adds`: a measure that stays, and one that a success adds to, with
  **`adds_bind`**, `adds_then`.
-/

set_option autoImplicit false

universe u

/-- A computation that may fail or panic. -/
abbrev Effect (ε σ : Type u) (α : Type u) : Type u := ExceptT ε (StateT σ Option) α

namespace Effect

variable {ε σ α β : Type u}

/-- From `s` the computation comes to the result `r` and the state `s'`. -/
def Runs (m : Effect ε σ α) (s : σ) (r : Except ε α) (s' : σ) : Prop :=
  m.run.run s = some (r, s')

/-- A panic. -/
def halt : Effect ε σ α := ExceptT.mk fun _ => none

/-- Run a computation and hand over what it comes to. -/
def attempt (m : Effect ε σ α) : Effect ε σ (Except ε α) :=
  ExceptT.mk fun s => (m.run.run s).map fun p => (.ok p.1, p.2)

/-- Run a computation on a part of the state. -/
def zoom {τ : Type u} (part : σ → τ) (put : σ → τ → σ) (m : Effect ε τ α) : Effect ε σ α :=
  ExceptT.mk fun s => (m.run.run (part s)).map fun p => (p.1, put s p.2)

/-! ## What each form does -/

section Runs

variable {s s' : σ}

@[simp] theorem runs_pure {a : α} {r : Except ε α} :
    Runs (pure a) s r s' ↔ r = .ok a ∧ s' = s := by
  change some (Except.ok a, s) = some (r, s') ↔ _
  rw [Option.some.injEq, Prod.mk.injEq]
  exact and_congr eq_comm eq_comm

@[simp] theorem runs_throw {e : ε} {r : Except ε α} :
    Runs (throw e) s r s' ↔ r = .error e ∧ s' = s := by
  change some (Except.error e, s) = some (r, s') ↔ _
  rw [Option.some.injEq, Prod.mk.injEq]
  exact and_congr eq_comm eq_comm

@[simp] theorem runs_get {r : Except ε σ} :
    Runs (get : Effect ε σ σ) s r s' ↔ r = .ok s ∧ s' = s := by
  change some (Except.ok s, s) = some (r, s') ↔ _
  rw [Option.some.injEq, Prod.mk.injEq]
  exact and_congr eq_comm eq_comm

@[simp] theorem runs_modifyGet {f : σ → α × σ} {r : Except ε α} :
    Runs (modifyGet f : Effect ε σ α) s r s' ↔ r = .ok (f s).1 ∧ s' = (f s).2 := by
  change some (Except.ok (f s).1, (f s).2) = some (r, s') ↔ _
  rw [Option.some.injEq, Prod.mk.injEq]
  exact and_congr eq_comm eq_comm

@[simp] theorem runs_modify {f : σ → σ} {r : Except ε PUnit} :
    Runs (modify f : Effect ε σ PUnit) s r s' ↔ r = .ok ⟨⟩ ∧ s' = f s := by
  change some (Except.ok _, f s) = some (r, s') ↔ _
  rw [Option.some.injEq, Prod.mk.injEq]
  exact and_congr eq_comm eq_comm

@[simp] theorem runs_halt {r : Except ε α} : ¬ Runs (halt : Effect ε σ α) s r s' := nofun

/-- **Sequencing**: the second part runs only after the first succeeds. -/
theorem runs_bind {m : Effect ε σ α} {k : α → Effect ε σ β} {r : Except ε β} :
    Runs (m >>= k) s r s' ↔ (∃ a s₁, Runs m s (.ok a) s₁ ∧ Runs (k a) s₁ r s') ∨
      ∃ e, Runs m s (.error e) s' ∧ r = .error e := by
  have hbind : (m >>= k).run.run s = (m.run.run s).bind fun p => match p.1 with
      | .ok a => (k a).run.run p.2
      | .error e => some (.error e, p.2) := by
    change (m.run.run s).bind _ = _
    congr 1
    funext p
    obtain ⟨_ | a, s₁⟩ := p <;> rfl
  unfold Runs
  rw [hbind]
  constructor
  · intro h
    obtain ⟨⟨x, s₁⟩, hm, hk⟩ := Option.bind_eq_some_iff.mp h
    cases x with
    | ok a => exact .inl ⟨a, s₁, hm, hk⟩
    | error e =>
      cases hk
      exact .inr ⟨e, hm, rfl⟩
  · rintro (⟨a, s₁, hm, hk⟩ | ⟨e, hm, rfl⟩)
    · rw [hm]
      exact hk
    · rw [hm]
      rfl

@[simp] theorem runs_get_bind {k : σ → Effect ε σ β} {r : Except ε β} :
    Runs (get >>= k) s r s' ↔ Runs (k s) s r s' := Iff.rfl

@[simp] theorem runs_modify_bind {f : σ → σ} {k : PUnit → Effect ε σ β} {r : Except ε β} :
    Runs (modify f >>= k) s r s' ↔ Runs (k ⟨⟩) (f s) r s' := Iff.rfl

@[simp] theorem runs_modifyGet_bind {f : σ → α × σ} {k : α → Effect ε σ β} {r : Except ε β} :
    Runs (modifyGet f >>= k) s r s' ↔ Runs (k (f s).1) (f s).2 r s' := Iff.rfl

@[simp] theorem runs_attempt {m : Effect ε σ α} {r : Except ε (Except ε α)} :
    Runs (attempt m) s r s' ↔ ∃ x, r = .ok x ∧ Runs m s x s' := by
  change (m.run.run s).map (fun p => (Except.ok p.1, p.2)) = some (r, s') ↔ _
  rw [Option.map_eq_some_iff]
  constructor
  · rintro ⟨⟨x, s₁⟩, hm, heq⟩
    cases heq
    exact ⟨x, rfl, hm⟩
  · rintro ⟨x, rfl, hm⟩
    exact ⟨(x, s'), hm, rfl⟩

theorem runs_attempt_bind {m : Effect ε σ α} {k : Except ε α → Effect ε σ β} {r : Except ε β} :
    Runs (attempt m >>= k) s r s' ↔ ∃ x s₁, Runs m s x s₁ ∧ Runs (k x) s₁ r s' := by
  rw [runs_bind]
  constructor
  · rintro (⟨x, s₁, hattempt, hk⟩ | ⟨e, hattempt, -⟩)
    · obtain ⟨y, hy, hm⟩ := runs_attempt.mp hattempt
      cases hy
      exact ⟨x, s₁, hm, hk⟩
    · obtain ⟨y, hy, -⟩ := runs_attempt.mp hattempt
      cases hy
  · rintro ⟨x, s₁, hm, hk⟩
    exact .inl ⟨x, s₁, runs_attempt.mpr ⟨x, rfl, hm⟩, hk⟩

@[simp] theorem runs_zoom {τ : Type u} {part : σ → τ} {put : σ → τ → σ} {m : Effect ε τ α}
    {r : Except ε α} :
    Runs (zoom part put m) s r s' ↔ ∃ t, Runs m (part s) r t ∧ s' = put s t := by
  change (m.run.run (part s)).map (fun p => (p.1, put s p.2)) = some (r, s') ↔ _
  rw [Option.map_eq_some_iff]
  constructor
  · rintro ⟨⟨x, t⟩, hm, heq⟩
    cases heq
    exact ⟨t, hm, rfl⟩
  · rintro ⟨t, hm, rfl⟩
    exact ⟨(r, t), hm, rfl⟩

end Runs

/-! ## Staying within a relation -/

/-- Every run, whether it succeeds or fails, ends in a state related to the one it began in. -/
def Keeps (R : σ → σ → Prop) (m : Effect ε σ α) : Prop := ∀ s r s', Runs m s r s' → R s s'

section Any

variable {R R' : σ → σ → Prop}

theorem Keeps.mono {m : Effect ε σ α} (hm : Keeps R m) (hR : ∀ s s', R s s' → R' s s') :
    Keeps R' m := fun s r s' h => hR s s' (hm s r s' h)

theorem keeps_modify {f : σ → σ} (h : ∀ s, R s (f s)) :
    Keeps R (modify f : Effect ε σ PUnit) := by
  rintro s r s' hr
  obtain ⟨-, rfl⟩ := runs_modify.mp hr
  exact h s

theorem keeps_modifyGet {f : σ → α × σ} (h : ∀ s, R s (f s).2) :
    Keeps R (modifyGet f : Effect ε σ α) := by
  rintro s r s' hr
  obtain ⟨-, rfl⟩ := runs_modifyGet.mp hr
  exact h s

/-- **A part that stays within a relation** keeps the whole within one. -/
theorem keeps_zoom {τ : Type u} {part : σ → τ} {put : σ → τ → σ} {Q : τ → τ → Prop}
    {m : Effect ε τ α} (hm : Keeps Q m) (hput : ∀ s t, Q (part s) t → R s (put s t)) :
    Keeps R (zoom part put m) := by
  rintro s r s' h
  obtain ⟨t, ht, rfl⟩ := runs_zoom.mp h
  exact hput s t (hm _ _ _ ht)

theorem keeps_attempt {m : Effect ε σ α} (hm : Keeps R m) : Keeps R (attempt m) := by
  rintro s r s' h
  obtain ⟨x, -, hx⟩ := runs_attempt.mp h
  exact hm _ _ _ hx

end Any

section Preorder

variable {R : σ → σ → Prop} [IsPreorder σ R]

theorem keeps_pure (a : α) : Keeps R (pure a : Effect ε σ α) := by
  rintro s r s' h
  obtain ⟨-, rfl⟩ := runs_pure.mp h
  exact refl _

theorem keeps_throw (e : ε) : Keeps R (throw e : Effect ε σ α) := by
  rintro s r s' h
  obtain ⟨-, rfl⟩ := runs_throw.mp h
  exact refl _

theorem keeps_get : Keeps R (get : Effect ε σ σ) := by
  rintro s r s' h
  obtain ⟨-, rfl⟩ := runs_get.mp h
  exact refl _

/-- **Sequencing** stays within a transitive relation. -/
theorem keeps_bind {m : Effect ε σ α} {k : α → Effect ε σ β} (hm : Keeps R m)
    (hk : ∀ a, Keeps R (k a)) : Keeps R (m >>= k) := by
  rintro s r s' h
  rcases runs_bind.mp h with ⟨a, s₁, h₁, h₂⟩ | ⟨e, h₁, -⟩
  · exact IsTrans.trans _ _ _ (hm _ _ _ h₁) (hk a _ _ _ h₂)
  · exact hm _ _ _ h₁

end Preorder

/-- A property is kept. -/
def Keeping (J : σ → Prop) (s s' : σ) : Prop := J s → J s'

instance (J : σ → Prop) : IsPreorder σ (Keeping J) where
  refl _ := id
  trans _ _ _ h h' := h' ∘ h

/-! ## What a success comes to -/

/-- Every run that succeeds comes to a result and a state with the property. -/
def Yields (Q : α → σ → Prop) (m : Effect ε σ α) : Prop := ∀ s a s', Runs m s (.ok a) s' → Q a s'

theorem yields_throw {Q : α → σ → Prop} (e : ε) : Yields Q (throw e : Effect ε σ α) := by
  intro s a s' h
  cases (runs_throw.mp h).1

/-- **Sequencing**: what the last part yields. -/
theorem yields_bind {Q : β → σ → Prop} {m : Effect ε σ α} {k : α → Effect ε σ β}
    (hk : ∀ a, Yields Q (k a)) : Yields Q (m >>= k) := by
  intro s b s' h
  rcases runs_bind.mp h with ⟨a, s₁, -, hrest⟩ | ⟨e, -, hr⟩
  · exact hk a s₁ b s' hrest
  · cases hr

/-! ## Computations that cannot fail -/

/-- No run fails. -/
def Total (m : Effect ε σ α) : Prop := ∀ s e s', ¬ Runs m s (.error e) s'

theorem total_pure (a : α) : Total (pure a : Effect ε σ α) := by
  intro s e s' h
  cases (runs_pure.mp h).1

theorem total_get : Total (get : Effect ε σ σ) := by
  intro s e s' h
  cases (runs_get.mp h).1

theorem total_modify (f : σ → σ) : Total (modify f : Effect ε σ PUnit) := by
  intro s e s' h
  cases (runs_modify.mp h).1

theorem total_modifyGet (f : σ → α × σ) : Total (modifyGet f : Effect ε σ α) := by
  intro s e s' h
  cases (runs_modifyGet.mp h).1

theorem total_attempt (m : Effect ε σ α) : Total (attempt m) := by
  intro s e s' h
  obtain ⟨x, hr, -⟩ := runs_attempt.mp h
  cases hr

theorem total_zoom {τ : Type u} {part : σ → τ} {put : σ → τ → σ} {m : Effect ε τ α} (hm : Total m) :
    Total (zoom part put m) := by
  intro s e s' h
  obtain ⟨t, ht, -⟩ := runs_zoom.mp h
  exact hm _ e t ht

theorem total_bind {m : Effect ε σ α} {k : α → Effect ε σ β} (hm : Total m)
    (hk : ∀ a, Total (k a)) : Total (m >>= k) := by
  intro s e s' h
  rcases runs_bind.mp h with ⟨a, s₁, -, hrest⟩ | ⟨e', hfail, -⟩
  · exact hk a s₁ e s' hrest
  · exact hm s e' s' hfail

/-! ## Measures -/

/-- A measure stays as it is. -/
def Level (f : σ → ℕ) (s s' : σ) : Prop := f s' = f s

instance (f : σ → ℕ) : IsPreorder σ (Level f) where
  refl _ := rfl
  trans _ _ _ h h' := Eq.trans h' h

/-- From a state, a run that succeeds adds to a measure, and one that fails adds nothing. -/
def Adds (f : σ → ℕ) (n : ℕ) (m : Effect ε σ α) (s : σ) : Prop := ∀ r s', Runs m s r s' →
  f s' = f s + match r with
    | .ok _ => n
    | .error _ => 0

section Adds

variable {f : σ → ℕ} {n : ℕ} {m : Effect ε σ α} {k : α → Effect ε σ β} {s : σ}

theorem adds_throw (e : ε) : Adds f n (throw e : Effect ε σ α) s := by
  intro r s' h
  obtain ⟨rfl, rfl⟩ := runs_throw.mp h
  rfl

/-- **Sequencing**, where the last part adds. -/
theorem adds_bind (hm : Keeps (Level f) m) (hk : ∀ a s₁, Runs m s (.ok a) s₁ → Adds f n (k a) s₁) :
    Adds f n (m >>= k) s := by
  intro r s' h
  rcases runs_bind.mp h with ⟨a, s₁, hrun, hrest⟩ | ⟨e, hrun, rfl⟩
  · rw [hk a s₁ hrun _ _ hrest, hm _ _ _ hrun]
  · exact hm _ _ _ hrun

/-- **Sequencing**, where the first part adds and the rest cannot fail. -/
theorem adds_then (hm : Adds f n m s) (hk : ∀ a, Keeps (Level f) (k a)) (htotal : ∀ a, Total (k a)) :
    Adds f n (m >>= k) s := by
  intro r s' h
  rcases runs_bind.mp h with ⟨a, s₁, hrun, hrest⟩ | ⟨e, hrun, rfl⟩
  · cases r with
    | ok b => exact (hk a _ _ _ hrest).trans (hm _ _ hrun)
    | error e => exact absurd hrest (htotal a _ _ _)
  · exact hm _ _ hrun

end Adds

end Effect
