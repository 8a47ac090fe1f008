import Mathlib.Data.List.Induction

/-!
# Runs of a reactive machine

A machine is a function `S → I → S × O`: a state and an input give the next state and an output.
Its runs are taken together with their history, so that a law may speak of every step that came
before.

* `Entry`, `entry`: one step as an observer sees it;
* `exec`, `log`: the state a run ends in and the entries it leaves behind;
* `outputs`, **`outputs_eq`**: what a run returns, the same from states that are bisimilar;
* `Along`: a law about every entry of a log and the entries before it;
* **`along_log_iff`**: the same law, stated over the run's prefixes;
* **`run_induction`**: an invariant of history and state, kept by every step that meets a guard,
  holds at the end of every run whose steps meet the guard;
* **`along_of_inv`**: and what the invariant gives at one step holds along the whole log;
* `Occurs`: an entry of a kind is in a log, after entries of other kinds;
* `Latest`: what the last element of a kind in a list is related to;
* **`exists_goal`**: a rank that every step that counts lowers bounds how many count before a goal;
* `Reachable`: the end of some run, with **`Reachable.invariant`**.
-/

namespace Machine

variable {S I O : Type*}

/-- One step of a run: the state before, the input, the output and the state after. -/
structure Entry (S I O : Type*) where
  pre : S
  input : I
  output : O
  post : S

/-- The entry of one step. -/
def entry (m : S → I → S × O) (s : S) (i : I) : Entry S I O := ⟨s, i, (m s i).2, (m s i).1⟩

@[simp] theorem entry_pre (m : S → I → S × O) (s : S) (i : I) : (entry m s i).pre = s := rfl

@[simp] theorem entry_input (m : S → I → S × O) (s : S) (i : I) : (entry m s i).input = i := rfl

@[simp] theorem entry_output (m : S → I → S × O) (s : S) (i : I) :
    (entry m s i).output = (m s i).2 := rfl

@[simp] theorem entry_post (m : S → I → S × O) (s : S) (i : I) :
    (entry m s i).post = (m s i).1 := rfl

/-- The state a run ends in. -/
def exec (m : S → I → S × O) : S → List I → S
  | s, [] => s
  | s, i :: is => exec m (m s i).1 is

/-- The entries of a run, oldest first. -/
def log (m : S → I → S × O) : S → List I → List (Entry S I O)
  | _, [] => []
  | s, i :: is => entry m s i :: log m (m s i).1 is

section Runs

variable (m : S → I → S × O)

theorem exec_cons_of_eq {m : S → I → S × O} {s s' : S} {i : I} {o : O} (h : m s i = (s', o))
    (is : List I) : exec m s (i :: is) = exec m s' is := by
  rw [exec, h]

theorem exec_append (s : S) (is js : List I) :
    exec m s (is ++ js) = exec m (exec m s is) js := by
  induction is generalizing s with
  | nil => rfl
  | cons i is ih => exact ih _

theorem log_append (s : S) (is js : List I) :
    log m s (is ++ js) = log m s is ++ log m (exec m s is) js := by
  induction is generalizing s with
  | nil => rfl
  | cons i is ih => rw [List.cons_append, log, log, exec, ih, List.cons_append]

theorem log_cons_of_eq {m : S → I → S × O} {s s' : S} {i : I} {o : O} (h : m s i = (s', o))
    (is : List I) : log m s (i :: is) = ⟨s, i, o, s'⟩ :: log m s' is := by
  rw [log, entry, h]

theorem exec_concat (s : S) (is : List I) (i : I) :
    exec m s (is ++ [i]) = (m (exec m s is) i).1 := by
  rw [exec_append]; rfl

theorem log_concat (s : S) (is : List I) (i : I) :
    log m s (is ++ [i]) = log m s is ++ [entry m (exec m s is) i] := by
  rw [log_append]; rfl

/-- What a run returns. -/
def outputs (s : S) (is : List I) : List O := (log m s is).map Entry.output

/-- **A bisimulation**: states whose steps return the same and lead to such states again have the same
runs, to the outside. -/
theorem outputs_eq {m : S → I → S × O} {R : S → S → Prop}
    (hstep : ∀ s t, R s t → ∀ i, (m s i).2 = (m t i).2 ∧ R (m s i).1 (m t i).1) {s t : S} (h : R s t)
    (is : List I) : outputs m s is = outputs m t is := by
  induction is generalizing s t with
  | nil => rfl
  | cons i is ih =>
    obtain ⟨hout, hnext⟩ := hstep s t h i
    exact congrArg₂ List.cons hout (ih hnext)

end Runs

/-! ## Laws along a log -/

/-- `P` holds of every entry of the log, given the entries before it. -/
def Along (P : List (Entry S I O) → Entry S I O → Prop) (l : List (Entry S I O)) : Prop :=
  ∀ past e rest, l = past ++ e :: rest → P past e

variable {P Q : List (Entry S I O) → Entry S I O → Prop}

theorem along_nil : Along P ([] : List (Entry S I O)) := by
  intro past e rest h
  simp at h

theorem along_concat (l : List (Entry S I O)) (e : Entry S I O) :
    Along P (l ++ [e]) ↔ Along P l ∧ P l e := by
  constructor
  · intro h
    exact ⟨fun past e' rest hl => h past e' (rest ++ [e]) (by rw [hl, List.append_assoc]; rfl),
      h l e [] rfl⟩
  · rintro ⟨hl, he⟩ past e' rest heq
    rcases List.eq_nil_or_concat rest with rfl | ⟨rest', e'', rfl⟩
    · obtain ⟨rfl, hcons⟩ := List.append_inj' heq rfl
      cases hcons
      exact he
    · have hsplit : l ++ [e] = (past ++ e' :: rest') ++ [e''] := by
        rw [heq, List.append_assoc]; simp
      exact hl past e' rest' (List.append_inj' hsplit rfl).1

/-- **A law along a run**, stated over the run's prefixes. -/
theorem along_log_iff (m : S → I → S × O) (s : S) (is : List I) :
    Along P (log m s is) ↔ ∀ before i after, is = before ++ i :: after →
      P (log m s before) (entry m (exec m s before) i) := by
  constructor
  · rintro h before i after rfl
    exact h _ _ (log m (m (exec m s before) i).1 after) (log_append m s before (i :: after))
  · intro h past e rest hl
    induction is using List.reverseRecOn generalizing rest with
    | nil => simp [log] at hl
    | append_singleton is i ih =>
      rw [log_concat] at hl
      rcases List.eq_nil_or_concat rest with rfl | ⟨rest', last, rfl⟩
      · obtain ⟨rfl, hcons⟩ := List.append_inj' hl rfl
        cases hcons
        exact h is i [] rfl
      · have hsplit : log m s is ++ [entry m (exec m s is) i] = (past ++ e :: rest') ++ [last] := by
          simp [hl]
        exact ih (fun before j after heq => h before j (after ++ [i]) (by simp [heq])) rest'
          (List.append_inj' hsplit rfl).1

theorem Along.mono {l : List (Entry S I O)} (h : Along P l) (hPQ : ∀ past e, P past e → Q past e) :
    Along Q l := fun past e rest hl => hPQ past e (h past e rest hl)

theorem along_iff_forall {R : Entry S I O → Prop} {l : List (Entry S I O)} :
    Along (fun _ e => R e) l ↔ ∀ e ∈ l, R e := by
  constructor
  · intro h e he
    obtain ⟨past, rest, hl⟩ := List.append_of_mem he
    exact h past e rest hl
  · rintro h past e rest rfl
    exact h e (by simp)

/-- Some entry of the log has `P`, given the entries before it. -/
def Occurs (P : List (Entry S I O) → Entry S I O → Prop) (l : List (Entry S I O)) : Prop :=
  ∃ past e rest, l = past ++ e :: rest ∧ P past e

theorem not_occurs_nil : ¬ Occurs P ([] : List (Entry S I O)) := by
  rintro ⟨past, e, rest, h, -⟩
  simp at h

theorem occurs_iff {l : List (Entry S I O)} : Occurs P l ↔ ¬ Along (fun past e => ¬ P past e) l := by
  simp only [Occurs, Along, not_forall, not_not, exists_prop]

theorem occurs_concat (l : List (Entry S I O)) (e : Entry S I O) :
    Occurs P (l ++ [e]) ↔ Occurs P l ∨ P l e := by
  rw [occurs_iff, occurs_iff, along_concat, not_and_or, not_not]

/-! ## The latest of a kind -/

section Latest

variable {α β : Type*} {R : α → β → Prop}

/-- The last element of the list that is related to anything is related to `b`. -/
def Latest (R : α → β → Prop) (l : List α) (b : β) : Prop :=
  ∃ before a after, l = before ++ a :: after ∧ R a b ∧ ∀ later ∈ after, ∀ b', ¬ R later b'

theorem not_latest_nil (b : β) : ¬ Latest R [] b := by
  rintro ⟨before, a, after, heq, -⟩
  simp at heq

theorem latest_concat (l : List α) (a : α) (b : β) :
    Latest R (l ++ [a]) b ↔ R a b ∨ ((∀ b', ¬ R a b') ∧ Latest R l b) := by
  constructor
  · rintro ⟨before, a', after, heq, ha, hlater⟩
    rcases List.eq_nil_or_concat after with rfl | ⟨after', last, rfl⟩
    · obtain ⟨rfl, hcons⟩ := List.append_inj' heq rfl
      cases hcons
      exact .inl ha
    · have hsplit : l ++ [a] = (before ++ a' :: after') ++ [last] := by simp [heq]
      obtain ⟨hl, hlast⟩ := List.append_inj' hsplit rfl
      cases hlast
      exact .inr ⟨hlater a (by simp), before, a', after', hl, ha,
        fun later hmem => hlater later (by simp [hmem])⟩
  · rintro (ha | ⟨hnone, before, a', after, rfl, ha, hlater⟩)
    · exact ⟨l, a, [], rfl, ha, fun _ hmem => nomatch hmem⟩
    · refine ⟨before, a', after ++ [a], by simp, ha, fun later hmem => ?_⟩
      rcases List.mem_append.mp hmem with hmem | hmem
      · exact hlater later hmem
      · rw [List.mem_singleton.mp hmem]
        exact hnone

end Latest

/-! ## Induction over runs -/

section Induction

variable {m : S → I → S × O} {s₀ : S} {J : List (Entry S I O) → S → Prop}
  {G : List (Entry S I O) → Entry S I O → Prop}

/-- **Run induction with history.** -/
theorem run_induction (hinit : J [] s₀)
    (hstep : ∀ past s i, J past s → G past (entry m s i) →
      J (past ++ [entry m s i]) (m s i).1)
    (is : List I) (hG : Along G (log m s₀ is)) : J (log m s₀ is) (exec m s₀ is) := by
  induction is using List.reverseRecOn with
  | nil => exact hinit
  | append_singleton is i ih =>
    rw [log_concat, along_concat] at hG
    rw [log_concat, exec_concat]
    exact hstep _ _ _ (ih hG.1) hG.2

/-- **Laws along a run.** What the invariant and the guard give at one step holds at every step. -/
theorem along_of_inv (hinit : J [] s₀)
    (hstep : ∀ past s i, J past s → G past (entry m s i) →
      J (past ++ [entry m s i]) (m s i).1)
    (hP : ∀ past s i, J past s → G past (entry m s i) → P past (entry m s i))
    (is : List I) (hG : Along G (log m s₀ is)) : Along P (log m s₀ is) := by
  induction is using List.reverseRecOn with
  | nil => exact along_nil
  | append_singleton is i ih =>
    rw [log_concat, along_concat] at hG ⊢
    exact ⟨ih hG.1, hP _ _ _ (run_induction hinit hstep is hG.1) hG.2⟩

/-- **Progress by rank.** Where every step reaches the goal, or keeps the invariant and does not raise
the rank, and lowers it if it counts, a run in which more steps count than the rank allows reaches
the goal. -/
theorem exists_goal {J R : S → Prop} {f : S → ℕ} {counts : Entry S I O → Bool}
    (hstep : ∀ s i, J s → R (m s i).1 ∨
      (J (m s i).1 ∧ f (m s i).1 + (if counts (entry m s i) then 1 else 0) ≤ f s))
    {s : S} (h : J s) (is : List I) (hcount : f s < (log m s is).countP counts) :
    ∃ e ∈ log m s is, R e.post := by
  induction is generalizing s with
  | nil => simp [log] at hcount
  | cons i is ih =>
    rcases hstep s i h with hgoal | ⟨hnext, hrank⟩
    · exact ⟨entry m s i, List.mem_cons_self, hgoal⟩
    · rw [log, List.countP_cons] at hcount
      obtain ⟨e, hmem, hgoal⟩ := ih hnext (by omega)
      exact ⟨e, List.mem_cons_of_mem _ hmem, hgoal⟩

end Induction

/-- The state is the end of some run. -/
def Reachable (m : S → I → S × O) (s₀ s : S) : Prop := ∃ is, exec m s₀ is = s

theorem Reachable.refl (m : S → I → S × O) (s₀ : S) : Reachable m s₀ s₀ := ⟨[], rfl⟩

theorem Reachable.step {m : S → I → S × O} {s₀ s : S} (h : Reachable m s₀ s) (i : I) :
    Reachable m s₀ (m s i).1 := by
  obtain ⟨is, rfl⟩ := h
  exact ⟨is ++ [i], exec_concat m s₀ is i⟩

/-- **Invariants hold of every reachable state.** -/
theorem Reachable.invariant {m : S → I → S × O} {s₀ s : S} {Inv : S → Prop}
    (h : Reachable m s₀ s) (hinit : Inv s₀) (hstep : ∀ s i, Inv s → Inv (m s i).1) : Inv s := by
  obtain ⟨is, rfl⟩ := h
  induction is using List.reverseRecOn with
  | nil => exact hinit
  | append_singleton is i ih =>
    rw [exec_concat]
    exact hstep _ i ih

end Machine
