import Caw.Lib.Octets

/-!
# Walking a byte string

An iterator takes one item off the front of a byte string, or stops. Its items, and where it stopped.

* `Walk.items`, `Walk.left`: the items a bounded walk yields, and the octets it leaves;
* `Walk.Shrinks`: every item takes something;
* **`Walk.items_fuel`**, `Walk.items_eq`, `Walk.next_left`: a walk bounded by the length of the string
  is not bounded at all;
* `Walk.items_append`: a longer string has the same items, and more;
* `Walk.forall_items`: what holds of every item taken;
* **`Walk.flatMap_raw`**: the items and what is left make up the string;
* `Walk.InOrder`, **`Walk.inOrder_items`**: the items are disjoint parts of the string, in order;
* **`Walk.items_flatMap`**, `Walk.left_flatMap`: a walk over items written one after another yields
  them, and leaves nothing.
-/

set_option autoImplicit false

namespace Walk

variable {α : Type*} (next : Bytes → Option (α × Bytes))

/-- The first items of a string. -/
def items : ℕ → Bytes → List α
  | 0, _ => []
  | fuel + 1, b =>
    match next b with
    | none => []
    | some (a, rest) => a :: items fuel rest

/-- What is left where the walk stops. -/
def left : ℕ → Bytes → Bytes
  | 0, b => b
  | fuel + 1, b =>
    match next b with
    | none => b
    | some (_, rest) => left fuel rest

/-- Every item takes something off. -/
def Shrinks : Prop := ∀ b a rest, next b = some (a, rest) → rest.length < b.length

variable {next}

theorem next_nil (h : Shrinks next) : next [] = none := by
  cases hnext : next [] with
  | none => rfl
  | some p => exact absurd (h [] p.1 p.2 hnext) (Nat.not_lt_zero _)

theorem items_nil (h : Shrinks next) (fuel : ℕ) : items next fuel [] = [] := by
  cases fuel with
  | zero => rfl
  | succ fuel => rw [items, next_nil h]

/-- **Enough fuel is all fuel.** -/
theorem items_fuel (h : Shrinks next) {n m : ℕ} {b : Bytes} (hn : b.length ≤ n) (hm : b.length ≤ m) :
    items next n b = items next m b := by
  induction n generalizing m b with
  | zero => rw [List.eq_nil_of_length_eq_zero (Nat.le_zero.mp hn), items_nil h, items_nil h]
  | succ n ih =>
    cases m with
    | zero => rw [List.eq_nil_of_length_eq_zero (Nat.le_zero.mp hm), items_nil h, items_nil h]
    | succ m =>
      rw [items, items]
      cases hnext : next b with
      | none => rfl
      | some p =>
        have hlt := h b p.1 p.2 hnext
        exact congrArg (p.1 :: ·) (ih (by omega) (by omega))

/-- **The items of a string**: one, and those of the rest. -/
theorem items_eq (h : Shrinks next) (b : Bytes) : items next b.length b =
    match next b with
    | none => []
    | some (a, rest) => a :: items next rest.length rest := by
  cases b with
  | nil => rw [items_nil h, next_nil h]
  | cons x b =>
    rw [List.length_cons, items]
    cases hnext : next (x :: b) with
    | none => rfl
    | some p =>
      have hlt := h (x :: b) p.1 p.2 hnext
      rw [List.length_cons] at hlt
      exact congrArg (p.1 :: ·) (items_fuel h (by omega) le_rfl)

theorem left_nil (h : Shrinks next) (fuel : ℕ) : left next fuel [] = [] := by
  cases fuel with
  | zero => rfl
  | succ fuel => rw [left, next_nil h]

theorem left_fuel (h : Shrinks next) {n m : ℕ} {b : Bytes} (hn : b.length ≤ n) (hm : b.length ≤ m) :
    left next n b = left next m b := by
  induction n generalizing m b with
  | zero => rw [List.eq_nil_of_length_eq_zero (Nat.le_zero.mp hn), left_nil h, left_nil h]
  | succ n ih =>
    cases m with
    | zero => rw [List.eq_nil_of_length_eq_zero (Nat.le_zero.mp hm), left_nil h, left_nil h]
    | succ m =>
      rw [left, left]
      cases hnext : next b with
      | none => rfl
      | some p =>
        have hlt := h b p.1 p.2 hnext
        exact ih (by omega) (by omega)

/-- **What is left of a string** is what is left behind its first item. -/
theorem left_eq (h : Shrinks next) (b : Bytes) : left next b.length b =
    match next b with
    | none => b
    | some (_, rest) => left next rest.length rest := by
  cases b with
  | nil => rw [left_nil h, next_nil h]
  | cons x b =>
    rw [List.length_cons, left]
    cases hnext : next (x :: b) with
    | none => rfl
    | some p =>
      have hlt := h (x :: b) p.1 p.2 hnext
      rw [List.length_cons] at hlt
      exact left_fuel h (by omega) le_rfl

/-- **More octets bring more items**, and leave the ones there were. -/
theorem items_append (h : Shrinks next)
    (hmore : ∀ b a rest more, next b = some (a, rest) → next (b ++ more) = some (a, rest ++ more))
    (b more : Bytes) : items next (b ++ more).length (b ++ more) =
      items next b.length b ++ items next (left next b.length b ++ more).length
        (left next b.length b ++ more) := by
  suffices hfuel : ∀ fuel b, b.length ≤ fuel → items next (b ++ more).length (b ++ more) =
      items next b.length b ++ items next (left next fuel b ++ more).length
        (left next fuel b ++ more) from hfuel _ b le_rfl
  intro fuel
  induction fuel with
  | zero =>
    intro b hb
    rw [List.eq_nil_of_length_eq_zero (Nat.le_zero.mp hb), items_nil h, left, List.nil_append,
      List.nil_append]
  | succ fuel ih =>
    intro b hb
    rw [items_eq h b, left]
    cases hnext : next b with
    | none => rfl
    | some p =>
      have hlt := h b p.1 p.2 hnext
      rw [items_eq h, hmore b p.1 p.2 more hnext]
      exact congrArg (p.1 :: ·) (ih p.2 (by omega))

/-- **What is left** holds no further item. -/
theorem next_left (h : Shrinks next) {fuel : ℕ} {b : Bytes} (hfuel : b.length ≤ fuel) :
    next (left next fuel b) = none := by
  induction fuel generalizing b with
  | zero => rw [List.eq_nil_of_length_eq_zero (Nat.le_zero.mp hfuel), left, next_nil h]
  | succ fuel ih =>
    rw [left]
    cases hnext : next b with
    | none => exact hnext
    | some p =>
      have hlt := h b p.1 p.2 hnext
      exact ih (by omega)

theorem forall_items {P : α → Prop} (h : ∀ b a rest, next b = some (a, rest) → P a) (fuel : ℕ)
    (b : Bytes) : ∀ a ∈ items next fuel b, P a := by
  induction fuel generalizing b with
  | zero => simp [items]
  | succ fuel ih =>
    rw [items]
    cases hnext : next b with
    | none => simp
    | some p => exact List.forall_mem_cons.mpr ⟨h b p.1 p.2 hnext, ih p.2⟩

/-- **Nothing is lost**: the octets of the items and what is left are the string. -/
theorem flatMap_raw {raw : α → Bytes} (h : ∀ b a rest, next b = some (a, rest) → b = raw a ++ rest)
    (fuel : ℕ) (b : Bytes) : (items next fuel b).flatMap raw ++ left next fuel b = b := by
  induction fuel generalizing b with
  | zero => rfl
  | succ fuel ih =>
    rw [items, left]
    cases hnext : next b with
    | none => rfl
    | some p =>
      change raw p.1 ++ (items next fuel p.2).flatMap raw ++ left next fuel p.2 = b
      rw [List.append_assoc, ih, ← h b p.1 p.2 hnext]

/-! ## Parts of a string -/

/-- The parts lie in the string one after another, with anything between them. -/
inductive InOrder : List Bytes → Bytes → Prop
  | nil (b : Bytes) : InOrder [] b
  | cons (gap part : Bytes) {parts : List Bytes} {rest : Bytes} :
      InOrder parts rest → InOrder (part :: parts) (gap ++ (part ++ rest))

theorem InOrder.skip {parts : List Bytes} {b : Bytes} (h : InOrder parts b) (gap : Bytes) :
    InOrder parts (gap ++ b) := by
  cases h with
  | nil => exact .nil _
  | cons gap' part h =>
    rw [← List.append_assoc]
    exact .cons _ part h

/-- **The items are disjoint parts of the string, in order**, where each lies in front of what is left
for the next. -/
theorem inOrder_items {part : α → Bytes}
    (h : ∀ b a rest, next b = some (a, rest) → ∃ gap pad, b = gap ++ (part a ++ (pad ++ rest)))
    (fuel : ℕ) (b : Bytes) : InOrder ((items next fuel b).map part) b := by
  induction fuel generalizing b with
  | zero => exact .nil b
  | succ fuel ih =>
    rw [items]
    cases hnext : next b with
    | none => exact .nil b
    | some p =>
      obtain ⟨gap, pad, hb⟩ := h b p.1 p.2 hnext
      rw [hb]
      exact .cons gap (part p.1) ((ih p.2).skip pad)

/-- **A walk over items written one after another yields them.** -/
theorem items_flatMap {β : Type*} {write : β → Bytes} {item : β → α} (hs : Shrinks next)
    {l : List β} (h : ∀ x ∈ l, ∀ rest, next (write x ++ rest) = some (item x, rest)) :
    items next (l.flatMap write).length (l.flatMap write) = l.map item := by
  induction l with
  | nil => exact items_nil hs _
  | cons x l ih =>
    rw [List.forall_mem_cons] at h
    rw [items_eq hs, List.flatMap_cons, h.1, List.map_cons]
    exact congrArg (item x :: ·) (ih h.2)

theorem left_flatMap {β : Type*} {write : β → Bytes} {item : β → α} (hs : Shrinks next)
    {l : List β} (h : ∀ x ∈ l, ∀ rest, next (write x ++ rest) = some (item x, rest)) :
    left next (l.flatMap write).length (l.flatMap write) = [] := by
  induction l with
  | nil => exact left_nil hs _
  | cons x l ih =>
    rw [List.forall_mem_cons] at h
    rw [left_eq hs, List.flatMap_cons, h.1]
    exact ih h.2

end Walk
