import Mathlib.Data.List.Basic
import Mathlib.Tactic.SplitIfs

/-!
# Optional fields, one behind the other

A string of optional fields has them in a fixed order, and may stop anywhere. Two ways to read it: the
*reading* ends for good with the first field that does not fit; the *cursor* stays where it is, and
goes on with the next field from there.

* `Fields.field`, `Fields.list`: a field and a counted list of the reading, whose state is the rest of
  the string while it goes on;
* `Fields.stay`, `Fields.stayList`: the same of the cursor;
* `Fields.Tracks`: the cursor is where the reading is, or the reading has ended and the cursor is left
  with too little for any field;
* **`Tracks.field`**, **`Tracks.list`**: a cursor that tracks the reading reads the same;
* **`tracks_field_iff`**, **`Tracks.list_iff`**: where it keeps tracking it.
-/

set_option autoImplicit false

namespace Fields

variable {β α : Type*}

/-! ## The reading -/

/-- A field of `n` elements, or its default. -/
def field (n : ℕ) (f : List β → α) (dflt : α) : Option (List β) → α × Option (List β)
  | none => (dflt, none)
  | some b => if b.length < n then (dflt, none) else (f (b.take n), some (b.drop n))

/-- The first items of `w` elements each. -/
def items (w : ℕ) (f : List β → α) : ℕ → List β → List α
  | 0, _ => []
  | k + 1, b => f (b.take w) :: items w f k (b.drop w)

/-- As many whole items as there are, up to a count. -/
def whole (w count : ℕ) (b : List β) : ℕ := min count (b.length / w)

/-- A counted list: the count in `h` elements, then items of `w`. Where there are fewer than it counts,
it is the whole items there are, and the reading ends. -/
def list (h w : ℕ) (num : List β → ℕ) (f : List β → α) (dflt : List α) :
    Option (List β) → List α × Option (List β)
  | none => (dflt, none)
  | some b =>
    if b.length < h then (dflt, none)
    else
      (items w f (whole w (num (b.take h)) (b.drop h)) (b.drop h),
        if (b.drop h).length < w * num (b.take h) then none
        else some ((b.drop h).drop (w * num (b.take h))))

/-! ## The cursor -/

/-- A field, or its default and no step. -/
def stay (n : ℕ) (f : List β → α) (dflt : α) (b : List β) : α × List β :=
  if b.length < n then (dflt, b) else (f (b.take n), b.drop n)

/-- A counted list, or its default and no step. -/
def stayList (h w : ℕ) (num : List β → ℕ) (f : List β → α) (dflt : List α) (b : List β) :
    List α × List β :=
  if b.length < h then (dflt, b)
  else
    (items w f (whole w (num (b.take h)) (b.drop h)) (b.drop h),
      (b.drop h).drop (w * whole w (num (b.take h)) (b.drop h)))

/-! ## The two -/

/-- The cursor is where the reading is, or the reading has ended and what is left has fewer than
`least` elements. -/
def Tracks (least : ℕ) (b : List β) (r : Option (List β)) : Prop :=
  r = some b ∨ (r = none ∧ b.length < least)

theorem tracks_some (least : ℕ) (b : List β) : Tracks least b (some b) := .inl rfl

theorem tracks_none {least : ℕ} {b : List β} : Tracks least b none ↔ b.length < least := by
  simp [Tracks]

variable {least n h w : ℕ} {f : List β → α} {dflt : α} {dflts : List α} {num : List β → ℕ}
  {b : List β} {r : Option (List β)}

theorem stay_of_lt (hlt : b.length < n) : stay n f dflt b = (dflt, b) := if_pos hlt

theorem stayList_of_lt (hlt : b.length < h) : stayList h w num f dflts b = (dflts, b) := if_pos hlt

theorem stay_fst : (stay n f dflt b).1 = (field n f dflt (some b)).1 := by
  rw [stay, field]
  split_ifs <;> rfl

theorem stayList_fst : (stayList h w num f dflts b).1 = (list h w num f dflts (some b)).1 := by
  rw [stayList, list]
  split_ifs <;> rfl

/-- **A cursor that tracks the reading reads the same field.** -/
theorem Tracks.field (ht : Tracks least b r) (hn : least ≤ n) :
    (stay n f dflt b).1 = (Fields.field n f dflt r).1 := by
  rcases ht with rfl | ⟨rfl, hshort⟩
  · exact stay_fst
  · rw [stay_of_lt (by omega)]
    rfl

/-- **And the same list.** -/
theorem Tracks.list (ht : Tracks least b r) (hh : least ≤ h) :
    (stayList h w num f dflts b).1 = (Fields.list h w num f dflts r).1 := by
  rcases ht with rfl | ⟨rfl, hshort⟩
  · exact stayList_fst
  · rw [stayList_of_lt (by omega)]
    rfl

/-- **A field keeps the cursor on track** unless it is cut short with something left. -/
theorem tracks_field_iff : Tracks least (stay n f dflt b).2 (Fields.field n f dflt (some b)).2 ↔
    (b.length < n → b.length < least) := by
  by_cases hlt : b.length < n
  · rw [stay, Fields.field, if_pos hlt, if_pos hlt, tracks_none]
    exact ⟨fun hshort _ => hshort, fun hshort => hshort hlt⟩
  · rw [stay, Fields.field, if_neg hlt, if_neg hlt]
    exact ⟨fun _ hlt' => absurd hlt' hlt, fun _ => tracks_some _ _⟩

/-- The list is cut short. -/
def Overruns (h w : ℕ) (num : List β → ℕ) (b : List β) : Prop :=
  h ≤ b.length ∧ (b.drop h).length < w * num (b.take h)

instance (h w : ℕ) (num : List β → ℕ) (b : List β) : Decidable (Overruns h w num b) :=
  inferInstanceAs (Decidable (_ ∧ _))

/-- What is behind the whole items of a list that is cut short. -/
def leftover (h w : ℕ) (b : List β) : List β := (b.drop h).drop (w * ((b.drop h).length / w))

/-- What is behind a list that is not. -/
def behind (h w : ℕ) (num : List β → ℕ) (b : List β) : List β := (b.drop h).drop (w * num (b.take h))

theorem whole_of_lt {count : ℕ} (hlt : b.length < w * count) : whole w count b = b.length / w := by
  rw [whole, Nat.min_eq_right]
  exact Nat.le_of_lt (Nat.div_lt_of_lt_mul hlt)

theorem whole_of_le {count : ℕ} (hw : 0 < w) (hle : w * count ≤ b.length) :
    whole w count b = count := by
  rw [whole, Nat.min_eq_left]
  exact (Nat.le_div_iff_mul_le hw).mpr (by rwa [Nat.mul_comm])

theorem stayList_of_overruns (f : List β → α) (dflts : List α) (ho : Overruns h w num b) :
    (stayList h w num f dflts b).2 = leftover h w b ∧
      (Fields.list h w num f dflts (some b)).2 = none := by
  have hnot : ¬ b.length < h := Nat.not_lt.mpr ho.1
  rw [stayList, Fields.list, if_neg hnot, if_neg hnot, if_pos ho.2, whole_of_lt ho.2]
  exact ⟨rfl, rfl⟩

theorem stayList_of_fits (f : List β → α) (dflts : List α) (hw : 0 < w) (hle : h ≤ b.length)
    (ho : ¬ Overruns h w num b) :
    (stayList h w num f dflts b).2 = behind h w num b ∧
      (Fields.list h w num f dflts (some b)).2 = some (behind h w num b) := by
  have hnot : ¬ b.length < h := Nat.not_lt.mpr hle
  have hfits : ¬ (b.drop h).length < w * num (b.take h) := fun hlt => ho ⟨hle, hlt⟩
  rw [stayList, Fields.list, if_neg hnot, if_neg hnot, if_neg hfits,
    whole_of_le hw (Nat.le_of_not_lt hfits)]
  exact ⟨rfl, rfl⟩

theorem not_overruns_nil (hh : 0 < h) : ¬ Overruns h w num [] := fun ho => absurd ho.1 (Nat.not_le.mpr hh)

/-- **A list keeps the cursor on track** unless it is cut short with something left. -/
theorem Tracks.list_iff (ht : Tracks least b r) (hh : h = least) (hw : 0 < w) (hpos : 0 < least) :
    Tracks least (stayList h w num f dflts b).2 (Fields.list h w num f dflts r).2 ↔
      (Overruns h w num (r.getD []) → (leftover h w (r.getD [])).length < least) := by
  subst hh
  rcases ht with rfl | ⟨rfl, hshort⟩
  · rw [Option.getD_some]
    by_cases hlt : b.length < h
    · have hno : ¬ Overruns h w num b := fun ho => absurd ho.1 (Nat.not_le.mpr hlt)
      rw [stayList_of_lt hlt, Fields.list, if_pos hlt, tracks_none]
      exact ⟨fun _ ho => absurd ho hno, fun _ => hlt⟩
    · by_cases ho : Overruns h w num b
      · obtain ⟨hstay, hread⟩ := stayList_of_overruns f dflts ho
        rw [hstay, hread, tracks_none]
        exact ⟨fun hshort _ => hshort, fun hshort => hshort ho⟩
      · obtain ⟨hstay, hread⟩ := stayList_of_fits f dflts hw (Nat.le_of_not_lt hlt) ho
        rw [hstay, hread]
        exact ⟨fun _ ho' => absurd ho' ho, fun _ => tracks_some _ _⟩
  · rw [stayList_of_lt hshort, Fields.list, tracks_none]
    exact ⟨fun _ ho => absurd ho (not_overruns_nil hpos), fun _ => hshort⟩

/-! ## What is left to read -/

theorem getD_field : (Fields.field n f dflt r).2.getD [] = (r.getD []).drop n := by
  cases r with
  | none => rw [Fields.field, Option.getD_none, List.drop_nil]
  | some b =>
    rw [Fields.field, Option.getD_some]
    split_ifs with hlt
    · rw [Option.getD_none, List.drop_of_length_le (Nat.le_of_lt hlt)]
    · rfl

theorem getD_list : (Fields.list h w num f dflts r).2.getD [] = behind h w num (r.getD []) := by
  cases r with
  | none => rw [Fields.list, behind, Option.getD_none, List.drop_nil, List.drop_nil]
  | some b =>
    rw [Fields.list, behind, Option.getD_some]
    split_ifs with hshort hlt
    · rw [Option.getD_none, List.drop_of_length_le (Nat.le_of_lt hshort), List.drop_nil]
    · rw [Option.getD_none, List.drop_of_length_le (Nat.le_of_lt hlt)]
    · rfl

theorem field_fst_of_none (hr : (Fields.field n f dflt r).2 = none) :
    (Fields.field n f dflt r).1 = dflt := by
  cases r with
  | none => rfl
  | some b =>
    rw [Fields.field] at hr ⊢
    split_ifs at hr ⊢ with hlt
    rfl

theorem stayList_short (hle : h ≤ b.length) (hlt : b.length < h + w) :
    (stayList h w num f dflts b).1 = [] := by
  have hnone : (b.drop h).length / w = 0 := by
    rw [List.length_drop, Nat.div_eq_zero_iff]
    omega
  rw [stayList, if_neg (Nat.not_lt.mpr hle), whole, hnone, Nat.min_zero, items]

/-! ## What was written -/

theorem stay_append (a rest : List β) (hlen : a.length = n) :
    stay n f dflt (a ++ rest) = (f a, rest) := by
  rw [stay, if_neg (by rw [List.length_append]; omega), List.take_left' hlen, List.drop_left' hlen]

theorem stayList_singleton (hw : 0 < w) (c a rest : List β) (hc : c.length = h)
    (ha : a.length = w) (hnum : num c = 1) :
    stayList h w num f dflts (c ++ (a ++ rest)) = ([f a], rest) := by
  have hshort : ¬ (c ++ (a ++ rest)).length < h := by
    rw [List.length_append]
    omega
  have hfits : w * 1 ≤ (a ++ rest).length := by
    rw [List.length_append]
    omega
  rw [stayList, if_neg hshort, List.take_left' hc, List.drop_left' hc, hnum, whole_of_le hw hfits,
    Nat.mul_one, List.drop_left' ha, items, items, List.take_left' ha]

end Fields
