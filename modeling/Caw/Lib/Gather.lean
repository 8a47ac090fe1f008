import Mathlib.Data.List.Induction
import Mathlib.Data.List.Nodup

/-!
# Gathering records by key

Records come one at a time; each is merged into the entry with its key, or starts a new one.

* `Gather.put`, `Gather.all`: one record, and a list of them;
* `Gather.keys_put`, **`Gather.find_all`**: the keys stay distinct, and the entry of a key is made of the
  records with that key, in their order;
* `Gather.sorted`, **`Gather.sorted_eq`**: entries sorted by key are determined by what there is for each
  key;
* **`Gather.pairwise_sorted`**: and every key is there once.
-/

set_option autoImplicit false

namespace Gather

variable {A B K : Type*}

section Put

variable [DecidableEq K] (key : B → K) (keyOf : A → K) (make : A → B) (merge : A → B → B)

/-- One record more: into the first entry with its key, or behind the others. -/
def put : List B → A → List B
  | [], a => [make a]
  | b :: bs, a => if key b = keyOf a then merge a b :: bs else b :: put bs a

/-- The entries of a list of records. -/
def all (as : List A) : List B := as.foldl (put key keyOf make merge) []

/-- One record more for an entry that may be there already. -/
def into (o : Option B) (a : A) : Option B := some (o.elim (make a) (merge a))

variable {key keyOf make merge} (hmake : ∀ a, key (make a) = keyOf a)
  (hmerge : ∀ a b, key (merge a b) = key b)

include hmake hmerge

theorem keys_put (bs : List B) (a : A) : (put key keyOf make merge bs a).map key =
    if keyOf a ∈ bs.map key then bs.map key else bs.map key ++ [keyOf a] := by
  induction bs with
  | nil => simp [put, hmake]
  | cons b bs ih =>
    rw [put]
    by_cases hb : key b = keyOf a
    · simp [hb, hmerge]
    · rw [if_neg hb, List.map_cons, ih, List.map_cons]
      by_cases hmem : keyOf a ∈ bs.map key
      · rw [if_pos hmem, if_pos (List.mem_cons_of_mem _ hmem)]
      · rw [if_neg hmem, if_neg (by simpa [Ne.symm hb] using hmem), List.cons_append]

theorem nodup_put {bs : List B} (h : (bs.map key).Nodup) (a : A) :
    ((put key keyOf make merge bs a).map key).Nodup := by
  rw [keys_put hmake hmerge]
  split_ifs with hmem
  · exact h
  · exact List.nodup_append.mpr ⟨h, List.nodup_singleton _, fun k hk k' hk' heq => by
      rw [heq, List.mem_singleton.mp hk'] at hk
      exact hmem hk⟩

theorem find_put (bs : List B) (a : A) (k : K) :
    (put key keyOf make merge bs a).find? (fun b => key b = k) =
      if keyOf a = k then into make merge (bs.find? fun b => key b = k) a
      else bs.find? fun b => key b = k := by
  induction bs with
  | nil =>
    by_cases hk : keyOf a = k
    · simp [put, hmake, hk, into]
    · simp [put, hmake, hk]
  | cons b bs ih =>
    rw [put]
    by_cases hb : key b = keyOf a
    · rw [if_pos hb]
      by_cases hk : keyOf a = k
      · simp [hmerge, hb, hk, into]
      · simp [hmerge, hb, hk]
    · rw [if_neg hb]
      by_cases hk : key b = k
      · simp [hk, show keyOf a ≠ k from fun h => hb (hk.trans h.symm)]
      · simpa [hk] using ih

theorem nodup_all (as : List A) : ((all key keyOf make merge as).map key).Nodup := by
  rw [all]
  induction as using List.reverseRecOn with
  | nil => exact List.nodup_nil
  | append_singleton as a ih =>
    rw [List.foldl_append]
    exact nodup_put hmake hmerge ih a

/-- **The entry of a key** is made of the records with that key. -/
theorem find_all (as : List A) (k : K) :
    (all key keyOf make merge as).find? (fun b => key b = k) =
      (as.filter fun a => keyOf a = k).foldl (into make merge) none := by
  rw [all]
  induction as using List.reverseRecOn with
  | nil => rfl
  | append_singleton as a ih =>
    rw [List.foldl_append, List.filter_append, List.foldl_append, List.foldl_cons, List.foldl_nil,
      find_put hmake hmerge, ih]
    by_cases hk : keyOf a = k
    · simp [hk]
    · simp [hk]

end Put

/-! ## Sorted by key -/

section Sorted

variable (le : K → K → Bool) (key : B → K)

/-- The entries in the order of their keys. -/
def sorted (bs : List B) : List B := bs.mergeSort fun a b => le (key a) (key b)

variable {le key}

theorem mem_sorted {bs : List B} {b : B} : b ∈ sorted le key bs ↔ b ∈ bs := List.mem_mergeSort

variable [DecidableEq K] in
theorem mem_iff_find {bs : List B} (h : (bs.map key).Nodup) (b : B) :
    b ∈ bs ↔ bs.find? (fun b' => key b' = key b) = some b := by
  constructor
  · intro hmem
    obtain ⟨b', hb'⟩ : ∃ b', bs.find? (fun b' => key b' = key b) = some b' :=
      Option.isSome_iff_exists.mp (List.find?_isSome.mpr ⟨b, hmem, by simp⟩)
    have hkey : key b' = key b := by simpa using List.find?_some hb'
    rw [hb', List.inj_on_of_nodup_map h (List.mem_of_find?_eq_some hb') hmem hkey]
  · exact List.mem_of_find?_eq_some

variable (htrans : ∀ a b c, le a b → le b c → le a c) (htotal : ∀ a b, le a b || le b a)
  (hanti : ∀ a b, le a b → le b a → a = b)

include htrans htotal

/-- **Every key is there once**, in order. -/
theorem pairwise_sorted {bs : List B} (h : (bs.map key).Nodup) :
    (sorted le key bs).Pairwise fun a b => le (key a) (key b) ∧ key a ≠ key b := by
  have hle : (sorted le key bs).Pairwise fun a b => le (key a) (key b) :=
    List.pairwise_mergeSort (fun a b c => htrans (key a) (key b) (key c))
      (fun a b => htotal (key a) (key b)) bs
  have hne : (sorted le key bs).Pairwise fun a b => key a ≠ key b :=
    List.pairwise_map.mp (((List.mergeSort_perm bs _).map key).symm.nodup h)
  exact hle.and hne

include hanti

variable [DecidableEq K] in
/-- **Sorted entries are determined by what there is for each key.** -/
theorem sorted_eq {bs cs : List B} (hb : (bs.map key).Nodup) (hc : (cs.map key).Nodup)
    (h : ∀ k, bs.find? (fun b => key b = k) = cs.find? fun b => key b = k) :
    sorted le key bs = sorted le key cs := by
  have hmem : ∀ b, b ∈ bs ↔ b ∈ cs := fun b => by
    rw [mem_iff_find hb, mem_iff_find hc, h]
  have hperm : bs.Perm cs :=
    (List.perm_ext_iff_of_nodup (List.Nodup.of_map key hb) (List.Nodup.of_map key hc)).mpr hmem
  refine List.Perm.eq_of_pairwise (fun a b ha hb' hab hba => ?_)
    ((pairwise_sorted htrans htotal hb).imp And.left) ((pairwise_sorted htrans htotal hc).imp And.left)
    ((List.mergeSort_perm bs _).trans (hperm.trans (List.mergeSort_perm cs _).symm))
  have ha' : a ∈ bs := mem_sorted.mp ha
  have hb'' : b ∈ bs := (hmem b).mpr (mem_sorted.mp hb')
  exact List.inj_on_of_nodup_map hb ha' hb'' (hanti _ _ hab hba)

end Sorted

end Gather
