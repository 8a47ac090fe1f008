import Caw.Lib.Octets
import Mathlib.Data.List.Induction

/-!
# Base 64

Octet strings regrouped into sextets, three octets to four, over any alphabet.

* `digits`, `ofDigits`: the sextets of a number, with **`ofDigits_digits`**, **`digits_ofDigits`**;
* `sextets`, `octets`: the sextets of octets, and the octets of sextets, the last group short;
* `slack`: the bits of the last sextet that no octet takes up;
* **`octets_sextets`**, **`sextets_octets`**: inverse where there is no slack;
* `text`: letters and then padding, with **`text_inj`**;
* `encode`: the canonical text, with **`eq_encode_iff`**.
-/

set_option autoImplicit false

namespace Base64

/-! ## Numbers in base 64 -/

/-- The low `n` sextets of a number, the most significant first. -/
def digits : ℕ → ℕ → List ℕ
  | 0, _ => []
  | n + 1, v => v / 64 ^ n % 64 :: digits n v

/-- The number sextets denote. -/
def ofDigits (l : List ℕ) : ℕ := l.foldl (fun acc v => acc * 64 + v) 0

@[simp] theorem length_digits (n v : ℕ) : (digits n v).length = n := by
  induction n with
  | zero => rfl
  | succ n ih => rw [digits, List.length_cons, ih]

theorem digits_lt {n v d : ℕ} (h : d ∈ digits n v) : d < 64 := by
  induction n with
  | zero => cases h
  | succ n ih =>
    rcases List.mem_cons.mp h with rfl | h
    · exact Nat.mod_lt _ (by decide)
    · exact ih h

@[simp] theorem ofDigits_nil : ofDigits [] = 0 := rfl

theorem ofDigits_concat (l : List ℕ) (v : ℕ) : ofDigits (l ++ [v]) = ofDigits l * 64 + v := by
  rw [ofDigits, List.foldl_append]
  rfl

theorem digits_succ (n v : ℕ) : digits (n + 1) v = digits n (v / 64) ++ [v % 64] := by
  induction n with
  | zero => simp [digits]
  | succ n ih =>
    rw [digits, ih, digits, List.cons_append, Nat.div_div_eq_div_mul, ← pow_succ']

theorem ofDigits_digits (n v : ℕ) : ofDigits (digits n v) = v % 64 ^ n := by
  induction n generalizing v with
  | zero => simp [digits, Nat.mod_one]
  | succ n ih =>
    rw [digits_succ, ofDigits_concat, ih, pow_succ', Nat.mod_mul]
    ring

theorem digits_ofDigits {l : List ℕ} (h : ∀ v ∈ l, v < 64) : digits l.length (ofDigits l) = l := by
  induction l using List.reverseRecOn with
  | nil => rfl
  | append_singleton l v ih =>
    have hv : v < 64 := h v (by simp)
    rw [List.length_append, List.length_singleton, digits_succ, ofDigits_concat,
      show (ofDigits l * 64 + v) / 64 = ofDigits l by omega,
      show (ofDigits l * 64 + v) % 64 = v by omega, ih fun w hw => h w (List.mem_append_left _ hw)]

theorem ofDigits_lt {l : List ℕ} (h : ∀ v ∈ l, v < 64) : ofDigits l < 64 ^ l.length := by
  induction l using List.reverseRecOn with
  | nil => decide
  | append_singleton l v ih =>
    have hv : v < 64 := h v (by simp)
    have hl := ih fun w hw => h w (List.mem_append_left _ hw)
    rw [List.length_append, List.length_singleton, ofDigits_concat, pow_succ]
    omega

/-! ## Regrouping -/

/-- The sextets of octets. A short group is filled up with zero bits. -/
def sextets : Bytes → List ℕ
  | a :: b :: c :: rest => digits 4 (Bytes.ofBE [a, b, c]) ++ sextets rest
  | [a, b] => digits 3 (Bytes.ofBE [a, b] * 4)
  | [a] => digits 2 (Bytes.ofBE [a] * 16)
  | [] => []

/-- The octets of sextets. Of a short group, the bits that fill no octet are dropped. -/
def octets : List ℕ → Bytes
  | w :: x :: y :: z :: rest => Bytes.toBE 3 (ofDigits [w, x, y, z]) ++ octets rest
  | [w, x, y] => Bytes.toBE 2 (ofDigits [w, x, y] / 4)
  | [w, x] => Bytes.toBE 1 (ofDigits [w, x] / 16)
  | [_] => []
  | [] => []

/-- The bits that `octets` drops. -/
def slack : List ℕ → ℕ
  | _ :: _ :: _ :: _ :: rest => slack rest
  | [_, _, y] => y % 4
  | [_, x] => x % 16
  | [_] => 0
  | [] => 0

/-- The signs that fill up the last group. -/
def padding (n : ℕ) : ℕ := (4 - n % 4) % 4

theorem sextets_lt {b : Bytes} {v : ℕ} (h : v ∈ sextets b) : v < 64 := by
  induction b using sextets.induct with
  | case1 a b c rest ih =>
    rcases List.mem_append.mp h with h | h
    · exact digits_lt h
    · exact ih h
  | case2 a b => exact digits_lt h
  | case3 a => exact digits_lt h
  | case4 => cases h

theorem length_sextets_mod (b : Bytes) : (sextets b).length % 4 ≠ 1 := by
  induction b using sextets.induct with
  | case1 a b c rest ih => simpa [sextets] using ih
  | case2 a b => simp [sextets]
  | case3 a => simp [sextets]
  | case4 => simp [sextets]

theorem slack_sextets (b : Bytes) : slack (sextets b) = 0 := by
  induction b using sextets.induct with
  | case1 a b c rest ih => simpa [sextets, digits, slack] using ih
  | case2 a b =>
    simp only [sextets, digits, slack]
    omega
  | case3 a =>
    simp only [sextets, digits, slack]
    omega
  | case4 => rfl

/-- A number of `n` octets that is a multiple of `k`, through its sextets. -/
theorem toBE_ofDigits (b : Bytes) {n k : ℕ} (hk : 0 < k) (h : 256 ^ b.length * k ≤ 64 ^ n) :
    Bytes.toBE b.length (ofDigits (digits n (Bytes.ofBE b * k)) / k) = b := by
  have hlt : Bytes.ofBE b * k < 64 ^ n :=
    lt_of_lt_of_le (Nat.mul_lt_mul_of_pos_right (Bytes.ofBE_lt b) hk) h
  rw [ofDigits_digits, Nat.mod_eq_of_lt hlt, Nat.mul_div_cancel _ hk, Bytes.toBE_ofBE]

/-- **The octets come back.** -/
theorem octets_sextets (b : Bytes) : octets (sextets b) = b := by
  induction b using sextets.induct with
  | case1 a b c rest ih =>
    have hgroup := toBE_ofDigits [a, b, c] (n := 4) (k := 1) (by decide) (by simp)
    rw [Nat.mul_one, Nat.div_one] at hgroup
    rw [sextets]
    exact congrArg₂ (· ++ ·) hgroup ih
  | case2 a b => exact toBE_ofDigits [a, b] (n := 3) (k := 4) (by decide) (by simp)
  | case3 a => exact toBE_ofDigits [a] (n := 2) (k := 16) (by decide) (by simp)
  | case4 => rfl

theorem digits_ofBE {l : List ℕ} (hl : ∀ v ∈ l, v < 64) {n k : ℕ} (h : 64 ^ l.length ≤ 256 ^ n * k)
    (hk : ofDigits l % k = 0) :
    digits l.length (Bytes.ofBE (Bytes.toBE n (ofDigits l / k)) * k) = l := by
  have hlt : ofDigits l / k < 256 ^ n := by
    refine Nat.div_lt_of_lt_mul (lt_of_lt_of_le (ofDigits_lt hl) ?_)
    rwa [Nat.mul_comm]
  rw [Bytes.ofBE_toBE, Nat.mod_eq_of_lt hlt, Nat.div_mul_cancel (Nat.dvd_of_mod_eq_zero hk),
    digits_ofDigits hl]

/-- **So do the sextets**, without slack. -/
theorem sextets_octets {l : List ℕ} (hl : ∀ v ∈ l, v < 64) (hlen : l.length % 4 ≠ 1)
    (hslack : slack l = 0) : sextets (octets l) = l := by
  induction l using octets.induct with
  | case1 w x y z rest ih =>
    have hgroup := digits_ofBE (l := [w, x, y, z]) (n := 3) (k := 1)
      (fun v hv => hl v (by simp at hv ⊢; tauto)) (by simp) (Nat.mod_one _)
    rw [Nat.mul_one, Nat.div_one] at hgroup
    have hlen' : rest.length % 4 ≠ 1 := by
      simp only [List.length_cons] at hlen
      omega
    exact congrArg₂ (· ++ ·) hgroup (ih (fun v hv => hl v (by simp [hv])) hlen' hslack)
  | case2 w x y =>
    refine digits_ofBE (l := [w, x, y]) (n := 2) (k := 4) hl (by simp) ?_
    simp only [slack] at hslack
    simp only [ofDigits, List.foldl_cons, List.foldl_nil]
    omega
  | case3 w x =>
    refine digits_ofBE (l := [w, x]) (n := 1) (k := 16) hl (by simp) ?_
    simp only [slack] at hslack
    simp only [ofDigits, List.foldl_cons, List.foldl_nil]
    omega
  | case4 w => exact absurd rfl hlen
  | case5 => rfl

theorem octets_append {l : List ℕ} (h : l.length % 4 = 0) (l' : List ℕ) :
    octets (l ++ l') = octets l ++ octets l' := by
  induction l using octets.induct with
  | case1 w x y z rest ih =>
    have hrest : rest.length % 4 = 0 := by
      simp only [List.length_cons] at h
      omega
    simp only [List.cons_append, octets, ih hrest, List.append_assoc]
  | case2 w x y => exact absurd h (by simp)
  | case3 w x => exact absurd h (by simp)
  | case4 w => exact absurd h (by simp)
  | case5 => rfl

/-! ## Letters -/

section Letters

variable (letter : ℕ → UInt8) (pad : UInt8)

/-- Letters, and then `k` signs of padding. -/
def text (l : List ℕ) (k : ℕ) : Bytes := l.map letter ++ List.replicate k pad

/-- The canonical text of octets. -/
def encode (b : Bytes) : Bytes := text letter pad (sextets b) (padding (sextets b).length)

variable {letter pad}

theorem text_concat_letter (l : List ℕ) (v : ℕ) :
    text letter pad l 0 ++ [letter v] = text letter pad (l ++ [v]) 0 := by
  simp [text]

theorem text_concat_pad (l : List ℕ) (k : ℕ) :
    text letter pad l k ++ [pad] = text letter pad l (k + 1) := by
  rw [text, text, List.append_assoc, ← List.replicate_succ']

variable (hpad : ∀ v, v < 64 → letter v ≠ pad)
  (hinj : ∀ v w, v < 64 → w < 64 → letter v = letter w → v = w)

include hpad hinj

/-- **A text is of one list of sextets**, with one padding. -/
theorem text_inj {l l' : List ℕ} {k k' : ℕ} (hl : ∀ v ∈ l, v < 64) (hl' : ∀ v ∈ l', v < 64)
    (h : text letter pad l k = text letter pad l' k') : l = l' ∧ k = k' := by
  induction l generalizing l' with
  | nil =>
    cases l' with
    | nil => exact ⟨rfl, by simpa [text] using congrArg List.length h⟩
    | cons v l' =>
      cases k with
      | zero => simp [text] at h
      | succ k =>
        simp only [text, List.map_nil, List.nil_append, List.replicate_succ, List.map_cons,
          List.cons_append, List.cons.injEq] at h
        exact absurd h.1.symm (hpad v (hl' v (by simp)))
  | cons w l ih =>
    cases l' with
    | nil =>
      cases k' with
      | zero => simp [text] at h
      | succ k' =>
        simp only [text, List.map_nil, List.nil_append, List.replicate_succ, List.map_cons,
          List.cons_append, List.cons.injEq] at h
        exact absurd h.1 (hpad w (hl w (by simp)))
    | cons v l' =>
      rw [List.forall_mem_cons] at hl hl'
      simp only [text, List.map_cons, List.cons_append, List.cons.injEq] at h
      obtain ⟨rfl, rfl⟩ := ih hl.2 hl'.2 h.2
      exact ⟨congrArg (· :: l) (hinj w v hl.1 hl'.1 h.1), rfl⟩

/-- **A text is canonical** if the padding fills the last group and there is no slack. -/
theorem eq_encode_iff {l : List ℕ} {k : ℕ} (hl : ∀ v ∈ l, v < 64) (hlen : l.length % 4 ≠ 1)
    {b : Bytes} : text letter pad l k = encode letter pad b ↔
      (k = padding l.length ∧ slack l = 0) ∧ b = octets l := by
  constructor
  · intro h
    obtain ⟨rfl, rfl⟩ := text_inj hpad hinj hl (fun v hv => sextets_lt hv) h
    exact ⟨⟨rfl, slack_sextets b⟩, (octets_sextets b).symm⟩
  · rintro ⟨⟨rfl, hslack⟩, rfl⟩
    rw [encode, sextets_octets hl hlen hslack]

end Letters

end Base64
