import Mathlib.Data.Vector.Basic
import Mathlib.Data.List.TakeDrop
import Mathlib.Tactic.Ring

/-!
# Octet strings

Byte strings, fixed-width octet arrays and the big- and little-endian codecs.

* `Bytes`, `Octets n`: a byte string, and one of length `n`;
* `ofBE`, `toBE`: the number a big-endian string denotes, and the `n`-octet string of a number;
* **`ofBE_toBE`**, **`toBE_ofBE`**: the two are inverse on numbers below `256 ^ n`;
* `slice`: the `n` octets at an offset, with `slice_append_right` and `slice_zero_append` for
  reading a field back out of a concatenation;
* `splice`: a string with one field overwritten.
-/

/-- A byte string. -/
abbrev Bytes : Type := List UInt8

/-- An octet array of fixed length. -/
abbrev Octets (n : ℕ) : Type := List.Vector UInt8 n

namespace Octets

/-- The array of `n` zero octets. -/
def zero (n : ℕ) : Octets n := List.Vector.replicate n 0

/-- The bytewise order, as a `memcmp` gives it. -/
def lt {n : ℕ} (a b : Octets n) : Bool := decide (a.toList < b.toList)

theorem eq_of_not_lt {n : ℕ} {a b : Octets n} (hab : lt a b = false) (hba : lt b a = false) :
    a = b := by
  simp only [lt, decide_eq_false_iff_not, List.not_lt] at hab hba
  exact List.Vector.toList_injective (List.le_antisymm hba hab)

theorem lt_asymm {n : ℕ} {a b : Octets n} (hab : lt a b = true) : lt b a = false := by
  simp only [lt, decide_eq_true_eq, decide_eq_false_iff_not] at hab ⊢
  exact List.lt_asymm hab

end Octets

namespace Bytes

/-! ## Numbers in a positional system of base 256 -/

/-- The number a big-endian byte string denotes. -/
def ofBE : Bytes → ℕ
  | [] => 0
  | b :: bs => b.toNat * 256 ^ bs.length + ofBE bs

/-- The low `n` octets of `v`, most significant first. -/
def toBE : ℕ → ℕ → Bytes
  | 0, _ => []
  | n + 1, v => UInt8.ofNat (v / 256 ^ n) :: toBE n v

/-- The number a little-endian byte string denotes. -/
def ofLE (b : Bytes) : ℕ := ofBE b.reverse

/-- The low `n` octets of `v`, least significant first. -/
def toLE (n v : ℕ) : Bytes := (toBE n v).reverse

@[simp] theorem length_toBE (n v : ℕ) : (toBE n v).length = n := by
  induction n with
  | zero => rfl
  | succ n ih => simp [toBE, ih]

@[simp] theorem length_toLE (n v : ℕ) : (toLE n v).length = n := by simp [toLE]

theorem ofBE_lt (b : Bytes) : ofBE b < 256 ^ b.length := by
  induction b with
  | nil => simp [ofBE]
  | cons x xs ih =>
    have hx : x.toNat * 256 ^ xs.length ≤ 255 * 256 ^ xs.length :=
      Nat.mul_le_mul_right _ (by have := x.toNat_lt; omega)
    simp only [ofBE, List.length_cons, pow_succ]
    omega

/-- **Reading back what was written**, modulo the width. -/
theorem ofBE_toBE (n v : ℕ) : ofBE (toBE n v) = v % 256 ^ n := by
  induction n with
  | zero => simp [toBE, ofBE, Nat.mod_one]
  | succ n ih =>
    have hd : (UInt8.ofNat (v / 256 ^ n)).toNat = v / 256 ^ n % 256 := by simp
    rw [toBE, ofBE, length_toBE, ih, hd, pow_succ, Nat.mod_mul]
    ring

theorem ofLE_toLE (n v : ℕ) : ofLE (toLE n v) = v % 256 ^ n := by
  rw [ofLE, toLE, List.reverse_reverse, ofBE_toBE]

theorem toBE_add_mul (n v k : ℕ) : toBE n (v + k * 256 ^ n) = toBE n v := by
  induction n generalizing k with
  | zero => rfl
  | succ n ih =>
    have hk : k * 256 ^ (n + 1) = k * 256 * 256 ^ n := by ring
    have hd : (v + k * 256 * 256 ^ n) / 256 ^ n = v / 256 ^ n + 256 * k := by
      rw [Nat.add_mul_div_right _ _ (Nat.pow_pos (by decide)), Nat.mul_comm k]
    rw [toBE, toBE, hk, ih, hd]
    congr 1
    apply UInt8.toNat_inj.mp
    simp

/-- **Writing back what was read.** -/
theorem toBE_ofBE (b : Bytes) : toBE b.length (ofBE b) = b := by
  induction b with
  | nil => rfl
  | cons x xs ih =>
    have hlt := ofBE_lt xs
    have hd : (ofBE xs + x.toNat * 256 ^ xs.length) / 256 ^ xs.length = x.toNat := by
      rw [Nat.add_mul_div_right _ _ (Nat.pow_pos (by decide)), Nat.div_eq_of_lt hlt, Nat.zero_add]
    rw [List.length_cons, toBE, ofBE, Nat.add_comm, toBE_add_mul, ih, hd, UInt8.ofNat_toNat]

/-! ## Fields at a fixed offset -/

/-- The `n` octets of `b` from offset `off` on. A field past the end reads as zero; every use is
behind a length check. -/
def slice (off n : ℕ) (b : Bytes) : Octets n :=
  ⟨List.takeD n (b.drop off) 0, List.takeD_length _ _ _⟩

theorem slice_toList (off n : ℕ) (b : Bytes) (h : off + n ≤ b.length) :
    (slice off n b).toList = (b.drop off).take n := by
  change List.takeD n (b.drop off) 0 = _
  exact List.takeD_eq_take _ (by simp; omega)

theorem slice_append_right {off n : ℕ} {a b : Bytes} (h : a.length ≤ off) :
    slice off n (a ++ b) = slice (off - a.length) n b := by
  apply List.Vector.toList_injective
  change List.takeD n ((a ++ b).drop off) 0 = List.takeD n (b.drop (off - a.length)) 0
  rw [List.drop_append, List.drop_of_length_le h, List.nil_append]

theorem slice_cons {off n : ℕ} (x : UInt8) (b : Bytes) :
    slice (off + 1) n (x :: b) = slice off n b := rfl

/-- **A field of a concatenation is the part written there.** -/
theorem slice_zero_append {n : ℕ} (v : Octets n) (post : Bytes) :
    slice 0 n (v.toList ++ post) = v := by
  apply List.Vector.toList_injective
  have hv : v.toList.length = n := v.toList_length
  rw [slice_toList _ _ _ (by simp), List.drop_zero, List.take_append_of_le_length (by omega),
    List.take_of_length_le (by omega)]

theorem slice_zero_toList {n : ℕ} (v : Octets n) : slice 0 n v.toList = v := by
  have hslice := slice_zero_append v []
  rwa [List.append_nil] at hslice

theorem ofBE_slice_toBE (n v : ℕ) (post : Bytes) :
    ofBE (slice 0 n (toBE n v ++ post)).toList = v % 256 ^ n := by
  have h : slice 0 n (toBE n v ++ post) = ⟨toBE n v, length_toBE n v⟩ :=
    slice_zero_append ⟨toBE n v, length_toBE n v⟩ post
  rw [h]
  exact ofBE_toBE n v

theorem ofLE_slice_toLE (n v : ℕ) (post : Bytes) :
    ofLE (slice 0 n (toLE n v ++ post)).toList = v % 256 ^ n := by
  have h : slice 0 n (toLE n v ++ post) = ⟨toLE n v, length_toLE n v⟩ :=
    slice_zero_append ⟨toLE n v, length_toLE n v⟩ post
  rw [h]
  exact ofLE_toLE n v

theorem ofLE_slice_append {off : ℕ} (n v : ℕ) (pre post : Bytes) (hpre : pre.length = off) :
    ofLE (slice off n (pre ++ (toLE n v ++ post))).toList = v % 256 ^ n := by
  rw [slice_append_right hpre.le, hpre, Nat.sub_self, ofLE_slice_toLE]

/-- `b` with the octets from `off` on overwritten by `v`. -/
def splice (off : ℕ) (v b : Bytes) : Bytes := b.take off ++ v ++ b.drop (off + v.length)

/-- **Overwriting one part of a concatenation leaves the others.** -/
theorem splice_append {off : ℕ} (v pre old post : Bytes) (hpre : pre.length = off)
    (hold : old.length = v.length) : splice off v (pre ++ (old ++ post)) = pre ++ (v ++ post) := by
  subst hpre
  rw [splice, List.take_left, ← hold, ← List.append_assoc pre old post, ← List.length_append,
    List.drop_left, List.append_assoc]

theorem forall_octet {p : UInt8 → Prop} (h : ∀ n < 256, p (UInt8.ofNat n)) (b : UInt8) : p b := by
  have hb := h b.toNat b.toNat_lt
  rwa [UInt8.ofNat_toNat] at hb

end Bytes
