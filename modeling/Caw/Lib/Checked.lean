import Caw.Lib.Except
import Caw.Lib.Octets

/-!
# Reads that may panic

An index or a range past the end of a byte string panics, and so does the conversion of a slice to an
array of another length. What may panic is optional: it is `none` where it does.

* `Bytes.readAt`, `readRange`, `readFrom`, `readArray`, `overwrite`: the reads, and a write in place;
* `Bytes.checkedSub`: a difference that may not be negative;
* **`Bytes.readArray_of_le`**, `readAt_of_lt`, `readRange_of_le`, `readFrom_of_le`, `overwrite_of_le`:
  within the bounds they do not panic;
* `Checked`, `Checked.of`: a computation that returns a result or an error, or panics, and one that
  returns.
-/

set_option autoImplicit false

namespace Bytes

/-- The octet at an index. -/
def readAt (b : Bytes) (i : ℕ) : Option UInt8 := b[i]?

/-- The octets from one index up to another. -/
def readRange (b : Bytes) (i j : ℕ) : Option Bytes :=
  if i ≤ j ∧ j ≤ b.length then some ((b.take j).drop i) else none

/-- The octets from an index on. -/
def readFrom (b : Bytes) (i : ℕ) : Option Bytes := if i ≤ b.length then some (b.drop i) else none

/-- The array of the `n` octets from an index on. -/
def readArray (n : ℕ) (b : Bytes) (i : ℕ) : Option (Octets n) :=
  (readRange b i (i + n)).bind fun v => if h : v.length = n then some ⟨v, h⟩ else none

/-- The octets from an index on, overwritten. -/
def overwrite (i : ℕ) (v b : Bytes) : Option Bytes :=
  if i + v.length ≤ b.length then some (splice i v b) else none

/-- The difference of two lengths. -/
def checkedSub (m n : ℕ) : Option ℕ := if n ≤ m then some (m - n) else none

variable {b : Bytes} {i j n : ℕ}

theorem readAt_of_lt (h : i < b.length) : readAt b i = some b[i] := List.getElem?_eq_getElem h

theorem readRange_of_le (hij : i ≤ j) (hj : j ≤ b.length) :
    readRange b i j = some ((b.take j).drop i) :=
  if_pos ⟨hij, hj⟩

theorem readFrom_of_le (h : i ≤ b.length) : readFrom b i = some (b.drop i) := if_pos h

/-- **Within the bounds** a slice makes an array. -/
theorem readArray_of_le (h : i + n ≤ b.length) : readArray n b i = some (slice i n b) := by
  have hslice : (b.take (i + n)).drop i = (slice i n b).toList := by
    rw [slice_toList i n b h, List.drop_take, Nat.add_sub_cancel_left]
  rw [readArray, readRange_of_le (Nat.le_add_right i n) h, Option.bind_some]
  rw [dif_pos (by rw [hslice]; exact (slice i n b).toList_length)]
  exact congrArg some (List.Vector.toList_injective hslice)

theorem overwrite_of_le {v : Bytes} (h : i + v.length ≤ b.length) :
    overwrite i v b = some (splice i v b) :=
  if_pos h

end Bytes

/-- A computation that returns a result or an error, or panics. -/
abbrev Checked (ε α : Type) : Type := ExceptT ε Option α

namespace Checked

variable {ε α β : Type}

/-- A computation that returns. -/
def of (x : Except ε α) : Checked ε α := ExceptT.mk (some x)

@[simp] theorem of_ok (a : α) : of (.ok a : Except ε α) = pure a := rfl

@[simp] theorem of_error (e : ε) : of (.error e : Except ε α) = throw e := rfl

@[simp] theorem read_bind (a : α) (f : α → Checked ε β) :
    ((liftM (some a) : Checked ε α) >>= f) = f a := rfl

end Checked
