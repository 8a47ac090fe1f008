import Caw.Lib.Text

/-!
# UTF-8 read back

A string written as UTF-8 is what decoding its octets gives.

* `toList_toUTF8`: the octets of a string, character by character;
* `lossyFrom_char`: the octets of one character decode to it;
* **`lossy_toUTF8`**: the octets of a string decode to it;
* `ofOctets`, **`ofOctets_eq_some_iff`**: the string octets are of, when they are the octets of one.
-/

set_option autoImplicit false

namespace Text

/-! ## The octets of a string -/

theorem toList_loop (b : ByteArray) (i : ℕ) (r : Bytes) :
    ByteArray.toList.loop b i r = r.reverse ++ b.data.toList.drop i := by
  fun_induction ByteArray.toList.loop b i r with
  | case1 i r hlt ih =>
    have hi : i < b.data.toList.length := hlt
    rw [ih, List.reverse_cons, List.append_assoc, List.singleton_append,
      List.drop_eq_getElem_cons hi]
    have hget : b.get! i = b.data.toList[i] := by
      change b.data[i]! = _
      rw [getElem!_pos b.data i hlt, Array.getElem_toList]
    rw [hget]
  | case2 i r hge =>
    have hi : b.data.toList.length ≤ i := not_lt.mp hge
    rw [List.drop_of_length_le hi, List.append_nil]

theorem toList_eq (b : ByteArray) : b.toList = b.data.toList := toList_loop b 0 []

theorem toList_toUTF8 (s : String) : s.toUTF8.toList = s.toList.flatMap String.utf8EncodeChar := by
  rw [toList_eq, String.toUTF8_eq_toByteArray, ← String.utf8Encode_toList, List.utf8Encode,
    List.toList_data_toByteArray]

/-! ## One character -/

theorem toNat_ofNat_of_lt {k : ℕ} (h : k < 256) : (UInt8.ofNat k).toNat = k := by
  rw [UInt8.toNat_ofNat']
  omega

theorem isCont_tail (n : ℕ) : isCont (UInt8.ofNat (n % 0x40 + 0x80)) = true := by
  have h : n % 0x40 < 0x40 := Nat.mod_lt n (by decide)
  generalize n % 0x40 = k at h
  revert k
  decide

theorem payload_tail (n : ℕ) : payload (UInt8.ofNat (n % 0x40 + 0x80)) = n % 0x40 := by
  rw [payload, toNat_ofNat_of_lt (by omega)]
  omega

/-- The second octet of a character stays clear of the overlong forms, the surrogates and the
numbers past the last character. -/
theorem secondOk_of (n : ℕ) {first : ℕ} (hfirst : first < 256)
    (hlow3 : first = 0xe0 → 0x20 ≤ n % 0x40) (hsurrogate : first = 0xed → n % 0x40 < 0x20)
    (hlow4 : first = 0xf0 → 0x10 ≤ n % 0x40) (hlast : first = 0xf4 → n % 0x40 < 0x10) :
    secondOk (UInt8.ofNat first) (UInt8.ofNat (n % 0x40 + 0x80)) = true := by
  have hf : (UInt8.ofNat first).toNat = first := toNat_ofNat_of_lt hfirst
  have hs : (UInt8.ofNat (n % 0x40 + 0x80)).toNat = n % 0x40 + 0x80 := toNat_ofNat_of_lt (by omega)
  unfold secondOk
  simp only [← UInt8.toNat_inj, UInt8.le_iff_toNat_le, UInt8.reduceToNat, hf, hs]
  split_ifs
  · simp only [decide_eq_true_eq]; omega
  · simp only [decide_eq_true_eq]; omega
  · simp only [decide_eq_true_eq]; omega
  · simp only [decide_eq_true_eq]; omega
  · exact isCont_tail n

theorem decodeAt_one {v : ℕ} (h : v ≤ 0x7f) (rest : Bytes) :
    decodeAt (UInt8.ofNat v) rest = (Char.ofNat v, 0) := by
  have hv : (UInt8.ofNat v).toNat = v := toNat_ofNat_of_lt (by omega)
  have hlt : UInt8.ofNat v < 0x80 := by rw [UInt8.lt_iff_toNat_lt, hv]; exact Nat.lt_succ_of_le h
  simp only [decodeAt, hlt, if_true, hv]

theorem decodeAt_two {v : ℕ} (hlow : 0x80 ≤ v) (h : v ≤ 0x7ff) (rest : Bytes) :
    decodeAt (UInt8.ofNat (v / 64 % 0x20 + 0xc0)) (UInt8.ofNat (v % 0x40 + 0x80) :: rest) =
      (Char.ofNat v, 1) := by
  have hb : (UInt8.ofNat (v / 64 % 0x20 + 0xc0)).toNat = v / 64 % 0x20 + 0xc0 :=
    toNat_ofNat_of_lt (by omega)
  have hvalue : (v / 64 % 0x20 + 0xc0) % 32 * 64 + v % 0x40 = v := by omega
  simp only [decodeAt, UInt8.lt_iff_toNat_lt, UInt8.le_iff_toNat_le, UInt8.reduceToNat, hb,
    List.getD_cons_zero, isCont_tail, payload_tail, hvalue, if_true]
  rw [if_neg (by omega), if_pos (by omega)]

theorem decodeAt_three {v : ℕ} (hlow : 0x800 ≤ v) (h : v ≤ 0xffff)
    (hvalid : v < 0xd800 ∨ 0xdfff < v) (rest : Bytes) :
    decodeAt (UInt8.ofNat (v / 4096 % 0x10 + 0xe0)) (UInt8.ofNat (v / 64 % 0x40 + 0x80) ::
      UInt8.ofNat (v % 0x40 + 0x80) :: rest) = (Char.ofNat v, 2) := by
  have hb : (UInt8.ofNat (v / 4096 % 0x10 + 0xe0)).toNat = v / 4096 % 0x10 + 0xe0 :=
    toNat_ofNat_of_lt (by omega)
  have hsecond : secondOk (UInt8.ofNat (v / 4096 % 0x10 + 0xe0))
      (UInt8.ofNat (v / 64 % 0x40 + 0x80)) = true :=
    secondOk_of _ (by omega) (by omega) (by omega) (by omega) (by omega)
  have hvalue : (v / 4096 % 0x10 + 0xe0) % 16 * 4096 + v / 64 % 0x40 * 64 + v % 0x40 = v := by omega
  simp only [decodeAt, UInt8.lt_iff_toNat_lt, UInt8.le_iff_toNat_le, UInt8.reduceToNat, hb,
    List.getD_cons_zero, List.getD_cons_succ, hsecond, isCont_tail, payload_tail, hvalue,
    Bool.not_true]
  rw [if_neg (by omega), if_neg (by omega), if_pos (by omega)]
  rfl

theorem decodeAt_four {v : ℕ} (hlow : 0x10000 ≤ v) (h : v < 0x110000) (rest : Bytes) :
    decodeAt (UInt8.ofNat (v / 262144 % 0x08 + 0xf0)) (UInt8.ofNat (v / 4096 % 0x40 + 0x80) ::
      UInt8.ofNat (v / 64 % 0x40 + 0x80) :: UInt8.ofNat (v % 0x40 + 0x80) :: rest) =
        (Char.ofNat v, 3) := by
  have hb : (UInt8.ofNat (v / 262144 % 0x08 + 0xf0)).toNat = v / 262144 % 0x08 + 0xf0 :=
    toNat_ofNat_of_lt (by omega)
  have hsecond : secondOk (UInt8.ofNat (v / 262144 % 0x08 + 0xf0))
      (UInt8.ofNat (v / 4096 % 0x40 + 0x80)) = true :=
    secondOk_of _ (by omega) (by omega) (by omega) (by omega) (by omega)
  have hvalue : (v / 262144 % 0x08 + 0xf0) % 8 * 262144 + v / 4096 % 0x40 * 4096 +
      v / 64 % 0x40 * 64 + v % 0x40 = v := by omega
  simp only [decodeAt, UInt8.lt_iff_toNat_lt, UInt8.le_iff_toNat_le, UInt8.reduceToNat, hb,
    List.getD_cons_zero, List.getD_cons_succ, hsecond, isCont_tail, payload_tail, hvalue,
    Bool.not_true]
  rw [if_neg (by omega), if_neg (by omega), if_neg (by omega), if_pos (by omega)]
  rfl

/-- **The octets of a character decode to it.** -/
theorem lossyFrom_char (c : Char) (rest : Bytes) :
    lossyFrom 0 (String.utf8EncodeChar c ++ rest) = c :: lossyFrom 0 rest := by
  have hvalid : c.val.toNat < 0xd800 ∨ (0xdfff < c.val.toNat ∧ c.val.toNat < 0x110000) := c.valid
  have hc : Char.ofNat c.val.toNat = c := Char.ofNat_toNat c
  fun_cases String.utf8EncodeChar c with
  | case1 v h1 =>
    simp only [List.cons_append, List.nil_append, lossyFrom, decodeAt_one h1]
    rw [hc]
  | case2 v h1 h2 =>
    simp only [List.cons_append, List.nil_append, lossyFrom, decodeAt_two (not_le.mp h1) h2]
    rw [hc]
  | case3 v h1 h2 h3 =>
    simp only [List.cons_append, List.nil_append, lossyFrom,
      decodeAt_three (not_le.mp h2) h3 (hvalid.imp_right And.left)]
    rw [hc]
  | case4 v h1 h2 h3 =>
    have hlast : v < 0x110000 := by
      have h : 0xffff < v := not_le.mp h3
      rcases hvalid with hlow | hhigh
      · exact absurd hlow (by omega)
      · exact hhigh.2
    simp only [List.cons_append, List.nil_append, lossyFrom, decodeAt_four (not_le.mp h3) hlast]
    rw [hc]

/-! ## Strings -/

theorem lossyFrom_chars (l : List Char) : lossyFrom 0 (l.flatMap String.utf8EncodeChar) = l := by
  induction l with
  | nil => rfl
  | cons c l ih => rw [List.flatMap_cons, lossyFrom_char, ih]

/-- **The octets of a string decode to it.** -/
theorem lossy_toUTF8 (s : String) : lossy s.toUTF8.toList = s := by
  rw [lossy, toList_toUTF8, lossyFrom_chars, String.ofList_toList]

/-- The string the octets are of, when they are well-formed UTF-8. -/
def ofOctets (b : Bytes) : Option String :=
  if (lossy b).toUTF8.toList = b then some (lossy b) else none

/-- **Octets are read as a string exactly when they are its octets.** -/
theorem ofOctets_eq_some_iff {b : Bytes} {s : String} :
    ofOctets b = some s ↔ s.toUTF8.toList = b := by
  constructor
  · intro h
    rw [ofOctets] at h
    split_ifs at h with hb
    rw [← Option.some_inj.mp h, hb]
  · rintro rfl
    rw [ofOctets, lossy_toUTF8, if_pos rfl]

theorem toUTF8_toList_injective : Function.Injective fun s : String => s.toUTF8.toList :=
  Function.LeftInverse.injective lossy_toUTF8

theorem toUTF8_toList_append (s t : String) :
    (s ++ t).toUTF8.toList = s.toUTF8.toList ++ t.toUTF8.toList := by
  simp only [toList_toUTF8, String.toList_append, List.flatMap_append]

theorem utf8EncodeChar_ofNat {n : ℕ} (h : n < 0x80) :
    String.utf8EncodeChar (Char.ofNat n) = [UInt8.ofNat n] := by
  revert n
  decide

theorem toUTF8_toList_ascii {l : List UInt8} (h : ∀ b ∈ l, b < 0x80) :
    (String.ofList (l.map fun b => Char.ofNat b.toNat)).toUTF8.toList = l := by
  rw [toList_toUTF8, String.toList_ofList]
  induction l with
  | nil => rfl
  | cons b l ih =>
    rw [List.forall_mem_cons] at h
    have hb : b.toNat < 0x80 := h.1
    rw [List.map_cons, List.flatMap_cons, ih h.2, utf8EncodeChar_ofNat hb, UInt8.ofNat_toNat]
    rfl

end Text
