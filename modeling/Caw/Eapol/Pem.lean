import Caw.Eapol.Frame
import Caw.Lib.Base64
import Caw.Lib.Except

/-!
# The base 64 of PEM

The contents of a certificate block, line breaks and all, turned into octets.

* `sextet`, `Decoder.add`, `Decoder.finish`, `base64Decode`: the decoder;
* `letter`, **`sextet_eq_some_iff`**: the alphabet, and its letters read back;
* `Stands`, `add_letter`, `add_equals`, `foldlM_add`, `foldlM_text`: what has been read so far;
* **`base64Decode_eq_ok_iff`**: which texts are accepted, and what comes of them;
* **`base64Decode_encode`**: a canonical text is decoded, wrapped at any places;
* `Lax`, **`base64Decode_exact_iff`**: nothing else is, apart from texts with the wrong number of signs
  at the end, or with bits left over.
-/

set_option autoImplicit false

namespace Caw

namespace Pem

open Eapol (Error)

open Base64 (octets ofDigits sextets slack)

/-! ## Decoding -/

/-- The value of a letter. -/
def sextet (c : UInt8) : Option UInt8 :=
  if 0x41 ≤ c ∧ c ≤ 0x5a then some (c - 0x41)
  else if 0x61 ≤ c ∧ c ≤ 0x7a then some (c - 0x61 + 26)
  else if 0x30 ≤ c ∧ c ≤ 0x39 then some (c - 0x30 + 52)
  else if c = 0x2b then some 62
  else if c = 0x2f then some 63
  else none

/-- A blank, a tab, a carriage return or a line feed. -/
def isBlank (c : UInt8) : Bool := c = 0x20 ∨ c = 0x09 ∨ c = 0x0d ∨ c = 0x0a

/-- The equals sign. -/
def equals : UInt8 := 0x3d

/-- Sextets are gathered in groups of 24 bits, of which each spills three octets. -/
structure Decoder where
  out : Bytes
  acc : UInt32
  bits : ℕ
  padding : ℕ

namespace Decoder

/-- A decoder before its first character. -/
def new : Decoder where
  out := []
  acc := 0
  bits := 0
  padding := 0

/-- One octet of the text. -/
def add (d : Decoder) (c : UInt8) : Except Error Decoder :=
  if isBlank c then .ok d
  else if c = equals then .ok { d with padding := d.padding + 1 }
  else if 0 < d.padding then .error (.certificateStore "base64 data after padding")
  else
    match sextet c with
    | none => .error (.certificateStore "invalid base64")
    | some v =>
      let acc := d.acc <<< 6 ||| v.toUInt32
      let bits := d.bits + 6
      if bits = 24 then
        .ok { d with out := d.out ++ (Bytes.toBE 4 acc.toNat).drop 1, acc := 0, bits := 0 }
      else .ok { d with acc, bits }

/-- A last group of 12 or 18 bits has one or two whole octets. -/
def finish (d : Decoder) : Except Error Bytes :=
  match d.bits with
  | 0 => .ok d.out
  | 12 => .ok (d.out ++ [(d.acc >>> 4).toUInt8])
  | 18 => .ok (d.out ++ [(d.acc >>> 10).toUInt8, (d.acc >>> 2).toUInt8])
  | _ => .error (.certificateStore "truncated base64")

end Decoder

/-- Base 64 with padding, whatever line breaks there are. -/
def base64Decode (s : String) : Except Error Bytes :=
  (octetsOf s).foldlM Decoder.add .new >>= Decoder.finish

/-! ## The alphabet -/

/-- The 64 letters. -/
def alphabet : Bytes :=
  octetsOf "ABCDEFGHIJKLMNOPQRSTUVWXYZabcdefghijklmnopqrstuvwxyz0123456789+/"

/-- The letter of a sextet. -/
def letter (v : ℕ) : UInt8 := alphabet.getD v 0

/-- Sextets in letters, and `k` equals signs. -/
abbrev text : List ℕ → ℕ → Bytes := Base64.text letter equals

/-- The canonical text. -/
abbrev encode : Bytes → Bytes := Base64.encode letter equals

example : encode (octetsOf "fooba") = octetsOf "Zm9vYmE=" := by decide +kernel

theorem sextet_letter {v : ℕ} (h : v < 64) : sextet (letter v) = some (UInt8.ofNat v) := by
  have hall : ∀ v < 64, sextet (letter v) = some (UInt8.ofNat v) := by decide +kernel
  exact hall v h

theorem letter_of_sextet {c v : UInt8} (h : sextet c = some v) :
    v.toNat < 64 ∧ c = letter v.toNat := by
  have hall : ∀ n < 256, ∀ v ∈ sextet (UInt8.ofNat n),
      v.toNat < 64 ∧ UInt8.ofNat n = letter v.toNat := by decide +kernel
  have hc := hall c.toNat c.toNat_lt v
  rw [UInt8.ofNat_toNat] at hc
  exact hc h

/-- **A letter is read as its sextet**, and nothing else is. -/
theorem sextet_eq_some_iff {c v : UInt8} : sextet c = some v ↔ v.toNat < 64 ∧ c = letter v.toNat := by
  constructor
  · exact letter_of_sextet
  · rintro ⟨hlt, rfl⟩
    rw [sextet_letter hlt, UInt8.ofNat_toNat]

theorem letter_inj (v w : ℕ) (hv : v < 64) (hw : w < 64) (h : letter v = letter w) : v = w := by
  have heq : some (UInt8.ofNat v) = some (UInt8.ofNat w) := by
    rw [← sextet_letter hv, ← sextet_letter hw, h]
  have hnat := congrArg UInt8.toNat (Option.some_inj.mp heq)
  rwa [UInt8.toNat_ofNat_of_lt' (lt_trans hv (by decide)),
    UInt8.toNat_ofNat_of_lt' (lt_trans hw (by decide))] at hnat

theorem not_blank_letter {v : ℕ} (h : v < 64) : isBlank (letter v) = false := by
  have hall : ∀ v < 64, isBlank (letter v) = false := by decide +kernel
  exact hall v h

theorem letter_ne_equals (v : ℕ) (h : v < 64) : letter v ≠ equals := by
  have hall : ∀ v < 64, letter v ≠ equals := by decide +kernel
  exact hall v h

/-! ## What has been read -/

/-- Whole groups, a part of one, and `k` equals signs. -/
structure Stands (whole part : List ℕ) (k : ℕ) (d : Decoder) : Prop where
  sextets : ∀ v ∈ whole ++ part, v < 64
  groups : whole.length % 4 = 0
  short : part.length < 4
  out : d.out = octets whole
  acc : d.acc.toNat = ofDigits part
  bits : d.bits = 6 * part.length
  padding : d.padding = k

theorem stands_new : Stands [] [] 0 .new where
  sextets := by simp
  groups := rfl
  short := by decide
  out := rfl
  acc := rfl
  bits := rfl
  padding := rfl

theorem toNat_shift_or {acc : UInt32} (hacc : acc.toNat < 64 ^ 3) {v : ℕ} (hv : v < 64) :
    (acc <<< 6 ||| (UInt8.ofNat v).toUInt32).toNat = acc.toNat * 64 + v := by
  have hshift : (acc <<< 6).toNat = acc.toNat <<< 6 := by
    rw [UInt32.toNat_shiftLeft]
    refine Nat.mod_eq_of_lt ?_
    rw [Nat.shiftLeft_eq, show (UInt32.toNat 6 % 32) = 6 from rfl]
    omega
  have hsextet : (UInt8.ofNat v).toUInt32.toNat = v := by
    rw [UInt8.toNat_toUInt32, UInt8.toNat_ofNat_of_lt' (lt_trans hv (by decide))]
  rw [UInt32.toNat_or, hshift, hsextet, ← Nat.shiftLeft_add_eq_or_of_lt hv, Nat.shiftLeft_eq]

theorem toUInt8_shiftRight (acc s : UInt32) (hs : s.toNat < 32) :
    (acc >>> s).toUInt8 = UInt8.ofNat (acc.toNat / 2 ^ s.toNat) := by
  apply UInt8.toNat_inj.mp
  rw [UInt32.toNat_toUInt8, UInt32.toNat_shiftRight, Nat.mod_eq_of_lt hs, Nat.shiftRight_eq_div_pow,
    UInt8.toNat_ofNat']

section Stands

variable {whole part : List ℕ} {k : ℕ} {d : Decoder}

theorem Stands.acc_lt (h : Stands whole part k d) : d.acc.toNat < 64 ^ part.length := by
  rw [h.acc]
  exact Base64.ofDigits_lt fun v hv => h.sextets v (List.mem_append_right _ hv)

theorem add_equals (h : Stands whole part k d) :
    ∃ d', d.add equals = .ok d' ∧ Stands whole part (k + 1) d' :=
  ⟨{ d with padding := d.padding + 1 }, rfl, { h with padding := congrArg (· + 1) h.padding }⟩

theorem add_letter (h : Stands whole part 0 d) {v : ℕ} (hv : v < 64) :
    ∃ d' whole' part', d.add (letter v) = .ok d' ∧ Stands whole' part' 0 d' ∧
      whole' ++ part' = whole ++ part ++ [v] := by
  have hsix : ∀ w ∈ whole ++ part ++ [v], w < 64 := by
    intro w hw
    rcases List.mem_append.mp hw with hw | hw
    · exact h.sextets w hw
    · rwa [List.mem_singleton.mp hw]
  have hlt : d.acc.toNat < 64 ^ 3 :=
    lt_of_lt_of_le h.acc_lt (Nat.pow_le_pow_right (by decide) (by have := h.short; omega))
  have hacc : (d.acc <<< 6 ||| (UInt8.ofNat v).toUInt32).toNat = ofDigits (part ++ [v]) := by
    rw [toNat_shift_or hlt hv, h.acc, Base64.ofDigits_concat]
  have hbits : d.bits + 6 = 6 * (part ++ [v]).length := by
    rw [h.bits, List.length_append, List.length_singleton]
    ring
  rw [Decoder.add, not_blank_letter hv, if_neg (by decide), if_neg (letter_ne_equals v hv),
    if_neg (by rw [h.padding]; decide), sextet_letter hv]
  simp only
  by_cases hfull : d.bits + 6 = 24
  · have hlen : (part ++ [v]).length = 4 := by omega
    rw [if_pos hfull]
    refine ⟨_, whole ++ (part ++ [v]), [], rfl, ?_, by simp⟩
    have hgroup : octets (part ++ [v]) = Bytes.toBE 3 (ofDigits (part ++ [v])) := by
      obtain ⟨w, x, y, z, hpart⟩ : ∃ w x y z, part ++ [v] = [w, x, y, z] :=
        List.length_eq_four.mp hlen
      rw [hpart, octets, octets, List.append_nil]
    exact
      { sextets := by simpa using hsix
        groups := by
          rw [List.length_append, hlen]
          have := h.groups
          omega
        short := by decide
        out := by
          rw [Base64.octets_append h.groups, hgroup, ← h.out, ← hacc]
          rfl
        acc := rfl
        bits := rfl
        padding := h.padding }
  · rw [if_neg hfull]
    refine ⟨_, whole, part ++ [v], rfl, ?_, by simp⟩
    exact
      { sextets := by simpa using hsix
        groups := h.groups
        short := by
          have := h.short
          have := h.bits
          rw [List.length_append, List.length_singleton]
          omega
        out := h.out
        acc := hacc
        bits := hbits
        padding := h.padding }

/-- **What comes of it at the end.** -/
theorem finish_eq (h : Stands whole part k d) : d.finish =
    if (whole ++ part).length % 4 = 1 then .error (.certificateStore "truncated base64")
    else .ok (octets (whole ++ part)) := by
  have hbits := h.bits
  have hgroups := h.groups
  rw [Decoder.finish, Base64.octets_append h.groups, List.length_append, h.out]
  match part, h.short, h.acc with
  | [], _, _ =>
    rw [hbits]
    simp [octets, hgroups]
  | [w], _, _ =>
    rw [hbits, if_pos (by simp; omega)]
    rfl
  | [w, x], _, hacc =>
    have hlow : (d.acc >>> 4).toUInt8 = UInt8.ofNat (ofDigits [w, x] / 16 / 256 ^ 0) := by
      rw [toUInt8_shiftRight _ _ (by decide), hacc, pow_zero, Nat.div_one]
      rfl
    rw [hbits, if_neg (by simp; omega), octets, Bytes.toBE, Bytes.toBE, ← hlow]
    rfl
  | [w, x, y], _, hacc =>
    have hhigh : (d.acc >>> 10).toUInt8 = UInt8.ofNat (ofDigits [w, x, y] / 4 / 256 ^ 1) := by
      rw [toUInt8_shiftRight _ _ (by decide), hacc, Nat.div_div_eq_div_mul]
      rfl
    have hlow : (d.acc >>> 2).toUInt8 = UInt8.ofNat (ofDigits [w, x, y] / 4 / 256 ^ 0) := by
      rw [toUInt8_shiftRight _ _ (by decide), hacc, pow_zero, Nat.div_one]
      rfl
    rw [hbits, if_neg (by simp; omega), octets, Bytes.toBE, Bytes.toBE, Bytes.toBE, ← hhigh, ← hlow]
    rfl

end Stands

/-! ## Whole texts -/

/-- What is left of a string without its blanks and line breaks. -/
def stripped (s : String) : Bytes := (octetsOf s).filter fun c => !isBlank c

theorem foldlM_blanks (d : Decoder) (t : Bytes) :
    (t.filter fun c => !isBlank c).foldlM Decoder.add d = t.foldlM Decoder.add d := by
  induction t generalizing d with
  | nil => rfl
  | cons c t ih =>
    by_cases hc : isBlank c = true
    · rw [List.filter_cons_of_neg (by simpa using hc), ih, List.foldlM_cons, Decoder.add, if_pos hc]
      rfl
    · rw [List.filter_cons_of_pos (by simpa using hc), List.foldlM_cons, List.foldlM_cons]
      exact congrArg (d.add c >>= ·) (funext ih)

theorem foldlM_text {l : List ℕ} (hl : ∀ v ∈ l, v < 64) (k : ℕ) :
    ∃ d whole part, (text l k).foldlM Decoder.add .new = .ok d ∧ Stands whole part k d ∧
      whole ++ part = l := by
  induction k with
  | zero =>
    induction l using List.reverseRecOn with
    | nil => exact ⟨.new, [], [], rfl, stands_new, rfl⟩
    | append_singleton l v ih =>
      obtain ⟨d, whole, part, hread, hd, hwhole⟩ := ih fun w hw => hl w (List.mem_append_left _ hw)
      obtain ⟨d', whole', part', hadd, hd', hwhole'⟩ := add_letter hd (hl v (by simp))
      refine ⟨d', whole', part', ?_, hd', by rw [hwhole', hwhole]⟩
      rw [text, ← Base64.text_concat_letter, List.foldlM_append, hread]
      simpa using hadd
  | succ k ih =>
    obtain ⟨d, whole, part, hread, hd, hwhole⟩ := ih
    obtain ⟨d', hadd, hd'⟩ := add_equals hd
    refine ⟨d', whole, part, ?_, hd', hwhole⟩
    rw [text, ← Base64.text_concat_pad, List.foldlM_append, hread]
    simpa using hadd

theorem foldlM_add {t : Bytes} (ht : ∀ c ∈ t, isBlank c = false) {d : Decoder}
    (h : t.foldlM Decoder.add .new = .ok d) :
    ∃ whole part k, t = text (whole ++ part) k ∧ Stands whole part k d := by
  induction t using List.reverseRecOn generalizing d with
  | nil =>
    obtain rfl : Decoder.new = d := by simpa using h
    exact ⟨[], [], 0, rfl, stands_new⟩
  | append_singleton t c ih =>
    rw [List.foldlM_append] at h
    obtain ⟨d₀, hread, hadd⟩ := Except.bind_eq_ok.mp h
    obtain ⟨whole, part, k, rfl, hd⟩ := ih (fun c hc => ht c (List.mem_append_left _ hc)) hread
    have hc : isBlank c = false := ht c (by simp)
    replace hadd : d₀.add c = .ok d := by simpa using hadd
    by_cases hequals : c = equals
    · subst hequals
      obtain ⟨d', hadd', hd'⟩ := add_equals hd
      obtain rfl : d' = d := Except.ok.inj (hadd'.symm.trans hadd)
      exact ⟨whole, part, k + 1, Base64.text_concat_pad _ _, hd'⟩
    have hk : k = 0 := by
      by_contra hk
      rw [Decoder.add, hc, if_neg (by decide), if_neg hequals,
        if_pos (by rw [hd.padding]; omega)] at hadd
      cases hadd
    subst hk
    cases hv : sextet c with
    | none =>
      rw [Decoder.add, hc, if_neg (by decide), if_neg hequals,
        if_neg (by rw [hd.padding]; decide), hv] at hadd
      cases hadd
    | some v =>
      obtain ⟨hlt, rfl⟩ := sextet_eq_some_iff.mp hv
      obtain ⟨d', whole', part', hadd', hd', hwhole⟩ := add_letter hd hlt
      obtain rfl : d' = d := Except.ok.inj (hadd'.symm.trans hadd)
      exact ⟨whole', part', 0, by rw [hwhole]; exact Base64.text_concat_letter _ _, hd'⟩

/-- **A text is accepted** if it is letters, not one beyond whole groups, and then equals signs. -/
theorem base64Decode_eq_ok_iff {s : String} {b : Bytes} : base64Decode s = .ok b ↔
    ∃ l k, stripped s = text l k ∧ (∀ v ∈ l, v < 64) ∧ l.length % 4 ≠ 1 ∧ b = octets l := by
  have hblank : ∀ c ∈ stripped s, isBlank c = false := by
    intro c hc
    simpa using (List.mem_filter.mp hc).2
  rw [base64Decode, ← foldlM_blanks, Except.bind_eq_ok]
  constructor
  · rintro ⟨d, hread, hfinish⟩
    obtain ⟨whole, part, k, htext, hd⟩ := foldlM_add hblank hread
    rw [finish_eq hd] at hfinish
    split_ifs at hfinish with hlen
    exact ⟨whole ++ part, k, htext, hd.sextets, hlen, (Except.ok.inj hfinish).symm⟩
  · rintro ⟨l, k, htext, hl, hlen, rfl⟩
    obtain ⟨d, whole, part, hread, hd, rfl⟩ := foldlM_text hl k
    refine ⟨d, ?_, ?_⟩
    · rw [← htext] at hread
      exact hread
    · rw [finish_eq hd, if_neg hlen]

/-- **A canonical text is decoded**, wherever it is wrapped. -/
theorem base64Decode_encode {s : String} {b : Bytes} (h : stripped s = encode b) :
    base64Decode s = .ok b :=
  base64Decode_eq_ok_iff.mpr ⟨sextets b, _, h, fun _ hv => Base64.sextets_lt hv,
    Base64.length_sextets_mod b, (Base64.octets_sextets b).symm⟩

/-- Letters and then equals signs that are not what the number of the letters asks for, or with bits in
the last letter that no octet takes up. -/
def Lax (t : Bytes) : Prop :=
  ∃ l k, t = text l k ∧ (∀ v ∈ l, v < 64) ∧ l.length % 4 ≠ 1 ∧
    ¬ (k = Base64.padding l.length ∧ slack l = 0)

/-- **Exactly the canonical texts are accepted**, if not for lax ones. -/
theorem base64Decode_exact_iff (s : String) :
    (∀ b, base64Decode s = .ok b ↔ stripped s = encode b) ↔ ¬ Lax (stripped s) := by
  constructor
  · rintro h ⟨l, k, htext, hl, hlen, hlax⟩
    have hok := base64Decode_eq_ok_iff.mpr ⟨l, k, htext, hl, hlen, rfl⟩
    have hcanonical := (h _).mp hok
    rw [htext] at hcanonical
    exact hlax ((Base64.eq_encode_iff letter_ne_equals letter_inj hl hlen).mp hcanonical).1
  · refine fun hlax b => ⟨fun h => ?_, base64Decode_encode⟩
    obtain ⟨l, k, htext, hl, hlen, rfl⟩ := base64Decode_eq_ok_iff.mp h
    rw [htext]
    refine (Base64.eq_encode_iff letter_ne_equals letter_inj hl hlen).mpr ⟨?_, rfl⟩
    by_contra hnot
    exact hlax ⟨l, k, htext, hl, hlen, hnot⟩

/-- Left-over bits are passed over, and so is a missing sign. -/
theorem base64Decode_lax :
    (¬ ∀ b, base64Decode "Zh==" = .ok b ↔ stripped "Zh==" = encode b) ∧
      ¬ ∀ b, base64Decode "Zg" = .ok b ↔ stripped "Zg" = encode b := by
  have hbits : base64Decode "Zh==" = .ok [0x66] := by decide +kernel
  have hsigns : base64Decode "Zg" = .ok [0x66] := by decide +kernel
  constructor
  · intro h
    exact absurd ((h _).mp hbits) (by decide +kernel)
  · intro h
    exact absurd ((h _).mp hsigns) (by decide +kernel)

end Pem

end Caw
