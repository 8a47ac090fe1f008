import Caw.Lib.Octets

/-!
# Escaped octet strings

A text in which an octet stands for itself or is spelled by a mark and two octets after it.

* `Escape.Piece`, `Escape.spell`: one octet as it is spelled, and the text the pieces make up;
* `Escape.decode`, `Escape.encode`: reading such a text, and writing every octet in its own spelling;
* `Escape.decode_spell`, **`Escape.decode_eq_some_iff`**: a text is read exactly when it is made up of
  readable pieces;
* **`Escape.decode_encode`**: what is written is read back;
* **`Escape.encode_eq_iff`**: a text is the one its octets are written as exactly when every piece is
  in its own spelling.
-/

set_option autoImplicit false

namespace Escape

/-- One octet of the meaning, as the text spells it. -/
inductive Piece
  | plain (b : UInt8)
  | escape (x y : UInt8)
deriving DecidableEq

variable (mark : UInt8) (plain : UInt8 → Bool) (pair : UInt8 → UInt8 → Option UInt8)

/-- The octets of a piece. -/
def Piece.octets : Piece → Bytes
  | .plain b => [b]
  | .escape x y => [mark, x, y]

/-- The octet a piece stands for, when it is readable. -/
def Piece.value : Piece → Option UInt8
  | .plain b => if plain b then some b else none
  | .escape x y => pair x y

/-- The text the pieces make up. -/
def spell (pieces : List Piece) : Bytes := pieces.flatMap (Piece.octets mark)

/-- The octets a text stands for. -/
def decode : Bytes → Option Bytes
  | [] => some []
  | first :: tail =>
    if plain first then (decode tail).map (first :: ·)
    else if first = mark then
      match tail with
      | x :: y :: rest => (pair x y).bind fun b => (decode rest).map (b :: ·)
      | _ => none
    else none

section Decode

variable {mark plain pair}

@[simp]
theorem spell_nil : spell mark [] = [] := rfl

@[simp]
theorem spell_cons (p : Piece) (pieces : List Piece) :
    spell mark (p :: pieces) = p.octets mark ++ spell mark pieces := rfl

theorem decode_plain {b : UInt8} (hb : plain b = true) (rest : Bytes) :
    decode mark plain pair (b :: rest) = (decode mark plain pair rest).map (b :: ·) := by
  rw [decode.eq_def]
  exact if_pos hb

theorem decode_mark (hmark : plain mark = false) (x y : UInt8) (rest : Bytes) :
    decode mark plain pair (mark :: x :: y :: rest) =
      (pair x y).bind fun b => (decode mark plain pair rest).map (b :: ·) := by
  rw [decode, hmark, if_neg Bool.false_ne_true, if_pos rfl]

theorem decode_other {b : UInt8} (hb : ¬plain b = true) (hmark : b ≠ mark) (rest : Bytes) :
    decode mark plain pair (b :: rest) = none := by
  rw [decode.eq_def]
  simp only [hb, hmark, if_false, Bool.false_eq_true]

theorem exists_of_decode_mark (hmark : plain mark = false) {tail out : Bytes}
    (h : decode mark plain pair (mark :: tail) = some out) :
    ∃ x y rest b more, tail = x :: y :: rest ∧ pair x y = some b ∧
      decode mark plain pair rest = some more ∧ out = b :: more := by
  match tail, h with
  | [], h => rw [decode.eq_def] at h; simp [hmark] at h
  | [_], h => rw [decode.eq_def] at h; simp [hmark] at h
  | x :: y :: rest, h =>
    rw [decode_mark hmark, Option.bind_eq_some_iff] at h
    obtain ⟨b, hb, h⟩ := h
    rw [Option.map_eq_some_iff] at h
    obtain ⟨more, hmore, rfl⟩ := h
    exact ⟨x, y, rest, b, more, rfl, hb, hmore, rfl⟩

theorem decode_octets (hmark : plain mark = false) {p : Piece} {b : UInt8}
    (hp : p.value plain pair = some b) (rest : Bytes) :
    decode mark plain pair (p.octets mark ++ rest) =
      (decode mark plain pair rest).map (b :: ·) := by
  cases p with
  | plain c =>
    by_cases hc : plain c = true
    · rw [Piece.value, if_pos hc] at hp
      cases hp
      exact decode_plain hc rest
    · rw [Piece.value, if_neg hc] at hp
      cases hp
  | escape x y =>
    have hpair : pair x y = some b := hp
    show decode mark plain pair (mark :: x :: y :: rest) = _
    rw [decode_mark hmark, hpair, Option.bind_some]

theorem decode_spell (hmark : plain mark = false) {pieces : List Piece} {out : Bytes}
    (h : List.Forall₂ (fun p b => p.value plain pair = some b) pieces out) :
    decode mark plain pair (spell mark pieces) = some out := by
  induction h with
  | nil => rfl
  | cons hp _ ih => rw [spell_cons, decode_octets hmark hp, ih, Option.map_some]

theorem exists_pieces (hmark : plain mark = false) (text : Bytes) :
    ∀ {out}, decode mark plain pair text = some out → ∃ pieces, text = spell mark pieces ∧
      List.Forall₂ (fun p b => p.value plain pair = some b) pieces out := by
  induction hn : text.length using Nat.strong_induction_on generalizing text with
  | _ n ih =>
    intro out h
    cases text with
    | nil =>
      rw [decode, Option.some_inj] at h
      exact ⟨[], rfl, h ▸ List.Forall₂.nil⟩
    | cons first tail =>
      subst hn
      by_cases hplain : plain first = true
      · rw [decode_plain hplain, Option.map_eq_some_iff] at h
        obtain ⟨more, hmore, rfl⟩ := h
        obtain ⟨pieces, rfl, hpieces⟩ := ih _ (Nat.lt_succ_self _) tail rfl hmore
        exact ⟨.plain first :: pieces, rfl, hpieces.cons (if_pos hplain)⟩
      by_cases hfirst : first = mark
      · subst hfirst
        obtain ⟨x, y, rest, b, more, rfl, hb, hmore, rfl⟩ := exists_of_decode_mark hmark h
        have hlt : rest.length < (first :: x :: y :: rest).length := by
          simp only [List.length_cons]; omega
        obtain ⟨pieces, rfl, hpieces⟩ := ih _ hlt rest rfl hmore
        exact ⟨.escape x y :: pieces, rfl, hpieces.cons hb⟩
      · rw [decode_other hplain hfirst] at h
        cases h

/-- **A text is read exactly when it is made up of readable pieces.** -/
theorem decode_eq_some_iff (hmark : plain mark = false) {text out : Bytes} :
    decode mark plain pair text = some out ↔
      ∃ pieces, text = spell mark pieces ∧
        List.Forall₂ (fun p b => p.value plain pair = some b) pieces out := by
  refine ⟨exists_pieces hmark text, ?_⟩
  rintro ⟨pieces, rfl, h⟩
  exact decode_spell hmark h

end Decode

/-! ## The spelling an octet is written in -/

variable (digits : UInt8 → UInt8 × UInt8)

/-- The piece an octet is written as. -/
def piece (b : UInt8) : Piece :=
  if plain b then .plain b else .escape (digits b).1 (digits b).2

/-- A text for the octets. -/
def encode (b : Bytes) : Bytes := spell mark (b.map (piece plain digits))

variable {mark plain pair digits}

theorem value_piece (hdigits : ∀ b, pair (digits b).1 (digits b).2 = some b) (b : UInt8) :
    (piece plain digits b).value plain pair = some b := by
  by_cases hb : plain b = true
  · rw [piece, if_pos hb]
    exact if_pos hb
  · rw [piece, if_neg hb]
    exact hdigits b

theorem forall₂_piece (hdigits : ∀ b, pair (digits b).1 (digits b).2 = some b) (b : Bytes) :
    List.Forall₂ (fun p b => p.value plain pair = some b) (b.map (piece plain digits)) b := by
  rw [List.forall₂_map_left_iff]
  exact List.forall₂_same.mpr fun x _ => value_piece hdigits x

/-- **What is written is read back.** -/
theorem decode_encode (hmark : plain mark = false)
    (hdigits : ∀ b, pair (digits b).1 (digits b).2 = some b) (b : Bytes) :
    decode mark plain pair (encode mark plain digits b) = some b :=
  decode_spell hmark (forall₂_piece hdigits b)

theorem piece_inj (hmark : plain mark = false) {p q : Piece} {c d : UInt8} {a b : Bytes}
    (hp : p.value plain pair = some c) (hq : q.value plain pair = some d)
    (h : p.octets mark ++ a = q.octets mark ++ b) : p = q ∧ a = b := by
  have hne : ∀ {x : UInt8} {e : UInt8}, (Piece.plain x).value plain pair = some e → x ≠ mark := by
    rintro x e hx rfl
    rw [Piece.value, hmark] at hx
    cases hx
  cases p with
  | plain x =>
    cases q with
    | plain y =>
      obtain ⟨rfl, rfl⟩ := List.cons.inj h
      exact ⟨rfl, rfl⟩
    | escape y z => exact absurd (List.cons.inj h).1 (hne hp)
  | escape x y =>
    cases q with
    | plain z => exact absurd (List.cons.inj h).1.symm (hne hq)
    | escape z w =>
      simp only [Piece.octets, List.cons_append, List.nil_append, List.cons.injEq, true_and] at h
      obtain ⟨rfl, rfl, rfl⟩ := h
      exact ⟨rfl, rfl⟩

theorem spell_inj (hmark : plain mark = false) {l m : List Piece} {a : Bytes}
    (hl : List.Forall₂ (fun p b => p.value plain pair = some b) l a)
    (hm : List.Forall₂ (fun p b => p.value plain pair = some b) m a)
    (h : spell mark l = spell mark m) : l = m := by
  induction hl generalizing m with
  | nil =>
    cases hm
    rfl
  | cons hp _ ih =>
    cases hm with
    | cons hq hm =>
      obtain ⟨rfl, hrest⟩ := piece_inj hmark hp hq h
      rw [ih hm hrest]

/-- A piece in the spelling its octet is written in. -/
def Piece.Own (plain : UInt8 → Bool) (pair : UInt8 → UInt8 → Option UInt8)
    (digits : UInt8 → UInt8 × UInt8) (p : Piece) : Prop :=
  ∀ b ∈ p.value plain pair, p = piece plain digits b

theorem map_piece_eq_iff {pieces : List Piece} {out : Bytes}
    (h : List.Forall₂ (fun p b => p.value plain pair = some b) pieces out) :
    out.map (piece plain digits) = pieces ↔ ∀ p ∈ pieces, p.Own plain pair digits := by
  induction h with
  | nil => exact ⟨fun _ _ hp => absurd hp List.not_mem_nil, fun _ => rfl⟩
  | cons hp _ ih =>
    rw [List.map_cons, List.cons.injEq, List.forall_mem_cons, ih, Piece.Own, hp]
    refine and_congr_left fun _ => ⟨fun h b hb => ?_, fun h => (h _ rfl).symm⟩
    rw [← h, Option.some_inj.mp hb]

/-- **A text is the one its octets are written as exactly when every piece is in its own
spelling.** -/
theorem encode_eq_iff (hmark : plain mark = false)
    (hdigits : ∀ b, pair (digits b).1 (digits b).2 = some b) {pieces : List Piece} {out : Bytes}
    (h : List.Forall₂ (fun p b => p.value plain pair = some b) pieces out) :
    encode mark plain digits out = spell mark pieces ↔
      ∀ p ∈ pieces, p.Own plain pair digits := by
  rw [← map_piece_eq_iff h]
  refine ⟨fun heq => ?_, fun heq => by rw [encode, heq]⟩
  exact spell_inj hmark (forall₂_piece hdigits out) h heq

end Escape
