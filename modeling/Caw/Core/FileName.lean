import Caw.Crypto.Primitives
import Caw.Lib.Escape
import Caw.Lib.Utf8

/-!
# File names of profiles

An SSID is stored under a name in which every octet outside `[A-Za-z0-9_-]` is escaped; the name is
read back to the SSID.

* `fileName`, `ssidFromFileName`: the two directions, over `readStem` and `fromStrRadix16`;
* `hexPair_eq_some_iff`: the two octets after a percent sign that are read;
* **`ssidFromFileName_fileName`**: the name of an SSID reads back as it;
* `ssidFromFileName_eq_some_iff`: what a name is read as, piece by piece;
* `Foreign`, `Alias`: an escape the first direction never writes, and a name that is read with one;
* **`fileName_eq_iff`**: a name is the name of the SSID it reads as unless it is an alias.
-/

set_option autoImplicit false

namespace Caw

open Escape (Piece spell)

/-! ## The name of an SSID -/

/-- An octet that stands for itself in a file name. -/
def isPlain (b : UInt8) : Bool :=
  (0x41 ≤ b ∧ b ≤ 0x5a) ∨ (0x61 ≤ b ∧ b ≤ 0x7a) ∨ (0x30 ≤ b ∧ b ≤ 0x39) ∨ b = 0x2d ∨ b = 0x5f

/-- An upper-case hexadecimal digit. -/
def upperHex (n : ℕ) : UInt8 := if n < 10 then UInt8.ofNat (0x30 + n) else UInt8.ofNat (0x37 + n)

/-- The characters an octet is stored as. -/
def nameChars (b : UInt8) : List Char :=
  if isPlain b then [Char.ofNat b.toNat]
  else ['%', Char.ofNat (upperHex (b.toNat / 16)).toNat, Char.ofNat (upperHex (b.toNat % 16)).toNat]

/-- The file name a profile for `ssid` is stored under, without a directory. -/
def fileName (ssid : Bytes) : String := String.ofList (ssid.flatMap nameChars) ++ ".json"

/-! ## The SSID of a name -/

/-- The value of a hexadecimal digit. -/
def toDigit16 (b : UInt8) : Option ℕ :=
  if 0x30 ≤ b ∧ b ≤ 0x39 then some (b.toNat - 0x30)
  else if 0x61 ≤ b ∧ b ≤ 0x66 then some (b.toNat - 0x57)
  else if 0x41 ≤ b ∧ b ≤ 0x46 then some (b.toNat - 0x37)
  else none

/-- The number the digits denote, as long as it fits an octet. -/
def radix16 : ℕ → Bytes → Option UInt8
  | value, [] => some (UInt8.ofNat value)
  | value, b :: digits =>
    (toDigit16 b).bind fun digit =>
      if value * 16 + digit < 256 then radix16 (value * 16 + digit) digits else none

/-- An octet in base 16, as `u8::from_str_radix` reads it: a sign may stand before the digits. -/
def fromStrRadix16 (src : String) : Option UInt8 :=
  match octetsOf src with
  | [] => none
  | [b] => if b = 0x2b ∨ b = 0x2d then none else radix16 0 [b]
  | b :: digits => if b = 0x2b then radix16 0 digits else radix16 0 (b :: digits)

/-- The octet the two after a percent sign stand for. -/
def hexPair (x y : UInt8) : Option UInt8 := (Text.ofOctets [x, y]).bind fromStrRadix16

/-- The octets of a name without its extension. -/
def readStem : Bytes → Option Bytes
  | [] => some []
  | first :: tail =>
    if isPlain first then (readStem tail).map (first :: ·)
    else if first = 0x25 then
      match tail with
      | x :: y :: rest => (hexPair x y).bind fun b => (readStem rest).map (b :: ·)
      | _ => none
    else none

/-- The SSID a file name is of. -/
def ssidFromFileName (name : String) : Option Bytes := do
  let stem ← (octetsOf name).dropSuffix? (octetsOf ".json")
  let out ← readStem stem
  if out.isEmpty then none else some out

/-! ## Digits -/

/-- The value of a digit the way it counts sixteens: a sign counts none. -/
def sixteens (b : UInt8) : Option ℕ := if b = 0x2b then some 0 else toDigit16 b

/-- A lower-case hexadecimal digit. -/
def isLowerHex (b : UInt8) : Bool := 0x61 ≤ b ∧ b ≤ 0x66

theorem toDigit16_spec (b : UInt8) :
    ∀ n ∈ toDigit16 b, n < 16 ∧ b < 0x80 ∧ b ≠ 0x2b ∧ (b = upperHex n ↔ isLowerHex b = false) := by
  revert b
  refine Bytes.forall_octet ?_
  decide +kernel

theorem upperHex_spec (b : UInt8) :
    sixteens (upperHex (b.toNat / 16)) = some (b.toNat / 16) ∧
      toDigit16 (upperHex (b.toNat % 16)) = some (b.toNat % 16) := by
  revert b
  refine Bytes.forall_octet ?_
  decide +kernel

theorem sixteens_spec {b : UInt8} {n : ℕ} (h : sixteens b = some n) :
    n < 16 ∧ b < 0x80 ∧ (b = upperHex n ↔ b ≠ 0x2b ∧ isLowerHex b = false) := by
  rw [sixteens] at h
  split_ifs at h with hsign
  · obtain rfl := Option.some_inj.mp h
    subst hsign
    decide
  · obtain ⟨hlt, hascii, -, hupper⟩ := toDigit16_spec b n h
    exact ⟨hlt, hascii, hupper.trans (and_iff_right hsign).symm⟩

/-! ## The two octets of an escape -/

theorem fromStrRadix16_pair {hex : String} {x y : UInt8} (h : octetsOf hex = [x, y]) :
    fromStrRadix16 hex = (sixteens x).bind fun hi => (toDigit16 y).map fun lo =>
      UInt8.ofNat (16 * hi + lo) := by
  simp only [fromStrRadix16, h, sixteens]
  split_ifs with hsign
  · rw [radix16, Option.bind_some]
    cases hlo : toDigit16 y with
    | none => rfl
    | some lo =>
      have hlt := (toDigit16_spec y lo hlo).1
      rw [Option.bind_some, if_pos (by omega), radix16, Option.map_some]
  · rw [radix16]
    cases hhi : toDigit16 x with
    | none => rfl
    | some hi =>
      have hlt := (toDigit16_spec x hi hhi).1
      rw [Option.bind_some, if_pos (by omega), radix16, Option.bind_some]
      cases hlo : toDigit16 y with
      | none => rfl
      | some lo =>
        have hlt' := (toDigit16_spec y lo hlo).1
        rw [Option.bind_some, if_pos (by omega), radix16, Option.map_some]
        congr 1
        congr 1
        omega

/-- **The two octets after a percent sign that are read.** -/
theorem hexPair_eq_some_iff {x y b : UInt8} :
    hexPair x y = some b ↔ ∃ hi lo, sixteens x = some hi ∧ toDigit16 y = some lo ∧
      b = UInt8.ofNat (16 * hi + lo) := by
  rw [hexPair, Option.bind_eq_some_iff]
  constructor
  · rintro ⟨hex, hhex, h⟩
    rw [fromStrRadix16_pair (Text.ofOctets_eq_some_iff.mp hhex), Option.bind_eq_some_iff] at h
    obtain ⟨hi, hhi, h⟩ := h
    obtain ⟨lo, hlo, rfl⟩ := Option.map_eq_some_iff.mp h
    exact ⟨hi, lo, hhi, hlo, rfl⟩
  · rintro ⟨hi, lo, hhi, hlo, rfl⟩
    have hascii : ∀ c ∈ [x, y], c < (0x80 : UInt8) :=
      List.forall_mem_cons.mpr ⟨(sixteens_spec hhi).2.1,
        List.forall_mem_singleton.mpr (toDigit16_spec y lo hlo).2.1⟩
    refine ⟨_, Text.ofOctets_eq_some_iff.mpr (Text.toUTF8_toList_ascii hascii), ?_⟩
    rw [fromStrRadix16_pair (Text.toUTF8_toList_ascii hascii), hhi, hlo]
    rfl

/-! ## The escapes the store writes -/

/-- The digits of an escape. -/
def hexDigits (b : UInt8) : UInt8 × UInt8 := (upperHex (b.toNat / 16), upperHex (b.toNat % 16))

theorem hexPair_hexDigits (b : UInt8) : hexPair (hexDigits b).1 (hexDigits b).2 = some b := by
  refine hexPair_eq_some_iff.mpr ⟨_, _, (upperHex_spec b).1, (upperHex_spec b).2, ?_⟩
  rw [Nat.div_add_mod, UInt8.ofNat_toNat]

theorem not_isPlain_percent : isPlain 0x25 = false := by decide

theorem readStem_eq (stem : Bytes) : readStem stem = Escape.decode 0x25 isPlain hexPair stem := by
  fun_induction readStem stem with
  | case1 => rfl
  | case2 first tail hplain ih => rw [ih, Escape.decode_plain hplain]
  | case3 x y rest _ ih =>
    rw [Escape.decode_mark not_isPlain_percent]
    exact congrArg _ (funext fun b => by rw [ih])
  | case4 tail hshort _ =>
    refine (Option.eq_none_iff_forall_ne_some.mpr fun out hout => ?_).symm
    obtain ⟨x, y, rest, -, -, rfl, -⟩ := Escape.exists_of_decode_mark not_isPlain_percent hout
    exact hshort x y rest rfl
  | case5 first tail hplain hfirst => rw [Escape.decode_other hplain hfirst]

theorem utf8_nameChars (b : UInt8) : (nameChars b).flatMap String.utf8EncodeChar =
    (Escape.piece isPlain hexDigits b).octets 0x25 := by
  revert b
  refine Bytes.forall_octet ?_
  decide +kernel

theorem octetsOf_fileName (ssid : Bytes) :
    octetsOf (fileName ssid) = Escape.encode 0x25 isPlain hexDigits ssid ++ octetsOf ".json" := by
  rw [octetsOf, fileName, Text.toUTF8_toList_append, Text.toList_toUTF8, String.toList_ofList]
  congr 1
  induction ssid with
  | nil => rfl
  | cons b ssid ih =>
    rw [List.flatMap_cons, List.flatMap_append, ih, utf8_nameChars]
    rfl

/-! ## Both directions -/

/-- **What a name is read as, piece by piece.** -/
theorem ssidFromFileName_eq_some_iff {name : String} {ssid : Bytes} :
    ssidFromFileName name = some ssid ↔ ssid ≠ [] ∧ ∃ pieces,
      octetsOf name = spell 0x25 pieces ++ octetsOf ".json" ∧
        List.Forall₂ (fun p b => p.value isPlain hexPair = some b) pieces ssid := by
  have hstem : ∀ stem, (octetsOf name).dropSuffix? (octetsOf ".json") = some stem ↔
      octetsOf name = stem ++ octetsOf ".json" := by
    intro stem
    rw [List.dropSuffix?_eq_some_iff]
    refine ⟨?_, fun h => ⟨_, h, beq_self_eq_true _⟩⟩
    rintro ⟨suffix, h, hsuffix⟩
    rwa [beq_iff_eq.mp hsuffix] at h
  have hout : ∀ out : Bytes, (if out.isEmpty then none else some out) = some ssid ↔
      ssid ≠ [] ∧ out = ssid := by
    intro out
    split_ifs with hempty
    · rw [List.isEmpty_iff] at hempty
      refine ⟨False.elim, ?_⟩
      rintro ⟨hne, rfl⟩
      exact absurd hempty hne
    · rw [List.isEmpty_iff] at hempty
      refine ⟨fun h => ?_, fun h => congrArg some h.2⟩
      rw [Option.some_inj] at h
      exact ⟨h ▸ hempty, h⟩
  simp only [ssidFromFileName, Option.bind_eq_bind, Option.bind_eq_some_iff, hstem, hout]
  constructor
  · rintro ⟨stem, hname, _, hread, hne, rfl⟩
    rw [readStem_eq] at hread
    obtain ⟨pieces, rfl, hpieces⟩ := (Escape.decode_eq_some_iff not_isPlain_percent).mp hread
    exact ⟨hne, pieces, hname, hpieces⟩
  · rintro ⟨hne, pieces, hname, hpieces⟩
    refine ⟨_, hname, ssid, ?_, hne, rfl⟩
    rw [readStem_eq]
    exact Escape.decode_spell not_isPlain_percent hpieces

/-- **The name of an SSID reads back as it.** -/
theorem ssidFromFileName_fileName {ssid : Bytes} (h : ssid ≠ []) :
    ssidFromFileName (fileName ssid) = some ssid :=
  ssidFromFileName_eq_some_iff.mpr
    ⟨h, _, octetsOf_fileName ssid, Escape.forall₂_piece hexPair_hexDigits ssid⟩

/-! ## Aliases -/

/-- A piece that is read. -/
def Readable : Piece → Prop
  | .plain b => isPlain b
  | .escape x y => (x = 0x2b ∨ (toDigit16 x).isSome) ∧ (toDigit16 y).isSome

/-- A readable escape that is never written: it has a sign for a digit or a lower-case digit, or it
escapes an octet that stands for itself. -/
def Foreign : Piece → Prop
  | .plain _ => False
  | .escape x y => x = 0x2b ∨ isLowerHex x ∨ isLowerHex y ∨
      isPlain (UInt8.ofNat (16 * (toDigit16 x).getD 0 + (toDigit16 y).getD 0))

/-- A name that is read with an escape that is never written. -/
def Alias (name : String) : Prop :=
  ∃ pieces, octetsOf name = spell 0x25 pieces ++ octetsOf ".json" ∧
    (∀ p ∈ pieces, Readable p) ∧ ∃ p ∈ pieces, Foreign p

theorem isSome_sixteens {x : UInt8} :
    (sixteens x).isSome ↔ x = 0x2b ∨ (toDigit16 x).isSome := by
  rw [sixteens]
  split_ifs with hx
  · simp [hx]
  · simp [hx]

theorem readable_iff {p : Piece} : Readable p ↔ ∃ b, p.value isPlain hexPair = some b := by
  cases p with
  | plain b =>
    simp only [Readable, Piece.value]
    split_ifs with hb
    · exact ⟨fun _ => ⟨b, rfl⟩, fun _ => hb⟩
    · refine ⟨fun h => absurd h hb, ?_⟩
      rintro ⟨_, ⟨⟩⟩
  | escape x y =>
    rw [Readable, ← isSome_sixteens]
    simp only [Piece.value, hexPair_eq_some_iff, Option.isSome_iff_exists]
    constructor
    · rintro ⟨⟨hi, hhi⟩, lo, hlo⟩
      exact ⟨_, hi, lo, hhi, hlo, rfl⟩
    · rintro ⟨b, hi, lo, hhi, hlo, -⟩
      exact ⟨⟨hi, hhi⟩, lo, hlo⟩

theorem readable_of_forall₂ {pieces : List Piece} {out : Bytes}
    (h : List.Forall₂ (fun p b => p.value isPlain hexPair = some b) pieces out) :
    ∀ p ∈ pieces, Readable p := by
  induction h with
  | nil => exact fun p hp => absurd hp List.not_mem_nil
  | cons hp _ ih => exact List.forall_mem_cons.mpr ⟨readable_iff.mpr ⟨_, hp⟩, ih⟩

theorem exists_forall₂_of_readable {pieces : List Piece} (h : ∀ p ∈ pieces, Readable p) :
    ∃ out, List.Forall₂ (fun p b => p.value isPlain hexPair = some b) pieces out := by
  induction pieces with
  | nil => exact ⟨[], .nil⟩
  | cons p pieces ih =>
    rw [List.forall_mem_cons] at h
    obtain ⟨b, hb⟩ := readable_iff.mp h.1
    obtain ⟨out, hout⟩ := ih h.2
    exact ⟨b :: out, hout.cons hb⟩

/-- **A readable piece is in its own spelling unless it is foreign.** -/
theorem own_iff {p : Piece} (h : Readable p) :
    p.Own isPlain hexPair hexDigits ↔ ¬Foreign p := by
  obtain ⟨b, hb⟩ := readable_iff.mp h
  have hown : p.Own isPlain hexPair hexDigits ↔ p = Escape.piece isPlain hexDigits b := by
    rw [Piece.Own, hb]
    exact ⟨fun h => h b rfl, fun h c hc => by rw [h, Option.some_inj.mp hc]⟩
  rw [hown]
  cases p with
  | plain c =>
    have hc : isPlain c = true := h
    rw [Piece.value, if_pos hc, Option.some_inj] at hb
    rw [← hb, Escape.piece, if_pos hc]
    exact ⟨fun _ h => h, fun _ => rfl⟩
  | escape x y =>
    obtain ⟨hi, lo, hhi, hlo, rfl⟩ := hexPair_eq_some_iff.mp hb
    have hx := sixteens_spec hhi
    have hy := toDigit16_spec y lo hlo
    have hvalue : (UInt8.ofNat (16 * hi + lo)).toNat = 16 * hi + lo := by
      rw [UInt8.toNat_ofNat']
      omega
    have hdigits : hexDigits (UInt8.ofNat (16 * hi + lo)) = (upperHex hi, upperHex lo) := by
      rw [hexDigits, hvalue]
      congr 2 <;> omega
    have hpiece : Piece.escape x y = Escape.piece isPlain hexDigits (UInt8.ofNat (16 * hi + lo)) ↔
        ¬isPlain (UInt8.ofNat (16 * hi + lo)) ∧ x = upperHex hi ∧ y = upperHex lo := by
      rw [Escape.piece, hdigits]
      split_ifs with hplain
      · exact ⟨False.elim, fun h => absurd hplain h.1⟩
      · rw [Piece.escape.injEq]
        exact (and_iff_right hplain).symm
    rw [hpiece, hx.2.2, hy.2.2.2, Foreign, hlo]
    by_cases hsign : x = 0x2b
    · simp [hsign]
    · rw [sixteens, if_neg hsign] at hhi
      simp only [hhi, hsign, Option.getD_some, Bool.not_eq_true, false_or, not_or, ne_eq,
        not_false_eq_true, true_and]
      tauto

/-- **A name is the name of the SSID it reads as unless it is an alias.** -/
theorem fileName_eq_iff {name : String} :
    (∀ ssid, ssidFromFileName name = some ssid → fileName ssid = name) ↔ ¬Alias name := by
  have hkey : ∀ {pieces ssid}, octetsOf name = spell 0x25 pieces ++ octetsOf ".json" →
      List.Forall₂ (fun p b => p.value isPlain hexPair = some b) pieces ssid →
      (fileName ssid = name ↔ ∀ p ∈ pieces, ¬Foreign p) := by
    intro pieces ssid hname hpieces
    have hinj : fileName ssid = name ↔ octetsOf (fileName ssid) = octetsOf name :=
      Text.toUTF8_toList_injective.eq_iff.symm
    rw [hinj, octetsOf_fileName, hname, List.append_left_inj,
      Escape.encode_eq_iff not_isPlain_percent hexPair_hexDigits hpieces]
    exact forall₂_congr fun p hp => own_iff (readable_of_forall₂ hpieces p hp)
  constructor
  · rintro h ⟨pieces, hname, hread, p, hp, hforeign⟩
    obtain ⟨ssid, hpieces⟩ := exists_forall₂_of_readable hread
    have hne : ssid ≠ [] := by
      rintro rfl
      cases hpieces
      exact absurd hp List.not_mem_nil
    have hssid := ssidFromFileName_eq_some_iff.mpr ⟨hne, pieces, hname, hpieces⟩
    exact (hkey hname hpieces).mp (h ssid hssid) p hp hforeign
  · intro h ssid hssid
    obtain ⟨-, pieces, hname, hpieces⟩ := ssidFromFileName_eq_some_iff.mp hssid
    refine (hkey hname hpieces).mpr fun p hp hforeign => h ⟨pieces, hname, ?_, p, hp, hforeign⟩
    exact readable_of_forall₂ hpieces

end Caw
