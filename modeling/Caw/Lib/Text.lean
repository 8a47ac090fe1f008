import Caw.Lib.Octets

/-!
# Text out of octets

* `Text.decodeAt`, `Text.lossyFrom`, `Text.lossy`: UTF-8 with every maximal malformed part replaced
  by U+FFFD;
* `Text.escapeDebug`: the escape of a control character;
* `Text.hexByte`: two hexadecimal digits.
-/

set_option autoImplicit false

namespace Text

/-- What a malformed part is replaced by. -/
def replacement : Char := Char.ofNat 0xfffd

/-- A continuation octet. -/
def isCont (b : UInt8) : Bool := b &&& 0xc0 = 0x80

/-- The second octet a three- or four-octet sequence allows after its first. -/
def secondOk (first second : UInt8) : Bool :=
  if first = 0xe0 then 0xa0 ≤ second ∧ second ≤ 0xbf
  else if first = 0xed then 0x80 ≤ second ∧ second ≤ 0x9f
  else if first = 0xf0 then 0x90 ≤ second ∧ second ≤ 0xbf
  else if first = 0xf4 then 0x80 ≤ second ∧ second ≤ 0x8f
  else isCont second

/-- The payload of a continuation octet. -/
def payload (b : UInt8) : ℕ := b.toNat % 64

/-- The character that starts with octet `b`, and how many of the octets after it belong to it.
An octet past the end reads as zero, which continues nothing. -/
def decodeAt (b : UInt8) (rest : Bytes) : Char × ℕ :=
  let b1 := rest.getD 0 0
  let b2 := rest.getD 1 0
  let b3 := rest.getD 2 0
  if b < 0x80 then (Char.ofNat b.toNat, 0)
  else if 0xc2 ≤ b ∧ b ≤ 0xdf then
    if isCont b1 then (Char.ofNat (b.toNat % 32 * 64 + payload b1), 1) else (replacement, 0)
  else if 0xe0 ≤ b ∧ b ≤ 0xef then
    if !secondOk b b1 then (replacement, 0)
    else if !isCont b2 then (replacement, 1)
    else (Char.ofNat (b.toNat % 16 * 4096 + payload b1 * 64 + payload b2), 2)
  else if 0xf0 ≤ b ∧ b ≤ 0xf4 then
    if !secondOk b b1 then (replacement, 0)
    else if !isCont b2 then (replacement, 1)
    else if !isCont b3 then (replacement, 2)
    else (Char.ofNat (b.toNat % 8 * 262144 + payload b1 * 4096 + payload b2 * 64 + payload b3), 3)
  else (replacement, 0)

/-- The characters of an octet string, of which the first `skip` octets are already taken. -/
def lossyFrom : ℕ → Bytes → List Char
  | _, [] => []
  | skip + 1, _ :: rest => lossyFrom skip rest
  | 0, b :: rest => (decodeAt b rest).1 :: lossyFrom (decodeAt b rest).2 rest

/-- Octets as text, malformed parts replaced. -/
def lossy (b : Bytes) : String := String.ofList (lossyFrom 0 b)

/-! ## Escapes -/

/-- A lower-case hexadecimal digit. -/
def hexDigit (n : ℕ) : Char := "0123456789abcdef".toList.getD n '0'

/-- An octet as two hexadecimal digits. -/
def hexByte (b : UInt8) : List Char := [hexDigit (b.toNat / 16), hexDigit (b.toNat % 16)]

/-- A control character of the C0 and C1 sets. -/
def isControl (c : Char) : Bool := c.toNat < 0x20 ∨ (0x7f ≤ c.toNat ∧ c.toNat < 0xa0)

/-- The escape of a control character: a short one, or its code in hexadecimal. -/
def escapeDebug (c : Char) : List Char :=
  if c.toNat = 0 then ['\\', '0']
  else if c.toNat = 9 then ['\\', 't']
  else if c.toNat = 10 then ['\\', 'n']
  else if c.toNat = 13 then ['\\', 'r']
  else ['\\', 'u', '\x7b'] ++ Nat.toDigits 16 c.toNat ++ ['\x7d']

end Text
