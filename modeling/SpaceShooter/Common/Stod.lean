/-
# Parsing a floating-point text

`std::stod` over a byte string, following `strtod` in the C locale: leading white
space, an optional sign, then an infinity, a NaN, a hexadecimal or a decimal
number; whatever follows the number is ignored.
-/

import SpaceShooter.Common.Scalar

namespace SpaceShooter.Text

/-- The value a text converts to, before it is rounded to a scalar. -/
inductive Number
  | finite (magnitude : ℚ)
  | infinity
  | nan
  deriving DecidableEq

def isSpace (c : UInt8) : Bool := c = 0x20 || (0x09 ≤ c && c ≤ 0x0d)

/-- The value of a decimal digit. -/
def decimalDigit (c : UInt8) : Option ℕ :=
  if 0x30 ≤ c ∧ c ≤ 0x39 then some (c.toNat - 0x30) else none

/-- The value of a hexadecimal digit. -/
def hexDigit (c : UInt8) : Option ℕ :=
  if 0x61 ≤ c ∧ c ≤ 0x66 then some (c.toNat - 0x57)
  else if 0x41 ≤ c ∧ c ≤ 0x46 then some (c.toNat - 0x37)
  else decimalDigit c

/-- Read a maximal run of digits: its value, its length and what follows. -/
def digits (digit : UInt8 → Option ℕ) (base : ℕ) : Bytes → (value count : ℕ) → ℕ × ℕ × Bytes
  | [], value, count => (value, count, [])
  | c :: text, value, count =>
    match digit c with
    | some d => digits digit base text (value * base + d) (count + 1)
    | none => (value, count, c :: text)

/-- Split off an optional sign: whether it was a minus, and what follows. -/
def sign : Bytes → Bool × Bytes
  | c :: text => if c = 0x2d then (true, text) else if c = 0x2b then (false, text)
      else (false, c :: text)
  | [] => (false, [])

/-- An optional exponent part; without a digit behind the marker there is none. -/
def exponent (lower upper : UInt8) : Bytes → ℤ
  | c :: text =>
    if c = lower ∨ c = upper then
      let (negative, rest) := sign text
      let (value, _, _) := digits decimalDigit 10 rest 0 0
      if negative then -value else value
    else 0
  | [] => 0

/-- Digits with an optional fraction: the mantissa without its point, the number
of digits behind the point, the number of digits in all, and what follows. -/
def mantissa (digit : UInt8 → Option ℕ) (base : ℕ) (text : Bytes) : ℕ × ℕ × ℕ × Bytes :=
  let (whole, count, rest) := digits digit base text 0 0
  match rest with
  | 0x2e :: fraction =>
    let (value, count', rest') := digits digit base fraction whole 0
    if count + count' = 0 then (0, 0, 0, rest) else (value, count', count + count', rest')
  | _ => (whole, 0, count, rest)

/-- `text` starts with the ASCII letters of `word`, in either case. -/
def startsWithWord (word : String) (text : Bytes) : Bool :=
  let lower := (text.take word.length).map fun c => if 0x41 ≤ c ∧ c ≤ 0x5a then c + 0x20 else c
  lower = bytesOf word

/-- The number at the front of a text whose white space and sign are read. -/
def unsignedNumber (text : Bytes) : Option Number :=
  if startsWithWord "inf" text then some .infinity
  else if startsWithWord "nan" text then some .nan
  else
    let hexText := text.drop 2
    let (hexValue, hexFraction, hexCount, hexRest) := mantissa hexDigit 16 hexText
    -- Without a hexadecimal digit behind it, "0x" is the number zero and a rest.
    if startsWithWord "0x" text ∧ hexCount ≠ 0 then
      some (.finite (hexValue * (2 : ℚ) ^ (exponent 0x70 0x50 hexRest - 4 * hexFraction)))
    else
      let (value, fraction, count, rest) := mantissa decimalDigit 10 text
      if count = 0 then none
      else some (.finite (value * (10 : ℚ) ^ (exponent 0x65 0x45 rest - fraction)))

variable {K : Type} [Scalar K]

/-- `std::stod`: the scalar a text starts with. No conversion and a value outside
the range of the type are the two exceptions. -/
def stod (text : Bytes) : Except StdException K :=
  let (negative, rest) := sign (text.dropWhile isSpace)
  let signed (k : K) : K := if negative then -k else k
  match unsignedNumber rest with
  | none => .error (.invalid_argument "stod")
  | some .infinity => .ok (signed Scalar.infinity)
  | some .nan => .ok (signed Scalar.nan)
  | some (.finite magnitude) =>
    if Scalar.outOfRange (K := K) magnitude then .error (.out_of_range "stod")
    else .ok (signed (Scalar.lit magnitude))

end SpaceShooter.Text
