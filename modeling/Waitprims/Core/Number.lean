import Mathlib
import Waitprims.Lib.Floating
import Waitprims.Core.Json

/-! # JSON numbers

Binary64 values by their bits, the conversions between them and the integers, and the check that
turns a number token into a value: an integer token must be exact in binary64, any other token must
round to a finite value.

* **`Binary64.nearest`** — correct rounding of a sign and a magnitude; overflow is the infinity.
* **`Numeral`** — a number token by its parts, with the rational it denotes.
* **`numberOf`** — the end of `parse_number`, **`ijsonInt`** — the integer check. -/

namespace Waitprims

namespace Binary64

/-! ## Values -/

/-- The format of the magnitudes: 52 fraction bits, least place `2 ^ -1074`. -/
def format : Floating.Format where
  precision := 52
  leastExponent := -1074

/-- The encoding of the infinite magnitude; the finite ones are below it. -/
def infinity : ℕ := 2047 * 2 ^ 52

/-- The sign bit. -/
def isNegative (x : Binary64) : Bool := x.bits.msb

/-- The encoding without the sign bit. -/
def magnitude (x : Binary64) : ℕ := x.bits.toNat % 2 ^ 63

/-- `f64::is_finite`. -/
def isFinite (x : Binary64) : Bool := x.magnitude < infinity

/-- The rational number of a finite value. -/
def value (x : Binary64) : ℚ :=
  if x.isNegative then -format.value x.magnitude else format.value x.magnitude

/-- The value of a sign and an encoding. -/
def ofMagnitude (negative : Bool) (n : ℕ) : Binary64 :=
  ⟨BitVec.ofNat 64 ((if negative then 2 ^ 63 else 0) + n)⟩

/-- The binary64 value nearest to a signed magnitude, ties to even; overflow is the infinity. -/
def nearest (negative : Bool) (q : ℚ) : Binary64 :=
  ofMagnitude negative (min (format.round q) infinity)

/-- `i128 as f64`. -/
def ofInt (i : ℤ) : Binary64 := nearest (i < 0) i.natAbs

/-- The integer part, toward zero. -/
def truncate (x : Binary64) : ℤ :=
  if x.isNegative then -⌊format.value x.magnitude⌋ else ⌊format.value x.magnitude⌋

/-- `f64 as` an integer type: toward zero, saturating at the bounds of the type. -/
def saturate (least greatest : ℤ) (x : Binary64) : ℤ := max least (min greatest x.truncate)

/-- `f64 as i128`. -/
def toI128 (x : Binary64) : ℤ := x.saturate (-2 ^ 127) (2 ^ 127 - 1)

/-- `f64 as i64`. -/
def toI64 (x : Binary64) : ℤ := x.saturate (-2 ^ 63) (2 ^ 63 - 1)

end Binary64

/-! ## Number tokens -/

/-- The exponent of a number token. -/
structure Exponent where
  marker : Char
  sign : Option Char
  digits : List Char
  deriving DecidableEq, Repr

/-- A number token by its parts. -/
structure Numeral where
  negative : Bool
  whole : List Char
  fraction : Option (List Char)
  exponent : Option Exponent
  deriving DecidableEq, Repr

namespace Numeral

/-- The exponent a token writes. -/
def exponentValue (token : Numeral) : ℤ :=
  match token.exponent with
  | none => 0
  | some e =>
    if e.sign = some '-' then -(Nat.ofDigitChars 10 e.digits 0 : ℤ)
    else Nat.ofDigitChars 10 e.digits 0

/-- The digits after the point. -/
def fractionDigits (token : Numeral) : List Char := token.fraction.getD []

/-- The rational number of the token, without its sign. -/
def magnitude (token : Numeral) : ℚ :=
  Nat.ofDigitChars 10 (token.whole ++ token.fractionDigits) 0
    * 10 ^ (token.exponentValue - token.fractionDigits.length)

/-- The token has neither a fraction nor an exponent. -/
def isIntegerToken (token : Numeral) : Bool := token.fraction.isNone && token.exponent.isNone

/-- The integer of an integer token. -/
def integer (token : Numeral) : ℤ :=
  if token.negative then -(Nat.ofDigitChars 10 token.whole 0 : ℤ)
  else Nat.ofDigitChars 10 token.whole 0

/-- `token.parse::<i128>()`. -/
def parseI128 (token : Numeral) : Option ℤ :=
  if -2 ^ 127 ≤ token.integer ∧ token.integer < 2 ^ 127 then some token.integer else none

/-- `token.parse::<f64>()`, correctly rounded. -/
def parseF64 (token : Numeral) : Binary64 := Binary64.nearest token.negative token.magnitude

end Numeral

/-! ## The number check -/

/-- Canonicalization failure. -/
inductive JcsError
  | invalidJson
  | duplicateKey
  | loneSurrogate
  | nonFiniteNumber
  | integerOutsideIjson
  | unsupported
  deriving DecidableEq, Repr

/-- An integer that binary64 represents; past `i64` it is kept as the float. -/
def ijsonInt (value : ℤ) : Except JcsError Number :=
  let asFloat := Binary64.ofInt value
  if !asFloat.isFinite || asFloat.toI128 ≠ value then .error .integerOutsideIjson
  else if -2 ^ 63 ≤ value ∧ value < 2 ^ 63 then .ok (.int value)
  else .ok (.float asFloat)

/-- The value of a number token. -/
def numberOf (token : Numeral) : Except JcsError Number :=
  if token.isIntegerToken then
    match token.parseI128 with
    | none => .error .integerOutsideIjson
    | some parsed => ijsonInt parsed
  else
    let number := token.parseF64
    if !number.isFinite then .error .nonFiniteNumber else .ok (.float number)

/-- The binary64 value of a number. -/
def Number.toF64 : Number → Binary64
  | .int i => Binary64.ofInt i
  | .float x => x

end Waitprims
