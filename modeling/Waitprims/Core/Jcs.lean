import Mathlib
import Waitprims.Core.Number

/-! # The strict JSON parser

The duplicate-aware parser over the bytes of a text. Its state is what is left of the input; a
recursion of the parser takes fuel, and running out of it is a stop of its own that no source error
stands for.

* **`Jcs.parseString`**, **`Jcs.parseNumber`**, **`Jcs.parseValue`** — the methods of `Parser`.
* **`Jcs.parseStrict`** — `parse_strict`. -/

namespace Waitprims

namespace Jcs

/-! ## The parser's state -/

/-- The input from the position on. -/
abbrev Bytes := List UInt8

/-- Why a parse stopped. -/
inductive Stop
  | outOfFuel
  | error (e : JcsError)
  deriving DecidableEq, Repr

/-- What a parsing step returns: a value and the input after it. -/
abbrev Parsed (α : Type) := Except Stop (α × Bytes)

/-- The byte of an ASCII character. -/
def byte (c : Char) : UInt8 := c.toUInt8

/-- A source error. -/
def fail {α : Type} (e : JcsError) : Except Stop α := .error (.error e)

/-- A decimal digit. -/
def isDigitByte (b : UInt8) : Bool := byte '0' ≤ b && b ≤ byte '9'

/-- A whitespace byte. -/
def isWsByte (b : UInt8) : Bool :=
  b == byte ' ' || b == byte '\t' || b == byte '\n' || b == byte '\r'

/-- `skip_ws`. -/
def skipWs (rest : Bytes) : Bytes := rest.dropWhile isWsByte

/-! ## Strings -/

/-- `char::from_u32`. -/
def charFromU32 (n : ℕ) : Option Char :=
  if h : n.isValidChar then some (Char.ofNatAux n h) else none

/-- `next_char`: the first scalar of the rest, which is validated as UTF-8 whole. -/
def nextChar (rest : Bytes) : Parsed Char :=
  match rest.toByteArray.utf8Decode? with
  | none => fail .invalidJson
  | some chars =>
    match chars.toList with
    | [] => fail .invalidJson
    | ch :: _ => .ok (ch, rest.drop ch.utf8Size)

/-- The value of a hexadecimal digit. -/
def hexDigit (b : UInt8) : Option ℕ :=
  if byte '0' ≤ b && b ≤ byte '9' then some (b.toNat - (byte '0').toNat)
  else if byte 'a' ≤ b && b ≤ byte 'f' then some (b.toNat - (byte 'a').toNat + 10)
  else if byte 'A' ≤ b && b ≤ byte 'F' then some (b.toNat - (byte 'A').toNat + 10)
  else none

/-- The loop of `read_hex4`. -/
def readHex : ℕ → ℕ → Bytes → Parsed ℕ
  | 0, value, rest => .ok (value, rest)
  | _ + 1, _, [] => fail .invalidJson
  | n + 1, value, b :: rest =>
    match hexDigit b with
    | none => fail .invalidJson
    | some digit => readHex n (value * 16 + digit) rest

/-- `read_hex4`. -/
def readHex4 (rest : Bytes) : Parsed ℕ := readHex 4 0 rest

/-- A high surrogate. -/
def isHighSurrogate (unit : ℕ) : Bool := 0xd800 ≤ unit && unit ≤ 0xdbff

/-- A low surrogate. -/
def isLowSurrogate (unit : ℕ) : Bool := 0xdc00 ≤ unit && unit ≤ 0xdfff

/-- The scalar value of a surrogate pair. -/
def pairScalar (high low : ℕ) : ℕ := 0x10000 + ((high - 0xd800) * 2 ^ 10 + (low - 0xdc00))

/-- A scalar, or the error for what is none. -/
def scalar (n : ℕ) (e : JcsError) (rest : Bytes) : Parsed Char :=
  match charFromU32 n with
  | none => fail e
  | some ch => .ok (ch, rest)

/-- The low half of a surrogate pair. -/
def parseLowSurrogate (high : ℕ) (rest : Bytes) : Parsed Char :=
  match rest with
  | backslash :: u :: rest =>
    if backslash = byte '\\' ∧ u = byte 'u' then
      (readHex4 rest).bind fun (low, rest) =>
        if isLowSurrogate low then scalar (pairScalar high low) .loneSurrogate rest
        else fail .loneSurrogate
    else fail .loneSurrogate
  | _ => fail .loneSurrogate

/-- `parse_unicode_escape`. -/
def parseUnicodeEscape (rest : Bytes) : Parsed Char :=
  (readHex4 rest).bind fun (unit, rest) =>
    if isHighSurrogate unit then parseLowSurrogate unit rest
    else if isLowSurrogate unit then fail .loneSurrogate
    else scalar unit .invalidJson rest

/-- The character of a two-character escape. -/
def simpleEscape (esc : UInt8) : Option Char :=
  if esc = byte '"' then some '"'
  else if esc = byte '\\' then some '\\'
  else if esc = byte '/' then some '/'
  else if esc = byte 'b' then some '\x08'
  else if esc = byte 'f' then some '\x0c'
  else if esc = byte 'n' then some '\n'
  else if esc = byte 'r' then some '\r'
  else if esc = byte 't' then some '\t'
  else none

/-- What follows the backslash of an escape. -/
def parseEscape (rest : Bytes) : Parsed Char :=
  match rest with
  | [] => fail .invalidJson
  | esc :: rest =>
    if esc = byte 'u' then parseUnicodeEscape rest
    else
      match simpleEscape esc with
      | none => fail .invalidJson
      | some ch => .ok (ch, rest)

/-- The loop of `parse_string`. -/
def parseChars : ℕ → List Char → Bytes → Parsed String
  | 0, _, _ => .error .outOfFuel
  | _ + 1, _, [] => fail .invalidJson
  | fuel + 1, out, b :: rest =>
    if b = byte '"' then .ok (String.ofList out, rest)
    else if b = byte '\\' then
      (parseEscape rest).bind fun (ch, rest) => parseChars fuel (out ++ [ch]) rest
    else if b ≤ 0x1f then fail .invalidJson
    else (nextChar (b :: rest)).bind fun (ch, rest) => parseChars fuel (out ++ [ch]) rest

/-- `parse_string`, from the opening quote on. -/
def parseString (rest : Bytes) : Parsed String := parseChars (rest.length + 1) [] (rest.drop 1)

/-! ## Numbers -/

/-- The digits at the front. -/
def takeDigits (rest : Bytes) : List Char := (rest.takeWhile isDigitByte).map Char.ofUInt8

/-- What follows the digits at the front. -/
def dropDigits (rest : Bytes) : Bytes := rest.dropWhile isDigitByte

/-- At least one digit. -/
def someDigits (rest : Bytes) : Parsed (List Char) :=
  if (takeDigits rest).isEmpty then fail .invalidJson else .ok (takeDigits rest, dropDigits rest)

/-- The integer part: a zero alone, or digits that a zero does not lead. -/
def parseWhole (rest : Bytes) : Parsed (List Char) :=
  if rest.head? = some (byte '0') then
    if (rest.drop 1).head?.any isDigitByte then fail .invalidJson
    else .ok (['0'], rest.drop 1)
  else someDigits rest

/-- The fraction, if a point starts one. -/
def parseFraction (rest : Bytes) : Parsed (Option (List Char)) :=
  if rest.head? = some (byte '.') then
    (someDigits (rest.drop 1)).map fun (digits, rest) => (some digits, rest)
  else .ok (none, rest)

/-- The sign of an exponent. -/
def parseExponentSign (rest : Bytes) : Option Char × Bytes :=
  if rest.head? = some (byte '+') then (some '+', rest.drop 1)
  else if rest.head? = some (byte '-') then (some '-', rest.drop 1)
  else (none, rest)

/-- The exponent after its marker. -/
def parseExponentTail (marker : Char) (rest : Bytes) : Parsed (Option Exponent) :=
  let (sign, rest) := parseExponentSign rest
  (someDigits rest).map fun (digits, rest) => (some ⟨marker, sign, digits⟩, rest)

/-- The exponent, if a marker starts one. -/
def parseExponent (rest : Bytes) : Parsed (Option Exponent) :=
  if rest.head? = some (byte 'e') then parseExponentTail 'e' (rest.drop 1)
  else if rest.head? = some (byte 'E') then parseExponentTail 'E' (rest.drop 1)
  else .ok (none, rest)

/-- The token after its sign. -/
def parseNumeral (negative : Bool) (rest : Bytes) : Parsed Numeral :=
  (parseWhole rest).bind fun (whole, rest) =>
    (parseFraction rest).bind fun (fraction, rest) =>
      (parseExponent rest).map fun (exponent, rest) =>
        (⟨negative, whole, fraction, exponent⟩, rest)

/-- The token of a number. -/
def parseToken (rest : Bytes) : Parsed Numeral :=
  if rest.head? = some (byte '-') then parseNumeral true (rest.drop 1) else parseNumeral false rest

/-- `parse_number`. -/
def parseNumber (rest : Bytes) : Parsed Json :=
  (parseToken rest).bind fun (token, rest) =>
    match numberOf token with
    | .error e => fail e
    | .ok number => .ok (.num number, rest)

/-! ## Values -/

/-- `parse_literal`. -/
def parseLiteral (token : List Char) (value : Json) (rest : Bytes) : Parsed Json :=
  let bytes := token.map byte
  if rest.take bytes.length = bytes then .ok (value, rest.drop bytes.length) else fail .invalidJson

/-- `Map::insert` on the members in key order. -/
def insertMember (key : String) (value : Json) : List (String × Json) → List (String × Json)
  | [] => [(key, value)]
  | (k, v) :: members =>
    if key < k then (key, value) :: (k, v) :: members
    else if key = k then (key, value) :: members
    else (k, v) :: insertMember key value members

mutual

/-- `parse_value`. -/
def parseValue : ℕ → Bytes → Parsed Json
  | 0, _ => .error .outOfFuel
  | fuel + 1, rest =>
    match skipWs rest with
    | [] => fail .invalidJson
    | b :: after =>
      if b = byte 'n' then parseLiteral ['n', 'u', 'l', 'l'] .null (b :: after)
      else if b = byte 't' then parseLiteral ['t', 'r', 'u', 'e'] (.bool true) (b :: after)
      else if b = byte 'f' then
        parseLiteral ['f', 'a', 'l', 's', 'e'] (.bool false) (b :: after)
      else if b = byte '"' then (parseString (b :: after)).map fun (s, rest) => (.str s, rest)
      else if b = byte '[' then
        if (skipWs after).head? = some (byte ']') then .ok (.arr [], (skipWs after).drop 1)
        else parseArray fuel [] (skipWs after)
      else if b = byte '{' then
        if (skipWs after).head? = some (byte '}') then .ok (.obj [], (skipWs after).drop 1)
        else parseObject fuel [] (skipWs after)
      else if b = byte '-' || isDigitByte b then parseNumber (b :: after)
      else fail .invalidJson

/-- The loop of `parse_array`. -/
def parseArray : ℕ → List Json → Bytes → Parsed Json
  | 0, _, _ => .error .outOfFuel
  | fuel + 1, items, rest =>
    (parseValue fuel rest).bind fun (item, rest) =>
      match skipWs rest with
      | [] => fail .invalidJson
      | b :: rest =>
        if b = byte ',' then parseArray fuel (items ++ [item]) rest
        else if b = byte ']' then .ok (.arr (items ++ [item]), rest)
        else fail .invalidJson

/-- The loop of `parse_object`. -/
def parseObject : ℕ → List (String × Json) → Bytes → Parsed Json
  | 0, _, _ => .error .outOfFuel
  | fuel + 1, members, rest =>
    if (skipWs rest).head? = some (byte '"') then
      (parseString (skipWs rest)).bind fun (key, rest) =>
        if (Json.lookup key members).isSome then fail .duplicateKey
        else if (skipWs rest).head? = some (byte ':') then
          (parseValue fuel ((skipWs rest).drop 1)).bind fun (value, rest) =>
            match skipWs rest with
            | [] => fail .invalidJson
            | b :: rest =>
              if b = byte ',' then parseObject fuel (insertMember key value members) rest
              else if b = byte '}' then .ok (.obj (insertMember key value members), rest)
              else fail .invalidJson
        else fail .invalidJson
    else fail .invalidJson

end

/-- Enough fuel for an input: two levels of the recursion take a byte. -/
def fuelFor (rest : Bytes) : ℕ := 2 * rest.length + 1

/-- `parse_strict` on the bytes of the text. -/
def parseBytes (bytes : Bytes) : Except Stop Json :=
  (parseValue (fuelFor bytes) bytes).bind fun (value, rest) =>
    if (skipWs rest).isEmpty then .ok value else fail .invalidJson

/-- `raw.as_bytes()`. -/
def asBytes (raw : String) : Bytes := raw.toByteArray.data.toList

/-- `parse_strict`. -/
def parseStrict (raw : String) : Except Stop Json := parseBytes (asBytes raw)

end Jcs

end Waitprims
