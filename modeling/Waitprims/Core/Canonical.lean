import Mathlib
import Waitprims.Core.Jcs

/-! # The canonical encoder

RFC 8785 over a value of the strict parser: no whitespace, shortest escapes, members in the order of
their UTF-16 code units, numbers as binary64. Printing a non-zero float is the parameter
`formatFinite`, and hashing is the parameter `sha256Hex`.

* **`Jcs.encode`** — `encode`; **`Jcs.encodeString`**, **`Jcs.encodeNumber`** — its parts.
* **`Jcs.canonicalizeJson`** — the public entry.
* **`Jcs.registrationPreimage`**, **`Jcs.registrationDigest`** — what a registration set hashes. -/

namespace Waitprims

namespace Jcs

/-! ## Strings -/

/-- The UTF-16 code units of a character. -/
def utf16Units (c : Char) : List ℕ :=
  if c.toNat < 0x10000 then [c.toNat]
  else [0xd800 + (c.toNat - 0x10000) / 0x400, 0xdc00 + (c.toNat - 0x10000) % 0x400]

/-- `str::encode_utf16`. -/
def encodeUtf16 (s : String) : List ℕ := s.toList.flatMap utf16Units

/-- `format!("{n:04x}")`. -/
def hex4Text (n : ℕ) : List Char :=
  List.replicate (4 - (Nat.toDigits 16 n).length) '0' ++ Nat.toDigits 16 n

/-- A character of a string. -/
def encodeChar (c : Char) : Except JcsError (List Char) :=
  if c = '"' then .ok ['\\', '"']
  else if c = '\\' then .ok ['\\', '\\']
  else if c = '\x08' then .ok ['\\', 'b']
  else if c = '\x0c' then .ok ['\\', 'f']
  else if c = '\n' then .ok ['\\', 'n']
  else if c = '\r' then .ok ['\\', 'r']
  else if c = '\t' then .ok ['\\', 't']
  else if 0xd800 ≤ c.toNat && c.toNat ≤ 0xdfff then .error .loneSurrogate
  else if c.toNat < 0x20 then .ok ('\\' :: 'u' :: hex4Text c.toNat)
  else .ok [c]

/-- `encode_string`. -/
def encodeString (value : String) : Except JcsError (List Char) :=
  (value.toList.mapM encodeChar).map fun pieces => '"' :: (pieces.flatten ++ ['"'])

/-! ## Numbers -/

section Encode

variable (formatFinite : Binary64 → List Char)

/-- `encode_f64`. -/
def encodeF64 (number : Binary64) : Except JcsError (List Char) :=
  if !number.isFinite then .error .nonFiniteNumber
  else if number.magnitude = 0 then .ok ['0']
  else .ok (formatFinite number)

/-- `f64 as u64`. -/
def toU64 (x : Binary64) : ℤ := x.saturate 0 (2 ^ 64 - 1)

/-- `encode_number`. -/
def encodeNumber (number : Number) : Except JcsError (List Char) :=
  match number with
  | .int i =>
    if -2 ^ 63 ≤ i ∧ i < 2 ^ 63 then
      let asFloat := Binary64.ofInt i
      if asFloat.toI64 ≠ i then .error .integerOutsideIjson else encodeF64 formatFinite asFloat
    else if 0 ≤ i ∧ i < 2 ^ 64 then
      let asFloat := Binary64.ofInt i
      if toU64 asFloat ≠ i then .error .integerOutsideIjson else encodeF64 formatFinite asFloat
    else .error .unsupported
  | .float f => encodeF64 formatFinite f

/-! ## Values -/

/-- Pieces with commas between them. -/
def commas : List (List Char) → List Char
  | [] => []
  | [piece] => piece
  | piece :: pieces => piece ++ ',' :: commas pieces

/-- `keys.sort_by` of the members, in the order of the UTF-16 code units of their names. -/
def sortMembers {α : Type} (members : List (String × α)) : List (String × α) :=
  members.insertionSort fun a b => encodeUtf16 a.1 ≤ encodeUtf16 b.1

/-- A member, from what its value encodes to. -/
def encodeMember (key : String) (value : Except JcsError (List Char)) :
    Except JcsError (List Char) :=
  (encodeString key).bind fun name => value.map fun text => name ++ ':' :: text

mutual

/-- `encode`. -/
def encode : Json → Except JcsError (List Char)
  | .null => .ok ['n', 'u', 'l', 'l']
  | .bool true => .ok ['t', 'r', 'u', 'e']
  | .bool false => .ok ['f', 'a', 'l', 's', 'e']
  | .str s => encodeString s
  | .num n => encodeNumber formatFinite n
  | .arr items =>
    ((encodeItems items).mapM id).map fun pieces => '[' :: (commas pieces ++ [']'])
  | .obj members =>
    ((sortMembers (encodeMembers members)).mapM Prod.snd).map fun pieces =>
      '{' :: (commas pieces ++ ['}'])

/-- What each element encodes to. -/
def encodeItems : List Json → List (Except JcsError (List Char))
  | [] => []
  | item :: items => encode item :: encodeItems items

/-- What each member encodes to, under its name. -/
def encodeMembers : List (String × Json) → List (String × Except JcsError (List Char))
  | [] => []
  | (key, value) :: members => (key, encodeMember key (encode value)) :: encodeMembers members

end

/-- `encode_unique`: the bytes of the canonical text. -/
def encodeUnique (value : Json) : Except JcsError Bytes :=
  (encode formatFinite value).map fun text => asBytes (String.ofList text)

/-! ## The public entries -/

/-- `canonicalize_bytes`. -/
def canonicalizeBytes (raw : Bytes) : Except Stop Bytes :=
  match raw.toByteArray.utf8Decode? with
  | none => fail .invalidJson
  | some _ => (parseBytes raw).bind fun value => (encodeUnique formatFinite value).mapError .error

/-- `canonicalize_json`. -/
def canonicalizeJson (raw : String) : Except Stop Bytes :=
  canonicalizeBytes formatFinite (asBytes raw)

/-- What `digest_unique_registrations` hashes. -/
def uniqueRegistrations (registrations : Json) : Except JcsError Bytes :=
  match registrations with
  | .arr _ => encodeUnique formatFinite registrations
  | _ => .error .unsupported

/-- What `registration_digest` hashes. -/
def registrationPreimage (raw : String) : Except Stop Bytes :=
  (parseStrict raw).bind fun parsed => (uniqueRegistrations formatFinite parsed).mapError .error

/-- `registration_digest`. -/
def registrationDigest (sha256Hex : Bytes → String) (raw : String) : Except Stop String :=
  (registrationPreimage formatFinite raw).map sha256Hex

end Encode

end Jcs

end Waitprims
