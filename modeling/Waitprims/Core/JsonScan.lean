import Mathlib
import Waitprims.Lib.Utf8
import Waitprims.Core.Jcs
import Waitprims.Core.JsonText

/-! # The strict parser over characters

The parser of the source reads bytes. This is the same reading over the characters they encode:
every byte it compares is ASCII, so a comparison of bytes is one of characters, and only `next_char`
decodes. The two agree on the encoding of any list of characters.

* **`JsonScan.scanValue`** — `parse_value` over characters.
* **`JsonScan.parseStrict_eq`** — `parse_strict` reads a text as the scanner reads its
  characters. -/

namespace Waitprims

namespace JsonScan

open Jcs (Stop Bytes Parsed fail byte)
open JsonText (hexValue escaped)

/-- What a scanning step returns: a value and the characters after it. -/
abbrev Scanned (α : Type) := Except Stop (α × List Char)

/-! ## The scanner -/

/-- Skip whitespace. -/
def skipWs (cs : List Char) : List Char := cs.dropWhile isWsChar

/-- The hexadecimal digits of an escape. -/
def scanHex : ℕ → ℕ → List Char → Scanned ℕ
  | 0, value, cs => .ok (value, cs)
  | _ + 1, _, [] => fail .invalidJson
  | n + 1, value, c :: cs =>
    match hexValue c with
    | none => fail .invalidJson
    | some digit => scanHex n (value * 16 + digit) cs

/-- A scalar, or the error for what is none. -/
def scalar (n : ℕ) (e : JcsError) (cs : List Char) : Scanned Char :=
  match Jcs.charFromU32 n with
  | none => fail e
  | some ch => .ok (ch, cs)

/-- The low half of a surrogate pair. -/
def scanLowSurrogate (high : ℕ) (cs : List Char) : Scanned Char :=
  match cs with
  | backslash :: u :: cs =>
    if backslash = '\\' ∧ u = 'u' then
      (scanHex 4 0 cs).bind fun (low, cs) =>
        if Jcs.isLowSurrogate low then scalar (Jcs.pairScalar high low) .loneSurrogate cs
        else fail .loneSurrogate
    else fail .loneSurrogate
  | _ => fail .loneSurrogate

/-- A Unicode escape after its marker. -/
def scanUnicodeEscape (cs : List Char) : Scanned Char :=
  (scanHex 4 0 cs).bind fun (unit, cs) =>
    if Jcs.isHighSurrogate unit then scanLowSurrogate unit cs
    else if Jcs.isLowSurrogate unit then fail .loneSurrogate
    else scalar unit .invalidJson cs

/-- What follows the backslash of an escape. -/
def scanEscape (cs : List Char) : Scanned Char :=
  match cs with
  | [] => fail .invalidJson
  | esc :: cs =>
    if esc = 'u' then scanUnicodeEscape cs
    else
      match escaped esc with
      | none => fail .invalidJson
      | some ch => .ok (ch, cs)

/-- The characters of a string up to its closing quote. -/
def scanChars : ℕ → List Char → List Char → Scanned String
  | 0, _, _ => .error .outOfFuel
  | _ + 1, _, [] => fail .invalidJson
  | fuel + 1, out, c :: cs =>
    if c = '"' then .ok (String.ofList out, cs)
    else if c = '\\' then
      (scanEscape cs).bind fun (ch, cs) => scanChars fuel (out ++ [ch]) cs
    else if c.toNat ≤ 0x1f then fail .invalidJson
    else scanChars fuel (out ++ [c]) cs

/-- A string from its opening quote on; the fuel is the parser's, in bytes. -/
def scanString (cs : List Char) : Scanned String :=
  scanChars ((Utf8.encode cs).length + 1) [] (cs.drop 1)

/-- At least one digit. -/
def someDigits (cs : List Char) : Scanned (List Char) :=
  if (cs.takeWhile isDigitChar).isEmpty then fail .invalidJson
  else .ok (cs.takeWhile isDigitChar, cs.dropWhile isDigitChar)

/-- The integer part of a number. -/
def scanWhole (cs : List Char) : Scanned (List Char) :=
  if cs.head? = some '0' then
    if (cs.drop 1).head?.any isDigitChar then fail .invalidJson else .ok (['0'], cs.drop 1)
  else someDigits cs

/-- The fraction of a number. -/
def scanFraction (cs : List Char) : Scanned (Option (List Char)) :=
  if cs.head? = some '.' then
    (someDigits (cs.drop 1)).map fun (digits, cs) => (some digits, cs)
  else .ok (none, cs)

/-- The sign of an exponent. -/
def scanExponentSign (cs : List Char) : Option Char × List Char :=
  if cs.head? = some '+' then (some '+', cs.drop 1)
  else if cs.head? = some '-' then (some '-', cs.drop 1)
  else (none, cs)

/-- The exponent after its marker. -/
def scanExponentTail (marker : Char) (cs : List Char) : Scanned (Option Exponent) :=
  let (sign, cs) := scanExponentSign cs
  (someDigits cs).map fun (digits, cs) => (some ⟨marker, sign, digits⟩, cs)

/-- The exponent of a number. -/
def scanExponent (cs : List Char) : Scanned (Option Exponent) :=
  if cs.head? = some 'e' then scanExponentTail 'e' (cs.drop 1)
  else if cs.head? = some 'E' then scanExponentTail 'E' (cs.drop 1)
  else .ok (none, cs)

/-- A number token after its sign. -/
def scanNumeral (negative : Bool) (cs : List Char) : Scanned Numeral :=
  (scanWhole cs).bind fun (whole, cs) =>
    (scanFraction cs).bind fun (fraction, cs) =>
      (scanExponent cs).map fun (exponent, cs) => (⟨negative, whole, fraction, exponent⟩, cs)

/-- A number token. -/
def scanToken (cs : List Char) : Scanned Numeral :=
  if cs.head? = some '-' then scanNumeral true (cs.drop 1) else scanNumeral false cs

/-- A number. -/
def scanNumber (cs : List Char) : Scanned Json :=
  (scanToken cs).bind fun (token, cs) =>
    match numberOf token with
    | .error e => fail e
    | .ok number => .ok (.num number, cs)

/-- A literal. -/
def scanLiteral (token : List Char) (value : Json) (cs : List Char) : Scanned Json :=
  if cs.take token.length = token then .ok (value, cs.drop token.length)
  else fail .invalidJson

mutual

/-- A value. -/
def scanValue : ℕ → List Char → Scanned Json
  | 0, _ => .error .outOfFuel
  | fuel + 1, cs =>
    match skipWs cs with
    | [] => fail .invalidJson
    | c :: after =>
      if c = 'n' then scanLiteral ['n', 'u', 'l', 'l'] .null (c :: after)
      else if c = 't' then scanLiteral ['t', 'r', 'u', 'e'] (.bool true) (c :: after)
      else if c = 'f' then
        scanLiteral ['f', 'a', 'l', 's', 'e'] (.bool false) (c :: after)
      else if c = '"' then (scanString (c :: after)).map fun (s, cs) => (.str s, cs)
      else if c = '[' then
        if (skipWs after).head? = some ']' then .ok (.arr [], (skipWs after).drop 1)
        else scanArray fuel [] (skipWs after)
      else if c = '{' then
        if (skipWs after).head? = some '}' then .ok (.obj [], (skipWs after).drop 1)
        else scanObject fuel [] (skipWs after)
      else if c = '-' || isDigitChar c then scanNumber (c :: after)
      else fail .invalidJson

/-- The elements of an array. -/
def scanArray : ℕ → List Json → List Char → Scanned Json
  | 0, _, _ => .error .outOfFuel
  | fuel + 1, items, cs =>
    (scanValue fuel cs).bind fun (item, cs) =>
      match skipWs cs with
      | [] => fail .invalidJson
      | c :: cs =>
        if c = ',' then scanArray fuel (items ++ [item]) cs
        else if c = ']' then .ok (.arr (items ++ [item]), cs)
        else fail .invalidJson

/-- The members of an object. -/
def scanObject : ℕ → List (String × Json) → List Char → Scanned Json
  | 0, _, _ => .error .outOfFuel
  | fuel + 1, members, cs =>
    if (skipWs cs).head? = some '"' then
      (scanString (skipWs cs)).bind fun (key, cs) =>
        if (Json.lookup key members).isSome then fail .duplicateKey
        else if (skipWs cs).head? = some ':' then
          (scanValue fuel ((skipWs cs).drop 1)).bind fun (value, cs) =>
            match skipWs cs with
            | [] => fail .invalidJson
            | c :: cs =>
              if c = ',' then scanObject fuel (Jcs.insertMember key value members) cs
              else if c = '}' then .ok (.obj (Jcs.insertMember key value members), cs)
              else fail .invalidJson
        else fail .invalidJson
    else fail .invalidJson

end

/-- A whole text. -/
def scanText (fuel : ℕ) (cs : List Char) : Except Stop Json :=
  (scanValue fuel cs).bind fun (value, rest) =>
    if (skipWs rest).isEmpty then .ok value else fail .invalidJson

/-! ## A byte stands for a character

`encoded` turns what a scanner returns into what the parser returns on the encoding. -/

/-- What the parser returns where the scanner returns this. -/
def encoded {α : Type} (r : Scanned α) : Parsed α := r.map fun p => (p.1, Utf8.encode p.2)

@[simp] theorem encoded_ok {α : Type} (a : α) (cs : List Char) :
    encoded (.ok (a, cs)) = .ok (a, Utf8.encode cs) := rfl

@[simp] theorem encoded_error {α : Type} (e : Stop) :
    encoded (.error e : Scanned α) = .error e := rfl

@[simp] theorem encoded_fail {α : Type} (e : JcsError) :
    encoded (fail e : Scanned α) = fail e := rfl

/-- A step and then another, read off the encoding. -/
theorem encoded_bind {α β : Type} (r : Scanned α) {k : α × Bytes → Parsed β}
    {k' : α × List Char → Scanned β}
    (h : ∀ a cs, k (a, Utf8.encode cs) = encoded (k' (a, cs))) :
    (encoded r).bind k = encoded (r.bind k') := by
  rcases r with e | ⟨a, cs⟩
  · rfl
  · exact h a cs

/-- Naming what a step returns commutes with the encoding. -/
theorem encoded_map {α β : Type} (r : Scanned α) (f : α → β) :
    (encoded r).map (fun p => (f p.1, p.2)) = encoded (r.map fun p => (f p.1, p.2)) := by
  rcases r with e | ⟨a, cs⟩ <;> rfl

/-! ## The tests of bytes -/

/-- The byte of an ASCII character. -/
theorem byte_eq_iff {c a : Char} (hc : Utf8.IsAscii c) (ha : Utf8.IsAscii a) :
    c.toUInt8 = byte a ↔ c = a := Utf8.toUInt8_eq_iff hc ha

/-- A byte that is not ASCII. -/
theorem high_ne_byte {b : UInt8} (hb : 0x80 ≤ b.toNat) {a : Char} (ha : Utf8.IsAscii a) :
    b ≠ byte a := Utf8.high_ne hb ha

/-- The order of ASCII bytes is that of the characters. -/
theorem toUInt8_le_iff {a c : Char} (ha : Utf8.IsAscii a) (hc : Utf8.IsAscii c) :
    a.toUInt8 ≤ c.toUInt8 ↔ a ≤ c := by
  rw [UInt8.le_iff_toNat_le, Utf8.toNat_toUInt8 ha, Utf8.toNat_toUInt8 hc, Char.le_def,
    UInt32.le_iff_toNat_le]
  rfl

/-- A range of ASCII characters. -/
theorem agree_range {a z : Char} (ha : Utf8.IsAscii a) (hz : Utf8.IsAscii z) :
    Utf8.Agree (fun b => byte a ≤ b && b ≤ byte z) (fun c => a ≤ c && c ≤ z) where
  ascii c hc := by
    have h₁ : (byte a ≤ c.toUInt8) = (a ≤ c) := propext (toUInt8_le_iff ha hc)
    have h₂ : (c.toUInt8 ≤ byte z) = (c ≤ z) := propext (toUInt8_le_iff hc hz)
    simp only [h₁, h₂]
  high b hb := by
    have hlt : ¬ b ≤ byte z := by
      intro h
      rw [UInt8.le_iff_toNat_le] at h
      have hn : (byte z).toNat = z.toNat := Utf8.toNat_toUInt8 hz
      unfold Utf8.IsAscii at hz
      omega
    simp [hlt]
  wide c hc := by
    have hlt : ¬ c ≤ z := by
      intro h
      have h' : c.toNat ≤ z.toNat := h
      unfold Utf8.IsAscii at hc hz
      omega
    simp [hlt]

/-- The test of a digit. -/
theorem agree_digit : Utf8.Agree Jcs.isDigitByte isDigitChar :=
  agree_range (by decide) (by decide)

/-- The test of whitespace. -/
theorem agree_ws : Utf8.Agree Jcs.isWsByte isWsChar where
  ascii c hc := by
    have key : ∀ a : Char, Utf8.IsAscii a → (c.toUInt8 == byte a) = (c == a) := by
      intro a ha
      rw [Bool.eq_iff_iff, beq_iff_eq, beq_iff_eq]
      exact byte_eq_iff hc ha
    unfold Jcs.isWsByte isWsChar
    rw [key ' ' (by decide), key '\t' (by decide), key '\n' (by decide), key '\r' (by decide)]
  high b hb := by
    have key : ∀ a : Char, Utf8.IsAscii a → (b == byte a) = false := fun a ha =>
      beq_eq_false_iff_ne.mpr (high_ne_byte hb ha)
    unfold Jcs.isWsByte
    rw [key ' ' (by decide), key '\t' (by decide), key '\n' (by decide), key '\r' (by decide)]
    rfl
  wide c hc := by
    have key : ∀ a : Char, Utf8.IsAscii a → (c == a) = false := by
      intro a ha
      apply beq_eq_false_iff_ne.mpr
      rintro rfl
      exact hc ha
    unfold isWsChar
    rw [key ' ' (by decide), key '\t' (by decide), key '\n' (by decide), key '\r' (by decide)]
    rfl

/-- Whitespace is skipped byte by byte. -/
@[simp] theorem skipWs_encode (cs : List Char) :
    Jcs.skipWs (Utf8.encode cs) = Utf8.encode (skipWs cs) := agree_ws.dropWhile_encode cs

/-- A hexadecimal digit. -/
theorem hexDigit_ascii {c : Char} (hc : Utf8.IsAscii c) :
    Jcs.hexDigit c.toUInt8 = hexValue c := by
  unfold Jcs.hexDigit hexValue
  rw [(agree_range (a := '0') (z := '9') (by decide) (by decide)).ascii c hc,
    (agree_range (a := 'a') (z := 'f') (by decide) (by decide)).ascii c hc,
    (agree_range (a := 'A') (z := 'F') (by decide) (by decide)).ascii c hc, Utf8.toNat_toUInt8 hc]
  rfl

/-- No other byte is a hexadecimal digit. -/
theorem hexDigit_high {b : UInt8} (hb : 0x80 ≤ b.toNat) : Jcs.hexDigit b = none := by
  unfold Jcs.hexDigit
  rw [(agree_range (a := '0') (z := '9') (by decide) (by decide)).high b hb,
    (agree_range (a := 'a') (z := 'f') (by decide) (by decide)).high b hb,
    (agree_range (a := 'A') (z := 'F') (by decide) (by decide)).high b hb]
  rfl

/-- No other character is a hexadecimal digit. -/
theorem hexValue_wide {c : Char} (hc : ¬ Utf8.IsAscii c) : hexValue c = none := by
  unfold hexValue
  rw [(agree_range (a := '0') (z := '9') (by decide) (by decide)).wide c hc,
    (agree_range (a := 'a') (z := 'f') (by decide) (by decide)).wide c hc,
    (agree_range (a := 'A') (z := 'F') (by decide) (by decide)).wide c hc]
  rfl

/-- A two-character escape. -/
theorem simpleEscape_ascii {c : Char} (hc : Utf8.IsAscii c) :
    Jcs.simpleEscape c.toUInt8 = escaped c := by
  have key : ∀ a : Char, Utf8.IsAscii a → (c.toUInt8 = byte a) = (c = a) := fun a ha =>
    propext (byte_eq_iff hc ha)
  unfold Jcs.simpleEscape escaped
  simp only [key '"' (by decide), key '\\' (by decide), key '/' (by decide), key 'b' (by decide),
    key 'f' (by decide), key 'n' (by decide), key 'r' (by decide), key 't' (by decide)]

/-- No other byte is an escape. -/
theorem simpleEscape_high {b : UInt8} (hb : 0x80 ≤ b.toNat) : Jcs.simpleEscape b = none := by
  have key : ∀ a : Char, Utf8.IsAscii a → ¬ b = byte a := fun a ha => high_ne_byte hb ha
  unfold Jcs.simpleEscape
  rw [if_neg (key '"' (by decide)), if_neg (key '\\' (by decide)), if_neg (key '/' (by decide)),
    if_neg (key 'b' (by decide)), if_neg (key 'f' (by decide)), if_neg (key 'n' (by decide)),
    if_neg (key 'r' (by decide)), if_neg (key 't' (by decide))]

/-- No other character is an escape. -/
theorem escaped_wide {c : Char} (hc : ¬ Utf8.IsAscii c) : escaped c = none := by
  have key : ∀ a : Char, Utf8.IsAscii a → ¬ c = a := by
    rintro a ha rfl
    exact hc ha
  unfold escaped
  rw [if_neg (key '"' (by decide)), if_neg (key '\\' (by decide)), if_neg (key '/' (by decide)),
    if_neg (key 'b' (by decide)), if_neg (key 'f' (by decide)), if_neg (key 'n' (by decide)),
    if_neg (key 'r' (by decide)), if_neg (key 't' (by decide))]

/-! ## The parser reads an encoding as the scanner reads the characters -/

/-- Hexadecimal digits. -/
theorem readHex_encode (n value : ℕ) (cs : List Char) :
    Jcs.readHex n value (Utf8.encode cs) = encoded (scanHex n value cs) := by
  induction n generalizing value cs with
  | zero => rfl
  | succ n ih =>
    cases cs with
    | nil => rfl
    | cons c cs =>
      unfold scanHex
      by_cases hc : Utf8.IsAscii c
      · rw [Utf8.encode_ascii hc]
        unfold Jcs.readHex
        rw [hexDigit_ascii hc]
        cases hexValue c with
        | none => rfl
        | some digit => exact ih _ cs
      · obtain ⟨b, rest, he, hb⟩ := Utf8.encode_high hc cs
        rw [he]
        unfold Jcs.readHex
        rw [hexDigit_high hb, hexValue_wide hc]
        rfl

/-- A scalar. -/
theorem scalar_encode (n : ℕ) (e : JcsError) (cs : List Char) :
    Jcs.scalar n e (Utf8.encode cs) = encoded (scalar n e cs) := by
  unfold Jcs.scalar scalar
  cases Jcs.charFromU32 n <;> rfl

/-- A low surrogate starts with a backslash. -/
theorem scanLowSurrogate_of_ne (high : ℕ) {c : Char} (h : c ≠ '\\') (cs : List Char) :
    scanLowSurrogate high (c :: cs) = fail .loneSurrogate := by
  cases cs with
  | nil => rfl
  | cons u cs =>
    dsimp only [scanLowSurrogate]
    rw [if_neg fun hand => h hand.1]

/-- The low half of a surrogate pair. -/
theorem parseLowSurrogate_encode (high : ℕ) (cs : List Char) :
    Jcs.parseLowSurrogate high (Utf8.encode cs) = encoded (scanLowSurrogate high cs) := by
  -- a byte that is not ASCII at either place is refused, and so is its character
  have refused : ∀ (b : UInt8) (rest : Bytes), b ≠ byte '\\' →
      Jcs.parseLowSurrogate high (b :: rest) = fail .loneSurrogate := by
    intro b rest hb
    cases rest with
    | nil => rfl
    | cons u rest =>
      dsimp only [Jcs.parseLowSurrogate]
      rw [if_neg fun hand => hb hand.1]
  cases cs with
  | nil => rfl
  | cons c cs =>
    by_cases hc : Utf8.IsAscii c
    · rw [Utf8.encode_ascii hc]
      by_cases hslash : c = '\\'
      · subst hslash
        cases cs with
        | nil => rfl
        | cons u cs =>
          by_cases hu : Utf8.IsAscii u
          · rw [Utf8.encode_ascii hu]
            dsimp only [Jcs.parseLowSurrogate, scanLowSurrogate]
            have hiff := byte_eq_iff hu (show Utf8.IsAscii 'u' by decide)
            by_cases h : u = 'u'
            · subst h
              rw [if_pos ⟨rfl, rfl⟩, if_pos ⟨rfl, rfl⟩]
              unfold Jcs.readHex4
              rw [readHex_encode]
              apply encoded_bind
              intro low cs
              split
              · exact scalar_encode _ _ cs
              · rfl
            · rw [if_neg fun hand => h (hiff.mp hand.2), if_neg fun hand => h hand.2]
              rfl
          · obtain ⟨b, rest, he, hb⟩ := Utf8.encode_high hu cs
            have hne : u ≠ 'u' := by
              rintro rfl
              exact hu (by decide)
            rw [he]
            dsimp only [Jcs.parseLowSurrogate, scanLowSurrogate]
            rw [if_neg fun hand => high_ne_byte hb (show Utf8.IsAscii 'u' by decide) hand.2,
              if_neg fun hand => hne hand.2]
            rfl
      · rw [refused _ _ fun h => hslash ((byte_eq_iff hc (by decide)).mp h),
          scanLowSurrogate_of_ne high hslash]
        rfl
    · obtain ⟨b, rest, he, hb⟩ := Utf8.encode_high hc cs
      have hne : c ≠ '\\' := by
        rintro rfl
        exact hc (by decide)
      rw [he, refused b rest (high_ne_byte hb (by decide)), scanLowSurrogate_of_ne high hne]
      rfl

/-- A Unicode escape. -/
theorem parseUnicodeEscape_encode (cs : List Char) :
    Jcs.parseUnicodeEscape (Utf8.encode cs) = encoded (scanUnicodeEscape cs) := by
  unfold Jcs.parseUnicodeEscape scanUnicodeEscape Jcs.readHex4
  rw [readHex_encode]
  apply encoded_bind
  intro unit cs
  show (if Jcs.isHighSurrogate unit then _ else _) = encoded (if Jcs.isHighSurrogate unit then _ else _)
  split
  · exact parseLowSurrogate_encode unit cs
  · split
    · rfl
    · exact scalar_encode _ _ cs

/-- An escape. -/
theorem parseEscape_encode (cs : List Char) :
    Jcs.parseEscape (Utf8.encode cs) = encoded (scanEscape cs) := by
  cases cs with
  | nil => rfl
  | cons c cs =>
    dsimp only [scanEscape]
    by_cases hc : Utf8.IsAscii c
    · rw [Utf8.encode_ascii hc]
      dsimp only [Jcs.parseEscape]
      have hiff := byte_eq_iff hc (show Utf8.IsAscii 'u' by decide)
      by_cases h : c = 'u'
      · subst h
        rw [if_pos (show 'u'.toUInt8 = byte 'u' from rfl), if_pos rfl]
        exact parseUnicodeEscape_encode cs
      · rw [if_neg fun hu => h (hiff.mp hu), if_neg h, simpleEscape_ascii hc]
        cases escaped c <;> rfl
    · obtain ⟨b, rest, he, hb⟩ := Utf8.encode_high hc cs
      have hne : c ≠ 'u' := by
        rintro rfl
        exact hc (by decide)
      rw [he, if_neg hne, escaped_wide hc]
      dsimp only [Jcs.parseEscape]
      rw [if_neg (high_ne_byte hb (show Utf8.IsAscii 'u' by decide)), simpleEscape_high hb]
      rfl

/-- The next character of an encoding. -/
theorem nextChar_encode (c : Char) (cs : List Char) :
    Jcs.nextChar (Utf8.encode (c :: cs)) = .ok (c, Utf8.encode cs) := by
  unfold Jcs.nextChar
  rw [Utf8.decode_encode]
  show Except.ok (c, (Utf8.encode (c :: cs)).drop c.utf8Size) = _
  rw [Utf8.drop_encode]

/-- The characters of a string. -/
theorem parseChars_encode (fuel : ℕ) (out cs : List Char) :
    Jcs.parseChars fuel out (Utf8.encode cs) = encoded (scanChars fuel out cs) := by
  induction fuel generalizing out cs with
  | zero => rfl
  | succ fuel ih =>
    cases cs with
    | nil => rfl
    | cons c cs =>
      unfold scanChars
      have hnext : Jcs.nextChar (Utf8.encode (c :: cs)) = .ok (c, Utf8.encode cs) :=
        nextChar_encode c cs
      by_cases hc : Utf8.IsAscii c
      · rw [Utf8.encode_ascii hc] at hnext ⊢
        unfold Jcs.parseChars
        rw [hnext]
        have hquote : c.toUInt8 = byte '"' ↔ c = '"' := byte_eq_iff hc (by decide)
        have hslash : c.toUInt8 = byte '\\' ↔ c = '\\' := byte_eq_iff hc (by decide)
        have hcontrol : c.toUInt8 ≤ 0x1f ↔ c.toNat ≤ 0x1f := by
          rw [UInt8.le_iff_toNat_le, Utf8.toNat_toUInt8 hc]
          rfl
        simp only [hquote, hslash, hcontrol]
        split
        · rfl
        · split
          · rw [parseEscape_encode]
            apply encoded_bind
            intro ch cs
            exact ih _ cs
          · split
            · rfl
            · exact ih _ cs
      · obtain ⟨b, rest, he, hb⟩ := Utf8.encode_high hc cs
        have key : ∀ a : Char, Utf8.IsAscii a → c ≠ a := by
          rintro a ha rfl
          exact hc ha
        have hbyte : ¬ b ≤ 0x1f := by
          rw [UInt8.le_iff_toNat_le]
          show ¬ b.toNat ≤ 31
          omega
        have hchar : ¬ c.toNat ≤ 0x1f := by
          unfold Utf8.IsAscii at hc
          omega
        rw [he] at hnext ⊢
        unfold Jcs.parseChars
        rw [hnext, if_neg (high_ne_byte hb (show Utf8.IsAscii '"' by decide)),
          if_neg (high_ne_byte hb (show Utf8.IsAscii '\\' by decide)), if_neg hbyte, if_neg (key '"' (by decide)), if_neg (key '\\' (by decide)), if_neg hchar]
        exact ih _ cs

/-- A string. -/
theorem parseString_encode {cs : List Char} (h : cs.head? = some '"') :
    Jcs.parseString (Utf8.encode cs) = encoded (scanString cs) := by
  unfold Jcs.parseString scanString
  rw [Utf8.drop_one_encode (by decide) h]
  exact parseChars_encode _ _ _

/-- A run of digits. -/
theorem someDigits_encode (cs : List Char) :
    Jcs.someDigits (Utf8.encode cs) = encoded (someDigits cs) := by
  unfold Jcs.someDigits someDigits Jcs.takeDigits Jcs.dropDigits
  rw [agree_digit.takeWhile_encode, agree_digit.dropWhile_encode]
  split <;> rfl

/-- A test of the first character, and what each case does with what is left. -/
theorem head_encode {α : Type} {a : Char} (ha : Utf8.IsAscii a) {cs : List Char}
    {k m : Bytes → Parsed α} {q q' : Scanned α}
    (hpos : cs.head? = some a → k (Utf8.encode (cs.drop 1)) = encoded q)
    (hneg : m (Utf8.encode cs) = encoded q') :
    (if (Utf8.encode cs).head? = some (byte a) then k ((Utf8.encode cs).drop 1)
      else m (Utf8.encode cs)) = encoded (if cs.head? = some a then q else q') := by
  have hiff : (Utf8.encode cs).head? = some (byte a) ↔ cs.head? = some a :=
    Utf8.head?_encode_iff ha cs
  by_cases h : cs.head? = some a
  · rw [if_pos (hiff.mpr h), if_pos h, Utf8.drop_one_encode ha h]
    exact hpos h
  · rw [if_neg fun hb => h (hiff.mp hb), if_neg h]
    exact hneg

/-- The integer part. -/
theorem parseWhole_encode (cs : List Char) :
    Jcs.parseWhole (Utf8.encode cs) = encoded (scanWhole cs) := by
  apply head_encode (by decide)
    (k := fun rest => if rest.head?.any Jcs.isDigitByte then fail .invalidJson else .ok (['0'], rest))
    (m := Jcs.someDigits)
  · intro _
    rw [agree_digit.head?_any_encode]
    split <;> rfl
  · exact someDigits_encode cs

/-- The fraction. -/
theorem parseFraction_encode (cs : List Char) :
    Jcs.parseFraction (Utf8.encode cs) = encoded (scanFraction cs) := by
  apply head_encode (by decide)
    (k := fun rest => (Jcs.someDigits rest).map fun read => (some read.1, read.2))
    (m := fun rest => .ok (none, rest))
  · intro _
    rw [someDigits_encode]
    exact encoded_map _ some
  · rfl

/-- The sign of an exponent. -/
theorem parseExponentSign_encode (cs : List Char) :
    Jcs.parseExponentSign (Utf8.encode cs)
      = ((scanExponentSign cs).1, Utf8.encode (scanExponentSign cs).2) := by
  have hplus : (Utf8.encode cs).head? = some (byte '+') ↔ cs.head? = some '+' :=
    Utf8.head?_encode_iff (by decide) cs
  have hminus : (Utf8.encode cs).head? = some (byte '-') ↔ cs.head? = some '-' :=
    Utf8.head?_encode_iff (by decide) cs
  unfold Jcs.parseExponentSign scanExponentSign
  simp only [hplus, hminus]
  split
  · next h => rw [Utf8.drop_one_encode (by decide) h]
  · split
    · next h => rw [Utf8.drop_one_encode (by decide) h]
    · rfl

/-- The exponent after its marker. -/
theorem parseExponentTail_encode (marker : Char) (cs : List Char) :
    Jcs.parseExponentTail marker (Utf8.encode cs) = encoded (scanExponentTail marker cs) := by
  unfold Jcs.parseExponentTail scanExponentTail
  rw [parseExponentSign_encode]
  show (Jcs.someDigits (Utf8.encode (scanExponentSign cs).2)).map _ = _
  rw [someDigits_encode]
  exact encoded_map _ fun digits => some (Exponent.mk marker (scanExponentSign cs).1 digits)

/-- The exponent. -/
theorem parseExponent_encode (cs : List Char) :
    Jcs.parseExponent (Utf8.encode cs) = encoded (scanExponent cs) := by
  apply head_encode (by decide) (k := Jcs.parseExponentTail 'e')
    (m := fun rest => if rest.head? = some (byte 'E') then Jcs.parseExponentTail 'E' (rest.drop 1)
      else .ok (none, rest))
  · intro _
    exact parseExponentTail_encode 'e' _
  · apply head_encode (by decide) (k := Jcs.parseExponentTail 'E')
      (m := fun rest => .ok (none, rest))
    · intro _
      exact parseExponentTail_encode 'E' _
    · rfl

/-- A token after its sign. -/
theorem parseNumeral_encode (negative : Bool) (cs : List Char) :
    Jcs.parseNumeral negative (Utf8.encode cs) = encoded (scanNumeral negative cs) := by
  unfold Jcs.parseNumeral scanNumeral
  rw [parseWhole_encode]
  apply encoded_bind
  intro whole cs
  show (Jcs.parseFraction (Utf8.encode cs)).bind _ = _
  rw [parseFraction_encode]
  apply encoded_bind
  intro fraction cs
  show (Jcs.parseExponent (Utf8.encode cs)).map _ = _
  rw [parseExponent_encode]
  exact encoded_map _ fun exponent => Numeral.mk negative whole fraction exponent

/-- A number. -/
theorem parseNumber_encode (cs : List Char) :
    Jcs.parseNumber (Utf8.encode cs) = encoded (scanNumber cs) := by
  have htoken : Jcs.parseToken (Utf8.encode cs) = encoded (scanToken cs) := by
    apply head_encode (by decide) (k := Jcs.parseNumeral true) (m := Jcs.parseNumeral false)
    · intro _
      exact parseNumeral_encode true _
    · exact parseNumeral_encode false cs
  unfold Jcs.parseNumber scanNumber
  rw [htoken]
  apply encoded_bind
  intro token cs
  dsimp only
  cases numberOf token <;> rfl

/-- A literal. -/
theorem parseLiteral_encode {token : List Char} (ht : ∀ a ∈ token, Utf8.IsAscii a)
    (value : Json) (cs : List Char) :
    Jcs.parseLiteral token value (Utf8.encode cs) = encoded (scanLiteral token value cs) := by
  unfold Jcs.parseLiteral scanLiteral
  have hiff := Utf8.take_encode_iff ht cs
  dsimp only
  rw [List.length_map]
  by_cases h : cs.take token.length = token
  · rw [if_pos h, Utf8.drop_encode_of_take ht h]
    exact if_pos (hiff.mpr h)
  · rw [if_neg h]
    exact if_neg fun hb => h (hiff.mp hb)

/-- What is left after whitespace, at its first character. -/
theorem match_encode {α : Type} {k : UInt8 → Bytes → Parsed α} {q : Char → List Char → Scanned α}
    (h : ∀ c cs, Utf8.IsAscii c → k c.toUInt8 (Utf8.encode cs) = encoded (q c cs))
    (hhigh : ∀ b rest, 0x80 ≤ b.toNat → k b rest = fail .invalidJson)
    (hwide : ∀ c cs, ¬ Utf8.IsAscii c → q c cs = fail .invalidJson) (cs : List Char) :
    (match Jcs.skipWs (Utf8.encode cs) with
      | [] => fail .invalidJson
      | b :: rest => k b rest)
      = encoded (match skipWs cs with
        | [] => fail .invalidJson
        | c :: cs => q c cs) := by
  rw [skipWs_encode]
  cases skipWs cs with
  | nil => rfl
  | cons c cs =>
    by_cases hc : Utf8.IsAscii c
    · rw [Utf8.encode_ascii hc]
      exact h c cs hc
    · obtain ⟨b, rest, he, hb⟩ := Utf8.encode_high hc cs
      rw [he]
      dsimp only
      rw [hhigh b rest hb, hwide c cs hc]
      rfl

/-- A character beyond ASCII is none of ASCII. -/
theorem wide_ne {c a : Char} (hc : ¬ Utf8.IsAscii c) (ha : Utf8.IsAscii a) : c ≠ a := by
  rintro rfl
  exact hc ha

/-- Behind an item a comma goes on, a closing character ends, and anything else is refused. -/
theorem separated_encode {close : Char} (hclose : Utf8.IsAscii close) (value : Json)
    {k : Bytes → Parsed Json} {q : List Char → Scanned Json}
    (hgoes : ∀ cs, k (Utf8.encode cs) = encoded (q cs)) (cs : List Char) :
    (match Jcs.skipWs (Utf8.encode cs) with
      | [] => fail .invalidJson
      | b :: rest =>
        if b = byte ',' then k rest
        else if b = byte close then .ok (value, rest)
        else fail .invalidJson)
      = encoded (match skipWs cs with
        | [] => fail .invalidJson
        | c :: cs =>
          if c = ',' then q cs
          else if c = close then .ok (value, cs)
          else fail .invalidJson) := by
  apply match_encode
  · intro c cs hc
    simp only [byte_eq_iff hc (show Utf8.IsAscii ',' by decide), byte_eq_iff hc hclose]
    split
    · exact hgoes cs
    · split <;> rfl
  · intro b rest hb
    rw [if_neg (high_ne_byte hb (by decide)), if_neg (high_ne_byte hb hclose)]
  · intro c cs hc
    rw [if_neg (wide_ne hc (by decide)), if_neg (wide_ne hc hclose)]

/-- With this fuel a value is read alike. -/
def ReadsValueAlike (fuel : ℕ) : Prop :=
  ∀ cs, Jcs.parseValue fuel (Utf8.encode cs) = encoded (scanValue fuel cs)

/-- The rest of an array is. -/
def ReadsArrayAlike (fuel : ℕ) : Prop :=
  ∀ items cs, Jcs.parseArray fuel items (Utf8.encode cs) = encoded (scanArray fuel items cs)

/-- The rest of an object is. -/
def ReadsObjectAlike (fuel : ℕ) : Prop :=
  ∀ members cs, Jcs.parseObject fuel members (Utf8.encode cs)
    = encoded (scanObject fuel members cs)

/-- A value: the byte it starts with decides. -/
theorem parseValue_encode {fuel : ℕ} (harray : ReadsArrayAlike fuel)
    (hobject : ReadsObjectAlike fuel) : ReadsValueAlike (fuel + 1) := by
  intro cs
  have hwideDigit : ∀ c, ¬ Utf8.IsAscii c → isDigitChar c = false := agree_digit.wide
  unfold Jcs.parseValue scanValue
  apply match_encode
  · intro c cs hc
    have hback : c.toUInt8 :: Utf8.encode cs = Utf8.encode (c :: cs) :=
      (Utf8.encode_ascii hc cs).symm
    have key : ∀ a : Char, Utf8.IsAscii a → (c.toUInt8 = byte a) = (c = a) :=
      fun a ha => propext (byte_eq_iff hc ha)
    simp only [hback, key 'n' (by decide), key 't' (by decide), key 'f' (by decide),
      key '"' (by decide), key '[' (by decide), key '{' (by decide), key '-' (by decide),
      agree_digit.ascii c hc]
    split
    · exact parseLiteral_encode (by simp [Utf8.IsAscii]) _ _
    split
    · exact parseLiteral_encode (by simp [Utf8.IsAscii]) _ _
    split
    · exact parseLiteral_encode (by simp [Utf8.IsAscii]) _ _
    split
    · next hquote =>
      rw [parseString_encode (by rw [hquote]; rfl)]
      exact encoded_map _ Json.str
    split
    · rw [skipWs_encode]
      apply head_encode (by decide) (k := fun rest => .ok (.arr [], rest))
        (m := Jcs.parseArray fuel [])
      · intro _
        rfl
      · exact harray [] _
    split
    · rw [skipWs_encode]
      apply head_encode (by decide) (k := fun rest => .ok (.obj [], rest))
        (m := Jcs.parseObject fuel [])
      · intro _
        rfl
      · exact hobject [] _
    split
    · exact parseNumber_encode _
    · rfl
  · intro b rest hb
    have key : ∀ a : Char, Utf8.IsAscii a → ¬ b = byte a := fun a ha => high_ne_byte hb ha
    simp [key 'n' (by decide), key 't' (by decide), key 'f' (by decide), key '"' (by decide),
      key '[' (by decide), key '{' (by decide), key '-' (by decide), agree_digit.high b hb]
  · intro c cs hc
    have key : ∀ a : Char, Utf8.IsAscii a → c ≠ a := fun a ha => wide_ne hc ha
    simp [key 'n' (by decide), key 't' (by decide), key 'f' (by decide), key '"' (by decide),
      key '[' (by decide), key '{' (by decide), key '-' (by decide), hwideDigit c hc]

/-- An element, and what follows it. -/
theorem parseArray_encode {fuel : ℕ} (hvalue : ReadsValueAlike fuel)
    (harray : ReadsArrayAlike fuel) : ReadsArrayAlike (fuel + 1) := by
  intro items cs
  unfold Jcs.parseArray scanArray
  rw [hvalue]
  apply encoded_bind
  intro item cs
  exact separated_encode (by decide) _ (harray _) cs

/-- A name, its value, and what follows them. -/
theorem parseObject_encode {fuel : ℕ} (hvalue : ReadsValueAlike fuel)
    (hobject : ReadsObjectAlike fuel) : ReadsObjectAlike (fuel + 1) := by
  intro members cs
  unfold Jcs.parseObject scanObject
  rw [skipWs_encode]
  have hquote : (Utf8.encode (skipWs cs)).head? = some (byte '"') ↔
      (skipWs cs).head? = some '"' := Utf8.head?_encode_iff (by decide) _
  by_cases h : (skipWs cs).head? = some '"'
  · rw [if_pos (hquote.mpr h), if_pos h, parseString_encode h]
    apply encoded_bind
    intro key cs
    dsimp only
    split
    · rfl
    have hcolon : (Utf8.encode (skipWs cs)).head? = some (byte ':') ↔
        (skipWs cs).head? = some ':' := Utf8.head?_encode_iff (by decide) _
    rw [skipWs_encode]
    by_cases h : (skipWs cs).head? = some ':'
    · rw [if_pos (hcolon.mpr h), if_pos h, Utf8.drop_one_encode (by decide) h, hvalue]
      apply encoded_bind
      intro value cs
      exact separated_encode (by decide) _ (hobject _) cs
    · rw [if_neg fun hb => h (hcolon.mp hb), if_neg h]
      rfl
  · rw [if_neg fun hb => h (hquote.mp hb), if_neg h]
    rfl

/-- **The parser reads the encoding of characters as the scanner reads the characters**: a value,
the elements of an array, the members of an object. -/
theorem parse_encode (fuel : ℕ) :
    ReadsValueAlike fuel ∧ ReadsArrayAlike fuel ∧ ReadsObjectAlike fuel := by
  induction fuel with
  | zero => exact ⟨fun _ => rfl, fun _ _ => rfl, fun _ _ => rfl⟩
  | succ fuel ih =>
    obtain ⟨hvalue, harray, hobject⟩ := ih
    exact ⟨parseValue_encode harray hobject, parseArray_encode hvalue harray,
      parseObject_encode hvalue hobject⟩

/-- The parser reads a text as the scanner reads its characters, with the fuel of its bytes. -/
theorem parseStrict_eq (raw : String) :
    Jcs.parseStrict raw = scanText (Jcs.fuelFor (Utf8.encode raw.toList)) raw.toList := by
  unfold Jcs.parseStrict Jcs.parseBytes scanText Jcs.asBytes
  rw [Utf8.encode_toList, (parse_encode _).1]
  cases h : scanValue (Jcs.fuelFor (Utf8.encode raw.toList)) raw.toList with
  | error e => rfl
  | ok p =>
    obtain ⟨value, rest⟩ := p
    have hempty : (Jcs.skipWs (Utf8.encode rest)).isEmpty = (skipWs rest).isEmpty := by
      rw [skipWs_encode]
      cases skipWs rest with
      | nil => rfl
      | cons c cs =>
        have hlen := Utf8.length_le_encode (c :: cs)
        cases he : Utf8.encode (c :: cs) with
        | nil =>
          rw [he] at hlen
          cases hlen
        | cons b bs => rfl
    show (if (Jcs.skipWs (Utf8.encode rest)).isEmpty then Except.ok value else fail .invalidJson)
      = if (skipWs rest).isEmpty then Except.ok value else fail .invalidJson
    rw [hempty]

end JsonScan

end Waitprims
