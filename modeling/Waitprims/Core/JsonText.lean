import Mathlib
import Waitprims.Core.Number

/-! # The grammar of JSON texts

RFC 8259 as relations between a text, what it denotes, and what of the text is left: whitespace,
strings with their escapes and surrogate pairs, number tokens, values. An object denotes its members
in key order and repeats no name; a number token passes the number check and denotes an integer or
the nearest binary64 value.

* **`JsonText.Str`** — a string between its quotes.
* **`Numeral.WellFormed`**, **`Numeral.text`** — a number token and its spelling;
  **`Numeral.Checked`**, **`Numeral.number`** — the check on it and the number it denotes.
* **`JsonText.Value`**, **`JsonText.Text`** — a value, and a whole text. -/

namespace Waitprims

/-- A decimal digit. -/
def isDigitChar (c : Char) : Bool := '0' ≤ c && c ≤ '9'

/-- A whitespace character. -/
def isWsChar (c : Char) : Bool := c == ' ' || c == '\t' || c == '\n' || c == '\r'

/-- A run of at least one digit. -/
def IsDigits (digits : List Char) : Prop := digits ≠ [] ∧ ∀ c ∈ digits, isDigitChar c = true

namespace Numeral

/-- The integer part: a zero alone, or digits that a zero does not lead. -/
def IsWhole (digits : List Char) : Prop :=
  digits = ['0'] ∨ IsDigits digits ∧ digits.head? ≠ some '0'

/-- The parts of a number token are spelled as the grammar asks. -/
structure WellFormed (token : Numeral) : Prop where
  whole : IsWhole token.whole
  fraction : ∀ digits, token.fraction = some digits → IsDigits digits
  exponent : ∀ e, token.exponent = some e →
    (e.marker = 'e' ∨ e.marker = 'E') ∧ (∀ c, e.sign = some c → c = '+' ∨ c = '-') ∧
      IsDigits e.digits

/-- The spelling of a fraction. -/
def fractionText : Option (List Char) → List Char
  | none => []
  | some digits => '.' :: digits

/-- The spelling of an exponent. -/
def exponentText : Option Exponent → List Char
  | none => []
  | some e => e.marker :: (e.sign.toList ++ e.digits)

/-- The spelling of a token after its sign. -/
def body (token : Numeral) : List Char :=
  token.whole ++ (fractionText token.fraction ++ exponentText token.exponent)

/-- The spelling of a token. -/
def text (token : Numeral) : List Char := if token.negative then '-' :: token.body else token.body

/-- The check on a token: an integer token fits `i128` and survives binary64, any other token rounds
to a finite value. -/
def Checked (token : Numeral) : Prop :=
  if token.isIntegerToken then
    (-2 ^ 127 ≤ token.integer ∧ token.integer < 2 ^ 127) ∧
      (Binary64.ofInt token.integer).isFinite = true ∧
      (Binary64.ofInt token.integer).toI128 = token.integer
  else token.parseF64.isFinite = true

/-- The number a token denotes: an integer of `i64` is itself, any other token is the binary64 value
nearest to what it writes. -/
def number (token : Numeral) : Number :=
  if token.isIntegerToken ∧ -2 ^ 63 ≤ token.integer ∧ token.integer < 2 ^ 63 then
    .int token.integer
  else .float token.parseF64

/-- An integer token writes its integer. -/
theorem magnitude_of_isIntegerToken {token : Numeral} (h : token.isIntegerToken = true) :
    token.magnitude = (token.integer.natAbs : ℚ) := by
  obtain ⟨negative, whole, fraction, exponent⟩ := token
  unfold isIntegerToken at h
  cases fraction with
  | some digits => simp at h
  | none =>
    cases exponent with
    | some e => simp at h
    | none =>
      unfold magnitude exponentValue fractionDigits integer
      cases negative <;> simp

/-- Past zero, an integer token rounds as its integer does. -/
theorem parseF64_of_isIntegerToken {token : Numeral} (h : token.isIntegerToken = true)
    (hne : token.integer ≠ 0) : token.parseF64 = Binary64.ofInt token.integer := by
  have hsign : token.negative = decide (token.integer < 0) := by
    unfold integer at hne ⊢
    cases hn : token.negative with
    | true =>
      rw [hn, if_pos rfl] at hne
      rw [if_pos rfl]
      symm
      rw [decide_eq_true_iff]
      omega
    | false =>
      rw [if_neg (by simp)]
      symm
      rw [decide_eq_false_iff_not]
      omega
  unfold parseF64 Binary64.ofInt
  rw [magnitude_of_isIntegerToken h, hsign]

/-- A check that passes. -/
theorem ok_eq_ok_iff {P : Prop} (h : P) (m n : Number) :
    (Except.ok m : Except JcsError Number) = .ok n ↔ P ∧ n = m := by
  constructor
  · intro heq
    exact ⟨h, (Except.ok.inj heq).symm⟩
  · rintro ⟨_, rfl⟩
    rfl

/-- A check that fails. -/
theorem error_eq_ok_iff {P : Prop} (h : ¬ P) (e : JcsError) (m n : Number) :
    (Except.error e : Except JcsError Number) = .ok n ↔ P ∧ n = m := by
  constructor
  · intro heq
    cases heq
  · intro hp
    exact absurd hp.1 h

/-- **The number check accepts a token where it passes, with the number the token denotes.** -/
theorem numberOf_eq_ok_iff (token : Numeral) (n : Number) :
    numberOf token = .ok n ↔ token.Checked ∧ n = token.number := by
  unfold numberOf
  by_cases hint : token.isIntegerToken = true
  · have hchecked : token.Checked ↔ (-2 ^ 127 ≤ token.integer ∧ token.integer < 2 ^ 127) ∧
        (Binary64.ofInt token.integer).isFinite = true ∧
        (Binary64.ofInt token.integer).toI128 = token.integer := by
      unfold Checked
      rw [if_pos hint]
    rw [if_pos hint, hchecked]
    unfold parseI128
    by_cases hrange : -2 ^ 127 ≤ token.integer ∧ token.integer < 2 ^ 127
    · rw [if_pos hrange]
      dsimp only [ijsonInt]
      by_cases hexact : (Binary64.ofInt token.integer).isFinite = true ∧
          (Binary64.ofInt token.integer).toI128 = token.integer
      · rw [if_neg (by simp [hexact.1, hexact.2])]
        unfold number
        by_cases hfits : -2 ^ 63 ≤ token.integer ∧ token.integer < 2 ^ 63
        · rw [if_pos hfits, if_pos ⟨hint, hfits⟩]
          exact ok_eq_ok_iff ⟨hrange, hexact⟩ _ n
        · have hne : token.integer ≠ 0 := by
            intro hzero
            apply hfits
            rw [hzero]
            norm_num
          rw [if_neg hfits, if_neg fun h => hfits h.2, parseF64_of_isIntegerToken hint hne]
          exact ok_eq_ok_iff ⟨hrange, hexact⟩ _ n
      · rw [if_pos (by simpa [imp_iff_not_or, not_and_or] using hexact)]
        exact error_eq_ok_iff (fun h => hexact h.2) _ _ n
    · rw [if_neg hrange]
      exact error_eq_ok_iff (fun h => hrange h.1) _ _ n
  · have hchecked : token.Checked ↔ token.parseF64.isFinite = true := by
      unfold Checked
      rw [if_neg hint]
    have hnumber : token.number = .float token.parseF64 := if_neg fun h => hint h.1
    rw [if_neg hint, hchecked, hnumber]
    dsimp only
    by_cases hfinite : token.parseF64.isFinite = true
    · rw [if_neg (by rw [hfinite]; decide)]
      exact ok_eq_ok_iff hfinite _ n
    · rw [if_pos (by simpa using hfinite)]
      exact error_eq_ok_iff hfinite _ _ n

end Numeral

namespace JsonText

/-- Whitespace in front of a text. -/
inductive Ws : List Char → List Char → Prop
  | nil {cs : List Char} : Ws cs cs
  | cons {c : Char} {cs rest : List Char} (h : isWsChar c = true) (hrest : Ws cs rest) :
    Ws (c :: cs) rest

/-! ## Strings -/

/-- The value of a hexadecimal digit. -/
def hexValue (c : Char) : Option ℕ :=
  if '0' ≤ c && c ≤ '9' then some (c.toNat - '0'.toNat)
  else if 'a' ≤ c && c ≤ 'f' then some (c.toNat - 'a'.toNat + 10)
  else if 'A' ≤ c && c ≤ 'F' then some (c.toNat - 'A'.toNat + 10)
  else none

/-- Four hexadecimal digits. -/
inductive Hex4 : List Char → ℕ → List Char → Prop
  | mk {a b c d : Char} {w x y z : ℕ} {rest : List Char} (ha : hexValue a = some w)
    (hb : hexValue b = some x) (hc : hexValue c = some y) (hd : hexValue d = some z) :
    Hex4 (a :: b :: c :: d :: rest) (((w * 16 + x) * 16 + y) * 16 + z) rest

/-- The character of a two-character escape. -/
def escaped (c : Char) : Option Char :=
  if c = '"' then some '"'
  else if c = '\\' then some '\\'
  else if c = '/' then some '/'
  else if c = 'b' then some '\x08'
  else if c = 'f' then some '\x0c'
  else if c = 'n' then some '\n'
  else if c = 'r' then some '\r'
  else if c = 't' then some '\t'
  else none

/-- The characters of a string up to its closing quote, decoded. -/
inductive Chars : List Char → List Char → List Char → Prop
  | close {rest : List Char} : Chars ('"' :: rest) [] rest
  | plain {c : Char} {cs out rest : List Char} (hquote : c ≠ '"') (hslash : c ≠ '\\')
    (hcontrol : 0x20 ≤ c.toNat) (hrest : Chars cs out rest) : Chars (c :: cs) (c :: out) rest
  | escape {e c : Char} {cs out rest : List Char} (he : escaped e = some c)
    (hrest : Chars cs out rest) : Chars ('\\' :: e :: cs) (c :: out) rest
  | unicode {unit : ℕ} {hunit : unit.isValidChar} {cs cs' out rest : List Char}
    (hhex : Hex4 cs unit cs') (hrest : Chars cs' out rest) :
    Chars ('\\' :: 'u' :: cs) (Char.ofNatAux unit hunit :: out) rest
  | pair {high low : ℕ} {cs cs' cs'' out rest : List Char}
    {hpair : (0x10000 + ((high - 0xd800) * 2 ^ 10 + (low - 0xdc00))).isValidChar}
    (hhigh : Hex4 cs high ('\\' :: 'u' :: cs')) (hh : 0xd800 ≤ high ∧ high ≤ 0xdbff)
    (hlow : Hex4 cs' low cs'') (hl : 0xdc00 ≤ low ∧ low ≤ 0xdfff) (hrest : Chars cs'' out rest) :
    Chars ('\\' :: 'u' :: cs) (Char.ofNatAux _ hpair :: out) rest

/-- A string with its quotes. -/
inductive Str : List Char → String → List Char → Prop
  | quoted {cs out rest : List Char} (h : Chars cs out rest) :
    Str ('"' :: cs) (String.ofList out) rest

/-! ## Values -/

mutual

/-- A value. -/
inductive Value : List Char → Json → List Char → Prop
  | null {rest : List Char} : Value ('n' :: 'u' :: 'l' :: 'l' :: rest) .null rest
  | true {rest : List Char} : Value ('t' :: 'r' :: 'u' :: 'e' :: rest) (.bool true) rest
  | false {rest : List Char} :
    Value ('f' :: 'a' :: 'l' :: 's' :: 'e' :: rest) (.bool false) rest
  | str {cs rest : List Char} {s : String} (h : Str cs s rest) : Value cs (.str s) rest
  | num {token : Numeral} {rest : List Char} (hform : token.WellFormed) (hcheck : token.Checked) :
    Value (token.text ++ rest) (.num token.number) rest
  | emptyArr {cs rest : List Char} (h : Ws cs (']' :: rest)) : Value ('[' :: cs) (.arr []) rest
  | arr {cs rest : List Char} {items : List Json} (h : Elements cs items rest) :
    Value ('[' :: cs) (.arr items) rest
  | emptyObj {cs rest : List Char} (h : Ws cs ('}' :: rest)) : Value ('{' :: cs) (.obj []) rest
  | obj {cs rest : List Char} {members sorted : List (String × Json)}
    (h : Members cs members rest) (hnodup : (members.map Prod.fst).Nodup)
    (hperm : sorted.Perm members) (hsorted : sorted.Pairwise fun a b => a.1 < b.1) :
    Value ('{' :: cs) (.obj sorted) rest

/-- The elements of an array up to its closing bracket. -/
inductive Elements : List Char → List Json → List Char → Prop
  | last {cs cs₁ cs₂ rest : List Char} {v : Json} (hws : Ws cs cs₁) (hv : Value cs₁ v cs₂)
    (hclose : Ws cs₂ (']' :: rest)) : Elements cs [v] rest
  | cons {cs cs₁ cs₂ cs₃ rest : List Char} {v : Json} {vs : List Json} (hws : Ws cs cs₁)
    (hv : Value cs₁ v cs₂) (hcomma : Ws cs₂ (',' :: cs₃)) (hrest : Elements cs₃ vs rest) :
    Elements cs (v :: vs) rest

/-- The members of an object up to its closing brace, in the order of the text. -/
inductive Members : List Char → List (String × Json) → List Char → Prop
  | last {cs cs₁ cs₂ cs₃ cs₄ cs₅ rest : List Char} {key : String} {v : Json} (hws : Ws cs cs₁)
    (hkey : Str cs₁ key cs₂) (hcolon : Ws cs₂ (':' :: cs₃)) (hws' : Ws cs₃ cs₄)
    (hv : Value cs₄ v cs₅) (hclose : Ws cs₅ ('}' :: rest)) : Members cs [(key, v)] rest
  | cons {cs cs₁ cs₂ cs₃ cs₄ cs₅ cs₆ rest : List Char} {key : String} {v : Json}
    {members : List (String × Json)} (hws : Ws cs cs₁) (hkey : Str cs₁ key cs₂)
    (hcolon : Ws cs₂ (':' :: cs₃)) (hws' : Ws cs₃ cs₄) (hv : Value cs₄ v cs₅)
    (hcomma : Ws cs₅ (',' :: cs₆)) (hrest : Members cs₆ members rest) :
    Members cs ((key, v) :: members) rest

end

/-- A whole text: one value between optional whitespace. -/
def Text (cs : List Char) (v : Json) : Prop :=
  ∃ cs₁ cs₂, Ws cs cs₁ ∧ Value cs₁ v cs₂ ∧ Ws cs₂ []

end JsonText

end Waitprims
