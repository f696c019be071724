import Mathlib
import Waitprims.Core.JsonSound

/-! # What is derived, the scanner accepts

Completeness of the strict parser over characters. A derivation may pass over less whitespace than
the scanner does, and a number token may end earlier than the scanner would read; what follows a
value in a text rules the second out, and the first is stated through what is left after whitespace.

* **`JsonScan.scanToken_complete`**, **`JsonScan.scanChars_complete`** — number tokens and strings.
* **`JsonScan.reads_value`**, **`reads_elements`**, **`reads_members`** — the three relations of the
  grammar, with the fuel their length asks for; **`JsonScan.completes`** puts them together.
* **`JsonScan.terminates`** — that fuel is enough for every text.
* **`Jcs.parseStrict_iff`** — the parser accepts exactly the texts of the grammar. -/

namespace Waitprims

namespace JsonScan

open Jcs (Stop fail insertMember)
open JsonText

/-! ## Whitespace -/

/-- What does not start with whitespace. -/
def NoWs (cs : List Char) : Prop := ∀ c, cs.head? = some c → isWsChar c = false

/-- Nothing is skipped where no whitespace starts. -/
theorem skipWs_of_noWs {cs : List Char} (h : NoWs cs) : skipWs cs = cs := by
  cases cs with
  | nil => rfl
  | cons c cs =>
    unfold skipWs
    rw [List.dropWhile_cons, if_neg (by simp [h c rfl])]

/-- The scanner skips the whitespace of a derivation and what follows it. -/
theorem skipWs_of_ws {cs rest : List Char} (h : Ws cs rest) : skipWs cs = skipWs rest := by
  induction h with
  | nil => rfl
  | cons hc _ ih =>
    rw [← ih]
    unfold skipWs
    rw [List.dropWhile_cons, if_pos hc]

/-- The scanner stops where no whitespace starts. -/
theorem noWs_skipWs (cs : List Char) : NoWs (skipWs cs) := by
  intro c hc
  unfold skipWs at hc
  have h := List.head?_dropWhile_not isWsChar cs
  rw [hc] at h
  simpa using h

/-- Skipping twice is skipping once. -/
@[simp] theorem skipWs_skipWs (cs : List Char) : skipWs (skipWs cs) = skipWs cs :=
  skipWs_of_noWs (noWs_skipWs cs)

/-- Whitespace up to a character that is none. -/
theorem skipWs_of_ws_cons {cs rest : List Char} {c : Char} (h : Ws cs (c :: rest))
    (hc : isWsChar c = false) : skipWs cs = c :: rest := by
  rw [skipWs_of_ws h]
  apply skipWs_of_noWs
  intro d hd
  obtain rfl : c = d := by simpa using hd
  exact hc

/-- Whitespace takes characters away. -/
theorem length_of_ws {cs rest : List Char} (h : Ws cs rest) : rest.length ≤ cs.length := by
  induction h with
  | nil => exact Nat.le_refl _
  | cons _ _ ih =>
    rw [List.length_cons]
    omega

/-! ## Strings -/

/-- Four hexadecimal digits are read. -/
theorem scanHex_complete {cs rest : List Char} {unit : ℕ} (h : Hex4 cs unit rest) :
    scanHex 4 0 cs = .ok (unit, rest) := by
  cases h with
  | mk ha hb hc hd =>
    simp only [scanHex, ha, hb, hc, hd, Nat.zero_mul, Nat.zero_add]

/-- Four characters are read. -/
theorem length_of_hex4 {cs rest : List Char} {unit : ℕ} (h : Hex4 cs unit rest) :
    cs.length = rest.length + 4 := by
  cases h
  rfl

/-- A valid scalar is returned. -/
theorem scalar_complete {n : ℕ} (hn : n.isValidChar) (e : JcsError) (cs : List Char) :
    scalar n e cs = .ok (Char.ofNatAux n hn, cs) := by
  unfold scalar
  rw [charFromU32_eq_some.mpr ⟨hn, rfl⟩]

/-- The escape of one character is read. -/
theorem scanEscape_escaped {e c : Char} (he : escaped e = some c) (cs : List Char) :
    scanEscape (e :: cs) = .ok (c, cs) := by
  have hne : e ≠ 'u' := by
    rintro rfl
    simp [escaped] at he
  dsimp only [scanEscape]
  rw [if_neg hne, he]

/-- The escape of a unit that is no surrogate is read. -/
theorem scanEscape_unit {unit : ℕ} (hunit : unit.isValidChar) {cs cs' : List Char}
    (hhex : Hex4 cs unit cs') :
    scanEscape ('u' :: cs) = .ok (Char.ofNatAux unit hunit, cs') := by
  have hvalid : unit < 0xd800 ∨ 0xdfff < unit ∧ unit < 0x110000 := hunit
  have hhigh : Jcs.isHighSurrogate unit = false := by
    simp only [Jcs.isHighSurrogate, Bool.and_eq_false_iff, decide_eq_false_iff_not]
    omega
  have hlow : Jcs.isLowSurrogate unit = false := by
    simp only [Jcs.isLowSurrogate, Bool.and_eq_false_iff, decide_eq_false_iff_not]
    omega
  dsimp only [scanEscape]
  rw [if_pos rfl]
  unfold scanUnicodeEscape
  rw [scanHex_complete hhex]
  show (if Jcs.isHighSurrogate unit = true then _ else _) = _
  rw [if_neg (by simp [hhigh]), if_neg (by simp [hlow])]
  exact scalar_complete hunit _ cs'

/-- The escapes of two surrogates are read as one character. -/
theorem scanEscape_pair {high low : ℕ}
    (hpair : (0x10000 + ((high - 0xd800) * 2 ^ 10 + (low - 0xdc00))).isValidChar) {cs cs' cs'' : List Char}
    (hhex : Hex4 cs high ('\\' :: 'u' :: cs')) (hh : 0xd800 ≤ high ∧ high ≤ 0xdbff)
    (hhex' : Hex4 cs' low cs'') (hl : 0xdc00 ≤ low ∧ low ≤ 0xdfff) :
    scanEscape ('u' :: cs) = .ok (Char.ofNatAux _ hpair, cs'') := by
  have hhigh : Jcs.isHighSurrogate high = true := by
    simpa [Jcs.isHighSurrogate] using hh
  have hlow : Jcs.isLowSurrogate low = true := by
    simpa [Jcs.isLowSurrogate] using hl
  dsimp only [scanEscape]
  rw [if_pos rfl]
  unfold scanUnicodeEscape
  rw [scanHex_complete hhex]
  show (if Jcs.isHighSurrogate high = true then _ else _) = _
  rw [if_pos hhigh]
  -- the low half follows behind a second escape
  dsimp only [scanLowSurrogate]
  rw [if_pos ⟨rfl, rfl⟩, scanHex_complete hhex']
  show (if Jcs.isLowSurrogate low = true then _ else _) = _
  rw [if_pos hlow]
  exact scalar_complete hpair _ cs''

/-- A string goes on behind an escape. -/
theorem scanChars_escape {cs rest rest' : List Char} {c : Char} {s : String} {fuel : ℕ}
    {before : List Char} (hread : scanEscape cs = .ok (c, rest))
    (hgoes : scanChars fuel (before ++ [c]) rest = .ok (s, rest')) :
    scanChars (fuel + 1) before ('\\' :: cs) = .ok (s, rest') := by
  unfold scanChars
  rw [if_neg (by decide), if_pos rfl, hread]
  exact hgoes

/-- The characters of a string are read, after those already read. -/
theorem scanChars_complete {cs out rest : List Char} (h : Chars cs out rest) (fuel : ℕ)
    (before : List Char) (hfuel : cs.length < fuel) :
    scanChars fuel before cs = .ok (String.ofList (before ++ out), rest) := by
  induction h generalizing fuel before with
  | close =>
    cases fuel with
    | zero => cases hfuel
    | succ fuel =>
      unfold scanChars
      rw [if_pos rfl, List.append_nil]
  | @plain c cs out rest hquote hslash hcontrol _ ih =>
    cases fuel with
    | zero => cases hfuel
    | succ fuel =>
      rw [List.length_cons] at hfuel
      unfold scanChars
      rw [if_neg hquote, if_neg hslash, if_neg (by omega), ih fuel _ (by omega),
        List.append_assoc, List.singleton_append]
  | @escape e c cs out rest he _ ih =>
    cases fuel with
    | zero => cases hfuel
    | succ fuel =>
      rw [List.length_cons, List.length_cons] at hfuel
      refine scanChars_escape (scanEscape_escaped he cs) ?_
      rw [ih fuel _ (by omega), List.append_assoc, List.singleton_append]
  | @unicode unit hunit cs cs' out rest hhex _ ih =>
    cases fuel with
    | zero => cases hfuel
    | succ fuel =>
      have hlen := length_of_hex4 hhex
      rw [List.length_cons, List.length_cons] at hfuel
      refine scanChars_escape (scanEscape_unit hunit hhex) ?_
      rw [ih fuel _ (by omega), List.append_assoc, List.singleton_append]
  | @pair high low cs cs' cs'' out rest hpair hhex hh hhex' hl _ ih =>
    cases fuel with
    | zero => cases hfuel
    | succ fuel =>
      have hlen := length_of_hex4 hhex
      have hlen' := length_of_hex4 hhex'
      rw [List.length_cons, List.length_cons] at hfuel hlen
      refine scanChars_escape (scanEscape_pair hpair hhex hh hhex' hl) ?_
      rw [ih fuel _ (by omega), List.append_assoc, List.singleton_append]

/-- A string is read. -/
theorem scanString_complete {cs rest : List Char} {s : String} (h : Str cs s rest) :
    scanString cs = .ok (s, rest) := by
  cases h with
  | @quoted cs out rest h =>
    have hlen := Utf8.length_le_encode ('"' :: cs)
    rw [List.length_cons] at hlen
    unfold scanString
    rw [List.drop_one, List.tail_cons, scanChars_complete h _ [] (by omega), List.nil_append]

/-- A string takes characters away. -/
theorem length_of_chars {cs out rest : List Char} (h : Chars cs out rest) :
    rest.length < cs.length := by
  induction h with
  | close => simp
  | plain _ _ _ _ ih =>
    rw [List.length_cons]
    omega
  | escape _ _ ih =>
    rw [List.length_cons, List.length_cons]
    omega
  | unicode hhex _ ih =>
    have := length_of_hex4 hhex
    rw [List.length_cons, List.length_cons]
    omega
  | pair hhex _ hhex' _ _ ih =>
    have := length_of_hex4 hhex
    have := length_of_hex4 hhex'
    simp only [List.length_cons] at *
    omega

/-- A string takes characters away. -/
theorem length_of_str {cs rest : List Char} {s : String} (h : Str cs s rest) :
    rest.length < cs.length := by
  cases h with
  | quoted h =>
    have := length_of_chars h
    rw [List.length_cons]
    omega

/-! ## Numbers -/

/-- What does not start with a digit. -/
def NoDigit (rest : List Char) : Prop := ∀ c, rest.head? = some c → isDigitChar c = false

/-- What cannot continue a number token. -/
def Ends (rest : List Char) : Prop :=
  NoDigit rest ∧ rest.head? ≠ some '.' ∧ rest.head? ≠ some 'e' ∧ rest.head? ≠ some 'E'

/-- A run of digits is read whole. -/
theorem someDigits_complete {digits rest : List Char} (h : IsDigits digits) (hrest : NoDigit rest) :
    someDigits (digits ++ rest) = .ok (digits, rest) := by
  have htake : (digits ++ rest).takeWhile isDigitChar = digits := by
    rw [List.takeWhile_append_of_pos h.2]
    cases rest with
    | nil => exact List.append_nil _
    | cons c rest =>
      rw [List.takeWhile_cons, if_neg (by simp [hrest c rfl]), List.append_nil]
  have hdrop : (digits ++ rest).dropWhile isDigitChar = rest := by
    rw [List.dropWhile_append_of_pos h.2]
    cases rest with
    | nil => rfl
    | cons c rest => rw [List.dropWhile_cons, if_neg (by simp [hrest c rfl])]
  unfold someDigits
  rw [htake, hdrop, if_neg]
  simpa using h.1

/-- A run of digits starts with a digit. -/
theorem head_of_digits {digits : List Char} (h : IsDigits digits) (rest : List Char) :
    ∃ c, (digits ++ rest).head? = some c ∧ digits.head? = some c ∧ isDigitChar c = true := by
  cases digits with
  | nil => exact absurd rfl h.1
  | cons c digits => exact ⟨c, rfl, rfl, h.2 c List.mem_cons_self⟩

/-- The integer part starts with a digit. -/
theorem head_of_whole {whole : List Char} (h : Numeral.IsWhole whole) (rest : List Char) :
    ∃ c, (whole ++ rest).head? = some c ∧ isDigitChar c = true := by
  rcases h with rfl | ⟨hdigits, _⟩
  · exact ⟨'0', rfl, by decide⟩
  · obtain ⟨c, hc, _, hdigit⟩ := head_of_digits hdigits rest
    exact ⟨c, hc, hdigit⟩

/-- The integer part is read whole. -/
theorem scanWhole_complete {whole rest : List Char} (h : Numeral.IsWhole whole)
    (hrest : NoDigit rest) : scanWhole (whole ++ rest) = .ok (whole, rest) := by
  unfold scanWhole
  rcases h with rfl | ⟨hdigits, hzero⟩
  · have hany : ¬ rest.head?.any isDigitChar = true := by
      cases rest with
      | nil => simp
      | cons c rest => simp [hrest c rfl]
    show (if rest.head?.any isDigitChar = true then _ else _) = _
    rw [if_neg hany]
    rfl
  · obtain ⟨c, hc, hhead, _⟩ := head_of_digits hdigits rest
    have hne : ¬ (whole ++ rest).head? = some '0' := by
      rw [hc, ← hhead]
      exact hzero
    rw [if_neg hne]
    exact someDigits_complete hdigits hrest

/-- The fraction is read whole. -/
theorem scanFraction_complete {fraction : Option (List Char)} {rest : List Char}
    (h : ∀ digits, fraction = some digits → IsDigits digits) (hrest : NoDigit rest)
    (hpoint : rest.head? ≠ some '.') :
    scanFraction (Numeral.fractionText fraction ++ rest) = .ok (fraction, rest) := by
  unfold scanFraction
  cases fraction with
  | none => exact if_neg hpoint
  | some digits =>
    show ((someDigits (digits ++ rest)).map _ : Scanned (Option (List Char))) = _
    rw [someDigits_complete (h digits rfl) hrest]
    rfl

/-- The sign of an exponent is read. -/
theorem scanExponentSign_complete {sign : Option Char} {digits rest : List Char}
    (hsign : ∀ c, sign = some c → c = '+' ∨ c = '-') (hdigits : IsDigits digits) :
    scanExponentSign (sign.toList ++ (digits ++ rest)) = (sign, digits ++ rest) := by
  unfold scanExponentSign
  cases sign with
  | none =>
    obtain ⟨c, hc, _, hdigit⟩ := head_of_digits hdigits rest
    have hplus : ¬ (digits ++ rest).head? = some '+' := by
      rw [hc]
      intro h
      rw [Option.some.inj h] at hdigit
      exact absurd hdigit (by decide)
    have hminus : ¬ (digits ++ rest).head? = some '-' := by
      rw [hc]
      intro h
      rw [Option.some.inj h] at hdigit
      exact absurd hdigit (by decide)
    show (if (digits ++ rest).head? = some '+' then _ else _) = _
    rw [if_neg hplus]
    exact if_neg hminus
  | some c =>
    rcases hsign c rfl with rfl | rfl
    · rfl
    · rfl

/-- The exponent is read whole. -/
theorem scanExponent_complete {exponent : Option Exponent} {rest : List Char}
    (h : ∀ e, exponent = some e → (e.marker = 'e' ∨ e.marker = 'E') ∧
      (∀ c, e.sign = some c → c = '+' ∨ c = '-') ∧ IsDigits e.digits) (hrest : Ends rest) :
    scanExponent (Numeral.exponentText exponent ++ rest) = .ok (exponent, rest) := by
  unfold scanExponent
  cases exponent with
  | none =>
    show (if rest.head? = some 'e' then _ else _) = _
    rw [if_neg hrest.2.2.1]
    exact if_neg hrest.2.2.2
  | some e =>
    obtain ⟨marker, sign, digits⟩ := e
    obtain ⟨hmarker, hsign, hdigits⟩ := h _ rfl
    have htail : scanExponentTail marker (sign.toList ++ (digits ++ rest))
        = .ok (some ⟨marker, sign, digits⟩, rest) := by
      unfold scanExponentTail
      rw [scanExponentSign_complete hsign hdigits]
      show (someDigits (digits ++ rest)).map _ = _
      rw [someDigits_complete hdigits hrest.1]
      rfl
    rw [← List.append_assoc] at htail
    rcases hmarker with hm | hm
    · obtain rfl : marker = 'e' := hm
      exact htail
    · obtain rfl : marker = 'E' := hm
      exact htail

/-- What follows the fraction of a number. -/
theorem ends_exponentText {exponent : Option Exponent} {rest : List Char}
    (h : ∀ e, exponent = some e → (e.marker = 'e' ∨ e.marker = 'E') ∧
      (∀ c, e.sign = some c → c = '+' ∨ c = '-') ∧ IsDigits e.digits) (hrest : Ends rest) :
    NoDigit (Numeral.exponentText exponent ++ rest) ∧
      (Numeral.exponentText exponent ++ rest).head? ≠ some '.' := by
  cases exponent with
  | none => exact ⟨hrest.1, hrest.2.1⟩
  | some e =>
    have hhead : (Numeral.exponentText (some e) ++ rest).head? = some e.marker := rfl
    refine ⟨?_, ?_⟩
    · intro c hc
      rw [hhead] at hc
      rw [← Option.some.inj hc]
      rcases (h e rfl).1 with hm | hm
      · rw [hm]
        decide
      · rw [hm]
        decide
    · rw [hhead]
      rcases (h e rfl).1 with hm | hm
      · rw [hm]
        decide
      · rw [hm]
        decide

/-- What follows the integer part of a number. -/
theorem noDigit_fractionText (fraction : Option (List Char)) {rest : List Char}
    (hrest : NoDigit rest) : NoDigit (Numeral.fractionText fraction ++ rest) := by
  cases fraction with
  | none => exact hrest
  | some digits =>
    intro c hc
    obtain rfl : '.' = c := by simpa [Numeral.fractionText] using hc
    decide

/-- A number token is read whole. -/
theorem scanToken_complete {token : Numeral} {rest : List Char} (h : token.WellFormed)
    (hrest : Ends rest) : scanToken (token.text ++ rest) = .ok (token, rest) := by
  obtain ⟨negative, whole, fraction, exponent⟩ := token
  obtain ⟨hwhole, hfraction, hexponent⟩ := h
  have hnumeral : scanNumeral negative
      (whole ++ (Numeral.fractionText fraction ++ (Numeral.exponentText exponent ++ rest)))
      = .ok (⟨negative, whole, fraction, exponent⟩, rest) := by
    obtain ⟨hdigit, hpoint⟩ := ends_exponentText hexponent hrest
    unfold scanNumeral
    rw [scanWhole_complete hwhole (noDigit_fractionText fraction hdigit)]
    show (scanFraction _).bind _ = _
    rw [scanFraction_complete hfraction hdigit hpoint]
    show (scanExponent _).map _ = _
    rw [scanExponent_complete hexponent hrest]
    rfl
  rw [← List.append_assoc (Numeral.fractionText fraction), ← List.append_assoc whole] at hnumeral
  unfold scanToken
  cases negative with
  | true => exact hnumeral
  | false =>
    obtain ⟨c, hc, hdigit⟩ :=
      head_of_whole hwhole (Numeral.fractionText fraction ++ Numeral.exponentText exponent ++ rest)
    have hne : ¬ (Numeral.text ⟨false, whole, fraction, exponent⟩ ++ rest).head? = some '-' := by
      show ¬ ((whole ++ (Numeral.fractionText fraction ++ Numeral.exponentText exponent)) ++ rest).head?
        = some '-'
      rw [List.append_assoc, hc]
      intro h
      rw [Option.some.inj h] at hdigit
      exact absurd hdigit (by decide)
    rw [if_neg hne]
    exact hnumeral

/-- A number token starts with a sign or a digit. -/
theorem head_of_token {token : Numeral} (h : token.WellFormed) (rest : List Char) :
    ∃ c cs, token.text ++ rest = c :: cs ∧ (c = '-' ∨ isDigitChar c = true) := by
  unfold Numeral.text
  by_cases hneg : token.negative = true
  · rw [if_pos hneg]
    exact ⟨'-', _, rfl, Or.inl rfl⟩
  · rw [if_neg hneg]
    obtain ⟨c, hc, hdigit⟩ := head_of_whole h.whole
      (Numeral.fractionText token.fraction ++ Numeral.exponentText token.exponent ++ rest)
    unfold Numeral.body
    rw [List.append_assoc]
    exact ⟨c, _, eq_cons_of_head? hc, Or.inr hdigit⟩

/-! ## Values -/

/-- A literal is read. -/
theorem scanLiteral_complete (token rest : List Char) (value : Json) :
    scanLiteral token value (token ++ rest) = .ok (value, rest) := by
  unfold scanLiteral
  rw [List.take_left, if_pos rfl, List.drop_left]

/-- A value starts with no whitespace and closes no bracket. -/
theorem head_of_value {cs rest : List Char} {v : Json} (h : Value cs v rest) :
    ∃ c cs', cs = c :: cs' ∧ isWsChar c = false ∧ c ≠ ']' ∧ c ≠ '}' := by
  cases h with
  | null => exact ⟨_, _, rfl, by decide, by decide, by decide⟩
  | «true» => exact ⟨_, _, rfl, by decide, by decide, by decide⟩
  | «false» => exact ⟨_, _, rfl, by decide, by decide, by decide⟩
  | str h =>
    cases h with
    | quoted h => exact ⟨_, _, rfl, by decide, by decide, by decide⟩
  | num hform _ =>
    obtain ⟨c, cs', heq, hc⟩ := head_of_token hform rest
    refine ⟨c, cs', heq, ?_⟩
    rcases hc with rfl | hdigit
    · decide
    · have key : ∀ a : Char, isDigitChar a = false → c ≠ a := by
        rintro a ha rfl
        rw [ha] at hdigit
        cases hdigit
      refine ⟨?_, key ']' (by decide), key '}' (by decide)⟩
      unfold isWsChar
      simp [key ' ' (by decide), key '\t' (by decide), key '\n' (by decide), key '\r' (by decide)]
  | emptyArr _ => exact ⟨_, _, rfl, by decide, by decide, by decide⟩
  | arr _ => exact ⟨_, _, rfl, by decide, by decide, by decide⟩
  | emptyObj _ => exact ⟨_, _, rfl, by decide, by decide, by decide⟩
  | obj _ _ _ _ => exact ⟨_, _, rfl, by decide, by decide, by decide⟩

/-- The whitespace before a value is skipped. -/
theorem skipWs_of_value {cs cs' rest : List Char} {v : Json} (hws : Ws cs cs')
    (h : Value cs' v rest) : skipWs cs = cs' := by
  obtain ⟨c, tail, rfl, hc, _⟩ := head_of_value h
  exact skipWs_of_ws_cons hws hc

/-- What follows a value up to a character that cannot continue a number. -/
theorem ends_of_ws {cs rest : List Char} {c : Char} (h : Ws cs (c :: rest))
    (hc : c = ',' ∨ c = ']' ∨ c = '}') : Ends cs := by
  have key : ∀ d tail, isDigitChar d = false ∧ d ≠ '.' ∧ d ≠ 'e' ∧ d ≠ 'E' →
      Ends (d :: tail) := by
    rintro d tail ⟨hd, h₁, h₂, h₃⟩
    refine ⟨?_, by simpa using h₁, by simpa using h₂, by simpa using h₃⟩
    intro e he
    rwa [← show d = e by simpa using he]
  cases h with
  | nil =>
    apply key
    rcases hc with rfl | rfl | rfl <;> decide
  | @cons d cs rest' hd _ =>
    apply key
    have hcases : ((d = ' ' ∨ d = '\t') ∨ d = '\n') ∨ d = '\r' := by
      simpa [isWsChar] using hd
    rcases hcases with ((rfl | rfl) | rfl) | rfl <;> decide

/-- The end of a text continues no number. -/
theorem ends_of_ws_nil {cs : List Char} (h : Ws cs []) : Ends cs := by
  cases h with
  | nil => exact ⟨fun _ hc => (nomatch hc), by simp, by simp, by simp⟩
  | @cons d cs _ hd _ =>
    have hcases : ((d = ' ' ∨ d = '\t') ∨ d = '\n') ∨ d = '\r' := by
      simpa [isWsChar] using hd
    have hdigit : isDigitChar d = false ∧ d ≠ '.' ∧ d ≠ 'e' ∧ d ≠ 'E' := by
      rcases hcases with ((rfl | rfl) | rfl) | rfl <;> decide
    obtain ⟨h₀, h₁, h₂, h₃⟩ := hdigit
    refine ⟨?_, by simpa using h₁, by simpa using h₂, by simpa using h₃⟩
    intro e he
    rwa [← show d = e by simpa using he]

/-- The members kept after those of a text. -/
def keep (members more : List (String × Json)) : List (String × Json) :=
  more.foldl (fun kept p => insertMember p.1 p.2 kept) members

/-- A name that no member has is not found. -/
theorem lookup_eq_none {key : String} {members : List (String × Json)}
    (h : ∀ p ∈ members, p.1 ≠ key) : Json.lookup key members = none := by
  induction members with
  | nil => rfl
  | cons p members ih =>
    obtain ⟨k, v⟩ := p
    unfold Json.lookup
    rw [if_neg (h (k, v) List.mem_cons_self)]
    exact ih fun q hq => h q (List.mem_cons_of_mem _ hq)

/-- The names kept are those of the text, and stay distinct. -/
theorem fresh_of_nodup {key : String} {value : Json} {members more : List (String × Json)}
    (h : ((members ++ (key, value) :: more).map Prod.fst).Nodup) :
    Json.lookup key members = none ∧
      ((insertMember key value members ++ more).map Prod.fst).Nodup := by
  have hperm : (members ++ (key, value) :: more).Perm ((key, value) :: members ++ more) :=
    List.perm_middle
  have hnodup := (hperm.map Prod.fst).nodup_iff.mp h
  have hnone : Json.lookup key members = none := by
    apply lookup_eq_none
    intro p hp heq
    apply (List.nodup_cons.mp hnodup).1
    exact List.mem_map.mpr ⟨p, List.mem_append_left _ hp, heq⟩
  refine ⟨hnone, ?_⟩
  exact (((insertMember_perm hnone).append_right more).map Prod.fst).nodup_iff.mpr hnodup

/-- The members kept are the members of the text, in key order. -/
theorem keep_spec {members more : List (String × Json)}
    (hnodup : ((members ++ more).map Prod.fst).Nodup)
    (hsorted : members.Pairwise fun a b => a.1 < b.1) :
    (keep members more).Perm (members ++ more) ∧
      (keep members more).Pairwise fun a b => a.1 < b.1 := by
  induction more generalizing members with
  | nil => exact ⟨by rw [List.append_nil]; exact List.Perm.refl _, hsorted⟩
  | cons p more ih =>
    obtain ⟨key, value⟩ := p
    obtain ⟨hnone, hnext⟩ := fresh_of_nodup hnodup
    obtain ⟨hperm, hs⟩ := ih hnext (insertMember_sorted hnone hsorted)
    refine ⟨?_, hs⟩
    calc (keep (insertMember key value members) more).Perm
          (insertMember key value members ++ more) := hperm
      List.Perm _ ((key, value) :: members ++ more) :=
        (insertMember_perm hnone).append_right more
      List.Perm _ (members ++ (key, value) :: more) := List.perm_middle.symm

/-- Two lists of the same members in key order are the same. -/
theorem eq_of_sorted {a b : List (String × Json)} (hperm : a.Perm b)
    (ha : a.Pairwise fun p q => p.1 < q.1) (hb : b.Pairwise fun p q => p.1 < q.1) : a = b := by
  apply hperm.eq_of_pairwise _ ha hb
  intro p q _ _ hpq hqp
  exact absurd (hpq.trans hqp) (lt_irrefl _)

/-- The first character after whitespace, for a case on it. -/
theorem match_skipWs {α : Type} {cs rest : List Char} {c : Char} (h : Ws cs (c :: rest))
    (hc : isWsChar c = false) (q : Char → List Char → Scanned α) :
    (match skipWs cs with
      | [] => fail .invalidJson
      | c :: cs => q c cs) = q c rest := by
  rw [skipWs_of_ws_cons h hc]

/-- **A value is read**: it takes characters away, and the scanner reads it wherever it comes to the
text, with the fuel its length asks for, if what follows ends the value. -/
def ReadsValue (cs : List Char) (v : Json) (rest : List Char) : Prop :=
  rest.length < cs.length ∧ ∀ fuel cs₀, 2 * cs.length + 1 ≤ fuel → skipWs cs₀ = cs → Ends rest →
    scanValue fuel cs₀ = .ok (v, rest)

/-- **Elements are read**, after those already read. -/
def ReadsElements (cs : List Char) (vs : List Json) (rest : List Char) : Prop :=
  rest.length < cs.length ∧
    ∀ fuel items cs₀, 2 * cs.length + 2 ≤ fuel → skipWs cs₀ = skipWs cs →
      scanArray fuel items cs₀ = .ok (.arr (items ++ vs), rest)

/-- **Members are read**, beside those already kept. -/
def ReadsMembers (cs : List Char) (more : List (String × Json)) (rest : List Char) : Prop :=
  rest.length < cs.length ∧
    ∀ fuel members cs₀, 2 * cs.length + 2 ≤ fuel → skipWs cs₀ = skipWs cs →
      ((members ++ more).map Prod.fst).Nodup →
      scanObject fuel members cs₀ = .ok (.obj (keep members more), rest)

section relations

variable {cs rest : List Char}

/-- The scanner takes one unit of fuel, and goes on behind the whitespace. -/
theorem ReadsValue.of_step {v : Json} (hlen : rest.length < cs.length)
    (h : ∀ fuel cs₀, 2 * cs.length ≤ fuel → skipWs cs₀ = cs → Ends rest →
      scanValue (fuel + 1) cs₀ = .ok (v, rest)) : ReadsValue cs v rest := by
  refine ⟨hlen, fun fuel cs₀ hfuel hskip hends => ?_⟩
  obtain ⟨fuel, rfl⟩ : ∃ m, fuel = m + 1 := ⟨fuel - 1, by omega⟩
  exact h fuel cs₀ (by omega) hskip hends

/-- A string. -/
theorem reads_str {s : String} (h : Str cs s rest) : ReadsValue cs (.str s) rest := by
  refine .of_step (length_of_str h) fun fuel cs₀ _ hskip _ => ?_
  have hread := scanString_complete h
  cases h with
  | quoted h =>
    unfold scanValue
    rw [hskip]
    show ((scanString _).map _ : Scanned Json) = _
    rw [hread]
    rfl

/-- A number: its first character starts no other value. -/
theorem reads_num {token : Numeral} (hform : token.WellFormed) (hcheck : token.Checked) :
    ReadsValue (token.text ++ rest) (.num token.number) rest := by
  obtain ⟨c, cs', heq, hc⟩ := head_of_token hform rest
  have hlen : rest.length < (token.text ++ rest).length := by
    have hne : token.text ≠ [] := by
      intro hnil
      rw [hnil, List.nil_append] at heq
      obtain ⟨d, ds, hd, _⟩ := head_of_token hform []
      rw [hnil] at hd
      cases hd
    have := List.length_pos_iff.mpr hne
    rw [List.length_append]
    omega
  refine .of_step hlen fun fuel cs₀ _ hskip hends => ?_
  have key : ∀ a : Char, a ≠ '-' → isDigitChar a = false → c ≠ a := by
    rintro a hminus hdigit rfl
    rcases hc with rfl | hd
    · exact hminus rfl
    · rw [hd] at hdigit
      cases hdigit
  have hstart : (c = '-' || isDigitChar c) = true := by
    rcases hc with rfl | hd
    · rfl
    · rw [hd, Bool.or_true]
  unfold scanValue
  rw [hskip, heq]
  dsimp only
  rw [if_neg (key 'n' (by decide) (by decide)), if_neg (key 't' (by decide) (by decide)),
    if_neg (key 'f' (by decide) (by decide)), if_neg (key '"' (by decide) (by decide)),
    if_neg (key '[' (by decide) (by decide)), if_neg (key '{' (by decide) (by decide)),
    if_pos (by simpa using hstart), ← heq]
  unfold scanNumber
  rw [scanToken_complete hform hends]
  simp only [Except.bind]
  rw [(Numeral.numberOf_eq_ok_iff token _).mpr ⟨hcheck, rfl⟩]

/-- An array without elements. -/
theorem reads_emptyArr (h : Ws cs (']' :: rest)) : ReadsValue ('[' :: cs) (.arr []) rest := by
  have hlen := length_of_ws h
  refine .of_step (by rw [List.length_cons] at *; omega) fun fuel cs₀ _ hskip _ => ?_
  unfold scanValue
  rw [hskip]
  dsimp only
  rw [if_neg (by decide), if_neg (by decide), if_neg (by decide), if_neg (by decide),
    if_pos rfl, skipWs_of_ws_cons h (by decide)]
  rfl

/-- An array: its first element does not start with a closing bracket. -/
theorem reads_arr {items : List Json} (h : Elements cs items rest)
    (hreads : ReadsElements cs items rest) : ReadsValue ('[' :: cs) (.arr items) rest := by
  obtain ⟨hlen, hread⟩ := hreads
  refine .of_step (by rw [List.length_cons]; omega) fun fuel cs₀ hfuel hskip _ => ?_
  rw [List.length_cons] at hfuel
  have hopen : ¬ (skipWs cs).head? = some ']' := by
    have key : ∀ cs₁ v cs₂, Ws cs cs₁ → Value cs₁ v cs₂ → ¬ (skipWs cs).head? = some ']' := by
      intro cs₁ v cs₂ hws hv
      rw [skipWs_of_value hws hv]
      obtain ⟨c, tail, rfl, _, hne, _⟩ := head_of_value hv
      simpa using hne
    cases h with
    | last hws hv _ => exact key _ _ _ hws hv
    | cons hws hv _ _ => exact key _ _ _ hws hv
  unfold scanValue
  rw [hskip]
  dsimp only
  rw [if_neg (by decide), if_neg (by decide), if_neg (by decide), if_neg (by decide),
    if_pos rfl, if_neg hopen, hread fuel [] (skipWs cs) (by omega) (skipWs_skipWs cs)]
  rfl

/-- An object without members. -/
theorem reads_emptyObj (h : Ws cs ('}' :: rest)) : ReadsValue ('{' :: cs) (.obj []) rest := by
  have hlen := length_of_ws h
  refine .of_step (by rw [List.length_cons] at *; omega) fun fuel cs₀ _ hskip _ => ?_
  unfold scanValue
  rw [hskip]
  dsimp only
  rw [if_neg (by decide), if_neg (by decide), if_neg (by decide), if_neg (by decide),
    if_neg (by decide), if_pos rfl, skipWs_of_ws_cons h (by decide)]
  rfl

/-- An object: its first name does not start with a closing brace, and what is kept of its members
is the members in key order. -/
theorem reads_obj {members sorted : List (String × Json)} (h : Members cs members rest)
    (hreads : ReadsMembers cs members rest) (hnodup : (members.map Prod.fst).Nodup)
    (hperm : sorted.Perm members) (hsorted : sorted.Pairwise fun a b => a.1 < b.1) :
    ReadsValue ('{' :: cs) (.obj sorted) rest := by
  obtain ⟨hlen, hread⟩ := hreads
  refine .of_step (by rw [List.length_cons]; omega) fun fuel cs₀ hfuel hskip _ => ?_
  rw [List.length_cons] at hfuel
  have hopen : ¬ (skipWs cs).head? = some '}' := by
    have key : ∀ cs₁ k cs₂, Ws cs cs₁ → Str cs₁ k cs₂ → ¬ (skipWs cs).head? = some '}' := by
      intro cs₁ k cs₂ hws hk
      cases hk with
      | quoted hk =>
        rw [skipWs_of_ws_cons hws (by decide)]
        simp
    cases h with
    | last hws hkey _ _ _ _ => exact key _ _ _ hws hkey
    | cons hws hkey _ _ _ _ _ => exact key _ _ _ hws hkey
  have hkeep := @keep_spec [] members hnodup List.Pairwise.nil
  have heq : keep [] members = sorted :=
    eq_of_sorted (hkeep.1.trans hperm.symm) hkeep.2 hsorted
  unfold scanValue
  rw [hskip]
  dsimp only
  rw [if_neg (by decide), if_neg (by decide), if_neg (by decide), if_neg (by decide),
    if_neg (by decide), if_pos rfl, if_neg hopen,
    hread fuel [] (skipWs cs) (by omega) (skipWs_skipWs cs) hnodup, heq]

/-- **A value**, if the elements and the members of shorter texts are read. -/
theorem reads_value {v : Json}
    (helements : ∀ cs' vs, cs'.length < cs.length → Elements cs' vs rest →
      ReadsElements cs' vs rest)
    (hmembers : ∀ cs' more, cs'.length < cs.length → Members cs' more rest →
      ReadsMembers cs' more rest) (h : Value cs v rest) : ReadsValue cs v rest := by
  have hliteral : ∀ (token : List Char) (value : Json), 0 < token.length →
      (∀ fuel cs₀, skipWs cs₀ = token ++ rest →
        scanValue (fuel + 1) cs₀ = scanLiteral token value (token ++ rest)) →
      ReadsValue (token ++ rest) value rest := by
    intro token value hlen hscan
    have hshort : rest.length < (token ++ rest).length := by
      rw [List.length_append]
      omega
    refine .of_step hshort fun fuel cs₀ _ hskip _ => ?_
    rw [hscan fuel cs₀ hskip]
    exact scanLiteral_complete token rest value
  cases h with
  | null =>
    refine hliteral ['n', 'u', 'l', 'l'] .null (by decide) fun fuel cs₀ hskip => ?_
    unfold scanValue
    rw [hskip]
    rfl
  | «true» =>
    refine hliteral ['t', 'r', 'u', 'e'] (.bool true) (by decide) fun fuel cs₀ hskip => ?_
    unfold scanValue
    rw [hskip]
    rfl
  | «false» =>
    refine hliteral ['f', 'a', 'l', 's', 'e'] (.bool false) (by decide) fun fuel cs₀ hskip => ?_
    unfold scanValue
    rw [hskip]
    rfl
  | str h => exact reads_str h
  | num hform hcheck => exact reads_num hform hcheck
  | emptyArr h => exact reads_emptyArr h
  | arr h => exact reads_arr h (helements _ _ (Nat.lt_succ_self _) h)
  | emptyObj h => exact reads_emptyObj h
  | obj h hnodup hperm hsorted =>
    exact reads_obj h (hmembers _ _ (Nat.lt_succ_self _) h) hnodup hperm hsorted

/-- **Elements**, if the values of texts no longer and the elements of shorter ones are read. -/
theorem reads_elements {vs : List Json}
    (hvalue : ∀ cs' v rest', cs'.length ≤ cs.length → Value cs' v rest' → ReadsValue cs' v rest')
    (helements : ∀ cs' vs, cs'.length < cs.length → Elements cs' vs rest →
      ReadsElements cs' vs rest) (h : Elements cs vs rest) : ReadsElements cs vs rest := by
  cases h with
  | @last _ cs₁ cs₂ _ v hws hv hclose =>
    have hl₁ := length_of_ws hws
    have hl₂ := length_of_ws hclose
    obtain ⟨hlen, hread⟩ := hvalue cs₁ v cs₂ hl₁ hv
    rw [List.length_cons] at hl₂
    refine ⟨by omega, ?_⟩
    intro fuel items cs₀ hfuel hskip
    obtain ⟨fuel, rfl⟩ : ∃ m, fuel = m + 1 := ⟨fuel - 1, by omega⟩
    unfold scanArray
    rw [hread fuel cs₀ (by omega) (hskip.trans (skipWs_of_value hws hv))
      (ends_of_ws hclose (Or.inr (Or.inl rfl)))]
    exact match_skipWs hclose (by decide) _
  | @cons _ cs₁ cs₂ cs₃ _ v vs hws hv hcomma hrest =>
    have hl₁ := length_of_ws hws
    have hl₂ := length_of_ws hcomma
    obtain ⟨hlen, hread⟩ := hvalue cs₁ v cs₂ hl₁ hv
    rw [List.length_cons] at hl₂
    obtain ⟨hlen', hread'⟩ := helements cs₃ vs (by omega) hrest
    refine ⟨by omega, ?_⟩
    intro fuel items cs₀ hfuel hskip
    obtain ⟨fuel, rfl⟩ : ∃ m, fuel = m + 1 := ⟨fuel - 1, by omega⟩
    unfold scanArray
    rw [hread fuel cs₀ (by omega) (hskip.trans (skipWs_of_value hws hv))
      (ends_of_ws hcomma (Or.inl rfl))]
    show (match skipWs cs₂ with | [] => _ | _ :: _ => _ : Scanned Json) = _
    rw [skipWs_of_ws_cons hcomma (by decide)]
    show scanArray fuel (items ++ [v]) cs₃ = _
    rw [hread' fuel (items ++ [v]) cs₃ (by omega) rfl, List.append_assoc,
      List.singleton_append]

/-- A name and its value are read; what follows them decides how the scanner goes on. -/
theorem scanObject_named {cs₁ cs₂ cs₃ cs₄ cs₅ cs₀ : List Char} {key : String} {v : Json}
    {after : Scanned Json} {fuel : ℕ} {members : List (String × Json)} (hws : Ws cs cs₁)
    (hkey : Str cs₁ key cs₂) (hcolon : Ws cs₂ (':' :: cs₃)) (hws' : Ws cs₃ cs₄)
    (hv : Value cs₄ v cs₅) (hvalue : ReadsValue cs₄ v cs₅) (hends : Ends cs₅)
    (hfuel : 2 * cs₄.length + 1 ≤ fuel) (hskip : skipWs cs₀ = skipWs cs)
    (hnone : Json.lookup key members = none)
    (hafter : (match skipWs cs₅ with
      | [] => fail .invalidJson
      | c :: cs =>
        if c = ',' then scanObject fuel (insertMember key v members) cs
        else if c = '}' then .ok (.obj (insertMember key v members), cs)
        else fail .invalidJson) = after) :
    scanObject (fuel + 1) members cs₀ = after := by
  have hread := hvalue.2 fuel cs₃ hfuel (skipWs_of_value hws' hv) hends
  have hstring := scanString_complete hkey
  have hskipped : skipWs cs₀ = cs₁ := by
    cases hkey with
    | quoted _ => exact hskip.trans (skipWs_of_ws_cons hws (by decide))
  have hhead : cs₁.head? = some '"' := by
    cases hkey with
    | quoted _ => rfl
  unfold scanObject
  rw [hskipped, if_pos hhead, hstring]
  show (if (Json.lookup key members).isSome = true then _ else _) = _
  rw [hnone, if_neg (by simp), skipWs_of_ws_cons hcolon (by decide)]
  show (scanValue fuel cs₃).bind _ = _
  rw [hread]
  exact hafter

/-- **Members**, if the values of texts no longer and the members of shorter ones are read. -/
theorem reads_members {more : List (String × Json)}
    (hvalue : ∀ cs' v rest', cs'.length ≤ cs.length → Value cs' v rest' → ReadsValue cs' v rest')
    (hmembers : ∀ cs' more, cs'.length < cs.length → Members cs' more rest →
      ReadsMembers cs' more rest) (h : Members cs more rest) : ReadsMembers cs more rest := by
  cases h with
  | @last _ cs₁ cs₂ cs₃ cs₄ cs₅ _ key v hws hkey hcolon hws' hv hclose =>
    have hl₁ := length_of_ws hws
    have hl₂ := length_of_str hkey
    have hl₃ := length_of_ws hcolon
    have hl₄ := length_of_ws hws'
    have hl₅ := length_of_ws hclose
    rw [List.length_cons] at hl₃ hl₅
    have hreads := hvalue cs₄ v cs₅ (by omega) hv
    have hlen := hreads.1
    refine ⟨by omega, ?_⟩
    intro fuel members cs₀ hfuel hskip hnodup
    obtain ⟨fuel, rfl⟩ : ∃ m, fuel = m + 1 := ⟨fuel - 1, by omega⟩
    apply scanObject_named hws hkey hcolon hws' hv hreads
      (ends_of_ws hclose (Or.inr (Or.inr rfl))) (by omega) hskip (fresh_of_nodup hnodup).1
    rw [skipWs_of_ws_cons hclose (by decide)]
    rfl
  | @cons _ cs₁ cs₂ cs₃ cs₄ cs₅ cs₆ _ key v more hws hkey hcolon hws' hv hcomma hrest =>
    have hl₁ := length_of_ws hws
    have hl₂ := length_of_str hkey
    have hl₃ := length_of_ws hcolon
    have hl₄ := length_of_ws hws'
    have hl₅ := length_of_ws hcomma
    rw [List.length_cons] at hl₃ hl₅
    have hreads := hvalue cs₄ v cs₅ (by omega) hv
    have hlen := hreads.1
    obtain ⟨hlen', hread'⟩ := hmembers cs₆ more (by omega) hrest
    refine ⟨by omega, ?_⟩
    intro fuel members cs₀ hfuel hskip hnodup
    obtain ⟨fuel, rfl⟩ : ∃ m, fuel = m + 1 := ⟨fuel - 1, by omega⟩
    obtain ⟨hnone, hnext⟩ := fresh_of_nodup hnodup
    apply scanObject_named hws hkey hcolon hws' hv hreads (ends_of_ws hcomma (Or.inl rfl))
      (by omega) hskip hnone
    rw [skipWs_of_ws_cons hcomma (by decide)]
    show scanObject fuel (insertMember key v members) cs₆ = _
    exact hread' fuel _ cs₆ (by omega) rfl hnext

end relations

/-- **What is derived is read**, by induction on the length of the text: a value, the elements of an
array after those already read, the members of an object beside those already kept. -/
theorem completes (n : ℕ) :
    (∀ cs v rest, cs.length < n → Value cs v rest → ReadsValue cs v rest) ∧
    (∀ cs vs rest, cs.length < n → Elements cs vs rest → ReadsElements cs vs rest) ∧
    (∀ cs more rest, cs.length < n → Members cs more rest → ReadsMembers cs more rest) := by
  induction n with
  | zero =>
    refine ⟨?_, ?_, ?_⟩
    · intro cs v rest hn
      cases hn
    · intro cs vs rest hn
      cases hn
    · intro cs more rest hn
      cases hn
  | succ n ih =>
    obtain ⟨_, ihElements, ihMembers⟩ := ih
    have hvalue : ∀ cs v rest, cs.length < n + 1 → Value cs v rest → ReadsValue cs v rest := by
      intro cs v rest hn hv
      exact reads_value (fun cs' vs hlen => ihElements cs' vs rest (by omega))
        (fun cs' more hlen => ihMembers cs' more rest (by omega)) hv
    refine ⟨hvalue, ?_, ?_⟩
    · intro cs vs rest hn h
      exact reads_elements (fun cs' v rest' hlen => hvalue cs' v rest' (by omega))
        (fun cs' vs hlen => ihElements cs' vs rest (by omega)) h
    · intro cs more rest hn h
      exact reads_members (fun cs' v rest' hlen => hvalue cs' v rest' (by omega))
        (fun cs' more hlen => ihMembers cs' more rest (by omega)) h

/-- A text of the grammar is accepted. -/
theorem scanText_complete {cs : List Char} {v : Json} (h : Text cs v) {fuel : ℕ}
    (hfuel : 2 * cs.length + 1 ≤ fuel) : scanText fuel cs = .ok v := by
  obtain ⟨cs₁, cs₂, hws, hv, hend⟩ := h
  have hlen := length_of_ws hws
  have hread := ((completes (cs₁.length + 1)).1 cs₁ v cs₂ (by omega) hv).2 fuel cs (by omega)
    (skipWs_of_value hws hv) (ends_of_ws_nil hend)
  have hempty : skipWs cs₂ = [] := by
    rw [skipWs_of_ws hend]
    rfl
  unfold scanText
  rw [hread]
  show (if (skipWs cs₂).isEmpty = true then _ else _) = _
  rw [hempty]
  rfl

/-! ## The parser terminates -/

/-- The fuel was enough. -/
def Enough {α : Type} (r : Except Stop α) : Prop := r ≠ .error .outOfFuel

/-- A step and then another. -/
theorem enough_bind {α β : Type} {r : Scanned α} {k : α × List Char → Except Stop β} (h : Enough r)
    (hk : ∀ a cs, r = .ok (a, cs) → Enough (k (a, cs))) : Enough (r.bind k) := by
  rcases r with e | ⟨a, cs⟩
  · intro heq
    apply h
    rw [show e = Stop.outOfFuel by simpa [Except.bind] using heq]
  · exact hk a cs rfl

/-- A step whose value is renamed. -/
theorem enough_map {α β : Type} {r : Scanned α} {f : α × List Char → β} (h : Enough r) :
    Enough (r.map f) := by
  rcases r with e | p
  · intro heq
    apply h
    rw [show e = Stop.outOfFuel by simpa [Except.map] using heq]
  · intro heq
    cases heq

/-- A source error is not a lack of fuel. -/
theorem enough_fail {α : Type} (e : JcsError) : Enough (fail e : Except Stop α) := by
  intro h
  cases h

/-- A value is not a lack of fuel. -/
theorem enough_ok {α : Type} (a : α) : Enough (.ok a : Except Stop α) := by
  intro h
  cases h

/-- Hexadecimal digits take no fuel. -/
theorem enough_scanHex (n value : ℕ) (cs : List Char) : Enough (scanHex n value cs) := by
  induction n generalizing value cs with
  | zero => exact enough_ok _
  | succ n ih =>
    cases cs with
    | nil => exact enough_fail _
    | cons c cs =>
      unfold scanHex
      cases hexValue c with
      | none => exact enough_fail _
      | some digit => exact ih _ _

/-- A scalar takes no fuel. -/
theorem enough_scalar (n : ℕ) (e : JcsError) (cs : List Char) : Enough (scalar n e cs) := by
  unfold scalar
  cases Jcs.charFromU32 n with
  | none => exact enough_fail _
  | some ch => exact enough_ok _

/-- An escape takes no fuel. -/
theorem enough_scanEscape (cs : List Char) : Enough (scanEscape cs) := by
  cases cs with
  | nil => exact enough_fail _
  | cons c cs =>
    dsimp only [scanEscape]
    split
    · apply enough_bind (enough_scanHex _ _ _)
      intro unit cs _
      dsimp only
      split
      · unfold scanLowSurrogate
        split
        · split
          · apply enough_bind (enough_scanHex _ _ _)
            intro low cs _
            dsimp only
            split
            · exact enough_scalar _ _ _
            · exact enough_fail _
          · exact enough_fail _
        · exact enough_fail _
      · split
        · exact enough_fail _
        · exact enough_scalar _ _ _
    · cases escaped c with
      | none => exact enough_fail _
      | some ch => exact enough_ok _

/-- An escape takes characters away. -/
theorem length_of_scanEscape {cs rest : List Char} {ch : Char}
    (h : scanEscape cs = .ok (ch, rest)) : rest.length < cs.length := by
  cases cs with
  | nil => cases h
  | cons esc cs =>
    dsimp only [scanEscape] at h
    by_cases hu : esc = 'u'
    · rw [if_pos hu] at h
      obtain ⟨unit, cs₁, hhex, h⟩ := bind_ok h
      have hl := length_of_hex4 (hex4_of_scanHex hhex)
      dsimp only at h
      split at h
      · unfold scanLowSurrogate at h
        split at h
        · split at h
          · obtain ⟨low, cs₃, hlow, h⟩ := bind_ok h
            have hl' := length_of_hex4 (hex4_of_scanHex hlow)
            dsimp only at h
            split at h
            · obtain ⟨rfl, _⟩ := scalar_ok h
              simp only [List.length_cons] at *
              omega
            · cases h
          · cases h
        · cases h
      · split at h
        · cases h
        · obtain ⟨rfl, _⟩ := scalar_ok h
          rw [List.length_cons]
          omega
    · rw [if_neg hu] at h
      cases he : escaped esc with
      | none =>
        rw [he] at h
        cases h
      | some c =>
        rw [he] at h
        obtain ⟨_, rfl⟩ : c = ch ∧ cs = rest := by simpa using h
        rw [List.length_cons]
        omega

/-- A string takes the fuel of its length. -/
theorem enough_scanChars (fuel : ℕ) (out cs : List Char) (hfuel : cs.length < fuel) :
    Enough (scanChars fuel out cs) := by
  induction fuel generalizing out cs with
  | zero => cases hfuel
  | succ fuel ih =>
    cases cs with
    | nil => exact enough_fail _
    | cons c cs =>
      rw [List.length_cons] at hfuel
      unfold scanChars
      split
      · exact enough_ok _
      · split
        · apply enough_bind (enough_scanEscape cs)
          intro ch rest hread
          have hlen := length_of_scanEscape hread
          exact ih _ _ (by omega)
        · split
          · exact enough_fail _
          · exact ih _ _ (by omega)

/-- A string has the fuel of its bytes. -/
theorem enough_scanString (cs : List Char) : Enough (scanString cs) := by
  have hlen := Utf8.length_le_encode cs
  apply enough_scanChars
  rw [List.length_drop]
  omega

/-- A number takes no fuel. -/
theorem enough_scanNumber (cs : List Char) : Enough (scanNumber cs) := by
  have hdigits : ∀ cs, Enough (someDigits cs) := by
    intro cs
    unfold someDigits
    split
    · exact enough_fail _
    · exact enough_ok _
  have hwhole : ∀ cs, Enough (scanWhole cs) := by
    intro cs
    unfold scanWhole
    split
    · split
      · exact enough_fail _
      · exact enough_ok _
    · exact hdigits cs
  have hfraction : ∀ cs, Enough (scanFraction cs) := by
    intro cs
    unfold scanFraction
    split
    · exact enough_map (hdigits _)
    · exact enough_ok _
  have hexponent : ∀ cs, Enough (scanExponent cs) := by
    intro cs
    unfold scanExponent
    split
    · exact enough_map (hdigits _)
    · split
      · exact enough_map (hdigits _)
      · exact enough_ok _
  have hnumeral : ∀ negative cs, Enough (scanNumeral negative cs) := by
    intro negative cs
    apply enough_bind (hwhole cs)
    intro whole cs _
    apply enough_bind (hfraction cs)
    intro fraction cs _
    exact enough_map (hexponent cs)
  have htoken : Enough (scanToken cs) := by
    unfold scanToken
    split
    · exact hnumeral _ _
    · exact hnumeral _ _
  apply enough_bind htoken
  intro token rest _
  dsimp only
  cases numberOf token with
  | error e => exact enough_fail e
  | ok n => exact enough_ok _

/-- A value that is read takes characters away. -/
theorem length_of_scanValue {fuel : ℕ} {cs rest : List Char} {v : Json}
    (h : scanValue fuel cs = .ok (v, rest)) : rest.length < cs.length := by
  obtain ⟨cs₁, hws, hv⟩ := (derives fuel).1 _ _ _ h
  have hlen := length_of_ws hws
  have := ((completes (cs₁.length + 1)).1 cs₁ v rest (by omega) hv).1
  omega

/-- What is left after whitespace is no longer. -/
theorem length_skipWs (cs : List Char) : (skipWs cs).length ≤ cs.length :=
  length_of_ws (ws_skipWs cs)

/-- A case on the first character after whitespace. -/
theorem enough_match {α : Type} {cs : List Char} {q : Char → List Char → Scanned α}
    (h : ∀ c rest, skipWs cs = c :: rest → Enough (q c rest)) :
    Enough (match skipWs cs with
      | [] => fail .invalidJson
      | c :: cs => q c cs) := by
  cases hcs : skipWs cs with
  | nil => exact enough_fail _
  | cons c rest => exact h c rest hcs

/-- The fuel is enough for values of this depth of recursion. -/
def EnoughValue (fuel : ℕ) : Prop :=
  ∀ cs : List Char, 2 * cs.length + 1 ≤ fuel → Enough (scanValue fuel cs)

/-- It is enough for what is left of an array. -/
def EnoughArray (fuel : ℕ) : Prop :=
  ∀ (items : List Json) (cs : List Char), 2 * cs.length + 2 ≤ fuel →
    Enough (scanArray fuel items cs)

/-- It is enough for what is left of an object. -/
def EnoughObject (fuel : ℕ) : Prop :=
  ∀ (members : List (String × Json)) (cs : List Char), 2 * cs.length + 2 ≤ fuel →
    Enough (scanObject fuel members cs)

/-- A literal takes no fuel. -/
theorem enough_scanLiteral (token : List Char) (value : Json) (cs : List Char) :
    Enough (scanLiteral token value cs) := by
  unfold scanLiteral
  split
  · exact enough_ok _
  · exact enough_fail _

/-- A value: the bracket of an array or an object is the character that pays for its scanner. -/
theorem enough_value {fuel : ℕ} (harray : EnoughArray fuel) (hobject : EnoughObject fuel) :
    EnoughValue (fuel + 1) := by
  intro cs hfuel
  unfold scanValue
  apply enough_match
  intro c rest hcs
  have hlen := length_skipWs cs
  have hrest := length_skipWs rest
  rw [hcs, List.length_cons] at hlen
  split
  · exact enough_scanLiteral _ _ _
  split
  · exact enough_scanLiteral _ _ _
  split
  · exact enough_scanLiteral _ _ _
  split
  · exact enough_map (enough_scanString _)
  split
  · split
    · exact enough_ok _
    · exact harray _ _ (by omega)
  split
  · split
    · exact enough_ok _
    · exact hobject _ _ (by omega)
  split
  · exact enough_scanNumber _
  · exact enough_fail _

/-- The rest of an array: the value that is read pays for the next round. -/
theorem enough_array {fuel : ℕ} (hvalue : EnoughValue fuel) (harray : EnoughArray fuel) :
    EnoughArray (fuel + 1) := by
  intro items cs hfuel
  unfold scanArray
  apply enough_bind (hvalue cs (by omega))
  intro item cs₁ hread
  have hl := length_of_scanValue hread
  apply enough_match
  intro c rest hcs
  have hlen := length_skipWs cs₁
  rw [hcs, List.length_cons] at hlen
  split
  · exact harray _ _ (by omega)
  split
  · exact enough_ok _
  · exact enough_fail _

/-- The rest of an object: the name and the value that are read pay for the next round. -/
theorem enough_object {fuel : ℕ} (hvalue : EnoughValue fuel) (hobject : EnoughObject fuel) :
    EnoughObject (fuel + 1) := by
  intro members cs hfuel
  unfold scanObject
  split
  · next hquote =>
    apply enough_bind (enough_scanString _)
    intro key cs₁ hread
    have hl₀ := length_skipWs cs
    have hl₁ := length_of_str (str_of_scanString hquote hread)
    dsimp only
    -- a repeated name is refused before the colon
    split
    · exact enough_fail _
    split
    · have hl₂ := length_skipWs cs₁
      have hdrop : ((skipWs cs₁).drop 1).length ≤ (skipWs cs₁).length := by
        rw [List.length_drop]
        omega
      apply enough_bind (hvalue _ (by omega))
      intro value cs₂ hread'
      have hl₃ := length_of_scanValue hread'
      apply enough_match
      intro c rest hcs
      have hlen := length_skipWs cs₂
      rw [hcs, List.length_cons] at hlen
      split
      · exact hobject _ _ (by omega)
      split
      · exact enough_ok _
      · exact enough_fail _
    · exact enough_fail _
  · exact enough_fail _

/-- **The fuel is enough for every text**: two levels of the recursion take a character. -/
theorem terminates (fuel : ℕ) : EnoughValue fuel ∧ EnoughArray fuel ∧ EnoughObject fuel := by
  induction fuel with
  | zero =>
    refine ⟨?_, ?_, ?_⟩
    · intro cs h
      omega
    · intro items cs h
      omega
    · intro members cs h
      omega
  | succ fuel ih =>
    obtain ⟨hvalue, harray, hobject⟩ := ih
    exact ⟨enough_value harray hobject, enough_array hvalue harray, enough_object hvalue hobject⟩

/-- The fuel of a text's bytes is enough for its characters. -/
theorem fuel_enough (cs : List Char) : 2 * cs.length + 1 ≤ Jcs.fuelFor (Utf8.encode cs) := by
  have := Utf8.length_le_encode cs
  unfold Jcs.fuelFor
  omega

/-- A text never runs out of fuel. -/
theorem enough_scanText (cs : List Char) :
    Enough (scanText (Jcs.fuelFor (Utf8.encode cs)) cs) := by
  unfold scanText
  apply enough_bind ((terminates _).1 cs (fuel_enough cs))
  intro v rest _
  dsimp only
  split
  · exact enough_ok _
  · exact enough_fail _

end JsonScan

namespace Jcs

/-- The strict parser terminates on every text: its result is a value or an error of the source. -/
theorem parseStrict_enough (raw : String) : parseStrict raw ≠ .error .outOfFuel := by
  rw [JsonScan.parseStrict_eq]
  exact JsonScan.enough_scanText raw.toList

/-- The strict parser returns exactly what the grammar derives. -/
theorem parseStrict_ok_iff (raw : String) (v : Json) :
    parseStrict raw = .ok v ↔ JsonText.Text raw.toList v := by
  rw [JsonScan.parseStrict_eq]
  constructor
  · exact JsonScan.text_of_scanText
  · intro h
    exact JsonScan.scanText_complete h (JsonScan.fuel_enough raw.toList)

/-- **The strict parser accepts exactly its grammar**: it terminates on every text with a value or
an error of the source, it returns a value where the text is derived, and the value is the one that
the text denotes. -/
theorem parseStrict_iff (raw : String) :
    ((∃ v, parseStrict raw = .ok v) ∨ ∃ e, parseStrict raw = .error (.error e)) ∧
    ((∃ v, parseStrict raw = .ok v) ↔ ∃ v, JsonText.Text raw.toList v) ∧
    ∀ v, parseStrict raw = .ok v ↔ JsonText.Text raw.toList v := by
  refine ⟨?_, ?_, parseStrict_ok_iff raw⟩
  · cases h : parseStrict raw with
    | ok v => exact Or.inl ⟨v, rfl⟩
    | error e =>
      cases e with
      | outOfFuel => exact absurd h (parseStrict_enough raw)
      | error e => exact Or.inr ⟨e, rfl⟩
  · constructor
    · rintro ⟨v, h⟩
      exact ⟨v, (parseStrict_ok_iff raw v).mp h⟩
    · rintro ⟨v, h⟩
      exact ⟨v, (parseStrict_ok_iff raw v).mpr h⟩

end Jcs

end Waitprims
