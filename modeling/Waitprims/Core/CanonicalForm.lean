import Mathlib
import Waitprims.Core.CanonicalIdempotent

/-! # The canonical form over the public entries

What `canonicalize_json` and `registration_digest` promise of a text that parses, with the printing
of floats taken from the standard. The canonical form is faithful, and it is idempotent exactly for
the texts whose numbers print as themselves: `2 ^ 60` prints as `1152921504606847000`, which is not
a binary64 value, so the parser refuses what the encoder wrote.

* **`Jcs.canonicalize_eq_iff`** — equal bytes are of equal values.
* **`Jcs.canonicalize_idempotent_iff`** — when the canonical bytes parse and canonicalize to
  themselves.
* **`plain_sixty`** — the shortest digits of `2 ^ 60` are plain digits of another integer. -/

namespace Waitprims

namespace Jcs

/-- **The canonical form is faithful**: two texts that parse canonicalize, to equal bytes exactly
where their values are equal up to member order and number spelling; and two registrations arrays
hash equal bytes exactly there. -/
theorem canonicalize_eq_iff {formatFinite : Binary64 → List Char}
    (hprints : PrintsNumbers formatFinite) {raw raw' : String} {v w : Json}
    (hraw : parseStrict raw = .ok v) (hraw' : parseStrict raw' = .ok w) :
    (∃ out out', canonicalizeJson formatFinite raw = .ok out ∧
      canonicalizeJson formatFinite raw' = .ok out' ∧ (out = out' ↔ v.Same w)) ∧
    ∀ items items', v = .arr items → w = .arr items' →
      ∃ out out', registrationPreimage formatFinite raw = .ok out ∧
        registrationPreimage formatFinite raw' = .ok out' ∧ (out = out' ↔ v.Same w) := by
  have hv := Json.parsed_of_parseStrict hraw
  have hw := Json.parsed_of_parseStrict hraw'
  refine ⟨⟨_, _, canonicalizeJson_eq formatFinite hraw, canonicalizeJson_eq formatFinite hraw',
    text_eq_iff hprints hv hw⟩, ?_⟩
  rintro items items' rfl rfl
  exact ⟨_, _, registrationPreimage_eq formatFinite hraw, registrationPreimage_eq formatFinite hraw',
    text_eq_iff hprints hv hw⟩

/-- An array of one object, with the integer `1`. -/
def countedOne : Json := .arr [.obj [("n", .num (.int 1)), ("s", .str "b")]]

/-- The array with the float `1.0`. -/
def measuredOne : Json :=
  .arr [.obj [("n", .num (.float ⟨0x3ff0000000000000#64⟩)), ("s", .str "b")]]

/-- Two spellings of an array: another member order, another spelling of the number, an escape. -/
theorem canonicalize_eq_iff_respelled :
    (∃ out out', canonicalizeJson (numberToString someShortest) "[\x7b\"n\":1,\"s\":\"b\"\x7d]"
        = .ok out ∧
      canonicalizeJson (numberToString someShortest) " [ \x7b\"s\":\"\\u0062\" ,\"n\":1.0\x7d] "
        = .ok out' ∧
      (out = out' ↔ countedOne.Same measuredOne)) ∧
    ∀ items items', countedOne = .arr items → measuredOne = .arr items' →
      ∃ out out', registrationPreimage (numberToString someShortest) "[\x7b\"n\":1,\"s\":\"b\"\x7d]"
          = .ok out ∧
        registrationPreimage (numberToString someShortest)
          " [ \x7b\"s\":\"\\u0062\" ,\"n\":1.0\x7d] " = .ok out' ∧
        (out = out' ↔ countedOne.Same measuredOne) :=
  canonicalize_eq_iff (printsNumbers_numberToString shortestDigits_someShortest)
    (by decide +kernel) (by decide +kernel)

end Jcs

/-! ## A number that does not print as itself -/

/-- The encoding of `2 ^ 60`. -/
def sixty : ℕ := 1083 * 2 ^ 52

/-- It is of `2 ^ 60`. -/
theorem value_sixty : Binary64.format.value sixty = 2 ^ 60 := by
  unfold Floating.Format.value Floating.Format.significand Floating.Format.exponent
  norm_num [sixty, Binary64.format]

/-- Sixteen digits round to it. -/
theorem round_sixteen : Binary64.format.round 1152921504606847000 = sixty := by
  have hlog : Int.log 2 (1152921504606847000 : ℚ) = 60 := by
    apply le_antisymm
    · have h : Int.log 2 (1152921504606847000 : ℚ) < 61 := by
        rw [← Int.lt_zpow_iff_log_lt (by norm_num) (by norm_num)]
        norm_num
      omega
    · rw [← Int.zpow_le_iff_le_log (by norm_num) (by norm_num)]
      norm_num
  have hplace : Binary64.format.lastPlace 1152921504606847000 = 8 := by
    unfold Floating.Format.lastPlace
    rw [hlog]
    rfl
  have hfloor : ⌊(1152921504606847000 * 2 ^ (-8 : ℤ) : ℚ)⌋₊ = 2 ^ 52 := by
    rw [Nat.floor_eq_iff (by norm_num)]
    norm_num
  unfold Floating.Format.round
  rw [if_neg (by norm_num), hplace]
  unfold Floating.roundHalfEven
  dsimp only
  rw [hfloor, if_pos (Or.inl (by norm_num))]
  rfl

/-- The shortest digits of `2 ^ 60` have at most sixteen places. -/
theorem places_sixty {d : Decimal} (h : IsShortest sixty d) : d.places ≤ 16 := by
  have hplaces : (⟨1152921504606847, 19⟩ : Decimal).places = 16 := by decide +kernel
  have hvalue : (⟨1152921504606847, 19⟩ : Decimal).value = 1152921504606847000 := by
    unfold Decimal.value
    rw [hplaces]
    norm_num
  rw [← hplaces]
  exact h.least _ (by norm_num) (by rw [hvalue, round_sixteen])

/-- They have nineteen places before the point. -/
theorem point_sixty {d : Decimal} (h : IsShortest sixty d) : d.point = 19 := by
  have hpos : 0 < d.value := by
    have := h.pos
    unfold Decimal.value
    positivity
  obtain ⟨hlow, hhigh⟩ : (10 : ℚ) ^ (18 : ℤ) < d.value ∧ d.value < 10 ^ (19 : ℤ) := by
    have herror := Binary64.format.round_error hpos
    have hplace := Binary64.format.zpow_lastPlace_le hpos
    rw [h.round, value_sixty, abs_le] at herror
    have hleast : (2 : ℚ) ^ Binary64.format.leastExponent ≤ 1 := by
      apply zpow_le_one_of_nonpos₀ (by norm_num)
      decide
    have hbits : (2 : ℚ) ^ Binary64.format.precision = 4503599627370496 := by
      norm_num [Binary64.format]
    rw [hbits] at hplace
    rcases le_max_iff.mp hplace with hsmall | hsmall
    · constructor <;> norm_num <;> linarith
    · constructor <;> norm_num <;> linarith
  have hone := (zpow_lt_zpow_iff_right₀ (by norm_num)).mp
    ((Decimal.zpow_le_value h.pos).trans_lt hhigh)
  have htwo := (zpow_lt_zpow_iff_right₀ (by norm_num)).mp (hlow.trans d.value_lt_zpow)
  omega

/-- **The shortest digits of `2 ^ 60` are plain digits of another integer.** -/
theorem plain_sixty {d : Decimal} (h : IsShortest sixty d) : d.IsPlain ∧ d.plain ≠ 2 ^ 60 := by
  have hplaces := places_sixty h
  have hpoint := point_sixty h
  refine ⟨⟨by omega, by omega⟩, ?_⟩
  intro hplain
  -- plain digits end in a zero
  have hzeros : (d.point - d.places).toNat = (d.point - d.places).toNat - 1 + 1 := by omega
  unfold Decimal.plain at hplain
  rw [hzeros, pow_succ, ← mul_assoc] at hplain
  omega

/-- `2 ^ 60` is a binary64 value. -/
theorem ofInt_sixty : Binary64.ofInt (2 ^ 60) = Binary64.ofMagnitude false sixty := by
  have hvalue : (((2 ^ 60 : ℤ).natAbs : ℕ) : ℚ) = Binary64.format.value sixty := by
    rw [value_sixty]
    norm_num
  have hfinite : sixty ≤ Binary64.infinity := by norm_num [sixty, Binary64.infinity]
  unfold Binary64.ofInt Binary64.nearest
  rw [hvalue, Floating.Format.round_value, min_eq_left hfinite]
  norm_num

/-- The magnitude of `2 ^ 60`. -/
theorem magnitude_sixty : (Binary64.ofInt (2 ^ 60)).magnitude = sixty := by
  have hlt : sixty < 2 ^ 63 := by norm_num [sixty]
  rw [ofInt_sixty]
  unfold Binary64.ofMagnitude Binary64.magnitude
  dsimp only
  rw [BitVec.toNat_ofNat, if_neg (by simp), Nat.zero_add]
  omega

/-- The sign of `2 ^ 60`. -/
theorem isNegative_sixty : (Binary64.ofInt (2 ^ 60)).isNegative = false := by
  have hlt : sixty < 2 ^ 63 := by norm_num [sixty]
  rw [ofInt_sixty]
  unfold Binary64.ofMagnitude Binary64.isNegative
  dsimp only
  rw [BitVec.msb_eq_decide, BitVec.toNat_ofNat, if_neg (by simp), Nat.zero_add]
  simp
  omega

/-- `2 ^ 60` is finite. -/
theorem isFinite_sixty : (Binary64.ofInt (2 ^ 60)).isFinite = true := by
  unfold Binary64.isFinite
  rw [magnitude_sixty]
  norm_num [sixty, Binary64.infinity]

/-- The token of a natural number in plain digits. -/
def Numeral.ofNat (n : ℕ) : Numeral := ⟨false, Nat.toDigits 10 n, none, none⟩

/-- It writes the number. -/
theorem Numeral.integer_ofNat (n : ℕ) : (Numeral.ofNat n).integer = n := by
  unfold Numeral.integer Numeral.ofNat
  dsimp only
  rw [Nat.ofDigitChars_ten_toDigits]
  rfl

/-- It is spelled as the grammar asks. -/
theorem Numeral.wellFormed_ofNat {n : ℕ} (h : 0 < n) : (Numeral.ofNat n).WellFormed :=
  ⟨Or.inr ⟨Decimal.isDigits_toDigits n, Decimal.head_toDigits n h⟩,
    fun _ hd => (nomatch hd), fun _ he => (nomatch he)⟩

/-- Its text is its digits. -/
theorem Numeral.text_ofNat (n : ℕ) : (Numeral.ofNat n).text = Nat.toDigits 10 n := by
  show Nat.toDigits 10 n ++ ([] ++ []) = Nat.toDigits 10 n
  rw [List.append_nil, List.append_nil]

/-- The token of `2 ^ 60` is accepted. -/
theorem checked_sixty : (Numeral.ofNat (2 ^ 60)).Checked := by
  have hint : (Numeral.ofNat (2 ^ 60)).integer = 2 ^ 60 := by
    rw [Numeral.integer_ofNat]
    norm_num
  unfold Numeral.Checked
  rw [if_pos (show (Numeral.ofNat (2 ^ 60)).isIntegerToken = true from rfl), hint]
  refine ⟨by norm_num, isFinite_sixty, ?_⟩
  unfold Binary64.toI128 Binary64.saturate Binary64.truncate
  rw [isNegative_sixty, magnitude_sixty, value_sixty]
  norm_num

namespace Jcs

/-- The text of `2 ^ 60` parses. -/
theorem parseStrict_sixty :
    parseStrict "1152921504606846976" = .ok (.num (.int (2 ^ 60))) := by
  have hnumber : (Numeral.ofNat (2 ^ 60)).number = .int (2 ^ 60) := by
    unfold Numeral.number
    rw [Numeral.integer_ofNat, if_pos ⟨rfl, by norm_num⟩]
    norm_num
  have htext : "1152921504606846976".toList = (Numeral.ofNat (2 ^ 60)).text ++ [] := by
    rw [show "1152921504606846976" = String.ofList (Nat.toDigits 10 (2 ^ 60)) by decide +kernel,
      String.toList_ofList, List.append_nil, Numeral.text_ofNat]
  have hvalue : JsonText.Value ((Numeral.ofNat (2 ^ 60)).text ++ [])
      (.num (Numeral.ofNat (2 ^ 60)).number) [] :=
    JsonText.Value.num (Numeral.wellFormed_ofNat (by norm_num)) checked_sixty
  rw [hnumber] at hvalue
  rw [parseStrict_ok_iff, htext]
  exact ⟨_, _, JsonText.Ws.nil, hvalue, JsonText.Ws.nil⟩

/-- `2 ^ 60` does not print as itself. -/
theorem not_printsItself_sixty {shortest : Binary64 → Decimal} (hshort : ShortestDigits shortest) :
    ¬ PrintsItself shortest (.int (2 ^ 60)) := by
  intro h
  have hmagnitude : (Number.int (2 ^ 60)).toF64.magnitude = sixty := magnitude_sixty
  have hne : (Number.int (2 ^ 60)).toF64.magnitude ≠ 0 := by
    rw [hmagnitude]
    norm_num [sixty]
  have hshortest := hshort _ isFinite_sixty hne
  have hmine : IsShortest sixty (shortest (Number.int (2 ^ 60)).toF64) := hmagnitude ▸ hshortest
  obtain ⟨hplain, hother⟩ := plain_sixty hmine
  have hsame := h hne hplain
  rw [hmagnitude, value_sixty] at hsame
  apply hother
  have hfloor : ⌊(2 ^ 60 : ℚ)⌋ = 2 ^ 60 := by norm_num
  rw [hfloor] at hsame
  exact_mod_cast hsame

/-- **When canonicalization is idempotent**: a text that parses canonicalizes, and its canonical
bytes parse and canonicalize to themselves exactly where none of its numbers is printed in plain
digits of another integer. -/
theorem canonicalize_idempotent_iff {shortest : Binary64 → Decimal}
    (hshort : ShortestDigits shortest) {raw : String} {v : Json} (hraw : parseStrict raw = .ok v) :
    ∃ out, canonicalizeJson (numberToString shortest) raw = .ok out ∧
      (((∃ w, parseBytes out = .ok w) ∧
          canonicalizeBytes (numberToString shortest) out = .ok out) ↔
        v.AllNumbers (PrintsItself shortest)) := by
  have hv := Json.parsed_of_parseStrict hraw
  refine ⟨_, canonicalizeJson_eq _ hraw, ?_⟩
  constructor
  · rintro ⟨hparse, _⟩
    exact (reparses_iff hshort hv).mp hparse
  · intro hall
    exact ⟨(reparses_iff hshort hv).mpr hall, canonicalizeBytes_text hshort hv hall⟩

/-- At the text of `2 ^ 60`. -/
theorem canonicalize_idempotent_iff_sixty :
    ∃ out, canonicalizeJson (numberToString someShortest) "1152921504606846976" = .ok out ∧
      (((∃ w, parseBytes out = .ok w) ∧
          canonicalizeBytes (numberToString someShortest) out = .ok out) ↔
        (Json.num (.int (2 ^ 60))).AllNumbers (PrintsItself someShortest)) :=
  canonicalize_idempotent_iff shortestDigits_someShortest parseStrict_sixty

/-- **Canonicalization is not idempotent**: `2 ^ 60` is accepted and canonicalized, and what it
prints is refused. -/
theorem canonical_sixty_refused :
    ∃ out, parseStrict "1152921504606846976" = .ok (.num (.int (2 ^ 60))) ∧
      canonicalizeJson (numberToString someShortest) "1152921504606846976" = .ok out ∧
      ¬ ∃ w, parseBytes out = .ok w := by
  have hv := Json.parsed_of_parseStrict parseStrict_sixty
  refine ⟨_, parseStrict_sixty, canonicalizeJson_eq _ parseStrict_sixty, ?_⟩
  intro hparse
  have hall := (reparses_iff shortestDigits_someShortest hv).mp hparse
  cases hall with
  | num h => exact not_printsItself_sixty shortestDigits_someShortest h

end Jcs

end Waitprims
