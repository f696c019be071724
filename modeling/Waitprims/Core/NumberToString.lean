import Mathlib
import Waitprims.Core.CanonicalFaithful

/-! # ECMAScript number printing

What the encoder relies on for a non-zero float: `Number::toString` of its shortest round-trip
digits. The digits are a parameter, with the property that they round back to the float and that no
decimal with fewer digits does; the layout is the standard's. A value with at most 21 places before
the point is printed in plain digits.

* **`Decimal`** — significant digits and the position of the point.
* **`ShortestDigits`** — the digits of every finite non-zero value round back, with the fewest
  places.
* **`numberToString`** — the layout, **`printsNumbers_numberToString`** — it prints numbers
  faithfully.
* **`checked_token_iff`** — when the number check of the parser accepts what is printed. -/

namespace Waitprims

/-- A decimal number: its significant digits, and how many places stand before the point. -/
structure Decimal where
  digits : ℕ
  point : ℤ

namespace Decimal

/-- The significant digits as characters. -/
def chars (d : Decimal) : List Char := Nat.toDigits 10 d.digits

/-- How many significant digits there are. -/
def places (d : Decimal) : ℕ := d.chars.length

/-- The rational number of a decimal. -/
def value (d : Decimal) : ℚ := d.digits * 10 ^ (d.point - d.places)

/-- The decimal is printed as an integer in plain digits. -/
def IsPlain (d : Decimal) : Prop := (d.places : ℤ) ≤ d.point ∧ d.point ≤ 21

instance (d : Decimal) : Decidable d.IsPlain :=
  inferInstanceAs (Decidable ((d.places : ℤ) ≤ d.point ∧ d.point ≤ 21))

/-- The integer that plain digits write. -/
def plain (d : Decimal) : ℕ := d.digits * 10 ^ (d.point - d.places).toNat

/-- The token that a signed decimal is printed as: plain digits up to 21 places before the point, a
point after up to 6 zeros behind it, else one digit before the point and an exponent. -/
def token (negative : Bool) (d : Decimal) : Numeral :=
  if d.IsPlain then
    ⟨negative, d.chars ++ List.replicate (d.point - d.places).toNat '0', none, none⟩
  else if 0 < d.point ∧ d.point ≤ 21 then
    ⟨negative, d.chars.take d.point.toNat, some (d.chars.drop d.point.toNat), none⟩
  else if -6 < d.point ∧ d.point ≤ 0 then
    ⟨negative, ['0'], some (List.replicate (-d.point).toNat '0' ++ d.chars), none⟩
  else
    ⟨negative, d.chars.take 1, if d.places = 1 then none else some (d.chars.drop 1),
      some ⟨'e', some (if d.point - 1 < 0 then '-' else '+'),
        Nat.toDigits 10 (d.point - 1).natAbs⟩⟩

end Decimal

/-- The shortest digits of a magnitude: they round back to it, and no fewer do. -/
structure IsShortest (n : ℕ) (d : Decimal) : Prop where
  pos : 0 < d.digits
  round : Binary64.format.round d.value = n
  least : ∀ e : Decimal, 0 < e.digits → Binary64.format.round e.value = n → d.places ≤ e.places

/-- The digits that every finite non-zero value is printed with are shortest. -/
def ShortestDigits (shortest : Binary64 → Decimal) : Prop :=
  ∀ x : Binary64, x.isFinite = true → x.magnitude ≠ 0 → IsShortest x.magnitude (shortest x)

/-- `Number::toString`, from the shortest digits of a value. -/
def numberToString (shortest : Binary64 → Decimal) (x : Binary64) : List Char :=
  ((shortest x).token x.isNegative).text

namespace Decimal

/-! ## The token of a decimal -/

/-- The digits of a number are digits. -/
theorem isDigits_toDigits (n : ℕ) : IsDigits (Nat.toDigits 10 n) := by
  refine ⟨Nat.toDigits_ne_nil, ?_⟩
  intro c hc
  have h := Nat.isDigit_of_mem_toDigits (by norm_num) (by norm_num) hc
  have hboth : '0'.val ≤ c.val ∧ c.val ≤ '9'.val := by
    simpa [Char.isDigit] using h
  unfold isDigitChar
  rw [Bool.and_eq_true, decide_eq_true_iff, decide_eq_true_iff]
  exact hboth

/-- There is a significant digit. -/
theorem places_pos (d : Decimal) : 0 < d.places := Nat.length_toDigits_pos

/-- The significant digits are below the power of their number. -/
theorem digits_lt (d : Decimal) : d.digits < 10 ^ d.places :=
  (Nat.length_toDigits_le_iff (by norm_num) d.places_pos).mp le_rfl

/-- The significant digits are not below a smaller power. -/
theorem le_digits {d : Decimal} (h : 0 < d.digits) : 10 ^ (d.places - 1) ≤ d.digits := by
  by_contra hlt
  rcases Nat.eq_zero_or_pos (d.places - 1) with hzero | hpos
  · rw [hzero] at hlt
    omega
  · have hle := (Nat.length_toDigits_le_iff (by norm_num) hpos).mpr (not_le.mp hlt)
    have hplaces : d.places = (Nat.toDigits 10 d.digits).length := rfl
    have := d.places_pos
    omega

/-- A decimal is not below the power of ten under its point. -/
theorem zpow_le_value {d : Decimal} (h : 0 < d.digits) : (10 : ℚ) ^ (d.point - 1) ≤ d.value := by
  have hdigits : ((10 ^ (d.places - 1) : ℕ) : ℚ) ≤ d.digits := by exact_mod_cast le_digits h
  have hsplit : d.point - 1 = ((d.places - 1 : ℕ) : ℤ) + (d.point - d.places) := by
    have := d.places_pos
    omega
  rw [hsplit, zpow_add₀ (by norm_num), zpow_natCast]
  push_cast at hdigits
  exact mul_le_mul_of_nonneg_right hdigits (by positivity)

/-- A decimal is below the power of ten over its point. -/
theorem value_lt_zpow (d : Decimal) : d.value < (10 : ℚ) ^ d.point := by
  have hdigits : (d.digits : ℚ) < ((10 ^ d.places : ℕ) : ℚ) := by exact_mod_cast d.digits_lt
  have hsplit : d.point = (d.places : ℤ) + (d.point - d.places) := by omega
  rw [hsplit, zpow_add₀ (by norm_num), zpow_natCast]
  push_cast at hdigits
  exact mul_lt_mul_of_pos_right hdigits (by positivity)

/-- The digits of a positive number start with no zero. -/
theorem head_toDigits (n : ℕ) (h : 0 < n) : (Nat.toDigits 10 n).head? ≠ some '0' := by
  induction n using Nat.strong_induction_on with
  | _ n ih =>
    by_cases hlt : n < 10
    · rw [Nat.toDigits_of_lt_base hlt]
      interval_cases n <;> decide
    · have hstep := Nat.toDigits_of_base_le (b := 10) (by norm_num) (not_lt.mp hlt)
      have hne : Nat.toDigits 10 (n / 10) ≠ [] := Nat.toDigits_ne_nil
      rw [hstep, List.head?_append_of_ne_nil _ hne]
      exact ih (n / 10) (by omega) (by omega)

/-- The parts of the token are spelled as the grammar asks. -/
theorem wellFormed_token (negative : Bool) {d : Decimal} (h : 0 < d.digits) :
    (d.token negative).WellFormed := by
  have hchars : IsDigits d.chars := isDigits_toDigits d.digits
  have hhead : d.chars.head? ≠ some '0' := head_toDigits d.digits h
  have hlen : d.chars.length = d.places := rfl
  have hpos := d.places_pos
  -- a first part of the digits starts as the digits do
  have htake : ∀ k, 0 < k → Numeral.IsWhole (d.chars.take k) := by
    intro k hk
    refine Or.inr ⟨⟨?_, fun c hc => hchars.2 c (List.mem_of_mem_take hc)⟩, ?_⟩
    · intro hnil
      have := congrArg List.length hnil
      rw [List.length_take, List.length_nil] at this
      omega
    · rw [List.head?_take, if_neg (by omega)]
      exact hhead
  have hdrop : ∀ k, k < d.places → IsDigits (d.chars.drop k) := by
    intro k hk
    refine ⟨?_, fun c hc => hchars.2 c (List.mem_of_mem_drop hc)⟩
    intro hnil
    have := congrArg List.length hnil
    rw [List.length_drop, List.length_nil] at this
    omega
  unfold token
  split
  · refine ⟨Or.inr ⟨⟨?_, ?_⟩, ?_⟩, fun _ hd => (nomatch hd), fun _ he => (nomatch he)⟩
    · intro hnil
      exact hchars.1 (List.append_eq_nil_iff.mp hnil).1
    · intro c hc
      rcases List.mem_append.mp hc with hc | hc
      · exact hchars.2 c hc
      · rw [List.eq_of_mem_replicate hc]
        decide
    · show (d.chars ++ _).head? ≠ some '0'
      rw [List.head?_append_of_ne_nil _ hchars.1]
      exact hhead
  · split
    · next hplain hpoint =>
      refine ⟨htake _ (by omega), ?_, fun _ he => (nomatch he)⟩
      intro digits hdigits
      rw [← Option.some.inj hdigits]
      apply hdrop
      unfold IsPlain at hplain
      omega
    · split
      · refine ⟨Or.inl rfl, ?_, fun _ he => (nomatch he)⟩
        intro digits hdigits
        rw [← Option.some.inj hdigits]
        refine ⟨?_, ?_⟩
        · intro hnil
          exact hchars.1 (List.append_eq_nil_iff.mp hnil).2
        · intro c hc
          rcases List.mem_append.mp hc with hc | hc
          · rw [List.eq_of_mem_replicate hc]
            decide
          · exact hchars.2 c hc
      · refine ⟨htake 1 (by omega), ?_, ?_⟩
        · intro digits hdigits
          split at hdigits
          · cases hdigits
          · rw [← Option.some.inj hdigits]
            exact hdrop 1 (by omega)
        · intro e he
          rw [← Option.some.inj he]
          refine ⟨Or.inl rfl, ?_, isDigits_toDigits _⟩
          intro c hc
          rw [← Option.some.inj hc]
          split
          · exact Or.inr rfl
          · exact Or.inl rfl

/-- The token has the sign it is given. -/
theorem negative_token (negative : Bool) (d : Decimal) : (d.token negative).negative = negative := by
  unfold token
  split
  · rfl
  · split
    · rfl
    · split <;> rfl

/-- The token is an integer token where the decimal is plain. -/
theorem isIntegerToken_token (negative : Bool) (d : Decimal) :
    (d.token negative).isIntegerToken = decide d.IsPlain := by
  unfold token
  split
  · next h => simp [Numeral.isIntegerToken, h]
  · next h =>
    split
    · simp [Numeral.isIntegerToken, h]
    · split
      · simp [Numeral.isIntegerToken, h]
      · simp [Numeral.isIntegerToken, h]

/-- The digits of a decimal are its digits. -/
theorem ofDigitChars_chars (d : Decimal) : Nat.ofDigitChars 10 d.chars 0 = d.digits :=
  Nat.ofDigitChars_ten_toDigits

/-- The integer of a plain token. -/
theorem integer_token (negative : Bool) {d : Decimal} (h : d.IsPlain) :
    (d.token negative).integer = if negative then -(d.plain : ℤ) else d.plain := by
  have hwhole : Nat.ofDigitChars 10
      (d.chars ++ List.replicate (d.point - d.places).toNat '0') 0 = d.plain := by
    rw [Nat.ofDigitChars_append, ofDigitChars_chars, Nat.ofDigitChars_replicate_zero, mul_comm]
    rfl
  unfold token
  rw [if_pos h]
  unfold Numeral.integer
  dsimp only
  rw [hwhole]

/-- A plain decimal is its integer. -/
theorem value_of_isPlain {d : Decimal} (h : d.IsPlain) : d.value = d.plain := by
  obtain ⟨hle, _⟩ := h
  have hexp : (d.point - d.places).toNat = d.point - d.places := by omega
  unfold value plain
  rw [← hexp, zpow_natCast]
  push_cast
  rfl

/-- **The token writes the decimal.** -/
theorem magnitude_token (negative : Bool) (d : Decimal) :
    (d.token negative).magnitude = d.value := by
  have hlen : d.chars.length = d.places := rfl
  have hpos := d.places_pos
  have hsplit : ∀ k, Nat.ofDigitChars 10 (d.chars.take k ++ d.chars.drop k) 0 = d.digits := by
    intro k
    rw [List.take_append_drop, ofDigitChars_chars]
  unfold token
  split
  · -- the point stands behind the digits: zeros fill the gap
    next h =>
    have hwhole : Nat.ofDigitChars 10
        (d.chars ++ List.replicate (d.point - d.places).toNat '0') 0 = d.plain := by
      rw [Nat.ofDigitChars_append, ofDigitChars_chars, Nat.ofDigitChars_replicate_zero, mul_comm]
      rfl
    rw [value_of_isPlain h]
    unfold Numeral.magnitude Numeral.exponentValue Numeral.fractionDigits
    dsimp only [Option.getD_none]
    rw [List.append_nil, hwhole]
    simp
  · split
    · -- the point stands among the digits
      next h _ =>
      unfold Numeral.magnitude Numeral.exponentValue Numeral.fractionDigits
      dsimp only [Option.getD_some]
      rw [hsplit, List.length_drop, hlen]
      unfold value
      congr 2
      unfold IsPlain at h
      omega
    · split
      · next h =>
        unfold Numeral.magnitude Numeral.exponentValue Numeral.fractionDigits
        dsimp only [Option.getD_some]
        have hzeros : Nat.ofDigitChars 10
            (['0'] ++ (List.replicate (-d.point).toNat '0' ++ d.chars)) 0 = d.digits := by
          have hzero : ['0'] = List.replicate 1 '0' := rfl
          rw [hzero, Nat.ofDigitChars_append, Nat.ofDigitChars_replicate_zero,
            Nat.ofDigitChars_append, Nat.ofDigitChars_replicate_zero, Nat.mul_zero,
            ofDigitChars_chars]
        rw [hzeros, List.length_append, List.length_replicate, hlen]
        unfold value
        congr 2
        push_cast
        omega
      · unfold Numeral.magnitude
        have hexponent : Numeral.exponentValue ⟨negative, d.chars.take 1,
            if d.places = 1 then none else some (d.chars.drop 1),
            some ⟨'e', some (if d.point - 1 < 0 then '-' else '+'),
              Nat.toDigits 10 (d.point - 1).natAbs⟩⟩ = d.point - 1 := by
          unfold Numeral.exponentValue
          dsimp only
          rw [Nat.ofDigitChars_ten_toDigits]
          by_cases hneg : d.point - 1 < 0
          · rw [if_pos hneg, if_pos rfl]
            omega
          · rw [if_neg hneg, if_neg (by decide)]
            omega
        have hfraction : Numeral.fractionDigits ⟨negative, d.chars.take 1,
            if d.places = 1 then none else some (d.chars.drop 1),
            some ⟨'e', some (if d.point - 1 < 0 then '-' else '+'),
              Nat.toDigits 10 (d.point - 1).natAbs⟩⟩ = d.chars.drop 1 := by
          unfold Numeral.fractionDigits
          dsimp only
          by_cases hone : d.places = 1
          · rw [if_pos hone]
            have : (d.chars.drop 1).length = 0 := by
              rw [List.length_drop]
              omega
            exact (List.length_eq_zero_iff.mp this).symm
          · rw [if_neg hone]
            rfl
        rw [hexponent, hfraction, hsplit, List.length_drop, hlen]
        unfold value
        congr 2
        omega

end Decimal

/-! ## Printing and reading back -/

namespace Binary64

/-- A value is its sign and magnitude. -/
theorem ofMagnitude_magnitude (x : Binary64) : ofMagnitude x.isNegative x.magnitude = x := by
  obtain ⟨bits⟩ := x
  unfold ofMagnitude isNegative magnitude
  dsimp only
  congr 1
  apply BitVec.eq_of_toNat_eq
  have hlt := bits.isLt
  rw [BitVec.toNat_ofNat, BitVec.msb_eq_decide]
  by_cases hsign : 2 ^ 63 ≤ bits.toNat
  · have hdec : decide (2 ^ (64 - 1) ≤ bits.toNat) = true := by simpa using hsign
    rw [hdec, if_pos rfl]
    omega
  · have hdec : decide (2 ^ (64 - 1) ≤ bits.toNat) = false := by simpa using hsign
    rw [hdec, if_neg (by decide)]
    omega

/-- What rounds to the magnitude of a finite value is nearest to the value. -/
theorem nearest_of_round {x : Binary64} (hx : x.isFinite = true) {q : ℚ}
    (h : format.round q = x.magnitude) : nearest x.isNegative q = x := by
  have hlt : x.magnitude < infinity := by simpa [isFinite] using hx
  unfold nearest
  rw [h, Nat.min_eq_left hlt.le, ofMagnitude_magnitude]

end Binary64

section Shortest

variable {shortest : Binary64 → Decimal}

/-- The digits of a value read back as the value. -/
theorem parseF64_token (hshort : ShortestDigits shortest) {x : Binary64}
    (hx : x.isFinite = true) (hne : x.magnitude ≠ 0) :
    ((shortest x).token x.isNegative).parseF64 = x := by
  unfold Numeral.parseF64
  rw [Decimal.negative_token, Decimal.magnitude_token]
  exact Binary64.nearest_of_round hx (hshort x hx hne).round

/-- **What is printed passes the number check** where plain digits write the integer part of the
value. -/
theorem checked_token_iff (hshort : ShortestDigits shortest) {x : Binary64}
    (hx : x.isFinite = true) (hne : x.magnitude ≠ 0) :
    ((shortest x).token x.isNegative).Checked ↔
      ((shortest x).IsPlain → ((shortest x).plain : ℤ) = ⌊Binary64.format.value x.magnitude⌋) := by
  have hback := parseF64_token hshort hx hne
  have hpos := (hshort x hx hne).pos
  unfold Numeral.Checked
  rw [Decimal.isIntegerToken_token]
  by_cases hplain : (shortest x).IsPlain
  · rw [if_pos (by simpa using hplain)]
    have hint := Decimal.integer_token x.isNegative hplain
    have hplus : 0 < (shortest x).plain := by
      unfold Decimal.plain
      positivity
    have hne' : ((shortest x).token x.isNegative).integer ≠ 0 := by
      rw [hint]
      split <;> omega
    have hof := Numeral.parseF64_of_isIntegerToken
      (by rw [Decimal.isIntegerToken_token]; simpa using hplain) hne'
    -- plain digits have at most 21 places, so the integer is far inside `i128`
    have hbound : (shortest x).plain < 10 ^ 21 := by
      obtain ⟨hle, hmax⟩ := hplain
      have hdigits := (shortest x).digits_lt
      unfold Decimal.plain
      calc (shortest x).digits * 10 ^ ((shortest x).point - (shortest x).places).toNat
          < 10 ^ (shortest x).places * 10 ^ ((shortest x).point - (shortest x).places).toNat :=
            Nat.mul_lt_mul_of_pos_right hdigits (by positivity)
        _ = 10 ^ ((shortest x).places
            + ((shortest x).point - (shortest x).places).toNat) := (pow_add _ _ _).symm
        _ ≤ 10 ^ 21 := Nat.pow_le_pow_right (by norm_num) (by omega)
    rw [← hof, hback]
    have htrunc : x.toI128 = ((shortest x).token x.isNegative).integer ↔
        x.truncate = ((shortest x).token x.isNegative).integer := by
      have hsmall : -(10 ^ 21 : ℤ) < ((shortest x).token x.isNegative).integer ∧
          ((shortest x).token x.isNegative).integer < 10 ^ 21 := by
        rw [hint]
        split <;> constructor <;> omega
      unfold Binary64.toI128 Binary64.saturate
      omega
    have hrange : -2 ^ 127 ≤ ((shortest x).token x.isNegative).integer ∧
        ((shortest x).token x.isNegative).integer < 2 ^ 127 := by
      rw [hint]
      split <;> constructor <;> omega
    have hiff : x.truncate = ((shortest x).token x.isNegative).integer ↔
        ((shortest x).plain : ℤ) = ⌊Binary64.format.value x.magnitude⌋ := by
      rw [hint]
      unfold Binary64.truncate
      split <;> omega
    rw [htrunc, hiff]
    constructor
    · intro h _
      exact h.2.2
    · intro h
      exact ⟨hrange, hx, h hplain⟩
  · rw [if_neg (by simpa using hplain), hback]
    constructor
    · intro _ h
      exact absurd h hplain
    · intro _
      exact hx

/-- **`Number::toString` prints numbers faithfully**: number tokens, one for each value, and zero
for no other. -/
theorem printsNumbers_numberToString (hshort : ShortestDigits shortest) :
    Jcs.PrintsNumbers (numberToString shortest) where
  token x hx hne := ⟨_, Decimal.wellFormed_token x.isNegative (hshort x hx hne).pos, rfl⟩
  injective x y hx hxne hy hyne h := by
    have hscan := JsonScan.scanToken_complete
      (Decimal.wellFormed_token x.isNegative (hshort x hx hxne).pos)
      (JsonScan.ends_of_ws_nil JsonText.Ws.nil)
    have hscan' := JsonScan.scanToken_complete
      (Decimal.wellFormed_token y.isNegative (hshort y hy hyne).pos)
      (JsonScan.ends_of_ws_nil JsonText.Ws.nil)
    rw [List.append_nil] at hscan hscan'
    have htext : ((shortest x).token x.isNegative).text = ((shortest y).token y.isNegative).text := h
    rw [htext, hscan'] at hscan
    have htoken : (shortest y).token y.isNegative = (shortest x).token x.isNegative := by
      simpa using hscan
    rw [← parseF64_token hshort hx hxne, ← htoken, parseF64_token hshort hy hyne]
  nonzero x hx hne h := by
    have hscan := JsonScan.scanToken_complete
      (Decimal.wellFormed_token x.isNegative (hshort x hx hne).pos)
      (JsonScan.ends_of_ws_nil JsonText.Ws.nil)
    rw [List.append_nil] at hscan
    have htext : ((shortest x).token x.isNegative).text = ['0'] := h
    rw [htext] at hscan
    have htoken : (⟨false, ['0'], none, none⟩ : Numeral) = (shortest x).token x.isNegative := by
      have hzero : JsonScan.scanToken ['0'] = .ok (⟨false, ['0'], none, none⟩, []) := rfl
      rw [hzero] at hscan
      simpa using hscan
    have hback := parseF64_token hshort hx hne
    rw [← htoken] at hback
    have hmagnitude : (⟨false, ['0'], none, none⟩ : Numeral).magnitude = 0 := by
      simp [Numeral.magnitude, Numeral.fractionDigits, Nat.ofDigitChars]
    apply hne
    rw [← hback]
    unfold Numeral.parseF64 Binary64.nearest
    rw [hmagnitude, Floating.Format.round_zero]
    rfl

end Shortest

/-! ## Shortest digits exist -/

/-- Every encoded number is a decimal. -/
theorem exists_decimal {n : ℕ} (h : 0 < n) :
    ∃ d : Decimal, 0 < d.digits ∧ d.value = Binary64.format.value n := by
  have hsig := Binary64.format.significand_pos h
  by_cases hexp : 0 ≤ Binary64.format.exponent n
  · -- an integer
    obtain ⟨e, he⟩ : ∃ e : ℕ, Binary64.format.exponent n = e := ⟨_, (Int.toNat_of_nonneg hexp).symm⟩
    refine ⟨⟨Binary64.format.significand n * 2 ^ e,
      (Nat.toDigits 10 (Binary64.format.significand n * 2 ^ e)).length⟩, by positivity, ?_⟩
    unfold Decimal.value Decimal.places Decimal.chars Floating.Format.value
    rw [he, zpow_natCast]
    simp
  · -- a fraction of a power of two is one of a power of ten
    obtain ⟨j, hj⟩ : ∃ j : ℕ, Binary64.format.exponent n = -j :=
      ⟨(-Binary64.format.exponent n).toNat, by omega⟩
    refine ⟨⟨Binary64.format.significand n * 5 ^ j,
      (Nat.toDigits 10 (Binary64.format.significand n * 5 ^ j)).length - j⟩, by positivity, ?_⟩
    unfold Decimal.value Decimal.places Decimal.chars Floating.Format.value
    have hplace : ((Nat.toDigits 10 (Binary64.format.significand n * 5 ^ j)).length - j : ℤ)
        - (Nat.toDigits 10 (Binary64.format.significand n * 5 ^ j)).length = -j := by omega
    rw [hj, hplace, zpow_neg, zpow_neg, zpow_natCast, zpow_natCast]
    push_cast
    rw [show (10 : ℚ) = 5 * 2 by norm_num, mul_pow, mul_inv]
    field_simp

/-- Every magnitude has shortest digits. -/
theorem exists_isShortest {n : ℕ} (h : 0 < n) : ∃ d, IsShortest n d := by
  classical
  have hexists : ∃ k, ∃ d : Decimal, 0 < d.digits ∧ Binary64.format.round d.value = n ∧
      d.places = k := by
    obtain ⟨d, hd, hvalue⟩ := exists_decimal h
    exact ⟨d.places, d, hd, by rw [hvalue, Floating.Format.round_value], rfl⟩
  obtain ⟨d, hd, hround, hplaces⟩ := Nat.find_spec hexists
  refine ⟨d, hd, hround, ?_⟩
  intro e he hround'
  rw [hplaces]
  exact Nat.find_min' hexists ⟨e, he, hround', rfl⟩

/-- Shortest digits of every value. -/
noncomputable def someShortest (x : Binary64) : Decimal :=
  open Classical in
  if h : ∃ d, IsShortest x.magnitude d then h.choose else ⟨1, 1⟩

/-- They are shortest. -/
theorem shortestDigits_someShortest : ShortestDigits someShortest := by
  intro x _ hne
  have h : ∃ d, IsShortest x.magnitude d := exists_isShortest (Nat.pos_of_ne_zero hne)
  unfold someShortest
  rw [dif_pos h]
  exact h.choose_spec

end Waitprims
