import Mathlib

/-! # Binary floating-point formats

The non-negative numbers of a binary format with `precision` fraction bits and a least exponent,
indexed by their encoding: the fraction bits below the exponent field. The encoding `n` is a natural
number and the format is unbounded above; a format that ends takes the encodings below a limit.

* **`Format.value n`** — the rational number that `n` encodes.
* **`Format.round q`** — the encoding nearest to `q`, ties to an even significand.
* **`Format.round_value`** — an encoded number rounds to itself, so **`Format.value_injective`**.
* **`Format.round_error`** — rounding moves a number by at most half a last place.
* **`Format.value_round_natCast`** — an integer rounds to an integer. -/

namespace Floating

/-- Round a non-negative rational to the nearest natural number, ties to even. -/
def roundHalfEven (q : ℚ) : ℕ :=
  let n := ⌊q⌋₊
  let d := q - n
  if d < 1 / 2 ∨ d = 1 / 2 ∧ n % 2 = 0 then n else n + 1

/-- A natural number rounds to itself. -/
theorem roundHalfEven_natCast (n : ℕ) : roundHalfEven (n : ℚ) = n := by
  unfold roundHalfEven
  simp

/-- Rounding is between the two neighbours. -/
theorem floor_le_roundHalfEven (q : ℚ) : ⌊q⌋₊ ≤ roundHalfEven q ∧ roundHalfEven q ≤ ⌊q⌋₊ + 1 := by
  unfold roundHalfEven
  dsimp only
  split <;> omega

/-- Rounding moves a number by at most a half. -/
theorem abs_roundHalfEven_sub_le {q : ℚ} (hq : 0 ≤ q) : |(roundHalfEven q : ℚ) - q| ≤ 1 / 2 := by
  have hle := Nat.floor_le hq
  have hlt := Nat.lt_floor_add_one q
  unfold roundHalfEven
  dsimp only
  split
  · next h =>
    rw [abs_le]
    rcases h with h | ⟨h, _⟩
    · constructor <;> linarith
    · constructor <;> linarith
  · next h =>
    have hhalf : 1 / 2 ≤ q - ⌊q⌋₊ := not_lt.mp fun hlt' => h (Or.inl hlt')
    rw [abs_le]
    push_cast
    constructor <;> linarith

/-- A binary format: how many fraction bits, and the exponent of the least place. -/
structure Format where
  precision : ℕ
  leastExponent : ℤ

namespace Format

variable (f : Format)

/-- The significand of an encoding; the leading bit of a normal number is implicit. -/
def significand (n : ℕ) : ℕ :=
  if n < 2 ^ f.precision then n else 2 ^ f.precision + n % 2 ^ f.precision

/-- The exponent of an encoding's last place. -/
def exponent (n : ℕ) : ℤ :=
  if n < 2 ^ f.precision then f.leastExponent
  else f.leastExponent + (n / 2 ^ f.precision - 1 : ℕ)

/-- The number an encoding stands for. -/
def value (n : ℕ) : ℚ := f.significand n * 2 ^ f.exponent n

/-- The exponent of the last place that a number is rounded to. -/
def lastPlace (q : ℚ) : ℤ := max f.leastExponent (Int.log 2 q - f.precision)

/-- The encoding nearest to a non-negative number, ties to even. -/
def round (q : ℚ) : ℕ :=
  if q = 0 then 0
  else
    let e := f.lastPlace q
    (e - f.leastExponent).toNat * 2 ^ f.precision + roundHalfEven (q * 2 ^ (-e))

/-- Zero encodes zero. -/
@[simp] theorem value_zero : f.value 0 = 0 := by
  simp [value, significand]

/-- Zero rounds to zero. -/
@[simp] theorem round_zero : f.round 0 = 0 := if_pos rfl

/-- A positive encoding has a positive significand. -/
theorem significand_pos {n : ℕ} (h : 0 < n) : 0 < f.significand n := by
  unfold significand
  split
  · exact h
  · positivity

/-- A positive encoding is of a positive number. -/
theorem value_pos {n : ℕ} (h : 0 < n) : 0 < f.value n := by
  have hs : (0 : ℚ) < f.significand n := by exact_mod_cast f.significand_pos h
  unfold value
  positivity

/-- Encoded numbers are not negative. -/
theorem value_nonneg (n : ℕ) : 0 ≤ f.value n := by
  unfold value
  positivity

/-- The significand is below the next binade. -/
theorem significand_lt (n : ℕ) : f.significand n < 2 ^ (f.precision + 1) := by
  unfold significand
  have hmod : n % 2 ^ f.precision < 2 ^ f.precision := Nat.mod_lt _ (by positivity)
  rw [pow_succ]
  split <;> omega

/-- The last place of an encoded number is where its significand ends. -/
theorem lastPlace_value {n : ℕ} (h : 0 < n) : f.lastPlace (f.value n) = f.exponent n := by
  have hpos := f.value_pos h
  -- the significand has at most one bit beyond the precision
  have hlt : f.value n < (2 : ℚ) ^ (f.exponent n + (f.precision + 1)) := by
    unfold value
    rw [zpow_add₀ (by norm_num), mul_comm]
    have hs : (f.significand n : ℚ) < 2 ^ (f.precision + 1) := by
      exact_mod_cast f.significand_lt n
    have he : (0 : ℚ) < 2 ^ f.exponent n := by positivity
    have hcast : ((2 : ℚ) ^ ((f.precision : ℤ) + 1)) = 2 ^ (f.precision + 1) := by
      exact_mod_cast zpow_natCast (2 : ℚ) (f.precision + 1)
    rw [hcast]
    exact mul_lt_mul_of_pos_left hs he
  have hupper : Int.log 2 (f.value n) < f.exponent n + (f.precision + 1) := by
    rw [← Int.lt_zpow_iff_log_lt (by norm_num) hpos]
    exact_mod_cast hlt
  unfold lastPlace
  by_cases hsub : n < 2 ^ f.precision
  · -- a subnormal ends at the least place, whatever its size
    have hexp : f.exponent n = f.leastExponent := if_pos hsub
    have hlt' : f.value n < (2 : ℚ) ^ (f.exponent n + f.precision) := by
      unfold value
      rw [zpow_add₀ (by norm_num), mul_comm]
      have hs : (f.significand n : ℚ) < 2 ^ f.precision := by
        have : f.significand n = n := if_pos hsub
        rw [this]
        exact_mod_cast hsub
      have he : (0 : ℚ) < 2 ^ f.exponent n := by positivity
      rw [zpow_natCast]
      exact mul_lt_mul_of_pos_left hs he
    have hlog : Int.log 2 (f.value n) < f.exponent n + f.precision := by
      rw [← Int.lt_zpow_iff_log_lt (by norm_num) hpos]
      exact_mod_cast hlt'
    omega
  · -- a normal number fills its binade
    have hle : (2 : ℚ) ^ (f.exponent n + f.precision) ≤ f.value n := by
      unfold value
      rw [zpow_add₀ (by norm_num), mul_comm]
      have hs : (2 : ℚ) ^ f.precision ≤ f.significand n := by
        have : f.significand n = 2 ^ f.precision + n % 2 ^ f.precision := if_neg hsub
        rw [this]
        push_cast
        have : (0 : ℚ) ≤ ((n % 2 ^ f.precision : ℕ) : ℚ) := by positivity
        linarith
      have he : (0 : ℚ) < 2 ^ f.exponent n := by positivity
      rw [zpow_natCast]
      exact mul_le_mul_of_nonneg_right hs he.le
    have hlog : f.exponent n + f.precision ≤ Int.log 2 (f.value n) := by
      rw [← Int.zpow_le_iff_le_log (by norm_num) hpos]
      exact_mod_cast hle
    have hleast : f.leastExponent ≤ f.exponent n := by
      have : f.exponent n = f.leastExponent + (n / 2 ^ f.precision - 1 : ℕ) := if_neg hsub
      omega
    omega

/-- An encoding is its exponent field and its significand. -/
theorem encoding_eq (n : ℕ) :
    (f.exponent n - f.leastExponent).toNat * 2 ^ f.precision + f.significand n = n := by
  unfold exponent significand
  by_cases hsub : n < 2 ^ f.precision
  · rw [if_pos hsub, if_pos hsub]
    simp
  · rw [if_neg hsub, if_neg hsub]
    have hpos : 0 < 2 ^ f.precision := by positivity
    have hdiv : 1 ≤ n / 2 ^ f.precision := (Nat.one_le_div_iff hpos).mpr (by omega)
    have hfield : (f.leastExponent + ((n / 2 ^ f.precision - 1 : ℕ) : ℤ)
        - f.leastExponent).toNat = n / 2 ^ f.precision - 1 := by omega
    rw [hfield]
    have hn := Nat.div_add_mod n (2 ^ f.precision)
    calc (n / 2 ^ f.precision - 1) * 2 ^ f.precision + (2 ^ f.precision + n % 2 ^ f.precision)
        = ((n / 2 ^ f.precision - 1) + 1) * 2 ^ f.precision + n % 2 ^ f.precision := by ring
      _ = 2 ^ f.precision * (n / 2 ^ f.precision) + n % 2 ^ f.precision := by
        rw [Nat.sub_add_cancel hdiv, mul_comm]
      _ = n := hn

/-- **An encoded number rounds to its own encoding.** -/
theorem round_value (n : ℕ) : f.round (f.value n) = n := by
  rcases Nat.eq_zero_or_pos n with rfl | h
  · rw [value_zero, round_zero]
  · have hne : f.value n ≠ 0 := (f.value_pos h).ne'
    unfold round
    rw [if_neg hne, f.lastPlace_value h]
    have hscaled : f.value n * 2 ^ (-f.exponent n) = (f.significand n : ℚ) := by
      unfold value
      rw [mul_assoc, ← zpow_add₀ (by norm_num)]
      simp
    show (f.exponent n - f.leastExponent).toNat * 2 ^ f.precision
      + roundHalfEven (f.value n * 2 ^ (-f.exponent n)) = n
    rw [hscaled, roundHalfEven_natCast]
    exact f.encoding_eq n

/-- Two encodings of one number are the same. -/
theorem value_injective {m n : ℕ} (h : f.value m = f.value n) : m = n := by
  rw [← f.round_value m, h, f.round_value]

/-! ## The rounding error -/

/-- The number encoded by a place and a significand that fills it. -/
theorem value_encode {e : ℤ} (he : f.leastExponent ≤ e) {n : ℕ} (hn : n ≤ 2 ^ (f.precision + 1))
    (hfull : 2 ^ f.precision ≤ n ∨ e = f.leastExponent) :
    f.value ((e - f.leastExponent).toNat * 2 ^ f.precision + n) = n * 2 ^ e := by
  obtain ⟨j, rfl⟩ : ∃ j : ℕ, e = f.leastExponent + j :=
    ⟨(e - f.leastExponent).toNat, by omega⟩
  have hj : (f.leastExponent + (j : ℤ) - f.leastExponent).toNat = j := by omega
  have hpos : 0 < 2 ^ f.precision := by positivity
  have hdouble : 2 ^ (f.precision + 1) = 2 * 2 ^ f.precision := by ring
  rw [hj]
  by_cases hsub : n < 2 ^ f.precision
  · -- a subnormal stands at the least place
    have hzero : j = 0 := by
      rcases hfull with h | h
      · omega
      · omega
    subst hzero
    have hsig : f.significand (0 * 2 ^ f.precision + n) = n := by
      rw [Nat.zero_mul, Nat.zero_add]
      exact if_pos hsub
    have hexp : f.exponent (0 * 2 ^ f.precision + n) = f.leastExponent := by
      rw [Nat.zero_mul, Nat.zero_add]
      exact if_pos hsub
    unfold value
    rw [hsig, hexp, Nat.cast_zero, add_zero]
  · have hlarge : ¬ j * 2 ^ f.precision + n < 2 ^ f.precision := by omega
    unfold value significand exponent
    rw [if_neg hlarge, if_neg hlarge]
    by_cases htop : n = 2 ^ (f.precision + 1)
    · -- the significand carries into the next binade
      have hsum : j * 2 ^ f.precision + n = 2 ^ f.precision * (j + 2) := by
        rw [htop, hdouble]
        ring
      rw [hsum, Nat.mul_mod_right, Nat.mul_div_cancel_left _ hpos, htop]
      have hplace : (j + 2 - 1 : ℕ) = j + 1 := by omega
      rw [hplace]
      push_cast
      rw [add_zero, ← add_assoc, zpow_add_one₀ (by norm_num)]
      ring
    · have hlt : n - 2 ^ f.precision < 2 ^ f.precision := by omega
      have hsum : j * 2 ^ f.precision + n
          = (n - 2 ^ f.precision) + 2 ^ f.precision * (j + 1) := by
        have : n = (n - 2 ^ f.precision) + 2 ^ f.precision := by omega
        calc j * 2 ^ f.precision + n
            = j * 2 ^ f.precision + ((n - 2 ^ f.precision) + 2 ^ f.precision) := by rw [← this]
          _ = (n - 2 ^ f.precision) + 2 ^ f.precision * (j + 1) := by ring
      rw [hsum, Nat.add_mul_mod_self_left, Nat.mod_eq_of_lt hlt, Nat.add_mul_div_left _ _ hpos,
        Nat.div_eq_of_lt hlt]
      have hplace : (0 + (j + 1) - 1 : ℕ) = j := by omega
      have hback : 2 ^ f.precision + (n - 2 ^ f.precision) = n := by omega
      rw [hplace, hback]

/-- A scaled number fits the significand, and fills it above the least place. -/
theorem scaled_bounds {q : ℚ} (hq : 0 < q) :
    q * 2 ^ (-f.lastPlace q) < 2 ^ (f.precision + 1) ∧
      (f.lastPlace q = f.leastExponent ∨ 2 ^ f.precision ≤ q * 2 ^ (-f.lastPlace q)) := by
  have hlog := Int.zpow_log_le_self (b := 2) (by norm_num) hq
  have hlog' := Int.lt_zpow_succ_log_self (b := 2) (by norm_num) q
  push_cast at hlog hlog'
  have hscale : (0 : ℚ) < 2 ^ (-f.lastPlace q) := by positivity
  constructor
  · calc q * 2 ^ (-f.lastPlace q) < 2 ^ (Int.log 2 q + 1) * 2 ^ (-f.lastPlace q) :=
          mul_lt_mul_of_pos_right hlog' hscale
      _ = 2 ^ (Int.log 2 q + 1 - f.lastPlace q) := by
        rw [← zpow_add₀ (by norm_num)]
        ring_nf
      _ ≤ 2 ^ ((f.precision : ℤ) + 1) := by
        apply zpow_le_zpow_right₀ (by norm_num)
        unfold lastPlace
        omega
      _ = 2 ^ (f.precision + 1) := by exact_mod_cast zpow_natCast (2 : ℚ) (f.precision + 1)
  · by_cases hleast : f.lastPlace q = f.leastExponent
    · exact Or.inl hleast
    · right
      have hplace : f.lastPlace q = Int.log 2 q - f.precision := by
        unfold lastPlace at hleast ⊢
        omega
      calc (2 : ℚ) ^ f.precision = 2 ^ Int.log 2 q * 2 ^ (-f.lastPlace q) := by
            rw [← zpow_add₀ (by norm_num), hplace, ← zpow_natCast]
            ring_nf
        _ ≤ q * 2 ^ (-f.lastPlace q) := mul_le_mul_of_nonneg_right hlog hscale.le

/-- The number that a positive number rounds to. -/
theorem value_round {q : ℚ} (hq : 0 < q) :
    f.value (f.round q) = roundHalfEven (q * 2 ^ (-f.lastPlace q)) * 2 ^ f.lastPlace q := by
  obtain ⟨hupper, hlower⟩ := f.scaled_bounds hq
  obtain ⟨hfloor, hceil⟩ := floor_le_roundHalfEven (q * 2 ^ (-f.lastPlace q))
  have hscaled : 0 ≤ q * 2 ^ (-f.lastPlace q) := by positivity
  have hround : f.round q = (f.lastPlace q - f.leastExponent).toNat * 2 ^ f.precision
      + roundHalfEven (q * 2 ^ (-f.lastPlace q)) := if_neg hq.ne'
  rw [hround]
  apply f.value_encode
  · unfold lastPlace
    omega
  · have hlt : ⌊q * 2 ^ (-f.lastPlace q)⌋₊ < 2 ^ (f.precision + 1) := by
      rw [Nat.floor_lt hscaled]
      exact_mod_cast hupper
    omega
  · rcases hlower with h | h
    · exact Or.inr h
    · left
      apply le_trans _ hfloor
      rw [Nat.le_floor_iff hscaled]
      exact_mod_cast h

/-- **Rounding moves a number by at most half a last place.** -/
theorem round_error {q : ℚ} (hq : 0 < q) :
    |f.value (f.round q) - q| ≤ 2 ^ f.lastPlace q / 2 := by
  have hscaled : 0 ≤ q * 2 ^ (-f.lastPlace q) := by positivity
  have hhalf := abs_roundHalfEven_sub_le hscaled
  have hplace : (0 : ℚ) < 2 ^ f.lastPlace q := by positivity
  have hq' : q = q * 2 ^ (-f.lastPlace q) * 2 ^ f.lastPlace q := by
    rw [mul_assoc, ← zpow_add₀ (by norm_num)]
    simp
  rw [f.value_round hq]
  calc |(roundHalfEven (q * 2 ^ (-f.lastPlace q)) : ℚ) * 2 ^ f.lastPlace q - q|
      = |((roundHalfEven (q * 2 ^ (-f.lastPlace q)) : ℚ) - q * 2 ^ (-f.lastPlace q))
          * 2 ^ f.lastPlace q| := by
        rw [sub_mul, ← hq']
    _ = |(roundHalfEven (q * 2 ^ (-f.lastPlace q)) : ℚ) - q * 2 ^ (-f.lastPlace q)|
          * 2 ^ f.lastPlace q := by rw [abs_mul, abs_of_pos hplace]
    _ ≤ 1 / 2 * 2 ^ f.lastPlace q := mul_le_mul_of_nonneg_right hhalf hplace.le
    _ = 2 ^ f.lastPlace q / 2 := by ring

/-- An integer rounds to an integer: below a last place of one it is exact. -/
theorem value_round_natCast (n : ℕ) : ∃ k : ℕ, f.value (f.round n) = k := by
  rcases Nat.eq_zero_or_pos n with rfl | hpos
  · exact ⟨0, by rw [Nat.cast_zero, round_zero, value_zero]⟩
  have hq : (0 : ℚ) < n := by exact_mod_cast hpos
  rw [f.value_round hq]
  rcases le_total 0 (f.lastPlace n) with hplace | hplace
  · obtain ⟨j, hj⟩ : ∃ j : ℕ, f.lastPlace n = j := ⟨(f.lastPlace n).toNat, by omega⟩
    refine ⟨roundHalfEven (n * 2 ^ (-f.lastPlace n)) * 2 ^ j, ?_⟩
    rw [hj, zpow_natCast]
    push_cast
    rfl
  · -- the scaled number is an integer, and stays
    obtain ⟨j, hj⟩ : ∃ j : ℕ, f.lastPlace n = -j := ⟨(-f.lastPlace n).toNat, by omega⟩
    have hscaled : (n : ℚ) * 2 ^ (-f.lastPlace n) = ((n * 2 ^ j : ℕ) : ℚ) := by
      rw [hj, neg_neg, zpow_natCast]
      push_cast
      rfl
    refine ⟨n, ?_⟩
    rw [hscaled, roundHalfEven_natCast, hj, zpow_neg, zpow_natCast]
    push_cast
    rw [mul_assoc, mul_inv_cancel₀ (by positivity), mul_one]

/-- A last place is small beside the number. -/
theorem zpow_lastPlace_le {q : ℚ} (hq : 0 < q) :
    (2 : ℚ) ^ f.lastPlace q ≤ max (2 ^ f.leastExponent) (q / 2 ^ f.precision) := by
  have hlog := Int.zpow_log_le_self (b := 2) (by norm_num) hq
  push_cast at hlog
  rcases le_total (Int.log 2 q - f.precision) f.leastExponent with h | h
  · have hplace : f.lastPlace q = f.leastExponent := max_eq_left h
    rw [hplace]
    exact le_max_left _ _
  · have hplace : f.lastPlace q = Int.log 2 q - f.precision := max_eq_right h
    apply le_trans _ (le_max_right _ _)
    rw [hplace, zpow_sub₀ (by norm_num), zpow_natCast]
    exact div_le_div_of_nonneg_right hlog (by positivity)

end Format

end Floating
