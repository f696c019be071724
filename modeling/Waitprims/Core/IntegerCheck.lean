import Mathlib
import Waitprims.Core.CanonicalForm

/-! # The integer check

An integer token is accepted where it fits `i128` and comes back from binary64 as itself. The cast
back saturates, so the greatest `i128` comes back from the power of two it rounds to; and what does
not fit is refused even where binary64 represents it. Everywhere else the check is exact.

* **`IsBinary64`** — an integer that a finite binary64 value is.
* **`Binary64.ofInt_of_isBinary64`** — such an integer is converted to that value.
* **`Numeral.checked_iff`** — what the check accepts.
* **`Jcs.integerExact_iff`** — the tokens on which the parser is exact. -/

namespace Waitprims

/-- An integer that is exactly a finite binary64 value. -/
def IsBinary64 (i : ℤ) : Prop := ∃ x : Binary64, x.isFinite = true ∧ x.value = i

namespace Binary64

/-! ## A sign and a magnitude -/

/-- The magnitude of a value that is put together. -/
theorem magnitude_ofMagnitude (negative : Bool) {n : ℕ} (h : n < 2 ^ 63) :
    (ofMagnitude negative n).magnitude = n := by
  unfold ofMagnitude magnitude
  dsimp only
  rw [BitVec.toNat_ofNat]
  split <;> omega

/-- Its sign. -/
theorem isNegative_ofMagnitude (negative : Bool) {n : ℕ} (h : n < 2 ^ 63) :
    (ofMagnitude negative n).isNegative = negative := by
  unfold ofMagnitude isNegative
  dsimp only
  rw [BitVec.msb_eq_decide, BitVec.toNat_ofNat]
  cases negative with
  | true => simp; omega
  | false => simp; omega

/-- The magnitude of a value is the absolute value of its number. -/
theorem value_magnitude {x : Binary64} {i : ℤ} (h : x.value = i) :
    format.value x.magnitude = i.natAbs := by
  have hnonneg := format.value_nonneg x.magnitude
  have habs : ((i.natAbs : ℕ) : ℚ) = |(i : ℚ)| := by
    rw [← Int.cast_abs, Int.abs_eq_natAbs, Int.cast_natCast]
  rw [habs, ← h]
  unfold value
  split
  · rw [abs_neg, abs_of_nonneg hnonneg]
  · rw [abs_of_nonneg hnonneg]

/-! ## Integers -/

/-- A finite conversion rounds the absolute value. -/
theorem magnitude_ofInt {i : ℤ} (h : (ofInt i).isFinite = true) :
    (ofInt i).magnitude = format.round (i.natAbs : ℚ) := by
  have hinfinity : infinity < 2 ^ 63 := by norm_num [infinity]
  have hmagnitude : (ofInt i).magnitude = min (format.round (i.natAbs : ℚ)) infinity :=
    magnitude_ofMagnitude _ ((Nat.min_le_right _ _).trans_lt hinfinity)
  have hlt : (ofInt i).magnitude < infinity := by simpa [isFinite] using h
  omega

/-- The sign of a conversion. -/
theorem isNegative_ofInt (i : ℤ) : (ofInt i).isNegative = decide (i < 0) := by
  have hinfinity : infinity < 2 ^ 63 := by norm_num [infinity]
  exact isNegative_ofMagnitude _ ((Nat.min_le_right _ _).trans_lt hinfinity)

/-- **An integer that binary64 represents** is converted to that value. -/
theorem ofInt_of_isBinary64 {i : ℤ} (h : IsBinary64 i) :
    (ofInt i).isFinite = true ∧ (ofInt i).value = i := by
  obtain ⟨x, hfinite, hvalue⟩ := h
  have hmagnitude := value_magnitude hvalue
  have hlt : x.magnitude < infinity := by simpa [isFinite] using hfinite
  have hround : format.round (i.natAbs : ℚ) = x.magnitude := by
    rw [← hmagnitude, format.round_value]
  have hinfinity : infinity < 2 ^ 63 := by norm_num [infinity]
  have heq : (ofInt i).magnitude = x.magnitude := by
    unfold ofInt nearest
    rw [hround, Nat.min_eq_left hlt.le, magnitude_ofMagnitude _ (hlt.trans hinfinity)]
  constructor
  · unfold isFinite
    rw [heq]
    simpa using hlt
  · unfold value
    rw [isNegative_ofInt, heq, hmagnitude]
    rcases lt_or_ge i 0 with hneg | hpos
    · rw [if_pos (by simpa using hneg), ← Int.cast_natCast, ← Int.cast_neg]
      congr 1
      omega
    · rw [if_neg (by simpa using hpos), ← Int.cast_natCast]
      congr 1
      omega

/-- A value that is an integer is cut to it. -/
theorem truncate_of_value {x : Binary64} {i : ℤ} (h : x.value = i) : x.truncate = i := by
  unfold value at h
  unfold truncate
  split at h
  · next hneg =>
    have hvalue : format.value x.magnitude = ((-i : ℤ) : ℚ) := by
      rw [Int.cast_neg, ← h, neg_neg]
    rw [if_pos hneg, hvalue, Int.floor_intCast, neg_neg]
  · next hpos => rw [if_neg hpos, h, Int.floor_intCast]

/-- A conversion that is cut to its integer is exact, as an integer is never rounded to a
fraction. -/
theorem value_of_truncate {i : ℤ} (hfinite : (ofInt i).isFinite = true)
    (h : (ofInt i).truncate = i) : (ofInt i).value = i := by
  obtain ⟨k, hk⟩ := format.value_round_natCast i.natAbs
  rw [← magnitude_ofInt hfinite] at hk
  unfold truncate at h
  unfold value
  rw [hk, Int.floor_natCast] at h
  rw [hk]
  split at h
  · next hneg => rw [if_pos hneg, ← h]; push_cast; rfl
  · next hpos => rw [if_neg hpos, ← h]; push_cast; rfl

/-! ## The ends of `i128` -/

/-- The encoding of `2 ^ 127`. -/
def power : ℕ := 1150 * 2 ^ 52

/-- It is of `2 ^ 127`. -/
theorem value_power : format.value power = 2 ^ 127 := by
  unfold Floating.Format.value Floating.Format.significand Floating.Format.exponent
  norm_num [power, format]

/-- The least `i128` is a binary64 value. -/
theorem isBinary64_least : IsBinary64 (-2 ^ 127) := by
  have hlt : power < 2 ^ 63 := by norm_num [power]
  refine ⟨ofMagnitude true power, ?_, ?_⟩
  · unfold isFinite
    rw [magnitude_ofMagnitude _ hlt]
    norm_num [power, infinity]
  · unfold value
    rw [isNegative_ofMagnitude _ hlt, if_pos rfl, magnitude_ofMagnitude _ hlt, value_power]
    norm_num

/-- The greatest `i128` rounds to the power of two above it. -/
theorem round_greatest : format.round ((2 ^ 127 - 1 : ℕ) : ℚ) = power := by
  have hlog : Int.log 2 ((2 ^ 127 - 1 : ℕ) : ℚ) = 126 := by
    apply le_antisymm
    · have h : Int.log 2 ((2 ^ 127 - 1 : ℕ) : ℚ) < 127 := by
        rw [← Int.lt_zpow_iff_log_lt (by norm_num) (by norm_num)]
        norm_num
      omega
    · rw [← Int.zpow_le_iff_le_log (by norm_num) (by norm_num)]
      norm_num
  have hplace : format.lastPlace ((2 ^ 127 - 1 : ℕ) : ℚ) = 74 := by
    unfold Floating.Format.lastPlace
    rw [hlog]
    rfl
  have hfloor : ⌊((2 ^ 127 - 1 : ℕ) * 2 ^ (-74 : ℤ) : ℚ)⌋₊ = 2 ^ 53 - 1 := by
    rw [Nat.floor_eq_iff (by norm_num)]
    norm_num
  unfold Floating.Format.round
  rw [if_neg (by norm_num), hplace]
  unfold Floating.roundHalfEven
  dsimp only
  rw [hfloor, if_neg (by norm_num)]
  rfl

/-- The value of the greatest `i128` is the power of two above it. -/
theorem ofInt_greatest : (ofInt (2 ^ 127 - 1)).isFinite = true ∧
    (ofInt (2 ^ 127 - 1)).value = 2 ^ 127 := by
  have hlt : power < 2 ^ 63 := by norm_num [power]
  have hle : power ≤ infinity := by norm_num [power, infinity]
  have heq : ofInt (2 ^ 127 - 1) = ofMagnitude false power := by
    have habs : (2 ^ 127 - 1 : ℤ).natAbs = 2 ^ 127 - 1 := by norm_num
    unfold ofInt nearest
    rw [habs, round_greatest, Nat.min_eq_left hle]
    norm_num
  rw [heq]
  constructor
  · unfold isFinite
    rw [magnitude_ofMagnitude _ hlt]
    norm_num [power, infinity]
  · unfold value
    rw [isNegative_ofMagnitude _ hlt, if_neg (by decide), magnitude_ofMagnitude _ hlt, value_power]

/-- The greatest `i128` is no binary64 value. -/
theorem not_isBinary64_greatest : ¬ IsBinary64 (2 ^ 127 - 1) := by
  intro h
  have hvalue := (ofInt_of_isBinary64 h).2
  rw [ofInt_greatest.2] at hvalue
  norm_num at hvalue

/-- **What comes back as itself** within `i128`: the integers that binary64 represents, and the
greatest one. -/
theorem toI128_ofInt_iff {i : ℤ} (hrange : -2 ^ 127 ≤ i ∧ i < 2 ^ 127) :
    ((ofInt i).isFinite = true ∧ (ofInt i).toI128 = i) ↔ IsBinary64 i ∨ i = 2 ^ 127 - 1 := by
  unfold toI128 saturate
  constructor
  · rintro ⟨hfinite, hback⟩
    rcases eq_or_ne i (2 ^ 127 - 1) with hgreatest | hgreatest
    · exact Or.inr hgreatest
    rcases eq_or_ne i (-2 ^ 127) with rfl | hleast
    · exact Or.inl isBinary64_least
    have hexact : (ofInt i).truncate = i := by omega
    exact Or.inl ⟨_, hfinite, value_of_truncate hfinite hexact⟩
  · rintro (h | rfl)
    · obtain ⟨hfinite, hvalue⟩ := ofInt_of_isBinary64 h
      rw [truncate_of_value hvalue]
      exact ⟨hfinite, by omega⟩
    · obtain ⟨hfinite, hvalue⟩ := ofInt_greatest
      have hcut : (ofInt (2 ^ 127 - 1)).truncate = 2 ^ 127 :=
        truncate_of_value (by rw [hvalue]; norm_num)
      rw [hcut]
      exact ⟨hfinite, by norm_num⟩

end Binary64

/-! ## Integer tokens -/

/-- What the check accepts: the integers of `i128` that binary64 represents, and the greatest. -/
theorem Numeral.checked_iff {token : Numeral} (h : token.isIntegerToken = true) :
    token.Checked ↔ (IsBinary64 token.integer ∧ -2 ^ 127 ≤ token.integer ∧
      token.integer < 2 ^ 127) ∨ token.integer = 2 ^ 127 - 1 := by
  unfold Checked
  rw [if_pos h]
  constructor
  · rintro ⟨hrange, hback⟩
    rcases (Binary64.toI128_ofInt_iff hrange).mp hback with hexact | hgreatest
    · exact Or.inl ⟨hexact, hrange⟩
    · exact Or.inr hgreatest
  · rintro (⟨hexact, hrange⟩ | hgreatest)
    · exact ⟨hrange, (Binary64.toI128_ofInt_iff hrange).mpr (Or.inl hexact)⟩
    · have hrange : -2 ^ 127 ≤ token.integer ∧ token.integer < 2 ^ 127 := by omega
      exact ⟨hrange, (Binary64.toI128_ofInt_iff hrange).mpr (Or.inr hgreatest)⟩

/-- The number of an integer token that binary64 represents has its value. -/
theorem Numeral.value_number {token : Numeral} (h : token.isIntegerToken = true)
    (hexact : IsBinary64 token.integer) : token.number.toF64.value = token.integer := by
  have hvalue := (Binary64.ofInt_of_isBinary64 hexact).2
  unfold number
  split
  · exact hvalue
  · next hlarge =>
    have hne : token.integer ≠ 0 := by
      intro hzero
      exact hlarge ⟨h, by rw [hzero]; norm_num⟩
    show token.parseF64.value = token.integer
    rw [parseF64_of_isIntegerToken h hne, hvalue]

namespace Jcs

open JsonText (Ws Value Text)

/-- A number token starts with no whitespace. -/
theorem noWs_token {token : Numeral} (hform : token.WellFormed) : JsonScan.NoWs token.text := by
  obtain ⟨c, cs, heq, hc⟩ := JsonScan.head_of_token hform []
  rw [List.append_nil] at heq
  have hnows : isWsChar c = false := by
    rcases hc with rfl | hdigit
    · decide
    · have key : ∀ a : Char, isDigitChar a = false → c ≠ a := by
        rintro a ha rfl
        rw [ha] at hdigit
        cases hdigit
      simp [isWsChar, key ' ' (by decide), key '\t' (by decide), key '\n' (by decide),
        key '\r' (by decide)]
  exact noWs_of_head (by rw [heq]; rfl) hnows

/-- A token is parsed where it passes the check, to its number. -/
theorem parseStrict_token {token : Numeral} (hform : token.WellFormed) (v : Json) :
    parseStrict (String.ofList token.text) = .ok v ↔ token.Checked ∧ v = .num token.number := by
  have hderived : token.Checked →
      parseStrict (String.ofList token.text) = .ok (.num token.number) := by
    intro hcheck
    have hvalue : Value (token.text ++ []) (.num token.number) [] := .num hform hcheck
    rw [List.append_nil] at hvalue
    rw [parseStrict_ok_iff, String.toList_ofList]
    exact ⟨_, _, Ws.nil, hvalue, Ws.nil⟩
  constructor
  · intro h
    obtain ⟨cs₁, cs₂, hws, hvalue, hend⟩ := (parseStrict_ok_iff _ v).mp h
    rw [String.toList_ofList] at hws
    rw [eq_of_ws hws (noWs_token hform), ← List.append_nil token.text] at hvalue
    have hcheck := checked_of_value hform (JsonScan.ends_of_ws_nil Ws.nil)
      (JsonScan.ends_of_ws_nil hend) hvalue
    exact ⟨hcheck, Except.ok.inj (h.symm.trans (hderived hcheck))⟩
  · rintro ⟨hcheck, rfl⟩
    exact hderived hcheck

/-- The parser is exact on an integer token: it accepts the token if and only if its integer is a
finite binary64 value, and what it accepts is canonicalized as a number of the same value. -/
def IntegerExact (token : Numeral) : Prop :=
  ((∃ v, parseStrict (String.ofList token.text) = .ok v) ↔ IsBinary64 token.integer) ∧
    ∀ v, parseStrict (String.ofList token.text) = .ok v →
      ∃ n : Number, v = .num n ∧ n.toF64.value = token.integer ∧
        ∀ formatFinite : Binary64 → List Char,
          canonicalizeJson formatFinite (String.ofList token.text)
            = .ok (Utf8.encode (numberText formatFinite n))

/-- **The integer check is exact** on every integer token but the greatest `i128`, which it lets
pass, and the integers out of `i128` that binary64 represents, which it refuses. -/
theorem integerExact_iff {token : Numeral} (hform : token.WellFormed)
    (h : token.isIntegerToken = true) :
    IntegerExact token ↔ token.integer ≠ 2 ^ 127 - 1 ∧
      (token.integer < -2 ^ 127 ∨ 2 ^ 127 ≤ token.integer → ¬ IsBinary64 token.integer) := by
  have haccepts : (∃ v, parseStrict (String.ofList token.text) = .ok v) ↔ token.Checked := by
    constructor
    · rintro ⟨v, hv⟩
      exact ((parseStrict_token hform v).mp hv).1
    · intro hcheck
      exact ⟨_, (parseStrict_token hform _).mpr ⟨hcheck, rfl⟩⟩
  have hcheck := Numeral.checked_iff h
  unfold IntegerExact
  rw [haccepts]
  constructor
  · rintro ⟨hexact, -⟩
    constructor
    · intro hgreatest
      have hrep := hexact.mp (hcheck.mpr (Or.inr hgreatest))
      rw [hgreatest] at hrep
      exact Binary64.not_isBinary64_greatest hrep
    · intro hout hrep
      rcases hcheck.mp (hexact.mpr hrep) with ⟨-, hrange⟩ | hgreatest
      · omega
      · omega
  · rintro ⟨hgreatest, hout⟩
    have hexact : token.Checked ↔ IsBinary64 token.integer := by
      rw [hcheck]
      constructor
      · rintro (⟨hrep, -⟩ | heq)
        · exact hrep
        · exact absurd heq hgreatest
      · intro hrep
        refine Or.inl ⟨hrep, ?_⟩
        by_contra hrange
        exact hout (by omega) hrep
    refine ⟨hexact, fun v hv => ?_⟩
    obtain ⟨hchecked, rfl⟩ := (parseStrict_token hform v).mp hv
    exact ⟨_, rfl, Numeral.value_number h (hexact.mp hchecked),
      fun formatFinite => canonicalizeJson_eq formatFinite hv⟩

/-- One is accepted, and stays one. -/
theorem integerExact_one : IntegerExact (Numeral.ofNat 1) := by
  have hone : (Numeral.ofNat 1).integer = 1 := Numeral.integer_ofNat 1
  refine (integerExact_iff (Numeral.wellFormed_ofNat (by norm_num)) rfl).mpr ?_
  rw [hone]
  exact ⟨by norm_num, fun hout => by omega⟩

/-- The greatest `i128` is accepted, and is no binary64 value. -/
theorem greatest_not_exact :
    (∃ v, parseStrict (String.ofList (Numeral.ofNat (2 ^ 127 - 1)).text) = .ok v) ∧
      ¬ IsBinary64 (Numeral.ofNat (2 ^ 127 - 1)).integer ∧
      ¬ IntegerExact (Numeral.ofNat (2 ^ 127 - 1)) := by
  have hgreatest : (Numeral.ofNat (2 ^ 127 - 1)).integer = 2 ^ 127 - 1 := by
    rw [Numeral.integer_ofNat]
    norm_num
  have hform := @Numeral.wellFormed_ofNat (2 ^ 127 - 1) (by norm_num)
  refine ⟨⟨_, (parseStrict_token hform _).mpr ⟨?_, rfl⟩⟩, ?_, ?_⟩
  · exact (Numeral.checked_iff rfl).mpr (Or.inr hgreatest)
  · rw [hgreatest]
    exact Binary64.not_isBinary64_greatest
  · intro h
    exact ((integerExact_iff hform rfl).mp h).1 hgreatest

end Jcs

end Waitprims
