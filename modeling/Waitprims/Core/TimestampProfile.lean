import Mathlib
import Waitprims.Core.Calendar
import Waitprims.Lib.Utf8

/-! # The timestamp profile

A text of the profile is a date, `T` or `t`, a clock without a leap second, a fraction of any number
of digits, and a zone. It names a moment, a rational number of seconds, and with it the microsecond
that moment is in.

* **`Stamp`** — a text of the grammar, its parts valid.
* **`Stamp.micros`** — the moment it names, counted from the calendar and floored to microseconds.
* **`exists_front`, `parseInstant_front`** — the date and the clock, up to the fraction.
* **`parseInstant_chars`** — the parser reads every text of the grammar, to that microsecond.
* **`exists_stamp`** — it accepts no other text.
* **`profile_and_order`** — the grammar is what it accepts, and the order is that of the moments. -/

namespace Waitprims

namespace Rfc3339

open Calendar (ValidDate daysBefore)

/-! ## The grammar -/

/-- The digits of a number below a hundred. -/
def twoDigits (n : Nat) : List Char := [Nat.digitChar (n / 10), Nat.digitChar (n % 10)]

/-- The digits of a number below ten thousand. -/
def fourDigits (n : Nat) : List Char := twoDigits (n / 100) ++ twoDigits (n % 100)

/-- A fraction of digits. -/
def FractionOk (fraction : Option (List Char)) : Prop :=
  ∀ digits, fraction = some digits →
    digits ≠ [] ∧ ∀ c ∈ digits, '0'.toNat ≤ c.toNat ∧ c.toNat ≤ '9'.toNat

instance : DecidablePred FractionOk
  | none => isTrue fun _ h => nomatch h
  | some digits => decidable_of_iff
      (digits ≠ [] ∧ digits.all (fun c => '0'.toNat ≤ c.toNat && c.toNat ≤ '9'.toNat) = true)
      ⟨fun h _ heq => Option.some.inj heq ▸ ⟨h.1, by simpa using h.2⟩,
        fun h => ⟨(h digits rfl).1, by simpa using (h digits rfl).2⟩⟩

/-- The fraction of a text, with its point. -/
def fractionChars : Option (List Char) → List Char
  | none => []
  | some digits => '.' :: digits

/-- A date and a clock. -/
def frontChars (year month day : Nat) (sep : Char) (hour minute second : Nat) : List Char :=
  fourDigits year ++ '-' :: (twoDigits month ++ '-' :: (twoDigits day ++ sep ::
    (twoDigits hour ++ ':' :: (twoDigits minute ++ ':' :: twoDigits second))))

/-- The zone of a text: UTC, or an offset east or west of it. -/
inductive Zone
  | zulu (letter : Char)
  | offset (west : Bool) (hour minute : Nat)

namespace Zone

/-- A zone of the profile. -/
def Ok : Zone → Prop
  | zulu letter => letter = 'Z' ∨ letter = 'z'
  | offset _ hour minute => hour ≤ 23 ∧ minute ≤ 59

instance : DecidablePred Ok
  | zulu letter => inferInstanceAs (Decidable (letter = 'Z' ∨ letter = 'z'))
  | offset _ hour minute => inferInstanceAs (Decidable (hour ≤ 23 ∧ minute ≤ 59))

/-- The characters of a zone. -/
def chars : Zone → List Char
  | zulu letter => [letter]
  | offset west hour minute =>
    (if west then '-' else '+') :: (twoDigits hour ++ ':' :: twoDigits minute)

/-- The seconds a zone is east of UTC. -/
def seconds : Zone → Int
  | zulu _ => 0
  | offset west hour minute => (if west then -1 else 1) * (hour * 3600 + minute * 60)

end Zone

/-- A text of the grammar, by its parts. -/
structure Stamp where
  year : Nat
  month : Nat
  day : Nat
  sep : Char
  hour : Nat
  minute : Nat
  second : Nat
  fraction : Option (List Char)
  zone : Zone
  year_ok : year ≤ 9999
  date_ok : ValidDate year month day
  sep_ok : sep = 'T' ∨ sep = 't'
  clock_ok : hour ≤ 23 ∧ minute ≤ 59 ∧ second ≤ 59
  fraction_ok : FractionOk fraction
  zone_ok : zone.Ok

/-- The characters of the text. -/
def Stamp.chars (stamp : Stamp) : List Char :=
  frontChars stamp.year stamp.month stamp.day stamp.sep stamp.hour stamp.minute stamp.second ++
    (fractionChars stamp.fraction ++ stamp.zone.chars)

/-! ## The moment a text names -/

/-- The number a run of digits writes. -/
def decimal (digits : List Char) : Nat :=
  digits.foldl (fun value c => value * 10 + (c.toNat - '0'.toNat)) 0

/-- The part of a second a fraction writes. -/
def fractionValue : Option (List Char) → ℚ
  | none => 0
  | some digits => decimal digits / 10 ^ digits.length

namespace Stamp

variable (stamp : Stamp)

/-- The seconds of its clock, back in UTC. -/
def clock : Int := (stamp.hour * 3600 + stamp.minute * 60 + stamp.second : Int) - stamp.zone.seconds

/-- The days from 1970-01-01 to its date. -/
def days : Int := (daysBefore stamp.year stamp.month stamp.day : Int) - daysBefore 1970 1 1

/-- The moment it names: the seconds since the first of 1970, in UTC. -/
def moment : ℚ := stamp.days * 86400 + stamp.clock + fractionValue stamp.fraction

/-- The microsecond that moment is in. -/
def micros : Int := ⌊stamp.moment * 10 ^ 6⌋

end Stamp

/-! ## Digits -/

/-- A refusal ends the parse. -/
theorem throw_bind {α β : Type} (fault : ParseFault) (f : α → Parse β) :
    (throw fault >>= f : Parse β) = .error fault := rfl

/-- A result is handed on. -/
theorem ok_bind {α β : Type} (a : α) (f : α → Parse β) : (Except.ok a >>= f : Parse β) = f a := rfl

/-- The value of a run of digits that another one follows. -/
theorem digitsValue_append (a b : List UInt8) :
    digitsValue (a ++ b) = digitsValue a * 10 ^ b.length + digitsValue b := by
  induction b using List.reverseRecOn with
  | nil => simp [digitsValue]
  | append_singleton b d ih =>
    have hpush : ∀ c : List UInt8,
        digitsValue (c ++ [d]) = digitsValue c * 10 + (d.toNat - 48) := by
      intro c
      unfold digitsValue
      rw [List.foldl_append]
      rfl
    rw [← List.append_assoc, hpush, hpush, ih, List.length_append, List.length_singleton, pow_succ]
    ring

/-- The value of a digit is below ten. -/
theorem digitValue_le {b : UInt8} (h : isAsciiDigit b = true) : b.toNat - 48 ≤ 9 := by
  unfold isAsciiDigit at h
  rw [Bool.and_eq_true, decide_eq_true_iff, decide_eq_true_iff] at h
  omega

/-- The value of digits is below a power of ten. -/
theorem digitsValue_lt {digits : List UInt8} (h : digits.all isAsciiDigit = true) :
    digitsValue digits < 10 ^ digits.length := by
  induction digits using List.reverseRecOn with
  | nil => decide
  | append_singleton digits b ih =>
    rw [List.all_append, Bool.and_eq_true] at h
    have hb : b.toNat - 48 ≤ 9 := digitValue_le (by simpa using h.2)
    have hone : digitsValue [b] = b.toNat - 48 := Nat.zero_add _
    have hlt := ih h.1
    rw [digitsValue_append, hone, List.length_append, List.length_singleton, pow_one, pow_succ]
    omega

/-- What is read is a run of digits, and its value. -/
theorem of_parseNDigits {slice : List UInt8} {n v : Nat} (h : parseNDigits slice n = .ok v) :
    slice.length = n ∧ slice.all isAsciiDigit = true ∧ digitsValue slice = v := by
  unfold parseNDigits at h
  split at h
  · cases h
  · next hok =>
    simp only [ne_eq, Bool.or_eq_true, decide_eq_true_iff, Bool.not_eq_true', not_or, not_not,
      Bool.not_eq_false] at hok
    exact ⟨hok.1, hok.2, Except.ok.inj h⟩

/-- What a run of digits reads is below a power of ten. -/
theorem parseNDigits_lt {slice : List UInt8} {n v : Nat} (h : parseNDigits slice n = .ok v) :
    v < 10 ^ n := by
  obtain ⟨rfl, hall, rfl⟩ := of_parseNDigits h
  exact digitsValue_lt hall

/-- Six digits are what a fraction keeps. -/
theorem sixDigits_all {digits : List UInt8} (h : digits.all isAsciiDigit = true) :
    (sixDigits digits).all isAsciiDigit = true ∧ (sixDigits digits).length = 6 := by
  unfold sixDigits
  constructor
  · rw [List.all_eq_true]
    intro b hb
    rcases List.mem_append.mp (List.mem_of_mem_take hb) with hb | hb
    · exact List.all_eq_true.mp h b hb
    · obtain ⟨_, rfl⟩ := List.mem_replicate.mp hb
      decide
  · rw [List.length_take, List.length_append, List.length_replicate]
    omega

/-- The bytes of ASCII characters. -/
def bytesOf (cs : List Char) : List UInt8 := cs.map Char.toUInt8

/-- A byte that passes for a digit is the byte of one. -/
theorem digit_cases {b : UInt8} (h : isAsciiDigit b = true) :
    ∃ d, d ≤ 9 ∧ b = (Nat.digitChar d).toUInt8 ∧ b.toNat - 48 = d := by
  unfold isAsciiDigit at h
  rw [Bool.and_eq_true, decide_eq_true_iff, decide_eq_true_iff] at h
  refine ⟨b.toNat - 48, by omega, ?_, rfl⟩
  have hall : ∀ n : Fin 58, 48 ≤ n.val →
      UInt8.ofNat n.val = (Nat.digitChar (n.val - 48)).toUInt8 := by
    decide
  have hb := hall ⟨b.toNat, by omega⟩ h.1
  rwa [UInt8.ofNat_toNat] at hb

/-- Two digits that are read. -/
theorem two_of_parse {x y : UInt8} {v : Nat} (h : parseNDigits [x, y] 2 = .ok v) :
    v < 100 ∧ [x, y] = bytesOf (twoDigits v) := by
  obtain ⟨-, hall, rfl⟩ := of_parseNDigits h
  simp only [List.all_cons, List.all_nil, Bool.and_true, Bool.and_eq_true] at hall
  obtain ⟨d, hd, hx, hdx⟩ := digit_cases hall.1
  obtain ⟨e, he, hy, hey⟩ := digit_cases hall.2
  have hvalue : digitsValue [x, y] = d * 10 + e := by
    show (0 * 10 + (x.toNat - 48)) * 10 + (y.toNat - 48) = _
    omega
  rw [hvalue]
  refine ⟨by omega, ?_⟩
  unfold bytesOf twoDigits
  rw [show (d * 10 + e) / 10 = d by omega, show (d * 10 + e) % 10 = e by omega]
  simp only [List.map_cons, List.map_nil, hx, hy]

/-- Two digits are digits, and their number. -/
theorem twoDigits_ok {v : Nat} (h : v < 100) :
    (bytesOf (twoDigits v)).all isAsciiDigit = true ∧ digitsValue (bytesOf (twoDigits v)) = v := by
  have hall : ∀ n : Fin 100, (bytesOf (twoDigits n.val)).all isAsciiDigit = true ∧
      digitsValue (bytesOf (twoDigits n.val)) = n.val := by
    decide
  exact hall ⟨v, h⟩

/-- Digits are read to their value. -/
theorem parseNDigits_of {slice : List UInt8} (h : slice.all isAsciiDigit = true) :
    parseNDigits slice slice.length = .ok (digitsValue slice) := by
  unfold parseNDigits
  rw [h, if_neg (by simp)]

/-- Two digits are read back. -/
theorem parse_twoDigits {v : Nat} (h : v < 100) :
    parseNDigits (bytesOf (twoDigits v)) 2 = .ok v := by
  obtain ⟨hall, hvalue⟩ := twoDigits_ok h
  have hparse := parseNDigits_of hall
  rwa [hvalue] at hparse

/-- Four digits are read back. -/
theorem parse_fourDigits {v : Nat} (h : v < 10 ^ 4) :
    parseNDigits (bytesOf (fourDigits v)) 4 = .ok v := by
  obtain ⟨hhigh, hhighValue⟩ := @twoDigits_ok (v / 100) (by omega)
  obtain ⟨hlow, hlowValue⟩ := @twoDigits_ok (v % 100) (by omega)
  have hsplit : bytesOf (fourDigits v)
      = bytesOf (twoDigits (v / 100)) ++ bytesOf (twoDigits (v % 100)) := List.map_append
  have hvalue : digitsValue (bytesOf (fourDigits v)) = v := by
    rw [hsplit, digitsValue_append, hhighValue, hlowValue]
    show v / 100 * 10 ^ 2 + v % 100 = v
    omega
  have hparse := @parseNDigits_of (bytesOf (fourDigits v))
    (by rw [hsplit, List.all_append, hhigh, hlow]; rfl)
  rwa [hvalue] at hparse

/-- Four digits that are read. -/
theorem four_of_parse {a b c d : UInt8} {v : Nat} (h : parseNDigits [a, b, c, d] 4 = .ok v) :
    [a, b, c, d] = bytesOf (fourDigits v) := by
  obtain ⟨-, hall, hvalue⟩ := of_parseNDigits h
  have hsplit : [a, b, c, d] = [a, b] ++ [c, d] := rfl
  rw [hsplit, List.all_append, Bool.and_eq_true] at hall
  obtain ⟨hhigh, hhighEq⟩ := two_of_parse (parseNDigits_of hall.1)
  obtain ⟨hlow, hlowEq⟩ := two_of_parse (parseNDigits_of hall.2)
  rw [hsplit, digitsValue_append] at hvalue
  have hquotient : v / 100 = digitsValue [a, b] ∧ v % 100 = digitsValue [c, d] := by
    simp only [List.length_cons, List.length_nil] at hvalue
    omega
  have hmap : bytesOf (fourDigits v)
      = bytesOf (twoDigits (v / 100)) ++ bytesOf (twoDigits (v % 100)) := List.map_append
  rw [hmap, hquotient.1, hquotient.2, ← hhighEq, ← hlowEq, hsplit]

/-- Bytes that pass for digits are the bytes of digits. -/
theorem digits_of_bytes {bytes : List UInt8} (h : bytes.all isAsciiDigit = true) :
    ∃ digits : List Char, bytes = bytesOf digits ∧
      ∀ c ∈ digits, '0'.toNat ≤ c.toNat ∧ c.toNat ≤ '9'.toNat := by
  induction bytes with
  | nil => exact ⟨[], rfl, fun c hc => (nomatch hc)⟩
  | cons b bytes ih =>
    rw [List.all_cons, Bool.and_eq_true] at h
    obtain ⟨digits, rfl, hdigits⟩ := ih h.2
    obtain ⟨d, hd, hb, _⟩ := digit_cases h.1
    refine ⟨Nat.digitChar d :: digits, by rw [hb]; rfl, ?_⟩
    intro c hc
    rcases List.mem_cons.mp hc with rfl | hc
    · interval_cases d <;> decide
    · exact hdigits c hc

/-- Two digits are digits. -/
theorem mem_twoDigits {n : Nat} (hn : n < 100) {c : Char} (hc : c ∈ twoDigits n) :
    '0'.toNat ≤ c.toNat ∧ c.toNat ≤ '9'.toNat := by
  have hdigit : ∀ d : Fin 10,
      '0'.toNat ≤ (Nat.digitChar d.val).toNat ∧ (Nat.digitChar d.val).toNat ≤ '9'.toNat := by
    decide
  unfold twoDigits at hc
  rcases List.mem_cons.mp hc with rfl | hc
  · exact hdigit ⟨n / 10, by omega⟩
  · obtain rfl := List.mem_singleton.mp hc
    exact hdigit ⟨n % 10, by omega⟩

/-- A digit is ASCII. -/
theorem isAscii_of_digit {c : Char} (h : '0'.toNat ≤ c.toNat ∧ c.toNat ≤ '9'.toNat) :
    Utf8.IsAscii c := by
  have hnine : '9'.toNat = 57 := rfl
  unfold Utf8.IsAscii
  omega

/-- The bytes of ASCII characters are those of their text. -/
theorem encode_bytesOf {cs : List Char} (h : ∀ c ∈ cs, Utf8.IsAscii c) :
    Utf8.encode cs = bytesOf cs := by
  induction cs with
  | nil => rfl
  | cons c cs ih =>
    rw [Utf8.encode_ascii (h c List.mem_cons_self), ih fun d hd => h d (List.mem_cons_of_mem _ hd)]
    rfl

/-- A digit is no white space. -/
theorem not_isWhiteSpace_digit {n : Nat} (h : n < 10) : isWhiteSpace (Nat.digitChar n) = false := by
  have hall : ∀ d : Fin 10, isWhiteSpace (Nat.digitChar d.val) = false := by decide
  exact hall ⟨n, h⟩

/-- Digits pass for digits. -/
theorem all_bytesOf {digits : List Char}
    (h : ∀ c ∈ digits, '0'.toNat ≤ c.toNat ∧ c.toNat ≤ '9'.toNat) :
    (bytesOf digits).all isAsciiDigit = true := by
  rw [List.all_eq_true]
  intro b hb
  obtain ⟨c, hc, rfl⟩ := List.mem_map.mp hb
  obtain ⟨hlow, hhigh⟩ := h c hc
  unfold isAsciiDigit
  rw [Utf8.toNat_toUInt8 (isAscii_of_digit ⟨hlow, hhigh⟩), Bool.and_eq_true, decide_eq_true_iff,
    decide_eq_true_iff]
  exact ⟨hlow, hhigh⟩

/-! ## The fraction -/

/-- The nanoseconds of a fraction: its first six digits, filled up with zeros. -/
def fractionNanos : Option (List Char) → Nat
  | none => 0
  | some digits => digitsValue (sixDigits (bytesOf digits)) * 1000

/-- A fraction is less than a second. -/
theorem fractionNanos_lt {fraction : Option (List Char)} (h : FractionOk fraction) :
    fractionNanos fraction < 10 ^ 9 := by
  cases fraction with
  | none => decide
  | some digits =>
    obtain ⟨hsix, hlength⟩ := sixDigits_all (all_bytesOf (h digits rfl).2)
    have hlt := digitsValue_lt hsix
    rw [hlength] at hlt
    show digitsValue (sixDigits (bytesOf digits)) * 1000 < 10 ^ 9
    omega

/-- The fraction that is read stands in the text. -/
theorem of_parseFraction {front rest : List UInt8} (hfront : front.length = 19)
    {nanosecond idx : Nat} (h : parseFraction (front ++ rest) = .ok (nanosecond, idx)) :
    ∃ fraction tail, FractionOk fraction ∧ nanosecond = fractionNanos fraction ∧
      rest = bytesOf (fractionChars fraction) ++ tail ∧
      idx = (front ++ bytesOf (fractionChars fraction)).length := by
  unfold parseFraction at h
  split at h
  · next hpoint =>
    rw [List.getElem?_append_right (by omega), hfront] at hpoint
    obtain ⟨rest, rfl⟩ : ∃ rest', rest = '.'.toUInt8 :: rest' := by
      cases rest with
      | nil => cases hpoint
      | cons b rest => exact ⟨rest, by rw [Option.some.inj hpoint]⟩
    have hdrop : (front ++ '.'.toUInt8 :: rest).drop 20 = rest := by
      rw [List.drop_append, hfront, List.drop_eq_nil_of_le (by omega)]
      rfl
    rw [hdrop] at h
    dsimp only at h
    split at h
    · cases h
    · next hne =>
      obtain ⟨rfl, rfl⟩ := Prod.mk.inj (Except.ok.inj h)
      have hall : (rest.takeWhile isAsciiDigit).all isAsciiDigit = true := List.all_takeWhile
      obtain ⟨digits, heq, hdigits⟩ := digits_of_bytes hall
      refine ⟨some digits, rest.dropWhile isAsciiDigit, ?_, by rw [heq]; rfl, ?_, ?_⟩
      · rintro _ ⟨⟩
        refine ⟨?_, hdigits⟩
        rintro rfl
        rw [heq] at hne
        exact hne rfl
      · show _ = '.'.toUInt8 :: (bytesOf digits ++ _)
        rw [← heq, List.takeWhile_append_dropWhile]
      · show _ = (front ++ '.'.toUInt8 :: bytesOf digits).length
        rw [← heq, List.length_append, List.length_cons, hfront]
        omega
  · obtain ⟨rfl, rfl⟩ := Prod.mk.inj (Except.ok.inj h)
    refine ⟨none, rest, fun _ hnone => (nomatch hnone), rfl, rfl, ?_⟩
    show _ = (front ++ []).length
    rw [List.append_nil, hfront]

/-- A fraction in front of what is no digit and no point is read. -/
theorem parseFraction_of {front tail : List UInt8} {b : UInt8} (hfront : front.length = 19)
    (hdigit : isAsciiDigit b = false) (hpoint : b ≠ '.'.toUInt8) {fraction : Option (List Char)}
    (h : FractionOk fraction) :
    parseFraction (front ++ (bytesOf (fractionChars fraction) ++ b :: tail))
      = .ok (fractionNanos fraction, (front ++ bytesOf (fractionChars fraction)).length) := by
  unfold parseFraction
  cases fraction with
  | none =>
    rw [if_neg]
    · show Except.ok (0, 19) = .ok (0, (front ++ []).length)
      rw [List.append_nil, hfront]
    · rw [List.getElem?_append_right (by omega), hfront]
      show ¬ some b = some '.'.toUInt8
      exact fun heq => hpoint (Option.some.inj heq)
  | some digits =>
    obtain ⟨hne, hdigits⟩ := h digits rfl
    have hall := all_bytesOf hdigits
    have hdrop : (front ++ (bytesOf (fractionChars (some digits)) ++ b :: tail)).drop 20
        = bytesOf digits ++ b :: tail := by
      rw [List.drop_append, hfront, List.drop_eq_nil_of_le (by omega)]
      rfl
    have htake : (bytesOf digits ++ b :: tail).takeWhile isAsciiDigit = bytesOf digits := by
      rw [List.takeWhile_append_of_pos (List.all_eq_true.mp hall),
        List.takeWhile_cons_of_neg (by simp [hdigit]), List.append_nil]
    rw [if_pos]
    · dsimp only
      rw [hdrop, htake, if_neg]
      · congr 2
        show _ = (front ++ '.'.toUInt8 :: bytesOf digits).length
        rw [List.length_append, List.length_cons, hfront]
        omega
      · cases digits with
        | nil => exact absurd rfl hne
        | cons c digits => simp [bytesOf]
    · rw [List.getElem?_append_right (by omega), hfront]
      rfl

/-- The value of the zeros that fill up a fraction. -/
theorem digitsValue_replicate (n : Nat) : digitsValue (List.replicate n 48) = 0 := by
  induction n with
  | zero => rfl
  | succ n ih =>
    rw [List.replicate_succ', digitsValue_append, ih, Nat.zero_mul]
    rfl

/-- **Padding and truncating floors**: six digits are the millionths of the fraction. -/
theorem digitsValue_sixDigits {digits : List UInt8} (h : digits.all isAsciiDigit = true) :
    digitsValue (sixDigits digits) = digitsValue digits * 10 ^ 6 / 10 ^ digits.length := by
  unfold sixDigits
  rcases Nat.lt_or_ge 6 digits.length with hlong | hshort
  · -- the digits behind the sixth are less than one of its units
    obtain ⟨n, hn⟩ : ∃ n, digits.length = 6 + n := ⟨digits.length - 6, by omega⟩
    have hsplit : digits = digits.take 6 ++ digits.drop 6 := (List.take_append_drop 6 digits).symm
    have hlength : (digits.drop 6).length = n := by
      rw [List.length_drop]
      omega
    have hdrop : (digits.drop 6).all isAsciiDigit = true := by
      rw [hsplit, List.all_append, Bool.and_eq_true] at h
      exact h.2
    have hlt := digitsValue_lt hdrop
    rw [hlength] at hlt
    rw [List.take_append_of_le_length (by omega)]
    conv_rhs => rw [hsplit, digitsValue_append, hlength, List.length_append, hlength,
      List.length_take, Nat.min_eq_left (by omega), pow_add, Nat.mul_comm (10 ^ 6) (10 ^ n),
      Nat.mul_div_mul_right _ _ (by norm_num)]
    rw [Nat.add_div_of_dvd_right (Dvd.intro_left _ rfl), Nat.mul_div_cancel _ (by positivity),
      Nat.div_eq_of_lt hlt, Nat.add_zero]
  · have hpad : 6 = digits.length + (6 - digits.length) := by omega
    rw [List.take_of_length_le (by rw [List.length_append, List.length_replicate]; omega),
      digitsValue_append, List.length_replicate, digitsValue_replicate, Nat.add_zero]
    conv_rhs => rw [hpad, pow_add, ← Nat.mul_assoc, Nat.mul_right_comm,
      Nat.mul_div_cancel _ (by positivity)]

/-- The digits of a fraction write its number. -/
theorem digitsValue_bytesOf {digits : List Char}
    (h : ∀ c ∈ digits, '0'.toNat ≤ c.toNat ∧ c.toNat ≤ '9'.toNat) :
    digitsValue (bytesOf digits) = decimal digits := by
  induction digits using List.reverseRecOn with
  | nil => rfl
  | append_singleton digits c ih =>
    have hascii := isAscii_of_digit (h c (List.mem_append_right _ List.mem_cons_self))
    have hone : digitsValue [c.toUInt8] = c.toNat - '0'.toNat := by
      show 0 * 10 + (c.toUInt8.toNat - 48) = _
      rw [Utf8.toNat_toUInt8 hascii, Nat.zero_mul, Nat.zero_add]
      rfl
    have hsplit : bytesOf (digits ++ [c]) = bytesOf digits ++ [c.toUInt8] := List.map_append
    rw [hsplit, digitsValue_append, hone, ih fun d hd => h d (List.mem_append_left _ hd)]
    unfold decimal
    rw [List.foldl_append]
    rfl

/-- The nanoseconds of a fraction are the microsecond its value is in. -/
theorem fractionNanos_eq {fraction : Option (List Char)} (h : FractionOk fraction) :
    (fractionNanos fraction : Int) = ⌊fractionValue fraction * 10 ^ 6⌋ * 1000 := by
  cases fraction with
  | none => simp [fractionNanos, fractionValue]
  | some digits =>
    have hdigits := (h digits rfl).2
    have hfloor : ⌊fractionValue (some digits) * 10 ^ 6⌋
        = ((decimal digits * 10 ^ 6 / 10 ^ digits.length : Nat) : Int) := by
      have hquotient : fractionValue (some digits) * 10 ^ 6
          = ((decimal digits * 10 ^ 6 : Nat) : ℚ) / ((10 ^ digits.length : Nat) : ℚ) := by
        unfold fractionValue
        push_cast
        ring
      rw [hquotient, Rat.floor_natCast_div_natCast]
      exact (Int.natCast_ediv _ _).symm
    have hlength : (bytesOf digits).length = digits.length := List.length_map _
    have hnanos : fractionNanos (some digits)
        = digitsValue (sixDigits (bytesOf digits)) * 1000 := rfl
    rw [hfloor, hnanos, digitsValue_sixDigits (all_bytesOf hdigits), digitsValue_bytesOf hdigits,
      hlength, Nat.cast_mul]
    rfl

/-! ## The zone -/

/-- A byte behind a front. -/
theorem byteAt_shift (front tail : List UInt8) (i : Nat) :
    byteAt (front ++ tail) (front.length + i) = byteAt tail i := by
  unfold byteAt
  rw [List.getElem?_append_right (by omega), Nat.add_sub_cancel_left]

/-- A slice behind a front. -/
theorem sliceBytes_shift (front tail : List UInt8) (i j : Nat) :
    sliceBytes (front ++ tail) (front.length + i) (front.length + j) = sliceBytes tail i j := by
  have hslice : ((front ++ tail).take (front.length + j)).drop (front.length + i)
      = (tail.take j).drop i := by
    rw [List.take_append, List.take_of_length_le (by omega), Nat.add_sub_cancel_left,
      List.drop_append, List.drop_eq_nil_of_le (by omega), List.nil_append,
      Nat.add_sub_cancel_left]
  unfold sliceBytes
  rw [hslice, List.length_append]
  by_cases h : i ≤ j ∧ j ≤ tail.length
  · rw [if_pos h, if_pos (by omega)]
  · rw [if_neg h, if_neg (by omega)]

/-- A zone behind a front. -/
theorem parseZone_shift (front tail : List UInt8) :
    parseZone (front ++ tail) front.length = parseZone tail 0 := by
  have hbyte := byteAt_shift front tail 0
  have hslice : ∀ i j, sliceBytes (front ++ tail) (front.length + i) (front.length + j)
      = sliceBytes tail i j := sliceBytes_shift front tail
  have hmark := byteAt_shift front tail 3
  unfold parseZone
  simp only [↓throw_bind, Nat.add_assoc, Nat.reduceAdd, hslice, hmark, List.length_append,
    Nat.zero_add]
  rw [Nat.add_zero] at hbyte
  rw [hbyte]
  simp only [Nat.add_right_inj, ne_eq, add_le_iff_nonpos_right]

/-- Five bytes. -/
theorem exists_five {bytes : List UInt8} (h : bytes.length = 5) :
    ∃ a b c d e, bytes = [a, b, c, d, e] := by
  match bytes, h with
  | [a, b, c, d, e], _ => exact ⟨a, b, c, d, e, rfl⟩

/-- A run of digits is refused or read. -/
theorem parseNDigits_cases (slice : List UInt8) (n : Nat) :
    parseNDigits slice n = .error .reject ∨ ∃ v, parseNDigits slice n = .ok v := by
  unfold parseNDigits
  split
  · exact Or.inl rfl
  · exact Or.inr ⟨_, rfl⟩

/-- A zone with a sign, part by part. -/
theorem parseZone_sign {b h₁ h₂ mark m₁ m₂ : UInt8}
    (hzulu : ¬ (decide (b = 'Z'.toUInt8) || decide (b = 'z'.toUInt8)) = true)
    (hsign : (decide (b = '+'.toUInt8) || decide (b = '-'.toUInt8)) = true) :
    parseZone [b, h₁, h₂, mark, m₁, m₂] 0 =
      (parseNDigits [h₁, h₂] 2 >>= fun offH =>
        if mark ≠ ':'.toUInt8 then .error .reject
        else parseNDigits [m₁, m₂] 2 >>= fun offM =>
          if (decide (23 < offH) || decide (59 < offM)) = true then .error .reject
          else .ok ((if b = '+'.toUInt8 then 1 else -1) * (offH * 3600 + offM * 60 : Int))) := by
  have hbyte : byteAt [b, h₁, h₂, mark, m₁, m₂] 0 = .ok b := rfl
  have hmark : byteAt [b, h₁, h₂, mark, m₁, m₂] 3 = .ok mark := rfl
  have hhours : sliceBytes [b, h₁, h₂, mark, m₁, m₂] 1 3 = .ok [h₁, h₂] := rfl
  have hminutes : sliceBytes [b, h₁, h₂, mark, m₁, m₂] 4 6 = .ok [m₁, m₂] := rfl
  unfold parseZone
  simp only [↓throw_bind, Nat.zero_add, Nat.reduceAdd, hbyte, hmark, hhours, hminutes, ok_bind]
  rw [if_neg (by simp), if_neg hzulu, if_pos hsign, if_neg (by simp)]
  rfl

/-- A zone is less than a day. -/
theorem Zone.seconds_bounds {zone : Zone} (h : zone.Ok) :
    -86400 < zone.seconds ∧ zone.seconds < 86400 := by
  cases zone with
  | zulu letter => exact ⟨by norm_num [Zone.seconds], by norm_num [Zone.seconds]⟩
  | offset west hour minute =>
    have hok : hour ≤ 23 ∧ minute ≤ 59 := h
    unfold Zone.seconds
    cases west <;> simp <;> omega

/-- A zone of the profile is read. -/
theorem parseZone_of {zone : Zone} (h : zone.Ok) :
    parseZone (bytesOf zone.chars) 0 = .ok zone.seconds := by
  cases zone with
  | zulu letter =>
    have hletter : letter = 'Z' ∨ letter = 'z' := h
    rcases hletter with rfl | rfl <;> rfl
  | offset west hour minute =>
    have hok : hour ≤ 23 ∧ minute ≤ 59 := h
    have hhour := @parse_twoDigits hour (by omega)
    have hminute := @parse_twoDigits minute (by omega)
    have hsign : ∀ b : UInt8, b = '+'.toUInt8 ∨ b = '-'.toUInt8 →
        parseZone (b :: (bytesOf (twoDigits hour) ++ ':'.toUInt8 :: bytesOf (twoDigits minute))) 0
          = .ok ((if b = '+'.toUInt8 then 1 else -1) * (hour * 3600 + minute * 60 : Int)) := by
      intro b hb
      show parseZone [b, _, _, ':'.toUInt8, _, _] 0 = _
      rw [parseZone_sign (by rcases hb with rfl | rfl <;> decide) (by simpa using hb)]
      show (parseNDigits (bytesOf (twoDigits hour)) 2 >>= _) = _
      rw [hhour, ok_bind, if_neg (by decide)]
      show (parseNDigits (bytesOf (twoDigits minute)) 2 >>= _) = _
      rw [hminute, ok_bind, if_neg (by simpa using hok)]
    cases west with
    | false => exact hsign '+'.toUInt8 (Or.inl rfl)
    | true => exact hsign '-'.toUInt8 (Or.inr rfl)

/-- A tail is refused, or it is a zone of the profile. -/
theorem parseZone_cases (tail : List UInt8) :
    parseZone tail 0 = .error .reject ∨ ∃ zone : Zone, zone.Ok ∧ tail = bytesOf zone.chars := by
  cases tail with
  | nil => exact Or.inl rfl
  | cons b tail =>
    have hbyte : byteAt (b :: tail) 0 = .ok b := rfl
    -- a zulu mark ends the text
    by_cases hzulu : (decide (b = 'Z'.toUInt8) || decide (b = 'z'.toUInt8)) = true
    · unfold parseZone
      simp only [↓throw_bind, hbyte, ok_bind]
      rw [if_neg (by simp), if_pos hzulu]
      split
      · exact Or.inl rfl
      · next hend =>
        obtain rfl : tail = [] := List.eq_nil_of_length_eq_zero (by simpa using hend)
        rw [Bool.or_eq_true, decide_eq_true_iff, decide_eq_true_iff] at hzulu
        rcases hzulu with rfl | rfl
        · exact Or.inr ⟨.zulu 'Z', Or.inl rfl, rfl⟩
        · exact Or.inr ⟨.zulu 'z', Or.inr rfl, rfl⟩
    -- a sign wants exactly five bytes behind it
    by_cases hsign : (decide (b = '+'.toUInt8) || decide (b = '-'.toUInt8)) = true
    · by_cases hlength : tail.length = 5
      · obtain ⟨h₁, h₂, mark, m₁, m₂, rfl⟩ := exists_five hlength
        rw [parseZone_sign hzulu hsign]
        rcases parseNDigits_cases [h₁, h₂] 2 with hhour | ⟨offH, hhour⟩
        · rw [hhour]
          exact Or.inl rfl
        rw [hhour, ok_bind]
        by_cases hmark : mark = ':'.toUInt8
        · rw [if_neg (by simpa using hmark)]
          rcases parseNDigits_cases [m₁, m₂] 2 with hminute | ⟨offM, hminute⟩
          · rw [hminute]
            exact Or.inl rfl
          rw [hminute, ok_bind]
          split
          · exact Or.inl rfl
          · next hpast =>
            have hzone : offH ≤ 23 ∧ offM ≤ 59 := by simpa using hpast
            have hdigits : [h₁, h₂, mark, m₁, m₂] = bytesOf (twoDigits offH) ++
                ':'.toUInt8 :: bytesOf (twoDigits offM) := by
              rw [hmark, ← (two_of_parse hhour).2, ← (two_of_parse hminute).2]
              rfl
            rw [hdigits]
            rw [Bool.or_eq_true, decide_eq_true_iff, decide_eq_true_iff] at hsign
            rcases hsign with rfl | rfl
            · exact Or.inr ⟨.offset false offH offM, hzone, rfl⟩
            · exact Or.inr ⟨.offset true offH offM, hzone, rfl⟩
        · rw [if_pos hmark]
          exact Or.inl rfl
      · unfold parseZone
        simp only [↓throw_bind, hbyte, ok_bind]
        rw [if_neg (by simp), if_neg hzulu, if_pos hsign, if_pos (by simp; omega)]
        exact Or.inl rfl
    · unfold parseZone
      simp only [↓throw_bind, hbyte, ok_bind]
      rw [if_neg (by simp), if_neg hzulu, if_neg hsign]
      exact Or.inl rfl

/-- A zone starts with no digit and no point. -/
theorem Zone.exists_head {zone : Zone} (h : zone.Ok) :
    ∃ b tail, bytesOf zone.chars = b :: tail ∧ isAsciiDigit b = false ∧ b ≠ '.'.toUInt8 := by
  cases zone with
  | zulu letter =>
    have hletter : letter = 'Z' ∨ letter = 'z' := h
    rcases hletter with rfl | rfl
    all_goals exact ⟨_, [], rfl, by decide, by decide⟩
  | offset west hour minute =>
    cases west
    all_goals exact ⟨_, _, rfl, by decide, by decide⟩

/-- A zone ends with no white space. -/
theorem Zone.exists_last {zone : Zone} (h : zone.Ok) :
    ∃ init last, zone.chars = init ++ [last] ∧ isWhiteSpace last = false := by
  cases zone with
  | zulu letter =>
    have hletter : letter = 'Z' ∨ letter = 'z' := h
    rcases hletter with rfl | rfl
    all_goals exact ⟨[], _, rfl, by decide⟩
  | offset west hour minute =>
    exact ⟨(if west then '-' else '+') :: (twoDigits hour ++ [':', Nat.digitChar (minute / 10)]),
      Nat.digitChar (minute % 10), by simp [Zone.chars, twoDigits],
      not_isWhiteSpace_digit (by omega)⟩

/-- The characters of a zone are ASCII. -/
theorem Zone.isAscii_chars {zone : Zone} (h : zone.Ok) : ∀ c ∈ zone.chars, Utf8.IsAscii c := by
  cases zone with
  | zulu letter =>
    have hletter : letter = 'Z' ∨ letter = 'z' := h
    intro c hc
    obtain rfl := List.mem_singleton.mp hc
    rcases hletter with rfl | rfl <;> decide
  | offset west hour minute =>
    have hok : hour ≤ 23 ∧ minute ≤ 59 := h
    intro c hc
    simp only [Zone.chars, List.mem_cons, List.mem_append] at hc
    rcases hc with rfl | hc | rfl | hc
    · cases west <;> decide
    · exact isAscii_of_digit (mem_twoDigits (by omega) hc)
    · decide
    · exact isAscii_of_digit (mem_twoDigits (by omega) hc)

/-! ## The date and the clock -/

/-- Nineteen bytes. -/
theorem exists_nineteen {bytes : List UInt8} (h : bytes.length = 19) :
    ∃ y₀ y₁ y₂ y₃ d₄ m₅ m₆ d₇ d₈ d₉ sep h₁ h₂ c₁₃ i₁ i₂ c₁₆ s₁ s₂,
      bytes = [y₀, y₁, y₂, y₃, d₄, m₅, m₆, d₇, d₈, d₉, sep, h₁, h₂, c₁₃, i₁, i₂, c₁₆, s₁, s₂] := by
  match bytes, h with
  | [y₀, y₁, y₂, y₃, d₄, m₅, m₆, d₇, d₈, d₉, sep, h₁, h₂, c₁₃, i₁, i₂, c₁₆, s₁, s₂], _ =>
    exact ⟨y₀, y₁, y₂, y₃, d₄, m₅, m₆, d₇, d₈, d₉, sep, h₁, h₂, c₁₃, i₁, i₂, c₁₆, s₁, s₂, rfl⟩

/-- A byte is the mark it has to be. -/
def mark (b : UInt8) (want : Char) : Parse Unit :=
  if b = want.toUInt8 then .ok () else .error .reject

/-- A mark at its index. -/
theorem expect_eq {bytes : List UInt8} {idx : Nat} {b : UInt8} (h : bytes[idx]? = some b)
    (want : Char) : expect bytes idx want = mark b want := by
  unfold expect mark
  simp only [h, Option.some.injEq]

/-- A slice of the front. -/
theorem sliceBytes_front {front rest : List UInt8} {i j : Nat} (hij : i ≤ j)
    (hj : j ≤ front.length) : sliceBytes (front ++ rest) i j = .ok ((front.take j).drop i) := by
  unfold sliceBytes
  rw [if_pos ⟨hij, by rw [List.length_append]; omega⟩, List.take_append_of_le_length hj]

/-- The parser after the clock. -/
def parseRest (bytes : List UInt8) (year month day hour minute second : Nat) : Parse Int :=
  parseFraction bytes >>= fun p =>
    parseZone bytes p.2 >>= fun offset =>
      fromCalendarDate year month day >>= fun days =>
        toOffsetUtc (days * nanosPerDay
          + ((hour * 3600 + minute * 60 + second : Int) - offset) * nanosPerSec + p.1)

/-- The parser, part by part. -/
theorem parseInstant_parts {text : String} {rest : List UInt8}
    {y₀ y₁ y₂ y₃ d₄ m₅ m₆ d₇ d₈ d₉ sep h₁ h₂ c₁₃ i₁ i₂ c₁₆ s₁ s₂ : UInt8}
    (htrim : (text.isEmpty || trimChanges text) = false) (hrest : rest ≠ [])
    (hbytes : textBytes text = [y₀, y₁, y₂, y₃, d₄, m₅, m₆, d₇, d₈, d₉, sep, h₁, h₂, c₁₃, i₁, i₂,
      c₁₆, s₁, s₂] ++ rest) :
    parseInstant text =
      (parseNDigits [y₀, y₁, y₂, y₃] 4 >>= fun year => mark d₄ '-' >>= fun _ =>
        parseNDigits [m₅, m₆] 2 >>= fun month => mark d₇ '-' >>= fun _ =>
        parseNDigits [d₈, d₉] 2 >>= fun day =>
        if (decide (sep ≠ 'T'.toUInt8) && decide (sep ≠ 't'.toUInt8)) = true then .error .reject
        else parseNDigits [h₁, h₂] 2 >>= fun hour => mark c₁₃ ':' >>= fun _ =>
        parseNDigits [i₁, i₂] 2 >>= fun minute => mark c₁₆ ':' >>= fun _ =>
        parseNDigits [s₁, s₂] 2 >>= fun second =>
        if (decide (23 < hour) || decide (59 < minute)) = true then .error .reject
        else if 60 ≤ second then .error .reject
        else parseRest (textBytes text) year month day hour minute second) := by
  -- nineteen bytes stand before the rest, so no read of the fixed part is out of range
  have hlength : ¬ (textBytes text).length < 20 := by
    have hpos := List.length_pos_iff.mpr hrest
    rw [hbytes, List.length_append]
    simp only [List.length_cons, List.length_nil]
    omega
  have hget : ∀ (i : Nat) (b : UInt8), [y₀, y₁, y₂, y₃, d₄, m₅, m₆, d₇, d₈, d₉, sep, h₁, h₂, c₁₃,
      i₁, i₂, c₁₆, s₁, s₂][i]? = some b → (textBytes text)[i]? = some b := by
    intro i b hb
    have hi := (List.getElem?_eq_some_iff.mp hb).1
    rw [hbytes, List.getElem?_append_left hi, hb]
  have hbyte : byteAt (textBytes text) 10 = .ok sep := by
    unfold byteAt
    rw [hget 10 sep rfl]
  have hyear : sliceBytes (textBytes text) 0 4 = .ok [y₀, y₁, y₂, y₃] := by
    rw [hbytes, sliceBytes_front (by decide) (by simp)]
    rfl
  have hmonth : sliceBytes (textBytes text) 5 7 = .ok [m₅, m₆] := by
    rw [hbytes, sliceBytes_front (by decide) (by simp)]
    rfl
  have hday : sliceBytes (textBytes text) 8 10 = .ok [d₈, d₉] := by
    rw [hbytes, sliceBytes_front (by decide) (by simp)]
    rfl
  have hhour : sliceBytes (textBytes text) 11 13 = .ok [h₁, h₂] := by
    rw [hbytes, sliceBytes_front (by decide) (by simp)]
    rfl
  have hminute : sliceBytes (textBytes text) 14 16 = .ok [i₁, i₂] := by
    rw [hbytes, sliceBytes_front (by decide) (by simp)]
    rfl
  have hsecond : sliceBytes (textBytes text) 17 19 = .ok [s₁, s₂] := by
    rw [hbytes, sliceBytes_front (by decide) (by simp)]
    rfl
  unfold parseInstant parseRest
  simp only [↓throw_bind, htrim, hlength, if_false, Bool.false_eq_true, hyear, hmonth, hday, hhour,
    hminute, hsecond, hbyte, ok_bind, expect_eq (hget 4 d₄ rfl), expect_eq (hget 7 d₇ rfl),
    expect_eq (hget 13 c₁₃ rfl), expect_eq (hget 16 c₁₆ rfl)]

/-- A mark is refused, or it is the one. -/
theorem mark_cases (b : UInt8) (want : Char) :
    mark b want = .error .reject ∨ b = want.toUInt8 ∧ mark b want = .ok () := by
  unfold mark
  by_cases h : b = want.toUInt8
  · exact Or.inr ⟨h, if_pos h⟩
  · exact Or.inl (if_neg h)

/-- What the parser refuses before the fraction stands in no date and clock of the profile. -/
theorem exists_front {text : String} (h : parseInstant text ≠ .error .reject) :
    ∃ (year month day : Nat) (sep : Char) (hour minute second : Nat) (rest : List UInt8),
      year < 10 ^ 4 ∧ (sep = 'T' ∨ sep = 't') ∧ (hour ≤ 23 ∧ minute ≤ 59 ∧ second ≤ 59) ∧
      textBytes text = bytesOf (frontChars year month day sep hour minute second) ++ rest ∧
      parseInstant text = parseRest (bytesOf (frontChars year month day sep hour minute second)
        ++ rest) year month day hour minute second := by
  cases htrim : text.isEmpty || trimChanges text with
  | true =>
    unfold parseInstant at h
    simp only [↓throw_bind, htrim, if_true, ne_eq, not_true] at h
  | false =>
    by_cases hlength : (textBytes text).length < 20
    · unfold parseInstant at h
      simp only [↓throw_bind, htrim, hlength, if_true, if_false, Bool.false_eq_true, ne_eq,
        not_true] at h
    obtain ⟨y₀, y₁, y₂, y₃, d₄, m₅, m₆, d₇, d₈, d₉, sep, h₁, h₂, c₁₃, i₁, i₂, c₁₆, s₁, s₂,
      hfront⟩ := @exists_nineteen ((textBytes text).take 19) (by rw [List.length_take]; omega)
    set rest := (textBytes text).drop 19 with hdrop
    have hbytes : textBytes text = [y₀, y₁, y₂, y₃, d₄, m₅, m₆, d₇, d₈, d₉, sep, h₁, h₂, c₁₃, i₁,
        i₂, c₁₆, s₁, s₂] ++ rest := by
      rw [← hfront, hdrop, List.take_append_drop]
    have hrest : rest ≠ [] := by
      intro hnil
      have hlen := congrArg List.length hdrop
      rw [hnil, List.length_drop] at hlen
      simp only [List.length_nil] at hlen
      omega
    have hparts := parseInstant_parts htrim hrest hbytes
    rw [hparts] at h ⊢
    -- each part is read, or the text is refused
    rcases parseNDigits_cases [y₀, y₁, y₂, y₃] 4 with hyear | ⟨year, hyear⟩
    · exact absurd (by rw [hyear]; rfl) h
    rw [hyear, ok_bind] at h ⊢
    rcases mark_cases d₄ '-' with hd₄ | ⟨rfl, hd₄⟩
    · exact absurd (by rw [hd₄]; rfl) h
    rw [hd₄, ok_bind] at h ⊢
    rcases parseNDigits_cases [m₅, m₆] 2 with hmonth | ⟨month, hmonth⟩
    · exact absurd (by rw [hmonth]; rfl) h
    rw [hmonth, ok_bind] at h ⊢
    rcases mark_cases d₇ '-' with hd₇ | ⟨rfl, hd₇⟩
    · exact absurd (by rw [hd₇]; rfl) h
    rw [hd₇, ok_bind] at h ⊢
    rcases parseNDigits_cases [d₈, d₉] 2 with hday | ⟨day, hday⟩
    · exact absurd (by rw [hday]; rfl) h
    rw [hday, ok_bind] at h ⊢
    by_cases hsep : (decide (sep ≠ 'T'.toUInt8) && decide (sep ≠ 't'.toUInt8)) = true
    · exact absurd (if_pos hsep) h
    rw [if_neg hsep] at h ⊢
    rcases parseNDigits_cases [h₁, h₂] 2 with hhour | ⟨hour, hhour⟩
    · exact absurd (by rw [hhour]; rfl) h
    rw [hhour, ok_bind] at h ⊢
    rcases mark_cases c₁₃ ':' with hc₁₃ | ⟨rfl, hc₁₃⟩
    · exact absurd (by rw [hc₁₃]; rfl) h
    rw [hc₁₃, ok_bind] at h ⊢
    rcases parseNDigits_cases [i₁, i₂] 2 with hminute | ⟨minute, hminute⟩
    · exact absurd (by rw [hminute]; rfl) h
    rw [hminute, ok_bind] at h ⊢
    rcases mark_cases c₁₆ ':' with hc₁₆ | ⟨rfl, hc₁₆⟩
    · exact absurd (by rw [hc₁₆]; rfl) h
    rw [hc₁₆, ok_bind] at h ⊢
    rcases parseNDigits_cases [s₁, s₂] 2 with hsecond | ⟨second, hsecond⟩
    · exact absurd (by rw [hsecond]; rfl) h
    rw [hsecond, ok_bind] at h ⊢
    by_cases hpast : (decide (23 < hour) || decide (59 < minute)) = true
    · exact absurd (if_pos hpast) h
    rw [if_neg hpast] at h ⊢
    by_cases hleap : 60 ≤ second
    · exact absurd (if_pos hleap) h
    rw [if_neg hleap]
    have hclock : hour ≤ 23 ∧ minute ≤ 59 := by simpa using hpast
    obtain ⟨sepChar, hsepChar, rfl⟩ : ∃ c : Char, (c = 'T' ∨ c = 't') ∧ sep = c.toUInt8 := by
      by_cases hupper : sep = 'T'.toUInt8
      · exact ⟨'T', Or.inl rfl, hupper⟩
      · exact ⟨'t', Or.inr rfl, by simpa [hupper] using hsep⟩
    have hchars : [y₀, y₁, y₂, y₃] ++ ('-'.toUInt8 :: ([m₅, m₆] ++ '-'.toUInt8 :: ([d₈, d₉] ++
        sepChar.toUInt8 :: ([h₁, h₂] ++ ':'.toUInt8 :: ([i₁, i₂] ++ ':'.toUInt8 :: [s₁, s₂])))))
        = bytesOf (frontChars year month day sepChar hour minute second) := by
      rw [four_of_parse hyear, (two_of_parse hmonth).2, (two_of_parse hday).2,
        (two_of_parse hhour).2, (two_of_parse hminute).2, (two_of_parse hsecond).2]
      rfl
    refine ⟨year, month, day, sepChar, hour, minute, second, rest, parseNDigits_lt hyear, hsepChar,
      ⟨hclock.1, hclock.2, by omega⟩, ?_, ?_⟩
    · rw [← hchars]
      exact hbytes
    · rw [← hchars, hbytes]
      rfl

/-- A date and a clock of the profile are read. -/
theorem parseInstant_front {text : String} {rest : List UInt8}
    {year month day hour minute second : Nat} {sep : Char}
    (htrim : (text.isEmpty || trimChanges text) = false) (hrest : rest ≠ [])
    (hyear : year < 10 ^ 4) (hdate : month < 100 ∧ day < 100) (hsep : sep = 'T' ∨ sep = 't')
    (hclock : hour ≤ 23 ∧ minute ≤ 59 ∧ second ≤ 59)
    (hbytes : textBytes text
      = bytesOf (frontChars year month day sep hour minute second) ++ rest) :
    parseInstant text = parseRest (bytesOf (frontChars year month day sep hour minute second)
      ++ rest) year month day hour minute second := by
  obtain ⟨hhour, hminute, hsecond⟩ := hclock
  have hparts := @parseInstant_parts text rest _ _ _ _ _ _ _ _ _ _ _ _ _ _ _ _ _ _ _ htrim hrest
    hbytes
  have hsep' : (decide (sep.toUInt8 ≠ 'T'.toUInt8) && decide (sep.toUInt8 ≠ 't'.toUInt8))
      = false := by
    rcases hsep with rfl | rfl <;> decide
  have hread : ∀ n, n < 100 →
      parseNDigits [(Nat.digitChar (n / 10)).toUInt8, (Nat.digitChar (n % 10)).toUInt8] 2 = .ok n :=
    fun n hn => parse_twoDigits hn
  have hfour : parseNDigits [(Nat.digitChar (year / 100 / 10)).toUInt8,
      (Nat.digitChar (year / 100 % 10)).toUInt8, (Nat.digitChar (year % 100 / 10)).toUInt8,
      (Nat.digitChar (year % 100 % 10)).toUInt8] 4 = .ok year := parse_fourDigits hyear
  have hdash : mark '-'.toUInt8 '-' = .ok () := rfl
  have hcolon : mark ':'.toUInt8 ':' = .ok () := rfl
  rw [hparts, hfour, ok_bind, hdash, ok_bind, hread _ hdate.1, ok_bind, ok_bind, hread _ hdate.2,
    ok_bind, hsep', if_neg (by decide), hread _ (by omega), ok_bind, hcolon, ok_bind,
    hread _ (by omega), ok_bind, ok_bind, hread _ (by omega), ok_bind,
    if_neg (by simpa using ⟨hhour, hminute⟩), if_neg (by omega), hbytes]

/-- The characters of a date and a clock are ASCII. -/
theorem isAscii_frontChars {year month day hour minute second : Nat} {sep : Char}
    (hyear : year < 10 ^ 4) (hdate : month < 100 ∧ day < 100) (hsep : sep = 'T' ∨ sep = 't')
    (hclock : hour ≤ 23 ∧ minute ≤ 59 ∧ second ≤ 59) :
    ∀ c ∈ frontChars year month day sep hour minute second, Utf8.IsAscii c := by
  have hdigits : ∀ n, n < 100 → ∀ c ∈ twoDigits n, Utf8.IsAscii c := fun n hn c hc =>
    isAscii_of_digit (mem_twoDigits hn hc)
  intro c hc
  simp only [frontChars, fourDigits, List.mem_cons, List.mem_append] at hc
  rcases hc with (hc | hc) | rfl | hc | rfl | hc | rfl | hc | rfl | hc | rfl | hc
  all_goals first | exact hdigits _ (by omega) c hc | decide | skip
  rcases hsep with rfl | rfl <;> decide

/-- The characters of a fraction are ASCII. -/
theorem isAscii_fractionChars {fraction : Option (List Char)} (h : FractionOk fraction) :
    ∀ c ∈ fractionChars fraction, Utf8.IsAscii c := by
  intro c hc
  cases fraction with
  | none => cases hc
  | some digits =>
    rcases List.mem_cons.mp hc with rfl | hc
    · decide
    · exact isAscii_of_digit ((h digits rfl).2 c hc)

/-- A text with a date in front and a zone at the end has no white space at its ends. -/
theorem trim_eq_false {text : String} {year month day hour minute second : Nat} {sep : Char}
    {middle : List Char} {zone : Zone} (hyear : year < 10 ^ 4) (hzone : zone.Ok)
    (h : text.toList = frontChars year month day sep hour minute second
      ++ (middle ++ zone.chars)) : (text.isEmpty || trimChanges text) = false := by
  obtain ⟨init, last, hlast, hwhite⟩ := Zone.exists_last hzone
  have hne : text.isEmpty = false := by
    rw [Bool.eq_false_iff]
    intro hempty
    rw [String.isEmpty_iff] at hempty
    rw [hempty] at h
    cases h
  have hgetLast : text.toList.getLast? = some last := by
    rw [h, hlast, ← List.append_assoc, ← List.append_assoc, List.getLast?_append]
    rfl
  have hhead : text.toList.head? = some (Nat.digitChar (year / 100 / 10)) := by
    rw [h]
    rfl
  unfold trimChanges
  rw [hne, hhead, hgetLast, Option.any_some, Option.any_some, hwhite,
    not_isWhiteSpace_digit (by omega)]
  rfl

/-! ## The fraction and the zone behind the clock -/

/-- A fraction and a zone of the profile are read. -/
theorem parseRest_of {front : List UInt8} (hfront : front.length = 19)
    {fraction : Option (List Char)} {zone : Zone} (hfraction : FractionOk fraction)
    (hzone : zone.Ok) (year month day hour minute second : Nat) :
    parseRest (front ++ bytesOf (fractionChars fraction ++ zone.chars)) year month day hour minute
        second =
      fromCalendarDate year month day >>= fun days =>
        toOffsetUtc (days * nanosPerDay
          + ((hour * 3600 + minute * 60 + second : Int) - zone.seconds) * nanosPerSec
          + fractionNanos fraction) := by
  obtain ⟨b, tail, hhead, hdigit, hpoint⟩ := Zone.exists_head hzone
  have hsplit : bytesOf (fractionChars fraction ++ zone.chars)
      = bytesOf (fractionChars fraction) ++ bytesOf zone.chars := List.map_append
  unfold parseRest
  rw [hsplit, hhead, parseFraction_of hfront hdigit hpoint hfraction, ok_bind]
  dsimp only
  rw [← List.append_assoc, parseZone_shift, ← hhead, parseZone_of hzone, ok_bind]

/-- What is not refused behind the clock is a fraction and a zone of the profile. -/
theorem of_parseRest {front rest : List UInt8} (hfront : front.length = 19)
    {year month day hour minute second : Nat}
    (h : parseRest (front ++ rest) year month day hour minute second ≠ .error .reject) :
    ValidDate year month day ∧ ∃ fraction zone, FractionOk fraction ∧ Zone.Ok zone ∧
      rest = bytesOf (fractionChars fraction ++ zone.chars) := by
  cases hread : parseFraction (front ++ rest) with
  | error fault =>
    have hreject : fault = .reject := by
      unfold parseFraction at hread
      split at hread
      · dsimp only at hread
        split at hread
        · exact (Except.error.inj hread).symm
        · cases hread
      · cases hread
    refine absurd ?_ h
    unfold parseRest
    rw [hread, hreject]
    rfl
  | ok p =>
    obtain ⟨nanosecond, idx⟩ := p
    obtain ⟨fraction, tail, hfraction, rfl, rfl, hidx⟩ := of_parseFraction hfront hread
    rcases parseZone_cases tail with hrefused | ⟨zone, hzone, rfl⟩
    · refine absurd ?_ h
      unfold parseRest
      rw [hread, ok_bind]
      dsimp only
      rw [← List.append_assoc, hidx, parseZone_shift, hrefused]
      rfl
    · have hsplit : bytesOf (fractionChars fraction) ++ bytesOf zone.chars
          = bytesOf (fractionChars fraction ++ zone.chars) := (List.map_append).symm
      rw [hsplit, parseRest_of hfront hfraction hzone] at h
      refine ⟨?_, fraction, zone, hfraction, hzone, hsplit⟩
      by_contra hdate
      have hrefused : fromCalendarDate year month day = .error .reject :=
        if_neg fun hday => hdate (Calendar.month_of_day hday)
      rw [hrefused] at h
      exact h rfl

/-! ## The texts of the grammar -/

namespace Stamp

variable (stamp : Stamp)

/-- The month and the day have two digits. -/
theorem date_lt : stamp.month < 100 ∧ stamp.day < 100 := by
  obtain ⟨⟨_, hmonth⟩, _, hday⟩ := stamp.date_ok
  have hle := Calendar.daysInMonth_le stamp.year stamp.month
  omega

/-- The bytes of a text of the grammar. -/
theorem textBytes_eq {text : String} (h : text.toList = stamp.chars) :
    textBytes text = bytesOf (frontChars stamp.year stamp.month stamp.day stamp.sep stamp.hour
      stamp.minute stamp.second) ++ bytesOf (fractionChars stamp.fraction ++ stamp.zone.chars) := by
  have hencode : textBytes text = Utf8.encode text.toList := Utf8.encode_toList text
  have hyear := stamp.year_ok
  have hascii : ∀ c ∈ stamp.chars, Utf8.IsAscii c := by
    intro c hc
    rcases List.mem_append.mp hc with hc | hc
    · exact isAscii_frontChars (by omega) stamp.date_lt stamp.sep_ok stamp.clock_ok c hc
    · rcases List.mem_append.mp hc with hc | hc
      · exact isAscii_fractionChars stamp.fraction_ok c hc
      · exact Zone.isAscii_chars stamp.zone_ok c hc
  rw [hencode, h, encode_bytesOf hascii]
  exact List.map_append

/-- The day number of the date. -/
theorem days_eq : stamp.days = daysFromCivil stamp.year stamp.month stamp.day := by
  have hepoch : daysBefore 1970 1 1 = 719528 := by
    unfold daysBefore
    rw [Calendar.sum_daysInYear]
    rfl
  unfold days
  rw [Calendar.daysFromCivil_eq stamp.date_ok, hepoch]
  rfl

/-- The nanoseconds the parser adds up are those of the microsecond the moment is in. -/
theorem instant_eq : daysFromCivil stamp.year stamp.month stamp.day * nanosPerDay
    + stamp.clock * nanosPerSec + fractionNanos stamp.fraction = stamp.micros * 1000 := by
  have hmoment : stamp.moment * 10 ^ 6 = ((stamp.days * 86400 + stamp.clock) * 10 ^ 6 : Int)
      + fractionValue stamp.fraction * 10 ^ 6 := by
    unfold moment
    push_cast
    ring
  unfold micros
  rw [hmoment, Int.floor_intCast_add, fractionNanos_eq stamp.fraction_ok, days_eq]
  ring

end Stamp

/-- **A text of the grammar is read to its microsecond**, or it is out of the calendar. -/
theorem parseInstant_chars {text : String} {stamp : Stamp} (h : text.toList = stamp.chars) :
    parseInstant text = toOffsetUtc (stamp.micros * 1000) := by
  have hyear := stamp.year_ok
  have hdate : fromCalendarDate stamp.year stamp.month stamp.day
      = .ok (daysFromCivil stamp.year stamp.month stamp.day) := if_pos stamp.date_ok.2
  have hrest : bytesOf (fractionChars stamp.fraction ++ stamp.zone.chars) ≠ [] := by
    obtain ⟨b, tail, hhead, -⟩ := Zone.exists_head stamp.zone_ok
    unfold bytesOf at hhead ⊢
    rw [List.map_append, hhead]
    exact List.append_ne_nil_of_right_ne_nil _ (List.cons_ne_nil _ _)
  rw [parseInstant_front (trim_eq_false (by omega) stamp.zone_ok h) hrest (by omega) stamp.date_lt
    stamp.sep_ok stamp.clock_ok (stamp.textBytes_eq h),
    parseRest_of rfl stamp.fraction_ok stamp.zone_ok, hdate, ok_bind, ← stamp.instant_eq]
  rfl

/-- **What is not refused is a text of the grammar.** -/
theorem exists_stamp {text : String} (h : parseInstant text ≠ .error .reject) :
    ∃ stamp : Stamp, text.toList = stamp.chars := by
  obtain ⟨year, month, day, sep, hour, minute, second, rest, hyear, hsep, hclock, hbytes, hparse⟩ :=
    exists_front h
  rw [hparse] at h
  obtain ⟨hdate, fraction, zone, hfraction, hzone, rfl⟩ := of_parseRest rfl h
  let stamp : Stamp := ⟨year, month, day, sep, hour, minute, second, fraction, zone, by omega,
    hdate, hsep, hclock, hfraction, hzone⟩
  -- the bytes are those of the stamp's characters, and bytes spell one text
  refine ⟨stamp, Utf8.encode_injective ?_⟩
  have hencode : textBytes text = Utf8.encode text.toList := Utf8.encode_toList text
  have hstamp : textBytes (String.ofList stamp.chars) = Utf8.encode stamp.chars := by
    have h := Utf8.encode_toList (String.ofList stamp.chars)
    rwa [String.toList_ofList] at h
  rw [← hencode, hbytes, ← hstamp, stamp.textBytes_eq String.toList_ofList]

/-- What an accepted text denotes. -/
theorem instant_of_parse {text : String} {t : Timestamp} (hparse : Timestamp.parse text = .ok t)
    {stamp : Stamp} (h : text.toList = stamp.chars) : t.instant = stamp.micros * 1000 := by
  unfold Timestamp.parse at hparse
  rw [parseInstant_chars h] at hparse
  unfold toOffsetUtc at hparse
  split at hparse
  · cases hparse
    rfl
  · cases hparse

/-- **The profile and its order.** A text is accepted if and only if it is of the grammar, unless
the moment it names is out of the calendar; and accepted texts compare as the microseconds they
name. -/
theorem profile_and_order :
    (∀ text : String, (∀ stamp : Stamp, text.toList = stamp.chars →
        representable (stamp.micros * 1000) = true) →
      ((∃ t, Timestamp.parse text = .ok t) ↔ ∃ stamp : Stamp, text.toList = stamp.chars)) ∧
    ∀ (left right : String) (t u : Timestamp), Timestamp.parse left = .ok t →
      Timestamp.parse right = .ok u → ∀ s s' : Stamp, left.toList = s.chars →
        right.toList = s'.chars → t.compare u = (s.micros - s'.micros).sign := by
  constructor
  · intro text hcalendar
    constructor
    · rintro ⟨t, ht⟩
      refine exists_stamp fun hrefused => ?_
      unfold Timestamp.parse at ht
      rw [hrefused] at ht
      cases ht
    · rintro ⟨stamp, hchars⟩
      refine ⟨⟨text, stamp.micros * 1000⟩, ?_⟩
      unfold Timestamp.parse
      rw [parseInstant_chars hchars, toOffsetUtc, if_pos (hcalendar stamp hchars)]
      rfl
  · intro left right t u ht hu s s' hs hs'
    unfold Timestamp.compare
    rw [instant_of_parse ht hs, instant_of_parse hu hs']
    rcases lt_trichotomy s.micros s'.micros with hlt | heq | hgt
    · rw [if_pos (by omega), Int.sign_eq_neg_one_of_neg (by omega)]
    · rw [if_neg (by omega), if_pos (by omega), heq, Int.sub_self, Int.sign_zero]
    · rw [if_neg (by omega), if_neg (by omega), Int.sign_eq_one_of_pos (by omega)]

/-- A leap day west of UTC, read to its microsecond, compares as the first of March it is. -/
theorem profile_and_order_leap_day :
    (∃ stamp : Stamp, "2024-02-29T23:59:59.1234567-00:01".toList = stamp.chars) ∧
      ∃ s s' : Stamp, Timestamp.compare
        ⟨"2024-02-29T23:59:59.1234567-00:01", 1709251259123456000⟩
        ⟨"2024-03-01t00:00:59.123456z", 1709251259123456000⟩ = (s.micros - s'.micros).sign := by
  obtain ⟨s, hs⟩ : ∃ s : Stamp, "2024-02-29T23:59:59.1234567-00:01".toList = s.chars :=
    ⟨⟨2024, 2, 29, 'T', 23, 59, 59, some ['1', '2', '3', '4', '5', '6', '7'], .offset true 0 1,
      by decide, by decide, Or.inl rfl, by decide, by decide, by decide⟩, rfl⟩
  obtain ⟨s', hs'⟩ : ∃ s' : Stamp, "2024-03-01t00:00:59.123456z".toList = s'.chars :=
    ⟨⟨2024, 3, 1, 't', 0, 0, 59, some ['1', '2', '3', '4', '5', '6'], .zulu 'z',
      by decide, by decide, Or.inr rfl, by decide, by decide, by decide⟩, rfl⟩
  have ht : Timestamp.parse "2024-02-29T23:59:59.1234567-00:01"
      = .ok ⟨"2024-02-29T23:59:59.1234567-00:01", 1709251259123456000⟩ := by
    decide +kernel
  have hu : Timestamp.parse "2024-03-01t00:00:59.123456z"
      = .ok ⟨"2024-03-01t00:00:59.123456z", 1709251259123456000⟩ := by
    decide +kernel
  refine ⟨(profile_and_order.1 _ fun stamp hstamp => ?_).mp ⟨_, ht⟩, s, s',
    profile_and_order.2 _ _ _ _ ht hu s s' hs hs'⟩
  have hinstant := instant_of_parse ht hstamp
  rw [← hinstant]
  decide

end Rfc3339

end Waitprims
