import Mathlib
import Waitprims.Core.TimestampProfile

/-! # Where the timestamp parser panics

The parser again, with every fault its machine operations have: the sums and products of its `u32`
digits, the casts to `u8` and `i8`, the character boundaries of its text slices. None of these
faults occurs, so this parser answers as the plain one does; what is left is the shift to UTC, which
panics past the year 9999.

* **`parseChecked`** — `Timestamp::parse` with those faults.
* **`parseInstantChecked_eq`** — none of them occurs.
* **`Overruns`** — the texts that name an instant after the year 9999.
* **`parseChecked_panics_iff`** — the parser panics on exactly these. -/

namespace Waitprims

namespace Rfc3339

/-! ## Machine operations -/

/-- `value * 10 + u32::from(b - b'0')`, a panic when the `u32` overflows. -/
def pushDigit (value : Nat) (b : UInt8) : Parse Nat :=
  if value * 10 + (b.toNat - 48) < 2 ^ 32 then .ok (value * 10 + (b.toNat - 48))
  else .error .panicked

/-- `parse_n_digits`. -/
def parseNDigitsChecked (slice : List UInt8) (n : Nat) : Parse Nat :=
  if slice.length ≠ n || !slice.all isAsciiDigit then .error .reject
  else slice.foldlM pushDigit 0

/-- `n as u8`; a cast that changes its number counts as a panic. -/
def asU8 (n : Nat) : Parse Nat := if n < 2 ^ 8 then .ok n else .error .panicked

/-- `sign * n as i8`; a cast or a product that leaves `i8` counts as a panic. -/
def asSignedI8 (sign : Int) (n : Nat) : Parse Int :=
  if n < 2 ^ 7 then .ok (sign * n) else .error .panicked

/-- `str::is_char_boundary`: the end, or a byte that continues no character. -/
def isCharBoundary (bytes : List UInt8) (idx : Nat) : Bool :=
  idx == bytes.length || bytes[idx]?.any fun b => b.toNat < 0x80 || 0xc0 ≤ b.toNat

/-- `&text[start..stop]`, a panic outside the text or off a character boundary. -/
def sliceText (bytes : List UInt8) (start stop : Nat) : Parse (List UInt8) :=
  if isCharBoundary bytes start && isCharBoundary bytes stop then sliceBytes bytes start stop
  else .error .panicked

/-- `padded.parse::<u32>()`, an error on overflow. -/
def parseU32 (digits : List UInt8) : Parse Nat :=
  if digitsValue digits < 2 ^ 32 then .ok (digitsValue digits) else .error .reject

/-- `microsecond.checked_mul(1000)`. -/
def checkedMul1000 (n : Nat) : Parse Nat :=
  if n * 1000 < 2 ^ 32 then .ok (n * 1000) else .error .reject

/-! ## The parser with its faults -/

/-- The optional fraction at `bytes[19]`. -/
def parseFractionChecked (bytes : List UInt8) : Parse (Nat × Nat) :=
  if bytes[19]? = some '.'.toUInt8 then do
    let stop := 20 + ((bytes.drop 20).takeWhile isAsciiDigit).length
    if stop = 20 then throw .reject
    let digits ← sliceText bytes 20 stop
    let microsecond ← parseU32 (sixDigits digits)
    let nanosecond ← checkedMul1000 microsecond
    return (nanosecond, stop)
  else .ok (0, 19)

/-- The zone at `bytes[idx..]`, as seconds east of UTC. -/
def parseZoneChecked (bytes : List UInt8) (idx : Nat) : Parse Int := do
  if bytes.length ≤ idx then throw .reject
  let b ← byteAt bytes idx
  if b = 'Z'.toUInt8 || b = 'z'.toUInt8 then
    if idx + 1 ≠ bytes.length then throw .reject
    return 0
  else if b = '+'.toUInt8 || b = '-'.toUInt8 then
    let sign : Int := if b = '+'.toUInt8 then 1 else -1
    let idx := idx + 1
    if idx + 5 ≠ bytes.length then throw .reject
    let offH ← parseNDigitsChecked (← sliceBytes bytes idx (idx + 2)) 2
    if (← byteAt bytes (idx + 2)) ≠ ':'.toUInt8 then throw .reject
    let offM ← parseNDigitsChecked (← sliceBytes bytes (idx + 3) (idx + 5)) 2
    if 23 < offH || 59 < offM then throw .reject
    let hours ← asSignedI8 sign offH
    let minutes ← asSignedI8 sign offM
    return hours * 3600 + minutes * 60
  else throw .reject

/-- `parse_instant`. -/
def parseInstantChecked (text : String) : Parse Int := do
  if text.isEmpty || trimChanges text then throw .reject
  let bytes := textBytes text
  if bytes.length < 20 then throw .reject
  let year ← parseNDigitsChecked (← sliceBytes bytes 0 4) 4
  expect bytes 4 '-'
  let month ← parseNDigitsChecked (← sliceBytes bytes 5 7) 2
  expect bytes 7 '-'
  let day ← parseNDigitsChecked (← sliceBytes bytes 8 10) 2
  let sep ← byteAt bytes 10
  if sep ≠ 'T'.toUInt8 && sep ≠ 't'.toUInt8 then throw .reject
  let hour ← parseNDigitsChecked (← sliceBytes bytes 11 13) 2
  expect bytes 13 ':'
  let minute ← parseNDigitsChecked (← sliceBytes bytes 14 16) 2
  expect bytes 16 ':'
  let second ← parseNDigitsChecked (← sliceBytes bytes 17 19) 2
  if 23 < hour || 59 < minute then throw .reject
  if 60 ≤ second then throw .reject
  let (nanosecond, idx) ← parseFractionChecked bytes
  let offset ← parseZoneChecked bytes idx
  let days ← fromCalendarDate year (← asU8 month) (← asU8 day)
  let clock : Int := (← asU8 hour) * 3600 + (← asU8 minute) * 60 + (← asU8 second)
  toOffsetUtc (days * nanosPerDay + (clock - offset) * nanosPerSec + nanosecond)

/-- `Timestamp::parse`. -/
def parseChecked (text : String) : Parse Timestamp :=
  (parseInstantChecked text).map fun instant => ⟨text, instant⟩

/-! ## No machine operation faults -/

/-- Two continuations that agree on what the first step answers. -/
theorem bind_eq_of_ok {α β : Type} {x : Parse α} {f g : α → Parse β}
    (h : ∀ a, x = .ok a → f a = g a) : x >>= f = x >>= g := by
  cases x with
  | error e => rfl
  | ok a => exact h a rfl

/-- Up to nine digits fit a `u32`. -/
theorem foldlM_pushDigit {digits : List UInt8} (h : digits.all isAsciiDigit = true)
    (hlength : digits.length ≤ 9) : digits.foldlM pushDigit 0 = .ok (digitsValue digits) := by
  induction digits using List.reverseRecOn with
  | nil => rfl
  | append_singleton digits b ih =>
    have hlt := digitsValue_lt h
    rw [List.all_append, Bool.and_eq_true] at h
    rw [List.length_append, List.length_singleton] at hlength hlt
    have hvalue : digitsValue (digits ++ [b]) = digitsValue digits * 10 + (b.toNat - 48) := by
      unfold digitsValue
      rw [List.foldl_append]
      rfl
    have hpow : 10 ^ (digits.length + 1) ≤ 10 ^ 9 := Nat.pow_le_pow_right (by norm_num) hlength
    rw [List.foldlM_append, ih h.1 (by omega)]
    show List.foldlM pushDigit (digitsValue digits) [b] = _
    rw [List.foldlM_cons]
    unfold pushDigit
    rw [hvalue] at hlt
    rw [if_pos (by omega), hvalue]
    rfl

/-- A run of up to nine digits is read without overflow. -/
theorem parseNDigitsChecked_eq (slice : List UInt8) {n : Nat} (hn : n ≤ 9) :
    parseNDigitsChecked slice n = parseNDigits slice n := by
  unfold parseNDigitsChecked parseNDigits
  by_cases h : (slice.length ≠ n || !slice.all isAsciiDigit) = true
  · rw [if_pos h, if_pos h]
  · rw [if_neg h, if_neg h]
    simp only [ne_eq, Bool.or_eq_true, decide_eq_true_iff, Bool.not_eq_true', not_or, not_not,
      Bool.not_eq_false] at h
    exact foldlM_pushDigit h.2 (by omega)

/-- A number below a hundred survives the cast. -/
theorem asU8_eq {n : Nat} (h : n < 10 ^ 2) : asU8 n = .ok n := if_pos (by omega)

/-- So it does with a sign. -/
theorem asSignedI8_eq (sign : Int) {n : Nat} (h : n < 10 ^ 2) :
    asSignedI8 sign n = .ok (sign * n) := if_pos (by omega)

/-- A byte that starts a character is at a boundary, and so is the end. -/
theorem isCharBoundary_of {bytes : List UInt8} {idx : Nat} (hle : idx ≤ bytes.length)
    (h : ∀ b, bytes[idx]? = some b → Utf8.StartsChar b) : isCharBoundary bytes idx = true := by
  unfold isCharBoundary
  cases hb : bytes[idx]? with
  | none =>
    rw [List.getElem?_eq_none_iff] at hb
    have heq : idx = bytes.length := by omega
    simp [heq]
  | some b =>
    have hstart : b.toNat < 0x80 ∨ 0xc0 ≤ b.toNat := h b hb
    simp only [Option.any_some, Bool.or_eq_true, decide_eq_true_iff]
    exact Or.inr hstart

/-- A digit is a byte of ASCII. -/
theorem ascii_of_digit {b : UInt8} (h : isAsciiDigit b = true) : b.toNat < 0x80 := by
  unfold isAsciiDigit at h
  rw [Bool.and_eq_true, decide_eq_true_iff, decide_eq_true_iff] at h
  omega

/-- The digits of a fraction are cut out at character boundaries. -/
theorem sliceText_fraction (cs : List Char)
    (hne : ((Utf8.encode cs).drop 20).takeWhile isAsciiDigit ≠ []) :
    sliceText (Utf8.encode cs) 20
        (20 + (((Utf8.encode cs).drop 20).takeWhile isAsciiDigit).length)
      = .ok (((Utf8.encode cs).drop 20).takeWhile isAsciiDigit) := by
  set bytes := Utf8.encode cs with hbytes
  set digits := (bytes.drop 20).takeWhile isAsciiDigit with hdigits
  obtain ⟨rest, hrest⟩ : ∃ rest, bytes.drop 20 = digits ++ rest :=
    ⟨_, (List.takeWhile_append_dropWhile).symm⟩
  have hpos : 0 < digits.length := List.length_pos_iff.mpr hne
  have hlength : 20 + digits.length ≤ bytes.length := by
    have h := congrArg List.length hrest
    rw [List.length_drop, List.length_append] at h
    omega
  have hdigit : ∀ i, i < digits.length → ∃ b, bytes[20 + i]? = some b ∧ b.toNat < 0x80 := by
    intro i hi
    have hget : bytes[20 + i]? = digits[i]? := by
      rw [← List.getElem?_drop, hrest, List.getElem?_append_left hi]
    obtain ⟨b, hb⟩ : ∃ b, digits[i]? = some b := ⟨_, List.getElem?_eq_getElem hi⟩
    exact ⟨b, hget.trans hb, ascii_of_digit (List.mem_takeWhile_imp (List.mem_of_getElem? hb))⟩
  have hstart : isCharBoundary bytes 20 = true := by
    apply isCharBoundary_of (by omega)
    intro b hb
    obtain ⟨b', hb', hascii⟩ := hdigit 0 hpos
    obtain rfl := Option.some.inj (hb.symm.trans hb')
    exact Or.inl hascii
  have hstop : isCharBoundary bytes (20 + digits.length) = true := by
    apply isCharBoundary_of hlength
    intro b hb
    obtain ⟨a, ha, hascii⟩ := hdigit (digits.length - 1) (by omega)
    have hnext : 20 + digits.length = 20 + (digits.length - 1) + 1 := by omega
    rw [hnext] at hb
    exact Utf8.startsChar_after ha hascii hb
  unfold sliceText sliceBytes
  rw [hstart, hstop, if_pos (by decide), if_pos ⟨by omega, hlength⟩]
  congr 1
  rw [List.drop_take, hrest, Nat.add_sub_cancel_left, List.take_left]

/-- The fraction is read without a fault. -/
theorem parseFractionChecked_eq (cs : List Char) :
    parseFractionChecked (Utf8.encode cs) = parseFraction (Utf8.encode cs) := by
  unfold parseFractionChecked parseFraction
  split
  · cases hdigits : ((Utf8.encode cs).drop 20).takeWhile isAsciiDigit with
    | nil => rfl
    | cons d digits =>
      have hslice := sliceText_fraction cs (by rw [hdigits]; exact List.cons_ne_nil _ _)
      have hall : (d :: digits).all isAsciiDigit = true := by
        rw [← hdigits]
        exact List.all_takeWhile
      obtain ⟨hsix, hlength⟩ := sixDigits_all hall
      have hlt := digitsValue_lt hsix
      rw [hlength] at hlt
      rw [hdigits] at hslice
      have hstop : ¬ 20 + (d :: digits).length = 20 := by simp
      have hu32 : parseU32 (sixDigits (d :: digits))
          = .ok (digitsValue (sixDigits (d :: digits))) := if_pos (by omega)
      have hmul : checkedMul1000 (digitsValue (sixDigits (d :: digits)))
          = .ok (digitsValue (sixDigits (d :: digits)) * 1000) := if_pos (by omega)
      dsimp only
      rw [if_neg hstop, hslice]
      show (parseU32 (sixDigits (d :: digits)) >>= _) = _
      rw [hu32]
      show (checkedMul1000 (digitsValue (sixDigits (d :: digits))) >>= _) = _
      rw [hmul]
      rfl
  · rfl

/-- A check that both parsers make. -/
theorem check_eq {α : Type} {c : Prop} [Decidable c] {a x y : Parse α} (h : ¬ c → x = y) :
    (if c then a else x) = if c then a else y := by
  split
  · rfl
  · next hc => exact h hc

/-- The zone is read without a fault. -/
theorem parseZoneChecked_eq (bytes : List UInt8) (idx : Nat) :
    parseZoneChecked bytes idx = parseZone bytes idx := by
  have htwo : ∀ slice, parseNDigitsChecked slice 2 = parseNDigits slice 2 :=
    fun slice => parseNDigitsChecked_eq slice (by norm_num)
  unfold parseZoneChecked parseZone
  simp only [↓throw_bind, htwo]
  congr 1
  refine bind_eq_of_ok fun b _ => ?_
  congr 1
  congr 1
  congr 1
  refine bind_eq_of_ok fun slice _ => bind_eq_of_ok fun offH hoffH => bind_eq_of_ok fun mark _ => ?_
  congr 1
  refine bind_eq_of_ok fun slice' _ => bind_eq_of_ok fun offM hoffM => ?_
  congr 1
  rw [asSignedI8_eq _ (parseNDigits_lt hoffH), asSignedI8_eq _ (parseNDigits_lt hoffM)]
  show Except.ok _ = Except.ok _
  congr 1
  ring

/-- **No machine operation of the parser faults**: it answers as the plain one. -/
theorem parseInstantChecked_eq (text : String) : parseInstantChecked text = parseInstant text := by
  have htwo : ∀ slice, parseNDigitsChecked slice 2 = parseNDigits slice 2 :=
    fun slice => parseNDigitsChecked_eq slice (by norm_num)
  have hfour : ∀ slice, parseNDigitsChecked slice 4 = parseNDigits slice 4 :=
    fun slice => parseNDigitsChecked_eq slice (by norm_num)
  have hfraction : parseFractionChecked (textBytes text) = parseFraction (textBytes text) := by
    have hbytes : textBytes text = Utf8.encode text.toList := Utf8.encode_toList text
    rw [hbytes]
    exact parseFractionChecked_eq text.toList
  unfold parseInstantChecked parseInstant
  simp only [↓throw_bind, htwo, hfour, hfraction, parseZoneChecked_eq]
  refine check_eq fun _ => check_eq fun _ => ?_
  refine bind_eq_of_ok fun _ _ => bind_eq_of_ok fun year _ => bind_eq_of_ok fun _ _ => ?_
  refine bind_eq_of_ok fun _ _ => bind_eq_of_ok fun month hmonth => bind_eq_of_ok fun _ _ => ?_
  refine bind_eq_of_ok fun _ _ => bind_eq_of_ok fun day hday => bind_eq_of_ok fun sep _ => ?_
  refine check_eq fun _ => ?_
  refine bind_eq_of_ok fun _ _ => bind_eq_of_ok fun hour hhour => bind_eq_of_ok fun _ _ => ?_
  refine bind_eq_of_ok fun _ _ => bind_eq_of_ok fun minute hminute => bind_eq_of_ok fun _ _ => ?_
  refine bind_eq_of_ok fun _ _ => bind_eq_of_ok fun second hsecond => ?_
  simp only [asU8_eq (parseNDigits_lt hmonth), asU8_eq (parseNDigits_lt hday),
    asU8_eq (parseNDigits_lt hhour), asU8_eq (parseNDigits_lt hminute),
    asU8_eq (parseNDigits_lt hsecond), ok_bind]

/-! ## The calendar -/

/-- **Only the last day overruns**: a date and a zone leave the calendar where the day is the last
one of the year 9999 and the clock, taken back to UTC, passes its midnight. -/
theorem not_representable_iff {year month day : Nat} {days clock offset : Int} {nanosecond : Nat}
    (hdate : fromCalendarDate year month day = .ok days) (hyear : year < 10 ^ 4)
    (hclock : 0 ≤ clock ∧ clock < 86400) (hoffset : -86400 < offset ∧ offset < 86400)
    (hnano : nanosecond < 10 ^ 9) :
    representable (days * nanosPerDay + (clock - offset) * nanosPerSec + nanosecond) = false ↔
      (year = 9999 ∧ month = 12 ∧ day = 31) ∧ 86400 ≤ clock - offset := by
  unfold fromCalendarDate at hdate
  split at hdate
  case isFalse => cases hdate
  case isTrue hday =>
    obtain rfl := Except.ok.inj hdate
    have hmonth : 1 ≤ month ∧ month ≤ 12 := by
      by_contra hout
      have hzero : daysInMonth year month = 0 := by
        unfold daysInMonth
        split
        all_goals first | rfl | omega
      omega
    have hdays : day ≤ 31 := by
      have hle : daysInMonth year month ≤ 31 := by
        unfold daysInMonth
        split
        all_goals first | omega | (split <;> omega)
      omega
    -- The days up to a date, in months counted from March.
    have hlast : daysFromCivil year month day ≤ 2932896 ∧
        (daysFromCivil year month day = 2932896 ↔ year = 9999 ∧ month = 12 ∧ day = 31) ∧
        -719529 ≤ daysFromCivil year month day := by
      unfold daysFromCivil
      obtain ⟨hlow, hhigh⟩ := hmonth
      rcases Nat.lt_or_ge year 9999 with hlt | hge
      · interval_cases month
        all_goals
          simp only [Nat.reduceLeDiff, if_true, if_false]
          omega
      · obtain rfl : year = 9999 := by omega
        interval_cases month
        all_goals
          simp only [Nat.reduceLeDiff, if_true, if_false, true_and, Nat.reduceEqDiff, false_and,
            iff_false]
          refine ⟨by omega, ?_, by omega⟩
          omega
    have hmax : maxInstant = 2932897 * nanosPerDay - 1 := by decide
    have hmin : minInstant = -4371587 * nanosPerDay := by decide
    have hday : nanosPerDay = 86400 * 1000000000 := rfl
    have hsec : nanosPerSec = 1000000000 := rfl
    unfold representable
    rw [hmax, hmin, Bool.and_eq_false_iff, decide_eq_false_iff_not, decide_eq_false_iff_not]
    obtain ⟨hle, heq, hge⟩ := hlast
    rw [← heq, hday, hsec]
    omega

/-! ## The texts that overrun -/

/-- A text of the last day whose zone, taken back to UTC, passes the last midnight. -/
structure LateStamp where
  sep : Char
  hour : Nat
  minute : Nat
  second : Nat
  fraction : Option (List Char)
  zoneHour : Nat
  zoneMinute : Nat
  sep_ok : sep = 'T' ∨ sep = 't'
  clock_ok : hour ≤ 23 ∧ minute ≤ 59 ∧ second ≤ 59
  fraction_ok : FractionOk fraction
  zone_ok : zoneHour ≤ 23 ∧ zoneMinute ≤ 59
  late : 24 * 60 ≤ (hour * 60 + minute) + (zoneHour * 60 + zoneMinute)

/-- The characters of the text. -/
def LateStamp.chars (stamp : LateStamp) : List Char :=
  ['9', '9', '9', '9', '-', '1', '2', '-', '3', '1', stamp.sep] ++ (twoDigits stamp.hour ++
    ':' :: (twoDigits stamp.minute ++ ':' :: (twoDigits stamp.second ++
      (fractionChars stamp.fraction ++
        '-' :: (twoDigits stamp.zoneHour ++ ':' :: twoDigits stamp.zoneMinute)))))

/-- The texts `9999-12-31Thh:mm:ss-hh:mm`, with or without a fraction, whose clock and offset make
up a day. -/
def Overruns (text : String) : Prop := ∃ stamp : LateStamp, text.toList = stamp.chars

/-! ## When the parser panics -/

namespace LateStamp

variable (stamp : LateStamp)

/-- The text it is in the grammar. -/
def toStamp : Stamp :=
  ⟨9999, 12, 31, stamp.sep, stamp.hour, stamp.minute, stamp.second, stamp.fraction,
    .offset true stamp.zoneHour stamp.zoneMinute, by decide, by decide, stamp.sep_ok,
    stamp.clock_ok, stamp.fraction_ok, stamp.zone_ok⟩

/-- It is the same text. -/
theorem toStamp_chars : stamp.toStamp.chars = stamp.chars := by
  have hyear : fourDigits 9999 = ['9', '9', '9', '9'] := by decide
  have hmonth : twoDigits 12 = ['1', '2'] := by decide
  have hday : twoDigits 31 = ['3', '1'] := by decide
  show frontChars 9999 12 31 stamp.sep stamp.hour stamp.minute stamp.second ++
    (fractionChars stamp.fraction ++ Zone.chars (.offset true stamp.zoneHour stamp.zoneMinute)) = _
  unfold frontChars Zone.chars chars
  rw [hyear, hmonth, hday]
  simp only [List.append_assoc, List.cons_append, List.nil_append, if_true]

end LateStamp

/-- **A text of the grammar is out of the calendar** where its clock passes the last midnight. -/
theorem Stamp.not_representable_iff (stamp : Stamp) :
    representable (stamp.micros * 1000) = false ↔
      (stamp.year = 9999 ∧ stamp.month = 12 ∧ stamp.day = 31) ∧ 86400 ≤ stamp.clock := by
  obtain ⟨hhour, hminute, hsecond⟩ := stamp.clock_ok
  have hyear := stamp.year_ok
  have hdate : fromCalendarDate stamp.year stamp.month stamp.day
      = .ok (daysFromCivil stamp.year stamp.month stamp.day) := if_pos stamp.date_ok.2
  rw [← stamp.instant_eq]
  exact Rfc3339.not_representable_iff hdate (by omega) (by omega)
    (Zone.seconds_bounds stamp.zone_ok) (fractionNanos_lt stamp.fraction_ok)

/-- The parser panics on a text of the grammar that is out of the calendar. -/
theorem panicked_iff {text : String} {stamp : Stamp} (h : text.toList = stamp.chars) :
    parseInstant text = .error .panicked ↔ representable (stamp.micros * 1000) = false := by
  rw [parseInstant_chars h, toOffsetUtc]
  cases representable (stamp.micros * 1000) <;> simp

/-- A late text panics. -/
theorem panics_of_overruns {text : String} (h : Overruns text) :
    parseInstant text = .error .panicked := by
  obtain ⟨stamp, htext⟩ := h
  have hclock : stamp.toStamp.clock = (stamp.hour * 3600 + stamp.minute * 60 + stamp.second : Int)
      + (stamp.zoneHour * 3600 + stamp.zoneMinute * 60) := by
    show (stamp.hour * 3600 + stamp.minute * 60 + stamp.second : Int)
      - -1 * (stamp.zoneHour * 3600 + stamp.zoneMinute * 60) = _
    ring
  have hlate := stamp.late
  rw [panicked_iff (htext.trans stamp.toStamp_chars.symm), Stamp.not_representable_iff, hclock]
  exact ⟨⟨rfl, rfl, rfl⟩, by omega⟩

/-- Only a late text panics. -/
theorem overruns_of_panics {text : String} (h : parseInstant text = .error .panicked) :
    Overruns text := by
  obtain ⟨stamp, htext⟩ := exists_stamp (by rw [h]; exact fun heq => nomatch heq)
  rw [panicked_iff htext, Stamp.not_representable_iff] at h
  obtain ⟨⟨hyear, hmonth, hday⟩, hlate⟩ := h
  obtain ⟨year, month, day, sep, hour, minute, second, fraction, zone, _, _, hsep, hclock,
    hfraction, hzone⟩ := stamp
  cases zone with
  | zulu letter =>
    have hpast : 86400 ≤ (hour * 3600 + minute * 60 + second : Int) - 0 := hlate
    omega
  | offset west zoneHour zoneMinute =>
    have hpast : 86400 ≤ (hour * 3600 + minute * 60 + second : Int)
      - (if west then -1 else 1) * (zoneHour * 3600 + zoneMinute * 60) := hlate
    cases west with
    | false =>
      rw [if_neg (by decide)] at hpast
      omega
    | true =>
      rw [if_pos rfl] at hpast
      obtain rfl : year = 9999 := hyear
      obtain rfl : month = 12 := hmonth
      obtain rfl : day = 31 := hday
      let stamp : LateStamp := ⟨sep, hour, minute, second, fraction, zoneHour, zoneMinute, hsep,
        hclock, hfraction, hzone, by omega⟩
      exact ⟨stamp, htext.trans stamp.toStamp_chars⟩

/-- **The timestamp parser panics on exactly the texts that overrun**, and on no other text does any
of its machine operations fault. -/
theorem parseChecked_panics_iff (text : String) :
    parseChecked text ≠ .error .panicked ↔ ¬ Overruns text := by
  have hiff : parseInstant text = .error .panicked ↔ Overruns text :=
    ⟨overruns_of_panics, panics_of_overruns⟩
  unfold parseChecked
  rw [parseInstantChecked_eq, not_iff_not, ← hiff]
  cases parseInstant text with
  | error fault =>
    constructor
    · intro h
      exact congrArg Except.error (Except.error.inj h)
    · intro h
      rw [Except.error.inj h]
      rfl
  | ok instant =>
    constructor
    · intro h
      cases h
    · intro h
      cases h

/-- A minute behind UTC, the last minute of the year 9999 panics. -/
theorem last_minute_panics :
    parseChecked "9999-12-31T23:59:59-00:01" = .error .panicked := by
  have hlate : Overruns "9999-12-31T23:59:59-00:01" :=
    ⟨⟨'T', 23, 59, 59, none, 0, 1, Or.inl rfl, by decide, (by intro _ h; cases h),
      by decide, by decide⟩, rfl⟩
  unfold parseChecked
  rw [parseInstantChecked_eq, panics_of_overruns hlate]
  rfl

end Rfc3339

end Waitprims
