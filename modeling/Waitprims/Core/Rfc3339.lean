import Mathlib

/-! # The fail-closed RFC3339 profile

Timestamps of `contract: agent-wait/v0`: extended date and time with seconds, an optional fraction,
and `Z`/`z` or a signed `hh:mm` offset. Leap seconds are rejected, fractions are padded and
truncated to six digits. A `Timestamp` keeps its wire spelling; comparison uses the UTC instant.

An instant is the number of nanoseconds since 1970-01-01T00:00:00Z in the proleptic Gregorian
calendar, as the `time` crate counts it. The two checked operations of that crate the profile uses
(the calendar date, the shift to UTC) and every byte index are modelled with the panic they have,
so that a text is accepted, rejected, or panics. -/

namespace Waitprims

/-- Why a text yields no timestamp: outside the profile, or a panic of the parser. -/
inductive ParseFault
  | reject
  | panicked
  deriving DecidableEq, Repr

/-- Result of one parsing step. -/
abbrev Parse := Except ParseFault

/-! ## Calendar arithmetic -/

/-- Nanoseconds in one second. -/
abbrev nanosPerSec : Int := 1000000000

/-- Nanoseconds in one day. -/
abbrev nanosPerDay : Int := 86400 * nanosPerSec

/-- Gregorian leap years. -/
def isLeapYear (year : Int) : Bool :=
  year % 4 == 0 && (year % 100 != 0 || year % 400 == 0)

/-- Number of days of a month, `0` outside `1..12`. -/
def daysInMonth (year : Int) : Nat → Nat
  | 1 | 3 | 5 | 7 | 8 | 10 | 12 => 31
  | 4 | 6 | 9 | 11 => 30
  | 2 => if isLeapYear year then 29 else 28
  | _ => 0

/-- Days from 1970-01-01 to a calendar date, counted from March so that the leap day comes last. -/
def daysFromCivil (year : Int) (month day : Nat) : Int :=
  let y := if month ≤ 2 then year - 1 else year
  let era := y / 400
  let yearOfEra := y - era * 400
  let dayOfYear : Int := (153 * ((month + 9) % 12) + 2) / 5 + day - 1
  let dayOfEra := yearOfEra * 365 + yearOfEra / 4 - yearOfEra / 100 + dayOfYear
  era * 146097 + dayOfEra - 719468

/-- The calendar date `(year, month, day)` a number of days after 1970-01-01. -/
def civilFromDays (days : Int) : Int × Nat × Nat :=
  let z := days + 719468
  let era := z / 146097
  let dayOfEra := z - era * 146097
  let yearOfEra := (dayOfEra - dayOfEra / 1460 + dayOfEra / 36524 - dayOfEra / 146096) / 365
  let dayOfYear := dayOfEra - (365 * yearOfEra + yearOfEra / 4 - yearOfEra / 100)
  let mp := (5 * dayOfYear + 2) / 153
  let day := dayOfYear - (153 * mp + 2) / 5 + 1
  let month := if mp < 10 then mp + 3 else mp - 9
  let year := yearOfEra + era * 400 + (if month ≤ 2 then 1 else 0)
  (year, month.toNat, day.toNat)

/-- First instant the `time` crate represents (year `-9999`, built without `large-dates`). -/
def minInstant : Int := daysFromCivil (-9999) 1 1 * nanosPerDay

/-- Last instant the `time` crate represents (year `9999`). -/
def maxInstant : Int := (daysFromCivil 9999 12 31 + 1) * nanosPerDay - 1

/-- Whether the `time` crate represents an instant. -/
def representable (instant : Int) : Bool :=
  decide (minInstant ≤ instant) && decide (instant ≤ maxInstant)

/-! ## Parsing -/

/-- UTF-8 bytes of a text. -/
def textBytes (text : String) : List UInt8 := text.toByteArray.data.toList

/-- `bytes[idx]`, a panic outside the slice. -/
def byteAt (bytes : List UInt8) (idx : Nat) : Parse UInt8 :=
  match bytes[idx]? with
  | some b => .ok b
  | none => .error .panicked

/-- `&bytes[start..stop]`, a panic outside the slice. -/
def sliceBytes (bytes : List UInt8) (start stop : Nat) : Parse (List UInt8) :=
  if start ≤ stop ∧ stop ≤ bytes.length then .ok ((bytes.take stop).drop start)
  else .error .panicked

/-- `u8::is_ascii_digit`. -/
def isAsciiDigit (b : UInt8) : Bool := decide (48 ≤ b.toNat) && decide (b.toNat ≤ 57)

/-- Value of a run of ASCII digits. -/
def digitsValue (digits : List UInt8) : Nat :=
  digits.foldl (fun value b => value * 10 + (b.toNat - 48)) 0

/-- Exactly `n` ASCII digits. -/
def parseNDigits (slice : List UInt8) (n : Nat) : Parse Nat :=
  if slice.length ≠ n || !slice.all isAsciiDigit then .error .reject
  else .ok (digitsValue slice)

/-- The byte `want` at `idx`. -/
def expect (bytes : List UInt8) (idx : Nat) (want : Char) : Parse Unit :=
  if bytes[idx]? = some want.toUInt8 then .ok () else .error .reject

/-- The Unicode `White_Space` property, which `str::trim` strips. -/
def isWhiteSpace (c : Char) : Bool :=
  let n := c.toNat
  (0x9 ≤ n && n ≤ 0xD) || n == 0x20 || n == 0x85 || n == 0xA0 || n == 0x1680 ||
    (0x2000 ≤ n && n ≤ 0x200A) || n == 0x2028 || n == 0x2029 || n == 0x202F || n == 0x205F ||
    n == 0x3000

/-- `text != text.trim()`: the first or the last character is white space. -/
def trimChanges (text : String) : Bool :=
  text.toList.head?.any isWhiteSpace || text.toList.getLast?.any isWhiteSpace

/-- Pad a fraction with zeros and truncate it to six digits. -/
def sixDigits (digits : List UInt8) : List UInt8 :=
  (digits ++ List.replicate (6 - digits.length) 48).take 6

/-- The optional fraction at `bytes[19]`: its nanoseconds and the index after it. -/
def parseFraction (bytes : List UInt8) : Parse (Nat × Nat) :=
  if bytes[19]? = some '.'.toUInt8 then
    let digits := (bytes.drop 20).takeWhile isAsciiDigit
    if digits.isEmpty then .error .reject
    else .ok (digitsValue (sixDigits digits) * 1000, 20 + digits.length)
  else .ok (0, 19)

/-- The zone at `bytes[idx..]`, as seconds east of UTC. -/
def parseZone (bytes : List UInt8) (idx : Nat) : Parse Int := do
  if bytes.length ≤ idx then throw .reject
  let b ← byteAt bytes idx
  if b = 'Z'.toUInt8 || b = 'z'.toUInt8 then
    if idx + 1 ≠ bytes.length then throw .reject
    return 0
  else if b = '+'.toUInt8 || b = '-'.toUInt8 then
    let sign : Int := if b = '+'.toUInt8 then 1 else -1
    let idx := idx + 1
    if idx + 5 ≠ bytes.length then throw .reject
    let offH ← parseNDigits (← sliceBytes bytes idx (idx + 2)) 2
    if (← byteAt bytes (idx + 2)) ≠ ':'.toUInt8 then throw .reject
    let offM ← parseNDigits (← sliceBytes bytes (idx + 3) (idx + 5)) 2
    if 23 < offH || 59 < offM then throw .reject
    return sign * (offH * 3600 + offM * 60)
  else throw .reject

/-- `Date::from_calendar_date`: the day number of a valid calendar date. -/
def fromCalendarDate (year month day : Nat) : Parse Int :=
  if 1 ≤ day ∧ day ≤ daysInMonth year month then .ok (daysFromCivil year month day)
  else .error .reject

/-- `OffsetDateTime::to_offset(UTC)`: panics when the shifted date is not representable. -/
def toOffsetUtc (instant : Int) : Parse Int :=
  if representable instant then .ok instant else .error .panicked

/-- Parse a text of the profile to its UTC instant. -/
def parseInstant (text : String) : Parse Int := do
  if text.isEmpty || trimChanges text then throw .reject
  let bytes := textBytes text
  -- YYYY-MM-DDTHH:MM:SS and a zone take at least 20 bytes.
  if bytes.length < 20 then throw .reject
  let year ← parseNDigits (← sliceBytes bytes 0 4) 4
  expect bytes 4 '-'
  let month ← parseNDigits (← sliceBytes bytes 5 7) 2
  expect bytes 7 '-'
  let day ← parseNDigits (← sliceBytes bytes 8 10) 2
  let sep ← byteAt bytes 10
  if sep ≠ 'T'.toUInt8 && sep ≠ 't'.toUInt8 then throw .reject
  let hour ← parseNDigits (← sliceBytes bytes 11 13) 2
  expect bytes 13 ':'
  let minute ← parseNDigits (← sliceBytes bytes 14 16) 2
  expect bytes 16 ':'
  let second ← parseNDigits (← sliceBytes bytes 17 19) 2
  if 23 < hour || 59 < minute then throw .reject
  -- A leap second is rejected, not clamped.
  if 60 ≤ second then throw .reject
  let (nanosecond, idx) ← parseFraction bytes
  let offset ← parseZone bytes idx
  let days ← fromCalendarDate year month day
  let clock : Int := hour * 3600 + minute * 60 + second
  toOffsetUtc (days * nanosPerDay + (clock - offset) * nanosPerSec + nanosecond)

/-! ## Timestamps -/

/-- Contract timestamp: the wire spelling and the normalized UTC instant. -/
structure Timestamp where
  /-- Original wire spelling. -/
  raw : String
  /-- Nanoseconds since the epoch, in UTC. -/
  instant : Int
  deriving DecidableEq, Repr

namespace Timestamp

/-- Parse a fail-closed RFC3339 timestamp. -/
def parse (text : String) : Parse Timestamp :=
  (parseInstant text).map fun instant => ⟨text, instant⟩

/-- Compare two timestamps by their instants: `-1`, `0` or `1`. -/
def compare (t u : Timestamp) : Int :=
  if t.instant < u.instant then -1 else if t.instant = u.instant then 0 else 1

/-- Ordering uses the normalized UTC instant. -/
instance : LE Timestamp := ⟨fun t u => t.instant ≤ u.instant⟩

instance : LT Timestamp := ⟨fun t u => t.instant < u.instant⟩

instance (t u : Timestamp) : Decidable (t ≤ u) := inferInstanceAs (Decidable (t.instant ≤ u.instant))

instance (t u : Timestamp) : Decidable (t < u) := inferInstanceAs (Decidable (t.instant < u.instant))

theorem le_def {t u : Timestamp} : t ≤ u ↔ t.instant ≤ u.instant := Iff.rfl

theorem lt_def {t u : Timestamp} : t < u ↔ t.instant < u.instant := Iff.rfl

@[simp] theorem not_lt {t u : Timestamp} : ¬ t < u ↔ u ≤ t := Int.not_lt

@[simp] theorem not_le {t u : Timestamp} : ¬ t ≤ u ↔ u < t := Int.not_le

theorem compare_lt_zero_iff (t u : Timestamp) : t.compare u < 0 ↔ t < u := by
  rw [compare, lt_def]
  split_ifs <;> omega

/-- A parsed timestamp keeps the text it was parsed from. -/
theorem parse_raw {text : String} {t : Timestamp} (h : parse text = .ok t) : t.raw = text := by
  unfold parse at h
  cases hp : parseInstant text with
  | error e => rw [hp] at h; cases h
  | ok i => rw [hp] at h; cases h; rfl

end Timestamp

/-- `std::time::Duration`: `secs` is a `u64`, `nanos` is below one second. -/
structure Duration where
  secs : Nat
  nanos : Nat
  deriving DecidableEq, Repr

/-- `Duration::from_millis`. -/
def Duration.fromMillis (ms : Nat) : Duration := ⟨ms / 1000, ms % 1000 * 1000000⟩

/-- `x as i64` of a `u64`. -/
def asI64 (n : Nat) : Int := if n % 2 ^ 64 < 2 ^ 63 then n % 2 ^ 64 else (n % 2 ^ 64 : Nat) - 2 ^ 64

/-- `{:0width}` of an integer: zeros go between the sign and the digits. -/
def padInt (width : Nat) (n : Int) : String :=
  let digits := toString n.natAbs
  if n < 0 then "-" ++ String.ofList (List.replicate (width - 1 - digits.length) '0') ++ digits
  else String.ofList (List.replicate (width - digits.length) '0') ++ digits

/-- Wire spelling of a UTC instant, with six fraction digits unless the fraction is zero. -/
def formatUtc (instant : Int) : String :=
  let (year, month, day) := civilFromDays (instant / nanosPerDay)
  let inDay := instant % nanosPerDay
  let second := inDay / nanosPerSec
  let nanos := inDay % nanosPerSec
  let base := padInt 4 year ++ "-" ++ padInt 2 month ++ "-" ++ padInt 2 day ++ "T" ++
    padInt 2 (second / 3600) ++ ":" ++ padInt 2 (second / 60 % 60) ++ ":" ++ padInt 2 (second % 60)
  if nanos = 0 then base ++ "Z" else base ++ "." ++ padInt 6 (nanos / 1000) ++ "Z"

namespace Timestamp

/-- Add a duration, saturating at this instant if the sum is not representable. -/
def saturatingAdd (t : Timestamp) (duration : Duration) : Timestamp :=
  let sum := t.instant + (asI64 duration.secs * nanosPerSec + duration.nanos)
  if representable sum then ⟨formatUtc sum, sum⟩ else t

/-- Elapsed time until `later`, or zero if `later` is not after. -/
def durationUntil (t later : Timestamp) : Duration :=
  if later.instant ≤ t.instant then ⟨0, 0⟩
  else
    let delta := later.instant - t.instant
    ⟨(delta / nanosPerSec).toNat, (delta % nanosPerSec).toNat⟩

end Timestamp

/-- Compare two wire timestamps after normalizing to UTC instants. -/
def compareTexts (left right : String) : Parse Int := do
  let l ← Timestamp.parse left
  let r ← Timestamp.parse right
  return l.compare r

end Waitprims
