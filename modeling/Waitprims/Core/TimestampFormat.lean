import Mathlib
import Waitprims.Core.TimestampAdd

/-! # The spelling of a sum

A parsed timestamp is spelled as it was written, a sum as its instant in UTC with six fraction
digits. Six digits leave out what is finer than a microsecond, and a year before year 0 gets a sign,
which is no text of the profile.

* **`fixedDigits`** — the digits of a padded number.
* **`exists_stamp_of_format`** — the spelling of an instant of the years 0 to 9999 is a text of the
  profile, and names the microsecond the instant is in.
* **`RoundTrips`** — what parsing the spelling of a timestamp has to give.
* **`roundTrips_iff`** — every timestamp of a run of additions round-trips if and only if each sum
  is a whole microsecond of these years. -/

namespace Waitprims

namespace Rfc3339

open Calendar (ValidDate)

/-! ## Padded numbers -/

/-- The last digits of a number, as many as a width. -/
def fixedDigits : Nat → Nat → List Char
  | 0, _ => []
  | width + 1, n => fixedDigits width (n / 10) ++ [Nat.digitChar (n % 10)]

/-- The digits of zero. -/
theorem fixedDigits_zero (width : Nat) : fixedDigits width 0 = List.replicate width '0' := by
  induction width with
  | zero => rfl
  | succ width ih => rw [fixedDigits, Nat.zero_div, ih, List.replicate_succ', Nat.zero_mod]; rfl

/-- A number that fits is padded to its fixed digits. -/
theorem padded_eq_fixedDigits {width n : Nat} (h : n < 10 ^ (width + 1)) :
    List.replicate (width + 1 - (Nat.toDigits 10 n).length) '0' ++ Nat.toDigits 10 n
      = fixedDigits (width + 1) n := by
  induction width generalizing n with
  | zero =>
    rw [Nat.toDigits_of_lt_base (by omega)]
    show [Nat.digitChar n] = [Nat.digitChar (n % 10)]
    rw [Nat.mod_eq_of_lt (by omega)]
  | succ width ih =>
    rcases Nat.lt_or_ge n 10 with hlt | hge
    · rw [Nat.toDigits_of_lt_base hlt, fixedDigits, Nat.div_eq_of_lt hlt, fixedDigits_zero,
        Nat.mod_eq_of_lt hlt]
      rfl
    · have hquotient : n / 10 < 10 ^ (width + 1) := by
        rw [Nat.pow_succ] at h
        omega
      have hpad : width + 1 + 1 - (Nat.toDigits 10 (n / 10) ++ [Nat.digitChar (n % 10)]).length
          = width + 1 - (Nat.toDigits 10 (n / 10)).length := by
        rw [List.length_append, List.length_singleton]
        omega
      rw [Nat.toDigits_of_base_le (by norm_num) hge, hpad, ← List.append_assoc, ih hquotient]
      rfl

/-- A number that is not negative is spelled with its fixed digits. -/
theorem padInt_toList {width : Nat} {n : Int} (hnonneg : 0 ≤ n) (h : n < 10 ^ (width + 1)) :
    (padInt (width + 1) n).toList = fixedDigits (width + 1) n.toNat := by
  have hnat : n.natAbs < 10 ^ (width + 1) := by
    have hcast : ((n.natAbs : Nat) : Int) < ((10 ^ (width + 1) : Nat) : Int) := by
      rw [Int.natAbs_of_nonneg hnonneg]
      push_cast
      exact h
    exact_mod_cast hcast
  have habs : n.natAbs = n.toNat := by omega
  unfold padInt
  dsimp only
  rw [if_neg (by omega), String.toList_append, String.toList_ofList,
    Nat.toString_eq_ofList_toDigits, String.toList_ofList, String.length_ofList, padded_eq_fixedDigits hnat, habs]

/-- Two fixed digits. -/
theorem fixedDigits_two {n : Nat} (h : n < 100) : fixedDigits 2 n = twoDigits n := by
  show [Nat.digitChar (n / 10 % 10), Nat.digitChar (n % 10)] = _
  rw [Nat.mod_eq_of_lt (by omega)]
  rfl

/-- Four fixed digits. -/
theorem fixedDigits_four {n : Nat} (h : n < 10 ^ 4) : fixedDigits 4 n = fourDigits n := by
  show [Nat.digitChar (n / 10 / 10 / 10 % 10), Nat.digitChar (n / 10 / 10 % 10),
    Nat.digitChar (n / 10 % 10), Nat.digitChar (n % 10)] = [Nat.digitChar (n / 100 / 10),
      Nat.digitChar (n / 100 % 10), Nat.digitChar (n % 100 / 10), Nat.digitChar (n % 100 % 10)]
  rw [show n / 10 / 10 / 10 % 10 = n / 100 / 10 by omega, show n / 10 / 10 = n / 100 by omega,
    show n / 10 % 10 = n % 100 / 10 by omega, show n % 10 = n % 100 % 10 by omega]

/-- Fixed digits are digits. -/
theorem mem_fixedDigits {width n : Nat} {c : Char} (h : c ∈ fixedDigits width n) :
    '0'.toNat ≤ c.toNat ∧ c.toNat ≤ '9'.toNat := by
  induction width generalizing n with
  | zero => cases h
  | succ width ih =>
    rcases List.mem_append.mp h with h | h
    · exact ih h
    · have hdigit : ∀ d : Fin 10, '0'.toNat ≤ (Nat.digitChar d.val).toNat ∧
          (Nat.digitChar d.val).toNat ≤ '9'.toNat := by
        decide
      obtain rfl := List.mem_singleton.mp h
      exact hdigit ⟨n % 10, Nat.mod_lt n (by norm_num)⟩

/-- As many as the width. -/
theorem length_fixedDigits (width n : Nat) : (fixedDigits width n).length = width := by
  induction width generalizing n with
  | zero => rfl
  | succ width ih => rw [fixedDigits, List.length_append, ih, List.length_singleton]

/-- What fixed digits write. -/
theorem decimal_fixedDigits {width n : Nat} (h : n < 10 ^ width) :
    decimal (fixedDigits width n) = n := by
  induction width generalizing n with
  | zero =>
    obtain rfl : n = 0 := by simpa using h
    rfl
  | succ width ih =>
    have hquotient : n / 10 < 10 ^ width := by
      rw [Nat.pow_succ] at h
      omega
    have hdigit : ∀ d : Fin 10, (Nat.digitChar d.val).toNat - '0'.toNat = d.val := by decide
    have hlast : (Nat.digitChar (n % 10)).toNat - '0'.toNat = n % 10 :=
      hdigit ⟨n % 10, Nat.mod_lt n (by norm_num)⟩
    have hih : (fixedDigits width (n / 10)).foldl
        (fun value c => value * 10 + (c.toNat - '0'.toNat)) 0 = n / 10 := ih hquotient
    rw [fixedDigits, decimal, List.foldl_append, hih]
    show n / 10 * 10 + ((Nat.digitChar (n % 10)).toNat - '0'.toNat) = n
    rw [hlast]
    omega

/-- A spelled fraction has the microseconds it was spelled from. -/
theorem fractionNanos_fixedDigits {n : Nat} (h : n < 10 ^ 6) :
    fractionNanos (some (fixedDigits 6 n)) = n * 1000 := by
  have hdigits : ∀ c ∈ fixedDigits 6 n, '0'.toNat ≤ c.toNat ∧ c.toNat ≤ '9'.toNat :=
    fun c hc => mem_fixedDigits hc
  have hlength : (bytesOf (fixedDigits 6 n)).length = 6 := by
    unfold bytesOf
    rw [List.length_map, length_fixedDigits]
  show digitsValue (sixDigits (bytesOf (fixedDigits 6 n))) * 1000 = n * 1000
  rw [digitsValue_sixDigits (all_bytesOf hdigits), hlength, digitsValue_bytesOf hdigits,
    decimal_fixedDigits h, Nat.mul_div_cancel _ (by norm_num)]

/-! ## The spelling of an instant -/

/-- A padded number of two digits. -/
theorem padInt_two {n : Nat} (h : n < 100) : (padInt 2 n).toList = twoDigits n := by
  rw [padInt_toList (by omega) (by omega), Int.toNat_natCast, fixedDigits_two h]

/-- The date and the clock of a spelling. -/
theorem base_toList {year month day second : Nat} (hyear : year < 10 ^ 4)
    (hdate : month < 100 ∧ day < 100) (hsecond : second < 86400) :
    (padInt 4 year ++ "-" ++ padInt 2 month ++ "-" ++ padInt 2 day ++ "T" ++
      padInt 2 ((second : Int) / 3600) ++ ":" ++ padInt 2 ((second : Int) / 60 % 60) ++ ":" ++
      padInt 2 ((second : Int) % 60)).toList
      = frontChars year month day 'T' (second / 3600) (second / 60 % 60) (second % 60) := by
  have hfour : (padInt 4 year).toList = fourDigits year := by
    rw [padInt_toList (by omega) (by omega), Int.toNat_natCast, fixedDigits_four hyear]
  have hhour : (padInt 2 ((second : Int) / 3600)).toList = twoDigits (second / 3600) :=
    @padInt_two (second / 3600) (by omega)
  have hminute : (padInt 2 ((second : Int) / 60 % 60)).toList = twoDigits (second / 60 % 60) :=
    @padInt_two (second / 60 % 60) (by omega)
  have hrest : (padInt 2 ((second : Int) % 60)).toList = twoDigits (second % 60) :=
    @padInt_two (second % 60) (by omega)
  have hdash : "-".toList = ['-'] := rfl
  have hsep : "T".toList = ['T'] := rfl
  have hcolon : ":".toList = [':'] := rfl
  simp only [String.toList_append, hfour, padInt_two hdate.1, padInt_two hdate.2, hhour, hminute,
    hrest, hdash, hsep, hcolon, frontChars, List.append_assoc, List.cons_append, List.nil_append]

/-- The first instant of year 0. -/
def yearZero : Int := daysFromCivil 0 1 1 * nanosPerDay

/-- The parts of an instant. -/
theorem instant_parts (instant : Int) :
    ∃ second nanos : Nat, (second < 86400 ∧ nanos < 10 ^ 9) ∧
      instant % nanosPerDay / nanosPerSec = second ∧ instant % nanosPerDay % nanosPerSec = nanos ∧
      instant = instant / nanosPerDay * nanosPerDay + second * nanosPerSec + nanos := by
  have hday : nanosPerDay = 86400000000000 := rfl
  have hsec : nanosPerSec = 1000000000 := rfl
  refine ⟨(instant % nanosPerDay / nanosPerSec).toNat, (instant % nanosPerDay % nanosPerSec).toNat,
    ?_⟩
  rw [hday, hsec]
  omega

/-- The date of an instant has four digits for its year from year 0 on. -/
theorem date_of_instant {instant : Int} (hrep : representable instant = true) {year : Int}
    {month day : Nat} (h : civilFromDays (instant / nanosPerDay) = (year, month, day)) :
    ValidDate year month day ∧ daysFromCivil year month day = instant / nanosPerDay ∧
      year ≤ 9999 ∧ (0 ≤ year ↔ yearZero ≤ instant) := by
  obtain ⟨hvalid, hdays⟩ := Calendar.civilFromDays_spec h
  obtain ⟨hlow, hhigh⟩ := Calendar.year_bounds hvalid
  have hday : nanosPerDay = 86400000000000 := rfl
  have hzero : yearZero = -62167219200000000000 := by decide
  rw [representable_iff] at hrep
  rw [hdays, hday] at hlow hhigh
  refine ⟨hvalid, hdays, hhigh.mpr (by omega), hlow.trans ?_⟩
  rw [hzero]
  omega

/-- **The spelling of an instant** of the years 0 to 9999 is a text of the profile, and names the
microsecond the instant is in. -/
theorem exists_stamp_of_format {instant : Int} (hrep : representable instant = true)
    (hzero : yearZero ≤ instant) :
    ∃ stamp : Stamp, (formatUtc instant).toList = stamp.chars ∧ stamp.micros = instant / 1000 := by
  obtain ⟨year, month, day, hdate⟩ :
      ∃ year month day, civilFromDays (instant / nanosPerDay) = (year, month, day) := ⟨_, _, _, rfl⟩
  obtain ⟨hvalid, hdays, hyear, hnonneg⟩ := date_of_instant hrep hdate
  have hnonneg := hnonneg.mpr hzero
  obtain ⟨second, nanos, ⟨hsecond, hnanos⟩, hsecondEq, hnanosEq, hinstant⟩ := instant_parts instant
  obtain ⟨n, rfl⟩ : ∃ n : Nat, year = n := ⟨year.toNat, by omega⟩
  have hmonth : month < 100 ∧ day < 100 := by
    have hlong := Calendar.daysInMonth_le n month
    obtain ⟨⟨_, hm⟩, _, hd⟩ := hvalid
    omega
  -- the fraction is printed to six digits and left out where it is zero
  let fraction : Option (List Char) :=
    if nanos = 0 then none else some (fixedDigits 6 (nanos / 1000))
  have hfraction : FractionOk fraction := by
    intro digits hdigits
    by_cases h : nanos = 0
    · rw [show fraction = none from if_pos h] at hdigits
      cases hdigits
    · rw [show fraction = some (fixedDigits 6 (nanos / 1000)) from if_neg h] at hdigits
      obtain rfl := Option.some.inj hdigits
      refine ⟨?_, fun c hc => mem_fixedDigits hc⟩
      rw [← List.length_pos_iff, length_fixedDigits]
      norm_num
  have hfractionNanos : fractionNanos fraction = nanos / 1000 * 1000 := by
    by_cases h : nanos = 0
    · rw [show fraction = none from if_pos h, h]
      rfl
    · rw [show fraction = some (fixedDigits 6 (nanos / 1000)) from if_neg h]
      exact fractionNanos_fixedDigits (by omega)
  let stamp : Stamp := ⟨n, month, day, 'T', second / 3600, second / 60 % 60, second % 60, fraction,
    .zulu 'Z', by omega, hvalid, Or.inl rfl, by omega, hfraction, Or.inl rfl⟩
  refine ⟨stamp, ?_, ?_⟩
  · -- the text is the characters of the stamp
    have hbase := @base_toList n month day second (by omega) hmonth hsecond
    have hmicros : (padInt 6 ((nanos : Int) / 1000)).toList = fixedDigits 6 (nanos / 1000) := by
      have hcast : (nanos : Int) / 1000 = ((nanos / 1000 : Nat) : Int) := rfl
      rw [hcast, padInt_toList (by omega) (by omega), Int.toNat_natCast]
    have hzulu : "Z".toList = ['Z'] := rfl
    have hpoint : ".".toList = ['.'] := rfl
    unfold formatUtc
    rw [hdate]
    dsimp only
    rw [hsecondEq, hnanosEq]
    by_cases h : nanos = 0
    · have hnone : stamp.fraction = none := if_pos h
      rw [if_pos (by omega), String.toList_append, hbase, Stamp.chars, hnone]
      rfl
    · have hsome : stamp.fraction = some (fixedDigits 6 (nanos / 1000)) := if_neg h
      rw [if_neg (by omega), String.toList_append, String.toList_append, String.toList_append,
        hbase, hmicros, hpoint, hzulu, Stamp.chars, hsome, List.append_assoc, List.append_assoc]
      rfl
  · -- and the stamp is the instant, cut to microseconds
    have h := stamp.instant_eq
    have hclock : stamp.clock = second := by
      show ((second / 3600 : Nat) * 3600 + (second / 60 % 60 : Nat) * 60
        + (second % 60 : Nat) : Int) - 0 = second
      omega
    rw [hclock, show fractionNanos stamp.fraction = nanos / 1000 * 1000 from hfractionNanos,
      show daysFromCivil stamp.year stamp.month stamp.day = instant / nanosPerDay from hdays] at h
    have hsec : nanosPerSec = 1000000000 := rfl
    have hday : nanosPerDay = 86400000000000 := rfl
    rw [hsec, hday] at h hinstant
    omega

/-- The spelling of an instant before year 0 starts with a sign. -/
theorem head_formatUtc {instant : Int} (hrep : representable instant = true)
    (hzero : instant < yearZero) : (formatUtc instant).toList.head? = some '-' := by
  obtain ⟨year, month, day, hdate⟩ :
      ∃ year month day, civilFromDays (instant / nanosPerDay) = (year, month, day) := ⟨_, _, _, rfl⟩
  have hnegative : year < 0 := by
    obtain ⟨-, -, -, hnonneg⟩ := date_of_instant hrep hdate
    by_contra hnot
    have hle := hnonneg.mp (by omega)
    omega
  have hyear : ∃ rest, (padInt 4 year).toList = '-' :: rest := by
    unfold padInt
    dsimp only
    rw [if_pos hnegative, String.toList_append, String.toList_append]
    exact ⟨_, rfl⟩
  obtain ⟨rest, hrest⟩ := hyear
  unfold formatUtc
  rw [hdate]
  dsimp only
  split
  all_goals
    simp only [String.toList_append, hrest, List.cons_append, List.append_assoc, List.head?_cons]

/-- A text that starts with a sign is refused. -/
theorem parse_of_head {text : String} (h : text.toList.head? = some '-') :
    parseInstant text = .error .reject := by
  by_contra hread
  obtain ⟨stamp, hchars⟩ := exists_stamp hread
  have hyear := stamp.year_ok
  have hdigit : ∀ d : Fin 10, Nat.digitChar d.val ≠ '-' := by decide
  have hhead : text.toList.head? = some (Nat.digitChar (stamp.year / 100 / 10)) := by
    rw [hchars]
    rfl
  rw [h] at hhead
  exact hdigit ⟨stamp.year / 100 / 10, by omega⟩ (Option.some.inj hhead).symm

end Rfc3339

namespace Timestamp

open Rfc3339 (yearZero)

/-! ## Reading the spelling back -/

/-- Parsing the spelling of a timestamp gives an equal one: the same instant, and the same outcome
of every comparison. -/
def RoundTrips (t : Timestamp) : Prop :=
  ∃ u, parse t.raw = .ok u ∧ u.compare t = 0 ∧ u.instant = t.instant ∧
    ∀ v : Timestamp, u.compare v = t.compare v ∧ v.compare u = v.compare t

/-- The instant an addition leads to, before it is checked against the calendar. -/
def sum (t : Timestamp) (duration : Duration) : Int :=
  t.instant + (asI64 duration.secs * nanosPerSec + duration.nanos)

/-- An addition whose instant can be spelled: it is a whole microsecond from year 0 on, unless the
addition saturates. -/
def Spellable (t : Timestamp) (duration : Duration) : Prop :=
  representable (t.sum duration) = true →
    yearZero ≤ t.sum duration ∧ t.sum duration % 1000 = 0

instance (t : Timestamp) (duration : Duration) : Decidable (t.Spellable duration) :=
  inferInstanceAs (Decidable (_ → _))

/-- Timestamps of one instant compare alike. -/
theorem roundTrips_of_instant {t u : Timestamp} (hparse : parse t.raw = .ok u)
    (h : u.instant = t.instant) : t.RoundTrips := by
  refine ⟨u, hparse, ?_, h, fun v => ?_⟩
  · unfold compare
    rw [h, if_neg (lt_irrefl _), if_pos rfl]
  · unfold compare
    rw [h]
    exact ⟨rfl, rfl⟩

/-- A parsed timestamp is its own spelling. -/
theorem roundTrips_of_parse {text : String} {t : Timestamp} (h : parse text = .ok t) :
    t.RoundTrips :=
  roundTrips_of_instant (by rw [parse_raw h, h]) rfl

/-- **The spelling of an instant** is read back to its microsecond, or refused. -/
theorem roundTrips_format_iff {instant : Int} (hrep : representable instant = true) :
    RoundTrips ⟨formatUtc instant, instant⟩ ↔ yearZero ≤ instant ∧ instant % 1000 = 0 := by
  rcases Int.lt_or_le instant yearZero with hearly | hzero
  · constructor
    · rintro ⟨u, hparse, -⟩
      unfold parse at hparse
      rw [Rfc3339.parse_of_head (Rfc3339.head_formatUtc hrep hearly)] at hparse
      cases hparse
    · rintro ⟨hle, -⟩
      omega
  · obtain ⟨stamp, hchars, hmicros⟩ := Rfc3339.exists_stamp_of_format hrep hzero
    constructor
    · rintro ⟨u, hparse, -, hinstant, -⟩
      have hu := Rfc3339.instant_of_parse hparse hchars
      rw [hinstant, hmicros] at hu
      have hfloor : instant = instant / 1000 * 1000 := hu
      exact ⟨hzero, by omega⟩
    · rintro ⟨-, hwhole⟩
      refine roundTrips_of_instant (u := ⟨formatUtc instant, instant⟩) ?_ rfl
      have hexact : stamp.micros * 1000 = instant := by omega
      unfold parse
      rw [Rfc3339.parseInstant_chars hchars, hexact, toOffsetUtc, if_pos hrep]
      rfl

/-- One addition: a timestamp that round-trips leads to one that does, if its sum can be spelled. -/
theorem roundTrips_saturatingAdd {t : Timestamp} (h : t.RoundTrips) (duration : Duration) :
    (t.saturatingAdd duration).RoundTrips ↔ t.Spellable duration := by
  unfold saturatingAdd Spellable
  dsimp only
  split
  · next hrep =>
    rw [roundTrips_format_iff hrep]
    exact ⟨fun hsum _ => hsum, fun hsum => hsum hrep⟩
  · next hrep => exact ⟨fun _ htrue => absurd htrue hrep, fun _ => h⟩

/-- **The timestamps of a run of additions**, from a parsed one on, all round-trip if and only if
every sum is a whole microsecond of the years 0 to 9999, or saturates. -/
theorem roundTrips_iff {text : String} {t : Timestamp} (hparse : parse text = .ok t)
    (durations : List Duration) :
    (∀ u ∈ durations.scanl saturatingAdd t, u.RoundTrips) ↔
      ∀ step ∈ (durations.scanl saturatingAdd t).zip durations, step.1.Spellable step.2 := by
  have hrun : ∀ (durations : List Duration) (t : Timestamp), t.RoundTrips →
      ((∀ u ∈ durations.scanl saturatingAdd t, u.RoundTrips) ↔
        ∀ step ∈ (durations.scanl saturatingAdd t).zip durations, step.1.Spellable step.2) := by
    intro durations
    induction durations with
    | nil =>
      intro t ht
      simpa using ht
    | cons duration durations ih =>
      intro t ht
      rw [List.scanl_cons, List.zip_cons_cons, List.forall_mem_cons, List.forall_mem_cons,
        ← roundTrips_saturatingAdd ht duration]
      constructor
      · rintro ⟨-, hlater⟩
        -- the next timestamp is the first one of the rest
        have hnext : (t.saturatingAdd duration).RoundTrips :=
          hlater _ (by cases durations <;> simp)
        exact ⟨hnext, (ih _ hnext).mp hlater⟩
      · rintro ⟨hnext, hsteps⟩
        exact ⟨ht, (ih _ hnext).mpr hsteps⟩
  exact hrun durations t (roundTrips_of_parse hparse)

/-- Two additions of whole microseconds round-trip. -/
theorem roundTrips_minute :
    parse "2026-08-15T16:05:00Z" = .ok ⟨"2026-08-15T16:05:00Z", 1786809900000000000⟩ ∧
      ∀ u ∈ [⟨60, 0⟩, ⟨0, 1000⟩].scanl saturatingAdd
          ⟨"2026-08-15T16:05:00Z", 1786809900000000000⟩,
        u.RoundTrips := by
  have hparse : parse "2026-08-15T16:05:00Z"
      = .ok ⟨"2026-08-15T16:05:00Z", 1786809900000000000⟩ := by
    decide +kernel
  exact ⟨hparse, (roundTrips_iff hparse _).mpr (by decide)⟩

/-- One nanosecond later is spelled as the same instant, and a sum before year 0 with a sign. -/
theorem nanosecond_not_roundTrips :
    (parse "2026-08-15T16:05:00Z" = .ok ⟨"2026-08-15T16:05:00Z", 1786809900000000000⟩ ∧
      ¬ (saturatingAdd ⟨"2026-08-15T16:05:00Z", 1786809900000000000⟩ ⟨0, 1⟩).RoundTrips) ∧
    parse "0000-01-01T00:00:00+01:00"
        = .ok ⟨"0000-01-01T00:00:00+01:00", -62167222800000000000⟩ ∧
      ¬ (saturatingAdd ⟨"0000-01-01T00:00:00+01:00", -62167222800000000000⟩ ⟨1, 0⟩).RoundTrips := by
  have hlate : parse "2026-08-15T16:05:00Z"
      = .ok ⟨"2026-08-15T16:05:00Z", 1786809900000000000⟩ := by
    decide +kernel
  have hearly : parse "0000-01-01T00:00:00+01:00"
      = .ok ⟨"0000-01-01T00:00:00+01:00", -62167222800000000000⟩ := by
    decide +kernel
  refine ⟨⟨hlate, ?_⟩, hearly, ?_⟩
  · rw [roundTrips_saturatingAdd (roundTrips_of_parse hlate)]
    decide
  · rw [roundTrips_saturatingAdd (roundTrips_of_parse hearly)]
    decide

end Timestamp

end Waitprims
