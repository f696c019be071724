import Mathlib
import Waitprims.Core.TimestampProfile

/-! # Adding a duration to a timestamp

A duration has its seconds in a `u64`, the sum is taken with them in an `i64`. Below `2 ^ 63`
seconds the cast changes nothing, and the sum is the later instant, or the timestamp itself where
the calendar ends. From there on the cast takes `2 ^ 64` seconds off, and the sum is an earlier
instant where the calendar has one.

* **`Duration.span`** — a duration in nanoseconds; `saturatingAdd_instant` is exact where the sum is
  representable.
* **`Timestamp.AddsExactly`** — what adding a duration has to be.
* **`addsExactly_iff`** — it is that, unless the cast wraps into the calendar. -/

namespace Waitprims

/-! ## Exact additions -/

/-- A duration in nanoseconds. -/
def Duration.span (duration : Duration) : Int := duration.secs * nanosPerSec + duration.nanos

/-- A duration as it is built: its seconds fit a `u64`, its nanoseconds are below a second. -/
structure Duration.Ok (duration : Duration) : Prop where
  secs : duration.secs < 2 ^ 64
  nanos : duration.nanos < 10 ^ 9

/-- Both an instant and the instant a duration later are representable. -/
structure Timestamp.HasRoom (t : Timestamp) (duration : Duration) : Prop where
  now : representable t.instant = true
  later : representable (t.instant + duration.span) = true

theorem Duration.span_nonneg (duration : Duration) : 0 ≤ duration.span := by
  have hsecs : (0 : Int) ≤ duration.secs * nanosPerSec :=
    Int.mul_nonneg (Int.natCast_nonneg _) (by decide)
  exact Int.add_nonneg hsecs (Int.natCast_nonneg _)

/-- The calendar in nanoseconds: from the year `-9999` to the end of the year `9999`. -/
theorem representable_iff {instant : Int} : representable instant = true ↔
    -377705116800000000000 ≤ instant ∧ instant ≤ 253402300799999999999 := by
  have hmin : minInstant = -377705116800000000000 := by decide
  have hmax : maxInstant = 253402300799999999999 := by decide
  rw [representable, hmin, hmax, Bool.and_eq_true, decide_eq_true_iff, decide_eq_true_iff]

/-- A number of seconds that fits is read as it is. -/
theorem asI64_of_lt {n : Nat} (h : n < 2 ^ 63) : asI64 n = n := by
  unfold asI64
  rw [if_pos (by omega)]
  omega

/-- A number of seconds that does not fit is read `2 ^ 64` lower. -/
theorem asI64_of_ge {n : Nat} (h : 2 ^ 63 ≤ n) (hlt : n < 2 ^ 64) : asI64 n = n - 2 ^ 64 := by
  unfold asI64
  rw [if_neg (by omega)]
  omega

/-- A duration that leads to an instant of the calendar fits. -/
theorem Timestamp.HasRoom.secs_lt {t : Timestamp} {duration : Duration} (h : t.HasRoom duration) :
    duration.secs < 2 ^ 63 := by
  obtain ⟨hnow, hlater⟩ := h
  rw [representable_iff] at hnow hlater
  have hspan : duration.span = duration.secs * 1000000000 + duration.nanos := rfl
  omega

/-- **Adding a duration is exact** where there is room for it. -/
theorem Timestamp.saturatingAdd_instant {t : Timestamp} {duration : Duration}
    (h : t.HasRoom duration) : (t.saturatingAdd duration).instant = t.instant + duration.span := by
  have hlater := h.later
  unfold Timestamp.saturatingAdd
  rw [asI64_of_lt h.secs_lt]
  dsimp only
  rw [Duration.span] at hlater ⊢
  rw [if_pos hlater]

/-- What is parsed is in the calendar. -/
theorem Timestamp.representable_of_parse {text : String} {t : Timestamp}
    (h : Timestamp.parse text = .ok t) : representable t.instant = true := by
  have hrefused : parseInstant text ≠ .error .reject := by
    intro hrefused
    unfold Timestamp.parse at h
    rw [hrefused] at h
    cases h
  obtain ⟨stamp, hchars⟩ := Rfc3339.exists_stamp hrefused
  unfold Timestamp.parse at h
  rw [Rfc3339.parseInstant_chars hchars, toOffsetUtc] at h
  split at h
  · next hok =>
    cases h
    exact hok
  · cases h

/-! ## When an addition saturates -/

namespace Timestamp

/-- What a sum is: the timestamp of the later instant, or the timestamp itself. -/
theorem saturatingAdd_cases (t : Timestamp) (duration : Duration) :
    (representable (t.instant + (asI64 duration.secs * nanosPerSec + duration.nanos)) = true ∧
      (t.saturatingAdd duration).instant
        = t.instant + (asI64 duration.secs * nanosPerSec + duration.nanos)) ∨
    (representable (t.instant + (asI64 duration.secs * nanosPerSec + duration.nanos)) = false ∧
      t.saturatingAdd duration = t) := by
  unfold saturatingAdd
  dsimp only
  split
  · next h => exact Or.inl ⟨h, rfl⟩
  · next h => exact Or.inr ⟨by simpa using h, rfl⟩

/-- Adding a duration as it has to be: the later instant where that is in the calendar and no other
timestamp otherwise, never an earlier one, never later for less, and the duration lies between. -/
structure AddsExactly (t : Timestamp) (duration : Duration) : Prop where
  exact : representable (t.instant + duration.span) = true →
    (t.saturatingAdd duration).instant = t.instant + duration.span
  saturates : representable (t.instant + duration.span) = false → t.saturatingAdd duration = t
  not_earlier : t ≤ t.saturatingAdd duration
  mono : representable (t.instant + duration.span) = true →
    ∀ less : Duration, less.Ok → less.span ≤ duration.span →
      t.saturatingAdd less ≤ t.saturatingAdd duration
  until_eq : representable (t.instant + duration.span) = true →
    t.durationUntil (t.saturatingAdd duration) = duration

/-- What lies between a timestamp and a later one. -/
theorem durationUntil_of_instant {t later : Timestamp} {duration : Duration} (h : duration.Ok)
    (hlater : later.instant = t.instant + duration.span) : t.durationUntil later = duration := by
  obtain ⟨secs, nanos⟩ := duration
  have hnanos : nanos < 10 ^ 9 := h.nanos
  have hspan : later.instant - t.instant = secs * 1000000000 + nanos := by
    rw [hlater, add_sub_cancel_left]
    rfl
  have hsec : nanosPerSec = 1000000000 := rfl
  unfold durationUntil
  rw [hspan, hsec]
  split
  · -- no time lies between them
    have hzero : secs = 0 ∧ nanos = 0 := by omega
    rw [hzero.1, hzero.2]
  · have hparts : ((secs * 1000000000 + nanos : Int) / 1000000000).toNat = secs ∧
        ((secs * 1000000000 + nanos : Int) % 1000000000).toNat = nanos := by omega
    dsimp only
    rw [hparts.1, hparts.2]

/-- A longer duration leads out of the calendar sooner. -/
theorem HasRoom.of_le {t : Timestamp} {less duration : Duration} (h : t.HasRoom duration)
    (hle : less.span ≤ duration.span) : t.HasRoom less := by
  have hnonneg := less.span_nonneg
  obtain ⟨hnow, hlater⟩ := h
  rw [representable_iff] at hnow hlater
  exact ⟨representable_iff.mpr hnow, representable_iff.mpr (by omega)⟩

/-- Below `2 ^ 63` seconds an addition is exact. -/
theorem addsExactly_of_lt {t : Timestamp} {duration : Duration}
    (hnow : representable t.instant = true) (hok : duration.Ok) (h : duration.secs < 2 ^ 63) :
    t.AddsExactly duration := by
  have hexact : representable (t.instant + duration.span) = true →
      (t.saturatingAdd duration).instant = t.instant + duration.span :=
    fun hlater => saturatingAdd_instant ⟨hnow, hlater⟩
  have hsaturates : representable (t.instant + duration.span) = false →
      t.saturatingAdd duration = t := by
    intro hlater
    have hspan : asI64 duration.secs * nanosPerSec + duration.nanos = duration.span := by
      rw [asI64_of_lt h, Duration.span]
    rcases t.saturatingAdd_cases duration with ⟨htrue, -⟩ | ⟨-, heq⟩
    · rw [hspan, hlater] at htrue
      cases htrue
    · exact heq
  refine ⟨hexact, hsaturates, ?_, ?_, ?_⟩
  · rw [le_def]
    cases hlater : representable (t.instant + duration.span) with
    | true =>
      have hnonneg := duration.span_nonneg
      rw [hexact hlater]
      omega
    | false => rw [hsaturates hlater]
  · intro hlater less _ hle
    rw [le_def, saturatingAdd_instant (HasRoom.of_le ⟨hnow, hlater⟩ hle), hexact hlater]
    omega
  · intro hlater
    exact durationUntil_of_instant hok (hexact hlater)

/-- **Adding a duration is exact** in every respect if and only if it is below `2 ^ 63` seconds, or
what the cast makes of it leads out of the calendar. -/
theorem addsExactly_iff {text : String} {t : Timestamp} (hparse : parse text = .ok t)
    {duration : Duration} (hok : duration.Ok) :
    t.AddsExactly duration ↔ duration.secs < 2 ^ 63 ∨
      representable (t.instant + duration.span - 2 ^ 64 * nanosPerSec) = false := by
  have hnow := representable_of_parse hparse
  rcases Nat.lt_or_ge duration.secs (2 ^ 63) with hlt | hge
  · exact ⟨fun _ => Or.inl hlt, fun _ => addsExactly_of_lt hnow hok hlt⟩
  have hlong : representable (t.instant + duration.span) = false := by
    by_contra hlater
    have hsecs := HasRoom.secs_lt ⟨hnow, by simpa using hlater⟩
    omega
  have hwrapped : asI64 duration.secs * nanosPerSec + duration.nanos
      = duration.span - 2 ^ 64 * nanosPerSec := by
    rw [asI64_of_ge hge hok.secs, Duration.span]
    ring
  have hcases := t.saturatingAdd_cases duration
  rw [hwrapped, ← Int.add_sub_assoc] at hcases
  constructor
  · intro h
    refine Or.inr ?_
    rcases hcases with ⟨-, hsum⟩ | ⟨hout, -⟩
    · -- a sum in the calendar is an earlier one
      have hnot := h.not_earlier
      have hsecs := hok.secs
      have hnanos := hok.nanos
      have hspan : duration.span = duration.secs * 1000000000 + duration.nanos := rfl
      have hsec : nanosPerSec = 1000000000 := rfl
      rw [le_def, hsum, hspan, hsec] at hnot
      omega
    · exact hout
  · rintro (hlt | hout)
    · omega
    rcases hcases with ⟨htrue, -⟩ | ⟨-, heq⟩
    · rw [hout] at htrue
      cases htrue
    · refine ⟨?_, fun _ => heq, by rw [heq, le_def], ?_, ?_⟩
      all_goals exact fun htrue => absurd (hlong.symm.trans htrue) (by decide)

/-- A minute is added exactly. -/
theorem addsExactly_minute :
    AddsExactly ⟨"2026-08-15T16:05:00Z", 1786809900000000000⟩ ⟨60, 0⟩ :=
  (@addsExactly_iff "2026-08-15T16:05:00Z" _ (by decide +kernel) _ ⟨by decide, by decide⟩).mpr
    (Or.inl (by decide))

/-- The longest whole duration leads one second back. -/
theorem longest_goes_back :
    parse "2026-08-15T16:05:00Z" = .ok ⟨"2026-08-15T16:05:00Z", 1786809900000000000⟩ ∧
      Duration.Ok ⟨18446744073709551615, 0⟩ ∧
      ¬ AddsExactly ⟨"2026-08-15T16:05:00Z", 1786809900000000000⟩ ⟨18446744073709551615, 0⟩ := by
  refine ⟨by decide +kernel, ⟨by decide, by decide⟩, fun h => ?_⟩
  have hback := h.not_earlier
  revert hback
  decide +kernel

end Timestamp

end Waitprims
