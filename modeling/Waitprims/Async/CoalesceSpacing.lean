import Mathlib
import Waitprims.Async.CoalesceBounds
import Waitprims.Core.TimestampAdd

/-! # When quiet events go out

The first quiet event of a session sets the quiet timer one interval ahead, every emit sets it
again, and nothing clears it. So what waits always has a timer, and the quiet emits keep their
distance from one another and from the first quiet event.

* **`firstQuiet`**, **`quietBursts`** — the instants that have to keep their distance.
* **`Spaced`** — what every path of decisions keeps.
* **`quiet_spaced`** — quiet bursts are an interval apart, and what waits has a timer. -/

namespace Waitprims

namespace Coalesce

open Follow

variable {σ β φ ψ ξ : Type} {set : RegistrationSet} {policy : CoalescePolicy}

/-! ## The instants that keep their distance -/

variable (set policy) in
/-- The instant of a turn with a quiet event. -/
def Entry.quietTurn? : Entry → Option Timestamp
  | .turn now _ _ events => if anyQuiet set policy events then some now else none
  | .burst .. => none

variable (set policy) in
/-- The instant a quiet event goes out before the end. -/
def Entry.quietBurst? : Entry → Option Timestamp
  | .turn .. => none
  | .burst now final burst' _ _ _ =>
    if !final && anyQuiet set policy burst'.events then some now else none

variable (set policy) in
/-- The instant of the turn that first took a quiet event. -/
def firstQuiet (history : List Entry) : Option Timestamp :=
  history.findSome? (Entry.quietTurn? set policy)

variable (set policy) in
/-- The instants of the non-final bursts with a quiet event, in order. -/
def quietBursts (history : List Entry) : List Timestamp :=
  history.filterMap (Entry.quietBurst? set policy)

/-- The instant a turn was decided at. -/
def Entry.turn? : Entry → Option Timestamp
  | .turn now .. => some now
  | .burst .. => none

/-- There is room for the interval after every turn. -/
def Roomy (policy : CoalescePolicy) (history : List Entry) : Prop :=
  ∀ entry ∈ history, ∀ now, entry.turn? = some now → now.HasRoom policy.minEmitInterval

/-- An instant and one at least an interval later. -/
def Apart (policy : CoalescePolicy) (t t' : Timestamp) : Prop :=
  t.instant + policy.minEmitInterval.span ≤ t'.instant

/-- What waited while a burst was handed over had a timer. -/
def Entry.Timed : Entry → Prop
  | .turn _ pending timer _ => pending.events ≠ [] → timer.isSome = true
  | .burst _ _ _ pending timer _ => pending.events ≠ [] → timer.isSome = true

variable (set policy) in
/-- The first quiet turn and the quiet bursts after it. -/
def marks (history : List Entry) : List Timestamp :=
  (firstQuiet set policy history).toList ++ quietBursts set policy history

section history

variable {history : List Entry} {entry : Entry}

theorem quietBursts_snoc :
    quietBursts set policy (history ++ [entry])
      = quietBursts set policy history ++ (entry.quietBurst? set policy).toList := by
  rw [quietBursts, List.filterMap_append]
  cases h : entry.quietBurst? set policy <;> simp [quietBursts, h]

theorem firstQuiet_snoc :
    firstQuiet set policy (history ++ [entry])
      = (firstQuiet set policy history).or (entry.quietTurn? set policy) := by
  rw [firstQuiet, List.findSome?_append, List.findSome?_singleton]
  rfl

/-- A burst comes after the marks so far. -/
theorem marks_burst {now : Timestamp} {final : Bool} {burst : CoalesceBurst} {pending : Pending}
    {timer : Option Timestamp} {accepted : Bool} :
    marks set policy (history ++ [.burst now final burst pending timer accepted])
      = marks set policy history ++
        (if !final && anyQuiet set policy burst.events then some now else none).toList := by
  rw [marks, firstQuiet_snoc, quietBursts_snoc]
  simp only [Entry.quietTurn?, Option.or_none, marks, List.append_assoc]
  rfl

end history

/-! ## The invariant -/

/-- **What every path keeps.** While the session goes on, the timer is at least an interval after
the first quiet turn and after every quiet burst. -/
structure Spaced (set : RegistrationSet) (policy : CoalescePolicy) (b : Books) (ended : Bool) :
    Prop where
  timed : b.pending.events ≠ [] → b.timer.isSome = true
  entries : ∀ entry ∈ b.history, entry.Timed
  armed : b.timer.isSome = (firstQuiet set policy b.history).isSome
  started : firstQuiet set policy b.history = none → quietBursts set policy b.history = []
  ahead : ended = false → ∀ t ∈ marks set policy b.history, ∀ due, b.timer = some due →
    Apart policy t due
  spaced : (marks set policy b.history).Pairwise (Apart policy)

section invariant

variable {b b' : Books} {now : Timestamp} {events : List WaitEvent} {ended : Bool}
  {pending : Pending}

/-- The armed timer is exactly an interval ahead. -/
theorem apart_afterInterval (hroom : now.HasRoom policy.minEmitInterval) :
    Apart policy now (afterInterval policy now) := by
  rw [Apart, afterInterval, Timestamp.saturatingAdd_instant hroom]

/-- **A turn comes**: the first quiet one sets the timer. -/
theorem Spaced.arrived (h : Spaced set policy b false)
    (hroom : now.HasRoom policy.minEmitInterval) :
    Spaced set policy
      { b.arrived now events with timer := armedTimer set policy b.timer now events } false := by
  have hbursts : quietBursts set policy (b.arrived now events).history
      = quietBursts set policy b.history := by
    rw [Books.arrived, quietBursts_snoc]
    exact List.append_nil _
  have hentries : ∀ entry ∈ (b.arrived now events).history, entry.Timed := by
    intro entry hentry
    rcases List.mem_append.mp hentry with hentry | hentry
    · exact h.entries entry hentry
    · rw [List.mem_singleton.mp hentry]
      exact h.timed
  cases htimer : b.timer with
  | some due =>
    -- the timer was set before: nothing moves
    have hsome : (firstQuiet set policy b.history).isSome = true := by
      rw [← h.armed, htimer]
      rfl
    have hfirst : firstQuiet set policy (b.arrived now events).history
        = firstQuiet set policy b.history := by
      rw [Books.arrived, firstQuiet_snoc, Option.or_of_isSome hsome]
    have hmarks : marks set policy (b.arrived now events).history = marks set policy b.history := by
      rw [marks, hfirst, hbursts, marks]
    have harmed : armedTimer set policy (some due) now events = some due := by simp [armedTimer]
    rw [harmed]
    refine ⟨fun _ => rfl, hentries, ?_, ?_, ?_, ?_⟩
    · rw [hfirst, hsome]
      rfl
    · rw [hfirst, hbursts]
      exact h.started
    · rw [hmarks, ← htimer]
      exact h.ahead
    · rw [hmarks]
      exact h.spaced
  | none =>
    -- no quiet event so far: nothing waits, and no quiet burst went out
    have hnone : firstQuiet set policy b.history = none := by
      have harmed := h.armed
      rw [htimer] at harmed
      exact Option.not_isSome_iff_eq_none.mp (by rw [← harmed]; simp)
    have hfirst : firstQuiet set policy (b.arrived now events).history
        = if anyQuiet set policy events then some now else none := by
      rw [Books.arrived, firstQuiet_snoc, hnone]
      rfl
    have hempty : b.pending.events = [] := by
      by_contra hsome
      have htimed := h.timed hsome
      rw [htimer] at htimed
      cases htimed
    have hmarks : marks set policy (b.arrived now events).history
        = (if anyQuiet set policy events then some now else none).toList := by
      rw [marks, hfirst, hbursts, h.started hnone, List.append_nil]
    have harmed : armedTimer set policy none now events
        = if anyQuiet set policy events then some (afterInterval policy now) else none := by
      simp [armedTimer]
    rw [harmed]
    refine ⟨fun hsome => absurd hempty hsome, hentries, ?_, ?_, ?_, ?_⟩
    · rw [hfirst]
      cases anyQuiet set policy events <;> rfl
    · intro _
      rw [hbursts]
      exact h.started hnone
    · rw [hmarks]
      cases anyQuiet set policy events with
      | false =>
        intro _ t ht
        cases ht
      | true =>
        intro _ t ht due hdue
        obtain rfl : t = now := by simpa using ht
        obtain rfl : afterInterval policy t = due := by simpa using hdue
        exact apart_afterInterval hroom
    · rw [hmarks]
      cases anyQuiet set policy events <;> simp

/-- What waits after a push has a timer, if only quiet turns are pushed. -/
theorem Spaced.timed_push {pushed : List WaitEvent} (h : Spaced set policy b false)
    (hpush : b.pending.pushEach set pushed = .ok pending)
    (hquiet : pushed ≠ [] → anyQuiet set policy events = true) :
    pending.events ≠ [] → (armedTimer set policy b.timer now events).isSome = true := by
  intro hsome
  rw [Pending.pushEach_events hpush] at hsome
  by_cases hpushed : pushed = []
  · have hbefore : b.pending.events ≠ [] := by simpa [hpushed] using hsome
    have htimed := h.timed hbefore
    cases htimer : b.timer with
    | none =>
      rw [htimer] at htimed
      cases htimed
    | some due => simp [armedTimer]
  · exact armedTimer_isSome (hquiet hpushed)

/-- Something else waits, or nothing. -/
theorem Spaced.hold (h : Spaced set policy b ended)
    (htimed : pending.events ≠ [] → b.timer.isSome = true) :
    Spaced set policy { b with pending } ended :=
  ⟨htimed, h.entries, h.armed, h.started, h.ahead, h.spaced⟩

/-- The session ends. -/
theorem Spaced.ends (h : Spaced set policy b ended) : Spaced set policy b true :=
  ⟨h.timed, h.entries, h.armed, h.started, nofun, h.spaced⟩

variable (now) in
/-- A burst without a quiet event, or the final one, moves no mark. -/
theorem Spaced.unmarked {final : Bool} (accepted : Bool) {burst : CoalesceBurst}
    (h : Spaced set policy b ended) (hno : (!final && anyQuiet set policy burst.events) = false)
    (htimed : pending.events ≠ [] → b.timer.isSome = true) :
    Spaced set policy
      { b with history := b.history ++ [.burst now final burst pending b.timer accepted] }
      ended := by
  have hmarks : marks set policy
      (b.history ++ [.burst now final burst pending b.timer accepted])
        = marks set policy b.history := by
    rw [marks_burst, hno]
    exact List.append_nil _
  have hfirst : firstQuiet set policy
      (b.history ++ [.burst now final burst pending b.timer accepted])
        = firstQuiet set policy b.history := by
    rw [firstQuiet_snoc]
    exact Option.or_none
  have hbursts : quietBursts set policy
      (b.history ++ [.burst now final burst pending b.timer accepted])
        = quietBursts set policy b.history := by
    rw [quietBursts_snoc, Entry.quietBurst?, hno]
    exact List.append_nil _
  refine ⟨h.timed, fun entry hentry => ?_, ?_, ?_, ?_, ?_⟩
  · rcases List.mem_append.mp hentry with hentry | hentry
    · exact h.entries entry hentry
    · rw [List.mem_singleton.mp hentry]
      exact htimed
  · rw [hfirst]
    exact h.armed
  · rw [hfirst, hbursts]
    exact h.started
  · rw [hmarks]
    exact h.ahead
  · rw [hmarks]
    exact h.spaced

/-- **A quiet emit**: the timer was due, and it is set again if the sink took the burst. -/
theorem Spaced.emit {accepted : Bool} {burst : CoalesceBurst} (h : Spaced set policy b false)
    (hroom : now.HasRoom policy.minEmitInterval) (hdue : intervalIsDue b.timer now = true) :
    Spaced set policy {
      pending := .new
      timer := if accepted then some (afterInterval policy now) else b.timer
      history := b.history ++ [.burst now false burst .new b.timer accepted] } !accepted := by
  obtain ⟨due, htimer, hle⟩ := exists_of_any hdue
  have hle : due.instant ≤ now.instant := of_decide_eq_true hle
  -- whatever went before is an interval before the timer, and the timer is not after now
  have hbefore : ∀ t ∈ marks set policy b.history, Apart policy t now := fun t ht =>
    (h.ahead rfl t ht due htimer).trans hle
  have hsome : (firstQuiet set policy b.history).isSome = true := by
    rw [← h.armed, htimer]
    rfl
  have hfirst : firstQuiet set policy (b.history ++ [.burst now false burst .new b.timer accepted])
      = firstQuiet set policy b.history := by
    rw [firstQuiet_snoc]
    exact Option.or_none
  refine ⟨fun hne => absurd rfl hne, fun entry hentry => ?_, ?_, ?_, ?_, ?_⟩
  · rcases List.mem_append.mp hentry with hentry | hentry
    · exact h.entries entry hentry
    · rw [List.mem_singleton.mp hentry]
      exact fun hne => absurd rfl hne
  · rw [hfirst, hsome, htimer]
    cases accepted <;> rfl
  · rw [hfirst]
    intro hnone
    rw [hnone] at hsome
    cases hsome
  · intro hgoes t ht due' hdue'
    obtain rfl : accepted = true := by simpa using hgoes
    obtain rfl : afterInterval policy now = due' := by simpa using hdue'
    have hnext : Apart policy now (afterInterval policy now) := apart_afterInterval hroom
    rw [marks_burst] at ht
    rcases List.mem_append.mp ht with ht | ht
    · have hspan := policy.minEmitInterval.span_nonneg
      have hnow := hbefore t ht
      unfold Apart at hnow hnext ⊢
      omega
    · obtain ⟨-, rfl⟩ : _ ∧ now = t := by simpa using ht
      exact hnext
  · rw [marks_burst, List.pairwise_append]
    refine ⟨h.spaced, ?_, fun t ht t' ht' => ?_⟩
    · split <;> simp
    · obtain ⟨-, rfl⟩ : _ ∧ now = t' := by simpa using ht'
      exact hbefore t ht

/-- **One decision** keeps the invariant. -/
theorem Spaced.step (h : Spaced set policy b false) (hroomy : Roomy policy b'.history)
    (hstep : Step set policy b b' ended) : Spaced set policy b' ended := by
  cases hstep with
  | closed => exact (h.hold fun hne => absurd rfl hne).ends
  | settled => exact h.ends
  | flushed hpush =>
    exact ((h.hold fun hne => absurd rfl hne).unmarked _ _ rfl fun hne => absurd rfl hne).ends
  | @overflowed now events hno =>
    have hroom : now.HasRoom policy.minEmitInterval := by
      refine hroomy (.turn now b.pending b.timer events) ?_ now rfl
      simp [Books.arrived]
    exact ((h.arrived hroom).hold fun hne => absurd rfl hne).ends
  | @buffered now events pending hpush hquiet =>
    have hroom : now.HasRoom policy.minEmitInterval := by
      refine hroomy (.turn now b.pending b.timer events) ?_ now rfl
      simp [Books.arrived]
    refine (h.arrived hroom).hold (h.timed_push hpush fun hne => ?_)
    exact anyQuiet_of_not_anyUrgent (by simpa using hne) hquiet
  | @emitted now events pending accepted hpush hdue =>
    have hroom : now.HasRoom policy.minEmitInterval := by
      refine hroomy (.turn now b.pending b.timer events) ?_ now rfl
      simp [Books.arrived]
    exact (h.arrived hroom).emit hroom hdue
  | @overtaken now events pending accepted hurgent hwait hpush =>
    have hroom : now.HasRoom policy.minEmitInterval := by
      refine hroomy (.turn now b.pending b.timer events) ?_ now rfl
      simp [Books.arrived]
    -- the urgent burst holds no quiet event, so the timer stays as it was armed
    have hnone : anyQuiet set policy (urgentEvents set policy events) = false := by
      rw [anyQuiet, List.any_eq_false]
      intro event hmem
      have hevent := (List.mem_filter.mp hmem).2
      simp [hevent]
    have hquiet : quietEvents set policy events ≠ [] → anyQuiet set policy events = true := by
      intro hne
      obtain ⟨event, hmem⟩ := List.exists_mem_of_ne_nil _ hne
      exact List.any_eq_true.mpr ⟨event, List.mem_of_mem_filter hmem, (List.mem_filter.mp hmem).2⟩
    have htimed : pending.events ≠ [] →
        (armedTimer set policy b.timer now events).isSome = true := h.timed_push hpush hquiet
    have harrived : Spaced set policy
        { b.arrived now events with timer := armedTimer set policy b.timer now events } false :=
      h.arrived hroom
    have hno : (!false && anyQuiet set policy (urgentEvents set policy events)) = false := by
      simpa using hnone
    have hburst := harrived.unmarked now accepted hno htimed
    cases accepted with
    | true => exact hburst.hold htimed
    | false => exact (hburst.hold fun hne => absurd rfl hne).ends

/-- There was room before if there is room now. -/
theorem Step.roomy (hstep : Step set policy b b' ended) (h : Roomy policy b'.history) :
    Roomy policy b.history := by
  have hsub : b.history ⊆ b'.history := by
    cases hstep <;> simp [Books.arrived]
  exact fun entry hentry => h entry (hsub hentry)

/-- **Every path keeps the invariant.** -/
theorem path_spaced (h : Path set policy b ended) (hroomy : Roomy policy b.history) :
    Spaced set policy b ended := by
  induction h with
  | start =>
    exact ⟨fun hne => absurd rfl hne, nofun, rfl, fun _ => rfl, nofun, List.Pairwise.nil⟩
  | step _ hstep ih => exact (ih (hstep.roomy hroomy)).step hroomy hstep

end invariant

/-- **Quiet emits are spaced, and nothing is stranded.** At every point of every run in which there
is room for the interval after every turn: what waits has a timer, now and whenever a burst was
handed over; two non-final bursts with a quiet event are at least the interval apart; and the first
quiet turn is at least the interval before each of them. -/
theorem quiet_spaced {env : Env σ β φ ψ} {sink : Sink σ CoalesceBurst ξ}
    {request : LiveWaitRequest} {fuel : Nat} {w₀ w : World σ β} {session : Session β φ ψ}
    {ended : Bool} (h : Reached env sink set request policy fuel w₀ session ended w)
    (hroomy : Roomy policy session.history) :
    (session.pending.events ≠ [] → session.nextQuietEmitAt.isSome = true) ∧
    (∀ entry ∈ session.history, entry.Timed) ∧
    (quietBursts set policy session.history).Pairwise (Apart policy) ∧
    ∀ t ∈ quietBursts set policy session.history,
      ∃ first, firstQuiet set policy session.history = some first ∧ Apart policy first t := by
  have hspaced : Spaced set policy session.books ended := path_spaced (reached_path h) hroomy
  obtain ⟨-, hbursts, hfirst⟩ := List.pairwise_append.mp hspaced.spaced
  refine ⟨hspaced.timed, hspaced.entries, hbursts, fun t ht => ?_⟩
  cases hsome : firstQuiet set policy session.history with
  | none =>
    have hnone : quietBursts set policy session.history = [] := hspaced.started hsome
    rw [hnone] at ht
    cases ht
  | some first =>
    refine ⟨first, rfl, hfirst first ?_ t ht⟩
    have hbooks : firstQuiet set policy session.books.history = some first := hsome
    rw [hbooks]
    exact Option.mem_toList.mpr rfl

/-! ## A run with two quiet emits -/

open Case in
/-- Three quiet events wait; the clock passes the interval twice before the run deadline. -/
def quietWorld : World QueueHost ResolvedStart :=
  QueueHost.world [
      ("reg:a", .event (waitEvent "reg:a" "method:a" "evt:1" "2026-08-15T16:01:00Z")),
      ("reg:a", .event (waitEvent "reg:a" "method:a" "evt:2" "2026-08-15T16:01:00Z")),
      ("reg:a", .event (waitEvent "reg:a" "method:a" "evt:3" "2026-08-15T16:01:00Z"))]
    (ts "2026-08-15T16:02:00Z")
    (List.replicate 3 (ts "2026-08-15T16:02:05Z") ++ List.replicate 3 (ts "2026-08-15T16:02:20Z")
      ++ List.replicate 3 (ts "2026-08-15T16:02:40Z") ++ [ts "2026-08-15T16:20:00Z"])

/-- The run hands over two quiet bursts, and every turn has room for the interval after it. -/
theorem quietWorld_run : ∃ history result w',
    runCoalesce queueEnv takesAll urgentSet Case.liveWaitRequest tenSeconds 12 quietWorld
        = some ((history, result), w') ∧
      (quietBursts urgentSet tenSeconds history).length = 2 ∧ Roomy tenSeconds history := by
  have hdone : ((runCoalesce queueEnv takesAll urgentSet Case.liveWaitRequest tenSeconds 12
      quietWorld).any fun last =>
        Decidable.decide ((quietBursts urgentSet tenSeconds last.1.1).length = 2) &&
          last.1.1.all fun entry => entry.turn?.all fun now =>
            representable now.instant &&
              representable (now.instant + tenSeconds.minEmitInterval.span)) = true := by
    decide +kernel
  obtain ⟨⟨⟨history, result⟩, w'⟩, hrun, hlast⟩ := exists_of_any hdone
  obtain ⟨hcount, hroom⟩ := Bool.and_eq_true_iff.mp hlast
  refine ⟨history, result, w', hrun, of_decide_eq_true hcount, fun entry hentry now hnow => ?_⟩
  have hentryRoom := List.all_eq_true.mp hroom entry hentry
  rw [hnow] at hentryRoom
  obtain ⟨hnow, hlater⟩ := Bool.and_eq_true_iff.mp hentryRoom
  exact ⟨hnow, hlater⟩

theorem quiet_spaced_twice : ∃ (session : Session ResolvedStart Registration IdToken),
    (quietBursts urgentSet tenSeconds session.history).length = 2 ∧
    (session.pending.events ≠ [] → session.nextQuietEmitAt.isSome = true) ∧
    (∀ entry ∈ session.history, entry.Timed) ∧
    (quietBursts urgentSet tenSeconds session.history).Pairwise (Apart tenSeconds) ∧
    ∀ t ∈ quietBursts urgentSet tenSeconds session.history,
      ∃ first, firstQuiet urgentSet tenSeconds session.history = some first ∧
        Apart tenSeconds first t := by
  obtain ⟨history, result, w', hrun, hcount, hroomy⟩ := quietWorld_run
  rcases runCoalesce_reached hrun with rfl | ⟨session, w, hreached, rfl⟩
  · cases hcount
  · exact ⟨session, hcount, quiet_spaced hreached hroomy⟩

end Coalesce

end Waitprims
