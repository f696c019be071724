import Mathlib
import Waitprims.Lib.Hoare
import Waitprims.Async.Coalesce

/-! # The books of a coalescing session

What is emitted, and when, depends on three things only: the pending buffer, the quiet timer and
the events that come. `Step` says once what a decision of the session does to them, and every run
of the session is a path of such steps.

* **`Books`** — the buffer, the timer and the history so far.
* **`Overtakes`** — a turn whose urgent events go out on their own.
* **`Step`**, **`Path`** — one decision, and a run of decisions.
* **`Reached`** — the sessions a run goes through; `reached_path` shows their books on a path, and
  `runCoalesce_reached` that a finished run ends in one. -/

namespace Waitprims

namespace Coalesce

open Follow Fueled

variable {σ β φ ψ ξ : Type}

/-- The pending buffer, the quiet timer and the history of a session. -/
structure Books where
  pending : Pending
  timer : Option Timestamp
  history : List Entry

/-- The books of a session. -/
def Session.books (session : Session β φ ψ) : Books :=
  ⟨session.pending, session.nextQuietEmitAt, session.history⟩

/-- A session that has handed a burst over. -/
def Session.handed (session : Session β φ ψ) (now : Timestamp) (final : Bool)
    (events : List WaitEvent) (accepted : Bool) : Session β φ ψ :=
  { session with
    history := session.history ++
      [.burst now final ⟨events⟩ session.pending session.nextQuietEmitAt accepted] }

/-- Empty books. -/
def Books.start : Books := ⟨.new, none, []⟩

/-- The books once a turn has come, before it is applied. -/
def Books.arrived (b : Books) (now : Timestamp) (events : List WaitEvent) : Books :=
  { b with history := b.history ++ [.turn now b.pending b.timer events] }

/-! ## The events of a turn -/

section turns

variable (set : RegistrationSet) (policy : CoalescePolicy)

/-- The urgent events of a turn. -/
def urgentEvents (events : List WaitEvent) : List WaitEvent :=
  events.filter fun event => isUrgent set event policy.urgentAt

/-- The quiet events of a turn. -/
def quietEvents (events : List WaitEvent) : List WaitEvent :=
  events.filter fun event => !isUrgent set event policy.urgentAt

/-- **The urgent events of this turn go out on their own**: there are some, the interval is not
over, and the quiet ones fit the buffer. -/
def Overtakes (now : Timestamp) (pending : Pending) (timer : Option Timestamp)
    (events : List WaitEvent) : Prop :=
  anyUrgent set policy events = true ∧
    intervalIsDue (armedTimer set policy timer now events) now = false ∧
    ∃ pending', pending.pushEach set (quietEvents set policy events) = .ok pending'

/-! ## Steps -/

/-- **One decision**, and whether it ends the session. -/
inductive Step : Books → Books → Bool → Prop
  /-- What waits is handed back. -/
  | closed (b : Books) : Step b { b with pending := .new } true
  /-- Nothing waits at the end. -/
  | settled {b : Books} (hempty : b.pending.isEmpty = true) : Step b b true
  /-- Everything goes out in a final burst. -/
  | flushed {b : Books} {now : Timestamp} {events : List WaitEvent} {pending : Pending}
      {accepted : Bool} (hpush : b.pending.pushEach set events = .ok pending) :
      Step b
        { b with
          pending := .new
          history :=
            b.history ++ [.burst now true ⟨pending.events⟩ .new b.timer accepted] } true
  /-- A turn that does not fit the buffer is handed back. -/
  | overflowed {b : Books} {now : Timestamp} {events : List WaitEvent}
      (hno : ¬ Overtakes set policy now b.pending b.timer events) :
      Step b
        { b.arrived now events with
          pending := .new
          timer := armedTimer set policy b.timer now events } true
  /-- A quiet turn waits. -/
  | buffered {b : Books} {now : Timestamp} {events : List WaitEvent} {pending : Pending}
      (hpush : b.pending.pushEach set events = .ok pending)
      (hquiet : anyUrgent set policy events = false) :
      Step b
        { b.arrived now events with
          pending
          timer := armedTimer set policy b.timer now events } false
  /-- The interval is over: everything goes out. -/
  | emitted {b : Books} {now : Timestamp} {events : List WaitEvent} {pending : Pending}
      {accepted : Bool} (hpush : b.pending.pushEach set events = .ok pending)
      (hdue : intervalIsDue (armedTimer set policy b.timer now events) now = true) :
      Step b
        { pending := .new
          timer := if accepted then some (afterInterval policy now)
            else armedTimer set policy b.timer now events
          history := (b.arrived now events).history ++
            [.burst now false ⟨pending.events⟩ .new
              (armedTimer set policy b.timer now events) accepted] } !accepted
  /-- The urgent events overtake what waits. -/
  | overtaken {b : Books} {now : Timestamp} {events : List WaitEvent} {pending : Pending}
      {accepted : Bool}
      (hurgent : anyUrgent set policy events = true)
      (hwait : intervalIsDue (armedTimer set policy b.timer now events) now = false)
      (hpush : b.pending.pushEach set (quietEvents set policy events) = .ok pending) :
      Step b
        { pending := if accepted then pending else .new
          timer := armedTimer set policy b.timer now events
          history := (b.arrived now events).history ++
            [.burst now false ⟨urgentEvents set policy events⟩ pending
              (armedTimer set policy b.timer now events) accepted] } !accepted

/-- **A run of decisions** from empty books; nothing follows a decision that ends it. -/
inductive Path : Books → Bool → Prop
  | start : Path .start false
  | step {b b' : Books} {ended : Bool} (hpath : Path b false) (hstep : Step set policy b b' ended) :
      Path b' ended

end turns

/-! ## Pushing -/

section pushing

variable {set : RegistrationSet} {policy : CoalescePolicy} {now : Timestamp}
  {pending pending' : Pending} {event : WaitEvent} {events urgent urgent' : List WaitEvent}
  {timer timer' : Option Timestamp}

/-- **What admitting an event requires**, and what it does to the buffer. -/
theorem Pending.tryPush_eq_ok (h : pending.tryPush set event = .ok pending') :
    ∃ reg, registration set event.registrationId = some reg ∧
      saturatingAdd pending.totalEvents 1 ≤ set.aggregateLimits.maxEvents ∧
      saturatingAdd pending.totalBytes (eventSurfaceBytes event)
        ≤ set.aggregateLimits.maxBytes ∧
      saturatingAdd (pending.perEvents.getD event.registrationId 0) 1 ≤ reg.bounds.maxEvents ∧
      saturatingAdd (pending.perBytes.getD event.registrationId 0) (eventSurfaceBytes event)
        ≤ reg.bounds.maxBytes ∧
      pending' = {
        events := pending.events ++ [event]
        totalEvents := saturatingAdd pending.totalEvents 1
        totalBytes := saturatingAdd pending.totalBytes (eventSurfaceBytes event)
        perEvents := pending.perEvents.insert event.registrationId
          (saturatingAdd (pending.perEvents.getD event.registrationId 0) 1)
        perBytes := pending.perBytes.insert event.registrationId
          (saturatingAdd (pending.perBytes.getD event.registrationId 0)
            (eventSurfaceBytes event)) } := by
  unfold Pending.tryPush at h
  dsimp only at h
  split at h
  · cases h
  · next htotal =>
    split at h
    · cases h
    · next reg hreg =>
      split at h
      · cases h
      · next hper =>
        simp only [Bool.or_eq_true, decide_eq_true_eq, not_or, not_lt] at htotal hper
        exact ⟨reg, hreg, htotal.1, htotal.2, hper.1, hper.2, (Except.ok.inj h).symm⟩

/-- An admitted event comes last. -/
theorem Pending.tryPush_events (h : pending.tryPush set event = .ok pending') :
    pending'.events = pending.events ++ [event] := by
  obtain ⟨-, -, -, -, -, -, rfl⟩ := Pending.tryPush_eq_ok h
  rfl

/-- The loop of pushes, one event at a time. -/
theorem Pending.pushEach_cons (h : pending.pushEach set (event :: events) = .ok pending') :
    ∃ between, pending.tryPush set event = .ok between ∧
      between.pushEach set events = .ok pending' := by
  rw [Pending.pushEach] at h
  cases htry : pending.tryPush set event with
  | error rid =>
    rw [htry] at h
    cases h
  | ok between =>
    rw [htry] at h
    exact ⟨between, rfl, h⟩

/-- **A turn that fits** is appended to the buffer. -/
theorem Pending.pushEach_events (h : pending.pushEach set events = .ok pending') :
    pending'.events = pending.events ++ events := by
  induction events generalizing pending with
  | nil =>
    cases h
    rw [List.append_nil]
  | cons event rest ih =>
    obtain ⟨between, htry, hrest⟩ := Pending.pushEach_cons h
    rw [ih hrest, Pending.tryPush_events htry, List.append_assoc]
    rfl

/-- A buffer that took an event is not empty. -/
theorem Pending.pushEach_nonempty (h : pending.pushEach set events = .ok pending')
    (hsome : events.isEmpty = false) : pending'.isEmpty = false := by
  have hne : events ≠ [] := by simpa using hsome
  have happend := Pending.pushEach_events h
  rw [Pending.isEmpty, happend]
  simp [hne]

/-- A loop of pushes that leaves nothing has pushed nothing. -/
theorem Pending.pushEach_empty (h : pending.pushEach set events = .ok pending')
    (hempty : pending'.isEmpty = true) : pending' = pending := by
  cases hevents : events.isEmpty with
  | true =>
    obtain rfl : events = [] := List.isEmpty_iff.mp hevents
    cases h
    rfl
  | false =>
    rw [Pending.pushEach_nonempty h hevents] at hempty
    cases hempty

/-- A quiet event arms the timer. -/
theorem armedTimer_isSome (h : anyQuiet set policy events = true) :
    (armedTimer set policy timer now events).isSome = true := by
  unfold armedTimer
  cases timer <;> simp [h]

/-- A turn without urgent events that is not empty has a quiet one. -/
theorem anyQuiet_of_not_anyUrgent (hsome : events.isEmpty = false)
    (h : anyUrgent set policy events = false) : anyQuiet set policy events = true := by
  cases events with
  | nil => cases hsome
  | cons event rest =>
    have hnone : isUrgent set event policy.urgentAt = false := by
      simp only [anyUrgent, List.any_cons, Bool.or_eq_false_iff] at h
      exact h.1
    simp [anyQuiet, hnone]

/-- **Splitting a turn** pushes its quiet events and collects its urgent ones. -/
theorem splitEach_eq_ok
    (h : splitEach set policy now pending timer urgent events = .ok (pending', timer', urgent'))
    (harmed : anyQuiet set policy events = true → timer.isSome = true) :
    pending.pushEach set (quietEvents set policy events) = .ok pending' ∧ timer' = timer ∧
      urgent' = urgent ++ urgentEvents set policy events := by
  induction events generalizing pending urgent with
  | nil =>
    cases h
    exact ⟨rfl, rfl, (List.append_nil _).symm⟩
  | cons event rest ih =>
    rw [splitEach] at h
    cases hurgent : isUrgent set event policy.urgentAt with
    | true =>
      rw [hurgent, if_pos rfl] at h
      have hrest := ih h fun hquiet => harmed (by simpa [anyQuiet, hurgent] using hquiet)
      have hq : quietEvents set policy (event :: rest) = quietEvents set policy rest := by
        simp [quietEvents, hurgent]
      have hu : urgentEvents set policy (event :: rest) = event :: urgentEvents set policy rest := by
        simp [urgentEvents, hurgent]
      rw [hq, hu]
      exact ⟨hrest.1, hrest.2.1, by rw [hrest.2.2, List.append_assoc]; rfl⟩
    | false =>
      rw [hurgent, if_neg Bool.false_ne_true] at h
      have hsome : timer.isSome = true := harmed (by simp [anyQuiet, hurgent])
      have hq : quietEvents set policy (event :: rest) = event :: quietEvents set policy rest := by
        simp [quietEvents, hurgent]
      have hu : urgentEvents set policy (event :: rest) = urgentEvents set policy rest := by
        simp [urgentEvents, hurgent]
      cases htry : pending.tryPush set event with
      | error rid =>
        rw [htry] at h
        cases h
      | ok between =>
        rw [htry, Option.or_of_isSome hsome] at h
        have hrest := ih h fun _ => hsome
        rw [hq, hu, Pending.pushEach, htry]
        exact hrest

/-- A turn that cannot be split has a quiet event that does not fit. -/
theorem splitEach_eq_error {refusal : Pending.Refusal}
    (h : splitEach set policy now pending timer urgent events = .error refusal) :
    ∀ pending', pending.pushEach set (quietEvents set policy events) ≠ .ok pending' := by
  induction events generalizing pending timer urgent with
  | nil => cases h
  | cons event rest ih =>
    rw [splitEach] at h
    cases hurgent : isUrgent set event policy.urgentAt with
    | true =>
      rw [hurgent, if_pos rfl] at h
      have hq : quietEvents set policy (event :: rest) = quietEvents set policy rest := by
        simp [quietEvents, hurgent]
      rw [hq]
      exact ih h
    | false =>
      rw [hurgent, if_neg Bool.false_ne_true] at h
      have hq : quietEvents set policy (event :: rest) = event :: quietEvents set policy rest := by
        simp [quietEvents, hurgent]
      rw [hq, Pending.pushEach]
      cases htry : pending.tryPush set event with
      | error rid => simp
      | ok between =>
        rw [htry] at h
        exact ih h

/-- **What a turn that does not fit leaves to be handed back**: all of it, in its order. -/
theorem Pending.pushEach_unsunk {refusal : Pending.Refusal}
    (h : pending.pushEach set events = .error refusal) :
    refusal.unsunk = pending.events ++ events := by
  induction events generalizing pending with
  | nil => cases h
  | cons event rest ih =>
    rw [Pending.pushEach] at h
    cases htry : pending.tryPush set event with
    | error rid =>
      rw [htry] at h
      cases h
      rfl
    | ok between =>
      rw [htry] at h
      rw [ih h, Pending.tryPush_events htry, List.append_assoc]
      rfl

/-- Where a turn is split, the quiet events up to the one that does not fit come before the urgent
ones. -/
theorem splitEach_unsunk {refusal : Pending.Refusal}
    (h : splitEach set policy now pending timer urgent events = .error refusal) :
    ∃ before after, events = before ++ after ∧ refusal.unsunk =
      pending.events ++ quietEvents set policy before
        ++ (urgent ++ urgentEvents set policy before) ++ after := by
  induction events generalizing pending timer urgent with
  | nil => cases h
  | cons event rest ih =>
    rw [splitEach] at h
    cases hurgent : isUrgent set event policy.urgentAt with
    | true =>
      rw [hurgent, if_pos rfl] at h
      obtain ⟨before, after, rfl, hunsunk⟩ := ih h
      refine ⟨event :: before, after, rfl, ?_⟩
      rw [hunsunk]
      simp [quietEvents, urgentEvents, hurgent]
    | false =>
      rw [hurgent, if_neg Bool.false_ne_true] at h
      cases htry : pending.tryPush set event with
      | error rid =>
        rw [htry] at h
        cases h
        refine ⟨[event], rest, rfl, ?_⟩
        simp [quietEvents, urgentEvents, hurgent]
      | ok between =>
        rw [htry] at h
        obtain ⟨before, after, rfl, hunsunk⟩ := ih h
        refine ⟨event :: before, after, rfl, ?_⟩
        rw [hunsunk, Pending.tryPush_events htry]
        simp [quietEvents, urgentEvents, hurgent]

end pushing

/-! ## What a turn does to the books -/

section refinement

variable {env : Env σ β φ ψ} {sink : Sink σ CoalesceBurst ξ} {set : RegistrationSet}
  {request : LiveWaitRequest} {policy : CoalescePolicy} {fuel : Nat}
  {session : Session β φ ψ} {b : Books} {now : Timestamp} {events : List WaitEvent}

/-- What a turn leaves, after books `b` with a session that goes on. -/
def Stepped (set : RegistrationSet) (policy : CoalescePolicy) (b : Books) (r : Turned β φ ψ)
    (_ : World σ β) : Prop :=
  Step set policy b r.1.books r.2.isSome

/-- What a turn leaves on a path. -/
def OnPath (set : RegistrationSet) (policy : CoalescePolicy) (r : Turned β φ ψ)
    (_ : World σ β) : Prop :=
  Path set policy r.1.books r.2.isSome

/-- Handing back empties the buffer. -/
theorem failClosed_books (err : Error) :
    Triple (fun _ => True) (failClosed env set session err)
      fun r (_ : World σ β) => r.1.books = { session.books with pending := .new } := by
  refine Triple.bind Triple.vacuous ?_
  rintro ⟨slots, err' | _⟩
  · exact Triple.pure fun w _ => rfl
  · exact Triple.pure fun w _ => rfl

/-- So does an overflow. -/
theorem overflowed_books (refusal : Pending.Refusal) :
    Triple (fun _ => True) (overflowed env set session refusal)
      fun r (_ : World σ β) => r.1.books = { session.books with pending := .new } := by
  refine Triple.bind Triple.vacuous ?_
  rintro ⟨slots, err' | _⟩
  · exact Triple.pure fun w _ => rfl
  · exact Triple.pure fun w _ => rfl

/-- A burst handed over is recorded. -/
theorem handOver_session (final : Bool) :
    Triple (fun _ => True) (handOver env sink fuel session now final events)
      fun r (_ : World σ β) => r.1 = session.handed now final events r.2.toBool := by
  refine Triple.bind Triple.vacuous fun fut => Triple.bind Triple.vacuous fun answer => ?_
  exact Triple.pure fun w _ => rfl

/-- **A quiet emit** hands over everything that waits. -/
theorem emitQuiet_books (hsome : session.pending.isEmpty = false) :
    Triple (fun _ => True) (emitQuiet env sink policy fuel session now)
      fun r (_ : World σ β) => ∃ accepted : Bool, r.2.isSome = !accepted ∧
        r.1.books = {
          pending := .new
          timer := if accepted then some (afterInterval policy now) else session.nextQuietEmitAt
          history := session.history ++
            [.burst now false ⟨session.pending.events⟩ .new session.nextQuietEmitAt accepted] } := by
  unfold emitQuiet
  rw [hsome, if_neg Bool.false_ne_true]
  refine Triple.bind (handOver_session false) ?_
  let taken : Session β φ ψ := { session with pending := .new }
  rintro ⟨session', err | _⟩
  · refine Triple.pure fun w (h : session' = taken.handed now false session.pending.events false) => ?_
    subst h
    exact ⟨false, rfl, rfl⟩
  · refine Triple.pure fun w (h : session' = taken.handed now false session.pending.events true) => ?_
    subst h
    exact ⟨true, rfl, rfl⟩

/-- An emit of everything is a step. -/
theorem emitQuiet_step {pending : Pending}
    (hpush : b.pending.pushEach set events = .ok pending)
    (hdue : intervalIsDue (armedTimer set policy b.timer now events) now = true)
    (hsome : pending.isEmpty = false) (hpending : session.pending = pending)
    (htimer : session.nextQuietEmitAt = armedTimer set policy b.timer now events)
    (hhistory : session.history = (b.arrived now events).history) :
    Triple (fun _ => True) (emitQuiet env sink policy fuel session now)
      (Stepped (σ := σ) set policy b) := by
  subst hpending
  refine (emitQuiet_books hsome).weaken fun r w h => ?_
  obtain ⟨accepted, hended, hbooks⟩ := h
  rw [Stepped, hended, hbooks, htimer, hhistory]
  exact .emitted hpush hdue

/-- An overflow of a turn that does not overtake is a step. -/
theorem overflowed_step (refusal : Pending.Refusal)
    (hno : ¬ Overtakes set policy now b.pending b.timer events)
    (htimer : session.nextQuietEmitAt = armedTimer set policy b.timer now events)
    (hhistory : session.history = (b.arrived now events).history) :
    Triple (fun _ => True) (ending (overflowed env set session refusal))
      (Stepped (σ := σ) set policy b) := by
  refine Triple.bind (overflowed_books refusal) ?_
  rintro ⟨session', result⟩
  refine Triple.pure fun w h => ?_
  show Step set policy b session'.books true
  rw [show session'.books = _ from h, Session.books, htimer, hhistory]
  exact .overflowed hno

/-- **Applying a turn** is one step. -/
theorem applyTurn_step (hpending : session.pending = b.pending)
    (htimer : session.nextQuietEmitAt = b.timer)
    (hhistory : session.history = (b.arrived now events).history) :
    Triple (fun _ => True) (applyTurn env sink set policy fuel session now events)
      (Stepped (σ := σ) set policy b) := by
  unfold applyTurn
  cases hevents : events.isEmpty with
  | true =>
    -- no event came: the buffer goes out if it is due, and waits otherwise
    obtain rfl : events = [] := List.isEmpty_iff.mp hevents
    have hpush : b.pending.pushEach set [] = .ok b.pending := rfl
    have harmed : armedTimer set policy b.timer now [] = b.timer := by simp [armedTimer, anyQuiet]
    rw [if_pos rfl]
    split
    · next hdue =>
      rw [Bool.and_eq_true, Bool.not_eq_true', htimer, hpending] at hdue
      exact emitQuiet_step hpush (by rw [harmed]; exact hdue.1) hdue.2 hpending
        (htimer.trans harmed.symm) hhistory
    · refine Triple.pure fun w _ => ?_
      have hbooks : session.books = { b.arrived now [] with
          pending := b.pending, timer := armedTimer set policy b.timer now [] } := by
        rw [Session.books, hpending, htimer, hhistory, harmed]
      rw [Stepped, hbooks]
      exact .buffered hpush rfl
  | false =>
    rw [if_neg Bool.false_ne_true]
    dsimp only
    rw [htimer, hpending]
    cases hurgent : anyUrgent set policy events with
    | true =>
      cases hdue : intervalIsDue (armedTimer set policy b.timer now events) now with
      | true =>
        rw [if_pos rfl]
        cases hpush : b.pending.pushEach set events with
        | error refusal =>
          refine overflowed_step refusal (fun hover => ?_) rfl hhistory
          rw [hover.2.1] at hdue
          cases hdue
        | ok pending =>
          exact emitQuiet_step hpush hdue (Pending.pushEach_nonempty hpush hevents) rfl rfl hhistory
      | false =>
        rw [if_neg (by simp), if_pos rfl]
        cases hsplit : splitEach set policy now b.pending (armedTimer set policy b.timer now events)
            [] events with
        | error refusal =>
          refine overflowed_step refusal (fun hover => ?_) rfl hhistory
          obtain ⟨pending', hpush⟩ := hover.2.2
          exact splitEach_eq_error hsplit pending' hpush
        | ok split =>
          obtain ⟨pending, timer, urgent⟩ := split
          obtain ⟨hpush, rfl, rfl⟩ := splitEach_eq_ok hsplit fun hquiet => armedTimer_isSome hquiet
          have hsome : (urgentEvents set policy events).isEmpty = false := by
            obtain ⟨event, hmem, hevent⟩ := List.any_eq_true.mp hurgent
            exact List.isEmpty_eq_false_iff_exists_mem.mpr
              ⟨event, List.mem_filter.mpr ⟨hmem, hevent⟩⟩
          dsimp only
          rw [List.nil_append, hsome, if_neg Bool.false_ne_true]
          let split : Session β φ ψ := { session with
            pending, nextQuietEmitAt := armedTimer set policy b.timer now events }
          refine Triple.bind (handOver_session false) ?_
          rintro ⟨session', err | _⟩
          · refine Triple.pure fun w (h : session' =
              split.handed now false (urgentEvents set policy events) false) => ?_
            subst h
            have hstep : Step set policy b _ (!false) := .overtaken hurgent hdue hpush
            rw [← hhistory] at hstep
            exact hstep
          · refine Triple.pure fun w (h : session' =
              split.handed now false (urgentEvents set policy events) true) => ?_
            subst h
            have hstep : Step set policy b _ (!true) := .overtaken hurgent hdue hpush
            rw [← hhistory] at hstep
            exact hstep
    | false =>
      -- only quiet events: the timer is armed already
      have hquiet := anyQuiet_of_not_anyUrgent hevents hurgent
      rw [if_neg (by simp), if_neg Bool.false_ne_true]
      cases hpush : b.pending.pushEach set events with
      | error refusal =>
        refine overflowed_step refusal (fun hover => ?_) rfl hhistory
        rw [hover.1] at hurgent
        cases hurgent
      | ok pending =>
        dsimp only
        rw [Option.or_of_isSome (armedTimer_isSome hquiet)]
        split
        · next hdue =>
          exact emitQuiet_step hpush hdue (Pending.pushEach_nonempty hpush hevents) rfl rfl hhistory
        · refine Triple.pure fun w _ => ?_
          show Step set policy b _ false
          rw [Session.books, hhistory]
          exact .buffered hpush hurgent

/-- Handing back ends a path. -/
theorem failClosed_path (err : Error) (hpath : Path set policy session.books false) :
    Triple (fun _ => True) (ending (failClosed env set session err))
      (OnPath (σ := σ) set policy) := by
  refine Triple.bind (failClosed_books err) ?_
  rintro ⟨session', result⟩
  refine Triple.pure fun w h => ?_
  show Path set policy session'.books true
  rw [show session'.books = _ from h]
  exact hpath.step (.closed _)

/-- **A final flush** ends a path. -/
theorem finalFlush_path (terminal : Option FollowEnd) (cancelled : Bool)
    (hpath : Path set policy session.books false) :
    Triple (fun _ => True)
      (ending (finalFlush env sink set request fuel session now events terminal cancelled))
      (OnPath (σ := σ) set policy) := by
  suffices hbooks : Triple (fun _ => True)
      (finalFlush env sink set request fuel session now events terminal cancelled)
      fun r (_ : World σ β) => Path set policy r.1.books true by
    refine Triple.bind hbooks ?_
    rintro ⟨session', result⟩
    exact Triple.pure fun w h => h
  unfold finalFlush
  cases hpush : session.pending.pushEach set events with
  | error refusal =>
    refine (overflowed_books refusal).weaken fun r w h => ?_
    rw [h]
    exact hpath.step (.closed _)
  | ok pending =>
    dsimp only
    split
    · next hempty =>
      refine Triple.pure fun w _ => ?_
      obtain rfl : pending = session.pending := Pending.pushEach_empty hpush hempty
      exact hpath.step (.settled hempty)
    · let taken : Session β φ ψ := { session with pending := .new }
      have hflushed (accepted : Bool) :
          Path set policy (taken.handed now true pending.events accepted).books true :=
        hpath.step (.flushed hpush)
      refine Triple.bind (handOver_session true) ?_
      rintro ⟨session', err | _⟩
      · refine Triple.pure fun w (h : session' = taken.handed now true pending.events false) => ?_
        subst h
        exact hflushed false
      · refine Triple.pure fun w (h : session' = taken.handed now true pending.events true) => ?_
        subst h
        exact hflushed true

/-- **A decision** goes one step along the path. -/
theorem decideCoalesce_path (cancelArm : Bool) (hpath : Path set policy session.books false) :
    Triple (fun _ => True)
      (decideCoalesce env sink set request policy fuel session now cancelArm)
      (OnPath (σ := σ) set policy) := by
  unfold decideCoalesce
  split
  · exact failClosed_path _ hpath
  · split
    · exact failClosed_path _ hpath
    · dsimp only
      refine Triple.bind Triple.vacuous fun cancelled => ?_
      split
      · exact finalFlush_path _ _ hpath
      · refine Triple.bind (applyTurn_step (b := session.books) rfl rfl rfl) ?_
        rintro ⟨session', _ | result⟩
        · refine Triple.fact (fun w h => h) fun h => ?_
          refine Triple.bind Triple.vacuous fun slots => Triple.pure fun w _ => ?_
          exact hpath.step h
        · exact Triple.pure fun w h => hpath.step h

/-- **Polling and deciding** goes one step along the path. -/
theorem pollAndDecide_path (cancelArm : Bool) (hpath : Path set policy session.books false) :
    Triple (fun _ => True)
      (pollAndDecide env sink set request policy fuel session cancelArm)
      (OnPath (σ := σ) set policy) := by
  refine Triple.bind Triple.vacuous fun slots => Triple.bind Triple.vacuous fun slots' => ?_
  exact Triple.bind Triple.vacuous fun now => decideCoalesce_path cancelArm (by exact hpath)

theorem onWake_path (hpath : Path set policy session.books false) :
    Triple (fun _ => True) (onWake env sink set request policy fuel session)
      (OnPath (σ := σ) set policy) :=
  Triple.bind Triple.vacuous fun _ => pollAndDecide_path false (by exact hpath)

theorem onCollected_path (result : Except Error Turn)
    (hpath : Path set policy session.books false) :
    Triple (fun _ => True) (onCollected env sink set request policy fuel session result)
      (OnPath (σ := σ) set policy) := by
  rcases result with err | (_ | _)
  · exact Triple.bind Triple.vacuous fun now => failClosed_path _ hpath
  · refine Triple.bind Triple.vacuous fun sleepTo => Triple.bind Triple.vacuous fun _ => ?_
    exact onWake_path (by exact hpath)
  · exact Triple.bind Triple.vacuous fun now => decideCoalesce_path false (by exact hpath)

/-- **Waiting for a turn** goes one step along the path. -/
theorem awaitTurn_path (hpath : Path set policy session.books false) :
    Triple (fun _ => True) (awaitTurn env sink set request policy fuel session)
      (OnPath (σ := σ) set policy) := by
  refine Triple.bind Triple.vacuous ?_
  rintro ⟨slots, result | _ | _⟩
  · exact onCollected_path result (by exact hpath)
  · exact pollAndDecide_path true (by exact hpath)
  · exact onWake_path (by exact hpath)

/-- **A turn of the loop** goes along the path. -/
theorem turn_path (hpath : Path set policy session.books false) :
    Triple (fun _ => True) (turn env sink set request policy fuel session)
      (OnPath (σ := σ) set policy) := by
  refine Triple.bind Triple.vacuous fun now => ?_
  split
  · exact failClosed_path _ hpath
  · refine Triple.bind Triple.vacuous fun now => Triple.bind Triple.vacuous fun cancelled => ?_
    split
    · -- something is due already: it is decided on before the turn waits
      refine Triple.bind Triple.vacuous fun slots => Triple.bind Triple.vacuous fun slots' => ?_
      refine Triple.bind Triple.vacuous fun cancelArm => Triple.bind
        (decideCoalesce_path cancelArm (by exact hpath)) ?_
      rintro ⟨session', _ | result⟩
      · exact Triple.fact (fun w h => h) fun h => (awaitTurn_path h).strengthen fun w _ => trivial
      · exact Triple.pure fun w h => h
    · exact awaitTurn_path hpath

end refinement

/-! ## Runs -/

section runs

variable (env : Env σ β φ ψ) (sink : Sink σ CoalesceBurst ξ) (set : RegistrationSet)
  (request : LiveWaitRequest) (policy : CoalescePolicy) (fuel : Nat) (w₀ : World σ β)

/-- **The sessions a run goes through**, turn by turn, and whether the turn ended it. -/
inductive Reached : Session β φ ψ → Bool → World σ β → Prop
  | start {slots : List (Slot β φ ψ)} {w w' : World σ β}
      (henter : enter env set request w₀ = some (none, w))
      (hslots : SlotSet.new env set.registrations w = some (slots, w')) :
      Reached (Session.start slots) false w'
  | turn {session session' : Session β φ ψ} {ended : Option (Except Error FollowEnd)}
      {w w' : World σ β} (hreached : Reached session false w)
      (hturn : turn env sink set request policy fuel session w = some ((session', ended), w')) :
      Reached session' ended.isSome w'

variable {env sink set request policy fuel w₀} {session : Session β φ ψ} {ended : Bool}
  {w : World σ β}

/-- **The books of every session reached are on a path.** -/
theorem reached_path (h : Reached env sink set request policy fuel w₀ session ended w) :
    Path set policy session.books ended := by
  induction h with
  | start => exact .start
  | turn hreached hturn ih => exact (turn_path ih).run trivial hturn

/-- A loop that stops has reached an ended session. -/
theorem coalesceLoop_reached {turns : Nat} {result : Except Error FollowEnd}
    {session' : Session β φ ψ} {w' : World σ β}
    (h : Reached env sink set request policy fuel w₀ session false w)
    (hloop : coalesceLoop env sink set request policy fuel turns session w
      = some ((session', result), w')) :
    Reached env sink set request policy fuel w₀ session' true w' := by
  induction turns generalizing session w with
  | zero => cases hloop
  | succ turns ih =>
    obtain ⟨⟨session₁, ended⟩, w₁, hturn, hrest⟩ := bind_eq_some hloop
    cases ended with
    | none => exact ih (h.turn hturn) hrest
    | some result₁ =>
      cases hrest
      exact h.turn hturn

/-- **A finished run** was refused at its entry, or reports the history of a session it reached. -/
theorem runCoalesce_reached {history : List Entry} {result : Except Error FollowEnd}
    {w' : World σ β}
    (hrun : runCoalesce env sink set request policy fuel w₀ = some ((history, result), w')) :
    history = [] ∨ ∃ (session : Session β φ ψ) (w : World σ β),
      Reached env sink set request policy fuel w₀ session true w ∧ session.history = history := by
  obtain ⟨refused, w₁, henter, hrun⟩ := bind_eq_some hrun
  cases refused with
  | some err =>
    cases hrun
    exact Or.inl rfl
  | none =>
    obtain ⟨slots, w₂, hslots, hrun⟩ := bind_eq_some hrun
    obtain ⟨⟨session, last⟩, w₃, hloop, hrun⟩ := bind_eq_some hrun
    obtain ⟨-, w₄, -, hrun⟩ := bind_eq_some hrun
    cases hrun
    exact Or.inr ⟨session, w₃, coalesceLoop_reached (.start henter hslots) hloop, rfl⟩

end runs

end Coalesce

end Waitprims
