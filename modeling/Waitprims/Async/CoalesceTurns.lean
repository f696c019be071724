import Mathlib
import Waitprims.Async.CoalesceBooks
import Waitprims.Async.CoalesceCustody

/-! # What goes out at a turn

A turn of a coalescing session is answered at once. Once the quiet interval is over everything goes
out; before that the urgent events go out on their own and the quiet ones wait. The events that are
to go out are a function of the turn, `dueBurst`, and the entry behind a turn of the history is the
burst of exactly these events, unless there are none or the turn does not fit the buffer.

* **`Answer`** — what a turn leaves of the books; `applyTurn_answer` is that it does.
* **`Decided`** — what one decision does, with the posture it was made under.
* **`Prompt`** — the invariant of a session: no urgent event waits, every turn is answered, and every
  burst answers a turn or is the last entry.
* **`turns_answered`** — it holds in every session reached. -/

namespace Waitprims

namespace Coalesce

open Follow Fueled

variable {σ β φ ψ ξ : Type} {env : Env σ β φ ψ} {sink : Sink σ CoalesceBurst ξ}
  {set : RegistrationSet} {request : LiveWaitRequest} {policy : CoalescePolicy} {fuel : Nat}

/-! ## The answer to a turn -/

section answer

variable (set policy) (now : Timestamp) (pending : Pending) (timer : Option Timestamp)
  (events : List WaitEvent)

/-- **What is to go out at a turn**: everything once the interval is over, else what is urgent. -/
def dueBurst : List WaitEvent :=
  if intervalIsDue (armedTimer set policy timer now events) now then pending.events ++ events
  else urgentEvents set policy events

/-- What is to wait after it. -/
def dueWait : List WaitEvent :=
  if intervalIsDue (armedTimer set policy timer now events) now then []
  else pending.events ++ quietEvents set policy events

/-- **What a turn leaves** of books `b`, and whether it ends the session. -/
inductive Answer (b : Books) : Books → Bool → Prop
  /-- It does not fit the buffer: everything is handed back. -/
  | refused (timer : Option Timestamp) :
      Answer b { b.arrived now events with pending := .new, timer } true
  /-- Nothing is to go out. -/
  | kept {pending : Pending} (timer : Option Timestamp)
      (hnone : dueBurst set policy now b.pending b.timer events = [])
      (hwait : pending.events = dueWait set policy now b.pending b.timer events) :
      Answer b { b.arrived now events with pending, timer } false
  /-- A burst goes out; the sink's `Err` ends the session. -/
  | handed {pending : Pending} {accepted : Bool} (held : Pending) (timer timer' : Option Timestamp)
      (hsome : dueBurst set policy now b.pending b.timer events ≠ [])
      (hwait : pending.events = [] ∨
        pending.events = dueWait set policy now b.pending b.timer events) :
      Answer b
        { pending
          timer
          history := (b.arrived now events).history ++
            [.burst now false ⟨dueBurst set policy now b.pending b.timer events⟩ held timer'
              accepted] } !accepted

end answer

variable {session : Session β φ ψ} {b b' : Books} {now : Timestamp} {events : List WaitEvent}
  {ended : Bool}

/-- What a turn leaves, as its answer. -/
def Answered (set : RegistrationSet) (policy : CoalescePolicy) (now : Timestamp)
    (events : List WaitEvent) (b : Books) (r : Turned β φ ψ) (_ : World σ β) : Prop :=
  Answer set policy now events b r.1.books r.2.isSome

/-- The urgent events of a turn that has some. -/
theorem urgentEvents_ne_nil (h : anyUrgent set policy events = true) :
    urgentEvents set policy events ≠ [] := by
  obtain ⟨event, hmem, hevent⟩ := List.any_eq_true.mp h
  exact List.ne_nil_of_mem (List.mem_filter.mpr ⟨hmem, hevent⟩)

/-- A turn without urgent events is quiet throughout. -/
theorem quietEvents_of_not_anyUrgent (h : anyUrgent set policy events = false) :
    urgentEvents set policy events = [] ∧ quietEvents set policy events = events := by
  have hquiet : ∀ event ∈ events, isUrgent set event policy.urgentAt = false := by
    intro event hmem
    have hnot := List.any_eq_false.mp h event hmem
    simpa using hnot
  constructor
  · refine List.filter_eq_nil_iff.mpr fun event hmem => ?_
    simp [hquiet event hmem]
  · refine List.filter_eq_self.mpr fun event hmem => ?_
    simp [hquiet event hmem]

/-- An emit of everything answers a turn once the interval is over. -/
theorem emitQuiet_answer {pending : Pending}
    (hevents : pending.events = b.pending.events ++ events)
    (hdue : intervalIsDue (armedTimer set policy b.timer now events) now = true)
    (hsome : pending.isEmpty = false) (hpending : session.pending = pending)
    (hhistory : session.history = (b.arrived now events).history) :
    Triple (fun _ => True) (emitQuiet env sink policy fuel session now)
      (Answered (σ := σ) set policy now events b) := by
  subst hpending
  have hburst : dueBurst set policy now b.pending b.timer events = session.pending.events := by
    rw [dueBurst, if_pos hdue, hevents]
  refine (emitQuiet_books hsome).weaken fun r w h => ?_
  obtain ⟨accepted, hended, hbooks⟩ := h
  rw [Answered, hended, hbooks, hhistory, ← hburst]
  refine .handed _ _ _ ?_ (Or.inl rfl)
  rw [hburst]
  exact List.isEmpty_eq_false_iff.mp hsome

/-- An overflow answers any turn. -/
theorem overflowed_answer (refusal : Pending.Refusal)
    (hhistory : session.history = (b.arrived now events).history) :
    Triple (fun _ => True) (ending (overflowed env set session refusal))
      (Answered (σ := σ) set policy now events b) := by
  refine Triple.bind (overflowed_books refusal) ?_
  rintro ⟨session', result⟩
  refine Triple.pure fun w h => ?_
  show Answer set policy now events b session'.books true
  rw [show session'.books = _ from h, Session.books, hhistory]
  exact .refused _

/-- **Applying a turn** answers it. -/
theorem applyTurn_answer (hpending : session.pending = b.pending)
    (htimer : session.nextQuietEmitAt = b.timer)
    (hhistory : session.history = (b.arrived now events).history) :
    Triple (fun _ => True) (applyTurn env sink set policy fuel session now events)
      (Answered (σ := σ) set policy now events b) := by
  have hbooks : ∀ (pending : Pending) (timer : Option Timestamp),
      dueBurst set policy now b.pending b.timer events = [] →
      pending.events = dueWait set policy now b.pending b.timer events →
      Answer set policy now events b ⟨pending, timer, session.history⟩ false := by
    intro pending timer hnone hwait
    rw [hhistory]
    exact .kept timer hnone hwait
  unfold applyTurn
  cases hevents : events.isEmpty with
  | true =>
    obtain rfl : events = [] := List.isEmpty_iff.mp hevents
    have harmed : armedTimer set policy b.timer now [] = b.timer := by simp [armedTimer, anyQuiet]
    rw [if_pos rfl]
    split
    · next hdue =>
      rw [Bool.and_eq_true, Bool.not_eq_true', htimer, hpending] at hdue
      exact emitQuiet_answer (by simp) (by rw [harmed]; exact hdue.1) hdue.2 hpending hhistory
    · next hnot =>
      refine Triple.pure fun w _ => ?_
      -- the interval is not over, or nothing waits
      rw [htimer, hpending] at hnot
      refine hbooks session.pending session.nextQuietEmitAt ?_ ?_
      · unfold dueBurst
        rw [harmed]
        split
        · next hdue =>
          rw [hdue, Bool.true_and, Bool.not_eq_true', Bool.not_eq_false] at hnot
          rw [List.append_nil]
          exact List.isEmpty_iff.mp hnot
        · rfl
      · unfold dueWait
        rw [harmed, hpending]
        split
        · next hdue =>
          rw [hdue, Bool.true_and, Bool.not_eq_true', Bool.not_eq_false] at hnot
          exact List.isEmpty_iff.mp hnot
        · exact (List.append_nil _).symm
  | false =>
    rw [if_neg Bool.false_ne_true]
    dsimp only
    rw [htimer, hpending]
    cases hurgent : anyUrgent set policy events with
    | true =>
      cases hdue : intervalIsDue (armedTimer set policy b.timer now events) now with
      | true =>
        rw [if_pos rfl]
        cases hpush : b.pending.pushEach set events with
        | error refusal => exact overflowed_answer refusal hhistory
        | ok pending =>
          exact emitQuiet_answer (Pending.pushEach_events hpush) hdue
            (Pending.pushEach_nonempty hpush hevents) rfl hhistory
      | false =>
        rw [if_neg (by simp), if_pos rfl]
        cases hsplit : splitEach set policy now b.pending (armedTimer set policy b.timer now events)
            [] events with
        | error refusal => exact overflowed_answer refusal hhistory
        | ok split =>
          obtain ⟨pending, timer, urgent⟩ := split
          obtain ⟨hpush, rfl, rfl⟩ := splitEach_eq_ok hsplit fun hquiet => armedTimer_isSome hquiet
          have hsome := urgentEvents_ne_nil hurgent
          have hburst : dueBurst set policy now b.pending b.timer events
              = urgentEvents set policy events := by
            rw [dueBurst, hdue, if_neg Bool.false_ne_true]
          have hwait : pending.events = dueWait set policy now b.pending b.timer events := by
            rw [dueWait, hdue, if_neg Bool.false_ne_true]
            exact Pending.pushEach_events hpush
          dsimp only
          rw [List.nil_append, List.isEmpty_eq_false_iff.mpr hsome, if_neg Bool.false_ne_true]
          let split : Session β φ ψ := { session with
            pending, nextQuietEmitAt := armedTimer set policy b.timer now events }
          refine Triple.bind (handOver_session false) ?_
          rintro ⟨session', err | _⟩
          · refine Triple.pure fun w (h : session' =
              split.handed now false (urgentEvents set policy events) false) => ?_
            subst h
            have hanswer := @Answer.handed set policy now events b Pending.new false pending
              (armedTimer set policy b.timer now events)
              (armedTimer set policy b.timer now events) (by rw [hburst]; exact hsome) (Or.inl rfl)
            rw [hburst, ← hhistory] at hanswer
            exact hanswer
          · refine Triple.pure fun w (h : session' =
              split.handed now false (urgentEvents set policy events) true) => ?_
            subst h
            have hanswer := @Answer.handed set policy now events b pending true pending
              (armedTimer set policy b.timer now events)
              (armedTimer set policy b.timer now events) (by rw [hburst]; exact hsome)
              (Or.inr hwait)
            rw [hburst, ← hhistory] at hanswer
            exact hanswer
    | false =>
      -- only quiet events: the timer is armed already
      have hquiet := anyQuiet_of_not_anyUrgent hevents hurgent
      obtain ⟨hnone, hall⟩ := quietEvents_of_not_anyUrgent hurgent
      rw [if_neg (by simp), if_neg Bool.false_ne_true]
      cases hpush : b.pending.pushEach set events with
      | error refusal => exact overflowed_answer refusal hhistory
      | ok pending =>
        dsimp only
        rw [Option.or_of_isSome (armedTimer_isSome hquiet)]
        split
        · next hdue =>
          exact emitQuiet_answer (Pending.pushEach_events hpush) hdue
            (Pending.pushEach_nonempty hpush hevents) rfl hhistory
        · next hnot =>
          refine Triple.pure fun w _ => hbooks pending _ ?_ ?_
          · rw [dueBurst, if_neg hnot, hnone]
          · rw [dueWait, if_neg hnot, hall]
            exact Pending.pushEach_events hpush

/-! ## One decision -/

/-- **One decision**, the posture it was made under, and whether it ends the session. -/
inductive Decided (set : RegistrationSet) (request : LiveWaitRequest) (policy : CoalescePolicy)
    (b : Books) : Books → Bool → Prop
  /-- What waits is handed back. -/
  | closed : Decided set request policy b { b with pending := .new } true
  /-- Nothing waits at the end. -/
  | settled : Decided set request policy b b true
  /-- Everything goes out in a final burst. -/
  | flushed {now : Timestamp} (burst : CoalesceBurst) (accepted : Bool)
      (hposture : postureErr set request now = none) :
      Decided set request policy b
        { b with
          pending := .new
          history := b.history ++ [.burst now true burst .new b.timer accepted] } true
  /-- A turn before the deadlines is answered. -/
  | turned {now : Timestamp} {events : List WaitEvent} {b' : Books} {ended : Bool}
      (hposture : postureErr set request now = none) (hearly : atDeadline request now = false)
      (hanswer : Answer set policy now events b b' ended) : Decided set request policy b b' ended

/-- What an act leaves, as a decision. -/
def Decides (set : RegistrationSet) (request : LiveWaitRequest) (policy : CoalescePolicy)
    (b : Books) (r : Turned β φ ψ) (_ : World σ β) : Prop :=
  Decided set request policy b r.1.books r.2.isSome

theorem failClosed_decides (err : Error) (hbooks : session.books = b) :
    Triple (fun _ => True) (ending (failClosed env set session err))
      (Decides (σ := σ) set request policy b) := by
  subst hbooks
  refine Triple.bind (failClosed_books err) ?_
  rintro ⟨session', result⟩
  refine Triple.pure fun w h => ?_
  show Decided set request policy session.books session'.books true
  rw [show session'.books = _ from h]
  exact .closed

/-- **A final flush** hands everything over, or back. -/
theorem finalFlush_decides (terminal : Option FollowEnd) (cancelled : Bool)
    (hposture : postureErr set request now = none) :
    Triple (fun _ => True)
      (ending (finalFlush env sink set request fuel session now events terminal cancelled))
      (Decides (σ := σ) set request policy session.books) := by
  suffices hbooks : Triple (fun _ => True)
      (finalFlush env sink set request fuel session now events terminal cancelled)
      fun r (_ : World σ β) => Decided set request policy session.books r.1.books true by
    refine Triple.bind hbooks ?_
    rintro ⟨session', result⟩
    exact Triple.pure fun w h => h
  unfold finalFlush
  cases hpush : session.pending.pushEach set events with
  | error refusal =>
    refine (overflowed_books refusal).weaken fun r w h => ?_
    rw [h]
    exact .closed
  | ok pending =>
    dsimp only
    split
    · next hempty =>
      refine Triple.pure fun w _ => ?_
      obtain rfl : pending = session.pending := Pending.pushEach_empty hpush hempty
      exact .settled
    · let taken : Session β φ ψ := { session with pending := .new }
      refine Triple.bind (handOver_session true) ?_
      rintro ⟨session', err | _⟩
      · refine Triple.pure fun w (h : session' = taken.handed now true pending.events false) => ?_
        subst h
        exact .flushed _ false hposture
      · refine Triple.pure fun w (h : session' = taken.handed now true pending.events true) => ?_
        subst h
        exact .flushed _ true hposture

/-- **`decide_coalesce`** makes one decision. -/
theorem decideCoalesce_decides (cancelArm : Bool) :
    Triple (fun _ => True)
      (decideCoalesce env sink set request policy fuel session now cancelArm)
      (Decides (σ := σ) set request policy session.books) := by
  unfold decideCoalesce
  split
  · exact failClosed_decides _ rfl
  · next hposture =>
    split
    · exact failClosed_decides _ rfl
    · dsimp only
      refine Triple.bind Triple.vacuous fun cancelled => ?_
      split
      · exact finalFlush_decides _ _ hposture
      · next hgoes =>
        have hearly : atDeadline request now = false := by
          cases hat : atDeadline request now with
          | false => rfl
          | true => exact absurd (by simp [hat]) hgoes
        refine Triple.bind (applyTurn_answer (b := session.books) rfl rfl rfl) ?_
        rintro ⟨session', _ | result⟩
        · refine Triple.fact (fun w h => h) fun h => ?_
          refine Triple.bind Triple.vacuous fun slots => Triple.pure fun w _ => ?_
          exact .turned hposture hearly h
        · exact Triple.pure fun w h => .turned hposture hearly h

/-! ## A property of the books that decisions keep -/

section keeps

variable {Keeps : Books → Bool → Prop}
  (hdecided : ∀ b b' ended, Keeps b false → Decided set request policy b b' ended → Keeps b' ended)

include hdecided

theorem decideCoalesce_keeps (cancelArm : Bool) (hkeeps : Keeps session.books false) :
    Triple (fun _ => True)
      (decideCoalesce env sink set request policy fuel session now cancelArm)
      fun r (_ : World σ β) => Keeps r.1.books r.2.isSome :=
  (decideCoalesce_decides cancelArm).weaken fun _ _ h => hdecided _ _ _ hkeeps h

theorem failClosed_keeps (err : Error) (hkeeps : Keeps session.books false) :
    Triple (fun _ => True) (ending (failClosed env set session err))
      fun r (_ : World σ β) => Keeps r.1.books r.2.isSome :=
  (failClosed_decides err rfl).weaken fun _ _ h => hdecided _ _ _ hkeeps h

theorem pollAndDecide_keeps (cancelArm : Bool) (hkeeps : Keeps session.books false) :
    Triple (fun _ => True) (pollAndDecide env sink set request policy fuel session cancelArm)
      fun r (_ : World σ β) => Keeps r.1.books r.2.isSome := by
  refine Triple.bind Triple.vacuous fun slots => Triple.bind Triple.vacuous fun slots' => ?_
  exact Triple.bind Triple.vacuous fun now =>
    decideCoalesce_keeps hdecided cancelArm (by exact hkeeps)

theorem onWake_keeps (hkeeps : Keeps session.books false) :
    Triple (fun _ => True) (onWake env sink set request policy fuel session)
      fun r (_ : World σ β) => Keeps r.1.books r.2.isSome :=
  Triple.bind Triple.vacuous fun _ => pollAndDecide_keeps hdecided false (by exact hkeeps)

theorem awaitTurn_keeps (hkeeps : Keeps session.books false) :
    Triple (fun _ => True) (awaitTurn env sink set request policy fuel session)
      fun r (_ : World σ β) => Keeps r.1.books r.2.isSome := by
  refine Triple.bind Triple.vacuous ?_
  rintro ⟨slots, result | _ | _⟩
  · rcases result with err | (_ | _)
    · exact Triple.bind Triple.vacuous fun now => failClosed_keeps hdecided _ (by exact hkeeps)
    · refine Triple.bind Triple.vacuous fun sleepTo => Triple.bind Triple.vacuous fun _ => ?_
      exact onWake_keeps hdecided (by exact hkeeps)
    · exact Triple.bind Triple.vacuous fun now =>
        decideCoalesce_keeps hdecided false (by exact hkeeps)
  · exact pollAndDecide_keeps hdecided true (by exact hkeeps)
  · exact onWake_keeps hdecided (by exact hkeeps)

/-- **A turn of the loop** keeps it. -/
theorem turn_keeps (hkeeps : Keeps session.books false) :
    Triple (fun _ => True) (turn env sink set request policy fuel session)
      fun r (_ : World σ β) => Keeps r.1.books r.2.isSome := by
  refine Triple.bind Triple.vacuous fun now => ?_
  split
  · exact failClosed_keeps hdecided _ hkeeps
  · refine Triple.bind Triple.vacuous fun now => Triple.bind Triple.vacuous fun cancelled => ?_
    split
    · -- something is due already: it is decided on before the turn waits
      refine Triple.bind Triple.vacuous fun slots => Triple.bind Triple.vacuous fun slots' => ?_
      refine Triple.bind Triple.vacuous fun cancelArm => Triple.bind
        (decideCoalesce_keeps hdecided cancelArm (by exact hkeeps)) ?_
      rintro ⟨session', _ | result⟩
      · refine Triple.fact (fun w h => h) fun h => ?_
        exact (awaitTurn_keeps hdecided h).strengthen fun w _ => trivial
      · exact Triple.pure fun w h => h
    · exact awaitTurn_keeps hdecided hkeeps

/-- **Every session reached** has it. -/
theorem reached_keeps {w₀ w : World σ β} (hstart : Keeps .start false)
    (h : Reached env sink set request policy fuel w₀ session ended w) :
    Keeps session.books ended := by
  induction h with
  | start => exact hstart
  | turn hreached hturn ih => exact (turn_keeps hdecided ih).run trivial hturn

end keeps

/-! ## Every turn is answered -/

/-- **The turn at place `i`** was decided under a good posture before the deadlines, and the entry
behind it is the burst of what is to go out. -/
structure TurnAt (set : RegistrationSet) (request : LiveWaitRequest) (policy : CoalescePolicy)
    (history : List Entry) (ended : Bool) (i : Nat) (now : Timestamp) (pending : Pending)
    (timer : Option Timestamp) (events : List WaitEvent) : Prop where
  posture : postureErr set request now = none
  early : atDeadline request now = false
  answered :
    (dueBurst set policy now pending timer events ≠ [] ∧ ∃ held timer' accepted,
      history[i + 1]? = some
        (.burst now false ⟨dueBurst set policy now pending timer events⟩ held timer' accepted)) ∨
    (dueBurst set policy now pending timer events = [] ∧ ∀ now' burst held timer' accepted,
      history[i + 1]? ≠ some (.burst now' false burst held timer' accepted)) ∨
    (i + 1 = history.length ∧ ended = true)

/-- **The burst at place `i`** was decided under a good posture; it answers the turn before it, or
is the last entry of a session that has ended. -/
structure BurstAt (set : RegistrationSet) (request : LiveWaitRequest) (history : List Entry)
    (ended : Bool) (i : Nat) (now : Timestamp) (final : Bool) : Prop where
  posture : postureErr set request now = none
  last : final = true → i + 1 = history.length ∧ ended = true
  turn : final = false → ∃ j pending timer events, i = j + 1 ∧
    history[j]? = some (.turn now pending timer events)

/-- **What every session keeps**: no urgent event waits, every turn is answered, every burst is an
answer or the end. -/
structure Prompt (set : RegistrationSet) (request : LiveWaitRequest) (policy : CoalescePolicy)
    (b : Books) (ended : Bool) : Prop where
  waits : ∀ event ∈ b.pending.events, isUrgent set event policy.urgentAt = false
  turns : ∀ i now pending timer events, b.history[i]? = some (.turn now pending timer events) →
    TurnAt set request policy b.history ended i now pending timer events
  bursts : ∀ i now final burst held timer accepted,
    b.history[i]? = some (.burst now final burst held timer accepted) →
    BurstAt set request b.history ended i now final

section prompt

variable {history : List Entry} {entry : Entry} {pending : Pending} {timer : Option Timestamp}
  {i : Nat}

/-- What stands in a longer history. -/
theorem getElem?_snoc {e : Entry} (h : (history ++ [entry])[i]? = some e) :
    history[i]? = some e ∨ i = history.length ∧ e = entry := by
  rcases Nat.lt_trichotomy i history.length with hlt | heq | hgt
  · exact Or.inl ((List.getElem?_append_left hlt).symm.trans h)
  · subst heq
    rw [List.getElem?_concat_length] at h
    exact Or.inr ⟨rfl, (Option.some.inj h).symm⟩
  · rw [List.getElem?_eq_none (by rw [List.length_append, List.length_singleton]; omega)] at h
    cases h

/-- A turn that a burst answers stays answered. -/
theorem TurnAt.snoc {ended' : Bool}
    (h : TurnAt set request policy history false i now pending timer events)
    (hentry : ∀ now' burst held timer' accepted, entry ≠ .burst now' false burst held timer' accepted) :
    TurnAt set request policy (history ++ [entry]) ended' i now pending timer events where
  posture := h.posture
  early := h.early
  answered := by
    rcases h.answered with ⟨hsome, held, timer', accepted, hnext⟩ | ⟨hnone, hnext⟩ | ⟨-, hended⟩
    · refine Or.inl ⟨hsome, held, timer', accepted, ?_⟩
      have hlt : i + 1 < history.length := (List.getElem?_eq_some_iff.mp hnext).1
      rw [List.getElem?_append_left hlt, hnext]
    · refine Or.inr (Or.inl ⟨hnone, fun now' burst held timer' accepted hburst => ?_⟩)
      rcases getElem?_snoc hburst with hburst | ⟨-, hburst⟩
      · exact hnext _ _ _ _ _ hburst
      · exact hentry _ _ _ _ _ hburst.symm
    · cases hended

/-- A session that ends keeps its answers. -/
theorem TurnAt.ends (h : TurnAt set request policy history false i now pending timer events) :
    TurnAt set request policy history true i now pending timer events where
  posture := h.posture
  early := h.early
  answered := h.answered.imp_right fun hrest => hrest.imp_right fun hlast => ⟨hlast.1, rfl⟩

/-- A burst stays an answer. -/
theorem BurstAt.snoc {final ended' : Bool}
    (h : BurstAt set request history false i now final) :
    BurstAt set request (history ++ [entry]) ended' i now final where
  posture := h.posture
  last hfinal := Bool.noConfusion (h.last hfinal).2
  turn hfinal := by
    obtain ⟨j, pending, timer, events, hi, hturn⟩ := h.turn hfinal
    have hlt : j < history.length := (List.getElem?_eq_some_iff.mp hturn).1
    exact ⟨j, pending, timer, events, hi, by rw [List.getElem?_append_left hlt, hturn]⟩

/-- The quiet events of a turn are quiet. -/
theorem quietEvents_quiet {event : WaitEvent} (h : event ∈ quietEvents set policy events) :
    isUrgent set event policy.urgentAt = false := by
  have hfilter := (List.mem_filter.mp h).2
  simpa using hfilter

/-- What waits after a turn is quiet. -/
theorem dueWait_quiet (hwaits : ∀ event ∈ pending.events, isUrgent set event policy.urgentAt = false)
    {event : WaitEvent} (h : event ∈ dueWait set policy now pending timer events) :
    isUrgent set event policy.urgentAt = false := by
  unfold dueWait at h
  split at h
  · exact absurd h List.not_mem_nil
  · rcases List.mem_append.mp h with h | h
    · exact hwaits event h
    · exact quietEvents_quiet h

/-- A session that ends keeps its bursts. -/
theorem BurstAt.ends {final : Bool} (h : BurstAt set request history false i now final) :
    BurstAt set request history true i now final where
  posture := h.posture
  last hfinal := Bool.noConfusion (h.last hfinal).2
  turn := h.turn

/-- The history once a turn has come. -/
theorem arrived_history : (b.arrived now events).history
    = b.history ++ [.turn now b.pending b.timer events] := rfl

/-- An answered turn that hands nothing over. -/
theorem Prompt.turned (h : Prompt set request policy b false) {pending : Pending}
    {timer : Option Timestamp} {ended : Bool} (hposture : postureErr set request now = none)
    (hearly : atDeadline request now = false)
    (hwaits : ∀ event ∈ pending.events, isUrgent set event policy.urgentAt = false)
    (hanswer : dueBurst set policy now b.pending b.timer events = [] ∨ ended = true) :
    Prompt set request policy { b.arrived now events with pending, timer } ended where
  waits := hwaits
  turns i now' pending' timer' events' hturn := by
    rcases getElem?_snoc hturn with hturn | ⟨hi, hturn⟩
    · exact (h.turns _ _ _ _ _ hturn).snoc (by simp)
    · obtain ⟨rfl, rfl, rfl, rfl⟩ := Entry.turn.inj hturn
      refine ⟨hposture, hearly, Or.inr ?_⟩
      rcases hanswer with hnone | hended
      · refine Or.inl ⟨hnone, fun now' burst held timer' accepted hburst => ?_⟩
        have hlt := (List.getElem?_eq_some_iff.mp hburst).1
        rw [arrived_history, List.length_append, List.length_singleton, hi] at hlt
        omega
      · refine Or.inr ⟨?_, hended⟩
        rw [arrived_history, List.length_append, List.length_singleton, hi]
  bursts i now' final burst held timer' accepted hburst := by
    rcases getElem?_snoc hburst with hburst | ⟨-, hburst⟩
    · exact (h.bursts _ _ _ _ _ _ _ hburst).snoc
    · cases hburst

/-- An answered turn that hands a burst over. -/
theorem Prompt.handed (h : Prompt set request policy b false) {pending held : Pending}
    {timer timer' : Option Timestamp} {accepted : Bool}
    (hposture : postureErr set request now = none) (hearly : atDeadline request now = false)
    (hwaits : ∀ event ∈ pending.events, isUrgent set event policy.urgentAt = false)
    (hsome : dueBurst set policy now b.pending b.timer events ≠ []) :
    Prompt set request policy
      { pending
        timer
        history := (b.arrived now events).history ++
          [.burst now false ⟨dueBurst set policy now b.pending b.timer events⟩ held timer'
            accepted] } !accepted where
  waits := hwaits
  turns i now' pending' timer'' events' hturn := by
    rcases getElem?_snoc hturn with hturn | ⟨-, hturn⟩
    · rcases getElem?_snoc hturn with hturn | ⟨hi, hturn⟩
      · have hlt := (List.getElem?_eq_some_iff.mp hturn).1
        have hold := h.turns _ _ _ _ _ hturn
        refine ⟨hold.posture, hold.early, ?_⟩
        -- an answer of the old history is not the last entry of it
        rcases hold.answered with ⟨hne, held', timer₁, accepted', hnext⟩ | ⟨hnone, hnext⟩ | ⟨-, hend⟩
        · refine Or.inl ⟨hne, held', timer₁, accepted', ?_⟩
          have hnext' := (List.getElem?_eq_some_iff.mp hnext).1
          rw [arrived_history, List.append_assoc, List.getElem?_append_left hnext', hnext]
        · refine Or.inr (Or.inl ⟨hnone, fun now₁ burst held₁ timer₁ accepted₁ hburst => ?_⟩)
          rcases getElem?_snoc hburst with hburst | ⟨hi', -⟩
          · rcases getElem?_snoc hburst with hburst | ⟨-, hburst⟩
            · exact hnext _ _ _ _ _ hburst
            · cases hburst
          · rw [arrived_history, List.length_append, List.length_singleton] at hi'
            omega
        · cases hend
      · obtain ⟨rfl, rfl, rfl, rfl⟩ := Entry.turn.inj hturn
        refine ⟨hposture, hearly, Or.inl ⟨hsome, held, timer', accepted, ?_⟩⟩
        have hlength : i + 1 = (b.arrived now' events').history.length := by
          rw [arrived_history, List.length_append, List.length_singleton, hi]
        show (_ ++ _)[i + 1]? = _
        rw [hlength, List.getElem?_concat_length]
    · cases hturn
  bursts i now' final burst held' timer'' accepted' hburst := by
    rcases getElem?_snoc hburst with hburst | ⟨hi, hburst⟩
    · rcases getElem?_snoc hburst with hburst | ⟨-, hburst⟩
      · exact (h.bursts _ _ _ _ _ _ _ hburst).snoc.snoc
      · cases hburst
    · obtain ⟨rfl, rfl, -, -, -, -⟩ := Entry.burst.inj hburst
      refine ⟨hposture, fun hfinal => (Bool.false_ne_true hfinal).elim, fun _ => ?_⟩
      refine ⟨b.history.length, b.pending, b.timer, events, ?_, ?_⟩
      · rw [hi, arrived_history, List.length_append, List.length_singleton]
      · rw [arrived_history, List.append_assoc, List.getElem?_append_right (Nat.le_refl _),
          Nat.sub_self]
        rfl

/-- **One decision** keeps it. -/
theorem Prompt.step (h : Prompt set request policy b false)
    (hdecided : Decided set request policy b b' ended) : Prompt set request policy b' ended := by
  cases hdecided with
  | closed =>
    refine ⟨fun event hmem => absurd hmem List.not_mem_nil, fun i _ _ _ _ hturn => ?_,
      fun i _ _ _ _ _ _ hburst => ?_⟩
    · exact (h.turns i _ _ _ _ hturn).ends
    · exact (h.bursts i _ _ _ _ _ _ hburst).ends
  | settled =>
    refine ⟨h.waits, fun i _ _ _ _ hturn => ?_, fun i _ _ _ _ _ _ hburst => ?_⟩
    · exact (h.turns i _ _ _ _ hturn).ends
    · exact (h.bursts i _ _ _ _ _ _ hburst).ends
  | flushed burst accepted hposture =>
    refine ⟨fun event hmem => absurd hmem List.not_mem_nil, fun i _ _ _ _ hturn => ?_,
      fun i _ _ _ _ _ _ hburst => ?_⟩
    · rcases getElem?_snoc hturn with hturn | ⟨-, hturn⟩
      · exact (h.turns i _ _ _ _ hturn).snoc (by simp)
      · cases hturn
    · rcases getElem?_snoc hburst with hburst | ⟨hi, hburst⟩
      · exact (h.bursts i _ _ _ _ _ _ hburst).snoc
      · obtain ⟨rfl, rfl, -, -, -, -⟩ := Entry.burst.inj hburst
        refine ⟨hposture, fun _ => ⟨?_, rfl⟩, fun hfinal => Bool.noConfusion hfinal⟩
        rw [List.length_append, List.length_singleton, hi]
  | turned hposture hearly hanswer =>
    cases hanswer with
    | refused timer =>
      exact h.turned hposture hearly (fun event hmem => absurd hmem List.not_mem_nil) (Or.inr rfl)
    | kept timer hnone hwait =>
      refine h.turned hposture hearly (fun event hmem => ?_) (Or.inl hnone)
      rw [hwait] at hmem
      exact dueWait_quiet h.waits hmem
    | handed held timer timer' hsome hwait =>
      refine h.handed hposture hearly (fun event hmem => ?_) hsome
      rcases hwait with hwait | hwait
      · rw [hwait] at hmem
        exact absurd hmem List.not_mem_nil
      · rw [hwait] at hmem
        exact dueWait_quiet h.waits hmem

end prompt

/-- **Every turn is answered at once.** At every point of every run: no urgent event waits; the entry
behind a turn is the burst of exactly what is to go out, unless that is nothing or the turn ended the
session; and every burst answers a turn or is the last entry. Each was decided while the lease and
the authentication held, and every burst but a last one before both deadlines. -/
theorem turns_answered {w₀ w : World σ β} {session : Session β φ ψ} {ended : Bool}
    (h : Reached env sink set request policy fuel w₀ session ended w) :
    Prompt set request policy session.books ended := by
  refine reached_keeps (fun b b' ended hprompt hdecided => hprompt.step hdecided) ?_ h
  refine ⟨fun event hmem => absurd hmem List.not_mem_nil, fun i now pending timer events hturn => ?_,
    fun i now final burst held timer accepted hburst => ?_⟩
  · cases hturn
  · cases hburst

/-- The run in which an urgent event overtakes two quiet ones. -/
theorem turns_answered_overtaken : ∃ session : Session ResolvedStart Registration IdToken,
    ((bursts session.history).map fun burst => burst.events.map WaitEvent.eventId)
        = [["evt:3"], ["evt:1", "evt:2"]] ∧
      Prompt urgentSet Case.liveWaitRequest tenSeconds session.books true := by
  have hdone : ((runCoalesce queueEnv takesAll urgentSet Case.liveWaitRequest tenSeconds 12
      overtakenWorld).any fun last =>
        ((bursts last.1.1).map fun burst => burst.events.map WaitEvent.eventId)
          == [["evt:3"], ["evt:1", "evt:2"]]) = true := by
    decide +kernel
  obtain ⟨⟨⟨history, result⟩, w'⟩, hrun, hbursts⟩ := exists_of_any hdone
  rcases runCoalesce_reached hrun with rfl | ⟨session, w, hreached, rfl⟩
  · cases hbursts
  · exact ⟨session, eq_of_beq hbursts, turns_answered hreached⟩

end Coalesce

end Waitprims
