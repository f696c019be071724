import Mathlib
import Waitprims.Async.Budget
import Waitprims.Async.SlotSet

/-! # The coalescing runner

A coalescing session holds its binds as a follow does, but keeps quiet events in a pending buffer
and hands them over together, a minimum interval apart. An urgent event does not wait: where the
interval is not over, the urgent events of the turn are handed over on their own.

* **`Pending`** — the buffer with its counters; `tryPush` admits one event, or names the
  registration that has no room.
* **`applyTurn`**, **`emitQuiet`** — the emit policy of a turn that does not end the session.
* **`finalFlush`** — the last burst, and the end it comes with.
* **`turn`**, **`runCoalesce`** — the session, with the history of its turns and bursts. -/

namespace Waitprims

/-- `PRIORITY_NORMAL`. -/
def priorityNormal : Nat := 50

/-- `PRIORITY_URGENT`. -/
def priorityUrgent : Nat := 100

namespace Coalesce

open Follow

variable {σ β φ ψ ξ : Type}

/-- One coalesced emit spanning one or more readiness turns. -/
structure CoalesceBurst where
  events : List WaitEvent
  deriving DecidableEq, Repr

/-- Session emit policy. -/
structure CoalescePolicy where
  /-- Minimum gap between non-terminal quiet emits. -/
  minEmitInterval : Duration
  /-- Effective priority at or above this value flushes immediately. -/
  urgentAt : Nat
  deriving DecidableEq, Repr

/-- `CoalescePolicy::new`. -/
def CoalescePolicy.new (minEmitInterval : Duration) : CoalescePolicy :=
  ⟨minEmitInterval, priorityUrgent⟩

/-! ## The pending buffer -/

/-- The events that wait for the next emit, with what they add up to. -/
structure Pending where
  events : List WaitEvent
  totalEvents : Nat
  totalBytes : Nat
  perEvents : BTreeMap String Nat
  perBytes : BTreeMap String Nat

/-- `registration`: the first one with the id. -/
def registration (set : RegistrationSet) (id : IdToken) : Option Registration :=
  set.registrations.find? fun reg => reg.registrationId == id

/-- `effective_priority`. -/
def effectivePriority (reg : Registration) : Nat := reg.priority.getD priorityNormal

/-- `is_urgent`. -/
def isUrgent (set : RegistrationSet) (event : WaitEvent) (urgentAt : Nat) : Bool :=
  match registration set event.registrationId with
  | some reg => Decidable.decide (effectivePriority reg ≥ urgentAt)
  | none => false

namespace Pending

/-- An empty buffer. -/
def new : Pending := ⟨[], 0, 0, ∅, ∅⟩

/-- Whether nothing waits. -/
def isEmpty (pending : Pending) : Bool := pending.events.isEmpty

/-- `take`: the events, and the buffer emptied. -/
def take (pending : Pending) : Pending × List WaitEvent := (new, pending.events)

/-- `try_push`: one event more, or the registration whose event did not fit. -/
def tryPush (set : RegistrationSet) (pending : Pending) (event : WaitEvent) :
    Except IdToken Pending :=
  let rid := event.registrationId
  let bytes := eventSurfaceBytes event
  let nextEvents := saturatingAdd pending.totalEvents 1
  let nextBytes := saturatingAdd pending.totalBytes bytes
  if nextEvents > set.aggregateLimits.maxEvents || nextBytes > set.aggregateLimits.maxBytes then
    .error rid
  else
    match registration set rid with
    | none => .error rid
    | some reg =>
      let perE := saturatingAdd (pending.perEvents.getD rid 0) 1
      let perB := saturatingAdd (pending.perBytes.getD rid 0) bytes
      if perE > reg.bounds.maxEvents || perB > reg.bounds.maxBytes then
        .error rid
      else
        .ok {
          events := pending.events ++ [event]
          totalEvents := nextEvents
          totalBytes := nextBytes
          perEvents := pending.perEvents.insert rid perE
          perBytes := pending.perBytes.insert rid perB }

/-- What a loop of pushes leaves when an event does not fit: the registration, and what has not
been handed over, oldest first. -/
structure Refusal where
  registrationId : IdToken
  unsunk : List WaitEvent

/-- The loop that pushes every event of a turn. -/
def pushEach (set : RegistrationSet) (pending : Pending) :
    List WaitEvent → Except Refusal Pending
  | [] => .ok pending
  | event :: rest =>
    match pending.tryPush set event with
    | .error rid => .error ⟨rid, pending.events ++ event :: rest⟩
    | .ok pending => pushEach set pending rest

end Pending

/-! ## The session -/

/-- One entry of the history: a turn with the state it was applied to, or a burst handed to the
sink. Nothing reads it. -/
inductive Entry
  /-- `apply_turn` was called. -/
  | turn (now : Timestamp) (pending : Pending) (nextQuietEmitAt : Option Timestamp)
      (events : List WaitEvent)
  /-- `on_burst` was called, by `final_flush` or before, with the buffer and the timer as they were
  meanwhile; whether the sink took the burst. -/
  | burst (now : Timestamp) (final : Bool) (burst : CoalesceBurst) (pending : Pending)
      (nextQuietEmitAt : Option Timestamp) (accepted : Bool)

/-- The variables of `run_coalesce`. -/
structure Session (β φ ψ : Type) where
  slots : SlotSet β φ ψ
  pending : Pending
  nextQuietEmitAt : Option Timestamp
  backoffStep : Nat
  history : List Entry

/-- What a turn leaves: the session, and how it ended if it did. -/
abbrev Turned (β φ ψ : Type) := Session β φ ψ × Option (Except Error FollowEnd)

/-- The session, and how it ended. -/
abbrev Ended (β φ ψ : Type) := Session β φ ψ × Except Error FollowEnd

variable (env : Env σ β φ ψ) (sink : Sink σ CoalesceBurst ξ) (set : RegistrationSet)
  (request : LiveWaitRequest) (policy : CoalescePolicy) (fuel : Nat)

/-- A turn that ends the session. -/
def ending (finish : Act σ β (Ended β φ ψ)) : Act σ β (Turned β φ ψ) := do
  let (session, result) ← finish
  return (session, some result)

/-- `fail_closed`: an error of the restore comes first. -/
def failClosed (session : Session β φ ψ) (err : Error) : Act σ β (Ended β φ ψ) := do
  let (pending, events) := session.pending.take
  let (slots, restored) ← session.slots.restoreCustody env set events
  match restored with
  | .error first => return ({ session with slots, pending }, .error first)
  | .ok _ => return ({ session with slots, pending }, .error err)

/-- `overflow_end`. -/
def overflowEnd (registrationId : IdToken) : FollowEnd :=
  .terminalArm registrationId .overflow "buffer_overflow"

/-- `restore_then_overflow`. -/
def restoreThenOverflow (session : Session β φ ψ) (unsunk : List WaitEvent)
    (registrationId : IdToken) : Act σ β (Ended β φ ψ) := do
  let (slots, restored) ← session.slots.restoreCustody env set unsunk
  match restored with
  | .error first => return ({ session with slots }, .error first)
  | .ok _ => return ({ session with slots }, .ok (overflowEnd registrationId))

/-- The handler of a loop of pushes that was refused; the buffer has been taken. -/
def overflowed (session : Session β φ ψ) (refusal : Pending.Refusal) : Act σ β (Ended β φ ψ) :=
  restoreThenOverflow env set { session with pending := .new } refusal.unsunk
    refusal.registrationId

/-- `on_burst(CoalesceBurst { events }).await`. -/
def handOver (session : Session β φ ψ) (now : Timestamp) (final : Bool)
    (events : List WaitEvent) : Act σ β (Session β φ ψ × Except Error Unit) := do
  let fut ← (Act.host (sink.callStep ⟨events⟩) : Act σ β _)
  let answer ← awaitSink env sink fut fuel
  let entry :=
    Entry.burst now final ⟨events⟩ session.pending session.nextQuietEmitAt answer.toBool
  return ({ session with history := session.history ++ [entry] }, answer)

/-! ## The emit policy -/

/-- `now.saturating_add(policy.min_emit_interval)`. -/
def afterInterval (now : Timestamp) : Timestamp := now.saturatingAdd policy.minEmitInterval

/-- `interval_is_due`. -/
def intervalIsDue (nextQuietEmitAt : Option Timestamp) (now : Timestamp) : Bool :=
  nextQuietEmitAt.any fun at' => Decidable.decide (now ≥ at')

/-- `emit_quiet`. -/
def emitQuiet (session : Session β φ ψ) (now : Timestamp) : Act σ β (Turned β φ ψ) :=
  if session.pending.isEmpty then return (session, none)
  else do
    let (pending, events) := session.pending.take
    let (session, answer) ← handOver env sink fuel { session with pending } now false events
    match answer with
    | .error err => return (session, some (.error err))
    | .ok _ => return ({ session with nextQuietEmitAt := some (afterInterval policy now) }, none)

/-- The loop over a turn with urgent events while the interval is not over: quiet events are pushed
and urgent ones are collected. -/
def splitEach (now : Timestamp) (pending : Pending) (nextQuietEmitAt : Option Timestamp)
    (urgent : List WaitEvent) :
    List WaitEvent → Except Pending.Refusal (Pending × Option Timestamp × List WaitEvent)
  | [] => .ok (pending, nextQuietEmitAt, urgent)
  | event :: rest =>
    if isUrgent set event policy.urgentAt then
      splitEach now pending nextQuietEmitAt (urgent ++ [event]) rest
    else
      match pending.tryPush set event with
      | .error rid => .error ⟨rid, pending.events ++ event :: (urgent ++ rest)⟩
      | .ok pending =>
        splitEach now pending (nextQuietEmitAt.or (some (afterInterval policy now))) urgent rest

/-- A quiet event is among these. -/
def anyQuiet (events : List WaitEvent) : Bool :=
  events.any fun event => !isUrgent set event policy.urgentAt

/-- An urgent event is among these. -/
def anyUrgent (events : List WaitEvent) : Bool :=
  events.any fun event => isUrgent set event policy.urgentAt

/-- The quiet timer once a turn has come: a first quiet event sets it. -/
def armedTimer (nextQuietEmitAt : Option Timestamp) (now : Timestamp) (events : List WaitEvent) :
    Option Timestamp :=
  if nextQuietEmitAt.isNone && anyQuiet set policy events then some (afterInterval policy now)
  else nextQuietEmitAt

/-- `apply_turn`. -/
def applyTurn (session : Session β φ ψ) (now : Timestamp) (events : List WaitEvent) :
    Act σ β (Turned β φ ψ) :=
  if events.isEmpty then
    if intervalIsDue session.nextQuietEmitAt now && !session.pending.isEmpty then
      emitQuiet env sink policy fuel session now
    else return (session, none)
  else
    let session :=
      { session with nextQuietEmitAt := armedTimer set policy session.nextQuietEmitAt now events }
    let intervalDue := intervalIsDue session.nextQuietEmitAt now
    if anyUrgent set policy events && intervalDue then
      match session.pending.pushEach set events with
      | .error refusal => ending (overflowed env set session refusal)
      | .ok pending => emitQuiet env sink policy fuel { session with pending } now
    else if anyUrgent set policy events then
      match splitEach set policy now session.pending session.nextQuietEmitAt [] events with
      | .error refusal => ending (overflowed env set session refusal)
      | .ok (pending, nextQuietEmitAt, urgent) => do
        let session := { session with pending, nextQuietEmitAt }
        if urgent.isEmpty then return (session, none)
        else
          let (session, answer) ← handOver env sink fuel session now false urgent
          match answer with
          | .error err => return ({ session with pending := .new }, some (.error err))
          | .ok _ => return (session, none)
    else
      match session.pending.pushEach set events with
      | .error refusal => ending (overflowed env set session refusal)
      | .ok pending =>
        let session :=
          { session with
            pending
            nextQuietEmitAt := session.nextQuietEmitAt.or (some (afterInterval policy now)) }
        if intervalIsDue session.nextQuietEmitAt now then
          emitQuiet env sink policy fuel session now
        else return (session, none)

/-- The end a final flush comes with: a terminal, the deadline, or cancellation. -/
def finalEnd (slots : SlotSet β φ ψ) (now : Timestamp) (terminal : Option FollowEnd)
    (cancelled : Bool) : FollowEnd :=
  match terminal with
  | some reached => reached
  | none =>
    match if atDeadline request now then deadlineEnd set request now slots else none with
    | some reached => reached
    | none => if cancelled then .cancel else .deadline

/-- `final_flush`. -/
def finalFlush (session : Session β φ ψ) (now : Timestamp) (events : List WaitEvent)
    (terminal : Option FollowEnd) (cancelled : Bool) : Act σ β (Ended β φ ψ) :=
  match session.pending.pushEach set events with
  | .error refusal => overflowed env set session refusal
  | .ok pending =>
    if pending.isEmpty then
      return ({ session with pending },
        .ok (finalEnd set request session.slots now terminal cancelled))
    else do
      let (pending, events) := pending.take
      let (session, answer) ← handOver env sink fuel { session with pending } now true events
      match answer with
      | .error err => return (session, .error err)
      | .ok _ =>
        return (session, .ok (finalEnd set request session.slots now terminal cancelled))

/-- `cancel_arm || cancel.is_cancelled()`. -/
def isCancelled (cancelArm : Bool) : Act σ β Bool :=
  if cancelArm then return true else env.isCancelled

/-- `decide_coalesce`: posture, then a fault, then the last burst or the emit policy. -/
def decideCoalesce (session : Session β φ ψ) (now : Timestamp) (cancelArm : Bool) :
    Act σ β (Turned β φ ψ) :=
  match postureErr set request now with
  | some err => ending (failClosed env set session err)
  | none =>
    match session.slots.fault with
    | some err =>
      ending
        (failClosed env set { session with slots := { session.slots with fault := none } } err)
    | none => do
      let (slots, events) := session.slots.takeEvents
      let terminal := slots.firstTerminal set
      let session := { session with slots }
      let cancelled ← isCancelled env cancelArm
      if terminal.isSome || cancelled || atDeadline request now then
        ending (finalFlush env sink set request fuel session now events terminal cancelled)
      else
        let entry := Entry.turn now session.pending session.nextQuietEmitAt events
        let session := { session with history := session.history ++ [entry] }
        let (session, ended) ← applyTurn env sink set policy fuel session now events
        match ended with
        | some result => return (session, some result)
        | none =>
          let slots ← session.slots.rearmIdle env
          return ({ session with slots }, none)

/-! ## The loop -/

/-- Poll the slots once more, harvest what is ready and decide. -/
def pollAndDecide (session : Session β φ ψ) (cancelArm : Bool) : Act σ β (Turned β φ ψ) := do
  let slots ← pollOnce env fuel session.slots
  let slots ← slots.harvestPollReady env
  let now ← env.now
  decideCoalesce env sink set request policy fuel { session with slots } now cancelArm

/-- The handler of a timer: idle slots are armed again first. -/
def onWake (session : Session β φ ψ) : Act σ β (Turned β φ ψ) := do
  let slots ← session.slots.rearmIdle env
  pollAndDecide env sink set request policy fuel { session with slots } false

/-- The instant the quiet timer of the `select!` waits for. -/
def quietAt (session : Session β φ ψ) : Option Timestamp :=
  if session.pending.isEmpty then none else session.nextQuietEmitAt

/-- The instant an idle turn sleeps to: the backoff, or the quiet timer if that is before. -/
def idleSleep (session : Session β φ ψ) (sleepTo : Timestamp) : Timestamp :=
  match quietAt session with
  | some quiet => if quiet < sleepTo then quiet else sleepTo
  | none => sleepTo

/-- How the `select!` of a turn ends. -/
inductive SelectEnd
  | collected (result : Except Error Turn)
  | cancelled
  | slept

/-- One poll of the quiet timer; without one it stays pending. -/
def pollQuiet : Option Timestamp → Act σ β Bool
  | some quiet => env.sleepUntil quiet
  | none => return false

/-- The `select!` of a turn: the slots, the token and the two timers are polled in this order. -/
def selectTurn (wake : Timestamp) (quiet : Option Timestamp) :
    Nat → SlotSet β φ ψ → Act σ β (SlotSet β φ ψ × SelectEnd)
  | 0, _ => Act.exhausted
  | polls + 1, s => do
    let (s, collected) ← pollCollectTurn env fuel s
    match collected with
    | some result => return (s, .collected result)
    | none =>
      if ← env.isCancelled then return (s, .cancelled)
      else if ← env.sleepUntil wake then return (s, .slept)
      else if ← pollQuiet env quiet then return (s, .slept)
      else
        env.park
        selectTurn wake quiet polls s

/-- Handler of the readiness branch. -/
def onCollected (session : Session β φ ψ) : Except Error Turn → Act σ β (Turned β φ ψ)
  | .error err => do
    let now ← env.now
    ending (failClosed env set session ((postureErr set request now).getD err))
  | .ok .idle => do
    let step := saturatingAdd session.backoffStep 1
    let session := { session with backoffStep := step }
    let sleepTo ← backoffDeadline env set request step
    Live.sleepOrCancel env (idleSleep session sleepTo) fuel
    onWake env sink set request policy fuel session
  | .ok .ready => do
    let now ← env.now
    decideCoalesce env sink set request policy fuel session now false

/-- The `select!` of a turn with its handlers. -/
def awaitTurn (session : Session β φ ψ) : Act σ β (Turned β φ ψ) := do
  let (slots, ended) ←
    selectTurn env fuel (earliestWake set request) (quietAt session) fuel session.slots
  let session := { session with slots }
  match ended with
  | .collected result => onCollected env sink set request policy fuel session result
  | .cancelled => pollAndDecide env sink set request policy fuel session true
  | .slept => onWake env sink set request policy fuel session

/-- One turn of the loop of `run_coalesce`: what is due already is decided on before waiting. -/
def turn (session : Session β φ ψ) : Act σ β (Turned β φ ψ) := do
  let now ← env.now
  match postureErr set request now with
  | some err => ending (failClosed env set session err)
  | none =>
    let now ← env.now
    let cancelled ← env.isCancelled
    if cancelled || atDeadline request now
        || (!session.pending.isEmpty && intervalIsDue session.nextQuietEmitAt now) then
      let slots ← pollOnce env fuel session.slots
      let slots ← slots.harvestPollReady env
      let cancelArm ← env.isCancelled
      let (session, ended) ←
        decideCoalesce env sink set request policy fuel { session with slots } now cancelArm
      match ended with
      | some result => return (session, some result)
      | none => awaitTurn env sink set request policy fuel session
    else
      awaitTurn env sink set request policy fuel session

/-- The loop of `run_coalesce`. -/
def coalesceLoop : Nat → Session β φ ψ → Act σ β (Ended β φ ψ)
  | 0, _ => Act.exhausted
  | turns + 1, session => do
    let (session, ended) ← turn env sink set request policy fuel session
    match ended with
    | some result => return (session, result)
    | none => coalesceLoop turns session

/-- The session before its first turn. -/
def Session.start (slots : List (Slot β φ ψ)) : Session β φ ψ := ⟨⟨slots, none⟩, .new, none, 0, []⟩

/-- `run_coalesce`: the history of its turns and bursts, and why the session stopped. -/
def runCoalesce : Act σ β (List Entry × Except Error FollowEnd) := do
  match ← enter env set request with
  | some err => return ([], .error err)
  | none =>
    let slots ← SlotSet.new env set.registrations
    let (session, result) ←
      coalesceLoop env sink set request policy fuel fuel (Session.start slots)
    session.slots.dropSlots env
    return (session.history, result)

end Coalesce

end Waitprims
