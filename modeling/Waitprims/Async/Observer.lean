import Mathlib
import Waitprims.Core.Types

/-! # The environment of a runner: observer, clock, cancel token, executor

A runner reaches the outside only through the `Observer` and `Clock` traits, the `Cancel` token and
the executor that wakes it. Each is generic in the source, so each is a structure of state
transformers over an arbitrary host state `σ` here: what a call answers, and what arrives meanwhile,
is decided by the host. Bind handles `β`, pending `bind` futures `φ` and pending `next` futures `ψ`
are opaque; a future is polled, and dropped when it is given up while still pending.

`World` is the host with the two things the runner itself shares between futures and keeps for the
record: the `Arc<Mutex<Vec<ResolvedStart>>>` cell, and a history of the observations that changed
hands. `Act` runs over a world and may exhaust its fuel; `Fallible` may also return `Err`. -/

namespace Waitprims

/-- What one poll of a future answers. -/
inductive Poll (α : Type)
  | ready (value : α)
  | pending

/-- One observation from a bound registration: an accepted event or an arm signal. -/
inductive Observation
  | event (event : WaitEvent)
  | idle
  | overflow
  | failed (reasonCode : IdToken)
  | outage (reasonCode : IdToken)
  | cursorUncertain (reasonCode : IdToken)
  | degraded (reasonCode : IdToken)
  deriving DecidableEq, Repr

/-- Exclusive start cursor resolved at bind for one registration. -/
structure ResolvedStart where
  registrationId : IdToken
  start : Anchor
  deriving DecidableEq, Repr

/-- The `Observer` trait with its `BindHandle`s. The runners never await `Observer::cancel`, and a
default `poll_ready` answers `none`. -/
structure Observer (σ β φ ψ : Type) where
  /-- Registration a bind observes. -/
  registrationId : β → IdToken
  /-- Exclusive start cursor resolved at bind. -/
  resolvedStart : β → Anchor
  /-- Call `bind`: the pending future. -/
  bindStep : Registration → σ → φ × σ
  pollBindStep : φ → σ → Poll (Except Error β) × σ
  dropBindStep : φ → σ → σ
  /-- Call `next`: the pending future. -/
  nextStep : β → σ → ψ × σ
  pollNextStep : ψ → σ → Poll (Except Error Observation) × σ
  dropNextStep : ψ → σ → σ
  /-- Non-blocking check for an observation that is already due. -/
  pollReadyStep : β → σ → Option Observation × σ
  /-- Put a consumed observation back. -/
  restoreReadyStep : β → Observation → σ → Except Error Unit × σ

/-- The `Clock` trait: the current time, and one poll of a sleep. -/
structure Clock (σ : Type) where
  nowStep : σ → Timestamp × σ
  sleepUntilStep : Timestamp → σ → Bool × σ

/-- The `Cancel` token: whether cancellation has been signalled. Both `is_cancelled` and a poll of
`cancelled()` read the shared flag. -/
structure Cancel (σ : Type) where
  isCancelledStep : σ → Bool × σ

/-- Everything a runner runs against; `parkStep` is the time between two wake-ups of its task. -/
structure Env (σ β φ ψ : Type) extends Observer σ β φ ψ, Clock σ, Cancel σ where
  parkStep : σ → σ

/-- One entry of the history: an observation dequeued from a bind or handed back to it, and the two
points at which a cycle takes charge of what a bind gave. -/
inductive Call (β : Type)
  /-- A `next` future of the bind yielded an observation. -/
  | next (bind : β) (obs : Observation)
  /-- `poll_ready` of the bind yielded an observation. -/
  | ready (bind : β) (obs : Observation)
  /-- `restore_ready` of the bind was called; whether it accepted. -/
  | restore (bind : β) (obs : Observation) (accepted : Bool)
  /-- A poll cycle admitted a first event of the bind and drains it. -/
  | admitted (bind : β)
  /-- A poll cycle recorded the visit of the bind. -/
  | visited (bind : β)
  deriving DecidableEq

/-- The state a runner works on. -/
structure World (σ β : Type) where
  host : σ
  /-- The cell the bind futures push resolved starts to. -/
  resolved : List ResolvedStart
  /-- History of the run; nothing reads it. -/
  log : List (Call β)

/-- Programs of a runner that cannot fail. -/
abbrev Act (σ β : Type) := StateT (World σ β) Option

/-- Programs of a runner that may return `Err`. -/
abbrev Fallible (σ β : Type) := ExceptT Error (StateT (World σ β) Option)

variable {σ β φ ψ α : Type}

/-- Run one step of the host. -/
def Act.host (f : σ → α × σ) : Act σ β α := fun w =>
  some ((f w.host).1, { w with host := (f w.host).2 })

/-- Append to the history. -/
def Act.record (entries : List (Call β)) : Act σ β Unit := fun w =>
  some ((), { w with log := w.log ++ entries })

/-- Loops run out of fuel here. -/
def Act.exhausted : Act σ β α := fun _ => none

/-- A fresh cell of resolved starts. -/
def newResolved : Act σ β Unit := fun w => some ((), { w with resolved := [] })

/-- `snapshot(&resolved)`. -/
def snapshot : Act σ β (List ResolvedStart) := fun w => some (w.resolved, w)

namespace Env

variable (env : Env σ β φ ψ)

/-- `observer.bind(&registration)`. -/
def bind (registration : Registration) : Act σ β φ := Act.host (env.bindStep registration)

/-- One poll of a `bind` future. -/
def pollBind (fut : φ) : Act σ β (Poll (Except Error β)) := Act.host (env.pollBindStep fut)

/-- Drop a pending `bind` future. -/
def dropBind (fut : φ) : Act σ β Unit := Act.host fun s => ((), env.dropBindStep fut s)

/-- `observer.next(bind)`: the future remembers the bind it borrows. -/
def next (bind : β) : Act σ β (β × ψ) := do
  let fut ← Act.host (env.nextStep bind)
  return (bind, fut)

/-- One poll of a `next` future. -/
def pollNext (fut : β × ψ) : Act σ β (Poll (Except Error Observation)) := do
  let answer ← Act.host (env.pollNextStep fut.2)
  match answer with
  | .ready (.ok obs) => Act.record [.next fut.1 obs]
  | _ => pure ()
  return answer

/-- Drop a pending `next` future. -/
def dropNext (fut : β × ψ) : Act σ β Unit := Act.host fun s => ((), env.dropNextStep fut.2 s)

/-- `observer.poll_ready(bind)`. -/
def pollReady (bind : β) : Act σ β (Option Observation) := do
  let answer ← Act.host (env.pollReadyStep bind)
  Act.record (answer.toList.map (Call.ready bind))
  return answer

/-- `observer.restore_ready(bind, obs)`. -/
def restoreReady (bind : β) (obs : Observation) : Act σ β (Except Error Unit) := do
  let answer ← Act.host (env.restoreReadyStep bind obs)
  Act.record [.restore bind obs answer.toBool]
  return answer

/-- `clock.now()`. -/
def now : Act σ β Timestamp := Act.host env.nowStep

/-- One poll of `clock.sleep_until(deadline)`. -/
def sleepUntil (deadline : Timestamp) : Act σ β Bool := Act.host (env.sleepUntilStep deadline)

/-- `cancel.is_cancelled()`, and one poll of `cancel.cancelled()`. -/
def isCancelled : Act σ β Bool := Act.host env.isCancelledStep

/-- Return to the executor until the next wake-up. -/
def park : Act σ β Unit := Act.host fun s => ((), env.parkStep s)

/-- `record_resolved`: push a bind's start to the shared cell. -/
def recordResolved (bind : β) : Act σ β Unit := fun w =>
  some ((), { w with
    resolved := w.resolved ++ [⟨env.registrationId bind, env.resolvedStart bind⟩] })

end Env

/-- What a finished run returned, if it returned `Ok`. -/
def returned : Option (Except Error α × World σ β) → Option α
  | some (.ok a, _) => some a
  | _ => none

/-- A run that returned something of which `p` holds. -/
theorem exists_of_returned {run : Option (Except Error α × World σ β)} {p : α → Bool}
    (h : (returned run).any p = true) : ∃ a w', run = some (.ok a, w') ∧ p a = true := by
  rcases run with _ | ⟨_ | a, w'⟩
  · cases h
  · cases h
  · exact ⟨a, w', rfl, h⟩

/-- What a finished run returned, if it returned `Ok`. -/
def success : Except Error α → Option α
  | .ok a => some a
  | .error _ => none

theorem success_eq_some {result : Except Error α} {a : α} (h : success result = some a) :
    result = .ok a := by
  cases result with
  | ok b => rw [Option.some.inj h]
  | error err => cases h

/-- What a finished run returned, if it returned `Err`. -/
def failure : Except Error α → Option Error
  | .error err => some err
  | .ok _ => none

theorem failure_eq_some {result : Except Error α} {err : Error} (h : failure result = some err) :
    result = .error err := by
  cases result with
  | error err' => rw [Option.some.inj h]
  | ok a => cases h

/-- An option of which `p` holds. -/
theorem exists_of_any {o : Option α} {p : α → Bool} (h : o.any p = true) :
    ∃ a, o = some a ∧ p a = true := by
  cases o with
  | none => cases h
  | some a => exact ⟨a, rfl, h⟩

/-! ## Which observations are terminal, and which can be replayed -/

/-- `observation_is_terminal`: anything but an idle signal ends a race. -/
def observationIsTerminal : Observation → Bool
  | .idle => false
  | _ => true

/-- `observation_is_replayable`: only an event may be put back. -/
def observationIsReplayable : Observation → Bool
  | .event _ => true
  | _ => false

/-- The events an observation carries. -/
def Observation.events : Observation → List WaitEvent
  | .event e => [e]
  | _ => []

end Waitprims
