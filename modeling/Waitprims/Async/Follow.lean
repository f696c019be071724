import Mathlib
import Waitprims.Async.SlotSet

/-! # The held-follow runner

A follow binds every registration once and hands every accepted event to its sink, turn by turn,
until a terminal. A turn's events form one burst in the order of the registrations; an observation
that was harvested but not handed over goes back to its bind.

* **`decideTurn`** — posture, then a fault, then cancellation, then the burst and the end.
* **`turn`** — the entry checks of a turn, its `select!` and its handlers.
* **`runFollow`** — the session, with what it handed to the sink. -/

namespace Waitprims

namespace Follow

variable {σ β φ ψ ξ : Type}

/-- One readiness turn of accepted events, in registration-set order. -/
structure FollowBurst where
  events : List WaitEvent
  deriving DecidableEq, Repr

/-- The variables of `run_follow`, with what was handed to the sink. -/
structure Session (β φ ψ B : Type) where
  slots : SlotSet β φ ψ
  backoffStep : Nat
  delivery : Delivery B

/-- What a turn leaves: the session, and how it ended if it did. -/
abbrev Turned (β φ ψ B : Type) := Session β φ ψ B × Option (Except Error FollowEnd)

variable (env : Env σ β φ ψ) (sink : Sink σ FollowBurst ξ) (set : RegistrationSet)
  (request : LiveWaitRequest) (fuel : Nat)

/-- `finish_cancel`. -/
def finishCancel {B : Type} (session : Session β φ ψ B) :
    Act σ β (Session β φ ψ B × Except Error FollowEnd) := do
  let (slots, restored) ← session.slots.restoreHarvested env
  match restored with
  | .error err => return ({ session with slots }, .error err)
  | .ok _ => return ({ session with slots }, .ok .cancel)

/-- `finish_err`: an error of the restore comes first. -/
def finishErr {B : Type} (session : Session β φ ψ B) (err : Error) :
    Act σ β (Session β φ ψ B × Except Error FollowEnd) := do
  let (slots, restored) ← session.slots.restoreHarvested env
  match restored with
  | .error first => return ({ session with slots }, .error first)
  | .ok _ => return ({ session with slots }, .error err)

/-- A turn that ends the session. -/
def ending {B : Type} (finish : Act σ β (Session β φ ψ B × Except Error FollowEnd)) :
    Act σ β (Turned β φ ψ B) := do
  let (session, result) ← finish
  return (session, some result)

/-- What a turn ends with once its burst was taken: a terminal, a deadline, or another turn. -/
def afterBurst (session : Session β φ ψ FollowBurst) (now : Timestamp)
    (terminal : Option FollowEnd) : Act σ β (Turned β φ ψ FollowBurst) :=
  match terminal.or (deadlineEnd set request now session.slots) with
  | some reached => return (session, some (.ok reached))
  | none => do
    let slots ← session.slots.rearmIdle env
    return ({ session with slots }, none)

/-- `decide_turn`: posture, then a fault, then cancellation, then burst, terminal and deadline. -/
def decideTurn (session : Session β φ ψ FollowBurst) (now : Timestamp) :
    Act σ β (Turned β φ ψ FollowBurst) :=
  match postureErr set request now with
  | some err => ending (finishErr env session err)
  | none =>
    match session.slots.fault with
    | some err =>
      ending (finishErr env { session with slots := { session.slots with fault := none } } err)
    | none => do
      if ← env.isCancelled then
        ending (finishCancel env session)
      else
        let (slots, events) := session.slots.takeEvents
        let terminal := slots.firstTerminal set
        let session := { session with slots }
        if events.isEmpty then
          afterBurst env set request session now terminal
        else
          let (delivery, answer) ← onBurst env sink fuel session.delivery ⟨events⟩
          let session := { session with delivery }
          match answer with
          | .error err => return (session, some (.error err))
          | .ok _ => afterBurst env set request session now terminal

/-- `on_wake`: arm idle slots again, poll them through `next` and `poll_ready`, then decide. -/
def onWake (session : Session β φ ψ FollowBurst) (now : Timestamp) :
    Act σ β (Turned β φ ψ FollowBurst) := do
  let slots ← session.slots.rearmIdle env
  let slots ← pollOnce env fuel slots
  let slots ← slots.harvestPollReady env
  decideTurn env sink set request fuel { session with slots } now

/-- `sleep_backoff`. -/
def sleepBackoff (step : Nat) : Act σ β Unit := do
  let sleepTo ← backoffDeadline env set request step
  Live.sleepOrCancel env sleepTo fuel

/-- How the `select!` of a turn ends. -/
inductive SelectEnd
  | collected (result : Except Error Turn)
  | cancelled
  | slept

/-- The `select!` of a turn: the slots, the token and the timer are polled in this order. -/
def selectTurn (wake : Timestamp) : Nat → SlotSet β φ ψ → Act σ β (SlotSet β φ ψ × SelectEnd)
  | 0, _ => Act.exhausted
  | polls + 1, s => do
    let (s, collected) ← pollCollectTurn env fuel s
    match collected with
    | some result => return (s, .collected result)
    | none =>
      if ← env.isCancelled then return (s, .cancelled)
      else if ← env.sleepUntil wake then return (s, .slept)
      else
        env.park
        selectTurn wake polls s

/-- Handler of the readiness branch. -/
def onCollected (session : Session β φ ψ FollowBurst) :
    Except Error Turn → Act σ β (Turned β φ ψ FollowBurst)
  | .error err => do
    let now ← env.now
    ending (finishErr env session ((postureErr set request now).getD err))
  | .ok .idle => do
    let step := saturatingAdd session.backoffStep 1
    sleepBackoff env set request fuel step
    let now ← env.now
    onWake env sink set request fuel { session with backoffStep := step } now
  | .ok .ready => do
    let now ← env.now
    decideTurn env sink set request fuel session now

/-- One turn of the loop of `run_follow`. -/
def turn (session : Session β φ ψ FollowBurst) : Act σ β (Turned β φ ψ FollowBurst) := do
  let now ← env.now
  match postureErr set request now with
  | some err => ending (finishErr env session err)
  | none =>
    if ← env.isCancelled then
      ending (finishCancel env session)
    else
      let (slots, ended) ← selectTurn env fuel (earliestWake set request) fuel session.slots
      let session := { session with slots }
      match ended with
      | .collected result => onCollected env sink set request fuel session result
      | .cancelled =>
        let slots ← pollOnce env fuel session.slots
        let now ← env.now
        decideTurn env sink set request fuel { session with slots } now
      | .slept =>
        let now ← env.now
        onWake env sink set request fuel session now

/-- The loop of `run_follow`. -/
def followLoop : Nat → Session β φ ψ FollowBurst →
    Act σ β (Session β φ ψ FollowBurst × Except Error FollowEnd)
  | 0, _ => Act.exhausted
  | turns + 1, session => do
    let (session, ended) ← turn env sink set request fuel session
    match ended with
    | some result => return (session, result)
    | none => followLoop turns session

/-- `run_follow`: what was handed to the sink, and why the session stopped. -/
def runFollow : Act σ β (Delivery FollowBurst × Except Error FollowEnd) := do
  match ← enter env set request with
  | some err => return (⟨[], none⟩, .error err)
  | none =>
    let slots ← SlotSet.new env set.registrations
    let (session, result) ← followLoop env sink set request fuel fuel
      ⟨⟨slots, none⟩, 0, ⟨[], none⟩⟩
    session.slots.dropSlots env
    return (session.delivery, result)

end Follow

end Waitprims
