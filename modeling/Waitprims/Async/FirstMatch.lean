import Mathlib
import Waitprims.Async.LiveOutcome
import Waitprims.Async.PollCycle

/-! # The first-match runner

A live wait binds every registration and observes it in one race, and returns the first event it is
given. An observation that was taken but did not win goes back to its bind, so a later wait can
replay it.

* **`decideAndRestore`** — decide on what is ready and put the rest back.
* **`turnObserving`**, **`turnBinding`** — one race, its `select!` and its handlers.
* **`runLoop`** — the loop, then the posture imposed on what it decided.

Unlike the poll cycle, a `select!` here borrows its race, so the futures that are still pending are
dropped only after the handler of the winner has run. `fuel` bounds the polls of one `select!` and
the turns of the loop. -/

namespace Waitprims

/-- Run a program, then release what it borrowed, whatever it returned. -/
def Fallible.thenDrop {σ β α : Type} (body : Fallible σ β α) (drop : Act σ β Unit) :
    Fallible σ β α := do
  let result ← liftM body.run
  liftM drop
  ExceptT.mk (pure result)

namespace Live

open PollCycle (pendingRefs nextEach pollNextArm restore)

variable {σ β φ ψ : Type} (env : Env σ β φ ψ) (set : RegistrationSet) (request : LiveWaitRequest)

/-- `resolve`: the request cites this set, this revision and this waiter. -/
def resolve : Except Error Unit :=
  if request.registrationSetRef != set.messageId then
    .error (validationError "/registration_set_ref" "mismatch")
  else if request.registrationRevision != set.registrationRevision then
    .error (validationError "/registration_revision" "revision_mismatch")
  else if request.waiterId != set.waiterId then
    .error (validationError "/waiter_id" "mismatch")
  else
    .ok ()

/-! ## Binding and observing in one future -/

/-- The `bind_then_observe` future. -/
inductive BindThenObserve (β φ ψ : Type)
  | start (registration : Registration)
  | binding (fut : φ)
  | observing (fut : β × ψ)

/-- Poll the `next` future inside `bind_then_observe`. -/
def pollThenObserve (fut : β × ψ) : Act σ β (Polled (BindThenObserve β φ ψ) (β × Observation)) := do
  match ← env.pollNext fut with
  | .ready (.ok obs) => return .ready (.ok (fut.1, obs))
  | .ready (.error err) => return .ready (.error err)
  | .pending => return .pending (.observing fut)

/-- Poll the `bind` future inside `bind_then_observe`; once bound, it observes at once. -/
def pollThenBind (fut : φ) : Act σ β (Polled (BindThenObserve β φ ψ) (β × Observation)) := do
  match ← env.pollBind fut with
  | .ready (.ok bind) =>
    env.recordResolved bind
    let fut ← env.next bind
    pollThenObserve env fut
  | .ready (.error err) => return .ready (.error err)
  | .pending => return .pending (.binding fut)

/-- One poll of `bind_then_observe`. -/
def pollBindThenObserve :
    BindThenObserve β φ ψ → Act σ β (Polled (BindThenObserve β φ ψ) (β × Observation))
  | .start registration => do
    let fut ← env.bind registration
    pollThenBind env fut
  | .binding fut => pollThenBind env fut
  | .observing fut => pollThenObserve env fut

/-- Drop `bind_then_observe`. -/
def dropBindThenObserve : BindThenObserve β φ ψ → Act σ β Unit
  | .start _ => return ()
  | .binding fut => env.dropBind fut
  | .observing fut => env.dropNext fut

/-! ## Starts -/

/-- `starts_from_binds`. -/
def startsFromBinds (binds : List β) : List ResolvedStart :=
  binds.map fun bind => ⟨env.registrationId bind, env.resolvedStart bind⟩

/-- `starts_from_indexed`. -/
def startsFromIndexed (binds : List (Nat × β)) : List ResolvedStart :=
  startsFromBinds env (binds.map Prod.snd)

/-- `indexed_binds`: each bind under its position. -/
def indexedBinds (binds : List β) : List (Nat × β) := binds.zipIdx.map Prod.swap

/-! ## Handing observations back -/

/-- The bind with an index: `binds.iter().find(|(have, _)| *have == idx)`. -/
def bindAt (binds : List (Nat × β)) (idx : Nat) : Option β :=
  (binds.find? fun p => p.1 == idx).map Prod.snd

/-- `restore_owned`: put back the events. -/
def restoreOwned (binds : List (Nat × β)) : List (Nat × Observation) → Fallible σ β Unit
  | [] => return ()
  | (idx, obs) :: rest =>
    if !observationIsReplayable obs then
      restoreOwned binds rest
    else
      match bindAt binds idx with
      | none => restoreOwned binds rest
      | some bind => do
        restore env bind obs
        restoreOwned binds rest

/-- `restore_bound_pairs`: put back the events, each to the bind it came with. -/
def restoreBoundPairs : List (Nat × β × Observation) → Fallible σ β Unit
  | [] => return ()
  | (_, bind, obs) :: rest =>
    if observationIsReplayable obs then do
      restore env bind obs
      restoreBoundPairs rest
    else
      restoreBoundPairs rest

/-- The loop of `restore_losers`: put back the events of every arm but the winner. -/
def restoreAllBut (winner : Option Nat) (binds : List (Nat × β)) :
    List (Nat × Observation) → Fallible σ β Unit
  | [] => return ()
  | (idx, obs) :: rest =>
    if some idx == winner || !observationIsReplayable obs then
      restoreAllBut winner binds rest
    else
      match bindAt binds idx with
      | none => restoreAllBut winner binds rest
      | some bind => do
        restore env bind obs
        restoreAllBut winner binds rest

/-- `restore_losers`. -/
def restoreLosers (binds : List (Nat × β)) (ready : List (Nat × Observation)) :
    Fallible σ β Unit :=
  restoreAllBut env (eventWinnerIdx ready) binds ready

/-- `decide_and_restore`: nothing is put back where nothing is decided; where posture rejects the
decision every event is. -/
def decideAndRestore (now : Timestamp) (binds : List (Nat × β)) (ready : List (Nat × Observation))
    (resolved : List ResolvedStart) : Fallible σ β (Option LiveWaitOutcome) :=
  match decide set request now ready resolved with
  | none => return none
  | some outcome =>
    match postureReject set request now with
    | some rejected => do
      restoreOwned env binds ready
      return some rejected
    | none => do
      restoreLosers env binds ready
      return some outcome

/-- `extend_ready_refs`: poll each bind that has nothing ready yet. -/
def extendReadyRefs : List (Nat × β) → List (Nat × Observation) →
    Act σ β (List (Nat × Observation)) :=
  PollCycle.extendReadyRefs env

/-! ## The race and its `select!` -/

/-- `BACKOFF_MS`. -/
def backoffMs : List Nat := [50, 100, 200, 400, 800, 1000]

/-- `backoff_deadline`: the longest delay is kept once it is reached. -/
def backoffDeadline (step : Nat) : Act σ β Timestamp := do
  let idx := min (step - 1) (backoffMs.length - 1)
  let wake := (← env.now).saturatingAdd (.fromMillis (backoffMs.getD idx 0))
  let cap := earliestDeadline request
  return if wake < cap then wake else cap

/-- The `select!` of `sleep_backoff`. -/
def sleepOrCancel (sleepTo : Timestamp) : Nat → Act σ β Unit
  | 0 => Act.exhausted
  | fuel + 1 => do
    if ← env.isCancelled then return ()
    else if ← env.sleepUntil sleepTo then return ()
    else
      env.park
      sleepOrCancel sleepTo fuel

/-- `sleep_backoff`. -/
def sleepBackoff (fuel step : Nat) : Act σ β Unit := do
  let sleepTo ← backoffDeadline env request step
  sleepOrCancel env sleepTo fuel

/-- How a `select!` over a race ends. -/
inductive RaceEnd (T : Type)
  | collected (output : FirstReadyOutput T)
  | cancelled
  | slept

/-- The `select!` over a race: the race, the token and the timer are polled in this order. The race
comes back with whatever it still holds. -/
def selectRace {F T : Type} (pollFut : F → Act σ β (Polled F T)) (isTerminal : T → Bool)
    (waitUntil : Timestamp) : Nat → List (Arm F T) → Act σ β (List (Arm F T) × RaceEnd T)
  | 0, _ => Act.exhausted
  | fuel + 1, arms => do
    let (arms, out) ← FirstReady.poll pollFut isTerminal arms
    match out with
    | some collected => return (arms, .collected collected)
    | none =>
      if ← env.isCancelled then return (arms, .cancelled)
      else if ← env.sleepUntil waitUntil then return (arms, .slept)
      else
        env.park
        selectRace pollFut isTerminal waitUntil fuel arms

/-! ## The loop -/

/-- The variables of `run_loop`. -/
structure Wait (β : Type) where
  backoffStep : Nat
  bound : Option (List β)

/-- What the loop decided, with the instant at which posture is imposed on it. -/
structure Verdict where
  now : Timestamp
  decided : LiveWaitOutcome

/-- A cancelled wait reads the clock for its posture and again for its outcome. -/
def cancelledVerdict : Act σ β Verdict := do
  let now ← env.now
  let completedAt ← env.now
  return ⟨now, cancelled request completedAt⟩

/-- Decide on what is ready; an outcome is finished at a later reading of the clock. -/
def decideNow (binds : List (Nat × β)) (ready : List (Nat × Observation))
    (starts : List ResolvedStart) : Fallible σ β (Option Verdict) := do
  let now ← liftM env.now
  match ← decideAndRestore env set request now binds ready starts with
  | some outcome =>
    let now ← liftM env.now
    return some ⟨now, outcome⟩
  | none => return none

/-- Handler of the race branch over binds that exist. -/
def onObserved (fuel : Nat) (wait : Wait β) (binds : List (Nat × β))
    (starts : List ResolvedStart) (collected : FirstReadyOutput Observation) :
    Fallible σ β (Wait β × Option Verdict) :=
  match collected.error with
  | some err => do
    restoreOwned env binds collected.ready
    throw err
  | none => do
    let ready ← liftM (extendReadyRefs env binds collected.ready)
    match ← decideNow env set request binds ready starts with
    | some verdict => return (wait, some verdict)
    | none =>
      let step := saturatingAdd wait.backoffStep 1
      liftM (sleepBackoff env request fuel step)
      if ← liftM env.isCancelled then
        let verdict ← liftM (cancelledVerdict env request)
        return ({ wait with backoffStep := step }, some verdict)
      else
        return ({ wait with backoffStep := step }, none)

/-- Handler of the timer branch over binds that exist: a last look at what is due. -/
def onSlept (wait : Wait β) (binds : List (Nat × β)) (starts : List ResolvedStart)
    (leftover : List (Nat × Observation)) : Fallible σ β (Wait β × Option Verdict) := do
  let now ← liftM env.now
  restoreOwned env binds leftover
  let ready ← liftM (extendReadyRefs env binds [])
  match ← decideAndRestore env set request now binds ready starts with
  | some outcome => return (wait, some ⟨now, outcome⟩)
  | none => return (wait, (terminalDeadline set request now starts).map fun done => ⟨now, done⟩)

/-- One turn of a wait that has its binds. -/
def turnObserving (fuel : Nat) (wait : Wait β) (binds : List β) :
    Fallible σ β (Wait β × Option Verdict) := do
  let starts := startsFromBinds env binds
  let indexed := indexedBinds binds
  let futs ← liftM (nextEach env indexed)
  let (arms, ended) ← liftM (selectRace env (pollNextArm env) observationIsTerminal
    (earliestDeadline request) fuel (FirstReady.new futs))
  Fallible.thenDrop
    (match ended with
      | .collected collected => onObserved env set request fuel wait indexed starts collected
      | .cancelled => do
        restoreOwned env indexed (FirstReady.takeReady arms)
        let verdict ← liftM (cancelledVerdict env request)
        return (wait, some verdict)
      | .slept => onSlept env set request wait indexed starts (FirstReady.takeReady arms))
    (FirstReady.drop env.dropNext arms)

/-- Handler of the race branch of a wait that binds. -/
def onBound (fuel : Nat) (wait : Wait β) (collected : FirstReadyOutput (β × Observation)) :
    Fallible σ β (Wait β × Option Verdict) :=
  match collected.error with
  | some err => do
    restoreBoundPairs env collected.ready
    throw err
  | none => do
    let binds := collected.ready.map fun p => (p.1, p.2.1)
    let observations := collected.ready.map fun p => (p.1, p.2.2)
    let ready ← liftM (extendReadyRefs env binds observations)
    match ← decideNow env set request binds ready (startsFromIndexed env binds) with
    | some verdict => return (wait, some verdict)
    | none =>
      let held := (binds.mergeSort fun p q => p.1 ≤ q.1).map Prod.snd
      let step := saturatingAdd wait.backoffStep 1
      liftM (sleepBackoff env request fuel step)
      return (⟨step, some held⟩, none)

/-- One turn of a wait that has no binds. -/
def turnBinding (fuel : Nat) (wait : Wait β) : Fallible σ β (Wait β × Option Verdict) := do
  let futs := set.registrations.map BindThenObserve.start
  let (arms, ended) ← liftM (selectRace env (pollBindThenObserve env)
    (fun value => observationIsTerminal value.2) (earliestDeadline request) fuel
    (FirstReady.new futs))
  Fallible.thenDrop
    (match ended with
      | .collected collected => onBound env set request fuel wait collected
      | .cancelled => do
        restoreBoundPairs env (FirstReady.takeReady arms)
        let verdict ← liftM (cancelledVerdict env request)
        return (wait, some verdict)
      | .slept => do
        restoreBoundPairs env (FirstReady.takeReady arms)
        let now ← liftM env.now
        let starts ← liftM (snapshot : Act σ β (List ResolvedStart))
        return (wait, (terminalDeadline set request now starts).map fun done => ⟨now, done⟩))
    (FirstReady.drop (dropBindThenObserve env) arms)

/-- The starts a turn knows of. -/
def knownStarts (wait : Wait β) : Act σ β (List ResolvedStart) :=
  match wait.bound with
  | some binds => return startsFromBinds env binds
  | none => snapshot

/-- One turn of `run_loop`: the entry checks, then a race. -/
def turn (fuel : Nat) (wait : Wait β) : Fallible σ β (Wait β × Option Verdict) := do
  if ← liftM env.isCancelled then
    let verdict ← liftM (cancelledVerdict env request)
    return (wait, some verdict)
  else
    let starts ← liftM (knownStarts env wait)
    let now ← liftM env.now
    match terminalDeadline set request now starts with
    | some done =>
      let now ← liftM env.now
      return (wait, some ⟨now, done⟩)
    | none =>
      match wait.bound with
      | some binds => turnObserving env set request fuel wait binds
      | none => turnBinding env set request fuel wait

/-- The loop of `run_loop`, up to its verdict. -/
def matchLoop (fuel : Nat) : Nat → Wait β → Fallible σ β Verdict
  | 0, _ => ExceptT.mk Act.exhausted
  | turns + 1, wait => do
    match ← turn env set request fuel wait with
    | (_, some verdict) => return verdict
    | (wait, none) => matchLoop fuel turns wait

/-- `run_loop`: every exit finishes what the loop decided. -/
def runLoop (fuel : Nat) : Fallible σ β LiveWaitOutcome := do
  liftM (newResolved : Act σ β Unit)
  let verdict ← matchLoop env set request fuel fuel ⟨0, none⟩
  return finish set request verdict.now verdict.decided

/-- `run_first_match`: resolve the cited set and wait for a first match. -/
def runFirstMatch (fuel : Nat) : Fallible σ β LiveWaitOutcome := do
  ExceptT.mk (pure (resolve set request))
  runLoop env set request fuel

end Live

end Waitprims
