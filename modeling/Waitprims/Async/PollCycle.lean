import Mathlib
import Waitprims.Async.PollOutcome
import Waitprims.Async.Race

/-! # The poll-cycle runner

One cycle binds and observes in one race, allocates visits from the fairness cursor within the
budget, honours both deadlines, and emits one outcome. What a cycle admitted stays uncommitted, so
every exit puts the admitted events back.

* **`recordReady`** — visit the arms that have an observation: admit and drain, or defer.
* **`turn`** — one pass of the loop: the entry checks, one `select!`, and its handler.
* **`emit`** — put back what was admitted and hand out the outcome.
* **`runPollCycle`** — check the citations of the request, loop, emit.

An `async fn` runs nothing before its first poll and a `select!` drops its branches before the
handler of the winner runs; both are explicit here. `fuel` bounds the polls of one `select!`, the
events of one drain and the turns of the loop. -/

namespace Waitprims

open TreeMap (collectMap)

namespace PollCycle

variable {σ β φ ψ : Type}

/-! ## Resolving the request -/

/-- `resolve`: the request cites this set, this revision, this waiter and known registrations. -/
def resolve (set : RegistrationSet) (request : PollCycleRequest) : Except Error Unit :=
  if request.registrationSetRef != set.messageId then
    .error (validationError "/registration_set_ref" "mismatch")
  else if request.registrationRevision != set.registrationRevision then
    .error (validationError "/registration_revision" "revision_mismatch")
  else if request.waiterId != set.waiterId then
    .error (validationError "/waiter_id" "mismatch")
  else if request.acknowledgedAnchors.keys.all fun key =>
      set.registrations.any fun registration => registration.registrationId == key then
    .ok ()
  else
    .error (validationError "/acknowledged_anchors" "unknown_registration")

/-! ## Starts -/

/-- `merge_starts`: one start for each registration; a slot replaces a resolved one. -/
def mergeStarts (slots resolved : List ResolvedStart) : List ResolvedStart :=
  (collectMap ((resolved ++ slots).map fun start => (start.registrationId, start))).values

/-- `starts_from_slots`. -/
def startsFromSlots (env : Env σ β φ ψ) (binds : List (Option β)) : List ResolvedStart :=
  binds.filterMap fun slot => slot.map fun bind =>
    ⟨env.registrationId bind, env.resolvedStart bind⟩

/-! ## The bind race -/

/-- `bind_registration`: an acknowledged anchor replaces the start of a registration. -/
def bindRegistration (registration : Registration) (request : PollCycleRequest) : Registration :=
  match request.acknowledgedAnchors[registration.registrationId]? with
  | some ack => { registration with startAnchor := some ack, baselinePolicy := none }
  | none => registration

/-- The `bind_one` future. -/
inductive BindOne (φ : Type)
  | start (registration : Registration)
  | binding (registration : Registration) (fut : φ)

variable (env : Env σ β φ ψ) (set : RegistrationSet) (request : PollCycleRequest)

/-- `bind_one` after its `bind` has answered: a bind must start where the consumer acknowledged. -/
def acceptBind (registration : Registration) (bind : β) : Act σ β (Except Error β) :=
  match request.acknowledgedAnchors[registration.registrationId]? with
  | some expected =>
    if env.resolvedStart bind != expected then
      return .error (validationError "/acknowledged_anchors" "bind_start_mismatch")
    else do
      env.recordResolved bind
      return .ok bind
  | none => do
    env.recordResolved bind
    return .ok bind

/-- Poll a `bind` future inside `bind_one`. -/
def pollBinding (registration : Registration) (fut : φ) : Act σ β (Polled (BindOne φ) β) := do
  match ← env.pollBind fut with
  | .ready (.ok bind) => return .ready (← acceptBind env request registration bind)
  | .ready (.error err) => return .ready (.error err)
  | .pending => return .pending (.binding registration fut)

/-- One poll of `bind_one`. -/
def pollBindOne : BindOne φ → Act σ β (Polled (BindOne φ) β)
  | .start registration => do
    let fut ← env.bind registration
    pollBinding env request registration fut
  | .binding registration fut => pollBinding env request registration fut

/-- Drop `bind_one`. -/
def dropBindOne : BindOne φ → Act σ β Unit
  | .start _ => return ()
  | .binding _ fut => env.dropBind fut

/-- `remap_ready`: from positions in a race to registration indices. -/
def remapReady {T : Type} (pending : List Nat) (ready : List (Nat × T)) : List (Nat × T) :=
  ready.filterMap fun p => pending[p.1]?.map fun idx => (idx, p.2)

/-- The `bind_unbound` future: its race; no bind is called before the first poll. -/
def bindUnbound (unbound : List Nat) : List (Arm (BindOne φ) β) :=
  FirstReady.new (unbound.filterMap fun idx =>
    set.registrations[idx]?.map fun registration =>
      .start (bindRegistration registration request))

/-- One poll of `bind_unbound`. Every bind ends its race. -/
def pollBindUnbound (unbound : List Nat) (arms : List (Arm (BindOne φ) β)) :
    Act σ β (List (Arm (BindOne φ) β) × Option (FirstReadyOutput β)) :=
  if unbound.isEmpty then
    return (arms, none)
  else do
    let (arms, out) ← FirstReady.poll (pollBindOne env request) (fun _ => true) arms
    match out with
    | none => return (arms, none)
    | some out =>
      FirstReady.drop (dropBindOne env) arms
      return ([], some { out with ready := remapReady unbound out.ready })

/-! ## The observation race -/

/-- A pending `next` future with the bind it borrows. -/
abbrev NextArm (β ψ : Type) := Arm (β × ψ) Observation

/-- `pending_refs`: the binds at the pending indices. -/
def pendingRefs (binds : List (Option β)) (pending : List Nat) : List (Nat × β) :=
  pending.filterMap fun idx => (binds[idx]?.join).map fun bind => (idx, bind)

/-- `occupied_refs`: every bind there is. -/
def occupiedRefs (binds : List (Option β)) : List (Nat × β) :=
  pendingRefs binds (List.range binds.length)

/-- One poll of a `next` future as an arm of a race. -/
def pollNextArm (fut : β × ψ) : Act σ β (Polled (β × ψ) Observation) := do
  match ← env.pollNext fut with
  | .ready result => return .ready result
  | .pending => return .pending fut

/-- Call `next` on each bind in turn. -/
def nextEach : List (Nat × β) → Act σ β (List (β × ψ))
  | [] => return []
  | (_, bind) :: rest => do
    let fut ← env.next bind
    let futs ← nextEach rest
    return fut :: futs

/-- The race of `observe_pending`, created at its first poll. -/
def startObserving (pending : List (Nat × β)) :
    Option (List (NextArm β ψ)) → Act σ β (List (NextArm β ψ))
  | some arms => return arms
  | none => do
    let futs ← nextEach env pending
    return FirstReady.new futs

/-- One poll of `observe_pending`. -/
def pollObservePending (pending : List (Nat × β)) (observing : Option (List (NextArm β ψ))) :
    Act σ β (Option (List (NextArm β ψ)) × Option (FirstReadyOutput Observation)) :=
  if pending.isEmpty then
    return (observing, none)
  else do
    let arms ← startObserving env pending observing
    let (arms, out) ← FirstReady.poll (pollNextArm env) observationIsTerminal arms
    match out with
    | none => return (some arms, none)
    | some out =>
      FirstReady.drop env.dropNext arms
      return (none, some { out with ready := remapReady (pending.map Prod.fst) out.ready })

/-- Drop `observe_pending`. -/
def dropObserving : Option (List (NextArm β ψ)) → Act σ β Unit
  | none => return ()
  | some arms => FirstReady.drop env.dropNext arms

/-! ## The two `select!`s -/

/-- The branch that wins a `select!`: a race with what it collected, the token or the timer. -/
inductive Selected (γ : Type)
  | collected (output : γ)
  | cancelled
  | slept

/-- The `select!` of a cycle that has a bind. The branches are polled in the order written; the
losers are dropped before the handler runs. -/
def selectObserving (pending : List (Nat × β)) (unbound : List Nat) (waitUntil : Timestamp) :
    Nat → Option (List (NextArm β ψ)) → List (Arm (BindOne φ) β) →
      Act σ β (Selected (FirstReadyOutput Observation ⊕ FirstReadyOutput β))
  | 0, _, _ => Act.exhausted
  | fuel + 1, observing, binding => do
    let (observing, observed) ← pollObservePending env pending observing
    match observed with
    | some collected =>
      FirstReady.drop (dropBindOne env) binding
      return .collected (.inl collected)
    | none =>
      let (binding, bound) ← pollBindUnbound env request unbound binding
      match bound with
      | some collected =>
        dropObserving env observing
        return .collected (.inr collected)
      | none =>
        if ← env.isCancelled then
          dropObserving env observing
          FirstReady.drop (dropBindOne env) binding
          return .cancelled
        else if ← env.sleepUntil waitUntil then
          dropObserving env observing
          FirstReady.drop (dropBindOne env) binding
          return .slept
        else
          env.park
          selectObserving pending unbound waitUntil fuel observing binding

/-- The `select!` of a cycle that has no bind yet. -/
def selectBinding (unbound : List Nat) (waitUntil : Timestamp) :
    Nat → List (Arm (BindOne φ) β) → Act σ β (Selected (FirstReadyOutput β))
  | 0, _ => Act.exhausted
  | fuel + 1, binding => do
    let (binding, bound) ← pollBindUnbound env request unbound binding
    match bound with
    | some collected => return .collected collected
    | none =>
      if ← env.isCancelled then
        FirstReady.drop (dropBindOne env) binding
        return .cancelled
      else if ← env.sleepUntil waitUntil then
        FirstReady.drop (dropBindOne env) binding
        return .slept
      else
        env.park
        selectBinding unbound waitUntil fuel binding

/-! ## Handing observations back -/

/-- `observer.restore_ready(bind, obs)?`. -/
def restore (bind : β) (obs : Observation) : Fallible σ β Unit :=
  ExceptT.mk (env.restoreReady bind obs)

/-- `restore_observation`: nothing happens where there is no bind. -/
def restoreObservation : Option β → Observation → Fallible σ β Unit
  | some bind, obs => restore env bind obs
  | none, _ => return ()

/-- Restore each observation to the bind at its index. -/
def restoreEach (binds : List (Option β)) : List (Nat × Observation) → Fallible σ β Unit
  | [] => return ()
  | (idx, obs) :: rest => do
    restoreObservation env binds[idx]?.join obs
    restoreEach binds rest

/-- `restore_owned_observations`: put back the events, and only those. -/
def restoreOwnedObservations (binds : List (Option β)) (ready : List (Nat × Observation)) :
    Fallible σ β Unit :=
  restoreEach env binds (ready.filter fun p => observationIsReplayable p.2)

/-- Restore events to one bind in turn. -/
def restoreEvents (bind : β) : List WaitEvent → Fallible σ β Unit
  | [] => return ()
  | event :: rest => do
    restore env bind (.event event)
    restoreEvents bind rest

/-- Restore what each visit holds, newest first. -/
def restoreVisits (binds : List (Option β)) : List (Nat × ArmVisit) → Fallible σ β Unit
  | [] => return ()
  | (idx, visit) :: rest =>
    match binds[idx]?.join with
    | none => restoreVisits binds rest
    | some bind => do
      restoreEvents env bind visit.held.reverse
      restoreVisits binds rest

/-- `restore_admitted`. -/
def restoreAdmitted (binds : List (Option β)) (visits : Visits) : Fallible σ β Unit :=
  restoreVisits env binds visits.toList

/-- `emit`: put back everything admitted, whatever the outcome; an error wins over a failed
restore, and a failed restore over an outcome. -/
def emit (binds : List (Option β)) (visits : Visits) (outcome : Except Error PollCycleOutcome) :
    Fallible σ β PollCycleOutcome := do
  let restored ← liftM (restoreAdmitted env binds visits).run
  match outcome, restored with
  | .ok out, .ok () => return out
  | .error err, _ => throw err
  | .ok _, .error err => throw err

/-! ## Visiting the arms that are ready -/

/-- `extend_ready_refs`: poll each bind that has nothing ready yet. -/
def extendReadyRefs : List (Nat × β) → List (Nat × Observation) →
    Act σ β (List (Nat × Observation))
  | [], ready => return ready
  | (idx, bind) :: rest, ready =>
    if ready.any fun p => p.1 == idx then
      extendReadyRefs rest ready
    else do
      match ← env.pollReady bind with
      | some obs => extendReadyRefs rest (ready ++ [(idx, obs)])
      | none => extendReadyRefs rest ready

/-- `defer_ready`: put an observation back; its arm is deferred. -/
def deferReady (bind : Option β) (obs : Observation) : Fallible σ β ArmVisit := do
  restoreObservation env bind obs
  return .deferred

/-- The loop of `drain_ready`: take events while the budget has room; whether it was cut short. -/
def drainLoop (bind : β) :
    Nat → CollectBudget → List WaitEvent → Fallible σ β (Bool × CollectBudget × List WaitEvent)
  | 0, _, _ => ExceptT.mk Act.exhausted
  | fuel + 1, budget, events =>
    if !budget.roomForRegistration (env.registrationId bind) then
      return (true, budget, events)
    else do
      match ← liftM (env.pollReady bind) with
      | none => return (false, budget, events)
      | some (.event event) =>
        match budget.tryTake event with
        | none =>
          restoreObservation env (some bind) (.event event)
          return (true, budget, events)
        | some budget => drainLoop bind fuel budget (events ++ [event])
      | some .overflow => return (true, budget, events)
      | some other =>
        -- Signals of every other kind are handed back too, not only events.
        restoreObservation env (some bind) other
        return (false, budget, events)

/-- `drain_ready`. -/
def drainReady (bind : β) (fuel : Nat) (budget : CollectBudget) (events : List WaitEvent) :
    Fallible σ β (Bool × CollectBudget × List WaitEvent) :=
  if !budget.roomForRegistration (env.registrationId bind) then
    return (true, budget, events)
  else
    drainLoop env bind fuel budget events

/-- `visit_from` once the first event is admitted: drain its bind. -/
def visitAdmitted (bind : Option β) (fuel : Nat) (budget : CollectBudget) (event : WaitEvent) :
    Fallible σ β (ArmVisit × CollectBudget) :=
  match bind with
  | none => return (.events [event], budget)
  | some bind => do
    liftM (Act.record [.admitted bind] : Act σ β Unit)
    let (truncated, budget, events) ← drainReady env bind fuel budget [event]
    return (if truncated then .saturated events else .events events, budget)

/-- `visit_from`: what an observation makes of its arm. -/
def visitFrom (bind : Option β) (fuel : Nat) (budget : CollectBudget) :
    Observation → Fallible σ β (ArmVisit × CollectBudget)
  | .event event =>
    match budget.tryTake event with
    | none => do
      let visit ← deferReady env bind (.event event)
      return (visit, budget)
    | some budget => visitAdmitted env bind fuel budget event
  | .idle => return (.idle, budget)
  | .overflow => return (.overflow, budget)
  | .failed reasonCode => return (.failed reasonCode, budget)
  | .outage reasonCode => return (.outage reasonCode, budget)
  | .cursorUncertain reasonCode => return (.cursorUncertain reasonCode, budget)
  | .degraded reasonCode => return (.degraded reasonCode, budget)

/-- One arm of `record_ready`: an event is deferred outright when the budget is exhausted. -/
def visitReady (bind : Option β) (fuel : Nat) (budget : CollectBudget) (obs : Observation) :
    Fallible σ β (ArmVisit × CollectBudget) :=
  if budget.exhausted && observationIsReplayable obs then do
    let visit ← deferReady env bind obs
    return (visit, budget)
  else
    visitFrom env bind fuel budget obs

/-- The first loop of `record_ready`: one observation for each index; a second one goes back. -/
def gatherReady (binds : List (Option β)) :
    List (Nat × Observation) → BTreeMap Nat Observation → Fallible σ β (BTreeMap Nat Observation)
  | [], readyMap => return readyMap
  | (idx, obs) :: rest, readyMap =>
    if idx ∈ readyMap then do
      restoreObservation env binds[idx]?.join obs
      gatherReady binds rest readyMap
    else
      gatherReady binds rest (readyMap.insert idx obs)

/-- What `record_ready` works on: the visits, the budget, and the observations not used yet. -/
structure Recording where
  visits : Visits
  budget : CollectBudget
  readyMap : BTreeMap Nat Observation

/-- The second loop of `record_ready`: visit the ready arms in fairness order. -/
def visitEach (binds : List (Option β)) (fuel : Nat) :
    List Nat → Recording → Fallible σ β Recording
  | [], rec => return rec
  | idx :: rest, rec =>
    if idx ∈ rec.visits then
      visitEach binds fuel rest rec
    else
      match rec.readyMap[idx]? with
      | none => visitEach binds fuel rest rec
      | some obs => do
        let (visit, budget) ← visitReady env binds[idx]?.join fuel rec.budget obs
        liftM (Act.record ((binds[idx]?.join).toList.map Call.visited) : Act σ β Unit)
        visitEach binds fuel rest
          ⟨rec.visits.insert idx visit, budget, rec.readyMap.erase idx⟩

/-- `record_ready`: visit what is ready; observations of arms already visited go back. -/
def recordReady (binds : List (Option β)) (fuel : Nat) (budget : CollectBudget) (visits : Visits)
    (ready : List (Nat × Observation)) : Fallible σ β (CollectBudget × Visits) := do
  let readyMap ← gatherReady env binds ready ∅
  let rec ← visitEach env binds fuel (fairnessOrder set request) ⟨visits, budget, readyMap⟩
  restoreEach env binds rec.readyMap.toList
  return (rec.budget, rec.visits)

/-! ## The loop -/

/-- The variables of `run_loop`. -/
structure Cycle (β : Type) where
  bound : List (Option β)
  anyBound : Bool
  visits : Visits
  budget : CollectBudget

/-- A fresh cycle. -/
def Cycle.new : Cycle β where
  bound := set.registrations.map fun _ => none
  anyBound := false
  visits := ∅
  budget := CollectBudget.new set request

/-- Why the loop ends, with the instant and the starts it decides on. -/
inductive Decision
  | cancelled (now : Timestamp) (starts : List ResolvedStart)
  | deadline (now : Timestamp) (starts : List ResolvedStart)
  | complete (now : Timestamp) (starts : List ResolvedStart)
  | fault (err : Error)

/-- The outcome a decision emits. -/
def Decision.outcome (visits : Visits) : Decision → Except Error PollCycleOutcome
  | .cancelled now starts => finish set request now starts visits (some "consumer_cancelled")
  | .deadline now starts => decideAtDeadline set request now starts visits
  | .complete now starts => assemble set request now starts visits
  | .fault err => .error err

/-- `bound[idx] = Some(bind)` for each bind. -/
def storeBinds (bound : List (Option β)) (ready : List (Nat × β)) : List (Option β) :=
  ready.foldl (fun bound p => bound.set p.1 (some p.2)) bound

/-- Visit what is ready and end the cycle once every registration is accounted for. -/
def recordAndCheck (fuel : Nat) (cycle : Cycle β) (ready : List (Nat × Observation))
    (starts : List ResolvedStart) : Fallible σ β (Cycle β × Option Decision) := do
  let (budget, visits) ←
    recordReady env set request cycle.bound fuel cycle.budget cycle.visits ready
  let cycle := { cycle with budget, visits }
  if visits.size = set.registrations.length then
    let now ← liftM env.now
    return (cycle, some (.complete now starts))
  else
    return (cycle, none)

/-- Handler of the bind branch of either `select!`. -/
def onBound (fuel : Nat) (cycle : Cycle β) (collected : FirstReadyOutput β) :
    Fallible σ β (Cycle β × Option Decision) :=
  match collected.error with
  | some err => return (cycle, some (.fault err))
  | none => do
    let bound := storeBinds cycle.bound collected.ready
    let cycle := { cycle with bound, anyBound := cycle.anyBound || !collected.ready.isEmpty }
    let observations ← liftM (extendReadyRefs env (occupiedRefs bound) [])
    recordAndCheck env set request fuel cycle observations (startsFromSlots env bound)

/-- Handler of the observe branch. -/
def onObserved (fuel : Nat) (cycle : Cycle β) (pending : List (Nat × β))
    (starts : List ResolvedStart) (collected : FirstReadyOutput Observation) :
    Fallible σ β (Cycle β × Option Decision) :=
  match collected.error with
  | some err => do
    restoreOwnedObservations env cycle.bound collected.ready
    return (cycle, some (.fault err))
  | none => do
    let ready ← liftM (extendReadyRefs env pending collected.ready)
    recordAndCheck env set request fuel cycle ready starts

/-- One turn of a cycle that has a bind. -/
def turnObserving (fuel : Nat) (cycle : Cycle β) (starts : List ResolvedStart) :
    Fallible σ β (Cycle β × Option Decision) := do
  let order := fairnessOrder set request
  let pending := order.filter fun idx => (cycle.bound[idx]?.join).isSome && idx ∉ cycle.visits
  let unbound := order.filter fun idx => (cycle.bound[idx]?.join).isNone && idx ∉ cycle.visits
  if pending.isEmpty && (cycle.visits.size == set.registrations.length || unbound.isEmpty) then
    let now ← liftM env.now
    return (cycle, some (.complete now starts))
  else
    let refs := pendingRefs cycle.bound pending
    let selected ← liftM (selectObserving env request refs unbound (earliestDeadline request) fuel
      none (bindUnbound set request unbound))
    match selected with
    | .collected (.inl collected) => onObserved env set request fuel cycle refs starts collected
    | .collected (.inr collected) => onBound env set request fuel cycle collected
    | .cancelled =>
      let now ← liftM env.now
      return (cycle, some (.cancelled now starts))
    | .slept =>
      let now ← liftM env.now
      let ready ← liftM (extendReadyRefs env refs [])
      let (budget, visits) ←
        recordReady env set request cycle.bound fuel cycle.budget cycle.visits ready
      return ({ cycle with budget, visits }, some (.deadline now starts))

/-- One turn of a cycle that has no bind yet. -/
def turnBinding (fuel : Nat) (cycle : Cycle β) : Fallible σ β (Cycle β × Option Decision) := do
  let order := fairnessOrder set request
  let selected ← liftM (selectBinding env request order (earliestDeadline request) fuel
    (bindUnbound set request order))
  match selected with
  | .collected collected => onBound env set request fuel cycle collected
  | .cancelled =>
    let now ← liftM env.now
    let starts ← liftM (snapshot : Act σ β (List ResolvedStart))
    return (cycle, some (.cancelled now starts))
  | .slept =>
    let now ← liftM env.now
    let starts ← liftM (snapshot : Act σ β (List ResolvedStart))
    return (cycle, some (.deadline now starts))

/-- One turn of `run_loop`: the entry checks, then a `select!` and its handler. -/
def turn (fuel : Nat) (cycle : Cycle β) : Fallible σ β (Cycle β × Option Decision) := do
  if ← liftM env.isCancelled then
    let now ← liftM env.now
    let starts ← liftM (snapshot : Act σ β (List ResolvedStart))
    return (cycle, some (.cancelled now starts))
  else
    let resolved ← liftM (snapshot : Act σ β (List ResolvedStart))
    let starts := mergeStarts (startsFromSlots env cycle.bound) resolved
    if deadlineReached request (← liftM env.now) then
      let now ← liftM env.now
      return (cycle, some (.deadline now starts))
    else if cycle.anyBound then
      turnObserving env set request fuel cycle starts
    else
      turnBinding env set request fuel cycle

/-- The loop of `run_loop`, up to its decision. -/
def cycleLoop (fuel : Nat) : Nat → Cycle β → Fallible σ β (Cycle β × Decision)
  | 0, _ => ExceptT.mk Act.exhausted
  | turns + 1, cycle => do
    match ← turn env set request fuel cycle with
    | (cycle, some decision) => return (cycle, decision)
    | (cycle, none) => cycleLoop fuel turns cycle

/-- `run_loop`: loop over a fresh cell of resolved starts, then emit what was decided. -/
def runLoop (fuel : Nat) : Fallible σ β PollCycleOutcome := do
  liftM (newResolved : Act σ β Unit)
  let (cycle, decision) ← cycleLoop env set request fuel fuel (Cycle.new set request)
  emit env cycle.bound cycle.visits (decision.outcome set request cycle.visits)

/-- `run_poll_cycle`: resolve the cited set and run one cycle. -/
def runPollCycle (fuel : Nat) : Fallible σ β PollCycleOutcome := do
  ExceptT.mk (pure (resolve set request))
  runLoop env set request fuel

end PollCycle

end Waitprims
