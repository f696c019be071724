import Mathlib
import Waitprims.Async.Budget
import Waitprims.Async.Observer

/-! # What a poll cycle reports

The pure half of the poll-cycle runner: from the starts that were resolved and the visits that were
recorded, decide the outcome kind, build the outcome and impose the posture of the set.

* **`ArmVisit`** — what a cycle knows about one registration once it has visited it.
* **`fairnessOrder`** — the visiting order, rotated by the request's fairness cursor.
* **`decideKind`** and **`build`** — the outcome for the visits as they stand.
* **`applyPosture`** — rewrite it when a lease has expired or authentication is missing.
* **`decideAtDeadline`**, **`finish`**, **`assemble`** — the three ways a cycle ends. -/

namespace Waitprims

open TreeMap (collectMap)

/-- What a cycle knows about a visited registration. -/
inductive ArmVisit
  | events (found : List WaitEvent)
  /-- Events were found and a bound or an overflow cut the drain short. -/
  | saturated (found : List WaitEvent)
  | idle
  | overflow
  | failed (reason : String)
  | outage (reason : String)
  | cursorUncertain (reason : String)
  | degraded (reason : String)
  /-- An event is due but was put back. -/
  | deferred
  deriving DecidableEq, Repr

/-- The events a visit holds. -/
def ArmVisit.held : ArmVisit → List WaitEvent
  | .events found => found
  | .saturated found => found
  | _ => []

/-- Visits by index of the registration. -/
abbrev Visits := BTreeMap Nat ArmVisit

/-- Kinds whose outcome hands events over. -/
def OutcomeKind.delivers : OutcomeKind → Bool
  | .events | .partialResult => true
  | _ => false

/-- Kinds that withhold every event and report a reason. -/
def OutcomeKind.rejects : OutcomeKind → Bool
  | .cancelled | .failed | .refused | .reauthenticationRequired => true
  | _ => false

namespace PollCycle

/-! ## Arm ids and the fairness cursor -/

/-- `derived_arm_id`: the arm id of a registration that the request names no arm for. -/
def derivedArmId (registration : Registration) : IdToken :=
  "arm:" ++ (stripPrefix "reg:" registration.registrationId).getD registration.registrationId

/-- `arm_id_for`: required registrations take the arm ids of the request in turn. -/
def armIdFor (request : PollCycleRequest) (registration : Registration) (requiredIndex : Nat) :
    IdToken × Nat :=
  if registration.required then
    (request.requiredArms[requiredIndex]?.getD (derivedArmId registration), requiredIndex + 1)
  else
    (derivedArmId registration, requiredIndex)

/-- The arm ids that successive calls of `arm_id_for` hand out, from a given counter. -/
def armIdsFrom (request : PollCycleRequest) : Nat → List Registration → List IdToken
  | _, [] => []
  | requiredIndex, registration :: rest =>
    let (armId, requiredIndex) := armIdFor request registration requiredIndex
    armId :: armIdsFrom request requiredIndex rest

/-- The arm ids of a set, one for each registration in order. -/
def armIds (set : RegistrationSet) (request : PollCycleRequest) : List IdToken :=
  armIdsFrom request 0 set.registrations

/-- A fairness cursor points at a registration through its arm id or its own id, either bare or
behind `fair:`. -/
def cursorMatches (cursor : IdToken) (armId : IdToken) (registration : Registration) : Bool :=
  cursor == armId
    || cursor == "fair:" ++ armId
    || cursor == registration.registrationId
    || cursor == "fair:" ++ registration.registrationId

/-- `fairness_start_index`: the first registration the cursor points at, or the first one. -/
def fairnessStartIndex (set : RegistrationSet) (request : PollCycleRequest) : Nat :=
  if request.fairnessCursor == "fair:start" then
    0
  else
    (((armIds set request).zip set.registrations).findIdx? fun p =>
      cursorMatches request.fairnessCursor p.1 p.2).getD 0

/-- `fairness_order`: every index once, from the start index round. -/
def fairnessOrder (set : RegistrationSet) (request : PollCycleRequest) : List Nat :=
  let n := set.registrations.length
  let start := fairnessStartIndex set request
  (List.range n).map fun i => (start + i) % n

/-- The fairness order is the registration order, rotated. -/
theorem fairnessOrder_eq_rotate (set : RegistrationSet) (request : PollCycleRequest) :
    fairnessOrder set request
      = (List.range set.registrations.length).rotate (fairnessStartIndex set request) := by
  refine List.ext_getElem (by simp [fairnessOrder]) fun i h₁ h₂ => ?_
  simp [fairnessOrder, List.getElem_rotate, Nat.add_comm]

/-- **The fairness order visits every registration exactly once.** -/
theorem fairnessOrder_perm (set : RegistrationSet) (request : PollCycleRequest) :
    (fairnessOrder set request).Perm (List.range set.registrations.length) := by
  rw [fairnessOrder_eq_rotate]
  exact List.rotate_perm _ _

@[simp] theorem mem_fairnessOrder {set : RegistrationSet} {request : PollCycleRequest} {idx : Nat} :
    idx ∈ fairnessOrder set request ↔ idx < set.registrations.length := by
  rw [(fairnessOrder_perm set request).mem_iff, List.mem_range]

theorem nodup_fairnessOrder (set : RegistrationSet) (request : PollCycleRequest) :
    (fairnessOrder set request).Nodup :=
  (fairnessOrder_perm set request).nodup_iff.mpr List.nodup_range

/-- The cursor that names an arm: its id behind `fair:`, unless it starts so already. -/
def fairCursor (armId : IdToken) : IdToken :=
  if (stripPrefix "fair:" armId).isSome then armId else "fair:" ++ armId

/-- `next_fairness_cursor`: name the arm after the one this cycle started at. -/
def nextFairnessCursor (set : RegistrationSet) (request : PollCycleRequest) : IdToken :=
  if set.registrations.isEmpty then
    request.fairnessCursor
  else
    let next := (fairnessStartIndex set request + 1) % set.registrations.length
    fairCursor (((armIds set request)[next]?).getD
      ((set.registrations[next]?.map derivedArmId).getD ""))

/-! ## Arms -/

/-- `honest_start`: the resolved start, else the acknowledged anchor, else the registered one. -/
def honestStart (resolved : List ResolvedStart) (request : PollCycleRequest)
    (registration : Registration) : Option Anchor :=
  match resolved.find? fun item => item.registrationId == registration.registrationId with
  | some item => some item.start
  | none =>
    match request.acknowledgedAnchors[registration.registrationId]? with
    | some ack => some ack
    | none => registration.startAnchor

/-- `visit_status`: arm status, degraded flag, reason and events of a visit. -/
def visitStatus : Option ArmVisit → ArmStatus × Bool × Option String × List WaitEvent
  | some (.events events) => (.events, false, none, events)
  | some (.saturated events) => (.events, false, some "bound_exhausted", events)
  | some .idle => (.noChange, false, none, [])
  | some .overflow => (.observed, false, some "buffer_overflow", [])
  | some (.failed reason) => (.observed, false, some reason, [])
  | some (.outage reason) => (.outage, false, some reason, [])
  | some (.cursorUncertain reason) => (.cursorUncertain, false, some reason, [])
  | some (.degraded reason) => (.observed, true, some reason, [])
  | some .deferred => (.deferred, false, none, [])
  | none => (.deferred, false, none, [])

/-- What one registration adds to an outcome. -/
structure ArmRow where
  arm : CoverageArm
  events : List WaitEvent
  retainedCursor : Anchor
  retainedIds : List IdToken

/-- One iteration of the loop of `build`; a registration without an honest start adds nothing. -/
def armRow (request : PollCycleRequest) (resolved : List ResolvedStart) (visits : Visits)
    (kind : OutcomeKind) (idx : Nat) (armId : IdToken) (registration : Registration) :
    Option ArmRow :=
  match honestStart resolved request registration with
  | none => none
  | some start =>
    let (status, degraded, reason, armEvents) := visitStatus visits[idx]?
    let proposed := (armEvents.getLast?.map WaitEvent.proposedNextAnchor).getD start
    let retainEvents := kind.delivers && status == .events && !armEvents.isEmpty
    some {
      arm := {
        armId
        registrationId := registration.registrationId
        required := registration.required
        status
        degraded
        startAnchor := start
        proposedNextAnchor := proposed
        eventCount := armEvents.length
        byteCount := (armEvents.map eventSurfaceBytes).sum
        reasonCode := match reason with
          | some code => some code
          | none =>
            if degraded || (status == .outage || status == .cursorUncertain) then
              some "arm_dirty"
            else none }
      events := if kind.delivers then armEvents else []
      retainedCursor := if retainEvents then proposed else start
      retainedIds := if retainEvents then armEvents.map WaitEvent.eventId else [] }

/-- The rows of an outcome, in registration order. -/
def armRows (set : RegistrationSet) (request : PollCycleRequest) (resolved : List ResolvedStart)
    (visits : Visits) (kind : OutcomeKind) : List ArmRow :=
  (((armIds set request).zip set.registrations).zipIdx).filterMap fun p =>
    armRow request resolved visits kind p.2 p.1.1 p.1.2

/-- An arm that reported events reports none. -/
def withholdArm (arm : CoverageArm) : CoverageArm :=
  if arm.status = .events then { arm with status := .noChange, eventCount := 0, byteCount := 0 }
  else arm

/-- `empty_event_map`. -/
def emptyEventMap (arms : List CoverageArm) : BTreeMap String (List IdToken) :=
  collectMap (arms.map fun arm => (arm.registrationId, []))

/-- `coverage_is_complete`: every required arm is present and clean. -/
def coverageIsComplete (request : PollCycleRequest) (arms : List CoverageArm)
    (kind : OutcomeKind) : Bool :=
  if kind = .partialResult ∨ kind = .coverageDegraded ∨ kind.rejects then
    false
  else
    request.requiredArms.all fun required => arms.any fun arm =>
      arm.armId == required && !arm.degraded
        && !(arm.status == .outage || arm.status == .cursorUncertain)

/-! ## Building an outcome -/

/-- `build`: the outcome of a given kind for the visits as they stand. -/
def build (set : RegistrationSet) (request : PollCycleRequest) (completedAt : Timestamp)
    (resolved : List ResolvedStart) (visits : Visits) (kind : OutcomeKind)
    (reasonCode : Option String) : Except Error PollCycleOutcome :=
  let rows := armRows set request resolved visits kind
  if rows.isEmpty then
    .error (validationError "/arms" "unresolved_start")
  else
    let found := rows.map ArmRow.arm
    let arms := if kind.rejects then found.map withholdArm else found
    .ok {
      capabilities := request.capabilities
      messageId := request.messageId ++ ":outcome"
      correlationId := request.correlationId
      createdAt := completedAt
      actorRef := request.actorRef
      causationId := some request.messageId
      grantRef := request.grantRef
      verificationReceiptRef := request.verificationReceiptRef
      policyDecisionRef := request.policyDecisionRef
      waiterId := request.waiterId
      requestRef := request.messageId
      completedAt
      logicalDeadline := request.logicalDeadline
      outcomeKind := kind
      events := if kind.rejects then [] else rows.flatMap ArmRow.events
      coverageComplete := coverageIsComplete request arms kind
      arms
      retainedThrough := collectMap
        (rows.map fun row => (row.arm.registrationId, row.retainedCursor))
      retainedEvents :=
        if kind.rejects then emptyEventMap arms
        else collectMap (rows.map fun row => (row.arm.registrationId, row.retainedIds))
      proposedNextAnchors := collectMap
        (rows.map fun row => (row.arm.registrationId, row.arm.proposedNextAnchor))
      fairnessCursor := request.fairnessCursor
      nextFairnessCursor := nextFairnessCursor set request
      acknowledgedAnchors :=
        if request.acknowledgedAnchors.isEmpty then none else some request.acknowledgedAnchors
      bound := request.bound
      reasonCode }

/-! ## Posture -/

/-- `rebuild_reason`: turn an outcome into a rejection. -/
def rebuildReason (outcome : PollCycleOutcome) (kind : OutcomeKind) (reason : String) :
    PollCycleOutcome :=
  let arms := outcome.arms.map withholdArm
  { outcome with
    outcomeKind := kind
    reasonCode := some reason
    events := []
    coverageComplete := false
    arms
    retainedEvents := emptyEventMap arms }

/-- Some lease of the set has expired at `now`. -/
def leaseExpired (set : RegistrationSet) (now : Timestamp) : Bool :=
  set.registrations.any fun reg => decide (now > reg.leaseExpiresAt)

/-- The set requires authentication and the request carries no receipt. -/
def authnMissing (set : RegistrationSet) (receipt : Option OpaqueRef) : Bool :=
  set.authnMode == .required && receipt.isNone

/-- `apply_posture`: an outcome that is no rejection becomes one when a lease has expired or
authentication is missing. -/
def applyPosture (set : RegistrationSet) (request : PollCycleRequest)
    (outcome : PollCycleOutcome) : PollCycleOutcome :=
  if outcome.outcomeKind.rejects then
    outcome
  else if leaseExpired set outcome.completedAt then
    rebuildReason outcome .reauthenticationRequired "lease_expired"
  else if authnMissing set request.verificationReceiptRef then
    rebuildReason outcome .refused "authn_required"
  else
    outcome

/-! ## Deciding the kind -/

/-- What `decide_kind` gathers from the visits. -/
structure Tally where
  events : List WaitEvent
  overflow : Bool
  truncated : Bool
  /-- Reason of the last failed arm. -/
  failed : Option String
  /-- A required arm saw an outage, an uncertain cursor or degradation. -/
  dirty : Bool
  deferredRequired : Bool

/-- One iteration of the loop of `decide_kind`. -/
def Tally.visit (tally : Tally) (required : Bool) : Option ArmVisit → Tally
  | some (.events found) => { tally with events := tally.events ++ found }
  | some (.saturated found) => { tally with events := tally.events ++ found, truncated := true }
  | some .overflow => { tally with overflow := true }
  | some (.failed reason) => { tally with failed := some reason }
  | some (.outage _) | some (.cursorUncertain _) | some (.degraded _) =>
    { tally with dirty := tally.dirty || required }
  | some .deferred => { tally with deferredRequired := tally.deferredRequired || required }
  | some .idle | none => tally

/-- The loop of `decide_kind`, in fairness order. -/
def tally (set : RegistrationSet) (request : PollCycleRequest) (visits : Visits) : Tally :=
  (fairnessOrder set request).foldl
    (fun acc idx => match set.registrations[idx]? with
      | some registration => acc.visit registration.required visits[idx]?
      | none => acc)
    ⟨[], false, false, none, false, false⟩

/-- The kind and reason for a tally. -/
def Tally.kind (tally : Tally) (atLogical : Bool) : OutcomeKind × Option String :=
  if tally.overflow && tally.events.isEmpty then (.failed, some "buffer_overflow")
  else if tally.overflow then (.partialResult, none)
  else if tally.dirty then (.coverageDegraded, none)
  else match tally.failed with
    | some reason =>
      if tally.events.isEmpty then (.failed, some reason) else (.coverageDegraded, none)
    | none =>
      if !tally.events.isEmpty then
        (if tally.deferredRequired || tally.truncated then .partialResult else .events, none)
      else if tally.truncated then (.partialResult, none)
      else if tally.deferredRequired && !atLogical then (.partialResult, none)
      else if atLogical then (.logicalDeadman, none)
      else (.noChange, none)

/-- `decide_kind`. -/
def decideKind (set : RegistrationSet) (request : PollCycleRequest) (now : Timestamp)
    (resolved : List ResolvedStart) (visits : Visits) : Except Error PollCycleOutcome :=
  let (kind, reason) := (tally set request visits).kind (decide (now ≥ request.logicalDeadline))
  build set request now resolved visits kind reason

/-! ## The ends of a cycle -/

/-- `assemble`: every registration has been accounted for. -/
def assemble (set : RegistrationSet) (request : PollCycleRequest) (now : Timestamp)
    (resolved : List ResolvedStart) (visits : Visits) : Except Error PollCycleOutcome := do
  let outcome ← decideKind set request now resolved visits
  return applyPosture set request outcome

/-- `finish`: end with a forced reason, if there is one. -/
def finish (set : RegistrationSet) (request : PollCycleRequest) (now : Timestamp)
    (resolved : List ResolvedStart) (visits : Visits) (forceReason : Option String) :
    Except Error PollCycleOutcome :=
  match forceReason with
  | some reason => do
    let kind := if reason == "consumer_cancelled" then .cancelled else .failed
    let outcome ← build set request now resolved visits kind (some reason)
    return applyPosture set request outcome
  | none => assemble set request now resolved visits

/-- `required_binding_complete`: every required registration has a resolved start. -/
def requiredBindingComplete (set : RegistrationSet) (resolved : List ResolvedStart) : Bool :=
  (set.registrations.filter Registration.required).all fun registration =>
    resolved.any fun start => start.registrationId == registration.registrationId

/-- The visit a registration is given at a deadline: it is deferred when others have events. -/
def deadlineVisit (sawEvents : Bool) : ArmVisit := if sawEvents then .deferred else .idle

/-- The visits a cycle reports at a deadline: registrations without a visit are filled in. -/
def deadlineVisits (set : RegistrationSet) (request : PollCycleRequest) (visits : Visits) : Visits :=
  let sawEvents := visits.values.any fun visit => !visit.held.isEmpty
  (fairnessOrder set request).foldl
    (fun acc idx => acc.insertIfNew idx (deadlineVisit sawEvents)) visits

/-- `decide_at_deadline`. -/
def decideAtDeadline (set : RegistrationSet) (request : PollCycleRequest) (now : Timestamp)
    (resolved : List ResolvedStart) (visits : Visits) : Except Error PollCycleOutcome :=
  if !requiredBindingComplete set resolved then
    finish set request now resolved visits (some "required_bind_pending")
  else
    assemble set request now resolved (deadlineVisits set request visits)

/-- `deadline_reached`. -/
def deadlineReached (request : PollCycleRequest) (now : Timestamp) : Bool :=
  decide (now ≥ request.logicalDeadline) || decide (now ≥ request.runDeadline)

/-- `earliest_deadline`. -/
def earliestDeadline (request : PollCycleRequest) : Timestamp :=
  if request.runDeadline < request.logicalDeadline then request.runDeadline
  else request.logicalDeadline

end PollCycle

end Waitprims
