import Mathlib
import Waitprims.Async.PollOutcome

/-! # Live wait outcomes

The builders of `live_wait_outcome` values, and the decision of the first-match runner: from the
observations that are ready, pick the event of the earliest arm, or report a failure.

* **`Live.decide`** — the outcome for what is ready, if it decides anything.
* **`Live.terminalDeadline`** — the outcome at a deadline.
* **`Live.postureReject`**, **`Live.finish`** — the rejection of an outcome by lease or
  authentication. -/

namespace Waitprims

open TreeMap (collectMap)

namespace Live

/-! ## Builders -/

/-- `arm_id`. -/
def armId (registration : Registration) : IdToken := "arm:" ++ registration.registrationId

/-- `coverage_arm`: an arm without an event and without a resolved start is left out. -/
def coverageArm (registration : Registration) (status : ArmStatus) (event : Option WaitEvent)
    (resolvedStart : Option Anchor) : Option CoverageArm :=
  match (event.map WaitEvent.startAnchor).or resolvedStart with
  | none => none
  | some start => some {
      armId := armId registration
      registrationId := registration.registrationId
      required := registration.required
      status
      degraded := false
      startAnchor := start
      proposedNextAnchor := (event.map WaitEvent.proposedNextAnchor).getD start
      eventCount := if event.isSome then 1 else 0
      byteCount := 0
      reasonCode := none }

/-- `base`. -/
def base (request : LiveWaitRequest) (completedAt : Timestamp) (kind : OutcomeKind) :
    LiveWaitOutcome where
  capabilities := request.capabilities
  messageId := request.messageId ++ ":outcome"
  correlationId := request.correlationId
  createdAt := completedAt
  actorRef := request.actorRef
  causationId := some request.messageId
  grantRef := request.grantRef
  verificationReceiptRef := request.verificationReceiptRef
  policyDecisionRef := request.policyDecisionRef
  waiterId := request.waiterId
  requestRef := request.messageId
  completedAt
  outcomeKind := kind
  logicalDeadline := none
  events := none
  proposedNextAnchor := none
  coverageComplete := none
  arms := none
  reasonCode := none

/-- `start_map`: the last start of a registration counts. -/
def startMap (resolved : List ResolvedStart) : BTreeMap String Anchor :=
  collectMap (resolved.map fun item => (item.registrationId, item.start))

/-- `clean_arms`. -/
def cleanArms (set : RegistrationSet) (resolved : List ResolvedStart) : List CoverageArm :=
  set.registrations.filterMap fun reg =>
    coverageArm reg .noChange none (startMap resolved)[reg.registrationId]?

/-- `events`. -/
def events (request : LiveWaitRequest) (completedAt : Timestamp) (event : WaitEvent) :
    LiveWaitOutcome :=
  { base request completedAt .events with
    events := some [event]
    proposedNextAnchor := some event.proposedNextAnchor }

/-- `partial`: an event of one arm while another overflowed. -/
def partialOutcome (set : RegistrationSet) (request : LiveWaitRequest) (completedAt : Timestamp)
    (event : Option WaitEvent) (resolved : List ResolvedStart) : LiveWaitOutcome :=
  { base request completedAt .partialResult with
    events := some event.toList
    proposedNextAnchor := event.map WaitEvent.proposedNextAnchor
    coverageComplete := some false
    arms := some (set.registrations.filterMap fun reg =>
      let start := (startMap resolved)[reg.registrationId]?
      if event.map WaitEvent.registrationId = some reg.registrationId then
        coverageArm reg .events event start
      else
        coverageArm reg .deferred none start) }

/-- `logical_deadman`. -/
def logicalDeadman (set : RegistrationSet) (request : LiveWaitRequest) (completedAt : Timestamp)
    (resolved : List ResolvedStart) : LiveWaitOutcome :=
  { base request completedAt .logicalDeadman with
    events := some []
    logicalDeadline := some request.logicalDeadline
    coverageComplete := some true
    arms := some (cleanArms set resolved) }

/-- `no_change`. -/
def noChange (set : RegistrationSet) (request : LiveWaitRequest) (completedAt : Timestamp)
    (resolved : List ResolvedStart) : LiveWaitOutcome :=
  { base request completedAt .noChange with
    events := some []
    logicalDeadline := some request.logicalDeadline
    coverageComplete := some true
    arms := some (cleanArms set resolved) }

/-- The outcomes that carry nothing but a reason. -/
def reasoned (kind : OutcomeKind) (request : LiveWaitRequest) (completedAt : Timestamp)
    (reasonCode : String) : LiveWaitOutcome :=
  { base request completedAt kind with
    reasonCode := some reasonCode
    events := some [] }

/-- `cancelled`. -/
def cancelled (request : LiveWaitRequest) (completedAt : Timestamp) : LiveWaitOutcome :=
  reasoned .cancelled request completedAt "consumer_cancelled"

/-- `failed`. -/
def failed : LiveWaitRequest → Timestamp → String → LiveWaitOutcome := reasoned .failed

/-- `refused`. -/
def refused : LiveWaitRequest → Timestamp → String → LiveWaitOutcome := reasoned .refused

/-- `reauthentication_required`. -/
def reauthenticationRequired : LiveWaitRequest → Timestamp → String → LiveWaitOutcome :=
  reasoned .reauthenticationRequired

/-! ## Deciding -/

/-- The events among what is ready. -/
def readyEvents (ready : List (Nat × Observation)) : List (Nat × WaitEvent) :=
  ready.filterMap fun p => match p.2 with
    | .event event => some (p.1, event)
    | _ => none

/-- `event_winner_idx`: the earliest arm with an event. -/
def eventWinnerIdx (ready : List (Nat × Observation)) : Option Nat :=
  ((readyEvents ready).map Prod.fst).min?

/-- `min_by_key`: the first event of the earliest arm. -/
def winningEvent (ready : List (Nat × Observation)) : Option WaitEvent :=
  (List.argmin Prod.fst (readyEvents ready)).map Prod.snd

/-- The reason an observation fails a wait with. -/
def failureReason : Observation → Option IdToken
  | .failed reasonCode | .outage reasonCode | .cursorUncertain reasonCode
  | .degraded reasonCode => some reasonCode
  | .event _ | .idle | .overflow => none

/-- `decide`: an overflow makes the outcome partial or failed, a failure counts only without an
event, and the last failure is the one reported. -/
def decide (set : RegistrationSet) (request : LiveWaitRequest) (now : Timestamp)
    (ready : List (Nat × Observation)) (resolved : List ResolvedStart) : Option LiveWaitOutcome :=
  let winner := winningEvent ready
  if ready.any fun p => p.2 == .overflow then
    some (if winner.isSome then partialOutcome set request now winner resolved
      else failed request now "buffer_overflow")
  else
    match (ready.filterMap fun p => failureReason p.2).getLast?, winner with
    | some reason, none => some (failed request now reason)
    | _, winner => winner.map fun event => events request now event

/-! ## Deadlines and posture -/

/-- `required_binding_complete`. -/
def requiredBindingComplete (set : RegistrationSet) (resolved : List ResolvedStart) : Bool :=
  (set.registrations.filter Registration.required).all fun registration =>
    resolved.any fun start => start.registrationId == registration.registrationId

/-- `terminal_deadline`. -/
def terminalDeadline (set : RegistrationSet) (request : LiveWaitRequest) (now : Timestamp)
    (resolved : List ResolvedStart) : Option LiveWaitOutcome :=
  let atLogical := Decidable.decide (now ≥ request.logicalDeadline)
  let atRun := Decidable.decide (now ≥ request.runDeadline)
  if !atLogical && !atRun then
    none
  else if !requiredBindingComplete set resolved then
    some (failed request now "required_bind_pending")
  else if atLogical then
    some (logicalDeadman set request now resolved)
  else
    some (noChange set request now resolved)

/-- `earliest_deadline`. -/
def earliestDeadline (request : LiveWaitRequest) : Timestamp :=
  if request.runDeadline < request.logicalDeadline then request.runDeadline
  else request.logicalDeadline

/-- `posture_reject`. -/
def postureReject (set : RegistrationSet) (request : LiveWaitRequest) (now : Timestamp) :
    Option LiveWaitOutcome :=
  if set.registrations.any fun reg => Decidable.decide (now > reg.leaseExpiresAt) then
    some (reauthenticationRequired request now "lease_expired")
  else if set.authnMode == .required && request.verificationReceiptRef.isNone then
    some (refused request now "authn_required")
  else
    none

/-- `finish`: posture is imposed on an outcome that is no rejection yet. -/
def finish (set : RegistrationSet) (request : LiveWaitRequest) (now : Timestamp)
    (outcome : LiveWaitOutcome) : LiveWaitOutcome :=
  if outcome.outcomeKind.rejects then outcome
  else (postureReject set request now).getD outcome

/-- The events an outcome hands over. -/
def handedOver (outcome : LiveWaitOutcome) : List WaitEvent := outcome.events.getD []

end Live

end Waitprims
