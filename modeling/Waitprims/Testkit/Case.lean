import Mathlib
import Waitprims.Async.PollOutcome

/-! # Builders for sterile cases

The case builders of the test kit: one registration set with its requests, scripted events, and the
ack of a poll outcome. -/

namespace Waitprims

namespace Case

/-- Parse a fixture timestamp. -/
def ts (raw : String) : Timestamp :=
  match Timestamp.parse raw with
  | .ok t => t
  | .error _ => ⟨raw, 0⟩

/-- Provider-opaque anchor. -/
def anchor (value : IdToken) : Anchor := ⟨.providerOpaque, value⟩

/-- Registration set used by proofs and the initial case. -/
def registrationSet (registrations : List Registration) : RegistrationSet where
  capabilities := ["contract: agent-wait/v0"]
  messageId := "msg:aw-reg-1"
  correlationId := "corr:aw-1"
  createdAt := ts "2026-08-15T16:00:00Z"
  actorRef := "seat:consumer-a"
  causationId := none
  grantRef := none
  verificationReceiptRef := none
  policyDecisionRef := none
  principalRef := "seat:consumer-a"
  waiterId := "waiter:seat-consumer-a"
  seatRef := "seat:consumer-a"
  registrationRevision := "regrev-1"
  logicalDeadline := ts "2026-08-15T17:00:00Z"
  authnMode := .optional
  aggregateLimits := ⟨100, 1048576⟩
  registrationDigest := ⟨.rfc8785, .sha256, String.ofList (List.replicate 64 '0')⟩
  registrations

/-- One required registration with a declared exclusive start cursor. -/
def registration (registrationId methodId subjectId : String) : Registration where
  registrationId
  methodId
  subjectKind := "subject"
  subjectId
  required := true
  sourceInstanceRef := "source:provider-a"
  predicateRef := "pred:match"
  capabilityRef := "cap:wait"
  leaseExpiresAt := ts "2026-08-16T00:00:00Z"
  bounds := ⟨50, 524288⟩
  startAnchor := some (anchor "anc:cursor-0")
  baselinePolicy := none
  priority := none

/-- A set of two registrations. -/
def pairSet : RegistrationSet :=
  registrationSet [registration "reg:a" "method:a" "subject:a",
    registration "reg:b" "method:b" "subject:b"]

/-- The pair with leases that run out at 16:01:30. -/
def expiringSet : RegistrationSet :=
  { pairSet with registrations := pairSet.registrations.map fun reg =>
      { reg with leaseExpiresAt := ts "2026-08-15T16:01:30Z" } }

/-- Arm id assigned to a registration in poll-cycle fixtures. -/
def armIdFor (registration : Registration) : IdToken :=
  "arm:" ++ (stripPrefix "reg:" registration.registrationId).getD registration.registrationId

/-- Poll-cycle request citing the registration set. -/
def pollCycleRequest (set : RegistrationSet) : PollCycleRequest where
  capabilities := ["contract: agent-wait/v0"]
  messageId := "msg:aw-poll-req-1"
  correlationId := "corr:aw-1"
  createdAt := ts "2026-08-15T16:01:00Z"
  actorRef := "seat:consumer-a"
  causationId := some "msg:aw-reg-1"
  grantRef := none
  verificationReceiptRef := none
  policyDecisionRef := none
  waiterId := "waiter:seat-consumer-a"
  registrationSetRef := "msg:aw-reg-1"
  registrationRevision := "regrev-1"
  logicalDeadline := ts "2026-08-15T17:00:00Z"
  runDeadline := ts "2026-08-15T16:20:00Z"
  requiredArms := (set.registrations.filter Registration.required).map armIdFor
  fairnessCursor := "fair:start"
  acknowledgedAnchors := ∅
  activationRef := "act:cycle-1"
  cycleId := "cycle:1"
  bound := none

/-- Commit the retained cursors and event ids from an admitted poll outcome. -/
def ackPollOutcome (outcome : PollCycleOutcome) : PollCycleAck where
  capabilities := outcome.capabilities
  messageId := outcome.messageId ++ ":ack"
  correlationId := outcome.correlationId
  createdAt := outcome.completedAt
  actorRef := outcome.actorRef
  causationId := some outcome.messageId
  grantRef := outcome.grantRef
  verificationReceiptRef := outcome.verificationReceiptRef
  policyDecisionRef := outcome.policyDecisionRef
  waiterId := outcome.waiterId
  outcomeRef := outcome.messageId
  committedAnchors := outcome.retainedThrough
  retainedEvents := outcome.retainedEvents

/-- Live wait request citing the registration set. -/
def liveWaitRequest : LiveWaitRequest where
  capabilities := ["contract: agent-wait/v0"]
  messageId := "msg:aw-live-req-1"
  correlationId := "corr:aw-1"
  createdAt := ts "2026-08-15T16:01:00Z"
  actorRef := "seat:consumer-a"
  causationId := some "msg:aw-reg-1"
  grantRef := none
  verificationReceiptRef := none
  policyDecisionRef := none
  waiterId := "waiter:seat-consumer-a"
  registrationSetRef := "msg:aw-reg-1"
  registrationRevision := "regrev-1"
  logicalDeadline := ts "2026-08-15T17:00:00Z"
  runDeadline := ts "2026-08-15T16:20:00Z"

/-- Scripted source event. -/
def waitEvent (registrationId methodId eventId atRaw : String) : WaitEvent where
  eventId
  registrationId
  sourceInstanceRef := "source:provider-a"
  methodId
  subjectKind := "subject"
  subjectId := "subject:1"
  occurredAt := ts atRaw
  observedAt := ts atRaw
  startAnchor := anchor "anc:cursor-0"
  proposedNextAnchor := anchor "anc:after-1"
  replayStatus := .fresh
  correlationId := "corr:aw-1"
  causationId := none
  payload := {
    payloadRef := "msg:payload-1"
    contentDigest := ⟨.sha256, String.ofList (List.replicate 64 'c')⟩
    mediaType := none }
  deliveryRef := none
  activationRef := none

/-- Observations waiting for the two registrations: two events of the first, and an event of the
second with a signal behind it. -/
def pairWaiting : List (IdToken × Observation) := [
  ("reg:a", .event (waitEvent "reg:a" "method:a" "evt:1" "2026-08-15T16:01:00Z")),
  ("reg:a", .event (waitEvent "reg:a" "method:a" "evt:2" "2026-08-15T16:01:00Z")),
  ("reg:b", .event (waitEvent "reg:b" "method:b" "evt:3" "2026-08-15T16:01:00Z")),
  ("reg:b", .failed "method_unavailable")]

end Case

end Waitprims
