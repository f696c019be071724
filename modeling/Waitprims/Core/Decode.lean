import Mathlib
import Waitprims.Lib.TreeMap
import Waitprims.Core.Json

/-! # The typed decode of a message

`serde_json::from_value` for the derived types: a required field must be present and decode, an
optional field may be absent or null, and a timestamp must parse. Fields that no type names are
ignored; the schema that runs before has refused them. -/

namespace Waitprims

open TreeMap (collectMap)

/-- A discriminated `agent-wait/v0` message. -/
inductive AgentWaitMessage
  | registrationSet (body : RegistrationSet)
  | liveWaitRequest (body : LiveWaitRequest)
  | liveWaitOutcome (body : LiveWaitOutcome)
  | pollCycleRequest (body : PollCycleRequest)
  | pollCycleOutcome (body : PollCycleOutcome)
  | pollCycleAck (body : PollCycleAck)

namespace Decode

/-! ## Fields -/

/-- A required field. -/
def required {α : Type} (decode : Json → Option α) (document : Json) (name : String) : Option α :=
  (document.get name).bind decode

/-- An optional field: absent or null is `none`. -/
def optional {α : Type} (decode : Json → Option α) (document : Json) (name : String) :
    Option (Option α) :=
  match document.get name with
  | none | some .null => some none
  | some value => (decode value).map some

/-- A text. -/
def text : Json → Option String := Json.asStr

/-- A truth value. -/
def boolean : Json → Option Bool := Json.asBool

/-- A `u64`. -/
def u64 : Json → Option Nat := Json.asU64

/-- A `u8`. -/
def u8 (value : Json) : Option Nat := value.asU64.filter fun n => n < 256

/-- A `Vec`. -/
def vec {α : Type} (decode : Json → Option α) (value : Json) : Option (List α) :=
  value.asArray.bind fun items => items.mapM decode

/-- A `BTreeMap` keyed by text. -/
def map {α : Type} (decode : Json → Option α) (value : Json) : Option (BTreeMap String α) :=
  value.asObject.bind fun members =>
    (members.mapM fun p => (decode p.2).map fun v => (p.1, v)).map collectMap

/-- A timestamp. -/
def timestamp (value : Json) : Option Timestamp :=
  value.asStr.bind fun raw => (Timestamp.parse raw).toOption

/-- A unit variant by its wire name. -/
def variant {α : Type} (names : List (String × α)) (value : Json) : Option α :=
  value.asStr.bind fun name => Json.lookup name names

/-! ## Enumerations -/

/-- `AnchorKind`. -/
def anchorKind : Json → Option AnchorKind := variant [("provider_opaque", .providerOpaque)]

/-- `DigestAlgorithm`. -/
def digestAlgorithm : Json → Option DigestAlgorithm := variant [("sha256", .sha256)]

/-- `Canonicalization`. -/
def canonicalization : Json → Option Canonicalization := variant [("rfc8785", .rfc8785)]

/-- `OutcomeKind`. -/
def outcomeKind : Json → Option OutcomeKind := variant [("events", .events),
  ("no_change", .noChange), ("logical_deadman", .logicalDeadman), ("partial", .partialResult),
  ("cancelled", .cancelled), ("coverage_degraded", .coverageDegraded), ("refused", .refused),
  ("reauthentication_required", .reauthenticationRequired), ("failed", .failed)]

/-- `ArmStatus`. -/
def armStatus : Json → Option ArmStatus := variant [("no_change", .noChange), ("events", .events),
  ("observed", .observed), ("outage", .outage), ("cursor_uncertain", .cursorUncertain),
  ("deferred", .deferred)]

/-- `AuthnMode`. -/
def authnMode : Json → Option AuthnMode :=
  variant [("required", .required), ("optional", .optional), ("disabled", .disabled)]

/-- `BaselinePolicy`. -/
def baselinePolicy : Json → Option BaselinePolicy :=
  variant [("latest", .latest), ("earliest", .earliest), ("provider_defined", .providerDefined)]

/-- `ReplayStatus`. -/
def replayStatus : Json → Option ReplayStatus := variant [("fresh", .fresh), ("replay", .replay)]

/-! ## Parts of a message -/

/-- `Anchor`. -/
def anchor (d : Json) : Option Anchor := do
  return {
    kind := ← required anchorKind d "kind"
    value := ← required text d "value" }

/-- `ContentDigest`. -/
def contentDigest (d : Json) : Option ContentDigest := do
  return {
    algorithm := ← required digestAlgorithm d "algorithm"
    value := ← required text d "value" }

/-- `JcsDigest`. -/
def jcsDigest (d : Json) : Option JcsDigest := do
  return {
    canonicalization := ← required canonicalization d "canonicalization"
    algorithm := ← required digestAlgorithm d "algorithm"
    value := ← required text d "value" }

/-- `PayloadRef`. -/
def payloadRef (d : Json) : Option PayloadRef := do
  return {
    payloadRef := ← required text d "payload_ref"
    contentDigest := ← required contentDigest d "content_digest"
    mediaType := ← optional text d "media_type" }

/-- `WaitBound`. -/
def waitBound (d : Json) : Option WaitBound := do
  return {
    maxEvents := ← required u64 d "max_events"
    maxBytes := ← required u64 d "max_bytes" }

/-- `PollBound`. -/
def pollBound (d : Json) : Option PollBound := do
  return {
    maxEvents := ← optional u64 d "max_events"
    maxPayloadRefs := ← optional u64 d "max_payload_refs"
    maxBytes := ← optional u64 d "max_bytes" }

/-- `WaitEvent`. -/
def waitEvent (d : Json) : Option WaitEvent := do
  return {
    eventId := ← required text d "event_id"
    registrationId := ← required text d "registration_id"
    sourceInstanceRef := ← required text d "source_instance_ref"
    methodId := ← required text d "method_id"
    subjectKind := ← required text d "subject_kind"
    subjectId := ← required text d "subject_id"
    occurredAt := ← required timestamp d "occurred_at"
    observedAt := ← required timestamp d "observed_at"
    startAnchor := ← required anchor d "start_anchor"
    proposedNextAnchor := ← required anchor d "proposed_next_anchor"
    replayStatus := ← required replayStatus d "replay_status"
    correlationId := ← required text d "correlation_id"
    causationId := ← optional text d "causation_id"
    payload := ← required payloadRef d "payload"
    deliveryRef := ← optional text d "delivery_ref"
    activationRef := ← optional text d "activation_ref" }

/-- `CoverageArm`. -/
def coverageArm (d : Json) : Option CoverageArm := do
  return {
    armId := ← required text d "arm_id"
    registrationId := ← required text d "registration_id"
    required := ← required boolean d "required"
    status := ← required armStatus d "status"
    degraded := ← required boolean d "degraded"
    startAnchor := ← required anchor d "start_anchor"
    proposedNextAnchor := ← required anchor d "proposed_next_anchor"
    eventCount := ← required u64 d "event_count"
    byteCount := ← required u64 d "byte_count"
    reasonCode := ← optional text d "reason_code" }

/-- `Registration`. -/
def registration (d : Json) : Option Registration := do
  return {
    registrationId := ← required text d "registration_id"
    methodId := ← required text d "method_id"
    subjectKind := ← required text d "subject_kind"
    subjectId := ← required text d "subject_id"
    required := ← required boolean d "required"
    sourceInstanceRef := ← required text d "source_instance_ref"
    predicateRef := ← required text d "predicate_ref"
    capabilityRef := ← required text d "capability_ref"
    leaseExpiresAt := ← required timestamp d "lease_expires_at"
    bounds := ← required waitBound d "bounds"
    startAnchor := ← optional anchor d "start_anchor"
    baselinePolicy := ← optional baselinePolicy d "baseline_policy"
    priority := ← optional u8 d "priority" }

/-! ## Messages -/

/-- `RegistrationSet`. -/
def registrationSet (d : Json) : Option RegistrationSet := do
  return {
    capabilities := ← required (vec text) d "capabilities"
    messageId := ← required text d "message_id"
    correlationId := ← required text d "correlation_id"
    createdAt := ← required timestamp d "created_at"
    actorRef := ← required text d "actor_ref"
    causationId := ← optional text d "causation_id"
    grantRef := ← optional text d "grant_ref"
    verificationReceiptRef := ← optional text d "verification_receipt_ref"
    policyDecisionRef := ← optional text d "policy_decision_ref"
    principalRef := ← required text d "principal_ref"
    waiterId := ← required text d "waiter_id"
    seatRef := ← required text d "seat_ref"
    registrationRevision := ← required text d "registration_revision"
    logicalDeadline := ← required timestamp d "logical_deadline"
    authnMode := ← required authnMode d "authn_mode"
    aggregateLimits := ← required waitBound d "aggregate_limits"
    registrationDigest := ← required jcsDigest d "registration_digest"
    registrations := ← required (vec registration) d "registrations" }

/-- `LiveWaitRequest`. -/
def liveWaitRequest (d : Json) : Option LiveWaitRequest := do
  return {
    capabilities := ← required (vec text) d "capabilities"
    messageId := ← required text d "message_id"
    correlationId := ← required text d "correlation_id"
    createdAt := ← required timestamp d "created_at"
    actorRef := ← required text d "actor_ref"
    causationId := ← optional text d "causation_id"
    grantRef := ← optional text d "grant_ref"
    verificationReceiptRef := ← optional text d "verification_receipt_ref"
    policyDecisionRef := ← optional text d "policy_decision_ref"
    waiterId := ← required text d "waiter_id"
    registrationSetRef := ← required text d "registration_set_ref"
    registrationRevision := ← required text d "registration_revision"
    logicalDeadline := ← required timestamp d "logical_deadline"
    runDeadline := ← required timestamp d "run_deadline" }

/-- `LiveWaitOutcome`. -/
def liveWaitOutcome (d : Json) : Option LiveWaitOutcome := do
  return {
    capabilities := ← required (vec text) d "capabilities"
    messageId := ← required text d "message_id"
    correlationId := ← required text d "correlation_id"
    createdAt := ← required timestamp d "created_at"
    actorRef := ← required text d "actor_ref"
    causationId := ← optional text d "causation_id"
    grantRef := ← optional text d "grant_ref"
    verificationReceiptRef := ← optional text d "verification_receipt_ref"
    policyDecisionRef := ← optional text d "policy_decision_ref"
    waiterId := ← required text d "waiter_id"
    requestRef := ← required text d "request_ref"
    completedAt := ← required timestamp d "completed_at"
    outcomeKind := ← required outcomeKind d "outcome_kind"
    logicalDeadline := ← optional timestamp d "logical_deadline"
    events := ← optional (vec waitEvent) d "events"
    proposedNextAnchor := ← optional anchor d "proposed_next_anchor"
    coverageComplete := ← optional boolean d "coverage_complete"
    arms := ← optional (vec coverageArm) d "arms"
    reasonCode := ← optional text d "reason_code" }

/-- `PollCycleRequest`. -/
def pollCycleRequest (d : Json) : Option PollCycleRequest := do
  return {
    capabilities := ← required (vec text) d "capabilities"
    messageId := ← required text d "message_id"
    correlationId := ← required text d "correlation_id"
    createdAt := ← required timestamp d "created_at"
    actorRef := ← required text d "actor_ref"
    causationId := ← optional text d "causation_id"
    grantRef := ← optional text d "grant_ref"
    verificationReceiptRef := ← optional text d "verification_receipt_ref"
    policyDecisionRef := ← optional text d "policy_decision_ref"
    waiterId := ← required text d "waiter_id"
    registrationSetRef := ← required text d "registration_set_ref"
    registrationRevision := ← required text d "registration_revision"
    logicalDeadline := ← required timestamp d "logical_deadline"
    runDeadline := ← required timestamp d "run_deadline"
    requiredArms := ← required (vec text) d "required_arms"
    fairnessCursor := ← required text d "fairness_cursor"
    acknowledgedAnchors := ← required (map anchor) d "acknowledged_anchors"
    activationRef := ← required text d "activation_ref"
    cycleId := ← required text d "cycle_id"
    bound := ← optional pollBound d "bound" }

/-- `PollCycleOutcome`. -/
def pollCycleOutcome (d : Json) : Option PollCycleOutcome := do
  return {
    capabilities := ← required (vec text) d "capabilities"
    messageId := ← required text d "message_id"
    correlationId := ← required text d "correlation_id"
    createdAt := ← required timestamp d "created_at"
    actorRef := ← required text d "actor_ref"
    causationId := ← optional text d "causation_id"
    grantRef := ← optional text d "grant_ref"
    verificationReceiptRef := ← optional text d "verification_receipt_ref"
    policyDecisionRef := ← optional text d "policy_decision_ref"
    waiterId := ← required text d "waiter_id"
    requestRef := ← required text d "request_ref"
    completedAt := ← required timestamp d "completed_at"
    logicalDeadline := ← required timestamp d "logical_deadline"
    outcomeKind := ← required outcomeKind d "outcome_kind"
    events := ← required (vec waitEvent) d "events"
    coverageComplete := ← required boolean d "coverage_complete"
    arms := ← required (vec coverageArm) d "arms"
    retainedThrough := ← required (map anchor) d "retained_through"
    retainedEvents := ← required (map (vec text)) d "retained_events"
    proposedNextAnchors := ← required (map anchor) d "proposed_next_anchors"
    fairnessCursor := ← required text d "fairness_cursor"
    nextFairnessCursor := ← required text d "next_fairness_cursor"
    acknowledgedAnchors := ← optional (map anchor) d "acknowledged_anchors"
    bound := ← optional pollBound d "bound"
    reasonCode := ← optional text d "reason_code" }

/-- `PollCycleAck`. -/
def pollCycleAck (d : Json) : Option PollCycleAck := do
  return {
    capabilities := ← required (vec text) d "capabilities"
    messageId := ← required text d "message_id"
    correlationId := ← required text d "correlation_id"
    createdAt := ← required timestamp d "created_at"
    actorRef := ← required text d "actor_ref"
    causationId := ← optional text d "causation_id"
    grantRef := ← optional text d "grant_ref"
    verificationReceiptRef := ← optional text d "verification_receipt_ref"
    policyDecisionRef := ← optional text d "policy_decision_ref"
    waiterId := ← required text d "waiter_id"
    outcomeRef := ← required text d "outcome_ref"
    committedAnchors := ← required (map anchor) d "committed_anchors"
    retainedEvents := ← required (map (vec text)) d "retained_events" }

/-- `AgentWaitMessage`, by its `message_type`. -/
def message (d : Json) : Option AgentWaitMessage :=
  match d.strField "message_type" with
  | some "registration_set" => (registrationSet d).map .registrationSet
  | some "live_wait_request" => (liveWaitRequest d).map .liveWaitRequest
  | some "live_wait_outcome" => (liveWaitOutcome d).map .liveWaitOutcome
  | some "poll_cycle_request" => (pollCycleRequest d).map .pollCycleRequest
  | some "poll_cycle_outcome" => (pollCycleOutcome d).map .pollCycleOutcome
  | some "poll_cycle_ack" => (pollCycleAck d).map .pollCycleAck
  | _ => none

end Decode

end Waitprims
