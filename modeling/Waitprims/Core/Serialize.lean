import Mathlib
import Waitprims.Core.CanonicalText
import Waitprims.Core.Decode

/-! # The text a typed message is serialized to

`serde_json::to_string` for the derived types: the fields of a struct in the order of their
declaration, an optional field left out when it is `none`, a map in key order, a timestamp by its
wire spelling, and the `message_type` of the variant in front of the fields of its body. The writer
is the compact one, and escapes in a string what RFC 8785 escapes, in the same way.

* **`Serialize.struct`**, **`Serialize.seq`**, **`Serialize.map`** — the writers of composite values.
* **`Serialize.message`** — the characters of a message; **`AgentWaitMessage.toJsonString`** — its
  text. -/

namespace Waitprims

namespace Serialize

open Jcs (commas memberText stringText)

/-! ## Values -/

/-- A text. -/
def text (s : String) : List Char := stringText s

/-- A truth value. -/
def boolean : Bool → List Char
  | true => ['t', 'r', 'u', 'e']
  | false => ['f', 'a', 'l', 's', 'e']

/-- A `u64` or a `u8`. -/
def unsigned (n : Nat) : List Char := Nat.toDigits 10 n

/-- A `Vec`. -/
def seq {α : Type} (write : α → List Char) (items : List α) : List Char :=
  '[' :: (commas (items.map write) ++ [']'])

/-- A `BTreeMap` keyed by text. -/
def map {α : Type} (write : α → List Char) (entries : BTreeMap String α) : List Char :=
  '{' :: (commas (entries.toList.map fun p => memberText p.1 (write p.2)) ++ ['}'])

/-- A timestamp. -/
def timestamp (t : Timestamp) : List Char := text t.raw

/-- A field of a struct: its name, and its value unless it is skipped. -/
abbrev Field := String × Option (List Char)

/-- The members of a struct that are not skipped. -/
def fieldTexts (fields : List Field) : List (List Char) :=
  fields.filterMap fun field => field.2.map fun value => memberText field.1 value

/-- A struct. -/
def struct (fields : List Field) : List Char := '{' :: (commas (fieldTexts fields) ++ ['}'])

/-! ## Enumerations -/

/-- `AnchorKind`. -/
def anchorKind : AnchorKind → List Char
  | .providerOpaque => text "provider_opaque"

/-- `DigestAlgorithm`. -/
def digestAlgorithm : DigestAlgorithm → List Char
  | .sha256 => text "sha256"

/-- `Canonicalization`. -/
def canonicalization : Canonicalization → List Char
  | .rfc8785 => text "rfc8785"

/-- `OutcomeKind`. -/
def outcomeKind : OutcomeKind → List Char
  | .events => text "events"
  | .noChange => text "no_change"
  | .logicalDeadman => text "logical_deadman"
  | .partialResult => text "partial"
  | .cancelled => text "cancelled"
  | .coverageDegraded => text "coverage_degraded"
  | .refused => text "refused"
  | .reauthenticationRequired => text "reauthentication_required"
  | .failed => text "failed"

/-- `ArmStatus`. -/
def armStatus : ArmStatus → List Char
  | .noChange => text "no_change"
  | .events => text "events"
  | .observed => text "observed"
  | .outage => text "outage"
  | .cursorUncertain => text "cursor_uncertain"
  | .deferred => text "deferred"

/-- `AuthnMode`. -/
def authnMode : AuthnMode → List Char
  | .required => text "required"
  | .optional => text "optional"
  | .disabled => text "disabled"

/-- `BaselinePolicy`. -/
def baselinePolicy : BaselinePolicy → List Char
  | .latest => text "latest"
  | .earliest => text "earliest"
  | .providerDefined => text "provider_defined"

/-- `ReplayStatus`. -/
def replayStatus : ReplayStatus → List Char
  | .fresh => text "fresh"
  | .replay => text "replay"

/-! ## Parts of a message -/

/-- The fields of `Anchor`. -/
def anchorFields (x : Anchor) : List Field :=
  [("kind", some (anchorKind x.kind)), ("value", some (text x.value))]

/-- `Anchor`. -/
def anchor (x : Anchor) : List Char := struct (anchorFields x)

/-- The fields of `ContentDigest`. -/
def contentDigestFields (x : ContentDigest) : List Field :=
  [("algorithm", some (digestAlgorithm x.algorithm)), ("value", some (text x.value))]

/-- `ContentDigest`. -/
def contentDigest (x : ContentDigest) : List Char := struct (contentDigestFields x)

/-- The fields of `JcsDigest`. -/
def jcsDigestFields (x : JcsDigest) : List Field :=
  [("canonicalization", some (canonicalization x.canonicalization)),
    ("algorithm", some (digestAlgorithm x.algorithm)), ("value", some (text x.value))]

/-- `JcsDigest`. -/
def jcsDigest (x : JcsDigest) : List Char := struct (jcsDigestFields x)

/-- The fields of `PayloadRef`. -/
def payloadRefFields (x : PayloadRef) : List Field :=
  [("payload_ref", some (text x.payloadRef)),
    ("content_digest", some (contentDigest x.contentDigest)),
    ("media_type", x.mediaType.map text)]

/-- `PayloadRef`. -/
def payloadRef (x : PayloadRef) : List Char := struct (payloadRefFields x)

/-- The fields of `WaitBound`. -/
def waitBoundFields (x : WaitBound) : List Field :=
  [("max_events", some (unsigned x.maxEvents)), ("max_bytes", some (unsigned x.maxBytes))]

/-- `WaitBound`. -/
def waitBound (x : WaitBound) : List Char := struct (waitBoundFields x)

/-- The fields of `PollBound`. -/
def pollBoundFields (x : PollBound) : List Field :=
  [("max_events", x.maxEvents.map unsigned), ("max_payload_refs", x.maxPayloadRefs.map unsigned),
    ("max_bytes", x.maxBytes.map unsigned)]

/-- `PollBound`. -/
def pollBound (x : PollBound) : List Char := struct (pollBoundFields x)

/-- The fields of `WaitEvent`. -/
def waitEventFields (x : WaitEvent) : List Field :=
  [("event_id", some (text x.eventId)), ("registration_id", some (text x.registrationId)),
    ("source_instance_ref", some (text x.sourceInstanceRef)),
    ("method_id", some (text x.methodId)), ("subject_kind", some (text x.subjectKind)),
    ("subject_id", some (text x.subjectId)), ("occurred_at", some (timestamp x.occurredAt)),
    ("observed_at", some (timestamp x.observedAt)),
    ("start_anchor", some (anchor x.startAnchor)),
    ("proposed_next_anchor", some (anchor x.proposedNextAnchor)),
    ("replay_status", some (replayStatus x.replayStatus)),
    ("correlation_id", some (text x.correlationId)), ("causation_id", x.causationId.map text),
    ("payload", some (payloadRef x.payload)), ("delivery_ref", x.deliveryRef.map text),
    ("activation_ref", x.activationRef.map text)]

/-- `WaitEvent`. -/
def waitEvent (x : WaitEvent) : List Char := struct (waitEventFields x)

/-- The fields of `CoverageArm`. -/
def coverageArmFields (x : CoverageArm) : List Field :=
  [("arm_id", some (text x.armId)), ("registration_id", some (text x.registrationId)),
    ("required", some (boolean x.required)), ("status", some (armStatus x.status)),
    ("degraded", some (boolean x.degraded)), ("start_anchor", some (anchor x.startAnchor)),
    ("proposed_next_anchor", some (anchor x.proposedNextAnchor)),
    ("event_count", some (unsigned x.eventCount)), ("byte_count", some (unsigned x.byteCount)),
    ("reason_code", x.reasonCode.map text)]

/-- `CoverageArm`. -/
def coverageArm (x : CoverageArm) : List Char := struct (coverageArmFields x)

/-- The fields of `Registration`. -/
def registrationFields (x : Registration) : List Field :=
  [("registration_id", some (text x.registrationId)), ("method_id", some (text x.methodId)),
    ("subject_kind", some (text x.subjectKind)), ("subject_id", some (text x.subjectId)),
    ("required", some (boolean x.required)),
    ("source_instance_ref", some (text x.sourceInstanceRef)),
    ("predicate_ref", some (text x.predicateRef)),
    ("capability_ref", some (text x.capabilityRef)),
    ("lease_expires_at", some (timestamp x.leaseExpiresAt)),
    ("bounds", some (waitBound x.bounds)), ("start_anchor", x.startAnchor.map anchor),
    ("baseline_policy", x.baselinePolicy.map baselinePolicy),
    ("priority", x.priority.map unsigned)]

/-- `Registration`. -/
def registration (x : Registration) : List Char := struct (registrationFields x)

/-! ## Messages -/

/-- The fields of `RegistrationSet`. -/
def registrationSetFields (x : RegistrationSet) : List Field :=
  [("message_type", some (text "registration_set")),
    ("capabilities", some (seq text x.capabilities)), ("message_id", some (text x.messageId)),
    ("correlation_id", some (text x.correlationId)),
    ("created_at", some (timestamp x.createdAt)), ("actor_ref", some (text x.actorRef)),
    ("causation_id", x.causationId.map text), ("grant_ref", x.grantRef.map text),
    ("verification_receipt_ref", x.verificationReceiptRef.map text),
    ("policy_decision_ref", x.policyDecisionRef.map text),
    ("principal_ref", some (text x.principalRef)), ("waiter_id", some (text x.waiterId)),
    ("seat_ref", some (text x.seatRef)),
    ("registration_revision", some (text x.registrationRevision)),
    ("logical_deadline", some (timestamp x.logicalDeadline)),
    ("authn_mode", some (authnMode x.authnMode)),
    ("aggregate_limits", some (waitBound x.aggregateLimits)),
    ("registration_digest", some (jcsDigest x.registrationDigest)),
    ("registrations", some (seq registration x.registrations))]

/-- `RegistrationSet`. -/
def registrationSet (x : RegistrationSet) : List Char := struct (registrationSetFields x)

/-- The fields of `LiveWaitRequest`. -/
def liveWaitRequestFields (x : LiveWaitRequest) : List Field :=
  [("message_type", some (text "live_wait_request")),
    ("capabilities", some (seq text x.capabilities)), ("message_id", some (text x.messageId)),
    ("correlation_id", some (text x.correlationId)),
    ("created_at", some (timestamp x.createdAt)), ("actor_ref", some (text x.actorRef)),
    ("causation_id", x.causationId.map text), ("grant_ref", x.grantRef.map text),
    ("verification_receipt_ref", x.verificationReceiptRef.map text),
    ("policy_decision_ref", x.policyDecisionRef.map text), ("waiter_id", some (text x.waiterId)),
    ("registration_set_ref", some (text x.registrationSetRef)),
    ("registration_revision", some (text x.registrationRevision)),
    ("logical_deadline", some (timestamp x.logicalDeadline)),
    ("run_deadline", some (timestamp x.runDeadline))]

/-- `LiveWaitRequest`. -/
def liveWaitRequest (x : LiveWaitRequest) : List Char := struct (liveWaitRequestFields x)

/-- The fields of `LiveWaitOutcome`. -/
def liveWaitOutcomeFields (x : LiveWaitOutcome) : List Field :=
  [("message_type", some (text "live_wait_outcome")),
    ("capabilities", some (seq text x.capabilities)), ("message_id", some (text x.messageId)),
    ("correlation_id", some (text x.correlationId)),
    ("created_at", some (timestamp x.createdAt)), ("actor_ref", some (text x.actorRef)),
    ("causation_id", x.causationId.map text), ("grant_ref", x.grantRef.map text),
    ("verification_receipt_ref", x.verificationReceiptRef.map text),
    ("policy_decision_ref", x.policyDecisionRef.map text), ("waiter_id", some (text x.waiterId)),
    ("request_ref", some (text x.requestRef)), ("completed_at", some (timestamp x.completedAt)),
    ("outcome_kind", some (outcomeKind x.outcomeKind)),
    ("logical_deadline", x.logicalDeadline.map timestamp),
    ("events", x.events.map (seq waitEvent)),
    ("proposed_next_anchor", x.proposedNextAnchor.map anchor),
    ("coverage_complete", x.coverageComplete.map boolean),
    ("arms", x.arms.map (seq coverageArm)), ("reason_code", x.reasonCode.map text)]

/-- `LiveWaitOutcome`. -/
def liveWaitOutcome (x : LiveWaitOutcome) : List Char := struct (liveWaitOutcomeFields x)

/-- The fields of `PollCycleRequest`. -/
def pollCycleRequestFields (x : PollCycleRequest) : List Field :=
  [("message_type", some (text "poll_cycle_request")),
    ("capabilities", some (seq text x.capabilities)), ("message_id", some (text x.messageId)),
    ("correlation_id", some (text x.correlationId)),
    ("created_at", some (timestamp x.createdAt)), ("actor_ref", some (text x.actorRef)),
    ("causation_id", x.causationId.map text), ("grant_ref", x.grantRef.map text),
    ("verification_receipt_ref", x.verificationReceiptRef.map text),
    ("policy_decision_ref", x.policyDecisionRef.map text), ("waiter_id", some (text x.waiterId)),
    ("registration_set_ref", some (text x.registrationSetRef)),
    ("registration_revision", some (text x.registrationRevision)),
    ("logical_deadline", some (timestamp x.logicalDeadline)),
    ("run_deadline", some (timestamp x.runDeadline)),
    ("required_arms", some (seq text x.requiredArms)),
    ("fairness_cursor", some (text x.fairnessCursor)),
    ("acknowledged_anchors", some (map anchor x.acknowledgedAnchors)),
    ("activation_ref", some (text x.activationRef)), ("cycle_id", some (text x.cycleId)),
    ("bound", x.bound.map pollBound)]

/-- `PollCycleRequest`. -/
def pollCycleRequest (x : PollCycleRequest) : List Char := struct (pollCycleRequestFields x)

/-- The fields of `PollCycleOutcome`. -/
def pollCycleOutcomeFields (x : PollCycleOutcome) : List Field :=
  [("message_type", some (text "poll_cycle_outcome")),
    ("capabilities", some (seq text x.capabilities)), ("message_id", some (text x.messageId)),
    ("correlation_id", some (text x.correlationId)),
    ("created_at", some (timestamp x.createdAt)), ("actor_ref", some (text x.actorRef)),
    ("causation_id", x.causationId.map text), ("grant_ref", x.grantRef.map text),
    ("verification_receipt_ref", x.verificationReceiptRef.map text),
    ("policy_decision_ref", x.policyDecisionRef.map text), ("waiter_id", some (text x.waiterId)),
    ("request_ref", some (text x.requestRef)), ("completed_at", some (timestamp x.completedAt)),
    ("logical_deadline", some (timestamp x.logicalDeadline)),
    ("outcome_kind", some (outcomeKind x.outcomeKind)),
    ("events", some (seq waitEvent x.events)),
    ("coverage_complete", some (boolean x.coverageComplete)),
    ("arms", some (seq coverageArm x.arms)),
    ("retained_through", some (map anchor x.retainedThrough)),
    ("retained_events", some (map (seq text) x.retainedEvents)),
    ("proposed_next_anchors", some (map anchor x.proposedNextAnchors)),
    ("fairness_cursor", some (text x.fairnessCursor)),
    ("next_fairness_cursor", some (text x.nextFairnessCursor)),
    ("acknowledged_anchors", x.acknowledgedAnchors.map (map anchor)),
    ("bound", x.bound.map pollBound), ("reason_code", x.reasonCode.map text)]

/-- `PollCycleOutcome`. -/
def pollCycleOutcome (x : PollCycleOutcome) : List Char := struct (pollCycleOutcomeFields x)

/-- The fields of `PollCycleAck`. -/
def pollCycleAckFields (x : PollCycleAck) : List Field :=
  [("message_type", some (text "poll_cycle_ack")),
    ("capabilities", some (seq text x.capabilities)), ("message_id", some (text x.messageId)),
    ("correlation_id", some (text x.correlationId)),
    ("created_at", some (timestamp x.createdAt)), ("actor_ref", some (text x.actorRef)),
    ("causation_id", x.causationId.map text), ("grant_ref", x.grantRef.map text),
    ("verification_receipt_ref", x.verificationReceiptRef.map text),
    ("policy_decision_ref", x.policyDecisionRef.map text), ("waiter_id", some (text x.waiterId)),
    ("outcome_ref", some (text x.outcomeRef)),
    ("committed_anchors", some (map anchor x.committedAnchors)),
    ("retained_events", some (map (seq text) x.retainedEvents))]

/-- `PollCycleAck`. -/
def pollCycleAck (x : PollCycleAck) : List Char := struct (pollCycleAckFields x)

/-- `AgentWaitMessage`, tagged by its `message_type`. -/
def message : AgentWaitMessage → List Char
  | .registrationSet body => registrationSet body
  | .liveWaitRequest body => liveWaitRequest body
  | .liveWaitOutcome body => liveWaitOutcome body
  | .pollCycleRequest body => pollCycleRequest body
  | .pollCycleOutcome body => pollCycleOutcome body
  | .pollCycleAck body => pollCycleAck body

end Serialize

/-- `serde_json::to_string` of a message. -/
def AgentWaitMessage.toJsonString (message : AgentWaitMessage) : String :=
  String.ofList (Serialize.message message)

end Waitprims
