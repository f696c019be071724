import Mathlib
import Waitprims.Core.Rfc3339

/-! # Wire types of `agent-wait/v0`

The six message kinds with the fields the runners and the validator read and write. Identifier and
reference newtypes wrap a text and are compared as texts, so they are `String` here; a `BTreeMap` is
an extensional tree map, so two maps with the same entries are equal. Unsigned 64-bit counters are
natural numbers: the saturating sum is named where the source uses it, and a plain sum counts data
held in memory, which cannot wrap. -/

namespace Waitprims

/-! ## Machine words and maps -/

/-- `u64::MAX`. -/
abbrev u64Max : Nat := 2 ^ 64 - 1

/-- `u64::saturating_add`. -/
def saturatingAdd (a b : Nat) : Nat := min (a + b) u64Max

/-- `BTreeMap`: iteration and equality follow the entries in key order. -/
abbrev BTreeMap (κ υ : Type) [Ord κ] : Type := Std.ExtTreeMap κ υ

/-! ## Identifiers and references -/

/-- Stable identifier. -/
abbrev IdToken := String

/-- Opaque symbolic reference. -/
abbrev OpaqueRef := String

/-- Actor identity reference. -/
abbrev ActorRef := String

/-- Predicate identifier, not evaluated by the runners. -/
abbrev PredicateRef := String

/-- Host-less capability token. -/
abbrev CapabilityToken := String

/-! ## Enumerations -/

/-- Anchor kind. Event-id anchors are not admitted. -/
inductive AnchorKind
  | providerOpaque
  deriving DecidableEq, Repr

/-- Supported digest algorithm. -/
inductive DigestAlgorithm
  | sha256
  deriving DecidableEq, Repr

/-- Supported canonicalization scheme. -/
inductive Canonicalization
  | rfc8785
  deriving DecidableEq, Repr

/-- Frozen outcome kinds shared by live and poll. -/
inductive OutcomeKind
  | events
  | noChange
  | logicalDeadman
  | partialResult
  | cancelled
  | coverageDegraded
  | refused
  | reauthenticationRequired
  | failed
  deriving DecidableEq, Repr

/-- Coverage arm status. -/
inductive ArmStatus
  | noChange
  | events
  | observed
  | outage
  | cursorUncertain
  | deferred
  deriving DecidableEq, Repr

/-- Aggregate authentication posture. -/
inductive AuthnMode
  | required
  | optional
  | disabled
  deriving DecidableEq, Repr

/-- Explicit start-position policy. -/
inductive BaselinePolicy
  | latest
  | earliest
  | providerDefined
  deriving DecidableEq, Repr

/-- Event replay status. -/
inductive ReplayStatus
  | fresh
  | replay
  deriving DecidableEq, Repr

/-! ## Parts of a message -/

/-- Provider-opaque exclusive continuation cursor. -/
structure Anchor where
  kind : AnchorKind
  value : IdToken
  deriving DecidableEq, Repr

/-- SHA-256 content digest. -/
structure ContentDigest where
  algorithm : DigestAlgorithm
  value : String
  deriving DecidableEq, Repr

/-- RFC 8785 registration digest. -/
structure JcsDigest where
  canonicalization : Canonicalization
  algorithm : DigestAlgorithm
  value : String
  deriving DecidableEq, Repr

/-- Structured payload reference, never an embedded body. -/
structure PayloadRef where
  payloadRef : OpaqueRef
  contentDigest : ContentDigest
  mediaType : Option String
  deriving DecidableEq, Repr

/-- Event/byte bound. -/
structure WaitBound where
  maxEvents : Nat
  maxBytes : Nat
  deriving DecidableEq, Repr

/-- Optional poll-cycle bound. -/
structure PollBound where
  maxEvents : Option Nat
  maxPayloadRefs : Option Nat
  maxBytes : Option Nat
  deriving DecidableEq, Repr

/-- Source event with structured payload refs. -/
structure WaitEvent where
  eventId : IdToken
  registrationId : IdToken
  sourceInstanceRef : OpaqueRef
  methodId : IdToken
  subjectKind : IdToken
  subjectId : IdToken
  occurredAt : Timestamp
  observedAt : Timestamp
  startAnchor : Anchor
  proposedNextAnchor : Anchor
  replayStatus : ReplayStatus
  correlationId : IdToken
  causationId : Option IdToken
  payload : PayloadRef
  deliveryRef : Option OpaqueRef
  activationRef : Option OpaqueRef
  deriving DecidableEq, Repr

/-- Coverage arm for one registration. -/
structure CoverageArm where
  armId : IdToken
  registrationId : IdToken
  required : Bool
  status : ArmStatus
  degraded : Bool
  startAnchor : Anchor
  proposedNextAnchor : Anchor
  eventCount : Nat
  byteCount : Nat
  reasonCode : Option IdToken
  deriving DecidableEq, Repr

/-- One registration inside a set. -/
structure Registration where
  registrationId : IdToken
  methodId : IdToken
  subjectKind : IdToken
  subjectId : IdToken
  required : Bool
  sourceInstanceRef : OpaqueRef
  predicateRef : PredicateRef
  capabilityRef : OpaqueRef
  leaseExpiresAt : Timestamp
  bounds : WaitBound
  startAnchor : Option Anchor
  baselinePolicy : Option BaselinePolicy
  priority : Option Nat
  deriving DecidableEq, Repr

/-! ## Messages -/

/-- `registration_set` body. -/
structure RegistrationSet where
  capabilities : List CapabilityToken
  messageId : IdToken
  correlationId : IdToken
  createdAt : Timestamp
  actorRef : ActorRef
  causationId : Option IdToken
  grantRef : Option OpaqueRef
  verificationReceiptRef : Option OpaqueRef
  policyDecisionRef : Option OpaqueRef
  principalRef : ActorRef
  waiterId : IdToken
  seatRef : OpaqueRef
  registrationRevision : IdToken
  logicalDeadline : Timestamp
  authnMode : AuthnMode
  aggregateLimits : WaitBound
  registrationDigest : JcsDigest
  registrations : List Registration
  deriving DecidableEq, Repr

/-- `live_wait_request` body. -/
structure LiveWaitRequest where
  capabilities : List CapabilityToken
  messageId : IdToken
  correlationId : IdToken
  createdAt : Timestamp
  actorRef : ActorRef
  causationId : Option IdToken
  grantRef : Option OpaqueRef
  verificationReceiptRef : Option OpaqueRef
  policyDecisionRef : Option OpaqueRef
  waiterId : IdToken
  registrationSetRef : IdToken
  registrationRevision : IdToken
  logicalDeadline : Timestamp
  runDeadline : Timestamp
  deriving DecidableEq, Repr

/-- `live_wait_outcome` body. -/
structure LiveWaitOutcome where
  capabilities : List CapabilityToken
  messageId : IdToken
  correlationId : IdToken
  createdAt : Timestamp
  actorRef : ActorRef
  causationId : Option IdToken
  grantRef : Option OpaqueRef
  verificationReceiptRef : Option OpaqueRef
  policyDecisionRef : Option OpaqueRef
  waiterId : IdToken
  requestRef : IdToken
  completedAt : Timestamp
  outcomeKind : OutcomeKind
  logicalDeadline : Option Timestamp
  events : Option (List WaitEvent)
  proposedNextAnchor : Option Anchor
  coverageComplete : Option Bool
  arms : Option (List CoverageArm)
  reasonCode : Option IdToken
  deriving DecidableEq, Repr

/-- `poll_cycle_request` body. -/
structure PollCycleRequest where
  capabilities : List CapabilityToken
  messageId : IdToken
  correlationId : IdToken
  createdAt : Timestamp
  actorRef : ActorRef
  causationId : Option IdToken
  grantRef : Option OpaqueRef
  verificationReceiptRef : Option OpaqueRef
  policyDecisionRef : Option OpaqueRef
  waiterId : IdToken
  registrationSetRef : IdToken
  registrationRevision : IdToken
  logicalDeadline : Timestamp
  runDeadline : Timestamp
  requiredArms : List IdToken
  fairnessCursor : IdToken
  acknowledgedAnchors : BTreeMap String Anchor
  activationRef : OpaqueRef
  cycleId : IdToken
  bound : Option PollBound
  deriving DecidableEq

/-- `poll_cycle_outcome` body. -/
structure PollCycleOutcome where
  capabilities : List CapabilityToken
  messageId : IdToken
  correlationId : IdToken
  createdAt : Timestamp
  actorRef : ActorRef
  causationId : Option IdToken
  grantRef : Option OpaqueRef
  verificationReceiptRef : Option OpaqueRef
  policyDecisionRef : Option OpaqueRef
  waiterId : IdToken
  requestRef : IdToken
  completedAt : Timestamp
  logicalDeadline : Timestamp
  outcomeKind : OutcomeKind
  events : List WaitEvent
  coverageComplete : Bool
  arms : List CoverageArm
  retainedThrough : BTreeMap String Anchor
  retainedEvents : BTreeMap String (List IdToken)
  proposedNextAnchors : BTreeMap String Anchor
  fairnessCursor : IdToken
  nextFairnessCursor : IdToken
  acknowledgedAnchors : Option (BTreeMap String Anchor)
  bound : Option PollBound
  reasonCode : Option IdToken
  deriving DecidableEq

/-- `poll_cycle_ack` body: the commit of an outcome's retained cursors and event ids. -/
structure PollCycleAck where
  capabilities : List CapabilityToken
  messageId : IdToken
  correlationId : IdToken
  createdAt : Timestamp
  actorRef : ActorRef
  causationId : Option IdToken
  grantRef : Option OpaqueRef
  verificationReceiptRef : Option OpaqueRef
  policyDecisionRef : Option OpaqueRef
  waiterId : IdToken
  outcomeRef : IdToken
  committedAnchors : BTreeMap String Anchor
  retainedEvents : BTreeMap String (List IdToken)
  deriving DecidableEq

/-! ## Errors -/

/-- Machine-stable reason for a normative or set-rule failure. -/
inductive NormativeReason
  | deadlineOrdering
  | registrationDigestMismatch
  | noChangeInvariants
  | deadmanInvariants
  | outageNotClean
  | coverageCardinality
  | crossArmCommit
  | ackPastUnretained
  | fairnessStarvation
  | silentCursorAdvance
  | revisionCross
  | authnRequired
  | leaseReauth
  | registrationBound
  | aggregateBound
  | unparseableTimestamp
  deriving DecidableEq, Repr

/-- Validation failure: field path plus constraint, no raw input values. -/
structure ValidationError where
  path : String
  constraint : String
  reason : Option NormativeReason
  deriving DecidableEq, Repr

/-- Canonical library error. -/
inductive Error
  | contract (path constraint : String)
  | validation (err : ValidationError)
  | jcs (constraint : String)
  | malformedJson
  deriving DecidableEq, Repr

/-- `ValidationError::new`, as an `Error`. -/
def validationError (path constraint : String) : Error := .validation ⟨path, constraint, none⟩

/-- `ValidationError::normative`, as an `Error`. -/
def normativeError (path constraint : String) (reason : NormativeReason) : Error :=
  .validation ⟨path, constraint, some reason⟩

/-- `s.strip_prefix(pre)`. -/
def stripPrefix (pre s : String) : Option String :=
  if pre.toList.isPrefixOf s.toList then some (String.ofList (s.toList.drop pre.toList.length))
  else none

end Waitprims
