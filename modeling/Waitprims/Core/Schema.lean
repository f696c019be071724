import Mathlib
import Waitprims.Core.Json

/-! # The entry schema of `agent-wait/v0`

The bundled JSON schema, each definition under its own name. A schema is the predicate it states: a
keyword constrains the values of the type it is about and lets every other value pass, and the
keywords of one schema hold together. `format` is an annotation in the 2020-12 dialect and
constrains nothing.

An integral binary64 number is an `integer` to the schema and is refused by the typed decode that
follows; here `integer` refuses it at once. -/

namespace Waitprims

/-- A schema, as the values it admits. -/
abbrev Schema := Json → Bool

namespace Schema

open Json (lookup)

/-! ## Keywords -/

/-- `"type": "string"`. -/
def string : Schema := fun v => v.asStr.isSome

/-- `"type": "boolean"`. -/
def boolean : Schema := fun v => v.asBool.isSome

/-- `"type": "object"`. -/
def object : Schema := fun v => v.asObject.isSome

/-- `"const"` of a text. -/
def literal (text : String) : Schema := fun v => v == .str text

/-- `"const": true`. -/
def literalTrue : Schema := fun v => v == .bool true

/-- `"enum"` of texts. -/
def oneOfTexts (texts : List String) : Schema := fun v => texts.any fun text => v == .str text

/-- `"minLength"`, counted in characters. -/
def minLength (n : Nat) : Schema := fun v => v.asStr.all fun s => n ≤ s.toList.length

/-- `"pattern"`, given as the texts it matches. -/
def pattern (accepts : List Char → Bool) : Schema := fun v => v.asStr.all fun s => accepts s.toList

/-- `"type": "integer"` with `"minimum"` and, where there is one, `"maximum"`. -/
def integer (minimum : Int) (maximum : Option Int) : Schema
  | .num (.int n) => decide (minimum ≤ n) && maximum.all fun m => decide (n ≤ m)
  | _ => false

/-- `"minItems": 1`. -/
def atLeastOne : Schema := fun v => v.asArray.all fun items => !items.isEmpty

/-- `"maxItems": 0`. -/
def noItems : Schema := fun v => v.asArray.all fun items => items.isEmpty

/-- `"uniqueItems": true`. -/
def distinct : Schema := fun v => v.asArray.all fun items => decide items.Nodup

/-- `"contains"`. -/
def contains (item : Schema) : Schema := fun v => v.asArray.all fun items => items.any item

/-- `"type": "array"` with `"items"`. -/
def arrayOf (item : Schema) : Schema := fun v => v.asArray.any fun items => items.all item

/-- `"type": "object"` with `"additionalProperties"` a schema and no properties of its own. -/
def mapOf (value : Schema) : Schema := fun v =>
  v.asObject.any fun members => members.all fun p => value p.2

/-- `"required"`. -/
def required (names : List String) : Schema := fun v =>
  v.asObject.all fun members => names.all fun name => (lookup name members).isSome

/-- `"properties"`: those that are present. -/
def properties (props : List (String × Schema)) : Schema := fun v =>
  v.asObject.all fun members => props.all fun p => (lookup p.1 members).all p.2

/-- `"additionalProperties": false`. -/
def closed (names : List String) : Schema := fun v =>
  v.asObject.all fun members => members.all fun p => names.contains p.1

/-- Every schema of a list. -/
def allOf (schemas : List Schema) : Schema := fun v => schemas.all fun s => s v

/-- Some schema of a list. -/
def anyOf (schemas : List Schema) : Schema := fun v => schemas.any fun s => s v

/-- Exactly one schema of a list. -/
def oneOf (schemas : List Schema) : Schema := fun v => (schemas.filter fun s => s v).length == 1

/-- `"not"`. -/
def negated (schema : Schema) : Schema := fun v => !schema v

/-- `"if"` and `"then"`. -/
def ifThen (cond consequence : Schema) : Schema := fun v => !cond v || consequence v

/-- A closed object: its required names and its properties. -/
def record (names : List String) (props : List (String × Schema)) : Schema :=
  allOf [object, closed (props.map Prod.fst), required names, properties props]

/-- A property is present and as it should be. -/
def has (name : String) (schema : Schema) : Schema :=
  allOf [properties [(name, schema)], required [name]]

/-! ## Definitions -/

/-- `capabilities`. -/
def capabilities : Schema :=
  allOf [arrayOf string, contains (literal "contract: agent-wait/v0"), atLeastOne, distinct]

/-- `idToken`. -/
def idToken : Schema := allOf [string, minLength 1]

/-- The characters a reference starts with. -/
def refStart (c : Char) : Bool := c.isAlphanum

/-- The characters a reference continues with. -/
def refRest (c : Char) : Bool :=
  c.isAlphanum || c == '.' || c == '_' || c == ':' || c == '/' || c == '-'

/-- The pattern of a reference: a letter or a digit, then letters, digits and five marks. -/
def refPattern : List Char → Bool
  | [] => false
  | c :: rest => refStart c && rest.all refRest

/-- `actorRef`. -/
def actorRef : Schema := allOf [string, minLength 1, pattern refPattern]

/-- `refToken`. -/
def refToken : Schema := allOf [string, minLength 1, pattern refPattern]

/-- `rfc3339`. -/
def rfc3339 : Schema := string

/-- A lowercase hex digit. -/
def hexDigit (c : Char) : Bool := c.isDigit || (c ≥ 'a' && c ≤ 'f')

/-- `sha256`: `^[a-f0-9]{64}$`. -/
def sha256 : Schema := allOf [string, pattern fun cs => cs.length == 64 && cs.all hexDigit]

/-- `digest`. -/
def digest : Schema := record
  ["algorithm", "value"]
  [("algorithm", literal "sha256"), ("value", sha256)]

/-- `jcsDigest`. -/
def jcsDigest : Schema := record
  ["canonicalization", "algorithm", "value"]
  [("canonicalization", literal "rfc8785"), ("algorithm", literal "sha256"), ("value", sha256)]

/-- `anchor`. -/
def anchor : Schema := record
  ["kind", "value"]
  [("kind", literal "provider_opaque"), ("value", idToken)]

/-- `registrationAnchorMap`. -/
def registrationAnchorMap : Schema := mapOf anchor

/-- `registrationEventMap`. -/
def registrationEventMap : Schema := mapOf (allOf [distinct, arrayOf idToken])

/-- `waitBound`. -/
def waitBound : Schema := record
  ["max_events", "max_bytes"]
  [("max_events", integer 0 none), ("max_bytes", integer 0 none)]

/-- `payloadRef`. -/
def payloadRef : Schema := record
  ["payload_ref", "content_digest"]
  [("payload_ref", refToken), ("content_digest", digest),
    ("media_type", allOf [string, minLength 1])]

/-- `outcomeKind`. -/
def outcomeKind : Schema := oneOfTexts ["events", "no_change", "logical_deadman", "partial",
  "cancelled", "coverage_degraded", "refused", "reauthentication_required", "failed"]

/-- `reasonOutcomeKind`. -/
def reasonOutcomeKind : Schema :=
  oneOfTexts ["cancelled", "refused", "reauthentication_required", "failed"]

/-- `authnMode`. -/
def authnMode : Schema := oneOfTexts ["required", "optional", "disabled"]

/-- `baselinePolicy`. -/
def baselinePolicy : Schema := oneOfTexts ["latest", "earliest", "provider_defined"]

/-- `replayStatus`. -/
def replayStatus : Schema := oneOfTexts ["fresh", "replay"]

/-- `waitEvent`. -/
def waitEvent : Schema := record
  ["event_id", "registration_id", "source_instance_ref", "method_id", "subject_kind",
    "subject_id", "occurred_at", "observed_at", "start_anchor", "proposed_next_anchor",
    "replay_status", "correlation_id", "payload"]
  [("event_id", idToken), ("registration_id", idToken), ("source_instance_ref", refToken),
    ("method_id", idToken), ("subject_kind", idToken), ("subject_id", idToken),
    ("occurred_at", rfc3339), ("observed_at", rfc3339), ("start_anchor", anchor),
    ("proposed_next_anchor", anchor), ("replay_status", replayStatus),
    ("correlation_id", idToken), ("causation_id", idToken), ("payload", payloadRef),
    ("delivery_ref", refToken), ("activation_ref", refToken)]

/-- `coverageArm`: an arm that is not clean carries a reason. -/
def coverageArm : Schema := allOf [
  record
    ["arm_id", "registration_id", "required", "status", "degraded", "start_anchor",
      "proposed_next_anchor", "event_count", "byte_count"]
    [("arm_id", idToken), ("registration_id", idToken), ("required", boolean),
      ("status", oneOfTexts
        ["no_change", "events", "observed", "outage", "cursor_uncertain", "deferred"]),
      ("degraded", boolean), ("start_anchor", anchor), ("proposed_next_anchor", anchor),
      ("event_count", integer 0 none), ("byte_count", integer 0 none), ("reason_code", idToken)],
  ifThen
    (anyOf [has "status" (oneOfTexts ["outage", "cursor_uncertain"]), has "degraded" literalTrue])
    (required ["reason_code"])]

/-- `pollBound`. -/
def pollBound : Schema := record
  []
  [("max_events", integer 1 none), ("max_payload_refs", integer 1 none),
    ("max_bytes", integer 1 none)]

/-- `registration`: it has a start anchor or a baseline policy, and not both. -/
def registration : Schema := allOf [
  record
    ["registration_id", "method_id", "subject_kind", "subject_id", "required",
      "source_instance_ref", "predicate_ref", "capability_ref", "lease_expires_at", "bounds"]
    [("registration_id", idToken), ("method_id", idToken), ("subject_kind", idToken),
      ("subject_id", idToken), ("required", boolean), ("source_instance_ref", refToken),
      ("predicate_ref", refToken), ("capability_ref", refToken), ("lease_expires_at", rfc3339),
      ("bounds", waitBound), ("start_anchor", anchor), ("baseline_policy", baselinePolicy),
      ("priority", integer 0 (some 255))],
  oneOf [
    allOf [required ["start_anchor"], negated (required ["baseline_policy"])],
    allOf [required ["baseline_policy"], negated (required ["start_anchor"])]]]

/-- The names every message carries. -/
def envelopeNames : List String :=
  ["capabilities", "message_type", "message_id", "correlation_id", "created_at", "actor_ref",
    "waiter_id"]

/-- The properties every message may have. -/
def envelope (kind : String) : List (String × Schema) :=
  [("capabilities", capabilities), ("message_type", literal kind), ("message_id", idToken),
    ("correlation_id", idToken), ("created_at", rfc3339), ("actor_ref", actorRef),
    ("causation_id", idToken), ("grant_ref", refToken), ("verification_receipt_ref", refToken),
    ("policy_decision_ref", refToken), ("waiter_id", idToken)]

/-- A message: an envelope with the names and properties of its kind. -/
def message (kind : String) (names : List String) (props : List (String × Schema)) : Schema :=
  record (envelopeNames ++ names) (envelope kind ++ props)

/-- `registrationSet`. -/
def registrationSet : Schema := message "registration_set"
  ["principal_ref", "seat_ref", "registration_revision", "logical_deadline", "authn_mode",
    "aggregate_limits", "registration_digest", "registrations"]
  [("principal_ref", actorRef), ("seat_ref", refToken), ("registration_revision", idToken),
    ("logical_deadline", rfc3339), ("authn_mode", authnMode), ("aggregate_limits", waitBound),
    ("registration_digest", jcsDigest),
    ("registrations", allOf [atLeastOne, arrayOf registration])]

/-- `liveWaitRequest`. -/
def liveWaitRequest : Schema := message "live_wait_request"
  ["registration_set_ref", "registration_revision", "logical_deadline", "run_deadline"]
  [("registration_set_ref", idToken), ("registration_revision", idToken),
    ("logical_deadline", rfc3339), ("run_deadline", rfc3339)]

/-- The outcome is of a kind. -/
def kindIs (kind : Schema) : Schema := has "outcome_kind" kind

/-- An outcome that ends without a result carries a reason. -/
def reasonRule : Schema := ifThen (kindIs reasonOutcomeKind) (required ["reason_code"])

/-- `liveWaitOutcome`. -/
def liveWaitOutcome : Schema := allOf [
  message "live_wait_outcome"
    ["request_ref", "completed_at", "outcome_kind"]
    [("request_ref", idToken), ("completed_at", rfc3339), ("logical_deadline", rfc3339),
      ("outcome_kind", outcomeKind), ("events", arrayOf waitEvent),
      ("proposed_next_anchor", anchor), ("coverage_complete", boolean),
      ("arms", allOf [atLeastOne, arrayOf coverageArm]), ("reason_code", idToken)],
  ifThen (kindIs (literal "events"))
    (allOf [required ["events", "proposed_next_anchor"], properties [("events", atLeastOne)]]),
  ifThen (kindIs (oneOfTexts ["no_change", "logical_deadman"]))
    (allOf [required ["events", "coverage_complete", "arms", "logical_deadline"],
      properties [("events", noItems)]]),
  ifThen (kindIs (literal "partial")) (required ["events", "arms", "coverage_complete"]),
  ifThen (kindIs (literal "coverage_degraded")) (required ["arms", "coverage_complete"]),
  reasonRule]

/-- `pollCycleRequest`. -/
def pollCycleRequest : Schema := message "poll_cycle_request"
  ["registration_set_ref", "registration_revision", "logical_deadline", "run_deadline",
    "required_arms", "fairness_cursor", "acknowledged_anchors", "activation_ref", "cycle_id"]
  [("registration_set_ref", idToken), ("registration_revision", idToken),
    ("logical_deadline", rfc3339), ("run_deadline", rfc3339),
    ("required_arms", allOf [atLeastOne, distinct, arrayOf idToken]),
    ("fairness_cursor", idToken), ("acknowledged_anchors", registrationAnchorMap),
    ("activation_ref", refToken), ("cycle_id", idToken), ("bound", pollBound)]

/-- `pollCycleOutcome`. -/
def pollCycleOutcome : Schema := allOf [
  message "poll_cycle_outcome"
    ["request_ref", "completed_at", "logical_deadline", "outcome_kind", "events",
      "coverage_complete", "arms", "retained_through", "retained_events",
      "proposed_next_anchors", "fairness_cursor", "next_fairness_cursor"]
    [("request_ref", idToken), ("completed_at", rfc3339), ("logical_deadline", rfc3339),
      ("outcome_kind", outcomeKind), ("events", arrayOf waitEvent),
      ("coverage_complete", boolean), ("arms", allOf [atLeastOne, arrayOf coverageArm]),
      ("retained_through", registrationAnchorMap), ("retained_events", registrationEventMap),
      ("proposed_next_anchors", registrationAnchorMap), ("fairness_cursor", idToken),
      ("next_fairness_cursor", idToken), ("acknowledged_anchors", registrationAnchorMap),
      ("bound", pollBound), ("reason_code", idToken)],
  reasonRule]

/-- `pollCycleAck`. -/
def pollCycleAck : Schema := message "poll_cycle_ack"
  ["outcome_ref", "committed_anchors", "retained_events"]
  [("outcome_ref", idToken), ("committed_anchors", registrationAnchorMap),
    ("retained_events", registrationEventMap)]

/-- The entry schema: one of the six kinds, with its capabilities. -/
def entry : Schema := allOf [
  oneOf [registrationSet, liveWaitRequest, liveWaitOutcome, pollCycleRequest, pollCycleOutcome,
    pollCycleAck],
  properties [("capabilities", allOf [arrayOf string, contains (literal "contract: agent-wait/v0"),
    atLeastOne, distinct])]]

end Schema

end Waitprims
