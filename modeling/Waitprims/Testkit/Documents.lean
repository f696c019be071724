import Mathlib
import Waitprims.Core.Validate

/-! # Sterile documents

Raw documents of a poll cycle, as the validator reads them: an outcome, an ack, a request and a
registration set, with the members the set rules look at as parameters. -/

namespace Waitprims

namespace Documents

/-- An object with its members in key order. -/
def object (members : List (String × Json)) : Json :=
  .obj (members.insertionSort fun a b => a.1 ≤ b.1)

/-- A provider-opaque anchor. -/
def anchor (value : String) : Json := object [("kind", .str "provider_opaque"), ("value", .str value)]

/-- The members every message carries. -/
def envelope (kind messageId createdAt waiter : String) : List (String × Json) := [
  ("capabilities", .arr [.str "contract: agent-wait/v0"]),
  ("message_type", .str kind),
  ("message_id", .str messageId),
  ("correlation_id", .str "corr:aw-1"),
  ("created_at", .str createdAt),
  ("actor_ref", .str "seat:consumer-a"),
  ("waiter_id", .str waiter)]

/-- Anchors by registration. -/
def anchors (entries : List (String × String)) : Json :=
  object (entries.map fun p => (p.1, anchor p.2))

/-- Event ids by registration. -/
def eventLists (entries : List (String × List String)) : Json :=
  object (entries.map fun p => (p.1, .arr (p.2.map .str)))

/-- A source event. -/
def event (registration eventId : String) : Json := object [
  ("event_id", .str eventId),
  ("registration_id", .str registration),
  ("source_instance_ref", .str "source:provider-a"),
  ("method_id", .str "method:a"),
  ("subject_kind", .str "subject"),
  ("subject_id", .str "subject:1"),
  ("occurred_at", .str "2026-08-15T16:01:00Z"),
  ("observed_at", .str "2026-08-15T16:01:00Z"),
  ("start_anchor", anchor "anc:cursor-0"),
  ("proposed_next_anchor", anchor "anc:after-1"),
  ("replay_status", .str "fresh"),
  ("correlation_id", .str "corr:aw-1"),
  ("payload", object [
    ("payload_ref", .str "msg:payload-1"),
    ("content_digest", object [
      ("algorithm", .str "sha256"),
      ("value", .str (String.ofList (List.replicate 64 'c')))])])]

/-- A required arm that delivered events. -/
def arm (armId registration : String) : Json := object [
  ("arm_id", .str armId),
  ("registration_id", .str registration),
  ("required", .bool true),
  ("status", .str "events"),
  ("degraded", .bool false),
  ("start_anchor", anchor "anc:cursor-0"),
  ("proposed_next_anchor", anchor "anc:after-1"),
  ("event_count", .num (.int 1)),
  ("byte_count", .num (.int 77))]

/-- An outcome: who it is for, what it delivered and what it retained. -/
structure Outcome where
  messageId : String
  createdAt : String
  waiter : String
  armId : String
  registration : String
  events : List Json
  proposed : List (String × String)
  retainedThrough : List (String × String)
  retainedEvents : List (String × List String)

/-- The document of an outcome. -/
def Outcome.document (o : Outcome) : Json :=
  object (envelope "poll_cycle_outcome" o.messageId o.createdAt o.waiter ++ [
    ("request_ref", .str "msg:aw-poll-req-1"),
    ("completed_at", .str "2026-08-15T16:02:00Z"),
    ("logical_deadline", .str "2026-08-15T17:00:00Z"),
    ("outcome_kind", .str "events"),
    ("events", .arr o.events),
    ("coverage_complete", .bool true),
    ("arms", .arr [arm o.armId o.registration]),
    ("retained_through", anchors o.retainedThrough),
    ("retained_events", eventLists o.retainedEvents),
    ("proposed_next_anchors", anchors o.proposed),
    ("fairness_cursor", .str "fair:start"),
    ("next_fairness_cursor", .str "fair:a")])

/-- The outcome of a cycle over `reg:a` that delivered one event. -/
def base : Outcome where
  messageId := "msg:out-1"
  createdAt := "2026-08-15T16:00:00Z"
  waiter := "waiter:a"
  armId := "arm:a"
  registration := "reg:a"
  events := [event "reg:a" "evt:1"]
  proposed := [("reg:a", "anc:after-1")]
  retainedThrough := [("reg:a", "anc:after-1")]
  retainedEvents := [("reg:a", ["evt:1"])]

/-- An ack of an outcome. -/
def ack (messageId waiter outcomeRef : String) (committed : List (String × String))
    (retained : List (String × List String)) : Json :=
  object (envelope "poll_cycle_ack" messageId "2026-08-15T16:03:00Z" waiter ++ [
    ("outcome_ref", .str outcomeRef),
    ("committed_anchors", anchors committed),
    ("retained_events", eventLists retained)])

/-- A poll-cycle request that requires some arms. -/
def request (messageId waiter : String) (requiredArms : List String) : Json :=
  object (envelope "poll_cycle_request" messageId "2026-08-15T16:00:00Z" waiter ++ [
    ("registration_set_ref", .str "msg:aw-reg-1"),
    ("registration_revision", .str "regrev-1"),
    ("logical_deadline", .str "2026-08-15T17:00:00Z"),
    ("run_deadline", .str "2026-08-15T16:20:00Z"),
    ("required_arms", .arr (requiredArms.map .str)),
    ("fairness_cursor", .str "fair:start"),
    ("acknowledged_anchors", anchors []),
    ("activation_ref", .str "act:cycle-1"),
    ("cycle_id", .str "cycle:1")])

/-- A registration that starts from the latest state. -/
def registration (registrationId : String) : Json := object [
  ("registration_id", .str registrationId),
  ("method_id", .str "method:a"),
  ("subject_kind", .str "subject"),
  ("subject_id", .str "subject:1"),
  ("required", .bool true),
  ("source_instance_ref", .str "source:provider-a"),
  ("predicate_ref", .str "predicate:a"),
  ("capability_ref", .str "capability:a"),
  ("lease_expires_at", .str "2026-08-15T18:00:00Z"),
  ("bounds", object [("max_events", .num (.int 4)), ("max_bytes", .num (.int 4096))]),
  ("baseline_policy", .str "latest")]

/-- The SHA-256 of `[registration "reg:a"]` in canonical form. -/
def registrationDigest : String :=
  "25f6c4c201f123be66d17d0db69ae2b7005524030da2be0f2c134ccc8eaaaf16"

/-- A registration set over `reg:a`. -/
def registrationSet (messageId waiter revision : String) : Json :=
  object (envelope "registration_set" messageId "2026-08-15T15:59:00Z" waiter ++ [
    ("principal_ref", .str "seat:consumer-a"),
    ("seat_ref", .str "seat:consumer-a"),
    ("registration_revision", .str revision),
    ("logical_deadline", .str "2026-08-15T17:00:00Z"),
    ("authn_mode", .str "disabled"),
    ("aggregate_limits", object [("max_events", .num (.int 8)), ("max_bytes", .num (.int 8192))]),
    ("registration_digest", object [
      ("canonicalization", .str "rfc8785"),
      ("algorithm", .str "sha256"),
      ("value", .str registrationDigest)]),
    ("registrations", .arr [registration "reg:a"])])

end Documents

end Waitprims
