import Mathlib
import Waitprims.Core.Decode
import Waitprims.Core.Jcs
import Waitprims.Core.Schema
import Waitprims.Core.SetRules

/-! # Admission of documents

Each document is checked alone: its kind is declared, it satisfies the entry schema and the
normative rules of its message, and it decodes. Then the set rules run across the documents. The
digest of a registrations array is a parameter: it is computed with hashing and number formatting
of other crates.

* **`individuallyValid`** — what a document needs on its own.
* **`validateDocuments`** — admission of a list of documents; **`validateRawDocuments`** and
  **`validateMessage`** — of raw texts, and of one.
* **`validateDocument_ok`** — what an admitted document satisfies. -/

namespace Waitprims

namespace Validate

open SetRules (reject checkEach messageType stringField compareTimes)

/-- `ADMITTED_MESSAGE_TYPES`. -/
def admittedMessageTypes : List String :=
  ["registration_set", "live_wait_request", "live_wait_outcome", "poll_cycle_request",
    "poll_cycle_outcome", "poll_cycle_ack"]

/-- `reject_undeclared_kind`. -/
def rejectUndeclaredKind (document : Json) : Except Error Unit :=
  match messageType document with
  | none => .error (validationError "/message_type" "required")
  | some kind =>
    reject (!admittedMessageTypes.contains kind)
      (validationError "/message_type" "undeclared_message_type")

/-- `schema_validate`. The source names the keyword that failed first. -/
def schemaValidate (document : Json) : Except Error Unit :=
  reject (!Schema.entry document) (validationError "/" "schema")

/-! ## Outcomes -/

/-- The required arms of an outcome; without an array of arms there is none. -/
def requiredArmsOf (document : Json) : List Json :=
  (SetRules.armsOf document).filter fun arm => arm.isTrueField "required"

/-- A member is the literal `false`. -/
def isFalseField (value : Json) (key : String) : Bool := value.get key == some (.bool false)

/-- An arm that reports an outage, an uncertain cursor or a degradation. -/
def isDirty (arm : Json) : Bool :=
  arm.strField "status" == some "outage" || arm.strField "status" == some "cursor_uncertain"
    || arm.isTrueField "degraded"

/-- An arm that reports no change and no degradation. -/
def isNoChange (arm : Json) : Bool :=
  arm.strField "status" == some "no_change" && isFalseField arm "degraded"

/-- An arm that is covered. -/
def isCovered (arm : Json) : Bool :=
  isFalseField arm "degraded" && arm.strField "status" != some "outage"
    && arm.strField "status" != some "cursor_uncertain"

/-- `outcome_normative`. -/
def outcomeNormative (document : Json) : Except Error Unit := do
  let kind := document.strField "outcome_kind"
  let events := (document.arrayField "events").getD []
  let complete := (document.get "coverage_complete").bind Json.asBool
  let completed ← stringField document "/completed_at" "completed_at"
  let logical := document.strField "logical_deadline"
  let arms := requiredArmsOf document
  let reqNoChange := !arms.isEmpty && arms.all isNoChange
  let reqComplete := !arms.isEmpty && arms.all isCovered
  reject (arms.any isDirty && (kind == some "no_change" || kind == some "logical_deadman"))
    (normativeError "/outcome_kind" "required_arm_not_clean" .outageNotClean)
  if kind == some "no_change" then
    match logical with
    | none => .error (normativeError "/logical_deadline" "required" .noChangeInvariants)
    | some logical =>
      let rel ← compareTimes completed logical
      reject (!events.isEmpty || complete != some true || !reqNoChange || decide (rel ≥ 0))
        (normativeError "/outcome_kind" "no_change_invariants" .noChangeInvariants)
  if kind == some "logical_deadman" then
    match logical with
    | none => .error (normativeError "/logical_deadline" "required" .deadmanInvariants)
    | some logical =>
      let rel ← compareTimes completed logical
      reject (!events.isEmpty || complete != some true || !reqComplete || decide (rel < 0))
        (normativeError "/outcome_kind" "deadman_invariants" .deadmanInvariants)

/-! ## One document -/

/-- `verify_registration_digest`: `digest` answers the lowercase hex of the canonical bytes, or
`none` where there are none. -/
def verifyRegistrationDigest (digest : Json → Option String) (registrations : Json)
    (claimed : String) : Except Error Unit :=
  match digest registrations with
  | none =>
    .error (normativeError "/registration_digest" "rfc8785_sha256" .registrationDigestMismatch)
  | some got =>
    reject (got != claimed)
      (normativeError "/registration_digest/value" "digest_mismatch" .registrationDigestMismatch)

/-- The deadlines of a request. -/
def deadlineOrdering (document : Json) : Except Error Unit := do
  let run ← stringField document "/run_deadline" "run_deadline"
  let logical ← stringField document "/logical_deadline" "logical_deadline"
  let order ← compareTimes run logical
  reject (decide (order > 0))
    (normativeError "/run_deadline" "must_be_at_or_before_logical_deadline" .deadlineOrdering)

/-- The digest of a registration set. -/
def digestMatches (digest : Json → Option String) (document : Json) : Except Error Unit :=
  match (document.pointer "registration_digest" "value").bind Json.asStr with
  | none => .error (validationError "/registration_digest/value" "required")
  | some claimed =>
    match document.get "registrations" with
    | none => .error (validationError "/registrations" "required")
    | some registrations => verifyRegistrationDigest digest registrations claimed

/-- `per_message_normative`. -/
def perMessageNormative (digest : Json → Option String) (document : Json) : Except Error Unit :=
  match messageType document with
  | some "live_wait_request" | some "poll_cycle_request" => deadlineOrdering document
  | some "registration_set" => digestMatches digest document
  | some "poll_cycle_outcome" | some "live_wait_outcome" => outcomeNormative document
  | _ => .ok ()

/-- The checks a document passes on its own, and the message it decodes to. -/
def validateDocument (digest : Json → Option String) (document : Json) :
    Except Error AgentWaitMessage := do
  rejectUndeclaredKind document
  schemaValidate document
  perMessageNormative digest document
  match Decode.message document with
  | some message => .ok message
  | none => .error (validationError "/" "typed_decode")

/-- **A document that is admitted alone.** -/
def individuallyValid (digest : Json → Option String) (document : Json) : Bool :=
  (validateDocument digest document).toBool

/-- `validate_documents`. -/
def validateDocuments (digest : Json → Option String) (documents : List Json) :
    Except Error (List AgentWaitMessage) := do
  reject documents.isEmpty (validationError "/" "empty_target")
  let typed ← documents.mapM (validateDocument digest)
  SetRules.setRules documents
  return typed

/-! ## Raw texts -/

/-- Why a raw text is refused. -/
inductive AdmissionError
  | jcs (stop : Jcs.Stop)
  | contract (error : Error)

/-- `validate_raw_documents`: every text is parsed before any document is checked. -/
def validateRawDocuments (digest : Json → Option String) (raws : List String) :
    Except AdmissionError (List AgentWaitMessage) := do
  let documents ← (raws.mapM Jcs.parseStrict).mapError AdmissionError.jcs
  (validateDocuments digest documents).mapError AdmissionError.contract

/-- `validate_message`. -/
def validateMessage (digest : Json → Option String) (raw : String) :
    Except AdmissionError AgentWaitMessage := do
  let messages ← validateRawDocuments digest [raw]
  match messages with
  | message :: _ => .ok message
  | [] => .error (.contract (validationError "/" "empty_document"))

/-! ## What is admitted -/

/-- A sequence of checks that succeeds. -/
theorem except_bind_eq_ok {α γ ε : Type} {x : Except ε α} {f : α → Except ε γ} {c : γ}
    (h : (x >>= f) = .ok c) : ∃ a, x = .ok a ∧ f a = .ok c := by
  cases x with
  | error e => cases h
  | ok a => exact ⟨a, rfl, h⟩

/-- A check that passes refuses nothing. -/
theorem reject_eq_ok {refuse : Bool} {e : Error} (h : reject refuse e = .ok ()) :
    refuse = false := by
  cases refuse with
  | false => rfl
  | true => cases h

/-- **What an admitted document satisfies**: the entry schema, the rules of its message, and the
typed decode. -/
theorem validateDocument_ok {digest : Json → Option String} {document : Json}
    {message : AgentWaitMessage} (h : validateDocument digest document = .ok message) :
    Schema.entry document = true ∧ perMessageNormative digest document = .ok () ∧
      Decode.message document = some message := by
  obtain ⟨_, -, h⟩ := except_bind_eq_ok h
  obtain ⟨⟨⟩, hschema, h⟩ := except_bind_eq_ok h
  obtain ⟨⟨⟩, hrules, h⟩ := except_bind_eq_ok h
  refine ⟨by simpa using reject_eq_ok hschema, hrules, ?_⟩
  cases hdecode : Decode.message document with
  | none =>
    rw [hdecode] at h
    cases h
  | some decoded =>
    rw [hdecode] at h
    rw [Except.ok.inj h]

end Validate

end Waitprims
