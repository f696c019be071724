import Mathlib
import Waitprims.Core.Json

/-! # The cross-message rules of the validator

Two or more documents are also checked as a set, on the raw values: coverage of the required arms,
what an ack commits, starvation, a silent advance of the cursors, the revision freeze, and
authentication, leases and bounds. Each rule answers `Err` with the field it names or lets the
documents pass.

* **`ackRules`** — an ack against the outcome it cites.
* **`silentCursorAdvance`** — the first outcome against the last, in the order of their texts.
* **`setRules`** — the six rules, in the order of the source. -/

namespace Waitprims

namespace SetRules

open Json (lookup)

/-! ## Checks -/

/-- Fail where a condition holds. -/
def reject (cond : Bool) (err : Error) : Except Error Unit := if cond then .error err else .ok ()

/-- Check every element, and stop at the first failure. -/
def checkEach {α : Type} (check : α → Except Error Unit) : List α → Except Error Unit
  | [] => .ok ()
  | a :: rest => do
    check a
    checkEach check rest

/-! ## Reading documents -/

/-- `document.get("message_type").and_then(Value::as_str)`. -/
def messageType (document : Json) : Option String := document.strField "message_type"

/-- The documents of one message type. -/
def ofType (kind : String) (documents : List Json) : List Json :=
  documents.filter fun d => messageType d == some kind

/-- The requests, of either kind. -/
def requests (documents : List Json) : List Json :=
  documents.filter fun d =>
    messageType d == some "poll_cycle_request" || messageType d == some "live_wait_request"

/-- The outcomes, of either kind. -/
def outcomes (documents : List Json) : List Json :=
  documents.filter fun d =>
    messageType d == some "poll_cycle_outcome" || messageType d == some "live_wait_outcome"

/-- `object_map`. -/
def objectMap (value : Option Json) : List (String × Json) := (value.bind Json.asObject).getD []

/-- `string_list_map`. -/
def stringListMap (value : Option Json) : List (String × List String) :=
  (objectMap value).map fun p => (p.1, (p.2.asArray.getD []).filterMap Json.asStr)

/-- `event_ids`. -/
def eventIds (document : Json) : List String :=
  ((document.arrayField "events").getD []).filterMap fun e => e.strField "event_id"

/-- The arms of a document. -/
def armsOf (document : Json) : List Json := (document.arrayField "arms").getD []

/-- `arm_status`: the status of the first arm with an id. -/
def armStatus (document : Json) (armId : String) : Option String :=
  ((armsOf document).find? fun arm => arm.strField "arm_id" == some armId).bind fun arm =>
    arm.strField "status"

/-- The text outcomes are sorted by. -/
def createdText (document : Json) : String := (document.strField "created_at").getD ""

/-- `sort_by_key` on the text of `created_at`: a stable sort. -/
def sortByCreated (documents : List Json) : List Json :=
  documents.insertionSort fun a b => createdText a ≤ createdText b

/-! ## Coverage of the required arms -/

/-- The arms the poll-cycle requests require. -/
def requiredArms (documents : List Json) : List String :=
  (ofType "poll_cycle_request" documents).flatMap fun d =>
    ((d.arrayField "required_arms").getD []).filterMap Json.asStr

/-- The arm ids of an outcome. -/
def armIds (document : Json) : List String :=
  (armsOf document).filterMap fun arm => arm.strField "arm_id"

/-- An outcome with complete coverage has every required arm. -/
def coverageCheck (required : List String) (outcome : Json) : Except Error Unit :=
  reject (outcome.isTrueField "coverage_complete"
      && required.any fun arm => !(armIds outcome).contains arm)
    (normativeError "/arms" "missing_required_arm" .coverageCardinality)

/-- `coverage_cardinality`. -/
def coverageCardinality (documents : List Json) : Except Error Unit :=
  let required := requiredArms documents
  if required.isEmpty then .ok ()
  else checkEach (coverageCheck required) (ofType "poll_cycle_outcome" documents)

/-! ## Acks -/

/-- The committed anchor of one registration, against what the outcome retained. -/
def stolenAnchorCheck (retainedThrough : List (String × Json)) (committed : String × Json) :
    Except Error Unit :=
  reject (lookup committed.1 retainedThrough != some committed.2
      && retainedThrough.any fun other => other.1 != committed.1 && other.2 == committed.2)
    (normativeError "/committed_anchors" "cross_registration" .crossArmCommit)

/-- The retained events of one registration, against those of the others. -/
def stolenEventCheck (outEvents : List (String × List String)) (acked : String × List String) :
    Except Error Unit :=
  checkEach (fun eventId =>
      reject (outEvents.any fun other => other.1 != acked.1 && other.2.contains eventId)
        (normativeError "/retained_events" "cross_registration" .crossArmCommit))
    acked.2

/-- Some committed anchor is not the one retained. -/
def cursorMismatch (committed retainedThrough : List (String × Json)) : Bool :=
  committed.any fun p => lookup p.1 retainedThrough != some p.2

/-- Some acked event was not retained. -/
def eventMismatch (ackEvents outEvents : List (String × List String)) : Bool :=
  ackEvents.any fun p =>
    let allowed := (lookup p.1 outEvents).getD []
    p.2.any fun eventId => !allowed.contains eventId

/-- One ack against the outcome it cites. -/
def ackAgainst (ack outcome : Json) : Except Error Unit := do
  let committed := objectMap (ack.get "committed_anchors")
  let retainedThrough := objectMap (outcome.get "retained_through")
  let ackEvents := stringListMap (ack.get "retained_events")
  let outEvents := stringListMap (outcome.get "retained_events")
  checkEach (stolenAnchorCheck retainedThrough) committed
  checkEach (stolenEventCheck outEvents) ackEvents
  reject (cursorMismatch committed retainedThrough || eventMismatch ackEvents outEvents)
    (normativeError "/committed_anchors" "past_unretained" .ackPastUnretained)

/-- The first outcome whose id an ack cites. -/
def citedOutcome (outs : List Json) (ack : Json) : Option Json :=
  outs.find? fun out => out.strField "message_id" == ack.strField "outcome_ref"

/-- `ack_rules`: an ack that cites no outcome of the set is skipped. -/
def ackRules (documents : List Json) : Except Error Unit :=
  let outs := ofType "poll_cycle_outcome" documents
  checkEach (fun ack => match citedOutcome outs ack with
      | none => .ok ()
      | some outcome => ackAgainst ack outcome)
    (ofType "poll_cycle_ack" documents)

/-! ## Starvation -/

/-- The waiter of a document. -/
def waiterOf (document : Json) : String := (document.strField "waiter_id").getD ""

/-- The required arms the outcomes carry. -/
def requiredArmIds (outs : List Json) : List String :=
  outs.flatMap fun out => (armsOf out).filterMap fun arm =>
    if arm.isTrueField "required" then arm.strField "arm_id" else none

/-- All outcomes that carry a next fairness cursor carry the same one, and some does. -/
def cursorFrozen (outs : List Json) : Bool :=
  (outs.filterMap fun out => out.strField "next_fairness_cursor").dedup.length == 1

/-- Another required arm delivered events. -/
def otherEvents (outs : List Json) (armId : String) : Bool :=
  outs.any fun out => (armsOf out).any fun arm =>
    arm.isTrueField "required" && arm.strField "arm_id" != some armId
      && arm.strField "status" == some "events"

/-- One arm against the outcomes of its waiter. -/
def starvationCheck (outs : List Json) (armId : String) : Except Error Unit :=
  reject ((outs.all fun out => armStatus out armId == some "deferred")
      && otherEvents outs armId && cursorFrozen outs)
    (normativeError "/next_fairness_cursor" "starvation" .fairnessStarvation)

/-- The outcomes of one waiter, in the order of their texts. -/
def waiterCheck (outs : List Json) : Except Error Unit :=
  if outs.length < 2 then .ok ()
  else
    let ordered := sortByCreated outs
    checkEach (starvationCheck ordered) (requiredArmIds ordered).dedup

/-- `fairness_starvation`: the outcomes are grouped by waiter. Every group fails with the same
error, so the order of the groups is not observed. -/
def fairnessStarvation (documents : List Json) : Except Error Unit :=
  let outs := ofType "poll_cycle_outcome" documents
  checkEach (fun waiter => waiterCheck (outs.filter fun out => waiterOf out == waiter))
    (outs.map waiterOf).dedup

/-! ## Silent advance -/

/-- The last outcome lost an event of the first. -/
def lostEvent (first last : Json) : Bool :=
  (eventIds first).any fun id => !(eventIds last).contains id

/-- The proposed anchors of the first outcome moved. -/
def advanced (first last : Json) : Bool :=
  let lastAnchors := objectMap (last.get "proposed_next_anchors")
  (objectMap (first.get "proposed_next_anchors")).any fun p =>
    (lookup p.1 lastAnchors).bind (fun a => a.get "value") != p.2.get "value"

/-- The cursors moved past an event that only the first outcome delivered. -/
def silentlyAdvanced (first last : Json) : Bool := lostEvent first last && advanced first last

/-- `silent_cursor_advance`: without an ack, the first outcome against the last. -/
def silentCursorAdvance (documents : List Json) : Except Error Unit :=
  let outs := ofType "poll_cycle_outcome" documents
  if !(ofType "poll_cycle_ack" documents).isEmpty || outs.length < 2 then .ok ()
  else
    let ordered := sortByCreated outs
    match ordered.head?, ordered.getLast? with
    | some first, some last =>
      reject (silentlyAdvanced first last)
        (normativeError "/proposed_next_anchors" "silent_advance" .silentCursorAdvance)
    | _, _ => .ok ()

/-! ## Revision freeze -/

/-- `revision_cross`: every request carries the revision of the last set. -/
def revisionCross (documents : List Json) : Except Error Unit :=
  let sets := ofType "registration_set" documents
  let reqs := requests documents
  match sets.getLast? with
  | none => .ok ()
  | some set =>
    reject (reqs.any fun r =>
        r.strField "registration_revision" != set.strField "registration_revision")
      (normativeError "/registration_revision" "revision_mismatch" .revisionCross)

/-! ## Authentication, leases and bounds -/

/-- An outcome that claims a regular end of its cycle. -/
def isClean (outcome : Json) : Bool :=
  let kind := outcome.strField "outcome_kind"
  kind == some "events" || kind == some "no_change" || kind == some "logical_deadman"
    || kind == some "partial"

/-- A set that requires authentication needs a receipt on every request of a clean outcome. -/
def authnCheck (reqs outs : List Json) (set : Json) : Except Error Unit :=
  reject (set.strField "authn_mode" == some "required"
      && (reqs.isEmpty || reqs.any fun r => (r.strField "verification_receipt_ref").isNone)
      && outs.any isClean)
    (normativeError "/verification_receipt_ref" "required" .authnRequired)

/-- The registrations of a set. -/
def registrationsOf (set : Json) : List Json := (set.arrayField "registrations").getD []

/-- `string_field`. -/
def stringField (document : Json) (path name : String) : Except Error String :=
  match document.strField name with
  | some s => .ok s
  | none => .error (validationError path "required")

/-- `rfc3339::compare`, as the validator sees it. -/
def compareTimes (left right : String) : Except Error Int :=
  match compareTexts left right with
  | .ok c => .ok c
  | .error _ => .error (normativeError "/timestamp" "rfc3339_profile" .unparseableTimestamp)

/-- One outcome against one lease. -/
def leaseCheck (lease : String) (outcome : Json) : Except Error Unit := do
  let completed ← stringField outcome "/completed_at" "completed_at"
  let order ← compareTimes lease completed
  reject (decide (order < 0) && outcome.strField "outcome_kind" != some "reauthentication_required")
    (normativeError "/completed_at" "lease_expired" .leaseReauth)

/-- One registration against the outcomes. -/
def registrationLeaseCheck (outs : List Json) (registration : Json) : Except Error Unit :=
  match registration.strField "lease_expires_at" with
  | none => .error (validationError "/registrations/lease_expires_at" "required")
  | some lease => checkEach (leaseCheck lease) outs

/-- The events of an outcome. -/
def eventsOf (outcome : Json) : List Json := (outcome.arrayField "events").getD []

/-- The events of one registration against its own bound. -/
def registrationBoundCheck (events : List Json) (registration : Json) : Except Error Unit :=
  let rid := (registration.strField "registration_id").getD ""
  let maxEvents := ((registration.pointer "bounds" "max_events").bind Json.asU64).getD u64Max
  reject (decide ((events.filter fun e => e.strField "registration_id" == some rid).length
      > maxEvents))
    (normativeError "/events" "registration_max_events" .registrationBound)

/-- One outcome against the bounds of a set. -/
def boundsCheck (set outcome : Json) : Except Error Unit :=
  let aggregate := ((set.pointer "aggregate_limits" "max_events").bind Json.asU64).getD u64Max
  let kind := outcome.strField "outcome_kind"
  if kind == some "partial" || kind == some "coverage_degraded" then .ok ()
  else do
    checkEach (registrationBoundCheck (eventsOf outcome)) (registrationsOf set)
    reject (decide ((eventsOf outcome).length > aggregate))
      (normativeError "/events" "aggregate_max_events" .aggregateBound)

/-- `authn_lease_bounds`. -/
def authnLeaseBounds (documents : List Json) : Except Error Unit :=
  let sets := ofType "registration_set" documents
  let outs := outcomes documents
  let reqs := requests documents
  if sets.isEmpty || outs.isEmpty then .ok ()
  else do
    checkEach (authnCheck reqs outs) sets
    checkEach (fun set => checkEach (registrationLeaseCheck outs) (registrationsOf set)) sets
    checkEach (fun set => checkEach (boundsCheck set) outs) sets

/-- `set_rules`. -/
def setRules (documents : List Json) : Except Error Unit := do
  coverageCardinality documents
  ackRules documents
  fairnessStarvation documents
  silentCursorAdvance documents
  revisionCross documents
  authnLeaseBounds documents

/-! ## What a check accepts -/

/-- A check lets its documents pass. -/
def Accepts (result : Except Error Unit) : Prop := result = .ok ()

instance (result : Except Error Unit) : Decidable (Accepts result) :=
  match result with
  | .ok () => isTrue rfl
  | .error _ => isFalse (by intro h; cases h)

@[simp] theorem accepts_ok : Accepts (.ok ()) := rfl

@[simp] theorem not_accepts_error (err : Error) : ¬ Accepts (.error err) := by
  intro h
  cases h

@[simp] theorem accepts_reject {cond : Bool} {err : Error} :
    Accepts (reject cond err) ↔ cond = false := by
  cases cond <;> simp [reject]

@[simp] theorem accepts_bind {check : Except Error Unit} {rest : Unit → Except Error Unit} :
    Accepts (check >>= rest) ↔ Accepts check ∧ Accepts (rest ()) := by
  cases check with
  | ok u => exact ⟨fun h => ⟨rfl, h⟩, fun h => h.2⟩
  | error err => exact ⟨fun h => (not_accepts_error err h).elim, fun h => (not_accepts_error err h.1).elim⟩

/-- **A list passes** where each of its elements does. -/
@[simp] theorem accepts_checkEach {α : Type} {check : α → Except Error Unit} {list : List α} :
    Accepts (checkEach check list) ↔ ∀ a ∈ list, Accepts (check a) := by
  induction list with
  | nil => simp [checkEach]
  | cons a rest ih => rw [checkEach, accepts_bind, ih, List.forall_mem_cons]

/-- The six rules pass one by one. -/
theorem accepts_setRules {documents : List Json} :
    Accepts (setRules documents) ↔
      Accepts (coverageCardinality documents) ∧ Accepts (ackRules documents) ∧
      Accepts (fairnessStarvation documents) ∧ Accepts (silentCursorAdvance documents) ∧
      Accepts (revisionCross documents) ∧ Accepts (authnLeaseBounds documents) := by
  unfold setRules
  simp only [accepts_bind]

theorem mem_ofType {kind : String} {document : Json} {documents : List Json} :
    document ∈ ofType kind documents ↔ document ∈ documents ∧ messageType document = some kind := by
  simp [ofType]

end SetRules

end Waitprims
