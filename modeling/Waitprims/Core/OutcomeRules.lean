import Mathlib
import Waitprims.Core.Reserialize
import Waitprims.Core.SetSpec

/-! # The outcome rules on decoded messages

The validator checks an outcome as a document, member by member; a runner builds it as a message.
Here the two rules about outcomes, `outcome_normative` and `authn_lease_bounds`, are stated of the
messages that the documents decode to.

* **`Report`** — what the rules read of an outcome, whichever runner it is from.
* **`Shows`** — a document shows a report.
* **`accepts_outcomeNormative`** — the rule for one outcome accepts the documents of a
  `Report.Normative`.
* **`accepts_authnLeaseBounds`** — the rule for a set, a request and an outcome accepts the documents
  of a `Report.Postured`. -/

namespace Waitprims

open SetRules (Accepts accepts_reject accepts_checkEach reject compareTimes stringField)

/-! ## Fields of a decoded document -/

section fields

variable {d : Json} {name : String}

/-- A required text is read as it stands. -/
theorem strField_of_text {s : String} (h : Decode.required Decode.text d name = some s) :
    d.strField name = some s := h

/-- An optional text is read as it stands. -/
theorem strField_of_optional {s : Option String} (h : Decode.optional Decode.text d name = some s) :
    d.strField name = s := by
  unfold Decode.optional at h
  unfold Json.strField
  split at h
  · next hget =>
    rw [hget, ← Option.some.inj h]
    rfl
  · next hget =>
    rw [hget, ← Option.some.inj h]
    rfl
  · next value hnull hget =>
    obtain ⟨text, htext, rfl⟩ := Option.map_eq_some_iff.mp h
    rw [hget]
    exact htext

/-- A timestamp whose spelling parses to it. -/
def Timestamp.Spelled (t : Timestamp) : Prop := Timestamp.parse t.raw = .ok t

/-- A decoded timestamp keeps its spelling. -/
theorem spelled_of_timestamp {value : Json} {t : Timestamp}
    (h : Decode.timestamp value = some t) : value.asStr = some t.raw ∧ t.Spelled := by
  obtain ⟨raw, hraw, hparse⟩ := Option.bind_eq_some_iff.mp h
  unfold Timestamp.Spelled
  cases hresult : Timestamp.parse raw with
  | error e =>
    rw [hresult] at hparse
    cases hparse
  | ok u =>
    rw [hresult] at hparse
    obtain rfl := Option.some.inj hparse
    rw [Timestamp.parse_raw hresult]
    exact ⟨hraw, hresult⟩

/-- A required timestamp. -/
theorem strField_of_timestamp {t : Timestamp}
    (h : Decode.required Decode.timestamp d name = some t) :
    d.strField name = some t.raw ∧ t.Spelled := by
  obtain ⟨value, hvalue, htime⟩ := Option.bind_eq_some_iff.mp h
  obtain ⟨hraw, hspelled⟩ := spelled_of_timestamp htime
  unfold Json.strField
  rw [hvalue]
  exact ⟨hraw, hspelled⟩

/-- An optional timestamp. -/
theorem strField_of_optionalTimestamp {t : Option Timestamp}
    (h : Decode.optional Decode.timestamp d name = some t) :
    d.strField name = t.map Timestamp.raw ∧ ∀ u ∈ t, u.Spelled := by
  unfold Decode.optional at h
  unfold Json.strField
  split at h
  · next hget =>
    rw [hget, ← Option.some.inj h]
    exact ⟨rfl, fun u hu => by cases hu⟩
  · next hget =>
    rw [hget, ← Option.some.inj h]
    exact ⟨rfl, fun u hu => by cases hu⟩
  · next value hnull hget =>
    obtain ⟨u, htime, rfl⟩ := Option.map_eq_some_iff.mp h
    obtain ⟨hraw, hspelled⟩ := spelled_of_timestamp htime
    rw [hget]
    refine ⟨hraw, fun v hv => ?_⟩
    obtain rfl := Option.mem_some_iff.mp hv
    exact hspelled

/-- The validator compares spelled timestamps as the runners do. -/
theorem compareTimes_spelled {t u : Timestamp} (ht : t.Spelled) (hu : u.Spelled) :
    compareTimes t.raw u.raw = .ok (t.compare u) := by
  have hcompare : compareTexts t.raw u.raw = .ok (t.compare u) := by
    unfold compareTexts
    rw [show Timestamp.parse t.raw = .ok t from ht, show Timestamp.parse u.raw = .ok u from hu]
    rfl
  unfold compareTimes
  rw [hcompare]

/-- A required truth value, as either of its two readings. -/
theorem boolean_of_required {b : Bool} (h : Decode.required Decode.boolean d name = some b) :
    d.isTrueField name = b ∧ Validate.isFalseField d name = !b ∧
      (d.get name).bind Json.asBool = some b := by
  obtain ⟨value, hvalue, hbool⟩ := Option.bind_eq_some_iff.mp h
  have hvalue' : d.get name = some (.bool b) := by
    rw [hvalue]
    cases value with
    | bool b' => rw [Option.some.inj hbool]
    | _ => cases hbool
  unfold Json.isTrueField Validate.isFalseField
  rw [hvalue']
  cases b
  · exact ⟨by decide, by decide, rfl⟩
  · exact ⟨by decide, by decide, rfl⟩

/-- An optional truth value. -/
theorem bool_of_optional {b : Option Bool}
    (h : Decode.optional Decode.boolean d name = some b) :
    (d.get name).bind Json.asBool = b := by
  unfold Decode.optional at h
  split at h
  · next hget =>
    rw [hget, ← Option.some.inj h]
    rfl
  · next hget =>
    rw [hget, ← Option.some.inj h]
    rfl
  · next value hnull hget =>
    obtain ⟨truth, htruth, rfl⟩ := Option.map_eq_some_iff.mp h
    rw [hget]
    exact htruth

/-- A required array that is read element by element. -/
theorem array_of_required {α : Type} {decode : Json → Option α} {items : List α}
    (h : Decode.required (Decode.vec decode) d name = some items) :
    ((d.arrayField name).getD []).mapM decode = some items := by
  obtain ⟨value, hvalue, hitems⟩ := Option.bind_eq_some_iff.mp h
  obtain ⟨values, hvalues, hitems⟩ := Option.bind_eq_some_iff.mp hitems
  unfold Json.arrayField
  rw [hvalue, Option.bind_some, hvalues]
  exact hitems

/-- An optional array; without one there is nothing to read. -/
theorem array_of_optional {α : Type} {decode : Json → Option α} {items : Option (List α)}
    (h : Decode.optional (Decode.vec decode) d name = some items) :
    ((d.arrayField name).getD []).mapM decode = some (items.getD []) := by
  unfold Decode.optional at h
  unfold Json.arrayField
  split at h
  · next hget =>
    rw [hget, ← Option.some.inj h]
    rfl
  · next hget =>
    rw [hget, ← Option.some.inj h]
    rfl
  · next value hnull hget =>
    obtain ⟨read, hread, rfl⟩ := Option.map_eq_some_iff.mp h
    obtain ⟨values, hvalues, hitems⟩ := Option.bind_eq_some_iff.mp hread
    rw [hget, Option.bind_some, hvalues]
    exact hitems

end fields

/-! ## Names -/

/-- The wire name of an outcome kind. -/
def outcomeKindText : OutcomeKind → String
  | .events => "events"
  | .noChange => "no_change"
  | .logicalDeadman => "logical_deadman"
  | .partialResult => "partial"
  | .cancelled => "cancelled"
  | .coverageDegraded => "coverage_degraded"
  | .refused => "refused"
  | .reauthenticationRequired => "reauthentication_required"
  | .failed => "failed"

/-- The wire name of an arm status. -/
def armStatusText : ArmStatus → String
  | .noChange => "no_change"
  | .events => "events"
  | .observed => "observed"
  | .outage => "outage"
  | .cursorUncertain => "cursor_uncertain"
  | .deferred => "deferred"

/-- The wire name of an authentication posture. -/
def authnModeText : AuthnMode → String
  | .required => "required"
  | .optional => "optional"
  | .disabled => "disabled"

section names

variable {d : Json} {name : String}

/-- A variant that was read is spelled by its name. -/
theorem strField_of_variant {α : Type} {names : List (String × α)} {spell : α → String} {a : α}
    (hspell : ∀ p ∈ names, p.1 = spell p.2)
    (h : Decode.required (Decode.variant names) d name = some a) :
    d.strField name = some (spell a) := by
  obtain ⟨value, hvalue, hvariant⟩ := Option.bind_eq_some_iff.mp h
  obtain ⟨text, htext, hlookup⟩ := Option.bind_eq_some_iff.mp hvariant
  unfold Json.strField
  rw [hvalue, Option.bind_some, htext, ← hspell _ (Json.mem_of_lookup hlookup)]

theorem strField_of_outcomeKind {kind : OutcomeKind}
    (h : Decode.required Decode.outcomeKind d name = some kind) :
    d.strField name = some (outcomeKindText kind) :=
  strField_of_variant (by simp [outcomeKindText]) h

theorem strField_of_armStatus {status : ArmStatus}
    (h : Decode.required Decode.armStatus d name = some status) :
    d.strField name = some (armStatusText status) :=
  strField_of_variant (by simp [armStatusText]) h

theorem strField_of_authnMode {mode : AuthnMode}
    (h : Decode.required Decode.authnMode d name = some mode) :
    d.strField name = some (authnModeText mode) :=
  strField_of_variant (by simp [authnModeText]) h

end names

/-! ## Arms -/

namespace CoverageArm

/-- An arm that reports an outage, an uncertain cursor or a degradation. -/
def isDirty (arm : CoverageArm) : Bool :=
  arm.status == .outage || arm.status == .cursorUncertain || arm.degraded

/-- An arm that reports no change and no degradation. -/
def isNoChange (arm : CoverageArm) : Bool := arm.status == .noChange && !arm.degraded

end CoverageArm

section arms

variable {d : Json} {arm : CoverageArm}

/-- What the rules read of a decoded arm. -/
theorem reads_arm (h : Decode.coverageArm d = some arm) :
    d.isTrueField "required" = arm.required ∧ Validate.isDirty d = arm.isDirty ∧
      Validate.isNoChange d = arm.isNoChange ∧ Validate.isCovered d = !arm.isDirty := by
  unfold Decode.coverageArm at h
  iterate 2 obtain ⟨_, -, h⟩ := Option.bind_eq_some_iff.mp h
  obtain ⟨needed, hrequired, h⟩ := Option.bind_eq_some_iff.mp h
  obtain ⟨status, hstatus, h⟩ := Option.bind_eq_some_iff.mp h
  obtain ⟨degraded, hdegraded, h⟩ := Option.bind_eq_some_iff.mp h
  iterate 5 obtain ⟨_, -, h⟩ := Option.bind_eq_some_iff.mp h
  obtain rfl := Option.some.inj h
  obtain ⟨hrequired, -⟩ := boolean_of_required hrequired
  obtain ⟨htrue, hfalse, -⟩ := boolean_of_required hdegraded
  have hstatus := strField_of_armStatus hstatus
  unfold Validate.isDirty Validate.isNoChange Validate.isCovered CoverageArm.isDirty
    CoverageArm.isNoChange
  rw [hstatus, htrue, hfalse]
  refine ⟨hrequired, ?_⟩
  cases status <;> cases degraded <;> exact ⟨rfl, rfl, rfl⟩

/-- What holds of each element of a list that was read, in the words of the documents. -/
theorem all_of_mapM {α : Type} {decode : Json → Option α} {values : List Json} {items : List α}
    {p : Json → Bool} {q : α → Bool} (h : values.mapM decode = some items)
    (hpq : ∀ v a, decode v = some a → p v = q a) :
    values.all p = items.all q ∧ values.any p = items.any q ∧
      (values.filter p).length = (items.filter q).length := by
  obtain ⟨pairs, rfl, rfl, hpairs⟩ := Serialize.pairs_of_mapM h
  clear h
  induction pairs with
  | nil => exact ⟨rfl, rfl, rfl⟩
  | cons pair pairs ih =>
    have hpair := hpq _ _ (hpairs pair List.mem_cons_self)
    obtain ⟨hall, hany, hlength⟩ := ih fun p hp => hpairs p (List.mem_cons_of_mem _ hp)
    refine ⟨?_, ?_, ?_⟩
    · rw [List.map_cons, List.map_cons, List.all_cons, List.all_cons, hpair, hall]
    · rw [List.map_cons, List.map_cons, List.any_cons, List.any_cons, hpair, hany]
    · rw [List.map_cons, List.map_cons, List.filter_cons, List.filter_cons, hpair]
      split
      · rw [List.length_cons, List.length_cons, hlength]
      · exact hlength

end arms

/-! ## The rule for one outcome -/

/-- What the rules read of an outcome. -/
structure Report where
  kind : OutcomeKind
  completedAt : Timestamp
  logicalDeadline : Option Timestamp
  events : List WaitEvent
  coverageComplete : Option Bool
  arms : List CoverageArm

/-- The report of a poll cycle. -/
def PollCycleOutcome.report (outcome : PollCycleOutcome) : Report where
  kind := outcome.outcomeKind
  completedAt := outcome.completedAt
  logicalDeadline := some outcome.logicalDeadline
  events := outcome.events
  coverageComplete := some outcome.coverageComplete
  arms := outcome.arms

/-- The report of a first match; what it leaves out is empty. -/
def LiveWaitOutcome.report (outcome : LiveWaitOutcome) : Report where
  kind := outcome.outcomeKind
  completedAt := outcome.completedAt
  logicalDeadline := outcome.logicalDeadline
  events := outcome.events.getD []
  coverageComplete := outcome.coverageComplete
  arms := outcome.arms.getD []

/-- **A document shows a report.** -/
structure Shows (d : Json) (report : Report) : Prop where
  kind : d.strField "outcome_kind" = some (outcomeKindText report.kind)
  completed : d.strField "completed_at" = some report.completedAt.raw
  completedSpelled : report.completedAt.Spelled
  logical : d.strField "logical_deadline" = report.logicalDeadline.map Timestamp.raw
  logicalSpelled : ∀ t ∈ report.logicalDeadline, t.Spelled
  events : (SetRules.eventsOf d).mapM Decode.waitEvent = some report.events
  complete : (d.get "coverage_complete").bind Json.asBool = report.coverageComplete
  arms : (SetRules.armsOf d).mapM Decode.coverageArm = some report.arms

/-- The document of a poll cycle outcome shows its report. -/
theorem shows_pollCycleOutcome {d : Json} {outcome : PollCycleOutcome}
    (h : Decode.pollCycleOutcome d = some outcome) : Shows d outcome.report := by
  unfold Decode.pollCycleOutcome at h
  -- Eleven fields come before the instant of completion, eight after the arms.
  iterate 11 obtain ⟨_, -, h⟩ := Option.bind_eq_some_iff.mp h
  obtain ⟨completedAt, hcompleted, h⟩ := Option.bind_eq_some_iff.mp h
  obtain ⟨logicalDeadline, hlogical, h⟩ := Option.bind_eq_some_iff.mp h
  obtain ⟨kind, hkind, h⟩ := Option.bind_eq_some_iff.mp h
  obtain ⟨events, hevents, h⟩ := Option.bind_eq_some_iff.mp h
  obtain ⟨complete, hcomplete, h⟩ := Option.bind_eq_some_iff.mp h
  obtain ⟨arms, harms, h⟩ := Option.bind_eq_some_iff.mp h
  iterate 8 obtain ⟨_, -, h⟩ := Option.bind_eq_some_iff.mp h
  obtain rfl := Option.some.inj h
  obtain ⟨hcompleted, hcompletedSpelled⟩ := strField_of_timestamp hcompleted
  obtain ⟨hlogical, hlogicalSpelled⟩ := strField_of_timestamp hlogical
  exact {
    kind := strField_of_outcomeKind hkind
    completed := hcompleted
    completedSpelled := hcompletedSpelled
    logical := hlogical
    logicalSpelled := fun t ht => by
      obtain rfl := Option.mem_some_iff.mp ht
      exact hlogicalSpelled
    events := array_of_required hevents
    complete := (boolean_of_required hcomplete).2.2
    arms := array_of_required harms }

/-- The document of a first match outcome shows its report. -/
theorem shows_liveWaitOutcome {d : Json} {outcome : LiveWaitOutcome}
    (h : Decode.liveWaitOutcome d = some outcome) : Shows d outcome.report := by
  unfold Decode.liveWaitOutcome at h
  -- Eleven fields come before the instant of completion, one after the arms.
  iterate 11 obtain ⟨_, -, h⟩ := Option.bind_eq_some_iff.mp h
  obtain ⟨completedAt, hcompleted, h⟩ := Option.bind_eq_some_iff.mp h
  obtain ⟨kind, hkind, h⟩ := Option.bind_eq_some_iff.mp h
  obtain ⟨logicalDeadline, hlogical, h⟩ := Option.bind_eq_some_iff.mp h
  obtain ⟨events, hevents, h⟩ := Option.bind_eq_some_iff.mp h
  obtain ⟨_, -, h⟩ := Option.bind_eq_some_iff.mp h
  obtain ⟨complete, hcomplete, h⟩ := Option.bind_eq_some_iff.mp h
  obtain ⟨arms, harms, h⟩ := Option.bind_eq_some_iff.mp h
  obtain ⟨_, -, h⟩ := Option.bind_eq_some_iff.mp h
  obtain rfl := Option.some.inj h
  obtain ⟨hcompleted, hcompletedSpelled⟩ := strField_of_timestamp hcompleted
  obtain ⟨hlogical, hlogicalSpelled⟩ := strField_of_optionalTimestamp hlogical
  exact {
    kind := strField_of_outcomeKind hkind
    completed := hcompleted
    completedSpelled := hcompletedSpelled
    logical := hlogical
    logicalSpelled := hlogicalSpelled
    events := array_of_optional hevents
    complete := bool_of_optional hcomplete
    arms := array_of_optional harms }

namespace Report

/-- **A quiet outcome claims** that nothing happened on any arm: it reports a required arm, and
each of them passes. -/
structure Claims (report : Report) (passes : CoverageArm → Bool) : Prop where
  events : report.events = []
  complete : report.coverageComplete = some true
  someArm : ∃ arm ∈ report.arms, arm.required = true
  eachArm : ∀ arm ∈ report.arms, arm.required = true → passes arm = true

/-- **The rule for one outcome**: an outcome that is no quiet one is not asked anything. -/
structure Normative (report : Report) : Prop where
  clean : report.kind = .noChange ∨ report.kind = .logicalDeadman →
    ∀ arm ∈ report.arms, arm.required = true → arm.isDirty = false
  noChange : report.kind = .noChange → report.Claims CoverageArm.isNoChange ∧
    ∃ t, report.logicalDeadline = some t ∧ report.completedAt < t
  deadman : report.kind = .logicalDeadman → report.Claims (fun arm => !arm.isDirty) ∧
    ∃ t, report.logicalDeadline = some t ∧ t ≤ report.completedAt

end Report

section normative

variable {d : Json} {report : Report}

/-- The required arms of a document are those of its report. -/
theorem Shows.arms_all (h : Shows d report) {p : Json → Bool} {q : CoverageArm → Bool}
    (hpq : ∀ v arm, Decode.coverageArm v = some arm → p v = q arm) :
    ((Validate.requiredArmsOf d).all p = true ↔
        ∀ arm ∈ report.arms, arm.required = true → q arm = true) ∧
      ((Validate.requiredArmsOf d).any p = true ↔
        ∃ arm ∈ report.arms, arm.required = true ∧ q arm = true) := by
  have hneeded : ∀ v arm, Decode.coverageArm v = some arm →
      v.isTrueField "required" = arm.required := fun v arm harm => (reads_arm harm).1
  unfold Validate.requiredArmsOf
  rw [List.all_filter, List.any_filter,
    (all_of_mapM (q := fun arm => !arm.required || q arm) h.arms fun v arm harm => by
      rw [hneeded v arm harm, hpq v arm harm]).1,
    (all_of_mapM (q := fun arm => arm.required && q arm) h.arms fun v arm harm => by
      rw [hneeded v arm harm, hpq v arm harm]).2.1]
  constructor
  · rw [List.all_eq_true]
    refine forall_congr' fun arm => imp_congr_right fun _ => ?_
    cases arm.required <;> simp
  · rw [List.any_eq_true]
    simp only [Bool.and_eq_true]

/-- A document has no required arm where its report has none. -/
theorem Shows.arms_isEmpty (h : Shows d report) :
    (Validate.requiredArmsOf d).isEmpty = false ↔ ∃ arm ∈ report.arms, arm.required = true := by
  have hany := (h.arms_all (p := fun _ => true) (q := fun _ => true) fun _ _ _ => rfl).2
  simp only [and_true] at hany
  rw [← hany]
  cases Validate.requiredArmsOf d <;> simp

/-- A document has events where its report has some. -/
theorem Shows.events_isEmpty (h : Shows d report) :
    (SetRules.eventsOf d).isEmpty = true ↔ report.events = [] := by
  obtain ⟨pairs, hfst, hsnd, -⟩ := Serialize.pairs_of_mapM h.events
  rw [← hfst, ← hsnd]
  cases pairs <;> simp

/-- What a quiet kind is checked for. -/
theorem Shows.claims (h : Shows d report) {p : Json → Bool} {q : CoverageArm → Bool}
    (hpq : ∀ v arm, Decode.coverageArm v = some arm → p v = q arm) :
    (!((SetRules.eventsOf d).isEmpty) || (d.get "coverage_complete").bind Json.asBool != some true
        || !(!(Validate.requiredArmsOf d).isEmpty && (Validate.requiredArmsOf d).all p)) = false ↔
      report.Claims q := by
  rw [h.complete]
  simp only [Bool.or_eq_false_iff, Bool.not_eq_false', Bool.and_eq_true, Bool.not_eq_true',
    bne_eq_false_iff_eq]
  rw [h.events_isEmpty, h.arms_isEmpty, (h.arms_all hpq).1]
  constructor
  · rintro ⟨⟨hevents, hcomplete⟩, hsome, heach⟩
    exact ⟨hevents, hcomplete, hsome, heach⟩
  · rintro ⟨hevents, hcomplete, hsome, heach⟩
    exact ⟨⟨hevents, hcomplete⟩, hsome, heach⟩

/-- A report of another kind is asked nothing. -/
theorem Report.normative_of_other (hno : report.kind ≠ .noChange)
    (hdeadman : report.kind ≠ .logicalDeadman) : report.Normative where
  clean hquiet := absurd hquiet (not_or.mpr ⟨hno, hdeadman⟩)
  noChange hkind := absurd hkind hno
  deadman hkind := absurd hkind hdeadman

/-- The name of a kind is its own. -/
theorem outcomeKindText_beq (kind other : OutcomeKind) :
    (some (outcomeKindText kind) == some (outcomeKindText other)) = decide (kind = other) := by
  cases kind <;> cases other <;> decide

/-- **The rule for one outcome, on what its document shows.** -/
theorem accepts_outcomeNormative (h : Shows d report) :
    Accepts (Validate.outcomeNormative d) ↔ report.Normative := by
  have hcompleted : stringField d "/completed_at" "completed_at" = .ok report.completedAt.raw := by
    unfold stringField
    rw [h.completed]
  have hnoChange := h.claims fun v arm harm => (reads_arm harm).2.2.1
  have hcovered := h.claims fun v arm harm => (reads_arm harm).2.2.2
  unfold SetRules.eventsOf at hnoChange hcovered
  have hclean : (Validate.requiredArmsOf d).any Validate.isDirty = false ↔
      ∀ arm ∈ report.arms, arm.required = true → arm.isDirty = false := by
    rw [← Bool.not_eq_true, (h.arms_all fun v arm harm => (reads_arm harm).2.1).2]
    simp
  have hnoText : (some (outcomeKindText report.kind) == some "no_change")
      = decide (report.kind = .noChange) := outcomeKindText_beq report.kind .noChange
  have hdeadmanText : (some (outcomeKindText report.kind) == some "logical_deadman")
      = decide (report.kind = .logicalDeadman) := outcomeKindText_beq report.kind .logicalDeadman
  have hbind : ∀ {α γ : Type} (a : α) (f : α → Except Error γ), (Except.ok a >>= f) = f a :=
    fun _ _ => rfl
  have hpure : Accepts (pure () : Except Error Unit) := rfl
  -- the source compares texts: each is read as what the report has
  unfold Validate.outcomeNormative
  rw [hcompleted, h.kind, h.logical]
  simp only [hnoText, hdeadmanText, hbind]
  -- no_change and logical_deadman are the kinds the rule looks into; it accepts any other
  by_cases hno : report.kind = .noChange
  · have hdeadman : report.kind ≠ .logicalDeadman := by
      rw [hno]
      decide
    simp only [hno, decide_true, Bool.true_or, Bool.and_true, if_true, reduceCtorEq, decide_false,
      Bool.false_eq_true, if_false, SetRules.accepts_bind, accepts_reject, hclean]
    cases hlogical : report.logicalDeadline with
    | none =>
      constructor
      · rintro ⟨-, herror⟩
        exact absurd herror (by simp)
      · intro hnormative
        obtain ⟨-, t, ht, -⟩ := hnormative.noChange hno
        rw [hlogical] at ht
        cases ht
    | some t =>
      have htime := compareTimes_spelled h.completedSpelled (h.logicalSpelled t hlogical)
      simp only [Option.map_some, htime, hbind, SetRules.accepts_bind, accepts_reject, hpure,
        and_true]
      rw [Bool.or_eq_false_iff, hnoChange, decide_eq_false_iff_not, ge_iff_le, Int.not_le,
        Timestamp.compare_lt_zero_iff]
      constructor
      · rintro ⟨hall, hclaims, hlt⟩
        exact {
          clean := fun _ => hall
          noChange := fun _ => ⟨hclaims, t, hlogical, hlt⟩
          deadman := fun hkind => absurd hkind hdeadman }
      · intro hnormative
        obtain ⟨hclaims, u, hu, hlt⟩ := hnormative.noChange hno
        obtain rfl : t = u := Option.some.inj (hlogical.symm.trans hu)
        exact ⟨hnormative.clean (.inl hno), hclaims, hlt⟩
  · -- a deadman is held to the other side of the deadline
    by_cases hdeadman : report.kind = .logicalDeadman
    · simp only [hdeadman, decide_true, Bool.or_true, Bool.and_true, if_true, reduceCtorEq,
        decide_false, Bool.false_eq_true, if_false, SetRules.accepts_bind, accepts_reject, hclean]
      cases hlogical : report.logicalDeadline with
      | none =>
        constructor
        · rintro ⟨-, herror⟩
          exact absurd herror (by simp)
        · intro hnormative
          obtain ⟨-, t, ht, -⟩ := hnormative.deadman hdeadman
          rw [hlogical] at ht
          cases ht
      | some t =>
        have htime := compareTimes_spelled h.completedSpelled (h.logicalSpelled t hlogical)
        simp only [Option.map_some, htime, hbind, accepts_reject]
        rw [Bool.or_eq_false_iff, hcovered, decide_eq_false_iff_not,
          Timestamp.compare_lt_zero_iff, Timestamp.not_lt]
        constructor
        · rintro ⟨hall, hclaims, hle⟩
          exact {
            clean := fun _ => hall
            noChange := fun hkind => absurd hkind hno
            deadman := fun _ => ⟨hclaims, t, hlogical, hle⟩ }
        · intro hnormative
          obtain ⟨hclaims, u, hu, hle⟩ := hnormative.deadman hdeadman
          obtain rfl : t = u := Option.some.inj (hlogical.symm.trans hu)
          exact ⟨hnormative.clean (.inr hdeadman), hclaims, hle⟩
    · simp only [hno, hdeadman, decide_false, Bool.or_false, Bool.and_false, Bool.false_eq_true,
        if_false, SetRules.accepts_bind, accepts_reject, hpure, and_self, true_iff]
      exact Report.normative_of_other hno hdeadman

end normative

/-! ## The rule for a set, a request and an outcome -/

/-- The document a message was decoded from: it is tagged with the kind of the message. -/
def AgentWaitMessage.DecodedFrom (d : Json) : AgentWaitMessage → Prop
  | .registrationSet body =>
    d.strField "message_type" = some "registration_set" ∧ Decode.registrationSet d = some body
  | .liveWaitRequest body =>
    d.strField "message_type" = some "live_wait_request" ∧ Decode.liveWaitRequest d = some body
  | .liveWaitOutcome body =>
    d.strField "message_type" = some "live_wait_outcome" ∧ Decode.liveWaitOutcome d = some body
  | .pollCycleRequest body =>
    d.strField "message_type" = some "poll_cycle_request" ∧ Decode.pollCycleRequest d = some body
  | .pollCycleOutcome body =>
    d.strField "message_type" = some "poll_cycle_outcome" ∧ Decode.pollCycleOutcome d = some body
  | .pollCycleAck body =>
    d.strField "message_type" = some "poll_cycle_ack" ∧ Decode.pollCycleAck d = some body

theorem decodedFrom_of_message {d : Json} {message : AgentWaitMessage}
    (h : Decode.message d = some message) : message.DecodedFrom d := by
  unfold Decode.message at h
  split at h
  all_goals
    first
    | cases h
    | obtain ⟨body, hbody, rfl⟩ := Option.map_eq_some_iff.mp h
      exact ⟨by assumption, hbody⟩

theorem message_of_decodedFrom {d : Json} {message : AgentWaitMessage}
    (h : message.DecodedFrom d) : Decode.message d = some message := by
  unfold Decode.message
  cases message <;> (obtain ⟨htag, hbody⟩ := h; rw [htag]; exact Option.map_eq_some_iff.mpr ⟨_, hbody, rfl⟩)

section postured

variable {d setDoc reqDoc outDoc : Json} {set : RegistrationSet} {receipt : Option OpaqueRef}
  {report : Report}

/-- The receipt of a first match request. -/
theorem receipt_of_liveWaitRequest {request : LiveWaitRequest}
    (h : Decode.liveWaitRequest d = some request) :
    d.strField "verification_receipt_ref" = request.verificationReceiptRef := by
  unfold Decode.liveWaitRequest at h
  iterate 7 obtain ⟨_, -, h⟩ := Option.bind_eq_some_iff.mp h
  obtain ⟨receipt, hreceipt, h⟩ := Option.bind_eq_some_iff.mp h
  iterate 6 obtain ⟨_, -, h⟩ := Option.bind_eq_some_iff.mp h
  obtain rfl := Option.some.inj h
  exact strField_of_optional hreceipt

/-- The receipt of a poll cycle request. -/
theorem receipt_of_pollCycleRequest {request : PollCycleRequest}
    (h : Decode.pollCycleRequest d = some request) :
    d.strField "verification_receipt_ref" = request.verificationReceiptRef := by
  unfold Decode.pollCycleRequest at h
  iterate 7 obtain ⟨_, -, h⟩ := Option.bind_eq_some_iff.mp h
  obtain ⟨receipt, hreceipt, h⟩ := Option.bind_eq_some_iff.mp h
  iterate 12 obtain ⟨_, -, h⟩ := Option.bind_eq_some_iff.mp h
  obtain rfl := Option.some.inj h
  exact strField_of_optional hreceipt

/-- The limit on events that a document states. -/
theorem maxEvents_of_waitBound {bound : WaitBound} {name : String}
    (h : Decode.required Decode.waitBound d name = some bound) :
    (d.pointer name "max_events").bind Json.asU64 = some bound.maxEvents := by
  obtain ⟨value, hvalue, hbound⟩ := Option.bind_eq_some_iff.mp h
  unfold Decode.waitBound at hbound
  obtain ⟨maxEvents, hevents, hbound⟩ := Option.bind_eq_some_iff.mp hbound
  obtain ⟨_, -, hbound⟩ := Option.bind_eq_some_iff.mp hbound
  obtain rfl := Option.some.inj hbound
  unfold Json.pointer
  rw [hvalue]
  exact hevents

/-- **What the rule reads of a registration.** -/
structure ShowsRegistration (d : Json) (registration : Registration) : Prop where
  registrationId : d.strField "registration_id" = some registration.registrationId
  lease : d.strField "lease_expires_at" = some registration.leaseExpiresAt.raw
  leaseSpelled : registration.leaseExpiresAt.Spelled
  maxEvents : (d.pointer "bounds" "max_events").bind Json.asU64 = some registration.bounds.maxEvents

theorem shows_registration {registration : Registration}
    (h : Decode.registration d = some registration) : ShowsRegistration d registration := by
  unfold Decode.registration at h
  obtain ⟨registrationId, hid, h⟩ := Option.bind_eq_some_iff.mp h
  iterate 7 obtain ⟨_, -, h⟩ := Option.bind_eq_some_iff.mp h
  obtain ⟨lease, hlease, h⟩ := Option.bind_eq_some_iff.mp h
  obtain ⟨bounds, hbounds, h⟩ := Option.bind_eq_some_iff.mp h
  iterate 3 obtain ⟨_, -, h⟩ := Option.bind_eq_some_iff.mp h
  obtain rfl := Option.some.inj h
  obtain ⟨hlease, hspelled⟩ := strField_of_timestamp hlease
  exact ⟨strField_of_text hid, hlease, hspelled, maxEvents_of_waitBound hbounds⟩

/-- **What the rule reads of a set.** -/
structure ShowsSet (d : Json) (set : RegistrationSet) : Prop where
  authnMode : d.strField "authn_mode" = some (authnModeText set.authnMode)
  maxEvents : (d.pointer "aggregate_limits" "max_events").bind Json.asU64
    = some set.aggregateLimits.maxEvents
  registrations : (SetRules.registrationsOf d).mapM Decode.registration = some set.registrations

theorem shows_registrationSet (h : Decode.registrationSet d = some set) : ShowsSet d set := by
  unfold Decode.registrationSet at h
  iterate 14 obtain ⟨_, -, h⟩ := Option.bind_eq_some_iff.mp h
  obtain ⟨mode, hmode, h⟩ := Option.bind_eq_some_iff.mp h
  obtain ⟨limits, hlimits, h⟩ := Option.bind_eq_some_iff.mp h
  obtain ⟨_, -, h⟩ := Option.bind_eq_some_iff.mp h
  obtain ⟨registrations, hregistrations, h⟩ := Option.bind_eq_some_iff.mp h
  obtain rfl := Option.some.inj h
  exact ⟨strField_of_authnMode hmode, maxEvents_of_waitBound hlimits,
    array_of_required hregistrations⟩

/-- The registration an event is of. -/
theorem registrationId_of_waitEvent {event : WaitEvent} (h : Decode.waitEvent d = some event) :
    d.strField "registration_id" = some event.registrationId := by
  unfold Decode.waitEvent at h
  obtain ⟨_, -, h⟩ := Option.bind_eq_some_iff.mp h
  obtain ⟨registrationId, hid, h⟩ := Option.bind_eq_some_iff.mp h
  iterate 14 obtain ⟨_, -, h⟩ := Option.bind_eq_some_iff.mp h
  obtain rfl := Option.some.inj h
  exact strField_of_text hid

namespace Report

/-- An outcome that claims a regular end. -/
def IsClean (report : Report) : Prop :=
  report.kind = .events ∨ report.kind = .noChange ∨ report.kind = .logicalDeadman
    ∨ report.kind = .partialResult

/-- **The rule for a set, a request and an outcome.** -/
structure Postured (report : Report) (set : RegistrationSet) (receipt : Option OpaqueRef) :
    Prop where
  authn : set.authnMode = .required → receipt = none → ¬ report.IsClean
  lease : ∀ registration ∈ set.registrations, registration.leaseExpiresAt < report.completedAt →
    report.kind = .reauthenticationRequired
  registrationBounds : report.kind ≠ .partialResult → report.kind ≠ .coverageDegraded →
    ∀ registration ∈ set.registrations,
      (report.events.filter fun e => e.registrationId = registration.registrationId).length
        ≤ registration.bounds.maxEvents
  aggregateBound : report.kind ≠ .partialResult → report.kind ≠ .coverageDegraded →
    report.events.length ≤ set.aggregateLimits.maxEvents

end Report

/-- What a check asks of each registration, in the words of the set. -/
theorem ShowsSet.forall_registrations (h : ShowsSet d set) {p : Json → Prop}
    {q : Registration → Prop} (hpq : ∀ v registration, ShowsRegistration v registration →
      (p v ↔ q registration)) :
    (∀ v ∈ SetRules.registrationsOf d, p v) ↔ ∀ registration ∈ set.registrations, q registration := by
  obtain ⟨pairs, hfst, hsnd, hpairs⟩ := Serialize.pairs_of_mapM h.registrations
  rw [← hfst, ← hsnd, List.forall_mem_map, List.forall_mem_map]
  exact forall_congr' fun pair => imp_congr_right fun hpair =>
    hpq pair.1 pair.2 (shows_registration (hpairs pair hpair))

/-- The authentication check. -/
theorem accepts_authnCheck (hset : ShowsSet setDoc set)
    (hreq : reqDoc.strField "verification_receipt_ref" = receipt) (h : Shows outDoc report) :
    Accepts (SetRules.authnCheck [reqDoc] [outDoc] setDoc) ↔
      (set.authnMode = .required → receipt = none → ¬ report.IsClean) := by
  have hmode : (some (authnModeText set.authnMode) == some "required")
      = decide (set.authnMode = .required) := by
    cases set.authnMode <;> decide
  have hclean : SetRules.isClean outDoc = true ↔ report.IsClean := by
    unfold SetRules.isClean Report.IsClean
    rw [h.kind]
    cases report.kind <;> simp [outcomeKindText]
  unfold SetRules.authnCheck
  rw [accepts_reject, hset.authnMode, hmode, ← hclean]
  simp only [List.isEmpty_cons, Bool.false_or, List.any_cons, List.any_nil, Bool.or_false, hreq]
  rw [Bool.and_eq_false_iff, Bool.and_eq_false_iff, decide_eq_false_iff_not,
    Option.isNone_eq_false_iff, ← Bool.not_eq_true, ← Option.ne_none_iff_isSome]
  tauto

/-- The lease check. -/
theorem accepts_leaseChecks (hset : ShowsSet setDoc set) (h : Shows outDoc report) :
    (∀ v ∈ SetRules.registrationsOf setDoc,
        Accepts (SetRules.registrationLeaseCheck [outDoc] v)) ↔
      ∀ registration ∈ set.registrations, registration.leaseExpiresAt < report.completedAt →
        report.kind = .reauthenticationRequired := by
  refine hset.forall_registrations fun v registration hv => ?_
  have hcompleted : stringField outDoc "/completed_at" "completed_at"
      = .ok report.completedAt.raw := by
    unfold stringField
    rw [h.completed]
  have hkind : (some (outcomeKindText report.kind) != some "reauthentication_required")
      = !decide (report.kind = .reauthenticationRequired) :=
    congrArg not (outcomeKindText_beq report.kind .reauthenticationRequired)
  have hbind : ∀ {α γ : Type} (a : α) (f : α → Except Error γ), (Except.ok a >>= f) = f a :=
    fun _ _ => rfl
  unfold SetRules.registrationLeaseCheck SetRules.leaseCheck
  simp only [hv.lease, accepts_checkEach, List.forall_mem_singleton, hcompleted, hbind,
    compareTimes_spelled hv.leaseSpelled h.completedSpelled, accepts_reject, h.kind, hkind]
  rw [Bool.and_eq_false_iff, decide_eq_false_iff_not, Bool.not_eq_false', decide_eq_true_iff,
    Timestamp.compare_lt_zero_iff]
  tauto

/-- The bounds check. -/
theorem accepts_boundsCheck (hset : ShowsSet setDoc set) (h : Shows outDoc report) :
    Accepts (SetRules.boundsCheck setDoc outDoc) ↔
      (report.kind ≠ .partialResult → report.kind ≠ .coverageDegraded →
        (∀ registration ∈ set.registrations,
          (report.events.filter fun e => e.registrationId = registration.registrationId).length
            ≤ registration.bounds.maxEvents) ∧
        report.events.length ≤ set.aggregateLimits.maxEvents) := by
  have hpartial : (some (outcomeKindText report.kind) == some "partial")
      = decide (report.kind = .partialResult) := outcomeKindText_beq report.kind .partialResult
  have hdegraded : (some (outcomeKindText report.kind) == some "coverage_degraded")
      = decide (report.kind = .coverageDegraded) :=
    outcomeKindText_beq report.kind .coverageDegraded
  have hlength : (SetRules.eventsOf outDoc).length = report.events.length := by
    obtain ⟨pairs, hfst, hsnd, -⟩ := Serialize.pairs_of_mapM h.events
    rw [← hfst, ← hsnd, List.length_map, List.length_map]
  have heach : (∀ v ∈ SetRules.registrationsOf setDoc,
        Accepts (SetRules.registrationBoundCheck (SetRules.eventsOf outDoc) v)) ↔
      ∀ registration ∈ set.registrations,
        (report.events.filter fun e => e.registrationId = registration.registrationId).length
          ≤ registration.bounds.maxEvents := by
    refine hset.forall_registrations fun v registration hv => ?_
    have hcount := (all_of_mapM
      (p := fun e => e.strField "registration_id" == some registration.registrationId)
      (q := fun e => decide (e.registrationId = registration.registrationId)) h.events
      fun e event hevent => by
        rw [registrationId_of_waitEvent hevent, Bool.eq_iff_iff, beq_iff_eq, decide_eq_true_iff,
          Option.some_inj]).2.2
    unfold SetRules.registrationBoundCheck
    rw [hv.registrationId, hv.maxEvents, accepts_reject, decide_eq_false_iff_not, gt_iff_lt,
      not_lt]
    rw [Option.getD_some, Option.getD_some, hcount]
  unfold SetRules.boundsCheck
  dsimp only
  rw [h.kind, hpartial, hdegraded, hset.maxEvents]
  by_cases hexempt : report.kind = .partialResult ∨ report.kind = .coverageDegraded
  · have htrue : (decide (report.kind = .partialResult)
        || decide (report.kind = .coverageDegraded)) = true := by
      simpa using hexempt
    simp only [htrue, if_true, SetRules.accepts_ok, true_iff]
    tauto
  · have hfalse : (decide (report.kind = .partialResult)
        || decide (report.kind = .coverageDegraded)) = false := by
      simpa using hexempt
    simp only [hfalse, Bool.false_eq_true, if_false, SetRules.accepts_bind, accepts_checkEach,
      heach, accepts_reject, Option.getD_some, decide_eq_false_iff_not, gt_iff_lt, not_lt, hlength]
    tauto

/-- **The rule for a set, a request and an outcome, on what their documents show.** -/
theorem accepts_authnLeaseBounds (hset : Decode.message setDoc = some (.registrationSet set))
    (hreq : reqDoc.strField "message_type" = some "poll_cycle_request" ∨
      reqDoc.strField "message_type" = some "live_wait_request")
    (hreceipt : reqDoc.strField "verification_receipt_ref" = receipt)
    (hout : outDoc.strField "message_type" = some "poll_cycle_outcome" ∨
      outDoc.strField "message_type" = some "live_wait_outcome")
    (h : Shows outDoc report) :
    Accepts (SetRules.authnLeaseBounds [setDoc, reqDoc, outDoc]) ↔ report.Postured set receipt := by
  obtain ⟨htag, hset⟩ := decodedFrom_of_message hset
  have hset := shows_registrationSet hset
  have hsets : SetRules.ofType "registration_set" [setDoc, reqDoc, outDoc] = [setDoc] := by
    rcases hreq with hreq | hreq <;> rcases hout with hout | hout <;>
      simp [SetRules.ofType, SetRules.messageType, htag, hreq, hout]
  have houts : SetRules.outcomes [setDoc, reqDoc, outDoc] = [outDoc] := by
    rcases hreq with hreq | hreq <;> rcases hout with hout | hout <;>
      simp [SetRules.outcomes, SetRules.messageType, htag, hreq, hout]
  have hreqs : SetRules.requests [setDoc, reqDoc, outDoc] = [reqDoc] := by
    rcases hreq with hreq | hreq <;> rcases hout with hout | hout <;>
      simp [SetRules.requests, SetRules.messageType, htag, hreq, hout]
  unfold SetRules.authnLeaseBounds
  simp only [hsets, houts, hreqs, List.isEmpty_cons, Bool.or_false, Bool.false_eq_true, if_false,
    SetRules.accepts_bind, accepts_checkEach, List.forall_mem_singleton,
    accepts_authnCheck hset hreceipt h, accepts_leaseChecks hset h, accepts_boundsCheck hset h]
  constructor
  · rintro ⟨hauthn, hlease, hbounds⟩
    exact ⟨hauthn, hlease, fun h₁ h₂ => (hbounds h₁ h₂).1, fun h₁ h₂ => (hbounds h₁ h₂).2⟩
  · rintro ⟨hauthn, hlease, hregistrations, haggregate⟩
    exact ⟨hauthn, hlease, fun h₁ h₂ => ⟨hregistrations h₁ h₂, haggregate h₁ h₂⟩⟩

end postured

end Waitprims
