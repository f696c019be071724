import Mathlib
import Waitprims.Async.ArmAccounting
import Waitprims.Async.CycleBounds
import Waitprims.Core.OutcomeRules
import Waitprims.Testkit.Documents

/-! # The validator accepts what a poll cycle reports

A poll cycle decides its kind from the visits of its arms and imposes posture at the instant it
decides at; the validator derives from the finished document again what the kind asks for. The two
agree on every outcome but two sorts. A quiet cycle that reports no required arm, or misses an arm
the request requires, is refused, and so is a cancelled or failed one that ends after a lease.

* **`Covers`** — every registration is visited; a cycle that is complete covers its set.
* **`Quietly`** — what the visits behind a quiet kind are.
* **`outcome_normative_iff`** — when the rule for one outcome accepts the outcome of a run.
* **`outcome_postured_iff`** — when the rule for the set, the request and the outcome does. -/

namespace Waitprims

namespace PollCycle

open Fueled
open SetRules (Accepts)

variable {σ β φ ψ : Type} {env : Env σ β φ ψ} {set : RegistrationSet} {request : PollCycleRequest}
  {visits : Visits} {now : Timestamp} {resolved : List ResolvedStart} {outcome : PollCycleOutcome}

/-! ## A complete cycle has visited every registration -/

/-- Every registration has a visit. -/
def Covers (set : RegistrationSet) (visits : Visits) : Prop :=
  ∀ idx < set.registrations.length, idx ∈ visits

/-- Only registrations have visits. -/
def Within (set : RegistrationSet) (visits : Visits) : Prop :=
  ∀ idx ∈ visits, idx < set.registrations.length

/-- As many visits as registrations are one for each. -/
theorem Within.covers (h : Within set visits) (hsize : visits.size = set.registrations.length) :
    Covers set visits := by
  have hsub : visits.keys.toFinset ⊆ Finset.range set.registrations.length := by
    intro idx hidx
    rw [List.mem_toFinset, Std.ExtTreeMap.mem_keys] at hidx
    exact Finset.mem_range.mpr (h idx hidx)
  have hnodup : visits.keys.Nodup := by
    refine (Std.ExtTreeMap.distinct_keys (t := visits)).imp ?_
    intro a b hab heq
    exact hab (by simp [heq])
  have hcard : visits.keys.toFinset.card = (Finset.range set.registrations.length).card := by
    rw [List.toFinset_card_of_nodup hnodup, Std.ExtTreeMap.length_keys, hsize, Finset.card_range]
  have heq := Finset.eq_of_subset_of_card_le hsub hcard.ge
  intro idx hidx
  have hmem : idx ∈ visits.keys.toFinset := heq ▸ Finset.mem_range.mpr hidx
  rwa [List.mem_toFinset, Std.ExtTreeMap.mem_keys] at hmem

theorem within_invariant : VisitInvariant set request fun _ visits => Within set visits where
  fresh := by
    intro idx hidx
    simp at hidx
  visit := by
    intro budget budget' visits idx visit hidx _ _ h idx' hmem
    rw [Std.ExtTreeMap.mem_insert] at hmem
    rcases hmem with heq | hold
    · rwa [← Std.LawfulEqCmp.compare_eq_iff_eq.mp heq]
    · exact h idx' hold

/-- What a turn decides: it is complete only where every registration is visited. -/
def CompleteCovers (set : RegistrationSet) (r : Cycle β × Option Decision) (_ : World σ β) : Prop :=
  ∀ now starts, r.2 = some (.complete now starts) → Covers set r.1.visits

/-- A turn that decides nothing, or something else. -/
theorem completeCovers_of_ne {r : Cycle β × Option Decision} {w : World σ β}
    (h : ∀ now starts, r.2 ≠ some (.complete now starts)) : CompleteCovers set r w :=
  fun now starts heq => absurd heq (h now starts)

theorem recordAndCheck_covers (fuel : Nat) {cycle : Cycle β} (h : Within set cycle.visits)
    (ready : List (Nat × Observation)) (starts : List ResolvedStart) :
    ETriple AnyWorld (recordAndCheck env set request fuel cycle ready starts)
      (CompleteCovers set) AnyFailure := by
  unfold recordAndCheck
  have hready : ETriple AnyWorld
      (recordReady env set request cycle.bound fuel cycle.budget cycle.visits ready)
      (fun r _ => Within set r.2) AnyFailure :=
    recordReady_keeps within_invariant cycle.bound fuel h ready
  refine ETriple.bind hready ?_
  rintro ⟨budget, visits⟩
  refine ETriple.fact (fun _ h => h) fun hwithin => ?_
  dsimp only
  split
  · next hsize =>
    refine ETriple.bind (ETriple.lift Triple.vacuous) fun now => ?_
    exact ETriple.pure fun _ _ _ _ _ => Within.covers hwithin hsize
  · exact ETriple.pure fun _ _ => completeCovers_of_ne fun _ _ h => by cases h

theorem onBound_covers (fuel : Nat) {cycle : Cycle β} (h : Within set cycle.visits)
    (collected : FirstReadyOutput β) :
    ETriple AnyWorld (onBound env set request fuel cycle collected) (CompleteCovers set)
      AnyFailure := by
  unfold onBound
  cases collected.error with
  | some err => exact ETriple.pure fun _ _ => completeCovers_of_ne fun _ _ h => by cases h
  | none =>
    have hbound : Within set { cycle with
        bound := storeBinds cycle.bound collected.ready
        anyBound := cycle.anyBound || !collected.ready.isEmpty }.visits := h
    refine ETriple.bind (ETriple.lift Triple.vacuous) fun observations => ?_
    exact recordAndCheck_covers fuel hbound observations _

/-- No registration is pending and none is unbound: all are visited. -/
theorem covers_of_isEmpty {cycle : Cycle β}
    (hpending : ((fairnessOrder set request).filter fun idx =>
      (cycle.bound[idx]?.join).isSome && idx ∉ cycle.visits).isEmpty = true)
    (hunbound : ((fairnessOrder set request).filter fun idx =>
      (cycle.bound[idx]?.join).isNone && idx ∉ cycle.visits).isEmpty = true) :
    Covers set cycle.visits := by
  intro idx hidx
  by_contra hnew
  have horder : idx ∈ fairnessOrder set request := mem_fairnessOrder.mpr hidx
  rw [List.isEmpty_iff, List.filter_eq_nil_iff] at hpending hunbound
  have hbound := hpending idx horder
  have hnone := hunbound idx horder
  cases hslot : cycle.bound[idx]?.join with
  | none => simp [hslot, hnew] at hnone
  | some bind => simp [hslot, hnew] at hbound

theorem turnObserving_covers (fuel : Nat) {cycle : Cycle β} (h : Within set cycle.visits)
    (starts : List ResolvedStart) :
    ETriple AnyWorld (turnObserving env set request fuel cycle starts) (CompleteCovers set)
      AnyFailure := by
  unfold turnObserving
  dsimp only
  split
  · next hdone =>
    refine ETriple.bind (ETriple.lift Triple.vacuous) fun now => ?_
    refine ETriple.pure fun _ _ _ _ _ => ?_
    rw [Bool.and_eq_true, Bool.or_eq_true, beq_iff_eq] at hdone
    obtain ⟨hpending, hsize | hunbound⟩ := hdone
    · exact Within.covers h hsize
    · exact covers_of_isEmpty hpending hunbound
  · refine ETriple.bind (ETriple.lift Triple.vacuous) ?_
    rintro (⟨collected | collected⟩ | _ | _)
    · dsimp only
      unfold onObserved
      cases collected.error with
      | some err =>
        refine ETriple.bind ETriple.vacuous fun _ => ETriple.pure fun _ _ => ?_
        exact completeCovers_of_ne fun _ _ h => by cases h
      | none =>
        refine ETriple.bind (ETriple.lift Triple.vacuous) fun ready => ?_
        exact recordAndCheck_covers fuel h ready starts
    · exact onBound_covers fuel h collected
    · refine ETriple.bind (ETriple.lift Triple.vacuous) fun _ => ETriple.pure fun _ _ => ?_
      exact completeCovers_of_ne fun _ _ h => by cases h
    · refine ETriple.bind (ETriple.lift Triple.vacuous) fun now => ?_
      refine ETriple.bind (ETriple.lift Triple.vacuous) fun ready => ?_
      refine ETriple.bind ETriple.vacuous fun r => ETriple.pure fun _ _ => ?_
      exact completeCovers_of_ne fun _ _ h => by cases h

theorem turnBinding_covers (fuel : Nat) {cycle : Cycle β} (h : Within set cycle.visits) :
    ETriple AnyWorld (turnBinding env set request fuel cycle) (CompleteCovers set) AnyFailure := by
  unfold turnBinding
  refine ETriple.bind (ETriple.lift Triple.vacuous) ?_
  rintro (collected | _ | _)
  · exact onBound_covers fuel h collected
  all_goals
    refine ETriple.bind (ETriple.lift Triple.vacuous) fun now => ?_
    refine ETriple.bind (ETriple.lift Triple.vacuous) fun _ => ETriple.pure fun _ _ => ?_
    exact completeCovers_of_ne fun _ _ h => by cases h

/-- **One turn** is complete only over a covered set. -/
theorem turn_covers (fuel : Nat) {cycle : Cycle β} (h : Within set cycle.visits) :
    ETriple AnyWorld (turn env set request fuel cycle) (CompleteCovers set) AnyFailure := by
  unfold turn
  refine ETriple.bind (ETriple.lift Triple.vacuous) ?_
  rintro (_ | _)
  · refine ETriple.bind (ETriple.lift Triple.vacuous) fun resolved => ?_
    refine ETriple.bind (ETriple.lift Triple.vacuous) fun now => ?_
    split
    · refine ETriple.bind (ETriple.lift Triple.vacuous) fun _ => ETriple.pure fun _ _ => ?_
      exact completeCovers_of_ne fun _ _ h => by cases h
    · split
      · exact turnObserving_covers fuel h _
      · exact turnBinding_covers fuel h
  · refine ETriple.bind (ETriple.lift Triple.vacuous) fun now => ?_
    refine ETriple.bind (ETriple.lift Triple.vacuous) fun _ => ETriple.pure fun _ _ => ?_
    exact completeCovers_of_ne fun _ _ h => by cases h

/-- **The run of the loop**, by induction on its turns. -/
theorem cycleLoop_covers (fuel turns : Nat) {cycle : Cycle β} (h : Within set cycle.visits) :
    ETriple AnyWorld (cycleLoop env set request fuel turns cycle)
      (fun r _ => ∀ now starts, r.2 = .complete now starts → Covers set r.1.visits)
      AnyFailure := by
  induction turns generalizing cycle with
  | zero => exact ETriple.exhausted
  | succ turns ih =>
    unfold cycleLoop
    have hkept : ETriple AnyWorld (turn env set request fuel cycle)
        (fun r _ => Within set r.1.visits) AnyFailure :=
      turn_keeps within_invariant fuel h
    have hturn : ETriple AnyWorld (turn env set request fuel cycle)
        (fun r w => Within set r.1.visits ∧ CompleteCovers set r w) AnyFailure :=
      (hkept.and (turn_covers fuel h)).conseq (fun _ _ => ⟨trivial, trivial⟩) (fun _ _ h => h)
        fun _ _ _ => trivial
    refine ETriple.bind hturn ?_
    rintro ⟨cycle', _ | decision⟩
    · refine ETriple.fact (fun _ h => h.1) fun (hwithin : Within set cycle'.visits) => ?_
      exact (ih hwithin).strengthen fun _ _ => trivial
    · refine ETriple.pure fun _ hturn now starts heq => ?_
      exact hturn.2 now starts (congrArg some heq)

/-- The visits a run decides on. -/
theorem cycleLoop_decision_covers {fuel : Nat} {w w' : World σ β} {cycle : Cycle β}
    {decision : Decision}
    (hrun : (cycleLoop env set request fuel fuel (Cycle.new set request)).run w
      = some (.ok (cycle, decision), w')) :
    ∀ now starts, decision = .complete now starts → Covers set cycle.visits := by
  have hfresh : Within set (Cycle.new set request : Cycle β).visits := by
    intro idx hidx
    simp [Cycle.new] at hidx
  exact cycleLoop_covers fuel fuel hfresh w trivial (.ok (cycle, decision)) w' hrun

/-! ## What a quiet kind says about the visits -/

/-- A kind that reports that nothing happened. -/
def QuietKind (kind : OutcomeKind) : Prop := kind = .noChange ∨ kind = .logicalDeadman

/-- A tally that is decided quiet has counted nothing that happened. -/
theorem kind_quiet {t : Tally} {atLogical : Bool} (hquiet : QuietKind (t.kind atLogical).1) :
    (t.overflow = false ∧ t.dirty = false ∧ t.failed.isSome = false ∧ t.events = [] ∧
      t.truncated = false) ∧
      ((t.kind atLogical).1 = .noChange → atLogical = false ∧ t.deferredRequired = false) ∧
      ((t.kind atLogical).1 = .logicalDeadman → atLogical = true) := by
  obtain ⟨events, overflow, truncated, failed, dirty, deferredRequired⟩ := t
  unfold QuietKind Tally.kind at *
  cases overflow
  · cases dirty
    · cases failed with
      | some reason => cases events <;> simp at hquiet
      | none =>
        cases events with
        | cons event events => cases deferredRequired <;> cases truncated <;> simp at hquiet
        | nil =>
          cases truncated <;> cases deferredRequired <;> cases atLogical <;> simp at hquiet ⊢
    · simp at hquiet
  · cases events <;> simp at hquiet

/-- **The visit of a registration behind a quiet kind**: it found nothing, it is put off, which a
required one is only past the logical deadline, or an optional arm is in trouble. -/
def VisitQuiet (kind : OutcomeKind) (registration : Registration) (visit : ArmVisit) : Prop :=
  visit = .idle ∨ (visit = .deferred ∧ (kind = .noChange → registration.required = false)) ∨
    (visit.isDirty = true ∧ registration.required = false)

/-- **The visits behind a quiet kind.** -/
def Quietly (set : RegistrationSet) (visits : Visits) (kind : OutcomeKind) : Prop :=
  ∀ (idx : Nat) (registration : Registration), set.registrations[idx]? = some registration →
    ∃ visit, visits[idx]? = some visit ∧ VisitQuiet kind registration visit

/-- A flag that no visit raises. -/
theorem visit_of_any_false {p : Registration × Option ArmVisit → Bool}
    (h : ((visited set request visits).any p) = false) {idx : Nat} {registration : Registration}
    (hreg : set.registrations[idx]? = some registration) :
    p (registration, visits[idx]?) = false := by
  rw [List.any_eq_false] at h
  exact Bool.eq_false_iff.mpr (h _ (mem_visited.mpr ⟨idx, hreg, rfl⟩))

theorem quietly_of_tally (hcovers : Covers set visits) (hheld : ReportsHeld visits)
    {atLogical : Bool} (hquiet : QuietKind ((tally set request visits).kind atLogical).1) :
    Quietly set visits ((tally set request visits).kind atLogical).1 := by
  obtain ⟨⟨hoverflow, hdirty, hfailed, hevents, -⟩, hno, -⟩ := kind_quiet hquiet
  rw [tally_overflow] at hoverflow
  rw [tally_dirty] at hdirty
  rw [tally_failed] at hfailed
  rw [tally_events, List.flatMap_eq_nil_iff] at hevents
  intro idx registration hreg
  obtain ⟨hlt, -⟩ := List.getElem?_eq_some_iff.mp hreg
  obtain ⟨visit, hvisit⟩ := Option.isSome_iff_exists.mp
    (Std.ExtTreeMap.isSome_getElem?_iff_mem.mpr (hcovers idx hlt))
  refine ⟨visit, hvisit, ?_⟩
  have hoverflow := visit_of_any_false hoverflow hreg
  have hdirty := visit_of_any_false hdirty hreg
  have hfailed := visit_of_any_false hfailed hreg
  have hnone := hevents _ (mem_visited.mpr ⟨idx, hreg, rfl⟩)
  rw [hvisit] at hoverflow hdirty hfailed hnone
  -- a visit that reports events holds some, and the tally has none
  have hreports : visit.reports = false := by
    rw [← Bool.not_eq_true]
    exact fun hreports => hheld idx visit hvisit hreports hnone
  have hdeferred : ((tally set request visits).kind atLogical).1 = .noChange →
      visit = .deferred → registration.required = false := by
    intro hkind hvisit'
    have hput := (hno hkind).2
    rw [tally_deferredRequired] at hput
    have hput := visit_of_any_false hput hreg
    rw [hvisit, hvisit'] at hput
    simpa using hput
  unfold VisitQuiet
  cases visit with
  | events found => cases hreports
  | saturated found => cases hreports
  | idle => exact .inl rfl
  | overflow => cases hoverflow
  | failed reason => cases hfailed
  | deferred => exact .inr (.inl ⟨rfl, fun hkind => hdeferred hkind rfl⟩)
  | outage reason => exact .inr (.inr ⟨rfl, by simpa [ArmVisit.isDirty] using hdirty⟩)
  | cursorUncertain reason => exact .inr (.inr ⟨rfl, by simpa [ArmVisit.isDirty] using hdirty⟩)
  | degraded reason => exact .inr (.inr ⟨rfl, by simpa [ArmVisit.isDirty] using hdirty⟩)

/-! ## What a quiet outcome reports -/

/-- A quiet visit holds nothing. -/
theorem VisitQuiet.held {kind : OutcomeKind} {registration : Registration} {visit : ArmVisit}
    (h : VisitQuiet kind registration visit) : visit.held = [] := by
  rcases h with rfl | ⟨rfl, -⟩ | ⟨hdirty, -⟩
  · rfl
  · rfl
  · cases visit <;> first | rfl | cases hdirty

/-- The row of a registration whose visit is quiet. -/
theorem armRow_quiet {kind : OutcomeKind} {idx : Nat} {armId : IdToken} {registration : Registration}
    {row : ArmRow} {visit : ArmVisit} (hvisit : visits[idx]? = some visit)
    (hquiet : VisitQuiet kind registration visit)
    (h : armRow request resolved visits kind idx armId registration = some row) :
    row.events = [] ∧ (row.arm.required = true → row.arm.isDirty = false ∧
      (kind = .noChange → row.arm.isNoChange = true)) := by
  refine ⟨?_, fun hrequired => ?_⟩
  · rw [(armRow_retained h).1, hvisit, show heldEvents (some visit) = [] from hquiet.held, ite_self]
  · rw [(armRow_eq_some h).2.2.1] at hrequired
    unfold armRow at h
    split at h
    · cases h
    · obtain rfl := Option.some.inj h
      rw [hvisit]
      unfold CoverageArm.isDirty CoverageArm.isNoChange
      rcases hquiet with rfl | ⟨rfl, hput⟩ | ⟨-, hoptional⟩
      · exact ⟨rfl, fun _ => rfl⟩
      · refine ⟨rfl, fun hkind => ?_⟩
        rw [hput hkind] at hrequired
        cases hrequired
      · rw [hoptional] at hrequired
        cases hrequired

/-- **What a quiet outcome reports**: no event, and required arms that found nothing. -/
theorem build_quiet {kind : OutcomeKind} {reason : Option String} (hquiet : QuietKind kind)
    (hvisits : Quietly set visits kind)
    (h : build set request now resolved visits kind reason = .ok outcome) :
    outcome.events = [] ∧ ∀ arm ∈ outcome.arms, arm.required = true → arm.isDirty = false ∧
      (kind = .noChange → arm.isNoChange = true) := by
  have hrows : ∀ row ∈ armRows set request resolved visits kind, row.events = [] ∧
      (row.arm.required = true → row.arm.isDirty = false ∧
        (kind = .noChange → row.arm.isNoChange = true)) := by
    intro row hrow
    obtain ⟨idx, armId, registration, -, hreg, hrow⟩ := mem_armRows.mp hrow
    obtain ⟨visit, hvisit, hquiet⟩ := hvisits idx registration hreg
    exact armRow_quiet hvisit hquiet hrow
  have hrejects : kind.rejects = false := by
    rcases hquiet with rfl | rfl <;> rfl
  unfold build at h
  dsimp only at h
  split at h
  · cases h
  · obtain rfl := Except.ok.inj h
    dsimp only
    rw [hrejects, if_neg Bool.false_ne_true, if_neg Bool.false_ne_true]
    refine ⟨?_, fun arm harm => ?_⟩
    · rw [List.flatMap_eq_nil_iff]
      exact fun row hrow => (hrows row hrow).1
    · obtain ⟨row, hrow, rfl⟩ := List.mem_map.mp harm
      exact (hrows row hrow).2

/-- What is built is of the kind, the instant and the deadline it is built for. -/
theorem build_fields {kind : OutcomeKind} {reason : Option String}
    (h : build set request now resolved visits kind reason = .ok outcome) :
    outcome.outcomeKind = kind ∧ outcome.completedAt = now ∧
      outcome.logicalDeadline = request.logicalDeadline := by
  unfold build at h
  dsimp only at h
  split at h
  · cases h
  · obtain rfl := Except.ok.inj h
    exact ⟨rfl, rfl, rfl⟩

/-- **What posture leaves**: a rejection as it is, else a rejection for a lease that has expired or
for missing authentication, else what was built. -/
theorem applyPosture_cases (set : RegistrationSet) (request : PollCycleRequest)
    (built : PollCycleOutcome) :
    (built.outcomeKind.rejects = true ∧ applyPosture set request built = built) ∨
    (leaseExpired set built.completedAt = true ∧
      (applyPosture set request built).outcomeKind = .reauthenticationRequired) ∨
    (leaseExpired set built.completedAt = false ∧
      (applyPosture set request built).outcomeKind = .refused) ∨
    (built.outcomeKind.rejects = false ∧ leaseExpired set built.completedAt = false ∧
      authnMissing set request.verificationReceiptRef = false ∧
      applyPosture set request built = built) := by
  unfold applyPosture
  by_cases hrejects : built.outcomeKind.rejects = true
  · exact .inl ⟨hrejects, if_pos hrejects⟩
  · rw [if_neg hrejects]
    by_cases hlease : leaseExpired set built.completedAt = true
    · rw [if_pos hlease]
      exact .inr (.inl ⟨hlease, rfl⟩)
    · rw [if_neg hlease]
      by_cases hauthn : authnMissing set request.verificationReceiptRef = true
      · rw [if_pos hauthn]
        exact .inr (.inr (.inl ⟨Bool.eq_false_iff.mpr hlease, rfl⟩))
      · rw [if_neg hauthn]
        exact .inr (.inr (.inr ⟨Bool.eq_false_iff.mpr hrejects, Bool.eq_false_iff.mpr hlease,
          Bool.eq_false_iff.mpr hauthn, rfl⟩))

/-- Posture turns nothing into a quiet outcome. -/
theorem applyPosture_quietKind {built : PollCycleOutcome}
    (hquiet : QuietKind (applyPosture set request built).outcomeKind) :
    applyPosture set request built = built := by
  rcases applyPosture_cases set request built with ⟨-, h⟩ | ⟨-, h⟩ | ⟨-, h⟩ | ⟨-, -, -, h⟩
  · exact h
  · rw [h] at hquiet
    rcases hquiet with h | h <;> cases h
  · rw [h] at hquiet
    rcases hquiet with h | h <;> cases h
  · exact h

/-- **What a decision is built of**: the visits as they stand, or those a deadline has filled in, for
a kind that is no rejection by posture. -/
theorem decision_built {decision : Decision}
    (h : decision.outcome set request visits = .ok outcome) :
    ∃ now starts built,
      applyPosture set request built = outcome ∧
      ((∃ kind reason, (kind = .cancelled ∨ kind = .failed) ∧
          build set request now starts visits kind reason = .ok built) ∨
        ∃ visits', (decision = .complete now starts ∧ visits' = visits ∨
            visits' = deadlineVisits set request visits) ∧
          build set request now starts visits'
            ((tally set request visits').kind (decide (now ≥ request.logicalDeadline))).1
            ((tally set request visits').kind (decide (now ≥ request.logicalDeadline))).2
              = .ok built) := by
  have hforced : ∀ {now starts reason},
      finish set request now starts visits (some reason) = .ok outcome →
      ∃ built, applyPosture set request built = outcome ∧
        ∃ kind reason, (kind = .cancelled ∨ kind = .failed) ∧
          build set request now starts visits kind reason = .ok built := by
    intro now starts reason h
    unfold finish at h
    dsimp only at h
    cases hbuild : build set request now starts visits
        (if reason == "consumer_cancelled" then .cancelled else .failed) (some reason) with
    | error err =>
      rw [hbuild] at h
      cases h
    | ok built =>
      rw [hbuild] at h
      refine ⟨built, Except.ok.inj h, _, _, ?_, hbuild⟩
      split
      · exact .inl rfl
      · exact .inr rfl
  cases decision with
  | cancelled now starts =>
    obtain ⟨built, hbuilt, hforced⟩ := hforced h
    exact ⟨now, starts, built, hbuilt, .inl hforced⟩
  | complete now starts =>
    obtain ⟨built, hbuild, hbuilt⟩ := assemble_eq_ok h
    exact ⟨now, starts, built, hbuilt, .inr ⟨visits, .inl ⟨rfl, rfl⟩, hbuild⟩⟩
  | deadline now starts =>
    have h : decideAtDeadline set request now starts visits = .ok outcome := h
    unfold decideAtDeadline at h
    split at h
    · obtain ⟨built, hbuilt, hforced⟩ := hforced h
      exact ⟨now, starts, built, hbuilt, .inl hforced⟩
    · obtain ⟨built, hbuild, hbuilt⟩ := assemble_eq_ok h
      exact ⟨now, starts, built, hbuilt, .inr ⟨_, .inr rfl, hbuild⟩⟩
  | fault err => cases h

/-- A deadline leaves no registration without a visit. -/
theorem covers_deadlineVisits : Covers set (deadlineVisits set request visits) := by
  intro idx hidx
  rw [← Std.ExtTreeMap.isSome_getElem?_iff_mem, deadlineVisits_lookup, if_pos hidx]
  cases visits[idx]? <;> rfl

/-- **A quiet decision** is built from quiet visits, on its side of the logical deadline. -/
theorem decision_quietKind {decision : Decision}
    (hcovers : ∀ now starts, decision = .complete now starts → Covers set visits)
    (hheld : ReportsHeld visits) (h : decision.outcome set request visits = .ok outcome)
    (hquiet : QuietKind outcome.outcomeKind) :
    (outcome.events = [] ∧ ∀ arm ∈ outcome.arms, arm.required = true → arm.isDirty = false ∧
      (outcome.outcomeKind = .noChange → arm.isNoChange = true)) ∧
      (outcome.outcomeKind = .noChange → outcome.completedAt < outcome.logicalDeadline) ∧
      (outcome.outcomeKind = .logicalDeadman →
        outcome.logicalDeadline ≤ outcome.completedAt) := by
  obtain ⟨now, starts, built, hbuilt, hfrom⟩ := decision_built h
  rw [← hbuilt] at hquiet
  have hsame := applyPosture_quietKind hquiet
  rw [hsame] at hbuilt hquiet
  subst hbuilt
  rcases hfrom with ⟨kind, reason, hkind, hbuild⟩ | ⟨visits', hvisits', hbuild⟩
  · obtain ⟨hfield, -⟩ := build_fields hbuild
    rw [hfield] at hquiet
    rcases hkind with rfl | rfl <;> rcases hquiet with h | h <;> cases h
  · obtain ⟨hfield, hcompleted, hlogical⟩ := build_fields hbuild
    rw [hfield] at hquiet
    have hall : Covers set visits' ∧ ReportsHeld visits' := by
      rcases hvisits' with ⟨hdecision, rfl⟩ | rfl
      · exact ⟨hcovers now starts hdecision, hheld⟩
      · exact ⟨covers_deadlineVisits, hheld.deadlineVisits⟩
    obtain ⟨-, hno, hdeadman⟩ := kind_quiet hquiet
    rw [hfield, hcompleted, hlogical]
    refine ⟨build_quiet hquiet (quietly_of_tally hall.1 hall.2 hquiet) hbuild, fun hkind => ?_,
      fun hkind => ?_⟩
    · have hearly := (hno hkind).1
      rwa [decide_eq_false_iff_not, ge_iff_le, Timestamp.not_le] at hearly
    · have hlate := hdeadman hkind
      rwa [decide_eq_true_iff] at hlate

/-! ## The rule for one outcome -/

/-- **When the rule for one outcome accepts what a cycle reports**: unless it is quiet and reports no
required arm, or not every arm the request requires. -/
theorem outcome_normative_iff {fuel : Nat} {w w' : World σ β}
    (hrun : (runPollCycle env set request fuel).run w = some (.ok outcome, w')) {document : Json}
    (hdocument : Decode.message document = some (.pollCycleOutcome outcome)) :
    Accepts (Validate.outcomeNormative document) ↔
      (outcome.outcomeKind = .noChange ∨ outcome.outcomeKind = .logicalDeadman →
        (∃ arm ∈ outcome.arms, arm.required = true) ∧ outcome.coverageComplete = true) := by
  obtain ⟨cycle, decision, w₁, hloop, houtcome⟩ := runPollCycle_decision hrun
  have hheld : ReportsHeld cycle.visits := cycleLoop_visits reportsHeld_invariant hloop
  have hcovers : ∀ now starts, decision = .complete now starts → Covers set cycle.visits :=
    cycleLoop_decision_covers hloop
  rw [accepts_outcomeNormative (shows_pollCycleOutcome (decodedFrom_of_message hdocument).2)]
  constructor
  · rintro hnormative (hkind | hkind)
    · obtain ⟨hclaims, -⟩ := hnormative.noChange hkind
      exact ⟨hclaims.someArm, Option.some.inj hclaims.complete⟩
    · obtain ⟨hclaims, -⟩ := hnormative.deadman hkind
      exact ⟨hclaims.someArm, Option.some.inj hclaims.complete⟩
  · intro hcondition
    by_cases hquiet : QuietKind outcome.outcomeKind
    · obtain ⟨⟨hevents, harms⟩, hno, hdeadman⟩ := decision_quietKind hcovers hheld houtcome hquiet
      obtain ⟨hsome, hcomplete⟩ := hcondition hquiet
      exact {
        clean := fun _ arm harm hrequired => (harms arm harm hrequired).1
        noChange := fun hkind => ⟨⟨hevents, congrArg some hcomplete, hsome,
          fun arm harm hrequired => (harms arm harm hrequired).2 hkind⟩, _, rfl, hno hkind⟩
        deadman := fun hkind => ⟨⟨hevents, congrArg some hcomplete, hsome,
          fun arm harm hrequired => by rw [(harms arm harm hrequired).1]; rfl⟩, _, rfl,
          hdeadman hkind⟩ }
    · exact Report.normative_of_other (fun h => hquiet (.inl h)) fun h => hquiet (.inr h)

/-! ## The rule for the set, the request and the outcome -/

/-- A tally is never decided to be a rejection by posture. -/
theorem kind_not_posture (t : Tally) (atLogical : Bool) :
    (t.kind atLogical).1 ≠ .refused ∧ (t.kind atLogical).1 ≠ .reauthenticationRequired := by
  unfold Tally.kind
  repeat' split
  all_goals exact ⟨by simp, by simp⟩

/-- Posture does not move the instant of completion. -/
theorem applyPosture_completedAt (built : PollCycleOutcome) :
    (applyPosture set request built).completedAt = built.completedAt := by
  unfold applyPosture
  split
  · rfl
  · split
    · rfl
    · split <;> rfl

/-- A lease has expired where one of the leases lies before the instant. -/
theorem leaseExpired_iff : leaseExpired set now = true ↔
    ∃ registration ∈ set.registrations, registration.leaseExpiresAt < now := by
  unfold leaseExpired
  rw [List.any_eq_true]
  simp only [decide_eq_true_iff, gt_iff_lt]

/-- **The posture of a decided outcome**: it ends before every lease or asks for authentication,
unless it was cancelled or failed, and it claims no regular end without authentication. -/
theorem decision_posture {decision : Decision}
    (h : decision.outcome set request visits = .ok outcome) :
    (leaseExpired set outcome.completedAt = true →
      outcome.outcomeKind = .reauthenticationRequired ∨ outcome.outcomeKind = .cancelled ∨
        outcome.outcomeKind = .failed) ∧
      (outcome.report.IsClean → authnMissing set request.verificationReceiptRef = false) := by
  obtain ⟨now, starts, built, rfl, hfrom⟩ := decision_built h
  have hbuilt : built.outcomeKind ≠ .refused ∧ built.outcomeKind ≠ .reauthenticationRequired := by
    rcases hfrom with ⟨kind, reason, hkind, hbuild⟩ | ⟨visits', -, hbuild⟩
    · rw [(build_fields hbuild).1]
      rcases hkind with rfl | rfl <;> exact ⟨by simp, by simp⟩
    · rw [(build_fields hbuild).1]
      exact kind_not_posture _ _
  rw [applyPosture_completedAt]
  rcases applyPosture_cases set request built with
    ⟨hrejects, hsame⟩ | ⟨-, hkind⟩ | ⟨hlease, hkind⟩ | ⟨-, hlease, hauthn, -⟩
  · rw [hsame]
    obtain ⟨hrefused, hreauthentication⟩ := hbuilt
    have hkind : built.outcomeKind = .cancelled ∨ built.outcomeKind = .failed := by
      cases hkind : built.outcomeKind <;> simp_all [OutcomeKind.rejects]
    refine ⟨fun _ => .inr hkind, fun hclean => ?_⟩
    unfold Report.IsClean PollCycleOutcome.report at hclean
    rcases hkind with hkind | hkind <;> simp [hkind] at hclean
  · refine ⟨fun _ => .inl hkind, fun hclean => ?_⟩
    unfold Report.IsClean PollCycleOutcome.report at hclean
    simp [hkind] at hclean
  · refine ⟨fun hexpired => ?_, fun hclean => ?_⟩
    · rw [hlease] at hexpired
      cases hexpired
    · unfold Report.IsClean PollCycleOutcome.report at hclean
      simp [hkind] at hclean
  · refine ⟨fun hexpired => ?_, fun _ => hauthn⟩
    rw [hlease] at hexpired
    cases hexpired

/-- What a run hands over is within the bounds of a set that was read from a document. -/
theorem run_within {setDocument : Json} (hread : setDocument.Parsed)
    (hset : Decode.message setDocument = some (.registrationSet set))
    (hids : (set.registrations.map Registration.registrationId).Nodup) {fuel : Nat}
    {w w' : World σ β} (hrun : (runPollCycle env set request fuel).run w = some (.ok outcome, w')) :
    WithinBounds set request outcome.events := by
  obtain ⟨value, hvalue, hlimits⟩ := Option.bind_eq_some_iff.mp (aggregateLimits_of_decode hset)
  obtain ⟨hevents, hbytes⟩ := waitBound_lt (Json.parsed_of_get hread hvalue) hlimits
  obtain ⟨cycle, decision, w₁, hloop, houtcome⟩ := runPollCycle_decision hrun
  have hheld : TakesHeld set request cycle.budget cycle.visits :=
    cycleLoop_visits takesHeld_invariant hloop
  obtain ⟨taken, htaken, hperm⟩ := hheld
  have hsub : outcome.events.Subperm taken :=
    (decision_events_sublist houtcome).subperm.trans hperm.symm.subperm
  exact within_of_sound hids (sound_of_takeAll hevents hbytes htaken) hsub

/-- The rule for the set, the request and the outcome, on what a cycle reports. -/
theorem cycle_accepts_iff (hids : (set.registrations.map Registration.registrationId).Nodup)
    {setDocument requestDocument document : Json} (hread : setDocument.Parsed)
    (hset : Decode.message setDocument = some (.registrationSet set))
    (hrequest : Decode.message requestDocument = some (.pollCycleRequest request))
    (hdocument : Decode.message document = some (.pollCycleOutcome outcome)) {fuel : Nat}
    {w w' : World σ β} (hrun : (runPollCycle env set request fuel).run w = some (.ok outcome, w')) :
    Accepts (SetRules.authnLeaseBounds [setDocument, requestDocument, document]) ↔
      ((∃ registration ∈ set.registrations, registration.leaseExpiresAt < outcome.completedAt) →
        outcome.outcomeKind ≠ .cancelled ∧ outcome.outcomeKind ≠ .failed) := by
  obtain ⟨htag, hdecoded⟩ := decodedFrom_of_message hrequest
  obtain ⟨houtTag, houtDecoded⟩ := decodedFrom_of_message hdocument
  rw [accepts_authnLeaseBounds hset (.inl htag) (receipt_of_pollCycleRequest hdecoded)
    (.inl houtTag) (shows_pollCycleOutcome houtDecoded)]
  obtain ⟨cycle, decision, w₁, hloop, houtcome⟩ := runPollCycle_decision hrun
  obtain ⟨hlease, hauthn⟩ := decision_posture houtcome
  have hwithin := run_within hread hset hids hrun
  constructor
  · rintro hpostured ⟨registration, hreg, hlt⟩
    have hkind : outcome.outcomeKind = .reauthenticationRequired :=
      hpostured.lease registration hreg hlt
    rw [hkind]
    exact ⟨by simp, by simp⟩
  · intro hcondition
    exact {
      authn := fun hmode hreceipt hclean => by
        have hgiven := hauthn hclean
        unfold authnMissing at hgiven
        rw [hmode, hreceipt] at hgiven
        cases hgiven
      lease := fun registration hreg hlt => by
        obtain ⟨hcancelled, hfailed⟩ := hcondition ⟨registration, hreg, hlt⟩
        rcases hlease (leaseExpired_iff.mpr ⟨registration, hreg, hlt⟩) with hkind | hkind | hkind
        · exact hkind
        · exact absurd hkind hcancelled
        · exact absurd hkind hfailed
      registrationBounds := fun _ _ registration hreg => hwithin.registrationEvents registration hreg
      aggregateBound := fun _ _ => hwithin.aggregateEvents }

section documents

open Case Documents

/-- The set of a cycle over one registration. -/
def quietSetDocument : Json := registrationSet "msg:aw-reg-1" "waiter:a" "regrev-1"

/-- The request of that cycle. -/
def quietRequestDocument : Json := Documents.request "msg:aw-poll-req-1" "waiter:a" ["arm:a"]

/-- What the cycle reports when nothing has happened. -/
def quietDocument : Json :=
  object (envelope "poll_cycle_outcome" "msg:aw-poll-req-1:outcome" "2026-08-15T16:02:00Z"
      "waiter:a" ++ [
    ("causation_id", .str "msg:aw-poll-req-1"),
    ("request_ref", .str "msg:aw-poll-req-1"),
    ("completed_at", .str "2026-08-15T16:02:00Z"),
    ("logical_deadline", .str "2026-08-15T17:00:00Z"),
    ("outcome_kind", .str "no_change"),
    ("events", .arr []),
    ("coverage_complete", .bool true),
    ("arms", .arr [object [
      ("arm_id", .str "arm:a"),
      ("registration_id", .str "reg:a"),
      ("required", .bool true),
      ("status", .str "no_change"),
      ("degraded", .bool false),
      ("start_anchor", Documents.anchor "anc:h-reg:a"),
      ("proposed_next_anchor", Documents.anchor "anc:h-reg:a"),
      ("event_count", .num (.int 0)),
      ("byte_count", .num (.int 0))]]),
    ("retained_through", anchors [("reg:a", "anc:h-reg:a")]),
    ("retained_events", eventLists [("reg:a", [])]),
    ("proposed_next_anchors", anchors [("reg:a", "anc:h-reg:a")]),
    ("fairness_cursor", .str "fair:start"),
    ("next_fairness_cursor", .str "fair:arm:a")])

/-- The messages these documents are read as. -/
def quietSet : RegistrationSet :=
  (Decode.registrationSet quietSetDocument).get (by decide +kernel)

def quietRequest : PollCycleRequest :=
  (Decode.pollCycleRequest quietRequestDocument).get (by decide +kernel)

def quietOutcome : PollCycleOutcome :=
  (Decode.pollCycleOutcome quietDocument).get (by decide +kernel)

theorem quietDocuments :
    Decode.message quietSetDocument = some (.registrationSet quietSet) ∧
      Decode.message quietRequestDocument = some (.pollCycleRequest quietRequest) ∧
      Decode.message quietDocument = some (.pollCycleOutcome quietOutcome) := by
  refine ⟨message_of_decodedFrom ⟨?_, ?_⟩, message_of_decodedFrom ⟨?_, ?_⟩,
    message_of_decodedFrom ⟨?_, ?_⟩⟩
  · decide +kernel
  · exact (Option.some_get _).symm
  · decide +kernel
  · exact (Option.some_get _).symm
  · decide +kernel
  · exact (Option.some_get _).symm

/-- A run that returns a known outcome. -/
theorem exists_run_of_returned {ω : Type} [DecidableEq ω]
    {r : Option (Except Error ω × World QueueHost ResolvedStart)} {out : ω}
    (h : (returned r).any (fun o => decide (o = out)) = true) :
    ∃ w', r = some (.ok out, w') := by
  obtain ⟨o, w', hrun, hsame⟩ := exists_of_returned h
  exact ⟨w', by rw [hrun, of_decide_eq_true hsame]⟩

/-- The cycle reports just that. -/
theorem quiet_run : ∃ w', (runPollCycle queueEnv quietSet quietRequest 10).run
    (QueueHost.world [] (ts "2026-08-15T16:02:00Z") []) = some (.ok quietOutcome, w') :=
  exists_run_of_returned (by decide +kernel)

theorem outcome_normative_iff_quiet :
    Accepts (Validate.outcomeNormative quietDocument) ∧ quietOutcome.outcomeKind = .noChange := by
  obtain ⟨w', hrun⟩ := quiet_run
  refine ⟨(outcome_normative_iff hrun quietDocuments.2.2).mpr fun _ => ⟨?_, ?_⟩, ?_⟩
  · decide +kernel
  · decide +kernel
  · decide +kernel

/-! ## A cycle over two registrations -/

/-- The SHA-256 of the two registrations in canonical form. -/
def pairDigest : String :=
  "26c98f74b9e1a9b40372d381d88b613b714747cd0f2d7402908cc32739b0b1b6"

/-- The set of a cycle over two registrations. -/
def pairSetDocument : Json :=
  object (envelope "registration_set" "msg:aw-reg-1" "2026-08-15T15:59:00Z" "waiter:a" ++ [
    ("principal_ref", .str "seat:consumer-a"),
    ("seat_ref", .str "seat:consumer-a"),
    ("registration_revision", .str "regrev-1"),
    ("logical_deadline", .str "2026-08-15T17:00:00Z"),
    ("authn_mode", .str "disabled"),
    ("aggregate_limits", object [("max_events", .num (.int 8)), ("max_bytes", .num (.int 8192))]),
    ("registration_digest", object [
      ("canonicalization", .str "rfc8785"),
      ("algorithm", .str "sha256"),
      ("value", .str pairDigest)]),
    ("registrations", .arr [registration "reg:a", registration "reg:b"])])

/-- The request of that cycle. -/
def pairRequestDocument : Json :=
  Documents.request "msg:aw-poll-req-1" "waiter:a" ["arm:a", "arm:b"]

/-- The arm of a registration with one event. -/
def busyArm (armId registrationId : String) : Json := object [
  ("arm_id", .str armId),
  ("registration_id", .str registrationId),
  ("required", .bool true),
  ("status", .str "events"),
  ("degraded", .bool false),
  ("start_anchor", Documents.anchor ("anc:h-" ++ registrationId)),
  ("proposed_next_anchor", Documents.anchor "anc:after-1"),
  ("event_count", .num (.int 1)),
  ("byte_count", .num (.int 77))]

/-- What that cycle reports with one event of each registration. -/
def busyDocument : Json :=
  object (envelope "poll_cycle_outcome" "msg:aw-poll-req-1:outcome" "2026-08-15T16:02:00Z"
      "waiter:a" ++ [
    ("causation_id", .str "msg:aw-poll-req-1"),
    ("request_ref", .str "msg:aw-poll-req-1"),
    ("completed_at", .str "2026-08-15T16:02:00Z"),
    ("logical_deadline", .str "2026-08-15T17:00:00Z"),
    ("outcome_kind", .str "events"),
    ("events", .arr [event "reg:a" "evt:1", event "reg:b" "evt:2"]),
    ("coverage_complete", .bool true),
    ("arms", .arr [busyArm "arm:a" "reg:a", busyArm "arm:b" "reg:b"]),
    ("retained_through", anchors [("reg:a", "anc:after-1"), ("reg:b", "anc:after-1")]),
    ("retained_events", eventLists [("reg:a", ["evt:1"]), ("reg:b", ["evt:2"])]),
    ("proposed_next_anchors", anchors [("reg:a", "anc:after-1"), ("reg:b", "anc:after-1")]),
    ("fairness_cursor", .str "fair:start"),
    ("next_fairness_cursor", .str "fair:arm:b")])

/-- The messages these documents are read as. -/
def busySet : RegistrationSet :=
  (Decode.registrationSet pairSetDocument).get (by decide +kernel)

def busyRequest : PollCycleRequest :=
  (Decode.pollCycleRequest pairRequestDocument).get (by decide +kernel)

def busyOutcome : PollCycleOutcome :=
  (Decode.pollCycleOutcome busyDocument).get (by decide +kernel)

/-- One event of each registration. -/
def busyWaiting : List (IdToken × Observation) := [
  ("reg:a", .event (waitEvent "reg:a" "method:a" "evt:1" "2026-08-15T16:01:00Z")),
  ("reg:b", .event (waitEvent "reg:b" "method:a" "evt:2" "2026-08-15T16:01:00Z"))]

theorem busyDocuments :
    Decode.message pairSetDocument = some (.registrationSet busySet) ∧
      Decode.message pairRequestDocument = some (.pollCycleRequest busyRequest) ∧
      Decode.message busyDocument = some (.pollCycleOutcome busyOutcome) := by
  refine ⟨message_of_decodedFrom ⟨?_, ?_⟩, message_of_decodedFrom ⟨?_, ?_⟩,
    message_of_decodedFrom ⟨?_, ?_⟩⟩
  · decide +kernel
  · exact (Option.some_get _).symm
  · decide +kernel
  · exact (Option.some_get _).symm
  · decide +kernel
  · exact (Option.some_get _).symm

/-- The cycle reports just that. -/
theorem busy_run : ∃ w', (runPollCycle queueEnv busySet busyRequest 10).run
    (QueueHost.world busyWaiting (ts "2026-08-15T16:02:00Z") []) = some (.ok busyOutcome, w') :=
  exists_run_of_returned (by decide +kernel)

/-- The document of the set is a parsed one. -/
theorem parsed_pairSet : pairSetDocument.Parsed := by
  have hlimits : (Number.int 8).Parsed ∧ (Number.int 8192).Parsed := by
    unfold Number.Parsed
    decide +kernel
  have hdigest : (object [("canonicalization", .str "rfc8785"), ("algorithm", .str "sha256"),
      ("value", .str pairDigest)]).Parsed :=
    Validate.parsed_object (by decide) (by simp [Json.Parsed.str])
  have htexts : ∀ s, (Json.arr [.str s]).Parsed := fun s => .arr (by simp [Json.Parsed.str])
  have hregistrations :
      (Json.arr [Documents.registration "reg:a", Documents.registration "reg:b"]).Parsed :=
    .arr (by simp [Validate.parsed_registration])
  refine Validate.parsed_object (by simp [envelope]) ?_
  simp [envelope, Json.Parsed.str, htexts, Validate.parsed_bounds hlimits.1 hlimits.2, hdigest,
    hregistrations]

end documents

end PollCycle

end Waitprims
