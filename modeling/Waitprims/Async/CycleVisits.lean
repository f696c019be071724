import Mathlib
import Waitprims.Async.CycleRun

/-! # What a cycle takes for its visits

A cycle admits events one at a time: the first of an arm when it visits the arm, the others while it
drains the bind. Whatever the observer answers, the events a visit holds went through the budget one
after the other, and every event that went through is held.

* **`CollectBudget.takeAll`** — take a list of events, in order.
* **`Admits`** — a visit and the budgets around it.
* **`VisitInvariant`** — what one admitted visit preserves, a cycle preserves.
* **`cycleLoop_keeps`** — the run lemma. -/

namespace Waitprims

/-- Take events in order; the first that does not fit refuses them all. -/
def CollectBudget.takeAll (budget : CollectBudget) (events : List WaitEvent) :
    Option CollectBudget :=
  events.foldlM CollectBudget.tryTake budget

namespace CollectBudget

variable {budget budget' : CollectBudget} {event : WaitEvent} {events : List WaitEvent}

@[simp] theorem takeAll_nil : budget.takeAll [] = some budget := rfl

@[simp] theorem takeAll_singleton : budget.takeAll [event] = budget.tryTake event := by
  simp [takeAll]

/-- Taking one more event after others. -/
theorem takeAll_snoc (h : budget.takeAll events = some budget') :
    budget.takeAll (events ++ [event]) = budget'.tryTake event := by
  unfold takeAll at h ⊢
  rw [List.foldlM_append, h]
  simp

end CollectBudget

/-- A visit that reports events. -/
def ArmVisit.reports : ArmVisit → Bool
  | .events _ | .saturated _ => true
  | _ => false

namespace PollCycle

open Fueled

variable {σ β φ ψ : Type} {env : Env σ β φ ψ} {set : RegistrationSet} {request : PollCycleRequest}

/-- **An admitted visit**: its events were taken in order, and it holds some if it reports any. -/
structure Admits (budget : CollectBudget) (visit : ArmVisit) (budget' : CollectBudget) : Prop where
  taken : budget.takeAll visit.held = some budget'
  reported : visit.reports = true → visit.held ≠ []

/-- No assertion about the world. -/
abbrev AnyWorld (_ : World σ β) : Prop := True

/-- No assertion about a failure. -/
abbrev AnyFailure (_ : Error) (_ : World σ β) : Prop := True

/-! ## One visit -/

/-- A visit without events leaves the budget as it is. -/
theorem Admits.quiet {budget : CollectBudget} {visit : ArmVisit} (h : visit.reports = false) :
    Admits budget visit budget := by
  have hheld : visit.held = [] := by cases visit <;> first | rfl | cases h
  exact ⟨by rw [hheld]; rfl, fun hreports => by simp [h] at hreports⟩

/-- **The drain takes what it appends.** -/
theorem drainLoop_admits (bind : β) {start : CollectBudget} (fuel : Nat) {budget : CollectBudget}
    {events : List WaitEvent} (htaken : start.takeAll events = some budget)
    (hsome : events ≠ []) :
    ETriple AnyWorld (drainLoop env bind fuel budget events)
      (fun r _ => start.takeAll r.2.2 = some r.2.1 ∧ r.2.2 ≠ []) AnyFailure := by
  induction fuel generalizing budget events with
  | zero => exact ETriple.exhausted
  | succ fuel ih =>
    unfold drainLoop
    split
    · exact ETriple.pure fun _ _ => ⟨htaken, hsome⟩
    · refine ETriple.bind (ETriple.lift Triple.vacuous) ?_
      rintro (_ | (event | _ | _ | _ | _ | _ | _))
      · exact ETriple.pure fun _ _ => ⟨htaken, hsome⟩
      · dsimp only
        cases htry : budget.tryTake event with
        | none =>
          refine ETriple.bind ETriple.vacuous fun _ => ?_
          exact ETriple.pure fun _ _ => ⟨htaken, hsome⟩
        | some budget' =>
          exact ih ((CollectBudget.takeAll_snoc htaken).trans htry) (by simp)
      · refine ETriple.bind ETriple.vacuous fun _ => ?_
        exact ETriple.pure fun _ _ => ⟨htaken, hsome⟩
      · exact ETriple.pure fun _ _ => ⟨htaken, hsome⟩
      all_goals
        refine ETriple.bind ETriple.vacuous fun _ => ?_
        exact ETriple.pure fun _ _ => ⟨htaken, hsome⟩

theorem visitAdmitted_admits (bind : Option β) (fuel : Nat) {start budget : CollectBudget}
    {event : WaitEvent} (htake : start.tryTake event = some budget) :
    ETriple AnyWorld (visitAdmitted env bind fuel budget event)
      (fun r _ => Admits start r.1 r.2) AnyFailure := by
  have htaken : start.takeAll [event] = some budget := by simpa using htake
  unfold visitAdmitted
  cases bind with
  | none => exact ETriple.pure fun _ _ => ⟨htaken, fun _ => by simp [ArmVisit.held]⟩
  | some bind =>
    refine ETriple.bind (ETriple.lift Triple.vacuous) fun _ => ?_
    have hdrain : ETriple AnyWorld (drainReady env bind fuel budget [event])
        (fun r _ => start.takeAll r.2.2 = some r.2.1 ∧ r.2.2 ≠ []) AnyFailure := by
      unfold drainReady
      split
      · exact ETriple.pure fun _ _ => ⟨htaken, by simp⟩
      · exact drainLoop_admits bind fuel htaken (by simp)
    refine ETriple.bind hdrain ?_
    rintro ⟨truncated, budget', events⟩
    refine ETriple.pure fun _ h => ?_
    cases truncated with
    | true => exact ⟨h.1, fun _ => h.2⟩
    | false => exact ⟨h.1, fun _ => h.2⟩

/-- **One visit** is admitted, whatever was observed. -/
theorem visitReady_admits (bind : Option β) (fuel : Nat) (budget : CollectBudget)
    (obs : Observation) :
    ETriple AnyWorld (visitReady env bind fuel budget obs)
      (fun r _ => Admits budget r.1 r.2) AnyFailure := by
  have hdefer : ETriple AnyWorld
      (do let visit ← deferReady env bind obs; return (visit, budget))
      (fun r _ => Admits budget r.1 r.2) AnyFailure := by
    have hvisit : ETriple AnyWorld (deferReady env bind obs) (fun visit _ => visit = .deferred)
        AnyFailure := by
      unfold deferReady
      exact ETriple.bind ETriple.vacuous fun _ => ETriple.pure fun _ _ => rfl
    refine ETriple.bind hvisit fun visit => ETriple.pure fun _ h => ?_
    exact h ▸ Admits.quiet rfl
  unfold visitReady
  split
  · exact hdefer
  · cases obs with
    | event event =>
      unfold visitFrom
      dsimp only
      cases htry : budget.tryTake event with
      | none => exact hdefer
      | some budget' => exact visitAdmitted_admits bind fuel htry
    | idle => exact ETriple.pure fun _ _ => Admits.quiet rfl
    | overflow => exact ETriple.pure fun _ _ => Admits.quiet rfl
    | failed reason => exact ETriple.pure fun _ _ => Admits.quiet rfl
    | outage reason => exact ETriple.pure fun _ _ => Admits.quiet rfl
    | cursorUncertain reason => exact ETriple.pure fun _ _ => Admits.quiet rfl
    | degraded reason => exact ETriple.pure fun _ _ => Admits.quiet rfl

/-! ## A run -/

/-- What holds of a fresh cycle and is preserved by each admitted visit. -/
structure VisitInvariant (set : RegistrationSet) (request : PollCycleRequest)
    (I : CollectBudget → Visits → Prop) : Prop where
  fresh : I (CollectBudget.new set request) ∅
  visit : ∀ {budget budget' : CollectBudget} {visits : Visits} {idx : Nat} {visit : ArmVisit},
    idx < set.registrations.length → idx ∉ visits → Admits budget visit budget' →
      I budget visits → I budget' (visits.insert idx visit)

section keeps

variable {I : CollectBudget → Visits → Prop} (hinv : VisitInvariant set request I)

/-- The invariant of a cycle that goes on or ends. -/
abbrev Keeps (I : CollectBudget → Visits → Prop) {γ : Type} (r : Cycle β × γ)
    (_ : World σ β) : Prop :=
  I r.1.budget r.1.visits

include hinv

theorem visitEach_keeps (binds : List (Option β)) (fuel : Nat) {order : List Nat}
    (horder : ∀ idx ∈ order, idx < set.registrations.length) {rec : Recording}
    (h : I rec.budget rec.visits) :
    ETriple AnyWorld (visitEach env binds fuel order rec)
      (fun r _ => I r.budget r.visits) AnyFailure := by
  induction order generalizing rec with
  | nil => exact ETriple.pure fun _ _ => h
  | cons idx rest ih =>
    have hrest : ∀ idx ∈ rest, idx < set.registrations.length := fun idx hidx =>
      horder idx (List.mem_cons_of_mem _ hidx)
    unfold visitEach
    split
    · exact ih hrest h
    · next hnew =>
      split
      · exact ih hrest h
      · refine ETriple.bind (visitReady_admits binds[idx]?.join fuel rec.budget _) ?_
        rintro ⟨visit, budget⟩
        refine ETriple.fact (fun _ hadmits => hadmits) fun hadmits => ?_
        refine ETriple.bind (ETriple.lift Triple.vacuous) fun _ => ?_
        exact ih hrest (hinv.visit (horder idx List.mem_cons_self) hnew hadmits h)

theorem recordReady_keeps (binds : List (Option β)) (fuel : Nat) {budget : CollectBudget}
    {visits : Visits} (h : I budget visits) (ready : List (Nat × Observation)) :
    ETriple AnyWorld (recordReady env set request binds fuel budget visits ready)
      (fun r _ => I r.1 r.2) AnyFailure := by
  unfold recordReady
  refine ETriple.bind ETriple.vacuous fun readyMap => ?_
  have hvisits : ETriple AnyWorld
      (visitEach env binds fuel (fairnessOrder set request) ⟨visits, budget, readyMap⟩)
      (fun r _ => I r.budget r.visits) AnyFailure :=
    visitEach_keeps hinv binds fuel (fun _ hidx => mem_fairnessOrder.mp hidx) h
  refine ETriple.bind hvisits fun rec => ?_
  refine ETriple.fact (fun _ h => h) fun hrec => ?_
  exact ETriple.bind ETriple.vacuous fun _ => ETriple.pure fun _ _ => hrec

theorem recordAndCheck_keeps (fuel : Nat) {cycle : Cycle β} (h : I cycle.budget cycle.visits)
    (ready : List (Nat × Observation)) (starts : List ResolvedStart) :
    ETriple AnyWorld (recordAndCheck env set request fuel cycle ready starts)
      (Keeps I) AnyFailure := by
  unfold recordAndCheck
  refine ETriple.bind (recordReady_keeps hinv cycle.bound fuel h ready) ?_
  rintro ⟨budget, visits⟩
  refine ETriple.fact (fun _ h => h) fun hkept => ?_
  dsimp only
  split
  · exact ETriple.bind (ETriple.lift Triple.vacuous) fun _ => ETriple.pure fun _ _ => hkept
  · exact ETriple.pure fun _ _ => hkept

theorem onBound_keeps (fuel : Nat) {cycle : Cycle β} (h : I cycle.budget cycle.visits)
    (collected : FirstReadyOutput β) :
    ETriple AnyWorld (onBound env set request fuel cycle collected) (Keeps I) AnyFailure := by
  unfold onBound
  cases collected.error with
  | some err => exact ETriple.pure fun _ _ => h
  | none =>
    have hbound : I { cycle with
        bound := storeBinds cycle.bound collected.ready
        anyBound := cycle.anyBound || !collected.ready.isEmpty }.budget cycle.visits := h
    refine ETriple.bind (ETriple.lift Triple.vacuous) fun observations => ?_
    exact recordAndCheck_keeps hinv fuel hbound observations _

theorem turnObserving_keeps (fuel : Nat) {cycle : Cycle β} (h : I cycle.budget cycle.visits)
    (starts : List ResolvedStart) :
    ETriple AnyWorld (turnObserving env set request fuel cycle starts) (Keeps I) AnyFailure := by
  unfold turnObserving
  dsimp only
  split
  · exact ETriple.bind (ETriple.lift Triple.vacuous) fun _ => ETriple.pure fun _ _ => h
  · refine ETriple.bind (ETriple.lift Triple.vacuous) ?_
    rintro (⟨collected | collected⟩ | _ | _)
    · dsimp only
      unfold onObserved
      cases collected.error with
      | some err => exact ETriple.bind ETriple.vacuous fun _ => ETriple.pure fun _ _ => h
      | none =>
        refine ETriple.bind (ETriple.lift Triple.vacuous) fun ready => ?_
        exact recordAndCheck_keeps hinv fuel h ready starts
    · exact onBound_keeps hinv fuel h collected
    · exact ETriple.bind (ETriple.lift Triple.vacuous) fun _ => ETriple.pure fun _ _ => h
    · refine ETriple.bind (ETriple.lift Triple.vacuous) fun now => ?_
      refine ETriple.bind (ETriple.lift Triple.vacuous) fun ready => ?_
      refine ETriple.bind (recordReady_keeps hinv cycle.bound fuel h ready) ?_
      rintro ⟨budget, visits⟩
      exact ETriple.pure fun _ hkept => hkept

theorem turnBinding_keeps (fuel : Nat) {cycle : Cycle β} (h : I cycle.budget cycle.visits) :
    ETriple AnyWorld (turnBinding env set request fuel cycle) (Keeps I) AnyFailure := by
  unfold turnBinding
  refine ETriple.bind (ETriple.lift Triple.vacuous) ?_
  rintro (collected | _ | _)
  · exact onBound_keeps hinv fuel h collected
  all_goals
    refine ETriple.bind (ETriple.lift Triple.vacuous) fun now => ?_
    exact ETriple.bind (ETriple.lift Triple.vacuous) fun _ => ETriple.pure fun _ _ => h

/-- **One turn** keeps the invariant. -/
theorem turn_keeps (fuel : Nat) {cycle : Cycle β} (h : I cycle.budget cycle.visits) :
    ETriple AnyWorld (turn env set request fuel cycle) (Keeps I) AnyFailure := by
  unfold turn
  refine ETriple.bind (ETriple.lift Triple.vacuous) ?_
  rintro (_ | _)
  · refine ETriple.bind (ETriple.lift Triple.vacuous) fun resolved => ?_
    refine ETriple.bind (ETriple.lift Triple.vacuous) fun now => ?_
    split
    · exact ETriple.bind (ETriple.lift Triple.vacuous) fun _ => ETriple.pure fun _ _ => h
    · split
      · exact turnObserving_keeps hinv fuel h _
      · exact turnBinding_keeps hinv fuel h
  · refine ETriple.bind (ETriple.lift Triple.vacuous) fun now => ?_
    exact ETriple.bind (ETriple.lift Triple.vacuous) fun _ => ETriple.pure fun _ _ => h

/-- **The run of the loop** keeps the invariant, by induction on its turns. -/
theorem cycleLoop_keeps (fuel turns : Nat) {cycle : Cycle β} (h : I cycle.budget cycle.visits) :
    ETriple AnyWorld (cycleLoop env set request fuel turns cycle) (Keeps I) AnyFailure := by
  induction turns generalizing cycle with
  | zero => exact ETriple.exhausted
  | succ turns ih =>
    unfold cycleLoop
    refine ETriple.bind (turn_keeps hinv fuel h) ?_
    rintro ⟨cycle', _ | decision⟩
    · refine ETriple.fact (fun _ h => h) fun (hkept : I cycle'.budget cycle'.visits) => ?_
      exact (ih hkept).strengthen fun _ _ => trivial
    · exact ETriple.pure fun _ hkept => hkept

/-- The visits a cycle decides on satisfy the invariant. -/
theorem cycleLoop_visits {fuel turns : Nat} {w w' : World σ β} {cycle : Cycle β}
    {decision : Decision}
    (hrun : (cycleLoop env set request fuel turns (Cycle.new set request)).run w
      = some (.ok (cycle, decision), w')) : I cycle.budget cycle.visits := by
  have hkeeps : ETriple AnyWorld (cycleLoop env set request fuel turns (Cycle.new set request))
      (Keeps I) AnyFailure := cycleLoop_keeps hinv fuel turns hinv.fresh
  exact hkeeps w trivial _ w' hrun

end keeps

/-- **Visits that report events hold some.** -/
def ReportsHeld (visits : Visits) : Prop :=
  ∀ (idx : Nat) (visit : ArmVisit), visits[idx]? = some visit → visit.reports = true →
    visit.held ≠ []

theorem reportsHeld_invariant :
    VisitInvariant set request fun _ visits => ReportsHeld visits where
  fresh := by
    intro idx visit hvisit
    simp at hvisit
  visit := by
    intro budget budget' visits idx visit _ _ hadmits h idx' visit' hvisit'
    rw [Std.ExtTreeMap.getElem?_insert] at hvisit'
    split at hvisit'
    · obtain rfl := Option.some.inj hvisit'
      exact hadmits.reported
    · exact h idx' visit' hvisit'

end PollCycle

end Waitprims
