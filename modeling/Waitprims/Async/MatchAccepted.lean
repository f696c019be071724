import Mathlib
import Waitprims.Async.CycleAccepted
import Waitprims.Async.MatchRun

/-! # The validator accepts what a first match reports

A first match decides at one reading of the clock and imposes posture at a later one; the validator
checks the finished document against the instant it carries. Under a clock that does not go back the
two agree on every outcome but three sorts: a quiet one over a set that requires nothing, one that
was cancelled or failed after a lease, and an event, unless it is a partial result, that its
registration or the set has no room for.

* **`Decided`** — what a verdict can be, and where its instant lies.
* **`live_normative_iff`** — when the rule for one outcome accepts the outcome of a run.
* **`live_postured_iff`** — when the rule for the set, the request and the outcome does. -/

namespace Waitprims

namespace Live

open Fueled
open SetRules (Accepts)
open PollCycle (AnyWorld AnyFailure)

variable {σ β φ ψ : Type} {env : Env σ β φ ψ} {set : RegistrationSet} {request : LiveWaitRequest}
  {now : Timestamp} {starts : List ResolvedStart} {ready : List (Nat × Observation)}
  {outcome : LiveWaitOutcome}

/-! ## What a verdict can be -/

/-- **A clock that does not go back** from one reading to the next. -/
def NeverBack (env : Env σ β φ ψ) : Prop :=
  ∀ s, (env.nowStep s).1 ≤ (env.nowStep (env.nowStep s).2).1

/-- **What a verdict can be**: the consumer cancelled, posture rejected a decision when it was made,
a decision that posture let pass, or a deadline, at an instant no later than the verdict's. -/
inductive Decided (set : RegistrationSet) (request : LiveWaitRequest) : Verdict → Prop
  | cancelled (now completedAt : Timestamp) :
      Decided set request ⟨now, Live.cancelled request completedAt⟩
  | rejected (now at' : Timestamp) (outcome : LiveWaitOutcome)
      (hposture : postureReject set request at' = some outcome) : Decided set request ⟨now, outcome⟩
  | decided (now at' : Timestamp) (ready : List (Nat × Observation)) (starts : List ResolvedStart)
      (outcome : LiveWaitOutcome) (hdecide : decide set request at' ready starts = some outcome)
      (hposture : postureReject set request at' = none) : Decided set request ⟨now, outcome⟩
  | deadline (now at' : Timestamp) (starts : List ResolvedStart) (outcome : LiveWaitOutcome)
      (hdeadline : terminalDeadline set request at' starts = some outcome) (hle : at' ≤ now) :
      Decided set request ⟨now, outcome⟩

/-- What a turn leaves: its verdict, if it has one, can be one. -/
def TurnDecided (set : RegistrationSet) (request : LiveWaitRequest) (r : Wait β × Option Verdict)
    (_ : World σ β) : Prop :=
  ∀ verdict, r.2 = some verdict → Decided set request verdict

/-- A turn without a verdict. -/
theorem turnDecided_none (wait : Wait β) (w : World σ β) :
    TurnDecided set request (wait, none) w := by
  intro verdict h
  cases h

/-- A turn with a verdict. -/
theorem turnDecided_some {verdict : Verdict} (h : Decided set request verdict) (wait : Wait β)
    (w : World σ β) : TurnDecided set request (wait, some verdict) w := by
  intro verdict' heq
  rwa [← Option.some.inj heq]

theorem cancelledVerdict_decided :
    Triple AnyWorld (cancelledVerdict env request) fun verdict _ => Decided set request verdict := by
  unfold cancelledVerdict
  refine Triple.bind Triple.vacuous fun now => ?_
  refine Triple.bind Triple.vacuous fun completedAt => ?_
  exact Triple.pure fun _ _ => .cancelled now completedAt

/-- A cancelled turn. -/
theorem cancelled_turn (wait : Wait β) :
    ETriple AnyWorld (do
        let verdict ← liftM (cancelledVerdict env request)
        return (wait, some verdict) : Fallible σ β (Wait β × Option Verdict))
      (TurnDecided set request) AnyFailure := by
  have hverdict : Triple (AnyWorld : World σ β → Prop) (cancelledVerdict env request)
      fun verdict _ => Decided set request verdict :=
    cancelledVerdict_decided
  refine ETriple.bind (ETriple.lift hverdict) fun verdict => ?_
  exact ETriple.pure fun w hverdict => turnDecided_some hverdict wait w

/-- **What is decided and handed back** was decided at that instant. -/
theorem decideAndRestore_decided (binds : List (Nat × β)) (now at' : Timestamp) :
    ETriple AnyWorld (decideAndRestore env set request at' binds ready starts)
      (fun answer _ => ∀ outcome, answer = some outcome → Decided set request ⟨now, outcome⟩)
      AnyFailure := by
  unfold decideAndRestore
  cases hdecide : decide set request at' ready starts with
  | none =>
    refine ETriple.pure fun _ _ outcome h => ?_
    cases h
  | some decided =>
    dsimp only
    cases hposture : postureReject set request at' with
    | some rejected =>
      refine ETriple.bind ETriple.vacuous fun _ => ETriple.pure fun _ _ outcome h => ?_
      obtain rfl := Option.some.inj h
      exact .rejected now at' rejected hposture
    | none =>
      refine ETriple.bind ETriple.vacuous fun _ => ETriple.pure fun _ _ outcome h => ?_
      obtain rfl := Option.some.inj h
      exact .decided now at' ready starts decided hdecide hposture

theorem decideNow_decided (binds : List (Nat × β)) :
    ETriple AnyWorld (decideNow env set request binds ready starts)
      (fun answer _ => ∀ verdict, answer = some verdict → Decided set request verdict)
      AnyFailure := by
  unfold decideNow
  refine ETriple.bind (ETriple.lift Triple.vacuous) fun at' => ?_
  -- a decision may be finished at any instant, since posture has let it pass at its own
  have hanswer : ETriple AnyWorld (decideAndRestore env set request at' binds ready starts)
      (fun answer _ => ∀ now outcome, answer = some outcome → Decided set request ⟨now, outcome⟩)
      AnyFailure := by
    intro w hw r w' hrun
    cases r with
    | error err => trivial
    | ok answer => exact fun now => decideAndRestore_decided binds now at' w hw (.ok answer) w' hrun
  refine ETriple.bind hanswer ?_
  rintro (_ | outcome)
  · refine ETriple.pure fun _ _ verdict h => ?_
    cases h
  · refine ETriple.fact (fun _ h => h) fun hdecided => ?_
    refine ETriple.bind (ETriple.lift Triple.vacuous) fun now => ?_
    refine ETriple.pure fun _ _ verdict h => ?_
    rw [← Option.some.inj h]
    exact hdecided now outcome rfl

theorem onObserved_decided (fuel : Nat) (wait : Wait β) (binds : List (Nat × β))
    (collected : FirstReadyOutput Observation) :
    ETriple AnyWorld (onObserved env set request fuel wait binds starts collected)
      (TurnDecided set request) AnyFailure := by
  unfold onObserved
  cases collected.error with
  | some err =>
    refine ETriple.bind ETriple.vacuous fun _ => ?_
    exact ETriple.throw fun _ _ => trivial
  | none =>
    refine ETriple.bind (ETriple.lift Triple.vacuous) fun ready => ?_
    refine ETriple.bind (decideNow_decided binds) ?_
    rintro (_ | verdict)
    · refine ETriple.bind (ETriple.lift Triple.vacuous) fun _ => ?_
      refine ETriple.bind (ETriple.lift Triple.vacuous) ?_
      rintro (_ | _)
      · exact ETriple.pure fun w _ => turnDecided_none _ w
      · exact cancelled_turn _
    · exact ETriple.pure fun w hverdict => turnDecided_some (hverdict verdict rfl) wait w

/-- A verdict at a deadline, at the instant of the deadline itself. -/
theorem turnDecided_deadline (wait : Wait β) (w : World σ β) :
    TurnDecided set request
      (wait, (terminalDeadline set request now starts).map fun done => ⟨now, done⟩) w := by
  intro verdict h
  obtain ⟨done, hdone, rfl⟩ := Option.map_eq_some_iff.mp h
  exact .deadline now now starts done hdone (Timestamp.le_def.mpr le_rfl)

theorem onSlept_decided (wait : Wait β) (binds : List (Nat × β))
    (leftover : List (Nat × Observation)) :
    ETriple AnyWorld (onSlept env set request wait binds starts leftover)
      (TurnDecided set request) AnyFailure := by
  unfold onSlept
  refine ETriple.bind (ETriple.lift Triple.vacuous) fun now => ?_
  refine ETriple.bind ETriple.vacuous fun _ => ?_
  refine ETriple.bind (ETriple.lift Triple.vacuous) fun ready => ?_
  refine ETriple.bind ((decideAndRestore_decided binds now now).strengthen fun _ _ => trivial) ?_
  rintro (_ | outcome)
  · exact ETriple.pure fun w _ => turnDecided_deadline wait w
  · exact ETriple.pure fun w hdecided => turnDecided_some (hdecided outcome rfl) wait w

/-- A drop decides nothing. -/
theorem thenDrop_decided {body : Fallible σ β (Wait β × Option Verdict)} {drop : Act σ β Unit}
    (h : ETriple AnyWorld body (TurnDecided set request) AnyFailure) :
    ETriple AnyWorld (Fallible.thenDrop body drop) (TurnDecided set request) AnyFailure :=
  thenDrop_spec h (fun _ _ hdecided _ _ _ => hdecided) fun _ _ _ _ _ _ => trivial

theorem turnObserving_decided (fuel : Nat) (wait : Wait β) (binds : List β) :
    ETriple AnyWorld (turnObserving env set request fuel wait binds) (TurnDecided set request)
      AnyFailure := by
  unfold turnObserving
  dsimp only
  refine ETriple.bind (ETriple.lift Triple.vacuous) fun futs => ?_
  refine ETriple.bind (ETriple.lift Triple.vacuous) ?_
  rintro ⟨arms, collected | _ | _⟩
  · exact thenDrop_decided ((onObserved_decided fuel wait _ collected).strengthen fun _ _ => trivial)
  · refine thenDrop_decided (ETriple.bind ETriple.vacuous fun _ => ?_)
    exact cancelled_turn wait
  · exact thenDrop_decided ((onSlept_decided wait _ _).strengthen fun _ _ => trivial)

theorem onBound_decided (fuel : Nat) (wait : Wait β)
    (collected : FirstReadyOutput (β × Observation)) :
    ETriple AnyWorld (onBound env set request fuel wait collected) (TurnDecided set request)
      AnyFailure := by
  unfold onBound
  cases collected.error with
  | some err =>
    refine ETriple.bind ETriple.vacuous fun _ => ?_
    exact ETriple.throw fun _ _ => trivial
  | none =>
    dsimp only
    refine ETriple.bind (ETriple.lift Triple.vacuous) fun ready => ?_
    refine ETriple.bind (decideNow_decided _) ?_
    rintro (_ | verdict)
    · refine ETriple.bind (ETriple.lift Triple.vacuous) fun _ => ?_
      exact ETriple.pure fun w _ => turnDecided_none _ w
    · exact ETriple.pure fun w hverdict => turnDecided_some (hverdict verdict rfl) wait w

theorem turnBinding_decided (fuel : Nat) (wait : Wait β) :
    ETriple AnyWorld (turnBinding env set request fuel wait) (TurnDecided set request)
      AnyFailure := by
  unfold turnBinding
  dsimp only
  refine ETriple.bind (ETriple.lift Triple.vacuous) ?_
  rintro ⟨arms, collected | _ | _⟩
  · exact thenDrop_decided ((onBound_decided fuel wait collected).strengthen fun _ _ => trivial)
  · refine thenDrop_decided (ETriple.bind ETriple.vacuous fun _ => ?_)
    exact cancelled_turn wait
  · refine thenDrop_decided (ETriple.bind ETriple.vacuous fun _ => ?_)
    refine ETriple.bind (ETriple.lift Triple.vacuous) fun now => ?_
    refine ETriple.bind (ETriple.lift Triple.vacuous) fun starts => ?_
    exact ETriple.pure fun w _ => turnDecided_deadline wait w

/-- A reading of the clock, which the next reading does not go behind. -/
theorem now_neverBack (hclock : NeverBack env) :
    Triple (AnyWorld : World σ β → Prop) env.now fun now w => now ≤ (env.nowStep w.host).1 :=
  Triple.act fun w _ => hclock w.host

/-- **One turn** decides what a verdict can be. -/
theorem turn_decided (hclock : NeverBack env) (fuel : Nat) (wait : Wait β) :
    ETriple AnyWorld (turn env set request fuel wait) (TurnDecided set request) AnyFailure := by
  unfold turn
  refine ETriple.bind (ETriple.lift Triple.vacuous) ?_
  rintro (_ | _)
  · rw [if_neg Bool.false_ne_true]
    refine ETriple.bind (ETriple.lift Triple.vacuous) fun starts => ?_
    refine ETriple.bind (ETriple.lift ((now_neverBack hclock).strengthen fun _ _ => trivial)) ?_
    intro at'
    cases hdeadline : terminalDeadline set request at' starts with
    | some done =>
      -- the verdict's instant is the next reading
      have hnow : Triple (fun w : World σ β => at' ≤ (env.nowStep w.host).1) env.now
          fun now _ => at' ≤ now := Triple.act fun w hle => hle
      refine ETriple.bind (ETriple.lift hnow) fun now => ?_
      refine ETriple.pure fun w hle => turnDecided_some ?_ wait w
      exact .deadline now at' starts done hdeadline hle
    | none =>
      dsimp only
      split
      · exact (turnObserving_decided fuel wait _).strengthen fun _ _ => trivial
      · exact (turnBinding_decided fuel wait).strengthen fun _ _ => trivial
  · rw [if_pos rfl]
    exact (cancelled_turn wait).strengthen fun _ _ => trivial

/-- **The run of the loop**, by induction on its turns. -/
theorem matchLoop_decided (hclock : NeverBack env) (fuel turns : Nat) (wait : Wait β) :
    ETriple AnyWorld (matchLoop env set request fuel turns wait)
      (fun verdict _ => Decided set request verdict) AnyFailure := by
  induction turns generalizing wait with
  | zero => exact ETriple.exhausted
  | succ turns ih =>
    unfold matchLoop
    refine ETriple.bind (turn_decided hclock fuel wait) ?_
    rintro ⟨wait', _ | verdict⟩
    · exact (ih wait').strengthen fun _ _ => trivial
    · exact ETriple.pure fun _ hturn => hturn verdict rfl

/-- **What a run finishes.** -/
theorem runFirstMatch_decided (hclock : NeverBack env) {fuel : Nat} {w w' : World σ β}
    (hrun : (runFirstMatch env set request fuel).run w = some (.ok outcome, w')) :
    ∃ verdict, Decided set request verdict ∧
      outcome = finish set request verdict.now verdict.decided := by
  obtain ⟨verdict, hloop, houtcome⟩ := runFirstMatch_loop hrun
  exact ⟨verdict, matchLoop_decided hclock fuel fuel _ _ trivial (.ok verdict) w' hloop, houtcome⟩

/-! ## What posture lets pass -/

theorem postureReject_eq_none (h : postureReject set request now = none) :
    (∀ registration ∈ set.registrations, ¬ registration.leaseExpiresAt < now) ∧
      (set.authnMode = .required → request.verificationReceiptRef ≠ none) := by
  unfold postureReject at h
  split at h
  · cases h
  · next hlease =>
    split at h
    · cases h
    · next hauthn =>
      refine ⟨fun registration hreg hlt => hlease ?_, fun hmode hreceipt => hauthn ?_⟩
      · exact List.any_eq_true.mpr ⟨registration, hreg, decide_eq_true hlt⟩
      · rw [hmode, hreceipt]
        rfl

/-- A rejection by posture carries its instant; it asks for authentication where a lease has
expired. -/
theorem postureReject_eq_some {rejected : LiveWaitOutcome}
    (h : postureReject set request now = some rejected) :
    rejected.completedAt = now ∧ rejected.events = some [] ∧
      (rejected.outcomeKind = .reauthenticationRequired ∨
        (rejected.outcomeKind = .refused ∧
          ∀ registration ∈ set.registrations, ¬ registration.leaseExpiresAt < now)) := by
  unfold postureReject at h
  split at h
  · obtain rfl := Option.some.inj h
    exact ⟨rfl, rfl, .inl rfl⟩
  · next hlease =>
    split at h
    · obtain rfl := Option.some.inj h
      refine ⟨rfl, rfl, .inr ⟨rfl, fun registration hreg hlt => hlease ?_⟩⟩
      exact List.any_eq_true.mpr ⟨registration, hreg, decide_eq_true hlt⟩
    · cases h

/-- What a decision looks like. -/
theorem decide_shape (h : decide set request now ready starts = some outcome) :
    outcome.completedAt = now ∧ ((outcome.outcomeKind = .failed ∧ outcome.events = some []) ∨
      outcome.outcomeKind = .partialResult ∨
      (outcome.outcomeKind = .events ∧ ∃ event, outcome.events = some [event])) := by
  unfold decide at h
  dsimp only at h
  split at h
  · split at h
    · obtain rfl := Option.some.inj h
      exact ⟨rfl, .inr (.inl rfl)⟩
    · obtain rfl := Option.some.inj h
      exact ⟨rfl, .inl ⟨rfl, rfl⟩⟩
  · split at h
    · obtain rfl := Option.some.inj h
      exact ⟨rfl, .inl ⟨rfl, rfl⟩⟩
    · obtain ⟨event, -, rfl⟩ := Option.map_eq_some_iff.mp h
      exact ⟨rfl, .inr (.inr ⟨rfl, event, rfl⟩)⟩

/-- **What a deadline decides**: a failure while a required registration is not bound, else a quiet
outcome on its side of the logical deadline. -/
theorem terminalDeadline_shape (h : terminalDeadline set request now starts = some outcome) :
    outcome.completedAt = now ∧ outcome.events = some [] ∧ (outcome.outcomeKind = .failed ∨
      (requiredBindingComplete set starts = true ∧
        outcome.arms = some (cleanArms set starts) ∧ outcome.coverageComplete = some true ∧
        outcome.logicalDeadline = some request.logicalDeadline ∧
        ((outcome.outcomeKind = .noChange ∧ now < request.logicalDeadline) ∨
          (outcome.outcomeKind = .logicalDeadman ∧ request.logicalDeadline ≤ now)))) := by
  unfold terminalDeadline at h
  dsimp only at h
  split at h
  · cases h
  · split at h
    · obtain rfl := Option.some.inj h
      exact ⟨rfl, rfl, .inl rfl⟩
    · next hbinding =>
      have hcomplete : requiredBindingComplete set starts = true := by simpa using hbinding
      split at h
      · next hlogical =>
        obtain rfl := Option.some.inj h
        exact ⟨rfl, rfl, .inr ⟨hcomplete, rfl, rfl, rfl, .inr ⟨rfl, of_decide_eq_true hlogical⟩⟩⟩
      · next hlogical =>
        obtain rfl := Option.some.inj h
        have hlt : now < request.logicalDeadline :=
          Timestamp.not_le.mp fun hle => hlogical (decide_eq_true hle)
        exact ⟨rfl, rfl, .inr ⟨hcomplete, rfl, rfl, rfl, .inl ⟨rfl, hlt⟩⟩⟩

/-- **What the rules find in a finished outcome.** -/
structure Upright (set : RegistrationSet) (request : LiveWaitRequest) (outcome : LiveWaitOutcome) :
    Prop where
  lease : ∀ registration ∈ set.registrations, registration.leaseExpiresAt < outcome.completedAt →
    outcome.outcomeKind = .reauthenticationRequired ∨ outcome.outcomeKind = .cancelled ∨
      outcome.outcomeKind = .failed
  authn : outcome.report.IsClean → set.authnMode = .required →
    request.verificationReceiptRef ≠ none
  single : outcome.outcomeKind = .events → ∃ event, outcome.events = some [event]
  nothing : outcome.outcomeKind ≠ .events → outcome.outcomeKind ≠ .partialResult →
    outcome.events = some []
  quiet : outcome.outcomeKind = .noChange ∨ outcome.outcomeKind = .logicalDeadman →
    ∃ now starts, terminalDeadline set request now starts = some outcome

/-- An outcome that posture imposes. -/
theorem upright_of_posture {rejected : LiveWaitOutcome}
    (h : postureReject set request now = some rejected) : Upright set request rejected := by
  obtain ⟨hcompleted, hevents, hkind⟩ := postureReject_eq_some h
  have hother : rejected.outcomeKind = .reauthenticationRequired ∨
      rejected.outcomeKind = .refused := hkind.imp_right And.left
  exact {
    lease := fun registration hreg hlt => by
      rcases hkind with hkind | ⟨-, hnone⟩
      · exact .inl hkind
      · rw [hcompleted] at hlt
        exact absurd hlt (hnone registration hreg)
    authn := fun hclean => by
      unfold Report.IsClean LiveWaitOutcome.report at hclean
      rcases hother with hkind | hkind <;> simp [hkind] at hclean
    single := fun hkind => by
      rcases hother with h | h <;> rw [h] at hkind <;> cases hkind
    nothing := fun _ _ => hevents
    quiet := fun hkind => by
      rcases hother with h | h <;> rw [h] at hkind <;> rcases hkind with hkind | hkind <;>
        cases hkind }

/-- An outcome that was cancelled or failed. -/
theorem upright_of_failed (hkind : outcome.outcomeKind = .cancelled ∨ outcome.outcomeKind = .failed)
    (hevents : outcome.events = some []) : Upright set request outcome where
  lease _ _ _ := .inr hkind
  authn hclean := by
    unfold Report.IsClean LiveWaitOutcome.report at hclean
    rcases hkind with hkind | hkind <;> simp [hkind] at hclean
  single h := by
    rcases hkind with hkind | hkind <;> rw [hkind] at h <;> cases h
  nothing _ _ := hevents
  quiet h := by
    rcases hkind with hkind | hkind <;> rw [hkind] at h <;> rcases h with h | h <;> cases h

/-- **What a run finishes is upright.** -/
theorem Decided.upright {verdict : Verdict} (h : Decided set request verdict) :
    Upright set request (finish set request verdict.now verdict.decided) := by
  cases h with
  | cancelled now completedAt => exact upright_of_failed (.inl rfl) rfl
  | rejected now at' outcome hposture =>
    have hrejects : outcome.outcomeKind.rejects = true := by
      rcases (postureReject_eq_some hposture).2.2 with hkind | ⟨hkind, -⟩ <;> rw [hkind] <;> rfl
    unfold finish
    rw [if_pos hrejects]
    exact upright_of_posture hposture
  | decided now at' ready starts outcome hdecide hposture =>
    obtain ⟨hcompleted, hshape⟩ := decide_shape hdecide
    obtain ⟨hlease, hauthn⟩ := postureReject_eq_none hposture
    unfold finish
    by_cases hrejects : outcome.outcomeKind.rejects = true
    · rw [if_pos hrejects]
      rcases hshape with ⟨hkind, hevents⟩ | hkind | ⟨hkind, -⟩
      · exact upright_of_failed (.inr hkind) hevents
      · rw [hkind] at hrejects
        cases hrejects
      · rw [hkind] at hrejects
        cases hrejects
    · rw [if_neg hrejects]
      cases hlate : postureReject set request now with
      | some rejected => exact upright_of_posture hlate
      | none =>
        have hkind : outcome.outcomeKind = .partialResult ∨ outcome.outcomeKind = .events := by
          rcases hshape with ⟨hkind, -⟩ | hkind | ⟨hkind, -⟩
          · rw [hkind] at hrejects
            exact absurd rfl hrejects
          · exact .inl hkind
          · exact .inr hkind
        exact {
          lease := fun registration hreg hlt => by
            rw [Option.getD_none, hcompleted] at hlt
            exact absurd hlt (hlease registration hreg)
          authn := fun _ => hauthn
          single := fun h => by
            rcases hshape with ⟨hkind, -⟩ | hkind | ⟨-, hevent⟩
            · rw [Option.getD_none, hkind] at h
              cases h
            · rw [Option.getD_none, hkind] at h
              cases h
            · exact hevent
          nothing := fun hnotEvents hnotPartial =>
            absurd hkind (not_or.mpr ⟨hnotPartial, hnotEvents⟩)
          quiet := fun h => by
            rw [Option.getD_none] at h
            rcases hkind with hkind | hkind <;> rw [hkind] at h <;> rcases h with h | h <;>
              cases h }
  | deadline now at' starts outcome hdeadline hle =>
    obtain ⟨hcompleted, hevents, hshape⟩ := terminalDeadline_shape hdeadline
    unfold finish
    by_cases hrejects : outcome.outcomeKind.rejects = true
    · rw [if_pos hrejects]
      rcases hshape with hkind | ⟨-, -, -, -, ⟨hkind, -⟩ | ⟨hkind, -⟩⟩
      · exact upright_of_failed (.inr hkind) hevents
      · rw [hkind] at hrejects
        cases hrejects
      · rw [hkind] at hrejects
        cases hrejects
    · rw [if_neg hrejects]
      cases hlate : postureReject set request now with
      | some rejected => exact upright_of_posture hlate
      | none =>
        obtain ⟨hlease, hauthn⟩ := postureReject_eq_none hlate
        exact {
          lease := fun registration hreg hlt => by
            -- a lease that ends before the deadline was read ends before the verdict
            rw [Option.getD_none, hcompleted] at hlt
            exact absurd (lt_of_lt_of_le (α := ℤ) hlt hle) (hlease registration hreg)
          authn := fun _ => hauthn
          single := fun h => by
            rw [Option.getD_none] at h
            rcases hshape with hkind | ⟨-, -, -, -, ⟨hkind, -⟩ | ⟨hkind, -⟩⟩ <;>
              rw [hkind] at h <;> cases h
          nothing := fun _ _ => hevents
          quiet := fun _ => ⟨at', starts, hdeadline⟩ }

/-! ## The rule for one outcome -/

/-- A registration with a start has an arm, and the arm found nothing. -/
theorem cleanArms_spec {arm : CoverageArm} (h : arm ∈ cleanArms set starts) :
    arm.isDirty = false ∧ arm.isNoChange = true ∧
      ∃ registration ∈ set.registrations, registration.required = arm.required := by
  obtain ⟨registration, hreg, harm⟩ := List.mem_filterMap.mp h
  unfold coverageArm at harm
  split at harm
  · cases harm
  · obtain rfl := Option.some.inj harm
    exact ⟨rfl, rfl, registration, hreg, rfl⟩

/-- Where every required registration is bound, each has an arm. -/
theorem required_cleanArms (hbound : requiredBindingComplete set starts = true)
    {registration : Registration} (hreg : registration ∈ set.registrations)
    (hrequired : registration.required = true) :
    ∃ arm ∈ cleanArms set starts, arm.required = true := by
  have hany := List.all_eq_true.mp hbound registration (List.mem_filter.mpr ⟨hreg, hrequired⟩)
  obtain ⟨start, hstart, hid⟩ := List.any_eq_true.mp hany
  have hmem : registration.registrationId ∈ startMap starts := by
    unfold startMap
    rw [TreeMap.mem_collectMap, List.map_map]
    exact List.mem_map.mpr ⟨start, hstart, eq_of_beq hid⟩
  obtain ⟨anchor, hanchor⟩ := Option.isSome_iff_exists.mp
    (Std.ExtTreeMap.isSome_getElem?_iff_mem.mpr hmem)
  have harm : (coverageArm registration .noChange none
      (startMap starts)[registration.registrationId]?).isSome = true := by
    rw [hanchor]
    rfl
  obtain ⟨arm, harm⟩ := Option.isSome_iff_exists.mp harm
  refine ⟨arm, List.mem_filterMap.mpr ⟨registration, hreg, harm⟩, ?_⟩
  rw [hanchor] at harm
  obtain rfl := Option.some.inj harm
  exact hrequired

/-- **When the rule for one outcome accepts what a first match reports**: unless it is quiet over a
set that requires no registration. -/
theorem live_normative_iff (hclock : NeverBack env) {fuel : Nat} {w w' : World σ β}
    (hrun : (runFirstMatch env set request fuel).run w = some (.ok outcome, w')) {document : Json}
    (hdocument : Decode.message document = some (.liveWaitOutcome outcome)) :
    Accepts (Validate.outcomeNormative document) ↔
      (outcome.outcomeKind = .noChange ∨ outcome.outcomeKind = .logicalDeadman →
        ∃ registration ∈ set.registrations, registration.required = true) := by
  obtain ⟨verdict, hdecided, hfinish⟩ := runFirstMatch_decided hclock hrun
  have hupright := hdecided.upright
  rw [← hfinish] at hupright
  rw [accepts_outcomeNormative (shows_liveWaitOutcome (decodedFrom_of_message hdocument).2)]
  by_cases hquiet : outcome.outcomeKind = .noChange ∨ outcome.outcomeKind = .logicalDeadman
  · -- a quiet outcome is what the deadline gave, over the clean arms
    obtain ⟨now, starts, hdeadline⟩ := hupright.quiet hquiet
    obtain ⟨hcompleted, hevents, hfailed | ⟨hbound, harms, hcomplete, hlogical, hside⟩⟩ :=
      terminalDeadline_shape hdeadline
    · rw [hfailed] at hquiet
      rcases hquiet with h | h <;> cases h
    have hreport : outcome.report.arms = cleanArms set starts := by
      unfold LiveWaitOutcome.report
      rw [harms, Option.getD_some]
    constructor
    · intro hnormative _
      -- the rule wants a required arm, and each arm is of a registration
      have hsome : ∃ arm ∈ outcome.report.arms, arm.required = true := by
        rcases hquiet with hkind | hkind
        · exact (hnormative.noChange hkind).1.someArm
        · exact (hnormative.deadman hkind).1.someArm
      obtain ⟨arm, harm, hrequired⟩ := hsome
      rw [hreport] at harm
      obtain ⟨-, -, registration, hreg, heq⟩ := cleanArms_spec harm
      exact ⟨registration, hreg, heq.trans hrequired⟩
    · intro hcondition
      obtain ⟨registration, hreg, hrequired⟩ := hcondition hquiet
      -- a required registration is bound, so it has an arm, and all arms are clean
      have hclaims : ∀ passes : CoverageArm → Bool,
          (∀ arm ∈ cleanArms set starts, passes arm = true) → outcome.report.Claims passes := by
        intro passes hpasses
        refine ⟨?_, hcomplete, ?_, ?_⟩
        · unfold LiveWaitOutcome.report
          rw [hevents, Option.getD_some]
        · rw [hreport]
          exact required_cleanArms hbound hreg hrequired
        · rw [hreport]
          exact fun arm harm _ => hpasses arm harm
      exact {
        clean := fun _ arm harm _ => (cleanArms_spec (hreport ▸ harm)).1
        noChange := fun hkind => by
          refine ⟨hclaims _ fun arm harm => (cleanArms_spec harm).2.1, _, hlogical, ?_⟩
          rcases hside with ⟨-, hlt⟩ | ⟨hdeadman, -⟩
          · show outcome.completedAt < request.logicalDeadline
            rwa [hcompleted]
          · rw [show outcome.outcomeKind = .noChange from hkind] at hdeadman
            cases hdeadman
        deadman := fun hkind => by
          refine ⟨hclaims _ fun arm harm => by rw [(cleanArms_spec harm).1]; rfl, _, hlogical, ?_⟩
          rcases hside with ⟨hnoChange, -⟩ | ⟨-, hle⟩
          · rw [show outcome.outcomeKind = .logicalDeadman from hkind] at hnoChange
            cases hnoChange
          · show request.logicalDeadline ≤ outcome.completedAt
            rwa [hcompleted] }
  · obtain ⟨hno, hdeadman⟩ := not_or.mp hquiet
    exact ⟨fun _ h => absurd h hquiet, fun _ => Report.normative_of_other hno hdeadman⟩

/-! ## The rule for the set, the request and the outcome -/

/-- The rule for the set, the request and the outcome, on what a first match reports. -/
theorem match_accepts_iff (hclock : NeverBack env) {setDocument requestDocument document : Json}
    (hset : Decode.message setDocument = some (.registrationSet set))
    (hrequest : Decode.message requestDocument = some (.liveWaitRequest request))
    (hdocument : Decode.message document = some (.liveWaitOutcome outcome)) {fuel : Nat}
    {w w' : World σ β} (hrun : (runFirstMatch env set request fuel).run w = some (.ok outcome, w')) :
    Accepts (SetRules.authnLeaseBounds [setDocument, requestDocument, document]) ↔
      ((∃ registration ∈ set.registrations, registration.leaseExpiresAt < outcome.completedAt) →
        outcome.outcomeKind ≠ .cancelled ∧ outcome.outcomeKind ≠ .failed) ∧
      (outcome.outcomeKind = .events → ∀ event ∈ handedOver outcome,
        0 < set.aggregateLimits.maxEvents ∧ ∀ registration ∈ set.registrations,
          registration.registrationId = event.registrationId → 0 < registration.bounds.maxEvents) := by
  obtain ⟨htag, hdecoded⟩ := decodedFrom_of_message hrequest
  obtain ⟨houtTag, houtDecoded⟩ := decodedFrom_of_message hdocument
  rw [accepts_authnLeaseBounds hset (.inr htag) (receipt_of_liveWaitRequest hdecoded)
    (.inr houtTag) (shows_liveWaitOutcome houtDecoded)]
  obtain ⟨verdict, hdecided, hfinish⟩ := runFirstMatch_decided hclock hrun
  have hupright := hdecided.upright
  rw [← hfinish] at hupright
  constructor
  · -- the event that is handed over is counted against both limits
    intro hpostured
    refine ⟨?_, fun hkind event hevent => ⟨?_, fun registration hreg hid => ?_⟩⟩
    · rintro ⟨registration, hreg, hlt⟩
      have hkind : outcome.outcomeKind = .reauthenticationRequired :=
        hpostured.lease registration hreg hlt
      rw [hkind]
      exact ⟨by simp, by simp⟩
    · have hbound := hpostured.aggregateBound (by simp [LiveWaitOutcome.report, hkind])
        (by simp [LiveWaitOutcome.report, hkind])
      exact (List.length_pos_of_mem hevent).trans_le hbound
    · have hbound := hpostured.registrationBounds (by simp [LiveWaitOutcome.report, hkind])
        (by simp [LiveWaitOutcome.report, hkind]) registration hreg
      refine (List.length_pos_of_mem (a := event) ?_).trans_le hbound
      exact List.mem_filter.mpr ⟨hevent, decide_eq_true hid.symm⟩
  · rintro ⟨hlease, hroom⟩
    -- at most one event is handed over, so a limit above zero has room for it
    have hbounds : outcome.outcomeKind ≠ .partialResult →
        (∀ registration ∈ set.registrations,
          (outcome.report.events.filter
            fun e => e.registrationId = registration.registrationId).length
              ≤ registration.bounds.maxEvents) ∧
        outcome.report.events.length ≤ set.aggregateLimits.maxEvents := by
      intro hpartial
      by_cases hkind : outcome.outcomeKind = .events
      · obtain ⟨event, hevent⟩ := hupright.single hkind
        have hreport : outcome.report.events = [event] := by
          unfold LiveWaitOutcome.report
          rw [hevent, Option.getD_some]
        obtain ⟨haggregate, hregistrations⟩ := hroom hkind event (by simp [handedOver, hevent])
        rw [hreport]
        refine ⟨fun registration hreg => ?_, haggregate⟩
        by_cases hid : event.registrationId = registration.registrationId
        · rw [List.filter_cons_of_pos (by simpa using hid)]
          exact hregistrations registration hreg hid.symm
        · rw [List.filter_cons_of_neg (by simpa using hid)]
          exact Nat.zero_le _
      · have hreport : outcome.report.events = [] := by
          unfold LiveWaitOutcome.report
          rw [hupright.nothing hkind hpartial, Option.getD_some]
        rw [hreport]
        exact ⟨fun _ _ => Nat.zero_le _, Nat.zero_le _⟩
    exact {
      authn := fun hmode hreceipt hclean => hupright.authn hclean hmode hreceipt
      lease := fun registration hreg hlt => by
        obtain ⟨hcancelled, hfailed⟩ := hlease ⟨registration, hreg, hlt⟩
        rcases hupright.lease registration hreg hlt with hkind | hkind | hkind
        · exact hkind
        · exact absurd hkind hcancelled
        · exact absurd hkind hfailed
      registrationBounds := fun hpartial _ => (hbounds hpartial).1
      aggregateBound := fun hpartial _ => (hbounds hpartial).2 }

section documents

open Case Documents

/-- The queueing environment with a clock that moves only while the wait sleeps. -/
def sleepEnv : Env QueueHost ResolvedStart Registration IdToken :=
  { queueEnv with
    nowStep := fun s => (s.now, s)
    sleepUntilStep := fun deadline s => (true, { s with now := deadline }) }

theorem sleepEnv_neverBack : NeverBack sleepEnv := fun _ => Timestamp.le_def.mpr le_rfl

/-- The request of a first match over the registration of the quiet cycle. -/
def quietRequestDocument : Json :=
  object (envelope "live_wait_request" "msg:aw-live-req-1" "2026-08-15T16:01:00Z" "waiter:a" ++ [
    ("registration_set_ref", .str "msg:aw-reg-1"),
    ("registration_revision", .str "regrev-1"),
    ("logical_deadline", .str "2026-08-15T17:00:00Z"),
    ("run_deadline", .str "2026-08-15T16:20:00Z")])

/-- What the match reports when nothing happens before its run deadline. -/
def quietDocument : Json :=
  object (envelope "live_wait_outcome" "msg:aw-live-req-1:outcome" "2026-08-15T16:20:00Z"
      "waiter:a" ++ [
    ("causation_id", .str "msg:aw-live-req-1"),
    ("request_ref", .str "msg:aw-live-req-1"),
    ("completed_at", .str "2026-08-15T16:20:00Z"),
    ("outcome_kind", .str "no_change"),
    ("logical_deadline", .str "2026-08-15T17:00:00Z"),
    ("events", .arr []),
    ("coverage_complete", .bool true),
    ("arms", .arr [object [
      ("arm_id", .str "arm:reg:a"),
      ("registration_id", .str "reg:a"),
      ("required", .bool true),
      ("status", .str "no_change"),
      ("degraded", .bool false),
      ("start_anchor", Documents.anchor "anc:h-reg:a"),
      ("proposed_next_anchor", Documents.anchor "anc:h-reg:a"),
      ("event_count", .num (.int 0)),
      ("byte_count", .num (.int 0))]])])

/-- What the match reports when an event was waiting. -/
def matchDocument : Json :=
  object (envelope "live_wait_outcome" "msg:aw-live-req-1:outcome" "2026-08-15T16:02:00Z"
      "waiter:a" ++ [
    ("causation_id", .str "msg:aw-live-req-1"),
    ("request_ref", .str "msg:aw-live-req-1"),
    ("completed_at", .str "2026-08-15T16:02:00Z"),
    ("outcome_kind", .str "events"),
    ("events", .arr [Documents.event "reg:a" "evt:1"]),
    ("proposed_next_anchor", Documents.anchor "anc:after-1")])

/-- The messages these documents are read as. -/
def quietRequest : LiveWaitRequest :=
  (Decode.liveWaitRequest quietRequestDocument).get (by decide +kernel)

def quietOutcome : LiveWaitOutcome :=
  (Decode.liveWaitOutcome quietDocument).get (by decide +kernel)

def matchOutcome : LiveWaitOutcome :=
  (Decode.liveWaitOutcome matchDocument).get (by decide +kernel)

theorem matchDocuments :
    Decode.message quietRequestDocument = some (.liveWaitRequest quietRequest) ∧
      Decode.message quietDocument = some (.liveWaitOutcome quietOutcome) ∧
      Decode.message matchDocument = some (.liveWaitOutcome matchOutcome) := by
  refine ⟨message_of_decodedFrom ⟨?_, ?_⟩, message_of_decodedFrom ⟨?_, ?_⟩,
    message_of_decodedFrom ⟨?_, ?_⟩⟩
  · decide +kernel
  · exact (Option.some_get _).symm
  · decide +kernel
  · exact (Option.some_get _).symm
  · decide +kernel
  · exact (Option.some_get _).symm

/-- The match reports just that, with nothing waiting. -/
theorem quiet_run : ∃ w', (runFirstMatch sleepEnv PollCycle.quietSet quietRequest 10).run
    (QueueHost.world [] (ts "2026-08-15T16:02:00Z") []) = some (.ok quietOutcome, w') :=
  PollCycle.exists_run_of_returned (by decide +kernel)

/-- The match hands over an event that was waiting. -/
theorem match_run : ∃ w', (runFirstMatch sleepEnv PollCycle.quietSet quietRequest 10).run
    (QueueHost.world [("reg:a", .event (waitEvent "reg:a" "method:a" "evt:1" "2026-08-15T16:01:00Z"))]
      (ts "2026-08-15T16:02:00Z") []) = some (.ok matchOutcome, w') :=
  PollCycle.exists_run_of_returned (by decide +kernel)

theorem live_normative_iff_quiet :
    Accepts (Validate.outcomeNormative quietDocument) ∧ quietOutcome.outcomeKind = .noChange := by
  obtain ⟨w', hrun⟩ := quiet_run
  refine ⟨(live_normative_iff sleepEnv_neverBack hrun matchDocuments.2.1).mpr fun _ => ?_, ?_⟩
  · decide +kernel
  · decide +kernel

end documents

end Live

end Waitprims
