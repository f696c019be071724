import Mathlib
import Waitprims.Async.MatchRun
import Waitprims.Async.QueueObserver
import Waitprims.Testkit.Case

/-! # An event that is due when a wait ends

`poll_ready` exists to prefer a ready event over a deadman. A first match looks at its deadline in
three places: at the head of a turn, where the timer of a wait with binds fires, and where the timer
of a wait that still binds fires. Only the second one polls the binds before it decides.

* **`Due`** — polling the binds in turn yields an event.
* **`Looks`** — where a turn looks at its deadline, with the binds there are.
* **`Clean`** — nothing but the event stands against a quiet outcome.
* **`due_event_iff`** — the outcome is not quiet over a due event exactly when the two places that
  do not poll have none. -/

namespace Waitprims

namespace Live

open Fueled

open PollCycle (nextEach pollNextArm)

variable {σ β φ ψ : Type}

/-- A program that cannot fail, run inside one that may. -/
theorem run_lift {ρ α : Type} {x : StateT ρ Option α} {s s' : ρ} {a : α} (h : x s = some (a, s')) :
    (liftM x : ExceptT Error (StateT ρ Option) α).run s = some (.ok a, s') := by
  change (x s).bind (fun p => some (Except.ok p.1, p.2)) = _
  rw [h]
  rfl

/-! ## Where the deadline is looked at -/

/-- A clean quiet outcome: `no_change` or `logical_deadman`. -/
def quiet (outcome : LiveWaitOutcome) : Bool :=
  outcome.outcomeKind == .noChange || outcome.outcomeKind == .logicalDeadman

/-- **An event is due**: polling the binds in turn yields one. -/
def Due (env : Env σ β φ ψ) (binds : List (Nat × β)) (w : World σ β) : Prop :=
  ∃ ready w', extendReadyRefs env binds [] w = some (ready, w') ∧
    ∃ p ∈ ready, observationIsReplayable p.2 = true

/-- What a look at the deadline is about: the binds there are, the instant, the starts, the instant
at which posture is imposed, and the world. -/
structure Look (σ β : Type) where
  binds : List (Nat × β)
  now : Timestamp
  starts : List ResolvedStart
  finishAt : Timestamp
  world : World σ β

/-- The binds a wait holds. -/
def Wait.held (wait : Wait β) : List (Nat × β) := indexedBinds (wait.bound.getD [])

/-- The binds inside the arms of a race that binds and observes. -/
def raceBinds (arms : List (Arm (BindThenObserve β φ ψ) (β × Observation))) : List (Nat × β) :=
  arms.zipIdx.filterMap fun p => match p.1 with
    | .pending (.observing fut) => some (p.2, fut.1)
    | .ready (some value) => some (p.2, value.1)
    | _ => none

section looks

variable (env : Env σ β φ ψ) (set : RegistrationSet) (request : LiveWaitRequest) (fuel : Nat)

/-- A turn that is not cancelled reads the clock. -/
inductive Enters : Wait β → World σ β → List ResolvedStart → Timestamp → World σ β → Prop
  | mk {wait : Wait β} {w w₁ w₂ w₃ : World σ β} {starts : List ResolvedStart} {now : Timestamp}
      (hcancel : env.isCancelled w = some (false, w₁))
      (hstarts : knownStarts env wait w₁ = some (starts, w₂))
      (hnow : env.now w₂ = some (now, w₃)) : Enters wait w starts now w₃

/-- **Where a turn looks at its deadline**, and whether it has polled the binds for that. -/
inductive Looks : Wait β → World σ β → Bool → Look σ β → Prop
  /-- At its head. -/
  | head {wait : Wait β} {w w₁ w₂ : World σ β} {starts : List ResolvedStart}
      {now finishAt : Timestamp} {done : LiveWaitOutcome}
      (henter : Enters env wait w starts now w₁)
      (hreached : terminalDeadline set request now starts = some done)
      (hfinish : env.now w₁ = some (finishAt, w₂)) :
      Looks wait w false ⟨wait.held, now, starts, finishAt, w₁⟩
  /-- When the timer fires over the binds it holds. -/
  | timer {wait : Wait β} {w w₁ w₂ w₃ w₄ w₅ : World σ β} {starts : List ResolvedStart}
      {now now' : Timestamp} {binds : List β} {futs : List (β × ψ)}
      {arms : List (Arm (β × ψ) Observation)}
      (henter : Enters env wait w starts now w₁)
      (hopen : terminalDeadline set request now starts = none)
      (hbound : wait.bound = some binds)
      (hfuts : nextEach env (indexedBinds binds) w₁ = some (futs, w₂))
      (hrace : selectRace env (pollNextArm env) observationIsTerminal (earliestDeadline request)
        fuel (FirstReady.new futs) w₂ = some ((arms, .slept), w₃))
      (hnow : env.now w₃ = some (now', w₄))
      (hback : (restoreOwned env (indexedBinds binds) (FirstReady.takeReady arms)).run w₄
        = some (.ok (), w₅)) :
      Looks wait w true ⟨indexedBinds binds, now', startsFromBinds env binds, now', w₅⟩
  /-- When the timer fires while it still binds. -/
  | binding {wait : Wait β} {w w₁ w₂ w₃ w₄ : World σ β} {starts : List ResolvedStart}
      {now now' : Timestamp} {arms : List (Arm (BindThenObserve β φ ψ) (β × Observation))}
      {done : LiveWaitOutcome}
      (henter : Enters env wait w starts now w₁)
      (hopen : terminalDeadline set request now starts = none)
      (hbound : wait.bound = none)
      (hrace : selectRace env (pollBindThenObserve env)
        (fun value => observationIsTerminal value.2) (earliestDeadline request) fuel
        (FirstReady.new (set.registrations.map BindThenObserve.start)) w₁
          = some ((arms, .slept), w₂))
      (hback : (restoreBoundPairs env (FirstReady.takeReady arms)).run w₂ = some (.ok (), w₃))
      (hnow : env.now w₃ = some (now', w₄))
      (hreached : terminalDeadline set request now' w₄.resolved = some done) :
      Looks wait w false ⟨raceBinds arms, now', w₄.resolved, now', w₄⟩

/-- **Nothing but the event stands against a quiet outcome**: every required registration is bound,
and posture accepts. -/
def Clean (look : Look σ β) : Prop :=
  requiredBindingComplete set look.starts = true ∧ postureReject set request look.finishAt = none

/-- **The turns of a run.** -/
inductive TurnFrom (w₀ : World σ β) : Wait β → World σ β → Prop
  | start : TurnFrom w₀ ⟨0, none⟩ { w₀ with resolved := [] }
  | next {wait wait' : Wait β} {w w' : World σ β} (h : TurnFrom w₀ wait w)
      (hturn : (turn env set request fuel wait).run w = some (.ok (wait', none), w')) :
      TurnFrom w₀ wait' w'

end looks

/-! ## Kinds -/

section kinds

variable {set : RegistrationSet} {request : LiveWaitRequest} {now finishAt : Timestamp}
  {starts : List ResolvedStart} {ready : List (Nat × Observation)}
  {outcome rejected done : LiveWaitOutcome}

/-- What posture imposes is not quiet. -/
theorem postureReject_not_quiet (h : postureReject set request now = some rejected) :
    quiet rejected = false := by
  unfold postureReject at h
  split at h
  · obtain rfl := Option.some.inj h
    rfl
  · split at h
    · obtain rfl := Option.some.inj h
      rfl
    · cases h

/-- Nor does posture make an outcome quiet. -/
theorem finish_not_quiet (h : quiet outcome = false) :
    quiet (finish set request now outcome) = false := by
  unfold finish
  split
  · exact h
  · cases hposture : postureReject set request now with
    | none => exact h
    | some rejected => exact postureReject_not_quiet hposture

/-- What is decided on observations is not quiet. -/
theorem decide_not_quiet (h : decide set request now ready starts = some outcome) :
    quiet outcome = false := by
  unfold decide at h
  dsimp only at h
  split at h
  · obtain rfl := Option.some.inj h
    split <;> rfl
  · split at h
    · obtain rfl := Option.some.inj h
      rfl
    · obtain ⟨event, -, rfl⟩ := Option.map_eq_some_iff.mp h
      rfl

/-- **The outcome at a deadline is quiet** exactly when every required registration is bound and
posture accepts. -/
theorem quiet_terminalDeadline (h : terminalDeadline set request now starts = some done) :
    quiet (finish set request finishAt done) = true ↔
      requiredBindingComplete set starts = true ∧ postureReject set request finishAt = none := by
  unfold terminalDeadline at h
  dsimp only at h
  have hclean (hkind : quiet done = true) :
      quiet (finish set request finishAt done) = true ↔
        postureReject set request finishAt = none := by
    have hrejects : done.outcomeKind.rejects = false := by
      cases hdone : done.outcomeKind <;> first | rfl | (rw [quiet, hdone] at hkind; cases hkind)
    unfold finish
    rw [hrejects, if_neg Bool.false_ne_true]
    cases hposture : postureReject set request finishAt with
    | none => exact ⟨fun _ => rfl, fun _ => hkind⟩
    | some rejected =>
      rw [Option.getD_some, postureReject_not_quiet hposture]
      exact ⟨nofun, nofun⟩
  split at h
  · cases h
  · split at h
    · next hincomplete =>
      obtain rfl := Option.some.inj h
      rw [finish_not_quiet rfl]
      rw [Bool.not_eq_true'] at hincomplete
      rw [hincomplete]
      exact ⟨nofun, fun hboth => absurd hboth.1 Bool.false_ne_true⟩
    · next hcomplete =>
      rw [Bool.not_eq_true', Bool.not_eq_false] at hcomplete
      rw [hcomplete, hclean]
      · simp
      · split at h <;> (obtain rfl := Option.some.inj h; rfl)

end kinds

/-! ## The turn that looks -/

section turns

variable {env : Env σ β φ ψ} {set : RegistrationSet} {request : LiveWaitRequest} {fuel : Nat}
  {wait wait' : Wait β} {w w₁ w' : World σ β} {starts : List ResolvedStart} {now : Timestamp}
  {verdict : Verdict} {look : Look σ β}

/-- A turn that enters goes on at its deadline. -/
theorem turn_enters (h : Enters env wait w starts now w₁) :
    (turn env set request fuel wait).run w
      = (match terminalDeadline set request now starts with
        | some done => do
          let now ← liftM env.now
          return (wait, some ⟨now, done⟩)
        | none => match wait.bound with
          | some binds => turnObserving env set request fuel wait binds
          | none => turnBinding env set request fuel wait :
        Fallible σ β (Wait β × Option Verdict)).run w₁ := by
  obtain ⟨hcancel, hstarts, hnow⟩ := h
  unfold turn
  rw [run_bind_ok (run_lift hcancel), if_neg Bool.false_ne_true, run_bind_ok (run_lift hstarts)]
  exact run_bind_ok (run_lift hnow)

/-- **At the head nothing is polled**: the verdict is that of the deadline. -/
theorem head_verdict {finishAt : Timestamp} {w₂ : World σ β} {done : LiveWaitOutcome}
    (henter : Enters env wait w starts now w₁)
    (hreached : terminalDeadline set request now starts = some done)
    (hfinish : env.now w₁ = some (finishAt, w₂))
    (hturn : (turn env set request fuel wait).run w = some (.ok (wait', some verdict), w')) :
    verdict = ⟨finishAt, done⟩ := by
  rw [turn_enters henter, hreached] at hturn
  dsimp only at hturn
  rw [run_bind_ok (run_lift hfinish)] at hturn
  cases hturn
  rfl

/-- A body that is followed by a drop finishes as the body does. -/
theorem thenDrop_ok {α : Type} {body : Fallible σ β α} {drop : Act σ β Unit} {a : α}
    (h : (Fallible.thenDrop body drop).run w = some (.ok a, w')) :
    ∃ w₁, body.run w = some (.ok a, w₁) := by
  obtain ⟨result, w₁, hbody, h⟩ := bind_eq_ok h
  obtain ⟨result, hresult, hbody⟩ := lift_eq_some hbody
  obtain rfl := Except.ok.inj hresult
  obtain ⟨_, w₂, -, h⟩ := bind_eq_ok h
  cases result with
  | ok b =>
    cases h
    exact ⟨w₁, hbody⟩
  | error err => cases h

/-- A decision on what is ready that is answered is not quiet. -/
theorem decideAndRestore_not_quiet {binds : List (Nat × β)} {ready : List (Nat × Observation)}
    {outcome : LiveWaitOutcome}
    (h : (decideAndRestore env set request now binds ready starts).run w
      = some (.ok (some outcome), w')) : quiet outcome = false := by
  unfold decideAndRestore at h
  cases hdecide : decide set request now ready starts with
  | none =>
    rw [hdecide] at h
    cases h
  | some decided =>
    rw [hdecide] at h
    dsimp only at h
    split at h
    · next rejected hposture =>
      obtain ⟨_, w₁, -, h⟩ := bind_eq_ok h
      cases h
      exact postureReject_not_quiet hposture
    · obtain ⟨_, w₁, -, h⟩ := bind_eq_ok h
      cases h
      exact decide_not_quiet hdecide

/-- A decision on an event is answered. -/
theorem decideAndRestore_isSome {binds : List (Nat × β)} {ready : List (Nat × Observation)}
    {answered : Option LiveWaitOutcome}
    (hevent : ∃ p ∈ ready, observationIsReplayable p.2 = true)
    (h : (decideAndRestore env set request now binds ready starts).run w
      = some (.ok answered, w')) : answered ≠ none := by
  rintro rfl
  unfold decideAndRestore at h
  cases hdecide : decide set request now ready starts with
  | none =>
    obtain ⟨p, hp, hreplay⟩ := hevent
    have hidle := decide_eq_none hdecide p hp
    cases hobs : p.2 with
    | event event =>
      rw [hobs] at hidle
      cases hidle
    | _ =>
      rw [hobs] at hreplay
      cases hreplay
  | some decided =>
    rw [hdecide] at h
    dsimp only at h
    split at h
    all_goals
      obtain ⟨_, w₁, -, h⟩ := bind_eq_ok h
      cases h

/-- **Where the timer fires over binds, every bind is polled**: what is due is decided on. -/
theorem timer_not_quiet (hlook : Looks env set request fuel wait w true look)
    (hdue : Due env look.binds look.world)
    (hturn : (turn env set request fuel wait).run w = some (.ok (wait', some verdict), w')) :
    quiet verdict.decided = false := by
  cases hlook with
  | timer henter hopen hbound hfuts hrace hnow hback =>
    rw [turn_enters henter, hopen, hbound] at hturn
    dsimp only at hturn
    unfold turnObserving at hturn
    dsimp only at hturn
    rw [run_bind_ok (run_lift hfuts), run_bind_ok (run_lift hrace)] at hturn
    obtain ⟨w₆, hbody⟩ := thenDrop_ok hturn
    dsimp only at hbody
    unfold onSlept at hbody
    rw [run_bind_ok (run_lift hnow), run_bind_ok hback] at hbody
    -- the binds are polled in the world of the look
    obtain ⟨ready, w₇, hready, hevent⟩ := hdue
    rw [run_bind_ok (run_lift hready)] at hbody
    obtain ⟨answered, w₈, hdecided, hbody⟩ := bind_eq_ok hbody
    cases answered with
    | none => exact absurd rfl (decideAndRestore_isSome hevent hdecided)
    | some outcome =>
      cases hbody
      exact decideAndRestore_not_quiet hdecided

/-- **Where the timer fires while a wait binds, nothing is polled.** -/
theorem binding_verdict {w₂ w₃ w₄ : World σ β} {now' : Timestamp}
    {arms : List (Arm (BindThenObserve β φ ψ) (β × Observation))} {done : LiveWaitOutcome}
    (henter : Enters env wait w starts now w₁)
    (hopen : terminalDeadline set request now starts = none)
    (hbound : wait.bound = none)
    (hrace : selectRace env (pollBindThenObserve env)
      (fun value => observationIsTerminal value.2) (earliestDeadline request) fuel
      (FirstReady.new (set.registrations.map BindThenObserve.start)) w₁
        = some ((arms, .slept), w₂))
    (hback : (restoreBoundPairs env (FirstReady.takeReady arms)).run w₂ = some (.ok (), w₃))
    (hnow : env.now w₃ = some (now', w₄))
    (hreached : terminalDeadline set request now' w₄.resolved = some done)
    (hturn : (turn env set request fuel wait).run w = some (.ok (wait', some verdict), w')) :
    verdict = ⟨now', done⟩ := by
  rw [turn_enters henter, hopen, hbound] at hturn
  dsimp only at hturn
  unfold turnBinding at hturn
  dsimp only at hturn
  rw [run_bind_ok (run_lift hrace)] at hturn
  obtain ⟨w₆, hbody⟩ := thenDrop_ok hturn
  dsimp only at hbody
  have hsnapshot : (snapshot : Act σ β (List ResolvedStart)) w₄ = some (w₄.resolved, w₄) := rfl
  rw [run_bind_ok hback, run_bind_ok (run_lift hnow), run_bind_ok (run_lift hsnapshot),
    hreached] at hbody
  cases hbody
  rfl

/-- **Where nothing is polled**, the outcome is quiet exactly when it is clean. -/
theorem quiet_unpolled (hlook : Looks env set request fuel wait w false look)
    (hturn : (turn env set request fuel wait).run w = some (.ok (wait', some verdict), w')) :
    quiet (finish set request verdict.now verdict.decided) = true ↔ Clean set request look := by
  cases hlook with
  | head henter hreached hfinish =>
    rw [head_verdict henter hreached hfinish hturn]
    exact quiet_terminalDeadline hreached
  | binding henter hopen hbound hrace hback hnow hreached =>
    rw [binding_verdict henter hopen hbound hrace hback hnow hreached hturn]
    exact quiet_terminalDeadline hreached

/-- **A turn that ends a wait** is not quiet over a due event exactly when no event is due where it
is clean and nothing is polled. -/
theorem turn_due_iff
    (hturn : (turn env set request fuel wait).run w = some (.ok (wait', some verdict), w')) :
    (∀ (polled : Bool) (look : Look σ β), Looks env set request fuel wait w polled look →
        Due env look.binds look.world →
          quiet (finish set request verdict.now verdict.decided) = false) ↔
      ∀ look : Look σ β, Looks env set request fuel wait w false look → Clean set request look →
        ¬ Due env look.binds look.world := by
  constructor
  · intro hall look hlook hclean hdue
    have hquiet := (quiet_unpolled hlook hturn).mpr hclean
    rw [hall false look hlook hdue] at hquiet
    cases hquiet
  · intro hnone polled look hlook hdue
    cases polled with
    | true => exact finish_not_quiet (timer_not_quiet hlook hdue hturn)
    | false =>
      rw [← Bool.not_eq_true]
      intro hquiet
      exact hnone look hlook ((quiet_unpolled hlook hturn).mp hquiet) hdue

end turns

/-! ## Runs -/

section runs

variable {env : Env σ β φ ψ} {set : RegistrationSet} {request : LiveWaitRequest} {fuel : Nat}
  {w₀ w w' : World σ β} {wait : Wait β} {verdict : Verdict}

/-- A loop that returns does so from one of its turns. -/
theorem matchLoop_last {turns : Nat} (hfrom : TurnFrom env set request fuel w₀ wait w)
    (hrun : (matchLoop env set request fuel turns wait).run w = some (.ok verdict, w')) :
    ∃ wait₁ w₁ wait₂, TurnFrom env set request fuel w₀ wait₁ w₁ ∧
      (turn env set request fuel wait₁).run w₁ = some (.ok (wait₂, some verdict), w') := by
  induction turns generalizing wait w with
  | zero => cases hrun
  | succ turns ih =>
    obtain ⟨⟨wait', ended⟩, w₁, hturn, hrest⟩ := bind_eq_ok hrun
    cases ended with
    | none => exact ih (hfrom.next hturn) hrest
    | some last =>
      cases hrest
      exact ⟨wait, w, wait', hfrom, hturn⟩

/-- **A due event beats the deadman exactly when nothing is due where nothing is polled.** Every
first match that returns does so from one of its turns; its outcome is not quiet over a due event,
wherever the turn looked at its deadline, if and only if no event was due where the turn looked
without polling, with every required registration bound and posture accepting. -/
theorem due_event_iff {outcome : LiveWaitOutcome}
    (hrun : (runFirstMatch env set request fuel).run w₀ = some (.ok outcome, w')) :
    ∃ wait w wait' verdict, TurnFrom env set request fuel w₀ wait w ∧
      (turn env set request fuel wait).run w = some (.ok (wait', some verdict), w') ∧
      outcome = finish set request verdict.now verdict.decided ∧
      ((∀ (polled : Bool) (look : Look σ β), Looks env set request fuel wait w polled look →
          Due env look.binds look.world → quiet outcome = false) ↔
        ∀ look : Look σ β, Looks env set request fuel wait w false look →
          Clean set request look → ¬ Due env look.binds look.world) := by
  obtain ⟨verdict, hloop, rfl⟩ := runFirstMatch_loop hrun
  obtain ⟨wait, w, wait', hfrom, hturn⟩ := matchLoop_last .start hloop
  exact ⟨wait, w, wait', verdict, hfrom, hturn, rfl, turn_due_iff hturn⟩

end runs

/-! ## An event that comes with the deadline -/

section coming

variable (env : Env σ β φ ψ) (set : RegistrationSet) (request : LiveWaitRequest) (fuel : Nat)

/-- An event of a bind that is due at an instant. -/
def dueEvent (now : Timestamp) (p : Nat × Observation) : Bool :=
  match p.2 with
  | .event event => Decidable.decide (event.observedAt ≤ now)
  | _ => false

/-- The timer fires while a wait binds, the deadline has passed, and an event is due. -/
def timerDue (wait : Wait β) (w : World σ β) : Bool :=
  (env.isCancelled w).any fun c => !c.1 && (knownStarts env wait c.2).any fun s =>
    (env.now s.2).any fun t => (terminalDeadline set request t.1 s.1).isNone &&
      (selectRace env (pollBindThenObserve env) (fun value => observationIsTerminal value.2)
        (earliestDeadline request) fuel
        (FirstReady.new (set.registrations.map BindThenObserve.start)) t.2).any fun r =>
          match r.1.2 with
          | .slept => ((restoreBoundPairs env (FirstReady.takeReady r.1.1)).run r.2).any fun b =>
            (success b.1).isSome && (env.now b.2).any fun u =>
              (terminalDeadline set request u.1 u.2.resolved).isSome &&
                (extendReadyRefs env (raceBinds r.1.1) [] u.2).any fun q => q.1.any (dueEvent u.1)
          | _ => false

variable {env set request fuel} {wait : Wait β} {w : World σ β}

theorem look_of_timerDue (hbound : wait.bound = none)
    (h : timerDue env set request fuel wait w = true) :
    ∃ look : Look σ β, Looks env set request fuel wait w false look ∧
      ∃ ready w', extendReadyRefs env look.binds [] look.world = some (ready, w') ∧
        ∃ idx event, (idx, .event event) ∈ ready ∧ event.observedAt ≤ look.now := by
  obtain ⟨⟨cancelled, w₁⟩, hcancel, h⟩ := exists_of_any h
  obtain ⟨hgoes, h⟩ := Bool.and_eq_true_iff.mp h
  obtain rfl : cancelled = false := by simpa using hgoes
  obtain ⟨⟨starts, w₂⟩, hstarts, h⟩ := exists_of_any h
  obtain ⟨⟨now, w₃⟩, hnow, h⟩ := exists_of_any h
  obtain ⟨hopen, h⟩ := Bool.and_eq_true_iff.mp h
  have hopen := Option.isNone_iff_eq_none.mp hopen
  obtain ⟨⟨⟨arms, ended⟩, w₄⟩, hrace, h⟩ := exists_of_any h
  cases ended with
  | slept =>
    obtain ⟨⟨restored, w₅⟩, hback, h⟩ := exists_of_any h
    obtain ⟨hok, h⟩ := Bool.and_eq_true_iff.mp h
    obtain ⟨u, hok⟩ := Option.isSome_iff_exists.mp hok
    obtain ⟨⟨now', w₆⟩, hnow', h⟩ := exists_of_any h
    obtain ⟨hreached, h⟩ := Bool.and_eq_true_iff.mp h
    obtain ⟨done, hreached⟩ := Option.isSome_iff_exists.mp hreached
    obtain ⟨⟨ready, w₇⟩, hready, h⟩ := exists_of_any h
    obtain ⟨⟨idx, obs⟩, hmem, h⟩ := List.any_eq_true.mp h
    have hrestored : restored = .ok () := success_eq_some hok
    rw [hrestored] at hback
    have henter : Enters env wait w starts now w₃ := .mk hcancel hstarts hnow
    refine ⟨_, .binding henter hopen hbound hrace hback hnow' hreached, ready, w₇, hready, ?_⟩
    cases obs with
    | event event => exact ⟨idx, event, hmem, of_decide_eq_true h⟩
    | _ => cases h
  | _ => cases h

end coming

/-- The queueing environment in which something may come while the runner sleeps. -/
def sleepingEnv : Env QueueHost ResolvedStart Registration IdToken :=
  { queueEnv with
    sleepUntilStep := fun _ s => (s.readWake.1, s.readWake.2.arrive) }

open Case in
/-- Nothing waits, and an event comes at the run deadline. -/
def comingWorld : World QueueHost ResolvedStart :=
  let empty := QueueHost.world [] (ts "2026-08-15T16:02:00Z") [ts "2026-08-15T16:20:00Z"]
  { empty with
    host := { empty.host with
      upcoming :=
        [("reg:a", .event (waitEvent "reg:a" "method:a" "evt:1" "2026-08-15T16:20:00Z"))] } }

open Case in
/-- The first turn of that run ends it with a quiet outcome. -/
theorem comingWorld_turn : timerDue sleepingEnv pairSet liveWaitRequest 10 ⟨0, none⟩ comingWorld
      = true ∧
    ∃ wait' verdict w', (turn sleepingEnv pairSet liveWaitRequest 10 ⟨0, none⟩).run comingWorld
        = some (.ok (wait', some verdict), w') ∧
      quiet (finish pairSet liveWaitRequest verdict.now verdict.decided) = true := by
  refine ⟨by decide +kernel, ?_⟩
  have hdone : ((turn sleepingEnv pairSet liveWaitRequest 10 ⟨0, none⟩).run comingWorld).any
      (fun last => (success last.1).any fun r => r.2.any fun verdict =>
        quiet (finish pairSet liveWaitRequest verdict.now verdict.decided)) = true := by
    decide +kernel
  obtain ⟨⟨last, w'⟩, hlast, h⟩ := exists_of_any hdone
  obtain ⟨⟨wait', ended⟩, hok, h⟩ := exists_of_any h
  obtain ⟨verdict, hverdict, hquiet⟩ := exists_of_any h
  have hlastOk : last = .ok (wait', some verdict) := by
    rw [show last = .ok (wait', ended) from success_eq_some hok,
      show ended = some verdict from hverdict]
  rw [hlastOk] at hlast
  exact ⟨wait', verdict, w', hlast, hquiet⟩

open Case in
/-- The run returns what its first turn decided. -/
theorem comingWorld_run : ∃ outcome wait' verdict w',
    (runFirstMatch sleepingEnv pairSet liveWaitRequest 10).run comingWorld
        = some (.ok outcome, w') ∧
      (turn sleepingEnv pairSet liveWaitRequest 10 ⟨0, none⟩).run comingWorld
        = some (.ok (wait', some verdict), w') ∧
      outcome = finish pairSet liveWaitRequest verdict.now verdict.decided ∧
      quiet outcome = true := by
  obtain ⟨-, wait', verdict, w', hturn, hquiet⟩ := comingWorld_turn
  have hloop : (matchLoop sleepingEnv pairSet liveWaitRequest 10 10 ⟨0, none⟩).run comingWorld
      = some (.ok verdict, w') := by
    unfold matchLoop
    rw [run_bind_ok hturn]
    rfl
  have hrun : (runFirstMatch sleepingEnv pairSet liveWaitRequest 10).run comingWorld
      = some (.ok (finish pairSet liveWaitRequest verdict.now verdict.decided), w') := by
    have hresolve : (ExceptT.mk (pure (resolve pairSet liveWaitRequest)) :
        Fallible QueueHost ResolvedStart Unit).run comingWorld = some (.ok (), comingWorld) := rfl
    have hnew : (newResolved : Act QueueHost ResolvedStart Unit) comingWorld
        = some ((), comingWorld) := rfl
    unfold runFirstMatch
    rw [run_bind_ok hresolve]
    unfold runLoop
    rw [run_bind_ok (run_lift hnew), run_bind_ok hloop]
    rfl
  exact ⟨_, wait', verdict, w', hrun, hturn, rfl, hquiet⟩

open Case in
theorem due_event_iff_coming : ∃ outcome w',
    (runFirstMatch sleepingEnv pairSet liveWaitRequest 10).run comingWorld
        = some (.ok outcome, w') ∧
    ∃ wait w wait' verdict, TurnFrom sleepingEnv pairSet liveWaitRequest 10 comingWorld wait w ∧
      (turn sleepingEnv pairSet liveWaitRequest 10 wait).run w
        = some (.ok (wait', some verdict), w') ∧
      outcome = finish pairSet liveWaitRequest verdict.now verdict.decided ∧
      ((∀ (polled : Bool) (look : Look QueueHost ResolvedStart),
          Looks sleepingEnv pairSet liveWaitRequest 10 wait w polled look →
            Due sleepingEnv look.binds look.world → quiet outcome = false) ↔
        ∀ look : Look QueueHost ResolvedStart,
          Looks sleepingEnv pairSet liveWaitRequest 10 wait w false look →
            Clean pairSet liveWaitRequest look → ¬ Due sleepingEnv look.binds look.world) := by
  obtain ⟨outcome, _, _, w', hrun, -⟩ := comingWorld_run
  exact ⟨outcome, w', hrun, due_event_iff hrun⟩

open Case in
/-- The wait ends with a quiet outcome although a bind of its race has an event due. -/
theorem due_event_passed_over : ∃ outcome wait' verdict w',
    (runFirstMatch sleepingEnv pairSet liveWaitRequest 10).run comingWorld
        = some (.ok outcome, w') ∧
      TurnFrom sleepingEnv pairSet liveWaitRequest 10 comingWorld ⟨0, none⟩ comingWorld ∧
      (turn sleepingEnv pairSet liveWaitRequest 10 ⟨0, none⟩).run comingWorld
        = some (.ok (wait', some verdict), w') ∧
      outcome = finish pairSet liveWaitRequest verdict.now verdict.decided ∧
      quiet outcome = true ∧
      ∃ look : Look QueueHost ResolvedStart,
        Looks sleepingEnv pairSet liveWaitRequest 10 ⟨0, none⟩ comingWorld false look ∧
        ∃ ready w', extendReadyRefs sleepingEnv look.binds [] look.world = some (ready, w') ∧
          ∃ idx event, (idx, .event event) ∈ ready ∧ event.observedAt ≤ look.now := by
  obtain ⟨outcome, wait', verdict, w', hrun, hturn, houtcome, hquiet⟩ := comingWorld_run
  exact ⟨outcome, wait', verdict, w', hrun, .start, hturn, houtcome, hquiet,
    look_of_timerDue rfl comingWorld_turn.1⟩

end Live

end Waitprims
