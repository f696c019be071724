import Mathlib
import Waitprims.Async.FairTurn

/-! # A cycle whose arms are all due returns

What a cycle does between two wake-ups always finishes: the polls of a race, the polls of the binds,
the visits and the handing back. Only its two `select!`s, the drain of a bind and its turns may go
on. Where every arm is due and there is room for one event none of them does.

* **`FirstReady.poll_finishes`** — one poll of a race of futures whose polls finish.
* **`recordReady_finishes`** — the visits of a cycle with room for one event.
* **`DueObserver.returns`** — a run of such a cycle. -/

namespace Waitprims

open Fueled

namespace FirstReady

variable {W F T : Type} {P : W → Prop} {pollFut : F → StateT W Option (Polled F T)}
  {dropFut : F → StateT W Option Unit}

/-! ## Races -/

/-- The first pass finishes. -/
theorem scanArms_finishes (hpoll : ∀ {P : W → Prop} fut, Finishes P (pollFut fut) fun _ _ => True)
    (isTerminal : T → Bool) (arms : List (Arm F T)) (scan : Scan) :
    Finishes P (scanArms pollFut isTerminal arms scan) fun _ _ => True := by
  induction arms generalizing scan P with
  | nil => exact Finishes.pure fun _ _ => trivial
  | cons arm rest ih =>
    have harm : Finishes P (scanArm pollFut isTerminal arm scan) fun _ _ => True := by
      unfold scanArm
      split
      · refine Finishes.bind (hpoll _) ?_
        rintro ((_ | _) | _) <;> exact Finishes.pure fun _ _ => trivial
      all_goals exact Finishes.pure fun _ _ => trivial
    unfold scanArms
    refine Finishes.bind harm fun _ => Finishes.bind (ih _) fun _ => ?_
    exact Finishes.pure fun _ _ => trivial

/-- The second pass finishes. -/
theorem collectArms_finishes
    (hpoll : ∀ {P : W → Prop} fut, Finishes P (pollFut fut) fun _ _ => True)
    (arms : List (Arm F T)) (idx : Nat) (error : Option Error) :
    Finishes P (collectArms pollFut idx arms error) fun _ _ => True := by
  induction arms generalizing idx error P with
  | nil => exact Finishes.pure fun _ _ => trivial
  | cons arm rest ih =>
    unfold collectArms
    split
    · next h => cases h
    · next h =>
      cases h
      exact Finishes.bind (ih _ _) fun _ => Finishes.pure fun _ _ => trivial
    · next h =>
      cases h
      exact Finishes.bind (ih _ _) fun _ => Finishes.pure fun _ _ => trivial
    · next h =>
      cases h
      exact Finishes.bind (ih _ _) fun _ => Finishes.pure fun _ _ => trivial
    · next h =>
      cases h
      -- the one arm that is polled again
      refine Finishes.bind (hpoll _) ?_
      rintro ((_ | _) | _) <;>
        exact Finishes.bind (ih _ _) fun _ => Finishes.pure fun _ _ => trivial

/-- **One poll of a race** finishes. -/
theorem poll_finishes (hpoll : ∀ {P : W → Prop} fut, Finishes P (pollFut fut) fun _ _ => True)
    (isTerminal : T → Bool) (arms : List (Arm F T)) :
    Finishes P (FirstReady.poll pollFut isTerminal arms) fun _ _ => True := by
  unfold FirstReady.poll
  refine Finishes.bind (scanArms_finishes hpoll isTerminal arms _) fun r => ?_
  dsimp only
  split
  · exact Finishes.bind (collectArms_finishes hpoll _ _ _) fun _ => Finishes.pure fun _ _ => trivial
  · exact Finishes.pure fun _ _ => trivial

/-- Dropping a race finishes. -/
theorem drop_finishes (hdrop : ∀ {P : W → Prop} fut, Finishes P (dropFut fut) fun _ _ => True)
    (arms : List (Arm F T)) : Finishes P (FirstReady.drop dropFut arms) fun _ _ => True := by
  induction arms generalizing P with
  | nil => exact Finishes.pure fun _ _ => trivial
  | cons arm rest ih =>
    cases arm with
    | pending fut => exact Finishes.bind (hdrop fut) fun _ => ih
    | ready _ => exact ih
    | failed => exact ih

end FirstReady

namespace PollCycle

variable {σ β φ ψ : Type} {P : World σ β → Prop} {env : Env σ β φ ψ} {set : RegistrationSet}
  {request : PollCycleRequest} {due : List IdToken → σ → Prop}

/-- One step of the host finishes. -/
theorem step_finishes {α : Type} {f : World σ β → α × World σ β} :
    Finishes P (fun w => some (f w)) fun _ _ => True :=
  Finishes.act fun _ _ => trivial

/-! ## Binding -/

/-- One poll of `bind_one` finishes. -/
theorem pollBindOne_finishes (fut : BindOne φ) :
    Finishes P (pollBindOne env request fut) fun _ _ => True := by
  have haccept : ∀ {P : World σ β → Prop} registration bind,
      Finishes P (acceptBind env request registration bind) fun _ _ => True := by
    intro P registration bind
    have hrecord : Finishes P (do env.recordResolved bind; return (.ok bind : Except Error β))
        fun _ _ => True :=
      Finishes.bind step_finishes fun _ => Finishes.pure fun _ _ => trivial
    unfold acceptBind
    split
    · split
      · exact Finishes.pure fun _ _ => trivial
      · exact hrecord
    · exact hrecord
  have hbinding : ∀ {P : World σ β → Prop} registration fut,
      Finishes P (pollBinding env request registration fut) fun _ _ => True := by
    intro P registration fut
    unfold pollBinding
    refine Finishes.bind step_finishes ?_
    rintro ((_ | _) | _)
    · exact Finishes.pure fun _ _ => trivial
    · exact Finishes.bind (haccept _ _) fun _ => Finishes.pure fun _ _ => trivial
    · exact Finishes.pure fun _ _ => trivial
  cases fut with
  | start registration =>
    exact Finishes.bind step_finishes fun _ => hbinding _ _
  | binding registration fut => exact hbinding _ _

/-- One poll of the bind race finishes. -/
theorem pollBindUnbound_finishes (unbound : List Nat) (arms : List (Arm (BindOne φ) β)) :
    Finishes P (pollBindUnbound env request unbound arms) fun _ _ => True := by
  have hdrop : ∀ {P : World σ β → Prop} fut,
      Finishes P (dropBindOne env fut) fun _ _ => True := by
    intro P fut
    cases fut with
    | start _ => exact Finishes.pure fun _ _ => trivial
    | binding _ _ => exact Finishes.act fun _ _ => trivial
  unfold pollBindUnbound
  split
  · exact Finishes.pure fun _ _ => trivial
  · refine Finishes.bind (FirstReady.poll_finishes pollBindOne_finishes _ arms) ?_
    rintro ⟨arms', _ | out⟩
    · exact Finishes.pure fun _ _ => trivial
    · exact Finishes.bind (FirstReady.drop_finishes hdrop arms') fun _ =>
        Finishes.pure fun _ _ => trivial

/-! ## Polling and handing back -/

/-- Polling the binds finishes. -/
theorem extendReadyRefs_finishes (refs : List (Nat × β)) (ready : List (Nat × Observation)) :
    Finishes P (extendReadyRefs env refs ready) fun _ _ => True := by
  induction refs generalizing ready P with
  | nil => exact Finishes.pure fun _ _ => trivial
  | cons p rest ih =>
    have hpoll : ∀ {P : World σ β → Prop},
        Finishes P (env.pollReady p.2) fun _ _ => True := by
      intro P
      refine Finishes.bind step_finishes fun _ => ?_
      exact Finishes.bind step_finishes fun _ => Finishes.pure fun _ _ => trivial
    unfold extendReadyRefs
    split
    · exact ih _
    · refine Finishes.bind hpoll ?_
      rintro (_ | _) <;> exact ih _

/-- Handing an observation back finishes. -/
theorem restoreObservation_finishes (bind : Option β) (obs : Observation) :
    EFinishes P (restoreObservation env bind obs) fun _ _ => True := by
  cases bind with
  | none => exact EFinishes.pure fun _ _ => trivial
  | some bind =>
    have hrestore : Finishes P (env.restoreReady bind obs) fun _ _ => True :=
      Finishes.bind step_finishes fun _ =>
        Finishes.bind step_finishes fun _ => Finishes.pure fun _ _ => trivial
    exact hrestore.weaken fun _ _ _ _ _ => trivial

/-- Handing several back finishes. -/
theorem restoreEach_finishes (binds : List (Option β)) (ready : List (Nat × Observation)) :
    EFinishes P (restoreEach env binds ready) fun _ _ => True := by
  induction ready generalizing P with
  | nil => exact EFinishes.pure fun _ _ => trivial
  | cons p rest ih => exact EFinishes.bind (restoreObservation_finishes _ _) fun _ => ih

/-- Handing back what the visits hold finishes. -/
theorem restoreVisits_finishes (binds : List (Option β)) (visits : List (Nat × ArmVisit)) :
    EFinishes P (restoreVisits env binds visits) fun _ _ => True := by
  have hevents : ∀ {P : World σ β → Prop} bind events,
      EFinishes P (restoreEvents env bind events) fun _ _ => True := by
    intro P bind events
    induction events generalizing P with
    | nil => exact EFinishes.pure fun _ _ => trivial
    | cons event rest ih =>
      exact EFinishes.bind (restoreObservation_finishes (some bind) (.event event)) fun _ => ih
  induction visits generalizing P with
  | nil => exact EFinishes.pure fun _ _ => trivial
  | cons p rest ih =>
    unfold restoreVisits
    split
    · exact ih
    · exact EFinishes.bind (hevents _ _) fun _ => ih

/-- Emitting an outcome finishes. -/
theorem emit_finishes (binds : List (Option β)) (visits : Visits)
    (outcome : Except Error PollCycleOutcome) :
    EFinishes P (emit env binds visits outcome) fun _ _ => True := by
  have hrestore : Finishes P (restoreAdmitted env binds visits).run fun _ _ => True :=
    Finishes.weaken (restoreVisits_finishes binds _) fun _ _ _ => trivial
  unfold emit
  refine EFinishes.bind (EFinishes.lift hrestore) fun restored => ?_
  split
  · exact EFinishes.pure fun _ _ => trivial
  · exact EFinishes.throw
  · exact EFinishes.throw

/-! ## Visiting with room for one event -/

/-- The visit of one arm finishes, and keeps the limit. -/
theorem visitReady_finishes (bind : Option β) (fuel : Nat) {budget : CollectBudget}
    (hone : budget.maxEvents = 1) (obs : Observation) :
    EFinishes P (visitReady env bind fuel budget obs) fun r _ => r.2.maxEvents = 1 := by
  have hdefer : ∀ {P : World σ β → Prop}, EFinishes P (do
        let visit ← deferReady env bind obs
        return (visit, budget)) fun r _ => r.2.maxEvents = 1 := by
    intro P
    refine EFinishes.bind (R := fun _ _ => True) ?_ fun _ => EFinishes.pure fun _ _ => hone
    exact EFinishes.bind (restoreObservation_finishes bind obs) fun _ =>
      EFinishes.pure fun _ _ => trivial
  unfold visitReady
  split
  · exact hdefer
  · cases obs with
    | event event =>
      cases htake : budget.tryTake event with
      | none =>
        unfold visitFrom
        dsimp only
        rw [htake]
        exact hdefer
      | some budget' =>
        obtain ⟨hmax, hfull⟩ := tryTake_one hone htake
        unfold visitFrom
        dsimp only
        rw [htake]
        cases bind with
        | none => exact EFinishes.pure fun _ _ => hmax
        | some bind =>
          -- the drain stops before its loop
          have hdrain : drainReady env bind fuel budget' [event] = pure (true, budget', [event]) :=
            if_pos (by simp [CollectBudget.roomForRegistration, hfull])
          unfold visitAdmitted
          dsimp only
          rw [hdrain]
          refine EFinishes.bind (EFinishes.lift step_finishes) fun _ => ?_
          exact EFinishes.pure fun _ _ => hmax
    | idle => exact EFinishes.pure fun _ _ => hone
    | overflow => exact EFinishes.pure fun _ _ => hone
    | failed _ => exact EFinishes.pure fun _ _ => hone
    | outage _ => exact EFinishes.pure fun _ _ => hone
    | cursorUncertain _ => exact EFinishes.pure fun _ _ => hone
    | degraded _ => exact EFinishes.pure fun _ _ => hone

/-- The visits of the arms finish. -/
theorem visitEach_finishes (binds : List (Option β)) (fuel : Nat) (order : List Nat)
    {recording : Recording} (hone : recording.budget.maxEvents = 1) :
    EFinishes P (visitEach env binds fuel order recording) fun _ _ => True := by
  induction order generalizing recording P with
  | nil => exact EFinishes.pure fun _ _ => trivial
  | cons slot rest ih =>
    unfold visitEach
    split
    · exact ih hone
    · split
      · exact ih hone
      · refine EFinishes.bind (visitReady_finishes _ fuel hone _) fun r => ?_
        refine Finishes.fact (fun _ h => h) fun hmax => ?_
        exact EFinishes.bind (EFinishes.lift step_finishes) fun _ => ih hmax

/-- **Recording what is ready** finishes. -/
theorem recordReady_finishes (binds : List (Option β)) (fuel : Nat) {budget : CollectBudget}
    (hone : budget.maxEvents = 1) (visits : Visits) (ready : List (Nat × Observation)) :
    EFinishes P (recordReady env set request binds fuel budget visits ready) fun _ _ => True := by
  have hgather : ∀ {P : World σ β → Prop} readyMap,
      EFinishes P (gatherReady env binds ready readyMap) fun _ _ => True := by
    intro P readyMap
    induction ready generalizing readyMap P with
    | nil => exact EFinishes.pure fun _ _ => trivial
    | cons p rest ih =>
      unfold gatherReady
      split
      · exact EFinishes.bind (restoreObservation_finishes _ _) fun _ => ih _
      · exact ih _
  unfold recordReady
  refine EFinishes.bind (hgather _) fun _ => ?_
  refine EFinishes.bind (visitEach_finishes binds fuel _ hone) fun _ => ?_
  exact EFinishes.bind (restoreEach_finishes _ _) fun _ => EFinishes.pure fun _ _ => trivial

/-- The handler of the bind branch finishes. -/
theorem onBound_finishes (fuel : Nat) {cycle : Cycle β} (hone : cycle.budget.maxEvents = 1)
    (out : FirstReadyOutput β) :
    EFinishes P (onBound env set request fuel cycle out) fun _ _ => True := by
  unfold onBound
  split
  · exact EFinishes.pure fun _ _ => trivial
  · refine EFinishes.bind (EFinishes.lift (extendReadyRefs_finishes _ _)) fun _ => ?_
    unfold recordAndCheck
    refine EFinishes.bind (recordReady_finishes _ fuel hone _ _) fun r => ?_
    dsimp only
    split
    · refine EFinishes.bind (EFinishes.lift step_finishes) fun _ => ?_
      exact EFinishes.pure fun _ _ => trivial
    · exact EFinishes.pure fun _ _ => trivial

/-! ## The run -/

namespace DueObserver

variable (h : DueObserver env set request due)

include h

/-- The first turn finishes. -/
theorem turn_finishes (hset : set.registrations ≠ [])
    (hone : (CollectBudget.new set request).maxEvents = 1) (fuel : Nat) :
    EFinishes (Dues due (set.registrations.map Registration.registrationId))
      (PollCycle.turn env set request (fuel + 1) (Cycle.new set request)) fun _ _ => True := by
  have hne : fairnessOrder set request ≠ [] := by
    obtain ⟨rest, horder⟩ := fairnessOrder_start request hset
    rw [horder]
    exact List.cons_ne_nil _ _
  -- the first poll of the bind race ends the `select!`
  have hselect : Finishes (Dues due (set.registrations.map Registration.registrationId))
      (PollCycle.selectBinding env request (fairnessOrder set request) (earliestDeadline request)
        (fuel + 1) (bindUnbound set request (fairnessOrder set request)))
      fun winner _ => ∃ out, winner = .collected out := by
    unfold PollCycle.selectBinding
    refine Finishes.bind (Finishes.and_triple (pollBindUnbound_finishes _ _)
      (h.pollBindUnbound hne fun slot hslot => mem_fairnessOrder.mp hslot)) ?_
    rintro ⟨binding, _ | out⟩
    · intro w hw
      obtain ⟨out, hout, -⟩ := hw
      cases hout
    · exact Finishes.pure fun _ _ => ⟨out, rfl⟩
  unfold PollCycle.turn
  refine EFinishes.bind (R := fun cancelled w => cancelled = false ∧ Dues due _ w)
    (EFinishes.lift (Finishes.act fun w hw => h.running hw)) ?_
  rintro (_ | _)
  · refine EFinishes.bind (R := fun _ w => Dues due _ w)
      (EFinishes.lift (Finishes.act fun w hw => hw.2)) fun resolved => ?_
    refine EFinishes.bind (R := fun now w => InTime set request now ∧ Dues due _ w)
      (EFinishes.lift (Finishes.act fun w hw => h.inTime hw)) fun now => ?_
    refine Finishes.fact (fun w hw => hw.1.1) fun htime => ?_
    rw [if_neg (by rw [htime]; simp), if_neg (by simp [Cycle.new])]
    unfold turnBinding
    refine EFinishes.bind (EFinishes.lift (hselect.strengthen fun w hw => hw.2)) ?_
    rintro (out | _ | _)
    · exact onBound_finishes _ hone out
    · intro w hw
      obtain ⟨out, hout⟩ := hw
      cases hout
    · intro w hw
      obtain ⟨out, hout⟩ := hw
      cases hout
  · -- the token is not cancelled
    intro w hw
    cases hw.1

/-- **A run with any fuel returns.** -/
theorem returns (hset : set.registrations ≠ [])
    (hone : (CollectBudget.new set request).maxEvents = 1) {fuel : Nat} (hfuel : 0 < fuel)
    {w : World σ β} (hw : Dues due (set.registrations.map Registration.registrationId) w) :
    ∃ answer w', (runPollCycle env set request fuel).run w = some (answer, w') := by
  obtain ⟨fuel, rfl⟩ := Nat.exists_eq_add_of_lt hfuel
  rw [Nat.zero_add]
  have hloop : EFinishes (Dues due (set.registrations.map Registration.registrationId))
      (PollCycle.cycleLoop env set request (fuel + 1) (fuel + 1) (Cycle.new set request))
      fun _ _ => True := by
    unfold PollCycle.cycleLoop
    refine EFinishes.bind (EFinishes.and_etriple (h.turn_finishes hset hone fuel)
      (h.turn hset hone (fuel + 1))) ?_
    rintro ⟨cycle, _ | decision⟩
    · intro w hw
      obtain ⟨decision, hdecision, -⟩ := hw
      cases hdecision
    · exact EFinishes.pure fun _ _ => trivial
  have hrun : EFinishes (Dues due (set.registrations.map Registration.registrationId))
      (runPollCycle env set request (fuel + 1)) fun _ _ => True := by
    unfold runPollCycle
    refine EFinishes.bind (EFinishes.result fun _ _ _ hw => hw) fun _ => ?_
    unfold runLoop
    refine EFinishes.bind (R := fun _ w => Dues due _ w)
      (EFinishes.lift (Finishes.act fun w hw => hw)) fun _ => ?_
    refine EFinishes.bind hloop ?_
    rintro ⟨cycle, decision⟩
    exact emit_finishes _ _ _
  obtain ⟨answer, w', hanswer, -⟩ := hrun w hw
  exact ⟨answer, w', hanswer⟩

end DueObserver

end PollCycle

end Waitprims
