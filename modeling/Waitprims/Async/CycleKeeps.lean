import Mathlib
import Waitprims.Async.FifoObserver
import Waitprims.Async.PollCycle
import Waitprims.Async.RaceSpec

/-! # What observing leaves undisturbed

Binding aside, a cycle reaches the world only through a few calls: it polls and drops futures, polls
and restores observations, reads the clock and the token, and adds to its history. An assertion that
each of these keeps is kept by all the code between two binds.

* **`Calm`** — an assertion that the calls which dequeue nothing keep.
* **`Undisturbed`** — an assertion that every call but a poll of a bind keeps.
* **`Undisturbed.recordReady`** — visiting what is ready keeps it, whatever is drained or put back.
* **`Calm.emit`** — so does the end of a cycle. -/

namespace Waitprims

namespace PollCycle

open Fueled

variable {σ β φ ψ : Type} {env : Env σ β φ ψ} {set : RegistrationSet} {request : PollCycleRequest}

/-- No assertion about a failed run. -/
abbrev Lost (_ : Error) (_ : World σ β) : Prop := True

/-- An assertion that every call that dequeues nothing keeps, polls of binds aside. -/
structure Calm (env : Env σ β φ ψ) (P : World σ β → Prop) : Prop where
  bind : ∀ registration, Triple P (env.bind registration) fun _ => P
  dropBind : ∀ fut, Triple P (env.dropBind fut) fun _ => P
  next : ∀ bind, Triple P (env.next bind) fun _ => P
  dropNext : ∀ fut, Triple P (env.dropNext fut) fun _ => P
  restoreReady : ∀ bind obs, Triple P (env.restoreReady bind obs) fun _ => P
  now : Triple P env.now fun _ => P
  sleepUntil : ∀ deadline, Triple P (env.sleepUntil deadline) fun _ => P
  isCancelled : Triple P env.isCancelled fun _ => P
  park : Triple P env.park fun _ => P

namespace Calm

variable {P : World σ β → Prop} (h : Calm env P)

include h

/-! ## Handing observations back -/

/-- Handing back one observation, of a bound arm or of one that has no bind. -/
theorem restoreObservation (bind : Option β) (obs : Observation) :
    ETriple P (restoreObservation env bind obs) (fun _ => P) Lost := by
  cases bind with
  | none => exact ETriple.pure fun _ hw => hw
  | some bind =>
    refine (h.restoreReady bind obs).weaken ?_
    rintro (err | _) w hw
    · trivial
    · exact hw

/-- Handing back a list of observations, each to the bind at its index. -/
theorem restoreEach (binds : List (Option β)) (ready : List (Nat × Observation)) :
    ETriple P (restoreEach env binds ready) (fun _ => P) Lost := by
  induction ready with
  | nil => exact ETriple.pure fun _ hw => hw
  | cons p rest ih => exact ETriple.bind (h.restoreObservation _ p.2) fun _ => ih

/-- Handing back the events of one visit. -/
theorem restoreEvents (bind : β) (events : List WaitEvent) :
    ETriple P (restoreEvents env bind events) (fun _ => P) Lost := by
  induction events with
  | nil => exact ETriple.pure fun _ hw => hw
  | cons event rest ih =>
    exact ETriple.bind (h.restoreObservation (some bind) (.event event)) fun _ => ih

/-- Handing back the events of all visits. An arm without a bind is passed over. -/
theorem restoreVisits (binds : List (Option β)) (visits : List (Nat × ArmVisit)) :
    ETriple P (restoreVisits env binds visits) (fun _ => P) Lost := by
  induction visits with
  | nil => exact ETriple.pure fun _ hw => hw
  | cons p rest ih =>
    unfold PollCycle.restoreVisits
    cases binds[p.1]?.join with
    | none => exact ih
    | some bind => exact ETriple.bind (h.restoreEvents bind _) fun _ => ih

/-- An outcome that is emitted was decided, and putting back disturbs nothing. -/
theorem emit (binds : List (Option β)) (visits : Visits)
    (answer : Except Error PollCycleOutcome) :
    ETriple P (emit env binds visits answer) (fun outcome w => answer = .ok outcome ∧ P w)
      Lost := by
  unfold PollCycle.emit
  have hrestore : Triple P (restoreAdmitted env binds visits).run
      fun restored w => ∀ u, restored = .ok u → P w := by
    refine Triple.weaken (h.restoreVisits binds visits.toList) ?_
    rintro (err | u) w hw
    · exact fun u hu => by cases hu
    · exact fun _ _ => hw
  refine ETriple.bind (ETriple.lift hrestore) fun restored => ?_
  -- the restores come first, but an error of the answer wins over theirs
  rcases answer with err | outcome
  · cases restored <;> exact ETriple.throw fun _ _ => trivial
  · rcases restored with err | u
    · exact ETriple.throw fun _ _ => trivial
    · exact ETriple.pure fun w hw => ⟨rfl, hw u rfl⟩

/-- Sorting what a race returned by arm: a second observation of an arm is handed back. -/
theorem gatherReady (binds : List (Option β)) (ready : List (Nat × Observation))
    (readyMap : BTreeMap Nat Observation) :
    ETriple P (gatherReady env binds ready readyMap) (fun _ => P) Lost := by
  induction ready generalizing readyMap with
  | nil => exact ETriple.pure fun _ hw => hw
  | cons p rest ih =>
    unfold PollCycle.gatherReady
    split
    · exact ETriple.bind (h.restoreObservation _ p.2) fun _ => ih readyMap
    · exact ih _

/-! ## Starting and dropping races -/

/-- Starting a `next` future for each arm of a race. -/
theorem nextEach (refs : List (Nat × β)) : Triple P (nextEach env refs) fun _ => P := by
  induction refs with
  | nil => exact Triple.pure fun _ hw => hw
  | cons p rest ih =>
    refine Triple.bind (h.next p.2) fun fut => ?_
    exact Triple.bind ih fun futs => Triple.pure fun _ hw => hw

/-- Dropping the race of `next` futures, if there is one. -/
theorem dropObserving (observing : Option (List (NextArm β ψ))) :
    Triple P (dropObserving env observing) fun _ => P := by
  cases observing with
  | none => exact Triple.pure fun _ hw => hw
  | some arms => exact FirstReady.drop_spec h.dropNext arms

/-- Dropping a race of binds. -/
theorem dropBinding (arms : List (Arm (BindOne φ) β)) :
    Triple P (FirstReady.drop (dropBindOne env) arms) fun _ => P := by
  refine FirstReady.drop_spec (fun fut => ?_) arms
  cases fut with
  | start registration => exact Triple.pure fun _ hw => hw
  | binding registration fut => exact h.dropBind fut

end Calm

/-- An assertion that every call but a poll of a bind keeps. -/
structure Undisturbed (env : Env σ β φ ψ) (P : World σ β → Prop) : Prop extends Calm env P where
  pollNext : ∀ fut, Triple P (env.pollNext fut) fun _ => P
  pollReady : ∀ bind, Triple P (env.pollReady bind) fun _ => P
  record : ∀ entries, Triple P (Act.record entries) fun _ => P

namespace Undisturbed

variable {P : World σ β → Prop} (h : Undisturbed env P)

include h

/-! ## Visiting what is ready -/

/-- Polling the arms that the race has not answered for. -/
theorem extendReadyRefs (refs : List (Nat × β)) (ready : List (Nat × Observation)) :
    Triple P (extendReadyRefs env refs ready) fun _ => P := by
  induction refs generalizing ready with
  | nil => exact Triple.pure fun _ hw => hw
  | cons p rest ih =>
    unfold PollCycle.extendReadyRefs
    split
    · exact ih ready
    · refine Triple.bind (h.pollReady p.2) ?_
      rintro (_ | obs)
      · exact ih ready
      · exact ih _

/-- Draining an arm: what does not fit, and what is no event, is handed back. -/
theorem drainLoop (bind : β) (fuel : Nat) (budget : CollectBudget) (events : List WaitEvent) :
    ETriple P (drainLoop env bind fuel budget events) (fun _ => P) Lost := by
  induction fuel generalizing budget events with
  | zero => exact ETriple.exhausted
  | succ fuel ih =>
    unfold PollCycle.drainLoop
    split
    · exact ETriple.pure fun _ hw => hw
    · refine ETriple.bind (ETriple.lift (h.pollReady bind)) ?_
      rintro (_ | (event | _ | _ | _ | _ | _ | _))
      · exact ETriple.pure fun _ hw => hw
      · dsimp only
        -- an event that does not fit ends the drain and goes back
        cases budget.tryTake event with
        | none =>
          exact ETriple.bind (h.toCalm.restoreObservation (some bind) _) fun _ =>
            ETriple.pure fun _ hw => hw
        | some budget' => exact ih budget' _
      · exact ETriple.bind (h.toCalm.restoreObservation (some bind) _) fun _ =>
          ETriple.pure fun _ hw => hw
      · exact ETriple.pure fun _ hw => hw
      all_goals
        exact ETriple.bind (h.toCalm.restoreObservation (some bind) _) fun _ =>
          ETriple.pure fun _ hw => hw

/-- A visit whose first event fits the budget: the rest of the arm is drained. -/
theorem visitAdmitted (bind : Option β) (fuel : Nat) (budget : CollectBudget)
    (event : WaitEvent) :
    ETriple P (visitAdmitted env bind fuel budget event) (fun _ => P) Lost := by
  unfold PollCycle.visitAdmitted
  cases bind with
  | none => exact ETriple.pure fun _ hw => hw
  | some bind =>
    refine ETriple.bind (ETriple.lift (h.record _)) fun _ => ?_
    refine ETriple.bind (R := fun _ => P) ?_ fun r => ETriple.pure fun _ hw => hw
    unfold PollCycle.drainReady
    split
    · exact ETriple.pure fun _ hw => hw
    · exact h.drainLoop bind fuel budget [event]

/-- One visit: the observation is deferred, kept with what is drained behind it, or noted. -/
theorem visitReady (bind : Option β) (fuel : Nat) (budget : CollectBudget) (obs : Observation) :
    ETriple P (visitReady env bind fuel budget obs) (fun _ => P) Lost := by
  -- whatever is deferred goes straight back to its bind
  have hdefer : ETriple P (do let visit ← deferReady env bind obs; return (visit, budget))
      (fun _ => P) Lost := by
    unfold PollCycle.deferReady
    refine ETriple.bind (R := fun _ => P) ?_ fun _ => ETriple.pure fun _ hw => hw
    exact ETriple.bind (h.toCalm.restoreObservation bind obs) fun _ => ETriple.pure fun _ hw => hw
  unfold PollCycle.visitReady
  split
  · exact hdefer
  · unfold visitFrom
    split
    · split
      · exact hdefer
      · exact h.visitAdmitted bind fuel _ _
    all_goals exact ETriple.pure fun _ hw => hw

/-- The visits of one turn, in their order. -/
theorem visitEach (binds : List (Option β)) (fuel : Nat) (order : List Nat) (rec : Recording) :
    ETriple P (visitEach env binds fuel order rec) (fun _ => P) Lost := by
  induction order generalizing rec with
  | nil => exact ETriple.pure fun _ hw => hw
  | cons idx rest ih =>
    unfold PollCycle.visitEach
    split
    · exact ih rec
    · split
      · exact ih rec
      · refine ETriple.bind (h.visitReady _ fuel rec.budget _) fun r => ?_
        refine ETriple.bind (ETriple.lift (h.record _)) fun _ => ?_
        exact ih _

/-- **Visiting what is ready** leaves the assertion undisturbed. -/
theorem recordReady (binds : List (Option β)) (fuel : Nat) (budget : CollectBudget)
    (visits : Visits) (ready : List (Nat × Observation)) :
    ETriple P (recordReady env set request binds fuel budget visits ready) (fun _ => P) Lost := by
  unfold PollCycle.recordReady
  refine ETriple.bind (h.toCalm.gatherReady binds ready ∅) fun readyMap => ?_
  refine ETriple.bind (h.visitEach binds fuel _ _) fun rec => ?_
  exact ETriple.bind (h.toCalm.restoreEach binds _) fun _ => ETriple.pure fun _ hw => hw

/-! ## The observation race -/

/-- Polling the `next` future of one arm. -/
theorem pollNextArm (fut : β × ψ) : Triple P (pollNextArm env fut) fun _ => P := by
  unfold PollCycle.pollNextArm
  refine Triple.bind (h.pollNext fut) ?_
  rintro (result | _) <;> exact Triple.pure fun _ hw => hw

/-- One poll of the observation race: its futures are dropped when it answers. -/
theorem pollObservePending (pending : List (Nat × β)) (observing : Option (List (NextArm β ψ))) :
    Triple P (pollObservePending env pending observing) fun _ => P := by
  have hstart : Triple P (startObserving env pending observing) fun _ => P := by
    cases observing with
    | some arms => exact Triple.pure fun _ hw => hw
    | none => exact Triple.bind (h.toCalm.nextEach pending) fun futs => Triple.pure fun _ hw => hw
  unfold PollCycle.pollObservePending
  split
  · exact Triple.pure fun _ hw => hw
  · refine Triple.bind hstart fun arms => ?_
    refine Triple.bind (FirstReady.poll_keeps h.pollNextArm _ arms) ?_
    rintro ⟨arms', _ | out⟩
    · exact Triple.pure fun _ hw => hw
    · exact Triple.bind (FirstReady.drop_spec h.toCalm.dropNext arms') fun _ =>
        Triple.pure fun _ hw => hw

end Undisturbed

end PollCycle

end Waitprims
