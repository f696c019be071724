import Mathlib
import Waitprims.Async.CycleKeeps
import Waitprims.Async.CycleSignals

/-! # What a poll cycle says of the events it has seen

An event that a bind yields before the visit of its arm is recorded shows in that visit: the event
is admitted, or the arm is deferred. An event that a bind yields later, because the poll behind a
bind race asks every bind there is, goes back and shows nowhere.

* **`SeenInTime`**, **`SeenLate`** — the two kinds of events in the history of a bind.
* **`Due`** — what was seen in time is settled by a proposition that grows with the cycle.
* **`recordReady_due`** — a recording settles it by a visit.
* **`cycleLoop_due`** — between turns only visits settle it.
* **`seen_event_reported`** — unless a refused event meets the logical deadline, or an event comes
  late, a cycle that has seen a required event does not end quiet. -/

namespace Waitprims

open Fueled

variable {σ β φ ψ : Type}

/-- The entry dequeues an event from the bind. -/
def Call.TakesEvent (owner : β) : Call β → Prop
  | .next bind obs | .ready bind obs => bind = owner ∧ observationIsReplayable obs = true
  | _ => False

/-- An event of the bind was dequeued before the visit of its arm was recorded. -/
def SeenInTime (owner : β) (log : List (Call β)) : Prop :=
  ∃ (before : List (Call β)) (entry : Call β) (after : List (Call β)),
    log = before ++ entry :: after ∧ entry.TakesEvent owner ∧ Call.visited owner ∉ before

/-- An event of the bind was dequeued after the visit of its arm was recorded. -/
def SeenLate (owner : β) (log : List (Call β)) : Prop :=
  ∃ (before : List (Call β)) (entry : Call β) (after : List (Call β)),
    log = before ++ entry :: after ∧ entry.TakesEvent owner ∧ Call.visited owner ∈ before

/-- What is dequeued is seen in time or late. -/
theorem seen_cases {owner : β} {entry : Call β} {log : List (Call β)} (hmem : entry ∈ log)
    (htakes : entry.TakesEvent owner) : SeenInTime owner log ∨ SeenLate owner log := by
  obtain ⟨before, after, hlog⟩ := List.append_of_mem hmem
  by_cases hvisited : Call.visited owner ∈ before
  · exact Or.inr ⟨before, entry, after, hlog, htakes, hvisited⟩
  · exact Or.inl ⟨before, entry, after, hlog, htakes, hvisited⟩

theorem not_seenInTime_nil (owner : β) : ¬SeenInTime owner [] := by
  rintro ⟨before, entry, after, hlog, -, -⟩
  simp at hlog

/-- What a longer history has seen in time is old, or new and the arm is not visited yet. -/
theorem SeenInTime.of_append {owner : β} {log entries : List (Call β)}
    (h : SeenInTime owner (log ++ entries)) :
    SeenInTime owner log ∨
      (∃ entry ∈ entries, entry.TakesEvent owner) ∧ Call.visited owner ∉ log := by
  obtain ⟨before, entry, after, hlog, htakes, hnew⟩ := h
  rcases List.append_eq_append_iff.mp hlog with ⟨more, hbefore, hentries⟩ | ⟨more, hold, hafter⟩
  · rw [hbefore] at hnew
    refine Or.inr ⟨⟨entry, by simp [hentries], htakes⟩, fun hmem => hnew ?_⟩
    exact List.mem_append_left more hmem
  · cases more with
    | nil =>
      have hentries : entry :: after = entries := hafter
      refine Or.inr ⟨⟨entry, hentries ▸ List.mem_cons_self, htakes⟩, ?_⟩
      simpa [hold] using hnew
    | cons e more =>
      obtain ⟨rfl, -⟩ := List.cons.inj hafter
      exact Or.inl ⟨before, entry, more, hold, htakes, hnew⟩

/-- **The account of one bind**: if its arm has a visit that was recorded, and what was seen of it
in time is settled by `p`. -/
def Due (owner : β) (v p : Prop) (w : World σ β) : Prop :=
  (v → Call.visited owner ∈ w.log) ∧ (SeenInTime owner w.log → p)

section Account

variable {owner : β} {v p q : Prop} {w : World σ β} {env : Env σ β φ ψ}

theorem Due.mono (h : Due owner v p w) (hp : p → q) : Due owner v q w :=
  ⟨h.1, fun hseen => hp (h.2 hseen)⟩

/-! ## One call -/

theorem host_due {α : Type} {f : σ → α × σ} :
    Triple (Due owner v p) (Act.host f) fun _ => Due owner v p :=
  host_spec fun _ h => h

/-- Entries settle the account if each event they dequeue in time settles it. -/
theorem record_due {entries : List (Call β)}
    (h : (∃ entry ∈ entries, entry.TakesEvent owner) → ¬v → q) (hp : p → q) :
    Triple (Due owner v p : World σ β → Prop) (Act.record entries) fun _ => Due owner v q := by
  rintro w hw _ _ ⟨⟩
  refine ⟨fun hv => List.mem_append_left entries (hw.1 hv), fun hseen => ?_⟩
  rcases hseen.of_append with hold | ⟨htakes, hfresh⟩
  · exact hp (hw.2 hold)
  · exact h htakes fun hv => hfresh (hw.1 hv)

/-- Entries that dequeue no event leave the account as it is. -/
theorem record_due_quiet {entries : List (Call β)}
    (h : ∀ entry ∈ entries, ¬entry.TakesEvent owner) :
    Triple (Due owner v p : World σ β → Prop) (Act.record entries) fun _ => Due owner v p :=
  record_due (fun ⟨entry, hmem, htakes⟩ => absurd htakes (h entry hmem)) id

/-- An observation that is an event of the bind, dequeued before its visit. -/
def Fresh (owner : β) (v : Prop) (bind : β) (obs : Observation) : Prop :=
  ¬v ∧ bind = owner ∧ observationIsReplayable obs = true

theorem pollNext_due (bind : β) (fut : ψ) :
    Triple (Due owner v p) (env.pollNext (bind, fut)) fun answer => match answer with
      | .ready (.ok obs) => Due owner v (p ∨ Fresh owner v bind obs)
      | _ => Due owner v p := by
  refine Triple.bind host_due ?_
  rintro ((err | obs) | _)
  · exact Triple.pure fun w h => h
  · refine Triple.bind (record_due (q := p ∨ Fresh owner v bind obs) ?_ Or.inl) fun _ =>
      Triple.pure fun w h => h
    rintro ⟨entry, hmem, htakes⟩ hv
    rw [List.mem_singleton.mp hmem] at htakes
    exact Or.inr ⟨hv, htakes⟩
  · exact Triple.pure fun w h => h

theorem pollReady_due (bind : β) :
    Triple (Due owner v p) (env.pollReady bind) fun answer => match answer with
      | some obs => Due owner v (p ∨ Fresh owner v bind obs)
      | none => Due owner v p := by
  refine Triple.bind host_due fun answer => ?_
  cases answer with
  | none =>
    exact Triple.bind (record_due_quiet (by simp)) fun _ => Triple.pure fun w h => h
  | some obs =>
    refine Triple.bind (record_due (q := p ∨ Fresh owner v bind obs) ?_ Or.inl) fun _ =>
      Triple.pure fun w h => h
    rintro ⟨entry, hmem, htakes⟩ hv
    rw [List.mem_singleton.mp hmem] at htakes
    exact Or.inr ⟨hv, htakes⟩

/-- Every call that dequeues nothing leaves the account as it is. -/
theorem calm_due : PollCycle.Calm env (Due owner v p) where
  bind _ := host_due
  dropBind _ := host_due
  next _ := Triple.bind host_due fun _ => Triple.pure fun _ h => h
  dropNext _ := host_due
  restoreReady bind obs := by
    refine Triple.bind host_due fun answer => ?_
    refine Triple.bind (record_due_quiet ?_) fun _ => Triple.pure fun _ h => h
    rintro entry hmem htakes
    rw [List.mem_singleton.mp hmem] at htakes
    exact htakes
  now := host_due
  sleepUntil _ := host_due
  isCancelled := host_due
  park := host_due

namespace PollCycle

/-! ## Visiting an arm -/

/-- The visit owns up to an event: it holds some, or it was cut short or deferred. -/
def OwnsUp : ArmVisit → Prop
  | .events found => found ≠ []
  | .saturated _ | .deferred => True
  | _ => False

/-- A drain keeps what it was given. -/
theorem drainLoop_due (bind : β) (fuel : Nat) (budget : CollectBudget) {events : List WaitEvent}
    (hevents : events ≠ []) :
    ETriple (Due owner v p) (drainLoop env bind fuel budget events)
      (fun r w => r.2.2 ≠ [] ∧ Due owner v (p ∨ bind = owner) w) Lost := by
  induction fuel generalizing p budget events with
  | zero => exact ETriple.exhausted
  | succ fuel ih =>
    unfold drainLoop
    split
    · exact ETriple.pure fun w h => ⟨hevents, h.mono Or.inl⟩
    · refine ETriple.bind (ETriple.lift (pollReady_due bind)) ?_
      have hput : ∀ (obs : Observation) (truncated : Bool),
          ETriple (Due owner v (p ∨ Fresh owner v bind obs))
            (do
              restoreObservation env (some bind) obs
              return (truncated, budget, events))
            (fun r w => r.2.2 ≠ [] ∧ Due owner v (p ∨ bind = owner) w) Lost := by
        intro obs truncated
        refine ETriple.bind (calm_due.restoreObservation (some bind) obs) fun _ => ?_
        exact ETriple.pure fun w h => ⟨hevents, h.mono (Or.imp_right fun hfresh => hfresh.2.1)⟩
      rintro (_ | obs)
      · exact ETriple.pure fun w h => ⟨hevents, h.mono Or.inl⟩
      · cases obs with
        | event event =>
          dsimp only
          cases budget.tryTake event with
          | none => exact hput (.event event) true
          | some budget' =>
            refine (ih budget' (by simp)).weaken fun r w h => ⟨h.1, h.2.mono ?_⟩
            rintro ((hold | hfresh) | hbind)
            · exact Or.inl hold
            · exact Or.inr hfresh.2.1
            · exact Or.inr hbind
        | overflow =>
          exact ETriple.pure fun w h =>
            ⟨hevents, h.mono (Or.imp_right fun hfresh => hfresh.2.1)⟩
        | idle => exact hput .idle false
        | failed reason => exact hput (.failed reason) false
        | outage reason => exact hput (.outage reason) false
        | cursorUncertain reason => exact hput (.cursorUncertain reason) false
        | degraded reason => exact hput (.degraded reason) false

/-- What the visit of an arm settles. -/
def SettledBy (owner : β) (p : Prop) (bind : Option β) (r : ArmVisit × CollectBudget) : Prop :=
  p ∨ bind = some owner ∧ OwnsUp r.1

theorem visitAdmitted_due (bind : Option β) (fuel : Nat) (budget : CollectBudget)
    (event : WaitEvent) :
    ETriple (Due owner v (p ∨ bind = some owner)) (visitAdmitted env bind fuel budget event)
      (fun r => Due owner v (SettledBy owner p bind r)) Lost := by
  unfold visitAdmitted
  cases bind with
  | none => exact ETriple.pure fun w h => h.mono (Or.imp_right fun hbind => by cases hbind)
  | some bind =>
    refine ETriple.bind (ETriple.lift (record_due_quiet ?_)) fun _ => ?_
    · rintro entry hmem htakes
      rw [List.mem_singleton.mp hmem] at htakes
      exact htakes
    · have hdrain : ETriple (Due owner v (p ∨ some bind = some owner))
          (drainReady env bind fuel budget [event])
          (fun r w => r.2.2 ≠ [] ∧ Due owner v (p ∨ some bind = some owner) w) Lost := by
        unfold drainReady
        split
        · exact ETriple.pure fun w h => ⟨by simp, h⟩
        · refine (drainLoop_due bind fuel budget (by simp)).weaken fun r w h => ⟨h.1, ?_⟩
          refine h.2.mono ?_
          rintro (hold | rfl)
          · exact hold
          · exact Or.inr rfl
      refine ETriple.bind hdrain ?_
      rintro ⟨truncated, budget', events⟩
      refine ETriple.pure fun w h => h.2.mono (Or.imp_right fun hbind => ⟨hbind, ?_⟩)
      cases truncated with
      | true => trivial
      | false => exact h.1

/-- **A visit** owns up to the event it is given. -/
theorem visitReady_due (bind : Option β) (fuel : Nat) (budget : CollectBudget)
    (obs : Observation) :
    ETriple
      (Due owner v (p ∨ bind = some owner ∧ observationIsReplayable obs = true))
      (visitReady env bind fuel budget obs)
      (fun r => Due owner v (SettledBy owner p bind r)) Lost := by
  have hdefer : ETriple
      (Due owner v (p ∨ bind = some owner ∧ observationIsReplayable obs = true))
      (do
        let visit ← deferReady env bind obs
        return (visit, budget))
      (fun r => Due owner v (SettledBy owner p bind r)) Lost := by
    have hvisit : ETriple
        (Due owner v (p ∨ bind = some owner ∧ observationIsReplayable obs = true))
        (deferReady env bind obs)
        (fun visit => Due owner v (SettledBy owner p bind (visit, budget))) Lost := by
      refine ETriple.bind (calm_due.restoreObservation bind obs) fun _ => ?_
      exact ETriple.pure fun w h => h.mono (Or.imp_right fun hbind => ⟨hbind.1, trivial⟩)
    exact ETriple.bind hvisit fun visit => ETriple.pure fun w h => h
  unfold visitReady
  split
  · exact hdefer
  · cases obs with
    | event event =>
      simp only [visitFrom]
      cases budget.tryTake event with
      | none => exact hdefer
      | some budget' =>
        refine (visitAdmitted_due bind fuel budget' event).strengthen fun w h => h.mono ?_
        exact Or.imp_right And.left
    -- a signal is no event, so nothing new is to be settled
    | _ => exact ETriple.pure fun w h => h.mono (Or.imp_right fun hsame => absurd hsame.2 Bool.false_ne_true)

/-! ## Recording -/

variable {bound : List (Option β)} {visits : Visits} {set : RegistrationSet}
  {request : PollCycleRequest}

/-- The arm of the bind has a visit. -/
def IsVisited (bound : List (Option β)) (owner : β) (visits : Visits) : Prop :=
  ∃ idx ∈ visits, bound[idx]?.join = some owner

/-- The arm of the bind has a visit that owns up to an event. -/
def Shown (bound : List (Option β)) (owner : β) (visits : Visits) : Prop :=
  ∃ (idx : Nat) (visit : ArmVisit),
    visits[idx]? = some visit ∧ OwnsUp visit ∧ bound[idx]?.join = some owner

/-- An event of the bind is collected, and its arm has no visit yet. -/
def Waits (bound : List (Option β)) (owner : β) (visits : Visits)
    (ready : List (Nat × Observation)) : Prop :=
  ∃ p ∈ ready, observationIsReplayable p.2 = true ∧ p.1 ∉ visits ∧
    bound[p.1]?.join = some owner

/-- Some arm of the rest of the order waits with an event of the bind. -/
def WaitsIn (bound : List (Option β)) (owner : β) (order : List Nat) (rec : Recording) : Prop :=
  ∃ idx ∈ order, ∃ obs, rec.readyMap[idx]? = some obs ∧ observationIsReplayable obs = true ∧
    idx ∉ rec.visits ∧ bound[idx]?.join = some owner

/-- New visits keep those that own up. -/
theorem Shown.insert {idx : Nat} (hnew : idx ∉ visits) (visit : ArmVisit)
    (h : Shown bound owner visits) : Shown bound owner (visits.insert idx visit) := by
  obtain ⟨slot, old, hslot, howns, hbind⟩ := h
  refine ⟨slot, old, ?_, howns, hbind⟩
  rw [TreeMap.lookup_insert, if_neg, hslot]
  rintro rfl
  rw [Std.ExtTreeMap.mem_iff_isSome_getElem?, hslot] at hnew
  exact hnew rfl

/-- Marking a visit. -/
theorem record_visited_due {idx : Nat} (visit : ArmVisit) :
    Triple (Due owner (IsVisited bound owner visits) p : World σ β → Prop)
      (Act.record ((bound[idx]?.join).toList.map Call.visited))
      fun _ => Due owner (IsVisited bound owner (visits.insert idx visit)) p := by
  rintro w hw _ _ ⟨⟩
  refine ⟨?_, fun hseen => ?_⟩
  · rintro ⟨slot, hslot, hbind⟩
    by_cases hsame : slot = idx
    · subst hsame
      simp [hbind]
    · have hold : slot ∈ visits := by simpa [Ne.symm hsame] using hslot
      exact List.mem_append_left _ (hw.1 ⟨slot, hold, hbind⟩)
  · rcases hseen.of_append with hold | ⟨⟨entry, hmem, htakes⟩, -⟩
    · exact hw.2 hold
    · obtain ⟨bind, -, rfl⟩ := List.mem_map.mp hmem
      exact htakes.elim

/-- Observations of distinct new slots are gathered as they are. -/
theorem gatherReady_keys {P : World σ β → Prop} {ready : List (Nat × Observation)}
    {readyMap : BTreeMap Nat Observation} (hkeys : (ready.map Prod.fst).Nodup)
    (hnew : ∀ p ∈ ready, p.1 ∉ readyMap) :
    ETriple P (gatherReady env bound ready readyMap)
      (fun gathered w => ((∀ p ∈ ready, gathered[p.1]? = some p.2) ∧
        ∀ (idx : Nat) (obs : Observation),
          readyMap[idx]? = some obs → gathered[idx]? = some obs) ∧ P w) Lost := by
  induction ready generalizing readyMap with
  | nil => exact ETriple.pure fun w h => ⟨⟨by simp, fun _ _ hold => hold⟩, h⟩
  | cons p rest ih =>
    unfold gatherReady
    rw [if_neg (hnew p List.mem_cons_self)]
    obtain ⟨hfst, hrest⟩ := List.nodup_cons.mp hkeys
    have hlater : ∀ q ∈ rest, q.1 ∉ readyMap.insert p.1 p.2 := by
      intro q hq hmem
      rw [Std.ExtTreeMap.mem_insert] at hmem
      rcases hmem with hsame | hold
      · refine hfst (List.mem_map.mpr ⟨q, hq, ?_⟩)
        simpa using (compare_eq_iff_eq.mp hsame).symm
      · exact hnew q (List.mem_cons_of_mem _ hq) hold
    refine (ih hrest hlater).weaken fun gathered w h => ⟨⟨?_, ?_⟩, h.2⟩
    · intro q hq
      rcases List.mem_cons.mp hq with rfl | hq
      · exact h.1.2 q.1 q.2 (by rw [TreeMap.lookup_insert, if_pos rfl])
      · exact h.1.1 q hq
    · intro idx obs hold
      refine h.1.2 idx obs ?_
      rw [TreeMap.lookup_insert, if_neg, hold]
      rintro rfl
      refine hnew p List.mem_cons_self ?_
      rw [Std.ExtTreeMap.mem_iff_isSome_getElem?, hold]
      rfl

/-- An arm that is visited, or has nothing, is not waiting. -/
theorem WaitsIn.tail {idx : Nat} {rest : List Nat} {rec : Recording}
    (h : WaitsIn bound owner (idx :: rest) rec)
    (hout : idx ∈ rec.visits ∨ rec.readyMap[idx]? = none) : WaitsIn bound owner rest rec := by
  obtain ⟨slot, hslot, obs, hobs, hevent, hfresh, hbind⟩ := h
  rcases List.mem_cons.mp hslot with rfl | hslot
  · rcases hout with hvisited | hnone
    · exact absurd hvisited hfresh
    · rw [hnone] at hobs
      cases hobs
  · exact ⟨slot, hslot, obs, hobs, hevent, hfresh, hbind⟩

/-- The first arm of the order waits itself, or a later one does after its visit. -/
theorem WaitsIn.visit {idx : Nat} {rest : List Nat} {rec : Recording} {obs : Observation}
    (h : WaitsIn bound owner (idx :: rest) rec) (hobs : rec.readyMap[idx]? = some obs)
    (visit : ArmVisit) (budget : CollectBudget) :
    (bound[idx]?.join = some owner ∧ observationIsReplayable obs = true) ∨
      WaitsIn bound owner rest ⟨rec.visits.insert idx visit, budget, rec.readyMap.erase idx⟩ := by
  obtain ⟨slot, hslot, obs', hobs', hevent, hfresh, hbind⟩ := h
  by_cases hsame : slot = idx
  · subst hsame
    rw [hobs, Option.some.injEq] at hobs'
    subst hobs'
    exact Or.inl ⟨hbind, hevent⟩
  · refine Or.inr ⟨slot, (List.mem_cons.mp hslot).resolve_left hsame, obs', ?_, hevent, ?_, hbind⟩
    · rw [TreeMap.lookup_erase, if_neg (Ne.symm hsame), hobs']
    · simpa [Ne.symm hsame] using hfresh

/-- **The loop over the fairness order** settles what waits by visits. -/
theorem visitEach_due (fuel : Nat) (order : List Nat) (rec : Recording) :
    ETriple
      (Due owner (IsVisited bound owner rec.visits)
        (Shown bound owner rec.visits ∨ WaitsIn bound owner order rec))
      (visitEach env bound fuel order rec)
      (fun rec => Due owner (IsVisited bound owner rec.visits) (Shown bound owner rec.visits))
      Lost := by
  induction order generalizing rec with
  | nil =>
    refine ETriple.pure fun w h => h.mono ?_
    rintro (hshown | ⟨idx, hidx, -⟩)
    · exact hshown
    · cases hidx
  | cons idx rest ih =>
    unfold visitEach
    split
    · next hvisited =>
      exact (ih rec).strengthen fun w h => h.mono (Or.imp_right fun hw => hw.tail (Or.inl hvisited))
    · next hnew =>
      cases hobs : rec.readyMap[idx]? with
      | none =>
        exact (ih rec).strengthen fun w h => h.mono (Or.imp_right fun hw => hw.tail (Or.inr hobs))
      | some obs =>
        dsimp only
        -- what still waits afterwards does not depend on the visit that is made
        have hvisit : ETriple _ (visitReady env bound[idx]?.join fuel rec.budget obs)
            (fun r => Due owner (IsVisited bound owner rec.visits)
              (SettledBy owner (Shown bound owner rec.visits ∨ WaitsIn bound owner rest
                ⟨rec.visits.insert idx .idle, rec.budget, rec.readyMap.erase idx⟩)
                bound[idx]?.join r)) Lost :=
          visitReady_due bound[idx]?.join fuel rec.budget obs
        refine ETriple.bind (hvisit.strengthen fun w h => h.mono ?_) ?_
        · rintro (hshown | hwaits)
          · exact Or.inl (Or.inl hshown)
          · rcases hwaits.visit hobs .idle rec.budget with hhere | hlater
            · exact Or.inr hhere
            · exact Or.inl (Or.inr hlater)
        · rintro ⟨visit, budget⟩
          refine ETriple.bind (ETriple.lift (record_visited_due visit)) fun _ => ?_
          refine (ih _).strengthen fun w h => h.mono ?_
          rintro ((hshown | hlater) | ⟨hbind, howns⟩)
          · exact Or.inl (hshown.insert hnew visit)
          · obtain ⟨slot, hslot, obs', hobs', hevent, hfresh, hbind⟩ := hlater
            exact Or.inr ⟨slot, hslot, obs', hobs', hevent, by simpa using hfresh, hbind⟩
          · exact Or.inl ⟨idx, visit, by rw [TreeMap.lookup_insert, if_pos rfl], howns, hbind⟩

/-- **A recording settles what was collected** by visits. -/
theorem recordReady_due (hlen : bound.length = set.registrations.length) (fuel : Nat)
    (budget : CollectBudget) {ready : List (Nat × Observation)}
    (hkeys : (ready.map Prod.fst).Nodup) :
    ETriple
      (Due owner (IsVisited bound owner visits)
        (Shown bound owner visits ∨ Waits bound owner visits ready))
      (recordReady env set request bound fuel budget visits ready)
      (fun r => Due owner (IsVisited bound owner r.2) (Shown bound owner r.2)) Lost := by
  unfold recordReady
  have hgather : ETriple (Due owner (IsVisited bound owner visits)
      (Shown bound owner visits ∨ Waits bound owner visits ready))
      (gatherReady env bound ready ∅) _ Lost :=
    gatherReady_keys hkeys (by simp)
  refine ETriple.bind hgather fun readyMap => ETriple.assume fun hmap => ?_
  refine ETriple.bind ((visitEach_due fuel (fairnessOrder set request)
    ⟨visits, budget, readyMap⟩).strengthen fun w h => h.mono (Or.imp_right ?_)) fun rec => ?_
  · rintro ⟨entry, hentry, hevent, hfresh, hbind⟩
    refine ⟨entry.1, mem_fairnessOrder.mpr ?_, entry.2, hmap.1 entry hentry, hevent, hfresh, hbind⟩
    rw [← hlen]
    by_contra hout
    simp [List.getElem?_eq_none (not_lt.mp hout)] at hbind
  · refine ETriple.bind (calm_due.restoreEach bound rec.readyMap.toList) fun _ => ?_
    exact ETriple.pure fun w h => h

/-- Each bind that has nothing ready is polled, and what it yields waits at its slot. -/
theorem extendReadyRefs_due {refs : List (Nat × β)}
    (hrefs : ∀ r ∈ refs, bound[r.1]?.join = some r.2) {ready : List (Nat × Observation)}
    (hkeys : (ready.map Prod.fst).Nodup) :
    Triple
      (Due owner (IsVisited bound owner visits) (p ∨ Waits bound owner visits ready))
      (extendReadyRefs env refs ready)
      fun ready w => (ready.map Prod.fst).Nodup ∧
        Due owner (IsVisited bound owner visits) (p ∨ Waits bound owner visits ready) w := by
  induction refs generalizing ready with
  | nil => exact Triple.pure fun w h => ⟨hkeys, h⟩
  | cons entry rest ih =>
    obtain ⟨idx, bind⟩ := entry
    have hrest := fun r hr => hrefs r (List.mem_cons_of_mem _ hr)
    have hbind : bound[idx]?.join = some bind := hrefs (idx, bind) List.mem_cons_self
    unfold extendReadyRefs
    split
    · exact ih hrest hkeys
    · next hnone =>
      refine Triple.bind (pollReady_due bind) ?_
      rintro (_ | obs)
      · exact ih hrest hkeys
      · have hkeys' : ((ready ++ [(idx, obs)]).map Prod.fst).Nodup := by
          simp only [List.map_append, List.map_cons, List.map_nil, List.nodup_append_comm]
          refine List.nodup_cons.mpr ⟨fun hmem => hnone ?_, hkeys⟩
          obtain ⟨q, hq, hsame⟩ := List.mem_map.mp hmem
          exact List.any_eq_true.mpr ⟨q, hq, by simpa using hsame⟩
        refine (ih hrest hkeys').strengthen fun w h => h.mono ?_
        rintro ((hold | ⟨entry, hentry, hwaits⟩) | ⟨hnew, rfl, hevent⟩)
        · exact Or.inl hold
        · exact Or.inr ⟨entry, List.mem_append_left _ hentry, hwaits⟩
        · exact Or.inr ⟨(idx, obs), by simp, hevent, fun hmem => hnew ⟨idx, hmem, hbind⟩, hbind⟩

/-! ## The races -/

/-- A race of `next` futures has taken an event of the bind, whose arm has no visit. -/
def Taken (owner : β) (v : Prop) (values : List ((Nat × β) × Observation)) : Prop :=
  ∃ t ∈ values, Fresh owner v t.1.2 t.2

variable (owner v p) in
/-- The observation race takes what it may from each bind. -/
theorem nextDue (env : Env σ β φ ψ) :
    FirstReady.Owning Prod.fst Borrows (pollNextArm env)
      fun values => Due owner v (p ∨ Taken owner v values) where
  reorder := by
    intro values values' w _ hperm h
    refine h.mono (Or.imp_right ?_)
    rintro ⟨t, ht, hfresh⟩
    exact ⟨t, hperm.mem_iff.mp ht, hfresh⟩
  poll := by
    rintro ⟨slot, bind⟩ ⟨bind', fut⟩ values hborrows
    obtain rfl : bind' = bind := hborrows
    refine Triple.bind (pollNext_due bind' fut) ?_
    rintro ((err | obs) | _)
    · exact Triple.pure fun w h => h
    · refine Triple.pure fun w h => h.mono ?_
      rintro ((hold | ⟨t, ht, hfresh⟩) | hfresh)
      · exact Or.inl hold
      · exact Or.inr ⟨t, List.mem_append_left _ ht, hfresh⟩
      · exact Or.inr ⟨((slot, bind'), obs), by simp, hfresh⟩
    · exact Triple.pure fun w h => ⟨rfl, h⟩

/-- What a race hands over waits at the slots of its binds. -/
theorem Taken.waits {pending : List (Nat × β)}
    (hpending : ∀ r ∈ pending, bound[r.1]?.join = some r.2) {ready : List (Nat × Observation)}
    (h : Taken owner (IsVisited bound owner visits)
      (FirstReady.handed (fun j => pending[j]?) ready)) :
    Waits bound owner visits (remapReady (pending.map Prod.fst) ready) := by
  obtain ⟨t, ht, hnew, hbind, hevent⟩ := h
  obtain ⟨⟨pos, obs⟩, hready, hlabel⟩ := List.mem_filterMap.mp ht
  obtain ⟨r, hr, rfl⟩ := Option.map_eq_some_iff.mp hlabel
  have hslot := hpending r (List.mem_of_getElem? hr)
  rw [hbind] at hslot
  refine ⟨(r.1, obs), mem_remapReady.mpr ⟨pos, hready, by simp [hr]⟩, hevent, ?_, hslot⟩
  exact fun hmem => hnew ⟨r.1, hmem, hslot⟩

/-- Calling `next` on each bind. -/
theorem nextEach_due (pending : List (Nat × β)) :
    Triple (Due owner v p) (nextEach env pending) fun futs w =>
      List.Forall₂ Borrows pending futs ∧ Due owner v p w := by
  induction pending with
  | nil => exact Triple.pure fun w h => ⟨List.Forall₂.nil, h⟩
  | cons r rest ih =>
    unfold nextEach
    have hnext : Triple (Due owner v p) (env.next r.2) fun fut w =>
        Borrows r fut ∧ Due owner v p w :=
      Triple.bind host_due fun _ => Triple.pure fun w h => ⟨rfl, h⟩
    refine Triple.bind hnext fun fut => Triple.assume fun hborrows => ?_
    exact Triple.bind ih fun futs => Triple.pure fun w h => ⟨List.Forall₂.cons hborrows h.1, h.2⟩

/-- The race has taken no event before its first poll. -/
theorem startObserving_due {pending : List (Nat × β)}
    {observing : Option (List (NextArm β ψ))} (hobserving : Observing pending observing) :
    Triple (Due owner v p) (startObserving env pending observing) fun arms w =>
      FirstReady.ArmsGood Borrows pending arms ∧
        Due owner v (p ∨ Taken owner v (FirstReady.armsHeld pending arms)) w := by
  cases observing with
  | some arms => exact Triple.pure fun w h => ⟨hobserving.1, h.mono Or.inl⟩
  | none =>
    refine Triple.bind (nextEach_due pending) fun futs => Triple.pure fun w h => ?_
    exact ⟨FirstReady.armsGood_new h.1, h.2.mono Or.inl⟩

/-- A signal that does not end a race is no event. -/
theorem not_taken_idle {values : List ((Nat × β) × Observation)}
    (hidle : ∀ t ∈ values, observationIsTerminal t.2 = false) : ¬Taken owner v values := by
  rintro ⟨⟨r, obs⟩, ht, -, -, hevent⟩
  have hterminal := hidle _ ht
  cases obs <;> simp_all [observationIsTerminal, observationIsReplayable]

/-- **One poll of the observation race**: what it took waits, or it took no event. -/
theorem pollObservePending_due {pending : List (Nat × β)}
    (hpending : ∀ r ∈ pending, bound[r.1]?.join = some r.2)
    (hkeys : (pending.map Prod.fst).Nodup) {observing : Option (List (NextArm β ψ))}
    (hobserving : Observing pending observing) :
    Triple (Due owner (IsVisited bound owner visits) p) (pollObservePending env pending observing)
      fun r w => match r.2 with
        | none => Observing pending r.1 ∧ Due owner (IsVisited bound owner visits) p w
        | some out =>
          Due owner (IsVisited bound owner visits) (p ∨ Waits bound owner visits out.ready) w := by
  unfold pollObservePending
  split
  · exact Triple.pure fun w h => ⟨hobserving, h⟩
  · refine Triple.bind (startObserving_due hobserving) fun arms => Triple.assume fun hgood => ?_
    have hpoll := FirstReady.poll_spec (nextDue owner (IsVisited bound owner visits) p env)
      observationIsTerminal hkeys hgood
    refine Triple.bind hpoll ?_
    rintro ⟨arms', out⟩
    cases out with
    | none =>
      refine Triple.pure fun w h => ⟨h.2, h.1.mono ?_⟩
      exact fun hor => hor.resolve_right (not_taken_idle h.2.2)
    | some out =>
      refine Triple.bind (FirstReady.drop_spec calm_due.dropNext arms' |>.strengthen
        fun w h => h.1) fun _ => Triple.pure fun w h => ?_
      exact h.mono (Or.imp_right (Taken.waits hpending))

/-- **One poll of the bind race** dequeues nothing. -/
theorem pollBindUnbound_due (unbound : List Nat) (arms : List (Arm (BindOne φ) β)) :
    Triple (Due owner v p) (pollBindUnbound env request unbound arms) fun _ =>
      Due owner v p := by
  have hrecord : ∀ bind : β, Triple (Due owner v p) (env.recordResolved bind) fun _ =>
      Due owner v p := by
    rintro bind w h _ _ ⟨⟩
    exact h
  have haccept : ∀ (registration : Registration) (bind : β), Triple (Due owner v p)
      (acceptBind env request registration bind) fun _ => Due owner v p := by
    intro registration bind
    unfold acceptBind
    split
    · split
      · exact Triple.pure fun w h => h
      · exact Triple.bind (hrecord bind) fun _ => Triple.pure fun w h => h
    · exact Triple.bind (hrecord bind) fun _ => Triple.pure fun w h => h
  have hpoll : ∀ (registration : Registration) (fut : φ), Triple (Due owner v p)
      (pollBinding env request registration fut) fun _ => Due owner v p := by
    intro registration fut
    refine Triple.bind host_due ?_
    rintro ((err | bind) | _)
    · exact Triple.pure fun w h => h
    · exact Triple.bind (haccept registration bind) fun _ => Triple.pure fun w h => h
    · exact Triple.pure fun w h => h
  have hone : ∀ fut, Triple (Due owner v p) (pollBindOne env request fut) fun _ =>
      Due owner v p := by
    intro fut
    cases fut with
    | start registration => exact Triple.bind host_due fun fut => hpoll registration fut
    | binding registration fut => exact hpoll registration fut
  unfold pollBindUnbound
  split
  · exact Triple.pure fun w h => h
  · refine Triple.bind (FirstReady.poll_keeps hone (fun _ => true) arms) ?_
    rintro ⟨arms', out⟩
    cases out with
    | none => exact Triple.pure fun w h => h
    | some out => exact Triple.bind (calm_due.dropBinding arms') fun _ => Triple.pure fun w h => h

/-- What the winner of the `select!` of an observing cycle has taken waits. -/
def SelectedDue (bound : List (Option β)) (owner : β) (visits : Visits) (p : Prop) :
    Selected (FirstReadyOutput Observation ⊕ FirstReadyOutput β) → World σ β → Prop
  | .collected (.inl out) =>
    Due owner (IsVisited bound owner visits) (p ∨ Waits bound owner visits out.ready)
  | _ => Due owner (IsVisited bound owner visits) p

/-- **The `select!` of an observing cycle**: the losers are dropped with no event in them. -/
theorem selectObserving_due {pending : List (Nat × β)}
    (hpending : ∀ r ∈ pending, bound[r.1]?.join = some r.2)
    (hkeys : (pending.map Prod.fst).Nodup) (unbound : List Nat) (waitUntil : Timestamp)
    (fuel : Nat) {observing : Option (List (NextArm β ψ))}
    (hobserving : Observing pending observing) (binding : List (Arm (BindOne φ) β)) :
    Triple (Due owner (IsVisited bound owner visits) p)
      (selectObserving env request pending unbound waitUntil fuel observing binding)
      (SelectedDue bound owner visits p) := by
  induction fuel generalizing observing binding with
  | zero => exact Triple.exhausted
  | succ fuel ih =>
    unfold selectObserving
    refine Triple.bind (pollObservePending_due hpending hkeys hobserving) ?_
    rintro ⟨observing', observed⟩
    cases observed with
    | some collected =>
      exact Triple.bind (calm_due.dropBinding binding) fun _ => Triple.pure fun w h => h
    | none =>
      refine Triple.assume fun hobserving' => ?_
      refine Triple.bind (pollBindUnbound_due unbound binding) ?_
      rintro ⟨binding', collected⟩
      cases collected with
      | some collected =>
        exact Triple.bind (calm_due.dropObserving observing') fun _ => Triple.pure fun w h => h
      | none =>
        have hgiveUp : ∀ {winner : Selected (FirstReadyOutput Observation ⊕ FirstReadyOutput β)},
            (∀ w : World σ β, Due owner (IsVisited bound owner visits) p w →
              SelectedDue bound owner visits p winner w) →
            Triple (Due owner (IsVisited bound owner visits) p)
              (do
                dropObserving env observing'
                FirstReady.drop (dropBindOne env) binding'
                return winner)
              (SelectedDue bound owner visits p) := by
          intro winner hwinner
          refine Triple.bind (calm_due.dropObserving observing') fun _ => ?_
          exact Triple.bind (calm_due.dropBinding binding') fun _ => Triple.pure hwinner
        refine Triple.bind calm_due.isCancelled ?_
        rintro (_ | _)
        · refine Triple.bind (calm_due.sleepUntil waitUntil) ?_
          rintro (_ | _)
          · exact Triple.bind calm_due.park fun _ => ih hobserving' binding'
          · exact hgiveUp fun w h => h
        · exact hgiveUp fun w h => h

/-- **The `select!` of a cycle without a bind** dequeues nothing. -/
theorem selectBinding_due (unbound : List Nat) (waitUntil : Timestamp) (fuel : Nat)
    (binding : List (Arm (BindOne φ) β)) :
    Triple (Due owner v p) (selectBinding env request unbound waitUntil fuel binding)
      fun _ => Due owner v p := by
  induction fuel generalizing binding with
  | zero => exact Triple.exhausted
  | succ fuel ih =>
    unfold selectBinding
    refine Triple.bind (pollBindUnbound_due unbound binding) ?_
    rintro ⟨binding', collected⟩
    cases collected with
    | some collected => exact Triple.pure fun w h => h
    | none =>
      refine Triple.bind calm_due.isCancelled ?_
      rintro (_ | _)
      · refine Triple.bind (calm_due.sleepUntil waitUntil) ?_
        rintro (_ | _)
        · exact Triple.bind calm_due.park fun _ => ih binding'
        · exact Triple.bind (calm_due.dropBinding binding') fun _ => Triple.pure fun w h => h
      · exact Triple.bind (calm_due.dropBinding binding') fun _ => Triple.pure fun w h => h

/-! ## The loop -/

/-- **The account between turns**: only visits settle what was seen in time. -/
def CycleDue (owner : β) (cycle : Cycle β) : World σ β → Prop :=
  Due owner (IsVisited cycle.bound owner cycle.visits) (Shown cycle.bound owner cycle.visits)

/-- After a turn that does not fail, only visits settle what was seen in time. -/
def TurnDue (owner : β) (r : Cycle β × Option Decision) (w : World σ β) : Prop :=
  (∃ err, r.2 = some (.fault err)) ∨ CycleDue owner r.1 w

/-- Binds stored at slots without a visit leave the account of the visits as it is. -/
theorem Due.storeBinds {bound' : List (Option β)}
    (hkeep : ∀ slot ∈ visits, bound[slot]?.join = bound'[slot]?.join)
    (h : Due owner (IsVisited bound owner visits) (Shown bound owner visits) w) :
    Due owner (IsVisited bound' owner visits) (Shown bound' owner visits) w := by
  refine ⟨?_, fun hseen => ?_⟩
  · rintro ⟨idx, hidx, hbind⟩
    exact h.1 ⟨idx, hidx, (hkeep idx hidx).trans hbind⟩
  · obtain ⟨idx, visit, hvisit, howns, hbind⟩ := h.2 hseen
    refine ⟨idx, visit, hvisit, howns, (hkeep idx ?_).symm.trans hbind⟩
    rw [Std.ExtTreeMap.mem_iff_isSome_getElem?, hvisit]
    rfl

theorem snapshot_due :
    Triple (Due owner v p : World σ β → Prop) snapshot fun _ => Due owner v p := by
  rintro w h _ _ ⟨⟩
  exact h

variable {cycle : Cycle β} {ids : List IdToken}

variable (cycle) in
theorem recordAndCheck_due (hlen : cycle.bound.length = set.registrations.length) (fuel : Nat)
    {ready : List (Nat × Observation)} (hkeys : (ready.map Prod.fst).Nodup)
    (starts : List ResolvedStart) :
    ETriple
      (Due owner (IsVisited cycle.bound owner cycle.visits)
        (Shown cycle.bound owner cycle.visits ∨ Waits cycle.bound owner cycle.visits ready))
      (recordAndCheck env set request fuel cycle ready starts) (TurnDue owner) Lost := by
  unfold recordAndCheck
  refine ETriple.bind (recordReady_due hlen fuel cycle.budget hkeys) ?_
  rintro ⟨budget, visits⟩
  dsimp only
  split
  · refine ETriple.bind (ETriple.lift calm_due.now) fun now => ?_
    exact ETriple.pure fun w h => Or.inr h
  · exact ETriple.pure fun w h => Or.inr h

/-- The handler of a bind race asks every bind there is. -/
theorem onBound_due (fuel : Nat) {collected : FirstReadyOutput β}
    (hlen : cycle.bound.length = set.registrations.length)
    (hkeep : ∀ slot ∈ cycle.visits,
      cycle.bound[slot]?.join = (storeBinds cycle.bound collected.ready)[slot]?.join) :
    ETriple (CycleDue owner cycle) (onBound env set request fuel cycle collected)
      (TurnDue owner) Lost := by
  unfold onBound
  cases collected.error with
  | some err => exact ETriple.pure fun w h => Or.inl ⟨err, rfl⟩
  | none =>
    set bound := storeBinds cycle.bound collected.ready
    have hextend : Triple (Due owner (IsVisited bound owner cycle.visits)
        (Shown bound owner cycle.visits ∨ Waits bound owner cycle.visits []))
        (extendReadyRefs env (occupiedRefs bound) []) _ :=
      extendReadyRefs_due (fun r hr => (mem_pendingRefs.mp hr).2) List.nodup_nil
    refine ETriple.bind ((ETriple.lift hextend).strengthen fun w h =>
      (Due.storeBinds hkeep h).mono Or.inl) fun ready => ETriple.assume fun hkeys => ?_
    refine recordAndCheck_due ⟨bound, _, cycle.visits, cycle.budget⟩ ?_ fuel hkeys _
    simpa [bound] using hlen

/-- The handler of an observation race. -/
theorem onObserved_due (hlen : cycle.bound.length = set.registrations.length) (fuel : Nat)
    {pending : List (Nat × β)} (hpending : ∀ r ∈ pending, cycle.bound[r.1]?.join = some r.2)
    (starts : List ResolvedStart) {collected : FirstReadyOutput Observation}
    (hkeys : (collected.ready.map Prod.fst).Nodup) :
    ETriple
      (Due owner (IsVisited cycle.bound owner cycle.visits)
        (Shown cycle.bound owner cycle.visits ∨
          Waits cycle.bound owner cycle.visits collected.ready))
      (onObserved env set request fuel cycle pending starts collected) (TurnDue owner) Lost := by
  unfold onObserved
  cases collected.error with
  | some err =>
    refine ETriple.bind (R := fun _ _ => True) (fun _ _ r _ _ => ?_) fun _ => ?_
    · cases r <;> trivial
    · exact ETriple.pure fun w h => Or.inl ⟨err, rfl⟩
  | none =>
    refine ETriple.bind (ETriple.lift (extendReadyRefs_due hpending hkeys)) fun ready =>
      ETriple.assume fun hkeys => ?_
    exact recordAndCheck_due cycle hlen fuel hkeys starts

theorem turnObserving_due (labelled : Labelled env) (hids : IdsOf ids set)
    (hok : CycleOk (labelLedger labelled ids) set cycle) (fuel : Nat)
    (starts : List ResolvedStart) :
    ETriple (CycleDue owner cycle) (turnObserving env set request fuel cycle starts)
      (TurnDue owner) Lost := by
  unfold turnObserving
  set order := fairnessOrder set request
  set pending := order.filter fun idx => (cycle.bound[idx]?.join).isSome && idx ∉ cycle.visits
  set unbound := order.filter fun idx => (cycle.bound[idx]?.join).isNone && idx ∉ cycle.visits
  have harms : TurnArms (labelLedger labelled ids) set cycle pending unbound :=
    turnArms hok request
  dsimp only
  split
  · refine ETriple.bind (ETriple.lift calm_due.now) fun now => ?_
    exact ETriple.pure fun w h => Or.inr h
  · have hnothing : Observing (pendingRefs cycle.bound pending)
        (none : Option (List (NextArm β ψ))) := trivial
    have hdue : Triple (CycleDue owner cycle)
        (selectObserving env request (pendingRefs cycle.bound pending) unbound
          (earliestDeadline request) fuel none (bindUnbound set request unbound)) _ :=
      selectObserving_due harms.refs.slots harms.refs.keys unbound (earliestDeadline request) fuel
        hnothing _
    refine ETriple.bind ((ETriple.lift ((harms.select hids [] [] fuel).and hdue)).strengthen
      fun w h => ⟨fun _ hitem => (nomatch hitem), h⟩) ?_
    rintro (⟨collected | collected⟩ | _ | _)
    · refine ETriple.fact (fun w h => h.1.1.1.keys) fun hkeys => ?_
      exact (onObserved_due hok.length fuel harms.refs.slots starts hkeys).strengthen fun w h => h.2
    · -- binds were collected: what was visited keeps its bind
      refine ETriple.fact (fun w h => h.1.1) fun hcollected => ?_
      have hkeep := (storeBinds_ok hok hcollected harms.new).2
      exact (onBound_due fuel hok.length hkeep).strengthen fun w h => h.2
    · refine ETriple.bind ((ETriple.lift calm_due.now).strengthen fun w h => h.2) fun now => ?_
      exact ETriple.pure fun w h => Or.inr h
    · refine ETriple.bind ((ETriple.lift calm_due.now).strengthen fun w h => h.2) fun now => ?_
      -- the wait ended: what is ready is taken once more and recorded
      have hextend : Triple (Due owner (IsVisited cycle.bound owner cycle.visits)
          (Shown cycle.bound owner cycle.visits ∨ Waits cycle.bound owner cycle.visits []))
          (extendReadyRefs env (pendingRefs cycle.bound pending) []) _ :=
        extendReadyRefs_due harms.refs.slots List.nodup_nil
      refine ETriple.bind ((ETriple.lift hextend).strengthen fun w h => h.mono Or.inl)
        fun ready => ETriple.assume fun hkeys => ?_
      refine ETriple.bind (recordReady_due hok.length fuel cycle.budget hkeys) ?_
      rintro ⟨budget, visits⟩
      exact ETriple.pure fun w h => Or.inr h

theorem turnBinding_due (labelled : Labelled env) (hids : IdsOf ids set)
    (hok : CycleOk (labelLedger labelled ids) set cycle) (hnone : cycle.anyBound = false)
    (fuel : Nat) :
    ETriple (CycleDue owner cycle) (turnBinding env set request fuel cycle)
      (TurnDue owner) Lost := by
  unfold turnBinding
  have hselect : Triple ((labelLedger labelled ids).own [] [])
      (selectBinding env request (fairnessOrder set request) _ fuel _) _ :=
    selectBinding_start _ hids [] [] fuel
  have hdue : Triple (CycleDue owner cycle)
      (selectBinding env request (fairnessOrder set request) (earliestDeadline request) fuel
        (bindUnbound set request (fairnessOrder set request))) _ :=
    selectBinding_due _ _ fuel _
  refine ETriple.bind ((ETriple.lift (hselect.and hdue)).strengthen fun w h =>
      ⟨fun _ hitem => (nomatch hitem), h⟩) ?_
  rintro (collected | _ | _)
  · refine ETriple.fact (fun w h => h.1.1 collected rfl) fun hcollected => ?_
    have hkeep := (storeBinds_ok hok hcollected fun slot _ => hok.unvisited hnone slot).2
    exact (onBound_due fuel hok.length hkeep).strengthen fun w h => h.2
  · refine ETriple.bind ((ETriple.lift calm_due.now).strengthen fun w h => h.2) fun now => ?_
    refine ETriple.bind (ETriple.lift snapshot_due) fun starts => ?_
    exact ETriple.pure fun w h => Or.inr h
  · refine ETriple.bind ((ETriple.lift calm_due.now).strengthen fun w h => h.2) fun now => ?_
    refine ETriple.bind (ETriple.lift snapshot_due) fun starts => ?_
    exact ETriple.pure fun w h => Or.inr h

/-- **One turn** leaves only visits to settle what was seen in time. -/
theorem turn_due (labelled : Labelled env) (hids : IdsOf ids set)
    (hok : CycleOk (labelLedger labelled ids) set cycle) (fuel : Nat) :
    ETriple (CycleDue owner cycle) (turn env set request fuel cycle) (TurnDue owner) Lost := by
  unfold turn
  refine ETriple.bind (ETriple.lift calm_due.isCancelled) ?_
  rintro (_ | _)
  · refine ETriple.bind (ETriple.lift snapshot_due) fun resolved => ?_
    refine ETriple.bind (ETriple.lift calm_due.now) fun now => ?_
    split
    · refine ETriple.bind (ETriple.lift calm_due.now) fun now => ?_
      exact ETriple.pure fun w h => Or.inr h
    · split
      · exact turnObserving_due labelled hids hok fuel _
      · next hnone => exact turnBinding_due labelled hids hok (by simpa using hnone) fuel
  · refine ETriple.bind (ETriple.lift calm_due.now) fun now => ?_
    refine ETriple.bind (ETriple.lift snapshot_due) fun starts => ?_
    exact ETriple.pure fun w h => Or.inr h

variable (owner) in
/-- **The run of the loop**, by induction on its turns. -/
theorem cycleLoop_due (labelled : Labelled env) (hids : IdsOf ids set) (fuel turns : Nat)
    (cycle : Cycle β) :
    ETriple
      (fun w => CycleOwn (labelLedger labelled ids) set cycle w ∧ CycleDue owner cycle w)
      (cycleLoop env set request fuel turns cycle)
      (fun r w => CycleOk (labelLedger labelled ids) set r.1 ∧
        ((∃ err, r.2 = .fault err) ∨ CycleDue owner r.1 w)) Lost := by
  induction turns generalizing cycle with
  | zero => exact ETriple.exhausted
  | succ turns ih =>
    unfold cycleLoop
    refine ETriple.fact (fun w h => h.1.1) fun hok => ?_
    have hcycle : ETriple (CycleOwn (labelLedger labelled ids) set cycle)
        (turn env set request fuel cycle) _ _ := turn_spec hids fuel cycle
    have hdue : ETriple (CycleDue owner cycle)
        (turn env set request fuel cycle) _ Lost := turn_due labelled hids hok fuel
    refine ETriple.bind ((hcycle.and hdue).conseq (fun _ h => h) (fun _ _ h => h)
      fun _ _ _ => trivial) ?_
    rintro ⟨cycle', _ | decision⟩
    · refine (ih cycle').strengthen fun w h => ⟨h.1, ?_⟩
      rcases h.2 with ⟨err, herr⟩ | hdue
      · cases herr
      · exact hdue
    · refine ETriple.pure fun w h => ⟨h.1.1, ?_⟩
      rcases h.2 with ⟨err, herr⟩ | hdue
      · exact Or.inl ⟨err, Option.some.inj herr⟩
      · exact Or.inr hdue

end PollCycle

end Account

namespace PollCycle

/-! ## What a quiet outcome says about its visits -/

variable {set : RegistrationSet} {request : PollCycleRequest} {visits : Visits}
  {outcome : PollCycleOutcome} {now : Timestamp} {resolved : List ResolvedStart}

/-- The kinds that report a clean quiet period. -/
def quietKinds : List OutcomeKind := [.noChange, .logicalDeadman]

/-- The visit lets a cycle end quiet. -/
def IsQuiet (required : Bool) : ArmVisit → Prop
  | .events found => found = []
  | .idle | .deferred => True
  | .outage _ | .cursorUncertain _ | .degraded _ => required = false
  | .saturated _ | .overflow | .failed _ => False

/-- An event of a required registration was refused. -/
def RefusedRequired (set : RegistrationSet) (visits : Visits) : Prop :=
  ∃ (idx : Nat) (registration : Registration), set.registrations[idx]? = some registration ∧
    registration.required = true ∧ visits[idx]? = some .deferred

/-- At `now` the visits leave nothing to report but quiet. -/
structure QuietAt (set : RegistrationSet) (request : PollCycleRequest) (visits : Visits)
    (now : Timestamp) : Prop where
  quiet : ∀ (idx : Nat) (registration : Registration) (visit : ArmVisit),
    set.registrations[idx]? = some registration → visits[idx]? = some visit →
      IsQuiet registration.required visit
  refused : RefusedRequired set visits → now ≥ request.logicalDeadline
  posture : postureRejects set request now = false

/-- The loop ends where there is nothing to report but quiet. -/
def QuietEnd (set : RegistrationSet) (request : PollCycleRequest) (visits : Visits) :
    Decision → Prop
  | .complete now _ => QuietAt set request visits now
  | .deadline now starts =>
    requiredBindingComplete set starts = true ∧ QuietAt set request visits now
  | .cancelled _ _ | .fault _ => False

/-- The fields of a tally whose kind is quiet. -/
theorem tally_kind_quiet {t : Tally} {atLogical : Bool}
    (h : (t.kind atLogical).1 ∈ quietKinds) :
    t.overflow = false ∧ t.dirty = false ∧ t.failed = none ∧ t.events = [] ∧
      t.truncated = false ∧ (t.deferredRequired = true → atLogical = true) := by
  obtain ⟨events, overflow, truncated, failed, dirty, deferred⟩ := t
  unfold Tally.kind quietKinds at h
  cases overflow <;> cases dirty <;> cases failed <;> cases truncated <;> cases deferred <;>
    cases atLogical <;> cases events <;> simp_all

/-- A tally of a quiet kind counts quiet visits. -/
theorem quietVisits_of_tally (hoverflow : (tally set request visits).overflow = false)
    (hdirty : (tally set request visits).dirty = false)
    (hfailed : (tally set request visits).failed = none)
    (hevents : (tally set request visits).events = [])
    (htruncated : (tally set request visits).truncated = false) {idx : Nat}
    {registration : Registration} {visit : ArmVisit}
    (hregistration : set.registrations[idx]? = some registration)
    (hvisit : visits[idx]? = some visit) : IsQuiet registration.required visit := by
  have hmem : (registration, some visit) ∈ visited set request visits :=
    mem_visited.mpr ⟨idx, hregistration, hvisit⟩
  have hfailed : (tally set request visits).failed.isSome = false := by rw [hfailed]; rfl
  rw [tally_overflow, List.any_eq_false] at hoverflow
  rw [tally_dirty, List.any_eq_false] at hdirty
  rw [tally_failed, List.any_eq_false] at hfailed
  rw [tally_truncated, List.any_eq_false] at htruncated
  rw [tally_events, List.flatMap_eq_nil_iff] at hevents
  have h := And.intro (hoverflow _ hmem) (And.intro (hdirty _ hmem)
    (And.intro (hfailed _ hmem) (And.intro (htruncated _ hmem) (hevents _ hmem))))
  cases visit <;>
    simp_all [IsQuiet, heldEvents, ArmVisit.held, ArmVisit.isDirty, ArmVisit.isFailed,
      ArmVisit.isSaturated]

/-- An outcome that posture leaves quiet was built quiet, and posture had nothing against it. -/
theorem applyPosture_quiet {built : PollCycleOutcome}
    (h : (applyPosture set request built).outcomeKind ∈ quietKinds) :
    built.outcomeKind ∈ quietKinds ∧ postureRejects set request built.completedAt = false := by
  unfold applyPosture at h
  split at h
  · next hrejects =>
    exfalso
    cases hkind : built.outcomeKind <;>
      simp_all [OutcomeKind.rejects, quietKinds]
  · split at h
    · exact absurd h (by simp [rebuildReason, quietKinds])
    · next hlease =>
      split at h
      · exact absurd h (by simp [rebuildReason, quietKinds])
      · next hauthn => exact ⟨h, by simp_all [postureRejects]⟩

/-- `assemble` ends quiet on quiet visits only. -/
theorem assemble_quiet (h : assemble set request now resolved visits = .ok outcome)
    (hquiet : outcome.outcomeKind ∈ quietKinds) : QuietAt set request visits now := by
  obtain ⟨built, hbuild, rfl⟩ := assemble_eq_ok h
  obtain ⟨hkind, hcompleted, -⟩ := build_parts hbuild
  obtain ⟨hbuilt, hposture⟩ := applyPosture_quiet hquiet
  rw [hkind] at hbuilt
  rw [hcompleted] at hposture
  obtain ⟨hoverflow, hdirty, hfailed, hevents, htruncated, hdeferred⟩ := tally_kind_quiet hbuilt
  refine ⟨fun _ _ _ hregistration hvisit => ?_, ?_, hposture⟩
  · exact quietVisits_of_tally hoverflow hdirty hfailed hevents htruncated hregistration hvisit
  · rintro ⟨idx, registration, hregistration, hrequired, hvisit⟩
    refine of_decide_eq_true (hdeferred ?_)
    rw [tally_deferredRequired]
    refine List.any_eq_true.mpr
      ⟨(registration, some .deferred), mem_visited.mpr ⟨idx, hregistration, hvisit⟩, ?_⟩
    simp [hrequired]

/-- A forced end is not quiet. -/
theorem finish_forced_not_quiet {forced : String}
    (h : finish set request now resolved visits (some forced) = .ok outcome) :
    outcome.outcomeKind ∉ quietKinds := by
  unfold finish at h
  dsimp only at h
  cases hbuild : build set request now resolved visits
      (if forced == "consumer_cancelled" then .cancelled else .failed) (some forced) with
  | error err =>
    rw [hbuild] at h
    cases h
  | ok built =>
    rw [hbuild] at h
    obtain rfl := Except.ok.inj h
    intro hquiet
    have hbuilt := (applyPosture_quiet hquiet).1
    rw [(build_parts hbuild).1] at hbuilt
    split at hbuilt <;> simp [quietKinds] at hbuilt

/-- What a deadline fills in takes nothing away from the visits there are. -/
theorem QuietAt.of_deadlineVisits (h : QuietAt set request (deadlineVisits set request visits) now) :
    QuietAt set request visits now := by
  have hkeep : ∀ {idx : Nat} {visit : ArmVisit}, visits[idx]? = some visit →
      (deadlineVisits set request visits)[idx]? = some visit := by
    intro idx visit hvisit
    rw [deadlineVisits_lookup, hvisit]
    rfl
  refine ⟨fun idx registration visit hregistration hvisit =>
    h.quiet idx registration visit hregistration (hkeep hvisit), ?_, h.posture⟩
  rintro ⟨idx, registration, hregistration, hrequired, hvisit⟩
  exact h.refused ⟨idx, registration, hregistration, hrequired, hkeep hvisit⟩

/-- **A cycle ends quiet** only where there is nothing to report but quiet. -/
theorem decision_quiet {decision : Decision}
    (h : decision.outcome set request visits = .ok outcome)
    (hquiet : outcome.outcomeKind ∈ quietKinds) : QuietEnd set request visits decision := by
  cases decision with
  | cancelled now starts => exact finish_forced_not_quiet h hquiet
  | complete now starts => exact assemble_quiet h hquiet
  | deadline now starts =>
    have h : decideAtDeadline set request now starts visits = .ok outcome := h
    unfold decideAtDeadline at h
    cases hbound : requiredBindingComplete set starts with
    | false =>
      rw [hbound] at h
      exact absurd hquiet (finish_forced_not_quiet h)
    | true =>
      rw [hbound] at h
      exact ⟨hbound, (assemble_quiet h hquiet).of_deadlineVisits⟩
  | fault err => cases h

/-! ## Runs -/

variable {env : Env σ β φ ψ}

/-- The bind is one of a required registration of the set. -/
def RequiredBind (env : Env σ β φ ψ) (set : RegistrationSet) (owner : β) : Prop :=
  env.registrationId owner ∈ set.registrations.map Registration.registrationId ∧
    ∀ registration ∈ set.registrations,
      registration.registrationId = env.registrationId owner → registration.required = true

/-- **Where a cycle hides what it has seen**: it has nothing to report but quiet, and either an
event of a required registration was refused, by then at the logical deadline, or one came after
the visit of its arm. -/
def HidesSeen (env : Env σ β φ ψ) (set : RegistrationSet) (request : PollCycleRequest)
    (visits : Visits) (decision : Decision) (log : List (Call β)) : Prop :=
  QuietEnd set request visits decision ∧
    (RefusedRequired set visits ∨ ∃ owner, RequiredBind env set owner ∧ SeenLate owner log)

/-- The visits of a quiet end. -/
theorem QuietEnd.isQuiet {decision : Decision} (h : QuietEnd set request visits decision)
    {idx : Nat} {registration : Registration} {visit : ArmVisit}
    (hregistration : set.registrations[idx]? = some registration)
    (hvisit : visits[idx]? = some visit) : IsQuiet registration.required visit := by
  cases decision with
  | complete now starts => exact h.quiet idx registration visit hregistration hvisit
  | deadline now starts => exact h.2.quiet idx registration visit hregistration hvisit
  | cancelled now starts => cases h
  | fault err => cases h

/-- A visit that owns up to an event of a required arm, and yet ends quiet, is deferred. -/
theorem refused_of_shown {ids : List IdToken} (hids : IdsOf ids set)
    {bound : List (Option β)} (hseated : LabelledSlots env ids bound) {owner : β}
    (hrequired : RequiredBind env set owner) {decision : Decision}
    (hquiet : QuietEnd set request visits decision) (hshown : Shown bound owner visits) :
    RefusedRequired set visits := by
  obtain ⟨idx, visit, hvisit, howns, hbind⟩ := hshown
  have hlabel := hseated idx owner hbind
  rw [hids, List.getElem?_map, Option.map_eq_some_iff] at hlabel
  obtain ⟨registration, hregistration, hid⟩ := hlabel
  have hmine := hrequired.2 registration (List.mem_of_getElem? hregistration) hid
  have hvisitQuiet := hquiet.isQuiet hregistration hvisit
  cases visit with
  | deferred => exact ⟨idx, registration, hregistration, hmine, hvisit⟩
  | events found => exact absurd hvisitQuiet howns
  | saturated found => cases hvisitQuiet
  | _ => cases howns

/-- **An event of a required registration that a cycle has seen is not reported as quiet**, unless
the loop ends where the cycle hides it. -/
theorem seen_event_reported (labelled : Labelled env) (fuel : Nat) {w w' : World σ β}
    (hlog : w.log = [])
    (hrun : (runPollCycle env set request fuel).run w = some (.ok outcome, w')) :
    ∃ cycle decision w₁,
      (cycleLoop env set request fuel fuel (Cycle.new set request)).run { w with resolved := [] }
        = some (.ok (cycle, decision), w₁) ∧
      (¬HidesSeen env set request cycle.visits decision w'.log →
        ∀ owner, RequiredBind env set owner → ∀ entry ∈ w'.log, entry.TakesEvent owner →
          outcome.outcomeKind ∉ quietKinds) := by
  obtain ⟨cycle, decision, w₁, hloop, hemit⟩ := runPollCycle_loop hrun
  refine ⟨cycle, decision, w₁, hloop, ?_⟩
  intro hshows owner hrequired entry hentry htakes hquiet
  have houtcome := emit_eq_ok hemit
  have hend : QuietEnd set request cycle.visits decision := decision_quiet houtcome hquiet
  -- the account of the bind through the loop, and through the restores behind it
  have hspec : ETriple _ (cycleLoop env set request fuel fuel (Cycle.new set request)) _ Lost :=
    cycleLoop_due owner labelled rfl fuel fuel (Cycle.new set request)
  have hstart : CycleDue owner (Cycle.new set request : Cycle β) { w with resolved := [] } := by
    refine ⟨?_, fun hseen => absurd hseen ?_⟩
    · rintro ⟨idx, hidx, -⟩
      exact absurd hidx Std.ExtTreeMap.not_mem_empty
    · show ¬SeenInTime owner w.log
      rw [hlog]
      exact not_seenInTime_nil owner
  obtain ⟨hok, hdue⟩ := hspec _ ⟨cycleNew_own fun _ hitem => (nomatch hitem), hstart⟩ _ w₁ hloop
  have hdue : CycleDue owner cycle w₁ := by
    rcases hdue with ⟨err, herr⟩ | hdue
    · dsimp only at herr
      rw [herr] at hend
      cases hend
    · exact hdue
  have hdue' : CycleDue owner cycle w' :=
    (calm_due.emit cycle.bound cycle.visits _ w₁ hdue _ w' hemit).2
  rcases seen_cases hentry htakes with hseen | hlate
  · exact hshows ⟨hend, Or.inl (refused_of_shown rfl hok.seated hrequired hend (hdue'.2 hseen))⟩
  · exact hshows ⟨hend, Or.inr ⟨owner, hrequired, hlate⟩⟩

open Case in
theorem seen_event_reported_pair :
    ∃ outcome w', (runPollCycle queueEnv pairSet (pollCycleRequest pairSet) 10).run
        (QueueHost.world pairWaiting (ts "2026-08-15T16:02:00Z") []) = some (.ok outcome, w') ∧
      ∃ cycle decision w₁,
        (cycleLoop queueEnv pairSet (pollCycleRequest pairSet) 10 10
          (Cycle.new pairSet (pollCycleRequest pairSet))).run
            { QueueHost.world pairWaiting (ts "2026-08-15T16:02:00Z") [] with resolved := [] }
          = some (.ok (cycle, decision), w₁) ∧
        (¬HidesSeen queueEnv pairSet (pollCycleRequest pairSet) cycle.visits decision w'.log →
          ∀ owner, RequiredBind queueEnv pairSet owner → ∀ entry ∈ w'.log, entry.TakesEvent owner →
            outcome.outcomeKind ∉ quietKinds) := by
  have hdone : (returned ((runPollCycle queueEnv pairSet (pollCycleRequest pairSet) 10).run
      (QueueHost.world pairWaiting (ts "2026-08-15T16:02:00Z") []))).any (fun _ => true) = true := by
    decide +kernel
  obtain ⟨outcome, w', hrun, -⟩ := exists_of_returned hdone
  exact ⟨outcome, w', hrun, seen_event_reported queueFifo.toLabelled 10 rfl hrun⟩

open Case in
/-- A required event above the byte bound of the request, in a cycle that completes as its logical
deadline is reached: the event goes back and the outcome is a clean deadman. -/
theorem refused_event_reported_quiet :
    ∃ outcome w', (runPollCycle queueEnv pairSet
        { pollCycleRequest pairSet with bound := some ⟨none, none, some 1⟩ } 10).run
        (QueueHost.world pairWaiting (ts "2026-08-15T16:02:00Z") [ts "2026-08-15T17:00:00Z"])
          = some (.ok outcome, w') ∧
      RequiredBind queueEnv pairSet ⟨"reg:a", anchor "anc:cursor-0"⟩ ∧
      .ready ⟨"reg:a", anchor "anc:cursor-0"⟩
        (.event (waitEvent "reg:a" "method:a" "evt:1" "2026-08-15T16:01:00Z")) ∈ w'.log ∧
      outcome.events = [] ∧ outcome.outcomeKind = .logicalDeadman ∧
      outcome.coverageComplete = true := by
  have hdone : ((runPollCycle queueEnv pairSet
      { pollCycleRequest pairSet with bound := some ⟨none, none, some 1⟩ } 10).run
      (QueueHost.world pairWaiting (ts "2026-08-15T16:02:00Z")
        [ts "2026-08-15T17:00:00Z"])).any (fun last =>
        decide (.ready ⟨"reg:a", anchor "anc:cursor-0"⟩
          (.event (waitEvent "reg:a" "method:a" "evt:1" "2026-08-15T16:01:00Z")) ∈ last.2.log) &&
          (success last.1).any fun outcome =>
            decide (outcome.events = [] ∧ outcome.outcomeKind = .logicalDeadman ∧
              outcome.coverageComplete = true)) = true := by
    decide +kernel
  obtain ⟨⟨result, w'⟩, hrun, hlast⟩ := exists_of_any hdone
  rw [Bool.and_eq_true] at hlast
  obtain ⟨outcome, hresult, hclean⟩ := exists_of_any hlast.2
  have hok : result = .ok outcome := success_eq_some hresult
  rw [hok] at hrun
  exact ⟨outcome, w', hrun, ⟨by decide, by decide⟩, of_decide_eq_true hlast.1,
    of_decide_eq_true hclean⟩

end PollCycle

end Waitprims
