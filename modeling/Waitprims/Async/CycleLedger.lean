import Mathlib
import Waitprims.Async.Ledger
import Waitprims.Async.RaceSpec
import Waitprims.Async.PollCycle

/-! # The poll cycle keeps every ledger

Between two turns a cycle owns exactly the events its visits hold. Every function of the runner has
one triple over an arbitrary ledger; the run lemma is the induction over the turns.

* **`visitItems`**, **`readyItems`** — what visits and collected observations own.
* **`CycleOwn`** — the invariant of the loop.
* **`cycleLoop_spec`**, **`emit_spec`**, **`runPollCycle_spec`** — a finished run owns nothing. -/

namespace Waitprims

namespace PollCycle

open Fueled

variable {σ β φ ψ γ : Type}

/-! ## Items placed at their slots -/

/-- The items of keyed entries, each at the bind of its slot. -/
def placed (f : Nat → β → γ → List (Item β)) (bound : List (Option β))
    (entries : List (Nat × γ)) : List (Item β) :=
  entries.flatMap fun p => match bound[p.1]?.join with
    | some bind => f p.1 bind p.2
    | none => []

/-- What visits hold. -/
def visitItems (bound : List (Option β)) (visits : List (Nat × ArmVisit)) : List (Item β) :=
  placed (fun idx bind visit => visit.held.map (.event idx bind)) bound visits

/-- What collected observations are. -/
def readyItems (mark : Nat → Mark) (bound : List (Option β)) (ready : List (Nat × Observation)) :
    List (Item β) :=
  placed (fun idx bind obs => [Item.of (mark idx) idx bind obs]) bound ready

/-- The marks of visited binds. -/
def visitMarks (bound : List (Option β)) (visits : Visits) : List (Mark × β) :=
  visits.toList.filterMap fun p => bound[p.1]?.join.map fun bind => (.visited, bind)

section placed

variable {f : Nat → β → γ → List (Item β)} {events : γ → List WaitEvent}
  {bound : List (Option β)}

theorem placed_cons (p : Nat × γ) (rest : List (Nat × γ)) :
    placed f bound (p :: rest) = placed f bound [p] ++ placed f bound rest := by
  simp [placed]

theorem placed_append (xs ys : List (Nat × γ)) :
    placed f bound (xs ++ ys) = placed f bound xs ++ placed f bound ys := by
  simp [placed]

theorem placed_singleton {idx : Nat} {bind : β} (h : bound[idx]?.join = some bind) (c : γ) :
    placed f bound [(idx, c)] = f idx bind c := by
  simp [placed, h]

theorem mem_placed {item : Item β} {entries : List (Nat × γ)} :
    item ∈ placed f bound entries ↔
      ∃ idx c bind, (idx, c) ∈ entries ∧ bound[idx]?.join = some bind ∧ item ∈ f idx bind c := by
  simp only [placed, List.mem_flatMap, Prod.exists]
  refine exists_congr fun idx => exists_congr fun c => ?_
  cases h : bound[idx]?.join with
  | none => simp
  | some bind => simp

/-- The events placed at a slot are those of the entries with its index. -/
theorem heldAt_placed
    (hf : ∀ slot idx bind c, heldAt slot (f idx bind c) = if idx = slot then events c else [])
    (slot : Nat) (entries : List (Nat × γ)) :
    heldAt slot (placed f bound entries) =
      if (bound[slot]?.join).isSome then
        (entries.filter fun p => p.1 = slot).flatMap fun p => events p.2
      else [] := by
  induction entries with
  | nil => simp [placed]
  | cons p rest ih =>
    rw [placed_cons, heldAt_append, ih]
    by_cases hp : p.1 = slot
    · subst hp
      cases hb : bound[p.1]?.join with
      | none => simp [placed, hb]
      | some bind => simp [placed, hb, hf]
    · have hnil : heldAt slot (placed f bound [p]) = [] := by
        cases hb : bound[p.1]?.join with
        | none => simp [placed, hb]
        | some bind => simp [placed, hb, hf, hp]
      simp [hnil, hp]

/-- Changing slots that have no entry changes nothing. -/
theorem placed_congr {bound' : List (Option β)} {entries : List (Nat × γ)}
    (h : ∀ p ∈ entries, bound[p.1]?.join = bound'[p.1]?.join) :
    placed f bound entries = placed f bound' entries := by
  unfold placed
  refine List.flatMap_congr fun p hp => ?_
  rw [h p hp]

end placed

/-- Events placed one by one at their own slot. -/
theorem heldAt_map_event (slot idx : Nat) (bind : β) (events : List WaitEvent) :
    heldAt slot (events.map (Item.event idx bind)) = if idx = slot then events else [] := by
  induction events with
  | nil => simp
  | cons e rest ih =>
    rw [List.map_cons, heldAt_event, ih]
    by_cases h : idx = slot <;> simp [h]

theorem heldAt_of (slot idx : Nat) (mark : Mark) (bind : β) (obs : Observation) :
    heldAt slot [Item.of mark idx bind obs] = if idx = slot then obs.events else [] := by
  cases obs <;> simp [Item.of, Observation.events]

theorem heldAt_visitItems (slot : Nat) (bound : List (Option β))
    (visits : List (Nat × ArmVisit)) :
    heldAt slot (visitItems bound visits) =
      if (bound[slot]?.join).isSome then
        (visits.filter fun p => p.1 = slot).flatMap fun p => p.2.held
      else [] :=
  heldAt_placed (fun slot idx bind visit => heldAt_map_event slot idx bind visit.held) slot visits

theorem heldAt_readyItems (slot : Nat) (mark : Nat → Mark) (bound : List (Option β))
    (ready : List (Nat × Observation)) :
    heldAt slot (readyItems mark bound ready) =
      if (bound[slot]?.join).isSome then
        (ready.filter fun p => p.1 = slot).flatMap fun p => p.2.events
      else [] :=
  heldAt_placed (fun slot idx bind obs => heldAt_of slot idx (mark idx) bind obs) slot ready

/-! ## Handing observations back -/

variable {env : Env σ β φ ψ} {ids : List IdToken} (ledger : Ledger env ids)
  {marks : List (Mark × β)} {items : List (Item β)} {bound : List (Option β)}

/-- Every occupied slot holds a bind that sits there. -/
def Seated (bound : List (Option β)) : Prop :=
  ∀ slot bind, bound[slot]?.join = some bind → ledger.seat slot bind

/-- The first of several entries with distinct indices may be moved to the end. -/
theorem own_rotate {f : Nat → β → γ → List (Item β)} {events : γ → List WaitEvent}
    (hf : ∀ slot idx bind c, heldAt slot (f idx bind c) = if idx = slot then events c else [])
    {p : Nat × γ} {rest : List (Nat × γ)} (hp : p.1 ∉ rest.map Prod.fst) {w : World σ β}
    (h : ledger.own marks (items ++ placed f bound (p :: rest)) w) :
    ledger.own marks (items ++ placed f bound rest ++ placed f bound [p]) w := by
  rw [placed_cons] at h
  refine ledger.reorder ?_ (fun slot => ?_) h
  · rw [List.append_assoc]
    exact List.Perm.append_left items List.perm_append_comm
  · have hone : heldAt slot (placed f bound [p]) = [] ∨ heldAt slot (placed f bound rest) = [] := by
      by_cases hslot : p.1 = slot
      · right
        have hnone : (rest.filter fun q => q.1 = slot) = [] := by
          rw [List.filter_eq_nil_iff]
          intro q hq hkey
          exact hp (List.mem_map.mpr ⟨q, hq, by simpa [hslot] using hkey⟩)
        rw [heldAt_placed hf, hnone]
        simp
      · left
        rw [heldAt_placed hf]
        simp [hslot]
    simp only [heldAt_append]
    rcases hone with hnil | hnil <;> simp [hnil]

variable {ledger} (marks items)

theorem restore_spec {slot : Nat} {bind : β} {mark : Mark} {obs : Observation}
    (hseat : ledger.seat slot bind) (hobs : observationIsReplayable obs ∨ MayReturn mark obs) :
    ETriple (ledger.own marks (items ++ [Item.of mark slot bind obs])) (restore env bind obs)
      (fun _ => ledger.own marks items) fun _ => ledger.broken := by
  refine (ledger.restore hseat hobs).weaken ?_
  rintro (err | u) w h
  · exact h
  · exact h

/-- Restoring to whatever bind a slot holds. -/
theorem restoreObservation_spec (hseat : Seated ledger bound) {slot : Nat} {mark : Nat → Mark}
    {obs : Observation} (hobs : observationIsReplayable obs ∨ MayReturn (mark slot) obs) :
    ETriple (ledger.own marks (items ++ readyItems mark bound [(slot, obs)]))
      (restoreObservation env bound[slot]?.join obs)
      (fun _ => ledger.own marks items) fun _ => ledger.broken := by
  cases hbind : bound[slot]?.join with
  | none => exact ETriple.pure fun w h => by simpa [readyItems, placed, hbind] using h
  | some bind =>
    rw [readyItems, placed_singleton hbind]
    exact restore_spec marks items (hseat slot bind hbind) hobs

/-- **Each observation goes back to the bind of its slot.** -/
theorem restoreEach_spec (hseat : Seated ledger bound) {mark : Nat → Mark}
    {ready : List (Nat × Observation)} (hkeys : (ready.map Prod.fst).Nodup)
    (hobs : ∀ p ∈ ready, observationIsReplayable p.2 ∨ MayReturn (mark p.1) p.2) :
    ETriple (ledger.own marks (items ++ readyItems mark bound ready)) (restoreEach env bound ready)
      (fun _ => ledger.own marks items) fun _ => ledger.broken := by
  induction ready with
  | nil => exact ETriple.pure fun w h => by simpa [readyItems, placed] using h
  | cons p rest ih =>
    rw [List.map_cons, List.nodup_cons] at hkeys
    have hfirst := restoreObservation_spec marks (items ++ readyItems mark bound rest) hseat
      (hobs p List.mem_cons_self)
    refine ETriple.bind (hfirst.strengthen fun w h => ?_) fun _ =>
      ih hkeys.2 fun q hq => hobs q (List.mem_cons_of_mem p hq)
    exact own_rotate ledger (fun slot idx bind obs => heldAt_of slot idx (mark idx) bind obs)
      hkeys.1 h

/-- Only events count among collected observations. -/
theorem flatMap_events_replayable (ready : List (Nat × Observation)) (slot : Nat) :
    ((ready.filter fun p => observationIsReplayable p.2).filter fun p => p.1 = slot).flatMap
        (fun p => p.2.events)
      = (ready.filter fun p => p.1 = slot).flatMap fun p => p.2.events := by
  induction ready with
  | nil => rfl
  | cons p rest ih =>
    obtain ⟨idx, obs⟩ := p
    cases obs <;> by_cases h : idx = slot <;>
      simpa [observationIsReplayable, Observation.events, h] using ih

variable {marks items} in
/-- Signals that will not be put back may be let go of. -/
theorem own_replayable {mark : Nat → Mark} {ready : List (Nat × Observation)} {w : World σ β}
    (h : ledger.own marks (items ++ readyItems mark bound ready) w) :
    ledger.own marks
      (items ++ readyItems mark bound (ready.filter fun p => observationIsReplayable p.2)) w := by
  refine ledger.settle (List.Subset.refl marks) ?_ (fun slot => ?_) h
  · refine List.append_subset.mpr ⟨List.subset_append_left _ _, fun item hitem => ?_⟩
    obtain ⟨idx, obs, bind, hmem, hrest⟩ := mem_placed.mp hitem
    exact List.mem_append_right _
      (mem_placed.mpr ⟨idx, obs, bind, (List.mem_filter.mp hmem).1, hrest⟩)
  · rw [heldAt_append, heldAt_append, heldAt_readyItems, heldAt_readyItems,
      flatMap_events_replayable]

theorem restoreOwnedObservations_spec (hseat : Seated ledger bound) {mark : Nat → Mark}
    {ready : List (Nat × Observation)} (hkeys : (ready.map Prod.fst).Nodup) :
    ETriple (ledger.own marks (items ++ readyItems mark bound ready))
      (restoreOwnedObservations env bound ready)
      (fun _ => ledger.own marks items) fun _ => ledger.broken := by
  have hsub : (ready.filter fun p => observationIsReplayable p.2).Sublist ready :=
    List.filter_sublist
  refine (restoreEach_spec marks items hseat (hkeys.sublist (hsub.map Prod.fst)) fun p hp => ?_).strengthen
    fun w h => own_replayable h
  exact Or.inl (by simpa using (List.mem_filter.mp hp).2)

/-- Events of one bind, newest first. -/
theorem restoreEvents_spec {slot : Nat} {bind : β} (hseat : ledger.seat slot bind)
    (events : List WaitEvent) :
    ETriple (ledger.own marks (items ++ events.reverse.map (Item.event slot bind)))
      (restoreEvents env bind events) (fun _ => ledger.own marks items) fun _ => ledger.broken := by
  induction events with
  | nil => exact ETriple.pure fun w h => by simpa using h
  | cons e rest ih =>
    have hfirst : ETriple (ledger.own marks
        (items ++ rest.reverse.map (Item.event slot bind) ++ [Item.of .fresh slot bind (.event e)]))
        (restore env bind (.event e)) _ _ := restore_spec marks _ hseat (Or.inl rfl)
    refine ETriple.bind (hfirst.strengthen fun w h => ?_) fun _ => ih
    simpa [Item.of] using h

/-- **What the visits hold goes back**, registration by registration. -/
theorem restoreVisits_spec (hseat : Seated ledger bound) {visits : List (Nat × ArmVisit)}
    (hkeys : (visits.map Prod.fst).Nodup) :
    ETriple (ledger.own marks (items ++ visitItems bound visits)) (restoreVisits env bound visits)
      (fun _ => ledger.own marks items) fun _ => ledger.broken := by
  induction visits with
  | nil => exact ETriple.pure fun w h => by simpa [visitItems, placed] using h
  | cons p rest ih =>
    obtain ⟨idx, visit⟩ := p
    rw [List.map_cons, List.nodup_cons] at hkeys
    unfold restoreVisits
    cases hbind : bound[idx]?.join with
    | none =>
      refine (ih hkeys.2).strengthen fun w h => ?_
      simpa [visitItems, placed, hbind] using h
    | some bind =>
      have hfirst := restoreEvents_spec marks (items ++ visitItems bound rest)
        (hseat idx bind hbind) visit.held.reverse
      refine ETriple.bind (hfirst.strengthen fun w h => ?_) fun _ => ih hkeys.2
      rw [List.reverse_reverse, ← placed_singleton (c := visit)
        (f := fun idx bind (visit : ArmVisit) => visit.held.map (Item.event idx bind)) hbind]
      exact own_rotate ledger
        (fun slot idx bind visit => heldAt_map_event slot idx bind visit.held) hkeys.1 h

/-- **Every exit of a cycle puts back what it admitted.** An error of the cycle wins over the
restore; otherwise a rejected restore is the only error. -/
theorem emit_spec (hseat : Seated ledger bound) (visits : Visits)
    (outcome : Except Error PollCycleOutcome) :
    ETriple (ledger.own marks (visitItems bound visits.toList)) (emit env bound visits outcome)
      (fun out w => outcome = .ok out ∧ ledger.own marks [] w)
      fun err w => outcome = .error err ∧ ledger.own marks [] w ∨ ledger.broken w := by
  have hrestore := restoreVisits_spec marks [] hseat
    (TreeMap.nodup_keys_toList visits)
  refine ETriple.bind (ETriple.lift hrestore) ?_
  rintro (err | u)
  · cases outcome with
    | ok out => exact ETriple.throw fun w h => Or.inr h
    | error err' => exact ETriple.throw fun w h => Or.inr h
  · cases outcome with
    | ok out => exact ETriple.pure fun w h => ⟨rfl, h⟩
    | error err' => exact ETriple.throw fun w h => Or.inl ⟨rfl, h⟩

/-! ## Visiting the arms that are ready -/

section visiting

variable {slot : Nat} {bind : β} (hseat : ledger.seat slot bind) (fuel : Nat)

include hseat

/-- **The drain** appends what it takes; a signal it meets late goes back. -/
theorem drainLoop_spec (hmark : (Mark.admitted, bind) ∈ marks) (budget : CollectBudget)
    (events : List WaitEvent) :
    ETriple (ledger.own marks (items ++ events.map (Item.event slot bind)))
      (drainLoop env bind fuel budget events)
      (fun r => ledger.own marks (items ++ r.2.2.map (Item.event slot bind)))
      fun _ => ledger.broken := by
  induction fuel generalizing budget events with
  | zero => exact ETriple.exhausted
  | succ fuel ih =>
    unfold drainLoop
    by_cases hroom : (!budget.roomForRegistration (env.registrationId bind)) = true
    · rw [if_pos hroom]
      exact ETriple.pure fun w h => h
    · rw [if_neg hroom]
      refine ETriple.bind (ETriple.lift (ledger.pollReady marks _ hseat (Or.inr hmark))) ?_
      rintro (_ | obs)
      · exact ETriple.pure fun w h => h
      · cases obs with
        | event event =>
          dsimp only
          cases budget.tryTake event with
          | none =>
            refine ETriple.bind (R := fun _ =>
              ledger.own marks (items ++ events.map (Item.event slot bind))) ?_ fun _ =>
              ETriple.pure fun w h => h
            exact restore_spec _ _ hseat (Or.inl rfl)
          | some budget =>
            refine (ih budget (events ++ [event])).strengthen fun w h => ?_
            simpa [Item.of] using h
        | overflow => exact ETriple.pure fun w h => ledger.release h
        | _ =>
          refine ETriple.bind (R := fun _ =>
            ledger.own marks (items ++ events.map (Item.event slot bind))) ?_ fun _ =>
            ETriple.pure fun w h => h
          exact restore_spec _ _ hseat (Or.inr (Or.inr ⟨rfl, by simp⟩))

theorem drainReady_spec (hmark : (Mark.admitted, bind) ∈ marks) (budget : CollectBudget)
    (events : List WaitEvent) :
    ETriple (ledger.own marks (items ++ events.map (Item.event slot bind)))
      (drainReady env bind fuel budget events)
      (fun r => ledger.own marks (items ++ r.2.2.map (Item.event slot bind)))
      fun _ => ledger.broken := by
  unfold drainReady
  split
  · exact ETriple.pure fun w h => h
  · exact drainLoop_spec marks items hseat fuel hmark budget events

/-- A deferred observation goes back and its visit holds nothing. -/
theorem deferReady_spec (mark : Mark) (event : WaitEvent) :
    ETriple (ledger.own marks (items ++ [Item.of mark slot bind (.event event)]))
      (deferReady env (some bind) (.event event))
      (fun visit w => visit = .deferred ∧ ledger.own marks items w) fun _ => ledger.broken :=
  ETriple.bind (restore_spec marks items hseat (Or.inl rfl)) fun _ => ETriple.pure fun _ h => ⟨rfl, h⟩

/-- An admitted event is held together with what the drain adds. -/
theorem visitAdmitted_spec (budget : CollectBudget) (event : WaitEvent) :
    ETriple (ledger.own marks (items ++ [.event slot bind event]))
      (visitAdmitted env (some bind) fuel budget event)
      (fun r => ledger.own marks (items ++ r.1.held.map (Item.event slot bind)))
      fun _ => ledger.broken := by
  refine ETriple.bind (ETriple.lift (ledger.markAdmitted marks _)) fun _ => ?_
  refine ETriple.bind (drainReady_spec ((.admitted, bind) :: marks) items hseat fuel List.mem_cons_self budget [event]) ?_
  rintro ⟨truncated, budget, events⟩
  refine ETriple.pure fun w h => ?_
  have h' := ledger.unmark (List.subset_cons_self _ _) h
  cases truncated with
  | true => exact h'
  | false => exact h'

/-- **One visit** turns an observation into what the visit holds. -/
theorem visitFrom_spec (budget : CollectBudget) (mark : Mark) (obs : Observation) :
    ETriple (ledger.own marks (items ++ [Item.of mark slot bind obs]))
      (visitFrom env (some bind) fuel budget obs)
      (fun r => ledger.own marks (items ++ r.1.held.map (Item.event slot bind)))
      fun _ => ledger.broken := by
  cases obs with
  | event event =>
    simp only [visitFrom]
    cases budget.tryTake event with
    | none =>
      refine ETriple.bind (deferReady_spec marks items hseat mark event) fun visit => ETriple.pure ?_
      rintro w ⟨rfl, h⟩
      simpa [ArmVisit.held] using h
    | some budget => exact visitAdmitted_spec marks items hseat fuel budget event
  | _ => exact ETriple.pure fun w h => by simpa [ArmVisit.held] using ledger.release h

theorem visitReady_spec (budget : CollectBudget) (mark : Mark) (obs : Observation) :
    ETriple (ledger.own marks (items ++ [Item.of mark slot bind obs]))
      (visitReady env (some bind) fuel budget obs)
      (fun r => ledger.own marks (items ++ r.1.held.map (Item.event slot bind)))
      fun _ => ledger.broken := by
  unfold visitReady
  split
  · next hdefer =>
    rw [Bool.and_eq_true] at hdefer
    cases obs with
    | event event =>
      refine ETriple.bind (deferReady_spec marks items hseat mark event) fun visit => ETriple.pure ?_
      rintro w ⟨rfl, h⟩
      simpa [ArmVisit.held] using h
    | _ => simp [observationIsReplayable] at hdefer
  · exact visitFrom_spec marks items hseat fuel budget mark obs

end visiting

variable {marks items}

/-- The mark of an observation collected when `visits` were recorded. -/
def markOf (visits : Visits) (slot : Nat) : Mark := if slot ∈ visits then .visited else .fresh

/-- Every visited slot is occupied. -/
def VisitsSeated (bound : List (Option β)) (visits : Visits) : Prop :=
  ∀ slot ∈ visits, (bound[slot]?.join).isSome

/-- The map of observations with distinct indices. -/
theorem gatherReady_eq {ready : List (Nat × Observation)} {readyMap : BTreeMap Nat Observation}
    (hkeys : (ready.map Prod.fst).Nodup) (hnew : ∀ p ∈ ready, p.1 ∉ readyMap) :
    gatherReady env bound ready readyMap
      = pure (ready.foldl (fun m p => m.insert p.1 p.2) readyMap) := by
  induction ready generalizing readyMap with
  | nil => rfl
  | cons p rest ih =>
    rw [List.map_cons, List.nodup_cons] at hkeys
    unfold gatherReady
    rw [if_neg (hnew p List.mem_cons_self)]
    refine ih hkeys.2 fun q hq => ?_
    have hne : p.1 ≠ q.1 := fun heq => hkeys.1 (List.mem_map.mpr ⟨q, hq, heq.symm⟩)
    simpa [Std.ExtTreeMap.mem_insert, hne] using hnew q (List.mem_cons_of_mem p hq)

/-- The events visits hold at a slot. -/
theorem heldAt_visits (slot : Nat) (visits : Visits) :
    heldAt slot (visitItems bound visits.toList) =
      if (bound[slot]?.join).isSome then (visits[slot]?.map ArmVisit.held).getD [] else [] := by
  rw [heldAt_visitItems, TreeMap.filter_toList]
  cases visits[slot]? <;> simp

/-- The events a map of observations holds at a slot. -/
theorem heldAt_readyMap (slot : Nat) (mark : Nat → Mark) (readyMap : BTreeMap Nat Observation) :
    heldAt slot (readyItems mark bound readyMap.toList) =
      if (bound[slot]?.join).isSome then (readyMap[slot]?.map Observation.events).getD []
      else [] := by
  rw [heldAt_readyItems, TreeMap.filter_toList]
  cases readyMap[slot]? <;> simp

/-- An observation about to be visited is the newest item. -/
theorem own_take {mark : Nat → Mark} {readyMap : BTreeMap Nat Observation} {idx : Nat}
    {obs : Observation} {bind : β} {w : World σ β} (hbind : bound[idx]?.join = some bind)
    (hobs : readyMap[idx]? = some obs)
    (h : ledger.own marks (items ++ readyItems mark bound readyMap.toList) w) :
    ledger.own marks (items ++ readyItems mark bound (readyMap.erase idx).toList
      ++ [Item.of (mark idx) idx bind obs]) w := by
  refine ledger.settle (List.Subset.refl marks) ?_ (fun slot => ?_) h
  · rintro item hitem
    rw [List.append_assoc, List.mem_append] at hitem
    refine List.mem_append.mpr (hitem.imp_right fun hitem => ?_)
    rcases List.mem_append.mp hitem with hitem | hitem
    · obtain ⟨k, obs', bind', hmem, hrest⟩ := mem_placed.mp hitem
      refine mem_placed.mpr ⟨k, obs', bind', ?_, hrest⟩
      rw [Std.ExtTreeMap.mem_toList_iff_getElem?_eq_some, TreeMap.lookup_erase] at hmem
      rw [Std.ExtTreeMap.mem_toList_iff_getElem?_eq_some]
      by_cases hk : idx = k
      · simp [hk] at hmem
      · simpa [hk] using hmem
    · refine mem_placed.mpr ⟨idx, obs, bind, ?_, hbind, hitem⟩
      exact Std.ExtTreeMap.mem_toList_iff_getElem?_eq_some.mpr hobs
  · rw [heldAt_append, heldAt_append, heldAt_append, List.append_assoc, heldAt_readyMap,
      heldAt_readyMap, heldAt_of, TreeMap.lookup_erase]
    by_cases hslot : idx = slot
    · subst hslot
      simp [hbind, hobs]
    · simp [hslot]

/-- The events a new visit holds are among the visits'. -/
theorem own_visited {other : List (Item β)} {visits : Visits} {idx : Nat} {visit : ArmVisit}
    {bind : β} {w : World σ β} (hbind : bound[idx]?.join = some bind) (hnew : idx ∉ visits)
    (hother : heldAt idx other = [])
    (h : ledger.own ((.visited, bind) :: visitMarks bound visits)
      (visitItems bound visits.toList ++ other ++ visit.held.map (Item.event idx bind)) w) :
    ledger.own (visitMarks bound (visits.insert idx visit))
      (visitItems bound (visits.insert idx visit).toList ++ other) w := by
  have hnone : visits[idx]? = none := by simpa using hnew
  refine ledger.settle ?_ ?_ (fun slot => ?_) h
  · rintro ⟨m, b⟩ hmem
    obtain ⟨⟨k, v⟩, hkv, heq⟩ := List.mem_filterMap.mp hmem
    rw [Std.ExtTreeMap.mem_toList_iff_getElem?_eq_some, TreeMap.lookup_insert] at hkv
    by_cases hk : idx = k
    · subst hk
      simp only [hbind, Option.map_some, Option.some.injEq] at heq
      rw [← heq]
      exact List.mem_cons_self
    · refine List.mem_cons_of_mem _ (List.mem_filterMap.mpr ⟨(k, v), ?_, heq⟩)
      rw [Std.ExtTreeMap.mem_toList_iff_getElem?_eq_some]
      simpa [hk] using hkv
  · rintro item hitem
    simp only [List.mem_append] at hitem ⊢
    rcases hitem with hitem | hitem
    · obtain ⟨k, v, b, hkv, hb, hin⟩ := mem_placed.mp hitem
      rw [Std.ExtTreeMap.mem_toList_iff_getElem?_eq_some, TreeMap.lookup_insert] at hkv
      by_cases hk : idx = k
      · subst hk
        obtain rfl : bind = b := by simpa [hbind] using hb
        obtain rfl : visit = v := by simpa using hkv
        exact Or.inr hin
      · refine Or.inl (Or.inl (mem_placed.mpr ⟨k, v, b, ?_, hb, hin⟩))
        rw [Std.ExtTreeMap.mem_toList_iff_getElem?_eq_some]
        simpa [hk] using hkv
    · exact Or.inl (Or.inr hitem)
  · simp only [heldAt_append, heldAt_visits, heldAt_map_event, TreeMap.lookup_insert]
    by_cases hslot : idx = slot
    · subst hslot
      simp [hbind, hnone, hother]
    · simp [hslot]

/-- What `visit_each` owns: the events of the visits and the observations not used yet. -/
def RecordingOwn (ledger : Ledger env ids) (bound : List (Option β)) (mark : Nat → Mark)
    (rec : Recording) : World σ β → Prop :=
  ledger.own (visitMarks bound rec.visits)
    (visitItems bound rec.visits.toList ++ readyItems mark bound rec.readyMap.toList)

/-- The observations to visit have a bind. -/
def ReadySeated (bound : List (Option β)) (readyMap : BTreeMap Nat Observation) : Prop :=
  ∀ slot ∈ readyMap, (bound[slot]?.join).isSome

/-- **The loop over the fairness order.** Visits are only added, and of the observations only those
of arms visited before are left. -/
theorem visitEach_spec (hseat : Seated ledger bound) (mark : Nat → Mark) (fuel : Nat)
    (order : List Nat) (rec : Recording) (hvisits : VisitsSeated bound rec.visits)
    (hready : ReadySeated bound rec.readyMap) :
    ETriple (RecordingOwn ledger bound mark rec) (visitEach env bound fuel order rec)
      (fun rec' w => RecordingOwn ledger bound mark rec' w ∧ VisitsSeated bound rec'.visits ∧
        ∀ slot obs, rec'.readyMap[slot]? = some obs →
          rec.readyMap[slot]? = some obs ∧ (slot ∈ order → slot ∈ rec.visits))
      fun _ => ledger.broken := by
  induction order generalizing rec with
  | nil => exact ETriple.pure fun w h => ⟨h, hvisits, fun slot obs hobs => ⟨hobs, by simp⟩⟩
  | cons idx rest ih =>
    unfold visitEach
    by_cases hvisited : idx ∈ rec.visits
    · -- a slot that was visited is passed over, and its observation stays in the map
      rw [if_pos hvisited]
      refine (ih rec hvisits hready).weaken fun rec' w h => ⟨h.1, h.2.1, fun slot obs hobs => ?_⟩
      obtain ⟨hold, hrest⟩ := h.2.2 slot obs hobs
      refine ⟨hold, fun hmem => ?_⟩
      rcases List.mem_cons.mp hmem with rfl | hmem
      · exact hvisited
      · exact hrest hmem
    · rw [if_neg hvisited]
      cases hobs : rec.readyMap[idx]? with
      | none =>
        refine (ih rec hvisits hready).weaken fun rec' w h => ⟨h.1, h.2.1, fun slot obs hobs' => ?_⟩
        obtain ⟨hold, hrest⟩ := h.2.2 slot obs hobs'
        refine ⟨hold, fun hmem => ?_⟩
        rcases List.mem_cons.mp hmem with rfl | hmem
        · rw [hobs] at hold
          cases hold
        · exact hrest hmem
      | some obs =>
        obtain ⟨bind, hbind⟩ := Option.isSome_iff_exists.mp
          (hready idx (by simp [Std.ExtTreeMap.mem_iff_isSome_getElem?, hobs]))
        -- the visit takes the observation out of the map and owns what it keeps of it
        have hvisit := visitReady_spec (visitMarks bound rec.visits)
          (visitItems bound rec.visits.toList
            ++ readyItems mark bound (rec.readyMap.erase idx).toList)
          (hseat idx bind hbind) fuel rec.budget (mark idx) obs
        simp only [hbind]
        refine ETriple.bind (hvisit.strengthen fun w h => own_take hbind hobs h) ?_
        rintro ⟨visit, budget⟩
        refine ETriple.bind (ETriple.lift (ledger.markVisited _ _)) fun _ => ?_
        have hnext := ih ⟨rec.visits.insert idx visit, budget, rec.readyMap.erase idx⟩
          (fun slot hslot => ?_) (fun slot hslot => ?_)
        · refine hnext.conseq (fun w h => ?_) (fun rec' w h => ?_) fun _ _ h => h
          · refine own_visited hbind hvisited ?_ h
            rw [heldAt_readyMap, TreeMap.lookup_erase]
            simp
          · refine ⟨h.1, h.2.1, fun slot obs' hobs' => ?_⟩
            obtain ⟨hold, hrest⟩ := h.2.2 slot obs' hobs'
            rw [TreeMap.lookup_erase] at hold
            -- what is left later is of another slot
            have hne : idx ≠ slot := by
              rintro rfl
              simp at hold
            refine ⟨by simpa [hne] using hold, fun hmem => ?_⟩
            have hmem' := hrest ((List.mem_cons.mp hmem).resolve_left (Ne.symm hne))
            simpa [Std.ExtTreeMap.mem_insert, hne] using hmem'
        · by_cases hne : idx = slot
          · simp [← hne, hbind]
          · exact hvisits slot (by simpa [Std.ExtTreeMap.mem_insert, hne] using hslot)
        · exact hready slot (Std.ExtTreeMap.mem_of_mem_erase hslot)

/-- What is collected before a `record_ready`: distinct occupied slots. -/
structure Collected (bound : List (Option β)) (ready : List (Nat × Observation)) : Prop where
  keys : (ready.map Prod.fst).Nodup
  seated : ∀ p ∈ ready, (bound[p.1]?.join).isSome

variable {set : RegistrationSet} {request : PollCycleRequest}

/-- **`record_ready`** owns afterwards what the visits hold. -/
theorem recordReady_spec (hseat : Seated ledger bound)
    (hlen : bound.length = set.registrations.length) (fuel : Nat) (budget : CollectBudget)
    {visits : Visits} {ready : List (Nat × Observation)} (hvisits : VisitsSeated bound visits)
    (hready : Collected bound ready) :
    ETriple
      (ledger.own (visitMarks bound visits)
        (visitItems bound visits.toList ++ readyItems (markOf visits) bound ready))
      (recordReady env set request bound fuel budget visits ready)
      (fun r w => ledger.own (visitMarks bound r.2) (visitItems bound r.2.toList) w ∧
        VisitsSeated bound r.2)
      fun _ => ledger.broken := by
  unfold recordReady
  have hgather : gatherReady env bound ready ∅ = _ :=
    gatherReady_eq hready.keys fun p _ => Std.ExtTreeMap.not_mem_empty
  -- no arm answered twice, so gathering hands nothing back
  rw [hgather, pure_bind]
  set readyMap : BTreeMap Nat Observation := TreeMap.collectMap ready with hmap
  have hlookup : ∀ {slot obs}, readyMap[slot]? = some obs ↔ (slot, obs) ∈ ready := fun {_ _} =>
    TreeMap.getElem?_collectMap hready.keys
  have hseated : ReadySeated bound readyMap := by
    intro slot hslot
    obtain ⟨obs, hobs⟩ := Option.isSome_iff_exists.mp
      (Std.ExtTreeMap.mem_iff_isSome_getElem?.mp hslot)
    exact hready.seated (slot, obs) (hlookup.mp hobs)
  have hvisit := visitEach_spec hseat (markOf visits) fuel (fairnessOrder set request)
    ⟨visits, budget, readyMap⟩ hvisits hseated
  refine ETriple.bind (hvisit.strengthen fun w h => ?_) fun rec => ?_
  · -- The map holds the same observations as the list it was gathered from.
    refine ledger.settle (List.Subset.refl _) ?_ (fun slot => ?_) h
    · refine List.append_subset.mpr ⟨List.subset_append_left _ _, fun item hitem => ?_⟩
      obtain ⟨idx, obs, bind, hmem, hrest⟩ := mem_placed.mp hitem
      refine List.mem_append_right _ (mem_placed.mpr ⟨idx, obs, bind, ?_, hrest⟩)
      exact hlookup.mp (Std.ExtTreeMap.mem_toList_iff_getElem?_eq_some.mp hmem)
    · rw [heldAt_append, heldAt_append, heldAt_readyMap, heldAt_readyItems]
      congr 2
      cases hobs : readyMap[slot]? with
      | some obs =>
        rw [TreeMap.filter_key hready.keys (hlookup.mp hobs)]
        simp
      | none =>
        have hnone : (ready.filter fun p => p.1 = slot) = [] := by
          rw [List.filter_eq_nil_iff]
          rintro ⟨k, obs⟩ hp hk
          obtain rfl : k = slot := by simpa using hk
          rw [hlookup.mpr hp] at hobs
          cases hobs
        simp [hnone]
  · -- What is left over belongs to arms visited before, so signals may go back too.
    refine ETriple.fact (fun w h => h.2) fun hrest => ?_
    have hleft : ∀ p ∈ rec.readyMap.toList,
        observationIsReplayable p.2 ∨ MayReturn (markOf visits p.1) p.2 := by
      rintro ⟨slot, obs⟩ hp
      obtain ⟨hold, hvisited⟩ :=
        hrest.2 slot obs (Std.ExtTreeMap.mem_toList_iff_getElem?_eq_some.mp hp)
      have hslot : slot < set.registrations.length := by
        rw [← hlen]
        by_contra hout
        have hsome := hready.seated (slot, obs) (hlookup.mp hold)
        rw [List.getElem?_eq_none (Nat.le_of_not_lt hout)] at hsome
        cases hsome
      right; left
      exact if_pos (hvisited (mem_fairnessOrder.mpr hslot))
    have hback := restoreEach_spec (visitMarks bound rec.visits)
      (visitItems bound rec.visits.toList) hseat
      (TreeMap.nodup_keys_toList rec.readyMap) hleft
    refine ETriple.bind (hback.strengthen fun w h => h.1) fun _ => ?_
    exact ETriple.pure fun w h => ⟨h, hrest.1⟩

end PollCycle

end Waitprims
