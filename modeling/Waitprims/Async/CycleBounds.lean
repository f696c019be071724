import Mathlib
import Waitprims.Core.CanonicalText
import Waitprims.Core.Validate
import Waitprims.Async.CycleRetention
import Waitprims.Async.CycleVisits

/-! # What a cycle hands over stays within its bounds

Six bounds limit a cycle: two of the set, three optional ones of the request, and two for each
registration. The budget keeps a counter for each. As long as the limits of the set are below
`2 ^ 63` no counter saturates, so each one is the exact total of the events taken, and those are the
events the visits hold: a refused event leaves no trace in any counter.

* **`CollectBudget.Sound`** — exact counters within the limits of a fresh budget.
* **`takeAll_sound`** — every admission keeps them so.
* **`held`** — the events of all visits, which are the events taken.
* **`bounds_respected`** — a run hands over no more than every bound allows. -/

namespace Waitprims

namespace CollectBudget

variable {fresh budget budget' : CollectBudget} {taken events : List WaitEvent} {event : WaitEvent}

/-! ## Admissions -/

/-- **The counters are exact**: each is the total over the events taken, and fits an integer of the
code. -/
structure Exact (budget : CollectBudget) (taken : List WaitEvent) : Prop where
  events : budget.events = taken.length
  payloadRefs : budget.payloadRefs = taken.length
  bytes : budget.bytes = surfaceBytes taken
  regEvents : ∀ rid, budget.perRegEvents.getD rid 0 = (eventsOfRegistration rid taken).length
  regBytes : ∀ rid, budget.perRegBytes.getD rid 0 = surfaceBytes (eventsOfRegistration rid taken)
  eventsFit : taken.length < 2 ^ 63
  bytesFit : surfaceBytes taken < 2 ^ 63

/-- **A sound budget**: the limits are those of a fresh one, the counters are exact and within. -/
structure Sound (fresh budget : CollectBudget) (taken : List WaitEvent) : Prop where
  maxEvents : budget.maxEvents = fresh.maxEvents
  maxPayloadRefs : budget.maxPayloadRefs = fresh.maxPayloadRefs
  maxBytes : budget.maxBytes = fresh.maxBytes
  regMaxEvents : budget.regMaxEvents = fresh.regMaxEvents
  regMaxBytes : budget.regMaxBytes = fresh.regMaxBytes
  exact : budget.Exact taken
  events : taken.length ≤ fresh.maxEvents
  payloadRefs : taken.length ≤ fresh.maxPayloadRefs
  bytes : surfaceBytes taken ≤ fresh.maxBytes
  regEvents : ∀ rid limit, fresh.regMaxEvents[rid]? = some limit →
    (eventsOfRegistration rid taken).length ≤ limit
  regBytes : ∀ rid limit, fresh.regMaxBytes[rid]? = some limit →
    surfaceBytes (eventsOfRegistration rid taken) ≤ limit

/-- **What an admission requires**, and what it does to the budget. -/
theorem tryTake_eq_some (h : budget.tryTake event = some budget') :
    budget.roomForRegistration event.registrationId = true ∧
      saturatingAdd budget.bytes (eventSurfaceBytes event) ≤ budget.maxBytes ∧
      saturatingAdd (budget.perRegBytes.getD event.registrationId 0) (eventSurfaceBytes event)
        ≤ budget.regMaxBytes.getD event.registrationId u64Max ∧
      budget' = budget.take event := by
  unfold tryTake at h
  dsimp only at h
  split at h
  · cases h
  · next hroom =>
    split at h
    · cases h
    · next hbytes =>
      split at h
      · cases h
      · next hreg =>
        exact ⟨by simpa using hroom, not_lt.mp hbytes, not_lt.mp hreg, (Option.some.inj h).symm⟩

/-- A counter of one registration after one more event. -/
theorem getD_insert_counter (counters : BTreeMap String Nat) (key rid : String) (n : Nat) :
    (counters.insert key (counters.getD key 0 + n)).getD rid 0
      = if key = rid then counters.getD rid 0 + n else counters.getD rid 0 := by
  rw [Std.ExtTreeMap.getD_insert]
  by_cases h : key = rid
  · subst h
    simp
  · simp [h]

/-- **One admission** keeps a budget sound, while the limits are below `2 ^ 63`. -/
theorem Sound.take (hevents : fresh.maxEvents < 2 ^ 63) (hbytes : fresh.maxBytes < 2 ^ 63)
    (h : Sound fresh budget taken) (htry : budget.tryTake event = some budget') :
    Sound fresh budget' (taken ++ [event]) := by
  obtain ⟨hroom, htotal, hreg, rfl⟩ := tryTake_eq_some htry
  simp only [roomForRegistration, roomForAnotherEvent, Bool.and_eq_true, decide_eq_true_eq] at hroom
  obtain ⟨⟨⟨hroomEvents, hroomRefs⟩, -⟩, hroomReg, -⟩ := hroom
  rw [h.maxEvents, h.exact.events] at hroomEvents
  rw [h.maxPayloadRefs, h.exact.payloadRefs] at hroomRefs
  rw [h.maxBytes, h.exact.bytes] at htotal
  rw [h.regMaxEvents, h.exact.regEvents] at hroomReg
  rw [h.regMaxBytes, h.exact.regBytes] at hreg
  -- No sum of this admission saturates.
  have hsum := saturatingAdd_of_le htotal hbytes
  rw [hsum] at htotal
  have hone : saturatingAdd taken.length 1 = taken.length + 1 := saturatingAdd_of_lt (by omega)
  have hregSum : saturatingAdd (surfaceBytes (eventsOfRegistration event.registrationId taken))
      (eventSurfaceBytes event)
        = surfaceBytes (eventsOfRegistration event.registrationId taken)
          + eventSurfaceBytes event := by
    have hle : surfaceBytes (eventsOfRegistration event.registrationId taken)
        ≤ surfaceBytes taken := surfaceBytes_le eventsOfRegistration_sublist.subperm
    exact saturatingAdd_of_lt (by omega)
  rw [hregSum] at hreg
  refine ⟨h.maxEvents, h.maxPayloadRefs, h.maxBytes, h.regMaxEvents, h.regMaxBytes,
    ⟨?_, ?_, ?_, ?_, ?_, ?_, ?_⟩, ?_, ?_, ?_, ?_, ?_⟩
  · simpa [take, h.exact.events] using hone
  · simpa [take, h.exact.payloadRefs] using hone
  · simpa [take, h.exact.bytes] using hsum
  · intro rid
    rw [take, getD_insert_counter, h.exact.regEvents, eventsOfRegistration_snoc]
    split <;> simp
  · intro rid
    rw [take, getD_insert_counter, h.exact.regBytes, eventsOfRegistration_snoc]
    split <;> simp
  · rw [List.length_append, List.length_singleton]
    omega
  · rw [surfaceBytes_snoc]
    omega
  · rw [List.length_append, List.length_singleton]
    omega
  · rw [List.length_append, List.length_singleton]
    omega
  · rw [surfaceBytes_snoc]
    omega
  · intro rid limit hlimit
    rw [eventsOfRegistration_snoc]
    split
    · next hrid =>
      rw [hrid, Std.ExtTreeMap.getD_eq_getD_getElem?, hlimit] at hroomReg
      rw [List.length_append, List.length_singleton]
      exact hroomReg
    · exact h.regEvents rid limit hlimit
  · intro rid limit hlimit
    rw [eventsOfRegistration_snoc]
    split
    · next hrid =>
      rw [hrid, Std.ExtTreeMap.getD_eq_getD_getElem?, hlimit] at hreg
      rw [surfaceBytes_snoc]
      exact hreg
    · exact h.regBytes rid limit hlimit

/-- **Any admissions in order** keep a budget sound. -/
theorem Sound.takeAll (hevents : fresh.maxEvents < 2 ^ 63) (hbytes : fresh.maxBytes < 2 ^ 63)
    (h : Sound fresh budget taken) (htake : budget.takeAll events = some budget') :
    Sound fresh budget' (taken ++ events) := by
  induction events generalizing budget taken with
  | nil =>
    obtain rfl := Option.some.inj htake
    simpa using h
  | cons event rest ih =>
    unfold CollectBudget.takeAll at htake
    rw [List.foldlM_cons] at htake
    obtain ⟨next, htry, hrest⟩ := Option.bind_eq_some_iff.mp htake
    simpa using ih (h.take hevents hbytes htry) hrest

/-- Admissions in two parts. -/
theorem takeAll_append : budget.takeAll (taken ++ events)
    = (budget.takeAll taken).bind fun budget => budget.takeAll events := by
  unfold takeAll
  rw [List.foldlM_append]
  rfl

/-- A fresh budget is sound and has taken nothing. -/
theorem sound_new (set : RegistrationSet) (request : PollCycleRequest) :
    Sound (new set request) (new set request) [] := by
  refine ⟨rfl, rfl, rfl, rfl, rfl, ⟨rfl, rfl, rfl, ?_, ?_, ?_, ?_⟩, ?_, ?_, ?_, ?_, ?_⟩
  · intro rid
    simp [new]
  · intro rid
    simp [new]
  all_goals simp

end CollectBudget

namespace PollCycle

open Fueled TreeMap

variable {σ β φ ψ : Type} {env : Env σ β φ ψ} {set : RegistrationSet} {request : PollCycleRequest}
  {resolved : List ResolvedStart} {visits : Visits} {kind : OutcomeKind}
  {reason : Option String} {now : Timestamp} {outcome : PollCycleOutcome}

/-! ## What the visits hold -/

/-- The events of all visits, by registration. -/
def held (set : RegistrationSet) (visits : Visits) : List WaitEvent :=
  (List.range set.registrations.length).flatMap fun idx => heldEvents visits[idx]?

/-- One more nonempty entry among entries of which it was an empty one. -/
theorem flatMap_update_perm {α υ : Type} [DecidableEq α] {keys : List α} (hkeys : keys.Nodup)
    {key : α} (hkey : key ∈ keys) {f g : α → List υ} (hnil : f key = [])
    (hsame : ∀ k, k ≠ key → g k = f k) :
    (keys.flatMap g).Perm (keys.flatMap f ++ g key) := by
  induction keys with
  | nil => cases hkey
  | cons k rest ih =>
    rw [List.nodup_cons] at hkeys
    rw [List.flatMap_cons, List.flatMap_cons]
    by_cases hk : k = key
    · subst hk
      have hrest : rest.flatMap g = rest.flatMap f := by
        refine List.flatMap_congr fun a ha => hsame a ?_
        rintro rfl
        exact hkeys.1 ha
      rw [hnil, hrest, List.nil_append]
      exact List.perm_append_comm
    · rw [hsame k hk, List.append_assoc]
      exact (ih hkeys.2 ((List.mem_cons.mp hkey).resolve_left (Ne.symm hk))).append_left _

/-- A new visit adds the events it holds. -/
theorem held_insert {idx : Nat} (hidx : idx < set.registrations.length) (hnew : idx ∉ visits)
    (visit : ArmVisit) :
    (held set (visits.insert idx visit)).Perm (held set visits ++ visit.held) := by
  have hnone : visits[idx]? = none := by simpa using hnew
  have hperm := flatMap_update_perm (υ := WaitEvent) List.nodup_range (List.mem_range.mpr hidx)
    (f := fun k => heldEvents visits[k]?)
    (g := fun k => heldEvents (visits.insert idx visit)[k]?) (by simp [hnone, heldEvents])
    (fun k hk => by
      have hne : ¬ idx = k := fun h => hk h.symm
      simp [Std.ExtTreeMap.getElem?_insert, hne])
  have hself : heldEvents (visits.insert idx visit)[idx]? = visit.held := by simp [heldEvents]
  rw [hself] at hperm
  exact hperm

/-- **The events taken are those held**: the invariant of a cycle's budget and visits. -/
def TakesHeld (set : RegistrationSet) (request : PollCycleRequest) (budget : CollectBudget)
    (visits : Visits) : Prop :=
  ∃ taken, (CollectBudget.new set request).takeAll taken = some budget ∧
    taken.Perm (held set visits)

theorem takesHeld_invariant : VisitInvariant set request (TakesHeld set request) where
  fresh := ⟨[], rfl, by simp [held, heldEvents]⟩
  visit := by
    rintro budget budget' visits idx visit hidx hnew hadmits ⟨taken, htaken, hperm⟩
    refine ⟨taken ++ visit.held, ?_, ?_⟩
    · rw [CollectBudget.takeAll_append, htaken]
      exact hadmits.taken
    · exact (hperm.append_right _).trans (held_insert hidx hnew visit).symm

/-! ## What an outcome hands over -/

/-- The rows hand over events the visits hold, in the order of the registrations. -/
theorem rows_events_sublist :
    ((armRows set request resolved visits kind).flatMap ArmRow.events).Sublist
      (held set visits) := by
  unfold armRows held
  have hlength : ((armIds set request).zip set.registrations).length
      = set.registrations.length := by simp
  rw [← hlength, List.range_eq_range']
  generalize (armIds set request).zip set.registrations = entries
  generalize 0 = start
  induction entries generalizing start with
  | nil => exact List.Sublist.slnil
  | cons p rest ih =>
    have hcons : List.range' start (p :: rest).length
        = start :: List.range' (start + 1) rest.length := by
      rw [List.length_cons, List.range'_succ]
    rw [List.zipIdx_cons, List.filterMap_cons, hcons, List.flatMap_cons]
    cases hrow : armRow request resolved visits kind start p.1 p.2 with
    | none => exact (ih (start + 1)).trans (List.sublist_append_right _ _)
    | some row =>
      dsimp only
      rw [List.flatMap_cons]
      refine List.Sublist.append ?_ (ih (start + 1))
      rw [(armRow_retained hrow).1]
      split
      · exact List.Sublist.refl _
      · exact List.nil_sublist _

/-- An outcome hands over events the visits hold, whatever posture makes of it. -/
theorem build_events_sublist
    (h : build set request now resolved visits kind reason = .ok outcome) :
    (applyPosture set request outcome).events.Sublist (held set visits) := by
  obtain ⟨-, -, hevents, -⟩ := build_parts h
  have hbuilt : outcome.events.Sublist (held set visits) := hevents ▸ rows_events_sublist
  unfold applyPosture
  split
  · exact hbuilt
  · split
    · exact List.nil_sublist _
    · split
      · exact List.nil_sublist _
      · exact hbuilt

theorem held_deadlineVisits : held set (deadlineVisits set request visits) = held set visits :=
  List.flatMap_congr fun idx _ => heldEvents_deadlineVisits idx

/-- **A decision hands over events the visits hold.** -/
theorem decision_events_sublist {decision : Decision}
    (h : decision.outcome set request visits = .ok outcome) :
    outcome.events.Sublist (held set visits) := by
  have hassemble : ∀ {now starts visits}, assemble set request now starts visits = .ok outcome →
      outcome.events.Sublist (held set visits) := by
    intro now starts visits h
    obtain ⟨built, hbuild, rfl⟩ := assemble_eq_ok h
    exact build_events_sublist hbuild
  have hforced : ∀ {now starts reason},
      finish set request now starts visits (some reason) = .ok outcome →
      outcome.events.Sublist (held set visits) := by
    intro now starts reason h
    unfold finish at h
    dsimp only at h
    cases hbuild : build set request now starts visits
        (if reason == "consumer_cancelled" then .cancelled else .failed) (some reason) with
    | error err =>
      rw [hbuild] at h
      cases h
    | ok built =>
      rw [hbuild] at h
      obtain rfl := Except.ok.inj h
      exact build_events_sublist hbuild
  cases decision with
  | cancelled now starts => exact hforced h
  | complete now starts => exact hassemble h
  | deadline now starts =>
    have h : decideAtDeadline set request now starts visits = .ok outcome := h
    unfold decideAtDeadline at h
    split at h
    · exact hforced h
    · have hsub := hassemble h
      rwa [held_deadlineVisits] at hsub
  | fault err => cases h

/-- **Events within every bound** of the set, the request and the registrations. -/
structure WithinBounds (set : RegistrationSet) (request : PollCycleRequest)
    (events : List WaitEvent) : Prop where
  aggregateEvents : events.length ≤ set.aggregateLimits.maxEvents
  aggregateBytes : surfaceBytes events ≤ set.aggregateLimits.maxBytes
  requestEvents : ∀ bound limit, request.bound = some bound → bound.maxEvents = some limit →
    events.length ≤ limit
  requestRefs : ∀ bound limit, request.bound = some bound → bound.maxPayloadRefs = some limit →
    (events.map fun e => e.payload.payloadRef).length ≤ limit
  requestBytes : ∀ bound limit, request.bound = some bound → bound.maxBytes = some limit →
    surfaceBytes events ≤ limit
  registrationEvents : ∀ registration ∈ set.registrations,
    (eventsOfRegistration registration.registrationId events).length
      ≤ registration.bounds.maxEvents
  registrationBytes : ∀ registration ∈ set.registrations,
    surfaceBytes (eventsOfRegistration registration.registrationId events)
      ≤ registration.bounds.maxBytes

/-- The limit a fresh budget keeps for a registration. -/
theorem lookup_limit (hids : (set.registrations.map Registration.registrationId).Nodup)
    (limit : Registration → Nat) {registration : Registration}
    (hmem : registration ∈ set.registrations) :
    (collectMap (set.registrations.map fun reg => (reg.registrationId, limit reg)))[
      registration.registrationId]? = some (limit registration) := by
  rw [getElem?_collectMap]
  · exact List.mem_map_of_mem hmem
  · rw [List.map_map]
    exact hids

/-- **Events among those a sound budget has taken** are within every bound. -/
theorem within_of_sound (hids : (set.registrations.map Registration.registrationId).Nodup)
    {budget : CollectBudget} {taken events : List WaitEvent}
    (h : CollectBudget.Sound (CollectBudget.new set request) budget taken)
    (hsub : events.Subperm taken) : WithinBounds set request events := by
  have hcount := hsub.length_le
  have hweight := surfaceBytes_le hsub
  have hregCount := fun rid => (eventsOfRegistration_subperm rid hsub).length_le
  have hregWeight := fun rid =>
    surfaceBytes_le (eventsOfRegistration_subperm rid hsub)
  have hmaxEvents := hcount.trans h.events
  have hmaxRefs := hcount.trans h.payloadRefs
  have hmaxBytes := hweight.trans h.bytes
  refine ⟨hmaxEvents.trans (min_le_left _ _), hmaxBytes.trans (min_le_left _ _), ?_, ?_, ?_,
    ?_, ?_⟩
  · intro bound limit hbound hlimit
    refine hmaxEvents.trans ((min_le_right _ _).trans (le_of_eq ?_))
    simp [hbound, hlimit]
  · intro bound limit hbound hlimit
    rw [List.length_map]
    refine hmaxRefs.trans (le_of_eq ?_)
    simp [CollectBudget.new, hbound, hlimit]
  · intro bound limit hbound hlimit
    refine hmaxBytes.trans ((min_le_right _ _).trans (le_of_eq ?_))
    simp [hbound, hlimit]
  · intro registration hmem
    refine (hregCount _).trans (h.regEvents _ _ ?_)
    exact lookup_limit hids (fun reg => reg.bounds.maxEvents) hmem
  · intro registration hmem
    refine (hregWeight _).trans (h.regBytes _ _ ?_)
    exact lookup_limit hids (fun reg => reg.bounds.maxBytes) hmem

/-- **What a fresh budget has taken is exact**, after any admissions in order. -/
theorem sound_of_takeAll (hevents : set.aggregateLimits.maxEvents < 2 ^ 63)
    (hbytes : set.aggregateLimits.maxBytes < 2 ^ 63) {budget : CollectBudget}
    {taken : List WaitEvent} (h : (CollectBudget.new set request).takeAll taken = some budget) :
    CollectBudget.Sound (CollectBudget.new set request) budget taken :=
  (CollectBudget.sound_new set request).takeAll (lt_of_le_of_lt (min_le_left _ _) hevents)
    (lt_of_le_of_lt (min_le_left _ _) hbytes) h

/-! ## Runs -/

/-- **Every bound holds at once**: what a run hands over is within the bounds of the set, the
request and each registration. The budget of the run has taken exactly the events its visits hold,
one after the other, and after each of them every counter was the exact total. -/
theorem bounds_respected (hids : (set.registrations.map Registration.registrationId).Nodup)
    (hevents : set.aggregateLimits.maxEvents < 2 ^ 63)
    (hbytes : set.aggregateLimits.maxBytes < 2 ^ 63) (fuel : Nat) {w w' : World σ β}
    {outcome : PollCycleOutcome}
    (hrun : (runPollCycle env set request fuel).run w = some (.ok outcome, w')) :
    WithinBounds set request outcome.events ∧
      ∃ (cycle : Cycle β) (decision : Decision) (w₁ : World σ β) (taken : List WaitEvent),
        (cycleLoop env set request fuel fuel (Cycle.new set request)).run { w with resolved := [] }
          = some (.ok (cycle, decision), w₁) ∧
        (CollectBudget.new set request).takeAll taken = some cycle.budget ∧
        taken.Perm (held set cycle.visits) ∧
        ∀ before, before <+: taken → ∃ budget,
          (CollectBudget.new set request).takeAll before = some budget ∧ budget.Exact before := by
  obtain ⟨cycle, decision, w₁, hloop, houtcome⟩ := runPollCycle_decision hrun
  have hheld : TakesHeld set request cycle.budget cycle.visits :=
    cycleLoop_visits takesHeld_invariant hloop
  obtain ⟨taken, htaken, hperm⟩ := hheld
  have hsub : outcome.events.Subperm taken :=
    (decision_events_sublist houtcome).subperm.trans hperm.symm.subperm
  refine ⟨within_of_sound hids (sound_of_takeAll hevents hbytes htaken) hsub, cycle, decision, w₁,
    taken, hloop, htaken, hperm, ?_⟩
  rintro before ⟨rest, rfl⟩
  rw [CollectBudget.takeAll_append] at htaken
  obtain ⟨budget, hbefore, -⟩ := Option.bind_eq_some_iff.mp htaken
  exact ⟨budget, hbefore, (sound_of_takeAll hevents hbytes hbefore).exact⟩

open Case in
theorem bounds_respected_pair :
    ∃ outcome w', (runPollCycle queueEnv pairSet (pollCycleRequest pairSet) 10).run
        (QueueHost.world pairWaiting (ts "2026-08-15T16:02:00Z") []) = some (.ok outcome, w') ∧
      WithinBounds pairSet (pollCycleRequest pairSet) outcome.events := by
  have hdone : (returned ((runPollCycle queueEnv pairSet (pollCycleRequest pairSet) 10).run
      (QueueHost.world pairWaiting (ts "2026-08-15T16:02:00Z") []))).any (fun _ => true) = true := by
    decide +kernel
  obtain ⟨outcome, w', hrun, -⟩ := exists_of_returned hdone
  exact ⟨outcome, w', hrun,
    (bounds_respected (by decide) (by decide) (by decide) 10 hrun).1⟩

/-! ## Limits that are read from a document -/

/-- The bounds of a decoded pair of limits. -/
theorem waitBound_lt {value : Json} (h : value.Parsed) {bound : WaitBound}
    (hbound : Decode.waitBound value = some bound) :
    bound.maxEvents < 2 ^ 63 ∧ bound.maxBytes < 2 ^ 63 := by
  unfold Decode.waitBound at hbound
  simp only [Option.bind_eq_bind, Option.bind_eq_some_iff, Option.pure_def,
    Option.some.injEq] at hbound
  obtain ⟨maxEvents, hevents, maxBytes, hbytes, rfl⟩ := hbound
  obtain ⟨v, hv, hevents⟩ := Option.bind_eq_some_iff.mp hevents
  obtain ⟨v', hv', hbytes⟩ := Option.bind_eq_some_iff.mp hbytes
  exact ⟨Json.asU64_lt (Json.parsed_of_get h hv) hevents,
    Json.asU64_lt (Json.parsed_of_get h hv') hbytes⟩

/-- A decoded set has the limits its document states. -/
theorem aggregateLimits_of_decode {d : Json}
    (h : Decode.message d = some (.registrationSet set)) :
    Decode.required Decode.waitBound d "aggregate_limits" = some set.aggregateLimits := by
  unfold Decode.message at h
  split at h
  · obtain ⟨decoded, hdecoded, heq⟩ := Option.map_eq_some_iff.mp h
    obtain rfl := AgentWaitMessage.registrationSet.inj heq
    unfold Decode.registrationSet at hdecoded
    -- Fifteen fields come before the limits, two after.
    iterate 15 obtain ⟨_, -, hdecoded⟩ := Option.bind_eq_some_iff.mp hdecoded
    obtain ⟨limits, hlimits, hdecoded⟩ := Option.bind_eq_some_iff.mp hdecoded
    iterate 2 obtain ⟨_, -, hdecoded⟩ := Option.bind_eq_some_iff.mp hdecoded
    obtain rfl := Option.some.inj hdecoded
    exact hlimits
  all_goals
    first
    | cases h
    | obtain ⟨_, _, heq⟩ := Option.map_eq_some_iff.mp h
      cases heq

end PollCycle

end Waitprims
