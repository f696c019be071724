import Mathlib
import Waitprims.Async.CycleEnds
import Waitprims.Async.FairRotation

/-! # What fair cycles deliver

Along a chain of cycles the visits rotate by one from cycle to cycle. A cycle that has room for one
event while every arm has one due delivers the event of the arm it starts at, so where this goes on
every registration has its turn within one round.

* **`AllDue`** — a cycle with room for one event and a due event on every arm.
* **`CycleChain`** — a chain of cycles with the worlds they start in and what they returned.
* **`fair_cycles`** — the places, the starts and the events of a chain.
* **`fair_turn_withheld`** — an arm without room passes its turn on. -/

namespace Waitprims

namespace PollCycle

variable {σ β φ ψ : Type} {env : Env σ β φ ψ} {set : RegistrationSet} {request : PollCycleRequest}
  {outcome : PollCycleOutcome}

/-! ## One cycle -/

/-- **A cycle with room for one event and a due event on every arm**, from the world it starts in:
in time, not cancelled and authenticated. -/
structure AllDue (env : Env σ β φ ψ) (set : RegistrationSet) (request : PollCycleRequest)
    (w : World σ β) : Prop where
  one : (CollectBudget.new set request).maxEvents = 1
  authn : authnMissing set request.verificationReceiptRef = false
  due : ∃ due, DueObserver env set request due ∧
    due (set.registrations.map Registration.registrationId) w.host

/-- **Such a cycle delivers one event**, of the registration at its start. -/
theorem AllDue.delivers {w w' : World σ β} (h : AllDue env set request w)
    (hset : set.registrations ≠ []) {fuel : Nat}
    (hrun : (runPollCycle env set request fuel).run w = some (.ok outcome, w')) :
    ∃ event, DueFor set request (fairnessStartIndex set request % set.registrations.length) event ∧
      outcome.events = [event] := by
  obtain ⟨due, hdue, hstart⟩ := h.due
  obtain ⟨cycle, decision, w₁, hloop, houtcome⟩ := runPollCycle_decision hrun
  have hfair : FairDecision set request cycle.visits decision :=
    hdue.cycleLoop hset h.one fuel fuel { w with resolved := [] } hstart _ _ hloop
  exact hfair.delivers h.authn houtcome

/-- Such a cycle returns. -/
theorem AllDue.returns {w : World σ β} (h : AllDue env set request w)
    (hset : set.registrations ≠ []) {fuel : Nat} (hfuel : 0 < fuel) :
    ∃ answer w', (runPollCycle env set request fuel).run w = some (answer, w') := by
  obtain ⟨due, hdue, hstart⟩ := h.due
  exact hdue.returns hset h.one hfuel hstart

/-! ## A chain of cycles -/

/-- **A chain of poll cycles with what they returned**: each request, the world its run starts in,
and the outcome. The first request cites the start, each later one the cursor of the outcome before
it, and all have one list of required arms. -/
inductive CycleChain (env : Env σ β φ ψ) (set : RegistrationSet) (requiredArms : List IdToken) :
    List (PollCycleRequest × World σ β × PollCycleOutcome) → IdToken → Prop
  | nil : CycleChain env set requiredArms [] "fair:start"
  | snoc {cycles : List (PollCycleRequest × World σ β × PollCycleOutcome)} {cursor : IdToken}
      {request : PollCycleRequest} {fuel : Nat} {w w' : World σ β} {outcome : PollCycleOutcome}
      (hchain : CycleChain env set requiredArms cycles cursor)
      (hcites : request.fairnessCursor = cursor) (harms : request.requiredArms = requiredArms)
      (hrun : (runPollCycle env set request fuel).run w = some (.ok outcome, w')) :
      CycleChain env set requiredArms (cycles ++ [(request, w, outcome)]) outcome.nextFairnessCursor

section chain

variable {requiredArms : List IdToken} {cursor : IdToken}
  {cycles : List (PollCycleRequest × World σ β × PollCycleOutcome)}

/-- Its requests are a chain. -/
theorem CycleChain.chain (h : CycleChain env set requiredArms cycles cursor) :
    Chain env set requiredArms (cycles.map Prod.fst) cursor := by
  induction h with
  | nil => exact .nil
  | snoc _ hcites harms hrun ih =>
    rw [List.map_append]
    exact ih.snoc hcites harms hrun

/-- Each of its cycles ran and returned. -/
theorem CycleChain.ran (h : CycleChain env set requiredArms cycles cursor) :
    ∀ c ∈ cycles, ∃ fuel w', (runPollCycle env set c.1 fuel).run c.2.1 = some (.ok c.2.2, w') := by
  induction h with
  | nil => exact fun c hc => by cases hc
  | @snoc cycles cursor request fuel w w' outcome _ _ _ hrun ih =>
    intro c hc
    rcases List.mem_append.mp hc with hc | hc
    · exact ih c hc
    · rw [List.mem_singleton.mp hc]
      exact ⟨fuel, w', hrun⟩

/-- **A cycle of a chain that has room for one event** delivers that of the registration at its
place, counted round. -/
theorem CycleChain.delivers (h : CycleChain env set requiredArms cycles cursor)
    (hset : set.registrations ≠ []) (hnamed : ∀ c ∈ cycles, Named set c.1) {k : Nat}
    {c : PollCycleRequest × World σ β × PollCycleOutcome} (hk : cycles[k]? = some c)
    (hdue : AllDue env set c.1 c.2.1) :
    ∃ event, DueFor set c.1 (k % set.registrations.length) event ∧ c.2.2.events = [event] := by
  have hrequests : ∀ request ∈ cycles.map Prod.fst, Named set request := by
    intro request hrequest
    obtain ⟨c, hc, rfl⟩ := List.mem_map.mp hrequest
    exact hnamed c hc
  obtain ⟨fuel, w', hrun⟩ := h.ran c (List.mem_of_getElem? hk)
  have hstart := (h.chain.order hset hrequests (k := k) (by rw [List.getElem?_map, hk]; rfl)).1
  obtain ⟨event, hevent, hevents⟩ := hdue.delivers hset hrun
  rw [hstart, Nat.mod_mod] at hevent
  exact ⟨event, hevent, hevents⟩

/-- **Fair cycles.** Along a chain the visits rotate by one, and any `n` cycles in a row start once
at each of the `n` registrations. A cycle that has room for one event while every arm has one due
returns, and delivers that of the registration at its start; where `n` in a row are such, each
registration has its turn. -/
theorem fair_cycles (h : CycleChain env set requiredArms cycles cursor)
    (hset : set.registrations ≠ []) (hnamed : ∀ c ∈ cycles, Named set c.1) :
    (∀ k c, cycles[k]? = some c →
      fairnessStartIndex set c.1 = k % set.registrations.length ∧
      fairnessOrder set c.1 = (List.range set.registrations.length).rotate k) ∧
    (∀ m, m + set.registrations.length ≤ cycles.length →
      (((cycles.drop m).take set.registrations.length).map fun c => fairnessStartIndex set c.1).Perm
        (List.range set.registrations.length)) ∧
    (∀ request fuel w, 0 < fuel → AllDue env set request w →
      ∃ answer w', (runPollCycle env set request fuel).run w = some (answer, w')) ∧
    (∀ k c, cycles[k]? = some c → AllDue env set c.1 c.2.1 →
      ∃ event, DueFor set c.1 (k % set.registrations.length) event ∧ c.2.2.events = [event]) ∧
    ∀ m, m + set.registrations.length ≤ cycles.length →
      (∀ c ∈ (cycles.drop m).take set.registrations.length, AllDue env set c.1 c.2.1) →
      ∀ registration ∈ set.registrations,
        ∃ c ∈ (cycles.drop m).take set.registrations.length, ∃ event,
          c.2.2.events = [event] ∧ event.registrationId = registration.registrationId := by
  have hrequests : ∀ request ∈ cycles.map Prod.fst, Named set request := by
    intro request hrequest
    obtain ⟨c, hc, rfl⟩ := List.mem_map.mp hrequest
    exact hnamed c hc
  refine ⟨fun k c hk => ?_, fun m hm => ?_, fun _ _ _ hfuel hdue => hdue.returns hset hfuel,
    fun k c hk hdue => h.delivers hset hnamed hk hdue, fun m hm hdue registration hmem => ?_⟩
  · exact h.chain.order hset hrequests (by rw [List.getElem?_map, hk]; rfl)
  · have hwindow := h.chain.window hset hrequests m (by rwa [List.length_map])
    rwa [← List.map_drop, ← List.map_take, List.map_map] at hwindow
  · obtain ⟨i, hi⟩ := List.mem_iff_getElem?.mp hmem
    have hlt := (List.getElem?_eq_some_iff.mp hi).1
    -- the cycle of the window that starts at the registration
    obtain ⟨j, hj, hplace⟩ := List.mem_map.mp ((map_mod_perm m set.registrations.length).mem_iff.mpr
      (List.mem_range.mpr hlt))
    rw [List.mem_range] at hj
    have hbound : m + j < cycles.length := by omega
    have hget := List.getElem?_eq_getElem hbound
    have hin : cycles[m + j] ∈ (cycles.drop m).take set.registrations.length := by
      refine List.mem_of_getElem? (i := j) ?_
      rw [List.getElem?_take_of_lt hj, List.getElem?_drop, hget]
    obtain ⟨event, ⟨registration', hreg, hid, -⟩, hevents⟩ :=
      h.delivers hset hnamed hget (hdue _ hin)
    rw [hplace, hi] at hreg
    obtain rfl := Option.some.inj hreg
    exact ⟨_, hin, event, hevents, hid⟩

end chain

/-! ## The queueing observer -/

section queue

open Case QueueHost

/-- Taking from one queue leaves the front of another. -/
theorem dequeue_other {r r' : IdToken} {waiting rest : List (IdToken × Observation)}
    {obs : Observation} (h : dequeue r waiting = some (obs, rest)) (hne : r' ≠ r) :
    (dequeue r' rest).map Prod.fst = (dequeue r' waiting).map Prod.fst := by
  induction waiting generalizing rest with
  | nil => cases h
  | cons p tail ih =>
    unfold dequeue at h
    by_cases hk : keyOf p = r
    · rw [if_pos hk] at h
      cases h
      rw [dequeue, if_neg (fun hk' => hne (hk'.symm.trans hk)), Option.map_map]
      rfl
    · rw [if_neg hk, Option.map_eq_some_iff] at h
      obtain ⟨⟨obs', rest'⟩, htail, heq⟩ := h
      cases heq
      rw [dequeue, dequeue]
      split
      · rfl
      · rw [Option.map_map, Option.map_map]
        exact ih htail

/-- The front of a queue is an event that fits. -/
def frontFits (set : RegistrationSet) (request : PollCycleRequest)
    (waiting : List (IdToken × Observation)) (registrationId : IdToken) : Bool :=
  match (dequeue registrationId waiting).map Prod.fst with
  | some (.event event) => ((CollectBudget.new set request).tryTake event).isSome
  | _ => false

/-- **A queueing host with due events**: a clock that stands in time, no cancellation, and a fitting
event in front of each queue. -/
structure QueueDue (set : RegistrationSet) (request : PollCycleRequest) (ids : List IdToken)
    (s : QueueHost) : Prop where
  nodup : ids.Nodup
  inTime : InTime set request s.now
  ticks : s.ticks = []
  cancels : s.cancels = []
  hanging : s.hanging = []
  front : ∀ id ∈ ids, frontFits set request s.waiting id = true

/-- The queueing observer gives due events as they are asked for. -/
theorem queue_dueObserver (set : RegistrationSet) (request : PollCycleRequest) :
    DueObserver queueEnv set request (QueueDue set request) where
  running := by
    intro ids s hs
    have hread : queueEnv.isCancelledStep s = (false, s) := by
      show readCancel s = _
      rw [readCancel, hs.cancels]
    rw [hread]
    exact ⟨rfl, hs⟩
  inTime := by
    intro ids s hs
    have hread : queueEnv.nowStep s = (s.now, s) := by
      show readClock s = _
      rw [readClock, hs.ticks]
    rw [hread]
    exact ⟨hs.inTime, hs⟩
  bind := by
    intro ids s registration hs
    have hpoll : queueEnv.pollBindStep registration s = (.ready (.ok ⟨registration.registrationId,
        registration.startAnchor.getD (headAnchor registration)⟩), s) :=
      if_neg (by rw [hs.hanging]; exact List.not_mem_nil)
    dsimp only
    show QueueDue set request ids (queueEnv.pollBindStep registration s).2 ∧ ∃ result,
      (queueEnv.pollBindStep registration s).1 = .ready result ∧ _
    rw [hpoll]
    refine ⟨hs, _, rfl, fun bind hbind => ?_⟩
    cases hbind
    rfl
  ready := by
    intro ids s bind hs hmem
    have hfront := hs.front _ hmem
    unfold frontFits at hfront
    cases hdequeue : dequeue bind.registrationId s.waiting with
    | none =>
      have hnone : dequeue (queueEnv.registrationId bind) s.waiting = none := hdequeue
      rw [hnone] at hfront
      cases hfront
    | some p =>
      obtain ⟨obs, rest⟩ := p
      have hsome : dequeue (queueEnv.registrationId bind) s.waiting = some (obs, rest) := hdequeue
      rw [hsome] at hfront
      have htake : queueEnv.pollReadyStep bind s = (some obs, { s with waiting := rest }) := by
        show take bind.registrationId s = _
        rw [take, hdequeue]
      rw [htake]
      cases obs with
      | event event =>
        refine ⟨⟨hs.nodup.erase _, hs.inTime, hs.ticks, hs.cancels, hs.hanging, fun id hid => ?_⟩,
          event, rfl, dequeue_label hdequeue, hfront⟩
        obtain ⟨hne, hmem'⟩ := hs.nodup.mem_erase_iff.mp hid
        unfold frontFits
        rw [dequeue_other hdequeue hne]
        exact hs.front id hmem'
      | idle => cases hfront
      | overflow => cases hfront
      | failed reason => cases hfront
      | outage reason => cases hfront
      | cursorUncertain reason => cases hfront
      | degraded reason => cases hfront
  restored := by
    intro s bind obs hs
    exact ⟨List.nodup_nil, hs.inTime, hs.ticks, hs.cancels, hs.hanging, fun _ hid => (nomatch hid)⟩

/-- A cycle over queues that each have a fitting event in front. -/
theorem allDue_queue {waiting : List (IdToken × Observation)} {now : Timestamp}
    (hone : (CollectBudget.new set request).maxEvents = 1)
    (hauthn : authnMissing set request.verificationReceiptRef = false)
    (htime : InTime set request now)
    (hids : (set.registrations.map Registration.registrationId).Nodup)
    (hfront : ∀ id ∈ set.registrations.map Registration.registrationId,
      frontFits set request waiting id = true) :
    AllDue queueEnv set request (QueueHost.world waiting now []) where
  one := hone
  authn := hauthn
  due := ⟨QueueDue set request, queue_dueObserver set request, hids, htime, rfl, rfl, rfl, hfront⟩

/-- The pair with room for one event. -/
def oneSet : RegistrationSet := { pairSet with aggregateLimits := ⟨1, 1048576⟩ }

/-- The request of its cycles. -/
def oneRequest (cursor : IdToken) : PollCycleRequest :=
  { pollCycleRequest oneSet with fairnessCursor := cursor }

/-- Two cycles, each with an event due on both arms: the first delivers that of the first
registration, the second that of the second. -/
theorem fair_cycles_pair :
    ∃ (cycles : List (PollCycleRequest × World QueueHost ResolvedStart × PollCycleOutcome))
      (cursor : IdToken),
      cycles.length = 2 ∧ CycleChain queueEnv oneSet ["arm:a", "arm:b"] cycles cursor ∧
      (∀ k c, cycles[k]? = some c → fairnessStartIndex oneSet c.1 = k % 2 ∧
        fairnessOrder oneSet c.1 = (List.range 2).rotate k) ∧
      (∀ k c, cycles[k]? = some c →
        ∃ event, DueFor oneSet c.1 (k % 2) event ∧ c.2.2.events = [event]) ∧
      ∀ registration ∈ oneSet.registrations, ∃ c ∈ cycles, ∃ event,
        c.2.2.events = [event] ∧ event.registrationId = registration.registrationId := by
  let w : World QueueHost ResolvedStart :=
    QueueHost.world pairWaiting (ts "2026-08-15T16:02:00Z") []
  have hruns : (returned ((runPollCycle queueEnv oneSet (oneRequest "fair:start") 10).run w)).any
        (fun outcome => outcome.nextFairnessCursor == "fair:arm:b") = true ∧
      (returned ((runPollCycle queueEnv oneSet (oneRequest "fair:arm:b") 10).run w)).any
        (fun _ => true) = true := by
    decide +kernel
  obtain ⟨outcome, w₁, hrun, hnext⟩ := exists_of_returned hruns.1
  obtain ⟨outcome', w₂, hrun', -⟩ := exists_of_returned hruns.2
  have hcites : (oneRequest "fair:arm:b").fairnessCursor = outcome.nextFairnessCursor :=
    (beq_iff_eq.mp hnext).symm
  have hchain : CycleChain queueEnv oneSet ["arm:a", "arm:b"]
      [(oneRequest "fair:start", w, outcome), (oneRequest "fair:arm:b", w, outcome')]
      outcome'.nextFairnessCursor :=
    ((CycleChain.nil).snoc rfl (by decide +kernel) hrun).snoc hcites (by decide +kernel) hrun'
  have htime : ∀ cursor, InTime oneSet (oneRequest cursor) (ts "2026-08-15T16:02:00Z") := by
    have hreached : InTime oneSet (oneRequest "") (ts "2026-08-15T16:02:00Z") := by
      unfold InTime
      decide +kernel
    exact fun _ => hreached
  have hfirst : Named oneSet (oneRequest "fair:start") ∧
      AllDue queueEnv oneSet (oneRequest "fair:start") w :=
    ⟨by decide +kernel, allDue_queue (by decide +kernel) (by decide +kernel) (htime _)
      (by decide +kernel) (by decide +kernel)⟩
  have hlater : Named oneSet (oneRequest "fair:arm:b") ∧
      AllDue queueEnv oneSet (oneRequest "fair:arm:b") w :=
    ⟨by decide +kernel, allDue_queue (by decide +kernel) (by decide +kernel) (htime _)
      (by decide +kernel) (by decide +kernel)⟩
  have hdue : ∀ c ∈ [(oneRequest "fair:start", w, outcome), (oneRequest "fair:arm:b", w, outcome')],
      Named oneSet c.1 ∧ AllDue queueEnv oneSet c.1 c.2.1 := by
    intro c hc
    rcases List.mem_pair.mp hc with rfl | rfl
    · exact hfirst
    · exact hlater
  obtain ⟨horder, -, -, hdelivers, hturns⟩ :=
    fair_cycles hchain (by decide +kernel) fun c hc => (hdue c hc).1
  refine ⟨_, _, rfl, hchain, horder, fun k c hk => ?_, fun registration hmem => ?_⟩
  · exact hdelivers k c hk (hdue c (List.mem_of_getElem? hk)).2
  · exact hturns 0 (le_refl 2) (fun c hc => (hdue c hc).2) registration hmem

/-- The pair with room for one event, and none for an event of the first registration. -/
def closedSet : RegistrationSet :=
  { oneSet with registrations := [
      { registration "reg:a" "method:a" "subject:a" with bounds := ⟨0, 524288⟩ },
      registration "reg:b" "method:b" "subject:b"] }

/-- A request that cites the cursor of such a cycle and names the arms otherwise. -/
def renamedRequest : PollCycleRequest :=
  { oneRequest "fair:arm:b" with requiredArms := ["arm:c", "arm:d"] }

/-- **A turn that is passed on.** Both arms have an event in front that every byte bound leaves room
for, and the cycle starts at the first; but its registration may deliver no event, and the cycle
delivers that of the second. Without that bound both events fit. And where the next request names
the arms otherwise, its cycle starts at the first arm again. -/
theorem fair_turn_withheld :
    (∃ outcome w', (runPollCycle queueEnv closedSet (oneRequest "fair:start") 10).run
        (QueueHost.world pairWaiting (ts "2026-08-15T16:02:00Z") []) = some (.ok outcome, w') ∧
      outcome.events.map WaitEvent.registrationId = ["reg:b"] ∧
      outcome.nextFairnessCursor = renamedRequest.fairnessCursor) ∧
    Named closedSet (oneRequest "fair:start") ∧
    (CollectBudget.new closedSet (oneRequest "fair:start")).maxEvents = 1 ∧
    fairnessOrder closedSet (oneRequest "fair:start") = [0, 1] ∧
    (∀ id ∈ ["reg:a", "reg:b"], frontFits oneSet (oneRequest "fair:start") pairWaiting id = true) ∧
    (∀ p ∈ pairWaiting, ∀ event ∈ p.2.events, eventSurfaceBytes event ≤ 524288) ∧
    Named closedSet renamedRequest ∧ fairnessOrder closedSet renamedRequest = [0, 1] := by
  have hruns : (returned ((runPollCycle queueEnv closedSet (oneRequest "fair:start") 10).run
        (QueueHost.world pairWaiting (ts "2026-08-15T16:02:00Z") []))).any
        (fun outcome => outcome.events.map WaitEvent.registrationId == ["reg:b"] &&
          outcome.nextFairnessCursor == renamedRequest.fairnessCursor) = true := by
    decide +kernel
  obtain ⟨outcome, w', hrun, houtcome⟩ := exists_of_returned hruns
  obtain ⟨hevents, hcursor⟩ := Bool.and_eq_true_iff.mp houtcome
  refine ⟨⟨outcome, w', hrun, beq_iff_eq.mp hevents, beq_iff_eq.mp hcursor⟩, ?_⟩
  decide +kernel

end queue

end PollCycle

end Waitprims
