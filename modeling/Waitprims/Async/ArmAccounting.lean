import Mathlib
import Waitprims.Async.CycleRetention
import Waitprims.Async.CycleVisits

/-! # What an arm of a poll outcome says about its events

An arm counts the events of its registration, weighs them and proposes the cursor behind the last
one. The counts are taken from the visit when the row is built; a cancellation, a lost arm or the
posture of the set then withholds the events. Withholding resets the counts of an arm and leaves
its proposal, and an outcome with degraded coverage hands over nothing and keeps every count.

* **`AccountsHonest`** — every arm is in step with the events handed over.
* **`Misaccounts`** — the decisions that withhold what an arm has counted or proposed.
* **`accounts_honest_iff`** — a run accounts honestly exactly unless it decides so. -/

namespace Waitprims

/-- An arm is in step with the events of its registration in the outcome. -/
structure ArmAccounts (outcome : PollCycleOutcome) (arm : CoverageArm) : Prop where
  eventCount : arm.eventCount = (outcome.eventsOf arm.registrationId).length
  byteCount : arm.byteCount = ((outcome.eventsOf arm.registrationId).map eventSurfaceBytes).sum
  status : arm.status = .events ↔ 0 < arm.eventCount
  proposed : outcome.proposedNextAnchors[arm.registrationId]? = some arm.proposedNextAnchor
  continues : arm.proposedNextAnchor =
    ((outcome.eventsOf arm.registrationId).getLast?.map WaitEvent.proposedNextAnchor).getD
      arm.startAnchor

/-- **Honest accounting**: every arm is in step with the events handed over. -/
def AccountsHonest (outcome : PollCycleOutcome) : Prop :=
  ∀ arm ∈ outcome.arms, ArmAccounts outcome arm

namespace PollCycle

open Fueled TreeMap

variable {σ β φ ψ : Type} {env : Env σ β φ ψ} {set : RegistrationSet} {request : PollCycleRequest}
  {resolved : List ResolvedStart} {visits : Visits} {kind : OutcomeKind}
  {reason : Option String} {now : Timestamp} {outcome : PollCycleOutcome}

/-! ## Rows -/

/-- The status of a visit says whether it reports events. -/
theorem visitStatus_reports (visit : Option ArmVisit) :
    (visitStatus visit).1 = .events ↔ ∃ v, visit = some v ∧ v.reports = true := by
  rcases visit with _ | (_ | _ | _ | _ | _ | _ | _ | _ | _) <;>
    simp [visitStatus, ArmVisit.reports]

/-- What the arm of a row counts, weighs and proposes. -/
theorem armRow_counts {idx : Nat} {armId : IdToken} {registration : Registration} {row : ArmRow}
    (h : armRow request resolved visits kind idx armId registration = some row) :
    row.arm.eventCount = (heldEvents visits[idx]?).length ∧
      row.arm.byteCount = ((heldEvents visits[idx]?).map eventSurfaceBytes).sum ∧
      row.arm.status = (visitStatus visits[idx]?).1 ∧
      row.arm.proposedNextAnchor =
        ((heldEvents visits[idx]?).getLast?.map WaitEvent.proposedNextAnchor).getD
          row.arm.startAnchor := by
  unfold armRow at h
  split at h
  · cases h
  · rw [← visitStatus_events]
    obtain rfl := Option.some.inj h
    exact ⟨rfl, rfl, rfl, rfl⟩

/-- Under visits that hold what they report, an arm reports events exactly if it counts some. -/
theorem armRow_status (hheld : ReportsHeld visits) {idx : Nat} {armId : IdToken}
    {registration : Registration} {row : ArmRow}
    (h : armRow request resolved visits kind idx armId registration = some row) :
    row.arm.status = .events ↔ 0 < row.arm.eventCount := by
  obtain ⟨hcount, -, hstatus, -⟩ := armRow_counts h
  rw [hcount, hstatus, List.length_pos_iff]
  constructor
  · intro hevents
    obtain ⟨visit, hvisit, hreports⟩ := (visitStatus_reports _).mp hevents
    rw [hvisit]
    exact hheld idx visit hvisit hreports
  · exact visitStatus_status

/-- Some registration with an honest start holds events. -/
def HoldsStarted (set : RegistrationSet) (request : PollCycleRequest)
    (starts : List ResolvedStart) (visits : Visits) : Prop :=
  ∃ (idx : Nat) (registration : Registration) (start : Anchor),
    set.registrations[idx]? = some registration ∧
      honestStart starts request registration = some start ∧ heldEvents visits[idx]? ≠ []

variable (visits kind) in
/-- A registration with an honest start has a row. -/
theorem exists_row {idx : Nat} {registration : Registration} {start : Anchor}
    (hreg : set.registrations[idx]? = some registration)
    (hstart : honestStart resolved request registration = some start) :
    ∃ armId, ∃ row ∈ armRows set request resolved visits kind,
      armRow request resolved visits kind idx armId registration = some row ∧
        row.arm.startAnchor = start := by
  have hlt : idx < (armIds set request).length := by
    rw [length_armIds]
    exact (List.getElem?_eq_some_iff.mp hreg).1
  have harm := List.getElem?_eq_getElem hlt
  cases hrow : armRow request resolved visits kind idx (armIds set request)[idx] registration with
  | none => simp [armRow, hstart] at hrow
  | some row =>
    obtain ⟨-, -, -, hrowStart⟩ := armRow_eq_some hrow
    exact ⟨_, row, mem_armRows.mpr ⟨idx, _, registration, harm, hreg, hrow⟩, hrow,
      Option.some.inj (hrowStart.symm.trans hstart)⟩

variable (kind) in
/-- Some row counts events exactly when a registration that started holds some. -/
theorem row_counts_iff :
    (∃ row ∈ armRows set request resolved visits kind, row.arm.eventCount ≠ 0) ↔
      HoldsStarted set request resolved visits := by
  constructor
  · rintro ⟨row, hrow, hne⟩
    obtain ⟨idx, armId, registration, -, hreg, hrow⟩ := mem_armRows.mp hrow
    obtain ⟨-, -, -, hstart⟩ := armRow_eq_some hrow
    rw [(armRow_counts hrow).1] at hne
    exact ⟨idx, registration, _, hreg, hstart, fun hnil => hne (by rw [hnil]; rfl)⟩
  · rintro ⟨idx, registration, start, hreg, hstart, hheld⟩
    obtain ⟨armId, row, hmem, hrow, -⟩ := exists_row visits kind hreg hstart
    refine ⟨row, hmem, ?_⟩
    rw [(armRow_counts hrow).1]
    exact fun hzero => hheld (List.length_eq_zero_iff.mp hzero)

variable (kind) in
/-- Some row proposes another anchor than its start exactly when the events move a cursor. -/
theorem row_proposes_iff :
    (∃ row ∈ armRows set request resolved visits kind,
        row.arm.proposedNextAnchor ≠ row.arm.startAnchor) ↔
      CursorAdvanced set request resolved visits := by
  constructor
  · rintro ⟨row, hrow, hne⟩
    obtain ⟨idx, armId, registration, -, hreg, hrow⟩ := mem_armRows.mp hrow
    obtain ⟨-, -, -, hstart⟩ := armRow_eq_some hrow
    rw [(armRow_counts hrow).2.2.2] at hne
    cases hlast : (heldEvents visits[idx]?).getLast? with
    | none =>
      rw [hlast] at hne
      exact absurd rfl hne
    | some event =>
      rw [hlast] at hne
      exact ⟨idx, registration, _, event, hreg, hstart, hlast, hne⟩
  · rintro ⟨idx, registration, start, event, hreg, hstart, hlast, hne⟩
    obtain ⟨armId, row, hmem, hrow, hrowStart⟩ :=
      exists_row visits kind hreg hstart
    refine ⟨row, hmem, ?_⟩
    rw [(armRow_counts hrow).2.2.2, hlast, hrowStart]
    exact hne

/-- The proposals of a built outcome. -/
theorem build_proposed (h : build set request now resolved visits kind reason = .ok outcome) :
    outcome.proposedNextAnchors = collectMap ((armRows set request resolved visits kind).map
      fun row => (row.arm.registrationId, row.arm.proposedNextAnchor)) := by
  unfold build at h
  dsimp only at h
  split at h
  · cases h
  · obtain rfl := Except.ok.inj h
    rfl

/-! ## Outcomes that withhold every event -/

theorem withholdArm_proposed (arm : CoverageArm) :
    (withholdArm arm).proposedNextAnchor = arm.proposedNextAnchor := by
  unfold withholdArm
  split <;> rfl

/-- A withheld arm reports no event and counts none. -/
theorem withholdArm_empty {arm : CoverageArm}
    (hstatus : arm.status = .events ↔ 0 < arm.eventCount)
    (hbytes : arm.eventCount = 0 → arm.byteCount = 0) :
    (withholdArm arm).status ≠ .events ∧ (withholdArm arm).eventCount = 0 ∧
      (withholdArm arm).byteCount = 0 := by
  unfold withholdArm
  split
  · exact ⟨by simp, rfl, rfl⟩
  · next hne =>
    have hzero : arm.eventCount = 0 := by
      by_contra hpos
      exact hne (hstatus.mpr (Nat.pos_of_ne_zero hpos))
    exact ⟨hne, hzero, hbytes hzero⟩

/-- **Withholding leaves the proposals**: an outcome without events accounts honestly exactly if no
cursor had advanced. -/
theorem withheld_accounts_iff
    (hids : (set.registrations.map Registration.registrationId).Nodup)
    (hheld : ReportsHeld visits) (hevents : outcome.events = [])
    (harms : outcome.arms
      = ((armRows set request resolved visits kind).map ArmRow.arm).map withholdArm)
    (hproposed : outcome.proposedNextAnchors
      = collectMap ((armRows set request resolved visits kind).map
        fun row => (row.arm.registrationId, row.arm.proposedNextAnchor))) :
    AccountsHonest outcome ↔ ¬ CursorAdvanced set request resolved visits := by
  have hnone : ∀ rid, outcome.eventsOf rid = [] := fun rid => by
    rw [PollCycleOutcome.eventsOf, hevents]
    rfl
  rw [← row_proposes_iff kind]
  constructor
  · -- an arm that proposes another anchor than its start claims an event that was withheld
    rintro hhonest ⟨row, hrow, hne⟩
    have harm : withholdArm row.arm ∈ outcome.arms := by
      rw [harms]
      exact List.mem_map_of_mem (List.mem_map_of_mem hrow)
    have hcontinues := (hhonest _ harm).continues
    rw [hnone, withholdArm_proposed, withholdArm_startAnchor] at hcontinues
    exact hne hcontinues
  · intro hsame arm harm
    rw [harms, List.mem_map] at harm
    obtain ⟨_, hmem, rfl⟩ := harm
    obtain ⟨row, hrow, rfl⟩ := List.mem_map.mp hmem
    obtain ⟨idx, armId, registration, -, hreg, hrow'⟩ := mem_armRows.mp hrow
    obtain ⟨hcount, hbytes, -, -⟩ := armRow_counts hrow'
    -- an arm that counts nothing weighs nothing
    have hzero : row.arm.eventCount = 0 → row.arm.byteCount = 0 := by
      intro hzero
      rw [hcount, List.length_eq_zero_iff] at hzero
      rw [hbytes, hzero]
      rfl
    obtain ⟨hstatus, hcount, hbytes⟩ := withholdArm_empty (armRow_status hheld hrow') hzero
    refine ⟨?_, ?_, ?_, ?_, ?_⟩
    · rw [hnone, hcount]
      rfl
    · rw [hnone, hbytes]
      rfl
    · rw [hcount]
      simpa using hstatus
    · rw [hproposed, withholdArm_registrationId, withholdArm_proposed, lookup_rows hids]
      exact ⟨row, hrow, rfl, rfl⟩
    · rw [hnone, withholdArm_proposed, withholdArm_startAnchor]
      by_contra hne
      exact hsame ⟨row, hrow, hne⟩

/-! ## Outcomes as they are built -/

/-- **An outcome that is no rejection** accounts honestly if it hands its events over or no arm
counted one. -/
theorem build_accounts_iff
    (hids : (set.registrations.map Registration.registrationId).Nodup)
    (hlabel : VisitsLabelled set visits) (hheld : ReportsHeld visits)
    (h : build set request now resolved visits kind reason = .ok outcome)
    (hkind : kind.rejects = false) :
    AccountsHonest outcome ↔
      ¬ (kind.delivers = false ∧ HoldsStarted set request resolved visits) := by
  obtain ⟨-, -, hevents, harms, -⟩ := build_parts h
  rw [hkind, if_neg (by simp)] at harms
  have hproposed := build_proposed h
  have heventsOf : ∀ row ∈ armRows set request resolved visits kind,
      outcome.eventsOf row.arm.registrationId = row.events := fun row hrow => by
    rw [PollCycleOutcome.eventsOf, hevents]
    exact events_of_row hids (fun row' hrow' => row_labelled hlabel hrow') hrow
  rw [← row_counts_iff kind]
  constructor
  · rintro hhonest ⟨hdeliver, row, hrow, hne⟩
    have harm : row.arm ∈ outcome.arms := by
      rw [harms]
      exact List.mem_map_of_mem hrow
    have hcount := (hhonest _ harm).eventCount
    obtain ⟨idx, armId, registration, -, -, hrow'⟩ := mem_armRows.mp hrow
    rw [heventsOf row hrow, (armRow_retained hrow').1, hdeliver] at hcount
    exact hne hcount
  · intro hdelivers arm harm
    rw [harms, List.mem_map] at harm
    obtain ⟨row, hrow, rfl⟩ := harm
    obtain ⟨idx, armId, registration, -, hreg, hrow'⟩ := mem_armRows.mp hrow
    obtain ⟨hcount, hbytes, -, hlast⟩ := armRow_counts hrow'
    -- What the row hands over is what its visit holds.
    have hall : row.events = heldEvents visits[idx]? := by
      rw [(armRow_retained hrow').1]
      split
      · rfl
      · next hdeliver =>
        by_contra hne
        have hcounted : row.arm.eventCount ≠ 0 := by
          rw [hcount]
          exact fun hzero => hne (List.length_eq_zero_iff.mp hzero).symm
        exact hdelivers ⟨by simpa using hdeliver, row, hrow, hcounted⟩
    refine ⟨?_, ?_, armRow_status hheld hrow', ?_, ?_⟩
    · rw [heventsOf row hrow, hall, hcount]
    · rw [heventsOf row hrow, hall, hbytes]
    · rw [hproposed, lookup_rows hids]
      exact ⟨row, hrow, rfl, rfl⟩
    · rw [heventsOf row hrow, hall, hlast]

/-- **Posture on a built outcome.** -/
theorem applyPosture_accounts_iff
    (hids : (set.registrations.map Registration.registrationId).Nodup)
    (hlabel : VisitsLabelled set visits) (hheld : ReportsHeld visits)
    (h : build set request now resolved visits kind reason = .ok outcome) :
    AccountsHonest (applyPosture set request outcome) ↔
      ¬ (if kind.rejects || postureRejects set request now then
          CursorAdvanced set request resolved visits
        else kind.delivers = false ∧ HoldsStarted set request resolved visits) := by
  obtain ⟨hkind, hnow, hevents, harms, -⟩ := build_parts h
  have hproposed := build_proposed h
  unfold applyPosture postureRejects
  rw [hkind, hnow]
  cases hrejects : kind.rejects with
  | true =>
    have hnil : outcome.events = [] := by
      have hdeliver : kind.delivers = false := by cases kind <;> first | rfl | cases hrejects
      rw [hevents, List.flatMap_eq_nil_iff]
      intro row hrow
      obtain ⟨idx, armId, registration, -, -, hrow⟩ := mem_armRows.mp hrow
      rw [(armRow_retained hrow).1, hdeliver]
      rfl
    rw [hrejects, if_pos rfl] at harms
    simpa using withheld_accounts_iff hids hheld hnil harms hproposed
  | false =>
    rw [hrejects, if_neg (by simp)] at harms
    have hrebuild : ∀ (kind' : OutcomeKind) (reason' : String),
        AccountsHonest (rebuildReason outcome kind' reason') ↔
          ¬ CursorAdvanced set request resolved visits := fun kind' reason' =>
      withheld_accounts_iff hids hheld rfl (congrArg (List.map withholdArm) harms) hproposed
    cases leaseExpired set now with
    | true => simpa using hrebuild .reauthenticationRequired "lease_expired"
    | false =>
      cases authnMissing set request.verificationReceiptRef with
      | true => simpa using hrebuild .refused "authn_required"
      | false => simpa using build_accounts_iff hids hlabel hheld h hrejects

/-! ## Decisions -/

/-- Visits of which a registration that started holds events. -/
theorem HoldsStarted.tally_events (h : HoldsStarted set request resolved visits) :
    (tally set request visits).events ≠ [] := by
  obtain ⟨idx, registration, start, hreg, -, hheld⟩ := h
  obtain ⟨event, rest, hcons⟩ := List.exists_cons_of_ne_nil hheld
  have hmem : event ∈ (tally set request visits).events := by
    rw [PollCycle.tally_events, List.mem_flatMap]
    exact ⟨(registration, visits[idx]?), mem_visited.mpr ⟨idx, hreg, rfl⟩,
      hcons ▸ List.mem_cons_self⟩
  exact List.ne_nil_of_mem hmem

/-- A cursor advances past events that are held. -/
theorem CursorAdvanced.holds (h : CursorAdvanced set request resolved visits) :
    HoldsStarted set request resolved visits := by
  obtain ⟨idx, registration, start, event, hreg, hstart, hlast, -⟩ := h
  exact ⟨idx, registration, start, hreg, hstart, List.ne_nil_of_mem (List.mem_of_getLast? hlast)⟩

/-- Held events keep a tally from being a rejection. -/
theorem kind_not_rejects {t : Tally} (hevents : t.events ≠ []) (atLogical : Bool) :
    (t.kind atLogical).1.rejects = false := by
  obtain ⟨events, overflow, truncated, failed, dirty, deferred⟩ := t
  have hne : events.isEmpty = false := by simpa using hevents
  cases overflow <;> cases dirty <;> cases failed <;> cases truncated <;> cases deferred <;>
    simp [Tally.kind, hne, OutcomeKind.rejects]

/-- What an outcome over these visits withholds: the cursors, if posture rejects it, and else the
events that are not delivered. -/
def WithholdsCounted (set : RegistrationSet) (request : PollCycleRequest) (now : Timestamp)
    (starts : List ResolvedStart) (visits : Visits) : Prop :=
  if postureRejects set request now then CursorAdvanced set request starts visits
  else HoldsStarted set request starts visits ∧ ¬ DeliversVisits set visits

/-- **A decision misaccounts** if it withholds what an arm has counted or proposed. -/
def Misaccounts (set : RegistrationSet) (request : PollCycleRequest) (visits : Visits) :
    Decision → Prop
  | .cancelled _ starts => CursorAdvanced set request starts visits
  | .complete now starts => WithholdsCounted set request now starts visits
  | .deadline now starts =>
    if requiredBindingComplete set starts then WithholdsCounted set request now starts visits
    else CursorAdvanced set request starts visits
  | .fault _ => False

theorem assemble_accounts_iff
    (hids : (set.registrations.map Registration.registrationId).Nodup)
    (hlabel : VisitsLabelled set visits) (hheld : ReportsHeld visits)
    (h : assemble set request now resolved visits = .ok outcome) :
    AccountsHonest outcome ↔ ¬ WithholdsCounted set request now resolved visits := by
  obtain ⟨built, hbuild, rfl⟩ := assemble_eq_ok h
  rw [applyPosture_accounts_iff hids hlabel hheld hbuild]
  refine not_congr ?_
  unfold WithholdsCounted
  by_cases hholds : HoldsStarted set request resolved visits
  · -- With events at hand the kind is no rejection, and delivers them unless an arm is lost.
    have hevents := hholds.tally_events
    rw [kind_not_rejects hevents, Bool.false_or]
    have hdelivers : DeliversVisits set visits ↔
        ((tally set request visits).kind (decide (now ≥ request.logicalDeadline))).1.delivers :=
      deliversVisits_iff.trans (kind_delivers hevents _).symm
    by_cases hposture : postureRejects set request now = true
    · rw [if_pos hposture, if_pos hposture]
    · rw [if_neg hposture, if_neg hposture, hdelivers, Bool.not_eq_true]
      exact and_comm
  · have hadvanced : ¬ CursorAdvanced set request resolved visits := fun h => hholds h.holds
    simp [hholds, hadvanced]

/-- A forced end rejects the cycle, and so withholds whatever the visits hold. -/
theorem finish_forced_accounts_iff
    (hids : (set.registrations.map Registration.registrationId).Nodup)
    (hlabel : VisitsLabelled set visits) (hheld : ReportsHeld visits) {forced : String}
    (h : finish set request now resolved visits (some forced) = .ok outcome) :
    AccountsHonest outcome ↔ ¬ CursorAdvanced set request resolved visits := by
  unfold finish at h
  dsimp only at h
  generalize hkind : (if forced == "consumer_cancelled" then OutcomeKind.cancelled
    else .failed) = k at h
  have hrejects : k.rejects = true := by
    rw [← hkind]
    split <;> rfl
  cases hbuild : build set request now resolved visits k (some forced) with
  | error err =>
    rw [hbuild] at h
    cases h
  | ok built =>
    rw [hbuild] at h
    obtain rfl := Except.ok.inj h
    rw [applyPosture_accounts_iff hids hlabel hheld hbuild, hrejects]
    simp

/-- Filling in missing visits adds no visit that reports events. -/
theorem ReportsHeld.deadlineVisits (h : ReportsHeld visits) :
    ReportsHeld (PollCycle.deadlineVisits set request visits) := by
  intro idx visit hvisit hreports
  rcases deadlineVisits_eq_some hvisit with hold | rfl | rfl
  · exact h idx visit hold hreports
  · cases hreports
  · cases hreports

theorem withholdsCounted_deadlineVisits :
    WithholdsCounted set request now resolved (deadlineVisits set request visits) ↔
      WithholdsCounted set request now resolved visits := by
  unfold WithholdsCounted
  rw [cursorAdvanced_deadlineVisits, deliversVisits_deadlineVisits]
  unfold HoldsStarted
  simp only [heldEvents_deadlineVisits]

/-- **A decision accounts honestly** exactly unless it misaccounts. -/
theorem decision_accounts_iff
    (hids : (set.registrations.map Registration.registrationId).Nodup)
    (hlabel : VisitsLabelled set visits) (hheld : ReportsHeld visits) {decision : Decision}
    (h : decision.outcome set request visits = .ok outcome) :
    AccountsHonest outcome ↔ ¬ Misaccounts set request visits decision := by
  cases decision with
  | cancelled now starts => exact finish_forced_accounts_iff hids hlabel hheld h
  | complete now starts => exact assemble_accounts_iff hids hlabel hheld h
  | deadline now starts =>
    have h : decideAtDeadline set request now starts visits = .ok outcome := h
    unfold decideAtDeadline at h
    unfold Misaccounts
    dsimp only
    cases hbound : requiredBindingComplete set starts with
    | false =>
      rw [hbound] at h
      rw [if_neg (by simp)]
      exact finish_forced_accounts_iff hids hlabel hheld h
    | true =>
      rw [hbound] at h
      have h : assemble set request now starts (deadlineVisits set request visits) = .ok outcome := h
      have hlabel' : VisitsLabelled set (deadlineVisits set request visits) := by
        intro idx registration hreg e he
        rw [heldEvents_deadlineVisits] at he
        exact hlabel idx registration hreg e he
      rw [if_pos rfl, assemble_accounts_iff hids hlabel' hheld.deadlineVisits h,
        withholdsCounted_deadlineVisits]
  | fault err => cases h

/-! ## Runs -/

/-- **When a run accounts honestly**: every arm of a returned outcome is in step with the events
handed over, exactly unless the decision of the loop withholds what an arm counted or proposed. -/
theorem accounts_honest_iff (lab : Labelled env)
    (hids : (set.registrations.map Registration.registrationId).Nodup) (fuel : Nat)
    {w w' : World σ β} {outcome : PollCycleOutcome}
    (hrun : (runPollCycle env set request fuel).run w = some (.ok outcome, w')) :
    ∃ cycle decision w₁,
      (cycleLoop env set request fuel fuel (Cycle.new set request)).run { w with resolved := [] }
        = some (.ok (cycle, decision), w₁) ∧
      (AccountsHonest outcome ↔ ¬ Misaccounts set request cycle.visits decision) := by
  obtain ⟨cycle, decision, w₁, hloop, houtcome⟩ := runPollCycle_decision hrun
  have hlabel : VisitsLabelled set cycle.visits := cycleLoop_labelled lab fuel fuel hloop
  have hheld : ReportsHeld cycle.visits := cycleLoop_visits reportsHeld_invariant hloop
  exact ⟨cycle, decision, w₁, hloop, decision_accounts_iff hids hlabel hheld houtcome⟩

open Case in
theorem accounts_honest_iff_pair :
    ∃ outcome w', (runPollCycle queueEnv pairSet (pollCycleRequest pairSet) 10).run
        (QueueHost.world pairWaiting (ts "2026-08-15T16:02:00Z") []) = some (.ok outcome, w') ∧
      ∃ cycle decision w₁,
        (cycleLoop queueEnv pairSet (pollCycleRequest pairSet) 10 10
          (Cycle.new pairSet (pollCycleRequest pairSet))).run
            { QueueHost.world pairWaiting (ts "2026-08-15T16:02:00Z") [] with resolved := [] }
          = some (.ok (cycle, decision), w₁) ∧
        (AccountsHonest outcome ↔
          ¬ Misaccounts pairSet (pollCycleRequest pairSet) cycle.visits decision) := by
  have hdone : (returned ((runPollCycle queueEnv pairSet (pollCycleRequest pairSet) 10).run
      (QueueHost.world pairWaiting (ts "2026-08-15T16:02:00Z") []))).any (fun _ => true) = true := by
    decide +kernel
  obtain ⟨outcome, w', hrun, -⟩ := exists_of_returned hdone
  exact ⟨outcome, w', hrun, accounts_honest_iff queueFifo.toLabelled (by decide) 10 hrun⟩

open Case in
/-- A lease that runs out before the cycle completes: the outcome hands no event over, and an arm
proposes the cursor behind the event withheld. -/
theorem withheld_event_still_proposed :
    ∃ outcome w', (runPollCycle queueEnv expiringSet (pollCycleRequest expiringSet) 10).run
        (QueueHost.world pairWaiting (ts "2026-08-15T16:02:00Z") []) = some (.ok outcome, w') ∧
      ¬ AccountsHonest outcome := by
  have hdone : (returned ((runPollCycle queueEnv expiringSet (pollCycleRequest expiringSet) 10).run
      (QueueHost.world pairWaiting (ts "2026-08-15T16:02:00Z") []))).any (fun outcome =>
        outcome.events = [] ∧ ∃ arm ∈ outcome.arms, arm.proposedNextAnchor ≠ arm.startAnchor)
      = true := by
    decide +kernel
  obtain ⟨outcome, w', hrun, hparts⟩ := exists_of_returned hdone
  obtain ⟨hevents, arm, harm, hne⟩ := of_decide_eq_true hparts
  refine ⟨outcome, w', hrun, fun hhonest => hne ?_⟩
  have hcontinues := (hhonest arm harm).continues
  rw [PollCycleOutcome.eventsOf, hevents] at hcontinues
  exact hcontinues

end PollCycle

end Waitprims
