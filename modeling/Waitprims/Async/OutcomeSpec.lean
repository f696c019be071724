import Mathlib
import Waitprims.Async.PollOutcome

/-! # What the outcome of a poll cycle says about its visits

The kind is decided from a tally of the visits and the outcome is built row by row. Here the tally
is characterised by the visits it counts, and the rows by the registrations they are for.

* **`tally_events`**, **`tally_overflow`**, … — each field of the tally as a fact about the visits.
* **`mem_armRows`** — the row of a registration.
* **`lookup_rows`** — under distinct ids, a map collected from the rows is read off by registration.
* **`deadlineVisits_lookup`** — a deadline only fills in visits that are missing. -/

namespace Waitprims

/-- A visit whose drain was cut short. -/
def ArmVisit.isSaturated : ArmVisit → Bool
  | .saturated _ => true
  | _ => false

/-- A visit that makes a required arm dirty. -/
def ArmVisit.isDirty : ArmVisit → Bool
  | .outage _ | .cursorUncertain _ | .degraded _ => true
  | _ => false

/-- A visit of a failed arm. -/
def ArmVisit.isFailed : ArmVisit → Bool
  | .failed _ => true
  | _ => false

namespace PollCycle

open TreeMap (collectMap)

variable {set : RegistrationSet} {request : PollCycleRequest} {visits : Visits}

/-! ## The tally -/

/-- Each registration with its visit, in fairness order. -/
def visited (set : RegistrationSet) (request : PollCycleRequest) (visits : Visits) :
    List (Registration × Option ArmVisit) :=
  (fairnessOrder set request).filterMap fun idx =>
    set.registrations[idx]?.map fun registration => (registration, visits[idx]?)

theorem mem_visited {registration : Registration} {visit : Option ArmVisit} :
    (registration, visit) ∈ visited set request visits ↔
      ∃ idx : Nat, set.registrations[idx]? = some registration ∧ visits[idx]? = visit := by
  simp only [visited, List.mem_filterMap, Option.map_eq_some_iff, Prod.mk.injEq]
  constructor
  · rintro ⟨idx, _, reg, hreg, rfl, hvisit⟩
    exact ⟨idx, hreg, hvisit⟩
  · rintro ⟨idx, hreg, hvisit⟩
    have hlt := (List.getElem?_eq_some_iff.mp hreg).1
    exact ⟨idx, mem_fairnessOrder.mpr hlt, registration, hreg, rfl, hvisit⟩

/-- The loop of `decide_kind` as a fold over the registrations and their visits. -/
theorem tally_eq_foldl :
    tally set request visits = (visited set request visits).foldl
      (fun acc p => acc.visit p.1.required p.2) ⟨[], false, false, none, false, false⟩ := by
  unfold tally visited
  rw [List.foldl_filterMap]
  congr 1
  funext acc idx
  cases set.registrations[idx]? <;> rfl

/-- The events an optional visit holds. -/
def heldEvents (visit : Option ArmVisit) : List WaitEvent := (visit.map ArmVisit.held).getD []

section fold

variable (acc : Tally) (entries : List (Registration × Option ArmVisit))

theorem foldl_visit_events :
    (entries.foldl (fun acc p => acc.visit p.1.required p.2) acc).events
      = acc.events ++ entries.flatMap fun p => heldEvents p.2 := by
  induction entries generalizing acc with
  | nil => simp
  | cons p rest ih =>
    obtain ⟨registration, visit⟩ := p
    rw [List.foldl_cons, ih, List.flatMap_cons, ← List.append_assoc]
    congr 1
    rcases visit with _ | (_ | _ | _ | _ | _ | _ | _ | _ | _) <;>
      simp [Tally.visit, heldEvents, ArmVisit.held]

/-- **A flag of the tally** is raised by the first entry that raises it. -/
theorem foldl_visit_flag (flag : Tally → Bool) (raises : Bool → Option ArmVisit → Bool)
    (h : ∀ (acc : Tally) (required : Bool) (visit : Option ArmVisit),
      flag (acc.visit required visit) = (flag acc || raises required visit)) :
    flag (entries.foldl (fun acc p => acc.visit p.1.required p.2) acc)
      = (flag acc || entries.any fun p => raises p.1.required p.2) := by
  induction entries generalizing acc with
  | nil => simp
  | cons p rest ih => rw [List.foldl_cons, ih, h, List.any_cons, Bool.or_assoc]

end fold

theorem tally_events :
    (tally set request visits).events
      = (visited set request visits).flatMap fun p => heldEvents p.2 := by
  rw [tally_eq_foldl, foldl_visit_events]
  rfl

theorem tally_overflow :
    (tally set request visits).overflow
      = (visited set request visits).any fun p => p.2 == some .overflow := by
  rw [tally_eq_foldl, foldl_visit_flag _ _ Tally.overflow fun _ visit => visit == some .overflow]
  · rfl
  · rintro acc required (_ | (_ | _ | _ | _ | _ | _ | _ | _ | _)) <;> simp [Tally.visit]

theorem tally_truncated :
    (tally set request visits).truncated
      = (visited set request visits).any fun p => (p.2.map ArmVisit.isSaturated).getD false := by
  rw [tally_eq_foldl, foldl_visit_flag _ _ Tally.truncated
    fun _ visit => (visit.map ArmVisit.isSaturated).getD false]
  · rfl
  · rintro acc required (_ | (_ | _ | _ | _ | _ | _ | _ | _ | _)) <;>
      simp [Tally.visit, ArmVisit.isSaturated]

theorem tally_dirty :
    (tally set request visits).dirty = (visited set request visits).any fun p =>
      p.1.required && (p.2.map ArmVisit.isDirty).getD false := by
  rw [tally_eq_foldl, foldl_visit_flag _ _ Tally.dirty
    fun required visit => required && (visit.map ArmVisit.isDirty).getD false]
  · rfl
  · rintro acc required (_ | (_ | _ | _ | _ | _ | _ | _ | _ | _)) <;>
      simp [Tally.visit, ArmVisit.isDirty]

theorem tally_failed :
    (tally set request visits).failed.isSome = (visited set request visits).any fun p =>
      (p.2.map ArmVisit.isFailed).getD false := by
  rw [tally_eq_foldl, foldl_visit_flag _ _ (fun tally => tally.failed.isSome)
    fun _ visit => (visit.map ArmVisit.isFailed).getD false]
  · rfl
  · rintro acc required (_ | (_ | _ | _ | _ | _ | _ | _ | _ | _)) <;>
      simp [Tally.visit, ArmVisit.isFailed]

theorem tally_deferredRequired :
    (tally set request visits).deferredRequired = (visited set request visits).any fun p =>
      p.1.required && p.2 == some .deferred := by
  rw [tally_eq_foldl, foldl_visit_flag _ _ Tally.deferredRequired
    fun required visit => required && visit == some .deferred]
  · rfl
  · rintro acc required (_ | (_ | _ | _ | _ | _ | _ | _ | _ | _)) <;> simp [Tally.visit]

/-! ## The rows -/

/-- The registrations of a set with their arm ids. -/
theorem length_armIdsFrom (requiredIndex : Nat) (registrations : List Registration) :
    (armIdsFrom request requiredIndex registrations).length = registrations.length := by
  induction registrations generalizing requiredIndex with
  | nil => rfl
  | cons registration rest ih => simp [armIdsFrom, ih]

@[simp] theorem length_armIds : (armIds set request).length = set.registrations.length :=
  length_armIdsFrom 0 set.registrations

variable {resolved : List ResolvedStart} {kind : OutcomeKind}

/-- **The rows of an outcome** are those of the registrations that have one. -/
theorem mem_armRows {row : ArmRow} :
    row ∈ armRows set request resolved visits kind ↔
      ∃ (idx : Nat) (armId : IdToken) (registration : Registration),
        (armIds set request)[idx]? = some armId ∧ set.registrations[idx]? = some registration ∧
          armRow request resolved visits kind idx armId registration = some row := by
  simp only [armRows, List.mem_filterMap, Prod.exists]
  constructor
  · rintro ⟨armId, registration, idx, hmem, hrow⟩
    have hzip := List.mem_zipIdx_iff_getElem?.mp hmem
    obtain ⟨harm, hreg⟩ := List.getElem?_zip_eq_some.mp hzip
    exact ⟨idx, armId, registration, harm, hreg, hrow⟩
  · rintro ⟨idx, armId, registration, harm, hreg, hrow⟩
    exact ⟨armId, registration, idx,
      List.mem_zipIdx_iff_getElem?.mpr (List.getElem?_zip_eq_some.mpr ⟨harm, hreg⟩), hrow⟩

/-- A row is for its registration and starts where the registration honestly starts. -/
theorem armRow_eq_some {idx : Nat} {armId : IdToken} {registration : Registration} {row : ArmRow}
    (h : armRow request resolved visits kind idx armId registration = some row) :
    row.arm.armId = armId ∧ row.arm.registrationId = registration.registrationId ∧
      row.arm.required = registration.required ∧
      honestStart resolved request registration = some row.arm.startAnchor := by
  unfold armRow at h
  split at h
  · cases h
  · next start hstart =>
    obtain rfl := Option.some.inj h
    exact ⟨rfl, rfl, rfl, hstart⟩

/-- The events of a visit's status are those it holds. -/
theorem visitStatus_events (visit : Option ArmVisit) :
    (visitStatus visit).2.2.2 = heldEvents visit := by
  rcases visit with _ | (_ | _ | _ | _ | _ | _ | _ | _ | _) <;> rfl

/-- Only an arm that reports events holds some. -/
theorem visitStatus_status {visit : Option ArmVisit} (h : heldEvents visit ≠ []) :
    (visitStatus visit).1 = .events := by
  rcases visit with _ | (_ | _ | _ | _ | _ | _ | _ | _ | _) <;>
    first | rfl | exact absurd rfl h

/-- What a row hands over and retains, in terms of the events its visit holds. -/
theorem armRow_retained {idx : Nat} {armId : IdToken} {registration : Registration} {row : ArmRow}
    (h : armRow request resolved visits kind idx armId registration = some row) :
    row.events = (if kind.delivers then heldEvents visits[idx]? else []) ∧
      row.retainedIds = row.events.map WaitEvent.eventId ∧
      row.retainedCursor
        = (row.events.getLast?.map WaitEvent.proposedNextAnchor).getD row.arm.startAnchor := by
  unfold armRow at h
  split at h
  · cases h
  · next start _ =>
    have hstatus : heldEvents visits[idx]? ≠ [] → _ := visitStatus_status
    rw [← visitStatus_events] at hstatus ⊢
    generalize visitStatus visits[idx]? = visit at h hstatus ⊢
    obtain ⟨status, degraded, reason, armEvents⟩ := visit
    obtain rfl := Option.some.inj h
    cases kind.delivers with
    | false => simp
    | true =>
      by_cases hnil : armEvents = []
      · simp [hnil]
      · have hevents : status = .events := hstatus hnil
        simp [hevents, hnil]

/-- Rows keep the order of the registrations. -/
theorem armRows_ids_sublist :
    ((armRows set request resolved visits kind).map fun row => row.arm.registrationId).Sublist
      (set.registrations.map Registration.registrationId) := by
  have hkeys : ((((armIds set request).zip set.registrations).zipIdx).map
      fun p => p.1.2.registrationId) = set.registrations.map Registration.registrationId := by
    have hsnd : ((armIds set request).zip set.registrations).map Prod.snd = set.registrations :=
      List.map_snd_zip (by simp)
    have hfst := congrArg (List.map fun p : IdToken × Registration => p.2.registrationId)
      (List.zipIdx_map_fst 0 ((armIds set request).zip set.registrations))
    rw [List.map_map] at hfst
    refine hfst.trans ?_
    rw [← hsnd, List.map_map, hsnd]
    rfl
  rw [← hkeys]
  unfold armRows
  induction ((armIds set request).zip set.registrations).zipIdx with
  | nil => exact List.Sublist.slnil
  | cons p rest ih =>
    cases hrow : armRow request resolved visits kind p.2 p.1.1 p.1.2 with
    | none => simpa [hrow] using ih.cons _
    | some row =>
      obtain ⟨-, hid, -⟩ := armRow_eq_some hrow
      simpa [hrow, hid] using ih.cons_cons p.1.2.registrationId

/-- **Under distinct ids, a map collected from the rows is read off by registration.** -/
theorem lookup_rows {υ : Type} (hids : (set.registrations.map Registration.registrationId).Nodup)
    (f : ArmRow → υ) {rid : IdToken} {value : υ} :
    (collectMap ((armRows set request resolved visits kind).map
        fun row => (row.arm.registrationId, f row)))[rid]? = some value ↔
      ∃ row ∈ armRows set request resolved visits kind,
        row.arm.registrationId = rid ∧ f row = value := by
  rw [TreeMap.getElem?_collectMap]
  · simp [List.mem_map]
  · rw [List.map_map]
    exact hids.sublist armRows_ids_sublist

/-- Under distinct ids, a registration has at most one row. -/
theorem row_unique (hids : (set.registrations.map Registration.registrationId).Nodup)
    {row row' : ArmRow} (hrow : row ∈ armRows set request resolved visits kind)
    (hrow' : row' ∈ armRows set request resolved visits kind)
    (hid : row.arm.registrationId = row'.arm.registrationId) : row = row' :=
  List.inj_on_of_nodup_map (hids.sublist armRows_ids_sublist) hrow hrow' hid

/-- The events of one registration among those of all rows. -/
theorem events_of_row (hids : (set.registrations.map Registration.registrationId).Nodup)
    (hlabel : ∀ row ∈ armRows set request resolved visits kind,
      ∀ e ∈ row.events, e.registrationId = row.arm.registrationId)
    {row : ArmRow} (hrow : row ∈ armRows set request resolved visits kind) :
    ((armRows set request resolved visits kind).flatMap ArmRow.events).filter
        (fun e => e.registrationId = row.arm.registrationId) = row.events := by
  have hfilter : ∀ row' ∈ armRows set request resolved visits kind,
      row'.events.filter (fun e => e.registrationId = row.arm.registrationId)
        = if row'.arm.registrationId = row.arm.registrationId then row'.events else [] := by
    intro row' hrow'
    split
    · next heq =>
      rw [List.filter_eq_self]
      intro e he
      simpa using (hlabel row' hrow' e he).trans heq
    · next hne =>
      rw [List.filter_eq_nil_iff]
      intro e he
      simpa [hlabel row' hrow' e he] using hne
  rw [List.filter_flatMap, List.flatMap_congr hfilter]
  have hone := TreeMap.filter_key (hids.sublist armRows_ids_sublist) hrow
  have hsplit : ∀ rows : List ArmRow,
      (rows.flatMap fun row' =>
          if row'.arm.registrationId = row.arm.registrationId then row'.events else [])
        = (rows.filter fun row' =>
            row'.arm.registrationId = row.arm.registrationId).flatMap ArmRow.events := by
    intro rows
    induction rows with
    | nil => rfl
    | cons row' rest ih =>
      by_cases h : row'.arm.registrationId = row.arm.registrationId <;> simp [h, ih]
  rw [hsplit, hone]
  simp

/-! ## Deadlines -/

/-- A deadline only fills in the visits that are missing. -/
theorem deadlineVisits_lookup (idx : Nat) :
    (deadlineVisits set request visits)[idx]? =
      visits[idx]?.or (if idx < set.registrations.length then
        some (deadlineVisit (visits.values.any fun visit => !visit.held.isEmpty)) else none) := by
  unfold deadlineVisits
  generalize (visits.values.any fun visit => !visit.held.isEmpty) = sawEvents
  have hfold : ∀ (order : List Nat) (acc : Visits),
      (order.foldl (fun acc idx => acc.insertIfNew idx (deadlineVisit sawEvents)) acc)[idx]?
        = acc[idx]?.or (if idx ∈ order then some (deadlineVisit sawEvents) else none) := by
    intro order
    induction order with
    | nil => simp
    | cons k rest ih =>
      intro acc
      rw [List.foldl_cons, ih, Std.ExtTreeMap.getElem?_insertIfNew]
      by_cases hk : k = idx
      · subst hk
        cases h : acc[k]? with
        | some visit => simp [Std.ExtTreeMap.mem_iff_isSome_getElem?, h]
        | none => simp [Std.ExtTreeMap.mem_iff_isSome_getElem?, h]
      · have hk' : idx ≠ k := fun h => hk h.symm
        simp [hk, hk']
  simpa using hfold (fairnessOrder set request) visits

end PollCycle

end Waitprims
