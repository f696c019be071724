import Mathlib
import Waitprims.Async.CycleRun
import Waitprims.Async.FifoObserver
import Waitprims.Async.OutcomeSpec
import Waitprims.Async.QueueObserver
import Waitprims.Testkit.Case

/-! # What a poll outcome retains

An ack commits the retained cursors and event ids of an outcome, so a retained cursor must not pass
an event the consumer was not handed. `build` keeps the two in step. `apply_posture` withholds the
events of a finished outcome and empties the event map, but leaves the cursors where the events had
put them.

* **`RetainedHonest`** — cursors and event ids are in step with the events handed over.
* **`labelLedger`** — the visits of a cycle hold events of their own registration.
* **`retained_honest_iff`** — a run retains honestly unless posture rejects a delivery that had
  advanced a cursor. -/

namespace Waitprims

/-- The events of one registration in an outcome. -/
def PollCycleOutcome.eventsOf (outcome : PollCycleOutcome) (rid : IdToken) : List WaitEvent :=
  outcome.events.filter fun e => e.registrationId = rid

/-- Each cursor is the start of its arm or the cursor after the last event handed over, and the
ids with it are those of the events handed over. -/
def InStep (outcome : PollCycleOutcome) (cursors : BTreeMap String Anchor)
    (eventIds : BTreeMap String (List IdToken)) : Prop :=
  ∀ (rid : IdToken) (anchor : Anchor), cursors[rid]? = some anchor →
    ((∃ arm ∈ outcome.arms, arm.registrationId = rid ∧ arm.startAnchor = anchor) ∨
      (outcome.eventsOf rid).getLast?.map WaitEvent.proposedNextAnchor = some anchor) ∧
    eventIds[rid]? = some ((outcome.eventsOf rid).map WaitEvent.eventId)

/-- **Honest retention**: what an outcome retains is in step with the events it hands over. -/
def RetainedHonest (outcome : PollCycleOutcome) : Prop :=
  InStep outcome outcome.retainedThrough outcome.retainedEvents

/-- **Honest commit**: what an ack commits is in step with the events of the outcome. -/
def CommitHonest (outcome : PollCycleOutcome) (ack : PollCycleAck) : Prop :=
  InStep outcome ack.committedAnchors ack.retainedEvents

namespace PollCycle

open Fueled TreeMap

variable {σ β φ ψ : Type} {env : Env σ β φ ψ} {set : RegistrationSet} {request : PollCycleRequest}

/-! ## Labels of admitted events -/

/-- An assertion that only looks at the items is kept by a step of the host. -/
theorem host_const {α : Type} {P : Prop} {f : σ → α × σ} :
    Triple (fun _ : World σ β => P) (Act.host f) fun _ _ => P :=
  host_spec fun _ h => h

/-- **Labels are a ledger**: every dequeued event carries the id of its slot. -/
def labelLedger (lab : Labelled env) (ids : List IdToken) : Ledger env ids where
  own _ items _ := AtSlots env ids items
  broken _ := True
  broken_host := fun _ h => h
  aim slot fut := ids[slot]? = some (lab.bindTarget fut)
  seat slot bind := ids[slot]? = some (env.registrationId bind)
  attached bind fut := lab.nextTarget fut = env.registrationId bind
  settle := fun _ hsub _ h item hitem => h item (hsub hitem)
  resolved := fun _ h => h
  bind := by
    intro slot registration _ items hslot
    refine host_spec fun w h => ⟨?_, h⟩
    rw [lab.bind_target]
    exact hslot
  pollBind := by
    intro slot fut _ items haim
    refine host_spec fun w h => ⟨fun bind hbind => ?_, h⟩
    rw [lab.pollBind_target fut w.host bind hbind]
    exact haim
  dropBind := fun _ _ _ => host_const
  next := by
    intro slot bind _ items _
    have hstep : Triple (fun _ : World σ β => AtSlots env ids items) (Act.host (env.nextStep bind))
        fun fut _ => lab.nextTarget fut = env.registrationId bind ∧ AtSlots env ids items :=
      host_spec fun w h => ⟨lab.next_target bind w.host, h⟩
    exact Triple.bind hstep fun fut => Triple.pure fun w h => ⟨rfl, h⟩
  pollNext := by
    intro slot bind fut _ items hseat hattached
    have hstep : Triple (fun _ : World σ β => AtSlots env ids items)
        (Act.host (env.pollNextStep fut)) fun answer _ => match answer with
          | .ready (.ok obs) => AtSlots env ids (items ++ [Item.of .fresh slot bind obs])
          | _ => AtSlots env ids items := by
      refine host_spec fun w h => ?_
      have hlabel := lab.pollNext_label fut w.host
      rw [hattached] at hlabel
      split
      · next obs hobs => exact h.snoc (atSlot_of hseat fun e he => hlabel e (by rw [hobs, he]))
      · exact h
    refine Triple.bind hstep ?_
    rintro ((err | obs) | _)
    · exact Triple.pure fun w h => h
    · exact Triple.bind (record_spec fun w h => h) fun _ => Triple.pure fun w h => h
    · exact Triple.pure fun w h => h
  dropNext := fun _ _ _ => host_const
  pollReady := by
    intro slot bind mark _ items hseat _
    have hstep : Triple (fun _ : World σ β => AtSlots env ids items)
        (Act.host (env.pollReadyStep bind)) fun answer _ => match answer with
          | some obs => AtSlots env ids (items ++ [Item.of mark slot bind obs])
          | none => AtSlots env ids items := by
      refine host_spec fun w h => ?_
      split
      · next obs hobs =>
        exact h.snoc (atSlot_of hseat fun e he =>
          lab.pollReady_label bind w.host e (by rw [hobs, he]))
      · exact h
    refine Triple.bind hstep fun answer => ?_
    exact Triple.bind (record_spec fun w h => h) fun _ => Triple.pure fun w h => h
  restoreEvent := by
    intro slot bind event _ items _
    refine Triple.bind (R := fun _ _ => AtSlots env ids items)
      (host_spec fun w h => h.init) fun answer => ?_
    refine Triple.bind (record_spec fun w h => h) fun _ => Triple.pure fun w h => ?_
    cases answer with
    | ok _ => exact h
    | error _ => trivial
  restoreSignal := by
    intro slot bind mark obs _ items _ _ _
    refine Triple.bind (R := fun _ _ => AtSlots env ids items)
      (host_spec fun w h => h.init) fun answer => ?_
    refine Triple.bind (record_spec fun w h => h) fun _ => Triple.pure fun w h => ?_
    cases answer with
    | ok _ => exact h
    | error _ => trivial
  markAdmitted := fun _ _ => record_spec fun _ h => h
  markVisited := fun _ _ => record_spec fun _ h => h
  now := fun _ _ => host_const
  sleepUntil := fun _ _ _ => host_const
  isCancelled := fun _ _ => host_const
  park := fun _ _ => host_const

/-- The events a visit holds carry the id of its registration. -/
def VisitsLabelled (set : RegistrationSet) (visits : Visits) : Prop :=
  ∀ (idx : Nat) (registration : Registration), set.registrations[idx]? = some registration →
    ∀ e ∈ heldEvents visits[idx]?, e.registrationId = registration.registrationId

/-- **The visits at the end of the loop are labelled.** -/
theorem cycleLoop_labelled (lab : Labelled env) (fuel turns : Nat) {w w' : World σ β}
    {cycle : Cycle β} {decision : Decision}
    (hrun : (cycleLoop env set request fuel turns (Cycle.new set request)).run w
      = some (.ok (cycle, decision), w')) : VisitsLabelled set cycle.visits := by
  set ids := set.registrations.map Registration.registrationId with hids
  have hspec : ETriple _ (cycleLoop env set request fuel turns (Cycle.new set request)) _ _ :=
    cycleLoop_spec (labelLedger lab ids) hids fuel turns (Cycle.new set request)
  have hstart : CycleOwn (labelLedger lab ids) set (Cycle.new set request) w :=
    cycleNew_own (by simp [labelLedger, AtSlots])
  obtain ⟨hok, hitems⟩ := hspec w hstart _ w' hrun
  intro idx registration hreg e he
  cases hvisit : cycle.visits[idx]? with
  | none => simp [hvisit, heldEvents] at he
  | some visit =>
    have hmem : idx ∈ cycle.visits := by simp [Std.ExtTreeMap.mem_iff_isSome_getElem?, hvisit]
    obtain ⟨bind, hbind⟩ := Option.isSome_iff_exists.mp (hok.visits idx hmem)
    have hitem := hitems (.event idx bind e) (mem_placed.mpr ⟨idx, visit, bind,
      Std.ExtTreeMap.mem_toList_iff_getElem?_eq_some.mpr hvisit, hbind,
      List.mem_map.mpr ⟨e, by simpa [hvisit, heldEvents] using he, rfl⟩⟩)
    have hslot : ids[idx]? = some registration.registrationId := by
      rw [hids, List.getElem?_map, hreg]
      rfl
    have hid := hitem.1.symm.trans hslot
    rw [hitem.2 idx bind e rfl]
    exact Option.some.inj hid

/-! ## Rows and posture -/

variable {resolved : List ResolvedStart} {visits : Visits} {kind : OutcomeKind}
  {reason : Option String} {now : Timestamp} {outcome : PollCycleOutcome}

/-- Withholding changes no identity and no anchor of an arm. -/
theorem withholdArm_registrationId (arm : CoverageArm) :
    (withholdArm arm).registrationId = arm.registrationId := by
  unfold withholdArm
  split <;> rfl

theorem withholdArm_startAnchor (arm : CoverageArm) :
    (withholdArm arm).startAnchor = arm.startAnchor := by
  unfold withholdArm
  split <;> rfl

/-- An empty event map has every arm's registration. -/
theorem lookup_emptyEventMap {arms : List CoverageArm} {arm : CoverageArm} (harm : arm ∈ arms) :
    (emptyEventMap arms)[arm.registrationId]? = some [] := by
  have hmem : arm.registrationId ∈ emptyEventMap arms :=
    mem_collectMap.mpr (by simpa using ⟨arm, harm, rfl⟩)
  obtain ⟨ids, hids⟩ := Option.isSome_iff_exists.mp (Std.ExtTreeMap.mem_iff_isSome_getElem?.mp hmem)
  rw [hids]
  unfold emptyEventMap at hids
  rw [lookup_collectMap, Option.map_eq_some_iff] at hids
  obtain ⟨entry, hfind, rfl⟩ := hids
  have hentry := List.mem_reverse.mp (List.mem_of_find?_eq_some hfind)
  obtain ⟨_, _, rfl⟩ := List.mem_map.mp hentry
  rfl

/-- Rows hold events of their own registration. -/
theorem row_labelled (hlabel : VisitsLabelled set visits) {row : ArmRow}
    (hrow : row ∈ armRows set request resolved visits kind) :
    ∀ e ∈ row.events, e.registrationId = row.arm.registrationId := by
  obtain ⟨idx, armId, registration, -, hreg, hrow⟩ := mem_armRows.mp hrow
  obtain ⟨hevents, -, -⟩ := armRow_retained hrow
  obtain ⟨-, hid, -, -⟩ := armRow_eq_some hrow
  intro e he
  rw [hid]
  refine hlabel idx registration hreg e ?_
  rw [hevents] at he
  split at he
  · exact he
  · cases he

/-- The parts of a built outcome that concern retention. -/
theorem build_parts (h : build set request now resolved visits kind reason = .ok outcome) :
    outcome.outcomeKind = kind ∧ outcome.completedAt = now ∧
      outcome.events = (armRows set request resolved visits kind).flatMap ArmRow.events ∧
      outcome.arms = (if kind.rejects then
        ((armRows set request resolved visits kind).map ArmRow.arm).map withholdArm
        else (armRows set request resolved visits kind).map ArmRow.arm) ∧
      outcome.retainedThrough = collectMap ((armRows set request resolved visits kind).map
        fun row => (row.arm.registrationId, row.retainedCursor)) ∧
      outcome.retainedEvents = (if kind.rejects then emptyEventMap outcome.arms
        else collectMap ((armRows set request resolved visits kind).map
          fun row => (row.arm.registrationId, row.retainedIds))) := by
  unfold build at h
  dsimp only at h
  split at h
  · cases h
  · obtain rfl := Except.ok.inj h
    refine ⟨rfl, rfl, ?_, rfl, rfl, rfl⟩
    cases hkind : kind.rejects with
    | false => rfl
    | true =>
      have hdeliver : kind.delivers = false := by cases kind <;> first | rfl | cases hkind
      have hnil : ∀ row ∈ armRows set request resolved visits kind, row.events = [] := by
        intro row hrow
        obtain ⟨idx, armId, registration, -, -, hrow⟩ := mem_armRows.mp hrow
        rw [(armRow_retained hrow).1, hdeliver]
        rfl
      symm
      simpa [List.flatMap_eq_nil_iff] using hnil

/-- **`build` retains honestly**, whatever the kind. -/
theorem build_honest (hids : (set.registrations.map Registration.registrationId).Nodup)
    (hlabel : VisitsLabelled set visits)
    (h : build set request now resolved visits kind reason = .ok outcome) :
    RetainedHonest outcome := by
  obtain ⟨-, -, hevents, harms, hthrough, hretained⟩ := build_parts h
  intro rid anchor hlookup
  rw [hthrough, lookup_rows hids] at hlookup
  obtain ⟨row, hrow, rfl, rfl⟩ := hlookup
  have heventsOf : outcome.eventsOf row.arm.registrationId = row.events := by
    rw [PollCycleOutcome.eventsOf, hevents]
    exact events_of_row hids (fun row' hrow' => row_labelled hlabel hrow') hrow
  obtain ⟨idx, armId, registration, -, -, hrow'⟩ := mem_armRows.mp hrow
  obtain ⟨hrowEvents, hrowIds, hcursor⟩ := armRow_retained hrow'
  rw [heventsOf]
  refine ⟨?_, ?_⟩
  · cases hlast : row.events.getLast? with
    | some e => exact Or.inr (by rw [hcursor, hlast]; rfl)
    | none =>
      left
      rw [harms]
      cases kind.rejects with
      | false => exact ⟨row.arm, by simpa using ⟨row, hrow, rfl⟩, rfl, by rw [hcursor, hlast]; rfl⟩
      | true =>
        refine ⟨withholdArm row.arm, by simpa using ⟨row, hrow, rfl⟩,
          withholdArm_registrationId _, ?_⟩
        rw [withholdArm_startAnchor, hcursor, hlast]
        rfl
  · rw [hretained]
    cases hkind : kind.rejects with
    | false =>
      rw [if_neg (by simp), lookup_rows hids]
      exact ⟨row, hrow, rfl, hrowIds⟩
    | true =>
      have hdeliver : kind.delivers = false := by cases kind <;> first | rfl | cases hkind
      have harm : withholdArm row.arm ∈ outcome.arms := by
        rw [harms, hkind]
        simpa using ⟨row, hrow, rfl⟩
      have hempty := lookup_emptyEventMap harm
      rw [withholdArm_registrationId] at hempty
      rw [if_pos rfl, hempty, hrowEvents, hdeliver]
      rfl

/-- **Withholding the events of a built outcome** is honest only if no cursor had advanced. -/
theorem rebuildReason_honest_iff
    (hids : (set.registrations.map Registration.registrationId).Nodup)
    (h : build set request now resolved visits kind reason = .ok outcome)
    (hkind : kind.rejects = false) (kind' : OutcomeKind) (reason' : String) :
    RetainedHonest (rebuildReason outcome kind' reason') ↔
      ∀ row ∈ armRows set request resolved visits kind,
        row.retainedCursor = row.arm.startAnchor := by
  obtain ⟨-, -, -, harms, hthrough, -⟩ := build_parts h
  rw [hkind, if_neg (by simp)] at harms
  have hnone : ∀ rid, (rebuildReason outcome kind' reason').eventsOf rid = [] := fun _ => rfl
  constructor
  · intro hhonest row hrow
    have hlookup : (rebuildReason outcome kind' reason').retainedThrough[row.arm.registrationId]?
        = some row.retainedCursor := by
      show outcome.retainedThrough[row.arm.registrationId]? = _
      rw [hthrough, lookup_rows hids]
      exact ⟨row, hrow, rfl, rfl⟩
    rcases (hhonest _ _ hlookup).1 with ⟨arm, harm, hid, hstart⟩ | hlast
    · have harm' : arm ∈ outcome.arms.map withholdArm := harm
      rw [harms, List.mem_map] at harm'
      obtain ⟨_, hmem, rfl⟩ := harm'
      obtain ⟨row', hrow', rfl⟩ := List.mem_map.mp hmem
      rw [withholdArm_registrationId] at hid
      rw [withholdArm_startAnchor, row_unique hids hrow' hrow hid] at hstart
      exact hstart.symm
    · rw [hnone] at hlast
      cases hlast
  · intro hcursor rid anchor hlookup
    have hlookup' : outcome.retainedThrough[rid]? = some anchor := hlookup
    rw [hthrough, lookup_rows hids] at hlookup'
    obtain ⟨row, hrow, rfl, rfl⟩ := hlookup'
    have harm : withholdArm row.arm ∈ (rebuildReason outcome kind' reason').arms := by
      show withholdArm row.arm ∈ outcome.arms.map withholdArm
      rw [harms]
      exact List.mem_map_of_mem (List.mem_map_of_mem hrow)
    refine ⟨Or.inl ⟨_, harm, withholdArm_registrationId _, ?_⟩, ?_⟩
    · rw [withholdArm_startAnchor, hcursor row hrow]
    · have hempty := lookup_emptyEventMap harm
      rw [withholdArm_registrationId] at hempty
      rw [hnone]
      exact hempty

/-- Posture rejects what is completed at `now`. -/
def postureRejects (set : RegistrationSet) (request : PollCycleRequest) (now : Timestamp) : Bool :=
  leaseExpired set now || authnMissing set request.verificationReceiptRef

/-- **Posture on a built outcome.** -/
theorem applyPosture_honest_iff
    (hids : (set.registrations.map Registration.registrationId).Nodup)
    (hlabel : VisitsLabelled set visits)
    (h : build set request now resolved visits kind reason = .ok outcome) :
    RetainedHonest (applyPosture set request outcome) ↔
      ¬ (kind.rejects = false ∧ postureRejects set request now ∧
        ∃ row ∈ armRows set request resolved visits kind,
          row.retainedCursor ≠ row.arm.startAnchor) := by
  have hhonest := build_honest hids hlabel h
  obtain ⟨hkind, hnow, -⟩ := build_parts h
  unfold applyPosture postureRejects
  rw [hkind, hnow]
  cases hrejects : kind.rejects with
  | true => simpa using hhonest
  | false =>
    have hrebuild := rebuildReason_honest_iff hids h hrejects
    cases leaseExpired set now with
    | true => simp [hrebuild]
    | false =>
      cases authnMissing set request.verificationReceiptRef with
      | true => simp [hrebuild]
      | false => simpa using hhonest

/-! ## When a delivery is withheld -/

/-- Some registration holds events past its start. -/
def CursorAdvanced (set : RegistrationSet) (request : PollCycleRequest)
    (starts : List ResolvedStart) (visits : Visits) : Prop :=
  ∃ (idx : Nat) (registration : Registration) (start : Anchor) (event : WaitEvent),
    set.registrations[idx]? = some registration ∧
      honestStart starts request registration = some start ∧
      (heldEvents visits[idx]?).getLast? = some event ∧ event.proposedNextAnchor ≠ start

/-- Visits that hold events are delivered: some arm overflowed, or no arm failed and no required
arm is dirty. -/
def DeliversVisits (set : RegistrationSet) (visits : Visits) : Prop :=
  (∃ (idx : Nat) (registration : Registration), set.registrations[idx]? = some registration ∧
      visits[idx]? = some .overflow) ∨
    ∀ (idx : Nat) (registration : Registration) (visit : ArmVisit),
      set.registrations[idx]? = some registration → visits[idx]? = some visit →
        visit.isFailed = false ∧ (registration.required → visit.isDirty = false)

/-- **A delivery withheld**: the cycle ends with visits to deliver, posture rejects it, and a
cursor had advanced. -/
def WithholdsDelivery (set : RegistrationSet) (request : PollCycleRequest) (visits : Visits) :
    Decision → Prop
  | .cancelled _ _ => False
  | .complete now starts => postureRejects set request now ∧ DeliversVisits set visits ∧
      CursorAdvanced set request starts visits
  | .deadline now starts => requiredBindingComplete set starts ∧
      postureRejects set request now ∧ DeliversVisits set visits ∧
      CursorAdvanced set request starts visits
  | .fault _ => False

theorem kind_delivers {t : Tally} (hevents : t.events ≠ []) (atLogical : Bool) :
    (t.kind atLogical).1.delivers ↔ t.overflow ∨ t.dirty = false ∧ t.failed = none := by
  obtain ⟨events, overflow, truncated, failed, dirty, deferred⟩ := t
  have hne : events.isEmpty = false := by simpa using hevents
  cases overflow <;> cases dirty <;> cases failed <;> cases truncated <;> cases deferred <;>
    simp [Tally.kind, hne, OutcomeKind.delivers]

theorem kind_delivers_not_rejects {k : OutcomeKind} (h : k.delivers = true) :
    k.rejects = false := by
  cases k <;> first | rfl | cases h

theorem deliversVisits_iff :
    DeliversVisits set visits ↔ (tally set request visits).overflow ∨
      (tally set request visits).dirty = false ∧ (tally set request visits).failed = none := by
  rw [← Option.isNone_iff_eq_none, ← Option.not_isSome, Bool.not_eq_true', tally_overflow,
    tally_dirty, tally_failed]
  refine or_congr ?_ ?_
  · simp only [List.any_eq_true, beq_iff_eq, Prod.exists, mem_visited]
    constructor
    · rintro ⟨idx, registration, hreg, hvisit⟩
      exact ⟨registration, _, ⟨idx, hreg, rfl⟩, hvisit⟩
    · rintro ⟨registration, _, ⟨idx, hreg, rfl⟩, hvisit⟩
      exact ⟨idx, registration, hreg, hvisit⟩
  · simp only [List.any_eq_false, Prod.forall, mem_visited]
    constructor
    · intro hall
      refine ⟨?_, ?_⟩
      · rintro registration _ ⟨idx, hreg, rfl⟩
        cases hvisit : visits[idx]? with
        | none => simp
        | some visit =>
          have hclean := (hall idx registration visit hreg hvisit).2
          cases hrequired : registration.required <;> simp_all
      · rintro registration _ ⟨idx, hreg, rfl⟩
        cases hvisit : visits[idx]? with
        | none => simp
        | some visit => simp [(hall idx registration visit hreg hvisit).1]
    · rintro ⟨hdirty, hfailed⟩ idx registration visit hreg hvisit
      have hd := hdirty registration (some visit) ⟨idx, hreg, hvisit⟩
      have hf := hfailed registration (some visit) ⟨idx, hreg, hvisit⟩
      refine ⟨by simpa using hf, fun hrequired => by simpa [hrequired] using hd⟩

/-- Some row retains a cursor past its start exactly when the kind delivers such events. -/
theorem row_advanced_iff :
    (∃ row ∈ armRows set request resolved visits kind,
        row.retainedCursor ≠ row.arm.startAnchor) ↔
      kind.delivers ∧ CursorAdvanced set request resolved visits := by
  constructor
  · rintro ⟨row, hrow, hne⟩
    obtain ⟨idx, armId, registration, -, hreg, hrow⟩ := mem_armRows.mp hrow
    obtain ⟨hevents, -, hcursor⟩ := armRow_retained hrow
    obtain ⟨-, -, -, hstart⟩ := armRow_eq_some hrow
    rw [hcursor] at hne
    -- A row without events retains its start.
    cases hlast : row.events.getLast? with
    | none =>
      rw [hlast] at hne
      exact absurd rfl hne
    | some event =>
      rw [hlast] at hne
      by_cases hdeliver : kind.delivers
      · rw [if_pos hdeliver] at hevents
        rw [hevents] at hlast
        exact ⟨hdeliver, idx, registration, _, event, hreg, hstart, hlast, hne⟩
      · rw [if_neg hdeliver] at hevents
        rw [hevents] at hlast
        cases hlast
  · rintro ⟨hdeliver, idx, registration, start, event, hreg, hstart, hlast, hne⟩
    have hlt : idx < (armIds set request).length := by
      rw [length_armIds]
      exact (List.getElem?_eq_some_iff.mp hreg).1
    obtain ⟨armId, harm⟩ : ∃ armId, (armIds set request)[idx]? = some armId :=
      ⟨_, List.getElem?_eq_getElem hlt⟩
    cases hrow : armRow request resolved visits kind idx armId registration with
    | none => simp [armRow, hstart] at hrow
    | some row =>
      refine ⟨row, mem_armRows.mpr ⟨idx, armId, registration, harm, hreg, hrow⟩, ?_⟩
      obtain ⟨hevents, -, hcursor⟩ := armRow_retained hrow
      obtain ⟨-, -, -, hrowStart⟩ := armRow_eq_some hrow
      have hrowStart : row.arm.startAnchor = start := Option.some.inj (hrowStart.symm.trans hstart)
      rw [hcursor, hevents, if_pos hdeliver, hlast, hrowStart]
      exact hne

/-- Visits that move a cursor hold events. -/
theorem tally_events_ne_nil (h : CursorAdvanced set request resolved visits) :
    (tally set request visits).events ≠ [] := by
  obtain ⟨idx, registration, start, event, hreg, -, hlast, -⟩ := h
  have hmem : event ∈ (tally set request visits).events := by
    rw [tally_events, List.mem_flatMap]
    exact ⟨(registration, visits[idx]?), mem_visited.mpr ⟨idx, hreg, rfl⟩,
      List.mem_of_getLast? hlast⟩
  exact List.ne_nil_of_mem hmem

/-- `assemble` builds the tallied kind and imposes posture on it. -/
theorem assemble_eq_ok (h : assemble set request now resolved visits = .ok outcome) :
    ∃ built, build set request now resolved visits
        ((tally set request visits).kind (decide (now ≥ request.logicalDeadline))).1
        ((tally set request visits).kind (decide (now ≥ request.logicalDeadline))).2 = .ok built ∧
      applyPosture set request built = outcome := by
  unfold assemble at h
  cases hbuild : decideKind set request now resolved visits with
  | error err =>
    rw [hbuild] at h
    cases h
  | ok built =>
    rw [hbuild] at h
    exact ⟨built, hbuild, Except.ok.inj h⟩

/-- **`assemble` retains honestly** unless posture rejects a delivery. -/
theorem assemble_honest_iff
    (hids : (set.registrations.map Registration.registrationId).Nodup)
    (hlabel : VisitsLabelled set visits)
    (h : assemble set request now resolved visits = .ok outcome) :
    RetainedHonest outcome ↔ ¬ (postureRejects set request now ∧ DeliversVisits set visits ∧
      CursorAdvanced set request resolved visits) := by
  obtain ⟨built, hbuild, rfl⟩ := assemble_eq_ok h
  rw [applyPosture_honest_iff hids hlabel hbuild, row_advanced_iff]
  refine not_congr ⟨?_, ?_⟩
  · rintro ⟨-, hposture, hdeliver, hadvanced⟩
    have hdelivers := (kind_delivers (tally_events_ne_nil hadvanced) _).mp hdeliver
    exact ⟨hposture, deliversVisits_iff.mpr hdelivers, hadvanced⟩
  · rintro ⟨hposture, hdelivers, hadvanced⟩
    have hdeliver := (kind_delivers (tally_events_ne_nil hadvanced)
      (decide (now ≥ request.logicalDeadline))).mpr (deliversVisits_iff.mp hdelivers)
    exact ⟨kind_delivers_not_rejects hdeliver, hposture, hdeliver, hadvanced⟩

/-- A forced end withholds before any cursor moves. -/
theorem finish_forced_honest
    (hids : (set.registrations.map Registration.registrationId).Nodup)
    (hlabel : VisitsLabelled set visits) {forced : String}
    (h : finish set request now resolved visits (some forced) = .ok outcome) :
    RetainedHonest outcome := by
  unfold finish at h
  dsimp only at h
  generalize hkind : (if forced == "consumer_cancelled" then OutcomeKind.cancelled
    else .failed) = k at h
  have hrejects : k.rejects = true := by
    rw [← hkind]
    split <;> rfl
  cases hbuild : build set request now resolved visits k (some forced) with
  | error err =>
    rw [hbuild] at h
    cases h
  | ok built =>
    rw [hbuild] at h
    obtain rfl := Except.ok.inj h
    rw [applyPosture_honest_iff hids hlabel hbuild, hrejects]
    simp

/-! ## The deadline -/

/-- Filling in missing visits adds no event. -/
theorem heldEvents_deadlineVisits (idx : Nat) :
    heldEvents (deadlineVisits set request visits)[idx]? = heldEvents visits[idx]? := by
  rw [deadlineVisits_lookup]
  cases visits[idx]? with
  | some visit => rfl
  | none =>
    generalize (visits.values.any fun visit => !visit.held.isEmpty) = sawEvents
    split
    · cases sawEvents <;> rfl
    · rfl

/-- A visit that a deadline adds is deferred or idle. -/
theorem deadlineVisits_eq_some {idx : Nat} {visit : ArmVisit}
    (h : (deadlineVisits set request visits)[idx]? = some visit) :
    visits[idx]? = some visit ∨ visit = .deferred ∨ visit = .idle := by
  rw [deadlineVisits_lookup] at h
  cases hvisit : visits[idx]? with
  | some v =>
    rw [hvisit] at h
    exact Or.inl h
  | none =>
    rw [hvisit] at h
    generalize (visits.values.any fun visit => !visit.held.isEmpty) = sawEvents at h
    split at h
    · obtain rfl := Option.some.inj h
      cases sawEvents <;> simp [deadlineVisit]
    · cases h

theorem deadlineVisits_of_some {idx : Nat} {visit : ArmVisit} (h : visits[idx]? = some visit) :
    (deadlineVisits set request visits)[idx]? = some visit := by
  rw [deadlineVisits_lookup, h]
  rfl

theorem deliversVisits_deadlineVisits :
    DeliversVisits set (deadlineVisits set request visits) ↔ DeliversVisits set visits := by
  refine or_congr ?_ ?_
  · constructor
    · rintro ⟨idx, registration, hreg, hvisit⟩
      refine ⟨idx, registration, hreg, (deadlineVisits_eq_some hvisit).resolve_right ?_⟩
      simp
    · rintro ⟨idx, registration, hreg, hvisit⟩
      exact ⟨idx, registration, hreg, deadlineVisits_of_some hvisit⟩
  · constructor
    · intro hall idx registration visit hreg hvisit
      exact hall idx registration visit hreg (deadlineVisits_of_some hvisit)
    · intro hall idx registration visit hreg hvisit
      rcases deadlineVisits_eq_some hvisit with hvisit | rfl | rfl
      · exact hall idx registration visit hreg hvisit
      · exact ⟨rfl, fun _ => rfl⟩
      · exact ⟨rfl, fun _ => rfl⟩

theorem cursorAdvanced_deadlineVisits :
    CursorAdvanced set request resolved (deadlineVisits set request visits) ↔
      CursorAdvanced set request resolved visits := by
  unfold CursorAdvanced
  simp only [heldEvents_deadlineVisits]

/-- **A decision retains honestly** unless it withholds a delivery. -/
theorem decision_honest_iff
    (hids : (set.registrations.map Registration.registrationId).Nodup)
    (hlabel : VisitsLabelled set visits) {decision : Decision}
    (h : decision.outcome set request visits = .ok outcome) :
    RetainedHonest outcome ↔ ¬ WithholdsDelivery set request visits decision := by
  cases decision with
  | cancelled now starts =>
    exact iff_of_true (finish_forced_honest hids hlabel h) id
  | complete now starts => exact assemble_honest_iff hids hlabel h
  | deadline now starts =>
    have h : decideAtDeadline set request now starts visits = .ok outcome := h
    unfold decideAtDeadline at h
    cases hbound : requiredBindingComplete set starts with
    | false =>
      rw [hbound] at h
      exact iff_of_true (finish_forced_honest hids hlabel h) fun hw =>
        Bool.false_ne_true (hbound.symm.trans hw.1)
    | true =>
      rw [hbound] at h
      have h : assemble set request now starts (deadlineVisits set request visits) = .ok outcome := h
      have hlabel' : VisitsLabelled set (deadlineVisits set request visits) := by
        intro idx registration hreg e he
        rw [heldEvents_deadlineVisits] at he
        exact hlabel idx registration hreg e he
      rw [assemble_honest_iff hids hlabel' h, deliversVisits_deadlineVisits,
        cursorAdvanced_deadlineVisits]
      exact not_congr (and_iff_right hbound).symm
  | fault err => cases h

/-! ## Runs -/

/-- The maps of an outcome go through `emit` unchanged. -/
theorem emit_eq_ok {binds : List (Option β)} {visits : Visits}
    {answer : Except Error PollCycleOutcome} {w w' : World σ β}
    (h : (emit env binds visits answer).run w = some (.ok outcome, w')) :
    answer = .ok outcome := by
  have hspec : Triple (fun _ => True) (emit env binds visits answer).run fun r _ =>
      ∀ out, r = .ok out → answer = .ok out := by
    refine Triple.bind (R := fun _ _ => True) (fun _ _ _ _ _ => trivial) fun restored => ?_
    rcases restored with err | restored
    · exact Triple.pure fun _ _ out hout => by cases hout
    · cases answer with
      | error err => exact Triple.pure fun _ _ out hout => by cases hout
      | ok out =>
        cases restored with
        | ok _ => exact Triple.pure fun _ _ out' hout => hout
        | error err => exact Triple.pure fun _ _ out' hout => by cases hout
  exact hspec w trivial _ w' h outcome rfl

/-- **A cycle that returns an outcome** ran its loop, and emitted what the loop decided. -/
theorem runPollCycle_loop {fuel : Nat} {w w' : World σ β}
    (hrun : (runPollCycle env set request fuel).run w = some (.ok outcome, w')) :
    ∃ cycle decision w₁,
      (cycleLoop env set request fuel fuel (Cycle.new set request)).run { w with resolved := [] }
        = some (.ok (cycle, decision), w₁) ∧
      (emit env cycle.bound cycle.visits (decision.outcome set request cycle.visits)).run w₁
        = some (.ok outcome, w') := by
  obtain ⟨_, s₁, hresolve, hrun⟩ := bind_eq_ok hrun
  have hresolved : resolve set request = .ok () ∧ w = s₁ := by
    have h : some (resolve set request, w) = some (Except.ok (), s₁) := hresolve
    exact Prod.mk.inj (Option.some.inj h)
  obtain ⟨-, rfl⟩ := hresolved
  obtain ⟨_, s₂, hnew, hrun⟩ := bind_eq_ok hrun
  obtain ⟨_, -, hnew⟩ := lift_eq_some hnew
  obtain ⟨-, rfl⟩ := Prod.mk.inj (Option.some.inj hnew)
  obtain ⟨⟨cycle, decision⟩, w₁, hloop, hemit⟩ := bind_eq_ok hrun
  exact ⟨cycle, decision, w₁, hloop, hemit⟩

/-- **A cycle that returns an outcome** decided it from the visits of its loop. -/
theorem runPollCycle_decision {fuel : Nat} {w w' : World σ β}
    (hrun : (runPollCycle env set request fuel).run w = some (.ok outcome, w')) :
    ∃ cycle decision w₁,
      (cycleLoop env set request fuel fuel (Cycle.new set request)).run { w with resolved := [] }
        = some (.ok (cycle, decision), w₁) ∧
      decision.outcome set request cycle.visits = .ok outcome := by
  obtain ⟨cycle, decision, w₁, hloop, hemit⟩ := runPollCycle_loop hrun
  exact ⟨cycle, decision, w₁, hloop, emit_eq_ok hemit⟩

/-- **When a cycle retains honestly**: a returned outcome is in step with its maps, and so is the
ack that copies them, unless the cycle decided to deliver past a start and posture rejected it. -/
theorem retained_honest_iff (lab : Labelled env)
    (hids : (set.registrations.map Registration.registrationId).Nodup) (fuel : Nat)
    {w w' : World σ β} {outcome : PollCycleOutcome}
    (hrun : (runPollCycle env set request fuel).run w = some (.ok outcome, w')) :
    ∃ cycle decision w₁,
      (cycleLoop env set request fuel fuel (Cycle.new set request)).run { w with resolved := [] }
        = some (.ok (cycle, decision), w₁) ∧
      (RetainedHonest outcome ∧ CommitHonest outcome (Case.ackPollOutcome outcome) ↔
        ¬ WithholdsDelivery set request cycle.visits decision) := by
  obtain ⟨cycle, decision, w₁, hloop, houtcome⟩ := runPollCycle_decision hrun
  have hlabel : VisitsLabelled set cycle.visits := cycleLoop_labelled lab fuel fuel hloop
  have hack : CommitHonest outcome (Case.ackPollOutcome outcome) ↔ RetainedHonest outcome :=
    Iff.rfl
  refine ⟨cycle, decision, w₁, hloop, ?_⟩
  rw [hack, and_self]
  exact decision_honest_iff hids hlabel houtcome

open Case in
theorem retained_honest_iff_pair :
    ∃ outcome w', (runPollCycle queueEnv pairSet (pollCycleRequest pairSet) 10).run
        (QueueHost.world pairWaiting (ts "2026-08-15T16:02:00Z") []) = some (.ok outcome, w') ∧
      ∃ cycle decision w₁,
        (cycleLoop queueEnv pairSet (pollCycleRequest pairSet) 10 10
          (Cycle.new pairSet (pollCycleRequest pairSet))).run
            { QueueHost.world pairWaiting (ts "2026-08-15T16:02:00Z") [] with resolved := [] }
          = some (.ok (cycle, decision), w₁) ∧
        (RetainedHonest outcome ∧ CommitHonest outcome (ackPollOutcome outcome) ↔
          ¬ WithholdsDelivery pairSet (pollCycleRequest pairSet) cycle.visits decision) := by
  have hdone : (returned ((runPollCycle queueEnv pairSet (pollCycleRequest pairSet) 10).run
      (QueueHost.world pairWaiting (ts "2026-08-15T16:02:00Z") []))).any (fun _ => true) = true := by
    decide +kernel
  obtain ⟨outcome, w', hrun, -⟩ := exists_of_returned hdone
  exact ⟨outcome, w', hrun, retained_honest_iff queueFifo.toLabelled (by decide) 10 hrun⟩

/-- A cursor with no event handed over and no arm that starts there is not honest. -/
theorem not_retainedHonest {rid : IdToken} {cursor : Anchor}
    (hcursor : outcome.retainedThrough[rid]? = some cursor) (hevents : outcome.events = [])
    (harms : ∀ arm ∈ outcome.arms, arm.startAnchor ≠ cursor) : ¬ RetainedHonest outcome := by
  intro hhonest
  rcases (hhonest rid cursor hcursor).1 with ⟨arm, harm, -, hstart⟩ | hlast
  · exact harms arm harm hstart
  · simp [PollCycleOutcome.eventsOf, hevents] at hlast

open Case in
/-- A lease that runs out before the cycle completes: the outcome hands no event over and retains
the cursor behind the event. -/
theorem retained_past_withheld_event :
    ∃ outcome w', (runPollCycle queueEnv expiringSet (pollCycleRequest expiringSet) 10).run
        (QueueHost.world pairWaiting (ts "2026-08-15T16:02:00Z") []) = some (.ok outcome, w') ∧
      ¬ RetainedHonest outcome ∧ ¬ CommitHonest outcome (ackPollOutcome outcome) := by
  have hdone : (returned ((runPollCycle queueEnv expiringSet (pollCycleRequest expiringSet) 10).run
      (QueueHost.world pairWaiting (ts "2026-08-15T16:02:00Z") []))).any (fun outcome =>
        outcome.retainedThrough["reg:a"]? = some (anchor "anc:after-1") ∧ outcome.events = [] ∧
          ∀ arm ∈ outcome.arms, arm.startAnchor ≠ anchor "anc:after-1") = true := by
    decide +kernel
  obtain ⟨outcome, w', hrun, hparts⟩ := exists_of_returned hdone
  obtain ⟨hcursor, hevents, harms⟩ := of_decide_eq_true hparts
  have hdishonest := not_retainedHonest hcursor hevents harms
  exact ⟨outcome, w', hrun, hdishonest, hdishonest⟩

end PollCycle

end Waitprims
