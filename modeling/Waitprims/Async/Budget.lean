import Mathlib
import Waitprims.Lib.TreeMap
import Waitprims.Core.Types

/-! # The collection budget of a poll cycle

A cycle admits an event only while the aggregate limits of the set, the optional bounds of the
request and the bounds of the event's own registration leave room for it.

* **`eventSurfaceBytes`** — the byte weight of an event: its observable structured surface.
* **`CollectBudget`** — the limits and what has been taken so far.
* **`CollectBudget.tryTake`** — admit one event, or refuse and change nothing. -/

namespace Waitprims

open TreeMap (collectMap)

/-- Byte weight of one event for poll-cycle bounds: the payload_ref token, the digest hex and the
optional media type. The referenced body is not fetched and not counted. -/
def eventSurfaceBytes (event : WaitEvent) : Nat :=
  event.payload.payloadRef.utf8ByteSize
    + event.payload.contentDigest.value.utf8ByteSize
    + match event.payload.mediaType with
      | some mediaType => mediaType.utf8ByteSize
      | none => 0

/-- The surface bytes of events. -/
def surfaceBytes (events : List WaitEvent) : Nat := (events.map eventSurfaceBytes).sum

/-- The events of one registration. -/
def eventsOfRegistration (rid : IdToken) (events : List WaitEvent) : List WaitEvent :=
  events.filter fun e => e.registrationId = rid

section lists

variable {events events' : List WaitEvent} {event : WaitEvent} {rid : IdToken}

@[simp] theorem surfaceBytes_nil : surfaceBytes [] = 0 := rfl

@[simp] theorem surfaceBytes_snoc :
    surfaceBytes (events ++ [event]) = surfaceBytes events + eventSurfaceBytes event := by
  simp [surfaceBytes]

@[simp] theorem eventsOfRegistration_nil : eventsOfRegistration rid [] = [] := rfl

/-- One more event of a registration, or of another one. -/
theorem eventsOfRegistration_snoc :
    eventsOfRegistration rid (events ++ [event])
      = if event.registrationId = rid then eventsOfRegistration rid events ++ [event]
        else eventsOfRegistration rid events := by
  unfold eventsOfRegistration
  rw [List.filter_append]
  by_cases h : event.registrationId = rid <;> simp [h]

/-- Fewer events weigh less. -/
theorem surfaceBytes_le (h : events.Subperm events') :
    surfaceBytes events ≤ surfaceBytes events' := by
  obtain ⟨between, hperm, hsub⟩ := h
  have hsum : surfaceBytes between = surfaceBytes events := (hperm.map _).sum_eq
  rw [← hsum]
  exact (hsub.map eventSurfaceBytes).sum_le_sum fun _ _ => Nat.zero_le _

theorem eventsOfRegistration_sublist : (eventsOfRegistration rid events).Sublist events :=
  List.filter_sublist

variable (rid) in
theorem eventsOfRegistration_subperm (h : events.Subperm events') :
    (eventsOfRegistration rid events).Subperm (eventsOfRegistration rid events') :=
  h.filter _

end lists

/-! ## Counters -/

/-- An addition that fits is exact. -/
theorem saturatingAdd_of_lt {a b : Nat} (h : a + b < 2 ^ 64) : saturatingAdd a b = a + b := by
  unfold saturatingAdd
  exact min_eq_left (Nat.le_sub_one_of_lt h)

/-- An addition that stays within a limit below the maximum is exact. -/
theorem saturatingAdd_of_le {a b limit : Nat} (h : saturatingAdd a b ≤ limit)
    (hlimit : limit < 2 ^ 63) : saturatingAdd a b = a + b := by
  have hmax : u64Max = 2 ^ 64 - 1 := rfl
  unfold saturatingAdd at h ⊢
  omega

/-! ## The budget of a cycle -/

/-- The limits of a cycle and what it has taken so far. -/
structure CollectBudget where
  maxEvents : Nat
  maxPayloadRefs : Nat
  maxBytes : Nat
  events : Nat
  payloadRefs : Nat
  bytes : Nat
  perRegEvents : BTreeMap String Nat
  perRegBytes : BTreeMap String Nat
  regMaxEvents : BTreeMap String Nat
  regMaxBytes : BTreeMap String Nat

namespace CollectBudget

/-- The budget of a fresh cycle. -/
def new (set : RegistrationSet) (request : PollCycleRequest) : CollectBudget :=
  let reqEvents := (request.bound.bind PollBound.maxEvents).getD u64Max
  let reqBytes := (request.bound.bind PollBound.maxBytes).getD u64Max
  let reqRefs := (request.bound.bind PollBound.maxPayloadRefs).getD u64Max
  { maxEvents := min set.aggregateLimits.maxEvents reqEvents
    maxPayloadRefs := reqRefs
    maxBytes := min set.aggregateLimits.maxBytes reqBytes
    events := 0
    payloadRefs := 0
    bytes := 0
    perRegEvents := ∅
    perRegBytes := ∅
    regMaxEvents := collectMap
      (set.registrations.map fun reg => (reg.registrationId, reg.bounds.maxEvents))
    regMaxBytes := collectMap
      (set.registrations.map fun reg => (reg.registrationId, reg.bounds.maxBytes)) }

variable (budget : CollectBudget)

/-- The cycle-wide counters leave room for another event. -/
def roomForAnotherEvent : Bool :=
  budget.events < budget.maxEvents
    && budget.payloadRefs < budget.maxPayloadRefs
    && budget.bytes < budget.maxBytes

/-- So do the counters of this registration. -/
def roomForRegistration (registrationId : String) : Bool :=
  budget.roomForAnotherEvent
    && (budget.perRegEvents.getD registrationId 0 < budget.regMaxEvents.getD registrationId u64Max
      && budget.perRegBytes.getD registrationId 0 < budget.regMaxBytes.getD registrationId u64Max)

/-- No further event fits. -/
def exhausted : Bool := !budget.roomForAnotherEvent

/-- Take one event: the budget with the event counted in. -/
def take (event : WaitEvent) : CollectBudget :=
  let rid := event.registrationId
  let weight := eventSurfaceBytes event
  { budget with
    events := saturatingAdd budget.events 1
    payloadRefs := saturatingAdd budget.payloadRefs 1
    bytes := saturatingAdd budget.bytes weight
    perRegEvents := budget.perRegEvents.insert rid (budget.perRegEvents.getD rid 0 + 1)
    perRegBytes := budget.perRegBytes.insert rid (budget.perRegBytes.getD rid 0 + weight) }

/-- Admit one event if it fits; a refusal leaves the budget as it is. -/
def tryTake (event : WaitEvent) : Option CollectBudget :=
  let rid := event.registrationId
  let weight := eventSurfaceBytes event
  if !budget.roomForRegistration rid then
    none
  else if saturatingAdd budget.bytes weight > budget.maxBytes then
    none
  else if saturatingAdd (budget.perRegBytes.getD rid 0) weight
      > budget.regMaxBytes.getD rid u64Max then
    none
  else
    some (budget.take event)

end CollectBudget

end Waitprims
