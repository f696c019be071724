import Mathlib
import Waitprims.Async.QueueObserver
import Waitprims.Async.CoalesceBooks
import Waitprims.Testkit.Case

/-! # What a coalesced burst may hold

The buffer admits an event only while the aggregate limits of the set and the bounds of its
registration leave room, so everything that goes out of the buffer fits. The urgent events of a
turn that overtakes never see the buffer: nothing bounds them.

* **`Fits`** — events within the limits of the set and the bounds of every registration.
* **`Pending.Sound`** — exact counters, and a content that fits.
* **`Bounded`** — what every path of decisions keeps.
* **`bursts_fit_iff`** — every burst fits if and only if the urgent events of every turn that
  overtakes do. -/

namespace Waitprims

namespace Coalesce

open Follow

variable {σ β φ ψ ξ : Type} {set : RegistrationSet} {policy : CoalescePolicy}

/-- **Events within the bounds**: of the set, and of every registration the runner looks up. -/
structure Fits (set : RegistrationSet) (events : List WaitEvent) : Prop where
  count : events.length ≤ set.aggregateLimits.maxEvents
  bytes : surfaceBytes events ≤ set.aggregateLimits.maxBytes
  regCount : ∀ id reg, registration set id = some reg →
    (eventsOfRegistration id events).length ≤ reg.bounds.maxEvents
  regBytes : ∀ id reg, registration set id = some reg →
    surfaceBytes (eventsOfRegistration id events) ≤ reg.bounds.maxBytes

/-- Nothing fits everywhere. -/
theorem fits_nil : Fits set [] where
  count := Nat.zero_le _
  bytes := Nat.zero_le _
  regCount _ _ _ := Nat.zero_le _
  regBytes _ _ _ := Nat.zero_le _

/-! ## The buffer -/

namespace Pending

variable {pending pending' : Pending} {event : WaitEvent} {events : List WaitEvent}

/-- **A sound buffer**: its counters are exact and its events fit. -/
structure Sound (set : RegistrationSet) (pending : Pending) : Prop where
  totalEvents : pending.totalEvents = pending.events.length
  totalBytes : pending.totalBytes = surfaceBytes pending.events
  perEvents : ∀ id, pending.perEvents.getD id 0 = (eventsOfRegistration id pending.events).length
  perBytes : ∀ id, pending.perBytes.getD id 0 = surfaceBytes (eventsOfRegistration id pending.events)
  fits : Fits set pending.events

/-- An empty buffer is sound. -/
theorem sound_new : Sound set .new where
  totalEvents := rfl
  totalBytes := rfl
  perEvents _ := rfl
  perBytes _ := rfl
  fits := fits_nil

/-- **Admitting an event** keeps a buffer sound: while the limits of the set are below `2 ^ 63` no
counter saturates. -/
theorem Sound.tryPush (hevents : set.aggregateLimits.maxEvents < 2 ^ 63)
    (hbytes : set.aggregateLimits.maxBytes < 2 ^ 63) (h : Sound set pending)
    (htry : pending.tryPush set event = .ok pending') : Sound set pending' := by
  obtain ⟨reg, hreg, hcount, hweight, hperE, hperB, rfl⟩ := Pending.tryPush_eq_ok htry
  have hcountEq := saturatingAdd_of_le hcount hevents
  have hweightEq := saturatingAdd_of_le hweight hbytes
  -- the share of one registration is no more than the total, so its counters are exact as well
  have hshare : (eventsOfRegistration event.registrationId pending.events).length
      ≤ pending.events.length := eventsOfRegistration_sublist.length_le
  have hshareBytes : surfaceBytes (eventsOfRegistration event.registrationId pending.events)
      ≤ surfaceBytes pending.events := surfaceBytes_le eventsOfRegistration_sublist.subperm
  rw [h.perEvents] at hperE
  rw [h.perBytes] at hperB
  rw [hcountEq, h.totalEvents] at hcount
  rw [hweightEq, h.totalBytes] at hweight
  have hperEEq : saturatingAdd (eventsOfRegistration event.registrationId pending.events).length 1
      = (eventsOfRegistration event.registrationId pending.events).length + 1 :=
    saturatingAdd_of_lt (by omega)
  have hperBEq : saturatingAdd
        (surfaceBytes (eventsOfRegistration event.registrationId pending.events))
        (eventSurfaceBytes event)
      = surfaceBytes (eventsOfRegistration event.registrationId pending.events)
        + eventSurfaceBytes event := saturatingAdd_of_lt (by omega)
  rw [hperEEq] at hperE
  rw [hperBEq] at hperB
  refine ⟨?_, ?_, fun id => ?_, fun id => ?_, ?_, ?_, fun id reg' hreg' => ?_, fun id reg' hreg' => ?_⟩
  · simpa [h.totalEvents] using hcountEq
  · simpa [h.totalBytes] using hweightEq
  · rw [h.perEvents, hperEEq, Std.ExtTreeMap.getD_insert, h.perEvents, eventsOfRegistration_snoc]
    by_cases hid : event.registrationId = id
    · subst hid
      simp
    · simp [hid]
  · rw [h.perBytes, hperBEq, Std.ExtTreeMap.getD_insert, h.perBytes, eventsOfRegistration_snoc]
    by_cases hid : event.registrationId = id
    · subst hid
      simp
    · simp [hid]
  · simpa using hcount
  · simpa using hweight
  · rw [eventsOfRegistration_snoc]
    split
    · next hid =>
      subst hid
      obtain rfl : reg = reg' := Option.some.inj (hreg.symm.trans hreg')
      simpa using hperE
    · exact h.fits.regCount id reg' hreg'
  · rw [eventsOfRegistration_snoc]
    split
    · next hid =>
      subst hid
      obtain rfl : reg = reg' := Option.some.inj (hreg.symm.trans hreg')
      simpa using hperB
    · exact h.fits.regBytes id reg' hreg'

/-- **A loop of pushes** keeps a buffer sound. -/
theorem Sound.pushEach (hevents : set.aggregateLimits.maxEvents < 2 ^ 63)
    (hbytes : set.aggregateLimits.maxBytes < 2 ^ 63) (h : Sound set pending)
    (hpush : pending.pushEach set events = .ok pending') : Sound set pending' := by
  induction events generalizing pending with
  | nil =>
    cases hpush
    exact h
  | cons event rest ih =>
    obtain ⟨between, htry, hrest⟩ := Pending.pushEach_cons hpush
    exact ih (h.tryPush hevents hbytes htry) hrest

end Pending

/-! ## The bursts of a history -/

/-- The burst an entry records. -/
def Entry.burst? : Entry → Option CoalesceBurst
  | .turn .. => none
  | .burst _ _ handed _ _ _ => some handed

/-- Every burst handed to the sink, in order. -/
def bursts (history : List Entry) : List CoalesceBurst := history.filterMap Entry.burst?

/-- A turn of a history that overtook. -/
structure Overtook (set : RegistrationSet) (policy : CoalescePolicy) (history : List Entry)
    (events : List WaitEvent) : Prop where
  intro ::
  turn : ∃ now pending timer, Entry.turn now pending timer events ∈ history ∧
    Overtakes set policy now pending timer events

section history

variable {history : List Entry} {entry : Entry} {events : List WaitEvent} {burst : CoalesceBurst}

@[simp] theorem mem_bursts_snoc :
    burst ∈ bursts (history ++ [entry]) ↔ burst ∈ bursts history ∨ entry.burst? = some burst := by
  cases h : entry.burst? <;> simp [bursts, h, eq_comm]

/-- What overtook before overtook still. -/
theorem Overtook.snoc (h : Overtook set policy history events) :
    Overtook set policy (history ++ [entry]) events := by
  obtain ⟨now, pending, timer, hmem, hover⟩ := h.turn
  exact ⟨now, pending, timer, List.mem_append_left _ hmem, hover⟩

/-- The turn that overtook is an earlier one or the last one. -/
theorem overtook_snoc (h : Overtook set policy (history ++ [entry]) events) :
    Overtook set policy history events ∨
      ∃ now pending timer, entry = .turn now pending timer events ∧
        Overtakes set policy now pending timer events := by
  obtain ⟨now, pending, timer, hmem, hover⟩ := h.turn
  rcases List.mem_append.mp hmem with hmem | hmem
  · exact Or.inl ⟨now, pending, timer, hmem, hover⟩
  · exact Or.inr ⟨now, pending, timer, (List.mem_singleton.mp hmem).symm, hover⟩

end history

/-! ## The invariant -/

/-- **What every path keeps**: the buffer is sound, a burst fits or overtook, and what overtook
went out. -/
structure Bounded (set : RegistrationSet) (policy : CoalescePolicy) (b : Books) : Prop where
  pending : b.pending.Sound set
  fits : ∀ burst ∈ bursts b.history, Fits set burst.events ∨
    ∃ events, Overtook set policy b.history events ∧ burst = ⟨urgentEvents set policy events⟩
  handed : ∀ events, Overtook set policy b.history events →
    ⟨urgentEvents set policy events⟩ ∈ bursts b.history

section invariant

variable {b b' : Books} {now : Timestamp} {events : List WaitEvent} {ended : Bool}

/-- A turn that does not overtake changes nothing about what went out. -/
theorem Bounded.arrived (h : Bounded set policy b) (pending : Pending) (timer : Option Timestamp)
    (hsound : pending.Sound set)
    (hno : ¬ Overtakes set policy now b.pending b.timer events) :
    Bounded set policy { b.arrived now events with pending, timer } where
  pending := hsound
  fits burst hburst := by
    rw [Books.arrived, mem_bursts_snoc] at hburst
    rcases hburst with hburst | hburst
    · refine (h.fits burst hburst).imp_right ?_
      rintro ⟨events', hover, hevents⟩
      exact ⟨events', hover.snoc, hevents⟩
    · cases hburst
  handed events' hover := by
    rw [Books.arrived, mem_bursts_snoc]
    rcases overtook_snoc hover with hover | ⟨now', pending', timer', hentry, hover⟩
    · exact Or.inl (h.handed events' hover)
    · obtain ⟨rfl, rfl, rfl, rfl⟩ := Entry.turn.inj hentry
      exact absurd hover hno

/-- A burst from the buffer fits. -/
theorem Bounded.flushed (h : Bounded set policy b) {pending pending' : Pending}
    {timer timer' : Option Timestamp} {final accepted : Bool} (hsound : pending.Sound set)
    (hsound' : pending'.Sound set) :
    Bounded set policy {
      pending := pending'
      timer
      history := b.history ++ [.burst now final ⟨pending.events⟩ pending' timer' accepted] } where
  pending := hsound'
  fits burst hburst := by
    rw [mem_bursts_snoc] at hburst
    rcases hburst with hburst | hburst
    · refine (h.fits burst hburst).imp_right ?_
      rintro ⟨events', hover, hevents⟩
      exact ⟨events', hover.snoc, hevents⟩
    · cases hburst
      exact Or.inl hsound.fits
  handed events' hover := by
    rw [mem_bursts_snoc]
    rcases overtook_snoc hover with hover | ⟨now', pending', timer', hentry, -⟩
    · exact Or.inl (h.handed events' hover)
    · cases hentry

/-- **One decision** keeps the invariant. -/
theorem Bounded.step (hevents : set.aggregateLimits.maxEvents < 2 ^ 63)
    (hbytes : set.aggregateLimits.maxBytes < 2 ^ 63) (h : Bounded set policy b)
    (hstep : Step set policy b b' ended) : Bounded set policy b' := by
  cases hstep with
  | closed => exact ⟨Pending.sound_new, h.fits, h.handed⟩
  | settled => exact h
  | flushed hpush =>
    exact h.flushed (h.pending.pushEach hevents hbytes hpush) Pending.sound_new
  | overflowed hno => exact h.arrived _ _ Pending.sound_new hno
  | buffered hpush hquiet =>
    refine h.arrived _ _ (h.pending.pushEach hevents hbytes hpush) fun hover => ?_
    rw [hover.1] at hquiet
    cases hquiet
  | emitted hpush hdue =>
    have hno : ¬ Overtakes set policy _ b.pending b.timer _ := fun hover => by
      rw [hover.2.1] at hdue
      cases hdue
    exact (h.arrived _ _ h.pending hno).flushed (h.pending.pushEach hevents hbytes hpush)
      Pending.sound_new
  | @overtaken now events pending accepted hurgent hwait hpush =>
    have hover : Overtook set policy (b.arrived now events).history events :=
      ⟨now, b.pending, b.timer, by simp [Books.arrived], hurgent, hwait, pending, hpush⟩
    have hsound := h.pending.pushEach hevents hbytes hpush
    refine ⟨?_, fun burst hburst => ?_, fun events' hover' => ?_⟩
    · cases accepted
      · exact Pending.sound_new
      · exact hsound
    · rw [mem_bursts_snoc, Books.arrived, mem_bursts_snoc] at hburst
      rcases hburst with (hburst | hburst) | hburst
      · refine (h.fits burst hburst).imp_right ?_
        rintro ⟨events', hover', hevents'⟩
        exact ⟨events', hover'.snoc.snoc, hevents'⟩
      · cases hburst
      · exact Or.inr ⟨events, hover.snoc, (Option.some.inj hburst).symm⟩
    · rw [mem_bursts_snoc, Books.arrived, mem_bursts_snoc]
      rcases overtook_snoc hover' with hover' | ⟨_, _, _, hentry, -⟩
      · rcases overtook_snoc hover' with hover' | ⟨_, _, _, hentry, -⟩
        · exact Or.inl (Or.inl (h.handed events' hover'))
        · cases hentry
          exact Or.inr rfl
      · cases hentry

/-- **Every path keeps the invariant.** -/
theorem path_bounded (hevents : set.aggregateLimits.maxEvents < 2 ^ 63)
    (hbytes : set.aggregateLimits.maxBytes < 2 ^ 63) (h : Path set policy b ended) :
    Bounded set policy b := by
  induction h with
  | start =>
    refine ⟨Pending.sound_new, fun burst hburst => ?_, fun events hover => ?_⟩
    · cases hburst
    · obtain ⟨now, pending, timer, hmem, -⟩ := hover.turn
      cases hmem
  | step _ hstep ih => exact ih.step hevents hbytes hstep

end invariant

/-- **The bursts of a session fit exactly when what overtook does.** At every point of every run,
every burst handed to the sink so far is within the limits of the set and the bounds of every
registration if and only if the urgent events of every turn that overtook are. -/
theorem bursts_fit_iff {env : Env σ β φ ψ} {sink : Sink σ CoalesceBurst ξ}
    {request : LiveWaitRequest} {fuel : Nat} {w₀ w : World σ β} {session : Session β φ ψ}
    {ended : Bool} (hevents : set.aggregateLimits.maxEvents < 2 ^ 63)
    (hbytes : set.aggregateLimits.maxBytes < 2 ^ 63)
    (h : Reached env sink set request policy fuel w₀ session ended w) :
    (∀ burst ∈ bursts session.history, Fits set burst.events) ↔
      ∀ now pending timer events, Entry.turn now pending timer events ∈ session.history →
        Overtakes set policy now pending timer events → Fits set (urgentEvents set policy events) := by
  have hbounded : Bounded set policy session.books := path_bounded hevents hbytes (reached_path h)
  constructor
  · intro hall now pending timer events hmem hover
    exact hall _ (hbounded.handed events ⟨now, pending, timer, hmem, hover⟩)
  · intro hall burst hburst
    rcases hbounded.fits burst hburst with hfits | ⟨events, hover, rfl⟩
    · exact hfits
    · obtain ⟨now, pending, timer, hmem, hover⟩ := hover.turn
      exact hall now pending timer events hmem hover

/-! ## An urgent event past its bound -/

/-- A sink that takes every burst at once. -/
def takesAll : Sink QueueHost CoalesceBurst Unit where
  callStep _ s := ((), s)
  pollStep _ s := (.ready (.ok ()), s)

/-- An urgent registration that may hold a single byte. -/
def urgentRegistration : Registration :=
  { Case.registration "reg:b" "method:b" "subject:b" with
    bounds := ⟨50, 1⟩
    priority := some 100 }

open Case in
/-- A quiet registration and an urgent one. -/
def urgentSet : RegistrationSet :=
  registrationSet [Case.registration "reg:a" "method:a" "subject:a", urgentRegistration]

/-- Ten seconds between two quiet emits. -/
def tenSeconds : CoalescePolicy := .new ⟨10, 0⟩

open Case in
/-- An urgent event waits; the run deadline comes after it. -/
def urgentWorld : World QueueHost ResolvedStart :=
  QueueHost.world [("reg:b", .event (waitEvent "reg:b" "method:b" "evt:3" "2026-08-15T16:01:00Z"))]
    (ts "2026-08-15T16:02:00Z")
    (List.replicate 4 (ts "2026-08-15T16:02:00Z") ++ [ts "2026-08-15T16:20:00Z"])

/-- The bytes of a burst that are those of the urgent registration. -/
def urgentBytes (burst : CoalesceBurst) : Nat :=
  surfaceBytes (eventsOfRegistration "reg:b" burst.events)

/-- The run hands over a burst that holds too much. -/
theorem urgentWorld_run : ∃ history result w',
    runCoalesce queueEnv takesAll urgentSet Case.liveWaitRequest tenSeconds 12 urgentWorld
        = some ((history, result), w') ∧
      ∃ burst ∈ bursts history, urgentRegistration.bounds.maxBytes < urgentBytes burst := by
  have hdone : ((runCoalesce queueEnv takesAll urgentSet Case.liveWaitRequest tenSeconds 12
      urgentWorld).any fun last => (bursts last.1.1).any fun burst =>
        Decidable.decide (urgentRegistration.bounds.maxBytes < urgentBytes burst)) = true := by
    decide +kernel
  obtain ⟨⟨⟨history, result⟩, w'⟩, hrun, hlast⟩ := exists_of_any hdone
  obtain ⟨burst, hmem, hburst⟩ := List.any_eq_true.mp hlast
  exact ⟨history, result, w', hrun, burst, hmem, of_decide_eq_true hburst⟩

theorem bursts_fit_iff_urgent : ∃ session : Session ResolvedStart Registration IdToken,
    bursts session.history ≠ [] ∧
      ((∀ burst ∈ bursts session.history, Fits urgentSet burst.events) ↔
        ∀ now pending timer events, Entry.turn now pending timer events ∈ session.history →
          Overtakes urgentSet tenSeconds now pending timer events →
            Fits urgentSet (urgentEvents urgentSet tenSeconds events)) := by
  obtain ⟨history, result, w', hrun, burst, hmem, -⟩ := urgentWorld_run
  rcases runCoalesce_reached hrun with rfl | ⟨session, w, hreached, rfl⟩
  · cases hmem
  · exact ⟨session, List.ne_nil_of_mem hmem, bursts_fit_iff (by decide) (by decide) hreached⟩

/-- A burst goes out that holds more bytes than its registration may. -/
theorem urgent_burst_past_bound : ∃ history result w',
    runCoalesce queueEnv takesAll urgentSet Case.liveWaitRequest tenSeconds 12 urgentWorld
        = some ((history, result), w') ∧
      ∃ burst ∈ bursts history, ¬ Fits urgentSet burst.events := by
  obtain ⟨history, result, w', hrun, burst, hmem, hbytes⟩ := urgentWorld_run
  refine ⟨history, result, w', hrun, burst, hmem, fun hfits => ?_⟩
  have hreg : registration urgentSet "reg:b" = some urgentRegistration := by decide
  have hbound := hfits.regBytes "reg:b" urgentRegistration hreg
  rw [urgentBytes] at hbytes
  omega

end Coalesce

end Waitprims
