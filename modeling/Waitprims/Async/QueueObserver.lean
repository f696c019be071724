import Mathlib
import Waitprims.Async.FifoObserver

/-! # A queueing environment

The reference environment the FIFO assumption describes, executable: the waiting observations of
all registrations in one list, a clock that moves on at each reading, and scripted answers for
cancellation, sleeps and hanging binds. What `restore_ready` takes back is a parameter: with no
restriction the environment satisfies `FifoObserver` for every script, and the strict environment
takes back only events of the bind's own registration. -/

namespace Waitprims

open Fifo

/-- The host of a queueing environment. -/
structure QueueHost where
  /-- Waiting observations; each registration's own are front first. A signal waits under the
  registration it is stored with, an event under its own. -/
  waiting : List (IdToken × Observation)
  /-- What is still to come, one observation for each wake-up. -/
  upcoming : List (IdToken × Observation)
  /-- Events that have come. -/
  arrivals : List WaitEvent
  now : Timestamp
  /-- Later readings of the clock. -/
  ticks : List Timestamp
  /-- Answers of the token; it is not cancelled afterwards. -/
  cancels : List Bool
  /-- Answers of a sleep; it is over afterwards. -/
  wakes : List Bool
  /-- Registrations whose `bind` stays pending. -/
  hanging : List IdToken

namespace QueueHost

/-- The registration an entry waits under. -/
def keyOf : IdToken × Observation → IdToken
  | (_, .event e) => e.registrationId
  | (k, _) => k

/-- Take the front observation of a registration. -/
def dequeue (r : IdToken) :
    List (IdToken × Observation) → Option (Observation × List (IdToken × Observation))
  | [] => none
  | entry :: rest =>
    if keyOf entry = r then some (entry.2, rest)
    else (dequeue r rest).map fun p => (p.1, entry :: p.2)

/-- The events of a registration in a list of observations. -/
def eventsOf (r : IdToken) (waiting : List (IdToken × Observation)) : List WaitEvent :=
  waiting.flatMap fun p => if keyOf p = r then p.2.events else []

theorem eventsOf_cons (r : IdToken) (entry : IdToken × Observation)
    (rest : List (IdToken × Observation)) :
    eventsOf r (entry :: rest)
      = (if keyOf entry = r then entry.2.events else []) ++ eventsOf r rest := by
  simp [eventsOf]

/-- What is taken was in front, and nothing else moves. -/
theorem eventsOf_dequeue {r : IdToken} {waiting rest : List (IdToken × Observation)}
    {obs : Observation} (h : dequeue r waiting = some (obs, rest)) (r' : IdToken) :
    eventsOf r' waiting = (if r = r' then obs.events else []) ++ eventsOf r' rest := by
  induction waiting generalizing rest with
  | nil => cases h
  | cons p tail ih =>
    unfold dequeue at h
    by_cases hk : keyOf p = r
    · rw [if_pos hk] at h
      cases h
      rw [eventsOf_cons, hk]
    · rw [if_neg hk, Option.map_eq_some_iff] at h
      obtain ⟨⟨obs'', rest'⟩, htail, heq⟩ := h
      cases heq
      rw [eventsOf_cons, eventsOf_cons, ih htail]
      by_cases hr : r = r'
      · have hkr : keyOf p ≠ r' := fun h => hk (h.trans hr.symm)
        simp [hr, hkr]
      · simp [hr]

/-- An event waits under its own registration. -/
theorem dequeue_label {r : IdToken} {waiting rest : List (IdToken × Observation)}
    {event : WaitEvent} (h : dequeue r waiting = some (.event event, rest)) :
    event.registrationId = r := by
  induction waiting generalizing rest with
  | nil => cases h
  | cons p tail ih =>
    obtain ⟨k, obs⟩ := p
    unfold dequeue at h
    by_cases hk : keyOf (k, obs) = r
    · rw [if_pos hk] at h
      obtain ⟨rfl, -⟩ : obs = .event event ∧ tail = rest := by simpa using h
      exact hk
    · rw [if_neg hk, Option.map_eq_some_iff] at h
      obtain ⟨⟨obs', rest'⟩, htail, heq⟩ := h
      obtain ⟨rfl, -⟩ : obs' = .event event ∧ _ = rest := by simpa using heq
      exact ih htail

/-- One poll of the queue of a registration. -/
def take (r : IdToken) (s : QueueHost) : Option Observation × QueueHost :=
  match dequeue r s.waiting with
  | some (obs, rest) => (some obs, { s with waiting := rest })
  | none => (none, s)

/-- Read the clock; it moves on. -/
def readClock (s : QueueHost) : Timestamp × QueueHost :=
  match s.ticks with
  | [] => (s.now, s)
  | t :: rest => (s.now, { s with now := t, ticks := rest })

/-- Ask the cancel token. -/
def readCancel (s : QueueHost) : Bool × QueueHost :=
  match s.cancels with
  | [] => (false, s)
  | c :: rest => (c, { s with cancels := rest })

/-- Poll a sleep. -/
def readWake (s : QueueHost) : Bool × QueueHost :=
  match s.wakes with
  | [] => (true, s)
  | c :: rest => (c, { s with wakes := rest })

/-- The next observation comes in. -/
def arrive (s : QueueHost) : QueueHost :=
  match s.upcoming with
  | [] => s
  | (r, obs) :: rest =>
    { s with
      waiting := s.waiting ++ [(r, obs)]
      upcoming := rest
      arrivals := s.arrivals ++ obs.events }

/-- A world in which some observations wait and the clock has some later readings. -/
def world (waiting : List (IdToken × Observation)) (now : Timestamp)
    (ticks : List Timestamp) : World QueueHost ResolvedStart where
  host := {
    waiting
    upcoming := []
    arrivals := []
    now
    ticks
    cancels := []
    wakes := []
    hanging := [] }
  resolved := []
  log := []

/-- Where a registration without a start anchor begins. -/
def headAnchor (registration : Registration) : Anchor :=
  ⟨.providerOpaque, "anc:h-" ++ registration.registrationId⟩

/-- The queue of a registration. -/
def view (r : IdToken) : QueueView QueueHost WaitEvent where
  queue s := eventsOf r s.waiting
  arrived s := s.arrivals.filter fun e => e.registrationId = r

end QueueHost

open QueueHost

/-- **The queueing environment**: a bind is a resolved start, a pending `bind` remembers its
registration and a pending `next` the id of its queue. -/
def queueEnvWith (accepts : ResolvedStart → Observation → Bool) :
    Env QueueHost ResolvedStart Registration IdToken where
  registrationId := ResolvedStart.registrationId
  resolvedStart := ResolvedStart.start
  bindStep registration s := (registration, s)
  pollBindStep registration s :=
    if registration.registrationId ∈ s.hanging then (.pending, s)
    else (.ready (.ok ⟨registration.registrationId,
      registration.startAnchor.getD (headAnchor registration)⟩), s)
  dropBindStep _ s := s
  nextStep bind s := (bind.registrationId, s)
  pollNextStep r s := match take r s with
    | (some obs, s) => (.ready (.ok obs), s)
    | (none, s) => (.pending, s)
  dropNextStep _ s := s
  pollReadyStep bind s := take bind.registrationId s
  restoreReadyStep bind obs s :=
    if accepts bind obs then
      (.ok (), { s with waiting := (bind.registrationId, obs) :: s.waiting })
    else
      (.error (validationError "/observer/restore_ready" "cross_bind_restore"), s)
  nowStep := readClock
  sleepUntilStep _ := readWake
  isCancelledStep := readCancel
  parkStep := arrive

/-- The queueing environment that takes everything back. -/
def queueEnv : Env QueueHost ResolvedStart Registration IdToken := queueEnvWith fun _ _ => true

/-- `owns`: a bind takes back an event of its own registration, and no signal. -/
def ownsEvent (bind : ResolvedStart) : Observation → Bool
  | .event event => event.registrationId == bind.registrationId
  | _ => false

/-- The strict queueing environment. -/
def strictEnv : Env QueueHost ResolvedStart Registration IdToken := queueEnvWith ownsEvent

/-- Taking an event of `r` pops its queue. -/
theorem take_pop {r : IdToken} {s : QueueHost} {event : WaitEvent}
    (h : (take r s).1 = some (.event event)) : Pop (view r) event s (take r s).2 := by
  unfold take at h ⊢
  split at h
  · next obs rest hd =>
    obtain rfl : obs = .event event := by simpa using h
    refine ⟨[], by simp [view], ?_⟩
    simpa [view, hd, Observation.events] using (eventsOf_dequeue hd r).symm
  · cases h

/-- An event taken from a queue carries its id. -/
theorem take_label {r : IdToken} {s : QueueHost} {event : WaitEvent}
    (h : (take r s).1 = some (.event event)) : event.registrationId = r := by
  unfold take at h
  split at h
  · next obs rest hd =>
    obtain rfl : obs = .event event := by simpa using h
    exact dequeue_label hd
  · cases h

/-- Taking anything but an event of `r` leaves the queue of `r`. -/
theorem take_quiet {r r' : IdToken} {s : QueueHost}
    (h : ∀ event, (take r' s).1 = some (.event event) → r' ≠ r) :
    Quiet (view r) s (take r' s).2 := by
  unfold take at h ⊢
  split at h
  · next obs rest hd =>
    refine ⟨[], by simp [view], ?_⟩
    have hsame := eventsOf_dequeue hd r
    have hnil : (if r' = r then obs.events else []) = [] := by
      by_cases hr : r' = r
      · rw [if_pos hr]
        cases obs with
        | event e => exact absurd hr (h e rfl)
        | _ => rfl
      · exact if_neg hr
    simpa [view, hd, hnil] using hsame.symm
  · exact Quiet.refl s

/-- A step that leaves queues and arrivals alone is quiet. -/
theorem quiet_of_eq {r : IdToken} {s s' : QueueHost} (hw : s'.waiting = s.waiting)
    (ha : s'.arrivals = s.arrivals) : Quiet (view r) s s' :=
  ⟨[], by simp [view, ha], by simp [view, hw]⟩

theorem arrive_quiet (r : IdToken) (s : QueueHost) : Quiet (view r) s (arrive s) := by
  unfold arrive
  split
  · exact Quiet.refl s
  · next k obs rest _ =>
    refine ⟨if keyOf (k, obs) = r then obs.events else [], ?_, ?_⟩
    · cases obs with
      | event e => by_cases he : e.registrationId = r <;> simp [view, Observation.events, keyOf, he]
      | _ => simp [view, Observation.events]
    · simp [view, eventsOf]

/-- **The queueing environment has one queue per registration.** -/
def queueQueued (accepts : ResolvedStart → Observation → Bool) :
    QueuedObserver (queueEnvWith accepts) where
  view := view
  bindTarget := Registration.registrationId
  nextTarget := id
  bind_target _ _ := rfl
  pollBind_target := by
    intro registration s bind h
    simp only [queueEnvWith] at h
    split at h
    · cases h
    · simp only [Poll.ready.injEq, Except.ok.injEq] at h
      rw [← h]
      rfl
  next_target _ _ := rfl
  bind_quiet _ _ _ := Quiet.refl _
  pollBind_quiet := by
    intro r registration s
    simp only [queueEnvWith]
    split <;> exact Quiet.refl s
  dropBind_quiet _ _ _ := Quiet.refl _
  next_quiet _ _ _ := Quiet.refl _
  dropNext_quiet _ _ _ := Quiet.refl _
  now_quiet := by
    intro r s
    show Quiet (view r) s (readClock s).2
    unfold readClock
    split <;> exact quiet_of_eq rfl rfl
  sleep_quiet := by
    intro r _ s
    show Quiet (view r) s (readWake s).2
    unfold readWake
    split <;> exact quiet_of_eq rfl rfl
  cancel_quiet := by
    intro r s
    show Quiet (view r) s (readCancel s).2
    unfold readCancel
    split <;> exact quiet_of_eq rfl rfl
  park_quiet := arrive_quiet
  pollNext_event := by
    intro fut s event h
    have hpop : (take fut s).1 = some (.event event) → Pop (view fut) event s (take fut s).2 :=
      take_pop
    simp only [queueEnvWith] at h ⊢
    cases htake : take fut s with
    | mk answer s' =>
      cases answer with
      | none => simp [htake] at h
      | some obs =>
        simp only [htake] at h hpop ⊢
        exact hpop (by simpa using h)
  pollNext_quiet := by
    intro r fut s h
    have hquiet : (∀ event, (take fut s).1 = some (.event event) → fut ≠ r) →
        Quiet (view r) s (take fut s).2 := take_quiet
    simp only [queueEnvWith] at h ⊢
    cases htake : take fut s with
    | mk answer s' =>
      cases answer with
      | none => exact (by simpa [htake] using hquiet)
      | some obs =>
        simp only [htake] at h hquiet ⊢
        exact hquiet fun e he => h e (by simpa using he)
  pollNext_label := by
    intro fut s event h
    have hlabel : (take fut s).1 = some (.event event) → event.registrationId = fut := take_label
    simp only [queueEnvWith] at h
    cases htake : take fut s with
    | mk answer s' =>
      cases answer with
      | none => simp [htake] at h
      | some obs =>
        simp only [htake] at h hlabel
        exact hlabel (by simpa using h)
  pollReady_label _ _ _ h := take_label h
  pollReady_event _ _ _ h := take_pop h
  pollReady_quiet _ _ _ h := take_quiet h
  restore_event bind event s hlabel haccept := by
    simp only [queueEnvWith] at hlabel haccept ⊢
    by_cases haccepts : accepts bind (.event event)
    · refine ⟨[], by simp [view, haccepts], ?_⟩
      simp [view, eventsOf_cons, keyOf, Observation.events, hlabel, haccepts]
    · simp [haccepts] at haccept
  restore_quiet r bind obs s h := by
    simp only [queueEnvWith] at h ⊢
    by_cases haccepts : accepts bind obs
    · have hnil : (if keyOf (bind.registrationId, obs) = r then obs.events else []) = [] := by
        cases obs with
        | event e =>
          obtain ⟨hlabel, hr⟩ := h e rfl (by simp [haccepts])
          simp [keyOf, hlabel, hr]
        | _ => simp [Observation.events]
      refine ⟨[], by simp [view, haccepts], ?_⟩
      simp [view, eventsOf_cons, hnil, haccepts]
    · rw [if_neg haccepts]
      exact Quiet.refl s

/-- **The queueing environment satisfies the FIFO assumption.** -/
def queueFifo : FifoObserver queueEnv where
  toQueuedObserver := queueQueued fun _ _ => true
  restore_accepts _ _ _ := rfl

end Waitprims
