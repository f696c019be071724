import Mathlib
import Waitprims.Async.FollowCustody
import Waitprims.Async.CoalesceBounds

/-! # Custody of a coalescing session

A coalescing session owns events in three places: its slots, the pending buffer, and the turn it is
applying. The quiet events of a turn come behind those that wait and its urgent ones go out before
them, but the urgent events of a slot are all its events, so what is owned for one slot stays in
order.

* **`Entry.sunk`**, **`Entry.lost`** — what a burst handed over, and what goes with a refused one.
* **`Carries`** — what a session carries between two turns: what went out, and what waits.
* **`heldIn_partition`** — splitting a turn keeps the order within each slot.
* **`runCoalesce_spec`** — a session over an arbitrary ledger.
* **`coalesce_conserves`** — over the custody ledger of each registration. -/

namespace Waitprims

namespace Coalesce

open Follow Fueled Fifo
open PollCycle (IdsOf)

variable {σ β φ ψ ξ α : Type} {env : Env σ β φ ψ} {ids : List IdToken}

/-! ## What was handed over -/

/-- The events of a burst that the sink took. -/
def Entry.sunk : Entry → List WaitEvent
  | .burst _ _ handed _ _ true => handed.events
  | _ => []

/-- What goes with a burst that the sink refused: its events, and those that waited meanwhile. -/
def Entry.lost : Entry → List WaitEvent
  | .burst _ _ handed pending _ false => handed.events ++ pending.events
  | _ => []

/-- What the sink took, burst by burst. -/
def sunk (history : List Entry) : List WaitEvent := history.flatMap Entry.sunk

/-- What went with a refused burst. -/
def lost (history : List Entry) : List WaitEvent := history.flatMap Entry.lost

section history

variable (history : List Entry) (now : Timestamp) (final : Bool) (burst : CoalesceBurst)
  (pending : Pending) (timer : Option Timestamp) (events : List WaitEvent)

@[simp] theorem sunk_turn :
    sunk (history ++ [.turn now pending timer events]) = sunk history := by
  simp [sunk, Entry.sunk]

@[simp] theorem lost_turn :
    lost (history ++ [.turn now pending timer events]) = lost history := by
  simp [lost, Entry.lost]

@[simp] theorem sunk_accepted :
    sunk (history ++ [.burst now final burst pending timer true])
      = sunk history ++ burst.events := by
  simp [sunk, Entry.sunk]

@[simp] theorem lost_accepted :
    lost (history ++ [.burst now final burst pending timer true]) = lost history := by
  simp [lost, Entry.lost]

@[simp] theorem sunk_refused :
    sunk (history ++ [.burst now final burst pending timer false]) = sunk history := by
  simp [sunk, Entry.sunk]

@[simp] theorem lost_refused :
    lost (history ++ [.burst now final burst pending timer false])
      = lost history ++ (burst.events ++ pending.events) := by
  simp [lost, Entry.lost]

end history

/-! ## Splitting a turn -/

section partition

variable {held : List (Held β)} {p : Held β → Bool}

/-- The events of a slot are all alike. -/
def Alike (p : Held β → Bool) (held : List (Held β)) : Prop :=
  ∀ e ∈ held, ∀ e' ∈ held, e.slot = e'.slot → p e = p e'

/-- Where the events of a slot all pass, none of them is left out. -/
theorem heldIn_filter {slot : Nat} (h : ∀ e ∈ held, e.slot = slot → p e = true) :
    heldIn slot (held.filter p) = heldIn slot held := by
  rw [heldIn, heldIn, List.filter_filter]
  congr 1
  refine List.filter_congr fun e he => ?_
  by_cases hslot : e.slot = slot
  · simp [hslot, h e he hslot]
  · simp [hslot]

/-- Where none passes, none is in. -/
theorem heldIn_filter_nil {slot : Nat} (h : ∀ e ∈ held, e.slot = slot → p e = false) :
    heldIn slot (held.filter p) = [] := by
  refine heldIn_eq_nil fun e he hslot => ?_
  obtain ⟨hmem, hp⟩ := List.mem_filter.mp he
  rw [h e hmem hslot] at hp
  cases hp

/-- **Splitting keeps the order within each slot.** -/
theorem heldIn_partition (halike : Alike p held) (slot : Nat) :
    heldIn slot (held.filter p ++ held.filter fun e => !p e) = heldIn slot held := by
  rw [heldIn_append]
  by_cases hsome : ∃ e ∈ held, e.slot = slot ∧ p e = true
  · obtain ⟨e, he, hslot, hp⟩ := hsome
    have hall : ∀ e' ∈ held, e'.slot = slot → p e' = true := fun e' he' hslot' =>
      (halike e' he' e he (hslot'.trans hslot.symm)).trans hp
    have hnone : ∀ e' ∈ held, e'.slot = slot → (!p e') = false := fun e' he' hslot' => by
      rw [hall e' he' hslot']
      rfl
    rw [heldIn_filter hall, heldIn_filter_nil hnone, List.append_nil]
  · have hnone : ∀ e ∈ held, e.slot = slot → p e = false := fun e he hslot => by
      by_contra hp
      exact hsome ⟨e, he, hslot, by simpa using hp⟩
    have hall : ∀ e ∈ held, e.slot = slot → (!p e) = true := fun e he hslot => by
      rw [hnone e he hslot]
      rfl
    rw [heldIn_filter_nil hnone, heldIn_filter hall, List.nil_append]

/-- The same, the others first. -/
theorem heldIn_partition_not (halike : Alike p held) (slot : Nat) :
    heldIn slot ((held.filter fun e => !p e) ++ held.filter p) = heldIn slot held := by
  have hnot : Alike (fun e => !p e) held := fun e he e' he' hslot =>
    congrArg not (halike e he e' he' hslot)
  have hsplit := heldIn_partition hnot slot
  simpa using hsplit

end partition

/-- The registration at the place of an id carries the id. -/
theorem indexOf_eq_some {set : RegistrationSet} {id : IdToken} {i : Nat}
    (h : SlotSet.indexOf set id = some i) :
    ∃ reg, set.registrations[i]? = some reg ∧ reg.registrationId = id := by
  obtain ⟨hlt, hid, -⟩ := List.findIdx?_eq_some_iff_getElem.mp h
  exact ⟨_, List.getElem?_eq_getElem hlt, eq_of_beq hid⟩

/-- With distinct ids, the place of an id is its own. -/
theorem indexOf_of_getElem? {set : RegistrationSet} (hids : IdsOf ids set) (hnodup : ids.Nodup)
    {id : IdToken} {i : Nat} (h : ids[i]? = some id) : SlotSet.indexOf set id = some i := by
  have hids' : ids = set.registrations.map Registration.registrationId := hids
  subst hids'
  rw [List.getElem?_map, Option.map_eq_some_iff] at h
  obtain ⟨reg, hreg, rfl⟩ := h
  obtain ⟨hlt, hget⟩ := List.getElem?_eq_some_iff.mp hreg
  refine List.findIdx?_eq_some_iff_getElem.mpr ⟨hlt, by simp [hget], fun j hj hsame => ?_⟩
  have hjlt : j < set.registrations.length := hj.trans hlt
  have hrepeat : (set.registrations.map Registration.registrationId)[i]?
      = (set.registrations.map Registration.registrationId)[j]? := by
    rw [List.getElem?_map, List.getElem?_map, hreg, List.getElem?_eq_getElem hjlt, Option.map_some,
      Option.map_some, eq_of_beq hsame]
  have hij := (List.getElem?_inj (by simpa using hlt) hnodup).mp hrepeat
  omega

/-- Urgency is the registration's. -/
theorem isUrgent_congr (set : RegistrationSet) {event event' : WaitEvent} (urgentAt : Nat)
    (h : event.registrationId = event'.registrationId) :
    isUrgent set event urgentAt = isUrgent set event' urgentAt := by
  unfold isUrgent
  rw [h]

/-- Whether an owned event is urgent. -/
def urgentHeld (set : RegistrationSet) (policy : CoalescePolicy) (e : Held β) : Bool :=
  isUrgent set e.event policy.urgentAt

/-- **The events of a slot are all urgent or all quiet.** -/
theorem anchored_alike {set : RegistrationSet} {held : List (Held β)} {s : SlotSet β φ ψ}
    (h : Anchored set held s) (policy : CoalescePolicy) :
    Alike (urgentHeld set policy) held := by
  intro e he e' he' hslot
  obtain ⟨reg, hreg, hid⟩ := indexOf_eq_some (h e he).2
  obtain ⟨reg', hreg', hid'⟩ := indexOf_eq_some (h e' he').2
  have hsame : reg = reg' := by
    rw [hslot, hreg'] at hreg
    exact (Option.some.inj hreg).symm
  refine isUrgent_congr set policy.urgentAt ?_
  rw [← hid, ← hid', hsame]

/-- The urgent events of a turn, as owned events. -/
theorem map_urgent (set : RegistrationSet) (policy : CoalescePolicy) (held : List (Held β)) :
    (held.filter (urgentHeld set policy)).map Held.event
      = urgentEvents set policy (held.map Held.event) := by
  rw [urgentEvents, List.filter_map]
  rfl

/-- The quiet events of a turn, as owned events. -/
theorem map_quiet (set : RegistrationSet) (policy : CoalescePolicy) (held : List (Held β)) :
    (held.filter fun e => !urgentHeld set policy e).map Held.event
      = quietEvents set policy (held.map Held.event) := by
  rw [quietEvents, List.filter_map]
  rfl

/-! ## What a session carries -/

/-- **What a session carries between two turns**: `out` went to the sink, and `held` waits; only
quiet events wait. -/
structure Carries (set : RegistrationSet) (policy : CoalescePolicy) (out held : List (Held β))
    (slots : SlotSet β φ ψ) (pending : Pending) (history : List Entry) : Prop where
  sunk : out.map Held.event = sunk history
  lost : lost history = []
  waiting : held.map Held.event = pending.events
  quiet : ∀ e ∈ held, urgentHeld set policy e = false
  unsettled : ∀ slot ∈ slots.slots, slot.Unsettled
  anchored : Anchored set held slots

variable (ledger : Ledger env ids) (sink : Sink σ CoalesceBurst ξ) (set : RegistrationSet)
  (policy : CoalescePolicy)

/-- **Between two turns**: what the session carries, and what its slots hold. -/
def Running (out held : List (Held β)) (session : Session β φ ψ) (w : World σ β) : Prop :=
  Carries set policy out held session.slots session.pending session.history ∧
    Holding ledger (out ++ held) 0 session.slots.slots w

/-- **At the end**: what the sink took, and what it refused. -/
def Stopped (history : List Entry) (w : World σ β) : Prop :=
  (lost history ≠ [] → SinkErrs sink) ∧
    ∃ gone : List (Held β), gone.map Held.event = sunk history ++ lost history ∧
      Owns ledger gone w

/-- What a turn leaves. -/
@[simp] def TurnedOk : Turned β φ ψ → World σ β → Prop
  | (session, none), w => ∃ out held, Running ledger set policy out held session w
  | (session, some _), w => Stopped ledger sink session.history w

variable {ledger sink set policy} {out held : List (Held β)} {session : Session β φ ψ}
  {slots : SlotSet β φ ψ} {pending : Pending} {history : List Entry}

/-- Nothing waits any more. -/
theorem Carries.emptied (h : Carries set policy out held slots pending history) :
    Carries set policy out [] slots .new history where
  sunk := h.sunk
  lost := h.lost
  waiting := rfl
  quiet := by simp
  unsettled := h.unsettled
  anchored := by simp [Anchored]

/-- A session that lost nothing stops. -/
theorem Carries.stopped (h : Carries set policy out held slots pending history) {w : World σ β}
    (hown : Owns ledger out w) : Stopped ledger sink history w := by
  refine ⟨fun hlost => absurd h.lost hlost, out, ?_, hown⟩
  rw [h.sunk, h.lost, List.append_nil]

/-- A fault that is taken changes nothing of what a session carries. -/
theorem Running.cleared {w : World σ β} (h : Running ledger set policy out held session w) :
    Running ledger set policy out held
      { session with slots := { session.slots with fault := none } } w :=
  ⟨⟨h.1.sunk, h.1.lost, h.1.waiting, h.1.quiet, h.1.unsettled, h.1.anchored⟩, h.2⟩

/-- What every ledger keeps, a running session keeps. -/
theorem running_frame {x : Act σ β α}
    (hx : ∀ items, Triple (ledger.own [] items) x fun _ => ledger.own [] items) :
    Triple (Running ledger set policy out held session) x fun _ =>
      Running ledger set policy out held session :=
  fun w h a w' hrun => ⟨h.1, holding_frame hx w h.2 a w' hrun⟩

/-- Operations of the slots keep a session running. -/
theorem running_slots {x : Act σ β (SlotSet β φ ψ)}
    (hx : Triple (Holding ledger (out ++ held) 0 session.slots.slots) x fun s =>
      Holding ledger (out ++ held) 0 s.slots)
    (hstays : (∀ slot ∈ session.slots.slots, slot.Unsettled) →
      Triple (fun _ => True) x fun s _ => BindsStay session.slots.slots s.slots) :
    Triple (Running ledger set policy out held session) x fun slots =>
      Running ledger set policy out held { session with slots } := by
  intro w h s w' hrun
  have hb := hstays h.1.unsettled w trivial s w' hrun
  exact ⟨⟨h.1.sunk, h.1.lost, h.1.waiting, h.1.quiet, hb.waits, h.1.anchored.stays hb⟩,
    hx w h.2 s w' hrun⟩

/-! ## The ends of a session -/

/-- A turn that ends the session. -/
theorem ending_spec {P : World σ β → Prop} {finish : Act σ β (Ended β φ ψ)}
    (h : Triple P finish fun r => Stopped ledger sink r.1.history) :
    Triple P (ending finish) (TurnedOk ledger sink set policy) := by
  refine Triple.bind h ?_
  rintro ⟨session', result⟩
  exact Triple.pure fun w hw => hw

section ends

variable (hbroken : ∀ w, ¬ ledger.broken w)

include hbroken in
/-- **`fail_closed`** hands back what waits and what the slots hold. -/
theorem failClosed_spec (session : Session β φ ψ) (err : Error) :
    Triple (Running ledger set policy out held session) (failClosed env set session err) fun r =>
      Stopped ledger sink r.1.history := by
  refine Triple.fact (fun w h => h.1) fun hcarries => ?_
  have hrestore := restoreCustody_spec hbroken out hcarries.anchored
  rw [hcarries.waiting] at hrestore
  refine Triple.bind (hrestore.strengthen fun w h => h.2) ?_
  rintro ⟨slots', err' | _⟩
  · exact Triple.pure fun w h => hcarries.stopped h
  · exact Triple.pure fun w h => hcarries.stopped h

include hbroken in
/-- **An overflow** hands back everything that has not been handed over, in the order given. -/
theorem overflowed_spec (session : Session β φ ψ)
    (hcarries : Carries set policy out [] session.slots .new session.history)
    (unsunk : List (Held β)) (hanchored : Anchored set unsunk session.slots)
    {refusal : Pending.Refusal} (hunsunk : unsunk.map Held.event = refusal.unsunk) :
    Triple (Holding ledger (out ++ unsunk) 0 session.slots.slots)
      (overflowed env set session refusal) fun r => Stopped ledger sink r.1.history := by
  have hrestore := restoreCustody_spec hbroken out hanchored
  rw [hunsunk] at hrestore
  refine Triple.bind hrestore ?_
  rintro ⟨slots', err' | _⟩
  · exact Triple.pure fun w h => hcarries.stopped h
  · exact Triple.pure fun w h => hcarries.stopped h

end ends

/-! ## Handing over -/

section emit

variable (hsink : SinkKeeps ledger sink) (fuel : Nat) (now : Timestamp)

include hsink in
/-- **A burst**: the events `burst` go out while `held` waits, and with the session if the sink
refuses them. No slot holds an event meanwhile. -/
theorem handOver_spec (final : Bool) (burst : List (Held β))
    (hcarries : Carries set policy out held session.slots session.pending session.history)
    (hempty : heldFrom 0 session.slots.slots = []) :
    Triple (Holding ledger (out ++ burst ++ held) 0 session.slots.slots)
      (handOver env sink fuel session now final (burst.map Held.event)) fun r w =>
        match r.2 with
        | .ok _ => heldFrom 0 r.1.slots.slots = [] ∧
          Running ledger set policy (out ++ burst) held r.1 w
        | .error _ => Stopped ledger sink r.1.history w := by
  refine Triple.fact (p := SlotsOk ledger 0 session.slots.slots) (fun w h => h.1) fun hoks => ?_
  unfold handOver
  refine Triple.bind ((hsink.call _ _).strengthen fun w h => h.2) fun fut => ?_
  refine Triple.bind (awaitSink_spec hsink _ fut fuel) fun answer => ?_
  refine Triple.assume fun herrs => ?_
  cases answer with
  | error err =>
    refine Triple.pure fun w hown => ⟨fun _ => herrs err rfl, out ++ burst ++ held, ?_, ?_⟩
    · simp [Except.toBool, hcarries.sunk, hcarries.lost, hcarries.waiting]
    · have hown' : Owns ledger (out ++ burst ++ held ++ heldFrom 0 session.slots.slots) w := hown
      rwa [hempty, List.append_nil] at hown'
  | ok u =>
    refine Triple.pure fun w hown => ⟨hempty, ⟨?_, ?_, ?_, ?_, ?_, ?_⟩, hoks, hown⟩
    · simp [Except.toBool, hcarries.sunk]
    · simp [Except.toBool, hcarries.lost]
    · exact hcarries.waiting
    · exact hcarries.quiet
    · exact hcarries.unsettled
    · exact hcarries.anchored

include hsink in
/-- **A quiet emit** hands over everything that waits. -/
theorem emitQuiet_spec (session : Session β φ ψ)
    (hcarries : Carries set policy out [] session.slots .new session.history)
    (hwaiting : held.map Held.event = session.pending.events)
    (hempty : heldFrom 0 session.slots.slots = []) :
    Triple (Holding ledger (out ++ held) 0 session.slots.slots)
      (emitQuiet env sink policy fuel session now) (TurnedOk ledger sink set policy) := by
  unfold emitQuiet
  split
  · next hnone =>
    -- Nothing waits.
    have hnil : held = [] := by
      rw [Pending.isEmpty, List.isEmpty_iff, ← hwaiting, List.map_eq_nil_iff] at hnone
      exact hnone
    subst hnil
    refine Triple.pure fun w h => ⟨out, [], ?_, h⟩
    exact ⟨hcarries.sunk, hcarries.lost, hwaiting, hcarries.quiet, hcarries.unsettled,
      hcarries.anchored⟩
  · let taken : Session β φ ψ := { session with pending := .new }
    have hhand : Triple (Holding ledger (out ++ held ++ []) 0 taken.slots.slots)
        (handOver env sink fuel taken now false (held.map Held.event)) fun r w =>
          match r.2 with
          | .ok _ => heldFrom 0 r.1.slots.slots = [] ∧
            Running ledger set policy (out ++ held) [] r.1 w
          | .error _ => Stopped ledger sink r.1.history w :=
      handOver_spec hsink fuel now false held hcarries hempty
    rw [List.append_nil, hwaiting] at hhand
    refine Triple.bind hhand ?_
    rintro ⟨session', err | _⟩
    · exact Triple.pure fun w h => h
    · exact Triple.pure fun w h => ⟨out ++ held, [], h.2⟩

end emit

/-! ## Applying a turn -/

section apply

variable (hsink : SinkKeeps ledger sink) (hbroken : ∀ w, ¬ ledger.broken w) (fuel : Nat)
  (now : Timestamp) {turn : List (Held β)}

/-- Events that are taken together keep their places together. -/
theorem anchored_append {s : SlotSet β φ ψ} {xs ys : List (Held β)} (hxs : Anchored set xs s)
    (hys : Anchored set ys s) : Anchored set (xs ++ ys) s := fun e he =>
  (List.mem_append.mp he).elim (hxs e) (hys e)

/-- Nothing urgent waits, -/
theorem filter_urgent_waiting (hquiet : ∀ e ∈ held, urgentHeld set policy e = false) :
    held.filter (urgentHeld set policy) = [] := by
  rw [List.filter_eq_nil_iff]
  intro e he
  simp [hquiet e he]

/-- so all that waits is quiet. -/
theorem filter_quiet_waiting (hquiet : ∀ e ∈ held, urgentHeld set policy e = false) :
    (held.filter fun e => !urgentHeld set policy e) = held := by
  rw [List.filter_eq_self]
  intro e he
  simp [hquiet e he]

/-- The urgent events of a turn go out before what waits. -/
theorem owns_overtaken {s : SlotSet β φ ψ} (hquiet : ∀ e ∈ held, urgentHeld set policy e = false)
    (hanchored : Anchored set (held ++ turn) s) {w : World σ β}
    (h : Owns ledger (out ++ held ++ turn) w) :
    Owns ledger (out ++ turn.filter (urgentHeld set policy)
      ++ (held ++ turn.filter fun e => !urgentHeld set policy e)) w := by
  refine h.settle (fun e he => ?_) fun slot => ?_
  · simp only [List.mem_append, List.mem_filter] at he ⊢
    tauto
  · have hsplit := heldIn_partition (anchored_alike hanchored policy) slot
    rw [List.filter_append, List.filter_append, filter_urgent_waiting hquiet,
      filter_quiet_waiting hquiet, List.nil_append] at hsplit
    rw [List.append_assoc, heldIn_append, hsplit, ← heldIn_append, List.append_assoc]

/-- What is handed back of a turn that was split up to some event. -/
theorem owns_refused {s : SlotSet β φ ψ} {before after : List (Held β)}
    (hquiet : ∀ e ∈ held, urgentHeld set policy e = false)
    (hanchored : Anchored set (held ++ before) s) {w : World σ β}
    (h : Owns ledger (out ++ held ++ (before ++ after)) w) :
    Owns ledger (out ++ (held ++ (before.filter fun e => !urgentHeld set policy e)
      ++ before.filter (urgentHeld set policy) ++ after)) w := by
  refine h.settle (fun e he => ?_) fun slot => ?_
  · simp only [List.mem_append, List.mem_filter] at he ⊢
    tauto
  · have hsplit := heldIn_partition_not (anchored_alike hanchored policy) slot
    rw [List.filter_append, List.filter_append, filter_urgent_waiting hquiet,
      filter_quiet_waiting hquiet, List.nil_append] at hsplit
    rw [heldIn_append, heldIn_append, hsplit]
    simp only [heldIn_append, List.append_assoc]

include hsink hbroken in
/-- **Applying a turn**: its events join what waits, go out, or are all handed back. -/
theorem applyTurn_spec (session : Session β φ ψ)
    (hcarries : Carries set policy out held session.slots session.pending session.history)
    (hturn : Anchored set turn session.slots) (hempty : heldFrom 0 session.slots.slots = []) :
    Triple (Holding ledger (out ++ held ++ turn) 0 session.slots.slots)
      (applyTurn env sink set policy fuel session now (turn.map Held.event))
      (TurnedOk ledger sink set policy) := by
  have hanchored : Anchored set (held ++ turn) session.slots :=
    anchored_append hcarries.anchored hturn
  have hall : (held ++ turn).map Held.event = session.pending.events ++ turn.map Held.event := by
    rw [List.map_append, hcarries.waiting]
  unfold applyTurn
  split
  · next hnil =>
    -- No event has come.
    obtain rfl : turn = [] := by simpa using hnil
    rw [List.append_nil]
    split
    · exact emitQuiet_spec hsink fuel now session hcarries.emptied hcarries.waiting hempty
    · exact Triple.pure fun w h => ⟨out, held, hcarries, h⟩
  dsimp only
  let armed : Session β φ ψ :=
    { session with
      nextQuietEmitAt := armedTimer set policy session.nextQuietEmitAt now
        (turn.map Held.event) }
  split
  · -- The interval is over: everything goes out.
    rw [List.append_assoc]
    split
    · next refusal hpush =>
      refine ending_spec (overflowed_spec hbroken armed
        hcarries.emptied (held ++ turn) hanchored ?_)
      rw [hall, Pending.pushEach_unsunk hpush]
    · next pending hpush =>
      refine emitQuiet_spec hsink fuel now { armed with pending }
        hcarries.emptied ?_ hempty
      rw [hall, Pending.pushEach_events hpush]
  split
  · -- The urgent events go out on their own.
    split
    · next refusal hsplit =>
      obtain ⟨before, after, hparts, hunsunk⟩ := splitEach_unsunk hsplit
      obtain ⟨before, after, rfl, rfl, rfl⟩ := List.map_eq_append_iff.mp hparts
      have hbefore : Anchored set (held ++ before) session.slots := fun e he =>
        hanchored e (by simp only [List.mem_append] at he ⊢; tauto)
      refine (ending_spec (overflowed_spec hbroken armed
        hcarries.emptied (held ++ (before.filter fun e => !urgentHeld set policy e)
          ++ before.filter (urgentHeld set policy) ++ after) ?_ ?_)).strengthen fun w h => ?_
      · intro e he
        refine hanchored e ?_
        simp only [List.mem_append, List.mem_filter] at he ⊢
        tauto
      · simp only [List.map_append, map_quiet, map_urgent, hcarries.waiting, hunsunk,
          List.nil_append]
      · refine ⟨h.1, ?_⟩
        have hown := h.2
        rw [hempty, List.append_nil] at hown ⊢
        exact owns_refused hcarries.quiet hbefore hown
    · next pending timer urgent hsplit =>
      obtain ⟨hpush, htimer, hurgent⟩ :=
        splitEach_eq_ok hsplit fun hquiet => armedTimer_isSome hquiet
      rw [List.nil_append, ← map_urgent] at hurgent
      subst htimer hurgent
      let split : Session β φ ψ := { armed with pending }
      have hcarried : Carries set policy out
          (held ++ turn.filter fun e => !urgentHeld set policy e) split.slots split.pending
          split.history := by
        refine ⟨hcarries.sunk, hcarries.lost, ?_, fun e he => ?_, hcarries.unsettled,
          fun e he => hanchored e ?_⟩
        · rw [List.map_append, hcarries.waiting, map_quiet, ← Pending.pushEach_events hpush]
        · rcases List.mem_append.mp he with he | he
          · exact hcarries.quiet e he
          · simpa using (List.mem_filter.mp he).2
        · simp only [List.mem_append, List.mem_filter] at he ⊢
          tauto
      have hhand : Triple (Holding ledger (out ++ held ++ turn) 0 split.slots.slots)
          (handOver env sink fuel split now false
            ((turn.filter (urgentHeld set policy)).map Held.event)) fun r w =>
          match r.2 with
          | .ok _ => heldFrom 0 r.1.slots.slots = [] ∧
            Running ledger set policy (out ++ turn.filter (urgentHeld set policy))
              (held ++ turn.filter fun e => !urgentHeld set policy e) r.1 w
          | .error _ => Stopped ledger sink r.1.history w := by
        refine (handOver_spec hsink fuel now false _ hcarried hempty).strengthen fun w h =>
          ⟨h.1, ?_⟩
        have hown := h.2
        rw [hempty, List.append_nil] at hown ⊢
        exact owns_overtaken hcarries.quiet hanchored hown
      split
      · next hnone =>
        have hnil : turn.filter (urgentHeld set policy) = [] := by
          rwa [List.isEmpty_iff, List.map_eq_nil_iff] at hnone
        refine Triple.pure fun w h => ⟨out, _, hcarried, h.1, ?_⟩
        have hown := h.2
        rw [hempty, List.append_nil] at hown ⊢
        have hovertaken := owns_overtaken hcarries.quiet hanchored hown
        rwa [hnil, List.append_nil] at hovertaken
      · refine Triple.bind hhand ?_
        rintro ⟨session', err | _⟩
        · exact Triple.pure fun w h => h
        · exact Triple.pure fun w h => ⟨_, _, h.2⟩
  · split
    · next refusal hpush =>
      rw [List.append_assoc]
      refine ending_spec (overflowed_spec hbroken armed
        hcarries.emptied (held ++ turn) hanchored ?_)
      rw [hall, Pending.pushEach_unsunk hpush]
    · next hurgent _ pending hpush =>
      have hwaiting : (held ++ turn).map Held.event = pending.events := by
        rw [hall, Pending.pushEach_events hpush]
      rw [List.append_assoc]
      split
      · exact emitQuiet_spec hsink fuel now
          { armed with pending, nextQuietEmitAt := armed.nextQuietEmitAt.or _ }
          hcarries.emptied hwaiting hempty
      · refine Triple.pure fun w h => ⟨out, held ++ turn, ?_, h⟩
        refine ⟨hcarries.sunk, hcarries.lost, hwaiting, fun e he => ?_, hcarries.unsettled,
          hanchored⟩
        rcases List.mem_append.mp he with he | he
        · exact hcarries.quiet e he
        · by_contra hnot
          refine hurgent (List.any_eq_true.mpr ⟨e.event, List.mem_map.mpr ⟨e, he, rfl⟩, ?_⟩)
          simpa [urgentHeld] using hnot

include hsink hbroken in
/-- **A final flush** hands over what waits with the turn, or hands all of it back. -/
theorem finalFlush_spec (session : Session β φ ψ) (request : LiveWaitRequest)
    (terminal : Option FollowEnd) (cancelled : Bool)
    (hcarries : Carries set policy out held session.slots session.pending session.history)
    (hturn : Anchored set turn session.slots) (hempty : heldFrom 0 session.slots.slots = []) :
    Triple (Holding ledger (out ++ held ++ turn) 0 session.slots.slots)
      (finalFlush env sink set request fuel session now (turn.map Held.event) terminal cancelled)
      fun r => Stopped ledger sink r.1.history := by
  have hall : (held ++ turn).map Held.event = session.pending.events ++ turn.map Held.event := by
    rw [List.map_append, hcarries.waiting]
  unfold finalFlush
  rw [List.append_assoc]
  split
  · next refusal hpush =>
    refine overflowed_spec hbroken session hcarries.emptied (held ++ turn)
      (anchored_append hcarries.anchored hturn) ?_
    rw [hall, Pending.pushEach_unsunk hpush]
  · next pending hpush =>
    have hwaiting : (held ++ turn).map Held.event = pending.events := by
      rw [hall, Pending.pushEach_events hpush]
    split
    · next hnone =>
      have hnil : held ++ turn = [] := by
        rw [Pending.isEmpty, List.isEmpty_iff, ← hwaiting, List.map_eq_nil_iff] at hnone
        exact hnone
      rw [hnil, List.append_nil]
      refine Triple.pure fun w h => hcarries.stopped ?_
      have hown := h.2
      rwa [hempty, List.append_nil] at hown
    · let taken : Session β φ ψ := { session with pending := .new }
      have hhand : Triple (Holding ledger (out ++ (held ++ turn) ++ []) 0 taken.slots.slots)
          (handOver env sink fuel taken now true ((held ++ turn).map Held.event)) fun r w =>
            match r.2 with
            | .ok _ => heldFrom 0 r.1.slots.slots = [] ∧
              Running ledger set policy (out ++ (held ++ turn)) [] r.1 w
            | .error _ => Stopped ledger sink r.1.history w :=
        handOver_spec hsink fuel now true (held ++ turn) hcarries.emptied hempty
      rw [List.append_nil, hwaiting] at hhand
      refine Triple.bind hhand ?_
      rintro ⟨session', err | _⟩
      · exact Triple.pure fun w h => h
      · -- The sink took everything, and the slots hold nothing.
        refine Triple.pure fun w h => h.2.1.stopped ?_
        have hown := h.2.2.2
        rwa [h.1, List.append_nil, List.append_nil] at hown

end apply

/-! ## One turn -/

section turn

variable (hsink : SinkKeeps ledger sink) (hbroken : ∀ w, ¬ ledger.broken w)
  (hids : IdsOf ids set) (hnodup : ids.Nodup)
  (hlabels : ∀ items w, ledger.own [] items w → AtSlots env ids items)
  (request : LiveWaitRequest) (fuel : Nat)

include hids hnodup hlabels in
/-- What the slots hold is found again by its ids. -/
theorem anchored_heldFrom {front : List (Held β)} {s : SlotSet β φ ψ} {w : World σ β}
    (h : Holding ledger front 0 s.slots w) : Anchored set (heldFrom 0 s.slots) s := by
  intro e he
  obtain ⟨i, slot, hslot, hi, hbind⟩ := bind_of_mem_heldFrom he
  rw [Nat.zero_add] at hslot
  refine ⟨?_, indexOf_of_getElem? hids hnodup ?_⟩
  · rw [SlotSet.bindAt, hslot, hi]
    exact hbind
  · have hitem := hlabels _ _ h.2 e.item
      (List.mem_map.mpr ⟨e, List.mem_append_right _ he, rfl⟩)
    rw [hitem.2 e.slot e.bind e.event rfl]
    exact hitem.1

include hsink hbroken hids hnodup hlabels in
/-- **One decision.** -/
theorem decideCoalesce_spec (now : Timestamp) (cancelArm : Bool) :
    Triple (Running ledger set policy out held session)
      (decideCoalesce env sink set request policy fuel session now cancelArm)
      (TurnedOk ledger sink set policy) := by
  unfold decideCoalesce
  split
  · exact ending_spec (failClosed_spec hbroken session _)
  split
  · next err _ =>
    exact ending_spec ((failClosed_spec hbroken _ err).strengthen fun w h => h.cleared)
  intro w h
  have hturn := anchored_heldFrom hids hnodup hlabels h.2
  obtain ⟨hevents, hnone, hholding⟩ := takeEvents_spec h.2
  have hstays := takeEvents_stays session.slots h.1.unsettled
  have hcarries : Carries set policy out held session.slots.takeEvents.1 session.pending
      session.history :=
    ⟨h.1.sunk, h.1.lost, h.1.waiting, h.1.quiet, hstays.waits, h.1.anchored.stays hstays⟩
  have htaken := hturn.stays hstays
  generalize heldFrom 0 session.slots.slots = turn at hevents hholding htaken
  generalize session.slots.takeEvents = taken at hevents hnone hholding hcarries htaken
  obtain ⟨slots, events⟩ := taken
  obtain rfl : events = turn.map Held.event := hevents
  have hcancel : Triple (Holding ledger (out ++ held ++ turn) 0 slots.slots)
      (isCancelled env cancelArm)
      fun _ => Holding ledger (out ++ held ++ turn) 0 slots.slots := by
    unfold isCancelled
    split
    · exact Triple.pure fun w h => h
    · exact holding_frame fun items => ledger.isCancelled [] items
  refine Triple.bind hcancel (fun cancelled => ?_) w hholding
  split
  · exact ending_spec (finalFlush_spec hsink hbroken fuel now { session with slots } request _ _
      hcarries htaken hnone)
  · -- The turn is applied, and the slots are armed again.
    let applied : Session β φ ψ :=
      { session with
        slots
        history := session.history ++
          [.turn now session.pending session.nextQuietEmitAt (turn.map Held.event)] }
    have hnoted : Carries set policy out held applied.slots applied.pending applied.history :=
      ⟨by simp [applied, hcarries.sunk], by simp [applied, hcarries.lost], hcarries.waiting,
        hcarries.quiet, hcarries.unsettled, hcarries.anchored⟩
    refine Triple.bind (applyTurn_spec hsink hbroken fuel now applied hnoted htaken hnone) ?_
    rintro ⟨session', _ | result⟩
    · rintro w' ⟨out', held', h'⟩
      refine Triple.bind (running_slots (rearmIdle_spec _ session'.slots) fun hwaits =>
        rearmIdle_stays env session'.slots hwaits) (fun slots' => ?_) w' h'
      exact Triple.pure fun w h => ⟨out', held', h⟩
    · exact Triple.pure fun w h => h

include hsink hbroken hids hnodup hlabels in
/-- Polling and deciding. -/
theorem pollAndDecide_spec (cancelArm : Bool) :
    Triple (Running ledger set policy out held session)
      (pollAndDecide env sink set request policy fuel session cancelArm)
      (TurnedOk ledger sink set policy) := by
  refine Triple.bind (running_slots (pollAvailable_spec _ fuel session.slots) fun hwaits =>
    pollAvailable_stays env fuel session.slots hwaits) fun slots₁ => ?_
  refine Triple.bind (running_slots (harvestPollReady_spec _ slots₁) fun hwaits =>
    harvestPollReady_stays env slots₁ hwaits) fun slots₂ => ?_
  refine Triple.bind (running_frame fun items => ledger.now [] items) fun now => ?_
  exact decideCoalesce_spec hsink hbroken hids hnodup hlabels request fuel now cancelArm

include hsink hbroken hids hnodup hlabels in
/-- The handler of a timer. -/
theorem onWake_spec :
    Triple (Running ledger set policy out held session)
      (onWake env sink set request policy fuel session) (TurnedOk ledger sink set policy) := by
  refine Triple.bind (running_slots (rearmIdle_spec _ session.slots) fun hwaits =>
    rearmIdle_stays env session.slots hwaits) fun slots' => ?_
  exact pollAndDecide_spec hsink hbroken hids hnodup hlabels request fuel false

/-- One poll of the turn keeps what the session carries. -/
theorem pollCollectTurn_spec :
    Triple (Running ledger set policy out held session)
      (pollCollectTurn env fuel session.slots) fun r =>
        Running ledger set policy out held { session with slots := r.1 } := by
  refine Triple.bind (running_slots (pollAvailable_spec _ fuel session.slots) fun hwaits =>
    pollAvailable_stays env fuel session.slots hwaits) fun slots' => ?_
  cases slots'.fault with
  | some err => exact Triple.pure fun w h => h.cleared
  | none =>
    by_cases hterminal : slots'.hasTerminalObs = true
    · simp only [hterminal, if_true]
      exact Triple.pure fun w h => h
    · by_cases hidle : slots'.anyIdleHarvested = true
      · simp only [hterminal, hidle, if_true]
        exact Triple.pure fun w h => h
      · simp only [hterminal, hidle]
        exact Triple.pure fun w h => h

/-- **The `select!` of a turn** keeps what the session carries, whichever branch it ends with. -/
theorem selectTurn_spec (wake : Timestamp) (quiet : Option Timestamp) (polls : Nat)
    (session : Session β φ ψ) :
    Triple (Running ledger set policy out held session)
      (selectTurn env fuel wake quiet polls session.slots) fun r =>
        Running ledger set policy out held { session with slots := r.1 } := by
  induction polls generalizing session with
  | zero => exact Triple.exhausted
  | succ polls ih =>
    refine Triple.bind (pollCollectTurn_spec fuel) ?_
    rintro ⟨slots', result | _⟩
    · refine Triple.bind (running_frame fun items => ledger.isCancelled [] items) ?_
      rintro (_ | _)
      · refine Triple.bind (running_frame fun items => ledger.sleepUntil [] items wake) ?_
        rintro (_ | _)
        · have hquiet : Triple
              (Running ledger set policy out held { session with slots := slots' })
              (pollQuiet env quiet) fun _ =>
                Running ledger set policy out held { session with slots := slots' } := by
            cases quiet with
            | none => exact Triple.pure fun w h => h
            | some at' => exact running_frame fun items => ledger.sleepUntil [] items at'
          refine Triple.bind hquiet ?_
          rintro (_ | _)
          · exact Triple.bind (running_frame fun items => ledger.park [] items)
              fun _ => ih { session with slots := slots' }
          · exact Triple.pure fun w h => h
        · exact Triple.pure fun w h => h
      · exact Triple.pure fun w h => h
    · exact Triple.pure fun w h => h

include hsink hbroken hids hnodup hlabels in
/-- The handler of the readiness branch. -/
theorem onCollected_spec (result : Except Error Turn) :
    Triple (Running ledger set policy out held session)
      (onCollected env sink set request policy fuel session result)
      (TurnedOk ledger sink set policy) := by
  rcases result with err | (_ | _)
  · refine Triple.bind (running_frame fun items => ledger.now [] items) fun now => ?_
    exact ending_spec (failClosed_spec hbroken session _)
  · refine Triple.bind (running_frame fun items =>
      backoffDeadline_keeps set request _ items) fun sleepTo => ?_
    refine Triple.bind (running_frame fun items => sleepOrCancel_keeps fuel _ items) fun _ => ?_
    exact (onWake_spec hsink hbroken hids hnodup hlabels request fuel).strengthen fun w h => h
  · refine Triple.bind (running_frame fun items => ledger.now [] items) fun now => ?_
    exact decideCoalesce_spec hsink hbroken hids hnodup hlabels request fuel now false

include hsink hbroken hids hnodup hlabels in
/-- Waiting for a turn. -/
theorem awaitTurn_spec :
    Triple (Running ledger set policy out held session)
      (awaitTurn env sink set request policy fuel session) (TurnedOk ledger sink set policy) := by
  refine Triple.bind (selectTurn_spec fuel _ _ fuel session) ?_
  rintro ⟨slots, result | _ | _⟩
  · exact onCollected_spec hsink hbroken hids hnodup hlabels request fuel result
  · exact pollAndDecide_spec hsink hbroken hids hnodup hlabels request fuel true
  · exact onWake_spec hsink hbroken hids hnodup hlabels request fuel

include hsink hbroken hids hnodup hlabels in
/-- **One turn.** -/
theorem turn_spec :
    Triple (Running ledger set policy out held session)
      (turn env sink set request policy fuel session) (TurnedOk ledger sink set policy) := by
  refine Triple.bind (running_frame fun items => ledger.now [] items) fun now => ?_
  split
  · exact ending_spec (failClosed_spec hbroken session _)
  refine Triple.bind (running_frame fun items => ledger.now [] items) fun now => ?_
  refine Triple.bind (running_frame fun items => ledger.isCancelled [] items) fun cancelled => ?_
  split
  · -- Something is due already.
    refine Triple.bind (running_slots (pollAvailable_spec _ fuel session.slots) fun hwaits =>
      pollAvailable_stays env fuel session.slots hwaits) fun slots₁ => ?_
    refine Triple.bind (running_slots (harvestPollReady_spec _ slots₁) fun hwaits =>
      harvestPollReady_stays env slots₁ hwaits) fun slots₂ => ?_
    refine Triple.bind (running_frame fun items => ledger.isCancelled [] items) fun cancelArm => ?_
    refine Triple.bind
      (decideCoalesce_spec hsink hbroken hids hnodup hlabels request fuel now cancelArm) ?_
    rintro ⟨session', _ | result⟩
    · rintro w ⟨out', held', h⟩
      exact awaitTurn_spec hsink hbroken hids hnodup hlabels request fuel w h
    · exact Triple.pure fun w h => h
  · exact awaitTurn_spec hsink hbroken hids hnodup hlabels request fuel

include hsink hbroken hids hnodup hlabels in
/-- **Any turns**: a session that has stopped owns what it handed over, and nothing else. -/
theorem coalesceLoop_spec (turns : Nat) (session : Session β φ ψ) :
    Triple (fun w => ∃ out held, Running ledger set policy out held session w)
      (coalesceLoop env sink set request policy fuel turns session) fun r =>
        Stopped ledger sink r.1.history := by
  induction turns generalizing session with
  | zero => exact Triple.exhausted
  | succ turns ih =>
    rintro w ⟨out, held, h⟩
    refine Triple.bind (turn_spec hsink hbroken hids hnodup hlabels request fuel) ?_ w h
    rintro ⟨session', _ | result⟩
    · exact ih session'
    · exact Triple.pure fun w hw => hw

include hsink hbroken hids hnodup hlabels in
/-- **A session** over an arbitrary ledger: what is owned at the end went to the sink. -/
theorem runCoalesce_spec :
    Triple (ledger.own [] []) (runCoalesce env sink set request policy fuel) fun r =>
      Stopped ledger sink r.1 := by
  have hnothing : Carries set policy ([] : List (Held β)) [] (⟨[], none⟩ : SlotSet β φ ψ) .new [] :=
    ⟨rfl, rfl, rfl, by simp, by simp, by simp [Anchored]⟩
  refine Triple.bind (enter_keeps set request []) ?_
  rintro (_ | err)
  · have hplaces : ∀ i registration, set.registrations[i]? = some registration →
        ids[0 + i]? = some registration.registrationId := by
      intro i registration hi
      rw [hids, Nat.zero_add, List.getElem?_map, hi]
      rfl
    have hnew : Triple (ledger.own [] []) (SlotSet.new env set.registrations) fun slots w =>
        ∃ out held, Running ledger set policy out held (Session.start slots) w := by
      intro w h slots w' hrun
      have hwaits := new_waits env set.registrations w trivial slots w' hrun
      refine ⟨[], [], ⟨rfl, rfl, rfl, by simp, hwaits, by simp [Anchored]⟩, ?_⟩
      exact new_spec 0 set.registrations hplaces [] w h slots w' hrun
    refine Triple.bind hnew fun slots => ?_
    refine Triple.bind (coalesceLoop_spec hsink hbroken hids hnodup hlabels request fuel fuel
      (Session.start slots)) ?_
    rintro ⟨session, result⟩ w ⟨herrs, gone, hgone, hown⟩
    refine Triple.bind (dropSlots_spec session.slots) (fun _ => ?_) w hown
    exact Triple.pure fun w h => ⟨herrs, gone, hgone, h⟩
  · exact Triple.pure fun w h => hnothing.stopped h

end turn

/-! ## Custody -/

/-- **A coalescing session delivers every event once, in the order of its registration.** Under the
FIFO assumption, with a sink that only lets events arrive, and whatever ends the session: for each
registration, what the sink took, followed by the queue, is what the queue was, followed by what has
arrived. Where the sink answers `Err`, only the burst it refused and what waited meanwhile are not
in either. -/
theorem coalesce_conserves {sink : Sink σ CoalesceBurst ξ} {set : RegistrationSet}
    {request : LiveWaitRequest} {policy : CoalescePolicy} (fifo : FifoObserver env)
    (hsink : QuietSink fifo.toQueuedObserver sink)
    (hids : (set.registrations.map Registration.registrationId).Nodup) (fuel : Nat)
    {w w' : World σ β} {history : List Entry} {result : Except Error FollowEnd}
    (hrun : runCoalesce env sink set request policy fuel w = some ((history, result), w')) :
    (∀ r, Custody (fifo.view r) w.host
      ((sunk history ++ lost history).filter fun event => event.registrationId = r) w'.host) ∧
    (lost history ≠ [] → SinkErrs sink) := by
  have hstopped : ∀ r,
      Stopped (custodyLedger hids fifo.toQueuedObserver r w.host) sink history w' :=
    fun r => runCoalesce_spec (hsink.keeps hids r w.host) fifo.not_rejected rfl hids
      (fun _ _ h => h.1) request fuel w (CustodyOwn.start w) _ w' hrun
  refine ⟨fun r => ?_, (hstopped "").1⟩
  obtain ⟨-, gone, hgone, hat, hcustody⟩ := hstopped r
  rw [heldBy_items hat, hgone] at hcustody
  exact hcustody

open Case in
/-- Two events of a quiet registration and one of an urgent one wait. -/
def overtakenWorld : World QueueHost ResolvedStart :=
  QueueHost.world pairWaiting (ts "2026-08-15T16:02:00Z")
    (List.replicate 6 (ts "2026-08-15T16:02:00Z") ++ [ts "2026-08-15T16:20:00Z"])

/-- The urgent event goes out first, and custody is kept. -/
theorem coalesce_conserves_overtaken : ∃ history result w',
    runCoalesce queueEnv takesAll urgentSet Case.liveWaitRequest tenSeconds 12 overtakenWorld
        = some ((history, result), w') ∧
      ((bursts history).map fun burst => burst.events.map WaitEvent.eventId)
        = [["evt:3"], ["evt:1", "evt:2"]] ∧
      ∀ r, Custody (queueFifo.view r) overtakenWorld.host
        ((sunk history ++ lost history).filter fun event => event.registrationId = r) w'.host := by
  have hdone : ((runCoalesce queueEnv takesAll urgentSet Case.liveWaitRequest tenSeconds 12
      overtakenWorld).any fun last =>
        ((bursts last.1.1).map fun burst => burst.events.map WaitEvent.eventId)
          == [["evt:3"], ["evt:1", "evt:2"]]) = true := by
    decide +kernel
  obtain ⟨⟨⟨history, result⟩, w'⟩, hrun, hbursts⟩ := exists_of_any hdone
  have hquiet : QuietSink queueFifo.toQueuedObserver takesAll :=
    ⟨fun r _ s => .refl s, fun r _ s => .refl s⟩
  exact ⟨history, result, w', hrun, eq_of_beq hbursts,
    (coalesce_conserves queueFifo hquiet (by decide) 12 hrun).1⟩

end Coalesce

end Waitprims
