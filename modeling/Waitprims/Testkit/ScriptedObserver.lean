import Mathlib
import Waitprims.Async.Sessions
import Waitprims.Testkit.FakeClock

/-! # The scripted observer

The observer behind `waitprims wait`, `poll`, `follow` and `coalesce`: a queue of scripted events
for each registration, in the order of their `observed_at`, from which an event is taken once it is
due by the clock of the script. A registration with a scripted fault reports the fault, and one with
more events due than its buffer takes reports an overflow from then on; the queues stay as they are.

* **`ScriptedHost`** — the observer, its clock, the `next` futures and what runs beside it.
* **`scriptedEnv`** — the environment the runners see.
* **`Played`** — what holds at every point of a run, a ledger of the runners.
* **`script_played`** — what any number of runs take is the script, in its order, and due. -/

namespace Waitprims

namespace Testkit

open Fueled
open Follow (Sink SinkKeeps Held heldBy_items)
open Sessions (Share Use Uses AsideSink taken kept ofId matchShare_taken taken_of_lossless
  kept_sublist)

/-! ## The script -/

/-- Scripted observations. -/
structure Script where
  /-- Per-arm bound. -/
  bufferLimit : Nat
  /-- Events in any order. `observed_at` is the ready time. -/
  events : List WaitEvent

/-- A scripted fault, with its reason. -/
inductive ArmFault
  | outage (reasonCode : IdToken)
  | cursorUncertain (reasonCode : IdToken)
  | degraded (reasonCode : IdToken)
  | failed (reasonCode : IdToken)

/-- What a fault is observed as. -/
def ArmFault.observation : ArmFault → Observation
  | .outage reasonCode => .outage reasonCode
  | .cursorUncertain reasonCode => .cursorUncertain reasonCode
  | .degraded reasonCode => .degraded reasonCode
  | .failed reasonCode => .failed reasonCode

/-- The order of a queue: by `observed_at`, then by event id. -/
def inOrder (left right : WaitEvent) : Prop :=
  left.observedAt < right.observedAt ∨
    left.observedAt ≤ right.observedAt ∧ left.eventId ≤ right.eventId

instance (left right : WaitEvent) : Decidable (inOrder left right) :=
  inferInstanceAs (Decidable (_ ∨ _ ∧ _))

/-- The events of a script by registration, as they come. -/
def groupEvents (events : List WaitEvent) : BTreeMap String (List WaitEvent) :=
  events.foldl
    (fun groups event => groups.insert event.registrationId
      ((groups[event.registrationId]?).getD [] ++ [event])) ∅

/-! ## The observer -/

/-- Where a `next` future is. -/
inductive NextState
  /-- Not polled yet. -/
  | looking
  /-- Waits for the front of its queue to be due. -/
  | sleeping (sleep : Sleep)
  /-- There is nothing to wait for. -/
  | never
  /-- Returned or dropped. -/
  | gone

/-- A `next` future: the registration of the bind it borrows, and its place. -/
structure NextFut where
  registrationId : IdToken
  place : Nat

/-- A `bind` future: the registration it binds, and its place among those made so far. -/
structure BindFut where
  registration : Registration
  place : Nat

/-- The observer and the clock it shares with the runner, with whatever else is running beside. -/
structure ScriptedHost (κ : Type) where
  bufferLimit : Nat
  events : BTreeMap String (List WaitEvent)
  overflowed : List String
  faults : BTreeMap String ArmFault
  /-- Registrations whose `bind` stays pending. -/
  hangBinds : List String
  /-- How many `bind` futures were made. -/
  binds : Nat
  /-- The `bind` futures that found their registration hanging: these stay pending for good. -/
  hung : List Nat
  clock : FakeClock
  nexts : List NextState
  beside : κ

/-- The first `limit` bytes of a text, in whole characters. The source slices the bytes; its panic at
a cut inside a character is left out. -/
def sliceTo (limit : Nat) : List Char → List Char
  | [] => []
  | c :: rest => if c.utf8Size ≤ limit then c :: sliceTo (limit - c.utf8Size) rest else []

/-- Exclusive provider head assigned when a registration cites a baseline policy. -/
def exclusiveHeadAnchor (registrationId : IdToken) : Anchor :=
  let rest := (stripPrefix "reg:" registrationId).getD registrationId
  let localPart := if 58 < rest.utf8ByteSize then String.ofList (sliceTo 58 rest.toList) else rest
  ⟨.providerOpaque, "anc:h-" ++ localPart⟩

/-- Resolve the exclusive start cursor at bind. -/
def resolveStartAtBind (registration : Registration) (scriptHead : Option Anchor) : Anchor :=
  registration.startAnchor.getD
    (scriptHead.getD (exclusiveHeadAnchor registration.registrationId))

variable {κ : Type}

namespace ScriptedHost

/-- Build from a script and a clock. -/
def new (script : Script) (clock : FakeClock) (beside : κ) : ScriptedHost κ where
  bufferLimit := max script.bufferLimit 1
  events := (groupEvents script.events).map fun _ events => events.insertionSort inOrder
  overflowed := []
  faults := ∅
  hangBinds := []
  binds := 0
  hung := []
  clock
  nexts := []
  beside

/-- The queue of a registration. -/
def queueOf (r : IdToken) (host : ScriptedHost κ) : List WaitEvent := (host.events[r]?).getD []

/-- Put a queue in its place. -/
def setQueue (host : ScriptedHost κ) (r : IdToken) (queue : List WaitEvent) : ScriptedHost κ :=
  { host with events := host.events.insert r queue }

/-- Move a `next` future on. -/
def setNext (host : ScriptedHost κ) (place : Nat) (state : NextState) : ScriptedHost κ :=
  { host with nexts := host.nexts.set place state }

/-- Take what a registration has to report. -/
def takeDue (r : IdToken) (host : ScriptedHost κ) : Option Observation × ScriptedHost κ :=
  match host.faults[r]? with
  | some fault => (some fault.observation, host)
  | none =>
    if r ∈ host.overflowed then (some .overflow, host)
    else
      match host.events[r]? with
      | none => (none, host)
      | some queue =>
        let due := (queue.filter fun event => event.observedAt ≤ host.clock.now).length
        if host.bufferLimit < due then
          (some .overflow, { host with overflowed := r :: host.overflowed })
        else if due = 0 then (none, host)
        else
          match queue with
          | [] => (none, host)
          | event :: rest => (some (.event event), host.setQueue r rest)

/-- When the front of a queue is ready. -/
def nextReadyAt (r : IdToken) (host : ScriptedHost κ) : Option Timestamp :=
  (host.events[r]?).bind fun queue => queue.head?.map WaitEvent.observedAt

/-- The start anchor of the front of a queue. -/
def scriptHead (r : IdToken) (host : ScriptedHost κ) : Option Anchor :=
  (host.events[r]?).bind fun queue => queue.head?.map WaitEvent.startAnchor

/-- Start a `bind`. -/
def bind (registration : Registration) (host : ScriptedHost κ) : BindFut × ScriptedHost κ :=
  (⟨registration, host.binds⟩, { host with binds := host.binds + 1 })

/-- One poll of a `bind` future. Whether the registration hangs is asked once, at the first poll. -/
def pollBind (fut : BindFut) (host : ScriptedHost κ) :
    Poll (Except Error ResolvedStart) × ScriptedHost κ :=
  let registrationId := fut.registration.registrationId
  if fut.place ∈ host.hung then (.pending, host)
  else if registrationId ∈ host.hangBinds then
    (.pending, { host with hung := fut.place :: host.hung })
  else
    (.ready (.ok ⟨registrationId,
      resolveStartAtBind fut.registration (host.scriptHead registrationId)⟩), host)

/-- One round of the loop of `next`: what is not due is in the future, so the sleep parks. -/
def look (r : IdToken) (place : Nat) (host : ScriptedHost κ) :
    Poll (Except Error Observation) × ScriptedHost κ :=
  match host.takeDue r with
  | (some obs, host) => (.ready (.ok obs), host.setNext place .gone)
  | (none, host) =>
    match host.nextReadyAt r with
    | none => (.pending, host.setNext place .never)
    | some ready =>
      let polled := (Sleep.fresh ready).poll host.clock
      (.pending, { host with clock := polled.2 }.setNext place (.sleeping polled.1))

/-- One poll of a `next` future. -/
def pollNext (fut : NextFut) (host : ScriptedHost κ) :
    Poll (Except Error Observation) × ScriptedHost κ :=
  match host.nexts[fut.place]? with
  | some .looking => host.look fut.registrationId fut.place
  | some (.sleeping sleep) =>
    let polled := sleep.poll host.clock
    if polled.1 = .done then
      { host with clock := polled.2 }.look fut.registrationId fut.place
    else (.pending, { host with clock := polled.2 }.setNext fut.place (.sleeping polled.1))
  | _ => (.pending, host)

/-- Drop a `next` future: its sleep leaves the clock. -/
def dropNext (fut : NextFut) (host : ScriptedHost κ) : ScriptedHost κ :=
  match host.nexts[fut.place]? with
  | some (.sleeping sleep) =>
    { host with clock := sleep.drop host.clock }.setNext fut.place .gone
  | _ => host.setNext fut.place .gone

/-- Put an event back; nothing else is kept. -/
def restoreReady (r : IdToken) (obs : Observation) (host : ScriptedHost κ) :
    Except Error Unit × ScriptedHost κ :=
  match obs with
  | .event event => (.ok (), host.setQueue r (event :: host.queueOf r))
  | _ => (.ok (), host)

end ScriptedHost

/-- What runs beside the observer on its executor: the sleeps of the runner, its cancel token and
the other tasks. None of them turns the clock back. -/
structure Beside (κ : Type) where
  sleepUntil : Timestamp → FakeClock × κ → Bool × FakeClock × κ
  isCancelled : κ → Bool × κ
  park : FakeClock × κ → FakeClock × κ
  sleepUntil_forward : ∀ deadline c, c.1.now ≤ (sleepUntil deadline c).2.1.now
  park_forward : ∀ c, c.1.now ≤ (park c).1.now

/-- **The environment of a script**: a bind is a resolved start. -/
def scriptedEnv (beside : Beside κ) : Env (ScriptedHost κ) ResolvedStart BindFut NextFut where
  registrationId := ResolvedStart.registrationId
  resolvedStart := ResolvedStart.start
  bindStep registration host := host.bind registration
  pollBindStep fut host := host.pollBind fut
  dropBindStep _ host := host
  nextStep bind host :=
    (⟨bind.registrationId, host.nexts.length⟩, { host with nexts := host.nexts ++ [.looking] })
  pollNextStep fut host := host.pollNext fut
  dropNextStep fut host := host.dropNext fut
  pollReadyStep bind host := host.takeDue bind.registrationId
  restoreReadyStep bind obs host := host.restoreReady bind.registrationId obs
  nowStep host := (host.clock.now, host)
  sleepUntilStep deadline host :=
    let slept := beside.sleepUntil deadline (host.clock, host.beside)
    (slept.1, { host with clock := slept.2.1, beside := slept.2.2 })
  isCancelledStep host :=
    let asked := beside.isCancelled host.beside
    (asked.1, { host with beside := asked.2 })
  parkStep host :=
    let parked := beside.park (host.clock, host.beside)
    { host with clock := parked.1, beside := parked.2 }

/-! ## The queues -/

namespace ScriptedHost

variable {host host' : ScriptedHost κ} {r r' : IdToken}

/-- Setting one queue leaves the others. -/
theorem queueOf_setQueue (host : ScriptedHost κ) (r r' : IdToken) (queue : List WaitEvent) :
    (host.setQueue r queue).queueOf r' = if r = r' then queue else host.queueOf r' := by
  unfold queueOf setQueue
  rw [Std.ExtTreeMap.getElem?_insert]
  by_cases hr : r = r'
  · simp [hr]
  · simp [hr]

theorem queueOf_congr (h : host'.events = host.events) (r : IdToken) :
    host'.queueOf r = host.queueOf r := by
  unfold queueOf
  rw [h]

/-- **What a take does**: an event is the front of its queue, which has an event that is due, and
everything else leaves the queues alone. -/
inductive Took (r : IdToken) (host : ScriptedHost κ) :
    Option Observation → ScriptedHost κ → Prop
  /-- The front of the queue. -/
  | event (event : WaitEvent) (rest : List WaitEvent) (hqueue : host.queueOf r = event :: rest)
      (hdue : ∃ due ∈ event :: rest, due.observedAt ≤ host.clock.now) :
      Took r host (some (.event event)) (host.setQueue r rest)
  /-- A signal, or nothing. -/
  | other (obs : Option Observation) (host' : ScriptedHost κ)
      (hsignal : ∀ event, obs ≠ some (.event event)) (hevents : host'.events = host.events)
      (hclock : host'.clock = host.clock) (hnexts : host'.nexts = host.nexts) :
      Took r host obs host'

theorem takeDue_took (r : IdToken) (host : ScriptedHost κ) :
    Took r host (host.takeDue r).1 (host.takeDue r).2 := by
  have hnone : Took r host none host := .other _ _ (fun event h => by cases h) rfl rfl rfl
  have hoverflow : ∀ host' : ScriptedHost κ, host'.events = host.events → host'.clock = host.clock →
      host'.nexts = host.nexts → Took r host (some .overflow) host' :=
    fun host' hevents hclock hnexts =>
      .other _ _ (fun event h => by cases h) hevents hclock hnexts
  unfold takeDue
  cases hfault : host.faults[r]? with
  | some fault =>
    refine .other _ _ (fun event h => ?_) rfl rfl rfl
    cases fault <;> cases h
  | none =>
    dsimp only
    split
    · exact hoverflow host rfl rfl rfl
    · cases hqueue : host.events[r]? with
      | none => exact hnone
      | some queue =>
        dsimp only
        split
        · exact hoverflow _ rfl rfl rfl
        · split
          · exact hnone
          · next hdue =>
            -- some event is due, so the queue is not empty
            obtain ⟨due, hmem⟩ := List.exists_mem_of_length_pos (Nat.pos_of_ne_zero hdue)
            obtain ⟨hmem, hready⟩ := List.mem_filter.mp hmem
            cases queue with
            | nil => exact absurd hmem List.not_mem_nil
            | cons event rest =>
              refine .event event rest ?_ ⟨due, hmem, of_decide_eq_true hready⟩
              unfold queueOf
              rw [hqueue]
              rfl

/-- A poll of a `bind` leaves the queues and the clock, and a bind is of its registration. -/
theorem pollBind_keeps (fut : BindFut) (host : ScriptedHost κ) :
    (host.pollBind fut).2.events = host.events ∧ (host.pollBind fut).2.clock = host.clock ∧
      ∀ bind, (host.pollBind fut).1 = .ready (.ok bind) →
        bind.registrationId = fut.registration.registrationId := by
  unfold pollBind
  dsimp only
  split
  · exact ⟨rfl, rfl, fun bind hbind => (by cases hbind)⟩
  · split
    · exact ⟨rfl, rfl, fun bind hbind => (by cases hbind)⟩
    · refine ⟨rfl, rfl, fun bind hbind => ?_⟩
      simp only [Poll.ready.injEq, Except.ok.injEq] at hbind
      rw [← hbind]

end ScriptedHost

/-! ## One sleep beside the queues -/

/-- A poll does not turn the clock back. -/
theorem Sleep.poll_forward (sleep : Sleep) (clock : FakeClock) :
    clock.now ≤ (sleep.poll clock).2.now := by
  rcases poll_now sleep clock with hnow | ⟨id, deadline, -, -, hnow, -⟩
  · rw [hnow]
    exact Timestamp.le_def.mpr le_rfl
  · rw [hnow]
    exact (FakeClock.advanceTo_movedOn clock deadline).now_le

theorem Sleep.drop_now (sleep : Sleep) (clock : FakeClock) :
    (sleep.drop clock).now = clock.now := by
  cases sleep <;> rfl

/-! ## What holds at every point of a run -/

section played

variable {origin held : IdToken → List WaitEvent} {since : Timestamp} {host host' : ScriptedHost κ}
  {r : IdToken} {obs : Observation}

/-- **What the queues of a script are**: each in the order its events get ready, and each with the
events of its own registration. -/
structure Scripted (origin : IdToken → List WaitEvent) : Prop where
  ordered : ∀ r, (origin r).Pairwise fun left right => left.observedAt ≤ right.observedAt
  labelled : ∀ r, ∀ event ∈ origin r, event.registrationId = r

/-- **What holds at every point**: what is held of a registration, followed by its queue, is what
the queue was, and what is held is due. -/
structure Played (origin : IdToken → List WaitEvent) (since : Timestamp)
    (held : IdToken → List WaitEvent) (host : ScriptedHost κ) : Prop where
  custody : ∀ r, held r ++ host.queueOf r = origin r
  due : ∀ r, ∀ event ∈ held r, event.observedAt ≤ host.clock.now
  forward : since ≤ host.clock.now

/-- One more observation is held. -/
def andHeld (held : IdToken → List WaitEvent) (r : IdToken) (obs : Observation) :
    IdToken → List WaitEvent :=
  fun r' => held r' ++ if r = r' then obs.events else []

/-- A step that leaves the queues alone and does not turn the clock back. -/
theorem Played.keep (h : Played origin since held host) (hevents : host'.events = host.events)
    (hnow : host.clock.now ≤ host'.clock.now) : Played origin since held host' where
  custody r := by
    rw [ScriptedHost.queueOf_congr hevents]
    exact h.custody r
  due r event hevent := Timestamp.le_def.mpr
    ((Timestamp.le_def.mp (h.due r event hevent)).trans (Timestamp.le_def.mp hnow))
  forward := Timestamp.le_def.mpr
    ((Timestamp.le_def.mp h.forward).trans (Timestamp.le_def.mp hnow))

/-- **Taking an observation**: an event is due, and is of its registration. -/
theorem Played.took (hscript : Scripted origin) (h : Played origin since held host)
    (htook : ScriptedHost.Took r host (some obs) host') :
    Played origin since (andHeld held r obs) host' ∧
      ∀ event, obs = .event event → event.registrationId = r := by
  generalize hsome : some obs = answer at htook
  cases htook with
  | event event rest hqueue hdue =>
    obtain rfl := Option.some.inj hsome
    have horigin : held r ++ event :: rest = origin r := hqueue ▸ h.custody r
    obtain ⟨due, hmem, hready⟩ := hdue
    -- the queue is in order: the front is ready when any of its events is
    have hfront : event.observedAt ≤ host.clock.now := by
      have hordered := hscript.ordered r
      rw [← horigin] at hordered
      rcases List.mem_cons.mp hmem with rfl | hmem
      · exact hready
      · have hle := (List.pairwise_cons.mp (List.pairwise_append.mp hordered).2.1).1 due hmem
        exact Timestamp.le_def.mpr ((Timestamp.le_def.mp hle).trans (Timestamp.le_def.mp hready))
    refine ⟨{ custody := fun r' => ?_, due := fun r' other hother => ?_, forward := h.forward }, ?_⟩
    · rw [andHeld, ScriptedHost.queueOf_setQueue]
      by_cases hr : r = r'
      · subst hr
        simpa [Observation.events] using horigin
      · simpa [hr] using h.custody r'
    · rcases List.mem_append.mp hother with hother | hother
      · exact h.due r' other hother
      · by_cases hr : r = r'
        · rw [if_pos hr] at hother
          rw [List.mem_singleton.mp hother]
          exact hfront
        · rw [if_neg hr] at hother
          exact absurd hother List.not_mem_nil
    · intro other hother
      rw [← Observation.event.inj hother]
      exact hscript.labelled r event (horigin ▸ List.mem_append_right _ List.mem_cons_self)
  | other _ _ hsignal hevents hclock hnexts =>
    subst hsome
    have hnone : obs.events = [] := by
      cases obs with
      | event event => exact absurd rfl (hsignal event)
      | _ => rfl
    refine ⟨?_, fun event heq => absurd (congrArg some heq) (hsignal event)⟩
    have hsame : andHeld held r obs = held := by
      funext r'
      rw [andHeld, hnone, ite_self, List.append_nil]
    rw [hsame]
    exact h.keep hevents (by rw [hclock]; exact Timestamp.le_def.mpr le_rfl)

/-- Taking nothing. -/
theorem Played.tookNone (h : Played origin since held host)
    (htook : ScriptedHost.Took r host none host') : Played origin since held host' := by
  generalize hanswer : (none : Option Observation) = answer at htook
  cases htook with
  | event event rest hqueue hdue => cases hanswer
  | other _ _ hsignal hevents hclock hnexts =>
    exact h.keep hevents (by rw [hclock]; exact Timestamp.le_def.mpr le_rfl)

/-- What a poll of a `next` future leaves. -/
def AfterPoll (origin : IdToken → List WaitEvent) (since : Timestamp)
    (held : IdToken → List WaitEvent) (r : IdToken) :
    Poll (Except Error Observation) → ScriptedHost κ → Prop
  | .ready (.ok obs), host => Played origin since (andHeld held r obs) host ∧
      ∀ event, obs = .event event → event.registrationId = r
  | _, host => Played origin since held host

/-- One round of `next`. -/
theorem Played.look (hscript : Scripted origin) (h : Played origin since held host) (place : Nat) :
    AfterPoll origin since held r (host.look r place).1 (host.look r place).2 := by
  have htook := ScriptedHost.takeDue_took r host
  unfold ScriptedHost.look
  generalize host.takeDue r = taken at htook
  obtain ⟨answer, host₁⟩ := taken
  cases answer with
  | some obs =>
    obtain ⟨hplayed, hlabel⟩ := h.took hscript htook
    exact ⟨hplayed.keep rfl (Timestamp.le_def.mpr le_rfl), hlabel⟩
  | none =>
    have hkept : Played origin since held host₁ := h.tookNone htook
    dsimp only
    cases host₁.nextReadyAt r with
    | none => exact hkept.keep rfl (Timestamp.le_def.mpr le_rfl)
    | some ready => exact hkept.keep rfl (Sleep.poll_forward _ _)

/-- One poll of `next`. -/
theorem Played.pollNext (hscript : Scripted origin) (h : Played origin since held host)
    (fut : NextFut) : AfterPoll origin since held fut.registrationId (host.pollNext fut).1
      (host.pollNext fut).2 := by
  unfold ScriptedHost.pollNext
  cases host.nexts[fut.place]? with
  | none => exact h
  | some state =>
    cases state with
    | looking => exact h.look hscript fut.place
    | sleeping sleep =>
      have hslept : Played origin since held { host with clock := (sleep.poll host.clock).2 } :=
        h.keep rfl (Sleep.poll_forward _ _)
      dsimp only
      split
      · exact hslept.look hscript fut.place
      · exact hslept.keep rfl (Timestamp.le_def.mpr le_rfl)
    | never => exact h
    | gone => exact h

/-- Dropping a `next` future. -/
theorem Played.dropNext (h : Played origin since held host) (fut : NextFut) :
    Played origin since held (host.dropNext fut) := by
  unfold ScriptedHost.dropNext
  split
  · exact h.keep rfl (by
      show host.clock.now ≤ (Sleep.drop _ host.clock).now
      rw [Sleep.drop_now]
      exact Timestamp.le_def.mpr le_rfl)
  · exact h.keep rfl (Timestamp.le_def.mpr le_rfl)

/-- **Putting an observation back** undoes its take. -/
theorem Played.restore (h : Played origin since (andHeld held r obs) host) :
    (host.restoreReady r obs).1 = .ok () ∧
      Played origin since held (host.restoreReady r obs).2 := by
  have hheld : ∀ r' event, event ∈ held r' → event ∈ andHeld held r obs r' :=
    fun r' event hevent => List.mem_append_left _ hevent
  cases obs with
  | event event =>
    refine ⟨rfl, {
      custody := fun r' => ?_
      due := fun r' other hother => h.due r' other (hheld r' other hother)
      forward := h.forward }⟩
    have hcustody := h.custody r'
    rw [andHeld, List.append_assoc] at hcustody
    rw [ScriptedHost.restoreReady, ScriptedHost.queueOf_setQueue]
    by_cases hr : r = r'
    · subst hr
      simpa [Observation.events] using hcustody
    · simpa [hr] using hcustody
  | _ =>
    refine ⟨rfl, {
      custody := fun r' => ?_
      due := fun r' other hother => h.due r' other (hheld r' other hother)
      forward := h.forward }⟩
    show held r' ++ host.queueOf r' = origin r'
    simpa [andHeld, Observation.events] using h.custody r'

end played

/-! ## The ledger of a script -/

section ledger

variable {beside : Beside κ} {origin : IdToken → List WaitEvent} {since : Timestamp}
  {ids : List IdToken} {items : List (Item ResolvedStart)}
  {w w' : World (ScriptedHost κ) ResolvedStart}

/-- **What a runner owns** of a script. -/
def ScriptOwn (beside : Beside κ) (origin : IdToken → List WaitEvent) (since : Timestamp)
    (ids : List IdToken) (items : List (Item ResolvedStart))
    (w : World (ScriptedHost κ) ResolvedStart) : Prop :=
  AtSlots (scriptedEnv beside) ids items ∧
    Played origin since (fun r => heldBy (scriptedEnv beside) r items) w.host

/-- One more item. -/
theorem heldBy_snoc (beside : Beside κ) (items : List (Item ResolvedStart)) (mark : Mark)
    (slot : Nat) (bind : ResolvedStart) (obs : Observation) :
    (fun r => heldBy (scriptedEnv beside) r (items ++ [Item.of mark slot bind obs]))
      = andHeld (fun r => heldBy (scriptedEnv beside) r items) bind.registrationId obs := by
  funext r
  rw [heldBy_append, andHeld]
  cases obs with
  | event event =>
    simp only [Item.of, heldBy_event, Observation.events]
    rfl
  | _ => simp [Item.of, Observation.events]

/-- An observation that was taken is owned. -/
theorem ScriptOwn.snoc (h : ScriptOwn beside origin since ids items w) {mark : Mark} {slot : Nat}
    {bind : ResolvedStart} {obs : Observation} (hseat : ids[slot]? = some bind.registrationId)
    (hplayed : Played origin since
      (andHeld (fun r => heldBy (scriptedEnv beside) r items) bind.registrationId obs) w'.host)
    (hlabel : ∀ event, obs = .event event → event.registrationId = bind.registrationId) :
    ScriptOwn beside origin since ids (items ++ [Item.of mark slot bind obs]) w' :=
  ⟨h.1.snoc (atSlot_of hseat hlabel), heldBy_snoc beside items mark slot bind obs ▸ hplayed⟩

/-- What is owned after a check of a bind. -/
def OwnsReady (beside : Beside κ) (origin : IdToken → List WaitEvent) (since : Timestamp)
    (ids : List IdToken) (items : List (Item ResolvedStart)) (mark : Mark) (slot : Nat)
    (bind : ResolvedStart) : Option Observation → World (ScriptedHost κ) ResolvedStart → Prop
  | some obs, w => ScriptOwn beside origin since ids (items ++ [Item.of mark slot bind obs]) w
  | none, w => ScriptOwn beside origin since ids items w

/-- What is owned after a poll of a `next` future. -/
def OwnsPolled (beside : Beside κ) (origin : IdToken → List WaitEvent) (since : Timestamp)
    (ids : List IdToken) (items : List (Item ResolvedStart)) (slot : Nat) (bind : ResolvedStart) :
    Poll (Except Error Observation) → World (ScriptedHost κ) ResolvedStart → Prop
  | .ready (.ok obs), w =>
    ScriptOwn beside origin since ids (items ++ [Item.of .fresh slot bind obs]) w
  | _, w => ScriptOwn beside origin since ids items w

/-- A step of the host that leaves the queues alone. -/
theorem scriptOwn_keep {α : Type} {f : ScriptedHost κ → α × ScriptedHost κ}
    (hevents : ∀ host, (f host).2.events = host.events)
    (hnow : ∀ host, host.clock.now ≤ (f host).2.clock.now) :
    Triple (ScriptOwn beside origin since ids items) (Act.host f) fun _ =>
      ScriptOwn beside origin since ids items :=
  host_spec fun w h => ⟨h.1, h.2.keep (hevents w.host) (hnow w.host)⟩

/-- Putting an item back. -/
theorem scriptOwn_restore {mark : Mark} {slot : Nat} {bind : ResolvedStart} {obs : Observation} :
    Triple (ScriptOwn beside origin since ids (items ++ [Item.of mark slot bind obs]))
      ((scriptedEnv beside).restoreReady bind obs) fun answer w =>
        answer = .ok () ∧ ScriptOwn beside origin since ids items w := by
  have hstep : Triple (ScriptOwn beside origin since ids (items ++ [Item.of mark slot bind obs]))
      (Act.host ((scriptedEnv beside).restoreReadyStep bind obs)) fun answer w =>
        answer = .ok () ∧ ScriptOwn beside origin since ids items w := by
    refine host_spec fun w h => ?_
    have hplayed := h.2
    rw [heldBy_snoc] at hplayed
    exact ⟨hplayed.restore.1, h.1.init, hplayed.restore.2⟩
  refine Triple.bind hstep fun answer => ?_
  exact Triple.bind (record_spec fun w h => h) fun _ => Triple.pure fun w h => h

/-- A check of a bind. -/
theorem scriptOwn_pollReady (hscript : Scripted origin) {mark : Mark} {slot : Nat}
    {bind : ResolvedStart} (hseat : ids[slot]? = some bind.registrationId) :
    Triple (ScriptOwn beside origin since ids items) ((scriptedEnv beside).pollReady bind)
      (OwnsReady beside origin since ids items mark slot bind) := by
  have hstep : Triple (ScriptOwn beside origin since ids items)
      (Act.host ((scriptedEnv beside).pollReadyStep bind))
      (OwnsReady beside origin since ids items mark slot bind) := by
    refine host_spec fun w h => ?_
    have htook := ScriptedHost.takeDue_took bind.registrationId w.host
    show OwnsReady beside origin since ids items mark slot bind
      (w.host.takeDue bind.registrationId).1 _
    generalize htaken : w.host.takeDue bind.registrationId = taken at htook
    obtain ⟨answer, host'⟩ := taken
    have hhost : ((scriptedEnv beside).pollReadyStep bind w.host).2 = host' :=
      congrArg Prod.snd htaken
    rw [hhost]
    cases answer with
    | some obs =>
      obtain ⟨hplayed, hlabel⟩ := h.2.took hscript htook
      exact h.snoc hseat hplayed hlabel
    | none => exact ⟨h.1, h.2.tookNone htook⟩
  refine Triple.bind hstep fun answer => ?_
  refine Triple.bind (R := fun _ => OwnsReady beside origin since ids items mark slot bind answer)
    ?_ fun _ => Triple.pure fun w h => h
  cases answer <;> exact record_spec fun w h => h

/-- A poll of a `next` future. -/
theorem scriptOwn_pollNext (hscript : Scripted origin) {slot : Nat} {bind : ResolvedStart}
    {fut : NextFut} (hseat : ids[slot]? = some bind.registrationId)
    (hattached : fut.registrationId = bind.registrationId) :
    Triple (ScriptOwn beside origin since ids items) ((scriptedEnv beside).pollNext (bind, fut))
      (OwnsPolled beside origin since ids items slot bind) := by
  have hstep : Triple (ScriptOwn beside origin since ids items)
      (Act.host ((scriptedEnv beside).pollNextStep fut))
      (OwnsPolled beside origin since ids items slot bind) := by
    refine host_spec fun w h => ?_
    have hafter := h.2.pollNext hscript fut
    rw [hattached] at hafter
    show OwnsPolled beside origin since ids items slot bind (w.host.pollNext fut).1 _
    generalize hpolled : w.host.pollNext fut = polled at hafter
    obtain ⟨answer, host'⟩ := polled
    have hhost : ((scriptedEnv beside).pollNextStep fut w.host).2 = host' :=
      congrArg Prod.snd hpolled
    rw [hhost]
    rcases answer with (err | obs) | _
    · exact ⟨h.1, hafter⟩
    · exact h.snoc hseat hafter.1 hafter.2
    · exact ⟨h.1, hafter⟩
  refine Triple.bind hstep ?_
  rintro ((err | obs) | _)
  · exact Triple.pure fun w h => h
  · exact Triple.bind (record_spec fun w h => h) fun _ => Triple.pure fun w h => h
  · exact Triple.pure fun w h => h

/-- **The script is a ledger of the runners**, over a set with distinct ids. -/
def scriptLedger (beside : Beside κ) (hids : ids.Nodup) (hscript : Scripted origin)
    (since : Timestamp) : Ledger (scriptedEnv beside) ids where
  own _ := ScriptOwn beside origin since ids
  broken _ := False
  broken_host := fun _ h => h
  aim slot fut := ids[slot]? = some fut.registration.registrationId
  seat slot bind := ids[slot]? = some bind.registrationId
  attached bind fut := fut.registrationId = bind.registrationId
  settle := by
    rintro _ _ items items' w _ hsub hheld ⟨hat, hplayed⟩
    refine ⟨fun item hitem => hat item (hsub hitem), ?_⟩
    have hsame : (fun r => heldBy (scriptedEnv beside) r items')
        = fun r => heldBy (scriptedEnv beside) r items :=
      funext fun r => heldBy_settle hids hat hsub hheld
    rwa [hsame]
  resolved := fun _ h => h
  bind := by
    intro slot registration _ items hslot
    exact host_spec fun w h => ⟨hslot, h.1, h.2.keep rfl (Timestamp.le_def.mpr le_rfl)⟩
  pollBind := by
    intro slot fut _ items haim
    refine host_spec fun w h => ?_
    obtain ⟨hevents, hclock, hbound⟩ := ScriptedHost.pollBind_keeps fut w.host
    refine ⟨fun bind hbind => ?_, h.1, h.2.keep hevents (hclock ▸ Timestamp.le_def.mpr le_rfl)⟩
    rw [hbound bind hbind]
    exact haim
  dropBind := fun _ _ fut => scriptOwn_keep (fun _ => rfl) fun _ => Timestamp.le_def.mpr le_rfl
  next := by
    intro slot bind _ items _
    have hstep : Triple (ScriptOwn beside origin since ids items)
        (Act.host ((scriptedEnv beside).nextStep bind)) fun fut w =>
          fut.registrationId = bind.registrationId ∧ ScriptOwn beside origin since ids items w :=
      host_spec fun w h => ⟨rfl, h.1, h.2.keep rfl (Timestamp.le_def.mpr le_rfl)⟩
    exact Triple.bind hstep fun fut => Triple.pure fun w h => ⟨rfl, h⟩
  pollNext := by
    intro slot bind fut _ items hseat hattached
    have hpoll : Triple (ScriptOwn beside origin since ids items)
        ((scriptedEnv beside).pollNext (bind, fut))
        (OwnsPolled beside origin since ids items slot bind) :=
      scriptOwn_pollNext hscript hseat hattached
    refine hpoll.weaken ?_
    rintro ((err | obs) | _) w h <;> exact h
  dropNext := fun _ _ fut => host_spec fun w h => ⟨h.1, h.2.dropNext fut.2⟩
  pollReady := by
    intro slot bind mark _ items hseat _
    have hpoll : Triple (ScriptOwn beside origin since ids items)
        ((scriptedEnv beside).pollReady bind)
        (OwnsReady beside origin since ids items mark slot bind) :=
      scriptOwn_pollReady hscript hseat
    refine hpoll.weaken ?_
    rintro (_ | obs) w h <;> exact h
  restoreEvent := by
    intro slot bind event _ items _
    have hrestore : Triple
        (ScriptOwn beside origin since ids (items ++ [Item.of .fresh slot bind (.event event)]))
        ((scriptedEnv beside).restoreReady bind (.event event)) fun answer w =>
          answer = .ok () ∧ ScriptOwn beside origin since ids items w := scriptOwn_restore
    refine hrestore.weaken ?_
    rintro answer w ⟨rfl, h⟩
    exact h
  restoreSignal := by
    intro slot bind mark obs _ items _ _ hsignal
    have hitem : Item.signal mark slot bind obs = Item.of mark slot bind obs := by
      cases obs with
      | event event => cases hsignal
      | _ => rfl
    rw [hitem]
    refine scriptOwn_restore.weaken ?_
    rintro answer w ⟨rfl, h⟩
    exact h
  markAdmitted := fun _ _ => record_spec fun _ h => h
  markVisited := fun _ _ => record_spec fun _ h => h
  now := fun _ _ => scriptOwn_keep (fun _ => rfl) fun _ => Timestamp.le_def.mpr le_rfl
  sleepUntil := fun _ _ deadline =>
    scriptOwn_keep (fun _ => rfl) fun host => beside.sleepUntil_forward deadline _
  isCancelled := fun _ _ => scriptOwn_keep (fun _ => rfl) fun _ => Timestamp.le_def.mpr le_rfl
  park := fun _ _ => scriptOwn_keep (fun _ => rfl) fun host => beside.park_forward _

end ledger

/-! ## The queues of a script -/

section script

variable {script : Script} {clock : FakeClock} {beside : κ} {r : IdToken}

instance : Std.Total inOrder where
  total left right := by
    unfold inOrder
    rcases lt_trichotomy left.observedAt.instant right.observedAt.instant with hlt | heq | hgt
    · exact .inl (.inl hlt)
    · rcases le_total left.eventId right.eventId with hle | hle
      · exact .inl (.inr ⟨Timestamp.le_def.mpr heq.le, hle⟩)
      · exact .inr (.inr ⟨Timestamp.le_def.mpr heq.ge, hle⟩)
    · exact .inr (.inl hgt)

instance : IsTrans WaitEvent inOrder where
  trans a b c hab hbc := by
    unfold inOrder at *
    simp only [Timestamp.lt_def, Timestamp.le_def] at *
    rcases hab with hab | ⟨hab, hids⟩
    · rcases hbc with hbc | ⟨hbc, -⟩
      · exact .inl (hab.trans hbc)
      · exact .inl (hab.trans_le hbc)
    · rcases hbc with hbc | ⟨hbc, hids'⟩
      · exact .inl (hab.trans_lt hbc)
      · exact .inr ⟨hab.trans hbc, hids.trans hids'⟩

/-- The events of a registration in a script, in the order of its queue. -/
def scriptOf (script : Script) (r : IdToken) : List WaitEvent :=
  (script.events.filter fun event => event.registrationId = r).insertionSort inOrder

/-- Grouping collects the events of each registration. -/
theorem groupEvents_getD (events : List WaitEvent) (r : IdToken) :
    ((groupEvents events)[r]?).getD [] = events.filter fun event => event.registrationId = r := by
  have hfold : ∀ (events : List WaitEvent) (groups : BTreeMap String (List WaitEvent)),
      ((events.foldl (fun groups event => groups.insert event.registrationId
        ((groups[event.registrationId]?).getD [] ++ [event])) groups)[r]?).getD []
      = (groups[r]?).getD [] ++ events.filter fun event => event.registrationId = r := by
    intro events
    induction events with
    | nil =>
      intro groups
      simp
    | cons event rest ih =>
      intro groups
      rw [List.foldl_cons, ih, Std.ExtTreeMap.getElem?_insert]
      by_cases hr : event.registrationId = r
      · simp [hr]
      · simp [hr]
  unfold groupEvents
  simpa using hfold events ∅

/-- **The queues of a new observer** are those of its script. -/
theorem queueOf_new (script : Script) (clock : FakeClock) (beside : κ) (r : IdToken) :
    (ScriptedHost.new script clock beside).queueOf r = scriptOf script r := by
  unfold ScriptedHost.queueOf ScriptedHost.new scriptOf
  dsimp only
  rw [Std.ExtTreeMap.getElem?_map, ← groupEvents_getD script.events r]
  cases (groupEvents script.events)[r]? with
  | none => rfl
  | some events => rfl

/-- They are in order, and each event is in the queue of its registration. -/
theorem scriptOf_scripted (script : Script) : Scripted (scriptOf script) where
  ordered r := by
    refine (List.pairwise_insertionSort inOrder _).imp ?_
    rintro left right (hlt | ⟨hle, -⟩)
    · exact Timestamp.le_def.mpr (Int.le_of_lt (Timestamp.lt_def.mp hlt))
    · exact hle
  labelled r event hevent := by
    have hmem := (List.perm_insertionSort inOrder _).mem_iff.mp hevent
    exact of_decide_eq_true (List.mem_filter.mp hmem).2

end script

/-! ## Runs over a script -/

section runs

variable {beside : Beside κ} {s s' : ScriptedHost κ} {share : Share} {shares : List Share}

/-- What may happen beside the runs: faults are set, binds hang or are released, other tasks use the
clock. The queues are the observer's. -/
structure Aside (s s' : ScriptedHost κ) : Prop where
  events : s'.events = s.events
  forward : s.clock.now ≤ s'.clock.now

/-- Nothing is held at the start. -/
theorem played_start (s : ScriptedHost κ) :
    Played (fun r => s.queueOf r) s.clock.now (fun _ => []) s where
  custody _ := rfl
  due _ _ h := absurd h List.not_mem_nil
  forward := Timestamp.le_def.mpr le_rfl

/-- A runner starts owning nothing. -/
theorem scriptOwn_start {ids : List IdToken} (w : World (ScriptedHost κ) ResolvedStart) :
    ScriptOwn beside (fun r => w.host.queueOf r) w.host.clock.now ids [] w :=
  ⟨by simp [AtSlots], played_start w.host⟩

/-- A runner that ends owning nothing took nothing. -/
theorem ScriptOwn.nothing {origin : IdToken → List WaitEvent} {since : Timestamp}
    {ids : List IdToken} {w : World (ScriptedHost κ) ResolvedStart}
    (h : ScriptOwn beside origin since ids [] w) :
    Played origin since (fun r => ofId r (Share.taken ⟨[], []⟩)) w.host := h.2

/-- A runner that owns some events at the end took these. -/
theorem ScriptOwn.items {origin : IdToken → List WaitEvent} {since : Timestamp} {ids : List IdToken}
    {w : World (ScriptedHost κ) ResolvedStart} {held : List (Held ResolvedStart)}
    (h : ScriptOwn beside origin since ids (held.map Held.item) w) :
    Played origin since (fun r => ofId r (held.map Held.event)) w.host := by
  have hheld : (fun r => heldBy (scriptedEnv beside) r (held.map Held.item))
      = fun r => ofId r (held.map Held.event) := funext fun r => heldBy_items h.1 r
  rw [← hheld]
  exact h.2

/-- A sink that does only what may happen aside keeps what a runner owns. -/
theorem asideSink_keeps {B ξ : Type} {sink : Sink (ScriptedHost κ) B ξ} {ids : List IdToken}
    {origin : IdToken → List WaitEvent} {since : Timestamp} (h : AsideSink Aside sink)
    (hids : ids.Nodup) (hscript : Scripted origin) :
    SinkKeeps (scriptLedger beside hids hscript since) sink where
  call _ burst := scriptOwn_keep (fun host => (h.call burst host).events)
    fun host => (h.call burst host).forward
  poll _ fut := scriptOwn_keep (fun host => (h.poll fut host).events)
    fun host => (h.poll fut host).forward

/-- **One use of a script**: what it took comes from the fronts of the queues, and is due. -/
theorem use_played (h : Use (scriptedEnv beside) Aside s share s')
    (hscript : Scripted fun r => s.queueOf r) :
    Played (fun r => s.queueOf r) s.clock.now (fun r => ofId r share.taken) s' := by
  cases h with
  | gap haside => exact (played_start s).keep haside.events haside.forward
  | @cycle set request fuel w w' result hids hrun =>
    have hspec : ETriple _ (PollCycle.runPollCycle (scriptedEnv beside) set request fuel) _ _ :=
      PollCycle.runPollCycle_spec (scriptLedger beside hids hscript w.host.clock.now) rfl fuel
    have hend := hspec w (scriptOwn_start w) result w' hrun
    cases result with
    | ok out => exact ScriptOwn.nothing hend
    | error err => exact ScriptOwn.nothing (hend.resolve_right id)
  | @failed set request fuel w w' err hids hrun =>
    have hfail := Live.runFirstMatch_error (scriptLedger beside hids hscript w.host.clock.now) rfl
      (scriptOwn_start w) hrun
    exact ScriptOwn.nothing (hfail.resolve_right id)
  | @matched set request fuel w w' outcome verdict hids hrun hverdict =>
    obtain ⟨verdict', hloop, rfl, items, hcarries, hown⟩ := Live.runFirstMatch_verdict
      (scriptLedger beside hids hscript w.host.clock.now) rfl (scriptOwn_start w) hrun
    obtain ⟨hsame, -⟩ := Prod.mk.inj (Option.some.inj (hverdict.symm.trans hloop))
    obtain rfl := Except.ok.inj hsame
    rw [matchShare_taken]
    cases hcarries with
    | nothing hnone =>
      rw [hnone]
      exact hown.nothing
    | @event slot bind event hevent hkind =>
      rw [hevent]
      exact (show ScriptOwn beside _ _ _ ([⟨slot, bind, event⟩].map Held.item) w' from hown).items
  | @follow ξ sink set request fuel w w' delivery result hsink hids hrun =>
    obtain ⟨-, bursts, hdelivered, hown⟩ := Follow.runFollow_spec
      (asideSink_keeps hsink hids hscript) (fun _ h => h) set request fuel rfl w
      (scriptOwn_start w) _ w' hrun
    have hplayed := ScriptOwn.items hown
    rw [← hdelivered.flatMap_events, Follow.Delivery.handed, List.flatMap_append] at hplayed
    exact hplayed
  | @coalesce ξ sink set request policy fuel w w' history result hsink hids hrun =>
    obtain ⟨-, gone, hgone, hown⟩ := Coalesce.runCoalesce_spec (asideSink_keeps hsink hids hscript)
      (fun _ h => h) rfl hids (fun _ _ h => h.1) request fuel w (scriptOwn_start w) _ w' hrun
    have hplayed := ScriptOwn.items hown
    rw [hgone] at hplayed
    exact hplayed

/-- **Any number of uses** of a script. -/
theorem uses_played {origin : ScriptedHost κ} (hscript : Scripted fun r => origin.queueOf r)
    (h : Uses (scriptedEnv beside) Aside origin shares s) :
    Played (fun r => origin.queueOf r) origin.clock.now (fun r => ofId r (taken shares)) s := by
  induction h with
  | none => exact played_start origin
  | @snoc s s' shares share hbefore huse ih =>
    -- what is left of a queue is a part of it behind what was taken
    have hleft : Scripted fun r => s.queueOf r := {
      ordered := fun r =>
        (List.pairwise_append.mp (ih.custody r ▸ hscript.ordered r)).2.1
      labelled := fun r event hevent =>
        hscript.labelled r event (ih.custody r ▸ List.mem_append_right _ hevent) }
    have hused := use_played huse hleft
    have htaken : ∀ r, ofId r (taken (shares ++ [share]))
        = ofId r (taken shares) ++ ofId r share.taken := fun r => by simp [taken, ofId]
    refine { custody := fun r => ?_, due := fun r event hevent => ?_, forward := ?_ }
    · rw [htaken, List.append_assoc, hused.custody r]
      exact ih.custody r
    · rw [htaken] at hevent
      rcases List.mem_append.mp hevent with hevent | hevent
      · exact Timestamp.le_def.mpr ((Timestamp.le_def.mp (ih.due r event hevent)).trans
          (Timestamp.le_def.mp hused.forward))
      · exact hused.due r event hevent
    · exact Timestamp.le_def.mpr
        ((Timestamp.le_def.mp ih.forward).trans (Timestamp.le_def.mp hused.forward))

end runs

/-- **A script is played once, in its order, and never early.** For any number of poll cycles, first
matches, follows and coalescing sessions over a scripted observer: for each registration, what they
took, in the order in which they took it, followed by what is left in its queue, is what the script
has for it, in the order of `observed_at` and event id. Everything that was taken is due by the
clock, which does not go back. Where no run lost anything, that is what their consumers keep; and
where the event ids of a registration are distinct, none is kept twice. Poll cycles keep nothing:
what they list stays in the script. -/
theorem script_played {beside : Beside κ} {script : Script} {clock : FakeClock} {k : κ}
    {shares : List Share} {s : ScriptedHost κ}
    (h : Uses (scriptedEnv beside) Aside (ScriptedHost.new script clock k) shares s) :
    (∀ r, ofId r (taken shares) ++ s.queueOf r = scriptOf script r) ∧
    (∀ event ∈ taken shares, event.observedAt ≤ s.clock.now) ∧ clock.now ≤ s.clock.now ∧
    ((∀ share ∈ shares, share.lost = []) →
      ∀ r, ofId r (kept shares) ++ s.queueOf r = scriptOf script r) ∧
    ∀ r, ((scriptOf script r).map WaitEvent.eventId).Nodup →
      ((ofId r (kept shares) ++ s.queueOf r).map WaitEvent.eventId).Nodup := by
  have hqueues : (fun r => (ScriptedHost.new script clock k).queueOf r) = scriptOf script :=
    funext fun r => queueOf_new script clock k r
  have hplayed := uses_played (hqueues ▸ scriptOf_scripted script) h
  rw [hqueues] at hplayed
  refine ⟨hplayed.custody, fun event hevent => ?_, hplayed.forward, fun hlost r => ?_,
    fun r hdistinct => ?_⟩
  · exact hplayed.due event.registrationId event
      (List.mem_filter.mpr ⟨hevent, decide_eq_true rfl⟩)
  · rw [← taken_of_lossless hlost]
    exact hplayed.custody r
  · rw [← hplayed.custody r] at hdistinct
    have hpart : (ofId r (kept shares)).Sublist (ofId r (taken shares)) :=
      (kept_sublist shares).filter _
    exact hdistinct.sublist ((hpart.append_right _).map _)

/-! ## A script that is played -/

open Case in
/-- Two events of one registration, later one first. -/
def twoEvents : Script where
  bufferLimit := 8
  events := [
    waitEvent "reg:a" "method:a" "evt:2" "2026-08-15T16:04:00Z",
    waitEvent "reg:a" "method:a" "evt:1" "2026-08-15T16:03:00Z"]

/-- The sleep of a runner at its next poll: the one that is under way, or a new one. -/
def runnerSleep (deadline : Timestamp) (sleep : Sleep) : Sleep :=
  if sleep.sleeper?.isSome then sleep else .fresh deadline

/-- A runner alone on its executor, with the sleep it waits for. -/
def alone : Beside Sleep where
  sleepUntil deadline c :=
    let polled := (runnerSleep deadline c.2).poll c.1
    (polled.1 = .done, polled.2, polled.1)
  isCancelled sleep := (false, sleep)
  park c := c
  sleepUntil_forward _ _ := Sleep.poll_forward _ _
  park_forward _ := Timestamp.le_def.mpr le_rfl

open Case in
/-- The script before it is played. -/
def unplayed : ScriptedHost Sleep :=
  ScriptedHost.new twoEvents (FakeClock.new (ts "2026-08-15T16:02:00Z") true) .done

open Case in
/-- A first match takes the event that is ready first, and leaves the other. -/
theorem script_played_first : ∃ (shares : List Share) (s : ScriptedHost Sleep),
    (kept shares).map WaitEvent.eventId = ["evt:1"] ∧
      ∀ r, ofId r (taken shares) ++ s.queueOf r = scriptOf twoEvents r := by
  have hdone : (returned ((Live.runFirstMatch (scriptedEnv alone) pairSet liveWaitRequest 10).run
      ⟨unplayed, [], []⟩)).any
        (fun outcome => (Live.handedOver outcome).map WaitEvent.eventId == ["evt:1"]) = true := by
    decide +kernel
  obtain ⟨outcome, w, hrun, hone⟩ := exists_of_returned hdone
  obtain ⟨verdict, hloop, -⟩ := Live.runFirstMatch_loop hrun
  have hhanded : Live.handedOver outcome ≠ [] := by
    intro hnone
    rw [hnone] at hone
    cases hone
  have hmatched : Use (scriptedEnv alone) Aside unplayed _ w.host :=
    .matched (by decide) hrun hloop
  refine ⟨_, w.host, ?_, (script_played ((Uses.none _).snoc hmatched)).1⟩
  simpa [kept, Sessions.matchShare, hhanded] using hone

end Testkit

end Waitprims
