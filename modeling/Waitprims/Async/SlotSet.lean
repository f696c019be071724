import Mathlib
import Waitprims.Async.FirstMatch

/-! # The slots of a held session

A held session binds every registration once and keeps one slot for each: the pending `bind`, then
one pending `next` at a time, then the observation it yielded until the session decides on it. The
follow and the coalescing runner share the slots, the entry checks and the deadlines.

* **`Slot`**, **`SlotSet`** — the slots, in the order of the registrations of the set.
* **`SlotSet.pollAvailable`** — poll bind and next futures until nothing moves any more.
* **`SlotSet.takeEvents`**, **`SlotSet.firstTerminal`** — what a turn decides on.
* **`SlotSet.restoreCustody`** — hand back what the session still owns.

`fuel` bounds the passes over the slots and the polls of one wait. -/

namespace Waitprims

/-- An `expect` that fails ends the run here. -/
def Act.panicked {σ β α : Type} : Act σ β α := fun _ => none

namespace Follow

/-! ## How a session ends -/

/-- Observer terminals that end a session. Idle is not one of these. -/
inductive TerminalArmKind
  | overflow
  | failed
  | outage
  | cursorUncertain
  | degraded
  deriving DecidableEq, Repr

/-- Why a held session stopped. -/
inductive FollowEnd
  | cancel
  | deadline
  | terminalArm (registrationId : IdToken) (kind : TerminalArmKind) (reasonCode : IdToken)
  deriving DecidableEq, Repr

/-! ## Slots -/

/-- The pending `next` of a slot: the observer is first called when the future is first polled. -/
inductive NextFut (β ψ : Type)
  | start (bind : β)
  | running (fut : β × ψ)

/-- One slot: `binds`, `bind_futs`, `next_futs` and `harvested` at one index. -/
structure Slot (β φ ψ : Type) where
  bind : Option β
  bindFut : Option φ
  nextFut : Option (NextFut β ψ)
  harvested : Option Observation

/-- The slots of a session, one for each registration of its set, and the first error an arm has
failed with. -/
structure SlotSet (β φ ψ : Type) where
  slots : List (Slot β φ ψ)
  fault : Option Error

variable {σ β φ ψ : Type} (env : Env σ β φ ψ)

/-- One poll of a running `next`. -/
def pollRunning (fut : β × ψ) : Act σ β (Polled (NextFut β ψ) Observation) := do
  match ← env.pollNext fut with
  | .ready result => return .ready result
  | .pending => return .pending (.running fut)

/-- One poll of the `next` of a slot. -/
def pollNextFut : NextFut β ψ → Act σ β (Polled (NextFut β ψ) Observation)
  | .start bind => do
    let fut ← env.next bind
    pollRunning env fut
  | .running fut => pollRunning env fut

/-- Drop the `next` of a slot, if it has one. -/
def dropNextFut : Option (NextFut β ψ) → Act σ β Unit
  | some (.running fut) => env.dropNext fut
  | _ => return ()

/-- Drop the `bind` of a slot, if it is pending. -/
def dropBindFut : Option φ → Act σ β Unit
  | some fut => env.dropBind fut
  | none => return ()

namespace Slot

/-- `arm_next`: the new `next` takes the place of the old one. -/
def armNext (slot : Slot β φ ψ) : Act σ β (Slot β φ ψ) :=
  match slot.bind with
  | none => Act.panicked
  | some bind => do
    dropNextFut env slot.nextFut
    return { slot with nextFut := some (.start bind) }

/-- What is armed again: a bound slot with nothing pending and nothing harvested. -/
def rearm (slot : Slot β φ ψ) : Act σ β (Slot β φ ψ) :=
  if slot.bind.isSome && slot.nextFut.isNone && slot.harvested.isNone then armNext env slot
  else return slot

/-- The event a slot has harvested. -/
def event? (slot : Slot β φ ψ) : Option WaitEvent :=
  match slot.harvested with
  | some (.event event) => some event
  | _ => none

/-- Forget a harvested observation that cannot be replayed. -/
def clearNonreplayable (slot : Slot β φ ψ) : Slot β φ ψ :=
  if slot.harvested.any fun obs => !observationIsReplayable obs then { slot with harvested := none }
  else slot

end Slot

/-! ## Polling -/

/-- What a pass over the slots has changed: the first error so far, and whether a future completed
that may let another one move. -/
structure Pass where
  fault : Option Error
  progressed : Bool

/-- Keep the first error. -/
def Pass.fail (pass : Pass) (err : Error) : Pass := { pass with fault := pass.fault.or (some err) }

/-- Poll the pending `bind` of a slot; once bound, the slot is armed. -/
def pollSlotBind (slot : Slot β φ ψ) (pass : Pass) : Act σ β (Slot β φ ψ × Pass) :=
  match slot.bindFut with
  | none => return (slot, pass)
  | some fut => do
    match ← env.pollBind fut with
    | .ready (.ok bind) =>
      let slot ← Slot.armNext env { slot with bindFut := none, bind := some bind }
      return (slot, { pass with progressed := true })
    | .ready (.error err) => return ({ slot with bindFut := none }, pass.fail err)
    | .pending => return (slot, pass)

/-- Poll the pending `next` of a slot. -/
def pollSlotNext (slot : Slot β φ ψ) (pass : Pass) : Act σ β (Slot β φ ψ × Pass) :=
  match slot.nextFut with
  | none => return (slot, pass)
  | some fut => do
    match ← pollNextFut env fut with
    | .ready (.ok obs) =>
      return ({ slot with nextFut := none, harvested := some obs }, { pass with progressed := true })
    | .ready (.error err) => return ({ slot with nextFut := none }, pass.fail err)
    | .pending fut => return ({ slot with nextFut := some fut }, pass)

/-- Poll one slot: nothing is polled while an observation is waiting to be decided on. -/
def pollSlot (slot : Slot β φ ψ) (pass : Pass) : Act σ β (Slot β φ ψ × Pass) :=
  if slot.harvested.isSome then return (slot, pass)
  else do
    let (slot, pass) ← pollSlotBind env slot pass
    pollSlotNext env slot pass

/-- One pass over the slots. -/
def pollSlots : List (Slot β φ ψ) → Pass → Act σ β (List (Slot β φ ψ) × Pass)
  | [], pass => return ([], pass)
  | slot :: rest, pass => do
    let (slot, pass) ← pollSlot env slot pass
    let (rest, pass) ← pollSlots rest pass
    return (slot :: rest, pass)

/-- Harvest one slot with `poll_ready`; its pending `next` is dropped where that yields. -/
def harvestSlot (slot : Slot β φ ψ) : Act σ β (Slot β φ ψ) :=
  match slot.harvested, slot.bind with
  | none, some bind => do
    match ← env.pollReady bind with
    | some obs =>
      dropNextFut env slot.nextFut
      return { slot with nextFut := none, harvested := some obs }
    | none => return slot
  | _, _ => return slot

namespace SlotSet

/-- `SlotSet::new`: ask for every bind. -/
def new : List Registration → Act σ β (List (Slot β φ ψ))
  | [] => return []
  | registration :: rest => do
    let fut ← env.bind registration
    let rest ← new rest
    return ⟨none, some fut, none, none⟩ :: rest

/-- `poll_available`: pass over the slots until no future completes. -/
def pollAvailable : Nat → SlotSet β φ ψ → Act σ β (SlotSet β φ ψ)
  | 0, _ => Act.exhausted
  | fuel + 1, s => do
    let (slots, pass) ← pollSlots env s.slots ⟨s.fault, false⟩
    if pass.progressed then pollAvailable fuel ⟨slots, pass.fault⟩
    else return ⟨slots, pass.fault⟩

/-- The loop of `harvest_poll_ready`. -/
def harvestSlots : List (Slot β φ ψ) → Act σ β (List (Slot β φ ψ))
  | [] => return []
  | slot :: rest => do
    let slot ← harvestSlot env slot
    let rest ← harvestSlots rest
    return slot :: rest

/-- `harvest_poll_ready`. -/
def harvestPollReady (s : SlotSet β φ ψ) : Act σ β (SlotSet β φ ψ) := do
  let slots ← harvestSlots env s.slots
  return { s with slots }

/-- `take_events`: the harvested events, in slot order. -/
def takeEvents (s : SlotSet β φ ψ) : SlotSet β φ ψ × List WaitEvent :=
  ({ s with slots := s.slots.map fun slot =>
      if slot.event?.isSome then { slot with harvested := none } else slot },
    s.slots.filterMap Slot.event?)

/-- The end a harvested observation of a registration asks for. -/
def terminalEnd (registration : Registration) : Observation → Option FollowEnd
  | .overflow => some (.terminalArm registration.registrationId .overflow "buffer_overflow")
  | .failed reason => some (.terminalArm registration.registrationId .failed reason)
  | .outage reason => some (.terminalArm registration.registrationId .outage reason)
  | .cursorUncertain reason =>
    some (.terminalArm registration.registrationId .cursorUncertain reason)
  | .degraded reason => some (.terminalArm registration.registrationId .degraded reason)
  | .event _ | .idle => none

/-- `first_terminal`: the end the first such slot asks for. -/
def firstTerminal (s : SlotSet β φ ψ) (set : RegistrationSet) : Option FollowEnd :=
  (set.registrations.zip s.slots).findSome? fun p => p.2.harvested.bind (terminalEnd p.1)

/-- `index_of`. -/
def indexOf (set : RegistrationSet) (registrationId : IdToken) : Option Nat :=
  set.registrations.findIdx? fun reg => reg.registrationId == registrationId

/-- `self.binds[idx]`. -/
def bindAt (s : SlotSet β φ ψ) (idx : Nat) : Option β := s.slots[idx]?.bind Slot.bind

/-- `pending_required`: the first required registration without a bind. -/
def pendingRequired (s : SlotSet β φ ψ) (set : RegistrationSet) : Option Registration :=
  set.registrations.find? fun reg =>
    reg.required && match indexOf set reg.registrationId with
      | none => true
      | some idx => (s.bindAt idx).isNone

/-- `drain_replayable`: empty every slot and return the events under their indices. -/
def drainReplayable (s : SlotSet β φ ψ) : SlotSet β φ ψ × List (Nat × WaitEvent) :=
  ({ s with slots := s.slots.map fun slot => { slot with harvested := none } },
    s.slots.zipIdx.filterMap fun p => p.1.event?.map fun event => (p.2, event))

/-- The loop of `rearm_idle`. -/
def rearmSlots : List (Slot β φ ψ) → Act σ β (List (Slot β φ ψ))
  | [] => return []
  | slot :: rest => do
    let slot ← Slot.rearm env slot
    let rest ← rearmSlots rest
    return slot :: rest

/-- `rearm_idle`: forget what cannot be replayed and arm what has nothing pending. -/
def rearmIdle (s : SlotSet β φ ψ) : Act σ β (SlotSet β φ ψ) := do
  let slots ← rearmSlots env (s.slots.map Slot.clearNonreplayable)
  return { s with slots }

/-- `any_idle_harvested`. -/
def anyIdleHarvested (s : SlotSet β φ ψ) : Bool :=
  s.slots.any fun slot => slot.harvested == some .idle

/-- `has_terminal_obs`: anything but idle has been harvested. -/
def hasTerminalObs (s : SlotSet β φ ψ) : Bool :=
  s.slots.any fun slot => slot.harvested.any fun obs => obs != .idle

/-- Drop a future of every slot. -/
def dropEach (drop : Slot β φ ψ → Act σ β Unit) : List (Slot β φ ψ) → Act σ β Unit
  | [] => return ()
  | slot :: rest => do
    drop slot
    dropEach drop rest

/-- `drop(slots)`: the pending binds go first. -/
def dropSlots (s : SlotSet β φ ψ) : Act σ β Unit := do
  dropEach (fun slot => dropBindFut env slot.bindFut) s.slots
  dropEach (fun slot => dropNextFut env slot.nextFut) s.slots

/-! ## Handing events back -/

/-- Hand events back to the binds of their slots, every one of them, and keep the first error. -/
def restoreAll (s : SlotSet β φ ψ) : List (Nat × WaitEvent) → Option Error → Act σ β (Option Error)
  | [], firstErr => return firstErr
  | (idx, event) :: rest, firstErr =>
    match s.bindAt idx with
    | none => restoreAll s rest firstErr
    | some bind => do
      match ← env.restoreReady bind (.event event) with
      | .ok _ => restoreAll s rest firstErr
      | .error err => restoreAll s rest (firstErr.or (some err))

/-- `restore_harvested`. -/
def restoreHarvested (s : SlotSet β φ ψ) : Act σ β (SlotSet β φ ψ × Except Error Unit) := do
  let (s, ready) := s.drainReplayable
  match ← restoreAll env s ready none with
  | some err => return (s, .error err)
  | none => return (s, .ok ())

/-- `restore_custody`: the harvested events are the newest and go back first, then the pending ones,
newest first. An event of no registration of the set is skipped. -/
def restoreCustody (set : RegistrationSet) (s : SlotSet β φ ψ) (pending : List WaitEvent) :
    Act σ β (SlotSet β φ ψ × Except Error Unit) := do
  let (s, harvested) := s.drainReplayable
  let firstErr ← restoreAll env s harvested none
  let newest := pending.reverse.filterMap fun event =>
    (indexOf set event.registrationId).map fun idx => (idx, event)
  match ← restoreAll env s newest firstErr with
  | some err => return (s, .error err)
  | none => return (s, .ok ())

end SlotSet

/-! ## One readiness turn -/

/-- What a turn has found. -/
inductive Turn
  | idle
  | ready

/-- One poll of `CollectTurn`: an error first, then anything but idle, then idle. -/
def pollCollectTurn (fuel : Nat) (s : SlotSet β φ ψ) :
    Act σ β (SlotSet β φ ψ × Option (Except Error Turn)) := do
  let s ← s.pollAvailable env fuel
  match s.fault with
  | some err => return ({ s with fault := none }, some (.error err))
  | none =>
    if s.hasTerminalObs then return (s, some (.ok .ready))
    else if s.anyIdleHarvested then return (s, some (.ok .idle))
    else return (s, none)

/-! ## Posture and deadlines -/

variable (set : RegistrationSet) (request : LiveWaitRequest)

/-- `posture_err`: a lease that ends now has expired. -/
def postureErr (now : Timestamp) : Option Error :=
  if set.registrations.any fun reg => Decidable.decide (now ≥ reg.leaseExpiresAt) then
    some (normativeError "/registrations/lease_expires_at" "lease_expired" .leaseReauth)
  else if set.authnMode == .required && request.verificationReceiptRef.isNone then
    some (normativeError "/verification_receipt_ref" "required" .authnRequired)
  else
    none

/-- The earlier of two instants, the first where they are the same. -/
def earlier (best : Option Timestamp) (lease : Timestamp) : Option Timestamp :=
  match best with
  | none => some lease
  | some first => some (if lease < first then lease else first)

/-- `earliest_lease`. -/
def earliestLease : Option Timestamp :=
  (set.registrations.map Registration.leaseExpiresAt).foldl earlier none

/-- `earliest_wake`: the lease that ends first, if that is before the deadline. -/
def earliestWake : Timestamp :=
  let deadline := Live.earliestDeadline request
  match earliestLease set with
  | some lease => if lease < deadline then lease else deadline
  | none => deadline

/-- `at_deadline`. -/
def atDeadline (now : Timestamp) : Bool :=
  Decidable.decide (now ≥ request.logicalDeadline) || Decidable.decide (now ≥ request.runDeadline)

/-- `deadline_end`: a required bind that is still pending fails the session. -/
def deadlineEnd (now : Timestamp) (s : SlotSet β φ ψ) : Option FollowEnd :=
  if !atDeadline request now then
    none
  else
    match s.pendingRequired set with
    | some reg => some (.terminalArm reg.registrationId .failed "required_bind_pending")
    | none => some ((s.firstTerminal set).getD .deadline)

/-- `backoff_deadline`: capped at the earliest wake. -/
def backoffDeadline (step : Nat) : Act σ β Timestamp := do
  let idx := min (step - 1) (Live.backoffMs.length - 1)
  let wake := (← env.now).saturatingAdd (.fromMillis (Live.backoffMs.getD idx 0))
  let cap := earliestWake set request
  return if wake < cap then wake else cap

/-- `poll_once`. -/
def pollOnce (fuel : Nat) (s : SlotSet β φ ψ) : Act σ β (SlotSet β φ ψ) := s.pollAvailable env fuel

/-- The entry checks of a session: the cited set, the order of the deadlines, then posture. -/
def enter : Act σ β (Option Error) :=
  match Live.resolve set request with
  | .error err => return some err
  | .ok _ =>
    if request.runDeadline > request.logicalDeadline then
      return some (normativeError "/run_deadline" "must_be_at_or_before_logical_deadline"
        .deadlineOrdering)
    else do
      let now ← env.now
      return postureErr set request now

/-! ## The sink -/

/-- The sink of a session, `on_burst`: called with a burst, it answers a future. What it does
meanwhile is up to the host. -/
structure Sink (σ B ξ : Type) where
  callStep : B → σ → ξ × σ
  pollStep : ξ → σ → Poll (Except Error Unit) × σ

/-- What was handed to the sink, oldest first: the bursts it took and the one it answered `Err` to.
A history: no decision depends on it. -/
structure Delivery (B : Type) where
  sunk : List B
  refused : Option B

/-- Every burst handed to the sink. -/
def Delivery.handed {B : Type} (delivery : Delivery B) : List B :=
  delivery.sunk ++ delivery.refused.toList

variable {B ξ : Type} (sink : Sink σ B ξ)

/-- Await the future of the sink. -/
def awaitSink (fut : ξ) : Nat → Act σ β (Except Error Unit)
  | 0 => Act.exhausted
  | fuel + 1 => do
    match ← (Act.host (sink.pollStep fut) : Act σ β _) with
    | .ready result => return result
    | .pending =>
      env.park
      awaitSink fut fuel

/-- `on_burst(burst).await`. -/
def onBurst (fuel : Nat) (delivery : Delivery B) (burst : B) :
    Act σ β (Delivery B × Except Error Unit) := do
  let fut ← (Act.host (sink.callStep burst) : Act σ β _)
  match ← awaitSink env sink fut fuel with
  | .ok _ => return ({ delivery with sunk := delivery.sunk ++ [burst] }, .ok ())
  | .error err => return ({ delivery with refused := some burst }, .error err)

end Follow

end Waitprims
