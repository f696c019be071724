import Mathlib
import Waitprims.Lib.Hoare
import Waitprims.Async.Follow

/-! # What a sink keeps along a follow

A relation between what was handed to the sink and the state of the host holds at the end of a
session, if it holds at the start, the sink keeps it burst by burst, and no call of the observer, the
clock or the token disturbs it.

* **`Undisturbed`** — what those calls leave alone; **`Keeps`** — what an action leaves alone.
* **`Minds`** — the obligations of the sink.
* **`runFollow_minds`** — the relation at the end of a session. -/

namespace Waitprims

namespace Follow

open Fueled

variable {σ β φ ψ ξ α γ : Type} {env : Env σ β φ ψ} {P : σ → Prop}

/-! ## What the environment leaves alone -/

/-- An assertion about the host that no call of the observer, the clock or the token disturbs. -/
structure Undisturbed (env : Env σ β φ ψ) (P : σ → Prop) : Prop where
  bind : ∀ registration s, P s → P (env.bindStep registration s).2
  pollBind : ∀ fut s, P s → P (env.pollBindStep fut s).2
  dropBind : ∀ fut s, P s → P (env.dropBindStep fut s)
  next : ∀ bind s, P s → P (env.nextStep bind s).2
  pollNext : ∀ fut s, P s → P (env.pollNextStep fut s).2
  dropNext : ∀ fut s, P s → P (env.dropNextStep fut s)
  pollReady : ∀ bind s, P s → P (env.pollReadyStep bind s).2
  restoreReady : ∀ bind obs s, P s → P (env.restoreReadyStep bind obs s).2
  now : ∀ s, P s → P (env.nowStep s).2
  sleepUntil : ∀ deadline s, P s → P (env.sleepUntilStep deadline s).2
  isCancelled : ∀ s, P s → P (env.isCancelledStep s).2
  park : ∀ s, P s → P (env.parkStep s)

/-- An action leaves an assertion about the host alone. -/
def Keeps (P : σ → Prop) (x : Act σ β α) : Prop :=
  Triple (fun w => P w.host) x fun _ w => P w.host

namespace Keeps

/-- Returning a value. -/
theorem pure (a : α) : Keeps P (Pure.pure a : Act σ β α) := Triple.pure fun _ h => h

/-- One action after another. -/
theorem bind {x : Act σ β α} {f : α → Act σ β γ} (hx : Keeps P x) (hf : ∀ a, Keeps P (f a)) :
    Keeps P (x >>= f) :=
  Triple.bind hx hf

/-- Running out of fuel reaches no state. -/
theorem exhausted : Keeps P (Act.exhausted : Act σ β α) := Triple.exhausted

/-- A call that moves the host keeps what its step keeps. -/
theorem host {f : σ → α × σ} (h : ∀ s, P s → P (f s).2) : Keeps P (Act.host f : Act σ β α) := by
  intro w hw a w' hrun
  obtain ⟨-, rfl⟩ := Prod.mk.inj (Option.some.inj hrun)
  exact h w.host hw

/-- The history is no part of the host. -/
theorem record (entries : List (Call β)) : Keeps P (Act.record entries : Act σ β Unit) := by
  intro w hw a w' hrun
  obtain ⟨-, rfl⟩ := Prod.mk.inj (Option.some.inj hrun)
  exact hw

end Keeps

/-! ## Calls -/

namespace Undisturbed

variable (h : Undisturbed env P)

include h

/-- `next` starts a future. -/
theorem nextCall (bind : β) : Keeps P (env.next bind) :=
  (Keeps.host (h.next bind)).bind fun _ => Keeps.pure _

/-- A poll of a `next` future, whatever it answers. -/
theorem pollNextCall (fut : β × ψ) : Keeps P (env.pollNext fut) := by
  refine (Keeps.host (h.pollNext fut.2)).bind ?_
  rintro ((err | obs) | _)
  · exact (Keeps.pure ()).bind fun _ => Keeps.pure _
  · exact (Keeps.record _).bind fun _ => Keeps.pure _
  · exact (Keeps.pure ()).bind fun _ => Keeps.pure _

/-- A poll of a bind, whatever it answers. -/
theorem pollReadyCall (bind : β) : Keeps P (env.pollReady bind) :=
  (Keeps.host (h.pollReady bind)).bind fun _ => (Keeps.record _).bind fun _ => Keeps.pure _

/-- `restore_ready`, taken or refused. -/
theorem restoreCall (bind : β) (obs : Observation) : Keeps P (env.restoreReady bind obs) :=
  (Keeps.host (h.restoreReady bind obs)).bind fun _ => (Keeps.record _).bind fun _ => Keeps.pure _

/-- A reading of the clock. -/
theorem nowCall : Keeps P env.now := Keeps.host h.now

/-- A poll of the sleep. -/
theorem sleepCall (deadline : Timestamp) : Keeps P (env.sleepUntil deadline) :=
  Keeps.host (h.sleepUntil deadline)

/-- A look at the token. -/
theorem cancelCall : Keeps P env.isCancelled := Keeps.host h.isCancelled

/-- The task is parked until it is woken. -/
theorem parkCall : Keeps P env.park := Keeps.host h.park

/-! ## Slots -/

/-- Dropping the `next` future of a slot, if it was polled. -/
theorem dropNextFut (fut : Option (NextFut β ψ)) : Keeps P (dropNextFut env fut) := by
  unfold Follow.dropNextFut
  split
  · exact Keeps.host fun s hs => h.dropNext _ s hs
  · exact Keeps.pure _

/-- Dropping the `bind` future of a slot. -/
theorem dropBindFut (fut : Option φ) : Keeps P (dropBindFut env fut) := by
  cases fut with
  | none => exact Keeps.pure _
  | some fut => exact Keeps.host (f := fun s => ((), env.dropBindStep fut s)) (h.dropBind fut)

/-- Arming a slot drops the future that it had. -/
theorem armNext (slot : Slot β φ ψ) : Keeps P (Slot.armNext env slot) := by
  unfold Slot.armNext
  split
  · exact Triple.exhausted
  · exact (h.dropNextFut _).bind fun _ => Keeps.pure _

/-- A slot is armed again when it is bound and idle. -/
theorem rearm (slot : Slot β φ ψ) : Keeps P (Slot.rearm env slot) := by
  unfold Slot.rearm
  split
  · exact h.armNext slot
  · exact Keeps.pure _

/-- The bind phase of a slot: a slot that is bound is armed at once. -/
theorem pollSlotBind (slot : Slot β φ ψ) (pass : Pass) : Keeps P (pollSlotBind env slot pass) := by
  unfold Follow.pollSlotBind
  split
  · exact Keeps.pure _
  · refine (Keeps.host (h.pollBind _)).bind ?_
    rintro ((err | bind) | _)
    · exact Keeps.pure _
    · exact (h.armNext _).bind fun _ => Keeps.pure _
    · exact Keeps.pure _

/-- A poll of a `next` future that runs. -/
theorem pollRunning (fut : β × ψ) : Keeps P (pollRunning env fut) := by
  refine (h.pollNextCall fut).bind ?_
  rintro (result | _)
  · exact Keeps.pure _
  · exact Keeps.pure _

/-- A `next` future is started at its first poll. -/
theorem pollNextFut (fut : NextFut β ψ) : Keeps P (pollNextFut env fut) := by
  cases fut with
  | start bind => exact (h.nextCall bind).bind fun fut => h.pollRunning fut
  | running fut => exact h.pollRunning fut

/-- The next phase of a slot. -/
theorem pollSlotNext (slot : Slot β φ ψ) (pass : Pass) : Keeps P (pollSlotNext env slot pass) := by
  unfold Follow.pollSlotNext
  split
  · exact Keeps.pure _
  · refine (h.pollNextFut _).bind ?_
    rintro ((err | obs) | fut)
    · exact Keeps.pure _
    · exact Keeps.pure _
    · exact Keeps.pure _

/-- One slot in one pass; a slot that is not polled stays as it was. -/
theorem pollSlot (slot : Slot β φ ψ) (pass : Pass) : Keeps P (pollSlot env slot pass) := by
  unfold Follow.pollSlot
  split
  · exact Keeps.pure _
  · exact (h.pollSlotBind slot pass).bind fun r => h.pollSlotNext r.1 r.2

/-- One pass over the slots. -/
theorem pollSlots (slots : List (Slot β φ ψ)) (pass : Pass) : Keeps P (pollSlots env slots pass) := by
  induction slots generalizing pass with
  | nil => exact Keeps.pure _
  | cons slot rest ih =>
    exact (h.pollSlot slot pass).bind fun r => (ih r.2).bind fun _ => Keeps.pure _

/-- Harvesting a slot: an observation that is due replaces its `next` future. -/
theorem harvestSlot (slot : Slot β φ ψ) : Keeps P (harvestSlot env slot) := by
  unfold Follow.harvestSlot
  split
  · refine (h.pollReadyCall _).bind ?_
    rintro (_ | obs)
    · exact Keeps.pure _
    · exact (h.dropNextFut _).bind fun _ => Keeps.pure _
  · exact Keeps.pure _

/-- Harvesting one slot after another. -/
theorem harvestSlots (slots : List (Slot β φ ψ)) : Keeps P (SlotSet.harvestSlots env slots) := by
  induction slots with
  | nil => exact Keeps.pure _
  | cons slot rest ih => exact (h.harvestSlot slot).bind fun _ => ih.bind fun _ => Keeps.pure _

/-- Harvesting the whole set. -/
theorem harvestPollReady (s : SlotSet β φ ψ) : Keeps P (s.harvestPollReady env) :=
  (h.harvestSlots s.slots).bind fun _ => Keeps.pure _

/-- Passes over the slots until one makes no progress. -/
theorem pollAvailable (fuel : Nat) (s : SlotSet β φ ψ) : Keeps P (s.pollAvailable env fuel) := by
  induction fuel generalizing s with
  | zero => exact Keeps.exhausted
  | succ fuel ih =>
    refine (h.pollSlots s.slots _).bind ?_
    rintro ⟨slots, pass⟩
    by_cases hprogressed : pass.progressed = true
    · simp only [hprogressed, if_true]
      exact ih _
    · simp only [hprogressed]
      exact Keeps.pure _

/-- Arming one slot after another. -/
theorem rearmSlots (slots : List (Slot β φ ψ)) : Keeps P (SlotSet.rearmSlots env slots) := by
  induction slots with
  | nil => exact Keeps.pure _
  | cons slot rest ih => exact (h.rearm slot).bind fun _ => ih.bind fun _ => Keeps.pure _

/-- Arming every slot that is idle. -/
theorem rearmIdle (s : SlotSet β φ ψ) : Keeps P (s.rearmIdle env) :=
  (h.rearmSlots _).bind fun _ => Keeps.pure _

/-- A new set of slots binds every registration. -/
theorem new (registrations : List Registration) : Keeps P (SlotSet.new env registrations) := by
  induction registrations with
  | nil => exact Keeps.pure _
  | cons registration rest ih =>
    exact (Keeps.host (h.bind registration)).bind fun _ => ih.bind fun _ => Keeps.pure _

omit h in
/-- Dropping something of every slot. -/
theorem dropEach {drop : Slot β φ ψ → Act σ β Unit} (hdrop : ∀ slot, Keeps P (drop slot))
    (slots : List (Slot β φ ψ)) : Keeps P (SlotSet.dropEach drop slots) := by
  induction slots with
  | nil => exact Keeps.pure _
  | cons slot rest ih => exact (hdrop slot).bind fun _ => ih

/-- Dropping the set: its `bind` futures and its `next` futures. -/
theorem dropSlots (s : SlotSet β φ ψ) : Keeps P (s.dropSlots env) :=
  (dropEach (fun slot => h.dropBindFut slot.bindFut) s.slots).bind fun _ =>
    dropEach (fun slot => h.dropNextFut slot.nextFut) s.slots

/-- Handing back events; a refusal is remembered and the rest goes on. -/
theorem restoreAll (s : SlotSet β φ ψ) (events : List (Nat × WaitEvent)) (firstErr : Option Error) :
    Keeps P (s.restoreAll env events firstErr) := by
  induction events generalizing firstErr with
  | nil => exact Keeps.pure _
  | cons p rest ih =>
    unfold SlotSet.restoreAll
    split
    · exact ih _
    · refine (h.restoreCall _ _).bind ?_
      rintro (err | _)
      · exact ih _
      · exact ih _

/-- Handing back what was harvested. -/
theorem restoreHarvested (s : SlotSet β φ ψ) : Keeps P (s.restoreHarvested env) := by
  refine (h.restoreAll _ _ _).bind ?_
  rintro (_ | err)
  · exact Keeps.pure _
  · exact Keeps.pure _

/-! ## What surrounds a turn -/

/-- One poll of the collecting future of a turn. -/
theorem pollCollectTurn (fuel : Nat) (s : SlotSet β φ ψ) : Keeps P (pollCollectTurn env fuel s) := by
  refine (h.pollAvailable fuel s).bind fun s' => ?_
  cases s'.fault with
  | some err => exact Keeps.pure _
  | none =>
    by_cases hterminal : s'.hasTerminalObs = true
    · simp only [hterminal, if_true]
      exact Keeps.pure _
    · by_cases hidle : s'.anyIdleHarvested = true
      · simp only [hterminal, hidle, if_true]
        exact Keeps.pure _
      · simp only [hterminal, hidle]
        exact Keeps.pure _

/-- Sleeping until a deadline, or until the token is cancelled. -/
theorem sleepOrCancel (sleepTo : Timestamp) (fuel : Nat) :
    Keeps P (Live.sleepOrCancel env sleepTo fuel) := by
  induction fuel with
  | zero => exact Keeps.exhausted
  | succ fuel ih =>
    refine h.cancelCall.bind ?_
    rintro (_ | _)
    · refine (h.sleepCall sleepTo).bind ?_
      rintro (_ | _)
      · exact h.parkCall.bind fun _ => ih
      · exact Keeps.pure _
    · exact Keeps.pure _

/-- The race of a turn: what is collected, the token or the wake. -/
theorem selectTurn (fuel : Nat) (wake : Timestamp) (polls : Nat) (s : SlotSet β φ ψ) :
    Keeps P (selectTurn env fuel wake polls s) := by
  induction polls generalizing s with
  | zero => exact Keeps.exhausted
  | succ polls ih =>
    refine (h.pollCollectTurn fuel s).bind ?_
    rintro ⟨s', _ | result⟩
    · refine h.cancelCall.bind ?_
      rintro (_ | _)
      · refine (h.sleepCall wake).bind ?_
        rintro (_ | _)
        · exact h.parkCall.bind fun _ => ih s'
        · exact Keeps.pure _
      · exact Keeps.pure _
    · exact Keeps.pure _

/-- The pause of a turn whose slots have nothing but idle. -/
theorem sleepBackoff (set : RegistrationSet) (request : LiveWaitRequest) (fuel step : Nat) :
    Keeps P (sleepBackoff env set request fuel step) := by
  have hdeadline : Keeps P (backoffDeadline env set request step) :=
    h.nowCall.bind fun _ => Keeps.pure _
  exact hdeadline.bind fun sleepTo => h.sleepOrCancel sleepTo fuel

/-- What is checked before a session starts. -/
theorem enter (set : RegistrationSet) (request : LiveWaitRequest) :
    Keeps P (enter env set request) := by
  unfold Follow.enter
  split
  · exact Keeps.pure _
  · split
    · exact Keeps.pure _
    · exact h.nowCall.bind fun _ => Keeps.pure _

end Undisturbed

/-! ## The sink -/

section sink

variable {B : Type}

/-- **A sink that keeps a relation** between what was handed to it and the host. `R` holds while a
burst is with the sink. -/
structure Minds (env : Env σ β φ ψ) (sink : Sink σ B ξ) (Q : Delivery B → σ → Prop)
    (R : Delivery B → B → ξ → σ → Prop) : Prop where
  quiet : ∀ delivery, Undisturbed env (Q delivery)
  call : ∀ delivery burst s, delivery.refused = none → Q delivery s →
    R delivery burst (sink.callStep burst s).1 (sink.callStep burst s).2
  pending : ∀ delivery burst fut s, R delivery burst fut s →
    (sink.pollStep fut s).1 = .pending →
    R delivery burst fut (env.parkStep (sink.pollStep fut s).2)
  taken : ∀ delivery burst fut s u, R delivery burst fut s →
    (sink.pollStep fut s).1 = .ready (.ok u) →
    Q { delivery with sunk := delivery.sunk ++ [burst] } (sink.pollStep fut s).2
  refused : ∀ delivery burst fut s err, R delivery burst fut s →
    (sink.pollStep fut s).1 = .ready (.error err) →
    Q { delivery with refused := some burst } (sink.pollStep fut s).2

variable {sink : Sink σ B ξ} {Q : Delivery B → σ → Prop} {R : Delivery B → B → ξ → σ → Prop}

/-- What the sink leaves when it is done with a burst. -/
def Handed (Q : Delivery B → σ → Prop) (delivery : Delivery B) (burst : B)
    (answer : Except Error Unit) (w : World σ β) : Prop :=
  (∃ u, answer = .ok u ∧ Q { delivery with sunk := delivery.sunk ++ [burst] } w.host) ∨
    ∃ err, answer = .error err ∧ Q { delivery with refused := some burst } w.host

/-- Awaiting the sink. -/
theorem Minds.awaitSink (h : Minds env sink Q R) (delivery : Delivery B) (burst : B) (fut : ξ)
    (fuel : Nat) :
    Triple (fun w => R delivery burst fut w.host) (awaitSink env sink fut fuel)
      (Handed Q delivery burst) := by
  induction fuel with
  | zero => exact Triple.exhausted
  | succ fuel ih =>
    intro w hw
    have hpoll : Triple (fun v => v = w) (Act.host (sink.pollStep fut) : Act σ β _) fun answer v =>
        answer = (sink.pollStep fut w.host).1 ∧ v.host = (sink.pollStep fut w.host).2 := by
      rintro v rfl answer v' hrun
      obtain ⟨rfl, rfl⟩ := Prod.mk.inj (Option.some.inj hrun)
      exact ⟨rfl, rfl⟩
    refine Triple.bind hpoll ?_ w rfl
    rintro ((err | u) | _)
    · refine Triple.pure fun v hv => .inr ⟨err, rfl, ?_⟩
      rw [hv.2]
      exact h.refused delivery burst fut w.host err hw hv.1.symm
    · refine Triple.pure fun v hv => .inl ⟨u, rfl, ?_⟩
      rw [hv.2]
      exact h.taken delivery burst fut w.host u hw hv.1.symm
    · -- not yet: the burst stays with the sink while the task is parked
      have hpark : Triple (fun v : World σ β => Poll.pending = (sink.pollStep fut w.host).1 ∧
          v.host = (sink.pollStep fut w.host).2) env.park fun _ v => R delivery burst fut v.host := by
        rintro v ⟨hanswer, hv⟩ u v' hrun
        obtain ⟨-, rfl⟩ := Prod.mk.inj (Option.some.inj hrun)
        show R delivery burst fut (env.parkStep v.host)
        rw [hv]
        exact h.pending delivery burst fut w.host hw hanswer.symm
      exact Triple.bind hpark fun _ => ih

/-- **One burst**: it is taken, or refused. -/
theorem Minds.onBurst (h : Minds env sink Q R) {delivery : Delivery B}
    (hnone : delivery.refused = none) (burst : B) (fuel : Nat) :
    Triple (fun w => Q delivery w.host) (onBurst env sink fuel delivery burst) fun r w =>
      Q r.1 w.host ∧ ((∃ u, r.2 = .ok u ∧ r.1.refused = none) ∨ ∃ err, r.2 = .error err) := by
  have hcall : Triple (fun w : World σ β => Q delivery w.host)
      (Act.host (sink.callStep burst) : Act σ β ξ) fun fut w => R delivery burst fut w.host := by
    intro w hw fut w' hrun
    obtain ⟨rfl, rfl⟩ := Prod.mk.inj (Option.some.inj hrun)
    exact h.call delivery burst w.host hnone hw
  refine Triple.bind hcall fun fut => Triple.bind (h.awaitSink delivery burst fut fuel) ?_
  rintro (err | u)
  · refine Triple.pure fun w hw => ?_
    rcases hw with ⟨u, hanswer, -⟩ | ⟨err', -, hq⟩
    · cases hanswer
    · exact ⟨hq, .inr ⟨err, rfl⟩⟩
  · refine Triple.pure fun w hw => ?_
    rcases hw with ⟨u', -, hq⟩ | ⟨err, hanswer, -⟩
    · exact ⟨hq, .inl ⟨u, rfl, hnone⟩⟩
    · cases hanswer

end sink

/-! ## A session -/

section session

variable {sink : Sink σ FollowBurst ξ} {Q : Delivery FollowBurst → σ → Prop}
  {R : Delivery FollowBurst → FollowBurst → ξ → σ → Prop} (h : Minds env sink Q R)
  (set : RegistrationSet) (request : LiveWaitRequest) (fuel : Nat)
  {session : Session β φ ψ FollowBurst}

/-- What holds between two turns. -/
def Between (Q : Delivery FollowBurst → σ → Prop) (session : Session β φ ψ FollowBurst)
    (w : World σ β) : Prop :=
  session.delivery.refused = none ∧ Q session.delivery w.host

/-- What holds at the end: a session whose sink refused a burst ends with an error. -/
def LeavesWith (Q : Delivery FollowBurst → σ → Prop) (delivery : Delivery FollowBurst)
    (result : Except Error FollowEnd) (w : World σ β) : Prop :=
  Q delivery w.host ∧ ∀ ended, result = .ok ended → delivery.refused = none

/-- What a turn leaves. -/
@[simp] def TurnLeaves (Q : Delivery FollowBurst → σ → Prop) :
    Turned β φ ψ FollowBurst → World σ β → Prop
  | (session, none), w => Between Q session w
  | (session, some result), w => LeavesWith Q session.delivery result w

/-- An action of the environment between two turns. -/
theorem between_keeps {x : Act σ β α} (hx : Keeps (Q session.delivery) x) :
    Triple (Between Q session) x fun _ => Between Q session :=
  fun w hw a w' hrun => ⟨hw.1, hx w hw.2 a w' hrun⟩

/-- A session that ends between two turns ends as its end requires. -/
theorem Between.ended {w : World σ β} (hw : Between Q session w) (result : Except Error FollowEnd) :
    LeavesWith Q session.delivery result w :=
  ⟨hw.2, fun _ _ => hw.1⟩

include h

namespace Minds

/-- A cancelled session hands back what it harvested. -/
theorem finishCancel :
    Triple (Between Q session) (finishCancel env session) fun r => LeavesWith Q r.1.delivery r.2 := by
  refine Triple.bind (between_keeps ((h.quiet _).restoreHarvested session.slots)) ?_
  rintro ⟨slots, err | _⟩
  · exact Triple.pure fun w hw => hw.ended _
  · exact Triple.pure fun w hw => hw.ended _

/-- So does a session that fails. -/
theorem finishErr (err : Error) :
    Triple (Between Q session) (finishErr env session err) fun r => LeavesWith Q r.1.delivery r.2 := by
  refine Triple.bind (between_keeps ((h.quiet _).restoreHarvested session.slots)) ?_
  rintro ⟨slots, first | _⟩
  · exact Triple.pure fun w hw => hw.ended _
  · exact Triple.pure fun w hw => hw.ended _

omit h in
/-- The end of a session is what its last turn leaves. -/
theorem ending_leaves {finish : Act σ β (Session β φ ψ FollowBurst × Except Error FollowEnd)}
    {T : World σ β → Prop} (hfinish : Triple T finish fun r => LeavesWith Q r.1.delivery r.2) :
    Triple T (ending finish) (TurnLeaves Q) := by
  refine Triple.bind hfinish ?_
  rintro ⟨session', result⟩
  exact Triple.pure fun w hw => hw

/-- After a burst the session ends, or its idle slots are armed for the next turn. -/
theorem afterBurst (now : Timestamp) (terminal : Option FollowEnd) :
    Triple (Between Q session) (afterBurst env set request session now terminal) (TurnLeaves Q) := by
  unfold Follow.afterBurst
  split
  · exact Triple.pure fun w hw => hw.ended _
  · exact Triple.bind (between_keeps ((h.quiet _).rearmIdle session.slots)) fun _ =>
      Triple.pure fun w hw => hw

/-- **What a turn decides**: to fail, to be cancelled, to go on or to hand over a burst. -/
theorem decideTurn (now : Timestamp) :
    Triple (Between Q session) (decideTurn env sink set request fuel session now)
      (TurnLeaves Q) := by
  unfold Follow.decideTurn
  split
  · exact ending_leaves (h.finishErr _)
  split
  · exact ending_leaves ((h.finishErr _).strengthen fun w hw => hw)
  refine Triple.bind (between_keeps (h.quiet _).cancelCall) fun cancelled => ?_
  by_cases hcancelled : cancelled = true
  · simp only [hcancelled, if_true]
    exact ending_leaves h.finishCancel
  simp only [hcancelled]
  -- without an event the sink is not called
  by_cases hempty : session.slots.takeEvents.2.isEmpty = true
  · simp only [hempty, if_true]
    exact (h.afterBurst set request now _).strengthen fun w hw => hw
  · simp only [hempty]
    intro w hw
    refine Triple.bind (h.onBurst hw.1 _ fuel) ?_ w hw.2
    rintro ⟨delivery, answer⟩ w' ⟨hq, ⟨u, hanswer, hnone⟩ | ⟨err, hanswer⟩⟩
    · obtain rfl : answer = .ok u := hanswer
      exact h.afterBurst set request now _ w' ⟨hnone, hq⟩
    · obtain rfl : answer = .error err := hanswer
      -- the refused burst ends the session
      exact Triple.pure (P := fun v => v = w') (fun v hv => ⟨by rw [hv]; exact hq, fun _ hok => by cases hok⟩) w' rfl

/-- A turn that woke without a result harvests before it decides. -/
theorem onWake (now : Timestamp) :
    Triple (Between Q session) (onWake env sink set request fuel session now) (TurnLeaves Q) := by
  refine Triple.bind (between_keeps ((h.quiet _).rearmIdle session.slots)) fun slots₁ => ?_
  refine Triple.bind (between_keeps ((h.quiet _).pollAvailable fuel slots₁)) fun slots₂ => ?_
  refine Triple.bind (between_keeps ((h.quiet _).harvestPollReady slots₂)) fun slots₃ => ?_
  exact (h.decideTurn set request fuel now).strengthen fun w hw => hw

/-- A turn whose slots answered: a fault, nothing but idle, or something to decide on. -/
theorem onCollected (result : Except Error Turn) :
    Triple (Between Q session) (onCollected env sink set request fuel session result)
      (TurnLeaves Q) := by
  unfold Follow.onCollected
  split
  · exact Triple.bind (between_keeps (h.quiet _).nowCall) fun now => ending_leaves (h.finishErr _)
  · refine Triple.bind (between_keeps ((h.quiet _).sleepBackoff set request fuel _)) fun _ => ?_
    refine Triple.bind (between_keeps (h.quiet _).nowCall) fun now => ?_
    exact (h.onWake set request fuel now).strengthen fun w hw => hw
  · exact Triple.bind (between_keeps (h.quiet _).nowCall) fun now => h.decideTurn set request fuel now

/-- **One turn** keeps the relation. -/
theorem turn :
    Triple (Between Q session) (turn env sink set request fuel session) (TurnLeaves Q) := by
  refine Triple.bind (between_keeps (h.quiet _).nowCall) fun now => ?_
  split
  · exact ending_leaves (h.finishErr _)
  refine Triple.bind (between_keeps (h.quiet _).cancelCall) fun cancelled => ?_
  by_cases hcancelled : cancelled = true
  · simp only [hcancelled, if_true]
    exact ending_leaves h.finishCancel
  simp only [hcancelled]
  refine Triple.bind (between_keeps ((h.quiet _).selectTurn fuel _ fuel session.slots)) ?_
  rintro ⟨slots, result | _ | _⟩
  · exact (h.onCollected set request fuel result).strengthen fun w hw => hw
  · refine Triple.bind (between_keeps ((h.quiet _).pollAvailable fuel slots)) fun slots' => ?_
    refine Triple.bind (between_keeps (h.quiet _).nowCall) fun now => ?_
    exact (h.decideTurn set request fuel now).strengthen fun w hw => hw
  · refine Triple.bind (between_keeps (h.quiet _).nowCall) fun now => ?_
    exact (h.onWake set request fuel now).strengthen fun w hw => hw

/-- **Any turns** do. -/
theorem followLoop (turns : Nat) (session : Session β φ ψ FollowBurst) :
    Triple (Between Q session) (followLoop env sink set request fuel turns session) fun r =>
      LeavesWith Q r.1.delivery r.2 := by
  induction turns generalizing session with
  | zero => exact Triple.exhausted
  | succ turns ih =>
    refine Triple.bind (h.turn set request fuel) ?_
    rintro ⟨session', _ | result⟩
    · exact ih session'
    · exact Triple.pure fun w hw => hw

/-- **A follow keeps the relation** between what it handed over and the host. -/
theorem runFollow :
    Triple (fun w => Q ⟨[], none⟩ w.host) (runFollow env sink set request fuel) fun r =>
      LeavesWith Q r.1 r.2 := by
  refine Triple.bind ((h.quiet ⟨[], none⟩).enter set request) ?_
  rintro (_ | err)
  · -- the checks passed: the slots are bound, the turns taken, the slots dropped
    refine Triple.bind ((h.quiet ⟨[], none⟩).new set.registrations) fun slots => ?_
    refine Triple.bind ((h.followLoop set request fuel fuel _).strengthen fun w hw => ⟨rfl, hw⟩) ?_
    rintro ⟨session, result⟩ w ⟨hq, hnone⟩
    refine Triple.bind ((h.quiet _).dropSlots session.slots) (fun _ => ?_) w hq
    exact Triple.pure fun w hw => ⟨hw, hnone⟩
  · exact Triple.pure fun w hw => ⟨hw, fun _ hok => by cases hok⟩

end Minds

end session

end Follow

end Waitprims
