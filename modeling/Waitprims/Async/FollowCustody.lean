import Mathlib
import Waitprims.Async.SlotLedger
import Waitprims.Async.Follow
import Waitprims.Async.CycleRun
import Waitprims.Async.QueueObserver
import Waitprims.Testkit.Case

/-! # Custody of a follow

What a follow has taken from the binds is in the bursts it handed to its sink, or in its slots; at
every end the slots are emptied first, through the sink or back to the binds. So what was handed
over, followed by the queue, is what the queue was, followed by what has arrived.

* **`Delivered`** — the bursts as owned events, each in slot order.
* **`Running`**, **`Stopped`** — what a session owns between two turns, and at its end.
* **`runFollow_spec`** — a follow over an arbitrary ledger.
* **`delivers_once`** — over the custody ledger of each registration. -/

namespace Waitprims

namespace Follow

open Fueled Fifo
open PollCycle (IdsOf)

variable {σ β φ ψ ξ α : Type} {env : Env σ β φ ψ} {ids : List IdToken}

/-! ## The sink -/

/-- The sink may answer `Err`. -/
def SinkErrs {B : Type} (sink : Sink σ B ξ) : Prop :=
  ∃ fut s err, (sink.pollStep fut s).1 = .ready (.error err)

/-- A sink that leaves alone what the ledger is about. -/
structure SinkKeeps {B : Type} (ledger : Ledger env ids) (sink : Sink σ B ξ) : Prop where
  call : ∀ items burst, Triple (ledger.own [] items)
    (Act.host (sink.callStep burst) : Act σ β ξ) fun _ => ledger.own [] items
  poll : ∀ items fut, Triple (ledger.own [] items)
    (Act.host (sink.pollStep fut) : Act σ β (Poll (Except Error Unit))) fun _ =>
      ledger.own [] items

/-- Awaiting the sink takes nothing; an `Err` is the sink's. -/
theorem awaitSink_spec {B : Type} {ledger : Ledger env ids} {sink : Sink σ B ξ}
    (hsink : SinkKeeps ledger sink) (items : List (Item β)) (fut : ξ) (fuel : Nat) :
    Triple (ledger.own [] items) (awaitSink env sink fut fuel) fun result w =>
      (∀ err, result = .error err → SinkErrs sink) ∧ ledger.own [] items w := by
  induction fuel with
  | zero => exact Triple.exhausted
  | succ fuel ih =>
    have hpoll : Triple (ledger.own [] items)
        (Act.host (sink.pollStep fut) : Act σ β (Poll (Except Error Unit))) fun answer w =>
          (∀ err, answer = .ready (.error err) → SinkErrs sink) ∧ ledger.own [] items w := by
      intro w h answer w' hrun
      refine ⟨fun err herr => ⟨fut, w.host, err, ?_⟩, hsink.poll items fut w h answer w' hrun⟩
      rw [← herr]
      exact (Prod.mk.inj (Option.some.inj hrun)).1
    refine Triple.bind hpoll ?_
    rintro (result | _)
    · refine Triple.pure fun w h => ⟨fun err herr => h.1 err ?_, h.2⟩
      rw [herr]
    · exact (Triple.bind (ledger.park [] items) fun _ => ih).strengthen fun w h => h.2

/-! ## Bursts -/

/-- The bursts handed to the sink, as owned events: each burst is in slot order. -/
structure Delivered (bursts : List (List (Held β))) (delivery : Delivery FollowBurst) : Prop where
  events : bursts.map (fun burst => burst.map Held.event) = delivery.handed.map FollowBurst.events
  ordered : ∀ burst ∈ bursts, burst.Pairwise fun e e' => e.slot < e'.slot

/-- One more burst, whatever the sink answers. -/
theorem Delivered.snoc {bursts : List (List (Held β))} {delivery delivery' : Delivery FollowBurst}
    (h : Delivered bursts delivery) {burst : List (Held β)}
    (hordered : burst.Pairwise fun e e' => e.slot < e'.slot)
    (hhanded : delivery'.handed = delivery.handed ++ [⟨burst.map Held.event⟩]) :
    Delivered (bursts ++ [burst]) delivery' := by
  refine ⟨?_, ?_⟩
  · rw [List.map_append, h.events, hhanded, List.map_append]
    rfl
  · intro b hb
    rcases List.mem_append.mp hb with hb | hb
    · exact h.ordered b hb
    · rw [List.mem_singleton.mp hb]
      exact hordered

/-- The events handed over, one burst after the other. -/
theorem Delivered.flatMap_events {bursts : List (List (Held β))} {delivery : Delivery FollowBurst}
    (h : Delivered bursts delivery) :
    delivery.handed.flatMap FollowBurst.events = bursts.flatten.map Held.event := by
  rw [List.flatMap_def, ← h.events, List.map_flatten]

variable (ledger : Ledger env ids) (sink : Sink σ FollowBurst ξ)

/-- **Between two turns**: what was handed over, and what the slots hold. -/
def Running (bursts : List (List (Held β))) (session : Session β φ ψ FollowBurst)
    (w : World σ β) : Prop :=
  (Delivered bursts session.delivery ∧ session.delivery.refused = none) ∧
    Holding ledger bursts.flatten 0 session.slots.slots w

/-- **At the end**: what was handed over, and nothing else. -/
def Stopped (delivery : Delivery FollowBurst) (w : World σ β) : Prop :=
  (delivery.refused.isSome → SinkErrs sink) ∧
    ∃ bursts, Delivered bursts delivery ∧ Owns ledger bursts.flatten w

/-- What a turn leaves. -/
@[simp] def TurnedOk : Turned β φ ψ FollowBurst → World σ β → Prop
  | (session, none), w => ∃ bursts, Running ledger bursts session w
  | (session, some _), w => Stopped ledger sink session.delivery w

variable {ledger sink} {bursts : List (List (Held β))} {session : Session β φ ψ FollowBurst}

/-- A session that stops with what it was running with. -/
theorem stopped_of_delivered {delivery : Delivery FollowBurst} {w : World σ β}
    (h : Delivered bursts delivery ∧ delivery.refused = none) (hown : Owns ledger bursts.flatten w) :
    Stopped ledger sink delivery w := by
  refine ⟨fun hrefused => ?_, bursts, h.1, hown⟩
  rw [h.2] at hrefused
  cases hrefused

/-- What every ledger keeps, a running session keeps. -/
theorem running_frame {x : Act σ β α}
    (hx : ∀ items, Triple (ledger.own [] items) x fun _ => ledger.own [] items) :
    Triple (Running ledger bursts session) x fun _ => Running ledger bursts session :=
  fun w h a w' hrun => ⟨h.1, h.2.1, hx _ w h.2.2 a w' hrun⟩

/-- Operations of the slots keep a session running. -/
theorem running_slots {x : Act σ β (SlotSet β φ ψ)}
    (hx : Triple (Holding ledger bursts.flatten 0 session.slots.slots) x fun s =>
      Holding ledger bursts.flatten 0 s.slots) :
    Triple (Running ledger bursts session) x fun slots =>
      Running ledger bursts { session with slots } :=
  fun w h a w' hrun => ⟨h.1, hx w h.2 a w' hrun⟩

/-! ## The ends of a session -/

section ends

variable (hbroken : ∀ w, ¬ ledger.broken w)

include hbroken in
/-- A cancelled session has handed back what its slots held. -/
theorem finishCancel_spec :
    Triple (Running ledger bursts session) (finishCancel env session) fun r =>
      Stopped ledger sink r.1.delivery := by
  refine Triple.fact (fun w h => h.1) fun hdelivered => ?_
  refine Triple.bind ((restoreHarvested_spec hbroken bursts.flatten session.slots).strengthen
    fun w h => h.2) ?_
  rintro ⟨slots, err | _⟩
  · exact Triple.pure fun w h => stopped_of_delivered hdelivered h
  · exact Triple.pure fun w h => stopped_of_delivered hdelivered h

include hbroken in
/-- So has a failed one. -/
theorem finishErr_spec (err : Error) :
    Triple (Running ledger bursts session) (finishErr env session err) fun r =>
      Stopped ledger sink r.1.delivery := by
  refine Triple.fact (fun w h => h.1) fun hdelivered => ?_
  refine Triple.bind ((restoreHarvested_spec hbroken bursts.flatten session.slots).strengthen
    fun w h => h.2) ?_
  rintro ⟨slots, first | _⟩
  · exact Triple.pure fun w h => stopped_of_delivered hdelivered h
  · exact Triple.pure fun w h => stopped_of_delivered hdelivered h

/-- A turn that ends the session. -/
theorem ending_spec {P : World σ β → Prop}
    {finish : Act σ β (Session β φ ψ FollowBurst × Except Error FollowEnd)}
    (h : Triple P finish fun r => Stopped ledger sink r.1.delivery) :
    Triple P (ending finish) (TurnedOk ledger sink) := by
  refine Triple.bind h ?_
  rintro ⟨session', result⟩
  exact Triple.pure fun w hw => hw

end ends

/-! ## One burst -/

section sink

variable (hsink : SinkKeeps ledger sink)

/-- What a sink has answered: the burst was taken, or it was refused. -/
def Answered (sink : Sink σ FollowBurst ξ) (delivery : Delivery FollowBurst) (burst : FollowBurst)
    (r : Delivery FollowBurst × Except Error Unit) : Prop :=
  (∃ u, r.2 = .ok u ∧ r.1 = { delivery with sunk := delivery.sunk ++ [burst] }) ∨
    ∃ err, r.2 = .error err ∧ r.1 = { delivery with refused := some burst } ∧ SinkErrs sink

include hsink in
theorem onBurst_spec (items : List (Item β)) (fuel : Nat) (delivery : Delivery FollowBurst)
    (burst : FollowBurst) :
    Triple (ledger.own [] items) (onBurst env sink fuel delivery burst) fun r w =>
      Answered sink delivery burst r ∧ ledger.own [] items w := by
  refine Triple.bind (hsink.call items burst) fun fut => ?_
  refine Triple.bind (awaitSink_spec hsink items fut fuel) ?_
  rintro (err | u)
  · exact Triple.pure fun w h => ⟨.inr ⟨err, rfl, rfl, h.1 err rfl⟩, h.2⟩
  · exact Triple.pure fun w h => ⟨.inl ⟨u, rfl, rfl⟩, h.2⟩

end sink

/-! ## One turn -/

section turn

variable (hsink : SinkKeeps ledger sink)
  (hbroken : ∀ w, ¬ ledger.broken w) (set : RegistrationSet) (request : LiveWaitRequest)
  (fuel : Nat)

/-- Behind a burst the slots hold no event, so the session may stop; or it is armed again. -/
theorem afterBurst_spec (bursts : List (List (Held β))) (now : Timestamp)
    (terminal : Option FollowEnd) (hempty : heldFrom 0 session.slots.slots = []) :
    Triple (Running ledger bursts session) (afterBurst env set request session now terminal)
      (TurnedOk ledger sink) := by
  unfold afterBurst
  split
  · refine Triple.pure fun w h => stopped_of_delivered h.1 ?_
    have hown := h.2.2
    rwa [hempty, List.append_nil] at hown
  · refine Triple.bind (running_slots (rearmIdle_spec bursts.flatten session.slots)) fun slots => ?_
    exact Triple.pure fun w h => ⟨bursts, h⟩

include hsink hbroken in
/-- **One decision.** -/
theorem decideTurn_spec (now : Timestamp) :
    Triple (Running ledger bursts session) (decideTurn env sink set request fuel session now)
      (TurnedOk ledger sink) := by
  unfold decideTurn
  split
  · next err _ => exact ending_spec (finishErr_spec hbroken err)
  split
  · next err _ =>
    -- The fault is taken; the slots are as they were.
    exact ending_spec ((finishErr_spec hbroken err).strengthen fun w h => h)
  refine Triple.bind (running_frame fun items => ledger.isCancelled [] items) fun cancelled => ?_
  by_cases hcancelled : cancelled = true
  · simp only [hcancelled, if_true]
    exact ending_spec (finishCancel_spec hbroken)
  simp only [hcancelled]
  intro w h
  obtain ⟨hevents, hnone, hholding⟩ := takeEvents_spec h.2
  have hsorted := heldFrom_sorted 0 session.slots.slots
  set burst := heldFrom 0 session.slots.slots with hburst
  by_cases hempty : session.slots.takeEvents.2.isEmpty = true
  · -- Nothing was taken.
    have hnil : burst = [] := by
      rw [hevents, List.isEmpty_iff, List.map_eq_nil_iff] at hempty
      exact hempty
    rw [hnil, List.append_nil] at hholding
    simp only [hempty, if_true]
    have hrunning : Running ledger bursts
        { session with slots := session.slots.takeEvents.1 } w := ⟨h.1, hholding⟩
    exact afterBurst_spec set request bursts now _ hnone w hrunning
  · simp only [hempty]
    refine Triple.bind (onBurst_spec hsink _ fuel session.delivery ⟨session.slots.takeEvents.2⟩)
      ?_ w hholding.2
    rintro ⟨delivery, answer⟩
    refine Triple.assume fun hanswered => ?_
    rcases hanswered with ⟨u, hok, hdelivery⟩ | ⟨err, herr, hdelivery, herrs⟩
    · -- The sink took the burst.
      obtain rfl : answer = .ok u := hok
      have hdelivered : Delivered (bursts ++ [burst]) delivery := by
        refine h.1.1.snoc hsorted ?_
        rw [show delivery = _ from hdelivery, ← hevents]
        simp [Delivery.handed, h.1.2]
      have hrefused : delivery.refused = none := by
        rw [show delivery = _ from hdelivery]
        exact h.1.2
      refine (afterBurst_spec set request (bursts ++ [burst]) now _ hnone).strengthen
        fun w' hown => ?_
      refine ⟨⟨hdelivered, hrefused⟩, hholding.1, ?_⟩
      rw [List.flatten_append, List.flatten_singleton]
      exact hown
    · -- The sink refused the burst, which is in the history of what was handed over.
      obtain rfl : answer = .error err := herr
      refine Triple.pure fun w' hown =>
        ⟨fun _ => herrs, bursts ++ [burst], h.1.1.snoc hsorted ?_, ?_⟩
      · rw [show delivery = _ from hdelivery, ← hevents]
        simp [Delivery.handed, h.1.2]
      · rw [List.flatten_append, List.flatten_singleton]
        have hown' : Owns ledger (bursts.flatten ++ burst ++
            heldFrom 0 session.slots.takeEvents.1.slots) w' := hown
        rwa [hnone, List.append_nil] at hown'

include hsink hbroken in
/-- Waking up: the slots are armed and polled, and then it is decided. -/
theorem onWake_spec (now : Timestamp) :
    Triple (Running ledger bursts session) (onWake env sink set request fuel session now)
      (TurnedOk ledger sink) := by
  refine Triple.bind (running_slots (rearmIdle_spec bursts.flatten session.slots)) fun slots₁ => ?_
  refine Triple.bind (running_slots (pollAvailable_spec bursts.flatten fuel slots₁)) fun slots₂ => ?_
  refine Triple.bind (running_slots (harvestPollReady_spec bursts.flatten slots₂)) fun slots₃ => ?_
  exact decideTurn_spec hsink hbroken set request fuel now

/-- One poll of the turn keeps what the slots hold. -/
theorem pollCollectTurn_spec (front : List (Held β)) (s : SlotSet β φ ψ) :
    Triple (Holding ledger front 0 s.slots) (pollCollectTurn env fuel s) fun r =>
      Holding ledger front 0 r.1.slots := by
  refine Triple.bind (pollAvailable_spec front fuel s) fun s' => ?_
  cases s'.fault with
  | some err => exact Triple.pure fun w h => h
  | none =>
    by_cases hterminal : s'.hasTerminalObs = true
    · simp only [hterminal, if_true]
      exact Triple.pure fun w h => h
    · by_cases hidle : s'.anyIdleHarvested = true
      · simp only [hterminal, hidle, if_true]
        exact Triple.pure fun w h => h
      · simp only [hterminal, hidle]
        exact Triple.pure fun w h => h

/-- **The `select!` of a turn** keeps what the slots hold, whichever branch it ends with. -/
theorem selectTurn_spec (front : List (Held β)) (wake : Timestamp) (polls : Nat)
    (s : SlotSet β φ ψ) :
    Triple (Holding ledger front 0 s.slots) (selectTurn env fuel wake polls s) fun r =>
      Holding ledger front 0 r.1.slots := by
  induction polls generalizing s with
  | zero => exact Triple.exhausted
  | succ polls ih =>
    refine Triple.bind (pollCollectTurn_spec fuel front s) ?_
    rintro ⟨s', result | _⟩
    · refine Triple.bind (holding_frame fun items => ledger.isCancelled [] items) ?_
      rintro (_ | _)
      · refine Triple.bind (holding_frame fun items => ledger.sleepUntil [] items wake) ?_
        rintro (_ | _)
        · exact Triple.bind (holding_frame fun items => ledger.park [] items) fun _ => ih s'
        · exact Triple.pure fun w h => h
      · exact Triple.pure fun w h => h
    · exact Triple.pure fun w h => h

/-- Nor does reading the clock for a backoff, -/
theorem backoffDeadline_keeps (step : Nat) (items : List (Item β)) :
    Triple (ledger.own [] items) (backoffDeadline env set request step) fun _ =>
      ledger.own [] items :=
  Triple.bind (ledger.now [] items) fun _ => Triple.pure fun _ h => h

/-- or sleeping. -/
theorem sleepOrCancel_keeps (sleepTo : Timestamp) (items : List (Item β)) :
    Triple (ledger.own [] items) (Live.sleepOrCancel env sleepTo fuel) fun _ =>
      ledger.own [] items := by
  induction fuel with
  | zero => exact Triple.exhausted
  | succ fuel ih =>
    refine Triple.bind (ledger.isCancelled [] items) ?_
    rintro (_ | _)
    · refine Triple.bind (ledger.sleepUntil [] items sleepTo) ?_
      rintro (_ | _)
      · exact Triple.bind (ledger.park [] items) fun _ => ih
      · exact Triple.pure fun w h => h
    · exact Triple.pure fun w h => h

include hsink hbroken in
/-- The handler of the readiness branch. -/
theorem onCollected_spec (result : Except Error Turn) :
    Triple (Running ledger bursts session) (onCollected env sink set request fuel session result)
      (TurnedOk ledger sink) := by
  unfold onCollected
  split
  · next err =>
    refine Triple.bind (running_frame fun items => ledger.now [] items) fun now => ?_
    exact ending_spec (finishErr_spec hbroken _)
  · have hsleep : Triple (Running ledger bursts session)
        (sleepBackoff env set request fuel (saturatingAdd session.backoffStep 1)) fun _ =>
          Running ledger bursts session :=
      Triple.bind (running_frame fun items => backoffDeadline_keeps set request _ items)
        fun sleepTo => running_frame fun items => sleepOrCancel_keeps fuel sleepTo items
    refine Triple.bind hsleep fun _ => ?_
    refine Triple.bind (running_frame fun items => ledger.now [] items) fun now => ?_
    exact (onWake_spec hsink hbroken set request fuel now).strengthen fun w h => h
  · refine Triple.bind (running_frame fun items => ledger.now [] items) fun now => ?_
    exact decideTurn_spec hsink hbroken set request fuel now

include hsink hbroken in
/-- **One turn.** -/
theorem turn_spec :
    Triple (Running ledger bursts session) (turn env sink set request fuel session)
      (TurnedOk ledger sink) := by
  refine Triple.bind (running_frame fun items => ledger.now [] items) fun now => ?_
  split
  · next err _ => exact ending_spec (finishErr_spec hbroken err)
  refine Triple.bind (running_frame fun items => ledger.isCancelled [] items) fun cancelled => ?_
  by_cases hcancelled : cancelled = true
  · simp only [hcancelled, if_true]
    exact ending_spec (finishCancel_spec hbroken)
  simp only [hcancelled]
  have hselect : Triple (Running ledger bursts session)
      (selectTurn env fuel (earliestWake set request) fuel session.slots) fun r =>
        Running ledger bursts { session with slots := r.1 } :=
    fun w h r w' hrun => ⟨h.1, selectTurn_spec fuel _ _ _ _ w h.2 r w' hrun⟩
  refine Triple.bind hselect ?_
  rintro ⟨slots, result | _ | _⟩
  · exact onCollected_spec hsink hbroken set request fuel result
  · refine Triple.bind (running_slots (pollAvailable_spec bursts.flatten fuel slots)) fun slots' => ?_
    refine Triple.bind (running_frame fun items => ledger.now [] items) fun now => ?_
    exact decideTurn_spec hsink hbroken set request fuel now
  · refine Triple.bind (running_frame fun items => ledger.now [] items) fun now => ?_
    exact onWake_spec hsink hbroken set request fuel now

include hsink hbroken in
/-- **Any turns**: a session that has stopped holds nothing it has not handed over. -/
theorem followLoop_spec (turns : Nat) (session : Session β φ ψ FollowBurst) :
    Triple (fun w => ∃ bursts, Running ledger bursts session w)
      (followLoop env sink set request fuel turns session) fun r =>
        Stopped ledger sink r.1.delivery := by
  induction turns generalizing session with
  | zero => exact Triple.exhausted
  | succ turns ih =>
    rintro w ⟨bursts, h⟩
    refine Triple.bind (turn_spec hsink hbroken set request fuel) ?_ w h
    rintro ⟨session', _ | result⟩
    · exact ih session'
    · exact Triple.pure fun w hw => hw

/-- The entry checks take nothing. -/
theorem enter_keeps (items : List (Item β)) :
    Triple (ledger.own [] items) (enter env set request) fun _ => ledger.own [] items := by
  unfold enter
  split
  · exact Triple.pure fun w h => h
  · split
    · exact Triple.pure fun w h => h
    · exact Triple.bind (ledger.now [] items) fun now => Triple.pure fun w h => h

include hsink hbroken in
/-- **A follow** over an arbitrary ledger: what is owned at the end was handed to the sink. -/
theorem runFollow_spec (hids : IdsOf ids set) :
    Triple (ledger.own [] []) (runFollow env sink set request fuel) fun r =>
      Stopped ledger sink r.1 := by
  have hstart : Delivered ([] : List (List (Held β))) ⟨[], none⟩ ∧
      (⟨[], none⟩ : Delivery FollowBurst).refused = none := ⟨⟨rfl, nofun⟩, rfl⟩
  refine Triple.bind (enter_keeps set request []) ?_
  rintro (_ | err)
  · have hplaces : ∀ i registration, set.registrations[i]? = some registration →
        ids[0 + i]? = some registration.registrationId := by
      intro i registration hi
      rw [hids, Nat.zero_add, List.getElem?_map, hi]
      rfl
    refine Triple.bind (new_spec 0 set.registrations hplaces []) fun slots => ?_
    refine Triple.bind ((followLoop_spec hsink hbroken set request fuel fuel _).strengthen
      fun w h => ⟨[], hstart, h⟩) ?_
    rintro ⟨session, result⟩ w ⟨herrs, bursts, hdelivered, hown⟩
    refine Triple.bind (dropSlots_spec session.slots) (fun _ => ?_) w hown
    exact Triple.pure fun w h => ⟨herrs, bursts, hdelivered, h⟩
  · exact Triple.pure fun w h => stopped_of_delivered hstart h

end turn

/-! ## Custody -/

/-- A sink that only lets events arrive. -/
structure QuietSink {B : Type} {env : Env σ β φ ψ} (queued : QueuedObserver env)
    (sink : Sink σ B ξ) : Prop where
  call : ∀ r burst s, Quiet (queued.view r) s (sink.callStep burst s).2
  poll : ∀ r fut s, Quiet (queued.view r) s (sink.pollStep fut s).2

/-- It keeps custody. -/
theorem QuietSink.keeps {B : Type} {queued : QueuedObserver env} {sink : Sink σ B ξ}
    (h : QuietSink queued sink) (hids : ids.Nodup) (r : IdToken) (host₀ : σ) :
    SinkKeeps (custodyLedger hids queued r host₀) sink where
  call _ burst := host_quiet fun s => h.call r burst s
  poll _ fut := host_quiet fun s => h.poll r fut s

/-- The owned events of a registration, by the ids that the events carry. -/
theorem heldBy_items {held : List (Held β)} (hat : AtSlots env ids (held.map Held.item))
    (r : IdToken) :
    heldBy env r (held.map Held.item) =
      (held.map Held.event).filter fun event => event.registrationId = r := by
  induction held with
  | nil => rfl
  | cons e rest ih =>
    have hlabel : e.event.registrationId = env.registrationId e.bind :=
      (hat e.item List.mem_cons_self).2 e.slot e.bind e.event rfl
    have hrest := ih fun item hitem => hat item (List.mem_cons_of_mem _ hitem)
    rw [List.map_cons, ← List.singleton_append, heldBy_append, hrest, Held.item, heldBy_event,
      List.map_cons, List.filter_cons, hlabel]
    by_cases hr : env.registrationId e.bind = r
    · simp [hr]
    · simp [hr]

/-- Events of ascending slots carry the ids of the set in its order, each once at most. -/
theorem sublist_of_slots (base : Nat) {ids : List IdToken} {held : List (Held β)}
    (hordered : held.Pairwise fun e e' => e.slot < e'.slot)
    (hids : ∀ e ∈ held, base ≤ e.slot ∧ ids[e.slot - base]? = some e.event.registrationId) :
    ((held.map Held.event).map WaitEvent.registrationId).Sublist ids := by
  induction ids generalizing base held with
  | nil =>
    cases held with
    | nil => exact .slnil
    | cons e rest => exact absurd (hids e List.mem_cons_self).2 (by simp)
  | cons id ids ih =>
    cases held with
    | nil => exact List.nil_sublist _
    | cons e rest =>
      obtain ⟨hlater, hrest⟩ := List.pairwise_cons.mp hordered
      obtain ⟨hle, hid⟩ := hids e List.mem_cons_self
      -- Every later slot is one of the later ids.
      have hshift : ∀ e' : Held β, base + 1 ≤ e'.slot →
          (id :: ids)[e'.slot - base]? = ids[e'.slot - (base + 1)]? := by
        intro e' hle'
        obtain ⟨k, hk⟩ := Nat.exists_eq_add_of_le hle'
        have hbase : e'.slot - base = k + 1 := by omega
        have hsucc : e'.slot - (base + 1) = k := by omega
        rw [hbase, hsucc, List.getElem?_cons_succ]
      rcases Nat.eq_or_lt_of_le hle with heq | hlt
      · have hfirst : id = e.event.registrationId := by
          rw [← heq, Nat.sub_self] at hid
          exact Option.some.inj hid
        rw [List.map_cons, List.map_cons, hfirst]
        refine List.Sublist.cons_cons _ (ih (base + 1) hrest fun e' he' => ?_)
        have hle' : base + 1 ≤ e'.slot := by
          have hlt' := hlater e' he'
          omega
        exact ⟨hle', (hshift e' hle').symm.trans (hids e' (List.mem_cons_of_mem _ he')).2⟩
      · refine List.Sublist.cons _ (ih (base + 1) hordered fun e' he' => ?_)
        have hle' : base + 1 ≤ e'.slot := by
          rcases List.mem_cons.mp he' with rfl | he'
          · exact hlt
          · have hlt' := hlater e' he'
            omega
        exact ⟨hle', (hshift e' hle').symm.trans (hids e' he').2⟩

/-- **A follow delivers exactly once.** Under the FIFO assumption, with a sink that only lets events
arrive, and whatever ends the session: for each registration, the events handed to the sink,
followed by the queue, are what the queue was, followed by what has arrived. What was handed over is
what the sink took, and the burst it answered `Err` to if it did. Every burst holds at most one event
of a registration, in the order of the registrations. -/
theorem delivers_once {sink : Sink σ FollowBurst ξ} {set : RegistrationSet}
    {request : LiveWaitRequest} (fifo : FifoObserver env)
    (hsink : QuietSink fifo.toQueuedObserver sink)
    (hids : (set.registrations.map Registration.registrationId).Nodup) (fuel : Nat)
    {w w' : World σ β} {delivery : Delivery FollowBurst} {result : Except Error FollowEnd}
    (hrun : runFollow env sink set request fuel w = some ((delivery, result), w')) :
    (∀ r, Custody (fifo.view r) w.host
      (((delivery.sunk ++ delivery.refused.toList).flatMap FollowBurst.events).filter
        fun event => event.registrationId = r) w'.host) ∧
    (delivery.refused.isSome → SinkErrs sink) ∧
    ∀ burst ∈ delivery.sunk ++ delivery.refused.toList,
      (burst.events.map WaitEvent.registrationId).Sublist
        (set.registrations.map Registration.registrationId) := by
  have hstopped : ∀ r, Stopped (custodyLedger hids fifo.toQueuedObserver r w.host) sink delivery w' :=
    fun r => runFollow_spec (hsink.keeps hids r w.host) (fifo.not_rejected) set request fuel rfl w
      (CustodyOwn.start w) _ w' hrun
  refine ⟨fun r => ?_, (hstopped "").1, fun burst hburst => ?_⟩
  · obtain ⟨-, bursts, hdelivered, hat, hcustody⟩ := hstopped r
    rw [heldBy_items hat, ← hdelivered.flatMap_events] at hcustody
    exact hcustody
  · obtain ⟨-, bursts, hdelivered, hat, -⟩ := hstopped ""
    -- The burst as owned events, each at the slot of its registration.
    have hmem : burst.events ∈ bursts.map fun burst => burst.map Held.event := by
      rw [hdelivered.events]
      exact List.mem_map.mpr ⟨burst, hburst, rfl⟩
    obtain ⟨held, hheld, hevents⟩ := List.mem_map.mp hmem
    rw [← hevents]
    refine sublist_of_slots 0 (hdelivered.ordered held hheld) fun e he => ?_
    have hitem := hat e.item (List.mem_map.mpr ⟨e, List.mem_flatten.mpr ⟨held, hheld, he⟩, rfl⟩)
    refine ⟨Nat.zero_le _, ?_⟩
    rw [Nat.sub_zero, hitem.2 e.slot e.bind e.event rfl]
    exact hitem.1

/-- A sink that takes every burst at once. -/
def takesAll : Sink QueueHost FollowBurst Unit where
  callStep _ s := ((), s)
  pollStep _ s := (.ready (.ok ()), s)

open Case in
/-- The events of two registrations wait; the run deadline comes after three turns. -/
def followWorld : World QueueHost ResolvedStart :=
  QueueHost.world pairWaiting (ts "2026-08-15T16:02:00Z")
    (List.replicate 6 (ts "2026-08-15T16:02:00Z") ++ [ts "2026-08-15T16:20:00Z"])

/-- Two bursts go out, and custody is kept. -/
theorem delivers_once_pair : ∃ delivery result w',
    runFollow queueEnv takesAll Case.pairSet Case.liveWaitRequest 12 followWorld
        = some ((delivery, result), w') ∧
      (delivery.sunk.map fun burst => burst.events.map WaitEvent.eventId)
        = [["evt:1", "evt:3"], ["evt:2"]] ∧
      ∀ r, Custody (queueFifo.view r) followWorld.host
        (((delivery.sunk ++ delivery.refused.toList).flatMap FollowBurst.events).filter
          fun event => event.registrationId = r) w'.host := by
  have hdone : ((runFollow queueEnv takesAll Case.pairSet Case.liveWaitRequest 12
      followWorld).any fun last =>
        (last.1.1.sunk.map fun burst => burst.events.map WaitEvent.eventId)
          == [["evt:1", "evt:3"], ["evt:2"]]) = true := by
    decide +kernel
  obtain ⟨⟨⟨delivery, result⟩, w'⟩, hrun, hsunk⟩ := exists_of_any hdone
  have hquiet : QuietSink queueFifo.toQueuedObserver takesAll :=
    ⟨fun r _ s => .refl s, fun r _ s => .refl s⟩
  exact ⟨delivery, result, w', hrun, eq_of_beq hsunk,
    (delivers_once queueFifo hquiet (by decide) 12 hrun).1⟩

end Follow

end Waitprims
