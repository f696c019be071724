import Mathlib
import Waitprims.Async.CycleBounds
import Waitprims.Async.CycleKeeps
import Waitprims.Async.CycleRetention

/-! # The first turn of a cycle whose arms are all due

Where every bind completes in its first poll and every arm has an event due, a cycle needs one turn:
the bind race ends at once, every bind is polled, and every arm is visited in fairness order. With
room for one event the arm at the start is admitted and all others are deferred.

* **`FirstReady.poll_answers`** — a race of futures that complete in their first poll.
* **`DueObserver`** — an observer with a due event on every arm.
* **`FairVisits`** — what a cycle with room for one event makes of the arms.
* **`DueObserver.cycleLoop`** — the decision of such a cycle.
* **`FairDecision.delivers`** — the outcome it assembles has the one event. -/

namespace Waitprims

namespace FirstReady

open Fueled

variable {W F T L : Type} {P : W → Prop} {Good : L → F → Prop} {Got : L → T → Prop}
  {pollFut : F → StateT W Option (Polled F T)}

/-! ## A race of futures that all complete in their first poll -/

/-- A first pass over futures that complete in one poll: unless one fails, every arm has a value. -/
theorem scanArms_answers
    (hpoll : ∀ l fut, Good l fut → Triple P (pollFut fut) fun r w =>
      P w ∧ ∃ result, r = .ready result ∧ ∀ value, result = .ok value → Got l value)
    (isTerminal : T → Bool) {labels : List L} {futures : List F}
    (hgood : List.Forall₂ Good labels futures) (scan : Scan) :
    Triple P (scanArms pollFut isTerminal (new futures) scan) fun r w =>
      P w ∧ r.2.pending = scan.pending ∧ (r.2.error = none → scan.error = none ∧
        ∃ values, List.Forall₂ Got labels values ∧
          r.1 = values.map fun value => .ready (some value)) := by
  induction hgood generalizing scan with
  | nil => exact Triple.pure fun w h => ⟨h, rfl, fun herror => ⟨herror, [], .nil, rfl⟩⟩
  | @cons l fut labels futures hfut _ ih =>
    -- what one poll leaves of the arm and the scan
    have hscan : Triple P (scanArm pollFut isTerminal (.pending fut) scan) fun r w =>
        P w ∧ r.2.pending = scan.pending ∧ (r.2.error = none → scan.error = none ∧
          ∃ value, Got l value ∧ r.1 = .ready (some value)) := by
      refine Triple.bind (hpoll l fut hfut) ?_
      rintro ((err | value) | fut')
      · refine Triple.pure fun w h => ⟨h.1, rfl, fun herror => ?_⟩
        cases hscan : scan.error <;> simp [Scan.fail, hscan] at herror
      · refine Triple.pure fun w h => ⟨h.1, rfl, fun herror => ⟨herror, value, ?_, rfl⟩⟩
        obtain ⟨-, result, hresult, hgot⟩ := h
        cases hresult
        exact hgot value rfl
      · intro w h
        obtain ⟨-, result, hresult, -⟩ := h
        cases hresult
    show Triple P (scanArms pollFut isTerminal (.pending fut :: new futures) scan) _
    unfold scanArms
    refine Triple.bind hscan ?_
    rintro ⟨arm, scan'⟩
    refine Triple.fact (fun w h => h.2) fun hstep => ?_
    refine Triple.bind ((ih scan').strengthen fun w h => h.1) ?_
    rintro ⟨arms, scan''⟩
    refine Triple.pure fun w h => ⟨h.1, h.2.1.trans hstep.1, fun herror => ?_⟩
    obtain ⟨herror', values, hvalues, harms⟩ := h.2.2 herror
    obtain ⟨herror, value, hvalue, harm⟩ := hstep.2 herror'
    refine ⟨herror, value :: values, .cons hvalue hvalues, ?_⟩
    dsimp only at harms harm ⊢
    rw [harms, harm]
    rfl

/-- A second pass over arms that all hold a value takes the values. -/
theorem collectArms_values (values : List T) (idx : Nat) (error : Option Error) :
    collectArms pollFut idx (values.map fun value => .ready (some value)) error =
      (pure (values.map fun _ => .ready none,
        ⟨(values.zipIdx idx).map fun p => (p.2, p.1), error⟩) :
          StateT W Option (List (Arm F T) × FirstReadyOutput T)) := by
  induction values generalizing idx with
  | nil => rfl
  | cons value values ih =>
    rw [List.map_cons, collectArms, ih]
    rfl

/-- **A race of futures that complete in one poll** ends in its first poll: unless one fails, with
the value of every future, in order. -/
theorem poll_answers
    (hpoll : ∀ l fut, Good l fut → Triple P (pollFut fut) fun r w =>
      P w ∧ ∃ result, r = .ready result ∧ ∀ value, result = .ok value → Got l value)
    (isTerminal : T → Bool) {labels : List L} {futures : List F}
    (hgood : List.Forall₂ Good labels futures) :
    Triple P (FirstReady.poll pollFut isTerminal (new futures)) fun r w =>
      ∃ out, r.2 = some out ∧ (out.error = none → P w ∧
        ∃ values, List.Forall₂ Got labels values ∧
          r.1 = values.map (fun _ => .ready none) ∧
          out.ready = values.zipIdx.map fun p => (p.2, p.1)) := by
  unfold FirstReady.poll
  refine Triple.bind (scanArms_answers hpoll isTerminal hgood ⟨false, false, none⟩) ?_
  rintro ⟨arms, scan⟩
  refine Triple.fact (fun w h => h.2) fun ⟨hpending, hvalues⟩ => ?_
  have hends : (scan.error.isSome || scan.terminal || !scan.pending) = true := by
    dsimp only at hpending
    rw [hpending]
    simp
  dsimp only
  rw [if_pos hends]
  cases herror : scan.error with
  | some err =>
    refine Triple.bind ((collectArms_gathered arms 0 (some err)).strengthen fun _ _ => trivial) ?_
    rintro ⟨arms', out⟩
    refine Triple.pure fun w h => ⟨out, rfl, fun hnone => ?_⟩
    cases h.error hnone
  | none =>
    obtain ⟨-, values, hgot, harms⟩ := hvalues herror
    dsimp only at harms
    rw [harms, collectArms_values]
    exact Triple.pure fun w h => ⟨_, rfl, fun _ => ⟨h.1, values, hgot, rfl, rfl⟩⟩

end FirstReady

namespace PollCycle

open Fueled

variable {σ β φ ψ : Type} {env : Env σ β φ ψ} {set : RegistrationSet} {request : PollCycleRequest}
  {due : List IdToken → σ → Prop} {ids : List IdToken}

/-! ## An observer with an event due on every arm -/

/-- An instant before both deadlines of a request, at which every lease of the set holds. -/
def InTime (set : RegistrationSet) (request : PollCycleRequest) (now : Timestamp) : Prop :=
  deadlineReached request now = false ∧ leaseExpired set now = false

/-- An event that a cycle which has admitted nothing yet admits. -/
def Fits (set : RegistrationSet) (request : PollCycleRequest) (event : WaitEvent) : Prop :=
  ((CollectBudget.new set request).tryTake event).isSome = true

/-- **An observer with a due event on every arm**, under a clock in time and a token that is not
cancelled. `due ids` holds of a host that has one for each of the registrations `ids`; a bind takes
one poll, and an arm that is polled gives an event of its registration that fits. -/
structure DueObserver (env : Env σ β φ ψ) (set : RegistrationSet) (request : PollCycleRequest)
    (due : List IdToken → σ → Prop) : Prop where
  running : ∀ {ids s}, due ids s →
    (env.isCancelledStep s).1 = false ∧ due ids (env.isCancelledStep s).2
  inTime : ∀ {ids s}, due ids s →
    InTime set request (env.nowStep s).1 ∧ due ids (env.nowStep s).2
  bind : ∀ {ids s} (registration : Registration), due ids s →
    let called := env.bindStep registration s
    let polled := env.pollBindStep called.1 called.2
    due ids polled.2 ∧ ∃ result, polled.1 = .ready result ∧
      ∀ bind, result = .ok bind → env.registrationId bind = registration.registrationId
  ready : ∀ {ids s} (bind : β), due ids s → env.registrationId bind ∈ ids →
    due (ids.erase (env.registrationId bind)) (env.pollReadyStep bind s).2 ∧
      ∃ event, (env.pollReadyStep bind s).1 = some (.event event) ∧
        event.registrationId = env.registrationId bind ∧ Fits set request event
  restored : ∀ {s} (bind : β) (obs : Observation), due [] s →
    due [] (env.restoreReadyStep bind obs s).2

/-- The host of the world has due events. -/
abbrev Dues (due : List IdToken → σ → Prop) (ids : List IdToken) (w : World σ β) : Prop :=
  due ids w.host

/-- A bind for the registration of a slot. -/
def BoundFor (env : Env σ β φ ψ) (set : RegistrationSet) (slot : Nat) (bind : β) : Prop :=
  ∃ registration, set.registrations[slot]? = some registration ∧
    env.registrationId bind = registration.registrationId

/-- A due event for the registration of a slot. -/
def DueFor (set : RegistrationSet) (request : PollCycleRequest) (slot : Nat) (event : WaitEvent) :
    Prop :=
  ∃ registration, set.registrations[slot]? = some registration ∧
    event.registrationId = registration.registrationId ∧ Fits set request event

namespace DueObserver

variable (h : DueObserver env set request due)

include h

/-! ## The bind race -/

/-- One poll of a `bind_one` that has not started completes it. -/
theorem pollBindOne (registration : Registration) :
    Triple (Dues due ids) (pollBindOne env request (.start registration)) fun r w =>
      Dues due ids w ∧ ∃ result, r = .ready result ∧
        ∀ bind, result = .ok bind → env.registrationId bind = registration.registrationId := by
  unfold PollCycle.pollBindOne
  refine Triple.bind (R := fun fut w => ∃ s, due ids s ∧
    env.bindStep registration s = (fut, w.host)) (Triple.act fun w hw => ⟨w.host, hw, rfl⟩)
    fun fut => ?_
  have hpoll : Triple (fun w : World σ β => ∃ s, due ids s ∧
      env.bindStep registration s = (fut, w.host)) (env.pollBind fut) fun answer w =>
        Dues due ids w ∧ ∃ result, answer = .ready result ∧
          ∀ bind, result = .ok bind → env.registrationId bind = registration.registrationId := by
    refine Triple.act fun w hw => ?_
    obtain ⟨s, hs, hcalled⟩ := hw
    have hbind := h.bind registration hs
    dsimp only at hbind
    rw [hcalled] at hbind
    exact hbind
  unfold PollCycle.pollBinding
  refine Triple.bind hpoll ?_
  rintro ((err | bind) | _)
  · exact Triple.pure fun w hw => ⟨hw.1, .error err, rfl, fun bind heq => by cases heq⟩
  · refine Triple.fact (fun w hw => hw.2) fun ⟨result, hresult, hid⟩ => ?_
    cases hresult
    have hrecord : Triple (Dues due ids)
        (do env.recordResolved bind; return (.ok bind : Except Error β) : Act σ β _)
        fun answer w => Dues due ids w ∧ ∀ b, answer = .ok b → b = bind := by
      refine Triple.bind (R := fun _ => Dues due ids) (Triple.act fun w hw => hw) fun _ => ?_
      exact Triple.pure fun w hw => ⟨hw, fun b hb => (Except.ok.inj hb).symm⟩
    have haccept : Triple (Dues due ids) (acceptBind env request registration bind)
        fun answer w => Dues due ids w ∧ ∀ b, answer = .ok b → b = bind := by
      unfold acceptBind
      split
      · split
        · exact Triple.pure fun w hw => ⟨hw, fun b hb => by cases hb⟩
        · exact hrecord
      · exact hrecord
    refine Triple.bind (haccept.strengthen fun w hw => hw.1) fun answer => ?_
    refine Triple.pure fun w hw => ⟨hw.1, answer, rfl, fun b hb => ?_⟩
    rw [hw.2 b hb]
    exact hid bind rfl
  · intro w hw
    obtain ⟨-, result, hresult, -⟩ := hw
    cases hresult

end DueObserver

/-- The futures of a fresh bind race, at their slots. -/
theorem bindUnbound_starts (request : PollCycleRequest) {unbound : List Nat}
    (hslots : ∀ slot ∈ unbound, slot < set.registrations.length) :
    List.Forall₂ (fun slot (fut : BindOne φ) => ∃ registration,
        set.registrations[slot]? = some registration ∧
          fut = .start (bindRegistration registration request)) unbound
      (unbound.filterMap fun idx => set.registrations[idx]?.map fun registration =>
        .start (bindRegistration registration request)) := by
  induction unbound with
  | nil => exact .nil
  | cons slot rest ih =>
    have hreg := List.getElem?_eq_getElem (hslots slot List.mem_cons_self)
    rw [List.filterMap_cons, hreg]
    exact .cons ⟨_, hreg, rfl⟩ (ih fun slot hslot => hslots slot (List.mem_cons_of_mem _ hslot))

/-- Values in order, remapped, are the values at their slots. -/
theorem remapReady_zipIdx {T : Type} (before pending : List Nat) {values : List T}
    (hlength : pending.length = values.length) :
    remapReady (before ++ pending) ((values.zipIdx before.length).map fun p => (p.2, p.1))
      = pending.zip values := by
  induction values generalizing before pending with
  | nil => rw [List.zip_nil_right]; rfl
  | cons value values ih =>
    cases pending with
    | nil => cases hlength
    | cons slot rest =>
      have hrest := ih (before ++ [slot]) rest (Nat.succ.inj hlength)
      rw [List.append_assoc, List.singleton_append, List.length_append,
        List.length_singleton] at hrest
      have hslot : (before ++ slot :: rest)[before.length]? = some slot := by simp
      rw [List.zip_cons_cons, ← hrest, List.zipIdx_cons, List.map_cons]
      unfold remapReady
      rw [List.filterMap_cons, hslot]
      rfl

/-- Nothing is dropped where nothing is pending. -/
theorem drop_taken {T F W : Type} (dropFut : F → StateT W Option Unit) (values : List T) :
    FirstReady.drop dropFut (values.map fun _ => (.ready none : Arm F T)) = pure () := by
  induction values with
  | nil => rfl
  | cons value values ih => exact ih

/-- What a race of binds reports: unless one failed, every slot has a bind. -/
def AllBound (env : Env σ β φ ψ) (set : RegistrationSet) (due : List IdToken → σ → Prop)
    (ids : List IdToken) (slots : List Nat) (out : FirstReadyOutput β) (w : World σ β) : Prop :=
  out.error = none → Dues due ids w ∧
    ∃ binds, List.Forall₂ (BoundFor env set) slots binds ∧ out.ready = slots.zip binds

namespace DueObserver

variable (h : DueObserver env set request due)

include h

/-- One poll of a fresh bind race ends it. -/
theorem pollBindUnbound {unbound : List Nat} (hne : unbound ≠ [])
    (hslots : ∀ slot ∈ unbound, slot < set.registrations.length) :
    Triple (Dues due ids) (pollBindUnbound env request unbound (bindUnbound set request unbound))
      fun r w => ∃ out, r.2 = some out ∧ AllBound env set due ids unbound out w := by
  unfold PollCycle.pollBindUnbound
  rw [if_neg (by simpa using hne)]
  have hpoll := @FirstReady.poll_answers _ _ _ _ (Dues due ids) _ (BoundFor env set)
    (PollCycle.pollBindOne env request)
    (fun slot fut hfut => by
      obtain ⟨registration, hreg, rfl⟩ := hfut
      refine (h.pollBindOne _).weaken fun r w hr => ⟨hr.1, ?_⟩
      obtain ⟨-, result, hresult, hid⟩ := hr
      refine ⟨result, hresult, fun bind hbind => ⟨registration, hreg, ?_⟩⟩
      rw [hid bind hbind, bindRegistration_registrationId])
    (fun _ => true) _ _ (bindUnbound_starts request hslots)
  refine Triple.bind hpoll ?_
  rintro ⟨arms, _ | out⟩
  · intro w hw
    obtain ⟨out, hout, -⟩ := hw
    cases hout
  · cases herror : out.error with
    | some err =>
      refine Triple.bind (Triple.vacuous.weaken fun _ _ _ => trivial) fun _ => ?_
      refine Triple.pure fun w _ => ⟨_, rfl, fun hnone => ?_⟩
      dsimp only at hnone
      rw [herror] at hnone
      cases hnone
    | none =>
      refine Triple.fact (fun w hw => ?_) fun hvalues : ∃ values,
          List.Forall₂ (BoundFor env set) unbound values ∧
          arms = values.map (fun _ => .ready none) ∧
          out.ready = values.zipIdx.map fun p => (p.2, p.1) => ?_
      · obtain ⟨out', hout, hvalues⟩ := hw
        cases hout
        exact (hvalues herror).2
      · obtain ⟨values, hbound, rfl, hready⟩ := hvalues
        dsimp only
        rw [drop_taken, pure_bind]
        refine Triple.pure fun w hw => ⟨_, rfl, fun _ => ?_⟩
        obtain ⟨out', hout, hdues⟩ := hw
        cases hout
        refine ⟨(hdues herror).1, values, hbound, ?_⟩
        dsimp only
        rw [hready]
        exact remapReady_zipIdx [] unbound hbound.length_eq

/-- The first `select!` of a cycle is won by its binds. -/
theorem selectBinding {unbound : List Nat} (hne : unbound ≠ [])
    (hslots : ∀ slot ∈ unbound, slot < set.registrations.length) (waitUntil : Timestamp)
    (fuel : Nat) :
    Triple (Dues due ids)
      (selectBinding env request unbound waitUntil fuel (bindUnbound set request unbound))
      fun winner w => ∃ out, winner = .collected out ∧ AllBound env set due ids unbound out w := by
  cases fuel with
  | zero => exact Triple.exhausted
  | succ fuel =>
    unfold PollCycle.selectBinding
    refine Triple.bind (h.pollBindUnbound hne hslots) ?_
    rintro ⟨binding, _ | out⟩
    · intro w hw
      obtain ⟨out, hout, -⟩ := hw
      cases hout
    · refine Triple.pure fun w hw => ?_
      obtain ⟨out', hout, hbound⟩ := hw
      cases hout
      exact ⟨out, rfl, hbound⟩

/-! ## Polling the binds -/

/-- An arm that is polled gives its due event. -/
theorem pollReady {bind : β} (hbind : env.registrationId bind ∈ ids) :
    Triple (Dues due ids) (env.pollReady bind) fun answer w =>
      Dues due (ids.erase (env.registrationId bind)) w ∧
        ∃ event, answer = some (.event event) ∧
          event.registrationId = env.registrationId bind ∧ Fits set request event := by
  have hhost : Triple (Dues due ids) (Act.host (env.pollReadyStep bind) : Act σ β _)
      fun answer w => Dues due (ids.erase (env.registrationId bind)) w ∧
        ∃ event, answer = some (.event event) ∧
          event.registrationId = env.registrationId bind ∧ Fits set request event :=
    Triple.act fun w hw => h.ready bind hw hbind
  unfold Env.pollReady
  refine Triple.bind hhost fun answer => ?_
  refine Triple.bind (R := fun _ w => Dues due (ids.erase (env.registrationId bind)) w ∧
    ∃ event, answer = some (.event event) ∧
      event.registrationId = env.registrationId bind ∧ Fits set request event)
    (Triple.act fun w hw => hw) fun _ => ?_
  exact Triple.pure fun w hw => hw

/-- Polling each bind that has nothing ready gives each its due event. -/
theorem extendReadyRefs {refs : List (Nat × β)} {ready : List (Nat × Observation)}
    (hkeys : (ready.map Prod.fst ++ refs.map Prod.fst).Nodup) :
    Triple (Dues due (refs.map fun p => env.registrationId p.2)) (extendReadyRefs env refs ready)
      fun ready' w => Dues due [] w ∧ ∃ events : List WaitEvent,
        List.Forall₂ (fun p event => event.registrationId = env.registrationId p.2 ∧
          Fits set request event) refs events ∧
        ready' = ready ++ (refs.map Prod.fst).zip (events.map Observation.event) := by
  induction refs generalizing ready with
  | nil => exact Triple.pure fun w hw => ⟨hw, [], .nil, (List.append_nil ready).symm⟩
  | cons p rest ih =>
    obtain ⟨slot, bind⟩ := p
    have hnew : ¬ (ready.any fun p => p.1 == slot) = true := by
      intro hany
      obtain ⟨p, hp, hslot⟩ := List.any_eq_true.mp hany
      have hdisjoint := (List.nodup_append.mp hkeys).2.2
      exact hdisjoint p.1 (List.mem_map_of_mem hp) slot List.mem_cons_self (beq_iff_eq.mp hslot)
    unfold PollCycle.extendReadyRefs
    rw [if_neg hnew]
    refine Triple.bind (h.pollReady List.mem_cons_self) ?_
    rintro (_ | obs)
    · intro w hw
      obtain ⟨-, event, hevent, -⟩ := hw
      cases hevent
    · refine Triple.fact (fun w hw => hw.2) fun hanswer => ?_
      obtain ⟨event, hevent, hid, hfits⟩ := hanswer
      cases hevent
      have hkeys' : ((ready ++ [(slot, Observation.event event)]).map Prod.fst ++
          rest.map Prod.fst).Nodup := by
        simpa using hkeys
      refine ((ih hkeys').strengthen fun w hw => ?_).weaken fun ready' w hr => ?_
      · have hdues := hw.1
        rwa [List.map_cons, List.erase_cons_head] at hdues
      · obtain ⟨hdues, events, hevents, rfl⟩ := hr
        exact ⟨hdues, event :: events, .cons ⟨hid, hfits⟩ hevents, by simp⟩

end DueObserver

variable {bound : List (Option β)} {visits : Visits} {resolved : List ResolvedStart}
  {outcome : PollCycleOutcome}

/-! ## The binds of all slots -/

/-- What holds of each pair of two lists is found beside the first of the pair. -/
theorem forall₂_zip {α γ : Type} {R : α → γ → Prop} {l : List α} {l' : List γ}
    (h : List.Forall₂ R l l') {a : α} (ha : a ∈ l) : ∃ b, (a, b) ∈ l.zip l' ∧ R a b := by
  induction h with
  | nil => cases ha
  | @cons b c l l' hbc _ ih =>
    rcases List.mem_cons.mp ha with rfl | ha
    · exact ⟨c, List.mem_cons_self, hbc⟩
    · obtain ⟨d, hd, had⟩ := ih ha
      exact ⟨d, List.mem_cons_of_mem _ hd, had⟩

/-- A bind that was stored is found in its slot. -/
theorem storeBinds_mem {ready : List (Nat × β)} (hkeys : (ready.map Prod.fst).Nodup)
    (hslots : ∀ p ∈ ready, p.1 < bound.length) {slot : Nat} {bind : β} (h : (slot, bind) ∈ ready) :
    (storeBinds bound ready)[slot]?.join = some bind := by
  induction ready generalizing bound with
  | nil => cases h
  | cons p rest ih =>
    rw [List.map_cons, List.nodup_cons] at hkeys
    have hstep : storeBinds bound (p :: rest) = storeBinds (bound.set p.1 (some p.2)) rest := rfl
    rcases List.mem_cons.mp h with rfl | h
    · rw [hstep, storeBinds_getElem?_of_notMem hkeys.1,
        List.getElem?_set_self (hslots _ List.mem_cons_self)]
      rfl
    · rw [hstep]
      refine ih hkeys.2 (fun q hq => ?_) h
      rw [List.length_set]
      exact hslots q (List.mem_cons_of_mem _ hq)

/-- **Every slot is bound** for its registration. -/
def EverySlotBound (env : Env σ β φ ψ) (set : RegistrationSet) (bound : List (Option β)) : Prop :=
  ∀ slot < set.registrations.length, ∃ bind, bound[slot]?.join = some bind ∧
    BoundFor env set slot bind

/-- A race that reports a bind for every slot binds every slot. -/
theorem everySlotBound_storeBinds {slots : List Nat} {binds : List β}
    (hslots : slots.Perm (List.range set.registrations.length))
    (hlength : bound.length = set.registrations.length)
    (hbinds : List.Forall₂ (BoundFor env set) slots binds) :
    EverySlotBound env set (storeBinds bound (slots.zip binds)) := by
  have hmap : (slots.zip binds).map Prod.fst = slots := List.map_fst_zip hbinds.length_eq.le
  have hkeys : ((slots.zip binds).map Prod.fst).Nodup := by
    rw [hmap]
    exact hslots.nodup_iff.mpr List.nodup_range
  intro slot hslot
  obtain ⟨bind, hmem, hbound⟩ := forall₂_zip hbinds (hslots.mem_iff.mpr (List.mem_range.mpr hslot))
  refine ⟨bind, storeBinds_mem hkeys (fun p hp => ?_) hmem, hbound⟩
  have hfst : p.1 ∈ slots := by
    rw [← hmap]
    exact List.mem_map_of_mem hp
  rw [hlength]
  exact List.mem_range.mp (hslots.mem_iff.mp hfst)

/-- The entries of a list by their positions. -/
theorem filterMap_range_getElem? {α γ : Type} (l : List α) (f : α → γ) :
    ((List.range l.length).filterMap fun i => l[i]?.map f) = l.map f := by
  induction l using List.reverseRecOn with
  | nil => rfl
  | append_singleton l a ih =>
    rw [List.length_append, List.length_singleton, List.range_succ, List.filterMap_append,
      List.map_append, ← ih]
    congr 1
    · refine List.filterMap_congr fun i hi => ?_
      rw [List.getElem?_append_left (List.mem_range.mp hi)]
    · simp

/-- The binds of bound slots, and the registrations they are for. -/
theorem pendingRefs_bound {slots : List Nat}
    (h : ∀ slot ∈ slots, ∃ bind, bound[slot]?.join = some bind ∧ BoundFor env set slot bind) :
    (pendingRefs bound slots).map Prod.fst = slots ∧
      ((pendingRefs bound slots).map fun p => env.registrationId p.2) =
        slots.filterMap fun slot => set.registrations[slot]?.map Registration.registrationId := by
  induction slots with
  | nil => exact ⟨rfl, rfl⟩
  | cons slot rest ih =>
    obtain ⟨hfst, hids⟩ := ih fun slot hslot => h slot (List.mem_cons_of_mem _ hslot)
    obtain ⟨bind, hbind, registration, hreg, hid⟩ := h slot List.mem_cons_self
    have hcons : pendingRefs bound (slot :: rest) = (slot, bind) :: pendingRefs bound rest := by
      unfold pendingRefs
      rw [List.filterMap_cons, hbind]
      rfl
    rw [hcons, List.map_cons, List.map_cons, hfst, hids, List.filterMap_cons, hreg]
    exact ⟨rfl, congrArg (· :: _) hid⟩

/-- The occupied slots are all slots, in registration order. -/
theorem EverySlotBound.refs (h : EverySlotBound env set bound)
    (hlength : bound.length = set.registrations.length) :
    (occupiedRefs bound).map Prod.fst = List.range set.registrations.length ∧
      ((occupiedRefs bound).map fun p => env.registrationId p.2) =
        set.registrations.map Registration.registrationId := by
  have hall : ∀ slot ∈ List.range bound.length, ∃ bind, bound[slot]?.join = some bind ∧
      BoundFor env set slot bind := fun slot hslot => h slot (hlength ▸ List.mem_range.mp hslot)
  obtain ⟨hfst, hids⟩ := pendingRefs_bound hall
  rw [hlength] at hfst hids
  unfold occupiedRefs
  rw [hlength]
  exact ⟨hfst, hids.trans (filterMap_range_getElem? set.registrations _)⟩

/-! ## Visits within a budget of one event -/

/-- A budget with room for one event is full once it has taken one. -/
theorem tryTake_one {event : WaitEvent} {budget budget' : CollectBudget}
    (hone : budget.maxEvents = 1) (h : budget.tryTake event = some budget') :
    budget'.maxEvents = 1 ∧ budget'.roomForAnotherEvent = false := by
  obtain ⟨hroom, -, -, rfl⟩ := CollectBudget.tryTake_eq_some h
  have hzero : budget.events = 0 := by
    unfold CollectBudget.roomForRegistration CollectBudget.roomForAnotherEvent at hroom
    simp only [Bool.and_eq_true, decide_eq_true_eq] at hroom
    omega
  have hevents : (budget.take event).events = 1 := by
    show saturatingAdd budget.events 1 = 1
    rw [hzero]
    rfl
  have hmax : (budget.take event).maxEvents = 1 := hone
  refine ⟨hmax, ?_⟩
  unfold CollectBudget.roomForAnotherEvent
  rw [hevents, hmax]
  rfl

/-- A budget that takes an event is not exhausted. -/
theorem not_exhausted_of_tryTake {event : WaitEvent} {budget budget' : CollectBudget}
    (h : budget.tryTake event = some budget') : budget.exhausted = false := by
  have hroom := (CollectBudget.tryTake_eq_some h).1
  unfold CollectBudget.roomForRegistration at hroom
  rw [Bool.and_eq_true] at hroom
  unfold CollectBudget.exhausted
  rw [hroom.1]
  rfl

/-- **What fair visits look like**: the arm at the start holds its due event and is saturated, every
other arm is deferred. -/
structure FairVisits (set : RegistrationSet) (request : PollCycleRequest) (visits : Visits)
    (event : WaitEvent) : Prop where
  size : visits.size = set.registrations.length
  due : DueFor set request (fairnessStartIndex set request % set.registrations.length) event
  start : visits[fairnessStartIndex set request % set.registrations.length]?
    = some (.saturated [event])
  others : ∀ idx < set.registrations.length,
    idx ≠ fairnessStartIndex set request % set.registrations.length → visits[idx]? = some .deferred

/-- The fairness order begins at its start. -/
theorem fairnessOrder_start (request : PollCycleRequest) (hset : set.registrations ≠ []) : ∃ rest,
    fairnessOrder set request =
      (fairnessStartIndex set request % set.registrations.length) :: rest := by
  obtain ⟨m, hm⟩ := Nat.exists_eq_succ_of_ne_zero
    (fun hzero => hset (List.length_eq_zero_iff.mp hzero))
  unfold fairnessOrder
  dsimp only
  rw [hm, List.range_succ_eq_map, List.map_cons, Nat.add_zero]
  exact ⟨_, rfl⟩

/-- The first visit of a cycle with room for one event takes it. -/
theorem visitReady_first (hone : (CollectBudget.new set request).maxEvents = 1) (bind : β)
    (fuel : Nat) {event : WaitEvent} (hfits : Fits set request event) :
    ETriple (Dues due ids)
      (visitReady env (some bind) fuel (CollectBudget.new set request) (.event event))
      (fun r w => r.1 = .saturated [event] ∧ r.2.exhausted = true ∧ Dues due ids w) Lost := by
  obtain ⟨budget, htake⟩ := Option.isSome_iff_exists.mp hfits
  have hroom := (tryTake_one hone htake).2
  have hdrain : drainReady env bind fuel budget [event] = pure (true, budget, [event]) := by
    unfold drainReady
    rw [if_pos (by simp [CollectBudget.roomForRegistration, hroom])]
  unfold visitReady
  rw [if_neg (by rw [not_exhausted_of_tryTake htake]; simp)]
  unfold visitFrom
  dsimp only
  rw [htake]
  dsimp only
  unfold visitAdmitted
  dsimp only
  rw [hdrain]
  refine ETriple.bind (R := fun _ => Dues due ids)
    (ETriple.lift (Triple.act fun w hw => hw)) fun _ => ?_
  refine ETriple.pure fun w hw => ⟨rfl, ?_, hw⟩
  unfold CollectBudget.exhausted
  dsimp only
  rw [hroom]
  rfl

namespace DueObserver

variable (h : DueObserver env set request due)

include h

/-- Handing an observation back leaves the due events. -/
theorem restoreObservation (bind : Option β) (obs : Observation) :
    ETriple (Dues due []) (restoreObservation env bind obs) (fun _ => Dues due []) Lost := by
  cases bind with
  | none => exact ETriple.pure fun _ hw => hw
  | some bind =>
    have hrestore : Triple (Dues due []) (env.restoreReady bind obs) fun _ => Dues due [] := by
      unfold Env.restoreReady
      refine Triple.bind (R := fun _ => Dues due [])
        (Triple.act fun w hw => h.restored bind obs hw) fun answer => ?_
      refine Triple.bind (R := fun _ => Dues due []) (Triple.act fun w hw => hw) fun _ => ?_
      exact Triple.pure fun w hw => hw
    refine hrestore.weaken ?_
    rintro (err | _) w hw
    · trivial
    · exact hw

theorem restoreEach (binds : List (Option β)) (ready : List (Nat × Observation)) :
    ETriple (Dues due []) (restoreEach env binds ready) (fun _ => Dues due []) Lost := by
  induction ready with
  | nil => exact ETriple.pure fun _ hw => hw
  | cons p rest ih => exact ETriple.bind (h.restoreObservation _ p.2) fun _ => ih

/-- A full cycle defers every arm that is ready. -/
theorem visitEach_full (binds : List (Option β)) (fuel : Nat) {order : List Nat} (rec : Recording)
    (hfull : rec.budget.exhausted = true) (horder : order.Nodup)
    (hnew : ∀ idx ∈ order, idx ∉ rec.visits)
    (hready : ∀ idx ∈ order, ∃ event, rec.readyMap[idx]? = some (.event event)) :
    ETriple (Dues due []) (visitEach env binds fuel order rec) (fun r w => Dues due [] w ∧
      r.visits.size = rec.visits.size + order.length ∧
      (∀ idx ∈ order, r.visits[idx]? = some .deferred) ∧
      ∀ idx, idx ∉ order → r.visits[idx]? = rec.visits[idx]?) Lost := by
  induction order generalizing rec with
  | nil => exact ETriple.pure fun w hw => ⟨hw, rfl, fun _ hidx => (nomatch hidx), fun _ _ => rfl⟩
  | cons idx rest ih =>
    rw [List.nodup_cons] at horder
    obtain ⟨event, hevent⟩ := hready idx List.mem_cons_self
    have hvisit : ETriple (Dues due [])
        (visitReady env binds[idx]?.join fuel rec.budget (.event event))
        (fun r w => r = (.deferred, rec.budget) ∧ Dues due [] w) Lost := by
      unfold visitReady
      rw [if_pos (by rw [hfull]; rfl)]
      have hdefer : ETriple (Dues due []) (deferReady env binds[idx]?.join (.event event))
          (fun visit w => visit = .deferred ∧ Dues due [] w) Lost :=
        ETriple.bind (h.restoreObservation _ _) fun _ => ETriple.pure fun w hw => ⟨rfl, hw⟩
      exact ETriple.bind hdefer fun visit => ETriple.pure fun w hw => ⟨by rw [hw.1], hw.2⟩
    unfold visitEach
    rw [if_neg (hnew idx List.mem_cons_self), hevent]
    refine ETriple.bind hvisit ?_
    rintro ⟨visit, budget⟩
    refine ETriple.fact (fun w hw => hw.1) fun heq => ?_
    obtain ⟨rfl, rfl⟩ := Prod.mk.inj heq
    refine ETriple.bind (R := fun _ => Dues due [])
      (ETriple.lift (Triple.act fun w hw => hw.2)) fun _ => ?_
    have hne : ∀ idx' ∈ rest, idx ≠ idx' := fun idx' hidx' heq => horder.1 (heq ▸ hidx')
    refine (ih ⟨rec.visits.insert idx .deferred, rec.budget, rec.readyMap.erase idx⟩ hfull
      horder.2 (fun idx' hidx' => ?_) fun idx' hidx' => ?_).weaken fun r w hr => ?_
    · have hold := hnew idx' (List.mem_cons_of_mem _ hidx')
      simpa [Std.ExtTreeMap.mem_insert, hne idx' hidx'] using hold
    · obtain ⟨event', hevent'⟩ := hready idx' (List.mem_cons_of_mem _ hidx')
      refine ⟨event', ?_⟩
      rw [TreeMap.lookup_erase, if_neg (hne idx' hidx'), hevent']
    · obtain ⟨hdues, hsize, hdeferred, hkept⟩ := hr
      refine ⟨hdues, ?_, fun idx' hidx' => ?_, fun idx' hidx' => ?_⟩
      · have hfresh : ¬ rec.visits.contains idx = true := by
          simpa using hnew idx List.mem_cons_self
        rw [hsize, Std.ExtTreeMap.size_insert, if_neg hfresh, List.length_cons]
        omega
      · rcases List.mem_cons.mp hidx' with rfl | hidx'
        · rw [hkept _ horder.1, TreeMap.lookup_insert, if_pos rfl]
        · exact hdeferred idx' hidx'
      · rw [List.mem_cons, not_or] at hidx'
        rw [hkept idx' hidx'.2, TreeMap.lookup_insert, if_neg (Ne.symm hidx'.1)]

/-- **The visits of a cycle with room for one event** are fair. -/
theorem visitEach_fair (hset : set.registrations ≠ [])
    (hone : (CollectBudget.new set request).maxEvents = 1)
    (hbound : EverySlotBound env set bound) (fuel : Nat) {readyMap : BTreeMap Nat Observation}
    (hready : ∀ idx < set.registrations.length, ∃ event, readyMap[idx]? = some (.event event) ∧
      DueFor set request idx event) :
    ETriple (Dues due [])
      (visitEach env bound fuel (fairnessOrder set request)
        ⟨∅, CollectBudget.new set request, readyMap⟩)
      (fun r w => Dues due [] w ∧ ∃ event, FairVisits set request r.visits event) Lost := by
  obtain ⟨rest, horder⟩ := fairnessOrder_start request hset
  have hnodup := nodup_fairnessOrder set request
  have hmem : ∀ idx, idx ∈ fairnessOrder set request ↔ idx < set.registrations.length :=
    fun idx => mem_fairnessOrder
  have hlength : (fairnessOrder set request).length = set.registrations.length := by
    rw [(fairnessOrder_perm set request).length_eq, List.length_range]
  rw [horder] at hnodup hmem hlength ⊢
  set first := fairnessStartIndex set request % set.registrations.length with hfirst
  rw [List.nodup_cons] at hnodup
  have hslot : first < set.registrations.length := (hmem first).mp List.mem_cons_self
  obtain ⟨event, hevent, hdue⟩ := hready first hslot
  obtain ⟨bind, hbind, -⟩ := hbound first hslot
  have hfits : Fits set request event := hdue.choose_spec.2.2
  unfold visitEach
  rw [if_neg Std.ExtTreeMap.not_mem_empty, hevent]
  dsimp only
  rw [hbind]
  refine ETriple.bind (visitReady_first hone bind fuel hfits) ?_
  rintro ⟨visit, budget⟩
  refine ETriple.fact (p := visit = .saturated [event] ∧ budget.exhausted = true)
    (fun w hw => ⟨hw.1, hw.2.1⟩) fun hfirst => ?_
  obtain ⟨rfl, hfull⟩ := hfirst
  refine ETriple.bind (R := fun _ => Dues due [])
    (ETriple.lift (Triple.act fun w hw => hw.2.2)) fun _ => ?_
  have hne : ∀ idx ∈ rest, first ≠ idx := fun idx hidx heq => hnodup.1 (heq ▸ hidx)
  refine (h.visitEach_full bound fuel ⟨_, budget, readyMap.erase first⟩ hfull hnodup.2
    (fun idx hidx => ?_) fun idx hidx => ?_).weaken fun r w hr => ?_
  · simp [Std.ExtTreeMap.mem_insert, hne idx hidx]
  · obtain ⟨event', hevent', -⟩ := hready idx ((hmem idx).mp (List.mem_cons_of_mem _ hidx))
    refine ⟨event', ?_⟩
    rw [TreeMap.lookup_erase, if_neg (hne idx hidx), hevent']
  · obtain ⟨hdues, hsize, hdeferred, hkept⟩ := hr
    refine ⟨hdues, event, ⟨?_, hdue, ?_, fun idx hidx hother => ?_⟩⟩
    · rw [List.length_cons] at hlength
      rw [hsize, Std.ExtTreeMap.size_insert, if_neg (by simp), ← hlength]
      simp
      omega
    · rw [hkept first hnodup.1, TreeMap.lookup_insert, if_pos rfl]
    · rcases List.mem_cons.mp ((hmem idx).mpr hidx) with rfl | hidx
      · exact absurd rfl hother
      · exact hdeferred idx hidx

end DueObserver

/-! ## What fair visits are assembled to -/

/-- The visits of the registrations: one is saturated with the event, the others are deferred. -/
theorem FairVisits.visited {event : WaitEvent} (h : FairVisits set request visits event) :
    (∀ p ∈ visited set request visits,
      p.2 = some (.saturated [event]) ∨ p.2 = some .deferred) ∧
    ∃ p ∈ PollCycle.visited set request visits, p.2 = some (.saturated [event]) := by
  constructor
  · rintro ⟨registration, visit⟩ hp
    obtain ⟨idx, hreg, rfl⟩ := mem_visited.mp hp
    by_cases hidx : idx = fairnessStartIndex set request % set.registrations.length
    · rw [hidx]
      exact Or.inl h.start
    · exact Or.inr (h.others idx (List.getElem?_eq_some_iff.mp hreg).1 hidx)
  · obtain ⟨registration, hreg, -⟩ := h.due
    exact ⟨(registration, _), mem_visited.mpr ⟨_, hreg, rfl⟩, h.start⟩

/-- Fair visits make a partial result: the arm at the start had to stop. -/
theorem FairVisits.kind {event : WaitEvent} (h : FairVisits set request visits event)
    (atLogical : Bool) : ((tally set request visits).kind atLogical).1 = .partialResult := by
  obtain ⟨hall, p, hp, hsaturated⟩ := h.visited
  have hoverflow : (tally set request visits).overflow = false := by
    rw [tally_overflow, List.any_eq_false]
    intro q hq
    rcases hall q hq with hvisit | hvisit <;> simp [hvisit]
  have hdirty : (tally set request visits).dirty = false := by
    rw [tally_dirty, List.any_eq_false]
    intro q hq
    rcases hall q hq with hvisit | hvisit <;> simp [hvisit, ArmVisit.isDirty]
  have hfailed : (tally set request visits).failed = none := by
    rw [← Option.not_isSome_iff_eq_none, tally_failed, Bool.not_eq_true, List.any_eq_false]
    intro q hq
    rcases hall q hq with hvisit | hvisit <;> simp [hvisit, ArmVisit.isFailed]
  have htruncated : (tally set request visits).truncated = true := by
    rw [tally_truncated, List.any_eq_true]
    exact ⟨p, hp, by rw [hsaturated]; rfl⟩
  have hevents : (tally set request visits).events.isEmpty = false := by
    have hmem : event ∈ (tally set request visits).events := by
      rw [tally_events, List.mem_flatMap]
      exact ⟨p, hp, by rw [hsaturated]; exact List.mem_cons_self⟩
    cases hlist : (tally set request visits).events with
    | nil =>
      rw [hlist] at hmem
      cases hmem
    | cons e rest => rfl
  unfold Tally.kind
  rw [hoverflow, hdirty, hfailed, hevents, htruncated]
  simp

/-- One entry gives one value and the others give none. -/
theorem flatMap_filterMap_single {α γ δ : Type} {l : List α} (key : α → Nat) {f : α → Option γ}
    {g : γ → List δ} {a : α} {c : γ} {d : δ} (hkeys : (l.map key).Nodup) (ha : a ∈ l)
    (hf : f a = some c) (hg : g c = [d])
    (hothers : ∀ b ∈ l, key b ≠ key a → ∀ e, f b = some e → g e = []) :
    (l.filterMap f).flatMap g = [d] := by
  obtain ⟨l₁, l₂, rfl⟩ := List.append_of_mem ha
  rw [List.map_append, List.map_cons, List.nodup_append, List.nodup_cons] at hkeys
  obtain ⟨-, ⟨hafter, -⟩, hbefore⟩ := hkeys
  have hnone : ∀ l' : List α, (∀ b ∈ l', b ∈ l₁ ++ a :: l₂ ∧ key b ≠ key a) →
      (l'.filterMap f).flatMap g = [] := by
    intro l' hl'
    refine List.flatMap_eq_nil_iff.mpr fun e he => ?_
    obtain ⟨b, hb, hfb⟩ := List.mem_filterMap.mp he
    exact hothers b (hl' b hb).1 (hl' b hb).2 e hfb
  rw [List.filterMap_append, List.flatMap_append, List.filterMap_cons, hf]
  dsimp only
  rw [List.flatMap_cons, hg, hnone l₁ fun b hb => ⟨List.mem_append_left _ hb, fun heq =>
      hbefore (key b) (List.mem_map_of_mem hb) (key a) List.mem_cons_self heq⟩,
    hnone l₂ fun b hb => ⟨List.mem_append_right _ (List.mem_cons_of_mem _ hb), fun heq =>
      hafter (heq ▸ List.mem_map_of_mem hb)⟩]
  rfl

/-- **Fair visits deliver one event**, that of the arm at the start. -/
theorem FairVisits.delivers {event : WaitEvent} (h : FairVisits set request visits event)
    (hstart : ∃ start ∈ resolved, start.registrationId = event.registrationId) :
    (armRows set request resolved visits .partialResult).flatMap ArmRow.events = [event] := by
  set first := fairnessStartIndex set request % set.registrations.length with hfirst
  obtain ⟨registration, hreg, hid, -⟩ := h.due
  have hlt := (List.getElem?_eq_some_iff.mp hreg).1
  have hhonest : ∃ anchor, honestStart resolved request registration = some anchor := by
    unfold honestStart
    have hfound : (resolved.find? fun item =>
        item.registrationId == registration.registrationId).isSome = true := by
      rw [List.find?_isSome]
      obtain ⟨start, hmem, hsame⟩ := hstart
      exact ⟨start, hmem, by rw [hsame, hid, beq_self_eq_true]⟩
    obtain ⟨item, hitem⟩ := Option.isSome_iff_exists.mp hfound
    exact ⟨item.start, by rw [hitem]⟩
  obtain ⟨anchor, hanchor⟩ := hhonest
  have harm : first < (armIds set request).length := by rwa [length_armIds]
  have hrow : ∃ row, armRow request resolved visits .partialResult first
      ((armIds set request)[first]) registration = some row := by
    unfold armRow
    rw [hanchor]
    exact ⟨_, rfl⟩
  obtain ⟨row, hrow⟩ := hrow
  refine flatMap_filterMap_single Prod.snd
    (a := (((armIds set request)[first], registration), first)) (c := row) ?_ ?_ hrow ?_ ?_
  · rw [List.zipIdx_map_snd]
    exact List.nodup_range'
  · exact List.mem_zipIdx_iff_getElem?.mpr
      (List.getElem?_zip_eq_some.mpr ⟨List.getElem?_eq_getElem harm, hreg⟩)
  · rw [(armRow_retained hrow).1, h.start]
    rfl
  · rintro ⟨⟨armId, registration'⟩, idx⟩ hmem hne row' hrow'
    obtain ⟨-, hreg'⟩ := List.getElem?_zip_eq_some.mp (List.mem_zipIdx_iff_getElem?.mp hmem)
    rw [(armRow_retained hrow').1, h.others idx (List.getElem?_eq_some_iff.mp hreg').1 hne]
    rfl

/-! ## One turn -/

/-- **A fair decision**: a fault, or a complete cycle in time with fair visits, over starts that
have one of the arm at the start. -/
def FairDecision (set : RegistrationSet) (request : PollCycleRequest) (visits : Visits)
    (decision : Decision) : Prop :=
  (∃ err, decision = .fault err) ∨
    ∃ now starts event, decision = .complete now starts ∧ InTime set request now ∧
      FairVisits set request visits event ∧
      ∃ start ∈ starts, start.registrationId = event.registrationId

/-- A fair decision that returns an outcome delivers the event of the arm at the start. -/
theorem FairDecision.delivers {decision : Decision} (h : FairDecision set request visits decision)
    (hauthn : authnMissing set request.verificationReceiptRef = false)
    (houtcome : decision.outcome set request visits = .ok outcome) :
    ∃ event, DueFor set request (fairnessStartIndex set request % set.registrations.length) event ∧
      outcome.events = [event] := by
  rcases h with ⟨err, rfl⟩ | ⟨now, starts, event, rfl, htime, hfair, hstart⟩
  · cases houtcome
  · refine ⟨event, hfair.due, ?_⟩
    obtain ⟨built, hbuild, rfl⟩ := assemble_eq_ok houtcome
    rw [hfair.kind] at hbuild
    obtain ⟨hkind, hnow, hevents, -⟩ := build_parts hbuild
    have hposture : applyPosture set request built = built := by
      unfold applyPosture
      rw [hkind, hnow, htime.2, hauthn]
      rfl
    rw [hposture, hevents]
    exact hfair.delivers hstart

namespace DueObserver

variable (h : DueObserver env set request due)

include h

/-- **Recording what every arm has ready** in a cycle with room for one event. -/
theorem recordReady (hset : set.registrations ≠ [])
    (hone : (CollectBudget.new set request).maxEvents = 1)
    (hbound : EverySlotBound env set bound) (fuel : Nat) {ready : List (Nat × Observation)}
    (hkeys : (ready.map Prod.fst).Nodup)
    (hready : ∀ slot < set.registrations.length, ∃ event : WaitEvent,
      (slot, .event event) ∈ ready ∧ DueFor set request slot event) :
    ETriple (Dues due [])
      (recordReady env set request bound fuel (CollectBudget.new set request) ∅ ready)
      (fun r w => Dues due [] w ∧ ∃ event, FairVisits set request r.2 event) Lost := by
  unfold PollCycle.recordReady
  have hgather : gatherReady env bound ready ∅ = _ :=
    gatherReady_eq hkeys fun p _ => Std.ExtTreeMap.not_mem_empty
  rw [hgather, pure_bind]
  set readyMap : BTreeMap Nat Observation := TreeMap.collectMap ready with hmap
  have hlookup : ∀ idx < set.registrations.length, ∃ event, readyMap[idx]? = some (.event event) ∧
      DueFor set request idx event := by
    intro idx hidx
    obtain ⟨event, hmem, hdue⟩ := hready idx hidx
    exact ⟨event, (TreeMap.getElem?_collectMap hkeys).mpr hmem, hdue⟩
  refine ETriple.bind (h.visitEach_fair hset hone hbound fuel hlookup) fun rec => ?_
  refine ETriple.fact (fun w hw => hw.2) fun hfair => ?_
  refine ETriple.bind ((h.restoreEach bound rec.readyMap.toList).strengthen fun w hw => hw.1)
    fun _ => ?_
  exact ETriple.pure fun w hw => ⟨hw, hfair⟩

/-- The clock reads an instant in time. -/
theorem now {ids : List IdToken} :
    Triple (Dues due ids) env.now fun now w => InTime set request now ∧ Dues due ids w :=
  Triple.act fun _ hw => h.inTime hw

/-- Once every arm is visited the cycle is complete. -/
theorem recordAndCheck (hset : set.registrations ≠ [])
    (hone : (CollectBudget.new set request).maxEvents = 1) (fuel : Nat) {cycle : Cycle β}
    (hbudget : cycle.budget = CollectBudget.new set request) (hvisits : cycle.visits = ∅)
    (hbound : EverySlotBound env set cycle.bound) {starts : List ResolvedStart}
    (hstarts : ∀ registration ∈ set.registrations,
      ∃ start ∈ starts, start.registrationId = registration.registrationId)
    {ready : List (Nat × Observation)} (hkeys : (ready.map Prod.fst).Nodup)
    (hready : ∀ slot < set.registrations.length, ∃ event : WaitEvent,
      (slot, .event event) ∈ ready ∧ DueFor set request slot event) :
    ETriple (Dues due []) (recordAndCheck env set request fuel cycle ready starts)
      (fun r _ => ∃ decision, r.2 = some decision ∧
        FairDecision set request r.1.visits decision) Lost := by
  unfold PollCycle.recordAndCheck
  rw [hbudget, hvisits]
  refine ETriple.bind (h.recordReady hset hone hbound fuel hkeys hready) ?_
  rintro ⟨budget, visits⟩
  refine ETriple.fact (fun w hw => hw.2) fun ⟨event, hfair⟩ => ?_
  dsimp only at hfair ⊢
  rw [if_pos hfair.size]
  refine ETriple.bind (ETriple.lift (h.now.strengthen fun w hw => hw.1)) fun now => ?_
  refine ETriple.pure fun w hw => ⟨_, rfl, Or.inr ⟨now, starts, event, rfl, hw.1, hfair, ?_⟩⟩
  obtain ⟨registration, hreg, hid, -⟩ := hfair.due
  rw [hid]
  exact hstarts registration (List.mem_of_getElem? hreg)

/-- **The bind branch** of the first turn decides fairly. -/
theorem onBound (hset : set.registrations ≠ [])
    (hone : (CollectBudget.new set request).maxEvents = 1) (fuel : Nat)
    (out : FirstReadyOutput β) :
    ETriple
      (AllBound env set due (set.registrations.map Registration.registrationId)
        (fairnessOrder set request) out)
      (onBound env set request fuel (Cycle.new set request) out)
      (fun r _ => ∃ decision, r.2 = some decision ∧
        FairDecision set request r.1.visits decision) Lost := by
  unfold PollCycle.onBound
  cases herror : out.error with
  | some err => exact ETriple.pure fun w _ => ⟨_, rfl, Or.inl ⟨err, rfl⟩⟩
  | none =>
    refine ETriple.fact (fun w hw => (hw herror).2) fun hvalues => ?_
    obtain ⟨binds, hbinds, hready⟩ := hvalues
    have hnew : (Cycle.new set request : Cycle β).bound.length = set.registrations.length := by
      simp [Cycle.new]
    have hbound : EverySlotBound env set
        (storeBinds (Cycle.new set request : Cycle β).bound out.ready) := by
      rw [hready]
      exact everySlotBound_storeBinds (fairnessOrder_perm set request) hnew hbinds
    have hlength : (storeBinds (Cycle.new set request : Cycle β).bound out.ready).length
        = set.registrations.length := by
      rw [length_storeBinds, hnew]
    dsimp only
    set bound := storeBinds (Cycle.new set request : Cycle β).bound out.ready with hstored
    obtain ⟨hslots, hids⟩ := hbound.refs hlength
    have hkeys : (([] : List (Nat × Observation)).map Prod.fst
        ++ (occupiedRefs bound).map Prod.fst).Nodup := by
      rw [hslots]
      exact List.nodup_range
    have hextend := h.extendReadyRefs hkeys
    rw [hids] at hextend
    refine ETriple.bind (ETriple.lift (hextend.strengthen fun w hw => (hw herror).1))
      fun ready => ?_
    refine ETriple.fact (fun w hw => hw.2) fun hfront => ?_
    obtain ⟨events, hevents, hanswers⟩ := hfront
    rw [List.nil_append] at hanswers
    subst hanswers
    refine (h.recordAndCheck hset hone fuel rfl rfl hbound ?_ ?_ ?_).strengthen fun w hw => hw.1
    · -- every bind resolved a start
      intro registration hmem
      obtain ⟨slot, hslot⟩ := List.mem_iff_getElem?.mp hmem
      obtain ⟨bind, hbind, registration', hreg, hid⟩ :=
        hbound slot (List.getElem?_eq_some_iff.mp hslot).1
      obtain rfl := Option.some.inj (hslot.symm.trans hreg)
      refine ⟨⟨env.registrationId bind, env.resolvedStart bind⟩, ?_, hid⟩
      refine List.mem_filterMap.mpr ⟨some bind, ?_, rfl⟩
      exact List.mem_of_getElem? (Option.join_eq_some_iff.mp hbind)
    · rw [List.map_fst_zip (by rw [List.length_map, List.length_map, hevents.length_eq]), hslots]
      exact List.nodup_range
    · intro slot hslot
      obtain ⟨bind, hbind, registration, hreg, hid⟩ := hbound slot hslot
      have hmem : (slot, bind) ∈ occupiedRefs bound :=
        mem_pendingRefs.mpr ⟨List.mem_range.mpr (hlength ▸ hslot), hbind⟩
      obtain ⟨event, hzip, hevent, hfits⟩ := forall₂_zip hevents hmem
      refine ⟨event, ?_, registration, hreg, hevent.trans hid, hfits⟩
      rw [List.zip_map]
      exact List.mem_map.mpr ⟨((slot, bind), event), hzip, rfl⟩

/-- **The first turn** decides fairly. -/
theorem turn (hset : set.registrations ≠ [])
    (hone : (CollectBudget.new set request).maxEvents = 1) (fuel : Nat) :
    ETriple (Dues due (set.registrations.map Registration.registrationId))
      (turn env set request fuel (Cycle.new set request))
      (fun r _ => ∃ decision, r.2 = some decision ∧
        FairDecision set request r.1.visits decision) Lost := by
  have hne : fairnessOrder set request ≠ [] := by
    obtain ⟨rest, horder⟩ := fairnessOrder_start request hset
    rw [horder]
    exact List.cons_ne_nil _ _
  have hrunning : Triple (Dues due (set.registrations.map Registration.registrationId))
      env.isCancelled fun cancelled w => cancelled = false ∧
        Dues due (set.registrations.map Registration.registrationId) w :=
    Triple.act fun w hw => h.running hw
  have hsnapshot : Triple (Dues due (set.registrations.map Registration.registrationId))
      (snapshot : Act σ β (List ResolvedStart)) fun _ =>
        Dues due (set.registrations.map Registration.registrationId) := by
    rintro w hw _ _ ⟨⟩
    exact hw
  unfold PollCycle.turn
  refine ETriple.bind (ETriple.lift hrunning) ?_
  rintro (_ | _)
  · refine ETriple.bind (ETriple.lift (hsnapshot.strengthen fun w hw => hw.2)) fun resolved => ?_
    refine ETriple.bind (ETriple.lift h.now) fun now => ?_
    refine ETriple.fact (fun w hw => hw.1.1) fun htime => ?_
    rw [if_neg (by rw [htime]; simp), if_neg (by simp [Cycle.new])]
    unfold turnBinding
    refine ETriple.bind (ETriple.lift ((h.selectBinding hne
      (fun slot hslot => mem_fairnessOrder.mp hslot) _ fuel).strengthen fun w hw => hw.2)) ?_
    rintro (out | _ | _)
    · refine (h.onBound hset hone fuel out).strengthen fun w hw => ?_
      obtain ⟨out', hout, hbound⟩ := hw
      cases hout
      exact hbound
    · intro w hw
      obtain ⟨out, hout, -⟩ := hw
      cases hout
    · intro w hw
      obtain ⟨out, hout, -⟩ := hw
      cases hout
  · intro w hw
    cases hw.1

/-- **The loop** decides in its first turn, and fairly. -/
theorem cycleLoop (hset : set.registrations ≠ [])
    (hone : (CollectBudget.new set request).maxEvents = 1) (fuel turns : Nat) :
    ETriple (Dues due (set.registrations.map Registration.registrationId))
      (cycleLoop env set request fuel turns (Cycle.new set request))
      (fun r _ => FairDecision set request r.1.visits r.2) Lost := by
  cases turns with
  | zero => exact ETriple.exhausted
  | succ turns =>
    unfold PollCycle.cycleLoop
    refine ETriple.bind (h.turn hset hone fuel) ?_
    rintro ⟨cycle, _ | decision⟩
    · intro w hw
      obtain ⟨decision, hdecision, -⟩ := hw
      cases hdecision
    · refine ETriple.pure fun w hw => ?_
      obtain ⟨decision', hdecision, hfair⟩ := hw
      cases hdecision
      exact hfair

end DueObserver

end PollCycle

end Waitprims
