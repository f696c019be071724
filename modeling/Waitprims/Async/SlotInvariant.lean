import Mathlib
import Waitprims.Lib.Hoare
import Waitprims.Lib.InFlight
import Waitprims.Async.SlotSet

/-! # The states of a slot

A slot waits for its bind, then for a `next`, then holds an observation until that is taken. The
operations of the slots come in the order that a session needs them; what they rely on is stated
here, over any order. The observer is watched: its futures are numbered and every poll of one is
written down.

* **`watchedEnv`** — an environment whose futures are watched.
* **`Slot.Well`** — a slot with an observation is bound and has no `next` in flight.
* **`Sound`** — the slots are well, their futures have not completed, and every observation that was
  dequeued is taken, discarded or held.
* **`pollAvailable_sound`** — the loop ends: each slot moves on at most twice.
* **`slots_sound`** — over any calls, from fresh slots. -/

namespace Waitprims

namespace Follow

open Fueled InFlight

variable {σ β φ ψ : Type}

/-! ## Watching the futures -/

/-- Whether a poll has completed. -/
def pollDone {α : Type} : Poll α → Bool
  | .ready _ => true
  | .pending => false

/-- A step that asks for no future and polls none. -/
def unwatched {α : Type} (step : σ → α × σ) (s : σ × Watch) : α × (σ × Watch) :=
  ((step s.1).1, (step s.1).2, s.2)

/-- A step that asks for a future. -/
def asking {κ : Type} (step : σ → κ × σ) (s : σ × Watch) : (Nat × κ) × (σ × Watch) :=
  ((s.2.fresh, (step s.1).1), (step s.1).2, s.2.ask)

/-- A step that polls a future. -/
def polling {κ α : Type} (step : κ → σ → Poll α × σ) (fut : Nat × κ) (s : σ × Watch) :
    Poll α × (σ × Watch) :=
  ((step fut.2 s.1).1, (step fut.2 s.1).2, s.2.poll fut.1 (pollDone (step fut.2 s.1).1))

/-- An environment whose futures are watched; nothing else about it is changed. -/
def watchedEnv (env : Env σ β φ ψ) : Env (σ × Watch) β (Nat × φ) (Nat × ψ) where
  registrationId := env.registrationId
  resolvedStart := env.resolvedStart
  bindStep registration := asking (env.bindStep registration)
  pollBindStep := polling env.pollBindStep
  dropBindStep fut s := (env.dropBindStep fut.2 s.1, s.2)
  nextStep bind := asking (env.nextStep bind)
  pollNextStep := polling env.pollNextStep
  dropNextStep fut s := (env.dropNextStep fut.2 s.1, s.2)
  pollReadyStep bind := unwatched (env.pollReadyStep bind)
  restoreReadyStep bind obs := unwatched (env.restoreReadyStep bind obs)
  nowStep := unwatched env.nowStep
  sleepUntilStep deadline := unwatched (env.sleepUntilStep deadline)
  isCancelledStep := unwatched env.isCancelledStep
  parkStep s := (env.parkStep s.1, s.2)

/-- The observations that were dequeued. -/
def dequeued (log : List (Call β)) : List Observation :=
  log.filterMap fun
    | .next _ obs => some obs
    | .ready _ obs => some obs
    | _ => none

@[simp] theorem dequeued_append (log more : List (Call β)) :
    dequeued (log ++ more) = dequeued log ++ dequeued more :=
  List.filterMap_append

/-- What `poll_ready` has yielded is dequeued. -/
theorem dequeued_ready (bind : β) (answer : Option Observation) :
    dequeued (answer.toList.map (Call.ready bind)) = answer.toList := by
  cases answer <;> rfl

/-! ## What one call of the observer does -/

/-- **The books**: these futures are in flight, and these observations were dequeued. -/
def Flies (futs : List Nat) (obs : List Observation) (w : World (σ × Watch) β) : Prop :=
  Flying futs w.host.2 ∧ obs.Perm (dequeued w.log)

section calls

variable {futs futs' : List Nat} {obs obs' : List Observation} {w : World (σ × Watch) β}

/-- The order of the books says nothing. -/
theorem Flies.perm (h : Flies futs obs w) (hfuts : futs.Perm futs') (hobs : obs.Perm obs') :
    Flies futs' obs' w :=
  ⟨h.1.perm hfuts, hobs.symm.trans h.2⟩

variable (env : Env σ β φ ψ) (futs obs)

theorem bind_flies (registration : Registration) :
    Finishes (Flies futs obs) ((watchedEnv env).bind registration)
      fun fut => Flies (fut.1 :: futs) obs :=
  fun _ hw => ⟨_, _, rfl, hw.1.ask, hw.2⟩

/-- One poll of a `bind`: a completed one is in flight no more. -/
theorem pollBind_flies (fut : Nat × φ) :
    Finishes (Flies (fut.1 :: futs) obs) ((watchedEnv env).pollBind fut) fun answer =>
      match answer with
      | .ready _ => Flies futs obs
      | .pending => Flies (fut.1 :: futs) obs := by
  intro w hw
  refine ⟨_, _, rfl, ?_⟩
  show (match (env.pollBindStep fut.2 w.host.1).1 with
    | .ready _ => Flies futs obs
    | .pending => Flies (fut.1 :: futs) obs) _
  cases hanswer : (env.pollBindStep fut.2 w.host.1).1 with
  | ready result =>
    refine ⟨?_, hw.2⟩
    show Flying futs (w.host.2.poll fut.1 (pollDone (env.pollBindStep fut.2 w.host.1).1))
    rw [hanswer]
    exact hw.1.done
  | pending =>
    refine ⟨?_, hw.2⟩
    show Flying _ (w.host.2.poll fut.1 (pollDone (env.pollBindStep fut.2 w.host.1).1))
    rw [hanswer]
    exact hw.1.pending

theorem next_flies (bind : β) :
    Finishes (Flies futs obs) ((watchedEnv env).next bind)
      fun fut => Flies (fut.2.1 :: futs) obs :=
  fun _ hw => ⟨_, _, rfl, hw.1.ask, hw.2⟩

/-- What one poll of a `next` leaves: the observation it yielded was dequeued. -/
def AfterNext (futs : List Nat) (obs : List Observation) (fut : Nat) :
    Poll (Except Error Observation) → World (σ × Watch) β → Prop
  | .ready (.ok got) => Flies futs (obs ++ [got])
  | .ready (.error _) => Flies futs obs
  | .pending => Flies (fut :: futs) obs

/-- A poll of a `next` leaves it in flight exactly if it is pending. -/
def Landing (futs : List Nat) (fut : Nat) (watch : Watch) :
    Poll (Except Error Observation) → Prop
  | .ready _ => Flying futs watch
  | .pending => Flying (fut :: futs) watch

theorem pollNext_flies (fut : β × (Nat × ψ)) :
    Finishes (Flies (fut.2.1 :: futs) obs) ((watchedEnv env).pollNext fut)
      (AfterNext futs obs fut.2.1) := by
  intro w hw
  have hhost : Finishes (fun w' => w' = w)
      (Act.host ((watchedEnv env).pollNextStep fut.2) : Act (σ × Watch) β _)
      fun answer w' => w'.log = w.log ∧ Landing futs fut.2.1 w'.host.2 answer := by
    intro w' heq
    rw [heq]
    refine ⟨_, _, rfl, rfl, ?_⟩
    show Landing futs fut.2.1 (w.host.2.poll fut.2.1
      (pollDone (env.pollNextStep fut.2.2 w.host.1).1)) (env.pollNextStep fut.2.2 w.host.1).1
    cases (env.pollNextStep fut.2.2 w.host.1).1 with
    | ready result => exact hw.1.done
    | pending => exact hw.1.pending
  refine Finishes.bind hhost ?_ w rfl
  rintro ((err | got) | _)
  · exact Finishes.pure fun w' hw' => ⟨hw'.2, hw'.1 ▸ hw.2⟩
  · -- An observation is recorded before the answer is returned.
    intro w' hw'
    refine ⟨_, _, rfl, hw'.2, ?_⟩
    show (obs ++ [got]).Perm (dequeued (w'.log ++ [.next fut.1 got]))
    rw [dequeued_append, hw'.1]
    exact hw.2.append_right _
  · exact Finishes.pure fun w' hw' => ⟨hw'.2, hw'.1 ▸ hw.2⟩

theorem dropNext_flies (fut : β × (Nat × ψ)) :
    Finishes (Flies (fut.2.1 :: futs) obs) ((watchedEnv env).dropNext fut)
      fun _ => Flies futs obs :=
  fun _ hw => ⟨_, _, rfl, hw.1.drop, hw.2⟩

/-- What `poll_ready` yields was dequeued. -/
theorem pollReady_flies (bind : β) :
    Finishes (Flies futs obs) ((watchedEnv env).pollReady bind)
      fun answer => Flies futs (obs ++ answer.toList) := by
  intro w hw
  refine ⟨_, _, rfl, hw.1, ?_⟩
  show (obs ++ _).Perm (dequeued (w.log ++ _))
  rw [dequeued_append, dequeued_ready]
  exact hw.2.append_right _

end calls

/-! ## One slot -/

/-- The number of a `next` in flight: one that has not been polled yet is not asked for. -/
def nextFlight : Option (NextFut β (Nat × ψ)) → List Nat
  | some (.running fut) => [fut.2.1]
  | _ => []

namespace Slot

/-- **A slot in order**: a harvested observation is that of a bound slot with no `next` in flight, a
`next` is one of a bound slot, and a slot waits for its bind until it is bound. -/
structure Well (slot : Slot β φ ψ) : Prop where
  harvested : slot.harvested.isSome → slot.bind.isSome ∧ slot.nextFut = none
  armed : slot.nextFut.isSome → slot.bind.isSome
  binding : slot.bindFut.isSome → slot.bind = none

/-- A slot that is not bound has no `next`. -/
theorem Well.nextFut_eq_none {slot : Slot β φ ψ} (h : slot.Well) (hbind : slot.bind = none) :
    slot.nextFut = none := by
  cases hnext : slot.nextFut with
  | none => rfl
  | some fut =>
    have hbound := h.armed (by rw [hnext]; rfl)
    rw [hbind] at hbound
    cases hbound

/-- A slot that is bound waits for no bind. -/
theorem Well.bindFut_eq_none {slot : Slot β φ ψ} (h : slot.Well) {bind : β}
    (hbind : slot.bind = some bind) : slot.bindFut = none := by
  cases hfut : slot.bindFut with
  | none => rfl
  | some fut =>
    have hnone := h.binding (by rw [hfut]; rfl)
    rw [hbind] at hnone
    cases hnone

/-- Forgetting an observation leaves a slot in order. -/
theorem Well.empty {slot : Slot β φ ψ} (h : slot.Well) :
    ({ slot with harvested := none } : Slot β φ ψ).Well :=
  ⟨nofun, h.armed, h.binding⟩

/-- The futures a slot has in flight. -/
def flights (slot : Slot β (Nat × φ) (Nat × ψ)) : List Nat :=
  (slot.bindFut.map Prod.fst).toList ++ nextFlight slot.nextFut

/-- How often a slot can still move on before an observation is taken from it. -/
def moves (slot : Slot β φ ψ) : Nat :=
  if slot.harvested.isSome then 0
  else if slot.bindFut.isSome then 2
  else if slot.nextFut.isSome then 1
  else 0

theorem moves_le (slot : Slot β φ ψ) : slot.moves ≤ 2 := by
  unfold moves
  split_ifs <;> omega

end Slot

/-- What a poll of a slot has done to it: it has no more moves than before, and where it moved on it
has fewer. -/
def Advanced (slot slot' : Slot β φ ψ) (pass pass' : Pass) : Prop :=
  slot'.moves ≤ slot.moves ∧
    (pass'.progressed = true → pass.progressed = true ∨ slot'.moves < slot.moves)

/-- A slot that is left as it is has not moved. -/
theorem Advanced.refl (slot : Slot β φ ψ) {pass pass' : Pass}
    (h : pass'.progressed = pass.progressed) : Advanced slot slot pass pass' :=
  ⟨le_rfl, fun hprogressed => .inl (h ▸ hprogressed)⟩

/-- Two polls in a row. -/
theorem Advanced.trans {slot slot' slot'' : Slot β φ ψ} {pass pass' pass'' : Pass}
    (h : Advanced slot slot' pass pass') (h' : Advanced slot' slot'' pass' pass'') :
    Advanced slot slot'' pass pass'' := by
  refine ⟨h'.1.trans h.1, fun hprogressed => ?_⟩
  rcases h'.2 hprogressed with hprogressed | hlt
  · exact (h.2 hprogressed).imp_right fun hlt => h'.1.trans_lt hlt
  · exact .inr (hlt.trans_le h.1)

section slot

variable (env : Env σ β φ ψ) (futs : List Nat) (obs : List Observation)

/-- **Arming** a bound slot that has no `next`: the `expect` holds. -/
theorem armNext_flies {slot : Slot β (Nat × φ) (Nat × ψ)} {bind : β} (hbind : slot.bind = some bind)
    (hnext : slot.nextFut = none) :
    Finishes (Flies futs obs) (slot.armNext (watchedEnv env)) fun slot' w =>
      slot' = { slot with nextFut := some (.start bind) } ∧ Flies futs obs w := by
  unfold Slot.armNext
  rw [hbind, hnext]
  exact Finishes.pure fun w hw => ⟨rfl, hw⟩

/-- **Polling the bind** of a slot without an observation. -/
theorem pollSlotBind_flies {slot : Slot β (Nat × φ) (Nat × ψ)} (hwell : slot.Well)
    (hempty : slot.harvested = none) (pass : Pass) :
    Finishes (Flies (slot.flights ++ futs) obs) (pollSlotBind (watchedEnv env) slot pass)
      fun r w => (r.1.Well ∧ r.1.harvested = none ∧ Advanced slot r.1 pass r.2) ∧
        Flies (r.1.flights ++ futs) obs w := by
  unfold pollSlotBind
  cases hfut : slot.bindFut with
  | none => exact Finishes.pure fun w hw => ⟨⟨hwell, hempty, .refl slot rfl⟩, hw⟩
  | some fut =>
    have hbind : slot.bind = none := hwell.binding (by rw [hfut]; rfl)
    have hnext : slot.nextFut = none := hwell.nextFut_eq_none hbind
    have hmoves : slot.moves = 2 := by
      simp [Slot.moves, hempty, hfut]
    have hflights : slot.flights = [fut.1] := by
      simp [Slot.flights, hfut, hnext, nextFlight]
    rw [hflights]
    refine Finishes.bind (pollBind_flies futs obs env fut) ?_
    rintro ((err | bind) | _)
    · -- The bind failed: the slot waits for nothing any more.
      refine Finishes.pure fun w hw => ⟨⟨⟨?_, ?_, ?_⟩, hempty, ?_, fun h => .inl h⟩, ?_⟩
      · exact hwell.harvested
      · exact hwell.armed
      · exact nofun
      · simp [Slot.moves, hempty, hnext]
      · simpa [Slot.flights, hnext, nextFlight] using hw
    · -- Bound: the slot is armed at once.
      refine Finishes.bind (armNext_flies env futs obs rfl hnext) ?_
      intro slot'
      refine Finishes.assume fun hslot' => ?_
      subst hslot'
      refine Finishes.pure fun w hw => ⟨⟨⟨?_, fun _ => rfl, nofun⟩, hempty, ?_, ?_⟩, ?_⟩
      · intro hsome
        rw [show slot.harvested.isSome = false by rw [hempty]; rfl] at hsome
        cases hsome
      · rw [hmoves]
        simp [Slot.moves, hempty]
      · rw [hmoves]
        exact fun _ => .inr (by simp [Slot.moves, hempty])
      · simpa [Slot.flights, nextFlight] using hw
    · refine Finishes.pure fun w hw => ⟨⟨hwell, hempty, .refl slot rfl⟩, ?_⟩
      rw [hflights]
      exact hw

/-- What one poll of the `next` of a slot leaves. -/
@[simp] def AfterNextFut (futs : List Nat) (obs : List Observation) :
    Polled (NextFut β (Nat × ψ)) Observation → World (σ × Watch) β → Prop
  | .ready (.ok got) => Flies futs (obs ++ [got])
  | .ready (.error _) => Flies futs obs
  | .pending fut => Flies (nextFlight (some fut) ++ futs) obs

theorem pollRunning_flies (fut : β × (Nat × ψ)) :
    Finishes (Flies (fut.2.1 :: futs) obs) (pollRunning (watchedEnv env) fut)
      (AfterNextFut futs obs) := by
  refine Finishes.bind (pollNext_flies futs obs env fut) ?_
  rintro ((err | got) | _)
  · exact Finishes.pure fun w hw => hw
  · exact Finishes.pure fun w hw => hw
  · exact Finishes.pure fun w hw => hw

/-- One poll of the `next` of a slot: the first one asks for it. -/
theorem pollNextFut_flies (fut : NextFut β (Nat × ψ)) :
    Finishes (Flies (nextFlight (some fut) ++ futs) obs) (pollNextFut (watchedEnv env) fut)
      (AfterNextFut futs obs) := by
  cases fut with
  | start bind => exact Finishes.bind (next_flies futs obs env bind) (pollRunning_flies env futs obs)
  | running fut => exact pollRunning_flies env futs obs fut

/-- **Polling the `next`** of a slot without an observation. -/
theorem pollSlotNext_flies {slot : Slot β (Nat × φ) (Nat × ψ)} (hwell : slot.Well)
    (hempty : slot.harvested = none) (pass : Pass) :
    Finishes (Flies (slot.flights ++ futs) obs) (pollSlotNext (watchedEnv env) slot pass)
      fun r w => (r.1.Well ∧ Advanced slot r.1 pass r.2) ∧
        Flies (r.1.flights ++ futs) (obs ++ r.1.harvested.toList) w := by
  unfold pollSlotNext
  cases hfut : slot.nextFut with
  | none =>
    refine Finishes.pure fun w hw => ⟨⟨hwell, .refl slot rfl⟩, ?_⟩
    rw [hempty, Option.toList_none, List.append_nil]
    exact hw
  | some fut =>
    obtain ⟨bind, hbind⟩ := Option.isSome_iff_exists.mp (hwell.armed (by rw [hfut]; rfl))
    have hbindFut : slot.bindFut = none := hwell.bindFut_eq_none hbind
    have hmoves : slot.moves = 1 := by
      simp [Slot.moves, hempty, hbindFut, hfut]
    have hflights : slot.flights = nextFlight (some fut) := by
      simp [Slot.flights, hbindFut, hfut]
    rw [hflights]
    refine Finishes.bind (pollNextFut_flies env futs obs fut) ?_
    rintro ((err | got) | fut')
    · refine Finishes.pure fun w hw => ⟨⟨⟨?_, nofun, hwell.binding⟩, ?_, fun h => .inl h⟩, ?_⟩
      · exact fun hsome => ⟨(hwell.harvested hsome).1, rfl⟩
      · simp [Slot.moves, hempty, hbindFut]
      · simpa [Slot.flights, hbindFut, hempty, nextFlight] using hw
    · refine Finishes.pure fun w hw => ⟨⟨⟨?_, nofun, hwell.binding⟩, ?_, ?_⟩, ?_⟩
      · exact fun _ => ⟨by simp [hbind], rfl⟩
      · simp [Slot.moves]
      · exact fun _ => .inr (by rw [hmoves]; simp [Slot.moves])
      · simpa [Slot.flights, hbindFut, nextFlight] using hw
    · refine Finishes.pure fun w hw => ⟨⟨⟨?_, ?_, hwell.binding⟩, ?_, fun h => .inl h⟩, ?_⟩
      · intro hsome
        rw [show slot.harvested.isSome = false by rw [hempty]; rfl] at hsome
        cases hsome
      · exact fun _ => by simp [hbind]
      · rw [hmoves]
        simp [Slot.moves, hempty, hbindFut]
      · simpa [Slot.flights, hbindFut, hempty] using hw

/-- **Polling a slot**: one with an observation is left alone, so none is overwritten. -/
theorem pollSlot_flies {slot : Slot β (Nat × φ) (Nat × ψ)} (hwell : slot.Well) (pass : Pass) :
    Finishes (Flies (slot.flights ++ futs) (obs ++ slot.harvested.toList))
      (pollSlot (watchedEnv env) slot pass) fun r w => (r.1.Well ∧ Advanced slot r.1 pass r.2) ∧
        Flies (r.1.flights ++ futs) (obs ++ r.1.harvested.toList) w := by
  unfold pollSlot
  cases hobs : slot.harvested with
  | some got =>
    refine Finishes.pure fun w hw => ⟨⟨hwell, .refl slot rfl⟩, ?_⟩
    rw [hobs]
    exact hw
  | none =>
    rw [Option.toList_none, List.append_nil]
    refine Finishes.bind (pollSlotBind_flies env futs obs hwell hobs pass) ?_
    rintro ⟨slot', pass'⟩
    refine Finishes.assume fun hbound => ?_
    refine (pollSlotNext_flies env futs obs hbound.1 hbound.2.1 pass').weaken ?_
    exact fun r w hr => ⟨⟨hr.1.1, hbound.2.2.trans hr.1.2⟩, hr.2⟩

/-- Dropping the `next` of a slot. -/
theorem dropNextFut_flies (fut : Option (NextFut β (Nat × ψ))) :
    Finishes (Flies (nextFlight fut ++ futs) obs) (dropNextFut (watchedEnv env) fut)
      fun _ => Flies futs obs := by
  rcases fut with _ | bind | fut
  · exact Finishes.pure fun w hw => hw
  · exact Finishes.pure fun w hw => hw
  · exact dropNext_flies futs obs env fut

/-- **`poll_ready`** of a bound slot without an observation drops the `next` that it outruns. -/
theorem harvestSlot_flies {slot : Slot β (Nat × φ) (Nat × ψ)} (hwell : slot.Well) :
    Finishes (Flies (slot.flights ++ futs) (obs ++ slot.harvested.toList))
      (harvestSlot (watchedEnv env) slot) fun slot' w => slot'.Well ∧
        Flies (slot'.flights ++ futs) (obs ++ slot'.harvested.toList) w := by
  unfold harvestSlot
  split
  · next bind hobs hbind =>
    have hbindFut : slot.bindFut = none := hwell.bindFut_eq_none hbind
    have hflights : slot.flights = nextFlight slot.nextFut := by
      simp [Slot.flights, hbindFut]
    rw [hobs, Option.toList_none, List.append_nil]
    refine Finishes.bind (pollReady_flies (slot.flights ++ futs) obs env bind) ?_
    rintro (_ | got)
    · refine Finishes.pure fun w hw => ⟨hwell, ?_⟩
      rw [hobs]
      exact hw
    · rw [hflights]
      refine Finishes.bind (dropNextFut_flies env futs (obs ++ [got]) slot.nextFut) fun _ => ?_
      refine Finishes.pure fun w hw => ⟨⟨?_, nofun, hwell.binding⟩, ?_⟩
      · exact fun _ => ⟨by simp [hbind], rfl⟩
      · simpa [Slot.flights, hbindFut, nextFlight] using hw
  · exact Finishes.pure fun w hw => ⟨hwell, hw⟩

/-- **Arming again** what is bound and has nothing in flight and nothing harvested. -/
theorem rearm_flies {slot : Slot β (Nat × φ) (Nat × ψ)} (hwell : slot.Well) :
    Finishes (Flies (slot.flights ++ futs) (obs ++ slot.harvested.toList))
      (slot.rearm (watchedEnv env)) fun slot' w => slot'.Well ∧
        Flies (slot'.flights ++ futs) (obs ++ slot'.harvested.toList) w := by
  unfold Slot.rearm
  split
  · next hidle =>
    simp only [Bool.and_eq_true, Option.isNone_iff_eq_none] at hidle
    obtain ⟨⟨hbound, hnext⟩, hobs⟩ := hidle
    obtain ⟨bind, hbind⟩ := Option.isSome_iff_exists.mp hbound
    refine (armNext_flies env _ _ hbind hnext).weaken ?_
    rintro slot' w ⟨rfl, hw⟩
    refine ⟨⟨?_, fun _ => hbound, hwell.binding⟩, ?_⟩
    · intro hsome
      rw [show slot.harvested.isSome = false by rw [hobs]; rfl] at hsome
      cases hsome
    · simpa [Slot.flights, hnext, nextFlight] using hw
  · exact Finishes.pure fun w hw => ⟨hwell, hw⟩

end slot

/-! ## All slots -/

/-- The observations that the slots hold. -/
def heldObs (slots : List (Slot β φ ψ)) : List Observation :=
  slots.flatMap fun slot => slot.harvested.toList

/-- How often the slots can still move on. -/
def movesOf (slots : List (Slot β φ ψ)) : Nat := (slots.map Slot.moves).sum

@[simp] theorem movesOf_cons (slot : Slot β φ ψ) (rest : List (Slot β φ ψ)) :
    movesOf (slot :: rest) = slot.moves + movesOf rest := by
  rw [movesOf, List.map_cons, List.sum_cons, movesOf]

theorem movesOf_le (slots : List (Slot β φ ψ)) : movesOf slots ≤ 2 * slots.length := by
  induction slots with
  | nil => exact le_rfl
  | cons slot rest ih =>
    have hle := slot.moves_le
    rw [movesOf_cons, List.length_cons]
    omega

/-- **The invariant of the slots**: each is in order, their futures are in flight beside `futs`, and
what was dequeued is `obs` and what they hold. -/
def Sound (futs : List Nat) (obs : List Observation) (slots : List (Slot β (Nat × φ) (Nat × ψ)))
    (w : World (σ × Watch) β) : Prop :=
  (∀ slot ∈ slots, slot.Well) ∧ Flies (slots.flatMap Slot.flights ++ futs) (obs ++ heldObs slots) w

section slots

variable {futs : List Nat} {obs : List Observation} {slot : Slot β (Nat × φ) (Nat × ψ)}
  {slots rest : List (Slot β (Nat × φ) (Nat × ψ))} {w : World (σ × Watch) β}

/-- Without slots only the books are left. -/
theorem sound_nil : Sound futs obs ([] : List (Slot β (Nat × φ) (Nat × ψ))) w ↔
    Flies futs obs w := by
  simp [Sound, heldObs]

/-- The first slot beside the others. -/
theorem Sound.head (h : Sound futs obs (slot :: rest) w) :
    Flies (slot.flights ++ (rest.flatMap Slot.flights ++ futs))
      (obs ++ heldObs rest ++ slot.harvested.toList) w := by
  refine h.2.perm (.of_eq ?_) ?_
  · rw [List.flatMap_cons, List.append_assoc]
  · rw [heldObs, List.flatMap_cons, List.append_assoc]
    exact List.Perm.append_left _ List.perm_append_comm

/-- The other slots beside the first. -/
theorem sound_tail (hwell : slot.Well) :
    Sound (slot.flights ++ futs) (obs ++ slot.harvested.toList) rest w ↔
      Sound futs obs (slot :: rest) w := by
  have hfuts : (rest.flatMap Slot.flights ++ (slot.flights ++ futs)).Perm
      ((slot :: rest).flatMap Slot.flights ++ futs) := by
    rw [List.flatMap_cons, ← List.append_assoc]
    exact List.perm_append_comm.append_right _
  have hobs : obs ++ slot.harvested.toList ++ heldObs rest = obs ++ heldObs (slot :: rest) := by
    rw [heldObs, heldObs, List.flatMap_cons, List.append_assoc]
  unfold Sound
  rw [List.forall_mem_cons, hobs]
  constructor
  · exact fun h => ⟨⟨hwell, h.1⟩, h.2.perm hfuts (.refl _)⟩
  · exact fun h => ⟨h.1.2, h.2.perm hfuts.symm (.refl _)⟩

/-- A slot that was dealt with, beside the others. -/
theorem Sound.of_head {slot' : Slot β (Nat × φ) (Nat × ψ)} (hrest : ∀ s ∈ rest, s.Well)
    (h : Flies (slot'.flights ++ (rest.flatMap Slot.flights ++ futs))
      (obs ++ heldObs rest ++ slot'.harvested.toList) w) :
    Sound (slot'.flights ++ futs) (obs ++ slot'.harvested.toList) rest w := by
  refine ⟨hrest, h.perm ?_ ?_⟩
  · rw [← List.append_assoc, ← List.append_assoc]
    exact List.perm_append_comm.append_right _
  · rw [List.append_assoc, List.append_assoc]
    exact List.Perm.append_left _ List.perm_append_comm

/-- **Observations that leave the slots**, each slot giving up what it holds or keeping it. -/
theorem Sound.release {empty : Slot β (Nat × φ) (Nat × ψ) → Slot β (Nat × φ) (Nat × ψ)}
    {out : Slot β (Nat × φ) (Nat × ψ) → List Observation}
    (hempty : ∀ slot, slot.Well → (empty slot).Well ∧ (empty slot).flights = slot.flights ∧
      out slot ++ (empty slot).harvested.toList = slot.harvested.toList)
    (h : Sound futs obs slots w) : Sound futs (obs ++ slots.flatMap out) (slots.map empty) w := by
  induction slots generalizing futs obs with
  | nil => rwa [List.flatMap_nil, List.append_nil]
  | cons slot rest ih =>
    have hwell : slot.Well := h.1 slot List.mem_cons_self
    obtain ⟨hwell', hflights, hout⟩ := hempty slot hwell
    have hrest := ih ((sound_tail hwell).mpr h)
    rw [List.map_cons, ← sound_tail hwell', hflights]
    refine ⟨hrest.1, hrest.2.perm (.refl _) ?_⟩
    -- What the slot gives up is put in front of what it keeps.
    rw [← hout, List.flatMap_cons]
    refine List.Perm.append_right _ ?_
    rw [List.append_assoc, List.append_assoc, List.append_assoc, List.append_assoc]
    exact List.Perm.append_left _ (List.Perm.append_left _ List.perm_append_comm)

variable (env : Env σ β φ ψ)

/-- **A loop over the slots**, by its step on one of them. -/
theorem each_sound
    {step : Slot β (Nat × φ) (Nat × ψ) → Act (σ × Watch) β (Slot β (Nat × φ) (Nat × ψ))}
    (loop : List (Slot β (Nat × φ) (Nat × ψ)) →
      Act (σ × Watch) β (List (Slot β (Nat × φ) (Nat × ψ))))
    (hnil : loop [] = return [])
    (hcons : ∀ slot rest, loop (slot :: rest) = do
      let slot ← step slot
      let rest ← loop rest
      return slot :: rest)
    (hstep : ∀ (futs : List Nat) (obs : List Observation) {slot : Slot β (Nat × φ) (Nat × ψ)},
      slot.Well → Finishes (Flies (slot.flights ++ futs) (obs ++ slot.harvested.toList)) (step slot)
        fun slot' w => slot'.Well ∧ Flies (slot'.flights ++ futs) (obs ++ slot'.harvested.toList) w)
    (slots : List (Slot β (Nat × φ) (Nat × ψ))) :
    Finishes (Sound futs obs slots) (loop slots) fun slots' w =>
      slots'.length = slots.length ∧ Sound futs obs slots' w := by
  induction slots generalizing futs obs with
  | nil =>
    rw [hnil]
    exact Finishes.pure fun w hw => ⟨rfl, hw⟩
  | cons slot rest ih =>
    rw [hcons]
    refine Finishes.fact (p := ∀ s ∈ slot :: rest, s.Well) (fun w hw => hw.1) fun hwells => ?_
    refine Finishes.bind ((hstep (rest.flatMap Slot.flights ++ futs) (obs ++ heldObs rest)
      (hwells slot List.mem_cons_self)).strengthen fun w hw => hw.head) fun slot' => ?_
    refine Finishes.assume fun hwell' => ?_
    refine Finishes.bind (ih.strengthen fun w hw =>
      Sound.of_head (fun s hs => hwells s (List.mem_cons_of_mem _ hs)) hw) fun rest' => ?_
    refine Finishes.pure fun w hw => ⟨?_, (sound_tail hwell').mp hw.2⟩
    rw [List.length_cons, List.length_cons, hw.1]

theorem harvestSlots_sound (slots : List (Slot β (Nat × φ) (Nat × ψ))) :
    Finishes (Sound futs obs slots) (SlotSet.harvestSlots (watchedEnv env) slots) fun slots' w =>
      slots'.length = slots.length ∧ Sound futs obs slots' w :=
  each_sound (SlotSet.harvestSlots (watchedEnv env)) rfl (fun _ _ => rfl)
    (harvestSlot_flies env) slots

theorem rearmSlots_sound (slots : List (Slot β (Nat × φ) (Nat × ψ))) :
    Finishes (Sound futs obs slots) (SlotSet.rearmSlots (watchedEnv env) slots) fun slots' w =>
      slots'.length = slots.length ∧ Sound futs obs slots' w :=
  each_sound (SlotSet.rearmSlots (watchedEnv env)) rfl (fun _ _ => rfl) (rearm_flies env) slots

/-- **One pass over the slots**: where it made progress, they have fewer moves left. -/
theorem pollSlots_sound (slots : List (Slot β (Nat × φ) (Nat × ψ))) (pass : Pass) :
    Finishes (Sound futs obs slots) (pollSlots (watchedEnv env) slots pass) fun r w =>
      (r.1.length = slots.length ∧ movesOf r.1 ≤ movesOf slots ∧
        (r.2.progressed = true → pass.progressed = true ∨ movesOf r.1 < movesOf slots)) ∧
      Sound futs obs r.1 w := by
  induction slots generalizing futs obs pass with
  | nil => exact Finishes.pure fun w hw => ⟨⟨rfl, le_rfl, fun h => .inl h⟩, hw⟩
  | cons slot rest ih =>
    refine Finishes.fact (p := ∀ s ∈ slot :: rest, s.Well) (fun w hw => hw.1) fun hwells => ?_
    refine Finishes.bind ((pollSlot_flies env (rest.flatMap Slot.flights ++ futs)
      (obs ++ heldObs rest) (hwells slot List.mem_cons_self) pass).strengthen
      fun w hw => hw.head) ?_
    rintro ⟨slot', pass'⟩
    refine Finishes.assume fun ⟨hwell', hle, hmoved⟩ => ?_
    refine Finishes.bind ((ih pass').strengthen fun w hw =>
      Sound.of_head (fun s hs => hwells s (List.mem_cons_of_mem _ hs)) hw) ?_
    rintro ⟨rest', pass''⟩
    refine Finishes.pure fun w hw => ⟨?_, (sound_tail hwell').mp hw.2⟩
    obtain ⟨hlength, hleRest, hmovedRest⟩ := hw.1
    simp only [movesOf_cons, List.length_cons] at hle hmoved hleRest hmovedRest ⊢
    refine ⟨by rw [hlength], Nat.add_le_add hle hleRest, fun hprogressed => ?_⟩
    rcases hmovedRest hprogressed with hprogressed | hlt
    · exact (hmoved hprogressed).imp_right fun hlt => Nat.add_lt_add_of_lt_of_le hlt hleRest
    · exact .inr (Nat.add_lt_add_of_le_of_lt hle hlt)

/-- **`poll_available` ends**: a pass without progress is the last, and each pass with progress uses
up a move, whatever the futures answer. -/
theorem pollAvailable_sound {fuel : Nat} (s : SlotSet β (Nat × φ) (Nat × ψ))
    (hfuel : movesOf s.slots < fuel) :
    Finishes (Sound futs obs s.slots) (s.pollAvailable (watchedEnv env) fuel) fun s' w =>
      s'.slots.length = s.slots.length ∧ Sound futs obs s'.slots w := by
  induction fuel generalizing s with
  | zero => omega
  | succ fuel ih =>
    refine Finishes.bind (pollSlots_sound env s.slots ⟨s.fault, false⟩) ?_
    rintro ⟨slots', pass⟩
    refine Finishes.assume fun ⟨hlength, hle, hmoved⟩ => ?_
    by_cases hprogressed : pass.progressed = true
    · simp only [hprogressed, if_true]
      have hlt : movesOf slots' < movesOf s.slots := (hmoved hprogressed).resolve_left nofun
      have hfuel' : movesOf slots' < fuel := by omega
      exact (ih ⟨slots', pass.fault⟩ hfuel').weaken fun s' w hw => ⟨hw.1.trans hlength, hw.2⟩
    · simp only [hprogressed]
      exact Finishes.pure fun w hw => ⟨hlength, hw⟩

/-- Fresh slots wait for their binds. -/
theorem new_sound (registrations : List Registration) :
    Finishes (Flies futs obs) (SlotSet.new (watchedEnv env) registrations) fun slots w =>
      slots.length = registrations.length ∧ Sound futs obs slots w := by
  induction registrations generalizing futs with
  | nil =>
    exact Finishes.pure fun w hw => ⟨rfl, sound_nil.mpr hw⟩
  | cons registration rest ih =>
    refine Finishes.bind (bind_flies futs obs env registration) fun fut => ?_
    refine Finishes.bind ih fun slots => Finishes.pure fun w hw => ⟨?_, ?_⟩
    · rw [List.length_cons, List.length_cons, hw.1]
    · have hwell : (⟨none, some fut, none, none⟩ : Slot β (Nat × φ) (Nat × ψ)).Well :=
        ⟨nofun, nofun, fun _ => rfl⟩
      refine (sound_tail hwell).mp ?_
      rw [Option.toList_none, List.append_nil]
      exact hw.2

end slots

/-! ## Taking observations out of the slots -/

/-- The observations that cannot be replayed among those the slots hold. -/
def signals (slots : List (Slot β φ ψ)) : List Observation :=
  slots.flatMap fun slot => slot.harvested.toList.filter fun obs => !observationIsReplayable obs

/-- None of them is an event. -/
theorem of_mem_signals {slots : List (Slot β φ ψ)} {obs : Observation} (h : obs ∈ signals slots) :
    observationIsReplayable obs = false := by
  obtain ⟨slot, -, hobs⟩ := List.mem_flatMap.mp h
  simpa using (List.mem_filter.mp hobs).2

/-- What a slot holds is its event or a signal. -/
theorem event_or_signal (slot : Slot β φ ψ) :
    slot.event?.toList.map Observation.event ++
      (slot.harvested.toList.filter fun obs => !observationIsReplayable obs) =
        slot.harvested.toList := by
  unfold Slot.event?
  cases slot.harvested with
  | none => rfl
  | some obs => cases obs <;> rfl

section release

variable {futs : List Nat} {obs : List Observation} {w : World (σ × Watch) β}
  {s : SlotSet β (Nat × φ) (Nat × ψ)}

/-- The events of the slots, one slot after the other. -/
theorem filterMap_event (slots : List (Slot β φ ψ)) :
    (slots.filterMap Slot.event?).map Observation.event =
      slots.flatMap fun slot => slot.event?.toList.map Observation.event := by
  induction slots with
  | nil => rfl
  | cons slot rest ih =>
    rw [List.filterMap_cons, List.flatMap_cons, ← ih]
    cases slot.event? <;> rfl

/-- The slots hold events and signals. -/
theorem heldObs_perm (slots : List (Slot β φ ψ)) :
    (heldObs slots).Perm ((slots.filterMap Slot.event?).map Observation.event ++ signals slots) := by
  rw [filterMap_event]
  induction slots with
  | nil => exact .refl _
  | cons slot rest ih =>
    rw [heldObs, List.flatMap_cons, ← event_or_signal, signals, List.flatMap_cons, List.flatMap_cons]
    -- The event of the first slot, then those of the others, then the signals in the same order.
    refine (List.Perm.append_left _ ih).trans ?_
    rw [List.append_assoc, List.append_assoc]
    refine List.Perm.append_left _ ?_
    rw [← List.append_assoc, ← List.append_assoc]
    exact List.perm_append_comm.append_right _

/-- The events that are drained, under their indices. -/
theorem drained_events (slots : List (Slot β φ ψ)) (base : Nat) :
    ((slots.zipIdx base).filterMap fun p => p.1.event?.map fun event => (p.2, event)).map Prod.snd =
      slots.filterMap Slot.event? := by
  induction slots generalizing base with
  | nil => rfl
  | cons slot rest ih =>
    rw [List.zipIdx_cons, List.filterMap_cons, List.filterMap_cons]
    cases slot.event? with
    | none => exact ih (base + 1)
    | some event => exact congrArg (event :: ·) (ih (base + 1))

/-- **`take_events`** hands over every event and nothing else. -/
theorem takeEvents_sound (h : Sound futs obs s.slots w) :
    Sound futs (obs ++ s.takeEvents.2.map Observation.event) s.takeEvents.1.slots w := by
  rw [SlotSet.takeEvents, filterMap_event]
  refine h.release fun slot hwell => ?_
  cases hobs : slot.harvested with
  | none => simp [Slot.event?, hobs, hwell]
  | some got => cases got <;> simp [Slot.event?, hobs, hwell, hwell.empty, Slot.flights]

/-- **`drain_replayable`** hands over every event and forgets the signals. -/
theorem drainReplayable_sound (h : Sound futs obs s.slots w) :
    Sound futs (obs ++ (s.drainReplayable.2.map Prod.snd).map Observation.event ++ signals s.slots)
      s.drainReplayable.1.slots w := by
  have hempty : Sound futs (obs ++ heldObs s.slots) s.drainReplayable.1.slots w :=
    h.release fun slot hwell => ⟨hwell.empty, rfl, List.append_nil _⟩
  refine ⟨hempty.1, hempty.2.perm (.refl _) (List.Perm.append_right _ ?_)⟩
  rw [SlotSet.drainReplayable, drained_events, List.append_assoc]
  exact (heldObs_perm s.slots).append_left _

/-- `clear_nonreplayable` forgets the signals. -/
theorem clearNonreplayable_sound (h : Sound futs obs s.slots w) :
    Sound futs (obs ++ signals s.slots) (s.slots.map Slot.clearNonreplayable) w := by
  refine h.release fun slot hwell => ?_
  unfold Slot.clearNonreplayable
  cases hobs : slot.harvested with
  | none => exact ⟨hwell, rfl, by simp [hobs]⟩
  | some got => cases got <;> simp [observationIsReplayable, hwell, hwell.empty, Slot.flights, hobs]

end release

/-! ## Any calls -/

/-- What a session does with its slots, in whatever order it needs, and what happens outside. -/
inductive SlotCall (σ : Type)
  | pollAvailable
  | collectTurn
  | harvestPollReady
  | takeEvents
  | rearmIdle
  | drainReplayable
  | outside (step : σ → σ)

/-- The slots, with the events they have handed over and the signals they have forgotten. -/
structure SlotRun (β φ ψ : Type) where
  slots : SlotSet β φ ψ
  taken : List WaitEvent
  forgotten : List Observation

namespace SlotRun

variable (env : Env σ β φ ψ) (fuel : Nat)

/-- One call. -/
def call (run : SlotRun β (Nat × φ) (Nat × ψ)) :
    SlotCall σ → Act (σ × Watch) β (SlotRun β (Nat × φ) (Nat × ψ))
  | .pollAvailable => do
    let slots ← run.slots.pollAvailable (watchedEnv env) fuel
    return { run with slots }
  | .collectTurn => do
    let (slots, _) ← pollCollectTurn (watchedEnv env) fuel run.slots
    return { run with slots }
  | .harvestPollReady => do
    let slots ← run.slots.harvestPollReady (watchedEnv env)
    return { run with slots }
  | .takeEvents =>
    return ⟨run.slots.takeEvents.1, run.taken ++ run.slots.takeEvents.2, run.forgotten⟩
  | .rearmIdle => do
    let slots ← run.slots.rearmIdle (watchedEnv env)
    return ⟨slots, run.taken, run.forgotten ++ signals run.slots.slots⟩
  | .drainReplayable =>
    return ⟨run.slots.drainReplayable.1,
      run.taken ++ run.slots.drainReplayable.2.map Prod.snd,
      run.forgotten ++ signals run.slots.slots⟩
  | .outside step => do
    Act.host fun s => ((), (step s.1, s.2))
    return run

/-- Any calls, one after the other. -/
def calls : List (SlotCall σ) → SlotRun β (Nat × φ) (Nat × ψ) →
    Act (σ × Watch) β (SlotRun β (Nat × φ) (Nat × ψ))
  | [], run => return run
  | c :: rest, run => do
    let run ← run.call env fuel c
    calls rest run

/-- A session: fresh slots, then any calls. -/
def session (registrations : List Registration) (cs : List (SlotCall σ)) :
    Act (σ × Watch) β (SlotRun β (Nat × φ) (Nat × ψ)) := do
  let slots ← SlotSet.new (watchedEnv env) registrations
  calls env fuel cs ⟨⟨slots, none⟩, [], []⟩

/-- **What a run keeps**: its slots are in order, and what was dequeued is handed over, forgotten or
held. -/
def Keeps (run : SlotRun β (Nat × φ) (Nat × ψ)) (w : World (σ × Watch) β) : Prop :=
  Sound [] (run.taken.map Observation.event ++ run.forgotten) run.slots.slots w ∧
    ∀ obs ∈ run.forgotten, observationIsReplayable obs = false

variable {env fuel}

/-- More events handed over. -/
theorem keeps_taken {run : SlotRun β (Nat × φ) (Nat × ψ)} {slots : SlotSet β (Nat × φ) (Nat × ψ)}
    {events : List WaitEvent} {lost : List Observation} {w : World (σ × Watch) β}
    (h : Sound [] (run.taken.map Observation.event ++ run.forgotten ++
      events.map Observation.event ++ lost) slots.slots w)
    (hforgotten : ∀ obs ∈ run.forgotten, observationIsReplayable obs = false)
    (hlost : ∀ obs ∈ lost, observationIsReplayable obs = false) :
    Keeps ⟨slots, run.taken ++ events, run.forgotten ++ lost⟩ w := by
  refine ⟨⟨h.1, h.2.perm (.refl _) (List.Perm.append_right _ ?_)⟩, ?_⟩
  · rw [List.map_append, ← List.append_assoc]
    refine List.Perm.append_right _ ?_
    rw [List.append_assoc, List.append_assoc]
    exact List.Perm.append_left _ List.perm_append_comm
  · intro obs hobs
    rcases List.mem_append.mp hobs with hobs | hobs
    · exact hforgotten obs hobs
    · exact hlost obs hobs

/-- **One call keeps the slots in order.** -/
theorem call_keeps (run : SlotRun β (Nat × φ) (Nat × ψ)) (c : SlotCall σ)
    (hfuel : 2 * run.slots.slots.length < fuel) :
    Finishes (Keeps run) (run.call env fuel c) fun run' w =>
      run'.slots.slots.length = run.slots.slots.length ∧ Keeps run' w := by
  refine Finishes.fact (p := ∀ obs ∈ run.forgotten, observationIsReplayable obs = false)
    (fun w hw => hw.2) fun hforgotten => ?_
  have hmoves : movesOf run.slots.slots < fuel := (movesOf_le _).trans_lt hfuel
  cases c with
  | pollAvailable =>
    refine Finishes.bind ((pollAvailable_sound env run.slots hmoves).strengthen fun w hw => hw.1)
      fun slots => ?_
    exact Finishes.pure fun w hw => ⟨hw.1, hw.2, hforgotten⟩
  | collectTurn =>
    refine Finishes.bind (R := fun r w => r.1.slots.length = run.slots.slots.length ∧
      Sound [] (run.taken.map Observation.event ++ run.forgotten) r.1.slots w) ?_ ?_
    · refine Finishes.bind ((pollAvailable_sound env run.slots hmoves).strengthen
        fun w hw => hw.1) fun slots => ?_
      -- Taking the fault, and looking at what is held, leaves the slots as they are.
      cases slots.fault with
      | some err => exact Finishes.pure fun w hw => hw
      | none =>
        by_cases hterminal : slots.hasTerminalObs = true
        · simp only [hterminal, if_true]
          exact Finishes.pure fun w hw => hw
        · by_cases hidle : slots.anyIdleHarvested = true
          · simp only [hterminal, hidle, if_true]
            exact Finishes.pure fun w hw => hw
          · simp only [hterminal, hidle]
            exact Finishes.pure fun w hw => hw
    · rintro ⟨slots, turn⟩
      exact Finishes.pure fun w hw => ⟨hw.1, hw.2, hforgotten⟩
  | harvestPollReady =>
    refine Finishes.bind (R := fun slots w => slots.slots.length = run.slots.slots.length ∧
      Sound [] (run.taken.map Observation.event ++ run.forgotten) slots.slots w) ?_ ?_
    · refine Finishes.bind ((harvestSlots_sound env run.slots.slots).strengthen
        fun w hw => hw.1) fun slots => ?_
      exact Finishes.pure fun w hw => hw
    · exact fun slots => Finishes.pure fun w hw => ⟨hw.1, hw.2, hforgotten⟩
  | takeEvents =>
    refine Finishes.pure fun w hw => ⟨?_, ?_⟩
    · simp [SlotSet.takeEvents]
    · have hsound := takeEvents_sound hw.1
      rw [← List.append_nil (_ ++ _)] at hsound
      have hkeeps := keeps_taken hsound hforgotten nofun
      rwa [List.append_nil] at hkeeps
  | rearmIdle =>
    refine Finishes.bind (R := fun slots w => slots.slots.length = run.slots.slots.length ∧
      Sound [] (run.taken.map Observation.event ++ run.forgotten ++ signals run.slots.slots)
        slots.slots w) ?_ ?_
    · refine Finishes.bind ((rearmSlots_sound env
        (run.slots.slots.map Slot.clearNonreplayable)).strengthen
          fun w hw => clearNonreplayable_sound hw.1) fun slots => ?_
      refine Finishes.pure fun w hw => ⟨?_, hw.2⟩
      rw [hw.1, List.length_map]
    · refine fun slots => Finishes.pure fun w hw => ⟨hw.1, ?_⟩
      have hsound : Sound [] (run.taken.map Observation.event ++ run.forgotten ++
          ([] : List WaitEvent).map Observation.event ++ signals run.slots.slots) slots.slots w := by
        rw [List.map_nil, List.append_nil]
        exact hw.2
      have hkeeps := keeps_taken hsound hforgotten fun obs => of_mem_signals
      rwa [List.append_nil] at hkeeps
  | drainReplayable =>
    refine Finishes.pure fun w hw => ⟨?_, ?_⟩
    · simp [SlotSet.drainReplayable]
    · exact keeps_taken (drainReplayable_sound hw.1) hforgotten fun obs => of_mem_signals
  | outside step => exact fun w hw => ⟨run, _, rfl, rfl, hw⟩

/-- **Any calls keep the slots in order.** -/
theorem calls_keeps (cs : List (SlotCall σ)) (run : SlotRun β (Nat × φ) (Nat × ψ))
    (hfuel : 2 * run.slots.slots.length < fuel) :
    Finishes (Keeps run) (calls env fuel cs run) fun run' w =>
      run'.slots.slots.length = run.slots.slots.length ∧ Keeps run' w := by
  induction cs generalizing run with
  | nil => exact Finishes.pure fun w hw => ⟨rfl, hw⟩
  | cons c rest ih =>
    refine Finishes.bind (call_keeps run c hfuel) fun run' => ?_
    refine Finishes.assume fun hlength => ?_
    exact (ih run' (by rwa [hlength])).weaken fun run'' w hw => ⟨hw.1.trans hlength, hw.2⟩

end SlotRun

/-- **The states of the slots.** Over any calls on fresh slots, any behaviour of the observer and
any changes outside, the session finishes: no `expect` fails, and the loop of `poll_available` ends
within twice as many passes as there are slots. A slot that holds an observation is bound and has no
`next` in flight; every observation that was dequeued has been handed over, or was a signal and is
forgotten, or is still held, so that none is overwritten; and no `bind` or `next` was polled after it
completed. -/
theorem slots_sound (env : Env σ β φ ψ) (registrations : List Registration)
    (cs : List (SlotCall σ)) (host : σ) (extra : Nat) :
    ∃ run w, SlotRun.session env (2 * registrations.length + 1 + extra) registrations cs
        ⟨(host, ⟨0, []⟩), [], []⟩ = some (run, w) ∧
      run.slots.slots.length = registrations.length ∧
      (∀ slot ∈ run.slots.slots, slot.Well) ∧
      (run.taken.map Observation.event ++ run.forgotten ++ heldObs run.slots.slots).Perm
        (dequeued w.log) ∧
      (∀ obs ∈ run.forgotten, observationIsReplayable obs = false) ∧
      Ended w.host.2.polls := by
  have hsession : Finishes (Flies [] [])
      (SlotRun.session env (2 * registrations.length + 1 + extra) registrations cs)
      fun run w => run.slots.slots.length = registrations.length ∧ run.Keeps w := by
    refine Finishes.bind (new_sound env registrations) fun slots => ?_
    refine Finishes.assume fun hlength => ?_
    have hfuel : 2 * slots.length < 2 * registrations.length + 1 + extra := by omega
    refine ((SlotRun.calls_keeps cs ⟨⟨slots, none⟩, [], []⟩ hfuel).strengthen
      fun w hw => ⟨hw, nofun⟩).weaken fun run w hw => ⟨hw.1.trans hlength, hw.2⟩
  obtain ⟨run, w, hrun, hlength, hsound, hforgotten⟩ :=
    hsession ⟨(host, ⟨0, []⟩), [], []⟩ ⟨Flying.start, .refl _⟩
  exact ⟨run, w, hrun, hlength, hsound.1, hsound.2.2, hforgotten, hsound.2.1.ended⟩

end Follow

end Waitprims
