import Mathlib
import Waitprims.Async.FifoObserver
import Waitprims.Async.SlotSet

/-! # What a held session owns

Between two polls a session owns the events its slots have harvested, besides what it took out of
them before. Every operation of the slots has one triple over an arbitrary ledger, relative to the
events `front` that are owned outside the slots.

* **`Held`**, **`Owns`** — an owned event with its slot and its bind.
* **`SlotOk`** — a slot with a harvested observation is bound, and its `next` belongs to its bind.
* **`pollAvailable_spec`**, **`harvestPollReady_spec`**, **`rearmIdle_spec`** — the polls.
* **`takeEvents_spec`**, **`restoreHarvested_spec`**, **`restoreCustody_spec`** — what leaves the
  slots.
* **`BindsStay`** — a slot that is bound stays bound to the same bind. -/

namespace Waitprims

namespace Follow

open Fueled

variable {σ β φ ψ : Type} {env : Env σ β φ ψ} {ids : List IdToken} (ledger : Ledger env ids)

/-! ## Owned events -/

/-- An owned event, with the slot and the bind it was taken from. -/
structure Held (β : Type) where
  slot : Nat
  bind : β
  event : WaitEvent

/-- The item of an owned event. -/
def Held.item (held : Held β) : Item β := .event held.slot held.bind held.event

/-- The events owned for one slot, oldest first. -/
def heldIn (slot : Nat) (held : List (Held β)) : List WaitEvent :=
  (held.filter fun h => h.slot = slot).map Held.event

/-- **The session owns these events**, and no others. -/
def Owns (held : List (Held β)) (w : World σ β) : Prop := ledger.own [] (held.map Held.item) w

section owned

variable {ledger} {held held' : List (Held β)} {w : World σ β}

@[simp] theorem heldIn_nil (slot : Nat) : heldIn slot ([] : List (Held β)) = [] := rfl

@[simp] theorem heldIn_append (slot : Nat) (xs ys : List (Held β)) :
    heldIn slot (xs ++ ys) = heldIn slot xs ++ heldIn slot ys := by
  simp [heldIn]

theorem heldIn_eq_nil {slot : Nat} (h : ∀ e ∈ held, e.slot ≠ slot) : heldIn slot held = [] := by
  have hnone : (held.filter fun h => h.slot = slot) = [] := by
    rw [List.filter_eq_nil_iff]
    intro e he
    simpa using h e he
  rw [heldIn, hnone, List.map_nil]

/-- The events of a slot are those of its items. -/
theorem heldAt_items (slot : Nat) (held : List (Held β)) :
    heldAt slot (held.map Held.item) = heldIn slot held := by
  induction held with
  | nil => rfl
  | cons e rest ih =>
    rw [List.map_cons, Held.item, heldAt_event, ih]
    by_cases h : e.slot = slot
    · simp [heldIn, h]
    · simp [heldIn, h]

/-- What is owned may be reordered across slots. -/
theorem Owns.settle (h : Owns ledger held w) (hsub : held' ⊆ held)
    (hsame : ∀ slot, heldIn slot held' = heldIn slot held) : Owns ledger held' w := by
  refine ledger.settle (List.Subset.refl []) (List.map_subset _ hsub) (fun slot => ?_) h
  rw [heldAt_items, heldAt_items, hsame]

/-- Events of one slot and events of other slots do not get into each other's way. -/
theorem heldIn_swap {front back rest : List (Held β)} {slot : Nat}
    (hback : ∀ e ∈ back, e.slot ≠ slot) (hrest : ∀ e ∈ rest, e.slot = slot) (k : Nat) :
    heldIn k (front ++ rest ++ back) = heldIn k (front ++ back ++ rest) := by
  rw [heldIn_append, heldIn_append, heldIn_append, heldIn_append]
  by_cases hk : k = slot
  · subst hk
    rw [heldIn_eq_nil hback]
    simp
  · have hnone : heldIn k rest = [] :=
      heldIn_eq_nil fun e he heq => hk (heq.symm.trans (hrest e he))
    rw [hnone]
    simp

/-- **Events of one slot** may be moved in front of events of other slots, -/
theorem Owns.swap {front back rest : List (Held β)} {slot : Nat}
    (h : Owns ledger (front ++ back ++ rest) w) (hback : ∀ e ∈ back, e.slot ≠ slot)
    (hrest : ∀ e ∈ rest, e.slot = slot) : Owns ledger (front ++ rest ++ back) w := by
  refine h.settle (fun e he => ?_) (heldIn_swap hback hrest)
  simp only [List.mem_append] at he ⊢
  tauto

/-- and behind them. -/
theorem Owns.unswap {front back rest : List (Held β)} {slot : Nat}
    (h : Owns ledger (front ++ rest ++ back) w) (hback : ∀ e ∈ back, e.slot ≠ slot)
    (hrest : ∀ e ∈ rest, e.slot = slot) : Owns ledger (front ++ back ++ rest) w := by
  refine h.settle (fun e he => ?_) fun k => (heldIn_swap hback hrest k).symm
  simp only [List.mem_append] at he ⊢
  tauto

/-- Of ascending slots, at most one is a given slot. -/
theorem length_filter_slot_le (hascending : held.Pairwise fun e e' => e.slot < e'.slot)
    (slot : Nat) : (held.filter fun e => e.slot = slot).length ≤ 1 := by
  induction held with
  | nil => simp
  | cons e rest ih =>
    obtain ⟨hlater, hrest⟩ := List.pairwise_cons.mp hascending
    rw [List.filter_cons]
    split
    · next hslot =>
      have hnone : (rest.filter fun e' => e'.slot = slot) = [] := by
        rw [List.filter_eq_nil_iff]
        intro e' he'
        have hlt := hlater e' he'
        have heq : e.slot = slot := by simpa using hslot
        simp only [decide_eq_true_eq]
        omega
      rw [hnone, List.length_singleton]
    · exact ih hrest

/-- Events of ascending slots may be reversed. -/
theorem Owns.reverse {front : List (Held β)} (h : Owns ledger (front ++ held) w)
    (hascending : held.Pairwise fun e e' => e.slot < e'.slot) :
    Owns ledger (front ++ held.reverse) w := by
  refine h.settle (fun e he => by simpa using he) fun slot => ?_
  have hfew := length_filter_slot_le hascending slot
  rw [heldIn_append, heldIn_append, heldIn, heldIn, heldIn, List.filter_reverse]
  generalize (held.filter fun e => e.slot = slot) = few at hfew
  rcases few with _ | ⟨e, _ | ⟨e', rest⟩⟩
  · rfl
  · rfl
  · simp at hfew

/-- The events of an observation, as events of a slot. -/
def taken (slot : Nat) (bind : β) (obs : Observation) : List (Held β) :=
  obs.events.map (Held.mk slot bind)

theorem taken_slot {slot : Nat} {bind : β} {obs : Observation} :
    ∀ e ∈ taken slot bind obs, e.slot = slot := by
  intro e he
  obtain ⟨event, -, rfl⟩ := List.mem_map.mp he
  rfl

/-- A dequeued event is owned; a signal is let go of. -/
theorem owns_taken {mark : Mark} {slot : Nat} {bind : β} {obs : Observation}
    (h : ledger.own [] (held.map Held.item ++ [Item.of mark slot bind obs]) w) :
    Owns ledger (held ++ taken slot bind obs) w := by
  unfold Owns
  rw [List.map_append]
  cases obs with
  | event event => exact h
  | _ =>
    have hsame := ledger.release h
    simpa [taken, Observation.events] using hsame

end owned

/-! ## Slots in order -/

/-- The pending `next` of a bound slot. -/
def NextOk (bind : β) : NextFut β ψ → Prop
  | .start owner => owner = bind
  | .running fut => fut.1 = bind ∧ ledger.attached bind fut.2

/-- A slot in order: its futures are for its own registration, and an observation was harvested
from its bind. -/
structure SlotOk (idx : Nat) (slot : Slot β φ ψ) : Prop where
  aimed : ∀ fut, slot.bindFut = some fut → ledger.aim idx fut
  seated : ∀ bind, slot.bind = some bind → ledger.seat idx bind
  armed : ∀ fut, slot.nextFut = some fut → ∃ bind, slot.bind = some bind ∧ NextOk ledger bind fut
  owned : slot.harvested.isSome → slot.bind.isSome

/-- Every slot is in order, the first one having the index `base`. -/
def SlotsOk : Nat → List (Slot β φ ψ) → Prop
  | _, [] => True
  | base, slot :: rest => SlotOk ledger base slot ∧ SlotsOk (base + 1) rest

/-- The events owned through a bind and what was harvested from it. -/
def boundHeld (idx : Nat) : Option β → Option Observation → List (Held β)
  | some bind, some obs => taken idx bind obs
  | _, _ => []

/-- The event a slot owns. -/
def slotHeld (idx : Nat) (slot : Slot β φ ψ) : List (Held β) :=
  boundHeld idx slot.bind slot.harvested

/-- The events the slots own, the first slot having the index `base`. -/
def heldFrom : Nat → List (Slot β φ ψ) → List (Held β)
  | _, [] => []
  | base, slot :: rest => slotHeld base slot ++ heldFrom (base + 1) rest

/-- **The invariant between two polls**: the slots are in order, and owned are the events `front`
and those of the slots. -/
def Holding (front : List (Held β)) (base : Nat) (slots : List (Slot β φ ψ)) (w : World σ β) :
    Prop :=
  SlotsOk ledger base slots ∧ Owns ledger (front ++ heldFrom base slots) w

section slots

variable {ledger} {base idx : Nat} {slot : Slot β φ ψ} {slots : List (Slot β φ ψ)}

theorem slotHeld_slot : ∀ e ∈ slotHeld idx slot, e.slot = idx := by
  intro e he
  unfold slotHeld boundHeld at he
  split at he
  · exact taken_slot e he
  · cases he

@[simp] theorem boundHeld_none (idx : Nat) (bind : Option β) : boundHeld idx bind none = [] := by
  cases bind <;> rfl

theorem slotHeld_none (h : slot.harvested = none) : slotHeld idx slot = [] := by
  rw [slotHeld, h, boundHeld_none]

theorem heldFrom_slot : ∀ e ∈ heldFrom base slots, base ≤ e.slot := by
  induction slots generalizing base with
  | nil =>
    intro e he
    cases he
  | cons slot rest ih =>
    intro e he
    rcases List.mem_append.mp he with he | he
    · rw [slotHeld_slot e he]
    · have hle := ih e he
      omega

/-- The owned events of the slots come in slot order, one a slot. -/
theorem heldFrom_sorted (base : Nat) (slots : List (Slot β φ ψ)) :
    (heldFrom base slots).Pairwise fun e e' => e.slot < e'.slot := by
  induction slots generalizing base with
  | nil => exact List.Pairwise.nil
  | cons slot rest ih =>
    rw [heldFrom, List.pairwise_append]
    refine ⟨?_, ih (base + 1), fun e he e' he' => ?_⟩
    · unfold slotHeld boundHeld
      split
      · next bind obs _ _ =>
        rw [taken]
        cases obs <;> simp [Observation.events]
      · exact List.Pairwise.nil
    · have hle := heldFrom_slot e' he'
      rw [slotHeld_slot e he]
      omega

theorem SlotsOk.getElem? (h : SlotsOk ledger base slots) {i : Nat} (hi : slots[i]? = some slot) :
    SlotOk ledger (base + i) slot := by
  induction slots generalizing base i with
  | nil => simp at hi
  | cons first rest ih =>
    cases i with
    | zero =>
      obtain rfl : first = slot := by simpa using hi
      exact h.1
    | succ i =>
      have hok := ih h.2 (by simpa using hi)
      rwa [Nat.add_assoc, Nat.add_comm 1 i] at hok

/-- The bind of a slot sits there. -/
theorem SlotsOk.seat_of_bindAt {s : SlotSet β φ ψ} (h : SlotsOk ledger 0 s.slots) {i : Nat}
    {bind : β} (hat : s.bindAt i = some bind) : ledger.seat i bind := by
  obtain ⟨slot, hi, hbind⟩ := Option.bind_eq_some_iff.mp hat
  have hok := h.getElem? hi
  rw [Nat.zero_add] at hok
  exact hok.seated bind hbind

/-- Emptying the slots leaves their binds. -/
theorem bindAt_drained (s : SlotSet β φ ψ) (i : Nat) : s.drainReplayable.1.bindAt i = s.bindAt i := by
  rw [SlotSet.bindAt, SlotSet.drainReplayable, List.getElem?_map, Option.bind_map]
  rfl

/-- Forgetting a harvested observation keeps a slot in order. -/
theorem SlotOk.empty (h : SlotOk ledger idx slot) :
    SlotOk ledger idx { slot with harvested := none } where
  aimed := h.aimed
  seated := h.seated
  armed := h.armed
  owned := by simp

end slots

/-! ## Polling one slot -/

variable {ledger} {idx : Nat} {slot : Slot β φ ψ} (held : List (Held β))

theorem dropNextFut_spec (fut : Option (NextFut β ψ)) :
    Triple (Owns ledger held) (dropNextFut env fut) fun _ => Owns ledger held := by
  unfold dropNextFut
  split
  · next fut => exact ledger.dropNext [] _ fut
  · exact Triple.pure fun w h => h

theorem dropBindFut_spec (fut : Option φ) :
    Triple (Owns ledger held) (dropBindFut env fut) fun _ => Owns ledger held := by
  cases fut with
  | none => exact Triple.pure fun w h => h
  | some fut => exact ledger.dropBind [] _ fut

/-- **Arming** a bound slot puts it in order. -/
theorem armNext_spec (haim : ∀ fut, slot.bindFut = some fut → ledger.aim idx fut)
    (hseat : ∀ bind, slot.bind = some bind → ledger.seat idx bind) :
    Triple (Owns ledger held) (slot.armNext env) fun slot' w =>
      (SlotOk ledger idx slot' ∧ slot'.harvested = slot.harvested) ∧ Owns ledger held w := by
  obtain ⟨owner, bindFut, nextFut, harvested⟩ := slot
  cases owner with
  | none => exact Triple.exhausted
  | some bind =>
    refine Triple.bind (dropNextFut_spec held nextFut) fun _ => Triple.pure fun w h => ?_
    have hok : SlotOk ledger idx ⟨some bind, bindFut, some (.start bind), harvested⟩ := by
      refine ⟨haim, hseat, ?_, fun _ => rfl⟩
      rintro fut ⟨⟩
      exact ⟨bind, rfl, rfl⟩
    exact ⟨⟨hok, rfl⟩, h⟩

/-- What one poll of a `next` leaves. -/
@[simp] def NextPolled (ledger : Ledger env ids) (held : List (Held β)) (idx : Nat) (bind : β) :
    Polled (NextFut β ψ) Observation → World σ β → Prop
  | .ready (.ok obs) => Owns ledger (held ++ taken idx bind obs)
  | .ready (.error _) => Owns ledger held
  | .pending fut => fun w => NextOk ledger bind fut ∧ Owns ledger held w

theorem pollRunning_spec {bind : β} {fut : β × ψ} (hseat : ledger.seat idx bind)
    (hbind : fut.1 = bind) (hattached : ledger.attached bind fut.2) :
    Triple (Owns ledger held) (pollRunning env fut) (NextPolled ledger held idx bind) := by
  obtain ⟨owner, fut⟩ := fut
  obtain rfl : owner = bind := hbind
  refine Triple.bind (ledger.pollNext [] _ hseat hattached) ?_
  rintro ((err | obs) | _)
  · exact Triple.pure fun w h => h
  · exact Triple.pure fun w h => owns_taken h
  · exact Triple.pure fun w h => ⟨⟨rfl, hattached⟩, h⟩

theorem pollNextFut_spec {bind : β} {fut : NextFut β ψ} (hseat : ledger.seat idx bind)
    (hnext : NextOk ledger bind fut) :
    Triple (Owns ledger held) (pollNextFut env fut) (NextPolled ledger held idx bind) := by
  cases fut with
  | start owner =>
    obtain rfl : owner = bind := hnext
    refine Triple.bind (ledger.next [] _ hseat) fun fut => ?_
    intro w hw
    exact pollRunning_spec held hseat hw.1 hw.2.1 w hw.2.2
  | running fut => exact pollRunning_spec held hseat hnext.1 hnext.2

/-- **Polling the bind** of a slot takes nothing. -/
theorem pollSlotBind_spec (hok : SlotOk ledger idx slot) (hempty : slot.harvested = none)
    (pass : Pass) :
    Triple (Owns ledger held) (pollSlotBind env slot pass) fun r w =>
      (SlotOk ledger idx r.1 ∧ r.1.harvested = none) ∧ Owns ledger held w := by
  unfold pollSlotBind
  cases hfut : slot.bindFut with
  | none => exact Triple.pure fun w h => ⟨⟨hok, hempty⟩, h⟩
  | some fut =>
    refine Triple.bind (ledger.pollBind [] _ (hok.aimed fut hfut)) ?_
    rintro ((err | bind) | _)
    · refine Triple.pure fun w h => ⟨⟨⟨?_, hok.seated, hok.armed, hok.owned⟩, hempty⟩, h.2⟩
      intro fut' hfut'
      cases hfut'
    · refine Triple.assume (p := ∀ b, Poll.ready (Except.ok bind) = .ready (.ok b) →
        ledger.seat idx b) fun hseat => ?_
      have hbound : ledger.seat idx bind := hseat bind rfl
      have harm : Triple (Owns ledger held)
          (Slot.armNext env { slot with bindFut := none, bind := some bind })
          fun slot' w => (SlotOk ledger idx slot' ∧ slot'.harvested = slot.harvested) ∧
            Owns ledger held w := by
        apply armNext_spec held
        · intro fut hfut
          cases hfut
        · intro b hb
          cases hb
          exact hbound
      refine Triple.bind harm fun slot' => Triple.pure fun w h => ?_
      exact ⟨⟨h.1.1, h.1.2.trans hempty⟩, h.2⟩
    · exact Triple.pure fun w h => ⟨⟨hok, hempty⟩, h.2⟩

/-- **Polling the `next`** of a slot with nothing harvested owns what it yields. -/
theorem pollSlotNext_spec (hok : SlotOk ledger idx slot) (hempty : slot.harvested = none)
    (pass : Pass) :
    Triple (Owns ledger held) (pollSlotNext env slot pass) fun r w =>
      SlotOk ledger idx r.1 ∧ Owns ledger (held ++ slotHeld idx r.1) w := by
  unfold pollSlotNext
  cases hfut : slot.nextFut with
  | none =>
    refine Triple.pure fun w h => ⟨hok, ?_⟩
    rw [slotHeld_none hempty, List.append_nil]
    exact h
  | some fut =>
    obtain ⟨bind, hbind, hnext⟩ := hok.armed fut hfut
    refine Triple.bind (pollNextFut_spec held (hok.seated bind hbind) hnext) ?_
    rintro ((err | obs) | fut')
    · refine Triple.pure fun w h => ⟨⟨hok.aimed, hok.seated, by simp, hok.owned⟩, ?_⟩
      rw [slotHeld, hempty, boundHeld_none, List.append_nil]
      exact h
    · refine Triple.pure fun w h => ⟨⟨hok.aimed, hok.seated, by simp, ?_⟩, ?_⟩
      · simp [hbind]
      · rw [slotHeld, hbind]
        exact h
    · refine Triple.pure fun w h => ⟨⟨hok.aimed, hok.seated, ?_, hok.owned⟩, ?_⟩
      · rintro _ ⟨⟩
        exact ⟨bind, hbind, h.1⟩
      · rw [slotHeld, hempty, boundHeld_none, List.append_nil]
        exact h.2

/-- **Polling a slot**: one with an observation is left alone. -/
theorem pollSlot_spec (hok : SlotOk ledger idx slot) (pass : Pass) :
    Triple (Owns ledger (held ++ slotHeld idx slot)) (pollSlot env slot pass) fun r w =>
      SlotOk ledger idx r.1 ∧ Owns ledger (held ++ slotHeld idx r.1) w := by
  unfold pollSlot
  cases hobs : slot.harvested with
  | some obs => exact Triple.pure fun w h => ⟨hok, h⟩
  | none =>
    rw [slotHeld_none hobs, List.append_nil]
    refine Triple.bind (pollSlotBind_spec held hok hobs pass) ?_
    rintro ⟨slot', pass'⟩
    exact Triple.assume fun h => pollSlotNext_spec held h.1 h.2 pass'

/-- **`poll_ready`** harvests a bound slot that has nothing harvested yet. -/
theorem harvestSlot_spec (hok : SlotOk ledger idx slot) :
    Triple (Owns ledger (held ++ slotHeld idx slot)) (harvestSlot env slot) fun slot' w =>
      SlotOk ledger idx slot' ∧ Owns ledger (held ++ slotHeld idx slot') w := by
  unfold harvestSlot
  split
  · next bind hobs hbind =>
    rw [slotHeld_none hobs, List.append_nil]
    refine Triple.bind (ledger.pollReady [] _ (hok.seated bind hbind) (Or.inl (Eq.refl Mark.fresh))) ?_
    rintro (_ | obs)
    · refine Triple.pure fun w h => ⟨hok, ?_⟩
      rw [slotHeld_none hobs, List.append_nil]
      exact h
    · refine Triple.bind ((dropNextFut_spec (held ++ taken idx bind obs) slot.nextFut).strengthen
        fun w h => owns_taken h) fun _ => Triple.pure fun w h => ?_
      refine ⟨⟨hok.aimed, hok.seated, by simp, by simp [hbind]⟩, ?_⟩
      rw [slotHeld, hbind]
      exact h
  · exact Triple.pure fun w h => ⟨hok, h⟩

/-! ## All slots -/

section each

variable {front : List (Held β)} {base : Nat} {slots rest : List (Slot β φ ψ)} {w : World σ β}

/-- The event of the first slot is not one of the others. -/
theorem ne_of_mem_heldFrom {e : Held β} (he : e ∈ heldFrom (base + 1) rest) : e.slot ≠ base := by
  have hle := heldFrom_slot e he
  omega

/-- The event of the first slot behind those of the others. -/
theorem Owns.headLast (h : Owns ledger (front ++ heldFrom base (slot :: rest)) w) :
    Owns ledger (front ++ heldFrom (base + 1) rest ++ slotHeld base slot) w := by
  rw [heldFrom, ← List.append_assoc] at h
  exact h.unswap (fun _ => ne_of_mem_heldFrom) slotHeld_slot

/-- The event of the first slot in front of those of the others. -/
theorem Owns.headFirst
    (h : Owns ledger (front ++ heldFrom (base + 1) rest ++ slotHeld base slot) w) :
    Owns ledger (front ++ slotHeld base slot ++ heldFrom (base + 1) rest) w :=
  h.swap (fun _ => ne_of_mem_heldFrom) slotHeld_slot

/-- What every ledger keeps, a session holding its slots keeps. -/
theorem holding_frame {α : Type} {x : Act σ β α}
    (hx : ∀ items, Triple (ledger.own [] items) x fun _ => ledger.own [] items) :
    Triple (Holding ledger front base slots) x fun _ => Holding ledger front base slots :=
  fun w h a w' hrun => ⟨h.1, hx _ w h.2 a w' hrun⟩

/-- A slot that was dealt with, in front of the others. -/
theorem Holding.cons (hok : SlotOk ledger base slot)
    (h : Holding ledger (front ++ slotHeld base slot) (base + 1) rest w) :
    Holding ledger front base (slot :: rest) w := by
  refine ⟨⟨hok, h.1⟩, ?_⟩
  rw [heldFrom, ← List.append_assoc]
  exact h.2

/-- **A loop over the slots**, by its step on one of them. -/
theorem each_holding {step : Slot β φ ψ → Act σ β (Slot β φ ψ)}
    (loop : List (Slot β φ ψ) → Act σ β (List (Slot β φ ψ))) (hnil : loop [] = return [])
    (hcons : ∀ slot rest, loop (slot :: rest) = do
      let slot ← step slot
      let rest ← loop rest
      return slot :: rest)
    (hstep : ∀ (held : List (Held β)) {idx : Nat} {slot : Slot β φ ψ}, SlotOk ledger idx slot →
      Triple (Owns ledger (held ++ slotHeld idx slot)) (step slot) fun slot' w =>
        SlotOk ledger idx slot' ∧ Owns ledger (held ++ slotHeld idx slot') w)
    (front : List (Held β)) (base : Nat) (slots : List (Slot β φ ψ)) :
    Triple (Holding ledger front base slots) (loop slots) (Holding ledger front base) := by
  induction slots generalizing front base with
  | nil =>
    rw [hnil]
    exact Triple.pure fun w h => h
  | cons slot rest ih =>
    rw [hcons]
    refine Triple.fact (p := SlotsOk ledger base (slot :: rest)) (fun w h => h.1) fun hoks => ?_
    refine Triple.bind ((hstep (front ++ heldFrom (base + 1) rest) hoks.1).strengthen
      fun w h => h.2.headLast) fun slot' => ?_
    refine Triple.assume fun hok' => ?_
    refine Triple.bind ((ih (front ++ slotHeld base slot') (base + 1)).strengthen
      fun w h => ⟨hoks.2, h.headFirst⟩) fun rest' => ?_
    exact Triple.pure fun w h => h.cons hok'

/-- One pass of polls. -/
theorem pollSlots_holding (front : List (Held β)) (base : Nat) (slots : List (Slot β φ ψ))
    (pass : Pass) :
    Triple (Holding ledger front base slots) (pollSlots env slots pass) fun r =>
      Holding ledger front base r.1 := by
  induction slots generalizing front base pass with
  | nil => exact Triple.pure fun w h => h
  | cons slot rest ih =>
    refine Triple.fact (p := SlotsOk ledger base (slot :: rest)) (fun w h => h.1) fun hoks => ?_
    refine Triple.bind ((pollSlot_spec (front ++ heldFrom (base + 1) rest) hoks.1 pass).strengthen
      fun w h => h.2.headLast) ?_
    rintro ⟨slot', pass'⟩
    refine Triple.assume fun hok' => ?_
    refine Triple.bind ((ih (front ++ slotHeld base slot') (base + 1) pass').strengthen
      fun w h => ⟨hoks.2, h.headFirst⟩) ?_
    rintro ⟨rest', pass''⟩
    exact Triple.pure fun w h => h.cons hok'

/-- **`poll_available`** keeps what the session holds. -/
theorem pollAvailable_spec (front : List (Held β)) (fuel : Nat) (s : SlotSet β φ ψ) :
    Triple (Holding ledger front 0 s.slots) (s.pollAvailable env fuel) fun s' =>
      Holding ledger front 0 s'.slots := by
  induction fuel generalizing s with
  | zero => exact Triple.exhausted
  | succ fuel ih =>
    refine Triple.bind (pollSlots_holding front 0 s.slots ⟨s.fault, false⟩) ?_
    rintro ⟨slots', pass⟩
    by_cases hprogressed : pass.progressed = true
    · simp only [hprogressed, if_true]
      exact ih ⟨slots', pass.fault⟩
    · simp only [hprogressed]
      exact Triple.pure fun w h => h

/-- **`harvest_poll_ready`** keeps what the session holds. -/
theorem harvestPollReady_spec (front : List (Held β)) (s : SlotSet β φ ψ) :
    Triple (Holding ledger front 0 s.slots) (s.harvestPollReady env) fun s' =>
      Holding ledger front 0 s'.slots := by
  refine Triple.bind (each_holding (SlotSet.harvestSlots env) rfl (fun _ _ => rfl)
    (fun held _ _ hok => harvestSlot_spec held hok) front 0 s.slots) fun slots => ?_
  exact Triple.pure fun w h => h

/-- **Arming again** takes nothing. -/
theorem rearm_spec (held : List (Held β)) {idx : Nat} {slot : Slot β φ ψ}
    (hok : SlotOk ledger idx slot) :
    Triple (Owns ledger (held ++ slotHeld idx slot)) (slot.rearm env) fun slot' w =>
      SlotOk ledger idx slot' ∧ Owns ledger (held ++ slotHeld idx slot') w := by
  unfold Slot.rearm
  split
  · next hidle =>
    have hobs : slot.harvested = none := by
      simp only [Bool.and_eq_true, Option.isNone_iff_eq_none] at hidle
      exact hidle.2
    rw [slotHeld_none hobs, List.append_nil]
    refine (armNext_spec held hok.aimed hok.seated).weaken fun slot' w h => ⟨h.1.1, ?_⟩
    rw [slotHeld_none (h.1.2.trans hobs), List.append_nil]
    exact h.2
  · exact Triple.pure fun w h => ⟨hok, h⟩

/-- Forgetting a signal forgets no event. -/
theorem slotHeld_clearNonreplayable (idx : Nat) (slot : Slot β φ ψ) :
    slotHeld idx slot.clearNonreplayable = slotHeld idx slot := by
  obtain ⟨bind, bindFut, nextFut, harvested⟩ := slot
  rcases harvested with _ | obs
  · rfl
  · cases bind <;> cases obs <;> rfl

/-- Nor does it in all slots. -/
theorem Holding.clear (h : Holding ledger front base slots w) :
    Holding ledger front base (slots.map Slot.clearNonreplayable) w := by
  induction slots generalizing front base with
  | nil => exact h
  | cons slot rest ih =>
    have hrest : Holding ledger (front ++ slotHeld base slot) (base + 1) rest w := by
      refine ⟨h.1.2, ?_⟩
      have hown := h.2
      rwa [heldFrom, ← List.append_assoc] at hown
    have hok : SlotOk ledger base slot.clearNonreplayable := by
      unfold Slot.clearNonreplayable
      split
      · exact h.1.1.empty
      · exact h.1.1
    rw [List.map_cons]
    refine Holding.cons hok ?_
    rw [slotHeld_clearNonreplayable]
    exact ih hrest

/-- **`rearm_idle`** keeps what the session holds. -/
theorem rearmIdle_spec (front : List (Held β)) (s : SlotSet β φ ψ) :
    Triple (Holding ledger front 0 s.slots) (s.rearmIdle env) fun s' =>
      Holding ledger front 0 s'.slots := by
  refine Triple.bind ((each_holding (SlotSet.rearmSlots env) rfl (fun _ _ => rfl) rearm_spec front 0
    (s.slots.map Slot.clearNonreplayable)).strengthen fun w h => h.clear) fun slots => ?_
  exact Triple.pure fun w h => h

/-! ## What leaves the slots -/

/-- The events the slots own are those they have harvested. -/
theorem heldFrom_events (h : SlotsOk ledger base slots) :
    (heldFrom base slots).map Held.event = slots.filterMap Slot.event? := by
  induction slots generalizing base with
  | nil => rfl
  | cons slot rest ih =>
    rw [heldFrom, List.map_append, ih h.2, List.filterMap_cons]
    have howned := h.1.owned
    unfold slotHeld Slot.event?
    cases hobs : slot.harvested with
    | none => rw [boundHeld_none]; rfl
    | some obs =>
      obtain ⟨bind, hbind⟩ := Option.isSome_iff_exists.mp (howned (by rw [hobs]; rfl))
      rw [hbind]
      cases obs <;> rfl

/-- With their places. -/
theorem heldFrom_drained (h : SlotsOk ledger base slots) :
    ((slots.zipIdx base).filterMap fun p => p.1.event?.map fun event => (p.2, event)) =
      (heldFrom base slots).map fun e => (e.slot, e.event) := by
  induction slots generalizing base with
  | nil => rfl
  | cons slot rest ih =>
    rw [heldFrom, List.map_append, ← ih h.2, List.zipIdx_cons, List.filterMap_cons]
    have howned := h.1.owned
    unfold slotHeld Slot.event?
    cases hobs : slot.harvested with
    | none => rw [boundHeld_none]; rfl
    | some obs =>
      obtain ⟨bind, hbind⟩ := Option.isSome_iff_exists.mp (howned (by rw [hobs]; rfl))
      rw [hbind]
      cases obs <;> rfl

/-- An owned event comes from the bind of its slot. -/
theorem bind_of_mem_heldFrom {e : Held β} (he : e ∈ heldFrom base slots) :
    ∃ i slot, e.slot = base + i ∧ slots[i]? = some slot ∧ slot.bind = some e.bind := by
  induction slots generalizing base with
  | nil => cases he
  | cons slot rest ih =>
    rcases List.mem_append.mp he with he | he
    · refine ⟨0, slot, slotHeld_slot e he, rfl, ?_⟩
      unfold slotHeld boundHeld at he
      split at he
      · next bind obs hbind _ =>
        obtain ⟨event, -, rfl⟩ := List.mem_map.mp he
        exact hbind
      · cases he
    · obtain ⟨i, slot', hslot, hi, hbind⟩ := ih he
      exact ⟨i + 1, slot', by omega, hi, hbind⟩

/-- Slots that give up what they hold hold nothing, and stay in order. -/
theorem slotsOk_map {f : Slot β φ ψ → Slot β φ ψ}
    (hf : ∀ idx slot, SlotOk ledger idx slot → SlotOk ledger idx (f slot))
    (h : SlotsOk ledger base slots) : SlotsOk ledger base (slots.map f) := by
  induction slots generalizing base with
  | nil => trivial
  | cons slot rest ih => exact ⟨hf base slot h.1, ih h.2⟩

theorem heldFrom_map_nil {f : Slot β φ ψ → Slot β φ ψ} (hf : ∀ idx slot, slotHeld idx (f slot) = [])
    (base : Nat) (slots : List (Slot β φ ψ)) : heldFrom base (slots.map f) = [] := by
  induction slots generalizing base with
  | nil => rfl
  | cons slot rest ih => rw [List.map_cons, heldFrom, hf, ih, List.append_nil]

/-- **`take_events`**: the events of the slots are taken in their order, and none is left. -/
theorem takeEvents_spec {s : SlotSet β φ ψ} (h : Holding ledger front 0 s.slots w) :
    s.takeEvents.2 = (heldFrom 0 s.slots).map Held.event ∧
      heldFrom 0 s.takeEvents.1.slots = [] ∧
      Holding ledger (front ++ heldFrom 0 s.slots) 0 s.takeEvents.1.slots w := by
  have hnone : heldFrom 0 s.takeEvents.1.slots = [] := by
    refine heldFrom_map_nil (fun idx slot => ?_) 0 s.slots
    obtain ⟨bind, bindFut, nextFut, harvested⟩ := slot
    rcases harvested with _ | obs
    · cases bind <;> rfl
    · cases bind <;> cases obs <;> rfl
  refine ⟨(heldFrom_events h.1).symm, hnone, slotsOk_map (fun idx slot hok => ?_) h.1, ?_⟩
  · split
    · exact hok.empty
    · exact hok
  · rw [hnone, List.append_nil]
    exact h.2

/-- **Handing events back**, the newest first: no restore is rejected, so none is left. -/
theorem restoreAll_spec (hbroken : ∀ w, ¬ ledger.broken w) (s : SlotSet β φ ψ)
    (front held : List (Held β))
    (hbinds : ∀ e ∈ held, s.bindAt e.slot = some e.bind ∧ ledger.seat e.slot e.bind)
    (firstErr : Option Error) :
    Triple (Owns ledger (front ++ held.reverse))
      (s.restoreAll env (held.map fun e => (e.slot, e.event)) firstErr)
      fun _ => Owns ledger front := by
  induction held generalizing firstErr with
  | nil => exact Triple.pure fun w h => by simpa using h
  | cons e rest ih =>
    obtain ⟨hbind, hseat⟩ := hbinds e List.mem_cons_self
    have hnext := ih fun e' he' => hbinds e' (List.mem_cons_of_mem _ he')
    rw [List.map_cons]
    unfold SlotSet.restoreAll
    simp only [hbind]
    have hlast : ∀ w, Owns ledger (front ++ (e :: rest).reverse) w →
        ledger.own [] ((front ++ rest.reverse).map Held.item ++ [.event e.slot e.bind e.event]) w := by
      intro w h
      rw [List.reverse_cons, ← List.append_assoc, Owns, List.map_append] at h
      exact h
    refine Triple.bind ((ledger.restoreEvent [] _ hseat).strengthen hlast) ?_
    rintro (err | _)
    · exact fun w h => absurd h (hbroken w)
    · exact hnext firstErr

/-- The slots give back all they hold. -/
theorem restoreDrained_spec (hbroken : ∀ w, ¬ ledger.broken w) (front : List (Held β))
    (s : SlotSet β φ ψ) :
    Triple (Holding ledger front 0 s.slots)
      (s.drainReplayable.1.restoreAll env s.drainReplayable.2 none)
      fun _ => Owns ledger front := by
  refine Triple.fact (p := SlotsOk ledger 0 s.slots) (fun w h => h.1) fun hoks => ?_
  have hbinds : ∀ e ∈ heldFrom 0 s.slots,
      s.drainReplayable.1.bindAt e.slot = some e.bind ∧ ledger.seat e.slot e.bind := by
    intro e he
    obtain ⟨i, slot, hslot, hi, hbind⟩ := bind_of_mem_heldFrom he
    rw [Nat.zero_add] at hslot
    have hat : s.bindAt e.slot = some e.bind := by
      rw [SlotSet.bindAt, hslot, hi]
      exact hbind
    exact ⟨(bindAt_drained s e.slot).trans hat, hoks.seat_of_bindAt hat⟩
  have hrestore := restoreAll_spec hbroken s.drainReplayable.1 front (heldFrom 0 s.slots)
    hbinds none
  rw [← heldFrom_drained hoks] at hrestore
  exact hrestore.strengthen fun w h => h.2.reverse (heldFrom_sorted 0 s.slots)

/-- **Handing back what the slots hold.** -/
theorem restoreHarvested_spec (hbroken : ∀ w, ¬ ledger.broken w) (front : List (Held β))
    (s : SlotSet β φ ψ) :
    Triple (Holding ledger front 0 s.slots) (s.restoreHarvested env) fun _ =>
      Owns ledger front := by
  refine Triple.bind (restoreDrained_spec hbroken front s) ?_
  rintro (_ | err)
  · exact Triple.pure fun w h => h
  · exact Triple.pure fun w h => h

/-- Events that were taken from the slots before, each with the bind its slot still has, and under
the registration id of its slot. -/
def Anchored (set : RegistrationSet) (held : List (Held β)) (s : SlotSet β φ ψ) : Prop :=
  ∀ e ∈ held, s.bindAt e.slot = some e.bind ∧
    SlotSet.indexOf set e.event.registrationId = some e.slot

/-- Their places are found again by their ids. -/
theorem Anchored.newest {set : RegistrationSet} {held : List (Held β)} {s : SlotSet β φ ψ}
    (h : Anchored set held s) :
    ((held.map Held.event).reverse.filterMap fun event =>
      (SlotSet.indexOf set event.registrationId).map fun idx => (idx, event))
        = held.reverse.map fun e => (e.slot, e.event) := by
  rw [← List.map_reverse, List.filterMap_map]
  have heach : ∀ e ∈ held.reverse,
      ((fun event : WaitEvent =>
        (SlotSet.indexOf set event.registrationId).map fun idx => (idx, event)) ∘ Held.event) e
          = some (e.slot, e.event) := by
    intro e he
    simp [(h e (List.mem_reverse.mp he)).2]
  rw [List.filterMap_congr heach, ← List.filterMap_eq_map]
  rfl

/-- **Custody is handed back**: the slots first, then what was taken from them before, the newest
first. -/
theorem restoreCustody_spec (hbroken : ∀ w, ¬ ledger.broken w) {set : RegistrationSet}
    (front : List (Held β)) {held : List (Held β)} {s : SlotSet β φ ψ}
    (hanchored : Anchored set held s) :
    Triple (Holding ledger (front ++ held) 0 s.slots)
      (s.restoreCustody env set (held.map Held.event)) fun _ => Owns ledger front := by
  refine Triple.fact (p := SlotsOk ledger 0 s.slots) (fun w h => h.1) fun hoks => ?_
  have hbinds : ∀ e ∈ held.reverse,
      s.drainReplayable.1.bindAt e.slot = some e.bind ∧ ledger.seat e.slot e.bind := by
    intro e he
    obtain ⟨hat, -⟩ := hanchored e (List.mem_reverse.mp he)
    exact ⟨(bindAt_drained s e.slot).trans hat, hoks.seat_of_bindAt hat⟩
  unfold SlotSet.restoreCustody
  refine Triple.bind (restoreDrained_spec hbroken (front ++ held) s) fun firstErr => ?_
  rw [hanchored.newest]
  have hrestore := restoreAll_spec hbroken s.drainReplayable.1 front held.reverse hbinds firstErr
  rw [List.reverse_reverse] at hrestore
  refine Triple.bind hrestore ?_
  rintro (_ | err)
  · exact Triple.pure fun w h => h
  · exact Triple.pure fun w h => h

/-- `SlotSet::new`: each pending bind aims at its slot. -/
theorem new_spec (base : Nat) (registrations : List Registration)
    (hids : ∀ i registration, registrations[i]? = some registration →
      ids[base + i]? = some registration.registrationId) (front : List (Held β)) :
    Triple (Owns ledger front) (SlotSet.new env registrations) (Holding ledger front base) := by
  induction registrations generalizing base with
  | nil =>
    refine Triple.pure fun w h => ⟨trivial, ?_⟩
    rw [heldFrom, List.append_nil]
    exact h
  | cons registration rest ih =>
    refine Triple.bind (ledger.bind [] _ (hids 0 registration rfl)) fun fut => ?_
    refine Triple.assume fun haim => ?_
    refine Triple.bind (ih (base + 1) fun i reg hi => ?_) fun slots => ?_
    · rw [Nat.add_assoc, Nat.add_comm 1 i]
      exact hids (i + 1) reg hi
    · refine Triple.pure fun w h => Holding.cons ⟨?_, nofun, nofun, nofun⟩ ?_
      · rintro fut' ⟨⟩
        exact haim
      · rw [slotHeld_none rfl, List.append_nil]
        exact h

/-- Dropping a future of every slot takes nothing. -/
theorem dropEach_spec {drop : Slot β φ ψ → Act σ β Unit}
    (hdrop : ∀ slot, Triple (Owns ledger front) (drop slot) fun _ => Owns ledger front)
    (slots : List (Slot β φ ψ)) :
    Triple (Owns ledger front) (SlotSet.dropEach drop slots) fun _ => Owns ledger front := by
  induction slots with
  | nil => exact Triple.pure fun w h => h
  | cons slot rest ih => exact Triple.bind (hdrop slot) fun _ => ih

/-- `drop(slots)` takes nothing. -/
theorem dropSlots_spec (s : SlotSet β φ ψ) :
    Triple (Owns ledger front) (s.dropSlots env) fun _ => Owns ledger front :=
  Triple.bind (dropEach_spec (fun slot => dropBindFut_spec front slot.bindFut) s.slots)
    fun _ => dropEach_spec (fun slot => dropNextFut_spec front slot.nextFut) s.slots

end each

/-! ## Binds stay -/

/-- A slot waits for its bind until it is bound. -/
def Slot.Unsettled (slot : Slot β φ ψ) : Prop := slot.bindFut.isSome → slot.bind = none

/-- What every operation leaves of a slot: its bind stays, once it has one. -/
structure Slot.Keeps (slot slot' : Slot β φ ψ) : Prop where
  waits : slot'.Unsettled
  stays : ∀ bind, slot.bind = some bind → slot'.bind = some bind

/-- The same of all slots. -/
structure BindsStay (slots slots' : List (Slot β φ ψ)) : Prop where
  waits : ∀ slot ∈ slots', slot.Unsettled
  stays : ∀ (i : Nat) bind, slots[i]?.bind Slot.bind = some bind →
    slots'[i]?.bind Slot.bind = some bind

section binds

variable {slot slot' : Slot β φ ψ} {rest rest' slots : List (Slot β φ ψ)}

/-- An operation that changes neither bind nor pending bind. -/
theorem Slot.Keeps.of_eq (h : slot.Unsettled) (hbind : slot'.bind = slot.bind)
    (hfut : slot'.bindFut = slot.bindFut) : slot.Keeps slot' := by
  refine ⟨?_, fun bind hb => hbind.trans hb⟩
  rw [Unsettled, hbind, hfut]
  exact h

theorem Slot.Keeps.trans {slot'' : Slot β φ ψ} (h : slot.Keeps slot') (h' : slot'.Keeps slot'') :
    slot.Keeps slot'' :=
  ⟨h'.waits, fun bind hb => h'.stays bind (h.stays bind hb)⟩

theorem BindsStay.refl (h : ∀ slot ∈ slots, slot.Unsettled) : BindsStay slots slots :=
  ⟨h, fun _ _ hb => hb⟩

theorem BindsStay.trans {slots' slots'' : List (Slot β φ ψ)} (h : BindsStay slots slots')
    (h' : BindsStay slots' slots'') : BindsStay slots slots'' :=
  ⟨h'.waits, fun i bind hb => h'.stays i bind (h.stays i bind hb)⟩

theorem BindsStay.cons (h : slot.Keeps slot') (hrest : BindsStay rest rest') :
    BindsStay (slot :: rest) (slot' :: rest') := by
  refine ⟨fun s hs => ?_, fun i bind hb => ?_⟩
  · rcases List.mem_cons.mp hs with rfl | hs
    · exact h.waits
    · exact hrest.waits s hs
  · cases i with
    | zero => exact h.stays bind hb
    | succ i => exact hrest.stays i bind (by simpa using hb)

theorem BindsStay.map {f : Slot β φ ψ → Slot β φ ψ}
    (hf : ∀ slot : Slot β φ ψ, (f slot).bind = slot.bind ∧ (f slot).bindFut = slot.bindFut)
    (h : ∀ slot ∈ slots, slot.Unsettled) : BindsStay slots (slots.map f) := by
  induction slots with
  | nil => exact .refl h
  | cons slot rest ih =>
    obtain ⟨hslot, hrest⟩ := List.forall_mem_cons.mp h
    exact .cons (.of_eq hslot (hf slot).1 (hf slot).2) (ih hrest)

/-- Events taken before keep their places. -/
theorem Anchored.stays {set : RegistrationSet} {held : List (Held β)} {s s' : SlotSet β φ ψ}
    (h : Anchored set held s) (hstays : BindsStay s.slots s'.slots) : Anchored set held s' :=
  fun e he => ⟨hstays.stays e.slot e.bind (h e he).1, (h e he).2⟩

variable (env)

theorem armNext_bind (slot : Slot β φ ψ) :
    Triple (fun _ => True) (slot.armNext env) fun slot' (_ : World σ β) =>
      slot'.bind = slot.bind ∧ slot'.bindFut = slot.bindFut := by
  unfold Slot.armNext
  split
  · exact Triple.exhausted
  · exact Triple.bind Triple.vacuous fun _ => Triple.pure fun w _ => ⟨rfl, rfl⟩

/-- A slot is bound once only. -/
theorem pollSlotBind_keeps (h : slot.Unsettled) (pass : Pass) :
    Triple (fun _ => True) (pollSlotBind env slot pass) fun r (_ : World σ β) =>
      slot.Keeps r.1 := by
  unfold pollSlotBind
  cases hfut : slot.bindFut with
  | none => exact Triple.pure fun w _ => .of_eq h rfl rfl
  | some fut =>
    have hunbound : slot.bind = none := h (by rw [hfut]; rfl)
    refine Triple.bind Triple.vacuous ?_
    rintro ((err | bind) | _)
    · exact Triple.pure fun w _ => ⟨nofun, fun bind hb => hb⟩
    · refine Triple.bind (armNext_bind env _) fun slot' => Triple.pure fun w harmed => ⟨?_, ?_⟩
      · intro hsome
        rw [harmed.2] at hsome
        cases hsome
      · intro bind' hb
        rw [hunbound] at hb
        cases hb
    · exact Triple.pure fun w _ => .of_eq h rfl rfl

theorem pollSlotNext_keeps (h : slot.Unsettled) (pass : Pass) :
    Triple (fun _ => True) (pollSlotNext env slot pass) fun r (_ : World σ β) =>
      slot.Keeps r.1 := by
  unfold pollSlotNext
  split
  · exact Triple.pure fun w _ => .of_eq h rfl rfl
  · refine Triple.bind Triple.vacuous ?_
    rintro ((err | obs) | fut) <;> exact Triple.pure fun w _ => .of_eq h rfl rfl

theorem pollSlot_keeps (h : slot.Unsettled) (pass : Pass) :
    Triple (fun _ => True) (pollSlot env slot pass) fun r (_ : World σ β) => slot.Keeps r.1 := by
  unfold pollSlot
  split
  · exact Triple.pure fun w _ => .of_eq h rfl rfl
  · refine Triple.bind (pollSlotBind_keeps env h pass) ?_
    rintro ⟨slot', pass'⟩
    refine Triple.fact (p := slot.Keeps slot') (fun w hw => hw) fun hkeeps => ?_
    exact ((pollSlotNext_keeps env hkeeps.waits pass').conseq (fun _ _ => trivial)
      fun r w hr => hkeeps.trans hr)

theorem harvestSlot_keeps (h : slot.Unsettled) :
    Triple (fun _ => True) (harvestSlot env slot) fun slot' (_ : World σ β) =>
      slot.Keeps slot' := by
  unfold harvestSlot
  split
  · refine Triple.bind Triple.vacuous ?_
    rintro (_ | obs)
    · exact Triple.pure fun w _ => .of_eq h rfl rfl
    · exact Triple.bind Triple.vacuous fun _ => Triple.pure fun w _ => .of_eq h rfl rfl
  · exact Triple.pure fun w _ => .of_eq h rfl rfl

theorem rearm_keeps (h : slot.Unsettled) :
    Triple (fun _ => True) (slot.rearm env) fun slot' (_ : World σ β) => slot.Keeps slot' := by
  unfold Slot.rearm
  split
  · exact (armNext_bind env slot).weaken fun slot' w harmed => .of_eq h harmed.1 harmed.2
  · exact Triple.pure fun w _ => .of_eq h rfl rfl

/-- **A loop over the slots**, by its step on one of them. -/
theorem each_stays {step : Slot β φ ψ → Act σ β (Slot β φ ψ)}
    (loop : List (Slot β φ ψ) → Act σ β (List (Slot β φ ψ))) (hnil : loop [] = return [])
    (hcons : ∀ slot rest, loop (slot :: rest) = do
      let slot ← step slot
      let rest ← loop rest
      return slot :: rest)
    (hstep : ∀ {slot : Slot β φ ψ}, slot.Unsettled →
      Triple (fun _ => True) (step slot) fun slot' (_ : World σ β) => slot.Keeps slot')
    (slots : List (Slot β φ ψ)) (h : ∀ slot ∈ slots, slot.Unsettled) :
    Triple (fun _ => True) (loop slots) fun slots' (_ : World σ β) => BindsStay slots slots' := by
  induction slots with
  | nil =>
    rw [hnil]
    exact Triple.pure fun w _ => .refl h
  | cons slot rest ih =>
    obtain ⟨hslot, hrest⟩ := List.forall_mem_cons.mp h
    rw [hcons]
    refine Triple.bind (hstep hslot) fun slot' => ?_
    refine Triple.fact (p := slot.Keeps slot') (fun w hw => hw) fun hkeeps => ?_
    refine Triple.bind ((ih hrest).strengthen fun _ _ => trivial) fun rest' => ?_
    exact Triple.pure fun w hstays => hstays.cons hkeeps

theorem pollSlots_stays (slots : List (Slot β φ ψ)) (h : ∀ slot ∈ slots, slot.Unsettled)
    (pass : Pass) :
    Triple (fun _ => True) (pollSlots env slots pass) fun r (_ : World σ β) =>
      BindsStay slots r.1 := by
  induction slots generalizing pass with
  | nil => exact Triple.pure fun w _ => .refl h
  | cons slot rest ih =>
    obtain ⟨hslot, hrest⟩ := List.forall_mem_cons.mp h
    refine Triple.bind (pollSlot_keeps env hslot pass) ?_
    rintro ⟨slot', pass'⟩
    refine Triple.fact (p := slot.Keeps slot') (fun w hw => hw) fun hkeeps => ?_
    refine Triple.bind ((ih hrest pass').strengthen fun _ _ => trivial) ?_
    rintro ⟨rest', pass''⟩
    exact Triple.pure fun w hstays => .cons hkeeps hstays

/-- Over **`poll_available`** the binds stay, -/
theorem pollAvailable_stays (fuel : Nat) (s : SlotSet β φ ψ)
    (h : ∀ slot ∈ s.slots, slot.Unsettled) :
    Triple (fun _ => True) (s.pollAvailable env fuel) fun s' (_ : World σ β) =>
      BindsStay s.slots s'.slots := by
  induction fuel generalizing s with
  | zero => exact Triple.exhausted
  | succ fuel ih =>
    refine Triple.bind (pollSlots_stays env s.slots h ⟨s.fault, false⟩) ?_
    rintro ⟨slots', pass⟩
    refine Triple.fact (p := BindsStay s.slots slots') (fun w hw => hw) fun hstays => ?_
    by_cases hprogressed : pass.progressed = true
    · simp only [hprogressed, if_true]
      exact (ih ⟨slots', pass.fault⟩ hstays.waits).conseq (fun _ _ => trivial)
        fun s' w hs' => hstays.trans hs'
    · simp only [hprogressed]
      exact Triple.pure fun w _ => hstays

/-- over **`harvest_poll_ready`** -/
theorem harvestPollReady_stays (s : SlotSet β φ ψ) (h : ∀ slot ∈ s.slots, slot.Unsettled) :
    Triple (fun _ => True) (s.harvestPollReady env) fun s' (_ : World σ β) =>
      BindsStay s.slots s'.slots :=
  Triple.bind (each_stays (SlotSet.harvestSlots env) rfl (fun _ _ => rfl)
    (fun h => harvestSlot_keeps env h) s.slots h) fun _ => Triple.pure fun _ hstays => hstays

/-- and over **`rearm_idle`**. -/
theorem rearmIdle_stays (s : SlotSet β φ ψ) (h : ∀ slot ∈ s.slots, slot.Unsettled) :
    Triple (fun _ => True) (s.rearmIdle env) fun s' (_ : World σ β) =>
      BindsStay s.slots s'.slots := by
  have hclear : BindsStay s.slots (s.slots.map Slot.clearNonreplayable) := by
    refine .map (fun slot => ?_) h
    unfold Slot.clearNonreplayable
    split <;> exact ⟨rfl, rfl⟩
  refine Triple.bind (each_stays (SlotSet.rearmSlots env) rfl (fun _ _ => rfl)
    (fun h => rearm_keeps env h) _ hclear.waits) fun _ => ?_
  exact Triple.pure fun _ hstays => hclear.trans hstays

/-- Taking the events leaves the binds as well. -/
theorem takeEvents_stays (s : SlotSet β φ ψ) (h : ∀ slot ∈ s.slots, slot.Unsettled) :
    BindsStay s.slots s.takeEvents.1.slots := by
  refine .map (fun slot => ?_) h
  split <;> exact ⟨rfl, rfl⟩

/-- `SlotSet::new` leaves every slot waiting for its bind. -/
theorem new_waits (registrations : List Registration) :
    Triple (fun _ => True) (SlotSet.new env registrations) fun slots (_ : World σ β) =>
      ∀ slot ∈ slots, slot.Unsettled := by
  induction registrations with
  | nil => exact Triple.pure fun w _ slot hslot => absurd hslot List.not_mem_nil
  | cons registration rest ih =>
    refine Triple.bind Triple.vacuous fun fut => Triple.bind ih fun slots => ?_
    refine Triple.pure fun w hrest slot hslot => ?_
    rcases List.mem_cons.mp hslot with rfl | hslot
    · exact fun _ => rfl
    · exact hrest slot hslot

end binds

end Follow

end Waitprims
