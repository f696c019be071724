import Mathlib
import Waitprims.Lib.Hoare
import Waitprims.Async.Observer

/-! # Ledgers of dequeued observations

A runner owns every observation it has dequeued and neither handed on nor put back. A *ledger* is an
assertion `own marks items` about the world that a runner can maintain whatever it is about: each
call to the observer has one rule, a dequeue appends an item and a restore takes the newest one
back. The runners are verified once against an arbitrary ledger; conservation of the queues, the
provenance of events and the history of restores are three instances.

* **`Item`** — a dequeued observation with the slot and the bind it came from. A signal remembers
  how far its bind had been processed when it was dequeued.
* **`Ledger`** — the assertion and its rules.
* **`Ledger.settle`** — items may be reordered across slots, and signals may be let go of. -/

namespace Waitprims

open Fueled

/-- How far a poll cycle had processed a bind. -/
inductive Mark
  | fresh
  | admitted
  | visited
  deriving DecidableEq

/-- A dequeued observation: the slot of its registration, its bind, and what was dequeued. -/
inductive Item (β : Type)
  | event (slot : Nat) (bind : β) (event : WaitEvent)
  | signal (mark : Mark) (slot : Nat) (bind : β) (obs : Observation)

/-- The item an observation becomes. -/
def Item.of {β : Type} (mark : Mark) (slot : Nat) (bind : β) : Observation → Item β
  | .event e => .event slot bind e
  | obs => .signal mark slot bind obs

/-- The events a list of items holds for one slot, oldest first. -/
def heldAt {β : Type} (slot : Nat) (items : List (Item β)) : List WaitEvent :=
  items.flatMap fun item => match item with
    | .event k _ e => if k = slot then [e] else []
    | .signal .. => []

section heldAt

variable {β : Type} (slot : Nat)

@[simp] theorem heldAt_nil : heldAt slot ([] : List (Item β)) = [] := rfl

@[simp] theorem heldAt_append (xs ys : List (Item β)) :
    heldAt slot (xs ++ ys) = heldAt slot xs ++ heldAt slot ys := by
  simp [heldAt]

@[simp] theorem heldAt_event (k : Nat) (bind : β) (e : WaitEvent) (xs : List (Item β)) :
    heldAt slot (.event k bind e :: xs) = (if k = slot then [e] else []) ++ heldAt slot xs := by
  simp [heldAt]

@[simp] theorem heldAt_signal (m : Mark) (k : Nat) (bind : β) (obs : Observation)
    (xs : List (Item β)) : heldAt slot (.signal m k bind obs :: xs) = heldAt slot xs := by
  simp [heldAt]

end heldAt

variable {σ β φ ψ : Type}

/-- A signal may be handed back late: after the visit of its bind, or after the first event of its
bind was admitted, unless it is an overflow. -/
def MayReturn (mark : Mark) (obs : Observation) : Prop :=
  mark = .visited ∨ mark = .admitted ∧ obs ≠ .overflow

/-- An assertion about the dequeued observations that the observer's calls respect. `ids` lists the
registration ids by slot. -/
structure Ledger (env : Env σ β φ ψ) (ids : List IdToken) where
  /-- The assertion: what is marked and what is owned. -/
  own : List (Mark × β) → List (Item β) → World σ β → Prop
  /-- What is left when a restore is rejected; it is about the history only. -/
  broken : World σ β → Prop
  broken_host : ∀ {w : World σ β} (s : σ), broken w → broken { w with host := s }
  /-- A pending `bind` aims at a slot. -/
  aim : Nat → φ → Prop
  /-- A bind sits at a slot. -/
  seat : Nat → β → Prop
  /-- A pending `next` is attached to its bind. -/
  attached : β → ψ → Prop
  settle : ∀ {marks marks' items items' w}, marks' ⊆ marks → items' ⊆ items →
    (∀ slot, heldAt slot items' = heldAt slot items) → own marks items w → own marks' items' w
  resolved : ∀ {marks items w} (starts : List ResolvedStart), own marks items w →
    own marks items { w with resolved := starts }
  bind : ∀ {slot registration} marks items, ids[slot]? = some registration.registrationId →
    Triple (own marks items) (env.bind registration) fun fut w => aim slot fut ∧ own marks items w
  pollBind : ∀ {slot fut} marks items, aim slot fut →
    Triple (own marks items) (env.pollBind fut) fun answer w =>
      (∀ bind, answer = .ready (.ok bind) → seat slot bind) ∧ own marks items w
  dropBind : ∀ marks items fut,
    Triple (own marks items) (env.dropBind fut) fun _ => own marks items
  next : ∀ {slot bind} marks items, seat slot bind →
    Triple (own marks items) (env.next bind) fun fut w =>
      fut.1 = bind ∧ attached bind fut.2 ∧ own marks items w
  pollNext : ∀ {slot bind fut} marks items, seat slot bind → attached bind fut →
    Triple (own marks items) (env.pollNext (bind, fut)) fun answer w => match answer with
      | .ready (.ok obs) => own marks (items ++ [Item.of .fresh slot bind obs]) w
      | _ => own marks items w
  dropNext : ∀ marks items fut,
    Triple (own marks items) (env.dropNext fut) fun _ => own marks items
  pollReady : ∀ {slot bind mark} marks items, seat slot bind →
    (mark = .fresh ∨ (mark, bind) ∈ marks) →
    Triple (own marks items) (env.pollReady bind) fun answer w => match answer with
      | some obs => own marks (items ++ [Item.of mark slot bind obs]) w
      | none => own marks items w
  restoreEvent : ∀ {slot bind event} marks items, seat slot bind →
    Triple (own marks (items ++ [.event slot bind event])) (env.restoreReady bind (.event event))
      fun answer w => match answer with
        | .ok _ => own marks items w
        | .error _ => broken w
  restoreSignal : ∀ {slot bind mark obs} marks items, seat slot bind → MayReturn mark obs →
    observationIsReplayable obs = false →
    Triple (own marks (items ++ [.signal mark slot bind obs])) (env.restoreReady bind obs)
      fun answer w => match answer with
        | .ok _ => own marks items w
        | .error _ => broken w
  markAdmitted : ∀ {bind} marks items,
    Triple (own marks items) (Act.record [.admitted bind] : Act σ β Unit) fun _ =>
      own ((.admitted, bind) :: marks) items
  markVisited : ∀ {bind} marks items,
    Triple (own marks items) (Act.record [.visited bind] : Act σ β Unit) fun _ =>
      own ((.visited, bind) :: marks) items
  now : ∀ marks items, Triple (own marks items) env.now fun _ => own marks items
  sleepUntil : ∀ marks items deadline,
    Triple (own marks items) (env.sleepUntil deadline) fun _ => own marks items
  isCancelled : ∀ marks items, Triple (own marks items) env.isCancelled fun _ => own marks items
  park : ∀ marks items, Triple (own marks items) env.park fun _ => own marks items

namespace Ledger

variable {env : Env σ β φ ψ} {ids : List IdToken} (ledger : Ledger env ids)
  {marks : List (Mark × β)} {items : List (Item β)}

/-- Reading the cell of resolved starts changes nothing. -/
theorem snapshot : Triple (ledger.own marks items) (Waitprims.snapshot : Act σ β _) fun _ =>
    ledger.own marks items := by
  rintro w h _ _ ⟨⟩
  exact h

theorem newResolved : Triple (ledger.own marks items) (Waitprims.newResolved : Act σ β Unit)
    fun _ => ledger.own marks items := by
  rintro w h _ _ ⟨⟩
  exact ledger.resolved [] h

theorem recordResolved (bind : β) : Triple (ledger.own marks items) (env.recordResolved bind)
    fun _ => ledger.own marks items := by
  rintro w h _ _ ⟨⟩
  exact ledger.resolved _ h

/-- Forgetting marks. -/
theorem unmark {marks' : List (Mark × β)} {w : World σ β} (hsub : marks' ⊆ marks)
    (h : ledger.own marks items w) : ledger.own marks' items w :=
  ledger.settle hsub (List.Subset.refl items) (fun _ => rfl) h

/-- Letting go of a signal. -/
theorem release {mark : Mark} {slot : Nat} {bind : β} {obs : Observation} {w : World σ β}
    (h : ledger.own marks (items ++ [.signal mark slot bind obs]) w) : ledger.own marks items w :=
  ledger.settle (List.Subset.refl marks) (List.subset_append_left items _) (by simp) h

/-- Items of different slots may be reordered. -/
theorem reorder {items' : List (Item β)} {w : World σ β} (hperm : items.Perm items')
    (hheld : ∀ slot, heldAt slot items' = heldAt slot items) (h : ledger.own marks items w) :
    ledger.own marks items' w :=
  ledger.settle (List.Subset.refl marks) hperm.symm.subset hheld h

/-- A step of the host keeps what a rejected restore left. -/
theorem keepsBroken {α : Type} {f : σ → α × σ} :
    Triple ledger.broken (Act.host f : Act σ β α) fun _ => ledger.broken := by
  rintro w h _ _ ⟨⟩
  exact ledger.broken_host _ h

/-- **Putting one item back**: an event, or a signal that may be returned. -/
theorem restore {mark : Mark} {slot : Nat} {bind : β} {obs : Observation}
    (hseat : ledger.seat slot bind) (hobs : observationIsReplayable obs ∨ MayReturn mark obs) :
    Triple (ledger.own marks (items ++ [Item.of mark slot bind obs])) (env.restoreReady bind obs)
      fun answer w => match answer with
        | .ok _ => ledger.own marks items w
        | .error _ => ledger.broken w := by
  cases hreplay : observationIsReplayable obs with
  | true =>
    cases obs with
    | event e => exact ledger.restoreEvent marks items hseat
    | _ => simp [observationIsReplayable] at hreplay
  | false =>
    have hmay : MayReturn mark obs := hobs.resolve_left (by simp [hreplay])
    cases obs with
    | event e => simp [observationIsReplayable] at hreplay
    | _ => exact ledger.restoreSignal marks items hseat hmay rfl

end Ledger

end Waitprims
