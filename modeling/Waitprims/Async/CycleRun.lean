import Mathlib
import Waitprims.Async.CycleLedger

/-! # A run of the poll cycle over a ledger

The two races, the `select!`s around them, one turn of the loop and the run. Between turns the
cycle owns what its visits hold (`CycleOwn`); the races hand over what they took, and a race that
is dropped holds nothing but idle signals. -/

namespace Waitprims

namespace PollCycle

open Fueled

variable {σ β φ ψ : Type} {env : Env σ β φ ψ} {ids : List IdToken} {ledger : Ledger env ids}
  {marks : List (Mark × β)} {items : List (Item β)} {bound : List (Option β)}
  {set : RegistrationSet} {request : PollCycleRequest}

/-! ## The bind race -/

/-- A `bind_one` future works for a slot. -/
def BindGood (ledger : Ledger env ids) (slot : Nat) : BindOne φ → Prop
  | .start registration => ids[slot]? = some registration.registrationId
  | .binding _ fut => ledger.aim slot fut

/-- The binds of a race sit at their slots, and nothing else is taken. -/
def BindOwn (ledger : Ledger env ids) (marks : List (Mark × β)) (items : List (Item β))
    (taken : List (Nat × β)) (w : World σ β) : Prop :=
  (∀ p ∈ taken, ledger.seat p.1 p.2) ∧ ledger.own marks items w

theorem acceptBind_spec (registration : Registration) (bind : β) :
    Triple (ledger.own marks items) (acceptBind env request registration bind)
      fun answer w => (∀ b, answer = .ok b → b = bind) ∧ ledger.own marks items w := by
  have hrecord : Triple (ledger.own marks items)
      (do env.recordResolved bind; return (.ok bind : Except Error β))
      fun answer w => (∀ b, answer = .ok b → b = bind) ∧ ledger.own marks items w := by
    refine Triple.bind (ledger.recordResolved bind) fun _ => Triple.pure fun w h => ⟨?_, h⟩
    rintro b ⟨⟩
    rfl
  unfold acceptBind
  split
  · split
    · exact Triple.pure fun w h => ⟨by simp, h⟩
    · exact hrecord
  · exact hrecord

theorem pollBinding_spec {slot : Nat} {registration : Registration} {fut : φ}
    (haim : ledger.aim slot fut) (taken : List (Nat × β)) :
    Triple (BindOwn ledger marks items taken) (pollBinding env request registration fut)
      (FirstReady.PolledOwn (BindGood ledger) (BindOwn ledger marks items) slot taken) := by
  refine Triple.fact (fun w h => h.1) fun htaken => ?_
  unfold pollBinding
  refine Triple.bind ((ledger.pollBind marks items haim).strengthen fun w h => h.2) ?_
  rintro ((err | bind) | _)
  · exact Triple.pure fun w h => ⟨htaken, h.2⟩
  · refine Triple.fact (fun w h => h.1 bind rfl) fun hbind => ?_
    refine Triple.bind ((acceptBind_spec registration bind).strengthen fun w h => h.2) ?_
    rintro (err | bind')
    · exact Triple.pure fun w h => ⟨htaken, h.2⟩
    · refine Triple.pure fun w h => ⟨fun p hp => ?_, h.2⟩
      rcases List.mem_append.mp hp with hp | hp
      · exact htaken p hp
      · rw [List.mem_singleton.mp hp, h.1 bind' rfl]
        exact hbind
  · exact Triple.pure fun w h => ⟨haim, htaken, h.2⟩

/-- The bind race takes binds that sit at their slots. -/
theorem bindOwning (ledger : Ledger env ids) (request : PollCycleRequest)
    (marks : List (Mark × β)) (items : List (Item β)) :
    FirstReady.Owning id (BindGood ledger) (pollBindOne env request)
      (BindOwn ledger marks items) where
  reorder := fun _ hperm h => ⟨fun p hp => h.1 p (hperm.symm.subset hp), h.2⟩
  poll := by
    rintro slot (registration | ⟨registration, fut⟩) taken hgood
    · refine Triple.fact (fun w h => h.1) fun htaken => ?_
      refine Triple.bind ((ledger.bind marks items hgood).strengthen fun w h => h.2) fun fut => ?_
      refine Triple.fact (fun w h => h.1) fun haim => ?_
      exact (pollBinding_spec haim taken).strengthen fun w h => ⟨htaken, h.2⟩
    · exact pollBinding_spec hgood taken

theorem dropBindOne_spec (ledger : Ledger env ids) (marks : List (Mark × β)) (items : List (Item β)) (fut : BindOne φ) :
    Triple (ledger.own marks items) (dropBindOne env fut) fun _ => ledger.own marks items := by
  cases fut with
  | start registration => exact Triple.pure fun w h => h
  | binding registration fut => exact ledger.dropBind marks items fut

/-- Remapped positions keep the labels of the race. -/
theorem mem_remapReady {T : Type} {pending : List Nat} {ready : List (Nat × T)} {slot : Nat}
    {value : T} : (slot, value) ∈ remapReady pending ready ↔
      ∃ pos, (pos, value) ∈ ready ∧ pending[pos]? = some slot := by
  simp only [remapReady, List.mem_filterMap, Option.map_eq_some_iff, Prod.exists, Prod.mk.injEq]
  constructor
  · rintro ⟨pos, v, hmem, s, hs, rfl, rfl⟩
    exact ⟨pos, hmem, hs⟩
  · rintro ⟨pos, hmem, hs⟩
    exact ⟨pos, value, hmem, slot, hs, rfl, rfl⟩

/-- Increasing positions of distinct slots remap to distinct slots. -/
theorem nodup_remapReady {T : Type} {pending : List Nat} (hpending : pending.Nodup)
    {ready : List (Nat × T)} (hready : (ready.map Prod.fst).Pairwise (· < ·)) :
    ((remapReady pending ready).map Prod.fst).Nodup := by
  induction ready with
  | nil => simp [remapReady]
  | cons p rest ih =>
    rw [List.map_cons, List.pairwise_cons] at hready
    have hrest := ih hready.2
    cases hp : pending[p.1]? with
    | none => simpa [remapReady, hp] using hrest
    | some slot =>
      have hcons : remapReady pending (p :: rest) = (slot, p.2) :: remapReady pending rest := by
        simp [remapReady, hp]
      rw [hcons, List.map_cons, List.nodup_cons]
      refine ⟨fun hmem => ?_, hrest⟩
      obtain ⟨⟨slot', value⟩, hvalue, rfl⟩ := List.mem_map.mp hmem
      obtain ⟨pos, hpos, hslot⟩ := mem_remapReady.mp hvalue
      have hlt : p.1 < pos := hready.1 pos (List.mem_map.mpr ⟨(pos, value), hpos, rfl⟩)
      have hbound : pos < pending.length := by
        by_contra hout
        rw [List.getElem?_eq_none (Nat.le_of_not_lt hout)] at hslot
        cases hslot
      have heq := (List.nodup_iff_getElem?_ne_getElem?.mp hpending) p.1 pos hlt hbound
      exact heq (hp.trans hslot.symm)

/-- The slots of a cycle: `ids` names them and every one up to its length is a registration. -/
def IdsOf (ids : List IdToken) (set : RegistrationSet) : Prop :=
  ids = set.registrations.map Registration.registrationId

/-- Binding an acknowledged registration keeps its id. -/
@[simp] theorem bindRegistration_registrationId (registration : Registration) :
    (bindRegistration registration request).registrationId = registration.registrationId := by
  unfold bindRegistration
  split <;> rfl

/-- The `bind_unbound` future between polls: good futures, and binds at their slots. -/
def BindingGood (ledger : Ledger env ids) (unbound : List Nat)
    (arms : List (Arm (BindOne φ) β)) : Prop :=
  FirstReady.ArmsGood (BindGood ledger) unbound arms ∧
    ∀ p ∈ FirstReady.armsHeld unbound arms, ledger.seat p.1 p.2

/-- The futures of a fresh bind race are good for their slots. -/
theorem bindUnbound_good (ledger : Ledger env ids) (hids : IdsOf ids set) (request : PollCycleRequest) {unbound : List Nat}
    (hunbound : ∀ slot ∈ unbound, slot < set.registrations.length) :
    BindingGood ledger unbound
      (bindUnbound set request unbound : List (Arm (BindOne φ) β)) := by
  refine ⟨FirstReady.armsGood_new ?_, by rw [bindUnbound, FirstReady.armsHeld_new]; simp⟩
  induction unbound with
  | nil => exact List.Forall₂.nil
  | cons slot rest ih =>
    have hreg := List.getElem?_eq_getElem (hunbound slot List.mem_cons_self)
    rw [List.filterMap_cons, hreg]
    refine List.Forall₂.cons ?_ (ih fun s hs => hunbound s (List.mem_cons_of_mem slot hs))
    show ids[slot]? = some (bindRegistration _ request).registrationId
    rw [hids, List.getElem?_map, hreg, bindRegistration_registrationId]
    rfl

/-- Binds that were collected: they sit at distinct slots of the race. -/
structure CollectedBinds (ledger : Ledger env ids) (unbound : List Nat)
    (ready : List (Nat × β)) : Prop where
  keys : (ready.map Prod.fst).Nodup
  seated : ∀ p ∈ ready, ledger.seat p.1 p.2
  slots : ∀ p ∈ ready, p.1 ∈ unbound

/-- **One poll of the bind race.** -/
theorem pollBindUnbound_spec (marks : List (Mark × β)) (items : List (Item β))
    {unbound : List Nat} (hunbound : unbound.Nodup) {arms : List (Arm (BindOne φ) β)}
    (hgood : BindingGood ledger unbound arms) :
    Triple (ledger.own marks items) (pollBindUnbound env request unbound arms)
      fun r w => match r.2 with
        | none => BindingGood ledger unbound r.1 ∧ ledger.own marks items w
        | some out => CollectedBinds ledger unbound out.ready ∧ ledger.own marks items w := by
  unfold pollBindUnbound
  split
  · exact Triple.pure fun w h => ⟨hgood, h⟩
  · have hpoll := FirstReady.poll_spec (bindOwning ledger request marks items) (fun _ => true)
      (by simpa using hunbound) hgood.1
    refine Triple.bind (hpoll.strengthen fun w h => ⟨hgood.2, h⟩) ?_
    rintro ⟨arms', out⟩
    cases out with
    | none => exact Triple.pure fun w h => ⟨⟨h.2.1, h.1.1⟩, h.1.2⟩
    | some out =>
      refine Triple.fact (p := CollectedBinds ledger unbound (remapReady unbound out.ready))
        (fun w h => ?_) fun hcollected => ?_
      · obtain ⟨⟨hseats, _⟩, hpos⟩ := h
        refine ⟨nodup_remapReady hunbound hpos, hseats, fun p hp => ?_⟩
        obtain ⟨pos, _, hslot⟩ := mem_remapReady.mp hp
        exact List.mem_of_getElem? hslot
      · have hdrop := FirstReady.drop_spec (dropBindOne_spec ledger marks items) arms'
        refine Triple.bind (hdrop.strengthen fun w h => h.1.2) fun _ => ?_
        exact Triple.pure fun w h => ⟨hcollected, h⟩

/-! ## The observation race -/

/-- A `next` future is attached to the bind it borrows. -/
def NextGood (ledger : Ledger env ids) (p : Nat × β) (fut : β × ψ) : Prop :=
  fut.1 = p.2 ∧ ledger.seat p.1 p.2 ∧ ledger.attached p.2 fut.2

/-- What a race of `next` futures has taken. -/
def takenItems (taken : List ((Nat × β) × Observation)) : List (Item β) :=
  taken.map fun p => Item.of .fresh p.1.1 p.1.2 p.2

/-- A race of `next` futures owns what it has taken. -/
def NextOwn (ledger : Ledger env ids) (marks : List (Mark × β)) (items : List (Item β))
    (taken : List ((Nat × β) × Observation)) : World σ β → Prop :=
  ledger.own marks (items ++ takenItems taken)

theorem heldAt_takenItems (slot : Nat) (taken : List ((Nat × β) × Observation)) :
    heldAt slot (takenItems taken)
      = (taken.filter fun p => p.1.1 = slot).flatMap fun p => p.2.events := by
  induction taken with
  | nil => rfl
  | cons p rest ih =>
    have hcons : takenItems (p :: rest) = [Item.of .fresh p.1.1 p.1.2 p.2] ++ takenItems rest := rfl
    rw [hcons, heldAt_append, heldAt_of, ih]
    by_cases h : p.1.1 = slot <;> simp [h]

/-- The observation race takes at most one observation from each bind. -/
theorem nextOwning (ledger : Ledger env ids) (marks : List (Mark × β)) (items : List (Item β)) :
    FirstReady.Owning Prod.fst (NextGood ledger) (pollNextArm env)
      (NextOwn ledger marks items) where
  reorder := by
    intro taken taken' w hkeys hperm h
    refine ledger.reorder (List.Perm.append_left items (hperm.map _)) (fun slot => ?_) h
    show heldAt slot (items ++ takenItems taken') = heldAt slot (items ++ takenItems taken)
    rw [heldAt_append, heldAt_append, heldAt_takenItems, heldAt_takenItems,
      TreeMap.filter_key_perm hkeys hperm slot]
  poll := by
    rintro ⟨slot, bind⟩ ⟨bind', fut⟩ taken ⟨heq, hseat, hattached⟩
    obtain rfl : bind' = bind := heq
    refine Triple.bind (ledger.pollNext marks _ hseat hattached) ?_
    rintro ((err | obs) | _)
    · exact Triple.pure fun w h => h
    · refine Triple.pure fun w h => ?_
      show ledger.own marks (items ++ takenItems (taken ++ [((slot, bind'), obs)])) w
      rw [takenItems, List.map_append, ← List.append_assoc]
      exact h
    · exact Triple.pure fun w h => ⟨⟨rfl, hseat, hattached⟩, h⟩

/-- The binds a race observes: the occupied slots it is told to. -/
structure PendingRefs (ledger : Ledger env ids) (bound : List (Option β))
    (pending : List (Nat × β)) : Prop where
  keys : (pending.map Prod.fst).Nodup
  seated : ∀ p ∈ pending, ledger.seat p.1 p.2
  slots : ∀ p ∈ pending, bound[p.1]?.join = some p.2

theorem nextEach_spec {pending : List (Nat × β)} (hseated : ∀ p ∈ pending, ledger.seat p.1 p.2) :
    Triple (ledger.own marks items) (nextEach env pending) fun futs w =>
      List.Forall₂ (NextGood ledger) pending futs ∧ ledger.own marks items w := by
  induction pending with
  | nil => exact Triple.pure fun w h => ⟨List.Forall₂.nil, h⟩
  | cons p rest ih =>
    obtain ⟨slot, bind⟩ := p
    have hseat := hseated (slot, bind) List.mem_cons_self
    unfold nextEach
    refine Triple.bind (ledger.next marks items hseat) fun fut => ?_
    refine Triple.fact (p := NextGood ledger (slot, bind) fut)
      (fun w h => ⟨h.1, hseat, h.2.1⟩) fun hgood => ?_
    have hrest := ih fun q hq => hseated q (List.mem_cons_of_mem _ hq)
    refine Triple.bind (hrest.strengthen fun w h => h.2.2) fun futs => ?_
    exact Triple.pure fun w h => ⟨List.Forall₂.cons hgood h.1, h.2⟩

/-- What the `observe_pending` future holds between polls. -/
def observingItems (pending : List (Nat × β)) : Option (List (NextArm β ψ)) → List (Item β)
  | none => []
  | some arms => takenItems (FirstReady.armsHeld pending arms)

/-- The `observe_pending` future between polls: good futures, and only idle signals held. -/
def ObservingGood (ledger : Ledger env ids) (pending : List (Nat × β)) :
    Option (List (NextArm β ψ)) → Prop
  | none => True
  | some arms => FirstReady.ArmsGood (NextGood ledger) pending arms ∧
      ∀ p ∈ FirstReady.armsHeld pending arms, observationIsTerminal p.2 = false

/-- Values that are not terminal hold no event, so they may be let go of. -/
theorem NextOwn.release {taken : List ((Nat × β) × Observation)} {w : World σ β}
    (hidle : ∀ p ∈ taken, observationIsTerminal p.2 = false)
    (h : NextOwn ledger marks items taken w) : ledger.own marks items w := by
  refine ledger.settle (List.Subset.refl marks) (List.subset_append_left _ _) (fun slot => ?_) h
  rw [heldAt_append, heldAt_takenItems]
  have hnil : ((taken.filter fun p => p.1.1 = slot).flatMap fun p => p.2.events) = [] := by
    rw [List.flatMap_eq_nil_iff]
    intro p hp
    have := hidle p (List.mem_filter.mp hp).1
    cases hobs : p.2 <;> simp_all [observationIsTerminal, Observation.events]
  rw [hnil, List.append_nil]

theorem ObservingGood.release {pending : List (Nat × β)}
    {observing : Option (List (NextArm β ψ))} {w : World σ β}
    (hgood : ObservingGood ledger pending observing)
    (h : ledger.own marks (items ++ observingItems pending observing) w) :
    ledger.own marks items w := by
  cases observing with
  | none => simpa [observingItems] using h
  | some arms => exact NextOwn.release hgood.2 h

/-- Dropping the race lets go of what it holds. -/
theorem dropObserving_spec {pending : List (Nat × β)} {observing : Option (List (NextArm β ψ))}
    (hgood : ObservingGood ledger pending observing) :
    Triple (ledger.own marks (items ++ observingItems pending observing))
      (dropObserving env observing) fun _ => ledger.own marks items := by
  refine Triple.strengthen ?_ fun w h => hgood.release h
  cases observing with
  | none => exact Triple.pure fun w h => h
  | some arms => exact FirstReady.drop_spec (ledger.dropNext marks items) arms

/-- What the observation race hands over, at the slots of its binds. -/
theorem readyItems_remapReady {mark : Nat → Mark} {pending : List (Nat × β)}
    (hpending : PendingRefs ledger bound pending)
    (hfresh : ∀ p ∈ pending, mark p.1 = .fresh) (ready : List (Nat × Observation)) :
    readyItems mark bound (remapReady (pending.map Prod.fst) ready)
      = takenItems (FirstReady.handed (fun j => pending[j]?) ready) := by
  induction ready with
  | nil => rfl
  | cons p rest ih =>
    obtain ⟨pos, obs⟩ := p
    cases hp : pending[pos]? with
    | none => simpa [remapReady, FirstReady.handed, hp] using ih
    | some q =>
      obtain ⟨slot, bind⟩ := q
      have hmem := List.mem_of_getElem? hp
      have hcons : remapReady (pending.map Prod.fst) ((pos, obs) :: rest)
          = (slot, obs) :: remapReady (pending.map Prod.fst) rest := by
        simp [remapReady, hp]
      rw [hcons, FirstReady.handed_cons hp, readyItems, placed_cons,
        placed_singleton (hpending.slots _ hmem), hfresh _ hmem]
      exact congrArg _ ih

/-- The race is created at its first poll, and holds nothing then. -/
theorem startObserving_spec {pending : List (Nat × β)}
    (hseated : ∀ p ∈ pending, ledger.seat p.1 p.2) {observing : Option (List (NextArm β ψ))}
    (hgood : ObservingGood ledger pending observing) :
    Triple (ledger.own marks (items ++ observingItems pending observing))
      (startObserving env pending observing) fun arms w =>
        FirstReady.ArmsGood (NextGood ledger) pending arms ∧
          NextOwn ledger marks items (FirstReady.armsHeld pending arms) w := by
  cases observing with
  | some arms => exact Triple.pure fun w h => ⟨hgood.1, h⟩
  | none =>
    refine Triple.bind (nextEach_spec hseated) fun futs => Triple.pure fun w h => ?_
    refine ⟨FirstReady.armsGood_new h.1, ?_⟩
    rw [NextOwn, FirstReady.armsHeld_new]
    simpa [takenItems, observingItems] using h.2

/-- **One poll of the observation race.** -/
theorem pollObservePending_spec (marks : List (Mark × β)) (items : List (Item β))
    {mark : Nat → Mark} {pending : List (Nat × β)} (hpending : PendingRefs ledger bound pending)
    (hfresh : ∀ p ∈ pending, mark p.1 = .fresh) {observing : Option (List (NextArm β ψ))}
    (hgood : ObservingGood ledger pending observing) :
    Triple (ledger.own marks (items ++ observingItems pending observing))
      (pollObservePending env pending observing)
      fun r w => match r.2 with
        | none => ObservingGood ledger pending r.1 ∧
            ledger.own marks (items ++ observingItems pending r.1) w
        | some out => (Collected bound out.ready ∧ ∀ p ∈ out.ready, p.1 ∈ pending.map Prod.fst) ∧
            ledger.own marks (items ++ readyItems mark bound out.ready) w := by
  unfold pollObservePending
  split
  · exact Triple.pure fun w h => ⟨hgood, h⟩
  · refine Triple.bind (startObserving_spec hpending.seated hgood) fun arms => ?_
    refine Triple.fact (fun w h => h.1) fun hgood => ?_
    have hpoll := FirstReady.poll_spec (nextOwning ledger marks items) observationIsTerminal
      hpending.keys hgood
    refine Triple.bind (hpoll.strengthen fun w h => h.2) ?_
    rintro ⟨arms', out⟩
    cases out with
    | none => exact Triple.pure fun w h => ⟨⟨h.2.1, h.2.2⟩, h.1⟩
    | some out =>
      refine Triple.fact (fun w h => h.2) fun hpos => ?_
      have hdrop := FirstReady.drop_spec
        (ledger.dropNext marks
          (items ++ takenItems (FirstReady.handed (fun j => pending[j]?) out.ready))) arms'
      refine Triple.bind (hdrop.strengthen fun w h => h.1) fun _ => Triple.pure fun w h => ?_
      refine ⟨⟨⟨nodup_remapReady hpending.keys hpos, ?_⟩, ?_⟩, ?_⟩
      · rintro ⟨slot, obs⟩ hp
        obtain ⟨pos, _, hslot⟩ := mem_remapReady.mp hp
        obtain ⟨q, hq, rfl⟩ := List.mem_map.mp (List.mem_of_getElem? hslot)
        rw [hpending.slots q hq]
        rfl
      · rintro ⟨slot, obs⟩ hp
        obtain ⟨pos, _, hslot⟩ := mem_remapReady.mp hp
        exact List.mem_of_getElem? hslot
      · rw [readyItems_remapReady hpending hfresh]
        exact h

/-! ## The `select!`s -/

/-- What the winner of the `select!` of an observing cycle leaves owned. -/
def SelectedOwn (ledger : Ledger env ids) (marks : List (Mark × β)) (items : List (Item β))
    (mark : Nat → Mark) (bound : List (Option β)) (pending : List (Nat × β)) (unbound : List Nat) :
    Selected (FirstReadyOutput Observation ⊕ FirstReadyOutput β) → World σ β → Prop
  | .collected (.inl out) => fun w =>
      (Collected bound out.ready ∧ ∀ p ∈ out.ready, p.1 ∈ pending.map Prod.fst) ∧
        ledger.own marks (items ++ readyItems mark bound out.ready) w
  | .collected (.inr out) => fun w =>
      CollectedBinds ledger unbound out.ready ∧ ledger.own marks items w
  | .cancelled | .slept => ledger.own marks items

/-- **The `select!` of an observing cycle**: the losers are dropped with nothing but idle signals
in them. -/
theorem selectObserving_spec (marks : List (Mark × β)) (items : List (Item β)) {mark : Nat → Mark}
    {pending : List (Nat × β)} (hpending : PendingRefs ledger bound pending)
    (hfresh : ∀ p ∈ pending, mark p.1 = .fresh) {unbound : List Nat} (hunbound : unbound.Nodup)
    (waitUntil : Timestamp) (fuel : Nat) {observing : Option (List (NextArm β ψ))}
    (hobserving : ObservingGood ledger pending observing) {binding : List (Arm (BindOne φ) β)}
    (hbinding : BindingGood ledger unbound binding) :
    Triple (ledger.own marks (items ++ observingItems pending observing))
      (selectObserving env request pending unbound waitUntil fuel observing binding)
      (SelectedOwn ledger marks items mark bound pending unbound) := by
  induction fuel generalizing observing binding with
  | zero => exact Triple.exhausted
  | succ fuel ih =>
    unfold selectObserving
    refine Triple.bind (pollObservePending_spec marks items hpending hfresh hobserving) ?_
    rintro ⟨observing', observed⟩
    cases observed with
    | some collected =>
      have hdrop := FirstReady.drop_spec (dropBindOne_spec ledger marks
        (items ++ readyItems mark bound collected.ready)) binding
      refine Triple.fact (fun w h => h.1) fun hcollected => ?_
      refine Triple.bind (hdrop.strengthen fun w h => h.2) fun _ => ?_
      exact Triple.pure fun w h => ⟨hcollected, h⟩
    | none =>
      refine Triple.fact (fun w h => h.1) fun hobserving' => ?_
      have hbind : Triple _ (pollBindUnbound env request unbound binding) _ :=
        pollBindUnbound_spec marks (items ++ observingItems pending observing') hunbound hbinding
      refine Triple.bind (hbind.strengthen fun w h => h.2) ?_
      rintro ⟨binding', collected⟩
      cases collected with
      | some collected =>
        refine Triple.fact (fun w h => h.1) fun hcollected => ?_
        refine Triple.bind ((dropObserving_spec hobserving').strengthen fun w h => h.2) fun _ => ?_
        exact Triple.pure fun w h => ⟨hcollected, h⟩
      | none =>
        refine Triple.fact (fun w h => h.1) fun hbinding' => ?_
        have hgiveUp : ∀ {winner : Selected (FirstReadyOutput Observation ⊕ FirstReadyOutput β)},
            (∀ w, ledger.own marks items w →
              SelectedOwn ledger marks items mark bound pending unbound winner w) →
            Triple (ledger.own marks (items ++ observingItems pending observing'))
              (do
                dropObserving env observing'
                FirstReady.drop (dropBindOne env) binding'
                return winner)
              (SelectedOwn ledger marks items mark bound pending unbound) := by
          intro winner hwinner
          refine Triple.bind (dropObserving_spec hobserving') fun _ => ?_
          refine Triple.bind (FirstReady.drop_spec (dropBindOne_spec ledger marks items) binding')
            fun _ => ?_
          exact Triple.pure hwinner
        refine Triple.bind ((ledger.isCancelled marks _).strengthen fun w h => h.2) ?_
        rintro (_ | _)
        · refine Triple.bind (ledger.sleepUntil marks _ waitUntil) ?_
          rintro (_ | _)
          · refine Triple.bind (ledger.park marks _) fun _ => ?_
            exact ih hobserving' hbinding'
          · exact hgiveUp fun w h => h
        · exact hgiveUp fun w h => h

/-- **The `select!` of a cycle without a bind.** -/
theorem selectBinding_spec (marks : List (Mark × β)) (items : List (Item β)) {unbound : List Nat}
    (hunbound : unbound.Nodup) (waitUntil : Timestamp) (fuel : Nat)
    {binding : List (Arm (BindOne φ) β)} (hbinding : BindingGood ledger unbound binding) :
    Triple (ledger.own marks items) (selectBinding env request unbound waitUntil fuel binding)
      fun winner w => (∀ out, winner = .collected out → CollectedBinds ledger unbound out.ready) ∧
        ledger.own marks items w := by
  induction fuel generalizing binding with
  | zero => exact Triple.exhausted
  | succ fuel ih =>
    unfold selectBinding
    refine Triple.bind (pollBindUnbound_spec marks items hunbound hbinding) ?_
    rintro ⟨binding', collected⟩
    cases collected with
    | some collected =>
      refine Triple.pure fun w h => ⟨?_, h.2⟩
      rintro out ⟨⟩
      exact h.1
    | none =>
      refine Triple.fact (fun w h => h.1) fun hbinding' => ?_
      have hdrop := FirstReady.drop_spec (dropBindOne_spec ledger marks items) binding'
      refine Triple.bind ((ledger.isCancelled marks items).strengthen fun w h => h.2) ?_
      rintro (_ | _)
      · refine Triple.bind (ledger.sleepUntil marks items waitUntil) ?_
        rintro (_ | _)
        · exact Triple.bind (ledger.park marks items) fun _ => ih hbinding'
        · exact Triple.bind hdrop fun _ => Triple.pure fun w h => ⟨by simp, h⟩
      · exact Triple.bind hdrop fun _ => Triple.pure fun w h => ⟨by simp, h⟩

/-! ## The loop -/

/-- The bookkeeping of a cycle agrees with its slots. -/
structure CycleOk (ledger : Ledger env ids) (set : RegistrationSet) (cycle : Cycle β) : Prop where
  length : cycle.bound.length = set.registrations.length
  seated : Seated ledger cycle.bound
  visits : VisitsSeated cycle.bound cycle.visits
  unbound : cycle.anyBound = false → ∀ slot : Nat, cycle.bound[slot]?.join = none

/-- **The invariant of the loop**: a cycle owns the events its visits hold. -/
def CycleOwn (ledger : Ledger env ids) (set : RegistrationSet) (cycle : Cycle β)
    (w : World σ β) : Prop :=
  CycleOk ledger set cycle ∧
    ledger.own (visitMarks cycle.bound cycle.visits)
      (visitItems cycle.bound cycle.visits.toList) w

theorem mem_pendingRefs {pending : List Nat} {p : Nat × β} :
    p ∈ pendingRefs bound pending ↔ p.1 ∈ pending ∧ bound[p.1]?.join = some p.2 := by
  obtain ⟨slot, bind⟩ := p
  simp only [pendingRefs, List.mem_filterMap, Option.map_eq_some_iff, Prod.mk.injEq]
  constructor
  · rintro ⟨idx, hmem, b, hb, rfl, rfl⟩
    exact ⟨hmem, hb⟩
  · rintro ⟨hmem, hb⟩
    exact ⟨slot, hmem, bind, hb, rfl, rfl⟩

/-- The slots of `pending_refs` are among the pending ones, in their order. -/
theorem pendingRefs_keys_sublist (bound : List (Option β)) (pending : List Nat) :
    ((pendingRefs bound pending).map Prod.fst).Sublist pending := by
  induction pending with
  | nil => exact List.Sublist.slnil
  | cons slot rest ih =>
    cases h : bound[slot]?.join with
    | none => simpa [pendingRefs, h] using ih.cons slot
    | some bind => simpa [pendingRefs, h] using ih.cons_cons slot

theorem pendingRefs_ok (hseat : Seated ledger bound) {pending : List Nat}
    (hpending : pending.Nodup) : PendingRefs ledger bound (pendingRefs bound pending) where
  keys := hpending.sublist (pendingRefs_keys_sublist bound pending)
  seated := fun p hp => hseat p.1 p.2 (mem_pendingRefs.mp hp).2
  slots := fun _ hp => (mem_pendingRefs.mp hp).2

theorem occupiedRefs_ok (hseat : Seated ledger bound) :
    PendingRefs ledger bound (occupiedRefs bound) :=
  pendingRefs_ok hseat List.nodup_range

/-- Nothing has been collected yet. -/
theorem Collected.nil : Collected bound [] := ⟨by simp, by simp⟩

/-- A visited occupied slot is marked. -/
theorem mem_visitMarks {visits : Visits} {slot : Nat} {bind : β} (hvisit : slot ∈ visits)
    (hbind : bound[slot]?.join = some bind) :
    (Mark.visited, bind) ∈ visitMarks bound visits := by
  obtain ⟨visit, hvisit⟩ := Option.isSome_iff_exists.mp
    (Std.ExtTreeMap.mem_iff_isSome_getElem?.mp hvisit)
  refine List.mem_filterMap.mpr
    ⟨(slot, visit), Std.ExtTreeMap.mem_toList_iff_getElem?_eq_some.mpr hvisit, ?_⟩
  simp [hbind]

/-- **Polling the binds that have nothing ready yet.** -/
theorem extendReadyRefs_spec (visits : Visits) (items : List (Item β)) {refs : List (Nat × β)}
    (hrefs : PendingRefs ledger bound refs) {ready : List (Nat × Observation)}
    (hready : Collected bound ready) :
    Triple
      (ledger.own (visitMarks bound visits) (items ++ readyItems (markOf visits) bound ready))
      (extendReadyRefs env refs ready)
      fun ready' w => Collected bound ready' ∧
        ledger.own (visitMarks bound visits)
          (items ++ readyItems (markOf visits) bound ready') w := by
  induction refs generalizing ready with
  | nil => exact Triple.pure fun w h => ⟨hready, h⟩
  | cons p rest ih =>
    obtain ⟨slot, bind⟩ := p
    have hrest : PendingRefs ledger bound rest :=
      ⟨hrefs.keys.of_cons, fun q hq => hrefs.seated q (List.mem_cons_of_mem _ hq),
        fun q hq => hrefs.slots q (List.mem_cons_of_mem _ hq)⟩
    have hbind : bound[slot]?.join = some bind := hrefs.slots (slot, bind) List.mem_cons_self
    -- the poll is marked as fresh, or as behind the visit of the arm
    have hmark : markOf visits slot = .fresh ∨
        (markOf visits slot, bind) ∈ visitMarks bound visits := by
      unfold markOf
      by_cases hvisit : slot ∈ visits
      · rw [if_pos hvisit]
        exact Or.inr (mem_visitMarks hvisit hbind)
      · rw [if_neg hvisit]
        exact Or.inl rfl
    unfold extendReadyRefs
    by_cases hhave : (ready.any fun p => p.1 == slot) = true
    · -- an arm that answered is not polled again
      rw [if_pos hhave]
      exact ih hrest hready
    · rw [if_neg hhave]
      refine Triple.bind
        (ledger.pollReady _ _ (hrefs.seated (slot, bind) List.mem_cons_self) hmark) ?_
      rintro (_ | obs)
      · exact ih hrest hready
      · have hready' : Collected bound (ready ++ [(slot, obs)]) := by
          refine ⟨?_, fun q hq => ?_⟩
          · rw [List.map_append, List.nodup_append']
            refine ⟨hready.keys, by simp, ?_⟩
            rintro k hk hk'
            obtain rfl : k = slot := by simpa using hk'
            obtain ⟨q, hq, rfl⟩ := List.mem_map.mp hk
            exact hhave (List.any_eq_true.mpr ⟨q, hq, by simp⟩)
          · rcases List.mem_append.mp hq with hq | hq
            · exact hready.seated q hq
            · rw [List.mem_singleton.mp hq, hbind]
              rfl
        refine (ih hrest hready').strengthen fun w h => ?_
        rw [readyItems, placed_append, placed_singleton hbind, ← List.append_assoc]
        exact h

theorem recordAndCheck_spec {cycle : Cycle β} (hok : CycleOk ledger set cycle) (fuel : Nat)
    {ready : List (Nat × Observation)} (hready : Collected cycle.bound ready)
    (starts : List ResolvedStart) :
    ETriple
      (ledger.own (visitMarks cycle.bound cycle.visits)
        (visitItems cycle.bound cycle.visits.toList
          ++ readyItems (markOf cycle.visits) cycle.bound ready))
      (recordAndCheck env set request fuel cycle ready starts)
      (fun r => CycleOwn ledger set r.1) fun _ => ledger.broken := by
  unfold recordAndCheck
  refine ETriple.bind (recordReady_spec hok.seated hok.length fuel cycle.budget hok.visits hready) ?_
  rintro ⟨budget, visits⟩
  refine ETriple.fact (fun w h => h.2) fun hvisits => ?_
  have hok' : CycleOk ledger set { cycle with budget, visits } :=
    ⟨hok.length, hok.seated, hvisits, hok.unbound⟩
  dsimp only
  split
  · refine ETriple.bind ((ETriple.lift (ledger.now _ _)).strengthen fun w h => h.1) fun now => ?_
    exact ETriple.pure fun w h => ⟨hok', h⟩
  · exact ETriple.pure fun w h => ⟨hok', h.1⟩

/-- Slots that are not stored to keep what they hold. -/
theorem storeBinds_getElem?_of_notMem {ready : List (Nat × β)} {slot : Nat}
    (hslot : slot ∉ ready.map Prod.fst) : (storeBinds bound ready)[slot]? = bound[slot]? := by
  induction ready generalizing bound with
  | nil => rfl
  | cons p rest ih =>
    rw [List.map_cons, List.mem_cons, not_or] at hslot
    have hstep : storeBinds bound (p :: rest) = storeBinds (bound.set p.1 (some p.2)) rest := rfl
    rw [hstep, ih hslot.2, List.getElem?_set_ne (Ne.symm hslot.1)]

/-- A slot holds a bind stored to it, or the one it held. -/
theorem storeBinds_join {ready : List (Nat × β)} {slot : Nat} {bind : β}
    (h : (storeBinds bound ready)[slot]?.join = some bind) :
    (slot, bind) ∈ ready ∨ bound[slot]?.join = some bind := by
  induction ready generalizing bound with
  | nil => exact Or.inr h
  | cons p rest ih =>
    have hstep : (storeBinds (bound.set p.1 (some p.2)) rest)[slot]?.join = some bind := h
    rcases ih hstep with hmem | hset
    · exact Or.inl (List.mem_cons_of_mem p hmem)
    · by_cases hslot : p.1 = slot
      · subst hslot
        rw [List.getElem?_set_self'] at hset
        cases hb : bound[p.1]? with
        | none => simp [hb] at hset
        | some _ =>
          obtain rfl : p.2 = bind := by simpa [hb] using hset
          exact Or.inl List.mem_cons_self
      · rw [List.getElem?_set_ne hslot] at hset
        exact Or.inr hset

@[simp] theorem length_storeBinds (ready : List (Nat × β)) :
    (storeBinds bound ready).length = bound.length := by
  induction ready generalizing bound with
  | nil => rfl
  | cons p rest ih =>
    have hstep : storeBinds bound (p :: rest) = storeBinds (bound.set p.1 (some p.2)) rest := rfl
    rw [hstep, ih, List.length_set]

/-- Storing binds at slots that have no visit. -/
theorem storeBinds_ok {cycle : Cycle β} (hok : CycleOk ledger set cycle) {unbound : List Nat}
    {ready : List (Nat × β)} (hready : CollectedBinds ledger unbound ready)
    (hnew : ∀ slot ∈ unbound, slot ∉ cycle.visits) :
    CycleOk ledger set
        { cycle with
          bound := storeBinds cycle.bound ready
          anyBound := cycle.anyBound || !ready.isEmpty } ∧
      ∀ slot ∈ cycle.visits,
        cycle.bound[slot]?.join = (storeBinds cycle.bound ready)[slot]?.join := by
  have hkeep : ∀ slot ∈ cycle.visits,
      cycle.bound[slot]?.join = (storeBinds cycle.bound ready)[slot]?.join := by
    intro slot hslot
    rw [storeBinds_getElem?_of_notMem]
    intro hmem
    obtain ⟨p, hp, rfl⟩ := List.mem_map.mp hmem
    exact hnew p.1 (hready.slots p hp) hslot
  refine ⟨⟨by simpa using hok.length, ?_, ?_, ?_⟩, hkeep⟩
  · intro slot bind hbind
    rcases storeBinds_join hbind with hmem | hold
    · exact hready.seated (slot, bind) hmem
    · exact hok.seated slot bind hold
  · intro slot hslot
    show ((storeBinds cycle.bound ready)[slot]?.join).isSome
    rw [← hkeep slot hslot]
    exact hok.visits slot hslot
  · intro hnone slot
    simp only [Bool.or_eq_false_iff, Bool.not_eq_false', List.isEmpty_iff] at hnone
    rw [hnone.2]
    exact hok.unbound hnone.1 slot

theorem mem_of_visits {visits : Visits} {p : Nat × ArmVisit} (hp : p ∈ visits.toList) :
    p.1 ∈ visits := by
  rw [Std.ExtTreeMap.mem_iff_isSome_getElem?,
    Std.ExtTreeMap.mem_toList_iff_getElem?_eq_some.mp hp]
  rfl

theorem onBound_spec {cycle : Cycle β} (hok : CycleOk ledger set cycle) (fuel : Nat)
    {unbound : List Nat} {collected : FirstReadyOutput β}
    (hready : CollectedBinds ledger unbound collected.ready)
    (hnew : ∀ slot ∈ unbound, slot ∉ cycle.visits) :
    ETriple
      (ledger.own (visitMarks cycle.bound cycle.visits)
        (visitItems cycle.bound cycle.visits.toList))
      (onBound env set request fuel cycle collected)
      (fun r => CycleOwn ledger set r.1) fun _ => ledger.broken := by
  unfold onBound
  cases collected.error with
  | some err => exact ETriple.pure fun w h => ⟨hok, h⟩
  | none =>
    obtain ⟨hok', hkeep⟩ := storeBinds_ok hok hready hnew
    have hitems : visitItems cycle.bound cycle.visits.toList
        = visitItems (storeBinds cycle.bound collected.ready) cycle.visits.toList :=
      placed_congr fun p hp => hkeep p.1 (mem_of_visits hp)
    have hmarks : visitMarks cycle.bound cycle.visits
        = visitMarks (storeBinds cycle.bound collected.ready) cycle.visits :=
      List.filterMap_congr fun p hp => by rw [hkeep p.1 (mem_of_visits hp)]
    have hextend := extendReadyRefs_spec cycle.visits
      (visitItems (storeBinds cycle.bound collected.ready) cycle.visits.toList)
      (occupiedRefs_ok hok'.seated) Collected.nil
    refine ETriple.bind ((ETriple.lift hextend).strengthen fun w h => ?_) fun ready => ?_
    · rw [hitems, hmarks] at h
      simpa [readyItems, placed] using h
    · refine ETriple.fact (fun w h => h.1) fun hcollected => ?_
      exact (recordAndCheck_spec hok' fuel hcollected _).strengthen fun w h => h.2

theorem onObserved_spec {cycle : Cycle β} (hok : CycleOk ledger set cycle) (fuel : Nat)
    {pending : List (Nat × β)} (hpending : PendingRefs ledger cycle.bound pending)
    (starts : List ResolvedStart) {collected : FirstReadyOutput Observation}
    (hready : Collected cycle.bound collected.ready) :
    ETriple
      (ledger.own (visitMarks cycle.bound cycle.visits)
        (visitItems cycle.bound cycle.visits.toList
          ++ readyItems (markOf cycle.visits) cycle.bound collected.ready))
      (onObserved env set request fuel cycle pending starts collected)
      (fun r => CycleOwn ledger set r.1) fun _ => ledger.broken := by
  unfold onObserved
  cases collected.error with
  | some err =>
    refine ETriple.bind (restoreOwnedObservations_spec _ _ hok.seated hready.keys) fun _ => ?_
    exact ETriple.pure fun w h => ⟨hok, h⟩
  | none =>
    refine ETriple.bind (ETriple.lift (extendReadyRefs_spec _ _ hpending hready)) fun ready => ?_
    refine ETriple.fact (fun w h => h.1) fun hcollected => ?_
    exact (recordAndCheck_spec hok fuel hcollected starts).strengthen fun w h => h.2

/-- **The arms that a turn races**: those that have a bind and were not visited, and those that have
none. -/
structure TurnArms (ledger : Ledger env ids) (set : RegistrationSet) (cycle : Cycle β)
    (pending unbound : List Nat) : Prop where
  refs : PendingRefs ledger cycle.bound (pendingRefs cycle.bound pending)
  fresh : ∀ p ∈ pendingRefs cycle.bound pending, markOf cycle.visits p.1 = .fresh
  nodup : unbound.Nodup
  slots : ∀ slot ∈ unbound, slot < set.registrations.length
  vacant : ∀ slot ∈ unbound, (cycle.bound[slot]?.join).isNone
  new : ∀ slot ∈ unbound, slot ∉ cycle.visits

/-- What a turn picks out of the fairness order. -/
theorem turnArms {cycle : Cycle β} (hok : CycleOk ledger set cycle) (request : PollCycleRequest) :
    TurnArms ledger set cycle
      ((fairnessOrder set request).filter fun idx =>
        (cycle.bound[idx]?.join).isSome && idx ∉ cycle.visits)
      ((fairnessOrder set request).filter fun idx =>
        (cycle.bound[idx]?.join).isNone && idx ∉ cycle.visits) where
  refs := pendingRefs_ok hok.seated ((nodup_fairnessOrder set request).filter _)
  fresh p hp := by
    have hmem := (List.mem_filter.mp (mem_pendingRefs.mp hp).1).2
    simp only [Bool.and_eq_true, decide_eq_true_eq] at hmem
    exact if_neg hmem.2
  nodup := (nodup_fairnessOrder set request).filter _
  slots _ hslot := mem_fairnessOrder.mp (List.mem_filter.mp hslot).1
  vacant slot hslot := by
    have hmem := (List.mem_filter.mp hslot).2
    rw [Bool.and_eq_true] at hmem
    exact hmem.1
  new slot hslot := by
    have hmem := (List.mem_filter.mp hslot).2
    simp only [Bool.and_eq_true, decide_eq_true_eq] at hmem
    exact hmem.2

/-- The race of a turn over these arms, from its start. -/
theorem TurnArms.select {cycle : Cycle β} {pending unbound : List Nat}
    (h : TurnArms ledger set cycle pending unbound) (hids : IdsOf ids set)
    (marks : List (Mark × β)) (items : List (Item β)) (fuel : Nat) :
    Triple (ledger.own marks items)
      (selectObserving env request (pendingRefs cycle.bound pending) unbound
        (earliestDeadline request) fuel none (bindUnbound set request unbound))
      (SelectedOwn ledger marks items (markOf cycle.visits) cycle.bound
        (pendingRefs cycle.bound pending) unbound) := by
  have hstart : ObservingGood ledger (pendingRefs cycle.bound pending)
      (none : Option (List (NextArm β ψ))) := trivial
  have hselect : Triple _ (selectObserving env request _ _ _ fuel none _) _ :=
    selectObserving_spec marks items h.refs h.fresh h.nodup (earliestDeadline request) fuel hstart
      (bindUnbound_good ledger hids request h.slots)
  exact hselect.strengthen fun w hown => by simpa [observingItems] using hown

/-- A cycle without a bind has visited nothing. -/
theorem CycleOk.unvisited {cycle : Cycle β} (hok : CycleOk ledger set cycle)
    (hnone : cycle.anyBound = false) (slot : Nat) : slot ∉ cycle.visits := by
  intro hvisit
  have hsome := hok.visits slot hvisit
  rw [hok.unbound hnone slot] at hsome
  cases hsome

/-- The race of the binds of a turn, from its start. -/
theorem selectBinding_start (ledger : Ledger env ids) (hids : IdsOf ids set)
    (marks : List (Mark × β)) (items : List (Item β)) (fuel : Nat) :
    Triple (ledger.own marks items)
      (selectBinding env request (fairnessOrder set request) (earliestDeadline request) fuel
        (bindUnbound set request (fairnessOrder set request)))
      fun winner w => (∀ out, winner = .collected out →
        CollectedBinds ledger (fairnessOrder set request) out.ready) ∧ ledger.own marks items w :=
  selectBinding_spec marks items (nodup_fairnessOrder set request) (earliestDeadline request) fuel
    (bindUnbound_good ledger hids request fun _ hslot => mem_fairnessOrder.mp hslot)

/-- Between turns a cycle owns what its visits hold. -/
theorem turnObserving_spec (hids : IdsOf ids set) {cycle : Cycle β}
    (hok : CycleOk ledger set cycle) (fuel : Nat) (starts : List ResolvedStart) :
    ETriple
      (ledger.own (visitMarks cycle.bound cycle.visits)
        (visitItems cycle.bound cycle.visits.toList))
      (turnObserving env set request fuel cycle starts)
      (fun r => CycleOwn ledger set r.1) fun _ => ledger.broken := by
  unfold turnObserving
  have harms := turnArms hok request
  dsimp only
  split
  · refine ETriple.bind (ETriple.lift (ledger.now _ _)) fun now => ?_
    exact ETriple.pure fun w h => ⟨hok, h⟩
  · refine ETriple.bind (ETriple.lift (harms.select hids _ _ fuel)) ?_
    rintro (⟨collected | collected⟩ | _ | _)
    · refine ETriple.fact (fun w h => h.1) fun hcollected => ?_
      exact (onObserved_spec hok fuel harms.refs starts hcollected.1).strengthen fun w h => h.2
    · refine ETriple.fact (fun w h => h.1) fun hcollected => ?_
      exact (onBound_spec hok fuel hcollected harms.new).strengthen fun w h => h.2
    · refine ETriple.bind (ETriple.lift (ledger.now _ _)) fun now => ?_
      exact ETriple.pure fun w h => ⟨hok, h⟩
    · -- at the deadline what is ready is recorded once more, and nothing is checked
      refine ETriple.bind (ETriple.lift (ledger.now _ _)) fun now => ?_
      have hextend := extendReadyRefs_spec cycle.visits
        (visitItems cycle.bound cycle.visits.toList) harms.refs Collected.nil
      refine ETriple.bind ((ETriple.lift hextend).strengthen fun w h => ?_) fun ready => ?_
      · simpa [readyItems, placed] using h
      refine ETriple.fact (fun w h => h.1) fun hcollected => ?_
      have hrecord : ETriple _
          (recordReady env set request cycle.bound fuel cycle.budget cycle.visits ready) _ _ :=
        recordReady_spec hok.seated hok.length fuel cycle.budget hok.visits hcollected
      refine ETriple.bind (hrecord.strengthen fun w h => h.2) ?_
      rintro ⟨budget, visits⟩
      exact ETriple.pure fun w h => ⟨⟨hok.length, hok.seated, h.2, hok.unbound⟩, h.1⟩

theorem turnBinding_spec (hids : IdsOf ids set) {cycle : Cycle β}
    (hok : CycleOk ledger set cycle) (hnone : cycle.anyBound = false) (fuel : Nat) :
    ETriple
      (ledger.own (visitMarks cycle.bound cycle.visits)
        (visitItems cycle.bound cycle.visits.toList))
      (turnBinding env set request fuel cycle)
      (fun r => CycleOwn ledger set r.1) fun _ => ledger.broken := by
  unfold turnBinding
  refine ETriple.bind (ETriple.lift (selectBinding_start ledger hids _ _ fuel)) ?_
  rintro (collected | _ | _)
  · refine ETriple.fact (fun w h => h.1 collected rfl) fun hcollected => ?_
    exact (onBound_spec hok fuel hcollected fun slot _ => hok.unvisited hnone slot).strengthen
      fun w h => h.2
  · refine ETriple.bind ((ETriple.lift (ledger.now _ _)).strengthen fun w h => h.2) fun now => ?_
    refine ETriple.bind (ETriple.lift ledger.snapshot) fun starts => ?_
    exact ETriple.pure fun w h => ⟨hok, h⟩
  · refine ETriple.bind ((ETriple.lift (ledger.now _ _)).strengthen fun w h => h.2) fun now => ?_
    refine ETriple.bind (ETriple.lift ledger.snapshot) fun starts => ?_
    exact ETriple.pure fun w h => ⟨hok, h⟩

/-- **One turn** keeps the invariant of the loop. -/
theorem turn_spec (hids : IdsOf ids set) (fuel : Nat) (cycle : Cycle β) :
    ETriple (CycleOwn ledger set cycle) (turn env set request fuel cycle)
      (fun r => CycleOwn ledger set r.1) fun _ => ledger.broken := by
  refine ETriple.fact (fun w h => h.1) fun hok => ?_
  unfold turn
  refine ETriple.bind
    ((ETriple.lift (ledger.isCancelled _ _)).strengthen fun w h => h.2) ?_
  rintro (_ | _)
  · refine ETriple.bind (ETriple.lift ledger.snapshot) fun resolved => ?_
    refine ETriple.bind (ETriple.lift (ledger.now _ _)) fun now => ?_
    split
    · refine ETriple.bind (ETriple.lift (ledger.now _ _)) fun now => ?_
      exact ETriple.pure fun w h => ⟨hok, h⟩
    · split
      · exact turnObserving_spec hids hok fuel _
      · next hnone => exact turnBinding_spec hids hok (by simpa using hnone) fuel
  · refine ETriple.bind (ETriple.lift (ledger.now _ _)) fun now => ?_
    refine ETriple.bind (ETriple.lift ledger.snapshot) fun starts => ?_
    exact ETriple.pure fun w h => ⟨hok, h⟩

/-- **The run of the loop**, by induction on its turns. -/
theorem cycleLoop_spec (ledger : Ledger env ids) (hids : IdsOf ids set) (fuel turns : Nat) (cycle : Cycle β) :
    ETriple (CycleOwn ledger set cycle) (cycleLoop env set request fuel turns cycle)
      (fun r => CycleOwn ledger set r.1) fun _ => ledger.broken := by
  induction turns generalizing cycle with
  | zero => exact ETriple.exhausted
  | succ turns ih =>
    unfold cycleLoop
    refine ETriple.bind (turn_spec hids fuel cycle) ?_
    rintro ⟨cycle', _ | decision⟩
    · exact ih cycle'
    · exact ETriple.pure fun w h => h

/-- A fresh cycle owns nothing. -/
theorem cycleNew_ok : CycleOk ledger set (Cycle.new set request : Cycle β) := by
  have hnone : ∀ slot : Nat,
      ((set.registrations.map fun _ => (none : Option β))[slot]?).join = none := by
    intro slot
    rw [List.getElem?_map]
    cases set.registrations[slot]? <;> rfl
  refine ⟨by simp [Cycle.new], ?_, ?_, fun _ => hnone⟩
  · intro slot bind hbind
    rw [Cycle.new, hnone slot] at hbind
    cases hbind
  · intro slot hslot
    exact absurd hslot Std.ExtTreeMap.not_mem_empty

theorem cycleNew_own {w : World σ β} (h : ledger.own [] [] w) :
    CycleOwn ledger set (Cycle.new set request) w :=
  ⟨cycleNew_ok, h⟩

/-- **A finished poll cycle owns nothing**, whatever it returns. -/
theorem runPollCycle_spec (ledger : Ledger env ids) (hids : IdsOf ids set) (fuel : Nat) :
    ETriple (ledger.own [] []) (runPollCycle env set request fuel)
      (fun _ => ledger.own [] []) fun _ w => ledger.own [] [] w ∨ ledger.broken w := by
  unfold runPollCycle
  refine ETriple.bind (ETriple.result (fun _ _ w h => h) fun _ _ w h => Or.inl h) fun _ => ?_
  unfold runLoop
  refine ETriple.bind (ETriple.lift ledger.newResolved) fun _ => ?_
  have hloop : ETriple _ (cycleLoop env set request fuel fuel (Cycle.new set request)) _ _ :=
    cycleLoop_spec ledger hids fuel fuel (Cycle.new set request)
  refine ETriple.bind (hloop.conseq (fun w h => cycleNew_own h) (fun _ _ h => h)
    fun _ _ h => Or.inr h) ?_
  rintro ⟨cycle, decision⟩
  refine ETriple.fact (fun w h => h.1) fun hok => ?_
  have hemit := emit_spec (visitMarks cycle.bound cycle.visits) hok.seated cycle.visits
    (decision.outcome set request cycle.visits)
  refine hemit.conseq (fun w h => h.2) (fun out w h => ?_) fun err w h => ?_
  · exact ledger.unmark (List.nil_subset _) h.2
  · exact h.imp (fun h => ledger.unmark (List.nil_subset _) h.2) id

end PollCycle

end Waitprims
