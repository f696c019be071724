import Mathlib
import Waitprims.Async.CycleRetention

/-! # Where the fault signals of a poll cycle go

A fault signal that a bind yields is consumed by the visit of its arm or handed back to the bind,
in every one of the places that dequeue: the race, the polls behind it, the drain of a bind and the
leftovers of a recording. The account of one signal of one bind says so: the cycle *owes* it as
often as it was yielded and not handed back, unless the visit of the arm is already stained.

* **`Owes`** — the account, **`recordReady_owes`** — a recording settles it.
* **`selectObserving_owes`** — a race hands over what it took, and holds only idle signals.
* **`cycleLoop_owes`** — between turns nothing is owed but by a stained visit.
* **`kept_signal_reported`** — a run that yields a fault signal more often than it hands it back
  reports incomplete coverage. -/

namespace Waitprims

open Fueled

variable {σ β φ ψ : Type}

/-- A signal that something is wrong with an arm. -/
def Observation.IsFault : Observation → Prop
  | .overflow | .failed _ | .outage _ | .cursorUncertain _ | .degraded _ => True
  | .event _ | .idle => False

/-- A fault signal ends a race. -/
theorem Observation.IsFault.terminal {obs : Observation} (h : obs.IsFault) :
    observationIsTerminal obs = true := by
  cases obs with
  | idle => cases h
  | _ => rfl

/-- A fault signal is not an event. -/
theorem Observation.IsFault.not_replayable {obs : Observation} (h : obs.IsFault) :
    observationIsReplayable obs = false := by
  cases obs with
  | event _ => cases h
  | _ => rfl

/-- What a fault signal, or a drain that was cut short, leaves of an arm. -/
def ArmVisit.IsStained : ArmVisit → Prop
  | .saturated _ | .overflow | .failed _ | .outage _ | .cursorUncertain _ | .degraded _ => True
  | .events _ | .idle | .deferred => False

section Account

variable [DecidableEq β] (owner : β) (signal : Observation)

/-- The entry dequeues the signal from its bind. -/
def Yields : Call β → Bool
  | .next bind obs => decide (bind = owner ∧ obs = signal)
  | .ready bind obs => decide (bind = owner ∧ obs = signal)
  | _ => false

/-- The entry hands the signal back to its bind. -/
def HandsBack : Call β → Bool
  | .restore bind obs _ => decide (bind = owner ∧ obs = signal)
  | _ => false

/-- **The account of one signal**: settled by `p`, or yielded at most `n` times more often than it
was handed back. -/
def Owes (p : Prop) (n : ℕ) (w : World σ β) : Prop :=
  p ∨ w.log.countP (Yields owner signal) ≤ w.log.countP (HandsBack owner signal) + n

/-- One observation of a slot counts if it is the signal of the bind. -/
def tick (bind : Option β) (obs : Observation) : ℕ :=
  if bind = some owner ∧ obs = signal then 1 else 0

/-- How often the signal is among the observations of slots. -/
def ticks (bound : List (Option β)) (ready : List (Nat × Observation)) : ℕ :=
  (ready.map fun p => tick owner signal bound[p.1]?.join p.2).sum

variable {owner signal} {p q : Prop} {n m : ℕ} {w : World σ β} {bound : List (Option β)}

theorem Owes.mono (h : Owes owner signal p n w) (hp : p → q) (hn : n ≤ m) :
    Owes owner signal q m w := by
  rcases h with h | h
  · exact Or.inl (hp h)
  · exact Or.inr (by omega)

/-- An observation that settles the account if it is the signal. -/
theorem Owes.absorb {bind : Option β} {obs : Observation}
    (h : Owes owner signal p (n + tick owner signal bind obs) w)
    (hq : bind = some owner → obs = signal → q) : Owes owner signal (p ∨ q) n w := by
  by_cases hsame : bind = some owner ∧ obs = signal
  · exact Or.inl (Or.inr (hq hsame.1 hsame.2))
  · have hzero : tick owner signal bind obs = 0 := if_neg hsame
    rw [hzero] at h
    exact h.mono Or.inl le_rfl

@[simp] theorem tick_none (obs : Observation) : tick owner signal none obs = 0 := by
  simp [tick]

/-- An observation that is not the signal does not count. -/
theorem tick_of_ne {bind : Option β} {obs : Observation} (h : obs ≠ signal) :
    tick owner signal bind obs = 0 :=
  if_neg fun hboth => h hboth.2

@[simp] theorem ticks_nil : ticks owner signal bound [] = 0 := rfl

@[simp] theorem ticks_cons (p : Nat × Observation) (rest : List (Nat × Observation)) :
    ticks owner signal bound (p :: rest)
      = tick owner signal bound[p.1]?.join p.2 + ticks owner signal bound rest := by
  simp [ticks]

@[simp] theorem ticks_append (xs ys : List (Nat × Observation)) :
    ticks owner signal bound (xs ++ ys)
      = ticks owner signal bound xs + ticks owner signal bound ys := by
  simp [ticks]

theorem ticks_perm {xs ys : List (Nat × Observation)} (h : xs.Perm ys) :
    ticks owner signal bound xs = ticks owner signal bound ys :=
  (h.map _).sum_eq

/-! ## One call -/

/-- A step of the host leaves the account as it is. -/
theorem host_owes {α : Type} {f : σ → α × σ} :
    Triple (Owes owner signal p n) (Act.host f) fun _ => Owes owner signal p n :=
  host_spec fun _ h => h

/-- An entry moves the account by what it yields or hands back. -/
theorem record_owes {entry : Call β}
    (h : n + (Yields owner signal entry).toNat ≤ m + (HandsBack owner signal entry).toNat) :
    Triple (Owes owner signal p n : World σ β → Prop) (Act.record [entry]) fun _ =>
      Owes owner signal p m := by
  rintro w hw _ _ ⟨⟩
  refine hw.imp_right fun hle => ?_
  show (w.log ++ [entry]).countP _ ≤ (w.log ++ [entry]).countP _ + m
  rw [List.countP_append, List.countP_append]
  cases hy : Yields owner signal entry <;> cases hb : HandsBack owner signal entry <;>
    simp_all <;> omega

variable {env : Env σ β φ ψ}

theorem toNat_decide_tick (bind : β) (obs : Observation) :
    (decide (bind = owner ∧ obs = signal)).toNat = tick owner signal (some bind) obs := by
  by_cases h : bind = owner ∧ obs = signal <;> simp [tick, h]

theorem pollNext_owes (bind : β) (fut : ψ) :
    Triple (Owes owner signal p n) (env.pollNext (bind, fut)) fun answer => match answer with
      | .ready (.ok obs) => Owes owner signal p (n + tick owner signal (some bind) obs)
      | _ => Owes owner signal p n := by
  refine Triple.bind host_owes ?_
  rintro ((err | obs) | _)
  · exact Triple.pure fun w h => h
  · refine Triple.bind (record_owes ?_) fun _ => Triple.pure fun w h => h
    show n + (decide (bind = owner ∧ obs = signal)).toNat ≤ _ + 0
    rw [toNat_decide_tick, Nat.add_zero]
  · exact Triple.pure fun w h => h

theorem pollReady_owes (bind : β) :
    Triple (Owes owner signal p n) (env.pollReady bind) fun answer => match answer with
      | some obs => Owes owner signal p (n + tick owner signal (some bind) obs)
      | none => Owes owner signal p n := by
  refine Triple.bind host_owes fun answer => ?_
  cases answer with
  | none =>
    exact Triple.bind (record_spec fun w h => by simpa using h) fun _ => Triple.pure fun w h => h
  | some obs =>
    refine Triple.bind (record_owes ?_) fun _ => Triple.pure fun w h => h
    show n + (decide (bind = owner ∧ obs = signal)).toNat ≤ _ + 0
    rw [toNat_decide_tick, Nat.add_zero]

namespace PollCycle

/-- Nothing is asked of a run that fails. -/
def Failed (_ : Error) (_ : World σ β) : Prop := True

/-- Handing an observation back takes it off the account. -/
theorem restoreObservation_owes (bind : Option β) (obs : Observation) :
    ETriple (Owes owner signal p (n + tick owner signal bind obs))
      (restoreObservation env bind obs) (fun _ => Owes owner signal p n) Failed := by
  cases bind with
  | none => exact ETriple.pure fun w h => by simpa using h
  | some bind =>
    have hstep : Triple (Owes owner signal p (n + tick owner signal (some bind) obs))
        (env.restoreReady bind obs) fun _ => Owes owner signal p n := by
      refine Triple.bind host_owes fun answer => ?_
      refine Triple.bind (record_owes ?_) fun _ => Triple.pure fun w h => h
      show _ + 0 ≤ n + (decide (bind = owner ∧ obs = signal)).toNat
      rw [toNat_decide_tick]
      omega
    refine hstep.weaken ?_
    rintro (err | u) w h
    · trivial
    · exact h

theorem restoreEach_owes (ready : List (Nat × Observation)) :
    ETriple (Owes owner signal p (n + ticks owner signal bound ready))
      (restoreEach env bound ready) (fun _ => Owes owner signal p n) Failed := by
  induction ready with
  | nil => exact ETriple.pure fun w h => by simpa using h
  | cons entry rest ih =>
    unfold restoreEach
    refine ETriple.bind ((restoreObservation_owes _ _).strengthen fun w h => ?_) fun _ => ih
    rw [ticks_cons] at h
    exact h.mono id (by omega)

/-- Handing an event back leaves the account as it is. -/
theorem restoreEvent_owes (bind : Option β) (event : WaitEvent) :
    ETriple (Owes owner signal p n) (restoreObservation env bind (.event event))
      (fun _ => Owes owner signal p n) Failed :=
  (restoreObservation_owes bind (.event event)).strengthen fun _ h =>
    h.mono id (Nat.le_add_right _ _)

/-! ## Visiting an arm -/

variable (hfault : signal.IsFault)
include hfault

/-- An event does not count. -/
theorem tick_event (bind : Option β) (event : WaitEvent) :
    tick owner signal bind (.event event) = 0 := by
  refine tick_of_ne ?_
  rintro rfl
  cases hfault

/-- **A drain** hands a fault signal back, but for an overflow, which cuts it short. -/
theorem drainLoop_owes (bind : β) (fuel : Nat) (budget : CollectBudget) (events : List WaitEvent) :
    ETriple (Owes owner signal p n) (drainLoop env bind fuel budget events)
      (fun r => Owes owner signal (p ∨ (bind = owner ∧ r.1 = true)) n) Failed := by
  induction fuel generalizing budget events with
  | zero => exact ETriple.exhausted
  | succ fuel ih =>
    unfold drainLoop
    split
    · exact ETriple.pure fun w h => h.mono Or.inl le_rfl
    · refine ETriple.bind (ETriple.lift (pollReady_owes bind)) ?_
      rintro (_ | obs)
      · exact ETriple.pure fun w h => h.mono Or.inl le_rfl
      · cases obs with
        | event event =>
          dsimp only
          rw [tick_event hfault]
          cases budget.tryTake event with
          | none =>
            refine ETriple.bind (restoreEvent_owes (some bind) event) fun _ => ?_
            exact ETriple.pure fun w h => h.mono Or.inl le_rfl
          | some budget' => exact ih budget' (events ++ [event])
        | overflow =>
          refine ETriple.pure fun w h => h.absorb fun hbind _ => ?_
          exact ⟨Option.some.inj hbind, rfl⟩
        | _ =>
          -- the signal goes back to its bind
          refine ETriple.bind (restoreObservation_owes (some bind) _) fun _ => ?_
          exact ETriple.pure fun w h => h.mono Or.inl le_rfl

theorem visitAdmitted_owes (bind : Option β) (fuel : Nat) (budget : CollectBudget)
    (event : WaitEvent) :
    ETriple (Owes owner signal p n) (visitAdmitted env bind fuel budget event)
      (fun r => Owes owner signal (p ∨ (bind = some owner ∧ r.1.IsStained)) n) Failed := by
  cases bind with
  | none => exact ETriple.pure fun w h => h.mono Or.inl le_rfl
  | some bind =>
    unfold visitAdmitted drainReady
    refine ETriple.bind (ETriple.lift (record_owes (m := n) le_rfl)) fun _ => ?_
    have hdrain : ETriple (Owes owner signal p n)
        (if !budget.roomForRegistration (env.registrationId bind) then
          return (true, budget, [event])
        else drainLoop env bind fuel budget [event])
        (fun r => Owes owner signal (p ∨ (bind = owner ∧ r.1 = true)) n) Failed := by
      split
      · exact ETriple.pure fun w h => h.mono Or.inl le_rfl
      · exact drainLoop_owes hfault bind fuel budget [event]
    refine ETriple.bind hdrain ?_
    rintro ⟨truncated, budget', events⟩
    refine ETriple.pure fun w h => h.mono (Or.imp_right ?_) le_rfl
    rintro ⟨rfl, rfl⟩
    exact ⟨rfl, trivial⟩

/-- **A visit** consumes a fault signal into a stained visit. -/
theorem visitFrom_owes (bind : Option β) (fuel : Nat) (budget : CollectBudget)
    (obs : Observation) :
    ETriple (Owes owner signal p (n + tick owner signal bind obs))
      (visitFrom env bind fuel budget obs)
      (fun r => Owes owner signal (p ∨ (bind = some owner ∧ r.1.IsStained)) n) Failed := by
  cases obs with
  | event event =>
    simp only [visitFrom]
    rw [tick_event hfault]
    cases budget.tryTake event with
    | none =>
      refine ETriple.bind (R := fun _ => Owes owner signal p n) ?_ fun visit =>
        ETriple.pure fun w h => h.mono Or.inl le_rfl
      exact ETriple.bind (restoreEvent_owes bind event) fun _ => ETriple.pure fun w h => h
    | some budget => exact visitAdmitted_owes hfault bind fuel budget event
  | idle =>
    refine ETriple.pure fun w h => h.absorb fun _ hsame => ?_
    subst hsame
    cases hfault
  | _ => exact ETriple.pure fun w h => h.absorb fun hbind _ => ⟨hbind, trivial⟩

theorem visitReady_owes (bind : Option β) (fuel : Nat) (budget : CollectBudget)
    (obs : Observation) :
    ETriple (Owes owner signal p (n + tick owner signal bind obs))
      (visitReady env bind fuel budget obs)
      (fun r => Owes owner signal (p ∨ (bind = some owner ∧ r.1.IsStained)) n) Failed := by
  unfold visitReady
  split
  · refine ETriple.bind (R := fun _ => Owes owner signal p n) ?_ fun visit =>
      ETriple.pure fun w h => h.mono Or.inl le_rfl
    exact ETriple.bind (restoreObservation_owes bind obs) fun _ => ETriple.pure fun w h => h
  · exact visitFrom_owes hfault bind fuel budget obs

/-! ## Recording -/

omit hfault

/-- Collecting an observation of a new slot. -/
theorem ticks_insert {readyMap : BTreeMap Nat Observation} {idx : Nat} (hnew : idx ∉ readyMap)
    (obs : Observation) :
    ticks owner signal bound (readyMap.insert idx obs).toList
      = tick owner signal bound[idx]?.join obs + ticks owner signal bound readyMap.toList := by
  have hnone : readyMap[idx]? = none := by simpa using hnew
  rw [ticks_perm (TreeMap.toList_perm_cons hnone fun a => TreeMap.lookup_insert readyMap idx a obs),
    ticks_cons]

/-- Taking the observation of a slot. -/
theorem ticks_erase {readyMap : BTreeMap Nat Observation} {idx : Nat} {obs : Observation}
    (hobs : readyMap[idx]? = some obs) :
    ticks owner signal bound readyMap.toList
      = tick owner signal bound[idx]?.join obs
        + ticks owner signal bound (readyMap.erase idx).toList := by
  have hlookup : ∀ a : Nat,
      readyMap[a]? = if idx = a then some obs else (readyMap.erase idx)[a]? := by
    intro a
    rw [TreeMap.lookup_erase]
    by_cases ha : idx = a
    · rw [if_pos ha, ← ha, hobs]
    · rw [if_neg ha, if_neg ha]
  rw [ticks_perm (TreeMap.toList_perm_cons (by simp) hlookup), ticks_cons]

/-- Observations are gathered under their slots; a second one of a slot goes back. -/
theorem gatherReady_owes (ready : List (Nat × Observation)) (readyMap : BTreeMap Nat Observation) :
    ETriple
      (Owes owner signal p
        (n + ticks owner signal bound ready + ticks owner signal bound readyMap.toList))
      (gatherReady env bound ready readyMap)
      (fun readyMap => Owes owner signal p (n + ticks owner signal bound readyMap.toList))
      Failed := by
  induction ready generalizing readyMap with
  | nil => exact ETriple.pure fun w h => by simpa using h
  | cons entry rest ih =>
    unfold gatherReady
    split
    · refine ETriple.bind ((restoreObservation_owes _ _).strengthen fun w h => ?_) fun _ =>
        ih readyMap
      rw [ticks_cons] at h
      exact h.mono id (by omega)
    · next hnew =>
      refine (ih (readyMap.insert entry.1 entry.2)).strengthen fun w h => h.mono id ?_
      rw [ticks_cons, ticks_insert hnew]
      omega

/-- Some arm of the registration of the bind has a stained visit. -/
def Stained (env : Env σ β φ ψ) (ids : List IdToken) (owner : β) (visits : Visits) : Prop :=
  ∃ (idx : Nat) (visit : ArmVisit), visits[idx]? = some visit ∧ visit.IsStained ∧
    ids[idx]? = some (env.registrationId owner)

/-- Every bind is one of the registration of its slot. -/
def LabelledSlots (env : Env σ β φ ψ) (ids : List IdToken) (bound : List (Option β)) : Prop :=
  ∀ (slot : Nat) (bind : β), bound[slot]?.join = some bind →
    ids[slot]? = some (env.registrationId bind)

variable {ids : List IdToken} {visits : Visits} {set : RegistrationSet}
  {request : PollCycleRequest}

/-- Marking a visit leaves the account as it is. -/
theorem record_visited_owes (bind : Option β) :
    Triple (Owes owner signal p n : World σ β → Prop)
      (Act.record (bind.toList.map Call.visited)) fun _ => Owes owner signal p n := by
  cases bind with
  | none => exact record_spec fun w h => by simpa using h
  | some bind => exact record_owes le_rfl

omit [DecidableEq β] in
/-- New visits keep the stained ones. -/
theorem Stained.insert {idx : Nat} (hnew : idx ∉ visits) (visit : ArmVisit)
    (h : Stained env ids owner visits) : Stained env ids owner (visits.insert idx visit) := by
  obtain ⟨slot, stained, hslot, hstained, hid⟩ := h
  refine ⟨slot, stained, ?_, hstained, hid⟩
  rw [TreeMap.lookup_insert, if_neg, hslot]
  rintro rfl
  rw [Std.ExtTreeMap.mem_iff_isSome_getElem?, hslot] at hnew
  exact hnew rfl

include hfault

/-- **The loop over the fairness order**: what is visited is off the account, or its visit is
stained. -/
theorem visitEach_owes (hslots : LabelledSlots env ids bound) (fuel : Nat) (order : List Nat)
    (rec : Recording) :
    ETriple
      (Owes owner signal (Stained env ids owner rec.visits)
        (n + ticks owner signal bound rec.readyMap.toList))
      (visitEach env bound fuel order rec)
      (fun rec => Owes owner signal (Stained env ids owner rec.visits)
        (n + ticks owner signal bound rec.readyMap.toList)) Failed := by
  induction order generalizing rec with
  | nil => exact ETriple.pure fun w h => h
  | cons idx rest ih =>
    unfold visitEach
    split
    · exact ih rec
    · next hnew =>
      cases hobs : rec.readyMap[idx]? with
      | none => exact ih rec
      | some obs =>
        dsimp only
        have hvisit : ETriple
            (Owes owner signal (Stained env ids owner rec.visits)
              (n + ticks owner signal bound (rec.readyMap.erase idx).toList
                + tick owner signal bound[idx]?.join obs))
            (visitReady env bound[idx]?.join fuel rec.budget obs) _ Failed :=
          visitReady_owes hfault bound[idx]?.join fuel rec.budget obs
        refine ETriple.bind (hvisit.strengthen fun w h => ?_) ?_
        · rw [ticks_erase hobs] at h
          exact h.mono id (by omega)
        · rintro ⟨visit, budget⟩
          refine ETriple.bind (ETriple.lift (record_visited_owes bound[idx]?.join)) fun _ => ?_
          refine (ih _).strengthen fun w h => h.mono ?_ le_rfl
          rintro (hold | ⟨hbind, hstained⟩)
          · exact hold.insert hnew visit
          · refine ⟨idx, visit, ?_, hstained, hslots idx owner hbind⟩
            rw [TreeMap.lookup_insert, if_pos rfl]

/-- **A recording settles what was collected**: each observation is visited or handed back. -/
theorem recordReady_owes (hslots : LabelledSlots env ids bound) (fuel : Nat)
    (budget : CollectBudget) (visits : Visits) (ready : List (Nat × Observation)) :
    ETriple
      (Owes owner signal (Stained env ids owner visits) (n + ticks owner signal bound ready))
      (recordReady env set request bound fuel budget visits ready)
      (fun r => Owes owner signal (Stained env ids owner r.2) n) Failed := by
  unfold recordReady
  have hgather : ETriple (Owes owner signal (Stained env ids owner visits) _)
      (gatherReady env bound ready ∅) _ Failed := gatherReady_owes (n := n) ready ∅
  refine ETriple.bind (hgather.strengthen fun w h => ?_) fun readyMap => ?_
  · exact h.mono id (by omega)
  · refine ETriple.bind (visitEach_owes hfault hslots fuel _ ⟨visits, budget, readyMap⟩) fun rec => ?_
    refine ETriple.bind (restoreEach_owes rec.readyMap.toList) fun _ => ?_
    exact ETriple.pure fun w h => h

omit hfault

/-- Each bind that has nothing ready is polled, and what it yields is collected at its slot. -/
theorem extendReadyRefs_owes {refs : List (Nat × β)}
    (hrefs : ∀ r ∈ refs, bound[r.1]?.join = some r.2) (ready : List (Nat × Observation)) :
    Triple (Owes owner signal p (n + ticks owner signal bound ready))
      (extendReadyRefs env refs ready)
      fun ready => Owes owner signal p (n + ticks owner signal bound ready) := by
  induction refs generalizing ready with
  | nil => exact Triple.pure fun w h => h
  | cons entry rest ih =>
    obtain ⟨idx, bind⟩ := entry
    have hrest := fun r hr => hrefs r (List.mem_cons_of_mem _ hr)
    unfold extendReadyRefs
    split
    · exact ih hrest ready
    · refine Triple.bind (pollReady_owes bind) ?_
      rintro (_ | obs)
      · exact ih hrest ready
      · refine (ih hrest (ready ++ [(idx, obs)])).strengthen fun w h => h.mono id ?_
        have hbind : bound[idx]?.join = some bind := hrefs (idx, bind) List.mem_cons_self
        rw [ticks_append, ticks_cons, ticks_nil, hbind]
        dsimp only
        omega

/-! ## The races -/

/-- A `next` future borrows the bind of its label. -/
def Borrows (label : Nat × β) (fut : β × ψ) : Prop := fut.1 = label.2

/-- How often a race of `next` futures has taken the signal. -/
def taken (owner : β) (signal : Observation) (values : List ((Nat × β) × Observation)) : ℕ :=
  (values.map fun v => tick owner signal (some v.1.2) v.2).sum

variable (owner signal) in
/-- The observation race takes at most one observation from each bind. -/
theorem nextOwes (env : Env σ β φ ψ) (p : Prop) (n : ℕ) :
    FirstReady.Owning Prod.fst Borrows (pollNextArm env)
      fun values => Owes owner signal p (n + taken owner signal values) where
  reorder := by
    intro values values' w _ hperm h
    have hsum : taken owner signal values' = taken owner signal values :=
      (hperm.map _).sum_eq.symm
    rw [hsum]
    exact h
  poll := by
    rintro ⟨slot, bind⟩ ⟨bind', fut⟩ values hborrows
    obtain rfl : bind' = bind := hborrows
    refine Triple.bind (pollNext_owes bind' fut) ?_
    rintro ((err | obs) | _)
    · exact Triple.pure fun w h => h
    · refine Triple.pure fun w h => h.mono id ?_
      simp only [taken, List.map_append, List.map_cons, List.map_nil, List.sum_append,
        List.sum_cons, List.sum_nil]
      omega
    · exact Triple.pure fun w h => ⟨rfl, h⟩

/-- What the race hands over is collected at the slots of its binds. -/
theorem ticks_remapReady {pending : List (Nat × β)}
    (hpending : ∀ r ∈ pending, bound[r.1]?.join = some r.2) (ready : List (Nat × Observation)) :
    ticks owner signal bound (remapReady (pending.map Prod.fst) ready)
      = taken owner signal (FirstReady.handed (fun j => pending[j]?) ready) := by
  induction ready with
  | nil => rfl
  | cons entry rest ih =>
    obtain ⟨pos, obs⟩ := entry
    cases hp : pending[pos]? with
    | none => simpa [remapReady, FirstReady.handed, hp] using ih
    | some r =>
      have hbind := hpending r (List.mem_of_getElem? hp)
      have hcons : remapReady (pending.map Prod.fst) ((pos, obs) :: rest)
          = (r.1, obs) :: remapReady (pending.map Prod.fst) rest := by
        simp [remapReady, hp]
      have htaken : taken owner signal
          ((r, obs) :: FirstReady.handed (fun j => pending[j]?) rest)
          = tick owner signal (some r.2) obs
            + taken owner signal (FirstReady.handed (fun j => pending[j]?) rest) := by
        simp [taken]
      rw [hcons, FirstReady.handed_cons hp, ticks_cons, hbind, htaken, ih]

/-- The `observe_pending` future between polls holds only idle signals. -/
def Observing (pending : List (Nat × β)) : Option (List (NextArm β ψ)) → Prop
  | none => True
  | some arms => FirstReady.ArmsGood Borrows pending arms ∧
      ∀ v ∈ FirstReady.armsHeld pending arms, observationIsTerminal v.2 = false

/-- Calling `next` on each bind. -/
theorem nextEach_owes (pending : List (Nat × β)) :
    Triple (Owes owner signal p n) (nextEach env pending) fun futs w =>
      List.Forall₂ Borrows pending futs ∧ Owes owner signal p n w := by
  induction pending with
  | nil => exact Triple.pure fun w h => ⟨List.Forall₂.nil, h⟩
  | cons r rest ih =>
    unfold nextEach
    have hnext : Triple (Owes owner signal p n) (env.next r.2) fun fut w =>
        Borrows r fut ∧ Owes owner signal p n w :=
      Triple.bind host_owes fun _ => Triple.pure fun w h => ⟨rfl, h⟩
    refine Triple.bind hnext fun fut => Triple.assume fun hborrows => ?_
    exact Triple.bind ih fun futs => Triple.pure fun w h => ⟨List.Forall₂.cons hborrows h.1, h.2⟩

/-- The race takes nothing before its first poll. -/
theorem startObserving_owes {pending : List (Nat × β)}
    {observing : Option (List (NextArm β ψ))} (hobserving : Observing pending observing) :
    Triple (Owes owner signal p n) (startObserving env pending observing) fun arms w =>
      FirstReady.ArmsGood Borrows pending arms ∧
        Owes owner signal p (n + taken owner signal (FirstReady.armsHeld pending arms)) w := by
  cases observing with
  | some arms =>
    exact Triple.pure fun w h => ⟨hobserving.1, h.mono id (Nat.le_add_right _ _)⟩
  | none =>
    refine Triple.bind (nextEach_owes pending) fun futs => Triple.pure fun w h => ?_
    exact ⟨FirstReady.armsGood_new h.1, h.2.mono id (Nat.le_add_right _ _)⟩

/-- Idle signals do not count. -/
theorem taken_idle (hfault : signal.IsFault) {values : List ((Nat × β) × Observation)}
    (hidle : ∀ v ∈ values, observationIsTerminal v.2 = false) : taken owner signal values = 0 := by
  unfold taken
  rw [List.sum_eq_zero_iff]
  intro k hk
  obtain ⟨v, hv, rfl⟩ := List.mem_map.mp hk
  refine tick_of_ne ?_
  intro hsame
  have hterminal := hidle v hv
  rw [hsame, hfault.terminal] at hterminal
  cases hterminal

theorem dropNext_owes (fut : β × ψ) :
    Triple (Owes owner signal p n) (env.dropNext fut) fun _ => Owes owner signal p n :=
  host_owes

theorem dropBindOne_owes (fut : BindOne φ) :
    Triple (Owes owner signal p n) (dropBindOne env fut) fun _ => Owes owner signal p n := by
  have hdrop : ∀ fut, Triple (Owes owner signal p n) (env.dropBind fut) fun _ =>
      Owes owner signal p n := fun _ => host_owes
  cases fut with
  | start registration => exact Triple.pure fun w h => h
  | binding registration fut => exact hdrop fut

theorem dropObserving_owes (observing : Option (List (NextArm β ψ))) :
    Triple (Owes owner signal p n) (dropObserving env observing) fun _ =>
      Owes owner signal p n := by
  cases observing with
  | none => exact Triple.pure fun w h => h
  | some arms => exact FirstReady.drop_spec dropNext_owes arms

/-- **One poll of the observation race**: it hands over what it took, or holds idle signals. -/
theorem pollObservePending_owes (hfault : signal.IsFault) {pending : List (Nat × β)}
    (hpending : ∀ r ∈ pending, bound[r.1]?.join = some r.2)
    (hkeys : (pending.map Prod.fst).Nodup) {observing : Option (List (NextArm β ψ))}
    (hobserving : Observing pending observing) :
    Triple (Owes owner signal p n) (pollObservePending env pending observing)
      fun r w => match r.2 with
        | none => Observing pending r.1 ∧ Owes owner signal p n w
        | some out => Owes owner signal p (n + ticks owner signal bound out.ready) w := by
  unfold pollObservePending
  split
  · exact Triple.pure fun w h => ⟨hobserving, h⟩
  · refine Triple.bind (startObserving_owes hobserving) fun arms =>
      Triple.assume fun hgood => ?_
    have hpoll := FirstReady.poll_spec (nextOwes owner signal env p n)
      observationIsTerminal hkeys hgood
    refine Triple.bind hpoll ?_
    rintro ⟨arms', out⟩
    cases out with
    | none =>
      refine Triple.pure fun w h => ⟨h.2, ?_⟩
      have hheld := h.1
      rwa [taken_idle hfault h.2.2, Nat.add_zero] at hheld
    | some out =>
      refine Triple.bind (FirstReady.drop_spec dropNext_owes arms' |>.strengthen fun w h => h.1)
        fun _ => Triple.pure fun w h => ?_
      show Owes owner signal p (n + ticks owner signal bound
        (remapReady (pending.map Prod.fst) out.ready)) w
      rw [ticks_remapReady hpending]
      exact h

/-- Recording a resolved start leaves the account as it is. -/
theorem recordResolved_owes (bind : β) :
    Triple (Owes owner signal p n) (env.recordResolved bind) fun _ => Owes owner signal p n := by
  rintro w h _ _ ⟨⟩
  exact h

theorem acceptBind_owes (registration : Registration) (bind : β) :
    Triple (Owes owner signal p n) (acceptBind env request registration bind) fun _ =>
      Owes owner signal p n := by
  have hrecord : Triple (Owes owner signal p n)
      (do env.recordResolved bind; return (.ok bind : Except Error β)) fun _ =>
        Owes owner signal p n :=
    Triple.bind (recordResolved_owes bind) fun _ => Triple.pure fun w h => h
  unfold acceptBind
  split
  · split
    · exact Triple.pure fun w h => h
    · exact hrecord
  · exact hrecord

theorem pollBindOne_owes (fut : BindOne φ) :
    Triple (Owes owner signal p n) (pollBindOne env request fut) fun _ =>
      Owes owner signal p n := by
  have hpoll : ∀ (registration : Registration) (fut : φ),
      Triple (Owes owner signal p n) (pollBinding env request registration fut) fun _ =>
        Owes owner signal p n := by
    intro registration fut
    refine Triple.bind host_owes ?_
    rintro ((err | bind) | _)
    · exact Triple.pure fun w h => h
    · exact Triple.bind (acceptBind_owes registration bind) fun _ => Triple.pure fun w h => h
    · exact Triple.pure fun w h => h
  cases fut with
  | start registration => exact Triple.bind host_owes fun fut => hpoll registration fut
  | binding registration fut => exact hpoll registration fut

/-- **One poll of the bind race** leaves the account as it is. -/
theorem pollBindUnbound_owes (unbound : List Nat) (arms : List (Arm (BindOne φ) β)) :
    Triple (Owes owner signal p n) (pollBindUnbound env request unbound arms) fun _ =>
      Owes owner signal p n := by
  unfold pollBindUnbound
  split
  · exact Triple.pure fun w h => h
  · refine Triple.bind (FirstReady.poll_keeps pollBindOne_owes (fun _ => true) arms) ?_
    rintro ⟨arms', out⟩
    cases out with
    | none => exact Triple.pure fun w h => h
    | some out =>
      exact Triple.bind (FirstReady.drop_spec dropBindOne_owes arms') fun _ =>
        Triple.pure fun w h => h

/-- What the winner of the `select!` of an observing cycle has taken. -/
def SelectedOwes (owner : β) (signal : Observation) (p : Prop) (bound : List (Option β)) :
    Selected (FirstReadyOutput Observation ⊕ FirstReadyOutput β) → World σ β → Prop
  | .collected (.inl out) => Owes owner signal p (ticks owner signal bound out.ready)
  | _ => Owes owner signal p 0

/-- **The `select!` of an observing cycle**: the winner hands over what it took, and the losers are
dropped with nothing but idle signals in them. -/
theorem selectObserving_owes (hfault : signal.IsFault) {pending : List (Nat × β)}
    (hpending : ∀ r ∈ pending, bound[r.1]?.join = some r.2)
    (hkeys : (pending.map Prod.fst).Nodup) (unbound : List Nat) (waitUntil : Timestamp)
    (fuel : Nat) {observing : Option (List (NextArm β ψ))}
    (hobserving : Observing pending observing) (binding : List (Arm (BindOne φ) β)) :
    Triple (Owes owner signal p 0)
      (selectObserving env request pending unbound waitUntil fuel observing binding)
      (SelectedOwes owner signal p bound) := by
  induction fuel generalizing observing binding with
  | zero => exact Triple.exhausted
  | succ fuel ih =>
    unfold selectObserving
    refine Triple.bind (pollObservePending_owes hfault hpending hkeys hobserving) ?_
    rintro ⟨observing', observed⟩
    cases observed with
    | some collected =>
      refine Triple.bind (FirstReady.drop_spec dropBindOne_owes binding) fun _ => ?_
      exact Triple.pure fun w h => h.mono id (by omega)
    | none =>
      refine Triple.assume fun hobserving' => ?_
      refine Triple.bind (pollBindUnbound_owes unbound binding) ?_
      rintro ⟨binding', collected⟩
      cases collected with
      | some collected =>
        refine Triple.bind (dropObserving_owes observing') fun _ => ?_
        exact Triple.pure fun w h => h
      | none =>
        have hgiveUp : ∀ {winner : Selected (FirstReadyOutput Observation ⊕ FirstReadyOutput β)},
            (∀ w : World σ β, Owes owner signal p 0 w →
              SelectedOwes owner signal p bound winner w) →
            Triple (Owes owner signal p 0)
              (do
                dropObserving env observing'
                FirstReady.drop (dropBindOne env) binding'
                return winner)
              (SelectedOwes owner signal p bound) := by
          intro winner hwinner
          refine Triple.bind (dropObserving_owes observing') fun _ => ?_
          refine Triple.bind (FirstReady.drop_spec dropBindOne_owes binding') fun _ => ?_
          exact Triple.pure hwinner
        refine Triple.bind host_owes ?_
        rintro (_ | _)
        · refine Triple.bind host_owes ?_
          rintro (_ | _)
          · exact Triple.bind host_owes fun _ => ih hobserving' binding'
          · exact hgiveUp fun w h => h
        · exact hgiveUp fun w h => h

/-- **The `select!` of a cycle without a bind** takes nothing. -/
theorem selectBinding_owes (unbound : List Nat) (waitUntil : Timestamp) (fuel : Nat)
    (binding : List (Arm (BindOne φ) β)) :
    Triple (Owes owner signal p n) (selectBinding env request unbound waitUntil fuel binding)
      fun _ => Owes owner signal p n := by
  induction fuel generalizing binding with
  | zero => exact Triple.exhausted
  | succ fuel ih =>
    unfold selectBinding
    refine Triple.bind (pollBindUnbound_owes unbound binding) ?_
    rintro ⟨binding', collected⟩
    cases collected with
    | some collected => exact Triple.pure fun w h => h
    | none =>
      have hdrop : Triple (Owes owner signal p n) (FirstReady.drop (dropBindOne env) binding')
          fun _ => Owes owner signal p n := FirstReady.drop_spec dropBindOne_owes binding'
      refine Triple.bind host_owes ?_
      rintro (_ | _)
      · refine Triple.bind host_owes ?_
        rintro (_ | _)
        · exact Triple.bind host_owes fun _ => ih binding'
        · exact Triple.bind hdrop fun _ => Triple.pure fun w h => h
      · exact Triple.bind hdrop fun _ => Triple.pure fun w h => h

/-! ## The loop -/

theorem snapshot_owes :
    Triple (Owes owner signal p n : World σ β → Prop) snapshot fun _ => Owes owner signal p n := by
  rintro w h _ _ ⟨⟩
  exact h

/-- After a turn that does not fail, nothing is owed but by a stained visit. -/
def TurnOwes (env : Env σ β φ ψ) (ids : List IdToken) (owner : β) (signal : Observation)
    (r : Cycle β × Option Decision) (w : World σ β) : Prop :=
  (∃ err, r.2 = some (.fault err)) ∨ Owes owner signal (Stained env ids owner r.1.visits) 0 w

section loop

variable (hfault : signal.IsFault) {cycle : Cycle β}
include hfault

theorem recordAndCheck_owes (hslots : LabelledSlots env ids cycle.bound) (fuel : Nat)
    (ready : List (Nat × Observation)) (starts : List ResolvedStart) :
    ETriple
      (Owes owner signal (Stained env ids owner cycle.visits)
        (ticks owner signal cycle.bound ready))
      (recordAndCheck env set request fuel cycle ready starts)
      (TurnOwes env ids owner signal) Failed := by
  have hrecord : ETriple (Owes owner signal (Stained env ids owner cycle.visits)
      (0 + ticks owner signal cycle.bound ready))
      (recordReady env set request cycle.bound fuel cycle.budget cycle.visits ready) _ Failed :=
    recordReady_owes hfault hslots fuel cycle.budget cycle.visits ready
  unfold recordAndCheck
  refine ETriple.bind (hrecord.strengthen fun w h => h.mono id (by omega)) ?_
  rintro ⟨budget, visits⟩
  dsimp only
  split
  · refine ETriple.bind (ETriple.lift host_owes) fun now => ?_
    exact ETriple.pure fun w h => Or.inr h
  · exact ETriple.pure fun w h => Or.inr h

theorem onBound_owes (fuel : Nat) {collected : FirstReadyOutput β}
    (hslots : LabelledSlots env ids (storeBinds cycle.bound collected.ready)) :
    ETriple (Owes owner signal (Stained env ids owner cycle.visits) 0)
      (onBound env set request fuel cycle collected)
      (TurnOwes env ids owner signal) Failed := by
  unfold onBound
  cases collected.error with
  | some err => exact ETriple.pure fun w h => Or.inl ⟨err, rfl⟩
  | none =>
    have hextend : Triple (Owes owner signal (Stained env ids owner cycle.visits)
        (0 + ticks owner signal (storeBinds cycle.bound collected.ready) []))
        (extendReadyRefs env (occupiedRefs (storeBinds cycle.bound collected.ready)) []) _ :=
      extendReadyRefs_owes (fun r hr => (mem_pendingRefs.mp hr).2) []
    refine ETriple.bind ((ETriple.lift hextend).strengthen fun w h => h.mono id (by simp)) ?_
    intro ready
    refine ETriple.strengthen (recordAndCheck_owes hfault ?_ fuel ready _) fun w h => ?_
    · exact hslots
    · exact h.mono id (by simp)

theorem onObserved_owes (hslots : LabelledSlots env ids cycle.bound) (fuel : Nat)
    {pending : List (Nat × β)} (hpending : ∀ r ∈ pending, cycle.bound[r.1]?.join = some r.2)
    (starts : List ResolvedStart) (collected : FirstReadyOutput Observation) :
    ETriple
      (Owes owner signal (Stained env ids owner cycle.visits)
        (ticks owner signal cycle.bound collected.ready))
      (onObserved env set request fuel cycle pending starts collected)
      (TurnOwes env ids owner signal) Failed := by
  unfold onObserved
  cases collected.error with
  | some err =>
    refine ETriple.bind (R := fun _ _ => True) (fun _ _ r _ _ => ?_) fun _ => ?_
    · cases r <;> trivial
    · exact ETriple.pure fun w h => Or.inl ⟨err, rfl⟩
  | none =>
    have hextend : Triple (Owes owner signal (Stained env ids owner cycle.visits)
        (0 + ticks owner signal cycle.bound collected.ready))
        (extendReadyRefs env pending collected.ready) _ :=
      extendReadyRefs_owes hpending collected.ready
    refine ETriple.bind ((ETriple.lift hextend).strengthen fun w h => h.mono id (by omega)) ?_
    intro ready
    exact (recordAndCheck_owes hfault hslots fuel ready starts).strengthen fun w h =>
      h.mono id (by omega)

theorem turnObserving_owes (labelled : Labelled env) (hids : IdsOf ids set)
    (hok : CycleOk (labelLedger labelled ids) set cycle) (fuel : Nat)
    (starts : List ResolvedStart) :
    ETriple (Owes owner signal (Stained env ids owner cycle.visits) 0)
      (turnObserving env set request fuel cycle starts)
      (TurnOwes env ids owner signal) Failed := by
  unfold turnObserving
  set order := fairnessOrder set request
  set pending := order.filter fun idx => (cycle.bound[idx]?.join).isSome && idx ∉ cycle.visits
  set unbound := order.filter fun idx => (cycle.bound[idx]?.join).isNone && idx ∉ cycle.visits
  have harms : TurnArms (labelLedger labelled ids) set cycle pending unbound :=
    turnArms hok request
  dsimp only
  split
  · refine ETriple.bind (ETriple.lift host_owes) fun now => ?_
    exact ETriple.pure fun w h => Or.inr h
  · have hnothing : Observing (pendingRefs cycle.bound pending)
        (none : Option (List (NextArm β ψ))) := trivial
    have howes : Triple (Owes owner signal (Stained env ids owner cycle.visits) 0)
        (selectObserving env request (pendingRefs cycle.bound pending) unbound
          (earliestDeadline request) fuel none (bindUnbound set request unbound)) _ :=
      selectObserving_owes hfault harms.refs.slots harms.refs.keys unbound (earliestDeadline request) fuel
        hnothing _
    refine ETriple.bind ((ETriple.lift ((harms.select hids [] [] fuel).and howes)).strengthen
      fun w h => ⟨fun _ hitem => (nomatch hitem), h⟩) ?_
    rintro (⟨collected | collected⟩ | _ | _)
    · exact (onObserved_owes hfault hok.seated fuel harms.refs.slots starts collected).strengthen
        fun w h => h.2
    · -- binds were collected: they fill slots that nothing has visited
      refine ETriple.fact (fun w h => h.1.1) fun hcollected => ?_
      have hok' := (storeBinds_ok hok hcollected harms.new).1
      exact (onBound_owes hfault fuel hok'.seated).strengthen fun w h => h.2
    · refine ETriple.bind ((ETriple.lift host_owes).strengthen fun w h => h.2) fun now => ?_
      exact ETriple.pure fun w h => Or.inr h
    · refine ETriple.bind ((ETriple.lift host_owes).strengthen fun w h => h.2) fun now => ?_
      -- the wait ended: what is ready is taken once more and recorded
      have hextend : Triple (Owes owner signal (Stained env ids owner cycle.visits)
          (0 + ticks owner signal cycle.bound []))
          (extendReadyRefs env (pendingRefs cycle.bound pending) []) _ :=
        extendReadyRefs_owes harms.refs.slots []
      refine ETriple.bind ((ETriple.lift hextend).strengthen fun w h => h.mono id (by simp)) ?_
      intro ready
      have hrecord : ETriple (Owes owner signal (Stained env ids owner cycle.visits)
          (0 + ticks owner signal cycle.bound ready))
          (recordReady env set request cycle.bound fuel cycle.budget cycle.visits ready) _ Failed :=
        recordReady_owes hfault hok.seated fuel cycle.budget cycle.visits ready
      refine ETriple.bind hrecord ?_
      rintro ⟨budget, visits⟩
      exact ETriple.pure fun w h => Or.inr h

theorem turnBinding_owes (labelled : Labelled env) (hids : IdsOf ids set)
    (hok : CycleOk (labelLedger labelled ids) set cycle) (hnone : cycle.anyBound = false)
    (fuel : Nat) :
    ETriple (Owes owner signal (Stained env ids owner cycle.visits) 0)
      (turnBinding env set request fuel cycle)
      (TurnOwes env ids owner signal) Failed := by
  unfold turnBinding
  have hselect : Triple ((labelLedger labelled ids).own [] [])
      (selectBinding env request (fairnessOrder set request) _ fuel _) _ :=
    selectBinding_start _ hids [] [] fuel
  have howes : Triple (Owes owner signal (Stained env ids owner cycle.visits) 0)
      (selectBinding env request (fairnessOrder set request) (earliestDeadline request) fuel
        (bindUnbound set request (fairnessOrder set request))) _ :=
    selectBinding_owes _ _ fuel _
  refine ETriple.bind ((ETriple.lift (hselect.and howes)).strengthen fun w h =>
      ⟨fun _ hitem => (nomatch hitem), h⟩) ?_
  rintro (collected | _ | _)
  · refine ETriple.fact (fun w h => h.1.1 collected rfl) fun hcollected => ?_
    have hok' := (storeBinds_ok hok hcollected fun slot _ => hok.unvisited hnone slot).1
    exact (onBound_owes hfault fuel hok'.seated).strengthen fun w h => h.2
  · refine ETriple.bind ((ETriple.lift host_owes).strengthen fun w h => h.2) fun now => ?_
    refine ETriple.bind (ETriple.lift snapshot_owes) fun starts => ?_
    exact ETriple.pure fun w h => Or.inr h
  · refine ETriple.bind ((ETriple.lift host_owes).strengthen fun w h => h.2) fun now => ?_
    refine ETriple.bind (ETriple.lift snapshot_owes) fun starts => ?_
    exact ETriple.pure fun w h => Or.inr h

/-- **One turn**: nothing is owed afterwards but by a stained visit. -/
theorem turn_owes (labelled : Labelled env) (hids : IdsOf ids set)
    (hok : CycleOk (labelLedger labelled ids) set cycle) (fuel : Nat) :
    ETriple (Owes owner signal (Stained env ids owner cycle.visits) 0)
      (turn env set request fuel cycle) (TurnOwes env ids owner signal) Failed := by
  unfold turn
  refine ETriple.bind (ETriple.lift host_owes) ?_
  rintro (_ | _)
  · refine ETriple.bind (ETriple.lift snapshot_owes) fun resolved => ?_
    refine ETriple.bind (ETriple.lift host_owes) fun now => ?_
    split
    · refine ETriple.bind (ETriple.lift host_owes) fun now => ?_
      exact ETriple.pure fun w h => Or.inr h
    · split
      · exact turnObserving_owes hfault labelled hids hok fuel _
      · next hnone =>
        exact turnBinding_owes hfault labelled hids hok (by simpa using hnone) fuel
  · refine ETriple.bind (ETriple.lift host_owes) fun now => ?_
    refine ETriple.bind (ETriple.lift snapshot_owes) fun starts => ?_
    exact ETriple.pure fun w h => Or.inr h

omit hfault in
/-- A loop that ends without a fault owes nothing but by a stained visit. -/
def LoopOwes (env : Env σ β φ ψ) (ids : List IdToken) (owner : β) (signal : Observation)
    (r : Cycle β × Decision) (w : World σ β) : Prop :=
  (∃ err, r.2 = .fault err) ∨ Owes owner signal (Stained env ids owner r.1.visits) 0 w

/-- **The run of the loop**, by induction on its turns. -/
theorem cycleLoop_owes (labelled : Labelled env) (hids : IdsOf ids set) (fuel turns : Nat)
    (cycle : Cycle β) :
    ETriple
      (fun w => CycleOwn (labelLedger labelled ids) set cycle w ∧
        Owes owner signal (Stained env ids owner cycle.visits) 0 w)
      (cycleLoop env set request fuel turns cycle) (LoopOwes env ids owner signal) Failed := by
  induction turns generalizing cycle with
  | zero => exact ETriple.exhausted
  | succ turns ih =>
    unfold cycleLoop
    refine ETriple.fact (fun w h => h.1.1) fun hok => ?_
    have hcycle : ETriple (CycleOwn (labelLedger labelled ids) set cycle)
        (turn env set request fuel cycle) _ _ := turn_spec hids fuel cycle
    have howes : ETriple (Owes owner signal (Stained env ids owner cycle.visits) 0)
        (turn env set request fuel cycle) _ Failed := turn_owes hfault labelled hids hok fuel
    refine ETriple.bind ((hcycle.and howes).conseq (fun _ h => h) (fun _ _ h => h)
      fun _ _ _ => trivial) ?_
    rintro ⟨cycle', _ | decision⟩
    · refine (ih cycle').strengthen fun w h => ⟨h.1, ?_⟩
      rcases h.2 with ⟨err, herr⟩ | howes
      · cases herr
      · exact howes
    · refine ETriple.pure fun w h => ?_
      rcases h.2 with ⟨err, herr⟩ | howes
      · exact Or.inl ⟨err, Option.some.inj herr⟩
      · exact Or.inr howes

end loop

/-! ## The end of a run -/

theorem restoreVisits_owes (visits : List (Nat × ArmVisit)) :
    ETriple (Owes owner signal p n) (restoreVisits env bound visits)
      (fun _ => Owes owner signal p n) Failed := by
  have hevents : ∀ (bind : β) (events : List WaitEvent),
      ETriple (Owes owner signal p n) (restoreEvents env bind events)
        (fun _ => Owes owner signal p n) Failed := by
    intro bind events
    induction events with
    | nil => exact ETriple.pure fun w h => h
    | cons event rest ih => exact ETriple.bind (restoreEvent_owes (some bind) event) fun _ => ih
  induction visits with
  | nil => exact ETriple.pure fun w h => h
  | cons entry rest ih =>
    unfold restoreVisits
    cases bound[entry.1]?.join with
    | none => exact ih
    | some bind => exact ETriple.bind (hevents bind _) fun _ => ih

/-- What is emitted was decided, and only events are put back. -/
theorem emit_owes {visits : Visits} {answer : Except Error PollCycleOutcome} :
    ETriple (fun w => ∀ outcome, answer = .ok outcome → Owes owner signal p n w)
      (emit env bound visits answer)
      (fun outcome w => answer = .ok outcome ∧ Owes owner signal p n w) Failed := by
  unfold emit
  cases answer with
  | error err =>
    refine ETriple.bind (R := fun _ _ => True) (fun _ _ r _ _ => ?_) fun restored => ?_
    · cases r <;> trivial
    · cases restored <;> exact ETriple.throw fun _ _ => trivial
  | ok outcome =>
    have hrestore : Triple (Owes owner signal p n) (restoreAdmitted env bound visits).run
        fun restored w => ∀ u, restored = .ok u → Owes owner signal p n w := by
      refine Triple.weaken (restoreVisits_owes visits.toList) ?_
      rintro (err | u) w h
      · exact fun u hu => by cases hu
      · exact fun _ _ => h
    refine ETriple.bind ((ETriple.lift hrestore).strengthen fun w h => h outcome rfl) ?_
    rintro (err | u)
    · exact ETriple.throw fun _ _ => trivial
    · exact ETriple.pure fun w h => ⟨rfl, h u rfl⟩

variable (owner signal) in
/-- **A run** decides on visits that owe nothing, unless one is stained. -/
theorem runPollCycle_owes (hfault : signal.IsFault) (labelled : Labelled env) (fuel : Nat) :
    ETriple (fun w => w.log = []) (runPollCycle env set request fuel)
      (fun outcome w => ∃ (cycle : Cycle β) (decision : Decision),
        decision.outcome set request cycle.visits = .ok outcome ∧
          Owes owner signal
            (Stained env (set.registrations.map Registration.registrationId) owner cycle.visits) 0 w)
      Failed := by
  unfold runPollCycle
  refine ETriple.bind (ETriple.result (fun _ _ w h => h) fun _ _ _ _ => trivial) fun _ => ?_
  unfold runLoop
  have hnew : Triple (fun w : World σ β => w.log = []) newResolved fun _ w => w.log = [] := by
    rintro w h _ _ ⟨⟩
    exact h
  refine ETriple.bind (ETriple.lift hnew) fun _ => ?_
  have hloop : ETriple _ (cycleLoop env set request fuel fuel (Cycle.new set request))
      (LoopOwes env (set.registrations.map Registration.registrationId) owner signal) Failed :=
    cycleLoop_owes hfault labelled rfl fuel fuel (Cycle.new set request)
  refine ETriple.bind (hloop.strengthen fun w h =>
    ⟨cycleNew_own fun _ hitem => (nomatch hitem), Or.inr (by simp [h])⟩) ?_
  rintro ⟨cycle, decision⟩
  have hemit : ETriple (fun w => ∀ outcome,
      decision.outcome set request cycle.visits = .ok outcome → Owes owner signal
        (Stained env (set.registrations.map Registration.registrationId) owner cycle.visits) 0 w)
      (emit env cycle.bound cycle.visits (decision.outcome set request cycle.visits)) _ Failed :=
    emit_owes
  refine hemit.conseq (fun w h => ?_) (fun outcome w h => ?_) fun _ _ h => h
  · rintro outcome houtcome
    rcases h with ⟨err, herr⟩ | howes
    · dsimp only at herr
      rw [herr] at houtcome
      cases houtcome
    · exact howes
  · exact ⟨cycle, decision, h.1, h.2⟩

end PollCycle

end Account

namespace PollCycle

/-! ## What a stained visit makes of the outcome -/

variable {set : RegistrationSet} {request : PollCycleRequest} {visits : Visits}
  {outcome : PollCycleOutcome} {kind : OutcomeKind} {now : Timestamp}
  {resolved : List ResolvedStart} {env : Env σ β φ ψ} {owner : β}

/-- A kind that never has complete coverage. -/
def TroubleKind (kind : OutcomeKind) : Prop :=
  kind = .partialResult ∨ kind = .coverageDegraded ∨ kind.rejects = true

/-- The outcome is no all-clear. -/
def Reported (outcome : PollCycleOutcome) : Prop :=
  outcome.coverageComplete = false ∧
    outcome.outcomeKind ∉ [OutcomeKind.events, .noChange, .logicalDeadman]

/-- A kind of trouble is none of the clean ones. -/
theorem TroubleKind.notMem (h : TroubleKind kind) :
    kind ∉ [OutcomeKind.events, .noChange, .logicalDeadman] := by
  rcases h with rfl | rfl | h
  · decide
  · decide
  · intro hmem
    cases kind <;> simp_all [OutcomeKind.rejects]

theorem build_reported {reason : Option String} (hkind : TroubleKind kind)
    (h : build set request now resolved visits kind reason = .ok outcome) : Reported outcome := by
  unfold build at h
  dsimp only at h
  split at h
  · cases h
  · obtain rfl := Except.ok.inj h
    exact ⟨if_pos hkind, hkind.notMem⟩

theorem applyPosture_reported (h : Reported outcome) :
    Reported (applyPosture set request outcome) := by
  have hrebuild : ∀ (kind : OutcomeKind) (reason : String), kind.rejects = true →
      Reported (rebuildReason outcome kind reason) := fun kind reason hkind =>
    ⟨rfl, TroubleKind.notMem (Or.inr (Or.inr hkind))⟩
  unfold applyPosture
  split
  · exact h
  · split
    · exact hrebuild _ _ rfl
    · split
      · exact hrebuild _ _ rfl
      · exact h

/-- Overflow, dirt, a failure or a cut drain makes for trouble. -/
theorem tally_kind {t : Tally} (atLogical : Bool)
    (h : t.overflow = true ∨ t.dirty = true ∨ t.failed.isSome = true ∨ t.truncated = true) :
    TroubleKind (t.kind atLogical).1 := by
  unfold Tally.kind
  split
  · exact Or.inr (Or.inr rfl)
  · split
    · exact Or.inl rfl
    · next hoverflow =>
      split
      · exact Or.inr (Or.inl rfl)
      · next hdirty =>
        cases hfailed : t.failed with
        | some reason =>
          dsimp only
          split
          · exact Or.inr (Or.inr rfl)
          · exact Or.inr (Or.inl rfl)
        | none =>
          have htruncated : t.truncated = true := by
            rcases h with h | h | h | h
            · exact absurd h hoverflow
            · exact absurd h hdirty
            · simp [hfailed] at h
            · exact h
          dsimp only
          rw [htruncated, Bool.or_true, if_pos rfl, if_pos rfl]
          split <;> exact Or.inl rfl

/-- **A stained visit shows in the tally.** -/
theorem tally_stained
    (hstained : Stained env (set.registrations.map Registration.registrationId) owner visits)
    (hrequired : ∀ registration ∈ set.registrations,
      registration.registrationId = env.registrationId owner → registration.required = true) :
    (tally set request visits).overflow = true ∨ (tally set request visits).dirty = true ∨
      (tally set request visits).failed.isSome = true ∨
      (tally set request visits).truncated = true := by
  obtain ⟨idx, visit, hvisit, hstained, hid⟩ := hstained
  rw [List.getElem?_map, Option.map_eq_some_iff] at hid
  obtain ⟨registration, hregistration, hlabel⟩ := hid
  have hmine := hrequired registration (List.mem_of_getElem? hregistration) hlabel
  have hmem : (registration, some visit) ∈ visited set request visits :=
    mem_visited.mpr ⟨idx, hregistration, hvisit⟩
  rw [tally_overflow, tally_dirty, tally_failed, tally_truncated]
  cases visit with
  | overflow => exact Or.inl (List.any_eq_true.mpr ⟨_, hmem, rfl⟩)
  | failed reason =>
    exact Or.inr (Or.inr (Or.inl (List.any_eq_true.mpr ⟨_, hmem, rfl⟩)))
  | saturated found =>
    exact Or.inr (Or.inr (Or.inr (List.any_eq_true.mpr ⟨_, hmem, rfl⟩)))
  | outage reason =>
    exact Or.inr (Or.inl (List.any_eq_true.mpr ⟨_, hmem, by simp [hmine, ArmVisit.isDirty]⟩))
  | cursorUncertain reason =>
    exact Or.inr (Or.inl (List.any_eq_true.mpr ⟨_, hmem, by simp [hmine, ArmVisit.isDirty]⟩))
  | degraded reason =>
    exact Or.inr (Or.inl (List.any_eq_true.mpr ⟨_, hmem, by simp [hmine, ArmVisit.isDirty]⟩))
  | events found => cases hstained
  | idle => cases hstained
  | deferred => cases hstained

/-- Filling in missing visits keeps the stained ones. -/
theorem Stained.deadlineVisits {ids : List IdToken} (h : Stained env ids owner visits) :
    Stained env ids owner (PollCycle.deadlineVisits set request visits) := by
  obtain ⟨idx, visit, hvisit, hstained, hid⟩ := h
  refine ⟨idx, visit, ?_, hstained, hid⟩
  rw [deadlineVisits_lookup, hvisit]
  rfl

/-- **A cycle with a stained required arm gives no all-clear**, however it ends. -/
theorem decision_reported {decision : Decision}
    (hstained : Stained env (set.registrations.map Registration.registrationId) owner visits)
    (hrequired : ∀ registration ∈ set.registrations,
      registration.registrationId = env.registrationId owner → registration.required = true)
    (h : decision.outcome set request visits = .ok outcome) : Reported outcome := by
  have hassemble : ∀ {now starts visits},
      Stained env (set.registrations.map Registration.registrationId) owner visits →
      assemble set request now starts visits = .ok outcome → Reported outcome := by
    intro now starts visits hstained h
    unfold assemble decideKind at h
    cases hbuild : build set request now starts visits
        ((tally set request visits).kind (decide (now ≥ request.logicalDeadline))).1
        ((tally set request visits).kind (decide (now ≥ request.logicalDeadline))).2 with
    | error err =>
      simp only [hbuild] at h
      cases h
    | ok built =>
      simp only [hbuild] at h
      obtain rfl := Except.ok.inj h
      exact applyPosture_reported
        (build_reported (tally_kind _ (tally_stained hstained hrequired)) hbuild)
  have hforced : ∀ {now starts visits reason},
      finish set request now starts visits (some reason) = .ok outcome → Reported outcome := by
    intro now starts visits reason h
    unfold finish at h
    dsimp only at h
    cases hbuild : build set request now starts visits
        (if reason == "consumer_cancelled" then .cancelled else .failed) (some reason) with
    | error err =>
      rw [hbuild] at h
      cases h
    | ok built =>
      rw [hbuild] at h
      obtain rfl := Except.ok.inj h
      refine applyPosture_reported (build_reported (Or.inr (Or.inr ?_)) hbuild)
      split <;> rfl
  -- a forced end is reported whatever was seen; any other end assembles the stained visits
  cases decision with
  | cancelled now starts => exact hforced h
  | complete now starts => exact hassemble hstained h
  | deadline now starts =>
    unfold Decision.outcome decideAtDeadline at h
    dsimp only at h
    split at h
    · exact hforced h
    · exact hassemble hstained.deadlineVisits h
  | fault err => cases h

/-- **A fault signal that is kept is reported**: in a run that returns an outcome, if a bind of a
required registration yielded a fault signal more often than the signal was handed back to it, then
coverage is incomplete and the kind is no clean one. -/
theorem kept_signal_reported [DecidableEq β] (labelled : Labelled env) (fuel : Nat)
    {signal : Observation} (hfault : signal.IsFault)
    (hrequired : ∀ registration ∈ set.registrations,
      registration.registrationId = env.registrationId owner → registration.required = true)
    {w w' : World σ β} (hlog : w.log = [])
    (hrun : (runPollCycle env set request fuel).run w = some (.ok outcome, w'))
    (hyields : w'.log.countP (HandsBack owner signal) < w'.log.countP (Yields owner signal)) :
    outcome.coverageComplete = false ∧
      outcome.outcomeKind ∉ [OutcomeKind.events, .noChange, .logicalDeadman] := by
  have hspec : ETriple (fun w => w.log = []) (runPollCycle env set request fuel) _ Failed :=
    runPollCycle_owes owner signal hfault labelled fuel
  obtain ⟨cycle, decision, houtcome, howes⟩ := hspec w hlog _ w' hrun
  rcases howes with hstained | hle
  · exact decision_reported hstained hrequired houtcome
  · omega

end PollCycle

end Waitprims
