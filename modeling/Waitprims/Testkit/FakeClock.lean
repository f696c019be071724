import Mathlib
import Waitprims.Testkit.Case

/-! # The logical clock of a script

A scripted wait runs on a clock that moves only when it is told to. A sleep parks a sleeper on the
clock and yields once; on an automatic clock its second poll moves the clock to its deadline, if no
parked sleeper is due before. Moving the clock wakes every sleeper that is due: it takes the sender
of its channel off the list, and the sleep finds its channel resolved at its next poll.

* **`FakeClock`** — the clock; **`Sleep`** — the future of one sleep.
* **`Op`**, **`run`** — sleeps that are created, polled and dropped in any order.
* **`Sound`** — the invariant; **`clock_sound`** — what it says of every run. -/

namespace Waitprims

namespace Testkit

/-! ## The clock -/

/-- A wait parked on the clock. Its sender is on the list until the sleep is woken or dropped. -/
structure Sleeper where
  id : Nat
  deadline : Timestamp
  deriving DecidableEq, Repr

/-- Logical clock for scripted waits. -/
structure FakeClock where
  now : Timestamp
  sleepers : List Sleeper
  nextId : Nat
  /-- Advance to the earliest sleeper. -/
  auto : Bool
  deriving DecidableEq, Repr

/-- `Iterator::min` of some deadlines: the first of the least. -/
def earliestOf : List Timestamp → Option Timestamp
  | [] => none
  | t :: rest => some (rest.foldl (fun best t => if t < best then t else best) t)

namespace FakeClock

/-- A new clock. -/
def new (now : Timestamp) (auto : Bool) : FakeClock := ⟨now, [], 1, auto⟩

/-- Wake the sleepers that are due. -/
def wakeReady (clock : FakeClock) : FakeClock :=
  { clock with sleepers := clock.sleepers.filter fun sleeper => !(sleeper.deadline ≤ clock.now) }

/-- Advance to `deadline` if it is later than now, then wake due sleepers. -/
def advanceTo (clock : FakeClock) (deadline : Timestamp) : FakeClock :=
  wakeReady (if clock.now < deadline then { clock with now := deadline } else clock)

/-- Advance to a deadline if no sleeper has an earlier one. -/
def autoAdvanceIfEarliest (clock : FakeClock) (mine : Timestamp) : FakeClock :=
  match earliestOf (clock.sleepers.map Sleeper.deadline) with
  | some earliest =>
    if earliest.instant = mine.instant then clock.advanceTo mine else clock
  | none => clock

/-- Park a new sleeper. -/
def register (clock : FakeClock) (deadline : Timestamp) : FakeClock :=
  { clock with
    sleepers := clock.sleepers ++ [⟨clock.nextId, deadline⟩]
    nextId := clock.nextId + 1 }

/-- `SleeperGuard::drop`. -/
def remove (clock : FakeClock) (id : Nat) : FakeClock :=
  { clock with sleepers := clock.sleepers.filter fun sleeper => !(sleeper.id = id) }

end FakeClock

/-! ## One sleep -/

/-- The future of `sleep_to`. -/
inductive Sleep
  /-- Not polled yet. -/
  | fresh (deadline : Timestamp)
  /-- Parked, and yielded once. -/
  | yielded (id : Nat) (deadline : Timestamp)
  /-- Waits for its channel. -/
  | parked (id : Nat) (deadline : Timestamp)
  /-- Returned. -/
  | done
  /-- Dropped before it returned. -/
  | dropped
  deriving DecidableEq, Repr

namespace Sleep

/-- Wait for the channel: it is resolved once its sender is off the list. -/
def awaitWake (id : Nat) (deadline : Timestamp) (clock : FakeClock) : Sleep × FakeClock :=
  if id ∈ clock.sleepers.map Sleeper.id then (.parked id deadline, clock)
  else (.done, clock.remove id)

/-- One poll. -/
def poll (sleep : Sleep) (clock : FakeClock) : Sleep × FakeClock :=
  match sleep with
  | .fresh deadline =>
    if deadline ≤ clock.now then (.done, clock)
    else (.yielded clock.nextId deadline, clock.register deadline)
  | .yielded id deadline =>
    awaitWake id deadline (if clock.auto then clock.autoAdvanceIfEarliest deadline else clock)
  | .parked id deadline => awaitWake id deadline clock
  | .done => (.done, clock)
  | .dropped => (.dropped, clock)

/-- Drop the future: the guard takes its sleeper off the list. -/
def drop (sleep : Sleep) (clock : FakeClock) : FakeClock :=
  match sleep with
  | .yielded id _ | .parked id _ => clock.remove id
  | _ => clock

/-- The sleeper of a sleep that is under way. -/
def sleeper? : Sleep → Option Sleeper
  | .yielded id deadline | .parked id deadline => some ⟨id, deadline⟩
  | _ => none

end Sleep

/-! ## Runs -/

/-- What happens to the clock and its sleeps. -/
inductive Op
  /-- `sleep_to` is called. -/
  | create (deadline : Timestamp)
  /-- A sleep is polled. -/
  | poll (k : Nat)
  /-- A sleep is dropped. -/
  | drop (k : Nat)
  /-- Someone else advances the clock. -/
  | advance (deadline : Timestamp)
  deriving DecidableEq, Repr

/-- A clock, its sleeps in the order of their creation, and the deadlines these were created for. -/
structure Sleeps where
  clock : FakeClock
  sleeps : List Sleep
  deadlines : List Timestamp
  deriving DecidableEq, Repr

/-- One operation; a sleep that returned or was dropped is not polled again. -/
def step (op : Op) (s : Sleeps) : Option Sleeps :=
  match op with
  | .create deadline =>
    some { s with
      sleeps := s.sleeps ++ [.fresh deadline]
      deadlines := s.deadlines ++ [deadline] }
  | .poll k =>
    match s.sleeps[k]? with
    | none | some .done | some .dropped => none
    | some sleep =>
      let polled := sleep.poll s.clock
      some { s with clock := polled.2, sleeps := s.sleeps.set k polled.1 }
  | .drop k =>
    match s.sleeps[k]? with
    | none | some .done | some .dropped => none
    | some sleep => some { s with clock := sleep.drop s.clock, sleeps := s.sleeps.set k .dropped }
  | .advance deadline => some { s with clock := s.clock.advanceTo deadline }

/-- A run of operations, oldest first. -/
def run : List Op → Sleeps → Option Sleeps
  | [], s => some s
  | op :: ops, s => (step op s).bind (run ops)

/-- A new clock without sleeps. -/
def startSleeps (now : Timestamp) (auto : Bool) : Sleeps := ⟨FakeClock.new now auto, [], []⟩

/-! ## What the clock's operations do -/

namespace FakeClock

variable {clock clock' : FakeClock} {deadline : Timestamp} {sleeper : Sleeper}

/-- **The clock moved on**: time did not go back, and the sleepers that are due were woken. -/
structure MovedOn (clock clock' : FakeClock) : Prop where
  now_le : clock.now ≤ clock'.now
  sleepers : ∀ sleeper, sleeper ∈ clock'.sleepers ↔
    sleeper ∈ clock.sleepers ∧ clock'.now < sleeper.deadline
  nextId : clock'.nextId = clock.nextId
  auto : clock'.auto = clock.auto

/-- Nothing to wake. -/
theorem MovedOn.refl (hpending : ∀ sleeper ∈ clock.sleepers, clock.now < sleeper.deadline) :
    MovedOn clock clock where
  now_le := Timestamp.le_def.mpr le_rfl
  sleepers sleeper := ⟨fun h => ⟨h, hpending sleeper h⟩, And.left⟩
  nextId := rfl
  auto := rfl

/-- Where the clock is advanced to. -/
theorem advanceTo_now (clock : FakeClock) (deadline : Timestamp) :
    (clock.advanceTo deadline).now = if clock.now < deadline then deadline else clock.now := by
  unfold advanceTo wakeReady
  split <;> rfl

/-- An advance moves the clock on. -/
theorem advanceTo_movedOn (clock : FakeClock) (deadline : Timestamp) :
    MovedOn clock (clock.advanceTo deadline) := by
  unfold advanceTo
  split
  · next hlt =>
    exact {
      now_le := Int.le_of_lt (Timestamp.lt_def.mp hlt)
      sleepers := fun sleeper => by simp [wakeReady]
      nextId := rfl
      auto := rfl }
  · exact {
      now_le := Timestamp.le_def.mpr le_rfl
      sleepers := fun sleeper => by simp [wakeReady]
      nextId := rfl
      auto := rfl }

/-- The least of some deadlines is among them, and none is before it. -/
theorem earliestOf_spec {deadlines : List Timestamp} {earliest : Timestamp}
    (h : earliestOf deadlines = some earliest) :
    earliest ∈ deadlines ∧ ∀ t ∈ deadlines, earliest ≤ t := by
  cases deadlines with
  | nil => cases h
  | cons t rest =>
    obtain rfl := Option.some.inj h
    clear h
    induction rest generalizing t with
    | nil => exact ⟨List.mem_cons_self, fun u hu => by
        rw [List.mem_singleton.mp hu]
        exact Timestamp.le_def.mpr le_rfl⟩
    | cons u rest ih =>
      rw [List.foldl_cons]
      split
      · next hlt =>
        obtain ⟨hmem, hle⟩ := ih u
        refine ⟨List.mem_cons_of_mem _ hmem, fun v hv => ?_⟩
        rcases List.mem_cons.mp hv with rfl | hv
        · have hbest := Timestamp.le_def.mp (hle u List.mem_cons_self)
          exact Timestamp.le_def.mpr (hbest.trans (Int.le_of_lt (Timestamp.lt_def.mp hlt)))
        · exact hle v hv
      · next hge =>
        obtain ⟨hmem, hle⟩ := ih t
        refine ⟨?_, fun v hv => ?_⟩
        · rcases List.mem_cons.mp hmem with heq | hmem
          · rw [heq]
            exact List.mem_cons_self
          · exact List.mem_cons_of_mem _ (List.mem_cons_of_mem _ hmem)
        · rcases List.mem_cons.mp hv with rfl | hv
          · exact hle v List.mem_cons_self
          rcases List.mem_cons.mp hv with rfl | hv
          · have hbest := Timestamp.le_def.mp (hle t List.mem_cons_self)
            exact Timestamp.le_def.mpr (hbest.trans (Timestamp.le_def.mp (Timestamp.not_lt.mp hge)))
          · exact hle v (List.mem_cons_of_mem _ hv)

/-- There is a least deadline if there is one at all. -/
theorem earliestOf_isSome {deadlines : List Timestamp} (h : deadlines ≠ []) :
    ∃ earliest, earliestOf deadlines = some earliest := by
  cases deadlines with
  | nil => exact absurd rfl h
  | cons t rest => exact ⟨_, rfl⟩

/-- **An automatic advance**: nothing happens, or the clock goes to a deadline that no parked
sleeper has before it. -/
theorem autoAdvance_cases (clock : FakeClock) (mine : Timestamp) :
    clock.autoAdvanceIfEarliest mine = clock ∨
      clock.autoAdvanceIfEarliest mine = clock.advanceTo mine ∧
        ∀ sleeper ∈ clock.sleepers, mine ≤ sleeper.deadline := by
  unfold autoAdvanceIfEarliest
  cases hearliest : earliestOf (clock.sleepers.map Sleeper.deadline) with
  | none => exact .inl rfl
  | some earliest =>
    dsimp only
    split
    · next heq =>
      refine .inr ⟨rfl, fun sleeper hsleeper => ?_⟩
      have hle := (earliestOf_spec hearliest).2 _ (List.mem_map_of_mem hsleeper)
      exact Timestamp.le_def.mpr (heq ▸ Timestamp.le_def.mp hle)
    · exact .inl rfl

/-- The sleeper with the least deadline has the clock advanced to it. -/
theorem autoAdvance_earliest (hmem : sleeper ∈ clock.sleepers)
    (hleast : ∀ other ∈ clock.sleepers, sleeper.deadline ≤ other.deadline) :
    clock.autoAdvanceIfEarliest sleeper.deadline = clock.advanceTo sleeper.deadline := by
  have hdeadline : sleeper.deadline ∈ clock.sleepers.map Sleeper.deadline :=
    List.mem_map_of_mem hmem
  obtain ⟨earliest, hearliest⟩ := earliestOf_isSome (List.ne_nil_of_mem hdeadline)
  obtain ⟨hin, hle⟩ := earliestOf_spec hearliest
  obtain ⟨other, hother, rfl⟩ := List.mem_map.mp hin
  have hsame : other.deadline.instant = sleeper.deadline.instant :=
    Int.le_antisymm (hle _ hdeadline) (hleast other hother)
  unfold autoAdvanceIfEarliest
  rw [hearliest]
  exact if_pos hsame

/-- An automatic advance moves the clock on. -/
theorem autoAdvance_movedOn (mine : Timestamp)
    (hpending : ∀ sleeper ∈ clock.sleepers, clock.now < sleeper.deadline) :
    MovedOn clock (clock.autoAdvanceIfEarliest mine) := by
  rcases autoAdvance_cases clock mine with h | ⟨h, -⟩
  · rw [h]
    exact .refl hpending
  · rw [h]
    exact advanceTo_movedOn clock mine

@[simp] theorem mem_register :
    sleeper ∈ (clock.register deadline).sleepers ↔
      sleeper ∈ clock.sleepers ∨ sleeper = ⟨clock.nextId, deadline⟩ := by
  simp [register]

@[simp] theorem mem_remove {id : Nat} :
    sleeper ∈ (clock.remove id).sleepers ↔ sleeper ∈ clock.sleepers ∧ sleeper.id ≠ id := by
  simp [remove]

end FakeClock

/-! ## The invariant -/

/-- A sleep that was created for a deadline, at some time of the clock. -/
def Sleep.At (now deadline : Timestamp) : Sleep → Prop
  | .fresh d | .yielded _ d | .parked _ d => d = deadline
  | .done => deadline ≤ now
  | .dropped => True

/-- **What holds between two operations**: exactly the sleeps that are under way and not due yet are
parked, each under an id of its own, and a sleep that returned was due. -/
structure Sound (origin : Timestamp) (s : Sleeps) : Prop where
  forward : origin ≤ s.clock.now
  pending : ∀ sleeper ∈ s.clock.sleepers, s.clock.now < sleeper.deadline
  owned : ∀ sleeper ∈ s.clock.sleepers, ∃ (k : Nat) (sleep : Sleep),
    s.sleeps[k]? = some sleep ∧ sleep.sleeper? = some sleeper
  known : ∀ (k : Nat) (sleep : Sleep) (sleeper : Sleeper), s.sleeps[k]? = some sleep →
    sleep.sleeper? = some sleeper → sleeper.id < s.clock.nextId ∧
      (s.clock.now < sleeper.deadline → sleeper ∈ s.clock.sleepers)
  apart : ∀ (k k' : Nat) (sleep sleep' : Sleep) (sleeper sleeper' : Sleeper),
    s.sleeps[k]? = some sleep → s.sleeps[k']? = some sleep' → sleep.sleeper? = some sleeper →
      sleep'.sleeper? = some sleeper' → sleeper.id = sleeper'.id → k = k'
  length : s.deadlines.length = s.sleeps.length
  deadlines : ∀ (k : Nat) (sleep : Sleep) (deadline : Timestamp), s.sleeps[k]? = some sleep →
    s.deadlines[k]? = some deadline → sleep.At s.clock.now deadline

section invariant

variable {origin now : Timestamp} {s s' : Sleeps} {clock : FakeClock} {k : Nat} {sleep : Sleep}
  {sleeper : Sleeper}

theorem startSleeps_sound (now : Timestamp) (auto : Bool) : Sound now (startSleeps now auto) where
  forward := Timestamp.le_def.mpr le_rfl
  pending := fun sleeper h => absurd h List.not_mem_nil
  owned := fun sleeper h => absurd h List.not_mem_nil
  known := fun k sleep sleeper h => by simp [startSleeps] at h
  apart := fun k k' sleep sleep' sleeper sleeper' h => by simp [startSleeps] at h
  length := rfl
  deadlines := fun k sleep deadline h => by simp [startSleeps] at h

/-- A sleep keeps its deadline while time moves on. -/
theorem Sleep.At.mono {deadline now' : Timestamp} (h : sleep.At now deadline) (hle : now ≤ now') :
    sleep.At now' deadline := by
  cases sleep with
  | done => exact Timestamp.le_def.mpr ((Timestamp.le_def.mp h).trans (Timestamp.le_def.mp hle))
  | _ => exact h

/-- The deadline of the sleeper of a sleep. -/
theorem Sleep.At.of_sleeper {deadline : Timestamp} (h : sleep.At now deadline)
    (hsleeper : sleep.sleeper? = some sleeper) : sleeper.deadline = deadline := by
  cases sleep with
  | yielded id d | parked id d =>
    obtain rfl := Option.some.inj hsleeper
    exact h
  | _ => cases hsleeper

/-- **The clock may move on.** -/
theorem Sound.moveOn (h : Sound origin s) (hmoved : FakeClock.MovedOn s.clock clock) :
    Sound origin { s with clock } where
  forward := Timestamp.le_def.mpr
    ((Timestamp.le_def.mp h.forward).trans (Timestamp.le_def.mp hmoved.now_le))
  pending sleeper hmem := ((hmoved.sleepers sleeper).mp hmem).2
  owned sleeper hmem := h.owned sleeper ((hmoved.sleepers sleeper).mp hmem).1
  known k sleep sleeper hk hsleeper := by
    obtain ⟨hid, hmem⟩ := h.known k sleep sleeper hk hsleeper
    refine ⟨hmoved.nextId.symm ▸ hid, fun hlt => (hmoved.sleepers sleeper).mpr ⟨hmem ?_, hlt⟩⟩
    exact Timestamp.lt_def.mpr
      ((Timestamp.le_def.mp hmoved.now_le).trans_lt (Timestamp.lt_def.mp hlt))
  apart := h.apart
  length := h.length
  deadlines k sleep deadline hk hdeadline := (h.deadlines k sleep deadline hk hdeadline).mono
    hmoved.now_le

/-- **A sleep that is under way is parked exactly until it is due.** -/
theorem Sound.parked_iff (h : Sound origin s) (hk : s.sleeps[k]? = some sleep)
    (hsleeper : sleep.sleeper? = some sleeper) :
    sleeper.id ∈ s.clock.sleepers.map Sleeper.id ↔ s.clock.now < sleeper.deadline := by
  constructor
  · intro hmem
    obtain ⟨other, hother, hid⟩ := List.mem_map.mp hmem
    obtain ⟨k', sleep', hk', hsleeper'⟩ := h.owned other hother
    -- ids are apart: the sleeper on the list is this sleep's own
    obtain rfl := h.apart k' k sleep' sleep other sleeper hk' hk hsleeper' hsleeper hid
    obtain rfl := Option.some.inj (hk'.symm.trans hk)
    obtain rfl := Option.some.inj (hsleeper'.symm.trans hsleeper)
    exact h.pending other hother
  · intro hlt
    exact List.mem_map_of_mem ((h.known k sleep sleeper hk hsleeper).2 hlt)

/-- What stands in a list after one place was set. -/
theorem getElem?_set_cases {α : Type} {xs : List α} {k j : Nat} {a b : α}
    (h : (xs.set k a)[j]? = some b) : (j = k ∧ b = a) ∨ (j ≠ k ∧ xs[j]? = some b) := by
  by_cases hj : k = j
  · subst hj
    rw [List.getElem?_set_self'] at h
    cases hx : xs[k]? with
    | none =>
      rw [hx] at h
      cases h
    | some x =>
      rw [hx] at h
      exact .inl ⟨rfl, (Option.some.inj h).symm⟩
  · rw [List.getElem?_set_ne hj] at h
    exact .inr ⟨fun heq => hj heq.symm, h⟩

/-- A sleep may go on under the same id. -/
theorem Sound.goOn (h : Sound origin s) (hk : s.sleeps[k]? = some sleep) {sleep' : Sleep}
    (hsame : sleep'.sleeper? = sleep.sleeper?)
    (hat : ∀ now deadline, sleep.At now deadline → sleep'.At now deadline) :
    Sound origin { s with sleeps := s.sleeps.set k sleep' } where
  forward := h.forward
  pending := h.pending
  owned sleeper hmem := by
    obtain ⟨j, other, hj, hother⟩ := h.owned sleeper hmem
    by_cases hjk : k = j
    · subst hjk
      obtain rfl := Option.some.inj (hj.symm.trans hk)
      refine ⟨k, sleep', ?_, hsame.trans hother⟩
      rw [List.getElem?_set_self', hk]
      rfl
    · exact ⟨j, other, (List.getElem?_set_ne hjk).trans hj, hother⟩
  known j other sleeper hj hother := by
    rcases getElem?_set_cases hj with ⟨rfl, rfl⟩ | ⟨-, hj⟩
    · exact h.known j sleep sleeper hk (hsame.symm.trans hother)
    · exact h.known j other sleeper hj hother
  apart j j' a b x y hj hj' hx hy hid := by
    rcases getElem?_set_cases hj with ⟨rfl, rfl⟩ | ⟨-, hold⟩ <;>
      rcases getElem?_set_cases hj' with ⟨rfl, rfl⟩ | ⟨-, hold'⟩
    · rfl
    · exact h.apart _ _ _ _ x y hk hold' (hsame.symm.trans hx) hy hid
    · exact h.apart _ _ _ _ x y hold hk hx (hsame.symm.trans hy) hid
    · exact h.apart _ _ _ _ x y hold hold' hx hy hid
  length := h.length.trans (List.length_set ..).symm
  deadlines j other deadline hj hdeadline := by
    rcases getElem?_set_cases hj with ⟨rfl, rfl⟩ | ⟨-, hj⟩
    · exact hat _ _ (h.deadlines j sleep deadline hk hdeadline)
    · exact h.deadlines j other deadline hj hdeadline

/-- A sleep may end: its guard takes its sleeper off the list. -/
theorem Sound.finish (h : Sound origin s) (hk : s.sleeps[k]? = some sleep) {sleep' : Sleep}
    (hover : sleep'.sleeper? = none)
    (hremoved : ∀ other, other ∈ clock.sleepers ↔
      other ∈ s.clock.sleepers ∧ sleep.sleeper?.map Sleeper.id ≠ some other.id)
    (hnow : clock.now = s.clock.now) (hnext : clock.nextId = s.clock.nextId)
    (hat : ∀ deadline, s.deadlines[k]? = some deadline → sleep'.At s.clock.now deadline) :
    Sound origin { s with clock, sleeps := s.sleeps.set k sleep' } where
  forward := hnow.symm ▸ h.forward
  pending sleeper hmem := hnow.symm ▸ h.pending sleeper ((hremoved sleeper).mp hmem).1
  owned sleeper hmem := by
    obtain ⟨hmem, hne⟩ := (hremoved sleeper).mp hmem
    obtain ⟨j, other, hj, hother⟩ := h.owned sleeper hmem
    have hjk : k ≠ j := by
      rintro rfl
      obtain rfl := Option.some.inj (hj.symm.trans hk)
      exact hne (by rw [hother]; rfl)
    exact ⟨j, other, (List.getElem?_set_ne hjk).trans hj, hother⟩
  known j other sleeper hj hother := by
    rcases getElem?_set_cases hj with ⟨rfl, rfl⟩ | ⟨hjk, hj⟩
    · cases hover.symm.trans hother
    · obtain ⟨hid, hmem⟩ := h.known j other sleeper hj hother
      refine ⟨hnext.symm ▸ hid, fun hlt => (hremoved sleeper).mpr ⟨hmem (hnow ▸ hlt), ?_⟩⟩
      intro heq
      obtain ⟨own, hown, hid⟩ := Option.map_eq_some_iff.mp heq
      exact hjk (h.apart j k other sleep sleeper own hj hk hother hown hid.symm)
  apart j j' a b x y hj hj' hx hy hid := by
    rcases getElem?_set_cases hj with ⟨rfl, rfl⟩ | ⟨-, hj⟩
    · cases hover.symm.trans hx
    rcases getElem?_set_cases hj' with ⟨rfl, rfl⟩ | ⟨-, hj'⟩
    · cases hover.symm.trans hy
    · exact h.apart _ _ _ _ x y hj hj' hx hy hid
  length := h.length.trans (List.length_set ..).symm
  deadlines j other deadline hj hdeadline := by
    rw [hnow]
    rcases getElem?_set_cases hj with ⟨rfl, rfl⟩ | ⟨-, hj⟩
    · exact hat deadline hdeadline
    · exact h.deadlines j other deadline hj hdeadline

/-- A sleep may be parked. -/
theorem Sound.park (h : Sound origin s) {deadline : Timestamp}
    (hk : s.sleeps[k]? = some (.fresh deadline)) (hlt : s.clock.now < deadline) :
    Sound origin { s with
      clock := s.clock.register deadline
      sleeps := s.sleeps.set k (.yielded s.clock.nextId deadline) } where
  forward := h.forward
  pending sleeper hmem := by
    rcases FakeClock.mem_register.mp hmem with hmem | rfl
    · exact h.pending sleeper hmem
    · exact hlt
  owned sleeper hmem := by
    rcases FakeClock.mem_register.mp hmem with hmem | rfl
    · obtain ⟨j, other, hj, hother⟩ := h.owned sleeper hmem
      have hjk : k ≠ j := by
        rintro rfl
        obtain rfl := Option.some.inj (hj.symm.trans hk)
        cases hother
      exact ⟨j, other, (List.getElem?_set_ne hjk).trans hj, hother⟩
    · refine ⟨k, .yielded s.clock.nextId deadline, ?_, rfl⟩
      rw [List.getElem?_set_self', hk]
      rfl
  known j other sleeper hj hother := by
    rcases getElem?_set_cases hj with ⟨rfl, rfl⟩ | ⟨-, hj⟩
    · obtain rfl := Option.some.inj hother
      exact ⟨Nat.lt_succ_self _, fun _ => FakeClock.mem_register.mpr (.inr rfl)⟩
    · obtain ⟨hid, hmem⟩ := h.known j other sleeper hj hother
      exact ⟨Nat.lt_succ_of_lt hid, fun hlt => FakeClock.mem_register.mpr (.inl (hmem hlt))⟩
  apart j j' a b x y hj hj' hx hy hid := by
    -- the new id is above every other
    rcases getElem?_set_cases hj with ⟨rfl, rfl⟩ | ⟨-, hold⟩ <;>
      rcases getElem?_set_cases hj' with ⟨rfl, rfl⟩ | ⟨-, hold'⟩
    · rfl
    · obtain rfl := Option.some.inj hx
      exact absurd (h.known j' b y hold' hy).1 (by rw [← hid]; exact Nat.lt_irrefl _)
    · obtain rfl := Option.some.inj hy
      exact absurd (h.known j a x hold hx).1 (by rw [hid]; exact Nat.lt_irrefl _)
    · exact h.apart _ _ _ _ x y hold hold' hx hy hid
  length := h.length.trans (List.length_set ..).symm
  deadlines j other due hj hdeadline := by
    rcases getElem?_set_cases hj with ⟨rfl, rfl⟩ | ⟨-, hj⟩
    · exact h.deadlines j (.fresh deadline) due hk hdeadline
    · exact h.deadlines j other due hj hdeadline

/-- A sleep may be created. -/
theorem Sound.create (h : Sound origin s) (deadline : Timestamp) :
    Sound origin { s with
      sleeps := s.sleeps ++ [.fresh deadline]
      deadlines := s.deadlines ++ [deadline] } := by
  have hcases : ∀ (j : Nat) (other : Sleep), (s.sleeps ++ [.fresh deadline])[j]? = some other →
      s.sleeps[j]? = some other ∨ j = s.sleeps.length ∧ other = .fresh deadline := by
    intro j other hj
    rcases Nat.lt_trichotomy j s.sleeps.length with hlt | rfl | hgt
    · exact .inl ((List.getElem?_append_left hlt).symm.trans hj)
    · rw [List.getElem?_concat_length] at hj
      exact .inr ⟨rfl, (Option.some.inj hj).symm⟩
    · rw [List.getElem?_eq_none (by rw [List.length_append, List.length_singleton]; omega)] at hj
      cases hj
  have hold : ∀ (j : Nat) (other : Sleep), s.sleeps[j]? = some other →
      (s.sleeps ++ [.fresh deadline])[j]? = some other := fun j other hj =>
    (List.getElem?_append_left (List.getElem?_eq_some_iff.mp hj).1).trans hj
  refine {
    forward := h.forward
    pending := h.pending
    owned := fun sleeper hmem => ?_
    known := fun j other sleeper hj hother => ?_
    apart := fun j j' a b x y hj hj' hx hy hid => ?_
    length := by simp [h.length]
    deadlines := fun j other due hj hdeadline => ?_ }
  · obtain ⟨j, other, hj, hother⟩ := h.owned sleeper hmem
    exact ⟨j, other, hold j other hj, hother⟩
  · rcases hcases j other hj with hj | ⟨-, rfl⟩
    · exact h.known j other sleeper hj hother
    · cases hother
  · rcases hcases j a hj with hj | ⟨-, rfl⟩
    · rcases hcases j' b hj' with hj' | ⟨-, rfl⟩
      · exact h.apart _ _ _ _ x y hj hj' hx hy hid
      · cases hy
    · cases hx
  · rcases hcases j other hj with hj | ⟨rfl, rfl⟩
    · have hlt : j < s.deadlines.length := h.length ▸ (List.getElem?_eq_some_iff.mp hj).1
      exact h.deadlines j other due hj ((List.getElem?_append_left hlt).symm.trans hdeadline)
    · rw [← h.length, List.getElem?_concat_length] at hdeadline
      exact Option.some.inj hdeadline

end invariant

/-! ## The operations keep the invariant -/

section operations

variable {origin : Timestamp} {s s' : Sleeps} {k : Nat} {sleep : Sleep}

/-- **What a poll leaves**: the invariant, the deadlines, and an answer exactly if the sleep is due
by the time of the clock after it. -/
structure Polled (origin : Timestamp) (k : Nat) (s s' : Sleeps) : Prop where
  sound : Sound origin s'
  deadlines : s'.deadlines = s.deadlines
  answers : ∀ deadline, s.deadlines[k]? = some deadline →
    (s'.sleeps[k]? = some .done ↔ deadline ≤ s'.clock.now)

/-- Waiting for the channel. -/
theorem Sound.awaitWake (h : Sound origin s) (hk : s.sleeps[k]? = some sleep) {id : Nat}
    {deadline : Timestamp} (hsleeper : sleep.sleeper? = some ⟨id, deadline⟩) :
    Polled origin k s { s with
      clock := (Sleep.awaitWake id deadline s.clock).2
      sleeps := s.sleeps.set k (Sleep.awaitWake id deadline s.clock).1 } := by
  have hparked := h.parked_iff hk hsleeper
  have hplace : ∀ sleep' : Sleep, (s.sleeps.set k sleep')[k]? = some sleep' := fun sleep' => by
    rw [List.getElem?_set_self', hk]
    rfl
  have hdue : ∀ due, s.deadlines[k]? = some due → deadline = due := fun due hdeadline =>
    (h.deadlines k sleep due hk hdeadline).of_sleeper hsleeper
  unfold Sleep.awaitWake
  by_cases hid : id ∈ s.clock.sleepers.map Sleeper.id
  · -- the sender is on the list: the sleep stays parked, and is not due
    rw [if_pos hid]
    refine {
      sound := h.goOn hk hsleeper.symm fun now due hat => hat.of_sleeper hsleeper
      deadlines := rfl
      answers := fun due hdeadline => ?_ }
    obtain rfl := hdue due hdeadline
    refine iff_of_false (fun hdone => ?_) (Timestamp.not_le.mpr (hparked.mp hid))
    cases (hplace _).symm.trans hdone
  · -- the sender is gone: the sleep was woken, and is due
    rw [if_neg hid]
    have hle : deadline ≤ s.clock.now := Timestamp.not_lt.mp fun hlt => hid (hparked.mpr hlt)
    refine {
      sound := h.finish hk rfl (fun other => ?_) rfl rfl fun due hdeadline => ?_
      deadlines := rfl
      answers := fun due hdeadline => ?_ }
    · rw [FakeClock.mem_remove, hsleeper]
      simp [eq_comm]
    · rw [← hdue due hdeadline]
      exact hle
    · rw [← hdue due hdeadline]
      exact iff_of_true (hplace _) hle

/-- A poll, up to the answer of the channel. -/
theorem Sound.poll (h : Sound origin s) (hk : s.sleeps[k]? = some sleep) (hdone : sleep ≠ .done)
    (hdropped : sleep ≠ .dropped) :
    Polled origin k s { s with
      clock := (sleep.poll s.clock).2
      sleeps := s.sleeps.set k (sleep.poll s.clock).1 } := by
  have hplace : ∀ sleep' : Sleep, (s.sleeps.set k sleep')[k]? = some sleep' := fun sleep' => by
    rw [List.getElem?_set_self', hk]
    rfl
  cases sleep with
  | fresh deadline =>
    have hdue : ∀ due, s.deadlines[k]? = some due → deadline = due := fun due hdeadline =>
      h.deadlines k (.fresh deadline) due hk hdeadline
    unfold Sleep.poll
    by_cases hle : deadline ≤ s.clock.now
    · dsimp only
      rw [if_pos hle]
      refine {
        sound := h.finish hk rfl (fun other => by simp [Sleep.sleeper?]) rfl rfl
          fun due hdeadline => hdue due hdeadline ▸ hle
        deadlines := rfl
        answers := fun due hdeadline => iff_of_true (hplace _) (hdue due hdeadline ▸ hle) }
    · dsimp only
      rw [if_neg hle]
      refine {
        sound := h.park hk (Timestamp.not_le.mp hle)
        deadlines := rfl
        answers := fun due hdeadline => iff_of_false (fun hdone => ?_) (hdue due hdeadline ▸ hle) }
      cases (hplace _).symm.trans hdone
  | yielded id deadline =>
    -- the clock moves first, if it is automatic, and the channel is asked at the new time
    have hmoved : FakeClock.MovedOn s.clock
        (if s.clock.auto then s.clock.autoAdvanceIfEarliest deadline else s.clock) := by
      split
      · exact FakeClock.autoAdvance_movedOn deadline h.pending
      · exact .refl h.pending
    obtain ⟨hsound, hdeadlines, hanswers⟩ := (h.moveOn hmoved).awaitWake hk rfl
    exact ⟨hsound, hdeadlines, hanswers⟩
  | parked id deadline => exact h.awaitWake hk rfl
  | done => exact absurd rfl hdone
  | dropped => exact absurd rfl hdropped

/-- Dropping a sleep. -/
theorem Sound.drop (h : Sound origin s) (hk : s.sleeps[k]? = some sleep) :
    Sound origin { s with clock := sleep.drop s.clock, sleeps := s.sleeps.set k .dropped } := by
  cases sleep with
  | yielded id deadline | parked id deadline =>
    refine h.finish hk rfl (fun other => ?_) rfl rfl fun _ _ => trivial
    simp [Sleep.drop, Sleep.sleeper?, eq_comm]
  | _ =>
    refine h.finish hk rfl (fun other => ?_) rfl rfl fun _ _ => trivial
    simp [Sleep.drop, Sleep.sleeper?]

/-- **A poll that is part of a run.** -/
theorem step_poll (h : step (.poll k) s = some s') : ∃ sleep, s.sleeps[k]? = some sleep ∧
    sleep ≠ .done ∧ sleep ≠ .dropped ∧ s' = { s with
      clock := (sleep.poll s.clock).2
      sleeps := s.sleeps.set k (sleep.poll s.clock).1 } := by
  unfold step at h
  dsimp only at h
  split at h
  · cases h
  · cases h
  · cases h
  · next sleep hdone hdropped hk =>
    exact ⟨sleep, hk, fun heq => hdone heq, fun heq => hdropped heq, (Option.some.inj h).symm⟩

/-- **Every operation keeps the invariant.** -/
theorem Sound.step (h : Sound origin s) {op : Op} (hstep : Testkit.step op s = some s') :
    Sound origin s' := by
  cases op with
  | create deadline =>
    obtain rfl := Option.some.inj hstep
    exact h.create deadline
  | poll k =>
    obtain ⟨sleep, hk, hdone, hdropped, rfl⟩ := step_poll hstep
    exact (h.poll hk hdone hdropped).sound
  | drop k =>
    unfold Testkit.step at hstep
    dsimp only at hstep
    split at hstep
    · cases hstep
    · cases hstep
    · cases hstep
    · next sleep _ _ hk =>
      obtain rfl := Option.some.inj hstep
      exact h.drop hk
  | advance deadline =>
    obtain rfl := Option.some.inj hstep
    exact h.moveOn (FakeClock.advanceTo_movedOn s.clock deadline)

/-- No operation turns the clock back: the time before it is as good an origin. -/
theorem Sound.step_forward (h : Sound origin s) {op : Op} (hstep : Testkit.step op s = some s') :
    s.clock.now ≤ s'.clock.now := by
  have hhere : Sound s.clock.now s := { h with forward := Timestamp.le_def.mpr le_rfl }
  exact (hhere.step hstep).forward

/-- Every run keeps it. -/
theorem Sound.run (h : Sound origin s) {ops : List Op} (hrun : Testkit.run ops s = some s') :
    Sound origin s' := by
  induction ops generalizing s with
  | nil =>
    obtain rfl := Option.some.inj hrun
    exact h
  | cons op ops ih =>
    obtain ⟨s₁, hstep, hrest⟩ := Option.bind_eq_some_iff.mp hrun
    exact ih (h.step hstep) hrest

/-- Waiting for the channel does not move the clock. -/
theorem awaitWake_now (id : Nat) (deadline : Timestamp) (clock : FakeClock) :
    (Sleep.awaitWake id deadline clock).2.now = clock.now := by
  unfold Sleep.awaitWake
  split <;> rfl

/-- What moves the clock at a poll: an automatic advance that passes over no sleeper. -/
theorem poll_now (sleep : Sleep) (clock : FakeClock) : (sleep.poll clock).2.now = clock.now ∨
    ∃ id deadline, sleep = .yielded id deadline ∧ clock.auto = true ∧
      (sleep.poll clock).2.now = (clock.advanceTo deadline).now ∧
      ∀ sleeper ∈ clock.sleepers, deadline ≤ sleeper.deadline := by
  cases sleep with
  | fresh deadline =>
    refine .inl ?_
    unfold Sleep.poll
    dsimp only
    split <;> rfl
  | yielded id deadline =>
    unfold Sleep.poll
    dsimp only
    rw [awaitWake_now]
    cases hauto : clock.auto with
    | false => exact .inl rfl
    | true =>
      rcases FakeClock.autoAdvance_cases clock deadline with h | ⟨h, hle⟩
      · exact .inl (congrArg FakeClock.now h)
      · exact .inr ⟨id, deadline, rfl, rfl, congrArg FakeClock.now h, hle⟩
  | parked id deadline => exact .inl (awaitWake_now id deadline clock)
  | done => exact .inl rfl
  | dropped => exact .inl rfl

/-- The second poll of the earliest sleeper moves an automatic clock to its deadline. -/
theorem poll_earliest {clock : FakeClock} {id : Nat} {deadline : Timestamp}
    (hauto : clock.auto = true) (hmem : ⟨id, deadline⟩ ∈ clock.sleepers)
    (hleast : ∀ sleeper ∈ clock.sleepers, deadline ≤ sleeper.deadline) :
    ((Sleep.yielded id deadline).poll clock).2.now = (clock.advanceTo deadline).now := by
  unfold Sleep.poll
  dsimp only
  rw [awaitWake_now, if_pos hauto]
  exact congrArg FakeClock.now (FakeClock.autoAdvance_earliest hmem hleast)

end operations

/-- **The logical clock of a script**, for every run of sleeps that are created, polled and dropped
in any order. Time goes back at no operation. A sleep that returned was due, and a poll answers
exactly if the sleep is due: no wake-up is early and none is lost. The parked sleepers are the
sleeps under way that are not due. A poll moves time only on an automatic clock, to a deadline of a
sleeper, and passes over none; and on an automatic clock the second poll of a sleep that no sleeper
is due before is answered, at its deadline if that is still ahead. -/
theorem clock_sound {now : Timestamp} {auto : Bool} {ops : List Op} {s : Sleeps}
    (hrun : run ops (startSleeps now auto) = some s) :
    now ≤ s.clock.now ∧
    (∀ (op : Op) (s' : Sleeps), step op s = some s' → s.clock.now ≤ s'.clock.now) ∧
    (∀ (k : Nat) (deadline : Timestamp), s.deadlines[k]? = some deadline →
      s.sleeps[k]? = some .done → deadline ≤ s.clock.now) ∧
    (∀ sleeper, sleeper ∈ s.clock.sleepers ↔ s.clock.now < sleeper.deadline ∧
      ∃ (k : Nat) (sleep : Sleep), s.sleeps[k]? = some sleep ∧ sleep.sleeper? = some sleeper) ∧
    ∀ (k : Nat) (s' : Sleeps), step (.poll k) s = some s' →
      (∀ deadline, s.deadlines[k]? = some deadline →
        (s'.sleeps[k]? = some .done ↔ deadline ≤ s'.clock.now)) ∧
      (s'.clock.now = s.clock.now ∨ s.clock.auto = true ∧ s.clock.now < s'.clock.now ∧
        (∃ sleeper ∈ s.clock.sleepers, sleeper.deadline = s'.clock.now) ∧
        ∀ sleeper ∈ s.clock.sleepers, s'.clock.now ≤ sleeper.deadline) ∧
      ∀ id deadline, s.clock.auto = true → s.sleeps[k]? = some (.yielded id deadline) →
        (∀ sleeper ∈ s.clock.sleepers, deadline ≤ sleeper.deadline) →
        s'.sleeps[k]? = some .done ∧ (s.clock.now < deadline → s'.clock.now = deadline) := by
  have h := (startSleeps_sound now auto).run hrun
  refine ⟨h.forward, fun op s' hstep => h.step_forward hstep,
    fun k deadline hdeadline hk => h.deadlines k .done deadline hk hdeadline,
    fun sleeper => ⟨fun hmem => ⟨h.pending sleeper hmem, h.owned sleeper hmem⟩, ?_⟩,
    fun k s' hstep => ?_⟩
  · rintro ⟨hlt, k, sleep, hk, hsleeper⟩
    exact (h.known k sleep sleeper hk hsleeper).2 hlt
  · obtain ⟨sleep, hk, hdone, hdropped, hs'⟩ := step_poll hstep
    have hpolled := h.poll hk hdone hdropped
    rw [← hs'] at hpolled
    have hclock : s'.clock = (sleep.poll s.clock).2 := congrArg Sleeps.clock hs'
    refine ⟨hpolled.answers, ?_, fun id deadline hauto hyielded hleast => ?_⟩
    · rw [hclock]
      rcases poll_now sleep s.clock with hnow | ⟨id, deadline, rfl, hauto, hnow, hle⟩
      · exact .inl hnow
      rw [FakeClock.advanceTo_now] at hnow
      split at hnow
      · next hlt =>
        -- the sleeper of the polled sleep is the one whose deadline the clock goes to
        refine .inr ⟨hauto, hnow.symm ▸ hlt, ⟨⟨id, deadline⟩, ?_, hnow.symm⟩, hnow.symm ▸ hle⟩
        exact (h.known k _ _ hk rfl).2 hlt
      · exact .inl hnow
    · obtain rfl := Option.some.inj (hk.symm.trans hyielded)
      obtain ⟨due, hdue⟩ : ∃ due, s.deadlines[k]? = some due := by
        have hlt := (List.getElem?_eq_some_iff.mp hk).1
        rw [← h.length] at hlt
        exact ⟨_, List.getElem?_eq_getElem hlt⟩
      have hsame : deadline = due := h.deadlines k _ due hk hdue
      subst hsame
      have hle : deadline ≤ s'.clock.now ∧ (s.clock.now < deadline → s'.clock.now = deadline) := by
        by_cases hlt : s.clock.now < deadline
        · have hearliest := poll_earliest hauto ((h.known k _ _ hk rfl).2 hlt) hleast
          rw [hclock, hearliest, FakeClock.advanceTo_now, if_pos hlt]
          exact ⟨Timestamp.le_def.mpr le_rfl, fun _ => rfl⟩
        · -- the sleep was due already, and time does not go back
          refine ⟨?_, fun hlt' => absurd hlt' hlt⟩
          have hdue' := Timestamp.le_def.mp (Timestamp.not_lt.mp hlt)
          rcases poll_now (.yielded id deadline) s.clock with hnow | ⟨_, _, heq, -, hnow, -⟩
          · rw [hclock, hnow]
            exact Timestamp.le_def.mpr hdue'
          · obtain ⟨rfl, rfl⟩ := Sleep.yielded.inj heq
            rw [hclock, hnow, FakeClock.advanceTo_now, if_neg hlt]
            exact Timestamp.le_def.mpr hdue'
      exact ⟨(hpolled.answers deadline hdue).mpr hle.1, hle.2⟩

open Case in
/-- Two sleeps whose second polls come in the wrong order: the earlier one is answered, and the
later one stays parked, with nobody left to advance the clock to its deadline. -/
theorem clock_sound_left_behind : ∃ s : Sleeps,
    run [.create (ts "2026-08-15T16:00:10Z"), .create (ts "2026-08-15T16:00:05Z"),
        .poll 0, .poll 1, .poll 0, .poll 1] (startSleeps (ts "2026-08-15T16:00:00Z") true)
        = some s ∧
      s.sleeps = [.parked 1 (ts "2026-08-15T16:00:10Z"), .done] ∧
      ∃ sleeper ∈ s.clock.sleepers, s.clock.now < sleeper.deadline := by
  have hdone : (run [.create (ts "2026-08-15T16:00:10Z"), .create (ts "2026-08-15T16:00:05Z"),
      .poll 0, .poll 1, .poll 0, .poll 1] (startSleeps (ts "2026-08-15T16:00:00Z") true)).any
      (fun s => decide (s.sleeps = [.parked 1 (ts "2026-08-15T16:00:10Z"), .done] ∧
        s.clock.sleepers ≠ [])) = true := by
    decide +kernel
  obtain ⟨s, hrun, hs⟩ := exists_of_any hdone
  obtain ⟨hsleeps, hsome⟩ := of_decide_eq_true hs
  obtain ⟨sleeper, hmem⟩ := List.exists_mem_of_ne_nil _ hsome
  obtain ⟨-, -, -, hparked, -⟩ := clock_sound hrun
  exact ⟨s, hrun, hsleeps, sleeper, hmem, ((hparked sleeper).mp hmem).1⟩

end Testkit

end Waitprims
