import Mathlib
import Waitprims.Lib.Hoare
import Waitprims.Async.Race

/-! # What a race reports

A race reports the values of its arms when it is resolved, and to whoever takes what is ready before
that. Its arms are watched here: each future is numbered by its arm, and every poll of one is
written down with what it completed with.

* **`watched`** — a poll of a numbered future, written down.
* **`RaceRun.call`** — a poll of the race, a call of `take_ready`, or whatever happens outside.
* **`Kept`** — the invariant of a race that is not resolved: an arm that is polled again has not
  completed, and what was produced is reported or held.
* **`reports_once`** — over any calls, each value is reported once and no completed arm is polled. -/

namespace Waitprims

namespace FirstReady

open Fueled

variable {W F T : Type}

/-! ## Watching the arms -/

/-- One poll of the future of an arm, with what it completed with. -/
structure ArmPoll (T : Type) where
  arm : Nat
  result : Option (Except Error T)

/-- The value that a poll has produced, under its arm. -/
def ArmPoll.value (p : ArmPoll T) : Option (Nat × T) :=
  match p.result with
  | some (.ok value) => some (p.arm, value)
  | _ => none

/-- Every value produced, under its arm. -/
def produced (log : List (ArmPoll T)) : List (Nat × T) := log.filterMap ArmPoll.value

@[simp] theorem produced_append (log more : List (ArmPoll T)) :
    produced (log ++ more) = produced log ++ produced more :=
  List.filterMap_append

/-- Only a poll that completed with a value has produced it. -/
theorem ArmPoll.value_eq_some {p : ArmPoll T} {q : Nat × T} :
    p.value = some q ↔ p.arm = q.1 ∧ p.result = some (.ok q.2) := by
  obtain ⟨arm, result⟩ := p
  rcases result with _ | _ | value
  · exact ⟨nofun, nofun⟩
  · exact ⟨nofun, nofun⟩
  · simp [ArmPoll.value, Prod.ext_iff]

/-- The futures under the numbers of their arms. -/
def numbered (futures : List F) : List (Nat × F) := futures.zipIdx.map fun p => (p.2, p.1)

/-- A poll of a numbered future, written down. -/
def watched (pollFut : F → W → Polled F T × W) (fut : Nat × F) :
    StateT (W × List (ArmPoll T)) Option (Polled (Nat × F) T) := fun s =>
  match pollFut fut.2 s.1 with
  | (.ready result, w) => some (.ready result, w, s.2 ++ [⟨fut.1, some result⟩])
  | (.pending next, w) => some (.pending (fut.1, next), w, s.2 ++ [⟨fut.1, none⟩])

/-- What `take_ready` leaves of an arm. -/
def emptied : Arm F T → Arm F T
  | .ready _ => .ready none
  | arm => arm

/-! ## Runs of a race -/

/-- What can happen to a race: it is polled, its ready values are taken, or the state that its
futures act on changes. -/
inductive RaceCall (W : Type)
  | poll
  | takeReady
  | outside (step : W → W)

/-- A race with what it has reported, oldest report first. -/
structure RaceRun (F T : Type) where
  arms : List (Arm (Nat × F) T)
  reports : List (List (Nat × T))
  resolved : Bool

namespace RaceRun

/-- A race of fresh futures. -/
def start (futures : List F) : RaceRun F T := ⟨new (numbered futures), [], false⟩

variable (pollFut : F → W → Polled F T × W) (isTerminal : T → Bool)

/-- One call. A race that is resolved is a future that has completed, and is not polled again. -/
def call (run : RaceRun F T) :
    RaceCall W → StateT (W × List (ArmPoll T)) Option (RaceRun F T)
  | .poll =>
    if run.resolved then return run
    else do
      let (arms, out) ← FirstReady.poll (watched pollFut) isTerminal run.arms
      match out with
      | none => return { run with arms }
      | some out => return ⟨arms, run.reports ++ [out.ready], true⟩
  | .takeReady =>
    return ⟨run.arms.map emptied, run.reports ++ [FirstReady.takeReady run.arms], run.resolved⟩
  | .outside step => do
    modify fun s => (step s.1, s.2)
    return run

/-- Any calls, one after the other. -/
def calls : List (RaceCall W) → RaceRun F T →
    StateT (W × List (ArmPoll T)) Option (RaceRun F T)
  | [], run => return run
  | c :: rest, run => do
    let run ← run.call pollFut isTerminal c
    calls rest run

end RaceRun

/-! ## What the arms hold -/

/-- The values of arms numbered from `base`. -/
def valuesFrom (base : Nat) : List (Arm F T) → List (Nat × T)
  | [] => []
  | .ready (some value) :: rest => (base, value) :: valuesFrom (base + 1) rest
  | _ :: rest => valuesFrom (base + 1) rest

/-- The values in front of an arm, its own, and those behind it. -/
theorem valuesFrom_append (base : Nat) (front rest : List (Arm F T)) :
    valuesFrom base (front ++ rest) =
      valuesFrom base front ++ valuesFrom (base + front.length) rest := by
  induction front generalizing base with
  | nil => rfl
  | cons arm front ih =>
    have hlen : base + (arm :: front).length = base + 1 + front.length := by
      rw [List.length_cons]
      omega
    rw [hlen]
    cases arm with
    | pending fut => exact ih (base + 1)
    | failed => exact ih (base + 1)
    | ready slot =>
      cases slot with
      | none => exact ih (base + 1)
      | some value => exact congrArg _ (ih (base + 1))

/-- `take_ready` takes what the arms hold. -/
theorem takeReady_eq (arms : List (Arm F T)) : takeReady arms = valuesFrom 0 arms := by
  suffices h : ∀ base, ((arms.zipIdx base).filterMap fun p => match p.1 with
      | .ready slot => slot.map fun value => (p.2, value)
      | _ => none) = valuesFrom base arms from h 0
  induction arms with
  | nil => exact fun base => rfl
  | cons arm arms ih =>
    intro base
    rw [List.zipIdx_cons, List.filterMap_cons, ih]
    cases arm with
    | pending fut => rfl
    | failed => rfl
    | ready slot => cases slot <;> rfl

/-- The arms come in ascending order. -/
theorem valuesFrom_ascending (base : Nat) (arms : List (Arm F T)) :
    (∀ p ∈ valuesFrom base arms, base ≤ p.1) ∧
      ((valuesFrom base arms).map Prod.fst).Pairwise (· < ·) := by
  induction arms generalizing base with
  | nil => exact ⟨nofun, .nil⟩
  | cons arm arms ih =>
    obtain ⟨hle, hasc⟩ := ih (base + 1)
    have hlater : ∀ p ∈ valuesFrom (base + 1) arms, base ≤ p.1 :=
      fun p hp => Nat.le_of_succ_le (hle p hp)
    cases arm with
    | pending fut => exact ⟨hlater, hasc⟩
    | failed => exact ⟨hlater, hasc⟩
    | ready slot =>
      cases slot with
      | none => exact ⟨hlater, hasc⟩
      | some value =>
        refine ⟨?_, List.pairwise_cons.mpr ⟨?_, hasc⟩⟩
        · rintro p (_ | ⟨_, hp⟩)
          · exact le_rfl
          · exact hlater p hp
        · intro i hi
          obtain ⟨p, hp, rfl⟩ := List.mem_map.mp hi
          exact hle p hp

/-- Nothing is left of what was taken. -/
theorem valuesFrom_emptied (base : Nat) (arms : List (Arm F T)) :
    valuesFrom base (arms.map emptied) = [] := by
  induction arms generalizing base with
  | nil => rfl
  | cons arm arms ih => cases arm <;> exact ih (base + 1)

/-- Fresh arms hold nothing. -/
theorem valuesFrom_new (base : Nat) (futures : List F) :
    valuesFrom base (new futures : List (Arm F T)) = [] := by
  induction futures generalizing base with
  | nil => rfl
  | cons fut futures ih => exact ih (base + 1)

/-! ## The invariant -/

/-- The polls written down leave no future polled after it completed. -/
def Ended (log : List (ArmPoll T)) : Prop :=
  log.Pairwise fun before after => before.arm = after.arm → before.result = none

/-- **Between two calls**: what was produced is `reported` or held, and an arm that is still pending
polls its own future, which has not completed. -/
structure Kept (reported : List (Nat × T)) (arms : List (Arm (Nat × F) T))
    (log : List (ArmPoll T)) : Prop where
  own : ∀ i fut, arms[i]? = some (.pending fut) →
    fut.1 = i ∧ ∀ p ∈ log, p.arm = i → p.result = none
  ended : Ended log
  books : (reported ++ valuesFrom 0 arms).Perm (produced log)

namespace Kept

variable {reported : List (Nat × T)} {front rest : List (Arm (Nat × F) T)}
  {log : List (ArmPoll T)} {fut : Nat × F}

/-- The arm between `front` and `rest`, by its number. -/
theorem own_here (h : Kept reported (front ++ .pending fut :: rest) log) :
    fut.1 = front.length ∧ ∀ p ∈ log, p.arm = front.length → p.result = none :=
  h.own front.length fut (by rw [List.getElem?_append_right le_rfl, Nat.sub_self]; rfl)

/-- **A poll of an arm** leaves the others as they are; what it produced is held there now, or is
reported at once. -/
theorem polled (h : Kept reported (front ++ .pending fut :: rest) log)
    {result : Option (Except Error T)} {arm : Arm (Nat × F) T} {reported' : List (Nat × T)}
    (hpending : ∀ next, arm = .pending next → next.1 = fut.1 ∧ result = none)
    (hvalues : (reported' ++ valuesFrom 0 (front ++ arm :: rest)).Perm
      (reported ++ valuesFrom 0 (front ++ .pending fut :: rest) ++
        produced [⟨fut.1, result⟩])) :
    Kept reported' (front ++ arm :: rest) (log ++ [⟨fut.1, result⟩]) := by
  obtain ⟨hown, hnone⟩ := h.own_here
  refine ⟨?_, ?_, ?_⟩
  · intro i next hi
    by_cases hhere : i = front.length
    · -- The arm itself: it is pending again only if it did not complete.
      subst hhere
      rw [List.getElem?_append_right le_rfl, Nat.sub_self] at hi
      obtain ⟨hnext, hresult⟩ := hpending next (Option.some.inj hi)
      refine ⟨hnext.trans hown, ?_⟩
      intro p hp harm
      rcases List.mem_append.mp hp with hp | hp
      · exact hnone p hp harm
      · rw [List.mem_singleton.mp hp]
        exact hresult
    · -- Another arm: the poll was not of its future.
      have hi' : (front ++ .pending fut :: rest)[i]? = some (.pending next) := by
        rw [← hi]
        rcases Nat.lt_or_gt_of_ne hhere with hlt | hgt
        · rw [List.getElem?_append_left hlt, List.getElem?_append_left hlt]
        · rw [List.getElem?_append_right hgt.le, List.getElem?_append_right hgt.le]
          obtain ⟨k, hk⟩ := Nat.exists_eq_succ_of_ne_zero (Nat.sub_ne_zero_of_lt hgt)
          rw [hk]
          rfl
      obtain ⟨hnext, hother⟩ := h.own i next hi'
      refine ⟨hnext, ?_⟩
      intro p hp harm
      rcases List.mem_append.mp hp with hp | hp
      · exact hother p hp harm
      · rw [List.mem_singleton.mp hp] at harm
        exact absurd (harm.symm.trans hown) hhere
  · refine List.pairwise_append.mpr ⟨h.ended, List.pairwise_singleton _ _, ?_⟩
    intro p hp q hq harm
    rw [List.mem_singleton.mp hq] at harm
    exact hnone p hp (harm.trans hown)
  · refine hvalues.trans ?_
    rw [produced_append]
    exact h.books.append_right _

/-- A value that is taken is reported and held no more. -/
theorem report {value : T} (h : Kept reported (front ++ .ready (some value) :: rest) log)
    (hfront : valuesFrom 0 front = []) :
    Kept (reported ++ [(front.length, value)]) (front ++ .ready none :: rest) log := by
  refine ⟨?_, h.ended, ?_⟩
  · intro i fut hi
    refine h.own i fut ?_
    rcases Nat.lt_or_ge i front.length with hlt | hge
    · rw [List.getElem?_append_left hlt] at hi ⊢
      exact hi
    · rw [List.getElem?_append_right hge] at hi ⊢
      cases hk : i - front.length with
      | zero =>
        rw [hk] at hi
        cases hi
      | succ k =>
        rw [hk] at hi
        exact hi
  · have hbooks := h.books
    rw [valuesFrom_append, hfront, List.nil_append, Nat.zero_add] at hbooks ⊢
    rw [List.append_assoc]
    exact hbooks

end Kept

/-! ## Polling the arms -/

variable (pollFut : F → W → Polled F T × W) (isTerminal : T → Bool)

/-- An arm between the others. -/
theorem valuesFrom_arm (front rest : List (Arm F T)) (arm : Arm F T) :
    valuesFrom 0 (front ++ arm :: rest) = valuesFrom 0 front ++
      (valuesFrom front.length [arm] ++ valuesFrom (front.length + 1) rest) := by
  have hsplit : arm :: rest = [arm] ++ rest := rfl
  rw [hsplit, valuesFrom_append, valuesFrom_append, Nat.zero_add]
  rfl

/-- A value that is held, in one of the arms. -/
theorem mem_of_mem_valuesFrom {base : Nat} {arms : List (Arm F T)} {p : Nat × T}
    (h : p ∈ valuesFrom base arms) : Arm.ready (some p.2) ∈ arms := by
  induction arms generalizing base with
  | nil => cases h
  | cons arm arms ih =>
    cases arm with
    | pending fut => exact List.mem_cons_of_mem _ (ih h)
    | failed => exact List.mem_cons_of_mem _ (ih h)
    | ready slot =>
      cases slot with
      | none => exact List.mem_cons_of_mem _ (ih h)
      | some value =>
        rcases List.mem_cons.mp h with rfl | h
        · exact List.mem_cons_self
        · exact List.mem_cons_of_mem _ (ih h)

/-- The race after one poll of an arm, which is put in its place as the answer says. -/
def AfterPoll (reported : List (Nat × T)) (front rest : List (Arm (Nat × F) T)) :
    Polled (Nat × F) T → W × List (ArmPoll T) → Prop
  | .ready (.ok value), s => Kept reported (front ++ .ready (some value) :: rest) s.2
  | .ready (.error _), s => Kept reported (front ++ .failed :: rest) s.2
  | .pending next, s => Kept reported (front ++ .pending next :: rest) s.2

/-- **One poll of a future** that has not completed. -/
theorem watched_kept (reported : List (Nat × T)) (front rest : List (Arm (Nat × F) T))
    (fut : Nat × F) :
    Finishes (fun s => Kept reported (front ++ .pending fut :: rest) s.2) (watched pollFut fut)
      (AfterPoll reported front rest) := by
  intro s hs
  have hown := hs.own_here.1
  cases hpoll : pollFut fut.2 s.1 with
  | mk answer w =>
    cases answer with
    | ready result =>
      refine ⟨.ready result, (w, s.2 ++ [⟨fut.1, some result⟩]), by simp only [watched, hpoll], ?_⟩
      cases result with
      | error err =>
        refine hs.polled nofun ?_
        rw [valuesFrom_arm, valuesFrom_arm]
        exact .of_eq (List.append_nil _).symm
      | ok value =>
        refine hs.polled nofun ?_
        rw [valuesFrom_arm, valuesFrom_arm, hown, List.append_assoc]
        -- The value comes before those of the arms behind it.
        refine List.Perm.append_left _ ?_
        rw [List.append_assoc]
        exact List.Perm.append_left _ (List.perm_append_singleton _ _).symm
    | pending next =>
      refine ⟨.pending (fut.1, next), (w, s.2 ++ [⟨fut.1, none⟩]), by simp only [watched, hpoll], ?_⟩
      refine hs.polled ?_ ?_
      · rintro _ ⟨⟩
        exact ⟨rfl, rfl⟩
      · rw [valuesFrom_arm, valuesFrom_arm]
        exact .of_eq (List.append_nil _).symm

/-- **One arm of the first pass.** -/
theorem scanArm_kept (reported : List (Nat × T)) (front rest : List (Arm (Nat × F) T))
    (arm : Arm (Nat × F) T) (scan : Scan) :
    Finishes (fun s => Kept reported (front ++ arm :: rest) s.2)
      (scanArm (watched pollFut) isTerminal arm scan) fun r s =>
        (r.2.terminal = false → scan.terminal = false ∧
          ∀ value, r.1 = .ready (some value) → isTerminal value = false) ∧
        Kept reported (front ++ r.1 :: rest) s.2 := by
  cases arm with
  | pending fut =>
    refine Finishes.bind (watched_kept pollFut reported front rest fut) ?_
    rintro ((err | value) | next)
    · exact Finishes.pure fun s hs => ⟨fun h => ⟨h, nofun⟩, hs⟩
    · refine Finishes.pure fun s hs => ⟨fun h => ?_, hs⟩
      simp only [Scan.note, Bool.or_eq_false_iff] at h
      refine ⟨h.1, ?_⟩
      rintro v ⟨⟩
      exact h.2
    · exact Finishes.pure fun s hs => ⟨fun h => ⟨h, nofun⟩, hs⟩
  | ready slot =>
    cases slot with
    | none => exact Finishes.pure fun s hs => ⟨fun h => ⟨h, nofun⟩, hs⟩
    | some value =>
      refine Finishes.pure fun s hs => ⟨fun h => ?_, hs⟩
      simp only [Scan.note, Bool.or_eq_false_iff] at h
      refine ⟨h.1, ?_⟩
      rintro v ⟨⟩
      exact h.2
  | failed => exact Finishes.pure fun s hs => ⟨fun h => ⟨h, nofun⟩, hs⟩

/-- **The first pass**, from the arm behind `front` on. -/
theorem scanArms_kept (reported : List (Nat × T)) (front arms : List (Arm (Nat × F) T))
    (scan : Scan) :
    Finishes (fun s => Kept reported (front ++ arms) s.2)
      (scanArms (watched pollFut) isTerminal arms scan) fun r s =>
        (r.2.terminal = false → scan.terminal = false ∧
          ∀ value, Arm.ready (some value) ∈ r.1 → isTerminal value = false) ∧
        Kept reported (front ++ r.1) s.2 := by
  induction arms generalizing front scan with
  | nil => exact Finishes.pure fun s hs => ⟨fun h => ⟨h, nofun⟩, hs⟩
  | cons arm rest ih =>
    refine Finishes.bind (scanArm_kept pollFut isTerminal reported front rest arm scan) ?_
    rintro ⟨arm', scan'⟩
    refine Finishes.assume fun harm => ?_
    -- The arm is done with, and stands in front of the others.
    refine Finishes.bind ((ih (front ++ [arm']) scan').strengthen fun s hs => ?_) ?_
    · rwa [List.append_assoc]
    · rintro ⟨rest', scan''⟩
      refine Finishes.pure fun s hs => ⟨fun h => ?_, ?_⟩
      · obtain ⟨hscan', hrest⟩ := hs.1 h
        obtain ⟨hscan, hvalue⟩ := harm hscan'
        refine ⟨hscan, ?_⟩
        intro value hmem
        rcases List.mem_cons.mp hmem with heq | hmem
        · exact hvalue value heq.symm
        · exact hrest value hmem
      · have hkept := hs.2
        rwa [List.append_assoc] at hkept

/-- What the second pass leaves behind `front`: nothing is held, and the report is in order. -/
structure Collected (reported : List (Nat × T)) (front : List (Arm (Nat × F) T))
    (r : List (Arm (Nat × F) T) × FirstReadyOutput T) (log : List (ArmPoll T)) : Prop where
  later : ∀ p ∈ r.2.ready, front.length ≤ p.1
  ascending : (r.2.ready.map Prod.fst).Pairwise (· < ·)
  nothing : valuesFrom front.length r.1 = []
  kept : Kept (reported ++ r.2.ready) (front ++ r.1) log

/-- **The second pass**, from the arm behind `front` on. -/
theorem collectArms_kept (reported : List (Nat × T)) (front arms : List (Arm (Nat × F) T))
    (hfront : valuesFrom 0 front = []) (error : Option Error) :
    Finishes (fun s => Kept reported (front ++ arms) s.2)
      (collectArms (watched pollFut) front.length arms error) fun r s =>
        Collected reported front r s.2 := by
  induction arms generalizing reported front error with
  | nil =>
    refine Finishes.pure fun s hs => ⟨nofun, .nil, rfl, ?_⟩
    rwa [List.append_nil]
  | cons arm rest ih =>
    -- The arms behind one that holds nothing any more.
    have hrest : ∀ (arm' : Arm (Nat × F) T) (reported' : List (Nat × T)) (error : Option Error),
        valuesFrom front.length [arm'] = [] →
        Finishes (fun s => Kept reported' (front ++ arm' :: rest) s.2)
          (collectArms (watched pollFut) (front.length + 1) rest error)
          fun r s => Collected reported' (front ++ [arm']) r s.2 := by
      intro arm' reported' error hnone
      have hfront' : valuesFrom 0 (front ++ [arm']) = [] := by
        rw [valuesFrom_append, hfront, Nat.zero_add, hnone]
        rfl
      have h := ih reported' (front ++ [arm']) hfront' error
      rw [List.length_append, List.length_singleton] at h
      exact h.strengthen fun s hs => by rwa [List.append_assoc]
    -- It reports nothing,
    have hsilent : ∀ (arm' : Arm (Nat × F) T) (error : Option Error),
        valuesFrom front.length [arm'] = [] →
        Finishes (fun s => Kept reported (front ++ arm' :: rest) s.2)
          (do
            let (rest, out) ← collectArms (watched pollFut) (front.length + 1) rest error
            return (arm' :: rest, out)) fun r s => Collected reported front r s.2 := by
      intro arm' error hnone
      refine Finishes.bind (hrest arm' reported error hnone) ?_
      rintro ⟨rest', out⟩
      refine Finishes.pure fun s hs => ⟨?_, hs.ascending, ?_, ?_⟩
      · intro p hp
        have hle := hs.later p hp
        rw [List.length_append, List.length_singleton] at hle
        exact Nat.le_of_succ_le hle
      · have hnothing := hs.nothing
        rw [List.length_append, List.length_singleton] at hnothing
        have hsplit : arm' :: rest' = [arm'] ++ rest' := rfl
        rw [hsplit, valuesFrom_append, hnone]
        exact hnothing
      · have hkept := hs.kept
        rwa [List.append_assoc] at hkept
    -- or a value, which is put in front of the later ones.
    have hreport : ∀ (value : T) (error : Option Error),
        Finishes (fun s => Kept (reported ++ [(front.length, value)])
            (front ++ .ready none :: rest) s.2)
          (do
            let (rest, out) ← collectArms (watched pollFut) (front.length + 1) rest error
            return (.ready none :: rest,
              { out with ready := (front.length, value) :: out.ready }))
          fun r s => Collected reported front r s.2 := by
      intro value error
      refine Finishes.bind (hrest (.ready none) _ error rfl) ?_
      rintro ⟨rest', out⟩
      refine Finishes.pure fun s hs => ⟨?_, List.pairwise_cons.mpr ⟨?_, hs.ascending⟩, ?_, ?_⟩
      · rintro p (_ | ⟨_, hp⟩)
        · exact le_rfl
        · have hle := hs.later p hp
          rw [List.length_append, List.length_singleton] at hle
          exact Nat.le_of_succ_le hle
      · intro i hi
        obtain ⟨p, hp, rfl⟩ := List.mem_map.mp hi
        have hle := hs.later p hp
        rw [List.length_append, List.length_singleton] at hle
        exact hle
      · have hnothing := hs.nothing
        rw [List.length_append, List.length_singleton] at hnothing
        exact hnothing
      · have hkept := hs.kept
        rw [List.append_assoc, List.append_assoc] at hkept
        exact hkept
    cases arm with
    | pending fut =>
      refine Finishes.bind (watched_kept pollFut reported front rest fut) ?_
      rintro ((err | value) | next)
      · exact hsilent .failed _ rfl
      · exact (hreport value error).strengthen fun s hs => Kept.report hs hfront
      · exact hsilent (.pending next) error rfl
    | ready slot =>
      cases slot with
      | none => exact hsilent (.ready none) error rfl
      | some value => exact (hreport value error).strengthen fun s hs => Kept.report hs hfront
    | failed => exact hsilent .failed error rfl

/-! ## Runs -/

namespace RaceRun

/-- **What a run keeps**, whatever is called. -/
structure Reporting (isTerminal : T → Bool) (run : RaceRun F T) (log : List (ArmPoll T)) :
    Prop where
  kept : Kept run.reports.flatten run.arms log
  ascending : ∀ report ∈ run.reports, (report.map Prod.fst).Pairwise (· < ·)
  settled : run.resolved = true → valuesFrom 0 run.arms = []
  waiting : run.resolved = false → ∀ p ∈ valuesFrom 0 run.arms, isTerminal p.2 = false

/-- A race of fresh futures. -/
theorem start_reporting (futures : List F) :
    Reporting isTerminal (start futures : RaceRun F T) [] where
  kept := by
    refine ⟨?_, .nil, ?_⟩
    · intro i fut hi
      refine ⟨?_, nofun⟩
      unfold start new numbered at hi
      rw [List.getElem?_map, List.getElem?_map, List.getElem?_zipIdx] at hi
      cases hfut : futures[i]? with
      | none =>
        rw [hfut] at hi
        cases hi
      | some f =>
        rw [hfut] at hi
        cases hi
        exact Nat.zero_add i
    · rw [start, valuesFrom_new]
      exact .refl _
  ascending := nofun
  settled := nofun
  waiting _ p hp := by
    rw [start, valuesFrom_new] at hp
    cases hp

/-- **One poll of the race.** -/
theorem poll_reporting {run : RaceRun F T} (hrun : run.resolved = false) :
    Finishes (fun s => Reporting isTerminal run s.2)
      (do
        let (arms, out) ← FirstReady.poll (watched pollFut) isTerminal run.arms
        match out with
        | none => return { run with arms }
        | some out => return ⟨arms, run.reports ++ [out.ready], true⟩ :
          StateT (W × List (ArmPoll T)) Option (RaceRun F T))
      fun run' s => Reporting isTerminal run' s.2 := by
  refine Finishes.fact (p := ∀ report ∈ run.reports, (report.map Prod.fst).Pairwise (· < ·))
    (fun s hs => hs.ascending) fun hasc => ?_
  have hscan := scanArms_kept pollFut isTerminal run.reports.flatten [] run.arms
    ⟨false, false, none⟩
  refine Finishes.bind (R := fun r s => match r.2 with
    | none => (∀ p ∈ valuesFrom 0 r.1, isTerminal p.2 = false) ∧
        Kept run.reports.flatten r.1 s.2
    | some out => Collected run.reports.flatten [] (r.1, out) s.2) ?_ ?_
  · refine Finishes.bind (hscan.strengthen fun s hs => hs.kept) ?_
    rintro ⟨arms, scan⟩
    refine Finishes.assume fun hterm => ?_
    by_cases hend : scan.error.isSome || scan.terminal || !scan.pending
    · -- Resolved: the second pass takes everything.
      simp only [hend, if_true]
      refine Finishes.bind (collectArms_kept pollFut _ [] arms rfl scan.error) ?_
      rintro ⟨arms', out⟩
      exact Finishes.pure fun s hs => hs
    · -- Still pending: no value seen was terminal.
      simp only [hend]
      refine Finishes.pure fun s hs => ⟨?_, hs⟩
      simp only [Bool.or_eq_true, not_or, Bool.not_eq_true] at hend
      intro p hp
      exact (hterm hend.1.2).2 p.2 (mem_of_mem_valuesFrom hp)
  · rintro ⟨arms, _ | out⟩
    · refine Finishes.pure fun s hs => ⟨hs.2, hasc, ?_, fun _ => hs.1⟩
      intro hresolved
      rw [hrun] at hresolved
      cases hresolved
    · refine Finishes.pure fun s hs => ⟨?_, ?_, fun _ => hs.nothing, nofun⟩
      · rw [List.flatten_append, List.flatten_singleton]
        exact hs.kept
      · intro report hmem
        rcases List.mem_append.mp hmem with hmem | hmem
        · exact hasc report hmem
        · rw [List.mem_singleton.mp hmem]
          exact hs.ascending

/-- Taking what is ready reports what the arms held. -/
theorem takeReady_reporting {run : RaceRun F T} {log : List (ArmPoll T)}
    (h : Reporting isTerminal run log) :
    Reporting isTerminal ⟨run.arms.map emptied, run.reports ++ [FirstReady.takeReady run.arms],
      run.resolved⟩ log := by
  refine ⟨⟨?_, h.kept.ended, ?_⟩, ?_, ?_, ?_⟩
  · intro i fut hi
    refine h.kept.own i fut ?_
    rw [List.getElem?_map, Option.map_eq_some_iff] at hi
    obtain ⟨arm, harm, hempty⟩ := hi
    rw [harm]
    cases arm with
    | pending fut' => exact congrArg some hempty
    | ready slot => cases hempty
    | failed => cases hempty
  · rw [valuesFrom_emptied, List.append_nil, List.flatten_append, List.flatten_singleton,
      takeReady_eq]
    exact h.kept.books
  · intro report hmem
    rcases List.mem_append.mp hmem with hmem | hmem
    · exact h.ascending report hmem
    · rw [List.mem_singleton.mp hmem, takeReady_eq]
      exact (valuesFrom_ascending 0 run.arms).2
  · exact fun _ => valuesFrom_emptied 0 run.arms
  · intro _ p hp
    rw [valuesFrom_emptied] at hp
    cases hp

/-- **One call keeps the books.** -/
theorem call_reporting (run : RaceRun F T) (c : RaceCall W) :
    Finishes (fun s => Reporting isTerminal run s.2) (run.call pollFut isTerminal c)
      fun run' s => Reporting isTerminal run' s.2 := by
  cases c with
  | poll =>
    unfold call
    by_cases hrun : run.resolved = true
    · rw [if_pos hrun]
      exact Finishes.pure fun s hs => hs
    · rw [if_neg hrun]
      exact poll_reporting pollFut isTerminal (Bool.not_eq_true _ ▸ hrun)
  | takeReady => exact Finishes.pure fun s hs => takeReady_reporting isTerminal hs
  | outside step => exact fun s hs => ⟨run, (step s.1, s.2), rfl, hs⟩

/-- **Any calls keep the books.** -/
theorem calls_reporting (cs : List (RaceCall W)) (run : RaceRun F T) :
    Finishes (fun s => Reporting isTerminal run s.2) (calls pollFut isTerminal cs run)
      fun run' s => Reporting isTerminal run' s.2 := by
  induction cs generalizing run with
  | nil => exact Finishes.pure fun s hs => hs
  | cons c rest ih => exact Finishes.bind (call_reporting pollFut isTerminal run c) ih

end RaceRun

/-- An arm produces one value at most. -/
theorem Ended.nodup_produced {log : List (ArmPoll T)} (h : Ended log) :
    ((produced log).map Prod.fst).Nodup := by
  rw [produced, List.map_filterMap]
  refine List.pairwise_filterMap.mpr (h.imp ?_)
  intro before after hended i hi j hj heq
  obtain ⟨p, hp, rfl⟩ := Option.map_eq_some_iff.mp hi
  obtain ⟨q, hq, rfl⟩ := Option.map_eq_some_iff.mp hj
  -- The earlier of two polls of one arm has not completed.
  obtain ⟨harm, hresult⟩ := ArmPoll.value_eq_some.mp hp
  have hnone := hended ((harm.trans heq).trans (ArmPoll.value_eq_some.mp hq).1.symm)
  rw [hresult] at hnone
  cases hnone

/-- **A race reports each arm exactly once.** Over any calls, any behaviour of the futures and any
changes of the state they act on, every value produced is either in one report or still held for
`take_ready`, and a resolved race holds nothing; a report is in ascending order of the arms; no
future is polled after it completed; and a race that is pending holds no terminal value. -/
theorem reports_once (futures : List F) (cs : List (RaceCall W)) (w : W) :
    ∃ run w' log,
      RaceRun.calls pollFut isTerminal cs (RaceRun.start futures) (w, []) = some (run, w', log) ∧
      (run.reports.flatten ++ takeReady run.arms).Perm (produced log) ∧
      ((produced log).map Prod.fst).Nodup ∧
      (∀ report ∈ run.reports, (report.map Prod.fst).Pairwise (· < ·)) ∧
      (run.resolved = true → takeReady run.arms = []) ∧
      (run.resolved = false → ∀ p ∈ takeReady run.arms, isTerminal p.2 = false) ∧
      Ended log := by
  obtain ⟨run, ⟨w', log⟩, hrun, h⟩ := RaceRun.calls_reporting pollFut isTerminal cs
    (RaceRun.start futures) (w, []) (RaceRun.start_reporting isTerminal futures)
  refine ⟨run, w', log, hrun, ?_⟩
  rw [takeReady_eq]
  exact ⟨h.kept.books, h.kept.ended.nodup_produced, h.ascending, h.settled, h.waiting,
    h.kept.ended⟩

end FirstReady

end Waitprims
