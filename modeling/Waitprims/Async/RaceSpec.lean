import Mathlib
import Waitprims.Lib.Hoare
import Waitprims.Async.Race

/-! # What a race owns

A race takes values out of its futures and keeps them in its arms until it is resolved or dropped.
The specification is relative to an assertion `Own taken` on the state, `taken` being the labelled
values taken so far: polling one future extends it by at most one value, and it does not depend on
the order of values under different labels.

* **`poll_spec`** — an unresolved race owns what its arms hold, all of it not terminal; a resolved
  race has handed all of it over, with the positions in increasing order.
* **`drop_spec`** — dropping the pending arms takes nothing.
* **`poll_keeps`** — a poll of a race keeps what every poll of its futures keeps.
* **`poll_clean`** — and, unless it reports an error, what they keep unless they fail. -/

namespace Waitprims

namespace FirstReady

open Fueled

variable {W F T L : Type}

/-- The value an arm holds. -/
def armValue : Arm F T → Option T
  | .ready slot => slot
  | _ => none

/-- What the arms of a race hold, under their labels. -/
def armsHeld (labels : List L) (arms : List (Arm F T)) : List (L × T) :=
  (labels.zip arms).filterMap fun p => (armValue p.2).map fun value => (p.1, value)

@[simp] theorem armsHeld_nil (arms : List (Arm F T)) : armsHeld ([] : List L) arms = [] := rfl

theorem armsHeld_cons (l : L) (labels : List L) (arm : Arm F T) (arms : List (Arm F T)) :
    armsHeld (l :: labels) (arm :: arms)
      = ((armValue arm).map fun value => (l, value)).toList ++ armsHeld labels arms := by
  cases h : armValue arm with
  | none => simp [armsHeld, h]
  | some value => simp [armsHeld, h]

/-- What is held carries only labels of the race. -/
theorem armsHeld_labels_sublist (labels : List L) (arms : List (Arm F T)) :
    ((armsHeld labels arms).map Prod.fst).Sublist labels := by
  induction labels generalizing arms with
  | nil => simp
  | cons l labels ih =>
    cases arms with
    | nil => simp [armsHeld]
    | cons arm arms =>
      rw [armsHeld_cons]
      cases armValue arm with
      | none => simpa using (ih arms).cons l
      | some value => simpa using (ih arms).cons_cons l

/-- A fresh race holds nothing. -/
theorem armsHeld_new (labels : List L) (futures : List F) :
    armsHeld labels (new futures : List (Arm F T)) = [] := by
  induction futures generalizing labels with
  | nil => simp [armsHeld, new]
  | cons fut futures ih =>
    cases labels with
    | nil => rfl
    | cons l labels => simpa [new, armsHeld_cons, armValue] using ih labels

/-- The values a race hands over, under the labels of their positions. -/
def handed (labelAt : Nat → Option L) (ready : List (Nat × T)) : List (L × T) :=
  ready.filterMap fun p => (labelAt p.1).map fun l => (l, p.2)

/-- What is owned after one poll of a future under the label `l`: at most one more value. -/
@[simp] def PolledOwn (Good : L → F → Prop) (Own : List (L × T) → W → Prop) (l : L)
    (taken : List (L × T)) : Polled F T → W → Prop
  | .ready (.ok value) => Own (taken ++ [(l, value)])
  | .ready (.error _) => Own taken
  | .pending fut => fun w => Good l fut ∧ Own taken w

/-- The assertions a race is specified against. -/
structure Owning (key : L → Nat) (Good : L → F → Prop)
    (pollFut : F → StateT W Option (Polled F T)) (Own : List (L × T) → W → Prop) : Prop where
  /-- Values under different labels may be reordered. -/
  reorder : ∀ {taken taken' : List (L × T)} {w : W},
    (taken.map fun p => key p.1).Nodup → taken.Perm taken' → Own taken w → Own taken' w
  /-- One poll of a good future takes at most one value. -/
  poll : ∀ (l : L) (fut : F) (taken : List (L × T)), Good l fut →
    Triple (Own taken) (pollFut fut) (PolledOwn Good Own l taken)

/-- Every pending arm runs a good future for its label. -/
def ArmsGood (Good : L → F → Prop) (labels : List L) (arms : List (Arm F T)) : Prop :=
  List.Forall₂ (fun l arm => ∀ fut, arm = .pending fut → Good l fut) labels arms

theorem armsGood_new {Good : L → F → Prop} {labels : List L} {futures : List F}
    (h : List.Forall₂ Good labels futures) :
    ArmsGood Good labels (new futures : List (Arm F T)) := by
  induction h with
  | nil => exact List.Forall₂.nil
  | cons hgood _ ih =>
    refine List.Forall₂.cons ?_ ih
    rintro fut ⟨⟩
    exact hgood

variable {key : L → Nat} {Good : L → F → Prop} {pollFut : F → StateT W Option (Polled F T)}
  {Own : List (L × T) → W → Prop} (hown : Owning key Good pollFut Own) (isTerminal : T → Bool)

include hown in
/-- A newly taken value may be put in front of what later arms hold. -/
theorem Owning.insert {done rest : List (L × T)} {p : L × T} {w : W}
    (hkeys : ((done ++ p :: rest).map fun p => key p.1).Nodup)
    (h : Own (done ++ rest ++ [p]) w) : Own (done ++ p :: rest) w := by
  have hperm : (done ++ rest ++ [p]).Perm (done ++ p :: rest) := by
    rw [List.append_assoc]
    exact List.Perm.append_left done (List.perm_append_singleton p rest)
  exact hown.reorder ((hperm.map fun p => key p.1).nodup_iff.mpr hkeys) hperm h

/-- Labels taken earlier and labels still racing have different keys. -/
def Fresh (key : L → Nat) (done : List (L × T)) (labels : List L) : Prop :=
  (done.map (fun p => key p.1) ++ labels.map key).Nodup

theorem Fresh.held {done : List (L × T)} {labels : List L} (h : Fresh key done labels)
    (arms : List (Arm F T)) : ((done ++ armsHeld labels arms).map fun p => key p.1).Nodup := by
  rw [List.map_append]
  have hsub : ((armsHeld labels arms).map fun p => key p.1).Sublist (labels.map key) := by
    simpa [Function.comp_def] using (armsHeld_labels_sublist labels arms).map key
  exact h.sublist (List.Sublist.append_left hsub _)

theorem Fresh.snoc {done : List (L × T)} {l : L} {labels : List L}
    (h : Fresh key done (l :: labels)) (value : T) : Fresh key (done ++ [(l, value)]) labels := by
  simpa [Fresh] using h

theorem Fresh.tail {done : List (L × T)} {l : L} {labels : List L}
    (h : Fresh key done (l :: labels)) : Fresh key done labels := by
  refine List.Nodup.sublist (List.Sublist.append_left ?_ _) h
  simp

include hown in
/-- **One arm of the first pass.** -/
theorem scanArm_spec {done : List (L × T)} {l : L} {labels : List L} {arm : Arm F T}
    {arms : List (Arm F T)} (hfresh : Fresh key done (l :: labels))
    (hgood : ∀ fut, arm = .pending fut → Good l fut) (scan : Scan) :
    Triple (Own (done ++ armsHeld (l :: labels) (arm :: arms))) (scanArm pollFut isTerminal arm scan)
      fun r w => Own (done ++ armsHeld (l :: labels) (r.1 :: arms)) w ∧
        (∀ fut, r.1 = .pending fut → Good l fut) ∧
        (r.2.terminal = false → scan.terminal = false ∧
          ∀ value, armValue r.1 = some value → isTerminal value = false) := by
  cases arm with
  | pending fut =>
    refine Triple.bind (hown.poll l fut _ (hgood fut rfl)) ?_
    rintro ((err | value) | fut')
    · exact Triple.pure fun w h => ⟨h, by simp, fun hs => ⟨hs, by simp [armValue]⟩⟩
    · refine Triple.pure fun w h => ⟨?_, by simp, fun hs => ?_⟩
      · have hkeys := (hfresh.snoc value).held arms
        rw [armsHeld_cons] at h ⊢
        exact hown.insert (by simpa using hkeys) (by simpa [armValue] using h)
      · simp only [Scan.note, Bool.or_eq_false_iff] at hs
        refine ⟨hs.1, ?_⟩
        rintro v ⟨⟩
        exact hs.2
    · refine Triple.pure fun w h => ⟨h.2, ?_, fun hs => ⟨hs, by simp [armValue]⟩⟩
      rintro fut ⟨⟩
      exact h.1
  | ready slot =>
    cases slot with
    | none => exact Triple.pure fun w h => ⟨h, hgood, fun hs => ⟨hs, by simp [armValue]⟩⟩
    | some value =>
      refine Triple.pure fun w h => ⟨h, hgood, fun hs => ?_⟩
      simp only [Scan.note, Bool.or_eq_false_iff] at hs
      refine ⟨hs.1, ?_⟩
      rintro v ⟨⟩
      exact hs.2
  | failed => exact Triple.pure fun w h => ⟨h, hgood, fun hs => ⟨hs, by simp [armValue]⟩⟩

include hown in
/-- **The first pass** keeps what the race owns in its arms. -/
theorem scanArms_spec (done : List (L × T)) {labels : List L} {arms : List (Arm F T)}
    (hfresh : Fresh key done labels) (hgood : ArmsGood Good labels arms) (scan : Scan) :
    Triple (Own (done ++ armsHeld labels arms)) (scanArms pollFut isTerminal arms scan)
      fun r w => Own (done ++ armsHeld labels r.1) w ∧ ArmsGood Good labels r.1 ∧
        (r.2.terminal = false → scan.terminal = false ∧
          ∀ p ∈ armsHeld labels r.1, isTerminal p.2 = false) := by
  induction hgood generalizing done scan with
  | nil => exact Triple.pure fun w h => ⟨h, List.Forall₂.nil, fun hs => ⟨hs, by simp⟩⟩
  | @cons l arm labels arms hgood hrest ih =>
    refine Triple.bind (scanArm_spec hown isTerminal hfresh hgood scan) ?_
    rintro ⟨arm', scan'⟩
    refine Triple.bind (R := fun r w =>
      Own (done ++ ((armValue arm').map fun value => (l, value)).toList
        ++ armsHeld labels r.1) w ∧ ArmsGood Good labels r.1 ∧
      (∀ fut, arm' = .pending fut → Good l fut) ∧
      (r.2.terminal = false → scan.terminal = false ∧
        (∀ value, armValue arm' = some value → isTerminal value = false) ∧
        ∀ p ∈ armsHeld labels r.1, isTerminal p.2 = false)) ?_ ?_
    · intro w h r w' hr
      obtain ⟨hheld, hgood', hscan⟩ := h
      have hfresh' : Fresh key
          (done ++ ((armValue arm').map fun value => (l, value)).toList) labels := by
        cases armValue arm' with
        | none => simpa using hfresh.tail
        | some value => exact hfresh.snoc value
      rw [armsHeld_cons, ← List.append_assoc] at hheld
      obtain ⟨hown', hrest', hterm⟩ := ih _ hfresh' scan' w hheld r w' hr
      refine ⟨hown', hrest', hgood', fun hs => ?_⟩
      obtain ⟨hscan', hvals⟩ := hterm hs
      exact ⟨(hscan hscan').1, (hscan hscan').2, hvals⟩
    · rintro ⟨arms', scan''⟩
      refine Triple.pure fun w h => ⟨?_, List.Forall₂.cons h.2.2.1 h.2.1, fun hs => ?_⟩
      · rw [armsHeld_cons, ← List.append_assoc]
        exact h.1
      · obtain ⟨hscan, harm, hvals⟩ := h.2.2.2 hs
        refine ⟨hscan, fun p hp => ?_⟩
        rw [armsHeld_cons, List.mem_append] at hp
        rcases hp with hp | hp
        · obtain ⟨value, hvalue, rfl⟩ := by simpa using hp
          exact harm value hvalue
        · exact hvals p hp

/-- The positions handed over start at `base` and increase. -/
def Positions (base : Nat) (ready : List (Nat × T)) : Prop :=
  (∀ p ∈ ready, base ≤ p.1) ∧ (ready.map Prod.fst).Pairwise (· < ·)

theorem Positions.later {base : Nat} {ready : List (Nat × T)} (h : Positions (base + 1) ready) :
    Positions base ready :=
  ⟨fun p hp => Nat.le_of_succ_le (h.1 p hp), h.2⟩

theorem Positions.cons {base : Nat} {ready : List (Nat × T)} (h : Positions (base + 1) ready)
    (value : T) : Positions base ((base, value) :: ready) := by
  refine ⟨?_, List.pairwise_cons.mpr ⟨?_, h.2⟩⟩
  · rintro p (_ | ⟨_, hp⟩)
    · exact le_rfl
    · exact Nat.le_of_succ_le (h.1 p hp)
  · intro pos hpos
    obtain ⟨p, hp, rfl⟩ := List.mem_map.mp hpos
    exact h.1 p hp

theorem handed_cons {labelAt : Nat → Option L} {pos : Nat} {l : L} (h : labelAt pos = some l)
    (value : T) (ready : List (Nat × T)) :
    handed labelAt ((pos, value) :: ready) = (l, value) :: handed labelAt ready := by
  simp [handed, h]

include hown in
/-- **The second pass** hands over everything the arms hold, and what a last poll still takes. -/
theorem collectArms_spec (done : List (L × T)) {labels : List L} {arms : List (Arm F T)}
    {labelAt : Nat → Option L} {base : Nat} (hat : ∀ j, labelAt (base + j) = labels[j]?)
    (hfresh : Fresh key done labels) (hgood : ArmsGood Good labels arms) (error : Option Error) :
    Triple (Own (done ++ armsHeld labels arms)) (collectArms pollFut base arms error)
      fun r w => Own (done ++ handed labelAt r.2.ready) w ∧ Positions base r.2.ready := by
  induction hgood generalizing done base error with
  | nil => exact Triple.pure fun w h => ⟨h, by simp [Positions]⟩
  | @cons l arm labels arms hgood hrest ih =>
    have hlabel : labelAt base = some l := by simpa using hat 0
    have hat' : ∀ j, labelAt (base + 1 + j) = labels[j]? := by
      intro j
      have := hat (j + 1)
      rwa [List.getElem?_cons_succ, ← Nat.add_assoc, Nat.add_right_comm] at this
    -- An arm that hands over a value, held already or taken just now.
    have hsome : ∀ (value : T) (arm' : Arm F T) (error : Option Error),
        Triple (Own (done ++ (l, value) :: armsHeld labels arms))
          (do
            let r ← collectArms pollFut (base + 1) arms error
            return (arm' :: r.1, { r.2 with ready := (base, value) :: r.2.ready }))
          fun r w => Own (done ++ handed labelAt r.2.ready) w ∧ Positions base r.2.ready := by
      intro value arm' error
      refine Triple.bind ((ih _ hat' (hfresh.snoc value) error).strengthen ?_) ?_
      · intro w h
        simpa using h
      · rintro ⟨rest, out⟩
        refine Triple.pure fun w h => ⟨?_, h.2.cons value⟩
        rw [handed_cons hlabel]
        simpa using h.1
    -- An arm that hands over nothing.
    have hnone : ∀ (arm' : Arm F T) (error : Option Error),
        Triple (Own (done ++ armsHeld labels arms))
          (do
            let r ← collectArms pollFut (base + 1) arms error
            return (arm' :: r.1, r.2))
          fun r w => Own (done ++ handed labelAt r.2.ready) w ∧ Positions base r.2.ready := by
      intro arm' error
      refine Triple.bind (ih done hat' hfresh.tail error) ?_
      rintro ⟨rest, out⟩
      exact Triple.pure fun w h => ⟨h.1, h.2.later⟩
    cases arm with
    | pending fut =>
      refine Triple.bind (hown.poll l fut _ (hgood fut rfl)) ?_
      rintro ((err | value) | fut')
      · exact (hnone .failed _).strengthen fun w h => by simpa [armsHeld_cons, armValue] using h
      · refine (hsome value _ error).strengthen fun w h => ?_
        have hkeys := (hfresh.snoc value).held arms
        exact hown.insert (by simpa using hkeys) (by simpa [armsHeld_cons, armValue] using h)
      · exact (hnone (.pending fut') error).strengthen fun w h => by
          simpa [armsHeld_cons, armValue] using h.2
    | ready slot =>
      cases slot with
      | none =>
        exact (hnone _ error).strengthen fun w h => by simpa [armsHeld_cons, armValue] using h
      | some value =>
        exact (hsome value _ error).strengthen fun w h => by
          simpa [armsHeld_cons, armValue] using h
    | failed =>
      exact (hnone _ error).strengthen fun w h => by simpa [armsHeld_cons, armValue] using h

include hown in
/-- **One poll of a race.** Unresolved, it holds only values that are not terminal; resolved, it
has handed over all it took. -/
theorem poll_spec {labels : List L} {arms : List (Arm F T)} (hkeys : (labels.map key).Nodup)
    (hgood : ArmsGood Good labels arms) :
    Triple (Own (armsHeld labels arms)) (FirstReady.poll pollFut isTerminal arms)
      fun r w => match r.2 with
        | none => Own (armsHeld labels r.1) w ∧ ArmsGood Good labels r.1 ∧
            ∀ p ∈ armsHeld labels r.1, isTerminal p.2 = false
        | some out => Own (handed (fun j => labels[j]?) out.ready) w ∧
            (out.ready.map Prod.fst).Pairwise (· < ·) := by
  have hfresh : Fresh key ([] : List (L × T)) labels := by simpa [Fresh] using hkeys
  refine Triple.bind
    (scanArms_spec hown isTerminal [] hfresh hgood ⟨false, false, none⟩) ?_
  rintro ⟨arms', scan⟩
  by_cases hdone : scan.error.isSome || scan.terminal || !scan.pending
  · simp only [hdone, if_true]
    intro w h
    have hat : ∀ j, (fun j => labels[j]?) (0 + j) = labels[j]? := by simp
    have hcollect := collectArms_spec hown [] hat hfresh h.2.1 scan.error
    refine Triple.bind hcollect (fun r => ?_) w h.1
    exact Triple.pure fun w h => ⟨h.1, h.2.2⟩
  · simp only [hdone]
    refine Triple.pure fun w h => ⟨h.1, h.2.1, (h.2.2 ?_).2⟩
    simp only [Bool.or_eq_true, not_or, Bool.not_eq_true] at hdone
    exact hdone.1.2

/-! ## Which arms a resolved race has collected -/

/-- An arm of a race that has not been resolved: it is pending, or it holds a value. -/
def Live : Arm F T → Prop
  | .pending _ | .ready (some _) => True
  | .ready none | .failed => False

theorem live_new (futures : List F) : ∀ arm ∈ (new futures : List (Arm F T)), Live arm := by
  intro arm harm
  obtain ⟨fut, -, rfl⟩ := List.mem_map.mp harm
  trivial

/-- What the first pass tells of live arms: they stay live unless one failed, a terminal value is
held by some arm, and an arm that is pending is noticed. -/
structure Scanned (isTerminal : T → Bool) (scan₀ : Scan) (arms : List (Arm F T)) (scan : Scan) :
    Prop where
  error : scan.error = none → scan₀.error = none ∧ ∀ arm ∈ arms, Live arm
  terminal : scan.terminal = true → scan₀.terminal = true ∨
    ∃ (pos : Nat) (value : T), arms[pos]? = some (.ready (some value)) ∧ isTerminal value = true
  pending : scan.pending = false → scan₀.pending = false ∧ ∀ arm ∈ arms, ∀ fut, arm ≠ .pending fut

theorem scanArm_live {arm : Arm F T} (hlive : Live arm) (scan : Scan) :
    Triple (fun _ => True) (scanArm pollFut isTerminal arm scan)
      fun r _ => Scanned isTerminal scan [r.1] r.2 := by
  cases arm with
  | pending fut =>
    refine Triple.bind (R := fun _ _ => True) (fun _ _ _ _ _ => trivial) ?_
    rintro ((err | value) | fut')
    · refine Triple.pure fun w _ => ⟨fun h => ?_, fun h => Or.inl h, fun h => ⟨h, by simp⟩⟩
      cases hscan : scan.error <;> simp [Scan.fail, hscan] at h
    · refine Triple.pure fun w _ => ⟨fun h => ⟨h, by simp [Live]⟩, fun h => ?_,
        fun h => ⟨h, by simp⟩⟩
      rcases Bool.or_eq_true_iff.mp h with h | h
      · exact Or.inl h
      · exact Or.inr ⟨0, value, rfl, h⟩
    · exact Triple.pure fun w _ => ⟨fun h => ⟨h, by simp [Live]⟩, fun h => Or.inl h,
        fun h => by cases h⟩
  | ready slot =>
    cases slot with
    | none => exact hlive.elim
    | some value =>
      refine Triple.pure fun w _ => ⟨fun h => ⟨h, by simp [Live]⟩, fun h => ?_,
        fun h => ⟨h, by simp⟩⟩
      rcases Bool.or_eq_true_iff.mp h with h | h
      · exact Or.inl h
      · exact Or.inr ⟨0, value, rfl, h⟩
  | failed => exact hlive.elim

theorem scanArms_live {arms : List (Arm F T)} (hlive : ∀ arm ∈ arms, Live arm) (scan : Scan) :
    Triple (fun _ => True) (scanArms pollFut isTerminal arms scan)
      fun r _ => r.1.length = arms.length ∧ Scanned isTerminal scan r.1 r.2 := by
  induction arms generalizing scan with
  | nil =>
    exact Triple.pure fun w _ => ⟨rfl, fun h => ⟨h, by simp⟩, fun h => Or.inl h,
      fun h => ⟨h, by simp⟩⟩
  | cons arm arms ih =>
    refine Triple.bind (scanArm_live isTerminal (hlive arm List.mem_cons_self) scan) ?_
    rintro ⟨arm', scan'⟩
    refine Triple.fact (fun _ h => h) fun hfirst => ?_
    have hrest := ih (fun a ha => hlive a (List.mem_cons_of_mem arm ha)) scan'
    refine Triple.bind (hrest.strengthen fun _ _ => trivial) ?_
    rintro ⟨arms', scan''⟩
    refine Triple.pure fun w h => ?_
    obtain ⟨hlength, hscan⟩ := h
    refine ⟨by simp [hlength], fun herr => ?_, fun hterm => ?_, fun hpend => ?_⟩
    · obtain ⟨herr', hlive'⟩ := hscan.error herr
      obtain ⟨herr, hone⟩ := hfirst.error herr'
      exact ⟨herr, List.forall_mem_cons.mpr ⟨hone arm' List.mem_cons_self, hlive'⟩⟩
    · rcases hscan.terminal hterm with hterm | ⟨pos, value, hpos, hvalue⟩
      · rcases hfirst.terminal hterm with hterm | ⟨pos, value, hpos, hvalue⟩
        · exact Or.inl hterm
        · obtain rfl : pos = 0 := by
            cases pos with
            | zero => rfl
            | succ pos => cases hpos
          exact Or.inr ⟨0, value, hpos, hvalue⟩
      · exact Or.inr ⟨pos + 1, value, hpos, hvalue⟩
    · obtain ⟨hpend', hnone⟩ := hscan.pending hpend
      obtain ⟨hpend, hone⟩ := hfirst.pending hpend'
      exact ⟨hpend, List.forall_mem_cons.mpr ⟨hone arm' List.mem_cons_self, hnone⟩⟩

/-- What the second pass hands over: positions of the race, every held value, and an error that was
there stays. -/
structure Gathered (base : Nat) (arms : List (Arm F T)) (error : Option Error)
    (out : FirstReadyOutput T) : Prop where
  range : ∀ p ∈ out.ready, p.1 < base + arms.length
  held : ∀ (pos : Nat) (value : T), arms[pos]? = some (.ready (some value)) →
    (base + pos, value) ∈ out.ready
  error : out.error = none → error = none

theorem collectArms_gathered (arms : List (Arm F T)) (base : Nat) (error : Option Error) :
    Triple (fun _ => True) (collectArms pollFut base arms error)
      fun r _ => Gathered base arms error r.2 := by
  induction arms generalizing base error with
  | nil => exact Triple.pure fun w _ => ⟨by simp, by simp, id⟩
  | cons arm arms ih =>
    -- An arm that hands over `ready`, held already or taken just now, and leaves `error'`.
    have hstep : ∀ (taken : List (Nat × T)) (arm' : Arm F T) (error' : Option Error),
        (∀ p ∈ taken, p.1 = base) →
        (∀ value, arm = .ready (some value) → (base, value) ∈ taken) →
        (error' = none → error = none) →
        Triple (fun _ => True)
          (do
            let r ← collectArms pollFut (base + 1) arms error'
            return (arm' :: r.1, ({ r.2 with ready := taken ++ r.2.ready } : FirstReadyOutput T)))
          fun r _ => Gathered base (arm :: arms) error r.2 := by
      intro taken arm' error' hbase hheld herror
      refine Triple.bind (ih (base + 1) error') ?_
      rintro ⟨rest, out⟩
      refine Triple.pure fun w h => ⟨fun p hp => ?_, fun pos value hpos => ?_,
        fun herr => herror (h.error herr)⟩
      · rw [List.length_cons]
        rcases List.mem_append.mp hp with hp | hp
        · have := hbase p hp
          omega
        · have := h.range p hp
          omega
      · cases pos with
        | zero =>
          rw [List.getElem?_cons_zero] at hpos
          exact List.mem_append_left _ (hheld value (Option.some.inj hpos))
        | succ pos =>
          have hmem := h.held pos value hpos
          rw [Nat.add_right_comm, Nat.add_assoc] at hmem
          exact List.mem_append_right _ hmem
    have horElse : ∀ err : Error, error.or (some err) = none → error = none := by
      intro err h
      cases error with
      | none => rfl
      | some e => cases h
    cases arm with
    | pending fut =>
      refine Triple.bind (R := fun _ _ => True) (fun _ _ _ _ _ => trivial) ?_
      rintro ((err | value) | fut')
      · exact hstep [] .failed _ (by simp) (by simp) (horElse err)
      · exact hstep [(base, value)] (.ready none) error (by simp) (by simp) id
      · exact hstep [] (.pending fut') error (by simp) (by simp) id
    | ready slot =>
      cases slot with
      | none => exact hstep [] (.ready none) error (by simp) (by simp) id
      | some value => exact hstep [(base, value)] (.ready none) error (by simp) (by simp) id
    | failed => exact hstep [] .failed error (by simp) (by simp) id

/-- **A race that resolves without a terminal value and without an error has collected every
arm**; whatever it collects, it collects from its own arms. -/
theorem poll_complete {arms : List (Arm F T)} (hlive : ∀ arm ∈ arms, Live arm) :
    Triple (fun _ => True) (FirstReady.poll pollFut isTerminal arms)
      fun r _ => match r.2 with
        | none => r.1.length = arms.length ∧ ∀ arm ∈ r.1, Live arm
        | some out => (∀ p ∈ out.ready, p.1 < arms.length) ∧
            (out.error = none → (∀ p ∈ out.ready, isTerminal p.2 = false) →
              ∀ pos < arms.length, ∃ value, (pos, value) ∈ out.ready) := by
  refine Triple.bind (scanArms_live isTerminal hlive ⟨false, false, none⟩) ?_
  rintro ⟨arms', scan⟩
  refine Triple.fact (fun _ h => h) fun hscanned => ?_
  obtain ⟨hlength, hscan⟩ := hscanned
  have hlength : arms'.length = arms.length := hlength
  by_cases hdone : scan.error.isSome || scan.terminal || !scan.pending
  · simp only [hdone, if_true]
    refine Triple.bind ((collectArms_gathered arms' 0 scan.error).strengthen fun _ _ => trivial) ?_
    rintro ⟨arms'', out⟩
    refine Triple.pure fun w h => ⟨fun p hp => ?_, fun herror hidle pos hpos => ?_⟩
    · have hrange := h.range p hp
      omega
    -- No arm holds a terminal value and none failed, so the race resolved for want of pending arms.
    have herror' : scan.error = none := h.error herror
    have hterminal : scan.terminal = false := by
      by_contra hterm
      rcases hscan.terminal (by simpa using hterm) with hterm | ⟨at', value, hat, hvalue⟩
      · cases hterm
      · have := hidle _ (h.held at' value hat)
        rw [hvalue] at this
        cases this
    have hpending : scan.pending = false := by simpa [herror', hterminal] using hdone
    have hlt : pos < arms'.length := by omega
    have harm := (hscan.error herror').2 _ (List.getElem_mem hlt)
    have hnot := (hscan.pending hpending).2 _ (List.getElem_mem hlt)
    have hget : arms'[pos]? = some arms'[pos] := List.getElem?_eq_getElem hlt
    cases hcase : arms'[pos] with
    | pending fut => exact absurd hcase (hnot fut)
    | ready slot =>
      cases slot with
      | none => rw [hcase] at harm; exact harm.elim
      | some value =>
        refine ⟨value, ?_⟩
        have := h.held pos value (by rw [hget, hcase])
        simpa using this
    | failed => rw [hcase] at harm; exact harm.elim
  · simp only [hdone]
    refine Triple.pure fun w _ => ⟨hlength, (hscan.error ?_).2⟩
    simp only [Bool.or_eq_true, not_or, Bool.not_eq_true] at hdone
    simpa using hdone.1.1

/-! ## Giving up a race -/

/-- Values taken out of an unresolved race are those its arms hold. -/
theorem takeReady_mem {labels : List L} {arms : List (Arm F T)} (hlength : labels.length = arms.length)
    {p : Nat × T} (hp : p ∈ takeReady arms) : ∃ l, (l, p.2) ∈ armsHeld labels arms := by
  obtain ⟨⟨arm, idx⟩, hmem, hvalue⟩ := List.mem_filterMap.mp hp
  have harm : arms[idx]? = some arm := List.mem_zipIdx_iff_getElem?.mp hmem
  have hlt : idx < labels.length := by
    rw [hlength]
    exact (List.getElem?_eq_some_iff.mp harm).1
  cases arm with
  | ready slot =>
    cases slot with
    | none => cases hvalue
    | some value =>
      obtain rfl := Option.some.inj hvalue
      refine ⟨labels[idx], List.mem_filterMap.mpr ⟨(labels[idx], .ready (some value)), ?_, rfl⟩⟩
      refine List.mem_iff_getElem?.mpr ⟨idx, ?_⟩
      exact List.getElem?_zip_eq_some.mpr ⟨List.getElem?_eq_getElem hlt, harm⟩
  | pending fut => cases hvalue
  | failed => cases hvalue

/-- **Dropping a race** is dropping each pending future. -/
theorem drop_spec {P : W → Prop} {dropFut : F → StateT W Option Unit}
    (hdrop : ∀ fut, Triple P (dropFut fut) fun _ => P) (arms : List (Arm F T)) :
    Triple P (FirstReady.drop dropFut arms) fun _ => P := by
  induction arms with
  | nil => exact Triple.pure fun w h => h
  | cons arm arms ih =>
    cases arm with
    | pending fut => exact Triple.bind (hdrop fut) fun _ => ih
    | ready slot => exact ih
    | failed => exact ih

/-! ## What every poll keeps -/

section keeps

variable {P : W → Prop} {pollFut : F → StateT W Option (Polled F T)}

/-- A first pass keeps what every poll keeps. -/
theorem scanArms_keeps (hpoll : ∀ fut, Triple P (pollFut fut) fun _ => P) (isTerminal : T → Bool)
    (arms : List (Arm F T)) (scan : Scan) :
    Triple P (scanArms pollFut isTerminal arms scan) fun _ => P := by
  have hscan : ∀ (arm : Arm F T) (scan : Scan),
      Triple P (scanArm pollFut isTerminal arm scan) fun _ => P := by
    intro arm scan
    rcases arm with fut | (_ | value) | _
    · refine Triple.bind (hpoll fut) ?_
      rintro ((err | value) | fut') <;> exact Triple.pure fun w h => h
    · exact Triple.pure fun w h => h
    · exact Triple.pure fun w h => h
    · exact Triple.pure fun w h => h
  induction arms generalizing scan with
  | nil => exact Triple.pure fun w h => h
  | cons arm rest ih =>
    refine Triple.bind (hscan arm scan) fun r => ?_
    exact Triple.bind (ih r.2) fun _ => Triple.pure fun w h => h

/-- A second pass keeps what every poll keeps. -/
theorem collectArms_keeps (hpoll : ∀ fut, Triple P (pollFut fut) fun _ => P) (idx : Nat)
    (arms : List (Arm F T)) (error : Option Error) :
    Triple P (collectArms pollFut idx arms error) fun _ => P := by
  induction arms generalizing idx error with
  | nil => exact Triple.pure fun w h => h
  | cons arm rest ih =>
    have hnext : ∀ (error : Option Error) {γ : Type}
        (f : List (Arm F T) × FirstReadyOutput T → γ),
        Triple P (do let r ← collectArms pollFut (idx + 1) rest error; return f r) fun _ => P :=
      fun error _ f => Triple.bind (ih (idx + 1) error) fun _ => Triple.pure fun w h => h
    rcases arm with fut | (_ | value) | _
    · refine Triple.bind (hpoll fut) ?_
      rintro ((err | value) | fut')
      · exact hnext _ _
      · exact hnext _ _
      · exact hnext _ _
    · exact hnext _ _
    · exact hnext _ _
    · exact hnext _ _

/-- **A poll of a race keeps what every poll of its futures keeps.** -/
theorem poll_keeps (hpoll : ∀ fut, Triple P (pollFut fut) fun _ => P) (isTerminal : T → Bool)
    (arms : List (Arm F T)) :
    Triple P (FirstReady.poll pollFut isTerminal arms) fun _ => P := by
  refine Triple.bind (scanArms_keeps hpoll isTerminal arms _) fun r => ?_
  dsimp only
  split
  · exact Triple.bind (collectArms_keeps hpoll 0 r.1 r.2.error) fun _ => Triple.pure fun w h => h
  · exact Triple.pure fun w h => h

end keeps

/-! ## What holds unless a future fails -/

section clean

variable {P : W → Prop} {pollFut : F → StateT W Option (Polled F T)}
  (hpoll : ∀ fut, Triple P (pollFut fut) fun r w => (∀ err, r ≠ .ready (.error err)) → P w)

include hpoll

/-- One poll, in a race that may have failed already. -/
theorem pollFut_clean (error : Option Error) (fut : F) :
    Triple (fun w => error = none → P w) (pollFut fut)
      fun r w => error = none → (∀ err, r ≠ .ready (.error err)) → P w := by
  intro w hw r w' hr herror
  exact hpoll fut w (hw herror) r w' hr

/-- A first pass without an error. -/
theorem scanArms_clean (isTerminal : T → Bool) (arms : List (Arm F T)) (scan : Scan) :
    Triple (fun w => scan.error = none → P w) (scanArms pollFut isTerminal arms scan)
      fun r w => r.2.error = none → P w := by
  have hscan : ∀ (arm : Arm F T) (scan : Scan),
      Triple (fun w => scan.error = none → P w) (scanArm pollFut isTerminal arm scan)
        fun r w => r.2.error = none → P w := by
    intro arm scan
    rcases arm with fut | (_ | value) | _
    · refine Triple.bind (pollFut_clean hpoll scan.error fut) ?_
      rintro ((err | value) | fut')
      · refine Triple.pure fun w _ hnone => ?_
        cases hscan : scan.error <;> simp [Scan.fail, hscan] at hnone
      · exact Triple.pure fun w h hnone => h hnone (by simp)
      · exact Triple.pure fun w h hnone => h hnone (by simp)
    · exact Triple.pure fun w h => h
    · exact Triple.pure fun w h => h
    · exact Triple.pure fun w h => h
  induction arms generalizing scan with
  | nil => exact Triple.pure fun w h => h
  | cons arm rest ih =>
    refine Triple.bind (hscan arm scan) fun r => ?_
    exact Triple.bind (ih r.2) fun _ => Triple.pure fun w h => h

/-- A second pass without an error. -/
theorem collectArms_clean (idx : Nat) (arms : List (Arm F T)) (error : Option Error) :
    Triple (fun w => error = none → P w) (collectArms pollFut idx arms error)
      fun r w => r.2.error = none → P w := by
  induction arms generalizing idx error with
  | nil => exact Triple.pure fun w h => h
  | cons arm rest ih =>
    -- What is put in front of the rest of the values leaves its error.
    have hnext : ∀ (error : Option Error) (arm' : Arm F T) (taken : List (Nat × T)),
        Triple (fun w => error = none → P w)
          (do
            let r ← collectArms pollFut (idx + 1) rest error
            return (arm' :: r.1, ({ r.2 with ready := taken ++ r.2.ready } : FirstReadyOutput T)))
          fun r w => r.2.error = none → P w :=
      fun error _ _ => Triple.bind (ih (idx + 1) error) fun _ => Triple.pure fun w h => h
    rcases arm with fut | (_ | value) | _
    · refine Triple.bind (pollFut_clean hpoll error fut) ?_
      rintro ((err | value) | fut')
      · refine (hnext (error.or (some err)) .failed []).strengthen fun w _ hnone => ?_
        cases error <;> cases hnone
      · exact (hnext error (.ready none) [(idx, value)]).strengthen fun w h hnone =>
          h hnone (by simp)
      · exact (hnext error (.pending fut') []).strengthen fun w h hnone => h hnone (by simp)
    · exact hnext error (.ready none) []
    · exact hnext error (.ready none) [(idx, value)]
    · exact hnext error .failed []

/-- **A poll of a race that reports no error** keeps what its polls keep unless they fail. -/
theorem poll_clean (isTerminal : T → Bool) (arms : List (Arm F T)) :
    Triple P (FirstReady.poll pollFut isTerminal arms)
      fun r w => (∀ out, r.2 = some out → out.error = none) → P w := by
  have hscan : Triple (fun w => (none : Option Error) = none → P w)
      (scanArms pollFut isTerminal arms ⟨false, false, none⟩) fun r w => r.2.error = none → P w :=
    scanArms_clean hpoll isTerminal arms ⟨false, false, none⟩
  refine Triple.bind (hscan.strengthen fun w h _ => h) fun r => ?_
  dsimp only
  split
  · refine Triple.bind (collectArms_clean hpoll 0 r.1 r.2.error) ?_
    rintro ⟨arms', out⟩
    exact Triple.pure fun w h hclean => h (hclean out rfl)
  · next hgo =>
    refine Triple.pure fun w h _ => h ?_
    simp only [Bool.or_eq_true, not_or, Bool.not_eq_true] at hgo
    simpa using hgo.1.1

end clean

end FirstReady

end Waitprims
