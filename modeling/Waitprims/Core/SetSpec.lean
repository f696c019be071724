import Mathlib
import Waitprims.Core.SetRules

/-! # What the set rules depend on

Each rule as a statement about the documents it reads, free of the order in which it visits them
where it does not matter: coverage, starvation, authentication, leases and bounds depend on the
documents as a collection; an ack, the silent advance and the revision freeze pick one document by
its position.

* **`accepts_coverageCardinality`**, **`accepts_ackRules`**, **`accepts_fairnessStarvation`**,
  **`accepts_silentCursorAdvance`** — the four rules about poll cycles.
* **`authnLeaseBounds_perm`** — the last rule does not see the order. -/

namespace Waitprims

namespace SetRules

open Json (lookup)

variable {documents documents' : List Json}

/-! ## Coverage -/

/-- An outcome with complete coverage has these arms. -/
def CoversArms (required : List String) (outcome : Json) : Prop :=
  outcome.isTrueField "coverage_complete" = true → ∀ arm ∈ required, arm ∈ armIds outcome

theorem accepts_coverageCheck {required : List String} {outcome : Json} :
    Accepts (coverageCheck required outcome) ↔ CoversArms required outcome := by
  rw [coverageCheck, accepts_reject, Bool.and_eq_false_iff, CoversArms, List.any_eq_false]
  cases outcome.isTrueField "coverage_complete" with
  | false => simp
  | true => simp

/-- **Coverage**: every complete outcome has every required arm. -/
theorem accepts_coverageCardinality :
    Accepts (coverageCardinality documents) ↔
      ∀ out ∈ ofType "poll_cycle_outcome" documents, CoversArms (requiredArms documents) out := by
  unfold coverageCardinality
  by_cases hempty : (requiredArms documents).isEmpty = true
  · have hnil : requiredArms documents = [] := List.isEmpty_iff.mp hempty
    simp [hnil, CoversArms]
  · simp only [hempty, Bool.false_eq_true, if_false, accepts_checkEach, accepts_coverageCheck]

/-! ## Acks -/

/-- **Acks**: each is checked against the first outcome it cites. -/
theorem accepts_ackRules :
    Accepts (ackRules documents) ↔
      ∀ ack ∈ ofType "poll_cycle_ack" documents, ∀ out,
        citedOutcome (ofType "poll_cycle_outcome" documents) ack = some out →
          Accepts (ackAgainst ack out) := by
  unfold ackRules
  rw [accepts_checkEach]
  refine forall₂_congr fun ack _ => ?_
  cases hcited : citedOutcome (ofType "poll_cycle_outcome" documents) ack with
  | none => simp
  | some outcome => simp

/-- The cited outcome is an outcome with the cited id. -/
theorem citedOutcome_some {outs : List Json} {ack out : Json}
    (h : citedOutcome outs ack = some out) :
    out ∈ outs ∧ out.strField "message_id" = ack.strField "outcome_ref" :=
  ⟨List.mem_of_find?_eq_some h, by simpa using List.find?_some h⟩

/-! ## Starvation -/

/-- An arm was deferred in all outcomes while another delivered and the cursor stood still. -/
def starved (outs : List Json) (armId : String) : Bool :=
  (outs.all fun out => armStatus out armId == some "deferred")
    && otherEvents outs armId && cursorFrozen outs

theorem all_perm {α : Type} {p : α → Bool} {l l' : List α} (h : l.Perm l') : l.all p = l'.all p := by
  rw [Bool.eq_iff_iff, List.all_eq_true, List.all_eq_true]
  exact forall_congr' fun a => by rw [h.mem_iff]

theorem any_perm {α : Type} {p : α → Bool} {l l' : List α} (h : l.Perm l') : l.any p = l'.any p := by
  rw [Bool.eq_iff_iff, List.any_eq_true, List.any_eq_true]
  exact exists_congr fun a => by rw [h.mem_iff]

/-- Starvation does not see the order of the outcomes. -/
theorem starved_perm {outs outs' : List Json} (h : outs.Perm outs') (armId : String) :
    starved outs armId = starved outs' armId := by
  have hfrozen : cursorFrozen outs = cursorFrozen outs' := by
    unfold cursorFrozen
    rw [((h.filterMap fun out => out.strField "next_fairness_cursor").dedup).length_eq]
  unfold starved otherEvents
  rw [all_perm h, any_perm h, hfrozen]

/-- **No required arm of a waiter is starved**, where it has two outcomes or more. -/
def NoneStarved (outs : List Json) : Prop :=
  outs.length < 2 ∨ ∀ armId ∈ requiredArmIds outs, starved outs armId = false

theorem noneStarved_perm {outs outs' : List Json} (h : outs.Perm outs') :
    NoneStarved outs ↔ NoneStarved outs' := by
  have harms : ∀ armId, armId ∈ requiredArmIds outs ↔ armId ∈ requiredArmIds outs' :=
    fun armId => (h.flatMap_right _).mem_iff
  unfold NoneStarved
  rw [h.length_eq]
  refine or_congr Iff.rfl (forall_congr' fun armId => ?_)
  rw [harms, starved_perm h]

theorem accepts_waiterCheck {outs : List Json} :
    Accepts (waiterCheck outs) ↔ NoneStarved outs := by
  have hperm : (sortByCreated outs).Perm outs := List.perm_insertionSort _ outs
  unfold waiterCheck
  by_cases hshort : outs.length < 2
  · simp [hshort, NoneStarved]
  · have hsorted : Accepts (checkEach (starvationCheck (sortByCreated outs))
        (requiredArmIds (sortByCreated outs)).dedup) ↔
        ∀ armId ∈ requiredArmIds (sortByCreated outs),
          starved (sortByCreated outs) armId = false := by
      rw [accepts_checkEach]
      refine forall_congr' fun armId => ?_
      rw [List.mem_dedup, starvationCheck, accepts_reject]
      rfl
    have hlong : ¬ (sortByCreated outs).length < 2 := by rwa [hperm.length_eq]
    rw [if_neg hshort, hsorted, ← noneStarved_perm hperm, NoneStarved]
    exact ⟨Or.inr, fun h => h.resolve_left hlong⟩

/-- The outcomes of one waiter. -/
def outcomesOf (waiter : String) (documents : List Json) : List Json :=
  (ofType "poll_cycle_outcome" documents).filter fun out => waiterOf out == waiter

/-- **Starvation** is decided waiter by waiter. -/
theorem accepts_fairnessStarvation :
    Accepts (fairnessStarvation documents) ↔ ∀ waiter, NoneStarved (outcomesOf waiter documents) := by
  unfold fairnessStarvation
  simp only [accepts_checkEach, accepts_waiterCheck, List.mem_dedup, List.mem_map]
  constructor
  · intro h waiter
    by_cases hsome : ∃ out ∈ ofType "poll_cycle_outcome" documents, waiterOf out = waiter
    · exact h waiter hsome
    · have hnone : outcomesOf waiter documents = [] := by
        rw [outcomesOf, List.filter_eq_nil_iff]
        intro out hout hwaiter
        exact hsome ⟨out, hout, by simpa using hwaiter⟩
      rw [hnone]
      exact Or.inl (by decide)
  · intro h waiter _
    exact h waiter

/-! ## Silent advance -/

/-- The outcome that comes first by its text. -/
def earliest (outs : List Json) : Option Json := (sortByCreated outs).head?

/-- The outcome that comes last by its text. -/
def latest (outs : List Json) : Option Json := (sortByCreated outs).getLast?

/-- The first and the last outcome are compared, and the cursors moved past a lost event. -/
def EndsAdvanced (outs : List Json) : Prop :=
  ∃ first last, earliest outs = some first ∧ latest outs = some last ∧
    silentlyAdvanced first last = true

/-- An ack or a single outcome exempts the documents from the comparison. -/
def Exempt (documents : List Json) : Prop :=
  ofType "poll_cycle_ack" documents ≠ [] ∨ (ofType "poll_cycle_outcome" documents).length < 2

instance (documents : List Json) : Decidable (Exempt documents) := inferInstanceAs (Decidable (_ ∨ _))

/-- **Silent advance**: the first outcome against the last. -/
theorem accepts_silentCursorAdvance :
    Accepts (silentCursorAdvance documents) ↔
      Exempt documents ∨ ¬ EndsAdvanced (ofType "poll_cycle_outcome" documents) := by
  have hexempt : (!(ofType "poll_cycle_ack" documents).isEmpty
      || (ofType "poll_cycle_outcome" documents).length < 2) = true ↔ Exempt documents := by
    simp [Exempt]
  unfold silentCursorAdvance
  by_cases hex : Exempt documents
  · simp only [hexempt.mpr hex, if_true]
    exact iff_of_true rfl (Or.inl hex)
  · have hcond := fun h => hex (hexempt.mp h)
    rw [or_iff_right hex]
    show Accepts (if _ then _ else _) ↔ _
    rw [if_neg hcond]
    unfold EndsAdvanced earliest latest
    cases hfirst : (sortByCreated (ofType "poll_cycle_outcome" documents)).head? with
    | none => simp [hfirst]
    | some first =>
      cases hlast : (sortByCreated (ofType "poll_cycle_outcome" documents)).getLast? with
      | none => simp [hfirst, hlast]
      | some last => simp [hfirst, hlast]

section ends

variable {outs outs' : List Json} {first last : Json}

theorem sorted_sortByCreated (outs : List Json) :
    (sortByCreated outs).Pairwise fun a b => createdText a ≤ createdText b :=
  have : IsTrans Json fun a b => createdText a ≤ createdText b := ⟨fun _ _ _ => le_trans⟩
  have : Std.Total fun a b : Json => createdText a ≤ createdText b := ⟨fun _ _ => le_total _ _⟩
  List.pairwise_insertionSort _ outs

theorem mem_sortByCreated {out : Json} : out ∈ sortByCreated outs ↔ out ∈ outs :=
  List.mem_insertionSort _

/-- The first outcome has the smallest text. -/
theorem earliest_some (h : earliest outs = some first) :
    first ∈ outs ∧ ∀ out ∈ outs, createdText first ≤ createdText out := by
  have hsorted := sorted_sortByCreated outs
  unfold earliest at h
  cases hcase : sortByCreated outs with
  | nil => rw [hcase] at h; cases h
  | cons a rest =>
    rw [hcase] at h hsorted
    obtain rfl : a = first := Option.some.inj h
    refine ⟨mem_sortByCreated.mp (hcase ▸ List.mem_cons_self), fun out hout => ?_⟩
    have hmem : out ∈ a :: rest := hcase ▸ mem_sortByCreated.mpr hout
    rcases List.mem_cons.mp hmem with rfl | hmem
    · exact le_rfl
    · exact (List.pairwise_cons.mp hsorted).1 out hmem

/-- The last outcome has the largest text. -/
theorem latest_some (h : latest outs = some last) :
    last ∈ outs ∧ ∀ out ∈ outs, createdText out ≤ createdText last := by
  have hsorted := sorted_sortByCreated outs
  unfold latest at h
  obtain ⟨front, hcase⟩ : ∃ front, sortByCreated outs = front ++ [last] :=
    List.getLast?_eq_some_iff.mp h
  rw [hcase] at hsorted
  refine ⟨mem_sortByCreated.mp (hcase ▸ List.mem_append_right front List.mem_cons_self),
    fun out hout => ?_⟩
  have hmem : out ∈ front ++ [last] := hcase ▸ mem_sortByCreated.mpr hout
  rcases List.mem_append.mp hmem with hmem | hmem
  · exact (List.pairwise_append.mp hsorted).2.2 out hmem last List.mem_cons_self
  · rw [List.mem_singleton.mp hmem]

end ends

/-! ## Revision, authentication, leases and bounds -/

theorem accepts_revisionCross :
    Accepts (revisionCross documents) ↔
      ∀ set, (ofType "registration_set" documents).getLast? = some set →
        ∀ r ∈ requests documents,
          r.strField "registration_revision" = set.strField "registration_revision" := by
  unfold revisionCross
  cases hlast : (ofType "registration_set" documents).getLast? with
  | none => simp [hlast]
  | some set => simp [hlast]

theorem ofType_perm (h : documents.Perm documents') (kind : String) :
    (ofType kind documents).Perm (ofType kind documents') := h.filter _

theorem accepts_checkEach_perm {α : Type} {check : α → Except Error Unit} {l l' : List α}
    (h : l.Perm l') : Accepts (checkEach check l) ↔ Accepts (checkEach check l') := by
  rw [accepts_checkEach, accepts_checkEach]
  exact forall_congr' fun a => by rw [h.mem_iff]

/-- **The last rule** does not see the order of the documents. -/
theorem authnLeaseBounds_perm (h : documents.Perm documents') :
    Accepts (authnLeaseBounds documents) ↔ Accepts (authnLeaseBounds documents') := by
  have hsets := ofType_perm h "registration_set"
  have houts : (outcomes documents).Perm (outcomes documents') := h.filter _
  have hreqs : (requests documents).Perm (requests documents') := h.filter _
  have hauthn : ∀ set, authnCheck (requests documents) (outcomes documents) set
      = authnCheck (requests documents') (outcomes documents') set := by
    intro set
    unfold authnCheck
    rw [hreqs.isEmpty_eq, any_perm hreqs, any_perm houts]
  have hlease : ∀ registration, Accepts (registrationLeaseCheck (outcomes documents) registration)
      ↔ Accepts (registrationLeaseCheck (outcomes documents') registration) := by
    intro registration
    unfold registrationLeaseCheck
    cases registration.strField "lease_expires_at" with
    | none => exact Iff.rfl
    | some lease => exact accepts_checkEach_perm houts
  have hbody : (∀ set ∈ ofType "registration_set" documents,
        Accepts (authnCheck (requests documents) (outcomes documents) set)) ∧
      (∀ set ∈ ofType "registration_set" documents, ∀ registration ∈ registrationsOf set,
        Accepts (registrationLeaseCheck (outcomes documents) registration)) ∧
      (∀ set ∈ ofType "registration_set" documents, ∀ out ∈ outcomes documents,
        Accepts (boundsCheck set out)) ↔
      (∀ set ∈ ofType "registration_set" documents',
        Accepts (authnCheck (requests documents') (outcomes documents') set)) ∧
      (∀ set ∈ ofType "registration_set" documents', ∀ registration ∈ registrationsOf set,
        Accepts (registrationLeaseCheck (outcomes documents') registration)) ∧
      (∀ set ∈ ofType "registration_set" documents', ∀ out ∈ outcomes documents',
        Accepts (boundsCheck set out)) := by
    simp only [hsets.mem_iff, houts.mem_iff, hauthn, hlease]
  unfold authnLeaseBounds
  simp only [hsets.isEmpty_eq, houts.isEmpty_eq]
  by_cases hnone : ((ofType "registration_set" documents').isEmpty
      || (outcomes documents').isEmpty) = true
  · simp only [hnone, if_true]
  · simp only [hnone, if_false, Bool.false_eq_true, accepts_bind, accepts_checkEach]
    exact hbody

end SetRules

end Waitprims
