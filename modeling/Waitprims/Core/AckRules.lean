import Mathlib
import Waitprims.Core.Validate
import Waitprims.Testkit.Documents

/-! # What an ack may commit

An ack commits cursors and event ids of the outcome it cites, registration by registration.

* **`AckMatches`** — every committed anchor and every acked event is what the outcome retained for
  that registration.
* **`SharedEvent`** — an acked event id is retained under another registration as well.
* **`accepts_ackAgainst`** — the rule accepts an ack that matches and shares nothing. The check of
  the anchors asks for a mismatch before it calls an anchor stolen; the check of the events does
  not. -/

namespace Waitprims

namespace SetRules

open Json (lookup)

/-! ## What the two documents say -/

/-- The anchors an ack commits. -/
def committedAnchors (ack : Json) : List (String × Json) := objectMap (ack.get "committed_anchors")

/-- The anchors an outcome retained. -/
def retainedThrough (outcome : Json) : List (String × Json) :=
  objectMap (outcome.get "retained_through")

/-- The events of a document's `retained_events`. -/
def retainedEvents (document : Json) : List (String × List String) :=
  stringListMap (document.get "retained_events")

/-- **The ack commits what the outcome retained**, registration by registration. -/
def AckMatches (outcome ack : Json) : Prop :=
  (∀ p ∈ committedAnchors ack, lookup p.1 (retainedThrough outcome) = some p.2) ∧
    ∀ p ∈ retainedEvents ack, ∀ e ∈ p.2, e ∈ (lookup p.1 (retainedEvents outcome)).getD []

instance (outcome ack : Json) : Decidable (AckMatches outcome ack) :=
  inferInstanceAs (Decidable (_ ∧ _))

/-- An acked event id is retained under another registration. -/
def SharedEvent (outcome ack : Json) : Prop :=
  ∃ p ∈ retainedEvents ack, ∃ e ∈ p.2, ∃ other ∈ retainedEvents outcome,
    other.1 ≠ p.1 ∧ e ∈ other.2

/-! ## The checks of one ack -/

section checks

variable {outcome ack : Json}

/-- No anchor of the ack is mismatched. -/
theorem cursorMismatch_eq_false {committed retained : List (String × Json)} :
    cursorMismatch committed retained = false ↔
      ∀ p ∈ committed, lookup p.1 retained = some p.2 := by
  rw [cursorMismatch, List.any_eq_false]
  refine forall₂_congr fun p _ => ?_
  rw [bne_iff_ne, not_not]

/-- No event of the ack is missing. -/
theorem eventMismatch_eq_false {acked retained : List (String × List String)} :
    eventMismatch acked retained = false ↔
      ∀ p ∈ acked, ∀ e ∈ p.2, e ∈ (lookup p.1 retained).getD [] := by
  rw [eventMismatch, List.any_eq_false]
  refine forall₂_congr fun p _ => ?_
  show ¬ (p.2.any fun e => !((lookup p.1 retained).getD []).contains e) = true ↔ _
  rw [Bool.not_eq_true, List.any_eq_false]
  refine forall₂_congr fun e _ => ?_
  simp

/-- A matching anchor is not stolen. -/
theorem accepts_stolenAnchorCheck {retained : List (String × Json)} {p : String × Json}
    (h : lookup p.1 retained = some p.2) : Accepts (stolenAnchorCheck retained p) := by
  rw [stolenAnchorCheck, accepts_reject, h]
  simp

/-- The events of one registration are nobody else's. -/
theorem accepts_stolenEventCheck {retained : List (String × List String)}
    {p : String × List String} :
    Accepts (stolenEventCheck retained p) ↔
      ∀ e ∈ p.2, ∀ other ∈ retained, other.1 ≠ p.1 → e ∉ other.2 := by
  rw [stolenEventCheck, accepts_checkEach]
  refine forall₂_congr fun e _ => ?_
  rw [accepts_reject, List.any_eq_false]
  refine forall₂_congr fun other _ => ?_
  simp

/-- **One ack passes** where it matches the outcome and shares no event id. -/
theorem accepts_ackAgainst :
    Accepts (ackAgainst ack outcome) ↔ AckMatches outcome ack ∧ ¬ SharedEvent outcome ack := by
  have hshared : (∀ p ∈ retainedEvents ack, Accepts (stolenEventCheck (retainedEvents outcome) p))
      ↔ ¬ SharedEvent outcome ack := by
    constructor
    · rintro h ⟨p, hp, e, he, other, hother, hne, hmem⟩
      exact accepts_stolenEventCheck.mp (h p hp) e he other hother hne hmem
    · intro h p hp
      rw [accepts_stolenEventCheck]
      intro e he other hother hne hmem
      exact h ⟨p, hp, e, he, other, hother, hne, hmem⟩
  have hmatch : (cursorMismatch (committedAnchors ack) (retainedThrough outcome)
      || eventMismatch (retainedEvents ack) (retainedEvents outcome)) = false
        ↔ AckMatches outcome ack := by
    rw [Bool.or_eq_false_iff, cursorMismatch_eq_false, eventMismatch_eq_false]
    rfl
  have hsplit : Accepts (ackAgainst ack outcome) ↔
      (∀ p ∈ committedAnchors ack, Accepts (stolenAnchorCheck (retainedThrough outcome) p)) ∧
      (∀ p ∈ retainedEvents ack, Accepts (stolenEventCheck (retainedEvents outcome) p)) ∧
      (cursorMismatch (committedAnchors ack) (retainedThrough outcome)
        || eventMismatch (retainedEvents ack) (retainedEvents outcome)) = false := by
    unfold ackAgainst
    simp only [accepts_bind, accepts_checkEach, accepts_reject]
    rfl
  rw [hsplit, hshared, hmatch]
  constructor
  · rintro ⟨-, hnone, hall⟩
    exact ⟨hall, hnone⟩
  · rintro ⟨hall, hnone⟩
    exact ⟨fun p hp => accepts_stolenAnchorCheck (hall.1 p hp), hnone, hall⟩

end checks

/-! ## One outcome and its ack -/

section pair

variable {outcome ack : Json} (hout : messageType outcome = some "poll_cycle_outcome")
  (hack : messageType ack = some "poll_cycle_ack")
  (href : ack.strField "outcome_ref" = outcome.strField "message_id")

include hout hack href in
/-- An outcome and the ack that cites it are checked against each other. -/
theorem accepts_ackRules_pair :
    Accepts (ackRules [outcome, ack]) ↔ AckMatches outcome ack ∧ ¬ SharedEvent outcome ack := by
  have houts : ofType "poll_cycle_outcome" [outcome, ack] = [outcome] := by
    simp [ofType, hout, hack]
  have hacks : ofType "poll_cycle_ack" [outcome, ack] = [ack] := by
    simp [ofType, hout, hack]
  have hcited : citedOutcome [outcome] ack = some outcome := by
    simp [citedOutcome, href]
  unfold ackRules
  rw [houts, hacks, accepts_checkEach]
  simp only [List.mem_singleton, forall_eq, hcited]
  exact accepts_ackAgainst

include hout hack href in
/-- **The ack rule is exact** unless a matching ack names an event id that the outcome retained
under two registrations. -/
theorem ackRules_exact_iff :
    (Accepts (ackRules [outcome, ack]) ↔ AckMatches outcome ack) ↔
      ¬ (AckMatches outcome ack ∧ SharedEvent outcome ack) := by
  rw [accepts_ackRules_pair hout hack href]
  tauto

end pair

open Documents

theorem ackRules_exact_iff_base :
    (Accepts (ackRules [base.document,
        ack "msg:ack-1" "waiter:a" "msg:out-1" base.retainedThrough base.retainedEvents]) ↔
      AckMatches base.document
        (ack "msg:ack-1" "waiter:a" "msg:out-1" base.retainedThrough base.retainedEvents)) ↔
    ¬ (AckMatches base.document
        (ack "msg:ack-1" "waiter:a" "msg:out-1" base.retainedThrough base.retainedEvents) ∧
      SharedEvent base.document
        (ack "msg:ack-1" "waiter:a" "msg:out-1" base.retainedThrough base.retainedEvents)) :=
  ackRules_exact_iff (by decide +kernel) (by decide +kernel) (by decide +kernel)

/-- An outcome that retained one event id under two registrations. -/
def sharedOutcome : Outcome :=
  { base with
    events := [event "reg:a" "evt:1", event "reg:b" "evt:1"]
    retainedThrough := [("reg:a", "anc:after-1"), ("reg:b", "anc:after-1")]
    retainedEvents := [("reg:a", ["evt:1"]), ("reg:b", ["evt:1"])] }

/-- **The ack that copies the retained maps is rejected** where the outcome retained one event id
under two registrations. -/
theorem copied_ack_rejected :
    let copied := ack "msg:ack-1" "waiter:a" "msg:out-1" sharedOutcome.retainedThrough
      sharedOutcome.retainedEvents
    Validate.individuallyValid (fun _ => none) sharedOutcome.document = true ∧
      Validate.individuallyValid (fun _ => none) copied = true ∧
      copied.get "retained_events" = sharedOutcome.document.get "retained_events" ∧
      copied.get "committed_anchors" = sharedOutcome.document.get "retained_through" ∧
      AckMatches sharedOutcome.document copied ∧
      ¬ Accepts (ackRules [sharedOutcome.document, copied]) := by
  decide +kernel

end SetRules

end Waitprims
