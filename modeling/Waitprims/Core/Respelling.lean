import Mathlib
import Waitprims.Core.SetSpec
import Waitprims.Core.Rfc3339
import Waitprims.Lib.StableSort
import Waitprims.Testkit.Documents

/-! # The spelling of an instant

An instant has many spellings: another offset, trailing zeros of the fraction, `Z` or `+00:00`. Five
of the rules read no `created_at` at all, or read it only to order outcomes whose order they then
ignore. The comparison of the first outcome with the last orders them by the text.

* **`Respelled`** — a document whose `created_at` is another text of the same instant.
* **`otherRules_respelled`** — the five rules do not see the spelling.
* **`SameEnds`** — the same outcomes come first and last by their texts in two lists.
* **`setRules_respelled`** — then the verdict does not change. -/

namespace Waitprims

namespace SetRules

open Json (lookup)

/-! ## Documents without their time -/

/-- The document with another text in `created_at`. -/
def setCreated (text : String) : Json → Json
  | .obj members =>
    .obj (members.map fun p => if p.1 = "created_at" then (p.1, .str text) else p)
  | value => value

/-- The document without `created_at`. -/
def erase : Json → Json
  | .obj members => .obj (members.filter fun p => p.1 != "created_at")
  | value => value

/-- **A document with another spelling of its time**: both texts parse, to equal instants. -/
def Respelled (document document' : Json) : Prop :=
  document' = document ∨
    ∃ text text' time time',
      document.strField "created_at" = some text ∧ Timestamp.parse text = .ok time ∧
      Timestamp.parse text' = .ok time' ∧ time.compare time' = 0 ∧
      document' = setCreated text' document

/-- Another time is gone without the times. -/
theorem erase_setCreated (text : String) (document : Json) :
    erase (setCreated text document) = erase document := by
  cases document with
  | obj members =>
    show Json.obj _ = Json.obj _
    congr 1
    induction members with
    | nil => rfl
    | cons p rest ih =>
      by_cases hp : p.1 = "created_at"
      · simp [hp, ih]
      · simp [hp, ih]
  | _ => rfl

/-- Respelled documents are equal without their times. -/
theorem erase_respelled {document document' : Json} (h : Respelled document document') :
    erase document = erase document' := by
  rcases h with rfl | ⟨_, _, _, _, -, -, -, -, rfl⟩
  · rfl
  · exact (erase_setCreated _ _).symm

/-- Respelled lists are equal without their times. -/
theorem map_erase_respelled {documents documents' : List Json}
    (h : List.Forall₂ Respelled documents documents') :
    documents.map erase = documents'.map erase := by
  induction h with
  | nil => rfl
  | cons hhead _ ih => rw [List.map_cons, List.map_cons, erase_respelled hhead, ih]

/-! ## Members other than the time -/

/-- Every other member is kept. -/
theorem get_erase {key : String} (hkey : key ≠ "created_at") (document : Json) :
    (erase document).get key = document.get key := by
  cases document with
  | obj members =>
    show lookup key (members.filter _) = lookup key members
    induction members with
    | nil => rfl
    | cons p rest ih =>
      obtain ⟨k, v⟩ := p
      by_cases hk : k = "created_at"
      · have hne : k ≠ key := fun h => hkey (h ▸ hk)
        rw [List.filter_cons_of_neg (by simpa using hk), ih]
        simp [lookup, hne]
      · rw [List.filter_cons_of_pos (by simpa using hk)]
        simp only [lookup, ih]
  | _ => rfl

section erased

variable {key : String} (hkey : key ≠ "created_at") (document : Json)

include hkey

/-- A text member is read the same. -/
theorem strField_erase : (erase document).strField key = document.strField key := by
  rw [Json.strField, Json.strField, get_erase hkey]

/-- A list member is read the same. -/
theorem arrayField_erase : (erase document).arrayField key = document.arrayField key := by
  rw [Json.arrayField, Json.arrayField, get_erase hkey]

/-- A flag is read the same. -/
theorem isTrueField_erase : (erase document).isTrueField key = document.isTrueField key := by
  rw [Json.isTrueField, Json.isTrueField, get_erase hkey]

/-- A nested member is read the same. -/
theorem pointer_erase (inner : String) :
    (erase document).pointer key inner = document.pointer key inner := by
  rw [Json.pointer, Json.pointer, get_erase hkey]

end erased

section readers

variable (document : Json)

/-- The type does not read the time. -/
@[simp] theorem messageType_erase : messageType (erase document) = messageType document :=
  strField_erase (by decide) document

/-- The arms do not read the time. -/
@[simp] theorem armsOf_erase : armsOf (erase document) = armsOf document := by
  rw [armsOf, armsOf, arrayField_erase (by decide)]

/-- The waiter does not read the time. -/
@[simp] theorem waiterOf_erase : waiterOf (erase document) = waiterOf document := by
  rw [waiterOf, waiterOf, strField_erase (by decide)]

/-- The event ids do not read the time. -/
@[simp] theorem eventIds_erase : eventIds (erase document) = eventIds document := by
  rw [eventIds, eventIds, arrayField_erase (by decide)]

/-- The arm ids do not read the time. -/
@[simp] theorem armIds_erase : armIds (erase document) = armIds document := by
  rw [armIds, armIds, armsOf_erase]

end readers

variable {documents documents' : List Json}

/-- The documents of one type are picked without their times. -/
@[simp] theorem ofType_erase (kind : String) :
    ofType kind (documents.map erase) = (ofType kind documents).map erase := by
  unfold ofType
  rw [List.filter_map]
  congr 2
  funext document
  rw [Function.comp, messageType_erase]

/-- The requests are picked without their times. -/
@[simp] theorem requests_erase :
    requests (documents.map erase) = (requests documents).map erase := by
  unfold requests
  rw [List.filter_map]
  congr 2
  funext document
  rw [Function.comp, messageType_erase]

/-- The outcomes are picked without their times. -/
@[simp] theorem outcomes_erase :
    outcomes (documents.map erase) = (outcomes documents).map erase := by
  unfold outcomes
  rw [List.filter_map]
  congr 2
  funext document
  rw [Function.comp, messageType_erase]

/-- A check of erased elements is a check of the elements. -/
theorem accepts_checkEach_map {α β : Type} {check : β → Except Error Unit} {f : α → β}
    {list : List α} :
    Accepts (checkEach check (list.map f)) ↔ ∀ a ∈ list, Accepts (check (f a)) := by
  rw [accepts_checkEach, List.forall_mem_map]

/-! ## The five rules -/

/-- Coverage of the required arms reads no time. -/
theorem coverage_erase : Accepts (coverageCardinality (documents.map erase)) ↔
    Accepts (coverageCardinality documents) := by
  have hrequired : requiredArms (documents.map erase) = requiredArms documents := by
    unfold requiredArms
    rw [ofType_erase, List.flatMap_map]
    congr 1
    funext document
    rw [arrayField_erase (by decide)]
  rw [accepts_coverageCardinality, accepts_coverageCardinality, ofType_erase, List.forall_mem_map,
    hrequired]
  refine forall₂_congr fun out _ => ?_
  rw [CoversArms, CoversArms, isTrueField_erase (by decide), armIds_erase]

/-- The outcome an ack cites is found without the times. -/
theorem citedOutcome_erase (outs : List Json) (ack : Json) :
    citedOutcome (outs.map erase) (erase ack) = (citedOutcome outs ack).map erase := by
  unfold citedOutcome
  rw [List.find?_map, strField_erase (by decide)]
  congr 2
  funext out
  rw [Function.comp, strField_erase (by decide)]

/-- An ack is held against its outcome without their times. -/
theorem ackAgainst_erase (ack out : Json) :
    ackAgainst (erase ack) (erase out) = ackAgainst ack out := by
  unfold ackAgainst
  rw [get_erase (by decide), get_erase (by decide), get_erase (by decide), get_erase (by decide)]

/-- The rules of acks read no time. -/
theorem ack_erase : Accepts (ackRules (documents.map erase)) ↔ Accepts (ackRules documents) := by
  rw [accepts_ackRules, accepts_ackRules, ofType_erase, ofType_erase, List.forall_mem_map]
  refine forall₂_congr fun ack _ => ?_
  rw [citedOutcome_erase]
  constructor
  · intro h out hcited
    have herased := h (erase out) (by rw [hcited, Option.map_some])
    rwa [ackAgainst_erase] at herased
  · intro h out herased
    obtain ⟨out', hcited, rfl⟩ := Option.map_eq_some_iff.mp herased
    rw [ackAgainst_erase]
    exact h out' hcited

/-- The status of an arm does not read the time. -/
theorem armStatus_erase (out : Json) (armId : String) :
    armStatus (erase out) armId = armStatus out armId := by
  rw [armStatus, armStatus, armsOf_erase]

/-- Whether an arm is starved does not depend on the times. -/
theorem starved_erase (outs : List Json) (armId : String) :
    starved (outs.map erase) armId = starved outs armId := by
  have hfrozen : cursorFrozen (outs.map erase) = cursorFrozen outs := by
    unfold cursorFrozen
    rw [List.filterMap_map]
    congr 4
    funext out
    rw [Function.comp, strField_erase (by decide)]
  unfold starved otherEvents
  rw [hfrozen, List.all_map, List.any_map]
  congr 3
  · funext out
    rw [Function.comp, armStatus_erase]
  · funext out
    rw [Function.comp, armsOf_erase]

/-- Fairness sorts the outcomes by their texts, and its verdict does not depend on the order. -/
theorem fairness_erase : Accepts (fairnessStarvation (documents.map erase)) ↔
    Accepts (fairnessStarvation documents) := by
  rw [accepts_fairnessStarvation, accepts_fairnessStarvation]
  refine forall_congr' fun waiter => ?_
  have hwaiter : outcomesOf waiter (documents.map erase)
      = (outcomesOf waiter documents).map erase := by
    unfold outcomesOf
    rw [ofType_erase, List.filter_map]
    congr 2
    funext out
    rw [Function.comp, waiterOf_erase]
  have harms : requiredArmIds ((outcomesOf waiter documents).map erase)
      = requiredArmIds (outcomesOf waiter documents) := by
    unfold requiredArmIds
    rw [List.flatMap_map]
    congr 1
    funext out
    rw [armsOf_erase]
  rw [hwaiter, NoneStarved, NoneStarved, List.length_map, harms]
  simp only [starved_erase]

/-- The revision freeze reads no time. -/
theorem revision_erase : Accepts (revisionCross (documents.map erase)) ↔
    Accepts (revisionCross documents) := by
  have hkey : "registration_revision" ≠ "created_at" := by decide
  rw [accepts_revisionCross, accepts_revisionCross, ofType_erase, requests_erase,
    List.getLast?_map]
  constructor
  · intro h set hset r hr
    have herased := h (erase set) (by rw [hset, Option.map_some]) (erase r) (List.mem_map_of_mem hr)
    rwa [strField_erase hkey, strField_erase hkey] at herased
  · intro h set' hset' r' hr'
    obtain ⟨set, hset, rfl⟩ := Option.map_eq_some_iff.mp hset'
    obtain ⟨r, hr, rfl⟩ := List.mem_map.mp hr'
    rw [strField_erase hkey, strField_erase hkey]
    exact h set hset r hr

/-- The receipts are checked without the times. -/
theorem authnCheck_erase (reqs outs : List Json) (set : Json) :
    authnCheck (reqs.map erase) (outs.map erase) (erase set) = authnCheck reqs outs set := by
  have hreqs : ((fun r : Json => (r.strField "verification_receipt_ref").isNone) ∘ erase)
      = fun r : Json => (r.strField "verification_receipt_ref").isNone := by
    funext r
    rw [Function.comp, strField_erase (by decide)]
  have houts : isClean ∘ erase = isClean := by
    funext out
    show isClean (erase out) = isClean out
    unfold isClean
    rw [strField_erase (by decide)]
  unfold authnCheck
  rw [strField_erase (by decide), List.isEmpty_map, List.any_map, List.any_map, hreqs, houts]

/-- A lease is held against `completed_at`, not against `created_at`. -/
theorem leaseCheck_erase (lease : String) (out : Json) :
    leaseCheck lease (erase out) = leaseCheck lease out := by
  unfold leaseCheck stringField
  rw [strField_erase (by decide), strField_erase (by decide)]

/-- The lease of a registration is checked without the times. -/
theorem registrationLeaseCheck_erase (outs : List Json) (registration : Json) :
    Accepts (registrationLeaseCheck (outs.map erase) registration) ↔
      Accepts (registrationLeaseCheck outs registration) := by
  unfold registrationLeaseCheck
  cases registration.strField "lease_expires_at" with
  | none => exact Iff.rfl
  | some lease =>
    show Accepts (checkEach _ _) ↔ Accepts (checkEach _ _)
    rw [accepts_checkEach_map, accepts_checkEach]
    simp only [leaseCheck_erase]

/-- The registrations do not read the time. -/
theorem registrationsOf_erase (set : Json) : registrationsOf (erase set) = registrationsOf set := by
  rw [registrationsOf, registrationsOf, arrayField_erase (by decide)]

/-- The bounds are checked without the times. -/
theorem boundsCheck_erase (set out : Json) :
    boundsCheck (erase set) (erase out) = boundsCheck set out := by
  have hevents : eventsOf (erase out) = eventsOf out := by
    rw [eventsOf, eventsOf, arrayField_erase (by decide)]
  unfold boundsCheck
  rw [pointer_erase (by decide), strField_erase (by decide), hevents, registrationsOf_erase]

/-- Authentication, leases and bounds read no `created_at`. -/
theorem authnLeaseBounds_erase : Accepts (authnLeaseBounds (documents.map erase)) ↔
    Accepts (authnLeaseBounds documents) := by
  unfold authnLeaseBounds
  simp only [ofType_erase, outcomes_erase, requests_erase, List.isEmpty_map]
  by_cases hnone : ((ofType "registration_set" documents).isEmpty
      || (outcomes documents).isEmpty) = true
  · simp only [hnone, if_true]
  · simp only [hnone, if_false, Bool.false_eq_true, accepts_bind, accepts_checkEach,
      List.forall_mem_map, authnCheck_erase, registrationsOf_erase, registrationLeaseCheck_erase,
      boundsCheck_erase]

/-- The rules other than the comparison of the first outcome with the last. -/
def OtherRules (documents : List Json) : Prop :=
  Accepts (coverageCardinality documents) ∧ Accepts (ackRules documents) ∧
    Accepts (fairnessStarvation documents) ∧ Accepts (revisionCross documents) ∧
    Accepts (authnLeaseBounds documents)

/-- The verdict is that of the five rules and of the comparison. -/
theorem accepts_setRules_split :
    Accepts (setRules documents) ↔
      OtherRules documents ∧ Accepts (silentCursorAdvance documents) := by
  rw [accepts_setRules, OtherRules]
  tauto

/-- The five rules read no time. -/
theorem otherRules_erase : OtherRules (documents.map erase) ↔ OtherRules documents := by
  unfold OtherRules
  rw [coverage_erase, ack_erase, fairness_erase, revision_erase, authnLeaseBounds_erase]

/-- **Five rules do not see the spelling** of a time. -/
theorem otherRules_respelled (h : List.Forall₂ Respelled documents documents') :
    OtherRules documents ↔ OtherRules documents' := by
  rw [← otherRules_erase, map_erase_respelled h, otherRules_erase]

/-- Whether a comparison is made does not depend on the times. -/
theorem exempt_erase : Exempt (documents.map erase) ↔ Exempt documents := by
  unfold Exempt
  rw [ofType_erase, ofType_erase, List.length_map, Ne, List.map_eq_nil_iff]

/-- A respelling leaves the exemptions. -/
theorem exempt_respelled (h : List.Forall₂ Respelled documents documents') :
    Exempt documents ↔ Exempt documents' := by
  rw [← exempt_erase, map_erase_respelled h, exempt_erase]

/-! ## The first outcome and the last -/

open StableSort

/-- **The same ends**: in both lists the same outcomes have the texts that come first and last. -/
def SameEnds (outs outs' : List Json) : Prop :=
  ∃ first last,
    (ComesFirst (outs.map createdText) first ∧ ComesFirst (outs'.map createdText) first) ∧
      ComesLast (outs.map createdText) last ∧ ComesLast (outs'.map createdText) last

/-- The comparison does not read the times. -/
theorem silentlyAdvanced_erase (first last : Json) :
    silentlyAdvanced (erase first) (erase last) = silentlyAdvanced first last := by
  unfold silentlyAdvanced lostEvent advanced
  rw [eventIds_erase, eventIds_erase, get_erase (by decide), get_erase (by decide)]

/-- Which outcomes are compared, read off the positions of their texts. -/
theorem endsAdvanced_at {outs : List Json} {first last : ℕ}
    (hfirst : ComesFirst (outs.map createdText) first)
    (hlast : ComesLast (outs.map createdText) last) :
    EndsAdvanced outs ↔ ∃ a b, (outs.map erase)[first]? = some a ∧
      (outs.map erase)[last]? = some b ∧ silentlyAdvanced a b = true := by
  -- a stable sort puts the text that comes first at its head
  have hearliest : earliest outs = outs[first]? := head?_insertionSort createdText hfirst
  have hlatest : latest outs = outs[last]? := getLast?_insertionSort createdText hlast
  rw [EndsAdvanced, hearliest, hlatest, List.getElem?_map, List.getElem?_map]
  constructor
  · rintro ⟨a, b, ha, hb, hadvanced⟩
    refine ⟨erase a, erase b, by rw [ha, Option.map_some], by rw [hb, Option.map_some], ?_⟩
    rwa [silentlyAdvanced_erase]
  · rintro ⟨_, _, ha, hb, hadvanced⟩
    obtain ⟨a, hgeta, rfl⟩ := Option.map_eq_some_iff.mp ha
    obtain ⟨b, hgetb, rfl⟩ := Option.map_eq_some_iff.mp hb
    rw [silentlyAdvanced_erase] at hadvanced
    exact ⟨a, b, hgeta, hgetb, hadvanced⟩

/-- Lists with the same ends are compared alike. -/
theorem endsAdvanced_sameEnds {outs outs' : List Json} (herase : outs.map erase = outs'.map erase)
    (hends : SameEnds outs outs') : EndsAdvanced outs ↔ EndsAdvanced outs' := by
  obtain ⟨first, last, ⟨hfirst, hfirst'⟩, hlast, hlast'⟩ := hends
  rw [endsAdvanced_at hfirst hlast, endsAdvanced_at hfirst' hlast', herase]

/-- The outcomes of respelled documents are equal without their times. -/
theorem outcomes_respelled (h : List.Forall₂ Respelled documents documents') :
    (ofType "poll_cycle_outcome" documents).map erase
      = (ofType "poll_cycle_outcome" documents').map erase := by
  rw [← ofType_erase, map_erase_respelled h, ofType_erase]

/-! ## The order of the instants -/

/-- The instant of a document, if its time parses. -/
def instantOf (document : Json) : Option Int :=
  (Timestamp.parse (createdText document)).toOption.map Timestamp.instant

/-- **The ends are those of the instants**: all times parse, and the outcomes that come first and
last by their texts come first and last by their instants. -/
def EndsByInstant (outs : List Json) : Prop :=
  ∃ instants first last, outs.map instantOf = instants.map some ∧
    (ComesFirst (outs.map createdText) first ∧ ComesFirst instants first) ∧
      ComesLast (outs.map createdText) last ∧ ComesLast instants last

/-- The text that was set is the one that is read. -/
theorem createdText_setCreated {text text' : String} {document : Json}
    (h : document.strField "created_at" = some text) :
    createdText (setCreated text' document) = text' := by
  cases document with
  | obj members =>
    suffices hget : (setCreated text' (.obj members)).get "created_at" = some (.str text') by
      rw [createdText, Json.strField, hget]
      rfl
    show lookup "created_at" (members.map _) = _
    induction members with
    | nil => cases h
    | cons p rest ih =>
      obtain ⟨k, v⟩ := p
      by_cases hk : k = "created_at"
      · simp [lookup, hk]
      · have hrest : (Json.obj rest).strField "created_at" = some text := by
          rwa [Json.strField, Json.get, lookup, if_neg (by simpa using hk)] at h
        simpa [lookup, hk] using ih hrest
  | _ => cases h

/-- Equal under `compare` is the same instant. -/
theorem instant_eq_of_compare {t u : Timestamp} (h : t.compare u = 0) : t.instant = u.instant := by
  unfold Timestamp.compare at h
  split at h
  · cases h
  · split at h
    · assumption
    · cases h

/-- A respelling keeps the instant. -/
theorem instantOf_respelled {document document' : Json} (h : Respelled document document') :
    instantOf document = instantOf document' := by
  rcases h with rfl | ⟨text, text', time, time', hfield, hparse, hparse', hcompare, rfl⟩
  · rfl
  · have htext : createdText document = text := by rw [createdText, hfield, Option.getD_some]
    rw [instantOf, instantOf, htext, createdText_setCreated hfield, hparse, hparse']
    exact congrArg some (instant_eq_of_compare hcompare)

/-- A respelled list has the instants of the list. -/
theorem map_instantOf_respelled (h : List.Forall₂ Respelled documents documents') :
    documents.map instantOf = documents'.map instantOf := by
  induction h with
  | nil => rfl
  | cons hhead _ ih => rw [List.map_cons, List.map_cons, instantOf_respelled hhead, ih]

/-- **Ends by instant are the same ends**: where they differ, one of the two lists compares outcomes
that do not come first and last in time. -/
theorem sameEnds_of_instants (h : List.Forall₂ Respelled documents documents')
    (hends : EndsByInstant documents) (hends' : EndsByInstant documents') :
    SameEnds documents documents' := by
  obtain ⟨instants, first, last, hmap, ⟨hfirst, hfirsti⟩, hlast, hlasti⟩ := hends
  obtain ⟨instants', first', last', hmap', ⟨hfirst', hfirsti'⟩, hlast', hlasti'⟩ := hends'
  -- a respelling keeps every instant, so both lists have the same ends by instant
  have hinstants : instants = instants' := by
    apply List.map_injective_iff.mpr (Option.some_injective Int)
    rw [← hmap, ← hmap', map_instantOf_respelled h]
  subst hinstants
  obtain rfl := hfirsti.unique hfirsti'
  obtain rfl := hlasti.unique hlasti'
  exact ⟨first, last, ⟨hfirst, hfirst'⟩, hlast, hlast'⟩

/-- The outcomes of respelled documents are respelled. -/
theorem ofType_respelled (kind : String) (h : List.Forall₂ Respelled documents documents') :
    List.Forall₂ Respelled (ofType kind documents) (ofType kind documents') := by
  refine List.rel_filter (fun document document' hdocument => ?_) h
  have htype : messageType document = messageType document' := by
    rw [← messageType_erase document, ← messageType_erase document', erase_respelled hdocument]
  show (messageType document == some kind) = true ↔ (messageType document' == some kind) = true
  rw [htype]

/-! ## The verdict -/

/-- **The verdict survives a respelling** in these cases: another rule rejects, no comparison is
made, the same outcomes come first and last by their texts in both lists, or in both lists those
that come first and last by their texts do so by instant. -/
theorem setRules_respelled (h : List.Forall₂ Respelled documents documents')
    (hends : ¬ OtherRules documents ∨ Exempt documents ∨
      SameEnds (ofType "poll_cycle_outcome" documents)
        (ofType "poll_cycle_outcome" documents') ∨
      EndsByInstant (ofType "poll_cycle_outcome" documents) ∧
        EndsByInstant (ofType "poll_cycle_outcome" documents')) :
    Accepts (setRules documents) ↔ Accepts (setRules documents') := by
  have hinstants := sameEnds_of_instants (ofType_respelled "poll_cycle_outcome" h)
  -- only silent_cursor_advance reads the times
  rw [accepts_setRules_split, accepts_setRules_split, ← otherRules_respelled h,
    accepts_silentCursorAdvance, accepts_silentCursorAdvance, ← exempt_respelled h]
  rcases hends with hother | hexempt | hsame | ⟨hends, hends'⟩
  · exact iff_of_false (fun hall => hother hall.1) (fun hall => hother hall.1)
  · exact and_congr_right fun _ => iff_of_true (Or.inl hexempt) (Or.inl hexempt)
  · rw [endsAdvanced_sameEnds (outcomes_respelled h) hsame]
  · rw [endsAdvanced_sameEnds (outcomes_respelled h) (hinstants hends hends')]

open Documents

/-- The outcome of a cycle half an hour after `base`: it lost the event, and its cursor moved. -/
def later : Outcome :=
  { base with
    messageId := "msg:out-2"
    createdAt := "2026-08-15T16:30:00Z"
    events := []
    proposed := [("reg:a", "anc:after-2")] }

/-- The instant of `base`, as its text parses. -/
def baseTime (raw : String) : Timestamp := ⟨raw, 1786809600000000000⟩

/-- `base` at a text of its instant. -/
theorem base_respelled {text : String} (h : Timestamp.parse text = .ok (baseTime text)) :
    Respelled base.document (setCreated text base.document) :=
  Or.inr ⟨"2026-08-15T16:00:00Z", text, baseTime "2026-08-15T16:00:00Z", baseTime text,
    by decide +kernel, by decide +kernel, h, by simp [Timestamp.compare, baseTime], rfl⟩

/-- `base` with `+00:00` for `Z`: it still comes first, and the verdict stays. -/
theorem setRules_respelled_base :
    Accepts (setRules [base.document, later.document]) ↔
      Accepts (setRules [setCreated "2026-08-15T16:00:00+00:00" base.document, later.document]) :=
  setRules_respelled (.cons (base_respelled (by decide +kernel)) (.cons (Or.inl rfl) .nil))
    (Or.inr (Or.inr (Or.inl ⟨0, 1, by decide +kernel, by decide +kernel⟩)))

/-- **A lost event is hidden** by another spelling of the time of the outcome that delivered it. -/
theorem respelled_accepted :
    let respelled := setCreated "2026-08-15T18:00:00+02:00" base.document
    Respelled base.document respelled ∧
      Validate.individuallyValid (fun _ => none) base.document = true ∧
      Validate.individuallyValid (fun _ => none) respelled = true ∧
      Validate.individuallyValid (fun _ => none) later.document = true ∧
      ¬ Accepts (setRules [base.document, later.document]) ∧
      Accepts (setRules [respelled, later.document]) :=
  ⟨base_respelled (by decide +kernel), by decide +kernel⟩

end SetRules

end Waitprims
