import Mathlib
import Waitprims.Core.SetSpec
import Waitprims.Core.AckRules
import Waitprims.Testkit.Documents

/-! # Two waiters in one list

The starvation rule groups outcomes by waiter. The other rules about poll cycles do not look at the
waiter: every outcome is held against the required arms of every request, an ack against any outcome
it cites, and the first outcome against the last.

* **`CrossCovered`**, **`CrossAcked`**, **`EndsApart`** — what the three rules ask across waiters.
* **`cycleRules_union_iff`** — two accepted lists pass together where they meet that. -/

namespace Waitprims

namespace SetRules

/-! ## Sorting a part -/

section parts

variable {α : Type} {r : α → α → Prop} [DecidableRel r] {p : α → Bool}

/-- An element that is kept is inserted into the kept part. -/
theorem filter_orderedInsert_pos [IsTrans α r] {a : α} {l : List α} (hsorted : l.Pairwise r)
    (ha : p a = true) :
    (l.orderedInsert r a).filter p = (l.filter p).orderedInsert r a := by
  induction l with
  | nil => simp [ha]
  | cons b l ih =>
    obtain ⟨hb, hl⟩ := List.pairwise_cons.mp hsorted
    by_cases hab : r a b
    · rw [List.orderedInsert_cons_of_le _ _ hab, List.filter_cons_of_pos ha]
      by_cases hpb : p b = true
      · rw [List.filter_cons_of_pos hpb, List.orderedInsert_cons_of_le _ _ hab]
      · rw [List.filter_cons_of_neg hpb]
        cases hrest : l.filter p with
        | nil => rfl
        | cons c rest =>
          have hc : c ∈ l := (List.mem_filter.mp (hrest ▸ List.mem_cons_self)).1
          rw [List.orderedInsert_cons_of_le _ _ (IsTrans.trans _ _ _ hab (hb c hc))]
    · rw [List.orderedInsert_of_not_le _ _ hab]
      by_cases hpb : p b = true
      · rw [List.filter_cons_of_pos hpb, List.filter_cons_of_pos hpb, ih hl,
          List.orderedInsert_of_not_le _ _ hab]
      · rw [List.filter_cons_of_neg hpb, List.filter_cons_of_neg hpb, ih hl]

/-- An element that is dropped leaves the kept part alone. -/
theorem filter_orderedInsert_neg {a : α} {l : List α} (ha : ¬ p a = true) :
    (l.orderedInsert r a).filter p = l.filter p := by
  induction l with
  | nil => simp [ha]
  | cons b l ih =>
    by_cases hab : r a b
    · rw [List.orderedInsert_cons_of_le _ _ hab, List.filter_cons_of_neg ha]
    · rw [List.orderedInsert_of_not_le _ _ hab, List.filter_cons, List.filter_cons, ih]

/-- **A part is sorted as in the whole.** -/
theorem filter_insertionSort [IsTrans α r] [Std.Total r] (l : List α) :
    (l.insertionSort r).filter p = (l.filter p).insertionSort r := by
  induction l with
  | nil => rfl
  | cons a l ih =>
    rw [List.insertionSort_cons]
    by_cases ha : p a = true
    · rw [filter_orderedInsert_pos (List.pairwise_insertionSort r l) ha, ih,
        List.filter_cons_of_pos ha, List.insertionSort_cons]
    · rw [filter_orderedInsert_neg ha, ih, List.filter_cons_of_neg ha]

end parts

section ends

variable {outs : List Json} {p : Json → Bool} {first last : Json}

theorem sortByCreated_filter (outs : List Json) :
    sortByCreated (outs.filter p) = (sortByCreated outs).filter p :=
  have : IsTrans Json fun a b => createdText a ≤ createdText b := ⟨fun _ _ _ => le_trans⟩
  have : Std.Total fun a b : Json => createdText a ≤ createdText b := ⟨fun _ _ => le_total _ _⟩
  (filter_insertionSort outs).symm

/-- The first outcome is the first of its part. -/
theorem earliest_filter (h : earliest outs = some first) (hp : p first = true) :
    earliest (outs.filter p) = some first := by
  obtain ⟨rest, hsorted⟩ : ∃ rest, sortByCreated outs = first :: rest :=
    List.head?_eq_some_iff.mp h
  rw [earliest, sortByCreated_filter, hsorted, List.filter_cons_of_pos hp, List.head?_cons]

/-- The last outcome is the last of its part. -/
theorem latest_filter (h : latest outs = some last) (hp : p last = true) :
    latest (outs.filter p) = some last := by
  obtain ⟨front, hsorted⟩ : ∃ front, sortByCreated outs = front ++ [last] :=
    List.getLast?_eq_some_iff.mp h
  have hlast : [last].filter p = [last] := by
    rw [List.filter_cons_of_pos hp, List.filter_nil]
  rw [latest, sortByCreated_filter, hsorted, List.filter_append, hlast, List.getLast?_concat]

end ends

/-! ## The documents of a waiter -/

/-- The waiter a document names. -/
def waiterId (document : Json) : Option String := document.strField "waiter_id"

/-- The documents of one waiter. -/
def ofWaiter (waiter : String) (documents : List Json) : List Json :=
  documents.filter fun d => waiterId d == some waiter

/-- The poll outcomes of a list. -/
abbrev pollOutcomes (documents : List Json) : List Json := ofType "poll_cycle_outcome" documents

/-- The acks of a list. -/
abbrev acks (documents : List Json) : List Json := ofType "poll_cycle_ack" documents

/-- **Two waiters**: every document is of one or the other, and no message id is of both. -/
structure TwoWaiters (a b : String) (documents : List Json) : Prop where
  ne : a ≠ b
  either : ∀ d ∈ documents, waiterId d = some a ∨ waiterId d = some b
  ids : ∀ d ∈ ofWaiter a documents, ∀ e ∈ ofWaiter b documents,
    d.strField "message_id" ≠ e.strField "message_id"

variable {documents : List Json} {a b : String}

theorem mem_ofWaiter {waiter : String} {d : Json} :
    d ∈ ofWaiter waiter documents ↔ d ∈ documents ∧ waiterId d = some waiter := by
  simp [ofWaiter]

theorem ofType_ofWaiter (kind waiter : String) :
    ofType kind (ofWaiter waiter documents) = ofWaiter waiter (ofType kind documents) := by
  unfold ofType ofWaiter
  rw [List.filter_filter, List.filter_filter]
  congr 1
  funext d
  rw [Bool.and_comm]

theorem TwoWaiters.symm (h : TwoWaiters a b documents) : TwoWaiters b a documents where
  ne := h.ne.symm
  either := fun d hd => (h.either d hd).symm
  ids := fun d hd e he heq => h.ids e he d hd heq.symm

/-- A document of some type is of one of the two waiters. -/
theorem TwoWaiters.mem_or (h : TwoWaiters a b documents) {kind : String} {d : Json}
    (hd : d ∈ ofType kind documents) :
    d ∈ ofType kind (ofWaiter a documents) ∨ d ∈ ofType kind (ofWaiter b documents) := by
  rw [ofType_ofWaiter, ofType_ofWaiter, mem_ofWaiter, mem_ofWaiter]
  rcases h.either d (mem_ofType.mp hd).1 with ha | hb
  · exact Or.inl ⟨hd, ha⟩
  · exact Or.inr ⟨hd, hb⟩

theorem mem_of_ofWaiter {kind waiter : String} {d : Json}
    (hd : d ∈ ofType kind (ofWaiter waiter documents)) : d ∈ ofType kind documents := by
  rw [ofType_ofWaiter] at hd
  exact (mem_ofWaiter.mp hd).1

/-! ## Coverage across waiters -/

/-- The complete outcomes of one waiter have the arms the requests of the other require. -/
def CrossCovered (a b : String) (documents : List Json) : Prop :=
  ∀ out ∈ pollOutcomes (ofWaiter a documents), CoversArms (requiredArms (ofWaiter b documents)) out

theorem mem_requiredArms {arm : String} : arm ∈ requiredArms documents ↔
    ∃ d ∈ ofType "poll_cycle_request" documents,
      arm ∈ ((d.arrayField "required_arms").getD []).filterMap Json.asStr := by
  rw [requiredArms, List.mem_flatMap]

theorem TwoWaiters.mem_requiredArms (h : TwoWaiters a b documents) {arm : String} :
    arm ∈ requiredArms documents ↔
      arm ∈ requiredArms (ofWaiter a documents) ∨ arm ∈ requiredArms (ofWaiter b documents) := by
  simp only [SetRules.mem_requiredArms]
  constructor
  · rintro ⟨d, hd, harm⟩
    rcases h.mem_or hd with hd | hd
    · exact Or.inl ⟨d, hd, harm⟩
    · exact Or.inr ⟨d, hd, harm⟩
  · rintro (⟨d, hd, harm⟩ | ⟨d, hd, harm⟩)
    · exact ⟨d, mem_of_ofWaiter hd, harm⟩
    · exact ⟨d, mem_of_ofWaiter hd, harm⟩

theorem coversArms_or {required left right : List String} {out : Json}
    (h : ∀ arm, arm ∈ required ↔ arm ∈ left ∨ arm ∈ right) :
    CoversArms required out ↔ CoversArms left out ∧ CoversArms right out := by
  unfold CoversArms
  simp only [h]
  constructor
  · intro hall
    exact ⟨fun hc arm harm => hall hc arm (Or.inl harm),
      fun hc arm harm => hall hc arm (Or.inr harm)⟩
  · rintro ⟨hleft, hright⟩ hc arm (harm | harm)
    · exact hleft hc arm harm
    · exact hright hc arm harm

/-- **Coverage** of two lists that pass alone. -/
theorem TwoWaiters.coverage (h : TwoWaiters a b documents)
    (ha : Accepts (coverageCardinality (ofWaiter a documents)))
    (hb : Accepts (coverageCardinality (ofWaiter b documents))) :
    Accepts (coverageCardinality documents) ↔
      CrossCovered a b documents ∧ CrossCovered b a documents := by
  rw [accepts_coverageCardinality] at ha hb ⊢
  have hsplit : ∀ out, CoversArms (requiredArms documents) out ↔
      CoversArms (requiredArms (ofWaiter a documents)) out ∧
        CoversArms (requiredArms (ofWaiter b documents)) out :=
    fun out => coversArms_or fun arm => h.mem_requiredArms
  constructor
  · intro hall
    exact ⟨fun out hout => ((hsplit out).mp (hall out (mem_of_ofWaiter hout))).2,
      fun out hout => ((hsplit out).mp (hall out (mem_of_ofWaiter hout))).1⟩
  · rintro ⟨hab, hba⟩ out hout
    rw [hsplit]
    rcases h.mem_or hout with hmem | hmem
    · exact ⟨ha out hmem, hab out hmem⟩
    · exact ⟨hba out hmem, hb out hmem⟩

/-! ## Acks across waiters -/

/-- The acks of one waiter match the outcomes of the other they cite. -/
def CrossAcked (a b : String) (documents : List Json) : Prop :=
  ∀ ack ∈ acks (ofWaiter a documents), ∀ out,
    citedOutcome (pollOutcomes (ofWaiter b documents)) ack = some out →
      AckMatches out ack ∧ ¬ SharedEvent out ack

/-- The outcome cited among all outcomes is the one cited among those of a waiter that has one with
the id, since the other has none. -/
theorem TwoWaiters.cited (h : TwoWaiters a b documents) {ack out : Json}
    (hcited : citedOutcome (pollOutcomes (ofWaiter a documents)) ack = some out) :
    citedOutcome (pollOutcomes documents) ack = some out := by
  have hpart : pollOutcomes (ofWaiter a documents) = ofWaiter a (pollOutcomes documents) :=
    ofType_ofWaiter _ _
  obtain ⟨hout, hid⟩ := citedOutcome_some hcited
  rw [hpart] at hcited
  unfold citedOutcome ofWaiter at hcited
  rw [List.find?_filter] at hcited
  unfold citedOutcome
  rw [← hcited]
  refine List.find?_congr fun d hd => ?_
  by_cases hcites : d.strField "message_id" = ack.strField "outcome_ref"
  · -- A document with the cited id is of the waiter of `out`.
    have hwaiter : waiterId d = some a := by
      rcases h.mem_or hd with hmem | hmem
      · exact (mem_ofWaiter.mp (mem_ofType.mp hmem).1).2
      · exact absurd (hid.trans hcites.symm)
          (h.ids out (mem_ofType.mp hout).1 d (mem_ofType.mp hmem).1)
    simp [hcites, hwaiter]
  · simp [hcites]

theorem TwoWaiters.cited_or (h : TwoWaiters a b documents) {ack out : Json}
    (hcited : citedOutcome (pollOutcomes documents) ack = some out) :
    citedOutcome (pollOutcomes (ofWaiter a documents)) ack = some out ∨
      citedOutcome (pollOutcomes (ofWaiter b documents)) ack = some out := by
  obtain ⟨hout, hid⟩ := citedOutcome_some hcited
  have hfind : ∀ {waiter : String}, out ∈ pollOutcomes (ofWaiter waiter documents) →
      ∃ out', citedOutcome (pollOutcomes (ofWaiter waiter documents)) ack = some out' := by
    intro waiter hmem
    refine Option.isSome_iff_exists.mp ?_
    rw [citedOutcome, List.find?_isSome]
    exact ⟨out, hmem, by simpa using hid⟩
  rcases h.mem_or hout with hmem | hmem
  · obtain ⟨out', hcited'⟩ := hfind hmem
    have hsame := h.cited hcited'
    rw [hcited] at hsame
    exact Or.inl (hsame ▸ hcited')
  · obtain ⟨out', hcited'⟩ := hfind hmem
    have hsame := h.symm.cited hcited'
    rw [hcited] at hsame
    exact Or.inr (hsame ▸ hcited')

/-- **Acks** of two lists that pass alone. -/
theorem TwoWaiters.acked (h : TwoWaiters a b documents)
    (ha : Accepts (ackRules (ofWaiter a documents)))
    (hb : Accepts (ackRules (ofWaiter b documents))) :
    Accepts (ackRules documents) ↔ CrossAcked a b documents ∧ CrossAcked b a documents := by
  rw [accepts_ackRules] at ha hb ⊢
  constructor
  · intro hall
    constructor
    · intro ack hack out hcited
      exact accepts_ackAgainst.mp (hall ack (mem_of_ofWaiter hack) out (h.symm.cited hcited))
    · intro ack hack out hcited
      exact accepts_ackAgainst.mp (hall ack (mem_of_ofWaiter hack) out (h.cited hcited))
  · rintro ⟨hab, hba⟩ ack hack out hcited
    rcases h.mem_or hack with hmem | hmem
    · rcases h.cited_or hcited with hout | hout
      · exact ha ack hmem out hout
      · exact accepts_ackAgainst.mpr (hab ack hmem out hout)
    · rcases h.cited_or hcited with hout | hout
      · exact accepts_ackAgainst.mpr (hba ack hmem out hout)
      · exact hb ack hmem out hout

/-! ## Starvation across waiters -/

theorem outcomesOf_ofWaiter (h : TwoWaiters a b documents) :
    outcomesOf a documents = outcomesOf a (ofWaiter a documents) := by
  unfold outcomesOf
  rw [ofType_ofWaiter]
  unfold ofWaiter
  rw [List.filter_filter]
  refine List.filter_congr fun d hd => ?_
  rcases h.either d (mem_ofType.mp hd).1 with hwaiter | hwaiter
  · have hfield : d.strField "waiter_id" = some a := hwaiter
    simp [waiterOf, waiterId, hfield]
  · have hfield : d.strField "waiter_id" = some b := hwaiter
    simp [waiterOf, waiterId, hfield]

/-- **Starvation** is decided waiter by waiter. -/
theorem TwoWaiters.fairness (h : TwoWaiters a b documents)
    (ha : Accepts (fairnessStarvation (ofWaiter a documents)))
    (hb : Accepts (fairnessStarvation (ofWaiter b documents))) :
    Accepts (fairnessStarvation documents) := by
  rw [accepts_fairnessStarvation] at ha hb ⊢
  intro waiter
  by_cases hwa : waiter = a
  · rw [hwa, outcomesOf_ofWaiter h]
    exact ha a
  · by_cases hwb : waiter = b
    · rw [hwb, outcomesOf_ofWaiter h.symm]
      exact hb b
    · have hnone : outcomesOf waiter documents = [] := by
        rw [outcomesOf, List.filter_eq_nil_iff]
        intro d hd
        rcases h.either d (mem_ofType.mp hd).1 with hwaiter | hwaiter
        · have hfield : d.strField "waiter_id" = some a := hwaiter
          simpa [waiterOf, hfield] using Ne.symm hwa
        · have hfield : d.strField "waiter_id" = some b := hwaiter
          simpa [waiterOf, hfield] using Ne.symm hwb
      rw [hnone]
      exact Or.inl (by decide)

/-! ## The silent advance across waiters -/

/-- **The ends compare well** where they are of different waiters. -/
def EndsApart (documents : List Json) : Prop :=
  ∀ first last, earliest (pollOutcomes documents) = some first →
    latest (pollOutcomes documents) = some last → waiterId first ≠ waiterId last →
    silentlyAdvanced first last = false

/-- An outcome advances nothing past itself. -/
theorem silentlyAdvanced_self (out : Json) : silentlyAdvanced out out = false := by
  have hlost : lostEvent out out = false := by
    rw [lostEvent, List.any_eq_false]
    intro id hid
    simp [hid]
  rw [silentlyAdvanced, hlost, Bool.false_and]

/-- Ends of one waiter compare as they do without the other. -/
theorem TwoWaiters.same_waiter {first last : Json}
    (ha : Accepts (silentCursorAdvance (ofWaiter a documents))) (hexempt : ¬ Exempt documents)
    (hfirst : earliest (pollOutcomes documents) = some first)
    (hlast : latest (pollOutcomes documents) = some last)
    (hwfirst : waiterId first = some a) (hwlast : waiterId last = some a) :
    silentlyAdvanced first last = false := by
  have hpart : pollOutcomes (ofWaiter a documents) = ofWaiter a (pollOutcomes documents) :=
    ofType_ofWaiter _ _
  have hfirst' : earliest (pollOutcomes (ofWaiter a documents)) = some first := by
    rw [hpart]
    exact earliest_filter hfirst (by simpa using hwfirst)
  have hlast' : latest (pollOutcomes (ofWaiter a documents)) = some last := by
    rw [hpart]
    exact latest_filter hlast (by simpa using hwlast)
  rcases accepts_silentCursorAdvance.mp ha with (hacks | hshort) | hnot
  · -- An ack of the waiter exempts the whole list.
    obtain ⟨ack, hack⟩ := List.exists_mem_of_ne_nil _ hacks
    exact absurd (Or.inl (List.ne_nil_of_mem (mem_of_ofWaiter hack))) hexempt
  · -- A single outcome is both ends.
    have hmem := (earliest_some hfirst').1
    have hmem' := (latest_some hlast').1
    have hone : (pollOutcomes (ofWaiter a documents)).length = 1 := by
      have hpos := List.length_pos_of_mem hmem
      have hlt : (pollOutcomes (ofWaiter a documents)).length < 2 := hshort
      omega
    obtain ⟨only, honly⟩ := List.length_eq_one_iff.mp hone
    rw [honly, List.mem_singleton] at hmem hmem'
    rw [hmem, hmem', silentlyAdvanced_self]
  · cases hadv : silentlyAdvanced first last with
    | false => rfl
    | true => exact absurd ⟨first, last, hfirst', hlast', hadv⟩ hnot

/-- **The silent advance** of two lists that pass alone. -/
theorem TwoWaiters.silent (h : TwoWaiters a b documents)
    (ha : Accepts (silentCursorAdvance (ofWaiter a documents)))
    (hb : Accepts (silentCursorAdvance (ofWaiter b documents))) :
    Accepts (silentCursorAdvance documents) ↔ Exempt documents ∨ EndsApart documents := by
  rw [accepts_silentCursorAdvance]
  by_cases hexempt : Exempt documents
  · exact iff_of_true (Or.inl hexempt) (Or.inl hexempt)
  rw [or_iff_right hexempt, or_iff_right hexempt]
  constructor
  · intro hnot first last hfirst hlast _
    cases hadv : silentlyAdvanced first last with
    | false => rfl
    | true => exact absurd ⟨first, last, hfirst, hlast, hadv⟩ hnot
  · rintro hapart ⟨first, last, hfirst, hlast, hadv⟩
    have hsame : silentlyAdvanced first last = false := by
      have hwfirst := h.either first (mem_ofType.mp (earliest_some hfirst).1).1
      have hwlast := h.either last (mem_ofType.mp (latest_some hlast).1).1
      by_cases hwaiter : waiterId first = waiterId last
      · rcases hwfirst with hwa | hwb
        · exact TwoWaiters.same_waiter ha hexempt hfirst hlast hwa (hwaiter ▸ hwa)
        · exact TwoWaiters.same_waiter hb hexempt hfirst hlast hwb (hwaiter ▸ hwb)
      · exact hapart first last hfirst hlast hwaiter
    rw [hsame] at hadv
    cases hadv

/-! ## Two accepted lists together -/

/-- The four rules about poll cycles. -/
def CycleRules (documents : List Json) : Prop :=
  Accepts (coverageCardinality documents) ∧ Accepts (ackRules documents) ∧
    Accepts (fairnessStarvation documents) ∧ Accepts (silentCursorAdvance documents)

theorem cycleRules_of_setRules (h : Accepts (setRules documents)) : CycleRules documents := by
  obtain ⟨hcoverage, hack, hfairness, hsilent, -, -⟩ := accepts_setRules.mp h
  exact ⟨hcoverage, hack, hfairness, hsilent⟩

/-- **The four rules accept two accepted lists together** exactly where the complete outcomes of each
waiter have the arms the other requires, acks match the outcomes of the other waiter they cite, and
the ends compare well if they are of different waiters. -/
theorem cycleRules_union_iff (h : TwoWaiters a b documents)
    (ha : Accepts (setRules (ofWaiter a documents)))
    (hb : Accepts (setRules (ofWaiter b documents))) :
    CycleRules documents ↔
      (CrossCovered a b documents ∧ CrossCovered b a documents) ∧
      (CrossAcked a b documents ∧ CrossAcked b a documents) ∧
      (Exempt documents ∨ EndsApart documents) := by
  obtain ⟨hcoverage, hack, hfairness, hsilent⟩ := cycleRules_of_setRules ha
  obtain ⟨hcoverage', hack', hfairness', hsilent'⟩ := cycleRules_of_setRules hb
  rw [CycleRules, h.coverage hcoverage hcoverage', h.acked hack hack', h.silent hsilent hsilent',
    and_iff_right (h.fairness hfairness hfairness')]

open Documents

/-- A cycle of another waiter, half an hour after `base`, over its own event. -/
def otherWaiter : Outcome :=
  { base with
    messageId := "msg:out-2"
    createdAt := "2026-08-15T16:30:00Z"
    waiter := "waiter:b"
    events := [event "reg:a" "evt:2"]
    proposed := [("reg:a", "anc:after-2")]
    retainedEvents := [("reg:a", ["evt:2"])] }

/-- The outcomes of two waiters, each of which passes alone. -/
def twoCycles : List Json := [base.document, otherWaiter.document]

theorem twoCycles_waiters : TwoWaiters "waiter:a" "waiter:b" twoCycles where
  ne := by decide
  either := by decide +kernel
  ids := by decide +kernel

theorem cycleRules_union_iff_twoCycles :
    CycleRules twoCycles ↔
      (CrossCovered "waiter:a" "waiter:b" twoCycles ∧
        CrossCovered "waiter:b" "waiter:a" twoCycles) ∧
      (CrossAcked "waiter:a" "waiter:b" twoCycles ∧ CrossAcked "waiter:b" "waiter:a" twoCycles) ∧
      (Exempt twoCycles ∨ EndsApart twoCycles) :=
  cycleRules_union_iff twoCycles_waiters (by decide +kernel) (by decide +kernel)

/-- **One waiter's outcome is compared with another's**: the event of the first is missing from the
last. -/
theorem other_waiter_rejected :
    (∀ document ∈ twoCycles, Validate.individuallyValid (fun _ => none) document = true) ∧
      (∀ document ∈ twoCycles,
        waiterId document = some "waiter:a" ∨ waiterId document = some "waiter:b") ∧
      (∀ d ∈ ofWaiter "waiter:a" twoCycles, ∀ e ∈ ofWaiter "waiter:b" twoCycles,
        d.strField "message_id" ≠ e.strField "message_id") ∧
      Accepts (setRules (ofWaiter "waiter:a" twoCycles)) ∧
      Accepts (setRules (ofWaiter "waiter:b" twoCycles)) ∧
      ¬ Accepts (silentCursorAdvance twoCycles) := by
  decide +kernel

end SetRules

end Waitprims
