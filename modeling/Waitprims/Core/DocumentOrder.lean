import Mathlib
import Waitprims.Core.SetSpec
import Waitprims.Core.AckRules
import Waitprims.Testkit.Documents

/-! # The order in which documents are passed

Three rules pick one document by its position: the revision freeze reads the last registration set,
an ack is checked against the first outcome it cites, and the sort by `created_at` keeps the order
of outcomes with equal texts.

* **`OrderFree`** — the documents among which such a pick is made agree on what the rule reads.
* **`setRules_perm`** — the rules then accept a list and every permutation of it, or neither. -/

namespace Waitprims

namespace SetRules

variable {documents documents' : List Json}

/-! ## Documents that agree where a rule picks one -/

/-- The cited outcomes agree on what the ack rule reads. -/
def CitedAgree (documents : List Json) : Prop :=
  ∀ ack ∈ ofType "poll_cycle_ack" documents,
    ∀ out ∈ ofType "poll_cycle_outcome" documents,
    ∀ out' ∈ ofType "poll_cycle_outcome" documents,
      out.strField "message_id" = ack.strField "outcome_ref" →
      out'.strField "message_id" = ack.strField "outcome_ref" →
      retainedThrough out = retainedThrough out' ∧ retainedEvents out = retainedEvents out'

/-- No outcome has a smaller text. -/
def IsFirst (outs : List Json) (out : Json) : Prop :=
  out ∈ outs ∧ ∀ other ∈ outs, createdText out ≤ createdText other

/-- No outcome has a larger text. -/
def IsLast (outs : List Json) (out : Json) : Prop :=
  out ∈ outs ∧ ∀ other ∈ outs, createdText other ≤ createdText out

/-- The outcomes with the smallest text agree on what the comparison reads, and so do those with
the largest. -/
def EndsAgree (outs : List Json) : Prop :=
  (∀ out out', IsFirst outs out → IsFirst outs out' →
    eventIds out = eventIds out' ∧
      objectMap (out.get "proposed_next_anchors") = objectMap (out'.get "proposed_next_anchors")) ∧
  (∀ out out', IsLast outs out → IsLast outs out' →
    eventIds out = eventIds out' ∧
      objectMap (out.get "proposed_next_anchors") = objectMap (out'.get "proposed_next_anchors"))

/-- **No rule has a choice**: the sets carry one revision, the cited outcomes agree, and so do the
outcomes tied for the first or the last place. -/
structure OrderFree (documents : List Json) : Prop where
  revision : ∀ set ∈ ofType "registration_set" documents,
    ∀ set' ∈ ofType "registration_set" documents,
      set.strField "registration_revision" = set'.strField "registration_revision"
  cited : CitedAgree documents
  ends : Exempt documents ∨ EndsAgree (ofType "poll_cycle_outcome" documents)

/-! ## The ack rule -/

/-- What an ack is checked against is the retained part of the outcome. -/
theorem ackAgainst_congr {ack out out' : Json}
    (hthrough : retainedThrough out = retainedThrough out')
    (hevents : retainedEvents out = retainedEvents out') :
    ackAgainst ack out = ackAgainst ack out' := by
  have hthrough' : objectMap (out.get "retained_through")
      = objectMap (out'.get "retained_through") := hthrough
  have hevents' : stringListMap (out.get "retained_events")
      = stringListMap (out'.get "retained_events") := hevents
  unfold ackAgainst
  rw [hthrough', hevents']

/-- An outcome is cited in both lists or in neither. -/
theorem citedOutcome_perm {outs outs' : List Json} (h : outs.Perm outs') {ack out : Json}
    (hcited : citedOutcome outs ack = some out) : ∃ out', citedOutcome outs' ack = some out' := by
  obtain ⟨hmem, hid⟩ := citedOutcome_some hcited
  have hsome : (citedOutcome outs' ack).isSome := by
    rw [citedOutcome, List.find?_isSome]
    exact ⟨out, h.mem_iff.mp hmem, by simpa using hid⟩
  exact Option.isSome_iff_exists.mp hsome

theorem citedAgree_perm (h : documents.Perm documents') (hagree : CitedAgree documents) :
    CitedAgree documents' := by
  intro ack hack out hout out' hout'
  exact hagree ack ((ofType_perm h _).mem_iff.mpr hack) out ((ofType_perm h _).mem_iff.mpr hout)
    out' ((ofType_perm h _).mem_iff.mpr hout')

/-- One direction for acks. -/
theorem ackRules_perm_imp (h : documents.Perm documents') (hagree : CitedAgree documents)
    (haccept : Accepts (ackRules documents)) : Accepts (ackRules documents') := by
  rw [accepts_ackRules] at haccept ⊢
  intro ack hack' out' hcited'
  have hack : ack ∈ ofType "poll_cycle_ack" documents := (ofType_perm h _).mem_iff.mpr hack'
  obtain ⟨out, hcited⟩ := citedOutcome_perm (ofType_perm h _).symm hcited'
  obtain ⟨hmem, hid⟩ := citedOutcome_some hcited
  obtain ⟨hmem', hid'⟩ := citedOutcome_some hcited'
  have hsame := hagree ack hack out hmem out' ((ofType_perm h _).mem_iff.mpr hmem') hid hid'
  rw [← ackAgainst_congr hsame.1 hsame.2]
  exact haccept ack hack out hcited

/-! ## The silent advance -/

/-- The comparison reads the events and the proposed anchors. -/
theorem silentlyAdvanced_congr {first first' last last' : Json}
    (hevents : eventIds first = eventIds first')
    (hanchors : objectMap (first.get "proposed_next_anchors")
      = objectMap (first'.get "proposed_next_anchors"))
    (hevents' : eventIds last = eventIds last')
    (hanchors' : objectMap (last.get "proposed_next_anchors")
      = objectMap (last'.get "proposed_next_anchors")) :
    silentlyAdvanced first last = silentlyAdvanced first' last' := by
  unfold silentlyAdvanced lostEvent advanced
  rw [hevents, hanchors, hevents', hanchors']

theorem sortByCreated_ne_nil {outs : List Json} (h : outs ≠ []) : sortByCreated outs ≠ [] := by
  intro hnil
  have hperm : (sortByCreated outs).Perm outs := List.perm_insertionSort _ outs
  rw [hnil] at hperm
  exact h hperm.nil_eq.symm

theorem isFirst_perm {outs outs' : List Json} (h : outs.Perm outs') {out : Json} :
    IsFirst outs out ↔ IsFirst outs' out := by
  unfold IsFirst
  simp only [h.mem_iff]

theorem isLast_perm {outs outs' : List Json} (h : outs.Perm outs') {out : Json} :
    IsLast outs out ↔ IsLast outs' out := by
  unfold IsLast
  simp only [h.mem_iff]

theorem endsAgree_perm {outs outs' : List Json} (h : outs.Perm outs') :
    EndsAgree outs ↔ EndsAgree outs' := by
  unfold EndsAgree
  simp only [isFirst_perm h, isLast_perm h]

theorem exempt_perm (h : documents.Perm documents') : Exempt documents ↔ Exempt documents' := by
  have hack := ofType_perm h "poll_cycle_ack"
  have hout := ofType_perm h "poll_cycle_outcome"
  unfold Exempt
  rw [hout.length_eq, ← List.length_pos_iff, ← List.length_pos_iff, hack.length_eq]

/-- Ends that agree are compared with one result. -/
theorem endsAdvanced_perm {outs outs' : List Json} (h : outs.Perm outs') (hagree : EndsAgree outs)
    (hadvanced : EndsAdvanced outs) : EndsAdvanced outs' := by
  obtain ⟨first, last, hfirst, hlast, hadv⟩ := hadvanced
  have hne : outs' ≠ [] := by
    rintro rfl
    exact List.not_mem_nil (h.mem_iff.mp (earliest_some hfirst).1)
  obtain ⟨first', hfirst'⟩ : ∃ first', earliest outs' = some first' :=
    ⟨_, List.head?_eq_some_head (sortByCreated_ne_nil hne)⟩
  obtain ⟨last', hlast'⟩ : ∃ last', latest outs' = some last' :=
    ⟨_, List.getLast?_eq_some_getLast (sortByCreated_ne_nil hne)⟩
  have hsame := hagree.1 first first' (earliest_some hfirst)
    ((isFirst_perm h).mpr (earliest_some hfirst'))
  have hsame' := hagree.2 last last' (latest_some hlast) ((isLast_perm h).mpr (latest_some hlast'))
  refine ⟨first', last', hfirst', hlast', ?_⟩
  rw [← silentlyAdvanced_congr hsame.1 hsame.2 hsame'.1 hsame'.2]
  exact hadv

/-! ## The verdict -/

theorem orderFree_perm (h : documents.Perm documents') (hfree : OrderFree documents) :
    OrderFree documents' where
  revision := by
    intro set hset set' hset'
    exact hfree.revision set ((ofType_perm h _).mem_iff.mpr hset) set'
      ((ofType_perm h _).mem_iff.mpr hset')
  cited := citedAgree_perm h hfree.cited
  ends := by
    rw [← exempt_perm h, ← endsAgree_perm (ofType_perm h _)]
    exact hfree.ends

theorem coverage_perm_imp (h : documents.Perm documents')
    (haccept : Accepts (coverageCardinality documents)) :
    Accepts (coverageCardinality documents') := by
  rw [accepts_coverageCardinality] at haccept ⊢
  intro out hout hcomplete arm harm
  have harm' : arm ∈ requiredArms documents :=
    ((ofType_perm h "poll_cycle_request").flatMap_right _).mem_iff.mpr harm
  exact haccept out ((ofType_perm h _).mem_iff.mpr hout) hcomplete arm harm'

theorem fairness_perm_imp (h : documents.Perm documents')
    (haccept : Accepts (fairnessStarvation documents)) :
    Accepts (fairnessStarvation documents') := by
  rw [accepts_fairnessStarvation] at haccept ⊢
  intro waiter
  have hperm : (outcomesOf waiter documents).Perm (outcomesOf waiter documents') :=
    (ofType_perm h _).filter _
  exact (noneStarved_perm hperm).mp (haccept waiter)

theorem silent_perm_imp (h : documents.Perm documents') (hfree : OrderFree documents)
    (haccept : Accepts (silentCursorAdvance documents)) :
    Accepts (silentCursorAdvance documents') := by
  rw [accepts_silentCursorAdvance] at haccept ⊢
  rcases hfree.ends with hexempt | hagree
  · exact Or.inl ((exempt_perm h).mp hexempt)
  · rcases haccept with hexempt | hnot
    · exact Or.inl ((exempt_perm h).mp hexempt)
    · refine Or.inr fun hadvanced => hnot ?_
      exact endsAdvanced_perm (ofType_perm h _).symm
        ((endsAgree_perm (ofType_perm h _)).mp hagree) hadvanced

theorem revision_perm_imp (h : documents.Perm documents') (hfree : OrderFree documents)
    (haccept : Accepts (revisionCross documents)) : Accepts (revisionCross documents') := by
  rw [accepts_revisionCross] at haccept ⊢
  intro set' hset' r hr
  have hmem' : set' ∈ ofType "registration_set" documents :=
    (ofType_perm h _).mem_iff.mpr (List.mem_of_getLast? hset')
  -- The set that comes last in the other order has the same revision.
  obtain ⟨set, hset⟩ : ∃ set, (ofType "registration_set" documents).getLast? = some set :=
    ⟨_, List.getLast?_eq_some_getLast (List.ne_nil_of_mem hmem')⟩
  have hrevision := hfree.revision set (List.mem_of_getLast? hset) set' hmem'
  have hr' : r ∈ requests documents := (h.filter _).mem_iff.mpr hr
  rw [haccept set hset r hr', hrevision]

theorem setRules_perm_imp (h : documents.Perm documents') (hfree : OrderFree documents)
    (haccept : Accepts (setRules documents)) : Accepts (setRules documents') := by
  rw [accepts_setRules] at haccept ⊢
  obtain ⟨hcoverage, hack, hfairness, hsilent, hrevision, hauthn⟩ := haccept
  exact ⟨coverage_perm_imp h hcoverage, ackRules_perm_imp h hfree.cited hack,
    fairness_perm_imp h hfairness, silent_perm_imp h hfree hsilent,
    revision_perm_imp h hfree hrevision, (authnLeaseBounds_perm h).mp hauthn⟩

/-- **The verdict does not depend on the order** of documents that leave no rule a choice. -/
theorem setRules_perm (h : documents.Perm documents') (hfree : OrderFree documents) :
    Accepts (setRules documents) ↔ Accepts (setRules documents') :=
  ⟨setRules_perm_imp h hfree, setRules_perm_imp h.symm (orderFree_perm h hfree)⟩

open Documents

/-- An outcome, its ack and the request it answers. -/
def acked : List Json := [
  request "msg:req-1" "waiter:a" ["arm:a"],
  base.document,
  ack "msg:ack-1" "waiter:a" "msg:out-1" base.retainedThrough base.retainedEvents]

theorem setRules_perm_acked : Accepts (setRules acked) ↔ Accepts (setRules acked.reverse) :=
  setRules_perm (List.reverse_perm acked).symm
    { revision := by decide +kernel
      cited := by
        unfold CitedAgree
        decide +kernel
      ends := Or.inl (by decide +kernel) }

/-! ## Lists that leave a choice -/

/-- The digest function, where it is asked for `[registration "reg:a"]`. -/
def knownDigest (_ : Json) : Option String := some registrationDigest

/-- An outcome with the time of `base` that delivered nothing. -/
def tied : Outcome :=
  { base with
    messageId := "msg:out-2"
    events := []
    proposed := [("reg:a", "anc:after-2")] }

/-- An outcome with the id of `base` that retained another event. -/
def sameId : Outcome :=
  { base with
    events := [event "reg:a" "evt:2"]
    retainedEvents := [("reg:a", ["evt:2"])] }

/-- Outcomes with equal times, the first of which is the one that delivered. -/
def tiedOutcomes : List Json := [base.document, tied.document]

/-- Two outcomes with one id, and an ack of the first. -/
def doublyCited : List Json := [
  base.document,
  sameId.document,
  ack "msg:ack-1" "waiter:a" "msg:out-1" base.retainedThrough base.retainedEvents]

/-- Two sets, and a request for the revision of the last. -/
def revised : List Json := [
  registrationSet "msg:set-1" "waiter:a" "regrev-0",
  registrationSet "msg:set-2" "waiter:a" "regrev-1",
  request "msg:req-1" "waiter:a" ["arm:a"]]

/-- **The order decides** which of two tied outcomes comes first, which of two outcomes with one id
is cited, and which set is the last. -/
theorem order_decides :
    (∀ document ∈ tiedOutcomes ++ doublyCited ++ revised,
      Validate.individuallyValid knownDigest document = true) ∧
    (¬ Accepts (setRules tiedOutcomes) ∧ Accepts (setRules tiedOutcomes.reverse)) ∧
    (Accepts (setRules doublyCited) ∧ ¬ Accepts (setRules doublyCited.reverse)) ∧
    (Accepts (setRules revised) ∧ ¬ Accepts (setRules revised.reverse)) := by
  decide +kernel

end SetRules

end Waitprims
