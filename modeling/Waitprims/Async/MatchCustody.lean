import Mathlib
import Waitprims.Async.FifoObserver
import Waitprims.Async.MatchRun
import Waitprims.Async.QueueObserver
import Waitprims.Testkit.Case

/-! # Custody of a first match

Under the FIFO assumption the loop of a first match takes exactly the event its verdict carries. The
verdict is finished at a later reading of the clock, and posture may reject it there: the event of
the winner is then in no queue and in no outcome.

* **`conserved_iff`** — a returned outcome accounts for every event unless a verdict that carries an
  event was rejected when it was finished. -/

namespace Waitprims

namespace Live

open Fueled Fifo PollCycle

variable {σ β φ ψ : Type} {env : Env σ β φ ψ} {set : RegistrationSet} {request : LiveWaitRequest}

/-- The events of one registration that an outcome hands over. -/
def handedOverOf (outcome : LiveWaitOutcome) (r : IdToken) : List WaitEvent :=
  (handedOver outcome).filter fun e => e.registrationId = r

/-- **Every queue is accounted for**: what the outcome hands over, followed by the queue, is what
the queue was, followed by what has arrived. -/
def Accounted (fifo : FifoObserver env) (host host' : σ) (outcome : LiveWaitOutcome) : Prop :=
  ∀ r, Custody (fifo.view r) host (handedOverOf outcome r) host'

/-- An owned outcome accounts for the queue of a registration. -/
theorem custody_of_outcomeOwn {fifo : FifoObserver env} {ids : List IdToken} (hids : ids.Nodup)
    {r : IdToken} {host₀ : σ} {outcome : LiveWaitOutcome} {w : World σ β}
    (h : OutcomeOwn (custodyLedger hids fifo.toQueuedObserver r host₀) outcome w) :
    Custody (fifo.view r) host₀ (handedOverOf outcome r) w.host := by
  obtain ⟨items, hcarries, hat, hcustody⟩ := h
  cases hcarries with
  | nothing hnone =>
    rw [handedOverOf, hnone]
    exact hcustody
  | @event slot bind event hevent _ =>
    have hlabel := (hat _ List.mem_cons_self).2 slot bind event rfl
    rw [heldBy_event, ← hlabel] at hcustody
    rw [handedOverOf, hevent]
    by_cases hr : event.registrationId = r
    · simpa [hr] using hcustody
    · simpa [hr] using hcustody

/-- What posture imposes on a verdict that carries an event. -/
theorem finish_handedOver {now : Timestamp} {decided : LiveWaitOutcome}
    (hkind : decided.outcomeKind.rejects = false) :
    handedOver (finish set request now decided)
      = if (postureReject set request now).isSome then [] else handedOver decided := by
  unfold finish
  rw [hkind]
  cases hposture : postureReject set request now with
  | none => rfl
  | some rejected => exact postureReject_handedOver hposture

/-- **A verdict rejected late**: it carries an event, and posture rejects it when it is finished. -/
def RejectedLate (set : RegistrationSet) (request : LiveWaitRequest) (verdict : Verdict) : Prop :=
  handedOver verdict.decided ≠ [] ∧ (postureReject set request verdict.now).isSome

/-- Finishing an owned verdict keeps the account unless it is rejected late. -/
theorem accounted_finish_iff {fifo : FifoObserver env} {ids : List IdToken} (hids : ids.Nodup)
    {host₀ : σ} {verdict : Verdict} {w : World σ β}
    (h : ∀ r, OutcomeOwn (custodyLedger hids fifo.toQueuedObserver r host₀) verdict.decided w) :
    Accounted fifo host₀ w.host (finish set request verdict.now verdict.decided) ↔
      ¬ RejectedLate set request verdict := by
  have haccount := fun r => custody_of_outcomeOwn hids (h r)
  by_cases hnone : handedOver verdict.decided = []
  · have hfinish : handedOver (finish set request verdict.now verdict.decided) = [] := by
      unfold finish
      split
      · exact hnone
      · cases hposture : postureReject set request verdict.now with
        | none => exact hnone
        | some rejected => exact postureReject_handedOver hposture
    refine iff_of_true (fun r => ?_) fun hlate => hlate.1 hnone
    have hheld := haccount r
    rw [handedOverOf, hnone] at hheld
    rw [handedOverOf, hfinish]
    exact hheld
  · obtain ⟨items, hcarries, -⟩ := h ""
    have hkind : verdict.decided.outcomeKind.rejects = false := by
      cases hcarries with
      | nothing hnil => exact absurd hnil hnone
      | event _ hkind => exact hkind
    have hfinish : handedOver (finish set request verdict.now verdict.decided) = _ :=
      finish_handedOver hkind
    cases hposture : (postureReject set request verdict.now).isSome with
    | false =>
      rw [hposture, if_neg Bool.false_ne_true] at hfinish
      refine iff_of_true (fun r => ?_) fun hlate => ?_
      · rw [handedOverOf, hfinish]
        exact haccount r
      · rw [RejectedLate, hposture] at hlate
        exact Bool.false_ne_true hlate.2
    | true =>
      rw [hposture, if_pos rfl] at hfinish
      refine iff_of_false (fun hall => ?_) fun hlate => hlate ⟨hnone, hposture⟩
      -- The event of the winner is held, but the outcome does not hand it over.
      obtain ⟨event, rest, hcons⟩ := List.exists_cons_of_ne_nil hnone
      have hheld := haccount event.registrationId
      have hgone := hall event.registrationId
      have hlength := hheld.length_eq hgone
      rw [handedOverOf, handedOverOf, hfinish, hcons] at hlength
      simp at hlength

/-- **A first match accounts for every queue** unless its verdict is rejected late; when it fails,
no event is missing from any queue. -/
theorem conserved_iff (fifo : FifoObserver env)
    (hids : (set.registrations.map Registration.registrationId).Nodup) (fuel : Nat)
    {w w' : World σ β} {result : Except Error LiveWaitOutcome}
    (hrun : (runFirstMatch env set request fuel).run w = some (result, w')) :
    match result with
    | .error _ => ∀ r, Quiet (fifo.view r) w.host w'.host
    | .ok outcome => ∃ verdict,
        (matchLoop env set request fuel fuel ⟨0, none⟩).run { w with resolved := [] }
          = some (.ok verdict, w') ∧
        (Accounted fifo w.host w'.host outcome ↔ ¬ RejectedLate set request verdict) := by
  cases result with
  | error err =>
    intro r
    have hfail : FailOwn (custodyLedger hids fifo.toQueuedObserver r w.host) w' :=
      runFirstMatch_error _ rfl (CustodyOwn.start w) hrun
    exact CustodyOwn.conserved (hfail.resolve_right (fifo.not_rejected w'))
  | ok outcome =>
    have hverdict := fun r => runFirstMatch_verdict
      (custodyLedger hids fifo.toQueuedObserver r w.host) rfl (CustodyOwn.start w) hrun
    obtain ⟨verdict, hloop, rfl, -⟩ := hverdict ""
    refine ⟨verdict, hloop, accounted_finish_iff hids fun r => ?_⟩
    obtain ⟨verdict', hloop', -, hown⟩ := hverdict r
    obtain ⟨hsame, -⟩ := Prod.mk.inj (Option.some.inj (hloop.symm.trans hloop'))
    obtain rfl := Except.ok.inj hsame
    exact hown

open Case in
theorem conserved_iff_pair :
    ∃ outcome w', (runFirstMatch queueEnv pairSet liveWaitRequest 10).run
        (QueueHost.world pairWaiting (ts "2026-08-15T16:02:00Z") []) = some (.ok outcome, w') ∧
      ∃ verdict, (matchLoop queueEnv pairSet liveWaitRequest 10 10 ⟨0, none⟩).run
          { QueueHost.world pairWaiting (ts "2026-08-15T16:02:00Z") [] with resolved := [] }
        = some (.ok verdict, w') ∧
        (Accounted queueFifo (QueueHost.world pairWaiting (ts "2026-08-15T16:02:00Z") []).host
            w'.host outcome ↔ ¬ RejectedLate pairSet liveWaitRequest verdict) := by
  have hdone : (returned ((runFirstMatch queueEnv pairSet liveWaitRequest 10).run
      (QueueHost.world pairWaiting (ts "2026-08-15T16:02:00Z") []))).any (fun _ => true) = true := by
    decide +kernel
  obtain ⟨outcome, w', hrun, -⟩ := exists_of_returned hdone
  exact ⟨outcome, w', hrun, conserved_iff queueFifo (by decide) 10 hrun⟩

open Case in
/-- The leases run out between the reading the decision is made at and the reading it is finished
at: the winning event is in no outcome and in no queue. -/
theorem winner_lost_to_late_posture :
    ∃ outcome w', (runFirstMatch queueEnv expiringSet liveWaitRequest 10).run
        (QueueHost.world pairWaiting (ts "2026-08-15T16:01:10Z")
          [ts "2026-08-15T16:01:20Z", ts "2026-08-15T16:01:40Z"]) = some (.ok outcome, w') ∧
      handedOver outcome = [] ∧
      ¬ Accounted queueFifo (QueueHost.world pairWaiting (ts "2026-08-15T16:01:10Z")
          [ts "2026-08-15T16:01:20Z", ts "2026-08-15T16:01:40Z"]).host w'.host outcome := by
  have hdone : ((runFirstMatch queueEnv expiringSet liveWaitRequest 10).run
      (QueueHost.world pairWaiting (ts "2026-08-15T16:01:10Z")
        [ts "2026-08-15T16:01:20Z", ts "2026-08-15T16:01:40Z"])).any (fun last =>
          (success last.1).any fun outcome => Decidable.decide (handedOver outcome = [] ∧
            (QueueHost.eventsOf "reg:a" last.2.host.waiting).length = 1)) = true := by
    decide +kernel
  obtain ⟨⟨result, w'⟩, hrun, hlast⟩ := exists_of_any hdone
  obtain ⟨outcome, hresult, hparts⟩ := exists_of_any hlast
  obtain ⟨hnone, hlength⟩ := of_decide_eq_true hparts
  refine ⟨outcome, w', ?_, hnone, fun haccount => ?_⟩
  · rw [hrun]
    exact congrArg (fun r => some (r, w')) (success_eq_some hresult)
  · have hheld := (haccount "reg:a").length_le
    rw [handedOverOf, hnone] at hheld
    have hwaiting : (QueueHost.eventsOf "reg:a" pairWaiting).length = 2 := by decide
    have hbefore : ((queueFifo.view "reg:a").queue (QueueHost.world pairWaiting
        (ts "2026-08-15T16:01:10Z") [ts "2026-08-15T16:01:20Z", ts "2026-08-15T16:01:40Z"]).host
        ).length = 2 := hwaiting
    have hafter : ((queueFifo.view "reg:a").queue w'.host).length = 1 := hlength
    rw [hbefore, hafter] at hheld
    simp at hheld

end Live

end Waitprims
