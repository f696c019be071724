import Mathlib
import Waitprims.Async.CycleRun
import Waitprims.Async.MatchCustody
import Waitprims.Async.CoalesceCustody

/-! # Any number of sessions against one observer

A caller runs poll cycles, first matches, follows and coalescing sessions one after another, over
sets and requests of its choice, and leaves the observer alone in between. Custody of one run
composes: what all the runs took, in the order in which they took it, followed by the queue, is what
the queue was, followed by what has arrived.

A poll cycle only looks: the events its outcome lists are back in their queues when it returns, and
a later run may hand them over.

* **`Share`** — what the consumer of one run keeps, and what the run took besides: the verdict of a
  first match that posture rejected late, and what went with a burst the sink refused.
* **`Use`**, **`Uses`** — one run, and any number of them.
* **`uses_conserve`** — custody over all of them; no event is kept twice. -/

namespace Waitprims

namespace Sessions

open Fueled Fifo
open Live (Verdict handedOver matchLoop runFirstMatch)
open Follow (Sink Delivery FollowBurst FollowEnd runFollow QuietSink heldBy_items)
open Coalesce (CoalesceBurst CoalescePolicy runCoalesce sunk lost)
open PollCycle (runPollCycle)

variable {σ β φ ψ : Type} {env : Env σ β φ ψ}

/-- The events that one run took out of the queues for good. -/
structure Share where
  /-- What its consumer was handed and keeps: no queue has it any more. -/
  kept : List WaitEvent
  /-- What is in no queue and was not handed over. -/
  lost : List WaitEvent

/-- Everything a run took. -/
def Share.taken (share : Share) : List WaitEvent := share.kept ++ share.lost

/-- The share of a first match: an event of its verdict is lost if posture rejects it late. -/
def matchShare (outcome : LiveWaitOutcome) (decided : LiveWaitOutcome) : Share :=
  if handedOver outcome = [] then ⟨[], handedOver decided⟩ else ⟨handedOver outcome, []⟩

/-- A sink that does only what may happen aside. -/
structure AsideSink {B ξ : Type} (aside : σ → σ → Prop) (sink : Sink σ B ξ) : Prop where
  call : ∀ burst s, aside s (sink.callStep burst s).2
  poll : ∀ fut s, aside s (sink.pollStep fut s).2

/-- **One use of the observer**, from host to host, with what it took. What else happens between two
runs, or in a sink, is `aside`. -/
inductive Use (env : Env σ β φ ψ) (aside : σ → σ → Prop) : σ → Share → σ → Prop
  /-- Nothing runs. -/
  | gap {s s' : σ} (haside : aside s s') : Use env aside s ⟨[], []⟩ s'
  /-- A poll cycle, whatever it returns: it keeps nothing, since the events its outcome lists go back
  to their queues and may be listed or handed over again. -/
  | cycle {set : RegistrationSet} {request : PollCycleRequest} {fuel : Nat} {w w' : World σ β}
      {result : Except Error PollCycleOutcome}
      (hids : (set.registrations.map Registration.registrationId).Nodup)
      (hrun : (runPollCycle env set request fuel).run w = some (result, w')) :
      Use env aside w.host ⟨[], []⟩ w'.host
  /-- A first match that fails. -/
  | failed {set : RegistrationSet} {request : LiveWaitRequest} {fuel : Nat} {w w' : World σ β}
      {err : Error} (hids : (set.registrations.map Registration.registrationId).Nodup)
      (hrun : (runFirstMatch env set request fuel).run w = some (.error err, w')) :
      Use env aside w.host ⟨[], []⟩ w'.host
  /-- A first match that returns the outcome of a verdict. -/
  | matched {set : RegistrationSet} {request : LiveWaitRequest} {fuel : Nat} {w w' : World σ β}
      {outcome : LiveWaitOutcome} {verdict : Verdict}
      (hids : (set.registrations.map Registration.registrationId).Nodup)
      (hrun : (runFirstMatch env set request fuel).run w = some (.ok outcome, w'))
      (hverdict : (matchLoop env set request fuel fuel ⟨0, none⟩).run { w with resolved := [] }
        = some (.ok verdict, w')) :
      Use env aside w.host (matchShare outcome verdict.decided) w'.host
  /-- A follow, whatever ends it. -/
  | follow {ξ : Type} {sink : Sink σ FollowBurst ξ} {set : RegistrationSet}
      {request : LiveWaitRequest} {fuel : Nat} {w w' : World σ β}
      {delivery : Delivery FollowBurst} {result : Except Error FollowEnd}
      (hsink : AsideSink aside sink)
      (hids : (set.registrations.map Registration.registrationId).Nodup)
      (hrun : runFollow env sink set request fuel w = some ((delivery, result), w')) :
      Use env aside w.host ⟨delivery.sunk.flatMap FollowBurst.events,
        delivery.refused.toList.flatMap FollowBurst.events⟩ w'.host
  /-- A coalescing session, whatever ends it. -/
  | coalesce {ξ : Type} {sink : Sink σ CoalesceBurst ξ} {set : RegistrationSet}
      {request : LiveWaitRequest} {policy : CoalescePolicy} {fuel : Nat} {w w' : World σ β}
      {history : List Coalesce.Entry} {result : Except Error FollowEnd}
      (hsink : AsideSink aside sink)
      (hids : (set.registrations.map Registration.registrationId).Nodup)
      (hrun : runCoalesce env sink set request policy fuel w = some ((history, result), w')) :
      Use env aside w.host ⟨sunk history, lost history⟩ w'.host

/-- **Any number of uses**, oldest first. -/
inductive Uses (env : Env σ β φ ψ) (aside : σ → σ → Prop) : σ → List Share → σ → Prop
  | none (s : σ) : Uses env aside s [] s
  | snoc {s₀ s s' : σ} {shares : List Share} {share : Share} (hbefore : Uses env aside s₀ shares s)
      (huse : Use env aside s share s') : Uses env aside s₀ (shares ++ [share]) s'

/-- What the consumers of all the runs keep. -/
def kept (shares : List Share) : List WaitEvent := shares.flatMap Share.kept

/-- What all the runs took. -/
def taken (shares : List Share) : List WaitEvent := shares.flatMap Share.taken

/-- The events of one registration. -/
def ofId (r : IdToken) (events : List WaitEvent) : List WaitEvent :=
  events.filter fun event => event.registrationId = r

/-! ## One use -/

section use

variable {fifo : FifoObserver env} {r : IdToken}

/-- What an observer with queues lets happen aside: events arrive. -/
def Arrivals (fifo : FifoObserver env) (s s' : σ) : Prop := ∀ r, Quiet (fifo.view r) s s'

/-- A sink that only lets events arrive. -/
theorem AsideSink.quiet {B ξ : Type} {sink : Sink σ B ξ} (h : AsideSink (Arrivals fifo) sink) :
    QuietSink fifo.toQueuedObserver sink :=
  ⟨fun r burst s => h.call burst s r, fun r fut s => h.poll fut s r⟩

/-- The share of a first match is what its verdict carries. -/
theorem matchShare_taken {set : RegistrationSet} {request : LiveWaitRequest} (verdict : Verdict) :
    (matchShare (Live.finish set request verdict.now verdict.decided) verdict.decided).taken
      = handedOver verdict.decided := by
  unfold matchShare
  split
  · rfl
  · next hhanded =>
    rw [Share.taken, List.append_nil]
    -- the outcome carries an event: it is the verdict as it was decided
    unfold Live.finish at hhanded ⊢
    split at hhanded
    · next hrejects => rw [if_pos hrejects]
    · next hrejects =>
      rw [if_neg hrejects]
      cases hposture : Live.postureReject set request verdict.now with
      | none => rfl
      | some rejected =>
        rw [hposture] at hhanded
        exact absurd (Live.postureReject_handedOver hposture) hhanded

/-- A returned first match took what its verdict carries. -/
theorem matched_custody {set : RegistrationSet} {request : LiveWaitRequest} {fuel : Nat}
    {w w' : World σ β} {outcome : LiveWaitOutcome} {verdict : Verdict}
    (hids : (set.registrations.map Registration.registrationId).Nodup)
    (hrun : (runFirstMatch env set request fuel).run w = some (.ok outcome, w'))
    (hverdict : (matchLoop env set request fuel fuel ⟨0, none⟩).run { w with resolved := [] }
      = some (.ok verdict, w')) :
    Custody (fifo.view r) w.host (ofId r (matchShare outcome verdict.decided).taken) w'.host := by
  obtain ⟨verdict', hloop, rfl, hown⟩ := Live.runFirstMatch_verdict
    (custodyLedger hids fifo.toQueuedObserver r w.host) rfl (CustodyOwn.start w) hrun
  obtain ⟨hsame, -⟩ := Prod.mk.inj (Option.some.inj (hverdict.symm.trans hloop))
  obtain rfl := Except.ok.inj hsame
  have hcustody := Live.custody_of_outcomeOwn hids hown
  rw [matchShare_taken]
  exact hcustody

/-- **One use keeps custody** of every registration. -/
theorem Use.custody {s s' : σ} {share : Share} (h : Use env (Arrivals fifo) s share s')
    (r : IdToken) :
    Custody (fifo.view r) s (ofId r share.taken) s' := by
  cases h with
  | gap haside => exact custody_nil_iff.mpr (haside r)
  | @cycle set request fuel w w' result hids hrun =>
    have hspec : ETriple _ (runPollCycle env set request fuel) _ _ :=
      PollCycle.runPollCycle_spec (custodyLedger hids fifo.toQueuedObserver r w.host) rfl fuel
    have hend := hspec w (CustodyOwn.start w) result w' hrun
    refine custody_nil_iff.mpr ?_
    cases result with
    | ok out => exact CustodyOwn.conserved hend
    | error err => exact CustodyOwn.conserved (hend.resolve_right (fifo.not_rejected w'))
  | @failed set request fuel w w' err hids hrun =>
    have hfail := Live.runFirstMatch_error
      (custodyLedger hids fifo.toQueuedObserver r w.host) rfl (CustodyOwn.start w) hrun
    exact custody_nil_iff.mpr (CustodyOwn.conserved (hfail.resolve_right (fifo.not_rejected w')))
  | matched hids hrun hverdict => exact matched_custody hids hrun hverdict
  | @follow ξ sink set request fuel w w' delivery result hsink hids hrun =>
    obtain ⟨-, bursts, hdelivered, hat, hcustody⟩ :=
      Follow.runFollow_spec (hsink.quiet.keeps hids r w.host) fifo.not_rejected set request fuel
        rfl w (CustodyOwn.start w) _ w' hrun
    rw [heldBy_items hat, ← hdelivered.flatMap_events, Delivery.handed,
      List.flatMap_append] at hcustody
    exact hcustody
  | @coalesce ξ sink set request policy fuel w w' history result hsink hids hrun =>
    obtain ⟨-, gone, hgone, hat, hcustody⟩ :=
      Coalesce.runCoalesce_spec (hsink.quiet.keeps hids r w.host) fifo.not_rejected rfl hids
        (fun _ _ h => h.1) request fuel w (CustodyOwn.start w) _ w' hrun
    rw [heldBy_items hat, hgone] at hcustody
    exact hcustody

end use

/-! ## Any number of uses -/

section uses

variable {fifo : FifoObserver env} {s₀ s : σ} {shares : List Share}

/-- **The runs keep custody** of every registration. -/
theorem Uses.custody (h : Uses env (Arrivals fifo) s₀ shares s) (r : IdToken) :
    Custody (fifo.view r) s₀ (ofId r (taken shares)) s := by
  induction h with
  | none => exact Custody.start s₀
  | @snoc s s' shares share hbefore huse ih =>
    have htaken : ofId r (taken (shares ++ [share]))
        = ofId r (taken shares) ++ ofId r share.taken := by
      simp [taken, ofId]
    rw [htaken]
    exact ih.trans (huse.custody r)

/-- What is kept was taken, in the same order. -/
theorem kept_sublist (shares : List Share) : (kept shares).Sublist (taken shares) := by
  induction shares with
  | nil => exact .slnil
  | cons share shares ih =>
    rw [kept, taken, List.flatMap_cons, List.flatMap_cons]
    exact (List.sublist_append_left _ _).append ih

/-- Where nothing was lost, everything taken is kept. -/
theorem taken_of_lossless {shares : List Share} (hlost : ∀ share ∈ shares, share.lost = []) :
    taken shares = kept shares := by
  refine List.flatMap_congr fun share hshare => ?_
  rw [Share.taken, hlost share hshare, List.append_nil]

/-- **Any number of runs conserve every queue.** For each registration, what all the runs took, in
the order in which they took it, followed by the queue, is what the queue was, followed by what has
arrived. Where no run lost anything, that is what their consumers keep; and where the events that
were ever offered have distinct ids, no event is kept twice, nor kept and left waiting. Poll cycles
keep nothing. -/
theorem uses_conserve (h : Uses env (Arrivals fifo) s₀ shares s) (r : IdToken) :
    Custody (fifo.view r) s₀ (ofId r (taken shares)) s ∧
    ((∀ share ∈ shares, share.lost = []) →
      Custody (fifo.view r) s₀ (ofId r (kept shares)) s) ∧
    ∀ new, (fifo.view r).arrived s = (fifo.view r).arrived s₀ ++ new →
      (((fifo.view r).queue s₀ ++ new).map WaitEvent.eventId).Nodup →
      ((ofId r (kept shares) ++ (fifo.view r).queue s).map WaitEvent.eventId).Nodup := by
  have hcustody := h.custody r
  refine ⟨hcustody, fun hlost => ?_, fun new harrived hdistinct => ?_⟩
  · rw [← taken_of_lossless hlost]
    exact hcustody
  · obtain ⟨new', harrived', hqueue⟩ := hcustody
    obtain rfl : new = new' := List.append_cancel_left (harrived.symm.trans harrived')
    rw [← hqueue] at hdistinct
    -- what is kept is a part of what was taken
    have hpart : (ofId r (kept shares)).Sublist (ofId r (taken shares)) :=
      (kept_sublist shares).filter _
    exact hdistinct.sublist ((hpart.append_right _).map _)

open Case in
/-- A poll cycle hands back the events it lists, and the first match after it takes one of them. -/
theorem uses_conserve_pair : ∃ (shares : List Share) (s : QueueHost),
    (kept shares).map WaitEvent.eventId = ["evt:1"] ∧
      ∀ r, Custody (queueFifo.view r)
        (QueueHost.world pairWaiting (ts "2026-08-15T16:02:00Z") []).host
        (ofId r (taken shares)) s := by
  have hdone : ((runPollCycle queueEnv pairSet (pollCycleRequest pairSet) 10).run
      (QueueHost.world pairWaiting (ts "2026-08-15T16:02:00Z") [])).any (fun last =>
        (returned ((runFirstMatch queueEnv pairSet liveWaitRequest 10).run
          ⟨last.2.host, [], []⟩)).any fun outcome =>
            (handedOver outcome).map WaitEvent.eventId == ["evt:1"]) = true := by
    decide +kernel
  obtain ⟨⟨result, w⟩, hcycle, hmatch⟩ := exists_of_any hdone
  obtain ⟨outcome, w', hrun, hone⟩ := exists_of_returned hmatch
  obtain ⟨verdict, hloop, -⟩ := Live.runFirstMatch_loop hrun
  have hhanded : handedOver outcome ≠ [] := by
    intro hnone
    rw [hnone] at hone
    cases hone
  have hdistinct : (pairSet.registrations.map Registration.registrationId).Nodup := by decide
  have hmatched : Use queueEnv (Arrivals queueFifo) w.host
      (matchShare outcome verdict.decided) w'.host :=
    .matched (w := ⟨w.host, [], []⟩) hdistinct hrun hloop
  have huses : Uses queueEnv (Arrivals queueFifo)
      (QueueHost.world pairWaiting (ts "2026-08-15T16:02:00Z") []).host _ w'.host :=
    ((Uses.none _).snoc (.cycle hdistinct hcycle)).snoc hmatched
  refine ⟨_, w'.host, ?_, fun r => (uses_conserve huses r).1⟩
  simpa [kept, matchShare, hhanded] using hone

end uses

end Sessions

end Waitprims
