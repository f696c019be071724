import Mathlib
import Waitprims.Async.CycleRun
import Waitprims.Async.FifoObserver
import Waitprims.Async.QueueObserver
import Waitprims.Testkit.Case

/-! # Custody of a poll cycle

Under the FIFO assumption a poll cycle hands every event back, whatever it returns: the custody
ledger of each registration holds nothing at the end, so each queue is what it was, followed by
what has arrived. -/

namespace Waitprims

namespace PollCycle

open Fueled Fifo

variable {σ β φ ψ : Type} {env : Env σ β φ ψ} {set : RegistrationSet} {request : PollCycleRequest}

/-- **A poll cycle conserves every queue.** -/
theorem runPollCycle_conserves (fifo : FifoObserver env)
    (hids : (set.registrations.map Registration.registrationId).Nodup) (fuel : Nat)
    {w w' : World σ β} {result : Except Error PollCycleOutcome}
    (hrun : (runPollCycle env set request fuel).run w = some (result, w')) (r : IdToken) :
    Quiet (fifo.view r) w.host w'.host := by
  have hspec : ETriple _ (runPollCycle env set request fuel) _ _ :=
    runPollCycle_spec (custodyLedger hids fifo.toQueuedObserver r w.host) rfl fuel
  have hend := hspec w (CustodyOwn.start w) result w' hrun
  cases result with
  | ok out => exact CustodyOwn.conserved hend
  | error err => exact CustodyOwn.conserved (hend.resolve_right (fifo.not_rejected w'))

open Case in
/-- A cycle that admits and hands back the events of two registrations, one of which has a signal
queued behind its event. -/
theorem runPollCycle_conserves_pair :
    ∃ result w', (runPollCycle queueEnv pairSet (pollCycleRequest pairSet) 10).run
        (QueueHost.world pairWaiting (ts "2026-08-15T16:02:00Z") []) = some (result, w') ∧
      ∀ r, Quiet (queueFifo.view r)
        (QueueHost.world pairWaiting (ts "2026-08-15T16:02:00Z") []).host w'.host := by
  have hdone : ((runPollCycle queueEnv pairSet (pollCycleRequest pairSet) 10).run
      (QueueHost.world pairWaiting (ts "2026-08-15T16:02:00Z") [])).isSome = true := by
    decide +kernel
  obtain ⟨⟨result, w'⟩, hrun⟩ := Option.isSome_iff_exists.mp hdone
  exact ⟨result, w', hrun, runPollCycle_conserves queueFifo (by decide) 10 hrun⟩

end PollCycle

end Waitprims
