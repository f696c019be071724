import Mathlib

/-! # Futures in flight

Each future gets a number when it is asked for, and every poll of one is written down with whether
it completed. A program that polls only futures it still has never polls one that completed.

* **`Watch`** — the numbers given out and the polls written down.
* **`Ended`** — no future is polled after it completed.
* **`Flying futs watch`** — `futs` are futures of their own that have not completed.
* **`Flying.ask`**, **`Flying.pending`**, **`Flying.done`**, **`Flying.drop`** — what may happen. -/

namespace InFlight

/-- One poll of a future, and whether it completed. -/
structure FutPoll where
  fut : Nat
  completed : Bool

/-- The next number to give out, and the polls so far. -/
structure Watch where
  fresh : Nat
  polls : List FutPoll

/-- A future is asked for. -/
def Watch.ask (watch : Watch) : Watch := { watch with fresh := watch.fresh + 1 }

/-- A future is polled. -/
def Watch.poll (watch : Watch) (fut : Nat) (completed : Bool) : Watch :=
  { watch with polls := watch.polls ++ [⟨fut, completed⟩] }

/-- **No future is polled after it completed.** -/
def Ended (polls : List FutPoll) : Prop :=
  polls.Pairwise fun before after => before.fut = after.fut → before.completed = false

/-- These futures are told apart, and none of them has completed. -/
structure Flying (futs : List Nat) (watch : Watch) : Prop where
  nodup : futs.Nodup
  asked : ∀ fut ∈ futs, fut < watch.fresh
  running : ∀ fut ∈ futs, ∀ p ∈ watch.polls, p.fut = fut → p.completed = false
  known : ∀ p ∈ watch.polls, p.fut < watch.fresh
  ended : Ended watch.polls

namespace Flying

variable {fut : Nat} {futs futs' : List Nat} {watch : Watch}

/-- Nothing has been asked for. -/
theorem start : Flying [] ⟨0, []⟩ := ⟨List.nodup_nil, nofun, nofun, nofun, List.Pairwise.nil⟩

/-- The order of the futures says nothing. -/
theorem perm (h : Flying futs watch) (hperm : futs.Perm futs') : Flying futs' watch where
  nodup := hperm.nodup_iff.mp h.nodup
  asked fut hfut := h.asked fut (hperm.symm.subset hfut)
  running fut hfut := h.running fut (hperm.symm.subset hfut)
  known := h.known
  ended := h.ended

/-- A future that is given up is in flight no more. -/
theorem drop (h : Flying (fut :: futs) watch) : Flying futs watch where
  nodup := (List.nodup_cons.mp h.nodup).2
  asked other hother := h.asked other (List.mem_cons_of_mem _ hother)
  running other hother := h.running other (List.mem_cons_of_mem _ hother)
  known := h.known
  ended := h.ended

/-- A future that is asked for has a number of its own. -/
theorem ask (h : Flying futs watch) : Flying (watch.fresh :: futs) watch.ask := by
  refine ⟨List.nodup_cons.mpr ⟨?_, h.nodup⟩, ?_, ?_, ?_, h.ended⟩
  · intro hmem
    exact absurd (h.asked _ hmem) (Nat.lt_irrefl _)
  · intro fut hfut
    rcases List.mem_cons.mp hfut with rfl | hfut
    · exact Nat.lt_succ_self _
    · exact Nat.lt_succ_of_lt (h.asked fut hfut)
  · intro fut hfut p hp heq
    rcases List.mem_cons.mp hfut with rfl | hfut
    · -- No poll so far is of the new future.
      exact absurd heq (Nat.ne_of_lt (h.known p hp))
    · exact h.running fut hfut p hp heq
  · exact fun p hp => Nat.lt_succ_of_lt (h.known p hp)

/-- A poll of a future in flight follows no completion of it. -/
theorem ended_poll (h : Flying (fut :: futs) watch) (completed : Bool) :
    Ended (watch.poll fut completed).polls := by
  refine List.pairwise_append.mpr ⟨h.ended, List.pairwise_singleton _ _, ?_⟩
  intro p hp q hq heq
  rw [List.mem_singleton.mp hq] at heq
  exact h.running fut List.mem_cons_self p hp heq

/-- The polls stay among the numbers given out. -/
theorem known_poll (h : Flying (fut :: futs) watch) (completed : Bool) :
    ∀ p ∈ (watch.poll fut completed).polls, p.fut < watch.fresh := by
  intro p hp
  rcases List.mem_append.mp hp with hp | hp
  · exact h.known p hp
  · rw [List.mem_singleton.mp hp]
    exact h.asked fut List.mem_cons_self

/-- **A poll that does not complete** leaves the future in flight. -/
theorem pending (h : Flying (fut :: futs) watch) :
    Flying (fut :: futs) (watch.poll fut false) := by
  refine ⟨h.nodup, h.asked, ?_, h.known_poll false, h.ended_poll false⟩
  intro other hother p hp heq
  rcases List.mem_append.mp hp with hp | hp
  · exact h.running other hother p hp heq
  · rw [List.mem_singleton.mp hp]

/-- **A poll that completes** takes the future out of flight. -/
theorem done (h : Flying (fut :: futs) watch) : Flying futs (watch.poll fut true) := by
  obtain ⟨hfresh, hnodup⟩ := List.nodup_cons.mp h.nodup
  refine ⟨hnodup, h.drop.asked, ?_, h.known_poll true, h.ended_poll true⟩
  intro other hother p hp heq
  rcases List.mem_append.mp hp with hp | hp
  · exact h.drop.running other hother p hp heq
  · rw [List.mem_singleton.mp hp] at heq
    obtain rfl : fut = other := heq
    exact absurd hother hfresh

end Flying

end InFlight
