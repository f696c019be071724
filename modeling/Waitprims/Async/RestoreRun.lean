import Mathlib
import Waitprims.Lib.Hoare
import Waitprims.Async.PollCycle

/-! # What a loop of restores hands back

A loop that puts observations back calls `restore_ready` once for each of them, in order, and stops
at the first call that is refused. The history of the run tells which calls were made.

* **`handBack`** — the calls a loop makes, one for each observation that has a bind.
* **`HandedBack`** — every one of them was made and accepted.
* **`StoppedBack`** — the loop stopped at a call that was refused.
* **`restoreEach_run`** — one of the two is what a loop of restores does. -/

namespace Waitprims

namespace PollCycle

variable {σ β φ ψ : Type} (env : Env σ β φ ψ)

/-- The observations of a loop with the binds they go back to. -/
def handBack (bound : List (Option β)) (entries : List (Nat × Observation)) :
    List (β × Observation) :=
  entries.filterMap fun p => (bound[p.1]?.join).map fun bind => (bind, p.2)

/-- A call of `restore_ready` that was accepted. -/
def acceptedCall (p : β × Observation) : Call β := .restore p.1 p.2 true

/-- Each observation was handed to `restore_ready` of its bind, in order, and accepted. -/
def HandedBack (back : List (β × Observation)) (w w' : World σ β) : Prop :=
  w'.log = w.log ++ back.map acceptedCall

/-- The calls were accepted up to one that was refused, and the rest was not made. -/
def StoppedBack (back : List (β × Observation)) (w w' : World σ β) : Prop :=
  ∃ made refused rest, back = made ++ refused :: rest ∧
    w'.log = w.log ++ made.map acceptedCall ++ [.restore refused.1 refused.2 false]

/-- What a loop does with its observations, by what it returns. -/
def Restored (back : List (β × Observation)) (result : Except Error Unit) (w w' : World σ β) :
    Prop :=
  match result with
  | .ok () => HandedBack back w w'
  | .error _ => StoppedBack back w w'

/-- One call of `restore_ready`. -/
theorem restore_run (bind : β) (obs : Observation) (w : World σ β) :
    ∃ w', (restore env bind obs).run w = some ((env.restoreReadyStep bind obs w.host).1, w') ∧
      w'.log = w.log ++ [.restore bind obs (env.restoreReadyStep bind obs w.host).1.toBool] :=
  ⟨_, rfl, rfl⟩

variable {env}

/-- Nothing to put back. -/
theorem handedBack_nil (w : World σ β) : HandedBack [] w w := (List.append_nil _).symm

/-- One more accepted call in front. -/
theorem Restored.cons {p : β × Observation} {back : List (β × Observation)}
    {result : Except Error Unit} {w w₁ w' : World σ β} (hlog : w₁.log = w.log ++ [acceptedCall p])
    (h : Restored back result w₁ w') : Restored (p :: back) result w w' := by
  cases result with
  | ok u =>
    show w'.log = w.log ++ (p :: back).map acceptedCall
    have hrest : w'.log = w₁.log ++ back.map acceptedCall := h
    rw [hrest, hlog, List.append_assoc]
    rfl
  | error err =>
    obtain ⟨made, refused, rest, hback, hrest⟩ := h
    refine ⟨p :: made, refused, rest, by rw [hback]; rfl, ?_⟩
    rw [hrest, hlog, List.append_assoc w.log]
    rfl

variable (env) in
/-- **A loop of restores hands everything back, or stops at the call that is refused.** -/
theorem restoreEach_run (bound : List (Option β)) (entries : List (Nat × Observation))
    (w : World σ β) : ∃ result w', (restoreEach env bound entries).run w = some (result, w') ∧
      Restored (handBack bound entries) result w w' := by
  induction entries generalizing w with
  | nil => exact ⟨.ok (), w, rfl, handedBack_nil w⟩
  | cons p rest ih =>
    obtain ⟨idx, obs⟩ := p
    cases hbind : bound[idx]?.join with
    | none =>
      obtain ⟨result, w', hrun, hrestored⟩ := ih w
      have hback : handBack bound ((idx, obs) :: rest) = handBack bound rest :=
        List.filterMap_cons_none (by rw [hbind]; rfl)
      refine ⟨result, w', ?_, by rwa [hback]⟩
      unfold restoreEach
      rw [hbind]
      exact hrun
    | some bind =>
      have hback : handBack bound ((idx, obs) :: rest) = (bind, obs) :: handBack bound rest :=
        List.filterMap_cons_some (by rw [hbind]; rfl)
      obtain ⟨w₁, hcall, hlog⟩ := restore_run env bind obs w
      rw [hback]
      cases hanswer : (env.restoreReadyStep bind obs w.host).1 with
      | error err =>
        rw [hanswer] at hcall hlog
        refine ⟨.error err, w₁, ?_, [], (bind, obs), handBack bound rest, rfl, ?_⟩
        · unfold restoreEach
          rw [hbind]
          exact Fueled.run_bind_error hcall
        · rw [hlog]
          simp only [List.map_nil, List.append_nil]
          rfl
      | ok u =>
        rw [hanswer] at hcall hlog
        obtain ⟨result, w', hrun, hrestored⟩ := ih w₁
        refine ⟨result, w', ?_, hrestored.cons hlog⟩
        unfold restoreEach
        rw [hbind]
        exact (Fueled.run_bind_ok hcall).trans hrun

end PollCycle

end Waitprims
