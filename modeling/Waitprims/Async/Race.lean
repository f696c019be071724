import Mathlib
import Waitprims.Core.Types

/-! # First-ready collection across observer arms

`FirstReady` polls a list of futures until one yields a terminal value, one fails, or all are done;
it then harvests what is ready, giving every arm that is still pending one more poll. The race is
generic in the future `F`, its value `T` and the state `W` the futures act on. -/

namespace Waitprims

variable {W F T : Type}

/-- One poll of a stateful future: its result, or the future with its advanced state. -/
inductive Polled (F T : Type)
  | ready (result : Except Error T)
  | pending (fut : F)

/-- One arm of a race. -/
inductive Arm (F T : Type)
  | pending (fut : F)
  /-- The value until it is taken. -/
  | ready (slot : Option T)
  | failed

/-- Collected arm values, plus an error if any arm failed after others were ready. -/
structure FirstReadyOutput (T : Type) where
  ready : List (Nat × T)
  error : Option Error

/-- What the first pass over the arms has seen. -/
structure Scan where
  pending : Bool
  terminal : Bool
  error : Option Error

/-- Keep the first error. -/
def Scan.fail (scan : Scan) (err : Error) : Scan := { scan with error := scan.error.or (some err) }

/-- Note a value. -/
def Scan.note (scan : Scan) (terminal : Bool) : Scan :=
  { scan with terminal := scan.terminal || terminal }

namespace FirstReady

/-- A race of fresh futures. -/
def new (futures : List F) : List (Arm F T) := futures.map .pending

/-- Take the values that completed before the race finished. -/
def takeReady (arms : List (Arm F T)) : List (Nat × T) :=
  (arms.zipIdx.filterMap fun p => match p.1 with
    | .ready slot => slot.map fun value => (p.2, value)
    | _ => none)

variable (pollFut : F → StateT W Option (Polled F T)) (isTerminal : T → Bool)

/-- First pass over one arm: poll it if pending, look at the value it holds otherwise. -/
def scanArm (arm : Arm F T) (scan : Scan) : StateT W Option (Arm F T × Scan) :=
  match arm with
  | .pending fut => do
    match ← pollFut fut with
    | .ready (.ok value) => return (.ready (some value), scan.note (isTerminal value))
    | .ready (.error err) => return (.failed, scan.fail err)
    | .pending fut => return (.pending fut, { scan with pending := true })
  | .ready (some value) => return (.ready (some value), scan.note (isTerminal value))
  | .ready none => return (.ready none, scan)
  | .failed => return (.failed, scan)

/-- First pass: poll every pending arm once. -/
def scanArms : List (Arm F T) → Scan → StateT W Option (List (Arm F T) × Scan)
  | [], scan => return ([], scan)
  | arm :: rest, scan => do
    let (arm, scan) ← scanArm pollFut isTerminal arm scan
    let (rest, scan) ← scanArms rest scan
    return (arm :: rest, scan)

/-- Second pass: take every value, and poll every arm that is still pending once more. A future
that completes here leaves an empty slot. -/
def collectArms : Nat → List (Arm F T) → Option Error →
    StateT W Option (List (Arm F T) × FirstReadyOutput T)
  | _, [], error => return ([], ⟨[], error⟩)
  | idx, .ready (some value) :: rest, error => do
    let (rest, out) ← collectArms (idx + 1) rest error
    return (.ready none :: rest, { out with ready := (idx, value) :: out.ready })
  | idx, .ready none :: rest, error => do
    let (rest, out) ← collectArms (idx + 1) rest error
    return (.ready none :: rest, out)
  | idx, .failed :: rest, error => do
    let (rest, out) ← collectArms (idx + 1) rest error
    return (.failed :: rest, out)
  | idx, .pending fut :: rest, error => do
    match ← pollFut fut with
    | .ready (.ok value) =>
      let (rest, out) ← collectArms (idx + 1) rest error
      return (.ready none :: rest, { out with ready := (idx, value) :: out.ready })
    | .ready (.error err) =>
      let (rest, out) ← collectArms (idx + 1) rest (error.or (some err))
      return (.failed :: rest, out)
    | .pending fut =>
      let (rest, out) ← collectArms (idx + 1) rest error
      return (.pending fut :: rest, out)

/-- One poll of the race: resolved with its output, or still pending. -/
def poll (arms : List (Arm F T)) :
    StateT W Option (List (Arm F T) × Option (FirstReadyOutput T)) := do
  let (arms, scan) ← scanArms pollFut isTerminal arms ⟨false, false, none⟩
  if scan.error.isSome || scan.terminal || !scan.pending then
    let (arms, out) ← collectArms pollFut 0 arms scan.error
    return (arms, some out)
  else
    return (arms, none)

/-- Drop a race: every future that is still pending is dropped. -/
def drop (dropFut : F → StateT W Option Unit) : List (Arm F T) → StateT W Option Unit
  | [] => return ()
  | .pending fut :: rest => do
    dropFut fut
    drop dropFut rest
  | _ :: rest => drop dropFut rest

end FirstReady

end Waitprims
