import Mathlib
import Waitprims.Async.CycleRestores
import Waitprims.Async.MatchRun

/-! # What a refused restore leaves behind

Both runners put observations back with `?`: the first call of `restore_ready` that is refused ends
the run. Nothing is dequeued or handed back after it, so whatever else the run owned at that moment
is lost. That no restore was refused so far is a ledger, whatever the observer does.

* **`EndsRefused`** — a history whose last entry is its only refused restore.
* **`refusalLedger`** — both runners keep to it.
* **`owed`** — how often an event was dequeued and not taken back.
* **`refusal_siblings_iff`** — the siblings of a refused event are handed back exactly when there
  are none. -/

namespace Waitprims

open Fueled

variable {σ β φ ψ : Type}

/-! ## Histories with a refused restore -/

/-- No restore was refused. -/
def NoRefusal (log : List (Call β)) : Prop := ∀ bind obs, .restore bind obs false ∉ log

/-- The last entry is a refused restore, the first one. -/
def EndsRefused (log : List (Call β)) : Prop :=
  ∃ past bind obs, log = past ++ [.restore bind obs false] ∧ NoRefusal past

section histories

variable {log : List (Call β)} {entry : Call β}

theorem NoRefusal.snoc (h : NoRefusal log) (hentry : ∀ bind obs, entry ≠ .restore bind obs false) :
    NoRefusal (log ++ [entry]) := by
  intro bind obs hmem
  rcases List.mem_append.mp hmem with hmem | hmem
  · exact h bind obs hmem
  · exact hentry bind obs (List.mem_singleton.mp hmem).symm

/-- Nothing follows the refused restore. -/
theorem EndsRefused.later {past later : List (Call β)} {bind : β} {obs : Observation}
    (h : EndsRefused (past ++ .restore bind obs false :: later)) : later = [] := by
  obtain ⟨made, bind', obs', hlog, hmade⟩ := h
  rcases List.eq_nil_or_concat later with rfl | ⟨front, last, rfl⟩
  · rfl
  · have hfront : past ++ .restore bind obs false :: front = made := by
      have hsplit : (past ++ .restore bind obs false :: front) ++ [last]
          = made ++ [.restore bind' obs' false] := by simpa using hlog
      exact (List.append_inj' hsplit rfl).1
    refine absurd ?_ (hmade bind obs)
    rw [← hfront]
    simp

end histories

/-! ## The ledger -/

section ledger

variable {env : Env σ β φ ψ}

/-- A world in whose history no restore was refused. -/
def Unrefused (w : World σ β) : Prop := NoRefusal w.log

theorem host_unrefused {α : Type} {f : σ → α × σ} :
    Triple (Unrefused (σ := σ) (β := β)) (Act.host f) fun _ => Unrefused :=
  host_spec fun _ h => h

theorem record_unrefused {entry : Call β}
    (hentry : ∀ bind obs, entry ≠ .restore bind obs false) :
    Triple (Unrefused (σ := σ)) (Act.record [entry]) fun _ => Unrefused :=
  record_spec fun _ h => NoRefusal.snoc h hentry

/-- A restore that is refused is the last entry. -/
theorem restore_unrefused {bind : β} {obs : Observation} :
    Triple Unrefused (env.restoreReady bind obs) fun answer w => match answer with
      | .ok _ => Unrefused w
      | .error _ => EndsRefused w.log := by
  refine Triple.bind host_unrefused ?_
  rintro (err | u)
  · rintro w h _ _ ⟨⟩
    exact ⟨w.log, bind, obs, rfl, h⟩
  · refine Triple.bind (record_unrefused fun bind' obs' h => ?_) fun _ => Triple.pure fun w h => h
    cases h

/-- **The absence of a refused restore is a ledger**, whatever the observer does. -/
def refusalLedger (env : Env σ β φ ψ) (ids : List IdToken) : Ledger env ids where
  own _ _ := Unrefused
  broken w := EndsRefused w.log
  broken_host := fun _ h => h
  aim _ _ := True
  seat _ _ := True
  attached _ _ := True
  settle := fun _ _ _ h => h
  resolved := fun _ h => h
  bind := fun _ _ _ => host_unrefused.weaken fun _ _ h => ⟨trivial, h⟩
  pollBind := fun _ _ _ => host_unrefused.weaken fun _ _ h => ⟨fun _ _ => trivial, h⟩
  dropBind := fun _ _ _ => host_unrefused
  next := fun _ _ _ => Triple.bind host_unrefused fun _ =>
    Triple.pure fun _ h => ⟨rfl, trivial, h⟩
  pollNext := by
    intro slot bind fut _ _ _ _
    refine Triple.bind host_unrefused ?_
    rintro ((err | obs) | _)
    · exact Triple.pure fun w h => h
    · exact Triple.bind (record_unrefused nofun) fun _ => Triple.pure fun w h => h
    · exact Triple.pure fun w h => h
  dropNext := fun _ _ _ => host_unrefused
  pollReady := by
    intro slot bind mark _ _ _ _
    refine Triple.bind host_unrefused ?_
    rintro (_ | obs)
    · exact Triple.bind (record_spec fun w h => by simpa using h) fun _ => Triple.pure fun w h => h
    · exact Triple.bind (record_unrefused nofun) fun _ => Triple.pure fun w h => h
  restoreEvent := fun _ _ _ => restore_unrefused
  restoreSignal := fun _ _ _ _ _ => restore_unrefused
  markAdmitted := fun _ _ => record_unrefused nofun
  markVisited := fun _ _ => record_unrefused nofun
  now := fun _ _ => host_unrefused
  sleepUntil := fun _ _ _ => host_unrefused
  isCancelled := fun _ _ => host_unrefused
  park := fun _ _ => host_unrefused

end ledger

/-- What a run that returns leaves: no restore was refused, or it fails at the one that was. -/
def StopsAtRefusal {α : Type} (result : Except Error α) (w : World σ β) : Prop :=
  NoRefusal w.log ∨ EndsRefused w.log ∧ ∃ err, result = .error err

section runs

variable {env : Env σ β φ ψ} {set : RegistrationSet} {w w' : World σ β}

/-- **A poll cycle stops at a refused restore.** -/
theorem runPollCycle_stopsAtRefusal {request : PollCycleRequest} {fuel : Nat} (hlog : w.log = [])
    {result : Except Error PollCycleOutcome}
    (hrun : (PollCycle.runPollCycle env set request fuel).run w = some (result, w')) :
    StopsAtRefusal result w' := by
  have hspec : ETriple _ (PollCycle.runPollCycle env set request fuel) _ _ :=
    PollCycle.runPollCycle_spec (refusalLedger env _) rfl fuel
  have hstart : NoRefusal w.log := by
    rw [hlog]
    exact fun _ _ hmem => (List.not_mem_nil hmem)
  have hend := hspec w hstart result w' hrun
  cases result with
  | ok outcome => exact Or.inl hend
  | error err => exact hend.imp_right fun hrefused => ⟨hrefused, err, rfl⟩

/-- **So does a first match.** -/
theorem runFirstMatch_stopsAtRefusal {request : LiveWaitRequest} {fuel : Nat} (hlog : w.log = [])
    {result : Except Error LiveWaitOutcome}
    (hrun : (Live.runFirstMatch env set request fuel).run w = some (result, w')) :
    StopsAtRefusal result w' := by
  have hstart : (refusalLedger env (set.registrations.map Registration.registrationId)).own [] []
      w := by
    show NoRefusal w.log
    rw [hlog]
    exact fun _ _ hmem => (List.not_mem_nil hmem)
  cases result with
  | ok outcome =>
    obtain ⟨verdict, -, -, items, -, hown⟩ := Live.runFirstMatch_verdict _ rfl hstart hrun
    exact Or.inl hown
  | error err =>
    rcases Live.runFirstMatch_error _ rfl hstart hrun with hown | hrefused
    · exact Or.inl hown
    · exact Or.inr ⟨hrefused, err, rfl⟩

end runs

/-! ## The siblings of a refused event -/

/-- The event a call dequeued. -/
def Call.dequeuedEvent? : Call β → Option (β × WaitEvent)
  | .next bind (.event event) | .ready bind (.event event) => some (bind, event)
  | _ => none

/-- The event a call handed back, taken or not. -/
def Call.handedEvent? : Call β → Option (β × WaitEvent)
  | .restore bind (.event event) _ => some (bind, event)
  | _ => none

/-- The event a call handed back that was taken. -/
def Call.takenBack? : Call β → Option (β × WaitEvent)
  | .restore bind (.event event) true => some (bind, event)
  | _ => none

section siblings

variable [DecidableEq β]

/-- How often an event was dequeued from a bind and not taken back. -/
def owed (log : List (Call β)) (p : β × WaitEvent) : Nat :=
  (log.filterMap Call.dequeuedEvent?).count p - (log.filterMap Call.takenBack?).count p

/-- The events of one bind. -/
def eventsAt (bind : β) (events : List (β × WaitEvent)) : List WaitEvent :=
  (events.filter fun p => p.1 = bind).map Prod.snd

/-- **The siblings of a refused event are handed back** after it: every other event that is owed
exactly once, and those of one bind newest first. -/
structure SiblingsReturned (past : List (Call β)) (refused : β × WaitEvent)
    (later : List (Call β)) : Prop where
  once : ∀ p, (later.filterMap Call.handedEvent?).count p
    = owed past p - if p = refused then 1 else 0
  newestFirst : ∀ bind, ∃ kept : List WaitEvent,
    kept.Sublist (eventsAt bind (past.filterMap Call.dequeuedEvent?)) ∧
      eventsAt bind (later.filterMap Call.handedEvent?) = kept.reverse

/-- Nothing but this event is owed. -/
def OwesOnly (past : List (Call β)) (refused : β × WaitEvent) : Prop :=
  ∀ p, owed past p ≤ if p = refused then 1 else 0

/-- Where nothing follows, the siblings are handed back if there are none. -/
theorem siblingsReturned_nil_iff {past : List (Call β)} {refused : β × WaitEvent} :
    SiblingsReturned past refused [] ↔ OwesOnly past refused := by
  constructor
  · intro h p
    have honce := h.once p
    rw [List.filterMap_nil, List.count_nil] at honce
    omega
  · intro h
    refine ⟨fun p => ?_, fun bind => ⟨[], List.nil_sublist _, rfl⟩⟩
    have hle := h p
    rw [List.filterMap_nil, List.count_nil]
    omega

/-- **What a refused event does to a run**: the run returns an error, and the siblings of the event
are handed back exactly when nothing else is owed. -/
def RefusalRule {α : Type} (result : Except Error α) (log : List (Call β)) : Prop :=
  ∀ past bind event later, log = past ++ .restore bind (.event event) false :: later →
    (∃ err, result = .error err) ∧
      (SiblingsReturned past (bind, event) later ↔ OwesOnly past (bind, event))

/-- A run that stops at a refused restore follows the rule. -/
theorem StopsAtRefusal.rule {α : Type} {result : Except Error α} {w : World σ β}
    (h : StopsAtRefusal result w) : RefusalRule result w.log := by
  rintro past bind event later hlog
  rcases h with h | ⟨hrefused, herr⟩
  · refine absurd ?_ (h bind (.event event))
    rw [hlog]
    simp
  · rw [hlog] at hrefused
    obtain rfl := hrefused.later
    exact ⟨herr, siblingsReturned_nil_iff⟩

/-- **The siblings of a refused event are handed back exactly when there are none**, in every run
of a poll cycle and of a first match. -/
theorem refusal_siblings_iff (env : Env σ β φ ψ) (set : RegistrationSet) (fuel : Nat)
    {w : World σ β} (hlog : w.log = []) :
    (∀ (request : PollCycleRequest) (result : Except Error PollCycleOutcome) (w' : World σ β),
      (PollCycle.runPollCycle env set request fuel).run w = some (result, w') →
        RefusalRule result w'.log) ∧
    ∀ (request : LiveWaitRequest) (result : Except Error LiveWaitOutcome) (w' : World σ β),
      (Live.runFirstMatch env set request fuel).run w = some (result, w') →
        RefusalRule result w'.log :=
  ⟨fun _ _ _ hrun => (runPollCycle_stopsAtRefusal hlog hrun).rule,
    fun _ _ _ hrun => (runFirstMatch_stopsAtRefusal hlog hrun).rule⟩

end siblings

/-! ## A run that owns two events -/

/-- An observer that takes nothing back. -/
abbrev refusingEnv : Env QueueHost ResolvedStart Registration IdToken := queueEnvWith fun _ _ => false

open Case in
/-- An event of each registration of the pair waits. -/
def pairWorld : World QueueHost ResolvedStart :=
  QueueHost.world [
      ("reg:a", .event (waitEvent "reg:a" "method:a" "evt:1" "2026-08-15T16:01:00Z")),
      ("reg:b", .event (waitEvent "reg:b" "method:b" "evt:3" "2026-08-15T16:01:00Z"))]
    (ts "2026-08-15T16:02:00Z") []

open Case in
/-- Both runners over two events, with every restore refused. -/
theorem refusal_siblings_iff_pair :
    (∃ result w', (PollCycle.runPollCycle refusingEnv pairSet (pollCycleRequest pairSet) 10).run
        pairWorld = some (result, w') ∧ RefusalRule result w'.log) ∧
      ∃ result w', (Live.runFirstMatch refusingEnv pairSet liveWaitRequest 10).run pairWorld
        = some (result, w') ∧ RefusalRule result w'.log := by
  have hcycle : ((PollCycle.runPollCycle refusingEnv pairSet (pollCycleRequest pairSet) 10).run
      pairWorld).isSome = true := by
    decide +kernel
  have hmatch : ((Live.runFirstMatch refusingEnv pairSet liveWaitRequest 10).run
      pairWorld).isSome = true := by
    decide +kernel
  obtain ⟨⟨result, w⟩, hcycle⟩ := Option.isSome_iff_exists.mp hcycle
  obtain ⟨⟨result', w'⟩, hmatch⟩ := Option.isSome_iff_exists.mp hmatch
  have hlog : pairWorld.log = [] := rfl
  obtain ⟨hcycles, hmatches⟩ := refusal_siblings_iff refusingEnv pairSet 10 hlog
  exact ⟨⟨result, w, hcycle, hcycles _ _ _ hcycle⟩, result', w', hmatch, hmatches _ _ _ hmatch⟩

/-- The refused event a history ends with. -/
def lastRefused {β : Type} (log : List (Call β)) : Option (β × WaitEvent) :=
  match log.getLast? with
  | some (.restore bind (.event event) false) => some (bind, event)
  | _ => none

open Case in
/-- The event of the second registration is owned when that of the first is refused, and nobody
hands it back. -/
theorem refused_event_drops_sibling : ∃ result w' past bind event,
    (PollCycle.runPollCycle refusingEnv pairSet (pollCycleRequest pairSet) 10).run pairWorld
        = some (result, w') ∧
      w'.log = past ++ .restore bind (.event event) false :: [] ∧
      ¬ SiblingsReturned past (bind, event) [] := by
  let sibling : ResolvedStart × WaitEvent :=
    (⟨"reg:b", anchor "anc:cursor-0"⟩,
      waitEvent "reg:b" "method:b" "evt:3" "2026-08-15T16:01:00Z")
  have hdone : ((PollCycle.runPollCycle refusingEnv pairSet (pollCycleRequest pairSet) 10).run
      pairWorld).any (fun last => Decidable.decide (owed last.2.log.dropLast sibling = 1) &&
        (lastRefused last.2.log).any fun p => Decidable.decide (p ≠ sibling)) = true := by
    decide +kernel
  obtain ⟨⟨result, w'⟩, hrun, hlast⟩ := exists_of_any hdone
  obtain ⟨howed, hrefused⟩ := Bool.and_eq_true_iff.mp hlast
  obtain ⟨⟨bind, event⟩, hrefused, hne⟩ := exists_of_any hrefused
  have hlog : w'.log = w'.log.dropLast ++ [.restore bind (.event event) false] := by
    unfold lastRefused at hrefused
    split at hrefused
    · next bind' event' hget =>
      cases hrefused
      exact (List.dropLast_append_getLast? _ hget).symm
    · cases hrefused
  refine ⟨result, w', w'.log.dropLast, bind, event, hrun, hlog, fun hreturned => ?_⟩
  have honce := hreturned.once sibling
  rw [of_decide_eq_true howed, if_neg (Ne.symm (of_decide_eq_true hne))] at honce
  cases honce

end Waitprims
