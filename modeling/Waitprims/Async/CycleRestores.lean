import Mathlib
import Waitprims.Lib.History
import Waitprims.Async.CycleRun
import Waitprims.Async.FifoObserver
import Waitprims.Async.QueueObserver
import Waitprims.Testkit.Case

/-! # What a poll cycle passes to `restore_ready`

Only an event may be put back, to the bind it came from. `restore_owned_observations` filters for
events, but the drain of a bind and the leftovers of a recording hand back whatever they polled. So
a signal is put back exactly where it is polled late: behind an event the cycle has admitted from
the same bind, or once the bind has been visited.

* **`NoLateSignal`**, **`RestoresOwned`** — the condition and the property, both on the history.
* **`provenanceLedger`** — under the condition, whatever is owned was dequeued from its bind.
* **`StrictObserver`** — an observer that takes back exactly the events its binds minted.
* **`restores_owned`** — in a run without a late signal, every restore is of an event dequeued from
  the same bind, so a strict observer rejects none and loses no event. -/

namespace Waitprims

open Fueled History

variable {σ β φ ψ : Type}

/-- A signal is polled in time: its bind has not been visited, and if an event of it was admitted
the signal is an overflow. -/
def SignalInTime (past : List (Call β)) : Call β → Prop
  | .ready bind obs => observationIsReplayable obs = false →
      .visited bind ∉ past ∧ (.admitted bind ∈ past → obs = .overflow)
  | _ => True

/-- A restore is of an event that was dequeued from the same bind. -/
def RestoreOwned (past : List (Call β)) : Call β → Prop
  | .restore bind obs _ => observationIsReplayable obs = true ∧
      (.next bind obs ∈ past ∨ .ready bind obs ∈ past)
  | _ => True

/-- No signal was polled late. -/
def NoLateSignal (log : List (Call β)) : Prop := Orderly SignalInTime [] log

/-- Every restore is of an event that was dequeued from the same bind. -/
def RestoresOwned (log : List (Call β)) : Prop := Orderly RestoreOwned [] log

instance SignalInTime.decidable [DecidableEq β] (past : List (Call β)) :
    ∀ entry, Decidable (SignalInTime past entry)
  | .ready bind obs => inferInstanceAs (Decidable (observationIsReplayable obs = false →
      .visited bind ∉ past ∧ (.admitted bind ∈ past → obs = .overflow)))
  | .next .. | .restore .. | .admitted _ | .visited _ => isTrue trivial

instance RestoreOwned.decidable [DecidableEq β] (past : List (Call β)) :
    ∀ entry, Decidable (RestoreOwned past entry)
  | .restore bind obs _ => inferInstanceAs (Decidable (observationIsReplayable obs = true ∧
      (.next bind obs ∈ past ∨ .ready bind obs ∈ past)))
  | .next .. | .ready .. | .admitted _ | .visited _ => isTrue trivial

instance RestoresOwned.decidable [DecidableEq β] (log : List (Call β)) :
    Decidable (RestoresOwned log) :=
  Orderly.decidable [] log

instance NoLateSignal.decidable [DecidableEq β] (log : List (Call β)) :
    Decidable (NoLateSignal log) :=
  Orderly.decidable [] log

/-! ## Provenance as a ledger -/

/-- A marked bind has been marked in the history. -/
def Marked (log : List (Call β)) : Mark × β → Prop
  | (.fresh, _) => True
  | (.admitted, bind) => .admitted bind ∈ log
  | (.visited, bind) => .visited bind ∈ log

/-- An owned event was dequeued from its bind, and an owned signal must not be returned. -/
def Dequeued (log : List (Call β)) : Item β → Prop
  | .event _ bind e => .next bind (.event e) ∈ log ∨ .ready bind (.event e) ∈ log
  | .signal mark _ _ obs => ¬ MayReturn mark obs

/-- **Provenance** of what is marked and owned. -/
structure Provenance (marks : List (Mark × β)) (items : List (Item β)) (log : List (Call β)) :
    Prop where
  restores : RestoresOwned log
  marked : ∀ m ∈ marks, Marked log m
  dequeued : ∀ item ∈ items, Dequeued log item

theorem Marked.append {log entries : List (Call β)} {m : Mark × β} (h : Marked log m) :
    Marked (log ++ entries) m := by
  obtain ⟨mark, bind⟩ := m
  cases mark with
  | fresh => trivial
  | admitted => exact List.mem_append_left _ h
  | visited => exact List.mem_append_left _ h

theorem Dequeued.append {log entries : List (Call β)} {item : Item β} (h : Dequeued log item) :
    Dequeued (log ++ entries) item := by
  cases item with
  | event _ bind e => exact h.imp (List.mem_append_left _) (List.mem_append_left _)
  | signal => exact h

section Provenance

variable {marks : List (Mark × β)} {items : List (Item β)} {log : List (Call β)}

/-- Appending an entry that is in order keeps provenance. -/
theorem Provenance.snoc (h : Provenance marks items log) {entry : Call β}
    (hentry : RestoreOwned log entry) : Provenance marks items (log ++ [entry]) where
  restores := (orderly_snoc log entry).mpr ⟨h.restores, hentry⟩
  marked m hm := (h.marked m hm).append
  dequeued item hitem := (h.dequeued item hitem).append

theorem Provenance.add (h : Provenance marks items log) {item : Item β}
    (hitem : Dequeued log item) : Provenance marks (items ++ [item]) log where
  restores := h.restores
  marked := h.marked
  dequeued item' hmem := by
    rcases List.mem_append.mp hmem with hmem | hmem
    · exact h.dequeued item' hmem
    · rwa [List.mem_singleton.mp hmem]

theorem Provenance.drop {item : Item β} (h : Provenance marks (items ++ [item]) log) :
    Provenance marks items log where
  restores := h.restores
  marked := h.marked
  dequeued item' hmem := h.dequeued item' (List.mem_append_left _ hmem)

end Provenance

/-- **A `next` or a fresh poll** dequeues: the item has its entry, and a signal may not return. -/
theorem dequeued_of {mark : Mark} {slot : Nat} {bind : β} {obs : Observation} {log : List (Call β)}
    (hevent : .next bind obs ∈ log ∨ .ready bind obs ∈ log)
    (hsignal : observationIsReplayable obs = false → ¬ MayReturn mark obs) :
    Dequeued log (Item.of mark slot bind obs) := by
  cases obs with
  | event e => exact hevent
  | _ => exact hsignal rfl

/-- A signal polled in time may not return. -/
theorem not_mayReturn {marks : List (Mark × β)} {mark : Mark} {bind : β} {obs : Observation}
    {log : List (Call β)} (hmarked : ∀ m ∈ marks, Marked log m)
    (hmark : mark = .fresh ∨ (mark, bind) ∈ marks)
    (hintime : SignalInTime log (.ready bind obs)) (hobs : observationIsReplayable obs = false) :
    ¬ MayReturn mark obs := by
  obtain ⟨hvisited, hadmitted⟩ := hintime hobs
  rintro (rfl | ⟨rfl, hoverflow⟩)
  · rcases hmark with hmark | hmark
    · cases hmark
    · exact hvisited (hmarked _ hmark)
  · rcases hmark with hmark | hmark
    · cases hmark
    · exact hoverflow (hadmitted (hmarked _ hmark))

/-- What a run owns, as long as no signal was polled late. -/
def ProvenanceOwn (marks : List (Mark × β)) (items : List (Item β)) (w : World σ β) : Prop :=
  NoLateSignal w.log → Provenance marks items w.log

/-- A record of one entry that is in order. -/
theorem record_provenance {entry : Call β} {marks marks' : List (Mark × β)}
    {items items' : List (Item β)}
    (h : ∀ log, SignalInTime log entry → Provenance marks items log →
      Provenance marks' items' (log ++ [entry])) :
    Triple (ProvenanceOwn marks items) (Act.record [entry] : Act σ β Unit) fun _ =>
      ProvenanceOwn marks' items' := by
  rintro w hown _ _ ⟨⟩ hlate
  obtain ⟨hlog, hentry⟩ := (orderly_snoc w.log entry).mp hlate
  exact h w.log hentry (hown hlog)

theorem host_provenance {α : Type} {marks : List (Mark × β)} {items : List (Item β)}
    {f : σ → α × σ} : Triple (ProvenanceOwn marks items) (Act.host f) fun _ =>
      ProvenanceOwn marks items :=
  host_spec fun _ h => h

/-- A restore of what may be restored. -/
theorem restore_provenance {env : Env σ β φ ψ} {marks : List (Mark × β)} {items : List (Item β)}
    {item : Item β} {bind : β} {obs : Observation}
    (howned : ∀ log, Dequeued log item → RestoreOwned log (.restore bind obs true) ∧
      RestoreOwned log (.restore bind obs false)) :
    Triple (ProvenanceOwn marks (items ++ [item])) (env.restoreReady bind obs)
      fun answer w => match answer with
        | .ok _ => ProvenanceOwn marks items w
        | .error _ => NoLateSignal w.log → RestoresOwned w.log := by
  refine Triple.bind host_provenance fun answer => ?_
  have hrecord : Triple (ProvenanceOwn marks (items ++ [item]))
      (Act.record [.restore bind obs answer.toBool] : Act σ β Unit) fun _ =>
        ProvenanceOwn marks items := by
    refine record_provenance fun log _ h => h.drop.snoc ?_
    have hitem := howned log (h.dequeued item (List.mem_append_right _ List.mem_cons_self))
    cases answer with
    | ok _ => exact hitem.1
    | error _ => exact hitem.2
  refine Triple.bind hrecord fun _ => Triple.pure fun w h => ?_
  cases answer with
  | ok _ => exact h
  | error _ => exact fun hlate => (h hlate).restores

/-- **Provenance is a ledger**, whatever the observer does. -/
def provenanceLedger (env : Env σ β φ ψ) (ids : List IdToken) : Ledger env ids where
  own := ProvenanceOwn
  broken w := NoLateSignal w.log → RestoresOwned w.log
  broken_host := fun _ h => h
  aim _ _ := True
  seat _ _ := True
  attached _ _ := True
  settle := fun hmarks hsub _ h hlate =>
    ⟨(h hlate).restores, fun m hm => (h hlate).marked m (hmarks hm),
      fun item hitem => (h hlate).dequeued item (hsub hitem)⟩
  resolved := fun _ h => h
  bind := fun _ _ _ => host_provenance.weaken fun _ _ h => ⟨trivial, h⟩
  pollBind := fun _ _ _ => host_provenance.weaken fun _ _ h => ⟨fun _ _ => trivial, h⟩
  dropBind := fun _ _ _ => host_provenance
  next := fun _ _ _ => Triple.bind host_provenance fun _ =>
    Triple.pure fun _ h => ⟨rfl, trivial, h⟩
  pollNext := by
    intro slot bind fut marks items _ _
    refine Triple.bind host_provenance ?_
    rintro ((err | obs) | _)
    · exact Triple.pure fun w h => h
    · refine Triple.bind (record_provenance fun log _ h => ?_) fun _ => Triple.pure fun w h => h
      have hnext : Provenance marks items (log ++ [.next bind obs]) := h.snoc trivial
      refine hnext.add (dequeued_of (Or.inl (by simp)) fun _ => ?_)
      rintro (hmark | ⟨hmark, -⟩) <;> cases hmark
    · exact Triple.pure fun w h => h
  dropNext := fun _ _ _ => host_provenance
  pollReady := by
    intro slot bind mark marks items _ hmark
    refine Triple.bind host_provenance fun answer => ?_
    cases answer with
    | none =>
      exact Triple.bind (record_spec fun w h => by simpa using h) fun _ => Triple.pure fun w h => h
    | some obs =>
      refine Triple.bind (record_provenance fun log hintime h => ?_) fun _ =>
        Triple.pure fun w h => h
      have hnext : Provenance marks items (log ++ [.ready bind obs]) := h.snoc trivial
      exact hnext.add (dequeued_of (Or.inr (by simp)) (not_mayReturn h.marked hmark hintime))
  restoreEvent := fun _ _ _ => restore_provenance fun _ h => ⟨⟨rfl, h⟩, rfl, h⟩
  restoreSignal := fun _ _ _ hmay _ => restore_provenance fun _ h => absurd hmay h
  markAdmitted := by
    intro bind marks items
    refine record_provenance fun log _ h => ?_
    have hnext : Provenance marks items (log ++ [.admitted bind]) := h.snoc trivial
    refine ⟨hnext.restores, fun m hm => ?_, hnext.dequeued⟩
    rcases List.mem_cons.mp hm with rfl | hm
    · exact List.mem_append_right _ List.mem_cons_self
    · exact hnext.marked m hm
  markVisited := by
    intro bind marks items
    refine record_provenance fun log _ h => ?_
    have hnext : Provenance marks items (log ++ [.visited bind]) := h.snoc trivial
    refine ⟨hnext.restores, fun m hm => ?_, hnext.dequeued⟩
    rcases List.mem_cons.mp hm with rfl | hm
    · exact List.mem_append_right _ List.mem_cons_self
    · exact hnext.marked m hm
  now := fun _ _ => host_provenance
  sleepUntil := fun _ _ _ => host_provenance
  isCancelled := fun _ _ => host_provenance
  park := fun _ _ => host_provenance

/-! ## Strict observers -/

/-- **A strict observer** takes back exactly the events its bind minted. -/
structure StrictObserver (env : Env σ β φ ψ) extends QueuedObserver env where
  owns : β → WaitEvent → Prop
  /-- A pending `next` is one of a bind. -/
  serves : ψ → β → Prop
  next_serves : ∀ bind s, serves (env.nextStep bind s).1 bind
  pollNext_owns : ∀ fut bind s event, serves fut bind →
    (env.pollNextStep fut s).1 = .ready (.ok (.event event)) → owns bind event
  pollReady_owns : ∀ bind s event, (env.pollReadyStep bind s).1 = some (.event event) →
    owns bind event
  restore_iff : ∀ bind obs s, (env.restoreReadyStep bind obs s).1 = .ok () ↔
    ∃ event, obs = .event event ∧ owns bind event

section strict

variable {env : Env σ β φ ψ} (strict : StrictObserver env)

/-- What a strict observer answers: the events it yields are minted by their bind, and it accepts
exactly such events. -/
def Answers : Call β → Prop
  | .next bind (.event event) => strict.owns bind event
  | .ready bind (.event event) => strict.owns bind event
  | .restore bind obs accepted => accepted = true ↔ ∃ event, obs = .event event ∧
      strict.owns bind event
  | _ => True

/-- The history of a strict observer. -/
def Strictly (w : World σ β) : Prop := ∀ entry ∈ w.log, Answers strict entry

variable {strict}

/-- A step of the host adds nothing to the history. -/
theorem host_strictly {α : Type} {f : σ → α × σ} :
    Triple (Strictly strict) (Act.host f) fun _ => Strictly strict :=
  host_spec fun _ h => h

theorem record_strictly {entry : Call β} (hentry : Answers strict entry) :
    Triple (Strictly strict) (Act.record [entry] : Act σ β Unit) fun _ => Strictly strict := by
  refine record_spec fun w h entry' hmem => ?_
  rcases List.mem_append.mp hmem with hmem | hmem
  · exact h entry' hmem
  · rwa [List.mem_singleton.mp hmem]

/-- A restore is answered by ownership. -/
theorem restore_strictly {bind : β} {obs : Observation} :
    Triple (Strictly strict) (env.restoreReady bind obs) fun answer w => match answer with
      | .ok _ => Strictly strict w
      | .error _ => Strictly strict w := by
  have hstep : Triple (Strictly strict) (Act.host (env.restoreReadyStep bind obs)) fun answer w =>
      Answers strict (.restore bind obs answer.toBool) ∧ Strictly strict w := by
    refine host_spec fun w h => ⟨?_, h⟩
    have hiff := strict.restore_iff bind obs w.host
    cases hanswer : (env.restoreReadyStep bind obs w.host).1 with
    | ok _ =>
      rw [hanswer] at hiff
      exact ⟨fun _ => hiff.mp rfl, fun _ => rfl⟩
    | error err =>
      rw [hanswer] at hiff
      refine ⟨fun h => ?_, fun h => ?_⟩
      · cases h
      · cases hiff.mpr h
  refine Triple.bind hstep fun answer => Triple.assume fun hanswer => ?_
  refine Triple.bind (record_strictly hanswer) fun _ => Triple.pure fun w h => ?_
  cases answer <;> exact h

variable (strict)

/-- **The answers of a strict observer are a ledger.** -/
def strictLedger (ids : List IdToken) : Ledger env ids where
  own _ _ := Strictly strict
  broken := Strictly strict
  broken_host := fun _ h => h
  aim _ _ := True
  seat _ _ := True
  attached bind fut := strict.serves fut bind
  settle := fun _ _ _ h => h
  resolved := fun _ h => h
  bind := fun _ _ _ => host_strictly.weaken fun _ _ h => ⟨trivial, h⟩
  pollBind := fun _ _ _ => host_strictly.weaken fun _ _ h => ⟨fun _ _ => trivial, h⟩
  dropBind := fun _ _ _ => host_strictly
  next := by
    intro slot bind _ _ _
    have hstep : Triple (Strictly strict) (Act.host (env.nextStep bind))
        fun fut w => strict.serves fut bind ∧ Strictly strict w :=
      host_spec fun w h => ⟨strict.next_serves bind w.host, h⟩
    exact Triple.bind hstep fun fut => Triple.pure fun w h => ⟨rfl, h⟩
  pollNext := by
    intro slot bind fut _ _ _ hserves
    have hstep : Triple (Strictly strict) (Act.host (env.pollNextStep fut)) fun answer w =>
        (∀ event, answer = .ready (.ok (.event event)) → strict.owns bind event) ∧
          Strictly strict w :=
      host_spec fun w h => ⟨fun event => strict.pollNext_owns fut bind w.host event hserves, h⟩
    refine Triple.bind hstep ?_
    rintro ((err | obs) | _)
    · exact Triple.pure fun w h => h.2
    · refine Triple.assume fun howns => ?_
      refine Triple.bind (record_strictly ?_) fun _ => Triple.pure fun w h => h
      cases obs with
      | event e => exact howns e rfl
      | _ => trivial
    · exact Triple.pure fun w h => h.2
  dropNext := fun _ _ _ => host_strictly
  pollReady := by
    intro slot bind mark _ _ _ _
    have hstep : Triple (Strictly strict) (Act.host (env.pollReadyStep bind)) fun answer w =>
        (∀ event, answer = some (.event event) → strict.owns bind event) ∧ Strictly strict w :=
      host_spec fun w h => ⟨fun event => strict.pollReady_owns bind w.host event, h⟩
    refine Triple.bind hstep fun answer => Triple.assume fun howns => ?_
    cases answer with
    | none =>
      exact Triple.bind (record_spec fun w h => by simpa using h) fun _ => Triple.pure fun w h => h
    | some obs =>
      refine Triple.bind (record_strictly ?_) fun _ => Triple.pure fun w h => h
      cases obs with
      | event e => exact howns e rfl
      | _ => trivial
  restoreEvent := fun _ _ _ => restore_strictly
  restoreSignal := fun _ _ _ _ _ => restore_strictly
  markAdmitted := fun _ _ => record_strictly trivial
  markVisited := fun _ _ => record_strictly trivial
  now := fun _ _ => host_strictly
  sleepUntil := fun _ _ _ => host_strictly
  isCancelled := fun _ _ => host_strictly
  park := fun _ _ => host_strictly

end strict

/-- **The strict queueing environment** owns the events of each bind's registration. -/
def strictQueue : StrictObserver strictEnv where
  toQueuedObserver := queueQueued ownsEvent
  owns bind event := event.registrationId = bind.registrationId
  serves r bind := bind.registrationId = r
  next_serves _ _ := rfl
  pollNext_owns := by
    rintro _ bind s event rfl h
    exact (queueQueued ownsEvent).pollNext_label bind.registrationId s event h
  pollReady_owns _ _ _ h := take_label h
  restore_iff := by
    intro bind obs s
    show (if ownsEvent bind obs then _ else _ : Except Error Unit × QueueHost).1 = .ok () ↔ _
    cases obs with
    | event e =>
      by_cases hown : e.registrationId = bind.registrationId <;> simp [ownsEvent, hown]
    | _ => simp [ownsEvent]

/-! ## Runs -/

namespace PollCycle

variable {env : Env σ β φ ψ} {set : RegistrationSet} {request : PollCycleRequest}

/-- A run from an empty history restores only what it owns, unless a signal was polled late. -/
theorem runPollCycle_restores {fuel : Nat} {w w' : World σ β} (hlog : w.log = [])
    {result : Except Error PollCycleOutcome}
    (hrun : (runPollCycle env set request fuel).run w = some (result, w'))
    (hlate : NoLateSignal w'.log) : RestoresOwned w'.log := by
  have hspec : ETriple _ (runPollCycle env set request fuel) _ _ :=
    runPollCycle_spec (provenanceLedger env _) rfl fuel
  have hstart : ProvenanceOwn [] [] w := by
    intro _
    rw [hlog]
    exact ⟨orderly_nil [], by simp, by simp⟩
  have hend := hspec w hstart result w' hrun
  cases result with
  | ok out => exact (hend hlate).restores
  | error err =>
    rcases hend with hend | hend
    · exact (hend hlate).restores
    · exact hend hlate

/-- The history of a run of a strict observer. -/
theorem runPollCycle_strictly (strict : StrictObserver env) {fuel : Nat} {w w' : World σ β}
    (hlog : w.log = []) {result : Except Error PollCycleOutcome}
    (hrun : (runPollCycle env set request fuel).run w = some (result, w')) :
    Strictly strict w' := by
  have hspec : ETriple _ (runPollCycle env set request fuel) _ _ :=
    runPollCycle_spec (strictLedger strict _) rfl fuel
  have hstart : Strictly strict w := by simp [Strictly, hlog]
  have hend := hspec w hstart result w' hrun
  cases result with
  | ok out => exact hend
  | error err => exact hend.elim id id

/-- A strict observer accepts every restore of a history that restores only what it owns. -/
theorem accepted_of_owned {strict : StrictObserver env} {w : World σ β}
    (hstrict : Strictly strict w) (howned : RestoresOwned w.log) (bind : β) (obs : Observation) :
    .restore bind obs false ∉ w.log := by
  intro hmem
  obtain ⟨past, later, hlog, hreplay, hdequeued⟩ := howned.guard_of_mem hmem
  have hpast : ∀ entry ∈ past, Answers strict entry := fun entry hentry =>
    hstrict entry (hlog ▸ List.mem_append_left _ hentry)
  -- The entry was rejected, so its observation is no event that the bind minted.
  have hforeign := (hstrict _ hmem).not.mp Bool.false_ne_true
  cases obs with
  | event event =>
    rcases hdequeued with hnext | hready
    · exact hforeign ⟨event, rfl, hpast _ hnext⟩
    · exact hforeign ⟨event, rfl, hpast _ hready⟩
  | _ => cases hreplay

/-- **Only events are restored, in a run without a late signal**, each to the bind it was dequeued
from. A strict observer then rejects no restore, and every queue is conserved. -/
theorem restores_owned (fuel : Nat) {w w' : World σ β} (hlog : w.log = [])
    {result : Except Error PollCycleOutcome}
    (hrun : (runPollCycle env set request fuel).run w = some (result, w'))
    (hlate : NoLateSignal w'.log) :
    RestoresOwned w'.log ∧
      ∀ strict : StrictObserver env, (set.registrations.map Registration.registrationId).Nodup →
        (∀ bind obs, .restore bind obs false ∉ w'.log) ∧
          ∀ r, Fifo.Quiet (strict.view r) w.host w'.host := by
  have howned := runPollCycle_restores hlog hrun hlate
  refine ⟨howned, fun strict hids => ?_⟩
  have haccepted := accepted_of_owned (runPollCycle_strictly strict hlog hrun) howned
  refine ⟨haccepted, fun r => ?_⟩
  have hspec : ETriple _ (runPollCycle env set request fuel) _ _ :=
    runPollCycle_spec (custodyLedger hids strict.toQueuedObserver r w.host) rfl fuel
  have hend := hspec w (CustodyOwn.start w) result w' hrun
  cases result with
  | ok out => exact CustodyOwn.conserved hend
  | error err =>
    rcases hend with hend | ⟨bind, obs, _, _, hrejected⟩
    · exact CustodyOwn.conserved hend
    · exact absurd hrejected (haccepted bind obs)

open Case in
/-- Three events with no signal behind them: the strict observer takes all of them back. -/
theorem restores_owned_pair :
    ∃ result w', (runPollCycle strictEnv pairSet (pollCycleRequest pairSet) 10).run
        (QueueHost.world (pairWaiting.take 3) (ts "2026-08-15T16:02:00Z") []) = some (result, w') ∧
      NoLateSignal w'.log ∧ RestoresOwned w'.log ∧ (∀ bind obs, .restore bind obs false ∉ w'.log) ∧
      ∀ r, Fifo.Quiet (strictQueue.view r)
        (QueueHost.world (pairWaiting.take 3) (ts "2026-08-15T16:02:00Z") []).host w'.host := by
  have hdone : ((runPollCycle strictEnv pairSet (pollCycleRequest pairSet) 10).run
      (QueueHost.world (pairWaiting.take 3) (ts "2026-08-15T16:02:00Z") [])).any
        (fun last => decide (NoLateSignal last.2.log)) = true := by
    decide +kernel
  obtain ⟨⟨result, w'⟩, hrun, hlate⟩ := exists_of_any hdone
  have hlate := of_decide_eq_true hlate
  obtain ⟨howned, hstrict⟩ := restores_owned 10 rfl hrun hlate
  obtain ⟨haccepted, hquiet⟩ := hstrict strictQueue (by decide)
  exact ⟨result, w', hrun, hlate, howned, haccepted, hquiet⟩

open Case in
/-- A failure signal queued behind an event: the drain hands the signal back, the strict observer
rejects it, and the cycle fails with the event of that bind lost. -/
theorem signal_restored_and_event_lost :
    ∃ w', (runPollCycle strictEnv pairSet (pollCycleRequest pairSet) 10).run
        (QueueHost.world pairWaiting (ts "2026-08-15T16:02:00Z") [])
          = some (.error (validationError "/observer/restore_ready" "cross_bind_restore"), w') ∧
      ¬ RestoresOwned w'.log ∧
      ¬ Fifo.Quiet (strictQueue.view "reg:b")
        (QueueHost.world pairWaiting (ts "2026-08-15T16:02:00Z") []).host w'.host := by
  have hdone : ((runPollCycle strictEnv pairSet (pollCycleRequest pairSet) 10).run
      (QueueHost.world pairWaiting (ts "2026-08-15T16:02:00Z") [])).any (fun last =>
        decide (failure last.1
            = some (validationError "/observer/restore_ready" "cross_bind_restore") ∧
          ¬ RestoresOwned last.2.log ∧ QueueHost.eventsOf "reg:b" last.2.host.waiting = [])) = true := by
    decide +kernel
  obtain ⟨⟨result, w'⟩, hrun, hlast⟩ := exists_of_any hdone
  obtain ⟨hfailure, hrestores, hempty⟩ := of_decide_eq_true hlast
  refine ⟨w', ?_, hrestores, ?_⟩
  · rw [hrun]
    exact congrArg (fun r => some (r, w')) (failure_eq_some hfailure)
  · intro hquiet
    have hheld := (Fifo.custody_nil_iff.mpr hquiet).length_le
    have hwaiting : (QueueHost.eventsOf "reg:b" pairWaiting).length = 1 := by decide
    have hbefore : ((strictQueue.view "reg:b").queue
        (QueueHost.world pairWaiting (ts "2026-08-15T16:02:00Z") []).host).length = 1 := hwaiting
    have hafter : (strictQueue.view "reg:b").queue w'.host = [] := hempty
    rw [hbefore, hafter] at hheld
    simp at hheld

end PollCycle

end Waitprims
