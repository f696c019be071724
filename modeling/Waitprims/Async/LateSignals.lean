import Mathlib
import Waitprims.Async.CycleSignals
import Waitprims.Async.CycleRestores

/-! # Fault signals that are polled in time

The drain of a bind and the leftovers of a recording hand back what they polled, a fault signal too.
They poll behind an admitted event and after the visit of a bind; everywhere else a signal goes to
the visit of its arm. So a signal of a bind that is never polled late is never handed back, and what
is not handed back stains the arm.

* **`NeverLate`** — no poll that answered the signal came late.
* **`keptLedger`** — then the signal is never put back.
* **`dirty_arm_reported`** — a fault signal of a required arm that is never polled late is
  reported. -/

namespace Waitprims

open Fueled History

variable {σ β φ ψ : Type}

namespace PollCycle

section punctual

variable (owner : β) (signal : Observation)

/-- A poll of the signal is in time: its bind has not been visited, and if an event of it was
admitted the signal is an overflow. -/
def PolledInTime (past : List (Call β)) : Call β → Prop
  | .ready bind obs => bind = owner → obs = signal →
      .visited bind ∉ past ∧ (.admitted bind ∈ past → obs = .overflow)
  | _ => True

/-- **No poll of the signal is late.** -/
def NeverLate (log : List (Call β)) : Prop := Orderly (PolledInTime owner signal) [] log

instance PolledInTime.decidable [DecidableEq β] (past : List (Call β)) :
    ∀ entry, Decidable (PolledInTime owner signal past entry)
  | .ready bind obs => inferInstanceAs (Decidable (bind = owner → obs = signal →
      .visited bind ∉ past ∧ (.admitted bind ∈ past → obs = .overflow)))
  | .next .. | .restore .. | .admitted _ | .visited _ => isTrue trivial

instance NeverLate.decidable [DecidableEq β] (log : List (Call β)) :
    Decidable (NeverLate owner signal log) :=
  Orderly.decidable [] log

/-- An item is not the signal, or one that may not be returned. -/
def Held : Item β → Prop
  | .event .. => True
  | .signal mark _ bind obs => bind = owner → obs = signal → ¬ MayReturn mark obs

/-- **What is kept**: every mark is in the history, the signal may not be returned, and it never
was. -/
structure Kept (marks : List (Mark × β)) (items : List (Item β)) (log : List (Call β)) : Prop where
  marked : ∀ m ∈ marks, Marked log m
  held : ∀ item ∈ items, Held owner signal item
  unreturned : ∀ accepted, .restore owner signal accepted ∉ log

/-- What a run keeps, as long as no poll of the signal was late. -/
def KeptOwn (marks : List (Mark × β)) (items : List (Item β)) (w : World σ β) : Prop :=
  NeverLate owner signal w.log → Kept owner signal marks items w.log

variable {owner signal} {marks marks' : List (Mark × β)} {items items' : List (Item β)}
  {log : List (Call β)}

/-- An entry that is no restore of the signal. -/
theorem Kept.snoc (h : Kept owner signal marks items log) {entry : Call β}
    (hentry : ∀ accepted, entry ≠ .restore owner signal accepted) :
    Kept owner signal marks items (log ++ [entry]) where
  marked m hm := (h.marked m hm).append
  held := h.held
  unreturned accepted hmem := by
    rcases List.mem_append.mp hmem with hmem | hmem
    · exact h.unreturned accepted hmem
    · exact hentry accepted (List.mem_singleton.mp hmem).symm

/-- A mark that the entry sets. -/
theorem Kept.mark (h : Kept owner signal marks items log) {m : Mark × β} (hm : Marked log m) :
    Kept owner signal (m :: marks) items log where
  marked m' hmem := by
    rcases List.mem_cons.mp hmem with rfl | hmem
    · exact hm
    · exact h.marked m' hmem
  held := h.held
  unreturned := h.unreturned

/-- An item that is dequeued. -/
theorem Kept.add (h : Kept owner signal marks items log) {item : Item β}
    (hitem : Held owner signal item) : Kept owner signal marks (items ++ [item]) log where
  marked := h.marked
  held item' hmem := by
    rcases List.mem_append.mp hmem with hmem | hmem
    · exact h.held item' hmem
    · rwa [List.mem_singleton.mp hmem]
  unreturned := h.unreturned

/-- Items and marks may be let go of. -/
theorem Kept.sub (h : Kept owner signal marks items log) (hmarks : marks' ⊆ marks)
    (hitems : items' ⊆ items) : Kept owner signal marks' items' log where
  marked m hm := h.marked m (hmarks hm)
  held item hmem := h.held item (hitems hmem)
  unreturned := h.unreturned

/-- What is dequeued is held if the signal may not be returned from there. -/
theorem held_of {mark : Mark} {slot : Nat} {bind : β} {obs : Observation}
    (h : bind = owner → obs = signal → observationIsReplayable obs = false → ¬ MayReturn mark obs) :
    Held owner signal (Item.of mark slot bind obs) := by
  cases obs with
  | event e => trivial
  | _ => exact fun howner hsignal => h howner hsignal rfl

/-- A record of one entry that is in order. -/
theorem record_kept {entry : Call β}
    (h : ∀ log, PolledInTime owner signal log entry → Kept owner signal marks items log →
      Kept owner signal marks' items' (log ++ [entry])) :
    Triple (KeptOwn owner signal marks items) (Act.record [entry] : Act σ β Unit) fun _ =>
      KeptOwn owner signal marks' items' := by
  rintro w hown _ _ ⟨⟩ hlate
  obtain ⟨hlog, hentry⟩ := (orderly_snoc w.log entry).mp hlate
  exact h w.log hentry (hown hlog)

/-- A step of the host adds nothing to the history. -/
theorem host_kept {α : Type} {f : σ → α × σ} :
    Triple (KeptOwn owner signal marks items) (Act.host f) fun _ =>
      KeptOwn owner signal marks items :=
  host_spec fun _ h => h

/-- A restore of anything but the signal. -/
theorem restore_kept {env : Env σ β φ ψ} {item : Item β} {bind : β} {obs : Observation}
    (hother : Held owner signal item → ¬ (bind = owner ∧ obs = signal)) :
    Triple (KeptOwn owner signal marks (items ++ [item])) (env.restoreReady bind obs)
      fun answer w => match answer with
        | .ok _ => KeptOwn owner signal marks items w
        | .error _ => KeptOwn owner signal [] [] w := by
  refine Triple.bind host_kept fun answer => ?_
  have hrecord : Triple (KeptOwn owner signal marks (items ++ [item]))
      (Act.record [.restore bind obs answer.toBool] : Act σ β Unit) fun _ =>
        KeptOwn owner signal marks items := by
    refine record_kept fun log _ h => ?_
    have hitem := h.held item (List.mem_append_right items List.mem_cons_self)
    refine (h.sub (List.Subset.refl marks) (List.subset_append_left items _)).snoc ?_
    rintro accepted ⟨⟩
    exact hother hitem ⟨rfl, rfl⟩
  refine Triple.bind hrecord fun _ => Triple.pure fun w h => ?_
  cases answer with
  | ok _ => exact h
  | error _ => exact fun hlate => (h hlate).sub (List.nil_subset _) (List.nil_subset _)

variable (owner signal)

/-- **Never returning a signal polled in time is a ledger**, whatever the observer does. -/
def keptLedger (env : Env σ β φ ψ) (ids : List IdToken)
    (hsignal : observationIsReplayable signal = false) : Ledger env ids where
  own := KeptOwn owner signal
  broken := KeptOwn owner signal [] []
  broken_host := fun _ h => h
  aim _ _ := True
  seat _ _ := True
  attached _ _ := True
  settle := fun hmarks hsub _ h hlate => (h hlate).sub hmarks hsub
  resolved := fun _ h => h
  bind := fun _ _ _ => host_kept.weaken fun _ _ h => ⟨trivial, h⟩
  pollBind := fun _ _ _ => host_kept.weaken fun _ _ h => ⟨fun _ _ => trivial, h⟩
  dropBind := fun _ _ _ => host_kept
  next := fun _ _ _ => Triple.bind host_kept fun _ => Triple.pure fun _ h => ⟨rfl, trivial, h⟩
  pollNext := by
    intro slot bind fut marks items _ _
    refine Triple.bind host_kept ?_
    rintro ((err | obs) | _)
    · exact Triple.pure fun w h => h
    · refine Triple.bind (record_kept fun log _ h => ?_) fun _ => Triple.pure fun w h => h
      refine (h.snoc (by simp)).add (held_of fun _ _ _ => ?_)
      -- What a `next` took is fresh.
      rintro (hmark | ⟨hmark, -⟩) <;> cases hmark
    · exact Triple.pure fun w h => h
  dropNext := fun _ _ _ => host_kept
  pollReady := by
    intro slot bind mark marks items _ hmark
    refine Triple.bind host_kept fun answer => ?_
    cases answer with
    | none =>
      exact Triple.bind (record_spec fun w h => by simpa using h) fun _ => Triple.pure fun w h => h
    | some obs =>
      refine Triple.bind (record_kept fun log hintime h => ?_) fun _ => Triple.pure fun w h => h
      refine (h.snoc (by simp)).add (held_of fun howner hobs hreplay => ?_)
      exact not_mayReturn h.marked hmark (fun _ => hintime howner hobs) hreplay
  restoreEvent := fun _ _ _ => restore_kept fun _ hsame => by
    rw [← hsame.2] at hsignal
    cases hsignal
  restoreSignal := fun _ _ _ hmay _ => restore_kept fun hheld hsame => hheld hsame.1 hsame.2 hmay
  markAdmitted := fun _ _ => record_kept fun _ _ h =>
    (h.snoc (by simp)).mark (List.mem_append_right _ List.mem_cons_self)
  markVisited := fun _ _ => record_kept fun _ _ h =>
    (h.snoc (by simp)).mark (List.mem_append_right _ List.mem_cons_self)
  now := fun _ _ => host_kept
  sleepUntil := fun _ _ _ => host_kept
  isCancelled := fun _ _ => host_kept
  park := fun _ _ => host_kept

end punctual

variable {env : Env σ β φ ψ} {set : RegistrationSet} {request : PollCycleRequest} {owner : β}
  {signal : Observation} {outcome : PollCycleOutcome}

/-- A signal that is never polled late is never handed back. -/
theorem runPollCycle_kept (hsignal : observationIsReplayable signal = false) {fuel : Nat}
    {w w' : World σ β} (hlog : w.log = []) {result : Except Error PollCycleOutcome}
    (hrun : (runPollCycle env set request fuel).run w = some (result, w'))
    (hlate : NeverLate owner signal w'.log) (accepted : Bool) :
    .restore owner signal accepted ∉ w'.log := by
  have hspec : ETriple _ (runPollCycle env set request fuel) _ _ :=
    runPollCycle_spec (keptLedger owner signal env _ hsignal) rfl fuel
  have hstart : KeptOwn owner signal [] [] w := by
    intro _
    rw [hlog]
    exact ⟨by simp, by simp, by simp⟩
  have hend := hspec w hstart result w' hrun
  cases result with
  | ok out => exact (hend hlate).unreturned accepted
  | error err => exact (hend.elim id id hlate).unreturned accepted

/-- **A fault signal of a required arm is reported** if it is never polled late: in a run that
returns an outcome, if a bind of a required registration yielded the signal, then coverage is
incomplete and the kind is no clean one. -/
theorem dirty_arm_reported [DecidableEq β] (labelled : Labelled env) (fuel : Nat)
    (hfault : signal.IsFault)
    (hrequired : ∀ registration ∈ set.registrations,
      registration.registrationId = env.registrationId owner → registration.required = true)
    {w w' : World σ β} (hlog : w.log = [])
    (hrun : (runPollCycle env set request fuel).run w = some (.ok outcome, w'))
    (hyields : .next owner signal ∈ w'.log ∨ .ready owner signal ∈ w'.log)
    (hlate : NeverLate owner signal w'.log) :
    outcome.coverageComplete = false ∧
      outcome.outcomeKind ∉ [OutcomeKind.events, .noChange, .logicalDeadman] := by
  refine kept_signal_reported labelled fuel hfault hrequired hlog hrun ?_
  have hback : w'.log.countP (HandsBack owner signal) = 0 := by
    refine List.countP_eq_zero.mpr fun entry hentry hback => ?_
    cases entry with
    | restore bind obs accepted =>
      obtain ⟨rfl, rfl⟩ := of_decide_eq_true hback
      exact runPollCycle_kept hfault.not_replayable hlog hrun hlate accepted hentry
    | _ => cases hback
  have hyielded : ∃ entry ∈ w'.log, Yields owner signal entry = true :=
    hyields.elim (fun h => ⟨_, h, by simp [Yields]⟩) fun h => ⟨_, h, by simp [Yields]⟩
  rw [hback]
  exact List.countP_pos_iff.mpr hyielded

open Case in
/-- An outage of the second arm, next to an event of the first. -/
theorem dirty_arm_reported_pair :
    ∃ outcome w', (runPollCycle queueEnv pairSet (pollCycleRequest pairSet) 10).run
        (QueueHost.world (("reg:b", .outage "method_unavailable") :: pairWaiting.take 1)
          (ts "2026-08-15T16:02:00Z") []) = some (.ok outcome, w') ∧
      outcome.coverageComplete = false ∧
        outcome.outcomeKind ∉ [OutcomeKind.events, .noChange, .logicalDeadman] := by
  have hdone : ((runPollCycle queueEnv pairSet (pollCycleRequest pairSet) 10).run
      (QueueHost.world (("reg:b", .outage "method_unavailable") :: pairWaiting.take 1)
        (ts "2026-08-15T16:02:00Z") [])).any (fun last => (success last.1).isSome &&
          decide ((.next ⟨"reg:b", anchor "anc:cursor-0"⟩ (.outage "method_unavailable")
                ∈ last.2.log ∨
              .ready ⟨"reg:b", anchor "anc:cursor-0"⟩ (.outage "method_unavailable")
                ∈ last.2.log) ∧
            NeverLate ⟨"reg:b", anchor "anc:cursor-0"⟩ (.outage "method_unavailable")
              last.2.log)) = true := by
    decide +kernel
  obtain ⟨⟨result, w'⟩, hrun, hlast⟩ := exists_of_any hdone
  rw [Bool.and_eq_true] at hlast
  obtain ⟨outcome, hresult⟩ := Option.isSome_iff_exists.mp hlast.1
  have hok : result = .ok outcome := success_eq_some hresult
  have hfault : Observation.IsFault (.outage "method_unavailable") := trivial
  obtain ⟨hyields, hlate⟩ := of_decide_eq_true hlast.2
  rw [hok] at hrun
  exact ⟨outcome, w', hrun,
    dirty_arm_reported queueFifo.toLabelled 10 hfault (by decide) rfl hrun hyields hlate⟩

open Case in
/-- A failure signal queued behind an event of a required arm: the drain hands it back, and the
outcome is an all-clear. -/
theorem drained_signal_not_reported :
    ∃ outcome w', (runPollCycle queueEnv pairSet (pollCycleRequest pairSet) 10).run
        (QueueHost.world pairWaiting (ts "2026-08-15T16:02:00Z") []) = some (.ok outcome, w') ∧
      (∀ registration ∈ pairSet.registrations, registration.required = true) ∧
      .ready ⟨"reg:b", anchor "anc:cursor-0"⟩ (.failed "method_unavailable") ∈ w'.log ∧
      outcome.coverageComplete = true ∧ outcome.outcomeKind = .events := by
  have hdone : ((runPollCycle queueEnv pairSet (pollCycleRequest pairSet) 10).run
      (QueueHost.world pairWaiting (ts "2026-08-15T16:02:00Z") [])).any (fun last =>
        decide (.ready ⟨"reg:b", anchor "anc:cursor-0"⟩ (.failed "method_unavailable")
            ∈ last.2.log) &&
          (success last.1).any fun outcome =>
            decide (outcome.coverageComplete = true ∧ outcome.outcomeKind = .events)) = true := by
    decide +kernel
  obtain ⟨⟨result, w'⟩, hrun, hlast⟩ := exists_of_any hdone
  rw [Bool.and_eq_true] at hlast
  obtain ⟨outcome, hresult, hclean⟩ := exists_of_any hlast.2
  have hok : result = .ok outcome := success_eq_some hresult
  rw [hok] at hrun
  exact ⟨outcome, w', hrun, by decide, of_decide_eq_true hlast.1, of_decide_eq_true hclean⟩

end PollCycle

end Waitprims
