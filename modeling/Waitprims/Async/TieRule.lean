import Mathlib
import Waitprims.Async.MatchRun
import Waitprims.Async.QueueObserver
import Waitprims.Async.RestoreRun
import Waitprims.Testkit.Case

/-! # The tie rule of a first match

Observations that are ready at once are decided by the order of the registrations: the event of the
earliest arm wins, and every other event goes back to its bind. Where posture rejects the decision,
the event that would have won goes back too.

* **`winningEvent_perm`**, **`decide_perm`** — the decision does not see the order of the entries.
* **`decideAndRestore_run`** — what is answered and what is handed back.
* **`tie_rule`** — the two together. -/

namespace Waitprims

namespace Live

open PollCycle

variable {σ β φ ψ : Type} {env : Env σ β φ ψ} {set : RegistrationSet} {request : LiveWaitRequest}
  {now : Timestamp} {ready ready' : List (Nat × Observation)} {starts : List ResolvedStart}

/-! ## The order of the entries -/

/-- The events among permuted entries are permuted. -/
theorem readyEvents_perm (hperm : ready.Perm ready') :
    (readyEvents ready).Perm (readyEvents ready') := hperm.filterMap _

/-- The earliest arm does not depend on the order. -/
theorem eventWinnerIdx_perm (hperm : ready.Perm ready') :
    eventWinnerIdx ready = eventWinnerIdx ready' := by
  have hkeys := (readyEvents_perm hperm).map Prod.fst
  unfold eventWinnerIdx
  cases hmin : ((readyEvents ready').map Prod.fst).min? with
  | none =>
    rw [List.min?_eq_none_iff] at hmin ⊢
    rw [hmin] at hkeys
    exact hkeys.eq_nil
  | some idx =>
    rw [List.min?_eq_some_iff] at hmin ⊢
    exact ⟨hkeys.mem_iff.mpr hmin.1, fun b hb => hmin.2 b (hkeys.mem_iff.mp hb)⟩

/-- An arm has one entry. -/
theorem entry_unique (hkeys : (ready.map Prod.fst).Nodup) {idx : Nat} {obs obs' : Observation}
    (h : (idx, obs) ∈ ready) (h' : (idx, obs') ∈ ready) : obs = obs' :=
  (Prod.mk.inj (List.inj_on_of_nodup_map hkeys h h' rfl)).2

/-- Neither does the winning event, where each arm has one entry. -/
theorem winningEvent_perm (hkeys : (ready.map Prod.fst).Nodup) (hperm : ready.Perm ready') :
    winningEvent ready = winningEvent ready' := by
  cases h : winningEvent ready with
  | none =>
    have hnone := winningEvent_eq_none h
    cases h' : winningEvent ready' with
    | none => rfl
    | some event =>
      obtain ⟨idx, -, hmem⟩ := winningEvent_eq_some h'
      have hreplay := hnone _ (hperm.mem_iff.mpr hmem)
      cases hreplay
  | some event =>
    obtain ⟨idx, hidx, hmem⟩ := winningEvent_eq_some h
    cases h' : winningEvent ready' with
    | none => cases winningEvent_eq_none h' _ (hperm.mem_iff.mp hmem)
    | some event' =>
      obtain ⟨idx', hidx', hmem'⟩ := winningEvent_eq_some h'
      rw [eventWinnerIdx_perm hperm, hidx'] at hidx
      obtain rfl := Option.some.inj hidx
      have heq := entry_unique hkeys hmem (hperm.mem_iff.mpr hmem')
      rw [Observation.event.inj heq]

/-- The entries that report a failure. -/
def failing (ready : List (Nat × Observation)) : List IdToken :=
  ready.filterMap fun p => failureReason p.2

/-- Two answers agree; where several arms failed, up to the reason they give. -/
def SameAnswer (ready : List (Nat × Observation)) (a b : Option LiveWaitOutcome) : Prop :=
  a = b ∨ 2 ≤ (failing ready).length ∧
    ∃ o o', a = some o ∧ b = some o' ∧ { o with reasonCode := o'.reasonCode } = o'

/-- The last of one entry, in any order. -/
theorem getLast?_perm {α : Type} {as bs : List α} (hperm : as.Perm bs) (h : as.length < 2) :
    as.getLast? = bs.getLast? := by
  match as, h with
  | [], _ => rw [hperm.symm.eq_nil]
  | [a], _ => rw [List.perm_singleton.mp hperm.symm]

/-- **The decision does not depend on the order of the entries**, up to the reason it gives when
several arms failed. -/
theorem decide_perm (hkeys : (ready.map Prod.fst).Nodup) (hperm : ready.Perm ready') :
    SameAnswer ready (decide set request now ready starts)
      (decide set request now ready' starts) := by
  have hwinner := winningEvent_perm hkeys hperm
  have hoverflow : (ready.any fun p => p.2 == .overflow) = ready'.any fun p => p.2 == .overflow := by
    rw [Bool.eq_iff_iff, List.any_eq_true, List.any_eq_true]
    simp only [hperm.mem_iff]
  have hfailing : (failing ready).Perm (failing ready') := hperm.filterMap _
  unfold decide
  dsimp only
  rw [hoverflow, hwinner]
  split
  · exact Or.inl rfl
  · by_cases hfew : (failing ready).length < 2
    · left
      have hlast := getLast?_perm hfailing hfew
      unfold failing at hlast
      rw [hlast]
    · cases winningEvent ready' with
      | some event =>
        left
        cases (ready.filterMap fun p => failureReason p.2).getLast? <;>
          cases (ready'.filterMap fun p => failureReason p.2).getLast? <;> rfl
      | none =>
        right
        refine ⟨by omega, ?_⟩
        have hsome : ∀ reasons : List IdToken, 2 ≤ reasons.length →
            ∃ reason, reasons.getLast? = some reason := by
          intro reasons hlength
          cases hlast : reasons.getLast? with
          | some reason => exact ⟨reason, rfl⟩
          | none =>
            rw [List.getLast?_eq_none_iff.mp hlast] at hlength
            simp at hlength
        obtain ⟨reason, hreason⟩ := hsome (failing ready) (by omega)
        obtain ⟨reason', hreason'⟩ := hsome (failing ready') (by rw [← hfailing.length_eq]; omega)
        unfold failing at hreason hreason'
        rw [hreason, hreason']
        exact ⟨_, _, rfl, rfl, rfl⟩

/-! ## What is handed back -/

/-- The entries a decision hands back: every event when posture rejects, otherwise every event but
that of the winner. -/
def losers (set : RegistrationSet) (request : LiveWaitRequest) (now : Timestamp)
    (ready : List (Nat × Observation)) : List (Nat × Observation) :=
  if (postureReject set request now).isSome then ready.filter fun p => observationIsReplayable p.2
  else ready.filter fun p => !(some p.1 == eventWinnerIdx ready) && observationIsReplayable p.2

/-- What a decision answers: posture replaces what was decided. -/
def answer (set : RegistrationSet) (request : LiveWaitRequest) (now : Timestamp)
    (ready : List (Nat × Observation)) (starts : List ResolvedStart) : Option LiveWaitOutcome :=
  (decide set request now ready starts).map fun outcome =>
    (postureReject set request now).getD outcome

/-- The entries, each with its own bind. -/
def ownBinds (binds : List (Nat × β)) (entries : List (Nat × Observation)) :
    List (β × Observation) :=
  entries.filterMap fun p => (bindAt binds p.1).map fun bind => (bind, p.2)

/-- A loop over the slots of the binds goes to the own bind of each entry. -/
theorem handBack_slots (binds : List (Nat × β)) (entries : List (Nat × Observation)) :
    handBack (slots binds) entries = ownBinds binds entries := by
  unfold handBack ownBinds
  congr 1
  funext p
  rw [join_slots]

/-- An event of the entries means that something is decided. -/
theorem losers_eq_nil (h : decide set request now ready starts = none) :
    losers set request now ready = [] := by
  have hidle := decide_eq_none h
  have hnone : ∀ p ∈ ready, observationIsReplayable p.2 = false := by
    intro p hp
    have hterminal := hidle p hp
    cases hobs : p.2 <;> rw [hobs] at hterminal <;> first | rfl | cases hterminal
  unfold losers
  split
  · rw [List.filter_eq_nil_iff]
    intro p hp
    rw [hnone p hp]
    exact Bool.false_ne_true
  · rw [List.filter_eq_nil_iff]
    intro p hp
    rw [hnone p hp, Bool.and_false]
    exact Bool.false_ne_true

variable (env set request now starts) in
/-- **What is answered and what is handed back**: the losers go to their binds in order, and the
answer stands when all of them were accepted. -/
theorem decideAndRestore_run (binds : List (Nat × β)) (ready : List (Nat × Observation))
    (w : World σ β) : ∃ result w',
      (decideAndRestore env set request now binds ready starts).run w
        = some (result.map fun _ => answer set request now ready starts, w') ∧
      Restored (ownBinds binds (losers set request now ready)) result w w' := by
  unfold decideAndRestore answer
  cases hdecide : decide set request now ready starts with
  | none =>
    refine ⟨.ok (), w, rfl, ?_⟩
    rw [losers_eq_nil hdecide]
    exact handedBack_nil w
  | some outcome =>
    dsimp only
    rw [← handBack_slots]
    unfold losers
    cases hposture : postureReject set request now with
    | some rejected =>
      obtain ⟨result, w', hrun, hrestored⟩ := restoreEach_run env (slots binds)
        (ready.filter fun p => observationIsReplayable p.2) w
      rw [← restoreOwned_eq] at hrun
      refine ⟨result, w', ?_, hrestored⟩
      cases result with
      | ok u => exact Fueled.run_bind_ok hrun
      | error err => exact Fueled.run_bind_error hrun
    | none =>
      obtain ⟨result, w', hrun, hrestored⟩ := restoreEach_run env (slots binds)
        (ready.filter fun p => !(some p.1 == eventWinnerIdx ready) && observationIsReplayable p.2) w
      rw [← restoreAllBut_eq] at hrun
      refine ⟨result, w', ?_, hrestored⟩
      cases result with
      | ok u => exact Fueled.run_bind_ok hrun
      | error err => exact Fueled.run_bind_error hrun

/-- The entry is an event that a decision hands back: any event when posture rejects, otherwise an
event behind that of an earlier arm. -/
def Loses (set : RegistrationSet) (request : LiveWaitRequest) (now : Timestamp)
    (ready : List (Nat × Observation)) (p : Nat × Observation) : Prop :=
  observationIsReplayable p.2 = true ∧ ((postureReject set request now).isSome = true ∨
    ∃ q ∈ ready, observationIsReplayable q.2 = true ∧ q.1 < p.1)

/-- An event among the entries is a ready event. -/
theorem mem_readyEvents_of_replayable {p : Nat × Observation} (hp : p ∈ ready)
    (hreplay : observationIsReplayable p.2 = true) : ∃ event, (p.1, event) ∈ readyEvents ready := by
  obtain ⟨idx, obs⟩ := p
  cases obs with
  | event event => exact ⟨event, mem_readyEvents.mpr hp⟩
  | _ => cases hreplay

/-- An event loses exactly where an earlier arm has one. -/
theorem not_winner_iff {p : Nat × Observation} (hp : p ∈ ready)
    (hreplay : observationIsReplayable p.2 = true) :
    some p.1 ≠ eventWinnerIdx ready ↔
      ∃ q ∈ ready, observationIsReplayable q.2 = true ∧ q.1 < p.1 := by
  obtain ⟨event, hevent⟩ := mem_readyEvents_of_replayable hp hreplay
  have hmem : p.1 ∈ (readyEvents ready).map Prod.fst := List.mem_map.mpr ⟨_, hevent, rfl⟩
  constructor
  · intro hne
    cases hmin : eventWinnerIdx ready with
    | none =>
      unfold eventWinnerIdx at hmin
      rw [List.min?_eq_none_iff] at hmin
      rw [hmin] at hmem
      cases hmem
    | some idx =>
      have hmin' : ((readyEvents ready).map Prod.fst).min? = some idx := hmin
      rw [List.min?_eq_some_iff] at hmin'
      obtain ⟨⟨idx', event'⟩, hq, rfl⟩ := List.mem_map.mp hmin'.1
      refine ⟨_, mem_readyEvents.mp hq, rfl, ?_⟩
      have hle := hmin'.2 p.1 hmem
      have hne' : p.1 ≠ idx' := fun h => hne (by rw [hmin, h])
      show idx' < p.1
      omega
  · rintro ⟨q, hq, hqreplay, hlt⟩ heq
    obtain ⟨event', hevent'⟩ := mem_readyEvents_of_replayable hq hqreplay
    have hmin : ((readyEvents ready).map Prod.fst).min? = some p.1 := heq.symm
    rw [List.min?_eq_some_iff] at hmin
    have hle := hmin.2 q.1 (List.mem_map.mpr ⟨_, hevent', rfl⟩)
    omega

/-- **The entries handed back are those that lose.** -/
theorem mem_losers_iff {p : Nat × Observation} (hp : p ∈ ready) :
    p ∈ losers set request now ready ↔ Loses set request now ready p := by
  unfold losers Loses
  cases hposture : (postureReject set request now).isSome with
  | true => simp [hp]
  | false =>
    rw [if_neg Bool.false_ne_true, List.mem_filter, Bool.and_eq_true, Bool.not_eq_true',
      beq_eq_false_iff_ne]
    constructor
    · rintro ⟨-, hne, hreplay⟩
      exact ⟨hreplay, Or.inr ((not_winner_iff hp hreplay).mp hne)⟩
    · rintro ⟨hreplay, hpost | hearlier⟩
      · cases hpost
      · exact ⟨hp, (not_winner_iff hp hreplay).mpr hearlier, hreplay⟩

/-- Permuted entries hand back permuted losers. -/
theorem losers_perm (hperm : ready.Perm ready') :
    (losers set request now ready).Perm (losers set request now ready') := by
  unfold losers
  rw [eventWinnerIdx_perm hperm]
  split
  · exact hperm.filter _
  · exact hperm.filter _

/-- The losers are entries. -/
theorem losers_sublist : (losers set request now ready).Sublist ready := by
  unfold losers
  split
  · exact List.filter_sublist
  · exact List.filter_sublist

/-- An observation goes back to its own bind. -/
def ToOwnBind (binds : List (Nat × β)) (p : Nat × Observation) (q : β × Observation) : Prop :=
  bindAt binds p.1 = some q.1 ∧ q.2 = p.2

/-- Where every index has its bind, every entry goes back to its own. -/
theorem ownBinds_forall₂ {binds : List (Nat × β)} {entries : List (Nat × Observation)}
    (h : ∀ p ∈ entries, (bindAt binds p.1).isSome = true) :
    List.Forall₂ (ToOwnBind binds) entries (ownBinds binds entries) := by
  induction entries with
  | nil => exact List.Forall₂.nil
  | cons p entries ih =>
    obtain ⟨bind, hbind⟩ := Option.isSome_iff_exists.mp (h p List.mem_cons_self)
    have hcons : ownBinds binds (p :: entries) = (bind, p.2) :: ownBinds binds entries :=
      List.filterMap_cons_some (by rw [hbind]; rfl)
    rw [hcons]
    exact List.Forall₂.cons ⟨hbind, rfl⟩ (ih fun q hq => h q (List.mem_cons_of_mem _ hq))

/-! ## The rule -/

/-- The outcome of a decision that has an event: it hands over the event of the earliest arm, and is
partial where some arm overflowed. -/
def WinsEarliest (ready : List (Nat × Observation)) (answered : Option LiveWaitOutcome) : Prop :=
  ∃ outcome idx event, answered = some outcome ∧ (idx, .event event) ∈ ready ∧
    (∀ p ∈ ready, observationIsReplayable p.2 = true → idx ≤ p.1) ∧
    outcome.events = some [event] ∧
    outcome.outcomeKind = if (∃ p ∈ ready, p.2 = .overflow) then .partialResult else .events

/-- A decision with an event hands over the event of the earliest arm. -/
theorem decide_winsEarliest {p : Nat × Observation} (hp : p ∈ ready)
    (hreplay : observationIsReplayable p.2 = true) :
    WinsEarliest ready (decide set request now ready starts) := by
  obtain ⟨event, hevent⟩ : ∃ event, winningEvent ready = some event := by
    cases hwinner : winningEvent ready with
    | some event => exact ⟨event, rfl⟩
    | none =>
      have hnone := winningEvent_eq_none hwinner p hp
      rw [hreplay] at hnone
      cases hnone
  obtain ⟨idx, hidx, hmem⟩ := winningEvent_eq_some hevent
  have hearliest : ∀ q ∈ ready, observationIsReplayable q.2 = true → idx ≤ q.1 := by
    intro q hq hqreplay
    obtain ⟨event', hevent'⟩ := mem_readyEvents_of_replayable hq hqreplay
    have hmin : ((readyEvents ready).map Prod.fst).min? = some idx := hidx
    rw [List.min?_eq_some_iff] at hmin
    exact hmin.2 q.1 (List.mem_map.mpr ⟨_, hevent', rfl⟩)
  unfold decide
  dsimp only
  rw [hevent]
  by_cases hoverflow : ∃ q ∈ ready, q.2 = .overflow
  · have hany : (ready.any fun q => q.2 == .overflow) = true := by
      obtain ⟨q, hq, heq⟩ := hoverflow
      exact List.any_eq_true.mpr ⟨q, hq, by simp [heq]⟩
    rw [if_pos hany]
    exact ⟨_, idx, event, rfl, hmem, hearliest, rfl, by rw [if_pos hoverflow]; rfl⟩
  · have hany : ¬ (ready.any fun q => q.2 == .overflow) = true := by
      intro h
      obtain ⟨q, hq, heq⟩ := List.any_eq_true.mp h
      exact hoverflow ⟨q, hq, by simpa using heq⟩
    rw [if_neg hany]
    have hevents : WinsEarliest ready (some (events request now event)) :=
      ⟨_, idx, event, rfl, hmem, hearliest, rfl, by rw [if_neg hoverflow]; rfl⟩
    cases (ready.filterMap fun p => failureReason p.2).getLast? with
    | none => exact hevents
    | some reason => exact hevents

/-- What a decision that was answered amounts to. -/
structure TieAnswer (set : RegistrationSet) (request : LiveWaitRequest) (now : Timestamp)
    (ready : List (Nat × Observation)) (answered : Option LiveWaitOutcome) : Prop where
  /-- Posture accepts: the earliest arm wins. -/
  accepted : postureReject set request now = none →
    (∃ p ∈ ready, observationIsReplayable p.2 = true) → WinsEarliest ready answered
  /-- Posture rejects what was decided. -/
  rejected : ∀ rejection, postureReject set request now = some rejection → answered ≠ none →
    answered = some rejection
  /-- Nothing is answered where there is no event. -/
  undecided : answered = none → ∀ p ∈ ready, observationIsReplayable p.2 = false

/-- The answer of a decision is what the rule asks. -/
theorem answer_tieAnswer :
    TieAnswer set request now ready (answer set request now ready starts) where
  accepted hposture hevent := by
    obtain ⟨p, hp, hreplay⟩ := hevent
    have hwins : WinsEarliest ready (decide set request now ready starts) :=
      decide_winsEarliest hp hreplay
    have hanswer : answer set request now ready starts = decide set request now ready starts := by
      unfold answer
      rw [hposture]
      cases decide set request now ready starts <;> rfl
    rwa [hanswer]
  rejected rejection hposture hsome := by
    unfold answer at hsome ⊢
    rw [hposture] at hsome ⊢
    cases hdecide : decide set request now ready starts with
    | none =>
      rw [hdecide] at hsome
      exact absurd rfl hsome
    | some outcome => rfl
  undecided hnone := by
    intro p hp
    have hterminal := decide_eq_none (Option.map_eq_none_iff.mp hnone) p hp
    cases hobs : p.2 <;> rw [hobs] at hterminal <;> first | rfl | cases hterminal

/-- Permuted entries are answered alike. -/
theorem answer_perm (hkeys : (ready.map Prod.fst).Nodup) (hperm : ready.Perm ready') :
    SameAnswer ready (answer set request now ready starts)
      (answer set request now ready' starts) := by
  unfold answer
  have hsame : SameAnswer ready (decide set request now ready starts)
      (decide set request now ready' starts) := decide_perm hkeys hperm
  rcases hsame with heq | ⟨hmany, o, o', ho, ho', hreason⟩
  · exact Or.inl (by rw [heq])
  · rw [ho, ho']
    cases postureReject set request now with
    | none => exact Or.inr ⟨hmany, o, o', rfl, rfl, hreason⟩
    | some rejection => exact Or.inl rfl

/-- **The tie rule.** Over entries with distinct indices that have their binds, the losing events
are handed to their own binds, once each and nothing else. When no call is refused, the answer is
that of the rule, and any order of the entries is answered alike and hands the same calls back. -/
theorem tie_rule (env : Env σ β φ ψ) (set : RegistrationSet) (request : LiveWaitRequest)
    (now : Timestamp) (binds : List (Nat × β)) (starts : List ResolvedStart)
    (hkeys : (ready.map Prod.fst).Nodup)
    (hbinds : ∀ p ∈ ready, (bindAt binds p.1).isSome = true) (w : World σ β) :
    ∃ entries back result w',
      (decideAndRestore env set request now binds ready starts).run w = some (result, w') ∧
      entries.Sublist ready ∧ (∀ p ∈ ready, p ∈ entries ↔ Loses set request now ready p) ∧
      List.Forall₂ (ToOwnBind binds) entries back ∧
      match result with
      | .error _ => StoppedBack back w w'
      | .ok answered => HandedBack back w w' ∧ TieAnswer set request now ready answered ∧
          ∀ (ready' : List (Nat × Observation)) (answered' : Option LiveWaitOutcome)
            (w'' : World σ β), ready.Perm ready' →
            (decideAndRestore env set request now binds ready' starts).run w
              = some (.ok answered', w'') →
            SameAnswer ready answered answered' ∧
              ∃ back' : List (β × Observation), back.Perm back' ∧ HandedBack back' w w'' := by
  obtain ⟨result, w', hrun, hrestored⟩ :=
    decideAndRestore_run env set request now starts binds ready w
  refine ⟨losers set request now ready, ownBinds binds (losers set request now ready), _, w', hrun,
    losers_sublist, fun p hp => mem_losers_iff hp,
    ownBinds_forall₂ fun p hp => hbinds p (losers_sublist.subset hp), ?_⟩
  cases result with
  | error err => exact hrestored
  | ok u =>
    refine ⟨hrestored, answer_tieAnswer, ?_⟩
    intro ready' answered' w'' hperm hrun'
    obtain ⟨result', w₁, hrun₁, hrestored₁⟩ :=
      decideAndRestore_run env set request now starts binds ready' w
    obtain ⟨hresult, rfl⟩ := Prod.mk.inj (Option.some.inj (hrun'.symm.trans hrun₁))
    cases result' with
    | error err => cases hresult
    | ok u' =>
      rw [Except.ok.inj hresult]
      exact ⟨answer_perm hkeys hperm, _, (losers_perm hperm).filterMap _, hrestored₁⟩

open Case in
/-- An event of each registration of the pair, the later registration in front. -/
def pairReady : List (Nat × Observation) := [
  (1, .event (waitEvent "reg:b" "method:b" "evt:3" "2026-08-15T16:01:00Z")),
  (0, .event (waitEvent "reg:a" "method:a" "evt:1" "2026-08-15T16:01:00Z"))]

open Case in
/-- The binds of the pair. -/
def pairBinds : List (Nat × ResolvedStart) :=
  [(0, ⟨"reg:a", anchor "anc:cursor-0"⟩), (1, ⟨"reg:b", anchor "anc:cursor-0"⟩)]

open Case in
theorem tie_rule_pair :
    ∃ entries back result w',
      (decideAndRestore queueEnv pairSet liveWaitRequest (ts "2026-08-15T16:02:00Z") pairBinds
        pairReady []).run (QueueHost.world [] (ts "2026-08-15T16:02:00Z") [])
          = some (result, w') ∧
      entries.Sublist pairReady ∧ (∀ p ∈ pairReady, p ∈ entries ↔
        Loses pairSet liveWaitRequest (ts "2026-08-15T16:02:00Z") pairReady p) ∧
      List.Forall₂ (ToOwnBind pairBinds) entries back ∧
      match result with
      | .error _ => StoppedBack back (QueueHost.world [] (ts "2026-08-15T16:02:00Z") []) w'
      | .ok answered => HandedBack back (QueueHost.world [] (ts "2026-08-15T16:02:00Z") []) w' ∧
          TieAnswer pairSet liveWaitRequest (ts "2026-08-15T16:02:00Z") pairReady answered ∧
          ∀ (ready' : List (Nat × Observation)) (answered' : Option LiveWaitOutcome)
            (w'' : World QueueHost ResolvedStart), pairReady.Perm ready' →
            (decideAndRestore queueEnv pairSet liveWaitRequest (ts "2026-08-15T16:02:00Z") pairBinds
              ready' []).run (QueueHost.world [] (ts "2026-08-15T16:02:00Z") [])
                = some (.ok answered', w'') →
            SameAnswer pairReady answered answered' ∧
              ∃ back' : List (ResolvedStart × Observation), back.Perm back' ∧
                HandedBack back' (QueueHost.world [] (ts "2026-08-15T16:02:00Z") []) w'' :=
  tie_rule queueEnv pairSet liveWaitRequest (ts "2026-08-15T16:02:00Z") pairBinds [] (by decide)
    (by decide) _

open Case in
/-- An observer that refuses the loser: no outcome is returned, although posture accepts and an
event is among the entries. -/
theorem refused_loser_fails :
    postureReject pairSet liveWaitRequest (ts "2026-08-15T16:02:00Z") = none ∧
    ∃ w', (decideAndRestore (queueEnvWith fun _ _ => false) pairSet liveWaitRequest
        (ts "2026-08-15T16:02:00Z") pairBinds pairReady []).run
          (QueueHost.world [] (ts "2026-08-15T16:02:00Z") [])
        = some (.error (validationError "/observer/restore_ready" "cross_bind_restore"), w') := by
  refine ⟨by decide +kernel, ?_⟩
  have hdone : ((decideAndRestore (queueEnvWith fun _ _ => false) pairSet liveWaitRequest
      (ts "2026-08-15T16:02:00Z") pairBinds pairReady []).run
        (QueueHost.world [] (ts "2026-08-15T16:02:00Z") [])).any (fun last =>
          Decidable.decide (failure last.1
            = some (validationError "/observer/restore_ready" "cross_bind_restore"))) = true := by
    decide +kernel
  obtain ⟨⟨result, w'⟩, hrun, hlast⟩ := exists_of_any hdone
  refine ⟨w', ?_⟩
  rw [hrun]
  exact congrArg (fun r => some (r, w')) (failure_eq_some (of_decide_eq_true hlast))

end Live

end Waitprims
