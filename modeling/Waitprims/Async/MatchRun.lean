import Mathlib
import Waitprims.Async.CycleRun
import Waitprims.Async.FirstMatch

/-! # A run of the first match over a ledger

Between turns a wait owns nothing. A race hands over what it took; the decision keeps the event of
the winner and puts every other event back, so a verdict owns exactly the event it carries.

* **`decide_spec`** — what a decision carries is the event of the earliest arm.
* **`decideAndRestore_spec`** — a decision owns the event it carries, and nothing else.
* **`matchLoop_spec`** — so does the verdict of a run; a run that fails owns nothing. -/

namespace Waitprims

namespace Live

open Fueled PollCycle

variable {σ β φ ψ : Type} {env : Env σ β φ ψ} {ids : List IdToken} {ledger : Ledger env ids}
  {items : List (Item β)} {set : RegistrationSet} {request : LiveWaitRequest}

/-! ## Decisions -/

section decisions

variable {ready : List (Nat × Observation)} {now : Timestamp} {starts : List ResolvedStart}
  {outcome : LiveWaitOutcome}

theorem mem_readyEvents {idx : Nat} {event : WaitEvent} :
    (idx, event) ∈ readyEvents ready ↔ (idx, .event event) ∈ ready := by
  simp only [readyEvents, List.mem_filterMap, Prod.exists]
  constructor
  · rintro ⟨idx', obs, hmem, hobs⟩
    cases obs with
    | event e =>
      obtain ⟨rfl, rfl⟩ := Prod.mk.inj (Option.some.inj hobs)
      exact hmem
    | _ => cases hobs
  · exact fun hmem => ⟨idx, .event event, hmem, rfl⟩

/-- The winner is the event of the earliest arm that has one. -/
theorem winningEvent_eq_some {event : WaitEvent} (h : winningEvent ready = some event) :
    ∃ idx, eventWinnerIdx ready = some idx ∧ (idx, .event event) ∈ ready := by
  obtain ⟨⟨idx, e⟩, hmin, rfl⟩ := Option.map_eq_some_iff.mp h
  refine ⟨idx, ?_, mem_readyEvents.mp (List.argmin_mem hmin)⟩
  rw [eventWinnerIdx, List.min?_eq_some_iff]
  refine ⟨List.mem_map.mpr ⟨(idx, e), List.argmin_mem hmin, rfl⟩, ?_⟩
  intro idx' hmem
  obtain ⟨p, hp, rfl⟩ := List.mem_map.mp hmem
  exact List.le_of_mem_argmin hp hmin

theorem winningEvent_eq_none (h : winningEvent ready = none) :
    ∀ p ∈ ready, observationIsReplayable p.2 = false := by
  have hnil : readyEvents ready = [] := List.argmin_eq_none.mp (Option.map_eq_none_iff.mp h)
  rintro ⟨idx, obs⟩ hp
  cases obs with
  | event e =>
    have hmem := mem_readyEvents.mpr hp
    rw [hnil] at hmem
    cases hmem
  | _ => rfl

/-- **What a decision hands over** is the winning event. -/
theorem decide_handedOver (h : decide set request now ready starts = some outcome) :
    handedOver outcome = (winningEvent ready).toList := by
  unfold decide at h
  dsimp only at h
  split at h
  · obtain rfl := Option.some.inj h
    cases hwinner : winningEvent ready <;> simp [handedOver, partialOutcome, failed, reasoned]
  · split at h
    · next hwinner =>
      obtain rfl := Option.some.inj h
      rw [hwinner]
      rfl
    · cases hwinner : winningEvent ready with
      | none => rw [hwinner] at h; cases h
      | some event =>
        rw [hwinner] at h
        obtain rfl := Option.some.inj h
        rfl

/-- A decision with a winner is no rejection. -/
theorem decide_not_rejects (h : decide set request now ready starts = some outcome)
    (hwinner : (winningEvent ready).isSome) : outcome.outcomeKind.rejects = false := by
  obtain ⟨event, hevent⟩ := Option.isSome_iff_exists.mp hwinner
  unfold decide at h
  dsimp only at h
  rw [hevent] at h
  split at h
  · obtain rfl := Option.some.inj h
    rfl
  · split at h
    · next hnone => cases hnone
    · obtain rfl := Option.some.inj h
      rfl

/-- **Nothing is decided** only where every arm is idle. -/
theorem decide_eq_none (h : decide set request now ready starts = none) :
    ∀ p ∈ ready, observationIsTerminal p.2 = false := by
  unfold decide at h
  dsimp only at h
  split at h
  · cases h
  · next hoverflow =>
    have hnone : (ready.filterMap fun p => failureReason p.2) = [] ∧ winningEvent ready = none := by
      split at h
      · cases h
      · next hcases =>
        have hwinner : winningEvent ready = none := Option.map_eq_none_iff.mp h
        refine ⟨?_, hwinner⟩
        cases hlast : (ready.filterMap fun p => failureReason p.2).getLast? with
        | none => exact List.getLast?_eq_none_iff.mp hlast
        | some reason => exact absurd hwinner (hcases reason hlast)
    rintro ⟨idx, obs⟩ hp
    have hreplay := winningEvent_eq_none hnone.2 _ hp
    have hreason := List.filterMap_eq_nil_iff.mp hnone.1 _ hp
    have hover : obs ≠ .overflow := by
      rintro rfl
      exact hoverflow (List.any_eq_true.mpr ⟨_, hp, by simp⟩)
    cases obs <;> simp_all [failureReason, observationIsReplayable, observationIsTerminal]

/-- An outcome imposed by posture hands nothing over. -/
theorem postureReject_handedOver {rejected : LiveWaitOutcome}
    (h : postureReject set request now = some rejected) : handedOver rejected = [] := by
  unfold postureReject at h
  split at h
  · obtain rfl := Option.some.inj h
    rfl
  · split at h
    · obtain rfl := Option.some.inj h
      rfl
    · cases h

theorem terminalDeadline_handedOver (h : terminalDeadline set request now starts = some outcome) :
    handedOver outcome = [] := by
  unfold terminalDeadline at h
  dsimp only at h
  split at h
  · cases h
  · split at h
    · obtain rfl := Option.some.inj h
      rfl
    · split at h
      · obtain rfl := Option.some.inj h
        rfl
      · obtain rfl := Option.some.inj h
        rfl

end decisions

/-! ## Binds under an index -/

/-- Binds that a turn works with: each sits at the slot it is indexed by. -/
structure Indexed (ledger : Ledger env ids) (binds : List (Nat × β)) : Prop where
  keys : (binds.map Prod.fst).Nodup
  seated : ∀ p ∈ binds, ledger.seat p.1 p.2

/-- One slot for each index up to the largest. -/
def slots (binds : List (Nat × β)) : List (Option β) :=
  (List.range ((binds.map fun p => p.1 + 1).sum)).map (bindAt binds)

section indexed

variable {binds : List (Nat × β)} (hbinds : Indexed ledger binds)

include hbinds in
theorem Indexed.bindAt_eq_some {idx : Nat} {bind : β} :
    bindAt binds idx = some bind ↔ (idx, bind) ∈ binds := by
  constructor
  · intro h
    obtain ⟨⟨key, b⟩, hfind, rfl⟩ := Option.map_eq_some_iff.mp h
    have hkey := List.find?_some hfind
    rw [← beq_iff_eq.mp hkey]
    exact List.mem_of_find?_eq_some hfind
  · intro hmem
    cases hfind : binds.find? fun p => p.1 == idx with
    | none =>
      have := List.find?_eq_none.mp hfind (idx, bind) hmem
      simp at this
    | some p =>
      have hkey : p.1 = idx := by simpa using List.find?_some hfind
      have hp := List.inj_on_of_nodup_map hbinds.keys (List.mem_of_find?_eq_some hfind) hmem hkey
      rw [bindAt, hfind, hp]
      rfl

/-- The slots hold the binds. -/
theorem join_slots (binds : List (Nat × β)) (idx : Nat) :
    (slots binds)[idx]?.join = bindAt binds idx := by
  unfold slots
  by_cases hlt : idx < (binds.map fun p => p.1 + 1).sum
  · rw [List.getElem?_map, List.getElem?_range hlt]
    rfl
  · have hnone : bindAt binds idx = none := by
      rw [bindAt, Option.map_eq_none_iff, List.find?_eq_none]
      intro p hp hkey
      have hmem : p.1 + 1 ∈ binds.map fun p => p.1 + 1 := List.mem_map.mpr ⟨p, hp, rfl⟩
      have hle := List.le_sum_of_mem hmem
      have hkey : p.1 = idx := by simpa using hkey
      omega
    rw [List.getElem?_eq_none (by simpa using hlt), hnone]
    rfl

include hbinds in
theorem Indexed.seatedSlots : Seated ledger (slots binds) := by
  intro slot bind h
  rw [join_slots] at h
  exact hbinds.seated (slot, bind) (hbinds.bindAt_eq_some.mp h)

include hbinds in
theorem Indexed.refs : PendingRefs ledger (slots binds) binds where
  keys := hbinds.keys
  seated := hbinds.seated
  slots p hp := by
    rw [join_slots]
    exact hbinds.bindAt_eq_some.mpr hp

/-- Putting back the events is putting back each of them at its slot. -/
theorem restoreOwned_eq (binds : List (Nat × β)) (ready : List (Nat × Observation)) :
    restoreOwned env binds ready
      = restoreEach env (slots binds) (ready.filter fun p => observationIsReplayable p.2) := by
  induction ready with
  | nil => rfl
  | cons p rest ih =>
    obtain ⟨idx, obs⟩ := p
    unfold restoreOwned
    cases hobs : observationIsReplayable obs with
    | false => simpa [hobs] using ih
    | true =>
      rw [List.filter_cons_of_pos (by simpa using hobs), restoreEach, join_slots, ← ih]
      cases bindAt binds idx <;> rfl

theorem restoreAllBut_eq (winner : Option Nat) (binds : List (Nat × β))
    (ready : List (Nat × Observation)) :
    restoreAllBut env winner binds ready = restoreEach env (slots binds)
      (ready.filter fun p => !(some p.1 == winner) && observationIsReplayable p.2) := by
  induction ready with
  | nil => rfl
  | cons p rest ih =>
    obtain ⟨idx, obs⟩ := p
    unfold restoreAllBut
    cases hobs : (!(some idx == winner) && observationIsReplayable obs) with
    | false =>
      have hskip : (some idx == winner || !observationIsReplayable obs) = true := by
        rw [← Bool.not_eq_false', Bool.not_or, Bool.not_not]
        exact hobs
      rw [if_pos hskip, List.filter_cons_of_neg (by simp [hobs]), ih]
    | true =>
      have hkeep : ¬ (some idx == winner || !observationIsReplayable obs) = true := by
        rw [Bool.not_eq_true, ← Bool.not_eq_true', Bool.not_or, Bool.not_not]
        exact hobs
      rw [if_neg hkeep, List.filter_cons_of_pos (by simpa using hobs), restoreEach, join_slots,
        ← ih]
      cases bindAt binds idx <;> rfl

end indexed

/-! ## Deciding and putting back -/

/-- What an outcome carries is one event of some slot, or nothing. -/
inductive Carries (ledger : Ledger env ids) (outcome : LiveWaitOutcome) : List (Item β) → Prop
  | nothing : handedOver outcome = [] → Carries ledger outcome []
  | event {slot : Nat} {bind : β} {event : WaitEvent} : handedOver outcome = [event] →
      outcome.outcomeKind.rejects = false → Carries ledger outcome [.event slot bind event]

/-- **The runner owns what an outcome carries**, and nothing else. -/
def OutcomeOwn (ledger : Ledger env ids) (outcome : LiveWaitOutcome) (w : World σ β) : Prop :=
  ∃ items, Carries ledger outcome items ∧ ledger.own [] items w

/-- Observations taken by a race or polled from its binds. -/
def freshItems (binds : List (Nat × β)) (ready : List (Nat × Observation)) : List (Item β) :=
  readyItems (fun _ => .fresh) (slots binds) ready

section deciding

variable {binds : List (Nat × β)} {ready : List (Nat × Observation)} {now : Timestamp}
  {starts : List ResolvedStart}

/-- Signals hold nothing. -/
theorem own_of_idle {marks : List (Mark × β)} {mark : Nat → Mark} {bound : List (Option β)}
    (hidle : ∀ p ∈ ready, observationIsReplayable p.2 = false) {w : World σ β}
    (h : ledger.own marks (items ++ readyItems mark bound ready) w) :
    ledger.own marks items w := by
  have hnone : (ready.filter fun p => observationIsReplayable p.2) = [] := by
    rw [List.filter_eq_nil_iff]
    intro p hp
    simp [hidle p hp]
  have h := own_replayable h
  rw [hnone] at h
  simpa [readyItems, placed] using h

theorem own_freshItems {binds : List (Nat × β)}
    (hidle : ∀ p ∈ ready, observationIsReplayable p.2 = false) {w : World σ β}
    (h : ledger.own [] (freshItems binds ready) w) : ledger.own [] [] w := by
  have h : ledger.own [] ([] ++ readyItems (fun _ => .fresh) (slots binds) ready) w := h
  exact own_of_idle hidle h

/-- **The winner is kept** and every other event is left to be put back. -/
theorem own_winner (hkeys : (ready.map Prod.fst).Nodup) {mark : Nat → Mark}
    {bound : List (Option β)} {idx : Nat} {event : WaitEvent} {bind : β}
    (hmem : (idx, .event event) ∈ ready) (hbind : bound[idx]?.join = some bind) {w : World σ β}
    (h : ledger.own [] (readyItems mark bound ready) w) :
    ledger.own [] ([.event idx bind event] ++ readyItems mark bound
      (ready.filter fun p => !(some p.1 == some idx) && observationIsReplayable p.2)) w := by
  set losers := ready.filter fun p => !(some p.1 == some idx) && observationIsReplayable p.2
  have hsingle : readyItems mark bound [(idx, Observation.event event)] = [.event idx bind event] :=
    placed_singleton hbind _
  refine ledger.settle (List.Subset.refl _) ?_ (fun slot => ?_) h
  · rw [← hsingle]
    refine List.append_subset.mpr ⟨fun item hitem => ?_, fun item hitem => ?_⟩
    · obtain ⟨k, obs, b, hk, hrest⟩ := mem_placed.mp hitem
      obtain ⟨rfl, rfl⟩ := Prod.mk.inj (List.mem_singleton.mp hk)
      exact mem_placed.mpr ⟨_, _, b, hmem, hrest⟩
    · obtain ⟨k, obs, b, hk, hrest⟩ := mem_placed.mp hitem
      exact mem_placed.mpr ⟨k, obs, b, (List.mem_filter.mp hk).1, hrest⟩
  · rw [heldAt_append, heldAt_readyItems, heldAt_readyItems, heldAt_event, heldAt_nil]
    by_cases hslot : idx = slot
    · subst hslot
      have hnone : (losers.filter fun p => p.1 = idx) = [] := by
        rw [List.filter_eq_nil_iff]
        intro p hp
        have hp := (List.mem_filter.mp hp).2
        simp only [Bool.and_eq_true, Bool.not_eq_true', beq_eq_false_iff_ne, ne_eq,
          Option.some.injEq] at hp
        simpa using hp.1
      have hone : (ready.filter fun p => p.1 = idx) = [(idx, .event event)] :=
        TreeMap.filter_key hkeys hmem
      simp [hnone, hone, hbind, Observation.events]
    · have hsame : ((losers.filter fun p => p.1 = slot).flatMap fun p => p.2.events)
          = (ready.filter fun p => p.1 = slot).flatMap fun p => p.2.events := by
        rw [← flatMap_events_replayable ready slot]
        congr 1
        rw [List.filter_filter, List.filter_filter]
        refine List.filter_congr fun p _ => ?_
        by_cases hp : p.1 = slot
        · have hne : ¬ slot = idx := fun heq => hslot heq.symm
          simp [hp, hne]
        · simp [hp]
      rw [hsame, if_neg hslot]
      rfl

/-- **A decision owns the event it carries**, and where nothing is decided nothing is owned. -/
theorem decideAndRestore_spec (hbinds : Indexed ledger binds)
    (hready : Collected (slots binds) ready) :
    ETriple (ledger.own [] (freshItems binds ready))
      (decideAndRestore env set request now binds ready starts)
      (fun decided w => match decided with
        | none => (∀ p ∈ ready, observationIsTerminal p.2 = false) ∧ ledger.own [] [] w
        | some outcome => OutcomeOwn ledger outcome w)
      fun _ => ledger.broken := by
  unfold decideAndRestore
  cases hdecide : decide set request now ready starts with
  | none =>
    -- undecided, nothing was ready but idle signals
    have hidle := decide_eq_none hdecide
    have hsignal : ∀ p ∈ ready, observationIsReplayable p.2 = false := by
      intro p hp
      have := hidle p hp
      cases hobs : p.2 <;> simp_all [observationIsTerminal, observationIsReplayable]
    exact ETriple.pure fun w h => ⟨hidle, own_freshItems hsignal h⟩
  | some outcome =>
    cases hposture : postureReject set request now with
    | some rejected =>
      -- posture rejects at this reading: the winner goes back as well
      have hrestore : ETriple (ledger.own [] ([] ++ freshItems binds ready))
          (restoreOwned env binds ready) (fun _ => ledger.own [] []) fun _ => ledger.broken := by
        rw [restoreOwned_eq]
        exact restoreOwnedObservations_spec [] [] hbinds.seatedSlots hready.keys
      refine ETriple.bind hrestore fun _ => ETriple.pure fun w h => ?_
      exact ⟨[], .nothing (postureReject_handedOver hposture), h⟩
    | none =>
      -- every loser goes back, whatever the outcome carries
      have hcarries := decide_handedOver hdecide
      have hlosers : ∀ items : List (Item β), Carries ledger outcome items →
          (∀ w, ledger.own [] (freshItems binds ready) w →
            ledger.own [] (items ++ freshItems binds (ready.filter fun p =>
              !(some p.1 == eventWinnerIdx ready) && observationIsReplayable p.2)) w) →
          ETriple (ledger.own [] (freshItems binds ready))
            (do
              restoreLosers env binds ready
              return some outcome)
            (fun decided w => match decided with
              | none => (∀ p ∈ ready, observationIsTerminal p.2 = false) ∧ ledger.own [] [] w
              | some outcome => OutcomeOwn ledger outcome w)
            fun _ => ledger.broken := by
        intro items hitems hsplit
        have hrestore : ETriple (ledger.own [] (freshItems binds ready))
            (restoreLosers env binds ready) (fun _ => ledger.own [] items)
            fun _ => ledger.broken := by
          rw [restoreLosers, restoreAllBut_eq]
          refine (restoreEach_spec [] items hbinds.seatedSlots
            (hready.keys.sublist (List.filter_sublist.map Prod.fst)) fun p hp => ?_).strengthen hsplit
          have hp := (List.mem_filter.mp hp).2
          exact Or.inl ((Bool.and_eq_true _ _).mp hp).2
        exact ETriple.bind hrestore fun _ => ETriple.pure fun w h => ⟨items, hitems, h⟩
      cases hwinner : winningEvent ready with
      | none =>
        rw [hwinner] at hcarries
        refine hlosers [] (.nothing hcarries) fun w h => ?_
        have hidle := winningEvent_eq_none hwinner
        have hnil : (ready.filter fun p =>
            !(some p.1 == eventWinnerIdx ready) && observationIsReplayable p.2) = [] := by
          rw [List.filter_eq_nil_iff]
          intro p hp
          simp [hidle p hp]
        rw [hnil]
        exact own_freshItems hidle h
      | some event =>
        rw [hwinner] at hcarries
        obtain ⟨idx, hidx, hmem⟩ := winningEvent_eq_some hwinner
        obtain ⟨bind, hbind⟩ := Option.isSome_iff_exists.mp (hready.seated _ hmem)
        have hkind := decide_not_rejects hdecide (by simp [hwinner])
        refine hlosers [.event idx bind event] (.event hcarries hkind) fun w h => ?_
        rw [hidx]
        exact own_winner hready.keys hmem hbind h

end deciding

/-! ## The races -/

/-- A `bind_then_observe` future works for a slot. -/
def ThenGood (ledger : Ledger env ids) (slot : Nat) : BindThenObserve β φ ψ → Prop
  | .start registration => ids[slot]? = some registration.registrationId
  | .binding fut => ledger.aim slot fut
  | .observing fut => ledger.seat slot fut.1 ∧ ledger.attached fut.1 fut.2

/-- What a race of `bind_then_observe` futures has taken. -/
def thenItems (taken : List (Nat × β × Observation)) : List (Item β) :=
  taken.map fun p => Item.of .fresh p.1 p.2.1 p.2.2

/-- The race owns what it has taken, from binds at their slots. -/
def ThenOwn (ledger : Ledger env ids) (taken : List (Nat × β × Observation)) (w : World σ β) :
    Prop :=
  (∀ p ∈ taken, ledger.seat p.1 p.2.1) ∧ ledger.own [] (thenItems taken) w

theorem heldAt_thenItems (slot : Nat) (taken : List (Nat × β × Observation)) :
    heldAt slot (thenItems taken)
      = (taken.filter fun p => p.1 = slot).flatMap fun p => p.2.2.events := by
  induction taken with
  | nil => rfl
  | cons p rest ih =>
    have hcons : thenItems (p :: rest) = [Item.of .fresh p.1 p.2.1 p.2.2] ++ thenItems rest := rfl
    rw [hcons, heldAt_append, heldAt_of, ih]
    by_cases h : p.1 = slot <;> simp [h]

theorem pollThenObserve_spec {slot : Nat} {fut : β × ψ} (hseat : ledger.seat slot fut.1)
    (hattached : ledger.attached fut.1 fut.2) (taken : List (Nat × β × Observation)) :
    Triple (ThenOwn ledger taken) (pollThenObserve env fut)
      (FirstReady.PolledOwn (ThenGood ledger) (ThenOwn ledger) slot taken) := by
  refine Triple.fact (fun w h => h.1) fun htaken => ?_
  unfold pollThenObserve
  refine Triple.bind ((ledger.pollNext [] _ hseat hattached).strengthen fun w h => h.2) ?_
  rintro ((err | obs) | _)
  · exact Triple.pure fun w h => ⟨htaken, h⟩
  · refine Triple.pure fun w h => ⟨fun p hp => ?_, ?_⟩
    · rcases List.mem_append.mp hp with hp | hp
      · exact htaken p hp
      · rw [List.mem_singleton.mp hp]
        exact hseat
    · rw [thenItems, List.map_append]
      exact h
  · exact Triple.pure fun w h => ⟨⟨hseat, hattached⟩, htaken, h⟩

theorem pollThenBind_spec {slot : Nat} {fut : φ} (haim : ledger.aim slot fut)
    (taken : List (Nat × β × Observation)) :
    Triple (ThenOwn ledger taken) (pollThenBind env fut)
      (FirstReady.PolledOwn (ThenGood ledger) (ThenOwn ledger) slot taken) := by
  refine Triple.fact (fun w h => h.1) fun htaken => ?_
  unfold pollThenBind
  refine Triple.bind ((ledger.pollBind [] _ haim).strengthen fun w h => h.2) ?_
  rintro ((err | bind) | _)
  · exact Triple.pure fun w h => ⟨htaken, h.2⟩
  · refine Triple.fact (fun w h => h.1 bind rfl) fun hseat => ?_
    refine Triple.bind ((ledger.recordResolved bind).strengthen fun w h => h.2) fun _ => ?_
    refine Triple.bind (ledger.next [] _ hseat) fun fut => ?_
    refine Triple.fact (fun w h => h.1) fun hbind => ?_
    refine Triple.fact (fun w h => h.2.1) fun hattached => ?_
    rw [← hbind] at hseat hattached
    exact (pollThenObserve_spec hseat hattached taken).strengthen fun w h => ⟨htaken, h.2.2⟩
  · exact Triple.pure fun w h => ⟨haim, htaken, h.2⟩

/-- The race of `bind_then_observe` takes one observation from each bind at most. -/
theorem thenOwning (ledger : Ledger env ids) :
    FirstReady.Owning id (ThenGood ledger) (pollBindThenObserve env) (ThenOwn ledger) where
  reorder := by
    intro taken taken' w hkeys hperm h
    refine ⟨fun p hp => h.1 p (hperm.symm.subset hp), ?_⟩
    refine ledger.reorder (hperm.map _) (fun slot => ?_) h.2
    have hfilter : (taken'.filter fun p => p.1 = slot) = taken.filter fun p => p.1 = slot :=
      TreeMap.filter_key_perm hkeys hperm slot
    show heldAt slot (thenItems taken') = heldAt slot (thenItems taken)
    rw [heldAt_thenItems, heldAt_thenItems, hfilter]
  poll := by
    rintro slot (registration | fut | fut) taken hgood
    · refine Triple.fact (fun w h => h.1) fun htaken => ?_
      refine Triple.bind ((ledger.bind [] _ hgood).strengthen fun w h => h.2) fun fut => ?_
      refine Triple.fact (fun w h => h.1) fun haim => ?_
      exact (pollThenBind_spec haim taken).strengthen fun w h => ⟨htaken, h.2⟩
    · exact pollThenBind_spec hgood taken
    · exact pollThenObserve_spec hgood.1 hgood.2 taken

section select

open FirstReady (armsHeld handed ArmsGood Live Owning)

variable {L F T : Type} {key : L → Nat} {Good : L → F → Prop} {pollFut : F → Act σ β (Polled F T)}
  {Own : List (L × T) → World σ β → Prop}

/-- How the `select!` over a race ends: a resolved race has handed over what it took, all of it if
nothing terminal is among it; a race that is given up holds nothing terminal. -/
def EndOwn (Own : List (L × T) → World σ β → Prop) (labels : List L) (isTerminal : T → Bool)
    (arms : List (Arm F T)) : RaceEnd T → World σ β → Prop
  | .collected out => fun w => Own (handed (fun j => labels[j]?) out.ready) w ∧
      (out.ready.map Prod.fst).Pairwise (· < ·) ∧ (∀ p ∈ out.ready, p.1 < labels.length) ∧
      (out.error = none → (∀ p ∈ out.ready, isTerminal p.2 = false) →
        ∀ pos < labels.length, ∃ value, (pos, value) ∈ out.ready)
  | .cancelled | .slept => fun w => Own (armsHeld labels arms) w ∧
      labels.length = arms.length ∧ ∀ p ∈ armsHeld labels arms, isTerminal p.2 = false

/-- **The `select!` over a race.** -/
theorem selectRace_spec (hown : Owning key Good pollFut Own) (isTerminal : T → Bool)
    (hcancel : ∀ taken, Triple (Own taken) env.isCancelled fun _ => Own taken)
    (hsleep : ∀ taken deadline, Triple (Own taken) (env.sleepUntil deadline) fun _ => Own taken)
    (hpark : ∀ taken, Triple (Own taken) env.park fun _ => Own taken) (waitUntil : Timestamp)
    {labels : List L} (hkeys : (labels.map key).Nodup) (fuel : Nat) {arms : List (Arm F T)}
    (hgood : ArmsGood Good labels arms) (hlive : ∀ arm ∈ arms, Live arm) :
    Triple (Own (armsHeld labels arms)) (selectRace env pollFut isTerminal waitUntil fuel arms)
      fun r => EndOwn Own labels isTerminal r.1 r.2 := by
  induction fuel generalizing arms with
  | zero => exact Triple.exhausted
  | succ fuel ih =>
    unfold selectRace
    have hlength : labels.length = arms.length := hgood.length_eq
    have hpoll := (FirstReady.poll_spec hown isTerminal hkeys hgood).and
      (FirstReady.poll_complete isTerminal hlive)
    refine Triple.bind (hpoll.strengthen fun w h => ⟨h, trivial⟩) ?_
    rintro ⟨arms', out⟩
    cases out with
    | some out =>
      refine Triple.pure fun w h => ?_
      obtain ⟨⟨hheld, hpos⟩, hrange, hall⟩ := h
      rw [← hlength] at hrange hall
      exact ⟨hheld, hpos, hrange, hall⟩
    | none =>
      refine Triple.fact (fun w h => h.1.2) fun hrace => ?_
      refine Triple.fact (fun w h => h.2) fun hlive' => ?_
      have hgiveUp : ∀ w, Own (armsHeld labels arms') w → Own (armsHeld labels arms') w ∧
          labels.length = arms'.length ∧ ∀ p ∈ armsHeld labels arms', isTerminal p.2 = false :=
        fun w h => ⟨h, hrace.1.length_eq, hrace.2⟩
      refine Triple.bind ((hcancel _).strengthen fun w h => h.1.1) ?_
      rintro (_ | _)
      · refine Triple.bind (hsleep _ waitUntil) ?_
        rintro (_ | _)
        · exact Triple.bind (hpark _) fun _ => ih hrace.1 hlive'.2
        · exact Triple.pure hgiveUp
      · exact Triple.pure hgiveUp

end select

/-! ## The handlers -/

/-- The binds of a wait sit at the slots of their positions. -/
def WaitOk (ledger : Ledger env ids) (wait : Wait β) : Prop :=
  ∀ binds, wait.bound = some binds → Indexed ledger (indexedBinds binds)

/-- **The invariant of the loop**: a wait owns nothing, and a verdict what it carries. -/
def TurnOwn (ledger : Ledger env ids) (r : Wait β × Option Verdict) (w : World σ β) : Prop :=
  WaitOk ledger r.1 ∧ match r.2 with
    | none => ledger.own [] [] w
    | some verdict => OutcomeOwn ledger verdict.decided w

/-- A failure owns nothing, unless a restore was rejected. -/
def FailOwn (ledger : Ledger env ids) (w : World σ β) : Prop :=
  ledger.own [] [] w ∨ ledger.broken w

/-- Steps that keep ownership keep what an outcome owns. -/
theorem outcomeOwn_spec {α : Type} {x : Act σ β α} {outcome : LiveWaitOutcome}
    (h : ∀ items, Triple (ledger.own [] items) x fun _ => ledger.own [] items) :
    Triple (OutcomeOwn ledger outcome) x fun _ => OutcomeOwn ledger outcome := by
  rintro w ⟨items, hcarries, hown⟩ a w' hx
  exact ⟨items, hcarries, h items w hown a w' hx⟩

theorem outcomeOwn_of_nothing {outcome : LiveWaitOutcome} (hnone : handedOver outcome = [])
    {w : World σ β} (h : ledger.own [] [] w) : OutcomeOwn ledger outcome w :=
  ⟨[], .nothing hnone, h⟩

theorem cancelledVerdict_spec (request : LiveWaitRequest) :
    Triple (ledger.own [] []) (cancelledVerdict env request)
      fun verdict w => OutcomeOwn ledger verdict.decided w := by
  unfold cancelledVerdict
  refine Triple.bind (ledger.now [] []) fun now => ?_
  refine Triple.bind (ledger.now [] []) fun completedAt => ?_
  exact Triple.pure fun w h => outcomeOwn_of_nothing rfl h

theorem sleepBackoff_spec (request : LiveWaitRequest) (fuel step : Nat) :
    Triple (ledger.own [] []) (sleepBackoff env request fuel step) fun _ => ledger.own [] [] := by
  unfold sleepBackoff backoffDeadline
  refine Triple.bind (R := fun _ => ledger.own [] []) ?_ fun sleepTo => ?_
  · exact Triple.bind (ledger.now [] []) fun now => Triple.pure fun w h => h
  · induction fuel with
    | zero => exact Triple.exhausted
    | succ fuel ih =>
      refine Triple.bind (ledger.isCancelled [] []) ?_
      rintro (_ | _)
      · refine Triple.bind (ledger.sleepUntil [] [] sleepTo) ?_
        rintro (_ | _)
        · exact Triple.bind (ledger.park [] []) fun _ => ih
        · exact Triple.pure fun w h => h
      · exact Triple.pure fun w h => h

section handlers

variable {binds : List (Nat × β)} {ready : List (Nat × Observation)}

/-- What was polled comes after what was ready. -/
theorem extendReadyRefs_extends (refs : List (Nat × β)) (ready : List (Nat × Observation)) :
    Triple (fun _ => True) (PollCycle.extendReadyRefs env refs ready)
      fun ready' _ => ready <+: ready' := by
  induction refs generalizing ready with
  | nil => exact Triple.pure fun _ _ => List.prefix_refl ready
  | cons p rest ih =>
    obtain ⟨idx, bind⟩ := p
    unfold PollCycle.extendReadyRefs
    split
    · exact ih ready
    · refine Triple.bind (R := fun _ _ => True) (fun _ _ _ _ _ => trivial) ?_
      rintro (_ | obs)
      · exact ih ready
      · exact (ih (ready ++ [(idx, obs)])).weaken fun ready' _ h =>
          (List.prefix_append ready [(idx, obs)]).trans h

/-- **Polling the binds that have nothing ready.** -/
theorem extendReadyRefs_spec' (hbinds : Indexed ledger binds)
    (hready : Collected (slots binds) ready) :
    Triple (ledger.own [] (freshItems binds ready)) (extendReadyRefs env binds ready)
      fun ready' w => (Collected (slots binds) ready' ∧ ready <+: ready') ∧
        ledger.own [] (freshItems binds ready') w := by
  have hmark : (fun _ => Mark.fresh) = markOf ∅ := by
    funext slot
    exact (if_neg Std.ExtTreeMap.not_mem_empty).symm
  have hextend : Triple (ledger.own _ _) (PollCycle.extendReadyRefs env binds ready) _ :=
    PollCycle.extendReadyRefs_spec ∅ [] hbinds.refs hready
  have hboth := hextend.and (extendReadyRefs_extends binds ready)
  refine hboth.conseq (fun w h => ⟨?_, trivial⟩) fun ready' w h => ⟨⟨h.1.1, h.2⟩, ?_⟩
  · rw [← hmark]
    exact h
  · have hown := h.1.2
    rw [← hmark] at hown
    exact hown

/-- **Deciding now**: a verdict owns what it carries. -/
theorem decideNow_spec (hbinds : Indexed ledger binds) (hready : Collected (slots binds) ready)
    (starts : List ResolvedStart) :
    ETriple (ledger.own [] (freshItems binds ready))
      (decideNow env set request binds ready starts)
      (fun verdict w => match verdict with
        | none => (∀ p ∈ ready, observationIsTerminal p.2 = false) ∧ ledger.own [] [] w
        | some verdict => OutcomeOwn ledger verdict.decided w)
      fun _ => ledger.broken := by
  unfold decideNow
  refine ETriple.bind (ETriple.lift (ledger.now [] _)) fun now => ?_
  refine ETriple.bind (decideAndRestore_spec hbinds hready) ?_
  rintro (_ | outcome)
  · exact ETriple.pure fun w h => h
  · refine ETriple.bind (ETriple.lift (outcomeOwn_spec fun items => ledger.now [] items))
      fun now => ?_
    exact ETriple.pure fun w h => h

theorem restoreOwned_spec (hbinds : Indexed ledger binds) (hready : Collected (slots binds) ready) :
    ETriple (ledger.own [] (freshItems binds ready)) (restoreOwned env binds ready)
      (fun _ => ledger.own [] []) fun _ => ledger.broken := by
  have hrestore : ETriple (ledger.own [] ([] ++ freshItems binds ready))
      (restoreEach env (slots binds) (ready.filter fun p => observationIsReplayable p.2))
      (fun _ => ledger.own [] []) fun _ => ledger.broken :=
    restoreOwnedObservations_spec [] [] hbinds.seatedSlots hready.keys
  rw [restoreOwned_eq]
  exact hrestore

/-- Signals are not put back. -/
theorem restoreOwned_idle {P : World σ β → Prop} {E : Error → World σ β → Prop}
    (binds : List (Nat × β)) (hidle : ∀ p ∈ ready, observationIsTerminal p.2 = false) :
    ETriple P (restoreOwned env binds ready) (fun _ => P) E := by
  have hnil : (ready.filter fun p => observationIsReplayable p.2) = [] := by
    rw [List.filter_eq_nil_iff]
    intro p hp
    have := hidle p hp
    cases hobs : p.2 <;> simp_all [observationIsTerminal, observationIsReplayable]
  rw [restoreOwned_eq, hnil]
  exact ETriple.pure fun w h => h

theorem onObserved_spec (hbinds : Indexed ledger binds) (fuel : Nat) {wait : Wait β}
    (hwait : WaitOk ledger wait) (starts : List ResolvedStart)
    {collected : FirstReadyOutput Observation} (hready : Collected (slots binds) collected.ready) :
    ETriple (ledger.own [] (freshItems binds collected.ready))
      (onObserved env set request fuel wait binds starts collected)
      (TurnOwn ledger) fun _ => FailOwn ledger := by
  unfold onObserved
  cases collected.error with
  | some err =>
    refine ETriple.bind ((restoreOwned_spec hbinds hready).conseq (fun w h => h) (fun _ _ h => h)
      fun _ _ h => Or.inr h) fun _ => ?_
    exact ETriple.throw fun w h => Or.inl h
  | none =>
    refine ETriple.bind (ETriple.lift (extendReadyRefs_spec' hbinds hready)) fun ready => ?_
    refine ETriple.assume fun hready' => ?_
    refine ETriple.bind ((decideNow_spec hbinds hready'.1 starts).conseq (fun w h => h)
      (fun _ _ h => h) fun _ _ h => Or.inr h) ?_
    rintro (_ | verdict)
    · refine ETriple.bind ((ETriple.lift (sleepBackoff_spec request fuel _)).strengthen
        fun w h => h.2) fun _ => ?_
      refine ETriple.bind (ETriple.lift (ledger.isCancelled [] [])) ?_
      rintro (_ | _)
      · exact ETriple.pure fun w h => ⟨hwait, h⟩
      · refine ETriple.bind (ETriple.lift (cancelledVerdict_spec request)) fun verdict => ?_
        exact ETriple.pure fun w h => ⟨hwait, h⟩
    · exact ETriple.pure fun w h => ⟨hwait, h⟩

theorem onSlept_spec (hbinds : Indexed ledger binds) {wait : Wait β} (hwait : WaitOk ledger wait)
    (starts : List ResolvedStart) {leftover : List (Nat × Observation)}
    (hidle : ∀ p ∈ leftover, observationIsTerminal p.2 = false) :
    ETriple (ledger.own [] []) (onSlept env set request wait binds starts leftover)
      (TurnOwn ledger) fun _ => FailOwn ledger := by
  unfold onSlept
  refine ETriple.bind (ETriple.lift (ledger.now [] [])) fun now => ?_
  refine ETriple.bind (restoreOwned_idle binds hidle) fun _ => ?_
  have hextend := extendReadyRefs_spec' hbinds (Collected.nil : Collected (slots binds) [])
  refine ETriple.bind (ETriple.lift (hextend.strengthen fun w h => h)) fun ready => ?_
  refine ETriple.assume fun hready => ?_
  refine ETriple.bind ((decideAndRestore_spec hbinds hready.1).conseq (fun w h => h)
    (fun _ _ h => h) fun _ _ h => Or.inr h) ?_
  rintro (_ | outcome)
  · refine ETriple.pure fun w h => ⟨hwait, ?_⟩
    cases hdone : terminalDeadline set request now starts with
    | none => exact h.2
    | some done => exact outcomeOwn_of_nothing (terminalDeadline_handedOver hdone) h.2
  · exact ETriple.pure fun w h => ⟨hwait, h⟩

end handlers

/-! ## The turns -/

/-- **A body, then its drop**: the drop keeps whatever the body left. -/
theorem thenDrop_spec {α : Type} {P : World σ β → Prop} {body : Fallible σ β α} {drop : Act σ β Unit}
    {Q : α → World σ β → Prop} {E : Error → World σ β → Prop} (hbody : ETriple P body Q E)
    (hdrop : ∀ a, Triple (Q a) drop fun _ => Q a) (hfail : ∀ err, Triple (E err) drop fun _ => E err) :
    ETriple P (Fallible.thenDrop body drop) Q E := by
  unfold Fallible.thenDrop
  refine ETriple.bind (ETriple.lift hbody) ?_
  rintro (err | a)
  · exact ETriple.bind (ETriple.lift (hfail err)) fun _ => ETriple.throw fun w h => h
  · exact ETriple.bind (ETriple.lift (hdrop a)) fun _ => ETriple.pure fun w h => h

/-- Dropping what a race still holds keeps what a turn owns. -/
theorem dropTurn_spec {F T : Type} {dropFut : F → Act σ β Unit}
    {body : Fallible σ β (Wait β × Option Verdict)} {P : World σ β → Prop} {arms : List (Arm F T)}
    (hbody : ETriple P body (TurnOwn ledger) fun _ => FailOwn ledger)
    (hdrop : ∀ items fut, Triple (ledger.own [] items) (dropFut fut) fun _ => ledger.own [] items)
    (hbroken : ∀ fut, Triple ledger.broken (dropFut fut) fun _ => ledger.broken) :
    ETriple P (Fallible.thenDrop body (FirstReady.drop dropFut arms)) (TurnOwn ledger)
      fun _ => FailOwn ledger := by
  refine thenDrop_spec hbody ?_ fun err => ?_
  · rintro ⟨wait, _ | verdict⟩
    · have hrace := FirstReady.drop_spec (hdrop []) arms
      exact Triple.assume fun hwait => hrace.weaken fun _ w h => ⟨hwait, h⟩
    · have hrace : Triple (OutcomeOwn ledger verdict.decided) _ _ :=
        outcomeOwn_spec fun items => FirstReady.drop_spec (hdrop items) arms
      exact Triple.assume fun hwait => hrace.weaken fun _ w h => ⟨hwait, h⟩
  · refine FirstReady.drop_spec (fun fut => ?_) arms
    rintro w (h | h) a w' hx
    · exact Or.inl (hdrop [] fut w h a w' hx)
    · exact Or.inr (hbroken fut w h a w' hx)

/-- Positions are the indices of binds without an index. -/
theorem indexedBinds_getElem? (binds : List β) (pos : Nat) :
    (indexedBinds binds)[pos]? = binds[pos]?.map fun bind => (pos, bind) := by
  rw [indexedBinds, List.getElem?_map, List.getElem?_zipIdx]
  cases binds[pos]? <;> simp

/-- What a race over indexed binds has handed over is fresh at their slots. -/
theorem takenItems_handed {binds : List (Nat × β)} (hbinds : Indexed ledger binds)
    (hpos : ∀ (pos : Nat) (p : Nat × β), binds[pos]? = some p → p.1 = pos)
    {ready : List (Nat × Observation)} (hrange : ∀ p ∈ ready, p.1 < binds.length) :
    takenItems (FirstReady.handed (fun j => binds[j]?) ready) = freshItems binds ready ∧
      ∀ p ∈ ready, ((slots binds)[p.1]?.join).isSome := by
  induction ready with
  | nil => exact ⟨rfl, by simp⟩
  | cons p rest ih =>
    obtain ⟨hitems, hseated⟩ := ih fun q hq => hrange q (List.mem_cons_of_mem p hq)
    have hlt := hrange p List.mem_cons_self
    have hget : binds[p.1]? = some binds[p.1] := List.getElem?_eq_getElem hlt
    have hkey : binds[p.1].1 = p.1 := hpos p.1 _ hget
    have hbind : (slots binds)[p.1]?.join = some binds[p.1].2 := by
      rw [join_slots, hbinds.bindAt_eq_some]
      have hmem := List.getElem_mem hlt
      rwa [← Prod.mk.eta (p := binds[p.1]), hkey] at hmem
    refine ⟨?_, List.forall_mem_cons.mpr ⟨by rw [hbind]; rfl, hseated⟩⟩
    rw [FirstReady.handed_cons hget, freshItems, readyItems, placed_cons, placed_singleton hbind]
    show Item.of .fresh binds[p.1].1 binds[p.1].2 p.2 :: takenItems _ = _
    rw [hkey, hitems]
    rfl

theorem turnObserving_spec (fuel : Nat) {wait : Wait β} (hwait : WaitOk ledger wait)
    {binds : List β} (hbinds : Indexed ledger (indexedBinds binds)) :
    ETriple (ledger.own [] []) (turnObserving env set request fuel wait binds)
      (TurnOwn ledger) fun _ => FailOwn ledger := by
  unfold turnObserving
  refine ETriple.bind (ETriple.lift (nextEach_spec hbinds.seated)) fun futs => ?_
  refine ETriple.assume fun hfuts => ?_
  have hown : ∀ taken : List ((Nat × β) × Observation), NextOwn ledger [] [] taken
      = ledger.own [] ([] ++ takenItems taken) := fun _ => rfl
  have hselect : Triple _ (selectRace env (pollNextArm env) observationIsTerminal
      (earliestDeadline request) fuel (FirstReady.new futs)) _ :=
    selectRace_spec (nextOwning ledger [] []) observationIsTerminal
      (fun taken => ledger.isCancelled [] _) (fun taken deadline => ledger.sleepUntil [] _ deadline)
      (fun taken => ledger.park [] _) (earliestDeadline request) hbinds.keys fuel
      (FirstReady.armsGood_new hfuts) (FirstReady.live_new futs)
  refine ETriple.bind ((ETriple.lift hselect).strengthen fun w h => ?_) ?_
  · rw [FirstReady.armsHeld_new]
    exact h
  rintro ⟨arms, ended⟩
  refine dropTurn_spec ?_ (fun items fut => ledger.dropNext [] items fut)
    fun fut => ledger.keepsBroken
  have hpos : ∀ (pos : Nat) (p : Nat × β), (indexedBinds binds)[pos]? = some p → p.1 = pos := by
    intro pos p hp
    rw [indexedBinds_getElem?, Option.map_eq_some_iff] at hp
    obtain ⟨bind, -, rfl⟩ := hp
    rfl
  -- A race that is given up holds nothing but idle signals.
  have hidle : ∀ w, EndOwn (NextOwn ledger [] []) (indexedBinds binds) observationIsTerminal arms
      (.slept : RaceEnd Observation) w → ledger.own [] [] w ∧
        ∀ p ∈ FirstReady.takeReady arms, observationIsTerminal p.2 = false := by
    rintro w ⟨h, hlength, hnone⟩
    refine ⟨NextOwn.release hnone h, fun p hp => ?_⟩
    obtain ⟨l, hl⟩ := FirstReady.takeReady_mem hlength hp
    exact hnone _ hl
  cases ended with
  | collected out =>
    refine ETriple.fact (fun w h => h.2) fun hout => ?_
    obtain ⟨hitems, hseated⟩ := takenItems_handed hbinds hpos hout.2.1
    have hready : Collected (slots (indexedBinds binds)) out.ready :=
      ⟨hout.1.imp Nat.ne_of_lt, hseated⟩
    refine (onObserved_spec hbinds fuel hwait _ hready).strengthen fun w h => ?_
    have h := h.1
    rw [hown, hitems] at h
    exact h
  | cancelled =>
    refine ETriple.fact (fun w h => (hidle w h).2) fun hnone => ?_
    refine ETriple.bind ((restoreOwned_idle _ hnone).strengthen fun w h => (hidle w h).1) fun _ => ?_
    refine ETriple.bind (ETriple.lift (cancelledVerdict_spec request)) fun verdict => ?_
    exact ETriple.pure fun w h => ⟨hwait, h⟩
  | slept =>
    refine ETriple.fact (fun w h => (hidle w h).2) fun hnone => ?_
    exact (onSlept_spec hbinds hwait _ hnone).strengthen fun w h => (hidle w h).1

/-! ## The turn that binds -/

/-- What a race over all slots has handed over, at the binds it came with. -/
theorem handed_range {T : Type} {n : Nat} {ready : List (Nat × T)} (hrange : ∀ p ∈ ready, p.1 < n) :
    FirstReady.handed (fun j => (List.range n)[j]?) ready = ready := by
  induction ready with
  | nil => rfl
  | cons p rest ih =>
    have hlt := hrange p List.mem_cons_self
    rw [FirstReady.handed_cons (List.getElem?_range hlt),
      ih fun q hq => hrange q (List.mem_cons_of_mem p hq)]

theorem thenItems_eq {ready : List (Nat × β × Observation)}
    (hbinds : Indexed ledger (ready.map fun p => (p.1, p.2.1))) :
    thenItems ready = freshItems (ready.map fun p => (p.1, p.2.1)) (ready.map fun p => (p.1, p.2.2)) ∧
      ∀ p ∈ ready.map (fun p => (p.1, p.2.2)),
        ((slots (ready.map fun p => (p.1, p.2.1)))[p.1]?.join).isSome := by
  have hbind : ∀ p ∈ ready, (slots (ready.map fun p => (p.1, p.2.1)))[p.1]?.join = some p.2.1 := by
    intro p hp
    rw [join_slots, hbinds.bindAt_eq_some]
    exact List.mem_map.mpr ⟨p, hp, rfl⟩
  constructor
  · unfold thenItems freshItems readyItems placed
    rw [List.flatMap_map, ← List.flatMap_singleton' (ready.map _), List.flatMap_map]
    refine List.flatMap_congr fun p hp => ?_
    rw [hbind p hp]
  · intro q hq
    obtain ⟨p, hp, rfl⟩ := List.mem_map.mp hq
    rw [hbind p hp]
    rfl

/-- Each pair goes back to the bind it came with. -/
theorem restoreBoundPairs_eq {binds : List (Nat × β)} {pairs : List (Nat × β × Observation)}
    (hbind : ∀ p ∈ pairs, bindAt binds p.1 = some p.2.1) :
    restoreBoundPairs env pairs = restoreOwned env binds (pairs.map fun p => (p.1, p.2.2)) := by
  induction pairs with
  | nil => rfl
  | cons p rest ih =>
    obtain ⟨idx, bind, obs⟩ := p
    have hfirst : bindAt binds idx = some bind := hbind _ List.mem_cons_self
    have hrest := ih fun q hq => hbind q (List.mem_cons_of_mem _ hq)
    rw [List.map_cons]
    unfold restoreBoundPairs restoreOwned
    cases hobs : observationIsReplayable obs with
    | false => simpa [hobs] using hrest
    | true => simp [hfirst, hrest]

theorem restoreBoundPairs_spec {pairs : List (Nat × β × Observation)}
    (hbinds : Indexed ledger (pairs.map fun p => (p.1, p.2.1))) :
    ETriple (ledger.own [] (thenItems pairs)) (restoreBoundPairs env pairs)
      (fun _ => ledger.own [] []) fun _ => ledger.broken := by
  obtain ⟨hitems, hseated⟩ := thenItems_eq hbinds
  have hkeys : ((pairs.map fun p => (p.1, p.2.2)).map Prod.fst).Nodup := by
    simpa [Function.comp_def] using hbinds.keys
  rw [hitems, restoreBoundPairs_eq fun p hp =>
    hbinds.bindAt_eq_some.mpr (List.mem_map.mpr ⟨p, hp, rfl⟩)]
  exact restoreOwned_spec hbinds ⟨hkeys, hseated⟩

/-- Signals are not put back. -/
theorem restoreBoundPairs_idle {P : World σ β → Prop} {E : Error → World σ β → Prop}
    {pairs : List (Nat × β × Observation)}
    (hidle : ∀ p ∈ pairs, observationIsTerminal p.2.2 = false) :
    ETriple P (restoreBoundPairs env pairs) (fun _ => P) E := by
  induction pairs with
  | nil => exact ETriple.pure fun w h => h
  | cons p rest ih =>
    obtain ⟨idx, bind, obs⟩ := p
    have hsignal : ¬ observationIsReplayable obs = true := by
      have := hidle _ List.mem_cons_self
      cases obs <;> simp_all [observationIsTerminal, observationIsReplayable]
    unfold restoreBoundPairs
    rw [if_neg hsignal]
    exact ih fun q hq => hidle q (List.mem_cons_of_mem _ hq)

/-- Increasing positions below `n` that leave none out are all positions below `n`. -/
theorem eq_range_of_complete {positions : List Nat} {n : Nat}
    (hincreasing : positions.Pairwise (· < ·)) (hmem : ∀ pos, pos ∈ positions ↔ pos < n) :
    positions = List.range n := by
  have hperm : positions.Perm (List.range n) := by
    refine (List.perm_ext_iff_of_nodup (hincreasing.imp Nat.ne_of_lt) List.nodup_range).mpr ?_
    intro pos
    rw [hmem, List.mem_range]
  exact hperm.eq_of_pairwise (fun a b _ _ hab hba => absurd hab (Nat.lt_asymm hba)) hincreasing
    List.pairwise_lt_range

/-- **A wait holds every bind, in registration order**, once nothing was decided: the sort of the
source finds the binds sorted, and their positions are their indices. -/
theorem held_indexed {binds : List (Nat × β)} {n : Nat}
    (hrange : binds.map Prod.fst = List.range n) :
    indexedBinds ((binds.mergeSort fun p q => p.1 ≤ q.1).map Prod.snd) = binds := by
  have hsorted : binds.Pairwise fun p q => Decidable.decide (p.1 ≤ q.1) = true := by
    have hpairs : (binds.map Prod.fst).Pairwise (· ≤ ·) := by
      rw [hrange]
      exact List.pairwise_lt_range.imp Nat.le_of_lt
    rw [List.pairwise_map] at hpairs
    exact hpairs.imp fun h => by simpa using h
  rw [List.mergeSort_of_pairwise hsorted]
  refine List.ext_getElem? fun pos => ?_
  rw [indexedBinds_getElem?, List.getElem?_map]
  cases hpos : binds[pos]? with
  | none => rfl
  | some p =>
    have hkey : (binds.map Prod.fst)[pos]? = some p.1 := by rw [List.getElem?_map, hpos]; rfl
    rw [hrange] at hkey
    have hkey : pos = p.1 := by
      rw [List.getElem?_eq_some_iff] at hkey
      obtain ⟨hlt, hget⟩ := hkey
      simpa using hget
    rw [hkey]
    rfl

theorem onBound_spec (fuel : Nat) {wait : Wait β} (hwait : WaitOk ledger wait)
    {collected : FirstReadyOutput (β × Observation)} {n : Nat}
    (hincreasing : (collected.ready.map Prod.fst).Pairwise (· < ·))
    (hrange : ∀ p ∈ collected.ready, p.1 < n)
    (hseated : ∀ p ∈ collected.ready, ledger.seat p.1 p.2.1)
    (hall : collected.error = none →
      (∀ p ∈ collected.ready, observationIsTerminal p.2.2 = false) →
        ∀ pos < n, ∃ value, (pos, value) ∈ collected.ready) :
    ETriple (ledger.own [] (thenItems collected.ready))
      (onBound env set request fuel wait collected) (TurnOwn ledger) fun _ => FailOwn ledger := by
  have hkeys : (collected.ready.map fun p => (p.1, p.2.1)).map Prod.fst
      = collected.ready.map Prod.fst := by simp [Function.comp_def]
  have hbinds : Indexed ledger (collected.ready.map fun p => (p.1, p.2.1)) := by
    refine ⟨?_, fun q hq => ?_⟩
    · rw [hkeys]
      exact hincreasing.imp Nat.ne_of_lt
    · obtain ⟨p, hp, rfl⟩ := List.mem_map.mp hq
      exact hseated p hp
  obtain ⟨hitems, hslots⟩ := thenItems_eq hbinds
  unfold onBound
  cases herror : collected.error with
  | some err =>
    refine ETriple.bind ((restoreBoundPairs_spec hbinds).conseq (fun w h => h) (fun _ _ h => h)
      fun _ _ h => Or.inr h) fun _ => ?_
    exact ETriple.throw fun w h => Or.inl h
  | none =>
    have hready : Collected (slots (collected.ready.map fun p => (p.1, p.2.1)))
        (collected.ready.map fun p => (p.1, p.2.2)) := by
      have hkeys' : (collected.ready.map fun p => (p.1, p.2.2)).map Prod.fst
          = collected.ready.map Prod.fst := by simp [Function.comp_def]
      refine ⟨?_, hslots⟩
      rw [hkeys']
      exact hincreasing.imp Nat.ne_of_lt
    rw [hitems]
    dsimp only
    refine ETriple.bind (ETriple.lift (extendReadyRefs_spec' hbinds hready)) fun ready => ?_
    refine ETriple.assume fun hready' => ?_
    refine ETriple.bind ((decideNow_spec hbinds hready'.1 _).conseq (fun w h => h)
      (fun _ _ h => h) fun _ _ h => Or.inr h) ?_
    rintro (_ | verdict)
    · refine ETriple.assume fun hidle => ?_
      -- Everything that was ready is idle, so the race collected every bind.
      have hidle' : ∀ p ∈ collected.ready, observationIsTerminal p.2.2 = false := fun p hp =>
        hidle (p.1, p.2.2) (hready'.2.subset (List.mem_map.mpr ⟨p, hp, rfl⟩))
      have hcomplete : (collected.ready.map fun p => (p.1, p.2.1)).map Prod.fst = List.range n := by
        rw [hkeys]
        refine eq_range_of_complete hincreasing fun pos => ⟨fun hpos => ?_, fun hpos => ?_⟩
        · obtain ⟨p, hp, rfl⟩ := List.mem_map.mp hpos
          exact hrange p hp
        · obtain ⟨value, hvalue⟩ := hall herror hidle' pos hpos
          exact List.mem_map.mpr ⟨(pos, value), hvalue, rfl⟩
      refine ETriple.bind (ETriple.lift (sleepBackoff_spec request fuel _)) fun _ => ?_
      refine ETriple.pure fun w h => ⟨?_, h⟩
      rintro held ⟨⟩
      rw [held_indexed hcomplete]
      exact hbinds
    · exact ETriple.pure fun w h => ⟨hwait, h⟩

theorem turnBinding_spec (hids : IdsOf ids set) (fuel : Nat) {wait : Wait β}
    (hwait : WaitOk ledger wait) :
    ETriple (ledger.own [] []) (turnBinding env set request fuel wait)
      (TurnOwn ledger) fun _ => FailOwn ledger := by
  unfold turnBinding
  set n := set.registrations.length
  have hgood : List.Forall₂ (ThenGood ledger) (List.range n)
      (set.registrations.map (BindThenObserve.start : Registration → BindThenObserve β φ ψ)) := by
    refine List.forall₂_iff_get.mpr ⟨by simp [n], fun pos h₁ h₂ => ?_⟩
    show ThenGood ledger (List.range n)[pos] (set.registrations.map BindThenObserve.start)[pos]
    rw [List.getElem_range, List.getElem_map]
    have hlt : pos < set.registrations.length := by simpa using h₁
    show ids[pos]? = some _
    rw [hids, List.getElem?_map, List.getElem?_eq_getElem hlt]
    rfl
  have hkeys : ((List.range n).map id).Nodup := by simpa using List.nodup_range
  -- Every step of the `select!` itself leaves what the race has taken.
  have hkeep : ∀ {α : Type} {x : Act σ β α} (taken : List (Nat × β × Observation)),
      Triple (ledger.own [] (thenItems taken)) x (fun _ => ledger.own [] (thenItems taken)) →
        Triple (ThenOwn ledger taken) x fun _ => ThenOwn ledger taken :=
    fun taken hx => Triple.assume fun hseated => hx.weaken fun _ w h => ⟨hseated, h⟩
  have hselect : Triple _ (selectRace env (pollBindThenObserve env)
      (fun value => observationIsTerminal value.2) (earliestDeadline request) fuel
      (FirstReady.new (set.registrations.map BindThenObserve.start))) _ :=
    selectRace_spec (thenOwning ledger) (fun value => observationIsTerminal value.2)
      (fun taken => hkeep taken (ledger.isCancelled [] _))
      (fun taken deadline => hkeep taken (ledger.sleepUntil [] _ deadline))
      (fun taken => hkeep taken (ledger.park [] _)) (earliestDeadline request)
      hkeys fuel (FirstReady.armsGood_new hgood) (FirstReady.live_new _)
  refine ETriple.bind ((ETriple.lift hselect).strengthen fun w h => ?_) ?_
  · rw [FirstReady.armsHeld_new]
    exact ⟨by simp, h⟩
  rintro ⟨arms, ended⟩
  refine dropTurn_spec ?_ (fun items fut => ?_) fun fut => ?_
  · -- A race that is given up holds nothing but idle signals.
    have hidle : ∀ w, EndOwn (ThenOwn ledger) (List.range n)
        (fun value => observationIsTerminal value.2) arms
        (.slept : RaceEnd (β × Observation)) w → ledger.own [] [] w ∧
          ∀ p ∈ FirstReady.takeReady arms, observationIsTerminal p.2.2 = false := by
      rintro w ⟨h, hlength, hnone⟩
      constructor
      · refine ledger.settle (List.Subset.refl _) (List.nil_subset _) (fun slot => ?_) h.2
        rw [heldAt_thenItems, heldAt_nil]
        symm
        rw [List.flatMap_eq_nil_iff]
        intro p hp
        have := hnone p (List.mem_filter.mp hp).1
        cases hobs : p.2.2 <;> simp_all [observationIsTerminal, Observation.events]
      · intro p hp
        obtain ⟨l, hl⟩ := FirstReady.takeReady_mem hlength hp
        exact hnone (l, p.2) hl
    cases ended with
    | collected out =>
      refine ETriple.fact (fun w h => h.2) fun hout => ?_
      obtain ⟨hincreasing, hrange, hall⟩ := hout
      rw [List.length_range] at hrange hall
      have hhanded : FirstReady.handed (fun j => (List.range n)[j]?) out.ready = out.ready :=
        handed_range hrange
      refine ETriple.fact (fun w h => h.1.1) fun hseated => ?_
      rw [hhanded] at hseated
      refine (onBound_spec fuel hwait hincreasing hrange hseated hall).strengthen fun w h => ?_
      have hown := h.1.2
      rw [hhanded] at hown
      exact hown
    | cancelled =>
      refine ETriple.fact (fun w h => (hidle w h).2) fun hnone => ?_
      refine ETriple.bind ((restoreBoundPairs_idle hnone).strengthen fun w h => (hidle w h).1)
        fun _ => ?_
      refine ETriple.bind (ETriple.lift (cancelledVerdict_spec request)) fun verdict => ?_
      exact ETriple.pure fun w h => ⟨hwait, h⟩
    | slept =>
      refine ETriple.fact (fun w h => (hidle w h).2) fun hnone => ?_
      refine ETriple.bind ((restoreBoundPairs_idle hnone).strengthen fun w h => (hidle w h).1)
        fun _ => ?_
      refine ETriple.bind (ETriple.lift (ledger.now [] [])) fun now => ?_
      refine ETriple.bind (ETriple.lift ledger.snapshot) fun starts => ?_
      refine ETriple.pure fun w h => ⟨hwait, ?_⟩
      cases hdone : terminalDeadline set request now starts with
      | none => exact h
      | some done => exact outcomeOwn_of_nothing (terminalDeadline_handedOver hdone) h
  · cases fut with
    | start registration => exact Triple.pure fun w h => h
    | binding fut => exact ledger.dropBind [] items fut
    | observing fut => exact ledger.dropNext [] items fut
  · cases fut with
    | start registration => exact Triple.pure fun w h => h
    | binding fut =>
      show Triple ledger.broken (env.dropBind fut) fun _ => ledger.broken
      exact ledger.keepsBroken
    | observing fut =>
      show Triple ledger.broken (env.dropNext fut) fun _ => ledger.broken
      exact ledger.keepsBroken

/-! ## The run -/

/-- **One turn** keeps the invariant of the loop. -/
theorem turn_spec (hids : IdsOf ids set) (fuel : Nat) {wait : Wait β} (hwait : WaitOk ledger wait) :
    ETriple (ledger.own [] []) (turn env set request fuel wait)
      (TurnOwn ledger) fun _ => FailOwn ledger := by
  unfold turn
  refine ETriple.bind (ETriple.lift (ledger.isCancelled [] [])) ?_
  rintro (_ | _)
  · have hstarts : Triple (ledger.own [] []) (knownStarts env wait) fun _ => ledger.own [] [] := by
      unfold knownStarts
      cases wait.bound with
      | none => exact ledger.snapshot
      | some binds => exact Triple.pure fun w h => h
    refine ETriple.bind (ETriple.lift hstarts) fun starts => ?_
    refine ETriple.bind (ETriple.lift (ledger.now [] [])) fun now => ?_
    cases hdone : terminalDeadline set request now starts with
    | some done =>
      refine ETriple.bind (ETriple.lift (ledger.now [] [])) fun now => ?_
      exact ETriple.pure fun w h =>
        ⟨hwait, outcomeOwn_of_nothing (terminalDeadline_handedOver hdone) h⟩
    | none =>
      cases hbound : wait.bound with
      | some binds => exact turnObserving_spec fuel hwait (hwait binds hbound)
      | none => exact turnBinding_spec hids fuel hwait
  · refine ETriple.bind (ETriple.lift (cancelledVerdict_spec request)) fun verdict => ?_
    exact ETriple.pure fun w h => ⟨hwait, h⟩

/-- **The run of the loop**, by induction on its turns. -/
theorem matchLoop_spec (ledger : Ledger env ids) (hids : IdsOf ids set) (fuel turns : Nat)
    {wait : Wait β} (hwait : WaitOk ledger wait) :
    ETriple (ledger.own [] []) (matchLoop env set request fuel turns wait)
      (fun verdict => OutcomeOwn ledger verdict.decided) fun _ => FailOwn ledger := by
  induction turns generalizing wait with
  | zero => exact ETriple.exhausted
  | succ turns ih =>
    unfold matchLoop
    refine ETriple.bind (turn_spec hids fuel hwait) ?_
    rintro ⟨wait', _ | verdict⟩
    · exact ETriple.assume fun hwait' => ih hwait'
    · exact ETriple.pure fun w h => h.2

/-- A wait that has no binds yet. -/
theorem waitNew_ok : WaitOk ledger (⟨0, none⟩ : Wait β) := by
  rintro binds ⟨⟩

/-- A first match that returns finishes the verdict of its loop. -/
theorem runFirstMatch_loop {fuel : Nat} {w w' : World σ β} {outcome : LiveWaitOutcome}
    (hrun : (runFirstMatch env set request fuel).run w = some (.ok outcome, w')) :
    ∃ verdict, (matchLoop env set request fuel fuel ⟨0, none⟩).run { w with resolved := [] }
        = some (.ok verdict, w') ∧ outcome = finish set request verdict.now verdict.decided := by
  obtain ⟨_, s₁, hresolve, hrun⟩ := bind_eq_ok hrun
  have hresolved : resolve set request = .ok () ∧ w = s₁ := by
    have h : some (resolve set request, w) = some (Except.ok (), s₁) := hresolve
    exact Prod.mk.inj (Option.some.inj h)
  obtain ⟨-, rfl⟩ := hresolved
  obtain ⟨_, s₂, hnew, hrun⟩ := bind_eq_ok hrun
  obtain ⟨_, -, hnew⟩ := lift_eq_some hnew
  obtain ⟨-, rfl⟩ := Prod.mk.inj (Option.some.inj hnew)
  obtain ⟨verdict, w₁, hloop, hfinish⟩ := bind_eq_ok hrun
  have hfinish : some (Except.ok (finish set request verdict.now verdict.decided), w₁)
      = some (Except.ok outcome, w') := hfinish
  obtain ⟨houtcome, rfl⟩ := Prod.mk.inj (Option.some.inj hfinish)
  exact ⟨verdict, hloop, (Except.ok.inj houtcome).symm⟩

/-- **A first match that returns** owns the event of the verdict it finished. -/
theorem runFirstMatch_verdict (ledger : Ledger env ids) (hids : IdsOf ids set) {fuel : Nat}
    {w w' : World σ β} (hstart : ledger.own [] [] w) {outcome : LiveWaitOutcome}
    (hrun : (runFirstMatch env set request fuel).run w = some (.ok outcome, w')) :
    ∃ verdict, (matchLoop env set request fuel fuel ⟨0, none⟩).run { w with resolved := [] }
        = some (.ok verdict, w') ∧ outcome = finish set request verdict.now verdict.decided ∧
      OutcomeOwn ledger verdict.decided w' := by
  obtain ⟨verdict, hloop, houtcome⟩ := runFirstMatch_loop hrun
  have hspec : ETriple _ (matchLoop env set request fuel fuel ⟨0, none⟩) _ _ :=
    matchLoop_spec ledger hids fuel fuel waitNew_ok
  have hown := hspec _ (ledger.resolved [] hstart) (.ok verdict) w' hloop
  exact ⟨verdict, hloop, houtcome, hown⟩

/-- **A first match that fails** owns nothing, unless a restore was rejected. -/
theorem runFirstMatch_error (ledger : Ledger env ids) (hids : IdsOf ids set) {fuel : Nat}
    {w w' : World σ β} (hstart : ledger.own [] [] w) {err : Error}
    (hrun : (runFirstMatch env set request fuel).run w = some (.error err, w')) :
    FailOwn ledger w' := by
  have hspec : ETriple (ledger.own [] []) (runFirstMatch env set request fuel)
      (fun _ _ => True) fun _ => FailOwn ledger := by
    unfold runFirstMatch
    refine ETriple.bind (ETriple.result (fun _ _ w h => h) fun _ _ w h => Or.inl h) fun _ => ?_
    unfold runLoop
    refine ETriple.bind (ETriple.lift ledger.newResolved) fun _ => ?_
    refine ETriple.bind (matchLoop_spec ledger hids fuel fuel waitNew_ok) fun verdict => ?_
    exact ETriple.pure fun w h => trivial
  exact hspec w hstart _ w' hrun

end Live

end Waitprims
