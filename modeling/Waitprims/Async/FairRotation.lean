import Mathlib
import Waitprims.Async.CycleRetention
import Waitprims.Async.QueueObserver
import Waitprims.Testkit.Case

/-! # Fairness across a chain of poll cycles

A cycle visits the registrations in their order, rotated to the start its fairness cursor names, and
proposes a cursor that names the registration after that start. The cursor is a text: it is written
from an arm id and read against the arm ids and the registration ids of the next request. Where the
names are told apart, reading a written cursor gives back the place it was written for, so along a
chain the start moves by one from cycle to cycle.

* **`Named`** — the arm ids are distinct, and none reads as something else behind `fair:`.
* **`fairnessStartIndex_fairCursor`** — a cursor read back.
* **`Chain`** — cycles of one set and one list of required arms, each citing the outcome before it.
* **`chain_rotates`** — the start and the visiting order of every cycle, and of `n` in a row. -/

namespace Waitprims

namespace PollCycle

variable {σ β φ ψ : Type} {env : Env σ β φ ψ} {set : RegistrationSet}
  {request request' : PollCycleRequest}

/-! ## Names -/

/-- **Names a cursor tells apart.** -/
structure Named (set : RegistrationSet) (request : PollCycleRequest) : Prop where
  distinct : (armIds set request).Nodup
  apart : ∀ armId ∈ armIds set request, ∀ registration ∈ set.registrations,
    armId ≠ registration.registrationId
  start : "start" ∉ armIds set request
  armPlain : ∀ armId ∈ armIds set request, stripPrefix "fair:" armId = none
  idPlain : ∀ registration ∈ set.registrations, stripPrefix "fair:" registration.registrationId = none

instance : Decidable (Named set request) :=
  decidable_of_iff
    ((armIds set request).Nodup ∧
      (∀ armId ∈ armIds set request, ∀ registration ∈ set.registrations,
        armId ≠ registration.registrationId) ∧
      "start" ∉ armIds set request ∧
      (∀ armId ∈ armIds set request, stripPrefix "fair:" armId = none) ∧
      ∀ registration ∈ set.registrations, stripPrefix "fair:" registration.registrationId = none)
    ⟨fun h => ⟨h.1, h.2.1, h.2.2.1, h.2.2.2.1, h.2.2.2.2⟩,
      fun h => ⟨h.distinct, h.apart, h.start, h.armPlain, h.idPlain⟩⟩

/-- What is behind a prefix is found behind it. -/
theorem stripPrefix_append (pre s : String) : stripPrefix pre (pre ++ s) = some s := by
  have hlist : (pre ++ s).toList = pre.toList ++ s.toList := String.toList_append
  have hprefix : pre.toList.isPrefixOf (pre ++ s).toList = true := by
    rw [hlist, List.isPrefixOf_iff_prefix]
    exact List.prefix_append _ _
  rw [stripPrefix, if_pos hprefix, hlist, List.drop_left, String.ofList_toList]

/-- Two texts behind one prefix. -/
theorem append_left_cancel (pre s s' : String) (h : pre ++ s = pre ++ s') : s = s' := by
  have hstrip := stripPrefix_append pre s
  rw [h, stripPrefix_append] at hstrip
  exact (Option.some.inj hstrip).symm

/-- The arm ids are a matter of the required arms. -/
theorem armIdsFrom_congr (harms : request.requiredArms = request'.requiredArms) (k : Nat)
    (registrations : List Registration) :
    armIdsFrom request k registrations = armIdsFrom request' k registrations := by
  induction registrations generalizing k with
  | nil => rfl
  | cons registration rest ih =>
    have hid : armIdFor request registration k = armIdFor request' registration k := by
      unfold armIdFor
      rw [harms]
    unfold armIdsFrom
    rw [hid]
    exact congrArg _ (ih _)

theorem armIds_congr (harms : request.requiredArms = request'.requiredArms) :
    armIds set request = armIds set request' := armIdsFrom_congr harms 0 set.registrations

/-- A plain arm id is put behind `fair:`. -/
theorem fairCursor_plain {armId : IdToken} (h : stripPrefix "fair:" armId = none) :
    fairCursor armId = "fair:" ++ armId := by
  rw [fairCursor, h, Option.isSome_none, if_neg Bool.false_ne_true]

/-- **A written cursor matches the arm it was written for, and no other.** -/
theorem cursorMatches_fairCursor (hnamed : Named set request) {armId armId' : IdToken}
    {registration : Registration} (harm : armId ∈ armIds set request)
    (harm' : armId' ∈ armIds set request) (hregistration : registration ∈ set.registrations) :
    cursorMatches (fairCursor armId) armId' registration = true ↔ armId = armId' := by
  have hread : ∀ text, fairCursor armId = text → stripPrefix "fair:" text = some armId := by
    rintro text rfl
    rw [fairCursor_plain (hnamed.armPlain armId harm), stripPrefix_append]
  unfold cursorMatches
  simp only [Bool.or_eq_true, beq_iff_eq]
  constructor
  · rintro (((hcursor | hcursor) | hcursor) | hcursor)
    · have hstrip := hread _ hcursor
      rw [hnamed.armPlain armId' harm'] at hstrip
      cases hstrip
    · have hstrip := hread _ hcursor
      rw [stripPrefix_append] at hstrip
      exact (Option.some.inj hstrip).symm
    · have hstrip := hread _ hcursor
      rw [hnamed.idPlain registration hregistration] at hstrip
      cases hstrip
    · have hstrip := hread _ hcursor
      rw [stripPrefix_append] at hstrip
      exact absurd (Option.some.inj hstrip).symm (hnamed.apart armId harm registration hregistration)
  · rintro rfl
    exact Or.inl (Or.inl (Or.inr (fairCursor_plain (hnamed.armPlain armId harm))))

/-- **A cursor read back**: the start is the place it was written for. -/
theorem fairnessStartIndex_fairCursor (hnamed : Named set request) {i : Nat} {armId : IdToken}
    (hi : (armIds set request)[i]? = some armId) (hcursor : request.fairnessCursor = fairCursor armId) :
    fairnessStartIndex set request = i := by
  obtain ⟨hlt, hget⟩ := List.getElem?_eq_some_iff.mp hi
  have hmem : armId ∈ armIds set request := List.mem_of_getElem? hi
  have hlength : i < set.registrations.length := by rwa [length_armIds] at hlt
  have hstart : ¬ (request.fairnessCursor == "fair:start") = true := by
    rw [hcursor, fairCursor_plain (hnamed.armPlain armId hmem), beq_iff_eq]
    intro heq
    refine hnamed.start ?_
    rwa [← append_left_cancel "fair:" armId "start" heq]
  have hzip : i < ((armIds set request).zip set.registrations).length := by
    rw [List.length_zip]
    omega
  have hfind : ((armIds set request).zip set.registrations).findIdx?
      (fun p => cursorMatches request.fairnessCursor p.1 p.2) = some i := by
    refine List.findIdx?_eq_some_iff_getElem.mpr ⟨hzip, ?_, fun j hj => ?_⟩
    · rw [List.getElem_zip, hcursor]
      refine (cursorMatches_fairCursor hnamed hmem (List.getElem_mem hlt)
        (List.getElem_mem hlength)).mpr hget.symm
    · have hj' : j < (armIds set request).length := by omega
      rw [List.getElem_zip, hcursor]
      intro hmatches
      have hsame := (cursorMatches_fairCursor hnamed hmem (List.getElem_mem hj')
        (List.getElem_mem (by omega))).mp hmatches
      -- two places of one arm id are one place
      have hplace : j = i :=
        (List.Nodup.getElem_inj_iff hnamed.distinct).mp (hsame.symm.trans hget.symm)
      omega
  rw [fairnessStartIndex, if_neg hstart, hfind]
  rfl

/-! ## Chains -/

/-- What a built outcome proposes. -/
theorem build_nextFairnessCursor {now : Timestamp} {resolved : List ResolvedStart} {visits : Visits}
    {kind : OutcomeKind} {reason : Option String} {outcome : PollCycleOutcome}
    (h : build set request now resolved visits kind reason = .ok outcome) :
    outcome.nextFairnessCursor = nextFairnessCursor set request := by
  unfold build at h
  dsimp only at h
  split at h
  · cases h
  · obtain rfl := Except.ok.inj h
    rfl

/-- Posture proposes nothing else. -/
theorem applyPosture_nextFairnessCursor (outcome : PollCycleOutcome) :
    (applyPosture set request outcome).nextFairnessCursor = outcome.nextFairnessCursor := by
  unfold applyPosture
  split
  · rfl
  · split
    · rfl
    · split <;> rfl

theorem assemble_nextFairnessCursor {now : Timestamp} {resolved : List ResolvedStart}
    {visits : Visits} {outcome : PollCycleOutcome}
    (h : assemble set request now resolved visits = .ok outcome) :
    outcome.nextFairnessCursor = nextFairnessCursor set request := by
  obtain ⟨built, hbuild, rfl⟩ := assemble_eq_ok h
  rw [applyPosture_nextFairnessCursor]
  exact build_nextFairnessCursor hbuild

theorem finish_nextFairnessCursor {now : Timestamp} {resolved : List ResolvedStart}
    {visits : Visits} {reason : Option String} {outcome : PollCycleOutcome}
    (h : finish set request now resolved visits reason = .ok outcome) :
    outcome.nextFairnessCursor = nextFairnessCursor set request := by
  cases reason with
  | none => exact assemble_nextFairnessCursor h
  | some reason =>
    unfold finish at h
    dsimp only at h
    cases hbuild : build set request now resolved visits
        (if reason == "consumer_cancelled" then .cancelled else .failed) (some reason) with
    | error err =>
      rw [hbuild] at h
      cases h
    | ok built =>
      rw [hbuild] at h
      obtain rfl := Except.ok.inj h
      rw [applyPosture_nextFairnessCursor]
      exact build_nextFairnessCursor hbuild

/-- **Every returned outcome** proposes the cursor of the request's next start. -/
theorem outcome_nextFairnessCursor {outcome : PollCycleOutcome} {decision : Decision}
    {visits : Visits} (h : decision.outcome set request visits = .ok outcome) :
    outcome.nextFairnessCursor = nextFairnessCursor set request := by
  cases decision with
  | cancelled now starts =>
    have hfinish : finish set request now starts visits (some "consumer_cancelled") = .ok outcome := h
    exact finish_nextFairnessCursor hfinish
  | deadline now starts =>
    have hdeadline : decideAtDeadline set request now starts visits = .ok outcome := h
    unfold decideAtDeadline at hdeadline
    split at hdeadline
    · exact finish_nextFairnessCursor hdeadline
    · exact assemble_nextFairnessCursor hdeadline
  | complete now starts => exact assemble_nextFairnessCursor h
  | fault err => cases h

/-- **A chain of poll cycles** of one set with one list of required arms: the first starts at the
start, each later one cites the cursor that the outcome before it proposed. What happens to the world
in between is arbitrary. -/
inductive Chain (env : Env σ β φ ψ) (set : RegistrationSet) (requiredArms : List IdToken) :
    List PollCycleRequest → IdToken → Prop
  | nil : Chain env set requiredArms [] "fair:start"
  | snoc {requests : List PollCycleRequest} {cursor : IdToken} {request : PollCycleRequest}
      {fuel : Nat} {w w' : World σ β} {outcome : PollCycleOutcome}
      (hchain : Chain env set requiredArms requests cursor) (hcites : request.fairnessCursor = cursor)
      (harms : request.requiredArms = requiredArms)
      (hrun : (runPollCycle env set request fuel).run w = some (.ok outcome, w')) :
      Chain env set requiredArms (requests ++ [request]) outcome.nextFairnessCursor

/-- The cursor after `k` cycles names place `k`, counted round. -/
def NamesPlace (set : RegistrationSet) (requiredArms : List IdToken) (cursor : IdToken) (k : Nat) :
    Prop :=
  (k = 0 ∧ cursor = "fair:start") ∨
    ∀ request : PollCycleRequest, request.requiredArms = requiredArms →
      ∃ armId, (armIds set request)[k % set.registrations.length]? = some armId ∧
        cursor = fairCursor armId

/-- A request that cites the cursor of place `k` starts there. -/
theorem NamesPlace.start {requiredArms : List IdToken} {cursor : IdToken} {k : Nat}
    (h : NamesPlace set requiredArms cursor k) (hnamed : Named set request)
    (harms : request.requiredArms = requiredArms) (hcites : request.fairnessCursor = cursor) :
    fairnessStartIndex set request = k % set.registrations.length := by
  rcases h with ⟨rfl, rfl⟩ | h
  · rw [fairnessStartIndex, hcites, if_pos (beq_self_eq_true _), Nat.zero_mod]
  · obtain ⟨armId, hget, rfl⟩ := h request harms
    exact fairnessStartIndex_fairCursor hnamed hget hcites

/-- A cycle that starts at place `k` proposes the place behind it. -/
theorem namesPlace_next {requiredArms : List IdToken} {k : Nat} (hset : set.registrations ≠ [])
    (harms : request.requiredArms = requiredArms)
    (hstart : fairnessStartIndex set request = k % set.registrations.length) :
    NamesPlace set requiredArms (nextFairnessCursor set request) (k + 1) := by
  refine Or.inr fun request' harms' => ?_
  have hpos : 0 < set.registrations.length := List.length_pos_iff.mpr hset
  have hlt : (k + 1) % set.registrations.length < (armIds set request').length := by
    rw [length_armIds]
    exact Nat.mod_lt _ hpos
  refine ⟨(armIds set request')[(k + 1) % set.registrations.length], List.getElem?_eq_getElem hlt, ?_⟩
  have hsame : armIds set request = armIds set request' := armIds_congr (harms.trans harms'.symm)
  rw [nextFairnessCursor, if_neg (by simpa using hset), hstart, hsame]
  dsimp only
  rw [Nat.mod_add_mod, List.getElem?_eq_getElem hlt]
  rfl

/-- **One more cycle** of a chain names the next place. -/
theorem Chain.namesPlace {requiredArms : List IdToken} {requests : List PollCycleRequest}
    {cursor : IdToken} (h : Chain env set requiredArms requests cursor)
    (hset : set.registrations ≠ []) (hnamed : ∀ request ∈ requests, Named set request) :
    NamesPlace set requiredArms cursor requests.length ∧
      ∀ k request, requests[k]? = some request →
        fairnessStartIndex set request = k % set.registrations.length := by
  induction h with
  | nil => exact ⟨Or.inl ⟨rfl, rfl⟩, fun k request hk => by cases hk⟩
  | @snoc requests cursor request fuel w w' outcome hchain hcites harms hrun ih =>
    obtain ⟨hnames, hstarts⟩ := ih fun request hmem => hnamed request (List.mem_append_left _ hmem)
    have hstart := hnames.start
      (hnamed request (List.mem_append_right _ List.mem_cons_self)) harms hcites
    obtain ⟨cycle, decision, w₁, -, houtcome⟩ := runPollCycle_decision hrun
    refine ⟨?_, fun k request' hk => ?_⟩
    · rw [outcome_nextFairnessCursor houtcome, List.length_append, List.length_singleton]
      exact namesPlace_next hset harms hstart
    · rcases Nat.lt_trichotomy k requests.length with hlt | rfl | hgt
      · rw [List.getElem?_append_left hlt] at hk
        exact hstarts k request' hk
      · rw [List.getElem?_concat_length] at hk
        rwa [← Option.some.inj hk]
      · rw [List.getElem?_eq_none (by rw [List.length_append, List.length_singleton]; omega)] at hk
        cases hk

/-- Counting round from anywhere meets every place once. -/
theorem map_mod_perm (m n : Nat) : ((List.range n).map fun j => (m + j) % n).Perm (List.range n) := by
  have hrotate : ((List.range n).map fun j => (m + j) % n) = (List.range n).rotate m := by
    refine List.ext_getElem (by simp) fun i h₁ h₂ => ?_
    simp [List.getElem_rotate, Nat.add_comm]
  rw [hrotate]
  exact List.rotate_perm _ _

/-- Cycle `k` of a chain starts at place `k`, counted round, and visits in that order. -/
theorem Chain.order {requiredArms : List IdToken} {requests : List PollCycleRequest}
    {cursor : IdToken} (h : Chain env set requiredArms requests cursor)
    (hset : set.registrations ≠ []) (hnamed : ∀ request ∈ requests, Named set request) {k : Nat}
    (hk : requests[k]? = some request) :
    fairnessStartIndex set request = k % set.registrations.length ∧
      fairnessOrder set request = (List.range set.registrations.length).rotate k := by
  have hstart := (h.namesPlace hset hnamed).2 k request hk
  have hrotate := List.rotate_mod (List.range set.registrations.length) k
  rw [List.length_range] at hrotate
  refine ⟨hstart, ?_⟩
  rw [fairnessOrder_eq_rotate, hstart, hrotate]

/-- As many cycles in a row as there are registrations start once at each. -/
theorem Chain.window {requiredArms : List IdToken} {requests : List PollCycleRequest}
    {cursor : IdToken} (h : Chain env set requiredArms requests cursor)
    (hset : set.registrations ≠ []) (hnamed : ∀ request ∈ requests, Named set request) (m : Nat)
    (hm : m + set.registrations.length ≤ requests.length) :
    (((requests.drop m).take set.registrations.length).map (fairnessStartIndex set)).Perm
      (List.range set.registrations.length) := by
  have hwindow : ((requests.drop m).take set.registrations.length).map (fairnessStartIndex set)
      = (List.range set.registrations.length).map fun j => (m + j) % set.registrations.length := by
    refine List.ext_getElem ?_ fun j hj hj' => ?_
    · rw [List.length_map, List.length_take, List.length_drop, List.length_map, List.length_range]
      omega
    · rw [List.length_map, List.length_range] at hj'
      rw [List.getElem_map, List.getElem_map, List.getElem_take, List.getElem_drop,
        List.getElem_range]
      exact (h.order hset hnamed (List.getElem?_eq_getElem (by omega))).1
  rw [hwindow]
  exact map_mod_perm m _

/-- **The visits rotate along a chain.** Cycle `k` visits the registrations in their order, rotated
by `k`; and any `n` cycles in a row start once at each of the `n` registrations. -/
theorem chain_rotates {requiredArms : List IdToken} {requests : List PollCycleRequest}
    {cursor : IdToken} (h : Chain env set requiredArms requests cursor)
    (hset : set.registrations ≠ []) (hnamed : ∀ request ∈ requests, Named set request) :
    (∀ k request, requests[k]? = some request →
      fairnessStartIndex set request = k % set.registrations.length ∧
      fairnessOrder set request = (List.range set.registrations.length).rotate k) ∧
    ∀ m, m + set.registrations.length ≤ requests.length →
      (((requests.drop m).take set.registrations.length).map (fairnessStartIndex set)).Perm
        (List.range set.registrations.length) :=
  ⟨fun _ _ hk => h.order hset hnamed hk, h.window hset hnamed⟩

open Case in
/-- Two cycles over two registrations: the second starts behind the first. -/
theorem chain_rotates_pair : ∃ (requests : List PollCycleRequest) (cursor : IdToken),
    requests.length = 2 ∧
      Chain queueEnv pairSet (pollCycleRequest pairSet).requiredArms requests cursor ∧
      (∀ k request, requests[k]? = some request →
        fairnessStartIndex pairSet request = k % 2 ∧
        fairnessOrder pairSet request = (List.range 2).rotate k) ∧
      ∀ m, m + 2 ≤ requests.length →
        (((requests.drop m).take 2).map (fairnessStartIndex pairSet)).Perm (List.range 2) := by
  let later : PollCycleRequest := { pollCycleRequest pairSet with fairnessCursor := "fair:arm:b" }
  have hfirst : (returned ((runPollCycle queueEnv pairSet (pollCycleRequest pairSet) 10).run
      (QueueHost.world pairWaiting (ts "2026-08-15T16:02:00Z") []))).any
        (fun outcome => outcome.nextFairnessCursor == "fair:arm:b") = true := by
    decide +kernel
  have hlater : (returned ((runPollCycle queueEnv pairSet
      { pollCycleRequest pairSet with fairnessCursor := "fair:arm:b" } 10).run
      (QueueHost.world pairWaiting (ts "2026-08-15T16:02:00Z") []))).any (fun _ => true) = true := by
    decide +kernel
  obtain ⟨outcome, w₁, hrun, hnext⟩ := exists_of_returned hfirst
  obtain ⟨outcome', w₂, hrun', -⟩ := exists_of_returned hlater
  have hcites : later.fairnessCursor = outcome.nextFairnessCursor := (beq_iff_eq.mp hnext).symm
  have hchain : Chain queueEnv pairSet (pollCycleRequest pairSet).requiredArms
      [pollCycleRequest pairSet, later] outcome'.nextFairnessCursor :=
    ((Chain.nil).snoc rfl rfl hrun).snoc hcites rfl hrun'
  refine ⟨_, _, rfl, hchain, chain_rotates hchain (by decide) ?_⟩
  intro request hmem
  rcases List.mem_pair.mp hmem with rfl | rfl <;> decide +kernel

end PollCycle

end Waitprims
