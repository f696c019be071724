import Mathlib
import Waitprims.Fs.Chain

/-! # Ownership and replay

What a caller of a bind relies on: the events form one chain, each can be handed back to its bind
and to no other, and what was handed back comes first.

* **`owns_nth`**, **`restoreReady_foreign`** — ownership is read back from the tokens.
* **`Settled`** — under newest-first restores, what a caller holds and what waits in the bind make
  up what was minted.
* **`run_chain`** — the whole, over every run. A `next` that was suspended before an event was handed
  back may return a new one first: `suspended_next_overtakes`. -/

namespace Waitprims

namespace Fs

variable {σ : Type}

/-! ## Ownership -/

/-- **A bind owns what it minted.** -/
theorem owns_nth {bind : FsBind} {n : Nat} {event : WaitEvent} (h : IsNth bind n event)
    (hbound : n + 1 < 2 ^ 64) : bind.owns (.event event) = true := by
  have hpos : UInt64.ofNat (n + 1) ≠ 0 := by
    intro hzero
    have hnat := congrArg UInt64.toNat hzero
    rw [UInt64.toNat_ofNat_of_lt' hbound] at hnat
    simp at hnat
  have hprev : UInt64.ofNat (n + 1) - 1 = UInt64.ofNat n := by
    rw [UInt64.ofNat_add]
    simp
  have htoken : ∀ space, fsTokenSequence (fsToken space bind.session (UInt64.ofNat (n + 1))) space
      bind.session = some (UInt64.ofNat (n + 1)) := by
    intro space
    rw [fsTokenSequence_fsToken, if_pos rfl]
  have hstart : fsTokenSequence event.startAnchor.value "anc:fs" bind.session
      = some (UInt64.ofNat n) := by
    rw [h.startAnchor]
    show fsTokenSequence (fsToken "anc:fs" bind.session (UInt64.ofNat n)) "anc:fs" bind.session = _
    rw [fsTokenSequence_fsToken, if_pos rfl]
  have hnext : fsTokenSequence event.proposedNextAnchor.value "anc:fs" bind.session
      = some (UInt64.ofNat (n + 1)) := by
    rw [h.proposedNextAnchor]
    exact htoken "anc:fs"
  have hkind : ∀ kind : AnchorKind, (kind == .providerOpaque) = true := by
    intro kind
    cases kind
    rfl
  unfold FsBind.owns
  dsimp only
  rw [h.eventId, htoken "evt:fs"]
  dsimp only
  rw [h.correlationId, htoken "cor:fs", hstart, hnext, if_neg hpos, hprev, h.registrationId,
    h.sourceInstanceRef, h.methodId, h.subjectKind, h.subjectId, hkind]
  simp

/-- **Another session owns nothing of it.** -/
theorem owns_foreign {bind other : FsBind} {n : Nat} {event : WaitEvent} (h : IsNth bind n event)
    (hsession : other.session ≠ bind.session) : other.owns (.event event) = false := by
  unfold FsBind.owns
  dsimp only
  rw [h.eventId, fsTokenSequence_fsToken, if_neg (Ne.symm hsession)]

/-! ## One unbroken chain -/

/-- **Each event starts where the one before it ended.** -/
def Unbroken (start : Anchor) : List WaitEvent → Prop
  | [] => True
  | event :: rest => event.startAnchor = start ∧ Unbroken event.proposedNextAnchor rest

theorem unbroken_of_nth {bind : FsBind} {minted : List WaitEvent} (n : Nat)
    (h : ∀ k event, minted[k]? = some event → IsNth bind (n + k) event) :
    Unbroken (anchor bind.session (UInt64.ofNat n)) minted := by
  induction minted generalizing n with
  | nil => trivial
  | cons event rest ih =>
    have hfirst : IsNth bind n event := h 0 event rfl
    refine ⟨hfirst.startAnchor, ?_⟩
    rw [hfirst.proposedNextAnchor]
    apply ih (n + 1)
    intro k other hk
    have hother := h (k + 1) other hk
    rwa [← Nat.add_assoc, Nat.add_right_comm] at hother

section chained

variable {origin : Anchor} {bind : FsBind} {minted : List WaitEvent}

theorem Chained.unbroken (h : Chained origin bind minted) : Unbroken origin minted := by
  have hzero : anchor bind.session (UInt64.ofNat 0) = origin := h.origin.symm
  rw [← hzero]
  apply unbroken_of_nth 0
  intro k event hk
  rw [Nat.zero_add]
  exact h.nth k event hk

/-- The event ids count from one. -/
theorem Chained.eventIds (h : Chained origin bind minted) :
    minted.map (fun event => event.eventId) =
      (List.range minted.length).map fun n =>
        fsToken "evt:fs" bind.session (UInt64.ofNat (n + 1)) := by
  apply List.ext_getElem?
  intro n
  rw [List.getElem?_map, List.getElem?_map]
  cases hevent : minted[n]? with
  | none =>
    have hlen : minted.length ≤ n := List.getElem?_eq_none_iff.mp hevent
    rw [List.getElem?_eq_none (by simpa using hlen)]
    rfl
  | some event =>
    have hlt : n < minted.length := (List.getElem?_eq_some_iff.mp hevent).1
    rw [List.getElem?_range hlt, Option.map_some, Option.map_some, (h.nth n event hevent).eventId]

theorem Chained.length_lt (h : Chained origin bind minted) : minted.length < 2 ^ 64 := by
  rw [← h.count]
  exact bind.sequence.toNat_lt

/-- A minted event has a number. -/
theorem Chained.exists_nth (h : Chained origin bind minted) {event : WaitEvent} (hmem : event ∈ minted) :
    ∃ n, n + 1 < 2 ^ 64 ∧ IsNth bind n event := by
  obtain ⟨n, hlt, hget⟩ := List.mem_iff_getElem.mp hmem
  have hbound := h.length_lt
  exact ⟨n, by omega, h.nth n event (by rw [List.getElem?_eq_getElem hlt, hget])⟩

/-- **Its own bind takes a minted event back.** -/
theorem Chained.restoreReady_own (h : Chained origin bind minted) {event : WaitEvent}
    (hmem : event ∈ minted) :
    bind.restoreReady (.event event)
      = (.ok (), { bind with restored := .event event :: bind.restored }) := by
  obtain ⟨n, hbound, hnth⟩ := h.exists_nth hmem
  exact restoreReady_of_owns (owns_nth hnth hbound)

/-- **Another bind refuses it**, and its queue stays as it is. -/
theorem Chained.restoreReady_foreign (h : Chained origin bind minted) {event : WaitEvent}
    (hmem : event ∈ minted) {other : FsBind} (hsession : other.session ≠ bind.session) :
    other.restoreReady (.event event)
      = (.error (validationError "/observer/restore_ready" "cross_bind_restore"), other) := by
  obtain ⟨n, -, hnth⟩ := h.exists_nth hmem
  exact restoreReady_of_not_owns (owns_foreign hnth hsession)

end chained

/-! ## Newest-first restores -/

/-- **A newest-first restore**: the event a caller took last, made while no `next` is suspended; or
an observation the bind refuses. -/
def NewestFirst (config : Config σ) : Op σ → Prop
  | .restore obs =>
    config.site.bind.owns obs = false ∨
      config.site.bind.waiting = false ∧
        config.log.held.getLast?.map Observation.event = some obs
  | _ => True

instance (config : Config σ) (op : Op σ) : Decidable (NewestFirst config op) :=
  match op with
  | .restore _ => inferInstanceAs (Decidable (_ ∨ _ ∧ _))
  | .signal _ | .elapse _ | .disconnect | .next | .resume | .abandon | .pollReady | .release =>
    isTrue trivial

/-- Every restore of a run is a newest-first one. -/
def RestoresNewestFirst (env : Env σ) : List (Op σ) → Config σ → Prop
  | [], _ => True
  | op :: ops, config =>
    NewestFirst config op ∧
      match step env op config with
      | none => True
      | some r => RestoresNewestFirst env ops r.2

instance restoresNewestFirstDecidable (env : Env σ) :
    ∀ ops config, Decidable (RestoresNewestFirst env ops config)
  | [], _ => isTrue trivial
  | op :: ops, config =>
    have : Decidable (match step env op config with
        | none => True
        | some r => RestoresNewestFirst env ops r.2) :=
      match step env op config with
      | none => isTrue trivial
      | some r => restoresNewestFirstDecidable env ops r.2
    inferInstanceAs (Decidable (_ ∧ _))

/-- **The replay invariant**: what a caller holds and what waits in the bind make up what was
minted, in order, and nothing waits while a `next` is suspended. -/
structure Settled (config : Config σ) : Prop where
  queue : config.log.held.map Observation.event ++ config.site.bind.restored
    = config.log.minted.map Observation.event
  idle : config.site.bind.waiting = true → config.site.bind.restored = []

/-- What a call does to the queue, as far as a caller holds it. -/
theorem settled_processed {log : Log} {before after : FsBind} {answer : Option Observation}
    (hprocessed : Processed before after answer) (hempty : before.restored = [])
    (hqueue : log.held.map Observation.event ++ before.restored
      = log.minted.map Observation.event) :
    (log.returned before after answer).held.map Observation.event ++ after.restored
      = (log.returned before after answer).minted.map Observation.event := by
  cases hprocessed with
  | quiet hanswer hkept =>
    rw [returned_quiet hanswer, hkept.restored]
    exact hqueue
  | minted hminted =>
    rw [returned_minted hminted, hminted.restored, hempty, List.append_nil, List.map_append,
      List.map_append, ← hqueue, hempty, List.append_nil]

theorem Processed.restored {before after : FsBind} {answer : Option Observation}
    (h : Processed before after answer) : after.restored = before.restored := by
  cases h with
  | quiet _ hkept => exact hkept.restored
  | minted hminted => exact hminted.restored

/-- The head of the queue is an event a caller held. -/
theorem exists_event_of_mem {log : Log} {bind : FsBind} {obs : Observation}
    (hqueue : log.held.map Observation.event ++ bind.restored = log.minted.map Observation.event)
    (hmem : obs ∈ bind.restored) : ∃ event, obs = .event event := by
  have hall : obs ∈ log.minted.map Observation.event := by
    rw [← hqueue]
    exact List.mem_append_right _ hmem
  obtain ⟨event, -, rfl⟩ := List.mem_map.mp hall
  exact ⟨event, rfl⟩

section settled

variable {origin : Anchor} {env : Env σ} {config config' : Config σ}
  {answer : Option Observation}

/-- **A call that begins** keeps what a caller holds and what waits. -/
theorem settled_fresh {site : Site σ} (h : Settled config)
    (hfresh : Fresh config.site.bind site.bind answer) :
    Settled (Config.mk site (config.log.returned config.site.bind site.bind answer)) := by
  cases hfresh with
  | released _ hanswer hsame =>
    rw [returned_quiet hanswer]
    constructor
    · show _ ++ site.bind.restored = _
      rw [hsame]
      exact h.queue
    · intro hw
      show site.bind.restored = []
      have hw' : site.bind.waiting = true := hw
      rw [hsame] at hw' ⊢
      exact h.idle hw'
  | replayed hreplayed hsame =>
    rename_i obs
    have hmem : obs ∈ config.site.bind.restored := by
      rw [hreplayed.queue]
      exact List.mem_cons_self
    obtain ⟨event, rfl⟩ := exists_event_of_mem h.queue hmem
    rw [returned_same hreplayed.sequence]
    constructor
    · show (config.log.held ++ [event]).map Observation.event ++ site.bind.restored = _
      rw [List.map_append, List.append_assoc]
      show _ ++ (.event event :: site.bind.restored) = _
      rw [← hreplayed.queue]
      exact h.queue
    · intro hw
      have hw' : config.site.bind.waiting = true := by
        rw [← hsame]
        exact hw
      rw [h.idle hw'] at hmem
      cases hmem
  | processed hempty hprocessed =>
    constructor
    · exact settled_processed hprocessed hempty h.queue
    · intro _
      show site.bind.restored = []
      rw [hprocessed.restored, hempty]

/-- **One step** of a run with newest-first restores. -/
theorem step_settled {op : Op σ} (hchained : Chained origin config.site.bind config.log.minted)
    (h : Settled config) (hop : NewestFirst config op)
    (hstep : step env op config = some (answer, config')) : Settled config' := by
  have hcall : ∀ {result}, config.call result = some (answer, config') →
      (∀ {answer site}, result = some (answer, site) → Fresh config.site.bind site.bind answer) →
      Settled config' := by
    intro result hresult hfresh
    obtain ⟨hsome, hlog⟩ := call_eq_some hresult
    obtain ⟨site, log⟩ := config'
    obtain rfl : log = config.log.returned config.site.bind site.bind answer := hlog
    exact settled_fresh h (hfresh hsome)
  cases op with
  | signal signal =>
    obtain ⟨rfl, rfl⟩ := Prod.mk.inj (Option.some.inj hstep)
    by_cases hgone : config.site.bind.disconnected = true
    · rw [if_pos hgone]
      exact h
    · -- the callback touches neither the restored events nor the wait
      rw [if_neg hgone]
      have hsame : (config.site.bind.callback signal).restored = config.site.bind.restored ∧
          (config.site.bind.callback signal).waiting = config.site.bind.waiting := by
        unfold FsBind.callback
        split
        · exact ⟨rfl, rfl⟩
        · exact ⟨rfl, rfl⟩
      constructor
      · show _ ++ (config.site.bind.callback signal).restored = _
        rw [hsame.1]
        exact h.queue
      · intro hw
        have hw' : (config.site.bind.callback signal).waiting = true := hw
        show (config.site.bind.callback signal).restored = []
        rw [hsame.1]
        rw [hsame.2] at hw'
        exact h.idle hw'
  | elapse host =>
    obtain ⟨rfl, rfl⟩ := Prod.mk.inj (Option.some.inj hstep)
    exact ⟨h.queue, h.idle⟩
  | disconnect =>
    obtain ⟨rfl, rfl⟩ := Prod.mk.inj (Option.some.inj hstep)
    exact ⟨h.queue, h.idle⟩
  | next =>
    unfold step at hstep
    dsimp only at hstep
    split at hstep
    · obtain ⟨rfl, rfl⟩ := Prod.mk.inj (Option.some.inj hstep)
      exact h
    · exact hcall hstep fun hnext => next_spec hchained.terminal hnext
  | resume =>
    unfold step at hstep
    dsimp only at hstep
    split at hstep
    · -- Nothing was handed back while the call was suspended.
      next hwaiting =>
      have hempty := h.idle hwaiting
      exact hcall hstep fun hresume =>
        .processed hempty ((resume_spec hchained.terminal hresume).of_empty hempty)
    · obtain ⟨rfl, rfl⟩ := Prod.mk.inj (Option.some.inj hstep)
      exact h
  | abandon =>
    obtain ⟨rfl, rfl⟩ := Prod.mk.inj (Option.some.inj hstep)
    exact ⟨h.queue, fun hw => by cases hw⟩
  | pollReady => exact hcall hstep fun hpoll => pollReady_spec hchained.terminal hpoll
  | restore obs =>
    unfold step at hstep
    cases howns : config.site.bind.owns obs with
    | true =>
      simp only [restoreReady_of_owns howns] at hstep
      obtain ⟨rfl, rfl⟩ := Prod.mk.inj (Option.some.inj hstep)
      -- a restore that is accepted takes the newest event off the held ones
      rcases hop with hrefused | ⟨hidle, hnewest⟩
      · rw [howns] at hrefused
        cases hrefused
      · obtain ⟨event, hlast, rfl⟩ := Option.map_eq_some_iff.mp hnewest
        obtain ⟨front, hheld⟩ := List.getLast?_eq_some_iff.mp hlast
        constructor
        · show config.log.held.dropLast.map Observation.event ++
            (.event event :: config.site.bind.restored) = _
          rw [hheld, List.dropLast_concat]
          have hqueue := h.queue
          rw [hheld, List.map_append, List.append_assoc] at hqueue
          exact hqueue
        · intro hw
          have hw' : config.site.bind.waiting = true := hw
          rw [hidle] at hw'
          cases hw'
    | false =>
      simp only [restoreReady_of_not_owns howns] at hstep
      obtain ⟨rfl, rfl⟩ := Prod.mk.inj (Option.some.inj hstep)
      exact h
  | release =>
    obtain ⟨rfl, rfl⟩ := Prod.mk.inj (Option.some.inj hstep)
    exact ⟨h.queue, h.idle⟩

/-- **Every run** with newest-first restores. -/
theorem run_settled {ops : List (Op σ)} (hchained : Chained origin config.site.bind config.log.minted)
    (h : Settled config) (hops : RestoresNewestFirst env ops config)
    (hrun : run env ops config = some config') : Settled config' := by
  induction ops generalizing config with
  | nil =>
    obtain rfl := Option.some.inj hrun
    exact h
  | cons op ops ih =>
    obtain ⟨⟨answer, middle⟩, hstep, hrest⟩ := Option.bind_eq_some_iff.mp hrun
    obtain ⟨hop, hlater⟩ := hops
    rw [hstep] at hlater
    exact ih (step_chained hchained hstep) (step_settled hchained h hop hstep) hlater hrest

/-- A fresh bind has nothing to replay. -/
theorem start_settled (env : Env σ) (observer : FsObserver) (registration : Registration)
    (counter : UInt64) (host : σ) : Settled (start env observer registration counter host) := by
  have hqueue : (start env observer registration counter host).site.bind.restored = [] := by
    unfold start FsObserver.bind
    dsimp only
    split
    · rfl
    · split
      · rfl
      · rfl
  constructor
  · rw [hqueue]
    rfl
  · exact fun _ => hqueue

/-- **A call that begins replays first**: where something waits and the bind is not released, it
returns the head and mints nothing. -/
theorem fresh_replays {bind after : FsBind} {obs : Observation} {rest : List Observation}
    (hfresh : Fresh bind after answer) (hqueue : bind.restored = obs :: rest)
    (hreleased : bind.released = false) :
    answer = some obs ∧ after.restored = rest ∧ after.sequence = bind.sequence := by
  cases hfresh with
  | released hgone _ _ =>
    rw [hreleased] at hgone
    cases hgone
  | replayed hreplayed _ =>
    have hhead := hreplayed.queue
    rw [hqueue] at hhead
    obtain ⟨rfl, rfl⟩ := List.cons.inj hhead
    exact ⟨rfl, rfl, hreplayed.sequence⟩
  | processed hempty _ =>
    rw [hqueue] at hempty
    cases hempty

/-- Without an event there is nothing new in the log. -/
theorem minted_of_noEvent {op : Op σ} (hstep : step env op config = some (answer, config'))
    (hnone : NoEvent answer) : config'.log.minted = config.log.minted := by
  have hcall : ∀ {result}, config.call result = some (answer, config') →
      config'.log.minted = config.log.minted := by
    intro result hresult
    rw [(call_eq_some hresult).2, returned_quiet hnone]
  cases op with
  | next =>
    unfold step at hstep
    dsimp only at hstep
    split at hstep
    · obtain ⟨rfl, rfl⟩ := Prod.mk.inj (Option.some.inj hstep)
      rfl
    · exact hcall hstep
  | resume =>
    unfold step at hstep
    dsimp only at hstep
    split at hstep
    · exact hcall hstep
    · obtain ⟨rfl, rfl⟩ := Prod.mk.inj (Option.some.inj hstep)
      rfl
  | pollReady => exact hcall hstep
  | signal signal =>
    obtain ⟨rfl, rfl⟩ := Prod.mk.inj (Option.some.inj hstep)
    split
    · rfl
    · rfl
  | restore obs =>
    unfold step at hstep
    dsimp only at hstep
    split at hstep
    · obtain ⟨rfl, rfl⟩ := Prod.mk.inj (Option.some.inj hstep)
      rfl
    · obtain ⟨rfl, rfl⟩ := Prod.mk.inj (Option.some.inj hstep)
      rfl
  | _ =>
    obtain ⟨rfl, rfl⟩ := Prod.mk.inj (Option.some.inj hstep)
    rfl

/-- **A step without an event** moves neither the counter nor the anchor's number: a rejected signal
and a filtered one consume nothing. -/
theorem sequence_of_noEvent {op : Op σ} (h : Chained origin config.site.bind config.log.minted)
    (hstep : step env op config = some (answer, config')) (hnone : NoEvent answer) :
    config'.site.bind.sequence = config.site.bind.sequence := by
  have hafter := (step_chained h hstep).count
  rw [minted_of_noEvent hstep hnone, ← h.count] at hafter
  exact UInt64.toNat_inj.mp hafter

end settled

/-! ## The chain of a bind -/

/-- **The chain of a bind**, over every run from the moment it was made: the event ids count from
one, each event starts where the one before it ended, the counter moves for minted events alone, a
call that begins replays first, a minted event is taken back by its own bind and refused by every
other session; and under newest-first restores what a caller holds and what waits make up what was
minted. -/
theorem run_chain (env : Env σ) (observer : FsObserver) (registration : Registration)
    (counter : UInt64) (host : σ) (ops : List (Op σ)) (config : Config σ)
    (hrun : run env ops (start env observer registration counter host) = some config) :
    let bind := config.site.bind
    let minted := config.log.minted
    minted.map (fun event => event.eventId) = (List.range minted.length).map
      (fun n => fsToken "evt:fs" bind.session (UInt64.ofNat (n + 1))) ∧
    bind.sequence.toNat = minted.length ∧
    (∀ op answer config', step env op config = some (answer, config') → NoEvent answer →
      config'.site.bind.sequence = bind.sequence) ∧
    Unbroken (start env observer registration counter host).site.bind.resolvedStart minted ∧
    (∀ obs rest, bind.restored = obs :: rest → bind.released = false →
      ∀ answer site, (FsBind.next env config.site = some (answer, site) ∨
          FsBind.pollReady env config.site = some (answer, site)) →
        answer = some obs ∧ site.bind.restored = rest ∧ site.bind.sequence = bind.sequence) ∧
    (∀ event ∈ minted, bind.restoreReady (.event event)
      = (.ok (), { bind with restored := .event event :: bind.restored })) ∧
    (∀ event ∈ minted, ∀ other : FsBind, other.session ≠ bind.session →
      other.restoreReady (.event event)
        = (.error (validationError "/observer/restore_ready" "cross_bind_restore"), other)) ∧
    (RestoresNewestFirst env ops (start env observer registration counter host) →
      config.log.held.map Observation.event ++ bind.restored = minted.map Observation.event) := by
  have hstart := start_chained env observer registration counter host
  have hchained := run_chained hstart hrun
  refine ⟨hchained.eventIds, hchained.count,
    fun op answer config' hstep hnone => sequence_of_noEvent hchained hstep hnone,
    hchained.unbroken, ?_,
    fun event hmem => hchained.restoreReady_own hmem,
    fun event hmem other hsession => hchained.restoreReady_foreign hmem hsession, ?_⟩
  · rintro obs rest hqueue hreleased answer site (hnext | hpoll)
    · exact fresh_replays (next_spec hchained.terminal hnext) hqueue hreleased
    · exact fresh_replays (pollReady_spec hchained.terminal hpoll) hqueue hreleased
  · intro hops
    have hsettled := start_settled env observer registration counter host
    exact (run_settled hstart hsettled hops hrun).queue

/-! ## Runs of a sterile bind -/

section runs

/-- A filesystem on which nothing changes, and a sink that stores every descriptor. -/
def stillEnv : Env Unit where
  canonicalize _ path := some path
  pathExists _ _ := true
  isDir _ _ := true
  start _ host := (true, host)
  materialize _ host := (.ok ⟨"ref:fs-test", ⟨.sha256, "digest"⟩, none⟩, host)
  now host := (⟨"2026-08-31T20:00:00Z", 1788206400000000000⟩, host)
  hexSha256 _ := "digest"

/-- An observer of a local directory. -/
def localObserver : FsObserver := ⟨"source:fs", ⟨true, ["srv", "inbox"]⟩, .localRoot⟩

/-- A registration for every event below the root. -/
def anyRegistration : Registration where
  registrationId := "reg:fs"
  methodId := "file_watch"
  subjectKind := "path"
  subjectId := "."
  required := true
  sourceInstanceRef := "source:fs"
  predicateRef := "pred:file-any"
  capabilityRef := "capability:fs"
  leaseExpiresAt := ⟨"2026-08-31T21:00:00Z", 1788210000000000000⟩
  bounds := ⟨16, 4096⟩
  startAnchor := none
  baselinePolicy := some .latest
  priority := none

/-- The backend reports a created file. -/
def created (name : String) : Op Unit :=
  .signal (.event ⟨.create, [⟨true, ["srv", "inbox", name]⟩]⟩)

/-- The event of a number, as the sterile bind mints it. -/
def sterileEvent (sequence : UInt64) : WaitEvent :=
  { FsBind.opened anyRegistration localObserver.root Target.inert .any 1 with
      currentAnchor := anchor 1 (sequence - 1) }.mintedEvent sequence
    ⟨"ref:fs-test", ⟨.sha256, "digest"⟩, none⟩ ⟨"2026-08-31T20:00:00Z", 1788206400000000000⟩

/-- Two events are taken, and the newer one is handed back and taken again. -/
def replayRun : List (Op Unit) := [
  created "a", created "b", .next, .pollReady, .restore (.event (sterileEvent 2)), .pollReady]

/-- A `next` is suspended, an event is handed back, and a signal arrives. -/
def suspendedRun : List (Op Unit) := [
  created "a", .next, .next, .restore (.event (sterileEvent 1)), created "b", .resume]

/-- Where the first run ends. -/
def replayEnd : Config Unit :=
  (run stillEnv replayRun (start stillEnv localObserver anyRegistration 1 ())).get
    (by decide +kernel)

theorem run_chain_replayRun :
    Unbroken (start stillEnv localObserver anyRegistration 1 ()).site.bind.resolvedStart
        replayEnd.log.minted ∧
      replayEnd.log.held.map Observation.event ++ replayEnd.site.bind.restored
        = replayEnd.log.minted.map Observation.event := by
  have hrun := run_chain stillEnv localObserver anyRegistration 1 () replayRun replayEnd
    (Option.some_get _).symm
  obtain ⟨-, -, -, hchain, -, -, -, hqueue⟩ := hrun
  exact ⟨hchain, hqueue (by decide +kernel)⟩

/-- **A suspended `next` overtakes**: it returns a new event while an older one waits. -/
theorem suspended_next_overtakes :
    (run stillEnv suspendedRun (start stillEnv localObserver anyRegistration 1 ())).map
        (fun config => (config.log.minted, config.log.held, config.site.bind.restored,
          config.site.bind.released))
      = some ([sterileEvent 1, sterileEvent 2], [sterileEvent 2],
          [.event (sterileEvent 1)], false) := by
  decide +kernel

end runs

end Fs

end Waitprims
