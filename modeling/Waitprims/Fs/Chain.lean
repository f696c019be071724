import Mathlib
import Waitprims.Fs.Bind

/-! # The chain of a filesystem bind

A bind counts the events it mints and keeps the anchor of the last. Signals arrive, calls are made
and events are handed back in any order; the log of a run tells the events that were minted from
those a caller holds.

* **`Chained`** — the counter, the anchor and the minted events agree; each event starts where the
  one before it ended.
* **`Settled`** — what a caller holds, followed by what waits in the bind, is what was minted.
* **`run_chained`**, **`run_settled`** — both hold after every run. -/

namespace Waitprims

namespace Fs

variable {σ : Type}

/-! ## Runs -/

/-- One step of a run: a signal of the backend, a change outside, or a call. -/
inductive Op (σ : Type)
  | signal (signal : BackendSignal)
  | elapse (host : σ)
  | disconnect
  | next
  /-- The suspended `next` is polled again. -/
  | resume
  /-- The suspended `next` is dropped. -/
  | abandon
  | pollReady
  | restore (obs : Observation)
  | release

/-- The events a run minted, and those a caller holds, oldest first. -/
structure Log where
  minted : List WaitEvent
  held : List WaitEvent
  deriving DecidableEq

/-- A bind, what lies outside it, and the log of the run. -/
structure Config (σ : Type) where
  site : Site σ
  log : Log

/-- A call returned: an event is minted where the counter moved, and held in either case. -/
def Log.returned (log : Log) (before after : FsBind) : Option Observation → Log
  | some (.event event) =>
    if after.sequence = before.sequence then ⟨log.minted, log.held ++ [event]⟩
    else ⟨log.minted ++ [event], log.held ++ [event]⟩
  | _ => log

/-- What a call leaves; `none` is a panic. -/
def Config.call (config : Config σ)
    (result : Option (Option Observation × Site σ)) : Option (Option Observation × Config σ) :=
  result.map fun r => (r.1, ⟨r.2, config.log.returned config.site.bind r.2.bind r.1⟩)

/-- Change the bind, without an answer. -/
def Config.setBind (config : Config σ) (bind : FsBind) : Config σ :=
  ⟨⟨bind, config.site.host⟩, config.log⟩

/-- **One step**: what it answers and where it leads. A bind has one `next` under way at most: a second
one beside it, which would look at what is `immediate` before it waits too, is left out and changes
nothing here. -/
def step (env : Env σ) (op : Op σ) (config : Config σ) :
    Option (Option Observation × Config σ) :=
  let bind := config.site.bind
  match op with
  | .signal signal =>
    some (none, if bind.disconnected then config else config.setBind (bind.callback signal))
  | .elapse host => some (none, ⟨⟨bind, host⟩, config.log⟩)
  | .disconnect => some (none, config.setBind { bind with disconnected := true })
  | .next => if bind.waiting then some (none, config) else config.call (FsBind.next env config.site)
  | .resume =>
    if bind.waiting then config.call (FsBind.resume env config.site) else some (none, config)
  | .abandon => some (none, config.setBind { bind with waiting := false })
  | .pollReady => config.call (FsBind.pollReady env config.site)
  | .restore obs =>
    match bind.restoreReady obs with
    | (.ok _, bind) => some (none, ⟨⟨bind, config.site.host⟩, ⟨config.log.minted, config.log.held.dropLast⟩⟩)
    | (.error _, bind) => some (none, config.setBind bind)
  | .release => some (none, config.setBind bind.release)

/-- **A run**, over any sequence of steps. -/
def run (env : Env σ) : List (Op σ) → Config σ → Option (Config σ)
  | [], config => some config
  | op :: ops, config => (step env op config).bind fun r => run env ops r.2

/-- The start of a run: a bind as the observer made it. -/
def start (env : Env σ) (observer : FsObserver) (registration : Registration) (counter : UInt64)
    (host : σ) : Config σ :=
  let made := observer.bind env registration counter host
  ⟨⟨made.1, made.2.2⟩, ⟨[], []⟩⟩

/-! ## What a call does to a bind -/

/-- An answer that is no event. -/
def NoEvent : Option Observation → Prop
  | some (.event _) => False
  | _ => True

/-- A call leaves the chain alone: it may consume signals, an overflow or the terminal. -/
structure Kept (before after : FsBind) : Prop where
  registration : after.registration = before.registration
  resolvedStart : after.resolvedStart = before.resolvedStart
  session : after.session = before.session
  sequence : after.sequence = before.sequence
  currentAnchor : after.currentAnchor = before.currentAnchor
  restored : after.restored = before.restored
  released : after.released = before.released
  terminal : after.terminal = before.terminal ∨ after.terminal = none

namespace Kept

variable {a b c : FsBind}

theorem refl (a : FsBind) : Kept a a := ⟨rfl, rfl, rfl, rfl, rfl, rfl, rfl, Or.inl rfl⟩

theorem trans (h : Kept a b) (h' : Kept b c) : Kept a c where
  registration := h'.registration.trans h.registration
  resolvedStart := h'.resolvedStart.trans h.resolvedStart
  session := h'.session.trans h.session
  sequence := h'.sequence.trans h.sequence
  currentAnchor := h'.currentAnchor.trans h.currentAnchor
  restored := h'.restored.trans h.restored
  released := h'.released.trans h.released
  terminal := by
    rcases h'.terminal with hsame | hnone
    · rw [hsame]
      exact h.terminal
    · exact Or.inr hnone

end Kept

/-- A call minted an event: the counter moved by one, and the anchor with it. -/
structure Minted (before after : FsBind) (event : WaitEvent) : Prop where
  bound : before.sequence.toNat + 1 < 2 ^ 64
  event : ∃ payload now, event = before.mintedEvent (before.sequence + 1) payload now
  registration : after.registration = before.registration
  resolvedStart : after.resolvedStart = before.resolvedStart
  session : after.session = before.session
  sequence : after.sequence = before.sequence + 1
  currentAnchor : after.currentAnchor = anchor before.session (before.sequence + 1)
  restored : after.restored = before.restored
  released : after.released = before.released
  terminal : after.terminal = before.terminal ∨ after.terminal = none

theorem Kept.minted {a b c : FsBind} {event : WaitEvent} (h : Kept a b) (h' : Minted b c event) :
    Minted a c event where
  bound := by
    rw [← h.sequence]
    exact h'.bound
  event := by
    obtain ⟨payload, now, rfl⟩ := h'.event
    refine ⟨payload, now, ?_⟩
    unfold FsBind.mintedEvent
    rw [h.session, h.sequence, h.registration, h.currentAnchor]
  registration := h'.registration.trans h.registration
  resolvedStart := h'.resolvedStart.trans h.resolvedStart
  session := h'.session.trans h.session
  sequence := by rw [h'.sequence, h.sequence]
  currentAnchor := by rw [h'.currentAnchor, h.session, h.sequence]
  restored := h'.restored.trans h.restored
  released := h'.released.trans h.released
  terminal := by
    rcases h'.terminal with hsame | hnone
    · rw [hsame]
      exact h.terminal
    · exact Or.inr hnone

/-- What the processing of signals does: nothing to the chain, or one event more. -/
inductive Processed (before after : FsBind) : Option Observation → Prop
  | quiet {answer : Option Observation} (hanswer : NoEvent answer) (hkept : Kept before after) :
    Processed before after answer
  | minted {event : WaitEvent} (h : Minted before after event) :
    Processed before after (some (.event event))

theorem Kept.processed {a b c : FsBind} {answer : Option Observation} (h : Kept a b)
    (h' : Processed b c answer) : Processed a c answer := by
  cases h' with
  | quiet hanswer hkept => exact .quiet hanswer (h.trans hkept)
  | minted hminted => exact .minted (h.minted hminted)

section processing

variable {env : Env σ} {site site' : Site σ} {answer : Option Observation}

/-- Minting mints. -/
theorem mint_spec {payload : PayloadRef} (h : FsBind.mint env payload site = some (answer, site')) :
    Processed site.bind site'.bind answer := by
  unfold FsBind.mint at h
  by_cases hbound : site.bind.sequence.toNat + 1 < 2 ^ 64
  · rw [if_pos hbound] at h
    obtain ⟨rfl, rfl⟩ := Prod.mk.inj (Option.some.inj h)
    exact .minted ⟨hbound, ⟨_, _, rfl⟩, rfl, rfl, rfl, rfl, rfl, rfl, rfl, Or.inl rfl⟩
  · rw [if_neg hbound] at h
    cases h

/-- A branch that answers no event and keeps the bind. -/
theorem processed_same {host : σ} {answer' : Option Observation}
    (h : (some (answer', Site.mk site.bind host) : Option (Option Observation × Site σ))
      = some (answer, site')) (hanswer : NoEvent answer') : Processed site.bind site'.bind answer := by
  obtain ⟨rfl, rfl⟩ := Prod.mk.inj (Option.some.inj h)
  exact .quiet hanswer (.refl _)

/-- **One backend event**: every path mints an event or leaves the chain alone. -/
theorem processEvent_spec {raw : BackendEvent}
    (h : FsBind.processEvent env raw site = some (answer, site')) :
    Processed site.bind site'.bind answer := by
  unfold FsBind.processEvent at h
  dsimp only at h
  split at h
  · exact processed_same h trivial
  split at h
  · exact processed_same h trivial
  · exact processed_same h trivial
  split at h
  · exact processed_same h trivial
  split at h
  · exact processed_same h trivial
  split at h
  · exact processed_same h trivial
  split at h
  · exact processed_same h trivial
  split at h
  · exact processed_same h trivial
  · have hminted := mint_spec h
    exact hminted

theorem process_spec {signal : BackendSignal}
    (h : FsBind.process env signal site = some (answer, site')) :
    Processed site.bind site'.bind answer := by
  unfold FsBind.process at h
  split at h
  · exact processed_same h trivial
  cases signal with
  | rescan => exact processed_same h trivial
  | failed => exact processed_same h trivial
  | event raw => exact processEvent_spec h

end processing

/-! ## What a call answers -/

/-- A call returned the first of the events that were handed back. -/
structure Replayed (before after : FsBind) (obs : Observation) : Prop where
  queue : before.restored = obs :: after.restored
  notReleased : before.released = false
  registration : after.registration = before.registration
  resolvedStart : after.resolvedStart = before.resolvedStart
  session : after.session = before.session
  sequence : after.sequence = before.sequence
  currentAnchor : after.currentAnchor = before.currentAnchor
  terminal : after.terminal = before.terminal ∨ after.terminal = none

/-- What a suspended call does when it goes on. -/
inductive Called (before after : FsBind) : Option Observation → Prop
  | replayed {obs : Observation} (h : Replayed before after obs) : Called before after (some obs)
  | processed {answer : Option Observation} (h : Processed before after answer) :
    Called before after answer

/-- What a call does that begins: it takes signals only if nothing was handed back. -/
inductive Fresh (before after : FsBind) : Option Observation → Prop
  | released {answer : Option Observation} (hreleased : before.released = true)
    (hanswer : NoEvent answer) (hsame : after = before) : Fresh before after answer
  | replayed {obs : Observation} (h : Replayed before after obs)
    (hwaiting : after.waiting = before.waiting) : Fresh before after (some obs)
  | processed {answer : Option Observation} (hempty : before.restored = [])
    (h : Processed before after answer) : Fresh before after answer

section calls

variable {env : Env σ} {site site' : Site σ} {answer : Option Observation}

theorem Kept.noEvent {a b : FsBind} (h : Kept a b) (hterminal : NoEvent a.terminal) :
    NoEvent b.terminal := by
  rcases h.terminal with hsame | hnone
  · rw [hsame]
    exact hterminal
  · rw [hnone]
    trivial

/-- **`immediate`** replays before it looks at the overflow and the terminal. -/
theorem immediate_spec {bind : FsBind} (hterminal : NoEvent bind.terminal) :
    Fresh bind bind.immediate.2 bind.immediate.1 ∧
      (bind.immediate.1 = none → Kept bind bind.immediate.2 ∧ bind.restored = []) := by
  unfold FsBind.immediate
  by_cases hreleased : bind.released = true
  · rw [if_pos hreleased]
    exact ⟨.released hreleased trivial rfl, by simp⟩
  rw [if_neg hreleased]
  have hreleased : bind.released = false := by simpa using hreleased
  cases hqueue : bind.restored with
  | cons obs rest =>
    exact ⟨.replayed ⟨hqueue, hreleased, rfl, rfl, rfl, rfl, rfl, Or.inl rfl⟩ rfl, by simp⟩
  | nil =>
    dsimp only
    by_cases hoverflow : bind.overflowed = true
    · rw [if_pos hoverflow]
      have hkept : Kept bind { bind with restored := [], overflowed := false } :=
        ⟨rfl, rfl, rfl, rfl, rfl, hqueue.symm, rfl, Or.inl rfl⟩
      exact ⟨.processed hqueue (.quiet trivial hkept), by simp⟩
    · rw [if_neg hoverflow]
      have hkept : Kept bind { bind with restored := [], terminal := none } :=
        ⟨rfl, rfl, rfl, rfl, rfl, hqueue.symm, rfl, Or.inr rfl⟩
      exact ⟨.processed hqueue (.quiet hterminal hkept), fun _ => ⟨hkept, rfl⟩⟩

/-- A replay after quiet processing is a replay. -/
theorem Kept.called {a b c : FsBind} {answer : Option Observation} (h : Kept a b)
    (h' : Called b c answer) : Called a c answer := by
  cases h' with
  | replayed hreplayed =>
    refine .replayed ⟨?_, ?_, ?_, ?_, ?_, ?_, ?_, ?_⟩
    · rw [← h.restored, hreplayed.queue]
    · rw [← h.released, hreplayed.notReleased]
    · rw [hreplayed.registration, h.registration]
    · rw [hreplayed.resolvedStart, h.resolvedStart]
    · rw [hreplayed.session, h.session]
    · rw [hreplayed.sequence, h.sequence]
    · rw [hreplayed.currentAnchor, h.currentAnchor]
    · rcases hreplayed.terminal with hsame | hnone
      · rw [hsame]
        exact h.terminal
      · exact Or.inr hnone
  | processed hprocessed => exact .processed (h.processed hprocessed)

theorem Fresh.called {a b : FsBind} {answer : Option Observation} (h : Fresh a b answer) :
    Called a b answer := by
  cases h with
  | released _ hanswer hsame =>
    subst hsame
    exact .processed (.quiet hanswer (.refl _))
  | replayed hreplayed _ => exact .replayed hreplayed
  | processed _ hprocessed => exact .processed hprocessed

/-- The receiver and the suspension are no part of the chain. -/
theorem kept_receiver (bind : FsBind) (receiver : List BackendSignal) (waiting : Bool) :
    Kept bind { bind with receiver := receiver, waiting := waiting } :=
  ⟨rfl, rfl, rfl, rfl, rfl, rfl, rfl, Or.inl rfl⟩

/-- **The loop of `next`** mints at most one event, or replays one that was handed back while the
call was suspended. -/
theorem recvLoop_spec {signals : List BackendSignal} (hterminal : NoEvent site.bind.terminal)
    (h : FsBind.recvLoop env signals site = some (answer, site')) :
    Called site.bind site'.bind answer := by
  induction signals generalizing site with
  | nil =>
    unfold FsBind.recvLoop at h
    split at h
    · obtain ⟨rfl, rfl⟩ := Prod.mk.inj (Option.some.inj h)
      exact .processed (.quiet trivial (kept_receiver site.bind site.bind.receiver false))
    · obtain ⟨rfl, rfl⟩ := Prod.mk.inj (Option.some.inj h)
      exact .processed (.quiet trivial (kept_receiver site.bind site.bind.receiver true))
  | cons signal rest ih =>
    have hkept := kept_receiver site.bind rest false
    unfold FsBind.recvLoop at h
    split at h
    · cases h
    · next obs site₁ hprocess =>
      obtain ⟨rfl, rfl⟩ := Prod.mk.inj (Option.some.inj h)
      exact hkept.called (.processed (process_spec hprocess))
    · next site₁ hprocess =>
      -- A filtered signal: the loop starts over.
      have hkept₁ : Kept site.bind site₁.bind := by
        cases process_spec hprocess with
        | quiet _ hquiet => exact hkept.trans hquiet
      have hterminal₁ := hkept₁.noEvent hterminal
      have hinstant := immediate_spec hterminal₁
      split at h
      · next obs bind himmediate =>
        obtain ⟨rfl, rfl⟩ := Prod.mk.inj (Option.some.inj h)
        rw [himmediate] at hinstant
        exact hkept₁.called hinstant.1.called
      · next bind himmediate =>
        rw [himmediate] at hinstant
        have hkept₂ := (hinstant.2 rfl).1
        exact hkept₁.called (hkept₂.called (ih (hkept₂.noEvent hterminal₁) h))

/-- **The loop of `poll_ready`** mints at most one event. -/
theorem tryRecvLoop_spec {signals : List BackendSignal}
    (h : FsBind.tryRecvLoop env signals site = some (answer, site')) :
    Processed site.bind site'.bind answer := by
  induction signals generalizing site with
  | nil =>
    obtain ⟨rfl, rfl⟩ := Prod.mk.inj (Option.some.inj h)
    exact .quiet trivial (.refl _)
  | cons signal rest ih =>
    have hkept := kept_receiver site.bind rest site.bind.waiting
    unfold FsBind.tryRecvLoop at h
    split at h
    · cases h
    · next obs site₁ hprocess =>
      obtain ⟨rfl, rfl⟩ := Prod.mk.inj (Option.some.inj h)
      exact hkept.processed (process_spec hprocess)
    · next site₁ hprocess =>
      have hkept₁ : Kept site.bind site₁.bind := by
        cases process_spec hprocess with
        | quiet _ hquiet => exact hkept.trans hquiet
      exact hkept₁.processed (ih h)

/-- With nothing to replay, a call processes signals. -/
theorem Called.of_empty {a b : FsBind} {answer : Option Observation} (h : Called a b answer)
    (hempty : a.restored = []) : Processed a b answer := by
  cases h with
  | replayed hreplayed =>
    have hqueue := hreplayed.queue
    rw [hempty] at hqueue
    cases hqueue
  | processed hprocessed => exact hprocessed

/-- **`next`** -/
theorem next_spec (hterminal : NoEvent site.bind.terminal)
    (h : FsBind.next env site = some (answer, site')) : Fresh site.bind site'.bind answer := by
  have hinstant := immediate_spec hterminal
  unfold FsBind.next at h
  split at h
  · next obs bind himmediate =>
    obtain ⟨rfl, rfl⟩ := Prod.mk.inj (Option.some.inj h)
    rw [himmediate] at hinstant
    exact hinstant.1
  · next bind himmediate =>
    rw [himmediate] at hinstant
    obtain ⟨hkept, hempty⟩ := hinstant.2 rfl
    have hcalled := hkept.called (recvLoop_spec (hkept.noEvent hterminal) h)
    exact .processed hempty (hcalled.of_empty hempty)

/-- **`poll_ready`** -/
theorem pollReady_spec (hterminal : NoEvent site.bind.terminal)
    (h : FsBind.pollReady env site = some (answer, site')) : Fresh site.bind site'.bind answer := by
  have hinstant := immediate_spec hterminal
  unfold FsBind.pollReady at h
  split at h
  · next obs bind himmediate =>
    obtain ⟨rfl, rfl⟩ := Prod.mk.inj (Option.some.inj h)
    rw [himmediate] at hinstant
    exact hinstant.1
  · next bind himmediate =>
    rw [himmediate] at hinstant
    obtain ⟨hkept, hempty⟩ := hinstant.2 rfl
    split at h
    · obtain ⟨rfl, rfl⟩ := Prod.mk.inj (Option.some.inj h)
      exact .processed hempty (.quiet trivial hkept)
    · exact .processed hempty (hkept.processed (tryRecvLoop_spec h))

/-- A suspended **`next`** that goes on. -/
theorem resume_spec (hterminal : NoEvent site.bind.terminal)
    (h : FsBind.resume env site = some (answer, site')) : Called site.bind site'.bind answer :=
  recvLoop_spec hterminal h

end calls

/-! ## The chain -/

/-- The event with some number, as a bind mints it. -/
structure IsNth (bind : FsBind) (n : Nat) (event : WaitEvent) : Prop where
  eventId : event.eventId = fsToken "evt:fs" bind.session (UInt64.ofNat (n + 1))
  correlationId : event.correlationId = fsToken "cor:fs" bind.session (UInt64.ofNat (n + 1))
  startAnchor : event.startAnchor = anchor bind.session (UInt64.ofNat n)
  proposedNextAnchor : event.proposedNextAnchor = anchor bind.session (UInt64.ofNat (n + 1))
  registrationId : event.registrationId = bind.registration.registrationId
  sourceInstanceRef : event.sourceInstanceRef = bind.registration.sourceInstanceRef
  methodId : event.methodId = bind.registration.methodId
  subjectKind : event.subjectKind = bind.registration.subjectKind
  subjectId : event.subjectId = bind.registration.subjectId

/-- **The chain invariant**: the counter counts the minted events, the anchor is that of the last,
and each event carries the tokens of its number. -/
structure Chained (origin : Anchor) (bind : FsBind) (minted : List WaitEvent) : Prop where
  count : bind.sequence.toNat = minted.length
  current : bind.currentAnchor = anchor bind.session bind.sequence
  resolved : bind.resolvedStart = origin
  origin : origin = anchor bind.session 0
  nth : ∀ n event, minted[n]? = some event → IsNth bind n event
  terminal : NoEvent bind.terminal

/-- The parts of a bind the chain reads. -/
theorem IsNth.congr {a b : FsBind} {n : Nat} {event : WaitEvent} (h : IsNth a n event)
    (hsession : b.session = a.session) (hregistration : b.registration = a.registration) :
    IsNth b n event := by
  obtain ⟨h1, h2, h3, h4, h5, h6, h7, h8, h9⟩ := h
  rw [← hsession] at h1 h2 h3 h4
  rw [← hregistration] at h5 h6 h7 h8 h9
  exact ⟨h1, h2, h3, h4, h5, h6, h7, h8, h9⟩

section chain

variable {origin : Anchor} {before after : FsBind} {minted : List WaitEvent}
  {answer : Option Observation} {event : WaitEvent} {obs : Observation}

/-- A bind that agrees in what the chain reads. -/
theorem Chained.congr (h : Chained origin before minted) (hregistration : after.registration = before.registration)
    (hstart : after.resolvedStart = before.resolvedStart) (hsession : after.session = before.session)
    (hsequence : after.sequence = before.sequence)
    (hcurrent : after.currentAnchor = before.currentAnchor) (hterminal : NoEvent after.terminal) :
    Chained origin after minted where
  count := by rw [hsequence, h.count]
  current := by rw [hcurrent, hsession, hsequence, h.current]
  resolved := by rw [hstart, h.resolved]
  origin := by
    rw [hsession]
    exact h.origin
  nth := fun n event hn => (h.nth n event hn).congr hsession hregistration
  terminal := hterminal

theorem Kept.chained (hkept : Kept before after) (h : Chained origin before minted) :
    Chained origin after minted :=
  h.congr hkept.registration hkept.resolvedStart hkept.session hkept.sequence hkept.currentAnchor
    (hkept.noEvent h.terminal)

theorem Replayed.chained (hreplayed : Replayed before after obs) (h : Chained origin before minted) :
    Chained origin after minted := by
  refine h.congr hreplayed.registration hreplayed.resolvedStart hreplayed.session
    hreplayed.sequence hreplayed.currentAnchor ?_
  rcases hreplayed.terminal with hsame | hnone
  · rw [hsame]
    exact h.terminal
  · rw [hnone]
    trivial

theorem Minted.toNat (hminted : Minted before after event) :
    (before.sequence + 1).toNat = before.sequence.toNat + 1 := by
  have hbound := hminted.bound
  rw [UInt64.toNat_add]
  show (before.sequence.toNat + 1) % 2 ^ 64 = before.sequence.toNat + 1
  omega

/-- **A minted event** is the next of the chain. -/
theorem Minted.chained (hminted : Minted before after event) (h : Chained origin before minted) :
    Chained origin after (minted ++ [event]) where
  count := by
    rw [hminted.sequence, hminted.toNat, h.count, List.length_append, List.length_singleton]
  current := by rw [hminted.currentAnchor, hminted.session, hminted.sequence]
  resolved := by rw [hminted.resolvedStart, h.resolved]
  origin := by
    rw [hminted.session]
    exact h.origin
  nth := by
    intro n other hn
    have hother : IsNth before n other := by
      by_cases hlt : n < minted.length
      · rw [List.getElem?_append_left hlt] at hn
        exact h.nth n other hn
      · -- The last one is the event that was just minted.
        rw [List.getElem?_append_right (by omega)] at hn
        obtain ⟨hlen, hevent⟩ : n = minted.length ∧ event = other := by
          rw [List.getElem?_singleton] at hn
          split at hn
          · exact ⟨by omega, Option.some.inj hn⟩
          · cases hn
        obtain ⟨payload, now, hmade⟩ := hminted.event
        have hnumber : UInt64.ofNat n = before.sequence := by
          rw [hlen, ← h.count, UInt64.ofNat_toNat]
        have hnext : UInt64.ofNat (n + 1) = before.sequence + 1 := by
          rw [hlen, ← h.count, ← hminted.toNat, UInt64.ofNat_toNat]
        rw [← hevent, hmade]
        refine ⟨?_, ?_, ?_, ?_, rfl, rfl, rfl, rfl, rfl⟩
        · rw [hnext]
          rfl
        · rw [hnext]
          rfl
        · rw [hnumber]
          exact h.current
        · rw [hnext]
          rfl
    exact hother.congr hminted.session hminted.registration
  terminal := by
    rcases hminted.terminal with hsame | hnone
    · rw [hsame]
      exact h.terminal
    · rw [hnone]
      trivial

end chain

/-! ## Runs keep the chain -/

section logs

variable {before after : FsBind} {log : Log} {answer : Option Observation} {event : WaitEvent}

theorem returned_same (h : after.sequence = before.sequence) :
    log.returned before after (some (.event event)) = ⟨log.minted, log.held ++ [event]⟩ := by
  show (if after.sequence = before.sequence then _ else _) = _
  rw [if_pos h]

theorem returned_minted (h : Minted before after event) :
    log.returned before after (some (.event event))
      = ⟨log.minted ++ [event], log.held ++ [event]⟩ := by
  have hmoved : after.sequence ≠ before.sequence := by
    intro hsame
    have hsucc := h.toNat
    rw [← h.sequence, hsame] at hsucc
    omega
  show (if after.sequence = before.sequence then _ else _) = _
  rw [if_neg hmoved]

theorem returned_quiet (h : NoEvent answer) : log.returned before after answer = log := by
  match answer, h with
  | none, _ | some .idle, _ | some .overflow, _ | some (.failed _), _
  | some (.outage _), _ | some (.cursorUncertain _), _ | some (.degraded _), _ => rfl

end logs

/-- An event that was handed back and is the bind's own waits at the head. -/
theorem restoreReady_of_owns {bind : FsBind} {obs : Observation} (h : bind.owns obs = true) :
    bind.restoreReady obs = (.ok (), { bind with restored := obs :: bind.restored }) := by
  rw [FsBind.restoreReady, if_pos h]

/-- Anything else is refused, and the queue stays as it is. -/
theorem restoreReady_of_not_owns {bind : FsBind} {obs : Observation} (h : bind.owns obs = false) :
    bind.restoreReady obs
      = (.error (validationError "/observer/restore_ready" "cross_bind_restore"), bind) := by
  rw [FsBind.restoreReady, if_neg (by simp [h])]

/-- A call with its log. -/
theorem Called.chained {origin : Anchor} {before after : FsBind} {answer : Option Observation} {log : Log}
    (hcalled : Called before after answer) (h : Chained origin before log.minted) :
    Chained origin after (log.returned before after answer).minted := by
  cases hcalled with
  | replayed hreplayed =>
    rename_i obs
    have hminted : (log.returned before after (some obs)).minted = log.minted := by
      cases obs with
      | event event => rw [returned_same hreplayed.sequence]
      | _ => rfl
    rw [hminted]
    exact hreplayed.chained h
  | processed hprocessed =>
    cases hprocessed with
    | quiet hanswer hkept =>
      rw [returned_quiet hanswer]
      exact hkept.chained h
    | minted hminted =>
      rw [returned_minted hminted]
      exact hminted.chained h

section runs

variable {origin : Anchor} {env : Env σ} {config config' : Config σ}
  {answer : Option Observation}

/-- What a call leaves, taken apart. -/
theorem call_eq_some {result : Option (Option Observation × Site σ)}
    (h : config.call result = some (answer, config')) :
    result = some (answer, config'.site) ∧
      config'.log = config.log.returned config.site.bind config'.site.bind answer := by
  obtain ⟨⟨answer', site⟩, rfl, heq⟩ := Option.map_eq_some_iff.mp h
  obtain ⟨rfl, rfl⟩ := Prod.mk.inj heq
  exact ⟨rfl, rfl⟩

/-- **One step** keeps the chain. -/
theorem step_chained {op : Op σ} (h : Chained origin config.site.bind config.log.minted)
    (hstep : step env op config = some (answer, config')) :
    Chained origin config'.site.bind config'.log.minted := by
  have hcall : ∀ {result}, config.call result = some (answer, config') →
      (∀ {answer site}, result = some (answer, site) → Called config.site.bind site.bind answer) →
      Chained origin config'.site.bind config'.log.minted := by
    intro result hresult hcalled
    obtain ⟨hsome, hlog⟩ := call_eq_some hresult
    rw [hlog]
    exact (hcalled hsome).chained h
  cases op with
  | signal signal =>
    obtain ⟨rfl, rfl⟩ := Prod.mk.inj (Option.some.inj hstep)
    by_cases hgone : config.site.bind.disconnected = true
    · rw [if_pos hgone]
      exact h
    · rw [if_neg hgone]
      -- a signal reaches the channel alone, not the chain of the events
      have hkept : Kept config.site.bind (config.site.bind.callback signal) := by
        unfold FsBind.callback
        split
        · exact ⟨rfl, rfl, rfl, rfl, rfl, rfl, rfl, Or.inl rfl⟩
        · exact ⟨rfl, rfl, rfl, rfl, rfl, rfl, rfl, Or.inl rfl⟩
      exact hkept.chained h
  | elapse host =>
    obtain ⟨rfl, rfl⟩ := Prod.mk.inj (Option.some.inj hstep)
    exact h
  | disconnect =>
    obtain ⟨rfl, rfl⟩ := Prod.mk.inj (Option.some.inj hstep)
    exact h.congr rfl rfl rfl rfl rfl h.terminal
  | next =>
    unfold step at hstep
    dsimp only at hstep
    split at hstep
    · obtain ⟨rfl, rfl⟩ := Prod.mk.inj (Option.some.inj hstep)
      exact h
    · exact hcall hstep fun hnext => (next_spec h.terminal hnext).called
  | resume =>
    unfold step at hstep
    dsimp only at hstep
    split at hstep
    · exact hcall hstep fun hresume => resume_spec h.terminal hresume
    · obtain ⟨rfl, rfl⟩ := Prod.mk.inj (Option.some.inj hstep)
      exact h
  | abandon =>
    obtain ⟨rfl, rfl⟩ := Prod.mk.inj (Option.some.inj hstep)
    exact h.congr rfl rfl rfl rfl rfl h.terminal
  | pollReady => exact hcall hstep fun hpoll => (pollReady_spec h.terminal hpoll).called
  | restore obs =>
    unfold step at hstep
    cases howns : config.site.bind.owns obs with
    | true =>
      simp only [restoreReady_of_owns howns] at hstep
      obtain ⟨rfl, rfl⟩ := Prod.mk.inj (Option.some.inj hstep)
      exact h.congr rfl rfl rfl rfl rfl h.terminal
    | false =>
      simp only [restoreReady_of_not_owns howns] at hstep
      obtain ⟨rfl, rfl⟩ := Prod.mk.inj (Option.some.inj hstep)
      exact h
  | release =>
    obtain ⟨rfl, rfl⟩ := Prod.mk.inj (Option.some.inj hstep)
    exact h.congr rfl rfl rfl rfl rfl h.terminal

/-- **Every run** keeps the chain. -/
theorem run_chained {ops : List (Op σ)} (h : Chained origin config.site.bind config.log.minted)
    (hrun : run env ops config = some config') : Chained origin config'.site.bind config'.log.minted := by
  induction ops generalizing config with
  | nil =>
    obtain rfl := Option.some.inj hrun
    exact h
  | cons op ops ih =>
    obtain ⟨⟨answer, middle⟩, hstep, hrest⟩ := Option.bind_eq_some_iff.mp hrun
    exact ih (step_chained h hstep) hrest

/-- What a registration is answered instead of a watch is no event. -/
theorem validateRegistration_noEvent {observer : FsObserver} {registration : Registration} {host : σ}
    {terminal : Observation}
    (h : observer.validateRegistration env host registration = .error terminal) :
    NoEvent (some terminal) := by
  unfold FsObserver.validateRegistration at h
  split at h
  · obtain rfl := Except.error.inj h
    trivial
  split at h
  · obtain rfl := Except.error.inj h
    trivial
  split at h
  · obtain rfl := Except.error.inj h
    trivial
  split at h
  · obtain rfl := Except.error.inj h
    trivial
  split at h
  · obtain rfl := Except.error.inj h
    trivial
  · cases h

/-- **A fresh bind** has minted nothing. -/
theorem start_chained (env : Env σ) (observer : FsObserver) (registration : Registration)
    (counter : UInt64) (host : σ) :
    let bind := (start env observer registration counter host).site.bind
    Chained bind.resolvedStart bind [] := by
  have hopened : ∀ target predicate session,
      let bind := FsBind.opened registration observer.root target predicate session
      Chained bind.resolvedStart bind [] := by
    intro target predicate session
    exact ⟨rfl, rfl, rfl, rfl, by simp, trivial⟩
  have hinert : ∀ session terminal, NoEvent (some terminal) →
      let bind := FsBind.inert registration observer.root session terminal
      Chained bind.resolvedStart bind [] := by
    intro session terminal hterminal
    exact ⟨rfl, rfl, rfl, rfl, by simp, hterminal⟩
  unfold start FsObserver.bind
  cases hvalid : observer.validateRegistration env host registration with
  | error terminal => exact hinert counter terminal (validateRegistration_noEvent hvalid)
  | ok resolved =>
    dsimp only
    split
    · exact hopened _ _ _
    · exact hinert _ _ trivial

end runs

end Fs

end Waitprims
