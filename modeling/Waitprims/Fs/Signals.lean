import Mathlib
import Waitprims.Fs.Replay

/-! # What becomes of the signals of the backend

The backend pushes signals into a bounded channel and the calls of a runner take them out. A signal
that does not fit is dropped and remembered as an overflow, and one that comes when no sender is
left is not heard at all; one that fits is taken exactly once, in its order, and is either answered
by the call that took it or ignored because the registration does not watch for it.

* **`Happening`** — what may become of a signal, or what a call answers besides.
* **`fate`** — what becomes of a signal when it is pushed.
* **`Happens`**, **`Tale`** — one happening of a call, with exactly what it changes, and a run of
  them.
* **`Account`** — the happenings of a run, step by step.
* **`Books`** — what happenings say of the channel and of the overflow.
* **`signals_accounted`** — every run has an account, and its books are in order. -/

namespace Waitprims

namespace Fs

variable {σ : Type}

/-! ## Happenings -/

/-- What happens to the signals of a bind. -/
inductive Happening
  /-- A signal went into the channel. -/
  | arrived (signal : BackendSignal)
  /-- A signal did not fit the channel. -/
  | dropped (signal : BackendSignal)
  /-- A signal came when every sender of the channel was gone. -/
  | unheard (signal : BackendSignal)
  /-- A call took a signal and answered it. -/
  | reported (signal : BackendSignal) (obs : Observation)
  /-- A call took a signal and went on without an answer. -/
  | ignored (signal : BackendSignal)
  /-- A call answered something that no signal of the channel stands for. -/
  | told (obs : Observation)
  /-- A call looked at the bind without an answer: it went on, or was suspended. -/
  | moved

/-- **What becomes of a signal** that the backend pushes. -/
def fate (bind : FsBind) (signal : BackendSignal) : Happening :=
  if bind.disconnected then .unheard signal
  else if bind.receiver.length < bind.capacity then .arrived signal
  else .dropped signal

/-- The bind after a signal: the callback runs while a sender is left. -/
def heard (bind : FsBind) (signal : BackendSignal) : FsBind :=
  if bind.disconnected then bind else bind.callback signal

/-- **A signal the bind has nothing to report for**: none of its paths is watched, or it is of a
class that the predicate leaves out. -/
def Ignored (env : Env σ) (host : σ) (bind : FsBind) : BackendSignal → Prop
  | .event raw => ∃ paths, bind.target.stillSafe env host bind.root = true ∧
      normalizePaths env host bind.root bind.target raw.paths = some paths ∧
      (paths = [] ∨ raw.eventClass ≠ .ambiguous ∧ bind.predicate.accepts raw.eventClass = false)
  | _ => False

/-- **One happening of a call**, and the site it leads to: a signal is answered with what `process`
makes of it, any other answer is what `immediate` hands out or the end of the channel. -/
inductive Happens (env : Env σ) : Site σ → Happening → Site σ → Prop
  | reported {a b : Site σ} {signal : BackendSignal} {rest : List BackendSignal} {waiting : Bool}
      {obs : Observation} (hreceiver : a.bind.receiver = signal :: rest)
      (hprocess : FsBind.process env signal ⟨{ a.bind with receiver := rest, waiting }, a.host⟩
        = some (some obs, b)) : Happens env a (.reported signal obs) b
  | ignored {a b : Site σ} {signal : BackendSignal} {rest : List BackendSignal} {waiting : Bool}
      (hreceiver : a.bind.receiver = signal :: rest)
      (hprocess : FsBind.process env signal ⟨{ a.bind with receiver := rest, waiting }, a.host⟩
        = some (none, b)) (hrunning : a.bind.released = false)
      (hignored : Ignored env a.host a.bind signal) : Happens env a (.ignored signal) b
  | told {a : Site σ} {obs : Observation} {bind : FsBind}
      (himmediate : a.bind.immediate = (some obs, bind)) :
      Happens env a (.told obs) ⟨bind, a.host⟩
  | ended {a : Site σ} (hempty : a.bind.receiver = []) (hgone : a.bind.disconnected = true) :
      Happens env a (.told (failed "fs_native_watch_failed"))
        ⟨{ a.bind with waiting := false }, a.host⟩
  | settled {a : Site σ} {bind : FsBind} (himmediate : a.bind.immediate = (none, bind)) :
      Happens env a .moved ⟨bind, a.host⟩
  | suspended {a : Site σ} (hempty : a.bind.receiver = []) (hopen : a.bind.disconnected = false) :
      Happens env a .moved ⟨{ a.bind with waiting := true }, a.host⟩

/-- **The tale of a call**: happenings one after another. -/
inductive Tale (env : Env σ) : Site σ → List Happening → Site σ → Prop
  | nil (a : Site σ) : Tale env a [] a
  | cons {a b c : Site σ} {happening : Happening} {tale : List Happening}
      (hhappens : Happens env a happening b) (htale : Tale env b tale c) :
      Tale env a (happening :: tale) c

/-- The signals that went into the channel. -/
def Happening.arrived? : Happening → Option BackendSignal
  | .arrived signal => some signal
  | _ => none

/-- The signals that were taken out of it. -/
def Happening.taken? : Happening → Option BackendSignal
  | .reported signal _ | .ignored signal => some signal
  | _ => none

/-- The signals the backend pushed. -/
def Happening.pushed? : Happening → Option BackendSignal
  | .arrived signal | .dropped signal | .unheard signal => some signal
  | _ => none

/-- The answers of the calls. -/
def Happening.answer? : Happening → Option Observation
  | .reported _ obs | .told obs => some obs
  | _ => none

/-- The step is a call that takes signals. -/
def Op.isCall : Op σ → Bool
  | .next | .resume | .pollReady => true
  | _ => false

/-- The signal a step pushes. -/
def Op.signal? : Op σ → Option BackendSignal
  | .signal pushed => some pushed
  | _ => none

/-- **The account of a run**, step by step: a signal has its fate, a call its tale, which ends in
its answer, and any other step has no happenings. -/
inductive Account (env : Env σ) : List (Op σ) → Config σ → List Happening → Config σ → Prop
  | nil (config : Config σ) : Account env [] config [] config
  | signal {ops : List (Op σ)} {config last : Config σ} {signal : BackendSignal}
      {tale : List Happening}
      (hrest : Account env ops (config.setBind (heard config.site.bind signal)) tale last) :
      Account env (.signal signal :: ops) config (fate config.site.bind signal :: tale) last
  | call {op : Op σ} {ops : List (Op σ)} {config middle last : Config σ}
      {part tale : List Happening} {answer : Option Observation} (hcall : op.isCall = true)
      (hstep : step env op config = some (answer, middle))
      (hpart : Tale env config.site part middle.site)
      (hanswer : part.filterMap Happening.answer? = answer.toList)
      (hrest : Account env ops middle tale last) :
      Account env (op :: ops) config (part ++ tale) last
  | change {op : Op σ} {ops : List (Op σ)} {config middle last : Config σ} {tale : List Happening}
      (hcall : op.isCall = false) (hsignal : op.signal? = none)
      (hstep : step env op config = some (none, middle))
      (hrest : Account env ops middle tale last) : Account env (op :: ops) config tale last

/-! ## The books of a bind -/

/-- What no call and no signal changes about a bind. -/
structure SameWatch (a b : FsBind) : Prop where
  root : b.root = a.root
  target : b.target = a.target
  predicate : b.predicate = a.predicate
  capacity : b.capacity = a.capacity

theorem SameWatch.refl (a : FsBind) : SameWatch a a := ⟨rfl, rfl, rfl, rfl⟩

theorem SameWatch.trans {a b c : FsBind} (h : SameWatch a b) (h' : SameWatch b c) :
    SameWatch a c where
  root := h'.root.trans h.root
  target := h'.target.trans h.target
  predicate := h'.predicate.trans h.predicate
  capacity := h'.capacity.trans h.capacity

/-- **What happenings say of a bind**: signals are taken in the order in which they went in, the
channel stays within its bound, and an overflow is told or stays set, also that of a signal which is
dropped among them. -/
structure Books (a : FsBind) (tale : List Happening) (b : FsBind) : Prop where
  capacity : b.capacity = a.capacity
  receiver : a.receiver ++ tale.filterMap Happening.arrived?
    = tale.filterMap Happening.taken? ++ b.receiver
  bounded : a.receiver.length ≤ a.capacity → b.receiver.length ≤ b.capacity
  overflowed : a.overflowed = true → .told .overflow ∈ tale ∨ b.overflowed = true
  dropped : ∀ before signal after, tale = before ++ .dropped signal :: after →
    .told .overflow ∈ after ∨ b.overflowed = true

namespace Books

variable {a b c : FsBind} {tale tale' : List Happening} {happening : Happening}

/-- Nothing happens, to the channel and to the overflow. -/
theorem still (hcapacity : b.capacity = a.capacity) (hreceiver : b.receiver = a.receiver)
    (hflag : b.overflowed = a.overflowed) : Books a [] b where
  capacity := hcapacity
  receiver := by simp [hreceiver]
  bounded h := by rwa [hreceiver, hcapacity]
  overflowed h := .inr (hflag.trans h)
  dropped before signal after h := by simp at h

/-- A happening that drops no signal. -/
theorem one (hcapacity : b.capacity = a.capacity)
    (hreceiver : a.receiver ++ happening.arrived?.toList = happening.taken?.toList ++ b.receiver)
    (hbounded : a.receiver.length ≤ a.capacity → b.receiver.length ≤ b.capacity)
    (hflag : a.overflowed = true → happening = .told .overflow ∨ b.overflowed = true)
    (hdropped : ∀ signal, happening = .dropped signal → b.overflowed = true) :
    Books a [happening] b where
  capacity := hcapacity
  receiver := by
    have harrived : [happening].filterMap Happening.arrived? = happening.arrived?.toList := by
      cases happening <;> rfl
    have htaken : [happening].filterMap Happening.taken? = happening.taken?.toList := by
      cases happening <;> rfl
    rw [harrived, htaken]
    exact hreceiver
  bounded := hbounded
  overflowed h := (hflag h).imp_left fun htold => List.mem_singleton.mpr htold.symm
  dropped before signal after h := by
    rcases List.singleton_eq_append_iff.mp h with ⟨-, hlast⟩ | ⟨-, hlast⟩
    · obtain ⟨hhead, -⟩ := List.cons.inj hlast
      exact .inr (hdropped signal hhead.symm)
    · cases hlast

/-- Books one after the other. -/
theorem append (h : Books a tale b) (h' : Books b tale' c) : Books a (tale ++ tale') c where
  capacity := h'.capacity.trans h.capacity
  receiver := by
    rw [List.filterMap_append, List.filterMap_append, ← List.append_assoc, h.receiver,
      List.append_assoc, h'.receiver, List.append_assoc]
  bounded := h'.bounded ∘ h.bounded
  overflowed hset := by
    rcases h.overflowed hset with htold | hset
    · exact .inl (List.mem_append_left _ htold)
    · exact (h'.overflowed hset).imp_left (List.mem_append_right _)
  dropped before signal after heq := by
    rcases List.append_eq_append_iff.mp heq with ⟨middle, rfl, hright⟩ | ⟨middle, rfl, hright⟩
    · -- the signal is dropped in the second part
      exact h'.dropped middle signal after hright
    · cases middle with
      | nil => exact h'.dropped [] signal after hright.symm
      | cons head middle =>
        obtain ⟨rfl, rfl⟩ := List.cons.inj hright
        rcases h.dropped before signal middle rfl with htold | hset
        · exact .inl (List.mem_append_left _ htold)
        · exact (h'.overflowed hset).imp_left (List.mem_append_right _)

end Books

section tales

variable {env : Env σ} {a b c : Site σ} {happening : Happening} {tale tale' : List Happening}

theorem Tale.one (h : Happens env a happening b) : Tale env a [happening] b := .cons h (.nil b)

theorem Tale.append (h : Tale env a tale b) (h' : Tale env b tale' c) :
    Tale env a (tale ++ tale') c := by
  induction h with
  | nil => exact h'
  | cons hhappens _ ih => exact .cons hhappens (ih h')

/-- A call pushes no signal. -/
theorem Tale.pushed (h : Tale env a tale b) : tale.filterMap Happening.pushed? = [] := by
  induction h with
  | nil => rfl
  | cons hhappens _ ih => cases hhappens <;> exact ih

/-- **The fate of a signal** is in the books. -/
theorem fate_books (bind : FsBind) (signal : BackendSignal) :
    Books bind [fate bind signal] (heard bind signal) := by
  unfold fate heard
  by_cases hgone : bind.disconnected = true
  · rw [if_pos hgone, if_pos hgone]
    exact .one rfl (by simp [Happening.arrived?, Happening.taken?]) id .inr (by simp)
  rw [if_neg hgone, if_neg hgone]
  unfold FsBind.callback
  by_cases hroom : bind.receiver.length < bind.capacity
  · rw [if_pos hroom, if_pos hroom]
    refine .one rfl (by simp [Happening.arrived?, Happening.taken?]) (fun _ => ?_) .inr (by simp)
    simpa using hroom
  · rw [if_neg hroom, if_neg hroom]
    exact .one rfl (by simp [Happening.arrived?, Happening.taken?]) id (fun _ => .inr rfl)
      fun _ _ => rfl

end tales

/-! ## The tale of a call -/

/-- A tale whose answers are those of a call. -/
def Tells (env : Env σ) (a : Site σ) (answer : Option Observation) (b : Site σ) : Prop :=
  ∃ tale, Tale env a tale b ∧ tale.filterMap Happening.answer? = answer.toList

section calls

variable {env : Env σ} {a b c : Site σ} {answer : Option Observation} {signal : BackendSignal}

/-- A single happening. -/
theorem Tells.one {happening : Happening} (h : Happens env a happening b) :
    Tells env a happening.answer? b :=
  ⟨[happening], .one h, by cases happening <;> rfl⟩

/-- Nothing happens. -/
theorem Tells.idle (a : Site σ) : Tells env a none a := ⟨[], .nil a, rfl⟩

/-- A silent tale goes before. -/
theorem Tells.after (h : Tells env a none b) (h' : Tells env b answer c) :
    Tells env a answer c := by
  obtain ⟨tale, htale, hanswer⟩ := h
  obtain ⟨tale', htale', hanswer'⟩ := h'
  refine ⟨tale ++ tale', htale.append htale', ?_⟩
  rw [List.filterMap_append, hanswer, hanswer']
  rfl

/-- What processing leaves alone. -/
structure Steady (a b : FsBind) : Prop where
  watch : SameWatch a b
  receiver : b.receiver = a.receiver
  overflowed : b.overflowed = a.overflowed

theorem Steady.refl (a : FsBind) : Steady a a := ⟨.refl a, rfl, rfl⟩

theorem mint_steady {payload : PayloadRef} (h : FsBind.mint env payload a = some (answer, b)) :
    Steady a.bind b.bind ∧ answer ≠ none := by
  unfold FsBind.mint at h
  split at h
  · obtain ⟨rfl, rfl⟩ := Prod.mk.inj (Option.some.inj h)
    exact ⟨⟨⟨rfl, rfl, rfl, rfl⟩, rfl, rfl⟩, by simp⟩
  · cases h

/-- **One backend event** is answered, or ignored with nothing changed. -/
theorem processEvent_steady {raw : BackendEvent}
    (h : FsBind.processEvent env raw a = some (answer, b)) :
    Steady a.bind b.bind ∧ (answer = none → b = a ∧ Ignored env a.host a.bind (.event raw)) := by
  have hanswered : ∀ {host : σ} {obs : Observation},
      (some (some obs, Site.mk a.bind host) : Option (Option Observation × Site σ))
        = some (answer, b) →
      Steady a.bind b.bind ∧ (answer = none → b = a ∧ Ignored env a.host a.bind (.event raw)) := by
    intro host obs hsome
    obtain ⟨rfl, rfl⟩ := Prod.mk.inj (Option.some.inj hsome)
    exact ⟨.refl _, by simp⟩
  unfold FsBind.processEvent at h
  dsimp only at h
  split at h
  · exact hanswered h
  next hsafe =>
  have hsafe : a.bind.target.stillSafe env a.host a.bind.root = true := by simpa using hsafe
  split at h
  · exact hanswered h
  · next hpaths =>
    obtain ⟨rfl, rfl⟩ := Prod.mk.inj (Option.some.inj h)
    exact ⟨.refl _, fun _ => ⟨rfl, [], hsafe, hpaths, Or.inl rfl⟩⟩
  next paths hsome hpaths =>
  split at h
  · exact hanswered h
  next hclass =>
  split at h
  · next hout =>
    obtain ⟨rfl, rfl⟩ := Prod.mk.inj (Option.some.inj h)
    have hout : a.bind.predicate.accepts raw.eventClass = false := by simpa using hout
    refine ⟨.refl _, fun _ => ⟨rfl, paths, hsafe, hpaths, Or.inr ⟨fun hambiguous => ?_, hout⟩⟩⟩
    -- an ambiguous event is out only where the predicate is not `any`, which is answered
    refine hclass ?_
    have hany : a.bind.predicate ≠ .any := by
      intro hany
      rw [hany] at hout
      cases hout
    simp [hambiguous, hany]
  split at h
  · exact hanswered h
  split at h
  · exact hanswered h
  split at h
  · exact hanswered h
  · obtain ⟨hsteady, hsome⟩ := mint_steady h
    exact ⟨hsteady, fun hnone => absurd hnone hsome⟩

/-- **One signal** is answered, or ignored with nothing changed. -/
theorem process_steady (h : FsBind.process env signal a = some (answer, b)) :
    Steady a.bind b.bind ∧ (answer = none →
      b = a ∧ a.bind.released = false ∧ Ignored env a.host a.bind signal) := by
  unfold FsBind.process at h
  split at h
  · obtain ⟨rfl, rfl⟩ := Prod.mk.inj (Option.some.inj h)
    exact ⟨.refl _, by simp⟩
  next hrunning =>
  have hrunning : a.bind.released = false := by simpa using hrunning
  cases signal with
  | rescan =>
    obtain ⟨rfl, rfl⟩ := Prod.mk.inj (Option.some.inj h)
    exact ⟨.refl _, by simp⟩
  | failed =>
    obtain ⟨rfl, rfl⟩ := Prod.mk.inj (Option.some.inj h)
    exact ⟨.refl _, by simp⟩
  | event raw =>
    obtain ⟨hsteady, hignored⟩ := processEvent_steady h
    exact ⟨hsteady, fun hnone => ⟨(hignored hnone).1, hrunning, (hignored hnone).2⟩⟩

/-- Taking the first signal of the channel and processing it. -/
theorem process_tells {rest : List BackendSignal} {waiting : Bool}
    (hreceiver : a.bind.receiver = signal :: rest)
    (h : FsBind.process env signal ⟨{ a.bind with receiver := rest, waiting }, a.host⟩
      = some (answer, b)) :
    Tells env a answer b ∧ b.bind.receiver = rest := by
  obtain ⟨hsteady, hignored⟩ := process_steady h
  refine ⟨?_, hsteady.receiver⟩
  cases answer with
  | some obs => exact .one (.reported hreceiver h)
  | none =>
    obtain ⟨-, hrunning, hignored⟩ := hignored rfl
    exact .one (.ignored hreceiver h hrunning hignored)

/-- **`immediate`** -/
theorem immediate_tells (env : Env σ) (bind : FsBind) (host : σ) :
    Tells env ⟨bind, host⟩ bind.immediate.1 ⟨bind.immediate.2, host⟩ := by
  cases himmediate : bind.immediate with
  | mk answer after =>
    cases answer with
    | some obs => exact .one (.told himmediate)
    | none => exact .one (.settled himmediate)

/-- `immediate` leaves the channel, and clears the overflow only where it tells it. -/
theorem immediate_steady (bind : FsBind) :
    SameWatch bind bind.immediate.2 ∧ bind.immediate.2.receiver = bind.receiver ∧
      (bind.overflowed = true →
        bind.immediate.1 = some .overflow ∨ bind.immediate.2.overflowed = true) := by
  unfold FsBind.immediate
  split
  · exact ⟨.refl _, rfl, .inr⟩
  split
  · exact ⟨⟨rfl, rfl, rfl, rfl⟩, rfl, .inr⟩
  split
  · exact ⟨⟨rfl, rfl, rfl, rfl⟩, rfl, fun _ => .inl rfl⟩
  · exact ⟨⟨rfl, rfl, rfl, rfl⟩, rfl, .inr⟩

/-- **Every happening of a call** is in the books. -/
theorem Happens.books {happening : Happening} (h : Happens env a happening b) :
    Books a.bind [happening] b.bind := by
  cases h with
  | reported hreceiver hprocess =>
    obtain ⟨hsteady, -⟩ := process_steady hprocess
    refine .one hsteady.watch.capacity ?_ (fun hbound => ?_)
      (fun hset => .inr (hsteady.overflowed.trans hset)) (by simp)
    · rw [hreceiver, hsteady.receiver]
      simp [Happening.arrived?, Happening.taken?]
    · rw [hsteady.receiver, hsteady.watch.capacity]
      rw [hreceiver] at hbound
      exact Nat.le_of_succ_le hbound
  | ignored hreceiver hprocess hrunning hignored =>
    obtain ⟨hsteady, -⟩ := process_steady hprocess
    refine .one hsteady.watch.capacity ?_ (fun hbound => ?_)
      (fun hset => .inr (hsteady.overflowed.trans hset)) (by simp)
    · rw [hreceiver, hsteady.receiver]
      simp [Happening.arrived?, Happening.taken?]
    · rw [hsteady.receiver, hsteady.watch.capacity]
      rw [hreceiver] at hbound
      exact Nat.le_of_succ_le hbound
  | @told obs bind himmediate =>
    obtain ⟨hwatch, hreceiver, hflag⟩ := immediate_steady a.bind
    rw [himmediate] at hwatch hreceiver hflag
    refine .one hwatch.capacity (by simp [Happening.arrived?, Happening.taken?, hreceiver.symm])
      (fun hbound => ?_) (fun hset => ?_) (by simp)
    · rwa [hreceiver, hwatch.capacity]
    · exact (hflag hset).imp_left fun hsome => by rw [Option.some.inj hsome]
  | ended hempty hgone =>
    exact .one rfl (by simp [Happening.arrived?, Happening.taken?]) id .inr (by simp)
  | settled himmediate =>
    obtain ⟨hwatch, hreceiver, hflag⟩ := immediate_steady a.bind
    rw [himmediate] at hwatch hreceiver hflag
    refine .one hwatch.capacity (by simp [Happening.arrived?, Happening.taken?, hreceiver.symm])
      (fun hbound => ?_) (fun hset => .inr ((hflag hset).resolve_left (by simp))) (by simp)
    rwa [hreceiver, hwatch.capacity]
  | suspended hempty hopen =>
    exact .one rfl (by simp [Happening.arrived?, Happening.taken?]) id .inr (by simp)

/-- **The tale of a call** is in the books. -/
theorem Tale.books {tale : List Happening} (h : Tale env a tale b) : Books a.bind tale b.bind := by
  induction h with
  | nil a => exact .still rfl rfl rfl
  | cons hhappens _ ih => exact hhappens.books.append ih

/-- **The loop of `next`**, over the signals of the channel. -/
theorem recvLoop_tells {signals : List BackendSignal} (hreceiver : a.bind.receiver = signals)
    (h : FsBind.recvLoop env signals a = some (answer, b)) : Tells env a answer b := by
  induction signals generalizing a with
  | nil =>
    unfold FsBind.recvLoop at h
    split at h
    · next hgone =>
      obtain ⟨rfl, rfl⟩ := Prod.mk.inj (Option.some.inj h)
      exact .one (.ended hreceiver hgone)
    · next hopen =>
      obtain ⟨rfl, rfl⟩ := Prod.mk.inj (Option.some.inj h)
      exact .one (.suspended hreceiver (Bool.eq_false_of_not_eq_true hopen))
  | cons signal rest ih =>
    unfold FsBind.recvLoop at h
    split at h
    · cases h
    · next obs site hprocess =>
      obtain ⟨rfl, rfl⟩ := Prod.mk.inj (Option.some.inj h)
      exact (process_tells hreceiver hprocess).1
    · next site hprocess =>
      -- a filtered signal: the loop starts over
      obtain ⟨htells, hrest⟩ := process_tells hreceiver hprocess
      have hinstant := immediate_tells env site.bind site.host
      have hsame := (immediate_steady site.bind).2.1
      split at h
      · next obs bind himmediate =>
        obtain ⟨rfl, rfl⟩ := Prod.mk.inj (Option.some.inj h)
        rw [himmediate] at hinstant
        exact htells.after hinstant
      · next bind himmediate =>
        rw [himmediate] at hinstant hsame
        exact htells.after (hinstant.after (ih (hsame.trans hrest) h))

/-- **The loop of `poll_ready`**, over the signals of the channel. -/
theorem tryRecvLoop_tells {signals : List BackendSignal} (hreceiver : a.bind.receiver = signals)
    (h : FsBind.tryRecvLoop env signals a = some (answer, b)) : Tells env a answer b := by
  induction signals generalizing a with
  | nil =>
    obtain ⟨rfl, rfl⟩ := Prod.mk.inj (Option.some.inj h)
    exact .idle a
  | cons signal rest ih =>
    unfold FsBind.tryRecvLoop at h
    split at h
    · cases h
    · next obs site hprocess =>
      obtain ⟨rfl, rfl⟩ := Prod.mk.inj (Option.some.inj h)
      exact (process_tells hreceiver hprocess).1
    · next site hprocess =>
      obtain ⟨htells, hrest⟩ := process_tells hreceiver hprocess
      exact htells.after (ih hrest h)

/-- **`next`** -/
theorem next_tells (h : FsBind.next env a = some (answer, b)) : Tells env a answer b := by
  have hinstant := immediate_tells env a.bind a.host
  unfold FsBind.next at h
  split at h
  · next obs bind himmediate =>
    obtain ⟨rfl, rfl⟩ := Prod.mk.inj (Option.some.inj h)
    rw [himmediate] at hinstant
    exact hinstant
  · next bind himmediate =>
    rw [himmediate] at hinstant
    exact hinstant.after (recvLoop_tells rfl h)

/-- **`poll_ready`** -/
theorem pollReady_tells (h : FsBind.pollReady env a = some (answer, b)) : Tells env a answer b := by
  have hinstant := immediate_tells env a.bind a.host
  unfold FsBind.pollReady at h
  split at h
  · next obs bind himmediate =>
    obtain ⟨rfl, rfl⟩ := Prod.mk.inj (Option.some.inj h)
    rw [himmediate] at hinstant
    exact hinstant
  · next bind himmediate =>
    rw [himmediate] at hinstant
    split at h
    · obtain ⟨rfl, rfl⟩ := Prod.mk.inj (Option.some.inj h)
      exact hinstant
    · exact hinstant.after (tryRecvLoop_tells rfl h)

end calls

/-! ## Runs -/

section runs

variable {env : Env σ} {config config' : Config σ} {answer : Option Observation}

/-- The answers of the calls of a run. -/
def answers (env : Env σ) : List (Op σ) → Config σ → List Observation
  | [], _ => []
  | op :: ops, config =>
    ((step env op config).map fun r => r.1.toList ++ answers env ops r.2).getD []

/-- A call is a tale that ends with its answer. -/
theorem call_tells {op : Op σ} (hcall : op.isCall = true)
    (hstep : step env op config = some (answer, config')) :
    Tells env config.site answer config'.site := by
  have hwaits : ∀ {result}, config.call result = some (answer, config') →
      (∀ {site}, result = some (answer, site) → Tells env config.site answer site) →
      Tells env config.site answer config'.site := by
    intro result hresult htells
    exact htells (call_eq_some hresult).1
  unfold step at hstep
  cases op with
  | next =>
    dsimp only at hstep
    split at hstep
    · obtain ⟨rfl, rfl⟩ := Prod.mk.inj (Option.some.inj hstep)
      exact .idle _
    · exact hwaits hstep next_tells
  | resume =>
    dsimp only at hstep
    split at hstep
    · exact hwaits hstep (recvLoop_tells rfl)
    · obtain ⟨rfl, rfl⟩ := Prod.mk.inj (Option.some.inj hstep)
      exact .idle _
  | pollReady => exact hwaits hstep pollReady_tells
  | _ => cases hcall

/-- Any other step but a signal answers nothing, and leaves the channel and the overflow alone. -/
theorem change_books {op : Op σ} (hcall : op.isCall = false) (hsignal : op.signal? = none)
    (hstep : step env op config = some (answer, config')) :
    answer = none ∧ Books config.site.bind [] config'.site.bind := by
  cases op with
  | signal signal => cases hsignal
  | next => cases hcall
  | resume => cases hcall
  | pollReady => cases hcall
  | restore obs =>
    unfold step at hstep
    cases howns : config.site.bind.owns obs with
    | true =>
      simp only [restoreReady_of_owns howns] at hstep
      obtain ⟨rfl, rfl⟩ := Prod.mk.inj (Option.some.inj hstep)
      exact ⟨rfl, .still rfl rfl rfl⟩
    | false =>
      simp only [restoreReady_of_not_owns howns] at hstep
      obtain ⟨rfl, rfl⟩ := Prod.mk.inj (Option.some.inj hstep)
      exact ⟨rfl, .still rfl rfl rfl⟩
  | _ =>
    obtain ⟨rfl, rfl⟩ := Prod.mk.inj (Option.some.inj hstep)
    exact ⟨rfl, .still rfl rfl rfl⟩

/-- Where a signal leads. -/
theorem step_signal (signal : BackendSignal) :
    step env (.signal signal) config
      = some (none, config.setBind (heard config.site.bind signal)) := by
  show some (none, if _ then _ else _) = _
  unfold heard
  split <;> rfl

/-- **Every run** has an account. -/
theorem run_account {ops : List (Op σ)} (hrun : run env ops config = some config') :
    ∃ tale, Account env ops config tale config' := by
  induction ops generalizing config with
  | nil =>
    obtain rfl := Option.some.inj hrun
    exact ⟨[], .nil _⟩
  | cons op ops ih =>
    obtain ⟨⟨answer, middle⟩, hstep, hrest⟩ := Option.bind_eq_some_iff.mp hrun
    obtain ⟨tale, haccount⟩ := ih hrest
    cases hsignal : op.signal? with
    | some signal =>
      obtain rfl : op = .signal signal := by
        cases op <;> cases hsignal
        rfl
      rw [step_signal] at hstep
      obtain ⟨rfl, rfl⟩ := Prod.mk.inj (Option.some.inj hstep)
      exact ⟨_, .signal haccount⟩
    | none =>
      cases hcall : op.isCall with
      | true =>
        obtain ⟨part, hpart, hanswer⟩ := call_tells hcall hstep
        exact ⟨part ++ tale, .call hcall hstep hpart hanswer haccount⟩
      | false =>
        obtain ⟨rfl, -⟩ := change_books hcall hsignal hstep
        exact ⟨tale, .change hcall hsignal hstep haccount⟩

section accounts

variable {ops : List (Op σ)} {tale : List Happening}

/-- An account is in the books. -/
theorem Account.books (h : Account env ops config tale config') :
    Books config.site.bind tale config'.site.bind := by
  induction h with
  | nil config => exact .still rfl rfl rfl
  | @signal ops config last signal tale hrest ih =>
    exact (fate_books config.site.bind signal).append ih
  | call hcall hstep hpart hanswer hrest ih => exact hpart.books.append ih
  | change hcall hsignal hstep hrest ih => exact (change_books hcall hsignal hstep).2.append ih

/-- The answers of an account are those of the run. -/
theorem Account.answers (h : Account env ops config tale config') :
    tale.filterMap Happening.answer? = Fs.answers env ops config := by
  induction h with
  | nil config => rfl
  | @signal ops config last signal tale hrest ih =>
    have hsilent : (fate config.site.bind signal).answer? = none := by
      unfold fate
      split
      · rfl
      · split <;> rfl
    rw [List.filterMap_cons_none hsilent, Fs.answers, step_signal, ih]
    rfl
  | call hcall hstep hpart hanswer hrest ih =>
    rw [List.filterMap_append, hanswer, ih, Fs.answers, hstep]
    rfl
  | change hcall hsignal hstep hrest ih =>
    rw [ih, Fs.answers, hstep]
    rfl

/-- The signals of an account are those the backend pushed. -/
theorem Account.pushed (h : Account env ops config tale config') :
    tale.filterMap Happening.pushed? = ops.filterMap Op.signal? := by
  induction h with
  | nil config => rfl
  | @signal ops config last signal tale hrest ih =>
    have hpushed : (fate config.site.bind signal).pushed? = some signal := by
      unfold fate
      split
      · rfl
      · split <;> rfl
    rw [List.filterMap_cons_some hpushed, ih]
    rfl
  | @call op _ _ _ _ _ _ _ hcall hstep hpart hanswer hrest ih =>
    have hsilent : op.signal? = none := by cases op <;> first | rfl | cases hcall
    rw [List.filterMap_append, hpart.pushed, ih, List.filterMap_cons_none hsilent]
    rfl
  | change hcall hsignal hstep hrest ih => rw [ih, List.filterMap_cons_none hsignal]

end accounts

/-- **The account of the signals of a run**, from a bind as the observer makes it: a signal the
backend pushes goes into the channel if a sender is left and there is room, is dropped if there is
none, and is not heard if no sender is left. Those that went in are taken once each, in their order,
and wait otherwise; a call answers the one it takes with what `process` makes of it, unless the
registration does not watch for it. A dropped one is followed by an overflow that a call answers, or
that is still set. The channel stays within its bound. -/
theorem signals_accounted {ops : List (Op σ)} {observer : FsObserver} {registration : Registration}
    {counter : UInt64} {host : σ}
    (hrun : run env ops (start env observer registration counter host) = some config') :
    ∃ tale, Account env ops (start env observer registration counter host) tale config' ∧
      tale.filterMap Happening.answer?
        = answers env ops (start env observer registration counter host) ∧
      tale.filterMap Happening.pushed? = ops.filterMap Op.signal? ∧
      tale.filterMap Happening.arrived?
        = tale.filterMap Happening.taken? ++ config'.site.bind.receiver ∧
      (∀ before signal after, tale = before ++ .dropped signal :: after →
        .told .overflow ∈ after ∨ config'.site.bind.overflowed = true) ∧
      config'.site.bind.receiver.length ≤ config'.site.bind.capacity := by
  obtain ⟨tale, haccount⟩ := run_account hrun
  have hbooks := haccount.books
  have hempty : (start env observer registration counter host).site.bind.receiver = [] := by
    unfold start FsObserver.bind
    cases observer.validateRegistration env host registration with
    | error terminal => rfl
    | ok resolved =>
      dsimp only
      split <;> rfl
  refine ⟨tale, haccount, haccount.answers, haccount.pushed, ?_, hbooks.dropped,
    hbooks.bounded ?_⟩
  · have hreceiver := hbooks.receiver
    rwa [hempty, List.nil_append] at hreceiver
  · rw [hempty]
    exact Nat.zero_le _

/-- A registration whose channel holds one signal. -/
def narrowRegistration : Registration := { anyRegistration with bounds := ⟨1, 4096⟩ }

/-- The second signal finds the channel full; the calls tell the overflow first. -/
def crowdedRun : List (Op Unit) := [created "a", created "b", .next, .pollReady]

/-- Where that run ends. -/
def crowdedEnd : Config Unit :=
  (run stillEnv crowdedRun (start stillEnv localObserver narrowRegistration 1 ())).get
    (by decide +kernel)

theorem signals_accounted_crowded :
    ∃ tale : List Happening, tale.filterMap Happening.pushed? = crowdedRun.filterMap Op.signal? ∧
      tale.filterMap Happening.answer?
        = answers stillEnv crowdedRun (start stillEnv localObserver narrowRegistration 1 ()) ∧
      (answers stillEnv crowdedRun (start stillEnv localObserver narrowRegistration 1 ())).length
        = 2 := by
  have hrun : run stillEnv crowdedRun (start stillEnv localObserver narrowRegistration 1 ())
      = some crowdedEnd := (Option.some_get _).symm
  obtain ⟨tale, -, hanswers, hpushed, -⟩ := signals_accounted hrun
  exact ⟨tale, hpushed, hanswers, by decide +kernel⟩

end runs

end Fs

end Waitprims
