import Mathlib
import Waitprims.Fs.NormalizePaths
import Waitprims.Fs.Signals

/-! # What a bind tells its sink

A bind that finds a signal worth an event describes it to the sink of its owner before it mints: the
class of the event, and where in the root it happened. Nothing else of the filesystem leaves the
observer. A record of the descriptors is kept beside the host; it changes nothing about the calls.

* **`Told`** — a descriptor that the sink was given, with the filesystem of that moment.
* **`Env.telling`** — the environment with the record; **`tellRun_erase`** takes it away again.
* **`Watched`** — a descriptor of a signal that the registration watches for.
* **`descriptors_watched`** — every descriptor of every run, and the events that point to them. -/

namespace Waitprims

namespace Fs

variable {σ : Type}

/-! ## A record of the descriptors -/

/-- A descriptor that the sink was given, and the filesystem it was made from. -/
structure Told (σ : Type) where
  host : σ
  descriptor : EventDescriptor

/-- A host, and what the sink was given so far, oldest first. -/
abbrev Telling (σ : Type) := σ × List (Told σ)

/-- **The environment with a record** of the descriptors. -/
def Env.telling (env : Env σ) : Env (Telling σ) where
  canonicalize host path := env.canonicalize host.1 path
  pathExists host path := env.pathExists host.1 path
  isDir host path := env.isDir host.1 path
  start paths host := ((env.start paths host.1).1, (env.start paths host.1).2, host.2)
  materialize descriptor host :=
    ((env.materialize descriptor host.1).1,
      (env.materialize descriptor host.1).2, host.2 ++ [⟨host.1, descriptor⟩])
  now host := ((env.now host.1).1, (env.now host.1).2, host.2)
  hexSha256 := env.hexSha256

/-- A step, with what lies outside at its place beside the record. -/
def Op.beside (told : List (Told σ)) : Op σ → Op (Telling σ)
  | .signal pushed => .signal pushed
  | .elapse host => .elapse (host, told)
  | .disconnect => .disconnect
  | .next => .next
  | .resume => .resume
  | .abandon => .abandon
  | .pollReady => .pollReady
  | .restore obs => .restore obs
  | .release => .release

/-- **A run with a record**: what lies outside does not touch the record. -/
def tellRun (env : Env σ) : List (Op σ) → Config (Telling σ) → Option (Config (Telling σ))
  | [], config => some config
  | op :: ops, config =>
    (step env.telling (op.beside config.site.host.2) config).bind fun r => tellRun env ops r.2

/-- A site without the record. -/
def Site.erase (site : Site (Telling σ)) : Site σ := ⟨site.bind, site.host.1⟩

/-- A configuration without the record. -/
def Config.erase (config : Config (Telling σ)) : Config σ := ⟨config.site.erase, config.log⟩

/-- An answer without the record. -/
def eraseAnswer (r : Option Observation × Site (Telling σ)) : Option Observation × Site σ :=
  (r.1, r.2.erase)

/-- The outcome of a step without the record. -/
def eraseStep (r : Option Observation × Config (Telling σ)) : Option Observation × Config σ :=
  (r.1, r.2.erase)

/-! ## The record changes nothing -/

section erase

variable {env : Env σ} {site : Site (Telling σ)} {config : Config (Telling σ)}

@[simp] theorem erase_bind (site : Site (Telling σ)) : site.erase.bind = site.bind := rfl

@[simp] theorem erase_host (site : Site (Telling σ)) : site.erase.host = site.host.1 := rfl

@[simp] theorem erase_mk (bind : FsBind) (host : Telling σ) :
    (Site.mk bind host).erase = ⟨bind, host.1⟩ := rfl

/-- What is asked of the filesystem is answered as before. -/
theorem stillSafe_telling (host : Telling σ) (root : FsPath) (target : Target) :
    target.stillSafe env.telling host root = target.stillSafe env host.1 root := rfl

theorem normalizePaths_telling (host : Telling σ) (root : FsPath) (target : Target)
    (paths : List FsPath) : normalizePaths env.telling host root target paths
      = normalizePaths env host.1 root target paths := rfl

/-- The sink answers as before. -/
theorem materialize_telling_answer (descriptor : EventDescriptor) (host : Telling σ) :
    (env.telling.materialize descriptor host).1 = (env.materialize descriptor host.1).1 := rfl

/-- Minting asks the clock alone. -/
theorem mint_erase (payload : PayloadRef) (site : Site (Telling σ)) :
    (FsBind.mint env.telling payload site).map eraseAnswer
      = FsBind.mint env payload site.erase := by
  unfold FsBind.mint
  by_cases hbound : site.bind.sequence.toNat + 1 < 2 ^ 64
  · rw [if_pos hbound, if_pos (show site.erase.bind.sequence.toNat + 1 < 2 ^ 64 from hbound)]
    rfl
  · rw [if_neg hbound, if_neg (show ¬ site.erase.bind.sequence.toNat + 1 < 2 ^ 64 from hbound)]
    rfl

/-- **One backend event** -/
theorem processEvent_erase (raw : BackendEvent) (site : Site (Telling σ)) :
    (FsBind.processEvent env.telling raw site).map eraseAnswer
      = FsBind.processEvent env raw site.erase := by
  obtain ⟨bind, host, told⟩ := site
  show (FsBind.processEvent env.telling raw ⟨bind, host, told⟩).map eraseAnswer
    = FsBind.processEvent env raw ⟨bind, host⟩
  unfold FsBind.processEvent
  simp only [apply_ite (Option.map eraseAnswer), stillSafe_telling, normalizePaths_telling]
  refine if_congr Iff.rfl rfl ?_
  rcases normalizePaths env host bind.root bind.target raw.paths with _ | _ | ⟨path, paths⟩
  · rfl
  · rfl
  simp only [apply_ite (Option.map eraseAnswer)]
  refine if_congr Iff.rfl rfl (if_congr Iff.rfl rfl (if_congr Iff.rfl rfl ?_))
  -- the sink answers the same, and the record is the only difference in what it leaves
  simp only [materialize_telling_answer]
  cases (env.materialize ⟨raw.eventClass, path :: paths⟩ host).1 with
  | error err => rfl
  | ok payload =>
    dsimp only
    rw [apply_ite (Option.map eraseAnswer)]
    exact if_congr Iff.rfl rfl (mint_erase payload _)

/-- **One signal** -/
theorem process_erase (env : Env σ) (signal : BackendSignal) (site : Site (Telling σ)) :
    (FsBind.process env.telling signal site).map eraseAnswer
      = FsBind.process env signal site.erase := by
  unfold FsBind.process
  simp only [apply_ite (Option.map eraseAnswer), erase_bind]
  refine if_congr Iff.rfl rfl ?_
  cases signal with
  | rescan => rfl
  | failed => rfl
  | event raw => exact processEvent_erase raw site

/-- **The loop of `next`** -/
theorem recvLoop_erase (signals : List BackendSignal) (site : Site (Telling σ)) :
    (FsBind.recvLoop env.telling signals site).map eraseAnswer
      = FsBind.recvLoop env signals site.erase := by
  induction signals generalizing site with
  | nil =>
    simp only [FsBind.recvLoop, apply_ite (Option.map eraseAnswer), erase_bind]
    exact if_congr Iff.rfl rfl rfl
  | cons signal rest ih =>
    simp only [FsBind.recvLoop, erase_bind, erase_host]
    have hprocess := process_erase env signal
      ⟨{ site.bind with receiver := rest, waiting := false }, site.host⟩
    rw [erase_mk] at hprocess
    rw [← hprocess]
    rcases FsBind.process env.telling signal
      ⟨{ site.bind with receiver := rest, waiting := false }, site.host⟩ with
      _ | ⟨_ | obs, after⟩
    · rfl
    · simp only [Option.map_some, eraseAnswer, erase_bind, erase_host]
      rcases after.bind.immediate with ⟨_ | obs, bind⟩
      · exact ih ⟨bind, after.host⟩
      · rfl
    · rfl

/-- **The loop of `poll_ready`** -/
theorem tryRecvLoop_erase (signals : List BackendSignal) (site : Site (Telling σ)) :
    (FsBind.tryRecvLoop env.telling signals site).map eraseAnswer
      = FsBind.tryRecvLoop env signals site.erase := by
  induction signals generalizing site with
  | nil => rfl
  | cons signal rest ih =>
    simp only [FsBind.tryRecvLoop, erase_bind, erase_host]
    have hprocess := process_erase env signal
      ⟨{ site.bind with receiver := rest }, site.host⟩
    rw [erase_mk] at hprocess
    rw [← hprocess]
    rcases FsBind.process env.telling signal ⟨{ site.bind with receiver := rest }, site.host⟩ with
      _ | ⟨_ | obs, after⟩
    · rfl
    · exact ih after
    · rfl

/-- **`next`** -/
theorem next_erase (site : Site (Telling σ)) :
    (FsBind.next env.telling site).map eraseAnswer = FsBind.next env site.erase := by
  simp only [FsBind.next, erase_bind, erase_host]
  rcases site.bind.immediate with ⟨_ | obs, bind⟩
  · exact recvLoop_erase bind.receiver ⟨bind, site.host⟩
  · rfl

/-- **`poll_ready`** -/
theorem pollReady_erase (site : Site (Telling σ)) :
    (FsBind.pollReady env.telling site).map eraseAnswer = FsBind.pollReady env site.erase := by
  simp only [FsBind.pollReady, erase_bind, erase_host]
  rcases site.bind.immediate with ⟨_ | obs, bind⟩
  · simp only [apply_ite (Option.map eraseAnswer)]
    exact if_congr Iff.rfl rfl (tryRecvLoop_erase bind.receiver ⟨bind, site.host⟩)
  · rfl

/-- A call without the record. -/
theorem call_erase {result : Option (Option Observation × Site (Telling σ))}
    {result' : Option (Option Observation × Site σ)} (h : result.map eraseAnswer = result') :
    (config.call result).map eraseStep = config.erase.call result' := by
  subst h
  cases result <;> rfl

/-- **One step** with the record is the step without it. -/
theorem step_erase (op : Op σ) (config : Config (Telling σ)) :
    (step env.telling (op.beside config.site.host.2) config).map eraseStep
      = step env op config.erase := by
  cases op with
  | signal pushed =>
    refine congrArg (fun after => some ((none : Option Observation), after)) ?_
    rw [apply_ite Config.erase]
    rfl
  | next =>
    unfold step
    simp only [Op.beside, apply_ite (Option.map eraseStep)]
    exact if_congr Iff.rfl rfl (call_erase (next_erase config.site))
  | resume =>
    unfold step
    simp only [Op.beside, apply_ite (Option.map eraseStep)]
    exact if_congr Iff.rfl (call_erase (recvLoop_erase config.site.bind.receiver config.site)) rfl
  | pollReady => exact call_erase (pollReady_erase config.site)
  | restore obs =>
    unfold step
    simp only [Op.beside]
    have hsame : config.erase.site.bind.restoreReady obs = config.site.bind.restoreReady obs := rfl
    rw [hsame]
    rcases config.site.bind.restoreReady obs with ⟨_ | _, bind⟩ <;> rfl
  | _ => rfl

/-- **A run with a record** is the run, with a record. -/
theorem tellRun_erase (env : Env σ) (ops : List (Op σ)) (config : Config (Telling σ)) :
    (tellRun env ops config).map Config.erase = run env ops config.erase := by
  induction ops generalizing config with
  | nil => rfl
  | cons op ops ih =>
    unfold tellRun run
    rw [← step_erase]
    cases step env.telling (op.beside config.site.host.2) config with
    | none => rfl
    | some r => exact ih r.2

end erase

/-! ## What a call passes on -/

/-- **A descriptor of a signal that a bind watches for.** -/
structure Watched (env : Env σ) (bind : FsBind) (raw : BackendEvent) (told : Told σ) : Prop where
  /-- The target is still where it was bound. -/
  safe : bind.target.stillSafe env told.host bind.root = true
  paths : normalizePaths env told.host bind.root bind.target raw.paths = some told.descriptor.paths
  nonempty : told.descriptor.paths ≠ []
  eventClass : told.descriptor.eventClass = raw.eventClass
  accepted : bind.predicate.accepts raw.eventClass = true
  bounded : told.descriptor.canonicalBytes.length ≤ bind.registration.bounds.maxBytes

/-- The digest an event has of its descriptor. -/
def Told.digest (env : Env σ) (told : Told σ) : ContentDigest :=
  ⟨.sha256, env.hexSha256 told.descriptor.canonicalBytes⟩

/-- What a call leaves alone. -/
structure Alike (a b : FsBind) : Prop where
  watch : SameWatch a b
  registration : b.registration = a.registration
  disconnected : b.disconnected = a.disconnected

/-- **What a call passes on** that took no other signals than these: descriptors of what it took,
and one for the event it mints. -/
structure Passes (env : Env σ) (signals : List BackendSignal) (a : Site (Telling σ))
    (answer : Option Observation) (b : Site (Telling σ)) : Prop where
  alike : Alike a.bind b.bind
  receiver : ∀ signal ∈ b.bind.receiver, signal ∈ a.bind.receiver ∨ signal ∈ signals
  silent : answer = none → b.bind.sequence = a.bind.sequence
  told : ∃ new, b.host.2 = a.host.2 ++ new ∧
    (∀ t ∈ new, ∃ raw, .event raw ∈ signals ∧ Watched env a.bind raw t) ∧
    ∀ event, answer = some (.event event) → b.bind.sequence ≠ a.bind.sequence →
      ∃ t ∈ new, event.payload.contentDigest = t.digest env

section calls

variable {env : Env σ} {a b c : Site (Telling σ)} {answer : Option Observation}
  {signal : BackendSignal} {signals signals' : List BackendSignal}

theorem Alike.refl (a : FsBind) : Alike a a := ⟨.refl a, rfl, rfl⟩

theorem Alike.trans {a b c : FsBind} (h : Alike a b) (h' : Alike b c) : Alike a c where
  watch := h.watch.trans h'.watch
  registration := h'.registration.trans h.registration
  disconnected := h'.disconnected.trans h.disconnected

/-- A bind watches for what it watched for. -/
theorem Watched.congr {a b : FsBind} {raw : BackendEvent} {told : Told σ}
    (h : Watched env b raw told) (hwatch : SameWatch a b)
    (hregistration : b.registration = a.registration) : Watched env a raw told := by
  obtain ⟨hroot, htarget, hpredicate, -⟩ := hwatch
  obtain ⟨hsafe, hpaths, hnonempty, hclass, haccepted, hbounded⟩ := h
  rw [htarget, hroot] at hsafe hpaths
  rw [hpredicate] at haccepted
  rw [hregistration] at hbounded
  exact ⟨hsafe, hpaths, hnonempty, hclass, haccepted, hbounded⟩

/-- A call that gives nothing to the sink. -/
theorem Passes.nothing (halike : Alike a.bind b.bind)
    (hreceiver : ∀ signal ∈ b.bind.receiver, signal ∈ a.bind.receiver ∨ signal ∈ signals)
    (hsequence : b.bind.sequence = a.bind.sequence) (htold : b.host.2 = a.host.2) :
    Passes env signals a answer b where
  alike := halike
  receiver := hreceiver
  silent _ := hsequence
  told := ⟨[], by simp [htold], by simp, fun _ _ hmoved => absurd hsequence hmoved⟩

/-- A silent part goes before. -/
theorem Passes.after (h : Passes env signals a none b) (h' : Passes env signals' b answer c)
    (hsub : signals' ⊆ signals) : Passes env signals a answer c where
  alike := h.alike.trans h'.alike
  receiver signal hsignal := by
    rcases h'.receiver signal hsignal with hsignal | hsignal
    · exact h.receiver signal hsignal
    · exact .inr (hsub hsignal)
  silent hnone := (h'.silent hnone).trans (h.silent rfl)
  told := by
    obtain ⟨new, hnew, hwatched, -⟩ := h.told
    obtain ⟨new', hnew', hwatched', hdigest⟩ := h'.told
    refine ⟨new ++ new', by rw [hnew', hnew, List.append_assoc], fun t ht => ?_, ?_⟩
    · rcases List.mem_append.mp ht with ht | ht
      · exact hwatched t ht
      · obtain ⟨raw, hraw, hwatch⟩ := hwatched' t ht
        exact ⟨raw, hsub hraw, hwatch.congr h.alike.watch h.alike.registration⟩
    · intro event hevent hmoved
      rw [← h.silent rfl] at hmoved
      obtain ⟨t, ht, heq⟩ := hdigest event hevent hmoved
      exact ⟨t, List.mem_append_right _ ht, heq⟩

/-- Minting gives nothing to the sink; the event carries the payload. -/
theorem mint_passes {payload : PayloadRef}
    (h : FsBind.mint env.telling payload a = some (answer, b)) :
    Alike a.bind b.bind ∧ b.bind.receiver = a.bind.receiver ∧ b.host.2 = a.host.2 ∧
      ∃ event, answer = some (.event event) ∧ event.payload = payload := by
  unfold FsBind.mint at h
  split at h
  · obtain ⟨rfl, rfl⟩ := Prod.mk.inj (Option.some.inj h)
    exact ⟨⟨⟨rfl, rfl, rfl, rfl⟩, rfl, rfl⟩, rfl, rfl, _, rfl, rfl⟩
  · cases h

/-- **One backend event**: it is described once, if it is watched for. -/
theorem processEvent_passes {raw : BackendEvent}
    (h : FsBind.processEvent env.telling raw a = some (answer, b)) :
    Passes env [.event raw] a answer b := by
  have hstays : ∀ {answer' : Option Observation}, (some (answer', a) :
      Option (Option Observation × Site (Telling σ))) = some (answer, b) →
      Passes env [.event raw] a answer b := by
    intro answer' hsome
    obtain ⟨rfl, rfl⟩ := Prod.mk.inj (Option.some.inj hsome)
    exact .nothing (.refl _) (fun _ => .inl) rfl rfl
  unfold FsBind.processEvent at h
  dsimp only at h
  split at h
  · exact hstays h
  next hsafe =>
  split at h
  · exact hstays h
  · exact hstays h
  next paths hnonempty hpaths =>
  split at h
  · exact hstays h
  split at h
  · exact hstays h
  next haccepted =>
  split at h
  · exact hstays h
  next hbytes =>
  -- from here on the sink has the descriptor
  have hwatched : Watched env a.bind raw ⟨a.host.1, ⟨raw.eventClass, paths⟩⟩ :=
    ⟨by rw [← stillSafe_telling]; simpa using hsafe, hpaths, hnonempty, rfl,
      by simpa using haccepted, Nat.le_of_not_lt hbytes⟩
  have hgiven : ∀ {host : Telling σ} {obs : Observation},
      host.2 = a.host.2 ++ [⟨a.host.1, ⟨raw.eventClass, paths⟩⟩] →
      (some (some obs, ⟨a.bind, host⟩) : Option (Option Observation × Site (Telling σ)))
        = some (answer, b) → Passes env [.event raw] a answer b := by
    intro host obs hhost hsome
    obtain ⟨rfl, rfl⟩ := Prod.mk.inj (Option.some.inj hsome)
    exact {
      alike := .refl _
      receiver := fun _ => .inl
      silent := fun hnone => absurd hnone (by simp)
      told := ⟨_, hhost, by simpa using hwatched, fun _ _ hmoved => absurd rfl hmoved⟩ }
  split at h
  · exact hgiven rfl h
  next payload hstored =>
  split at h
  · exact hgiven rfl h
  next hdigest =>
  obtain ⟨halike, hreceiver, hhost, event, rfl, hpayload⟩ := mint_passes h
  have hsame : payload.contentDigest = Told.digest env ⟨a.host.1, ⟨raw.eventClass, paths⟩⟩ := by
    have hboth : payload.contentDigest.algorithm = .sha256 ∧ payload.contentDigest.value
        = env.telling.hexSha256 (EventDescriptor.canonicalBytes ⟨raw.eventClass, paths⟩) := by
      simpa using hdigest
    cases hcontent : payload.contentDigest with
    | mk algorithm value =>
      rw [hcontent] at hboth
      exact congrArg₂ ContentDigest.mk hboth.1 hboth.2
  exact {
    alike := halike
    receiver := fun signal hsignal => .inl (hreceiver ▸ hsignal)
    silent := fun hnone => absurd hnone (by simp)
    told := by
      refine ⟨[⟨a.host.1, ⟨raw.eventClass, paths⟩⟩], hhost, by simpa using hwatched, ?_⟩
      intro minted hminted _
      cases hminted
      exact ⟨_, List.mem_singleton_self _, hpayload ▸ hsame⟩ }

/-- **One signal** -/
theorem process_passes (h : FsBind.process env.telling signal a = some (answer, b)) :
    Passes env [signal] a answer b := by
  have hstays : ∀ {answer' : Option Observation}, (some (answer', a) :
      Option (Option Observation × Site (Telling σ))) = some (answer, b) →
      Passes env [signal] a answer b := by
    intro answer' hsome
    obtain ⟨rfl, rfl⟩ := Prod.mk.inj (Option.some.inj hsome)
    exact .nothing (.refl _) (fun _ => .inl) rfl rfl
  unfold FsBind.process at h
  split at h
  · exact hstays h
  cases signal with
  | rescan => exact hstays h
  | failed => exact hstays h
  | event raw => exact processEvent_passes h

/-- **`immediate`** gives nothing to the sink. -/
theorem immediate_passes (env : Env σ) (signals : List BackendSignal) (bind : FsBind)
    (host : Telling σ) :
    Passes env signals ⟨bind, host⟩ bind.immediate.1 ⟨bind.immediate.2, host⟩ := by
  have hstays : ∀ {answer : Option Observation} {after : FsBind}, Alike bind after →
      after.receiver = bind.receiver → after.sequence = bind.sequence →
      Passes env signals ⟨bind, host⟩ answer ⟨after, host⟩ :=
    fun halike hreceiver hsequence =>
      .nothing halike (fun _ hsignal => .inl (hreceiver ▸ hsignal)) hsequence rfl
  unfold FsBind.immediate
  split
  · exact hstays (.refl _) rfl rfl
  split
  · exact hstays ⟨⟨rfl, rfl, rfl, rfl⟩, rfl, rfl⟩ rfl rfl
  split
  · exact hstays ⟨⟨rfl, rfl, rfl, rfl⟩, rfl, rfl⟩ rfl rfl
  · exact hstays ⟨⟨rfl, rfl, rfl, rfl⟩, rfl, rfl⟩ rfl rfl

/-- A signal is taken out of the channel. -/
theorem taken_passes {rest : List BackendSignal} {waiting : Bool} :
    Passes env (signal :: rest) a none ⟨{ a.bind with receiver := rest, waiting }, a.host⟩ :=
  .nothing ⟨⟨rfl, rfl, rfl, rfl⟩, rfl, rfl⟩ (fun _ h => .inr (List.mem_cons_of_mem _ h)) rfl rfl

/-- **The loop of `next`** -/
theorem recvLoop_passes (h : FsBind.recvLoop env.telling signals a = some (answer, b)) :
    Passes env signals a answer b := by
  induction signals generalizing a with
  | nil =>
    unfold FsBind.recvLoop at h
    split at h
    · obtain ⟨rfl, rfl⟩ := Prod.mk.inj (Option.some.inj h)
      exact .nothing ⟨⟨rfl, rfl, rfl, rfl⟩, rfl, rfl⟩ (fun _ => .inl) rfl rfl
    · obtain ⟨rfl, rfl⟩ := Prod.mk.inj (Option.some.inj h)
      exact .nothing ⟨⟨rfl, rfl, rfl, rfl⟩, rfl, rfl⟩ (fun _ => .inl) rfl rfl
  | cons signal rest ih =>
    have hfirst : [signal] ⊆ signal :: rest := by simp
    unfold FsBind.recvLoop at h
    split at h
    · cases h
    · next obs site hprocess =>
      obtain ⟨rfl, rfl⟩ := Prod.mk.inj (Option.some.inj h)
      exact taken_passes.after (process_passes hprocess) hfirst
    · next site hprocess =>
      -- a filtered signal: the loop starts over
      have hbefore := taken_passes.after (process_passes hprocess) hfirst
      have hinstant := immediate_passes env rest site.bind site.host
      split at h
      · next obs bind himmediate =>
        obtain ⟨rfl, rfl⟩ := Prod.mk.inj (Option.some.inj h)
        rw [himmediate] at hinstant
        exact hbefore.after hinstant (List.subset_cons_self _ _)
      · next bind himmediate =>
        rw [himmediate] at hinstant
        exact hbefore.after (hinstant.after (ih h) (List.Subset.refl _))
          (List.subset_cons_self _ _)

/-- **The loop of `poll_ready`** -/
theorem tryRecvLoop_passes (h : FsBind.tryRecvLoop env.telling signals a = some (answer, b)) :
    Passes env signals a answer b := by
  induction signals generalizing a with
  | nil =>
    obtain ⟨rfl, rfl⟩ := Prod.mk.inj (Option.some.inj h)
    exact .nothing (.refl _) (fun _ => .inl) rfl rfl
  | cons signal rest ih =>
    have hfirst : [signal] ⊆ signal :: rest := by simp
    unfold FsBind.tryRecvLoop at h
    split at h
    · cases h
    · next obs site hprocess =>
      obtain ⟨rfl, rfl⟩ := Prod.mk.inj (Option.some.inj h)
      exact taken_passes.after (process_passes hprocess) hfirst
    · next site hprocess =>
      exact (taken_passes.after (process_passes hprocess) hfirst).after (ih h)
        (List.subset_cons_self _ _)

/-- **`next`** -/
theorem next_passes (h : FsBind.next env.telling a = some (answer, b)) :
    Passes env a.bind.receiver a answer b := by
  have hinstant := immediate_passes env a.bind.receiver a.bind a.host
  have hsame := (immediate_steady a.bind).2.1
  unfold FsBind.next at h
  split at h
  · next obs bind himmediate =>
    obtain ⟨rfl, rfl⟩ := Prod.mk.inj (Option.some.inj h)
    rw [himmediate] at hinstant
    exact hinstant
  · next bind himmediate =>
    rw [himmediate] at hinstant hsame
    exact hinstant.after (recvLoop_passes h) (hsame ▸ List.Subset.refl _)

/-- **`poll_ready`** -/
theorem pollReady_passes (h : FsBind.pollReady env.telling a = some (answer, b)) :
    Passes env a.bind.receiver a answer b := by
  have hinstant := immediate_passes env a.bind.receiver a.bind a.host
  have hsame := (immediate_steady a.bind).2.1
  unfold FsBind.pollReady at h
  split at h
  · next obs bind himmediate =>
    obtain ⟨rfl, rfl⟩ := Prod.mk.inj (Option.some.inj h)
    rw [himmediate] at hinstant
    exact hinstant
  · next bind himmediate =>
    rw [himmediate] at hinstant hsame
    split at h
    · obtain ⟨rfl, rfl⟩ := Prod.mk.inj (Option.some.inj h)
      exact hinstant
    · exact hinstant.after (tryRecvLoop_passes h) (hsame ▸ List.Subset.refl _)

end calls

/-! ## Runs with a record -/

/-- **What the record holds**, while the waiting signals are of some kind: descriptors of such
signals, and one for each minted event, in order. -/
structure Recorded (env : Env σ) (watched : BackendSignal → Prop) (bind : FsBind)
    (config : Config (Telling σ)) : Prop where
  watch : SameWatch bind config.site.bind
  registration : config.site.bind.registration = bind.registration
  receiver : ∀ signal ∈ config.site.bind.receiver, watched signal
  told : ∀ t ∈ config.site.host.2, ∃ raw, watched (.event raw) ∧ Watched env bind raw t
  minted : (config.log.minted.map fun event => event.payload.contentDigest).Sublist
    (config.site.host.2.map (Told.digest env))

section runs

variable {env : Env σ} {watched : BackendSignal → Prop} {bind : FsBind}
  {config config' : Config (Telling σ)} {answer : Option Observation}

/-- The events a call minted: one if the counter moved. -/
theorem returned_cases (log : Log) (before after : FsBind) (answer : Option Observation) :
    (log.returned before after answer).minted = log.minted ∨
      ∃ event, answer = some (.event event) ∧ after.sequence ≠ before.sequence ∧
        (log.returned before after answer).minted = log.minted ++ [event] := by
  unfold Log.returned
  split
  · next event =>
    split
    · exact .inl rfl
    · next hmoved => exact .inr ⟨event, rfl, hmoved, rfl⟩
  · exact .inl rfl

/-- **A call keeps the record.** -/
theorem Recorded.call (h : Recorded env watched bind config) {site : Site (Telling σ)}
    (hpasses : Passes env config.site.bind.receiver config.site answer site) :
    Recorded env watched bind
      ⟨site, config.log.returned config.site.bind site.bind answer⟩ := by
  obtain ⟨new, hnew, hwatched, hdigest⟩ := hpasses.told
  refine {
    watch := h.watch.trans hpasses.alike.watch
    registration := hpasses.alike.registration.trans h.registration
    receiver := fun signal hsignal =>
      h.receiver signal (or_self_iff.mp (hpasses.receiver signal hsignal))
    told := fun t ht => ?_
    minted := ?_ }
  · rw [hnew] at ht
    rcases List.mem_append.mp ht with ht | ht
    · exact h.told t ht
    · obtain ⟨raw, hraw, hwatch⟩ := hwatched t ht
      exact ⟨raw, h.receiver _ hraw, hwatch.congr h.watch h.registration⟩
  · rw [hnew, List.map_append]
    rcases returned_cases config.log config.site.bind site.bind answer with
      hsame | ⟨event, hevent, hmoved, hminted⟩
    · rw [hsame]
      exact h.minted.trans (List.sublist_append_left _ _)
    · -- the event that was minted has its descriptor among the new ones
      obtain ⟨t, ht, heq⟩ := hdigest event hevent hmoved
      rw [hminted, List.map_append]
      exact h.minted.append (List.singleton_sublist.mpr (List.mem_map.mpr ⟨t, ht, heq.symm⟩))

/-- A change of the bind that is no call. -/
theorem Recorded.change (h : Recorded env watched bind config) {after : FsBind}
    {host : Telling σ} {held : List WaitEvent} (hwatch : SameWatch config.site.bind after)
    (hregistration : after.registration = config.site.bind.registration)
    (hreceiver : ∀ signal ∈ after.receiver, watched signal)
    (hhost : host.2 = config.site.host.2) :
    Recorded env watched bind ⟨⟨after, host⟩, ⟨config.log.minted, held⟩⟩ where
  watch := h.watch.trans hwatch
  registration := hregistration.trans h.registration
  receiver := hreceiver
  told t ht := h.told t (hhost ▸ ht)
  minted := hhost ▸ h.minted

/-- **One step** keeps the record, and a channel that is closed stays closed. -/
theorem step_recorded (h : Recorded env watched bind config) {op : Op σ}
    (hop : ∀ signal, op.signal? = some signal →
      watched signal ∨ config.site.bind.disconnected = true)
    (hstep : step env.telling (op.beside config.site.host.2) config = some (answer, config')) :
    Recorded env watched bind config' ∧
      (config.site.bind.disconnected = true → config'.site.bind.disconnected = true) := by
  have hcall : ∀ {result}, config.call result = some (answer, config') →
      (∀ {site}, result = some (answer, site) →
        Passes env config.site.bind.receiver config.site answer site) →
      Recorded env watched bind config' ∧
        (config.site.bind.disconnected = true → config'.site.bind.disconnected = true) := by
    intro result hresult hpasses
    obtain ⟨hsome, hlog⟩ := call_eq_some hresult
    obtain ⟨site, log⟩ := config'
    obtain rfl : log = config.log.returned config.site.bind site.bind answer := hlog
    have hpassed := hpasses hsome
    exact ⟨h.call hpassed, fun hgone => hpassed.alike.disconnected.trans hgone⟩
  cases op with
  | signal pushed =>
    obtain ⟨rfl, rfl⟩ := Prod.mk.inj (Option.some.inj hstep)
    by_cases hgone : config.site.bind.disconnected = true
    · rw [if_pos hgone]
      exact ⟨h, id⟩
    · rw [if_neg hgone]
      have hpushed := (hop pushed rfl).resolve_right hgone
      refine ⟨?_, fun hclosed => absurd hclosed hgone⟩
      unfold Config.setBind FsBind.callback
      split
      · -- the signal found room: it is the only new one in the channel
        refine h.change ⟨rfl, rfl, rfl, rfl⟩ rfl (fun signal hsignal => ?_) rfl
        rcases List.mem_append.mp hsignal with hsignal | hsignal
        · exact h.receiver signal hsignal
        · obtain rfl := List.mem_singleton.mp hsignal
          exact hpushed
      · exact h.change ⟨rfl, rfl, rfl, rfl⟩ rfl h.receiver rfl
  | elapse host =>
    obtain ⟨rfl, rfl⟩ := Prod.mk.inj (Option.some.inj hstep)
    exact ⟨h.change (.refl _) rfl h.receiver rfl, id⟩
  | disconnect =>
    obtain ⟨rfl, rfl⟩ := Prod.mk.inj (Option.some.inj hstep)
    exact ⟨h.change ⟨rfl, rfl, rfl, rfl⟩ rfl h.receiver rfl, fun _ => rfl⟩
  | next =>
    unfold step at hstep
    dsimp only [Op.beside] at hstep
    split at hstep
    · obtain ⟨rfl, rfl⟩ := Prod.mk.inj (Option.some.inj hstep)
      exact ⟨h, id⟩
    · exact hcall hstep next_passes
  | resume =>
    unfold step at hstep
    dsimp only [Op.beside] at hstep
    split at hstep
    · exact hcall hstep recvLoop_passes
    · obtain ⟨rfl, rfl⟩ := Prod.mk.inj (Option.some.inj hstep)
      exact ⟨h, id⟩
  | abandon =>
    obtain ⟨rfl, rfl⟩ := Prod.mk.inj (Option.some.inj hstep)
    exact ⟨h.change ⟨rfl, rfl, rfl, rfl⟩ rfl h.receiver rfl, id⟩
  | pollReady => exact hcall hstep pollReady_passes
  | restore obs =>
    unfold step at hstep
    dsimp only [Op.beside] at hstep
    unfold FsBind.restoreReady at hstep
    split at hstep
    · next hrestored =>
      split at hrestored
      · obtain ⟨-, rfl⟩ := Prod.mk.inj hrestored
        obtain ⟨rfl, rfl⟩ := Prod.mk.inj (Option.some.inj hstep)
        exact ⟨h.change ⟨rfl, rfl, rfl, rfl⟩ rfl h.receiver rfl, id⟩
      · cases (Prod.mk.inj hrestored).1
    · next hrefused =>
      split at hrefused
      · cases (Prod.mk.inj hrefused).1
      · obtain ⟨-, rfl⟩ := Prod.mk.inj hrefused
        obtain ⟨rfl, rfl⟩ := Prod.mk.inj (Option.some.inj hstep)
        exact ⟨h.change (.refl _) rfl h.receiver rfl, id⟩
  | release =>
    obtain ⟨rfl, rfl⟩ := Prod.mk.inj (Option.some.inj hstep)
    exact ⟨h.change ⟨rfl, rfl, rfl, rfl⟩ rfl h.receiver rfl, id⟩

/-- **Every run** keeps the record. -/
theorem tellRun_recorded {ops : List (Op σ)} (h : Recorded env watched bind config)
    (hops : ∀ op ∈ ops, ∀ signal, op.signal? = some signal →
      watched signal ∨ config.site.bind.disconnected = true)
    (hrun : tellRun env ops config = some config') : Recorded env watched bind config' := by
  induction ops generalizing config with
  | nil =>
    obtain rfl := Option.some.inj hrun
    exact h
  | cons op ops ih =>
    obtain ⟨⟨answer, middle⟩, hstep, hrest⟩ := Option.bind_eq_some_iff.mp hrun
    obtain ⟨hmiddle, hclosed⟩ := step_recorded h (hops op List.mem_cons_self) hstep
    refine ih hmiddle (fun op hop signal hsignal => ?_) hrest
    exact (hops op (List.mem_cons_of_mem _ hop) signal hsignal).imp_right hclosed

end runs

/-! ## The start of a run -/

section starts

variable {env : Env σ} {observer : FsObserver} {registration : Registration} {counter : UInt64}
  {host : σ}

/-- The observer makes the same bind, and leaves the record as it is. -/
theorem bind_telling (env : Env σ) (observer : FsObserver) (registration : Registration)
    (counter : UInt64) (host : σ) (told : List (Told σ)) :
    observer.bind env.telling registration counter (host, told)
      = ((observer.bind env registration counter host).1,
        (observer.bind env registration counter host).2.1,
        (observer.bind env registration counter host).2.2, told) := by
  have hvalid : observer.validateRegistration env.telling (host, told) registration
      = observer.validateRegistration env host registration := rfl
  unfold FsObserver.bind
  rw [hvalid]
  cases observer.validateRegistration env host registration with
  | error terminal => rfl
  | ok resolved =>
    dsimp only
    by_cases hstarted : (env.start resolved.2.watchPaths host).1 = true
    · rw [if_pos hstarted]
      exact if_pos hstarted
    · rw [if_neg hstarted]
      exact if_neg hstarted

/-- A run with a record starts where the run does, with an empty record. -/
theorem start_erase (env : Env σ) (observer : FsObserver) (registration : Registration)
    (counter : UInt64) (host : σ) :
    (start env.telling observer registration counter (host, [])).erase
        = start env observer registration counter host ∧
      (start env.telling observer registration counter (host, [])).site.host.2 = [] := by
  unfold start
  rw [bind_telling]
  exact ⟨rfl, rfl⟩

/-- **A bind as the observer makes it**: its channel is empty, and closed unless the registration is
admitted and the native watch has started. -/
theorem start_cases (env : Env σ) (observer : FsObserver) (registration : Registration)
    (counter : UInt64) (host : σ) :
    (start env observer registration counter host).site.bind.receiver = [] ∧
      ((start env observer registration counter host).site.bind.disconnected = true ∨
        ∃ predicate target session,
          observer.validateRegistration env host registration = .ok (predicate, target) ∧
          (env.start target.watchPaths host).1 = true ∧
          (start env observer registration counter host).site.bind
            = FsBind.opened registration observer.root target predicate session) := by
  unfold start FsObserver.bind
  cases hvalid : observer.validateRegistration env host registration with
  | error terminal => exact ⟨rfl, .inl rfl⟩
  | ok resolved =>
    dsimp only
    split
    · next hstarted => exact ⟨rfl, .inr ⟨resolved.1, resolved.2, counter, rfl, hstarted, rfl⟩⟩
    · exact ⟨rfl, .inl rfl⟩

/-- What a registration that is admitted resolves to. -/
theorem validateRegistration_resolves {predicate : Predicate} {target : Target}
    (h : observer.validateRegistration env host registration = .ok (predicate, target)) :
    Predicate.parse registration.predicateRef = some predicate ∧
      Target.resolve env host observer.root registration.subjectId = some target := by
  unfold FsObserver.validateRegistration at h
  split at h
  · cases h
  split at h
  · cases h
  split at h
  · cases h
  split at h
  · cases h
  next predicate' hpredicate =>
  split at h
  · cases h
  next target' htarget =>
  obtain ⟨rfl, rfl⟩ := Prod.mk.inj (Except.ok.inj h)
  exact ⟨hpredicate, htarget⟩

end starts

/-- **A descriptor of a signalled event**, as a registration asks for it: its class is one the
predicate accepts, its size within the bound, and its entries spell exactly the locations of the
signalled paths, all inside the root, and at an exact leaf only those that are the leaf. -/
structure Describes (env : Env σ) (root : FsPath) (registration : Registration)
    (predicate : Predicate) (target : Target) (raw : BackendEvent) (told : Told σ) : Prop where
  eventClass : told.descriptor.eventClass = raw.eventClass
  accepted : predicate.accepts raw.eventClass = true
  bounded : told.descriptor.canonicalBytes.length ≤ registration.bounds.maxBytes
  safe : target.stillSafe env told.host root = true
  located : ∀ path ∈ raw.paths, ∃ loc, Location env told.host (root.under path) loc ∧
    loc.startsWith root = true
  nonempty : told.descriptor.paths ≠ []
  ordered : told.descriptor.paths.Pairwise (· < ·)
  entries : ∀ entry, entry ∈ told.descriptor.paths ↔ ∃ path ∈ raw.paths, ∃ loc,
    Location env told.host (root.under path) loc ∧ Names root entry loc ∧
      (target.exactLeaf = true → target.Is root (root.under path) loc)

/-- The descriptor of a signal that a bind watches for describes it. -/
theorem Watched.describes {env : Env σ} {root : FsPath} {registration : Registration}
    {predicate : Predicate} {target : Target} {session : UInt64} {raw : BackendEvent}
    {told : Told σ}
    (h : Watched env (FsBind.opened registration root target predicate session) raw told)
    (henv : env.CanonicalPaths told.host) (hroot : root.IsCanonical)
    (hcandidate : ∀ c, target.canonicalAtBind = some c → c = target.canonicalCandidate)
    (hpaths : ∀ path ∈ raw.paths, path.Ok) :
    Describes env root registration predicate target raw told := by
  have hsome : normalizePaths env told.host root target raw.paths
      = some told.descriptor.paths := h.paths
  -- a path outside the root would have refused the event
  have hlocated : ∀ path ∈ raw.paths, ∃ loc, Location env told.host (root.under path) loc ∧
      loc.startsWith root = true := by
    intro path hpath
    by_contra hout
    rw [normalizePaths_eq_none ⟨path, hpath, hout⟩] at hsome
    cases hsome
  obtain ⟨entries, heq, hordered, hentries⟩ :=
    normalizePaths_eq_some henv hroot hcandidate hpaths hlocated
  obtain rfl : entries = told.descriptor.paths := Option.some.inj (heq.symm.trans hsome)
  exact ⟨h.eventClass, h.accepted, h.bounded, h.safe, hlocated, h.nonempty, hordered, hentries⟩

/-- **What leaves the observer.** In every run of a bind over a filesystem that may change between
any two steps, the sink is given only descriptors of signalled events, as the registration asks for
them: of an accepted class, within the bound, of paths that all lie inside the root at that moment,
and at an exact leaf of that leaf alone. It is given nothing unless the registration is admitted and
the native watch has started, nor by a bind whose channel is closed from the start. Each minted
event has the digest of its own descriptor, in the order in which the sink got them. -/
theorem descriptors_watched {env : Env σ} (henv : ∀ host, env.CanonicalPaths host)
    {observer : FsObserver} (hroot : observer.root.IsCanonical) {registration : Registration}
    {counter : UInt64} {host : σ} {ops : List (Op σ)} {config' : Config σ}
    (hpaths : ∀ raw, .signal (.event raw) ∈ ops → ∀ path ∈ raw.paths, path.Ok)
    (hrun : run env ops (start env observer registration counter host) = some config') :
    ∃ told, tellRun env ops (start env.telling observer registration counter (host, []))
        = some ⟨⟨config'.site.bind, config'.site.host, told⟩, config'.log⟩ ∧
      (∀ t ∈ told, ∃ predicate target raw,
        observer.validateRegistration env host registration = .ok (predicate, target) ∧
        (env.start target.watchPaths host).1 = true ∧ .signal (.event raw) ∈ ops ∧
        Describes env observer.root registration predicate target raw t) ∧
      ((start env observer registration counter host).site.bind.disconnected = true → told = []) ∧
      (config'.log.minted.map fun event => event.payload.contentDigest).Sublist
        (told.map (Told.digest env)) := by
  obtain ⟨herase, hempty⟩ := start_erase env observer registration counter host
  have hsame := tellRun_erase env ops
    (start env.telling observer registration counter (host, []))
  rw [herase, hrun] at hsame
  obtain ⟨config, htell, rfl⟩ := Option.map_eq_some_iff.mp hsame
  have hbind : (start env.telling observer registration counter (host, [])).site.bind
      = (start env observer registration counter host).site.bind := by
    rw [← herase]
    rfl
  have hlog : (start env.telling observer registration counter (host, [])).log = ⟨[], []⟩ := rfl
  have hrecorded : ∀ watched : BackendSignal → Prop,
      (∀ op ∈ ops, ∀ signal, op.signal? = some signal → watched signal ∨
        (start env observer registration counter host).site.bind.disconnected = true) →
      Recorded env watched (start env observer registration counter host).site.bind config := by
    intro watched hops
    refine tellRun_recorded ?_ (hbind ▸ hops) htell
    refine { watch := ?_, registration := ?_, receiver := ?_, told := ?_, minted := ?_ }
    · rw [hbind]
      exact .refl _
    · rw [hbind]
    · rw [hbind, (start_cases env observer registration counter host).1]
      simp
    · rw [hempty]
      simp
    · rw [hlog, hempty]
      exact .slnil
  have hsilent : (start env observer registration counter host).site.bind.disconnected = true →
      config.site.host.2 = [] := by
    intro hclosed
    -- nothing comes through a closed channel
    refine List.eq_nil_iff_forall_not_mem.mpr fun t ht => ?_
    obtain ⟨raw, hno, -⟩ := (hrecorded (fun _ => False) fun _ _ _ _ => .inr hclosed).told t ht
    exact hno
  refine ⟨config.site.host.2, htell, ?_, hsilent, ?_⟩
  · rcases (start_cases env observer registration counter host).2 with
      hclosed | ⟨predicate, target, session, hvalid, hstarted, hopened⟩
    · rw [hsilent hclosed]
      simp
    · intro t ht
      have hkept := hrecorded (fun signal => .signal signal ∈ ops) (fun op hop signal hsignal => by
        cases op with
        | signal pushed =>
          obtain rfl := Option.some.inj hsignal
          exact .inl hop
        | _ => cases hsignal)
      obtain ⟨raw, hraw, hwatched⟩ := hkept.told t ht
      rw [hopened] at hwatched
      have hresolve := (validateRegistration_resolves hvalid).2
      exact ⟨predicate, target, raw, hvalid, hstarted, hraw, hwatched.describes (henv t.host) hroot
        (candidate_of_resolve hresolve) (hpaths raw hraw)⟩
  · exact (hrecorded (fun _ => True) fun _ _ _ _ => .inl trivial).minted

/-- A root with one file. -/
def leafEnv : Env Unit where
  canonicalize _ path :=
    if path ∈ [⟨true, ["srv"]⟩, ⟨true, ["srv", "a"]⟩] then some path else none
  pathExists _ path := path ∈ [⟨true, ["srv"]⟩, ⟨true, ["srv", "a"]⟩]
  isDir _ path := path = ⟨true, ["srv"]⟩
  start _ host := (true, host)
  materialize _ host := (.ok ⟨"ref:fs-test", ⟨.sha256, "digest"⟩, none⟩, host)
  now host := (⟨"2026-08-31T20:00:00Z", 1788206400000000000⟩, host)
  hexSha256 _ := "digest"

/-- An observer of that root. -/
def leafObserver : FsObserver := ⟨"source:fs", ⟨true, ["srv"]⟩, .localRoot⟩

/-- A registration for that file. -/
def leafRegistration : Registration := { anyRegistration with subjectId := "a" }

/-- The file changes, and one beside it. -/
def leafRun : List (Op Unit) :=
  [.signal (.event ⟨.write, [⟨true, ["srv", "b"]⟩, ⟨true, ["srv", "a"]⟩]⟩), .next]

/-- The paths that exist are canonical. -/
theorem leafEnv_canonical (host : Unit) : leafEnv.CanonicalPaths host := by
  have hfound : ∀ path c, leafEnv.canonicalize host path = some c →
      path = c ∧ path ∈ [FsPath.mk true ["srv"], ⟨true, ["srv", "a"]⟩] := by
    intro path c h
    unfold leafEnv at h
    dsimp only at h
    split at h
    · next hmem => exact ⟨Option.some.inj h, hmem⟩
    · cases h
  have hall : ∀ c ∈ [FsPath.mk true ["srv"], ⟨true, ["srv", "a"]⟩], c.absolute = true ∧
      ∀ name ∈ c.components, IsName name ∧ name ≠ ".." := by
    decide
  constructor
  · intro path c h
    obtain ⟨rfl, hmem⟩ := hfound path c h
    exact ⟨(hall path hmem).1, (hall path hmem).2⟩
  · intro path c h
    obtain ⟨rfl, -⟩ := hfound path c h
    exact h

/-- A bind to the file tells of the file alone. -/
theorem descriptors_watched_leaf :
    ∃ told : List (Told Unit), told.map (fun t => t.descriptor.paths) = [["a"]] ∧
      ∀ t ∈ told, ∃ target raw,
        Describes leafEnv leafObserver.root leafRegistration .any target raw t := by
  have hpaths : ∀ raw, .signal (.event raw) ∈ leafRun → ∀ path ∈ raw.paths, path.Ok := by
    intro raw hraw
    simp only [leafRun, List.mem_cons, Op.signal.injEq, BackendSignal.event.injEq, reduceCtorEq,
      List.not_mem_nil, or_false] at hraw
    rw [hraw]
    unfold FsPath.Ok
    decide
  have hdone : ((tellRun leafEnv leafRun
      (start leafEnv.telling leafObserver leafRegistration 1 ((), []))).map fun config =>
        config.site.host.2.map fun t => t.descriptor.paths) = some [["a"]] := by
    decide +kernel
  obtain ⟨config, htell, hone⟩ := Option.map_eq_some_iff.mp hdone
  have hrun := tellRun_erase leafEnv leafRun
    (start leafEnv.telling leafObserver leafRegistration 1 ((), []))
  rw [htell, (start_erase _ _ _ _ _).1] at hrun
  obtain ⟨told, htold, hall, -⟩ :=
    descriptors_watched leafEnv_canonical ⟨rfl, by decide⟩ hpaths hrun.symm
  have hsame : config.site.host.2 = told :=
    congrArg (fun after => after.site.host.2) (Option.some.inj (htell.symm.trans htold))
  refine ⟨told, hsame ▸ hone, fun t ht => ?_⟩
  obtain ⟨predicate, target, raw, hvalid, -, -, hdescribes⟩ := hall t ht
  obtain rfl : Predicate.any = predicate :=
    Option.some.inj (validateRegistration_resolves hvalid).1
  exact ⟨target, raw, hdescribes⟩

end Fs

end Waitprims
