import Mathlib
import Waitprims.Async.Observer
import Waitprims.Fs.Token

/-! # The filesystem observer

A bind watches one target under a configured root. The backend pushes signals into a bounded
channel; `next` and `poll_ready` take them, turn a matching one into an event, and drop a filtered
one. An event that was handed back waits in `restored`.

The filesystem, the sink that stores descriptors, the clock and the hash are outside: `Env` answers
for them over a host state `σ`. A suspended `next` keeps the channel until it is resumed or dropped.

* **`FsBind.processEvent`** — one backend event, with every path that mints nothing.
* **`FsBind.next`**, **`FsBind.pollReady`**, **`FsBind.restoreReady`** — the calls of a runner. -/

namespace Waitprims

namespace Fs

/-! ## Paths -/

/-- A path: whether it is absolute, and its components without `.`. A slash at the end is dropped, as
`Path` drops it between components, although `canonicalize` and `exists` see it. -/
structure FsPath where
  absolute : Bool
  components : List String
  deriving DecidableEq, Repr

namespace FsPath

/-- `Path::join`. -/
def join (path other : FsPath) : FsPath :=
  if other.absolute then other else ⟨path.absolute, path.components ++ other.components⟩

/-- `Path::parent`. -/
def parent (path : FsPath) : Option FsPath :=
  if path.components.isEmpty then none else some ⟨path.absolute, path.components.dropLast⟩

/-- `Path::file_name`. -/
def fileName (path : FsPath) : Option String :=
  path.components.getLast?.bind fun name => if name = ".." then none else some name

/-- `Path::starts_with`. -/
def startsWith (path base : FsPath) : Bool :=
  path.absolute == base.absolute && base.components.isPrefixOf path.components

/-- `Path::strip_prefix`. -/
def relativeTo (path base : FsPath) : Option FsPath :=
  if path.startsWith base then some ⟨false, path.components.drop base.components.length⟩ else none

/-- `portable_path`. -/
def portable (path : FsPath) : String :=
  if path.components.isEmpty then "."
  else "/".intercalate (path.components.filter fun name => name != "..")

end FsPath

/-! ## Descriptors -/

/-- Normalized filesystem event class. -/
inductive FileEventClass
  | create
  | write
  | remove
  | rename
  | ambiguous
  deriving DecidableEq, Repr

/-- The name of a class on the wire. -/
def FileEventClass.text : FileEventClass → String
  | .create => "create"
  | .write => "write"
  | .remove => "remove"
  | .rename => "rename"
  | .ambiguous => "ambiguous"

/-- Minimal descriptor materialized by a caller-owned sink. -/
structure EventDescriptor where
  eventClass : FileEventClass
  paths : List String
  deriving DecidableEq, Repr

/-- A hexadecimal digit. -/
def hexDigit (n : Nat) : Char := if n < 10 then Char.ofNat (48 + n) else Char.ofNat (87 + n)

/-- One character of a JSON text, as `serde_json` writes it. -/
def escapeChar (c : Char) : List Char :=
  if c = '"' then ['\\', '"']
  else if c = '\\' then ['\\', '\\']
  else if c.toNat = 8 then ['\\', 'b']
  else if c.toNat = 9 then ['\\', 't']
  else if c.toNat = 10 then ['\\', 'n']
  else if c.toNat = 12 then ['\\', 'f']
  else if c.toNat = 13 then ['\\', 'r']
  else if c.toNat < 32 then ['\\', 'u', '0', '0', hexDigit (c.toNat / 16), hexDigit (c.toNat % 16)]
  else [c]

/-- A text in quotes. -/
def quoted (text : String) : String :=
  "\"" ++ String.ofList (text.toList.flatMap escapeChar) ++ "\""

/-- `canonical_bytes`: the descriptor as compact JSON. -/
def EventDescriptor.canonicalBytes (descriptor : EventDescriptor) : List UInt8 :=
  textBytes ("\x7b\"class\":" ++ quoted descriptor.eventClass.text ++ ",\"paths\":[" ++
    ",".intercalate (descriptor.paths.map quoted) ++ "]\x7d")

/-! ## Predicates and targets -/

/-- What a registration watches for. -/
inductive Predicate
  | create
  | write
  | remove
  | rename
  | any
  deriving DecidableEq, Repr

/-- `Predicate::parse`. -/
def Predicate.parse (value : String) : Option Predicate :=
  if value = "pred:file-create" then some .create
  else if value = "pred:file-write" then some .write
  else if value = "pred:file-remove" then some .remove
  else if value = "pred:file-rename" then some .rename
  else if value = "pred:file-any" then some .any
  else none

/-- `Predicate::matches`. -/
def Predicate.accepts : Predicate → FileEventClass → Bool
  | .any, _ => true
  | .create, .create | .write, .write | .remove, .remove | .rename, .rename => true
  | _, _ => false

/-- The target of a registration, as it was resolved at bind. -/
structure Target where
  relative : FsPath
  watchPaths : List FsPath
  canonicalAtBind : Option FsPath
  canonicalCandidate : FsPath
  containerLogical : FsPath
  containerCanonical : FsPath
  exactLeaf : Bool
  deriving DecidableEq, Repr

/-- What lies outside a bind. -/
structure Env (σ : Type) where
  /-- `std::fs::canonicalize`. -/
  canonicalize : σ → FsPath → Option FsPath
  /-- `Path::exists`. -/
  pathExists : σ → FsPath → Bool
  /-- `Path::is_dir`. -/
  isDir : σ → FsPath → Bool
  /-- `BackendFactory::start` on some paths: whether the watch started. -/
  start : List FsPath → σ → Bool × σ
  /-- `EventRefSink::materialize`. -/
  materialize : EventDescriptor → σ → Except Error PayloadRef × σ
  /-- `EventClock::now`. -/
  now : σ → Timestamp × σ
  /-- SHA-256 in lowercase hexadecimal. -/
  hexSha256 : List UInt8 → String

variable {σ : Type}

/-- `Target::inert`. -/
def Target.inert : Target :=
  ⟨⟨false, []⟩, [], none, ⟨false, []⟩, ⟨false, []⟩, ⟨false, []⟩, false⟩

/-- `parse_portable_relative`. -/
def parsePortableRelative (subject : String) : Option FsPath :=
  if subject.isEmpty || subject.toList.head? == some '/' || subject.toList.contains '\\'
      || (textBytes subject)[1]? == some ':'.toUInt8 then none
  else
    let parts := (subject.toList.splitOn '/').map String.ofList
    let components := parts.filter fun name => name != "" && name != "."
    if components.contains ".." then none else some ⟨false, components⟩

/-- `Target::resolve`. -/
def Target.resolve (env : Env σ) (host : σ) (root : FsPath) (subject : String) : Option Target := do
  let relative ← parsePortableRelative subject
  let logical := root.join relative
  let target ← match env.canonicalize host logical with
    | some canonical => do
      if !canonical.startsWith root then none
      else if env.isDir host canonical then
        let containerLogical := if logical = root then root else logical.parent.getD root
        let containerCanonical ← env.canonicalize host containerLogical
        some (Target.mk relative [canonical] (some canonical) canonical containerLogical
          containerCanonical false)
      else
        let logicalParent ← logical.parent
        let canonicalParent ← env.canonicalize host logicalParent
        some (Target.mk relative [canonical, canonicalParent] (some canonical) canonical
          logicalParent canonicalParent true)
    | none => do
      let parent ← logical.parent
      let canonicalParent ← env.canonicalize host parent
      if !canonicalParent.startsWith root then none
      else
        let name ← logical.fileName
        some (Target.mk relative [canonicalParent] none (canonicalParent.join ⟨false, [name]⟩)
          parent canonicalParent true)
  if !target.containerCanonical.startsWith root then none else some target

/-- `Target::still_safe`. -/
def Target.stillSafe (env : Env σ) (host : σ) (target : Target) (root : FsPath) : Bool :=
  if env.canonicalize host target.containerLogical != some target.containerCanonical then false
  else
    let logical := root.join target.relative
    match target.canonicalAtBind, env.canonicalize host logical with
    | some expected, some current => current == expected && current.startsWith root
    | some _, none => true
    | none, some current => current.startsWith root
    | none, none =>
      (logical.parent.bind (env.canonicalize host)).any fun parent => parent.startsWith root

/-- The canonical form of a reported path; a path that is gone is placed under its parent. -/
def safeAbsolute (env : Env σ) (host : σ) (absolute : FsPath) : Option FsPath :=
  if env.pathExists host absolute then env.canonicalize host absolute
  else do
    let canonicalParent ← env.canonicalize host (← absolute.parent)
    let name ← absolute.fileName
    return canonicalParent.join ⟨false, [name]⟩

/-- A reported path is the watched leaf. -/
def Target.isLeaf (target : Target) (root absolute safe : FsPath) : Bool :=
  let logical := root.join target.relative
  absolute == logical || safe == logical || safe == target.canonicalCandidate
    || target.canonicalAtBind == some safe

/-- One reported path: `none` outside the root, `some none` beside an exact leaf. -/
def normalizePath (env : Env σ) (host : σ) (root : FsPath) (target : Target) (path : FsPath) :
    Option (Option String) := do
  let absolute := if path.absolute then path else root.join path
  let safe ← safeAbsolute env host absolute
  if !safe.startsWith root then none
  else if target.exactLeaf && !target.isLeaf root absolute safe then return none
  else
    let relative ← safe.relativeTo root
    return some relative.portable

/-- `normalize_paths`: sorted, without repetitions. -/
def normalizePaths (env : Env σ) (host : σ) (root : FsPath) (target : Target)
    (paths : List FsPath) : Option (List String) := do
  let normalized ← paths.mapM (normalizePath env host root target)
  return ((normalized.filterMap id).insertionSort fun a b => a ≤ b).destutter (· ≠ ·)

/-! ## Signals and binds -/

/-- An event of the backend. -/
structure BackendEvent where
  eventClass : FileEventClass
  paths : List FsPath
  deriving DecidableEq, Repr

/-- What the backend pushes into the channel. -/
inductive BackendSignal
  | event (raw : BackendEvent)
  | rescan
  | failed
  deriving DecidableEq, Repr

/-- The handle of one registration. -/
structure FsBind where
  registration : Registration
  resolvedStart : Anchor
  root : FsPath
  target : Target
  predicate : Predicate
  session : UInt64
  sequence : UInt64
  currentAnchor : Anchor
  /-- Signals in the channel, and how many it holds. -/
  receiver : List BackendSignal
  capacity : Nat
  /-- Every sender of the channel is gone. -/
  disconnected : Bool
  restored : List Observation
  overflowed : Bool
  released : Bool
  terminal : Option Observation
  /-- A suspended `next` holds the receiver. -/
  waiting : Bool
  deriving DecidableEq

/-- A failed observation. -/
def failed (reason : String) : Observation := .failed reason

namespace FsBind

/-- `with_capacity`: the bound of a channel. -/
def channelCapacity (maxEvents : Nat) : Nat := max 1 (min maxEvents 65536)

/-- A bind whose watch has started. -/
def opened (registration : Registration) (root : FsPath) (target : Target) (predicate : Predicate)
    (session : UInt64) : FsBind where
  registration := registration
  resolvedStart := anchor session 0
  root := root
  target := target
  predicate := predicate
  session := session
  sequence := 0
  currentAnchor := anchor session 0
  receiver := []
  capacity := channelCapacity registration.bounds.maxEvents
  disconnected := false
  restored := []
  overflowed := false
  released := false
  terminal := none
  waiting := false

/-- `inert`: a bind that only answers its terminal observation. -/
def inert (registration : Registration) (root : FsPath) (session : UInt64)
    (terminal : Observation) : FsBind where
  registration := registration
  resolvedStart := anchor session 0
  root := root
  target := Target.inert
  predicate := .any
  session := session
  sequence := 0
  currentAnchor := anchor session 0
  receiver := []
  capacity := 1
  disconnected := true
  restored := []
  overflowed := false
  released := false
  terminal := some terminal
  waiting := false

/-- The callback of the backend: a signal that does not fit is remembered as an overflow. -/
def callback (bind : FsBind) (signal : BackendSignal) : FsBind :=
  if bind.receiver.length < bind.capacity then
    { bind with receiver := bind.receiver ++ [signal] }
  else { bind with overflowed := true }

/-- `owns`: an event of this session, with its own tokens. -/
def owns (bind : FsBind) : Observation → Bool
  | .event event =>
    match fsTokenSequence event.eventId "evt:fs" bind.session with
    | none => false
    | some sequence =>
      event.registrationId == bind.registration.registrationId
        && event.sourceInstanceRef == bind.registration.sourceInstanceRef
        && event.methodId == bind.registration.methodId
        && event.subjectKind == bind.registration.subjectKind
        && event.subjectId == bind.registration.subjectId
        && fsTokenSequence event.correlationId "cor:fs" bind.session == some sequence
        && event.startAnchor.kind == .providerOpaque
        && fsTokenSequence event.startAnchor.value "anc:fs" bind.session
          == (if sequence = 0 then none else some (sequence - 1))
        && event.proposedNextAnchor.kind == .providerOpaque
        && fsTokenSequence event.proposedNextAnchor.value "anc:fs" bind.session == some sequence
  | _ => false

/-- `restore_ready`. -/
def restoreReady (bind : FsBind) (obs : Observation) : Except Error Unit × FsBind :=
  if bind.owns obs then (.ok (), { bind with restored := obs :: bind.restored })
  else (.error (validationError "/observer/restore_ready" "cross_bind_restore"), bind)

/-- `immediate`. -/
def immediate (bind : FsBind) : Option Observation × FsBind :=
  if bind.released then (some (failed "fs_bind_released"), bind)
  else match bind.restored with
    | obs :: rest => (some obs, { bind with restored := rest })
    | [] =>
      if bind.overflowed then (some .overflow, { bind with overflowed := false })
      else (bind.terminal, { bind with terminal := none })

/-- The event a bind mints next. -/
def mintedEvent (bind : FsBind) (sequence : UInt64) (payload : PayloadRef) (now : Timestamp) :
    WaitEvent where
  eventId := fsToken "evt:fs" bind.session sequence
  registrationId := bind.registration.registrationId
  sourceInstanceRef := bind.registration.sourceInstanceRef
  methodId := bind.registration.methodId
  subjectKind := bind.registration.subjectKind
  subjectId := bind.registration.subjectId
  occurredAt := now
  observedAt := now
  startAnchor := bind.currentAnchor
  proposedNextAnchor := anchor bind.session sequence
  replayStatus := .fresh
  correlationId := fsToken "cor:fs" bind.session sequence
  causationId := none
  payload := payload
  deliveryRef := none
  activationRef := none

end FsBind

/-! ## The observer -/

/-- Declared posture of the configured watch root. -/
inductive FilesystemPosture
  | localRoot
  | network
  | unknown
  deriving DecidableEq, Repr

/-- An observer bound to one root. -/
structure FsObserver where
  sourceInstanceRef : OpaqueRef
  root : FsPath
  posture : FilesystemPosture

namespace FsObserver

/-- `validate_registration`: the predicate and the target, or what the bind answers instead. -/
def validateRegistration (env : Env σ) (host : σ) (observer : FsObserver)
    (registration : Registration) : Except Observation (Predicate × Target) :=
  if registration.methodId ≠ "file_watch" || registration.subjectKind ≠ "path"
      || registration.sourceInstanceRef ≠ observer.sourceInstanceRef then
    .error (failed "fs_invalid_registration")
  else if registration.startAnchor.isSome || registration.baselinePolicy ≠ some .latest then
    .error (.cursorUncertain "fs_cross_bind_cursor_unsupported")
  else if observer.posture ≠ .localRoot then .error (.degraded "fs_unsupported_filesystem")
  else match Predicate.parse registration.predicateRef with
    | none => .error (failed "fs_invalid_registration")
    | some predicate =>
      match Target.resolve env host observer.root registration.subjectId with
      | none => .error (failed "fs_path_uncertain")
      | some target => .ok (predicate, target)

/-- `bind`: `counter` is the process-wide session sequence. -/
def bind (env : Env σ) (observer : FsObserver) (registration : Registration) (counter : UInt64)
    (host : σ) : FsBind × UInt64 × σ :=
  match observer.validateRegistration env host registration with
  | .error terminal => (FsBind.inert registration observer.root counter terminal, counter + 1, host)
  | .ok (predicate, target) =>
    let (started, host) := env.start target.watchPaths host
    if started then
      (FsBind.opened registration observer.root target predicate counter, counter + 1, host)
    else
      (FsBind.inert registration observer.root (counter + 1) (failed "fs_native_watch_failed"),
        counter + 2, host)

end FsObserver

/-! ## Calls -/

/-- A bind and what lies outside it. -/
structure Site (σ : Type) where
  bind : FsBind
  host : σ

namespace FsBind

/-- Mint an event. The sum `fetch_add(1) + 1` is a checked one: it panics past the last `u64`. -/
def mint (env : Env σ) (payload : PayloadRef) (site : Site σ) :
    Option (Option Observation × Site σ) :=
  if site.bind.sequence.toNat + 1 < 2 ^ 64 then
    let bind := site.bind
    let sequence := bind.sequence + 1
    let (now, host) := env.now site.host
    some (some (.event (bind.mintedEvent sequence payload now)),
      ⟨{ bind with sequence := sequence, currentAnchor := anchor bind.session sequence }, host⟩)
  else none

/-- `process_event`: `none` is a panic, `some (none, _)` a filtered event. -/
def processEvent (env : Env σ) (raw : BackendEvent) (site : Site σ) :
    Option (Option Observation × Site σ) :=
  let bind := site.bind
  if !bind.target.stillSafe env site.host bind.root then some (some (failed "fs_path_uncertain"), site)
  else match normalizePaths env site.host bind.root bind.target raw.paths with
    | none => some (some (failed "fs_path_uncertain"), site)
    | some [] => some (none, site)
    | some paths =>
      if raw.eventClass = .ambiguous && bind.predicate ≠ .any then
        some (some (.degraded "fs_ambiguous_event_class"), site)
      else if !bind.predicate.accepts raw.eventClass then some (none, site)
      else
        let descriptor : EventDescriptor := ⟨raw.eventClass, paths⟩
        if descriptor.canonicalBytes.length > bind.registration.bounds.maxBytes then
          some (some .overflow, site)
        else
          let (stored, host) := env.materialize descriptor site.host
          match stored with
          | .error _ => some (some (failed "fs_event_ref_sink_failed"), ⟨bind, host⟩)
          | .ok payload =>
            if payload.contentDigest.algorithm ≠ .sha256 ||
                payload.contentDigest.value ≠ env.hexSha256 descriptor.canonicalBytes then
              some (some (failed "fs_event_ref_digest_mismatch"), ⟨bind, host⟩)
            else mint env payload ⟨bind, host⟩

/-- `process`. -/
def process (env : Env σ) (signal : BackendSignal) (site : Site σ) :
    Option (Option Observation × Site σ) :=
  if site.bind.released then some (some (failed "fs_bind_released"), site)
  else match signal with
    | .rescan => some (some (.cursorUncertain "fs_rescan_required"), site)
    | .failed => some (some (failed "fs_native_watch_failed"), site)
    | .event raw => processEvent env raw site

/-- The loop of `next` from `recv` on, over the signals of the channel. An empty channel suspends
the call, or ends it if nothing can come any more. -/
def recvLoop (env : Env σ) : List BackendSignal → Site σ → Option (Option Observation × Site σ)
  | [], site =>
    if site.bind.disconnected then
      some (some (failed "fs_native_watch_failed"), ⟨{ site.bind with waiting := false }, site.host⟩)
    else some (none, ⟨{ site.bind with waiting := true }, site.host⟩)
  | signal :: rest, site =>
    match process env signal ⟨{ site.bind with receiver := rest, waiting := false }, site.host⟩ with
    | none => none
    | some (some obs, site) => some (some obs, site)
    | some (none, site) =>
      match site.bind.immediate with
      | (some obs, bind) => some (some obs, ⟨bind, site.host⟩)
      | (none, bind) => recvLoop env rest ⟨bind, site.host⟩

/-- A call of `next`, polled until it returns or suspends. -/
def next (env : Env σ) (site : Site σ) : Option (Option Observation × Site σ) :=
  match site.bind.immediate with
  | (some obs, bind) => some (some obs, ⟨bind, site.host⟩)
  | (none, bind) => recvLoop env bind.receiver ⟨bind, site.host⟩

/-- A suspended `next` is polled again. -/
def resume (env : Env σ) (site : Site σ) : Option (Option Observation × Site σ) :=
  recvLoop env site.bind.receiver site

/-- The loop of `poll_ready` over the signals of the channel. -/
def tryRecvLoop (env : Env σ) : List BackendSignal → Site σ → Option (Option Observation × Site σ)
  | [], site => some (none, site)
  | signal :: rest, site =>
    match process env signal ⟨{ site.bind with receiver := rest }, site.host⟩ with
    | none => none
    | some (some obs, site) => some (some obs, site)
    | some (none, site) => tryRecvLoop env rest site

/-- A call of `poll_ready`: it gives up where a suspended `next` holds the receiver. -/
def pollReady (env : Env σ) (site : Site σ) : Option (Option Observation × Site σ) :=
  match site.bind.immediate with
  | (some obs, bind) => some (some obs, ⟨bind, site.host⟩)
  | (none, bind) =>
    if bind.waiting then some (none, ⟨bind, site.host⟩)
    else tryRecvLoop env bind.receiver ⟨bind, site.host⟩

/-- `release`. The dropped watch may keep its sender for a while. -/
def release (bind : FsBind) : FsBind := { bind with released := true }

end FsBind

end Fs

end Waitprims
