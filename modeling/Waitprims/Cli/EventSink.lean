import Mathlib
import Waitprims.Async.Budget
import Waitprims.Fs.Bind
import Waitprims.Lib.TreeMap

/-! # The descriptor store of the command line

`waitprims watch` gives its observer a sink that stores each descriptor under a fresh reference,
within the limits of the registration set. A call takes its number from an atomic counter and enters
the store under a lock afterwards, so calls of several threads may pass each other in between.

* **`CliEventSink.reserve`**, **`CliEventSink.commit`** — the two atomic parts of `materialize`.
* **`Calls`**, **`step`** — the calls that are under way and those that were answered.
* **`Sound`** — the invariant; **`store_sound`** — what it says of every interleaving. -/

namespace Waitprims

namespace Cli

open Fs (EventDescriptor)
open TreeMap (collectMap)

/-! ## The sink -/

/-- The descriptors that were stored, and their bytes in total. -/
structure CliDescriptorStore where
  bytes : Nat
  entries : BTreeMap String (List UInt8)

/-- The sink: its counter, its store, its limits, and whether it ever refused. -/
structure CliEventSink where
  next : UInt64
  descriptors : CliDescriptorStore
  maxEvents : Nat
  maxBytes : Nat
  failed : Bool

/-- The reference of a sequence number. -/
def payloadRefText (sequence : UInt64) : String := "ref:fs-cli-" ++ toString sequence.toNat

/-- The payload of a stored descriptor. -/
def payloadOf (hexSha256 : List UInt8 → String) (sequence : UInt64)
    (descriptor : EventDescriptor) : PayloadRef :=
  ⟨payloadRefText sequence, ⟨.sha256, hexSha256 descriptor.canonicalBytes⟩, some "application/json"⟩

namespace CliEventSink

/-- `CliEventSink::new`. -/
def new (maxEvents maxBytes : Nat) : CliEventSink := ⟨0, ⟨0, ∅⟩, maxEvents, maxBytes, false⟩

/-- `fetch_add(1) + 1`: the number of a call. The sum is a checked one: it panics past the last
`u64`. -/
def reserve (sink : CliEventSink) : Option (UInt64 × CliEventSink) :=
  if sink.next.toNat + 1 < 2 ^ 64 then some (sink.next + 1, { sink with next := sink.next + 1 })
  else none

/-- What `materialize` does under the lock of the store. -/
def commit (hexSha256 : List UInt8 → String) (sink : CliEventSink) (sequence : UInt64)
    (descriptor : EventDescriptor) : Except Error PayloadRef × CliEventSink :=
  let bytes := descriptor.canonicalBytes
  let nextBytes := saturatingAdd sink.descriptors.bytes bytes.length
  if sequence.toNat > sink.maxEvents ∨ nextBytes > sink.maxBytes then
    (.error (validationError "/event_ref_sink" "capacity_exhausted"), { sink with failed := true })
  else
    (.ok (payloadOf hexSha256 sequence descriptor),
      { sink with descriptors :=
          ⟨nextBytes, sink.descriptors.entries.insert (payloadRefText sequence) bytes⟩ })

end CliEventSink

/-! ## Calls that interleave -/

/-- A call that was answered. -/
structure Answer where
  sequence : UInt64
  descriptor : EventDescriptor
  result : Except Error PayloadRef

/-- The sink, the calls that hold a number and wait for the lock, and the answered ones. -/
structure Calls where
  sink : CliEventSink
  pending : List (UInt64 × EventDescriptor)
  answers : List Answer

/-- A call starts, or one of the pending calls gets the lock. -/
inductive Move
  | call (descriptor : EventDescriptor)
  | commit (idx : Nat)

/-- **One atomic step**; `none` is a panic. -/
def step (hexSha256 : List UInt8 → String) : Move → Calls → Option Calls
  | .call descriptor, calls =>
    calls.sink.reserve.map fun r =>
      { calls with sink := r.2, pending := calls.pending ++ [(r.1, descriptor)] }
  | .commit idx, calls =>
    match calls.pending[idx]? with
    | none => some calls
    | some (sequence, descriptor) =>
      let (result, sink) := calls.sink.commit hexSha256 sequence descriptor
      some ⟨sink, calls.pending.eraseIdx idx, calls.answers ++ [⟨sequence, descriptor, result⟩]⟩

/-- **A run** of interleaved calls. -/
def run (hexSha256 : List UInt8 → String) : List Move → Calls → Option Calls
  | [], calls => some calls
  | move :: moves, calls => (step hexSha256 move calls).bind (run hexSha256 moves)

/-- Before the first call. -/
def start (maxEvents maxBytes : Nat) : Calls := ⟨.new maxEvents maxBytes, [], []⟩

/-- The descriptor a move brings in. -/
def Move.descriptor? : Move → Option EventDescriptor
  | .call descriptor => some descriptor
  | .commit _ => none

/-- Whether a call was granted a reference. -/
def Answer.granted (answer : Answer) : Bool := answer.result.isOk

/-- The length of a descriptor as it is stored. -/
def size (descriptor : EventDescriptor) : Nat := descriptor.canonicalBytes.length

/-- The entry of a granted call. -/
def Answer.entry (answer : Answer) : String × List UInt8 :=
  (payloadRefText answer.sequence, answer.descriptor.canonicalBytes)

namespace Calls

/-- The granted calls, in the order in which they got the lock. -/
def granted (calls : Calls) : List Answer := calls.answers.filter Answer.granted

/-- The bytes of the granted calls. -/
def grantedBytes (calls : Calls) : Nat := (calls.granted.map fun a => size a.descriptor).sum

/-- Every call so far: its number and its descriptor. -/
def all (calls : Calls) : List (UInt64 × EventDescriptor) :=
  calls.answers.map (fun a => (a.sequence, a.descriptor)) ++ calls.pending

end Calls

/-! ## The invariant -/

/-- The calls of a list of descriptors, numbered from one in the order in which they started. -/
def numbered (brought : List EventDescriptor) : List (UInt64 × EventDescriptor) :=
  brought.zipIdx.map fun p => (UInt64.ofNat (p.2 + 1), p.1)

/-- **What holds between two steps**, after the calls of `brought` have started. -/
structure Sound (hexSha256 : List UInt8 → String) (maxEvents maxBytes : Nat)
    (brought : List EventDescriptor) (calls : Calls) : Prop where
  eventLimit : calls.sink.maxEvents = maxEvents
  byteLimit : calls.sink.maxBytes = maxBytes
  next : calls.sink.next.toNat = brought.length
  all : calls.all.Perm (numbered brought)
  results : ∀ a ∈ calls.granted, a.result = .ok (payloadOf hexSha256 a.sequence a.descriptor)
  events : ∀ a ∈ calls.granted, a.sequence.toNat ≤ maxEvents
  refused : ∀ a ∈ calls.answers, a.granted = false → maxEvents < a.sequence.toNat ∨
    maxBytes < saturatingAdd calls.sink.descriptors.bytes (size a.descriptor)
  entries : calls.sink.descriptors.entries = collectMap (calls.granted.map Answer.entry)
  bytes : calls.sink.descriptors.bytes = min calls.grantedBytes u64Max
  bytes_le : calls.sink.descriptors.bytes ≤ maxBytes
  failed : calls.sink.failed = calls.answers.any fun a => !a.granted

section invariant

variable {hexSha256 : List UInt8 → String} {maxEvents maxBytes : Nat}
  {brought : List EventDescriptor} {calls calls' : Calls} {descriptor : EventDescriptor}

theorem start_sound : Sound hexSha256 maxEvents maxBytes [] (start maxEvents maxBytes) where
  eventLimit := rfl
  byteLimit := rfl
  next := rfl
  all := .refl _
  results := by simp [Calls.granted, start]
  events := by simp [Calls.granted, start]
  refused := by simp [start]
  entries := rfl
  bytes := rfl
  bytes_le := Nat.zero_le _
  failed := rfl

theorem numbered_snoc (brought : List EventDescriptor) (descriptor : EventDescriptor) :
    numbered (brought ++ [descriptor])
      = numbered brought ++ [(UInt64.ofNat (brought.length + 1), descriptor)] := by
  simp [numbered, List.zipIdx_append]

/-- **A call starts.** -/
theorem Sound.call (descriptor : EventDescriptor)
    (h : Sound hexSha256 maxEvents maxBytes brought calls)
    (hroom : brought.length + 1 < 2 ^ 64) :
    ∃ calls', step hexSha256 (.call descriptor) calls = some calls' ∧
      Sound hexSha256 maxEvents maxBytes (brought ++ [descriptor]) calls' := by
  have hnext : calls.sink.next + 1 = UInt64.ofNat (brought.length + 1) := by
    rw [← h.next, UInt64.ofNat_add, UInt64.ofNat_toNat]
    rfl
  have hreserve : calls.sink.reserve
      = some (calls.sink.next + 1, { calls.sink with next := calls.sink.next + 1 }) := by
    rw [CliEventSink.reserve, if_pos (by rwa [h.next])]
  refine ⟨_, by rw [step, hreserve, Option.map_some], ?_⟩
  exact {
    eventLimit := h.eventLimit
    byteLimit := h.byteLimit
    next := by
      show (calls.sink.next + 1).toNat = _
      rw [hnext, UInt64.toNat_ofNat_of_lt' (by simpa using hroom), List.length_append]
      rfl
    all := by
      show (_ ++ (calls.pending ++ [(calls.sink.next + 1, descriptor)])).Perm _
      rw [numbered_snoc, hnext, ← List.append_assoc]
      exact h.all.append_right _
    results := h.results
    events := h.events
    refused := h.refused
    entries := h.entries
    bytes := h.bytes
    bytes_le := h.bytes_le
    failed := h.failed }

/-- A pending call that is answered stays among all calls. -/
theorem all_commit {idx : Nat} {sequence : UInt64} {result : Except Error PayloadRef}
    {sink : CliEventSink} (hpending : calls.pending[idx]? = some (sequence, descriptor)) :
    (Calls.all ⟨sink, calls.pending.eraseIdx idx,
      calls.answers ++ [⟨sequence, descriptor, result⟩]⟩).Perm calls.all := by
  obtain ⟨hidx, hget⟩ := List.getElem?_eq_some_iff.mp hpending
  have hperm := List.getElem_cons_eraseIdx_perm hidx
  rw [hget] at hperm
  show (List.map _ (calls.answers ++ [_]) ++ calls.pending.eraseIdx idx).Perm _
  rw [List.map_append, List.append_assoc]
  exact hperm.append_left _

/-- The bytes after one more granted call. -/
theorem saturatingAdd_min (a b : Nat) : saturatingAdd (min a u64Max) b = min (a + b) u64Max := by
  unfold saturatingAdd
  omega

theorem saturatingAdd_mono {a b c : Nat} (h : a ≤ b) : saturatingAdd a c ≤ saturatingAdd b c := by
  unfold saturatingAdd
  omega

/-- The bytes do not shrink. -/
theorem Sound.bytes_grow (h : Sound hexSha256 maxEvents maxBytes brought calls)
    (descriptor : EventDescriptor) :
    calls.sink.descriptors.bytes
      ≤ saturatingAdd calls.sink.descriptors.bytes (size descriptor) := by
  rw [h.bytes, saturatingAdd_min]
  omega

/-- One more refused call. -/
theorem granted_refused {sink : CliEventSink} {pending : List (UInt64 × EventDescriptor)}
    {sequence : UInt64} {err : Error} :
    Calls.granted ⟨sink, pending, calls.answers ++ [⟨sequence, descriptor, .error err⟩]⟩
      = calls.granted := by
  simp [Calls.granted, Answer.granted, Except.isOk, Except.toBool]

/-- One more granted call. -/
theorem granted_granted {sink : CliEventSink} {pending : List (UInt64 × EventDescriptor)}
    {sequence : UInt64} {payload : PayloadRef} :
    Calls.granted ⟨sink, pending, calls.answers ++ [⟨sequence, descriptor, .ok payload⟩]⟩
      = calls.granted ++ [⟨sequence, descriptor, .ok payload⟩] := by
  simp [Calls.granted, Answer.granted, Except.isOk, Except.toBool]

/-- **A call is refused**: the store is as it was. -/
theorem Sound.refuse (h : Sound hexSha256 maxEvents maxBytes brought calls) {idx : Nat}
    {sequence : UInt64} {err : Error}
    (hpending : calls.pending[idx]? = some (sequence, descriptor))
    (hfull : maxEvents < sequence.toNat ∨
      maxBytes < saturatingAdd calls.sink.descriptors.bytes (size descriptor)) :
    Sound hexSha256 maxEvents maxBytes brought ⟨{ calls.sink with failed := true },
      calls.pending.eraseIdx idx, calls.answers ++ [⟨sequence, descriptor, .error err⟩]⟩ where
  eventLimit := h.eventLimit
  byteLimit := h.byteLimit
  next := h.next
  all := (all_commit hpending).trans h.all
  results := by
    rw [granted_refused]
    exact h.results
  events := by
    rw [granted_refused]
    exact h.events
  refused := by
    intro a ha hrefused
    rcases List.mem_append.mp ha with ha | ha
    · exact h.refused a ha hrefused
    · obtain rfl := List.mem_singleton.mp ha
      exact hfull
  entries := by
    rw [granted_refused]
    exact h.entries
  bytes := by
    rw [Calls.grantedBytes, granted_refused]
    exact h.bytes
  bytes_le := h.bytes_le
  failed := by simp [Answer.granted, Except.isOk, Except.toBool]

/-- **A call is granted a reference**: its descriptor is stored under it. -/
theorem Sound.grant (h : Sound hexSha256 maxEvents maxBytes brought calls) {idx : Nat}
    {sequence : UInt64} (hpending : calls.pending[idx]? = some (sequence, descriptor))
    (hevents : sequence.toNat ≤ maxEvents)
    (hbytes : saturatingAdd calls.sink.descriptors.bytes (size descriptor) ≤ maxBytes) :
    Sound hexSha256 maxEvents maxBytes brought ⟨{ calls.sink with descriptors :=
        ⟨saturatingAdd calls.sink.descriptors.bytes (size descriptor),
          calls.sink.descriptors.entries.insert (payloadRefText sequence)
            descriptor.canonicalBytes⟩ },
      calls.pending.eraseIdx idx, calls.answers ++
        [⟨sequence, descriptor, .ok (payloadOf hexSha256 sequence descriptor)⟩]⟩ where
  eventLimit := by exact h.eventLimit
  byteLimit := h.byteLimit
  next := h.next
  all := (all_commit hpending).trans h.all
  results := by
    rw [granted_granted]
    intro a ha
    rcases List.mem_append.mp ha with ha | ha
    · exact h.results a ha
    · obtain rfl := List.mem_singleton.mp ha
      rfl
  events := by
    rw [granted_granted]
    intro a ha
    rcases List.mem_append.mp ha with ha | ha
    · exact h.events a ha
    · obtain rfl := List.mem_singleton.mp ha
      exact hevents
  refused := by
    intro a ha hrefused
    rcases List.mem_append.mp ha with ha | ha
    · -- the store only grows, so an older refusal stands
      exact (h.refused a ha hrefused).imp_right fun hlt =>
        lt_of_lt_of_le hlt (saturatingAdd_mono (h.bytes_grow descriptor))
    · obtain rfl := List.mem_singleton.mp ha
      cases hrefused
  entries := by
    rw [granted_granted, List.map_append]
    show calls.sink.descriptors.entries.insert _ _ = _
    rw [h.entries]
    simp [collectMap, Answer.entry]
  bytes := by
    rw [Calls.grantedBytes, granted_granted, List.map_append, List.sum_append]
    show saturatingAdd calls.sink.descriptors.bytes (size descriptor) = _
    rw [h.bytes, saturatingAdd_min, Calls.grantedBytes, List.map_singleton, List.sum_singleton]
  bytes_le := hbytes
  failed := by
    rw [List.any_append, ← h.failed]
    simp [Answer.granted, Except.isOk, Except.toBool]

/-- **A call gets the lock.** -/
theorem Sound.commit (h : Sound hexSha256 maxEvents maxBytes brought calls) (idx : Nat) :
    ∃ calls', step hexSha256 (.commit idx) calls = some calls' ∧
      Sound hexSha256 maxEvents maxBytes brought calls' := by
  cases hpending : calls.pending[idx]? with
  | none => exact ⟨calls, by simp only [step, hpending], h⟩
  | some pair =>
    obtain ⟨sequence, descriptor⟩ := pair
    refine ⟨⟨(calls.sink.commit hexSha256 sequence descriptor).2, calls.pending.eraseIdx idx,
      calls.answers ++ [⟨sequence, descriptor,
        (calls.sink.commit hexSha256 sequence descriptor).1⟩]⟩, by simp only [step, hpending], ?_⟩
    unfold CliEventSink.commit
    dsimp only
    split
    · next hfull =>
      rw [h.eventLimit, h.byteLimit] at hfull
      exact h.refuse hpending hfull
    · next hroom =>
      rw [h.eventLimit, h.byteLimit, not_or, Nat.not_lt, Nat.not_lt] at hroom
      exact h.grant hpending hroom.1 hroom.2

/-- **Every run** keeps the invariant, and none panics before the counter is used up. -/
theorem Sound.run (moves : List Move) (h : Sound hexSha256 maxEvents maxBytes brought calls)
    (hcalls : (brought ++ moves.filterMap Move.descriptor?).length < 2 ^ 64) :
    ∃ calls', run hexSha256 moves calls = some calls' ∧
      Sound hexSha256 maxEvents maxBytes (brought ++ moves.filterMap Move.descriptor?) calls' := by
  induction moves generalizing brought calls with
  | nil => exact ⟨calls, rfl, by simpa using h⟩
  | cons move moves ih =>
    cases move with
    | call descriptor =>
      have hlist : brought ++ (Move.call descriptor :: moves).filterMap Move.descriptor?
          = (brought ++ [descriptor]) ++ moves.filterMap Move.descriptor? := by
        rw [List.append_assoc]
        rfl
      rw [hlist] at hcalls ⊢
      have hroom : brought.length + 1 < 2 ^ 64 := by
        simp only [List.length_append, List.length_singleton] at hcalls
        omega
      obtain ⟨middle, hstep, hmiddle⟩ := h.call descriptor hroom
      obtain ⟨last, hrun, hlast⟩ := ih hmiddle hcalls
      exact ⟨last, by rw [Cli.run, hstep, Option.bind_some, hrun], hlast⟩
    | commit idx =>
      obtain ⟨middle, hstep, hmiddle⟩ := h.commit idx
      obtain ⟨last, hrun, hlast⟩ := ih hmiddle hcalls
      exact ⟨last, by rw [Cli.run, hstep, Option.bind_some, hrun], hlast⟩

/-! ## What the invariant says -/

/-- The numbers of the calls are `1`, `2` and so on. -/
theorem numbered_toNat (hroom : brought.length < 2 ^ 64) :
    (numbered brought).map (fun p => p.1.toNat) = (List.range brought.length).map (· + 1) := by
  apply List.ext_getElem?
  intro i
  rw [numbered, List.map_map, List.getElem?_map, List.getElem?_map, List.getElem?_zipIdx]
  by_cases hi : i < brought.length
  · have hlt : i + 1 < 2 ^ 64 := by omega
    rw [List.getElem?_eq_getElem hi, List.getElem?_range hi]
    show some (UInt64.ofNat (0 + i + 1)).toNat = some (i + 1)
    rw [Nat.zero_add, UInt64.toNat_ofNat_of_lt' (by simpa using hlt)]
  · have hle : brought.length ≤ i := by omega
    rw [List.getElem?_eq_none hle, List.getElem?_eq_none (by rwa [List.length_range])]
    rfl

/-- Different numbers are written differently. -/
theorem payloadRefText_injective {m n : UInt64} (h : payloadRefText m = payloadRefText n) :
    m = n := by
  have hdigits : Nat.toDigits 10 m.toNat = Nat.toDigits 10 n.toNat := by
    have htext := congrArg String.toList h
    simp only [payloadRefText, String.toList_append, List.append_cancel_left_eq] at htext
    simpa [toString, Nat.repr] using htext
  have hparse := congrArg Fs.parseU64 hdigits
  rw [Fs.parseU64_digits, Fs.parseU64_digits] at hparse
  exact Option.some.inj hparse

/-- The bytes of all calls, and those of the answered ones. -/
theorem Sound.size_sum (h : Sound hexSha256 maxEvents maxBytes brought calls) :
    (calls.answers.map fun a => size a.descriptor).sum ≤ (brought.map size).sum := by
  have hperm := (h.all.map fun p => size p.2).sum_eq
  have hnumbered : (numbered brought).map (fun p => size p.2) = brought.map size := by
    rw [numbered, List.map_map]
    show brought.zipIdx.map (size ∘ Prod.fst) = _
    rw [← List.map_map, List.zipIdx_map_fst]
  rw [hnumbered, Calls.all, List.map_append, List.map_map, List.sum_append] at hperm
  rw [← hperm]
  exact Nat.le_add_right _ _

/-- A refused call comes on top of the granted ones. -/
theorem grantedBytes_add_le {a : Answer} (ha : a ∈ calls.answers) (hrefused : a.granted = false) :
    calls.grantedBytes + size a.descriptor ≤ (calls.answers.map fun a => size a.descriptor).sum := by
  have hperm := List.filter_append_perm Answer.granted calls.answers
  rw [← (hperm.map fun a => size a.descriptor).sum_eq, List.map_append, List.sum_append]
  have hmem : a ∈ calls.answers.filter fun a => !a.granted := by
    rw [List.mem_filter]
    exact ⟨ha, by rw [hrefused]; rfl⟩
  have hle : size a.descriptor
      ≤ ((calls.answers.filter fun a => !a.granted).map fun a => size a.descriptor).sum :=
    List.single_le_sum (fun _ _ => Nat.zero_le _) _ (List.mem_map.mpr ⟨a, hmem, rfl⟩)
  exact Nat.add_le_add_left hle _

/-- The granted calls carry distinct numbers. -/
theorem Sound.granted_nodup (h : Sound hexSha256 maxEvents maxBytes brought calls)
    (hroom : brought.length < 2 ^ 64) :
    (calls.granted.map fun a => a.sequence.toNat).Nodup := by
  have hall : (calls.all.map fun p => p.1.toNat).Nodup := by
    rw [(h.all.map _).nodup_iff, numbered_toNat hroom]
    exact List.nodup_range.map fun _ _ heq => Nat.succ_injective heq
  rw [Calls.all, List.map_append, List.map_map] at hall
  exact (List.filter_sublist.map _).nodup hall.of_append_left

/-- Every number is positive. -/
theorem Sound.sequence_pos (h : Sound hexSha256 maxEvents maxBytes brought calls)
    (hroom : brought.length < 2 ^ 64) {a : Answer} (ha : a ∈ calls.answers) :
    1 ≤ a.sequence.toNat ∧ a.sequence.toNat ≤ brought.length := by
  have hmem : a.sequence.toNat ∈ (numbered brought).map fun p => p.1.toNat := by
    rw [← (h.all.map _).mem_iff, Calls.all, List.map_append, List.map_map]
    exact List.mem_append_left _ (List.mem_map.mpr ⟨a, ha, rfl⟩)
  rw [numbered_toNat hroom, List.mem_map] at hmem
  obtain ⟨n, hn, heq⟩ := hmem
  rw [List.mem_range] at hn
  omega

/-- **The granted calls stay within the limit of events.** -/
theorem Sound.granted_length (h : Sound hexSha256 maxEvents maxBytes brought calls)
    (hroom : brought.length < 2 ^ 64) : calls.granted.length ≤ maxEvents := by
  have hsub : (calls.granted.map fun a => a.sequence.toNat).toFinset ⊆ Finset.Icc 1 maxEvents := by
    intro n hn
    obtain ⟨a, ha, rfl⟩ := List.mem_map.mp (List.mem_toFinset.mp hn)
    exact Finset.mem_Icc.mpr
      ⟨(h.sequence_pos hroom (List.mem_of_mem_filter ha)).1, h.events a ha⟩
  have hcard := Finset.card_le_card hsub
  rwa [List.toFinset_card_of_nodup (h.granted_nodup hroom), List.length_map, Nat.card_Icc,
    Nat.add_sub_cancel] at hcard

/-- The references of the granted calls are distinct. -/
theorem Sound.refs_nodup (h : Sound hexSha256 maxEvents maxBytes brought calls)
    (hroom : brought.length < 2 ^ 64) :
    ((calls.granted.map Answer.entry).map Prod.fst).Nodup := by
  rw [List.map_map]
  have hnodup := h.granted_nodup hroom
  refine List.Nodup.map_on (fun a ha b hb heq => ?_) (List.Nodup.of_map _ hnodup)
  exact List.inj_on_of_nodup_map hnodup ha hb (congrArg UInt64.toNat (payloadRefText_injective heq))

/-- **The store is sound under every interleaving** of fewer than `2 ^ 64` calls. Every call is
numbered once. A granted call holds the reference of its number, which no other one holds and which
the store resolves to its descriptor, with the digest of these bytes, and the store holds nothing
else. It stays within the limit of events, and within the limit of bytes if that is below the
largest counter. The sink is marked as failed exactly when a call was refused, a call is refused
only past a limit, and never when all the calls together fit. -/
theorem store_sound (hexSha256 : List UInt8 → String) (maxEvents maxBytes : Nat)
    (moves : List Move) (hcalls : (moves.filterMap Move.descriptor?).length < 2 ^ 64) :
    ∃ calls, run hexSha256 moves (start maxEvents maxBytes) = some calls ∧
      calls.all.Perm (numbered (moves.filterMap Move.descriptor?)) ∧
      (∀ a ∈ calls.granted, ∃ payload, a.result = .ok payload ∧
        payload.payloadRef = payloadRefText a.sequence ∧
        calls.sink.descriptors.entries[payload.payloadRef]? = some a.descriptor.canonicalBytes ∧
        payload.contentDigest.value = hexSha256 a.descriptor.canonicalBytes) ∧
      (calls.granted.map fun a => payloadRefText a.sequence).Nodup ∧
      (∀ ref bytes, calls.sink.descriptors.entries[ref]? = some bytes →
        ∃ a ∈ calls.granted, a.entry = (ref, bytes)) ∧
      calls.granted.length ≤ maxEvents ∧
      (maxBytes < u64Max → calls.grantedBytes ≤ maxBytes) ∧
      (calls.sink.failed = true ↔ ∃ a ∈ calls.answers, a.granted = false) ∧
      (∀ a ∈ calls.answers, a.granted = false → maxEvents < a.sequence.toNat ∨
        maxBytes < calls.grantedBytes + size a.descriptor) ∧
      ((moves.filterMap Move.descriptor?).length ≤ maxEvents →
        ((moves.filterMap Move.descriptor?).map size).sum ≤ maxBytes →
        calls.sink.failed = false) := by
  have hstart : Sound hexSha256 maxEvents maxBytes [] (start maxEvents maxBytes) := start_sound
  obtain ⟨calls, hrun, h⟩ := hstart.run moves (by simpa using hcalls)
  rw [List.nil_append] at h
  have hfailed : calls.sink.failed = true ↔ ∃ a ∈ calls.answers, a.granted = false := by
    rw [h.failed]
    simp
  -- a saturated sum past the limit comes of a sum past it
  have hneedless : ∀ a ∈ calls.answers, a.granted = false → maxEvents < a.sequence.toNat ∨
      maxBytes < calls.grantedBytes + size a.descriptor := by
    intro a ha hrefused
    refine (h.refused a ha hrefused).imp_right fun hlt => ?_
    rw [h.bytes, saturatingAdd_min] at hlt
    exact lt_of_lt_of_le hlt (Nat.min_le_left _ _)
  have hentries := h.refs_nodup hcalls
  refine ⟨calls, hrun, h.all, fun a ha => ⟨_, h.results a ha, rfl, ?_, rfl⟩, ?_,
    fun ref bytes hget => ?_, h.granted_length hcalls, fun hmax => ?_, hfailed, hneedless,
    fun hevents hbytes => ?_⟩
  · rw [h.entries, TreeMap.getElem?_collectMap hentries]
    exact List.mem_map.mpr ⟨a, ha, rfl⟩
  · rwa [List.map_map] at hentries
  · rw [h.entries, TreeMap.getElem?_collectMap hentries] at hget
    obtain ⟨a, ha, hentry⟩ := List.mem_map.mp hget
    exact ⟨a, ha, hentry⟩
  · -- below the largest counter a saturated sum would be past the limit
    have hle := h.bytes_le
    rw [h.bytes] at hle
    omega
  · rw [← Bool.not_eq_true, hfailed]
    rintro ⟨a, ha, hrefused⟩
    have hsize := (grantedBytes_add_le ha hrefused).trans h.size_sum
    have hlast := (h.sequence_pos hcalls ha).2
    rcases hneedless a ha hrefused with hlt | hlt
    · omega
    · omega

/-- A descriptor of one path. -/
def created (path : String) : EventDescriptor := ⟨.create, [path]⟩

/-- Two calls pass each other, and a third one comes on top of the limit. -/
def crossing : List Move :=
  [.call (created "a"), .call (created "b"), .commit 1, .commit 0, .call (created "c"), .commit 0]

theorem store_sound_crossing : ∃ calls,
    run (fun _ => "digest") crossing (start 2 4096) = some calls ∧
      calls.granted.length ≤ 2 ∧ calls.grantedBytes ≤ 4096 ∧ calls.sink.failed = true := by
  have hlast : ((run (fun _ => "digest") crossing (start 2 4096)).any
      fun calls => calls.sink.failed) = true := by
    decide +kernel
  obtain ⟨calls, hrun, -, -, -, -, hlength, hbytes, -⟩ :=
    store_sound (fun _ => "digest") 2 4096 crossing (by decide)
  rw [hrun] at hlast
  exact ⟨calls, hrun, hlength, hbytes (by decide), hlast⟩

end invariant

end Cli

end Waitprims
