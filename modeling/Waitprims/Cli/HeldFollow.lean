import Mathlib
import Waitprims.Async.FollowCustody
import Waitprims.Async.SinkInvariant
import Waitprims.Cli.Jsonl

/-! # A follow that prints

`waitprims follow` runs a held follow whose sink writes a JSON line for every burst, and a last line
where the runner returned an end. Nothing but the sink writes, so what is on the output at the end is
what the runner handed over.

* **`besideEnv`** — the observer, the clock and the token, beside the sink.
* **`heldFollow`** — the session with its last line.
* **`held_follow_printed`** — every event that left its queue is on the output once. -/

namespace Waitprims

namespace Cli

open Fueled Fifo
open Follow (FollowBurst FollowEnd Delivery Sink QuietSink heldBy_items)

variable {τ κ β φ ψ ω : Type}

/-! ## The environment beside the sink -/

/-- A step that does not reach the sink. -/
def beside {α : Type} (step : τ → α × τ) (s : τ × κ) : α × (τ × κ) :=
  ((step s.1).1, (step s.1).2, s.2)

/-- An environment beside a sink; nothing else about it is changed. -/
def besideEnv (κ : Type) (env : Env τ β φ ψ) : Env (τ × κ) β φ ψ where
  registrationId := env.registrationId
  resolvedStart := env.resolvedStart
  bindStep registration := beside (env.bindStep registration)
  pollBindStep fut := beside (env.pollBindStep fut)
  dropBindStep fut s := (env.dropBindStep fut s.1, s.2)
  nextStep bind := beside (env.nextStep bind)
  pollNextStep fut := beside (env.pollNextStep fut)
  dropNextStep fut s := (env.dropNextStep fut s.1, s.2)
  pollReadyStep bind := beside (env.pollReadyStep bind)
  restoreReadyStep bind obs := beside (env.restoreReadyStep bind obs)
  nowStep := beside env.nowStep
  sleepUntilStep deadline := beside (env.sleepUntilStep deadline)
  isCancelledStep := beside env.isCancelledStep
  parkStep s := (env.parkStep s.1, s.2)

/-- No call reaches the sink. -/
theorem beside_undisturbed (env : Env τ β φ ψ) (P : κ → Prop) :
    Follow.Undisturbed (besideEnv κ env) fun s => P s.2 where
  bind _ _ h := h
  pollBind _ _ h := h
  dropBind _ _ h := h
  next _ _ h := h
  pollNext _ _ h := h
  dropNext _ _ h := h
  pollReady _ _ h := h
  restoreReady _ _ _ h := h
  now _ h := h
  sleepUntil _ _ h := h
  isCancelled _ h := h
  park _ h := h

/-- The queue of a registration, beside the sink. -/
def besideView (v : QueueView τ WaitEvent) : QueueView (τ × κ) WaitEvent :=
  ⟨fun s => v.queue s.1, fun s => v.arrived s.1⟩

/-- The FIFO assumption does not see the sink. -/
def besideFifo (κ : Type) {env : Env τ β φ ψ} (fifo : FifoObserver env) :
    FifoObserver (besideEnv κ env) where
  bindTarget := fifo.bindTarget
  nextTarget := fifo.nextTarget
  bind_target registration s := fifo.bind_target registration s.1
  pollBind_target fut s := fifo.pollBind_target fut s.1
  next_target bind s := fifo.next_target bind s.1
  pollNext_label fut s := fifo.pollNext_label fut s.1
  pollReady_label bind s := fifo.pollReady_label bind s.1
  view r := besideView (fifo.view r)
  bind_quiet r registration s := fifo.bind_quiet r registration s.1
  pollBind_quiet r fut s := fifo.pollBind_quiet r fut s.1
  dropBind_quiet r fut s := fifo.dropBind_quiet r fut s.1
  next_quiet r bind s := fifo.next_quiet r bind s.1
  dropNext_quiet r fut s := fifo.dropNext_quiet r fut s.1
  now_quiet r s := fifo.now_quiet r s.1
  sleep_quiet r deadline s := fifo.sleep_quiet r deadline s.1
  cancel_quiet r s := fifo.cancel_quiet r s.1
  park_quiet r s := fifo.park_quiet r s.1
  pollNext_event fut s := fifo.pollNext_event fut s.1
  pollNext_quiet r fut s := fifo.pollNext_quiet r fut s.1
  pollReady_event bind s := fifo.pollReady_event bind s.1
  pollReady_quiet r bind s := fifo.pollReady_quiet r bind s.1
  restore_event bind event s := fifo.restore_event bind event s.1
  restore_quiet r bind obs s := fifo.restore_quiet r bind obs s.1
  restore_accepts bind obs s := fifo.restore_accepts bind obs s.1

/-! ## The session -/

section session

variable (out : Writer ω) (float : Binary64 → List Char)

/-- The sink closure: `emit_burst` is called at once, and its result is what the future returns. -/
def burstSink : Sink (τ × JsonlSink ω) FollowBurst (Except Error Unit) where
  callStep burst s :=
    ((s.2.emitBurst out float "follow_burst" burst.events).1,
      s.1, (s.2.emitBurst out float "follow_burst" burst.events).2)
  pollStep fut s := (.ready fut, s)

/-- `emit_end` on the sink of the session. -/
def endStep (ended : FollowEnd) (s : τ × JsonlSink ω) : Except Error Unit × (τ × JsonlSink ω) :=
  ((s.2.emitEnd out float ended).1, s.1, (s.2.emitEnd out float ended).2)

/-- `run_held_follow` from the admitted documents on: an error of the runner is returned before the
last line. -/
def heldFollow (env : Env τ β φ ψ) (set : RegistrationSet) (request : LiveWaitRequest) (fuel : Nat) :
    Act (τ × JsonlSink ω) β (Delivery FollowBurst × Except Error Unit) := do
  let r ← Follow.runFollow (besideEnv (JsonlSink ω) env) (burstSink out float) set request fuel
  match r.2 with
  | .error err => return (r.1, .error err)
  | .ok ended =>
    let answer ← (Act.host (endStep out float ended) : Act (τ × JsonlSink ω) β _)
    return (r.1, answer)

/-- What the output holds of a delivery, behind what was there before. -/
def OnOutput (before : List UInt8) (delivery : Delivery FollowBurst) (sink : JsonlSink ω) : Prop :=
  ∃ part, Printed out float "follow_burst" before (delivery.sunk.map FollowBurst.events) part sink ∧
    (delivery.refused = none → part = []) ∧
    ∀ burst, delivery.refused = some burst →
      part <+: burstRecord float "follow_burst" delivery.sunk.length burst.events

/-- What it holds while a burst is with the sink: the future already has the result. -/
def WithSink (before : List UInt8) (delivery : Delivery FollowBurst) (burst : FollowBurst)
    (fut : Except Error Unit) (s : τ × JsonlSink ω) : Prop :=
  ((∃ u, fut = .ok u) ∧
      OnOutput out float before { delivery with sunk := delivery.sunk ++ [burst] } s.2) ∨
    ((∃ err, fut = .error err) ∧
      OnOutput out float before { delivery with refused := some burst } s.2)

/-- **The sink keeps the output in step** with what was handed to it. -/
theorem burstSink_minds (env : Env τ β φ ψ) (before : List UInt8) :
    Follow.Minds (besideEnv (JsonlSink ω) env) (burstSink out float)
      (fun delivery s => OnOutput out float before delivery s.2)
      (WithSink out float before) where
  quiet delivery := beside_undisturbed env (OnOutput out float before delivery)
  call := by
    rintro delivery burst s hnone ⟨part, hprinted, hempty, -⟩
    obtain rfl := hempty hnone
    rcases hprinted.emitBurst burst.events with ⟨⟨u, hok⟩, hnext⟩ | ⟨⟨err, herr⟩, part, hpart, hnext⟩
    · refine .inl ⟨⟨u, hok⟩, [], ?_, fun _ => rfl, fun b hb => ?_⟩
      · rw [List.map_append]
        exact hnext
      · rw [show delivery.refused = some b from hb] at hnone
        cases hnone
    · refine .inr ⟨⟨err, herr⟩, part, hnext, fun hcontra => ?_, fun b hb => ?_⟩
      · cases hcontra
      · obtain rfl := Option.some.inj hb
        rwa [List.length_map] at hpart
  pending delivery burst fut s _ hpending := by cases hpending
  taken := by
    rintro delivery burst fut s u (⟨-, hout⟩ | ⟨⟨err, rfl⟩, -⟩) hready
    · exact hout
    · cases hready
  refused := by
    rintro delivery burst fut s err (⟨⟨u, rfl⟩, -⟩ | ⟨-, hout⟩) hready
    · cases hready
    · exact hout

/-- The sink does not touch the queues. -/
theorem burstSink_quiet {env : Env τ β φ ψ} (fifo : FifoObserver env) :
    QuietSink (besideFifo (JsonlSink ω) fifo).toQueuedObserver (burstSink out float) where
  call _ _ _ := ⟨[], (List.append_nil _).symm, (List.append_nil _).symm⟩
  poll _ _ s := .refl s

/-- Custody is about the queues alone. -/
theorem custody_beside {v : QueueView τ WaitEvent} {s s' : τ × κ} {held : List WaitEvent} :
    Custody (besideView v) s held s' ↔ Custody v s.1 held s'.1 :=
  Iff.rfl

/-- **What the runner leaves**: the output is in step with what was handed over, and custody is
kept. -/
theorem runFollow_output {env : Env τ β φ ψ} (fifo : FifoObserver env) {set : RegistrationSet}
    {request : LiveWaitRequest} (hids : (set.registrations.map Registration.registrationId).Nodup)
    (fuel : Nat) {w w' : World (τ × JsonlSink ω) β} (hnew : w.host.2.sequence = 0)
    {delivery : Delivery FollowBurst} {result : Except Error FollowEnd}
    (hrun : Follow.runFollow (besideEnv (JsonlSink ω) env) (burstSink out float) set request fuel w
      = some ((delivery, result), w')) :
    OnOutput out float (out.written w.host.2.writer) delivery w'.host.2 ∧
      (∀ ended, result = .ok ended → delivery.refused = none) ∧
      ∀ id, Custody (fifo.view id) w.host.1
        (((delivery.sunk ++ delivery.refused.toList).flatMap FollowBurst.events).filter
          fun event => event.registrationId = id) w'.host.1 := by
  have hstart : OnOutput out float (out.written w.host.2.writer) ⟨[], none⟩ w.host.2 := by
    refine ⟨[], ⟨hnew, ?_⟩, fun _ => rfl, (fun burst hburst => by cases hburst)⟩
    simp [sessionLines, sessionValues]
  obtain ⟨hout, hnone⟩ := (burstSink_minds out float env _).runFollow set request fuel w hstart _ w'
    hrun
  refine ⟨hout, hnone, fun id => ?_⟩
  obtain ⟨-, bursts, hdelivered, hat, hcustody⟩ := Follow.runFollow_spec
    ((burstSink_quiet out float fifo).keeps hids id w.host)
    (besideFifo (JsonlSink ω) fifo).not_rejected set request fuel rfl w (CustodyOwn.start w) _ w' hrun
  rw [heldBy_items hat, ← hdelivered.flatMap_events] at hcustody
  exact custody_beside.mp hcustody

/-- **What `waitprims follow` prints.** Under the FIFO assumption, over a set with distinct ids, for
a sink that has counted nothing yet and fewer than 2 ^ 53 bursts, on any writer: what is written is
the lines of the bursts the sink took, numbered from one, with the end the runner returned behind
them where the command succeeds, or else a part of one more record: of the burst that was refused,
or of that end. A reader that splits the output at the newlines gets these lines first, each parses
to its record, and none is admitted as a message. Every event that left the queue of its
registration is in one of the printed bursts or in the one that could not be printed. -/
theorem held_follow_printed {env : Env τ β φ ψ} (fifo : FifoObserver env)
    (digest : Json → Option String) {set : RegistrationSet} {request : LiveWaitRequest}
    (hids : (set.registrations.map Registration.registrationId).Nodup) (fuel : Nat)
    {w w' : World (τ × JsonlSink ω) β} {delivery : Delivery FollowBurst} {result : Except Error Unit}
    (hnew : w.host.2.sequence = 0)
    (hrun : heldFollow out float env set request fuel w = some ((delivery, result), w'))
    (hcount : delivery.sunk.length < 2 ^ 53) :
    ∃ run w₁ ended tail lines,
      Follow.runFollow (besideEnv (JsonlSink ω) env) (burstSink out float) set request fuel w
        = some ((delivery, run), w₁) ∧
      lines = sessionLines float "follow_burst" (delivery.sunk.map FollowBurst.events) ended ∧
      out.written w'.host.2.writer = out.written w.host.2.writer ++ lines.flatMap record ++ tail ∧
      (result = .ok () → delivery.refused = none ∧ tail = [] ∧
        ∃ followEnd, run = .ok followEnd ∧ ended = some followEnd) ∧
      (∀ err, result = .error err → ended = none ∧
        ((∃ burst, delivery.refused = some burst ∧ run = .error err ∧
            tail <+: burstRecord float "follow_burst" delivery.sunk.length burst.events) ∨
          delivery.refused = none ∧ run = .error err ∧ tail = [] ∨
          delivery.refused = none ∧
            ∃ followEnd, run = .ok followEnd ∧ tail <+: record (endJson float followEnd))) ∧
      (lines.flatMap record ++ tail).splitOn newline
        = lines.map Utf8.encode ++ tail.splitOn newline ∧
      lines.map (fun line => Jcs.parseStrict (String.ofList line))
        = (sessionValues "follow_burst" (delivery.sunk.map FollowBurst.events) ended).map .ok ∧
      (∀ line ∈ lines, Validate.validateMessage digest (String.ofList line)
        = .error (.contract (validationError "/message_type" "required"))) ∧
      ∀ id, Custody (fifo.view id) w.host.1
        (((delivery.sunk ++ delivery.refused.toList).flatMap FollowBurst.events).filter
          fun event => event.registrationId = id) w'.host.1 := by
  obtain ⟨⟨delivery', ended⟩, w₁, hfollow, hrest⟩ := bind_eq_some hrun
  obtain ⟨⟨part, hprinted, hempty, hpart⟩, hnone, hcustody⟩ :=
    runFollow_output out float fifo hids fuel hnew hfollow
  have hlength : ∀ {d : Delivery FollowBurst}, d.sunk.length < 2 ^ 53 →
      (d.sunk.map FollowBurst.events).length < 2 ^ 53 := by
    intro d hd
    rwa [List.length_map]
  cases ended with
  | error err =>
    -- the session failed: no end is printed, and a refused burst may stand in part
    obtain ⟨heq, rfl⟩ := Prod.mk.inj (Option.some.inj hrest)
    obtain ⟨rfl, rfl⟩ := Prod.mk.inj heq
    obtain ⟨hsplit, hparse, hrefused⟩ :=
      records_read_back float digest none (hlength hcount) part
    refine ⟨_, w₁, none, part, _, hfollow, rfl, hprinted.written, (fun hok => by cases hok),
      fun _ herr => ⟨rfl, ?_⟩,
      hsplit, hparse, hrefused, hcustody⟩
    obtain rfl := Except.error.inj herr
    cases hburst : delivery'.refused with
    | none => exact .inr (.inl ⟨rfl, rfl, hempty hburst⟩)
    | some burst => exact .inl ⟨burst, rfl, rfl, hpart burst hburst⟩
  | ok ended =>
    -- the session ended, so no burst was refused and the output stops at a newline
    have hrefused : delivery'.refused = none := hnone ended rfl
    obtain rfl := hempty hrefused
    obtain ⟨answer, w₂, hend, hreturn⟩ := bind_eq_some hrest
    obtain ⟨heq, rfl⟩ := Prod.mk.inj (Option.some.inj hreturn)
    obtain ⟨rfl, rfl⟩ := Prod.mk.inj heq
    obtain ⟨rfl, rfl⟩ := Prod.mk.inj (Option.some.inj hend)
    have hwritten := hprinted.written
    rw [List.append_nil] at hwritten
    rcases writeRecord_written out (endJson float ended) w₁.host.2.writer with
      ⟨⟨u, hok⟩, hall⟩ | ⟨⟨err, herr⟩, part, hpart, hall⟩
    · -- the last line is out
      obtain ⟨hsplit, hparse, hnot⟩ :=
        records_read_back float digest (some ended) (hlength hcount) []
      refine ⟨_, w₁, some ended, [], _, hfollow, rfl, ?_,
        fun _ => ⟨hrefused, rfl, ended, rfl, rfl⟩, fun err herr => ?_, hsplit, hparse, hnot, hcustody⟩
      · rw [List.append_nil, sessionLines_ended, ← List.append_assoc, ← hwritten]
        exact hall
      · rw [show (writeRecord out (endJson float ended) w₁.host.2.writer).1 = .error err from herr]
          at hok
        cases hok
    · obtain ⟨hsplit, hparse, hnot⟩ :=
        records_read_back float digest none (hlength hcount) part
      refine ⟨_, w₁, none, part, _, hfollow, rfl, ?_, fun hok => ?_,
        fun _ _ => ⟨rfl, .inr (.inr ⟨hrefused, ended, rfl, hpart⟩)⟩, hsplit, hparse, hnot, hcustody⟩
      · rw [← hwritten]
        exact hall
      · rw [show (writeRecord out (endJson float ended) w₁.host.2.writer).1 = .ok () from hok]
          at herr
        cases herr

end session

/-! ## A printed session -/

/-- A writer into memory. -/
def memory : Writer (List UInt8) where
  writeAll bytes w := (true, w ++ bytes)
  flush w := (true, w)
  written w := w
  writeAll_ok _ _ _ := rfl
  writeAll_err _ _ h := by cases h
  flush_written _ := rfl

/-- The session of two registrations, with an empty output. -/
def printingWorld : World (QueueHost × JsonlSink (List UInt8)) ResolvedStart :=
  ⟨(Follow.followWorld.host, .new []), Follow.followWorld.resolved, Follow.followWorld.log⟩

theorem held_follow_printed_pair : ∃ delivery w',
    heldFollow memory (fun _ => []) queueEnv Case.pairSet Case.liveWaitRequest 12 printingWorld
        = some ((delivery, .ok ()), w') ∧
      delivery.sunk.length = 2 ∧ ∃ ended tail lines,
        lines = sessionLines (fun _ => []) "follow_burst"
          (delivery.sunk.map FollowBurst.events) ended ∧
        w'.host.2.writer = lines.flatMap record ++ tail := by
  have hdone : ((heldFollow memory (fun _ => []) queueEnv Case.pairSet Case.liveWaitRequest 12
      printingWorld).any fun last =>
        last.1.2.isOk && last.1.1.sunk.length == 2) = true := by
    decide +kernel
  obtain ⟨⟨⟨delivery, result⟩, w'⟩, hrun, hlast⟩ := exists_of_any hdone
  obtain ⟨hok, hlength⟩ := Bool.and_eq_true_iff.mp hlast
  have hcount : delivery.sunk.length = 2 := eq_of_beq hlength
  cases result with
  | error err => cases hok
  | ok u =>
    obtain ⟨-, -, ended, tail, lines, -, hlines, hwritten, -⟩ := held_follow_printed memory
      (fun _ => []) queueFifo (fun _ => none) (by decide) 12 rfl hrun (by omega)
    exact ⟨delivery, w', hrun, hcount, ended, tail, lines, hlines, hwritten⟩

end Cli

end Waitprims
