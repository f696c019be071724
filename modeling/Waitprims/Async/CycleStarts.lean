import Mathlib
import Waitprims.Async.CycleKeeps
import Waitprims.Async.CycleRetention

/-! # Where the arms of a cycle start

A bind that has answered is kept in a slot and recorded in the shared cell; an outcome reads one or
the other, depending on the exit. To say what the binds really resolved, the observer is wrapped in
one that remembers each answer of `bind`.

* **`recording`** — the environment that remembers what its binds answered.
* **`Settled`** — between turns slots, cell and answers agree, and every acknowledgement is met.
* **`TrueStart`** — the anchor a registration starts from.
* **`starts_honest`** — a run that returns an outcome reports these, and no others. -/

namespace Waitprims

variable {σ β φ ψ : Type}

/-- The environment that remembers what its binds answered, next to the host state. -/
def recording (env : Env σ β φ ψ) : Env (σ × List (Except Error β)) β φ ψ where
  registrationId := env.registrationId
  resolvedStart := env.resolvedStart
  bindStep registration s := ((env.bindStep registration s.1).1,
    ((env.bindStep registration s.1).2, s.2))
  pollBindStep fut s := ((env.pollBindStep fut s.1).1,
    ((env.pollBindStep fut s.1).2, match (env.pollBindStep fut s.1).1 with
      | .ready answer => s.2 ++ [answer]
      | .pending => s.2))
  dropBindStep fut s := (env.dropBindStep fut s.1, s.2)
  nextStep bind s := ((env.nextStep bind s.1).1, ((env.nextStep bind s.1).2, s.2))
  pollNextStep fut s := ((env.pollNextStep fut s.1).1, ((env.pollNextStep fut s.1).2, s.2))
  dropNextStep fut s := (env.dropNextStep fut s.1, s.2)
  pollReadyStep bind s := ((env.pollReadyStep bind s.1).1, ((env.pollReadyStep bind s.1).2, s.2))
  restoreReadyStep bind obs s := ((env.restoreReadyStep bind obs s.1).1,
    ((env.restoreReadyStep bind obs s.1).2, s.2))
  nowStep s := ((env.nowStep s.1).1, ((env.nowStep s.1).2, s.2))
  sleepUntilStep deadline s := ((env.sleepUntilStep deadline s.1).1,
    ((env.sleepUntilStep deadline s.1).2, s.2))
  isCancelledStep s := ((env.isCancelledStep s.1).1, ((env.isCancelledStep s.1).2, s.2))
  parkStep s := (env.parkStep s.1, s.2)

/-- Remembering answers changes no label. -/
def Labelled.recording {env : Env σ β φ ψ} (lab : Labelled env) :
    Labelled (recording env) where
  bindTarget := lab.bindTarget
  nextTarget := lab.nextTarget
  bind_target := fun registration s => lab.bind_target registration s.1
  pollBind_target := fun fut s => lab.pollBind_target fut s.1
  next_target := fun bind s => lab.next_target bind s.1
  pollNext_label := fun fut s => lab.pollNext_label fut s.1
  pollReady_label := fun bind s => lab.pollReady_label bind s.1

/-- The binds among the answers. -/
def bindsOf (answers : List (Except Error β)) : List β := answers.filterMap Except.toOption

/-- The start a bind resolved. -/
def startOf (env : Env σ β φ ψ) (bind : β) : ResolvedStart :=
  ⟨env.registrationId bind, env.resolvedStart bind⟩

namespace PollCycle

open Fueled TreeMap

variable {env : Env σ β φ ψ} {set : RegistrationSet} {request : PollCycleRequest}
  {answers : List (Except Error β)} {cell : List ResolvedStart} {slots binds : List β}

/-- Only a poll of a bind adds to the answers or to the cell. -/
theorem undisturbed_recording (Q : List (Except Error β) → List ResolvedStart → Prop) :
    Undisturbed (recording env) fun w => Q w.host.2 w.resolved where
  bind _ := host_spec fun _ h => h
  dropBind _ := host_spec fun _ h => h
  next _ := Triple.bind (host_spec fun _ h => h) fun _ => Triple.pure fun _ h => h
  pollNext _ := by
    refine Triple.bind (R := fun _ w => Q w.host.2 w.resolved) (host_spec fun _ h => h) ?_
    rintro ((err | obs) | _)
    · exact Triple.pure fun _ h => h
    · exact Triple.bind (record_spec fun _ h => h) fun _ => Triple.pure fun _ h => h
    · exact Triple.pure fun _ h => h
  dropNext _ := host_spec fun _ h => h
  pollReady _ := by
    refine Triple.bind (R := fun _ w => Q w.host.2 w.resolved) (host_spec fun _ h => h) fun _ => ?_
    exact Triple.bind (record_spec fun _ h => h) fun _ => Triple.pure fun _ h => h
  restoreReady _ _ := by
    refine Triple.bind (R := fun _ w => Q w.host.2 w.resolved) (host_spec fun _ h => h) fun _ => ?_
    exact Triple.bind (record_spec fun _ h => h) fun _ => Triple.pure fun _ h => h
  record _ := record_spec fun _ h => h
  now := host_spec fun _ h => h
  sleepUntil _ := host_spec fun _ h => h
  isCancelled := host_spec fun _ h => h
  park := host_spec fun _ h => h

/-! ## The answers of a bind race -/

/-- Every answer was a bind, and every bind was recorded in the cell. -/
structure Clean (env : Env σ β φ ψ) (answers : List (Except Error β))
    (cell : List ResolvedStart) : Prop where
  bound : ∀ answer ∈ answers, ∃ bind, answer = .ok bind
  recorded : cell = (bindsOf answers).map (startOf env)

/-- Every bind starts where the consumer acknowledged, if it did. -/
def Matched (env : Env σ β φ ψ) (request : PollCycleRequest) (binds : List β) : Prop :=
  ∀ bind ∈ binds, ∀ ack, request.acknowledgedAnchors[env.registrationId bind]? = some ack →
    env.resolvedStart bind = ack

theorem bindsOf_append (xs ys : List (Except Error β)) :
    bindsOf (xs ++ ys) = bindsOf xs ++ bindsOf ys :=
  List.filterMap_append

@[simp] theorem bindsOf_ok (bind : β) : bindsOf [(.ok bind : Except Error β)] = [bind] := rfl

@[simp] theorem bindsOf_error (err : Error) : bindsOf [(.error err : Except Error β)] = [] := rfl

/-- One more bind that was recorded. -/
theorem Clean.snoc (h : Clean env answers cell) (bind : β) :
    Clean env (answers ++ [.ok bind]) (cell ++ [startOf env bind]) where
  bound := by
    intro answer hanswer
    rcases List.mem_append.mp hanswer with hold | hnew
    · exact h.bound answer hold
    · exact ⟨bind, List.mem_singleton.mp hnew⟩
  recorded := by
    rw [bindsOf_append, List.map_append, h.recorded]
    rfl

/-- Before one more recorded bind the answers were clean too. -/
theorem Clean.of_snoc {bind : β} {start : ResolvedStart}
    (h : Clean env (answers ++ [.ok bind]) (cell ++ [start])) : Clean env answers cell where
  bound := fun answer hanswer => h.bound answer (List.mem_append_left _ hanswer)
  recorded := by
    have hrecorded := h.recorded
    rw [bindsOf_append, List.map_append] at hrecorded
    exact (List.append_inj' hrecorded rfl).1

/-- Clean answers are as many as the cell records. -/
theorem Clean.length (h : Clean env answers cell) : cell.length = answers.length := by
  rw [h.recorded, List.length_map]
  have hall : ∀ l : List (Except Error β), (∀ a ∈ l, ∃ bind, a = .ok bind) →
      (bindsOf l).length = l.length := by
    intro l
    induction l with
    | nil => exact fun _ => rfl
    | cons a rest ih =>
      intro hok
      obtain ⟨bind, rfl⟩ := hok a List.mem_cons_self
      have hrest := ih fun b hb => hok b (List.mem_cons_of_mem _ hb)
      simpa [bindsOf, Except.toOption] using hrest
  exact hall answers h.bound

/-- The clean state of a run. -/
abbrev CleanAt (env : Env σ β φ ψ) (w : World (σ × List (Except Error β)) β) : Prop :=
  Clean env w.host.2 w.resolved

/-- The registration a `bind_one` future is for is the one its `bind` was called with. -/
def Aimed (lab : Labelled env) : BindOne φ → Prop
  | .start _ => True
  | .binding registration fut => lab.bindTarget fut = registration.registrationId

/-- What one poll of a `bind_one` future adds to the answers and the cell. -/
@[simp] def PolledBind (lab : Labelled env) (request : PollCycleRequest) (fut : BindOne φ)
    (answers : List (Except Error β)) (cell : List ResolvedStart) :
    Polled (BindOne φ) β → World (σ × List (Except Error β)) β → Prop
  | .ready (.ok bind), w => w.host.2 = answers ++ [.ok bind] ∧
      w.resolved = cell ++ [startOf env bind] ∧ (Aimed lab fut → Matched env request [bind])
  | .ready (.error _), w => (∃ answer, w.host.2 = answers ++ [answer]) ∧ w.resolved = cell
  | .pending fut', w => w.host.2 = answers ∧ w.resolved = cell ∧ (Aimed lab fut → Aimed lab fut')

theorem acceptBind_answers (registration : Registration) (bind : β) :
    Triple (fun w => w.host.2 = answers ∧ w.resolved = cell)
      (acceptBind (recording env) request registration bind)
      fun answer w => w.host.2 = answers ∧ match answer with
        | .ok b => b = bind ∧ w.resolved = cell ++ [startOf env bind] ∧
            ∀ ack, request.acknowledgedAnchors[registration.registrationId]? = some ack →
              env.resolvedStart bind = ack
        | .error _ => w.resolved = cell := by
  have hrecord : Triple (fun w : World (σ × List (Except Error β)) β =>
      w.host.2 = answers ∧ w.resolved = cell) ((recording env).recordResolved bind)
      fun _ w => w.host.2 = answers ∧ w.resolved = cell ++ [startOf env bind] := by
    rintro w ⟨hanswers, rfl⟩ _ _ ⟨⟩
    exact ⟨hanswers, rfl⟩
  unfold acceptBind
  cases hack : request.acknowledgedAnchors[registration.registrationId]? with
  | none =>
    refine Triple.bind hrecord fun _ => Triple.pure fun w h => ⟨h.1, rfl, h.2, fun _ hack' => ?_⟩
    cases hack'
  | some expected =>
    dsimp only
    split
    · exact Triple.pure fun w h => h
    · next hsame =>
      refine Triple.bind hrecord fun _ => Triple.pure fun w h => ⟨h.1, rfl, h.2, ?_⟩
      rintro ack ⟨⟩
      by_contra hne
      exact hsame (bne_iff_ne.mpr hne)

/-- **One poll of `bind_one`**: a bind is answered, recorded and met, or nothing is recorded. -/
theorem pollBindOne_answers (lab : Labelled env) (fut : BindOne φ)
    (answers : List (Except Error β)) (cell : List ResolvedStart) :
    Triple (fun w => w.host.2 = answers ∧ w.resolved = cell)
      (pollBindOne (recording env) request fut) (PolledBind lab request fut answers cell) := by
  have hpoll : ∀ (registration : Registration) (bindFut : φ),
      (Aimed lab fut → lab.bindTarget bindFut = registration.registrationId) →
      Triple (fun w => w.host.2 = answers ∧ w.resolved = cell)
        (pollBinding (recording env) request registration bindFut)
        (PolledBind lab request fut answers cell) := by
    intro registration bindFut haim
    unfold pollBinding
    -- the answer of the bind is recorded before anything is done with it
    have hstep : Triple (fun w : World (σ × List (Except Error β)) β =>
        w.host.2 = answers ∧ w.resolved = cell) ((recording env).pollBind bindFut)
        fun answer w => w.resolved = cell ∧ match answer with
          | .ready answer => w.host.2 = answers ++ [answer] ∧
              ∀ bind, answer = .ok bind → env.registrationId bind = lab.bindTarget bindFut
          | .pending => w.host.2 = answers := by
      refine host_spec fun w h => ⟨h.2, ?_⟩
      have htarget := lab.pollBind_target bindFut w.host.1
      simp only [recording]
      cases hanswer : (env.pollBindStep bindFut w.host.1).1 with
      | ready answer =>
        refine ⟨by rw [h.1], ?_⟩
        rintro bind rfl
        exact htarget bind hanswer
      | pending => exact h.1
    refine Triple.bind hstep ?_
    rintro ((err | bind) | _)
    · exact Triple.pure fun w h => ⟨⟨_, h.2.1⟩, h.1⟩
    · -- a bind that was granted is acknowledged in the cell, for its own registration
      refine Triple.fact (fun w h => h.2.2 bind rfl) fun htarget => ?_
      refine Triple.bind ((acceptBind_answers registration bind).strengthen
        fun w h => ⟨h.2.1, h.1⟩) ?_
      rintro (err | bind')
      · exact Triple.pure fun w h => ⟨⟨_, h.1⟩, h.2⟩
      · refine Triple.pure fun w h => ?_
        obtain ⟨hanswers, rfl, hcell, hack⟩ := h
        refine ⟨hanswers, hcell, fun hgood b hb ack hb' => ?_⟩
        obtain rfl := List.mem_singleton.mp hb
        rw [htarget, haim hgood] at hb'
        exact hack ack hb'
    · exact Triple.pure fun w h => ⟨h.2, h.1, haim⟩
  cases fut with
  | start registration =>
    have hbind : Triple (fun w : World (σ × List (Except Error β)) β =>
        w.host.2 = answers ∧ w.resolved = cell) ((recording env).bind registration)
        fun bindFut w => lab.bindTarget bindFut = registration.registrationId ∧
          w.host.2 = answers ∧ w.resolved = cell :=
      host_spec fun w h => ⟨lab.bind_target registration w.host.1, h⟩
    refine Triple.bind hbind fun bindFut => ?_
    refine Triple.fact (fun w h => h.1) fun htarget => ?_
    exact (hpoll registration bindFut fun _ => htarget).strengthen fun w h => h.2
  | binding registration bindFut => exact hpoll registration bindFut id

variable (request) in
/-- A poll of `bind_one` stays clean unless it fails. -/
theorem pollBindOne_clean (lab : Labelled env) (fut : BindOne φ) :
    Triple (CleanAt env) (pollBindOne (recording env) request fut)
      fun r w => (∀ err, r ≠ .ready (.error err)) → CleanAt env w := by
  intro w hclean r w' hr
  have hpolled := pollBindOne_answers lab fut w.host.2 w.resolved w ⟨rfl, rfl⟩ r w' hr
  rcases r with (err | bind) | fut'
  · exact fun hfine => absurd rfl (hfine err)
  · intro _
    rw [CleanAt, hpolled.1, hpolled.2.1]
    exact hclean.snoc bind
  · intro _
    rw [CleanAt, hpolled.1, hpolled.2.1]
    exact hclean

/-- The binds of a run are those in the slots and those a race has taken, and all are matched; this
may fail only once an answer was not a bind or was not recorded. -/
def BindsOwn (env : Env σ β φ ψ) (request : PollCycleRequest) (slots : List β)
    (taken : List (Nat × β)) (w : World (σ × List (Except Error β)) β) : Prop :=
  w.resolved.length ≤ w.host.2.length ∧ (CleanAt env w →
    (bindsOf w.host.2).Perm (slots ++ taken.map Prod.snd) ∧ Matched env request (bindsOf w.host.2))

/-- A bind race takes the binds that answer. -/
theorem bindsOwning (lab : Labelled env) (request : PollCycleRequest) (slots : List β) :
    FirstReady.Owning id (fun _ => Aimed lab) (pollBindOne (recording env) request)
      (BindsOwn env request slots) where
  reorder := by
    intro taken taken' w _ hperm h
    refine ⟨h.1, fun hclean => ⟨?_, (h.2 hclean).2⟩⟩
    exact (h.2 hclean).1.trans ((hperm.map Prod.snd).append_left slots)
  poll := by
    intro slot fut taken haim w h r w' hr
    have hpolled := pollBindOne_answers lab fut w.host.2 w.resolved w ⟨rfl, rfl⟩ r w' hr
    obtain ⟨hlength, hown⟩ := h
    rcases r with (err | bind) | fut'
    · obtain ⟨⟨answer, hanswers⟩, hcell⟩ := hpolled
      refine ⟨by rw [hanswers, hcell, List.length_append]; omega, fun hclean => ?_⟩
      -- The cell is one short of the answers.
      have hsame := hclean.length
      rw [hanswers, hcell, List.length_append, List.length_singleton] at hsame
      omega
    · obtain ⟨hanswers, hcell, hmatched⟩ := hpolled
      refine ⟨by rw [hanswers, hcell, List.length_append, List.length_append]; simpa using hlength,
        fun hclean => ?_⟩
      rw [CleanAt, hanswers, hcell] at hclean
      obtain ⟨hperm, hold⟩ := hown hclean.of_snoc
      rw [hanswers, bindsOf_append, bindsOf_ok]
      refine ⟨?_, ?_⟩
      · rw [List.map_append, ← List.append_assoc]
        exact hperm.append_right _
      · intro b hb
        rcases List.mem_append.mp hb with hb | hb
        · exact hold b hb
        · exact hmatched haim b hb
    · obtain ⟨hanswers, hcell, haim'⟩ := hpolled
      refine ⟨haim' haim, ?_⟩
      rw [BindsOwn, CleanAt, hanswers, hcell]
      exact ⟨hlength, hown⟩

/-! ## The races and the `select!`s -/

/-- **Slots, cell and answers agree**: every answer is a bind that is recorded, sits in a slot and
starts where it was acknowledged. -/
def Settled (env : Env σ β φ ψ) (request : PollCycleRequest) (slots : List β)
    (w : World (σ × List (Except Error β)) β) : Prop :=
  CleanAt env w ∧ (bindsOf w.host.2).Perm slots ∧ Matched env request (bindsOf w.host.2)

/-- Every call but a poll of a bind leaves a settled state settled. -/
theorem settled_undisturbed : Undisturbed (recording env) (Settled env request slots) :=
  undisturbed_recording fun answers cell =>
    Clean env answers cell ∧ (bindsOf answers).Perm slots ∧ Matched env request (bindsOf answers)

/-- The futures of a bind race between polls: each is for the registration it was called with, and
no answer waits in an arm. -/
def RacesBinds (lab : Labelled env) (unbound : List Nat) (arms : List (Arm (BindOne φ) β)) : Prop :=
  FirstReady.ArmsGood (fun _ => Aimed lab) unbound arms ∧ FirstReady.armsHeld unbound arms = []

/-- A fresh bind race. -/
theorem racesBinds_new (lab : Labelled env) {unbound : List Nat}
    (hunbound : ∀ slot ∈ unbound, slot < set.registrations.length) :
    RacesBinds lab unbound (bindUnbound set request unbound : List (Arm (BindOne φ) β)) := by
  refine ⟨FirstReady.armsGood_new ?_, FirstReady.armsHeld_new _ _⟩
  induction unbound with
  | nil => exact List.Forall₂.nil
  | cons slot rest ih =>
    have hreg := List.getElem?_eq_getElem (hunbound slot List.mem_cons_self)
    rw [List.filterMap_cons, hreg]
    exact List.Forall₂.cons trivial (ih fun s hs => hunbound s (List.mem_cons_of_mem slot hs))

/-- **One poll of the bind race**: unless it reports an error, what it hands over is settled with
the binds that sit in slots already. -/
theorem pollBindUnbound_settled (lab : Labelled env) {unbound : List Nat}
    (hunbound : unbound.Nodup) {arms : List (Arm (BindOne φ) β)}
    (hraces : RacesBinds lab unbound arms) :
    Triple (Settled env request slots) (pollBindUnbound (recording env) request unbound arms)
      fun r w => match r.2 with
        | none => RacesBinds lab unbound r.1 ∧ Settled env request slots w
        | some out => out.error = none →
            Settled env request (slots ++ out.ready.map Prod.snd) w := by
  unfold pollBindUnbound
  split
  · exact Triple.pure fun w h => ⟨hraces, h⟩
  · have hown := FirstReady.poll_spec (bindsOwning lab request slots) (fun _ => true)
      (by simpa using hunbound) hraces.1
    have hclean := FirstReady.poll_clean
      (fun fut => pollBindOne_clean request lab fut) (fun _ => true) arms
    refine Triple.bind ((hown.and hclean).strengthen fun w h => ⟨?_, h.1⟩) ?_
    · rw [hraces.2]
      exact ⟨le_of_eq h.1.length, fun _ => ⟨by simpa using h.2.1, h.2.2⟩⟩
    · rintro ⟨arms', _ | out⟩
      · refine Triple.pure fun w h => ?_
        obtain ⟨⟨hown, hgood, hidle⟩, hclean⟩ := h
        -- A bind ends its race, so an unresolved one holds none.
        have hnone : FirstReady.armsHeld unbound arms' = [] := by
          rw [List.eq_nil_iff_forall_not_mem]
          exact fun p hp => by simpa using hidle p hp
        have hcleanAt : CleanAt env w := hclean fun _ h => by cases h
        rw [hnone] at hown
        obtain ⟨hperm, hmatched⟩ := hown.2 hcleanAt
        exact ⟨⟨hgood, hnone⟩, hcleanAt, by simpa using hperm, hmatched⟩
      · refine Triple.bind (R := fun _ w => out.error = none → Settled env request
          (slots ++ (remapReady unbound out.ready).map Prod.snd) w) ?_ fun _ =>
            Triple.pure fun w h => h
        intro w h
        by_cases herror : out.error = none
        · have hcleanAt : CleanAt env w := h.2 fun out' hout => by
            obtain rfl := Option.some.inj hout
            exact herror
          obtain ⟨hperm, hmatched⟩ := h.1.1.2 hcleanAt
          have hsettled : Settled env request
              (slots ++ (remapReady unbound out.ready).map Prod.snd) w :=
            ⟨hcleanAt, hperm, hmatched⟩
          intro r w' hr _
          exact settled_undisturbed.toCalm.dropBinding arms' w hsettled r w' hr
        · exact fun _ _ _ hnone => absurd hnone herror

/-- What the winner of a `select!` leaves settled. -/
def SelectedSettled {γ : Type} (env : Env σ β φ ψ) (request : PollCycleRequest) (slots : List β) :
    Selected (γ ⊕ FirstReadyOutput β) → World (σ × List (Except Error β)) β → Prop
  | .collected (.inr out), w => out.error = none →
      Settled env request (slots ++ out.ready.map Prod.snd) w
  | _, w => Settled env request slots w

/-- **The `select!` of an observing cycle.** -/
theorem selectObserving_settled (lab : Labelled env) {unbound : List Nat}
    (hunbound : unbound.Nodup) (pending : List (Nat × β)) (waitUntil : Timestamp) (fuel : Nat)
    (observing : Option (List (NextArm β ψ))) {binding : List (Arm (BindOne φ) β)}
    (hraces : RacesBinds lab unbound binding) :
    Triple (Settled env request slots)
      (selectObserving (recording env) request pending unbound waitUntil fuel observing binding)
      (SelectedSettled env request slots) := by
  have hkeep : ∀ slots, Undisturbed (recording env) (Settled env request slots) :=
    fun _ => settled_undisturbed
  induction fuel generalizing observing binding with
  | zero => exact Triple.exhausted
  | succ fuel ih =>
    unfold selectObserving
    refine Triple.bind ((hkeep slots).pollObservePending pending observing) ?_
    rintro ⟨observing', _ | collected⟩
    · refine Triple.bind (pollBindUnbound_settled lab hunbound hraces) ?_
      rintro ⟨binding', _ | collected⟩
      · refine Triple.fact (fun w h => h.1) fun hraces' => ?_
        have hgiveUp : ∀ winner : Selected (FirstReadyOutput Observation ⊕ FirstReadyOutput β),
            (∀ w, Settled env request slots w → SelectedSettled env request slots winner w) →
            Triple (Settled env request slots)
              (do
                dropObserving (recording env) observing'
                FirstReady.drop (dropBindOne (recording env)) binding'
                return winner) (SelectedSettled env request slots) := fun winner hwinner =>
          Triple.bind ((hkeep slots).toCalm.dropObserving observing') fun _ =>
            Triple.bind ((hkeep slots).toCalm.dropBinding binding') fun _ => Triple.pure hwinner
        refine Triple.bind ((hkeep slots).isCancelled.strengthen fun w h => h.2) ?_
        rintro (_ | _)
        · refine Triple.bind ((hkeep slots).sleepUntil waitUntil) ?_
          rintro (_ | _)
          · exact Triple.bind (hkeep slots).park fun _ => ih observing' hraces'
          · exact hgiveUp .slept fun w h => h
        · exact hgiveUp .cancelled fun w h => h
      · refine Triple.bind (R := fun _ w => collected.error = none →
          Settled env request (slots ++ collected.ready.map Prod.snd) w) ?_ fun _ =>
            Triple.pure fun w h => h
        intro w h r w' hr hnone
        exact (hkeep _).toCalm.dropObserving observing' w (h hnone) r w' hr
    · exact Triple.bind ((hkeep slots).toCalm.dropBinding binding) fun _ => Triple.pure fun w h => h

/-- **The `select!` of a cycle without a bind.** -/
theorem selectBinding_settled (lab : Labelled env) {unbound : List Nat}
    (hunbound : unbound.Nodup) (waitUntil : Timestamp) (fuel : Nat)
    {binding : List (Arm (BindOne φ) β)} (hraces : RacesBinds lab unbound binding) :
    Triple (Settled env request slots)
      (selectBinding (recording env) request unbound waitUntil fuel binding)
      fun winner w => match winner with
        | .collected out => out.error = none →
            Settled env request (slots ++ out.ready.map Prod.snd) w
        | _ => Settled env request slots w := by
  have hkeep : Undisturbed (recording env) (Settled env request slots) := settled_undisturbed
  induction fuel generalizing binding with
  | zero => exact Triple.exhausted
  | succ fuel ih =>
    unfold selectBinding
    refine Triple.bind (pollBindUnbound_settled lab hunbound hraces) ?_
    rintro ⟨binding', _ | collected⟩
    · refine Triple.fact (fun w h => h.1) fun hraces' => ?_
      refine Triple.bind (hkeep.isCancelled.strengthen fun w h => h.2) ?_
      rintro (_ | _)
      · refine Triple.bind (hkeep.sleepUntil waitUntil) ?_
        rintro (_ | _)
        · exact Triple.bind hkeep.park fun _ => ih hraces'
        · exact Triple.bind (hkeep.toCalm.dropBinding binding') fun _ => Triple.pure fun w h => h
      · exact Triple.bind (hkeep.toCalm.dropBinding binding') fun _ => Triple.pure fun w h => h
    · exact Triple.pure fun w h => h

/-! ## Starts -/

/-- A list of starts is that of the binds, in some order. -/
def Reflects (env : Env σ β φ ψ) (binds : List β) (starts : List ResolvedStart) : Prop :=
  ∀ item, item ∈ starts ↔ ∃ bind ∈ binds, startOf env bind = item

/-- No two binds are of one registration. -/
def OnePerRegistration (env : Env σ β φ ψ) (binds : List β) : Prop :=
  ∀ b ∈ binds, ∀ b' ∈ binds, env.registrationId b = env.registrationId b' → b = b'

theorem reflects_map (binds : List β) : Reflects env binds (binds.map (startOf env)) :=
  fun _ => List.mem_map

/-- The binds in the slots. -/
abbrev occupants (bound : List (Option β)) : List β := bound.filterMap id

theorem startsFromSlots_eq (bound : List (Option β)) :
    startsFromSlots (recording env) bound = (occupants bound).map (startOf env) := by
  unfold startsFromSlots occupants
  induction bound with
  | nil => rfl
  | cons slot rest ih =>
    cases slot with
    | none => exact ih
    | some bind => exact congrArg (startOf env bind :: ·) ih

/-- The starts a settled run has recorded are those of the slots. -/
theorem Settled.reflects_cell {w : World (σ × List (Except Error β)) β}
    (h : Settled env request slots w) : Reflects env slots w.resolved := by
  intro item
  rw [h.1.recorded, List.mem_map]
  exact exists_congr fun bind => and_congr_left fun _ => h.2.1.mem_iff

/-- A map of starts that agree under one id has all of them as its values. -/
theorem mem_values_collectMap {entries : List ResolvedStart}
    (hunique : ∀ a ∈ entries, ∀ b ∈ entries, a.registrationId = b.registrationId → a = b)
    {item : ResolvedStart} :
    item ∈ (collectMap (entries.map fun start => (start.registrationId, start))).values ↔
      item ∈ entries := by
  simp only [mem_values, lookup_collectMap, Option.map_eq_some_iff, Prod.exists]
  constructor
  · rintro ⟨key, id, start, hfind, rfl⟩
    have hmem := List.mem_reverse.mp (List.mem_of_find?_eq_some hfind)
    obtain ⟨start', hstart', heq⟩ := List.mem_map.mp hmem
    obtain ⟨-, rfl⟩ := Prod.mk.inj heq
    exact hstart'
  · intro hitem
    have hentry : (item.registrationId, item) ∈
        (entries.map fun start => (start.registrationId, start)).reverse :=
      List.mem_reverse.mpr (List.mem_map.mpr ⟨item, hitem, rfl⟩)
    cases hfind : (entries.map fun start => (start.registrationId, start)).reverse.find?
        fun entry => decide (entry.1 = item.registrationId) with
    | none => exact absurd (List.find?_eq_none.mp hfind _ hentry) (by simp)
    | some entry =>
      obtain ⟨start, hstart, rfl⟩ := List.mem_map.mp
        (List.mem_reverse.mp (List.mem_of_find?_eq_some hfind))
      have hid : start.registrationId = item.registrationId := by
        simpa using List.find?_some hfind
      obtain rfl := hunique start hstart item hitem hid
      exact ⟨start.registrationId, _, start, hfind, rfl⟩

/-- **Merged starts are those of the slots**: the cell records no other. -/
theorem reflects_mergeStarts {bound : List (Option β)}
    {w : World (σ × List (Except Error β)) β} (h : Settled env request (occupants bound) w)
    (hone : OnePerRegistration env (occupants bound)) :
    Reflects env (occupants bound)
      (mergeStarts (startsFromSlots (recording env) bound) w.resolved) := by
  have hcell := h.reflects_cell
  have hmem : ∀ item, item ∈ w.resolved ++ startsFromSlots (recording env) bound ↔
      ∃ bind ∈ occupants bound, startOf env bind = item := by
    intro item
    rw [List.mem_append, hcell item, startsFromSlots_eq, List.mem_map, or_self]
  intro item
  unfold mergeStarts
  rw [mem_values_collectMap, hmem]
  intro a ha b hb hid
  obtain ⟨bind, hbind, rfl⟩ := (hmem a).mp ha
  obtain ⟨bind', hbind', rfl⟩ := (hmem b).mp hb
  rw [hone bind hbind bind' hbind' hid]

/-- Under distinct ids, seated binds are of different registrations. -/
theorem onePerRegistration_of_seated (lab : Labelled env) {ids : List IdToken}
    (hids : ids.Nodup) {bound : List (Option β)}
    (hseated : Seated (labelLedger lab.recording ids) bound) :
    OnePerRegistration env (occupants bound) := by
  have hplace : ∀ b ∈ occupants bound, ∃ slot : Nat, bound[slot]? = some (some b) ∧
      ids[slot]? = some (env.registrationId b) := by
    intro b hb
    obtain ⟨occupant, hoccupant, rfl⟩ := List.mem_filterMap.mp hb
    obtain ⟨slot, hslot⟩ := List.mem_iff_getElem?.mp hoccupant
    exact ⟨slot, hslot, hseated slot b (by rw [hslot]; rfl)⟩
  intro b hb b' hb' hid
  obtain ⟨slot, hbound, hslot⟩ := hplace b hb
  obtain ⟨slot', hbound', hslot'⟩ := hplace b' hb'
  rw [← hid] at hslot'
  obtain ⟨hlt, hget⟩ := List.getElem?_eq_some_iff.mp hslot
  obtain ⟨hlt', hget'⟩ := List.getElem?_eq_some_iff.mp hslot'
  obtain rfl := (List.Nodup.getElem_inj_iff hids).mp (hget.trans hget'.symm)
  rw [hbound] at hbound'
  exact Option.some.inj (Option.some.inj hbound')

/-- Binds stored at slots that were empty are the new occupants. -/
theorem occupants_storeBinds {bound : List (Option β)} {ready : List (Nat × β)}
    (hkeys : (ready.map Prod.fst).Nodup) (hempty : ∀ p ∈ ready, bound[p.1]? = some none) :
    (occupants (storeBinds bound ready)).Perm (occupants bound ++ ready.map Prod.snd) := by
  have hset : ∀ (bound : List (Option β)) (slot : Nat) (bind : β), bound[slot]? = some none →
      (occupants (bound.set slot (some bind))).Perm (bind :: occupants bound) := by
    intro bound
    induction bound with
    | nil => intro slot bind hslot; cases hslot
    | cons first rest ih =>
      intro slot bind hslot
      cases slot with
      | zero =>
        obtain rfl : first = none := Option.some.inj hslot
        exact List.Perm.refl _
      | succ slot =>
        have hrest := ih slot bind hslot
        cases first with
        | none => exact hrest
        | some b => exact (hrest.cons b).trans (List.Perm.swap bind b _)
  induction ready generalizing bound with
  | nil => simp [storeBinds]
  | cons p rest ih =>
    rw [List.map_cons, List.nodup_cons] at hkeys
    have hrest : ∀ q ∈ rest, (bound.set p.1 (some p.2))[q.1]? = some none := by
      intro q hq
      have hne : p.1 ≠ q.1 := by
        intro heq
        exact hkeys.1 (List.mem_map.mpr ⟨q, hq, heq.symm⟩)
      rw [List.getElem?_set_ne hne]
      exact hempty q (List.mem_cons_of_mem _ hq)
    have hstep : storeBinds bound (p :: rest) = storeBinds (bound.set p.1 (some p.2)) rest := rfl
    rw [hstep]
    refine (ih hkeys.2 hrest).trans ?_
    refine ((hset bound p.1 p.2 (hempty p List.mem_cons_self)).append_right _).trans ?_
    rw [List.map_cons, List.cons_append]
    exact List.perm_middle.symm

/-! ## The loop -/

/-- The starts a decision is made on. -/
def Decision.starts : Decision → List ResolvedStart
  | .cancelled _ starts | .deadline _ starts | .complete _ starts => starts
  | .fault _ => []

/-- A cycle that goes on is settled; one that ends decides on the starts of its binds. -/
def TurnSettled (env : Env σ β φ ψ) (request : PollCycleRequest)
    (r : Cycle β × Option Decision) (w : World (σ × List (Except Error β)) β) : Prop :=
  (∃ err, r.2 = some (.fault err)) ∨ Settled env request (occupants r.1.bound) w ∧
    ∀ decision, r.2 = some decision → Reflects env (occupants r.1.bound) decision.starts

theorem recordAndCheck_settled (fuel : Nat) (cycle : Cycle β) (ready : List (Nat × Observation))
    {starts : List ResolvedStart} (hstarts : Reflects env (occupants cycle.bound) starts) :
    ETriple (Settled env request (occupants cycle.bound))
      (recordAndCheck (recording env) set request fuel cycle ready starts)
      (TurnSettled env request) Lost := by
  have hkeep : Undisturbed (recording env) (Settled env request (occupants cycle.bound)) :=
    settled_undisturbed
  unfold recordAndCheck
  refine ETriple.bind (hkeep.recordReady cycle.bound fuel cycle.budget cycle.visits ready) ?_
  rintro ⟨budget, visits⟩
  dsimp only
  split
  · refine ETriple.bind (ETriple.lift hkeep.now) fun now => ETriple.pure fun w h => Or.inr ⟨h, ?_⟩
    rintro _ ⟨⟩
    exact hstarts
  · exact ETriple.pure fun w h => Or.inr ⟨h, fun _ hdecision => by cases hdecision⟩

/-- A cycle that has collected binds at empty slots. -/
theorem onBound_settled (fuel : Nat) {cycle : Cycle β} {collected : FirstReadyOutput β}
    (hkeys : (collected.ready.map Prod.fst).Nodup)
    (hempty : ∀ p ∈ collected.ready, cycle.bound[p.1]? = some none) :
    ETriple (fun w => collected.error = none →
        Settled env request (occupants cycle.bound ++ collected.ready.map Prod.snd) w)
      (onBound (recording env) set request fuel cycle collected)
      (TurnSettled env request) Lost := by
  unfold onBound
  cases herror : collected.error with
  | some err => exact ETriple.pure fun w _ => Or.inl ⟨err, rfl⟩
  | none =>
    have hperm := occupants_storeBinds hkeys hempty
    have hkeep : Undisturbed (recording env)
        (Settled env request (occupants (storeBinds cycle.bound collected.ready))) :=
      settled_undisturbed
    refine ETriple.strengthen ?_ fun w (h : _ → _) => (⟨(h rfl).1, (h rfl).2.1.trans hperm.symm,
      (h rfl).2.2⟩ : Settled env request (occupants (storeBinds cycle.bound collected.ready)) w)
    refine ETriple.bind (ETriple.lift (hkeep.extendReadyRefs _ [])) fun observations => ?_
    have hstarts : Reflects env (occupants (storeBinds cycle.bound collected.ready))
        (startsFromSlots (recording env) (storeBinds cycle.bound collected.ready)) := by
      rw [startsFromSlots_eq]
      exact reflects_map _
    exact recordAndCheck_settled fuel { cycle with
      bound := storeBinds cycle.bound collected.ready
      anyBound := cycle.anyBound || !collected.ready.isEmpty } observations hstarts

/-- A cycle that ends on what the cell records. -/
theorem decideOnCell_settled (cycle : Cycle β) (decide : List ResolvedStart → Decision)
    (hdecide : ∀ starts, (decide starts).starts = starts) :
    ETriple (Settled env request (occupants cycle.bound))
      (do
        let starts ← liftM (snapshot : Act (σ × List (Except Error β)) β (List ResolvedStart))
        return (cycle, some (decide starts)))
      (TurnSettled env request) Lost := by
  have hread : Triple (Settled env request (occupants cycle.bound)) snapshot
      fun starts w => Reflects env (occupants cycle.bound) starts ∧
        Settled env request (occupants cycle.bound) w := by
    rintro w h _ _ ⟨⟩
    exact ⟨h.reflects_cell, h⟩
  refine ETriple.bind (ETriple.lift hread) fun starts => ETriple.pure fun w h => Or.inr ⟨h.2, ?_⟩
  rintro _ ⟨⟩
  rw [hdecide]
  exact h.1

section turns

variable {cycle : Cycle β} {ids : List IdToken}

/-- Slots of a race without a bind are empty. -/
theorem empty_of_unbound {ledger : Ledger (recording env) ids} (hok : CycleOk ledger set cycle)
    {unbound : List Nat} {ready : List (Nat × β)} (hready : CollectedBinds ledger unbound ready)
    (hunbound : ∀ slot ∈ unbound, slot < set.registrations.length ∧
      (cycle.bound[slot]?.join).isNone) :
    ∀ p ∈ ready, cycle.bound[p.1]? = some none := by
  intro p hp
  obtain ⟨hlt, hnone⟩ := hunbound p.1 (hready.slots p hp)
  rw [← hok.length] at hlt
  rw [List.getElem?_eq_getElem hlt] at hnone ⊢
  cases hslot : cycle.bound[p.1] with
  | none => rfl
  | some bind => simp [hslot] at hnone

theorem turnObserving_settled (lab : Labelled env) (hids : IdsOf ids set)
    (hok : CycleOk (labelLedger lab.recording ids) set cycle) (fuel : Nat)
    {starts : List ResolvedStart} (hstarts : Reflects env (occupants cycle.bound) starts) :
    ETriple (Settled env request (occupants cycle.bound))
      (turnObserving (recording env) set request fuel cycle starts)
      (TurnSettled env request) Lost := by
  have hkeep : Undisturbed (recording env) (Settled env request (occupants cycle.bound)) :=
    settled_undisturbed
  unfold turnObserving
  set order := fairnessOrder set request
  set pending := order.filter fun idx => (cycle.bound[idx]?.join).isSome && idx ∉ cycle.visits
  set unbound := order.filter fun idx => (cycle.bound[idx]?.join).isNone && idx ∉ cycle.visits
  have harms : TurnArms (labelLedger lab.recording ids) set cycle pending unbound :=
    turnArms hok request
  have hslots : ∀ slot ∈ unbound, slot < set.registrations.length ∧
      (cycle.bound[slot]?.join).isNone :=
    fun slot hslot => ⟨harms.slots slot hslot, harms.vacant slot hslot⟩
  -- The cycle as it decides when it ends here.
  have hdecide : ∀ decision : Decision, decision.starts = starts →
      ∀ w, Settled env request (occupants cycle.bound) w →
        TurnSettled env request (cycle, some decision) w := by
    intro decision hdecision w h
    refine Or.inr ⟨h, ?_⟩
    rintro _ ⟨⟩
    rwa [hdecision]
  dsimp only
  split
  · exact ETriple.bind (ETriple.lift hkeep.now) fun now => ETriple.pure (hdecide _ rfl)
  · have hselect : Triple (Settled env request (occupants cycle.bound))
        (selectObserving (recording env) request (pendingRefs cycle.bound pending) unbound
          (earliestDeadline request) fuel none (bindUnbound set request unbound)) _ :=
      selectObserving_settled lab harms.nodup _ _ fuel none (racesBinds_new lab harms.slots)
    refine ETriple.bind ((ETriple.lift ((harms.select hids [] [] fuel).and hselect)).strengthen
      fun w h => ⟨fun _ hitem => (nomatch hitem), h⟩) ?_
    rintro (⟨collected | collected⟩ | _ | _)
    · refine ETriple.strengthen ?_ fun w h => h.2
      dsimp only
      unfold onObserved
      cases collected.error with
      | some err =>
        refine ETriple.bind ETriple.vacuous fun _ => ETriple.pure fun w _ => Or.inl ⟨err, rfl⟩
      | none =>
        refine ETriple.bind (ETriple.lift (hkeep.extendReadyRefs _ _)) fun ready => ?_
        exact recordAndCheck_settled fuel cycle ready hstarts
    · refine ETriple.fact (fun w h => h.1.1) fun hcollected => ?_
      exact (onBound_settled fuel hcollected.keys
        (empty_of_unbound hok hcollected hslots)).strengthen fun w h => h.2
    · refine ETriple.bind ((ETriple.lift hkeep.now).strengthen fun w h => h.2) fun now => ?_
      exact ETriple.pure (hdecide _ rfl)
    · refine ETriple.bind ((ETriple.lift hkeep.now).strengthen fun w h => h.2) fun now => ?_
      refine ETriple.bind (ETriple.lift (hkeep.extendReadyRefs _ [])) fun ready => ?_
      refine ETriple.bind (hkeep.recordReady _ fuel _ _ ready) ?_
      rintro ⟨budget, visits⟩
      refine ETriple.pure fun w h => Or.inr ⟨h, ?_⟩
      rintro _ ⟨⟩
      exact hstarts

theorem turnBinding_settled (lab : Labelled env) (hids : IdsOf ids set)
    (hok : CycleOk (labelLedger lab.recording ids) set cycle) (hnone : cycle.anyBound = false)
    (fuel : Nat) :
    ETriple (Settled env request (occupants cycle.bound))
      (turnBinding (recording env) set request fuel cycle)
      (TurnSettled env request) Lost := by
  have hkeep : Undisturbed (recording env) (Settled env request (occupants cycle.bound)) :=
    settled_undisturbed
  unfold turnBinding
  have hnodup := nodup_fairnessOrder set request
  have hslots : ∀ slot ∈ fairnessOrder set request, slot < set.registrations.length ∧
      (cycle.bound[slot]?.join).isNone := by
    intro slot hslot
    rw [hok.unbound hnone slot]
    exact ⟨mem_fairnessOrder.mp hslot, rfl⟩
  have hledger : Triple ((labelLedger lab.recording ids).own [] [])
      (selectBinding (recording env) request (fairnessOrder set request) _ fuel _) _ :=
    selectBinding_start _ hids [] [] fuel
  have hselect : Triple (Settled env request (occupants cycle.bound))
      (selectBinding (recording env) request (fairnessOrder set request) (earliestDeadline request)
        fuel (bindUnbound set request (fairnessOrder set request))) _ :=
    selectBinding_settled lab hnodup _ fuel
      (racesBinds_new lab fun slot hslot => mem_fairnessOrder.mp hslot)
  refine ETriple.bind ((ETriple.lift (hledger.and hselect)).strengthen fun w h =>
    ⟨fun _ hitem => (nomatch hitem), h⟩) ?_
  rintro (collected | _ | _)
  · refine ETriple.fact (fun w h => h.1.1 collected rfl) fun hcollected => ?_
    exact (onBound_settled fuel hcollected.keys
      (empty_of_unbound hok hcollected hslots)).strengthen fun w h => h.2
  · refine ETriple.bind ((ETriple.lift hkeep.now).strengthen fun w h => h.2) fun now => ?_
    exact decideOnCell_settled cycle _ fun _ => rfl
  · refine ETriple.bind ((ETriple.lift hkeep.now).strengthen fun w h => h.2) fun now => ?_
    exact decideOnCell_settled cycle _ fun _ => rfl

/-- **One turn** ends settled. -/
theorem turn_settled (lab : Labelled env) (hids : IdsOf ids set) (hnodup : ids.Nodup)
    (hok : CycleOk (labelLedger lab.recording ids) set cycle) (fuel : Nat) :
    ETriple (Settled env request (occupants cycle.bound))
      (turn (recording env) set request fuel cycle)
      (TurnSettled env request) Lost := by
  have hkeep : Undisturbed (recording env) (Settled env request (occupants cycle.bound)) :=
    settled_undisturbed
  unfold turn
  refine ETriple.bind (ETriple.lift hkeep.isCancelled) ?_
  rintro (_ | _)
  · have hread : Triple (Settled env request (occupants cycle.bound)) snapshot
        fun resolved w => Reflects env (occupants cycle.bound)
          (mergeStarts (startsFromSlots (recording env) cycle.bound) resolved) ∧
            Settled env request (occupants cycle.bound) w := by
      rintro w h _ _ ⟨⟩
      exact ⟨reflects_mergeStarts h (onePerRegistration_of_seated lab hnodup hok.seated), h⟩
    refine ETriple.bind (ETriple.lift hread) fun resolved => ?_
    refine ETriple.fact (fun w h => h.1) fun hstarts => ?_
    refine ETriple.bind ((ETriple.lift hkeep.now).strengthen fun w h => h.2) fun now => ?_
    split
    · refine ETriple.bind (ETriple.lift hkeep.now) fun now =>
        ETriple.pure fun w h => Or.inr ⟨h, ?_⟩
      rintro _ ⟨⟩
      exact hstarts
    · split
      · exact turnObserving_settled lab hids hok fuel hstarts
      · next hnone => exact turnBinding_settled lab hids hok (by simpa using hnone) fuel
  · refine ETriple.bind (ETriple.lift hkeep.now) fun now => ?_
    exact decideOnCell_settled cycle _ fun _ => rfl

/-- A loop that ends without a fault is settled and decides on the starts of its binds. -/
def LoopSettled (env : Env σ β φ ψ) (request : PollCycleRequest) (r : Cycle β × Decision)
    (w : World (σ × List (Except Error β)) β) : Prop :=
  (∃ err, r.2 = .fault err) ∨ Settled env request (occupants r.1.bound) w ∧
    OnePerRegistration env (occupants r.1.bound) ∧
    Reflects env (occupants r.1.bound) r.2.starts

/-- **The run of the loop**, by induction on its turns. -/
theorem cycleLoop_settled (lab : Labelled env) (hids : IdsOf ids set) (hnodup : ids.Nodup)
    (fuel turns : Nat) (cycle : Cycle β) :
    ETriple
      (fun w => CycleOwn (labelLedger lab.recording ids) set cycle w ∧
        Settled env request (occupants cycle.bound) w)
      (cycleLoop (recording env) set request fuel turns cycle)
      (LoopSettled env request) Lost := by
  induction turns generalizing cycle with
  | zero => exact ETriple.exhausted
  | succ turns ih =>
    unfold cycleLoop
    refine ETriple.fact (fun w h => h.1.1) fun hok => ?_
    have hcycle : ETriple (CycleOwn (labelLedger lab.recording ids) set cycle)
        (turn (recording env) set request fuel cycle) _ _ := turn_spec hids fuel cycle
    have hsettled : ETriple (Settled env request (occupants cycle.bound))
        (turn (recording env) set request fuel cycle) _ Lost :=
      turn_settled lab hids hnodup hok fuel
    refine ETriple.bind ((hcycle.and hsettled).conseq (fun _ h => h) (fun _ _ h => h)
      fun _ _ _ => trivial) ?_
    rintro ⟨cycle', _ | decision⟩
    · refine (ih cycle').strengthen fun w h => ⟨h.1, ?_⟩
      rcases h.2 with ⟨err, herr⟩ | hsettled
      · cases herr
      · exact hsettled.1
    · refine ETriple.pure fun w h => ?_
      rcases h.2 with ⟨err, herr⟩ | hsettled
      · exact Or.inl ⟨err, Option.some.inj herr⟩
      · exact Or.inr ⟨hsettled.1, onePerRegistration_of_seated lab hnodup h.1.1.seated,
          hsettled.2 decision rfl⟩

/-- **A run** that returns an outcome decided it on the starts of its binds, all of which start
where they were acknowledged. -/
theorem runPollCycle_settled (lab : Labelled env)
    (hids : (set.registrations.map Registration.registrationId).Nodup) (fuel : Nat) :
    ETriple (fun w => w.host.2 = []) (runPollCycle (recording env) set request fuel)
      (fun outcome w => resolve set request = .ok () ∧
        ∃ (cycle : Cycle β) (decision : Decision),
          decision.outcome set request cycle.visits = .ok outcome ∧
            LoopSettled env request (cycle, decision) w)
      Lost := by
  unfold runPollCycle
  refine ETriple.bind (R := fun _ w => resolve set request = .ok () ∧ w.host.2 = [])
    (ETriple.result (fun u hu _ h => ⟨hu, h⟩) fun _ _ _ _ => trivial) fun _ => ?_
  refine ETriple.fact (fun w h => h.1) fun hresolve => ?_
  unfold runLoop
  have hnew : Triple (fun w : World (σ × List (Except Error β)) β => w.host.2 = []) newResolved
      fun _ w => w.host.2 = [] ∧ w.resolved = [] := by
    rintro w h _ _ ⟨⟩
    exact ⟨h, rfl⟩
  refine ETriple.bind ((ETriple.lift hnew).strengthen fun w h => h.2) fun _ => ?_
  -- a new cycle has no binds and an empty cell, which is settled
  have hempty : occupants (Cycle.new set request : Cycle β).bound = [] := by
    unfold Cycle.new occupants
    induction set.registrations with
    | nil => rfl
    | cons registration rest ih => exact ih
  have hloop : ETriple _ (cycleLoop (recording env) set request fuel fuel (Cycle.new set request))
      (LoopSettled env request) Lost :=
    cycleLoop_settled lab rfl hids fuel fuel (Cycle.new set request)
  refine ETriple.bind (hloop.strengthen fun w h =>
    ⟨cycleNew_own fun _ hitem => (nomatch hitem), ?_⟩) ?_
  · rw [hempty]
    unfold Settled CleanAt
    rw [h.1, h.2]
    exact ⟨⟨fun _ hanswer => (nomatch hanswer), rfl⟩, List.Perm.refl _, fun _ hb => (nomatch hb)⟩
  · rintro ⟨cycle, decision⟩
    by_cases hfault : ∃ err, decision = .fault err
    · -- a fault hands back what was admitted and returns no outcome
      obtain ⟨err, rfl⟩ := hfault
      have hkeep : Undisturbed (recording env)
          (fun _ : World (σ × List (Except Error β)) β => True) :=
        undisturbed_recording fun _ _ => True
      refine ((hkeep.toCalm.emit cycle.bound cycle.visits _).strengthen fun _ _ => trivial).weaken ?_
      intro outcome w h
      cases h.1
    · have hkeep : Undisturbed (recording env)
          (fun w : World (σ × List (Except Error β)) β =>
            Settled env request (occupants cycle.bound) w ∧
              OnePerRegistration env (occupants cycle.bound) ∧
                Reflects env (occupants cycle.bound) decision.starts) :=
        undisturbed_recording fun answers cell =>
          (Clean env answers cell ∧ (bindsOf answers).Perm (occupants cycle.bound) ∧
            Matched env request (bindsOf answers)) ∧ _
      refine ((hkeep.toCalm.emit cycle.bound cycle.visits _).strengthen fun w h =>
        h.resolve_left hfault).weaken ?_
      intro outcome w h
      exact ⟨hresolve, cycle, decision, h.1, Or.inr h.2⟩

end turns

/-! ## What an outcome reports -/

/-- **Where a registration starts**: where its bind resolved, else where the request acknowledged it,
else where it was registered to start. -/
def TrueStart (env : Env σ β φ ψ) (request : PollCycleRequest) (binds : List β)
    (registration : Registration) (anchor : Anchor) : Prop :=
  (∃ bind ∈ binds, env.registrationId bind = registration.registrationId ∧
      env.resolvedStart bind = anchor) ∨
    (∀ bind ∈ binds, env.registrationId bind ≠ registration.registrationId) ∧
      (request.acknowledgedAnchors[registration.registrationId]?.or registration.startAnchor)
        = some anchor

/-- The honest start is the true one, on starts that reflect the binds. -/
theorem honestStart_iff {starts : List ResolvedStart} (hstarts : Reflects env binds starts)
    (hone : OnePerRegistration env binds) {registration : Registration} {anchor : Anchor} :
    honestStart starts request registration = some anchor ↔
      TrueStart env request binds registration anchor := by
  unfold honestStart TrueStart
  cases hfind : starts.find? fun item => item.registrationId == registration.registrationId with
  | none =>
    have hnone : ∀ bind ∈ binds, env.registrationId bind ≠ registration.registrationId := by
      intro bind hbind hid
      have hitem := (hstarts (startOf env bind)).mpr ⟨bind, hbind, rfl⟩
      exact absurd (beq_iff_eq.mpr hid) (List.find?_eq_none.mp hfind _ hitem)
    have hnot : ¬ ∃ bind ∈ binds, env.registrationId bind = registration.registrationId ∧
        env.resolvedStart bind = anchor := fun ⟨bind, hbind, hid, _⟩ => hnone bind hbind hid
    rw [or_iff_right hnot, and_iff_right hnone]
    cases request.acknowledgedAnchors[registration.registrationId]? <;> rfl
  | some item =>
    obtain ⟨bind, hbind, rfl⟩ := (hstarts item).mp (List.mem_of_find?_eq_some hfind)
    have hid : env.registrationId bind = registration.registrationId := by
      simpa [startOf] using List.find?_some hfind
    constructor
    · intro h
      exact Or.inl ⟨bind, hbind, hid, Option.some.inj h⟩
    · rintro (⟨bind', hbind', hid', rfl⟩ | ⟨hnone, -⟩)
      · rw [hone bind hbind bind' hbind' (hid.trans hid'.symm)]
        rfl
      · exact absurd hid (hnone bind hbind)

/-- The arms and maps of an outcome are those of some rows. -/
structure FromRows (outcome : PollCycleOutcome) (rows : List ArmRow) : Prop where
  arms : outcome.arms.map (fun arm => (arm.registrationId, arm.startAnchor))
    = rows.map fun row => (row.arm.registrationId, row.arm.startAnchor)
  through : ∀ rid, rid ∈ outcome.retainedThrough → ∃ row ∈ rows, row.arm.registrationId = rid
  retained : ∀ rid, rid ∈ outcome.retainedEvents → ∃ row ∈ rows, row.arm.registrationId = rid
  proposed : ∀ rid, rid ∈ outcome.proposedNextAnchors → ∃ row ∈ rows, row.arm.registrationId = rid

section rows

variable {visits : Visits} {kind : OutcomeKind} {reason : Option String} {now : Timestamp}
  {resolved : List ResolvedStart} {outcome : PollCycleOutcome} {rows : List ArmRow}

/-- The keys of a map collected from rows are registrations of rows. -/
theorem exists_row_of_mem {υ : Type} {f : ArmRow → υ} {rid : IdToken}
    (h : rid ∈ collectMap (rows.map fun row => (row.arm.registrationId, f row))) :
    ∃ row ∈ rows, row.arm.registrationId = rid := by
  rw [mem_collectMap, List.map_map] at h
  exact List.mem_map.mp h

/-- An empty event map has the registrations of the arms. -/
theorem exists_arm_of_mem {arms : List CoverageArm} {rid : IdToken}
    (h : rid ∈ emptyEventMap arms) : ∃ arm ∈ arms, arm.registrationId = rid := by
  unfold emptyEventMap at h
  rw [mem_collectMap, List.map_map] at h
  exact List.mem_map.mp h

/-- Withholding leaves the registrations and the starts. -/
theorem withheld_pairs (arms : List CoverageArm) :
    (arms.map withholdArm).map (fun arm => (arm.registrationId, arm.startAnchor))
      = arms.map fun arm => (arm.registrationId, arm.startAnchor) := by
  rw [List.map_map]
  refine List.map_congr_left fun arm _ => ?_
  rw [Function.comp_apply, withholdArm_registrationId, withholdArm_startAnchor]

/-- A registration of an arm is one of a row. -/
theorem exists_row_of_arm {arms : List CoverageArm}
    (hpairs : arms.map (fun arm => (arm.registrationId, arm.startAnchor))
      = rows.map fun row => (row.arm.registrationId, row.arm.startAnchor))
    {rid : IdToken} (h : ∃ arm ∈ arms, arm.registrationId = rid) :
    ∃ row ∈ rows, row.arm.registrationId = rid := by
  obtain ⟨arm, harm, rfl⟩ := h
  have hmem : (arm.registrationId, arm.startAnchor) ∈
      rows.map fun row => (row.arm.registrationId, row.arm.startAnchor) :=
    hpairs ▸ List.mem_map.mpr ⟨arm, harm, rfl⟩
  obtain ⟨row, hrow, heq⟩ := List.mem_map.mp hmem
  exact ⟨row, hrow, (Prod.mk.inj heq).1⟩

theorem build_fromRows
    (h : build set request now resolved visits kind reason = .ok outcome) :
    FromRows outcome (armRows set request resolved visits kind) := by
  obtain ⟨-, -, -, harms, hthrough, hretained⟩ := build_parts h
  have hpairs : outcome.arms.map (fun arm => (arm.registrationId, arm.startAnchor))
      = (armRows set request resolved visits kind).map
        fun row => (row.arm.registrationId, row.arm.startAnchor) := by
    rw [harms]
    cases kind.rejects with
    | true =>
      rw [if_pos rfl, withheld_pairs, List.map_map]
      rfl
    | false =>
      rw [if_neg (by simp), List.map_map]
      rfl
  refine ⟨hpairs, fun rid hrid => ?_, fun rid hrid => ?_, fun rid hrid => ?_⟩
  · rw [hthrough] at hrid
    exact exists_row_of_mem hrid
  · rw [hretained] at hrid
    split at hrid
    · exact exists_row_of_arm hpairs (exists_arm_of_mem hrid)
    · exact exists_row_of_mem hrid
  · have hproposed : outcome.proposedNextAnchors
        = collectMap ((armRows set request resolved visits kind).map
          fun row => (row.arm.registrationId, row.arm.proposedNextAnchor)) := by
      unfold build at h
      dsimp only at h
      split at h
      · cases h
      · obtain rfl := Except.ok.inj h
        rfl
    rw [hproposed] at hrid
    exact exists_row_of_mem hrid

/-- Posture leaves the registrations and the starts. -/
theorem FromRows.applyPosture (h : FromRows outcome rows) :
    FromRows (PollCycle.applyPosture set request outcome) rows := by
  have hrebuild : ∀ (kind' : OutcomeKind) (reason' : String),
      FromRows (rebuildReason outcome kind' reason') rows := fun kind' reason' =>
    have hpairs := (withheld_pairs outcome.arms).trans h.arms
    ⟨hpairs, h.through, fun _ hrid => exists_row_of_arm hpairs (exists_arm_of_mem hrid),
      h.proposed⟩
  unfold PollCycle.applyPosture
  split
  · exact h
  · split
    · exact hrebuild _ _
    · split
      · exact hrebuild _ _
      · exact h

/-- **A decided outcome** has the rows of the starts it was decided on. -/
theorem decision_fromRows {decision : Decision}
    (h : decision.outcome set request visits = .ok outcome) :
    ∃ (visits' : Visits) (kind : OutcomeKind),
      FromRows outcome (armRows set request decision.starts visits' kind) := by
  have hassemble : ∀ {now starts visits}, assemble set request now starts visits = .ok outcome →
      ∃ (visits' : Visits) (kind : OutcomeKind),
        FromRows outcome (armRows set request starts visits' kind) := by
    intro now starts visits h
    obtain ⟨built, hbuild, rfl⟩ := assemble_eq_ok h
    exact ⟨visits, _, (build_fromRows hbuild).applyPosture⟩
  have hforced : ∀ {now starts reason},
      finish set request now starts visits (some reason) = .ok outcome →
      ∃ (visits' : Visits) (kind : OutcomeKind),
        FromRows outcome (armRows set request starts visits' kind) := by
    intro now starts reason h
    unfold finish at h
    dsimp only at h
    cases hbuild : build set request now starts visits
        (if reason == "consumer_cancelled" then .cancelled else .failed) (some reason) with
    | error err =>
      rw [hbuild] at h
      cases h
    | ok built =>
      rw [hbuild] at h
      obtain rfl := Except.ok.inj h
      exact ⟨visits, _, (build_fromRows hbuild).applyPosture⟩
  cases decision with
  | cancelled now starts => exact hforced h
  | complete now starts => exact hassemble h
  | deadline now starts =>
    have h : decideAtDeadline set request now starts visits = .ok outcome := h
    unfold decideAtDeadline at h
    split at h
    · exact hforced h
    · exact hassemble h
  | fault err => cases h

end rows

/-- **An outcome with honest starts**: the arms are the registrations that start anywhere, each at
its true start and where it was acknowledged; no map mentions another registration. -/
structure StartsHonest (env : Env σ β φ ψ) (set : RegistrationSet) (request : PollCycleRequest)
    (binds : List β) (outcome : PollCycleOutcome) : Prop where
  arms : ∀ registration ∈ set.registrations, ∀ anchor,
    (∃ arm ∈ outcome.arms, arm.registrationId = registration.registrationId ∧
      arm.startAnchor = anchor) ↔ TrueStart env request binds registration anchor
  known : ∀ arm ∈ outcome.arms, ∃ registration ∈ set.registrations,
    registration.registrationId = arm.registrationId
  omitted : ∀ rid, (∀ arm ∈ outcome.arms, arm.registrationId ≠ rid) →
    rid ∉ outcome.retainedThrough ∧ rid ∉ outcome.retainedEvents ∧
      rid ∉ outcome.proposedNextAnchors
  acknowledged : ∀ rid ack, request.acknowledgedAnchors[rid]? = some ack →
    (∃ arm ∈ outcome.arms, arm.registrationId = rid) ∧
      ∀ arm ∈ outcome.arms, arm.registrationId = rid → arm.startAnchor = ack

/-- A resolved request acknowledges registrations of the set only. -/
theorem acknowledged_registered (h : resolve set request = .ok ()) {rid : IdToken} {ack : Anchor}
    (hack : request.acknowledgedAnchors[rid]? = some ack) :
    ∃ registration ∈ set.registrations, registration.registrationId = rid := by
  unfold resolve at h
  split at h
  · cases h
  · split at h
    · cases h
    · split at h
      · cases h
      · split at h
        · next hall =>
          have hmem : rid ∈ request.acknowledgedAnchors.keys := by
            rw [Std.ExtTreeMap.mem_keys, Std.ExtTreeMap.mem_iff_isSome_getElem?, hack]
            rfl
          simpa using List.all_eq_true.mp hall rid hmem
        · cases h

/-- Rows of reflected starts are honest. -/
theorem startsHonest_of_rows {starts : List ResolvedStart} {visits : Visits} {kind : OutcomeKind}
    {outcome : PollCycleOutcome}
    (hids : (set.registrations.map Registration.registrationId).Nodup)
    (hstarts : Reflects env binds starts) (hone : OnePerRegistration env binds)
    (hmatched : Matched env request binds) (hresolve : resolve set request = .ok ())
    (hrows : FromRows outcome (armRows set request starts visits kind)) :
    StartsHonest env set request binds outcome := by
  have hpair : ∀ {rid anchor}, (∃ arm ∈ outcome.arms, arm.registrationId = rid ∧
      arm.startAnchor = anchor) ↔ ∃ row ∈ armRows set request starts visits kind,
        row.arm.registrationId = rid ∧ row.arm.startAnchor = anchor := by
    intro rid anchor
    have hmem : (rid, anchor) ∈ outcome.arms.map (fun arm => (arm.registrationId, arm.startAnchor))
        ↔ (rid, anchor) ∈ (armRows set request starts visits kind).map
          fun row => (row.arm.registrationId, row.arm.startAnchor) := by rw [hrows.arms]
    simpa only [List.mem_map, Prod.mk.injEq] using hmem
  have hrow : ∀ {row}, row ∈ armRows set request starts visits kind →
      ∃ registration ∈ set.registrations,
        registration.registrationId = row.arm.registrationId ∧
          TrueStart env request binds registration row.arm.startAnchor := by
    intro row hmem
    obtain ⟨idx, armId, registration, -, hreg, hrow⟩ := mem_armRows.mp hmem
    obtain ⟨-, hid, -, hstart⟩ := armRow_eq_some hrow
    exact ⟨registration, List.mem_of_getElem? hreg, hid.symm,
      (honestStart_iff hstarts hone).mp hstart⟩
  have harms : ∀ registration ∈ set.registrations, ∀ anchor,
      (∃ arm ∈ outcome.arms, arm.registrationId = registration.registrationId ∧
        arm.startAnchor = anchor) ↔ TrueStart env request binds registration anchor := by
    intro registration hmem anchor
    rw [hpair]
    constructor
    · rintro ⟨row, hmemRow, hid, rfl⟩
      obtain ⟨registration', hmem', hid', htrue⟩ := hrow hmemRow
      obtain rfl := List.inj_on_of_nodup_map hids hmem' hmem (hid'.trans hid)
      exact htrue
    · intro htrue
      obtain ⟨idx, hidx⟩ := List.mem_iff_getElem?.mp hmem
      have hlt : idx < (armIds set request).length := by
        rw [length_armIds]
        exact (List.getElem?_eq_some_iff.mp hidx).1
      have hstart : honestStart starts request registration = some anchor :=
        (honestStart_iff hstarts hone).mpr htrue
      cases hrow : armRow request starts visits kind idx (armIds set request)[idx] registration with
      | none => simp [armRow, hstart] at hrow
      | some row =>
        obtain ⟨-, hid, -, hrowStart⟩ := armRow_eq_some hrow
        exact ⟨row, mem_armRows.mpr ⟨idx, _, registration, List.getElem?_eq_getElem hlt, hidx,
          hrow⟩, hid, Option.some.inj (hrowStart.symm.trans hstart)⟩
  have hknown : ∀ arm ∈ outcome.arms, ∃ registration ∈ set.registrations,
      registration.registrationId = arm.registrationId := by
    intro arm harm
    obtain ⟨row, hmem, hid, -⟩ := hpair.mp ⟨arm, harm, rfl, rfl⟩
    obtain ⟨registration, hreg, hid', -⟩ := hrow hmem
    exact ⟨registration, hreg, hid'.trans hid⟩
  refine ⟨harms, hknown, fun rid hnone => ?_, fun rid ack hack => ?_⟩
  · have habsent : ¬ ∃ row ∈ armRows set request starts visits kind,
        row.arm.registrationId = rid := by
      rintro ⟨row, hmem, hid⟩
      obtain ⟨arm, harm, hid', -⟩ := hpair.mpr ⟨row, hmem, hid, rfl⟩
      exact hnone arm harm hid'
    exact ⟨fun h => habsent (hrows.through rid h), fun h => habsent (hrows.retained rid h),
      fun h => habsent (hrows.proposed rid h)⟩
  · obtain ⟨registration, hmem, rfl⟩ := acknowledged_registered hresolve hack
    -- Bound or not, an acknowledged registration starts where it was acknowledged.
    have htrue : ∀ anchor, TrueStart env request binds registration anchor → anchor = ack := by
      rintro anchor (⟨bind, hbind, hid, rfl⟩ | ⟨-, hor⟩)
      · exact hmatched bind hbind ack (hid ▸ hack)
      · rw [hack] at hor
        exact (Option.some.inj hor).symm
    have hack' : TrueStart env request binds registration ack := by
      by_cases hbound : ∃ bind ∈ binds, env.registrationId bind = registration.registrationId
      · obtain ⟨bind, hbind, hid⟩ := hbound
        exact Or.inl ⟨bind, hbind, hid, hmatched bind hbind ack (hid ▸ hack)⟩
      · refine Or.inr ⟨fun bind hbind hid => hbound ⟨bind, hbind, hid⟩, ?_⟩
        rw [hack]
        rfl
    obtain ⟨arm, harm, hid, -⟩ := (harms registration hmem ack).mpr hack'
    refine ⟨⟨arm, harm, hid⟩, fun arm harm hid => ?_⟩
    exact htrue _ ((harms registration hmem arm.startAnchor).mp ⟨arm, harm, hid, rfl⟩)

/-- **Starts are honest and acknowledgements are continued.** Every answer to a `bind` of a run that
returns an outcome is a bind that starts where the consumer acknowledged; and the outcome reports
the true start of each registration. -/
theorem starts_honest (lab : Labelled env)
    (hids : (set.registrations.map Registration.registrationId).Nodup) (fuel : Nat)
    {w w' : World (σ × List (Except Error β)) β} (hfresh : w.host.2 = [])
    {outcome : PollCycleOutcome}
    (hrun : (runPollCycle (recording env) set request fuel).run w = some (.ok outcome, w')) :
    (∀ answer ∈ w'.host.2, ∃ bind, answer = .ok bind ∧
        ∀ ack, request.acknowledgedAnchors[env.registrationId bind]? = some ack →
          env.resolvedStart bind = ack) ∧
      StartsHonest env set request (bindsOf w'.host.2) outcome := by
  have hspec : ETriple (fun w : World (σ × List (Except Error β)) β => w.host.2 = [])
      (runPollCycle (recording env) set request fuel) _ Lost :=
    runPollCycle_settled lab hids fuel
  obtain ⟨hresolve, cycle, decision, houtcome, hloop⟩ := hspec w hfresh _ w' hrun
  rcases hloop with ⟨err, herr⟩ | ⟨⟨hclean, hperm, hmatched⟩, hone, hreflects⟩
  · obtain rfl : decision = .fault err := herr
    cases houtcome
  · have hone' : OnePerRegistration env (bindsOf w'.host.2) := fun b hb b' hb' hid =>
      hone b (hperm.subset hb) b' (hperm.subset hb') hid
    have hreflects' : Reflects env (bindsOf w'.host.2) decision.starts := fun item =>
      (hreflects item).trans (exists_congr fun bind => and_congr_left fun _ => hperm.mem_iff.symm)
    obtain ⟨visits, kind, hrows⟩ := decision_fromRows houtcome
    refine ⟨fun answer hanswer => ?_,
      startsHonest_of_rows hids hreflects' hone' hmatched hresolve hrows⟩
    obtain ⟨bind, rfl⟩ := hclean.bound answer hanswer
    exact ⟨bind, rfl, hmatched bind (List.mem_filterMap.mpr ⟨_, hanswer, rfl⟩)⟩

open Case in
/-- The world of a queue host that has answered no bind yet. -/
def freshRecording : World (QueueHost × List (Except Error ResolvedStart)) ResolvedStart where
  host := ((QueueHost.world pairWaiting (ts "2026-08-15T16:02:00Z") []).host, [])
  resolved := []
  log := []

open Case in
theorem starts_honest_pair :
    ∃ outcome w', (runPollCycle (recording queueEnv) pairSet (pollCycleRequest pairSet) 10).run
        freshRecording = some (.ok outcome, w') ∧
      StartsHonest queueEnv pairSet (pollCycleRequest pairSet) (bindsOf w'.host.2) outcome := by
  have hdone : (returned ((runPollCycle (recording queueEnv) pairSet (pollCycleRequest pairSet)
      10).run freshRecording)).any (fun _ => true) = true := by
    decide +kernel
  obtain ⟨outcome, w', hrun, -⟩ := exists_of_returned hdone
  exact ⟨outcome, w', hrun, (starts_honest queueFifo.toLabelled (by decide) 10 rfl hrun).2⟩

end PollCycle

end Waitprims
