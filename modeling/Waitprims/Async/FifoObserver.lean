import Mathlib
import Waitprims.Lib.Fifo
import Waitprims.Async.Ledger

/-! # The FIFO assumption on an observer

Each registration has its own queue of events, reached through its bind: `next` and `poll_ready`
pop its front or yield a signal, `restore_ready` pushes to its front, and dropping a pending future
loses nothing. Every other step of the environment only lets events arrive.

* **`QueuedObserver`** — the assumption, for one queue view per registration id; a restore that is
  rejected changes nothing.
* **`FifoObserver`** — in addition, every restore succeeds.
* **`custodyLedger`** — custody of the events of one registration is a ledger: what is held,
  followed by the queue, is what the queue was, followed by what has arrived. -/

namespace Waitprims

open Fueled Fifo

variable {σ β φ ψ : Type}

/-- **Labels**: a bind observes the registration it was asked for, and an event carries the
registration id of its bind. -/
structure Labelled (env : Env σ β φ ψ) where
  /-- The registration a pending `bind` is for. -/
  bindTarget : φ → IdToken
  /-- The registration a pending `next` is for. -/
  nextTarget : ψ → IdToken
  bind_target : ∀ registration s,
    bindTarget (env.bindStep registration s).1 = registration.registrationId
  pollBind_target : ∀ fut s bind, (env.pollBindStep fut s).1 = .ready (.ok bind) →
    env.registrationId bind = bindTarget fut
  next_target : ∀ bind s, nextTarget (env.nextStep bind s).1 = env.registrationId bind
  pollNext_label : ∀ fut s event, (env.pollNextStep fut s).1 = .ready (.ok (.event event)) →
    event.registrationId = nextTarget fut
  pollReady_label : ∀ bind s event, (env.pollReadyStep bind s).1 = some (.event event) →
    event.registrationId = env.registrationId bind

/-- **One queue per registration**: `view r` is the queue of registration `r`. -/
structure QueuedObserver (env : Env σ β φ ψ) extends Labelled env where
  view : IdToken → QueueView σ WaitEvent
  bind_quiet : ∀ r registration s, Quiet (view r) s (env.bindStep registration s).2
  pollBind_quiet : ∀ r fut s, Quiet (view r) s (env.pollBindStep fut s).2
  dropBind_quiet : ∀ r fut s, Quiet (view r) s (env.dropBindStep fut s)
  next_quiet : ∀ r bind s, Quiet (view r) s (env.nextStep bind s).2
  dropNext_quiet : ∀ r fut s, Quiet (view r) s (env.dropNextStep fut s)
  now_quiet : ∀ r s, Quiet (view r) s (env.nowStep s).2
  sleep_quiet : ∀ r deadline s, Quiet (view r) s (env.sleepUntilStep deadline s).2
  cancel_quiet : ∀ r s, Quiet (view r) s (env.isCancelledStep s).2
  park_quiet : ∀ r s, Quiet (view r) s (env.parkStep s)
  pollNext_event : ∀ fut s event, (env.pollNextStep fut s).1 = .ready (.ok (.event event)) →
    Pop (view (nextTarget fut)) event s (env.pollNextStep fut s).2
  pollNext_quiet : ∀ r fut s,
    (∀ event, (env.pollNextStep fut s).1 = .ready (.ok (.event event)) → nextTarget fut ≠ r) →
    Quiet (view r) s (env.pollNextStep fut s).2
  pollReady_event : ∀ bind s event, (env.pollReadyStep bind s).1 = some (.event event) →
    Pop (view (env.registrationId bind)) event s (env.pollReadyStep bind s).2
  pollReady_quiet : ∀ r bind s,
    (∀ event, (env.pollReadyStep bind s).1 = some (.event event) → env.registrationId bind ≠ r) →
    Quiet (view r) s (env.pollReadyStep bind s).2
  restore_event : ∀ bind event s, event.registrationId = env.registrationId bind →
    (env.restoreReadyStep bind (.event event) s).1 = .ok () →
    Push (view (env.registrationId bind)) event s (env.restoreReadyStep bind (.event event) s).2
  restore_quiet : ∀ r bind obs s,
    (∀ event, obs = .event event → (env.restoreReadyStep bind obs s).1 = .ok () →
      event.registrationId = env.registrationId bind ∧ env.registrationId bind ≠ r) →
    Quiet (view r) s (env.restoreReadyStep bind obs s).2

/-- **The FIFO assumption**: a restore always succeeds. -/
structure FifoObserver (env : Env σ β φ ψ) extends QueuedObserver env where
  restore_accepts : ∀ bind obs s, (env.restoreReadyStep bind obs s).1 = .ok ()

/-- The events of one registration among the items. -/
def heldBy (env : Env σ β φ ψ) (r : IdToken) (items : List (Item β)) : List WaitEvent :=
  items.flatMap fun item => match item with
    | .event _ bind e => if env.registrationId bind = r then [e] else []
    | .signal .. => []

/-- The slot of an item. -/
def Item.slot : Item β → Nat
  | .event k _ _ => k
  | .signal _ k _ _ => k

/-- The bind of an item. -/
def Item.bind : Item β → β
  | .event _ b _ => b
  | .signal _ _ b _ => b

section heldBy

variable {env : Env σ β φ ψ} {r : IdToken}

@[simp] theorem heldBy_nil : heldBy env r [] = [] := rfl

@[simp] theorem heldBy_append (xs ys : List (Item β)) :
    heldBy env r (xs ++ ys) = heldBy env r xs ++ heldBy env r ys := by
  simp [heldBy]

@[simp] theorem heldBy_event (k : Nat) (bind : β) (e : WaitEvent) :
    heldBy env r [.event k bind e] = if env.registrationId bind = r then [e] else [] := by
  simp [heldBy]

@[simp] theorem heldBy_signal (m : Mark) (k : Nat) (bind : β) (obs : Observation) :
    heldBy env r [.signal m k bind obs] = [] := rfl

/-- The bind of an item observes the registration of the item's slot, and an event carries its
id. -/
def Item.AtSlot (env : Env σ β φ ψ) (ids : List IdToken) (item : Item β) : Prop :=
  ids[item.slot]? = some (env.registrationId item.bind) ∧
    ∀ slot bind e, item = .event slot bind e → e.registrationId = env.registrationId bind

/-- Every item is at its slot. -/
def AtSlots (env : Env σ β φ ψ) (ids : List IdToken) (items : List (Item β)) : Prop :=
  ∀ item ∈ items, item.AtSlot env ids

/-- With distinct ids, the events of a registration are those at its slot. -/
theorem heldBy_eq_heldAt {ids : List IdToken} (hids : ids.Nodup) {slot : Nat}
    (hslot : ids[slot]? = some r) {items : List (Item β)} (hat : AtSlots env ids items) :
    heldBy env r items = heldAt slot items := by
  unfold heldBy heldAt
  refine List.flatMap_congr fun item hitem => ?_
  have hitem' := (hat item hitem).1
  cases item with
  | signal => rfl
  | event k bind e =>
    have hiff : env.registrationId bind = r ↔ k = slot := by
      constructor
      · intro heq
        have hk : ids[k]? = ids[slot]? := by rw [hslot, ← heq]; exact hitem'
        have hlt : k < ids.length := (List.getElem?_eq_some_iff.mp hitem').1
        exact (List.getElem?_inj hlt hids).mp hk
      · rintro rfl
        have hk : ids[k]? = some (env.registrationId bind) := hitem'
        exact Option.some.inj (hk.symm.trans hslot)
    simp only [hiff]

/-- A registration outside the set has no item. -/
theorem heldBy_eq_nil {ids : List IdToken} (hr : r ∉ ids) {items : List (Item β)}
    (hat : AtSlots env ids items) : heldBy env r items = [] := by
  unfold heldBy
  rw [List.flatMap_eq_nil_iff]
  intro item hitem
  have hitem' := (hat item hitem).1
  cases item with
  | signal => rfl
  | event k bind e =>
    have hne : env.registrationId bind ≠ r := by
      rintro rfl
      exact hr (List.mem_of_getElem? hitem')
    exact if_neg hne

/-- Items may be reordered across slots without changing what a registration holds. -/
theorem heldBy_settle {ids : List IdToken} (hids : ids.Nodup) {items items' : List (Item β)}
    (hat : AtSlots env ids items) (hsub : items' ⊆ items)
    (hheld : ∀ slot, heldAt slot items' = heldAt slot items) :
    heldBy env r items' = heldBy env r items := by
  have hat' : AtSlots env ids items' := fun item hitem => hat item (hsub hitem)
  by_cases hr : r ∈ ids
  · obtain ⟨slot, hslot⟩ := List.mem_iff_getElem?.mp hr
    rw [heldBy_eq_heldAt hids hslot hat, heldBy_eq_heldAt hids hslot hat', hheld]
  · rw [heldBy_eq_nil hr hat, heldBy_eq_nil hr hat']

theorem AtSlots.snoc {ids : List IdToken} {items : List (Item β)} {item : Item β}
    (h : AtSlots env ids items) (hitem : item.AtSlot env ids) : AtSlots env ids (items ++ [item]) := by
  intro item' hmem
  rcases List.mem_append.mp hmem with hmem | hmem
  · exact h item' hmem
  · rwa [List.mem_singleton.mp hmem]

theorem AtSlots.init {ids : List IdToken} {items : List (Item β)} {item : Item β}
    (h : AtSlots env ids (items ++ [item])) : AtSlots env ids items :=
  fun item' hmem => h item' (List.mem_append_left _ hmem)

/-- A dequeued observation is at the slot of its bind. -/
theorem atSlot_of {ids : List IdToken} {slot : Nat} {bind : β} {mark : Mark} {obs : Observation}
    (hseat : ids[slot]? = some (env.registrationId bind))
    (hlabel : ∀ e, obs = .event e → e.registrationId = env.registrationId bind) :
    (Item.of mark slot bind obs).AtSlot env ids := by
  cases obs with
  | event e =>
    refine ⟨hseat, ?_⟩
    rintro _ _ _ ⟨⟩
    exact hlabel e rfl
  | _ => exact ⟨hseat, by simp [Item.of]⟩

end heldBy

/-! ## Custody as a ledger -/

/-- One step of the host. -/
theorem host_spec {α : Type} {P : World σ β → Prop} {f : σ → α × σ} {Q : α → World σ β → Prop}
    (h : ∀ w : World σ β, P w → Q (f w.host).1 { w with host := (f w.host).2 }) :
    Triple P (Act.host f) Q := by
  rintro w hw a w' ⟨⟩
  exact h w hw

/-- The history of a run is nothing an assertion about the host sees. -/
theorem record_spec {P : World σ β → Prop} {entries : List (Call β)}
    (h : ∀ w : World σ β, P w → P { w with log := w.log ++ entries }) :
    Triple P (Act.record entries) fun _ => P := by
  rintro w hw a w' ⟨⟩
  exact h w hw

section custody

variable {env : Env σ β φ ψ} (queued : QueuedObserver env) {ids : List IdToken} (r : IdToken)
  (host₀ : σ)

/-- Custody of registration `r` since the host was in state `host₀`. -/
def CustodyOwn (ids : List IdToken) (items : List (Item β)) (w : World σ β) : Prop :=
  AtSlots env ids items ∧ Custody (queued.view r) host₀ (heldBy env r items) w.host

variable {queued r host₀} {items : List (Item β)}

/-- A quiet step keeps custody. -/
theorem CustodyOwn.quiet {w w' : World σ β} (h : CustodyOwn queued r host₀ ids items w)
    (hw : Quiet (queued.view r) w.host w'.host) : CustodyOwn queued r host₀ ids items w' :=
  ⟨h.1, h.2.quiet hw⟩

theorem host_quiet {α : Type} {f : σ → α × σ} (hf : ∀ s, Quiet (queued.view r) s (f s).2) :
    Triple (CustodyOwn queued r host₀ ids items) (Act.host f) fun _ =>
      CustodyOwn queued r host₀ ids items :=
  host_spec fun w h => h.quiet (hf w.host)

/-- **Dequeuing** an observation of a bind appends it to what is held. -/
theorem CustodyOwn.dequeue {slot : Nat} {bind : β} {mark : Mark} {obs : Observation}
    {w w' : World σ β} (h : CustodyOwn queued r host₀ ids items w)
    (hseat : ids[slot]? = some (env.registrationId bind))
    (hlabel : ∀ e, obs = .event e → e.registrationId = env.registrationId bind)
    (hpop : ∀ e, obs = .event e → env.registrationId bind = r →
      Pop (queued.view r) e w.host w'.host)
    (hquiet : (∀ e, obs = .event e → env.registrationId bind ≠ r) →
      Quiet (queued.view r) w.host w'.host) :
    CustodyOwn queued r host₀ ids (items ++ [Item.of mark slot bind obs]) w' := by
  refine ⟨h.1.snoc (atSlot_of hseat hlabel), ?_⟩
  rw [heldBy_append]
  cases obs with
  | event e =>
    by_cases hr : env.registrationId bind = r
    · simpa [Item.of, hr] using h.2.pop (hpop e rfl hr)
    · simpa [Item.of, hr] using h.2.quiet (hquiet fun _ _ => hr)
  | _ => simpa [Item.of] using h.2.quiet (hquiet fun e he => by cases he)

/-- Some restore was rejected, by an observer that can reject it. -/
def Rejected (env : Env σ β φ ψ) (w : World σ β) : Prop :=
  ∃ bind obs s, (env.restoreReadyStep bind obs s).1 ≠ .ok () ∧ .restore bind obs false ∈ w.log

/-- **Restoring**: an event that is accepted goes back to the front of its queue. -/
theorem restoreReady_custody {bind : β} {obs : Observation} {items' : List (Item β)}
    (hlabel : ∀ w, CustodyOwn queued r host₀ ids items' w →
      ∀ e, obs = .event e → e.registrationId = env.registrationId bind)
    (h : ∀ w w' : World σ β, CustodyOwn queued r host₀ ids items' w →
      (∀ e, obs = .event e → env.registrationId bind = r → Push (queued.view r) e w.host w'.host) →
      ((∀ e, obs = .event e → env.registrationId bind ≠ r) →
        Quiet (queued.view r) w.host w'.host) →
      CustodyOwn queued r host₀ ids items w') :
    Triple (CustodyOwn queued r host₀ ids items') (env.restoreReady bind obs) fun answer w =>
      match answer with
        | .ok _ => CustodyOwn queued r host₀ ids items w
        | .error _ => Rejected env w := by
  have hstep : Triple (CustodyOwn queued r host₀ ids items')
      (Act.host (env.restoreReadyStep bind obs)) fun answer w => match answer with
        | .ok _ => CustodyOwn queued r host₀ ids items w
        | .error _ => ∃ s, (env.restoreReadyStep bind obs s).1 ≠ .ok () := by
    refine host_spec fun w hw => ?_
    cases hanswer : (env.restoreReadyStep bind obs w.host).1 with
    | error err => exact ⟨w.host, by simp [hanswer]⟩
    | ok _ =>
      refine h w _ hw ?_ ?_
      · rintro e rfl rfl
        exact queued.restore_event bind e w.host (hlabel w hw e rfl) hanswer
      · exact fun hne => queued.restore_quiet r bind obs w.host fun e he _ =>
          ⟨hlabel w hw e he, hne e he⟩
  refine Triple.bind hstep fun answer => ?_
  cases answer with
  | ok _ =>
    exact Triple.bind (record_spec fun w h => h) fun _ => Triple.pure fun w h => h
  | error err =>
    have hrecord : Triple (fun _ => ∃ s, (env.restoreReadyStep bind obs s).1 ≠ .ok ())
        (Act.record [.restore bind obs false] : Act σ β Unit) fun _ => Rejected env := by
      rintro w ⟨s, hs⟩ _ _ ⟨⟩
      exact ⟨bind, obs, s, hs, by simp⟩
    exact Triple.bind hrecord fun _ => Triple.pure fun w h => h

/-- **Custody is a ledger**, for every registration of a set with distinct ids. -/
def custodyLedger (hids : ids.Nodup) (queued : QueuedObserver env) (r : IdToken) (host₀ : σ) :
    Ledger env ids where
  own _ := CustodyOwn queued r host₀ ids
  broken := Rejected env
  broken_host := fun _ h => h
  aim slot fut := ids[slot]? = some (queued.bindTarget fut)
  seat slot bind := ids[slot]? = some (env.registrationId bind)
  attached bind fut := queued.nextTarget fut = env.registrationId bind
  settle := by
    rintro _ _ items items' w _ hsub hheld ⟨hat, hcustody⟩
    refine ⟨fun item hitem => hat item (hsub hitem), ?_⟩
    rwa [heldBy_settle hids hat hsub hheld]
  resolved := fun _ h => h
  bind := by
    intro slot registration _ items hslot
    refine host_spec fun w h => ⟨?_, h.quiet (queued.bind_quiet r registration w.host)⟩
    rw [queued.bind_target]
    exact hslot
  pollBind := by
    intro slot fut _ items haim
    refine host_spec fun w h => ⟨fun bind hbind => ?_, h.quiet (queued.pollBind_quiet r fut w.host)⟩
    rw [queued.pollBind_target fut w.host bind hbind]
    exact haim
  dropBind := fun _ _ fut => host_quiet fun s => queued.dropBind_quiet r fut s
  next := by
    intro slot bind _ items _
    have hstep : Triple (CustodyOwn queued r host₀ ids items) (Act.host (env.nextStep bind))
        fun fut w => queued.nextTarget fut = env.registrationId bind ∧
          CustodyOwn queued r host₀ ids items w :=
      host_spec fun w h => ⟨queued.next_target bind w.host, h.quiet (queued.next_quiet r bind w.host)⟩
    exact Triple.bind hstep fun fut => Triple.pure fun w h => ⟨rfl, h⟩
  pollNext := by
    intro slot bind fut _ items hseat hattached
    have hstep : Triple (CustodyOwn queued r host₀ ids items) (Act.host (env.pollNextStep fut))
        fun answer w => match answer with
          | .ready (.ok obs) =>
            CustodyOwn queued r host₀ ids (items ++ [Item.of .fresh slot bind obs]) w
          | _ => CustodyOwn queued r host₀ ids items w := by
      refine host_spec fun w h => ?_
      have hquiet := queued.pollNext_quiet r fut w.host
      have hevent := queued.pollNext_event fut w.host
      have hlabel := queued.pollNext_label fut w.host
      rw [hattached] at hquiet hevent hlabel
      split
      · next obs hobs =>
        refine h.dequeue hseat (fun e he => hlabel e (by rw [hobs, he])) (fun e he hr => ?_)
          fun hne => hquiet fun e he => ?_
        · rw [← hr]
          exact hevent e (by rw [hobs, he])
        · rw [hobs] at he
          simp only [Poll.ready.injEq, Except.ok.injEq] at he
          exact hne e he
      · next hother =>
        exact h.quiet (hquiet fun e he => absurd he (hother _))
    refine Triple.bind hstep ?_
    rintro ((err | obs) | _)
    · exact Triple.pure fun w h => h
    · exact Triple.bind (record_spec fun w h => h) fun _ => Triple.pure fun w h => h
    · exact Triple.pure fun w h => h
  dropNext := fun _ _ fut => host_quiet fun s => queued.dropNext_quiet r fut.2 s
  pollReady := by
    intro slot bind mark _ items hseat _
    have hstep : Triple (CustodyOwn queued r host₀ ids items) (Act.host (env.pollReadyStep bind))
        fun answer w => match answer with
          | some obs => CustodyOwn queued r host₀ ids (items ++ [Item.of mark slot bind obs]) w
          | none => CustodyOwn queued r host₀ ids items w := by
      refine host_spec fun w h => ?_
      have hquiet := queued.pollReady_quiet r bind w.host
      split
      · next obs hobs =>
        refine h.dequeue hseat
          (fun e he => queued.pollReady_label bind w.host e (by rw [hobs, he]))
          (fun e he hr => ?_) fun hne => hquiet fun e he => ?_
        · rw [← hr]
          exact queued.pollReady_event bind w.host e (by rw [hobs, he])
        · rw [hobs] at he
          exact hne e (Option.some.inj he)
      · next hnone => exact h.quiet (hquiet fun e he => by rw [hnone] at he; cases he)
    refine Triple.bind hstep fun answer => ?_
    refine Triple.bind (R := fun _ w => match answer with
      | some obs => CustodyOwn queued r host₀ ids (items ++ [Item.of mark slot bind obs]) w
      | none => CustodyOwn queued r host₀ ids items w) ?_ fun _ => Triple.pure fun w h => h
    cases answer <;> exact record_spec fun w h => h
  restoreEvent := by
    intro slot bind event _ items _
    refine restoreReady_custody (fun w h e he => ?_) fun w w' h hpush hquiet => ⟨h.1.init, ?_⟩
    · obtain rfl : event = e := by simpa using he
      exact (h.1 _ (List.mem_append_right _ List.mem_cons_self)).2 slot bind event rfl
    have hcustody := h.2
    rw [heldBy_append, heldBy_event] at hcustody
    by_cases hr : env.registrationId bind = r
    · rw [if_pos hr] at hcustody
      exact hcustody.push (hpush event rfl hr)
    · rw [if_neg hr, List.append_nil] at hcustody
      exact hcustody.quiet (hquiet fun _ _ => hr)
  restoreSignal := by
    intro slot bind mark obs _ items _ _ hsignal
    have hnone : ∀ e, obs ≠ .event e := by
      rintro e rfl
      cases hsignal
    refine restoreReady_custody (fun _ _ e he => absurd he (hnone e))
      fun w w' h _ hquiet => ⟨h.1.init, ?_⟩
    have hcustody := h.2
    rw [heldBy_append, heldBy_signal, List.append_nil] at hcustody
    exact hcustody.quiet (hquiet fun e he => absurd he (hnone e))
  markAdmitted := fun _ _ => record_spec fun _ h => h
  markVisited := fun _ _ => record_spec fun _ h => h
  now := fun _ _ => host_quiet fun s => queued.now_quiet r s
  sleepUntil := fun _ _ deadline => host_quiet fun s => queued.sleep_quiet r deadline s
  isCancelled := fun _ _ => host_quiet fun s => queued.cancel_quiet r s
  park := fun _ _ => host_quiet fun s => queued.park_quiet r s

/-- Where every restore succeeds, none is rejected. -/
theorem FifoObserver.not_rejected (fifo : FifoObserver env) (w : World σ β) :
    ¬ Rejected env w := by
  rintro ⟨bind, obs, s, hreject, -⟩
  exact hreject (fifo.restore_accepts bind obs s)

/-- A run that ends with nothing held leaves the queue as it was, with the arrivals behind. -/
theorem CustodyOwn.conserved {w : World σ β} (h : CustodyOwn queued r host₀ ids [] w) :
    Quiet (queued.view r) host₀ w.host :=
  custody_nil_iff.mp h.2

theorem CustodyOwn.start (w : World σ β) : CustodyOwn queued r w.host ids [] w :=
  ⟨by simp [AtSlots], Custody.start w.host⟩

end custody

end Waitprims
