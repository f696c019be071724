import Mathlib

/-! # Custody of the items of a FIFO queue

A *queue view* reads, off any world state, the present content of one first-in first-out queue and
the list of everything that ever arrived at it. Three moves change what the view shows: a *quiet*
move only lets new items arrive, a *pop* hands the front item to a holder, and a *push* takes an
item back to the front.

`Custody v w₀ held w` says that the items `held` by the holder, followed by the queue, are exactly
the initial content followed by what has arrived since: nothing is lost, duplicated or reordered.
A pop appends to what is held and a push takes the newest held item back, so custody with nothing
held is the conservation of the queue itself. -/

namespace Fifo

variable {ω ι : Type}

/-- One queue as seen in a world `ω`: its content, front first, and all arrivals so far. -/
structure QueueView (ω ι : Type) where
  /-- The items waiting, front first. -/
  queue : ω → List ι
  /-- Every item that has arrived at the back so far, oldest first. -/
  arrived : ω → List ι

variable (v : QueueView ω ι)

/-- **A quiet move**: items may arrive at the back and nothing else happens. -/
def Quiet (w w' : ω) : Prop :=
  ∃ new, v.arrived w' = v.arrived w ++ new ∧ v.queue w' = v.queue w ++ new

/-- **A pop** of `i`: the front item leaves, while items may arrive. -/
def Pop (i : ι) (w w' : ω) : Prop :=
  ∃ new, v.arrived w' = v.arrived w ++ new ∧ i :: v.queue w' = v.queue w ++ new

/-- **A push** of `i` to the front, while items may arrive. -/
def Push (i : ι) (w w' : ω) : Prop :=
  ∃ new, v.arrived w' = v.arrived w ++ new ∧ v.queue w' = i :: (v.queue w ++ new)

/-- **Custody**: what is held, followed by the queue, is the content of the queue at `w₀`
followed by what arrived since. -/
def Custody (w₀ : ω) (held : List ι) (w : ω) : Prop :=
  ∃ new, v.arrived w = v.arrived w₀ ++ new ∧ held ++ v.queue w = v.queue w₀ ++ new

variable {v} {w₀ w w' w'' : ω} {held : List ι} {i : ι}

@[simp] theorem Quiet.refl (w : ω) : Quiet v w w := ⟨[], by simp, by simp⟩

theorem Quiet.trans (h : Quiet v w w') (h' : Quiet v w' w'') : Quiet v w w'' := by
  obtain ⟨new, ha, hq⟩ := h
  obtain ⟨new', ha', hq'⟩ := h'
  exact ⟨new ++ new', by rw [ha', ha, List.append_assoc], by rw [hq', hq, List.append_assoc]⟩

/-- Nothing is held at the start. -/
theorem Custody.start (w₀ : ω) : Custody v w₀ [] w₀ := ⟨[], by simp, by simp⟩

/-- Custody with nothing held is a quiet run of the queue. -/
theorem custody_nil_iff : Custody v w₀ [] w ↔ Quiet v w₀ w := by
  simp [Custody, Quiet]

theorem Custody.quiet (h : Custody v w₀ held w) (hw : Quiet v w w') : Custody v w₀ held w' := by
  obtain ⟨new, ha, hq⟩ := h
  obtain ⟨new', ha', hq'⟩ := hw
  refine ⟨new ++ new', by rw [ha', ha, List.append_assoc], ?_⟩
  rw [hq', ← List.append_assoc, hq, List.append_assoc]

/-- **A pop moves the front item to the end of what is held.** -/
theorem Custody.pop (h : Custody v w₀ held w) (hw : Pop v i w w') :
    Custody v w₀ (held ++ [i]) w' := by
  obtain ⟨new, ha, hq⟩ := h
  obtain ⟨new', ha', hq'⟩ := hw
  refine ⟨new ++ new', by rw [ha', ha, List.append_assoc], ?_⟩
  calc held ++ [i] ++ v.queue w' = held ++ (i :: v.queue w') := by simp
    _ = held ++ v.queue w ++ new' := by rw [hq', List.append_assoc]
    _ = v.queue w₀ ++ (new ++ new') := by rw [hq, List.append_assoc]

/-- **A push returns the newest held item.** -/
theorem Custody.push (h : Custody v w₀ (held ++ [i]) w) (hw : Push v i w w') :
    Custody v w₀ held w' := by
  obtain ⟨new, ha, hq⟩ := h
  obtain ⟨new', ha', hq'⟩ := hw
  refine ⟨new ++ new', by rw [ha', ha, List.append_assoc], ?_⟩
  calc held ++ v.queue w' = held ++ [i] ++ v.queue w ++ new' := by rw [hq']; simp
    _ = v.queue w₀ ++ (new ++ new') := by rw [hq, List.append_assoc]

/-- **Custody composes**: what two runs in a row hold. -/
theorem Custody.trans {held' : List ι} (h : Custody v w₀ held w) (h' : Custody v w held' w') :
    Custody v w₀ (held ++ held') w' := by
  obtain ⟨new, ha, hq⟩ := h
  obtain ⟨new', ha', hq'⟩ := h'
  refine ⟨new ++ new', by rw [ha', ha, List.append_assoc], ?_⟩
  calc held ++ held' ++ v.queue w' = held ++ v.queue w ++ new' := by
        rw [List.append_assoc, hq', List.append_assoc]
    _ = v.queue w₀ ++ (new ++ new') := by rw [hq, List.append_assoc]

/-- Nothing of the initial content leaves custody. -/
theorem Custody.length_le (h : Custody v w₀ held w) :
    (v.queue w₀).length ≤ held.length + (v.queue w).length := by
  obtain ⟨new, -, hq⟩ := h
  have hlength := congrArg List.length hq
  rw [List.length_append, List.length_append] at hlength
  omega

/-- Two accounts of one queue hold equally much. -/
theorem Custody.length_eq {held' : List ι} (h : Custody v w₀ held w)
    (h' : Custody v w₀ held' w) : held.length = held'.length := by
  obtain ⟨new, ha, hq⟩ := h
  obtain ⟨new', ha', hq'⟩ := h'
  have hnew : new = new' := List.append_cancel_left (ha.symm.trans ha')
  have hlength := congrArg List.length (hq.trans (hnew ▸ hq'.symm))
  simpa using hlength

end Fifo
