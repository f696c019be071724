import Mathlib

/-! # Partial-correctness triples for fueled stateful programs

Programs over a state `σ` that may run out of fuel are `StateT σ Option`, and programs that may
also fail are `ExceptT ε (StateT σ Option)`. A triple constrains only the runs that finish: a run
that exhausts its fuel satisfies every postcondition, so a statement about a finished run reads the
postcondition off the run's own result.

* **`Triple P x Q`** — from every state in `P`, a finished run of `x` ends in `Q`.
* **`ETriple P x Q E`** — the same for a failing program, with `E` the postcondition of a failure.
* **`Finishes P x Q`** — from every state in `P` a run of `x` finishes, and ends in `Q`.
* **`EFinishes P x Q`** — the same for a failing program, with nothing required of a failure.
* The rules follow the program's own structure: `pure`, `bind`, `throw`, `lift`, and weakening. -/

namespace Fueled

universe u

variable {σ ε α γ : Type}

/-- **Partial correctness**: every finished run of `x` from a state in `P` ends in `Q`. -/
def Triple (P : σ → Prop) (x : StateT σ Option α) (Q : α → σ → Prop) : Prop :=
  ∀ s, P s → ∀ a t, x s = some (a, t) → Q a t

/-- Partial correctness of a program that may fail: `Q` on success, `E` on failure. -/
def ETriple (P : σ → Prop) (x : ExceptT ε (StateT σ Option) α) (Q : α → σ → Prop)
    (E : ε → σ → Prop) : Prop :=
  Triple P x.run fun r s => match r with
    | .ok a => Q a s
    | .error e => E e s

/-! ## Rules for programs that cannot fail -/

theorem Triple.run {P : σ → Prop} {x : StateT σ Option α} {Q : α → σ → Prop}
    (h : Triple P x Q) {s t : σ} {a : α} (hs : P s) (hx : x s = some (a, t)) : Q a t :=
  h s hs a t hx

theorem Triple.pure {P : σ → Prop} {Q : α → σ → Prop} {a : α} (h : ∀ s, P s → Q a s) :
    Triple P (Pure.pure a : StateT σ Option α) Q := by
  rintro s hs b t hb
  cases hb
  exact h s hs

/-- **Sequencing**: the intermediate assertion `R` is what the first program guarantees. -/
theorem Triple.bind {P : σ → Prop} {x : StateT σ Option α} {f : α → StateT σ Option γ}
    {R : α → σ → Prop} {Q : γ → σ → Prop} (hx : Triple P x R) (hf : ∀ a, Triple (R a) (f a) Q) :
    Triple P (x >>= f) Q := by
  intro s hs c t hc
  change (x s).bind (fun p => f p.1 p.2) = some (c, t) at hc
  cases hxs : x s with
  | none => rw [hxs] at hc; cases hc
  | some p =>
    rw [hxs] at hc
    exact hf p.1 p.2 (hx s hs p.1 p.2 hxs) c t hc

theorem Triple.conseq {P P' : σ → Prop} {x : StateT σ Option α} {Q Q' : α → σ → Prop}
    (h : Triple P' x Q') (hP : ∀ s, P s → P' s) (hQ : ∀ a s, Q' a s → Q a s) : Triple P x Q :=
  fun s hs a t hx => hQ a t (h s (hP s hs) a t hx)

theorem Triple.weaken {P : σ → Prop} {x : StateT σ Option α} {Q Q' : α → σ → Prop}
    (h : Triple P x Q') (hQ : ∀ a s, Q' a s → Q a s) : Triple P x Q :=
  h.conseq (fun _ hs => hs) hQ

theorem Triple.strengthen {P P' : σ → Prop} {x : StateT σ Option α} {Q : α → σ → Prop}
    (h : Triple P' x Q) (hP : ∀ s, P s → P' s) : Triple P x Q :=
  h.conseq hP fun _ _ hq => hq

/-- Two postconditions of one program hold together. -/
theorem Triple.and {P P' : σ → Prop} {x : StateT σ Option α} {Q Q' : α → σ → Prop}
    (h : Triple P x Q) (h' : Triple P' x Q') :
    Triple (fun s => P s ∧ P' s) x fun a s => Q a s ∧ Q' a s :=
  fun s hs a t hx => ⟨h s hs.1 a t hx, h' s hs.2 a t hx⟩

/-- A pure side condition in the precondition may be assumed when proving the triple. -/
theorem Triple.assume {p : Prop} {P : σ → Prop} {x : StateT σ Option α} {Q : α → σ → Prop}
    (h : p → Triple P x Q) : Triple (fun s => p ∧ P s) x Q :=
  fun s hs => h hs.1 s hs.2

/-- A pure fact that the precondition implies may be assumed when proving the triple. -/
theorem Triple.fact {p : Prop} {P : σ → Prop} {x : StateT σ Option α} {Q : α → σ → Prop}
    (hp : ∀ s, P s → p) (h : p → Triple P x Q) : Triple P x Q :=
  fun s hs => h (hp s hs) s hs

/-- Nothing is required and nothing is guaranteed. -/
theorem Triple.vacuous {P : σ → Prop} {x : StateT σ Option α} :
    Triple P x fun _ _ => True :=
  fun _ _ _ _ _ => True.intro

/-- An exhausted run satisfies every postcondition. -/
theorem Triple.exhausted {P : σ → Prop} {Q : α → σ → Prop} :
    Triple P (fun _ => none : StateT σ Option α) Q :=
  fun _ _ _ _ h => by cases h

/-- The rule for a single state transformer that always finishes. -/
theorem Triple.act {P : σ → Prop} {f : σ → α × σ} {Q : α → σ → Prop}
    (h : ∀ s, P s → Q (f s).1 (f s).2) : Triple P (fun s => some (f s) : StateT σ Option α) Q := by
  intro s hs a t hx
  obtain ⟨rfl, rfl⟩ := Prod.mk.inj (Option.some.inj hx)
  exact h s hs

/-! ## Rules for programs that finish -/

/-- **Total correctness**: from a state in `P`, `x` finishes and ends in `Q`. -/
def Finishes (P : σ → Prop) (x : StateT σ Option α) (Q : α → σ → Prop) : Prop :=
  ∀ s, P s → ∃ a t, x s = some (a, t) ∧ Q a t

theorem Finishes.pure {P : σ → Prop} {Q : α → σ → Prop} {a : α} (h : ∀ s, P s → Q a s) :
    Finishes P (Pure.pure a : StateT σ Option α) Q :=
  fun s hs => ⟨a, s, rfl, h s hs⟩

/-- The rule for a single state transformer. -/
theorem Finishes.act {P : σ → Prop} {f : σ → α × σ} {Q : α → σ → Prop}
    (h : ∀ s, P s → Q (f s).1 (f s).2) :
    Finishes P (fun s => some (f s) : StateT σ Option α) Q :=
  fun s hs => ⟨(f s).1, (f s).2, rfl, h s hs⟩

/-- **Sequencing**: the second program finishes from where the first ends. -/
theorem Finishes.bind {P : σ → Prop} {x : StateT σ Option α} {f : α → StateT σ Option γ}
    {R : α → σ → Prop} {Q : γ → σ → Prop} (hx : Finishes P x R)
    (hf : ∀ a, Finishes (R a) (f a) Q) : Finishes P (x >>= f) Q := by
  intro s hs
  obtain ⟨a, t, hxs, hr⟩ := hx s hs
  obtain ⟨c, u, hft, hq⟩ := hf a t hr
  refine ⟨c, u, ?_, hq⟩
  change (x s).bind (fun p => f p.1 p.2) = some (c, u)
  rw [hxs]
  exact hft

theorem Finishes.conseq {P P' : σ → Prop} {x : StateT σ Option α} {Q Q' : α → σ → Prop}
    (h : Finishes P' x Q') (hP : ∀ s, P s → P' s) (hQ : ∀ a s, Q' a s → Q a s) :
    Finishes P x Q := by
  intro s hs
  obtain ⟨a, t, hx, hq⟩ := h s (hP s hs)
  exact ⟨a, t, hx, hQ a t hq⟩

theorem Finishes.weaken {P : σ → Prop} {x : StateT σ Option α} {Q Q' : α → σ → Prop}
    (h : Finishes P x Q') (hQ : ∀ a s, Q' a s → Q a s) : Finishes P x Q :=
  h.conseq (fun _ hs => hs) hQ

theorem Finishes.strengthen {P P' : σ → Prop} {x : StateT σ Option α} {Q : α → σ → Prop}
    (h : Finishes P' x Q) (hP : ∀ s, P s → P' s) : Finishes P x Q :=
  h.conseq hP fun _ _ hq => hq

/-- A pure side condition in the precondition may be assumed. -/
theorem Finishes.assume {p : Prop} {P : σ → Prop} {x : StateT σ Option α} {Q : α → σ → Prop}
    (h : p → Finishes P x Q) : Finishes (fun s => p ∧ P s) x Q :=
  fun s hs => h hs.1 s hs.2

/-- A pure fact that the precondition implies may be assumed. -/
theorem Finishes.fact {p : Prop} {P : σ → Prop} {x : StateT σ Option α} {Q : α → σ → Prop}
    (hp : ∀ s, P s → p) (h : p → Finishes P x Q) : Finishes P x Q :=
  fun s hs => h (hp s hs) s hs

/-- A program that finishes ends in what every finished run of it ends in. -/
theorem Finishes.and_triple {P : σ → Prop} {x : StateT σ Option α} {Q Q' : α → σ → Prop}
    (h : Finishes P x Q) (h' : Triple P x Q') : Finishes P x Q' := by
  intro s hs
  obtain ⟨a, t, hx, -⟩ := h s hs
  exact ⟨a, t, hx, h' s hs a t hx⟩

/-! ## Rules for programs that may fail -/

theorem ETriple.pure {P : σ → Prop} {Q : α → σ → Prop} {E : ε → σ → Prop} {a : α}
    (h : ∀ s, P s → Q a s) : ETriple P (Pure.pure a : ExceptT ε (StateT σ Option) α) Q E :=
  Triple.pure (a := Except.ok a) h

theorem ETriple.throw {P : σ → Prop} {Q : α → σ → Prop} {E : ε → σ → Prop} {e : ε}
    (h : ∀ s, P s → E e s) :
    ETriple P (MonadExcept.throw e : ExceptT ε (StateT σ Option) α) Q E :=
  Triple.pure (a := Except.error e) h

/-- A computed result, used as a program. -/
theorem ETriple.result {P : σ → Prop} {Q : α → σ → Prop} {E : ε → σ → Prop} {r : Except ε α}
    (hok : ∀ a, r = .ok a → ∀ s, P s → Q a s) (herr : ∀ e, r = .error e → ∀ s, P s → E e s) :
    ETriple P (ExceptT.mk (Pure.pure r) : ExceptT ε (StateT σ Option) α) Q E := by
  cases r with
  | ok a => exact ETriple.pure (hok a rfl)
  | error e => exact ETriple.throw (herr e rfl)

/-- **Sequencing with failure**: a failure of the first program is a failure of the whole. -/
theorem ETriple.bind {P : σ → Prop} {x : ExceptT ε (StateT σ Option) α}
    {f : α → ExceptT ε (StateT σ Option) γ} {R : α → σ → Prop} {Q : γ → σ → Prop}
    {E : ε → σ → Prop} (hx : ETriple P x R E) (hf : ∀ a, ETriple (R a) (f a) Q E) :
    ETriple P (x >>= f) Q E := by
  refine Triple.bind hx ?_
  rintro (e | a)
  · exact Triple.pure fun s hs => hs
  · exact hf a

/-- A program that cannot fail, run inside one that may. -/
theorem ETriple.lift {P : σ → Prop} {x : StateT σ Option α} {Q : α → σ → Prop}
    {E : ε → σ → Prop} (h : Triple P x Q) :
    ETriple P (liftM x : ExceptT ε (StateT σ Option) α) Q E := by
  intro s hs r t hr
  change (x s).bind (fun p => some (Except.ok p.1, p.2)) = some (r, t) at hr
  obtain ⟨p, hp, hr⟩ := Option.bind_eq_some_iff.mp hr
  cases hr
  exact h s hs p.1 p.2 hp

theorem ETriple.conseq {P P' : σ → Prop} {x : ExceptT ε (StateT σ Option) α}
    {Q Q' : α → σ → Prop} {E E' : ε → σ → Prop} (h : ETriple P' x Q' E')
    (hP : ∀ s, P s → P' s) (hQ : ∀ a s, Q' a s → Q a s) (hE : ∀ e s, E' e s → E e s) :
    ETriple P x Q E :=
  Triple.conseq h hP fun r s hr => match r with
    | .ok a => hQ a s hr
    | .error e => hE e s hr

theorem ETriple.weaken {P : σ → Prop} {x : ExceptT ε (StateT σ Option) α}
    {Q Q' : α → σ → Prop} {E : ε → σ → Prop} (h : ETriple P x Q' E)
    (hQ : ∀ a s, Q' a s → Q a s) : ETriple P x Q E :=
  h.conseq (fun _ hs => hs) hQ fun _ _ he => he

theorem ETriple.strengthen {P P' : σ → Prop} {x : ExceptT ε (StateT σ Option) α}
    {Q : α → σ → Prop} {E : ε → σ → Prop} (h : ETriple P' x Q E) (hP : ∀ s, P s → P' s) :
    ETriple P x Q E :=
  h.conseq hP (fun _ _ hq => hq) fun _ _ he => he

/-- Two postconditions of one program that may fail hold together. -/
theorem ETriple.and {P P' : σ → Prop} {x : ExceptT ε (StateT σ Option) α}
    {Q Q' : α → σ → Prop} {E E' : ε → σ → Prop} (h : ETriple P x Q E)
    (h' : ETriple P' x Q' E') :
    ETriple (fun s => P s ∧ P' s) x (fun a s => Q a s ∧ Q' a s) fun e s => E e s ∧ E' e s :=
  (Triple.and h h').weaken fun r _ hr => match r with
    | .ok _ => hr
    | .error _ => hr

theorem ETriple.assume {p : Prop} {P : σ → Prop} {x : ExceptT ε (StateT σ Option) α}
    {Q : α → σ → Prop} {E : ε → σ → Prop} (h : p → ETriple P x Q E) :
    ETriple (fun s => p ∧ P s) x Q E :=
  fun s hs => h hs.1 s hs.2

theorem ETriple.fact {p : Prop} {P : σ → Prop} {x : ExceptT ε (StateT σ Option) α}
    {Q : α → σ → Prop} {E : ε → σ → Prop} (hp : ∀ s, P s → p) (h : p → ETriple P x Q E) :
    ETriple P x Q E :=
  fun s hs => h (hp s hs) s hs

/-- Nothing is required of a program and nothing is guaranteed. -/
theorem ETriple.vacuous {P : σ → Prop} {x : ExceptT ε (StateT σ Option) α} :
    ETriple P x (fun _ _ => True) fun _ _ => True := by
  rintro _ _ (_ | _) _ _ <;> exact True.intro

theorem ETriple.exhausted {P : σ → Prop} {Q : α → σ → Prop} {E : ε → σ → Prop} :
    ETriple P (ExceptT.mk fun _ => none : ExceptT ε (StateT σ Option) α) Q E :=
  fun _ _ _ _ h => by cases h

/-! ## Rules for programs that finish and may fail -/

/-- **Total correctness of a program that may fail**: from a state in `P`, `x` finishes, and ends in
`Q` where it succeeds. -/
def EFinishes (P : σ → Prop) (x : ExceptT ε (StateT σ Option) α) (Q : α → σ → Prop) : Prop :=
  Finishes P x.run fun r s => ∀ a, r = .ok a → Q a s

theorem EFinishes.pure {P : σ → Prop} {Q : α → σ → Prop} {a : α} (h : ∀ s, P s → Q a s) :
    EFinishes P (Pure.pure a : ExceptT ε (StateT σ Option) α) Q :=
  Finishes.pure (a := Except.ok a) fun s hs _ heq => Except.ok.inj heq ▸ h s hs

theorem EFinishes.throw {P : σ → Prop} {Q : α → σ → Prop} {e : ε} :
    EFinishes P (MonadExcept.throw e : ExceptT ε (StateT σ Option) α) Q :=
  Finishes.pure (a := Except.error e) fun _ _ _ heq => by cases heq

/-- **Sequencing with failure**: where the first program fails, the whole has finished. -/
theorem EFinishes.bind {P : σ → Prop} {x : ExceptT ε (StateT σ Option) α}
    {f : α → ExceptT ε (StateT σ Option) γ} {R : α → σ → Prop} {Q : γ → σ → Prop}
    (hx : EFinishes P x R) (hf : ∀ a, EFinishes (R a) (f a) Q) : EFinishes P (x >>= f) Q := by
  refine Finishes.bind hx ?_
  rintro (e | a)
  · exact Finishes.pure fun _ _ _ heq => by cases heq
  · exact (hf a).strengthen fun s hs => hs a rfl

/-- A program that cannot fail, run inside one that may. -/
theorem EFinishes.lift {P : σ → Prop} {x : StateT σ Option α} {Q : α → σ → Prop}
    (h : Finishes P x Q) : EFinishes P (liftM x : ExceptT ε (StateT σ Option) α) Q := by
  intro s hs
  obtain ⟨a, t, hx, hq⟩ := h s hs
  refine ⟨.ok a, t, ?_, fun b heq => Except.ok.inj heq ▸ hq⟩
  change (x s).bind (fun p => some (Except.ok p.1, p.2)) = _
  rw [hx]
  rfl

/-- A computed result, used as a program. -/
theorem EFinishes.result {P : σ → Prop} {Q : α → σ → Prop} {r : Except ε α}
    (h : ∀ a, r = .ok a → ∀ s, P s → Q a s) :
    EFinishes P (ExceptT.mk (Pure.pure r) : ExceptT ε (StateT σ Option) α) Q :=
  Finishes.pure fun s hs a heq => h a heq s hs

/-- A program that finishes ends in what its successful runs end in. -/
theorem EFinishes.and_etriple {P : σ → Prop} {x : ExceptT ε (StateT σ Option) α}
    {Q Q' : α → σ → Prop} {E : ε → σ → Prop} (h : EFinishes P x Q) (h' : ETriple P x Q' E) :
    EFinishes P x Q' :=
  (Finishes.and_triple h h').weaken fun r s hr a heq => by
    subst heq
    exact hr

/-! ## Finished runs -/

/-- A finished sequence is two finished runs. -/
theorem bind_eq_some {x : StateT σ Option α} {f : α → StateT σ Option γ} {s t : σ} {c : γ}
    (h : (x >>= f) s = some (c, t)) : ∃ a s', x s = some (a, s') ∧ f a s' = some (c, t) := by
  change (x s).bind (fun p => f p.1 p.2) = some (c, t) at h
  obtain ⟨p, hp, h⟩ := Option.bind_eq_some_iff.mp h
  exact ⟨p.1, p.2, hp, h⟩

/-- **A sequence that succeeds** is two runs that succeed. -/
theorem bind_eq_ok {x : ExceptT ε (StateT σ Option) α} {f : α → ExceptT ε (StateT σ Option) γ}
    {s t : σ} {c : γ} (h : (x >>= f).run s = some (.ok c, t)) :
    ∃ a s', x.run s = some (.ok a, s') ∧ (f a).run s' = some (.ok c, t) := by
  obtain ⟨r, s', hx, hf⟩ := bind_eq_some h
  cases r with
  | ok a => exact ⟨a, s', hx, hf⟩
  | error e => cases hf

/-- A lifted program finishes as it does on its own. -/
theorem lift_eq_some {x : StateT σ Option α} {r : Except ε α} {s t : σ}
    (h : (liftM x : ExceptT ε (StateT σ Option) α).run s = some (r, t)) :
    ∃ a, r = .ok a ∧ x s = some (a, t) := by
  change (x s).bind (fun p => some (Except.ok p.1, p.2)) = some (r, t) at h
  obtain ⟨p, hp, h⟩ := Option.bind_eq_some_iff.mp h
  cases h
  exact ⟨p.1, rfl, hp⟩

/-- A step that succeeds hands its result on. -/
theorem run_bind_ok {x : ExceptT ε (StateT σ Option) α} {f : α → ExceptT ε (StateT σ Option) γ}
    {s s' : σ} {a : α} (h : x.run s = some (.ok a, s')) : (x >>= f).run s = (f a).run s' := by
  change (x.run s).bind (fun p => _) = _
  rw [h]
  rfl

/-- A step that fails ends the sequence. -/
theorem run_bind_error {x : ExceptT ε (StateT σ Option) α} {f : α → ExceptT ε (StateT σ Option) γ}
    {s s' : σ} {e : ε} (h : x.run s = some (.error e, s')) :
    (x >>= f).run s = some (.error e, s') := by
  change (x.run s).bind (fun p => _) = _
  rw [h]
  rfl

end Fueled
