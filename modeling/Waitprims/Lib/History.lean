import Mathlib

/-! # Histories

A run leaves a history, a list of entries that only grows at its end. Many safety statements say of
every entry that it was in order *when it was appended*: what came before it satisfies some guard.

* **`Orderly guard past log`** — every entry of `log` satisfies `guard` on what preceded it.
* **`orderly_snoc`**, **`Orderly.of_append`** — such a statement grows by one entry at a time and
  holds of every earlier history. -/

namespace History

variable {γ : Type}

/-- **Each entry was in order when it was appended**, the history so far being `past`. -/
def Orderly (guard : List γ → γ → Prop) : List γ → List γ → Prop
  | _, [] => True
  | past, entry :: rest => guard past entry ∧ Orderly guard (past ++ [entry]) rest

variable {guard : List γ → γ → Prop}

instance Orderly.decidable [∀ past entry, Decidable (guard past entry)] :
    ∀ past log, Decidable (Orderly guard past log)
  | _, [] => isTrue trivial
  | past, entry :: rest =>
    have : Decidable (Orderly guard (past ++ [entry]) rest) := Orderly.decidable _ rest
    inferInstanceAs (Decidable (guard past entry ∧ Orderly guard (past ++ [entry]) rest))

@[simp] theorem orderly_nil (past : List γ) : Orderly guard past [] := trivial

theorem orderly_append (past xs ys : List γ) :
    Orderly guard past (xs ++ ys) ↔ Orderly guard past xs ∧ Orderly guard (past ++ xs) ys := by
  induction xs generalizing past with
  | nil => simp
  | cons entry rest ih =>
    rw [List.cons_append, Orderly, Orderly, ih, List.append_assoc, List.singleton_append, and_assoc]

/-- **Appending an entry** adds what its guard asks of the history before it. -/
theorem orderly_snoc (log : List γ) (entry : γ) :
    Orderly guard [] (log ++ [entry]) ↔ Orderly guard [] log ∧ guard log entry := by
  rw [orderly_append]
  simp [Orderly]

/-- An earlier history of an orderly one is orderly. -/
theorem Orderly.of_append {xs ys : List γ} (h : Orderly guard [] (xs ++ ys)) :
    Orderly guard [] xs :=
  ((orderly_append [] xs ys).mp h).1

/-- Every entry has its guard, on the history before it. -/
theorem Orderly.guard_of_mem {log : List γ} (h : Orderly guard [] log) {entry : γ}
    (hmem : entry ∈ log) : ∃ past later, log = past ++ entry :: later ∧ guard past entry := by
  obtain ⟨past, later, rfl⟩ := List.append_of_mem hmem
  have htail := ((orderly_append [] past (entry :: later)).mp h).2
  exact ⟨past, later, rfl, htail.1⟩

end History
