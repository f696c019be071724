import Mathlib

/-! # The ends of a stable sort

A list is sorted by a key, and elements with equal keys keep their order. Its first and its last
element can be told from the keys alone, by their positions: no sort is needed.

* **`ComesFirst keys k`** — the key at `k` is least, and the keys before it are greater.
* **`ComesLast keys k`** — the key at `k` is greatest, and the keys behind it are less.
* **`head?_insertionSort`, `getLast?_insertionSort`** — the ends of the sorted list. -/

namespace StableSort

variable {α κ : Type} [LinearOrder κ]

/-! ## Positions of the ends -/

/-- The key at `k` is a least one, and the first such. -/
def ComesFirst (keys : List κ) (k : ℕ) : Prop :=
  ∃ h : k < keys.length, (∀ other ∈ keys, keys[k] ≤ other) ∧ ∀ other ∈ keys.take k, keys[k] < other

/-- The key at `k` is a greatest one, and the last such. -/
def ComesLast (keys : List κ) (k : ℕ) : Prop :=
  ∃ h : k < keys.length,
    (∀ other ∈ keys, other ≤ keys[k]) ∧ ∀ other ∈ keys.drop (k + 1), other < keys[k]

instance (keys : List κ) (k : ℕ) : Decidable (ComesFirst keys k) := exists_prop_decidable _

instance (keys : List κ) (k : ℕ) : Decidable (ComesLast keys k) := exists_prop_decidable _

variable {keys : List κ} {key : κ} {j k : ℕ}

/-- What comes first is in the list. -/
theorem ComesFirst.lt_length (h : ComesFirst keys k) : k < keys.length := h.1

/-- What comes last is in the list. -/
theorem ComesLast.lt_length (h : ComesLast keys k) : k < keys.length := h.1

/-- One position comes first. -/
theorem ComesFirst.unique (hj : ComesFirst keys j) (hk : ComesFirst keys k) : j = k := by
  obtain ⟨hjlen, hjleast, hjfirst⟩ := hj
  obtain ⟨hklen, hkleast, hkfirst⟩ := hk
  rcases lt_trichotomy j k with hlt | heq | hgt
  · have hless := hkfirst keys[j] (List.mem_take_iff_getElem.mpr ⟨j, by omega, rfl⟩)
    exact absurd hless (not_lt.mpr (hjleast _ (List.getElem_mem hklen)))
  · exact heq
  · have hless := hjfirst keys[k] (List.mem_take_iff_getElem.mpr ⟨k, by omega, rfl⟩)
    exact absurd hless (not_lt.mpr (hkleast _ (List.getElem_mem hjlen)))

/-- One position comes last. -/
theorem ComesLast.unique (hj : ComesLast keys j) (hk : ComesLast keys k) : j = k := by
  obtain ⟨hjlen, hjmost, hjlast⟩ := hj
  obtain ⟨hklen, hkmost, hklast⟩ := hk
  rcases lt_trichotomy j k with hlt | heq | hgt
  · have hless := hjlast keys[k]
      (List.mem_drop_iff_getElem.mpr ⟨k - (j + 1), by omega, by congr 1; omega⟩)
    exact absurd hless (not_lt.mpr (hkmost _ (List.getElem_mem hjlen)))
  · exact heq
  · have hless := hklast keys[j]
      (List.mem_drop_iff_getElem.mpr ⟨j - (k + 1), by omega, by congr 1; omega⟩)
    exact absurd hless (not_lt.mpr (hjmost _ (List.getElem_mem hklen)))

/-- The head comes first when no other key is less. -/
theorem ComesFirst.le_of_zero (h : ComesFirst (key :: keys) 0) : ∀ other ∈ keys, key ≤ other := by
  obtain ⟨_, hleast, _⟩ := h
  exact fun other hother => hleast other (List.mem_cons_of_mem key hother)

/-- A later position comes first in the tail already, and its key is less than the head. -/
theorem ComesFirst.tail (h : ComesFirst (key :: keys) (k + 1)) :
    ComesFirst keys k ∧ ∀ other, keys[k]? = some other → other < key := by
  obtain ⟨hlen, hleast, hfirst⟩ := h
  simp only [List.getElem_cons_succ, List.take_succ_cons, List.mem_cons, forall_eq_or_imp] at *
  have hlt : k < keys.length := Nat.lt_of_succ_lt_succ hlen
  refine ⟨⟨hlt, hleast.2, hfirst.2⟩, fun other hother => ?_⟩
  rw [List.getElem?_eq_getElem hlt] at hother
  exact Option.some.inj hother ▸ hfirst.1

/-- The head comes last when every other key is less. -/
theorem ComesLast.lt_of_zero (h : ComesLast (key :: keys) 0) : ∀ other ∈ keys, other < key := by
  obtain ⟨_, _, hlast⟩ := h
  exact hlast

/-- A later position comes last in the tail already, and its key is no less than the head. -/
theorem ComesLast.tail (h : ComesLast (key :: keys) (k + 1)) :
    ComesLast keys k ∧ ∀ other, keys[k]? = some other → key ≤ other := by
  obtain ⟨hlen, hmost, hlast⟩ := h
  simp only [List.getElem_cons_succ, List.drop_succ_cons, List.mem_cons, forall_eq_or_imp] at *
  have hlt : k < keys.length := Nat.lt_of_succ_lt_succ hlen
  refine ⟨⟨hlt, hmost.2, hlast⟩, fun other hother => ?_⟩
  rw [List.getElem?_eq_getElem hlt] at hother
  exact Option.some.inj hother ▸ hmost.1

/-! ## The sorted list -/

section sorted

variable {r : α → α → Prop} [DecidableRel r] {a b : α} {list : List α}

/-- An element that precedes the head of a list is inserted there. -/
theorem head?_orderedInsert_rel (h : ∀ b, list.head? = some b → r a b) :
    (list.orderedInsert r a).head? = some a := by
  cases list with
  | nil => rfl
  | cons b rest => rw [List.orderedInsert_cons_of_le r rest (h b rfl), List.head?_cons]

/-- An element that does not precede the head leaves it. -/
theorem head?_orderedInsert_not_rel (hhead : list.head? = some b) (h : ¬ r a b) :
    (list.orderedInsert r a).head? = some b := by
  cases list with
  | nil => cases hhead
  | cons c rest =>
    obtain rfl : c = b := Option.some.inj hhead
    rw [List.orderedInsert_of_not_le r rest h, List.head?_cons]

/-- An element that precedes the last one leaves it. -/
theorem getLast?_orderedInsert_rel (hlast : list.getLast? = some b) (h : r a b) :
    (list.orderedInsert r a).getLast? = some b := by
  induction list with
  | nil => cases hlast
  | cons c rest ih =>
    by_cases hac : r a c
    · rw [List.orderedInsert_cons_of_le r rest hac, List.getLast?_cons_cons, hlast]
    · rw [List.orderedInsert_of_not_le r rest hac]
      cases rest with
      | nil =>
        obtain rfl : c = b := Option.some.inj hlast
        exact absurd h hac
      | cons d rest =>
        rw [List.getLast?_cons_cons] at hlast
        rw [List.getLast?_cons, ih hlast, Option.getD_some]

/-- An element that precedes none is inserted behind all. -/
theorem getLast?_orderedInsert_not_rel (h : ∀ b ∈ list, ¬ r a b) :
    (list.orderedInsert r a).getLast? = some a := by
  induction list with
  | nil => rfl
  | cons c rest ih =>
    rw [List.orderedInsert_of_not_le r rest (h c List.mem_cons_self), List.getLast?_cons,
      ih fun b hb => h b (List.mem_cons_of_mem c hb), Option.getD_some]

end sorted

variable (key : α → κ) {list : List α}

/-- **The head of the sorted list** is the element that comes first by its key. -/
theorem head?_insertionSort (h : ComesFirst (list.map key) k) :
    (list.insertionSort fun a b => key a ≤ key b).head? = list[k]? := by
  induction list generalizing k with
  | nil => exact absurd h.lt_length (Nat.not_lt_zero k)
  | cons a rest ih =>
    rw [List.insertionSort_cons]
    cases k with
    | zero =>
      refine head?_orderedInsert_rel fun b hb => ?_
      have hmem : b ∈ rest := (List.mem_insertionSort _).mp (List.mem_of_head? hb)
      exact h.le_of_zero (key b) (List.mem_map_of_mem hmem)
    | succ k =>
      obtain ⟨htail, hless⟩ := h.tail
      have hlen := htail.lt_length
      rw [List.length_map] at hlen
      have hget := List.getElem?_eq_getElem hlen
      rw [List.getElem?_cons_succ, hget]
      refine head?_orderedInsert_not_rel ((ih htail).trans hget) (not_le.mpr ?_)
      exact hless _ (by rw [List.getElem?_map, hget, Option.map_some])

/-- **The last element of the sorted list** is the one that comes last by its key. -/
theorem getLast?_insertionSort (h : ComesLast (list.map key) k) :
    (list.insertionSort fun a b => key a ≤ key b).getLast? = list[k]? := by
  induction list generalizing k with
  | nil => exact absurd h.lt_length (Nat.not_lt_zero k)
  | cons a rest ih =>
    rw [List.insertionSort_cons]
    cases k with
    | zero =>
      refine getLast?_orderedInsert_not_rel fun b hb => not_le.mpr ?_
      have hmem : b ∈ rest := (List.mem_insertionSort _).mp hb
      exact h.lt_of_zero (key b) (List.mem_map_of_mem hmem)
    | succ k =>
      obtain ⟨htail, hmore⟩ := h.tail
      have hlen := htail.lt_length
      rw [List.length_map] at hlen
      have hget := List.getElem?_eq_getElem hlen
      rw [List.getElem?_cons_succ, hget]
      refine getLast?_orderedInsert_rel ((ih htail).trans hget) ?_
      exact hmore _ (by rw [List.getElem?_map, hget, Option.map_some])

end StableSort
