import Mathlib

/-! # Extensional ordered maps

Facts about `Std.ExtTreeMap` over a linearly ordered key type: what a map collected from keyed
values contains, and how the iteration order relates to lookups.

* **`collectMap entries`** — the map of a list of keyed values, a later value replacing an earlier.
* **`getElem?_collectMap`** — under distinct keys every entry is found again.
* **`filter_toList`** — the entries under one key, read off the iteration.
* **`mem_values`** — the values of the iteration are those found under some key.
* **`toList_perm_cons`** — one more entry is listed with the others. -/

namespace TreeMap

open Std

variable {κ υ : Type}

/-- Under distinct keys, one key selects one entry. -/
theorem filter_key {α : Type} [DecidableEq κ] {key : α → κ} {entries : List α}
    (h : (entries.map key).Nodup) {a : α} (hmem : a ∈ entries) :
    (entries.filter fun b => key b = key a) = [a] := by
  induction entries with
  | nil => cases hmem
  | cons b rest ih =>
    rw [List.map_cons, List.nodup_cons] at h
    rcases List.mem_cons.mp hmem with rfl | hrest
    · have hnone : (rest.filter fun b => key b = key a) = [] := by
        rw [List.filter_eq_nil_iff]
        intro c hc hkey
        exact h.1 (List.mem_map.mpr ⟨c, hc, by simpa using hkey⟩)
      simp [hnone]
    · have hne : key b ≠ key a := by
        intro heq
        exact h.1 (List.mem_map.mpr ⟨a, hrest, heq.symm⟩)
      simp [hne, ih h.2 hrest]

/-- Under distinct keys, what one key selects does not depend on the order. -/
theorem filter_key_perm {α : Type} [DecidableEq κ] {key : α → κ} {entries entries' : List α}
    (h : (entries.map key).Nodup) (hperm : entries.Perm entries') (k : κ) :
    (entries'.filter fun b => key b = k) = entries.filter fun b => key b = k := by
  have h' : (entries'.map key).Nodup := (hperm.map key).nodup_iff.mp h
  by_cases hk : ∃ a ∈ entries, key a = k
  · obtain ⟨a, ha, rfl⟩ := hk
    rw [filter_key h ha, filter_key h' (hperm.subset ha)]
  · have hnone : ∀ a ∈ entries, ¬ key a = k := fun a ha heq => hk ⟨a, ha, heq⟩
    have hnone' : ∀ a ∈ entries', ¬ key a = k := fun a ha => hnone a (hperm.symm.subset ha)
    rw [List.filter_eq_nil_iff.mpr (by simpa using hnone'),
      List.filter_eq_nil_iff.mpr (by simpa using hnone)]

variable [Ord κ] [TransOrd κ]

/-- Collect keyed values into a map; a later value replaces an earlier one. -/
def collectMap (entries : List (κ × υ)) : ExtTreeMap κ υ :=
  entries.foldl (fun m entry => m.insert entry.1 entry.2) ∅

/-- The keys of the iteration are distinct. -/
theorem nodup_keys_toList (m : ExtTreeMap κ υ) : (m.toList.map Prod.fst).Nodup := by
  rw [ExtTreeMap.map_fst_toList_eq_keys]
  exact ExtTreeMap.nodup_keys

/-- The values of the iteration. -/
theorem values_eq_map_toList (m : ExtTreeMap κ υ) : m.values = m.toList.map Prod.snd := by
  have hfold : m.values = m.foldr (fun _ v rest => v :: rest) [] := by
    obtain ⟨⟨inner⟩⟩ := m
    induction inner using Quotient.ind
    rfl
  rw [hfold, ExtTreeMap.foldr_eq_foldr_toList]
  induction m.toList with
  | nil => rfl
  | cons entry rest ih => rw [List.foldr_cons, List.map_cons, ih]

variable [LawfulEqOrd κ] [DecidableEq κ]

omit [DecidableEq κ] in
/-- A value of the iteration is found under some key. -/
theorem mem_values {m : ExtTreeMap κ υ} {v : υ} :
    v ∈ m.values ↔ ∃ k : κ, m[k]? = some v := by
  rw [values_eq_map_toList, List.mem_map]
  constructor
  · rintro ⟨⟨k, v⟩, hmem, rfl⟩
    exact ⟨k, ExtTreeMap.mem_toList_iff_getElem?_eq_some.mp hmem⟩
  · rintro ⟨k, hk⟩
    exact ⟨(k, v), ExtTreeMap.mem_toList_iff_getElem?_eq_some.mpr hk, rfl⟩

/-- Lookup in a map with one more entry. -/
theorem lookup_insert (m : ExtTreeMap κ υ) (k a : κ) (v : υ) :
    (m.insert k v)[a]? = if k = a then some v else m[a]? := by
  simp [ExtTreeMap.getElem?_insert]

/-- Lookup in a map with one entry erased. -/
theorem lookup_erase (m : ExtTreeMap κ υ) (k a : κ) :
    (m.erase k)[a]? = if k = a then none else m[a]? := by
  simp [ExtTreeMap.getElem?_erase]

/-- Inserting a list of entries: the last entry of a key wins over the map. -/
theorem lookup_foldl_insert (entries : List (κ × υ)) (m : ExtTreeMap κ υ) (k : κ) :
    (entries.foldl (fun m entry => m.insert entry.1 entry.2) m)[k]?
      = ((entries.reverse.find? fun entry => entry.1 = k).map Prod.snd).or m[k]? := by
  induction entries generalizing m with
  | nil => simp
  | cons entry rest ih =>
    rw [List.foldl_cons, ih, lookup_insert, List.reverse_cons, List.find?_append]
    cases rest.reverse.find? fun entry => entry.1 = k with
    | some found => simp
    | none => by_cases h : entry.1 = k <;> simp [h]

theorem lookup_collectMap (entries : List (κ × υ)) (k : κ) :
    (collectMap entries)[k]?
      = (entries.reverse.find? fun entry => entry.1 = k).map Prod.snd := by
  simp [collectMap, lookup_foldl_insert]

/-- **Under distinct keys every entry is found again**, and nothing else. -/
theorem getElem?_collectMap {entries : List (κ × υ)} (h : (entries.map Prod.fst).Nodup)
    {k : κ} {v : υ} : (collectMap entries)[k]? = some v ↔ (k, v) ∈ entries := by
  rw [lookup_collectMap, Option.map_eq_some_iff]
  constructor
  · rintro ⟨⟨k', v'⟩, hfind, rfl⟩
    have hmem := List.mem_of_find?_eq_some hfind
    have hkey : k' = k := by simpa using List.find?_some hfind
    rw [← hkey]
    exact List.mem_reverse.mp hmem
  · intro hmem
    have hsome : (entries.reverse.find? fun entry => entry.1 = k).isSome := by
      rw [List.find?_isSome]
      exact ⟨(k, v), List.mem_reverse.mpr hmem, by simp⟩
    obtain ⟨⟨k', v'⟩, hfind⟩ := Option.isSome_iff_exists.mp hsome
    have hmem' := List.mem_reverse.mp (List.mem_of_find?_eq_some hfind)
    have hkey : k' = k := by simpa using List.find?_some hfind
    have heq := List.inj_on_of_nodup_map h hmem' hmem hkey
    exact ⟨(k', v'), hfind, congrArg Prod.snd heq⟩

/-- A key of a collected map is the key of an entry. -/
theorem mem_collectMap {entries : List (κ × υ)} {k : κ} :
    k ∈ collectMap entries ↔ k ∈ entries.map Prod.fst := by
  rw [ExtTreeMap.mem_iff_isSome_getElem?, lookup_collectMap, Option.isSome_map, List.find?_isSome]
  constructor
  · rintro ⟨p, hp, hkey⟩
    exact List.mem_map.mpr ⟨p, List.mem_reverse.mp hp, by simpa using hkey⟩
  · intro hmem
    obtain ⟨p, hp, rfl⟩ := List.mem_map.mp hmem
    exact ⟨p, List.mem_reverse.mpr hp, by simp⟩

/-- **The entries under one key**, read off the iteration. -/
theorem filter_toList (m : ExtTreeMap κ υ) (k : κ) :
    (m.toList.filter fun p => p.1 = k) = (m[k]?.map fun v => (k, v)).toList := by
  cases h : m[k]? with
  | none =>
    have hall : ∀ p ∈ m.toList, ¬ p.1 = k := by
      rintro ⟨k', v⟩ hp rfl
      rw [ExtTreeMap.mem_toList_iff_getElem?_eq_some, h] at hp
      cases hp
    simpa using hall
  | some v =>
    exact filter_key (nodup_keys_toList m) (ExtTreeMap.mem_toList_iff_getElem?_eq_some.mpr h)

/-- A map with one more entry lists it with the others. -/
theorem toList_perm_cons {m m' : ExtTreeMap κ υ} {k : κ} {v : υ} (hnew : m'[k]? = none)
    (h : ∀ a : κ, m[a]? = if k = a then some v else m'[a]?) :
    m.toList.Perm ((k, v) :: m'.toList) := by
  have hnodup : ∀ m : ExtTreeMap κ υ, m.toList.Nodup := fun m => (nodup_keys_toList m).of_map _
  have hfresh : (k, v) ∉ m'.toList := by
    intro hmem
    rw [ExtTreeMap.mem_toList_iff_getElem?_eq_some, hnew] at hmem
    cases hmem
  rw [List.perm_ext_iff_of_nodup (hnodup m) (List.nodup_cons.mpr ⟨hfresh, hnodup m'⟩)]
  rintro ⟨a, u⟩
  rw [List.mem_cons, ExtTreeMap.mem_toList_iff_getElem?_eq_some,
    ExtTreeMap.mem_toList_iff_getElem?_eq_some, h a]
  by_cases ha : k = a
  · subst ha
    rw [if_pos rfl, hnew]
    constructor
    · intro heq
      exact Or.inl (by rw [Option.some.inj heq])
    · rintro (heq | hnone)
      · rw [(Prod.mk.inj heq).2]
      · cases hnone
  · rw [if_neg ha]
    constructor
    · intro hold
      exact Or.inr hold
    · rintro (heq | hold)
      · exact absurd (Prod.mk.inj heq).1.symm ha
      · exact hold

end TreeMap
