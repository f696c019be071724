import Mathlib

/-! # Closing a set under successors with a stack

A worklist keeps the set of names met so far and a stack of those not looked at yet; it takes the
top of the stack, adds the successors that are new to both, and gives up at a name without a node.

* **`insertNew`** — a name into a set that is listed in order.
* **`pushNew`** — the successors that are new, into the set and onto the stack.
* **`close next fuel needed stack`** — the loop: out of fuel, a missing node, or the closed set.
* **`Reached next roots`** — what is a root or is linked from one.
* **`close_spec`** — with fuel for every node the loop ends: the closed set is what is reached, and
  a missing node is one that is reached. -/

namespace Worklist

variable {α : Type}

/-! ## What is reached -/

/-- One name links to another. -/
def Link (next : α → Option (List α)) (a b : α) : Prop := ∃ extra, next a = some extra ∧ b ∈ extra

/-- A root, or linked from one over any number of links. -/
def Reached (next : α → Option (List α)) (roots : List α) (a : α) : Prop :=
  ∃ root ∈ roots, Relation.ReflTransGen (Link next) root a

/-- What a reached name links to is reached. -/
theorem Reached.link {next : α → Option (List α)} {roots : List α} {a b : α}
    (h : Reached next roots a) (hlink : Link next a b) : Reached next roots b := by
  obtain ⟨root, hroot, hpath⟩ := h
  exact ⟨root, hroot, hpath.tail hlink⟩

variable [LinearOrder α]

/-! ## The set and the stack -/

/-- A name into a set that is listed in order. -/
def insertNew (name : α) (names : List α) : List α :=
  if name ∈ names then names else names.orderedInsert (· ≤ ·) name

/-- Put the successors that are new into the set and on the stack. -/
def pushNew (needed stack : List α) : List α → List α × List α
  | [] => (needed, stack)
  | name :: extra =>
    if name ∈ needed then pushNew needed stack extra
    else pushNew (insertNew name needed) (stack ++ [name]) extra

/-- The loop: `none` when the fuel is spent, `some none` at a name without a node. -/
def close (next : α → Option (List α)) : ℕ → List α → List α → Option (Option (List α))
  | 0, _, _ => none
  | fuel + 1, needed, stack =>
    match stack.getLast? with
    | none => some (some needed)
    | some name =>
      match next name with
      | none => some none
      | some extra =>
        close next fuel (pushNew needed stack.dropLast extra).1
          (pushNew needed stack.dropLast extra).2

/-- A set with one more name. -/
@[simp] theorem mem_insertNew {name a : α} {names : List α} :
    a ∈ insertNew name names ↔ a = name ∨ a ∈ names := by
  unfold insertNew
  by_cases h : name ∈ names
  · rw [if_pos h]
    constructor
    · exact Or.inr
    · rintro (rfl | ha)
      · exact h
      · exact ha
  · rw [if_neg h, List.mem_orderedInsert]

/-- A new name stands beside the others. -/
theorem insertNew_perm {name : α} {names : List α} (h : name ∉ names) :
    (insertNew name names).Perm (name :: names) := by
  unfold insertNew
  rw [if_neg h]
  exact List.perm_orderedInsert _ _ _

/-- A set stays in order. -/
theorem insertNew_sorted {name : α} {names : List α} (h : names.Pairwise (· < ·)) :
    (insertNew name names).Pairwise (· < ·) := by
  unfold insertNew
  by_cases hmem : name ∈ names
  · rwa [if_pos hmem]
  · rw [if_neg hmem]
    -- In order without repetition, before and after.
    have hle : (names.orderedInsert (· ≤ ·) name).Pairwise (· ≤ ·) :=
      List.Pairwise.orderedInsert name names (h.imp le_of_lt)
    have hnodup : (names.orderedInsert (· ≤ ·) name).Nodup :=
      (List.perm_orderedInsert _ _ _).nodup_iff.mpr
        (List.nodup_cons.mpr ⟨hmem, h.imp ne_of_lt⟩)
    exact (hle.and hnodup).imp fun ⟨hab, hne⟩ => lt_of_le_of_ne hab hne

/-- The set after the successors: what it held and the successors. -/
theorem mem_pushNew {needed stack extra : List α} {a : α} :
    a ∈ (pushNew needed stack extra).1 ↔ a ∈ needed ∨ a ∈ extra := by
  induction extra generalizing needed stack with
  | nil => simp [pushNew]
  | cons name extra ih =>
    unfold pushNew
    by_cases h : name ∈ needed
    · rw [if_pos h, ih, List.mem_cons]
      constructor
      · exact Or.imp_right Or.inr
      · rintro (ha | rfl | ha)
        · exact .inl ha
        · exact .inl h
        · exact .inr ha
    · rw [if_neg h, ih, mem_insertNew, List.mem_cons]
      tauto

/-- What is pushed is what is added to the set. -/
theorem pushNew_perm {done needed stack extra : List α} (h : needed.Perm (done ++ stack)) :
    (pushNew needed stack extra).1.Perm (done ++ (pushNew needed stack extra).2) := by
  induction extra generalizing needed stack with
  | nil => exact h
  | cons name extra ih =>
    unfold pushNew
    by_cases hmem : name ∈ needed
    · rw [if_pos hmem]
      exact ih h
    · rw [if_neg hmem]
      refine ih ?_
      calc (insertNew name needed).Perm (name :: needed) := insertNew_perm hmem
        _ |>.Perm (name :: (done ++ stack)) := h.cons name
        _ |>.Perm (done ++ stack ++ [name]) := (List.perm_append_singleton _ _).symm
        _ |>.Perm (done ++ (stack ++ [name])) := by rw [List.append_assoc]

/-- The set stays in order. -/
theorem pushNew_sorted {needed stack extra : List α} (h : needed.Pairwise (· < ·)) :
    (pushNew needed stack extra).1.Pairwise (· < ·) := by
  induction extra generalizing needed stack with
  | nil => exact h
  | cons name extra ih =>
    unfold pushNew
    by_cases hmem : name ∈ needed
    · rw [if_pos hmem]
      exact ih h
    · rw [if_neg hmem]
      exact ih (insertNew_sorted h)

/-! ## The loop between two turns -/

/-- The loop between two turns, over the names it is done with. -/
structure Closing (next : α → Option (List α)) (roots done needed stack : List α) : Prop where
  /-- The set is in order. -/
  sorted : needed.Pairwise (· < ·)
  /-- A name of the set is done or on the stack, and only once. -/
  split : needed.Perm (done ++ stack)
  /-- Every root is in the set. -/
  roots_mem : ∀ root ∈ roots, root ∈ needed
  /-- Every name of the set is reached. -/
  reached : ∀ a ∈ needed, Reached next roots a
  /-- A name that is done has a node, and what the node links to is in the set. -/
  linked : ∀ a ∈ done, ∃ extra, next a = some extra ∧ ∀ b ∈ extra, b ∈ needed

namespace Closing

variable {next : α → Option (List α)} {roots done needed stack : List α}

/-- The start: every root is on the stack. -/
theorem start (h : roots.Pairwise (· < ·)) : Closing next roots [] roots roots where
  sorted := h
  split := .refl _
  roots_mem _ hroot := hroot
  reached a ha := ⟨a, ha, .refl⟩
  linked _ ha := absurd ha List.not_mem_nil

/-- One turn: the top of the stack is done. -/
theorem turn (h : Closing next roots done needed stack) {name : α} {extra : List α}
    (htop : stack.getLast? = some name) (hnext : next name = some extra) :
    Closing next roots (name :: done) (pushNew needed stack.dropLast extra).1
      (pushNew needed stack.dropLast extra).2 := by
  have hstack : stack = stack.dropLast ++ [name] :=
    (List.dropLast_append_getLast? name htop).symm
  have hsplit : needed.Perm (name :: done ++ stack.dropLast) := by
    refine h.split.trans ?_
    rw [hstack, List.dropLast_concat, ← List.append_assoc]
    exact List.perm_append_singleton _ _
  have hname : name ∈ needed := hsplit.symm.subset List.mem_cons_self
  refine ⟨pushNew_sorted h.sorted, pushNew_perm hsplit, ?_, ?_, ?_⟩
  · intro root hroot
    exact mem_pushNew.mpr (.inl (h.roots_mem root hroot))
  · intro a ha
    rcases mem_pushNew.mp ha with ha | ha
    · exact h.reached a ha
    · exact (h.reached name hname).link ⟨extra, hnext, ha⟩
  · intro a ha
    rcases List.mem_cons.mp ha with rfl | ha
    · exact ⟨extra, hnext, fun b hb => mem_pushNew.mpr (.inr hb)⟩
    · obtain ⟨extra', hextra, hsub⟩ := h.linked a ha
      exact ⟨extra', hextra, fun b hb => mem_pushNew.mpr (.inl (hsub b hb))⟩

/-- With nothing on the stack, every reached name is done. -/
theorem complete (h : Closing next roots done needed []) {a : α} (ha : Reached next roots a) :
    a ∈ needed := by
  obtain ⟨root, hroot, hpath⟩ := ha
  induction hpath with
  | refl => exact h.roots_mem root hroot
  | tail _ hlink ih =>
    obtain ⟨extra, hextra, hb⟩ := hlink
    -- The name before is done, so its links are in the set.
    have hdone := h.split.subset ih
    rw [List.append_nil] at hdone
    obtain ⟨extra', hextra', hsub⟩ := h.linked _ hdone
    rw [hextra] at hextra'
    obtain rfl := Option.some.inj hextra'
    exact hsub _ hb

/-- The names that are done are told apart, so no more of them than there are nodes. -/
theorem length_done_le (h : Closing next roots done needed stack) {nodes : List α}
    (hnodes : ∀ a extra, next a = some extra → a ∈ nodes) : done.length ≤ nodes.length := by
  have hnodup : (done ++ stack).Nodup := h.split.nodup_iff.mp (h.sorted.imp ne_of_lt)
  have hsub : done ⊆ nodes := by
    intro a ha
    obtain ⟨extra, hextra, -⟩ := h.linked a ha
    exact hnodes a extra hextra
  exact (hnodup.of_append_left.subperm hsub).length_le

end Closing

/-- What the loop comes to. -/
inductive Closed (next : α → Option (List α)) (roots : List α) : Option (List α) → Prop
  /-- Every reached name has a node, and the set is the reached names. -/
  | all {needed : List α} (sorted : needed.Pairwise (· < ·))
      (exact : ∀ a, a ∈ needed ↔ Reached next roots a)
      (nodes : ∀ a ∈ needed, (next a).isSome) : Closed next roots (some needed)
  /-- A reached name has no node. -/
  | missing {a : α} (reached : Reached next roots a) (node : next a = none) :
      Closed next roots none

/-- With fuel for the nodes that are left, the loop ends. -/
theorem close_of_closing {next : α → Option (List α)} {roots nodes : List α}
    (hnodes : ∀ a extra, next a = some extra → a ∈ nodes) {fuel : ℕ} {done needed stack : List α}
    (h : Closing next roots done needed stack) (hfuel : nodes.length < done.length + fuel) :
    ∃ r, close next fuel needed stack = some r ∧ Closed next roots r := by
  induction fuel generalizing done needed stack with
  | zero =>
    have hle := h.length_done_le hnodes
    omega
  | succ fuel ih =>
    unfold close
    cases htop : stack.getLast? with
    | none =>
      obtain rfl := List.getLast?_eq_none_iff.mp htop
      refine ⟨some needed, rfl, .all h.sorted (fun a => ⟨h.reached a, h.complete⟩) ?_⟩
      intro a ha
      have hdone := h.split.subset ha
      rw [List.append_nil] at hdone
      obtain ⟨extra, hextra, -⟩ := h.linked a hdone
      rw [hextra, Option.isSome_some]
    | some name =>
      cases hnext : next name with
      | none =>
        -- The top of the stack is in the set, so it is reached.
        have hmem : name ∈ needed :=
          h.split.symm.subset (List.mem_append_right _ (List.mem_of_getLast? htop))
        exact ⟨none, by simp only [hnext], .missing (h.reached name hmem) hnext⟩
      | some extra =>
        simp only [hnext]
        exact ih (h.turn htop hnext) (by rw [List.length_cons]; omega)

/-- A closed set leaves no reached name without a node, and the other end does. -/
theorem Closed.isSome_iff {next : α → Option (List α)} {roots : List α} {r : Option (List α)}
    (h : Closed next roots r) : r.isSome ↔ ∀ a, Reached next roots a → (next a).isSome := by
  cases h with
  | all sorted hexact nodes =>
    exact ⟨fun _ a ha => nodes a ((hexact a).mpr ha), fun _ => rfl⟩
  | missing hreached hnode =>
    constructor
    · intro hsome
      cases hsome
    · intro hall
      have hsome := hall _ hreached
      rw [hnode] at hsome
      cases hsome

/-- What the loop comes to does not depend on the way there. -/
theorem Closed.unique {next : α → Option (List α)} {roots : List α} {r r' : Option (List α)}
    (h : Closed next roots r) (h' : Closed next roots r') : r = r' := by
  have hsome : r.isSome ↔ r'.isSome := h.isSome_iff.trans h'.isSome_iff.symm
  cases h with
  | all sorted hexact _ =>
    cases h' with
    | all sorted' hexact' _ =>
      exact congrArg some
        (List.Pairwise.eq_of_mem_iff sorted sorted' fun a => (hexact a).trans (hexact' a).symm)
    | missing _ _ => exact absurd (hsome.mp rfl) nofun
  | missing _ _ =>
    cases h' with
    | all _ _ _ => exact absurd (hsome.mpr rfl) nofun
    | missing _ _ => rfl

/-- **With fuel for every node the loop ends**, at the reached names or at one without a node. -/
theorem close_spec {next : α → Option (List α)} {roots nodes : List α}
    (hnodes : ∀ a extra, next a = some extra → a ∈ nodes) (hroots : roots.Pairwise (· < ·)) :
    ∃ r, Closed next roots r ∧
      ∀ fuel, nodes.length < fuel → close next fuel roots roots = some r := by
  have hrun : ∀ fuel, nodes.length < fuel →
      ∃ r, close next fuel roots roots = some r ∧ Closed next roots r := fun fuel hfuel =>
    close_of_closing hnodes (.start hroots) (by rw [List.length_nil]; omega)
  obtain ⟨r, -, hr⟩ := hrun (nodes.length + 1) (Nat.lt_succ_self _)
  refine ⟨r, hr, fun fuel hfuel => ?_⟩
  obtain ⟨r', hrun', hr'⟩ := hrun fuel hfuel
  rw [hrun', hr.unique hr']

end Worklist
