import Waitprims.Lib.Worklist
import Waitprims.Core.Jcs

/-! # The schema of one kind of message

The entry schema keeps a definition for each kind of message among its `$defs`, beside those the
definitions refer to. The schema of a kind is its definition with the definitions that it needs.

* **`collectDefRefs`** — the names a value refers to, at any depth.
* **`selectMessageSchema`** — the definition of a kind, closed under references.
* **`Mentions`**, **`Reachable`** — a reference at some depth, and over any number of definitions.
* **`select_closed`** — what is selected is what is reachable, and a missing definition is refused. -/

namespace Waitprims

open Json (lookup lookup_of_mem)
open Jcs (insertMember)
open Worklist (insertNew mem_insertNew insertNew_sorted)

/-- The six admitted `message_type` values. -/
inductive MessageType
  | registrationSet
  | liveWaitRequest
  | liveWaitOutcome
  | pollCycleRequest
  | pollCycleOutcome
  | pollCycleAck
  deriving DecidableEq, Repr

namespace Contract

/-! ## Selection, as in the source -/

/-- `def_name_for`. -/
def defNameFor : MessageType → String
  | .registrationSet => "registrationSet"
  | .liveWaitRequest => "liveWaitRequest"
  | .liveWaitOutcome => "liveWaitOutcome"
  | .pollCycleRequest => "pollCycleRequest"
  | .pollCycleOutcome => "pollCycleOutcome"
  | .pollCycleAck => "pollCycleAck"

/-- The name of a reference to a definition: not empty, and one step below `$defs`. -/
def refName (reference : String) : Option String :=
  (stripPrefix "#/$defs/" reference).filter fun name => name != "" && !name.toList.contains '/'

/-- The name that the members of an object refer to themselves. -/
def refOf (members : List (String × Json)) : Option String :=
  ((lookup "$ref" members).bind Json.asStr).bind refName

/-- Put a name into the set, if there is one. -/
def insertRef (name : Option String) (out : List String) : List String :=
  match name with
  | none => out
  | some name => insertNew name out

mutual

/-- `collect_def_refs`. -/
def collectDefRefs : Json → List String → List String
  | .obj members, out => collectMembers members (insertRef (refOf members) out)
  | .arr items, out => collectItems items out
  | .null, out | .bool _, out | .num _, out | .str _, out => out

/-- The loop over the elements of an array. -/
def collectItems : List Json → List String → List String
  | [], out => out
  | item :: items, out => collectItems items (collectDefRefs item out)

/-- The loop over the members of an object. -/
def collectMembers : List (String × Json) → List String → List String
  | [], out => out
  | (_, child) :: members, out => collectMembers members (collectDefRefs child out)

end

/-- A definition is missing. -/
def missingKind : Error := validationError "/$defs" "missing_kind"

/-- The names that the definition of a name refers to, if there is one. -/
def nextDefs (defs : List (String × Json)) (name : String) : Option (List String) :=
  (lookup name defs).map fun node => collectDefRefs node []

/-- The loop that copies the needed definitions. -/
def selectDefs (defs : List (String × Json)) :
    List String → List (String × Json) → Except Error (List (String × Json))
  | [], selected => .ok selected
  | name :: needed, selected =>
    match lookup name defs with
    | none => .error missingKind
    | some node => selectDefs defs needed (insertMember name node selected)

/-- The loop that copies the members of the definition. -/
def copyMembers : List (String × Json) → List (String × Json) → List (String × Json)
  | [], out => out
  | (key, value) :: members, out =>
    if key = "$id" then copyMembers members out
    else copyMembers members (insertMember key value out)

/-- The start of the schema: `$schema` as the entry has it. -/
def schemaHead (entry : Json) : List (String × Json) :=
  match entry.get "$schema" with
  | none => []
  | some schema => [("$schema", schema)]

/-- The schema of a definition under the names it needs. -/
def assembleSchema (entry : Json) (defs defObj : List (String × Json)) (needed : List String) :
    Except Error Json :=
  (selectDefs defs needed []).map fun selected =>
    .obj (insertMember "$defs" (.obj selected) (copyMembers defObj (schemaHead entry)))

/-- What the worklist comes to: a definition is missing, or the schema can be put together. -/
def finishSchema (entry : Json) (defs defObj : List (String × Json)) :
    Option (List String) → Except Error Json
  | none => .error missingKind
  | some needed => assembleSchema entry defs defObj needed

/-- `entry.get("$defs").and_then(Value::as_object)`. -/
def defsOf (entry : Json) : Option (List (String × Json)) := (entry.get "$defs").bind Json.asObject

/-- `select_message_schema`, with fuel for its worklist: `none` when that is spent. -/
def selectMessageSchema (fuel : ℕ) (entry : Json) (kind : MessageType) :
    Option (Except Error Json) :=
  match defsOf entry with
  | none => some (.error (validationError "/$defs" "missing"))
  | some defs =>
    match (lookup (defNameFor kind) defs).bind Json.asObject with
    | none => some (.error missingKind)
    | some defObj =>
      let needed := collectDefRefs (.obj defObj) []
      (Worklist.close (nextDefs defs) fuel needed needed).map (finishSchema entry defs defObj)

/-! ## References at any depth -/

/-- A reference to a name, at some depth of a value. -/
inductive Mentions : Json → String → Prop
  | here {members : List (String × Json)} {name : String} (h : refOf members = some name) :
      Mentions (.obj members) name
  | member {members : List (String × Json)} {p : String × Json} {name : String}
      (hp : p ∈ members) (h : Mentions p.2 name) : Mentions (.obj members) name
  | item {items : List Json} {v : Json} {name : String} (hv : v ∈ items) (h : Mentions v name) :
      Mentions (.arr items) name

/-- A set with the name an object refers to itself. -/
theorem mem_insertRef {ref : Option String} {out : List String} {a : String} :
    a ∈ insertRef ref out ↔ ref = some a ∨ a ∈ out := by
  cases ref with
  | none => simp [insertRef]
  | some name => simp [insertRef, eq_comm]

/-- The loop over the elements collects what each element mentions. -/
theorem mem_collectItems {items : List Json} {out : List String} {a : String}
    (h : ∀ v ∈ items, ∀ out, a ∈ collectDefRefs v out ↔ Mentions v a ∨ a ∈ out) :
    a ∈ collectItems items out ↔ (∃ v ∈ items, Mentions v a) ∨ a ∈ out := by
  induction items generalizing out with
  | nil => simp [collectItems]
  | cons item items ih =>
    unfold collectItems
    rw [ih fun v hv => h v (List.mem_cons_of_mem _ hv), h item List.mem_cons_self,
      List.exists_mem_cons_iff, or_left_comm, or_assoc]

/-- The loop over the members collects what each member mentions. -/
theorem mem_collectMembers {members : List (String × Json)} {out : List String} {a : String}
    (h : ∀ p ∈ members, ∀ out, a ∈ collectDefRefs p.2 out ↔ Mentions p.2 a ∨ a ∈ out) :
    a ∈ collectMembers members out ↔ (∃ p ∈ members, Mentions p.2 a) ∨ a ∈ out := by
  induction members generalizing out with
  | nil => simp [collectMembers]
  | cons p members ih =>
    unfold collectMembers
    rw [ih fun q hq => h q (List.mem_cons_of_mem _ hq), h p List.mem_cons_self,
      List.exists_mem_cons_iff, or_left_comm, or_assoc]

/-- **The names that are collected** are those the value mentions. -/
theorem mem_collectDefRefs (v : Json) (a : String) (out : List String) :
    a ∈ collectDefRefs v out ↔ Mentions v a ∨ a ∈ out := by
  induction v using Json.ind generalizing out with
  | hnull => exact ⟨Or.inr, fun h => h.resolve_left nofun⟩
  | hbool b => exact ⟨Or.inr, fun h => h.resolve_left nofun⟩
  | hnum n => exact ⟨Or.inr, fun h => h.resolve_left nofun⟩
  | hstr s => exact ⟨Or.inr, fun h => h.resolve_left nofun⟩
  | harr items ih =>
    unfold collectDefRefs
    rw [mem_collectItems ih]
    refine or_congr_left ⟨fun ⟨v, hv, h⟩ => .item hv h, ?_⟩
    intro h
    cases h with
    | item hv h => exact ⟨_, hv, h⟩
  | hobj members ih =>
    unfold collectDefRefs
    rw [mem_collectMembers ih, mem_insertRef, ← or_assoc]
    refine or_congr_left ⟨?_, ?_⟩
    · rintro (⟨p, hp, h⟩ | h)
      · exact .member hp h
      · exact .here h
    · intro h
      cases h with
      | here h => exact .inr h
      | member hp h => exact .inl ⟨_, hp, h⟩

/-- The set of names stays in order. -/
theorem collectDefRefs_sorted (v : Json) {out : List String} (h : out.Pairwise (· < ·)) :
    (collectDefRefs v out).Pairwise (· < ·) := by
  induction v using Json.ind generalizing out with
  | hnull => exact h
  | hbool b => exact h
  | hnum n => exact h
  | hstr s => exact h
  | harr items ih =>
    unfold collectDefRefs
    induction items generalizing out with
    | nil => exact h
    | cons item items ihItems =>
      unfold collectItems
      exact ihItems (fun v hv => ih v (List.mem_cons_of_mem _ hv)) (ih item List.mem_cons_self h)
  | hobj members ih =>
    unfold collectDefRefs
    have hself : (insertRef (refOf members) out).Pairwise (· < ·) := by
      cases refOf members with
      | none => exact h
      | some name => exact insertNew_sorted h
    -- The reference of the object itself is in before the members are looked at.
    generalize insertRef (refOf members) out = start at hself
    induction members generalizing start with
    | nil => exact hself
    | cons p members ihMembers =>
      unfold collectMembers
      exact ihMembers (fun q hq => ih q (List.mem_cons_of_mem _ hq)) _
        (ih p List.mem_cons_self hself)

/-! ## Definitions over any number of references -/

/-- The definition of a name in a schema. -/
def defOf (schema : Json) (name : String) : Option Json := schema.pointer "$defs" name

/-- A name that a definition refers to, itself or over other definitions of the entry. -/
inductive Reachable (entry definition : Json) : String → Prop
  | direct {name : String} (h : Mentions definition name) : Reachable entry definition name
  | through {via name : String} {node : Json} (hvia : Reachable entry definition via)
      (hnode : defOf entry via = some node) (h : Mentions node name) :
      Reachable entry definition name

/-- A definition is looked up among the `$defs`. -/
theorem defOf_eq_lookup {entry : Json} {defs : List (String × Json)} (h : defsOf entry = some defs)
    (name : String) : defOf entry name = lookup name defs := by
  obtain ⟨v, hget, hv⟩ := Option.bind_eq_some_iff.mp h
  obtain rfl := Json.asObject_eq_some.mp hv
  show (entry.get "$defs").bind _ = _
  rw [hget]
  rfl

/-- What the worklist reaches is what is reachable. -/
theorem reached_iff {entry definition : Json} {defs : List (String × Json)}
    (h : defsOf entry = some defs) (name : String) :
    Worklist.Reached (nextDefs defs) (collectDefRefs definition []) name ↔
      Reachable entry definition name := by
  constructor
  · rintro ⟨root, hroot, hpath⟩
    induction hpath with
    | refl =>
      exact .direct (((mem_collectDefRefs _ _ _).mp hroot).resolve_right List.not_mem_nil)
    | tail _ hlink ih =>
      obtain ⟨extra, hextra, hmem⟩ := hlink
      obtain ⟨node, hnode, rfl⟩ := Option.map_eq_some_iff.mp hextra
      exact .through ih (defOf_eq_lookup h _ ▸ hnode)
        (((mem_collectDefRefs _ _ _).mp hmem).resolve_right List.not_mem_nil)
  · intro hreach
    induction hreach with
    | direct hmention => exact ⟨_, (mem_collectDefRefs _ _ _).mpr (.inl hmention), .refl⟩
    | through _ hnode hmention ih =>
      rw [defOf_eq_lookup h] at hnode
      exact ih.link ⟨_, congrArg (Option.map _) hnode,
        (mem_collectDefRefs _ _ _).mpr (.inl hmention)⟩

/-! ## The members of the schema -/

/-- A value whose objects name each member once, as those of a map do. -/
inductive NamesOnce : Json → Prop
  | null : NamesOnce .null
  | bool (b : Bool) : NamesOnce (.bool b)
  | num (n : Number) : NamesOnce (.num n)
  | str (s : String) : NamesOnce (.str s)
  | arr {items : List Json} (h : ∀ v ∈ items, NamesOnce v) : NamesOnce (.arr items)
  | obj {members : List (String × Json)} (hnames : (members.map Prod.fst).Nodup)
      (h : ∀ p ∈ members, NamesOnce p.2) : NamesOnce (.obj members)

/-- A text has no objects. -/
@[simp] theorem namesOnce_str (s : String) : NamesOnce (.str s) := .str s

/-- An array, by its elements. -/
@[simp] theorem namesOnce_arr {items : List Json} :
    NamesOnce (.arr items) ↔ ∀ v ∈ items, NamesOnce v := by
  constructor
  · intro h
    cases h with
    | arr h => exact h
  · exact .arr

/-- An object, by its members. -/
@[simp] theorem namesOnce_obj {members : List (String × Json)} :
    NamesOnce (.obj members) ↔
      (members.map Prod.fst).Nodup ∧ ∀ p ∈ members, NamesOnce p.2 := by
  constructor
  · intro h
    cases h with
    | obj hnames h => exact ⟨hnames, h⟩
  · exact fun h => .obj h.1 h.2

/-- The object of a name in an object, in one that names each member once. -/
theorem NamesOnce.lookup {members inner : List (String × Json)} (h : NamesOnce (.obj members))
    {name : String} (hinner : (Json.lookup name members).bind Json.asObject = some inner) :
    NamesOnce (.obj inner) := by
  obtain ⟨v, hv, hobj⟩ := Option.bind_eq_some_iff.mp hinner
  obtain rfl := Json.asObject_eq_some.mp hobj
  exact (namesOnce_obj.mp h).2 _ (Json.mem_of_lookup hv)

/-- The definitions of an entry, in one that names each member once. -/
theorem NamesOnce.defsOf {entry : Json} (h : NamesOnce entry) {defs : List (String × Json)}
    (hdefs : Contract.defsOf entry = some defs) : NamesOnce (.obj defs) := by
  cases h with
  | obj hnames h => exact NamesOnce.lookup (.obj hnames h) hdefs
  | null => cases hdefs
  | bool b => cases hdefs
  | num n => cases hdefs
  | str s => cases hdefs
  | arr h => cases hdefs

/-- A lookup after an insertion. -/
theorem lookup_insertMember (key name : String) (value : Json) (members : List (String × Json)) :
    lookup name (insertMember key value members) =
      if name = key then some value else lookup name members := by
  induction members with
  | nil => simp only [insertMember, Json.lookup, eq_comm]
  | cons p members ih =>
    obtain ⟨k, v⟩ := p
    unfold insertMember
    by_cases hlt : key < k
    · rw [if_pos hlt]
      simp only [Json.lookup, eq_comm]
    · rw [if_neg hlt]
      by_cases heq : key = k
      · subst heq
        rw [if_pos rfl]
        by_cases hname : name = key
        · simp [Json.lookup, hname]
        · simp [Json.lookup, hname, Ne.symm hname]
      · rw [if_neg heq]
        by_cases hk : k = name
        · simp [Json.lookup, hk, Ne.symm (hk ▸ heq)]
        · simp [Json.lookup, hk, ih]

/-- A member after an insertion. -/
theorem mem_insertMember {key : String} {value : Json} {members : List (String × Json)}
    {p : String × Json} (h : p ∈ insertMember key value members) : p = (key, value) ∨ p ∈ members := by
  induction members with
  | nil => exact .inl (List.mem_singleton.mp h)
  | cons q members ih =>
    obtain ⟨k, v⟩ := q
    unfold insertMember at h
    split_ifs at h with hlt heq
    · exact List.mem_cons.mp h
    · exact (List.mem_cons.mp h).imp_right (List.mem_cons_of_mem _)
    · rcases List.mem_cons.mp h with rfl | h
      · exact .inr List.mem_cons_self
      · exact (ih h).imp_right (List.mem_cons_of_mem _)

/-- An insertion keeps the key order. -/
theorem insertMember_pairwise {key : String} {value : Json} {members : List (String × Json)}
    (h : members.Pairwise fun a b => a.1 < b.1) :
    (insertMember key value members).Pairwise fun a b => a.1 < b.1 := by
  induction members with
  | nil => exact List.pairwise_singleton _ _
  | cons q members ih =>
    obtain ⟨k, v⟩ := q
    obtain ⟨hfirst, hrest⟩ := List.pairwise_cons.mp h
    unfold insertMember
    split_ifs with hlt heq
    · refine List.pairwise_cons.mpr ⟨?_, h⟩
      intro p hp
      rcases List.mem_cons.mp hp with rfl | hp
      · exact hlt
      · exact hlt.trans (hfirst p hp)
    · subst heq
      exact List.pairwise_cons.mpr ⟨hfirst, hrest⟩
    · refine List.pairwise_cons.mpr ⟨?_, ih hrest⟩
      intro p hp
      rcases mem_insertMember hp with rfl | hp
      · exact lt_of_le_of_ne (not_lt.mp hlt) (Ne.symm heq)
      · exact hfirst p hp

/-- Members in key order name each member once. -/
theorem nodup_names {members : List (String × Json)}
    (h : members.Pairwise fun a b => a.1 < b.1) : (members.map Prod.fst).Nodup :=
  List.pairwise_map.mpr (h.imp ne_of_lt)

/-- The copied definitions: those of the needed names, beside what was there. -/
theorem selectDefs_ok {defs : List (String × Json)} {needed : List String}
    (h : ∀ name ∈ needed, (lookup name defs).isSome) {selected : List (String × Json)}
    (hselected : selected.Pairwise fun a b => a.1 < b.1) :
    ∃ out, selectDefs defs needed selected = .ok out ∧ (out.Pairwise fun a b => a.1 < b.1) ∧
      ∀ name, lookup name out = if name ∈ needed then lookup name defs else lookup name selected := by
  induction needed generalizing selected with
  | nil => exact ⟨selected, rfl, hselected, fun name => by simp⟩
  | cons first needed ih =>
    obtain ⟨node, hnode⟩ := Option.isSome_iff_exists.mp (h first List.mem_cons_self)
    obtain ⟨out, hout, hsorted, hlookup⟩ :=
      ih (fun name hname => h name (List.mem_cons_of_mem _ hname))
        (insertMember_pairwise hselected)
    refine ⟨out, by simpa only [selectDefs, hnode] using hout, hsorted, fun name => ?_⟩
    rw [hlookup, lookup_insertMember]
    by_cases hmem : name ∈ needed
    · simp [hmem]
    · by_cases hfirst : name = first
      · simp [hfirst, hnode]
      · simp [hmem, hfirst]

/-- The copied members: those of the definition without its `$id`, over what was there. -/
theorem lookup_copyMembers {defObj : List (String × Json)} (h : (defObj.map Prod.fst).Nodup)
    (out : List (String × Json)) (name : String) :
    lookup name (copyMembers defObj out) =
      if name = "$id" then lookup name out else (lookup name defObj).or (lookup name out) := by
  induction defObj generalizing out with
  | nil => simp [copyMembers, Json.lookup]
  | cons p defObj ih =>
    obtain ⟨key, value⟩ := p
    obtain ⟨hfresh, hrest⟩ := List.nodup_cons.mp h
    unfold copyMembers
    by_cases hid : key = "$id"
    · rw [if_pos hid, ih hrest]
      by_cases hname : name = "$id"
      · simp [hname]
      · simp [hname, Json.lookup, hid, Ne.symm hname]
    · rw [if_neg hid, ih hrest, lookup_insertMember]
      by_cases hname : name = key
      · -- The member stands once, so the later ones do not name it.
        have hnone : lookup name defObj = none := by
          cases hl : lookup name defObj with
          | none => rfl
          | some v =>
            exact absurd (List.mem_map.mpr ⟨_, Json.mem_of_lookup hl, hname⟩) hfresh
        simp [hname, hid, Json.lookup, hname ▸ hnone]
      · simp [hname, Json.lookup, Ne.symm hname]

/-- The copied members stay in key order. -/
theorem copyMembers_pairwise {defObj out : List (String × Json)}
    (h : out.Pairwise fun a b => a.1 < b.1) :
    (copyMembers defObj out).Pairwise fun a b => a.1 < b.1 := by
  induction defObj generalizing out with
  | nil => exact h
  | cons p defObj ih =>
    obtain ⟨key, value⟩ := p
    unfold copyMembers
    by_cases hid : key = "$id"
    · rw [if_pos hid]
      exact ih h
    · rw [if_neg hid]
      exact ih (insertMember_pairwise h)

/-! ## Selection is closed -/

/-- What the schema of a kind is, over its definition in the entry. -/
structure Selection (entry definition schema : Json) : Prop where
  /-- The kept definitions are the reachable ones, as the entry has them. -/
  kept : ∀ name node, defOf schema name = some node ↔
    Reachable entry definition name ∧ defOf entry name = some node
  /-- Each is kept under its name once. -/
  once : ∃ selected, defsOf schema = some selected ∧ (selected.map Prod.fst).Nodup
  /-- A reference leads to a kept definition, save inside the `$schema` of the entry, which the
  schema takes when the definition has none of its own, and save that of a definition called `$ref`
  that is a text, which stands among the `$defs` as a reference would. -/
  closed : ∀ name, Mentions schema name → (defOf schema name).isSome ∨
    (definition.get "$schema" = none ∧ ∃ v, entry.get "$schema" = some v ∧ Mentions v name) ∨
    ∃ reference, defOf schema "$ref" = some (.str reference) ∧ refName reference = some name
  /-- Every other member is the definition's, without `$id`, or that `$schema`. -/
  others : ∀ name, name ≠ "$defs" → schema.get name =
    if name = "$id" then none
    else (definition.get name).or (if name = "$schema" then entry.get name else none)

/-- The start of the schema has the one member. -/
theorem lookup_schemaHead (entry : Json) (name : String) :
    lookup name (schemaHead entry) = if name = "$schema" then entry.get name else none := by
  unfold schemaHead
  cases h : entry.get "$schema" with
  | none =>
    by_cases hname : name = "$schema"
    · rw [hname, h]
      rfl
    · rw [if_neg hname]
      rfl
  | some v =>
    by_cases hname : name = "$schema"
    · simp [Json.lookup, hname, h]
    · simp [Json.lookup, hname, Ne.symm hname]

/-- The start of the schema is in key order. -/
theorem schemaHead_pairwise (entry : Json) :
    (schemaHead entry).Pairwise fun a b => a.1 < b.1 := by
  unfold schemaHead
  cases entry.get "$schema" with
  | none => exact .nil
  | some v => exact List.pairwise_singleton _ _

/-- The schema over the reachable names, when each of them has a definition. -/
theorem assembleSchema_ok {entry : Json} {defs defObj : List (String × Json)}
    (hdefs : defsOf entry = some defs) (hnames : (defObj.map Prod.fst).Nodup)
    {needed : List String} (hneeded : ∀ a, a ∈ needed ↔ Reachable entry (.obj defObj) a)
    (hnodes : ∀ a ∈ needed, (lookup a defs).isSome) :
    ∃ schema, assembleSchema entry defs defObj needed = .ok schema ∧
      Selection entry (.obj defObj) schema := by
  obtain ⟨selected, hselected, hsorted, hlookup⟩ := selectDefs_ok hnodes List.Pairwise.nil
  set copied := copyMembers defObj (schemaHead entry) with hcopied
  have hcopies : copied.Pairwise fun a b => a.1 < b.1 :=
    copyMembers_pairwise (schemaHead_pairwise entry)
  have hget : ∀ name, lookup name copied = if name = "$id" then none
      else (lookup name defObj).or (if name = "$schema" then entry.get name else none) := by
    intro name
    rw [hcopied, lookup_copyMembers hnames, lookup_schemaHead]
    by_cases hid : name = "$id"
    · subst hid
      simp
    · rw [if_neg hid, if_neg hid]
  set schema : Json := .obj (insertMember "$defs" (.obj selected) copied) with hschema
  have hschemaDefs : defsOf schema = some selected := by
    show (lookup "$defs" _).bind Json.asObject = _
    rw [lookup_insertMember, if_pos rfl]
    rfl
  have hdef : ∀ name, defOf schema name = if name ∈ needed then defOf entry name else none := by
    intro name
    rw [defOf_eq_lookup hschemaDefs, defOf_eq_lookup hdefs, hlookup]
    rfl
  -- A needed name is kept.
  have hkept : ∀ name, Reachable entry (.obj defObj) name → (defOf schema name).isSome := by
    intro name hreach
    have hmem := (hneeded name).mpr hreach
    rw [hdef, if_pos hmem, defOf_eq_lookup hdefs]
    exact hnodes name hmem
  -- A member of the definition under its name.
  have hown : ∀ p ∈ copied, p ∈ defObj ∨ lookup "$schema" defObj = none ∧
      entry.get "$schema" = some p.2 := by
    intro p hp
    have hfind := lookup_of_mem (nodup_names hcopies) hp
    rw [hget] at hfind
    by_cases hid : p.1 = "$id"
    · rw [if_pos hid] at hfind
      cases hfind
    · rw [if_neg hid] at hfind
      cases hl : lookup p.1 defObj with
      | some v =>
        rw [hl, Option.some_or] at hfind
        obtain rfl := Option.some.inj hfind
        exact .inl (Json.mem_of_lookup hl)
      | none =>
        rw [hl, Option.none_or] at hfind
        split_ifs at hfind with hname
        exact .inr (hname ▸ ⟨hl, hfind⟩)
  refine ⟨schema, by rw [assembleSchema, hselected]; rfl, ?_, ⟨selected, hschemaDefs,
    nodup_names hsorted⟩, ?_, ?_⟩
  · intro name node
    rw [hdef]
    by_cases hmem : name ∈ needed
    · rw [if_pos hmem]
      exact ⟨fun h => ⟨(hneeded name).mp hmem, h⟩, fun h => h.2⟩
    · rw [if_neg hmem]
      exact ⟨nofun, fun h => absurd ((hneeded name).mpr h.1) hmem⟩
  · intro name hmention
    rw [hschema] at hmention
    cases hmention with
    | here href =>
      -- The `$ref` of the schema is the `$ref` of the definition.
      refine .inl (hkept name (.direct (.here ?_)))
      rw [refOf, lookup_insertMember, if_neg (by decide), hget, if_neg (by decide),
        if_neg (by decide), Option.or_none] at href
      exact href
    | member hp h =>
      rcases mem_insertMember hp with rfl | hp
      · cases h with
        | here href =>
          obtain ⟨v, hv, hname⟩ := Option.bind_eq_some_iff.mp href
          obtain ⟨w, hw, hstr⟩ := Option.bind_eq_some_iff.mp hv
          rw [Json.asStr_eq_some] at hstr
          subst hstr
          exact .inr (.inr ⟨v, by rw [defOf_eq_lookup hschemaDefs, hw], hname⟩)
        | member hq h =>
          -- A kept definition mentions only what is reachable over it.
          have hfind := lookup_of_mem (nodup_names hsorted) hq
          rw [← defOf_eq_lookup hschemaDefs, hdef] at hfind
          split_ifs at hfind with hmem
          exact .inl (hkept name (.through ((hneeded _).mp hmem) hfind h))
      · rcases hown _ hp with hp | ⟨hnone, hv⟩
        · exact .inl (hkept name (.direct (.member hp h)))
        · exact .inr (.inl ⟨hnone, _, hv, h⟩)
  · intro name hname
    show lookup name _ = _
    rw [lookup_insertMember, if_neg hname, hget]
    rfl

/-- The definition of a kind, which has to be an object. -/
def KindDef (entry : Json) (kind : MessageType) (definition : Json) : Prop :=
  defOf entry (defNameFor kind) = some definition ∧ definition.asObject.isSome

/-- It is looked up among the `$defs`. -/
theorem kindDef_iff {entry definition : Json} {kind : MessageType} :
    KindDef entry kind definition ↔ ∃ defs defObj, defsOf entry = some defs ∧
      lookup (defNameFor kind) defs = some (.obj defObj) ∧ definition = .obj defObj := by
  constructor
  · rintro ⟨hdef, hobj⟩
    obtain ⟨defObj, hobj⟩ := Option.isSome_iff_exists.mp hobj
    obtain rfl := Json.asObject_eq_some.mp hobj
    obtain ⟨v, hget, hv⟩ := Option.bind_eq_some_iff.mp hdef
    cases v with
    | obj defs => exact ⟨defs, defObj, by rw [defsOf, hget]; rfl, hv, rfl⟩
    | null => cases hv
    | bool b => cases hv
    | num n => cases hv
    | str s => cases hv
    | arr items => cases hv
  · rintro ⟨defs, defObj, hdefs, hdef, rfl⟩
    exact ⟨by rw [defOf_eq_lookup hdefs, hdef], rfl⟩

/-- Without a definition of the kind there is nothing to select. -/
theorem select_without {entry : Json} {kind : MessageType}
    (h : ∀ definition, ¬ KindDef entry kind definition) :
    ∃ e, ∀ fuel, selectMessageSchema fuel entry kind = some (.error e) := by
  cases hdefs : defsOf entry with
  | none => exact ⟨validationError "/$defs" "missing", fun fuel => by
      simp only [selectMessageSchema, hdefs]⟩
  | some defs =>
    cases hkind : (lookup (defNameFor kind) defs).bind Json.asObject with
    | none => exact ⟨missingKind, fun fuel => by simp only [selectMessageSchema, hdefs, hkind]⟩
    | some defObj =>
      obtain ⟨node, hnode, hobj⟩ := Option.bind_eq_some_iff.mp hkind
      obtain rfl := Json.asObject_eq_some.mp hobj
      exact absurd (kindDef_iff.mpr ⟨defs, defObj, hdefs, hnode, rfl⟩) (h _)

/-- With one, the worklist decides: every reachable definition is there, or one is missing. -/
theorem select_with {entry : Json} (hentry : NamesOnce entry) {kind : MessageType}
    {definition : Json} (h : KindDef entry kind definition) :
    ∃ r, (∀ fuel, ((defsOf entry).getD []).length < fuel →
        selectMessageSchema fuel entry kind = some r) ∧
      ((∃ schema, r = .ok schema ∧ Selection entry definition schema ∧
          ∀ name, Reachable entry definition name → (defOf entry name).isSome) ∨
        r = .error missingKind ∧
          ∃ name, Reachable entry definition name ∧ defOf entry name = none) := by
  obtain ⟨defs, defObj, hdefs, hdef, rfl⟩ := kindDef_iff.mp h
  have hkind : (lookup (defNameFor kind) defs).bind Json.asObject = some defObj := by
    rw [hdef]
    rfl
  have hnames : (defObj.map Prod.fst).Nodup :=
    (namesOnce_obj.mp ((hentry.defsOf hdefs).lookup hkind)).1
  have hnodes : ∀ a extra, nextDefs defs a = some extra → a ∈ defs.map Prod.fst := by
    intro a extra hextra
    obtain ⟨node, hnode, -⟩ := Option.map_eq_some_iff.mp hextra
    exact List.mem_map.mpr ⟨_, Json.mem_of_lookup hnode, rfl⟩
  have hisSome : ∀ a, (nextDefs defs a).isSome = (defOf entry a).isSome := by
    intro a
    rw [nextDefs, Option.isSome_map, defOf_eq_lookup hdefs]
  -- the closure of the source is that of a worklist over the definitions
  obtain ⟨closed, hclosed, hrun⟩ :=
    Worklist.close_spec hnodes (collectDefRefs_sorted (.obj defObj) List.Pairwise.nil)
  rw [List.length_map] at hrun
  have hselect : ∀ fuel, ((defsOf entry).getD []).length < fuel →
      selectMessageSchema fuel entry kind = some (finishSchema entry defs defObj closed) := by
    intro fuel hfuel
    rw [hdefs, Option.getD_some] at hfuel
    simp only [selectMessageSchema, hdefs, hkind, hrun fuel hfuel, Option.map_some]
  refine ⟨_, hselect, ?_⟩
  cases hclosed with
  | all sorted hexact nodes =>
    have hneeded : ∀ a, a ∈ _ ↔ Reachable entry (.obj defObj) a :=
      fun a => (hexact a).trans (reached_iff hdefs a)
    obtain ⟨schema, hschema, hselection⟩ := assembleSchema_ok hdefs hnames hneeded fun a ha => by
      rw [← defOf_eq_lookup hdefs, ← hisSome]
      exact nodes a ha
    refine .inl ⟨schema, hschema, hselection, fun name hreach => ?_⟩
    rw [← hisSome]
    exact nodes name ((hneeded name).mpr hreach)
  | @missing name hreached hnode =>
    refine .inr ⟨rfl, name, (reached_iff hdefs name).mp hreached, ?_⟩
    rw [← Option.isNone_iff_eq_none, ← Option.not_isSome, ← hisSome, hnode]
    rfl

/-- **Schema selection is closed.** With fuel for every definition of the entry, and with any
references among them, selection ends. A schema it returns keeps the definitions reachable from the
one of the kind, all of which the entry has. It refuses an entry without the definition of the kind,
or in which a reachable one is missing, and no other. -/
theorem select_closed (entry : Json) (hentry : NamesOnce entry) (kind : MessageType) :
    ∃ r, (∀ fuel, ((defsOf entry).getD []).length < fuel →
        selectMessageSchema fuel entry kind = some r) ∧
      (∀ schema, r = .ok schema → ∃ definition, KindDef entry kind definition ∧
        (∀ name, Reachable entry definition name → (defOf entry name).isSome) ∧
        Selection entry definition schema) ∧
      ((∃ e, r = .error e) ↔ (∀ definition, ¬ KindDef entry kind definition) ∨
        ∃ definition name, KindDef entry kind definition ∧ Reachable entry definition name ∧
          defOf entry name = none) := by
  by_cases hkind : ∃ definition, KindDef entry kind definition
  · obtain ⟨definition, hkind⟩ := hkind
    obtain ⟨r, hrun, ⟨schema, rfl, hselection, hall⟩ | ⟨rfl, name, hreach, hnone⟩⟩ :=
      select_with hentry hkind
    · refine ⟨_, hrun, ?_, ⟨nofun, ?_⟩⟩
      · rintro _ ⟨⟩
        exact ⟨definition, hkind, hall, hselection⟩
      · rintro (hno | ⟨definition', name, hkind', hreach, hnone⟩)
        · exact absurd hkind (hno definition)
        · obtain rfl := Option.some.inj (hkind.1.symm.trans hkind'.1)
          have hsome := hall name hreach
          rw [hnone] at hsome
          cases hsome
    · exact ⟨_, hrun, nofun, fun _ => .inr ⟨definition, name, hkind, hreach, hnone⟩,
        fun _ => ⟨_, rfl⟩⟩
  · have hno : ∀ definition, ¬ KindDef entry kind definition :=
      fun definition h => hkind ⟨definition, h⟩
    obtain ⟨e, he⟩ := select_without hno
    exact ⟨_, fun fuel _ => he fuel, nofun, fun _ => .inl hno, fun _ => ⟨e, rfl⟩⟩

/-! ## Entries -/

/-- A definition that refers to itself. -/
def idTokenDef : Json := .obj [("items", .arr [.obj [("$ref", .str "#/$defs/idToken")]])]

/-- A definition that refers to it. -/
def waiterDef : Json :=
  .obj [("properties", .obj [("id", .obj [("$ref", .str "#/$defs/idToken")])])]

/-- An entry whose definition of a kind refers to both, one over the other, and one it leaves. -/
def cyclicEntry : Json :=
  .obj [("$defs", .obj [("idToken", idTokenDef), ("pollCycleAck", .obj []),
    ("registrationSet", .obj [("$id", .str "set"), ("$ref", .str "#/$defs/waiter")]),
    ("waiter", waiterDef)])]

/-- The schema of the kind. -/
def cyclicSchema : Json :=
  .obj [("$defs", .obj [("idToken", idTokenDef), ("waiter", waiterDef)]),
    ("$ref", .str "#/$defs/waiter")]

/-- It is selected, and closed. -/
theorem select_closed_cyclic :
    NamesOnce cyclicEntry ∧
      selectMessageSchema 5 cyclicEntry .registrationSet = some (.ok cyclicSchema) ∧
      ∃ definition, KindDef cyclicEntry .registrationSet definition ∧
        Selection cyclicEntry definition cyclicSchema := by
  have hnames : NamesOnce cyclicEntry := by simp [cyclicEntry, idTokenDef, waiterDef]
  have hselected : selectMessageSchema 5 cyclicEntry .registrationSet = some (.ok cyclicSchema) := by
    decide +kernel
  obtain ⟨r, hrun, hok, -⟩ := select_closed cyclicEntry hnames .registrationSet
  have hr : r = .ok cyclicSchema :=
    Option.some.inj ((hrun 5 (by decide)).symm.trans hselected)
  obtain ⟨definition, hkind, -, hselection⟩ := hok cyclicSchema hr
  exact ⟨hnames, hselected, definition, hkind, hselection⟩

/-- An entry whose `$schema` is an object with a reference to no definition. -/
def metaEntry : Json :=
  .obj [("$defs", .obj [("registrationSet", .obj [])]),
    ("$schema", .obj [("$ref", .str "#/$defs/idToken")])]

/-- **A reference inside `$schema` dangles**: it is copied, and nobody looks for it. -/
theorem schema_reference_dangles :
    ¬ ∀ (entry schema : Json) (kind : MessageType) (fuel : ℕ) (name : String),
      NamesOnce entry → selectMessageSchema fuel entry kind = some (.ok schema) →
      Mentions schema name → (defOf schema name).isSome := by
  intro hclaim
  have hrun : selectMessageSchema 2 metaEntry .registrationSet = some (.ok (.obj [
      ("$defs", .obj []), ("$schema", .obj [("$ref", .str "#/$defs/idToken")])])) := by
    decide +kernel
  have hmention : Mentions (.obj [("$defs", .obj []),
      ("$schema", .obj [("$ref", .str "#/$defs/idToken")])]) "idToken" :=
    .member (List.mem_cons_of_mem _ List.mem_cons_self) (.here (by decide +kernel))
  have hsome := hclaim metaEntry _ .registrationSet 2 "idToken" (by simp [metaEntry]) hrun hmention
  exact absurd hsome (by decide)

end Contract

end Waitprims
