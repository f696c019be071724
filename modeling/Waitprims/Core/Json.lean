import Mathlib
import Waitprims.Core.Types

/-! # JSON values

The values the strict parser builds and the validator reads. A member list of an object stands for
the map of the source: in key order, each name once; a lookup takes the first member of a name. An
integer token that fits `i64` is kept as an integer and any other number as its binary64 bits.

* **`Json.get`**, **`Json.asStr`**, … — the accessors of a value; on a value of another kind each
  answers `none`.
* **`Json.field`** — an accessor under a member name. -/

namespace Waitprims

/-- A finite IEEE 754 binary64 value, by its bits. -/
structure Binary64 where
  bits : BitVec 64
  deriving DecidableEq, Repr

/-- A JSON number. -/
inductive Number
  | int (value : Int)
  | float (value : Binary64)
  deriving DecidableEq, Repr

/-- A JSON value. -/
inductive Json
  | null
  | bool (b : Bool)
  | num (n : Number)
  | str (s : String)
  | arr (items : List Json)
  | obj (members : List (String × Json))
  deriving Repr

namespace Json

/-! ## Equality of values is decidable -/

mutual

/-- Equality of two values. -/
def decEq : (a b : Json) → Decidable (a = b)
  | .null, .null => isTrue rfl
  | .bool a, .bool b => decidable_of_iff (a = b) (by rw [Json.bool.injEq])
  | .num a, .num b => decidable_of_iff (a = b) (by rw [Json.num.injEq])
  | .str a, .str b => decidable_of_iff (a = b) (by rw [Json.str.injEq])
  | .arr a, .arr b =>
    have := decEqItems a b
    decidable_of_iff (a = b) (by rw [Json.arr.injEq])
  | .obj a, .obj b =>
    have := decEqMembers a b
    decidable_of_iff (a = b) (by rw [Json.obj.injEq])
  | .null, .bool _ | .null, .num _ | .null, .str _ | .null, .arr _ | .null, .obj _
  | .bool _, .null | .bool _, .num _ | .bool _, .str _ | .bool _, .arr _ | .bool _, .obj _
  | .num _, .null | .num _, .bool _ | .num _, .str _ | .num _, .arr _ | .num _, .obj _
  | .str _, .null | .str _, .bool _ | .str _, .num _ | .str _, .arr _ | .str _, .obj _
  | .arr _, .null | .arr _, .bool _ | .arr _, .num _ | .arr _, .str _ | .arr _, .obj _
  | .obj _, .null | .obj _, .bool _ | .obj _, .num _ | .obj _, .str _ | .obj _, .arr _ =>
    isFalse (by intro h; cases h)

/-- Equality of two lists of values. -/
def decEqItems : (a b : List Json) → Decidable (a = b)
  | [], [] => isTrue rfl
  | [], _ :: _ => isFalse (by intro h; cases h)
  | _ :: _, [] => isFalse (by intro h; cases h)
  | a :: as, b :: bs =>
    have := decEq a b
    have := decEqItems as bs
    decidable_of_iff (a = b ∧ as = bs) (by rw [List.cons.injEq])

/-- Equality of two member lists. -/
def decEqMembers : (a b : List (String × Json)) → Decidable (a = b)
  | [], [] => isTrue rfl
  | [], _ :: _ => isFalse (by intro h; cases h)
  | _ :: _, [] => isFalse (by intro h; cases h)
  | (k, a) :: as, (l, b) :: bs =>
    have := decEq a b
    have := decEqMembers as bs
    decidable_of_iff ((k = l ∧ a = b) ∧ as = bs) (by rw [List.cons.injEq, Prod.mk.injEq])

end

instance : DecidableEq Json := decEq

/-! ## Accessors -/

/-- The first member of a name. -/
def lookup {α : Type} (key : String) : List (String × α) → Option α
  | [] => none
  | (k, v) :: rest => if k = key then some v else lookup key rest

/-- `Value::get`. -/
def get (value : Json) (key : String) : Option Json :=
  match value with
  | .obj members => lookup key members
  | _ => none

/-- `Value::as_str`. -/
def asStr : Json → Option String
  | .str s => some s
  | _ => none

/-- `Value::as_bool`. -/
def asBool : Json → Option Bool
  | .bool b => some b
  | _ => none

/-- `Value::as_array`. -/
def asArray : Json → Option (List Json)
  | .arr items => some items
  | _ => none

/-- `Value::as_object`. -/
def asObject : Json → Option (List (String × Json))
  | .obj members => some members
  | _ => none

/-- `Value::as_u64`. -/
def asU64 : Json → Option Nat
  | .num (.int n) => if 0 ≤ n ∧ n < 2 ^ 64 then some n.toNat else none
  | _ => none

/-- `document.get(key).and_then(Value::as_str)`. -/
def strField (value : Json) (key : String) : Option String := (value.get key).bind asStr

/-- `document.get(key).and_then(Value::as_array)`. -/
def arrayField (value : Json) (key : String) : Option (List Json) := (value.get key).bind asArray

/-- `Value::pointer` of two names. -/
def pointer (value : Json) (outer inner : String) : Option Json :=
  (value.get outer).bind fun v => v.get inner

/-- The member is the literal `true`. -/
def isTrueField (value : Json) (key : String) : Bool := value.get key == some (.bool true)

/-- Only a text is read as one. -/
theorem asStr_eq_some {value : Json} {s : String} : value.asStr = some s ↔ value = .str s := by
  cases value <;> simp [asStr]

/-- Only an object is read as one. -/
theorem asObject_eq_some {value : Json} {members : List (String × Json)} :
    value.asObject = some members ↔ value = .obj members := by
  cases value <;> simp [asObject]

/-- A member that is found is a member. -/
theorem mem_of_lookup {α : Type} {key : String} {v : α} {members : List (String × α)}
    (h : lookup key members = some v) : (key, v) ∈ members := by
  induction members with
  | nil => cases h
  | cons p rest ih =>
    obtain ⟨k, v'⟩ := p
    unfold lookup at h
    by_cases hk : k = key
    · rw [if_pos hk] at h
      obtain rfl := Option.some.inj h
      rw [hk]
      exact List.mem_cons_self
    · rw [if_neg hk] at h
      exact List.mem_cons_of_mem _ (ih h)

/-- A member that is present is found. -/
theorem lookup_of_mem {α : Type} {members : List (String × α)} (h : (members.map Prod.fst).Nodup)
    {k : String} {v : α} (hmem : (k, v) ∈ members) : lookup k members = some v := by
  induction members with
  | nil => cases hmem
  | cons p rest ih =>
    obtain ⟨k', v'⟩ := p
    obtain ⟨hfresh, hrest⟩ := List.nodup_cons.mp h
    unfold lookup
    rcases List.mem_cons.mp hmem with heq | hmem
    · obtain ⟨rfl, rfl⟩ := Prod.mk.inj heq
      exact if_pos rfl
    · have hne : k' ≠ k := by
        rintro rfl
        exact hfresh (List.mem_map.mpr ⟨_, hmem, rfl⟩)
      rw [if_neg hne]
      exact ih hrest hmem

/-- Induction on a value. -/
theorem ind {P : Json → Prop} (hnull : P .null) (hbool : ∀ b, P (.bool b)) (hnum : ∀ n, P (.num n))
    (hstr : ∀ s, P (.str s)) (harr : ∀ items, (∀ v ∈ items, P v) → P (.arr items))
    (hobj : ∀ members, (∀ p ∈ members, P p.2) → P (.obj members)) (v : Json) : P v := by
  refine @Json.rec P (fun items => ∀ v ∈ items, P v) (fun members => ∀ p ∈ members, P p.2)
    (fun p => P p.2) hnull hbool hnum hstr harr hobj ?_ ?_ ?_ ?_ ?_ v
  · intro v hv
    cases hv
  · intro v items ihv ihs w hw
    rcases List.mem_cons.mp hw with rfl | hw
    · exact ihv
    · exact ihs w hw
  · intro p hp
    cases hp
  · intro p members ihp ihs q hq
    rcases List.mem_cons.mp hq with rfl | hq
    · exact ihp
    · exact ihs q hq
  · intro key v ih
    exact ih

end Json

end Waitprims
