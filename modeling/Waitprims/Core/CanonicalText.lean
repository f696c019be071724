import Mathlib
import Waitprims.Core.Canonical
import Waitprims.Core.JsonComplete

/-! # The canonical text of a parsed value

A value of the strict parser has only finite numbers that survive binary64 and objects in key order,
and encodes to a text: the encoder refuses none of them. The text is a total function of the value,
so facts about it go by induction on the value.

* **`Json.Parsed`** — what the strict parser returns.
* **`Jcs.text`** — the canonical text of a value.
* **`Jcs.encode_eq`** — a parsed value encodes to its text. -/

namespace Waitprims

/-! ## Parsed values -/

/-- A number the parser returns: an exact integer of `i64`, or a finite float. -/
def Number.Parsed : Number → Prop
  | .int i => (-2 ^ 63 ≤ i ∧ i < 2 ^ 63) ∧ (Binary64.ofInt i).isFinite = true ∧
      (Binary64.ofInt i).toI128 = i
  | .float x => x.isFinite = true

/-- The number of a checked token is one the parser returns. -/
theorem Numeral.parsed_number {token : Numeral} (h : token.Checked) : token.number.Parsed := by
  unfold Numeral.number
  by_cases hint : token.isIntegerToken ∧ -2 ^ 63 ≤ token.integer ∧ token.integer < 2 ^ 63
  · rw [if_pos hint]
    unfold Numeral.Checked at h
    rw [if_pos hint.1] at h
    exact ⟨hint.2, h.2⟩
  · rw [if_neg hint]
    unfold Numeral.Checked at h
    by_cases htoken : token.isIntegerToken = true
    · rw [if_pos htoken] at h
      have hne : token.integer ≠ 0 := by
        intro hzero
        apply hint
        rw [hzero]
        exact ⟨htoken, by norm_num⟩
      show token.parseF64.isFinite = true
      rw [Numeral.parseF64_of_isIntegerToken htoken hne]
      exact h.2.1
    · rwa [if_neg htoken] at h

/-- A parsed number is finite. -/
theorem Number.Parsed.isFinite {n : Number} (h : n.Parsed) : n.toF64.isFinite = true := by
  cases n with
  | int i => exact h.2.1
  | float x => exact h

namespace Json

/-- A value the strict parser returns: its numbers pass the check, its objects are in key order. -/
inductive Parsed : Json → Prop
  | null : Parsed .null
  | bool (b : Bool) : Parsed (.bool b)
  | str (s : String) : Parsed (.str s)
  | num {n : Number} (h : n.Parsed) : Parsed (.num n)
  | arr {items : List Json} (h : ∀ v ∈ items, Parsed v) : Parsed (.arr items)
  | obj {members : List (String × Json)} (hsorted : members.Pairwise fun a b => a.1 < b.1)
    (h : ∀ p ∈ members, Parsed p.2) : Parsed (.obj members)

/-- The names of members in key order are distinct. -/
theorem nodup_of_sorted {members : List (String × Json)}
    (h : members.Pairwise fun a b => a.1 < b.1) : (members.map Prod.fst).Nodup :=
  List.Pairwise.map Prod.fst (fun _ _ hab => ne_of_lt hab) h

/-- What the grammar derives is parsed. -/
theorem parsed_of_value {cs rest : List Char} {v : Json} (h : JsonText.Value cs v rest) :
    Parsed v := by
  refine @JsonText.Value.rec (fun _ v _ _ => Parsed v) (fun _ vs _ _ => ∀ v ∈ vs, Parsed v)
    (fun _ members _ _ => ∀ p ∈ members, Parsed p.2) ?_ ?_ ?_ ?_ ?_ ?_ ?_ ?_ ?_ ?_ ?_ ?_ ?_ cs v rest h
  · exact Parsed.null
  · exact Parsed.bool true
  · exact Parsed.bool false
  · intro cs rest s _
    exact Parsed.str s
  · intro token rest _ hcheck
    exact Parsed.num (Numeral.parsed_number hcheck)
  · intro cs rest _
    exact Parsed.arr fun _ h => (nomatch h)
  · intro cs rest items _ ih
    exact Parsed.arr ih
  · intro cs rest _
    exact Parsed.obj List.Pairwise.nil fun _ h => (nomatch h)
  · intro cs rest members sorted _ _ hperm hsorted ih
    exact Parsed.obj hsorted fun p hp => ih p (hperm.subset hp)
  · intro cs cs₁ cs₂ rest v _ _ _ ih w hw
    rwa [List.mem_singleton.mp hw]
  · intro cs cs₁ cs₂ cs₃ rest v vs _ _ _ _ ihv ihvs w hw
    rcases List.mem_cons.mp hw with rfl | hw
    · exact ihv
    · exact ihvs w hw
  · intro cs cs₁ cs₂ cs₃ cs₄ cs₅ rest key v _ _ _ _ _ _ ih p hp
    rwa [List.mem_singleton.mp hp]
  · intro cs cs₁ cs₂ cs₃ cs₄ cs₅ cs₆ rest key v members _ _ _ _ _ _ _ ihv ihms p hp
    rcases List.mem_cons.mp hp with rfl | hp
    · exact ihv
    · exact ihms p hp

/-- What the strict parser returns is parsed. -/
theorem parsed_of_parseStrict {raw : String} {v : Json} (h : Jcs.parseStrict raw = .ok v) :
    Parsed v := by
  obtain ⟨_, _, _, hv, _⟩ := (Jcs.parseStrict_ok_iff raw v).mp h
  exact parsed_of_value hv

/-- An integer of a parsed document is below `2 ^ 63`. -/
theorem asU64_lt {value : Json} (h : value.Parsed) {n : Nat} (hn : value.asU64 = some n) :
    n < 2 ^ 63 := by
  cases h with
  | @num number hnumber =>
    cases number with
    | int i =>
      have hi : i < 2 ^ 63 := hnumber.1.2
      unfold asU64 at hn
      dsimp only at hn
      split at hn
      · obtain rfl := Option.some.inj hn
        omega
      · cases hn
    | float x => cases hn
  | null => cases hn
  | bool b => cases hn
  | str s => cases hn
  | arr h => cases hn
  | obj hsorted h => cases hn

/-- A member of a parsed document is parsed. -/
theorem parsed_of_get {document value : Json} (h : document.Parsed) {name : String}
    (hget : document.get name = some value) : value.Parsed := by
  cases h with
  | obj _ hmembers => exact hmembers _ (mem_of_lookup hget)
  | null => cases hget
  | bool b => cases hget
  | str s => cases hget
  | num h => cases hget
  | arr h => cases hget

end Json

namespace Jcs

/-! ## The text of a string -/

/-- The text of a character. -/
def escapeText (c : Char) : List Char :=
  if c = '"' then ['\\', '"']
  else if c = '\\' then ['\\', '\\']
  else if c = '\x08' then ['\\', 'b']
  else if c = '\x0c' then ['\\', 'f']
  else if c = '\n' then ['\\', 'n']
  else if c = '\r' then ['\\', 'r']
  else if c = '\t' then ['\\', 't']
  else if c.toNat < 0x20 then '\\' :: 'u' :: hex4Text c.toNat
  else [c]

/-- The text of a string. -/
def stringText (s : String) : List Char := '"' :: (s.toList.flatMap escapeText ++ ['"'])

/-- No character is a surrogate, so every one is encoded. -/
theorem encodeChar_eq (c : Char) : encodeChar c = .ok (escapeText c) := by
  have hvalid : c.toNat < 0xd800 ∨ 0xdfff < c.toNat ∧ c.toNat < 0x110000 := c.valid
  have hsurrogate : ¬ (0xd800 ≤ c.toNat && c.toNat ≤ 0xdfff) = true := by
    rw [Bool.and_eq_true, decide_eq_true_iff, decide_eq_true_iff]
    omega
  unfold encodeChar escapeText
  rw [if_neg hsurrogate]
  simp only [apply_ite (Except.ok (ε := JcsError))]

/-- A traversal whose steps all return. -/
theorem mapM_ok {α β γ ε : Type} {f : β → Except ε γ} {e : α → β} {g : α → γ} {l : List α}
    (h : ∀ a ∈ l, f (e a) = .ok (g a)) : (l.map e).mapM f = .ok (l.map g) := by
  induction l with
  | nil => rfl
  | cons a l ih =>
    rw [List.map_cons, List.mapM_cons, h a List.mem_cons_self,
      ih fun b hb => h b (List.mem_cons_of_mem _ hb)]
    rfl

/-- A string encodes to its text. -/
theorem encodeString_eq (s : String) : encodeString s = .ok (stringText s) := by
  have hchars : s.toList.mapM encodeChar = .ok (s.toList.map escapeText) := by
    have h := @mapM_ok _ _ _ _ encodeChar id escapeText s.toList fun c _ => encodeChar_eq c
    rwa [List.map_id] at h
  unfold encodeString stringText
  rw [hchars]
  show Except.ok ('"' :: ((s.toList.map escapeText).flatten ++ ['"'])) = _
  rw [List.flatMap_def]

/-! ## The text of a value -/

section Text

variable (formatFinite : Binary64 → List Char)

/-- The text of a number. -/
def numberText (n : Number) : List Char :=
  if n.toF64.magnitude = 0 then ['0'] else formatFinite n.toF64

/-- The text of a member. -/
def memberText (key : String) (value : List Char) : List Char := stringText key ++ ':' :: value

mutual

/-- The canonical text of a value. -/
def text : Json → List Char
  | .null => ['n', 'u', 'l', 'l']
  | .bool true => ['t', 'r', 'u', 'e']
  | .bool false => ['f', 'a', 'l', 's', 'e']
  | .str s => stringText s
  | .num n => numberText formatFinite n
  | .arr items => '[' :: (commas (textItems items) ++ [']'])
  | .obj members => '{' :: (commas ((sortMembers (textMembers members)).map Prod.snd) ++ ['}'])

/-- The texts of the elements. -/
def textItems : List Json → List (List Char)
  | [] => []
  | item :: items => text item :: textItems items

/-- The texts of the members, under their names. -/
def textMembers : List (String × Json) → List (String × List Char)
  | [] => []
  | (key, value) :: members => (key, memberText key (text value)) :: textMembers members

end

/-- The texts of the elements, one by one. -/
theorem textItems_eq (items : List Json) :
    textItems formatFinite items = items.map (text formatFinite) := by
  induction items with
  | nil => rfl
  | cons item items ih =>
    unfold textItems
    rw [ih, List.map_cons]

/-- A member and its text. -/
def memberPiece (p : String × Json) : String × List Char :=
  (p.1, memberText p.1 (text formatFinite p.2))

/-- The texts of the members, one by one. -/
theorem textMembers_eq (members : List (String × Json)) :
    textMembers formatFinite members = members.map (memberPiece formatFinite) := by
  induction members with
  | nil => rfl
  | cons p members ih =>
    obtain ⟨key, value⟩ := p
    unfold textMembers
    rw [ih, List.map_cons]
    rfl

/-- Sorting sees the names alone. -/
theorem sortMembers_map {α β : Type} {f : String × α → String × β} (hf : ∀ p, (f p).1 = p.1)
    (members : List (String × α)) : sortMembers (members.map f) = (sortMembers members).map f := by
  unfold sortMembers
  rw [List.map_insertionSort (r := fun a b : String × α => encodeUtf16 a.1 ≤ encodeUtf16 b.1)
    (s := fun a b : String × β => encodeUtf16 a.1 ≤ encodeUtf16 b.1)]
  intro a _ b _
  rw [hf a, hf b]

/-- The text of an object, from its members in the order of the encoder. -/
theorem text_obj (members : List (String × Json)) :
    text formatFinite (.obj members)
      = '{' :: (commas ((sortMembers members).map fun p => (memberPiece formatFinite p).2)
        ++ ['}']) := by
  unfold text
  rw [textMembers_eq, @sortMembers_map _ _ (memberPiece formatFinite) fun _ => rfl, List.map_map]
  rfl

/-- The text of an array. -/
theorem text_arr (items : List Json) :
    text formatFinite (.arr items) = '[' :: (commas (items.map (text formatFinite)) ++ [']']) := by
  unfold text
  rw [textItems_eq]

/-- A parsed number encodes to its text. -/
theorem encodeNumber_eq {n : Number} (h : n.Parsed) :
    encodeNumber formatFinite n = .ok (numberText formatFinite n) := by
  have hfloat : ∀ x : Binary64, x.isFinite = true → encodeF64 formatFinite x
      = .ok (if x.magnitude = 0 then ['0'] else formatFinite x) := by
    intro x hx
    unfold encodeF64
    rw [if_neg (by simp [hx])]
    split <;> rfl
  cases n with
  | float x => exact hfloat x h
  | int i =>
    obtain ⟨hrange, hfinite, hexact⟩ := h
    have htrunc : (Binary64.ofInt i).toI64 = i := by
      unfold Binary64.toI128 Binary64.saturate at hexact
      unfold Binary64.toI64 Binary64.saturate
      omega
    unfold encodeNumber
    dsimp only
    rw [if_pos hrange, if_neg (by simp [htrunc])]
    exact hfloat _ hfinite

/-- What the elements encode to, one by one. -/
theorem encodeItems_eq (items : List Json) :
    encodeItems formatFinite items = items.map (encode formatFinite) := by
  induction items with
  | nil => rfl
  | cons item items ih =>
    unfold encodeItems
    rw [ih, List.map_cons]

/-- What the members encode to, one by one. -/
theorem encodeMembers_eq (members : List (String × Json)) :
    encodeMembers formatFinite members
      = members.map fun p => (p.1, encodeMember p.1 (encode formatFinite p.2)) := by
  induction members with
  | nil => rfl
  | cons p members ih =>
    obtain ⟨key, value⟩ := p
    unfold encodeMembers
    rw [ih, List.map_cons]

/-- **A parsed value encodes to its text.** -/
theorem encode_eq {v : Json} (h : v.Parsed) :
    encode formatFinite v = .ok (text formatFinite v) := by
  induction v using Json.ind with
  | hnull => rfl
  | hbool b => cases b <;> rfl
  | hnum n =>
    cases h with
    | num hn => exact encodeNumber_eq formatFinite hn
  | hstr s => exact encodeString_eq s
  | harr items ih =>
    cases h with
    | arr hitems =>
      have htexts : (items.map (encode formatFinite)).mapM id
          = .ok (items.map (text formatFinite)) :=
        mapM_ok fun v hv => ih v hv (hitems v hv)
      unfold encode
      rw [encodeItems_eq, htexts, text_arr]
      rfl
  | hobj members ih =>
    cases h with
    | obj _ hmembers =>
      have htexts : ((sortMembers members).map fun p =>
          (p.1, encodeMember p.1 (encode formatFinite p.2))).mapM Prod.snd
          = .ok ((sortMembers members).map fun p => (memberPiece formatFinite p).2) := by
        apply mapM_ok
        intro p hp
        have hmem : p ∈ members := (List.mem_insertionSort _).mp hp
        show encodeMember p.1 (encode formatFinite p.2) = _
        rw [ih p hmem (hmembers p hmem)]
        unfold encodeMember
        rw [encodeString_eq]
        rfl
      unfold encode
      rw [encodeMembers_eq, @sortMembers_map _ _
        (fun p : String × Json => (p.1, encodeMember p.1 (encode formatFinite p.2))) fun _ => rfl,
        htexts, text_obj]
      rfl

end Text

end Jcs

end Waitprims
