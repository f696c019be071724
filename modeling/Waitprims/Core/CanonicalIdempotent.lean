import Mathlib
import Waitprims.Core.NumberToString

/-! # When canonicalization is idempotent

The canonical text of a value is a text of the grammar as soon as each of its numbers is printed as
a token that the number check accepts, and it denotes the same value with its numbers read again, so
it canonicalizes to itself. A number printed as a plain integer other than itself is refused, and
with it the whole text.

* **`PrintsItself`** — plain digits, if a value is printed in them, write the value.
* **`Jcs.value_text`** — a text whose numbers print themselves is derived.
* **`Jcs.printsItself_of_value`** — a text that is derived has only such numbers.
* **`Jcs.reparses_iff`**, **`Jcs.canonicalizeBytes_text`** — over the bytes. -/

namespace Waitprims

/-- A predicate holds of every number of a value. -/
inductive Json.AllNumbers (p : Number → Prop) : Json → Prop
  | null : AllNumbers p .null
  | bool (b : Bool) : AllNumbers p (.bool b)
  | str (s : String) : AllNumbers p (.str s)
  | num {n : Number} (h : p n) : AllNumbers p (.num n)
  | arr {items : List Json} (h : ∀ v ∈ items, AllNumbers p v) : AllNumbers p (.arr items)
  | obj {members : List (String × Json)} (h : ∀ q ∈ members, AllNumbers p q.2) :
    AllNumbers p (.obj members)

/-- A number is printed as itself: where its shortest digits are plain digits of an integer, they
are the digits of the number's own integer part. -/
def PrintsItself (shortest : Binary64 → Decimal) (n : Number) : Prop :=
  n.toF64.magnitude ≠ 0 → (shortest n.toF64).IsPlain →
    ((shortest n.toF64).plain : ℤ) = ⌊Binary64.format.value n.toF64.magnitude⌋

/-- The token of zero. -/
def zeroToken : Numeral := ⟨false, ['0'], none, none⟩

/-- The token a number is printed as. -/
def Number.token (shortest : Binary64 → Decimal) (n : Number) : Numeral :=
  if n.toF64.magnitude = 0 then zeroToken else (shortest n.toF64).token n.toF64.isNegative

mutual

/-- A value with its numbers replaced. -/
def Json.mapNumbers (f : Number → Number) : Json → Json
  | .null => .null
  | .bool b => .bool b
  | .str s => .str s
  | .num n => .num (f n)
  | .arr items => .arr (Json.mapItems f items)
  | .obj members => .obj (Json.mapMembers f members)

/-- Elements with their numbers replaced. -/
def Json.mapItems (f : Number → Number) : List Json → List Json
  | [] => []
  | item :: items => Json.mapNumbers f item :: Json.mapItems f items

/-- Members with their numbers replaced. -/
def Json.mapMembers (f : Number → Number) : List (String × Json) → List (String × Json)
  | [] => []
  | (key, value) :: members => (key, Json.mapNumbers f value) :: Json.mapMembers f members

end

/-- Elements are replaced one by one. -/
theorem Json.mapItems_eq (f : Number → Number) (items : List Json) :
    Json.mapItems f items = items.map (Json.mapNumbers f) := by
  induction items with
  | nil => rfl
  | cons item items ih =>
    unfold Json.mapItems
    rw [ih, List.map_cons]

/-- A member with its numbers replaced. -/
def Json.mapMember (f : Number → Number) (p : String × Json) : String × Json :=
  (p.1, Json.mapNumbers f p.2)

/-- Members are replaced one by one. -/
theorem Json.mapMembers_eq (f : Number → Number) (members : List (String × Json)) :
    Json.mapMembers f members = members.map (Json.mapMember f) := by
  induction members with
  | nil => rfl
  | cons p members ih =>
    obtain ⟨key, value⟩ := p
    unfold Json.mapMembers
    rw [ih, List.map_cons]
    rfl

namespace Jcs

open JsonScan (NoWs Ends)
open JsonText (Ws Str Value Elements Members Text)

/-! ## Numbers -/

/-- Zero as a float. -/
theorem ofInt_zero : Binary64.ofInt 0 = ⟨0⟩ := by
  unfold Binary64.ofInt Binary64.nearest
  rw [Int.natAbs_zero, Nat.cast_zero, Floating.Format.round_zero]
  rfl

/-- The integer of the token of zero. -/
theorem integer_zeroToken : zeroToken.integer = 0 := by
  simp [zeroToken, Numeral.integer, Nat.ofDigitChars]

/-- Zero passes the number check. -/
theorem checked_zeroToken : zeroToken.Checked := by
  have htrunc : (⟨0⟩ : Binary64).truncate = 0 := by
    have hmagnitude : (⟨0⟩ : Binary64).magnitude = 0 := rfl
    unfold Binary64.truncate
    rw [hmagnitude, Floating.Format.value_zero]
    simp
  unfold Numeral.Checked
  rw [if_pos (show zeroToken.isIntegerToken = true from rfl), integer_zeroToken, ofInt_zero]
  refine ⟨by norm_num, rfl, ?_⟩
  unfold Binary64.toI128 Binary64.saturate
  rw [htrunc]
  norm_num

section Idempotent

variable {shortest : Binary64 → Decimal}

/-- The text of a number is that of its token. -/
theorem numberText_token (n : Number) :
    numberText (numberToString shortest) n = (n.token shortest).text := by
  unfold numberText Number.token numberToString
  split <;> rfl

/-- The token of a number is spelled as the grammar asks. -/
theorem wellFormed_numberToken (hshort : ShortestDigits shortest) {n : Number} (h : n.Parsed) :
    (n.token shortest).WellFormed := by
  unfold Number.token
  by_cases hzero : n.toF64.magnitude = 0
  · rw [if_pos hzero]
    exact ⟨Or.inl rfl, fun _ hd => (nomatch hd), fun _ he => (nomatch he)⟩
  · rw [if_neg hzero]
    exact Decimal.wellFormed_token _ (hshort _ h.isFinite hzero).pos

/-- The token of a number passes the check where the number prints as itself. -/
theorem checked_numberToken_iff (hshort : ShortestDigits shortest) {n : Number} (h : n.Parsed) :
    (n.token shortest).Checked ↔ PrintsItself shortest n := by
  unfold Number.token PrintsItself
  by_cases hzero : n.toF64.magnitude = 0
  · rw [if_pos hzero]
    constructor
    · intro _ hne
      exact absurd hzero hne
    · intro _
      exact checked_zeroToken
  · rw [if_neg hzero, checked_token_iff hshort h.isFinite hzero]
    constructor
    · intro hplain _
      exact hplain
    · intro hplain
      exact hplain hzero

/-- A number that is read again prints as before. -/
theorem numberText_reread (hshort : ShortestDigits shortest) {n : Number} (h : n.Parsed) :
    numberText (numberToString shortest) (n.token shortest).number
      = numberText (numberToString shortest) n := by
  by_cases hzero : n.toF64.magnitude = 0
  · have htoken : n.token shortest = zeroToken := if_pos hzero
    have hnumber : zeroToken.number = .int 0 := by
      unfold Numeral.number
      rw [integer_zeroToken, if_pos ⟨rfl, by norm_num⟩]
    have hagain : (Number.int 0).toF64.magnitude = 0 := by
      show (Binary64.ofInt 0).magnitude = 0
      rw [ofInt_zero]
      rfl
    rw [htoken, hnumber]
    unfold numberText
    rw [if_pos hzero, if_pos hagain]
  · have htoken : n.token shortest = (shortest n.toF64).token n.toF64.isNegative := if_neg hzero
    have hback : (n.token shortest).parseF64 = n.toF64 := by
      rw [htoken]
      exact parseF64_token hshort h.isFinite hzero
    have hsame : (n.token shortest).number.toF64 = n.toF64 := by
      unfold Numeral.number
      split
      · next hint =>
        have hne : (n.token shortest).integer ≠ 0 := by
          intro hinteger
          -- an integer token of zero would read back as zero
          have hmagnitude : (n.token shortest).magnitude = 0 := by
            rw [Numeral.magnitude_of_isIntegerToken hint.1, hinteger]
            rfl
          apply hzero
          rw [← hback]
          unfold Numeral.parseF64 Binary64.nearest
          rw [hmagnitude, Floating.Format.round_zero]
          cases (n.token shortest).negative <;> rfl
        show Binary64.ofInt (n.token shortest).integer = n.toF64
        rw [← Numeral.parseF64_of_isIntegerToken hint.1 hne, hback]
      · exact hback
    unfold numberText
    rw [hsame]

/-! ## A text is derived -/

/-- Elements between commas are derived. -/
theorem elements_commas {α : Type} {f : α → List Char} {g : α → Json} {item : α} {items : List α}
    (h : ∀ v ∈ item :: items, ∀ r, Value (f v ++ r) (g v) r) (r : List Char) :
    Elements (commas ((item :: items).map f) ++ ']' :: r) ((item :: items).map g) r := by
  induction items generalizing item with
  | nil => exact Elements.last Ws.nil (h item List.mem_cons_self _) Ws.nil
  | cons next items ih =>
    have htail := ih fun v hv => h v (List.mem_cons_of_mem _ hv)
    have hvalue := h item List.mem_cons_self (',' :: (commas ((next :: items).map f) ++ ']' :: r))
    have htext : commas ((item :: next :: items).map f) ++ ']' :: r
        = f item ++ ',' :: (commas ((next :: items).map f) ++ ']' :: r) := by
      show (f item ++ ',' :: commas ((next :: items).map f)) ++ ']' :: r = _
      rw [List.append_assoc]
      rfl
    rw [htext]
    exact Elements.cons Ws.nil hvalue Ws.nil htail

/-- Members between commas are derived. -/
theorem members_commas {α : Type} {f : α → List Char} {g : α → Json} {p : String × α}
    {members : List (String × α)} (h : ∀ q ∈ p :: members, ∀ r, Value (f q.2 ++ r) (g q.2) r)
    (r : List Char) :
    Members (commas ((p :: members).map fun q => memberText q.1 (f q.2)) ++ '}' :: r)
      ((p :: members).map fun q => (q.1, g q.2)) r := by
  have piece : ∀ (q : String × α) (s : List Char),
      memberText q.1 (f q.2) ++ s = stringText q.1 ++ ':' :: (f q.2 ++ s) := by
    intro q s
    unfold memberText
    rw [List.append_assoc]
    rfl
  induction members generalizing p with
  | nil =>
    show Members (memberText p.1 (f p.2) ++ '}' :: r) [(p.1, g p.2)] r
    rw [piece]
    exact Members.last Ws.nil (str_stringText p.1 _) Ws.nil Ws.nil
      (h p List.mem_cons_self _) Ws.nil
  | cons next members ih =>
    have htail := ih fun q hq => h q (List.mem_cons_of_mem _ hq)
    have htext : commas ((p :: next :: members).map fun q => memberText q.1 (f q.2)) ++ '}' :: r
        = memberText p.1 (f p.2) ++ ',' ::
          (commas ((next :: members).map fun q => memberText q.1 (f q.2)) ++ '}' :: r) := by
      show (memberText p.1 (f p.2) ++ ',' :: commas _) ++ '}' :: r = _
      rw [List.append_assoc]
      rfl
    rw [htext, piece]
    exact Members.cons Ws.nil (str_stringText p.1 _) Ws.nil Ws.nil
      (h p List.mem_cons_self _) Ws.nil htail

/-- A value as it is read again. -/
def reread (shortest : Binary64 → Decimal) (v : Json) : Json :=
  v.mapNumbers fun n => (n.token shortest).number

/-- **A text whose numbers print themselves is derived**, with its numbers read again. -/
theorem value_text (hshort : ShortestDigits shortest) {v : Json} (hv : v.Parsed)
    (h : v.AllNumbers (PrintsItself shortest)) (r : List Char) :
    Value (text (numberToString shortest) v ++ r) (reread shortest v) r := by
  induction v using Json.ind generalizing r with
  | hnull => exact Value.null
  | hbool b =>
    cases b with
    | true => exact Value.true
    | false => exact Value.false
  | hstr s => exact Value.str (str_stringText s r)
  | hnum n =>
    cases hv with
    | num hn =>
      cases h with
      | num h =>
        show Value (numberText (numberToString shortest) n ++ r) (.num (n.token shortest).number) r
        rw [numberText_token]
        exact Value.num (wellFormed_numberToken hshort hn)
          ((checked_numberToken_iff hshort hn).mpr h)
  | harr items ih =>
    cases hv with
    | arr hv =>
      cases h with
      | arr h =>
        unfold reread Json.mapNumbers
        rw [text_arr, Json.mapItems_eq, List.cons_append, List.append_assoc]
        cases items with
        | nil => exact Value.emptyArr Ws.nil
        | cons item items =>
          exact Value.arr (elements_commas (fun v hmem r => ih v hmem (hv v hmem) (h v hmem) r) r)
  | hobj members ih =>
    cases hv with
    | obj hsorted hv =>
      cases h with
      | obj h =>
        unfold reread Json.mapNumbers
        rw [text_obj, Json.mapMembers_eq, List.cons_append, List.append_assoc]
        -- the text lists the members sorted, which are the same members
        cases hsort : sortMembers members with
        | nil =>
          have hnil : members = [] := by
            have hperm := sortMembers_perm members
            rw [hsort] at hperm
            exact hperm.symm.eq_nil
          rw [hnil]
          exact Value.emptyObj Ws.nil
        | cons p rest =>
          have hperm : (p :: rest).Perm members := hsort ▸ sortMembers_perm members
          have hmembers := @members_commas Json (text (numberToString shortest)) (reread shortest) p rest
            (fun q hmem r =>
              ih q (hperm.subset hmem) (hv q (hperm.subset hmem)) (h q (hperm.subset hmem)) r) r
          have hnames : ((p :: rest).map fun q => (q.1, reread shortest q.2)).map Prod.fst
              = (p :: rest).map Prod.fst := by
            rw [List.map_map]
            rfl
          apply Value.obj hmembers
          · rw [hnames]
            exact ((hperm.map Prod.fst).nodup_iff).mpr (Json.nodup_of_sorted hsorted)
          · exact (hperm.map (fun q => (q.1, reread shortest q.2))).symm
          · exact List.Pairwise.map _ (fun _ _ hab => hab) hsorted

/-- A value that is read again has the same text. -/
theorem text_reread (hshort : ShortestDigits shortest) {v : Json} (hv : v.Parsed) :
    text (numberToString shortest) (reread shortest v) = text (numberToString shortest) v := by
  induction v using Json.ind with
  | hnull => rfl
  | hbool b => rfl
  | hstr s => rfl
  | hnum n =>
    cases hv with
    | num hn => exact numberText_reread hshort hn
  | harr items ih =>
    cases hv with
    | arr hv =>
      unfold reread Json.mapNumbers
      rw [text_arr, text_arr, Json.mapItems_eq, List.map_map]
      congr 3
      exact List.map_congr_left fun v hmem => ih v hmem (hv v hmem)
  | hobj members ih =>
    cases hv with
    | obj _ hv =>
      unfold reread Json.mapNumbers
      rw [text_obj, text_obj, Json.mapMembers_eq,
        sortMembers_map (f := Json.mapMember _) fun _ => rfl, List.map_map]
      congr 3
      apply List.map_congr_left
      intro p hp
      have hmem : p ∈ members := (sortMembers_perm members).subset hp
      show memberText p.1 (text _ (reread shortest p.2)) = memberText p.1 (text _ p.2)
      rw [ih p hmem (hv p hmem)]

/-! ## A text that is derived prints its numbers as themselves -/

/-- The grammar derives one value from a text whose ends are known. -/
theorem value_unique {cs r r' : List Char} {v w : Json} (hv : Value cs v r) (hw : Value cs w r')
    (hr : Ends r) (hr' : Ends r') : v = w ∧ r = r' := by
  obtain ⟨c, cs', hcs, hc, _⟩ := JsonScan.head_of_value hv
  have hskip : JsonScan.skipWs cs = cs := by
    apply JsonScan.skipWs_of_noWs
    intro d hd
    rw [hcs] at hd
    rwa [← show c = d by simpa using hd]
  have hread := (JsonScan.completes (cs.length + 1)).1
  have hone := (hread cs v r (by omega) hv).2 _ cs le_rfl hskip hr
  have htwo := (hread cs w r' (by omega) hw).2 _ cs le_rfl hskip hr'
  rw [hone] at htwo
  simpa using htwo

/-- No whitespace is before a text. -/
theorem eq_of_ws {cs cs' : List Char} (hws : Ws cs cs') (h : NoWs cs) : cs' = cs := by
  cases hws with
  | nil => rfl
  | @cons c _ _ hc _ =>
    have := h c rfl
    rw [hc] at this
    cases this

/-- No text starts with whitespace. -/
theorem noWs_of_head {cs : List Char} {c : Char} (h : cs.head? = some c) (hc : isWsChar c = false) :
    NoWs cs := by
  intro d hd
  rw [h] at hd
  rwa [← Option.some.inj hd]

/-- A text does not start with whitespace, whatever follows it. -/
theorem noWs_text (hshort : ShortestDigits shortest) {v : Json} (hv : v.Parsed) (r : List Char) :
    NoWs (text (numberToString shortest) v ++ r) := by
  obtain ⟨c, cs, hc, hkind, _⟩ := head_text (printsNumbers_numberToString hshort) hv
  have hkind' : startKind c = kindOf v := hkind
  apply noWs_of_head (c := c)
  · rw [hc]
    rfl
  · cases hv with
    | @num n hn =>
      have htext : numberText (numberToString shortest) n = c :: cs := hc
      rw [numberText_token] at htext
      obtain ⟨d, ds, hd, hstart⟩ := JsonScan.head_of_token (wellFormed_numberToken hshort hn) []
      rw [List.append_nil, htext] at hd
      obtain ⟨rfl, _⟩ := List.cons.inj hd
      rcases hstart with rfl | hdigit
      · rfl
      · by_contra hws
        have hws' : isWsChar c = true := by simpa using hws
        have hcases : ((c = ' ' ∨ c = '\t') ∨ c = '\n') ∨ c = '\r' := by
          simpa [isWsChar] using hws'
        rcases hcases with ((rfl | rfl) | rfl) | rfl <;> cases hdigit
    | null =>
      obtain ⟨rfl, _⟩ := List.cons.inj hc
      rfl
    | bool b =>
      cases b with
      | true =>
        obtain ⟨rfl, _⟩ := List.cons.inj hc
        rfl
      | false =>
        obtain ⟨rfl, _⟩ := List.cons.inj hc
        rfl
    | str s =>
      obtain ⟨rfl, _⟩ := List.cons.inj hc
      rfl
    | arr _ =>
      rw [text_arr] at hc
      obtain ⟨rfl, _⟩ := List.cons.inj hc
      rfl
    | obj _ _ =>
      rw [text_obj] at hc
      obtain ⟨rfl, _⟩ := List.cons.inj hc
      rfl

/-- A derived number token passes the number check. -/
theorem checked_of_value {token : Numeral} (hform : token.WellFormed) {r r' : List Char} {w : Json}
    (hr : Ends r) (hr' : Ends r') (h : Value (token.text ++ r) w r') : token.Checked := by
  obtain ⟨c, cs', heq, hc⟩ := JsonScan.head_of_token hform r
  have key : ∀ (a : Char) (as : List Char), a ≠ '-' → isDigitChar a = false →
      token.text ++ r ≠ a :: as := by
    intro a as hminus hdigit htext
    rw [heq] at htext
    obtain ⟨rfl, _⟩ := List.cons.inj htext
    rcases hc with rfl | hd
    · exact hminus rfl
    · rw [hd] at hdigit
      cases hdigit
  generalize hcs : token.text ++ r = cs at h
  cases h with
  | null => exact absurd hcs (key 'n' _ (by decide) (by decide))
  | «true» => exact absurd hcs (key 't' _ (by decide) (by decide))
  | «false» => exact absurd hcs (key 'f' _ (by decide) (by decide))
  | str h =>
    cases h with
    | quoted _ => exact absurd hcs (key '"' _ (by decide) (by decide))
  | @num token' _ hform' hcheck =>
    -- both tokens are read whole, so they are one
    have hscan := JsonScan.scanToken_complete hform hr
    rw [hcs, JsonScan.scanToken_complete hform' hr'] at hscan
    obtain ⟨rfl, _⟩ : token' = token ∧ r' = r := by simpa using hscan
    exact hcheck
  | emptyArr _ => exact absurd hcs (key '[' _ (by decide) (by decide))
  | arr _ => exact absurd hcs (key '[' _ (by decide) (by decide))
  | emptyObj _ => exact absurd hcs (key '{' _ (by decide) (by decide))
  | obj _ _ _ _ => exact absurd hcs (key '{' _ (by decide) (by decide))

/-- What follows a value that is derived, between its text and a delimiter. -/
theorem rest_of_value (hshort : ShortestDigits shortest) {v w : Json} (hv : v.Parsed)
    {cs cs₁ r r' : List Char} (hcs : cs = text (numberToString shortest) v ++ r) (hr : Ends r)
    (hr' : Ends r') (hws : Ws cs cs₁) (hvalue : Value cs₁ w r')
    (ih : ∀ (r : List Char) (w : Json) (r' : List Char), Ends r → Ends r' →
      Value (text (numberToString shortest) v ++ r) w r' →
      v.AllNumbers (PrintsItself shortest)) :
    v.AllNumbers (PrintsItself shortest) ∧ r' = r := by
  have hsame : cs₁ = cs := eq_of_ws hws (hcs ▸ noWs_text hshort hv r)
  rw [hsame, hcs] at hvalue
  have hall := ih r w r' hr hr' hvalue
  exact ⟨hall, (value_unique hvalue (value_text hshort hv hall r) hr' hr).2⟩

/-- A comma, or a closing character, after the first of some pieces. -/
theorem commas_cons {α : Type} (f : α → List Char) (a : α) (as : List α) (z : Char)
    (r : List Char) :
    ∃ s, commas ((a :: as).map f) ++ z :: r = f a ++ s ∧
      ((as = [] ∧ s = z :: r) ∨ s = ',' :: (commas (as.map f) ++ z :: r)) := by
  cases as with
  | nil => exact ⟨z :: r, rfl, Or.inl ⟨rfl, rfl⟩⟩
  | cons b as =>
    refine ⟨_, ?_, Or.inr rfl⟩
    show (f a ++ ',' :: commas ((b :: as).map f)) ++ z :: r = _
    rw [List.append_assoc]
    rfl

/-- The elements of a derived array print their numbers as themselves. -/
theorem printsItself_of_elements (hshort : ShortestDigits shortest) {items : List Json}
    (hitems : ∀ v ∈ items, v.Parsed)
    (ih : ∀ v ∈ items, ∀ (r : List Char) (w : Json) (r' : List Char), Ends r → Ends r' →
      Value (text (numberToString shortest) v ++ r) w r' → v.AllNumbers (PrintsItself shortest))
    {ws : List Json} {r r' : List Char}
    (h : Elements (commas (items.map (text (numberToString shortest))) ++ ']' :: r) ws r') :
    ∀ v ∈ items, v.AllNumbers (PrintsItself shortest) := by
  induction items generalizing ws with
  | nil =>
    intro v hv
    cases hv
  | cons item items ihs =>
    obtain ⟨s, hs, hcase⟩ := commas_cons (text (numberToString shortest)) item items ']' r
    have hends : Ends s := by
      rcases hcase with ⟨_, rfl⟩ | rfl
      · exact JsonScan.ends_of_ws Ws.nil (Or.inr (Or.inl rfl))
      · exact JsonScan.ends_of_ws Ws.nil (Or.inl rfl)
    generalize hcs : commas ((item :: items).map (text (numberToString shortest))) ++ ']' :: r
      = cs at h
    have hcs' : cs = text (numberToString shortest) item ++ s := hcs.symm.trans hs
    have hparsed := hitems item List.mem_cons_self
    have hfirst := ih item List.mem_cons_self
    cases h with
    | last hws hv hclose =>
      obtain ⟨hall, hrest⟩ := rest_of_value hshort hparsed hcs' hends
        (JsonScan.ends_of_ws hclose (Or.inr (Or.inl rfl))) hws hv hfirst
      rw [hrest] at hclose
      rcases hcase with ⟨rfl, _⟩ | rfl
      · intro v hv
        rwa [List.mem_singleton.mp hv]
      · -- a comma closes no array
        have hcomma := eq_of_ws hclose (noWs_of_head (c := ',') rfl rfl)
        cases hcomma
    | cons hws hv hcomma hrest =>
      obtain ⟨hall, hs'⟩ := rest_of_value hshort hparsed hcs' hends
        (JsonScan.ends_of_ws hcomma (Or.inl rfl)) hws hv hfirst
      rw [hs'] at hcomma
      rcases hcase with ⟨_, rfl⟩ | rfl
      · have hclose := eq_of_ws hcomma (noWs_of_head (c := ']') rfl rfl)
        cases hclose
      · have heq := eq_of_ws hcomma (noWs_of_head (c := ',') rfl rfl)
        rw [(List.cons.inj heq).2] at hrest
        have htail := ihs (fun v hv => hitems v (List.mem_cons_of_mem _ hv))
          (fun v hv => ih v (List.mem_cons_of_mem _ hv)) hrest
        intro v hv
        rcases List.mem_cons.mp hv with rfl | hv
        · exact hall
        · exact htail v hv

/-- The text of a member starts with its name. -/
theorem value_of_member (hshort : ShortestDigits shortest) {p : String × Json} (hp : p.2.Parsed)
    {cs cs₁ cs₂ cs₃ cs₄ r r' : List Char} {key : String} {w : Json}
    (hcs : cs = (memberPiece (numberToString shortest) p).2 ++ r) (hr : Ends r) (hr' : Ends r')
    (hws : Ws cs cs₁) (hkey : Str cs₁ key cs₂) (hcolon : Ws cs₂ (':' :: cs₃)) (hws' : Ws cs₃ cs₄)
    (hvalue : Value cs₄ w r')
    (ih : ∀ (r : List Char) (w : Json) (r' : List Char), Ends r → Ends r' →
      Value (text (numberToString shortest) p.2 ++ r) w r' →
      p.2.AllNumbers (PrintsItself shortest)) :
    p.2.AllNumbers (PrintsItself shortest) ∧ r' = r := by
  have hpiece : cs = stringText p.1 ++ ':' :: (text (numberToString shortest) p.2 ++ r) := by
    rw [hcs]
    unfold memberPiece memberText
    rw [List.append_assoc]
    rfl
  have hsame : cs₁ = cs := by
    apply eq_of_ws hws
    rw [hpiece]
    exact noWs_of_head (c := '"') rfl rfl
  -- the name is read whole, and the colon stands right behind it
  have hscan := JsonScan.scanString_complete hkey
  rw [hsame, hpiece, JsonScan.scanString_complete (str_stringText p.1 _)] at hscan
  obtain ⟨_, rfl⟩ : p.1 = key ∧ ':' :: (text (numberToString shortest) p.2 ++ r) = cs₂ := by
    simpa using hscan
  have hafter := eq_of_ws hcolon (noWs_of_head (c := ':') rfl rfl)
  exact rest_of_value hshort hp (List.cons.inj hafter).2 hr hr' hws' hvalue ih

/-- The members of a derived object print their numbers as themselves. -/
theorem printsItself_of_members (hshort : ShortestDigits shortest)
    {members : List (String × Json)} (hmembers : ∀ p ∈ members, p.2.Parsed)
    (ih : ∀ p ∈ members, ∀ (r : List Char) (w : Json) (r' : List Char), Ends r → Ends r' →
      Value (text (numberToString shortest) p.2 ++ r) w r' →
      p.2.AllNumbers (PrintsItself shortest))
    {ws : List (String × Json)} {r r' : List Char}
    (h : Members (commas (members.map fun p => (memberPiece (numberToString shortest) p).2)
      ++ '}' :: r) ws r') :
    ∀ p ∈ members, p.2.AllNumbers (PrintsItself shortest) := by
  induction members generalizing ws with
  | nil =>
    intro p hp
    cases hp
  | cons p members ihs =>
    obtain ⟨s, hs, hcase⟩ :=
      commas_cons (fun p => (memberPiece (numberToString shortest) p).2) p members '}' r
    have hends : Ends s := by
      rcases hcase with ⟨_, rfl⟩ | rfl
      · exact JsonScan.ends_of_ws Ws.nil (Or.inr (Or.inr rfl))
      · exact JsonScan.ends_of_ws Ws.nil (Or.inl rfl)
    generalize hcs : commas ((p :: members).map fun p =>
      (memberPiece (numberToString shortest) p).2) ++ '}' :: r = cs at h
    have hcs' : cs = (memberPiece (numberToString shortest) p).2 ++ s := hcs.symm.trans hs
    have hparsed := hmembers p List.mem_cons_self
    have hfirst := ih p List.mem_cons_self
    cases h with
    | last hws hkey hcolon hws' hv hclose =>
      obtain ⟨hall, hrest⟩ := value_of_member hshort hparsed hcs' hends
        (JsonScan.ends_of_ws hclose (Or.inr (Or.inr rfl))) hws hkey hcolon hws' hv hfirst
      rw [hrest] at hclose
      rcases hcase with ⟨rfl, _⟩ | rfl
      · intro q hq
        rwa [List.mem_singleton.mp hq]
      · have hcomma := eq_of_ws hclose (noWs_of_head (c := ',') rfl rfl)
        cases hcomma
    | cons hws hkey hcolon hws' hv hcomma hrest =>
      obtain ⟨hall, hs'⟩ := value_of_member hshort hparsed hcs' hends
        (JsonScan.ends_of_ws hcomma (Or.inl rfl)) hws hkey hcolon hws' hv hfirst
      rw [hs'] at hcomma
      rcases hcase with ⟨_, rfl⟩ | rfl
      · have hclose := eq_of_ws hcomma (noWs_of_head (c := '}') rfl rfl)
        cases hclose
      · have heq := eq_of_ws hcomma (noWs_of_head (c := ',') rfl rfl)
        rw [(List.cons.inj heq).2] at hrest
        have htail := ihs (fun q hq => hmembers q (List.mem_cons_of_mem _ hq))
          (fun q hq => ih q (List.mem_cons_of_mem _ hq)) hrest
        intro q hq
        rcases List.mem_cons.mp hq with rfl | hq
        · exact hall
        · exact htail q hq

/-- A value behind a bracket is an array. -/
theorem array_of_value {cs r : List Char} {w : Json} (h : Value ('[' :: cs) w r) :
    Ws cs (']' :: r) ∨ ∃ ws, Elements cs ws r := by
  generalize hcs : '[' :: cs = all at h
  cases h with
  | null | «true» | «false» | emptyObj | obj => cases hcs
  | str h =>
    cases h
    cases hcs
  | num hform _ =>
    obtain ⟨c, _, heq, hc⟩ := JsonScan.head_of_token hform r
    rw [heq] at hcs
    obtain ⟨rfl, _⟩ := List.cons.inj hcs
    rcases hc with hc | hc <;> cases hc
  | emptyArr h => exact .inl ((List.cons.inj hcs).2 ▸ h)
  | arr h => exact .inr ⟨_, (List.cons.inj hcs).2 ▸ h⟩

/-- A value behind a brace is an object. -/
theorem object_of_value {cs r : List Char} {w : Json} (h : Value ('{' :: cs) w r) :
    Ws cs ('}' :: r) ∨ ∃ ws, Members cs ws r := by
  generalize hcs : '{' :: cs = all at h
  cases h with
  | null | «true» | «false» | emptyArr | arr => cases hcs
  | str h =>
    cases h
    cases hcs
  | num hform _ =>
    obtain ⟨c, _, heq, hc⟩ := JsonScan.head_of_token hform r
    rw [heq] at hcs
    obtain ⟨rfl, _⟩ := List.cons.inj hcs
    rcases hc with hc | hc <;> cases hc
  | emptyObj h => exact .inl ((List.cons.inj hcs).2 ▸ h)
  | obj h => exact .inr ⟨_, (List.cons.inj hcs).2 ▸ h⟩

/-- The text of a value does not close an array that is open. -/
theorem no_close_of_text (hshort : ShortestDigits shortest) {v : Json} (hv : v.Parsed)
    {s r : List Char} (h : Ws (text (numberToString shortest) v ++ s) (']' :: r)) : False := by
  obtain ⟨c, cs, hc, -, hne, -⟩ := head_text (printsNumbers_numberToString hshort) hv
  have heq := eq_of_ws h (noWs_text hshort hv s)
  rw [hc] at heq
  exact hne (List.cons.inj heq).1.symm

/-- The text of a derived array: its elements print their numbers as themselves. -/
theorem printsItself_of_array (hshort : ShortestDigits shortest) {items : List Json}
    (hitems : ∀ v ∈ items, v.Parsed)
    (ih : ∀ v ∈ items, ∀ (r : List Char) (w : Json) (r' : List Char), Ends r → Ends r' →
      Value (text (numberToString shortest) v ++ r) w r' → v.AllNumbers (PrintsItself shortest))
    {w : Json} {r r' : List Char}
    (h : Value ('[' :: (commas (items.map (text (numberToString shortest))) ++ ']' :: r)) w r') :
    ∀ v ∈ items, v.AllNumbers (PrintsItself shortest) := by
  rcases array_of_value h with hempty | ⟨ws, helements⟩
  · cases items with
    | nil =>
      intro v hv
      cases hv
    | cons item items =>
      obtain ⟨s, hs, -⟩ := commas_cons (text (numberToString shortest)) item items ']' r
      rw [hs] at hempty
      exact (no_close_of_text hshort (hitems item List.mem_cons_self) hempty).elim
  · exact printsItself_of_elements hshort hitems ih helements

/-- The text of a derived object: its members print their numbers as themselves. -/
theorem printsItself_of_object (hshort : ShortestDigits shortest)
    {members : List (String × Json)} (hmembers : ∀ p ∈ members, p.2.Parsed)
    (ih : ∀ p ∈ members, ∀ (r : List Char) (w : Json) (r' : List Char), Ends r → Ends r' →
      Value (text (numberToString shortest) p.2 ++ r) w r' →
      p.2.AllNumbers (PrintsItself shortest))
    {w : Json} {r r' : List Char}
    (h : Value ('{' :: (commas (members.map fun p =>
      (memberPiece (numberToString shortest) p).2) ++ '}' :: r)) w r') :
    ∀ p ∈ members, p.2.AllNumbers (PrintsItself shortest) := by
  rcases object_of_value h with hempty | ⟨ws, hderived⟩
  · cases members with
    | nil =>
      intro p hp
      cases hp
    | cons p members =>
      -- a member starts with the quote of its name, which closes no object
      obtain ⟨s, hs, -⟩ :=
        commas_cons (fun p => (memberPiece (numberToString shortest) p).2) p members '}' r
      rw [hs] at hempty
      have heq := eq_of_ws hempty (noWs_of_head (c := '"') rfl rfl)
      have hquote : '}' = '"' := (List.cons.inj heq).1
      exact absurd hquote (by decide)
  · exact printsItself_of_members hshort hmembers ih hderived

/-- **A derived text prints its numbers as themselves.** -/
theorem printsItself_of_value (hshort : ShortestDigits shortest) {v w : Json} (hv : v.Parsed)
    {r r' : List Char} (hr : Ends r) (hr' : Ends r')
    (h : Value (text (numberToString shortest) v ++ r) w r') :
    v.AllNumbers (PrintsItself shortest) := by
  induction v using Json.ind generalizing w r r' with
  | hnull => exact Json.AllNumbers.null
  | hbool b => exact Json.AllNumbers.bool b
  | hstr s => exact Json.AllNumbers.str s
  | hnum n =>
    cases hv with
    | num hn =>
      have h' : Value (numberText (numberToString shortest) n ++ r) w r' := h
      rw [numberText_token] at h'
      exact Json.AllNumbers.num ((checked_numberToken_iff hshort hn).mp
        (checked_of_value (wellFormed_numberToken hshort hn) hr hr' h'))
  | harr items ih =>
    cases hv with
    | arr hv =>
      rw [text_arr, List.cons_append, List.append_assoc] at h
      exact Json.AllNumbers.arr (printsItself_of_array hshort hv
        (fun v hmem r w r' hr hr' hvalue => ih v hmem (hv v hmem) hr hr' hvalue) h)
  | hobj members ih =>
    cases hv with
    | obj hsorted hv =>
      rw [text_obj, List.cons_append, List.append_assoc] at h
      -- the text has the members sorted, and they are the same members
      have hmem : ∀ p ∈ sortMembers members, p ∈ members :=
        fun p hp => (sortMembers_perm members).subset hp
      have hall := printsItself_of_object hshort (fun p hp => hv p (hmem p hp))
        (fun p hp r w r' hr hr' hvalue => ih p (hmem p hp) (hv p (hmem p hp)) hr hr' hvalue) h
      exact Json.AllNumbers.obj fun p hp => hall p ((sortMembers_perm members).symm.subset hp)

/-! ## The public entry -/

/-- The canonical bytes parse where the canonical text is derived. -/
theorem parseBytes_encode (cs : List Char) (w : Json) :
    parseBytes (Utf8.encode cs) = .ok w ↔ Text cs w := by
  have h := parseStrict_ok_iff (String.ofList cs) w
  unfold parseStrict at h
  rwa [asBytes_ofList, String.toList_ofList] at h

/-- Bytes that decode are canonicalized as their text is. -/
theorem canonicalizeBytes_encode (formatFinite : Binary64 → List Char) (cs : List Char) :
    canonicalizeBytes formatFinite (Utf8.encode cs)
      = canonicalizeJson formatFinite (String.ofList cs) := by
  unfold canonicalizeJson
  rw [asBytes_ofList]

/-- **The canonical bytes parse exactly where every number prints as itself.** -/
theorem reparses_iff (hshort : ShortestDigits shortest) {v : Json} (hv : v.Parsed) :
    (∃ w, parseBytes (Utf8.encode (text (numberToString shortest) v)) = .ok w) ↔
      v.AllNumbers (PrintsItself shortest) := by
  constructor
  · rintro ⟨w, hw⟩
    obtain ⟨cs₁, cs₂, hws, hvalue, hend⟩ := (parseBytes_encode _ w).mp hw
    have hnil := JsonScan.ends_of_ws_nil Ws.nil
    have hnows := noWs_text hshort hv []
    rw [List.append_nil] at hnows
    rw [eq_of_ws hws hnows, ← List.append_nil (text _ v)] at hvalue
    exact printsItself_of_value hshort hv hnil (JsonScan.ends_of_ws_nil hend) hvalue
  · intro hall
    have hvalue := value_text hshort hv hall []
    rw [List.append_nil] at hvalue
    exact ⟨_, (parseBytes_encode _ _).mpr ⟨_, _, Ws.nil, hvalue, Ws.nil⟩⟩

/-- Where every number prints as itself, the canonical bytes canonicalize to themselves. -/
theorem canonicalizeBytes_text (hshort : ShortestDigits shortest) {v : Json} (hv : v.Parsed)
    (hall : v.AllNumbers (PrintsItself shortest)) :
    canonicalizeBytes (numberToString shortest)
        (Utf8.encode (text (numberToString shortest) v))
      = .ok (Utf8.encode (text (numberToString shortest) v)) := by
  have hvalue := value_text hshort hv hall []
  rw [List.append_nil] at hvalue
  have hparse : parseStrict (String.ofList (text (numberToString shortest) v))
      = .ok (reread shortest v) := by
    rw [parseStrict_ok_iff, String.toList_ofList]
    exact ⟨_, _, Ws.nil, hvalue, Ws.nil⟩
  rw [canonicalizeBytes_encode, canonicalizeJson_eq _ hparse, text_reread hshort hv]

end Idempotent

end Jcs

end Waitprims
