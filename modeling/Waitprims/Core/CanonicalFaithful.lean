import Mathlib
import Waitprims.Core.CanonicalText

/-! # The canonical form is faithful

Two parsed values have one canonical text exactly where they are equal up to the order of members
and the spelling of numbers. One direction is the order independence of the sort; the other reads a
text back: strings and number tokens end where the grammar says, so a text with something behind it
tells where its value ends.

* **`Json.Same`** — equality up to member order, numbers as binary64 values.
* **`Jcs.text_eq_of_same`**, **`Jcs.same_of_text`** — the two directions over texts.
* **`Jcs.text_eq_iff`** — together, over the bytes. -/

namespace Waitprims

/-! ## Equality of values -/

/-- Equality up to the order of members, with numbers compared as binary64 values. -/
inductive Json.Same : Json → Json → Prop
  | null : Same .null .null
  | bool (b : Bool) : Same (.bool b) (.bool b)
  | str (s : String) : Same (.str s) (.str s)
  | num {m n : Number} (h : m.toF64.value = n.toF64.value) : Same (.num m) (.num n)
  | arr {as bs : List Json} (hlen : as.length = bs.length) (h : ∀ p ∈ as.zip bs, Same p.1 p.2) :
    Same (.arr as) (.arr bs)
  | obj {as bs : List (String × Json)} (hnames : (as.map Prod.fst).Perm (bs.map Prod.fst))
    (h : ∀ key a b, (key, a) ∈ as → (key, b) ∈ bs → Same a b) : Same (.obj as) (.obj bs)

namespace Binary64

/-- The bits of a value are its sign and its magnitude. -/
theorem ext_magnitude {x y : Binary64} (hsign : x.isNegative = y.isNegative)
    (hmagnitude : x.magnitude = y.magnitude) : x = y := by
  obtain ⟨x⟩ := x
  obtain ⟨y⟩ := y
  congr 1
  apply BitVec.eq_of_toNat_eq
  unfold isNegative at hsign
  unfold magnitude at hmagnitude
  dsimp only at hsign hmagnitude
  have hx := BitVec.msb_eq_decide x
  have hy := BitVec.msb_eq_decide y
  rw [hx, hy] at hsign
  have hiff : 2 ^ 63 ≤ x.toNat ↔ 2 ^ 63 ≤ y.toNat := by simpa using hsign
  have hltx := x.isLt
  have hlty := y.isLt
  omega

/-- Values that are equal numbers are the same bits, or both zero. -/
theorem eq_or_zero_of_value_eq {x y : Binary64} (h : x.value = y.value) :
    x = y ∨ x.magnitude = 0 ∧ y.magnitude = 0 := by
  have hx := format.value_nonneg x.magnitude
  have hy := format.value_nonneg y.magnitude
  have zero_of : ∀ n, format.value n = 0 → n = 0 := by
    intro n hn
    apply format.value_injective
    rw [hn, Floating.Format.value_zero]
  unfold value at h
  by_cases hsx : x.isNegative = true
  · by_cases hsy : y.isNegative = true
    · rw [if_pos hsx, if_pos hsy] at h
      left
      exact ext_magnitude (hsx.trans hsy.symm) (format.value_injective (by linarith))
    · rw [if_pos hsx, if_neg hsy] at h
      right
      exact ⟨zero_of _ (by linarith), zero_of _ (by linarith)⟩
  · by_cases hsy : y.isNegative = true
    · rw [if_neg hsx, if_pos hsy] at h
      right
      exact ⟨zero_of _ (by linarith), zero_of _ (by linarith)⟩
    · rw [if_neg hsx, if_neg hsy] at h
      left
      have hsign : x.isNegative = y.isNegative := by
        rw [Bool.eq_false_of_not_eq_true hsx, Bool.eq_false_of_not_eq_true hsy]
      exact ext_magnitude hsign (format.value_injective h)

/-- A zero is the number zero. -/
theorem value_of_magnitude_zero {x : Binary64} (h : x.magnitude = 0) : x.value = 0 := by
  unfold value
  rw [h]
  simp

end Binary64

namespace Jcs

open JsonScan (NoDigit Ends)
open JsonText (Chars Str Hex4 hexValue)

/-! ## The text of a string is read back -/

/-- Four hexadecimal digits below a space. -/
theorem hex4Text_lt : ∀ n < 0x20,
    hex4Text n = ['0', '0', Nat.digitChar (n / 16), Nat.digitChar (n % 16)] ∧
      hexValue (Nat.digitChar (n / 16)) = some (n / 16) ∧
      hexValue (Nat.digitChar (n % 16)) = some (n % 16) := by
  decide

/-- The text of a character continues a string by the character. -/
theorem chars_escapeText (c : Char) {cs out rest : List Char} (h : Chars cs out rest) :
    Chars (escapeText c ++ cs) (c :: out) rest := by
  unfold escapeText
  split
  · next hc =>
    subst hc
    exact Chars.escape (by decide) h
  · split
    · next hc =>
      subst hc
      exact Chars.escape (by decide) h
    · split
      · next hc =>
        subst hc
        exact Chars.escape (by decide) h
      · split
        · next hc =>
          subst hc
          exact Chars.escape (by decide) h
        · split
          · next hc =>
            subst hc
            exact Chars.escape (by decide) h
          · split
            · next hc =>
              subst hc
              exact Chars.escape (by decide) h
            · split
              · next hc =>
                subst hc
                exact Chars.escape (by decide) h
              · split
                · -- any other control character is written by its code
                  next hcontrol =>
                  obtain ⟨htext, hhigh, hlow⟩ := hex4Text_lt c.toNat hcontrol
                  have hhex : Hex4 (hex4Text c.toNat ++ cs) c.toNat cs := by
                    have hzero : hexValue '0' = some 0 := by decide
                    have hmk : Hex4 ('0' :: '0' :: Nat.digitChar (c.toNat / 16) ::
                        Nat.digitChar (c.toNat % 16) :: cs)
                        (((0 * 16 + 0) * 16 + c.toNat / 16) * 16 + c.toNat % 16) cs :=
                      Hex4.mk hzero hzero hhigh hlow
                    rw [show ((0 * 16 + 0) * 16 + c.toNat / 16) * 16 + c.toNat % 16 = c.toNat by
                      omega] at hmk
                    rw [htext]
                    exact hmk
                  have hchar : Char.ofNatAux c.toNat c.valid = c := Char.toNat_inj.mp rfl
                  have hunicode : Chars ('\\' :: 'u' :: (hex4Text c.toNat ++ cs))
                      (Char.ofNatAux c.toNat c.valid :: out) rest := Chars.unicode hhex h
                  rw [hchar] at hunicode
                  exact hunicode
                · next hquote hslash _ _ _ _ _ hcontrol =>
                  exact Chars.plain hquote hslash (by omega) h

/-- The text of a string denotes the string. -/
theorem str_stringText (s : String) (rest : List Char) : Str (stringText s ++ rest) s rest := by
  have hchars : ∀ cs : List Char, Chars (cs.flatMap escapeText ++ '"' :: rest) cs rest := by
    intro cs
    induction cs with
    | nil => exact Chars.close
    | cons c cs ih =>
      rw [List.flatMap_cons, List.append_assoc]
      exact chars_escapeText c ih
  have hstr := Str.quoted (hchars s.toList)
  rw [String.ofList_toList] at hstr
  unfold stringText
  rw [List.cons_append, List.append_assoc]
  exact hstr

/-- The text of a string tells the string and where it ends. -/
theorem stringText_inj {s t : String} {r r' : List Char}
    (h : stringText s ++ r = stringText t ++ r') : s = t ∧ r = r' := by
  have hs := JsonScan.scanString_complete (str_stringText s r)
  have ht := JsonScan.scanString_complete (str_stringText t r')
  rw [h, ht] at hs
  simpa [eq_comm] using hs

/-! ## Sorted members -/

/-- The code units of a character tell the character and where they end. -/
theorem utf16Units_inj {c d : Char} {r r' : List ℕ} (h : utf16Units c ++ r = utf16Units d ++ r') :
    c = d ∧ r = r' := by
  have hc : c.toNat < 0xd800 ∨ 0xdfff < c.toNat ∧ c.toNat < 0x110000 := c.valid
  have hd : d.toNat < 0xd800 ∨ 0xdfff < d.toNat ∧ d.toNat < 0x110000 := d.valid
  unfold utf16Units at h
  split at h
  · split at h
    · simp only [List.cons_append, List.nil_append, List.cons.injEq] at h
      exact ⟨Char.toNat_inj.mp h.1, h.2⟩
    · simp only [List.cons_append, List.nil_append, List.cons.injEq] at h
      omega
  · split at h
    · simp only [List.cons_append, List.nil_append, List.cons.injEq] at h
      omega
    · simp only [List.cons_append, List.nil_append, List.cons.injEq] at h
      refine ⟨Char.toNat_inj.mp ?_, h.2.2⟩
      omega

/-- Strings with the same code units are the same. -/
theorem encodeUtf16_injective {s t : String} (h : encodeUtf16 s = encodeUtf16 t) : s = t := by
  have hne : ∀ c, utf16Units c ≠ [] := by
    intro c hnil
    unfold utf16Units at hnil
    split at hnil <;> cases hnil
  have key : ∀ cs ds : List Char, cs.flatMap utf16Units = ds.flatMap utf16Units → cs = ds := by
    intro cs
    induction cs with
    | nil =>
      intro ds hds
      cases ds with
      | nil => rfl
      | cons d ds =>
        rw [List.flatMap_nil, List.flatMap_cons] at hds
        exact absurd (List.append_eq_nil_iff.mp hds.symm).1 (hne d)
    | cons c cs ih =>
      intro ds hds
      cases ds with
      | nil =>
        rw [List.flatMap_nil, List.flatMap_cons] at hds
        exact absurd (List.append_eq_nil_iff.mp hds).1 (hne c)
      | cons d ds =>
        rw [List.flatMap_cons, List.flatMap_cons] at hds
        obtain ⟨rfl, hrest⟩ := utf16Units_inj hds
        rw [ih ds hrest]
  exact String.toList_inj.mp (key s.toList t.toList h)

/-- The order of the sort is total. -/
theorem pairwise_sortMembers {α : Type} (members : List (String × α)) :
    (sortMembers members).Pairwise fun a b => encodeUtf16 a.1 ≤ encodeUtf16 b.1 := by
  have htotal : Std.Total fun a b : String × α => encodeUtf16 a.1 ≤ encodeUtf16 b.1 :=
    ⟨fun a b => le_total _ _⟩
  have htrans : IsTrans (String × α) fun a b => encodeUtf16 a.1 ≤ encodeUtf16 b.1 :=
    ⟨fun a b c hab hbc => le_trans hab hbc⟩
  exact List.pairwise_insertionSort _ members

/-- The sort loses and adds nothing. -/
theorem sortMembers_perm {α : Type} (members : List (String × α)) :
    (sortMembers members).Perm members := List.perm_insertionSort _ members

/-- Under distinct names the sort does not see the order. -/
theorem sortMembers_eq_of_perm {α : Type} {as bs : List (String × α)} (hperm : as.Perm bs)
    (hnodup : (as.map Prod.fst).Nodup) : sortMembers as = sortMembers bs := by
  have hsorted : (sortMembers as).Perm (sortMembers bs) :=
    (sortMembers_perm as).trans (hperm.trans (sortMembers_perm bs).symm)
  apply hsorted.eq_of_pairwise _ (pairwise_sortMembers as) (pairwise_sortMembers bs)
  intro a b ha hb hab hba
  have hname : a.1 = b.1 := encodeUtf16_injective (le_antisymm hab hba)
  have hmem : a ∈ as := (sortMembers_perm as).subset ha
  have hmem' : b ∈ as := hperm.symm.subset ((sortMembers_perm bs).subset hb)
  exact List.inj_on_of_nodup_map hnodup hmem hmem' hname

/-! ## Equal values have one text -/

section Faithful

variable {formatFinite : Binary64 → List Char}

/-- A member under a name that the names of a list hold. -/
theorem exists_member {α : Type} {key : String} {members : List (String × α)}
    (h : key ∈ members.map Prod.fst) : ∃ a, (key, a) ∈ members := by
  obtain ⟨p, hp, rfl⟩ := List.mem_map.mp h
  exact ⟨p.2, hp⟩

/-- Under distinct names a name has one member. -/
theorem member_unique {α : Type} {key : String} {a b : α} {members : List (String × α)}
    (hnodup : (members.map Prod.fst).Nodup) (ha : (key, a) ∈ members) (hb : (key, b) ∈ members) :
    a = b := by
  have heq : (key, a) = (key, b) := List.inj_on_of_nodup_map hnodup ha hb rfl
  exact (Prod.mk.inj heq).2

/-- Values that are the same have one text. -/
theorem text_eq_of_same {v w : Json} (hv : v.Parsed) (hw : w.Parsed) (h : v.Same w) :
    text formatFinite v = text formatFinite w := by
  induction v using Json.ind generalizing w with
  | hnull =>
    cases h
    rfl
  | hbool b =>
    cases h
    rfl
  | hstr s =>
    cases h
    rfl
  | hnum m =>
    cases h with
    | @num _ n h =>
      show numberText formatFinite m = numberText formatFinite n
      unfold numberText
      rcases Binary64.eq_or_zero_of_value_eq h with heq | ⟨hm, hn⟩
      · rw [heq]
      · rw [if_pos hm, if_pos hn]
  | harr as ih =>
    cases h with
    | @arr _ bs hlen h =>
      cases hv with
      | arr hv =>
        cases hw with
        | arr hw =>
          have hmap : as.map (text formatFinite) = bs.map (text formatFinite) := by
            apply List.ext_getElem (by simpa using hlen)
            intro i hi hi'
            rw [List.length_map] at hi hi'
            rw [List.getElem_map, List.getElem_map]
            have hzip : (as[i], bs[i]) ∈ as.zip bs := by
              rw [← List.getElem_zip (h := by rw [List.length_zip]; omega)]
              exact List.getElem_mem _
            exact ih _ (List.getElem_mem hi) (hv _ (List.getElem_mem hi))
              (hw _ (List.getElem_mem hi')) (h _ hzip)
          rw [text_arr, text_arr, hmap]
  | hobj as ih =>
    cases h with
    | @obj _ bs hnames h =>
      cases hv with
      | obj hsortedA hv =>
        cases hw with
        | obj hsortedB hw =>
          have hnodupA := Json.nodup_of_sorted hsortedA
          have hnodupB := Json.nodup_of_sorted hsortedB
          -- the pieces are the same set, so the sort ends with one list
          have htexts : ∀ key a b, (key, a) ∈ as → (key, b) ∈ bs →
              memberPiece formatFinite (key, a) = memberPiece formatFinite (key, b) := by
            intro key a b ha hb
            unfold memberPiece
            rw [ih (key, a) ha (hv _ ha) (hw _ hb) (h key a b ha hb)]
          have hpieces : ∀ ms : List (String × Json),
              (ms.map (memberPiece formatFinite)).map Prod.fst = ms.map Prod.fst := by
            intro ms
            rw [List.map_map]
            rfl
          have hperm : (as.map (memberPiece formatFinite)).Perm
              (bs.map (memberPiece formatFinite)) := by
            have hnodupA' : ((as.map (memberPiece formatFinite)).map Prod.fst).Nodup := by
              rwa [hpieces]
            have hnodupB' : ((bs.map (memberPiece formatFinite)).map Prod.fst).Nodup := by
              rwa [hpieces]
            rw [List.perm_ext_iff_of_nodup hnodupA'.of_map hnodupB'.of_map]
            intro piece
            constructor
            · intro hpiece
              obtain ⟨⟨key, a⟩, ha, rfl⟩ := List.mem_map.mp hpiece
              obtain ⟨b, hb⟩ :=
                exists_member (hnames.subset (List.mem_map_of_mem (f := Prod.fst) ha))
              rw [htexts key a b ha hb]
              exact List.mem_map_of_mem hb
            · intro hpiece
              obtain ⟨⟨key, b⟩, hb, rfl⟩ := List.mem_map.mp hpiece
              obtain ⟨a, ha⟩ :=
                exists_member (hnames.symm.subset (List.mem_map_of_mem (f := Prod.fst) hb))
              rw [← htexts key a b ha hb]
              exact List.mem_map_of_mem ha
          have hsort := sortMembers_eq_of_perm hperm (by rwa [hpieces])
          rw [@sortMembers_map _ _ (memberPiece formatFinite) fun _ => rfl,
            @sortMembers_map _ _ (memberPiece formatFinite) fun _ => rfl] at hsort
          rw [text_obj, text_obj]
          have hsnd := congrArg (List.map Prod.snd) hsort
          rw [List.map_map, List.map_map] at hsnd
          rw [show (fun p => (memberPiece formatFinite p).2) = Prod.snd ∘ memberPiece formatFinite
            from rfl, hsnd]

/-! ## One text is of equal values -/

/-- How the printing of floats behaves: number tokens, injective, and zero is printed by no other
value. -/
structure PrintsNumbers (formatFinite : Binary64 → List Char) : Prop where
  token : ∀ x : Binary64, x.isFinite = true → x.magnitude ≠ 0 →
    ∃ token : Numeral, token.WellFormed ∧ formatFinite x = token.text
  injective : ∀ x y : Binary64, x.isFinite = true → x.magnitude ≠ 0 → y.isFinite = true →
    y.magnitude ≠ 0 → formatFinite x = formatFinite y → x = y
  nonzero : ∀ x : Binary64, x.isFinite = true → x.magnitude ≠ 0 → formatFinite x ≠ ['0']

/-- What may follow a value inside a canonical text. -/
def Delimited (rest : List Char) : Prop :=
  rest = [] ∨ ∃ c cs, rest = c :: cs ∧ (c = ',' ∨ c = ']' ∨ c = '}')

/-- A delimiter continues no number token. -/
theorem Delimited.ends {rest : List Char} (h : Delimited rest) : Ends rest := by
  rcases h with rfl | ⟨c, cs, rfl, hc⟩
  · exact JsonScan.ends_of_ws_nil JsonText.Ws.nil
  · exact JsonScan.ends_of_ws JsonText.Ws.nil hc

/-- The text of a number is a token. -/
theorem token_numberText (hprints : PrintsNumbers formatFinite) {n : Number} (h : n.Parsed) :
    ∃ token : Numeral, token.WellFormed ∧ numberText formatFinite n = token.text := by
  unfold numberText
  by_cases hzero : n.toF64.magnitude = 0
  · rw [if_pos hzero]
    exact ⟨⟨false, ['0'], none, none⟩,
      ⟨Or.inl rfl, fun _ hd => (nomatch hd), fun _ he => (nomatch he)⟩, rfl⟩
  · rw [if_neg hzero]
    exact hprints.token _ h.isFinite hzero

/-- The text of a number tells its value and where it ends. -/
theorem numberText_inj (hprints : PrintsNumbers formatFinite) {m n : Number} (hm : m.Parsed)
    (hn : n.Parsed) {r r' : List Char} (hr : Ends r) (hr' : Ends r')
    (h : numberText formatFinite m ++ r = numberText formatFinite n ++ r') :
    m.toF64.value = n.toF64.value ∧ r = r' := by
  obtain ⟨s, hs, hms⟩ := token_numberText hprints hm
  obtain ⟨t, ht, hnt⟩ := token_numberText hprints hn
  have hscan := JsonScan.scanToken_complete hs hr
  rw [← hms, h, hnt, JsonScan.scanToken_complete ht hr'] at hscan
  obtain ⟨rfl, rfl⟩ : t = s ∧ r' = r := by simpa using hscan
  refine ⟨?_, rfl⟩
  have htexts : numberText formatFinite m = numberText formatFinite n := hms.trans hnt.symm
  unfold numberText at htexts
  by_cases hzm : m.toF64.magnitude = 0
  · by_cases hzn : n.toF64.magnitude = 0
    · rw [Binary64.value_of_magnitude_zero hzm, Binary64.value_of_magnitude_zero hzn]
    · rw [if_pos hzm, if_neg hzn] at htexts
      exact absurd htexts.symm (hprints.nonzero _ hn.isFinite hzn)
  · by_cases hzn : n.toF64.magnitude = 0
    · rw [if_neg hzm, if_pos hzn] at htexts
      exact absurd htexts (hprints.nonzero _ hm.isFinite hzm)
    · rw [if_neg hzm, if_neg hzn] at htexts
      rw [hprints.injective _ _ hm.isFinite hzm hn.isFinite hzn htexts]

/-- Pieces between commas are read back one by one: `R` is what two pieces with something behind
them tell. -/
theorem commas_inj {α β : Type} {f : α → List Char} {g : β → List Char} {R : α → β → Prop}
    {z : Char} (hclose : z ≠ ',') (hdelim : ∀ cs, Delimited (z :: cs))
    {as : List α} {bs : List β} {r r' : List Char}
    (hf : ∀ a ∈ as, ∀ cs, ¬ (f a ++ cs).head? = some z)
    (hg : ∀ b ∈ bs, ∀ cs, ¬ (g b ++ cs).head? = some z)
    (hR : ∀ a ∈ as, ∀ b ∈ bs, ∀ s s', Delimited s → Delimited s' → f a ++ s = g b ++ s' →
      R a b ∧ s = s')
    (h : commas (as.map f) ++ z :: r = commas (bs.map g) ++ z :: r') :
    List.Forall₂ R as bs ∧ r = r' := by
  have hcomma : ∀ cs, Delimited (',' :: cs) := fun cs => Or.inr ⟨',', cs, rfl, Or.inl rfl⟩
  -- what follows the first piece starts with a comma or with the closing character
  have tail : ∀ {γ : Type} (e : γ → List Char) (c : γ) (cs : List γ) (s : List Char),
      ∃ s', commas ((c :: cs).map e) ++ z :: s = e c ++ s' ∧
        ((cs = [] ∧ s' = z :: s) ∨
          (cs ≠ [] ∧ s' = ',' :: (commas (cs.map e) ++ z :: s))) := by
    intro γ e c cs s
    cases cs with
    | nil => exact ⟨z :: s, rfl, Or.inl ⟨rfl, rfl⟩⟩
    | cons d cs =>
      refine ⟨_, ?_, Or.inr ⟨by simp, rfl⟩⟩
      show (e c ++ ',' :: commas ((d :: cs).map e)) ++ z :: s = _
      rw [List.append_assoc]
      rfl
  induction as generalizing bs r r' with
  | nil =>
    cases bs with
    | nil =>
      refine ⟨List.Forall₂.nil, ?_⟩
      simpa [commas] using h
    | cons b bs =>
      obtain ⟨s', hs', _⟩ := tail g b bs r'
      rw [hs'] at h
      exact absurd (by rw [← h]; rfl) (hg b List.mem_cons_self s')
  | cons a as ih =>
    cases bs with
    | nil =>
      obtain ⟨s, hs, _⟩ := tail f a as r
      rw [hs] at h
      exact absurd (by rw [h]; rfl) (hf a List.mem_cons_self s)
    | cons b bs =>
      obtain ⟨s, hs, hscase⟩ := tail f a as r
      obtain ⟨s', hs', hscase'⟩ := tail g b bs r'
      rw [hs, hs'] at h
      have hds : Delimited s := by
        rcases hscase with ⟨_, rfl⟩ | ⟨_, rfl⟩
        · exact hdelim r
        · exact hcomma _
      have hds' : Delimited s' := by
        rcases hscase' with ⟨_, rfl⟩ | ⟨_, rfl⟩
        · exact hdelim r'
        · exact hcomma _
      obtain ⟨hab, rfl⟩ := hR a List.mem_cons_self b List.mem_cons_self s s' hds hds' h
      rcases hscase with ⟨rfl, rfl⟩ | ⟨_, rfl⟩
      · rcases hscase' with ⟨rfl, heq⟩ | ⟨_, heq⟩
        · exact ⟨List.Forall₂.cons hab List.Forall₂.nil, (List.cons.inj heq).2⟩
        · exact absurd (List.cons.inj heq).1 hclose
      · rcases hscase' with ⟨rfl, heq⟩ | ⟨_, heq⟩
        · exact absurd (List.cons.inj heq).1.symm hclose
        · obtain ⟨hrest, hr⟩ := ih (fun a ha => hf a (List.mem_cons_of_mem _ ha))
            (fun b hb => hg b (List.mem_cons_of_mem _ hb))
            (fun a ha b hb => hR a (List.mem_cons_of_mem _ ha) b (List.mem_cons_of_mem _ hb))
            (List.cons.inj heq).2
          exact ⟨List.Forall₂.cons hab hrest, hr⟩

/-- What stands beside an element of related lists. -/
theorem exists_of_forall₂ {α β : Type} {R : α → β → Prop} {as : List α} {bs : List β}
    (h : List.Forall₂ R as bs) {a : α} (ha : a ∈ as) : ∃ b, b ∈ bs ∧ R a b := by
  induction h with
  | nil => cases ha
  | cons hab _ ih =>
    rcases List.mem_cons.mp ha with rfl | ha
    · exact ⟨_, List.mem_cons_self, hab⟩
    · obtain ⟨b, hb, hR⟩ := ih ha
      exact ⟨b, List.mem_cons_of_mem _ hb, hR⟩

/-- The kind of a value by the first character of its text. -/
def startKind (c : Char) : ℕ :=
  if c = 'n' then 0 else if c = 't' then 1 else if c = 'f' then 2 else if c = '"' then 3
  else if c = '[' then 4 else if c = '{' then 5 else 6

/-- The kind of a value. -/
def kindOf : Json → ℕ
  | .null => 0
  | .bool true => 1
  | .bool false => 2
  | .str _ => 3
  | .arr _ => 4
  | .obj _ => 5
  | .num _ => 6

/-- A text starts with the character of its kind, which closes no bracket. -/
theorem head_text (hprints : PrintsNumbers formatFinite) {v : Json} (h : v.Parsed) :
    ∃ c cs, text formatFinite v = c :: cs ∧ startKind c = kindOf v ∧ c ≠ ']' ∧ c ≠ '}' := by
  cases h with
  | null => exact ⟨_, _, rfl, by decide, by decide, by decide⟩
  | bool b =>
    cases b with
    | true => exact ⟨_, _, rfl, by decide, by decide, by decide⟩
    | false => exact ⟨_, _, rfl, by decide, by decide, by decide⟩
  | str s => exact ⟨_, _, rfl, by rfl, by decide, by decide⟩
  | @num n hn =>
    obtain ⟨token, hform, htext⟩ := token_numberText hprints hn
    obtain ⟨c, cs, heq, hc⟩ := JsonScan.head_of_token hform []
    rw [List.append_nil, ← htext] at heq
    refine ⟨c, cs, heq, ?_⟩
    have key : ∀ a : Char, a ≠ '-' → isDigitChar a = false → c ≠ a := by
      rintro a hminus hdigit rfl
      rcases hc with rfl | hd
      · exact hminus rfl
      · rw [hd] at hdigit
        cases hdigit
    refine ⟨?_, key ']' (by decide) (by decide), key '}' (by decide) (by decide)⟩
    unfold startKind
    rw [if_neg (key 'n' (by decide) (by decide)), if_neg (key 't' (by decide) (by decide)),
      if_neg (key 'f' (by decide) (by decide)), if_neg (key '"' (by decide) (by decide)),
      if_neg (key '[' (by decide) (by decide)), if_neg (key '{' (by decide) (by decide))]
    rfl
  | arr _ => exact ⟨_, _, by rw [text_arr], by rfl, by decide, by decide⟩
  | obj _ _ => exact ⟨_, _, by rw [text_obj], by rfl, by decide, by decide⟩

/-- Values with one text are of one kind. -/
theorem kindOf_eq (hprints : PrintsNumbers formatFinite) {v w : Json} (hv : v.Parsed)
    (hw : w.Parsed) {r r' : List Char}
    (h : text formatFinite v ++ r = text formatFinite w ++ r') : kindOf v = kindOf w := by
  obtain ⟨c, cs, hc, hkind, _⟩ := head_text hprints hv
  obtain ⟨d, ds, hd, hkind', _⟩ := head_text hprints hw
  rw [hc, hd, List.cons_append, List.cons_append] at h
  rw [← hkind, ← hkind', (List.cons.inj h).1]

/-- **A text tells its value and where it ends.** -/
theorem same_of_text (hprints : PrintsNumbers formatFinite) {v w : Json} (hv : v.Parsed)
    (hw : w.Parsed) {r r' : List Char} (hr : Delimited r) (hr' : Delimited r')
    (h : text formatFinite v ++ r = text formatFinite w ++ r') : v.Same w ∧ r = r' := by
  induction v using Json.ind generalizing w r r' with
  | hnull =>
    have hkind := kindOf_eq hprints hv hw h
    cases hw with
    | null => exact ⟨Json.Same.null, List.append_cancel_left h⟩
    | bool b => cases b <;> cases hkind
    | str _ => cases hkind
    | num _ => cases hkind
    | arr _ => cases hkind
    | obj _ _ => cases hkind
  | hbool b =>
    have hkind := kindOf_eq hprints hv hw h
    cases hw with
    | null => cases b <;> cases hkind
    | bool b' =>
      have hb : b = b' := by
        cases b <;> cases b' <;> first | rfl | cases hkind
      subst hb
      exact ⟨Json.Same.bool b, List.append_cancel_left h⟩
    | str _ => cases b <;> cases hkind
    | num _ => cases b <;> cases hkind
    | arr _ => cases b <;> cases hkind
    | obj _ _ => cases b <;> cases hkind
  | hstr s =>
    have hkind := kindOf_eq hprints hv hw h
    cases hw with
    | null => cases hkind
    | bool b => cases b <;> cases hkind
    | str t =>
      obtain ⟨rfl, hrest⟩ := stringText_inj h
      exact ⟨Json.Same.str s, hrest⟩
    | num _ => cases hkind
    | arr _ => cases hkind
    | obj _ _ => cases hkind
  | hnum m =>
    have hkind := kindOf_eq hprints hv hw h
    cases hw with
    | null => cases hkind
    | bool b => cases b <;> cases hkind
    | str _ => cases hkind
    | num hn =>
      cases hv with
      | num hm =>
        obtain ⟨hvalue, hrest⟩ := numberText_inj hprints hm hn hr.ends hr'.ends h
        exact ⟨Json.Same.num hvalue, hrest⟩
    | arr _ => cases hkind
    | obj _ _ => cases hkind
  | harr as ih =>
    have hkind := kindOf_eq hprints hv hw h
    cases hw with
    | null => cases hkind
    | bool b => cases b <;> cases hkind
    | str _ => cases hkind
    | num _ => cases hkind
    | @arr bs hw =>
      cases hv with
      | arr hv =>
        rw [text_arr, text_arr, List.cons_append, List.cons_append, List.append_assoc,
          List.append_assoc] at h
        have hopen : ∀ v : Json, v.Parsed → ∀ cs,
            ¬ (text formatFinite v ++ cs).head? = some ']' := by
          intro v hv cs
          obtain ⟨c, tail, hc, _, hne, _⟩ := head_text hprints hv
          rw [hc]
          simpa using hne
        obtain ⟨hsame, hrest⟩ := commas_inj (z := ']') (R := Json.Same) (by decide)
          (fun cs => Or.inr ⟨']', cs, rfl, Or.inr (Or.inl rfl)⟩)
          (fun a ha => hopen a (hv a ha)) (fun b hb => hopen b (hw b hb))
          (fun a ha b hb s s' hs hs' heq => ih a ha (hv a ha) (hw b hb) hs hs' heq)
          (List.cons.inj h).2
        refine ⟨Json.Same.arr hsame.length_eq ?_, hrest⟩
        intro p hp
        exact (List.forall₂_iff_zip.mp hsame).2 hp
    | obj _ _ => cases hkind
  | hobj as ih =>
    have hkind := kindOf_eq hprints hv hw h
    cases hw with
    | null => cases hkind
    | bool b => cases b <;> cases hkind
    | str _ => cases hkind
    | num _ => cases hkind
    | arr _ => cases hkind
    | @obj bs hsortedB hw =>
      cases hv with
      | obj hsortedA hv =>
        have hmemA : ∀ p ∈ sortMembers as, p ∈ as := fun p hp => (sortMembers_perm as).subset hp
        have hmemB : ∀ p ∈ sortMembers bs, p ∈ bs := fun p hp => (sortMembers_perm bs).subset hp
        rw [text_obj, text_obj, List.cons_append, List.cons_append, List.append_assoc,
          List.append_assoc] at h
        have hopen : ∀ (p : String × Json) cs,
            ¬ ((memberPiece formatFinite p).2 ++ cs).head? = some '}' := by
          intro p cs
          show ¬ some '"' = some '}'
          decide
        obtain ⟨hsame, hrest⟩ := commas_inj (z := '}')
          (R := fun p q : String × Json => p.1 = q.1 ∧ p.2.Same q.2) (by decide)
          (fun cs => Or.inr ⟨'}', cs, rfl, Or.inr (Or.inr rfl)⟩)
          (fun p _ => hopen p) (fun q _ => hopen q)
          (fun p hp q hq s s' hs hs' heq => by
            -- the name is read back first, then the value behind the colon
            have heq' : stringText p.1 ++ (':' :: text formatFinite p.2 ++ s)
                = stringText q.1 ++ (':' :: text formatFinite q.2 ++ s') := by
              simpa [memberPiece, memberText] using heq
            obtain ⟨hname, hafter⟩ := stringText_inj heq'
            obtain ⟨hvalue, hend⟩ := ih p (hmemA p hp) (hv p (hmemA p hp)) (hw q (hmemB q hq)) hs
              hs' (List.cons.inj hafter).2
            exact ⟨⟨hname, hvalue⟩, hend⟩)
          (List.cons.inj h).2
        have hnames : (sortMembers as).map Prod.fst = (sortMembers bs).map Prod.fst := by
          rw [← List.forall₂_eq_eq_eq, List.forall₂_map_left_iff, List.forall₂_map_right_iff]
          exact hsame.imp fun p q hpq => hpq.1
        refine ⟨Json.Same.obj ?_ ?_, hrest⟩
        · calc (as.map Prod.fst).Perm ((sortMembers as).map Prod.fst) :=
              ((sortMembers_perm as).map Prod.fst).symm
            List.Perm _ ((sortMembers bs).map Prod.fst) := by rw [hnames]
            List.Perm _ (bs.map Prod.fst) := (sortMembers_perm bs).map Prod.fst
        · intro key a b ha hb
          obtain ⟨q, hq, hname, hvalue⟩ :=
            exists_of_forall₂ hsame ((sortMembers_perm as).symm.subset ha)
          have hb' : (key, q.2) ∈ bs := by
            have hqmem := hmemB q hq
            rwa [show q = (key, q.2) from Prod.ext hname.symm rfl] at hqmem
          rw [← member_unique (Json.nodup_of_sorted hsortedB) hb' hb]
          exact hvalue

/-! ## The public entries -/

/-- The bytes of a text tell its characters. -/
theorem asBytes_ofList (cs : List Char) : asBytes (String.ofList cs) = Utf8.encode cs := by
  unfold asBytes
  rw [Utf8.encode_toList, String.toList_ofList]

/-- A text that parses is encoded. -/
theorem canonicalizeJson_eq (formatFinite : Binary64 → List Char) {raw : String} {v : Json}
    (h : parseStrict raw = .ok v) :
    canonicalizeJson formatFinite raw = .ok (Utf8.encode (text formatFinite v)) := by
  have hdecode : (asBytes raw).toByteArray.utf8Decode? = some raw.toList.toArray := by
    unfold asBytes
    rw [Utf8.encode_toList]
    exact Utf8.decode_encode raw.toList
  have hparse : parseBytes (asBytes raw) = .ok v := h
  unfold canonicalizeJson canonicalizeBytes
  rw [hdecode, hparse]
  show (encodeUnique formatFinite v).mapError Stop.error = _
  unfold encodeUnique
  rw [encode_eq formatFinite (Json.parsed_of_parseStrict h), ← asBytes_ofList]
  rfl

/-- What a registrations array hashes is its canonical text. -/
theorem registrationPreimage_eq (formatFinite : Binary64 → List Char) {raw : String}
    {items : List Json} (h : parseStrict raw = .ok (.arr items)) :
    registrationPreimage formatFinite raw
      = .ok (Utf8.encode (text formatFinite (.arr items))) := by
  unfold registrationPreimage
  rw [h]
  show (encodeUnique formatFinite (.arr items)).mapError Stop.error = _
  unfold encodeUnique
  rw [encode_eq formatFinite (Json.parsed_of_parseStrict h), ← asBytes_ofList]
  rfl

/-- Equal texts are of equal values. -/
theorem text_eq_iff (hprints : PrintsNumbers formatFinite) {v w : Json} (hv : v.Parsed)
    (hw : w.Parsed) :
    Utf8.encode (text formatFinite v) = Utf8.encode (text formatFinite w) ↔ v.Same w := by
  constructor
  · intro h
    have hchars := Utf8.encode_injective h
    exact (same_of_text hprints hv hw (Or.inl rfl) (Or.inl rfl) (congrArg (· ++ []) hchars)).1
  · intro h
    rw [text_eq_of_same hv hw h]

end Faithful

end Jcs

end Waitprims
