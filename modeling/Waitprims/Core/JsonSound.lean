import Mathlib
import Waitprims.Lib.Hoare
import Waitprims.Core.JsonScan

/-! # What the scanner accepts is derived

Soundness of the strict parser over characters: a step that returns has read what the grammar
derives, and returns what it denotes. The members of an object are kept in key order, so the map
that an object denotes is the list the scanner ends with.

* **`JsonScan.chars_of_scanChars`**, **`JsonScan.wellFormed_of_scanToken`** — strings and number
  tokens.
* **`JsonScan.derives`** — values, elements and members.
* **`JsonScan.text_of_scanText`** — whole texts. -/

namespace Waitprims

namespace JsonScan

open Jcs (Stop fail insertMember)
open JsonText

/-- A step that returns through another step. -/
theorem bind_ok {α β : Type} {r : Scanned α} {k : α × List Char → Except Stop β} {b : β}
    (h : r.bind k = .ok b) : ∃ a cs, r = .ok (a, cs) ∧ k (a, cs) = .ok b := by
  rcases r with e | ⟨a, cs⟩
  · cases h
  · exact ⟨a, cs, rfl, h⟩

/-- A step that renames what another step returns. -/
theorem map_ok {α β : Type} {r : Scanned α} {f : α → β} {b : β} {rest : List Char}
    (h : (r.map fun p => (f p.1, p.2)) = .ok (b, rest)) :
    ∃ a, r = .ok (a, rest) ∧ f a = b := by
  rcases r with e | ⟨a, cs⟩
  · cases h
  · obtain ⟨rfl, rfl⟩ : f a = b ∧ cs = rest := by simpa [Except.map] using h
    exact ⟨a, rfl, rfl⟩

/-! ## Whitespace -/

/-- What the scanner skips is whitespace. -/
theorem ws_skipWs (cs : List Char) : Ws cs (skipWs cs) := by
  induction cs with
  | nil => exact Ws.nil
  | cons c cs ih =>
    unfold skipWs at ih ⊢
    rw [List.dropWhile_cons]
    by_cases h : isWsChar c = true
    · rw [if_pos h]
      exact Ws.cons h ih
    · rw [if_neg h]
      exact Ws.nil

/-- Whitespace before a first character. -/
theorem ws_of_skipWs {cs rest : List Char} (h : skipWs cs = rest) : Ws cs rest := by
  rw [← h]
  exact ws_skipWs cs

/-- Whitespace before whitespace. -/
theorem ws_trans {cs cs' rest : List Char} (h : Ws cs cs') (h' : Ws cs' rest) : Ws cs rest := by
  induction h with
  | nil => exact h'
  | cons hc _ ih => exact Ws.cons hc (ih h')

/-- Whitespace before the elements of an array. -/
theorem elements_of_ws {cs cs' rest : List Char} {items : List Json} (h : Ws cs cs')
    (he : Elements cs' items rest) : Elements cs items rest := by
  cases he with
  | last hws hv hclose => exact Elements.last (ws_trans h hws) hv hclose
  | cons hws hv hcomma hrest => exact Elements.cons (ws_trans h hws) hv hcomma hrest

/-- Whitespace before the members of an object. -/
theorem members_of_ws {cs cs' rest : List Char} {members : List (String × Json)} (h : Ws cs cs')
    (hm : Members cs' members rest) : Members cs members rest := by
  cases hm with
  | last hws hkey hcolon hws' hv hclose =>
    exact Members.last (ws_trans h hws) hkey hcolon hws' hv hclose
  | cons hws hkey hcolon hws' hv hcomma hrest =>
    exact Members.cons (ws_trans h hws) hkey hcolon hws' hv hcomma hrest

/-- A list with a given head. -/
theorem eq_cons_of_head? {cs : List Char} {c : Char} (h : cs.head? = some c) :
    cs = c :: cs.drop 1 := by
  cases cs with
  | nil => cases h
  | cons d cs =>
    obtain rfl : d = c := by simpa using h
    rfl

/-! ## Strings -/

/-- A valid scalar. -/
theorem charFromU32_eq_some {n : ℕ} {ch : Char} :
    Jcs.charFromU32 n = some ch ↔ ∃ h : n.isValidChar, ch = Char.ofNatAux n h := by
  unfold Jcs.charFromU32
  split
  · next h =>
    constructor
    · intro heq
      exact ⟨h, (Option.some.inj heq).symm⟩
    · rintro ⟨_, rfl⟩
      rfl
  · next h =>
    constructor
    · intro heq
      cases heq
    · rintro ⟨h', _⟩
      exact absurd h' h

/-- A hexadecimal digit, and then the others. -/
theorem scanHex_succ {n value unit : ℕ} {cs rest : List Char}
    (h : scanHex (n + 1) value cs = .ok (unit, rest)) :
    ∃ c cs' digit, cs = c :: cs' ∧ hexValue c = some digit ∧
      scanHex n (value * 16 + digit) cs' = .ok (unit, rest) := by
  cases cs with
  | nil => cases h
  | cons c cs =>
    unfold scanHex at h
    cases hc : hexValue c with
    | none =>
      rw [hc] at h
      cases h
    | some digit =>
      rw [hc] at h
      exact ⟨c, cs, digit, rfl, hc, h⟩

/-- Four hexadecimal digits. -/
theorem hex4_of_scanHex {unit : ℕ} {cs rest : List Char} (h : scanHex 4 0 cs = .ok (unit, rest)) :
    Hex4 cs unit rest := by
  obtain ⟨a, cs, w, rfl, ha, h⟩ := scanHex_succ h
  obtain ⟨b, cs, x, rfl, hb, h⟩ := scanHex_succ h
  obtain ⟨c, cs, y, rfl, hc, h⟩ := scanHex_succ h
  obtain ⟨d, cs, z, rfl, hd, h⟩ := scanHex_succ h
  obtain ⟨rfl, rfl⟩ : (((0 * 16 + w) * 16 + x) * 16 + y) * 16 + z = unit ∧ cs = rest := by
    simpa [scanHex] using h
  have hmk : Hex4 (a :: b :: c :: d :: cs) (((w * 16 + x) * 16 + y) * 16 + z) cs :=
    Hex4.mk ha hb hc hd
  rwa [Nat.zero_mul, Nat.zero_add]

/-- A scalar that is returned. -/
theorem scalar_ok {n : ℕ} {e : JcsError} {cs rest : List Char} {ch : Char}
    (h : scalar n e cs = .ok (ch, rest)) :
    rest = cs ∧ ∃ hn : n.isValidChar, ch = Char.ofNatAux n hn := by
  unfold scalar at h
  cases hc : Jcs.charFromU32 n with
  | none =>
    rw [hc] at h
    cases h
  | some ch' =>
    rw [hc] at h
    obtain ⟨rfl, rfl⟩ : ch' = ch ∧ cs = rest := by simpa using h
    exact ⟨rfl, charFromU32_eq_some.mp hc⟩

/-- An escape that is read continues a string. -/
theorem chars_of_scanEscape {cs rest out tail : List Char} {ch : Char}
    (h : scanEscape cs = .ok (ch, rest)) (hrest : Chars rest out tail) :
    Chars ('\\' :: cs) (ch :: out) tail := by
  cases cs with
  | nil => cases h
  | cons esc cs =>
    dsimp only [scanEscape] at h
    by_cases hu : esc = 'u'
    · subst hu
      rw [if_pos rfl] at h
      obtain ⟨unit, cs₁, hhex, h⟩ := bind_ok h
      dsimp only at h
      have hunit := hex4_of_scanHex hhex
      by_cases hhigh : Jcs.isHighSurrogate unit = true
      · -- a high surrogate asks for its low half
        rw [if_pos hhigh] at h
        unfold scanLowSurrogate at h
        split at h
        · next backslash u cs₂ =>
          by_cases hand : backslash = '\\' ∧ u = 'u'
          · rw [if_pos hand] at h
            obtain ⟨rfl, rfl⟩ := hand
            obtain ⟨low, cs₃, hlow, h⟩ := bind_ok h
            dsimp only at h
            by_cases hl : Jcs.isLowSurrogate low = true
            · rw [if_pos hl] at h
              obtain ⟨rfl, hn, rfl⟩ := scalar_ok h
              exact Chars.pair hunit (by simpa [Jcs.isHighSurrogate] using hhigh)
                (hex4_of_scanHex hlow) (by simpa [Jcs.isLowSurrogate] using hl) hrest
            · rw [if_neg hl] at h
              cases h
          · rw [if_neg hand] at h
            cases h
        · cases h
      · rw [if_neg hhigh] at h
        split at h
        · cases h
        · obtain ⟨rfl, hn, rfl⟩ := scalar_ok h
          exact Chars.unicode hunit hrest
    · rw [if_neg hu] at h
      cases he : escaped esc with
      | none =>
        rw [he] at h
        cases h
      | some c =>
        rw [he] at h
        obtain ⟨rfl, rfl⟩ : c = ch ∧ cs = rest := by simpa using h
        exact Chars.escape he hrest

/-- The characters of a string. -/
theorem chars_of_scanChars {fuel : ℕ} {out cs rest : List Char} {s : String}
    (h : scanChars fuel out cs = .ok (s, rest)) :
    ∃ more, s = String.ofList (out ++ more) ∧ Chars cs more rest := by
  induction fuel generalizing out cs with
  | zero => cases h
  | succ fuel ih =>
    cases cs with
    | nil => cases h
    | cons c cs =>
      unfold scanChars at h
      split at h
      · next hquote =>
        obtain ⟨rfl, rfl⟩ : String.ofList out = s ∧ cs = rest := by simpa using h
        subst hquote
        exact ⟨[], by rw [List.append_nil], Chars.close⟩
      · next hquote =>
        split at h
        · next hslash =>
          subst hslash
          obtain ⟨ch, cs₁, hescape, h⟩ := bind_ok h
          obtain ⟨more, rfl, hchars⟩ := ih h
          exact ⟨ch :: more, by rw [List.append_assoc, List.singleton_append],
            chars_of_scanEscape hescape hchars⟩
        · next hslash =>
          split at h
          · cases h
          · next hcontrol =>
            obtain ⟨more, rfl, hchars⟩ := ih h
            exact ⟨c :: more, by rw [List.append_assoc, List.singleton_append],
              Chars.plain hquote hslash (by omega) hchars⟩

/-- A string. -/
theorem str_of_scanString {cs rest : List Char} {s : String} (hquote : cs.head? = some '"')
    (h : scanString cs = .ok (s, rest)) : Str cs s rest := by
  obtain ⟨more, rfl, hchars⟩ := chars_of_scanChars h
  rw [eq_cons_of_head? hquote]
  exact Str.quoted hchars

/-! ## Numbers -/

/-- A run of digits. -/
theorem someDigits_ok {cs digits rest : List Char} (h : someDigits cs = .ok (digits, rest)) :
    IsDigits digits ∧ cs = digits ++ rest := by
  unfold someDigits at h
  split at h
  · cases h
  · next hempty =>
    obtain ⟨rfl, rfl⟩ : cs.takeWhile isDigitChar = digits ∧ cs.dropWhile isDigitChar = rest := by
      simpa using h
    refine ⟨⟨by simpa using hempty, ?_⟩, List.takeWhile_append_dropWhile.symm⟩
    intro c hc
    exact List.mem_takeWhile_imp hc

/-- The integer part. -/
theorem scanWhole_ok {cs whole rest : List Char} (h : scanWhole cs = .ok (whole, rest)) :
    Numeral.IsWhole whole ∧ cs = whole ++ rest := by
  unfold scanWhole at h
  split at h
  · next hzero =>
    split at h
    · cases h
    · obtain ⟨rfl, rfl⟩ : ['0'] = whole ∧ cs.drop 1 = rest := by simpa using h
      exact ⟨Or.inl rfl, eq_cons_of_head? hzero⟩
  · next hzero =>
    obtain ⟨hdigits, rfl⟩ := someDigits_ok h
    refine ⟨Or.inr ⟨hdigits, ?_⟩, rfl⟩
    intro hhead
    apply hzero
    cases whole with
    | nil => cases hhead
    | cons c whole => exact hhead

/-- The fraction. -/
theorem scanFraction_ok {cs rest : List Char} {fraction : Option (List Char)}
    (h : scanFraction cs = .ok (fraction, rest)) :
    (∀ digits, fraction = some digits → IsDigits digits) ∧
      cs = Numeral.fractionText fraction ++ rest := by
  unfold scanFraction at h
  split at h
  · next hpoint =>
    obtain ⟨digits, hsome, rfl⟩ := map_ok h
    obtain ⟨hdigits, hcs⟩ := someDigits_ok hsome
    refine ⟨?_, ?_⟩
    · intro ds hds
      rwa [← Option.some.inj hds]
    · rw [eq_cons_of_head? hpoint, hcs]
      rfl
  · obtain ⟨rfl, rfl⟩ : none = fraction ∧ cs = rest := by simpa using h
    exact ⟨fun _ hds => (nomatch hds), rfl⟩

/-- The sign of an exponent. -/
theorem scanExponentSign_ok (cs : List Char) :
    (∀ c, (scanExponentSign cs).1 = some c → c = '+' ∨ c = '-') ∧
      cs = (scanExponentSign cs).1.toList ++ (scanExponentSign cs).2 := by
  unfold scanExponentSign
  split
  · next h => exact ⟨fun c hc => Or.inl (Option.some.inj hc).symm, eq_cons_of_head? h⟩
  · split
    · next h => exact ⟨fun c hc => Or.inr (Option.some.inj hc).symm, eq_cons_of_head? h⟩
    · exact ⟨fun _ hc => (nomatch hc), rfl⟩

/-- The exponent after its marker. -/
theorem scanExponentTail_ok {marker : Char} {cs rest : List Char} {exponent : Option Exponent}
    (hmarker : marker = 'e' ∨ marker = 'E')
    (h : scanExponentTail marker cs = .ok (exponent, rest)) :
    (∀ e, exponent = some e → (e.marker = 'e' ∨ e.marker = 'E') ∧
      (∀ c, e.sign = some c → c = '+' ∨ c = '-') ∧ IsDigits e.digits) ∧
      marker :: cs = Numeral.exponentText exponent ++ rest := by
  obtain ⟨hsign, hcs⟩ := scanExponentSign_ok cs
  have hmap : ((someDigits (scanExponentSign cs).2).map fun p =>
      (some (Exponent.mk marker (scanExponentSign cs).1 p.1), p.2)) = .ok (exponent, rest) := h
  obtain ⟨digits, hsome, rfl⟩ :=
    map_ok (f := fun digits => some (Exponent.mk marker (scanExponentSign cs).1 digits)) hmap
  obtain ⟨hdigits, hrest⟩ := someDigits_ok hsome
  refine ⟨?_, ?_⟩
  · intro e he
    obtain rfl := Option.some.inj he
    exact ⟨hmarker, hsign, hdigits⟩
  · show marker :: cs = marker :: ((scanExponentSign cs).1.toList ++ digits) ++ rest
    rw [List.cons_append, List.append_assoc, ← hrest, ← hcs]

/-- The exponent. -/
theorem scanExponent_ok {cs rest : List Char} {exponent : Option Exponent}
    (h : scanExponent cs = .ok (exponent, rest)) :
    (∀ e, exponent = some e → (e.marker = 'e' ∨ e.marker = 'E') ∧
      (∀ c, e.sign = some c → c = '+' ∨ c = '-') ∧ IsDigits e.digits) ∧
      cs = Numeral.exponentText exponent ++ rest := by
  unfold scanExponent at h
  split at h
  · next he =>
    rw [eq_cons_of_head? he]
    exact scanExponentTail_ok (Or.inl rfl) h
  · split at h
    · next he =>
      rw [eq_cons_of_head? he]
      exact scanExponentTail_ok (Or.inr rfl) h
    · obtain ⟨rfl, rfl⟩ : none = exponent ∧ cs = rest := by simpa using h
      exact ⟨fun _ he => (nomatch he), rfl⟩

/-- A token after its sign. -/
theorem scanNumeral_ok {negative : Bool} {cs rest : List Char} {token : Numeral}
    (h : scanNumeral negative cs = .ok (token, rest)) :
    token.negative = negative ∧ token.WellFormed ∧ cs = token.body ++ rest := by
  obtain ⟨whole, cs₁, hwhole, h⟩ := bind_ok h
  obtain ⟨fraction, cs₂, hfraction, h⟩ := bind_ok h
  obtain ⟨exponent, hexponent, rfl⟩ :=
    map_ok (f := fun exponent => Numeral.mk negative whole fraction exponent) h
  obtain ⟨hw, rfl⟩ := scanWhole_ok hwhole
  obtain ⟨hf, rfl⟩ := scanFraction_ok hfraction
  obtain ⟨he, rfl⟩ := scanExponent_ok hexponent
  refine ⟨rfl, ⟨hw, hf, he⟩, ?_⟩
  show _ = whole ++ (Numeral.fractionText fraction ++ Numeral.exponentText exponent) ++ rest
  rw [List.append_assoc, List.append_assoc]

/-- A number token. -/
theorem wellFormed_of_scanToken {cs rest : List Char} {token : Numeral}
    (h : scanToken cs = .ok (token, rest)) : token.WellFormed ∧ cs = token.text ++ rest := by
  unfold scanToken at h
  split at h
  · next hminus =>
    obtain ⟨hneg, hform, hcs⟩ := scanNumeral_ok h
    refine ⟨hform, ?_⟩
    rw [eq_cons_of_head? hminus, hcs, Numeral.text, if_pos hneg]
    rfl
  · obtain ⟨hneg, hform, hcs⟩ := scanNumeral_ok h
    refine ⟨hform, ?_⟩
    rw [hcs, Numeral.text, if_neg (by simp [hneg])]

/-- A number. -/
theorem value_of_scanNumber {cs rest : List Char} {v : Json} (h : scanNumber cs = .ok (v, rest)) :
    Value cs v rest := by
  obtain ⟨token, cs₁, htoken, h⟩ := bind_ok h
  obtain ⟨hform, hcs⟩ := wellFormed_of_scanToken htoken
  rw [hcs]
  dsimp only at h
  cases hcheck : numberOf token with
  | error e =>
    rw [hcheck] at h
    cases h
  | ok n =>
    rw [hcheck] at h
    obtain ⟨rfl, rfl⟩ : Json.num n = v ∧ cs₁ = rest := by simpa using h
    obtain ⟨hchecked, rfl⟩ := (Numeral.numberOf_eq_ok_iff token n).mp hcheck
    exact Value.num hform hchecked

/-! ## The members of an object -/

/-- A name that is not found is no member's. -/
theorem ne_of_lookup_none {α : Type} {key : String} {members : List (String × α)}
    (h : Json.lookup key members = none) : ∀ p ∈ members, p.1 ≠ key := by
  induction members with
  | nil =>
    intro p hp
    cases hp
  | cons q members ih =>
    obtain ⟨k, v⟩ := q
    unfold Json.lookup at h
    by_cases hk : k = key
    · rw [if_pos hk] at h
      cases h
    · rw [if_neg hk] at h
      intro p hp
      rcases List.mem_cons.mp hp with rfl | hp
      · exact hk
      · exact ih h p hp

/-- A new member is added. -/
theorem insertMember_perm {key : String} {value : Json} {members : List (String × Json)}
    (h : Json.lookup key members = none) :
    (insertMember key value members).Perm ((key, value) :: members) := by
  induction members with
  | nil => exact List.Perm.refl _
  | cons q members ih =>
    obtain ⟨k, v⟩ := q
    have hk : ¬ key = k := fun heq => ne_of_lookup_none h (k, v) List.mem_cons_self heq.symm
    have htail : Json.lookup key members = none := by
      unfold Json.lookup at h
      rwa [if_neg fun heq => hk heq.symm] at h
    unfold insertMember
    by_cases hlt : key < k
    · rw [if_pos hlt]
    · rw [if_neg hlt, if_neg hk]
      exact ((ih htail).cons (k, v)).trans (List.Perm.swap _ _ _)

/-- A new member keeps the key order. -/
theorem insertMember_sorted {key : String} {value : Json} {members : List (String × Json)}
    (h : Json.lookup key members = none) (hsorted : members.Pairwise fun a b => a.1 < b.1) :
    (insertMember key value members).Pairwise fun a b => a.1 < b.1 := by
  induction members with
  | nil => exact List.pairwise_singleton _ _
  | cons q members ih =>
    obtain ⟨k, v⟩ := q
    have hk : ¬ key = k := fun heq => ne_of_lookup_none h (k, v) List.mem_cons_self heq.symm
    have htail : Json.lookup key members = none := by
      unfold Json.lookup at h
      rwa [if_neg fun heq => hk heq.symm] at h
    obtain ⟨hfirst, hrest⟩ := List.pairwise_cons.mp hsorted
    unfold insertMember
    by_cases hlt : key < k
    · rw [if_pos hlt]
      refine List.pairwise_cons.mpr ⟨?_, hsorted⟩
      intro p hp
      rcases List.mem_cons.mp hp with rfl | hp
      · exact hlt
      · exact hlt.trans (hfirst p hp)
    · rw [if_neg hlt, if_neg hk]
      refine List.pairwise_cons.mpr ⟨?_, ih htail hrest⟩
      intro p hp
      rcases List.mem_cons.mp ((insertMember_perm htail).subset hp) with rfl | hp
      · exact lt_of_le_of_ne (not_lt.mp hlt) fun heq => hk heq.symm
      · exact hfirst p hp

/-! ## Values -/

/-- A literal. -/
theorem scanLiteral_ok {token cs rest : List Char} {value v : Json}
    (h : scanLiteral token value cs = .ok (v, rest)) : v = value ∧ cs = token ++ rest := by
  unfold scanLiteral at h
  split at h
  · next htake =>
    obtain ⟨rfl, rfl⟩ : value = v ∧ cs.drop token.length = rest := by simpa using h
    refine ⟨rfl, ?_⟩
    calc cs = cs.take token.length ++ cs.drop token.length := (List.take_append_drop _ cs).symm
      _ = token ++ cs.drop token.length := by rw [htake]
  · cases h

/-- The character after whitespace. -/
theorem skipWs_match {α : Type} {cs : List Char} {q : Char → List Char → Scanned α}
    {a : α × List Char}
    (h : (match skipWs cs with
      | [] => fail .invalidJson
      | c :: cs => q c cs) = .ok a) : ∃ c cs', skipWs cs = c :: cs' ∧ q c cs' = .ok a := by
  cases hcs : skipWs cs with
  | nil =>
    rw [hcs] at h
    cases h
  | cons c cs' =>
    rw [hcs] at h
    exact ⟨c, cs', rfl, h⟩

/-- **What the scanner returns is derived**: a value after whitespace, the elements of an array
after those already read, the members of an object beside those already kept. -/
theorem derives (fuel : ℕ) :
    (∀ cs v rest, scanValue fuel cs = .ok (v, rest) → ∃ cs₁, Ws cs cs₁ ∧ Value cs₁ v rest) ∧
    (∀ items cs v rest, scanArray fuel items cs = .ok (v, rest) →
      ∃ more, v = .arr (items ++ more) ∧ Elements cs more rest) ∧
    (∀ members cs v rest, scanObject fuel members cs = .ok (v, rest) →
      members.Pairwise (fun a b => a.1 < b.1) →
      ∃ more sorted, v = .obj sorted ∧ Members cs more rest ∧ sorted.Perm (members ++ more) ∧
        sorted.Pairwise fun a b => a.1 < b.1) := by
  induction fuel with
  | zero =>
    refine ⟨?_, ?_, ?_⟩
    · intro cs v rest h
      cases h
    · intro items cs v rest h
      cases h
    · intro members cs v rest h
      cases h
  | succ fuel ih =>
    obtain ⟨ihValue, ihArray, ihObject⟩ := ih
    refine ⟨fun cs v rest h => ?_, fun items cs v rest h => ?_,
      fun members cs v rest h hsorted => ?_⟩
    · -- a value: the character it starts with decides
      unfold scanValue at h
      obtain ⟨c, cs', hcs, h⟩ := skipWs_match h
      refine ⟨c :: cs', ws_of_skipWs hcs, ?_⟩
      split at h
      · obtain ⟨rfl, heq⟩ := scanLiteral_ok h
        rw [heq]
        exact Value.null
      · split at h
        · obtain ⟨rfl, heq⟩ := scanLiteral_ok h
          rw [heq]
          exact Value.true
        · split at h
          · obtain ⟨rfl, heq⟩ := scanLiteral_ok h
            rw [heq]
            exact Value.false
          · split at h
            · next hquote =>
              obtain ⟨s, hs, rfl⟩ := map_ok h
              exact Value.str (str_of_scanString (by rw [hquote]; rfl) hs)
            · split at h
              · next hbracket =>
                subst hbracket
                split at h
                · next hclose =>
                  obtain ⟨rfl, rfl⟩ : Json.arr [] = v ∧ (skipWs cs').drop 1 = rest := by
                    simpa using h
                  exact Value.emptyArr (ws_of_skipWs (eq_cons_of_head? hclose))
                · obtain ⟨more, rfl, helements⟩ := ihArray _ _ _ _ h
                  -- the elements start after the whitespace that was skipped
                  exact Value.arr (elements_of_ws (ws_skipWs cs') helements)
              · split at h
                · next hbrace =>
                  subst hbrace
                  split at h
                  · next hclose =>
                    obtain ⟨rfl, rfl⟩ : Json.obj [] = v ∧ (skipWs cs').drop 1 = rest := by
                      simpa using h
                    exact Value.emptyObj (ws_of_skipWs (eq_cons_of_head? hclose))
                  · obtain ⟨more, sorted, rfl, hmembers, hperm, hs⟩ :=
                      ihObject _ _ _ _ h List.Pairwise.nil
                    have hnodup : (more.map Prod.fst).Nodup := by
                      apply ((hperm.map Prod.fst).nodup_iff).mp
                      apply List.Pairwise.map _ (fun a b hab => ne_of_lt hab) hs
                    exact Value.obj (members_of_ws (ws_skipWs cs') hmembers) hnodup hperm hs
                · split at h
                  · exact value_of_scanNumber h
                  · cases h
    · -- an element, and what follows it
      unfold scanArray at h
      obtain ⟨item, cs₁, hitem, h⟩ := bind_ok h
      obtain ⟨cs₀, hws, hvalue⟩ := ihValue _ _ _ hitem
      obtain ⟨c, cs₂, hcs, h⟩ := skipWs_match h
      split at h
      · next hcomma =>
        subst hcomma
        obtain ⟨more, rfl, helements⟩ := ihArray _ _ _ _ h
        exact ⟨item :: more, by rw [List.append_assoc, List.singleton_append],
          Elements.cons hws hvalue (ws_of_skipWs hcs) helements⟩
      · split at h
        · next hclose =>
          subst hclose
          obtain ⟨rfl, rfl⟩ : Json.arr (items ++ [item]) = v ∧ cs₂ = rest := by simpa using h
          exact ⟨[item], rfl, Elements.last hws hvalue (ws_of_skipWs hcs)⟩
        · cases h
    · -- a name, its value, and what follows them
      unfold scanObject at h
      split at h
      · next hquote =>
        obtain ⟨key, cs₁, hkey, h⟩ := bind_ok h
        have hstr := str_of_scanString hquote hkey
        dsimp only at h
        split at h
        · cases h
        · next hfresh =>
          have hnone : Json.lookup key members = none := by simpa using hfresh
          split at h
          · next hcolon =>
            obtain ⟨value, cs₂, hvalue, h⟩ := bind_ok h
            obtain ⟨cs₀, hws, hv⟩ := ihValue _ _ _ hvalue
            obtain ⟨c, cs₃, hcs, h⟩ := skipWs_match h
            have hc := ws_of_skipWs (eq_cons_of_head? hcolon)
            split at h
            · next hcomma =>
              subst hcomma
              obtain ⟨more, sorted, rfl, hmembers, hperm, hs⟩ :=
                ihObject _ _ _ _ h (insertMember_sorted hnone hsorted)
              refine ⟨(key, value) :: more, sorted, rfl,
                Members.cons (ws_skipWs cs) hstr hc hws hv (ws_of_skipWs hcs) hmembers, ?_, hs⟩
              calc sorted.Perm (insertMember key value members ++ more) := hperm
                List.Perm _ (((key, value) :: members) ++ more) :=
                  (insertMember_perm hnone).append_right more
                List.Perm _ (members ++ (key, value) :: more) := List.perm_middle.symm
            · split at h
              · next hclose =>
                subst hclose
                obtain ⟨rfl, rfl⟩ : Json.obj (insertMember key value members) = v ∧ cs₃ = rest := by
                  simpa using h
                refine ⟨[(key, value)], _, rfl,
                  Members.last (ws_skipWs cs) hstr hc hws hv (ws_of_skipWs hcs), ?_,
                  insertMember_sorted hnone hsorted⟩
                exact (insertMember_perm hnone).trans
                  (List.perm_append_singleton (key, value) members).symm
              · cases h
          · cases h
      · cases h

/-- A text that the scanner accepts. -/
theorem text_of_scanText {fuel : ℕ} {cs : List Char} {v : Json} (h : scanText fuel cs = .ok v) :
    Text cs v := by
  unfold scanText at h
  obtain ⟨v', rest, hvalue, h⟩ := bind_ok h
  obtain ⟨cs₁, hws, hv⟩ := (derives fuel).1 _ _ _ hvalue
  dsimp only at h
  split at h
  · next hempty =>
    obtain rfl : v' = v := by simpa using h
    exact ⟨cs₁, rest, hws, hv, ws_of_skipWs (List.isEmpty_iff.mp hempty)⟩
  · cases h

end JsonScan

end Waitprims
