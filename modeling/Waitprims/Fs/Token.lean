import Mathlib
import Waitprims.Core.Types

/-! # Tokens of a filesystem bind

An event id, a correlation id and an anchor of a bind are texts `namespace-session-sequence`. A bind
recognises its own events by reading the two numbers back.

* **`fsToken`**, **`fsTokenSequence`** — writing and reading a token.
* **`fsTokenSequence_fsToken`** — a token is read back by its own session and by no other. -/

namespace Waitprims

namespace Fs

/-! ## Reading and writing -/

/-- `format!("{namespace}-{session}-{sequence}")`. -/
def fsToken (space : String) (session sequence : UInt64) : String :=
  space ++ "-" ++ toString session.toNat ++ "-" ++ toString sequence.toNat

/-- The anchor of a sequence number. -/
def anchor (session sequence : UInt64) : Anchor :=
  ⟨.providerOpaque, fsToken "anc:fs" session sequence⟩

/-- `strip_prefix`. -/
def stripStart : List Char → List Char → Option (List Char)
  | [], text => some text
  | c :: start, d :: text => if c = d then stripStart start text else none
  | _ :: _, [] => none

/-- `split_once`. -/
def splitOnce (sep : Char) : List Char → Option (List Char × List Char)
  | [] => none
  | c :: text =>
    if c = sep then some ([], text)
    else (splitOnce sep text).map fun parts => (c :: parts.1, parts.2)

/-- `str::parse::<u64>`: digits after an optional plus sign. -/
def parseU64 (text : List Char) : Option UInt64 :=
  let digits := match text with
    | '+' :: rest => rest
    | _ => text
  if digits.isEmpty || !digits.all Char.isDigit then none
  else
    let n := Nat.ofDigitChars 10 digits 0
    if n < 2 ^ 64 then some (UInt64.ofNat n) else none

/-- `fs_token_sequence`: the sequence number of a token of this namespace and session. -/
def fsTokenSequence (value space : String) (expectedSession : UInt64) : Option UInt64 := do
  let remainder ← stripStart space.toList value.toList
  let remainder ← stripStart ['-'] remainder
  let (session, sequence) ← splitOnce '-' remainder
  if (← parseU64 session) = expectedSession then parseU64 sequence else none

/-! ## A token is read back -/

theorem stripStart_append (start text : List Char) : stripStart start (start ++ text) = some text := by
  induction start with
  | nil => rfl
  | cons c start ih =>
    show (if c = c then stripStart start (start ++ text) else none) = some text
    rw [if_pos rfl, ih]

theorem splitOnce_append {sep : Char} {left right : List Char} (h : sep ∉ left) :
    splitOnce sep (left ++ sep :: right) = some (left, right) := by
  induction left with
  | nil =>
    show (if sep = sep then _ else _) = _
    rw [if_pos rfl]
  | cons c left ih =>
    have hne : c ≠ sep := fun heq => h (heq ▸ List.mem_cons_self)
    have hleft : sep ∉ left := fun hmem => h (List.mem_cons_of_mem c hmem)
    show (if c = sep then _ else Option.map _ (splitOnce sep (left ++ sep :: right))) = _
    rw [if_neg hne, ih hleft, Option.map_some]

theorem isDigit_of_mem_digits {n : Nat} {c : Char} (hc : c ∈ Nat.toDigits 10 n) : c.isDigit = true :=
  Nat.isDigit_of_mem_toDigits (by decide) (by decide) hc

theorem dash_notMem_digits (n : Nat) : '-' ∉ Nat.toDigits 10 n := by
  intro h
  have hdigit := isDigit_of_mem_digits h
  revert hdigit
  decide

/-- A number is read back from its digits. -/
theorem parseU64_digits (n : UInt64) : parseU64 (Nat.toDigits 10 n.toNat) = some n := by
  cases hdigits : Nat.toDigits 10 n.toNat with
  | nil => exact absurd hdigits Nat.toDigits_ne_nil
  | cons c rest =>
    have hall : ∀ d ∈ c :: rest, d.isDigit = true := fun d hd =>
      isDigit_of_mem_digits (hdigits ▸ hd)
    -- A digit is no sign.
    have hplus : c ≠ '+' := by
      rintro rfl
      have hdigit := hall '+' List.mem_cons_self
      revert hdigit
      decide
    have hunsigned : (match c :: rest with
        | '+' :: rest => rest
        | _ => c :: rest) = c :: rest := by
      split
      · next heq =>
        obtain ⟨rfl, -⟩ := List.cons.inj heq
        exact absurd rfl hplus
      · rfl
    have hvalue : Nat.ofDigitChars 10 (c :: rest) 0 = n.toNat := by
      rw [← hdigits, Nat.ofDigitChars_ten_toDigits]
    unfold parseU64
    rw [hunsigned]
    have hdigit : ((c :: rest).isEmpty || !(c :: rest).all Char.isDigit) = false := by
      rw [List.all_eq_true.mpr hall]
      rfl
    simp only [hdigit, hvalue, Bool.false_eq_true, if_false, n.toNat_lt, if_true,
      UInt64.ofNat_toNat]

theorem toList_fsToken (space : String) (session sequence : UInt64) :
    (fsToken space session sequence).toList = space.toList ++ (['-'] ++
      (Nat.toDigits 10 session.toNat ++ '-' :: Nat.toDigits 10 sequence.toNat)) := by
  have hdash : "-".toList = ['-'] := rfl
  unfold fsToken
  rw [Nat.toString_eq_ofList_toDigits, Nat.toString_eq_ofList_toDigits]
  simp only [String.toList_append, String.toList_ofList, hdash, List.append_assoc,
    List.cons_append, List.nil_append]

/-- **A token is read back** by its own session, and by no other. -/
theorem fsTokenSequence_fsToken (space : String) (session sequence expected : UInt64) :
    fsTokenSequence (fsToken space session sequence) space expected
      = if session = expected then some sequence else none := by
  have hsplit : splitOnce '-'
      (Nat.toDigits 10 session.toNat ++ '-' :: Nat.toDigits 10 sequence.toNat) =
        some (Nat.toDigits 10 session.toNat, Nat.toDigits 10 sequence.toNat) :=
    splitOnce_append (dash_notMem_digits session.toNat)
  unfold fsTokenSequence
  rw [toList_fsToken, stripStart_append, Option.bind_eq_bind, Option.bind_some, stripStart_append,
    Option.bind_eq_bind, Option.bind_some, hsplit]
  simp only [Option.bind_eq_bind, Option.bind_some, parseU64_digits]

end Fs

end Waitprims
