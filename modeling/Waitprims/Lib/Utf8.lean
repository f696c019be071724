import Mathlib

/-! # UTF-8 as lists of bytes

The encoding of a list of characters, one character at a time: an ASCII character is its own byte,
and the first byte of any other is not ASCII. So a reader that compares bytes with ASCII characters
reads characters.

* **`encode cs`** — the bytes of the characters.
* **`encode_ascii`**, **`encode_high`** — the two kinds of first byte.
* **`decode_encode`** — the decoder of the core library gives the characters back.
* **`Agree p q`** — a test of bytes and a test of characters agree, so they cut an encoding at the
  same place. -/

namespace Utf8

/-- The bytes of a list of characters. -/
def encode (cs : List Char) : List UInt8 := cs.flatMap String.utf8EncodeChar

/-- A character of one byte. -/
def IsAscii (c : Char) : Prop := c.toNat < 0x80

instance (c : Char) : Decidable (IsAscii c) := inferInstanceAs (Decidable (c.toNat < 0x80))

@[simp] theorem encode_nil : encode [] = [] := rfl

theorem encode_cons (c : Char) (cs : List Char) :
    encode (c :: cs) = String.utf8EncodeChar c ++ encode cs := rfl

/-- An ASCII character is one byte. -/
theorem encode_ascii {c : Char} (h : IsAscii c) (cs : List Char) :
    encode (c :: cs) = c.toUInt8 :: encode cs := by
  have hle : c.val.toNat ≤ 0x7f := Nat.le_of_lt_succ h
  rw [encode_cons]
  unfold String.utf8EncodeChar
  simp only [if_pos hle, List.cons_append, List.nil_append, List.cons.injEq, and_true]
  rfl

/-- The first byte of any other character is not ASCII. -/
theorem encode_high {c : Char} (h : ¬ IsAscii c) (cs : List Char) :
    ∃ b rest, encode (c :: cs) = b :: rest ∧ 0x80 ≤ b.toNat := by
  have hlt : ¬ c.val.toNat ≤ 0x7f := fun hle => h (Nat.lt_succ_of_le hle)
  rw [encode_cons]
  unfold String.utf8EncodeChar
  simp only [if_neg hlt]
  split
  · refine ⟨_, _, rfl, ?_⟩
    rw [UInt8.toNat_ofNat']
    omega
  · split
    · refine ⟨_, _, rfl, ?_⟩
      rw [UInt8.toNat_ofNat']
      omega
    · refine ⟨_, _, rfl, ?_⟩
      rw [UInt8.toNat_ofNat']
      omega

/-- Dropping the bytes of a character leaves the bytes of the others. -/
theorem drop_encode (c : Char) (cs : List Char) :
    (encode (c :: cs)).drop c.utf8Size = encode cs := by
  rw [encode_cons, ← String.length_utf8EncodeChar c]
  exact List.drop_left

/-- A character takes at least one byte. -/
theorem length_le_encode (cs : List Char) : cs.length ≤ (encode cs).length := by
  induction cs with
  | nil => exact Nat.le_refl 0
  | cons c cs ih =>
    rw [encode_cons, List.length_append, List.length_cons, String.length_utf8EncodeChar]
    have := c.utf8Size_pos
    omega

/-- The decoder reads the characters back. -/
theorem decode_encode (cs : List Char) :
    (encode cs).toByteArray.utf8Decode? = some cs.toArray :=
  List.utf8Decode?_utf8Encode

/-- The bytes tell the characters. -/
theorem encode_injective {cs ds : List Char} (h : encode cs = encode ds) : cs = ds := by
  have hdecode := decode_encode cs
  rw [h, decode_encode] at hdecode
  simpa using hdecode.symm

/-- The bytes of a string are those of its characters. -/
theorem encode_toList (s : String) : s.toByteArray.data.toList = encode s.toList := by
  have h : s.toList.utf8Encode = s.toByteArray := String.utf8Encode_toList
  rw [← h]
  unfold List.utf8Encode encode
  rw [List.data_toByteArray]

/-! ## Comparisons with ASCII characters -/

/-- The number of an ASCII character's byte. -/
theorem toNat_toUInt8 {c : Char} (hc : IsAscii c) : c.toUInt8.toNat = c.toNat := by
  have hn : c.toUInt8.toNat = c.toNat % 256 := rfl
  unfold IsAscii at hc
  omega

/-- ASCII characters with one byte are the same. -/
theorem toUInt8_eq_iff {c a : Char} (hc : IsAscii c) (ha : IsAscii a) :
    c.toUInt8 = a.toUInt8 ↔ c = a := by
  constructor
  · intro h
    have hn : c.toUInt8.toNat = a.toUInt8.toNat := congrArg UInt8.toNat h
    rw [toNat_toUInt8 hc, toNat_toUInt8 ha] at hn
    exact Char.toNat_inj.mp hn
  · rintro rfl
    rfl

/-- A byte that is not ASCII is no ASCII character's. -/
theorem high_ne {b : UInt8} {a : Char} (hb : 0x80 ≤ b.toNat) (ha : IsAscii a) :
    b ≠ a.toUInt8 := by
  rintro rfl
  rw [toNat_toUInt8 ha] at hb
  unfold IsAscii at ha
  omega

/-- The byte of an ASCII character is at the front where the character is. -/
theorem head?_encode_iff {a : Char} (ha : IsAscii a) (cs : List Char) :
    (encode cs).head? = some a.toUInt8 ↔ cs.head? = some a := by
  cases cs with
  | nil => simp
  | cons c cs =>
    by_cases hc : IsAscii c
    · rw [encode_ascii hc]
      simp [toUInt8_eq_iff hc ha]
    · obtain ⟨b, rest, he, hb⟩ := encode_high hc cs
      have hne : c ≠ a := by
        rintro rfl
        exact hc ha
      rw [he]
      simp [high_ne hb ha, hne]

/-- Past an ASCII character at the front. -/
theorem drop_one_encode {a : Char} (ha : IsAscii a) {cs : List Char} (h : cs.head? = some a) :
    (encode cs).drop 1 = encode (cs.drop 1) := by
  cases cs with
  | nil => cases h
  | cons c cs =>
    obtain rfl : c = a := by simpa using h
    rw [encode_ascii ha]
    rfl

/-- The bytes of an ASCII text are at the front where its characters are. -/
theorem take_encode_iff {token : List Char} (ht : ∀ a ∈ token, IsAscii a) (cs : List Char) :
    (encode cs).take token.length = token.map Char.toUInt8 ↔ cs.take token.length = token := by
  induction token generalizing cs with
  | nil => simp
  | cons a token ih =>
    have ha : IsAscii a := ht a List.mem_cons_self
    have htail : ∀ b ∈ token, IsAscii b := fun b hb => ht b (List.mem_cons_of_mem _ hb)
    cases cs with
    | nil => simp
    | cons c cs =>
      rw [List.length_cons, List.map_cons, List.take_succ_cons, List.cons.injEq]
      by_cases hc : IsAscii c
      · rw [encode_ascii hc, List.take_succ_cons, List.cons.injEq, toUInt8_eq_iff hc ha,
          ih htail]
      · obtain ⟨b, rest, he, hb⟩ := encode_high hc cs
        have hne : c ≠ a := by
          rintro rfl
          exact hc ha
        rw [he, List.take_succ_cons, List.cons.injEq]
        simp [high_ne hb ha, hne]

/-- Past an ASCII text at the front. -/
theorem drop_encode_of_take {token : List Char} (ht : ∀ a ∈ token, IsAscii a) {cs : List Char}
    (h : cs.take token.length = token) :
    (encode cs).drop token.length = encode (cs.drop token.length) := by
  induction token generalizing cs with
  | nil => rfl
  | cons a token ih =>
    cases cs with
    | nil => cases h
    | cons c cs =>
      rw [List.length_cons, List.take_succ_cons, List.cons.injEq] at h
      obtain ⟨rfl, hrest⟩ := h
      rw [encode_ascii (ht c List.mem_cons_self), List.length_cons, List.drop_succ_cons,
        List.drop_succ_cons]
      exact ih (fun b hb => ht b (List.mem_cons_of_mem _ hb)) hrest

/-- A test of bytes and a test of characters agree, and hold of ASCII only. -/
structure Agree (p : UInt8 → Bool) (q : Char → Bool) : Prop where
  ascii : ∀ c, IsAscii c → p c.toUInt8 = q c
  high : ∀ b : UInt8, 0x80 ≤ b.toNat → p b = false
  wide : ∀ c, ¬ IsAscii c → q c = false

namespace Agree

variable {p : UInt8 → Bool} {q : Char → Bool}

/-- What is left after the front of an encoding. -/
theorem dropWhile_encode (h : Agree p q) (cs : List Char) :
    (encode cs).dropWhile p = encode (cs.dropWhile q) := by
  induction cs with
  | nil => rfl
  | cons c cs ih =>
    by_cases hc : IsAscii c
    · rw [encode_ascii hc, List.dropWhile_cons, List.dropWhile_cons, h.ascii c hc]
      by_cases hq : q c = true
      · rw [if_pos hq, if_pos hq, ih]
      · rw [if_neg hq, if_neg hq, encode_ascii hc]
    · obtain ⟨b, rest, he, hb⟩ := encode_high hc cs
      have hq : ¬ q c = true := by simp [h.wide c hc]
      rw [List.dropWhile_cons, if_neg hq, he, List.dropWhile_cons,
        if_neg (by simp [h.high b hb])]

/-- The front of an encoding. -/
theorem takeWhile_encode (h : Agree p q) (cs : List Char) :
    ((encode cs).takeWhile p).map Char.ofUInt8 = cs.takeWhile q := by
  induction cs with
  | nil => rfl
  | cons c cs ih =>
    by_cases hc : IsAscii c
    · have hback : Char.ofUInt8 c.toUInt8 = c := by
        apply Char.toNat_inj.mp
        exact toNat_toUInt8 hc
      rw [encode_ascii hc, List.takeWhile_cons, List.takeWhile_cons, h.ascii c hc]
      by_cases hq : q c = true
      · rw [if_pos hq, if_pos hq, List.map_cons, ih, hback]
      · rw [if_neg hq, if_neg hq, List.map_nil]
    · obtain ⟨b, rest, he, hb⟩ := encode_high hc cs
      have hq : ¬ q c = true := by simp [h.wide c hc]
      rw [List.takeWhile_cons, if_neg hq, he, List.takeWhile_cons,
        if_neg (by simp [h.high b hb]), List.map_nil]

/-- The first byte of an encoding passes where the first character does. -/
theorem head?_any_encode (h : Agree p q) (cs : List Char) :
    (encode cs).head?.any p = cs.head?.any q := by
  cases cs with
  | nil => rfl
  | cons c cs =>
    by_cases hc : IsAscii c
    · rw [encode_ascii hc]
      exact h.ascii c hc
    · obtain ⟨b, rest, he, hb⟩ := encode_high hc cs
      rw [he]
      simp [h.high b hb, h.wide c hc]

end Agree

/-! ## Where a character starts -/

/-- Any other character starts with a byte of its own kind and continues with high bytes. -/
theorem encodeChar_high {c : Char} (h : ¬ IsAscii c) :
    ∃ b rest, String.utf8EncodeChar c = b :: rest ∧ 0xc0 ≤ b.toNat ∧
      ∀ x ∈ rest, 0x80 ≤ x.toNat := by
  have hlt : ¬ c.val.toNat ≤ 0x7f := fun hle => h (Nat.lt_succ_of_le hle)
  have hmem : ∀ n, 0x80 ≤ n % 256 → 0x80 ≤ (UInt8.ofNat n).toNat := by
    intro n hn
    rwa [UInt8.toNat_ofNat']
  unfold String.utf8EncodeChar
  simp only [if_neg hlt]
  split
  · refine ⟨_, _, rfl, by rw [UInt8.toNat_ofNat']; omega, ?_⟩
    intro x hx
    obtain rfl := List.mem_singleton.mp hx
    exact hmem _ (by omega)
  · split
    · refine ⟨_, _, rfl, by rw [UInt8.toNat_ofNat']; omega, ?_⟩
      intro x hx
      rcases List.mem_cons.mp hx with rfl | hx
      · exact hmem _ (by omega)
      · obtain rfl := List.mem_singleton.mp hx
        exact hmem _ (by omega)
    · refine ⟨_, _, rfl, by rw [UInt8.toNat_ofNat']; omega, ?_⟩
      intro x hx
      rcases List.mem_cons.mp hx with rfl | hx
      · exact hmem _ (by omega)
      · rcases List.mem_cons.mp hx with rfl | hx
        · exact hmem _ (by omega)
        · obtain rfl := List.mem_singleton.mp hx
          exact hmem _ (by omega)

/-- A byte that starts a character. -/
def StartsChar (b : UInt8) : Prop := b.toNat < 0x80 ∨ 0xc0 ≤ b.toNat

/-- The bytes of a text start with the start of a character. -/
theorem startsChar_head (cs : List Char) : ∀ b, (encode cs)[0]? = some b → StartsChar b := by
  intro b hb
  cases cs with
  | nil => cases hb
  | cons c cs =>
    by_cases hc : IsAscii c
    · rw [encode_ascii hc] at hb
      obtain rfl := Option.some.inj hb
      left
      rw [toNat_toUInt8 hc]
      exact hc
    · obtain ⟨b', rest, he, hhigh, _⟩ := encodeChar_high hc
      rw [encode_cons, he] at hb
      obtain rfl := Option.some.inj hb
      exact Or.inr hhigh

/-- **After an ASCII byte a character starts.** -/
theorem startsChar_after {cs : List Char} {i : ℕ} {a b : UInt8} (ha : (encode cs)[i]? = some a)
    (hascii : a.toNat < 0x80) (hb : (encode cs)[i + 1]? = some b) : StartsChar b := by
  induction cs generalizing i with
  | nil => cases ha
  | cons c cs ih =>
    by_cases hc : IsAscii c
    · rw [encode_ascii hc] at ha hb
      rw [List.getElem?_cons_succ] at hb
      cases i with
      | zero => exact startsChar_head cs b hb
      | succ i =>
        rw [List.getElem?_cons_succ] at ha
        exact ih ha hb
    · obtain ⟨b', rest, he, hhigh, hrest⟩ := encodeChar_high hc
      rw [encode_cons] at ha hb
      by_cases hi : i < (String.utf8EncodeChar c).length
      · -- The bytes of this character are high, so none of them is the ASCII byte.
        rw [List.getElem?_append_left hi] at ha
        have hmem : a ∈ b' :: rest := he ▸ List.mem_of_getElem? ha
        have hge : 0x80 ≤ a.toNat := by
          rcases List.mem_cons.mp hmem with rfl | hmem
          · omega
          · exact hrest a hmem
        omega
      · rw [List.getElem?_append_right (by omega)] at ha hb
        rw [Nat.succ_sub (by omega)] at hb
        exact ih ha hb

end Utf8
