import Mathlib
import Waitprims.Lib.Utf8
import Waitprims.Cli.Diagnostic

/-! # JSON lines

A record is written on a line of its own, and its sequence number counts only once the line is out.
No record has a control character, so a newline always ends one, and what was written is read back
line by line.

* **`Writer`** — where the lines go; what a failed write leaves is a part of what it was given.
* **`JsonlSink`** — the sink of the command line, `writeRecord` its one way to write.
* **`Printed`** — what has been written, and the number that is next.
* **`records_read_back`** — the lines of a session are its records. -/

namespace Waitprims

namespace Cli

open Jcs (commas memberText stringText)
open Follow (FollowEnd)

/-! ## No record has a newline -/

/-- No control character. -/
def Printable (cs : List Char) : Prop := ∀ c ∈ cs, 0x20 ≤ c.toNat

section printable

variable {cs ds : List Char}

/-- A fixed text is checked character by character. -/
theorem printable_of_all (h : (cs.all fun c => decide (0x20 ≤ c.toNat)) = true) : Printable cs :=
  fun c hc => of_decide_eq_true (List.all_eq_true.mp h c hc)

theorem Printable.append (h : Printable cs) (h' : Printable ds) : Printable (cs ++ ds) :=
  fun c hc => (List.mem_append.mp hc).elim (h c) (h' c)

theorem Printable.cons {c : Char} (hc : 0x20 ≤ c.toNat) (h : Printable cs) : Printable (c :: cs) :=
  fun d hd => (List.mem_cons.mp hd).elim (fun heq => heq ▸ hc) (h d)

theorem printable_commas {pieces : List (List Char)} (h : ∀ piece ∈ pieces, Printable piece) :
    Printable (commas pieces) := by
  induction pieces with
  | nil =>
    intro c hc
    cases hc
  | cons piece pieces ih =>
    have hpiece := h piece List.mem_cons_self
    have hrest := ih fun p hp => h p (List.mem_cons_of_mem _ hp)
    cases pieces with
    | nil => exact hpiece
    | cons next rest => exact hpiece.append (hrest.cons (by decide))

theorem printable_digits (n : Nat) : Printable (Nat.toDigits 10 n) := by
  intro c hc
  have hdigit : c.isDigit = true := Nat.isDigit_of_mem_toDigits (by decide) (by decide) hc
  rw [Char.isDigit, Bool.and_eq_true, decide_eq_true_iff, decide_eq_true_iff] at hdigit
  have hle : 48 ≤ c.toNat := hdigit.1
  omega

/-- A control character is escaped. -/
theorem printable_escapeText (c : Char) : Printable (Jcs.escapeText c) := by
  have hhex : ∀ n < 0x20, (('\\' :: 'u' :: Jcs.hex4Text n).all
      fun c => decide (0x20 ≤ c.toNat)) = true := by
    decide +kernel
  unfold Jcs.escapeText
  split_ifs with _ _ _ _ _ _ _ hcontrol
  · exact printable_of_all (by decide)
  · exact printable_of_all (by decide)
  · exact printable_of_all (by decide)
  · exact printable_of_all (by decide)
  · exact printable_of_all (by decide)
  · exact printable_of_all (by decide)
  · exact printable_of_all (by decide)
  · exact printable_of_all (hhex _ hcontrol)
  · intro d hd
    rw [List.mem_singleton.mp hd]
    omega

theorem printable_stringText (s : String) : Printable (stringText s) := by
  refine Printable.cons (by decide) (Printable.append ?_ ?_)
  · intro c hc
    obtain ⟨d, -, hd⟩ := List.mem_flatMap.mp hc
    exact printable_escapeText d c hd
  · exact printable_of_all (by decide)

/-- **The text of a plain value** has no control character. -/
theorem printable_compactJson (float : Binary64 → List Char) {v : Json}
    (h : v.AllNumbers IsNatural) : Printable (compactJson float v) := by
  have hbracket : ∀ {cs : List Char} {c : Char}, 0x20 ≤ c.toNat → Printable cs →
      Printable (cs ++ [c]) := by
    intro cs c hc hcs
    refine hcs.append fun d hd => ?_
    rw [List.mem_singleton.mp hd]
    exact hc
  induction v using Json.ind with
  | hnull => exact printable_of_all rfl
  | hbool b =>
    cases b with
    | true => exact printable_of_all rfl
    | false => exact printable_of_all rfl
  | hnum n =>
    cases h with
    | num hnatural =>
      obtain ⟨k, rfl⟩ := hnatural
      exact printable_digits k
  | hstr s => exact printable_stringText s
  | harr items ih =>
    cases h with
    | arr hitems =>
      unfold compactJson
      rw [compactItems_eq]
      refine Printable.cons (by decide) (hbracket (by decide) (printable_commas ?_))
      intro piece hpiece
      obtain ⟨v, hv, rfl⟩ := List.mem_map.mp hpiece
      exact ih v hv (hitems v hv)
  | hobj members ih =>
    cases h with
    | obj hmembers =>
      unfold compactJson
      rw [compactMembers_eq]
      refine Printable.cons (by decide) (hbracket (by decide) (printable_commas ?_))
      intro piece hpiece
      obtain ⟨p, hp, rfl⟩ := List.mem_map.mp hpiece
      exact (printable_stringText p.1).append ((ih p hp (hmembers p hp)).cons (by decide))

end printable

/-! ## Lines -/

/-- The byte that ends a line. -/
def newline : UInt8 := 10

/-- A line with its end. -/
def record (line : List Char) : List UInt8 := Utf8.encode line ++ [newline]

/-- The bytes of printable text hold no newline. -/
theorem newline_notMem_encode {cs : List Char} (h : Printable cs) : newline ∉ Utf8.encode cs := by
  intro hmem
  obtain ⟨c, hc, hbyte⟩ := List.mem_flatMap.mp hmem
  by_cases hascii : Utf8.IsAscii c
  · have hone := Utf8.encode_ascii hascii []
    rw [Utf8.encode_cons, Utf8.encode_nil, List.append_nil] at hone
    rw [hone, List.mem_singleton] at hbyte
    have hvalue := congrArg UInt8.toNat hbyte
    rw [Utf8.toNat_toUInt8 hascii] at hvalue
    have hspace := h c hc
    rw [← hvalue] at hspace
    revert hspace
    decide
  · obtain ⟨b, rest, hbytes, hb, hrest⟩ := Utf8.encodeChar_high hascii
    have hsmall : newline.toNat = 10 := rfl
    rw [hbytes] at hbyte
    rcases List.mem_cons.mp hbyte with heq | htail
    · rw [← heq] at hb
      omega
    · have hhigh := hrest newline htail
      omega

/-- **Lines are split again at their ends**, whatever follows them. -/
theorem splitOn_records {lines : List (List Char)} (h : ∀ line ∈ lines, Printable line)
    (tail : List UInt8) :
    (lines.flatMap record ++ tail).splitOn newline
      = lines.map Utf8.encode ++ tail.splitOn newline := by
  induction lines with
  | nil => rfl
  | cons line lines ih =>
    have hline : (Utf8.encode line).splitOnP (· == newline) = [Utf8.encode line] := by
      refine List.splitOnP_eq_singleton fun b hb => ?_
      rw [beq_eq_false_iff_ne]
      rintro rfl
      exact newline_notMem_encode (h line List.mem_cons_self) hb
    have hrest := ih fun l hl => h l (List.mem_cons_of_mem _ hl)
    rw [List.flatMap_cons, record, List.append_assoc, List.append_assoc, List.singleton_append]
    unfold List.splitOn at hrest ⊢
    rw [List.splitOnP_append_cons _ _ (by simp), hline, hrest]
    rfl

/-! ## Sequence numbers -/

/-- Floats hold the natural numbers below `2 ^ 53`. -/
theorem isBinary64_natCast {n : ℕ} (h : n < 2 ^ 53) : IsBinary64 n := by
  have hlimit : 1076 * 2 ^ 52 < 2 ^ 63 ∧ 1076 * 2 ^ 52 < Binary64.infinity := by
    norm_num [Binary64.infinity]
  obtain ⟨m, hm, hvalue⟩ : ∃ m < 1076 * 2 ^ 52, Binary64.format.value m = n := by
    rcases Nat.eq_zero_or_pos n with rfl | hpos
    · exact ⟨0, by norm_num, by simp⟩
    -- shift the number until its leading bit stands at place 52
    set k := 52 - Nat.log 2 n with hk
    have hlog : Nat.log 2 n ≤ 52 := by
      have hlt := Nat.log_lt_of_lt_pow hpos.ne' h
      omega
    have hsplit : Nat.log 2 n + k = 52 := by omega
    have hlow : 2 ^ 52 ≤ n * 2 ^ k := by
      calc 2 ^ 52 = 2 ^ Nat.log 2 n * 2 ^ k := by rw [← pow_add, hsplit]
        _ ≤ n * 2 ^ k := Nat.mul_le_mul_right _ (Nat.pow_log_le_self 2 hpos.ne')
    have hhigh : n * 2 ^ k < 2 ^ 53 := by
      calc n * 2 ^ k < 2 ^ (Nat.log 2 n + 1) * 2 ^ k :=
            Nat.mul_lt_mul_of_pos_right (Nat.lt_pow_succ_log_self (by norm_num) n) (by positivity)
        _ = 2 ^ 53 := by
          rw [← pow_add]
          congr 1
          omega
    have hleast : Binary64.format.leastExponent = -1074 := rfl
    have hencode := Binary64.format.value_encode (e := -(k : ℤ)) (n := n * 2 ^ k)
      (by rw [hleast]; omega) hhigh.le (.inl hlow)
    refine ⟨_, ?_, hencode.trans ?_⟩
    · have hplace : (-(k : ℤ) - Binary64.format.leastExponent).toNat ≤ 1074 := by
        rw [hleast]
        omega
      have hprecision : Binary64.format.precision = 52 := rfl
      rw [hprecision]
      omega
    · push_cast
      rw [mul_assoc, ← zpow_natCast, ← zpow_add₀ (by norm_num)]
      simp
  refine ⟨Binary64.ofMagnitude false m, ?_, ?_⟩
  · unfold Binary64.isFinite
    rw [Binary64.magnitude_ofMagnitude _ (by omega), decide_eq_true_iff]
    omega
  · unfold Binary64.value
    rw [Binary64.isNegative_ofMagnitude _ (by omega), if_neg (by decide),
      Binary64.magnitude_ofMagnitude _ (by omega), hvalue]
    simp

/-- The parser returns them. -/
theorem parsed_natCast {n : ℕ} (h : n < 2 ^ 53) : (Number.int n).Parsed := by
  have hback := (Binary64.toI128_ofInt_iff (i := n) ⟨by omega, by omega⟩).mpr
    (.inl (isBinary64_natCast h))
  exact ⟨⟨by omega, by omega⟩, hback.1, hback.2⟩

/-! ## The records of a session -/

/-- The values of a session: its bursts, numbered from one, and how it ended. -/
def sessionValues (kind : String) (bursts : List (List WaitEvent)) (ended : Option FollowEnd) :
    List Json :=
  (bursts.zipIdx.map fun p => burstValue kind (UInt64.ofNat (p.2 + 1)) p.1) ++
    ended.toList.map endValue

/-- The lines of a session. -/
def sessionLines (float : Binary64 → List Char) (kind : String) (bursts : List (List WaitEvent))
    (ended : Option FollowEnd) : List (List Char) :=
  (sessionValues kind bursts ended).map (compactJson float)

section session

variable {kind : String} {bursts : List (List WaitEvent)} {ended : Option FollowEnd} {v : Json}

/-- The numbers of a record are natural. -/
theorem naturals_burst (sequence : UInt64) (events : List WaitEvent) :
    (burstValue kind sequence events).AllNumbers IsNatural := by
  have hevents : Json.AllNumbers IsNatural (.arr (events.map waitEventValue)) := by
    refine .arr fun v hv => ?_
    obtain ⟨event, -, rfl⟩ := List.mem_map.mp hv
    exact (plain_waitEvent event).naturals
  have hsequence : Json.AllNumbers IsNatural (.num (.int sequence.toNat)) := .num ⟨_, rfl⟩
  exact naturals_struct (by simp [(plain_str kind).naturals, hevents, hsequence])

theorem mem_sessionValues (h : v ∈ sessionValues kind bursts ended) :
    (∃ n < bursts.length, ∃ events, v = burstValue kind (UInt64.ofNat (n + 1)) events) ∨
      ∃ e, v = endValue e := by
  rcases List.mem_append.mp h with h | h
  · obtain ⟨p, hp, rfl⟩ := List.mem_map.mp h
    obtain ⟨-, hlt, -⟩ := List.mem_zipIdx hp
    exact .inl ⟨p.2, by omega, p.1, rfl⟩
  · obtain ⟨e, -, rfl⟩ := List.mem_map.mp h
    exact .inr ⟨e, rfl⟩

theorem printable_session (float : Binary64 → List Char) :
    ∀ line ∈ sessionLines float kind bursts ended, Printable line := by
  intro line hline
  obtain ⟨v, hv, rfl⟩ := List.mem_map.mp hline
  refine printable_compactJson float ?_
  rcases mem_sessionValues hv with ⟨n, -, events, rfl⟩ | ⟨e, rfl⟩
  · exact naturals_burst _ events
  · exact (plain_end e).naturals

/-- **A session is read back from its lines**: what was written splits at the newlines into the
lines, each of them parses to its record, and none is admitted as a message. -/
theorem records_read_back (float : Binary64 → List Char) (digest : Json → Option String)
    (ended : Option FollowEnd) (hcount : bursts.length < 2 ^ 53) (tail : List UInt8) :
    ((sessionLines float kind bursts ended).flatMap record ++ tail).splitOn newline
        = (sessionLines float kind bursts ended).map Utf8.encode ++ tail.splitOn newline ∧
      (sessionLines float kind bursts ended).map (fun line => Jcs.parseStrict (String.ofList line))
        = (sessionValues kind bursts ended).map .ok ∧
      ∀ line ∈ sessionLines float kind bursts ended,
        Validate.validateMessage digest (String.ofList line)
          = .error (.contract (validationError "/message_type" "required")) := by
  have hsequence : ∀ n < bursts.length, (Number.int (UInt64.ofNat (n + 1)).toNat).Parsed := by
    intro n hn
    rw [UInt64.toNat_ofNat_of_lt' (by norm_num; omega)]
    exact parsed_natCast (by omega)
  refine ⟨splitOn_records (printable_session float) tail, ?_, fun line hline => ?_⟩
  · unfold sessionLines
    rw [List.map_map]
    refine List.map_congr_left fun v hv => parseStrict_of_spells (spells_compactJson float ?_)
    rcases mem_sessionValues hv with ⟨n, hn, events, rfl⟩ | ⟨e, rfl⟩
    · exact plain_burst (hsequence n hn)
    · exact plain_end e
  · obtain ⟨v, hv, rfl⟩ := List.mem_map.mp hline
    rcases mem_sessionValues hv with ⟨n, hn, events, rfl⟩ | ⟨e, rfl⟩
    · exact burst_refused float digest (hsequence n hn)
    · exact end_refused float digest e

end session

/-! ## The sink -/

/-- `std::io::Write`: what a failed write leaves behind is a part of what it was given. -/
structure Writer (ω : Type) where
  writeAll : List UInt8 → ω → Bool × ω
  flush : ω → Bool × ω
  /-- What has been written. -/
  written : ω → List UInt8
  writeAll_ok : ∀ bytes w, (writeAll bytes w).1 = true →
    written (writeAll bytes w).2 = written w ++ bytes
  writeAll_err : ∀ bytes w, (writeAll bytes w).1 = false →
    ∃ part, part <+: bytes ∧ written (writeAll bytes w).2 = written w ++ part
  flush_written : ∀ w, written (flush w).2 = written w

variable {ω : Type} (out : Writer ω)

/-- `write_record`. -/
def writeRecord (line : List Char) (w : ω) : Except Error Unit × ω :=
  let wrote := out.writeAll (Utf8.encode line) w
  if wrote.1 then
    let ended := out.writeAll [newline] wrote.2
    if ended.1 then
      let flushed := out.flush ended.2
      if flushed.1 then (.ok (), flushed.2) else (.error (.contract "stdout" "write"), flushed.2)
    else (.error (.contract "stdout" "write"), ended.2)
  else (.error (.contract "stdout" "write"), wrote.2)

/-- `JsonlSink`. -/
structure JsonlSink (ω : Type) where
  writer : ω
  sequence : UInt64

namespace JsonlSink

variable (float : Binary64 → List Char)

/-- `JsonlSink::new`. -/
def new (writer : ω) : JsonlSink ω := ⟨writer, 0⟩

/-- `emit_burst` and `emit_coalesce_burst`, which differ in the kind of their records: the number
counts once the record is written. -/
def emitBurst (kind : String) (events : List WaitEvent) (sink : JsonlSink ω) :
    Except Error Unit × JsonlSink ω :=
  let next := sink.sequence + 1
  let wrote := writeRecord out (compactJson float (burstValue kind next events)) sink.writer
  match wrote.1 with
  | .ok _ => (.ok (), ⟨wrote.2, next⟩)
  | .error err => (.error err, ⟨wrote.2, sink.sequence⟩)

/-- `emit_end`. -/
def emitEnd (ended : FollowEnd) (sink : JsonlSink ω) : Except Error Unit × JsonlSink ω :=
  let wrote := writeRecord out (endJson float ended) sink.writer
  (wrote.1, { sink with writer := wrote.2 })

end JsonlSink

/-- **A record is written whole, or a part of it is.** -/
theorem writeRecord_written (line : List Char) (w : ω) :
    ((∃ u, (writeRecord out line w).1 = .ok u) ∧
        out.written (writeRecord out line w).2 = out.written w ++ record line) ∨
      ((∃ err, (writeRecord out line w).1 = .error err) ∧
        ∃ part, part <+: record line ∧
          out.written (writeRecord out line w).2 = out.written w ++ part) := by
  unfold writeRecord
  dsimp only
  by_cases hwrote : (out.writeAll (Utf8.encode line) w).1 = true
  · rw [if_pos hwrote]
    have hline := out.writeAll_ok _ _ hwrote
    by_cases hended : (out.writeAll [newline] (out.writeAll (Utf8.encode line) w).2).1 = true
    · rw [if_pos hended]
      have hrecord := out.writeAll_ok _ _ hended
      rw [hline, List.append_assoc] at hrecord
      split
      · exact .inl ⟨⟨(), rfl⟩, (out.flush_written _).trans hrecord⟩
      · exact .inr ⟨⟨_, rfl⟩, record line, List.prefix_refl _, (out.flush_written _).trans hrecord⟩
    · rw [if_neg hended]
      obtain ⟨part, hpart, hwritten⟩ := out.writeAll_err _ _ (Bool.not_eq_true _ ▸ hended)
      rw [hline, List.append_assoc] at hwritten
      exact .inr ⟨⟨_, rfl⟩, _, (List.prefix_append_right_inj _).mpr hpart, hwritten⟩
  · rw [if_neg hwrote]
    obtain ⟨part, hpart, hwritten⟩ := out.writeAll_err _ _ (Bool.not_eq_true _ ▸ hwrote)
    exact .inr ⟨⟨_, rfl⟩, part, hpart.trans (List.prefix_append _ _), hwritten⟩

/-! ## What has been written -/

/-- The record of the burst with a number. -/
def burstRecord (float : Binary64 → List Char) (kind : String) (n : Nat) (events : List WaitEvent) :
    List UInt8 :=
  record (compactJson float (burstValue kind (UInt64.ofNat (n + 1)) events))

/-- **Bursts that were written**, behind what was there before, and a part of the next record. -/
structure Printed (float : Binary64 → List Char) (kind : String) (before : List UInt8)
    (bursts : List (List WaitEvent)) (part : List UInt8) (sink : JsonlSink ω) : Prop where
  sequence : sink.sequence = UInt64.ofNat bursts.length
  written : out.written sink.writer
    = before ++ (sessionLines float kind bursts none).flatMap record ++ part

variable {out} {float : Binary64 → List Char} {kind : String} {before part : List UInt8}
  {bursts : List (List WaitEvent)} {sink : JsonlSink ω}

/-- One more burst. -/
theorem sessionLines_snoc (events : List WaitEvent) :
    (sessionLines float kind (bursts ++ [events]) none).flatMap record
      = (sessionLines float kind bursts none).flatMap record
        ++ burstRecord float kind bursts.length events := by
  simp [sessionLines, sessionValues, List.zipIdx_append, burstRecord]

/-- The end. -/
theorem sessionLines_ended (ended : FollowEnd) :
    (sessionLines float kind bursts (some ended)).flatMap record
      = (sessionLines float kind bursts none).flatMap record ++ record (endJson float ended) := by
  simp [sessionLines, sessionValues, endJson]

/-- **One burst more**, or a part of its record. -/
theorem Printed.emitBurst (h : Printed out float kind before bursts [] sink)
    (events : List WaitEvent) :
    ((∃ u, (sink.emitBurst out float kind events).1 = .ok u) ∧
        Printed out float kind before (bursts ++ [events]) []
          (sink.emitBurst out float kind events).2) ∨
      ((∃ err, (sink.emitBurst out float kind events).1 = .error err) ∧
        ∃ part, part <+: burstRecord float kind bursts.length events ∧
          Printed out float kind before bursts part (sink.emitBurst out float kind events).2) := by
  have hnext : sink.sequence + 1 = UInt64.ofNat (bursts.length + 1) := by
    rw [h.sequence, UInt64.ofNat_add]
    rfl
  have hwritten := h.written
  rw [List.append_nil] at hwritten
  unfold JsonlSink.emitBurst
  dsimp only
  rw [hnext]
  rcases writeRecord_written out
      (compactJson float (burstValue kind (UInt64.ofNat (bursts.length + 1)) events)) sink.writer with
    ⟨⟨u, hok⟩, hall⟩ | ⟨⟨err, herr⟩, part, hpart, hall⟩
  · rw [hok]
    refine .inl ⟨⟨(), rfl⟩, ?_, ?_⟩
    · rw [List.length_append]
      rfl
    · rw [hall, hwritten, sessionLines_snoc, List.append_nil, List.append_assoc]
      rfl
  · rw [herr]
    exact .inr ⟨⟨err, rfl⟩, part, hpart, h.sequence, by rw [hall, hwritten]⟩

end Cli

end Waitprims
