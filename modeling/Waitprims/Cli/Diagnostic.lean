import Mathlib
import Waitprims.Core.Reserialize
import Waitprims.Core.SelectSchema
import Waitprims.Core.IntegerCheck
import Waitprims.Async.Coalesce

/-! # The diagnostic records of the command line

A held session is printed as JSON lines: one record for every burst the runner handed over, numbered
from one, and a last one for how the session ended. The records carry a `diagnostic_type` and are no
messages of the wire contract.

* **`structValue`**, **`compactJson`** — values as `serde_json` builds and writes them.
* **`burstValue`**, **`endValue`** — the records.
* **`spells_compactJson`** — a record is read back as the value it was written from.
* **`diagnostic_refused`** — and it is refused as a message. -/

namespace Waitprims

namespace Cli

open Jcs (commas memberText stringText insertMember)
open Follow (FollowEnd TerminalArmKind)

/-! ## Values -/

/-- A field of a struct that is turned into a value: its name, and its value unless it is skipped. -/
abbrev ValueField := String × Option Json

/-- The object of a struct: its fields are inserted into a map in key order. -/
def structValue (fields : List ValueField) : Json :=
  .obj (fields.foldl (fun members field =>
    field.2.elim members fun value => insertMember field.1 value members) [])

/-- The name of an anchor kind. -/
def anchorKindText : AnchorKind → String
  | .providerOpaque => "provider_opaque"

/-- The name of a digest algorithm. -/
def digestAlgorithmText : DigestAlgorithm → String
  | .sha256 => "sha256"

/-- The name of a replay status. -/
def replayStatusText : ReplayStatus → String
  | .fresh => "fresh"
  | .replay => "replay"

/-- `Anchor`. -/
def anchorValue (x : Anchor) : Json :=
  structValue [("kind", some (.str (anchorKindText x.kind))), ("value", some (.str x.value))]

/-- `ContentDigest`. -/
def contentDigestValue (x : ContentDigest) : Json :=
  structValue [("algorithm", some (.str (digestAlgorithmText x.algorithm))),
    ("value", some (.str x.value))]

/-- `PayloadRef`. -/
def payloadRefValue (x : PayloadRef) : Json :=
  structValue [("payload_ref", some (.str x.payloadRef)),
    ("content_digest", some (contentDigestValue x.contentDigest)),
    ("media_type", x.mediaType.map .str)]

/-- `WaitEvent`. -/
def waitEventValue (x : WaitEvent) : Json :=
  structValue [("event_id", some (.str x.eventId)), ("registration_id", some (.str x.registrationId)),
    ("source_instance_ref", some (.str x.sourceInstanceRef)), ("method_id", some (.str x.methodId)),
    ("subject_kind", some (.str x.subjectKind)), ("subject_id", some (.str x.subjectId)),
    ("occurred_at", some (.str x.occurredAt.raw)), ("observed_at", some (.str x.observedAt.raw)),
    ("start_anchor", some (anchorValue x.startAnchor)),
    ("proposed_next_anchor", some (anchorValue x.proposedNextAnchor)),
    ("replay_status", some (.str (replayStatusText x.replayStatus))),
    ("correlation_id", some (.str x.correlationId)), ("causation_id", x.causationId.map .str),
    ("payload", some (payloadRefValue x.payload)), ("delivery_ref", x.deliveryRef.map .str),
    ("activation_ref", x.activationRef.map .str)]

/-- The record of a burst, under its kind and its number. -/
def burstValue (kind : String) (sequence : UInt64) (events : List WaitEvent) : Json :=
  structValue [("diagnostic_type", some (.str kind)),
    ("sequence", some (.num (.int sequence.toNat))),
    ("events", some (.arr (events.map waitEventValue)))]

/-- `terminal_kind_str`. -/
def terminalKindText : TerminalArmKind → String
  | .overflow => "overflow"
  | .failed => "failed"
  | .outage => "outage"
  | .cursorUncertain => "cursor_uncertain"
  | .degraded => "degraded"

/-- The record of an end. -/
def endValue : FollowEnd → Json
  | .deadline => structValue [("diagnostic_type", some (.str "follow_end")),
      ("end_kind", some (.str "deadline"))]
  | .cancel => structValue [("diagnostic_type", some (.str "follow_end")),
      ("end_kind", some (.str "cancel"))]
  | .terminalArm registrationId kind reasonCode =>
    structValue [("diagnostic_type", some (.str "follow_end")),
      ("end_kind", some (.str "terminal_arm")), ("registration_id", some (.str registrationId)),
      ("terminal_kind", some (.str (terminalKindText kind))), ("reason_code", some (.str reasonCode))]

/-! ## Compact JSON -/

section text

-- `float` writes a float; no record has one.
variable (float : Binary64 → List Char)

/-- The text of a number. -/
def compactNumber : Number → List Char
  | .int (.ofNat n) => Serialize.unsigned n
  | .int (.negSucc n) => '-' :: Serialize.unsigned (n + 1)
  | .float x => float x

mutual

/-- `compact_json`: the members of an object in the order of its map. -/
def compactJson : Json → List Char
  | .null => ['n', 'u', 'l', 'l']
  | .bool b => Serialize.boolean b
  | .num n => compactNumber float n
  | .str s => stringText s
  | .arr items => '[' :: (commas (compactItems items) ++ [']'])
  | .obj members => '{' :: (commas (compactMembers members) ++ ['}'])

/-- The elements of an array. -/
def compactItems : List Json → List (List Char)
  | [] => []
  | item :: items => compactJson item :: compactItems items

/-- The members of an object. -/
def compactMembers : List (String × Json) → List (List Char)
  | [] => []
  | (key, value) :: members => memberText key (compactJson value) :: compactMembers members

end

/-- `burst_json`. -/
def burstJson (sequence : UInt64) (events : List WaitEvent) : List Char :=
  compactJson float (burstValue "follow_burst" sequence events)

/-- `coalesce_burst_json`. -/
def coalesceBurstJson (sequence : UInt64) (events : List WaitEvent) : List Char :=
  compactJson float (burstValue "coalesce_burst" sequence events)

/-- `end_json`. -/
def endJson (ended : FollowEnd) : List Char := compactJson float (endValue ended)

theorem compactItems_eq (items : List Json) :
    compactItems float items = items.map (compactJson float) := by
  induction items with
  | nil => rfl
  | cons item items ih =>
    unfold compactItems
    rw [ih, List.map_cons]

/-- The text of a member. -/
def compactMember (p : String × Json) : List Char := memberText p.1 (compactJson float p.2)

theorem compactMembers_eq (members : List (String × Json)) :
    compactMembers float members = members.map (compactMember float) := by
  induction members with
  | nil => rfl
  | cons p members ih =>
    obtain ⟨key, value⟩ := p
    unfold compactMembers
    rw [ih, List.map_cons]
    rfl

end text

/-! ## Records are plain values -/

/-- A natural number. -/
def IsNatural (n : Number) : Prop := ∃ k : ℕ, n = .int k

/-- A value as the records have them: its objects are in key order and its numbers are exact
natural ones. -/
structure Plain (v : Json) : Prop where
  parsed : v.Parsed
  naturals : v.AllNumbers IsNatural

theorem plain_str (s : String) : Plain (.str s) := ⟨.str s, .str s⟩

theorem plain_arr {items : List Json} (h : ∀ v ∈ items, Plain v) : Plain (.arr items) :=
  ⟨.arr fun v hv => (h v hv).parsed, .arr fun v hv => (h v hv).naturals⟩

/-- The members of a struct: those of the map before, and its fields. -/
theorem fold_members {T : Json → Prop} {fields : List ValueField}
    (h : ∀ field ∈ fields, ∀ v ∈ field.2, T v) {members : List (String × Json)}
    (hmembers : ∀ p ∈ members, T p.2) :
    ∀ p ∈ fields.foldl (fun members field =>
      field.2.elim members fun value => insertMember field.1 value members) members, T p.2 := by
  induction fields generalizing members with
  | nil => exact hmembers
  | cons field fields ih =>
    rw [List.foldl_cons]
    refine ih (fun f hf => h f (List.mem_cons_of_mem _ hf)) ?_
    cases hfield : field.2 with
    | none => exact hmembers
    | some value =>
      intro p hp
      rcases Contract.mem_insertMember hp with rfl | hp
      · exact h field List.mem_cons_self value (by rw [hfield]; exact rfl)
      · exact hmembers p hp

/-- They are in key order. -/
theorem fold_sorted (fields : List ValueField) {members : List (String × Json)}
    (hsorted : members.Pairwise fun a b => a.1 < b.1) :
    (fields.foldl (fun members field =>
      field.2.elim members fun value => insertMember field.1 value members) members).Pairwise
        fun a b => a.1 < b.1 := by
  induction fields generalizing members with
  | nil => exact hsorted
  | cons field fields ih =>
    rw [List.foldl_cons]
    refine ih ?_
    cases field.2 with
    | none => exact hsorted
    | some value => exact Contract.insertMember_pairwise hsorted

theorem naturals_struct {fields : List ValueField}
    (h : ∀ field ∈ fields, ∀ v ∈ field.2, Json.AllNumbers IsNatural v) :
    (structValue fields).AllNumbers IsNatural :=
  .obj (fold_members h (by simp))

theorem plain_struct {fields : List ValueField} (h : ∀ field ∈ fields, ∀ v ∈ field.2, Plain v) :
    Plain (structValue fields) where
  parsed := .obj (fold_sorted fields List.Pairwise.nil)
    (fold_members (fun field hfield v hv => (h field hfield v hv).parsed) (by simp))
  naturals := naturals_struct fun field hfield v hv => (h field hfield v hv).naturals

/-- A field with a text that may be left out. -/
theorem plain_optional {text : Option String} : ∀ v ∈ text.map Json.str, Plain v := by
  intro v hv
  obtain ⟨s, -, rfl⟩ := Option.map_eq_some_iff.mp hv
  exact plain_str s

theorem plain_anchor (x : Anchor) : Plain (anchorValue x) :=
  plain_struct (by simp [plain_str])

theorem plain_contentDigest (x : ContentDigest) : Plain (contentDigestValue x) :=
  plain_struct (by simp [plain_str])

theorem plain_payloadRef (x : PayloadRef) : Plain (payloadRefValue x) := by
  refine plain_struct ?_
  simp only [List.forall_mem_cons]
  exact ⟨by simp [plain_str], by simp [plain_contentDigest], plain_optional, by simp⟩

theorem plain_waitEvent (x : WaitEvent) : Plain (waitEventValue x) := by
  refine plain_struct ?_
  simp [plain_str, plain_anchor, plain_payloadRef]

/-- The record of a burst is plain up to the largest integer that a float holds exactly. -/
theorem plain_burst {kind : String} {sequence : UInt64} {events : List WaitEvent}
    (h : (Number.int sequence.toNat).Parsed) : Plain (burstValue kind sequence events) := by
  have hevents : Plain (.arr (events.map waitEventValue)) := by
    refine plain_arr fun v hv => ?_
    obtain ⟨event, -, rfl⟩ := List.mem_map.mp hv
    exact plain_waitEvent event
  have hsequence : Plain (.num (.int sequence.toNat)) := ⟨.num h, .num ⟨_, rfl⟩⟩
  exact plain_struct (by simp [plain_str, hevents, hsequence])

theorem plain_end (ended : FollowEnd) : Plain (endValue ended) := by
  cases ended with
  | deadline => exact plain_struct (by simp [plain_str])
  | cancel => exact plain_struct (by simp [plain_str])
  | terminalArm registrationId kind reasonCode => exact plain_struct (by simp [plain_str])

/-! ## Records are read back -/

/-- **A plain value is read back** from its text, whatever follows. -/
theorem spells_compactJson (float : Binary64 → List Char) {v : Json} (h : Plain v) :
    Spells (compactJson float v) v := by
  obtain ⟨hparsed, hnaturals⟩ := h
  induction v using Json.ind with
  | hnull => exact fun r => JsonText.Value.null
  | hbool b => exact Serialize.spells_boolean b
  | hnum n =>
    cases hparsed with
    | num hn =>
      cases hnaturals with
      | num hnatural =>
        obtain ⟨k, rfl⟩ := hnatural
        exact Serialize.spells_unsigned hn
  | hstr s => exact Serialize.spells_text s
  | harr items ih =>
    cases hparsed with
    | arr hitems =>
      cases hnaturals with
      | arr hnatural =>
        have hall : Spells (Serialize.seq (compactJson float) items)
            (.arr (items.map id)) :=
          Serialize.spells_arr fun v hv => ih v hv (hitems v hv) (hnatural v hv)
        rw [List.map_id] at hall
        unfold compactJson
        rw [compactItems_eq]
        exact hall
  | hobj members ih =>
    cases hparsed with
    | obj hsorted hmembers =>
      cases hnaturals with
      | obj hnatural =>
        -- the members are written in the order they have, which is that of their names
        have hall := @Serialize.spells_obj members
          (members.map fun p => (p.1, compactJson float p.2, p.2)) ?_ ?_ ?_ hsorted
        · unfold compactJson
          rw [compactMembers_eq]
          rw [List.map_map] at hall
          exact hall
        · intro q hq
          obtain ⟨p, hp, rfl⟩ := List.mem_map.mp hq
          exact ih p hp (hmembers p hp) (hnatural p hp)
        · rw [List.map_map]
          exact Json.nodup_of_sorted hsorted
        · intro k v
          constructor
          · intro hmem
            exact ⟨_, List.mem_map.mpr ⟨(k, v), hmem, rfl⟩⟩
          · rintro ⟨cs, hmem⟩
            obtain ⟨p, hp, heq⟩ := List.mem_map.mp hmem
            obtain ⟨rfl, -, rfl⟩ : p.1 = k ∧ compactJson float p.2 = cs ∧ p.2 = v := by
              simpa using heq
            exact hp

/-- A name that no field has. -/
theorem get_struct_eq_none {fields : List ValueField} {name : String}
    (h : ∀ field ∈ fields, field.1 ≠ name) : (structValue fields).get name = none := by
  have hfold : ∀ {members : List (String × Json)}, Json.lookup name members = none →
      Json.lookup name (fields.foldl (fun members field =>
        field.2.elim members fun value => insertMember field.1 value members) members) = none := by
    induction fields with
    | nil => exact fun hnone => hnone
    | cons field fields ih =>
      intro members hnone
      rw [List.foldl_cons]
      refine ih (fun f hf => h f (List.mem_cons_of_mem _ hf)) ?_
      cases hfield : field.2 with
      | none => exact hnone
      | some value =>
        rw [Option.elim_some, Contract.lookup_insertMember,
          if_neg fun heq => h field List.mem_cons_self heq.symm]
        exact hnone
  exact hfold rfl

/-- A plain value without a `message_type` is refused as a message. -/
theorem refused_of_plain (float : Binary64 → List Char) (digest : Json → Option String) {v : Json}
    (hplain : Plain v) (hkind : v.get "message_type" = none) :
    Validate.validateMessage digest (String.ofList (compactJson float v))
      = .error (.contract (validationError "/message_type" "required")) := by
  have hrequired : Validate.rejectUndeclaredKind v
      = .error (validationError "/message_type" "required") := by
    unfold Validate.rejectUndeclaredKind SetRules.messageType Json.strField
    rw [hkind]
    rfl
  rw [Validate.validateMessage_of_parse digest
    (parseStrict_of_spells (spells_compactJson float hplain))]
  unfold Validate.validateDocuments
  rw [List.mapM_cons]
  unfold Validate.validateDocument
  rw [hrequired]
  rfl

/-- **No record is admitted as a message.** -/
theorem burst_refused (float : Binary64 → List Char) (digest : Json → Option String) {kind : String}
    {sequence : UInt64} {events : List WaitEvent} (h : (Number.int sequence.toNat).Parsed) :
    Validate.validateMessage digest (String.ofList (compactJson float (burstValue kind sequence events)))
      = .error (.contract (validationError "/message_type" "required")) :=
  refused_of_plain float digest (plain_burst h) (get_struct_eq_none (by simp))

theorem end_refused (float : Binary64 → List Char) (digest : Json → Option String)
    (ended : FollowEnd) :
    Validate.validateMessage digest (String.ofList (endJson float ended))
      = .error (.contract (validationError "/message_type" "required")) := by
  refine refused_of_plain float digest (plain_end ended) ?_
  cases ended with
  | deadline => exact get_struct_eq_none (by simp)
  | cancel => exact get_struct_eq_none (by simp)
  | terminalArm registrationId kind reasonCode => exact get_struct_eq_none (by simp)

end Cli

end Waitprims
