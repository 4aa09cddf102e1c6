/-
Loading records into a landing table (`src/kafka/load.rs`), and what it makes of the messages of `Producer.lean`.

A column named `_kafka_…` is filled from the record; the others come from the payload: the member of its object, or the
whole payload when there is one such column. `parse` is `serde_json::from_str`, `jsonText` prints a value.

- `rowObject_get`: in the object of a row, each field has its cell.
- `jsonField_valueToJson`: each of the four types is read back as it was written, null included.
- `kafka_round_trip`: the rows of a dataset are the rows loaded from its messages.
-/
import Mathlib.Tactic
import RustDataProcessing.Lib.Traverse
import RustDataProcessing.Kafka.Producer

namespace RustDataProcessing.Kafka

open Polars (ErrorLink)

/-! ## Columns -/

def isMetadataColumn (name : String) : Bool := "_kafka_".toList.isPrefixOf name.toList

def schemaNonMetadataFields (schema : Schema) : List Field := schema.fields.filter fun f => !isMetadataColumn f.name

def kafkaMetadataValue (record : KafkaStreamRecord) (name : String) : IngestionResult Value :=
  if name = "_kafka_topic" then .ok (.utf8 record.topic)
  else if name = "_kafka_partition" then .ok (.int64 record.partition.toInt64)
  else if name = "_kafka_offset" then .ok (.int64 record.offset)
  else if name = "_kafka_timestamp_ms" then .ok (record.timestampMs.elim .null .int64)
  else if name = "_kafka_key" then .ok (record.key.elim .null .utf8)
  else .error (.schemaMismatch s!"unknown kafka metadata column '{name}'")

def stringToValue (s : String) : DataType → IngestionResult Value
  | .utf8 => .ok (.utf8 s)
  | .int64 => match RustStd.parseI64 s with
    | .ok n => .ok (.int64 n)
    | .error e => .error (.schemaMismatch ("kafka value int64 cast failed: " ++ e.text))
  | .float64 => match RustStd.parseF64 s with
    | .ok x => .ok (.float64 x)
    | .error e => .error (.schemaMismatch ("kafka value float64 cast failed: " ++ e.text))
  | .bool => match RustStd.parseBool s with
    | .ok b => .ok (.bool b)
    | .error e => .error (.schemaMismatch ("kafka value bool cast failed: " ++ e))

section Client

variable (parse : String → Option Json) (jsonText : Json → String)

def jsonFieldToValue : Option Json → DataType → IngestionResult Value
  | none, _ => .ok .null
  | some .null, _ => .ok .null
  | some (.number n), .int64 => match (Json.number n).asI64 with
    | some i => .ok (.int64 i)
    | none => .error (.schemaMismatch "expected i64 in kafka value JSON")
  | some (.number n), .float64 => .ok (.float64 ((Json.number n).asF64.getD .nan))
  | some (.bool b), .bool => .ok (.bool b)
  | some (.string s), dt => stringToValue s dt
  | some other, dt => stringToValue (jsonText other) dt

def recordField (record : KafkaStreamRecord) (schema : Schema) (field : Field) : IngestionResult Value :=
  if isMetadataColumn field.name then kafkaMetadataValue record field.name
  else match (parse record.value).bind Json.asObject with
    | some members => jsonFieldToValue jsonText (Json.get members field.name) field.dataType
    | none =>
      if (schemaNonMetadataFields schema).map Field.name = [field.name] then stringToValue record.value field.dataType
      else .ok .null

def recordToRow (record : KafkaStreamRecord) (schema : Schema) : IngestionResult Row :=
  schema.fields.mapM (recordField parse jsonText record schema)

def eltLoadKafkaRecords (records : List KafkaStreamRecord) (landingSchema : Schema) : IngestionResult DataSet :=
  (records.mapM fun record => recordToRow parse jsonText record landingSchema).map fun rows => ⟨landingSchema, rows⟩

end Client

/-! ## The object of a row -/

theorem insertMember_new {members : List (String × Json)} {key : String} (h : key ∉ members.map Prod.fst) (v : Json) :
    insertMember members key v = members ++ [(key, v)] := by
  rw [insertMember, if_neg]
  simp only [List.any_eq_true, decide_eq_true_eq, not_exists, not_and]
  intro m hm hkey
  exact h (hkey ▸ List.mem_map_of_mem hm)

/-- columns with different names are the members of the object, in order -/
theorem foldl_insertMember {cells : List (Field × Value)} {members : List (String × Json)}
    (h : (members.map Prod.fst ++ cells.map fun c => c.1.name).Nodup) :
    cells.foldl (fun members c => insertMember members c.1.name (valueToJson c.2)) members =
      members ++ cells.map fun c => (c.1.name, valueToJson c.2) := by
  induction cells generalizing members with
  | nil => simp
  | cons c cells ih =>
    have hnew : c.1.name ∉ members.map Prod.fst := by
      intro hmem
      have := (List.nodup_append.1 h).2.2 _ hmem _ (List.mem_map_of_mem List.mem_cons_self)
      exact this rfl
    rw [List.foldl_cons, insertMember_new hnew, ih, List.map_cons, List.append_assoc, List.singleton_append]
    simpa using h

theorem lookup_cells {cells : List (Field × Value)} (h : (cells.map fun c => c.1.name).Nodup) {f : Field} {v : Value}
    (hmem : (f, v) ∈ cells) : (cells.map fun c => (c.1.name, valueToJson c.2)).lookup f.name = some (valueToJson v) := by
  induction cells with
  | nil => cases hmem
  | cons c cells ih =>
    rw [List.map_cons, List.nodup_cons] at h
    rw [List.map_cons]
    rcases List.mem_cons.1 hmem with rfl | hmem
    · exact List.lookup_cons_self
    · have hne : f.name ≠ c.1.name := by
        intro heq
        have hin : f.name ∈ cells.map fun c => c.1.name := List.mem_map_of_mem (f := fun c => c.1.name) hmem
        exact h.1 (heq ▸ hin)
      rw [List.lookup_cons, beq_false_of_ne hne]
      exact ih h.2 hmem

/-- the members of the object of a row are its cells, under the columns' names -/
theorem rowObject_eq {schema : Schema} {row : Row} (hnames : schema.fieldNames.Nodup)
    (hlen : row.length = schema.fields.length) :
    ((schema.fields.zip row).map fun c => c.1.name).Nodup ∧
      rowObject schema row = (schema.fields.zip row).map fun c => (c.1.name, valueToJson c.2) := by
  have hcells : ((schema.fields.zip row).map fun c => c.1.name) = schema.fieldNames := by
    have hzip : (schema.fields.zip row).map Prod.fst = schema.fields := by
      rw [List.map_fst_zip]
      omega
    calc (schema.fields.zip row).map (fun c => c.1.name)
        = ((schema.fields.zip row).map Prod.fst).map Field.name := by rw [List.map_map]; rfl
      _ = schema.fieldNames := by rw [hzip]; rfl
  have hnodup : ((schema.fields.zip row).map fun c => c.1.name).Nodup := by rw [hcells]; exact hnames
  refine ⟨hnodup, ?_⟩
  rw [rowObject, foldl_insertMember (by simpa using hnodup), List.nil_append]

/-- in the object of a row, each field has its cell -/
theorem rowObject_get {schema : Schema} {row : Row} (hnames : schema.fieldNames.Nodup)
    (hlen : row.length = schema.fields.length) {f : Field} {v : Value} (hmem : (f, v) ∈ schema.fields.zip row) :
    Json.get (rowObject schema row) f.name = some (valueToJson v) := by
  obtain ⟨hnodup, hobject⟩ := rowObject_eq hnames hlen
  rw [Json.get, hobject]
  exact lookup_cells hnodup hmem

/-! ## One cell -/

theorem asI64_valueToJson (i : Int64) : (valueToJson (.int64 i)).asI64 = some i := by
  have hhigh : i.toInt < 2 ^ 63 := i.toInt_lt
  unfold valueToJson
  dsimp only
  split_ifs with hneg
  · obtain ⟨n, hn⟩ := Int.eq_ofNat_of_zero_le hneg
    have hlt : n < 2 ^ 63 := by omega
    have hword : (UInt64.ofNat n).toNat = n := by
      rw [UInt64.toNat_ofNat', Nat.mod_eq_of_lt (by omega)]
    rw [hn, Int.toNat_natCast, Json.asI64, hword, if_pos hlt]
    congr 1
    rw [← Int64.ofInt_toInt i, hn]
    rfl
  · rfl

/-- **A cell is read back as it was written** -/
theorem jsonField_valueToJson {jsonText : Json → String} {v : Value} {dt : DataType} (hfits : v.fits dt)
    (hfinite : ∀ x, v = .float64 x → x.isFinite = true) :
    jsonFieldToValue jsonText (some (valueToJson v)) dt = .ok v := by
  rcases hfits with rfl | htype
  · rfl
  cases v with
  | null => cases htype
  | bool b => cases dt <;> first | rfl | cases htype
  | utf8 s => cases dt <;> first | rfl | cases htype
  | int64 i =>
    cases dt with
    | int64 =>
      obtain ⟨n, hn⟩ : ∃ n, valueToJson (.int64 i) = .number n := ⟨_, rfl⟩
      have hread := asI64_valueToJson i
      rw [hn] at hread ⊢
      rw [jsonFieldToValue, hread]
    | _ => cases htype
  | float64 x =>
    cases dt with
    | float64 =>
      rw [valueToJson, if_pos (hfinite x rfl)]
      rfl
    | _ => cases htype

/-! ## Round trip -/

/-- the text of an object is read back as an object with the same members -/
def PrintParse (print : Json → Except (List ErrorLink) String) (parse : String → Option Json)
    (members : List (String × Json)) : Prop :=
  ∃ text members', print (.object members) = .ok text ∧ parse text = some (.object members') ∧
    ∀ key, Json.get members' key = Json.get members key

/-- **Round trip**: what is published of a row is loaded as that row -/
theorem kafka_round_trip {print : Json → Except (List ErrorLink) String} {parse : String → Option Json}
    {jsonText : Json → String} {ds : DataSet} (hnames : ds.schema.fieldNames.Nodup)
    (hmeta : ∀ name ∈ ds.schema.fieldNames, isMetadataColumn name = false)
    (hrows : ∀ row ∈ ds.rows, Row.Conforms row ds.schema)
    (hfinite : ∀ row ∈ ds.rows, ∀ x, .float64 x ∈ row → x.isFinite = true)
    (hserde : ∀ row ∈ ds.rows, PrintParse print parse (rowObject ds.schema row)) {row : Row} (hrow : row ∈ ds.rows) :
    ∃ text, rowPayload print ds row none = .ok text ∧
      ∀ record : KafkaStreamRecord, record.value = text → recordToRow parse jsonText record ds.schema = .ok row := by
  obtain ⟨text, members, hprint, hparse, hget⟩ := hserde row hrow
  refine ⟨text, by rw [rowPayload, hprint], fun record hvalue => ?_⟩
  have hconf := hrows row hrow
  refine Traverse.mapM_ok (List.forall₂_iff_zip.2 ⟨hconf.length.symm, fun {f v} hmem => ?_⟩)
  have hname : isMetadataColumn f.name = false := hmeta _ (List.mem_map_of_mem (List.of_mem_zip hmem).1)
  have hfits : v.fits f.dataType := by
    have := (List.forall₂_iff_zip.1 (List.Forall₂.flip hconf)).2 hmem
    exact this
  rw [recordField, if_neg (by simp [hname]), hvalue, hparse]
  simp only [Option.bind_some, Json.asObject]
  rw [hget, rowObject_get hnames hconf.length hmem]
  refine jsonField_valueToJson hfits fun x hx => ?_
  exact hfinite row hrow x (hx ▸ (List.of_mem_zip hmem).2)

/-- one row of all four types, one cell null -/
theorem person_comes_back :
    let ds : DataSet := ⟨⟨[⟨"id", .int64⟩, ⟨"name", .utf8⟩, ⟨"ok", .bool⟩, ⟨"score", .float64⟩]⟩,
      [[.int64 7, .utf8 "Ada", .null, .float64 ⟨0x3FF8000000000000⟩]]⟩
    ∃ text, rowPayload (fun _ => .ok "\x7b\"id\":7,\"name\":\"Ada\",\"ok\":null,\"score\":1.5\x7d") ds
        [.int64 7, .utf8 "Ada", .null, .float64 ⟨0x3FF8000000000000⟩] none = .ok text ∧
      ∀ record : KafkaStreamRecord, record.value = text →
        recordToRow (fun _ => some (.object [("id", .number (.posInt 7)), ("name", .string "Ada"), ("ok", .null),
          ("score", .number (.float ⟨0x3FF8000000000000⟩))])) (fun _ => "null") record ds.schema =
          .ok [.int64 7, .utf8 "Ada", .null, .float64 ⟨0x3FF8000000000000⟩] := by
  intro ds
  refine @kafka_round_trip _ _ _ ds (by decide) (by decide) (by decide) ?_ ?_ _ List.mem_cons_self
  · intro row hrow x hx
    obtain rfl : row = [.int64 7, .utf8 "Ada", .null, .float64 ⟨0x3FF8000000000000⟩] := List.mem_singleton.1 hrow
    obtain rfl : x = ⟨0x3FF8000000000000⟩ := by simpa using hx
    decide
  · intro row hrow
    obtain rfl : row = [.int64 7, .utf8 "Ada", .null, .float64 ⟨0x3FF8000000000000⟩] := List.mem_singleton.1 hrow
    exact ⟨_, _, rfl, rfl, fun key => rfl⟩

end RustDataProcessing.Kafka
