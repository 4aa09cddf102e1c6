/-
Is what is loaded of a list of records a dataset of the landing schema (`src/kafka/load.rs`)?

A cell of the payload is read as the column's type, or the load fails; a cell of a `_kafka_…` column is taken from the
record, and the column's type is not looked at.

- `recordField_fits_iff`: a loaded cell fits its column, unless it is metadata of another type.
- `landing_typed_iff`: what is loaded conforms exactly when nothing can be loaded or every metadata column has the type
  of its metadata (a timestamp or a key that a record does not have fits any column).
- `topic_in_an_integer_column`: the topic of a record in an integer column.
-/
import Mathlib.Tactic
import RustDataProcessing.Kafka.Load

namespace RustDataProcessing.Kafka

/-! ## What can be loaded -/

/-- the type of a metadata column's values -/
def metadataType (name : String) : Option DataType :=
  if name = "_kafka_topic" then some .utf8
  else if name = "_kafka_partition" then some .int64
  else if name = "_kafka_offset" then some .int64
  else if name = "_kafka_timestamp_ms" then some .int64
  else if name = "_kafka_key" then some .utf8
  else none

/-- the record does not have what the column asks for -/
def MetadataAbsent (record : KafkaStreamRecord) (name : String) : Prop :=
  (name = "_kafka_timestamp_ms" ∧ record.timestampMs = none) ∨ (name = "_kafka_key" ∧ record.key = none)

/-- a metadata column has the type of its metadata -/
def MetadataTyped (record : KafkaStreamRecord) (f : Field) : Prop :=
  isMetadataColumn f.name = true → MetadataAbsent record f.name ∨ metadataType f.name = some f.dataType

/-- the text is a value of the type -/
def TextLoads (s : String) : DataType → Prop
  | .utf8 => True
  | .int64 => (RustStd.parseI64 s).toOption.isSome
  | .float64 => (RustStd.parseF64 s).toOption.isSome
  | .bool => (RustStd.parseBool s).toOption.isSome

section Client

variable (parse : String → Option Json) (jsonText : Json → String)

def MemberLoads : Option Json → DataType → Prop
  | none, _ => True
  | some .null, _ => True
  | some (.number n), .int64 => (Json.number n).asI64.isSome
  | some (.number _), .float64 => True
  | some (.bool _), .bool => True
  | some (.string s), dt => TextLoads s dt
  | some other, dt => TextLoads (jsonText other) dt

/-- the field can be loaded from the record -/
def FieldLoads (record : KafkaStreamRecord) (schema : Schema) (f : Field) : Prop :=
  if isMetadataColumn f.name then (metadataType f.name).isSome = true
  else match (parse record.value).bind Json.asObject with
    | some members => MemberLoads jsonText (Json.get members f.name) f.dataType
    | none => (schemaNonMetadataFields schema).map Field.name = [f.name] → TextLoads record.value f.dataType

/-! ## One cell -/

theorem kafkaMetadataValue_ok_iff (record : KafkaStreamRecord) (name : String) :
    (∃ v, kafkaMetadataValue record name = .ok v) ↔ (metadataType name).isSome := by
  unfold kafkaMetadataValue metadataType
  split_ifs <;> simp

/-- the cell of a metadata column, whatever the column's type -/
theorem kafkaMetadataValue_fits_iff {record : KafkaStreamRecord} {name : String} {v : Value} (dt : DataType)
    (h : kafkaMetadataValue record name = .ok v) :
    v.fits dt ↔ MetadataAbsent record name ∨ metadataType name = some dt := by
  unfold kafkaMetadataValue at h
  unfold metadataType MetadataAbsent Value.fits
  split_ifs at h with htopic hpartition hoffset htimestamp hkey
  · obtain rfl := Except.ok.inj h
    subst htopic
    cases dt <;> simp [Value.hasType]
  · obtain rfl := Except.ok.inj h
    subst hpartition
    cases dt <;> simp [Value.hasType]
  · obtain rfl := Except.ok.inj h
    subst hoffset
    cases dt <;> simp [Value.hasType]
  · obtain rfl := Except.ok.inj h
    subst htimestamp
    cases record.timestampMs <;> cases dt <;> simp [Value.hasType]
  · obtain rfl := Except.ok.inj h
    subst hkey
    cases record.key <;> cases dt <;> simp [Value.hasType]

theorem stringToValue_ok_iff (s : String) (dt : DataType) : (∃ v, stringToValue s dt = .ok v) ↔ TextLoads s dt := by
  unfold stringToValue TextLoads
  cases dt with
  | utf8 => simp
  | int64 => cases h : RustStd.parseI64 s <;> simp [Except.toOption]
  | float64 => cases h : RustStd.parseF64 s <;> simp [Except.toOption]
  | bool => cases h : RustStd.parseBool s <;> simp [Except.toOption]

theorem stringToValue_hasType {s : String} {dt : DataType} {v : Value} (h : stringToValue s dt = .ok v) :
    v.hasType dt = true := by
  unfold stringToValue at h
  cases dt with
  | utf8 =>
    obtain rfl := Except.ok.inj h
    rfl
  | int64 =>
    cases hs : RustStd.parseI64 s with
    | error e => simp [hs] at h
    | ok n =>
      simp only [hs] at h
      obtain rfl := Except.ok.inj h
      rfl
  | float64 =>
    cases hs : RustStd.parseF64 s with
    | error e => simp [hs] at h
    | ok x =>
      simp only [hs] at h
      obtain rfl := Except.ok.inj h
      rfl
  | bool =>
    cases hs : RustStd.parseBool s with
    | error e => simp [hs] at h
    | ok b =>
      simp only [hs] at h
      obtain rfl := Except.ok.inj h
      rfl

theorem jsonFieldToValue_ok_iff (member : Option Json) (dt : DataType) :
    (∃ v, jsonFieldToValue jsonText member dt = .ok v) ↔ MemberLoads jsonText member dt := by
  rcases member with - | j
  · simp [jsonFieldToValue, MemberLoads]
  cases j with
  | null => simp [jsonFieldToValue, MemberLoads]
  | number n =>
    cases dt with
    | int64 => cases h : (Json.number n).asI64 <;> simp [jsonFieldToValue, MemberLoads, h]
    | float64 => simp [jsonFieldToValue, MemberLoads]
    | _ => simp only [jsonFieldToValue, MemberLoads, stringToValue_ok_iff]
  | bool b =>
    cases dt with
    | bool => simp [jsonFieldToValue, MemberLoads]
    | _ => simp only [jsonFieldToValue, MemberLoads, stringToValue_ok_iff]
  | _ => cases dt <;> simp only [jsonFieldToValue, MemberLoads, stringToValue_ok_iff]

/-- a member is read as the column's type, or not at all -/
theorem jsonFieldToValue_fits {member : Option Json} {dt : DataType} {v : Value}
    (h : jsonFieldToValue jsonText member dt = .ok v) : v.fits dt := by
  rcases member with - | j
  · exact Or.inl (Except.ok.inj h).symm
  cases j with
  | null => exact Or.inl (Except.ok.inj h).symm
  | number n =>
    cases dt with
    | int64 =>
      cases hn : (Json.number n).asI64 with
      | none => simp [jsonFieldToValue, hn] at h
      | some i =>
        simp only [jsonFieldToValue, hn] at h
        obtain rfl := Except.ok.inj h
        exact Or.inr rfl
    | float64 =>
      obtain rfl := Except.ok.inj h
      exact Or.inr rfl
    | _ => exact Or.inr (stringToValue_hasType h)
  | bool b =>
    cases dt with
    | bool =>
      obtain rfl := Except.ok.inj h
      exact Or.inr rfl
    | _ => exact Or.inr (stringToValue_hasType h)
  | _ => cases dt <;> exact Or.inr (stringToValue_hasType h)

theorem recordField_ok_iff (record : KafkaStreamRecord) (schema : Schema) (f : Field) :
    (∃ v, recordField parse jsonText record schema f = .ok v) ↔ FieldLoads parse jsonText record schema f := by
  unfold recordField FieldLoads
  by_cases hmeta : isMetadataColumn f.name = true
  · simp only [hmeta, if_true]
    exact kafkaMetadataValue_ok_iff record f.name
  · simp only [hmeta, if_false, Bool.false_eq_true]
    cases (parse record.value).bind Json.asObject with
    | some members => exact jsonFieldToValue_ok_iff jsonText _ _
    | none =>
      simp only
      split_ifs with hsingle
      · simp only [hsingle, forall_const, stringToValue_ok_iff]
      · simp [hsingle]

/-- a loaded cell fits its column, unless it is metadata of another type -/
theorem recordField_fits_iff {record : KafkaStreamRecord} {schema : Schema} {f : Field} {v : Value}
    (h : recordField parse jsonText record schema f = .ok v) : v.fits f.dataType ↔ MetadataTyped record f := by
  unfold recordField at h
  unfold MetadataTyped
  by_cases hmeta : isMetadataColumn f.name = true
  · rw [if_pos hmeta] at h
    rw [kafkaMetadataValue_fits_iff f.dataType h]
    exact ⟨fun hfits _ => hfits, fun hfits => hfits hmeta⟩
  · rw [if_neg hmeta] at h
    refine iff_of_true ?_ fun habs => absurd habs hmeta
    cases hparse : (parse record.value).bind Json.asObject with
    | some members =>
      simp only [hparse] at h
      exact jsonFieldToValue_fits jsonText h
    | none =>
      rw [hparse] at h
      change (if _ then stringToValue record.value f.dataType else .ok .null) = _ at h
      split_ifs at h with hsingle
      · exact Or.inr (stringToValue_hasType h)
      · exact Or.inl (Except.ok.inj h).symm

/-! ## Rows -/

theorem recordToRow_ok_iff (record : KafkaStreamRecord) (schema : Schema) :
    (∃ row, recordToRow parse jsonText record schema = .ok row) ↔
      ∀ f ∈ schema.fields, FieldLoads parse jsonText record schema f := by
  unfold recordToRow
  rw [Traverse.exists_mapM_ok_iff]
  exact forall₂_congr fun f _ => recordField_ok_iff parse jsonText record schema f

/-- the row of a record has a cell for each field; it conforms when its metadata columns are typed -/
theorem recordToRow_conforms_iff {record : KafkaStreamRecord} {schema : Schema} {row : Row}
    (h : recordToRow parse jsonText record schema = .ok row) :
    Row.Conforms row schema ↔ ∀ f ∈ schema.fields, MetadataTyped record f :=
  Traverse.forall₂_iff_of_mapM h fun _ _ hv => recordField_fits_iff parse jsonText hv

/-! ## The landing table -/

/-- if the load returns, then a dataset of the landing schema, with the row of each record in order -/
def LandsTyped (records : List KafkaStreamRecord) (schema : Schema) : Prop :=
  ∀ ds, eltLoadKafkaRecords parse jsonText records schema = .ok ds →
    List.Forall₂ (fun row record => recordToRow parse jsonText record schema = .ok row) ds.rows records ∧
      ds.Conforms schema

variable {parse jsonText}

theorem eltLoadKafkaRecords_ok_iff {records : List KafkaStreamRecord} {schema : Schema} {ds : DataSet} :
    eltLoadKafkaRecords parse jsonText records schema = .ok ds ↔
      ∃ rows, (records.mapM fun record => recordToRow parse jsonText record schema) = .ok rows ∧ ds = ⟨schema, rows⟩ := by
  unfold eltLoadKafkaRecords
  cases records.mapM fun record => recordToRow parse jsonText record schema with
  | error e => simp [Except.map]
  | ok rows => simp [Except.map, eq_comm]

/-- what is loaded conforms when every metadata column of every record is typed -/
theorem loaded_conforms_iff {records : List KafkaStreamRecord} {schema : Schema} {ds : DataSet}
    (h : eltLoadKafkaRecords parse jsonText records schema = .ok ds) :
    ds.Conforms schema ↔ ∀ record ∈ records, ∀ f ∈ schema.fields, MetadataTyped record f := by
  obtain ⟨rows, hrows, rfl⟩ := eltLoadKafkaRecords_ok_iff.1 h
  rw [← Traverse.forall_mem_iff_of_mapM hrows fun record row hrow => recordToRow_conforms_iff parse jsonText hrow]
  exact ⟨fun hconf => hconf.rows, fun hconf => ⟨rfl, hconf⟩⟩

/-- **A landing table is typed** exactly when nothing is loaded, or each metadata column has the type of its metadata -/
theorem landing_typed_iff (parse : String → Option Json) (jsonText : Json → String) (records : List KafkaStreamRecord)
    (schema : Schema) :
    LandsTyped parse jsonText records schema ↔
      (∃ record ∈ records, ∃ f ∈ schema.fields, ¬ FieldLoads parse jsonText record schema f) ∨
        ∀ record ∈ records, ∀ f ∈ schema.fields, MetadataTyped record f := by
  by_cases hloads : ∀ record ∈ records, ∀ f ∈ schema.fields, FieldLoads parse jsonText record schema f
  · have hnone : ¬ ∃ record ∈ records, ∃ f ∈ schema.fields, ¬ FieldLoads parse jsonText record schema f := by
      push Not
      exact hloads
    rw [or_iff_right hnone]
    obtain ⟨rows, hrows⟩ := Traverse.exists_mapM_ok_iff.2 fun record hrecord =>
      (recordToRow_ok_iff parse jsonText record schema).2 (hloads record hrecord)
    have hload := eltLoadKafkaRecords_ok_iff.2 ⟨rows, hrows, rfl⟩
    constructor
    · intro h
      exact (loaded_conforms_iff hload).1 (h _ hload).2
    · intro htyped ds hds
      obtain rfl : ds = ⟨schema, rows⟩ := Except.ok.inj (hds.symm.trans hload)
      exact ⟨(Traverse.mapM_eq_ok_iff.1 hrows).flip, (loaded_conforms_iff hload).2 htyped⟩
  · have hsome : ∃ record ∈ records, ∃ f ∈ schema.fields, ¬ FieldLoads parse jsonText record schema f := by
      push Not at hloads
      exact hloads
    refine iff_of_true ?_ (Or.inl hsome)
    intro ds hds
    obtain ⟨rows, hrows, -⟩ := eltLoadKafkaRecords_ok_iff.1 hds
    refine absurd ?_ hloads
    intro record hrecord
    exact (recordToRow_ok_iff parse jsonText record schema).1 (Traverse.exists_mapM_ok_iff.1 ⟨rows, hrows⟩ record hrecord)

/-- **The topic in an integer column**: the load returns a row that does not conform -/
theorem topic_in_an_integer_column :
    let record : KafkaStreamRecord := ⟨"events", 0, 42, some 1000, none, "", []⟩
    let schema : Schema := ⟨[⟨"_kafka_topic", .int64⟩]⟩
    eltLoadKafkaRecords (fun _ => none) (fun _ => "") [record] schema = .ok ⟨schema, [[.utf8 "events"]]⟩ ∧
      ¬ DataSet.Conforms ⟨schema, [[.utf8 "events"]]⟩ schema ∧
      ¬ LandsTyped (fun _ => none) (fun _ => "") [record] schema := by
  intro record schema
  have hload : eltLoadKafkaRecords (fun _ => none) (fun _ => "") [record] schema =
      .ok ⟨schema, [[.utf8 "events"]]⟩ := rfl
  have hrow : ¬ Row.Conforms [.utf8 "events"] schema := by decide
  have hconf : ¬ DataSet.Conforms ⟨schema, [[.utf8 "events"]]⟩ schema := fun h => hrow (h.rows _ List.mem_cons_self)
  exact ⟨hload, hconf, fun h => hconf (h _ hload).2⟩

end Client

end RustDataProcessing.Kafka
