/-
A value column sent as raw text, and what is landed of it (`src/kafka/producer.rs`, `row_payload`; `src/kafka/load.rs`,
`record_to_row`).

The payload is the text of the cell. The load tries it as a JSON object first, whose keys are the columns, and takes it as
the text of the single column otherwise. So a text that is an object is not landed as it was sent: the column gets the
member of its name, or null. Every other text, JSON documents and literals included, comes back.

- `single_column_round_trip`: what is landed of each cell of a value column.
- `object_text_is_taken_apart`: a text that is a JSON object, landed as null; and a metadata column nobody knows.
-/
import Mathlib.Tactic
import RustDataProcessing.Kafka.Landing

namespace RustDataProcessing.Kafka

open Polars (ErrorLink)

section Client

variable {print : Json → Except (List ErrorLink) String} {parse : String → Option Json} {jsonText : Json → String}

/-! ## The cell's text -/

/-- the text of a cell is a value of the cell's type -/
theorem stringToValue_valueToString {v : Value} {dt : DataType} (htype : v.hasType dt = true)
    (hfinite : ∀ x, v = .float64 x → x.isFinite = true) :
    ∃ text, valueToString v = some text ∧ stringToValue text dt = .ok v := by
  cases v with
  | null => cases htype
  | int64 n =>
    cases dt with
    | int64 => exact ⟨_, rfl, by rw [stringToValue, RustStd.parseI64_displayI64]⟩
    | _ => cases htype
  | float64 x =>
    cases dt with
    | float64 => exact ⟨_, rfl, by rw [stringToValue, RustStd.parseF64_displayF64 (hfinite x rfl)]⟩
    | _ => cases htype
  | bool b =>
    cases dt with
    | bool => cases b <;> exact ⟨_, rfl, rfl⟩
    | _ => cases htype
  | utf8 s =>
    cases dt with
    | utf8 => exact ⟨s, rfl, rfl⟩
    | _ => cases htype

/-- what `serde_json` reads as an object has an opening brace -/
def ObjectsHaveBrace (parse : String → Option Json) : Prop :=
  ∀ s members, parse s = some (.object members) → '{' ∈ s.toList

/-- numbers and truth values are no objects -/
theorem not_object_of_valueToString (hparse : ObjectsHaveBrace parse) {v : Value} (htext : ∀ s, v ≠ .utf8 s)
    (hfinite : ∀ x, v = .float64 x → x.isFinite = true) {text : String} (h : valueToString v = some text) :
    (parse text).bind Json.asObject = none := by
  have hbrace : '{' ∉ text.toList := by
    intro hmem
    cases v with
    | null => cases h
    | utf8 s => exact htext s rfl
    | int64 n =>
      obtain rfl := Option.some.inj h
      exact absurd (RustStd.numeral_displayI64 n _ hmem) (by decide)
    | float64 x =>
      obtain rfl := Option.some.inj h
      exact absurd (RustStd.numeral_displayF64 (hfinite x rfl) _ hmem) (by decide)
    | bool b =>
      obtain rfl := Option.some.inj h
      cases b <;> exact absurd hmem (by decide)
  cases hjson : parse text with
  | none => rfl
  | some j =>
    cases j with
    | object members => exact absurd (hparse text members hjson) hbrace
    | _ => rfl

/-! ## The landed cell -/

/-- the text of a member: a string as it is, another value in JSON -/
def memberText (jsonText : Json → String) : Option Json → Value
  | none => .null
  | some .null => .null
  | some (.string s) => .utf8 s
  | some other => .utf8 (jsonText other)

/-- what is landed of a cell: of a text that is an object, the member of the column's name; any other cell as it is -/
def landedCell (parse : String → Option Json) (jsonText : Json → String) (name : String) : Value → Value
  | .utf8 s => match (parse s).bind Json.asObject with
    | some members => memberText jsonText (Json.get members name)
    | none => .utf8 s
  | v => v

theorem jsonFieldToValue_utf8 (member : Option Json) :
    jsonFieldToValue jsonText member .utf8 = .ok (memberText jsonText member) := by
  rcases member with - | j
  · rfl
  · cases j <;> rfl

/-- the single column of a record whose payload is the text of a cell -/
theorem recordField_single (hparse : ObjectsHaveBrace parse) {landing : Schema} {field : Field}
    (honly : schemaNonMetadataFields landing = [field]) {v : Value} (htype : v.hasType field.dataType = true)
    (hfinite : ∀ x, v = .float64 x → x.isFinite = true) {record : KafkaStreamRecord}
    (h : valueToString v = some record.value) :
    recordField parse jsonText record landing field = .ok (landedCell parse jsonText field.name v) := by
  have hmeta : isMetadataColumn field.name = false := by
    have hmem : field ∈ schemaNonMetadataFields landing := honly ▸ List.mem_singleton_self field
    simpa [schemaNonMetadataFields] using (List.mem_filter.1 hmem).2
  obtain ⟨text, htext, hread⟩ := stringToValue_valueToString htype hfinite
  obtain rfl : text = record.value := Option.some.inj (htext.symm.trans h)
  rw [recordField, hmeta]
  simp only [Bool.false_eq_true, if_false]
  cases hobject : (parse record.value).bind Json.asObject with
  | none =>
    have hlanded : landedCell parse jsonText field.name v = v := by
      cases v with
      | utf8 s =>
        obtain rfl : s = record.value := Option.some.inj h
        simp only [landedCell, hobject]
      | _ => rfl
    simp only [honly, List.map_cons, List.map_nil, if_true]
    rw [hread, hlanded]
  | some members =>
    by_cases htext' : ∃ s, v = .utf8 s
    · obtain ⟨s, rfl⟩ := htext'
      obtain rfl : s = record.value := Option.some.inj h
      have hutf8 : field.dataType = .utf8 := by
        cases hdt : field.dataType <;> simp [hdt, Value.hasType] at htype
        rfl
      simp only [landedCell, hobject, hutf8]
      exact jsonFieldToValue_utf8 _
    · push Not at htext'
      rw [not_object_of_valueToString hparse htext' hfinite h] at hobject
      cases hobject

/-- **A value column lands in the single column**: every cell that is not null comes back, but for a text that is a JSON
object, of which the member of the column's name is landed -/
theorem single_column_round_trip (hparse : ObjectsHaveBrace parse) {landing : Schema} {field : Field}
    (honly : schemaNonMetadataFields landing = [field])
    (hknown : ∀ f ∈ landing.fields, isMetadataColumn f.name = true → (metadataType f.name).isSome = true)
    {ds : DataSet} {row : Row} {idx : ℕ} (hidx : ds.schema.indexOf field.name = some idx) {v : Value}
    (hcell : row[idx]? = some v) (htype : v.hasType field.dataType = true)
    (hfinite : ∀ x, v = .float64 x → x.isFinite = true) :
    ∃ text, rowPayload print ds row (some field.name) = .ok text ∧
      ∀ record : KafkaStreamRecord, record.value = text →
        ∃ out, recordToRow parse jsonText record landing = .ok out ∧
          ∀ i : ℕ, landing.fields[i]? = some field → out[i]? = some (landedCell parse jsonText field.name v) := by
  obtain ⟨text, htext, -⟩ := stringToValue_valueToString htype hfinite
  refine ⟨text, ?_, fun record hvalue => ?_⟩
  · simp [rowPayload, hidx, index, hcell, Except.bind, htext]
  · have hsingle : recordField parse jsonText record landing field = _ :=
      recordField_single hparse honly htype hfinite (hvalue ▸ htext)
    have hfields : ∀ f ∈ landing.fields, ∃ w, recordField parse jsonText record landing f = .ok w := by
      intro f hf
      by_cases hmeta : isMetadataColumn f.name = true
      · obtain ⟨w, hw⟩ := (kafkaMetadataValue_ok_iff record f.name).2 (hknown f hf hmeta)
        exact ⟨w, by rw [recordField, if_pos hmeta, hw]⟩
      · have hmem : f ∈ schemaNonMetadataFields landing := List.mem_filter.2 ⟨hf, by simpa using hmeta⟩
        rw [honly, List.mem_singleton] at hmem
        exact ⟨_, hmem ▸ hsingle⟩
    obtain ⟨out, hout⟩ := Traverse.exists_mapM_ok_iff.2 hfields
    refine ⟨out, hout, fun i hi => ?_⟩
    have hcells := Traverse.mapM_eq_ok_iff.1 hout
    obtain ⟨hlt, heq⟩ := List.getElem?_eq_some_iff.1 hi
    have hlt' : i < out.length := hcells.length_eq ▸ hlt
    have hget := hcells.get hlt hlt'
    rw [List.get_eq_getElem, List.get_eq_getElem, heq, hsingle] at hget
    rw [List.getElem?_eq_getElem hlt', Except.ok.inj hget]

end Client

/-! ## Texts that are JSON -/

/-- one text column -/
def messages : DataSet := ⟨⟨[⟨"message", .utf8⟩]⟩, [[.utf8 "[1]"], [.utf8 "\x7b\"a\":1\x7d"]]⟩

def messageLanding : Schema := ⟨[⟨"_kafka_topic", .utf8⟩, ⟨"message", .utf8⟩]⟩

/-- `serde_json` on the two texts -/
def parseMessages (s : String) : Option Json :=
  if s = "[1]" then some (.array [.number (.posInt 1)])
  else if s = "\x7b\"a\":1\x7d" then some (.object [("a", .number (.posInt 1))])
  else none

theorem array_text_comes_back :
    ∃ text, rowPayload (fun _ => .ok "") messages [.utf8 "[1]"] (some "message") = .ok text ∧
      ∀ record : KafkaStreamRecord, record.value = text →
        ∃ out, recordToRow parseMessages (fun _ => "") record messageLanding = .ok out ∧
          ∀ i : ℕ, messageLanding.fields[i]? = some ⟨"message", .utf8⟩ → out[i]? = some (.utf8 "[1]") := by
  have hparse : ObjectsHaveBrace parseMessages := by
    intro s members h
    unfold parseMessages at h
    split_ifs at h with h1 h2
    · cases h
    · rw [h2]
      decide
  exact @single_column_round_trip _ _ _ hparse messageLanding ⟨"message", .utf8⟩ (by decide) (by decide) messages
    [.utf8 "[1]"] 0 rfl (.utf8 "[1]") rfl rfl (fun x hx => by cases hx)

/-- **An object's text is taken apart**: of the text `\x7b"a":1\x7d` the column "message" gets null. And with a metadata
column of another name than the five, nothing is landed -/
theorem object_text_is_taken_apart :
    let record : KafkaStreamRecord := ⟨"events", 0, 42, none, none, "\x7b\"a\":1\x7d", []⟩
    rowPayload (fun _ => .ok "") messages [.utf8 "\x7b\"a\":1\x7d"] (some "message") = .ok record.value ∧
      recordToRow parseMessages (fun _ => "") record messageLanding = .ok [.utf8 "events", .null] ∧
      schemaNonMetadataFields ⟨[⟨"_kafka_headers", .utf8⟩, ⟨"message", .utf8⟩]⟩ = [⟨"message", .utf8⟩] ∧
      ∀ out, recordToRow parseMessages (fun _ => "") record ⟨[⟨"_kafka_headers", .utf8⟩, ⟨"message", .utf8⟩]⟩ ≠ .ok out := by
  refine ⟨rfl, rfl, by decide, fun out h => ?_⟩
  cases h

end RustDataProcessing.Kafka
