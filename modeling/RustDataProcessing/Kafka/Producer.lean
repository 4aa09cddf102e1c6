/-
Publishing a dataset (`src/kafka/producer.rs`).

`export_dataset_to_kafka` queues one message a row, counts them, and flushes. Queueing reports only that the queue did not
take the message, and flushing only that the queue is empty; how the broker answered is in the delivery reports, which
nothing reads. `print` is `serde_json::to_string`.

- `export_ok`: a call that returns a count has queued one message for each row, and none could not be built.
- `export_honest_iff`: it is a count of acknowledged messages exactly when the broker has acknowledged them all or the
  call was refused before that.
-/
import Mathlib.Tactic
import RustDataProcessing.Lib.Display
import RustDataProcessing.Kafka.Record

namespace RustDataProcessing.Kafka

open Polars (ErrorLink)

/-! ## Messages -/

def valueToJson : Value → Json
  | .null => .null
  | .bool b => .bool b
  | .int64 i => .number (if 0 ≤ i.toInt then .posInt (UInt64.ofNat i.toInt.toNat) else .negInt i)
  | .float64 x => if x.isFinite then .number (.float x) else .null
  | .utf8 s => .string s

def valueToString : Value → Option String
  | .utf8 s => some s
  | .int64 i => some (RustStd.displayI64 i)
  | .float64 x => some (RustStd.displayF64 x)
  | .bool b => some (if b then "true" else "false")
  | .null => none

/-- `Map::insert` -/
def insertMember (members : List (String × Json)) (key : String) (v : Json) : List (String × Json) :=
  if members.any (·.1 = key) then members.map fun m => if m.1 = key then (key, v) else m else members ++ [(key, v)]

/-- the object of a row -/
def rowObject (schema : Schema) (row : Row) : List (String × Json) :=
  (schema.fields.zip row).foldl (fun members c => insertMember members c.1.name (valueToJson c.2)) []

structure ProducerRecord where
  topic : String
  key : String
  payload : String
  headers : List (String × String)
deriving DecidableEq, Repr

section Client

variable (print : Json → Except (List ErrorLink) String)

def rowPayload (ds : DataSet) (row : Row) : Option String → IngestionResult String
  | some col => match ds.schema.indexOf col with
    | none => .error (.schemaMismatch s!"kafka value_column '{col}' not in schema")
    | some idx => (index row idx).bind fun v => match valueToString v with
      | none => .error (.schemaMismatch s!"kafka value_column '{col}' is null")
      | some text => .ok text
  | none => match print (.object (rowObject ds.schema row)) with
    | .error source => .error (clientError "serialize kafka row JSON failed" source)
    | .ok text => .ok text

/-- the key column's text, or the row number -/
def rowKey (b : KafkaProducerBuilder) (ds : DataSet) (idx : ℕ) (row : Row) : IngestionResult String :=
  match b.keyColumn.bind ds.schema.indexOf with
  | none => .ok (toString idx)
  | some i => (index row i).map fun v => (valueToString v).getD (toString idx)

def producerRecord (b : KafkaProducerBuilder) (ds : DataSet) (idx : ℕ) (row : Row) : IngestionResult ProducerRecord :=
  (rowPayload print ds row b.valueColumn).bind fun payload =>
    (rowKey b ds idx row).map fun key => ⟨b.topic, key, payload, b.headers⟩

/-! ## A call -/

inductive Outcome where
  | acknowledged
  | rejected
  | expired
deriving DecidableEq, Repr

/-- what happens to a call: the client library's answers, and the broker's to each message -/
structure Delivery where
  createFails : Option (List ErrorLink)
  queueFails : ℕ → Option (List ErrorLink)
  flushFails : Option (List ErrorLink)
  outcome : ℕ → Outcome

/-- the loop over the rows from row `sent` on: the messages queued, and the count -/
def sendLoop (b : KafkaProducerBuilder) (ds : DataSet) (w : Delivery) :
    List Row → ℕ → List ProducerRecord → List ProducerRecord × IngestionResult ℕ
  | [], sent, queue => (queue, .ok sent)
  | row :: rows, sent, queue => match producerRecord print b ds sent row with
    | .error e => (queue, .error e)
    | .ok record => match w.queueFails sent with
      | some source => (queue, .error (clientError s!"kafka produce to topic '{b.topic}' failed" source))
      | none => sendLoop b ds w rows (sent + 1) (queue ++ [record])

def exportDatasetToKafka (b : KafkaProducerBuilder) (ds : DataSet) (w : Delivery) :
    List ProducerRecord × IngestionResult ℕ :=
  match b.validate with
  | .error e => ([], .error e)
  | .ok _ => match w.createFails with
    | some source => ([], .error (clientError "failed to create kafka producer" source))
    | none => match sendLoop print b ds w ds.rows 0 [] with
      | (queue, .error e) => (queue, .error e)
      | (queue, .ok sent) => match w.flushFails with
        | some source => (queue, .error (clientError "kafka producer flush failed" source))
        | none => (queue, .ok sent)

/-- what is promised of a call; where it must not return a count, it returns an error, or panics over a row that is shorter
than the schema -/
structure Honest (b : KafkaProducerBuilder) (ds : DataSet) (w : Delivery) (r : List ProducerRecord × IngestionResult ℕ) :
    Prop where
  count : ∀ n, r.2 = .ok n → n = ds.rowCount ∧ r.1.length = n ∧ ∀ i < n, w.outcome i = .acknowledged
  delivery : (∃ i < r.1.length, w.outcome i ≠ .acknowledged) → ∀ n, r.2 ≠ .ok n
  payload : (∃ row ∈ ds.rows, ∃ e, rowPayload print ds row b.valueColumn = .error e) → ∀ n, r.2 ≠ .ok n

/-- the row has a payload: the value column's cell holds a value, or the object of the row can be printed -/
def HasPayload (ds : DataSet) (row : Row) : Option String → Prop
  | some col => ∃ i v, ds.schema.indexOf col = some i ∧ row[i]? = some v ∧ v ≠ .null
  | none => ∃ text, print (.object (rowObject ds.schema row)) = .ok text

/-- the row has a message: a payload, and the key column's cell if there is such a column -/
def HasMessage (b : KafkaProducerBuilder) (ds : DataSet) (row : Row) : Prop :=
  HasPayload print ds row b.valueColumn ∧ ∀ i, b.keyColumn.bind ds.schema.indexOf = some i → i < row.length

end Client

/-! ## What a call returns -/

section Export

variable {print : Json → Except (List ErrorLink) String} {b : KafkaProducerBuilder} {ds : DataSet} {w : Delivery}

theorem valueToString_ne_none {v : Value} : valueToString v ≠ none ↔ v ≠ .null := by
  cases v <;> simp [valueToString]

theorem rowPayload_ok_iff {row : Row} {col : Option String} :
    (∃ payload, rowPayload print ds row col = .ok payload) ↔ HasPayload print ds row col := by
  rcases col with _ | col
  · rw [HasPayload, rowPayload]
    cases print (.object (rowObject ds.schema row)) <;> simp
  rw [HasPayload, rowPayload]
  cases ds.schema.indexOf col with
  | none => simp
  | some i =>
    cases hv : row[i]? with
    | none => simp [index, hv, Except.bind]
    | some v =>
      have hnull : v ≠ .null ↔ ∃ text, valueToString v = some text := by
        rw [← valueToString_ne_none, Option.ne_none_iff_exists']
      simp only [index, hv, Except.bind, Option.some.injEq, exists_and_left, exists_eq_left', hnull]
      cases valueToString v <;> simp

theorem rowKey_ok_iff {idx : ℕ} {row : Row} :
    (∃ key, rowKey b ds idx row = .ok key) ↔ ∀ i, b.keyColumn.bind ds.schema.indexOf = some i → i < row.length := by
  rw [rowKey]
  cases b.keyColumn.bind ds.schema.indexOf with
  | none => simp
  | some i =>
    simp only [index, Option.some.injEq, forall_eq']
    by_cases hi : i < row.length
    · simp [hi, Except.map]
    · simp [hi, Except.map]

/-- a message can be built exactly of a row that has one -/
theorem producerRecord_ok_iff {idx : ℕ} {row : Row} :
    (∃ record, producerRecord print b ds idx row = .ok record) ↔ HasMessage print b ds row := by
  rw [HasMessage, ← rowPayload_ok_iff, ← @rowKey_ok_iff b ds idx, producerRecord]
  cases rowPayload print ds row b.valueColumn with
  | error e => simp [Except.bind]
  | ok payload => cases rowKey b ds idx row <;> simp [Except.bind, Except.map]

theorem sendLoop_ok {rows : List Row} {sent n : ℕ} {queue queue' : List ProducerRecord}
    (h : sendLoop print b ds w rows sent queue = (queue', .ok n)) :
    n = sent + rows.length ∧ queue'.length = queue.length + rows.length ∧
      ∀ i row, rows[i]? = some row → HasMessage print b ds row ∧ w.queueFails (sent + i) = none := by
  induction rows generalizing sent queue with
  | nil =>
    cases h
    exact ⟨rfl, rfl, fun i row hrow => by simp at hrow⟩
  | cons row rows ih =>
    rw [sendLoop] at h
    cases hrecord : producerRecord print b ds sent row with
    | error e => rw [hrecord] at h; cases h
    | ok record =>
      rw [hrecord] at h
      dsimp only at h
      cases hqueue : w.queueFails sent with
      | some source => rw [hqueue] at h; cases h
      | none =>
        rw [hqueue] at h
        obtain ⟨h1, h2, h3⟩ := ih h
        refine ⟨by rw [h1, List.length_cons]; omega, by rw [h2, List.length_append, List.length_cons]; simp; omega, ?_⟩
        intro i row' hrow'
        rcases i with _ | i
        · cases hrow'
          exact ⟨producerRecord_ok_iff.1 ⟨record, hrecord⟩, hqueue⟩
        · have := h3 i row' (by simpa using hrow')
          rwa [show sent + 1 + i = sent + (i + 1) by omega] at this

/-- **A count is one of queued messages**: one for each row -/
theorem export_ok {n : ℕ} (h : (exportDatasetToKafka print b ds w).2 = .ok n) :
    b.validate = .ok () ∧ n = ds.rowCount ∧ (exportDatasetToKafka print b ds w).1.length = n ∧ w.createFails = none ∧
      w.flushFails = none ∧ ∀ i row, ds.rows[i]? = some row → HasMessage print b ds row ∧ w.queueFails i = none := by
  unfold exportDatasetToKafka at h ⊢
  cases hvalid : b.validate with
  | error e => rw [hvalid] at h; cases h
  | ok u =>
    rw [hvalid] at h
    dsimp only at h ⊢
    cases hcreate : w.createFails with
    | some source => rw [hcreate] at h; cases h
    | none =>
      rw [hcreate] at h
      dsimp only at h ⊢
      rcases hloop : sendLoop print b ds w ds.rows 0 [] with ⟨queue, e | sent⟩
      · rw [hloop] at h; cases h
      · rw [hloop] at h
        dsimp only at h ⊢
        cases hflush : w.flushFails with
        | some source => rw [hflush] at h; cases h
        | none =>
          rw [hflush] at h
          obtain rfl : sent = n := by simpa using h
          obtain ⟨h1, h2, h3⟩ := sendLoop_ok hloop
          rw [Nat.zero_add] at h1
          refine ⟨rfl, h1, by rw [h2, h1, List.length_nil, Nat.zero_add], rfl, rfl, fun i row hrow => ?_⟩
          have := h3 i row hrow
          rwa [Nat.zero_add] at this

theorem sendLoop_of_queued {rows : List Row} {sent : ℕ} {queue : List ProducerRecord}
    (h : ∀ i row, rows[i]? = some row →
      (∃ record, producerRecord print b ds (sent + i) row = .ok record) ∧ w.queueFails (sent + i) = none) :
    ∃ queue', sendLoop print b ds w rows sent queue = (queue', .ok (sent + rows.length)) := by
  induction rows generalizing sent queue with
  | nil => exact ⟨queue, rfl⟩
  | cons row rows ih =>
    obtain ⟨⟨record, hrecord⟩, hqueue⟩ := h 0 row rfl
    rw [Nat.add_zero] at hrecord hqueue
    obtain ⟨queue', hqueue'⟩ := @ih (sent + 1) (queue ++ [record]) fun i row' hrow' => by
      have := h (i + 1) row' (by simpa using hrow')
      rwa [show sent + (i + 1) = sent + 1 + i by omega] at this
    refine ⟨queue', ?_⟩
    rw [sendLoop, hrecord]
    dsimp only
    rw [hqueue, show sent + (row :: rows).length = sent + 1 + rows.length by rw [List.length_cons]; omega]
    exact hqueue'

theorem export_of_queued (hvalid : b.validate = .ok ()) (hcreate : w.createFails = none) (hflush : w.flushFails = none)
    (h : ∀ i row, ds.rows[i]? = some row → HasMessage print b ds row ∧ w.queueFails i = none) :
    (exportDatasetToKafka print b ds w).2 = .ok ds.rowCount := by
  obtain ⟨queue', hqueue'⟩ := @sendLoop_of_queued print b ds w ds.rows 0 [] fun i row hrow => by
    rw [Nat.zero_add]
    exact ⟨producerRecord_ok_iff.2 (h i row hrow).1, (h i row hrow).2⟩
  unfold exportDatasetToKafka
  rw [hvalid, hcreate]
  dsimp only
  rw [hqueue', hflush, Nat.zero_add]
  rfl

/-- a call that cannot return a count: the client library fails it, or a row has no message -/
def Refused (print : Json → Except (List ErrorLink) String) (b : KafkaProducerBuilder) (ds : DataSet) (w : Delivery) :
    Prop :=
  b.validate ≠ .ok () ∨ w.createFails ≠ none ∨
    (∃ i row, ds.rows[i]? = some row ∧ (¬HasMessage print b ds row ∨ w.queueFails i ≠ none)) ∨ w.flushFails ≠ none

/-- **Honesty of the export**: the call tells the truth exactly when it is refused or the broker has acknowledged the
message of every row -/
theorem export_honest_iff (print : Json → Except (List ErrorLink) String) (b : KafkaProducerBuilder) (ds : DataSet)
    (w : Delivery) :
    Honest print b ds w (exportDatasetToKafka print b ds w) ↔
      Refused print b ds w ∨ ∀ i < ds.rowCount, w.outcome i = .acknowledged := by
  constructor
  · intro h
    by_cases hrefused : Refused print b ds w
    · exact Or.inl hrefused
    right
    simp only [Refused, not_or, ne_eq, not_not, not_exists, not_and] at hrefused
    obtain ⟨hvalid, hcreate, hrows, hflush⟩ := hrefused
    obtain ⟨-, -, hack⟩ := h.count _ (export_of_queued hvalid hcreate hflush hrows)
    exact hack
  · intro h
    have hack : ∀ n, (exportDatasetToKafka print b ds w).2 = .ok n → ∀ i < n, w.outcome i = .acknowledged := by
      intro n hn
      obtain ⟨hvalid, hcount, -, hcreate, hflush, hall⟩ := export_ok hn
      rw [hcount]
      rcases h with (h | h | ⟨i, row, hrow, h⟩ | h) | h
      · exact absurd hvalid h
      · exact absurd hcreate h
      · obtain ⟨hmessage, hqueue⟩ := hall i row hrow
        rcases h with h | h
        · exact absurd hmessage h
        · exact absurd hqueue h
      · exact absurd hflush h
      · exact h
    refine ⟨fun n hn => ?_, ?_, ?_⟩
    · obtain ⟨-, hcount, hlen, -⟩ := export_ok hn
      exact ⟨hcount, hlen, hack n hn⟩
    · rintro ⟨i, hi, hbad⟩ n hn
      obtain ⟨-, -, hlen, -⟩ := export_ok hn
      exact hbad (hack n hn i (hlen ▸ hi))
    · rintro ⟨row, hrow, e, he⟩ n hn
      obtain ⟨-, -, -, -, -, hall⟩ := export_ok hn
      obtain ⟨i, hi, rfl⟩ := List.getElem_of_mem hrow
      obtain ⟨record, hrecord⟩ := (@producerRecord_ok_iff print b ds i _).2 (hall i _ (List.getElem?_eq_getElem hi)).1
      rw [producerRecord, he] at hrecord
      cases hrecord

/-- one row, and a broker that refuses its message: the call returns 1 -/
theorem rejected_row_counted :
    let b := KafkaProducerBuilder.new "localhost:9092" "out"
    let ds : DataSet := ⟨⟨[⟨"id", .int64⟩]⟩, [[.int64 1]]⟩
    let w : Delivery := ⟨none, fun _ => none, none, fun _ => .rejected⟩
    (exportDatasetToKafka (fun _ => .ok "") b ds w).2.toOption = some 1 ∧
      ¬Honest (fun _ => .ok "") b ds w (exportDatasetToKafka (fun _ => .ok "") b ds w) := by
  intro b ds w
  have hcount : (exportDatasetToKafka (fun _ => .ok "") b ds w).2.toOption = some 1 := by decide
  refine ⟨hcount, fun h => ?_⟩
  cases hr : (exportDatasetToKafka (fun _ => .ok "") b ds w).2 with
  | error e => rw [hr] at hcount; cases hcount
  | ok n =>
    obtain rfl : n = 1 := by rw [hr] at hcount; exact Option.some.inj hcount
    obtain ⟨-, -, hack⟩ := h.count 1 hr
    cases hack 0 Nat.one_pos

end Export

end RustDataProcessing.Kafka
