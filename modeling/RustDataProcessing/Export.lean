/-
JSON Lines export (`src/export.rs`), and what the JSON reader makes of it.

`datasetToJsonl` writes one flat object for each row, under the columns' names. The reader refuses an empty text, and
takes a name with dots for a path. `print` is `serde_json::to_string`; what is assumed of it and of the parser is
`SerdeJson`.

- `rowMap_eq`, `datasetToJsonl_eq`: with all columns, every row is printed as the object of its cells.
- `jsonRecords_unlines`: printed lines are read back as the documents they are, one line or many.
- `finite_of_ingestJsonFromStr`: what the reader returns has only finite doubles, so every cell survives printing.
- `jsonl_reads_back`: the export of what was read is read back as the same dataset when it has a row and no name has a
  dot, and is refused otherwise.
-/
import Mathlib.Tactic
import RustDataProcessing.Lib.Lines
import RustDataProcessing.Lib.Widening
import RustDataProcessing.Ingestion.JsonEngine
import RustDataProcessing.Ingestion.Records
import RustDataProcessing.Kafka.Load

namespace RustDataProcessing.Export

open RustStd (OneLine unlines joinLines)
open Ingestion
open Kafka (insertMember rowObject valueToJson)

def cellToJson : Value → Json
  | .null => .null
  | .int64 i => .number (if 0 ≤ i.toInt then .posInt (UInt64.ofNat i.toInt.toNat) else .negInt i)
  | .float64 x => if x.isFinite then .number (.float x) else .null
  | .bool b => .bool b
  | .utf8 s => .string s

/-- the map of a row -/
def rowMap (columnOrder : List String) (idx : List ℕ) (row : Row) : IngestionResult Record :=
  (columnOrder.zip idx).foldlM (fun m c => (index row c.2).map fun v => insertMember m c.1 (cellToJson v)) []

/-- one column of `column_order` -/
def columnIdx (schema : Schema) (name : String) : IngestionResult ℕ :=
  match schema.indexOf name with
  | some i => .ok i
  | none => .error (.schemaMismatch s!"dataset_to_jsonl: unknown column '{name}'")

/-- the map is printed as one line -/
def rowLine (print : Json → Except String String) (columnOrder : List String) (idx : List ℕ) (row : Row) :
    IngestionResult String := do
  let m ← rowMap columnOrder idx row
  match print (.object m) with
  | .ok line => .ok line
  | .error e => .error (.schemaMismatch s!"dataset_to_jsonl: json encode failed: {e}")

def datasetToJsonl (print : Json → Except String String) (ds : DataSet) (columnOrder : List String) :
    IngestionResult String := do
  let idx ← columnOrder.mapM (columnIdx ds.schema)
  let lines ← ds.rows.mapM (rowLine print columnOrder idx)
  pure (unlines lines)

/-! ## What is written -/

theorem cellToJson_eq (v : Value) : cellToJson v = valueToJson v := by cases v <;> rfl

/-- the columns of a schema stand where they stand -/
theorem mapM_columnIdx {schema : Schema} (hnames : schema.fieldNames.Nodup) :
    schema.fieldNames.mapM (columnIdx schema) = .ok (List.range schema.fields.length) := by
  refine Traverse.mapM_ok (List.forall₂_iff_get.2 ⟨by simp [Schema.fieldNames], ?_⟩)
  intro i hi _
  have hfield : i < schema.fields.length := by simpa [Schema.fieldNames] using hi
  have hindex := Schema.indexOf_of_nodup hnames (List.getElem?_eq_getElem hfield)
  simp [Schema.fieldNames, columnIdx, hindex]

/-- the loop over the columns, from any map on: each column is paired with the cell of its index -/
theorem foldlM_insertMember {row : Row} {fields : List Field} {idx : List ℕ} {cells : Row}
    (hcells : List.Forall₂ (fun i v => row[i]? = some v) idx cells) (m : Record) :
    ((fields.map Field.name).zip idx).foldlM
      (fun m c => (index row c.2).map fun v => insertMember m c.1 (cellToJson v)) m =
      (.ok ((fields.zip cells).foldl (fun m c => insertMember m c.1.name (valueToJson c.2)) m) :
        IngestionResult Record) := by
  induction hcells generalizing fields m with
  | nil => simp; rfl
  | @cons i v idx cells hv _ ih =>
    cases fields with
    | nil => rfl
    | cons f fields =>
      have hstep : (index row i).map (fun v => insertMember m f.name (cellToJson v)) =
          .ok (insertMember m f.name (valueToJson v)) := by
        rw [index, hv, ← cellToJson_eq]
        rfl
      rw [List.map_cons, List.zip_cons_cons, List.foldlM_cons, hstep, List.zip_cons_cons, List.foldl_cons, ← ih]
      rfl

/-- **A row is written as the object of its cells** -/
theorem rowMap_eq {schema : Schema} {row : Row} (hlen : row.length = schema.fields.length) :
    rowMap schema.fieldNames (List.range schema.fields.length) row = .ok (rowObject schema row) := by
  refine foldlM_insertMember (List.forall₂_iff_get.2 ⟨by simp [hlen], ?_⟩) []
  intro i _ hi
  simp

theorem datasetToJsonl_eq {print : Json → Except String String} {ds : DataSet} {line : Row → String}
    (hnames : ds.schema.fieldNames.Nodup) (hlen : ∀ row ∈ ds.rows, row.length = ds.schema.fields.length)
    (hprint : ∀ row ∈ ds.rows, print (.object (rowObject ds.schema row)) = .ok (line row)) :
    datasetToJsonl print ds ds.schema.fieldNames = .ok (unlines (ds.rows.map line)) := by
  have hlines : ds.rows.mapM (rowLine print ds.schema.fieldNames (List.range ds.schema.fields.length)) =
      .ok (ds.rows.map line) := by
    refine Traverse.mapM_ok (List.forall₂_map_right_iff.2 (List.forall₂_same.2 fun row hrow => ?_))
    rw [rowLine, rowMap_eq (hlen row hrow)]
    change (match print (.object (rowObject ds.schema row)) with
      | .ok line => (.ok line : IngestionResult String)
      | .error e => .error (.schemaMismatch s!"dataset_to_jsonl: json encode failed: {e}")) = _
    rw [hprint row hrow]
  simp only [datasetToJsonl, mapM_columnIdx hnames, bind, Except.bind, hlines, pure, Except.pure]

/-! ## What is assumed of the library -/

/-- a document without infinities and NaNs -/
inductive FiniteJson : Json → Prop where
  | null : FiniteJson .null
  | bool (b : Bool) : FiniteJson (.bool b)
  | posInt (n : UInt64) : FiniteJson (.number (.posInt n))
  | negInt (n : Int64) : FiniteJson (.number (.negInt n))
  | float {x : Binary64} (h : x.isFinite = true) : FiniteJson (.number (.float x))
  | string (s : String) : FiniteJson (.string s)
  | array {items : List Json} (h : ∀ j ∈ items, FiniteJson j) : FiniteJson (.array items)
  | object {members : Record} (h : ∀ m ∈ members, FiniteJson m.2) : FiniteJson (.object members)

/-- the object is printed on one line, which is read back as it; the members may be in another order -/
structure Reparsed (P : JsonParser) (print : Json → Except String String) (members : Record) (line : String)
    (record : Record) : Prop where
  prints : print (.object members) = .ok line
  oneLine : OneLine line
  parses : P.fromStr line = .ok (.object record)
  same : ∀ key, Json.get record key = Json.get members key

/-- what is parsed is finite, nothing but white space follows a document, and parsing undoes printing on finite values -/
structure SerdeJson (P : JsonParser) (print : Json → Except String String) (objects : List Record) : Prop where
  finite : ∀ text doc, P.fromStr text = .ok doc → FiniteJson doc
  single : ∀ text members rest, P.fromStr text = .ok (.object members) → RustStd.trim rest ≠ "" →
    ∀ doc, P.fromStr (text ++ "\n" ++ rest) ≠ .ok doc
  reparses : ∀ members ∈ objects, FiniteJson (.object members) → ∃ line record, Reparsed P print members line record

/-! ## FiniteJson cells -/

theorem FiniteJson.get {members : Record} (h : FiniteJson (.object members)) {key : String} {j : Json}
    (hj : Json.get members key = some j) : FiniteJson j := by
  obtain ⟨l₁, l₂, rfl, -⟩ := List.lookup_eq_some_iff.1 hj
  cases h with
  | object h => exact h (key, j) (by simp)

theorem FiniteJson.walk {j v : Json} {path : List String} (h : FiniteJson j) (hv : walk j path = some v) : FiniteJson v := by
  induction path generalizing j with
  | nil =>
    rw [Ingestion.walk] at hv
    rw [← Option.some.inj hv]
    exact h
  | cons segment path ih =>
    cases j with
    | object members =>
      rw [Ingestion.walk] at hv
      obtain ⟨next, hnext, hv⟩ := Option.bind_eq_some_iff.1 hv
      exact ih (h.get hnext) hv
    | _ => cases hv

theorem FiniteJson.asF64 {j : Json} {x : Binary64} (h : FiniteJson j) (hx : j.asF64 = some x) : x.isFinite = true := by
  cases h with
  | posInt n =>
    rw [← Option.some.inj hx]
    have hn : ((n.toNat : ℤ)).natAbs < 2 ^ 64 := n.toNat_lt
    exact Binary64.isFinite_ofInt (by decide) hn
  | negInt n =>
    rw [← Option.some.inj hx]
    have hlow : -2 ^ 63 ≤ n.toInt := n.le_toInt
    have hhigh : n.toInt < 2 ^ 63 := n.toInt_lt
    have hn : n.toInt.natAbs < 2 ^ 64 := by omega
    exact Binary64.isFinite_ofInt (by decide) hn
  | float h =>
    rw [← Option.some.inj hx]
    exact h
  | _ => cases hx

theorem asF64_of_typedJson {dt : DataType} {j : Json} {x : Binary64} (h : typedJson dt j = some (.float64 x)) :
    j.asF64 = some x := by
  cases dt <;> rw [typedJson, Option.map_eq_some_iff] at h <;> obtain ⟨a, ha, heq⟩ := h <;> cases heq
  exact ha

/-- a cell of a finite document -/
theorem FiniteJson.jsonCell {doc : Json} {f : Field} {x : Binary64} (h : FiniteJson doc)
    (hcell : jsonCell doc f = some (.float64 x)) : x.isFinite = true := by
  unfold Ingestion.jsonCell at hcell
  obtain ⟨obj, hobj, hcell⟩ := Option.bind_eq_some_iff.1 hcell
  obtain ⟨j, hj, hcell⟩ := Option.bind_eq_some_iff.1 hcell
  have hvalue := ((convertJsonValue_returns 0 f.name f.dataType j).of_ok (Traverse.ok_of_toOption hcell)).2
  obtain rfl : doc = .object obj := by
    cases doc with
    | object members => exact congrArg Json.object (Option.some.inj hobj)
    | _ => cases hobj
  rw [getByDotPath_eq] at hj
  unfold jsonValue at hvalue
  split_ifs at hvalue
  cases htyped : typedJson f.dataType j with
  | none =>
    rw [htyped] at hvalue
    cases hvalue
  | some v =>
    rw [htyped, Option.getD_some] at hvalue
    subst hvalue
    exact (h.walk hj).asF64 (asF64_of_typedJson htyped)

theorem finite_of_jsonRecords {P : JsonParser} (hP : ∀ text doc, P.fromStr text = .ok doc → FiniteJson doc) {text : String}
    {docs : List Json} (h : jsonRecords P text = .ok docs) : ∀ doc ∈ docs, FiniteJson doc := by
  unfold jsonRecords at h
  dsimp only at h
  split_ifs at h with hempty
  cases hdoc : P.fromStr (RustStd.trim text) with
  | ok doc =>
    have hfinite := hP _ _ hdoc
    rw [hdoc] at h
    cases doc with
    | array items =>
      obtain rfl := Except.ok.inj h
      cases hfinite with
      | array hitems => exact hitems
    | object members =>
      obtain rfl := Except.ok.inj h
      simpa using hfinite
    | _ => cases h
  | error e =>
    rw [hdoc] at h
    refine (Traverse.forall_mem_iff_of_mapM (Q := fun _ => True) h ?_).2 fun _ _ => trivial
    rintro ⟨line, i⟩ doc hline
    dsimp only at hline
    cases hj : P.fromStr (RustStd.trim line) with
    | error e => rw [hj] at hline; cases hline
    | ok j =>
      rw [hj] at hline
      cases hline
      exact iff_of_true (hP _ _ hj) trivial

/-- **What the reader returns** conforms, and its doubles are finite -/
theorem finite_of_ingestJsonFromStr {P : JsonParser} (hP : ∀ text doc, P.fromStr text = .ok doc → FiniteJson doc)
    {text : String} {schema : Schema} {ds : DataSet} (h : ingestJsonFromStr P text schema = .ok ds) :
    ds.Conforms schema ∧ ∀ row ∈ ds.rows, ∀ x, .float64 x ∈ row → x.isFinite = true := by
  rw [ingestJsonFromStr_eq] at h
  obtain ⟨docs, hdocs, hvalues⟩ := Traverse.bind_eq_ok h
  have hfaithful := (ingestJsonValues_faithful docs schema).1
  refine ⟨hfaithful.conforms ds hvalues, ?_⟩
  intro row hrow x hx
  obtain ⟨doc, hdoc, hcells⟩ := Traverse.exists_of_mem (hfaithful.rows ds hvalues).flip hrow
  obtain ⟨f, -, hcell⟩ := Traverse.exists_of_mem hcells.flip hx
  exact (finite_of_jsonRecords hP hdocs doc hdoc).jsonCell hcell

/-! ## Reading the lines -/

theorem parseLines_joinLines {P : JsonParser} {rows : List Row} {line : Row → String} {record : Row → Record}
    (hone : ∀ row ∈ rows, OneLine (line row)) (hparse : ∀ row ∈ rows, P.fromStr (line row) = .ok (.object (record row)))
    (hne : rows ≠ []) : parseLines P (joinLines (rows.map line)) = .ok (rows.map fun row => .object (record row)) := by
  have hlines : RustStd.lines (joinLines (rows.map line)) = rows.map line :=
    RustStd.lines_joinLines (by simpa using hone) (by simpa using hne)
  have hrow : ∀ p ∈ rows.zipIdx, p.1 ∈ rows := fun p hp => List.fst_mem_of_mem_zipIdx hp
  have hkept : (rows.map line).zipIdx.filter (fun p => RustStd.trim p.1 ≠ "") = rows.zipIdx.map (Prod.map line id) := by
    rw [List.zipIdx_map, List.filter_eq_self, List.forall_mem_map]
    intro p hp
    have hline := hone p.1 (hrow p hp)
    simpa [hline.trimmed] using hline.nonempty
  unfold parseLines
  rw [hlines, hkept, List.mapM_map]
  have hdocs : (rows.map fun row => Json.object (record row)) = rows.zipIdx.map fun p => .object (record p.1) := by
    conv_lhs => rw [← List.zipIdx_map_fst 0 rows, List.map_map]
    rfl
  rw [hdocs]
  refine Traverse.mapM_ok (List.forall₂_map_right_iff.2 (List.forall₂_same.2 fun p hp => ?_))
  simp only [Function.comp_def, Prod.map, (hone p.1 (hrow p hp)).trimmed, hparse p.1 (hrow p hp)]

/-- **Lines are read back as the documents they are**: one line as one document, several line by line -/
theorem jsonRecords_unlines {P : JsonParser} {rows : List Row} {line : Row → String} {record : Row → Record}
    (hone : ∀ row ∈ rows, OneLine (line row)) (hparse : ∀ row ∈ rows, P.fromStr (line row) = .ok (.object (record row)))
    (hsingle : ∀ text members rest, P.fromStr text = .ok (.object members) → RustStd.trim rest ≠ "" →
      ∀ doc, P.fromStr (text ++ "\n" ++ rest) ≠ .ok doc)
    (hne : rows ≠ []) : jsonRecords P (unlines (rows.map line)) = .ok (rows.map fun row => .object (record row)) := by
  have hlines : ∀ l ∈ rows.map line, OneLine l := by simpa using hone
  have hmap : rows.map line ≠ [] := by simpa using hne
  have htext : joinLines (rows.map line) ≠ "" := by
    intro h
    exact (RustStd.bounded_joinLines hlines hmap).ne_nil (by rw [h, String.toList_empty])
  have hparseLines := parseLines_joinLines hone hparse hne
  unfold jsonRecords
  dsimp only
  rw [RustStd.trim_unlines hlines hmap, if_neg htext]
  obtain ⟨row, rest, rfl⟩ := List.exists_cons_of_ne_nil hne
  rcases eq_or_ne rest [] with rfl | hrest
  · have hone : joinLines (List.map line [row]) = line row := by simp [joinLines]
    rw [hone, hparse row List.mem_cons_self]
    rfl
  · have hrestLines : ∀ l ∈ rest.map line, OneLine l := fun l hl => hlines l (List.mem_cons_of_mem _ hl)
    have hmapRest : rest.map line ≠ [] := by simpa using hrest
    have hblank : RustStd.trim (joinLines (rest.map line)) ≠ "" := by
      have hbounded := RustStd.bounded_joinLines hrestLines hmapRest
      rw [RustStd.trim_of_bounded hbounded]
      intro h
      exact hbounded.ne_nil (by rw [h, String.toList_empty])
    cases hdoc : P.fromStr (joinLines ((row :: rest).map line)) with
    | ok doc =>
      rw [List.map_cons, RustStd.joinLines_cons hmapRest] at hdoc
      exact absurd hdoc (hsingle _ _ _ (hparse row List.mem_cons_self) hblank doc)
    | error e => exact hparseLines

/-! ## Reading the objects -/

theorem jsonValue_valueToJson {v : Value} {dt : DataType} (hfits : v.fits dt)
    (hfinite : ∀ x, v = .float64 x → x.isFinite = true) :
    Converts dt (valueToJson v) ∧ jsonValue dt (valueToJson v) = v := by
  have htyped : v.hasType dt = true → (valueToJson v).isNull = false ∧ typedJson dt (valueToJson v) = some v := by
    intro htype
    cases v with
    | null => cases htype
    | bool b => cases dt <;> first | exact ⟨rfl, rfl⟩ | cases htype
    | utf8 s => cases dt <;> first | exact ⟨rfl, rfl⟩ | cases htype
    | int64 i =>
      cases dt with
      | int64 => exact ⟨rfl, by rw [typedJson, Kafka.asI64_valueToJson]; rfl⟩
      | _ => cases htype
    | float64 x =>
      cases dt with
      | float64 =>
        rw [valueToJson, if_pos (hfinite x rfl)]
        exact ⟨rfl, rfl⟩
      | _ => cases htype
  rcases hfits with rfl | htype
  · exact ⟨Or.inl rfl, rfl⟩
  · obtain ⟨hnull, hvalue⟩ := htyped htype
    refine ⟨Or.inr (by rw [hvalue]; rfl), ?_⟩
    rw [jsonValue, hnull, hvalue]
    rfl

theorem finite_valueToJson (v : Value) : FiniteJson (valueToJson v) := by
  cases v with
  | null => exact .null
  | bool b => exact .bool b
  | utf8 s => exact .string s
  | int64 i =>
    rw [valueToJson]
    split_ifs
    · exact .posInt _
    · exact .negInt _
  | float64 x =>
    rw [valueToJson]
    split_ifs with hx
    · exact .float hx
    · exact .null

/-- a cell is no object to walk into -/
theorem walk_valueToJson (v : Value) (segment : String) (rest : List String) :
    walk (valueToJson v) (segment :: rest) = none := by
  cases v with
  | float64 x =>
    rw [valueToJson]
    split_ifs <;> rfl
  | _ => rfl

section Row

variable {schema : Schema} {row : Row} {record : Record} (hnames : schema.fieldNames.Nodup)
  (hlen : row.length = schema.fields.length) (hsame : ∀ key, Json.get record key = Json.get (rowObject schema row) key)

include hnames hlen hsame

/-- a name without a dot is the name of the member -/
theorem getByDotPath_plain {f : Field} {v : Value} (hmem : (f, v) ∈ schema.fields.zip row)
    (hdot : RustStd.contains f.name '.' = false) : getByDotPath record f.name = some (valueToJson v) := by
  rw [getByDotPath_eq, RustStd.split_of_not_contains hdot, walk, hsame, Kafka.rowObject_get hnames hlen hmem]
  rfl

/-- a name with a dot is a path that leads nowhere -/
theorem getByDotPath_dotted {name : String} (hdot : RustStd.contains name '.' = true) : getByDotPath record name = none := by
  obtain ⟨segment, next, rest, hsplit⟩ := RustStd.split_of_contains hdot
  rw [getByDotPath_eq, hsplit, walk, hsame, Json.get, (Kafka.rowObject_eq hnames hlen).2]
  cases hget : ((schema.fields.zip row).map fun c => (c.1.name, valueToJson c.2)).lookup segment with
  | none => rfl
  | some j =>
    obtain ⟨l₁, l₂, hlist, -⟩ := List.lookup_eq_some_iff.1 hget
    have hmem : (segment, j) ∈ (schema.fields.zip row).map fun c => (c.1.name, valueToJson c.2) := by simp [hlist]
    obtain ⟨c, -, hc⟩ := List.mem_map.1 hmem
    obtain rfl : valueToJson c.2 = j := congrArg Prod.snd hc
    exact walk_valueToJson _ _ _

/-- the object of a row is read as the row -/
theorem record_reads_back (hconf : Row.Conforms row schema) (hfinite : ∀ x, .float64 x ∈ row → x.isFinite = true)
    (hdots : ∀ f ∈ schema.fields, RustStd.contains f.name '.' = false) :
    (∀ f ∈ schema.fields, ∃ j, getByDotPath record f.name = some j ∧ Converts f.dataType j) ∧
      (schema.fields.map fun f => jsonValue f.dataType ((getByDotPath record f.name).getD .null)) = row := by
  have hcell : ∀ f v, (f, v) ∈ schema.fields.zip row → getByDotPath record f.name = some (valueToJson v) ∧
      Converts f.dataType (valueToJson v) ∧ jsonValue f.dataType (valueToJson v) = v := by
    intro f v hmem
    obtain ⟨hf, hv⟩ := List.of_mem_zip hmem
    have hfits : v.fits f.dataType := (List.forall₂_iff_zip.1 hconf.flip).2 hmem
    exact ⟨getByDotPath_plain hnames hlen hsame hmem (hdots f hf),
      jsonValue_valueToJson hfits fun x hx => hfinite x (hx ▸ hv)⟩
  have hcells : List.Forall₂ (fun f v => getByDotPath record f.name = some (valueToJson v) ∧
      Converts f.dataType (valueToJson v) ∧ jsonValue f.dataType (valueToJson v) = v) schema.fields row :=
    List.forall₂_iff_zip.2 ⟨hlen.symm, fun {f v} hmem => hcell f v hmem⟩
  constructor
  · intro f hf
    obtain ⟨v, -, hpath, hconv, -⟩ := Traverse.exists_of_mem hcells hf
    exact ⟨_, hpath, hconv⟩
  · rw [← List.forall₂_eq_eq_eq, List.forall₂_map_left_iff]
    refine hcells.imp fun f v h => ?_
    rw [h.1, Option.getD_some, h.2.2]

end Row

section Rows

variable {schema : Schema} {rows : List Row} {record : Row → Record} (hnames : schema.fieldNames.Nodup)
  (hconf : ∀ row ∈ rows, Row.Conforms row schema)
  (hsame : ∀ row ∈ rows, ∀ key, Json.get (record row) key = Json.get (rowObject schema row) key)

include hnames hconf hsame

theorem rows_read_back (hfinite : ∀ row ∈ rows, ∀ x, .float64 x ∈ row → x.isFinite = true)
    (hdots : ∀ f ∈ schema.fields, RustStd.contains f.name '.' = false) :
    TextAccepts (rows.map record) schema ∧ textRows (rows.map record) schema = rows := by
  have hback := fun row hr => record_reads_back hnames (hconf row hr).length (hsame row hr) (hconf row hr) (hfinite row hr)
    hdots
  constructor
  · intro f hf
    rw [List.forall_mem_map]
    exact fun row hr => (hback row hr).1 f hf
  · rw [textRows, List.map_map]
    conv_rhs => rw [← List.map_id rows]
    exact List.map_congr_left fun row hr => (hback row hr).2

/-- a dotted name is missing from every record -/
theorem plain_of_accepts (hne : rows ≠ []) (h : TextAccepts (rows.map record) schema) :
    ∀ f ∈ schema.fields, RustStd.contains f.name '.' = false := by
  intro f hf
  obtain ⟨row, hr⟩ := List.exists_mem_of_ne_nil _ hne
  obtain ⟨j, hpath, -⟩ := h f hf (record row) (List.mem_map_of_mem hr)
  by_contra hdot
  rw [Bool.not_eq_false] at hdot
  rw [getByDotPath_dotted hnames (hconf row hr).length (hsame row hr) hdot] at hpath
  cases hpath

end Rows

/-! ## There and back -/

/-- at least one row, and no name that is read as a path -/
def Exportable (schema : Schema) (ds : DataSet) : Prop :=
  ds.rows ≠ [] ∧ ∀ name ∈ schema.fieldNames, RustStd.contains name '.' = false

/-- **What was read comes back from its export** when it has a row and no name has a dot; otherwise the export is refused -/
theorem jsonl_reads_back {P : JsonParser} {print : Json → Except String String} {text : String} {schema : Schema}
    {ds : DataSet} (hnames : schema.fieldNames.Nodup) (hread : ingestJsonFromStr P text schema = .ok ds)
    (hserde : SerdeJson P print (ds.rows.map (rowObject schema))) :
    ∃ exported, datasetToJsonl print ds schema.fieldNames = .ok exported ∧
      (Exportable schema ds → ingestJsonFromStr P exported schema = .ok ds) ∧
      (¬ Exportable schema ds → ∃ e, ingestJsonFromStr P exported schema = .error (.error e)) := by
  obtain ⟨hconf, hfinite⟩ := finite_of_ingestJsonFromStr hserde.finite hread
  obtain ⟨own, rows⟩ := ds
  obtain rfl : schema = own := hconf.schema_eq.symm
  have hlen : ∀ row ∈ rows, row.length = schema.fields.length := fun row hrow => (hconf.rows row hrow).length
  have hrows : ∀ row ∈ rows, ∃ line record, Reparsed P print (rowObject schema row) line record := by
    intro row hrow
    refine hserde.reparses _ (List.mem_map_of_mem hrow) (.object ?_)
    rw [(Kafka.rowObject_eq hnames (hlen row hrow)).2, List.forall_mem_map]
    exact fun c _ => finite_valueToJson c.2
  choose! line record hrow using hrows
  refine ⟨_, datasetToJsonl_eq hnames hlen fun row hr => (hrow row hr).prints, ?_⟩
  have hrefused : rows = [] → ∃ e, ingestJsonFromStr P (unlines (rows.map line)) schema = .error (.error e) := by
    rintro rfl
    exact ⟨_, rfl⟩
  rcases eq_or_ne rows [] with hempty | hne
  · exact ⟨fun h => absurd hempty h.1, fun _ => hrefused hempty⟩
  have hdocs := jsonRecords_unlines (fun row hr => (hrow row hr).oneLine) (fun row hr => (hrow row hr).parses)
    hserde.single hne
  have hmap : (rows.map fun row => Json.object (record row)) = (rows.map record).map .object := by rw [List.map_map]; rfl
  have hsame := fun row hr => (hrow row hr).same
  have hvalues := ingestJsonValues_returns (rows.map record) schema
  have hanswers := ingestJsonValues_answers ((rows.map record).map .object) schema
  rw [ingestJsonFromStr_eq, hdocs, hmap]
  constructor
  · intro h
    have hdots : ∀ f ∈ schema.fields, RustStd.contains f.name '.' = false :=
      fun f hf => h.2 _ (List.mem_map_of_mem hf)
    obtain ⟨haccepts, htext⟩ := rows_read_back hnames hconf.rows hsame hfinite hdots
    have hok := hvalues.eq_ok haccepts
    rw [htext] at hok
    exact hok
  · intro h
    apply hanswers.err_of_not_ok
    intro ds hds
    apply h
    refine ⟨hne, ?_⟩
    rw [Schema.fieldNames, List.forall_mem_map]
    exact plain_of_accepts hnames hconf.rows hsame hne (hvalues.of_ok hds).1

/-! ## Some documents -/

theorem mem_of_knownDocuments {docs : List (String × Json)} {h : ∀ p ∈ docs, RustStd.trim p.1 = p.1 ∧ p.1 ≠ ""}
    {text : String} {doc : Json} (hdoc : (knownDocuments docs h).fromStr text = .ok doc) : (text, doc) ∈ docs := by
  simp only [knownDocuments] at hdoc
  split at hdoc
  · next j hlookup =>
    obtain ⟨l₁, l₂, rfl, -⟩ := List.lookup_eq_some_iff.1 hlookup
    rw [← Except.ok.inj hdoc]
    simp
  · cases hdoc

/-- a document of one line is not continued on the next one -/
theorem knownDocuments_single {docs : List (String × Json)} {h : ∀ p ∈ docs, RustStd.trim p.1 = p.1 ∧ p.1 ≠ ""}
    (hline : ∀ p ∈ docs, '\n' ∉ p.1.toList) (text rest : String) (doc : Json) :
    (knownDocuments docs h).fromStr (text ++ "\n" ++ rest) ≠ .ok doc := by
  intro hdoc
  refine hline _ (mem_of_knownDocuments hdoc) ?_
  simp

/-- a parser that knows some documents of one line satisfies what is assumed of the parser -/
theorem knownDocuments_serde {docs : List (String × Json)} {h : ∀ p ∈ docs, RustStd.trim p.1 = p.1 ∧ p.1 ≠ ""}
    {print : Json → Except String String} {objects : List Record} (hfinite : ∀ p ∈ docs, FiniteJson p.2)
    (hline : ∀ p ∈ docs, '\n' ∉ p.1.toList)
    (hreparses : ∀ members ∈ objects, ∃ line record, Reparsed (knownDocuments docs h) print members line record) :
    SerdeJson (knownDocuments docs h) print objects where
  finite _ _ hdoc := hfinite _ (mem_of_knownDocuments hdoc)
  single text _ rest _ _ doc := knownDocuments_single hline text rest doc
  reparses members hm _ := hreparses members hm

/-- an object of one small integer, printed without escapes -/
def printInteger : Json → Except String String
  | .object [(key, .number (.posInt n))] => .ok s!"\x7b\"{key}\":{n.toNat}\x7d"
  | _ => .error "not printed"

theorem finite_integer (key : String) (n : UInt64) : FiniteJson (.object [(key, .number (.posInt n))]) := by
  refine .object fun m hm => ?_
  rw [List.mem_singleton.1 hm]
  exact .posInt n

def twoRecords : List (String × Json) :=
  [("[\x7b\"a\":1\x7d,\x7b\"a\":2\x7d]",
      .array [.object [("a", .number (.posInt 1))], .object [("a", .number (.posInt 2))]]),
    ("\x7b\"a\":1\x7d", .object [("a", .number (.posInt 1))]),
    ("\x7b\"a\":2\x7d", .object [("a", .number (.posInt 2))])]

theorem two_records_come_back :
    let P := knownDocuments twoRecords (by decide)
    let schema : Schema := ⟨[⟨"a", .int64⟩]⟩
    let ds : DataSet := ⟨schema, [[.int64 1], [.int64 2]]⟩
    ∃ exported, datasetToJsonl printInteger ds schema.fieldNames = .ok exported ∧
      (Exportable schema ds → ingestJsonFromStr P exported schema = .ok ds) ∧
      (¬ Exportable schema ds → ∃ e, ingestJsonFromStr P exported schema = .error (.error e)) := by
  intro P schema ds
  refine @jsonl_reads_back P printInteger "[\x7b\"a\":1\x7d,\x7b\"a\":2\x7d]" schema ds (by decide)
    (Traverse.ok_of_toOption (by decide +kernel)) ?_
  refine knownDocuments_serde ?_ (by decide) ?_
  · simp only [twoRecords, List.forall_mem_cons]
    refine ⟨.array ?_, finite_integer "a" 1, finite_integer "a" 2, by simp⟩
    simpa using ⟨finite_integer "a" 1, finite_integer "a" 2⟩
  · intro members hm
    obtain ⟨row, hrow, rfl⟩ := List.mem_map.1 hm
    simp only [ds, List.mem_cons, List.not_mem_nil, or_false] at hrow
    rcases hrow with rfl | rfl
    · exact ⟨"\x7b\"a\":1\x7d", _, rfl, ⟨by decide, by decide, by decide, by decide⟩, rfl, fun _ => rfl⟩
    · exact ⟨"\x7b\"a\":2\x7d", _, rfl, ⟨by decide, by decide, by decide, by decide⟩, rfl, fun _ => rfl⟩

/-- no record, and a record under a path -/
def emptyAndNested : List (String × Json) :=
  [("[]", .array []), ("\x7b\"a\":\x7b\"b\":1\x7d\x7d", .object [("a", .object [("b", .number (.posInt 1))])]),
    ("\x7b\"a.b\":1\x7d", .object [("a.b", .number (.posInt 1))])]

/-- the export of no rows is empty, which the reader refuses; the export of a nested field is flat -/
theorem empty_and_nested_are_lost :
    let P := knownDocuments emptyAndNested (by decide)
    let schema : Schema := ⟨[⟨"a.b", .int64⟩]⟩
    ¬ (∀ text ds, ingestJsonFromStr P text schema = .ok ds →
        SerdeJson P printInteger (ds.rows.map (rowObject schema)) → ds.rows = [] →
        ∃ exported, datasetToJsonl printInteger ds schema.fieldNames = .ok exported ∧
          ingestJsonFromStr P exported schema = .ok ds) ∧
      ¬ ∀ text ds, ingestJsonFromStr P text schema = .ok ds →
        SerdeJson P printInteger (ds.rows.map (rowObject schema)) → ds.rows ≠ [] →
        ∃ exported, datasetToJsonl printInteger ds schema.fieldNames = .ok exported ∧
          ingestJsonFromStr P exported schema = .ok ds := by
  intro P schema
  have hserde : ∀ rows : List Row, (∀ row ∈ rows, row = [.int64 1]) →
      SerdeJson P printInteger (rows.map (rowObject schema)) := by
    intro rows hrows
    refine knownDocuments_serde ?_ (by decide) ?_
    · simp only [emptyAndNested, List.forall_mem_cons]
      refine ⟨.array (by simp), .object ?_, finite_integer "a.b" 1, by simp⟩
      simpa using finite_integer "b" 1
    · intro members hm
      obtain ⟨row, hrow, rfl⟩ := List.mem_map.1 hm
      rw [hrows row hrow]
      exact ⟨"\x7b\"a.b\":1\x7d", _, rfl, ⟨by decide, by decide, by decide, by decide⟩, rfl, fun _ => rfl⟩
  constructor
  · intro h
    obtain ⟨exported, hexport, hread⟩ := h "[]" ⟨schema, []⟩ (Traverse.ok_of_toOption (by decide +kernel))
      (hserde [] (by simp)) rfl
    obtain rfl : "" = exported := Except.ok.inj hexport
    cases hread
  · intro h
    obtain ⟨exported, hexport, hread⟩ := h "\x7b\"a\":\x7b\"b\":1\x7d\x7d" ⟨schema, [[.int64 1]]⟩
      (Traverse.ok_of_toOption (by decide +kernel)) (hserde _ (by simp)) (by simp)
    have hline : (datasetToJsonl printInteger ⟨schema, [[.int64 1]]⟩ schema.fieldNames).toOption =
        some "\x7b\"a.b\":1\x7d\n" := by decide +kernel
    have hrefused : (ingestJsonFromStr P "\x7b\"a.b\":1\x7d\n" schema).toOption = none := by decide +kernel
    rw [hexport] at hline
    obtain rfl : exported = _ := Option.some.inj hline
    rw [hread] at hrefused
    cases hrefused

end RustDataProcessing.Export
