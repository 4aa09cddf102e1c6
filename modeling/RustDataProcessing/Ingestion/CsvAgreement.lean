/-
When the two CSV readers agree.

One reader parses each cell's text with the field's type. The other lets the engine type the column, parses the text
with that type, and casts the result. They agree on a cell when it is stable (`CellStable`): the text, trimmed, denotes
in the field's type the very value that the engine's reading converts to.

- `ingestCsvFromReader_returns`, `ingestCsvFromPath_returns`: what each reader computes, and on which tables it fails.
- `csv_readers_agree_iff`: on any table and schema the two agree exactly when both fail, or both accept the table and
  every cell of a schema column is stable.
- `leading_zeros_lost`: "007" under a `Utf8` field is kept by one reader and is "7" for the other.
-/
import Mathlib.Tactic
import RustDataProcessing.Ingestion.Csv

namespace RustDataProcessing.Ingestion

open Polars

/-! ## The reader over text -/

/-- what a trimmed text denotes in a type -/
def typedText : DataType → String → Option Value
  | .utf8, s => some (.utf8 s)
  | .int64, s => (RustStd.parseI64 s).toOption.map .int64
  | .float64, s => (RustStd.parseF64 s).toOption.map .float64
  | .bool, s => (parseBool s).toOption.map .bool

/-- an empty cell, or one whose text denotes a value of the type -/
def Parses (dt : DataType) (c : String) : Prop := RustStd.trim c = "" ∨ (typedText dt (RustStd.trim c)).isSome

def readerValue (dt : DataType) (c : String) : Value :=
  if RustStd.trim c = "" then .null else (typedText dt (RustStd.trim c)).getD .null

def readerColumn (t : CsvTable) (name : String) : Option ℕ := t.header.findIdx? (· = name)

/-- a row's cell in the field's column -/
def readerCell (t : CsvTable) (name : String) (r : List String) : String := r.getD ((readerColumn t name).getD 0) ""

/-- the tables the reader accepts: every field has a column, and all its cells parse -/
def ReaderAccepts (t : CsvTable) (schema : Schema) : Prop :=
  ∀ f ∈ schema.fields, (readerColumn t f.name).isSome ∧ ∀ r ∈ t.rows, Parses f.dataType (readerCell t f.name r)

def readerRows (t : CsvTable) (schema : Schema) : List Row :=
  t.rows.map fun r => schema.fields.map fun f => readerValue f.dataType (readerCell t f.name r)

theorem parseTypedValue_returns (row : ℕ) (column : String) (dt : DataType) (c : String) :
    Traverse.Returns (parseTypedValue row column dt c) (Parses dt c) (readerValue dt c) := by
  unfold parseTypedValue Parses readerValue Traverse.Returns
  by_cases hs : RustStd.trim c = ""
  · simp [hs]
  · simp only [hs, if_false, false_or]
    cases dt with
    | utf8 => exact Or.inl ⟨rfl, rfl⟩
    | int64 => cases h : RustStd.parseI64 (RustStd.trim c) <;> simp [typedText, h, Except.toOption]
    | float64 => cases h : RustStd.parseF64 (RustStd.trim c) <;> simp [typedText, h, Except.toOption]
    | bool => cases h : parseBool (RustStd.trim c) <;> simp [typedText, h, Except.toOption]

theorem columnIndex_returns (t : CsvTable) (f : Field) :
    Traverse.Returns (columnIndex t.header f) (readerColumn t f.name).isSome ((readerColumn t f.name).getD 0) := by
  unfold columnIndex readerColumn
  cases t.header.findIdx? (· = f.name) with
  | none => exact Or.inr ⟨nofun, _, rfl⟩
  | some j => exact Or.inl ⟨rfl, rfl⟩

/-- the cell loop of one record -/
theorem record_returns (t : CsvTable) (schema : Schema) (userRow : ℕ) (r : List String) :
    Traverse.Returns
      ((schema.fields.zip (schema.fields.map fun f => (readerColumn t f.name).getD 0)).mapM fun p =>
        parseTypedValue userRow p.1.name p.1.dataType (r.getD p.2 ""))
      (∀ f ∈ schema.fields, Parses f.dataType (readerCell t f.name r))
      (schema.fields.map fun f => readerValue f.dataType (readerCell t f.name r)) := by
  rw [← List.map_prod_left_eq_zip, List.mapM_map]
  simp only [Function.comp_def, readerCell]
  exact Traverse.Returns.mapM fun f _ => parseTypedValue_returns userRow f.name f.dataType _

/-- **What the reader computes** -/
theorem ingestCsvFromReader_returns (t : CsvTable) (schema : Schema) :
    Traverse.Returns (ingestCsvFromReader t.reader schema) (ReaderAccepts t schema) ⟨schema, readerRows t schema⟩ := by
  have hcols := Traverse.Returns.mapM fun f (_ : f ∈ schema.fields) => columnIndex_returns t f
  have hrows := Traverse.Returns.mapM fun (p : List String × ℕ) (_ : p ∈ t.rows.zipIdx) =>
    record_returns t schema (p.2 + 2) p.1
  have hvalues : (t.rows.zipIdx.map fun p => schema.fields.map fun f =>
      readerValue f.dataType (readerCell t f.name p.1)) = readerRows t schema := by
    rw [readerRows]
    conv_rhs => rw [← List.zipIdx_map_fst 0 t.rows, List.map_map]
    rfl
  have hparses : (∀ p ∈ t.rows.zipIdx, ∀ f ∈ schema.fields, Parses f.dataType (readerCell t f.name p.1)) ↔
      ∀ r ∈ t.rows, ∀ f ∈ schema.fields, Parses f.dataType (readerCell t f.name r) := by
    conv_rhs => rw [← List.zipIdx_map_fst 0 t.rows, List.forall_mem_map]
  simp only [ingestCsvFromReader, CsvTable.reader, List.zipIdx_map, List.mapM_map, Function.comp_def, Prod.map,
    csvResult_ok_bind, id_eq]
  refine Traverse.Returns.congr (Traverse.Returns.bind hcols fun _ => Traverse.Returns.bind
    (hrows.congr hparses hvalues) fun _ => Traverse.Returns.ok (DataSet.mk schema (readerRows t schema))) ?_ rfl
  rw [and_true]
  exact ⟨fun h f hf => ⟨h.1 f hf, fun r hr => h.2 r hr f hf⟩,
    fun h => ⟨fun f hf => (h f hf).1, fun r hr f hf => (h f hf).2 r hr⟩⟩

/-! ## The reader over the engine -/

section Path

variable (E : CsvEngine) (t : CsvTable)

def engineColumn (name : String) : Option ℕ :=
  (List.range t.header.length).find? fun j => (E.columnNames t.header).getD j "" = name

/-- a row's cell in the field's column, as the engine reads it -/
def engineCell (name : String) (r : List String) : AnyValue :=
  match engineColumn E t name with
  | some j => (E.readCell (E.columnType t j) (r.getD j "")).getD .null
  | none => .null

/-- the tables the engine's reader accepts: every cell of the file parses with its column's type, and every field has a
column with a cast -/
def PathAccepts (schema : Schema) : Prop :=
  E.Readable t ∧ ∀ f ∈ schema.fields, ∃ j, engineColumn E t f.name = some j ∧
    E.canCast (E.columnType t j).dtype (targetType f.dataType)

def pathRows (schema : Schema) : List Row :=
  t.rows.map fun r => schema.fields.map fun f => scalarValue E.toEngine f.dataType (engineCell E t f.name r)

theorem frame_column_ok_iff {name : String} {s : Series} :
    (E.frame t).column name = .ok s ↔ ∃ j, engineColumn E t name = some j ∧ E.series t j = s := by
  have hfind : (E.frame t).columns.find? (fun c => c.name = name) = (engineColumn E t name).map (E.series t) := by
    rw [CsvRules.frame, List.find?_map]
    rfl
  rw [DataFrame.column, hfind]
  cases engineColumn E t name <;> simp

theorem frameCell_eq (name : String) {i : ℕ} (hi : i < t.rows.length) :
    frameCell (E.frame t) name i = engineCell E t name t.rows[i] := by
  unfold frameCell engineCell
  cases hj : engineColumn E t name with
  | none =>
    cases hc : (E.frame t).column name with
    | error e => rfl
    | ok s => obtain ⟨j, hj', -⟩ := (frame_column_ok_iff E t).1 hc; rw [hj] at hj'; cases hj'
  | some j =>
    rw [(frame_column_ok_iff E t).2 ⟨j, hj, rfl⟩]
    simp [CsvRules.series, CsvTable.column, hi]

variable {E}

theorem engineCell_scalar (hE : E.ReadsTables) (name : String) (r : List String) :
    (engineCell E t name r).isScalar := by
  unfold engineCell
  cases engineColumn E t name with
  | none => rfl
  | some j =>
    simp only
    cases hv : E.readCell (E.columnType t j) (r.getD j "") with
    | none => rfl
    | some v => exact hE.scalar _ _ v hv

theorem frameRows_eq (hE : E.ReadsTables) (schema : Schema) :
    frameRows E.toEngine (E.frame t) schema = pathRows E t schema := by
  unfold frameRows pathRows
  refine List.ext_getElem (by simp [CsvRules.frame]) fun i hi _ => ?_
  have hr : i < t.rows.length := by simpa [CsvRules.frame] using hi
  simp only [List.getElem_map, List.getElem_range, frameCell_eq E t _ hr]
  exact List.map_congr_left fun f _ => (convertCell_cast hE.cast f.dataType _).2.2 (engineCell_scalar t hE f.name _)

/-- **What the path reader computes** -/
theorem ingestCsvFromPath_returns (hE : E.ReadsTables) (schema : Schema) :
    Traverse.Returns (ingestCsvFromPath E t schema) (PathAccepts E t schema) ⟨schema, pathRows E t schema⟩ := by
  unfold ingestCsvFromPath
  by_cases hread : E.Readable t
  · rw [hE.reads t hread]
    refine (dataframeToDataset_returns hE.cast (E.frame t) schema "column" 2).congr ?_ (by rw [frameRows_eq t hE])
    simp only [Castable, PathAccepts, hread, true_and, frame_column_ok_iff]
    refine forall₂_congr fun f _ => ⟨?_, ?_⟩
    · rintro ⟨_, ⟨j, hj, rfl⟩, hcast⟩
      exact ⟨j, hj, hcast⟩
    · rintro ⟨j, hj, hcast⟩
      exact ⟨_, ⟨j, hj, rfl⟩, hcast⟩
  · obtain ⟨e, he⟩ := hE.refuses t hread
    rw [he]
    exact Or.inr ⟨fun h => hread h.1, _, rfl⟩

end Path

/-! ## Agreement -/

/-- the value read has no counterpart in the type -/
def NoValue (T : TextRules) (dt : DataType) (v : AnyValue) : Prop :=
  match dt with
  | .int64 => T.int64Of v = none
  | .float64 => T.float64Of v = none
  | .bool => T.boolOf v = none
  | .utf8 => T.stringOf v = none

/-- the text is, in the type, the value read: a `Utf8` text is the canonical form of the value, an `Int64` text is its
whole part, and so on -/
def SameValue (T : TextRules) (dt : DataType) (v : AnyValue) (s : String) : Prop :=
  match dt with
  | .int64 => ∃ n, RustStd.parseI64 s = .ok n ∧ T.int64Of v = some n
  | .float64 => ∃ x, RustStd.parseF64 s = .ok x ∧ T.float64Of v = some x
  | .bool => ∃ b, parseBool s = .ok b ∧ T.boolOf v = some b
  | .utf8 => T.stringOf v = some s

/-- the cell's text `c` and the engine's reading `v` of it give the same value of the type -/
def CellStable (T : TextRules) (dt : DataType) (v : AnyValue) (c : String) : Prop :=
  (RustStd.trim c = "" ∧ NoValue T dt v) ∨ (RustStd.trim c ≠ "" ∧ SameValue T dt v (RustStd.trim c))

def CellsStable (E : CsvEngine) (t : CsvTable) (schema : Schema) : Prop :=
  ∀ f ∈ schema.fields, ∀ r ∈ t.rows,
    CellStable E.toTextRules f.dataType (engineCell E t f.name r) (readerCell t f.name r)

theorem scalarValue_eq_null_iff (E : Engine) (dt : DataType) (v : AnyValue) :
    scalarValue E dt v = .null ↔ NoValue E.toTextRules dt v := by
  cases dt <;> exact elim_eq_null_iff (by simp) _

/-- the value read and a parsed text are the same in the type -/
theorem scalarValue_eq_typedText_iff (E : Engine) (dt : DataType) (v : AnyValue) {s : String}
    (hs : (typedText dt s).isSome) :
    scalarValue E dt v = (typedText dt s).getD .null ↔ SameValue E.toTextRules dt v s := by
  have hparse : ∀ {ε α : Type} {val : α → Value} (r : Except ε α) (o : Option α), (∀ a, val a ≠ .null) →
      Function.Injective val → (r.toOption.map val).isSome →
      (o.elim .null val = (r.toOption.map val).getD .null ↔ ∃ a, r = .ok a ∧ o = some a) := by
    intro ε α val r o hval hinj hr
    cases r with
    | error e => cases hr
    | ok a => simpa [Except.toOption] using elim_eq_iff hval hinj o a
  cases dt with
  | int64 => exact hparse _ _ (by simp) (fun _ _ => Value.int64.inj) hs
  | float64 => exact hparse _ _ (by simp) (fun _ _ => Value.float64.inj) hs
  | bool => exact hparse _ _ (by simp) (fun _ _ => Value.bool.inj) hs
  | utf8 => exact elim_eq_iff (by simp) (fun _ _ => Value.utf8.inj) _ s

/-- on a cell the text reader accepts, stable means the same value -/
theorem cellStable_iff (E : Engine) (dt : DataType) (v : AnyValue) {c : String} (hc : Parses dt c) :
    CellStable E.toTextRules dt v c ↔ scalarValue E dt v = readerValue dt c := by
  unfold CellStable readerValue
  by_cases hs : RustStd.trim c = ""
  · simp [hs, scalarValue_eq_null_iff]
  · have hsome := hc.resolve_left hs
    simp [hs, scalarValue_eq_typedText_iff E dt v hsome]

/-- **When the two CSV readers agree** -/
theorem csv_readers_agree_iff {E : CsvEngine} (hE : E.ReadsTables) (t : CsvTable) (schema : Schema) :
    Traverse.Agree (ingestCsvFromPath E t schema) (ingestCsvFromReader t.reader schema) ↔
      (¬ PathAccepts E t schema ∧ ¬ ReaderAccepts t schema) ∨
        (PathAccepts E t schema ∧ ReaderAccepts t schema ∧ CellsStable E t schema) := by
  rw [Traverse.agree_iff (ingestCsvFromPath_returns t hE schema) (ingestCsvFromReader_returns t schema)]
  refine or_congr Iff.rfl (and_congr_right fun _ => and_congr_right fun hacc => ?_)
  rw [DataSet.mk.injEq, eq_self, true_and, pathRows, readerRows, List.map_inj_left]
  constructor
  · intro h f hf r hr
    exact (cellStable_iff E.toEngine _ _ ((hacc f hf).2 r hr)).2 (List.map_inj_left.1 (h r hr) f hf)
  · intro h r hr
    exact List.map_inj_left.2 fun f hf => (cellStable_iff E.toEngine _ _ ((hacc f hf).2 r hr)).1 (h f hf r hr)

/-! ## Digits with leading zeros -/

/-- the type a text looks like; none of an empty one -/
def plainCellType (c : String) : Option CsvType :=
  let digits := match c.toList with
    | '-' :: ds => ds
    | ds => ds
  if c = "" then none
  else if digits ≠ [] ∧ digits.all Char.isDigit then some .integer
  else if RustStd.toAsciiLowercase c ∈ ["true", "false"] then some .boolean
  else if (RustStd.parseF64 c).toOption.isSome then some .float
  else some .string

def plainCsvRules : CsvRules where
  leadingRows := 100
  inferType cells :=
    let types := cells.filterMap plainCellType
    if types = [] then .string
    else if types.all (· = .integer) then .integer
    else if types.all (· ∈ [.integer, .float]) then .float
    else if types.all (· = .boolean) then .boolean
    else .string
  readCell ty c :=
    if c = "" then some .null
    else match ty with
      | .integer => (RustStd.parseI64 c).toOption.map .int64
      | .float => (RustStd.parseF64 c).toOption.map .float64
      | .boolean => (Engine.plainTexts.textBool (RustStd.toAsciiLowercase c)).map .boolean
      | .string => some (.string c)
  columnNames header := header.zipIdx.map fun (name, i) =>
    match (header.take i).count name with
    | 0 => name
    | k + 1 => s!"{name}_duplicated_{k}"

instance CsvRules.decidableReadable (R : CsvRules) (t : CsvTable) : Decidable (R.Readable t) :=
  inferInstanceAs (Decidable (∀ _ < _, ∀ _ ∈ _, _))

def unparsable : PolarsError := .other "could not parse a cell as the dtype of its column" []

def plainCsv : CsvEngine where
  toEngine := Engine.plain
  toCsvRules := plainCsvRules
  finish t := .ok (if plainCsvRules.Readable t then .ok (plainCsvRules.frame t)
    else .error unparsable)

theorem plainCsv_readsTables : plainCsv.ReadsTables where
  cast := Engine.plain_nonStrict
  scalar ty c v h := by
    by_cases hc : c = ""
    · simp only [plainCsv, plainCsvRules, hc, if_true, Option.some.injEq] at h
      rw [← h]; rfl
    · simp only [plainCsv, plainCsvRules, hc, if_false] at h
      cases ty with
      | string => cases h; rfl
      | integer => obtain ⟨_, -, rfl⟩ := Option.map_eq_some_iff.1 h; rfl
      | float => obtain ⟨_, -, rfl⟩ := Option.map_eq_some_iff.1 h; rfl
      | boolean => obtain ⟨_, -, rfl⟩ := Option.map_eq_some_iff.1 h; rfl
  reads t h := by simp only [plainCsv] at h ⊢; rw [if_pos h]
  refuses t h := ⟨unparsable, by simp only [plainCsv] at h ⊢; rw [if_neg h]⟩

def codeSchema : Schema := ⟨[⟨"code", .utf8⟩]⟩

def codes : CsvTable := ⟨["code", "n"], [["A7", "1"], ["B12", "2"]], by decide, by decide, by decide⟩

def zeroCodes : CsvTable := ⟨["code", "n"], [["007", "1"]], by decide, by decide, by decide⟩

theorem codes_agree :
    Traverse.Agree (ingestCsvFromPath plainCsv codes codeSchema) (ingestCsvFromReader codes.reader codeSchema) := by
  refine (csv_readers_agree_iff plainCsv_readsTables codes codeSchema).2 (Or.inr ⟨⟨by decide, ?_⟩, ?_, ?_⟩)
  · intro f hf
    obtain rfl := List.mem_singleton.1 hf
    exact ⟨0, by decide, by decide⟩
  · intro f hf
    obtain rfl := List.mem_singleton.1 hf
    exact ⟨by decide, by unfold Parses; decide⟩
  · intro f hf r hr
    obtain rfl := List.mem_singleton.1 hf
    fin_cases hr
    · exact Or.inr ⟨by decide, show Engine.plainTexts.stringOf _ = _ from by decide⟩
    · exact Or.inr ⟨by decide, show Engine.plainTexts.stringOf _ = _ from by decide⟩

/-- **Leading zeros are lost**: the engine reads "007" as an integer and prints it as "7" -/
theorem leading_zeros_lost :
    ¬ ∀ (E : CsvEngine) (t : CsvTable) (schema : Schema), E.ReadsTables →
      Traverse.Agree (ingestCsvFromPath E t schema) (ingestCsvFromReader t.reader schema) := by
  intro h
  have hpath : ingestCsvFromPath plainCsv zeroCodes codeSchema = .ok ⟨codeSchema, [[.utf8 "7"]]⟩ := by rfl
  have hreader : ingestCsvFromReader zeroCodes.reader codeSchema = .ok ⟨codeSchema, [[.utf8 "007"]]⟩ := by rfl
  have hagree := h plainCsv zeroCodes codeSchema plainCsv_readsTables
  rw [hpath, hreader] at hagree
  rcases hagree with ⟨ds, h7, h007⟩ | ⟨⟨e, he⟩, -⟩
  · cases h7
    exact absurd (Except.ok.inj h007) (by decide)
  · cases he

end RustDataProcessing.Ingestion
