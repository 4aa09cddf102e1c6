/-
The engine's side of the JSON path reader: the frame it reads an array of objects into, the projection of columns out of
a lazy frame, and what is assumed of both (`ReadsRecords`). `plainJson` is an engine that keeps the assumptions.
-/
import Mathlib.Tactic
import RustDataProcessing.Ingestion.JsonColumns

namespace RustDataProcessing.Ingestion

open Polars

/-! ## The frame of an array of objects -/

namespace JsonRules

variable (R : JsonRules) (records : List Record)

/-- the struct type of the records: one member for each key -/
def rootType : PType := R.inferType (records.map .object)

/-- the engine can read every value of the records -/
def Readable : Prop := ∀ record ∈ records, (R.readValue (R.rootType records) (.object record)).isSome

def rootCell (record : Record) : AnyValue := (R.readValue (R.rootType records) (.object record)).getD .null

/-- the frame: the root struct, one column for each member -/
def frame : DataFrame where
  height := records.length
  columns := (R.rootType records).members.map fun p =>
    ⟨p.1, p.2, records.map fun record => (R.rootCell records record).member p.1⟩
  heights := List.forall_mem_map.2 fun _ _ => List.length_map ..

/-- the type of a field's column, and a record's cell in it -/
def fieldType (name : String) : Option PType := PType.follow (RustStd.split name '.') (R.rootType records)

def fieldCell (name : String) (record : Record) : AnyValue :=
  (R.rootCell records record).follow (RustStd.split name '.')

end JsonRules

/-! ## Projection -/

/-- the engine's reader and lazy frames; `emptyHeight` is the height of a selection of no columns -/
structure JsonEngine extends JsonBackend, JsonRules where
  emptyHeight : ℕ → ℕ

/-- a selected column: one of the derived ones, or a column of the frame -/
def selected (E : Engine) (df : DataFrame) (derived : List Expr) (name : String) : Except PolarsError Series :=
  match derived.find? (fun e => e.outputName = name) with
  | some e => e.eval E df
  | none => df.column name

/-- what `with_columns` and `select` ask for: names that are distinct, and columns that exist -/
structure Projectable (E : Engine) (df : DataFrame) (derived : List Expr) (names : List String) : Prop where
  derivedDistinct : (derived.map Expr.outputName).Nodup
  namesDistinct : names.Nodup
  derivedExist : ∀ e ∈ derived, ∃ s, e.eval E df = .ok s
  namesExist : ∀ name ∈ names, ∃ s, selected E df derived name = .ok s

/-- the assumptions on the engine: it reads an array of objects by its rules, and projects what can be projected -/
structure JsonEngine.ReadsRecords (P : JsonParser) (E : JsonEngine) : Prop where
  cast : E.NonStrict
  reads : ∀ text records, P.fromStr text = .ok (.array (records.map .object)) → records ≠ [] → E.Readable records →
    E.finish .json text = .ok (E.frame records)
  refuses : ∀ text records, P.fromStr text = .ok (.array (records.map .object)) → records ≠ [] → ¬ E.Readable records →
    ∃ e, E.finish .json text = .error e
  projects : ∀ df derived names, (∀ e ∈ derived, e.isPath) → Projectable E.toEngine df derived names →
    ∃ out, E.project df derived (names.map .col) = .ok out ∧
      List.Forall₂ (fun name s => selected E.toEngine df derived name = .ok s) names out.columns ∧
      out.height = if names = [] then E.emptyHeight df.height else df.height
  refusesProjection : ∀ df derived names, (∀ e ∈ derived, e.isPath) → ¬ Projectable E.toEngine df derived names →
    ∃ e, E.project df derived (names.map .col) = .error e

theorem selected_path {E : Engine} {df : DataFrame} {derived : List Expr} (hpaths : ∀ e ∈ derived, e.isPath)
    {name : String} {s : Series} (h : selected E df derived name = .ok s) :
    s.name = name ∧ s.cells.length = df.height := by
  unfold selected at h
  split at h
  · rename_i e he
    obtain ⟨hname, hheight⟩ := Expr.eval_path (hpaths e (List.mem_of_find?_eq_some he)) h
    exact ⟨hname.trans (by simpa using List.find?_some he), hheight⟩
  · obtain ⟨hmem, hname⟩ := DataFrame.column_mem h
    exact ⟨hname, df.heights s hmem⟩

/-! ## An engine that keeps them -/

/-- a parser that knows some documents -/
def knownDocuments (docs : List (String × Json)) (h : ∀ p ∈ docs, RustStd.trim p.1 = p.1 ∧ p.1 ≠ "") : JsonParser where
  fromStr s := match docs.lookup s with
    | some j => .ok j
    | none => .error "expected value at line 1 column 1"
  fromStr_trim s j hs := by
    cases hl : docs.lookup s with
    | none => rw [hl] at hs; cases hs
    | some i =>
      obtain ⟨l₁, l₂, rfl, -⟩ := List.lookup_eq_some_iff.1 hl
      rw [(h (s, i) (by simp)).1]
      exact hs
  fromStr_empty j hs := by
    cases hl : docs.lookup "" with
    | none => rw [hl] at hs; cases hs
    | some i =>
      obtain ⟨l₁, l₂, rfl, -⟩ := List.lookup_eq_some_iff.1 hl
      exact (h ("", i) (by simp)).2 rfl

/-- the selected column; nulls where there is none, or none of the frame's height -/
def selectedColumn (df : DataFrame) (derived : List Expr) (name : String) : Series :=
  match selected Engine.plain df derived name with
  | .ok s => if s.cells.length = df.height then s else ⟨name, .other "null", List.replicate df.height .null⟩
  | .error _ => ⟨name, .other "null", List.replicate df.height .null⟩

theorem selectedColumn_height (df : DataFrame) (derived : List Expr) (name : String) :
    (selectedColumn df derived name).cells.length = df.height := by
  unfold selectedColumn
  split
  · split
    · assumption
    · exact List.length_replicate
  · exact List.length_replicate

def projectedFrame (df : DataFrame) (derived : List Expr) (names : List String) : DataFrame where
  height := df.height
  columns := names.map (selectedColumn df derived)
  heights := List.forall_mem_map.2 fun name _ => selectedColumn_height df derived name

instance Projectable.decidable (E : Engine) (df : DataFrame) (derived : List Expr) (names : List String) :
    Decidable (Projectable E df derived names) :=
  have exists_iff : ∀ r : Except PolarsError Series, (∃ s, r = .ok s) ↔ r.isOk := by
    intro r
    cases r <;> simp [Except.isOk, Except.toBool]
  decidable_of_iff ((derived.map Expr.outputName).Nodup ∧ names.Nodup ∧ (∀ e ∈ derived, (e.eval E df).isOk) ∧
      ∀ name ∈ names, (selected E df derived name).isOk)
    ⟨fun ⟨h1, h2, h3, h4⟩ => ⟨h1, h2, fun e he => (exists_iff _).2 (h3 e he), fun n hn => (exists_iff _).2 (h4 n hn)⟩,
      fun h => ⟨h.1, h.2, fun e he => (exists_iff _).1 (h.3 e he), fun n hn => (exists_iff _).1 (h.4 n hn)⟩⟩

instance JsonRules.decidableReadable (R : JsonRules) (records : List Record) : Decidable (R.Readable records) :=
  inferInstanceAs (Decidable (∀ _ ∈ _, _))

/-- mixed columns are text, and a value of another kind reads as null -/
def plainJsonRules : JsonRules := ⟨fun _ => .string, fun _ _ => some .null⟩

def plainFinish (P : JsonParser) (text : String) : Except PolarsError DataFrame :=
  match P.fromStr text with
  | .ok (.array items) => match items.mapM Json.asObject with
    | some records =>
      if plainJsonRules.Readable records then .ok (plainJsonRules.frame records)
      else .error (.other "error deserializing value" [])
    | none => .error (.other "expected objects" [])
  | _ => .error (.other "invalid JSON" [])

def plainJson (P : JsonParser) : JsonEngine where
  toEngine := Engine.plain
  toJsonRules := plainJsonRules
  emptyHeight height := height
  finish _ text := plainFinish P text
  project df derived projection :=
    let names := projection.map Expr.outputName
    if Projectable Engine.plain df derived names then .ok (projectedFrame df derived names)
    else .error (.other "a projected column is missing or named twice" [])

theorem mapM_asObject (records : List Record) : (records.map Json.object).mapM Json.asObject = some records := by
  induction records with
  | nil => rfl
  | cons r records ih => rw [List.map_cons, List.mapM_cons, ih]; rfl

theorem outputNames_col (names : List String) : (names.map Expr.col).map Expr.outputName = names := by
  simp [Function.comp_def, Expr.outputName]

theorem plainJson_readsRecords (P : JsonParser) : (plainJson P).ReadsRecords P where
  cast := Engine.plain_nonStrict
  reads text records htext _ h := by
    change plainFinish P text = _
    simp only [plainFinish, htext, mapM_asObject]
    exact if_pos h
  refuses text records htext _ h := by
    refine ⟨.other "error deserializing value" [], ?_⟩
    change plainFinish P text = _
    simp only [plainFinish, htext, mapM_asObject]
    exact if_neg h
  projects df derived names hpaths h := by
    refine ⟨projectedFrame df derived names, ?_, ?_, ?_⟩
    · simp only [plainJson, outputNames_col]
      exact if_pos h
    · rw [projectedFrame, List.forall₂_map_right_iff, List.forall₂_same]
      intro name hname
      obtain ⟨s, hs⟩ := h.namesExist name hname
      change selected Engine.plain df derived name = .ok s at hs
      change selected Engine.plain df derived name = _
      rw [selectedColumn, hs]
      exact congrArg Except.ok (if_pos (selected_path hpaths hs).2).symm
    · simp [projectedFrame, plainJson]
  refusesProjection df derived names _ h := by
    refine ⟨.other "a projected column is missing or named twice" [], ?_⟩
    simp only [plainJson, outputNames_col]
    exact if_neg h

end RustDataProcessing.Ingestion
