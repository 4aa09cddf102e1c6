/-
A transformation works row by row (`TransformSpec::apply` in `src/transform.rs`).

- `apply_by_rows`: a transformation maps a function over the rows, and fails where the function does.
- `batches_agree`: so it may be applied batch by batch.

A frame that has lost all its columns has lost the number of its rows; the results are about specs that do not get there
(`KeepsColumns`). They assume an engine whose casts are not strict unless they are asked to be (`NonStrict`), which
computes a column with a literal cell by cell (`Cellwise`), and no more rows than it has numbers for. Which casts the
engine leaves out depends on the spec and the schema, so that the function of the rows takes account of it: a row is
refused by the casts that are carried out.
-/
import Mathlib.Tactic
import RustDataProcessing.Query
import RustDataProcessing.Transform.Plan

namespace RustDataProcessing.Transform

open Polars (PType AnyValue Series PolarsError)
open Ingestion (targetType toAnyValue castValue outputType rowCell frameCell frameRows Castable datasetFrame
  dataframeToDataset)
open Pipeline (DataFrame)
open Traverse (toOption_bind toOption_map toOption_mapError toOption_mapM)

/-! ## Through a dataset -/

/-- the dataset that the rows become -/
def RowMap.dataset (schema : Schema) (rows : List Row) (m : RowMap) : Option DataSet :=
  (rows.mapM m.run).map (DataSet.mk schema)

theorem RowMap.mapM_run (m : RowMap) (rows : List Row) :
    rows.mapM m.run = if rows.all m.accepts then some (rows.map m.map) else none :=
  Traverse.mapM_guard m.accepts m.map rows

theorem RowMap.run_andThen (m : RowMap) (body : Row → IngestionResult Row) (row : Row) :
    (m.andThen body).run row = (m.run row).bind fun row => (body row).toOption := by
  cases h : m.accepts row with
  | false => simp [run, andThen, h]
  | true => cases hbody : (body (m.map row)).toOption <;> simp [run, andThen, h, hbody]

theorem frame_ext {df df' : Polars.DataFrame} (hheight : df.height = df'.height) (hcolumns : df.columns = df'.columns) :
    df = df' := by
  obtain ⟨height, columns, heights⟩ := df
  obtain ⟨height', columns', heights'⟩ := df'
  obtain rfl : height = height' := hheight
  obtain rfl : columns = columns' := hcolumns
  rfl

section DataSets

variable {B : Build} {columns : List Column} {rows : List Row}

theorem frameCell_over (name : String) {i : ℕ} (hi : i < rows.length) :
    frameCell (frameOver columns rows) name i = (find columns name).elim .null fun c => c.cell rows[i] := by
  have hcolumn := @frameOver_column columns rows name
  unfold frameCell
  cases hfind : find columns name with
  | none =>
    rw [hfind] at hcolumn
    cases hget : (frameOver columns rows).column name with
    | ok s => rw [hget] at hcolumn; cases hcolumn
    | error e => rfl
  | some c =>
    rw [hfind] at hcolumn
    rw [Traverse.ok_of_toOption hcolumn]
    change (rows.map c.cell).getD i .null = c.cell rows[i]
    simp [hi]

/-- the cells of a frame, cast and read -/
theorem dataset_over (hE : B.toEngine.NonStrict) {p : Plan} (haccepts : rows.all p.accepts = true) (schema : Schema) :
    (dataframeToDataset B.toEngine (frameOver p.columns rows) schema "column" 1).toOption =
      (p.collect B schema).bind (RowMap.dataset schema rows) := by
  have hcast : Castable B.toEngine (frameOver p.columns rows) schema ↔ (schema.fields.all fun f =>
      (find p.columns f.name).any fun c => B.canCast c.dtype (targetType f.dataType)) = true := by
    rw [List.all_eq_true]
    refine forall₂_congr fun f _ => ?_
    have hcolumn := @frameOver_column p.columns rows f.name
    cases hfind : find p.columns f.name with
    | none =>
      rw [hfind] at hcolumn
      refine ⟨fun ⟨s, hs, _⟩ => ?_, fun h => by cases h⟩
      rw [hs] at hcolumn
      cases hcolumn
    | some c =>
      rw [hfind] at hcolumn
      rw [Traverse.ok_of_toOption hcolumn]
      refine ⟨fun ⟨s, hs, hcan⟩ => ?_, fun hcan => ⟨_, rfl, hcan⟩⟩
      rw [← Except.ok.inj hs] at hcan
      exact hcan
  have hrows : frameRows B.toEngine (frameOver p.columns rows) schema = rows.map fun row => schema.fields.map fun f =>
      castValue B.toEngine f.dataType ((find p.columns f.name).elim .null fun c => c.cell row) := by
    refine List.ext_getElem (by simp [frameRows, frameOver]) fun i hi hi' => ?_
    have hlt : i < rows.length := by simpa using hi'
    simp only [frameRows, List.getElem_map, List.getElem_range, frameCell_over _ hlt]
  rw [((Ingestion.dataframeToDataset_returns hE (frameOver p.columns rows) schema "column" 1).congr hcast
    (congrArg (DataSet.mk schema) hrows)).toOption]
  unfold Plan.collect
  split_ifs with hall
  · rw [Option.bind_some, RowMap.dataset, RowMap.mapM_run, if_pos haccepts]
    rfl
  · rfl

theorem inferSchema_over (display : PType → String) (p : Plan) (rows : List Row) :
    (Ingestion.inferSchemaFromDataframe display (frameOver p.columns rows)).toOption = p.inferSchema := by
  unfold Ingestion.inferSchemaFromDataframe Plan.inferSchema
  rw [toOption_bind, frameOver, List.mapM_map, toOption_mapM]
  have hfield : ∀ c : Column, (Ingestion.inferField display (c.over rows)).toOption =
      (outputType c.dtype).map (⟨c.name, ·⟩) := by
    intro c
    unfold Ingestion.inferField Column.over
    cases outputType c.dtype <;> rfl
  simp only [Function.comp_apply, hfield]
  exact Option.map_eq_bind.symm

/-- a dataset that the rows become, as a plan -/
theorem load_over (hmax : rows.length ≤ B.maxRows) (schema : Schema) (m : RowMap) :
    (m.dataset schema rows).bind (fun ds => (DataFrame.fromDataset B.toEngine ds).toOption.bind fun lf => lf.frame.toOption) =
      (Plan.load schema m).bind (Plan.frame rows) := by
  have hfrom : ∀ ds, (DataFrame.fromDataset B.toEngine ds).toOption.bind (fun lf => lf.frame.toOption) =
      (Ingestion.datasetToDataframe B.maxRows ds).toOption := by
    intro ds
    unfold DataFrame.fromDataset
    cases Ingestion.datasetToDataframe B.toEngine.maxRows ds <;> rfl
  have hload : Ingestion.Loadable B.maxRows ⟨schema, rows.map m.map⟩ ↔ schema.fieldNames.Nodup ∧
      (rows.all fun row => schema.fields.zipIdx.all fun f => (rowCell f.2 (m.map row)).fits f.1.dataType) = true := by
    have htyped : (∀ (i : ℕ) (f : Field), schema.fields[i]? = some f → ∀ row ∈ rows.map m.map,
        (rowCell i row).fits f.dataType) ↔
        (rows.all fun row => schema.fields.zipIdx.all fun f => (rowCell f.2 (m.map row)).fits f.1.dataType) = true := by
      simp only [List.all_eq_true, decide_eq_true_eq, List.forall_mem_map]
      constructor
      · exact fun h row hrow f hf => h f.2 f.1 (List.mem_zipIdx_iff_getElem?.1 hf) row hrow
      · exact fun h i f hf row hrow => h row hrow (f, i) (List.mem_zipIdx_iff_getElem?.2 hf)
    rw [← htyped]
    refine ⟨fun h => ⟨h.distinct, h.typed⟩, fun h => ⟨h.1, fun _ => ?_, h.2⟩⟩
    rw [DataSet.rowCount, List.length_map]
    exact hmax
  have hframe : datasetFrame ⟨schema, rows.map m.map⟩ = frameOver (schema.fields.zipIdx.map fun f =>
      ⟨f.1.name, targetType f.1.dataType, fun row => toAnyValue (rowCell f.2 (m.map row))⟩) rows := by
    refine frame_ext (List.length_map _) ?_
    change schema.fields.zipIdx.map _ = (schema.fields.zipIdx.map _).map (Column.over rows)
    rw [List.map_map]
    refine List.map_congr_left fun f _ => ?_
    rw [Ingestion.datasetSeries, List.map_map]
    rfl
  rw [RowMap.dataset, RowMap.mapM_run]
  unfold Plan.load
  by_cases hnodup : schema.fieldNames.Nodup
  · rw [if_pos hnodup, Option.bind_some, Plan.frame, Traverse.all_and]
    by_cases hm : rows.all m.accepts = true
    · rw [if_pos hm, Option.map_some, Option.bind_some, hfrom,
        ((Ingestion.datasetToDataframe_returns B.maxRows _).congr hload hframe).toOption, hm, Bool.true_and]
      simp only [hnodup, true_and]
    · rw [if_neg hm, if_neg fun h => hm (Bool.and_eq_true_iff.1 h).1]
      rfl
  · rw [if_neg hnodup]
    split_ifs with hm
    · rw [Option.map_some, Option.bind_some, hfrom,
        ((Ingestion.datasetToDataframe_returns B.maxRows _).congr hload hframe).toOption]
      exact if_neg fun h => hnodup h.1
    · rfl

/-- a step that goes through the rows of a dataset -/
def GoesThrough (f : DataSet → IngestionResult DataSet) (column : String) (body : ℕ → Row → IngestionResult Row) :
    Prop :=
  ∀ ds, (f ds).toOption = (Redaction.utf8FieldIndex ⟨ds.schema, []⟩ column).toOption.bind fun idx =>
    (ds.rows.mapM fun row => (body idx row).toOption).map (DataSet.mk ds.schema)

theorem truncate_goesThrough (column : String) (maxChars : ℕ) :
    GoesThrough (inPlace (Truncation.utf8TruncateDataset column maxChars)) column
      (Truncation.truncateRow · maxChars) := by
  intro ds
  have hidx : Redaction.utf8FieldIndex ds column = Redaction.utf8FieldIndex ⟨ds.schema, []⟩ column := rfl
  unfold inPlace Truncation.utf8TruncateDataset
  rw [hidx]
  cases Redaction.utf8FieldIndex ⟨ds.schema, []⟩ column with
  | error e => rfl
  | ok idx =>
    change ((Attempt.eachMut (Truncation.truncateRow idx maxChars) ds.rows).2.map fun _ =>
      DataSet.mk ds.schema (Attempt.eachMut (Truncation.truncateRow idx maxChars) ds.rows).1).toOption = Option.map _ _
    rw [← Traverse.toOption_eachMut, ← toOption_map]
    cases (Attempt.eachMut (Truncation.truncateRow idx maxChars) ds.rows).2 <;> rfl

theorem loop_goesThrough (column : String) (body : ℕ → Row → IngestionResult Row) : GoesThrough (fun ds => do
    let idx ← Redaction.utf8FieldIndex ds column
    let rows ← ds.rows.mapM (body idx)
    pure ⟨ds.schema, rows⟩) column body := by
  intro ds
  have hidx : Redaction.utf8FieldIndex ds column = Redaction.utf8FieldIndex ⟨ds.schema, []⟩ column := rfl
  dsimp only
  rw [hidx, toOption_bind]
  refine Option.bind_congr fun idx _ => ?_
  rw [toOption_bind, toOption_mapM]
  exact Option.map_eq_bind.symm

theorem dataset_goesThrough {f : DataSet → IngestionResult DataSet} {column : String}
    {body : ℕ → Row → IngestionResult Row} (hf : GoesThrough f column body) (schema : Schema) (m : RowMap)
    (rows : List Row) : (m.dataset schema rows).bind (fun ds => (f ds).toOption) =
      (Redaction.utf8FieldIndex ⟨schema, []⟩ column).toOption.bind fun idx =>
        (m.andThen (body idx)).dataset schema rows := by
  have hds : ∀ out, (f ⟨schema, out⟩).toOption = (Redaction.utf8FieldIndex ⟨schema, []⟩ column).toOption.bind fun idx =>
      (out.mapM fun row => (body idx row).toOption).map (DataSet.mk schema) := fun out => hf ⟨schema, out⟩
  rw [RowMap.dataset, Option.bind_map]
  change ((rows.mapM m.run).bind fun out => (f ⟨schema, out⟩).toOption) = _
  simp only [hds]
  cases (Redaction.utf8FieldIndex ⟨schema, []⟩ column).toOption with
  | none => cases rows.mapM m.run <;> rfl
  | some idx =>
    change ((rows.mapM m.run).bind fun out => (out.mapM fun row => (body idx row).toOption).map (DataSet.mk schema)) =
      (rows.mapM (m.andThen (body idx)).run).map (DataSet.mk schema)
    rw [funext (RowMap.run_andThen m (body idx)), ← Traverse.mapM_bind_mapM, Option.map_bind]
    rfl

end DataSets

/-! ## A whole spec -/

namespace Plan

/-- a plan and one that goes on from it -/
structure Extends (p p' : Plan) : Prop where
  nodup : (p.columns.map Column.name).Nodup → (p'.columns.map Column.name).Nodup
  accepts : ∀ row, p'.accepts row = true → p.accepts row = true

variable {p p' : Plan}

theorem named_extends {columns : List Column} (h : p.named columns = some p') : p.Extends p' := by
  unfold named at h
  split_ifs at h with hnodup
  obtain rfl := Option.some.inj h
  exact ⟨fun _ => hnodup, fun _ hrow => hrow⟩

theorem put_extends (p : Plan) (c : Column) : p.Extends (p.put c) :=
  ⟨fun hnodup => nodup_putColumn hnodup c, fun _ hrow => hrow⟩

theorem withColumnsOf_extends {E : Pipeline.ArithmeticEngine} {source : String} {f : Column → Option Plan}
    (hf : ∀ c q, f c = some q → p.Extends q) (h : p.withColumnsOf E source f = some p') : p.Extends p' := by
  obtain ⟨columns, -, h⟩ := Option.bind_eq_some_iff.1 h
  rcases columns with - | ⟨column, - | ⟨second, rest⟩⟩
  · obtain rfl := Option.some.inj h
    exact ⟨id, fun _ hrow => hrow⟩
  · obtain ⟨c, -, h⟩ := Option.bind_eq_some_iff.1 h
    exact hf c p' h
  · cases h

theorem derive_extends {E : Pipeline.ArithmeticEngine} {name source : String}
    {rule : PType → Option (PType × (AnyValue → AnyValue))} (h : p.derive E name source rule = some p') :
    p.Extends p' := by
  refine withColumnsOf_extends (fun c q hq => ?_) h
  obtain ⟨r, -, rfl⟩ := Option.map_eq_some_iff.1 hq
  exact put_extends p _

theorem cast_extends {B : Build} {carried : Bool} {column : String} {target : DataType} {mode : Pipeline.CastMode}
    (h : p.cast B carried column target mode = some p') : p.Extends p' := by
  refine withColumnsOf_extends (fun c q hq => ?_) h
  split_ifs at hq
  · obtain rfl := Option.some.inj hq
    exact ⟨fun hnodup => nodup_putColumn hnodup _, fun row hrow => (Bool.and_eq_true_iff.1 hrow).1⟩
  · obtain rfl := Option.some.inj hq
    exact put_extends p _

theorem collect_accepts {B : Build} {schema : Schema} {m : RowMap} (h : p.collect B schema = some m) :
    m.accepts = p.accepts := by
  unfold collect at h
  split_ifs at h
  rw [← Option.some.inj h]

theorem load_some {schema : Schema} {m : RowMap} (h : load schema m = some p) :
    (p.columns.map Column.name).Nodup ∧ ∀ row, p.accepts row = true → m.accepts row = true := by
  unfold load at h
  split_ifs at h with hnodup
  obtain rfl := Option.some.inj h
  refine ⟨?_, fun row hrow => (Bool.and_eq_true_iff.1 hrow).1⟩
  have hnames : (schema.fields.zipIdx.map fun f => Column.mk f.1.name (targetType f.1.dataType) fun row =>
      toAnyValue (rowCell f.2 (m.map row))).map Column.name = schema.fieldNames := by
    rw [List.map_map, Schema.fieldNames]
    conv_rhs => rw [← List.zipIdx_map_fst 0 schema.fields, List.map_map]
    rfl
  rw [hnames]
  exact hnodup

theorem onTexts_extends {B : Build} {column : String} {body : ℕ → Row → IngestionResult Row}
    (h : p.onTexts B column body = some p') : p.Extends p' := by
  obtain ⟨schema, -, h⟩ := Option.bind_eq_some_iff.1 h
  obtain ⟨m, hm, h⟩ := Option.bind_eq_some_iff.1 h
  obtain ⟨idx, -, h⟩ := Option.bind_eq_some_iff.1 h
  obtain ⟨hnodup, haccepts⟩ := load_some h
  refine ⟨fun _ => hnodup, fun row hrow => ?_⟩
  rw [← collect_accepts hm]
  exact (Bool.and_eq_true_iff.1 (haccepts row hrow)).1

end Plan

theorem plan_extends {B : Build} {C : Cellwise B} {s : TransformStep} {carried : Bool} {p p' : Plan}
    (h : s.plan C carried p = some p') : p.Extends p' := by
  cases s with
  | select columns =>
    obtain ⟨names, -, h⟩ := Option.bind_eq_some_iff.1 h
    obtain ⟨cs, -, h⟩ := Option.bind_eq_some_iff.1 h
    exact Plan.named_extends h
  | drop columns =>
    change Plan.drop p columns = some p' at h
    unfold Plan.drop at h
    split_ifs at h
    obtain rfl := Option.some.inj h
    exact ⟨fun hnodup => hnodup.sublist (List.filter_sublist.map Column.name), fun _ hrow => hrow⟩
  | rename pairs =>
    change Plan.rename p pairs = some p' at h
    unfold Plan.rename at h
    dsimp only at h
    split_ifs at h
    exact Plan.named_extends h
  | cast column target mode => exact Plan.cast_extends h
  | fillNull column value =>
    obtain ⟨l, -, h⟩ := Option.bind_eq_some_iff.1 h
    exact Plan.derive_extends h
  | withLiteral name value =>
    obtain ⟨l, -, rfl⟩ := Option.map_eq_some_iff.1 h
    exact Plan.put_extends p _
  | deriveMulF64 name source factor => exact @Plan.derive_extends p p' B.toArithmeticEngine name source (C.mul · factor) h
  | deriveAddF64 name source delta => exact @Plan.derive_extends p p' B.toArithmeticEngine name source (C.add · delta) h
  | _ => exact Plan.onTexts_extends h

section Apply

variable {B : Build} (C : Cellwise B) (hE : B.toEngine.NonStrict) {rows : List Row} (hmax : rows.length ≤ B.maxRows)

include hE hmax in
theorem texts_step {p : Plan} (haccepts : rows.all p.accepts = true) {lf : DataFrame}
    (hlf : lf.frame = .ok (frameOver p.columns rows)) {f : DataSet → IngestionResult DataSet} {column : String}
    {body : ℕ → Row → IngestionResult Row} (hf : GoesThrough f column body) :
    ((applyUtf8DatasetStep B.toArithmeticEngine lf f).toOption.bind fun lf => lf.frame.toOption) =
      (p.onTexts B column body).bind (Plan.frame rows) := by
  have hcollect : (lf.collect B.toEngine B.typeText).toOption = p.inferSchema.bind fun schema =>
      (p.collect B schema).bind (RowMap.dataset schema rows) := by
    unfold DataFrame.collect DataFrame.collected
    rw [hlf, toOption_bind]
    change ((Ingestion.inferSchemaFromDataframe B.typeText (frameOver p.columns rows)) >>= _).toOption = _
    rw [toOption_bind, inferSchema_over]
    exact Option.bind_congr fun schema _ => dataset_over hE haccepts schema
  unfold applyUtf8DatasetStep Plan.onTexts
  rw [toOption_bind, hcollect]
  simp only [Option.bind_assoc]
  refine Option.bind_congr fun schema _ => Option.bind_congr fun m _ => ?_
  have hbind : ∀ ds, ((f ds >>= DataFrame.fromDataset B.toEngine).toOption.bind fun lf => lf.frame.toOption) =
      (f ds).toOption.bind fun ds => (DataFrame.fromDataset B.toEngine ds).toOption.bind fun lf => lf.frame.toOption := by
    intro ds
    rw [toOption_bind, Option.bind_assoc]
  simp only [hbind]
  rw [← Option.bind_assoc, dataset_goesThrough hf, Option.bind_assoc]
  exact Option.bind_congr fun idx _ => load_over hmax schema _

include hE hmax in
/-- a step of a transformation and its plan -/
theorem run_follows {p : Plan} (hne : p.columns ≠ []) (hnodup : (p.columns.map Column.name).Nodup)
    (haccepts : rows.all p.accepts = true) {lf : DataFrame} (hlf : lf.frame = .ok (frameOver p.columns rows))
    (s : TransformStep) (carried : Bool) (hkeeps : ∀ p', s.plan C carried p = some p' → p'.columns ≠ []) :
    ((s.run B carried lf).toOption.bind fun lf => lf.frame.toOption) = (s.plan C carried p).bind (Plan.frame rows) := by
  cases s with
  | select columns => exact select_step haccepts hlf B.toArithmeticEngine columns hkeeps
  | drop columns => exact drop_step hnodup haccepts hlf B.toEngine columns hkeeps
  | rename pairs => exact rename_step haccepts hlf pairs
  | cast column target mode => exact cast_step hne hnodup haccepts hlf carried column target mode
  | fillNull column value =>
    have hfill := fun t v => derive_step hne hnodup haccepts hlf B.toArithmeticEngine column column
      (fun dtype => C.fill dtype t v) (B.binary .fillNull · ⟨"literal", t, [v]⟩)
      fun n dtype cells => C.fill_eq n "literal" dtype t v cells
    cases value with
    | null => rfl
    | int64 v => exact hfill .int64 (.int64 v)
    | float64 v => exact hfill .float64 (.float64 v)
    | bool v => exact hfill .boolean (.boolean v)
    | utf8 v => exact hfill .string (.string v)
  | withLiteral name value =>
    have hliteral := literal_step hne hnodup haccepts hlf B.toEngine name
    cases value with
    | null => rfl
    | int64 v => exact hliteral .int64 (.int64 v)
    | float64 v => exact hliteral .float64 (.float64 v)
    | bool v => exact hliteral .boolean (.boolean v)
    | utf8 v => exact hliteral .string (.string v)
  | deriveMulF64 name source factor =>
    exact derive_step hne hnodup haccepts hlf B.toArithmeticEngine name source (C.mul · factor)
      (B.mul · ⟨"literal", .float64, [.float64 factor]⟩) fun n dtype cells => C.mul_eq n "literal" dtype factor cells
  | deriveAddF64 name source delta =>
    exact derive_step hne hnodup haccepts hlf B.toArithmeticEngine name source (C.add · delta)
      (B.add · ⟨"literal", .float64, [.float64 delta]⟩) fun n dtype cells => C.add_eq n "literal" dtype delta cells
  | utf8Truncate column maxChars =>
    exact texts_step hE hmax haccepts hlf (truncate_goesThrough column maxChars.toNat)
  | utf8Sha256Hex column => exact texts_step hE hmax haccepts hlf (loop_goesThrough column (sha256Row B.sha256))
  | utf8RedactMiddle column keepLeft keepRight redaction =>
    exact texts_step hE hmax haccepts hlf
      (loop_goesThrough column (Redaction.redactRow B.overflowChecks keepLeft keepRight redaction))

/-- a plan that fails is not taken up again -/
theorem run_failed {lf : DataFrame} (hlf : lf.frame.toOption = none) (s : TransformStep) (carried : Bool) :
    ((s.run B carried lf).toOption.bind fun lf => lf.frame.toOption) = none := by
  have hthen : ∀ f, (lf.andThen f).frame.toOption = none := by
    intro f
    rw [DataFrame.andThen, toOption_bind, hlf]
    rfl
  have hplanned : ∀ (x : IngestionResult Polars.Expr) (g : Polars.Expr → DataFrame), (∀ e, (g e).frame.toOption = none) →
      ((x >>= fun e => pure (g e) : IngestionResult DataFrame).toOption.bind fun lf => lf.frame.toOption) = none := by
    intro x g hg
    cases x with
    | error e => rfl
    | ok e => exact hg e
  have htexts : ∀ f, ((applyUtf8DatasetStep B.toArithmeticEngine lf f).toOption.bind fun lf =>
      lf.frame.toOption) = none := by
    intro f
    unfold applyUtf8DatasetStep DataFrame.collect DataFrame.collected
    cases hframe : lf.frame with
    | ok df => rw [hframe] at hlf; cases hlf
    | error e => rfl
  cases s with
  | select columns => exact hthen _
  | drop columns => exact hthen _
  | rename pairs => exact hthen _
  | cast column target mode => exact hthen _
  | fillNull column value => exact hplanned _ _ fun _ => hthen _
  | withLiteral name value => exact hplanned _ _ fun _ => hthen _
  | deriveMulF64 name source factor => exact hthen _
  | deriveAddF64 name source delta => exact hthen _
  | _ => exact htexts _

/-- no step leaves the frame without columns -/
def KeepsColumns (schema : Schema) (steps : List TransformStep) : Prop :=
  ∀ p, Plan.load schema ⟨fun _ => true, id⟩ = some p →
    Traverse.Along (planStep C) (fun p => p.columns ≠ []) p (carriedOut B schema steps)

instance {C : Cellwise B} (schema : Schema) (steps : List TransformStep) : Decidable (KeepsColumns C schema steps) :=
  match h : Plan.load schema ⟨fun _ => true, id⟩ with
  | none => isTrue fun _ hp => nomatch hp.symm.trans h
  | some p => decidable_of_iff
      (Traverse.Along (planStep C) (fun p => p.columns ≠ []) p (carriedOut B schema steps))
      ⟨fun hp _ hq => Option.some.inj (h.symm.trans hq) ▸ hp, fun hp => hp p h⟩

include hE hmax in
/-- the steps of a spec and their plans -/
theorem steps_follow {schema : Schema} {steps : List TransformStep} (hkeeps : KeepsColumns C schema steps) :
    ((DataFrame.fromDataset B.toEngine ⟨schema, rows⟩ >>= (carriedOut B schema steps).foldlM (runStep B)).toOption.bind
      fun lf => lf.frame.toOption) = (Plan.load schema ⟨fun _ => true, id⟩).bind fun p =>
        ((carriedOut B schema steps).foldlM (planStep C) p).bind (Plan.frame rows) := by
  have hfirst := load_over (B := B) hmax schema ⟨fun _ => true, id⟩
  have hrows : RowMap.dataset schema rows ⟨fun _ => true, id⟩ = some ⟨schema, rows⟩ := by
    rw [RowMap.dataset, RowMap.mapM_run, if_pos (List.all_eq_true.2 fun _ _ => rfl), List.map_id]
    rfl
  rw [hrows, Option.bind_some] at hfirst
  have hmade : ∀ (p : Plan) (s : TransformStep × Bool), Plan.frame rows p = none →
      (planStep C p s).bind (Plan.frame rows) = none := by
    intro p s hp
    cases hplan : planStep C p s with
    | none => rfl
    | some p' =>
      refine if_neg fun hall => ?_
      have haccepts : rows.all p.accepts = true := by
        rw [List.all_eq_true] at hall ⊢
        exact fun row hrow => (plan_extends hplan).accepts row (hall row hrow)
      rw [Plan.frame, if_pos haccepts] at hp
      cases hp
  have hstep : ∀ (lf : DataFrame) (p : Plan) (s : TransformStep × Bool), (p.columns.map Column.name).Nodup →
      p.columns ≠ [] → (∀ p', planStep C p s = some p' → p'.columns ≠ []) → lf.frame.toOption = Plan.frame rows p →
      ((runStep B lf s).toOption.bind fun lf => lf.frame.toOption) = (planStep C p s).bind (Plan.frame rows) := by
    intro lf p s hnodup hne hkeeps hlf
    by_cases haccepts : rows.all p.accepts = true
    · rw [Plan.frame, if_pos haccepts] at hlf
      exact run_follows C hE hmax hne hnodup haccepts (Traverse.ok_of_toOption hlf) s.1 s.2 hkeeps
    · have hnone : Plan.frame rows p = none := if_neg haccepts
      exact (run_failed (hlf.trans hnone) s.1 s.2).trans (hmade p s hnone).symm
  rw [toOption_bind, Option.bind_assoc]
  cases hfrom : DataFrame.fromDataset B.toEngine ⟨schema, rows⟩ with
  | error e =>
    rw [hfrom] at hfirst
    cases hload : Plan.load schema ⟨fun _ => true, id⟩ with
    | none => rfl
    | some p =>
      rw [hload] at hfirst
      exact (Traverse.planned_nothing hmade _ hfirst.symm).symm
  | ok lf =>
    rw [hfrom] at hfirst
    cases hload : Plan.load schema ⟨fun _ => true, id⟩ with
    | none =>
      rw [hload] at hfirst
      exact Traverse.foldlM_nothing (fun lf s hlf => run_failed hlf s.1 s.2) _ hfirst
    | some p =>
      rw [hload] at hfirst
      exact Traverse.foldlM_follows (fun _ _ _ hnodup hplan => (plan_extends hplan).nodup hnodup) hstep
        (fun lf s hlf => run_failed hlf s.1 s.2) hmade _ (Plan.load_some hload).1 (hkeeps p hload) hfirst

include hE hmax in
theorem apply_toOption {spec : TransformSpec} {schema : Schema} (hkeeps : KeepsColumns C schema spec.steps) :
    (spec.apply B ⟨schema, rows⟩).toOption = (spec.rowMap C schema).bind (RowMap.dataset spec.outputSchema rows) := by
  have hlast : ∀ p : Plan, (Plan.frame rows p).bind (fun df =>
      (dataframeToDataset B.toEngine df spec.outputSchema "column" 1).toOption) =
      (p.collect B spec.outputSchema).bind (RowMap.dataset spec.outputSchema rows) := by
    intro p
    unfold Plan.frame
    split_ifs with haccepts
    · exact dataset_over hE haccepts spec.outputSchema
    · cases hm : p.collect B spec.outputSchema with
      | none => rfl
      | some m =>
        rw [Option.bind_some, RowMap.dataset, RowMap.mapM_run, Plan.collect_accepts hm, if_neg haccepts]
        rfl
  have hcollect : ∀ lf : DataFrame, (lf.collectWithSchema B.toEngine spec.outputSchema).toOption =
      lf.frame.toOption.bind fun df => (dataframeToDataset B.toEngine df spec.outputSchema "column" 1).toOption := by
    intro lf
    unfold DataFrame.collectWithSchema DataFrame.collected
    rw [toOption_bind, toOption_mapError]
  have happly : spec.apply B ⟨schema, rows⟩ = (DataFrame.fromDataset B.toEngine ⟨schema, rows⟩ >>=
      (carriedOut B schema spec.steps).foldlM (runStep B)) >>= fun lf => lf.collectWithSchema B.toEngine spec.outputSchema :=
    (bind_assoc _ _ _).symm
  rw [happly, toOption_bind]
  simp only [hcollect]
  rw [← Option.bind_assoc, steps_follow C hE hmax hkeeps]
  unfold TransformSpec.rowMap
  rw [Option.bind_assoc, Option.bind_assoc]
  refine Option.bind_congr fun p _ => ?_
  rw [Option.bind_assoc, Option.bind_assoc]
  exact Option.bind_congr fun p _ => hlast p

end Apply

/-! ## Rows and batches -/

section Main

variable {B : Build} (C : Cellwise B) (hE : B.toEngine.NonStrict) (spec : TransformSpec) (schema : Schema)
  (hkeeps : KeepsColumns C schema spec.steps)
include hE hkeeps

/-- **Row by row**: a transformation maps a function over the rows, and fails exactly where the function does. If the
spec does not fit the schema there is no such function, and it fails for any rows. No step leaves the frame without
columns, and there are at most `maxRows` rows -/
theorem apply_by_rows : ∀ rows : List Row, rows.length ≤ B.maxRows → (spec.apply B ⟨schema, rows⟩).toOption =
    (spec.rowMap C schema).bind fun m => (rows.mapM m.run).map (DataSet.mk spec.outputSchema) :=
  fun _ hmax => apply_toOption C hE hmax hkeeps

/-- **Batch by batch**: rows may be cut into batches; the transformation fails in one of them if it fails in the whole.
As above, no step leaves the frame without columns, and there are at most `maxRows` rows in all -/
theorem batches_agree : ∀ batches : List (List Row), batches ≠ [] → batches.flatten.length ≤ B.maxRows →
    (spec.apply B ⟨schema, batches.flatten⟩).toOption =
      (batches.mapM fun rows => (spec.apply B ⟨schema, rows⟩).toOption).map fun outs =>
        ⟨spec.outputSchema, outs.flatMap DataSet.rows⟩ := by
  intro batches hne hmax
  have hloop : batches.mapM (fun rows => (spec.apply B ⟨schema, rows⟩).toOption) = batches.mapM fun rows =>
      (spec.rowMap C schema).bind fun m => (rows.mapM m.run).map (DataSet.mk spec.outputSchema) :=
    Traverse.loop_congr fun rows hrows =>
      apply_toOption C hE ((List.sublist_flatten_of_mem hrows).length_le.trans hmax) hkeeps
  rw [apply_toOption C hE hmax hkeeps, hloop]
  cases spec.rowMap C schema with
  | none =>
    obtain ⟨rows, rest, rfl⟩ := List.exists_cons_of_ne_nil hne
    rfl
  | some m =>
    simp only [Option.bind_some]
    rw [RowMap.dataset, Traverse.mapM_flatten, Traverse.mapM_map_some, Option.map_map, Option.map_map]
    congr 1
    funext outs
    rw [Function.comp_apply, Function.comp_apply, List.flatMap_map]
    simp [List.flatMap_def]

end Main

/-! ## A build -/

/-- the sum or the product of a number with a float -/
def numberRule (f : Binary64 → Binary64 → Binary64) (dtype : PType) (x : Binary64) :
    Option (PType × (AnyValue → AnyValue)) :=
  match dtype with
  | .int64 => some (.float64, fun
    | .int64 v => .float64 (f (.ofInt v.toInt) x)
    | _ => .null)
  | .float64 => some (.float64, fun
    | .float64 v => .float64 (f v x)
    | _ => .null)
  | _ => none

/-- a null is filled with a value of the column's type -/
def fillRule (dtype t : PType) (v : AnyValue) : Option (PType × (AnyValue → AnyValue)) :=
  match Query.fieldType dtype, Query.fieldType t with
  | some dt, some dt' => if dt = dt' then some (dtype, fun c => if c.isNull then v else c) else none
  | _, _ => none

/-- a rule for one cell, as an operator on a column -/
def byRule (rule : Option (PType × (AnyValue → AnyValue))) (s : Series) : Except PolarsError Series :=
  match rule with
  | some r => .ok ⟨s.name, r.1, s.cells.map r.2⟩
  | none => .error (.other "operator is not supported" [])

def plainArithmetic (f : Binary64 → Binary64 → Binary64) (s t : Series) : Except PolarsError Series :=
  match t.cells with
  | [.float64 x] => byRule (numberRule f s.dtype x) s
  | _ => .error (.other "operator is not supported" [])

def Build.plain : Build where
  toEngine := { Polars.Engine.plain with
    binary := fun op s t => match op, t.cells with
      | .fillNull, [v] => byRule (fillRule s.dtype t.dtype v) s
      | _, _ => .error (.other "operator is not supported" []) }
  mul := plainArithmetic Binary64.mul
  add := plainArithmetic Binary64.add
  typeText _ := ""
  regex pattern := .error (.other pattern [])
  sha256 _ := []
  overflowChecks := false
  runsUnused _ _ _ := false

theorem byRule_toOption (rule : Option (PType × (AnyValue → AnyValue))) (s : Series) :
    (byRule rule s).toOption = rule.map fun r => ⟨s.name, r.1, s.cells.map r.2⟩ := by
  cases rule <;> rfl

def Cellwise.plain : Cellwise Build.plain where
  fill := fillRule
  mul := numberRule Binary64.mul
  add := numberRule Binary64.add
  fill_eq _ _ _ _ _ _ := byRule_toOption _ _
  mul_eq _ _ _ _ _ := byRule_toOption _ _
  add_eq _ _ _ _ _ := byRule_toOption _ _

theorem Build.plain_nonStrict : Build.plain.toEngine.NonStrict :=
  Polars.Engine.plain_nonStrict.of_casts rfl rfl

def weatherSchema : Schema := ⟨[⟨"id", .int64⟩, ⟨"score", .int64⟩, ⟨"weather", .utf8⟩]⟩

def weatherSpec : TransformSpec where
  outputSchema := ⟨[⟨"id", .int64⟩, ⟨"score_f", .float64⟩, ⟨"wx", .utf8⟩]⟩
  steps := [.rename [("weather", "wx")], .rename [("score", "score_f")], .cast "score_f" .float64 .lossy,
    .fillNull "score_f" (.float64 (.ofInt 0)), .utf8Truncate "wx" 4, .select ["id", "score_f", "wx"]]

/-- the rows of a day -/
def weather : List Row := [[.int64 1, .int64 10, .utf8 "drizzle"], [.int64 2, .null, .utf8 "rain"]]

def weatherOut : DataSet :=
  ⟨weatherSpec.outputSchema,
    [[.int64 1, .float64 (.ofInt 10), .utf8 "driz"], [.int64 2, .float64 (.ofInt 0), .utf8 "rain"]]⟩

theorem weather_by_rows : (weatherSpec.apply Build.plain ⟨weatherSchema, weather⟩).toOption = some weatherOut := by
  rw [apply_by_rows Cellwise.plain Build.plain_nonStrict weatherSpec weatherSchema (by decide) weather (by decide)]
  rfl

/-- a cast whose column is not selected is left out, with its error -/
example : (TransformSpec.apply Build.plain ⟨⟨[⟨"y", .utf8⟩]⟩, [.cast "x" .int64 .strict, .select ["y"]]⟩
    ⟨⟨[⟨"x", .utf8⟩, ⟨"y", .utf8⟩]⟩, [[.utf8 "abc", .utf8 "k"]]⟩).toOption =
      some ⟨⟨[⟨"y", .utf8⟩]⟩, [[.utf8 "k"]]⟩ := rfl

theorem weather_in_batches : (weatherSpec.apply Build.plain ⟨weatherSchema, weather⟩).toOption =
    (weather.mapM fun row => (weatherSpec.apply Build.plain ⟨weatherSchema, [row]⟩).toOption).map fun outs =>
      ⟨weatherSpec.outputSchema, outs.flatMap DataSet.rows⟩ :=
  batches_agree Cellwise.plain Build.plain_nonStrict weatherSpec weatherSchema (by decide) (weather.map fun row => [row])
    (by decide) (by decide)

end RustDataProcessing.Transform
