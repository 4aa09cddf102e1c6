/-
What a transformation makes of one row (`TransformSpec::apply` in `src/transform.rs`).

The steps are planned on whole columns, and texts are changed in whole datasets. What a row becomes can be told from the
row alone: a `Plan` has, for each column, its name, its type and the cell as a function of the input row, and says which
rows are accepted at all. Here the steps on columns are shown to follow their plans; the rest is in `RowByRow`.
-/
import Mathlib.Tactic
import RustDataProcessing.Lib.Outcome
import RustDataProcessing.Transform.Apply

namespace RustDataProcessing.Transform

open Polars (PType AnyValue Series PolarsError)
open Ingestion (targetType toAnyValue castValue outputType rowCell)
open Pipeline (DataFrame CastMode putColumn renamed)
open Traverse (toOption_bind toOption_map toOption_mapM)

/-! ## Plans of a row -/

/-- a column, as it depends on the input row -/
structure Column where
  name : String
  dtype : PType
  cell : Row → AnyValue

structure Plan where
  accepts : Row → Bool
  columns : List Column

/-- what becomes of a row -/
structure RowMap where
  accepts : Row → Bool
  map : Row → Row

def RowMap.run (m : RowMap) (row : Row) : Option Row := if m.accepts row then some (m.map row) else none

/-- then a body that may fail -/
def RowMap.andThen (m : RowMap) (body : Row → IngestionResult Row) : RowMap where
  accepts row := m.accepts row && (body (m.map row)).toOption.isSome
  map row := (body (m.map row)).toOption.getD []

/-- the engine computes a column with a literal cell by cell, and what it does with a cell depends on the types -/
structure Cellwise (B : Build) where
  fill : PType → PType → AnyValue → Option (PType × (AnyValue → AnyValue))
  mul : PType → Binary64 → Option (PType × (AnyValue → AnyValue))
  add : PType → Binary64 → Option (PType × (AnyValue → AnyValue))
  fill_eq : ∀ name litName dtype t v cells, (B.binary .fillNull ⟨name, dtype, cells⟩ ⟨litName, t, [v]⟩).toOption =
    (fill dtype t v).map fun r => ⟨name, r.1, cells.map r.2⟩
  mul_eq : ∀ name litName dtype x cells, (B.mul ⟨name, dtype, cells⟩ ⟨litName, .float64, [.float64 x]⟩).toOption =
    (mul dtype x).map fun r => ⟨name, r.1, cells.map r.2⟩
  add_eq : ∀ name litName dtype x cells, (B.add ⟨name, dtype, cells⟩ ⟨litName, .float64, [.float64 x]⟩).toOption =
    (add dtype x).map fun r => ⟨name, r.1, cells.map r.2⟩

def find (columns : List Column) (name : String) : Option Column := columns.find? fun c => c.name = name

namespace Plan

/-- the plan with these columns, unless two have one name -/
def named (p : Plan) (columns : List Column) : Option Plan :=
  if (columns.map Column.name).Nodup then some { p with columns := columns } else none

def put (p : Plan) (c : Column) : Plan := { p with columns := putColumn Column.name p.columns c }

/-- the columns that `name` stands for -/
def columnsOf (E : Pipeline.ArithmeticEngine) (p : Plan) (name : String) : Option (List String) :=
  (Pipeline.columnsOf E (p.columns.map Column.name) name).toOption

/-- without a column there is nothing to add, and two of one name are refused -/
def withColumnsOf (E : Pipeline.ArithmeticEngine) (p : Plan) (source : String) (f : Column → Option Plan) : Option Plan :=
  (p.columnsOf E source).bind fun columns => match columns with
    | [] => some p
    | [column] => (find p.columns column).bind f
    | _ => none

def select (E : Pipeline.ArithmeticEngine) (p : Plan) (columns : List String) : Option Plan :=
  (columns.mapM (p.columnsOf E)).bind fun names => (names.flatten.mapM (find p.columns)).bind p.named

def drop (p : Plan) (columns : List String) : Option Plan :=
  if columns.all fun name => (find p.columns name).isSome then
    some { p with columns := p.columns.filter fun c => c.name ∉ columns }
  else none

def rename (p : Plan) (pairs : List (String × String)) : Option Plan :=
  let pairs := pairs.filter fun q => q.1 ≠ q.2
  if (pairs.map Prod.fst).all fun name => (find p.columns name).isSome then
    p.named (p.columns.map fun c => { c with name := renamed pairs c.name })
  else none

/-- a strict cast does not accept a row whose value it would lose -/
def keepsValue (B : Build) (target : PType) (mode : CastMode) (v : AnyValue) : Bool :=
  mode = .lossy || v.isNull || !(B.castCell target v).isNull

def cast (B : Build) (carried : Bool) (p : Plan) (column : String) (target : DataType) (mode : CastMode) :
    Option Plan :=
  p.withColumnsOf B.toArithmeticEngine column fun c =>
    if carried then
      if B.canCast c.dtype (targetType target) then
        some (Plan.put ⟨fun row => p.accepts row && keepsValue B (targetType target) mode (c.cell row), p.columns⟩
          ⟨column, targetType target, fun row => B.castCell (targetType target) (c.cell row)⟩)
      else none
    else some (p.put ⟨column, targetType target, fun _ => .null⟩)

/-- a column computed from another one -/
def derive (E : Pipeline.ArithmeticEngine) (p : Plan) (name source : String)
    (rule : PType → Option (PType × (AnyValue → AnyValue))) : Option Plan :=
  p.withColumnsOf E source fun c => (rule c.dtype).map fun r => p.put ⟨name, r.1, fun row => r.2 (c.cell row)⟩

/-- the schema that the columns have when they are collected -/
def inferSchema (p : Plan) : Option Schema :=
  (p.columns.mapM fun c => (outputType c.dtype).map (⟨c.name, ·⟩)).map fun fields => ⟨fields⟩

/-- the rows of the columns of a schema -/
def collect (B : Build) (schema : Schema) (p : Plan) : Option RowMap :=
  if schema.fields.all fun f => (find p.columns f.name).any fun c => B.canCast c.dtype (targetType f.dataType) then
    some ⟨p.accepts, fun row => schema.fields.map fun f =>
      castValue B.toEngine f.dataType ((find p.columns f.name).elim .null fun c => c.cell row)⟩
  else none

/-- a plan that begins with the columns of a dataset -/
def load (schema : Schema) (m : RowMap) : Option Plan :=
  if schema.fieldNames.Nodup then
    some ⟨fun row => m.accepts row && schema.fields.zipIdx.all fun f => (rowCell f.2 (m.map row)).fits f.1.dataType,
      schema.fields.zipIdx.map fun f =>
        ⟨f.1.name, targetType f.1.dataType, fun row => toAnyValue (rowCell f.2 (m.map row))⟩⟩
  else none

/-- a step on the texts of a column -/
def onTexts (B : Build) (p : Plan) (column : String) (body : ℕ → Row → IngestionResult Row) : Option Plan :=
  p.inferSchema.bind fun schema => (p.collect B schema).bind fun m =>
    (Redaction.utf8FieldIndex ⟨schema, []⟩ column).toOption.bind fun idx =>
      load schema (m.andThen (body idx))

end Plan

/-- the type and the cell of a literal -/
def literal : Value → Option (PType × AnyValue)
  | .null => none
  | .int64 v => some (.int64, .int64 v)
  | .float64 v => some (.float64, .float64 v)
  | .bool v => some (.boolean, .boolean v)
  | .utf8 v => some (.string, .string v)

def TransformStep.plan {B : Build} (C : Cellwise B) (carried : Bool) (p : Plan) : TransformStep → Option Plan
  | .select columns => p.select B.toArithmeticEngine columns
  | .drop columns => p.drop columns
  | .rename pairs => p.rename pairs
  | .cast column target mode => p.cast B carried column target mode
  | .fillNull column value => (literal value).bind fun l =>
    p.derive B.toArithmeticEngine column column fun dtype => C.fill dtype l.1 l.2
  | .withLiteral name value => (literal value).map fun l => p.put ⟨name, l.1, fun _ => l.2⟩
  | .deriveMulF64 name source factor => p.derive B.toArithmeticEngine name source (C.mul · factor)
  | .deriveAddF64 name source delta => p.derive B.toArithmeticEngine name source (C.add · delta)
  | .utf8Truncate column maxChars => p.onTexts B column (Truncation.truncateRow · maxChars.toNat)
  | .utf8Sha256Hex column => p.onTexts B column (sha256Row B.sha256)
  | .utf8RedactMiddle column keepLeft keepRight redaction =>
    p.onTexts B column (Redaction.redactRow B.overflowChecks keepLeft keepRight redaction)

def planStep {B : Build} (C : Cellwise B) (p : Plan) (s : TransformStep × Bool) : Option Plan := s.1.plan C s.2 p

/-- what a spec makes of the rows of a schema -/
def TransformSpec.rowMap {B : Build} (C : Cellwise B) (spec : TransformSpec) (schema : Schema) : Option RowMap :=
  (Plan.load schema ⟨fun _ => true, id⟩).bind fun p =>
    ((carriedOut B schema spec.steps).foldlM (planStep C) p).bind (Plan.collect B spec.outputSchema)

/-! ## Frames over rows -/

def Column.over (rows : List Row) (c : Column) : Series := ⟨c.name, c.dtype, rows.map c.cell⟩

def frameOver (columns : List Column) (rows : List Row) : Polars.DataFrame where
  height := rows.length
  columns := columns.map (Column.over rows)
  heights s hs := by
    obtain ⟨c, -, rfl⟩ := List.mem_map.1 hs
    exact List.length_map _

def Plan.frame (rows : List Row) (p : Plan) : Option Polars.DataFrame :=
  if rows.all p.accepts then some (frameOver p.columns rows) else none

theorem putColumn_map {α β : Type} {name : α → String} {name' : β → String} {f : α → β} (hf : ∀ a, name' (f a) = name a)
    (columns : List α) (c : α) : putColumn name' (columns.map f) (f c) = (putColumn name columns c).map f := by
  have hany : (columns.map f).any (fun d => decide (name' d = name' (f c))) =
      columns.any fun d => decide (name d = name c) := by
    rw [List.any_map]
    congr 1
    funext a
    simp only [Function.comp_apply, hf]
  unfold putColumn
  rw [hany]
  split_ifs
  · rw [List.map_map, List.map_map]
    refine List.map_congr_left fun a _ => ?_
    simp only [Function.comp_apply, hf]
    split_ifs <;> rfl
  · rw [List.map_append]
    rfl

/-- the column that is put has its name once -/
theorem nodup_putColumn {α : Type} {name : α → String} {columns : List α} (h : (columns.map name).Nodup) (c : α) :
    ((putColumn name columns c).map name).Nodup := by
  unfold putColumn
  split_ifs with hany
  · rw [List.map_map]
    have hsame : columns.map (name ∘ fun d => if name d = name c then c else d) = columns.map name := by
      refine List.map_congr_left fun d _ => ?_
      rw [Function.comp_apply]
      split_ifs with hd
      · exact hd.symm
      · rfl
    rwa [hsame]
  · rw [List.map_append]
    refine List.nodup_append.2 ⟨h, List.nodup_singleton _, ?_⟩
    intro a ha b hb
    rw [List.map_singleton, List.mem_singleton] at hb
    obtain ⟨d, hd, rfl⟩ := List.mem_map.1 ha
    rintro rfl
    exact hany (List.any_eq_true.2 ⟨d, hd, decide_eq_true hb⟩)

section Frames

variable {columns : List Column} {rows : List Row}

theorem frameOver_column (name : String) :
    ((frameOver columns rows).column name).toOption = (find columns name).map (Column.over rows) := by
  have hfind : (frameOver columns rows).columns.find? (fun s => decide (s.name = name)) =
      (find columns name).map (Column.over rows) := by
    rw [frameOver, List.find?_map, find]
    rfl
  unfold Polars.DataFrame.column
  rw [hfind]
  cases find columns name <;> rfl

theorem mapM_find (hnodup : (columns.map Column.name).Nodup) {l : List Column} (hl : l ⊆ columns) :
    (l.map Column.name).mapM (find columns) = some l := by
  rw [List.mapM_map, Traverse.mapM_eq_some_iff, List.forall₂_same]
  intro c hc
  have hsome : (columns.find? fun d => d.name = c.name).isSome := List.find?_isSome.2 ⟨c, hl hc, decide_eq_true rfl⟩
  obtain ⟨d, hd⟩ := Option.isSome_iff_exists.1 hsome
  have hname : d.name = c.name := by simpa using List.find?_some hd
  have hdc : d = c := List.inj_on_of_nodup_map hnodup (List.mem_of_find?_eq_some hd) (hl hc) hname
  exact hdc ▸ hd

theorem requireNames_over (names : List String) : (Pipeline.requireNames (frameOver columns rows) names).toOption =
    if names.all fun name => (find columns name).isSome then some () else none := by
  induction names with
  | nil => rfl
  | cons name names ih =>
    change (((frameOver columns rows).column name).map (fun _ => ()) >>= fun _ =>
      Pipeline.requireNames (frameOver columns rows) names).toOption = _
    rw [toOption_bind, toOption_map, frameOver_column, ih, List.all_cons]
    cases find columns name <;> rfl

theorem new_over (columns : List Column) (rows : List Row) :
    (Polars.DataFrame.new rows.length (columns.map (Column.over rows))).toOption =
      if (columns.map Column.name).Nodup then some (frameOver columns rows) else none := by
  have hnames : (columns.map (Column.over rows)).map Series.name = columns.map Column.name := by
    rw [List.map_map]
    rfl
  split_ifs with h
  · exact congrArg Except.toOption (Polars.DataFrame.new_eq (frameOver columns rows).heights (hnames ▸ h))
  · obtain ⟨e, he⟩ := @Polars.DataFrame.new_error rows.length (columns.map (Column.over rows)) (hnames ▸ h)
    rw [he]
    rfl

/-- a selection of columns by their names -/
theorem select_over (E : Polars.Engine) (names : List String)
    (hne : ∀ cs, names.mapM (find columns) = some cs → cs ≠ []) :
    (Polars.select E (frameOver columns rows) (names.map .col)).toOption = (names.mapM (find columns)).bind fun cs =>
      if (cs.map Column.name).Nodup then some (frameOver cs rows) else none := by
  have heval : ((names.map Polars.Expr.col).mapM (Polars.Expr.eval E (frameOver columns rows))).toOption =
      (names.mapM (find columns)).map (List.map (Column.over rows)) := by
    rw [List.mapM_map, toOption_mapM, ← Traverse.mapM_map_some]
    exact congrArg (names.mapM ·) (funext frameOver_column)
  unfold Polars.select
  rw [toOption_bind, heval]
  cases hcols : names.mapM (find columns) with
  | none => rfl
  | some cs =>
    obtain ⟨c, rest, rfl⟩ := List.exists_cons_of_ne_nil (hne cs hcols)
    have hheight : ((c :: rest).map (Column.over rows)).head?.elim 0 (fun s => s.cells.length) = rows.length :=
      List.length_map _
    change (Polars.DataFrame.new _ _).toOption = _
    rw [hheight, new_over]
    rfl

theorem withColumn_over (hne : columns ≠ []) (hnodup : (columns.map Column.name).Nodup) (c : Column)
    {cells : List AnyValue} (hcells : Pipeline.broadcast rows.length cells = some (rows.map c.cell)) :
    Pipeline.withColumn (frameOver columns rows) ⟨c.name, c.dtype, cells⟩ =
      .ok (frameOver (putColumn Column.name columns c) rows) := by
  have hempty : (frameOver columns rows).columns.isEmpty = false := by
    obtain ⟨d, rest, rfl⟩ := List.exists_cons_of_ne_nil hne
    rfl
  unfold Pipeline.withColumn
  rw [hempty]
  change (Pipeline.broadcast rows.length cells).elim _ _ = _
  rw [hcells]
  change Polars.DataFrame.new rows.length (putColumn Series.name (columns.map (Column.over rows)) (c.over rows)) = _
  rw [@putColumn_map _ _ Column.name Series.name (Column.over rows) (fun _ => rfl)]
  apply Traverse.ok_of_toOption
  rw [new_over, if_pos (nodup_putColumn hnodup c)]

theorem broadcast_map (f : Row → AnyValue) : Pipeline.broadcast rows.length (rows.map f) = some (rows.map f) :=
  if_pos (List.length_map _)

/-- a literal -/
theorem broadcast_cell (v : AnyValue) : Pipeline.broadcast rows.length [v] = some (rows.map fun _ => v) := by
  unfold Pipeline.broadcast
  rw [List.map_const']
  split_ifs with h
  · rw [← h]
    rfl
  · rfl

/-- a cast keeps the values of all rows, or fails -/
theorem castColumn_over (B : Build) (c : Column) (rows : List Row) (target : PType) (mode : CastMode) :
    (Pipeline.castColumn B.toEngine true target mode (c.over rows)).toOption =
      if B.canCast c.dtype target = true ∧ (rows.all fun row => Plan.keepsValue B target mode (c.cell row)) = true then
        some ⟨c.name, target, rows.map fun row => B.castCell target (c.cell row)⟩
      else none := by
  have hcast : (B.cast (c.over rows) target).toOption = if B.canCast c.dtype target = true then
      some ⟨c.name, target, rows.map fun row => B.castCell target (c.cell row)⟩ else none := by
    unfold Polars.Engine.cast Column.over
    rw [List.map_map]
    split_ifs <;> rfl
  cases mode with
  | lossy =>
    have hall : (rows.all fun row => Plan.keepsValue B target .lossy (c.cell row)) = true :=
      List.all_eq_true.2 fun _ _ => rfl
    simp only [hall, and_true]
    exact hcast
  | strict =>
    have hlost : ∀ f : Row → AnyValue, ((rows.map c.cell).zip (rows.map f)).any (fun v => !v.1.isNull && v.2.isNull) =
        !rows.all fun row => (c.cell row).isNull || !(f row).isNull := by
      intro f
      rw [List.zip_map', List.any_map, List.not_all_eq_any_not]
      congr 1
      funext row
      simp
    change (Polars.strictCast B.toEngine (c.over rows) target).toOption = _
    unfold Polars.strictCast
    rw [toOption_bind, hcast]
    by_cases hcan : B.canCast c.dtype target = true
    · rw [if_pos hcan, Option.bind_some]
      change (if ((rows.map c.cell).zip (rows.map fun row => B.castCell target (c.cell row))).any _ = true then _
        else _ : Except PolarsError Series).toOption = _
      rw [hlost]
      simp only [hcan, true_and]
      change _ = if (rows.all fun row => (c.cell row).isNull || !(B.castCell target (c.cell row)).isNull) = true then _
        else _
      cases (rows.all fun row => (c.cell row).isNull || !(B.castCell target (c.cell row)).isNull) <;> rfl
    · rw [if_neg hcan, if_neg (not_and_of_not_left _ hcan)]
      rfl

end Frames

/-! ## One step -/

section Step

variable {B : Build} {p : Plan} {rows : List Row} (hne : p.columns ≠ []) (hnodup : (p.columns.map Column.name).Nodup)
  (haccepts : rows.all p.accepts = true) {lf : DataFrame} (hlf : lf.frame = .ok (frameOver p.columns rows))

include haccepts in
theorem frame_accepted (columns : List Column) : Plan.frame rows { p with columns := columns } =
    some (frameOver columns rows) := if_pos haccepts

include haccepts in
theorem frame_named (columns : List Column) : (p.named columns).bind (Plan.frame rows) =
    if (columns.map Column.name).Nodup then some (frameOver columns rows) else none := by
  unfold Plan.named
  split_ifs
  · exact frame_accepted haccepts columns
  · rfl

include hlf in
theorem andThen_over (f : Polars.DataFrame → Except PolarsError Polars.DataFrame) :
    (lf.andThen f).frame.toOption = (f (frameOver p.columns rows)).toOption := by
  rw [DataFrame.andThen, hlf]
  rfl

theorem frameOver_names : (frameOver p.columns rows).columns.map Series.name = p.columns.map Column.name := by
  rw [frameOver, List.map_map]
  rfl

include haccepts hlf

theorem select_step (E : Pipeline.ArithmeticEngine) (columns : List String)
    (hkeeps : ∀ p', p.select E columns = some p' → p'.columns ≠ []) :
    (DataFrame.select E lf columns).frame.toOption = (p.select E columns).bind (Plan.frame rows) := by
  have hnames : (columns.mapM (Pipeline.columnsOf E ((frameOver p.columns rows).columns.map Series.name))).toOption =
      columns.mapM (p.columnsOf E) := by
    rw [toOption_mapM, frameOver_names]
    rfl
  rw [DataFrame.select, andThen_over hlf, toOption_bind, hnames]
  unfold Plan.select at hkeeps ⊢
  rw [Option.bind_assoc]
  refine Option.bind_congr fun names hexpanded => ?_
  rw [hexpanded, Option.bind_some] at hkeeps
  have hcols : ∀ cs, names.flatten.mapM (find p.columns) = some cs → cs ≠ [] := by
    rintro cs hcs rfl
    refine hkeeps { p with columns := [] } ?_ rfl
    rw [hcs]
    rfl
  rw [select_over E.toEngine names.flatten hcols, Option.bind_assoc]
  exact Option.bind_congr fun cs _ => (frame_named haccepts cs).symm

include hnodup in
theorem drop_step (E : Polars.Engine) (columns : List String)
    (hkeeps : ∀ p', p.drop columns = some p' → p'.columns ≠ []) :
    (DataFrame.drop E lf columns).frame.toOption = (p.drop columns).bind (Plan.frame rows) := by
  rw [DataFrame.drop, andThen_over hlf]
  unfold Pipeline.dropColumns
  rw [toOption_bind, requireNames_over]
  unfold Plan.drop at hkeeps ⊢
  split_ifs at hkeeps ⊢ with hall
  · have hrest : (frameOver p.columns rows).columns.filter (fun c => decide (c.name ∉ columns)) =
        (p.columns.filter fun c => decide (c.name ∉ columns)).map (Column.over rows) := List.filter_map
    have hkept : (p.columns.filter fun c => decide (c.name ∉ columns)) ⊆ p.columns :=
      fun c hc => List.mem_of_mem_filter hc
    have hfound := mapM_find hnodup hkept
    have hdistinct := hnodup.sublist ((List.filter_sublist (p := fun c => decide (c.name ∉ columns))).map Column.name)
    change (Polars.select E (frameOver p.columns rows) _).toOption = Plan.frame rows { p with columns := _ }
    rw [hrest, List.map_map, frame_accepted haccepts]
    change (Polars.select E (frameOver p.columns rows) ((p.columns.filter _).map
      (Polars.Expr.col ∘ Column.name))).toOption = _
    rw [← List.map_map, select_over E _ fun cs hcs => ?_, hfound]
    · exact if_pos hdistinct
    · rw [hfound] at hcs
      obtain rfl := Option.some.inj hcs
      exact hkeeps _ rfl
  · rfl

theorem rename_step (pairs : List (String × String)) :
    (DataFrame.rename lf pairs).frame.toOption = (p.rename pairs).bind (Plan.frame rows) := by
  rw [DataFrame.rename, andThen_over hlf]
  unfold Pipeline.renameColumns Plan.rename
  dsimp only
  rw [toOption_bind, requireNames_over]
  split_ifs with hall
  · rw [frame_named haccepts, ← new_over, List.map_map]
    change (Polars.DataFrame.new _ _).toOption = _
    rw [frameOver, List.map_map]
    rfl
  · rfl

include hne hnodup in
theorem literal_step (E : Polars.Engine) (name : String) (t : PType) (v : AnyValue) :
    (lf.withColumns name ((Polars.lit t v).eval E)).frame.toOption = Plan.frame rows (p.put ⟨name, t, fun _ => v⟩) := by
  rw [DataFrame.withColumns, andThen_over hlf]
  change (Pipeline.withColumn (frameOver p.columns rows) ⟨name, t, [v]⟩).toOption = _
  rw [withColumn_over hne hnodup ⟨name, t, fun _ => v⟩ (broadcast_cell v)]
  exact (frame_accepted haccepts _).symm

omit hlf in
include hne hnodup in
/-- a column computed cell by cell -/
theorem put_over {name n : String} {t : PType} {cell : Row → AnyValue} {x : Except PolarsError Series}
    (hx : x.toOption = some ⟨n, t, rows.map cell⟩) :
    (x >>= fun s => Pipeline.withColumn (frameOver p.columns rows) { s with name := name }).toOption =
      Plan.frame rows (p.put ⟨name, t, cell⟩) := by
  rw [toOption_bind, hx]
  change (Pipeline.withColumn (frameOver p.columns rows) ⟨name, t, rows.map cell⟩).toOption = _
  rw [withColumn_over hne hnodup ⟨name, t, cell⟩ (broadcast_map cell)]
  exact (frame_accepted haccepts _).symm

/-- a step that reads the columns a name stands for -/
theorem withColumnsOf_step (E : Pipeline.ArithmeticEngine) (name source : String) (op : Series → Except PolarsError Series)
    {f : Column → Option Plan} (hop : ∀ c : Column,
      (op (c.over rows) >>= fun s => Pipeline.withColumn (frameOver p.columns rows) { s with name := name }).toOption =
        (f c).bind (Plan.frame rows)) :
    (lf.withColumnsOf E name source fun column df => df.column column >>= op).frame.toOption =
      (p.withColumnsOf E source f).bind (Plan.frame rows) := by
  rw [DataFrame.withColumnsOf, andThen_over hlf, frameOver_names]
  unfold Plan.withColumnsOf Plan.columnsOf
  rw [toOption_bind, Option.bind_assoc]
  refine Option.bind_congr fun columns _ => ?_
  rcases columns with - | ⟨column, - | ⟨second, rest⟩⟩
  · exact (frame_accepted haccepts p.columns).symm
  · change (((frameOver p.columns rows).column column >>= op) >>= fun s =>
      Pipeline.withColumn (frameOver p.columns rows) { s with name := name }).toOption = _
    rw [bind_assoc, toOption_bind, frameOver_column, Option.bind_map, Option.bind_assoc]
    exact Option.bind_congr fun c _ => hop c
  · rfl

include hne hnodup in
/-- an operator on a column and a literal -/
theorem derive_step (E : Pipeline.ArithmeticEngine) (name source : String)
    (rule : PType → Option (PType × (AnyValue → AnyValue))) (op : Series → Except PolarsError Series)
    (hop : ∀ n dtype cells, (op ⟨n, dtype, cells⟩).toOption = (rule dtype).map fun r => ⟨n, r.1, cells.map r.2⟩) :
    (lf.withColumnsOf E name source fun column df => df.column column >>= op).frame.toOption =
      (p.derive E name source rule).bind (Plan.frame rows) := by
  refine withColumnsOf_step haccepts hlf E name source op fun c => ?_
  have hc := hop c.name c.dtype (rows.map c.cell)
  cases hrule : rule c.dtype with
  | none =>
    rw [hrule] at hc
    rw [toOption_bind]
    change (op (c.over rows)).toOption.bind _ = none
    rw [Column.over, hc]
    rfl
  | some r =>
    rw [hrule, Option.map_some, List.map_map] at hc
    exact put_over hne hnodup haccepts hc

include hne hnodup in
theorem cast_step (carried : Bool) (column : String) (target : DataType) (mode : CastMode) :
    (DataFrame.castWithMode B.toArithmeticEngine carried lf column target mode).frame.toOption =
      (p.cast B carried column target mode).bind (Plan.frame rows) := by
  refine withColumnsOf_step haccepts hlf B.toArithmeticEngine column column _ fun c => ?_
  cases carried with
  | false =>
    have hunseen : (Pipeline.castColumn B.toEngine false (targetType target) mode (c.over rows)).toOption =
        some ⟨c.name, targetType target, rows.map fun _ => .null⟩ := by
      change some (Series.mk c.name (targetType target) ((rows.map c.cell).map fun _ => .null)) = _
      rw [List.map_map]
      rfl
    exact put_over hne hnodup haccepts hunseen
  | true =>
    have hcast := castColumn_over B c rows (targetType target) mode
    rw [if_pos rfl]
    by_cases hcan : B.canCast c.dtype (targetType target) = true
    · rw [if_pos hcan, Option.bind_some]
      by_cases hkeeps : (rows.all fun row => Plan.keepsValue B (targetType target) mode (c.cell row)) = true
      · rw [if_pos ⟨hcan, hkeeps⟩] at hcast
        have haccepts' : (rows.all fun row => p.accepts row && Plan.keepsValue B (targetType target) mode (c.cell row)) =
            true := by
          rw [List.all_eq_true] at haccepts hkeeps ⊢
          exact fun row hrow => Bool.and_eq_true_iff.2 ⟨haccepts row hrow, hkeeps row hrow⟩
        exact @put_over
          ⟨fun row => p.accepts row && Plan.keepsValue B (targetType target) mode (c.cell row), p.columns⟩
          rows hne hnodup haccepts' _ _ _ _ _ hcast
      · rw [if_neg (not_and.2 fun _ => hkeeps)] at hcast
        rw [toOption_bind, hcast]
        refine (if_neg fun hall => hkeeps ?_).symm
        rw [List.all_eq_true] at hall ⊢
        exact fun row hrow => (Bool.and_eq_true_iff.1 (hall row hrow)).2
    · rw [if_neg (not_and_of_not_left _ hcan)] at hcast
      rw [if_neg hcan, toOption_bind, hcast]
      rfl

end Step

end RustDataProcessing.Transform
