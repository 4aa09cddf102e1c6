/-
When the two JSON readers agree.

One reader asks of every record that it has every field's path, with a null or a value of the field's type. The other
asks it of the columns the engine builds: a path that some record has is enough, a record that lacks it reads as null,
and what is not of the field's type is cast.

- `ingestJsonFromPath_returns`: what the path reader computes, and on which records it fails.
- `json_readers_agree_iff`: on any non-empty array of objects the two agree exactly when both fail, or both accept the
  records and the engine keeps integers above the `i64` range in float columns.
- `missing_key_accepted`: of two records one lacks the field: one reader fails, the other returns a null.
-/
import Mathlib.Tactic
import RustDataProcessing.Ingestion.JsonEngine

namespace RustDataProcessing.Ingestion

open Polars

/-! ## Paths into a frame -/

/-- the members of a column, one after the other -/
def followSeries : List String → Series → Except PolarsError Series
  | [], s => .ok s
  | seg :: rest, s => (s.fieldByName seg).bind (followSeries rest)

theorem eval_foldl (E : Engine) (df : DataFrame) (segs : List String) (e : Expr) :
    (segs.foldl Expr.fieldByName e).eval E df = (e.eval E df).bind (followSeries segs) := by
  induction segs generalizing e with
  | nil => cases h : e.eval E df <;> simp [h, Except.bind, followSeries]
  | cons seg rest ih =>
    rw [List.foldl_cons, ih, Expr.fieldByName, Expr.eval]
    cases h : e.eval E df <;> rfl

/-- following a path in a column follows it in the column's type and in every cell -/
theorem followSeries_returns (segs : List String) (s : Series) :
    match PType.follow segs s.dtype with
    | some t => ∃ name, followSeries segs s = .ok ⟨name, t, s.cells.map (AnyValue.follow segs)⟩
    | none => ∃ e, followSeries segs s = .error e := by
  induction segs generalizing s with
  | nil => exact ⟨s.name, by simp [followSeries, AnyValue.follow]⟩
  | cons seg rest ih =>
    rw [PType.follow]
    cases ht : s.dtype.member seg with
    | none => exact ⟨_, by simp only [followSeries, Series.fieldByName, ht]; rfl⟩
    | some t =>
      have h := ih ⟨seg, t, s.cells.map (AnyValue.member seg)⟩
      have hstep : followSeries (seg :: rest) s = followSeries rest ⟨seg, t, s.cells.map (AnyValue.member seg)⟩ := by
        simp only [followSeries, Series.fieldByName, ht]; rfl
      rw [Option.bind_some, hstep]
      simpa [Function.comp_def, AnyValue.follow] using h

theorem find_column (members : List (String × PType)) (cells : String → List AnyValue) (key : String) :
    (members.map fun p => (⟨p.1, p.2, cells p.1⟩ : Series)).find? (fun c => c.name = key) =
      (members.lookup key).map fun t => ⟨key, t, cells key⟩ := by
  induction members with
  | nil => rfl
  | cons p members ih =>
    rw [List.map_cons, List.find?_cons, List.lookup_cons, ih]
    by_cases hk : key = p.1
    · subst hk; simp
    · simp [Ne.symm hk, beq_false_of_ne hk]

section Frame

variable (R : JsonRules) (records : List Record)

theorem frame_column (key : String) :
    match (R.rootType records).member key with
    | some t => (R.frame records).column key =
        .ok ⟨key, t, records.map fun record => (R.rootCell records record).member key⟩
    | none => ∃ e, (R.frame records).column key = .error e := by
  unfold DataFrame.column JsonRules.frame PType.member
  rw [find_column _ fun k => records.map fun record => (R.rootCell records record).member k]
  cases (R.rootType records).members.lookup key with
  | none => exact ⟨_, rfl⟩
  | some t => rfl

/-- a path followed from the frame is followed in the type and in every cell of the root -/
theorem column_follow (seg : String) (rest : List String) :
    match PType.follow (seg :: rest) (R.rootType records) with
    | some t => ∃ name, ((R.frame records).column seg).bind (followSeries rest) =
        .ok ⟨name, t, records.map fun record => (R.rootCell records record).follow (seg :: rest)⟩
    | none => ∃ e, ((R.frame records).column seg).bind (followSeries rest) = .error e := by
  have hcol := frame_column R records seg
  rw [PType.follow]
  cases ht : (R.rootType records).member seg with
  | none =>
    rw [ht] at hcol
    obtain ⟨e, he⟩ := hcol
    exact ⟨e, by rw [he]; rfl⟩
  | some t =>
    rw [ht] at hcol
    simp only at hcol
    rw [hcol, Option.bind_some]
    have hfollow := followSeries_returns rest ⟨seg, t, records.map fun record => (R.rootCell records record).member seg⟩
    simpa [Except.bind, Function.comp_def, AnyValue.follow] using hfollow

/-- the expression a field's column is selected by -/
def fieldExpr (name : String) : Expr := if RustStd.contains name '.' then exprForDotPath name else .col name

theorem fieldExpr_dotted {name seg : String} {rest : List String} (hsplit : RustStd.split name '.' = seg :: rest)
    (hdot : RustStd.contains name '.' = true) (E : Engine) (df : DataFrame) :
    (fieldExpr name).eval E df = ((df.column seg).bind (followSeries rest)).map fun s => { s with name := name } := by
  simp only [fieldExpr, hdot, if_true, exprForDotPath, hsplit, Expr.eval, eval_foldl, List.headD_cons,
    List.drop_succ_cons, List.drop_zero]
  cases (df.column seg).bind (followSeries rest) <;> rfl

theorem fieldExpr_plain {name : String} (hdot : ¬RustStd.contains name '.' = true) (E : Engine) (df : DataFrame) :
    (fieldExpr name).eval E df = df.column name := by
  simp only [fieldExpr, hdot, Bool.false_eq_true, if_false, Expr.eval]

/-- **A field's column in the frame** -/
theorem fieldExpr_eval (E : Engine) (name : String) :
    match R.fieldType records name with
    | some t => (fieldExpr name).eval E (R.frame records) = .ok ⟨name, t, records.map (R.fieldCell records name)⟩
    | none => ∃ e, (fieldExpr name).eval E (R.frame records) = .error e := by
  by_cases hdot : RustStd.contains name '.' = true
  · obtain ⟨seg, rest, hsplit⟩ := RustStd.split_eq_cons name '.'
    have hfollow := column_follow R records seg rest
    simp only [JsonRules.fieldType, hsplit, fieldExpr_dotted hsplit hdot]
    cases ht : PType.follow (seg :: rest) (R.rootType records) with
    | none =>
      rw [ht] at hfollow
      obtain ⟨e, he⟩ := hfollow
      exact ⟨e, by rw [he]; rfl⟩
    | some t =>
      rw [ht] at hfollow
      obtain ⟨nm, hnm⟩ := hfollow
      simp only [hnm, Except.map]
      refine congrArg Except.ok (congrArg _ (List.map_congr_left fun record _ => ?_))
      rw [JsonRules.fieldCell, hsplit]
  · have hone := RustStd.split_of_not_contains (Bool.not_eq_true _ ▸ hdot)
    have hcol := frame_column R records name
    have hcell : R.fieldCell records name = fun record => (R.rootCell records record).member name := by
      funext record
      rw [JsonRules.fieldCell, hone]
      rfl
    simp only [JsonRules.fieldType, hone, PType.follow, fieldExpr_plain hdot, hcell]
    cases ht : (R.rootType records).member name with
    | none => rw [ht] at hcol; exact hcol
    | some t => rw [ht] at hcol; exact hcol

end Frame

/-! ## The path reader -/

theorem mem_derivedColumns {schema : Schema} {e : Expr} :
    e ∈ derivedColumns schema ↔ ∃ f ∈ schema.fields, RustStd.contains f.name '.' ∧ exprForDotPath f.name = e := by
  simp only [derivedColumns, List.mem_map, List.mem_filter, and_assoc]

theorem outputName_exprForDotPath (path : String) : (exprForDotPath path).outputName = path := rfl

theorem foldl_isPath (segs : List String) {e : Expr} (h : e.isPath) : (segs.foldl Expr.fieldByName e).isPath := by
  induction segs generalizing e with
  | nil => exact h
  | cons seg rest ih => exact ih h

/-- the derived columns are paths -/
theorem derivedColumns_paths (schema : Schema) : ∀ e ∈ derivedColumns schema, e.isPath := by
  intro e he
  obtain ⟨f, -, -, rfl⟩ := mem_derivedColumns.1 he
  exact foldl_isPath _ rfl

theorem find_derived {schema : Schema} {name : String} {e : Expr}
    (h : (derivedColumns schema).find? (fun e => e.outputName = name) = some e) :
    e = exprForDotPath name ∧ RustStd.contains name '.' := by
  have hout : e.outputName = name := by simpa using List.find?_some h
  obtain ⟨g, -, hdot, rfl⟩ := mem_derivedColumns.1 (List.mem_of_find?_eq_some h)
  rw [outputName_exprForDotPath] at hout
  subst hout
  exact ⟨rfl, hdot⟩

/-- a schema column is selected by its field's expression -/
theorem selected_field (E : Engine) (df : DataFrame) (schema : Schema) {f : Field} (hf : f ∈ schema.fields) :
    selected E df (derivedColumns schema) f.name = (fieldExpr f.name).eval E df := by
  unfold selected fieldExpr
  cases hfind : (derivedColumns schema).find? (fun e => e.outputName = f.name) with
  | none =>
    have hdot : ¬ RustStd.contains f.name '.' = true := fun hdot =>
      List.find?_eq_none.1 hfind _ (mem_derivedColumns.2 ⟨f, hf, hdot, rfl⟩)
        (by simp [outputName_exprForDotPath])
    simp only [hdot, Bool.false_eq_true, if_false, Expr.eval]
  | some e =>
    obtain ⟨rfl, hdot⟩ := find_derived hfind
    simp only [hdot, if_true]

section Path

variable (R : JsonRules) (records : List Record) (schema : Schema)

theorem projectable_iff (E : Engine) :
    Projectable E (R.frame records) (derivedColumns schema) schema.fieldNames ↔
      schema.fieldNames.Nodup ∧ ∀ f ∈ schema.fields, (R.fieldType records f.name).isSome := by
  have hfield : ∀ f ∈ schema.fields, (∃ s, (fieldExpr f.name).eval E (R.frame records) = .ok s) ↔
      (R.fieldType records f.name).isSome := by
    intro f _
    have h := fieldExpr_eval R records E f.name
    cases ht : R.fieldType records f.name with
    | none => rw [ht] at h; obtain ⟨e, he⟩ := h; simp [he]
    | some t => rw [ht] at h; simp only at h; simp [h]
  constructor
  · intro h
    refine ⟨h.namesDistinct, fun f hf => (hfield f hf).1 ?_⟩
    rw [← selected_field _ _ schema hf]
    exact h.namesExist f.name (List.mem_map_of_mem hf)
  · rintro ⟨hnodup, htypes⟩
    refine ⟨?_, hnodup, fun e he => ?_, fun name hname => ?_⟩
    · have hsub : ((derivedColumns schema).map Expr.outputName).Sublist schema.fieldNames := by
        rw [derivedColumns, List.map_map]
        exact List.filter_sublist.map _
      exact hsub.nodup hnodup
    · obtain ⟨f, hf, hdot, rfl⟩ := mem_derivedColumns.1 he
      have := (hfield f hf).2 (htypes f hf)
      rwa [fieldExpr, if_pos hdot] at this
    · obtain ⟨f, hf, rfl⟩ := List.mem_map.1 hname
      rw [selected_field _ _ schema hf]
      exact (hfield f hf).2 (htypes f hf)

end Path

/-- the first column of a name among the selected ones -/
theorem column_of_selected {E : Engine} {df : DataFrame} {derived : List Expr} (hpaths : ∀ e ∈ derived, e.isPath)
    {names : List String} {columns : List Series}
    (h : List.Forall₂ (fun name s => selected E df derived name = .ok s) names columns) {name : String} {s : Series}
    (hs : selected E df derived name = .ok s) (hmem : name ∈ names) :
    columns.find? (fun c => c.name = name) = some s := by
  induction h with
  | nil => cases hmem
  | @cons n c names columns hc _ ih =>
    rw [List.find?_cons]
    by_cases hn : n = name
    · subst hn
      rw [hc] at hs
      cases hs
      simp [(selected_path hpaths hc).1]
    · have hmem' : name ∈ names := (List.mem_cons.1 hmem).resolve_left (Ne.symm hn)
      simpa [(selected_path hpaths hc).1, hn] using ih hmem'

/-- the records the path reader accepts: the engine reads them, the field names are distinct, and every field has a
column with a cast to its type -/
structure PathReads (E : JsonEngine) (records : List Record) (schema : Schema) : Prop where
  readable : E.Readable records
  distinct : schema.fieldNames.Nodup
  castable : ∀ f ∈ schema.fields, ∃ t, E.fieldType records f.name = some t ∧ E.canCast t (targetType f.dataType)

/-- without fields a selection has no columns, and its height is the engine's -/
def pathReadRows (E : JsonEngine) (records : List Record) (schema : Schema) : List Row :=
  if schema.fields = [] then List.replicate (E.emptyHeight records.length) []
  else records.map fun record => schema.fields.map fun f =>
    castValue E.toEngine f.dataType (E.fieldCell records f.name record)

/-- the check of the top-level fields -/
theorem checkFields_returns (df : DataFrame) (schema : Schema) :
    Traverse.Returns (schema.fields.forM fun field =>
        match RustStd.contains field.name '.', df.column field.name with
        | false, .error _ => (.error (missingRequired "field" field) : IngestionResult Unit)
        | _, _ => .ok ())
      (∀ f ∈ schema.fields, RustStd.contains f.name '.' = false → ∃ s, df.column f.name = .ok s) () := by
  refine Traverse.Returns.forM fun f _ => ?_
  cases RustStd.contains f.name '.' with
  | true => exact Or.inl ⟨nofun, rfl⟩
  | false =>
    cases df.column f.name with
    | error e => exact Or.inr ⟨by simp, _, rfl⟩
    | ok s => exact Or.inl ⟨fun _ => ⟨s, rfl⟩, rfl⟩

section Path

variable {P : JsonParser} {E : JsonEngine} (hE : E.ReadsRecords P)
include hE

/-- the projected frame, converted -/
theorem project_returns (records : List Record) (schema : Schema) :
    Traverse.Returns
      ((jsonResult "failed to project json fields" (E.project (E.frame records) (derivedColumns schema)
        (schema.fields.map fun f => .col f.name))) >>= fun projected =>
          dataframeToDataset E.toEngine projected schema "field" 1)
      (schema.fieldNames.Nodup ∧ ∀ f ∈ schema.fields, ∃ t, E.fieldType records f.name = some t ∧
        E.canCast t (targetType f.dataType))
      ⟨schema, pathReadRows E records schema⟩ := by
  have hcols : (schema.fields.map fun f => Expr.col f.name) = schema.fieldNames.map .col := by
    simp [Schema.fieldNames]
  rw [hcols]
  by_cases hproj : Projectable E.toEngine (E.frame records) (derivedColumns schema) schema.fieldNames
  · obtain ⟨hnodup, htypes⟩ := (projectable_iff _ _ _ _).1 hproj
    obtain ⟨out, hout, hsel, hheight⟩ := hE.projects _ _ _ (derivedColumns_paths schema) hproj
    have hcolumn : ∀ f ∈ schema.fields, ∃ t, E.fieldType records f.name = some t ∧
        out.column f.name = .ok ⟨f.name, t, records.map (E.fieldCell records f.name)⟩ := by
      intro f hf
      obtain ⟨t, ht⟩ := Option.isSome_iff_exists.1 (htypes f hf)
      have heval := fieldExpr_eval E.toJsonRules records E.toEngine f.name
      rw [ht] at heval
      have hfind := column_of_selected (derivedColumns_paths schema) hsel
        ((selected_field _ _ schema hf).trans heval) (List.mem_map_of_mem hf)
      exact ⟨t, ht, by rw [DataFrame.column, hfind]⟩
    rw [hout]
    refine (dataframeToDataset_returns hE.cast out schema "field" 1).congr ?_ ?_
    · simp only [hnodup, true_and, Castable]
      refine forall₂_congr fun f hf => ?_
      obtain ⟨t, ht, hc⟩ := hcolumn f hf
      simp [ht, hc]
    · rw [frameRows, hheight, pathReadRows]
      by_cases hnone : schema.fields = []
      · simp [hnone, Schema.fieldNames, JsonRules.frame]
      · have hnames : schema.fieldNames ≠ [] := by simpa [Schema.fieldNames] using hnone
        simp only [hnames, hnone, if_false]
        refine congrArg _ (List.ext_getElem (by simp [JsonRules.frame]) fun i _ hi => ?_)
        have hlt : i < records.length := by simpa using hi
        simp only [List.getElem_map, List.getElem_range]
        refine List.map_congr_left fun f hf => ?_
        obtain ⟨t, ht, hc⟩ := hcolumn f hf
        simp [frameCell, hc, hlt]
  · obtain ⟨e, he⟩ := hE.refusesProjection _ _ _ (derivedColumns_paths schema) hproj
    rw [he]
    refine Or.inr ⟨fun h => hproj ((projectable_iff _ _ _ _).2 ⟨h.1, fun f hf => ?_⟩), _, rfl⟩
    obtain ⟨t, ht, -⟩ := h.2 f hf
    rw [ht]; rfl

/-- **What the path reader computes** on an array of objects -/
theorem ingestJsonFromPath_returns {path text : String} {records : List Record}
    (hpath : (RustStd.extension path).map RustStd.toAsciiLowercase = some "json")
    (htext : P.fromStr text = .ok (.array (records.map .object))) (hne : records ≠ []) (schema : Schema) :
    Traverse.Returns (ingestJsonFromPath E.toJsonBackend path (.ok text) schema) (PathReads E records schema)
      ⟨schema, pathReadRows E records schema⟩ := by
  have hformat : RustStd.toAsciiLowercase ((RustStd.extension path).getD "") ≠ "ndjson" := by
    obtain ⟨ext, hext, hlower⟩ := Option.map_eq_some_iff.1 hpath
    rw [hext, Option.getD_some, hlower]
    decide
  have hread : Traverse.Returns (jsonResult "failed to read json with polars" (E.finish .json text))
      (E.Readable records) (E.frame records) := by
    by_cases h : E.Readable records
    · exact Or.inl ⟨h, by rw [hE.reads text records htext hne h]; rfl⟩
    · obtain ⟨e, he⟩ := hE.refuses text records htext hne h
      exact Or.inr ⟨h, _, by rw [he]; rfl⟩
  simp only [ingestJsonFromPath, hformat, if_false]
  change Traverse.Returns (jsonResult _ (E.finish .json text) >>= fun df => _) _ _
  refine Traverse.Returns.congr (Traverse.Returns.bind hread fun _ => Traverse.Returns.bind
    (checkFields_returns (E.frame records) schema) fun _ => project_returns hE records schema) ?_ rfl
  constructor
  · rintro ⟨hreadable, -, hnodup, hcast⟩
    exact ⟨hreadable, hnodup, hcast⟩
  · intro h
    refine ⟨h.readable, fun f hf hdot => ?_, h.distinct, h.castable⟩
    obtain ⟨t, ht, -⟩ := h.castable f hf
    have heval := fieldExpr_eval E.toJsonRules records E.toEngine f.name
    rw [ht] at heval
    simp only [fieldExpr, hdot, Bool.false_eq_true, if_false, Expr.eval] at heval
    exact ⟨_, heval⟩

end Path

/-! ## Agreement -/

/-- a float column that holds an integer above the `i64` range: the engine's cells still cast to the numbers -/
def LargeIntegersKept (E : JsonEngine) (records : List Record) (schema : Schema) : Prop :=
  ∀ f ∈ schema.fields, f.dataType = .float64 →
    (∃ record ∈ records, ∃ j, getByDotPath record f.name = some j ∧ ¬ j.isNull ∧ ¬ j.isNumber) →
    ∀ record ∈ records, ∀ j, getByDotPath record f.name = some j →
      castValue E.toEngine .float64 (E.fieldCell records f.name record) = jsonValue .float64 j

/-- **A field that every record has with its type** reads the same in both readers -/
theorem fieldCell_value {P : JsonParser} {E : JsonEngine} (hE : E.ReadsRecords P) {records : List Record}
    (hreadable : E.Readable records) {f : Field}
    (haccepts : ∀ record ∈ records, ∃ j, getByDotPath record f.name = some j ∧ Converts f.dataType j)
    (hnumbers : f.dataType = .float64 →
      ∀ record ∈ records, ∀ j, getByDotPath record f.name = some j → j.isNull ∨ j.isNumber)
    {record : Record} (hr : record ∈ records) {j : Json} (hj : getByDotPath record f.name = some j) :
    castValue E.toEngine f.dataType (E.fieldCell records f.name record) = jsonValue f.dataType j := by
  have hwalk : ∀ root ∈ records.map Json.object, (walk root (RustStd.split f.name '.')).isSome := by
    refine List.forall_mem_map.2 fun r hr => ?_
    obtain ⟨i, hi, -⟩ := haccepts r hr
    rw [← getByDotPath_eq, hi]; rfl
  have hvalues : ∀ i ∈ JsonRules.walked (records.map Json.object) (RustStd.split f.name '.'),
      ∃ r ∈ records, getByDotPath r f.name = some i := by
    intro i hi
    obtain ⟨root, hroot, hw⟩ := List.mem_filterMap.1 hi
    obtain ⟨r, hr, rfl⟩ := List.mem_map.1 hroot
    exact ⟨r, hr, by rw [getByDotPath_eq]; exact hw⟩
  have hne : records.map Json.object ≠ [] := by simpa using List.ne_nil_of_mem hr
  obtain ⟨-, hcells⟩ := JsonRules.read_walk E.toJsonRules hne hwalk (List.forall_mem_map.2 hreadable)
  obtain ⟨cell, hcell⟩ := Option.isSome_iff_exists.1 (hreadable record hr)
  have hfollow := hcells _ (List.mem_map_of_mem hr) j cell (by rw [← getByDotPath_eq]; exact hj) hcell
  have hmem : j ∈ JsonRules.walked (records.map Json.object) (RustStd.split f.name '.') :=
    List.mem_filterMap.2 ⟨_, List.mem_map_of_mem hr, by rw [← getByDotPath_eq]; exact hj⟩
  obtain ⟨v, hv, hscalar, hval⟩ := JsonRules.read_uniform E.toJsonRules E.toEngine f.dataType
    (fun i hi => by
      obtain ⟨r, hr, hi⟩ := hvalues i hi
      obtain ⟨i', hi', hc⟩ := haccepts r hr
      rw [hi] at hi'
      cases hi'
      exact hc)
    (fun hdt i hi => by
      obtain ⟨r, hr, hi⟩ := hvalues i hi
      exact hnumbers hdt r hr i hi) hmem
  have hfield : E.fieldCell records f.name record = v := by
    rw [hfollow] at hv
    rw [← Option.some.inj hv, JsonRules.fieldCell, JsonRules.rootCell, hcell]
    rfl
  rw [hfield, (convertCell_cast hE.cast f.dataType v).2.2 hscalar, hval]

/-- **When the two JSON readers agree** on a non-empty array of objects -/
theorem json_readers_agree_iff {P : JsonParser} {E : JsonEngine} (hE : E.ReadsRecords P) {path text : String}
    {records : List Record} (hpath : (RustStd.extension path).map RustStd.toAsciiLowercase = some "json")
    (htext : P.fromStr text = .ok (.array (records.map .object))) (hne : records ≠ []) (schema : Schema) :
    Traverse.Agree (ingestJsonFromPath E.toJsonBackend path (.ok text) schema) (ingestJsonFromStr P text schema) ↔
      (¬ PathReads E records schema ∧ ¬ TextAccepts records schema) ∨
        (PathReads E records schema ∧ TextAccepts records schema ∧ LargeIntegersKept E records schema ∧
          (schema.fields = [] → E.emptyHeight records.length = records.length)) := by
  rw [Traverse.agree_iff (ingestJsonFromPath_returns hE hpath htext hne schema)
    (ingestJsonFromStr_returns htext schema)]
  refine or_congr Iff.rfl (and_congr_right fun hread => and_congr_right fun haccepts => ?_)
  rw [DataSet.mk.injEq, eq_self, true_and, pathReadRows]
  by_cases hnone : schema.fields = []
  · have htext : textRows records schema = List.replicate records.length [] := by
      simp [textRows, hnone, List.map_const']
    simp [hnone, htext, LargeIntegersKept, List.replicate_inj]
  · simp only [hnone, if_false, false_imp_iff, and_true, textRows, List.map_inj_left]
    constructor
    · intro h f hf hdt _ record hr j hj
      have hcell := h record hr f hf
      rw [hj, hdt] at hcell
      exact hcell
    · intro hlarge record hr f hf
      obtain ⟨j, hj, -⟩ := haccepts f hf record hr
      rw [hj, Option.getD_some]
      by_cases hnumbers : f.dataType = .float64 →
          ∀ record ∈ records, ∀ j, getByDotPath record f.name = some j → j.isNull ∨ j.isNumber
      · exact fieldCell_value hE hread.readable (haccepts f hf) hnumbers hr hj
      · push Not at hnumbers
        obtain ⟨hdt, r, hr', i, hi, hnull, hnum⟩ := hnumbers
        rw [hdt]
        exact hlarge f hf hdt ⟨r, hr', i, hi, by simpa using hnull, by simpa using hnum⟩ record hr j hj

/-! ## A record without the field -/

def nameSchema : Schema := ⟨[⟨"name", .utf8⟩]⟩

def nullName : List Record := [[("name", .string "Ada")], [("name", .null)]]

def noName : List Record := [[("name", .string "Ada")], []]

def nameDocuments : JsonParser :=
  knownDocuments [("[\x7b\"name\":\"Ada\"\x7d,\x7b\"name\":null\x7d]", .array (nullName.map .object)),
    ("[\x7b\"name\":\"Ada\"\x7d,\x7b\x7d]", .array (noName.map .object))] (by decide)

/-- both lists of records have one text column -/
theorem name_rootType {records : List Record} (h : records = nullName ∨ records = noName) :
    plainJsonRules.rootType records = .struct [("name", .string)] := by
  rcases h with rfl | rfl
  · have hmem : Json.string "Ada" ∈ Json.memberValues "name" (nullName.map .object) := List.mem_cons_self
    rw [JsonRules.rootType, JsonRules.inferType_object _ (by simp [nullName]) (by decide)]
    exact congrArg (fun t => PType.struct [("name", t)]) (JsonRules.inferType_string _ hmem (by decide) (by decide))
  · have hmem : Json.string "Ada" ∈ Json.memberValues "name" (noName.map .object) := List.mem_cons_self
    rw [JsonRules.rootType, JsonRules.inferType_object _ (by simp [noName]) (by decide)]
    exact congrArg (fun t => PType.struct [("name", t)]) (JsonRules.inferType_string _ hmem (by decide) (by decide))

theorem name_pathReads {P : JsonParser} {records : List Record} (h : records = nullName ∨ records = noName) :
    PathReads (plainJson P) records nameSchema where
  readable := by
    change ∀ record ∈ records, (plainJsonRules.readValue (plainJsonRules.rootType records) (.object record)).isSome
    rw [name_rootType h]
    rcases h with rfl | rfl <;> decide
  distinct := by decide
  castable := by
    intro f hf
    obtain rfl := List.mem_singleton.1 hf
    have hsplit : RustStd.split "name" '.' = ["name"] := by decide
    refine ⟨.string, ?_, rfl⟩
    change PType.follow (RustStd.split "name" '.') (plainJsonRules.rootType records) = _
    rw [name_rootType h, hsplit]
    rfl

/-- a null in a record is no missing field -/
theorem null_name_agrees :
    Traverse.Agree
      (ingestJsonFromPath (plainJson nameDocuments).toJsonBackend "people.json"
        (.ok "[\x7b\"name\":\"Ada\"\x7d,\x7b\"name\":null\x7d]") nameSchema)
      (ingestJsonFromStr nameDocuments "[\x7b\"name\":\"Ada\"\x7d,\x7b\"name\":null\x7d]" nameSchema) := by
  have haccepts : TextAccepts nullName nameSchema := by
    intro f hf record hr
    obtain rfl := List.mem_singleton.1 hf
    rcases List.mem_pair.1 hr with rfl | rfl
    · exact ⟨.string "Ada", rfl, Or.inr rfl⟩
    · exact ⟨.null, rfl, Or.inl rfl⟩
  have htext : nameDocuments.fromStr "[\x7b\"name\":\"Ada\"\x7d,\x7b\"name\":null\x7d]" =
      .ok (.array (nullName.map .object)) := rfl
  refine (json_readers_agree_iff (plainJson_readsRecords nameDocuments) (by decide) htext (by simp [nullName])
    nameSchema).2 (Or.inr ⟨name_pathReads (Or.inl rfl), haccepts, ?_, by simp [nameSchema]⟩)
  intro f hf hdt
  obtain rfl := List.mem_singleton.1 hf
  cases hdt

/-- **A record without the field** is an error for one reader and a null for the other -/
theorem missing_key_accepted :
    ¬ ∀ (P : JsonParser) (E : JsonEngine) (path text : String) (records : List Record) (schema : Schema),
      E.ReadsRecords P → (RustStd.extension path).map RustStd.toAsciiLowercase = some "json" →
      P.fromStr text = .ok (.array (records.map .object)) → records ≠ [] →
      Traverse.Agree (ingestJsonFromPath E.toJsonBackend path (.ok text) schema) (ingestJsonFromStr P text schema) := by
  intro h
  have htext : nameDocuments.fromStr "[\x7b\"name\":\"Ada\"\x7d,\x7b\x7d]" =
      .ok (.array (noName.map .object)) := rfl
  have hne : noName ≠ [] := by simp [noName]
  have hext : (RustStd.extension "people.json").map RustStd.toAsciiLowercase = some "json" := by decide
  have hE := plainJson_readsRecords nameDocuments
  have hagree := h nameDocuments (plainJson nameDocuments) "people.json" _ noName nameSchema hE hext htext hne
  have hpath := ingestJsonFromPath_returns hE hext htext hne nameSchema
  have hrefused : ¬ TextAccepts noName nameSchema := by
    intro haccepts
    obtain ⟨j, hj, -⟩ := haccepts ⟨"name", .utf8⟩ (by decide) [] (by simp [noName])
    cases hj
  rcases (Traverse.agree_iff hpath (ingestJsonFromStr_returns htext nameSchema)).1 hagree with ⟨hno, -⟩ | ⟨-, hyes, -⟩
  · exact hno (name_pathReads (Or.inr rfl))
  · exact hrefused hyes

end RustDataProcessing.Ingestion
