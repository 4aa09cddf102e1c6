/-
What a transformation hides (`TransformSpec::apply` in `src/transform.rs`).

Two datasets that differ in some columns have the same result when no step looks at these columns, or a step on texts
makes the same of both. `Flows` says how far the differences get: which columns may still differ after a step, and by
what. A step that casts a column, fills it or computes with it may only be applied to a column that does not differ, and
must name it literally: a pattern may stand for any column.

- `hidden_columns_do_not_leak`: the result is the same, or both fail, if no column of the result may differ.

The assumptions are those of `RowByRow`. The texts of errors are not compared.
-/
import Mathlib.Tactic
import RustDataProcessing.Transform.RowByRow

namespace RustDataProcessing.Transform

open Polars (PType AnyValue)
open Ingestion (targetType toAnyValue castValue rowCell)
open Pipeline (putColumn renamed)

/-! ## Steps on texts -/

/-- a cell after a step on texts; none is a panic -/
def maskedValue (f : String → IngestionResult String) : Value → Option Value
  | .utf8 s => (f s).toOption.map .utf8
  | v => some v

/-- the row with the cell at `idx` changed -/
def maskedRow (f : String → IngestionResult String) (idx : ℕ) (row : Row) : Option Row :=
  row[idx]?.bind fun v => (maskedValue f v).map fun w => row.set idx w

/-- the column of a step on texts, and what it does with a text -/
def TransformStep.mask (B : Build) : TransformStep → Option (String × (String → IngestionResult String))
  | .utf8Truncate column maxChars => some (column, fun s => .ok (Truncation.takeChars maxChars.toNat s))
  | .utf8Sha256Hex column => some (column, fun s => .ok (sha256Hex B.sha256 s))
  | .utf8RedactMiddle column keepLeft keepRight redaction =>
    some (column, Redaction.redactMiddle B.overflowChecks keepLeft keepRight redaction)
  | _ => none

theorem maskedValue_fits {f : String → IngestionResult String} {v w : Value} (hv : v.fits .utf8)
    (h : maskedValue f v = some w) : w.fits .utf8 := by
  cases v with
  | utf8 s =>
    obtain ⟨t, -, rfl⟩ := Option.map_eq_some_iff.1 h
    exact Or.inr rfl
  | _ =>
    obtain rfl := Option.some.inj h
    exact hv

/-- the body of the loops -/
def textRow (f : String → IngestionResult String) (idx : ℕ) (row : Row) : IngestionResult Row := do
  match ← index row idx with
  | .utf8 s => do
    let t ← f s
    pure (row.set idx (.utf8 t))
  | _ => pure row

theorem textRow_toOption (f : String → IngestionResult String) (idx : ℕ) (row : Row) :
    (textRow f idx row).toOption = maskedRow f idx row := by
  unfold textRow maskedRow
  rw [Traverse.toOption_bind]
  cases hcell : row[idx]? with
  | none =>
    rw [index, hcell]
    rfl
  | some v =>
    have hsame : row.set idx v = row := by
      obtain ⟨hidx, rfl⟩ := List.getElem?_eq_some_iff.1 hcell
      exact List.set_getElem_self hidx
    rw [index, hcell]
    cases v with
    | utf8 s =>
      change (f s >>= fun t => pure (row.set idx (.utf8 t))).toOption = ((f s).toOption.map Value.utf8).map _
      cases f s <;> rfl
    | _ => exact congrArg some hsame.symm

theorem plan_of_mask {B : Build} {C : Cellwise B} {s : TransformStep} {column : String}
    {f : String → IngestionResult String} (h : s.mask B = some (column, f)) :
    ∃ body : ℕ → Row → IngestionResult Row, (∀ carried p, s.plan C carried p = p.onTexts B column body) ∧
      ∀ idx row, (body idx row).toOption = maskedRow f idx row := by
  cases s with
  | utf8Truncate name maxChars =>
    obtain ⟨rfl, rfl⟩ := Prod.mk.inj (Option.some.inj h)
    exact ⟨_, fun _ _ => rfl, textRow_toOption fun s => .ok (Truncation.takeChars maxChars.toNat s)⟩
  | utf8Sha256Hex name =>
    obtain ⟨rfl, rfl⟩ := Prod.mk.inj (Option.some.inj h)
    exact ⟨_, fun _ _ => rfl, textRow_toOption fun s => .ok (sha256Hex B.sha256 s)⟩
  | utf8RedactMiddle name keepLeft keepRight redaction =>
    obtain ⟨rfl, rfl⟩ := Prod.mk.inj (Option.some.inj h)
    exact ⟨_, fun _ _ => rfl, textRow_toOption (Redaction.redactMiddle B.overflowChecks keepLeft keepRight redaction)⟩
  | _ => cases h

/-! ## What may differ -/

/-- the columns that may differ, and the values that may stand for each other there -/
abbrev Hidden := String → Option (Value → Value → Prop)

/-- two rows of a dataset -/
def Alike (hidden : Hidden) (schema : Schema) (row row' : Row) : Prop :=
  ∀ i f, schema.fields[i]? = some f → rowCell i row = rowCell i row' ∨ ∃ R, hidden f.name = some R ∧ f.dataType = .utf8 ∧
    (rowCell i row).fits .utf8 ∧ (rowCell i row').fits .utf8 ∧ R (rowCell i row) (rowCell i row')

/-- two cells after a step, if they are there -/
def Covered (R : Option (Value → Value → Prop)) (v v' : Option Value) : Prop :=
  v = v' ∨ ∃ S w w', R = some S ∧ v = some w ∧ v' = some w' ∧ S w w'

/-- a column that a step may read: it does not differ, and no other column is meant -/
structure Readable (hidden : Hidden) (column : String) : Prop where
  literal : Pipeline.isPattern column = false
  same : hidden column = none

/-- how a step passes on what may differ -/
inductive Flows (B : Build) : Hidden → TransformStep → Hidden → Prop where
  | select {hidden : Hidden} (columns : List String) : Flows B hidden (.select columns) hidden
  | drop {hidden : Hidden} (columns : List String) : Flows B hidden (.drop columns) hidden
  | rename {hidden hidden' : Hidden} {pairs : List (String × String)}
      (h : ∀ name R, hidden name = some R → hidden' (renamed (pairs.filter fun q => q.1 ≠ q.2) name) = some R) :
      Flows B hidden (.rename pairs) hidden'
  | cast {hidden : Hidden} {column : String} {target : DataType} {mode : Pipeline.CastMode}
      (h : Readable hidden column) :
      Flows B hidden (.cast column target mode) hidden
  | fillNull {hidden : Hidden} {column : String} {value : Value} (h : Readable hidden column) :
      Flows B hidden (.fillNull column value) hidden
  | withLiteral {hidden : Hidden} (name : String) (value : Value) :
      Flows B hidden (.withLiteral name value) (Function.update hidden name none)
  | deriveMulF64 {hidden : Hidden} {name source : String} {factor : Binary64} (h : Readable hidden source) :
      Flows B hidden (.deriveMulF64 name source factor) (Function.update hidden name none)
  | deriveAddF64 {hidden : Hidden} {name source : String} {delta : Binary64} (h : Readable hidden source) :
      Flows B hidden (.deriveAddF64 name source delta) (Function.update hidden name none)
  | mask {hidden : Hidden} {s : TransformStep} {column : String} {f : String → IngestionResult String}
      (hs : s.mask B = some (column, f)) {R' : Option (Value → Value → Prop)}
      (h : ∀ R v v', hidden column = some R → R v v' → Covered R' (maskedValue f v) (maskedValue f v')) :
      Flows B hidden s (Function.update hidden column R')

inductive FlowsThrough (B : Build) : Hidden → List TransformStep → Hidden → Prop where
  | nil {hidden : Hidden} : FlowsThrough B hidden [] hidden
  | cons {hidden mid hidden' : Hidden} {s : TransformStep} {steps : List TransformStep} (hs : Flows B hidden s mid)
      (h : FlowsThrough B mid steps hidden') : FlowsThrough B hidden (s :: steps) hidden'

/-- two cells of a column -/
def CellsAlike (hidden : Hidden) (c : Column) (row row' : Row) : Prop :=
  c.cell row = c.cell row' ∨ ∃ R, hidden c.name = some R ∧ c.dtype = .string ∧ ∃ v v' : Value,
    v.fits .utf8 ∧ v'.fits .utf8 ∧ c.cell row = toAnyValue v ∧ c.cell row' = toAnyValue v' ∧ R v v'

/-- what a plan makes of two rows -/
structure PlanAlike (hidden : Hidden) (p : Plan) (row row' : Row) : Prop where
  accepts : p.accepts row = p.accepts row'
  columns : ∀ c ∈ p.columns, CellsAlike hidden c row row'

section Rows

variable {hidden hidden' : Hidden} {schema : Schema} {row row' : Row}

theorem Alike.refl (hidden : Hidden) (schema : Schema) (row : Row) : Alike hidden schema row row :=
  fun _ _ _ => Or.inl rfl

/-- the check of the cells of a row has one result -/
theorem Alike.fits (h : Alike hidden schema row row') :
    (schema.fields.zipIdx.all fun f => (rowCell f.2 row).fits f.1.dataType) =
      schema.fields.zipIdx.all fun f => (rowCell f.2 row').fits f.1.dataType := by
  rw [Bool.eq_iff_iff, List.all_eq_true, List.all_eq_true]
  refine forall₂_congr fun f hf => ?_
  rcases h f.2 f.1 (List.mem_zipIdx_iff_getElem?.1 hf) with heq | ⟨R, -, htext, hfits, hfits', -⟩
  · rw [heq]
  · rw [htext]
    simp only [hfits, hfits']

/-- rows that are loaded -/
theorem Alike.load {m : RowMap} {p : Plan} (hload : Plan.load schema m = some p)
    (haccepts : m.accepts row = m.accepts row') (h : Alike hidden schema (m.map row) (m.map row')) :
    PlanAlike hidden p row row' := by
  unfold Plan.load at hload
  split_ifs at hload
  obtain rfl := Option.some.inj hload
  refine ⟨?_, fun c hc => ?_⟩
  · change (m.accepts row && _) = (m.accepts row' && _)
    rw [haccepts, h.fits]
  · obtain ⟨f, hf, rfl⟩ := List.mem_map.1 hc
    rcases h f.2 f.1 (List.mem_zipIdx_iff_getElem?.1 hf) with heq | ⟨R, hR, htext, hfits, hfits', hv⟩
    · exact Or.inl (congrArg toAnyValue heq)
    · refine Or.inr ⟨R, hR, ?_, _, _, hfits, hfits', rfl, rfl, hv⟩
      change targetType f.1.dataType = .string
      rw [htext]
      rfl

theorem rowCell_of_lt {idx : ℕ} {row : Row} (h : idx < row.length) : row[idx]? = some (rowCell idx row) := by
  rw [rowCell, List.getElem?_eq_getElem h]
  rfl

theorem rowCell_set {idx : ℕ} {row : Row} (h : idx < row.length) (w : Value) (j : ℕ) :
    rowCell j (row.set idx w) = if idx = j then w else rowCell j row := by
  unfold rowCell
  split_ifs with hj
  · subst hj
    rw [List.getElem?_set_self h]
    rfl
  · rw [List.getElem?_set_ne hj]

section Mask

variable (hnodup : schema.fieldNames.Nodup) {column : String} {idx : ℕ} (hidx : schema.indexOf column = some idx)
  (hlen : row.length = schema.fields.length) (hlen' : row'.length = schema.fields.length)
include hnodup hidx hlen hlen'

theorem Alike.set (h : Alike hidden schema row row') {R : Option (Value → Value → Prop)} {w w' : Value}
    (hw : w = w' ∨ ∃ S, R = some S ∧ (∀ f, schema.fields[idx]? = some f → f.dataType = .utf8) ∧ w.fits .utf8 ∧
      w'.fits .utf8 ∧ S w w') : Alike (Function.update hidden column R) schema (row.set idx w) (row'.set idx w') := by
  obtain ⟨hlt, hname⟩ := Schema.indexOf_some hidx
  intro j f hf
  rw [rowCell_set (hlen ▸ hlt), rowCell_set (hlen' ▸ hlt)]
  by_cases hj : idx = j
  · subst hj
    have hcolumn : f.name = column := by
      rw [List.getElem?_eq_getElem hlt] at hf
      rw [← Option.some.inj hf, hname]
    rw [if_pos rfl, if_pos rfl, hcolumn, Function.update_self]
    rcases hw with rfl | ⟨S, hS, htext, hfits, hfits', hvalue⟩
    · exact Or.inl rfl
    · exact Or.inr ⟨S, hS, htext f hf, hfits, hfits', hvalue⟩
  · have hcolumn : f.name ≠ column := by
      rintro rfl
      rw [Schema.indexOf_of_nodup hnodup hf] at hidx
      exact hj (Option.some.inj hidx).symm
    rw [if_neg hj, if_neg hj, Function.update_of_ne hcolumn]
    exact h j f hf

/-- a step on texts, in two rows -/
theorem Alike.mask {f : String → IngestionResult String} {R' : Option (Value → Value → Prop)}
    (hR : ∀ R v v', hidden column = some R → R v v' → Covered R' (maskedValue f v) (maskedValue f v'))
    (h : Alike hidden schema row row') :
    (maskedRow f idx row).isSome = (maskedRow f idx row').isSome ∧
      Alike (Function.update hidden column R') schema ((maskedRow f idx row).getD [])
        ((maskedRow f idx row').getD []) := by
  obtain ⟨hlt, hname⟩ := Schema.indexOf_some hidx
  have hrow : maskedRow f idx row = (maskedValue f (rowCell idx row)).map fun w => row.set idx w := by
    rw [maskedRow, rowCell_of_lt (hlen ▸ hlt), Option.bind_some]
  have hrow' : maskedRow f idx row' = (maskedValue f (rowCell idx row')).map fun w => row'.set idx w := by
    rw [maskedRow, rowCell_of_lt (hlen' ▸ hlt), Option.bind_some]
  have hsame : maskedValue f (rowCell idx row) = maskedValue f (rowCell idx row') →
      (maskedRow f idx row).isSome = (maskedRow f idx row').isSome ∧
      Alike (Function.update hidden column R') schema ((maskedRow f idx row).getD [])
        ((maskedRow f idx row').getD []) := by
    intro heq
    rw [hrow, hrow', heq]
    cases maskedValue f (rowCell idx row') with
    | none => exact ⟨rfl, Alike.refl _ _ _⟩
    | some w => exact ⟨rfl, h.set hnodup hidx hlen hlen' (Or.inl rfl)⟩
  rcases h idx _ (List.getElem?_eq_getElem hlt) with heq | ⟨R, hhidden, htext, hfits, hfits', hvalue⟩
  · exact hsame (congrArg (maskedValue f) heq)
  · rw [hname] at hhidden
    rcases hR R _ _ hhidden hvalue with heq | ⟨S, w, w', hS, hw, hw', hmasked⟩
    · exact hsame heq
    · rw [hrow, hrow', hw, hw']
      refine ⟨rfl, h.set hnodup hidx hlen hlen' (Or.inr ⟨S, hS, fun g hg => ?_, ?_, ?_, hmasked⟩)⟩
      · rw [List.getElem?_eq_getElem hlt] at hg
        rw [← Option.some.inj hg, htext]
      · exact maskedValue_fits hfits hw
      · exact maskedValue_fits hfits' hw'

end Mask

end Rows

/-! ## One step -/

theorem find_some {columns : List Column} {name : String} {c : Column} (h : find columns name = some c) :
    c ∈ columns ∧ c.name = name := ⟨List.mem_of_find?_eq_some h, by simpa using List.find?_some h⟩

theorem mem_putColumn {α : Type} {name : α → String} {columns : List α} {c d : α} (h : d ∈ putColumn name columns c) :
    d = c ∨ d ∈ columns ∧ name d ≠ name c := by
  unfold putColumn at h
  split_ifs at h with hany
  · obtain ⟨e, he, hed⟩ := List.mem_map.1 h
    split_ifs at hed with hname
    · exact Or.inl hed.symm
    · rw [← hed]
      exact Or.inr ⟨he, hname⟩
  · rcases List.mem_append.1 h with hd | hd
    · exact Or.inr ⟨hd, fun hname => hany (List.any_eq_true.2 ⟨d, hd, decide_eq_true hname⟩)⟩
    · exact Or.inl (List.mem_singleton.1 hd)

section Step

variable {B : Build} {C : Cellwise B} {hidden hidden' : Hidden} {p p' : Plan} {row row' : Row}

theorem CellsAlike.eq_of_none {c : Column} (h : CellsAlike hidden c row row') (hc : hidden c.name = none) :
    c.cell row = c.cell row' := by
  rcases h with h | ⟨R, hR, -⟩
  · exact h
  · rw [hc] at hR
    cases hR

theorem PlanAlike.put (h : PlanAlike hidden p row row') {c : Column} (hc : c.cell row = c.cell row') :
    PlanAlike (Function.update hidden c.name none) (p.put c) row row' := by
  refine ⟨h.accepts, fun d hd => ?_⟩
  rcases mem_putColumn hd with rfl | ⟨hd, hname⟩
  · exact Or.inl hc
  · rw [CellsAlike, Function.update_of_ne hname]
    exact h.columns d hd

theorem PlanAlike.named (h : PlanAlike hidden p row row') {columns : List Column}
    (hcolumns : ∀ c ∈ columns, CellsAlike hidden' c row row') (hp : p.named columns = some p') :
    PlanAlike hidden' p' row row' := by
  unfold Plan.named at hp
  split_ifs at hp
  obtain rfl := Option.some.inj hp
  exact ⟨h.accepts, hcolumns⟩

theorem withColumnsOf_literal {E : Pipeline.ArithmeticEngine} {source : String} (h : Pipeline.isPattern source = false)
    {f : Column → Option Plan} (hp : p.withColumnsOf E source f = some p') :
    ∃ c ∈ p.columns, c.name = source ∧ f c = some p' := by
  unfold Plan.withColumnsOf Plan.columnsOf at hp
  rw [Pipeline.columnsOf_literal E _ h] at hp
  change (find p.columns source).bind f = some p' at hp
  obtain ⟨c, hc, hp⟩ := Option.bind_eq_some_iff.1 hp
  exact ⟨c, (find_some hc).1, (find_some hc).2, hp⟩

theorem PlanAlike.derive (h : PlanAlike hidden p row row') {E : Pipeline.ArithmeticEngine} {name source : String}
    {rule : PType → Option (PType × (AnyValue → AnyValue))} (hsource : Readable hidden source)
    (hp : p.derive E name source rule = some p') : PlanAlike (Function.update hidden name none) p' row row' := by
  obtain ⟨c, hmem, rfl, hc⟩ := withColumnsOf_literal hsource.literal hp
  obtain ⟨r, -, rfl⟩ := Option.map_eq_some_iff.1 hc
  exact @PlanAlike.put hidden p row row' h ⟨name, r.1, fun row => r.2 (c.cell row)⟩
    (congrArg r.2 ((h.columns c hmem).eq_of_none hsource.same))

theorem update_hidden {name : String} (h : hidden name = none) : Function.update hidden name none = hidden :=
  Function.update_eq_self_iff.2 h.symm

theorem PlanAlike.cast (h : PlanAlike hidden p row row') {carried : Bool} {column : String} {target : DataType}
    {mode : Pipeline.CastMode} (hcolumn : Readable hidden column) (hp : p.cast B carried column target mode = some p') :
    PlanAlike hidden p' row row' := by
  obtain ⟨c, hmem, rfl, hc⟩ := withColumnsOf_literal hcolumn.literal hp
  have hcell := (h.columns c hmem).eq_of_none hcolumn.same
  have hchecked : PlanAlike hidden
      ⟨fun row => p.accepts row && Plan.keepsValue B (targetType target) mode (c.cell row), p.columns⟩ row row' :=
    ⟨congrArg₂ (· && ·) h.accepts (congrArg (Plan.keepsValue B (targetType target) mode) hcell), h.columns⟩
  rw [← update_hidden hcolumn.same]
  split_ifs at hc
  · obtain rfl := Option.some.inj hc
    exact @PlanAlike.put hidden _ row row' hchecked
      ⟨c.name, targetType target, fun row => B.castCell (targetType target) (c.cell row)⟩
      (congrArg (B.castCell (targetType target)) hcell)
  -- nobody sees the cells
  · obtain rfl := Option.some.inj hc
    exact @PlanAlike.put hidden p row row' h ⟨c.name, targetType target, fun _ => .null⟩ rfl

/-- rows that are collected -/
theorem PlanAlike.collect (hE : B.toEngine.NonStrict) (h : PlanAlike hidden p row row') {schema : Schema} {m : RowMap}
    (hm : p.collect B schema = some m)
    (htext : ∀ f ∈ schema.fields, ∀ c, find p.columns f.name = some c → c.dtype = .string → hidden f.name = none ∨
      f.dataType = .utf8) :
    m.accepts row = m.accepts row' ∧ Alike hidden schema (m.map row) (m.map row') := by
  have hown : ∀ v : Value, v.fits .utf8 → castValue B.toEngine .utf8 (toAnyValue v) = v := by
    intro v hv
    rcases hv with rfl | hv
    · exact (Ingestion.convertCell_cast hE .utf8 .null).2.2 rfl
    · cases v with
      | utf8 s => exact (Ingestion.convertCell_cast hE .utf8 (.string s)).2.2 rfl
      | _ => cases hv
  unfold Plan.collect at hm
  split_ifs at hm
  obtain rfl := Option.some.inj hm
  refine ⟨h.accepts, fun i f hf => ?_⟩
  have hcell : ∀ r : Row, rowCell i (schema.fields.map fun f =>
      castValue B.toEngine f.dataType ((find p.columns f.name).elim .null fun c => c.cell r)) =
      castValue B.toEngine f.dataType ((find p.columns f.name).elim .null fun c => c.cell r) := by
    intro r
    rw [rowCell, List.getElem?_map, hf]
    rfl
  dsimp only
  rw [hcell, hcell]
  cases hfind : find p.columns f.name with
  | none => exact Or.inl rfl
  | some c =>
    obtain ⟨hmem, hname⟩ := find_some hfind
    rcases h.columns c hmem with heq | ⟨R, hR, hstring, v, v', hv, hv', hcellv, hcellv', hvalue⟩
    · exact Or.inl (congrArg (castValue B.toEngine f.dataType) heq)
    · rcases htext f (List.mem_of_getElem? hf) c hfind hstring with hnone | hutf8
      · rw [hname, hnone] at hR
        cases hR
      · rw [Option.elim_some, Option.elim_some, hcellv, hcellv', hutf8, hown v hv, hown v' hv']
        exact Or.inr ⟨R, hname ▸ hR, rfl, hv, hv', hvalue⟩

/-- a column of texts is collected as one -/
theorem inferred_text (hnodup : (p.columns.map Column.name).Nodup) {schema : Schema}
    (hschema : p.inferSchema = some schema) {f : Field} (hf : f ∈ schema.fields) {c : Column}
    (hc : find p.columns f.name = some c) (hstring : c.dtype = .string) : f.dataType = .utf8 := by
  obtain ⟨fields, hfields, rfl⟩ := Option.map_eq_some_iff.1 hschema
  obtain ⟨d, hd, hdf⟩ := Traverse.exists_of_mem (Traverse.mapM_eq_some_iff.1 hfields).flip hf
  obtain ⟨dt, hdt, rfl⟩ := Option.map_eq_some_iff.1 hdf
  obtain ⟨hmem, hname⟩ := find_some hc
  obtain rfl : c = d := List.inj_on_of_nodup_map hnodup hmem hd hname
  rw [hstring] at hdt
  exact (Option.some.inj hdt).symm

theorem collect_length {schema : Schema} {m : RowMap} (hm : p.collect B schema = some m) (row : Row) :
    (m.map row).length = schema.fields.length := by
  unfold Plan.collect at hm
  split_ifs at hm
  rw [← Option.some.inj hm]
  exact List.length_map _

theorem PlanAlike.onTexts (hE : B.toEngine.NonStrict) (hnodup : (p.columns.map Column.name).Nodup)
    (h : PlanAlike hidden p row row') {column : String} {body : ℕ → Row → IngestionResult Row}
    {f : String → IngestionResult String} (hbody : ∀ idx row, (body idx row).toOption = maskedRow f idx row)
    {R' : Option (Value → Value → Prop)}
    (hR : ∀ R v v', hidden column = some R → R v v' → Covered R' (maskedValue f v) (maskedValue f v'))
    (hp : p.onTexts B column body = some p') : PlanAlike (Function.update hidden column R') p' row row' := by
  obtain ⟨schema, hschema, hp⟩ := Option.bind_eq_some_iff.1 hp
  obtain ⟨m, hm, hp⟩ := Option.bind_eq_some_iff.1 hp
  obtain ⟨idx, hidx, hload⟩ := Option.bind_eq_some_iff.1 hp
  have hfound : schema.indexOf column = some idx :=
    (Truncation.utf8FieldIndex_iff.1 (Traverse.ok_of_toOption hidx)).found
  have hnames : schema.fieldNames.Nodup := by
    unfold Plan.load at hload
    split_ifs at hload with hnames
    exact hnames
  obtain ⟨haccepts, halike⟩ := h.collect hE hm fun g hg c hc hstring =>
    Or.inr (inferred_text hnodup hschema hg hc hstring)
  have hlen : ∀ r, (m.map r).length = schema.fields.length := collect_length hm
  obtain ⟨hsome, hmasked⟩ := halike.mask hnames hfound (hlen row) (hlen row') hR
  refine Alike.load hload ?_ ?_
  · change (m.accepts row && (body idx (m.map row)).toOption.isSome) =
      (m.accepts row' && (body idx (m.map row')).toOption.isSome)
    rw [hbody, hbody, haccepts, hsome]
  · change Alike _ schema ((body idx (m.map row)).toOption.getD []) ((body idx (m.map row')).toOption.getD [])
    rw [hbody, hbody]
    exact hmasked

/-- **One step**, in two rows -/
theorem PlanAlike.step (hE : B.toEngine.NonStrict) (hnodup : (p.columns.map Column.name).Nodup) {s : TransformStep}
    (hflow : Flows B hidden s hidden') (h : PlanAlike hidden p row row') {carried : Bool}
    (hp : s.plan C carried p = some p') : PlanAlike hidden' p' row row' := by
  cases hflow with
  | select columns =>
    obtain ⟨names, -, hp⟩ := Option.bind_eq_some_iff.1 hp
    obtain ⟨cs, hcs, hp⟩ := Option.bind_eq_some_iff.1 hp
    refine h.named (fun c hc => ?_) hp
    obtain ⟨name, -, hfind⟩ := Traverse.exists_of_mem (Traverse.mapM_eq_some_iff.1 hcs).flip hc
    exact h.columns c (find_some hfind).1
  | drop columns =>
    change Plan.drop p columns = some p' at hp
    unfold Plan.drop at hp
    split_ifs at hp
    obtain rfl := Option.some.inj hp
    exact ⟨h.accepts, fun c hc => h.columns c (List.mem_of_mem_filter hc)⟩
  | @rename _ pairs hrenamed =>
    change Plan.rename p pairs = some p' at hp
    unfold Plan.rename at hp
    dsimp only at hp
    split_ifs at hp
    refine h.named (fun c hc => ?_) hp
    obtain ⟨d, hd, rfl⟩ := List.mem_map.1 hc
    rcases h.columns d hd with heq | ⟨R, hR, hcells⟩
    · exact Or.inl heq
    · exact Or.inr ⟨R, hrenamed d.name R hR, hcells⟩
  | cast hcolumn => exact h.cast hcolumn hp
  | fillNull hcolumn =>
    obtain ⟨l, -, hp⟩ := Option.bind_eq_some_iff.1 hp
    rw [← update_hidden hcolumn.same]
    exact h.derive hcolumn hp
  | withLiteral name value =>
    obtain ⟨l, -, rfl⟩ := Option.map_eq_some_iff.1 hp
    exact @PlanAlike.put hidden p row row' h ⟨name, l.1, fun _ => l.2⟩ rfl
  | @deriveMulF64 name source factor hsource =>
    exact @PlanAlike.derive hidden p p' row row' h B.toArithmeticEngine name source (C.mul · factor) hsource hp
  | @deriveAddF64 name source delta hsource =>
    exact @PlanAlike.derive hidden p p' row row' h B.toArithmeticEngine name source (C.add · delta) hsource hp
  | mask hs hR =>
    obtain ⟨body, hplan, hbody⟩ := @plan_of_mask B C s _ _ hs
    exact h.onTexts hE hnodup hbody hR ((hplan carried p).symm.trans hp)

theorem PlanAlike.steps (hE : B.toEngine.NonStrict) {steps : List (TransformStep × Bool)} :
    ∀ {hidden : Hidden} {p p' : Plan}, FlowsThrough B hidden (steps.map Prod.fst) hidden' →
      (p.columns.map Column.name).Nodup → PlanAlike hidden p row row' → steps.foldlM (planStep C) p = some p' →
        PlanAlike hidden' p' row row' := by
  induction steps with
  | nil =>
    intro hidden p p' hflow _ h hp
    cases hflow
    rw [← Option.some.inj hp]
    exact h
  | cons s steps ih =>
    intro hidden p p' hflow hnodup h hp
    cases hflow with
    | cons hs hrest =>
      rw [List.foldlM_cons] at hp
      obtain ⟨q, hq, hp⟩ := Option.bind_eq_some_iff.1 hp
      exact ih hrest ((plan_extends hq).nodup hnodup) (h.step hE hnodup hs hq) hp

end Step

/-! ## A whole spec -/

section Main

variable {B : Build} (C : Cellwise B) (hE : B.toEngine.NonStrict) {spec : TransformSpec} {schema : Schema}
  {hidden hidden' : Hidden} (hflow : FlowsThrough B hidden spec.steps hidden')
  (hout : ∀ f ∈ spec.outputSchema.fields, hidden' f.name = none)
include hE hflow hout

/-- two rows become one row, or neither is accepted -/
theorem rowMap_alike {m : RowMap} (hm : spec.rowMap C schema = some m) {row row' : Row}
    (h : Alike hidden schema row row') : m.run row = m.run row' := by
  obtain ⟨p, hload, hm⟩ := Option.bind_eq_some_iff.1 hm
  obtain ⟨q, hsteps, hcollect⟩ := Option.bind_eq_some_iff.1 hm
  have hfirst : PlanAlike hidden p row row' := Alike.load hload rfl h
  rw [← carriedOut_steps B schema spec.steps] at hflow
  have hlast := PlanAlike.steps hE hflow (Plan.load_some hload).1 hfirst hsteps
  obtain ⟨haccepts, halike⟩ := hlast.collect hE hcollect fun f hf _ _ _ => Or.inl (hout f hf)
  have hmap : m.map row = m.map row' := by
    refine List.ext_getElem ((collect_length hcollect row).trans (collect_length hcollect row').symm) fun i hi hi' => ?_
    have hlt : i < spec.outputSchema.fields.length := collect_length hcollect row ▸ hi
    rcases halike i _ (List.getElem?_eq_getElem hlt) with heq | ⟨R, hR, -⟩
    · rw [rowCell, rowCell, List.getElem?_eq_getElem hi, List.getElem?_eq_getElem hi'] at heq
      exact heq
    · rw [hout _ (List.getElem_mem hlt)] at hR
      cases hR
  unfold RowMap.run
  rw [haccepts, hmap]

/-- **Hidden columns do not leak**: datasets that differ only where a column is hidden have the same result, or both
fail, if the steps pass on no difference to a column of the result. No step leaves the frame without columns, and there
are at most `maxRows` rows -/
theorem hidden_columns_do_not_leak (hkeeps : KeepsColumns C schema spec.steps) : ∀ rows rows' : List Row,
    rows.length ≤ B.maxRows → List.Forall₂ (Alike hidden schema) rows rows' →
      (spec.apply B ⟨schema, rows⟩).toOption = (spec.apply B ⟨schema, rows'⟩).toOption := by
  intro rows rows' hmax hrows
  rw [apply_toOption C hE hmax hkeeps, apply_toOption C hE (hrows.length_eq ▸ hmax) hkeeps]
  refine Option.bind_congr fun m hm => ?_
  have hloop : rows.mapM m.run = rows'.mapM m.run := by
    clear hmax
    induction hrows with
    | nil => rfl
    | cons hrow _ ih => rw [List.mapM_cons, List.mapM_cons, ih, rowMap_alike C hE hflow hout hm hrow]
  rw [RowMap.dataset, RowMap.dataset, hloop]

end Main

/-! ## Patients -/

def patientSchema : Schema := ⟨[⟨"id", .int64⟩, ⟨"name", .utf8⟩, ⟨"note", .utf8⟩]⟩

def patientSpec : TransformSpec where
  outputSchema := ⟨[⟨"id", .int64⟩, ⟨"who", .utf8⟩, ⟨"ward", .int64⟩]⟩
  steps := [.rename [("name", "who")], .utf8RedactMiddle "who" 1 1 "***", .drop ["note"], .withLiteral "ward" (.int64 7)]

/-- two names with one redaction -/
def sameRedaction (v v' : Value) : Prop :=
  maskedValue (Redaction.redactMiddle false 1 1 "***") v = maskedValue (Redaction.redactMiddle false 1 1 "***") v'

/-- the notes and the middles of the names; `key` is the column of the names -/
def patientHidden (key : String) : Hidden := fun name =>
  if name = key then some sameRedaction else if name = "note" then some fun _ _ => True else none

theorem patient_flow : FlowsThrough Build.plain (patientHidden "name") patientSpec.steps
    (Function.update (Function.update (patientHidden "who") "who" none) "ward" none) := by
  refine .cons (.rename fun name R hR => ?_) (.cons (.mask rfl fun R v v' hR hv => ?_)
    (.cons (.drop _) (.cons (.withLiteral _ _) .nil)))
  · unfold patientHidden at hR
    split_ifs at hR with hname hnote
    · subst hname
      exact hR
    · subst hnote
      exact hR
  · obtain rfl := Option.some.inj hR
    exact Or.inl hv

/-- the redacted row -/
def patientOut : DataSet := ⟨patientSpec.outputSchema, [[.int64 1, .utf8 "A***e", .int64 7]]⟩

theorem patients_do_not_leak :
    (patientSpec.apply Build.plain ⟨patientSchema, [[.int64 1, .utf8 "Alice", .utf8 "flu"]]⟩).toOption =
      (patientSpec.apply Build.plain ⟨patientSchema, [[.int64 1, .utf8 "Aimee", .utf8 "gout"]]⟩).toOption ∧
    (patientSpec.apply Build.plain ⟨patientSchema, [[.int64 1, .utf8 "Aimee", .utf8 "gout"]]⟩).toOption =
      some patientOut := by
  have hout : ∀ f ∈ patientSpec.outputSchema.fields,
      Function.update (Function.update (patientHidden "who") "who" none) "ward" none f.name = none := by
    intro f hf
    simp only [patientSpec, List.mem_cons, List.not_mem_nil, or_false] at hf
    rcases hf with rfl | rfl | rfl <;> rfl
  refine ⟨hidden_columns_do_not_leak Cellwise.plain Build.plain_nonStrict patient_flow hout (by decide) _ _ (by decide)
    (.cons (fun i f hf => ?_) .nil), rfl⟩
  match i with
  | 0 => exact Or.inl rfl
  | 1 =>
    obtain rfl := Option.some.inj hf
    exact Or.inr ⟨sameRedaction, rfl, rfl, Or.inr rfl, Or.inr rfl, rfl⟩
  | 2 =>
    obtain rfl := Option.some.inj hf
    exact Or.inr ⟨fun _ _ => True, rfl, rfl, Or.inr rfl, Or.inr rfl, trivial⟩
  | i + 3 => cases hf

end RustDataProcessing.Transform
