/-
Texts of at most so many characters (`utf8_truncate_dataset` in `src/transform.rs`, `filter_rows_max_utf8_chars` in
`src/export.rs`).

The step changes a dataset in place, row by row; the filter makes a new one. Both count characters, not bytes.

- `utf8TruncateDataset_eq`: what the step leaves of a dataset whose rows reach to the column.
- `truncation_laws`: two steps are one, the filter keeps what the step has cut, nothing else is changed, and nothing is
  changed on an error.
-/
import Mathlib.Tactic
import RustDataProcessing.Lib.Attempt
import RustDataProcessing.Redaction

namespace RustDataProcessing.Truncation

open Redaction (utf8FieldIndex utf8FieldIndex_ok)

/-! ## The source -/

/-- `s.chars().take(max_chars).collect()` -/
def takeChars (maxChars : ℕ) (s : String) : String := String.ofList (s.toList.take maxChars)

/-- the body of the loop -/
def truncateRow (idx maxChars : ℕ) (row : Row) : IngestionResult Row := do
  match ← index row idx with
  | .utf8 s => pure (row.set idx (.utf8 (takeChars maxChars s)))
  | _ => pure row

def utf8TruncateDataset (column : String) (maxChars : ℕ) : Attempt DataSet Fault Unit := fun ds =>
  match utf8FieldIndex ds column with
  | .error e => (ds, .error e)
  | .ok idx =>
    let (rows, r) := Attempt.eachMut (truncateRow idx maxChars) ds.rows
    (⟨ds.schema, rows⟩, r)

/-- the rows that the filter pushes -/
def keepsRow (idx maxChars : ℕ) (row : Row) : Bool :=
  match row[idx]? with
  | some (.utf8 s) => s.toList.length ≤ maxChars
  | some .null | none => true
  | _ => false

def filterRowsMaxUtf8Chars (ds : DataSet) (column : String) (maxChars : ℕ) : IngestionResult DataSet :=
  match ds.schema.indexOf column with
  | none => .error (.schemaMismatch s!"filter_rows_max_utf8_chars: unknown column '{column}'")
  | some idx => do
    let field ← index ds.schema.fields idx
    if field.dataType ≠ .utf8 then .error (.schemaMismatch s!"column '{column}' must be Utf8")
    else pure ⟨ds.schema, ds.rows.filter (keepsRow idx maxChars)⟩

/-! ## Columns of texts -/

/-- the column stands at `idx`, and is one of texts -/
structure TextColumn (schema : Schema) (column : String) (idx : ℕ) : Prop where
  found : schema.indexOf column = some idx
  text : ∃ field, schema.fields[idx]? = some field ∧ field.dataType = .utf8

theorem utf8FieldIndex_iff {ds : DataSet} {column : String} {idx : ℕ} :
    utf8FieldIndex ds column = .ok idx ↔ TextColumn ds.schema column idx := by
  constructor
  · intro h
    unfold utf8FieldIndex at h
    split at h
    · cases h
    · next i hi =>
      obtain ⟨field, hfield, h⟩ := Traverse.bind_eq_ok h
      split_ifs at h with htext
      obtain rfl := Except.ok.inj h
      refine ⟨hi, field, ?_, not_not.1 htext⟩
      unfold index at hfield
      split at hfield
      · next hget => rw [hget, Except.ok.inj hfield]
      · cases hfield
  · rintro ⟨hfound, field, hfield, htext⟩
    exact utf8FieldIndex_ok hfound hfield htext

theorem filterRows_eq {ds : DataSet} {column : String} {idx : ℕ} (h : TextColumn ds.schema column idx) (maxChars : ℕ) :
    filterRowsMaxUtf8Chars ds column maxChars = .ok ⟨ds.schema, ds.rows.filter (keepsRow idx maxChars)⟩ := by
  obtain ⟨field, hfield, htext⟩ := h.text
  unfold filterRowsMaxUtf8Chars index
  simp only [h.found, hfield]
  change (if field.dataType ≠ .utf8 then _ else _) = _
  rw [if_neg (not_not.2 htext)]
  rfl

/-! ## One row -/

def truncateValue (maxChars : ℕ) : Value → Value
  | .utf8 s => .utf8 (takeChars maxChars s)
  | v => v

/-- a row before and after the step -/
structure TruncatedRow (idx maxChars : ℕ) (row row' : Row) : Prop where
  text : ∀ s, row[idx]? = some (.utf8 s) → row'[idx]? = some (.utf8 (takeChars maxChars s))
  null : row[idx]? = some .null → row'[idx]? = some .null
  others : ∀ j, j ≠ idx → row'[j]? = row[j]?

theorem takeChars_takeChars (m n : ℕ) (s : String) : takeChars m (takeChars n s) = takeChars (min m n) s := by
  simp only [takeChars, String.toList_ofList, List.take_take]

theorem truncateValue_truncateValue (m n : ℕ) : truncateValue m ∘ truncateValue n = truncateValue (min m n) := by
  funext v
  cases v with
  | utf8 s => exact congrArg Value.utf8 (takeChars_takeChars m n s)
  | _ => rfl

theorem truncateRow_eq {idx : ℕ} (maxChars : ℕ) {row : Row} (hrow : idx < row.length) :
    truncateRow idx maxChars row = .ok (row.modify idx (truncateValue maxChars)) := by
  have hcell : index row idx = .ok row[idx] := by rw [index, List.getElem?_eq_getElem hrow]
  rw [truncateRow, hcell, List.modify_eq_set_get _ hrow]
  change (match row[idx] with
    | .utf8 s => pure (row.set idx (.utf8 (takeChars maxChars s)))
    | _ => pure row : IngestionResult Row) = .ok (row.set idx (truncateValue maxChars row[idx]))
  split
  · next s hs => rw [hs]; rfl
  · next hno =>
    have hsame : truncateValue maxChars row[idx] = row[idx] := by
      unfold truncateValue
      split
      · next s hs => exact absurd hs (hno s)
      · rfl
    rw [hsame, List.set_getElem_self]
    rfl

theorem truncatedRow_modify (idx maxChars : ℕ) (row : Row) :
    TruncatedRow idx maxChars row (row.modify idx (truncateValue maxChars)) := by
  constructor
  · intro s hs
    rw [List.getElem?_modify_eq, hs]
    rfl
  · intro hnull
    rw [List.getElem?_modify_eq, hnull]
    rfl
  · exact fun j hj => List.getElem?_modify_ne _ _ hj.symm

/-- the filter keeps a row that is cut -/
theorem keepsRow_modify {schema : Schema} {column : String} {idx maxChars limit : ℕ} (h : TextColumn schema column idx)
    {row : Row} (hrow : row.Conforms schema) (hlimit : maxChars ≤ limit) :
    keepsRow idx limit (row.modify idx (truncateValue maxChars)) = true := by
  obtain ⟨field, hfield, htext⟩ := h.text
  obtain ⟨hidx, rfl⟩ := List.getElem?_eq_some_iff.1 hfield
  obtain ⟨v, hv, hfits⟩ := hrow.cell hidx
  rw [htext] at hfits
  rw [keepsRow, List.getElem?_modify_eq, hv]
  cases v with
  | null => rfl
  | utf8 s =>
    have hlength : (takeChars maxChars s).toList.length ≤ limit := by
      rw [takeChars, String.toList_ofList, List.length_take]
      omega
    exact decide_eq_true hlength
  | _ => rcases hfits with hnull | htype <;> contradiction

/-! ## The step -/

/-- the dataset with the texts of a column cut -/
def truncated (idx maxChars : ℕ) (ds : DataSet) : DataSet :=
  ⟨ds.schema, ds.rows.map fun row => row.modify idx (truncateValue maxChars)⟩

theorem utf8TruncateDataset_eq {ds : DataSet} {column : String} {idx : ℕ} (h : TextColumn ds.schema column idx)
    (hrows : ∀ row ∈ ds.rows, idx < row.length) (maxChars : ℕ) :
    utf8TruncateDataset column maxChars ds = (truncated idx maxChars ds, .ok ()) := by
  rw [utf8TruncateDataset, utf8FieldIndex_iff.2 h]
  dsimp only
  rw [Attempt.eachMut_eq fun row hrow => truncateRow_eq maxChars (hrows row hrow), truncated]

theorem truncated_truncated (idx m n : ℕ) (ds : DataSet) :
    truncated idx m (truncated idx n ds) = truncated idx (min m n) ds := by
  rw [truncated, truncated, truncated, List.map_map]
  congr 1
  apply List.map_congr_left
  intro row _
  rw [Function.comp_apply, List.modify_modify_eq, truncateValue_truncateValue]

theorem utf8TruncateDataset_error {ds : DataSet} {column : String} {e : Fault} (h : utf8FieldIndex ds column = .error e)
    (maxChars : ℕ) : utf8TruncateDataset column maxChars ds = (ds, .error e) := by
  rw [utf8TruncateDataset, h]

theorem TextColumn.lt_length {schema : Schema} {column : String} {idx : ℕ} (h : TextColumn schema column idx) {row : Row}
    (hrow : row.Conforms schema) : idx < row.length := by
  rw [hrow.length]
  exact (Schema.indexOf_some h.found).1

section Typed

variable {ds : DataSet} (htyped : ds.Conforms ds.schema) {column : String}
include htyped

theorem utf8TruncateDataset_typed {idx : ℕ} (h : TextColumn ds.schema column idx) (maxChars : ℕ) :
    utf8TruncateDataset column maxChars ds = (truncated idx maxChars ds, .ok ()) :=
  utf8TruncateDataset_eq h (fun row hrow => h.lt_length (htyped.rows row hrow)) maxChars

theorem utf8TruncateDataset_bind (m n : ℕ) :
    (utf8TruncateDataset column n >>= fun _ => utf8TruncateDataset column m) ds =
      utf8TruncateDataset column (min m n) ds := by
  cases hcolumn : utf8FieldIndex ds column with
  | error e => rw [Attempt.bind_of_error (utf8TruncateDataset_error hcolumn n), utf8TruncateDataset_error hcolumn]
  | ok idx =>
    have h := utf8FieldIndex_iff.1 hcolumn
    have hrows : ∀ row ∈ (truncated idx n ds).rows, idx < row.length := by
      rw [truncated, List.forall_mem_map]
      intro row hrow
      rw [List.length_modify]
      exact h.lt_length (htyped.rows row hrow)
    rw [Attempt.bind_ok (utf8TruncateDataset_typed htyped h n), utf8TruncateDataset_typed htyped h,
      @utf8TruncateDataset_eq (truncated idx n ds) column idx h hrows, truncated_truncated]

theorem filterRows_truncated {idx maxChars limit : ℕ} (h : TextColumn ds.schema column idx) (hlimit : maxChars ≤ limit) :
    filterRowsMaxUtf8Chars (truncated idx maxChars ds) column limit = .ok (truncated idx maxChars ds) := by
  rw [@filterRows_eq (truncated idx maxChars ds) column idx h, List.filter_eq_self.2]
  rw [truncated, List.forall_mem_map]
  exact fun row hrow => keepsRow_modify h (htyped.rows row hrow) hlimit

theorem utf8TruncateDataset_unchanged {maxChars : ℕ} {ds' : DataSet} {e : Fault}
    (he : utf8TruncateDataset column maxChars ds = (ds', .error e)) : ds' = ds := by
  cases hcolumn : utf8FieldIndex ds column with
  | error e' =>
    rw [utf8TruncateDataset_error hcolumn] at he
    exact (Prod.mk.inj he).1.symm
  | ok idx =>
    rw [utf8TruncateDataset_typed htyped (utf8FieldIndex_iff.1 hcolumn)] at he
    cases (Prod.mk.inj he).2

end Typed

/-- **Laws of truncation**: two steps are one, with the smaller limit. A step on a column of texts cuts these, and keeps the
nulls, the other cells and the order of the rows, and the filter then drops no row. On an error nothing is changed -/
theorem truncation_laws (ds : DataSet) (htyped : ds.Conforms ds.schema) (column : String) (m n : ℕ) :
    (utf8TruncateDataset column n >>= fun _ => utf8TruncateDataset column m) ds =
      utf8TruncateDataset column (min m n) ds ∧
    (∀ idx, TextColumn ds.schema column idx → ∃ ds', utf8TruncateDataset column n ds = (ds', .ok ()) ∧
      ds'.schema = ds.schema ∧ List.Forall₂ (TruncatedRow idx n) ds.rows ds'.rows ∧
      ∀ limit, n ≤ limit → filterRowsMaxUtf8Chars ds' column limit = .ok ds') ∧
    ∀ ds' e, utf8TruncateDataset column n ds = (ds', .error e) → ds' = ds := by
  refine ⟨utf8TruncateDataset_bind htyped m n, fun idx h => ?_, fun ds' e => utf8TruncateDataset_unchanged htyped⟩
  refine ⟨truncated idx n ds, utf8TruncateDataset_typed htyped h n, rfl, ?_, fun limit => filterRows_truncated htyped h⟩
  rw [truncated, List.forall₂_map_right_iff]
  exact List.forall₂_same.2 fun row _ => truncatedRow_modify idx n row

/-- an accent is one character of two bytes -/
def names : DataSet :=
  ⟨⟨[⟨"id", .int64⟩, ⟨"name", .utf8⟩]⟩, [[.int64 1, .utf8 "Zoé Ann"], [.int64 2, .null], [.int64 3, .utf8 "Bo"]]⟩

def shortNames : DataSet :=
  ⟨⟨[⟨"id", .int64⟩, ⟨"name", .utf8⟩]⟩, [[.int64 1, .utf8 "Zoé"], [.int64 2, .null], [.int64 3, .utf8 "Bo"]]⟩

theorem names_truncated :
    (utf8TruncateDataset "name" 3 >>= fun _ => utf8TruncateDataset "name" 2) names = utf8TruncateDataset "name" 2 names ∧
    utf8TruncateDataset "name" 3 names = (shortNames, .ok ()) ∧
    filterRowsMaxUtf8Chars shortNames "name" 3 = .ok shortNames := by
  have htyped : names.Conforms names.schema := ⟨rfl, by decide⟩
  have hcolumn : TextColumn names.schema "name" 1 := ⟨by decide, ⟨"name", .utf8⟩, rfl, rfl⟩
  obtain ⟨htwice, hstep, -⟩ := truncation_laws names htyped "name" 2 3
  obtain ⟨ds', hds', -, -, hkept⟩ := hstep 1 hcolumn
  have hshort : ds' = shortNames := by
    have hrun : (utf8TruncateDataset "name" 3 names).1 = shortNames := by decide
    rw [← hrun, hds']
  rw [hshort] at hds' hkept
  exact ⟨htwice, hds', hkept 3 le_rfl⟩

end RustDataProcessing.Truncation
