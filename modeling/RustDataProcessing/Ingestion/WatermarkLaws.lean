/-
The algebra of the high-water filter (`src/ingestion/watermark.rs`): filtering commutes with concatenation, two floors
are one floor, and a cell of another type is refused wherever it stands.

- `watermark_filter_laws`: over a column whose cells are null or of its type, and floors of that type:
  - the filter of a concatenation is the concatenation of the filters, so a batch filtered once is the batch filtered
    file by file;
  - two floors one after the other, in either order, keep what the greater floor keeps;
  - a cell that is neither null nor of the type makes the call fail. Where every row has the cell, the failure is an
    error, and it names the first such row.

Floats are compared in the total order of the standard, so the laws cover NaNs and signed zeros.
-/
import Mathlib.Tactic
import RustDataProcessing.Ingestion.WatermarkReport

namespace RustDataProcessing.Ingestion

open HighWater (isAbove)

/-! ## A cell of another type -/

/-- the message of the `expect_` function of a type -/
def expectedMessage : DataType → String
  | .int64 => "expected int64 for watermark column"
  | .float64 => "expected float64 for watermark column"
  | .bool => "expected bool for watermark column"
  | .utf8 => "expected utf8 for watermark column"

theorem rowIsAboveWatermark_mistyped {cell : Value} {dt : DataType} (h : ¬ cell.fits dt) (floor : Value) (row : ℕ)
    (column : String) : rowIsAboveWatermark cell floor dt row column =
      .error (.parseError row column (.value cell) (expectedMessage dt)) := by
  have hn : cell ≠ .null := fun hn => h (Or.inl hn)
  have ht : ¬ cell.hasType dt = true := fun ht => h (Or.inr ht)
  rw [rowIsAboveWatermark, if_neg hn]
  cases dt <;> cases cell <;> first | exact absurd rfl ht | exact absurd rfl hn | rfl

/-- no call passes a cell of another type -/
theorem keepAbove_mistyped {idx : ℕ} {dt : DataType} (floor : Value) (column : String) (userRow : ℕ) {rows : List Row}
    (h : ∃ row ∈ rows, ∃ cell, row[idx]? = some cell ∧ ¬ cell.fits dt) (kept : List Row) :
    keepAbove idx floor dt column userRow rows ≠ .ok kept := by
  induction rows generalizing userRow kept with
  | nil =>
    obtain ⟨row, hrow, -⟩ := h
    simp at hrow
  | cons row rows ih =>
    intro hok
    obtain ⟨cell, hcell, hok⟩ := Traverse.bind_eq_ok hok
    obtain ⟨above, habove, hok⟩ := Traverse.bind_eq_ok hok
    obtain ⟨kept', hkept, -⟩ := Traverse.bind_eq_ok hok
    obtain ⟨bad, hbad, badCell, hbadCell, hmistyped⟩ := h
    rcases List.mem_cons.1 hbad with rfl | hbad
    · rw [index_ok hbadCell] at hcell
      obtain rfl := Except.ok.inj hcell
      rw [rowIsAboveWatermark_mistyped hmistyped] at habove
      cases habove
    · exact ih (userRow + 1) ⟨bad, hbad, badCell, hbadCell, hmistyped⟩ kept' hkept

/-- the first cell of another type is the one that is reported -/
theorem keepAbove_first_mistyped {idx : ℕ} {dt : DataType} {floor : Value} {b : WatermarkKey dt}
    (hb : cellKey dt floor = some b) (column : String) (userRow : ℕ) {pre : List Row} (hpre : ColumnFits idx dt pre)
    {row : Row} {cell : Value} (hcell : row[idx]? = some cell) (h : ¬ cell.fits dt) (post : List Row) :
    keepAbove idx floor dt column userRow (pre ++ row :: post) =
      .error (.parseError (userRow + pre.length) column (.value cell) (expectedMessage dt)) := by
  induction pre generalizing userRow with
  | nil =>
    simp only [List.nil_append, keepAbove, index_ok hcell, bind, Except.bind, rowIsAboveWatermark_mistyped h]
    rfl
  | cons first pre ih =>
    obtain ⟨v, hv, hfits⟩ := hpre first List.mem_cons_self
    have hrest := ih (userRow + 1) fun r hr => hpre r (List.mem_cons_of_mem _ hr)
    simp only [List.cons_append, keepAbove, index_ok hv, bind, Except.bind, rowIsAboveWatermark_ok hfits hb, hrest]
    simp only [List.length_cons, Nat.add_comm pre.length 1, Nat.add_assoc]

/-- the rows before the first one with a cell of another type -/
theorem exists_first_mistyped {idx : ℕ} {dt : DataType} {rows : List Row} (hlen : ∀ row ∈ rows, idx < row.length)
    (h : ∃ row ∈ rows, ∃ cell, row[idx]? = some cell ∧ ¬ cell.fits dt) :
    ∃ pre row post cell, rows = pre ++ row :: post ∧ ColumnFits idx dt pre ∧ row[idx]? = some cell ∧
      ¬ cell.fits dt := by
  induction rows with
  | nil =>
    obtain ⟨row, hrow, -⟩ := h
    simp at hrow
  | cons row rows ih =>
    obtain ⟨cell, hcell⟩ : ∃ cell, row[idx]? = some cell := ⟨_, List.getElem?_eq_getElem (hlen row List.mem_cons_self)⟩
    by_cases hfits : cell.fits dt
    · have hlater : ∃ row ∈ rows, ∃ cell, row[idx]? = some cell ∧ ¬ cell.fits dt := by
        obtain ⟨bad, hbad, badCell, hbadCell, hmistyped⟩ := h
        rcases List.mem_cons.1 hbad with rfl | hbad
        · rw [hcell] at hbadCell
          obtain rfl := Option.some.inj hbadCell
          exact absurd hfits hmistyped
        · exact ⟨bad, hbad, badCell, hbadCell, hmistyped⟩
      obtain ⟨pre, bad, post, badCell, hrows, hpre, hbad⟩ :=
        ih (fun r hr => hlen r (List.mem_cons_of_mem _ hr)) hlater
      refine ⟨row :: pre, bad, post, badCell, by rw [hrows]; rfl, ?_, hbad⟩
      intro r hr
      rcases List.mem_cons.1 hr with rfl | hr
      · exact ⟨_, hcell, hfits⟩
      · exact hpre r hr
    · exact ⟨[], row, rows, cell, rfl, by simp [ColumnFits], hcell, hfits⟩

/-! ## The laws -/

/-- the greater of two floors, in the order the cells are compared in -/
def greaterFloor (dt : DataType) (f g : Value) : Value :=
  match cellKey dt f, cellKey dt g with
  | some a, some b => if a ≤ b then g else f
  | _, _ => f

theorem cellKey_greaterFloor {dt : DataType} {f g : Value} {a b : WatermarkKey dt} (ha : cellKey dt f = some a)
    (hb : cellKey dt g = some b) : cellKey dt (greaterFloor dt f g) = some (max a b) := by
  simp only [greaterFloor, ha, hb, max_def]
  split_ifs
  · exact hb
  · exact ha

/-- two floors in a row are the greater one -/
theorem filter_above_above {idx : ℕ} {dt : DataType} (a b : WatermarkKey dt) (rows : List Row) :
    (rows.filter fun row => isAbove a (rowKey idx dt row)).filter (fun row => isAbove b (rowKey idx dt row)) =
      rows.filter fun row => isAbove (max a b) (rowKey idx dt row) := by
  rw [List.filter_filter]
  refine List.filter_congr fun row _ => ?_
  rw [Bool.eq_iff_iff, Bool.and_eq_true, HighWater.isAbove_iff, HighWater.isAbove_iff, HighWater.isAbove_iff]
  constructor
  · rintro ⟨⟨k, hk, hb⟩, ⟨k', hk', ha⟩⟩
    rw [hk] at hk'
    obtain rfl := Option.some.inj hk'
    exact ⟨k, hk, max_lt ha hb⟩
  · rintro ⟨k, hk, hlt⟩
    exact ⟨⟨k, hk, (le_max_right a b).trans_lt hlt⟩, ⟨k, hk, (le_max_left a b).trans_lt hlt⟩⟩

/-- what the filter satisfies over a column `column` of type `dt` at position `idx`, with floors `f` and `g` -/
structure FilterLaws (schema : Schema) (column : String) (idx : ℕ) (dt : DataType) (f g : Value) : Prop where
  /-- concatenation -/
  append : ∀ a b : DataSet, a.schema = b.schema → ColumnFits idx dt a.rows → ColumnFits idx dt b.rows →
    ∃ keptA keptB, applyWatermarkFilter a schema column f = .ok ⟨a.schema, keptA⟩ ∧
      applyWatermarkFilter b schema column f = .ok ⟨b.schema, keptB⟩ ∧
      applyWatermarkFilter ⟨a.schema, a.rows ++ b.rows⟩ schema column f = .ok ⟨a.schema, keptA ++ keptB⟩
  /-- a batch of files -/
  batch : ∀ (s : Schema) (files : List DataSet), (∀ file ∈ files, file.schema = s ∧ ColumnFits idx dt file.rows) →
    ∃ kept : List DataSet, files.mapM (fun file => applyWatermarkFilter file schema column f) = .ok kept ∧
      (∀ file ∈ kept, file.schema = s) ∧
      applyWatermarkFilter ⟨s, (files.map DataSet.rows).flatten⟩ schema column f =
        .ok ⟨s, (kept.map DataSet.rows).flatten⟩
  /-- one floor and then another -/
  compose : ∀ a : DataSet, ColumnFits idx dt a.rows →
    ∃ kept, applyWatermarkFilter a schema column (greaterFloor dt f g) = .ok kept ∧
      (do applyWatermarkFilter (← applyWatermarkFilter a schema column f) schema column g) = .ok kept ∧
      (do applyWatermarkFilter (← applyWatermarkFilter a schema column g) schema column f) = .ok kept
  /-- a cell of another type -/
  refuse : ∀ a : DataSet, (∃ row ∈ a.rows, ∃ cell, row[idx]? = some cell ∧ ¬ cell.fits dt) →
    (∀ kept, applyWatermarkFilter a schema column f ≠ .ok kept) ∧
    ((∀ row ∈ a.rows, idx < row.length) → ∃ pre row post cell, a.rows = pre ++ row :: post ∧ ColumnFits idx dt pre ∧
      row[idx]? = some cell ∧ ¬ cell.fits dt ∧ applyWatermarkFilter a schema column f =
        .error (.parseError (pre.length + 1) column (.value cell) (expectedMessage dt)))

section

variable {schema : Schema} {column : String} {idx : ℕ} {field : Field} (hcol : schema.indexOf column = some idx)
  (hfield : schema.fields[idx]? = some field)

include hcol hfield

theorem applyWatermarkFilter_eq (ds : DataSet) (floor : Value) : applyWatermarkFilter ds schema column floor =
    (keepAbove idx floor field.dataType column 1 ds.rows).map fun kept => ⟨ds.schema, kept⟩ := by
  simp only [applyWatermarkFilter, hcol, index_ok hfield]
  rfl

theorem applyWatermarkFilter_ok {floor : Value} {b : WatermarkKey field.dataType}
    (hb : cellKey field.dataType floor = some b) {ds : DataSet} (h : ColumnFits idx field.dataType ds.rows) :
    applyWatermarkFilter ds schema column floor =
      .ok ⟨ds.schema, ds.rows.filter fun row => isAbove b (rowKey idx field.dataType row)⟩ := by
  rw [applyWatermarkFilter_eq hcol hfield, keepAbove_ok hb column 1 h]
  rfl

/-- the files filtered one by one, and their rows filtered at once -/
theorem applyWatermarkFilter_batch {floor : Value} {b : WatermarkKey field.dataType}
    (hb : cellKey field.dataType floor = some b) {s : Schema} {files : List DataSet}
    (h : ∀ file ∈ files, file.schema = s ∧ ColumnFits idx field.dataType file.rows) :
    ∃ kept : List DataSet, files.mapM (fun file => applyWatermarkFilter file schema column floor) = .ok kept ∧
      (∀ file ∈ kept, file.schema = s) ∧
      applyWatermarkFilter ⟨s, (files.map DataSet.rows).flatten⟩ schema column floor =
        .ok ⟨s, (kept.map DataSet.rows).flatten⟩ := by
  let keep (rows : List Row) : List Row := rows.filter fun row => isAbove b (rowKey idx field.dataType row)
  have hall : ColumnFits idx field.dataType (files.map DataSet.rows).flatten := by
    intro row hrow
    obtain ⟨rows, hrows, hrow⟩ := List.mem_flatten.1 hrow
    obtain ⟨file, hfile, rfl⟩ := List.mem_map.1 hrows
    exact (h file hfile).2 row hrow
  refine ⟨files.map fun file => ⟨s, keep file.rows⟩, ?_, ?_, ?_⟩
  · apply Traverse.mapM_ok
    rw [List.forall₂_map_right_iff, List.forall₂_same]
    intro file hfile
    rw [applyWatermarkFilter_ok hcol hfield hb (h file hfile).2, (h file hfile).1]
  · intro file hfile
    obtain ⟨_, -, rfl⟩ := List.mem_map.1 hfile
    rfl
  · rw [applyWatermarkFilter_ok hcol hfield hb hall, List.filter_flatten, List.map_map, List.map_map]
    rfl

/-- one floor after another keeps what is above the greater key -/
theorem applyWatermarkFilter_twice {f g : Value} {a b : WatermarkKey field.dataType}
    (ha : cellKey field.dataType f = some a) (hb : cellKey field.dataType g = some b) {ds : DataSet}
    (h : ColumnFits idx field.dataType ds.rows) :
    (do applyWatermarkFilter (← applyWatermarkFilter ds schema column f) schema column g) =
      .ok ⟨ds.schema, ds.rows.filter fun row => isAbove (max a b) (rowKey idx field.dataType row)⟩ := by
  have hkept := h.filter fun row => isAbove a (rowKey idx field.dataType row)
  have hsecond := @applyWatermarkFilter_ok _ _ _ _ hcol hfield _ _ hb ⟨ds.schema, _⟩ hkept
  simp only [applyWatermarkFilter_ok hcol hfield ha h, bind, Except.bind]
  rw [hsecond, filter_above_above]

/-- **The watermark filter** commutes with concatenation, composes to the greater floor, and refuses a cell of another
type -/
theorem watermark_filter_laws {f g : Value} (hf : f.hasType field.dataType = true) (hg : g.hasType field.dataType = true) :
    FilterLaws schema column idx field.dataType f g := by
  obtain ⟨a, ha⟩ := Option.isSome_iff_exists.1 ((cellKey_isSome field.dataType f).trans hf)
  obtain ⟨b, hb⟩ := Option.isSome_iff_exists.1 ((cellKey_isSome field.dataType g).trans hg)
  refine ⟨?_, fun s files h => applyWatermarkFilter_batch hcol hfield ha h, ?_, ?_⟩
  · intro x y hxy hx hy
    have happ : ColumnFits idx field.dataType (x.rows ++ y.rows) := by
      intro row hrow
      rcases List.mem_append.1 hrow with hrow | hrow
      · exact hx row hrow
      · exact hy row hrow
    refine ⟨_, _, applyWatermarkFilter_ok hcol hfield ha hx, applyWatermarkFilter_ok hcol hfield ha hy, ?_⟩
    rw [applyWatermarkFilter_ok hcol hfield ha happ, List.filter_append]
  · intro x hx
    refine ⟨_, applyWatermarkFilter_ok hcol hfield (cellKey_greaterFloor ha hb) hx,
      applyWatermarkFilter_twice hcol hfield ha hb hx, ?_⟩
    rw [applyWatermarkFilter_twice hcol hfield hb ha hx, max_comm]
  · intro x hbad
    refine ⟨?_, ?_⟩
    · intro kept hok
      rw [applyWatermarkFilter_eq hcol hfield] at hok
      cases hk : keepAbove idx f field.dataType column 1 x.rows with
      | error e => rw [hk] at hok; cases hok
      | ok rows => exact keepAbove_mistyped f column 1 hbad rows hk
    · intro hlen
      obtain ⟨pre, row, post, cell, hrows, hpre, hcell, hmistyped⟩ := exists_first_mistyped hlen hbad
      refine ⟨pre, row, post, cell, hrows, hpre, hcell, hmistyped, ?_⟩
      rw [applyWatermarkFilter_eq hcol hfield, hrows, keepAbove_first_mistyped ha column 1 hpre hcell hmistyped post,
        Nat.add_comm]
      rfl

end

/-- the laws of a column of floats, with the floors 0.0 and infinity -/
theorem score_filter_laws : FilterLaws scoreSchema "score" 0 .float64 zeroScore infiniteScore :=
  @watermark_filter_laws scoreSchema "score" 0 ⟨"score", .float64⟩ rfl rfl _ _ rfl rfl

end RustDataProcessing.Ingestion
