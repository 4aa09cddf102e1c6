/-
The watermark reported of a filtered dataset, as the floor of the next run (`src/ingestion/watermark.rs`).

The filter compares floats in the total order, where an infinity and a NaN have a place; the maximum ignores both.

- `reported_watermark_covers`: the maximum of what was kept is above the floor and covers every kept cell that is neither
  an infinity nor a NaN. The next run delivers of the kept rows those at a positive infinity or a positive NaN, and no
  other. Where every kept cell is an infinity or a NaN, there is no maximum.
- `infinite_watermark_unreported`: an infinity is kept, and no maximum is reported.

Of the dataset, only the watermark column is looked at.
-/
import Mathlib.Tactic
import RustDataProcessing.Ingestion.Watermark

namespace RustDataProcessing.Ingestion

open HighWater (isAbove)

/-! ## Cells without a finite value -/

/-- an infinity or a NaN -/
def isNonFinite : Value → Bool
  | .float64 f => !f.isFinite
  | _ => false

/-- an infinity or a NaN on the positive side -/
def isUnbounded : Value → Bool
  | .float64 f => !f.isFinite && !f.isNegative
  | _ => false

/-- does the watermark cell of the row satisfy the predicate? -/
def cellIs (p : Value → Bool) (idx : ℕ) (row : Row) : Bool := row[idx]?.any p

/-- a cell with a key is passed over by the maximum when it is not finite -/
theorem skippedInMax_eq {dt : DataType} {cell : Value} {a : WatermarkKey dt} (h : cellKey dt cell = some a) :
    skippedInMax dt cell = isNonFinite cell := by
  cases dt <;> cases cell <;> cases h <;> simp [skippedInMax, isNonFinite]

theorem countedKey_of_finite {dt : DataType} {cell : Value} {a : WatermarkKey dt} (h : cellKey dt cell = some a)
    (hfinite : isNonFinite cell = false) : countedKey dt cell = some a := by
  rw [countedKey, skippedInMax_eq h, hfinite, if_neg Bool.false_ne_true, h]

theorem finite_of_countedKey {dt : DataType} {cell : Value} {a : WatermarkKey dt} (h : countedKey dt cell = some a) :
    isNonFinite cell = false := by
  rw [← skippedInMax_eq (cellKey_of_countedKey h)]
  unfold countedKey at h
  split_ifs at h with hskip
  exact Bool.not_eq_true _ ▸ hskip

/-- an infinity or a NaN is above every finite cell, or below, by its sign -/
theorem lt_nonFinite_iff {dt : DataType} {v cell : Value} {k a : WatermarkKey dt} (hv : countedKey dt v = some k)
    (hcell : cellKey dt cell = some a) (h : isNonFinite cell = true) : k < a ↔ isUnbounded cell = true := by
  have hfinite := finite_of_countedKey hv
  have hkey := cellKey_of_countedKey hv
  cases cell with
  | float64 y =>
    cases dt with
    | float64 =>
      cases v with
      | float64 x =>
        have hx : x.isFinite = true := by simpa [isNonFinite] using hfinite
        have hy : y.isFinite = false := by simpa [isNonFinite] using h
        have hside := Binary64.totalKey_of_not_finite hx hy
        obtain rfl := Option.some.inj hkey
        obtain rfl := Option.some.inj hcell
        change x.totalKey < y.totalKey ↔ _
        cases hneg : y.isNegative with
        | false =>
          simp only [hneg, Bool.false_eq_true, if_false] at hside
          simp [isUnbounded, hy, hneg, hside]
        | true =>
          simp only [hneg, if_true] at hside
          simp [isUnbounded, hneg, hside.le]
      | _ => cases hkey
    | _ => cases hcell
  | _ => cases h

/-! ## The next run -/

/-- the maximum is above the floor, and covers what was kept, infinities and NaNs apart -/
structure Covers (idx : ℕ) (dt : DataType) (floor : Value) (kept : List Row) (m : Value) : Prop where
  hasType : m.hasType dt = true
  finite : isNonFinite m = false
  above : ∀ n column, rowIsAboveWatermark m floor dt n column = .ok true
  covered : ∀ row ∈ kept, ∀ cell, row[idx]? = some cell → isNonFinite cell = false →
    ∀ n column, rowIsAboveWatermark cell m dt n column = .ok false

section Report

variable {idx : ℕ} {dt : DataType} {floor : Value} {b : WatermarkKey dt} {rows : List Row}

theorem ColumnFits.filter (h : ColumnFits idx dt rows) (p : Row → Bool) : ColumnFits idx dt (rows.filter p) :=
  fun row hrow => h row (List.mem_of_mem_filter hrow)

/-- a kept row has a key above the floor -/
theorem kept_key {row : Row} (hrow : row ∈ rows.filter fun row => isAbove b (rowKey idx dt row)) :
    ∃ cell a, row[idx]? = some cell ∧ cellKey dt cell = some a ∧ b < a := by
  obtain ⟨a, ha, hlt⟩ := HighWater.isAbove_iff.1 (List.mem_filter.1 hrow).2
  obtain ⟨cell, hcell, hkey⟩ := Option.bind_eq_some_iff.1 ha
  exact ⟨cell, a, hcell, hkey, hlt⟩

/-- nothing that counts was kept: there is no maximum -/
theorem maxLoop_none (hfits : ColumnFits idx dt rows) (h : ∀ row ∈ rows, rowCounted idx dt row = none) :
    maxLoop idx dt none rows = .ok none := by
  obtain ⟨r, hloop, hcounted, hmax⟩ := maxLoop_ok hfits none (by simp)
  have hnil : rows.filterMap (rowCounted idx dt) = [] := List.filterMap_eq_nil_iff.2 h
  rw [hnil] at hmax
  cases r with
  | none => exact hloop
  | some m =>
    have hm := hcounted m rfl
    rw [Option.bind_some, Option.bind_none] at hmax
    rw [hmax] at hm
    cases hm

/-- something that counts was kept: the maximum is the greatest key of what counts -/
theorem maxLoop_some (hfits : ColumnFits idx dt rows) {row : Row} (hrow : row ∈ rows)
    (h : (rowCounted idx dt row).isSome = true) :
    ∃ m k, maxLoop idx dt none rows = .ok (some m) ∧ countedKey dt m = some k ∧
      (∃ row ∈ rows, rowCounted idx dt row = some k) ∧
      ∀ row ∈ rows, ∀ a, rowCounted idx dt row = some a → a ≤ k := by
  obtain ⟨r, hloop, -, hmax⟩ := maxLoop_ok hfits none (by simp)
  obtain ⟨a, ha⟩ := Option.isSome_iff_exists.1 h
  rw [Option.bind_none, Option.toList_none, List.nil_append] at hmax
  cases hk : (rows.filterMap (rowCounted idx dt)).max? with
  | none =>
    have hnil := List.filterMap_eq_nil_iff.1 (List.max?_eq_none_iff.1 hk) row hrow
    rw [ha] at hnil
    cases hnil
  | some k =>
    rw [hk] at hmax
    obtain ⟨m, rfl, hm⟩ := Option.bind_eq_some_iff.1 hmax
    obtain ⟨hmem, hle⟩ := List.max?_eq_some_iff.1 hk
    obtain ⟨top, htop, htopk⟩ := List.mem_filterMap.1 hmem
    refine ⟨m, k, hloop, hm, ⟨top, htop, htopk⟩, ?_⟩
    intro row hrow a ha
    exact hle a (List.mem_filterMap.2 ⟨row, hrow, ha⟩)

/-- the greatest key of what counts is the key of a kept row, and no cell that counts is above it -/
theorem covers_of_max (hb : cellKey dt floor = some b) {m : Value} {k : WatermarkKey dt} (hm : countedKey dt m = some k)
    {top : Row} (htop : top ∈ rows.filter fun row => isAbove b (rowKey idx dt row)) (htopk : rowCounted idx dt top = some k)
    (hle : ∀ row ∈ rows.filter (fun row => isAbove b (rowKey idx dt row)), ∀ a, rowCounted idx dt row = some a → a ≤ k) :
    Covers idx dt floor (rows.filter fun row => isAbove b (rowKey idx dt row)) m := by
  have hmkey := cellKey_of_countedKey hm
  have hmtype : m.hasType dt = true := by rw [← cellKey_isSome, hmkey]; rfl
  refine ⟨hmtype, finite_of_countedKey hm, ?_, ?_⟩
  · intro n column
    obtain ⟨cell, a, hcell, hkey, hlt⟩ := kept_key htop
    rw [rowCounted, hcell, Option.bind_some] at htopk
    rw [cellKey_of_countedKey htopk] at hkey
    obtain rfl := Option.some.inj hkey
    rw [rowIsAboveWatermark_ok (Or.inr hmtype) hb, hmkey]
    exact congrArg Except.ok (decide_eq_true hlt)
  · intro row hrow cell hcell hcellFinite n column
    obtain ⟨cell', a, hcell', hkey, -⟩ := kept_key hrow
    obtain rfl := Option.some.inj (hcell.symm.trans hcell')
    have hfitsCell : cell.fits dt := Or.inr (by rw [← cellKey_isSome, hkey]; rfl)
    have hrowCounted : rowCounted idx dt row = some a := by
      rw [rowCounted, hcell, Option.bind_some, countedKey_of_finite hkey hcellFinite]
    rw [rowIsAboveWatermark_ok hfitsCell hmkey, hkey]
    exact congrArg Except.ok (decide_eq_false (not_lt.2 (hle row hrow a hrowCounted)))

end Report

/-- of the kept rows, the next run delivers those at a positive infinity or NaN -/
theorem next_run_eq {idx : ℕ} {dt : DataType} {b k : WatermarkKey dt} {rows : List Row} {m : Value}
    (hm : countedKey dt m = some k)
    (hle : ∀ row ∈ rows.filter (fun row => isAbove b (rowKey idx dt row)), ∀ a, rowCounted idx dt row = some a → a ≤ k) :
    (rows.filter fun row => isAbove b (rowKey idx dt row)).filter (fun row => isAbove k (rowKey idx dt row)) =
      (rows.filter fun row => isAbove b (rowKey idx dt row)).filter (cellIs isUnbounded idx) := by
  apply List.filter_congr
  intro row hrow
  obtain ⟨cell, a, hcell, hkey, -⟩ := kept_key hrow
  have hrowKey : rowKey idx dt row = some a := by rw [rowKey, hcell, Option.bind_some, hkey]
  have hcellIs : cellIs isUnbounded idx row = isUnbounded cell := by simp [cellIs, hcell]
  rw [hrowKey, hcellIs]
  cases hfinite : isNonFinite cell with
  | true =>
    have hside := lt_nonFinite_iff hm hkey hfinite
    rw [Bool.eq_iff_iff, ← hside]
    simp [isAbove]
  | false =>
    have hcounted : rowCounted idx dt row = some a := by
      rw [rowCounted, hcell, Option.bind_some, countedKey_of_finite hkey hfinite]
    have hbounded : isUnbounded cell = false := by
      cases cell with
      | float64 y =>
        have hy : y.isFinite = true := by simpa [isNonFinite] using hfinite
        simp [isUnbounded, hy]
      | _ => rfl
    rw [hbounded]
    exact decide_eq_false (not_lt.2 (hle row hrow a hcounted))

/-- **The reported watermark** covers what was kept, infinities and NaNs apart -/
theorem reported_watermark_covers {schema : Schema} {column : String} {idx : ℕ} (hcol : schema.indexOf column = some idx)
    (hi : idx < schema.fields.length) {ds : DataSet} (hfits : ColumnFits idx schema.fields[idx].dataType ds.rows)
    {floor : Value} (hfloor : floor.hasType schema.fields[idx].dataType = true) :
    ∃ retained, applyWatermarkFilter ds schema column floor = .ok retained ∧
      ((∀ row ∈ retained.rows, cellIs isNonFinite idx row = true) → maxValueInColumn retained schema column = .ok none) ∧
      ((∃ row ∈ retained.rows, cellIs isNonFinite idx row = false) →
        ∃ m, maxValueInColumn retained schema column = .ok (some m) ∧
          Covers idx schema.fields[idx].dataType floor retained.rows m ∧
          applyWatermarkFilter retained schema column m =
            .ok ⟨retained.schema, retained.rows.filter (cellIs isUnbounded idx)⟩) := by
  obtain ⟨b, hb⟩ := Option.isSome_iff_exists.1 ((cellKey_isSome _ floor).trans hfloor)
  have hfilter : ∀ {rows : List Row}, ColumnFits idx schema.fields[idx].dataType rows → ∀ (sch : Schema) {v : Value}
      {k : WatermarkKey schema.fields[idx].dataType}, cellKey schema.fields[idx].dataType v = some k →
      applyWatermarkFilter ⟨sch, rows⟩ schema column v =
        .ok ⟨sch, rows.filter fun row => isAbove k (rowKey idx schema.fields[idx].dataType row)⟩ := by
    intro rows hrows sch v k hk
    simp only [applyWatermarkFilter, hcol, index_fields hi, bind, Except.bind, pure, Except.pure,
      keepAbove_ok hk column 1 hrows]
  have hmax : ∀ (sch : Schema) (rows : List Row), maxValueInColumn ⟨sch, rows⟩ schema column =
      maxLoop idx schema.fields[idx].dataType none rows := by
    intro sch rows
    simp only [maxValueInColumn, hcol, index_fields hi, bind, Except.bind]
  have hkept := hfits.filter fun row => isAbove b (rowKey idx schema.fields[idx].dataType row)
  refine ⟨_, hfilter hfits ds.schema hb, ?_, ?_⟩
  · intro hnone
    rw [hmax]
    refine maxLoop_none hkept fun row hrow => ?_
    obtain ⟨cell, a, hcell, hkey, -⟩ := kept_key hrow
    have hnonFinite : isNonFinite cell = true := by simpa [cellIs, hcell] using hnone row hrow
    rw [rowCounted, hcell, Option.bind_some, countedKey, skippedInMax_eq hkey, hnonFinite, if_pos rfl]
  · rintro ⟨row, hrow, hfinite⟩
    have hcounted : (rowCounted idx schema.fields[idx].dataType row).isSome = true := by
      obtain ⟨cell, a, hcell, hkey, -⟩ := kept_key hrow
      have hcellFinite : isNonFinite cell = false := by simpa [cellIs, hcell] using hfinite
      rw [rowCounted, hcell, Option.bind_some, countedKey_of_finite hkey hcellFinite]
      rfl
    obtain ⟨m, k, hloop, hm, ⟨top, htop, htopk⟩, hle⟩ := maxLoop_some hkept hrow hcounted
    refine ⟨m, by rw [hmax, hloop], covers_of_max hb hm htop htopk hle, ?_⟩
    rw [hfilter hkept ds.schema (cellKey_of_countedKey hm), next_run_eq hm hle]

/-! ## A column with an infinity -/

def scoreSchema : Schema := ⟨[⟨"score", .float64⟩]⟩

def zeroScore : Value := .float64 ⟨0⟩

def oneScore : Value := .float64 ⟨0x3FF0000000000000⟩

def infiniteScore : Value := .float64 ⟨0x7FF0000000000000⟩

/-- one is reported, and the next run delivers the infinity again -/
theorem one_is_covered :
    ∃ retained, applyWatermarkFilter ⟨scoreSchema, [[oneScore], [.null], [infiniteScore]]⟩ scoreSchema "score"
        zeroScore = .ok retained ∧
      ((∀ row ∈ retained.rows, cellIs isNonFinite 0 row = true) →
        maxValueInColumn retained scoreSchema "score" = .ok none) ∧
      ((∃ row ∈ retained.rows, cellIs isNonFinite 0 row = false) →
        ∃ m, maxValueInColumn retained scoreSchema "score" = .ok (some m) ∧
          Covers 0 .float64 zeroScore retained.rows m ∧
          applyWatermarkFilter retained scoreSchema "score" m =
            .ok ⟨retained.schema, retained.rows.filter (cellIs isUnbounded 0)⟩) := by
  have hfits : ColumnFits 0 .float64 [[oneScore], [.null], [infiniteScore]] := by
    intro row hrow
    simp only [List.mem_cons, List.not_mem_nil, or_false] at hrow
    rcases hrow with rfl | rfl | rfl
    · exact ⟨_, rfl, Or.inr rfl⟩
    · exact ⟨_, rfl, Or.inl rfl⟩
    · exact ⟨_, rfl, Or.inr rfl⟩
  exact @reported_watermark_covers scoreSchema "score" 0 (by decide) (by decide) ⟨scoreSchema, _⟩ hfits zeroScore rfl

/-- **An infinity** is kept: no maximum is reported of it, and with another row the next run delivers it again -/
theorem infinite_watermark_unreported :
    (applyWatermarkFilter ⟨scoreSchema, [[infiniteScore]]⟩ scoreSchema "score" zeroScore).toOption =
        some ⟨scoreSchema, [[infiniteScore]]⟩ ∧
      (maxValueInColumn ⟨scoreSchema, [[infiniteScore]]⟩ scoreSchema "score").toOption = some none ∧
      (maxValueInColumn ⟨scoreSchema, [[oneScore], [infiniteScore]]⟩ scoreSchema "score").toOption = some (some oneScore) ∧
      (applyWatermarkFilter ⟨scoreSchema, [[oneScore], [infiniteScore]]⟩ scoreSchema "score" oneScore).toOption =
        some ⟨scoreSchema, [[infiniteScore]]⟩ := by
  refine ⟨?_, ?_, ?_, ?_⟩ <;> decide +kernel

end RustDataProcessing.Ingestion
