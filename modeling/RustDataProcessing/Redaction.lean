/-
Text steps of a transformation (`src/transform.rs`): the middle of a cell is replaced.

A cell longer than `keep_left + keep_right` keeps both ends. The sum is one of machine words: a build with overflow
checks panics where it does not fit, another one wraps.

- `hidesMiddle_iff`: every cell comes out as documented, and the step does not panic, exactly when
  - the sum fits, or the column has no text;
  - or, in a build that wraps, no text is longer than the wrapped sum.
- `utf8RedactMiddleDataset_two_runs`: in any case the step says nothing of the middle of the longer cells.
- `short_cell_changed`: where the sum wraps to 0, a cell of three characters gets longer.
-/
import Mathlib.Tactic
import RustDataProcessing.Processing.Reduce

namespace RustDataProcessing.Redaction

open Processing (cells utf8Cell mem_cells_of_cell)
open Traverse (exists_mapM_and_iff mapM_eq_of_forall₂)

/-! ## The source -/

def utf8FieldIndex (ds : DataSet) (column : String) : IngestionResult ℕ :=
  match ds.schema.indexOf column with
  | none => .error (.schemaMismatch s!"unknown column '{column}' for UTF-8 transform")
  | some idx => do
    let field ← index ds.schema.fields idx
    if field.dataType ≠ .utf8 then .error (.schemaMismatch s!"column '{column}' must be Utf8 for this transform")
    else pure idx

/-- `a + b` on `usize` -/
def addUsize (overflowChecks : Bool) (a b : UInt64) : IngestionResult UInt64 :=
  if overflowChecks && decide (2 ^ 64 ≤ a.toNat + b.toNat) then .error .panic else .ok (a + b)

section

variable (overflowChecks : Bool) (keepLeft keepRight : UInt64) (redaction : String)

/-- the body of the loop, for the text of a cell -/
def redactMiddle (s : String) : IngestionResult String := do
  let chs := s.toList
  let n := chs.length
  let kept ← addUsize overflowChecks keepLeft keepRight
  if kept.toNat < n then
    let left := chs.take keepLeft.toNat
    -- `saturating_sub` is the subtraction of natural numbers
    let right := chs.drop (n - keepRight.toNat)
    pure (String.ofList (left ++ redaction.toList ++ right))
  else pure s

def redactRow (idx : ℕ) (row : Row) : IngestionResult Row := do
  match ← index row idx with
  | .utf8 s => do
    let t ← redactMiddle overflowChecks keepLeft keepRight redaction s
    pure (row.set idx (.utf8 t))
  | _ => pure row

def utf8RedactMiddleDataset (ds : DataSet) (column : String) : IngestionResult DataSet := do
  let idx ← utf8FieldIndex ds column
  let rows ← ds.rows.mapM (redactRow overflowChecks keepLeft keepRight redaction idx)
  pure ⟨ds.schema, rows⟩

end

/-! ## What is claimed -/

/-- the ends of a text, with the redaction between them -/
def withRedaction (keepLeft keepRight : ℕ) (redaction s : String) : String :=
  String.ofList (s.toList.take keepLeft ++ redaction.toList ++ s.toList.drop (s.toList.length - keepRight))

/-- the text with its middle replaced, if it is longer than the two ends -/
def hidden (keepLeft keepRight : ℕ) (redaction s : String) : String :=
  if s.toList.length ≤ keepLeft + keepRight then s else withRedaction keepLeft keepRight redaction s

/-- a row before and after the step -/
structure HiddenRow (idx keepLeft keepRight : ℕ) (redaction : String) (row row' : Row) : Prop where
  text : ∀ s, row[idx]? = some (.utf8 s) → row'[idx]? = some (.utf8 (hidden keepLeft keepRight redaction s))
  noText : (∀ s, row[idx]? ≠ some (.utf8 s)) → row'[idx]? = row[idx]?
  others : ∀ j, j ≠ idx → row'[j]? = row[j]?

/-- two longer texts that agree on their ends -/
structure SameEnds (keepLeft keepRight : ℕ) (s t : String) : Prop where
  longer : keepLeft + keepRight < s.toList.length ∧ keepLeft + keepRight < t.toList.length
  left : s.toList.take keepLeft = t.toList.take keepLeft
  right : s.toList.drop (s.toList.length - keepRight) = t.toList.drop (t.toList.length - keepRight)

/-- two rows that are equal, but for a text with the same ends -/
inductive SameOutside (idx keepLeft keepRight : ℕ) (row : Row) : Row → Prop
  | same : SameOutside idx keepLeft keepRight row row
  | text {s t : String} (hcell : row[idx]? = some (.utf8 s)) (hends : SameEnds keepLeft keepRight s t) :
      SameOutside idx keepLeft keepRight row (row.set idx (.utf8 t))

/-- what is claimed of the step: it returns, every cell comes out as it should, and what comes out does not depend on
the middle of the longer cells -/
structure HidesMiddle (overflowChecks : Bool) (keepLeft keepRight : UInt64) (redaction : String) (ds : DataSet)
    (column : String) (idx : ℕ) : Prop where
  hides : ∃ rows, utf8RedactMiddleDataset overflowChecks keepLeft keepRight redaction ds column = .ok ⟨ds.schema, rows⟩ ∧
    List.Forall₂ (HiddenRow idx keepLeft.toNat keepRight.toNat redaction) ds.rows rows
  twoRuns : ∀ rows, List.Forall₂ (SameOutside idx keepLeft.toNat keepRight.toNat) ds.rows rows →
    utf8RedactMiddleDataset overflowChecks keepLeft keepRight redaction ⟨ds.schema, rows⟩ column =
      utf8RedactMiddleDataset overflowChecks keepLeft keepRight redaction ds column

/-- a text for which the sum of the two ends does no harm -/
def SumSafe (overflowChecks : Bool) (keepLeft keepRight : UInt64) (s : String) : Prop :=
  keepLeft.toNat + keepRight.toNat < 2 ^ 64 ∨
    (overflowChecks = false ∧ s.toList.length + 2 ^ 64 ≤ keepLeft.toNat + keepRight.toNat)

instance (overflowChecks : Bool) (keepLeft keepRight : UInt64) (s : String) :
    Decidable (SumSafe overflowChecks keepLeft keepRight s) := inferInstanceAs (Decidable (_ ∨ _ ∧ _))

/-! ## The column -/

theorem utf8FieldIndex_ok {ds : DataSet} {column : String} {idx : ℕ} {field : Field}
    (hidx : ds.schema.indexOf column = some idx) (hfield : ds.schema.fields[idx]? = some field)
    (htext : field.dataType = .utf8) : utf8FieldIndex ds column = .ok idx := by
  unfold utf8FieldIndex index
  simp only [hidx, hfield]
  change (if field.dataType ≠ .utf8 then _ else _) = _
  rw [if_neg (not_not.2 htext)]
  rfl

/-! ## One text -/

section Text

variable {overflowChecks : Bool} {keepLeft keepRight : UInt64} {redaction s : String}

theorem addUsize_fits (h : keepLeft.toNat + keepRight.toNat < 2 ^ 64) :
    addUsize overflowChecks keepLeft keepRight = .ok (keepLeft + keepRight) := by
  rw [addUsize, decide_eq_false (by omega), Bool.and_false, if_neg Bool.false_ne_true]

theorem addUsize_panics (hchecks : overflowChecks = true) (h : 2 ^ 64 ≤ keepLeft.toNat + keepRight.toNat) :
    addUsize overflowChecks keepLeft keepRight = .error .panic := by
  rw [addUsize, hchecks, decide_eq_true h, Bool.and_true, if_pos rfl]

theorem addUsize_wraps (hchecks : overflowChecks = false) :
    addUsize overflowChecks keepLeft keepRight = .ok (keepLeft + keepRight) := by
  rw [addUsize, hchecks, Bool.false_and, if_neg Bool.false_ne_true]

theorem redactMiddle_of_add (h : addUsize overflowChecks keepLeft keepRight = .ok (keepLeft + keepRight)) :
    redactMiddle overflowChecks keepLeft keepRight redaction s =
      .ok (if (keepLeft.toNat + keepRight.toNat) % 2 ^ 64 < s.toList.length
        then withRedaction keepLeft.toNat keepRight.toNat redaction s else s) := by
  unfold redactMiddle
  rw [h, ← UInt64.toNat_add]
  change (if _ then _ else _) = _
  split_ifs <;> rfl

theorem redactMiddle_panics (h : addUsize overflowChecks keepLeft keepRight = .error .panic) :
    redactMiddle overflowChecks keepLeft keepRight redaction s = .error .panic := by
  unfold redactMiddle
  rw [h]
  rfl

/-- where the ends overlap the text gets longer -/
theorem withRedaction_ne {l r : ℕ} (hl : 0 < l) (hr : 0 < r) (hs : 0 < s.toList.length) (h : s.toList.length < l + r) :
    withRedaction l r redaction s ≠ s := by
  intro heq
  have hlength := congrArg (fun t : String => t.toList.length) heq
  simp only [withRedaction, String.toList_ofList, List.length_append, List.length_take, List.length_drop] at hlength
  omega

/-- **One text** comes out as it should exactly where the sum does no harm -/
theorem redactMiddle_hidden_iff (hlength : s.toList.length < 2 ^ 64) :
    redactMiddle overflowChecks keepLeft keepRight redaction s =
        .ok (hidden keepLeft.toNat keepRight.toNat redaction s) ↔
      SumSafe overflowChecks keepLeft keepRight s := by
  have hleft := keepLeft.toNat_lt
  have hright := keepRight.toNat_lt
  rw [SumSafe, hidden]
  rcases Nat.lt_or_ge (keepLeft.toNat + keepRight.toNat) (2 ^ 64) with hfits | hover
  · rw [redactMiddle_of_add (addUsize_fits hfits), Nat.mod_eq_of_lt hfits]
    refine iff_of_true ?_ (Or.inl hfits)
    split_ifs with hlong hshort
    · omega
    · rfl
    · rfl
    · omega
  · rcases hchecks : overflowChecks with - | -
    · -- the build wraps, and no text is longer than the true sum
      have hwrapped : (keepLeft.toNat + keepRight.toNat) % 2 ^ 64 = keepLeft.toNat + keepRight.toNat - 2 ^ 64 := by
        omega
      rw [redactMiddle_of_add (addUsize_wraps rfl), hwrapped, if_pos (show _ ≤ _ by omega), Except.ok.injEq]
      split_ifs with hlong
      · exact iff_of_false (withRedaction_ne (by omega) (by omega) (by omega) (by omega)) (by omega)
      · exact iff_of_true rfl (Or.inr ⟨rfl, by omega⟩)
    · rw [redactMiddle_panics (addUsize_panics rfl hover)]
      refine iff_of_false (fun h => by cases h) ?_
      rintro (hfits | ⟨hwraps, -⟩)
      · omega
      · cases hwraps

/-- **Two texts** with the same ends -/
theorem redactMiddle_sameEnds {t : String} (h : SameEnds keepLeft.toNat keepRight.toNat s t) :
    redactMiddle overflowChecks keepLeft keepRight redaction t =
      redactMiddle overflowChecks keepLeft keepRight redaction s := by
  have hmod := Nat.mod_le (keepLeft.toNat + keepRight.toNat) (2 ^ 64)
  have hlonger := h.longer
  have hboth : withRedaction keepLeft.toNat keepRight.toNat redaction t =
      withRedaction keepLeft.toNat keepRight.toNat redaction s := by
    rw [withRedaction, withRedaction, h.left, h.right]
  rcases hadd : addUsize overflowChecks keepLeft keepRight with fault | sum
  · unfold redactMiddle
    rw [hadd]
    rfl
  · have hsum : sum = keepLeft + keepRight := by
      unfold addUsize at hadd
      split_ifs at hadd
      exact (Except.ok.inj hadd).symm
    rw [hsum] at hadd
    rw [redactMiddle_of_add hadd, redactMiddle_of_add hadd, if_pos (by omega), if_pos (by omega), hboth]

end Text

/-! ## The rows -/

section Rows

variable {overflowChecks : Bool} {keepLeft keepRight : UInt64} {redaction : String} {idx : ℕ} {row : Row}

theorem redactRow_text {s : String} (hcell : row[idx]? = some (.utf8 s)) :
    redactRow overflowChecks keepLeft keepRight redaction idx row =
      (redactMiddle overflowChecks keepLeft keepRight redaction s).map fun t => row.set idx (.utf8 t) := by
  unfold redactRow index
  rw [hcell]
  rfl

theorem redactRow_noText {v : Value} (hcell : row[idx]? = some v) (hv : ∀ s, v ≠ .utf8 s) :
    redactRow overflowChecks keepLeft keepRight redaction idx row = .ok row := by
  unfold redactRow index
  rw [hcell]
  rcases v with - | n | x | b | s
  · rfl
  · rfl
  · rfl
  · rfl
  · exact absurd rfl (hv s)

/-- the row with another text -/
theorem hiddenRow_set_iff {s t : String} (hcell : row[idx]? = some (.utf8 s)) :
    HiddenRow idx keepLeft.toNat keepRight.toNat redaction row (row.set idx (.utf8 t)) ↔
      t = hidden keepLeft.toNat keepRight.toNat redaction s := by
  have hlt : idx < row.length := (List.getElem?_eq_some_iff.1 hcell).1
  have hset : (row.set idx (.utf8 t))[idx]? = some (.utf8 t) := List.getElem?_set_self hlt
  constructor
  · intro h
    have htext := h.text s hcell
    rw [hset] at htext
    exact Value.utf8.inj (Option.some.inj htext)
  · rintro rfl
    refine ⟨fun s' hs' => ?_, fun hno => absurd hcell (hno s), fun j hj => List.getElem?_set_ne hj.symm⟩
    rw [hcell] at hs'
    rw [hset, Value.utf8.inj (Option.some.inj hs')]

/-- **One row** comes out as it should exactly where its text does -/
theorem redactRow_hidden_iff (hrow : idx < row.length)
    (hlength : ∀ s, row[idx]? = some (.utf8 s) → s.toList.length < 2 ^ 64) :
    (∃ row', redactRow overflowChecks keepLeft keepRight redaction idx row = .ok row' ∧
        HiddenRow idx keepLeft.toNat keepRight.toNat redaction row row') ↔
      ∀ s, row[idx]? = some (.utf8 s) → SumSafe overflowChecks keepLeft keepRight s := by
  by_cases htext : ∃ s, row[idx]? = some (.utf8 s)
  · obtain ⟨s, hcell⟩ := htext
    have hone : (∀ t, row[idx]? = some (.utf8 t) → SumSafe overflowChecks keepLeft keepRight t) ↔
        SumSafe overflowChecks keepLeft keepRight s := by simp [hcell]
    rw [redactRow_text hcell, hone, ← @redactMiddle_hidden_iff _ _ _ redaction _ (hlength s hcell)]
    rcases redactMiddle overflowChecks keepLeft keepRight redaction s with fault | t
    · simp [Except.map]
    · simp [Except.map, hiddenRow_set_iff hcell]
  · rw [not_exists] at htext
    have hcell : row[idx]? = some row[idx] := List.getElem?_eq_getElem hrow
    refine iff_of_true ⟨row, ?_, ?_⟩ fun s hs => absurd hs (htext s)
    · refine redactRow_noText hcell fun s hs => htext s ?_
      rw [hcell, hs]
    · exact ⟨fun s hs => absurd hs (htext s), fun _ => rfl, fun _ _ => rfl⟩

/-- two rows with the same ends -/
theorem redactRow_sameOutside {row' : Row} (h : SameOutside idx keepLeft.toNat keepRight.toNat row row') :
    redactRow overflowChecks keepLeft keepRight redaction idx row' =
      redactRow overflowChecks keepLeft keepRight redaction idx row := by
  rcases h with - | ⟨hcell, hends⟩
  · rfl
  · have hlt : idx < row.length := (List.getElem?_eq_some_iff.1 hcell).1
    rw [redactRow_text hcell, redactRow_text (List.getElem?_set_self hlt), redactMiddle_sameEnds hends]
    simp only [List.set_set]

end Rows

/-! ## The step -/

section Step

variable {overflowChecks : Bool} {keepLeft keepRight : UInt64} {redaction : String} {ds : DataSet} {column : String}
  {idx : ℕ} {field : Field} (hidx : ds.schema.indexOf column = some idx)
  (hfield : ds.schema.fields[idx]? = some field) (htext : field.dataType = .utf8)
include hidx hfield htext

theorem utf8RedactMiddleDataset_eq (rows : List Row) :
    utf8RedactMiddleDataset overflowChecks keepLeft keepRight redaction ⟨ds.schema, rows⟩ column =
      (rows.mapM (redactRow overflowChecks keepLeft keepRight redaction idx)).map fun rows => ⟨ds.schema, rows⟩ := by
  have hcolumn : utf8FieldIndex ⟨ds.schema, rows⟩ column = .ok idx := utf8FieldIndex_ok hidx hfield htext
  unfold utf8RedactMiddleDataset
  rw [hcolumn]
  rfl

/-- **Two runs**: the result does not depend on the middle of the longer cells -/
theorem utf8RedactMiddleDataset_two_runs {rows : List Row}
    (h : List.Forall₂ (SameOutside idx keepLeft.toNat keepRight.toNat) ds.rows rows) :
    utf8RedactMiddleDataset overflowChecks keepLeft keepRight redaction ⟨ds.schema, rows⟩ column =
      utf8RedactMiddleDataset overflowChecks keepLeft keepRight redaction ds column := by
  rw [utf8RedactMiddleDataset_eq hidx hfield htext]
  refine Eq.trans ?_ (utf8RedactMiddleDataset_eq hidx hfield htext ds.rows).symm
  rw [mapM_eq_of_forall₂ (h.imp fun _ _ => redactRow_sameOutside)]

/-- **The middle is hidden** exactly where the sum of the two ends does no harm -/
theorem hidesMiddle_iff (hrows : ∀ row ∈ ds.rows, idx < row.length)
    (hlength : ∀ s ∈ cells utf8Cell idx ds.rows, s.toList.length < 2 ^ 64) :
    HidesMiddle overflowChecks keepLeft keepRight redaction ds column idx ↔
      ∀ s ∈ cells utf8Cell idx ds.rows, SumSafe overflowChecks keepLeft keepRight s := by
  have hcells : ∀ s, s ∈ cells utf8Cell idx ds.rows ↔ ∃ row ∈ ds.rows, row[idx]? = some (.utf8 s) := by
    exact fun s => mem_cells_of_cell fun v t => by rcases v <;> simp [utf8Cell]
  have hstep := @utf8RedactMiddleDataset_eq overflowChecks keepLeft keepRight redaction _ _ _ _ hidx hfield htext ds.rows
  calc HidesMiddle overflowChecks keepLeft keepRight redaction ds column idx
      ↔ ∃ rows, ds.rows.mapM (redactRow overflowChecks keepLeft keepRight redaction idx) = .ok rows ∧
          List.Forall₂ (HiddenRow idx keepLeft.toNat keepRight.toNat redaction) ds.rows rows := by
        have hok : ∀ rows, utf8RedactMiddleDataset overflowChecks keepLeft keepRight redaction ds column =
            .ok ⟨ds.schema, rows⟩ ↔
            ds.rows.mapM (redactRow overflowChecks keepLeft keepRight redaction idx) = .ok rows := by
          intro rows
          refine (Eq.congr_left hstep).trans ?_
          rcases ds.rows.mapM (redactRow overflowChecks keepLeft keepRight redaction idx) with fault | out <;>
            simp [Except.map]
        simp only [← hok]
        exact ⟨fun h => h.hides, fun h => ⟨h, fun rows => utf8RedactMiddleDataset_two_runs hidx hfield htext⟩⟩
    _ ↔ ∀ row ∈ ds.rows, ∀ s, row[idx]? = some (.utf8 s) → SumSafe overflowChecks keepLeft keepRight s := by
        rw [exists_mapM_and_iff]
        refine forall₂_congr fun row hrow => redactRow_hidden_iff (hrows row hrow) fun s hs => ?_
        exact hlength s ((hcells s).2 ⟨row, hrow, hs⟩)
    _ ↔ ∀ s ∈ cells utf8Cell idx ds.rows, SumSafe overflowChecks keepLeft keepRight s := by
        simp only [hcells]
        exact ⟨fun h s ⟨row, hrow, hs⟩ => h row hrow s hs, fun h row hrow s hs => h s ⟨row, hrow, hs⟩⟩

end Step

/-! ## Two runs of the step -/

/-- one column of texts -/
def texts (ss : List String) : DataSet := ⟨⟨[⟨"name", .utf8⟩]⟩, ss.map fun s => [.utf8 s]⟩

/-- two ends that fit -/
theorem middle_hidden : HidesMiddle true 1 1 "***" (texts ["alice", "bo"]) "name" 0 := by
  have hrows : ∀ row ∈ (texts ["alice", "bo"]).rows, 0 < row.length := by decide
  have hlength : ∀ s ∈ cells utf8Cell 0 (texts ["alice", "bo"]).rows, s.toList.length < 2 ^ 64 := by decide
  have hsafe : ∀ s ∈ cells utf8Cell 0 (texts ["alice", "bo"]).rows, SumSafe true 1 1 s := by decide
  exact (@hidesMiddle_iff true 1 1 "***" (texts ["alice", "bo"]) "name" 0 ⟨"name", .utf8⟩ rfl rfl rfl hrows hlength).2 hsafe

/-- **A short cell is changed**: the greatest `usize` and 1 add up to 0, and the whole text comes before the redaction.
A build that checks panics -/
theorem short_cell_changed :
    utf8RedactMiddleDataset false 18446744073709551615 1 "***" (texts ["bob"]) "name" = .ok (texts ["bob***b"]) ∧
    ¬ HidesMiddle false 18446744073709551615 1 "***" (texts ["bob"]) "name" 0 ∧
    utf8RedactMiddleDataset true 18446744073709551615 1 "***" (texts ["bob"]) "name" = .error .panic ∧
    ¬ HidesMiddle true 18446744073709551615 1 "***" (texts ["bob"]) "name" 0 := by
  have hwraps : utf8RedactMiddleDataset false 18446744073709551615 1 "***" (texts ["bob"]) "name" =
      .ok (texts ["bob***b"]) := by rfl
  have hpanics : utf8RedactMiddleDataset true 18446744073709551615 1 "***" (texts ["bob"]) "name" = .error .panic := by
    rfl
  refine ⟨hwraps, fun h => ?_, hpanics, fun h => ?_⟩
  · obtain ⟨rows, hstep, hrows⟩ := h.hides
    rw [hwraps] at hstep
    obtain rfl : (texts ["bob***b"]).rows = rows := congrArg DataSet.rows (Except.ok.inj hstep)
    have hcell := (List.forall₂_cons.1 hrows).1.text "bob" rfl
    exact absurd hcell (by decide)
  · obtain ⟨rows, hstep, -⟩ := h.hides
    rw [hpanics] at hstep
    cases hstep

end RustDataProcessing.Redaction
