/-
The report on changed texts (`src/privacy.rs`, `summarize_utf8_column_changes`).

For each column the rows of two datasets are compared in pairs. A pair is looked at only where both cells are texts, so a
text that is null afterwards is no change.

- `summarizeColumn_eq`: what is counted, as sets of rows.
- `counts_every_change_iff`: every changed text is counted exactly when all texts are texts afterwards.
- `masked_to_null_missed`: a column that is masked with nulls is reported as unchanged.
-/
import Mathlib.Tactic
import RustDataProcessing.Lib.Tally
import RustDataProcessing.Types

namespace RustDataProcessing.Privacy

/-! ## The source -/

structure Utf8ColumnChangeSummary where
  column : String
  nonNullCellsCompared : ℕ
  cellsChanged : ℕ
deriving DecidableEq, Repr

/-- one pair of rows: the cells compared so far, and the changed ones among them -/
def compareRows (bi ai : ℕ) (counts : ℕ × ℕ) (rows : Row × Row) : ℕ × ℕ :=
  match rows.1[bi]?, rows.2[ai]? with
  | some (.utf8 sb), some (.utf8 sa) => (counts.1 + 1, if sb ≠ sa then counts.2 + 1 else counts.2)
  | _, _ => counts

/-- the body of the loop over the columns: a column that one schema lacks is passed over -/
def summarizeColumn (before after : DataSet) (name : String) : Option Utf8ColumnChangeSummary := do
  let bi ← before.schema.indexOf name
  let ai ← after.schema.indexOf name
  let (nonNull, changed) := (before.rows.zip after.rows).foldl (compareRows bi ai) (0, 0)
  pure ⟨name, nonNull, changed⟩

def summarizeUtf8ColumnChanges (before after : DataSet) (columns : List String) : List Utf8ColumnChangeSummary :=
  columns.filterMap (summarizeColumn before after)

/-! ## Changes -/

def cell (ds : DataSet) (i j : ℕ) : Option Value := (ds.rows[i]?).bind fun row => row[j]?

/-- the cell was a text, and is anything else -/
def textChanged : Option Value → Option Value → Bool
  | some (.utf8 s), v => v ≠ some (.utf8 s)
  | _, _ => false

/-- both cells are texts -/
def bothText : Option Value → Option Value → Bool
  | some (.utf8 _), some (.utf8 _) => true
  | _, _ => false

/-- the rows whose cells satisfy a test -/
def rowsWhere (before after : DataSet) (bi ai : ℕ) (test : Option Value → Option Value → Bool) : Finset ℕ :=
  (Finset.range before.rows.length).filter fun i => test (cell before i bi) (cell after i ai) = true

/-- the report has the column, with the number of its changed texts -/
structure CountsEveryChange (before after : DataSet) (columns : List String) (name : String) (bi ai : ℕ) : Prop where
  reported : ∃ r ∈ summarizeUtf8ColumnChanges before after columns, r.column = name
  counted : ∀ r ∈ summarizeUtf8ColumnChanges before after columns, r.column = name →
    r.cellsChanged = (rowsWhere before after bi ai textChanged).card

theorem textChanged_iff {v w : Option Value} : textChanged v w = true ↔ ∃ s, v = some (.utf8 s) ∧ w ≠ some (.utf8 s) := by
  unfold textChanged
  split
  · simp
  · next hno => exact iff_of_false Bool.false_ne_true fun ⟨s, hs, _⟩ => hno s hs

theorem bothText_iff {v w : Option Value} : bothText v w = true ↔ ∃ s t, v = some (.utf8 s) ∧ w = some (.utf8 t) := by
  unfold bothText
  split
  · simp
  · next hno => exact iff_of_false Bool.false_ne_true fun ⟨s, t, hs, ht⟩ => hno s t hs ht

/-! ## The loop -/

section Loop

variable {before after : DataSet} {bi ai : ℕ}

/-- one pair of rows -/
theorem compareRows_eq (counts : ℕ × ℕ) (p : Row × Row) :
    compareRows bi ai counts p =
      (counts.1 + (if bothText p.1[bi]? p.2[ai]? = true then 1 else 0),
        counts.2 + if (bothText p.1[bi]? p.2[ai]? && textChanged p.1[bi]? p.2[ai]?) = true then 1 else 0) := by
  unfold compareRows
  split
  · next sb sa hb ha =>
    rw [hb, ha]
    by_cases hsame : sb = sa
    · simp [bothText, textChanged, hsame]
    · simp [bothText, textChanged, hsame, Ne.symm hsame]
  · next hno =>
    have hboth : bothText p.1[bi]? p.2[ai]? = false := by
      rw [← Bool.not_eq_true, bothText_iff]
      rintro ⟨s, t, hs, ht⟩
      exact hno s t hs ht
    rw [hboth]
    rfl

theorem foldl_compareRows (pairs : List (Row × Row)) (counts : ℕ × ℕ) :
    pairs.foldl (compareRows bi ai) counts =
      (counts.1 + pairs.countP (fun p => bothText p.1[bi]? p.2[ai]?),
        counts.2 + pairs.countP fun p => bothText p.1[bi]? p.2[ai]? && textChanged p.1[bi]? p.2[ai]?) := by
  induction pairs generalizing counts with
  | nil => rfl
  | cons p pairs ih =>
    rw [List.foldl_cons, ih, compareRows_eq, List.countP_cons, List.countP_cons]
    apply Prod.ext <;> dsimp only <;> omega

/-- counting pairs of rows is counting rows -/
theorem countP_zip (hrows : before.rows.length = after.rows.length) (test : Option Value → Option Value → Bool) :
    ((before.rows.zip after.rows).countP fun p => test p.1[bi]? p.2[ai]?) = (rowsWhere before after bi ai test).card := by
  rw [Tally.countP_eq_card, rowsWhere, List.length_zip, hrows, Nat.min_self]
  refine congrArg Finset.card (Finset.filter_congr fun i hi => ?_)
  have hafter : i < after.rows.length := Finset.mem_range.1 hi
  have hbefore : i < before.rows.length := by omega
  have hpair : (before.rows.zip after.rows)[i]? = some (before.rows[i], after.rows[i]) := by
    rw [List.getElem?_zip_eq_some]
    exact ⟨List.getElem?_eq_getElem hbefore, List.getElem?_eq_getElem hafter⟩
  rw [hpair, cell, cell, List.getElem?_eq_getElem hbefore, List.getElem?_eq_getElem hafter]
  rfl

/-- no change is left out exactly when no text is anything but a text afterwards -/
theorem counted_card_eq_iff :
    (rowsWhere before after bi ai fun v w => bothText v w && textChanged v w).card =
      (rowsWhere before after bi ai textChanged).card ↔
      ∀ i < before.rows.length, ∀ s, cell before i bi = some (.utf8 s) → ∃ t, cell after i ai = some (.utf8 t) := by
  have hsubset : (rowsWhere before after bi ai fun v w => bothText v w && textChanged v w) ⊆
      rowsWhere before after bi ai textChanged := by
    refine Finset.monotone_filter_right _ fun i _ h => ?_
    rw [Bool.and_eq_true] at h
    exact h.2
  constructor
  · intro hcount i hi s hs
    have hsame := Finset.eq_of_subset_of_card_le hsubset hcount.ge
    by_cases hkept : cell after i ai = some (.utf8 s)
    · exact ⟨s, hkept⟩
    · have hchanged : i ∈ rowsWhere before after bi ai textChanged :=
        Finset.mem_filter.2 ⟨Finset.mem_range.2 hi, textChanged_iff.2 ⟨s, hs, hkept⟩⟩
      rw [← hsame, rowsWhere, Finset.mem_filter, Bool.and_eq_true] at hchanged
      obtain ⟨-, t, -, ht⟩ := bothText_iff.1 hchanged.2.1
      exact ⟨t, ht⟩
  · intro h
    refine congrArg Finset.card (Finset.filter_congr fun i hi => ?_)
    rw [Bool.and_eq_true, and_iff_right_iff_imp]
    intro hchanged
    obtain ⟨s, hs, -⟩ := textChanged_iff.1 hchanged
    obtain ⟨t, ht⟩ := h i (Finset.mem_range.1 hi) s hs
    exact bothText_iff.2 ⟨s, t, hs, ht⟩

/-- **What a row of the report counts**: the rows with two texts, and those among them that differ -/
theorem summarizeColumn_eq (hrows : before.rows.length = after.rows.length) {name : String}
    (hb : before.schema.indexOf name = some bi) (ha : after.schema.indexOf name = some ai) :
    summarizeColumn before after name = some ⟨name, (rowsWhere before after bi ai bothText).card,
      (rowsWhere before after bi ai fun v w => bothText v w && textChanged v w).card⟩ := by
  unfold summarizeColumn
  rw [hb, ha]
  change some (Utf8ColumnChangeSummary.mk name ((before.rows.zip after.rows).foldl (compareRows bi ai) (0, 0)).1
    ((before.rows.zip after.rows).foldl (compareRows bi ai) (0, 0)).2) = _
  rw [foldl_compareRows, countP_zip hrows, countP_zip hrows fun v w => bothText v w && textChanged v w, Nat.zero_add,
    Nat.zero_add]

theorem summarizeColumn_column {name : String} {r : Utf8ColumnChangeSummary}
    (h : summarizeColumn before after name = some r) : r.column = name := by
  obtain ⟨bi, -, h⟩ := Option.bind_eq_some_iff.1 h
  obtain ⟨ai, -, h⟩ := Option.bind_eq_some_iff.1 h
  obtain rfl := Option.some.inj h
  rfl

/-- the rows of the report on one column are all the same -/
theorem mem_summarize_iff {columns : List String} {name : String} (hname : name ∈ columns) {r : Utf8ColumnChangeSummary} :
    r ∈ summarizeUtf8ColumnChanges before after columns ∧ r.column = name ↔
      summarizeColumn before after name = some r := by
  rw [summarizeUtf8ColumnChanges, List.mem_filterMap]
  constructor
  · rintro ⟨⟨name', -, hr⟩, rfl⟩
    rwa [summarizeColumn_column hr]
  · exact fun h => ⟨⟨name, hname, h⟩, summarizeColumn_column h⟩

end Loop

/-- **Every change is counted** exactly when no text is anything but a text afterwards -/
theorem counts_every_change_iff {before after : DataSet} (hrows : before.rows.length = after.rows.length)
    {columns : List String} {name : String} (hname : name ∈ columns) {bi ai : ℕ}
    (hb : before.schema.indexOf name = some bi) (ha : after.schema.indexOf name = some ai) :
    CountsEveryChange before after columns name bi ai ↔
      ∀ i < before.rows.length, ∀ s, cell before i bi = some (.utf8 s) → ∃ t, cell after i ai = some (.utf8 t) := by
  rw [← counted_card_eq_iff]
  have hsummary := summarizeColumn_eq hrows hb ha
  have hmem (r : Utf8ColumnChangeSummary) := @mem_summarize_iff before after columns name hname r
  rw [hsummary] at hmem
  constructor
  · intro h
    obtain ⟨r, hr, hcolumn⟩ := h.reported
    have hcount := h.counted r hr hcolumn
    obtain rfl := Option.some.inj ((hmem r).1 ⟨hr, hcolumn⟩)
    exact hcount
  · intro h
    refine ⟨⟨_, (hmem _).2 rfl⟩, fun r hr hcolumn => ?_⟩
    obtain rfl := Option.some.inj ((hmem r).1 ⟨hr, hcolumn⟩)
    exact h

/-! ## Two reports -/

def emails : DataSet := ⟨⟨[⟨"email", .utf8⟩]⟩, [[.utf8 "a@b.c"], [.null], [.utf8 "d@e.f"]]⟩

/-- the texts masked, behind another column -/
def masked : DataSet :=
  ⟨⟨[⟨"id", .int64⟩, ⟨"email", .utf8⟩]⟩, [[.int64 1, .utf8 "a@***"], [.int64 2, .null], [.int64 3, .utf8 "d@e.f"]]⟩

/-- the first text masked with a null -/
def nulled : DataSet := ⟨⟨[⟨"email", .utf8⟩]⟩, [[.null], [.null], [.utf8 "d@e.f"]]⟩

theorem masked_texts_counted : CountsEveryChange emails masked ["email"] "email" 0 1 := by
  have hbefore : emails.schema.indexOf "email" = some 0 := by decide
  have hafter : masked.schema.indexOf "email" = some 1 := by decide
  refine (@counts_every_change_iff emails masked rfl ["email"] "email" List.mem_cons_self 0 1 hbefore hafter).2
    fun i hi s hs => ?_
  have hrow : i = 0 ∨ i = 1 ∨ i = 2 := by
    change i < 3 at hi
    omega
  rcases hrow with rfl | rfl | rfl
  · exact ⟨"a@***", by decide⟩
  · cases hs
  · exact ⟨"d@e.f", by decide⟩

/-- **A text masked with a null** is one change, and none is reported -/
theorem masked_to_null_missed :
    summarizeUtf8ColumnChanges emails nulled ["email"] = [⟨"email", 1, 0⟩] ∧
    (rowsWhere emails nulled 0 0 textChanged).card = 1 ∧
    ¬CountsEveryChange emails nulled ["email"] "email" 0 0 := by
  have hreport : summarizeUtf8ColumnChanges emails nulled ["email"] = [⟨"email", 1, 0⟩] := by decide
  have hchanges : (rowsWhere emails nulled 0 0 textChanged).card = 1 := by decide
  refine ⟨hreport, hchanges, fun h => ?_⟩
  have hcount := h.counted ⟨"email", 1, 0⟩ (by rw [hreport]; exact List.mem_cons_self) rfl
  rw [hchanges] at hcount
  cases hcount

end RustDataProcessing.Privacy
