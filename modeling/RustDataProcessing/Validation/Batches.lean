/-
Validation of a dataset in batches, and in another order. As for the reference report, the dataset can be loaded into the
engine, and every check finds its column and suits it (`Loadable`, `Checkable`); a part of the rows is then no worse.

- `validate_batches`: the counts of a whole dataset are the sums of those of its batches, and its examples the first of
  theirs. For duplicates the whole has at least as many: a value may be repeated in another batch.
- `validate_reordered`: the order of the rows makes no difference to the counts, the messages and the summary.
-/
import Mathlib.Tactic
import RustDataProcessing.Validation.Reference

namespace RustDataProcessing.Validation

open Polars (Engine)
open Query (checkingEngine)
open Ingestion (rowCell Loadable)

/-! ## Counts of a part -/

theorem take_flatten_take {α : Type} (n : ℕ) (ls : List (List α)) :
    ((ls.map (List.take n)).flatten).take n = ls.flatten.take n := by
  induction ls with
  | nil => rfl
  | cons l ls ih =>
    rw [List.map_cons, List.flatten_cons, List.flatten_cons, List.take_append, List.take_append, List.take_take,
      min_self]
    congr 1
    rw [List.length_take]
    rcases le_total n l.length with h | h
    · simp [Nat.sub_eq_zero_of_le h, min_eq_left h]
    · rw [min_eq_right h]
      have hle : n - l.length ≤ n := Nat.sub_le _ _
      rw [← min_eq_left hle, ← List.take_take, ih, List.take_take]

section Count

variable (E : Engine) (compile : String → Option (String → Bool))

/-- the values of two parts may be the same ones -/
theorem duplicates_append (xs ys : List Value) : duplicates xs + duplicates ys ≤ duplicates (xs ++ ys) := by
  unfold duplicates
  dsimp only
  rw [List.filter_append, List.length_append, List.toFinset_append]
  have hunion := Finset.card_union_le (xs.filter (· ≠ .null)).toFinset (ys.filter (· ≠ .null)).toFinset
  have hxs := List.toFinset_card_le (xs.filter (· ≠ .null))
  have hys := List.toFinset_card_le (ys.filter (· ≠ .null))
  omega

theorem duplicates_flatten (ls : List (List Value)) : (ls.map duplicates).sum ≤ duplicates ls.flatten := by
  induction ls with
  | nil => exact le_rfl
  | cons l ls ih =>
    rw [List.map_cons, List.sum_cons, List.flatten_cons]
    exact (Nat.add_le_add_left ih _).trans (duplicates_append l ls.flatten)

/-- but for the check of duplicates, counts add up -/
theorem failedCountOf_flatten {chk : Check} {p : String × Polars.Expr} (h : examplePredicate chk = some p)
    (ls : List (List Value)) :
    failedCountOf E compile chk ls.flatten = (ls.map (failedCountOf E compile chk)).sum := by
  rw [failedCountOf_eq h, List.countP_flatten]
  exact congrArg List.sum (List.map_congr_left fun l _ => (failedCountOf_eq h l).symm)

theorem sum_le_failedCountOf_flatten (chk : Check) (ls : List (List Value)) :
    (ls.map (failedCountOf E compile chk)).sum ≤ failedCountOf E compile chk ls.flatten := by
  cases h : examplePredicate chk with
  | some p => exact (failedCountOf_flatten E compile h ls).ge
  | none =>
    obtain ⟨column, severity, rfl⟩ := examplePredicate_eq_none h
    exact duplicates_flatten ls

theorem failedCountOf_perm (chk : Check) {xs ys : List Value} (h : xs.Perm ys) :
    failedCountOf E compile chk xs = failedCountOf E compile chk ys := by
  cases hpred : examplePredicate chk with
  | some p => rw [failedCountOf_eq hpred, failedCountOf_eq hpred, h.countP_eq]
  | none =>
    obtain ⟨column, severity, rfl⟩ := examplePredicate_eq_none hpred
    have hvs := h.filter (· ≠ .null)
    change _ - _ = _ - _
    rw [hvs.length_eq, List.toFinset_eq_of_perm _ _ hvs]

end Count

/-! ## Datasets of some of the rows -/

theorem Loadable.mono {maxRows : ℕ} {schema : Schema} {rows rows' : List Row} (h : Loadable maxRows ⟨schema, rows⟩)
    (hsub : rows' ⊆ rows) (hlen : rows'.length ≤ rows.length) : Loadable maxRows ⟨schema, rows'⟩ where
  distinct := h.distinct
  fewRows hne := hlen.trans (h.fewRows hne)
  typed i f hf row hrow := h.typed i f hf row (hsub hrow)

theorem Checkable.mono {compile : String → Option (String → Bool)} {schema : Schema} {rows rows' : List Row} {chk : Check}
    (h : Checkable compile ⟨schema, rows⟩ chk) (hsub : rows' ⊆ rows) : Checkable compile ⟨schema, rows'⟩ chk := by
  obtain ⟨idx, field, hidx, hfield, hsuits⟩ := h
  refine ⟨idx, field, hidx, hfield, ?_⟩
  cases chk with
  | unique => exact fun v hv => hsuits v (List.map_subset _ hsub hv)
  | _ => exact hsuits

theorem cellsOf_flatten (schema : Schema) (batches : List (List Row)) (column : String) :
    cellsOf ⟨schema, batches.flatten⟩ column = (batches.map fun rows => cellsOf ⟨schema, rows⟩ column).flatten := by
  unfold cellsOf
  dsimp only
  cases schema.indexOf column with
  | none => simp
  | some idx => exact List.map_flatten ..

theorem cellsOf_perm (schema : Schema) {rows rows' : List Row} (h : rows'.Perm rows) (column : String) :
    (cellsOf ⟨schema, rows'⟩ column).Perm (cellsOf ⟨schema, rows⟩ column) := by
  unfold cellsOf
  dsimp only
  cases schema.indexOf column with
  | none => exact .refl _
  | some idx => exact h.map _

/-! ## Batches -/

/-- the rows that fail the check at a place, and its examples -/
def failedAt (i : ℕ) (report : ValidationReport) : ℕ := report.results[i]?.elim 0 CheckResult.failedCount

def examplesAt (i : ℕ) (report : ValidationReport) : List Value := report.results[i]?.elim [] CheckResult.examples

/-- the report of a whole dataset, against those of its parts -/
structure AddsUp (spec : ValidationSpec) (whole : ValidationReport) (parts : List ValidationReport) : Prop where
  atLeast : ∀ i, (parts.map (failedAt i)).sum ≤ failedAt i whole
  /-- a row fails a check by itself, unless it is that of duplicates -/
  exactly : ∀ i chk, spec.checks[i]? = some chk → (∀ column severity, chk ≠ .unique column severity) →
    failedAt i whole = (parts.map (failedAt i)).sum
  examples : ∀ i, examplesAt i whole = (parts.map (examplesAt i)).flatten.take (spec.maxExamples % 2 ^ 32)

section Report

variable {E : Engine} {compile : String → Option (String → Bool)}

theorem failedAt_reference (ds : DataSet) (spec : ValidationSpec) (i : ℕ) :
    failedAt i (reference E compile ds spec) =
      spec.checks[i]?.elim 0 fun chk => failedCountOf E compile chk (cellsOf ds chk.column) := by
  rw [failedAt, reference, List.getElem?_map]
  cases spec.checks[i]? <;> rfl

theorem examplesAt_reference (ds : DataSet) (spec : ValidationSpec) (i : ℕ) :
    examplesAt i (reference E compile ds spec) = (spec.checks[i]?.elim [] fun chk =>
      (cellsOf ds chk.column).filter (fails E compile chk)).take (spec.maxExamples % 2 ^ 32) := by
  rw [examplesAt, reference, List.getElem?_map]
  cases spec.checks[i]? with
  | none => exact List.take_nil.symm
  | some chk => rfl

/-- reference reports add up -/
theorem reference_addsUp (schema : Schema) (batches : List (List Row)) (spec : ValidationSpec) :
    AddsUp spec (reference E compile ⟨schema, batches.flatten⟩ spec)
      (batches.map fun rows => reference E compile ⟨schema, rows⟩ spec) := by
  refine ⟨fun i => ?_, fun i chk hi hchk => ?_, fun i => ?_⟩
  · rw [List.map_map, failedAt_reference]
    simp only [Function.comp_def, failedAt_reference]
    cases spec.checks[i]? with
    | none => simp
    | some chk =>
      have h := sum_le_failedCountOf_flatten E compile chk (batches.map fun rows => cellsOf ⟨schema, rows⟩ chk.column)
      rwa [← cellsOf_flatten, List.map_map] at h
  · rw [List.map_map, failedAt_reference, hi]
    simp only [Function.comp_def, failedAt_reference, hi]
    cases hpred : examplePredicate chk with
    | none =>
      obtain ⟨column, severity, rfl⟩ := examplePredicate_eq_none hpred
      exact absurd rfl (hchk column severity)
    | some p =>
      have h := failedCountOf_flatten E compile hpred (batches.map fun rows => cellsOf ⟨schema, rows⟩ chk.column)
      rwa [← cellsOf_flatten, List.map_map] at h
  · rw [List.map_map, examplesAt_reference]
    simp only [Function.comp_def, examplesAt_reference]
    have htake := @take_flatten_take Value (spec.maxExamples % 2 ^ 32) (batches.map fun rows =>
      spec.checks[i]?.elim [] fun chk => (cellsOf ⟨schema, rows⟩ chk.column).filter (fails E compile chk))
    rw [List.map_map] at htake
    refine Eq.trans ?_ htake.symm
    congr 1
    cases spec.checks[i]? with
    | none => simp
    | some chk =>
      dsimp only [Option.elim]
      rw [cellsOf_flatten, List.filter_flatten, List.map_map]
      rfl

variable (hE : Query.Checking E compile) {schema : Schema} {spec : ValidationSpec}
include hE

/-- **Validation in batches**: where the whole can be loaded and every check suits its column, the whole and each batch are
validated, the counts add up, and the examples are the first of the batches' -/
theorem validate_batches {batches : List (List Row)} (hload : Loadable E.maxRows ⟨schema, batches.flatten⟩)
    (hchecks : ∀ chk ∈ spec.checks, Checkable compile ⟨schema, batches.flatten⟩ chk) :
    ∃ whole parts, validateDataset E ⟨schema, batches.flatten⟩ spec = .ok whole ∧
      (batches.mapM fun rows => validateDataset E ⟨schema, rows⟩ spec) = .ok parts ∧ AddsUp spec whole parts := by
  refine ⟨_, _, validate_is_reference hE hload hchecks, ?_, reference_addsUp schema batches spec⟩
  refine Traverse.mapM_ok (List.forall₂_map_right_iff.2 (List.forall₂_same.2 fun rows hrows => ?_))
  have hsub : rows ⊆ batches.flatten := fun row hrow => List.mem_flatten.2 ⟨rows, hrows, hrow⟩
  have hlength := (List.sublist_flatten_of_mem hrows).length_le
  exact validate_is_reference hE (Loadable.mono hload hsub hlength) fun chk hchk => (hchecks chk hchk).mono hsub

omit hE in
/-- a summary is made of the severities and the counts -/
theorem summaryOf_congr {rs rs' : List CheckResult}
    (h : List.Forall₂ (fun r r' => r'.check = r.check ∧ r'.failedCount = r.failedCount) rs rs') :
    summaryOf rs' = summaryOf rs := by
  let seen (r : CheckResult) : Severity × ℕ := (severityOf r.check, r.failedCount)
  have hseen : rs'.map seen = rs.map seen := by
    rw [← List.forall₂_eq_eq_eq, List.forall₂_map_left_iff, List.forall₂_map_right_iff]
    exact h.flip.imp fun r r' hr => Prod.ext (congrArg severityOf hr.1) hr.2
  have hsummary : ∀ rs, summaryOf rs = ⟨(rs.map seen).length, (rs.map seen).countP fun p => 0 < p.2,
      (((rs.map seen).filter fun p => 0 < p.2).map Prod.fst).max?⟩ := fun rs => by
    rw [List.length_map, List.countP_map, List.filter_map, List.map_map]
    rfl
  rw [hsummary, hsummary, hseen]

/-- **The order of the rows** is seen in the choice of the examples alone, where the dataset can be loaded and every check
suits its column -/
theorem validate_reordered {rows rows' : List Row} (hperm : rows'.Perm rows) (hload : Loadable E.maxRows ⟨schema, rows⟩)
    (hchecks : ∀ chk ∈ spec.checks, Checkable compile ⟨schema, rows⟩ chk) :
    ∃ report report', validateDataset E ⟨schema, rows⟩ spec = .ok report ∧
      validateDataset E ⟨schema, rows'⟩ spec = .ok report' ∧ report'.summary = report.summary ∧
      List.Forall₂ (fun r r' => r'.check = r.check ∧ r'.failedCount = r.failedCount ∧ r'.message = r.message ∧
        r'.examples.length = r.examples.length) report.results report'.results := by
  have hload' := Loadable.mono hload hperm.subset hperm.length_eq.le
  have hchecks' : ∀ chk ∈ spec.checks, Checkable compile ⟨schema, rows'⟩ chk :=
    fun chk hchk => (hchecks chk hchk).mono hperm.subset
  have hresults : List.Forall₂ (fun r r' => r'.check = r.check ∧ r'.failedCount = r.failedCount ∧ r'.message = r.message ∧
      r'.examples.length = r.examples.length) (reference E compile ⟨schema, rows⟩ spec).results
      (reference E compile ⟨schema, rows'⟩ spec).results := by
    refine List.forall₂_map_left_iff.2 (List.forall₂_map_right_iff.2 (List.forall₂_same.2 fun chk _ => ?_))
    have hcells := cellsOf_perm schema hperm chk.column
    have hcount := failedCountOf_perm E compile chk hcells
    refine ⟨rfl, hcount, congrArg (defaultMessage chk) hcount, ?_⟩
    simp only [resultOf, List.length_take, (hcells.filter _).length_eq]
  exact ⟨_, _, validate_is_reference hE hload hchecks, validate_is_reference hE hload' hchecks',
    summaryOf_congr (hresults.imp fun _ _ h => ⟨h.1, h.2.1⟩), hresults⟩

end Report

/-! ## A dataset in two batches -/

/-- "Ada" is there twice, once in each batch: no batch has a duplicate, the whole has one -/
theorem people_in_batches :
    (∃ whole parts, validateDataset checkingEngine people peopleChecks = .ok whole ∧
      ([people.rows.take 2, people.rows.drop 2].mapM fun rows =>
        validateDataset checkingEngine ⟨people.schema, rows⟩ peopleChecks) = .ok parts ∧
      AddsUp peopleChecks whole parts) ∧
    failedCountOf checkingEngine Query.findText (.unique "name" .error) (cellsOf people "name") = 1 ∧
    (∀ rows ∈ [people.rows.take 2, people.rows.drop 2],
      failedCountOf checkingEngine Query.findText (.unique "name" .error) (cellsOf ⟨people.schema, rows⟩ "name") = 0) :=
  ⟨@validate_batches _ _ Query.checkingEngine_checks people.schema peopleChecks [people.rows.take 2, people.rows.drop 2]
    loadable_people checkable_people, by decide, by decide⟩

theorem people_reversed :
    ∃ report report', validateDataset checkingEngine people peopleChecks = .ok report ∧
      validateDataset checkingEngine ⟨people.schema, people.rows.reverse⟩ peopleChecks = .ok report' ∧
      report'.summary = report.summary ∧
      List.Forall₂ (fun r r' => r'.check = r.check ∧ r'.failedCount = r.failedCount ∧ r'.message = r.message ∧
        r'.examples.length = r.examples.length) report.results report'.results :=
  validate_reordered Query.checkingEngine_checks (List.reverse_perm _) loadable_people checkable_people

end RustDataProcessing.Validation
