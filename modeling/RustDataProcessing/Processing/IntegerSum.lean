/-
The sum of an integer column (`src/processing/reduce.rs`): when it is the mathematical sum.

The loop adds with `+` on `i64`. A build with overflow checks panics at the first partial sum that does not fit; one
without them wraps, and goes on.

- `sumExact_iff`: what Sum returns is the exact sum, whatever the order of the rows, exactly when
  - in a build that wraps: the exact sum fits;
  - in a build that checks: the call panics on the rows as they stand, or it panics in no order of them.
- `reduce_sum_checked`: in a build that checks, a sum that is returned is exact.
- `wrapped_sum`: in a build that wraps, the sum of the greatest integer and 1 is returned as the least one.
-/
import Mathlib.Tactic
import RustDataProcessing.Lib.PartialSums
import RustDataProcessing.Processing.Reduce

namespace RustDataProcessing.Processing

/-! ## The exact sum -/

/-- the mathematical sum of the cells -/
def exactSum (xs : List Int64) : ℤ := (xs.map Int64.toInt).sum

def FitsI64 (n : ℤ) : Prop := RustStd.i64Min ≤ n ∧ n ≤ RustStd.i64Max

instance (n : ℤ) : Decidable (FitsI64 n) := inferInstanceAs (Decidable (_ ∧ _))

/-- what is claimed of the sum of a column: it is exact, the same in every order of the rows, and a null without cells -/
structure SumExact (R : Runtime) (ds : DataSet) (column : String) (idx : ℕ) : Prop where
  exact : ∀ s, reduce R ds column .sum = .ok (some (.int64 s)) → s.toInt = exactSum (cells int64Cell idx ds.rows)
  ordered : ∀ s, reduce R ds column .sum = .ok (some (.int64 s)) →
    ∀ rows : List Row, rows.Perm ds.rows → reduce R ⟨ds.schema, rows⟩ column .sum = .ok (some (.int64 s))
  empty : cells int64Cell idx ds.rows = [] → reduce R ds column .sum = .ok (some .null)

/-- the sum of the positive cells fits, and so does the sum of the negative ones -/
def EveryOrderFits (xs : List Int64) : Prop :=
  RustStd.i64Min ≤ PartialSums.negative Int64.toInt xs ∧ PartialSums.positive Int64.toInt xs ≤ RustStd.i64Max

/-- when Sum does what is claimed of it -/
def SumSafe (R : Runtime) (xs : List Int64) : Prop :=
  if R.overflowChecks then PartialSumsFit xs → EveryOrderFits xs else FitsI64 (exactSum xs)

theorem exactSum_perm {xs ys : List Int64} (h : ys.Perm xs) : exactSum ys = exactSum xs := (h.map _).sum_eq

theorem everyOrderFits_iff (xs : List Int64) :
    EveryOrderFits xs ↔ ∀ ys : List Int64, ys.Perm xs → PartialSumsFit ys :=
  (PartialSums.within_every_order_iff Int64.toInt).symm

theorem toInt_ofInt_iff (n : ℤ) : (Int64.ofInt n).toInt = n ↔ FitsI64 n :=
  ⟨fun h => h ▸ RustStd.toInt_bounds _, toInt_ofInt_of_fits⟩

/-! ## The loop -/

def sumOf (R : Runtime) (xs : List Int64) : IngestionResult (Option Int64) :=
  xs.foldlM (combine R.addI64 minI64 maxI64 .sum) none

/-- the sum, wrapped to an `i64`; none without cells -/
def wrappedSum (xs : List Int64) : Option Int64 := if xs = [] then none else some (.ofInt (exactSum xs))

theorem sumOf_of_fits (R : Runtime) {xs : List Int64} (h : PartialSumsFit xs) : sumOf R xs = .ok (wrappedSum xs) := by
  rcases xs with - | ⟨x, xs⟩
  · rfl
  · have hloop := @sumLoop_ok R xs [x] x h (by simp)
    rw [List.singleton_append] at hloop
    rw [sumOf, List.foldlM_cons, wrappedSum, if_neg (List.cons_ne_nil x xs)]
    exact hloop

/-- in a build that wraps -/
theorem sumOf_wrapping {R : Runtime} (hR : R.overflowChecks = false) (xs : List Int64) :
    sumOf R xs = .ok (wrappedSum xs) := by
  have hadd : ∀ acc v, combine R.addI64 minI64 maxI64 .sum acc v = .ok (Reduction.reduceStep (· + ·) acc v) := by
    intro acc v
    rcases acc with - | a <;> simp [combine, Runtime.addI64, hR, Reduction.reduceStep, Except.map]
  have hfold : ∀ (xs : List Int64) (a : Int64), xs.foldl (· + ·) a = .ofInt (a.toInt + exactSum xs) := by
    intro xs
    induction xs with
    | nil => simp [exactSum]
    | cons x xs ih =>
      intro a
      have hcons : exactSum (x :: xs) = x.toInt + exactSum xs := by simp [exactSum]
      rw [List.foldl_cons, ih, hcons]
      simp only [Int64.ofInt_add, Int64.ofInt_toInt, Int64.add_assoc]
  rw [sumOf, foldlM_step hadd]
  rcases xs with - | ⟨x, xs⟩
  · rfl
  · rw [List.foldl_cons, Reduction.reduceStep, Reduction.foldl_reduceStep, hfold, wrappedSum,
      if_neg (List.cons_ne_nil x xs)]
    rfl

/-- a checked addition that does not fit panics -/
theorem addI64_panics {R : Runtime} (hR : R.overflowChecks = true) {a v : Int64} (h : ¬ FitsI64 (a.toInt + v.toInt)) :
    R.addI64 a v = .error .panic := by
  have hnone : Polars.TextRules.int64OfInt (a.toInt + v.toInt) = none := if_neg h
  simp [Runtime.addI64, hR, hnone]

/-- the checked loop panics at the first partial sum that does not fit -/
theorem sumLoop_panics {R : Runtime} (hR : R.overflowChecks = true) {xs : List Int64} (done : List Int64) {a : Int64}
    (ha : a.toInt = exactSum done) (hdone : PartialSumsFit done) (h : ¬ PartialSumsFit (done ++ xs)) :
    xs.foldlM (combine R.addI64 minI64 maxI64 .sum) (some a) = .error .panic := by
  induction xs generalizing done a with
  | nil =>
    rw [List.append_nil] at h
    exact absurd hdone h
  | cons x xs ih =>
    have hsum : a.toInt + x.toInt = exactSum (done ++ [x]) := by simp [exactSum, ha]
    rw [List.foldlM_cons]
    by_cases hfits : FitsI64 (a.toInt + x.toInt)
    · have hstep : combine R.addI64 minI64 maxI64 .sum (some a) x = .ok (some (.ofInt (a.toInt + x.toInt))) := by
        simp [combine, addI64_ok R hfits, Except.map]
      have hnext : PartialSumsFit (done ++ [x]) := by
        intro p hp
        rcases List.prefix_concat_iff.1 hp with rfl | hp
        · rw [hsum] at hfits
          exact hfits
        · exact hdone p hp
      rw [hstep]
      exact ih (done ++ [x]) ((toInt_ofInt_of_fits hfits).trans hsum) hnext (by simpa using h)
    · have hstep : combine R.addI64 minI64 maxI64 .sum (some a) x = .error .panic := by
        simp [combine, addI64_panics hR hfits, Except.map]
      rw [hstep]
      rfl

/-- in a build that checks -/
theorem sumOf_checked {R : Runtime} (hR : R.overflowChecks = true) {xs : List Int64} (h : ¬ PartialSumsFit xs) :
    sumOf R xs = .error .panic := by
  rcases xs with - | ⟨x, xs⟩
  · refine absurd (fun p hp => ?_) h
    rw [List.prefix_nil.1 hp]
    decide
  · have hone : PartialSumsFit [x] := by
      intro p hp
      rcases List.prefix_concat_iff.1 (show p <+: [] ++ [x] from hp) with rfl | hp
      · simpa using RustStd.toInt_bounds x
      · rw [List.prefix_nil.1 hp]
        decide
    rw [sumOf, List.foldlM_cons]
    exact sumLoop_panics hR [x] (by simp [exactSum]) hone h

/-! ## The reduction -/

section

variable {ds : DataSet} {column : String} {idx : ℕ} {field : Field} (hidx : ds.schema.indexOf column = some idx)
  (hfield : ds.schema.fields[idx]? = some field) (hint : field.dataType = .int64)

include hidx hfield hint

theorem reduce_sum_eq (R : Runtime) (rows : List Row) : reduce R ⟨ds.schema, rows⟩ column .sum =
    (sumOf R (cells int64Cell idx rows)).map fun acc => some (acc.elim .null .int64) := by
  have htyped := @reduce_typed R ⟨ds.schema, rows⟩ _ _ _ hidx hfield .sum (Or.inl rfl)
  rw [htyped, hint, reduceNumericTyped]
  simp only [tryLoop_eq]
  rfl

/-- the value of a sum that is returned -/
theorem reduce_sum_of_ok {R : Runtime} {rows : List Row} (h : sumOf R (cells int64Cell idx rows) =
    .ok (wrappedSum (cells int64Cell idx rows))) (s : Int64) :
    reduce R ⟨ds.schema, rows⟩ column .sum = .ok (some (.int64 s)) ↔
      cells int64Cell idx rows ≠ [] ∧ s = .ofInt (exactSum (cells int64Cell idx rows)) := by
  rw [reduce_sum_eq hidx hfield hint, h, wrappedSum]
  split_ifs with hempty <;> simp [Except.map, hempty, eq_comm]

/-- **A checked sum is exact** -/
theorem reduce_sum_checked {R : Runtime} (hR : R.overflowChecks = true) {rows : List Row} {s : Int64}
    (h : reduce R ⟨ds.schema, rows⟩ column .sum = .ok (some (.int64 s))) :
    PartialSumsFit (cells int64Cell idx rows) ∧ s.toInt = exactSum (cells int64Cell idx rows) := by
  by_cases hfit : PartialSumsFit (cells int64Cell idx rows)
  · obtain ⟨-, rfl⟩ := (reduce_sum_of_ok hidx hfield hint (sumOf_of_fits R hfit) s).1 h
    exact ⟨hfit, toInt_ofInt_of_fits (hfit _ List.prefix_rfl)⟩
  · rw [reduce_sum_eq hidx hfield hint, sumOf_checked hR hfit] at h
    cases h

/-- without cells -/
theorem reduce_sum_null (R : Runtime) (hnil : cells int64Cell idx ds.rows = []) :
    reduce R ds column .sum = .ok (some .null) := by
  have heq := reduce_sum_eq hidx hfield hint R ds.rows
  rw [hnil] at heq
  exact heq

omit hidx hfield hint in
/-- another order of the rows has the same cells in it -/
theorem cells_of_perm {rows : List Row} (h : rows.Perm ds.rows) :
    exactSum (cells int64Cell idx rows) = exactSum (cells int64Cell idx ds.rows) ∧
      (cells int64Cell idx ds.rows ≠ [] → cells int64Cell idx rows ≠ []) :=
  ⟨exactSum_perm (cells_perm int64Cell idx h),
    fun hne hnil => hne (List.Perm.nil_eq (hnil ▸ cells_perm int64Cell idx h)).symm⟩

/-- **A build that checks**: all orders of the rows overflow, or none does -/
theorem sumExact_checked_iff {R : Runtime} (hR : R.overflowChecks = true) : SumExact R ds column idx ↔
    (PartialSumsFit (cells int64Cell idx ds.rows) → EveryOrderFits (cells int64Cell idx ds.rows)) := by
  constructor
  · intro h hfit
    rw [everyOrderFits_iff]
    intro ys hys
    by_cases hnil : cells int64Cell idx ds.rows = []
    · rw [hnil] at hys hfit
      rwa [List.perm_nil.1 hys]
    obtain ⟨rows, hrows, rfl⟩ := exists_rows_of_perm int64Cell idx hys
    have hsum := (reduce_sum_of_ok hidx hfield hint (sumOf_of_fits R hfit) _).2 ⟨hnil, rfl⟩
    exact (reduce_sum_checked hidx hfield hint hR (h.ordered _ hsum rows hrows)).1
  · intro h
    refine ⟨fun s hs => (reduce_sum_checked hidx hfield hint hR hs).2, fun s hs rows hrows => ?_,
      reduce_sum_null hidx hfield hint R⟩
    have hfit := (reduce_sum_checked hidx hfield hint hR hs).1
    have hfit' := (everyOrderFits_iff _).1 (h hfit) _ (cells_perm int64Cell idx hrows)
    obtain ⟨hne, rfl⟩ := (reduce_sum_of_ok hidx hfield hint (sumOf_of_fits R hfit) s).1 hs
    obtain ⟨hsame, hnonempty⟩ := @cells_of_perm _ idx _ hrows
    exact (reduce_sum_of_ok hidx hfield hint (sumOf_of_fits R hfit') _).2 ⟨hnonempty hne, by rw [hsame]⟩

/-- **A build that wraps**: the sum fits -/
theorem sumExact_wrapping_iff {R : Runtime} (hR : R.overflowChecks = false) :
    SumExact R ds column idx ↔ FitsI64 (exactSum (cells int64Cell idx ds.rows)) := by
  have hvalue : ∀ rows s, reduce R ⟨ds.schema, rows⟩ column .sum = .ok (some (.int64 s)) ↔
      cells int64Cell idx rows ≠ [] ∧ s = .ofInt (exactSum (cells int64Cell idx rows)) :=
    fun rows s => reduce_sum_of_ok hidx hfield hint (sumOf_wrapping hR _) s
  constructor
  · intro h
    by_cases hnil : cells int64Cell idx ds.rows = []
    · rw [hnil]
      decide
    · exact (toInt_ofInt_iff _).1 (h.exact _ ((hvalue ds.rows _).2 ⟨hnil, rfl⟩))
  · intro h
    refine ⟨fun s hs => ?_, fun s hs rows hrows => ?_, reduce_sum_null hidx hfield hint R⟩
    · obtain ⟨-, rfl⟩ := (hvalue ds.rows s).1 hs
      exact toInt_ofInt_of_fits h
    · obtain ⟨hne, rfl⟩ := (hvalue ds.rows s).1 hs
      obtain ⟨hsame, hnonempty⟩ := @cells_of_perm _ idx _ hrows
      exact (hvalue rows _).2 ⟨hnonempty hne, by rw [hsame]⟩

/-- **The sum is exact** and the same in every order of the rows exactly when it is safe -/
theorem sumExact_iff (R : Runtime) : SumExact R ds column idx ↔ SumSafe R (cells int64Cell idx ds.rows) := by
  unfold SumSafe
  split_ifs with hR
  · exact sumExact_checked_iff hidx hfield hint hR
  · exact sumExact_wrapping_iff hidx hfield hint (by simpa using hR)

end

/-! ## Two builds -/

/-- a column of the greatest integer and one -/
def greatestAndOne : DataSet := ⟨⟨[⟨"n", .int64⟩]⟩, [[.int64 Int64.maxValue], [.int64 1]]⟩

/-- the condition on one column: 1 and 2 -/
theorem small_sum_exact : SumExact wrappingBuild ⟨⟨[⟨"n", .int64⟩]⟩, [[.int64 1], [.null], [.int64 2]]⟩ "n" 0 :=
  (@sumExact_iff ⟨⟨[⟨"n", .int64⟩]⟩, [[.int64 1], [.null], [.int64 2]]⟩ "n" 0 ⟨"n", .int64⟩ rfl rfl rfl wrappingBuild).2
    (show FitsI64 (exactSum [1, 2]) by decide)

/-- **A sum that does not fit is returned wrapped** -/
theorem wrapped_sum : ¬ ∀ (R : Runtime) (ds : DataSet) (column : String) (idx : ℕ) (field : Field),
    ds.schema.indexOf column = some idx → ds.schema.fields[idx]? = some field → field.dataType = .int64 →
    SumExact R ds column idx := by
  intro h
  have hexact := (h wrappingBuild greatestAndOne "n" 0 ⟨"n", .int64⟩ rfl rfl rfl).exact Int64.minValue (by rfl)
  exact absurd hexact (by decide)

end RustDataProcessing.Processing
