/-
Mean, variance and standard deviation of a column (`src/processing/reduce.rs`), over exact numbers.

`floatStats` is the loop of `reduce_numeric_float_stats` over any numbers; at the doubles it is what the code runs
(`reduceNumericFloatStats_eq`). Over an ordered field, such as the rationals:

- `welford_eq`: the one pass ends with the number of values, their mean, and the sum of their squared deviations;
- `welford_two_pass`: Mean, Variance and StdDev are their two-pass definitions, a null exactly where there are too few
  values for these, never negative, and the same in every order of the rows; nulls take no part.
-/
import Mathlib.Tactic
import RustDataProcessing.Lib.TwoPass
import RustDataProcessing.Processing.Reduce

open RustDataProcessing (Row Value DataSet DataType IngestionResult)
open RustDataProcessing.Processing

namespace ExactStatistics

open TwoPass

/-! ## The pass over any numbers -/

section

variable {K : Type} [Zero K] [Add K] [Sub K] [Mul K] [Div K] [NatCast K]

/-- the reduction of the numbers that `read` finds in the column; none is a null -/
def floatStats (read : Value → Option K) (sqrt : K → K) (idx : ℕ) (rows : List Row) (op : ReduceOp) :
    IngestionResult (Option K) :=
  let s := loop read FloatStats.observe idx .start rows
  if !s.any then .ok none
  else match op with
    | .mean => match s.w.meanOf with
      | some v => .ok (some v)
      | none => .error .panic
    | .variance kind => .ok (s.w.varianceOf kind)
    | .stdDev kind => .ok ((s.w.varianceOf kind).map sqrt)
    | .sumSquares => .ok (some s.sumSquares)
    | .l2Norm => .ok (some (sqrt s.sumSquares))
    | _ => .error .panic

end

/-- **The code** is the pass over the doubles -/
theorem reduceNumericFloatStats_eq (ds : DataSet) (idx : ℕ) {dataType : DataType}
    (hnum : dataType = .int64 ∨ dataType = .float64) (op : ReduceOp) :
    reduceNumericFloatStats ds idx dataType op =
      (floatStats (floatCell (dataType = .int64)) Binary64.sqrt idx ds.rows op).map
        fun out => some (out.elim .null .float64) := by
  unfold reduceNumericFloatStats floatStats
  simp only [if_pos hnum, loop_eq]
  generalize (cells (floatCell (dataType = .int64)) idx ds.rows).foldl FloatStats.observe .start = s
  cases s.any with
  | false => rfl
  | true =>
    cases op with
    | mean => cases s.w.meanOf <;> simp [Except.map]
    | variance kind => rfl
    | stdDev kind => simp [Except.map, Option.elim_map, Function.comp_def]
    | _ => rfl

/-! ## The two-pass definitions -/

section

variable {K : Type} [Field K]

/-- the fewest values that have a variance -/
def fewest : VarianceKind → ℕ
  | .population => 1
  | .sample => 2

/-- what the squared deviations are divided by -/
def divisor (kind : VarianceKind) (n : ℕ) : K :=
  match kind with
  | .population => n
  | .sample => n - 1

def twoPassMean (xs : List K) : Option K := if xs.length < 1 then none else some (mean xs)

def twoPassVariance (kind : VarianceKind) (xs : List K) : Option K :=
  if xs.length < fewest kind then none else some (squaredDeviations xs / divisor kind xs.length)

@[simp] theorem twoPassVariance_nil (kind : VarianceKind) : twoPassVariance kind ([] : List K) = none := by
  cases kind <;> simp [twoPassVariance, fewest]

theorem varianceOf_eq (kind : VarianceKind) (xs : List K) :
    (Welford.mk xs.length (mean xs) (squaredDeviations xs)).varianceOf kind = twoPassVariance kind xs := by
  unfold Welford.varianceOf twoPassVariance
  rcases Nat.eq_zero_or_pos xs.length with hzero | hpos
  · cases kind <;> simp [hzero, fewest]
  · cases kind with
    | population => simp [hpos.ne', fewest, divisor]
    | sample =>
      simp only [hpos.ne', if_false, fewest, divisor]
      rw [Nat.cast_sub hpos, Nat.cast_one]
      rfl

variable [CharZero K]

/-- **One pass** ends with the mean and the squared deviations -/
theorem welford_eq (xs : List K) :
    xs.foldl Welford.observe .default = ⟨xs.length, mean xs, squaredDeviations xs⟩ := by
  induction xs using List.reverseRecOn with
  | nil => simp [Welford.default, mean, squaredDeviations]
  | append_singleton xs x ih =>
    rw [List.foldl_concat, ih, squaredDeviations_concat, mean_concat, List.length_append, List.length_singleton]
    rfl

end

/-! ## The reductions -/

section

variable {K : Type} [Field K] [CharZero K] (read : Value → Option K) (sqrt : K → K) (idx : ℕ) (rows : List Row)

theorem loop_spec : (loop read FloatStats.observe idx .start rows).w =
      ⟨(cells read idx rows).length, mean (cells read idx rows), squaredDeviations (cells read idx rows)⟩ ∧
    (loop read FloatStats.observe idx .start rows).any = !(cells read idx rows).isEmpty := by
  rw [loop_eq, FloatStats.foldl_observe]
  exact ⟨welford_eq _, Bool.false_or _⟩

theorem floatStats_mean : floatStats read sqrt idx rows .mean = .ok (twoPassMean (cells read idx rows)) := by
  obtain ⟨hw, hany⟩ := loop_spec read idx rows
  unfold floatStats twoPassMean
  simp only [hw, hany, Welford.meanOf]
  rcases cells read idx rows with - | ⟨x, xs⟩ <;> simp

theorem floatStats_variance (kind : VarianceKind) :
    floatStats read sqrt idx rows (.variance kind) = .ok (twoPassVariance kind (cells read idx rows)) := by
  obtain ⟨hw, hany⟩ := loop_spec read idx rows
  unfold floatStats
  simp only [hw, hany, varianceOf_eq]
  rcases cells read idx rows with - | ⟨x, xs⟩ <;> simp

theorem floatStats_stdDev (kind : VarianceKind) :
    floatStats read sqrt idx rows (.stdDev kind) = .ok ((twoPassVariance kind (cells read idx rows)).map sqrt) := by
  obtain ⟨hw, hany⟩ := loop_spec read idx rows
  unfold floatStats
  simp only [hw, hany, varianceOf_eq]
  rcases cells read idx rows with - | ⟨x, xs⟩ <;> simp

end

theorem twoPassVariance_eq_none {K : Type} [Field K] {kind : VarianceKind} {xs : List K} :
    twoPassVariance kind xs = none ↔ xs.length < fewest kind := by
  unfold twoPassVariance
  split_ifs with h <;> simp [h]

theorem twoPass_perm {K : Type} [Field K] {xs ys : List K} (h : ys.Perm xs) :
    twoPassMean ys = twoPassMean xs ∧ ∀ kind, twoPassVariance kind ys = twoPassVariance kind xs := by
  simp only [twoPassMean, twoPassVariance, mean_perm h, squaredDeviations_perm h, h.length_eq, implies_true, and_self]

theorem twoPassVariance_nonneg {K : Type} [Field K] [LinearOrder K] [IsStrictOrderedRing K] {kind : VarianceKind}
    {xs : List K} {v : K} (h : twoPassVariance kind xs = some v) : 0 ≤ v := by
  unfold twoPassVariance at h
  split_ifs at h with hfew
  rw [← Option.some.inj h]
  apply div_nonneg (squaredDeviations_nonneg xs)
  cases kind with
  | population => exact Nat.cast_nonneg _
  | sample =>
    have hlength : 1 ≤ xs.length := by
      rw [fewest] at hfew
      omega
    exact sub_nonneg.2 (Nat.one_le_cast.2 hlength)

/-- a row whose cell in the column is no null -/
def notNull (idx : ℕ) (row : Row) : Bool := row[idx]? ≠ some .null

theorem cells_notNull {K : Type} {read : Value → Option K} (hnull : read .null = none) (idx : ℕ) (rows : List Row) :
    cells read idx (rows.filter (notNull idx)) = cells read idx rows := by
  rw [cells, List.filterMap_filter]
  refine List.filterMap_congr fun row _ => ?_
  by_cases h : row[idx]? = some .null
  · simp [notNull, h, hnull]
  · simp [notNull, h]

/-- the reductions that are claimed of -/
inductive IsMoment : ReduceOp → Prop where
  | mean : IsMoment .mean
  | variance (kind : VarianceKind) : IsMoment (.variance kind)
  | stdDev (kind : VarianceKind) : IsMoment (.stdDev kind)

/-- what the reductions of the numbers `xs` of a column are -/
structure TwoPassStatistics {K : Type} [Field K] [LinearOrder K] (read : Value → Option K) (sqrt : K → K) (idx : ℕ)
    (rows : List Row) (xs : List K) : Prop where
  accumulated : (loop read FloatStats.observe idx .start rows).w = ⟨xs.length, xs.sum / xs.length, squaredDeviations xs⟩
  mean : floatStats read sqrt idx rows .mean = .ok (twoPassMean xs)
  variance : ∀ kind, floatStats read sqrt idx rows (.variance kind) = .ok (twoPassVariance kind xs)
  stdDev : ∀ kind, floatStats read sqrt idx rows (.stdDev kind) = .ok ((twoPassVariance kind xs).map sqrt)
  /-- the standard deviation squared, over numbers that have square roots -/
  squared : (∀ x, 0 ≤ x → sqrt x * sqrt x = x) → ∀ kind s, floatStats read sqrt idx rows (.stdDev kind) = .ok (some s) →
    floatStats read sqrt idx rows (.variance kind) = .ok (some (s * s))
  nonneg : ∀ kind v, floatStats read sqrt idx rows (.variance kind) = .ok (some v) → 0 ≤ v
  nullMean : floatStats read sqrt idx rows .mean = .ok none ↔ xs.length = 0
  nullVariance : ∀ kind, floatStats read sqrt idx rows (.variance kind) = .ok none ↔ xs.length < fewest kind
  nullStdDev : ∀ kind, floatStats read sqrt idx rows (.stdDev kind) = .ok none ↔ xs.length < fewest kind
  ordered : ∀ other : List Row, other.Perm rows → ∀ op, IsMoment op →
    floatStats read sqrt idx other op = floatStats read sqrt idx rows op
  nulls : read .null = none → ∀ op, IsMoment op →
    floatStats read sqrt idx (rows.filter (notNull idx)) op = floatStats read sqrt idx rows op

/-- rows with the same numbers in some order have the same statistics -/
theorem floatStats_congr {K : Type} [Field K] [CharZero K] {read : Value → Option K} (sqrt : K → K) {idx : ℕ}
    {rows other : List Row} (h : (cells read idx other).Perm (cells read idx rows)) {op : ReduceOp} (hop : IsMoment op) :
    floatStats read sqrt idx other op = floatStats read sqrt idx rows op := by
  obtain ⟨hmean, hvariance⟩ := twoPass_perm h
  cases hop with
  | mean => rw [floatStats_mean, floatStats_mean, hmean]
  | variance kind => rw [floatStats_variance, floatStats_variance, hvariance]
  | stdDev kind => rw [floatStats_stdDev, floatStats_stdDev, hvariance]

/-- **One pass is two passes** over an ordered field -/
theorem welford_two_pass {K : Type} [Field K] [LinearOrder K] [IsStrictOrderedRing K] (read : Value → Option K)
    (sqrt : K → K) (idx : ℕ) (rows : List Row) : TwoPassStatistics read sqrt idx rows (cells read idx rows) := by
  have hmean := floatStats_mean read sqrt idx rows
  have hvariance := floatStats_variance read sqrt idx rows
  have hstdDev := floatStats_stdDev read sqrt idx rows
  refine ⟨(loop_spec read idx rows).1, hmean, hvariance, hstdDev, ?_, ?_, ?_, ?_, ?_, ?_, ?_⟩
  · intro hsqrt kind s hs
    obtain ⟨v, hv, rfl⟩ := Option.map_eq_some_iff.1 (Except.ok.inj ((hstdDev kind).symm.trans hs))
    rw [hvariance, hv, hsqrt v (twoPassVariance_nonneg hv)]
  · intro kind v hv
    exact twoPassVariance_nonneg (Except.ok.inj ((hvariance kind).symm.trans hv))
  · rw [hmean, Except.ok.injEq, twoPassMean]
    split_ifs with h
    · simpa using h
    · simpa using h
  · intro kind
    rw [hvariance, Except.ok.injEq, twoPassVariance_eq_none]
  · intro kind
    rw [hstdDev, Except.ok.injEq, Option.map_eq_none_iff, twoPassVariance_eq_none]
  · exact fun other hother op hop => floatStats_congr sqrt (cells_perm read idx hother) hop
  · exact fun hnull op hop => floatStats_congr sqrt (by rw [cells_notNull hnull]) hop

/-! ## Exact numbers -/

/-- the exact number of a cell: an infinity or a NaN has none -/
def exactCell (isInt : Bool) : Value → Option ℚ
  | .int64 v => if isInt then some v.toInt else none
  | .float64 v => if isInt then none else v.value
  | _ => none

/-- the statistics of 1, 3 and a null -/
theorem one_and_three_two_pass :
    TwoPassStatistics (exactCell true) id 0 [[.int64 1], [.null], [.int64 3]] [1, 3] :=
  welford_two_pass (exactCell true) id 0 [[.int64 1], [.null], [.int64 3]]

end ExactStatistics
