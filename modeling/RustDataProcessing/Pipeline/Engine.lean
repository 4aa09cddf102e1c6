/-
What the pipelines assume of the column engine's aggregates.

`Documented` states what the program relies on: sums add the values that are not null, in an order of the engine's own,
and the sum of none is a zero; the minimum and the maximum of none are nulls; the values counted as distinct are numbers
without NaN and -0; a square that is a double is exact. `plainEngine` is an engine that keeps these
(`plainEngine_documented`).
-/
import Mathlib.Tactic
import Mathlib.Data.List.ReduceOption
import RustDataProcessing.Lib.Arithmetic64
import RustDataProcessing.Polars.Lazy

namespace RustDataProcessing.Pipeline

open Polars (Engine Aggregate PType AnyValue Series PolarsError)
open Reduction

/-! ## Assumptions -/

/-- the cells of a column of one type -/
def optionCells {α : Type} (mk : α → AnyValue) (xs : List (Option α)) : List AnyValue := xs.map (·.elim .null mk)

theorem filter_optionCells {α : Type} {mk : α → AnyValue} (hmk : ∀ a, (mk a).isNull = false) (xs : List (Option α)) :
    (optionCells mk xs).filter (fun v => !v.isNull) = xs.reduceOption.map mk := by
  induction xs with
  | nil => rfl
  | cons o xs ih =>
    rcases o with - | a
    · exact ih
    · rw [List.reduceOption_cons_of_some, List.map_cons, ← ih]
      exact List.filter_cons_of_pos (by simp [hmk])

/-- a number that is neither NaN nor -0 -/
def Plain (x : Binary64) : Prop := x.isNaN = false ∧ x ≠ .zero true

instance (x : Binary64) : Decidable (Plain x) := inferInstanceAs (Decidable (_ ∧ _))

/-- minimum, maximum and distinct values of a numeric column -/
structure Ordered (E : Engine) {α : Type} [DecidableEq α] (dtype : PType) (mk : α → AnyValue) (key : α → ℤ)
    (plain : α → Prop) : Prop where
  min : ∀ xs : List (Option α), (∀ x ∈ xs.reduceOption, plain x) → ∃ o, Best key xs.reduceOption o ∧
    E.aggregate .min dtype (optionCells mk xs) = .ok (dtype, o.elim .null mk)
  max : ∀ xs : List (Option α), (∀ x ∈ xs.reduceOption, plain x) → ∃ o, Best (fun x => -key x) xs.reduceOption o ∧
    E.aggregate .max dtype (optionCells mk xs) = .ok (dtype, o.elim .null mk)
  nUnique : ∀ xs : List α, (∀ x ∈ xs, plain x) →
    ∃ t, E.aggregate .nUnique dtype (xs.map mk) = .ok (t, E.idxSize xs.toFinset.card)

structure Documented (E : Engine) : Prop where
  nonStrict : E.NonStrict
  castInt64 : E.canCast .int64 .float64 = true
  castFloat64 : E.canCast .float64 .float64 = true
  idxSize : ∀ n ≤ E.maxRows, (n < 2 ^ 32 ∧ E.idxSize n = .uint32 (.ofNat n)) ∨ E.idxSize n = .uint64 (.ofNat n)
  sumInt64 : ∀ xs : List (Option Int64), ∀ n k, (xs.reduceOption.map Int64.toInt).sum = n →
    Polars.TextRules.int64OfInt n = some k → E.aggregate .sum .int64 (optionCells .int64 xs) = .ok (.int64, .int64 k)
  sumFloat64 : ∀ xs : List (Option Binary64), ∃ s, AddedUp Binary64.add Binary64.isZero xs.reduceOption s ∧
    E.aggregate .sum .float64 (optionCells .float64 xs) = .ok (.float64, .float64 s)
  int64 : Ordered E .int64 .int64 Int64.toInt fun _ => True
  float64 : Ordered E .float64 .float64 Binary64.orderKey Plain
  squareNull : E.pow (.ofInt 2) .null = .null
  square : ∀ x z, Binary64.IsSquare x z → E.pow (.ofInt 2) (.float64 x) = .float64 z

/-! ## An engine that keeps them -/

def int64s (cells : List AnyValue) : List Int64 := cells.filterMap fun
  | .int64 v => some v
  | _ => none

def float64s (cells : List AnyValue) : List Binary64 := cells.filterMap fun
  | .float64 v => some v
  | _ => none

def least {α : Type} (key : α → ℤ) (xs : List α) : Option α :=
  xs.foldl (reduceStep fun a b => if key b < key a then b else a) none

theorem best_least {α : Type} (key : α → ℤ) (xs : List α) : Best key xs (least key xs) := by
  refine best_foldl (S := fun _ => True) ?_ ?_ fun _ _ => trivial
  · intro a b
    split_ifs <;> simp
  · intro a b _ _
    split_ifs <;> omega

/-- the aggregates of the numeric columns -/
def plainAggregate (a : Aggregate) (dtype : PType) (cells : List AnyValue) : Except PolarsError (PType × AnyValue) :=
  match a, dtype with
  | .sum, .int64 => .ok (.int64, .int64 (.ofInt ((int64s cells).map Int64.toInt).sum))
  | .sum, .float64 => .ok (.float64, .float64 ((float64s cells).foldl Binary64.add (.zero false)))
  | .min, .int64 => .ok (.int64, (least Int64.toInt (int64s cells)).elim .null .int64)
  | .max, .int64 => .ok (.int64, (least (fun x => -x.toInt) (int64s cells)).elim .null .int64)
  | .min, .float64 => .ok (.float64, (least Binary64.orderKey (float64s cells)).elim .null .float64)
  | .max, .float64 => .ok (.float64, (least (fun x => -x.orderKey) (float64s cells)).elim .null .float64)
  | .nUnique, .int64 => .ok (.uint32, .uint32 (.ofNat (int64s cells).toFinset.card))
  | .nUnique, .float64 => .ok (.uint32, .uint32 (.ofNat (float64s cells).toFinset.card))
  | _, _ => .error (.other "aggregate is not supported" [])

def plainEngine : Engine :=
  { Engine.plain with
    aggregate := plainAggregate
    pow := fun exponent v => match v with
      | .float64 x => if exponent = .ofInt 2 then .float64 (x.mul x) else .null
      | _ => .null
    sqrt := fun v => match v with
      | .float64 x => .float64 x.sqrt
      | _ => .null }

theorem int64s_optionCells (xs : List (Option Int64)) : int64s (optionCells .int64 xs) = xs.reduceOption := by
  rw [int64s, optionCells, List.filterMap_map, List.reduceOption]
  refine List.filterMap_congr fun o _ => ?_
  rcases o with - | v <;> rfl

theorem float64s_optionCells (xs : List (Option Binary64)) : float64s (optionCells .float64 xs) = xs.reduceOption := by
  rw [float64s, optionCells, List.filterMap_map, List.reduceOption]
  refine List.filterMap_congr fun o _ => ?_
  rcases o with - | v <;> rfl

theorem plainEngine_documented : Documented plainEngine where
  nonStrict := Engine.plain_nonStrict.of_casts rfl rfl
  castInt64 := rfl
  castFloat64 := rfl
  idxSize n hn := Or.inl ⟨by have : n ≤ 2 ^ 32 - 2 := hn; omega, rfl⟩
  sumInt64 xs n k hn hk := by
    change plainAggregate .sum .int64 _ = _
    rw [plainAggregate, int64s_optionCells, hn]
    unfold Polars.TextRules.int64OfInt at hk
    split_ifs at hk
    rw [Option.some.inj hk]
  sumFloat64 xs := by
    have h := (@AddedUp.zero _ Binary64.add _ _ (Binary64.isZero_zero false)).foldl xs.reduceOption
    rw [zero_add] at h
    refine ⟨_, h, ?_⟩
    change plainAggregate .sum .float64 _ = _
    rw [plainAggregate, float64s_optionCells]
  int64 :=
    { min := fun xs _ => ⟨_, best_least _ _, by
        change plainAggregate .min .int64 _ = _
        rw [plainAggregate, int64s_optionCells]⟩
      max := fun xs _ => ⟨_, best_least _ _, by
        change plainAggregate .max .int64 _ = _
        rw [plainAggregate, int64s_optionCells]⟩
      nUnique := fun xs _ => ⟨.uint32, by
        change plainAggregate .nUnique .int64 _ = _
        simp [plainAggregate, int64s, List.filterMap_map, plainEngine, Engine.plain]⟩ }
  float64 :=
    { min := fun xs _ => ⟨_, best_least _ _, by
        change plainAggregate .min .float64 _ = _
        rw [plainAggregate, float64s_optionCells]⟩
      max := fun xs _ => ⟨_, best_least _ _, by
        change plainAggregate .max .float64 _ = _
        rw [plainAggregate, float64s_optionCells]⟩
      nUnique := fun xs _ => ⟨.uint32, by
        change plainAggregate .nUnique .float64 _ = _
        simp [plainAggregate, float64s, List.filterMap_map, plainEngine, Engine.plain]⟩ }
  squareNull := rfl
  square x z h := by
    rw [← Binary64.mul_self_exact h]
    exact if_pos rfl

end RustDataProcessing.Pipeline
