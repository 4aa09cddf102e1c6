/-
What validation and profiling assume of the column engine's operators.

`Documented` states what the program relies on, beside the aggregates (`Pipeline.Documented`): negation works cell by cell
and leaves nulls alone, the sum of a boolean column counts its trues, and `is_in` tests membership in the series it is
given. Its types must be comparable: a column of integers or floats takes a set of integers, a column of booleans or
texts a set of its own type, and any other pair is an error. `plainEngine` is an engine that keeps these
(`plainEngine_documented`).
-/
import Mathlib.Tactic
import RustDataProcessing.Pipeline.Reduce

namespace RustDataProcessing.Query

open Polars (Engine PType AnyValue Series PolarsError)
open Pipeline (optionCells)
open Ingestion (toAnyValue targetType convertCell convertCell_toAnyValue)

/-- `IngestionError::Engine` with the engine's error in a box: the head of a chain -/
def boxed (message : String) : PolarsError → IngestionError
  | .io e => .engine message [⟨false, e.text⟩, ⟨true, e.text⟩]
  | e@(.columnNotFound ..) => .engine message [⟨false, e.toString⟩]
  | e@(.other _ source) => .engine message (⟨false, e.toString⟩ :: source)

/-! ## Assumptions -/

/-- whether a set of the second type may be given for a column of the first -/
def comparable : DataType → DataType → Bool
  | .int64, .int64 => true
  | .float64, .int64 => true
  | .bool, .bool => true
  | .utf8, .utf8 => true
  | _, _ => false

/-- a cell of the column is a member of the set; an integer member of a column of floats counts as a float -/
def sameCell : Value → Value → Bool
  | .float64 x, .int64 n => x.value = (Binary64.ofInt n.toInt).value
  | v, w => v = w

/-- a cell of `is_in`: null for a null -/
def membership (set : List Value) (v : Value) : Option Bool := if v = .null then none else some (set.any (sameCell v))

structure Documented (E : Engine) : Prop extends Pipeline.Documented E where
  fewRows : E.maxRows < 2 ^ 64
  not : ∀ name (bs : List (Option Bool)), E.not ⟨name, .boolean, optionCells .boolean bs⟩ =
    .ok ⟨name, .boolean, optionCells .boolean (bs.map (Option.map Bool.not))⟩
  sumBoolean : ∀ bs : List (Option Bool), ∃ t,
    E.aggregate .sum .boolean (optionCells .boolean bs) = .ok (t, E.idxSize (bs.count (some true)))
  isIn : ∀ name setName dt setType (cells set : List Value), setType ≠ .float64 → comparable dt setType →
    (∀ v ∈ cells, v.fits dt) → (∀ v ∈ set, v.hasType setType) →
    E.binary (.isIn false) ⟨name, targetType dt, cells.map toAnyValue⟩
        ⟨setName, targetType setType, set.map toAnyValue⟩ =
      .ok ⟨name, .boolean, optionCells .boolean (cells.map (membership set))⟩
  isInRefused : ∀ name setName dt setType (cells set : List Value), setType ≠ .float64 → ¬comparable dt setType →
    (∀ v ∈ cells, v.fits dt) → (∀ v ∈ set, v.hasType setType) → ∃ e,
    E.binary (.isIn false) ⟨name, targetType dt, cells.map toAnyValue⟩
      ⟨setName, targetType setType, set.map toAnyValue⟩ = .error e

/-! ## An engine that keeps them -/

def booleans (cells : List AnyValue) : List (Option Bool) := cells.map fun
  | .boolean b => some b
  | _ => none

theorem booleans_optionCells (bs : List (Option Bool)) : booleans (optionCells .boolean bs) = bs := by
  rw [booleans, optionCells, List.map_map]
  conv_rhs => rw [← List.map_id bs]
  refine List.map_congr_left fun o _ => ?_
  rcases o with - | b <;> rfl

/-- the field type of a column of the four types -/
def fieldType : PType → Option DataType
  | .int64 => some .int64
  | .float64 => some .float64
  | .boolean => some .bool
  | .string => some .utf8
  | _ => none

theorem fieldType_targetType (dt : DataType) : fieldType (targetType dt) = some dt := by cases dt <;> rfl

def plainIsIn (s t : Series) : Except PolarsError Series :=
  match fieldType s.dtype, fieldType t.dtype with
  | some dt, some setType =>
    if comparable dt setType then
      .ok ⟨s.name, .boolean, optionCells .boolean (s.cells.map fun c =>
        membership (t.cells.filterMap (convertCell setType)) ((convertCell dt c).getD .null))⟩
    else .error (.other "is_in cannot check these types" [])
  | _, _ => .error (.other "is_in cannot check these types" [])

def plainEngine : Engine :=
  { Pipeline.plainEngine with
    aggregate := fun a dtype cells => match a, dtype with
      | .sum, .boolean => .ok (.uint32, .uint32 (.ofNat ((booleans cells).count (some true))))
      | _, _ => Pipeline.plainAggregate a dtype cells
    not := fun s => match s.dtype with
      | .boolean => .ok ⟨s.name, .boolean, optionCells .boolean ((booleans s.cells).map (Option.map Bool.not))⟩
      | _ => .error (.other "operator is not supported" [])
    lenChars := fun s => match s.dtype with
      | .string => .ok ⟨s.name, .uint32, s.cells.map fun
        | .string t => .uint32 (.ofNat t.length)
        | .stringOwned t => .uint32 (.ofNat t.length)
        | _ => .null⟩
      | _ => .error (.other "operator is not supported" [])
    binary := fun op s t => match op with
      | .isIn _ => plainIsIn s t
      | _ => .error (.other "operator is not supported" []) }

theorem plainEngine_documented : Documented plainEngine where
  nonStrict := Engine.plain_nonStrict.of_casts rfl rfl
  fewRows := by decide
  castInt64 := rfl
  castFloat64 := rfl
  idxSize := Pipeline.plainEngine_documented.idxSize
  sumInt64 := Pipeline.plainEngine_documented.sumInt64
  sumFloat64 := Pipeline.plainEngine_documented.sumFloat64
  int64 := ⟨Pipeline.plainEngine_documented.int64.min, Pipeline.plainEngine_documented.int64.max,
    Pipeline.plainEngine_documented.int64.nUnique⟩
  float64 := ⟨Pipeline.plainEngine_documented.float64.min, Pipeline.plainEngine_documented.float64.max,
    Pipeline.plainEngine_documented.float64.nUnique⟩
  squareNull := rfl
  square := Pipeline.plainEngine_documented.square
  not name bs := by
    change Except.ok (ε := PolarsError) (Series.mk name _ (optionCells .boolean _)) = _
    rw [booleans_optionCells]
  sumBoolean bs := ⟨.uint32, by
    change Except.ok (ε := PolarsError) (PType.uint32, AnyValue.uint32 _) = _
    rw [booleans_optionCells]
    rfl⟩
  isIn name setName dt setType cells set _ hcmp hcells hset := by
    change plainIsIn _ _ = _
    have hmem : (set.map toAnyValue).filterMap (convertCell setType) = set := by
      rw [List.filterMap_map]
      exact (List.filterMap_congr fun v hv => convertCell_toAnyValue (Or.inr (hset v hv))).trans List.filterMap_some
    rw [plainIsIn, fieldType_targetType, fieldType_targetType]
    simp only [hcmp, if_true, hmem, List.map_map]
    congr 3
    refine List.map_congr_left fun v hv => ?_
    simp only [Function.comp_apply, convertCell_toAnyValue (hcells v hv), Option.getD_some]
  isInRefused name setName dt setType cells set _ hcmp _ _ := by
    change ∃ e, plainIsIn _ _ = .error e
    rw [plainIsIn, fieldType_targetType, fieldType_targetType]
    exact ⟨_, if_neg hcmp⟩

end RustDataProcessing.Query
