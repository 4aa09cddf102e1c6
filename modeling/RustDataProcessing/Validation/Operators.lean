/-
The operators that validation asks of the column engine, beside those of `Query`.

- The distinct values of a column of any type are counted (`Counting.distinct`).
- A number is compared with a float as a float, and a NaN is the greatest of them; a null compares to a null.
- `or` is that of three truth values.
- A pattern that does not compile is an error, or makes every cell a null; it is not known here what a pattern means
  (`compile`).
- `checkingEngine_documented`: an engine that keeps the assumptions; its patterns are texts to be found.
-/
import Mathlib.Tactic
import RustDataProcessing.Query

namespace RustDataProcessing.Query

open Polars (BinaryOp Engine PType AnyValue Series PolarsError lit)
open Pipeline (optionCells Plain)
open Ingestion (toAnyValue targetType)

/-! ## Distinct values -/

structure Counting (E : Engine) : Prop extends toQuery : Documented E where
  distinctBool : ∀ bs : List Bool, ∃ t,
    E.aggregate .nUnique .boolean (bs.map .boolean) = .ok (t, E.idxSize bs.toFinset.card)
  distinctText : ∀ ts : List String, ∃ t,
    E.aggregate .nUnique .string (ts.map .string) = .ok (t, E.idxSize ts.toFinset.card)

/-- not a NaN, and not -0 -/
def PlainCell (v : Value) : Prop := ∀ x, v = .float64 x → Plain x

/-- the cells of one type, read off as what they hold -/
theorem exists_typed {dt : DataType} {α : Type} (mk : α → Value) (hmk : ∀ v : Value, v.hasType dt → ∃ a, v = mk a)
    {vs : List Value} (h : ∀ v ∈ vs, v.hasType dt) : ∃ as : List α, vs = as.map mk := by
  obtain ⟨as, has⟩ := Traverse.exists_forall₂_iff.2 fun v hv => hmk v (h v hv)
  refine ⟨as, ?_⟩
  induction has with
  | nil => rfl
  | cons hv _ ih =>
    rw [List.map_cons, ← ih fun v hmem => h v (List.mem_cons_of_mem _ hmem), hv]

theorem card_toFinset_map {α β : Type} [DecidableEq α] [DecidableEq β] {f : α → β} (hf : Function.Injective f)
    (as : List α) : (as.map f).toFinset.card = as.toFinset.card := by
  rw [List.card_toFinset, List.card_toFinset, List.dedup_map_of_injective hf, List.length_map]

/-- **The distinct values of a column** without nulls -/
theorem Counting.distinct {E : Engine} (hE : Counting E) {dt : DataType} {vs : List Value}
    (htyped : ∀ v ∈ vs, v.hasType dt) (hplain : ∀ v ∈ vs, PlainCell v) :
    ∃ t, E.aggregate .nUnique (targetType dt) (vs.map toAnyValue) = .ok (t, E.idxSize vs.toFinset.card) := by
  cases dt with
  | int64 =>
    obtain ⟨ns, rfl⟩ := exists_typed Value.int64 (fun v hv => by cases v <;> first | exact ⟨_, rfl⟩ | cases hv) htyped
    rw [List.map_map, card_toFinset_map (fun _ _ => Value.int64.inj)]
    exact hE.int64.nUnique ns fun _ _ => trivial
  | float64 =>
    obtain ⟨xs, rfl⟩ := exists_typed Value.float64 (fun v hv => by cases v <;> first | exact ⟨_, rfl⟩ | cases hv) htyped
    rw [List.map_map, card_toFinset_map (fun _ _ => Value.float64.inj)]
    exact hE.float64.nUnique xs fun x hx => hplain _ (List.mem_map_of_mem hx) x rfl
  | bool =>
    obtain ⟨bs, rfl⟩ := exists_typed Value.bool (fun v hv => by cases v <;> first | exact ⟨_, rfl⟩ | cases hv) htyped
    rw [List.map_map, card_toFinset_map (fun _ _ => Value.bool.inj)]
    exact hE.distinctBool bs
  | utf8 =>
    obtain ⟨ts, rfl⟩ := exists_typed Value.utf8 (fun v hv => by cases v <;> first | exact ⟨_, rfl⟩ | cases hv) htyped
    rw [List.map_map, card_toFinset_map (fun _ _ => Value.utf8.inj)]
    exact hE.distinctText ts

/-! ## What the operators compute -/

/-- `<` of two floats -/
def totLt (x y : Binary64) : Bool := !x.isNaN && (y.isNaN || x.orderKey < y.orderKey)

def isNumeric : DataType → Bool
  | .int64 => true
  | .float64 => true
  | _ => false

/-- the number in a cell -/
def number : Value → Option Binary64
  | .int64 n => some (.ofInt n.toInt)
  | .float64 x => some x
  | _ => none

def kleeneOr : Option Bool → Option Bool → Option Bool
  | some true, _ => some true
  | _, some true => some true
  | some false, some false => some false
  | _, _ => none

/-- the length of a text, as the engine counts it -/
def lengthOf (t : String) : UInt32 := .ofNat t.length

/-- the cells against a pattern that may not have compiled -/
def matching (pattern : Option (String → Bool)) (t : Option String) : Option Bool := pattern.bind fun m => t.map m

theorem eval_lit (E : Engine) (df : Polars.DataFrame) (t : PType) (v : AnyValue) :
    (lit t v).eval E df = .ok ⟨"literal", t, [v]⟩ := rfl

structure Checking (E : Engine) (compile : String → Option (String → Bool)) : Prop extends
    toCounting : Counting E where
  castText : ∀ dt, E.canCast (targetType dt) .string = true
  less : ∀ name dt (cells : List Value) x, isNumeric dt → (∀ v ∈ cells, v.fits dt) →
    E.binary .lt ⟨name, targetType dt, cells.map toAnyValue⟩ ⟨"literal", .float64, [.float64 x]⟩ =
      .ok ⟨name, .boolean, optionCells .boolean (cells.map fun v => (number v).map (totLt · x))⟩
  greater : ∀ name dt (cells : List Value) x, isNumeric dt → (∀ v ∈ cells, v.fits dt) →
    E.binary .gt ⟨name, targetType dt, cells.map toAnyValue⟩ ⟨"literal", .float64, [.float64 x]⟩ =
      .ok ⟨name, .boolean, optionCells .boolean (cells.map fun v => (number v).map (totLt x))⟩
  shorter : ∀ name (ns : List UInt32) m,
    E.binary .lt ⟨name, .uint32, ns.map .uint32⟩ ⟨"literal", .uint32, [.uint32 m]⟩ =
      .ok ⟨name, .boolean, optionCells .boolean (ns.map fun n => some (decide (n < m)))⟩
  longer : ∀ name (ns : List UInt32) m,
    E.binary .gt ⟨name, .uint32, ns.map .uint32⟩ ⟨"literal", .uint32, [.uint32 m]⟩ =
      .ok ⟨name, .boolean, optionCells .boolean (ns.map fun n => some (decide (m < n)))⟩
  or : ∀ name name' (as bs : List (Option Bool)), as.length = bs.length →
    E.binary .or ⟨name, .boolean, optionCells .boolean as⟩ ⟨name', .boolean, optionCells .boolean bs⟩ =
      .ok ⟨name, .boolean, optionCells .boolean (List.zipWith kleeneOr as bs)⟩
  contains : ∀ name pattern strict (ts : List (Option String)), (compile pattern).isSome ∨ strict = false →
    E.binary (.contains strict) ⟨name, .string, optionCells .string ts⟩ ⟨"literal", .string, [.string pattern]⟩ =
      .ok ⟨name, .boolean, optionCells .boolean (ts.map (matching (compile pattern)))⟩
  lenChars : ∀ name (ts : List (Option String)), E.lenChars ⟨name, .string, optionCells .string ts⟩ =
    .ok ⟨name, .uint32, optionCells .uint32 (ts.map (Option.map lengthOf))⟩
  fillLength : ∀ name (ns : List (Option UInt32)) m,
    E.binary .fillNull ⟨name, .uint32, optionCells .uint32 ns⟩ ⟨"literal", .uint32, [.uint32 m]⟩ =
      .ok ⟨name, .uint32, ns.map fun o => .uint32 (o.getD m)⟩
  /-- a number of rows less another one -/
  subRows : ∀ name name' t t' m n, n ≤ m → m ≤ E.maxRows →
    E.binary .sub ⟨name, t, [E.idxSize m]⟩ ⟨name', t', [E.idxSize n]⟩ = .ok ⟨name, t, [E.idxSize (m - n)]⟩

/-! ## An engine that keeps them -/

def cellNumber : AnyValue → Option Binary64
  | .int64 n => some (.ofInt n.toInt)
  | .float64 x => some x
  | _ => none

def texts (cells : List AnyValue) : List (Option String) := cells.map fun
  | .string t => some t
  | .stringOwned t => some t
  | _ => none

def lengths (cells : List AnyValue) : List (Option UInt32) := cells.map fun
  | .uint32 n => some n
  | _ => none

theorem texts_optionCells (ts : List (Option String)) : texts (optionCells .string ts) = ts := by
  rw [texts, optionCells, List.map_map]
  conv_rhs => rw [← List.map_id ts]
  refine List.map_congr_left fun o _ => ?_
  rcases o with - | t <;> rfl

theorem lengths_optionCells (ns : List (Option UInt32)) : lengths (optionCells .uint32 ns) = ns := by
  rw [lengths, optionCells, List.map_map]
  conv_rhs => rw [← List.map_id ns]
  refine List.map_congr_left fun o _ => ?_
  rcases o with - | n <;> rfl

theorem lengths_map (ns : List UInt32) : lengths (ns.map .uint32) = ns.map some := by
  rw [lengths, List.map_map]
  rfl

/-- a pattern of letters and digits is a text to be found; others are not compiled -/
def findText (pattern : String) : Option (String → Bool) :=
  if pattern.toList.all Char.isAlphanum then some fun t => t.toList.tails.any pattern.toList.isPrefixOf else none

def refused : PolarsError := .other "operator is not supported" []

def plainCompare (less : Binary64 → Binary64 → Bool) (shorter : UInt32 → UInt32 → Bool) (s t : Series) :
    Except PolarsError Series :=
  match t.cells with
  | [.float64 x] => .ok ⟨s.name, .boolean, optionCells .boolean (s.cells.map fun c => (cellNumber c).map (less · x))⟩
  | [.uint32 m] => .ok ⟨s.name, .boolean, optionCells .boolean ((lengths s.cells).map (Option.map (shorter · m)))⟩
  | _ => .error refused

def checkingBinary (op : BinaryOp) (s t : Series) : Except PolarsError Series :=
  match op, s.cells, t.cells with
  | .lt, _, _ => plainCompare totLt (fun n m => n < m) s t
  | .gt, _, _ => plainCompare (fun x y => totLt y x) (fun n m => m < n) s t
  | .or, as, bs => .ok ⟨s.name, .boolean, optionCells .boolean (List.zipWith kleeneOr (booleans as) (booleans bs))⟩
  | .contains strict, cells, [.string pattern] =>
    if (findText pattern).isSome ∨ strict = false then
      .ok ⟨s.name, .boolean, optionCells .boolean ((texts cells).map (matching (findText pattern)))⟩
    else .error refused
  | .fillNull, cells, [.uint32 m] => .ok ⟨s.name, .uint32, (lengths cells).map fun o => .uint32 (o.getD m)⟩
  | .sub, [.uint32 m], [.uint32 n] => .ok ⟨s.name, s.dtype, [.uint32 (m - n)]⟩
  | op, _, _ => plainEngine.binary op s t

def checkingEngine : Engine :=
  { plainEngine with
    aggregate := fun a dtype cells => match a, dtype with
      | .nUnique, .boolean => .ok (.uint32, .uint32 (.ofNat (booleans cells).toFinset.card))
      | .nUnique, .string => .ok (.uint32, .uint32 (.ofNat (texts cells).toFinset.card))
      | _, _ => plainEngine.aggregate a dtype cells
    binary := checkingBinary }

theorem checkingEngine_documented : Documented checkingEngine where
  nonStrict := plainEngine_documented.nonStrict.of_casts rfl rfl
  fewRows := plainEngine_documented.fewRows
  castInt64 := rfl
  castFloat64 := rfl
  idxSize := plainEngine_documented.idxSize
  sumInt64 := plainEngine_documented.sumInt64
  sumFloat64 := plainEngine_documented.sumFloat64
  int64 := ⟨plainEngine_documented.int64.min, plainEngine_documented.int64.max, plainEngine_documented.int64.nUnique⟩
  float64 := ⟨plainEngine_documented.float64.min, plainEngine_documented.float64.max,
    plainEngine_documented.float64.nUnique⟩
  squareNull := rfl
  square := plainEngine_documented.square
  not := plainEngine_documented.not
  sumBoolean := plainEngine_documented.sumBoolean
  isIn := plainEngine_documented.isIn
  isInRefused := plainEngine_documented.isInRefused

theorem checkingEngine_counting : Counting checkingEngine where
  toQuery := checkingEngine_documented
  distinctBool bs := ⟨.uint32, by
    have hcells : booleans (bs.map .boolean) = bs.map some := by rw [booleans, List.map_map]; rfl
    change Except.ok (PType.uint32, AnyValue.uint32 (.ofNat (booleans (bs.map .boolean)).toFinset.card)) = _
    rw [hcells, card_toFinset_map (Option.some_injective _)]
    rfl⟩
  distinctText ts := ⟨.uint32, by
    have hcells : texts (ts.map .string) = ts.map some := by rw [texts, List.map_map]; rfl
    change Except.ok (PType.uint32, AnyValue.uint32 (.ofNat (texts (ts.map .string)).toFinset.card)) = _
    rw [hcells, card_toFinset_map (Option.some_injective _)]
    rfl⟩

theorem cellNumber_toAnyValue (v : Value) : cellNumber (toAnyValue v) = number v := by cases v <;> rfl

theorem plainCompare_number (less : Binary64 → Binary64 → Bool) (shorter : UInt32 → UInt32 → Bool) (name : String)
    (t : PType) (cells : List Value) (x : Binary64) :
    plainCompare less shorter ⟨name, t, cells.map toAnyValue⟩ ⟨"literal", .float64, [.float64 x]⟩ =
      .ok ⟨name, .boolean, optionCells .boolean (cells.map fun v => (number v).map (less · x))⟩ := by
  simp only [plainCompare, List.map_map]
  congr 3
  exact List.map_congr_left fun v _ => by rw [Function.comp_apply, cellNumber_toAnyValue]

theorem plainCompare_length (less : Binary64 → Binary64 → Bool) (shorter : UInt32 → UInt32 → Bool) (name : String)
    (ns : List UInt32) (m : UInt32) :
    plainCompare less shorter ⟨name, .uint32, ns.map .uint32⟩ ⟨"literal", .uint32, [.uint32 m]⟩ =
      .ok ⟨name, .boolean, optionCells .boolean (ns.map fun n => some (shorter n m))⟩ := by
  simp only [plainCompare, lengths_map, List.map_map]
  rfl

theorem checkingEngine_checks : Checking checkingEngine findText where
  toCounting := checkingEngine_counting
  castText dt := by cases dt <;> rfl
  less name dt cells x _ _ := plainCompare_number totLt (fun n m => n < m) name _ cells x
  greater name dt cells x _ _ := plainCompare_number (fun x y => totLt y x) (fun n m => m < n) name _ cells x
  shorter name ns m := plainCompare_length totLt (fun n m => n < m) name ns m
  longer name ns m := plainCompare_length (fun x y => totLt y x) (fun n m => m < n) name ns m
  or name name' as bs _ := by
    change Except.ok (Series.mk name _ (optionCells .boolean (List.zipWith kleeneOr (booleans _) (booleans _)))) = _
    rw [booleans_optionCells, booleans_optionCells]
  contains name pattern strict ts h := by
    change (if _ then Except.ok (Series.mk name _ (optionCells .boolean ((texts _).map _))) else _) = _
    rw [if_pos h, texts_optionCells]
  lenChars name ts := by
    change Except.ok (Series.mk name .uint32 ((optionCells .string ts).map _)) = _
    rw [optionCells, optionCells, List.map_map, List.map_map]
    congr 2
    refine List.map_congr_left fun o _ => ?_
    rcases o with - | t <;> rfl
  fillLength name ns m := by
    change Except.ok (Series.mk name .uint32 ((lengths _).map _)) = _
    rw [lengths_optionCells]
  subRows name name' t t' m n hle _ := by
    change Except.ok (Series.mk name t [.uint32 (.ofNat m - .ofNat n)]) = _
    rw [← UInt32.ofNat_sub hle]
    rfl

end RustDataProcessing.Query
