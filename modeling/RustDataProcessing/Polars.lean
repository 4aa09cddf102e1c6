/-
What the program sees of the column engine (Polars): cells, series and frames, and the conversions it asks for. The
engine itself is not part of the repository. A frame is a list of columns of one height; everything the engine computes
is a parameter (`Engine`), and `NonStrict` states what the program relies on in casts: `Series::cast` works cell by cell,
what it returns has the target's type, and it is not strict, so that a value with no conversion becomes null. The
conversions of scalars are `int64Of` (a float loses its fractional part), `float64Of`, `boolOf` and `stringOf`. The
expressions that are built of the operators, and the lazy plans, are in `Polars.Lazy`.
-/
import Mathlib.Tactic
import RustDataProcessing.Lib.Binary64
import RustDataProcessing.Lib.RustStd
import RustDataProcessing.Types

namespace RustDataProcessing.Polars

/-- `polars::datatypes::DataType` -/
inductive PType where
  | int8 | int16 | int32 | int64
  | uint8 | uint16 | uint32 | uint64
  | float32 | float64
  | boolean
  | string
  | struct (fields : List (String × PType))
  | other (name : String)
deriving Repr

/-- `AnyValue`; a `f32` cell is given by the double of the same value -/
inductive AnyValue where
  | null
  | boolean (v : Bool)
  | string (v : String)
  | stringOwned (v : String)
  | int8 (v : Int8) | int16 (v : Int16) | int32 (v : Int32) | int64 (v : Int64)
  | uint8 (v : UInt8) | uint16 (v : UInt16) | uint32 (v : UInt32) | uint64 (v : UInt64)
  | float32 (v : Binary64) | float64 (v : Binary64)
  | struct (members : List (String × AnyValue))
  | other (text : String)
deriving Repr

namespace AnyValue

def isNull : AnyValue → Bool
  | .null => true
  | _ => false

/-- a null, a number, a boolean or a text -/
def isScalar : AnyValue → Bool
  | .struct _ => false
  | .other _ => false
  | _ => true

/-- the whole number an integer cell holds -/
def integer : AnyValue → Option ℤ
  | .int8 v => some v.toInt
  | .int16 v => some v.toInt
  | .int32 v => some v.toInt
  | .int64 v => some v.toInt
  | .uint8 v => some v.toNat
  | .uint16 v => some v.toNat
  | .uint32 v => some v.toNat
  | .uint64 v => some v.toNat
  | _ => none

def float : AnyValue → Option Binary64
  | .float32 v => some v
  | .float64 v => some v
  | _ => none

/-- the mathematical value of a numeric cell; none for an infinity, a NaN or a cell that is not a number -/
def number (v : AnyValue) : Option ℚ :=
  match v.integer with
  | some n => some n
  | none => v.float.bind Binary64.value

end AnyValue

/-- one error of a source chain: whether it is an `io::Error`, and its text -/
structure ErrorLink where
  isIo : Bool
  text : String
deriving DecidableEq, Repr

structure IoError where
  kind : String
  text : String
deriving DecidableEq, Repr

inductive PolarsError where
  | io (error : IoError)
  | columnNotFound (name text : String)
  | other (text : String) (source : List ErrorLink)
deriving DecidableEq, Repr

def PolarsError.toString : PolarsError → String
  | .io e => e.text
  | .columnNotFound _ text => text
  | .other text _ => text

structure Series where
  name : String
  dtype : PType
  cells : List AnyValue

/-- `Series::get` -/
def Series.get (s : Series) (i : ℕ) : Except PolarsError AnyValue :=
  match s.cells[i]? with
  | some v => .ok v
  | none => .error (.other "index out of bounds" [])

/-- columns of one height -/
structure DataFrame where
  height : ℕ
  columns : List Series
  heights : ∀ c ∈ columns, c.cells.length = height

/-- `DataFrame::column` -/
def DataFrame.column (df : DataFrame) (name : String) : Except PolarsError Series :=
  match df.columns.find? (fun c => c.name = name) with
  | some c => .ok c
  | none => .error (.columnNotFound name name)

theorem DataFrame.column_mem {df : DataFrame} {name : String} {s : Series} (h : df.column name = .ok s) :
    s ∈ df.columns ∧ s.name = name := by
  unfold column at h
  split at h
  · rename_i c hc
    cases h
    exact ⟨List.mem_of_find?_eq_some hc, by simpa using List.find?_some hc⟩
  · cases h

/-- `DataFrame::new`: the names are distinct and the columns have the height -/
def DataFrame.new (height : ℕ) (columns : List Series) : Except PolarsError DataFrame :=
  if h : (columns.map Series.name).Nodup ∧ ∀ c ∈ columns, c.cells.length = height then .ok ⟨height, columns, h.2⟩
  else .error (.other "duplicate column names or unequal heights" [])

theorem DataFrame.new_eq {height : ℕ} {columns : List Series} (heights : ∀ c ∈ columns, c.cells.length = height)
    (h : (columns.map Series.name).Nodup) : new height columns = .ok ⟨height, columns, heights⟩ := dif_pos ⟨h, heights⟩

theorem DataFrame.new_error {height : ℕ} {columns : List Series} (h : ¬(columns.map Series.name).Nodup) :
    ∃ e, new height columns = .error e := ⟨_, dif_neg fun hh => h hh.1⟩

/-! ## Struct fields -/

def PType.members : PType → List (String × PType)
  | .struct fields => fields
  | _ => []

def PType.member (seg : String) (t : PType) : Option PType := t.members.lookup seg

/-- the member of a struct cell; a null struct has null members -/
def AnyValue.member (seg : String) : AnyValue → AnyValue
  | .struct members => (members.lookup seg).getD .null
  | _ => .null

/-- a path of members -/
def PType.follow : List String → PType → Option PType
  | [], t => some t
  | seg :: rest, t => (t.member seg).bind (follow rest)

def AnyValue.follow : List String → AnyValue → AnyValue
  | [], v => v
  | seg :: rest, v => (v.member seg).follow rest

/-- `struct_().field_by_name` on a column -/
def Series.fieldByName (s : Series) (seg : String) : Except PolarsError Series :=
  match s.dtype.member seg with
  | some t => .ok ⟨seg, t, s.cells.map (AnyValue.member seg)⟩
  | none => .error (.other s!"struct field not found: {seg}" [])

/-! ## Casts -/

/-- the texts of floats, and what the engine reads in a text -/
structure TextRules where
  floatText : AnyValue → String
  textInt64 : String → Option Int64
  textFloat64 : String → Option Binary64
  textBool : String → Option Bool

namespace TextRules

variable (T : TextRules)

def int64OfInt (n : ℤ) : Option Int64 :=
  if RustStd.i64Min ≤ n ∧ n ≤ RustStd.i64Max then some (Int64.ofInt n) else none

theorem int64OfInt_toInt {n : ℤ} {k : Int64} (h : int64OfInt n = some k) : k.toInt = n := by
  unfold int64OfInt RustStd.i64Min RustStd.i64Max at h
  split_ifs at h with hr
  cases h
  rw [Int64.toInt_ofInt, Int.bmod_eq_of_le (by norm_num; omega) (by norm_num; omega)]

theorem int64OfInt_self (k : Int64) : int64OfInt k.toInt = some k := by
  rw [int64OfInt, if_pos (RustStd.toInt_bounds k), Int64.ofInt_toInt]

/-- the 64-bit integer a scalar converts to: a whole number in range, a float without its fractional part -/
def int64Of (v : AnyValue) : Option Int64 :=
  match v.integer, v.float, v with
  | some n, _, _ => int64OfInt n
  | none, some x, _ => x.truncate.bind int64OfInt
  | none, none, .boolean b => some (if b then 1 else 0)
  | none, none, .string s => T.textInt64 s
  | none, none, .stringOwned s => T.textInt64 s
  | _, _, _ => none

def float64Of (v : AnyValue) : Option Binary64 :=
  match v.integer, v.float, v with
  | some n, _, _ => some (.ofInt n)
  | none, some x, _ => some x
  | none, none, .boolean b => some (.ofInt (if b then 1 else 0))
  | none, none, .string s => T.textFloat64 s
  | none, none, .stringOwned s => T.textFloat64 s
  | _, _, _ => none

def boolOf (v : AnyValue) : Option Bool :=
  match v.integer, v.float, v with
  | some n, _, _ => some (n ≠ 0)
  | none, some x, _ => some (x.value ≠ some 0)
  | none, none, .boolean b => some b
  | none, none, .string s => T.textBool s
  | none, none, .stringOwned s => T.textBool s
  | _, _, _ => none

def stringOf (v : AnyValue) : Option String :=
  match v.integer, v.float, v with
  | some n, _, _ => some (toString n)
  | none, some _, v => some (T.floatText v)
  | none, none, .boolean b => some (if b then "true" else "false")
  | none, none, .string s => some s
  | none, none, .stringOwned s => some s
  | _, _, _ => none

end TextRules

/-! ## The engine -/

inductive Aggregate where
  | sum
  | min
  | max
  | mean
  | median
  | var (ddof : ℕ)
  | std (ddof : ℕ)
  | nUnique
deriving DecidableEq, Repr

inductive BinaryOp where
  | lt
  | gt
  | or
  | sub
  | isIn (nullsEqual : Bool)
  | contains (strict : Bool)
  | fillNull
  | quantileNearest
deriving DecidableEq, Repr

/-- casts, the operators on columns, and how a cell prints in a message -/
structure Engine extends TextRules where
  canCast : PType → PType → Bool
  castCell : PType → AnyValue → AnyValue
  castError : PType → PType → PolarsError
  display : AnyValue → String
  /-- the most rows a column has -/
  maxRows : ℕ
  /-- a number of rows, as a cell -/
  idxSize : ℕ → AnyValue
  aggregate : Aggregate → PType → List AnyValue → Except PolarsError (PType × AnyValue)
  pow : Binary64 → AnyValue → AnyValue
  sqrt : AnyValue → AnyValue
  not : Series → Except PolarsError Series
  lenChars : Series → Except PolarsError Series
  binary : BinaryOp → Series → Series → Except PolarsError Series

namespace Engine

def cast (E : Engine) (s : Series) (target : PType) : Except PolarsError Series :=
  if E.canCast s.dtype target then .ok ⟨s.name, target, s.cells.map (E.castCell target)⟩
  else .error (E.castError s.dtype target)

/-- the assumptions on casts to the four types the program casts to -/
structure NonStrict (E : Engine) : Prop where
  to_int64 : ∀ v, ∃ o, E.castCell .int64 v = o.elim .null .int64 ∧ (v.isScalar → o = E.int64Of v)
  to_float64 : ∀ v, ∃ o, E.castCell .float64 v = o.elim .null .float64 ∧ (v.isScalar → o = E.float64Of v)
  to_boolean : ∀ v, ∃ o, E.castCell .boolean v = o.elim .null .boolean ∧ (v.isScalar → o = E.boolOf v)
  to_string : ∀ v, ∃ o, E.castCell .string v = o.elim .null .string ∧ (v.isScalar → o = E.stringOf v)

/-- an engine with the casts of another keeps the assumptions on them -/
theorem NonStrict.of_casts {E F : Engine} (h : E.NonStrict) (hcasts : F.castCell = E.castCell)
    (htexts : F.toTextRules = E.toTextRules) : F.NonStrict := by
  obtain ⟨to_int64, to_float64, to_boolean, to_string⟩ := h
  constructor
  · simpa only [hcasts, htexts] using to_int64
  · simpa only [hcasts, htexts] using to_float64
  · simpa only [hcasts, htexts] using to_boolean
  · simpa only [hcasts, htexts] using to_string

/-! ## An engine that keeps them -/

/-- numbers are read as Rust reads them; only whole floats are printed -/
def plainTexts : TextRules where
  floatText v := match v.float.bind Binary64.truncate with
    | some n => s!"{n}.0"
    | none => "NaN"
  textInt64 s := (RustStd.parseI64 s).toOption
  textFloat64 s := (RustStd.parseF64 s).toOption
  textBool s := if s = "true" then some true else if s = "false" then some false else none

def plain : Engine where
  toTextRules := plainTexts
  canCast source _ := match source with
    | .struct _ => false
    | .other _ => false
    | _ => true
  castCell target v :=
    if v.isScalar then match target with
      | .int64 => (plainTexts.int64Of v).elim .null .int64
      | .float64 => (plainTexts.float64Of v).elim .null .float64
      | .boolean => (plainTexts.boolOf v).elim .null .boolean
      | .string => (plainTexts.stringOf v).elim .null .string
      | _ => v
    else .null
  castError _ _ := .other "conversion is not supported" []
  display _ := ""
  maxRows := 2 ^ 32 - 2
  idxSize n := .uint32 (.ofNat n)
  aggregate _ _ _ := .error (.other "aggregate is not supported" [])
  pow _ _ := .null
  sqrt _ := .null
  not _ := .error (.other "operator is not supported" [])
  lenChars _ := .error (.other "operator is not supported" [])
  binary _ _ _ := .error (.other "operator is not supported" [])

theorem plain_nonStrict : plain.NonStrict := by
  have cell : ∀ {α : Type} (mk : α → AnyValue) (o : Option α) (v : AnyValue),
      ∃ o', (if v.isScalar then o.elim AnyValue.null mk else .null) = o'.elim .null mk ∧ (v.isScalar → o' = o) := by
    intro α mk o v
    cases hv : v.isScalar with
    | false => exact ⟨none, rfl, nofun⟩
    | true => exact ⟨o, rfl, fun _ => rfl⟩
  exact ⟨fun v => cell _ _ v, fun v => cell _ _ v, fun v => cell _ _ v, fun v => cell _ _ v⟩

end Engine

end RustDataProcessing.Polars
