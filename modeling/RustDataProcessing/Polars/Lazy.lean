/-
The expressions and the lazy plans that the program builds for the column engine.

An expression is evaluated on a frame to a column: a column of the frame, a literal, or an operator applied to columns,
some of which belong to the engine (`Engine`). A selection evaluates a list of expressions and refuses two columns of one
name. A plan is the columns it promises and the frame it computes. A column name is taken literally: names that the engine
would read as patterns, `*` and `^...$`, are left out here; the steps of a plan take account of them (`Pipeline.Steps`).

- `select_column`: a column of a selection holds what its expression computes.
- `select_cells`: a selection of single cells is taken, if no two of them have one name.
-/
import Mathlib.Tactic
import RustDataProcessing.Lib.Traverse
import RustDataProcessing.Polars

namespace RustDataProcessing.Polars

/-! ## Expressions -/

inductive UnaryOp where
  | isNull
  | isNotNull
  | not
  | dropNulls
  | nullCount
  | lenChars
  | cast (target : PType)
  | strictCast (target : PType)
  | pow (exponent : Binary64)
  | sqrt
  | fieldByName (seg : String)

inductive Expr where
  | col (name : String)
  | len
  | lit (s : Series)
  | unary (op : UnaryOp) (e : Expr)
  | aggregate (a : Aggregate) (e : Expr)
  | binary (op : BinaryOp) (l r : Expr)
  | alias (e : Expr) (name : String)

/-- a literal of one cell -/
def lit (dtype : PType) (v : AnyValue) : Expr := .lit ⟨"literal", dtype, [v]⟩

namespace Expr

def isNull (e : Expr) : Expr := .unary .isNull e
def isNotNull (e : Expr) : Expr := .unary .isNotNull e
def not (e : Expr) : Expr := .unary .not e
def dropNulls (e : Expr) : Expr := .unary .dropNulls e
def nullCount (e : Expr) : Expr := .unary .nullCount e
def lenChars (e : Expr) : Expr := .unary .lenChars e
def cast (e : Expr) (target : PType) : Expr := .unary (.cast target) e
def strictCast (e : Expr) (target : PType) : Expr := .unary (.strictCast target) e
def pow (e : Expr) (exponent : Binary64) : Expr := .unary (.pow exponent) e
def sqrt (e : Expr) : Expr := .unary .sqrt e
def fieldByName (e : Expr) (seg : String) : Expr := .unary (.fieldByName seg) e
def sum (e : Expr) : Expr := .aggregate .sum e
def min (e : Expr) : Expr := .aggregate .min e
def max (e : Expr) : Expr := .aggregate .max e
def mean (e : Expr) : Expr := .aggregate .mean e
def median (e : Expr) : Expr := .aggregate .median e
def var (e : Expr) (ddof : ℕ) : Expr := .aggregate (.var ddof) e
def std (e : Expr) (ddof : ℕ) : Expr := .aggregate (.std ddof) e
def nUnique (e : Expr) : Expr := .aggregate .nUnique e
def lt (l r : Expr) : Expr := .binary .lt l r
def gt (l r : Expr) : Expr := .binary .gt l r
def or (l r : Expr) : Expr := .binary .or l r
def sub (l r : Expr) : Expr := .binary .sub l r
def isIn (l r : Expr) (nullsEqual : Bool) : Expr := .binary (.isIn nullsEqual) l r
def contains (l r : Expr) (strict : Bool) : Expr := .binary (.contains strict) l r
def fillNull (l r : Expr) : Expr := .binary .fillNull l r
def quantile (l r : Expr) : Expr := .binary .quantileNearest l r

/-- the name of the column an expression makes -/
def outputName : Expr → String
  | .col name => name
  | .len => "len"
  | .lit s => s.name
  | .unary (.fieldByName seg) _ => seg
  | .unary _ e => e.outputName
  | .aggregate _ e => e.outputName
  | .binary _ l _ => l.outputName
  | .alias _ name => name

end Expr

/-! ## Evaluation -/

/-- a cast that fails where it would lose a value -/
def strictCast (E : Engine) (s : Series) (target : PType) : Except PolarsError Series := do
  let casted ← E.cast s target
  if (s.cells.zip casted.cells).any fun c => !c.1.isNull && c.2.isNull then .error (E.castError s.dtype target)
  else .ok casted

def Engine.unary (E : Engine) (s : Series) : UnaryOp → Except PolarsError Series
  | .isNull => .ok ⟨s.name, .boolean, s.cells.map fun v => .boolean v.isNull⟩
  | .isNotNull => .ok ⟨s.name, .boolean, s.cells.map fun v => .boolean !v.isNull⟩
  | .not => E.not s
  | .dropNulls => .ok { s with cells := s.cells.filter fun v => !v.isNull }
  | .nullCount => .ok ⟨s.name, .other "idx", [E.idxSize (s.cells.countP AnyValue.isNull)]⟩
  | .lenChars => E.lenChars s
  | .cast target => E.cast s target
  | .strictCast target => strictCast E s target
  | .pow exponent => .ok { s with cells := s.cells.map (E.pow exponent) }
  | .sqrt => .ok { s with cells := s.cells.map E.sqrt }
  | .fieldByName seg => s.fieldByName seg

def Expr.eval (E : Engine) (df : DataFrame) : Expr → Except PolarsError Series
  | .col name => df.column name
  | .len => .ok ⟨"len", .other "idx", [E.idxSize df.height]⟩
  | .lit s => .ok s
  | .unary op e => do
    let s ← e.eval E df
    E.unary s op
  | .aggregate a e => do
    let s ← e.eval E df
    let (dtype, v) ← E.aggregate a s.dtype s.cells
    pure ⟨s.name, dtype, [v]⟩
  | .binary op l r => do
    let s ← l.eval E df
    let t ← r.eval E df
    E.binary op s t
  | .alias e name => do
    let s ← e.eval E df
    pure { s with name := name }

section Eval

variable {E : Engine} {df : DataFrame} {e l r : Expr} {s t : Series} {err : PolarsError}

theorem Expr.eval_unary (h : e.eval E df = .ok s) (op : UnaryOp) : (Expr.unary op e).eval E df = E.unary s op := by
  change (e.eval E df >>= _) = _
  rw [h]
  rfl

theorem Expr.eval_unary_error (h : e.eval E df = .error err) (op : UnaryOp) :
    (Expr.unary op e).eval E df = .error err := by
  change (e.eval E df >>= _) = _
  rw [h]
  rfl

theorem Expr.eval_binary (hl : l.eval E df = .ok s) (hr : r.eval E df = .ok t) (op : BinaryOp) :
    (Expr.binary op l r).eval E df = E.binary op s t := by
  change (l.eval E df >>= fun s => r.eval E df >>= fun t => E.binary op s t) = _
  rw [hl]
  change (r.eval E df >>= _) = _
  rw [hr]
  rfl

theorem Expr.eval_binary_error (hl : l.eval E df = .error err) (op : BinaryOp) :
    (Expr.binary op l r).eval E df = .error err := by
  change (l.eval E df >>= _) = _
  rw [hl]
  rfl

theorem Expr.eval_aggregate (h : e.eval E df = .ok s) {a : Aggregate} {dtype : PType} {v : AnyValue}
    (ha : E.aggregate a s.dtype s.cells = .ok (dtype, v)) :
    (Expr.aggregate a e).eval E df = .ok ⟨s.name, dtype, [v]⟩ := by
  change (e.eval E df >>= _) = _
  rw [h]
  change (E.aggregate a s.dtype s.cells >>= _) = _
  rw [ha]
  rfl

theorem Expr.eval_aggregate_error (h : e.eval E df = .error err) (a : Aggregate) :
    (Expr.aggregate a e).eval E df = .error err := by
  change (e.eval E df >>= _) = _
  rw [h]
  rfl

theorem Expr.eval_alias (h : e.eval E df = .ok s) (name : String) :
    (Expr.alias e name).eval E df = .ok { s with name := name } := by
  change (e.eval E df >>= _) = _
  rw [h]
  rfl

theorem Expr.eval_alias_ok {name : String} (h : (Expr.alias e name).eval E df = .ok t) :
    ∃ s, e.eval E df = .ok s ∧ t = { s with name := name } := by
  obtain ⟨s, hs, ht⟩ := Traverse.bind_eq_ok h
  exact ⟨s, hs, (Except.ok.inj ht).symm⟩

end Eval

/-! ### Paths -/

/-- a column of the frame, a member of a path, or a path under another name -/
def Expr.isPath : Expr → Bool
  | .col _ => true
  | .unary (.fieldByName _) e => e.isPath
  | .alias e _ => e.isPath
  | _ => false

/-- a path stands for a column of its name and of the frame's height -/
theorem Expr.eval_path {E : Engine} {df : DataFrame} {e : Expr} {s : Series} (hpath : e.isPath)
    (h : e.eval E df = .ok s) : s.name = e.outputName ∧ s.cells.length = df.height := by
  fun_induction Expr.isPath e generalizing s with
  | case1 name =>
    obtain ⟨hmem, hname⟩ := DataFrame.column_mem h
    exact ⟨hname, df.heights s hmem⟩
  | case2 seg e ih =>
    obtain ⟨c, hc, hs⟩ := Traverse.bind_eq_ok h
    change c.fieldByName seg = .ok s at hs
    unfold Series.fieldByName at hs
    split at hs
    · cases hs
      exact ⟨rfl, (List.length_map ..).trans (ih hpath hc).2⟩
    · cases hs
  | case3 e name ih =>
    obtain ⟨c, hc, rfl⟩ := Expr.eval_alias_ok h
    exact ⟨rfl, (ih hpath hc).2⟩
  | case4 => cases hpath

/-! ## Selections and plans -/

/-- `select` of columns of one height -/
def select (E : Engine) (df : DataFrame) (exprs : List Expr) : Except PolarsError DataFrame := do
  let columns ← exprs.mapM (Expr.eval E df)
  DataFrame.new (columns.head?.elim 0 fun c => c.cells.length) columns

/-- the cells a predicate keeps: those where it is true -/
def keep : List AnyValue → List AnyValue → List AnyValue
  | .boolean true :: mask, c :: cells => c :: keep mask cells
  | _ :: mask, _ :: cells => keep mask cells
  | _, _ => []

/-- the number of rows a predicate keeps -/
def kept : List AnyValue → ℕ
  | [] => 0
  | .boolean true :: mask => kept mask + 1
  | _ :: mask => kept mask

theorem length_keep {mask cells : List AnyValue} (h : cells.length = mask.length) :
    (keep mask cells).length = kept mask := by
  fun_induction keep mask cells with
  | case1 mask c cells ih =>
    rw [List.length_cons, ih (Nat.succ.inj h), kept]
  | case2 v mask c cells hv ih =>
    rw [ih (Nat.succ.inj h), kept]
    exact hv
  | case3 mask cells hnone hsome =>
    rcases mask with - | ⟨v, mask⟩
    · rfl
    · obtain ⟨c, cells, rfl⟩ := List.exists_cons_of_length_eq_add_one h
      exact (hsome v mask c cells rfl rfl).elim

def filter (E : Engine) (df : DataFrame) (predicate : Expr) : Except PolarsError DataFrame := do
  let mask ← predicate.eval E df
  if h : mask.cells.length = df.height then
    .ok ⟨kept mask.cells, df.columns.map fun c => { c with cells := keep mask.cells c.cells }, by
      intro c hc
      obtain ⟨d, hd, rfl⟩ := List.mem_map.1 hc
      exact length_keep ((df.heights d hd).trans h.symm)⟩
  else .error (.other "predicate of another height" [])

/-- `limit(n as IdxSize)` -/
def limit (df : DataFrame) (n : ℕ) : DataFrame where
  height := min (n % 2 ^ 32) df.height
  columns := df.columns.map fun c => { c with cells := c.cells.take (n % 2 ^ 32) }
  heights c hc := by
    obtain ⟨d, hd, rfl⟩ := List.mem_map.1 hc
    exact List.length_take.trans (by rw [df.heights d hd])

/-- a plan: the columns it promises, and the frame it computes -/
structure LazyFrame where
  schema : Except PolarsError (List (String × PType))
  frame : Except PolarsError DataFrame

/-- `df.lazy()` -/
def LazyFrame.ofFrame (df : DataFrame) : LazyFrame := ⟨.ok (df.columns.map fun c => (c.name, c.dtype)), .ok df⟩

def LazyFrame.limit (lf : LazyFrame) (n : ℕ) : LazyFrame := ⟨lf.schema, lf.frame.map fun df => Polars.limit df n⟩

/-! ## What a selection returns -/

theorem column_of_mem {df : DataFrame} (hnames : (df.columns.map Series.name).Nodup) {c : Series}
    (hc : c ∈ df.columns) : df.column c.name = .ok c := by
  have hsome : (df.columns.find? fun d => d.name = c.name).isSome := List.find?_isSome.2 ⟨c, hc, by simp⟩
  obtain ⟨d, hd⟩ := Option.isSome_iff_exists.1 hsome
  have hname : d.name = c.name := by simpa using List.find?_some hd
  have hdc : d = c := List.inj_on_of_nodup_map hnames (List.mem_of_find?_eq_some hd) hc hname
  rw [DataFrame.column, hd, hdc]

section Select

variable {E : Engine} {df out : DataFrame} {exprs : List Expr}

theorem select_ok (h : select E df exprs = .ok out) :
    exprs.mapM (Expr.eval E df) = .ok out.columns ∧ (out.columns.map Series.name).Nodup := by
  obtain ⟨columns, hcols, hnew⟩ := Traverse.bind_eq_ok h
  unfold DataFrame.new at hnew
  split at hnew
  · rename_i hc
    cases hnew
    exact ⟨hcols, hc.1⟩
  · cases hnew

/-- **A column of a selection** is what its expression computes -/
theorem select_column (h : select E df exprs = .ok out) {e : Expr} {name : String} (he : Expr.alias e name ∈ exprs) :
    ∃ s, e.eval E df = .ok s ∧ out.column name = .ok { s with name := name } := by
  obtain ⟨hcols, hnames⟩ := select_ok h
  obtain ⟨c, hc, heval⟩ := Traverse.exists_of_mem (Traverse.mapM_eq_ok_iff.1 hcols) he
  obtain ⟨s, hs, rfl⟩ := Expr.eval_alias_ok heval
  exact ⟨s, hs, column_of_mem hnames hc⟩

/-- the names of aliased expressions -/
theorem eval_names {columns : List Series} (h : exprs.mapM (Expr.eval E df) = .ok columns)
    (halias : ∀ e ∈ exprs, ∃ e' name, e = .alias e' name) :
    columns.map Series.name = exprs.map Expr.outputName := by
  have hcols := Traverse.mapM_eq_ok_iff.1 h
  clear h
  induction hcols with
  | nil => rfl
  | cons heval _ ih =>
    obtain ⟨⟨e', name, rfl⟩, hrest⟩ := List.forall_mem_cons.1 halias
    obtain ⟨s, -, rfl⟩ := Expr.eval_alias_ok heval
    rw [List.map_cons, List.map_cons, ih hrest]
    rfl

/-- single cells of distinct names are taken -/
theorem select_cells (halias : ∀ e ∈ exprs, ∃ e' name, e = .alias e' name) (hnames : (exprs.map Expr.outputName).Nodup)
    (hcells : ∀ e ∈ exprs, ∃ s, e.eval E df = .ok s ∧ s.cells.length = 1) : ∃ out, select E df exprs = .ok out := by
  obtain ⟨columns, hcols, hlength⟩ := Traverse.exists_mapM_and_iff.2 hcells
  rw [← eval_names hcols halias] at hnames
  have hone : ∀ c ∈ columns, c.cells.length = 1 := fun c hc => by
    obtain ⟨e, -, he⟩ := Traverse.exists_of_mem hlength.flip hc
    exact he
  have hheight : ∀ c ∈ columns, c.cells.length = columns.head?.elim 0 fun c => c.cells.length := by
    intro c hc
    rcases columns with - | ⟨d, rest⟩
    · cases hc
    · exact (hone c hc).trans (hone d List.mem_cons_self).symm
  rw [select, hcols]
  exact ⟨_, DataFrame.new_eq hheight hnames⟩

end Select

end RustDataProcessing.Polars
