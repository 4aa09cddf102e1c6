/-
Validation (`src/validation/mod.rs`). Every check of a specification is compiled to an expression that counts the rows
that fail it; one selection computes all the counts, and a report says how many rows failed each check, with examples.

The set of an `InSet` check becomes a series of the type of its first value (`values_to_series`), and values of other
types are dropped; a set that begins with a null or a float becomes an empty series of texts. The comment there says
that all values are enforced to be of one primitive type, but nothing is refused. The column names of the checks are no
patterns of the engine's (`*` or `^...$`), which `Polars.Lazy` takes literally.

- `examples_are_failures`: the examples are rows the count counts.
- `report_summary`: the summary of a report is the one of its results.
- `inSet_exact_iff`: the check counts the rows outside its set, for every order of the values, exactly when the values
  are integers, booleans or texts alone, or every one of them makes a set that the column's type refuses.
- `null_empties_the_set`: with a null first, a row whose text is listed fails.
-/
import Mathlib.Tactic
import RustDataProcessing.Lib.Display
import RustDataProcessing.Query

namespace RustDataProcessing.Validation

open Polars (Engine Expr LazyFrame PType AnyValue Series PolarsError)
open Query (plainEngine boxed comparable sameCell membership)
open Pipeline (optionCells)
open Ingestion (toAnyValue targetType rowCell datasetFrame datasetSeries Loadable)
open RustStd (displayF64)

/-! ## The source -/

inductive Severity where
  | info
  | warn
  | error
deriving DecidableEq, Repr

/-- the derived order of the enumeration -/
def Severity.rank : Severity → ℕ
  | .info => 0
  | .warn => 1
  | .error => 2

def Severity.max (s t : Severity) : Severity := if s.rank ≤ t.rank then t else s

inductive Check where
  | notNull (column : String) (severity : Severity)
  | rangeF64 (column : String) (min max : Binary64) (severity : Severity)
  | regexMatch (column pattern : String) (severity : Severity) (strict : Bool)
  | inSet (column : String) (values : List Value) (severity : Severity)
  | unique (column : String) (severity : Severity)
  | utf8LenCharsBetween (column : String) (minChars maxChars : UInt32) (severity : Severity)

structure ValidationSpec where
  checks : List Check
  maxExamples : ℕ

def ValidationSpec.new (checks : List Check) : ValidationSpec := ⟨checks, 5⟩

structure ValidationSummary where
  totalChecks : ℕ
  failedChecks : ℕ
  maxSeverity : Option Severity

structure CheckResult where
  check : Check
  failedCount : ℕ
  examples : List Value
  message : String

structure ValidationReport where
  results : List CheckResult
  summary : ValidationSummary

def failCountColName (i : ℕ) : String := s!"__fail_{i}"

def severityOf : Check → Severity
  | .notNull _ severity => severity
  | .rangeF64 _ _ _ severity => severity
  | .regexMatch _ _ severity _ => severity
  | .inSet _ _ severity => severity
  | .unique _ severity => severity
  | .utf8LenCharsBetween _ _ _ severity => severity

def defaultMessage (chk : Check) (failed : ℕ) : String :=
  match chk with
  | .notNull column _ => s!"column '{column}' has {failed} null(s)"
  | .rangeF64 column min max _ =>
    s!"column '{column}' has {failed} value(s) outside [{displayF64 min}, {displayF64 max}]"
  | .regexMatch column pattern _ _ => s!"column '{column}' has {failed} value(s) not matching /{pattern}/"
  | .inSet column _ _ => s!"column '{column}' has {failed} value(s) not in set"
  | .unique column _ => s!"column '{column}' has {failed} duplicate(s) among non-null values"
  | .utf8LenCharsBetween column minChars maxChars _ =>
    s!"column '{column}' has {failed} value(s) whose UTF-8 length is outside [{minChars.toNat}, {maxChars.toNat}] " ++
      "Unicode scalars"

/-- the `if let` of the loops: the values of one type -/
def pushTyped (dt : DataType) (values : List Value) : Series :=
  ⟨"set", targetType dt, (values.filter fun x => x.hasType dt).map toAnyValue⟩

def valuesToSeries (values : List Value) : Series :=
  match values with
  | [] => ⟨"set", .int64, []⟩
  | .int64 _ :: _ => pushTyped .int64 values
  | .bool _ :: _ => pushTyped .bool values
  | .utf8 _ :: _ => pushTyped .utf8 values
  | .float64 _ :: _ => ⟨"set", .string, []⟩
  | .null :: _ => ⟨"set", .string, []⟩

def failCountExpr : Check → Expr
  | .notNull column _ => (Expr.col column).isNull.sum
  | .rangeF64 column min max _ =>
    (((Expr.col column).lt (Polars.lit .float64 (.float64 min))).or
      ((Expr.col column).gt (Polars.lit .float64 (.float64 max)))).sum
  | .regexMatch column pattern _ strict =>
    (((Expr.col column).cast .string).contains (Polars.lit .string (.string pattern)) strict).not.sum
  | .inSet column values _ =>
    let setExpr := Expr.lit (valuesToSeries values)
    ((Expr.col column).isIn setExpr false).not.sum
  | .unique column _ =>
    let nonNull := (Expr.col column).isNotNull.sum
    let unique := (Expr.col column).dropNulls.nUnique
    .alias (nonNull.sub unique) "__dup"
  | .utf8LenCharsBetween column minChars maxChars _ =>
    let chars := ((Expr.col column).cast .string).lenChars.fillNull (Polars.lit .uint32 (.uint32 0))
    ((chars.lt (Polars.lit .uint32 (.uint32 minChars))).or (chars.gt (Polars.lit .uint32 (.uint32 maxChars)))).sum

def seriesToUsize (E : Engine) (s : Series) : IngestionResult (Option ℕ) := do
  let av ← (s.get 0).mapError fun e => .error (boxed "failed to read validation value" e)
  match av with
  | .null => pure none
  | .int64 v => pure (some (max v.toInt 0).toNat)
  | .uint64 v => pure (some v.toNat)
  | .int32 v => pure (some (max v.toInt 0).toNat)
  | .uint32 v => pure (some v.toNat)
  | other => .error (.schemaMismatch s!"expected integer-like validation value, got {E.display other}")

def anyToValue (E : Engine) : AnyValue → Value
  | .null => .null
  | .boolean b => .bool b
  | .int64 i => .int64 i
  | .float64 x => .float64 x
  | .string s => .utf8 s
  | .stringOwned s => .utf8 s
  | other => .utf8 (E.display other)

/-- the column and the predicate of `collect_examples`; none for the check without examples -/
def examplePredicate : Check → Option (String × Expr)
  | .notNull column _ => some (column, (Expr.col column).isNull)
  | .rangeF64 column min max _ =>
    some (column, ((Expr.col column).lt (Polars.lit .float64 (.float64 min))).or
      ((Expr.col column).gt (Polars.lit .float64 (.float64 max))))
  | .regexMatch column pattern _ strict =>
    some (column, (((Expr.col column).cast .string).contains (Polars.lit .string (.string pattern)) strict).not)
  | .inSet column values _ => some (column, ((Expr.col column).isIn (.lit (valuesToSeries values)) false).not)
  | .unique _ _ => none
  | .utf8LenCharsBetween column minChars maxChars _ =>
    let chars := ((Expr.col column).cast .string).lenChars.fillNull (Polars.lit .uint32 (.uint32 0))
    some (column, (chars.lt (Polars.lit .uint32 (.uint32 minChars))).or (chars.gt (Polars.lit .uint32 (.uint32 maxChars))))

def collectExamples (E : Engine) (df : LazyFrame) (chk : Check) (maxExamples : ℕ) : IngestionResult (List Value) :=
  match examplePredicate chk with
  | none => .ok []
  | some (colName, predicate) => do
    let out ← (do
      let frame ← df.frame
      let failing ← Polars.filter E frame predicate
      let column ← Polars.select E failing [.col colName]
      pure (Polars.limit column maxExamples)).mapError
        fun e => .error (polarsErrorToIngestion "failed to collect validation examples" e)
    let s ← (out.column colName).mapError
      fun e => .error (polarsErrorToIngestion "missing validation example column" e)
    (List.range (min maxExamples s.cells.length)).mapM fun i => do
      let v ← (s.get i).mapError fun e => .error (boxed "failed to read validation example" e)
      pure (anyToValue E v)

/-- `unwrap_or_default()`, on a call that may panic -/
def unwrapOrDefault {α : Type} : IngestionResult (List α) → IngestionResult (List α)
  | .error (.error _) => .ok []
  | x => x

/-- one check of the second loop -/
def checkResult (E : Engine) (df : LazyFrame) (maxExamples : ℕ) (agg : Polars.DataFrame) (c : Check × ℕ) :
    IngestionResult CheckResult := do
  let col ← (agg.column (failCountColName c.2)).mapError
    fun e => .error (polarsErrorToIngestion "validation missing agg column" e)
  let failedCount := (← seriesToUsize E col).getD 0
  let examples ← (if 0 < failedCount ∧ 0 < maxExamples then unwrapOrDefault (collectExamples E df c.1 maxExamples)
    else pure [])
  pure ⟨c.1, failedCount, examples, defaultMessage c.1 failedCount⟩

/-- `results`, `failed_checks` and `max_sev` -/
structure Progress where
  results : List CheckResult
  failedChecks : ℕ
  maxSev : Option Severity

def Progress.start : Progress := ⟨[], 0, none⟩

def Progress.push (p : Progress) (r : CheckResult) : Progress where
  results := p.results ++ [r]
  failedChecks := if 0 < r.failedCount then p.failedChecks + 1 else p.failedChecks
  maxSev := if 0 < r.failedCount then
    some (p.maxSev.elim (severityOf r.check) fun s => s.max (severityOf r.check)) else p.maxSev

def runChecks (E : Engine) (df : LazyFrame) (maxExamples : ℕ) (agg : Polars.DataFrame) :
    List (Check × ℕ) → Progress → IngestionResult Progress
  | [], p => .ok p
  | c :: rest, p => do
    let r ← checkResult E df maxExamples agg c
    runChecks E df maxExamples agg rest (p.push r)

def countExprs (spec : ValidationSpec) : List Expr :=
  spec.checks.zipIdx.map fun c => .alias (failCountExpr c.1) (failCountColName c.2)

def validateFrame (E : Engine) (df : LazyFrame) (spec : ValidationSpec) : IngestionResult ValidationReport :=
  if spec.checks.isEmpty then .ok ⟨[], 0, 0, none⟩
  else do
    let agg ← (df.frame >>= fun frame => Polars.select E frame (countExprs spec)).mapError
      fun e => .error (polarsErrorToIngestion "failed to compute validation counts" e)
    let p ← runChecks E df spec.maxExamples agg spec.checks.zipIdx .start
    pure ⟨p.results, spec.checks.length, p.failedChecks, p.maxSev⟩

def validateDataset (E : Engine) (ds : DataSet) (spec : ValidationSpec) : IngestionResult ValidationReport := do
  let df ← Pipeline.DataFrame.fromDataset E ds
  validateFrame E df spec

/-! ## What a report says -/

/-- the examples of a check are rows that its count counts -/
theorem examples_are_failures {chk : Check} {colName : String} {predicate : Expr}
    (h : examplePredicate chk = some (colName, predicate)) : failCountExpr chk = predicate.sum := by
  cases chk <;> cases h <;> rfl

section Loop

variable {E : Engine} {df : LazyFrame} {maxExamples : ℕ} {agg : Polars.DataFrame}

theorem checkResult_ok {c : Check × ℕ} {r : CheckResult} (h : checkResult E df maxExamples agg c = .ok r) :
    ∃ col, agg.column (failCountColName c.2) = .ok col ∧ r.check = c.1 ∧
      ∃ o, seriesToUsize E col = .ok o ∧ r.failedCount = o.getD 0 := by
  obtain ⟨col, hcol, h⟩ := Traverse.bind_eq_ok h
  obtain ⟨o, ho, h⟩ := Traverse.bind_eq_ok h
  obtain ⟨examples, -, h⟩ := Traverse.bind_eq_ok h
  obtain rfl := Except.ok.inj h
  exact ⟨col, Traverse.ok_of_mapError hcol, rfl, o, ho, rfl⟩

theorem map_check {cs : List (Check × ℕ)} {rs : List CheckResult}
    (h : List.Forall₂ (fun c r => checkResult E df maxExamples agg c = .ok r) cs rs) :
    rs.map CheckResult.check = cs.map Prod.fst := by
  induction h with
  | nil => rfl
  | cons hr _ ih =>
    obtain ⟨-, -, hcheck, -⟩ := checkResult_ok hr
    rw [List.map_cons, List.map_cons, hcheck, ih]

/-- the loop pushes one result a check -/
theorem runChecks_ok {cs : List (Check × ℕ)} {p q : Progress} (h : runChecks E df maxExamples agg cs p = .ok q) :
    ∃ rs, List.Forall₂ (fun c r => checkResult E df maxExamples agg c = .ok r) cs rs ∧ q = rs.foldl Progress.push p := by
  induction cs generalizing p with
  | nil => exact ⟨[], .nil, (Except.ok.inj h).symm⟩
  | cons c cs ih =>
    obtain ⟨r, hr, h⟩ := Traverse.bind_eq_ok h
    obtain ⟨rs, hrs, hq⟩ := ih h
    exact ⟨r :: rs, .cons hr hrs, hq⟩

theorem foldl_push_results (rs : List CheckResult) (p : Progress) :
    (rs.foldl Progress.push p).results = p.results ++ rs := by
  induction rs generalizing p with
  | nil => exact (List.append_nil _).symm
  | cons r rs ih => rw [List.foldl_cons, ih, Progress.push, List.append_assoc, List.singleton_append]

/-- a report's row on a check is what the loop has made of it -/
theorem result_of_check {checks : List Check} {p : Progress}
    (h : runChecks E df maxExamples agg checks.zipIdx .start = .ok p) {i : ℕ} {check : Check} (hi : checks[i]? = some check) :
    ∃ r, p.results[i]? = some r ∧ checkResult E df maxExamples agg (check, i) = .ok r := by
  obtain ⟨rs, hrs, rfl⟩ := runChecks_ok h
  have hzip : checks.zipIdx[i]? = some (check, i) := by
    rw [List.getElem?_zipIdx, hi, Nat.zero_add]
    rfl
  obtain ⟨r, hr, hresult⟩ := Traverse.exists_of_getElem? hrs hzip
  exact ⟨r, by rw [foldl_push_results]; exact hr, hresult⟩

end Loop

/-- the counts and the severity of the summary are those of the results so far -/
structure Progress.Summed (p : Progress) : Prop where
  failed : p.failedChecks = p.results.countP fun r => 0 < r.failedCount
  covers : ∀ r ∈ p.results, 0 < r.failedCount → ∃ s, p.maxSev = some s ∧ (severityOf r.check).rank ≤ s.rank
  reached : ∀ s, p.maxSev = some s → ∃ r ∈ p.results, 0 < r.failedCount ∧ severityOf r.check = s

theorem Severity.le_max (s t : Severity) : s.rank ≤ (s.max t).rank ∧ t.rank ≤ (s.max t).rank := by
  unfold Severity.max
  split_ifs <;> omega

theorem Severity.max_eq (s t : Severity) : s.max t = s ∨ s.max t = t := by
  unfold Severity.max
  split_ifs <;> simp

theorem Progress.Summed.push {p : Progress} (h : p.Summed) (r : CheckResult) : (p.push r).Summed := by
  obtain ⟨results, failedChecks, maxSev⟩ := p
  by_cases hr : 0 < r.failedCount
  · refine ⟨?_, fun r' hr' hpos => ?_, fun s hs => ?_⟩
    · have hfailed := h.failed
      simp [Progress.push, hr, List.countP_append] at hfailed ⊢
      exact hfailed
    · refine ⟨maxSev.elim (severityOf r.check) fun s => s.max (severityOf r.check), by simp [Progress.push, hr], ?_⟩
      rcases List.mem_append.1 hr' with hr' | hr'
      · obtain ⟨s, hs, hle⟩ := h.covers r' hr' hpos
        change maxSev = some s at hs
        rw [hs]
        exact hle.trans (s.le_max _).1
      · obtain rfl := List.mem_singleton.1 hr'
        cases maxSev with
        | none => exact le_rfl
        | some s => exact (s.le_max _).2
    · have hs : maxSev.elim (severityOf r.check) (fun s => s.max (severityOf r.check)) = s := by
        simpa [Progress.push, hr] using hs
      have hlast : ∃ r' ∈ results ++ [r], 0 < r'.failedCount ∧ severityOf r'.check = severityOf r.check :=
        ⟨r, by simp, hr, rfl⟩
      cases maxSev with
      | none => exact hs ▸ hlast
      | some t =>
        rcases t.max_eq (severityOf r.check) with heq | heq
        · obtain ⟨r', hr', hpos, hsev⟩ := h.reached t rfl
          exact ⟨r', List.mem_append_left _ hr', hpos, hsev.trans (heq.symm.trans hs)⟩
        · exact heq.symm.trans hs ▸ hlast
  · refine ⟨?_, fun r' hr' hpos => ?_, fun s hs => ?_⟩
    · have hfailed := h.failed
      simp [Progress.push, hr, List.countP_append] at hfailed ⊢
      exact hfailed
    · rcases List.mem_append.1 hr' with hr' | hr'
      · obtain ⟨s, hs, hle⟩ := h.covers r' hr' hpos
        exact ⟨s, by simpa [Progress.push, hr] using hs, hle⟩
      · exact absurd (List.mem_singleton.1 hr' ▸ hpos) hr
    · obtain ⟨r', hr', hpos, hsev⟩ := h.reached s (by simpa [Progress.push, hr] using hs)
      exact ⟨r', List.mem_append_left _ hr', hpos, hsev⟩

theorem Progress.Summed.foldl {p : Progress} (h : p.Summed) (rs : List CheckResult) :
    (rs.foldl Progress.push p).Summed := by
  induction rs generalizing p with
  | nil => exact h
  | cons r rs ih => exact ih (h.push r)

section Report

variable {E : Engine} {df : LazyFrame} {spec : ValidationSpec} {report : ValidationReport}

theorem validateFrame_ok (h : validateFrame E df spec = .ok report) (hne : spec.checks ≠ []) :
    ∃ agg p, (df.frame >>= fun frame => Polars.select E frame (countExprs spec)) = .ok agg ∧
      runChecks E df spec.maxExamples agg spec.checks.zipIdx .start = .ok p ∧
      report = ⟨p.results, spec.checks.length, p.failedChecks, p.maxSev⟩ := by
  unfold validateFrame at h
  rw [if_neg (by simpa using hne)] at h
  obtain ⟨agg, hagg, h⟩ := Traverse.bind_eq_ok h
  obtain ⟨p, hp, h⟩ := Traverse.bind_eq_ok h
  exact ⟨agg, p, Traverse.ok_of_mapError hagg, hp, (Except.ok.inj h).symm⟩

/-- **The summary of a report** is the one of its results, of which there is one for each check -/
theorem report_summary (h : validateFrame E df spec = .ok report) :
    report.results.map CheckResult.check = spec.checks ∧ report.summary.totalChecks = report.results.length ∧
      (Progress.mk report.results report.summary.failedChecks report.summary.maxSeverity).Summed := by
  by_cases hne : spec.checks = []
  · unfold validateFrame at h
    rw [if_pos (by simp [hne])] at h
    obtain rfl := Except.ok.inj h
    exact ⟨hne.symm, rfl, rfl, nofun, nofun⟩
  · obtain ⟨agg, p, -, hp, rfl⟩ := validateFrame_ok h hne
    obtain ⟨rs, hrs, rfl⟩ := runChecks_ok hp
    have hresults : (rs.foldl Progress.push .start).results = rs := foldl_push_results rs .start
    have hchecks : rs.map CheckResult.check = spec.checks := by
      rw [← List.zipIdx_map_fst 0 spec.checks]
      exact map_check hrs
    have hlen := hrs.length_eq
    refine ⟨by rwa [hresults], ?_, Progress.Summed.foldl (p := .start) ⟨rfl, nofun, nofun⟩ rs⟩
    rw [hresults, ← hlen, List.length_zipIdx]

end Report

/-! ## The set of a check -/

/-- the type of the set a value makes when it comes first -/
def setType : Value → DataType
  | .int64 _ => .int64
  | .bool _ => .bool
  | _ => .utf8

/-- the type of `values_to_series` -/
def listType (values : List Value) : DataType := values.head?.elim .int64 setType

/-- the values that reach the set -/
def members (values : List Value) : List Value :=
  match values with
  | .null :: _ => []
  | .float64 _ :: _ => []
  | values => values.filter fun v => v.hasType (listType values)

theorem valuesToSeries_eq (values : List Value) :
    valuesToSeries values = ⟨"set", targetType (listType values), (members values).map toAnyValue⟩ := by
  rcases values with - | ⟨v, values⟩
  · rfl
  · cases v <;> rfl

theorem listType_ne (values : List Value) : listType values ≠ .float64 := by
  rcases values with - | ⟨v, values⟩
  · nofun
  · cases v <;> nofun

theorem hasType_of_mem_members {values : List Value} {v : Value} (h : v ∈ members values) :
    v.hasType (listType values) = true := by
  unfold members at h
  split at h
  · cases h
  · cases h
  · exact (List.mem_filter.1 h).2

theorem toAnyValue_injective : Function.Injective toAnyValue := by
  intro v w h
  cases v <;> cases w <;> simp_all [toAnyValue]

/-- integers alone, booleans alone or texts alone -/
def Uniform (values : List Value) : Prop := ∃ dt, dt ≠ .float64 ∧ ∀ v ∈ values, v.hasType dt = true

theorem Uniform.perm {values ws : List Value} (h : Uniform values) (hperm : ws.Perm values) : Uniform ws :=
  h.imp fun _ hdt => ⟨hdt.1, fun v hv => hdt.2 v (hperm.mem_iff.1 hv)⟩

theorem setType_eq {v : Value} {dt : DataType} (h : v.hasType dt = true) (hdt : dt ≠ .float64) : setType v = dt := by
  cases v <;> cases dt <;> first | exact absurd rfl hdt | rfl | cases h

/-- the set holds the values it was given when they are uniform -/
theorem members_eq_iff (values : List Value) : members values = values ↔ Uniform values := by
  rcases values with - | ⟨v, values⟩
  · exact ⟨fun _ => ⟨.int64, nofun, nofun⟩, fun _ => rfl⟩
  · constructor
    · intro h
      refine ⟨listType (v :: values), listType_ne _, fun w hw => ?_⟩
      rw [← h] at hw
      exact hasType_of_mem_members hw
    · rintro ⟨dt, hdt, htyped⟩
      have hhead := htyped v List.mem_cons_self
      have hlist : listType (v :: values) = dt := setType_eq hhead hdt
      have hfilter : (v :: values).filter (fun w => w.hasType (listType (v :: values))) = v :: values :=
        List.filter_eq_self.2 fun w hw => by rw [hlist]; exact htyped w hw
      cases v with
      | null => cases hhead
      | float64 x => cases dt <;> first | exact absurd rfl hdt | cases hhead
      | int64 n => exact hfilter
      | bool b => exact hfilter
      | utf8 t => exact hfilter

/-! ## The rows a check counts -/

/-- a value that is not null and not one of the given ones -/
def outside (values : List Value) (v : Value) : Bool := v ≠ .null && !values.any (sameCell v)

theorem count_outside (set cells : List Value) :
    ((cells.map (membership set)).map (Option.map Bool.not)).count (some true) = cells.countP (outside set) := by
  rw [List.map_map, List.count, List.countP_map]
  refine List.countP_congr fun v _ => ?_
  by_cases hv : v = .null
  · simp [membership, outside, hv]
  · simp [membership, outside, hv]

section Count

variable {E : Engine} (hE : Query.Documented E) {ds : DataSet} (hload : Loadable E.maxRows ds) {column : String} {idx : ℕ}
  {field : Field} (hidx : ds.schema.indexOf column = some idx) (hfield : ds.schema.fields[idx]? = some field)
include hE

theorem seriesToUsize_idxSize {n : ℕ} (hn : n ≤ E.maxRows) (name : String) (t : PType) :
    seriesToUsize E ⟨name, t, [E.idxSize n]⟩ = .ok (some n) := by
  have hlt := lt_of_le_of_lt hn hE.fewRows
  rcases hE.idxSize n hn with ⟨h32, h⟩ | h
  · have hcount : (UInt32.ofNat n).toNat = n := UInt32.toNat_ofNat_of_lt' h32
    simp [seriesToUsize, Series.get, Except.mapError, bind, Except.bind, h, pure, Except.pure, hcount]
  · have hcount : (UInt64.ofNat n).toNat = n := UInt64.toNat_ofNat_of_lt' hlt
    simp [seriesToUsize, Series.get, Except.mapError, bind, Except.bind, h, pure, Except.pure, hcount]

include hload hidx hfield

/-- **What an `InSet` check computes**: the number of rows outside its set, unless the column's type refuses the set -/
theorem eval_inSet (values : List Value) (severity : Severity) :
    ∃ t, Traverse.Returns ((failCountExpr (.inSet column values severity)).eval E (datasetFrame ds))
      (comparable field.dataType (listType values) = true)
      ⟨field.name, t, [E.idxSize (ds.rows.countP fun row => outside (members values) (rowCell idx row))]⟩ := by
  have hcells : ∀ v ∈ ds.rows.map (rowCell idx), v.fits field.dataType := by
    intro v hv
    obtain ⟨row, hrow, rfl⟩ := List.mem_map.1 hv
    exact hload.typed idx field hfield row hrow
  have hset : ∀ v ∈ members values, v.hasType (listType values) = true := fun v hv => hasType_of_mem_members hv
  have hcol : (Expr.col column).eval E (datasetFrame ds) =
      .ok ⟨field.name, targetType field.dataType, (ds.rows.map (rowCell idx)).map toAnyValue⟩ := by
    rw [List.map_map]
    exact Ingestion.datasetFrame_column hidx hfield
  have hlit : (Expr.lit (valuesToSeries values)).eval E (datasetFrame ds) =
      .ok ⟨"set", targetType (listType values), (members values).map toAnyValue⟩ := by
    rw [valuesToSeries_eq]
    rfl
  obtain ⟨t, hsum⟩ := hE.sumBoolean (((ds.rows.map (rowCell idx)).map (membership (members values))).map
    (Option.map Bool.not))
  rw [count_outside, List.countP_map] at hsum
  refine ⟨t, ?_⟩
  have hbinary := Expr.eval_binary hcol hlit (.isIn false)
  by_cases hcmp : comparable field.dataType (listType values) = true
  · rw [hE.isIn field.name "set" _ _ _ _ (listType_ne values) hcmp hcells hset] at hbinary
    have hnot := (Expr.eval_unary hbinary .not).trans (hE.not _ _)
    exact Or.inl ⟨hcmp, Expr.eval_aggregate hnot hsum⟩
  · obtain ⟨e, he⟩ := hE.isInRefused field.name "set" _ _ _ _ (listType_ne values) hcmp hcells hset
    rw [he] at hbinary
    exact Or.inr ⟨hcmp, e, Expr.eval_aggregate_error (Expr.eval_unary_error hbinary .not) .sum⟩

end Count

/-- the dataset loads, the column is there, and its type takes a set of the type -/
def Takes (E : Engine) (ds : DataSet) (column : String) (setType : DataType) : Prop :=
  Loadable E.maxRows ds ∧ ∃ idx field, ds.schema.indexOf column = some idx ∧ ds.schema.fields[idx]? = some field ∧
    comparable field.dataType setType = true

theorem indexOf_of_column {ds : DataSet} {column : String} {s : Series} (h : (datasetFrame ds).column column = .ok s) :
    ∃ idx field, ds.schema.indexOf column = some idx ∧ ds.schema.fields[idx]? = some field := by
  obtain ⟨hmem, hname⟩ := Polars.DataFrame.column_mem h
  obtain ⟨c, hc, rfl⟩ := List.mem_map.1 hmem
  have hfield := List.mem_of_getElem? (List.mem_zipIdx_iff_getElem?.1 hc)
  have hsome : (ds.schema.indexOf column).isSome := by
    rw [Schema.indexOf, List.findIdx?_isSome]
    exact List.any_eq_true.2 ⟨c.1, hfield, by simpa [datasetSeries] using hname⟩
  obtain ⟨idx, hidx⟩ := Option.isSome_iff_exists.1 hsome
  obtain ⟨hlt, -⟩ := Schema.indexOf_some hidx
  exact ⟨idx, _, hidx, List.getElem?_eq_getElem hlt⟩

/-- the check tests against the set it was given, in whatever order -/
structure ChecksGivenSet (E : Engine) (ds : DataSet) (column : String) (severity : Severity) (values : List Value) :
    Prop where
  /-- the series holds exactly the values, or the call fails -/
  series : ∀ ws : List Value, ws.Perm values → (valuesToSeries ws).cells = ws.map toAnyValue ∨
    ∀ spec : ValidationSpec, .inSet column ws severity ∈ spec.checks → ∃ e, validateDataset E ds spec = .error e
  /-- the rows that fail are the ones that are not null and not listed -/
  count : ∀ ws : List Value, ws.Perm values → ∀ (spec : ValidationSpec) (report : ValidationReport) (i : ℕ),
    validateDataset E ds spec = .ok report → spec.checks[i]? = some (.inSet column ws severity) →
    ∀ idx, ds.schema.indexOf column = some idx → ∃ r, report.results[i]? = some r ∧
      r.failedCount = ds.rows.countP fun row => outside values (rowCell idx row)

theorem outside_perm {values ws : List Value} (h : ws.Perm values) (v : Value) : outside ws v = outside values v := by
  rw [outside, outside, h.any_eq]

section Run

variable {E : Engine} (hE : Query.Documented E) {ds : DataSet} {column : String} {severity : Severity} {values : List Value}
include hE

omit hE in
/-- the check of a set is computed only on a column that is there -/
theorem inSet_column {s : Series}
    (hs : (failCountExpr (.inSet column values severity)).eval E (datasetFrame ds) = .ok s) :
    ∃ idx field, ds.schema.indexOf column = some idx ∧ ds.schema.fields[idx]? = some field := by
  cases hc : (datasetFrame ds).column column with
  | ok c => exact indexOf_of_column hc
  | error err =>
    have herr : (failCountExpr (.inSet column values severity)).eval E (datasetFrame ds) = .error err :=
      Expr.eval_aggregate_error (Expr.eval_unary_error (Expr.eval_binary_error (l := .col column) hc _) _) _
    rw [hs] at herr
    cases herr

/-- a report says of an `InSet` check how many rows are outside its set; and the column took the set -/
theorem inSet_of_validate {spec : ValidationSpec} {report : ValidationReport}
    (h : validateDataset E ds spec = .ok report) {i : ℕ} (hi : spec.checks[i]? = some (.inSet column values severity)) :
    Takes E ds column (listType values) ∧ ∃ idx r, ds.schema.indexOf column = some idx ∧
      report.results[i]? = some r ∧
      r.failedCount = ds.rows.countP fun row => outside (members values) (rowCell idx row) := by
  obtain ⟨df, hdf, h⟩ := Traverse.bind_eq_ok h
  obtain ⟨frame, hframe, hdf⟩ := Traverse.bind_eq_ok hdf
  obtain ⟨hload, rfl⟩ := (Ingestion.datasetToDataframe_returns E.maxRows ds).of_ok hframe
  obtain rfl := Except.ok.inj hdf
  obtain ⟨agg, p, hagg, hp, rfl⟩ := validateFrame_ok h (List.ne_nil_of_mem (List.mem_of_getElem? hi))
  -- the selection has computed the check's expression
  have hexpr : Expr.alias (failCountExpr (.inSet column values severity)) (failCountColName i) ∈ countExprs spec :=
    List.mem_map.2 ⟨(_, i), List.mem_zipIdx_iff_getElem?.2 hi, rfl⟩
  obtain ⟨s, hs, hcolumn⟩ := Polars.select_column hagg hexpr
  obtain ⟨idx, field, hidx, hfield⟩ := inSet_column hs
  obtain ⟨t, hreturns⟩ := eval_inSet hE hload hidx hfield values severity
  obtain ⟨hcmp, rfl⟩ := hreturns.of_ok hs
  -- and the loop has read it
  obtain ⟨r, hr, hresult⟩ := result_of_check hp hi
  obtain ⟨col, hcol, -, o, ho, hcount⟩ := checkResult_ok hresult
  rw [hcolumn] at hcol
  obtain rfl := Except.ok.inj hcol
  have hne : ds.schema.fields ≠ [] := List.ne_nil_of_mem (List.mem_of_getElem? hfield)
  have hrows := (List.countP_le_length (p := fun row => outside (members values) (rowCell idx row))).trans
    (hload.fewRows hne)
  rw [seriesToUsize_idxSize hE hrows] at ho
  obtain rfl := Except.ok.inj ho
  exact ⟨⟨hload, idx, field, hidx, hfield, hcmp⟩, idx, r, hidx, hr, hcount⟩

/-- a set that the column takes is checked -/
theorem validate_inSet (htakes : Takes E ds column (listType values)) :
    ∃ report, validateDataset E ds ⟨[.inSet column values severity], 0⟩ = .ok report := by
  obtain ⟨hload, idx, field, hidx, hfield, hcmp⟩ := htakes
  obtain ⟨t, hreturns⟩ := eval_inSet hE hload hidx hfield values severity
  have heval := hreturns.eq_ok hcmp
  have hne : ds.schema.fields ≠ [] := List.ne_nil_of_mem (List.mem_of_getElem? hfield)
  have hrows := (List.countP_le_length (p := fun row => outside (members values) (rowCell idx row))).trans
    (hload.fewRows hne)
  have husize := seriesToUsize_idxSize hE hrows (failCountColName 0) t
  have hframe := (Ingestion.datasetToDataframe_returns E.maxRows ds).eq_ok hload
  have hselect : Polars.select E (datasetFrame ds) (countExprs ⟨[.inSet column values severity], 0⟩) =
      Polars.DataFrame.new 1 [⟨failCountColName 0, t,
        [E.idxSize (ds.rows.countP fun row => outside (members values) (rowCell idx row))]⟩] := by
    change ([Expr.alias _ _].mapM (Expr.eval E (datasetFrame ds)) >>= _) = _
    rw [List.mapM_cons, Expr.eval_alias heval]
    rfl
  rw [Polars.DataFrame.new_eq (by simp) (by simp)] at hselect
  generalize ds.rows.countP (fun row => outside (members values) (rowCell idx row)) = n at hselect husize
  let agg : Polars.DataFrame := ⟨1, [⟨failCountColName 0, t, [E.idxSize n]⟩], by simp⟩
  let r : CheckResult := ⟨.inSet column values severity, n, [], defaultMessage (.inSet column values severity) n⟩
  have hmem : (⟨failCountColName 0, t, [E.idxSize n]⟩ : Series) ∈ agg.columns := List.mem_singleton_self _
  have hcolumn : agg.column (failCountColName 0) = .ok ⟨failCountColName 0, t, [E.idxSize n]⟩ :=
    Polars.column_of_mem (by simp [agg]) hmem
  have hresult : checkResult E (.ofFrame (datasetFrame ds)) 0 agg (.inSet column values severity, 0) = .ok r := by
    simp [checkResult, hcolumn, husize, r, Except.mapError, bind, Except.bind, pure, Except.pure]
  have hrun : runChecks E (.ofFrame (datasetFrame ds)) 0 agg [(.inSet column values severity, 0)] .start =
      .ok (Progress.start.push r) := by
    rw [runChecks, hresult]
    rfl
  have hreport : validateFrame E (.ofFrame (datasetFrame ds)) ⟨[.inSet column values severity], 0⟩ =
      .ok ⟨(Progress.start.push r).results, 1, (Progress.start.push r).failedChecks, (Progress.start.push r).maxSev⟩ := by
    change (Except.mapError _ (Polars.select E (datasetFrame ds) _) >>= _) = _
    rw [hselect]
    change (runChecks E _ 0 agg [(_, 0)] .start >>= _) = _
    rw [hrun]
    rfl
  rw [validateDataset, Pipeline.DataFrame.fromDataset, hframe]
  exact ⟨_, hreport⟩

/-- **When the set is checked as given**: its values are of one type that is not a float's, or the column's type refuses
a set of any of their types -/
theorem inSet_exact_iff (ds : DataSet) (column : String) (severity : Severity) (values : List Value) :
    ChecksGivenSet E ds column severity values ↔
      Uniform values ∨ ∀ v ∈ values, ¬Takes E ds column (setType v) := by
  constructor
  · intro h
    by_contra hnot
    push Not at hnot
    obtain ⟨hmixed, v, hv, htakes⟩ := hnot
    -- the order that puts the accepted value first
    have hperm : (v :: values.erase v).Perm values := (List.perm_cons_erase hv).symm
    rcases h.series _ hperm with hexact | hfails
    · rw [valuesToSeries_eq, List.map_inj_right fun _ _ heq => toAnyValue_injective heq, members_eq_iff] at hexact
      exact hmixed (hexact.perm hperm.symm)
    · obtain ⟨report, hreport⟩ : ∃ report, validateDataset E ds ⟨[.inSet column (v :: values.erase v) severity], 0⟩ =
          .ok report := validate_inSet hE htakes
      obtain ⟨e, he⟩ := hfails ⟨[.inSet column (v :: values.erase v) severity], 0⟩ (List.mem_singleton_self _)
      rw [hreport] at he
      cases he
  · intro h
    by_cases huniform : Uniform values
    · refine ⟨fun ws hperm => Or.inl ?_, fun ws hperm spec report i hok hi idx hidx => ?_⟩
      · rw [valuesToSeries_eq, (members_eq_iff ws).2 (huniform.perm hperm)]
      · obtain ⟨-, idx', r, hidx', hr, hcount⟩ := inSet_of_validate hE hok hi
        obtain rfl := Option.some.inj (hidx'.symm.trans hidx)
        refine ⟨r, hr, hcount.trans ?_⟩
        simp only [(members_eq_iff ws).2 (huniform.perm hperm), outside_perm hperm]
    · have hrefused := h.resolve_left huniform
      have hnone : ∀ ws : List Value, ws.Perm values → ∀ (spec : ValidationSpec) (report : ValidationReport) (i : ℕ),
          spec.checks[i]? = some (.inSet column ws severity) → validateDataset E ds spec ≠ .ok report := by
        intro ws hperm spec report i hi hok
        obtain ⟨htakes, -⟩ := inSet_of_validate hE hok hi
        rcases ws with - | ⟨v, ws⟩
        · exact huniform (List.nil_perm.1 hperm ▸ ⟨.int64, nofun, nofun⟩)
        · exact hrefused v (hperm.subset List.mem_cons_self) htakes
      refine ⟨fun ws hperm => Or.inr fun spec hmem => ?_, fun ws hperm spec report i hok hi => ?_⟩
      · obtain ⟨i, hi⟩ := List.mem_iff_getElem?.1 hmem
        cases hrun : validateDataset E ds spec with
        | error e => exact ⟨e, rfl⟩
        | ok report => exact absurd hrun (hnone ws hperm spec report i hi)
      · exact absurd hok (hnone ws hperm spec report i hi)

end Run

/-! ## A null in the set -/

/-- one text in one column -/
def nameRows : DataSet := ⟨⟨[⟨"name", .utf8⟩]⟩, [[.utf8 "Ada"]]⟩

/-- the failed counts of a report -/
def failedCounts (values : List Value) : Option (List ℕ) :=
  (validateDataset plainEngine nameRows ⟨[.inSet "name" values .error], 0⟩).toOption.map
    fun report => report.results.map CheckResult.failedCount

theorem inSet_exact_names : ChecksGivenSet plainEngine nameRows "name" .error [.utf8 "Ada", .utf8 "Eve"] :=
  (inSet_exact_iff Query.plainEngine_documented nameRows "name" .error _).2
    (Or.inl ⟨.utf8, by decide, by decide⟩)

/-- **A null first empties the set**: the listed text fails, and passes when the null comes last -/
theorem null_empties_the_set : failedCounts [.null, .utf8 "Ada"] = some [1] ∧
    failedCounts [.utf8 "Ada", .null] = some [0] ∧
    ¬ChecksGivenSet plainEngine nameRows "name" .error [.null, .utf8 "Ada"] := by
  refine ⟨rfl, rfl, fun h => ?_⟩
  obtain ⟨r, hr, hcount⟩ := h.count _ (.refl _) ⟨[.inSet "name" [.null, .utf8 "Ada"] .error], 0⟩ _ 0 rfl rfl 0 rfl
  obtain rfl := Option.some.inj hr
  exact absurd hcount (by decide)

end RustDataProcessing.Validation
