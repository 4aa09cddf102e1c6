/-
The database sinks (`postgres_copy_sink`, `oracle_row_sink`, `mssql_row_sink` in `bindings/jvm-sys/src/pipeline_run.rs`),
and what a call that fails leaves behind.

The target is a table that is there or not, and its rows. The sinks use no transaction around their schema statements:
PostgreSQL and SQL Server commit each statement by itself, Oracle commits with each schema statement and otherwise when
told to. A server (`PgServer`, `OracleServer`, `MssqlServer`) says which requests it refuses, and what it stores; a
refused request does nothing.

- `postgres_left`, `oracle_left`, `mssql_left`: the table after a failed call.
- `failed_sinks_left`: the three together.
- `load_untouched`: a failed `COPY` or Oracle load without schema statements has left the table as it was.
-/
import Mathlib.Tactic
import RustDataProcessing.Lib.Attempt
import RustDataProcessing.Lib.Traverse
import RustDataProcessing.JvmSys.CopyText
import RustDataProcessing.JvmSys.Sql

namespace RustDataProcessing.JvmSys

/-- the rows of a table: none when there is no such table -/
abbrev Table (R : Type) := Option (List R)

inductive SinkError where
  | text (s : String)
  | unsupportedValue (sink : String) (v : Value) (dt : DataType)
deriving DecidableEq, Repr

/-! ## Statements -/

section Statements

variable {σ R : Type}

def request (what : String) (refusal : Option String) : Attempt σ SinkError Unit :=
  match refusal with
  | some e => .fail (.text (what ++ e))
  | none => .done ()

/-- a statement that the server refuses, or does unless the state rules it out -/
def statement (what : String) (refusal : Option String) (effect : σ → Except String σ) : Attempt σ SinkError Unit :=
  fun s => match refusal with
    | some e => (s, .error (.text (what ++ e)))
    | none => match effect s with
      | .error e => (s, .error (.text (what ++ e)))
      | .ok s' => (s', .ok ())

def createIfMissing (t : Table R) : Except String (Table R) := .ok (some (t.getD []))

def truncateTable (missing : String) : Table R → Except String (Table R)
  | none => .error missing
  | some _ => .ok (some [])

def appendRows (missing : String) (rows : List R) : Table R → Except String (Table R)
  | none => .error missing
  | some old => .ok (some (old ++ rows))

theorem isNone_refused {refusal : Option String} (h : refusal ≠ none) : refusal.isNone = false :=
  Option.isNone_eq_false_iff.mpr (Option.isSome_iff_ne_none.mpr h)

theorem request_ok {what : String} {refusal : Option String} {s s' : σ} {u : Unit}
    (h : request what refusal s = (s', .ok u)) : refusal = none ∧ s' = s := by
  unfold request at h
  cases refusal with
  | some e => cases h
  | none => exact ⟨rfl, (Prod.mk.inj h).1.symm⟩

theorem request_error {what : String} {refusal : Option String} {s s' : σ} {e : SinkError}
    (h : request what refusal s = (s', .error e)) : s' = s ∧ refusal ≠ none := by
  unfold request at h
  cases refusal with
  | some e => exact ⟨(Prod.mk.inj h).1.symm, by simp⟩
  | none => cases h

theorem statement_ok {what : String} {refusal : Option String} {effect : σ → Except String σ} {s s' : σ} {u : Unit}
    (h : statement what refusal effect s = (s', .ok u)) : refusal = none ∧ effect s = .ok s' := by
  unfold statement at h
  cases refusal with
  | some e => cases h
  | none =>
    dsimp only at h
    cases heffect : effect s with
    | error e => rw [heffect] at h; cases h
    | ok s₁ =>
      rw [heffect] at h
      exact ⟨rfl, congrArg Except.ok (Prod.mk.inj h).1⟩

theorem statement_error {what : String} {refusal : Option String} {effect : σ → Except String σ} {s s' : σ}
    {e : SinkError} (h : statement what refusal effect s = (s', .error e)) :
    s' = s ∧ (refusal ≠ none ∨ ∃ m, effect s = .error m) := by
  unfold statement at h
  cases refusal with
  | some e => exact ⟨(Prod.mk.inj h).1.symm, Or.inl (by simp)⟩
  | none =>
    dsimp only at h
    cases heffect : effect s with
    | error m =>
      rw [heffect] at h
      exact ⟨(Prod.mk.inj h).1.symm, Or.inr ⟨m, rfl⟩⟩
    | ok s₁ => rw [heffect] at h; cases h

theorem statement_keeps {τ : Type} {g : σ → τ} {effect : σ → Except String σ}
    (heffect : ∀ s s', effect s = .ok s' → g s' = g s) (what : String) (refusal : Option String) (s : σ) :
    g (statement what refusal effect s).1 = g s := by
  unfold statement
  split
  · rfl
  · split
    · rfl
    · exact heffect s _ ‹_›

end Statements

/-! ## PostgreSQL -/

structure PgServer (R : Type) where
  connect : String → Option String
  create : String → Option String
  truncate : String → Option String
  copyIn : String → Option String
  /-- a write of a row's text that fails -/
  write : ℕ → Option String
  finish : Option String
  missing : String
  stored : List Char → List R

section Postgres

variable {R : Type} (w : PgServer R)

/-- the row loop: nothing is stored before the copy is finished -/
def pgWriteRows : List Row → ℕ → List Char → Except SinkError (List Char)
  | [], _, body => .ok body
  | row :: rows, i, body => match copyRow row with
    | .error e => .error (.text e)
    | .ok line => match w.write i with
      | some e => .error (.text e)
      | none => pgWriteRows rows (i + 1) (body ++ line)

/-- the `COPY` of a data set -/
def pgCopyRows (fq : String) (ds : DataSet) : Attempt (Table R) SinkError ℕ :=
  if ds.rowCount = 0 then return 0
  else do
    statement "postgres copy_in: " (w.copyIn (pgCopySql fq ds.schema)) (appendRows w.missing [])
    let body ← Attempt.ofExcept (pgWriteRows w ds.rows 0 [])
    statement "postgres copy finish: " w.finish (appendRows w.missing (w.stored body))
    return ds.rowCount

def postgresCopySink (url table : String) (ds : DataSet) (createTableIfMissing truncateBeforeLoad : Bool) :
    Attempt (Table R) SinkError ℕ := do
  request "postgres connect: " (w.connect url)
  let parts ← Attempt.ofExcept ((splitTableIdent table).mapError .text)
  let fq := pgTable parts.1 parts.2
  Attempt.when createTableIfMissing
    (statement "postgres create table: " (w.create (pgCreateTableDdl fq ds.schema)) createIfMissing)
  Attempt.when truncateBeforeLoad
    (statement "postgres truncate: " (w.truncate (pgTruncateSql fq)) (truncateTable w.missing))
  pgCopyRows w fq ds

end Postgres

/-! ## Oracle -/

/-- what is committed, and the rows of the open transaction -/
structure OracleSession (R : Type) where
  table : Table R
  pending : List R

structure OracleServer (R : Type) where
  connect : String × String × String → Option String
  drop : String → Option String
  create : String → Option String
  insert : ℕ → String → Option String
  commit : Option String
  missing : String
  present : String
  stored : List (Option String) → R

section Oracle

variable {R : Type}

/-- a commit, also that of a schema statement -/
def OracleSession.commit (s : OracleSession R) : OracleSession R := ⟨s.table.map (· ++ s.pending), []⟩

def oracleDrop (missing : String) (s : OracleSession R) : Except String (OracleSession R) :=
  match s.commit.table with
  | none => .error missing
  | some _ => .ok ⟨none, []⟩

def oracleCreate (present : String) (s : OracleSession R) : Except String (OracleSession R) :=
  match s.commit.table with
  | none => .ok ⟨some [], []⟩
  | some _ => .error present

def oracleAppend (missing : String) (row : R) (s : OracleSession R) : Except String (OracleSession R) :=
  match s.table with
  | none => .error missing
  | some _ => .ok { s with pending := s.pending ++ [row] }

def oracleConnectParts (url : String) : Except String (String × String × String) :=
  if "oracle://".toList.isPrefixOf url.toList then
    match RustStd.splitOnce (String.ofList (url.toList.drop 9)) '@' with
    | none => .error s!"invalid oracle URL (missing @): {url}"
    | some (auth, hostpart) => match RustStd.splitOnce auth ':' with
      | none => .error s!"invalid oracle URL (missing password): {url}"
      | some (user, pass) => .ok (user, pass, hostpart)
  else .error s!"expected oracle:// URL, got {url}"

def oracleValueString : Value → DataType → Except SinkError String
  | .null, _ => .ok ""
  | .utf8 s, _ => .ok s
  | .int64 i, .int64 => .ok (RustStd.displayI64 i)
  | .float64 x, .float64 => .ok (RustStd.displayF64 x)
  | .bool b, .bool => .ok (if b then "1" else "0")
  | v, dt => .error (.unsupportedValue "oracle" v dt)

/-- the values of a row, each at the first column of its name -/
def oracleRowValues (schema : Schema) (row : Row) : Except SinkError (List (Option String)) :=
  (schema.fields.zip row).foldlM (fun vals c => match schema.indexOf c.1.name with
    | none => .ok vals
    | some idx => (oracleValueString c.2 c.1.dataType).map fun text => vals.set idx (some text))
    (List.replicate schema.fields.length none)

/-- the bind lists that are spelled out in the source have one to eight values -/
def oracleExecuteInsert (w : OracleServer R) (i : ℕ) (sql : String) (vals : List (Option String)) :
    Attempt (OracleSession R) SinkError Unit :=
  if 1 ≤ vals.length ∧ vals.length ≤ 8 then
    statement s!"oracle insert row {i}: " (w.insert i sql) (oracleAppend w.missing (w.stored vals))
  else .fail (.text (s!"oracle insert row {i}: " ++
    s!"unsupported oracle INSERT bind count {vals.length} (extend oracle_execute_insert)"))

def oracleInsertRow (w : OracleServer R) (sql : String) (schema : Schema) (r : Row × ℕ) :
    Attempt (OracleSession R) SinkError Unit := do
  let vals ← Attempt.ofExcept (oracleRowValues schema r.1)
  oracleExecuteInsert w r.2 sql vals

/-- the session of a call -/
def oracleSession (w : OracleServer R) (url table : String) (ds : DataSet)
    (createTableIfMissing truncateBeforeLoad : Bool) : Attempt (OracleSession R) SinkError ℕ := do
  let parts ← Attempt.ofExcept ((oracleConnectParts url).mapError .text)
  request "" (w.connect parts)
  Attempt.when truncateBeforeLoad
    (Attempt.ignore (statement "" (w.drop (oracleDropSql table)) (oracleDrop w.missing)))
  Attempt.when createTableIfMissing
    (statement "oracle create table: " (w.create (oracleCreateTableDdl table ds.schema)) (oracleCreate w.present))
  Attempt.each (oracleInsertRow w (oracleInsertSql table ds.schema) ds.schema) ds.rows.zipIdx
  statement "" w.commit fun s => .ok s.commit
  return ds.rowCount

/-- when the connection closes, what is not committed is rolled back -/
def oracleRowSink (w : OracleServer R) (url table : String) (ds : DataSet)
    (createTableIfMissing truncateBeforeLoad : Bool) : Attempt (Table R) SinkError ℕ := fun t =>
  ((oracleSession w url table ds createTableIfMissing truncateBeforeLoad ⟨t, []⟩).1.table,
    (oracleSession w url table ds createTableIfMissing truncateBeforeLoad ⟨t, []⟩).2)

end Oracle

/-! ## SQL Server -/

/-- a bound parameter -/
inductive Bind where
  | null
  | text (s : String)
  | bigint (i : Int64)
  | float (x : Binary64)
  | bit (b : Bool)
deriving DecidableEq, Repr

structure MssqlServer (R : Type) where
  connect : String → Option String
  create : String → Option String
  createResults : String → Option String
  truncate : String → Option String
  truncateResults : String → Option String
  insert : ℕ → String → Option String
  missing : String
  stored : List Bind → R

section Mssql

variable {R : Type}

def mssqlBind : Value → DataType → Except SinkError Bind
  | .null, _ => .ok .null
  | .utf8 s, _ => .ok (.text s)
  | .int64 i, .int64 => .ok (.bigint i)
  | .float64 x, .float64 => .ok (.float x)
  | .bool b, .bool => .ok (.bit b)
  | v, dt => .error (.unsupportedValue "mssql" v dt)

def mssqlBinds (schema : Schema) (row : Row) : Except SinkError (List Bind) :=
  (schema.fields.zip row).mapM fun c => mssqlBind c.2 c.1.dataType

/-- a schema statement is done once its results have been read -/
def mssqlStatement (what : String) (refusal broken : Option String) (effect : Table R → Table R) :
    Attempt (Table R) SinkError Unit := do
  request s!"{what}: " refusal
  statement s!"{what} results: " broken fun t => .ok (effect t)

def mssqlInsertRow (w : MssqlServer R) (sql : String) (schema : Schema) (r : Row × ℕ) :
    Attempt (Table R) SinkError Unit := do
  let binds ← Attempt.ofExcept (mssqlBinds schema r.1)
  statement s!"mssql insert row {r.2}: " (w.insert r.2 sql) (appendRows w.missing [w.stored binds])

def mssqlRowSink (w : MssqlServer R) (url table : String) (ds : DataSet)
    (createTableIfMissing truncateBeforeLoad : Bool) : Attempt (Table R) SinkError ℕ := do
  request "" (w.connect url)
  let ddl := mssqlCreateTableDdl table ds.schema
  Attempt.when createTableIfMissing
    (mssqlStatement "mssql create table" (w.create ddl) (w.createResults ddl) fun t => some (t.getD []))
  let sql := mssqlTruncateSql table
  Attempt.when truncateBeforeLoad
    (mssqlStatement "mssql truncate" (w.truncate sql) (w.truncateResults sql) (Option.map fun _ => []))
  Attempt.each (mssqlInsertRow w (mssqlInsertSql table ds.schema) ds.schema) ds.rows.zipIdx
  return ds.rowCount

end Mssql

/-! ## What a failed call leaves -/

section Postgres

variable {R : Type}

/-- the create statement was done -/
def pgCreated (w : PgServer R) (url table : String) (ds : DataSet) (create : Bool) : Bool :=
  create && (w.connect url).isNone && match splitTableIdent table with
    | .error _ => false
    | .ok (s, t) => (w.create (pgCreateTableDdl (pgTable s t) ds.schema)).isNone

/-- the truncation was done -/
def pgTruncated (w : PgServer R) (url table : String) (ds : DataSet) (create truncate : Bool) (before : Table R) : Bool :=
  truncate && (!create || pgCreated w url table ds create) && (create || before.isSome) && (w.connect url).isNone &&
    match splitTableIdent table with
    | .error _ => false
    | .ok (s, t) => (w.truncate (pgTruncateSql (pgTable s t))).isNone

theorem pgCopyRows_error {w : PgServer R} {fq : String} {ds : DataSet} {before after : Table R} {e : SinkError}
    (h : pgCopyRows w fq ds before = (after, .error e)) : after = before := by
  unfold pgCopyRows at h
  split_ifs at h
  · cases h
  rcases Attempt.bind_error h with hx | ⟨u₁, s₁, hcopy, h₁⟩
  · exact (statement_error hx).1
  have hs₁ : s₁ = before := by
    obtain ⟨-, heffect⟩ := statement_ok hcopy
    cases before with
    | none => cases heffect
    | some rows => simpa [appendRows] using heffect.symm
  rw [← hs₁]
  rcases Attempt.bind_error h₁ with hx | ⟨body, s₂, hbody, h₂⟩
  · exact (Attempt.ofExcept_error hx).2
  rcases Attempt.bind_error h₂ with hx | ⟨u₃, s₃, hfinish, h₃⟩
  · exact (statement_error hx).1.trans (Attempt.ofExcept_ok hbody).2
  · cases h₃

section Schema

variable {w : PgServer R} {url table : String} {ds : DataSet} {parts : String × String}
  (htable : splitTableIdent table = .ok parts)
include htable

theorem pgCreate_error {create : Bool} {t t' : Table R} {e : SinkError}
    (h : Attempt.when create (statement "postgres create table: "
      (w.create (pgCreateTableDdl (pgTable parts.1 parts.2) ds.schema)) createIfMissing) t = (t', .error e)) :
    create = true ∧ t' = t ∧ pgCreated w url table ds true = false := by
  obtain ⟨rfl, hstatement⟩ := Attempt.when_error h
  obtain ⟨rfl, hrefused | ⟨m, hm⟩⟩ := statement_error hstatement
  · exact ⟨rfl, rfl, by simp [pgCreated, htable, isNone_refused hrefused]⟩
  · cases hm

theorem pgCreate_ok (hconnected : w.connect url = none) {create : Bool} {t t' : Table R} {u : Unit}
    (h : Attempt.when create (statement "postgres create table: "
      (w.create (pgCreateTableDdl (pgTable parts.1 parts.2) ds.schema)) createIfMissing) t = (t', .ok u)) :
    t' = (if create then some (t.getD []) else t) ∧ pgCreated w url table ds create = create := by
  rcases Attempt.when_ok h with ⟨rfl, rfl⟩ | ⟨rfl, hstatement⟩
  · exact ⟨rfl, rfl⟩
  · obtain ⟨hnone, heffect⟩ := statement_ok hstatement
    exact ⟨(Except.ok.inj heffect).symm, by simp [pgCreated, hconnected, htable, hnone]⟩

theorem pgTruncated_eq (hconnected : w.connect url = none) {create truncate : Bool}
    (hcreated : pgCreated w url table ds create = create) (before : Table R) :
    pgTruncated w url table ds create truncate before =
      (truncate && (create || before.isSome) && (w.truncate (pgTruncateSql (pgTable parts.1 parts.2))).isNone) := by
  unfold pgTruncated
  rw [hcreated, hconnected, htable]
  cases create <;> simp

end Schema

theorem pgTruncate_error {w : PgServer R} {sql : String} {truncate : Bool} {t t' : Table R} {e : SinkError}
    (h : Attempt.when truncate (statement "postgres truncate: " (w.truncate sql) (truncateTable w.missing)) t =
      (t', .error e)) : t' = t ∧ (t.isSome && (w.truncate sql).isNone) = false := by
  obtain ⟨rfl, hstatement⟩ := Attempt.when_error h
  obtain ⟨rfl, hrefused | ⟨m, hm⟩⟩ := statement_error hstatement
  · exact ⟨rfl, by rw [isNone_refused hrefused, Bool.and_false]⟩
  · cases t' with
    | none => exact ⟨rfl, rfl⟩
    | some rows => cases hm

theorem pgTruncate_ok {w : PgServer R} {sql : String} {truncate : Bool} {t t' : Table R} {u : Unit}
    (h : Attempt.when truncate (statement "postgres truncate: " (w.truncate sql) (truncateTable w.missing)) t =
      (t', .ok u)) : t' = if truncate && t.isSome && (w.truncate sql).isNone then some [] else t := by
  rcases Attempt.when_ok h with ⟨rfl, rfl⟩ | ⟨rfl, hstatement⟩
  · rfl
  · obtain ⟨hnone, heffect⟩ := statement_ok hstatement
    rw [hnone]
    cases t with
    | none => cases heffect
    | some rows => exact (Except.ok.inj heffect).symm

/-- **A failed copy** leaves what the schema statements made of the table, and none of its rows -/
theorem postgres_left {w : PgServer R} {url table : String} {ds : DataSet} {create truncate : Bool}
    {before after : Table R} {e : SinkError}
    (h : postgresCopySink w url table ds create truncate before = (after, .error e)) :
    after = if pgTruncated w url table ds create truncate before then some []
      else if pgCreated w url table ds create then some (before.getD []) else before := by
  rcases Attempt.bind_error h with hx | ⟨u₁, s₁, hconnect, h₁⟩
  · obtain ⟨rfl, hne⟩ := request_error hx
    simp [pgTruncated, pgCreated, isNone_refused hne]
  obtain ⟨hconnected, rfl⟩ := request_ok hconnect
  rcases Attempt.bind_error h₁ with hx | ⟨parts, s₂, hsplit, h₂⟩
  · obtain ⟨hrefused, rfl⟩ := Attempt.ofExcept_error hx
    cases htable : splitTableIdent table with
    | ok parts => rw [htable] at hrefused; cases hrefused
    | error m => simp [pgTruncated, pgCreated, htable]
  obtain ⟨hparts, rfl⟩ := Attempt.ofExcept_ok hsplit
  have htable := Traverse.ok_of_mapError hparts
  rcases Attempt.bind_error h₂ with hx | ⟨u₃, s₃, hcreate, h₃⟩
  · obtain ⟨rfl, rfl, hnot⟩ := @pgCreate_error R w url table ds parts htable _ _ _ _ hx
    simp [pgTruncated, hnot]
  obtain ⟨hs₃, hcreated⟩ := pgCreate_ok htable hconnected hcreate
  have hpresent : (create || s₂.isSome) = s₃.isSome := by
    rw [hs₃]
    cases create <;> simp
  rw [pgTruncated_eq htable hconnected hcreated, hcreated, ← hs₃, hpresent]
  rcases Attempt.bind_error h₃ with hx | ⟨u₄, s₄, htruncate, h₄⟩
  · obtain ⟨rfl, hnot⟩ := pgTruncate_error hx
    rw [Bool.and_assoc, hnot, Bool.and_false]
    rfl
  · rw [← pgTruncate_ok htruncate]
    exact pgCopyRows_error h₄

end Postgres

section Oracle

variable {R : Type}

def oracleConnected (w : OracleServer R) (url : String) : Bool :=
  match oracleConnectParts url with
  | .error _ => false
  | .ok parts => (w.connect parts).isNone

/-- the table was there and was dropped -/
def oracleDropped (w : OracleServer R) (url table : String) (truncate : Bool) (before : Table R) : Bool :=
  truncate && oracleConnected w url && before.isSome && (w.drop (oracleDropSql table)).isNone

/-- the create statement was done -/
def oracleCreated (w : OracleServer R) (url table : String) (ds : DataSet) (create truncate : Bool)
    (before : Table R) : Bool :=
  create && oracleConnected w url && (before.isNone || oracleDropped w url table truncate before) &&
    (w.create (oracleCreateTableDdl table ds.schema)).isNone

theorem oracleInsertRow_table (w : OracleServer R) (sql : String) (schema : Schema) (r : Row × ℕ)
    (s : OracleSession R) : (oracleInsertRow w sql schema r s).1.table = s.table := by
  refine Attempt.bind_keeps (fun s => rfl) (fun vals s => ?_) s
  unfold oracleExecuteInsert
  split_ifs
  · refine statement_keeps (fun s s' h => ?_) _ _ s
    unfold oracleAppend at h
    split at h
    · cases h
    · rw [← Except.ok.inj h]
  · rfl

theorem oracleConnected_eq (w : OracleServer R) {url : String} {parts : String × String × String}
    (hurl : oracleConnectParts url = .ok parts) : oracleConnected w url = (w.connect parts).isNone := by
  rw [oracleConnected, hurl]

theorem oracleConnected_invalid (w : OracleServer R) {url : String} {e : SinkError}
    (hrefused : (oracleConnectParts url).mapError .text = .error e) : oracleConnected w url = false := by
  cases hurl : oracleConnectParts url with
  | error m => rw [oracleConnected, hurl]
  | ok parts => rw [hurl] at hrefused; cases hrefused

/-- the drop ends the call in no case -/
theorem oracle_drop_ok {w : OracleServer R} {url table : String} (hconn : oracleConnected w url = true) {truncate : Bool}
    {before : Table R} {s : OracleSession R} {u : Unit}
    (h : Attempt.when truncate (Attempt.ignore (statement "" (w.drop (oracleDropSql table)) (oracleDrop w.missing)))
      ⟨before, []⟩ = (s, .ok u)) : s = ⟨if oracleDropped w url table truncate before then none else before, []⟩ := by
  rcases Attempt.when_ok h with ⟨rfl, rfl⟩ | ⟨rfl, hignored⟩
  · simp [oracleDropped]
  · rw [← (Prod.mk.inj hignored).1, oracleDropped, hconn]
    unfold statement
    cases w.drop (oracleDropSql table) with
    | some m => simp
    | none => cases before <;> rfl

theorem oracleCreate_error {present m : String} {dropped : Bool} {before : Table R}
    (h : oracleCreate present ⟨if dropped then none else before, []⟩ = .error m) :
    before.isSome = true ∧ dropped = false := by
  cases dropped with
  | true => cases h
  | false =>
    cases before with
    | none => cases h
    | some rows => exact ⟨rfl, rfl⟩

theorem oracleCreate_ok {present : String} {dropped : Bool} {before : Table R} {s : OracleSession R}
    (h : oracleCreate present ⟨if dropped then none else before, []⟩ = .ok s) :
    (before.isNone || dropped) = true ∧ s = ⟨some [], []⟩ := by
  cases dropped with
  | true => exact ⟨Bool.or_true _, (Except.ok.inj h).symm⟩
  | false =>
    cases before with
    | none => exact ⟨rfl, (Except.ok.inj h).symm⟩
    | some rows => cases h

section Schema

variable {w : OracleServer R} {url table : String} {ds : DataSet} {create truncate : Bool} {before : Table R}
  {s : OracleSession R}

theorem oracle_create_error {e : SinkError}
    (h : Attempt.when create (statement "oracle create table: " (w.create (oracleCreateTableDdl table ds.schema))
      (oracleCreate w.present)) ⟨if oracleDropped w url table truncate before then none else before, []⟩ =
        (s, .error e)) :
    s = ⟨if oracleDropped w url table truncate before then none else before, []⟩ ∧
      oracleCreated w url table ds create truncate before = false := by
  obtain ⟨rfl, hstatement⟩ := Attempt.when_error h
  obtain ⟨rfl, hrefused | ⟨m, hm⟩⟩ := statement_error hstatement
  · exact ⟨rfl, by simp [oracleCreated, isNone_refused hrefused]⟩
  · obtain ⟨hthere, hkept⟩ := oracleCreate_error hm
    exact ⟨rfl, by simp [oracleCreated, hkept, Option.isSome_iff_ne_none.mp hthere]⟩

theorem oracle_create_ok (hconn : oracleConnected w url = true) {u : Unit}
    (h : Attempt.when create (statement "oracle create table: " (w.create (oracleCreateTableDdl table ds.schema))
      (oracleCreate w.present)) ⟨if oracleDropped w url table truncate before then none else before, []⟩ =
        (s, .ok u)) :
    s.table = if oracleCreated w url table ds create truncate before then some []
      else if oracleDropped w url table truncate before then none else before := by
  rcases Attempt.when_ok h with ⟨rfl, rfl⟩ | ⟨rfl, hstatement⟩
  · simp [oracleCreated]
  · obtain ⟨hnone, heffect⟩ := statement_ok hstatement
    obtain ⟨hgone, rfl⟩ := oracleCreate_ok heffect
    simp [oracleCreated, hconn, hgone, hnone]

end Schema

/-- once the schema statements are done, a failure leaves the table as it is -/
theorem oracle_load_left {w : OracleServer R} {table : String} {ds : DataSet} {s s' : OracleSession R} {e : SinkError}
    (h : (do
      Attempt.each (oracleInsertRow w (oracleInsertSql table ds.schema) ds.schema) ds.rows.zipIdx
      statement "" w.commit fun s => .ok s.commit
      return ds.rowCount : Attempt (OracleSession R) SinkError ℕ) s = (s', .error e)) : s'.table = s.table := by
  have hrows := Attempt.each_keeps (g := OracleSession.table)
    (oracleInsertRow_table w (oracleInsertSql table ds.schema) ds.schema) ds.rows.zipIdx s
  rcases Attempt.bind_error h with hx | ⟨u₁, s₁, hload, h₁⟩
  · rw [hx] at hrows
    exact hrows
  rw [hload] at hrows
  rcases Attempt.bind_error h₁ with hx | ⟨u₂, s₂, hcommit, h₂⟩
  · rw [(statement_error hx).1, hrows]
  · cases h₂

/-- **A failed load** leaves what the schema statements made of the table; its inserts are rolled back -/
theorem oracle_left {w : OracleServer R} {url table : String} {ds : DataSet} {create truncate : Bool}
    {before after : Table R} {e : SinkError}
    (h : oracleRowSink w url table ds create truncate before = (after, .error e)) :
    after = if oracleCreated w url table ds create truncate before then some []
      else if oracleDropped w url table truncate before then none else before := by
  obtain ⟨s', hs'⟩ : ∃ s', oracleSession w url table ds create truncate ⟨before, []⟩ = (s', .error e) :=
    ⟨_, Prod.ext rfl (Prod.mk.inj h).2⟩
  have hafter : after = s'.table := by
    rw [← (Prod.mk.inj h).1, hs']
  rw [hafter]
  rcases Attempt.bind_error hs' with hx | ⟨parts, s₁, hparts, h₁⟩
  · obtain ⟨hrefused, rfl⟩ := Attempt.ofExcept_error hx
    simp [oracleCreated, oracleDropped, oracleConnected_invalid w hrefused]
  obtain ⟨hurl, rfl⟩ := Attempt.ofExcept_ok hparts
  have hconn := oracleConnected_eq w (Traverse.ok_of_mapError hurl)
  rcases Attempt.bind_error h₁ with hx | ⟨u₂, s₂, hconnect, h₂⟩
  · obtain ⟨rfl, hrefused⟩ := request_error hx
    rw [isNone_refused hrefused] at hconn
    simp [oracleCreated, oracleDropped, hconn]
  obtain ⟨hconnected, rfl⟩ := request_ok hconnect
  rw [hconnected, Option.isNone_none] at hconn
  rcases Attempt.bind_error h₂ with hx | ⟨u₃, s₃, hdrop, h₃⟩
  · have hignored := (Attempt.when_error hx).2
    cases hignored
  obtain rfl := oracle_drop_ok hconn hdrop
  rcases Attempt.bind_error h₃ with hx | ⟨u₄, s₄, hcreate, h₄⟩
  · obtain ⟨rfl, hnot⟩ := oracle_create_error hx
    rw [hnot]
    rfl
  · rw [oracle_load_left h₄]
    exact oracle_create_ok hconn hcreate

end Oracle

section Mssql

variable {R : Type}

/-- the create statement was done, whether the table was there or not -/
def mssqlCreated (w : MssqlServer R) (url table : String) (ds : DataSet) (create : Bool) : Bool :=
  create && (w.connect url).isNone && (w.create (mssqlCreateTableDdl table ds.schema)).isNone &&
    (w.createResults (mssqlCreateTableDdl table ds.schema)).isNone

/-- the truncation was done, whether there was a table or not -/
def mssqlTruncated (w : MssqlServer R) (url table : String) (ds : DataSet) (create truncate : Bool) : Bool :=
  truncate && (mssqlCreated w url table ds create || !create) && (w.connect url).isNone &&
    (w.truncate (mssqlTruncateSql table)).isNone && (w.truncateResults (mssqlTruncateSql table)).isNone

/-- every schema statement was done -/
def mssqlReady (w : MssqlServer R) (url table : String) (ds : DataSet) (create truncate : Bool) : Bool :=
  (w.connect url).isNone && (mssqlCreated w url table ds create || !create) &&
    (mssqlTruncated w url table ds create truncate || !truncate)

def mssqlSchemaLeft (w : MssqlServer R) (url table : String) (ds : DataSet) (create truncate : Bool)
    (before : Table R) : Table R :=
  let made := if mssqlCreated w url table ds create then some (before.getD []) else before
  if mssqlTruncated w url table ds create truncate then made.map fun _ => [] else made

/-- the rows up to the first that cannot be bound or is refused -/
def mssqlAccepted (w : MssqlServer R) (sql : String) (schema : Schema) : List (Row × ℕ) → List R
  | [] => []
  | (row, i) :: rows => match mssqlBinds schema row, w.insert i sql with
    | .ok binds, none => w.stored binds :: mssqlAccepted w sql schema rows
    | _, _ => []

theorem mssqlStatement_ok {what : String} {refusal broken : Option String} {effect : Table R → Table R}
    {t t' : Table R} {u : Unit} (h : mssqlStatement what refusal broken effect t = (t', .ok u)) :
    refusal = none ∧ broken = none ∧ t' = effect t := by
  obtain ⟨u₁, s₁, hrequest, hresults⟩ := Attempt.bind_done h
  obtain ⟨hnone, rfl⟩ := request_ok hrequest
  obtain ⟨hread, heffect⟩ := statement_ok hresults
  exact ⟨hnone, hread, (Except.ok.inj heffect).symm⟩

theorem mssqlStatement_error {what : String} {refusal broken : Option String} {effect : Table R → Table R}
    {t t' : Table R} {e : SinkError} (h : mssqlStatement what refusal broken effect t = (t', .error e)) :
    t' = t ∧ (refusal.isNone && broken.isNone) = false := by
  rcases Attempt.bind_error h with hx | ⟨u, s₁, hrequest, hresults⟩
  · obtain ⟨rfl, hrefused⟩ := request_error hx
    exact ⟨rfl, by rw [isNone_refused hrefused]; rfl⟩
  · obtain ⟨-, rfl⟩ := request_ok hrequest
    obtain ⟨rfl, hbroken | ⟨m, hm⟩⟩ := statement_error hresults
    · exact ⟨rfl, by rw [isNone_refused hbroken]; exact Bool.and_false _⟩
    · cases hm

section Schema

variable {w : MssqlServer R} {url table : String} {ds : DataSet}

theorem mssqlCreate_error (hconnected : w.connect url = none) {create : Bool} {t t' : Table R} {e : SinkError}
    (h : Attempt.when create (mssqlStatement "mssql create table" (w.create (mssqlCreateTableDdl table ds.schema))
      (w.createResults (mssqlCreateTableDdl table ds.schema)) fun t => some (t.getD [])) t = (t', .error e)) :
    create = true ∧ t' = t ∧ mssqlCreated w url table ds true = false := by
  obtain ⟨rfl, hstatement⟩ := Attempt.when_error h
  obtain ⟨rfl, hrefused⟩ := mssqlStatement_error hstatement
  refine ⟨rfl, rfl, ?_⟩
  unfold mssqlCreated
  rw [hconnected, Bool.and_assoc, hrefused]
  rfl

theorem mssqlCreate_ok (hconnected : w.connect url = none) {create : Bool} {t t' : Table R} {u : Unit}
    (h : Attempt.when create (mssqlStatement "mssql create table" (w.create (mssqlCreateTableDdl table ds.schema))
      (w.createResults (mssqlCreateTableDdl table ds.schema)) fun t => some (t.getD [])) t = (t', .ok u)) :
    t' = (if mssqlCreated w url table ds create then some (t.getD []) else t) ∧
      (mssqlCreated w url table ds create || !create) = true := by
  rcases Attempt.when_ok h with ⟨rfl, rfl⟩ | ⟨rfl, hstatement⟩
  · simp [mssqlCreated]
  · obtain ⟨hnone, hread, rfl⟩ := mssqlStatement_ok hstatement
    simp [mssqlCreated, hconnected, hnone, hread]

theorem mssqlTruncate_error {create truncate : Bool} {t t' : Table R} {e : SinkError}
    (h : Attempt.when truncate (mssqlStatement "mssql truncate" (w.truncate (mssqlTruncateSql table))
      (w.truncateResults (mssqlTruncateSql table)) (Option.map fun _ => [])) t = (t', .error e)) :
    truncate = true ∧ t' = t ∧ mssqlTruncated w url table ds create true = false := by
  obtain ⟨rfl, hstatement⟩ := Attempt.when_error h
  obtain ⟨rfl, hrefused⟩ := mssqlStatement_error hstatement
  refine ⟨rfl, rfl, ?_⟩
  unfold mssqlTruncated
  rw [Bool.and_assoc _ (w.truncate _).isNone, hrefused, Bool.and_false]

theorem mssqlTruncate_ok (hconnected : w.connect url = none) {create truncate : Bool}
    (hcreated : (mssqlCreated w url table ds create || !create) = true) {t t' : Table R} {u : Unit}
    (h : Attempt.when truncate (mssqlStatement "mssql truncate" (w.truncate (mssqlTruncateSql table))
      (w.truncateResults (mssqlTruncateSql table)) (Option.map fun _ => [])) t = (t', .ok u)) :
    t' = (if mssqlTruncated w url table ds create truncate then t.map fun _ => [] else t) ∧
      mssqlReady w url table ds create truncate = true := by
  unfold mssqlReady
  rw [hcreated, hconnected]
  rcases Attempt.when_ok h with ⟨rfl, rfl⟩ | ⟨rfl, hstatement⟩
  · simp [mssqlTruncated]
  · obtain ⟨hnone, hread, rfl⟩ := mssqlStatement_ok hstatement
    have hyes : mssqlTruncated w url table ds create true = true := by
      unfold mssqlTruncated
      rw [hcreated, hconnected, hnone, hread]
      rfl
    simp [hyes]

end Schema

/-- one row: inserted, or the loop ends -/
theorem mssqlInsertRow_step (w : MssqlServer R) (sql : String) (schema : Schema) (r : Row × ℕ) (t : Table R) :
    (∃ binds rows, mssqlBinds schema r.1 = .ok binds ∧ w.insert r.2 sql = none ∧ t = some rows ∧
      mssqlInsertRow w sql schema r t = (some (rows ++ [w.stored binds]), .ok ())) ∨
    (∃ e, ((∀ binds, mssqlBinds schema r.1 ≠ .ok binds) ∨ w.insert r.2 sql ≠ none ∨ t = none) ∧
      mssqlInsertRow w sql schema r t = (t, .error e)) := by
  unfold mssqlInsertRow
  cases hbinds : mssqlBinds schema r.1 with
  | error m => exact Or.inr ⟨m, Or.inl (by simp), rfl⟩
  | ok binds =>
    have hrow : ∀ f : List Bind → Attempt (Table R) SinkError Unit,
        (Attempt.ofExcept (Except.ok binds) >>= f) t = f binds t := fun f => Attempt.bind_ok rfl
    rw [hrow]
    unfold statement
    cases hinsert : w.insert r.2 sql with
    | some m => exact Or.inr ⟨_, Or.inr (Or.inl (by simp)), rfl⟩
    | none =>
      cases t with
      | none => exact Or.inr ⟨_, Or.inr (Or.inr rfl), rfl⟩
      | some old => exact Or.inl ⟨binds, old, rfl, rfl, rfl, rfl⟩

theorem mssql_rows_left (w : MssqlServer R) (sql : String) (schema : Schema) (rows : List (Row × ℕ)) (t : Table R) :
    (Attempt.each (mssqlInsertRow w sql schema) rows t).1 = t.map (· ++ mssqlAccepted w sql schema rows) := by
  induction rows generalizing t with
  | nil => cases t <;> simp [mssqlAccepted, Attempt.each, Attempt.done]
  | cons r rows ih =>
    rcases mssqlInsertRow_step w sql schema r t with ⟨binds, old, hbinds, hinsert, rfl, hstep⟩ | ⟨e, hstop, hstep⟩
    · have heach := Attempt.bind_ok (f := fun _ => Attempt.each (mssqlInsertRow w sql schema) rows) hstep
      have haccepted : mssqlAccepted w sql schema (r :: rows) = w.stored binds :: mssqlAccepted w sql schema rows := by
        rw [mssqlAccepted, hbinds, hinsert]
      rw [haccepted]
      refine (congrArg Prod.fst heach).trans ((ih _).trans ?_)
      simp
    · have heach := Attempt.bind_of_error (f := fun _ => Attempt.each (mssqlInsertRow w sql schema) rows) hstep
      refine (congrArg Prod.fst heach).trans ?_
      cases t with
      | none => rfl
      | some old =>
        have hnil : mssqlAccepted w sql schema (r :: rows) = [] := by
          unfold mssqlAccepted
          split
          · rename_i binds hbinds hinsert
            rcases hstop with h | h | h
            · exact absurd hbinds (h binds)
            · exact absurd hinsert h
            · cases h
          · rfl
        simp [hnil]

/-- **A failed load** leaves what the schema statements made of the table, and the rows inserted before the failure -/
theorem mssql_left {w : MssqlServer R} {url table : String} {ds : DataSet} {create truncate : Bool}
    {before after : Table R} {e : SinkError}
    (h : mssqlRowSink w url table ds create truncate before = (after, .error e)) :
    after = if mssqlReady w url table ds create truncate then
        (mssqlSchemaLeft w url table ds create truncate before).map
          (· ++ mssqlAccepted w (mssqlInsertSql table ds.schema) ds.schema ds.rows.zipIdx)
      else mssqlSchemaLeft w url table ds create truncate before := by
  rcases Attempt.bind_error h with hx | ⟨u₁, s₁, hconnect, h₁⟩
  · obtain ⟨rfl, hrefused⟩ := request_error hx
    simp [mssqlReady, mssqlSchemaLeft, mssqlCreated, mssqlTruncated, isNone_refused hrefused]
  obtain ⟨hconnected, rfl⟩ := request_ok hconnect
  rcases Attempt.bind_error h₁ with hx | ⟨u₂, s₂, hcreate, h₂⟩
  · obtain ⟨rfl, rfl, hnot⟩ := mssqlCreate_error hconnected hx
    simp [mssqlReady, mssqlSchemaLeft, mssqlTruncated, hnot]
  obtain ⟨hs₂, hcreated⟩ := mssqlCreate_ok hconnected hcreate
  rcases Attempt.bind_error h₂ with hx | ⟨u₃, s₃, htruncate, h₃⟩
  · obtain ⟨rfl, rfl, hnot⟩ := @mssqlTruncate_error R w url table ds create _ _ _ _ hx
    simp [mssqlReady, mssqlSchemaLeft, hnot, hs₂]
  obtain ⟨hs₃, hready⟩ := mssqlTruncate_ok hconnected hcreated htruncate
  have hschema : s₃ = mssqlSchemaLeft w url table ds create truncate s₁ := by
    rw [hs₃, hs₂]
    rfl
  rw [hready, ← hschema]
  rcases Attempt.bind_error h₃ with hx | ⟨u₄, s₄, hrows, h₄⟩
  · have hleft := mssql_rows_left w (mssqlInsertSql table ds.schema) ds.schema ds.rows.zipIdx s₃
    rw [hx] at hleft
    simpa using hleft
  · cases h₄

end Mssql

/-! ## The three sinks -/

/-- **A failed sink call leaves** what its schema statements made of the table, and for SQL Server the rows before the
failure -/
theorem failed_sinks_left {R : Type} (url table : String) (ds : DataSet) (create truncate : Bool)
    (before after : Table R) (e : SinkError) :
    (∀ w : PgServer R, postgresCopySink w url table ds create truncate before = (after, .error e) →
      after = if pgTruncated w url table ds create truncate before then some []
        else if pgCreated w url table ds create then some (before.getD []) else before) ∧
    (∀ w : OracleServer R, oracleRowSink w url table ds create truncate before = (after, .error e) →
      after = if oracleCreated w url table ds create truncate before then some []
        else if oracleDropped w url table truncate before then none else before) ∧
    (∀ w : MssqlServer R, mssqlRowSink w url table ds create truncate before = (after, .error e) →
      after = if mssqlReady w url table ds create truncate then
          (mssqlSchemaLeft w url table ds create truncate before).map
            (· ++ mssqlAccepted w (mssqlInsertSql table ds.schema) ds.schema ds.rows.zipIdx)
        else mssqlSchemaLeft w url table ds create truncate before) := by
  refine ⟨?_, ?_, ?_⟩
  · intro w h
    exact postgres_left h
  · intro w h
    exact oracle_left h
  · intro w h
    exact mssql_left h

/-- a call that fails leaves the table as it was -/
def UntouchedOnFailure {R : Type} (call : Attempt (Table R) SinkError ℕ) : Prop :=
  ∀ before after e, call before = (after, .error e) → after = before

/-- a `COPY` is one statement, the Oracle inserts are one transaction -/
theorem load_untouched {R : Type} (url table : String) (ds : DataSet) :
    (∀ w : PgServer R, UntouchedOnFailure (postgresCopySink w url table ds false false)) ∧
    (∀ w : OracleServer R, UntouchedOnFailure (oracleRowSink w url table ds false false)) := by
  constructor
  · intro w before after e h
    simpa [pgTruncated, pgCreated] using postgres_left h
  · intro w before after e h
    simpa [oracleCreated, oracleDropped] using oracle_left h

/-- PostgreSQL runs out of space, Oracle cannot commit, SQL Server finds a key twice -/
def fullPg : PgServer (List Char) :=
  ⟨fun _ => none, fun _ => none, fun _ => none, fun _ => none, fun _ => none, some "disk full", "no such table",
    fun body => [body]⟩

def fullOracle : OracleServer (List (Option String)) :=
  ⟨fun _ => none, fun _ => none, fun _ => none, fun _ _ => none, some "disk full", "no such table", "table exists", id⟩

def keyedMssql : MssqlServer (List Bind) :=
  ⟨fun _ => none, fun _ => none, fun _ => none, fun _ => none, fun _ => none,
    fun i _ => if i = 1 then some "duplicate key" else none, "no such table", id⟩

def oneIdTwice : DataSet := ⟨⟨[⟨"id", .int64⟩]⟩, [[.int64 7], [.int64 7]]⟩

/-- a table of one row, emptied or added to by a call that fails: no sink leaves the table untouched on every failure -/
theorem failed_sinks_change_table :
    (postgresCopySink fullPg "postgres://db" "people" oneIdTwice false true (some [['1']]) =
      (some [], .error (.text "postgres copy finish: disk full")) ∧
    oracleRowSink fullOracle "oracle://u:p@db" "people" oneIdTwice true true (some [[some "1"]]) =
      (some [], .error (.text "disk full")) ∧
    mssqlRowSink keyedMssql "mssql://u@db" "people" oneIdTwice false false (some [[.bigint 1]]) =
      (some [[.bigint 1], [.bigint 7]], .error (.text "mssql insert row 1: duplicate key"))) ∧
    ¬UntouchedOnFailure (postgresCopySink fullPg "postgres://db" "people" oneIdTwice false true) ∧
    ¬UntouchedOnFailure (oracleRowSink fullOracle "oracle://u:p@db" "people" oneIdTwice true true) ∧
    ¬UntouchedOnFailure (mssqlRowSink keyedMssql "mssql://u@db" "people" oneIdTwice false false) := by
  have hpg : postgresCopySink fullPg "postgres://db" "people" oneIdTwice false true (some [['1']]) =
      (some [], .error (.text "postgres copy finish: disk full")) := by decide +kernel
  have horacle : oracleRowSink fullOracle "oracle://u:p@db" "people" oneIdTwice true true (some [[some "1"]]) =
      (some [], .error (.text "disk full")) := by decide +kernel
  have hmssql : mssqlRowSink keyedMssql "mssql://u@db" "people" oneIdTwice false false (some [[.bigint 1]]) =
      (some [[.bigint 1], [.bigint 7]], .error (.text "mssql insert row 1: duplicate key")) := by decide +kernel
  refine ⟨⟨hpg, horacle, hmssql⟩, fun h => ?_, fun h => ?_, fun h => ?_⟩
  · cases h _ _ _ hpg
  · cases h _ _ _ horacle
  · cases h _ _ _ hmssql

theorem full_disk_left :
    ((some [] : Table (List Char)) =
      if pgTruncated fullPg "postgres://db" "people" oneIdTwice false true (some [['1']]) then some []
      else if pgCreated fullPg "postgres://db" "people" oneIdTwice false then some [['1']] else some [['1']]) ∧
    ((some [] : Table (List (Option String))) =
      if oracleCreated fullOracle "oracle://u:p@db" "people" oneIdTwice true true (some [[some "1"]]) then some []
      else if oracleDropped fullOracle "oracle://u:p@db" "people" true (some [[some "1"]]) then none
      else some [[some "1"]]) ∧
    ((some [[.bigint 1], [.bigint 7]] : Table (List Bind)) =
      if mssqlReady keyedMssql "mssql://u@db" "people" oneIdTwice false false then
        (mssqlSchemaLeft keyedMssql "mssql://u@db" "people" oneIdTwice false false (some [[.bigint 1]])).map
          (· ++ mssqlAccepted keyedMssql (mssqlInsertSql "people" oneIdTwice.schema) oneIdTwice.schema
            oneIdTwice.rows.zipIdx)
      else mssqlSchemaLeft keyedMssql "mssql://u@db" "people" oneIdTwice false false (some [[.bigint 1]])) := by
  refine ⟨?_, ?_, ?_⟩
  · exact (failed_sinks_left "postgres://db" "people" oneIdTwice false true (some [['1']]) (some [])
      (.text "postgres copy finish: disk full")).1 fullPg (by decide +kernel)
  · exact (failed_sinks_left "oracle://u:p@db" "people" oneIdTwice true true (some [[some "1"]]) (some [])
      (.text "disk full")).2.1 fullOracle (by decide +kernel)
  · exact (failed_sinks_left "mssql://u@db" "people" oneIdTwice false false (some [[.bigint 1]])
      (some [[.bigint 1], [.bigint 7]]) (.text "mssql insert row 1: duplicate key")).2.2 keyedMssql (by decide +kernel)

end RustDataProcessing.JvmSys
