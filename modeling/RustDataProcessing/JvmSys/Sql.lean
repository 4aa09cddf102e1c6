/-
The statements the database sinks build (`bindings/jvm-sys/src/pipeline_run.rs`).

PostgreSQL names are quoted with their quotes doubled; SQL Server names are put in brackets as they are; Oracle names are
not quoted at all. What a server makes of a statement is its tokens, by its own rule for quoted names (`pgDialect`,
`tsqlDialect`).

- `pg_tokens`: whatever the fields are called, a PostgreSQL column list is read as the fields' names.
- `tsql_tokens_iff`: a SQL Server column list is, exactly when no name has a closing bracket.
- `names_kept_iff`: so are all four statements.
-/
import Mathlib.Tactic
import RustDataProcessing.Lib.Quoted
import RustDataProcessing.Lib.Display
import RustDataProcessing.Types

namespace RustDataProcessing.JvmSys

open Quoted (Token Dialect)

/-- `cols.join(", ")` -/
def joinColumns (cols : List String) : String := ", ".intercalate cols

/-! ## PostgreSQL -/

def quotePgIdent (id : String) : String := "\"" ++ RustStd.replace id '"' "\"\"" ++ "\""

/-- schema and table of a table name; `public` when there is no dot -/
def splitTableIdent (table : String) : Except String (String × String) :=
  let t := RustStd.trim table
  if t = "" then .error "postgresql table is empty"
  else if ¬t.toList.all (fun c => c.isAlphanum || c = '_' || c = '.') then
    .error s!"postgresql table `{t}` must be ascii alnum/underscore/dot only (schema.table)"
  else match RustStd.splitOnce t '.' with
    | some (s, rest) =>
      if s = "" ∨ rest = "" ∨ RustStd.contains rest '.' then .error s!"invalid postgresql table `{t}`"
      else .ok (s, rest)
    | none => .ok ("public", t)

def pgTypeSql : DataType → String
  | .int64 => "BIGINT"
  | .float64 => "DOUBLE PRECISION"
  | .bool => "BOOLEAN"
  | .utf8 => "TEXT"

def pgCreateTableDdl (fq : String) (schema : Schema) : String :=
  "CREATE TABLE IF NOT EXISTS " ++ fq ++ " (" ++
    joinColumns (schema.fields.map fun f => quotePgIdent f.name ++ " " ++ pgTypeSql f.dataType) ++ ")"

/-- the table's name in a statement -/
def pgTable (schemaPart tablePart : String) : String := quotePgIdent schemaPart ++ "." ++ quotePgIdent tablePart

def pgTruncateSql (fq : String) : String := "TRUNCATE TABLE " ++ fq

def pgCopySql (fq : String) (schema : Schema) : String :=
  "COPY " ++ fq ++ " (" ++ joinColumns (schema.fieldNames.map quotePgIdent) ++
    ") FROM STDIN WITH (FORMAT text, NULL '\\N', ENCODING 'UTF8')"

/-! ## SQL Server -/

def mssqlTypeSql : DataType → String
  | .int64 => "BIGINT"
  | .float64 => "FLOAT"
  | .bool => "BIT"
  | .utf8 => "NVARCHAR(4000)"

/-- a statement up to its column list -/
def mssqlCreateHead (table : String) : String :=
  "IF OBJECT_ID(N'" ++ table ++ "', N'U') IS NULL CREATE TABLE " ++ table ++ " ("

def mssqlCreateTableDdl (table : String) (schema : Schema) : String :=
  mssqlCreateHead table ++ joinColumns (schema.fields.map fun f => "[" ++ f.name ++ "] " ++ mssqlTypeSql f.dataType) ++ ")"

def mssqlTruncateSql (table : String) : String :=
  "IF OBJECT_ID(N'" ++ table ++ "', N'U') IS NOT NULL TRUNCATE TABLE " ++ table

def mssqlInsertHead (table : String) : String := "INSERT INTO " ++ table ++ " ("

/-- the values' part of an insert: `@P1, @P2, …` or `:1, :2, …` -/
def placeholders (mark : String) (n : ℕ) : String :=
  joinColumns ((List.range' 1 n).map fun i => mark ++ toString i)

def mssqlInsertTail (n : ℕ) : String := ") VALUES (" ++ placeholders "@P" n ++ ")"

def mssqlInsertSql (table : String) (schema : Schema) : String :=
  mssqlInsertHead table ++ joinColumns (schema.fieldNames.map fun n => "[" ++ n ++ "]") ++
    mssqlInsertTail schema.fields.length

/-! ## Oracle -/

def oracleTypeSql : DataType → String
  | .int64 => "NUMBER(19)"
  | .float64 => "NUMBER"
  | .bool => "NUMBER(1)"
  | .utf8 => "VARCHAR2(4000)"

def oracleDropSql (table : String) : String := "DROP TABLE " ++ table ++ " PURGE"

def oracleCreateTableDdl (table : String) (schema : Schema) : String :=
  "CREATE TABLE " ++ table ++ " (\n    " ++
    ",\n    ".intercalate (schema.fields.map fun f => f.name ++ " " ++ oracleTypeSql f.dataType) ++ "\n)"

def oracleInsertSql (table : String) (schema : Schema) : String :=
  "INSERT INTO " ++ table ++ " (" ++ joinColumns schema.fieldNames ++ ") VALUES (" ++
    placeholders ":" schema.fields.length ++ ")"

/-! ## Tokens -/

/-- double quotes for names, single quotes for texts -/
def pgDialect : Dialect
  | '"' => some '"'
  | '\'' => some '\''
  | _ => none

/-- brackets too -/
def tsqlDialect : Dialect
  | '[' => some ']'
  | '"' => some '"'
  | '\'' => some '\''
  | _ => none

/-- the tokens of a column list: each name, quoted, with what follows it -/
def columnTokens (mark : Char) : List (String × String) → List Token
  | [] => []
  | [(name, more)] => .quoted mark name.toList :: Quoted.chars more.toList
  | (name, more) :: cols => .quoted mark name.toList :: Quoted.chars (more.toList ++ [',', ' ']) ++ columnTokens mark cols

theorem columnTokens_cons_cons (mark : Char) (c e : String × String) (cols : List (String × String)) :
    columnTokens mark (c :: e :: cols) =
      .quoted mark c.1.toList :: (Quoted.chars (c.2.toList ++ [',', ' ']) ++ columnTokens mark (e :: cols)) := rfl

/-- the columns of a `CREATE TABLE`, and of a list of names -/
def typedColumns (typeSql : DataType → String) (schema : Schema) : List (String × String) :=
  schema.fields.map fun f => (f.name, " " ++ typeSql f.dataType)

def bareColumns (schema : Schema) : List (String × String) := schema.fields.map fun f => (f.name, "")

/-- what follows the column list of a `COPY` -/
def copyOptions : List Token :=
  Quoted.chars " FROM STDIN WITH (FORMAT text, NULL ".toList ++ .quoted '\'' ['\\', 'N'] ::
    (Quoted.chars ", ENCODING ".toList ++ [.quoted '\'' "UTF8".toList, .char ')'])

/-- every statement is read with the fields' names as its columns -/
structure NamesKept (schemaPart tablePart table : String) (schema : Schema) : Prop where
  pgCreate : Quoted.tokens pgDialect (pgCreateTableDdl (pgTable schemaPart tablePart) schema).toList = some
    (Quoted.chars "CREATE TABLE IF NOT EXISTS ".toList ++
      [.quoted '"' schemaPart.toList, .char '.', .quoted '"' tablePart.toList] ++ Quoted.chars " (".toList ++
      columnTokens '"' (typedColumns pgTypeSql schema) ++ [.char ')'])
  pgCopy : Quoted.tokens pgDialect (pgCopySql (pgTable schemaPart tablePart) schema).toList = some
    (Quoted.chars "COPY ".toList ++
      [.quoted '"' schemaPart.toList, .char '.', .quoted '"' tablePart.toList] ++ Quoted.chars " (".toList ++
      columnTokens '"' (bareColumns schema) ++ .char ')' :: copyOptions)
  mssqlCreate : ∃ head, Quoted.tokens tsqlDialect (mssqlCreateHead table).toList = some head ∧
    Quoted.tokens tsqlDialect (mssqlCreateTableDdl table schema).toList = some
      (head ++ columnTokens '[' (typedColumns mssqlTypeSql schema) ++ [.char ')'])
  mssqlInsert : ∃ head, Quoted.tokens tsqlDialect (mssqlInsertHead table).toList = some head ∧
    Quoted.tokens tsqlDialect (mssqlInsertSql table schema).toList = some
      (head ++ columnTokens '[' (bareColumns schema) ++ Quoted.chars (mssqlInsertTail schema.fields.length).toList)

/-- the table's own text is finished where the column list begins -/
def TableFinished (table : String) : Prop :=
  (Quoted.tokens tsqlDialect (mssqlCreateHead table).toList).isSome ∧
    (Quoted.tokens tsqlDialect (mssqlInsertHead table).toList).isSome

/-! ## Column lists -/

/-- the text of a column list, the names written by `quote` -/
def columnText (quote : String → String) (cols : List (String × String)) : List Char :=
  (joinColumns (cols.map fun c => quote c.1 ++ c.2)).toList

theorem columnText_cons_cons (quote : String → String) (c e : String × String) (cols : List (String × String)) :
    columnText quote (c :: e :: cols) =
      (quote c.1).toList ++ (c.2.toList ++ [',', ' ']) ++ columnText quote (e :: cols) := by
  unfold columnText joinColumns
  rw [List.map_cons, List.map_cons, String.intercalate_cons_cons]
  simp

theorem columnText_singleton (quote : String → String) (c : String × String) :
    columnText quote [c] = (quote c.1).toList ++ c.2.toList := by
  unfold columnText joinColumns
  rw [List.map_singleton, String.intercalate_singleton, String.toList_append]

section Columns

variable {d : Dialect} {mark close : Char} (hmark : d mark = some close)
include hmark

/-- a list whose names are quoted with their closing marks doubled is the text of its tokens -/
theorem render_columnTokens {quote : String → String}
    (hquote : ∀ n, (quote n).toList = mark :: Quoted.double close n.toList ++ [close]) (cols : List (String × String)) :
    Quoted.render d (columnTokens mark cols) = columnText quote cols := by
  have hname : ∀ n ts, Quoted.render d (.quoted mark n :: ts) =
      (mark :: Quoted.double close n ++ [close]) ++ Quoted.render d ts := by
    intro n ts
    simp [Quoted.render, Quoted.renderToken, hmark]
  induction cols with
  | nil => rfl
  | cons c cols ih =>
    cases cols with
    | nil => rw [columnTokens, hname, Quoted.render_chars, columnText_singleton, hquote]
    | cons e cols =>
      rw [columnTokens_cons_cons, hname, Quoted.render_append, Quoted.render_chars, ih, columnText_cons_cons, hquote]
      simp only [List.append_assoc]

/-- a list whose names are put between the marks as they are is shorter by what is not doubled -/
theorem length_columnTokens {quote : String → String}
    (hquote : ∀ n, (quote n).toList = mark :: n.toList ++ [close]) (cols : List (String × String)) :
    (Quoted.render d (columnTokens mark cols)).length =
      (columnText quote cols).length + (cols.map fun c => c.1.toList.count close).sum := by
  let doubled : String → String := fun n => String.ofList (mark :: Quoted.double close n.toList ++ [close])
  have hdoubled : ∀ n, (doubled n).toList = mark :: Quoted.double close n.toList ++ [close] :=
    fun n => String.toList_ofList
  have hlen : ∀ n, (doubled n).toList.length = (quote n).toList.length + n.toList.count close := by
    intro n
    rw [hdoubled, hquote]
    simp only [List.length_append, List.length_cons, Quoted.length_double, List.length_nil]
    omega
  rw [render_columnTokens hmark hdoubled]
  induction cols with
  | nil => rfl
  | cons c cols ih =>
    cases cols with
    | nil =>
      rw [columnText_singleton, columnText_singleton, List.length_append, List.length_append, hlen]
      simp
      omega
    | cons e cols =>
      rw [columnText_cons_cons, columnText_cons_cons]
      simp only [List.length_append, ih, hlen, List.map_cons, List.sum_cons]
      omega

/-- a column list is separated: no name is followed by its closing mark -/
theorem separated_columnTokens (hcomma : d ',' = none) (hblank : d ' ' = none) (hclose : close ≠ ',')
    {cols : List (String × String)}
    (hmore : ∀ c ∈ cols, (∀ e ∈ c.2.toList, d e = none) ∧ c.2.toList.head? ≠ some close) :
    Quoted.Separated d (columnTokens mark cols) := by
  induction cols with
  | nil => trivial
  | cons c cols ih =>
    obtain ⟨⟨hplain, hhead⟩, hrest⟩ := List.forall_mem_cons.1 hmore
    cases cols with
    | nil =>
      refine ⟨⟨close, hmark, ?_⟩, Quoted.separated_chars hplain⟩
      rw [Quoted.render_chars]
      exact hhead
    | cons e cols =>
      have hplain' : ∀ x ∈ c.2.toList ++ [',', ' '], d x = none := by
        intro x hx
        rcases List.mem_append.1 hx with hx | hx
        · exact hplain x hx
        rcases List.mem_pair.1 hx with rfl | rfl
        · exact hcomma
        · exact hblank
      refine ⟨⟨close, hmark, ?_⟩, Quoted.separated_chars_append hplain' (ih hrest)⟩
      change (Quoted.render d (Quoted.chars (c.2.toList ++ [',', ' ']) ++ columnTokens mark (e :: cols))).head? ≠ _
      rw [Quoted.render_append, Quoted.render_chars, List.append_assoc, List.head?_append]
      cases hc : c.2.toList.head? with
      | none => simpa using Ne.symm hclose
      | some x => rwa [hc] at hhead

end Columns

/-! ## PostgreSQL statements -/

theorem toList_quotePgIdent (n : String) : (quotePgIdent n).toList = '"' :: Quoted.double '"' n.toList ++ ['"'] := by
  have hreplace : (RustStd.replace n '"' "\"\"").toList = Quoted.double '"' n.toList := String.toList_ofList
  rw [quotePgIdent, String.toList_append, String.toList_append, hreplace]
  rfl

theorem render_pgTable (s t : String) : Quoted.render pgDialect
    [.quoted '"' s.toList, .char '.', .quoted '"' t.toList] = (pgTable s t).toList := by
  rw [pgTable, String.toList_append, String.toList_append, toList_quotePgIdent, toList_quotePgIdent]
  simp [Quoted.render, Quoted.renderToken, pgDialect]

/-- **A PostgreSQL statement is read with the names of its columns**, whatever they are -/
theorem pg_tokens {s t : String} {cols : List (String × String)} {before : List Char} {after : List Token}
    (hbefore : ∀ c ∈ before, pgDialect c = none) (hafter : Quoted.Separated pgDialect after)
    (hmore : ∀ c ∈ cols, ∀ x ∈ c.2.toList, pgDialect x = none) :
    Quoted.tokens pgDialect (before ++ (pgTable s t).toList ++ " (".toList ++ columnText quotePgIdent cols ++
        ')' :: Quoted.render pgDialect after) =
      some (Quoted.chars before ++ [.quoted '"' s.toList, .char '.', .quoted '"' t.toList] ++ Quoted.chars " (".toList ++
        columnTokens '"' cols ++ .char ')' :: after) := by
  have hmark : pgDialect '"' = some '"' := rfl
  have hparen : ∀ mark, pgDialect mark ≠ some ')' := by
    intro mark
    unfold pgDialect
    split <;> simp
  have hhead : ∀ c ∈ cols, (∀ x ∈ c.2.toList, pgDialect x = none) ∧ c.2.toList.head? ≠ some '"' := by
    intro c hc
    refine ⟨hmore c hc, fun h => ?_⟩
    have := hmore c hc '"' (List.mem_of_mem_head? h)
    cases this
  have hcols : Quoted.Separated pgDialect (columnTokens '"' cols ++ .char ')' :: after) :=
    Quoted.separated_append (separated_columnTokens hmark rfl rfl (by decide) hhead) ⟨rfl, hafter⟩
      (Quoted.joinable_char hparen after)
  have hall : Quoted.Separated pgDialect (Quoted.chars before ++ ([.quoted '"' s.toList, .char '.', .quoted '"' t.toList] ++
      (Quoted.chars " (".toList ++ (columnTokens '"' cols ++ .char ')' :: after)))) := by
    have hopen := Quoted.separated_chars_append (d := pgDialect) (s := " (".toList) (by decide) hcols
    refine Quoted.separated_chars_append hbefore ⟨⟨'"', hmark, ?_⟩, rfl, ⟨'"', hmark, ?_⟩, hopen⟩
    · simp [Quoted.render, Quoted.renderToken]
    · simp [Quoted.chars, Quoted.render, Quoted.renderToken]
  have hrender : Quoted.render pgDialect (.char ')' :: after) = ')' :: Quoted.render pgDialect after := rfl
  have htokens := Quoted.tokens_render hall
  simp only [Quoted.render_append, Quoted.render_chars, render_pgTable, hrender,
    render_columnTokens hmark toList_quotePgIdent] at htokens
  simpa only [List.append_assoc] using htokens

theorem columnText_typed (quote : String → String) (typeSql : DataType → String) (schema : Schema) :
    columnText quote (typedColumns typeSql schema) =
      (joinColumns (schema.fields.map fun f => quote f.name ++ " " ++ typeSql f.dataType)).toList := by
  simp only [columnText, typedColumns, List.map_map, Function.comp_def, String.append_assoc]

theorem columnText_bare (quote : String → String) (schema : Schema) :
    columnText quote (bareColumns schema) = (joinColumns (schema.fieldNames.map quote)).toList := by
  simp only [columnText, bareColumns, Schema.fieldNames, List.map_map, Function.comp_def, String.append_empty]

/-- the types are plain text in both dialects -/
theorem plain_types (dt : DataType) : (∀ c ∈ (" " ++ pgTypeSql dt).toList, pgDialect c = none) ∧
    (∀ c ∈ (" " ++ mssqlTypeSql dt).toList, tsqlDialect c = none) ∧ (" " ++ mssqlTypeSql dt).toList.head? = some ' ' := by
  cases dt <;> decide

/-! ## SQL Server statements -/

def bracketed (n : String) : String := "[" ++ n ++ "]"

theorem toList_bracketed (n : String) : (bracketed n).toList = '[' :: n.toList ++ [']'] := by
  rw [bracketed, String.toList_append, String.toList_append]
  rfl

/-- **A SQL Server statement is read with the names of its columns** exactly when no name has a closing bracket -/
theorem tsql_tokens_iff {cols : List (String × String)} {before after : List Char} {head : List Token}
    (hhead : Quoted.tokens tsqlDialect (before ++ ['(']) = some head)
    (hafter : ∀ c ∈ after, tsqlDialect c = none)
    (hmore : ∀ c ∈ cols, (∀ x ∈ c.2.toList, tsqlDialect x = none) ∧ c.2.toList.head? ≠ some ']') :
    Quoted.tokens tsqlDialect (before ++ ['('] ++ (columnText bracketed cols ++ ')' :: after)) =
        some (head ++ columnTokens '[' cols ++ Quoted.chars (')' :: after)) ↔
      ∀ c ∈ cols, ']' ∉ c.1.toList := by
  have hmark : tsqlDialect '[' = some ']' := rfl
  have hclose : ∀ c, c = '(' ∨ c = ')' → ∀ mark, tsqlDialect mark ≠ some c := by
    rintro c (rfl | rfl) mark <;> (unfold tsqlDialect; split <;> simp)
  have hrest : ∀ x ∈ ')' :: after, tsqlDialect x = none := by
    rintro x (_ | ⟨_, hx⟩)
    · rfl
    · exact hafter x hx
  constructor
  · intro h
    have hrender := Quoted.render_tokens h
    rw [Quoted.render_append, Quoted.render_append, Quoted.render_chars, Quoted.render_tokens hhead,
      List.append_assoc (before ++ ['('])] at hrender
    have htext := List.append_cancel_right (List.append_cancel_left hrender)
    have hlen := length_columnTokens hmark toList_bracketed cols
    rw [htext] at hlen
    have hsum : (cols.map fun c => c.1.toList.count ']').sum = 0 := by omega
    intro c hc
    have hzero := List.sum_eq_zero_iff.1 hsum _ (List.mem_map_of_mem hc)
    exact List.count_eq_zero.1 hzero
  · intro h
    let doubled : String → String := fun n => String.ofList ('[' :: Quoted.double ']' n.toList ++ [']'])
    have hdoubled : ∀ n, (doubled n).toList = '[' :: Quoted.double ']' n.toList ++ [']'] := fun n => String.toList_ofList
    have hnames : ∀ c ∈ cols, bracketed c.1 = doubled c.1 := by
      intro c hc
      rw [← String.toList_inj, hdoubled, toList_bracketed, Quoted.double_of_not_mem (h c hc)]
    have hsame : columnText bracketed cols = columnText doubled cols := by
      unfold columnText
      rw [List.map_congr_left fun c hc => by rw [hnames c hc]]
    have hsep : Quoted.Separated tsqlDialect (columnTokens '[' cols ++ Quoted.chars (')' :: after)) :=
      Quoted.separated_append (separated_columnTokens hmark rfl rfl (by decide) hmore) (Quoted.separated_chars hrest)
        (Quoted.joinable_char (hclose ')' (Or.inr rfl)) _)
    have htokens := Quoted.tokens_render hsep
    rw [Quoted.render_append, Quoted.render_chars, render_columnTokens hmark hdoubled] at htokens
    rw [Quoted.tokens_append rfl (hclose '(' (Or.inl rfl)) hhead, hsame, htokens, Option.map_some, List.append_assoc]

theorem plain_joinColumns {d : Dialect} (hcomma : d ',' = none) (hblank : d ' ' = none) {cols : List String}
    (h : ∀ s ∈ cols, ∀ c ∈ s.toList, d c = none) : ∀ c ∈ (joinColumns cols).toList, d c = none := by
  induction cols with
  | nil => intro c hc; cases hc
  | cons s cols ih =>
    obtain ⟨hs, hcols⟩ := List.forall_mem_cons.1 h
    cases cols with
    | nil =>
      rw [joinColumns, String.intercalate_singleton]
      exact hs
    | cons t cols =>
      have hcons : joinColumns (s :: t :: cols) = s ++ ", " ++ joinColumns (t :: cols) := String.intercalate_cons_cons
      intro c hc
      rw [hcons, String.toList_append, String.toList_append, List.mem_append, List.mem_append] at hc
      rcases hc with (hc | hc) | hc
      · exact hs c hc
      · rcases List.mem_pair.1 hc with rfl | rfl
        · exact hcomma
        · exact hblank
      · exact ih hcols c hc

theorem plain_digit {c : Char} (h : c.isDigit) : tsqlDialect c = none := by
  unfold tsqlDialect
  split <;> first | rfl | cases h

theorem plain_mssqlInsertTail (n : ℕ) : ∃ after, (mssqlInsertTail n).toList = ')' :: after ∧
    ∀ c ∈ after, tsqlDialect c = none := by
  refine ⟨" VALUES (".toList ++ (placeholders "@P" n).toList ++ [')'], by simp [mssqlInsertTail], fun c hc => ?_⟩
  have hvalues : ∀ c ∈ " VALUES (".toList, tsqlDialect c = none := by decide
  have hplaces : ∀ s ∈ (List.range' 1 n).map fun i => "@P" ++ toString i, ∀ c ∈ s.toList, tsqlDialect c = none := by
    intro s hs c hc
    obtain ⟨i, -, rfl⟩ := List.mem_map.1 hs
    rw [String.toList_append, List.mem_append] at hc
    rcases hc with hc | hc
    · rcases List.mem_pair.1 hc with rfl | rfl <;> rfl
    · have hdigits : (toString i).toList = Nat.toDigits 10 i := Nat.toList_repr
      rw [hdigits] at hc
      exact plain_digit (RustStd.isDigit_of_mem_toDigits hc)
  rcases List.mem_append.1 hc with hc | hc
  · rcases List.mem_append.1 hc with hc | hc
    · exact hvalues c hc
    · exact plain_joinColumns rfl rfl hplaces c hc
  · rw [List.mem_singleton.1 hc]
    rfl

theorem names_pgCreate (s t : String) (schema : Schema) :
    Quoted.tokens pgDialect (pgCreateTableDdl (pgTable s t) schema).toList = some
      (Quoted.chars "CREATE TABLE IF NOT EXISTS ".toList ++ [.quoted '"' s.toList, .char '.', .quoted '"' t.toList] ++
        Quoted.chars " (".toList ++ columnTokens '"' (typedColumns pgTypeSql schema) ++ [.char ')']) := by
  have hmore : ∀ c ∈ typedColumns pgTypeSql schema, ∀ x ∈ c.2.toList, pgDialect x = none := by
    intro c hc
    obtain ⟨f, -, rfl⟩ := List.mem_map.1 hc
    exact (plain_types f.dataType).1
  have htext : (pgCreateTableDdl (pgTable s t) schema).toList =
      "CREATE TABLE IF NOT EXISTS ".toList ++ (pgTable s t).toList ++ " (".toList ++
        columnText quotePgIdent (typedColumns pgTypeSql schema) ++ ')' :: Quoted.render pgDialect [] := by
    have hend : ')' :: Quoted.render pgDialect [] = ")".toList := by decide
    unfold pgCreateTableDdl
    rw [columnText_typed, String.toList_append, String.toList_append, String.toList_append, String.toList_append, hend]
  rw [htext]
  exact pg_tokens (by decide +kernel) trivial hmore

theorem separated_copyOptions : Quoted.Separated pgDialect copyOptions := by
  refine Quoted.separated_chars_append (by decide) ⟨⟨'\'', rfl, by decide⟩, ?_⟩
  exact Quoted.separated_chars_append (by decide) ⟨⟨'\'', rfl, by decide⟩, rfl, trivial⟩

theorem names_pgCopy (s t : String) (schema : Schema) :
    Quoted.tokens pgDialect (pgCopySql (pgTable s t) schema).toList = some
      (Quoted.chars "COPY ".toList ++ [.quoted '"' s.toList, .char '.', .quoted '"' t.toList] ++
        Quoted.chars " (".toList ++ columnTokens '"' (bareColumns schema) ++ .char ')' :: copyOptions) := by
  have hmore : ∀ c ∈ bareColumns schema, ∀ x ∈ c.2.toList, pgDialect x = none := by
    intro c hc
    obtain ⟨f, -, rfl⟩ := List.mem_map.1 hc
    intro x hx
    cases hx
  have htext : (pgCopySql (pgTable s t) schema).toList =
      "COPY ".toList ++ (pgTable s t).toList ++ " (".toList ++ columnText quotePgIdent (bareColumns schema) ++
        ')' :: Quoted.render pgDialect copyOptions := by
    have hoptions : ')' :: Quoted.render pgDialect copyOptions =
        ") FROM STDIN WITH (FORMAT text, NULL '\\N', ENCODING 'UTF8')".toList := by decide
    rw [columnText_bare, pgCopySql, String.toList_append, String.toList_append, String.toList_append,
      String.toList_append, hoptions]
  rw [htext]
  exact pg_tokens (by decide) separated_copyOptions hmore

theorem toList_open (s : String) : (s ++ " (").toList = s.toList ++ [' '] ++ ['('] := by
  rw [String.toList_append, List.append_assoc]
  rfl

theorem names_mssqlCreate_iff {table : String} {schema : Schema} {head : List Token}
    (hhead : Quoted.tokens tsqlDialect (mssqlCreateHead table).toList = some head) :
    Quoted.tokens tsqlDialect (mssqlCreateTableDdl table schema).toList =
        some (head ++ columnTokens '[' (typedColumns mssqlTypeSql schema) ++ [.char ')']) ↔
      ∀ name ∈ schema.fieldNames, ']' ∉ name.toList := by
  have hmore : ∀ c ∈ typedColumns mssqlTypeSql schema,
      (∀ x ∈ c.2.toList, tsqlDialect x = none) ∧ c.2.toList.head? ≠ some ']' := by
    intro c hc
    obtain ⟨f, -, rfl⟩ := List.mem_map.1 hc
    obtain ⟨-, hplain, hblank⟩ := plain_types f.dataType
    exact ⟨hplain, by rw [hblank]; decide⟩
  obtain ⟨before, hbefore⟩ : ∃ before, (mssqlCreateHead table).toList = before ++ ['('] :=
    ⟨_, toList_open _⟩
  have htext : (mssqlCreateTableDdl table schema).toList =
      before ++ ['('] ++ (columnText bracketed (typedColumns mssqlTypeSql schema) ++ [')']) := by
    have hcols : (schema.fields.map fun f => "[" ++ f.name ++ "] " ++ mssqlTypeSql f.dataType) =
        schema.fields.map fun f => bracketed f.name ++ " " ++ mssqlTypeSql f.dataType := by
      refine List.map_congr_left fun f _ => ?_
      rw [← String.toList_inj]
      simp [bracketed]
    rw [columnText_typed, mssqlCreateTableDdl, hcols, String.toList_append, String.toList_append, hbefore,
      List.append_assoc]
    rfl
  rw [hbefore] at hhead
  rw [htext]
  refine (tsql_tokens_iff hhead (fun c hc => by cases hc) hmore).trans ?_
  simp [typedColumns, Schema.fieldNames]

theorem names_mssqlInsert_iff {table : String} {schema : Schema} {head : List Token}
    (hhead : Quoted.tokens tsqlDialect (mssqlInsertHead table).toList = some head) :
    Quoted.tokens tsqlDialect (mssqlInsertSql table schema).toList =
        some (head ++ columnTokens '[' (bareColumns schema) ++
          Quoted.chars (mssqlInsertTail schema.fields.length).toList) ↔
      ∀ name ∈ schema.fieldNames, ']' ∉ name.toList := by
  have hmore : ∀ c ∈ bareColumns schema, (∀ x ∈ c.2.toList, tsqlDialect x = none) ∧ c.2.toList.head? ≠ some ']' := by
    intro c hc
    obtain ⟨f, -, rfl⟩ := List.mem_map.1 hc
    constructor
    · intro x hx
      cases hx
    · simp
  obtain ⟨before, hbefore⟩ : ∃ before, (mssqlInsertHead table).toList = before ++ ['('] :=
    ⟨_, toList_open _⟩
  obtain ⟨after, hafter, hplain⟩ := plain_mssqlInsertTail schema.fields.length
  have htext : (mssqlInsertSql table schema).toList =
      before ++ ['('] ++ (columnText bracketed (bareColumns schema) ++ ')' :: after) := by
    rw [columnText_bare, mssqlInsertSql, String.toList_append, String.toList_append, hbefore, hafter, List.append_assoc]
    rfl
  rw [hbefore] at hhead
  rw [htext, hafter]
  refine (tsql_tokens_iff hhead hplain hmore).trans ?_
  simp [bareColumns, Schema.fieldNames]

/-- **Field names cannot change the statements**, exactly when none has a closing bracket -/
theorem names_kept_iff (schemaPart tablePart table : String) (schema : Schema) :
    NamesKept schemaPart tablePart table schema ↔
      TableFinished table ∧ ∀ name ∈ schema.fieldNames, ']' ∉ name.toList := by
  constructor
  · intro h
    obtain ⟨head, hhead, hcreate⟩ := h.mssqlCreate
    obtain ⟨head', hhead', -⟩ := h.mssqlInsert
    exact ⟨⟨by rw [hhead]; rfl, by rw [hhead']; rfl⟩, (names_mssqlCreate_iff hhead).1 hcreate⟩
  · rintro ⟨⟨hcreate, hinsert⟩, hnames⟩
    obtain ⟨head, hhead⟩ := Option.isSome_iff_exists.1 hcreate
    obtain ⟨head', hhead'⟩ := Option.isSome_iff_exists.1 hinsert
    exact ⟨names_pgCreate _ _ _, names_pgCopy _ _ _, ⟨head, hhead, (names_mssqlCreate_iff hhead).2 hnames⟩,
      ⟨head', hhead', (names_mssqlInsert_iff hhead').2 hnames⟩⟩

/-- a name that ends its brackets makes the statement one for two columns -/
theorem bracket_adds_column :
    mssqlCreateTableDdl "dbo.people" ⟨[⟨"id] BIGINT, [admin", .bool⟩]⟩ =
      mssqlCreateTableDdl "dbo.people" ⟨[⟨"id", .int64⟩, ⟨"admin", .bool⟩]⟩ ∧
    ¬NamesKept "public" "people" "dbo.people" ⟨[⟨"id] BIGINT, [admin", .bool⟩]⟩ := by
  refine ⟨by decide +kernel, fun h => ?_⟩
  obtain ⟨head, hhead, hinsert⟩ := h.mssqlInsert
  have hread : Quoted.tokens tsqlDialect (mssqlInsertHead "dbo.people").toList =
      some (Quoted.chars "INSERT INTO dbo.people (".toList) := by decide +kernel
  obtain rfl : Quoted.chars "INSERT INTO dbo.people (".toList = head := Option.some.inj (hread.symm.trans hhead)
  revert hinsert
  decide +kernel

end RustDataProcessing.JvmSys
