/-
The one error type of ingestion (`src/error.rs`), and the severity an observer is told (`unified.rs`).

The raw text of a parse error is a piece of the source, or the printed form of a value (`{:?}` of a cell, a JSON
document, an engine cell); the value stands for what it prints. A call that does not return a value returns an error or
panics (`Fault`): both leave the callers through `?`, and only an error can be mapped or reported.
-/
import Mathlib.Tactic
import RustDataProcessing.Lib.Traverse
import RustDataProcessing.Types
import RustDataProcessing.Json
import RustDataProcessing.Polars

namespace RustDataProcessing

open Polars (IoError ErrorLink PolarsError AnyValue)

inductive RawText where
  | text (s : String)
  | value (v : Value)
  | json (v : Json)
deriving Repr

structure CsvError where
  isIo : Bool
  text : String
deriving DecidableEq, Repr

inductive IngestionError where
  | io (e : IoError)
  | excel (text : String)
  | csv (e : CsvError)
  | parquet (source : List ErrorLink)
  | engine (message : String) (source : List ErrorLink)
  | schemaMismatch (message : String)
  | parseError (row : ℕ) (column : String) (raw : RawText) (message : String)
deriving Repr

/-- how a call ends without a value -/
inductive Fault where
  | error (e : IngestionError)
  | panic
deriving Repr

def Fault.schemaMismatch (message : String) : Fault := .error (.schemaMismatch message)

def Fault.parseError (row : ℕ) (column : String) (raw : RawText) (message : String) : Fault :=
  .error (.parseError row column raw message)

abbrev IngestionResult (α : Type) := Except Fault α

/-- `v[i]` on a `Vec`: out of bounds it panics -/
def index {α : Type} (v : List α) (i : ℕ) : IngestionResult α :=
  match v[i]? with
  | some a => .ok a
  | none => .error .panic

/-! ## Calls that do not panic -/

/-- a call that returns `Ok` or `Err` -/
def Answers {α : Type} (x : IngestionResult α) : Prop := x ≠ .error .panic

namespace Answers

variable {α β : Type}

theorem ok (a : α) : Answers (.ok a) := by
  intro h
  cases h

theorem error (e : IngestionError) : Answers (.error (.error e) : IngestionResult α) := by
  intro h
  cases h

theorem bind {x : IngestionResult α} {f : α → IngestionResult β} (hx : Answers x) (hf : ∀ a, x = .ok a → Answers (f a)) :
    Answers (x >>= f) := by
  intro h
  rcases Traverse.bind_eq_error h with h | ⟨a, ha, h⟩
  · exact hx h
  · exact hf a ha h

theorem mapM {f : α → IngestionResult β} {l : List α} (h : ∀ a ∈ l, Answers (f a)) : Answers (l.mapM f) := by
  intro hl
  obtain ⟨a, ha, he⟩ := Traverse.mapM_eq_error hl
  exact h a ha he

theorem map {x : IngestionResult α} (hx : Answers x) (f : α → β) : Answers (x.map f) := by
  cases x with
  | ok a => exact ok _
  | error e =>
    intro h
    exact hx (congrArg Except.error (Except.error.inj h))

/-- a call that answers and does not return a value returns an error -/
theorem err_of_not_ok {x : IngestionResult α} (hx : Answers x) (h : ∀ a, x ≠ .ok a) : ∃ e, x = .error (.error e) := by
  rcases x with (e | _) | a
  · exact ⟨e, rfl⟩
  · exact absurd rfl hx
  · exact absurd rfl (h a)

end Answers

/-! ## Severity -/

inductive IngestionSeverity where
  | info
  | warning
  | error
  | critical
deriving DecidableEq, Repr

/-- the derived order of the enumeration -/
def IngestionSeverity.rank : IngestionSeverity → ℕ
  | .info => 0
  | .warning => 1
  | .error => 2
  | .critical => 3

def errorChainContainsIo (source : List ErrorLink) : Bool := source.any ErrorLink.isIo

def severityForError : IngestionError → IngestionSeverity
  | .io _ => .critical
  | .parquet source => if errorChainContainsIo source then .critical else .error
  | .csv e => if e.isIo then .critical else .error
  | .excel _ => .error
  | .engine _ source => if errorChainContainsIo source then .critical else .error
  | .schemaMismatch _ => .error
  | .parseError .. => .error

/-- `polars_error_to_ingestion` -/
def polarsErrorToIngestion (action : String) : PolarsError → IngestionError
  | .io e => .io e
  | e@(.columnNotFound ..) => .engine action [⟨false, e.toString⟩]
  | e@(.other _ source) => .engine action (⟨false, e.toString⟩ :: source)

end RustDataProcessing
