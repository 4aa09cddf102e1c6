/-
Arrow arrays and record batches, as far as the converters use them.

An array has a type and a cell for each row, none where the row is null; `downcast_ref` is a match on the type. The crate
itself is outside the repository: `Crate` has the two calls the converters make, the text `{:?}` prints of an array and
`concat_batches`, which promises to put the rows of the batches one after the other.
-/
import Mathlib.Tactic
import RustDataProcessing.Lib.Binary64

namespace RustDataProcessing.Arrow

inductive ArrowDataType where
  | boolean
  | int8
  | int16
  | int32
  | int64
  | uint8
  | uint16
  | uint32
  | uint64
  | float32
  | float64
  | utf8
  | largeUtf8
  | other (name : String)
deriving DecidableEq, Repr

/-- what a cell of the type holds; the other types are left as bytes -/
abbrev ArrowDataType.Native : ArrowDataType → Type
  | .boolean => Bool
  | .int8 => Int8
  | .int16 => Int16
  | .int32 => Int32
  | .int64 => Int64
  | .uint8 => UInt8
  | .uint16 => UInt16
  | .uint32 => UInt32
  | .uint64 => UInt64
  | .float32 => Binary32
  | .float64 => Binary64
  | .utf8 | .largeUtf8 => String
  | .other _ => List UInt8

structure ArrowArray where
  dataType : ArrowDataType
  cells : List (Option dataType.Native)

/-- the cell of a row, none for a null -/
def ArrowArray.cell (arr : ArrowArray) (row : ℕ) : Option arr.dataType.Native := arr.cells[row]?.join

structure ArrowField where
  name : String
  dataType : ArrowDataType
  nullable : Bool
  metadata : List (String × String)
deriving DecidableEq, Repr

structure ArrowSchema where
  fields : List ArrowField
  metadata : List (String × String)
deriving DecidableEq, Repr

/-- the first field of the name -/
def ArrowSchema.indexOf (s : ArrowSchema) (name : String) : Option ℕ := s.fields.findIdx? fun f => f.name = name

structure RecordBatch where
  schema : ArrowSchema
  columns : List ArrowArray
  numRows : ℕ
  typed : columns.map ArrowArray.dataType = schema.fields.map ArrowField.dataType
  sized : ∀ arr ∈ columns, arr.cells.length = numRows

/-- a batch with the rows of all, in order -/
structure Concatenated (sch : ArrowSchema) (batches : List RecordBatch) (merged : RecordBatch) : Prop where
  schema : merged.schema = sch
  numRows : merged.numRows = (batches.map RecordBatch.numRows).sum
  columns : ∀ (i : ℕ) (arr : ArrowArray), merged.columns[i]? = some arr → ∃ parts : List (List (Option arr.dataType.Native)),
    batches.map (fun b => b.columns[i]?) = parts.map (fun cells => some ⟨arr.dataType, cells⟩) ∧
    arr.cells = parts.flatten

structure Crate where
  debug : ArrowArray → String
  concatBatches : ArrowSchema → List RecordBatch → Except String RecordBatch
  concatenated : ∀ sch batches merged, concatBatches sch batches = .ok merged → Concatenated sch batches merged

end RustDataProcessing.Arrow
