/-
Numbers read for an integer field: the cells of a query (`src/ingestion/db.rs`) and of a sheet (`excel.rs`).

Both casts are plain: an unsigned 64-bit integer wraps around, and an integral double saturates. A fraction, an infinity
and a NaN are refused.

- `integer_cells_exact_iff`: a cell is read exactly or refused, unless its value is an integer that no `i64` is.
- `large_integers_wrap`: 2 ^ 63 is read as -2 ^ 63 and as 2 ^ 63 - 1; the JSON reader refuses it.
-/
import Mathlib.Tactic
import RustDataProcessing.Lib.Widening
import RustDataProcessing.Ingestion.Db
import RustDataProcessing.Ingestion.Excel
import RustDataProcessing.Ingestion.JsonReader

namespace RustDataProcessing.Ingestion

open Arrow (ArrowDataType ArrowArray Crate)
open RustStd (saturateI64 i64Min i64Max)

/-! ## Values -/

/-- the number a cell of a column is; of other types there is none -/
def arrowNumber : (dt : ArrowDataType) → dt.Native → Option ℚ
  | .int64, v => some v.toInt
  | .int32, v => some v.toInt
  | .int16, v => some v.toInt
  | .int8, v => some v.toInt
  | .uint64, v => some v.toNat
  | .uint32, v => some v.toNat
  | .uint16, v => some v.toNat
  | .uint8, v => some v.toNat
  | .float64, v => v.value
  | .float32, v => v.value
  | _, _ => none

def isNumericColumn : ArrowDataType → Bool
  | .int64 | .int32 | .int16 | .int8 | .uint64 | .uint32 | .uint16 | .uint8 | .float64 | .float32 => true
  | _ => false

/-- the number a cell of a sheet is -/
def sheetNumber : Excel.Data → Option ℚ
  | .int i => some i.toInt
  | .float f => f.value
  | _ => none

def isNumberCell : Excel.Data → Bool
  | .int _ | .float _ => true
  | _ => false

/-- an integer is the number it was read from, and what is no `i64` is refused -/
structure ReadExactly (number : Option ℚ) (result : IngestionResult Value) : Prop where
  exact : ∀ n, result = .ok (.int64 n) → number = some (n.toInt : ℚ)
  refused : (∀ n : Int64, number ≠ some (n.toInt : ℚ)) → ∃ e, result = .error (.error e)

/-- the number is no integer beyond the `i64`s -/
def NotBeyond (number : Option ℚ) : Prop := ∀ m : ℤ, number = some (m : ℚ) → i64Min ≤ m ∧ m ≤ i64Max

/-! ## Casts -/

theorem toInt_saturateI64 (m : ℤ) : (saturateI64 m).toInt = max i64Min (min m i64Max) := by
  unfold saturateI64 i64Min i64Max
  rw [Int64.toInt_ofInt_of_le (by omega) (by omega)]

/-- a cell that was cast: exact when the cast is -/
theorem readExactly_cast_iff {number : Option ℚ} {m : ℤ} (hnumber : number = some (m : ℚ)) (n : Int64)
    (hn : i64Min ≤ m ∧ m ≤ i64Max → n.toInt = m) : ReadExactly number (.ok (.int64 n)) ↔ NotBeyond number := by
  subst hnumber
  constructor
  · intro h k hk
    have hexact := h.exact n rfl
    rw [hk, Option.some.injEq, Int.cast_inj] at hexact
    exact hexact ▸ RustStd.toInt_bounds n
  · intro h
    have hm := hn (h m rfl)
    refine ⟨?_, fun hnone => absurd (by rw [hm]) (hnone n)⟩
    intro n' hn'
    obtain rfl : n = n' := Value.int64.inj (Except.ok.inj hn')
    rw [hm]

/-- a cell that is refused because its value is no integer -/
theorem readExactly_refused {number : Option ℚ} (hnumber : ∀ m : ℤ, number ≠ some (m : ℚ)) (e : IngestionError) :
    ReadExactly number (.error (.error e)) ↔ NotBeyond number := by
  refine iff_of_true ⟨?_, ?_⟩ ?_
  · intro n hn
    cases hn
  · intro _
    exact ⟨e, rfl⟩
  · intro m hm
    exact absurd hm (hnumber m)

/-- the two casts of a double are one -/
theorem readExactly_float_iff (x : Binary64) (e : IngestionError) :
    ReadExactly x.value (if x.isIntegral then .ok (.int64 (saturateI64 (x.truncate.getD 0))) else .error (.error e)) ↔
      NotBeyond x.value := by
  split_ifs with h
  · obtain ⟨m, hm⟩ := Binary64.isIntegral_iff.1 h
    refine readExactly_cast_iff hm _ fun hbounds => ?_
    rw [Binary64.truncate_of_value_eq_int hm, Option.getD_some, toInt_saturateI64]
    omega
  · refine readExactly_refused (fun m hm => ?_) e
    exact h (Binary64.isIntegral_iff.2 ⟨m, hm⟩)

/-! ## Cells -/

theorem int64Cell_exact_iff (row : ℕ) (name : String) {dt : ArrowDataType} (hdt : isNumericColumn dt = true)
    (v : dt.Native) : ReadExactly (arrowNumber dt v) (Db.int64Cell row name dt v) ↔ NotBeyond (arrowNumber dt v) := by
  have hnat : ∀ k : ℕ, some (k : ℚ) = some (((k : ℤ)) : ℚ) := fun k => by rw [Int.cast_natCast]
  have hsmall : ∀ k : ℕ, k < 2 ^ 32 → (Int64.ofNat k).toInt = (k : ℤ) := fun k hk =>
    Int64.toInt_ofNat_of_lt (by omega)
  cases dt with
  | int64 => exact readExactly_cast_iff rfl v fun _ => rfl
  | int32 => exact readExactly_cast_iff rfl _ fun _ => Int32.toInt_toInt64 v
  | int16 => exact readExactly_cast_iff rfl _ fun _ => Int16.toInt_toInt64 v
  | int8 => exact readExactly_cast_iff rfl _ fun _ => Int8.toInt_toInt64 v
  | uint64 =>
    refine readExactly_cast_iff (hnat _) _ fun hbounds => ?_
    have hlt : 2 * v.toBitVec.toNat < 2 ^ 64 := by
      have hmax : (v.toNat : ℤ) ≤ i64Max := hbounds.2
      unfold i64Max at hmax
      change 2 * v.toNat < 2 ^ 64
      omega
    exact BitVec.toInt_eq_toNat_of_lt hlt
  | uint32 => exact readExactly_cast_iff (hnat _) _ fun _ => hsmall _ v.toNat_lt
  | uint16 => exact readExactly_cast_iff (hnat _) _ fun _ => hsmall _ (v.toNat_lt.trans (by norm_num))
  | uint8 => exact readExactly_cast_iff (hnat _) _ fun _ => hsmall _ (v.toNat_lt.trans (by norm_num))
  | float64 => exact readExactly_float_iff v _
  | float32 =>
    have hwide := Binary32.toBinary64_value v
    change ReadExactly (Binary32.value v) _ ↔ NotBeyond (Binary32.value v)
    rw [← hwide]
    exact readExactly_float_iff _ _
  | _ => cases hdt

theorem parseI64Cell_exact_iff (display : Excel.Data → String) (row : ℕ) (column : String) {c : Excel.Data}
    (hc : isNumberCell c = true) :
    ReadExactly (sheetNumber c) ((Excel.parseI64Cell display row column c).map .int64) ↔ NotBeyond (sheetNumber c) := by
  cases c with
  | int i => exact readExactly_cast_iff rfl i fun _ => rfl
  | float f =>
    have hcell : (Excel.parseI64Cell display row column (.float f)).map Value.int64 =
        if f.isIntegral then .ok (.int64 (saturateI64 (f.truncate.getD 0)))
        else .error (.parseError row column (.text (display (.float f))) "expected integer (got non-integer float)") := by
      simp only [Excel.parseI64Cell, Excel.castI64]
      split_ifs <;> rfl
    rw [hcell]
    exact readExactly_float_iff f _
  | _ => cases hc

/-- **Integers are read exactly, or refused**, unless they are beyond the `i64`s -/
theorem integer_cells_exact_iff (A : Crate) (display : Excel.Data → String) (row : ℕ) (name : String) :
    (∀ (arr : ArrowArray) (v : arr.dataType.Native), isNumericColumn arr.dataType = true → arr.cell row = some v →
      (ReadExactly (arrowNumber arr.dataType v) (Db.arrowValueToValue A arr row .int64 name) ↔
        NotBeyond (arrowNumber arr.dataType v))) ∧
    ∀ c : Excel.Data, isNumberCell c = true →
      (ReadExactly (sheetNumber c) ((Excel.parseI64Cell display row name c).map .int64) ↔ NotBeyond (sheetNumber c)) := by
  refine ⟨?_, fun c hc => parseI64Cell_exact_iff display row name hc⟩
  intro arr v hdt hcell
  unfold Db.arrowValueToValue
  rw [hcell]
  exact int64Cell_exact_iff row name hdt v

theorem notBeyond_int {k : ℤ} (hk : i64Min ≤ k ∧ k ≤ i64Max) : NotBeyond (some (k : ℚ)) := by
  intro m hm
  rw [Option.some.injEq, Int.cast_inj] at hm
  exact hm ▸ hk

/-- two integers that are `i64`s -/
theorem small_integers_read_exactly :
    ReadExactly (arrowNumber .int32 (-7)) (Db.arrowValueToValue Db.oneBatch ⟨.int32, [some (-7)]⟩ 0 .int64 "id") ∧
      ReadExactly (sheetNumber (.int 42)) ((Excel.parseI64Cell (fun _ => "") 2 "id" (.int 42)).map .int64) := by
  have hcolumn : NotBeyond (arrowNumber .int32 (-7)) := notBeyond_int (by decide)
  have hsheet : NotBeyond (sheetNumber (.int 42)) := notBeyond_int (by decide)
  refine ⟨?_, ?_⟩
  · exact ((integer_cells_exact_iff Db.oneBatch (fun _ => "") 0 "id").1 ⟨.int32, [some (-7)]⟩ (-7) rfl rfl).2 hcolumn
  · exact ((integer_cells_exact_iff Db.oneBatch (fun _ => "") 2 "id").2 (.int 42) rfl).2 hsheet

/-- **2 ^ 63** is -2 ^ 63 in a column of unsigned integers, 2 ^ 63 - 1 in a sheet, and an error in a JSON text -/
theorem large_integers_wrap :
    let column : ArrowArray := ⟨.uint64, [some 9223372036854775808]⟩
    Db.arrowValueToValue Db.oneBatch column 0 .int64 "id" = .ok (.int64 (Int64.minValue)) ∧
      (Excel.parseI64Cell (fun _ => "") 2 "id" (.float (Binary64.ofInt (2 ^ 63)))).toOption =
        some (Int64.maxValue) ∧
      (convertJsonValue 1 "id" .int64 (.number (.posInt 9223372036854775808))).toOption = none ∧
      ¬ ReadExactly (arrowNumber .uint64 9223372036854775808) (Db.arrowValueToValue Db.oneBatch column 0 .int64 "id") := by
  intro column
  have hread : Db.arrowValueToValue Db.oneBatch column 0 .int64 "id" = .ok (.int64 (Int64.minValue)) := rfl
  refine ⟨hread, by decide +kernel, by decide, ?_⟩
  intro h
  have hexact := h.exact _ hread
  have hword : (9223372036854775808 : UInt64).toNat = 9223372036854775808 := by decide
  have hwrapped : (Int64.minValue).toInt = -9223372036854775808 := by decide
  change some (((9223372036854775808 : UInt64).toNat : ℕ) : ℚ) = _ at hexact
  rw [hword, hwrapped, Option.some.injEq] at hexact
  norm_num at hexact

end RustDataProcessing.Ingestion
