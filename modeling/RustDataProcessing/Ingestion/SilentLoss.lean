/-
When the conversion of an engine frame loses a value without an error.

`NoSilentLoss` is the contract: a returned cell is null only if the frame's cell is, a returned `i64` is the number the
cell held, and a cell that has no value of its field's type makes the call fail. The source asks for a cast that nulls
what it cannot convert, and has an error arm for the values it expects to see instead (`convertCell_cast`: that arm is
never taken).

- `no_silent_loss_iff`: the contract holds exactly when every cell is representable in its field's type, or the call
  fails anyway because a column is missing or has no cast.
- `text_lost`: the text "abc" under an `Int64` field comes back as a null.
-/
import Mathlib.Tactic
import RustDataProcessing.Ingestion.PolarsBridge

namespace RustDataProcessing.Ingestion

open Polars

/-! ## The contract -/

/-- is there a value of the type for this cell? a number must be a whole number in range to be an `i64`; of a text or a
boolean it is the engine that says what it converts to -/
def Representable (E : Engine) (dt : DataType) (v : AnyValue) : Prop :=
  match dt, v.integer, v.float with
  | .int64, some n, _ => RustStd.i64Min ≤ n ∧ n ≤ RustStd.i64Max
  | .int64, none, some x => ∃ n : ℤ, x.value = some (n : ℚ) ∧ RustStd.i64Min ≤ n ∧ n ≤ RustStd.i64Max
  | .int64, none, none => (E.int64Of v).isSome
  | .float64, _, _ => (E.float64Of v).isSome
  | .bool, _, _ => (E.boolOf v).isSome
  | .utf8, _, _ => (E.stringOf v).isSome

/-- the value of a cell carries what the cell held -/
structure Kept (dt : DataType) (v : AnyValue) (w : Value) : Prop where
  null : w = .null → v.isNull
  int64 : dt = .int64 → ∀ n q, w = .int64 n → v.number = some q → (n.toInt : ℚ) = q

def NoSilentLoss (E : Engine) (df : DataFrame) (schema : Schema) (missingKind : String) (userRowStart : ℕ) : Prop :=
  (∀ ds, dataframeToDataset E df schema missingKind userRowStart = .ok ds →
    ∀ i < df.height, ∀ j (hj : j < schema.fields.length), ∃ w, ds.rows[i]?.bind (·[j]?) = some w ∧
      Kept schema.fields[j].dataType (frameCell df schema.fields[j].name i) w) ∧
  ((∃ f ∈ schema.fields, ∃ i < df.height, ¬ (frameCell df f.name i).isNull ∧
      ¬ Representable E f.dataType (frameCell df f.name i)) →
    ∃ e, dataframeToDataset E df schema missingKind userRowStart = .error e)

def AllRepresentable (E : Engine) (df : DataFrame) (schema : Schema) : Prop :=
  ∀ f ∈ schema.fields, ∀ i < df.height,
    (frameCell df f.name i).isNull ∨ Representable E f.dataType (frameCell df f.name i)

/-- columns of integer, unsigned, float, boolean or string type, with nulls anywhere -/
def ScalarFrame (df : DataFrame) : Prop := ∀ c ∈ df.columns, ∀ v ∈ c.cells, v.isScalar

/-! ## When it holds -/

theorem frameCell_scalar {df : DataFrame} (hdf : ScalarFrame df) (name : String) (i : ℕ) :
    (frameCell df name i).isScalar := by
  unfold frameCell
  cases hc : df.column name with
  | error e => rfl
  | ok s =>
    simp only [List.getD_eq_getElem?_getD]
    cases hi : s.cells[i]? with
    | none => rfl
    | some v => exact hdf s (DataFrame.column_mem hc).1 v (List.mem_of_getElem? hi)

theorem int64OfInt_isSome (n : ℤ) : (TextRules.int64OfInt n).isSome ↔ RustStd.i64Min ≤ n ∧ n ≤ RustStd.i64Max := by
  unfold TextRules.int64OfInt
  split_ifs with h <;> simp [h]

/-- a float keeps its value as an `i64` exactly when it is a whole number in range -/
theorem truncate_kept_iff (x : Binary64) :
    (∃ n : ℤ, x.value = some (n : ℚ) ∧ RustStd.i64Min ≤ n ∧ n ≤ RustStd.i64Max) ↔
      ∃ k, x.truncate.bind TextRules.int64OfInt = some k ∧ ∀ q, x.value = some q → (k.toInt : ℚ) = q := by
  constructor
  · rintro ⟨n, hn, hr⟩
    obtain ⟨k, hk⟩ := Option.isSome_iff_exists.1 ((int64OfInt_isSome n).2 hr)
    refine ⟨k, by rw [Binary64.truncate_of_value_eq_int hn]; exact hk, fun q hq => ?_⟩
    rw [TextRules.int64OfInt_toInt hk]
    exact Option.some.inj (hn.symm.trans hq)
  · rintro ⟨k, hk, hq⟩
    obtain ⟨n, hn, hkn⟩ := Option.bind_eq_some_iff.1 hk
    have hfin : x.value.isSome := by rw [Binary64.value_isSome, ← Binary64.truncate_isSome, hn]; rfl
    obtain ⟨q, hv⟩ := Option.isSome_iff_exists.1 hfin
    refine ⟨k.toInt, by rw [hv, hq q hv], ?_⟩
    rw [TextRules.int64OfInt_toInt hkn]
    exact (int64OfInt_isSome n).1 (by rw [hkn]; rfl)

theorem kept_int64_iff (E : Engine) (v : AnyValue) :
    Kept .int64 v (scalarValue E .int64 v) ↔
      ((E.int64Of v).isSome ∨ v.isNull) ∧ ∀ k q, E.int64Of v = some k → v.number = some q → (k.toInt : ℚ) = q := by
  change Kept .int64 v ((E.int64Of v).elim .null .int64) ↔ _
  constructor
  · intro h
    constructor
    · cases ho : E.int64Of v with
      | none => exact Or.inr (h.null (by rw [ho]; rfl))
      | some k => exact Or.inl rfl
    · exact fun k q hk hq => h.int64 rfl k q (by rw [hk]; rfl) hq
  · rintro ⟨hsome, h⟩
    cases ho : E.int64Of v with
    | none => exact ⟨fun _ => by simpa [ho] using hsome, fun _ n q hn => by cases hn⟩
    | some k => exact ⟨nofun, fun _ n q hn hq => by cases hn; exact h _ q ho hq⟩

theorem not_isNull_of_number {v : AnyValue} (h : v.integer.isSome ∨ v.float.isSome) : v.isNull = false := by
  cases v <;> simp_all [AnyValue.integer, AnyValue.float, AnyValue.isNull]

/-- **A cell is kept exactly when it is representable** -/
theorem kept_iff (E : Engine) (dt : DataType) (v : AnyValue) :
    Kept dt v (scalarValue E dt v) ↔ v.isNull ∨ Representable E dt v := by
  have hother : ∀ {α : Type} {val : α → Value} (o : Option α), dt ≠ .int64 → (∀ a, val a ≠ .null) →
      (Kept dt v (o.elim .null val) ↔ v.isNull ∨ o.isSome) := by
    intro α val o hdt hval
    constructor
    · intro h
      cases ho : o with
      | none => exact Or.inl (h.null ((elim_eq_null_iff hval o).2 ho))
      | some a => exact Or.inr rfl
    · rintro (h | h)
      · exact ⟨fun _ => h, fun hd => absurd hd hdt⟩
      · exact ⟨fun hnull => (by rw [(elim_eq_null_iff hval o).1 hnull] at h; cases h), fun hd => absurd hd hdt⟩
  cases dt with
  | float64 => exact hother _ (by decide) (by simp)
  | bool => exact hother _ (by decide) (by simp)
  | utf8 => exact hother _ (by decide) (by simp)
  | int64 =>
    rw [kept_int64_iff]
    cases hi : v.integer with
    | some n =>
      have hnull := not_isNull_of_number (Or.inl (by rw [hi]; rfl))
      have hof : E.int64Of v = TextRules.int64OfInt n := by unfold TextRules.int64Of; rw [hi]
      have hnum : v.number = some (n : ℚ) := by unfold AnyValue.number; rw [hi]
      simp only [hnull, hof, hnum, Representable, hi, int64OfInt_isSome, Bool.false_eq_true, or_false, false_or]
      refine ⟨fun h => h.1, fun h => ⟨h, fun k q hk hq => ?_⟩⟩
      rw [TextRules.int64OfInt_toInt hk]
      exact Option.some.inj hq
    | none =>
      cases hf : v.float with
      | some x =>
        have hnull := not_isNull_of_number (Or.inr (by rw [hf]; rfl))
        have hof : E.int64Of v = x.truncate.bind TextRules.int64OfInt := by unfold TextRules.int64Of; rw [hi, hf]
        have hnum : v.number = x.value := by unfold AnyValue.number; rw [hi, hf]; rfl
        simp only [hnull, hof, hnum, Representable, hi, hf, truncate_kept_iff, Bool.false_eq_true, or_false, false_or,
          Option.isSome_iff_exists]
        exact ⟨fun ⟨⟨k, hk⟩, h⟩ => ⟨k, hk, fun q hq => h k q hk hq⟩,
          fun ⟨k, hk, h⟩ => ⟨⟨k, hk⟩, fun k' q hk' hq => by rw [← Option.some.inj (hk.symm.trans hk')]; exact h q hq⟩⟩
      | none =>
        have hnum : v.number = none := by unfold AnyValue.number; rw [hi, hf]; rfl
        simp [hnum, Representable, hi, hf, or_comm]

/-- **The contract of the conversion**: every cell has a value of its field's type, or the call fails anyway -/
theorem no_silent_loss_iff {E : Engine} (hE : E.NonStrict) {df : DataFrame} (hdf : ScalarFrame df) (schema : Schema)
    (missingKind : String) (userRowStart : ℕ) :
    NoSilentLoss E df schema missingKind userRowStart ↔ (Castable E df schema → AllRepresentable E df schema) := by
  have hcell : ∀ dt name i, castValue E dt (frameCell df name i) = scalarValue E dt (frameCell df name i) :=
    fun dt name i => (convertCell_cast hE dt _).2.2 (frameCell_scalar hdf name i)
  rcases dataframeToDataset_returns hE df schema missingKind userRowStart with ⟨hcast, hok⟩ | ⟨hcast, e, herr⟩
  · constructor
    · rintro ⟨-, hfail⟩ - f hf i hi
      by_contra hno
      obtain ⟨hnull, hrep⟩ := not_or.1 hno
      obtain ⟨e, he⟩ := hfail ⟨f, hf, i, hi, hnull, hrep⟩
      rw [hok] at he
      cases he
    · intro hall
      have hrep := hall hcast
      refine ⟨fun ds hds i hi j hj => ?_, fun ⟨f, hf, i, hi, hnull, hno⟩ => ?_⟩
      · rw [hok] at hds
        cases hds
        refine ⟨scalarValue E schema.fields[j].dataType (frameCell df schema.fields[j].name i), ?_, ?_⟩
        · simp [frameRows, hi, hj, hcell]
        · exact (kept_iff E _ _).2 (hrep _ (List.getElem_mem hj) i hi)
      · exact absurd (hrep f hf i hi) (not_or.2 ⟨hnull, hno⟩)
  · exact ⟨fun _ h => absurd h hcast,
      fun _ => ⟨fun ds hds => (by rw [herr] at hds; cases hds), fun _ => ⟨e, herr⟩⟩⟩

/-! ## A column of texts -/

/-- one text column -/
def textFrame (name : String) (cells : List AnyValue) : DataFrame := ⟨cells.length, [⟨name, .string, cells⟩], by simp⟩

def idSchema : Schema := ⟨[⟨"id", .int64⟩]⟩

/-- "7" and a null are kept -/
theorem digits_kept : NoSilentLoss Engine.plain (textFrame "id" [.string "7", .null]) idSchema "column" 2 := by
  refine (no_silent_loss_iff Engine.plain_nonStrict (by simp [ScalarFrame, textFrame, AnyValue.isScalar])
    idSchema "column" 2).2 fun _ f hf i hi => ?_
  obtain rfl := List.mem_singleton.1 hf
  rcases i with - | - | i
  · exact Or.inr (show (Engine.plainTexts.int64Of (.string "7")).isSome from by decide)
  · exact Or.inl rfl
  · exact absurd hi (by simp [textFrame])

/-- **A text that is no number becomes a null**: "abc" under an `Int64` field is neither kept nor refused -/
theorem text_lost :
    ¬ ∀ (E : Engine) (df : DataFrame) (schema : Schema) (missingKind : String) (userRowStart : ℕ),
      E.NonStrict → ScalarFrame df → NoSilentLoss E df schema missingKind userRowStart := by
  intro h
  obtain ⟨hkept, -⟩ := h Engine.plain (textFrame "id" [.string "7", .string "abc"]) idSchema "column" 2
    Engine.plain_nonStrict (by simp [ScalarFrame, textFrame, AnyValue.isScalar])
  have hcode : dataframeToDataset Engine.plain (textFrame "id" [.string "7", .string "abc"]) idSchema "column" 2 =
      .ok ⟨idSchema, [[.int64 7], [.null]]⟩ := by rfl
  obtain ⟨w, hw, hk⟩ := hkept _ hcode 1 (by decide) 0 (by decide)
  obtain rfl : Value.null = w := Option.some.inj hw
  exact absurd (hk.null rfl) (by decide)

end RustDataProcessing.Ingestion
