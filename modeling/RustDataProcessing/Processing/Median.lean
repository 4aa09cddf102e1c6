/-
The median of a numeric column (`src/processing/reduce.rs`): when it is an order statistic.

The cells are sorted by `partial_cmp`, for which a NaN ties with every number. This is a total order only if there is no
NaN, or if all the numbers are equal; on other cells the standard library may panic or return any order. The mean of the
middle two is computed from their sum, which may overflow.

- `median_laws_iff`: the median of a column is the middle cell in the order of `arg_max_row`, or the mean of the middle
  two, in every order of the rows and without a panic, exactly when the column is safe (`MedianSafe`):
  - no cell is a NaN, or all cells are, or exactly one cell is a number and the count of the cells is even;
  - the middle two of an even count, if finite, have a finite sum.
  Where a NaN does harm the laws fail under every total order.
- `medianSafe_int64`: a column of integers is safe.
- `nan_among_ones`: the median of 1, NaN, 1 is a NaN, and that of NaN, 1, 1 is 1.
-/
import Mathlib.Tactic
import RustDataProcessing.Lib.Midpoint
import RustDataProcessing.Lib.OrderStatistics
import RustDataProcessing.Lib.StableSort
import RustDataProcessing.Processing.Multi

namespace RustDataProcessing.Processing

open OrderStatistics StableSort
open Ingestion (cellKey_isSome cellKey_injective)

/-! ## What is claimed -/

/-- what `sort_by` promises: a stable sort by a comparison that is a total order on the slice. By another one it panics,
or leaves the members in any order -/
structure Runtime.SortContract (R : Runtime) : Prop where
  sorts : ∀ cmp xs, TotalOrderOn cmp xs → ∃ ys, R.sortBy cmp xs = some ys ∧ StableSorted cmp xs ys
  keeps : ∀ cmp xs ys, R.sortBy cmp xs = some ys → ys.Perm xs

/-- a cell of a numeric column, as a float -/
def number : Value → Binary64
  | .int64 v => .ofInt v.toInt
  | .float64 v => v
  | _ => .nan

/-- the numbers of the cells, in order -/
def sortedNumbers (cmp : Value → Value → Ordering) (cs : List Value) : List Binary64 :=
  (cs.mergeSort fun a b => cmp a b ≠ .gt).map number

/-- the number in the middle, or the mean of the middle two -/
def orderStatistic (cmp : Value → Value → Ordering) (cs : List Value) : Option Binary64 :=
  middle Binary64.mean (sortedNumbers cmp cs)

/-- Median returns `m`, or a null for none -/
def MedianIs (R : Runtime) (ds : DataSet) (column : String) (m : Option Binary64) : Prop :=
  ∃ m', reduce R ds column .median = .ok (some (m'.elim .null .float64)) ∧ Option.Rel Binary64.Alike m' m

/-- what is claimed of the median of a column: under one total order it is the order statistic of the cells, whatever the
order of the rows, and it is a null only without cells -/
structure MedianLaws (cmp : Value → Value → Ordering) (ds : DataSet) (column : String) (idx : ℕ) : Prop where
  order : TotalOrderOn cmp (nonNullCells idx ds.rows)
  antisymm : ∀ a ∈ nonNullCells idx ds.rows, ∀ b ∈ nonNullCells idx ds.rows, cmp a b = .eq → a = b
  statistic : ∀ R : Runtime, R.SortContract → ∀ rows : List Row, rows.Perm ds.rows →
    MedianIs R ⟨ds.schema, rows⟩ column (orderStatistic cmp (nonNullCells idx ds.rows))
  null : ∀ R : Runtime, R.SortContract →
    (reduce R ds column .median = .ok (some .null) ↔ nonNullCells idx ds.rows = [])

/-- the order of `arg_max_row`: that of the integers, and the total order of the floats -/
def cellOrder (a b : Value) : Ordering := (cmpNonNullValues a b).getD .eq

/-- the numbers among which a NaN does no harm -/
def NanSafe (xs : List Binary64) : Prop :=
  (∀ x ∈ xs, x.isNaN = false) ∨ (∀ x ∈ xs, x.isNaN = true) ∨
    (xs.length % 2 = 0 ∧ (xs.filter fun x => !x.isNaN).length = 1)

instance (xs : List Binary64) : Decidable (NanSafe xs) := inferInstanceAs (Decidable (_ ∨ _ ∨ _))

/-- the middle two of an even count, if finite, have a finite sum -/
def MiddleFits (xs : List Binary64) : Prop :=
  ∀ a b, xs.length % 2 = 0 → xs[xs.length / 2 - 1]? = some a → xs[xs.length / 2]? = some b → a.SumFinite b

/-- the cells whose median is an order statistic -/
structure MedianSafe (cs : List Value) : Prop where
  nan : NanSafe (cs.map number)
  fits : MiddleFits (sortedNumbers cellOrder cs)

/-! ## The middle -/

theorem middleFits_of_forall {xs : List Binary64} (h : ∀ a ∈ xs, ∀ b ∈ xs, a.SumFinite b) : MiddleFits xs :=
  fun a b _ ha hb => h a (List.mem_of_getElem? ha) b (List.mem_of_getElem? hb)

theorem middleFits_even {before behind : List Binary64} {x y : Binary64} (h : before.length = behind.length) :
    MiddleFits (before ++ x :: y :: behind) ↔ x.SumFinite y := by
  have hlength : (before ++ x :: y :: behind).length = 2 * before.length + 2 := by
    rw [List.length_append, List.length_cons, List.length_cons]
    omega
  have hhalf : (2 * before.length + 2) / 2 = before.length + 1 := by omega
  have heven : (2 * before.length + 2) % 2 = 0 := by omega
  have hleft : (before ++ x :: y :: behind)[before.length]? = some x := by simp
  have hright : (before ++ x :: y :: behind)[before.length + 1]? = some y := by simp
  unfold MiddleFits
  rw [hlength, hhalf, Nat.add_sub_cancel, hleft, hright]
  simp [heven]

/-- **The midpoint in the middle** is the mean exactly when the sum fits -/
theorem middle_mean_iff (xs : List Binary64) :
    Option.Rel Binary64.Alike (middle Binary64.midpoint xs) (middle Binary64.mean xs) ↔ MiddleFits xs := by
  rcases halves xs with rfl | ⟨before, x, behind, rfl, h⟩ | ⟨before, x, y, behind, rfl, h⟩
  · exact iff_of_true .none (middleFits_of_forall (by simp))
  · rw [middle_odd _ x h, middle_odd _ x h]
    refine iff_of_true (.some (.refl x)) fun a b heven => ?_
    rw [List.length_append, List.length_cons] at heven
    omega
  · rw [middle_even _ x y h, middle_even _ x y h, middleFits_even h, ← Binary64.midpoint_alike_mean_iff]
    refine ⟨fun hrel => ?_, .some⟩
    rcases hrel with ⟨halike⟩ | -
    exact halike

theorem rel_trans {a b c : Option Binary64} (hab : Option.Rel Binary64.Alike a b) (hbc : Option.Rel Binary64.Alike b c) :
    Option.Rel Binary64.Alike a c := by
  rcases hab with ⟨hab⟩ | -
  · rcases hbc with ⟨hbc⟩ | -
    exact .some (hab.trans hbc)
  · exact hbc

theorem rel_symm {a b : Option Binary64} (h : Option.Rel Binary64.Alike a b) : Option.Rel Binary64.Alike b a := by
  rcases h with ⟨h⟩ | -
  · exact .some h.symm
  · exact .none

/-! ## The comparison -/

/-- `a.partial_cmp(b).unwrap_or(Ordering::Equal)` -/
def partialOrder (a b : Binary64) : Ordering := (a.partialCmp b).getD .eq

theorem partialOrder_numbers {a b : Binary64} (ha : a.isNaN = false) (hb : b.isNaN = false) :
    partialOrder a b = compare a.orderKey b.orderKey := by
  simp [partialOrder, Binary64.partialCmp, ha, hb]

theorem partialOrder_nan {a b : Binary64} (h : a.isNaN = true ∨ b.isNaN = true) : partialOrder a b = .eq := by
  have hor : (a.isNaN || b.isNaN) = true := by simpa using h
  simp [partialOrder, Binary64.partialCmp, hor]

/-- without NaNs the comparison is a total order -/
theorem totalOrderOn_numbers {xs : List Binary64} (h : ∀ x ∈ xs, x.isNaN = false) : TotalOrderOn partialOrder xs :=
  TotalOrderOn.of_key fun a ha b hb => partialOrder_numbers (h a ha) (h b hb)

/-- **Ties**: in a total order with a NaN all members tie -/
theorem ties_of_nan {xs : List Binary64} (h : TotalOrderOn partialOrder xs) {c : Binary64} (hc : c ∈ xs)
    (hnan : c.isNaN = true) : ∀ a ∈ xs, ∀ b ∈ xs, partialOrder a b = .eq := by
  intro a ha b hb
  have hac : partialOrder a c = .eq := partialOrder_nan (Or.inr hnan)
  have hcb : partialOrder c b = .eq := partialOrder_nan (Or.inl hnan)
  exact (h.trans a ha c hc b hb (hac.trans hcb.symm)).trans hac

theorem totalOrderOn_of_ties {xs : List Binary64} (h : ∀ a ∈ xs, ∀ b ∈ xs, partialOrder a b = .eq) :
    TotalOrderOn partialOrder xs :=
  @TotalOrderOn.of_key _ _ _ (fun _ => 0) fun a ha b hb => by rw [h a ha b hb, compare_eq_iff_eq.2 rfl]

/-- numbers that tie are alike -/
theorem alike_of_tie {a b : Binary64} (ha : a.isNaN = false) (hb : b.isNaN = false) (h : partialOrder a b = .eq) :
    a.Alike b := by
  rw [partialOrder_numbers ha hb, compare_eq_iff_eq] at h
  exact ⟨ha.trans hb.symm, fun _ => h⟩

/-! ## Cells without harm -/

theorem NanSafe.perm {xs ys : List Binary64} (h : NanSafe xs) (hperm : ys.Perm xs) : NanSafe ys := by
  rcases h with h | h | ⟨heven, hone⟩
  · exact Or.inl fun x hx => h x (hperm.subset hx)
  · exact Or.inr (Or.inl fun x hx => h x (hperm.subset hx))
  · exact Or.inr (Or.inr ⟨by rwa [hperm.length_eq], by rwa [(hperm.filter _).length_eq]⟩)

/-- the only number of a list -/
theorem tie_of_one_number {xs : List Binary64} (hone : (xs.filter fun x => !x.isNaN).length = 1) :
    ∀ a ∈ xs, ∀ b ∈ xs, partialOrder a b = .eq := by
  intro a ha b hb
  obtain ⟨x, hx⟩ := List.length_eq_one_iff.1 hone
  have honly : ∀ y ∈ xs, y.isNaN = false → y = x := by
    intro y hy hnum
    have hmem : y ∈ xs.filter fun x => !x.isNaN := List.mem_filter.2 ⟨hy, by simp [hnum]⟩
    rw [hx] at hmem
    exact List.mem_singleton.1 hmem
  rcases hna : a.isNaN with - | -
  · rcases hnb : b.isNaN with - | -
    · rw [partialOrder_numbers hna hnb, honly a ha hna, honly b hb hnb, compare_eq_iff_eq.2 rfl]
    · exact partialOrder_nan (Or.inr hnb)
  · exact partialOrder_nan (Or.inl hna)

/-- **Harmless cells** are in a total order -/
theorem NanSafe.totalOrderOn {xs : List Binary64} (h : NanSafe xs) : TotalOrderOn partialOrder xs := by
  rcases h with h | h | ⟨-, hone⟩
  · exact totalOrderOn_numbers h
  · exact totalOrderOn_of_ties fun a ha _ _ => partialOrder_nan (Or.inl (h a ha))
  · exact totalOrderOn_of_ties (tie_of_one_number hone)

/-- the middle two are not both the only number -/
theorem middle_of_one_number {xs : List Binary64} (heven : xs.length % 2 = 0)
    (hone : (xs.filter fun x => !x.isNaN).length = 1) : ∃ m, middle Binary64.midpoint xs = some m ∧ m.isNaN = true := by
  rcases halves xs with rfl | ⟨before, x, behind, rfl, hhalf⟩ | ⟨before, x, y, behind, rfl, hhalf⟩
  · simp at hone
  · rw [List.length_append, List.length_cons] at heven
    omega
  · refine ⟨_, middle_even _ x y hhalf, Binary64.midpoint_nan ?_⟩
    by_contra hnum
    rw [not_or, Bool.not_eq_true, Bool.not_eq_true] at hnum
    rw [List.filter_append, List.filter_cons_of_pos (by simp [hnum.1]), List.filter_cons_of_pos (by simp [hnum.2]),
      List.length_append, List.length_cons, List.length_cons] at hone
    omega

/-- **One middle**: two arrangements of harmless cells, both in order -/
theorem NanSafe.middle_alike {xs ys zs : List Binary64} (h : NanSafe xs) (hys : ys.Perm xs)
    (hsorted : ys.Pairwise fun a b => partialOrder a b ≠ .gt) (hzs : zs.Perm xs)
    (hordered : zs.Pairwise fun a b => a.orderKey ≤ b.orderKey) :
    Option.Rel Binary64.Alike (middle Binary64.midpoint ys) (middle Binary64.midpoint zs) := by
  have hperm : ys.Perm zs := hys.trans hzs.symm
  rcases h with h | h | ⟨heven, hone⟩
  · apply middle_rel fun _ _ _ _ ha hb => ha.midpoint hb
    have hys' : ys.Pairwise fun a b => a.orderKey ≤ b.orderKey := by
      refine hsorted.imp_of_mem fun ha hb hab => ?_
      rw [partialOrder_numbers (h _ (hys.subset ha)) (h _ (hys.subset hb))] at hab
      exact compare_le_iff_le.1 hab
    obtain ⟨hlength, hkeys⟩ := List.forall₂_iff_zip.1 (keys_of_ordered hperm hys' hordered)
    refine List.forall₂_iff_zip.2 ⟨hlength, fun {a b} hab => ⟨?_, fun _ => hkeys hab⟩⟩
    rw [h a (hys.subset (List.of_mem_zip hab).1), h b (hzs.subset (List.of_mem_zip hab).2)]
  · apply middle_rel fun _ _ _ _ ha hb => ha.midpoint hb
    refine List.forall₂_iff_zip.2 ⟨hperm.length_eq, fun {a b} hab => Binary64.alike_of_nan ?_ ?_⟩
    · exact h a (hys.subset (List.of_mem_zip hab).1)
    · exact h b (hzs.subset (List.of_mem_zip hab).2)
  · obtain ⟨a, ha, hnan⟩ := middle_of_one_number (by rwa [hys.length_eq]) (by rwa [(hys.filter _).length_eq])
    obtain ⟨b, hb, hnan'⟩ := middle_of_one_number (by rwa [hzs.length_eq]) (by rwa [(hzs.filter _).length_eq])
    rw [ha, hb]
    exact .some (Binary64.alike_of_nan hnan hnan')

theorem isNaN_of_alike {o : Option Binary64} {x y : Binary64} (hx : Option.Rel Binary64.Alike (some x) o)
    (hy : Option.Rel Binary64.Alike (some y) o) : x.isNaN = y.isNaN := by
  rcases hx with ⟨hx⟩ | -
  rcases hy with ⟨hy⟩ | -
  exact hx.1.trans hy.1.symm

/-- two numbers of a list can stand in its middle -/
theorem exists_middle_number {xs : List Binary64} (heven : xs.length % 2 = 0)
    (hties : ∀ a ∈ xs, ∀ b ∈ xs, partialOrder a b = .eq) (htwo : 2 ≤ (xs.filter fun x => !x.isNaN).length) :
    ∃ ys : List Binary64, ys.Perm xs ∧ ∃ m, middle Binary64.midpoint ys = some m ∧ m.isNaN = false := by
  have hsplit := List.filter_append_perm (fun x => !x.isNaN) xs
  have hnumbers : ∀ x ∈ xs.filter fun x => !x.isNaN, x ∈ xs ∧ x.isNaN = false := by
    intro x hx
    simpa using List.mem_filter.1 hx
  rcases hfilter : xs.filter fun x => !x.isNaN with - | ⟨x, - | ⟨y, rest⟩⟩
  · simp [hfilter] at htwo
  · simp [hfilter] at htwo
  · rw [hfilter] at hsplit hnumbers
    obtain ⟨hx, hxnum⟩ := hnumbers x (by simp)
    obtain ⟨hy, hynum⟩ := hnumbers y (by simp)
    obtain ⟨ys, hys, hmiddle⟩ := exists_middle_even Binary64.midpoint hsplit.symm heven
    exact ⟨ys, hys, _, hmiddle, Binary64.midpoint_notNaN hxnum (alike_of_tie hxnum hynum (hties x hx y hy))⟩

/-- a NaN of a list can stand in its middle -/
theorem exists_middle_nan {xs : List Binary64} {c : Binary64} (hc : c ∈ xs) (hnan : c.isNaN = true) :
    ∃ ys : List Binary64, ys.Perm xs ∧ ∃ m, middle Binary64.midpoint ys = some m ∧ m.isNaN = true := by
  have herase := List.perm_cons_erase hc
  rcases Nat.mod_two_eq_zero_or_one xs.length with heven | hodd
  · rcases hother : xs.erase c with - | ⟨z, others⟩
    · have hlength := herase.length_eq
      rw [hother, List.length_singleton] at hlength
      omega
    · rw [hother] at herase
      obtain ⟨ys, hys, hmiddle⟩ := exists_middle_even Binary64.midpoint herase heven
      exact ⟨ys, hys, _, hmiddle, Binary64.midpoint_nan (Or.inl hnan)⟩
  · obtain ⟨ys, hys, hmiddle⟩ := exists_middle_odd Binary64.midpoint herase hodd
    exact ⟨ys, hys, c, hmiddle, hnan⟩

/-- **One middle is enough**: cells that tie, with a NaN among them, and with one middle in every order -/
theorem nanSafe_of_one_middle {xs : List Binary64} {o : Option Binary64} {c : Binary64}
    (hties : ∀ a ∈ xs, ∀ b ∈ xs, partialOrder a b = .eq) (hc : c ∈ xs) (hnan : c.isNaN = true)
    (hone : ∀ ys : List Binary64, ys.Perm xs → Option.Rel Binary64.Alike (middle Binary64.midpoint ys) o) :
    NanSafe xs := by
  -- a NaN can stand in the middle, so that a number never does
  have hnever : ∀ ys : List Binary64, ys.Perm xs → ∀ m, middle Binary64.midpoint ys = some m → m.isNaN = true := by
    intro ys hys m hm
    obtain ⟨zs, hzs, m', hm', hnan'⟩ := exists_middle_nan hc hnan
    exact (isNaN_of_alike (hm ▸ hone ys hys) (hm' ▸ hone zs hzs)).trans hnan'
  by_cases hnumber : ∃ a ∈ xs, a.isNaN = false
  · obtain ⟨a, ha, hanum⟩ := hnumber
    have heven : xs.length % 2 = 0 := by
      by_contra hodd
      obtain ⟨ys, hys, hmiddle⟩ := exists_middle_odd Binary64.midpoint (List.perm_cons_erase ha) (by omega)
      have := hnever ys hys a hmiddle
      simp [hanum] at this
    refine Or.inr (Or.inr ⟨heven, le_antisymm ?_ ?_⟩)
    · by_contra htwo
      obtain ⟨ys, hys, m, hmiddle, hnum⟩ := exists_middle_number heven hties (by omega)
      have := hnever ys hys m hmiddle
      simp [hnum] at this
    · exact List.length_pos_of_mem (List.mem_filter.2 ⟨ha, by simp [hanum]⟩)
  · exact Or.inr (Or.inl fun x hx => by simpa using fun hx' => hnumber ⟨x, hx, hx'⟩)

/-! ## The cells of a column -/

section Cells

variable {idx : ℕ} {dt : DataType} {rows : List Row}

theorem hasType_of_nonNull (htyped : ColumnTyped idx dt rows) {v : Value} (hv : v ∈ nonNullCells idx rows) :
    v.hasType dt = true := by
  obtain ⟨row, hrow, w, hw, hsome⟩ := mem_cells.1 hv
  unfold nonNull at hsome
  split_ifs at hsome with hnull
  rw [← Option.some.inj hsome]
  exact (htyped row hrow w hw).resolve_left hnull

/-- the loop reads the numbers of the cells -/
theorem cells_floatCell (hnum : dt = .int64 ∨ dt = .float64) (htyped : ColumnTyped idx dt rows) :
    cells (floatCell (dt = .int64)) idx rows = (nonNullCells idx rows).map number := by
  unfold nonNullCells cells
  rw [List.map_filterMap]
  refine List.filterMap_congr fun row hrow => ?_
  rcases hcell : row[idx]? with - | v
  · rfl
  · have hfits := htyped row hrow v hcell
    rcases hnum with rfl | rfl <;> rcases v with - | n | x | b | t <;>
      simp_all [nonNull, floatCell, number, Value.fits, Value.hasType]

/-- the key of the order of `arg_max_row` -/
def cellOrderKey : Value → ℤ
  | .int64 v => v.toInt
  | .float64 x => x.totalKey
  | _ => 0

theorem cellOrder_key (hnum : dt = .int64 ∨ dt = .float64) {a b : Value} (ha : a.hasType dt = true)
    (hb : b.hasType dt = true) : cellOrder a b = compare (cellOrderKey a) (cellOrderKey b) := by
  rcases hnum with rfl | rfl <;> cases a <;> cases ha <;> cases b <;> cases hb <;> rfl

/-- cells that tie are the same -/
theorem cellOrder_antisymm {a b : Value} (ha : a.hasType dt = true) (hb : b.hasType dt = true)
    (h : cellOrder a b = .eq) : a = b := by
  obtain ⟨j, hj⟩ := Option.isSome_iff_exists.1 ((cellKey_isSome dt a).trans ha)
  obtain ⟨k, hk⟩ := Option.isSome_iff_exists.1 ((cellKey_isSome dt b).trans hb)
  rw [cellOrder, cmpNonNullValues_key hj hk, Option.getD_some, compare_eq_iff_eq] at h
  exact cellKey_injective (hj.trans (h ▸ hk.symm)) ha

theorem totalKey_mono {x y : Binary64} (h : x.totalKey ≤ y.totalKey) : x.orderKey ≤ y.orderKey := by
  unfold Binary64.totalKey at h
  unfold Binary64.orderKey
  split_ifs at h ⊢ <;> omega

/-- the numbers of cells in order are in order -/
theorem number_mono (hnum : dt = .int64 ∨ dt = .float64) {a b : Value} (ha : a.hasType dt = true)
    (hb : b.hasType dt = true) (h : cellOrderKey a ≤ cellOrderKey b) : (number a).orderKey ≤ (number b).orderKey := by
  rcases hnum with rfl | rfl <;> cases a <;> cases ha <;> cases b <;> cases hb
  · exact Binary64.orderKey_ofInt_mono h
  · exact totalKey_mono h

theorem cellOrder_total (hnum : dt = .int64 ∨ dt = .float64) (htyped : ColumnTyped idx dt rows) :
    TotalOrderOn cellOrder (nonNullCells idx rows) :=
  TotalOrderOn.of_key fun _ ha _ hb =>
    cellOrder_key hnum (hasType_of_nonNull htyped ha) (hasType_of_nonNull htyped hb)

theorem sortedNumbers_perm (cmp : Value → Value → Ordering) (cs : List Value) :
    (sortedNumbers cmp cs).Perm (cs.map number) := (List.mergeSort_perm _ _).map number

/-- the numbers of the sorted cells -/
theorem ordered_numbers (hnum : dt = .int64 ∨ dt = .float64) (htyped : ColumnTyped idx dt rows) :
    (sortedNumbers cellOrder (nonNullCells idx rows)).Pairwise fun a b => a.orderKey ≤ b.orderKey := by
  have hsorted := mergeSort_stableSorted (cellOrder_total hnum htyped)
  rw [sortedNumbers, List.pairwise_map]
  refine hsorted.ordered.imp_of_mem fun ha hb hab => ?_
  have ha' := hasType_of_nonNull htyped (hsorted.perm.subset ha)
  have hb' := hasType_of_nonNull htyped (hsorted.perm.subset hb)
  rw [cellOrder_key hnum ha' hb'] at hab
  exact number_mono hnum ha' hb' (compare_le_iff_le.1 hab)

/-- the numbers of a column of integers -/
theorem number_int64 (htyped : ColumnTyped idx .int64 rows) {x : Binary64} (hx : x ∈ (nonNullCells idx rows).map number) :
    ∃ n : ℤ, n.natAbs ≤ 2 ^ 63 ∧ x = .ofInt n := by
  obtain ⟨v, hv, rfl⟩ := List.mem_map.1 hx
  have htype := hasType_of_nonNull htyped hv
  cases v <;> cases htype
  rename_i n
  have hbounds := RustStd.toInt_bounds n
  unfold RustStd.i64Min RustStd.i64Max at hbounds
  exact ⟨n.toInt, by omega, rfl⟩

/-- **Integers** are rounded to numbers, not to NaNs, and these are far from an overflow -/
theorem medianSafe_int64 (htyped : ColumnTyped idx .int64 rows) : MedianSafe (nonNullCells idx rows) := by
  constructor
  · refine Or.inl fun x hx => ?_
    obtain ⟨n, hn, rfl⟩ := number_int64 htyped hx
    exact Binary64.not_nan_of_finite (@Binary64.isFinite_ofInt n 64 (by omega) (by omega))
  · refine middleFits_of_forall fun a ha b hb => ?_
    obtain ⟨m, hm, rfl⟩ := number_int64 htyped ((sortedNumbers_perm _ _).subset ha)
    obtain ⟨n, hn, rfl⟩ := number_int64 htyped ((sortedNumbers_perm _ _).subset hb)
    exact Binary64.sumFinite_ofInt hm hn

end Cells

/-! ## The reduction -/

/-- what Median returns for the numbers of the cells -/
def medianOf (R : Runtime) (xs : List Binary64) : IngestionResult (Option Value) :=
  if xs.isEmpty then .ok (some .null)
  else match R.sortBy partialOrder xs with
    | none => .error .panic
    | some ys => match middle Binary64.midpoint ys with
      | none => .error .panic
      | some m => .ok (some (.float64 m))

theorem medianOf_sorted {R : Runtime} (hR : R.SortContract) {xs : List Binary64} (h : TotalOrderOn partialOrder xs) :
    ∃ ys, StableSorted partialOrder xs ys ∧
      medianOf R xs = .ok (some ((middle Binary64.midpoint ys).elim .null .float64)) := by
  obtain ⟨ys, hsort, hys⟩ := hR.sorts partialOrder xs h
  refine ⟨ys, hys, ?_⟩
  have hnone : middle Binary64.midpoint ys = none ↔ xs = [] := by
    rw [middle_eq_none, ← List.length_eq_zero_iff, hys.perm.length_eq, List.length_eq_zero_iff]
  unfold medianOf
  rw [hsort]
  rcases hmiddle : middle Binary64.midpoint ys with - | m
  · rw [hnone.1 hmiddle]
    rfl
  · have hne : ¬ xs.isEmpty := by
      rw [List.isEmpty_iff, ← hnone, hmiddle]
      simp
    rw [if_neg hne]
    simp only [hmiddle]
    rfl

/-- where all numbers tie the median is the one in the middle -/
theorem medianOf_ties {R : Runtime} (hR : R.SortContract) {xs : List Binary64}
    (h : ∀ a ∈ xs, ∀ b ∈ xs, partialOrder a b = .eq) :
    medianOf R xs = .ok (some ((middle Binary64.midpoint xs).elim .null .float64)) := by
  obtain ⟨ys, hys, hmedian⟩ := medianOf_sorted hR (totalOrderOn_of_ties h)
  rw [hmedian, hys.eq_of_ties h]

theorem elim_injective {m m' : Option Binary64}
    (h : (.ok (some (m.elim .null .float64)) : IngestionResult (Option Value)) = .ok (some (m'.elim .null .float64))) :
    m = m' := by
  rcases m with - | x <;> rcases m' with - | y <;> simp at h ⊢
  exact h

/-- a standard library that panics whenever it may -/
def refusing : Runtime :=
  ⟨true, fun cmp xs => if TotalOrderOn cmp xs then some (xs.mergeSort fun a b => cmp a b ≠ .gt) else none⟩

theorem refusing_contract : refusing.SortContract := by
  refine ⟨fun cmp xs h => ⟨_, if_pos h, mergeSort_stableSorted h⟩, fun cmp xs ys hys => ?_⟩
  by_cases h : TotalOrderOn cmp xs
  · have hys' : some (xs.mergeSort fun a b => cmp a b ≠ .gt) = some ys := (if_pos h).symm.trans hys
    rw [← Option.some.inj hys']
    exact List.mergeSort_perm _ _
  · exact absurd ((if_neg h).symm.trans hys) (by simp)

theorem totalOrderOn_of_ok {xs : List Binary64} {v : Option Value} (h : medianOf refusing xs = .ok v) :
    TotalOrderOn partialOrder xs := by
  by_contra htotal
  have hne : ¬ xs.isEmpty := by
    intro hempty
    rw [List.isEmpty_iff.1 hempty] at htotal
    exact htotal (totalOrderOn_numbers (by simp))
  have hpanic : refusing.sortBy partialOrder xs = none := if_neg htotal
  rw [medianOf, if_neg hne, hpanic] at h
  cases h

section

variable {schema : Schema} {column : String} {idx : ℕ} {field : Field} (hidx : schema.indexOf column = some idx)
  (hfield : schema.fields[idx]? = some field) (hnum : field.dataType = .int64 ∨ field.dataType = .float64)
include hidx hfield hnum

theorem reduce_median (R : Runtime) {rows : List Row} (htyped : ColumnTyped idx field.dataType rows) :
    reduce R ⟨schema, rows⟩ column .median = medianOf R ((nonNullCells idx rows).map number) := by
  have happend : ∀ xs ys : List Binary64, xs.foldl (fun xs x => xs ++ [x]) ys = ys ++ xs := by
    intro xs
    induction xs with
    | nil => simp
    | cons x xs ih => intro ys; rw [List.foldl_cons, ih, List.append_assoc, List.singleton_append]
  unfold reduce
  simp only [hidx]
  unfold reduceMedian medianOf
  simp only [hfield, if_pos hnum, loop_eq, cells_floatCell hnum htyped, happend, List.nil_append]
  split_ifs with hnil
  · rfl
  · change (match R.sortBy partialOrder _ with | none => _ | some xs => _) = _
    rcases R.sortBy partialOrder ((nonNullCells idx rows).map number) with - | ys
    · rfl
    · unfold middle index
      dsimp only
      split_ifs
      · rcases ys[ys.length / 2]? with - | a <;> rfl
      · rcases ys[ys.length / 2 - 1]? with - | a <;> rcases ys[ys.length / 2]? with - | b <;> rfl

/-- **Safe cells**: the laws, in the order of `arg_max_row` -/
theorem medianLaws_of_safe {rows : List Row} (htyped : ColumnTyped idx field.dataType rows)
    (hsafe : MedianSafe (nonNullCells idx rows)) : MedianLaws cellOrder ⟨schema, rows⟩ column idx := by
  refine ⟨cellOrder_total hnum htyped, fun a ha b hb => ?_, fun R hR rows' hrows => ?_, fun R hR => ?_⟩
  · exact cellOrder_antisymm (hasType_of_nonNull htyped ha) (hasType_of_nonNull htyped hb)
  · have htyped' : ColumnTyped idx field.dataType rows' := fun row hrow => htyped row (hrows.subset hrow)
    have hnumbers : ((nonNullCells idx rows').map number).Perm ((nonNullCells idx rows).map number) :=
      (cells_perm _ idx hrows).map number
    obtain ⟨ys, hys, hmedian⟩ := medianOf_sorted hR (hsafe.nan.perm hnumbers).totalOrderOn
    refine ⟨middle Binary64.midpoint ys, (reduce_median hidx hfield hnum R htyped').trans hmedian, ?_⟩
    -- the code's order and that of the cells have one middle, in which the midpoint is the mean
    have hone := hsafe.nan.middle_alike (hys.perm.trans hnumbers) hys.ordered (sortedNumbers_perm _ _)
      (ordered_numbers hnum htyped)
    exact rel_trans hone ((middle_mean_iff _).2 hsafe.fits)
  · obtain ⟨ys, hys, hmedian⟩ := medianOf_sorted hR hsafe.nan.totalOrderOn
    have hnone : middle Binary64.midpoint ys = none ↔ nonNullCells idx rows = [] := by
      rw [middle_eq_none, ← List.length_eq_zero_iff, hys.perm.length_eq, List.length_map, List.length_eq_zero_iff]
    rw [reduce_median hidx hfield hnum R htyped, hmedian, ← hnone]
    rcases middle Binary64.midpoint ys with - | m <;> simp

/-- the laws, read for one order of the numbers in which nothing moves -/
theorem alike_middle {cmp : Value → Value → Ordering} {rows : List Row} (htyped : ColumnTyped idx field.dataType rows)
    (h : MedianLaws cmp ⟨schema, rows⟩ column idx)
    (hties : ∀ a ∈ (nonNullCells idx rows).map number, ∀ b ∈ (nonNullCells idx rows).map number, partialOrder a b = .eq)
    {xs : List Binary64} (hperm : xs.Perm ((nonNullCells idx rows).map number)) :
    Option.Rel Binary64.Alike (middle Binary64.midpoint xs) (orderStatistic cmp (nonNullCells idx rows)) := by
  rw [← cells_floatCell hnum htyped] at hperm
  obtain ⟨rows', hrows, hxs⟩ := exists_rows_of_perm _ idx hperm
  have htyped' : ColumnTyped idx field.dataType rows' := fun row hrow => htyped row (hrows.subset hrow)
  rw [cells_floatCell hnum htyped'] at hxs
  rw [cells_floatCell hnum htyped] at hperm
  have hties' : ∀ a ∈ xs, ∀ b ∈ xs, partialOrder a b = .eq :=
    fun a ha b hb => hties a (hperm.subset ha) b (hperm.subset hb)
  obtain ⟨m, hreduce, hrel⟩ := h.statistic refusing refusing_contract rows' hrows
  rw [reduce_median hidx hfield hnum refusing htyped', hxs, medianOf_ties refusing_contract hties'] at hreduce
  rw [elim_injective hreduce]
  exact hrel

/-- **A NaN that does harm**: no total order has the laws -/
theorem nanSafe_of_laws {cmp : Value → Value → Ordering} {rows : List Row}
    (htyped : ColumnTyped idx field.dataType rows) (h : MedianLaws cmp ⟨schema, rows⟩ column idx) :
    NanSafe ((nonNullCells idx rows).map number) := by
  obtain ⟨m, hreduce, -⟩ := h.statistic refusing refusing_contract rows (.refl rows)
  rw [reduce_median hidx hfield hnum refusing htyped] at hreduce
  have htotal := totalOrderOn_of_ok hreduce
  by_cases hnan : ∃ c ∈ (nonNullCells idx rows).map number, c.isNaN = true
  · obtain ⟨c, hc, hcnan⟩ := hnan
    have hties := ties_of_nan htotal hc hcnan
    exact nanSafe_of_one_middle hties hc hcnan fun ys => alike_middle hidx hfield hnum htyped h hties
  · exact Or.inl fun x hx => by simpa using fun hx' => hnan ⟨x, hx, hx'⟩

/-- **A sum that overflows**: the midpoint that is returned is not the mean -/
theorem middleFits_of_laws {rows : List Row} (htyped : ColumnTyped idx field.dataType rows)
    (h : MedianLaws cellOrder ⟨schema, rows⟩ column idx) :
    MiddleFits (sortedNumbers cellOrder (nonNullCells idx rows)) := by
  have hsafe := nanSafe_of_laws hidx hfield hnum htyped h
  obtain ⟨ys, hys, hmedian⟩ := medianOf_sorted refusing_contract hsafe.totalOrderOn
  obtain ⟨m, hreduce, hstatistic⟩ := h.statistic refusing refusing_contract rows (.refl rows)
  rw [reduce_median hidx hfield hnum refusing htyped, hmedian] at hreduce
  rw [← elim_injective hreduce] at hstatistic
  have hone := hsafe.middle_alike hys.perm hys.ordered (sortedNumbers_perm _ _) (ordered_numbers hnum htyped)
  exact (middle_mean_iff _).1 (rel_trans (rel_symm hone) hstatistic)

/-- **The median is an order statistic** exactly of safe cells -/
theorem median_laws_iff {rows : List Row} (htyped : ColumnTyped idx field.dataType rows) :
    (MedianLaws cellOrder ⟨schema, rows⟩ column idx ↔ MedianSafe (nonNullCells idx rows)) ∧
      ∀ cmp, MedianLaws cmp ⟨schema, rows⟩ column idx → NanSafe ((nonNullCells idx rows).map number) :=
  ⟨⟨fun h => ⟨nanSafe_of_laws hidx hfield hnum htyped h, middleFits_of_laws hidx hfield hnum htyped h⟩,
    medianLaws_of_safe hidx hfield hnum htyped⟩, fun _ => nanSafe_of_laws hidx hfield hnum htyped⟩

end

/-! ## Two columns -/

/-- one column of floats -/
def floats (xs : List Binary64) : DataSet := ⟨⟨[⟨"x", .float64⟩]⟩, xs.map fun x => [.float64 x]⟩

/-- one number and one NaN: their midpoint is a NaN in either order -/
theorem one_and_nan_laws : MedianLaws cellOrder (floats [.ofInt 1, .nan]) "x" 0 := by
  have htyped : ColumnTyped 0 .float64 (floats [.ofInt 1, .nan]).rows := by decide +kernel
  have hnan : NanSafe ((nonNullCells 0 (floats [.ofInt 1, .nan]).rows).map number) := by decide +kernel
  have hfits : ∀ a ∈ (nonNullCells 0 (floats [.ofInt 1, .nan]).rows).map number,
      ∀ b ∈ (nonNullCells 0 (floats [.ofInt 1, .nan]).rows).map number, a.SumFinite b := by decide +kernel
  have hsafe : MedianSafe (nonNullCells 0 (floats [.ofInt 1, .nan]).rows) :=
    ⟨hnan, middleFits_of_forall fun a ha b hb =>
      hfits a ((sortedNumbers_perm _ _).subset ha) b ((sortedNumbers_perm _ _).subset hb)⟩
  exact (@median_laws_iff _ "x" 0 ⟨"x", .float64⟩ rfl rfl (Or.inr rfl) _ htyped).1.2 hsafe

/-- **A NaN among ones**: the median of 1, NaN, 1 is a NaN, that of NaN, 1, 1 is 1; no total order has the laws -/
theorem nan_among_ones :
    (∀ R : Runtime, R.SortContract →
      reduce R (floats [.ofInt 1, .nan, .ofInt 1]) "x" .median = .ok (some (.float64 .nan)) ∧
      reduce R (floats [.nan, .ofInt 1, .ofInt 1]) "x" .median = .ok (some (.float64 (.ofInt 1)))) ∧
    ¬ ∃ cmp : Value → Value → Ordering, ∀ (ds : DataSet) (column : String) (idx : ℕ) (field : Field),
      ds.schema.indexOf column = some idx → ds.schema.fields[idx]? = some field →
      (field.dataType = .int64 ∨ field.dataType = .float64) → ColumnTyped idx field.dataType ds.rows →
      MedianLaws cmp ds column idx := by
  have htyped : ColumnTyped 0 .float64 (floats [.ofInt 1, .nan, .ofInt 1]).rows := by decide +kernel
  have htyped' : ColumnTyped 0 .float64 (floats [.nan, .ofInt 1, .ofInt 1]).rows := by decide +kernel
  constructor
  · intro R hR
    constructor
    · refine (@reduce_median _ "x" 0 ⟨"x", .float64⟩ rfl rfl (Or.inr rfl) R _ htyped).trans ?_
      rw [medianOf_ties hR (by decide +kernel)]
      rfl
    · refine (@reduce_median _ "x" 0 ⟨"x", .float64⟩ rfl rfl (Or.inr rfl) R _ htyped').trans ?_
      rw [medianOf_ties hR (by decide +kernel)]
      rfl
  · rintro ⟨cmp, h⟩
    have hunsafe : ¬ NanSafe ((nonNullCells 0 (floats [.ofInt 1, .nan, .ofInt 1]).rows).map number) := by decide +kernel
    have hlaws := h (floats [.ofInt 1, .nan, .ofInt 1]) "x" 0 ⟨"x", .float64⟩ rfl rfl (Or.inr rfl) htyped
    exact hunsafe (@nanSafe_of_laws _ "x" 0 ⟨"x", .float64⟩ rfl rfl (Or.inr rfl) _ _ htyped hlaws)

end RustDataProcessing.Processing
