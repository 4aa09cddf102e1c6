/-
The most frequent values of a column (`src/processing/multi.rs`).

The cells are counted in a hash map under a text key, taken out of it in the order it has them, and sorted by count and
by a second text key. The order of the map is a parameter (`HashOrder`).

- `bucketKey_injective`, `valueSortKey_injective`: both keys tell all values apart, by type and bit pattern;
- `topK_ranking`: the result is the beginning of one ranking of the distinct values, whatever the order of the map and of
  the rows. The ranking is as long as `CountDistinctNonNull` says, and its counts add up to the number of cells.
-/
import Mathlib.Tactic
import RustDataProcessing.Lib.Buckets
import RustDataProcessing.Lib.Display
import RustDataProcessing.Processing.Multi

namespace RustDataProcessing.Processing

/-! ## The source -/

def freqBucketKey : Value → Option String
  | .null => none
  | .int64 x => some ("i:" ++ RustStd.displayI64 x)
  | .float64 x => some ("f:" ++ toString x.bits.toNat)
  | .bool b => some ("b:" ++ toString b)
  | .utf8 s => some ("s:" ++ s)

def valueSortKey : Value → String
  | .null => ""
  | .int64 x => "i:" ++ RustStd.zeroPadded 20 x.toInt
  | .float64 x => "f:" ++ RustStd.zeroPadded 20 x.bits.toNat
  | .bool b => "b:" ++ toString b
  | .utf8 s => "s:" ++ s

/-- the hash map after the rows; a count of rows fits an `i64` -/
def frequencies (idx : ℕ) (rows : List Row) : List (String × Value × ℕ) :=
  rows.foldl (fun buckets row => match row[idx]? with
    | none => buckets
    | some cell => match freqBucketKey cell with
      | none => buckets
      | some key => Buckets.add buckets key cell) []

/-- the order in which a hash map has its entries -/
structure HashOrder where
  iterate : List (String × Value × ℕ) → List (String × Value × ℕ)
  perm : ∀ entries, (iterate entries).Perm entries

/-- the count, descending, and then the key -/
def rankOrder (a b : Value × ℕ) : Ordering :=
  (compare b.2 a.2).then (compare (valueSortKey a.1) (valueSortKey b.1))

def topKByFrequency (H : HashOrder) (ds : DataSet) (column : String) (k : ℕ) : Option (List (Value × ℕ)) :=
  (ds.schema.indexOf column).map fun idx =>
    (((H.iterate (frequencies idx ds.rows)).map Prod.snd).mergeSort fun a b => rankOrder a b ≠ .gt).take k

/-! ## The keys -/

theorem toString_nat_injective {m n : ℕ} (h : toString m = toString n) : m = n := by
  have hdigits : (Nat.repr m).toList = (Nat.repr n).toList := congrArg String.toList h
  rw [Nat.toList_repr, Nat.toList_repr] at hdigits
  rw [← @Nat.ofDigitChars_ten_toDigits m, hdigits, Nat.ofDigitChars_ten_toDigits]

theorem bits_injective {x y : Binary64} (h : x.bits.toNat = y.bits.toNat) : x = y := by
  rcases x with ⟨a⟩
  rcases y with ⟨b⟩
  rw [UInt64.toNat_inj.1 (show a.toNat = b.toNat from h)]

theorem toString_bool_injective {a b : Bool} (h : toString a = toString b) : a = b := by
  cases a <;> cases b <;> first | rfl | exact absurd h (by decide)

/-- texts after tags of two characters -/
theorem tagged_inj {p q a b : String} (hp : p.toList.length = 2) (hq : q.toList.length = 2) (h : p ++ a = q ++ b) :
    p = q ∧ a = b := by
  rw [← String.toList_inj, String.toList_append, String.toList_append] at h
  obtain ⟨htag, hbody⟩ := List.append_inj h (hp.trans hq.symm)
  exact ⟨String.toList_inj.1 htag, String.toList_inj.1 hbody⟩

/-- a key of a tag for the type and a text for the value -/
structure TaggedKey (key : Value → String) (integer : Int64 → String) (float : ℕ → String) : Prop where
  int64 : ∀ x, key (.int64 x) = "i:" ++ integer x
  float64 : ∀ x : Binary64, key (.float64 x) = "f:" ++ float x.bits.toNat
  bool : ∀ b : Bool, key (.bool b) = "b:" ++ toString b
  utf8 : ∀ s, key (.utf8 s) = "s:" ++ s

theorem TaggedKey.injective {key : Value → String} {integer : Int64 → String} {float : ℕ → String}
    (h : TaggedKey key integer float) (hint : Function.Injective integer) (hfloat : Function.Injective float) {v w : Value}
    (hv : v ≠ .null) (hw : w ≠ .null) (heq : key v = key w) : v = w := by
  cases v <;> first | exact absurd rfl hv | skip
  all_goals
    cases w <;> first | exact absurd rfl hw | skip
  all_goals
    simp only [h.int64, h.float64, h.bool, h.utf8] at heq
    obtain ⟨htag, hbody⟩ := tagged_inj rfl rfl heq
    first | exact absurd htag (by decide) | skip
  · rw [hint hbody]
  · rw [bits_injective (hfloat hbody)]
  · rw [toString_bool_injective hbody]
  · rw [hbody]

/-- the key of a cell that is no null -/
def bucketKey (v : Value) : String := (freqBucketKey v).getD ""

theorem bucketKey_injective {v w : Value} (hv : v ≠ .null) (hw : w ≠ .null) (h : bucketKey v = bucketKey w) : v = w :=
  TaggedKey.injective ⟨fun _ => rfl, fun _ => rfl, fun _ => rfl, fun _ => rfl⟩ (fun _ _ => RustStd.displayI64_injective)
    (fun _ _ => toString_nat_injective) hv hw h

/-- **The sort key** tells all values apart -/
theorem valueSortKey_injective {v w : Value} (hv : v ≠ .null) (hw : w ≠ .null) (h : valueSortKey v = valueSortKey w) :
    v = w := by
  have hkey : TaggedKey valueSortKey (fun x => RustStd.zeroPadded 20 x.toInt) (fun n => RustStd.zeroPadded 20 n) :=
    ⟨fun _ => rfl, fun _ => rfl, fun _ => rfl, fun _ => rfl⟩
  refine hkey.injective (fun x y hxy => ?_) (fun m n hmn => ?_) hv hw h
  · exact Int64.toInt_inj.1 (RustStd.zeroPadded_injective hxy)
  · exact Int.ofNat_inj.1 (RustStd.zeroPadded_injective hmn)

/-! ## The order of the ranking -/

/-- the pairs in the order of the ranking -/
def rankKey (p : Value × ℕ) : ℕᵒᵈ ×ₗ String := toLex (OrderDual.toDual p.2, valueSortKey p.1)

theorem rankOrder_le (a b : Value × ℕ) : rankOrder a b ≠ .gt ↔ rankKey a ≤ rankKey b := by
  rw [rankKey, rankKey, Prod.Lex.toLex_le_toLex, rankOrder]
  rcases lt_trichotomy b.2 a.2 with hlt | heq | hgt
  · simp [compare_lt_iff_lt.2 hlt, Ordering.then, hlt]
  · simp [heq, compare_le_iff_le]
  · simp [compare_gt_iff_gt.2 hgt, Ordering.then, hgt.le.not_gt, hgt.ne]

/-! ## The ranking -/

/-- every distinct value once, with its number of occurrences, by this number and then by key -/
structure Ranking (values : List Value) (ranking : List (Value × ℕ)) : Prop where
  sorted : ranking.Pairwise fun a b => b.2 < a.2 ∨ (a.2 = b.2 ∧ valueSortKey a.1 < valueSortKey b.1)
  once : (ranking.map Prod.fst).Nodup
  members : ∀ v, v ∈ ranking.map Prod.fst ↔ v ∈ values
  counts : ∀ p ∈ ranking, p.2 = values.count p.1

namespace Ranking

variable {values : List Value} {ranking : List (Value × ℕ)}

theorem mem_iff (h : Ranking values ranking) {p : Value × ℕ} : p ∈ ranking ↔ p.1 ∈ values ∧ p.2 = values.count p.1 := by
  constructor
  · exact fun hp => ⟨(h.members p.1).1 (List.mem_map_of_mem hp), h.counts p hp⟩
  · rintro ⟨hv, hcount⟩
    obtain ⟨q, hq, hqp⟩ := List.mem_map.1 ((h.members p.1).2 hv)
    have hsame : q = p := Prod.ext hqp (by rw [h.counts q hq, hcount, hqp])
    exact hsame ▸ hq

theorem perm {other : List Value} (h : Ranking values ranking) (hother : other.Perm values) : Ranking other ranking where
  sorted := h.sorted
  once := h.once
  members v := (h.members v).trans hother.mem_iff.symm
  counts p hp := (h.counts p hp).trans (hother.count_eq p.1).symm

/-- **There is only one ranking** -/
theorem unique (h : Ranking values ranking) {other : List (Value × ℕ)} (hother : Ranking values other) :
    other = ranking := by
  have hperm : other.Perm ranking :=
    (List.perm_ext_iff_of_nodup (List.Nodup.of_map _ hother.once) (List.Nodup.of_map _ h.once)).2
      fun p => hother.mem_iff.trans h.mem_iff.symm
  refine hperm.eq_of_pairwise ?_ hother.sorted h.sorted
  rintro a b - - (hab | ⟨hab, hkey⟩) (hba | ⟨hba, hkey'⟩)
  · exact absurd hba hab.asymm
  · omega
  · omega
  · exact absurd hkey' hkey.asymm

theorem total (h : Ranking values ranking) : (ranking.map Prod.snd).sum = values.length := by
  have hcounts : ranking.map Prod.snd = (ranking.map Prod.fst).map fun v => values.count v := by
    rw [List.map_map]
    exact List.map_congr_left h.counts
  rw [hcounts, Buckets.sum_counts h.once h.members]

theorem length (h : Ranking values ranking) : ranking.length = values.toFinset.card := by
  have hset : values.toFinset = (ranking.map Prod.fst).toFinset := by
    ext v
    simp only [List.mem_toFinset, h.members]
  rw [hset, List.toFinset_card_of_nodup h.once, List.length_map]

end Ranking

/-- the hash map after the rows, by the cells -/
theorem frequencies_eq (idx : ℕ) (rows : List Row) : frequencies idx rows =
    (nonNullCells idx rows).foldl (fun buckets v => Buckets.add buckets (bucketKey v) v) [] := by
  have hloop : ∀ buckets, rows.foldl (fun buckets row => match row[idx]? with
      | none => buckets
      | some cell => match freqBucketKey cell with
        | none => buckets
        | some key => Buckets.add buckets key cell) buckets =
      (nonNullCells idx rows).foldl (fun buckets v => Buckets.add buckets (bucketKey v) v) buckets := by
    induction rows with
    | nil => exact fun _ => rfl
    | cons row rows ih =>
      intro buckets
      rw [List.foldl_cons, ih, nonNullCells, nonNullCells, cells, cells, List.filterMap_cons]
      cases row[idx]? with
      | none => rfl
      | some cell => cases cell <;> rfl
  exact hloop []

/-- the entries of the hash map, in its order -/
theorem entries_perm (H : HashOrder) (idx : ℕ) (rows : List Row) : ∃ values : List Value, values.Nodup ∧
    (∀ v, v ∈ values ↔ v ∈ nonNullCells idx rows) ∧ ((H.iterate (frequencies idx rows)).map Prod.snd).Perm
      (values.map fun v => (v, (nonNullCells idx rows).count v)) := by
  obtain ⟨values, hnodup, hmem, hfold⟩ := @Buckets.foldl_add _ _ _ _ bucketKey (nonNullCells idx rows)
    fun v hv w hw => bucketKey_injective (ne_null_of_mem hv) (ne_null_of_mem hw)
  refine ⟨values, hnodup, hmem, ((H.perm _).map Prod.snd).trans (.of_eq ?_)⟩
  rw [frequencies_eq, hfold, Buckets.counts, List.map_map]
  rfl

theorem mergeSort_rankKey (entries : List (Value × ℕ)) :
    (entries.mergeSort fun a b => rankOrder a b ≠ .gt).Pairwise fun a b => rankKey a ≤ rankKey b := by
  have htrans : ∀ a b c, decide (rankOrder a b ≠ .gt) = true → decide (rankOrder b c ≠ .gt) = true →
      decide (rankOrder a c ≠ .gt) = true := by
    intro a b c hab hbc
    rw [decide_eq_true_eq, rankOrder_le] at hab hbc ⊢
    exact hab.trans hbc
  have htotal : ∀ a b, (decide (rankOrder a b ≠ .gt) || decide (rankOrder b a ≠ .gt)) = true := by
    intro a b
    rw [Bool.or_eq_true, decide_eq_true_eq, decide_eq_true_eq, rankOrder_le, rankOrder_le]
    exact le_total _ _
  refine (List.pairwise_mergeSort htrans htotal entries).imp fun {a b} hab => ?_
  rwa [decide_eq_true_eq, rankOrder_le] at hab

/-- **The sorted entries** are the ranking -/
theorem sorted_ranking (H : HashOrder) (idx : ℕ) (rows : List Row) : Ranking (nonNullCells idx rows)
    (((H.iterate (frequencies idx rows)).map Prod.snd).mergeSort fun a b => rankOrder a b ≠ .gt) := by
  obtain ⟨values, hnodup, hmem, hentries⟩ := entries_perm H idx rows
  generalize (H.iterate (frequencies idx rows)).map Prod.snd = entries at hentries
  have hle := mergeSort_rankKey entries
  have hsort := (List.mergeSort_perm entries fun a b => rankOrder a b ≠ .gt).trans hentries
  generalize entries.mergeSort (fun a b => rankOrder a b ≠ .gt) = ranking at hle hsort
  have hvalues : (ranking.map Prod.fst).Perm values := by
    refine (hsort.map Prod.fst).trans (.of_eq ?_)
    rw [List.map_map]
    exact List.map_id values
  have honce : (ranking.map Prod.fst).Nodup := hvalues.nodup_iff.2 hnodup
  have hcounted : ∀ p ∈ ranking, p.1 ∈ nonNullCells idx rows ∧ p.2 = (nonNullCells idx rows).count p.1 := by
    intro p hp
    obtain ⟨v, hv, rfl⟩ := List.mem_map.1 (hsort.mem_iff.1 hp)
    exact ⟨(hmem v).1 hv, rfl⟩
  refine ⟨?_, honce, fun v => hvalues.mem_iff.trans (hmem v), fun p hp => (hcounted p hp).2⟩
  refine (hle.and (List.pairwise_map.1 honce)).imp_of_mem ?_
  rintro a b ha hb ⟨hab, hfst⟩
  simp only [rankKey, Prod.Lex.toLex_le_toLex, OrderDual.toDual_lt_toDual] at hab
  refine hab.imp_right fun ⟨hcount, hkey⟩ => ⟨OrderDual.toDual_inj.1 hcount, hkey.lt_of_ne fun heq => hfst ?_⟩
  exact valueSortKey_injective (ne_null_of_mem (hcounted a ha).1) (ne_null_of_mem (hcounted b hb).1) heq

/-! ## The number of distinct values -/

theorem card_map {α β : Type} [DecidableEq α] [DecidableEq β] {f : α → β} (hf : Function.Injective f) (as : List α) :
    (as.map f).toFinset.card = as.toFinset.card := by
  rw [← Finset.card_image_of_injective _ hf]
  congr 1
  ext b
  simp

/-- the distinct cells of a column of one type, by their contents -/
theorem card_nonNullCells {α : Type} [DecidableEq α] {read : Value → Option α} {mk : α → Value}
    (hmk : Function.Injective mk) {dt : DataType} (hread : ∀ v, v.fits dt → nonNull v = (read v).map mk) {idx : ℕ}
    {rows : List Row} (htyped : ColumnTyped idx dt rows) :
    (nonNullCells idx rows).toFinset.card = (cells read idx rows).toFinset.card := by
  have hcells : nonNullCells idx rows = (cells read idx rows).map mk := by
    rw [nonNullCells, cells, cells, List.map_filterMap]
    refine List.filterMap_congr fun row hrow => ?_
    cases hcell : row[idx]? with
    | none => rfl
    | some v => exact hread v (htyped row hrow v hcell)
  rw [hcells, card_map hmk]

/-- **CountDistinctNonNull** counts the distinct cells of a well-typed column -/
theorem countDistinct_eq {ds : DataSet} {idx : ℕ} {dt : DataType} (htyped : ColumnTyped idx dt ds.rows) :
    reduceCountDistinctNonNull ds idx dt =
      .ok (some (.int64 (Int64.ofNat (nonNullCells idx ds.rows).toFinset.card))) := by
  unfold reduceCountDistinctNonNull
  cases dt with
  | int64 =>
    have hread : ∀ v : Value, v.fits .int64 → nonNull v = (int64Cell v).map .int64 := by
      intro v hv
      cases v <;> revert hv <;> simp [Value.fits, Value.hasType, nonNull, int64Cell]
    simp only [distinct_eq, card_nonNullCells (fun _ _ h => Value.int64.inj h) hread htyped]
  | float64 =>
    have hread : ∀ v : Value, v.fits .float64 → nonNull v = (float64Cell v).map .float64 := by
      intro v hv
      cases v <;> revert hv <;> simp [Value.fits, Value.hasType, nonNull, float64Cell]
    simp only [distinct_bits, card_nonNullCells (fun _ _ h => Value.float64.inj h) hread htyped]
  | bool =>
    have hread : ∀ v : Value, v.fits .bool → nonNull v = (boolCell v).map .bool := by
      intro v hv
      cases v <;> revert hv <;> simp [Value.fits, Value.hasType, nonNull, boolCell]
    simp only [distinct_eq, card_nonNullCells (fun _ _ h => Value.bool.inj h) hread htyped]
  | utf8 =>
    have hread : ∀ v : Value, v.fits .utf8 → nonNull v = (utf8Cell v).map .utf8 := by
      intro v hv
      cases v <;> revert hv <;> simp [Value.fits, Value.hasType, nonNull, utf8Cell]
    simp only [distinct_eq, card_nonNullCells (fun _ _ h => Value.utf8.inj h) hread htyped]

/-! ## The beginning of the ranking -/

/-- `ranking` is the one ranking of the column, and the results are beginnings of it -/
structure TopK (R : Runtime) (ds : DataSet) (column : String) (idx : ℕ) (ranking : List (Value × ℕ)) : Prop where
  ranked : Ranking (nonNullCells idx ds.rows) ranking
  unique : ∀ other, Ranking (nonNullCells idx ds.rows) other → other = ranking
  beginning : ∀ (H : HashOrder) (rows : List Row), rows.Perm ds.rows → ∀ k,
    topKByFrequency H ⟨ds.schema, rows⟩ column k = some (ranking.take k)
  distinct : reduce R ds column .countDistinctNonNull = .ok (some (.int64 (Int64.ofNat ranking.length)))
  total : (ranking.map Prod.snd).sum = (nonNullCells idx ds.rows).length

/-- **The most frequent values** are the beginning of one ranking, in every order of the map and of the rows -/
theorem topK_ranking (R : Runtime) {ds : DataSet} {column : String} {idx : ℕ} {field : Field}
    (hidx : ds.schema.indexOf column = some idx) (hfield : ds.schema.fields[idx]? = some field)
    (htyped : ColumnTyped idx field.dataType ds.rows) : ∃ ranking, TopK R ds column idx ranking := by
  have hranking := sorted_ranking ⟨id, fun _ => .refl _⟩ idx ds.rows
  refine ⟨_, hranking, fun other hother => hranking.unique hother, ?_, ?_, hranking.total⟩
  · intro H rows hrows k
    have hsame := hranking.unique ((sorted_ranking H idx rows).perm (cells_perm nonNull idx hrows).symm)
    rw [topKByFrequency, hidx, Option.map_some, hsame]
  · simp only [reduce, hidx, hfield]
    rw [countDistinct_eq htyped, hranking.length]

/-- a column of integers, one of them twice, with nulls -/
theorem repeated_value_ranking : ∃ ranking,
    TopK wrappingBuild ⟨⟨[⟨"n", .int64⟩]⟩, [[.int64 (-3)], [.null], [.int64 7], [.int64 7], []]⟩ "n" 0 ranking :=
  @topK_ranking wrappingBuild _ "n" 0 ⟨"n", .int64⟩ rfl rfl (by decide)

end RustDataProcessing.Processing
