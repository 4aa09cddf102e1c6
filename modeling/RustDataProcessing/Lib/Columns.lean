/-
Tables whose columns are found by name.

A table is a header and rows of as many cells. `Rearranged` is a table with the columns of another in any order and further
ones between them. A column that is named once, and by none of the further ones, is found in both tables and has the same
cells, row by row (`Rearranged.find`).
-/
import Mathlib.Tactic

namespace Columns

variable {α κ : Type}

structure Table (α : Type) where
  header : List α
  rows : List (List α)
  rect : ∀ r ∈ rows, r.length = header.length

namespace Table

variable (blank : α) (t : Table α)

/-- a column: its header and its cells -/
def column (h : α × ℕ) : α × List α := (h.1, t.rows.map fun r => r.getD h.2 blank)

def columns : List (α × List α) := t.header.zipIdx.map (t.column blank)

theorem mem_columns {c : α × List α} :
    c ∈ t.columns blank ↔ ∃ i, t.header[i]? = some c.1 ∧ c.2 = t.rows.map fun r => r.getD i blank := by
  simp only [columns, List.mem_map, Prod.exists, List.mem_zipIdx_iff_getElem?]
  constructor
  · rintro ⟨h, i, hi, rfl⟩
    exact ⟨i, hi, rfl⟩
  · rintro ⟨i, hi, hcells⟩
    exact ⟨c.1, i, hi, Prod.ext rfl hcells.symm⟩

theorem columns_headers : (t.columns blank).map Prod.fst = t.header := by
  rw [columns, List.map_map]
  change t.header.zipIdx.map Prod.fst = _
  rw [List.zipIdx_map_fst]

end Table

/-- the columns of `t` in any order, and further ones whose names are not among `names` -/
structure Rearranged (blank : α) (key : α → κ) (names : List κ) (t t' : Table α) : Prop where
  height : t.rows.length = t'.rows.length
  columns : ∃ further, (t'.columns blank).Perm (t.columns blank ++ further) ∧ ∀ c ∈ further, key c.1 ∉ names

/-- a name stands over one column -/
theorem index_unique {key : α → κ} {header : List α} (h : (header.map key).Nodup) {i j : ℕ} {c d : α}
    (hi : header[i]? = some c) (hj : header[j]? = some d) (hkey : key c = key d) : i = j := by
  have hlt : i < (header.map key).length := by
    simpa using (List.getElem?_eq_some_iff.1 hi).1
  apply (List.getElem?_inj hlt h).1
  simp [hi, hj, hkey]

theorem forall₂_of_map_eq {β : Type} {f g : α → β} {l l' : List α} (h : l.map f = l'.map g) :
    List.Forall₂ (fun a b => f a = g b) l l' := by
  rwa [← List.forall₂_eq_eq_eq, List.forall₂_map_left_iff, List.forall₂_map_right_iff] at h

variable [DecidableEq κ]

/-- the first column of a name -/
def find (key : α → κ) (header : List α) (name : κ) : Option ℕ := header.findIdx? fun h => key h = name

theorem find_eq_some {key : α → κ} {header : List α} {name : κ} {i : ℕ} (h : find key header name = some i) :
    ∃ c, header[i]? = some c ∧ key c = name := by
  obtain ⟨hlt, hkey, -⟩ := List.findIdx?_eq_some_iff_getElem.1 h
  exact ⟨header[i], List.getElem?_eq_getElem hlt, by simpa using hkey⟩

theorem find_eq_none {key : α → κ} {header : List α} {name : κ} :
    find key header name = none ↔ ∀ h ∈ header, key h ≠ name := by
  simp [find, List.findIdx?_eq_none_iff]

/-- **A named column** is in both tables with the same cells, or in neither -/
theorem Rearranged.find {blank : α} {key : α → κ} {names : List κ} {t t' : Table α} (h : Rearranged blank key names t t')
    (hdistinct : (t.header.map key).Nodup) {name : κ} (hname : name ∈ names) :
    (Columns.find key t.header name = none ∧ Columns.find key t'.header name = none) ∨
      ∃ i i', Columns.find key t.header name = some i ∧ Columns.find key t'.header name = some i' ∧
        List.Forall₂ (fun r r' => r.getD i blank = r'.getD i' blank) t.rows t'.rows := by
  obtain ⟨further, hperm, hfurther⟩ := h.columns
  have hheader : ∀ c, c ∈ t'.header ↔ c ∈ t.header ∨ c ∈ further.map Prod.fst := by
    intro c
    rw [← t'.columns_headers blank, ← t.columns_headers blank, ← List.mem_append, ← List.map_append]
    exact (hperm.map Prod.fst).mem_iff
  cases hi : Columns.find key t.header name with
  | none =>
    refine .inl ⟨rfl, find_eq_none.2 fun c hc => ?_⟩
    rcases (hheader c).1 hc with hc | hc
    · exact find_eq_none.1 hi c hc
    · obtain ⟨d, hd, rfl⟩ := List.mem_map.1 hc
      exact fun heq => hfurther d hd (heq ▸ hname)
  | some i =>
    obtain ⟨c, hc, hkey⟩ := find_eq_some hi
    cases hi' : Columns.find key t'.header name with
    | none => exact absurd hkey (find_eq_none.1 hi' c ((hheader c).2 (.inl (List.mem_of_getElem? hc))))
    | some i' =>
      obtain ⟨c', hc', hkey'⟩ := find_eq_some hi'
      -- the column of the second table is one of the first, and there the name stands over one column
      have hmem : t'.column blank (c', i') ∈ t.columns blank ++ further :=
        hperm.subset ((t'.mem_columns blank).2 ⟨i', hc', rfl⟩)
      rcases List.mem_append.1 hmem with hmem | hmem
      · obtain ⟨j, hj, hcells⟩ := (t.mem_columns blank).1 hmem
        obtain rfl : j = i := index_unique hdistinct hj hc (hkey'.trans hkey.symm)
        exact .inr ⟨j, i', rfl, rfl, forall₂_of_map_eq hcells.symm⟩
      · exact absurd (hkey' ▸ hname) (hfurther _ hmem)

end Columns
