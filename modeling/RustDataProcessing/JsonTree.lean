/-
JSON documents as trees: induction over the children, what holds of every object at any depth (`Everywhere`), how deep a
document is, and its string leaves.

`mapStrings` changes the string leaves and nothing else; two such changes of a document are the same exactly when they
are the same on its leaves (`mapStrings_eq_iff`).
-/
import Mathlib.Tactic
import RustDataProcessing.Json

namespace RustDataProcessing.Json

def isLeaf : Json → Bool
  | .array _ => false
  | .object _ => false
  | _ => true

/-- a document is an object, an array, or a leaf -/
theorem induction {P : Json → Prop} (object : ∀ members, (∀ m ∈ members, P m.2) → P (.object members))
    (array : ∀ items, (∀ c ∈ items, P c) → P (.array items)) (leaf : ∀ j, j.isLeaf = true → P j) (j : Json) : P j := by
  induction hn : sizeOf j using Nat.strong_induction_on generalizing j with
  | _ n ih =>
    subst hn
    cases j with
    | object members =>
      refine object members fun m hm => ih _ ?_ m.2 rfl
      have hlt := List.sizeOf_lt_of_mem hm
      obtain ⟨key, c⟩ := m
      simp only [Prod.mk.sizeOf_spec] at hlt
      simp only [Json.object.sizeOf_spec]
      omega
    | array items =>
      refine array items fun c hc => ih _ ?_ c rfl
      have hlt := List.sizeOf_lt_of_mem hc
      simp only [Json.array.sizeOf_spec]
      omega
    | _ => exact leaf _ rfl

/-- the property holds of the members of every object, at any depth -/
inductive Everywhere (P : List (String × Json) → Prop) : Json → Prop where
  | object {members : List (String × Json)} (here : P members) (below : ∀ m ∈ members, Everywhere P m.2) :
    Everywhere P (.object members)
  | array {items : List Json} (below : ∀ c ∈ items, Everywhere P c) : Everywhere P (.array items)
  | leaf {j : Json} (h : j.isLeaf = true) : Everywhere P j

namespace Everywhere

variable {P : List (String × Json) → Prop}

theorem object_iff {members : List (String × Json)} :
    Everywhere P (.object members) ↔ P members ∧ ∀ m ∈ members, Everywhere P m.2 := by
  constructor
  · rintro (⟨here, below⟩ | - | h)
    · exact ⟨here, below⟩
    · cases h
  · rintro ⟨here, below⟩
    exact .object here below

theorem array_iff {items : List Json} : Everywhere P (.array items) ↔ ∀ c ∈ items, Everywhere P c := by
  constructor
  · rintro (- | below | h)
    · exact below
    · cases h
  · exact .array

end Everywhere

/-! ## Depth -/

mutual

/-- the number of arrays and objects around the deepest leaf -/
def depth : Json → ℕ
  | .array items => depthItems items + 1
  | .object members => depthMembers members + 1
  | _ => 0

def depthItems : List Json → ℕ
  | [] => 0
  | c :: items => max (depth c) (depthItems items)

def depthMembers : List (String × Json) → ℕ
  | [] => 0
  | (_, c) :: members => max (depth c) (depthMembers members)

end

theorem depth_item {items : List Json} {c : Json} (h : c ∈ items) : c.depth < (Json.array items).depth := by
  rw [depth, Nat.lt_succ_iff]
  induction items with
  | nil => cases h
  | cons d items ih =>
    rw [depthItems]
    rcases List.mem_cons.1 h with rfl | h
    · exact le_max_left _ _
    · exact (ih h).trans (le_max_right _ _)

theorem depth_member {members : List (String × Json)} {m : String × Json} (h : m ∈ members) :
    m.2.depth < (Json.object members).depth := by
  rw [depth, Nat.lt_succ_iff]
  induction members with
  | nil => cases h
  | cons d members ih =>
    obtain ⟨key, d⟩ := d
    rw [depthMembers]
    rcases List.mem_cons.1 h with rfl | h
    · exact le_max_left _ _
    · exact (ih h).trans (le_max_right _ _)

/-! ## String leaves -/

mutual

/-- the string leaves, in the document's order -/
def strings : Json → List String
  | .string s => [s]
  | .array items => stringsOfItems items
  | .object members => stringsOfMembers members
  | _ => []

def stringsOfItems : List Json → List String
  | [] => []
  | c :: items => strings c ++ stringsOfItems items

def stringsOfMembers : List (String × Json) → List String
  | [] => []
  | (_, c) :: members => strings c ++ stringsOfMembers members

end

mutual

def mapStrings (f : String → String) : Json → Json
  | .string s => .string (f s)
  | .array items => .array (mapItems f items)
  | .object members => .object (mapMembers f members)
  | j => j

def mapItems (f : String → String) : List Json → List Json
  | [] => []
  | c :: items => mapStrings f c :: mapItems f items

def mapMembers (f : String → String) : List (String × Json) → List (String × Json)
  | [] => []
  | (key, c) :: members => (key, mapStrings f c) :: mapMembers f members

end

section Strings

variable (f g : String → String)

theorem mapItems_eq (items : List Json) : mapItems f items = items.map (mapStrings f) := by
  induction items with
  | nil => rfl
  | cons c items ih => rw [mapItems, ih, List.map_cons]

theorem mapMembers_eq (members : List (String × Json)) :
    mapMembers f members = members.map fun m => (m.1, mapStrings f m.2) := by
  induction members with
  | nil => rfl
  | cons m members ih => rw [mapMembers, ih, List.map_cons]

theorem mem_stringsOfItems {items : List Json} {s : String} : s ∈ stringsOfItems items ↔ ∃ c ∈ items, s ∈ c.strings := by
  induction items with
  | nil => simp [stringsOfItems]
  | cons c items ih => rw [stringsOfItems, List.mem_append, ih, List.exists_mem_cons_iff]

theorem mem_stringsOfMembers {members : List (String × Json)} {s : String} :
    s ∈ stringsOfMembers members ↔ ∃ m ∈ members, s ∈ m.2.strings := by
  induction members with
  | nil => simp [stringsOfMembers]
  | cons m members ih => rw [stringsOfMembers, List.mem_append, ih, List.exists_mem_cons_iff]

/-- **Two changes of the leaves** are the same when they are the same on each leaf -/
theorem mapStrings_eq_iff (j : Json) : j.mapStrings f = j.mapStrings g ↔ ∀ s ∈ j.strings, f s = g s := by
  induction j using Json.induction with
  | object members ih =>
    rw [mapStrings, mapStrings, object.injEq, mapMembers_eq, mapMembers_eq, List.map_inj_left, strings]
    simp only [mem_stringsOfMembers, Prod.mk.injEq, true_and]
    constructor
    · rintro h s ⟨m, hm, hs⟩
      exact (ih m hm).1 (h m hm) s hs
    · exact fun h m hm => (ih m hm).2 fun s hs => h s ⟨m, hm, hs⟩
  | array items ih =>
    rw [mapStrings, mapStrings, array.injEq, mapItems_eq, mapItems_eq, List.map_inj_left, strings]
    simp only [mem_stringsOfItems]
    constructor
    · rintro h s ⟨c, hc, hs⟩
      exact (ih c hc).1 (h c hc) s hs
    · exact fun h c hc => (ih c hc).2 fun s hs => h s ⟨c, hc, hs⟩
  | leaf j hleaf =>
    cases j with
    | object members => cases hleaf
    | array items => cases hleaf
    | _ => simp [mapStrings, strings]

/-- changing the leaves twice -/
theorem mapStrings_mapStrings (j : Json) : (j.mapStrings f).mapStrings g = j.mapStrings (g ∘ f) := by
  induction j using Json.induction with
  | object members ih =>
    simp only [mapStrings, mapMembers_eq, List.map_map, object.injEq]
    exact List.map_congr_left fun m hm => by rw [Function.comp_apply, ih m hm]
  | array items ih =>
    simp only [mapStrings, mapItems_eq, List.map_map, array.injEq]
    exact List.map_congr_left fun c hc => by rw [Function.comp_apply, ih c hc]
  | leaf j hleaf =>
    cases j with
    | object members => cases hleaf
    | array items => cases hleaf
    | _ => simp [mapStrings]

end Strings

/-- the document without its texts: keys, other leaves and structure -/
def shape (j : Json) : Json := j.mapStrings fun _ => ""

theorem shape_mapStrings (f : String → String) (j : Json) : (j.mapStrings f).shape = j.shape :=
  mapStrings_mapStrings f (fun _ => "") j

end RustDataProcessing.Json
