/-
How the engine reads JSON records into columns, as the program relies on it.

One type is inferred for each key over all records that have it: null, boolean, integer, float or text when the values
are of that kind (nulls aside), a struct when they are objects, member by member. What the engine makes of values of
mixed kinds, of arrays and of integers above the `i64` range is a parameter (`JsonRules`). A key that a record lacks
reads as null.

- `inferType_object`: the type of a column of objects has, for each member, the type of the member's values.
- `read_uniform`: values that all convert to a field's type read as cells that cast to the same values.
-/
import Mathlib.Tactic
import RustDataProcessing.Ingestion.JsonReader

namespace RustDataProcessing.Ingestion

open Polars

/-! ## Rules -/

/-- the type of a column whose values are of mixed kinds, and how a value is read under a type of another kind -/
structure JsonRules where
  mixed : List Json → PType
  coerce : PType → Json → Option AnyValue

namespace JsonRules

variable (R : JsonRules)

/-- a column of nothing but nulls -/
def nullType : PType := .other "null"

/-- are all values null or of a kind? -/
def allOf (kind : Json → Bool) (vs : List Json) : Bool := vs.all fun j => j.isNull || kind j

def inferType (vs : List Json) : PType :=
  if _h : vs.all Json.isNull then nullType
  else if allOf (·.asBool.isSome) vs then .boolean
  else if allOf Json.isInteger vs then .int64
  else if allOf Json.isNumber vs then .float64
  else if allOf (·.asStr.isSome) vs then .string
  else if allOf Json.isObject vs then
    .struct ((Json.memberKeys vs).map fun key => (key, inferType (Json.memberValues key vs)))
  else R.mixed vs
termination_by Json.totalSize vs
decreasing_by
  have hne : 0 < vs.length := List.length_pos_iff.2 (by rintro rfl; exact _h rfl)
  have := Json.totalSize_memberValues key vs
  omega

mutual

/-- a value under its column's type; none when the engine refuses it -/
def readValue : PType → Json → Option AnyValue
  | _, .null => some .null
  | .boolean, .bool b => some (.boolean b)
  | .int64, .number n => match Json.asI64 (.number n) with
    | some k => some (.int64 k)
    | none => R.coerce .int64 (.number n)
  | .float64, .number n => match Json.isNumber (.number n), Json.asF64 (.number n) with
    | true, some x => some (.float64 x)
    | _, _ => R.coerce .float64 (.number n)
  | .string, .string s => some (.string s)
  | .struct fields, .object members => (readMembers fields members).map .struct
  | t, j => R.coerce t j

/-- the members of a struct cell: a key that the object lacks reads as null -/
def readMembers : List (String × PType) → Record → Option (List (String × AnyValue))
  | [], _ => some []
  | (key, t) :: fields, members =>
    let v : Option AnyValue := match Json.get members key with
      | none => some .null
      | some j => readValue t j
    v.bind fun v => (readMembers fields members).map fun rest => (key, v) :: rest

end

/-! ## Structs -/

theorem lookup_map_key {α : Type} (keys : List String) (f : String → α) (key : String) :
    (keys.map fun k => (k, f k)).lookup key = if key ∈ keys then some (f key) else none := by
  induction keys with
  | nil => rfl
  | cons k keys ih =>
    rw [List.map_cons, List.lookup_cons, ih]
    by_cases hk : key = k
    · subst hk; simp
    · simp [hk, beq_false_of_ne hk]

/-- the type of a column of objects -/
theorem inferType_object {vs : List Json} (hne : vs ≠ []) (hobj : ∀ j ∈ vs, j.isObject) :
    R.inferType vs = .struct ((Json.memberKeys vs).map fun key => (key, R.inferType (Json.memberValues key vs))) := by
  obtain ⟨j, hj⟩ := List.exists_mem_of_ne_nil vs hne
  -- an object is of no other kind, so every earlier test fails on it
  have hkind : ∀ kind : Json → Bool, (∀ members, kind (.object members) = false) → allOf kind vs = false := by
    intro kind hk
    rw [allOf, List.all_eq_false]
    refine ⟨j, hj, ?_⟩
    have := hobj j hj
    cases j <;> simp_all [Json.isObject, Json.isNull]
  have hnull : vs.all Json.isNull = false := by
    rw [List.all_eq_false]
    exact ⟨j, hj, by have := hobj j hj; cases j <;> simp_all [Json.isObject, Json.isNull]⟩
  have hall : allOf Json.isObject vs = true := by
    rw [allOf, List.all_eq_true]
    exact fun j hj => by simp [hobj j hj]
  have hbool := hkind (fun j => j.asBool.isSome) fun _ => rfl
  have hint := hkind Json.isInteger fun _ => rfl
  have hnum := hkind Json.isNumber fun _ => rfl
  have hstr := hkind (fun j => j.asStr.isSome) fun _ => rfl
  rw [inferType]
  simp only [hnull, hall, hbool, hint, hnum, hstr, Bool.false_eq_true, dite_false, if_false, if_true]

theorem inferType_member {vs : List Json} (hne : vs ≠ []) (hobj : ∀ j ∈ vs, j.isObject) {key : String} {j v : Json}
    (hj : j ∈ vs) (hv : j.member key = some v) :
    (R.inferType vs).member key = some (R.inferType (Json.memberValues key vs)) := by
  rw [inferType_object R hne hobj, PType.member, PType.members, lookup_map_key, if_pos (Json.member_mem_memberKeys hj hv)]

/-- a member of a struct cell is the member's value, read under the member's type -/
theorem readMembers_lookup {fields : List (String × PType)} {members : Record} {cells : List (String × AnyValue)}
    (h : R.readMembers fields members = some cells) {key : String} {t : PType} (ht : fields.lookup key = some t) {j : Json}
    (hj : Json.get members key = some j) : ∃ v, R.readValue t j = some v ∧ cells.lookup key = some v := by
  induction fields generalizing cells with
  | nil => cases ht
  | cons p fields ih =>
    obtain ⟨k, t'⟩ := p
    rw [readMembers] at h
    obtain ⟨v, hv, h⟩ := Option.bind_eq_some_iff.1 h
    obtain ⟨rest, hrest, rfl⟩ := Option.map_eq_some_iff.1 h
    rw [List.lookup_cons] at ht ⊢
    by_cases hk : key = k
    · subst hk
      rw [beq_self_eq_true] at ht ⊢
      cases ht
      rw [hj] at hv
      exact ⟨v, hv, rfl⟩
    · rw [beq_false_of_ne hk] at ht ⊢
      exact ih hrest ht

theorem readValue_member {t t' : PType} {j j' : Json} {v : AnyValue} (hv : R.readValue t j = some v) {key : String}
    (ht : t.member key = some t') (hj : j.member key = some j') : R.readValue t' j' = some (v.member key) := by
  cases j with
  | object members =>
    cases t with
    | struct fields =>
      rw [readValue] at hv
      obtain ⟨cells, hcells, rfl⟩ := Option.map_eq_some_iff.1 hv
      obtain ⟨w, hw, hlook⟩ := readMembers_lookup R hcells ht hj
      rw [hw, AnyValue.member, hlook]
      rfl
    | _ => cases ht
  | _ => cases hj

/-! ## Columns of one kind -/

@[simp] theorem readValue_null (t : PType) : R.readValue t .null = some .null := by
  cases t <;> simp [readValue]

@[simp] theorem scalarValue_null (E : Engine) (dt : DataType) : scalarValue E dt .null = .null := by
  cases dt <;> rfl

theorem allOf_of_forall {kind : Json → Bool} {vs : List Json} (h : ∀ j ∈ vs, j.isNull ∨ kind j) :
    allOf kind vs = true := by
  rw [allOf, List.all_eq_true]
  exact fun j hj => by simpa using h j hj

theorem allOf_false (kind : Json → Bool) {vs : List Json} {j : Json} (hj : j ∈ vs) (hnull : ¬ j.isNull)
    (hkind : kind j = false) : allOf kind vs = false := by
  rw [allOf, List.all_eq_false]
  exact ⟨j, hj, by simp [hnull, hkind]⟩

theorem all_isNull_false {vs : List Json} {j : Json} (hj : j ∈ vs) (hnull : ¬ j.isNull) :
    vs.all Json.isNull = false := List.all_eq_false.2 ⟨j, hj, hnull⟩

/-- an integer within `i64` is itself as an `i64`, and its own double -/
theorem asI64_facts {n : JsonNumber} {k : Int64} (h : Json.asI64 (.number n) = some k) :
    Json.asF64 (.number n) = some (.ofInt k.toInt) ∧ TextRules.int64OfInt k.toInt = some k := by
  refine ⟨?_, TextRules.int64OfInt_self k⟩
  cases n with
  | posInt m =>
    simp only [Json.asI64] at h
    split_ifs at h with hm
    cases h
    rw [Json.asF64, Int64.toInt_ofNat_of_lt hm]
  | negInt m => cases h; rfl
  | float x => cases h

section Uniform

variable {vs : List Json} {j : Json} (hj : j ∈ vs) (hnull : ¬ j.isNull)
include hj hnull

theorem inferType_boolean (h : ∀ i ∈ vs, i.isNull ∨ i.asBool.isSome) : R.inferType vs = .boolean := by
  have hall := all_isNull_false hj hnull
  have hbool : allOf (fun i => i.asBool.isSome) vs = true := allOf_of_forall h
  rw [inferType]
  simp only [hall, hbool, Bool.false_eq_true, dite_false, if_true]

theorem inferType_integer (h : ∀ i ∈ vs, i.isNull ∨ i.isInteger) : R.inferType vs = .int64 := by
  have hall := all_isNull_false hj hnull
  have hkind := (h j hj).resolve_left hnull
  have hbool := allOf_false (fun i => i.asBool.isSome) hj hnull (by cases j <;> first | rfl | cases hkind)
  have hint : allOf Json.isInteger vs = true := allOf_of_forall h
  rw [inferType]
  simp only [hall, hbool, hint, Bool.false_eq_true, dite_false, if_false, if_true]

/-- numbers: integers when all are, floats otherwise -/
theorem inferType_number (h : ∀ i ∈ vs, i.isNull ∨ i.isNumber) :
    (R.inferType vs = .int64 ∧ ∀ i ∈ vs, i.isNull ∨ i.isInteger) ∨ R.inferType vs = .float64 := by
  by_cases hints : allOf Json.isInteger vs = true
  · have hall : ∀ i ∈ vs, i.isNull ∨ i.isInteger := fun i hi => by simpa using List.all_eq_true.1 hints i hi
    exact Or.inl ⟨inferType_integer R hj hnull hall, hall⟩
  · have hall := all_isNull_false hj hnull
    have hkind := (h j hj).resolve_left hnull
    have hbool := allOf_false (fun i => i.asBool.isSome) hj hnull (by cases j <;> first | rfl | cases hkind)
    have hnum : allOf Json.isNumber vs = true := allOf_of_forall h
    rw [inferType]
    simp only [hall, hbool, hints, hnum, Bool.false_eq_true, dite_false, if_false, if_true, or_true]

theorem inferType_string (h : ∀ i ∈ vs, i.isNull ∨ i.asStr.isSome) : R.inferType vs = .string := by
  have hall := all_isNull_false hj hnull
  have hkind := (h j hj).resolve_left hnull
  have hbool := allOf_false (fun i => i.asBool.isSome) hj hnull (by cases j <;> first | rfl | cases hkind)
  have hint := allOf_false Json.isInteger hj hnull (by cases j <;> first | rfl | cases hkind)
  have hnum := allOf_false Json.isNumber hj hnull (by cases j <;> first | rfl | cases hkind)
  have hstr : allOf (fun i => i.asStr.isSome) vs = true := allOf_of_forall h
  rw [inferType]
  simp only [hall, hbool, hint, hnum, hstr, Bool.false_eq_true, dite_false, if_false, if_true]

end Uniform

/-- **Values of one type keep it**: under the type inferred for their column they read as cells that cast to them -/
theorem read_uniform (E : Engine) (dt : DataType) {vs : List Json} (hvs : ∀ j ∈ vs, Converts dt j)
    (hnumbers : dt = .float64 → ∀ j ∈ vs, j.isNull ∨ j.isNumber) {j : Json} (hj : j ∈ vs) :
    ∃ v, R.readValue (R.inferType vs) j = some v ∧ v.isScalar ∧ scalarValue E dt v = jsonValue dt j := by
  by_cases hnull : j.isNull
  · have hj0 : j = .null := by cases j <;> first | rfl | cases hnull
    subst hj0
    exact ⟨.null, readValue_null R _, rfl, scalarValue_null E dt⟩
  have hkind := (hvs j hj).resolve_left hnull
  rw [jsonValue, if_neg hnull]
  cases dt with
  | bool =>
    rw [inferType_boolean R hj hnull fun i hi => (hvs i hi).imp_right fun h => by simpa [typedJson] using h]
    cases j with
    | bool b => exact ⟨.boolean b, by simp [readValue], rfl, rfl⟩
    | _ => cases hkind
  | utf8 =>
    rw [inferType_string R hj hnull fun i hi => (hvs i hi).imp_right fun h => by simpa [typedJson] using h]
    cases j with
    | string s => exact ⟨.string s, by simp [readValue], rfl, rfl⟩
    | _ => cases hkind
  | int64 =>
    rw [inferType_integer R hj hnull fun i hi => (hvs i hi).imp_right fun h => by
      simpa [typedJson, Json.isInteger] using h]
    cases j with
    | number n =>
      obtain ⟨k, hk⟩ := Option.isSome_iff_exists.1 (show (Json.asI64 (.number n)).isSome by simpa [typedJson] using hkind)
      refine ⟨.int64 k, by simp [readValue, hk], rfl, ?_⟩
      simp [scalarValue, TextRules.int64Of, AnyValue.integer, (asI64_facts hk).2, typedJson, hk]
    | _ => cases hkind
  | float64 =>
    cases j with
    | number n =>
      rcases inferType_number R hj hnull (hnumbers rfl) with ⟨ht, hints⟩ | ht
      · obtain ⟨k, hk⟩ := Option.isSome_iff_exists.1 ((hints _ hj).resolve_left hnull)
        refine ⟨.int64 k, by simp [ht, readValue, hk], rfl, ?_⟩
        simp [scalarValue, TextRules.float64Of, AnyValue.integer, typedJson, (asI64_facts hk).1]
      · have hnum := (hnumbers rfl _ hj).resolve_left hnull
        obtain ⟨x, hx⟩ := Option.isSome_iff_exists.1 (show (Json.asF64 (.number n)).isSome by simpa [typedJson] using hkind)
        refine ⟨.float64 x, by simp [ht, readValue, hnum, hx], rfl, ?_⟩
        simp [scalarValue, TextRules.float64Of, AnyValue.integer, AnyValue.float, typedJson, hx]
    | _ => cases hkind

/-! ## Paths -/

theorem walk_cons (j : Json) (seg : String) (rest : List String) :
    walk j (seg :: rest) = (j.member seg).bind (walk · rest) := by
  cases j <;> rfl

/-- the values at a path -/
def walked (vs : List Json) (segs : List String) : List Json := vs.filterMap (walk · segs)

theorem walked_cons (vs : List Json) (seg : String) (rest : List String) :
    walked vs (seg :: rest) = walked (Json.memberValues seg vs) rest := by
  unfold walked Json.memberValues
  rw [List.filterMap_filterMap]
  exact List.filterMap_congr fun j _ => walk_cons j seg rest

/-- **A path that every value has**: its column is typed by the values at the path, and holds them -/
theorem read_walk {segs : List String} {vs : List Json} (hne : vs ≠ []) (hwalk : ∀ j ∈ vs, (walk j segs).isSome)
    (hread : ∀ j ∈ vs, (R.readValue (R.inferType vs) j).isSome) :
    PType.follow segs (R.inferType vs) = some (R.inferType (walked vs segs)) ∧
      ∀ j ∈ vs, ∀ jv v, walk j segs = some jv → R.readValue (R.inferType vs) j = some v →
        R.readValue (R.inferType (walked vs segs)) jv = some (v.follow segs) := by
  induction segs generalizing vs with
  | nil =>
    have hself : walked vs [] = vs := by simp [walked, walk]
    rw [hself]
    exact ⟨rfl, fun j _ jv v hj hv => by cases hj; exact hv⟩
  | cons seg rest ih =>
    have hmember : ∀ j ∈ vs, ∃ j', j.member seg = some j' ∧ (walk j' rest).isSome := by
      intro j hj
      have h := hwalk j hj
      rw [walk_cons] at h
      obtain ⟨jv, hjv⟩ := Option.isSome_iff_exists.1 h
      obtain ⟨j', hj', hr⟩ := Option.bind_eq_some_iff.1 hjv
      exact ⟨j', hj', by rw [hr]; rfl⟩
    have hobj : ∀ j ∈ vs, j.isObject := by
      intro j hj
      obtain ⟨j', hj', -⟩ := hmember j hj
      cases j <;> first | rfl | cases hj'
    obtain ⟨j₀, hj₀⟩ := List.exists_mem_of_ne_nil vs hne
    obtain ⟨j₀', hj₀', -⟩ := hmember j₀ hj₀
    have ht := inferType_member R hne hobj hj₀ hj₀'
    have hne' : Json.memberValues seg vs ≠ [] := List.ne_nil_of_mem (Json.mem_memberValues.2 ⟨j₀, hj₀, hj₀'⟩)
    have hread' : ∀ j' ∈ Json.memberValues seg vs, (R.readValue (R.inferType (Json.memberValues seg vs)) j').isSome := by
      intro j' hj'
      obtain ⟨j, hj, hm⟩ := Json.mem_memberValues.1 hj'
      obtain ⟨v, hv⟩ := Option.isSome_iff_exists.1 (hread j hj)
      rw [readValue_member R hv ht hm]
      rfl
    have hwalk' : ∀ j' ∈ Json.memberValues seg vs, (walk j' rest).isSome := by
      intro j' hj'
      obtain ⟨j, hj, hm⟩ := Json.mem_memberValues.1 hj'
      obtain ⟨j'', hm', hw⟩ := hmember j hj
      rw [hm] at hm'
      cases hm'
      exact hw
    obtain ⟨htype, hcells⟩ := ih hne' hwalk' hread'
    rw [walked_cons]
    refine ⟨by rw [PType.follow, ht]; exact htype, fun j hj jv v hjv hv => ?_⟩
    rw [walk_cons] at hjv
    obtain ⟨j', hm, hr⟩ := Option.bind_eq_some_iff.1 hjv
    exact hcells j' (Json.mem_memberValues.2 ⟨j, hj, hm⟩) jv _ hr (readValue_member R hv ht hm)

end JsonRules

end RustDataProcessing.Ingestion
