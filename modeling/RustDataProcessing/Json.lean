/-
JSON documents as the program sees them (`serde_json::Value`): an object is a map, so its keys are distinct, and a
number is an unsigned integer, a negative integer or a double.
-/
import Mathlib.Tactic
import RustDataProcessing.Lib.Binary64

namespace RustDataProcessing

/-- `serde_json::Number` -/
inductive JsonNumber where
  | posInt (n : UInt64)
  | negInt (n : Int64)
  | float (x : Binary64)
deriving DecidableEq, Repr

inductive Json where
  | null
  | bool (b : Bool)
  | number (n : JsonNumber)
  | string (s : String)
  | array (items : List Json)
  | object (members : List (String × Json))
deriving Repr

namespace Json

def isNull : Json → Bool
  | .null => true
  | _ => false

def asStr : Json → Option String
  | .string s => some s
  | _ => none

def asBool : Json → Option Bool
  | .bool b => some b
  | _ => none

def asI64 : Json → Option Int64
  | .number (.posInt n) => if n.toNat < 2 ^ 63 then some (Int64.ofNat n.toNat) else none
  | .number (.negInt n) => some n
  | _ => none

def asU64 : Json → Option UInt64
  | .number (.posInt n) => some n
  | _ => none

def asF64 : Json → Option Binary64
  | .number (.posInt n) => some (.ofInt n.toNat)
  | .number (.negInt n) => some (.ofInt n.toInt)
  | .number (.float x) => some x
  | _ => none

def asObject : Json → Option (List (String × Json))
  | .object members => some members
  | _ => none

/-- `Map::get` -/
def get (members : List (String × Json)) (key : String) : Option Json := members.lookup key

/-! ## Kinds of values -/

/-- an integer of the `i64` range -/
def isInteger (j : Json) : Bool := j.asI64.isSome

/-- an integer of the `i64` range, or a double -/
def isNumber : Json → Bool
  | .number (.float _) => true
  | j => isInteger j

def isObject : Json → Bool
  | .object _ => true
  | _ => false

/-- the value of a key, if this is an object that has it -/
def member (key : String) (j : Json) : Option Json := j.asObject.bind fun members => get members key

/-- the values of a key in a list of objects -/
def memberValues (key : String) (vs : List Json) : List Json := vs.filterMap (member key)

theorem mem_memberValues {key : String} {vs : List Json} {v : Json} :
    v ∈ memberValues key vs ↔ ∃ j ∈ vs, member key j = some v := List.mem_filterMap

/-- the keys of a list of objects, each once -/
def memberKeys (vs : List Json) : List String := (vs.flatMap fun j => (j.asObject.getD []).map Prod.fst).eraseDups

theorem member_mem_memberKeys {key : String} {vs : List Json} {j v : Json} (hj : j ∈ vs) (h : member key j = some v) :
    key ∈ memberKeys vs := by
  rw [memberKeys, List.mem_eraseDups, List.mem_flatMap]
  obtain ⟨members, hm, hv⟩ := Option.bind_eq_some_iff.1 h
  obtain ⟨l₁, l₂, rfl, -⟩ := List.lookup_eq_some_iff.1 hv
  exact ⟨j, hj, by simp [hm]⟩

theorem sizeOf_member {key : String} {j v : Json} (h : member key j = some v) : sizeOf v < sizeOf j := by
  cases j with
  | object members =>
    obtain ⟨l₁, l₂, rfl, -⟩ := List.lookup_eq_some_iff.1 h
    have hmem : (key, v) ∈ l₁ ++ (key, v) :: l₂ := by simp
    have := List.sizeOf_lt_of_mem hmem
    simp only [Prod.mk.sizeOf_spec] at this
    simp only [object.sizeOf_spec]
    omega
  | _ => cases h

/-- the total size of a list of values -/
noncomputable def totalSize (vs : List Json) : ℕ := (vs.map sizeOf).sum

theorem totalSize_memberValues (key : String) (vs : List Json) :
    totalSize (memberValues key vs) + vs.length ≤ totalSize vs := by
  induction vs with
  | nil => simp [memberValues, totalSize]
  | cons j vs ih =>
    have hpos : 1 ≤ sizeOf j := by cases j <;> simp
    cases hj : member key j with
    | none =>
      simp only [memberValues, totalSize, List.filterMap_cons, hj, List.map_cons, List.sum_cons, List.length_cons] at ih ⊢
      omega
    | some v =>
      have := sizeOf_member hj
      simp only [memberValues, totalSize, List.filterMap_cons, hj, List.map_cons, List.sum_cons, List.length_cons] at ih ⊢
      omega

end Json

end RustDataProcessing
