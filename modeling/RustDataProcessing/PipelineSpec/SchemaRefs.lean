/-
Schema references in pipeline templates (`src/pipeline_spec.rs`, `resolve_schema_refs`).

In every object, a key that ends in `_ref` is replaced by the key without the suffix, whose value is the schema the
reference names; then the values are walked, the new ones included. The keys are collected before any is replaced, and a
replacement overwrites a key the object already had.

- `resolve_complete_iff`: when the call returns, no reference is left and no other member is lost exactly when in every
  object no key ends in the suffix twice, and a key that is also there inline has the referenced schema's value.
- `references_left_members_lost`: the two ways it fails.
-/
import Mathlib.Tactic
import RustDataProcessing.Kafka.Load
import RustDataProcessing.PipelineSpec.Placeholders

namespace RustDataProcessing.PipelineSpec

open Polars (IoError)
open Kafka (insertMember)

/-! ## The source -/

/-- the bundle's root, the files, and the readers and the writer of `serde_json` -/
structure PipelineBundle where
  root : String
  readToString : String → Except IoError String
  parseSchema : String → Except String Schema
  parseValue : String → Except String Json
  print : Json → Except String String

namespace PipelineBundle

variable (bundle : PipelineBundle)

/-- `self.root.join(rel)` -/
def path (rel : String) : String :=
  if rel.toList.head? = some '/' ∨ bundle.root = "" then rel
  else if bundle.root.toList.getLast? = some '/' then bundle.root ++ rel
  else bundle.root ++ "/" ++ rel

def loadSchema (rel : String) : IngestionResult Schema := do
  let text ← (bundle.readToString (bundle.path rel)).mapError fun e => .error (.io e)
  (bundle.parseSchema text).mapError fun e => .schemaMismatch s!"schema JSON {bundle.path rel}: {e}"

def loadJsonValue (rel : String) : IngestionResult Json := do
  let text ← (bundle.readToString (bundle.path rel)).mapError fun e => .error (.io e)
  (bundle.parseValue text).mapError fun e => .schemaMismatch s!"JSON {bundle.path rel}: {e}"

end PipelineBundle

def fieldJson (field : Field) : Json :=
  .object [("name", .string field.name), ("data_type", .string field.dataType.debug)]

/-- `serde_json::to_value(&schema)` -/
def schemaJson (schema : Schema) : Json := .object [("fields", .array (schema.fields.map fieldJson))]

/-- `k.ends_with("_ref")` -/
def isRef (key : String) : Bool := ['_', 'r', 'e', 'f'].isSuffixOf key.toList

/-- `old_key.strip_suffix("_ref")` -/
def stripRef (key : String) : String := String.ofList (key.toList.take (key.toList.length - 4))

/-- `map.remove(key)`; where the other entries go does not matter below -/
def removeMember (map : List (String × Json)) (key : String) : List (String × Json) := map.filter fun m => m.1 ≠ key

/-- one turn of the loop over `ref_keys` -/
def expandRef (bundle : PipelineBundle) (map : List (String × Json)) (oldKey : String) :
    IngestionResult (List (String × Json)) :=
  match Json.get map oldKey with
  | none => .error (.schemaMismatch s!"missing key {oldKey} while expanding schema refs")
  | some rel => match rel.asStr with
    | none => .error (.schemaMismatch s!"{oldKey} must be a string path relative to the bundle root")
    | some relStr => do
      let schema ← bundle.loadSchema relStr
      pure (insertMember (removeMember map oldKey) (stripRef oldKey) (schemaJson schema))

def refKeys (map : List (String × Json)) : List String := (map.map Prod.fst).filter isRef

/-- one child of an object -/
def resolveMember (resolve : Json → IngestionResult Json) (m : String × Json) : IngestionResult (String × Json) := do
  let child ← resolve m.2
  pure (m.1, child)

/-- the call, at most `fuel` calls deep -/
def resolveFrom (bundle : PipelineBundle) : ℕ → Json → IngestionResult Json
  | 0, _ => .error .panic
  | fuel + 1, .object map => do
    let map ← (refKeys map).foldlM (expandRef bundle) map
    let map ← map.mapM (resolveMember (resolveFrom bundle fuel))
    pure (.object map)
  | fuel + 1, .array items => do
    let items ← items.mapM (resolveFrom bundle fuel)
    pure (.array items)
  | _ + 1, value => .ok value

/-- enough for the document and the schemas that are put into it (`resolveFrom_enough`) -/
def resolveSchemaRefs (bundle : PipelineBundle) (value : Json) : IngestionResult Json :=
  resolveFrom bundle (value.depth + 4) value

def resolvePipelineJson (bundle : PipelineBundle) (pipelineRel : String) (bindings : List (String × String)) :
    IngestionResult String := do
  let doc ← bundle.loadJsonValue pipelineRel
  let doc ← resolveSchemaRefs bundle doc
  (bundle.print (bindPlaceholders bindings doc)).mapError
    fun e => .schemaMismatch s!"serialize resolved pipeline: {e}"

def resolvePayloadJson (bundle : PipelineBundle) (payloadRel : String) (bindings : List (String × String)) :
    IngestionResult String := do
  let doc ← bundle.loadJsonValue payloadRel
  let doc ← resolveSchemaRefs bundle doc
  (bundle.print (bindPlaceholders bindings doc)).mapError
    fun e => .schemaMismatch s!"serialize resolved payload: {e}"

/-! ## One object -/

def NoRefs (members : List (String × Json)) : Prop := ∀ m ∈ members, isRef m.1 = false

/-- the keys of an object are distinct -/
def Distinct (members : List (String × Json)) : Prop := (members.map Prod.fst).Nodup

theorem isRef_iff {key : String} : isRef key = true ↔ ∃ l, key.toList = l ++ ['_', 'r', 'e', 'f'] := by
  rw [isRef, List.isSuffixOf_iff_suffix]
  exact ⟨fun ⟨l, h⟩ => ⟨l, h.symm⟩, fun ⟨l, h⟩ => ⟨l, h.symm⟩⟩

theorem stripRef_toList {key : String} {l : List Char} (h : key.toList = l ++ ['_', 'r', 'e', 'f']) :
    (stripRef key).toList = l := by
  rw [stripRef, String.toList_ofList, h]
  simp

theorem stripRef_inj {key key' : String} (h : isRef key = true) (h' : isRef key' = true)
    (heq : stripRef key = stripRef key') : key = key' := by
  obtain ⟨l, hl⟩ := isRef_iff.1 h
  obtain ⟨l', hl'⟩ := isRef_iff.1 h'
  have hlist := congrArg String.toList heq
  rw [stripRef_toList hl, stripRef_toList hl'] at hlist
  exact String.toList_inj.1 (by rw [hl, hl', hlist])

theorem get_eq_some_iff {map : List (String × Json)} (hdistinct : Distinct map) {key : String} {v : Json} :
    Json.get map key = some v ↔ (key, v) ∈ map := by
  constructor
  · intro h
    obtain ⟨s, t, rfl, -⟩ := List.lookup_eq_some_iff.1 h
    simp
  · intro h
    obtain ⟨s, t, rfl⟩ := List.append_of_mem h
    rw [Distinct, List.map_append, List.map_cons, List.nodup_append'] at hdistinct
    exact List.lookup_eq_some_iff.2 ⟨s, t, rfl, fun c hc => bne_iff_ne.2 fun heq =>
      hdistinct.2.2 (List.mem_map_of_mem hc) (heq ▸ List.mem_cons_self)⟩

theorem mem_removeMember {map : List (String × Json)} {old q : String} {v : Json} :
    (q, v) ∈ removeMember map old ↔ q ≠ old ∧ (q, v) ∈ map := by
  rw [removeMember, List.mem_filter, decide_eq_true_eq, and_comm]

theorem insertMember_old {map : List (String × Json)} {new : String} (h : new ∈ map.map Prod.fst) (s : Json) :
    insertMember map new s = map.map fun m => if m.1 = new then (new, s) else m := by
  obtain ⟨m, hm, heq⟩ := List.mem_map.1 h
  rw [insertMember, if_pos (List.any_eq_true.2 ⟨m, hm, decide_eq_true heq⟩)]

/-- the members after one turn -/
theorem mem_insertMember {map : List (String × Json)} {new : String} {s : Json} {q : String} {v : Json} :
    (q, v) ∈ insertMember map new s ↔ (q = new ∧ v = s) ∨ (q ≠ new ∧ (q, v) ∈ map) := by
  by_cases hnew : new ∈ map.map Prod.fst
  · rw [insertMember_old hnew, List.mem_map]
    constructor
    · rintro ⟨m, hm, heq⟩
      split_ifs at heq with hkey
      · exact .inl ⟨(Prod.mk.inj heq).1.symm, (Prod.mk.inj heq).2.symm⟩
      · subst heq
        exact .inr ⟨hkey, hm⟩
    · rintro (⟨rfl, rfl⟩ | ⟨hne, hm⟩)
      · obtain ⟨m, hm, heq⟩ := List.mem_map.1 hnew
        exact ⟨m, hm, if_pos heq⟩
      · exact ⟨_, hm, if_neg hne⟩
  · rw [Kafka.insertMember_new hnew, List.mem_append, List.mem_singleton, Prod.mk.injEq]
    constructor
    · rintro (hm | h)
      · exact .inr ⟨fun heq => hnew (heq ▸ List.mem_map_of_mem hm), hm⟩
      · exact .inl h
    · exact fun h => h.symm.imp And.right id

theorem insertMember_distinct {map : List (String × Json)} (h : Distinct map) (new : String) (s : Json) :
    Distinct (insertMember map new s) := by
  by_cases hnew : new ∈ map.map Prod.fst
  · have hkeys : (map.map fun m => if m.1 = new then (new, s) else m).map Prod.fst = map.map Prod.fst := by
      rw [List.map_map]
      refine List.map_congr_left fun m _ => ?_
      rw [Function.comp_apply]
      split_ifs with heq
      · exact heq.symm
      · rfl
    rw [insertMember_old hnew, Distinct, hkeys]
    exact h
  · rw [Kafka.insertMember_new hnew, Distinct, List.map_append, List.nodup_append']
    exact ⟨h, List.nodup_singleton _, List.disjoint_singleton.2 hnew⟩

theorem removeMember_distinct {map : List (String × Json)} (h : Distinct map) (old : String) :
    Distinct (removeMember map old) := h.sublist (List.filter_sublist.map _)

/-- a key has one value -/
theorem Distinct.eq {map : List (String × Json)} (h : Distinct map) {q : String} {v w : Json} (hv : (q, v) ∈ map)
    (hw : (q, w) ∈ map) : v = w :=
  Option.some.inj (((get_eq_some_iff h).2 hv).symm.trans ((get_eq_some_iff h).2 hw))

/-- what one turn does when it returns -/
theorem expandRef_eq_ok {bundle : PipelineBundle} {map out : List (String × Json)} {old : String}
    (hdistinct : Distinct map) (h : expandRef bundle map old = .ok out) :
    ∃ rel schema, (old, .string rel) ∈ map ∧ bundle.loadSchema rel = .ok schema ∧
      out = insertMember (removeMember map old) (stripRef old) (schemaJson schema) := by
  rw [expandRef] at h
  split at h
  · cases h
  · rename_i rel hget
    split at h
    · cases h
    · rename_i relStr hstr
      obtain ⟨schema, hload, h⟩ := Traverse.bind_eq_ok h
      have hrel : rel = .string relStr := by
        cases rel <;> simp [Json.asStr] at hstr
        rw [hstr]
      exact ⟨relStr, schema, (get_eq_some_iff hdistinct).1 (hrel ▸ hget), hload, (Except.ok.inj h).symm⟩

/-- the members after the turns for `keys` -/
structure Expanded (bundle : PipelineBundle) (keys : List String) (map out : List (String × Json)) : Prop where
  distinct : Distinct out
  schema : ∀ k ∈ keys, ∃ rel schema, (k, .string rel) ∈ map ∧ bundle.loadSchema rel = .ok schema ∧
    (stripRef k, schemaJson schema) ∈ out
  other : ∀ q v, (∀ k ∈ keys, q ≠ stripRef k) → ((q, v) ∈ out ↔ q ∉ keys ∧ (q, v) ∈ map)

theorem expanded {bundle : PipelineBundle} {keys : List String} (hrefs : ∀ k ∈ keys, isRef k = true) (hnodup : keys.Nodup)
    {map out : List (String × Json)} (hdistinct : Distinct map) (h : keys.foldlM (expandRef bundle) map = .ok out) :
    Expanded bundle keys map out := by
  induction keys generalizing map with
  | nil =>
    cases h
    exact ⟨hdistinct, by simp, by simp⟩
  | cons k keys ih =>
    obtain ⟨hk, hrefs⟩ := List.forall_mem_cons.1 hrefs
    obtain ⟨hnew, hnodup⟩ := List.nodup_cons.1 hnodup
    rw [List.foldlM_cons] at h
    obtain ⟨mid, hmid, h⟩ := Traverse.bind_eq_ok h
    obtain ⟨rel, schema, hrel, hload, rfl⟩ := expandRef_eq_ok hdistinct hmid
    have htail := ih hrefs hnodup (insertMember_distinct (removeMember_distinct hdistinct k) _ _) h
    have hinserted : (stripRef k, schemaJson schema) ∈ insertMember (removeMember map k) (stripRef k) (schemaJson schema) :=
      mem_insertMember.2 (.inl ⟨rfl, rfl⟩)
    have hstripped : ∀ k' ∈ keys, stripRef k ≠ stripRef k' := fun k' hk' heq =>
      hnew (stripRef_inj hk (hrefs k' hk') heq ▸ hk')
    -- a later reference is a text, and what has been put in is an object
    have hnotkey : stripRef k ∉ keys := by
      intro hmem
      obtain ⟨rel', schema', hrel', -, -⟩ := htail.schema _ hmem
      have heq := (insertMember_distinct (removeMember_distinct hdistinct k) _ _).eq hinserted hrel'
      cases heq
    refine ⟨htail.distinct, List.forall_mem_cons.2 ⟨⟨rel, schema, hrel, hload, ?_⟩, fun k' hk' => ?_⟩, fun q v hq => ?_⟩
    · exact (htail.other _ _ hstripped).2 ⟨hnotkey, hinserted⟩
    · obtain ⟨rel', schema', hrel', hload', hout⟩ := htail.schema k' hk'
      rcases mem_insertMember.1 hrel' with ⟨-, heq⟩ | ⟨-, hmem⟩
      · cases heq
      · exact ⟨rel', schema', (mem_removeMember.1 hmem).2, hload', hout⟩
    · obtain ⟨hqk, hq⟩ := List.forall_mem_cons.1 hq
      rw [htail.other q v hq, mem_insertMember, mem_removeMember, List.mem_cons, not_or]
      constructor
      · rintro ⟨hkeys, ⟨heq, -⟩ | ⟨-, hne, hmem⟩⟩
        · exact absurd heq hqk
        · exact ⟨⟨hne, hkeys⟩, hmem⟩
      · rintro ⟨⟨hne, hkeys⟩, hmem⟩
        exact ⟨hkeys, .inr ⟨hqk, hne, hmem⟩⟩

theorem mem_refKeys {map : List (String × Json)} {key : String} :
    key ∈ refKeys map ↔ isRef key = true ∧ ∃ v, (key, v) ∈ map := by
  rw [refKeys, List.mem_filter, and_comm, List.mem_map]
  exact and_congr_right fun _ => ⟨fun ⟨m, hm, heq⟩ => ⟨m.2, heq ▸ hm⟩, fun ⟨v, hv⟩ => ⟨_, hv, rfl⟩⟩

theorem expanded_refKeys {bundle : PipelineBundle} {map out : List (String × Json)} (hdistinct : Distinct map)
    (h : (refKeys map).foldlM (expandRef bundle) map = .ok out) : Expanded bundle (refKeys map) map out :=
  expanded (fun _ hk => (mem_refKeys.1 hk).1) (hdistinct.filter _) hdistinct h

/-- a member is one of the object's own or a schema that a reference names -/
theorem Expanded.mem {bundle : PipelineBundle} {map out : List (String × Json)} (h : Expanded bundle (refKeys map) map out)
    {q : String} {v : Json} (hv : (q, v) ∈ out) :
    (isRef q = false ∧ (q, v) ∈ map) ∨ ∃ k ∈ refKeys map, q = stripRef k ∧ ∃ schema, v = schemaJson schema := by
  by_cases hq : ∃ k ∈ refKeys map, q = stripRef k
  · obtain ⟨k, hk, rfl⟩ := hq
    obtain ⟨rel, schema, -, -, hout⟩ := h.schema k hk
    exact .inr ⟨k, hk, rfl, schema, h.distinct.eq hv hout⟩
  · push Not at hq
    obtain ⟨hkey, hmap⟩ := (h.other q v hq).1 hv
    refine .inl ⟨Bool.eq_false_iff.2 fun href => hkey (mem_refKeys.2 ⟨href, v, hmap⟩), hmap⟩

/-! ## A whole document -/

theorem NoRefs.refKeys_eq {map : List (String × Json)} (h : NoRefs map) : refKeys map = [] := by
  rw [refKeys, List.filter_eq_nil_iff]
  intro key hkey
  obtain ⟨m, hm, rfl⟩ := List.mem_map.1 hkey
  rw [h m hm]
  exact Bool.false_ne_true

theorem mapM_self {α : Type} {f : α → IngestionResult α} {l : List α} (h : ∀ x ∈ l, f x = .ok x) : l.mapM f = .ok l :=
  Traverse.mapM_ok (List.forall₂_same.2 h)

/-- a document without references stays as it is -/
theorem resolveFrom_noRefs {bundle : PipelineBundle} {j : Json} (h : j.Everywhere NoRefs) :
    ∀ fuel, j.depth < fuel → resolveFrom bundle fuel j = .ok j := by
  induction j using Json.induction with
  | object members ih =>
    intro fuel hfuel
    obtain ⟨hnone, hbelow⟩ := Json.Everywhere.object_iff.1 h
    obtain ⟨fuel, rfl⟩ := Nat.exists_eq_succ_of_ne_zero (Nat.ne_zero_of_lt hfuel)
    have hmembers : members.mapM (resolveMember (resolveFrom bundle fuel)) = .ok members := by
      refine mapM_self fun m hm => ?_
      have := Json.depth_member hm
      rw [resolveMember, ih m hm (hbelow m hm) fuel (by omega)]
      rfl
    rw [resolveFrom, hnone.refKeys_eq, List.foldlM_nil]
    change (members.mapM (resolveMember (resolveFrom bundle fuel)) >>= _) = _
    rw [hmembers]
    rfl
  | array items ih =>
    intro fuel hfuel
    have hbelow := Json.Everywhere.array_iff.1 h
    obtain ⟨fuel, rfl⟩ := Nat.exists_eq_succ_of_ne_zero (Nat.ne_zero_of_lt hfuel)
    have hitems : items.mapM (resolveFrom bundle fuel) = .ok items := by
      refine mapM_self fun c hc => ?_
      have := Json.depth_item hc
      exact ih c hc (hbelow c hc) fuel (by omega)
    rw [resolveFrom, hitems]
    rfl
  | leaf j hleaf =>
    intro fuel hfuel
    obtain ⟨fuel, rfl⟩ := Nat.exists_eq_succ_of_ne_zero (Nat.ne_zero_of_lt hfuel)
    cases j <;> first | rfl | cases hleaf

theorem schemaJson_noRefs (schema : Schema) : (schemaJson schema).Everywhere NoRefs := by
  have hfields : isRef "fields" = false ∧ isRef "name" = false ∧ isRef "data_type" = false := by decide
  refine .object (List.forall_mem_singleton.2 hfields.1) (List.forall_mem_singleton.2 (.array fun c hc => ?_))
  obtain ⟨field, -, rfl⟩ := List.mem_map.1 hc
  refine .object ?_ ?_
  · exact List.forall_mem_cons.2 ⟨hfields.2.1, List.forall_mem_singleton.2 hfields.2.2⟩
  · exact List.forall_mem_cons.2 ⟨.leaf rfl, List.forall_mem_singleton.2 (.leaf rfl)⟩

theorem depth_schemaJson (schema : Schema) : (schemaJson schema).depth ≤ 3 := by
  have hitems : ∀ fields : List Field, Json.depthItems (fields.map fieldJson) ≤ 1 := by
    intro fields
    induction fields with
    | nil => exact Nat.zero_le 1
    | cons field fields ih =>
      rw [List.map_cons, Json.depthItems]
      exact max_le le_rfl ih
  have := hitems schema.fields
  simp only [schemaJson, Json.depth, Json.depthMembers]
  omega

/-- more fuel changes nothing -/
theorem resolveFrom_enough {bundle : PipelineBundle} {j : Json} (h : j.Everywhere Distinct) :
    ∀ fuel, j.depth + 4 ≤ fuel → resolveFrom bundle fuel j = resolveSchemaRefs bundle j := by
  suffices hsame : ∀ fuel fuel', j.depth + 4 ≤ fuel → j.depth + 4 ≤ fuel' →
      resolveFrom bundle fuel j = resolveFrom bundle fuel' j from fun fuel hfuel => hsame fuel _ hfuel le_rfl
  induction j using Json.induction with
  | object members ih =>
    intro fuel fuel' hfuel hfuel'
    obtain ⟨hdistinct, hbelow⟩ := Json.Everywhere.object_iff.1 h
    obtain ⟨fuel, rfl⟩ := Nat.exists_eq_succ_of_ne_zero (Nat.ne_zero_of_lt hfuel)
    obtain ⟨fuel', rfl⟩ := Nat.exists_eq_succ_of_ne_zero (Nat.ne_zero_of_lt hfuel')
    rw [resolveFrom, resolveFrom]
    cases hexpand : (refKeys members).foldlM (expandRef bundle) members with
    | error e => rfl
    | ok out =>
      have hdepth : 1 ≤ (Json.object members).depth := Nat.succ_pos _
      have hmembers : out.mapM (resolveMember (resolveFrom bundle fuel)) =
          out.mapM (resolveMember (resolveFrom bundle fuel')) := by
        refine Traverse.mapM_congr fun m hm => ?_
        rw [resolveMember, resolveMember]
        rcases (expanded_refKeys hdistinct hexpand).mem hm with ⟨-, hown⟩ | ⟨-, -, -, schema, heq⟩
        · have : m.2.depth < _ := Json.depth_member hown
          rw [ih m hown (hbelow m hown) fuel fuel' (by omega) (by omega)]
        · have := depth_schemaJson schema
          rw [heq, resolveFrom_noRefs (schemaJson_noRefs schema) fuel (by omega),
            resolveFrom_noRefs (schemaJson_noRefs schema) fuel' (by omega)]
      change (out.mapM (resolveMember (resolveFrom bundle fuel)) >>= _) =
        (out.mapM (resolveMember (resolveFrom bundle fuel')) >>= _)
      rw [hmembers]
  | array items ih =>
    intro fuel fuel' hfuel hfuel'
    have hbelow := Json.Everywhere.array_iff.1 h
    obtain ⟨fuel, rfl⟩ := Nat.exists_eq_succ_of_ne_zero (Nat.ne_zero_of_lt hfuel)
    obtain ⟨fuel', rfl⟩ := Nat.exists_eq_succ_of_ne_zero (Nat.ne_zero_of_lt hfuel')
    have hitems : items.mapM (resolveFrom bundle fuel) = items.mapM (resolveFrom bundle fuel') := by
      refine Traverse.mapM_congr fun c hc => ?_
      have := Json.depth_item hc
      exact ih c hc (hbelow c hc) fuel fuel' (by omega) (by omega)
    rw [resolveFrom, resolveFrom, hitems]
  | leaf j hleaf =>
    intro fuel fuel' hfuel hfuel'
    obtain ⟨fuel, rfl⟩ := Nat.exists_eq_succ_of_ne_zero (Nat.ne_zero_of_lt hfuel)
    obtain ⟨fuel', rfl⟩ := Nat.exists_eq_succ_of_ne_zero (Nat.ne_zero_of_lt hfuel')
    cases j <;> first | rfl | cases hleaf

section Calls

variable {bundle : PipelineBundle}

/-- the call on an object that returns -/
theorem resolve_object {members : List (String × Json)} (h : (Json.object members).Everywhere Distinct) {result : Json}
    (hresult : resolveSchemaRefs bundle (.object members) = .ok result) :
    ∃ out cells, Expanded bundle (refKeys members) members out ∧ (refKeys members = [] → out = members) ∧
      List.Forall₂ (fun m c => m.1 = c.1 ∧ resolveSchemaRefs bundle m.2 = .ok c.2) out cells ∧ result = .object cells := by
  obtain ⟨hdistinct, hbelow⟩ := Json.Everywhere.object_iff.1 h
  rw [resolveSchemaRefs, resolveFrom] at hresult
  obtain ⟨out, hout, hresult⟩ := Traverse.bind_eq_ok hresult
  obtain ⟨cells, hcells, hresult⟩ := Traverse.bind_eq_ok hresult
  have hexpanded := expanded_refKeys hdistinct hout
  refine ⟨out, cells, hexpanded, fun hnone => ?_, ?_, (Except.ok.inj hresult).symm⟩
  · rw [hnone] at hout
    exact (Except.ok.inj hout).symm
  have hcalls := Traverse.mapM_eq_ok_iff.1 hcells
  refine (List.forall₂_iff_zip.2 ⟨hcalls.length_eq, fun {m c} hmc => ?_⟩)
  obtain ⟨child, hchild, hpair⟩ := Traverse.bind_eq_ok ((List.forall₂_iff_zip.1 hcalls).2 hmc)
  cases hpair
  refine ⟨rfl, ?_⟩
  rcases hexpanded.mem (List.of_mem_zip hmc).1 with ⟨-, hown⟩ | ⟨-, -, -, schema, heq⟩
  · have : m.2.depth < _ := Json.depth_member hown
    rw [← resolveFrom_enough (hbelow _ hown) ((Json.object members).depth + 3) (by change m.2.depth + 4 ≤ _; omega)]
    exact hchild
  · have := depth_schemaJson schema
    have : 1 ≤ (Json.object members).depth := Nat.succ_pos _
    rw [heq, resolveFrom_noRefs (schemaJson_noRefs schema) _ (by omega)] at hchild
    rw [heq, resolveSchemaRefs, resolveFrom_noRefs (schemaJson_noRefs schema) _ (by omega)]
    exact hchild

theorem resolve_array {items : List Json} (h : (Json.array items).Everywhere Distinct) {result : Json}
    (hresult : resolveSchemaRefs bundle (.array items) = .ok result) :
    ∃ cells, List.Forall₂ (fun i c => resolveSchemaRefs bundle i = .ok c) items cells ∧ result = .array cells := by
  rw [resolveSchemaRefs, resolveFrom] at hresult
  obtain ⟨cells, hcells, hresult⟩ := Traverse.bind_eq_ok hresult
  refine ⟨cells, Traverse.mapM_eq_ok_iff.1 ?_, (Except.ok.inj hresult).symm⟩
  rw [← hcells]
  refine Traverse.mapM_congr fun c hc => ?_
  have := Json.depth_item hc
  exact (resolveFrom_enough (Json.Everywhere.array_iff.1 h c hc) _ (by omega)).symm

theorem resolve_noRefs {j : Json} (h : j.Everywhere NoRefs) : resolveSchemaRefs bundle j = .ok j :=
  resolveFrom_noRefs h _ (by omega)

theorem resolve_leaf {j result : Json} (h : j.isLeaf = true) (hresult : resolveSchemaRefs bundle j = .ok result) :
    result = j := Except.ok.inj (hresult.symm.trans (resolve_noRefs (.leaf h)))

theorem resolve_schemaJson {schema : Schema} {result : Json}
    (hresult : resolveSchemaRefs bundle (schemaJson schema) = .ok result) : result = schemaJson schema :=
  Except.ok.inj (hresult.symm.trans (resolve_noRefs (schemaJson_noRefs schema)))

/-- no member is an object -/
def Flat (members : List (String × Json)) : Prop := ∀ m ∈ members, m.2.isObject = false

theorem schemaJson_flat (schema : Schema) : (schemaJson schema).Everywhere Flat := by
  refine .object (List.forall_mem_singleton.2 rfl) (List.forall_mem_singleton.2 (.array fun c hc => ?_))
  obtain ⟨field, -, rfl⟩ := List.mem_map.1 hc
  refine .object ?_ ?_
  · exact List.forall_mem_cons.2 ⟨rfl, List.forall_mem_singleton.2 rfl⟩
  · exact List.forall_mem_cons.2 ⟨.leaf rfl, List.forall_mem_singleton.2 (.leaf rfl)⟩

/-- a resolved reference is a member that is an object, so where there is none nothing was resolved -/
theorem eq_of_flat {j result : Json} (h : j.Everywhere Distinct) (hflat : result.Everywhere Flat)
    (hresult : resolveSchemaRefs bundle j = .ok result) : j = result := by
  induction j using Json.induction generalizing result with
  | object members ih =>
    obtain ⟨out, cells, hexpanded, hsame, hcells, rfl⟩ := resolve_object h hresult
    obtain ⟨hdistinct, hbelow⟩ := Json.Everywhere.object_iff.1 h
    obtain ⟨hnone, hchildren⟩ := Json.Everywhere.object_iff.1 hflat
    have hrefs : refKeys members = [] := by
      refine List.eq_nil_iff_forall_not_mem.2 fun k hk => ?_
      obtain ⟨rel, schema, -, -, hout⟩ := hexpanded.schema k hk
      obtain ⟨c, hc, -, hresolve⟩ := Traverse.exists_of_mem hcells hout
      have := hnone c hc
      rw [resolve_schemaJson hresolve] at this
      cases this
    rw [hsame hrefs] at hcells
    refine congrArg Json.object (List.forall₂_eq_eq_eq ▸ List.forall₂_iff_zip.2 ⟨hcells.length_eq, fun {m c} hmc => ?_⟩)
    obtain ⟨hkey, hresolve⟩ := (List.forall₂_iff_zip.1 hcells).2 hmc
    obtain ⟨hm, hc⟩ := List.of_mem_zip hmc
    exact Prod.ext hkey (ih m hm (hbelow m hm) (hchildren c hc) hresolve)
  | array items ih =>
    obtain ⟨cells, hcells, rfl⟩ := resolve_array h hresult
    have hchildren := Json.Everywhere.array_iff.1 hflat
    refine congrArg Json.array (List.forall₂_eq_eq_eq ▸ List.forall₂_iff_zip.2 ⟨hcells.length_eq, fun {i c} hic => ?_⟩)
    obtain ⟨hi, hc⟩ := List.of_mem_zip hic
    exact ih i hi (Json.Everywhere.array_iff.1 h i hi) (hchildren c hc) ((List.forall₂_iff_zip.1 hcells).2 hic)
  | leaf j hleaf => exact (resolve_leaf hleaf hresult).symm

/-- the cells of the result are the resolved members, under the same keys -/
theorem mem_cells {out cells : List (String × Json)}
    (h : List.Forall₂ (fun m c => m.1 = c.1 ∧ resolveSchemaRefs bundle m.2 = .ok c.2) out cells) {q : String} {c : Json} :
    (q, c) ∈ cells ↔ ∃ v, (q, v) ∈ out ∧ resolveSchemaRefs bundle v = .ok c := by
  induction h with
  | nil => simp
  | @cons m d out cells hmd _ ih =>
    obtain ⟨key, v⟩ := m
    obtain ⟨key', d⟩ := d
    obtain ⟨rfl, hv⟩ : key = key' ∧ resolveSchemaRefs bundle v = .ok d := hmd
    simp only [List.mem_cons, ih, Prod.mk.injEq]
    constructor
    · rintro (⟨rfl, rfl⟩ | ⟨w, hw, hc⟩)
      · exact ⟨v, .inl ⟨rfl, rfl⟩, hv⟩
      · exact ⟨w, .inr hw, hc⟩
    · rintro ⟨w, ⟨rfl, rfl⟩ | hw, hc⟩
      · exact .inl ⟨rfl, Except.ok.inj (hc.symm.trans hv)⟩
      · exact .inr ⟨w, hw, hc⟩

theorem cells_distinct {out cells : List (String × Json)} (hout : Distinct out)
    (h : List.Forall₂ (fun m c => m.1 = c.1 ∧ resolveSchemaRefs bundle m.2 = .ok c.2) out cells) : Distinct cells := by
  have hkeys : cells.map Prod.fst = out.map Prod.fst := by
    clear hout
    induction h with
    | nil => rfl
    | cons hmd _ ih => rw [List.map_cons, List.map_cons, ih, hmd.1]
  rw [Distinct, hkeys]
  exact hout

end Calls

/-! ## Nothing is lost -/

/-- every member that is not a reference is still there, with its own references resolved -/
inductive Kept (bundle : PipelineBundle) : Json → Json → Prop where
  | object {members cells : List (String × Json)}
    (there : ∀ m ∈ members, isRef m.1 = false → ∃ c, (m.1, c) ∈ cells ∧ resolveSchemaRefs bundle m.2 = .ok c)
    (below : ∀ m ∈ members, isRef m.1 = false → ∀ c, (m.1, c) ∈ cells → Kept bundle m.2 c) :
    Kept bundle (.object members) (.object cells)
  | array {items cells : List Json} (length : items.length = cells.length)
    (below : ∀ p ∈ items.zip cells, Kept bundle p.1 p.2) : Kept bundle (.array items) (.array cells)
  | leaf {j : Json} (h : j.isLeaf = true) : Kept bundle j j

structure ResolvesCompletely (bundle : PipelineBundle) (doc result : Json) : Prop where
  noRefs : result.Everywhere NoRefs
  kept : Kept bundle doc result

/-- no key ends in the suffix twice, and where a key is there inline too, it has the value of the schema referenced -/
def Compatible (bundle : PipelineBundle) (members : List (String × Json)) : Prop :=
  ∀ m ∈ members, isRef m.1 = true → isRef (stripRef m.1) = false ∧
    ∀ c, (stripRef m.1, c) ∈ members →
      ∃ rel schema, m.2 = .string rel ∧ bundle.loadSchema rel = .ok schema ∧ c = schemaJson schema

section Calls

variable {bundle : PipelineBundle}

/-- one object, whose children are settled -/
theorem resolve_members_iff {members out cells : List (String × Json)} (hdistinct : Distinct members)
    (hbelow : ∀ m ∈ members, m.2.Everywhere Distinct) (hexpanded : Expanded bundle (refKeys members) members out)
    (hcells : List.Forall₂ (fun m c => m.1 = c.1 ∧ resolveSchemaRefs bundle m.2 = .ok c.2) out cells) :
    (NoRefs cells ∧ ∀ m ∈ members, isRef m.1 = false → ∃ c, (m.1, c) ∈ cells ∧ resolveSchemaRefs bundle m.2 = .ok c) ↔
      Compatible bundle members := by
  have hout := cells_distinct hexpanded.distinct hcells
  constructor
  · rintro ⟨hnone, hthere⟩ ⟨k, v⟩ hm href
    obtain ⟨rel, schema, hrel, hload, hschema⟩ := hexpanded.schema k (mem_refKeys.2 ⟨href, v, hm⟩)
    have hcell := (mem_cells hcells).2 ⟨_, hschema, resolve_noRefs (schemaJson_noRefs schema)⟩
    have hstrip : isRef (stripRef k) = false := hnone (stripRef k, schemaJson schema) hcell
    refine ⟨hstrip, fun c hc => ⟨rel, schema, hdistinct.eq hm hrel, hload, ?_⟩⟩
    obtain ⟨c', hc', hresolve⟩ := hthere (stripRef k, c) hc hstrip
    rw [hout.eq hc' hcell] at hresolve
    exact eq_of_flat (hbelow _ hc) (schemaJson_flat schema) hresolve
  · intro h
    refine ⟨fun ⟨q, c⟩ hc => ?_, fun ⟨q, v⟩ hm href => ?_⟩
    · show isRef q = false
      obtain ⟨v, hv, -⟩ := (mem_cells hcells).1 hc
      rcases hexpanded.mem hv with ⟨hq, -⟩ | ⟨k, hk, rfl, -⟩
      · exact hq
      · obtain ⟨href, w, hw⟩ := mem_refKeys.1 hk
        exact (h (k, w) hw href).1
    · by_cases hq : ∃ k ∈ refKeys members, q = stripRef k
      · obtain ⟨k, hk, rfl⟩ := hq
        obtain ⟨rel, schema, hrel, hload, hschema⟩ := hexpanded.schema k hk
        obtain ⟨rel', schema', heq, hload', rfl⟩ := (h (k, .string rel) hrel (mem_refKeys.1 hk).1).2 v hm
        cases heq
        obtain rfl : schema = schema' := Except.ok.inj (hload.symm.trans hload')
        have hsame : resolveSchemaRefs bundle (schemaJson schema) = _ := resolve_noRefs (schemaJson_noRefs schema)
        exact ⟨_, (mem_cells hcells).2 ⟨_, hschema, hsame⟩, hsame⟩
      · push Not at hq
        have hout : (q, v) ∈ out := by
          refine (hexpanded.other q v hq).2 ⟨fun hkey => ?_, hm⟩
          rw [(mem_refKeys.1 hkey).1] at href
          cases href
        obtain ⟨⟨q', c⟩, hc, rfl, hresolve⟩ := Traverse.exists_of_mem hcells hout
        exact ⟨c, hc, hresolve⟩

/-- an object is resolved completely when its members are, and no reference and no member is lost here -/
theorem resolve_object_iff {members out cells : List (String × Json)} (hdistinct : Distinct members)
    (hexpanded : Expanded bundle (refKeys members) members out)
    (hcells : List.Forall₂ (fun m c => m.1 = c.1 ∧ resolveSchemaRefs bundle m.2 = .ok c.2) out cells) :
    ResolvesCompletely bundle (.object members) (.object cells) ↔
      (NoRefs cells ∧ ∀ m ∈ members, isRef m.1 = false → ∃ c, (m.1, c) ∈ cells ∧ resolveSchemaRefs bundle m.2 = .ok c) ∧
      ∀ m ∈ members, ∀ c, resolveSchemaRefs bundle m.2 = .ok c → ResolvesCompletely bundle m.2 c := by
  constructor
  · rintro ⟨hnone, hkept⟩
    obtain ⟨hnone, hchildren⟩ := Json.Everywhere.object_iff.1 hnone
    cases hkept with
    | leaf h => cases h
    | object there below =>
      refine ⟨⟨hnone, there⟩, fun m hm c hresolve => ?_⟩
      cases href : isRef m.1 with
      | true =>
        -- a reference is a text
        obtain ⟨rel, schema, hrel, -⟩ := hexpanded.schema m.1 (mem_refKeys.2 ⟨href, m.2, hm⟩)
        rw [hdistinct.eq hm hrel] at hresolve ⊢
        rw [resolve_leaf rfl hresolve]
        exact ⟨.leaf rfl, .leaf rfl⟩
      | false =>
        obtain ⟨c', hc, hresolve'⟩ := there m hm href
        obtain rfl := Except.ok.inj (hresolve.symm.trans hresolve')
        exact ⟨hchildren _ hc, below m hm href c hc⟩
  · rintro ⟨⟨hnone, there⟩, hbelow⟩
    refine ⟨.object hnone fun ⟨q, c⟩ hc => ?_, .object there fun m hm href c hc => ?_⟩
    · obtain ⟨v, hv, hresolve⟩ := (mem_cells hcells).1 hc
      rcases hexpanded.mem hv with ⟨-, hm⟩ | ⟨-, -, -, schema, rfl⟩
      · exact (hbelow (q, v) hm c hresolve).noRefs
      · rw [resolve_schemaJson hresolve]
        exact schemaJson_noRefs schema
    · obtain ⟨c', hc', hresolve⟩ := there m hm href
      rw [(cells_distinct hexpanded.distinct hcells).eq hc hc']
      exact (hbelow m hm c' hresolve).kept

/-- an array is resolved completely when its items are -/
theorem resolve_array_iff {items cells : List Json} (length : items.length = cells.length) :
    ResolvesCompletely bundle (.array items) (.array cells) ↔ ∀ p ∈ items.zip cells, ResolvesCompletely bundle p.1 p.2 := by
  constructor
  · rintro ⟨hnone, hkept⟩ p hp
    cases hkept with
    | leaf h => cases h
    | array _ below => exact ⟨Json.Everywhere.array_iff.1 hnone _ (List.of_mem_zip hp).2, below p hp⟩
  · intro h
    refine ⟨.array fun c hc => ?_, .array length fun p hp => (h p hp).kept⟩
    obtain ⟨p, hp, rfl⟩ := List.mem_map.1 ((List.map_snd_zip length.ge).symm ▸ hc)
    exact (h p hp).noRefs

/-- **When the references are resolved completely**: a call that returns leaves no reference and loses nothing exactly when,
in every object, no key ends in the suffix twice and an inline key has the referenced schema's value already -/
theorem resolve_complete_iff {doc result : Json} (hdoc : doc.Everywhere Distinct)
    (hresult : resolveSchemaRefs bundle doc = .ok result) :
    ResolvesCompletely bundle doc result ↔ doc.Everywhere (Compatible bundle) := by
  induction doc using Json.induction generalizing result with
  | object members ih =>
    obtain ⟨out, cells, hexpanded, -, hcells, rfl⟩ := resolve_object hdoc hresult
    obtain ⟨hdistinct, hbelow⟩ := Json.Everywhere.object_iff.1 hdoc
    have hhere := resolve_members_iff hdistinct hbelow hexpanded hcells
    rw [Json.Everywhere.object_iff, ← hhere, resolve_object_iff hdistinct hexpanded hcells]
    refine and_congr_right fun ⟨_, there⟩ => ⟨fun h m hm => ?_, fun h m hm c hresolve => ?_⟩
    · cases href : isRef m.1 with
      | true =>
        obtain ⟨rel, schema, hrel, -⟩ := hexpanded.schema m.1 (mem_refKeys.2 ⟨href, m.2, hm⟩)
        rw [hdistinct.eq hm hrel]
        exact .leaf rfl
      | false =>
        obtain ⟨c, -, hresolve⟩ := there m hm href
        exact (ih m hm (hbelow m hm) hresolve).1 (h m hm c hresolve)
    · exact (ih m hm (hbelow m hm) hresolve).2 (h m hm)
  | array items ih =>
    obtain ⟨cells, hcells, rfl⟩ := resolve_array hdoc hresult
    have hbelow := Json.Everywhere.array_iff.1 hdoc
    have hlength := hcells.length_eq
    have hitem (p : Json × Json) (hp : p ∈ items.zip cells) :
        ResolvesCompletely bundle p.1 p.2 ↔ p.1.Everywhere (Compatible bundle) :=
      ih _ (List.of_mem_zip hp).1 (hbelow _ (List.of_mem_zip hp).1) ((List.forall₂_iff_zip.1 hcells).2 hp)
    rw [Json.Everywhere.array_iff, resolve_array_iff hlength]
    constructor
    · intro h c hc
      obtain ⟨p, hp, rfl⟩ := List.mem_map.1 ((List.map_fst_zip hlength.le).symm ▸ hc)
      exact (hitem p hp).1 (h p hp)
    · exact fun h p hp => (hitem p hp).2 (h _ (List.of_mem_zip hp).1)
  | leaf j hleaf =>
    rw [resolve_leaf hleaf hresult]
    exact ⟨fun _ => .leaf hleaf, fun _ => ⟨.leaf hleaf, .leaf hleaf⟩⟩

end Calls

def ids : Schema := ⟨[⟨"id", .int64⟩]⟩

/-- a bundle of one schema -/
def idsBundle : PipelineBundle where
  root := "bundle"
  readToString _ := .ok ""
  parseSchema _ := .ok ids
  parseValue _ := .ok .null
  print _ := .ok ""

theorem reference_resolves :
    ResolvesCompletely idsBundle (.object [("schema_ref", .string "ids.schema.json"), ("sql", .string "SELECT 1")])
      (.object [("sql", .string "SELECT 1"), ("schema", schemaJson ids)]) := by
  refine (resolve_complete_iff ?_ rfl).2 ?_
  · refine .object (by unfold Distinct; decide) ?_
    exact List.forall_mem_cons.2 ⟨.leaf rfl, List.forall_mem_singleton.2 (.leaf rfl)⟩
  · refine .object (List.forall_mem_cons.2 ⟨fun _ => ⟨by decide, fun c hc => ?_⟩, ?_⟩) ?_
    · rcases List.mem_pair.1 hc with heq | heq
      · exact absurd (Prod.mk.inj heq).1 (by decide)
      · exact absurd (Prod.mk.inj heq).1 (by decide)
    · exact List.forall_mem_singleton.2 fun href => absurd href (by decide)
    · exact List.forall_mem_cons.2 ⟨.leaf rfl, List.forall_mem_singleton.2 (.leaf rfl)⟩

/-- **References are left and members are lost**: of `a_ref_ref` one suffix is removed, and the schema of `a_ref` overwrites
the object's own `a` -/
theorem references_left_members_lost :
    (∃ result, resolveSchemaRefs idsBundle (.object [("a_ref_ref", .string "ids.schema.json")]) = .ok result ∧
      ¬result.Everywhere NoRefs) ∧
    ∃ result,
      resolveSchemaRefs idsBundle (.object [("a", .string "own"), ("a_ref", .string "ids.schema.json")]) = .ok result ∧
      ¬Kept idsBundle (.object [("a", .string "own"), ("a_ref", .string "ids.schema.json")]) result := by
  refine ⟨⟨.object [("a_ref", schemaJson ids)], rfl, fun h => ?_⟩, .object [("a", schemaJson ids)], rfl, fun h => ?_⟩
  · have hkey := (Json.Everywhere.object_iff.1 h).1 _ List.mem_cons_self
    exact absurd hkey (by decide)
  · cases h with
    | object there below =>
      obtain ⟨c, hc, hresolve⟩ := there ("a", .string "own") List.mem_cons_self (by decide)
      rw [resolve_leaf rfl hresolve, List.mem_singleton] at hc
      cases hc

end RustDataProcessing.PipelineSpec
