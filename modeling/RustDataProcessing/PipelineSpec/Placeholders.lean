/-
Pipeline templates (`src/pipeline_spec.rs`): schema references are expanded, and placeholders in the string leaves are
bound.

`bind_placeholders` walks over the map of bindings, in whatever order the map has, and replaces one placeholder after the
other in the leaf. A binding may contain a placeholder itself, or complete one with the text around it.

- `bind_at_once_iff`: the leaves are substituted at once, for every order and at every moment of it, exactly when no
  placeholder appears anew once all the others have been substituted (or it is bound to itself).
- `binding_is_bound`: with A bound to the placeholder of B, the result depends on the order of the map.
-/
import Mathlib.Tactic
import RustDataProcessing.Lib.Substitution
import RustDataProcessing.JsonTree
import RustDataProcessing.Error

namespace RustDataProcessing.PipelineSpec

open Substitution (Apart occurrences sequential substitute others)

/-! ## The source: placeholders -/

/-- `s.contains(&needle)` -/
def containsText (s needle : String) : Bool := 0 < occurrences needle.toList s.toList

/-- `s.replace(&needle, replacement)` -/
def replaceText (s needle replacement : String) : String :=
  String.ofList (Substitution.replace needle.toList replacement.toList s.toList)

/-- the placeholder of a key -/
def placeholder (key : String) : String := "\x7b\x7b" ++ key ++ "\x7d\x7d"

/-- the loop over the map, in the map's order -/
def bindString (bindings : List (String × String)) (s : String) : String :=
  bindings.foldl (fun s b => if containsText s (placeholder b.1) then replaceText s (placeholder b.1) b.2 else s) s

mutual

/-- it returns `Ok` on every document -/
def bindPlaceholders (bindings : List (String × String)) : Json → Json
  | .string s => .string (bindString bindings s)
  | .array items => .array (bindItems bindings items)
  | .object map => .object (bindMembers bindings map)
  | value => value

def bindItems (bindings : List (String × String)) : List Json → List Json
  | [] => []
  | child :: items => bindPlaceholders bindings child :: bindItems bindings items

def bindMembers (bindings : List (String × String)) : List (String × Json) → List (String × Json)
  | [] => []
  | (key, child) :: map => (key, bindPlaceholders bindings child) :: bindMembers bindings map

end

theorem bindPlaceholders_eq (bindings : List (String × String)) (doc : Json) :
    bindPlaceholders bindings doc = doc.mapStrings (bindString bindings) := by
  have hitems : ∀ items : List Json, (∀ c ∈ items, bindPlaceholders bindings c = c.mapStrings (bindString bindings)) →
      bindItems bindings items = Json.mapItems (bindString bindings) items := by
    intro items h
    induction items with
    | nil => rfl
    | cons c items ih =>
      obtain ⟨hc, hrest⟩ := List.forall_mem_cons.1 h
      rw [bindItems, Json.mapItems, hc, ih hrest]
  have hmembers : ∀ map : List (String × Json),
      (∀ m ∈ map, bindPlaceholders bindings m.2 = m.2.mapStrings (bindString bindings)) →
      bindMembers bindings map = Json.mapMembers (bindString bindings) map := by
    intro map h
    induction map with
    | nil => rfl
    | cons m map ih =>
      obtain ⟨hm, hrest⟩ := List.forall_mem_cons.1 h
      rw [bindMembers, Json.mapMembers, hm, ih hrest]
  induction doc using Json.induction with
  | object map ih => rw [bindPlaceholders, Json.mapStrings, hmembers map ih]
  | array items ih => rw [bindPlaceholders, Json.mapStrings, hitems items ih]
  | leaf j hleaf =>
    cases j with
    | object map => cases hleaf
    | array items => cases hleaf
    | _ => simp only [bindPlaceholders, Json.mapStrings]

/-! ## Placeholders without braces inside -/

/-- a key without braces -/
abbrev Name := {key : String // '{' ∉ key.toList ∧ '}' ∉ key.toList}

def needle (name : Name) : List Char := (placeholder name.1).toList

theorem needle_eq (name : Name) : needle name = '{' :: '{' :: (name.1.toList ++ ['}', '}']) := by
  rw [needle, placeholder, String.toList_append, String.toList_append]
  rfl

/-- **Placeholders do not overlap**: after its first brace, none starts inside another -/
theorem apart_needle : Apart needle where
  nonempty name := by rw [needle_eq]; exact List.cons_ne_nil _ _
  start j k h := by
    rw [needle_eq, needle_eq] at h
    obtain ⟨-, h⟩ := List.cons_prefix_cons.1 h
    obtain ⟨-, t, ht⟩ := List.cons_prefix_cons.1 h
    rw [List.append_assoc, List.cons_append] at ht
    exact Subtype.ext (String.toList_inj.1 (RustStd.cut_unique j.2.2 k.2.2 ht).1)
  inside j k i hpos hlt := by
    -- what is left of the first placeholder starts with another character, or has another one next
    have htail : '{' ∉ j.1.toList ++ ['}', '}'] := by
      rw [List.mem_append, not_or]
      exact ⟨j.2.1, by decide⟩
    have hhead : ∀ {l m : List Char}, l ≠ [] → '{' ∉ l → ¬l <+: '{' :: m ∧ ¬ ('{' :: m <+: l) := by
      intro l m hne hl
      obtain ⟨c, l, rfl⟩ := List.exists_cons_of_ne_nil hne
      have hc : c ≠ '{' := fun heq => hl (heq ▸ List.mem_cons_self)
      exact ⟨fun hp => hc (List.cons_prefix_cons.1 hp).1, fun hp => hc (List.cons_prefix_cons.1 hp).1.symm⟩
    rw [needle_eq] at hlt ⊢
    rw [needle_eq k]
    obtain ⟨i, rfl⟩ := Nat.exists_eq_succ_of_ne_zero hpos.ne'
    rw [List.drop_succ_cons]
    rw [List.length_cons, List.length_cons] at hlt
    cases i with
    | zero =>
      rw [List.drop_zero]
      obtain ⟨h1, h2⟩ := hhead (m := k.1.toList ++ ['}', '}']) (by simp) htail
      exact ⟨fun hp => h1 (List.cons_prefix_cons.1 hp).2, fun hp => h2 (List.cons_prefix_cons.1 hp).2⟩
    | succ i =>
      rw [List.drop_succ_cons]
      refine hhead (fun hnil => ?_) fun hmem => htail (List.mem_of_mem_drop hmem)
      have hlen := congrArg List.length hnil
      rw [List.length_drop, List.length_nil] at hlen
      omega

/-! ## One after the other, and at once -/

/-- a binding as the map has it -/
def entry (b : Name × String) : String × String := (b.1.1, b.2)

def chars (b : Name × String) : Name × List Char := (b.1, b.2.toList)

/-- every placeholder of the text replaced by its binding, at once -/
def atOnce (bindings : List (Name × String)) (s : String) : String :=
  String.ofList (substitute needle (bindings.map chars) s.toList)

/-- the number of places where the placeholder of a key stands -/
def places (name : Name) (s : String) : ℕ := occurrences (needle name) s.toList

/-- the loop is the replacements one after the other: looking for the placeholder first changes nothing -/
theorem bindString_eq (order : List (Name × String)) (s : String) :
    bindString (order.map entry) s = String.ofList (sequential needle (order.map chars) s.toList) := by
  induction order generalizing s with
  | nil => exact String.ofList_toList.symm
  | cons b order ih =>
    have hstep : (if containsText s (placeholder b.1.1) then replaceText s (placeholder b.1.1) b.2 else s) =
        String.ofList (Substitution.replace (needle b.1) b.2.toList s.toList) := by
      split_ifs with hc
      · rfl
      · have hnone : occurrences (needle b.1) s.toList = 0 := by
          simpa [containsText, needle] using hc
        rw [Substitution.replace_of_none apart_needle hnone, String.ofList_toList]
    rw [List.map_cons, List.map_cons, bindString, List.foldl_cons, ← bindString]
    change bindString (order.map entry) (if containsText s (placeholder b.1.1) then
      replaceText s (placeholder b.1.1) b.2 else s) = _
    rw [hstep, ih, String.toList_ofList]
    rfl

/-- the placeholders of a document are replaced at once -/
structure BoundAtOnce (bindings : List (Name × String)) (doc : Json) : Prop where
  /-- whatever the order of the map, the result is the document with all placeholders replaced at once -/
  result : ∀ order : List (Name × String), order.Perm bindings →
    bindPlaceholders (order.map entry) doc = doc.mapStrings (atOnce bindings)
  /-- and on the way, it is the document with those visited so far replaced: no text of a binding is replaced again -/
  visited : ∀ before after : List (Name × String), (before ++ after).Perm bindings →
    bindPlaceholders (before.map entry) doc = doc.mapStrings (atOnce before)
  /-- keys, other leaves and structure are unchanged -/
  shape : ∀ order : List (Name × String), order.Perm bindings →
    (bindPlaceholders (order.map entry) doc).shape = doc.shape

theorem keys_chars (bindings : List (Name × String)) : (bindings.map chars).map Prod.fst = bindings.map Prod.fst := by
  rw [List.map_map]
  rfl

theorem chars_injective : Function.Injective chars := fun _ _ h =>
  Prod.ext (Prod.mk.inj h).1 (String.toList_inj.1 (Prod.mk.inj h).2)

theorem chars_surjective : Function.Surjective chars := fun b => ⟨(b.1, String.ofList b.2), by simp [chars]⟩

/-- one leaf -/
theorem bindString_at_once_iff {bindings : List (Name × String)} (hdistinct : (bindings.map Prod.fst).Nodup) (s : String) :
    (∀ before after : List (Name × String), (before ++ after).Perm bindings →
        bindString (before.map entry) s = atOnce before s) ↔
      ∀ b ∈ bindings, b.2 = placeholder b.1.1 ∨
        places b.1 (atOnce (bindings.filter fun c => c.1 ≠ b.1) s) = places b.1 s := by
  have hothers : ∀ name : Name, others (bindings.map chars) name = (bindings.filter fun c => c.1 ≠ name).map chars := by
    intro name
    rw [others, List.filter_map]
    rfl
  have hkeys : ((bindings.map chars).map Prod.fst).Nodup := by rwa [keys_chars]
  have hiff := Substitution.sequential_iff apart_needle hkeys s.toList
  simp only [List.forall_mem_map, hothers] at hiff
  constructor
  · intro h b hb
    refine (hiff.1 (fun before after hperm => ?_) b hb).imp (fun heq => String.toList_inj.1 heq) fun hcount => ?_
    · obtain ⟨before, rfl⟩ := List.map_surjective_iff.2 chars_surjective before
      obtain ⟨after, rfl⟩ := List.map_surjective_iff.2 chars_surjective after
      rw [← List.map_append, List.map_perm_map_iff chars_injective] at hperm
      have heq := h before after hperm
      rw [bindString_eq, atOnce, String.ofList_inj] at heq
      exact heq
    · rw [places, atOnce, String.toList_ofList]
      exact hcount
  · intro h before after hperm
    rw [bindString_eq, atOnce]
    refine congrArg String.ofList (hiff.2 (fun b hb => ?_) (before.map chars) (after.map chars) ?_)
    · refine (h b hb).imp (fun heq => congrArg String.toList heq) fun hcount => ?_
      rw [places, atOnce, String.toList_ofList] at hcount
      exact hcount
    · rw [← List.map_append]
      exact hperm.map chars

theorem atOnce_perm {bindings order : List (Name × String)} (hdistinct : (bindings.map Prod.fst).Nodup)
    (hperm : order.Perm bindings) : atOnce order = atOnce bindings := by
  funext s
  rw [atOnce, atOnce, Substitution.substitute_perm apart_needle (by rwa [keys_chars]) (hperm.map chars)]

/-- **When the placeholders are replaced at once**: in no leaf does a placeholder stand in more places once all the others
have been replaced, or it is bound to itself -/
theorem bind_at_once_iff (bindings : List (Name × String)) (hdistinct : (bindings.map Prod.fst).Nodup) (doc : Json) :
    BoundAtOnce bindings doc ↔ ∀ s ∈ doc.strings, ∀ b ∈ bindings, b.2 = placeholder b.1.1 ∨
      places b.1 (atOnce (bindings.filter fun c => c.1 ≠ b.1) s) = places b.1 s := by
  have hleaf : (∀ before after : List (Name × String), (before ++ after).Perm bindings →
      bindPlaceholders (before.map entry) doc = doc.mapStrings (atOnce before)) ↔
      ∀ s ∈ doc.strings, ∀ before after : List (Name × String), (before ++ after).Perm bindings →
        bindString (before.map entry) s = atOnce before s := by
    simp only [bindPlaceholders_eq, Json.mapStrings_eq_iff]
    exact ⟨fun h s hs before after hperm => h before after hperm s hs, fun h before after hperm s hs =>
      h s hs before after hperm⟩
  have hcond : (∀ s ∈ doc.strings, ∀ before after : List (Name × String), (before ++ after).Perm bindings →
      bindString (before.map entry) s = atOnce before s) ↔ ∀ s ∈ doc.strings, ∀ b ∈ bindings,
        b.2 = placeholder b.1.1 ∨ places b.1 (atOnce (bindings.filter fun c => c.1 ≠ b.1) s) = places b.1 s :=
    forall₂_congr fun s _ => bindString_at_once_iff hdistinct s
  rw [← hcond, ← hleaf]
  constructor
  · exact fun h => h.visited
  · intro h
    refine ⟨fun order hperm => ?_, h, fun order hperm => ?_⟩
    · rw [h order [] (by rwa [List.append_nil]), atOnce_perm hdistinct hperm]
    · rw [bindPlaceholders_eq, Json.shape_mapStrings]

/-- two paths -/
def pathA : Name := ⟨"A", by decide⟩

def pathB : Name := ⟨"B", by decide⟩

def twoPaths : Json := .object [("source", .string "{{A}}/in"), ("sink", .string "{{B}}/out")]

theorem paths_are_bound : BoundAtOnce [(pathA, "/data"), (pathB, "/tmp")] twoPaths :=
  (bind_at_once_iff _ (by decide) _).2 (by decide)

/-- **A binding is bound**: with A bound to the placeholder of B, the text of A's binding is replaced again, or not, as the
map has it -/
theorem binding_is_bound :
    (bindPlaceholders [("A", "{{B}}"), ("B", "x")] twoPaths).strings = ["x/in", "x/out"] ∧
    (bindPlaceholders [("B", "x"), ("A", "{{B}}")] twoPaths).strings = ["{{B}}/in", "x/out"] ∧
    ¬BoundAtOnce [(pathA, "{{B}}"), (pathB, "x")] twoPaths := by
  have hAB : (bindPlaceholders [("A", "{{B}}"), ("B", "x")] twoPaths).strings = ["x/in", "x/out"] := by decide
  have hBA : (bindPlaceholders [("B", "x"), ("A", "{{B}}")] twoPaths).strings =
      ["{{B}}/in", "x/out"] := by decide
  refine ⟨hAB, hBA, fun h => ?_⟩
  have horder := (h.result _ (.refl _)).trans (h.result [(pathB, "x"), (pathA, "{{B}}")] (.swap ..)).symm
  have hstrings := hAB.symm.trans ((congrArg Json.strings horder).trans hBA)
  exact absurd hstrings (by decide)

end RustDataProcessing.PipelineSpec
