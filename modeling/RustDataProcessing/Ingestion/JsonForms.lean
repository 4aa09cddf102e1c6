/-
One list of records as a JSON array, and as one object a line (`src/ingestion/json.rs`).

- `array_eq_ndjson`: `ingest_json_from_str` makes the same of both texts: the same dataset, or the same error. Blank lines
  may stand anywhere among the lines; they are not counted in a row number.

Of the parser it is assumed that nothing but white space follows a document (`SingleDocument`), and that the texts are
texts of these objects.
-/
import Mathlib.Tactic
import RustDataProcessing.Export

open RustStd (OneLine Spaced joinLines)
open RustDataProcessing.Export (twoRecords knownDocuments_single)

namespace RustDataProcessing.Ingestion

/-- an object with more text below it is no document -/
def SingleDocument (P : JsonParser) : Prop :=
  ∀ text members rest, P.fromStr text = .ok (.object members) → RustStd.trim rest ≠ "" →
    ∀ doc, P.fromStr (text ++ "\n" ++ rest) ≠ .ok doc

/-- one object on each line -/
def ObjectLines (P : JsonParser) (objects : List Record) (ls : List String) : Prop :=
  List.Forall₂ (fun object line => OneLine line ∧ P.fromStr line = .ok (.object object)) objects ls

theorem ObjectLines.oneLine {P : JsonParser} {objects : List Record} {ls : List String} (h : ObjectLines P objects ls) :
    ∀ line ∈ ls, OneLine line := by
  intro line hline
  obtain ⟨object, -, hone, -⟩ := Traverse.exists_of_mem (List.Forall₂.flip h) hline
  exact hone

/-- the line loop passes over blank lines -/
theorem parseLines_of_lines {P : JsonParser} {trimmed : String} {objects : List Record} {ls : List String}
    (h : ObjectLines P objects ls)
    (hls : ((RustStd.lines trimmed).filter fun p => RustStd.trim p ≠ "").map RustStd.trim = ls) :
    parseLines P trimmed = .ok (objects.map .object) := by
  have hkept : ((RustStd.lines trimmed).zipIdx.filter fun p => RustStd.trim p.1 ≠ "").map (fun p => RustStd.trim p.1) =
      ls := by
    rw [← hls]
    conv_rhs => rw [← List.zipIdx_map_fst 0 (RustStd.lines trimmed), List.filter_map, List.map_map]
    rfl
  apply Traverse.mapM_ok
  rw [List.forall₂_map_right_iff]
  rw [ObjectLines, ← hkept, List.forall₂_map_right_iff] at h
  refine h.flip.imp fun p object hp => ?_
  simp only [hp.2]

/-- the documents of the lines -/
theorem jsonRecords_spaced {P : JsonParser} (hP : SingleDocument P) {objects : List Record} (hne : objects ≠ [])
    {ls pieces : List String} (h : ObjectLines P objects ls) (hpieces : Spaced ls pieces) :
    jsonRecords P (joinLines pieces) = .ok (objects.map .object) := by
  have hone := h.oneLine
  obtain ⟨object, objects, rfl⟩ := List.exists_cons_of_ne_nil hne
  obtain ⟨l, ls, ⟨-, hparse⟩, hrest, rfl⟩ := List.forall₂_cons_left_iff.1 h
  have hlines := parseLines_of_lines h (RustStd.lines_spaced hpieces hone (List.cons_ne_nil l ls))
  obtain ⟨rest, htrim, hbounded, hkept, -, hend⟩ := RustStd.spaced_core hpieces hone
  have hempty : joinLines (l :: rest) ≠ "" := fun he => hbounded.ne_nil (by rw [he, String.toList_empty])
  rw [htrim] at hlines
  unfold jsonRecords
  dsimp only
  rw [htrim, if_neg hempty]
  rcases hend with rfl | ⟨front, last, hlast, hblank⟩
  -- one line is one document
  · obtain rfl : ls = [] := hkept.symm
    obtain rfl := List.forall₂_nil_right_iff.1 hrest
    have hline : joinLines [l] = l := by simp [joinLines]
    rw [hline, hparse]
    rfl
  -- several lines are none
  · have hbelow : RustStd.trim (joinLines rest) ≠ "" := by
      intro hall
      refine hblank (RustStd.trim_eq_empty.2 fun c hc => RustStd.trim_eq_empty.1 hall c ?_)
      exact RustStd.mem_joinLines (by simp [hlast]) hc
    have hrestne : rest ≠ [] := by simp [hlast]
    cases hdoc : P.fromStr (joinLines (l :: rest)) with
    | ok doc =>
      rw [RustStd.joinLines_cons hrestne] at hdoc
      exact absurd hdoc (hP l object _ hparse hbelow doc)
    | error e => exact hlines

/-- **An array and its lines** are read alike, to the same dataset or the same error -/
theorem array_eq_ndjson {P : JsonParser} (hP : SingleDocument P) {objects : List Record} (hne : objects ≠ [])
    {array : String} (harray : P.fromStr array = .ok (.array (objects.map .object))) {ls pieces : List String}
    (hls : ObjectLines P objects ls) (hpieces : Spaced ls pieces) (schema : Schema) :
    ingestJsonFromStr P array schema = ingestJsonFromStr P (joinLines pieces) schema := by
  have htrim := P.fromStr_trim _ _ harray
  have hempty : RustStd.trim array ≠ "" := fun h => P.fromStr_empty _ (h ▸ htrim)
  have hrecords : jsonRecords P array = .ok (objects.map .object) := by
    unfold jsonRecords
    dsimp only
    rw [if_neg hempty, htrim]
  rw [ingestJsonFromStr_eq, ingestJsonFromStr_eq, hrecords, jsonRecords_spaced hP hne hls hpieces]

/-- a parser of two objects of one line each, and of their array -/
def twoObjects : JsonParser := knownDocuments twoRecords (by decide)

/-- two records with blank lines around them, under a schema that they do not match -/
theorem two_lines_like_array :
    ingestJsonFromStr twoObjects "[\x7b\"a\":1\x7d,\x7b\"a\":2\x7d]" ⟨[⟨"a", .bool⟩]⟩ =
      ingestJsonFromStr twoObjects (joinLines ["", "\x7b\"a\":1\x7d", "", " ", "\x7b\"a\":2\x7d", ""])
        ⟨[⟨"a", .bool⟩]⟩ := by
  have hsingle : SingleDocument twoObjects := fun text _ rest _ _ doc =>
    knownDocuments_single (by decide) text rest doc
  have hlines : ObjectLines twoObjects [[("a", .number (.posInt 1))], [("a", .number (.posInt 2))]]
      ["\x7b\"a\":1\x7d", "\x7b\"a\":2\x7d"] :=
    .cons ⟨⟨by decide, by decide, by decide, by decide⟩, rfl⟩
      (.cons ⟨⟨by decide, by decide, by decide, by decide⟩, rfl⟩ .nil)
  exact array_eq_ndjson hsingle (by simp) rfl hlines ⟨by decide, by decide⟩ _

end RustDataProcessing.Ingestion
