/-
Hive partition paths (`src/ingestion/partition.rs`, `hive_segments_for_relative_parent`).

Every directory between the root and a file is to be named `key=value`. The loop looks at the components that are names and
passes over the others: the root, a leading `.`, and every `..`.

- `hive_grammar_iff`: the parser accepts the paths of the grammar and no others exactly when all components are names, or a
  name among them is no pair; and a path built from pairs always gives them back.
- `parent_component_skipped`: `dt=1/../region=us` passes for a path of two pairs.
-/
import Mathlib.Tactic
import RustDataProcessing.Lib.RustStd
import RustDataProcessing.Lib.Traverse
import RustDataProcessing.Lib.UnixPath

namespace RustDataProcessing.Ingestion

open UnixPath (OsStr Component components ofText toStr)

/-! ## The source -/

structure PartitionSegment where
  key : String
  value : String
deriving DecidableEq, Repr

def parsePartitionSegment (component : String) : Option PartitionSegment :=
  match RustStd.splitOnce component '=' with
  | none => none
  | some (k, v) => if k = "" ∨ v = "" then none else some ⟨k, v⟩

/-- the loop over the components -/
def hiveLoop : List Component → List PartitionSegment → Option (List PartitionSegment)
  | [], segments => some segments
  | .normal part :: rest, segments => do
    let s ← toStr part
    let segment ← parsePartitionSegment s
    hiveLoop rest (segments ++ [segment])
  | _ :: rest, segments => hiveLoop rest segments

def hiveSegmentsForRelativeParent (relativeParent : OsStr) : Option (List PartitionSegment) :=
  hiveLoop (components relativeParent) []

/-! ## The grammar -/

/-- the parts of a pair: neither is empty, and the key ends at the first `=` -/
structure PartitionSegment.WellFormed (s : PartitionSegment) : Prop where
  key_ne : s.key ≠ ""
  value_ne : s.value ≠ ""
  noEquals : '=' ∉ s.key.toList

def PartitionSegment.text (s : PartitionSegment) : String := s.key ++ "=" ++ s.value

/-- the component is the pair -/
def IsPair (c : Component) (s : PartitionSegment) : Prop := s.WellFormed ∧ c = .normal (ofText s.text)

theorem parsePartitionSegment_eq_some {text : String} {s : PartitionSegment} :
    parsePartitionSegment text = some s ↔ s.WellFormed ∧ text = s.text := by
  by_cases hmem : '=' ∈ text.toList
  · obtain ⟨before, after, htext, hbefore⟩ := List.eq_append_cons_of_mem hmem
    rw [parsePartitionSegment, RustStd.splitOnce_some htext hbefore]
    dsimp only
    constructor
    · intro h
      split_ifs at h with hempty
      obtain rfl := Option.some.inj h
      rw [not_or] at hempty
      refine ⟨⟨hempty.1, hempty.2, by simpa using hbefore⟩, String.toList_inj.1 ?_⟩
      simp [PartitionSegment.text, htext]
    · rintro ⟨⟨hkey, hvalue, hequals⟩, rfl⟩
      have hsame : s.key.toList ++ '=' :: s.value.toList = before ++ '=' :: after := by
        rw [← htext]
        simp [PartitionSegment.text]
      obtain ⟨rfl, rfl⟩ := RustStd.cut_unique hequals hbefore hsame
      simp [hkey, hvalue]
  · rw [parsePartitionSegment, RustStd.splitOnce_none hmem]
    refine iff_of_false nofun ?_
    rintro ⟨-, rfl⟩
    simp [PartitionSegment.text] at hmem

/-- the parser on one name -/
theorem isPair_normal {part : OsStr} {s : PartitionSegment} :
    IsPair (.normal part) s ↔ ((toStr part).bind parsePartitionSegment) = some s := by
  rw [Option.bind_eq_some_iff, IsPair]
  simp only [UnixPath.toStr_eq_some, parsePartitionSegment_eq_some, Component.normal.injEq]
  constructor
  · rintro ⟨hwell, rfl⟩
    exact ⟨s.text, rfl, hwell, rfl⟩
  · rintro ⟨text, rfl, hwell, rfl⟩
    exact ⟨hwell, rfl⟩

theorem IsPair.isNormal {c : Component} {s : PartitionSegment} (h : IsPair c s) : c.isNormal = true := by
  rw [h.2]
  rfl

/-- **The loop** accepts the names that are pairs, and passes over the other components -/
theorem hiveLoop_eq_some {cs : List Component} {acc segments : List PartitionSegment} :
    hiveLoop cs acc = some segments ↔
      ∃ new, List.Forall₂ IsPair (cs.filter Component.isNormal) new ∧ segments = acc ++ new := by
  induction cs generalizing acc with
  | nil => simp [hiveLoop, eq_comm]
  | cons c cs ih =>
    cases c with
    | normal part =>
      have hstep : hiveLoop (.normal part :: cs) acc =
          ((toStr part).bind parsePartitionSegment).bind fun s => hiveLoop cs (acc ++ [s]) :=
        (Option.bind_assoc _ _ _).symm
      rw [hstep, Option.bind_eq_some_iff, List.filter_cons_of_pos rfl]
      simp only [← isPair_normal, ih, List.forall₂_cons_left_iff]
      constructor
      · rintro ⟨s, hpair, new, hnew, rfl⟩
        exact ⟨s :: new, ⟨s, new, hpair, hnew, rfl⟩, by simp⟩
      · rintro ⟨new, ⟨s, new, hpair, hnew, rfl⟩, rfl⟩
        exact ⟨s, hpair, new, hnew, by simp⟩
    | _ => exact ih

theorem hiveSegments_eq_some {path : OsStr} {segments : List PartitionSegment} :
    hiveSegmentsForRelativeParent path = some segments ↔
      List.Forall₂ IsPair ((components path).filter Component.isNormal) segments := by
  rw [hiveSegmentsForRelativeParent, hiveLoop_eq_some]
  simp

/-- the parser accepts the path exactly when every component is a pair, and then with these pairs -/
def AcceptsGrammar (path : OsStr) : Prop :=
  ∀ segments, hiveSegmentsForRelativeParent path = some segments ↔ List.Forall₂ IsPair (components path) segments

/-- the path built from pairs -/
def hivePath (segments : List PartitionSegment) : OsStr := UnixPath.join (segments.map fun s => ofText s.text)

theorem isName_text {s : PartitionSegment} (hslash : '/' ∉ s.key.toList ∧ '/' ∉ s.value.toList) :
    UnixPath.IsName (ofText s.text) := by
  have hequals : some '=' ∈ ofText s.text := by simp [ofText, PartitionSegment.text]
  refine ⟨fun h => ?_, fun h => ?_, fun h => ?_, ?_⟩
  · rw [h] at hequals
    cases hequals
  · rw [h] at hequals
    exact absurd hequals (by decide)
  · rw [h] at hequals
    exact absurd hequals (by decide)
  · simp [ofText, PartitionSegment.text, hslash]

/-- a path built from pairs gives them back -/
theorem hiveSegments_hivePath {segments : List PartitionSegment} (hwell : ∀ s ∈ segments, s.WellFormed)
    (hslash : ∀ s ∈ segments, '/' ∉ s.key.toList ∧ '/' ∉ s.value.toList) :
    hiveSegmentsForRelativeParent (hivePath segments) = some segments := by
  have hcomponents : components (hivePath segments) = segments.map fun s => .normal (ofText s.text) := by
    rw [hivePath, UnixPath.components_join, List.map_map]
    · rfl
    · rw [List.forall_mem_map]
      exact fun s hs => isName_text (hslash s hs)
  rw [hiveSegments_eq_some, hcomponents, List.filter_eq_self.2, List.forall₂_map_left_iff, List.forall₂_same]
  · exact fun s hs => ⟨hwell s hs, rfl⟩
  · rw [List.forall_mem_map]
    exact fun s hs => rfl

/-- **The grammar of partition paths**: it is what the parser accepts exactly for the paths whose components are all names,
and for those it refuses because a name is no pair. And what is built from pairs is parsed as these pairs -/
theorem hive_grammar_iff (path : OsStr) (pairs : List PartitionSegment) :
    (AcceptsGrammar path ↔ (∀ c ∈ components path, c.isNormal = true) ∨
      ∃ c ∈ components path, c.isNormal = true ∧ ∀ s, ¬IsPair c s) ∧
    ((∀ s ∈ pairs, s.WellFormed) → (∀ s ∈ pairs, '/' ∉ s.key.toList ∧ '/' ∉ s.value.toList) →
      hiveSegmentsForRelativeParent (hivePath pairs) = some pairs) := by
  refine ⟨?_, hiveSegments_hivePath⟩
  constructor
  · intro h
    by_contra hnot
    push Not at hnot
    obtain ⟨⟨c, hc, hskipped⟩, hpairs⟩ := hnot
    obtain ⟨segments, hsegments⟩ := Traverse.exists_forall₂_iff.2
      fun d (hd : d ∈ (components path).filter Component.isNormal) =>
        hpairs d (List.mem_filter.1 hd).1 (List.mem_filter.1 hd).2
    obtain ⟨s, -, hpair⟩ := Traverse.exists_of_mem ((h segments).1 (hiveSegments_eq_some.2 hsegments)) hc
    exact hskipped hpair.isNormal
  · rintro (hall | ⟨c, hc, hnormal, hpair⟩) segments
    · rw [hiveSegments_eq_some, List.filter_eq_self.2 hall]
    · rw [hiveSegments_eq_some]
      constructor
      · intro h
        obtain ⟨s, -, hs⟩ := Traverse.exists_of_mem h (List.mem_filter.2 ⟨hc, hnormal⟩)
        exact absurd hs (hpair s)
      · intro h
        obtain ⟨s, -, hs⟩ := Traverse.exists_of_mem h hc
        exact absurd hs (hpair s)

theorem date_and_region_parsed :
    AcceptsGrammar (ofText "dt=1/region=us") ∧
      hiveSegmentsForRelativeParent (hivePath [⟨"dt", "1"⟩, ⟨"expr", "a=b"⟩]) = some [⟨"dt", "1"⟩, ⟨"expr", "a=b"⟩] := by
  refine ⟨(hive_grammar_iff _ []).1.2 (.inl (by decide)), (hive_grammar_iff [] _).2 ?_ (by decide)⟩
  exact List.forall_mem_cons.2 ⟨⟨by decide, by decide, by decide⟩,
    List.forall_mem_singleton.2 ⟨by decide, by decide, by decide⟩⟩

/-- **A parent component is skipped**: `dt=1/../region=us` names the directory `region=us`, and is accepted as two pairs -/
theorem parent_component_skipped :
    hiveSegmentsForRelativeParent (ofText "dt=1/../region=us") = some [⟨"dt", "1"⟩, ⟨"region", "us"⟩] ∧
    ¬AcceptsGrammar (ofText "dt=1/../region=us") := by
  have hparsed : hiveSegmentsForRelativeParent (ofText "dt=1/../region=us") = some [⟨"dt", "1"⟩, ⟨"region", "us"⟩] := by
    decide
  refine ⟨hparsed, fun h => ?_⟩
  have hparent : Component.parentDir ∈ components (ofText "dt=1/../region=us") := by decide
  obtain ⟨s, -, hs⟩ := Traverse.exists_of_mem ((h _).1 hparsed) hparent
  exact absurd hs.isNormal (by decide)

end RustDataProcessing.Ingestion
