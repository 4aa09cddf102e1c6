/-
Paths of a Unix system and their components (`std::path`).

A path is a text in which a unit may be no character (`OsStr`). Its components are what stands between slashes: empty ones
and single dots are passed over, but for a dot at the very beginning; `..` is kept.

- `components_join`: the components of names joined by slashes are the names.
-/
import Mathlib.Tactic

namespace UnixPath

/-- `OsStr`: characters, and bytes that are none -/
abbrev OsStr := List (Option Char)

def ofText (s : String) : OsStr := s.toList.map some

/-- `OsStr::to_str` -/
def toStr (part : OsStr) : Option String :=
  if part.all Option.isSome then some (String.ofList (part.filterMap id)) else none

inductive Component where
  | rootDir
  | curDir
  | parentDir
  | normal (name : OsStr)
deriving DecidableEq, Repr

def Component.isNormal : Component → Bool
  | .normal _ => true
  | _ => false

def dot : OsStr := [some '.']

def dotDot : OsStr := [some '.', some '.']

/-- what stands between two slashes -/
def component (seg : OsStr) : List Component :=
  if seg = [] ∨ seg = dot then [] else if seg = dotDot then [.parentDir] else [.normal seg]

/-- `Path::components` -/
def components (path : OsStr) : List Component :=
  let segs := path.splitOn (some '/')
  let start := if path.head? = some (some '/') then [.rootDir] else if segs.head? = some dot then [.curDir] else []
  start ++ segs.flatMap component

/-- `Path::join`, from the empty path -/
def join (names : List OsStr) : OsStr := [some '/'].intercalate names

/-- a name that is a component of its own -/
structure IsName (name : OsStr) : Prop where
  nonempty : name ≠ []
  noDot : name ≠ dot
  noDotDot : name ≠ dotDot
  noSlash : some '/' ∉ name

theorem toStr_eq_some {part : OsStr} {s : String} : toStr part = some s ↔ part = ofText s := by
  constructor
  · intro h
    unfold toStr at h
    split_ifs at h with hall
    obtain rfl := Option.some.inj h
    rw [ofText, String.toList_ofList]
    clear h
    induction part with
    | nil => rfl
    | cons u part ih =>
      rw [List.all_cons, Bool.and_eq_true] at hall
      obtain ⟨c, rfl⟩ := Option.isSome_iff_exists.1 hall.1
      exact congrArg (List.cons (some c)) (ih hall.2)
  · rintro rfl
    have hall : (ofText s).all Option.isSome = true := by simp [ofText]
    have hchars : (ofText s).filterMap id = s.toList := by simp [ofText, List.filterMap_map]
    rw [toStr, if_pos hall, hchars, String.ofList_toList]

/-- **Names joined by slashes** are the components of the path -/
theorem components_join {names : List OsStr} (h : ∀ name ∈ names, IsName name) :
    components (join names) = names.map .normal := by
  rcases names with - | ⟨name, names⟩
  · rfl
  have hsegs : (join (name :: names)).splitOn (some '/') = name :: names :=
    List.splitOn_intercalate _ (fun l hl => (h l hl).noSlash) (List.cons_ne_nil _ _)
  have hname := h name List.mem_cons_self
  have hroot : (join (name :: names)).head? ≠ some (some '/') := by
    obtain ⟨u, rest, rfl⟩ := List.exists_cons_of_ne_nil hname.nonempty
    intro hhead
    have hu : u = some '/' := by
      cases names <;> simpa [join, List.intercalate] using hhead
    exact hname.noSlash (hu ▸ List.mem_cons_self)
  have hcomponent : ∀ n ∈ name :: names, component n = [.normal n] := by
    intro n hn
    have := h n hn
    rw [component, if_neg (not_or.2 ⟨this.nonempty, this.noDot⟩), if_neg this.noDotDot]
  rw [components, hsegs, if_neg hroot, List.head?_cons, if_neg (by simpa using hname.noDot), List.nil_append,
    List.flatMap_congr hcomponent]
  exact List.map_eq_flatMap.symm

end UnixPath
