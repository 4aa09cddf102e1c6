/-
XML documents as an event writer takes them and a pull reader reports them.

The writer is given start tags, texts and end tags; it escapes the five special characters of a text. The reader reports
each run of plain characters as a text, trimmed, and each entity as a reference of its own, so a text with a special
character comes back in pieces (`textEvents`). `Codec.Documented` says this of a writer and a reader that are not modelled.

- `textEvents_plain`: a text without special characters is reported whole, trimmed.
- `plain_of_mem_textEvents`: no special character is ever part of a reported text.
-/
import Mathlib.Tactic
import Mathlib.Data.List.DropRight

namespace Xml

/-! ## Characters and names -/

/-- `Char` -/
def isChar (c : Char) : Bool :=
  let n := c.toNat
  n = 0x9 || n = 0xA || n = 0xD || (0x20 ≤ n && n ≤ 0xD7FF) || (0xE000 ≤ n && n ≤ 0xFFFD) || 0x10000 ≤ n

/-- `NameStartChar` -/
def isNameStart (c : Char) : Bool :=
  let n := c.toNat
  c.isAlpha || c = ':' || c = '_' || (0xC0 ≤ n && n ≤ 0xD6) || (0xD8 ≤ n && n ≤ 0xF6) || (0xF8 ≤ n && n ≤ 0x2FF) ||
    (0x370 ≤ n && n ≤ 0x37D) || (0x37F ≤ n && n ≤ 0x1FFF) || (0x200C ≤ n && n ≤ 0x200D) || (0x2070 ≤ n && n ≤ 0x218F) ||
    (0x2C00 ≤ n && n ≤ 0x2FEF) || (0x3001 ≤ n && n ≤ 0xD7FF) || (0xF900 ≤ n && n ≤ 0xFDCF) ||
    (0xFDF0 ≤ n && n ≤ 0xFFFD) || (0x10000 ≤ n && n ≤ 0xEFFFF)

/-- `NameChar` -/
def isNameChar (c : Char) : Bool :=
  let n := c.toNat
  isNameStart c || c.isDigit || c = '-' || c = '.' || n = 0xB7 || (0x300 ≤ n && n ≤ 0x36F) || (0x203F ≤ n && n ≤ 0x2040)

/-- the name of an element -/
def isName (s : String) : Bool :=
  match s.toList with
  | [] => false
  | c :: cs => isNameStart c && cs.all isNameChar

def isSpace (c : Char) : Bool := c = ' ' || c = '\t' || c = '\n' || c = '\r'

/-- the entity a special character is escaped as -/
def entityOf (c : Char) : Option String :=
  if c = '<' then some "lt"
  else if c = '>' then some "gt"
  else if c = '&' then some "amp"
  else if c = '\'' then some "apos"
  else if c = '"' then some "quot"
  else none

def Plain (cs : List Char) : Prop := ∀ c ∈ cs, entityOf c = none

instance (cs : List Char) : Decidable (Plain cs) := inferInstanceAs (Decidable (∀ c ∈ cs, entityOf c = none))

/-! ## Events -/

/-- `other` is a comment, a CDATA section, a processing instruction or a document type -/
inductive Event where
  | decl
  | startTag (name : String)
  | emptyTag (name : String)
  | text (s : String)
  | generalRef (name : String)
  | endTag (name : String)
  | other
  | eof
deriving DecidableEq, Repr

/-- an event whose text is known and can stand in a document -/
def Event.Legal : Event → Prop
  | .startTag name => isName name = true
  | .emptyTag name => isName name = true
  | .endTag name => isName name = true
  | .text s => ∀ c ∈ s.toList, isChar c = true ∧ c ≠ '\r'
  | .other => False
  | _ => True

/-- end tags match, and no two texts are adjacent -/
def wellNested : List String → List Event → Bool
  | stack, [] => stack.isEmpty
  | _, .text _ :: .text _ :: _ => false
  | stack, .startTag name :: events => wellNested (name :: stack) events
  | [], .endTag _ :: _ => false
  | name :: stack, .endTag other :: events => name = other && wellNested stack events
  | stack, _ :: events => wellNested stack events

/-! ## What the reader reports -/

def trimText (cs : List Char) : List Char := (cs.dropWhile isSpace).rdropWhile isSpace

/-- a run of plain characters; nothing is reported of blanks -/
def pieceEvents (piece : List Char) : List Event :=
  if trimText piece = [] then [] else [.text (String.ofList (trimText piece))]

/-- a written text, from the run read so far -/
def textEvents (piece : List Char) : List Char → List Event
  | [] => pieceEvents piece
  | c :: cs => match entityOf c with
    | some name => pieceEvents piece ++ .generalRef name :: textEvents [] cs
    | none => textEvents (piece ++ [c]) cs

def reported : Event → List Event
  | .text s => textEvents [] s.toList
  | e => [e]

/-- the texts among some events -/
def textsOf (events : List Event) : List String :=
  events.filterMap fun
    | .text s => some s
    | _ => none

theorem mem_textsOf {events : List Event} {s : String} : s ∈ textsOf events ↔ .text s ∈ events := by
  simp only [textsOf, List.mem_filterMap]
  constructor
  · rintro ⟨e, he, h⟩
    cases e <;> simp at h
    exact h ▸ he
  · exact fun h => ⟨_, h, rfl⟩

/-- a writer with a reader of what it writes: the events reported, and the content of a reported text -/
structure Codec where
  report : List Event → List (Except String Event)
  content : String → Except String String

structure Codec.Documented (x : Codec) : Prop where
  report : ∀ events, (∀ e ∈ events, e.Legal) → wellNested [] events = true →
    x.report events = (events.flatMap reported).map .ok
  content : ∀ s, '&' ∉ s.toList → '\r' ∉ s.toList → x.content s = .ok s

theorem textEvents_plain {cs : List Char} (h : Plain cs) (piece : List Char) :
    textEvents piece cs = pieceEvents (piece ++ cs) := by
  induction cs generalizing piece with
  | nil => rw [textEvents, List.append_nil]
  | cons c cs ih =>
    obtain ⟨hc, hcs⟩ := List.forall_mem_cons.1 h
    rw [textEvents, hc]
    dsimp only
    rw [ih hcs, List.append_assoc, List.singleton_append]

theorem mem_trimText {c : Char} {cs : List Char} (h : c ∈ trimText cs) : c ∈ cs :=
  (List.dropWhile_suffix _).subset ((List.rdropWhile_prefix _ _).subset h)

/-- a reported text is made of plain characters of the written one -/
theorem plain_of_mem_textEvents {cs piece : List Char} (hpiece : Plain piece) {s : String}
    (h : .text s ∈ textEvents piece cs) : Plain s.toList ∧ ∀ c ∈ s.toList, c ∈ piece ++ cs := by
  have hrun : ∀ {piece : List Char}, Plain piece → .text s ∈ pieceEvents piece →
      Plain s.toList ∧ ∀ c ∈ s.toList, c ∈ piece := by
    intro piece hpiece hs
    unfold pieceEvents at hs
    split_ifs at hs with hempty
    · cases hs
    obtain rfl : s = String.ofList (trimText piece) := by simpa using hs
    rw [String.toList_ofList]
    exact ⟨fun c hc => hpiece c (mem_trimText hc), fun c hc => mem_trimText hc⟩
  induction cs generalizing piece with
  | nil => simpa using hrun hpiece h
  | cons c cs ih =>
    rw [textEvents] at h
    cases hc : entityOf c with
    | none =>
      rw [hc] at h
      have hpiece' : Plain (piece ++ [c]) := by
        intro d hd
        rcases List.mem_append.1 hd with hd | hd
        · exact hpiece d hd
        · rw [List.mem_singleton.1 hd, hc]
      obtain ⟨h1, h2⟩ := ih hpiece' h
      refine ⟨h1, fun d hd => ?_⟩
      have := h2 d hd
      rwa [List.append_assoc, List.singleton_append] at this
    | some name =>
      rw [hc] at h
      rcases List.mem_append.1 h with h | h
      · obtain ⟨h1, h2⟩ := hrun hpiece h
        exact ⟨h1, fun d hd => List.mem_append_left _ (h2 d hd)⟩
      · have hrest : Event.text s ∈ textEvents [] cs := by simpa using h
        obtain ⟨h1, h2⟩ := ih (by intro d hd; cases hd) hrest
        exact ⟨h1, fun d hd => List.mem_append_right _ (List.mem_cons_of_mem _ (by simpa using h2 d hd))⟩

/-- a written text is reported as texts and references -/
theorem mem_textEvents {cs piece : List Char} {e : Event} (h : e ∈ textEvents piece cs) :
    (∃ s, e = .text s) ∨ ∃ name, e = .generalRef name := by
  have hrun : ∀ {piece : List Char}, e ∈ pieceEvents piece → ∃ s, e = .text s := by
    intro piece he
    unfold pieceEvents at he
    split_ifs at he
    · cases he
    · exact ⟨_, List.mem_singleton.1 he⟩
  induction cs generalizing piece with
  | nil => exact Or.inl (hrun h)
  | cons c cs ih =>
    rw [textEvents] at h
    cases hc : entityOf c with
    | none =>
      rw [hc] at h
      exact ih h
    | some name =>
      rw [hc] at h
      rcases List.mem_append.1 h with h | h
      · exact Or.inl (hrun h)
      rcases List.mem_cons.1 h with rfl | h
      · exact Or.inr ⟨name, rfl⟩
      · exact ih h

end Xml
