/-
Text with separators in which a backslash takes the next character for itself.

`Closed` is what makes a piece safe between separators: no separator stands unescaped in it, and its last backslash has
its character.

- `split_terminated`: pieces that each end with the separator are found again.
- `split_join`: so are pieces with the separator between them.
-/
import Mathlib.Tactic

namespace Escaped

/-- the pieces, from the piece read so far; `escaped` after a backslash -/
def splitFrom (sep : Char) (escaped : Bool) (piece : List Char) : List Char → List (List Char)
  | [] => [piece]
  | c :: cs =>
    if escaped then splitFrom sep false (piece ++ [c]) cs
    else if c = '\\' then splitFrom sep true (piece ++ [c]) cs
    else if c = sep then piece :: splitFrom sep false [] cs
    else splitFrom sep false (piece ++ [c]) cs

def split (sep : Char) (cs : List Char) : List (List Char) := splitFrom sep false [] cs

def closedFrom (sep : Char) (escaped : Bool) : List Char → Bool
  | [] => !escaped
  | c :: cs =>
    if escaped then closedFrom sep false cs
    else if c = '\\' then closedFrom sep true cs
    else c ≠ sep && closedFrom sep false cs

def Closed (sep : Char) (cs : List Char) : Prop := closedFrom sep false cs = true

instance (sep : Char) (cs : List Char) : Decidable (Closed sep cs) := inferInstanceAs (Decidable (_ = true))

theorem closedFrom_append {sep : Char} {escaped : Bool} {a b : List Char} (ha : closedFrom sep escaped a = true)
    (hb : Closed sep b) : closedFrom sep escaped (a ++ b) = true := by
  induction a generalizing escaped with
  | nil =>
    cases escaped with
    | false => exact hb
    | true => cases ha
  | cons c a ih =>
    rw [List.cons_append]
    unfold closedFrom at ha ⊢
    split_ifs at ha ⊢ with h1 h2
    · exact ih ha
    · exact ih ha
    · rw [Bool.and_eq_true] at ha ⊢
      exact ⟨ha.1, ih ha.2⟩

theorem Closed.append {sep : Char} {a b : List Char} (ha : Closed sep a) (hb : Closed sep b) : Closed sep (a ++ b) :=
  closedFrom_append ha hb

/-- text without backslashes and separators -/
theorem closed_of_plain {sep : Char} {cs : List Char} (h : ∀ c ∈ cs, c ≠ '\\' ∧ c ≠ sep) : Closed sep cs := by
  induction cs with
  | nil => rfl
  | cons c cs ih =>
    obtain ⟨⟨hback, hsep⟩, hrest⟩ := List.forall_mem_cons.1 h
    unfold Closed closedFrom
    rw [if_neg (by simp), if_neg hback, Bool.and_eq_true]
    exact ⟨by simpa using hsep, ih hrest⟩

/-- a closed piece is read whole -/
theorem splitFrom_append {sep : Char} {escaped : Bool} {a : List Char} (ha : closedFrom sep escaped a = true)
    (piece cs : List Char) : splitFrom sep escaped piece (a ++ cs) = splitFrom sep false (piece ++ a) cs := by
  induction a generalizing escaped piece with
  | nil =>
    cases escaped with
    | false => rw [List.nil_append, List.append_nil]
    | true => cases ha
  | cons c a ih =>
    rw [List.cons_append]
    unfold closedFrom at ha
    conv_lhs => unfold splitFrom
    have happend : piece ++ c :: a = piece ++ [c] ++ a := by simp
    split_ifs at ha ⊢ with h1 h2 h3
    · rw [ih ha, happend]
    · rw [ih ha, happend]
    · simp [h3] at ha
    · rw [Bool.and_eq_true] at ha
      rw [ih ha.2, happend]

theorem splitFrom_sep {sep : Char} (hsep : sep ≠ '\\') (piece cs : List Char) :
    splitFrom sep false piece (sep :: cs) = piece :: split sep cs := by
  rw [splitFrom, if_neg (by simp), if_neg hsep, if_pos rfl]
  rfl

theorem split_closed {sep : Char} (hsep : sep ≠ '\\') {a : List Char} (ha : Closed sep a) (cs : List Char) :
    split sep (a ++ sep :: cs) = a :: split sep cs := by
  rw [split, splitFrom_append ha, List.nil_append, splitFrom_sep hsep]

/-- **Pieces that end with the separator are found again** -/
theorem split_terminated {sep : Char} (hsep : sep ≠ '\\') {parts : List (List Char)} (h : ∀ p ∈ parts, Closed sep p) :
    split sep (parts.flatMap (· ++ [sep])) = parts ++ [[]] := by
  induction parts with
  | nil => rfl
  | cons p parts ih =>
    obtain ⟨hp, hrest⟩ := List.forall_mem_cons.1 h
    rw [List.flatMap_cons, List.append_assoc, List.singleton_append, split_closed hsep hp, ih hrest, List.cons_append]

/-- **Pieces with the separator between them are found again** -/
theorem split_join {sep : Char} (hsep : sep ≠ '\\') {parts : List (List Char)} (hne : parts ≠ [])
    (h : ∀ p ∈ parts, Closed sep p) : split sep ([sep].intercalate parts) = parts := by
  induction parts with
  | nil => exact absurd rfl hne
  | cons p parts ih =>
    obtain ⟨hp, hrest⟩ := List.forall_mem_cons.1 h
    cases parts with
    | nil =>
      have := splitFrom_append hp [] []
      rw [List.append_nil] at this
      rw [List.intercalate_singleton, split, this]
      rfl
    | cons q parts =>
      rw [List.intercalate_cons_cons, List.append_assoc, List.singleton_append, split_closed hsep hp,
        ih (List.cons_ne_nil q parts) hrest]

theorem closed_join {sep other : Char} (hother : other ≠ '\\') (hne : other ≠ sep) {parts : List (List Char)}
    (h : ∀ p ∈ parts, Closed sep p) : Closed sep ([other].intercalate parts) := by
  have hsingle : Closed sep [other] := closed_of_plain fun c hc => by
    rw [List.mem_singleton.1 hc]
    exact ⟨hother, hne⟩
  induction parts with
  | nil => rfl
  | cons p parts ih =>
    obtain ⟨hp, hrest⟩ := List.forall_mem_cons.1 h
    cases parts with
    | nil =>
      rw [List.intercalate_singleton]
      exact hp
    | cons q parts =>
      rw [List.intercalate_cons_cons]
      exact (hp.append hsingle).append (ih hrest)

end Escaped
