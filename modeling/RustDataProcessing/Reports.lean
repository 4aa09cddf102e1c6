/-
Text for a prompt, cut off at a number of bytes (`src/reports.rs`).

A longer text is cut at a position between characters, found by a loop that goes backwards, and a marker with the length of
the whole text follows. The slice panics at any other position.

- `endLoop_eq`: the loop stops at the greatest boundary, after three steps at most.
- `truncation_exact`: what is kept is the longest prefix that fits; and the text comes out unchanged exactly when it is not
  longer than the limit, or is what it is cut off to.
- `own_marker_unchanged`: a text of 29 bytes that is a marker for 29 bytes comes out unchanged for the limit 0.
-/
import Mathlib.Tactic
import RustDataProcessing.Lib.Utf8

namespace RustDataProcessing.Reports

open Utf8

/-! ## The source -/

/-- `while end > 0 && !input.is_char_boundary(end)` -/
def endLoop (input : String) : ℕ → ℕ
  | 0 => 0
  | e + 1 => if isCharBoundary input (e + 1) then e + 1 else endLoop input e

/-- none is the panic of the slice -/
def truncateUtf8ByBytes (input : String) (maxBytes : ℕ) : Option String :=
  if input.utf8ByteSize ≤ maxBytes then some input
  else do
    let kept ← sliceTo input (endLoop input maxBytes)
    some s!"{kept}… [truncated from {input.utf8ByteSize} bytes]"

/-! ## What is kept -/

def marker (bytes : ℕ) : String := s!"… [truncated from {bytes} bytes]"

/-- the text is what it is cut off to: the marker of its own length comes where the limit is -/
def OwnMarker (input : String) (maxBytes : ℕ) : Prop :=
  ∃ p, input = p ++ marker input.utf8ByteSize ∧ p.utf8ByteSize ≤ maxBytes ∧ maxBytes < p.utf8ByteSize + 3

/-- **The loop** finds the greatest boundary -/
theorem endLoop_eq (input : String) (e : ℕ) : endLoop input e = lastBoundary input e := by
  induction e with
  | zero => rfl
  | succ e ih =>
    rw [endLoop, lastBoundary, Nat.findGreatest_succ, ih, lastBoundary]

theorem marker_eq (bytes : ℕ) : marker bytes = String.singleton '…' ++ s!" [truncated from {bytes} bytes]" := by
  have hdots : "… [truncated from " = String.singleton '…' ++ " [truncated from " := by decide
  change "… [truncated from " ++ toString bytes ++ " bytes]" =
    String.singleton '…' ++ (" [truncated from " ++ toString bytes ++ " bytes]")
  rw [hdots]
  simp only [String.append_assoc]

theorem truncate_long {input : String} {maxBytes : ℕ} (hlong : maxBytes < input.utf8ByteSize) :
    ∃ kept, IsLongestPrefix input maxBytes kept ∧ endLoop input maxBytes = kept.utf8ByteSize ∧
      truncateUtf8ByBytes input maxBytes = some (kept ++ marker input.utf8ByteSize) := by
  obtain ⟨kept, hslice, hlongest⟩ := sliceTo_lastBoundary input maxBytes
  rw [← endLoop_eq] at hslice
  refine ⟨kept, hlongest, (sliceTo_eq_some.1 hslice).2.symm, ?_⟩
  rw [truncateUtf8ByBytes, if_neg hlong.not_ge, hslice]
  change some (kept ++ "… [truncated from " ++ toString input.utf8ByteSize ++ " bytes]") =
    some (kept ++ ("… [truncated from " ++ toString input.utf8ByteSize ++ " bytes]"))
  simp only [String.append_assoc]

/-- a text is cut off to itself -/
theorem eq_kept_iff {input kept : String} {maxBytes : ℕ} (h : IsLongestPrefix input maxBytes kept) :
    input = kept ++ marker input.utf8ByteSize ↔ OwnMarker input maxBytes := by
  have hdots : '…'.utf8Size = 3 := by decide
  constructor
  · intro heq
    refine ⟨kept, heq, h.fits, ?_⟩
    rw [heq, marker_eq] at h
    rw [← hdots]
    exact (isLongestPrefix_append.1 h).2
  · rintro ⟨p, heq, hfits, hfull⟩
    have hp : IsLongestPrefix input maxBytes p := by
      rw [heq, marker_eq]
      exact isLongestPrefix_append.2 ⟨hfits, by rwa [hdots]⟩
    rwa [h.unique hp]

/-- **Truncation by bytes**: the text comes out unchanged exactly when it is not longer than the limit, or is cut off to
itself. Otherwise the loop ends within three bytes, at the end of the longest prefix that fits, and the marker follows -/
theorem truncation_exact (input : String) (maxBytes : ℕ) :
    (truncateUtf8ByBytes input maxBytes = some input ↔
      input.utf8ByteSize ≤ maxBytes ∨ OwnMarker input maxBytes) ∧
    (maxBytes < input.utf8ByteSize → ∃ kept, IsLongestPrefix input maxBytes kept ∧
      endLoop input maxBytes = kept.utf8ByteSize ∧ maxBytes < kept.utf8ByteSize + 4 ∧
      truncateUtf8ByBytes input maxBytes = some (kept ++ marker input.utf8ByteSize)) := by
  rcases Nat.lt_or_ge maxBytes input.utf8ByteSize with hlong | hshort
  · obtain ⟨kept, hlongest, hloop, hout⟩ := truncate_long hlong
    refine ⟨?_, fun _ => ⟨kept, hlongest, hloop, hlongest.lt_add_four hlong, hout⟩⟩
    rw [hout, Option.some.injEq, eq_comm, eq_kept_iff hlongest]
    exact ⟨Or.inr, fun h => h.resolve_left hlong.not_ge⟩
  · refine ⟨iff_of_true (if_pos hshort) (Or.inl hshort), fun hlong => absurd hlong hshort.not_gt⟩

/-- **A marker of its own length** is longer than the limit, and comes out unchanged -/
theorem own_marker_unchanged :
    truncateUtf8ByBytes "… [truncated from 29 bytes]" 0 = some "… [truncated from 29 bytes]" ∧
    ¬(truncateUtf8ByBytes "… [truncated from 29 bytes]" 0 = some "… [truncated from 29 bytes]" ↔
      "… [truncated from 29 bytes]".utf8ByteSize ≤ 0) := by
  have hout : truncateUtf8ByBytes "… [truncated from 29 bytes]" 0 = some "… [truncated from 29 bytes]" := by
    decide +kernel
  refine ⟨hout, fun h => ?_⟩
  exact absurd (h.1 hout) (by decide)

end RustDataProcessing.Reports
