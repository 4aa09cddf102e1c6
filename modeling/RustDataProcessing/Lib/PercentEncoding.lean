/-
Percent-encoding of texts.

The characters an encoder keeps stand for themselves, every other one is written as its UTF-8 bytes in hexadecimal. So a
text is its own encoding exactly when all its characters are kept (`encode_eq_self_iff`).
-/
import Mathlib.Tactic

namespace PercentEncoding

/-- a digit below 16 -/
def hexDigit (n : ℕ) : Char := "0123456789ABCDEF".toList.getD n '0'

def encodeByte (b : UInt8) : List Char := ['%', hexDigit (b.toNat / 16), hexDigit (b.toNat % 16)]

section Encoder

variable (keep : Char → Bool)

def encodeChar (c : Char) : List Char := if keep c then [c] else (String.utf8EncodeChar c).flatMap encodeByte

def encodeChars (l : List Char) : List Char := l.flatMap (encodeChar keep)

def encode (s : String) : String := String.ofList (encodeChars keep s.toList)

theorem encodeChar_length {c : Char} (h : keep c = false) : 3 ≤ (encodeChar keep c).length := by
  have hbytes : ∀ l : List UInt8, (l.flatMap encodeByte).length = 3 * l.length := by
    intro l
    induction l with
    | nil => rfl
    | cons b l ih =>
      rw [List.flatMap_cons, List.length_append, ih, List.length_cons]
      simp only [encodeByte, List.length_cons, List.length_nil]
      omega
  have hpos : 0 < (String.utf8EncodeChar c).length := List.length_pos_iff.2 String.utf8EncodeChar_ne_nil
  rw [encodeChar, h, if_neg Bool.false_ne_true, hbytes]
  omega

theorem le_length_encodeChars (l : List Char) : l.length ≤ (encodeChars keep l).length := by
  induction l with
  | nil => simp
  | cons c l ih =>
    have hchar : 1 ≤ (encodeChar keep c).length := by
      cases h : keep c with
      | true => simp [encodeChar, h]
      | false =>
        have := encodeChar_length keep h
        omega
    simp only [encodeChars, List.flatMap_cons, List.length_append, List.length_cons] at ih ⊢
    omega

theorem encodeChars_eq_self_iff (l : List Char) : encodeChars keep l = l ↔ ∀ c ∈ l, keep c = true := by
  induction l with
  | nil => simp [encodeChars]
  | cons c l ih =>
    rw [List.forall_mem_cons, ← ih, encodeChars, List.flatMap_cons, ← encodeChars]
    cases h : keep c with
    | true => simp [encodeChar, h]
    | false =>
      -- the encoding of the character alone is longer than it
      refine iff_of_false (fun heq => ?_) (by simp)
      have hlength := congrArg List.length heq
      have hchar := encodeChar_length keep h
      have hrest := le_length_encodeChars keep l
      rw [List.length_append, List.length_cons] at hlength
      omega

/-- **A text is its own encoding** exactly when every character of it is kept -/
theorem encode_eq_self_iff (s : String) : encode keep s = s ↔ ∀ c ∈ s.toList, keep c = true := by
  rw [← encodeChars_eq_self_iff, encode, ← String.toList_inj, String.toList_ofList]

theorem encode_eq_empty_iff (s : String) : encode keep s = "" ↔ s = "" := by
  constructor
  · intro h
    have hlength := le_length_encodeChars keep s.toList
    have hnil : encodeChars keep s.toList = [] := by
      simpa [encode] using congrArg String.toList h
    rw [hnil, List.length_nil, Nat.le_zero, List.length_eq_zero_iff] at hlength
    exact String.toList_inj.1 hlength
  · rintro rfl
    rfl

end Encoder

end PercentEncoding
