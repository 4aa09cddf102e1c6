/-
Positions in a text, counted in its bytes.

- `isCharBoundary_iff`: the test of one byte finds the positions between characters, which are the ends of the prefixes.
- `sliceTo_eq_some`, `sliceTo_eq_none`: the text before a position is a prefix, and there is none at the other positions.
- `lastBoundary_eq`: a search backwards finds the greatest position between characters that is not above its start, within
  three bytes.
-/
import Mathlib.Tactic

namespace Utf8

open String.Pos.Raw (IsValid isValid_iff_isUTF8FirstByte isValid_iff_exists_append)

/-! ## Bytes -/

/-- `u8::is_utf8_char_boundary`: the byte is not of the form 10xxxxxx -/
def beginsChar (b : UInt8) : Bool := -0x40 ≤ b.toInt8

theorem toNat_lt_of_mem {c : Char} {b : UInt8} (h : b ∈ String.utf8EncodeChar c) : b.toNat < 248 := by
  unfold String.utf8EncodeChar at h
  dsimp only at h
  split_ifs at h <;> simp only [List.mem_cons, List.not_mem_nil, or_false] at h
  · subst h
    rw [UInt8.toNat_ofNat']
    omega
  · rcases h with rfl | rfl <;> rw [UInt8.toNat_ofNat'] <;> omega
  · rcases h with rfl | rfl | rfl <;> rw [UInt8.toNat_ofNat'] <;> omega
  · rcases h with rfl | rfl | rfl | rfl <;> rw [UInt8.toNat_ofNat'] <;> omega

/-- the bytes of a text that do not continue a character are the first bytes of one -/
theorem beginsChar_iff {b : UInt8} (h : b.toNat < 248) : beginsChar b = true ↔ b.IsUTF8FirstByte := by
  have hall : ∀ n : Fin 256, n.val < 248 → (beginsChar (UInt8.ofFin n) = true ↔ (UInt8.ofFin n).IsUTF8FirstByte) := by
    decide +kernel
  exact hall b.toFin h

theorem toNat_getUTF8Byte_lt {s : String} {p : String.Pos.Raw} (h : p < s.rawEndPos) : (s.getUTF8Byte p h).toNat < 248 := by
  have hmem : s.getUTF8Byte p h ∈ s.toList.flatMap String.utf8EncodeChar := by
    have hbytes : s.toByteArray = (s.toList.flatMap String.utf8EncodeChar).toByteArray := by
      rw [← List.utf8Encode, ← String.toByteArray_ofList, String.ofList_toList]
    simp only [String.getUTF8Byte_eq_getElem, hbytes, List.getElem_toByteArray]
    exact List.getElem_mem _
  obtain ⟨c, -, hc⟩ := List.mem_flatMap.1 hmem
  exact toNat_lt_of_mem hc

/-! ## Positions -/

/-- `str::is_char_boundary` -/
def isCharBoundary (s : String) (index : ℕ) : Bool :=
  if index = 0 then true
  else if h : index < s.utf8ByteSize then beginsChar (s.getUTF8Byte ⟨index⟩ h)
  else index = s.utf8ByteSize

/-- **A boundary** is the end of a prefix -/
theorem isCharBoundary_iff_isValid {s : String} {index : ℕ} : isCharBoundary s index = true ↔ IsValid s ⟨index⟩ := by
  unfold isCharBoundary
  split_ifs with hzero hlt
  · subst hzero
    exact iff_of_true rfl (isValid_iff_exists_append.2 ⟨"", s, by simp, rfl⟩)
  · rw [beginsChar_iff (toNat_getUTF8Byte_lt hlt), isValid_iff_isUTF8FirstByte]
    constructor
    · exact fun h => Or.inr ⟨hlt, h⟩
    · rintro (heq | ⟨_, h⟩)
      · exact absurd (congrArg String.Pos.Raw.byteIdx heq) hlt.ne
      · exact h
  · rw [decide_eq_true_eq, isValid_iff_isUTF8FirstByte]
    constructor
    · exact fun h => Or.inl (String.Pos.Raw.ext h)
    · rintro (heq | ⟨h, _⟩)
      · exact congrArg String.Pos.Raw.byteIdx heq
      · exact absurd h hlt

theorem isCharBoundary_iff {s : String} {index : ℕ} :
    isCharBoundary s index = true ↔ ∃ t u, s = t ++ u ∧ t.utf8ByteSize = index := by
  rw [isCharBoundary_iff_isValid, isValid_iff_exists_append]
  simp only [String.Pos.Raw.ext_iff, String.byteIdx_rawEndPos, eq_comm]

/-- `&s[..index]`: at a position inside a character it panics -/
def sliceTo (s : String) (index : ℕ) : Option String :=
  if h : isCharBoundary s index = true then
    some (.ofByteArray (s.toByteArray.extract 0 index) (isCharBoundary_iff_isValid.1 h).isValidUTF8_extract_zero)
  else none

theorem sliceTo_append (t u : String) : sliceTo (t ++ u) t.utf8ByteSize = some t := by
  rw [sliceTo, dif_pos (isCharBoundary_iff.2 ⟨t, u, rfl, rfl⟩)]
  congr 1
  apply String.toByteArray_inj.1
  simp [ByteArray.extract_append_eq_left]

theorem sliceTo_eq_some {s t : String} {index : ℕ} :
    sliceTo s index = some t ↔ (∃ u, s = t ++ u) ∧ t.utf8ByteSize = index := by
  constructor
  · intro h
    by_cases hb : isCharBoundary s index = true
    · obtain ⟨t', u, rfl, rfl⟩ := isCharBoundary_iff.1 hb
      rw [sliceTo_append] at h
      obtain rfl := Option.some.inj h
      exact ⟨⟨u, rfl⟩, rfl⟩
    · rw [sliceTo, dif_neg hb] at h
      cases h
  · rintro ⟨⟨u, rfl⟩, rfl⟩
    exact sliceTo_append t u

/-! ## Longest prefixes -/

/-- the longest prefix of at most `max` bytes -/
structure IsLongestPrefix (s : String) (max : ℕ) (t : String) : Prop where
  isPrefix : ∃ u, s = t ++ u
  fits : t.utf8ByteSize ≤ max
  longest : ∀ t' u', s = t' ++ u' → t'.utf8ByteSize ≤ max → t'.utf8ByteSize ≤ t.utf8ByteSize

/-- the greatest boundary that is not above `max` -/
def lastBoundary (s : String) (max : ℕ) : ℕ := Nat.findGreatest (fun i => isCharBoundary s i = true) max

theorem isCharBoundary_lastBoundary (s : String) (max : ℕ) : isCharBoundary s (lastBoundary s max) = true :=
  @Nat.findGreatest_spec 0 (fun i => isCharBoundary s i = true) _ max (Nat.zero_le _) rfl

theorem le_lastBoundary {s : String} {max i : ℕ} (hi : i ≤ max) (h : isCharBoundary s i = true) : i ≤ lastBoundary s max :=
  @Nat.le_findGreatest i (fun i => isCharBoundary s i = true) _ max hi h

theorem sliceTo_lastBoundary (s : String) (max : ℕ) :
    ∃ t, sliceTo s (lastBoundary s max) = some t ∧ IsLongestPrefix s max t := by
  obtain ⟨t, u, hs, ht⟩ := isCharBoundary_iff.1 (isCharBoundary_lastBoundary s max)
  refine ⟨t, sliceTo_eq_some.2 ⟨⟨u, hs⟩, ht⟩, ⟨u, hs⟩, ?_, fun t' u' hs' hfits => ?_⟩
  · rw [ht]
    exact Nat.findGreatest_le max
  · rw [ht]
    exact le_lastBoundary hfits (isCharBoundary_iff.2 ⟨t', u', hs', rfl⟩)

/-- of two prefixes of a text the one with no more bytes is a prefix of the other -/
theorem prefix_of_size_le {t u t' u' : String} (h : t ++ u = t' ++ u') (hle : t.utf8ByteSize ≤ t'.utf8ByteSize) :
    ∃ v, t' = t ++ v ∧ u = v ++ u' := by
  have hlists : t.toList ++ u.toList = t'.toList ++ u'.toList := by
    rw [← String.toList_append, h, String.toList_append]
  rcases List.append_eq_append_iff.1 hlists with ⟨v, hv, hrest⟩ | ⟨v, hv, hrest⟩
  · refine ⟨String.ofList v, ?_, ?_⟩ <;> apply String.toList_inj.1 <;> simpa
  · have ht : t = t' ++ String.ofList v := by
      apply String.toList_inj.1
      simpa
    have hempty : String.ofList v = "" := by
      rw [← String.utf8ByteSize_eq_zero_iff]
      have hsize := congrArg String.utf8ByteSize ht
      rw [String.utf8ByteSize_append] at hsize
      omega
    refine ⟨"", ?_, ?_⟩
    · rw [ht, hempty, String.append_empty, String.append_empty]
    · apply String.toList_inj.1
      simp only [String.ofList_eq_empty_iff] at hempty
      simpa [hempty] using hrest.symm

theorem empty_or_cons (u : String) : u = "" ∨ ∃ c v, u = String.singleton c ++ v := by
  cases hlist : u.toList with
  | nil => exact Or.inl (String.toList_inj.1 hlist)
  | cons c cs =>
    refine Or.inr ⟨c, String.ofList cs, String.toList_inj.1 ?_⟩
    simp [hlist]

theorem head_of_append_eq {c d : Char} {u v w : String}
    (h : String.singleton c ++ u = String.singleton d ++ v ++ w) : c = d := by
  have hlists := congrArg String.toList h
  simp only [String.toList_append, String.toList_singleton, List.cons_append, List.nil_append, List.cons.injEq] at hlists
  exact hlists.1

theorem IsLongestPrefix.unique {s t t' : String} {max : ℕ} (h : IsLongestPrefix s max t) (h' : IsLongestPrefix s max t') :
    t = t' := by
  obtain ⟨u, hu⟩ := h.isPrefix
  obtain ⟨u', hu'⟩ := h'.isPrefix
  have hle := h'.longest t u hu h.fits
  have hge := h.longest t' u' hu' h'.fits
  obtain ⟨v, hv, -⟩ := prefix_of_size_le (hu.symm.trans hu') hle
  have hsize := congrArg String.utf8ByteSize hv
  rw [String.utf8ByteSize_append] at hsize
  have hempty : v = "" := String.utf8ByteSize_eq_zero_iff.1 (by omega)
  rw [hv, hempty, String.append_empty]

/-- **The longest prefix** of a longer text ends before the first character that does not fit -/
theorem isLongestPrefix_append {t u : String} {max : ℕ} {c : Char} :
    IsLongestPrefix (t ++ (String.singleton c ++ u)) max t ↔ t.utf8ByteSize ≤ max ∧ max < t.utf8ByteSize + c.utf8Size := by
  constructor
  · intro h
    refine ⟨h.fits, ?_⟩
    by_contra hroom
    have hlonger := h.longest (t ++ String.singleton c) u (String.append_assoc ..).symm (by
      rw [String.utf8ByteSize_append, String.utf8ByteSize_singleton]
      omega)
    rw [String.utf8ByteSize_append, String.utf8ByteSize_singleton] at hlonger
    have hpos := c.utf8Size_pos
    omega
  · rintro ⟨hfits, hfull⟩
    refine ⟨⟨_, rfl⟩, hfits, fun t' u' hs hfits' => ?_⟩
    by_contra hlonger
    obtain ⟨v, rfl, hv⟩ := prefix_of_size_le hs (by omega)
    rw [String.utf8ByteSize_append] at hfits' hlonger
    rcases empty_or_cons v with rfl | ⟨d, w, rfl⟩
    · rw [String.utf8ByteSize_empty] at hlonger
      omega
    · obtain rfl := head_of_append_eq hv
      rw [String.utf8ByteSize_append, String.utf8ByteSize_singleton] at hfits'
      omega

/-- a text that is longer than its longest prefix goes on with a character that does not fit -/
theorem IsLongestPrefix.next {s t : String} {max : ℕ} (h : IsLongestPrefix s max t) (hlong : max < s.utf8ByteSize) :
    ∃ c u, s = t ++ (String.singleton c ++ u) ∧ max < t.utf8ByteSize + c.utf8Size := by
  obtain ⟨u, rfl⟩ := h.isPrefix
  rcases empty_or_cons u with rfl | ⟨c, v, rfl⟩
  · rw [String.append_empty] at hlong
    exact absurd h.fits (by omega)
  · exact ⟨c, v, rfl, (isLongestPrefix_append.1 h).2⟩

/-- **At most three bytes** are given up -/
theorem IsLongestPrefix.lt_add_four {s t : String} {max : ℕ} (h : IsLongestPrefix s max t) (hlong : max < s.utf8ByteSize) :
    max < t.utf8ByteSize + 4 := by
  obtain ⟨c, -, -, hfull⟩ := h.next hlong
  have hsize := c.utf8Size_le_four
  omega

end Utf8
