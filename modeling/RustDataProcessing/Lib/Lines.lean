/-
Text of several lines: what is written one line at a time is read back line by line.

A line that is not blank, has no blanks on its ends and no line break in it (`OneLine`) is found again:

- `trim_unlines`: trimming a text of such lines takes the last line feed, and no more;
- `lines_joinLines`: the lines of the trimmed text are the lines written;
- `spaced_core`: with blank lines anywhere between them, the lines of the trimmed text are the lines written and blank
  lines.
-/
import Mathlib.Tactic
import RustDataProcessing.Lib.RustStd

namespace RustStd

structure OneLine (line : String) : Prop where
  trimmed : trim line = line
  nonempty : line ≠ ""
  noFeed : '\n' ∉ line.toList
  noReturn : '\r' ∉ line.toList

/-- each line and a line feed -/
def unlines (ls : List String) : String := String.join (ls.map (· ++ "\n"))

/-- the lines with line feeds between them -/
def joinLines (ls : List String) : String := String.ofList (['\n'].intercalate (ls.map String.toList))

theorem joinLines_cons {l : String} {ls : List String} (h : ls ≠ []) : joinLines (l :: ls) = l ++ "\n" ++ joinLines ls := by
  have hne : ls.map String.toList ≠ [] := by simpa using h
  rw [← String.toList_inj]
  simp [joinLines, List.intercalate_cons_of_ne_nil hne]

theorem unlines_eq {ls : List String} (h : ls ≠ []) : unlines ls = joinLines ls ++ "\n" := by
  induction ls with
  | nil => exact absurd rfl h
  | cons l ls ih =>
    rcases eq_or_ne ls [] with rfl | hne
    · simp [unlines, joinLines]
    · have hcons : unlines (l :: ls) = l ++ "\n" ++ unlines ls := by simp [unlines]
      rw [hcons, ih hne, joinLines_cons hne]
      simp [String.append_assoc]

/-! ## The ends of a text -/

/-- the first and the last character are no blanks -/
structure Bounded (cs : List Char) : Prop where
  first : ∃ c rest, cs = c :: rest ∧ isWhitespace c = false
  last : ∃ rest c, cs = rest ++ [c] ∧ isWhitespace c = false

theorem Bounded.ne_nil {cs : List Char} (h : Bounded cs) : cs ≠ [] := by
  obtain ⟨c, rest, rfl, -⟩ := h.first
  exact List.cons_ne_nil c rest

theorem dropWhile_of_bounded {cs : List Char} (h : Bounded cs) (tail : List Char) :
    (cs ++ tail).dropWhile isWhitespace = cs ++ tail := by
  obtain ⟨c, rest, rfl, hc⟩ := h.first
  rw [List.cons_append, List.dropWhile_cons_of_neg (by simp [hc])]

theorem rdropWhile_of_bounded {cs : List Char} (h : Bounded cs) : cs.rdropWhile isWhitespace = cs := by
  obtain ⟨rest, c, rfl, hc⟩ := h.last
  exact List.rdropWhile_concat_neg _ _ _ (by simp [hc])

theorem trim_of_bounded {s : String} (h : Bounded s.toList) : trim s = s := by
  have hleft := dropWhile_of_bounded h []
  rw [List.append_nil] at hleft
  rw [trim, hleft, rdropWhile_of_bounded h, String.ofList_toList]

/-- a text without blanks on its ends, that is not empty -/
theorem OneLine.bounded {line : String} (h : OneLine line) : Bounded line.toList := by
  have htrim := trim_eq_self.1 h.trimmed
  have hleft : line.toList.dropWhile isWhitespace = line.toList := by
    refine (List.dropWhile_suffix isWhitespace).eq_of_length ?_
    have h1 := (List.dropWhile_suffix isWhitespace (l := line.toList)).length_le
    have h2 := (List.rdropWhile_prefix isWhitespace (line.toList.dropWhile isWhitespace)).length_le
    rw [htrim] at h2
    omega
  rw [hleft] at htrim
  have hne : line.toList ≠ [] := by simpa using h.nonempty
  constructor
  · obtain ⟨c, rest, hcs⟩ := List.exists_cons_of_ne_nil hne
    refine ⟨c, rest, hcs, ?_⟩
    by_contra hc
    rw [hcs, List.dropWhile_cons_of_pos (by simpa using hc)] at hleft
    have hlen := (List.dropWhile_suffix isWhitespace (l := rest)).length_le
    rw [hleft, List.length_cons] at hlen
    omega
  · obtain ⟨rest, c, hcs⟩ := List.eq_nil_or_concat' line.toList |>.resolve_left hne
    refine ⟨rest, c, hcs, ?_⟩
    by_contra hc
    rw [hcs, List.rdropWhile_concat_pos _ _ _ (by simpa using hc)] at htrim
    have hlen := (List.rdropWhile_prefix isWhitespace rest).length_le
    rw [htrim, List.length_append, List.length_singleton] at hlen
    omega

theorem bounded_joinLines {ls : List String} (h : ∀ l ∈ ls, OneLine l) (hne : ls ≠ []) : Bounded (joinLines ls).toList := by
  induction ls with
  | nil => exact absurd rfl hne
  | cons l ls ih =>
    obtain ⟨hl, hrest⟩ := List.forall_mem_cons.1 h
    rcases eq_or_ne ls [] with rfl | hls
    · simpa [joinLines] using hl.bounded
    · obtain ⟨c, first, hfirst, hc⟩ := hl.bounded.first
      obtain ⟨last, d, hlast, hd⟩ := (ih hrest hls).last
      have htext : (joinLines (l :: ls)).toList = l.toList ++ '\n' :: (joinLines ls).toList := by
        rw [joinLines_cons hls]
        simp
      constructor
      · exact ⟨c, _, by rw [htext, hfirst, List.cons_append], hc⟩
      · exact ⟨_, d, by rw [htext, hlast, ← List.cons_append, ← List.append_assoc], hd⟩

/-- **Trimming** takes the last line feed -/
theorem trim_unlines {ls : List String} (h : ∀ l ∈ ls, OneLine l) (hne : ls ≠ []) : trim (unlines ls) = joinLines ls := by
  have hbounded := bounded_joinLines h hne
  have hfeed : isWhitespace '\n' = true := by decide
  rw [unlines_eq hne, trim, String.toList_append, dropWhile_of_bounded hbounded]
  change String.ofList (((joinLines ls).toList ++ ['\n']).rdropWhile isWhitespace) = _
  rw [List.rdropWhile_concat_pos _ _ _ hfeed, rdropWhile_of_bounded hbounded, String.ofList_toList]

/-- **The lines** of what is left are the lines written -/
theorem lines_joinLines {ls : List String} (h : ∀ l ∈ ls, OneLine l) (hne : ls ≠ []) : lines (joinLines ls) = ls := by
  have hsplit : (joinLines ls).toList.splitOn '\n' = ls.map String.toList := by
    rw [joinLines, String.toList_ofList, List.splitOn_intercalate '\n' _ (by simpa using hne)]
    intro l hl
    obtain ⟨line, hline, rfl⟩ := List.mem_map.1 hl
    exact (h line hline).noFeed
  have hlast : (ls.map String.toList).getLast? ≠ some [] := by
    intro hnil
    obtain ⟨line, hline, hempty⟩ := List.mem_map.1 (List.mem_of_getLast? hnil)
    exact (h line hline).bounded.ne_nil hempty
  unfold lines
  simp only [hsplit, hlast, if_false, List.map_map]
  conv_rhs => rw [← List.map_id ls]
  refine List.map_congr_left fun line hline => ?_
  have hreturn : line.toList.getLast? ≠ some '\r' := fun hr => (h line hline).noReturn (List.mem_of_getLast? hr)
  simp [hreturn]

example : lines (trim (unlines ["1,2", "3"])) = ["1,2", "3"] := by decide

/-! ## Blank lines -/

theorem trim_eq_empty {s : String} : trim s = "" ↔ ∀ c ∈ s.toList, isWhitespace c = true := by
  rw [trim, ← String.toList_inj, String.toList_ofList, String.toList_empty, List.rdropWhile_eq_nil_iff]
  constructor
  · intro h c hc
    rw [← List.takeWhile_append_dropWhile (p := isWhitespace) (l := s.toList), List.mem_append] at hc
    rcases hc with hc | hc
    · exact List.mem_takeWhile_imp hc
    · exact h c hc
  · exact fun h c hc => h c ((List.dropWhile_suffix _).subset hc)

theorem trim_surrounded {before body behind : List Char} (hbefore : ∀ c ∈ before, isWhitespace c = true)
    (h : Bounded body) (hbehind : ∀ c ∈ behind, isWhitespace c = true) :
    trim (String.ofList (before ++ body ++ behind)) = String.ofList body := by
  have hleft : (before ++ body ++ behind).dropWhile isWhitespace = body ++ behind := by
    rw [List.append_assoc, List.dropWhile_append_of_pos hbefore, dropWhile_of_bounded h]
  have hright : (body ++ behind).rdropWhile isWhitespace = body := by
    rw [List.rdropWhile, List.reverse_append, List.dropWhile_append_of_pos (by simpa using hbehind), ← List.rdropWhile,
      rdropWhile_of_bounded h]
  rw [trim, String.toList_ofList, hleft, hright]

theorem toList_joinLines (l : String) (ls : List String) :
    (joinLines (l :: ls)).toList = l.toList ++ ls.flatMap fun p => '\n' :: p.toList := by
  induction ls generalizing l with
  | nil => simp [joinLines]
  | cons p ls ih =>
    rw [joinLines_cons (List.cons_ne_nil p ls), String.toList_append, ih p]
    simp

theorem mem_joinLines {p : String} {ls : List String} (h : p ∈ ls) {c : Char} (hc : c ∈ p.toList) :
    c ∈ (joinLines ls).toList := by
  obtain ⟨l, ls, rfl⟩ := List.exists_cons_of_ne_nil (List.ne_nil_of_mem h)
  rw [toList_joinLines, List.mem_append, List.mem_flatMap]
  rcases List.mem_cons.1 h with rfl | h
  · exact Or.inl hc
  · exact Or.inr ⟨p, h, List.mem_cons_of_mem _ hc⟩

/-- pieces of one line each; those that are not blank are the lines -/
structure Spaced (ls pieces : List String) : Prop where
  kept : pieces.filter (fun p => trim p ≠ "") = ls
  noFeed : ∀ p ∈ pieces, '\n' ∉ p.toList

/-- the blank pieces at the end -/
theorem exists_blank_end (pieces : List String) :
    ∃ kept blanks, pieces = kept ++ blanks ∧ (∀ p ∈ blanks, trim p = "") ∧
      (kept = [] ∨ ∃ front last, kept = front ++ [last] ∧ trim last ≠ "") := by
  induction pieces using List.reverseRecOn with
  | nil => exact ⟨[], [], rfl, by simp, Or.inl rfl⟩
  | append_singleton pieces last ih =>
    by_cases hlast : trim last = ""
    · obtain ⟨kept, blanks, rfl, hblanks, hkept⟩ := ih
      refine ⟨kept, blanks ++ [last], by simp, ?_, hkept⟩
      intro p hp
      rcases List.mem_append.1 hp with hp | hp
      · exact hblanks p hp
      · rw [List.mem_singleton.1 hp, hlast]
    · exact ⟨pieces ++ [last], [], by simp, by simp, Or.inr ⟨pieces, last, rfl, hlast⟩⟩

theorem filter_blank {blanks : List String} (h : ∀ p ∈ blanks, trim p = "") :
    blanks.filter (fun p => trim p ≠ "") = [] := by
  rw [List.filter_eq_nil_iff]
  intro p hp
  simp [h p hp]

theorem toList_joinLines_append (first : List String) (l : String) (ls : List String) :
    ∃ cs, (joinLines (first ++ l :: ls)).toList = cs ++ (joinLines (l :: ls)).toList ∧
      ∀ c ∈ cs, c = '\n' ∨ ∃ p ∈ first, c ∈ p.toList := by
  induction first with
  | nil => exact ⟨[], rfl, by simp⟩
  | cons p first ih =>
    obtain ⟨cs, hcs, hmem⟩ := ih
    refine ⟨p.toList ++ '\n' :: cs, ?_, ?_⟩
    · rw [List.cons_append, joinLines_cons (by simp), String.toList_append, hcs]
      simp
    · intro c hc
      simp only [List.mem_append, List.mem_cons] at hc
      rcases hc with hc | rfl | hc
      · exact Or.inr ⟨p, List.mem_cons_self, hc⟩
      · exact Or.inl rfl
      · exact (hmem c hc).imp_right fun ⟨q, hq, hcq⟩ => ⟨q, List.mem_cons_of_mem _ hq, hcq⟩

/-- **Blank lines** around the lines are trimmed away: what is left starts with the first line, ends with the last one,
and has the others between them -/
theorem spaced_core {l : String} {ls pieces : List String} (h : Spaced (l :: ls) pieces) (hone : ∀ p ∈ l :: ls, OneLine p) :
    ∃ rest, trim (joinLines pieces) = joinLines (l :: rest) ∧ Bounded (joinLines (l :: rest)).toList ∧
      rest.filter (fun p => trim p ≠ "") = ls ∧ (∀ p ∈ rest, '\n' ∉ p.toList) ∧
      (rest = [] ∨ ∃ front last, rest = front ++ [last] ∧ trim last ≠ "") := by
  obtain ⟨before, more, rfl, hbefore, -, hmore⟩ := List.filter_eq_cons_iff.1 h.kept
  obtain ⟨rest, blanks, rfl, hblanks, hend⟩ := exists_blank_end more
  have hrest : rest.filter (fun p => trim p ≠ "") = ls := by
    rw [← hmore, List.filter_append, filter_blank hblanks, List.append_nil]
  have hfeed : isWhitespace '\n' = true := by decide
  have hbounded : Bounded (joinLines (l :: rest)).toList := by
    obtain ⟨c, first, hfirst, hc⟩ := (hone l List.mem_cons_self).bounded.first
    refine ⟨⟨c, _, by rw [toList_joinLines, hfirst, List.cons_append], hc⟩, ?_⟩
    rcases hend with rfl | ⟨front, last, rfl, hlast⟩
    · simpa [joinLines] using (hone l List.mem_cons_self).bounded.last
    · have hmem : last ∈ ls := by
        rw [← hrest]
        exact List.mem_filter.2 ⟨by simp, by simpa using hlast⟩
      obtain ⟨init, d, hinit, hd⟩ := (hone last (List.mem_cons_of_mem _ hmem)).bounded.last
      refine ⟨l.toList ++ (front.flatMap fun p => '\n' :: p.toList) ++ '\n' :: init, d, ?_, hd⟩
      rw [toList_joinLines, List.flatMap_append]
      simp [hinit]
  refine ⟨rest, ?_, hbounded, hrest, fun p hp => h.noFeed p (by simp [hp]), hend⟩
  obtain ⟨cs, hcs, hspace⟩ := toList_joinLines_append before l (rest ++ blanks)
  have htext : (joinLines (before ++ l :: (rest ++ blanks))).toList =
      cs ++ (joinLines (l :: rest)).toList ++ blanks.flatMap fun p => '\n' :: p.toList := by
    rw [hcs, toList_joinLines, toList_joinLines, List.flatMap_append]
    simp
  have hblank : ∀ c ∈ cs, isWhitespace c = true := by
    intro c hc
    rcases hspace c hc with rfl | ⟨p, hp, hcp⟩
    · exact hfeed
    · exact trim_eq_empty.1 (by simpa using hbefore p hp) c hcp
  have hbehind : ∀ c ∈ blanks.flatMap (fun p => '\n' :: p.toList), isWhitespace c = true := by
    intro c hc
    obtain ⟨p, hp, hcp⟩ := List.mem_flatMap.1 hc
    rcases List.mem_cons.1 hcp with rfl | hcp
    · exact hfeed
    · exact trim_eq_empty.1 (hblanks p hp) c hcp
  rw [← String.ofList_toList (s := joinLines (before ++ _)), htext, trim_surrounded hblank hbounded hbehind,
    String.ofList_toList]

/-- `lines` takes the return at the end of a line, which trimming takes as well -/
theorem trim_chomp (cs : List Char) : trim (String.ofList (if cs.getLast? = some '\r' then cs.dropLast else cs)) =
    trim (String.ofList cs) := by
  split_ifs with hr
  · obtain ⟨front, rfl⟩ : ∃ front, cs = front ++ ['\r'] := ⟨_, (List.dropLast_append_getLast? _ hr).symm⟩
    have hreturn : isWhitespace '\r' = true := by decide
    rw [List.dropLast_concat, trim, trim, String.toList_ofList, String.toList_ofList, List.dropWhile_append]
    split_ifs with hempty
    · rw [List.isEmpty_iff.1 hempty, List.dropWhile_cons_of_pos hreturn]
      rfl
    · rw [List.rdropWhile_concat_pos _ _ _ hreturn]
  · rfl

/-- **The lines that are not blank**, trimmed, are the lines written -/
theorem lines_spaced {ls pieces : List String} (h : Spaced ls pieces) (hone : ∀ p ∈ ls, OneLine p) (hne : ls ≠ []) :
    ((lines (trim (joinLines pieces))).filter fun p => trim p ≠ "").map trim = ls := by
  obtain ⟨l, ls, rfl⟩ := List.exists_cons_of_ne_nil hne
  obtain ⟨rest, htrim, -, hrest, hfeed, hend⟩ := spaced_core h hone
  have hl := hone l List.mem_cons_self
  have hsplit : (joinLines (l :: rest)).toList.splitOn '\n' = (l :: rest).map String.toList := by
    rw [joinLines, String.toList_ofList, List.splitOn_intercalate '\n' _ (by simp)]
    intro cs hcs
    obtain ⟨p, hp, rfl⟩ := List.mem_map.1 hcs
    rcases List.mem_cons.1 hp with rfl | hp
    · exact hl.noFeed
    · exact hfeed p hp
  have hlast : ((l :: rest).map String.toList).getLast? ≠ some [] := by
    rcases hend with rfl | ⟨front, last, rfl, hlast⟩
    · simpa using hl.nonempty
    · have hnonempty : last ≠ "" := fun he => hlast (by rw [he]; decide)
      simpa [List.getLast?_cons] using hnonempty
  have hkept : (l :: rest).filter (fun p => trim p ≠ "") = l :: ls := by
    rw [List.filter_cons_of_pos (by simpa [hl.trimmed] using hl.nonempty), hrest]
  rw [htrim, lines]
  simp only [hsplit, hlast, if_false, List.map_map, List.filter_map, Function.comp_def, trim_chomp, String.ofList_toList,
    hkept]
  conv_rhs => rw [← List.map_id (l :: ls)]
  exact List.map_congr_left fun p hp => (hone p hp).trimmed

example : lines (trim (joinLines ["", "1,2", " ", "3", ""])) = ["1,2", " ", "3"] := by decide

end RustStd
