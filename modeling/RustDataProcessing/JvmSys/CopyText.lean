/-
The text sent to `COPY … FROM STDIN` (`append_copy_text_field` in `bindings/jvm-sys/src/pipeline_run.rs`), and what
PostgreSQL reads of it.

A backslash, a line feed, a carriage return and a tab are escaped; the other control characters are refused. The server
splits the text at line feeds and tabs that no backslash protects, takes a field that reads `\N` for NULL, and undoes the
escapes of the others: those of the writer, and the octal and hexadecimal ones it never writes. Characters stand for
their UTF-8 bytes: all that is special is ASCII.

- `field_closed`: no field moves a boundary.
- `decodeField_field`: each field is read as its cell.
- `copy_round_trip`: the server reads the rows.
-/
import Mathlib.Tactic
import RustDataProcessing.Lib.Display
import RustDataProcessing.Lib.Escaped
import RustDataProcessing.Lib.Traverse
import RustDataProcessing.Types

namespace RustDataProcessing.JvmSys

open Escaped (Closed)

/-! ## Writing -/

/-- `{:04X}` -/
def hex4 (n : ℕ) : String :=
  let digits := (Nat.toDigits 16 n).map Char.toUpper
  String.ofList (List.replicate (4 - digits.length) '0' ++ digits)

/-- a control character other than NUL, tab, line feed and carriage return -/
def isRefused (c : Char) : Bool :=
  (0x01 ≤ c.toNat && c.toNat ≤ 0x08) || c.toNat = 0x0B || c.toNat = 0x0C || (0x0E ≤ c.toNat && c.toNat ≤ 0x1F)

def copyChar (c : Char) : Except String (List Char) :=
  if c = '\\' then .ok ['\\', '\\']
  else if c = '\n' then .ok ['\\', 'n']
  else if c = '\r' then .ok ['\\', 'r']
  else if c = '\t' then .ok ['\\', 't']
  else if isRefused c then .error ("unsupported control character in Utf8 cell (U+" ++ hex4 c.toNat ++ ")")
  else .ok [c]

def appendCopyTextField : Value → Except String (List Char)
  | .null => .ok ['\\', 'N']
  | .int64 i => .ok (RustStd.displayI64 i).toList
  | .float64 x => .ok (RustStd.displayF64 x).toList
  | .bool b => .ok [if b then 't' else 'f']
  | .utf8 s => (s.toList.mapM copyChar).map List.flatten

/-- the row loop: a tab between fields, a line feed after the last -/
def copyRow (row : Row) : Except String (List Char) :=
  (row.mapM appendCopyTextField).map fun fields => ['\t'].intercalate fields ++ ['\n']

def copyText (rows : List Row) : Except String (List Char) := (rows.mapM copyRow).map List.flatten

/-! ## Reading, by the server's rules -/

/-- where a field's text is: after a backslash, or in a number of some digits -/
inductive EscapeMode where
  | plain
  | escape
  | octal (digits value : ℕ)
  | hex (digits value : ℕ)
deriving DecidableEq, Repr

def octalValue (c : Char) : Option ℕ := if '0' ≤ c ∧ c ≤ '7' then some (c.toNat - '0'.toNat) else none

def hexValue (c : Char) : Option ℕ :=
  if c.isDigit then some (c.toNat - '0'.toNat)
  else if 'a' ≤ c ∧ c ≤ 'f' then some (c.toNat - 'a'.toNat + 10)
  else if 'A' ≤ c ∧ c ≤ 'F' then some (c.toNat - 'A'.toNat + 10)
  else none

/-- the character after a backslash, where it is not a number's -/
def controlOf (c : Char) : Char :=
  if c = 'b' then Char.ofNat 0x08
  else if c = 'f' then Char.ofNat 0x0C
  else if c = 'n' then '\n'
  else if c = 'r' then '\r'
  else if c = 't' then '\t'
  else if c = 'v' then Char.ofNat 0x0B
  else c

/-- what a finished number stands for: of a hexadecimal one without digits, its letter -/
def EscapeMode.finish : EscapeMode → List Char
  | .octal _ value => [Char.ofNat (value % 256)]
  | .hex 0 _ => ['x']
  | .hex _ value => [Char.ofNat (value % 256)]
  | _ => []

def unescapePlain (c : Char) : EscapeMode × List Char := if c = '\\' then (.escape, []) else (.plain, [c])

def unescapeStep (m : EscapeMode) (c : Char) : EscapeMode × List Char :=
  match m with
  | .plain => unescapePlain c
  | .escape => match octalValue c with
    | some value => (.octal 1 value, [])
    | none => if c = 'x' then (.hex 0 0, []) else (.plain, [controlOf c])
  | .octal digits value => match octalValue c with
    | some d => if digits < 3 then (.octal (digits + 1) (8 * value + d), [])
      else ((unescapePlain c).1, m.finish ++ (unescapePlain c).2)
    | none => ((unescapePlain c).1, m.finish ++ (unescapePlain c).2)
  | .hex digits value => match hexValue c with
    | some d => if digits < 2 then (.hex (digits + 1) (16 * value + d), [])
      else ((unescapePlain c).1, m.finish ++ (unescapePlain c).2)
    | none => ((unescapePlain c).1, m.finish ++ (unescapePlain c).2)

def unescapeFrom (m : EscapeMode) : List Char → List Char
  | [] => m.finish
  | c :: cs => (unescapeStep m c).2 ++ unescapeFrom (unescapeStep m c).1 cs

/-- NULL, or the text of a field -/
def decodeField (raw : List Char) : Option String :=
  if raw = ['\\', 'N'] then none else some (String.ofList (unescapeFrom .plain raw))

/-- the rows of a text, up to an end marker -/
def decodeCopy (text : List Char) : List (List (Option String)) :=
  let pieces := Escaped.split '\n' text
  let lines := if pieces.getLast? = some [] then pieces.dropLast else pieces
  (lines.takeWhile (· ≠ ['\\', '.'])).map fun line => (Escaped.split '\t' line).map decodeField

example : decodeField "\\x41\\102c".toList = some "ABc" := by decide

/-- what a cell is to the server: NULL, or a text for its column's type to read -/
def fieldText : Value → Option String
  | .null => none
  | .int64 i => some (RustStd.displayI64 i)
  | .float64 x => some (RustStd.displayF64 x)
  | .bool b => some (if b then "t" else "f")
  | .utf8 s => some s

/-! ## One field -/

/-- a character is written as it is, or as a backslash and its letter -/
theorem copyChar_cases {c : Char} {out : List Char} (h : copyChar c = .ok out) :
    (out = [c] ∧ c ≠ '\\' ∧ c ≠ '\n' ∧ c ≠ '\t') ∨
      ∃ e ∈ ['\\', 'n', 'r', 't'], out = ['\\', e] ∧ controlOf e = c := by
  unfold copyChar at h
  split_ifs at h with h1 h2 h3 h4 h5
  · exact Or.inr ⟨'\\', by decide, (Except.ok.inj h).symm, h1.symm⟩
  · exact Or.inr ⟨'n', by decide, (Except.ok.inj h).symm, h2.symm⟩
  · exact Or.inr ⟨'r', by decide, (Except.ok.inj h).symm, h3.symm⟩
  · exact Or.inr ⟨'t', by decide, (Except.ok.inj h).symm, h4.symm⟩
  · exact Or.inl ⟨(Except.ok.inj h).symm, h1, h2, h4⟩

theorem closed_copyChar {sep c : Char} {out : List Char} (hsep : sep = '\n' ∨ sep = '\t') (h : copyChar c = .ok out) :
    Closed sep out := by
  rcases copyChar_cases h with ⟨rfl, h1, h2, h3⟩ | ⟨e, -, rfl, -⟩
  · refine Escaped.closed_of_plain fun d hd => ?_
    rw [List.mem_singleton.1 hd]
    rcases hsep with rfl | rfl
    · exact ⟨h1, h2⟩
    · exact ⟨h1, h3⟩
  · rfl

theorem unescape_plain {c : Char} (h : c ≠ '\\') (cs : List Char) :
    unescapeFrom .plain (c :: cs) = c :: unescapeFrom .plain cs := by
  rw [unescapeFrom, unescapeStep, unescapePlain, if_neg h]
  rfl

theorem unescape_copyChar {c : Char} {out : List Char} (h : copyChar c = .ok out) (cs : List Char) :
    unescapeFrom .plain (out ++ cs) = c :: unescapeFrom .plain cs := by
  rcases copyChar_cases h with ⟨rfl, h1, -, -⟩ | ⟨e, he, rfl, hc⟩
  · exact unescape_plain h1 cs
  · have hletters : ∀ e ∈ ['\\', 'n', 'r', 't'], unescapeStep .escape e = (.plain, [controlOf e]) := by decide
    have hrun : unescapeFrom .plain ('\\' :: e :: cs) =
        (unescapeStep .escape e).2 ++ unescapeFrom (unescapeStep .escape e).1 cs := rfl
    rw [List.cons_append, List.singleton_append, hrun, hletters e he, hc]
    rfl

/-- the written characters of a text -/
theorem field_utf8 {s : String} {t : List Char} (h : appendCopyTextField (.utf8 s) = .ok t) :
    ∃ outs, List.Forall₂ (fun c out => copyChar c = .ok out) s.toList outs ∧ t = outs.flatten := by
  rw [appendCopyTextField] at h
  cases houts : s.toList.mapM copyChar with
  | error e => rw [houts] at h; cases h
  | ok outs =>
    rw [houts] at h
    exact ⟨outs, Traverse.mapM_eq_ok_iff.1 houts, (Except.ok.inj h).symm⟩

/-- a value other than null and text is written without special characters -/
theorem field_plain {v : Value} {t : List Char} (h : appendCopyTextField v = .ok t) (hnull : v ≠ .null)
    (htext : ∀ s, v ≠ .utf8 s) : fieldText v = some (String.ofList t) ∧ ∀ c ∈ t, c ≠ '\\' ∧ c ≠ '\n' ∧ c ≠ '\t' := by
  have hnumeral : ∀ c, RustStd.isNumeral c = true ∨ c.isAlpha = true → c ≠ '\\' ∧ c ≠ '\n' ∧ c ≠ '\t' := by
    intro c hc
    refine ⟨?_, ?_, ?_⟩ <;> (rintro rfl; revert hc; decide)
  cases v with
  | null => exact absurd rfl hnull
  | utf8 s => exact absurd rfl (htext s)
  | int64 i =>
    obtain rfl : (RustStd.displayI64 i).toList = t := Except.ok.inj h
    exact ⟨by simp [fieldText], fun c hc => hnumeral c (Or.inl (RustStd.numeral_displayI64 i c hc))⟩
  | float64 x =>
    obtain rfl : (RustStd.displayF64 x).toList = t := Except.ok.inj h
    exact ⟨by simp [fieldText], fun c hc => hnumeral c (RustStd.displayF64_chars x c hc)⟩
  | bool b =>
    obtain rfl : [if b then 't' else 'f'] = t := Except.ok.inj h
    cases b <;> decide

/-- **No field moves a boundary** -/
theorem field_closed {sep : Char} (hsep : sep = '\n' ∨ sep = '\t') {v : Value} {t : List Char}
    (h : appendCopyTextField v = .ok t) : Closed sep t := by
  by_cases hnull : v = .null
  · subst hnull
    obtain rfl : ['\\', 'N'] = t := Except.ok.inj h
    rfl
  by_cases htext : ∃ s, v = .utf8 s
  · obtain ⟨s, rfl⟩ := htext
    obtain ⟨outs, houts, rfl⟩ := field_utf8 h
    clear h
    generalize s.toList = cs at houts
    induction houts with
    | nil => rfl
    | cons hout _ ih =>
      rw [List.flatten_cons]
      exact (closed_copyChar hsep hout).append ih
  · obtain ⟨-, hplain⟩ := field_plain h hnull fun s hs => htext ⟨s, hs⟩
    refine Escaped.closed_of_plain fun c hc => ?_
    obtain ⟨h1, h2, h3⟩ := hplain c hc
    rcases hsep with rfl | rfl
    · exact ⟨h1, h2⟩
    · exact ⟨h1, h3⟩

/-- a field that begins with an escape begins with one of the writer's -/
theorem field_escape {v : Value} {e : Char} {rest : List Char} (h : appendCopyTextField v = .ok ('\\' :: e :: rest)) :
    v = .null ∨ e ∈ ['\\', 'n', 'r', 't'] := by
  by_cases hnull : v = .null
  · exact Or.inl hnull
  right
  by_cases htext : ∃ s, v = .utf8 s
  · obtain ⟨s, rfl⟩ := htext
    obtain ⟨outs, houts, hflat⟩ := field_utf8 h
    generalize s.toList = cs at houts
    cases houts with
    | nil => cases hflat
    | cons hout _ =>
      rw [List.flatten_cons] at hflat
      rcases copyChar_cases hout with ⟨rfl, h1, -, -⟩ | ⟨d, hd, rfl, -⟩
      · obtain ⟨rfl, -⟩ := List.cons.inj hflat
        exact absurd rfl h1
      · obtain ⟨-, htail⟩ := List.cons.inj hflat
        obtain ⟨rfl, -⟩ := List.cons.inj htail
        exact hd
  · obtain ⟨-, hplain⟩ := field_plain h hnull fun s hs => htext ⟨s, hs⟩
    exact absurd rfl (hplain _ List.mem_cons_self).1

/-- **Each field is read as its cell** -/
theorem decodeField_field {v : Value} {t : List Char} (h : appendCopyTextField v = .ok t) : decodeField t = fieldText v := by
  by_cases hnull : v = .null
  · subst hnull
    obtain rfl : ['\\', 'N'] = t := Except.ok.inj h
    rfl
  have hne : t ≠ ['\\', 'N'] := by
    rintro rfl
    rcases field_escape h with hv | he
    · exact hnull hv
    · revert he
      decide
  rw [decodeField, if_neg hne]
  by_cases htext : ∃ s, v = .utf8 s
  · obtain ⟨s, rfl⟩ := htext
    obtain ⟨outs, houts, rfl⟩ := field_utf8 h
    have hread : unescapeFrom .plain outs.flatten = s.toList := by
      clear h hne hnull
      generalize s.toList = cs at houts
      induction houts with
      | nil => rfl
      | cons hout _ ih => rw [List.flatten_cons, unescape_copyChar hout, ih]
    rw [hread, String.ofList_toList, fieldText]
  · obtain ⟨hfield, hplain⟩ := field_plain h hnull fun s hs => htext ⟨s, hs⟩
    have hread : ∀ cs : List Char, (∀ c ∈ cs, c ≠ '\\') → unescapeFrom .plain cs = cs := by
      intro cs
      induction cs with
      | nil => intro _; rfl
      | cons c cs ih =>
        intro hcs
        obtain ⟨hc, hrest⟩ := List.forall_mem_cons.1 hcs
        rw [unescape_plain hc, ih hrest]
    rw [hfield, hread t fun c hc => (hplain c hc).1]

/-! ## Rows -/

/-- one line: it ends where it should, is not the end marker, and its fields are the row's cells -/
theorem row_line {row : Row} {out : List Char} (hrow : row ≠ []) (h : copyRow row = .ok out) :
    ∃ line, out = line ++ ['\n'] ∧ Closed '\n' line ∧ line ≠ ['\\', '.'] ∧
      (Escaped.split '\t' line).map decodeField = row.map fieldText := by
  rw [copyRow] at h
  cases hfields : row.mapM appendCopyTextField with
  | error e => rw [hfields] at h; cases h
  | ok fields =>
    rw [hfields] at h
    have hcells := Traverse.mapM_eq_ok_iff.1 hfields
    have hclosed : ∀ sep, sep = '\n' ∨ sep = '\t' → ∀ t ∈ fields, Closed sep t := by
      intro sep hsep t ht
      obtain ⟨i, hi, rfl⟩ := List.getElem_of_mem ht
      exact field_closed hsep (hcells.get (hcells.length_eq ▸ hi) hi)
    have hne : fields ≠ [] := by
      rintro rfl
      exact hrow (List.forall₂_nil_right_iff.1 hcells)
    have hdecode : fields.map decodeField = row.map fieldText := by
      clear h hfields hclosed hne hrow
      induction hcells with
      | nil => rfl
      | cons hv _ ih => rw [List.map_cons, List.map_cons, decodeField_field hv, ih]
    refine ⟨['\t'].intercalate fields, (Except.ok.inj h).symm,
      Escaped.closed_join (by decide) (by decide) (hclosed '\n' (Or.inl rfl)), ?_, ?_⟩
    · intro hmarker
      cases hcells with
      | nil => exact hne rfl
      | @cons v t row fields hv _ =>
        cases fields with
        | nil =>
          rw [List.intercalate_singleton] at hmarker
          subst hmarker
          rcases field_escape hv with rfl | he
          · cases hv
          · revert he
            decide
        | cons u fields =>
          have htab : '\t' ∈ ['\t'].intercalate (t :: u :: fields) := by
            rw [List.intercalate_cons_cons]
            simp
          rw [hmarker] at htab
          revert htab
          decide
    · rw [Escaped.split_join (by decide) hne (hclosed '\t' (Or.inr rfl)), hdecode]

/-- **The server reads the rows**, and NULL only where there is null -/
theorem copy_round_trip {rows : List Row} {text : List Char} (hrows : ∀ row ∈ rows, row ≠ [])
    (h : copyText rows = .ok text) :
    decodeCopy text = rows.map (fun row => row.map fieldText) ∧ ∀ v, fieldText v = none ↔ v = .null := by
  refine ⟨?_, fun v => by cases v <;> simp [fieldText]⟩
  rw [copyText] at h
  cases houts : rows.mapM copyRow with
  | error e => rw [houts] at h; cases h
  | ok outs =>
    rw [houts] at h
    obtain rfl : outs.flatten = text := Except.ok.inj h
    have hlines : ∃ lines : List (List Char), outs = lines.map (· ++ ['\n']) ∧ (∀ l ∈ lines, Closed '\n' l) ∧
        (∀ l ∈ lines, l ≠ ['\\', '.']) ∧
        lines.map (fun l => (Escaped.split '\t' l).map decodeField) = rows.map fun row => row.map fieldText := by
      have hforall := Traverse.mapM_eq_ok_iff.1 houts
      clear h houts
      induction hforall with
      | nil => exact ⟨[], rfl, by simp, by simp, rfl⟩
      | cons hrow _ ih =>
        obtain ⟨hne, hrest⟩ := List.forall_mem_cons.1 hrows
        obtain ⟨lines, rfl, h1, h2, h3⟩ := ih hrest
        obtain ⟨line, rfl, g1, g2, g3⟩ := row_line hne hrow
        exact ⟨line :: lines, rfl, List.forall_mem_cons.2 ⟨g1, h1⟩, List.forall_mem_cons.2 ⟨g2, h2⟩,
          by rw [List.map_cons, List.map_cons, g3, h3]⟩
    obtain ⟨lines, rfl, hclosed, hmarker, hdecode⟩ := hlines
    have hsplit : Escaped.split '\n' (lines.map (· ++ ['\n'])).flatten = lines ++ [[]] :=
      Escaped.split_terminated (by decide) hclosed
    have htake : lines.takeWhile (· ≠ ['\\', '.']) = lines :=
      List.takeWhile_eq_self_iff.2 fun l hl => by simpa using hmarker l hl
    unfold decodeCopy
    dsimp only
    rw [hsplit, List.getLast?_concat, if_pos rfl, List.dropLast_concat, htake, hdecode]

/-- a tab in a cell, and a text that reads like NULL beside one -/
theorem tab_and_null_read :
    decodeCopy "a\\tb\t\\N\n\\\\N\tt\n".toList = [[some "a\tb", none], [some "\\N", some "t"]] :=
  (@copy_round_trip [[.utf8 "a\tb", .null], [.utf8 "\\N", .bool true]] _ (by decide) rfl).1

end RustDataProcessing.JvmSys
