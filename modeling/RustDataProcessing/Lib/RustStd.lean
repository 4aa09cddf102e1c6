/-
The parts of Rust's standard library that the program's text handling calls, as documented, on characters:
- `str::trim` (Unicode White_Space on both ends) and `str::to_ascii_lowercase`;
- `str::parse::<i64>` with its four error kinds and their texts: the digits are checked and accumulated left to right,
  so an overflow is reported before an invalid digit that stands after it;
- `str::parse::<f64>`: the documented grammar, and the double nearest to the decimal (`Binary64.ofRatio`);
- `str::split` at a character;
- `Path::extension`.
-/
import Mathlib.Tactic
import Mathlib.Data.List.DropRight
import RustDataProcessing.Lib.Binary64

namespace RustStd

/-! ## Trimming and case -/

/-- what holds of each character of a text is decided on the text, and not on all characters -/
instance (priority := high) decidableForallChar (p : Char → Prop) [DecidablePred p] (l : List Char) :
    Decidable (∀ c ∈ l, p c) := List.decidableBAll p l

/-- Unicode White_Space -/
def isWhitespace (c : Char) : Bool :=
  let n := c.toNat
  (9 ≤ n && n ≤ 13) || n = 0x20 || n = 0x85 || n = 0xA0 || n = 0x1680 || (0x2000 ≤ n && n ≤ 0x200A) ||
    n = 0x2028 || n = 0x2029 || n = 0x202F || n = 0x205F || n = 0x3000

def trim (s : String) : String := String.ofList ((s.toList.dropWhile isWhitespace).rdropWhile isWhitespace)

theorem dropWhile_eq_self_of_imp {p q : Char → Bool} (hpq : ∀ c, q c = true → p c = true) {cs : List Char}
    (h : cs.dropWhile p = cs) : cs.dropWhile q = cs := by
  cases cs with
  | nil => rfl
  | cons c cs =>
    have hp : p c = false := by
      by_contra hc
      rw [List.dropWhile_cons_of_pos (by simpa using hc)] at h
      have := (List.dropWhile_suffix p (l := cs)).length_le
      rw [h, List.length_cons] at this
      omega
    rw [List.dropWhile_cons_of_neg]
    intro hq
    rw [hpq c hq] at hp
    cases hp

/-- text that has no blanks of one kind on its ends has none of a kind among them -/
theorem trimmed_of_imp {p q : Char → Bool} (hpq : ∀ c, q c = true → p c = true) {cs : List Char}
    (h : (cs.dropWhile p).rdropWhile p = cs) : (cs.dropWhile q).rdropWhile q = cs := by
  have hleft : cs.dropWhile p = cs := by
    refine (List.dropWhile_suffix p).eq_of_length ?_
    have h1 := (List.dropWhile_suffix p (l := cs)).length_le
    have h2 := (List.rdropWhile_prefix p (cs.dropWhile p)).length_le
    rw [h] at h2
    omega
  rw [hleft] at h
  have hright : cs.reverse.dropWhile p = cs.reverse := by
    rw [List.rdropWhile, List.reverse_eq_iff] at h
    exact h
  rw [dropWhile_eq_self_of_imp hpq hleft, List.rdropWhile, dropWhile_eq_self_of_imp hpq hright, List.reverse_reverse]

theorem trim_eq_self {s : String} : trim s = s ↔ (s.toList.dropWhile isWhitespace).rdropWhile isWhitespace = s.toList := by
  rw [trim, ← String.toList_inj, String.toList_ofList]

theorem trim_of_no_whitespace {s : String} (h : ∀ c ∈ s.toList, isWhitespace c = false) : trim s = s := by
  have hdrop : ∀ cs : List Char, (∀ c ∈ cs, isWhitespace c = false) → cs.dropWhile isWhitespace = cs := by
    intro cs hcs
    cases cs with
    | nil => rfl
    | cons c cs => rw [List.dropWhile_cons_of_neg (by simp [hcs c List.mem_cons_self])]
  rw [trim_eq_self, hdrop _ h, List.rdropWhile, hdrop _ fun c hc => h c (List.mem_reverse.1 hc), List.reverse_reverse]

theorem mem_of_mem_trim {s : String} {c : Char} (h : c ∈ (trim s).toList) : c ∈ s.toList := by
  rw [trim, String.toList_ofList] at h
  exact (List.dropWhile_suffix _).subset ((List.rdropWhile_prefix _ _).subset h)

def toAsciiLowercase (s : String) : String := String.ofList (s.toList.map Char.toLower)

/-- `s.split(sep)` -/
def split (s : String) (sep : Char) : List String := (s.toList.splitOn sep).map String.ofList

theorem split_eq_cons (s : String) (sep : Char) : ∃ seg rest, split s sep = seg :: rest := by
  have hne : split s sep ≠ [] := by
    simp only [split, ne_eq, List.map_eq_nil_iff]
    exact List.splitOnP_ne_nil _ _
  cases h : split s sep with
  | nil => exact absurd h hne
  | cons seg rest => exact ⟨seg, rest, rfl⟩

/-- `s.replace(c, text)` -/
def replace (s : String) (c : Char) (text : String) : String :=
  String.ofList (s.toList.flatMap fun d => if d = c then text.toList else [d])

/-- a list is cut at the first occurrence of an element -/
theorem cut_first {α : Type} [DecidableEq α] {a : α} {l : List α} (hl : a ∉ l) (m : List α) :
    (l ++ a :: m).takeWhile (· ≠ a) = l ∧ (l ++ a :: m).dropWhile (· ≠ a) = a :: m := by
  have hne : ∀ b ∈ l, decide (b ≠ a) = true := fun b hb => decide_eq_true (ne_of_mem_of_not_mem hb hl)
  constructor
  · rw [List.takeWhile_append_of_pos hne]
    simp
  · rw [List.dropWhile_append_of_pos hne]
    simp

/-- and so in one way only -/
theorem cut_unique {α : Type} [DecidableEq α] {a : α} {x y z w : List α} (hx : a ∉ x) (hy : a ∉ y)
    (h : x ++ a :: z = y ++ a :: w) : x = y ∧ z = w := by
  have hxy : x = y := by rw [← (cut_first hx z).1, h, (cut_first hy w).1]
  subst hxy
  exact ⟨rfl, (List.cons.inj (List.append_cancel_left h)).2⟩

/-- `s.split_once(c)` -/
def splitOnce (s : String) (c : Char) : Option (String × String) :=
  match s.toList.dropWhile (· ≠ c) with
  | [] => none
  | _ :: rest => some (String.ofList (s.toList.takeWhile (· ≠ c)), String.ofList rest)

theorem splitOnce_some {s : String} {c : Char} {before after : List Char} (hs : s.toList = before ++ c :: after)
    (hbefore : c ∉ before) : splitOnce s c = some (String.ofList before, String.ofList after) := by
  obtain ⟨htake, hdrop⟩ := cut_first hbefore after
  rw [splitOnce, hs, hdrop, htake]

theorem splitOnce_none {s : String} {c : Char} (h : c ∉ s.toList) : splitOnce s c = none := by
  have hdrop : s.toList.dropWhile (· ≠ c) = [] :=
    List.dropWhile_eq_nil_iff.2 fun d hd => decide_eq_true (ne_of_mem_of_not_mem hd h)
  rw [splitOnce, hdrop]

/-- `{:?}` of a text: quotes, backslashes and the named control characters are escaped -/
def debugText (s : String) : String :=
  let escaped := s.toList.flatMap fun c =>
    if c = '"' ∨ c = '\\' then ['\\', c]
    else if c = '\n' then ['\\', 'n']
    else if c = '\r' then ['\\', 'r']
    else if c = '\t' then ['\\', 't']
    else [c]
  String.ofList ('"' :: escaped ++ ['"'])

/-- `{:?}` of a list of texts -/
def debugTexts (l : List String) : String := "[" ++ ", ".intercalate (l.map debugText) ++ "]"

def contains (s : String) (c : Char) : Bool := s.toList.contains c

/-- a text without the separator is one piece -/
theorem split_of_not_contains {s : String} {sep : Char} (h : contains s sep = false) : split s sep = [s] := by
  have hsplit : s.toList.splitOn sep = [s.toList] :=
    List.splitOnP_eq_singleton fun c hc => by
      rw [beq_eq_false_iff_ne]
      rintro rfl
      simp [contains, hc] at h
  rw [split, hsplit]
  simp

/-- a text with the separator is at least two pieces -/
theorem split_of_contains {s : String} {sep : Char} (h : contains s sep = true) :
    ∃ seg next rest, split s sep = seg :: next :: rest := by
  have hmem : sep ∈ s.toList := by simpa [contains] using h
  obtain ⟨before, after, hs⟩ := List.append_of_mem hmem
  have hsplit : s.toList.splitOn sep = before.splitOn sep ++ after.splitOn sep := by
    rw [hs, List.splitOn_append_cons_self]
  obtain ⟨b, bs, hbefore⟩ := List.exists_cons_of_ne_nil (List.splitOn_ne_nil sep before)
  obtain ⟨a, as, hafter⟩ := List.exists_cons_of_ne_nil (List.splitOn_ne_nil sep after)
  rw [split, hsplit, hbefore, hafter]
  cases bs with
  | nil => exact ⟨_, _, _, rfl⟩
  | cons c bs => exact ⟨_, _, _, rfl⟩

/-- `s.lines()`: the pieces between line feeds, each without a carriage return at its end; a last empty piece is none -/
def lines (s : String) : List String :=
  let pieces := s.toList.splitOn '\n'
  let pieces := if pieces.getLast? = some [] then pieces.dropLast else pieces
  pieces.map fun l => String.ofList (if l.getLast? = some '\r' then l.dropLast else l)

example : lines "a\r\nb\n" = ["a", "b"] := by decide

/-! ## parse::<i64> -/

def i64Min : ℤ := -2 ^ 63

def i64Max : ℤ := 2 ^ 63 - 1

theorem toInt_bounds (n : Int64) : i64Min ≤ n.toInt ∧ n.toInt ≤ i64Max := by
  have hlow := n.le_toInt
  have hhigh := n.toInt_lt
  unfold i64Min i64Max
  omega

/-- a float cast to `i64`, once its fraction is dropped -/
def saturateI64 (n : ℤ) : Int64 := Int64.ofInt (max i64Min (min n i64Max))

inductive IntErrorKind where
  | empty
  | invalidDigit
  | posOverflow
  | negOverflow
deriving DecidableEq, Repr

def IntErrorKind.text : IntErrorKind → String
  | .empty => "cannot parse integer from empty string"
  | .invalidDigit => "invalid digit found in string"
  | .posOverflow => "number too large to fit in target type"
  | .negOverflow => "number too small to fit in target type"

def digitOf (c : Char) : Option ℕ := if c.isDigit then some (c.toNat - '0'.toNat) else none

/-- the digit loop of `from_str_radix`, from the value accumulated so far -/
def parseDigits (negative : Bool) (acc : ℤ) : List Char → Except IntErrorKind ℤ
  | [] => .ok acc
  | c :: cs =>
    match digitOf c with
    | none => .error .invalidDigit
    | some d =>
      let n := if negative then acc * 10 - d else acc * 10 + d
      if n < i64Min then .error .negOverflow
      else if i64Max < n then .error .posOverflow
      else parseDigits negative n cs

def parseI64Chars : List Char → Except IntErrorKind ℤ
  | [] => .error .empty
  | ['+'] => .error .invalidDigit
  | ['-'] => .error .invalidDigit
  | '+' :: cs => parseDigits false 0 cs
  | '-' :: cs => parseDigits true 0 cs
  | cs => parseDigits false 0 cs

/-- `s.parse::<i64>()` -/
def parseI64 (s : String) : Except IntErrorKind Int64 := (parseI64Chars s.toList).map Int64.ofInt

/-! ## parse::<f64> -/

inductive FloatErrorKind where
  | empty
  | invalid
deriving DecidableEq, Repr

def FloatErrorKind.text : FloatErrorKind → String
  | .empty => "cannot parse float from empty string"
  | .invalid => "invalid float literal"

def natOfDigits (cs : List Char) : ℕ := cs.foldl (fun n c => n * 10 + (c.toNat - '0'.toNat)) 0

/-- `Exp`: nothing, or `e` with an optional sign and at least one digit -/
def parseExponent : List Char → Option ℤ
  | [] => some 0
  | e :: cs =>
    if e = 'e' ∨ e = 'E' then
      let (negative, ds) := match cs with
        | '-' :: ds => (true, ds)
        | '+' :: ds => (false, ds)
        | ds => (false, ds)
      if ds ≠ [] ∧ ds.all Char.isDigit then some (if negative then -(natOfDigits ds : ℤ) else natOfDigits ds) else none
    else none

/-- `Number`: digits with at most one point, at least one digit, then `Exp` -/
def parseNumber (negative : Bool) (cs : List Char) : Except FloatErrorKind Binary64 :=
  let whole := cs.takeWhile Char.isDigit
  let rest := cs.dropWhile Char.isDigit
  let (frac, rest) := match rest with
    | '.' :: r => (r.takeWhile Char.isDigit, r.dropWhile Char.isDigit)
    | r => ([], r)
  if whole = [] ∧ frac = [] then .error .invalid
  else match parseExponent rest with
    | none => .error .invalid
    | some e =>
      let mantissa := natOfDigits (whole ++ frac)
      let scale := e - frac.length
      .ok (if 0 ≤ scale then .ofRatio negative (mantissa * 10 ^ scale.toNat) 1
        else .ofRatio negative mantissa (10 ^ (-scale).toNat))

def parseUnsigned (negative : Bool) (cs : List Char) : Except FloatErrorKind Binary64 :=
  let name := String.ofList (cs.map Char.toLower)
  if name = "inf" ∨ name = "infinity" then .ok (.infinity negative)
  else if name = "nan" then .ok (if negative then .ofWord true Binary64.nan.word else .nan)
  else parseNumber negative cs

/-- `s.parse::<f64>()` -/
def parseF64 (s : String) : Except FloatErrorKind Binary64 :=
  match s.toList with
  | [] => .error .empty
  | '-' :: cs => parseUnsigned true cs
  | '+' :: cs => parseUnsigned false cs
  | cs => parseUnsigned false cs

example : parseI64 "-9223372036854775808" = .ok (Int64.ofInt (-2 ^ 63)) := by decide
example : parseI64 "9223372036854775808x" = .error .posOverflow := by decide
example : (parseF64 "1.5e1").toOption = some ⟨0x402E000000000000⟩ := by decide +kernel
example : (parseF64 ".").toOption = none := by decide

/-! ## parse::<bool> -/

/-- `s.parse::<bool>()` -/
def parseBool (s : String) : Except String Bool :=
  if s = "true" then .ok true
  else if s = "false" then .ok false
  else .error "provided string was not `true` or `false`"

/-! ## Path::extension -/

/-- the last normal component of a `/`-separated path: none after `..` or for a path with no component -/
def fileName (path : String) : Option String :=
  match ((split path '/').filter (fun c => c ≠ "" ∧ c ≠ ".")).getLast? with
  | none => none
  | some c => if c = ".." then none else some c

/-- what follows the last dot of the file name, unless that dot is the name's first character -/
def extension (path : String) : Option String :=
  match fileName path with
  | none => none
  | some name =>
    let after := (name.toList.reverse.takeWhile (· ≠ '.')).reverse
    let before := (name.toList.reverse.dropWhile (· ≠ '.')).tail
    if before = [] then none else some (String.ofList after)

/-- the last component of a joined path is the name it was joined with -/
theorem fileName_join {dir name : String} (hslash : '/' ∉ name.toList) (hne : name ≠ "") (hdot : name ≠ ".")
    (hup : name ≠ "..") : fileName (dir ++ "/" ++ name) = some name := by
  have hsplit : split (dir ++ "/" ++ name) '/' = split dir '/' ++ [name] := by
    have hlist : (dir ++ "/" ++ name).toList = dir.toList ++ '/' :: name.toList := by simp
    rw [split, split, hlist, List.splitOn_append_cons_self, List.splitOn_eq_singleton hslash, List.map_append]
    simp
  have hlast : ((split (dir ++ "/" ++ name) '/').filter fun c => c ≠ "" ∧ c ≠ ".").getLast? = some name := by
    rw [hsplit, List.filter_append]
    simp [hne, hdot]
  unfold fileName
  rw [hlast]
  dsimp only
  rw [if_neg hup]

/-- what stands after the dot -/
theorem extension_of_fileName {path stem ext : String} (hfile : fileName path = some (stem ++ "." ++ ext))
    (hstem : stem ≠ "") (hext : '.' ∉ ext.toList) : extension path = some ext := by
  have hlist : (stem ++ "." ++ ext).toList.reverse = ext.toList.reverse ++ '.' :: stem.toList.reverse := by simp
  have hnodot : ∀ c ∈ ext.toList.reverse, decide (c ≠ '.') = true := by
    intro c hc
    rw [decide_eq_true_eq]
    rintro rfl
    exact hext (List.mem_reverse.1 hc)
  have htake : (stem ++ "." ++ ext).toList.reverse.takeWhile (· ≠ '.') = ext.toList.reverse := by
    rw [hlist, List.takeWhile_append_of_pos hnodot]
    simp
  have hdrop : ((stem ++ "." ++ ext).toList.reverse.dropWhile (· ≠ '.')).tail = stem.toList.reverse := by
    rw [hlist, List.dropWhile_append_of_pos hnodot]
    simp
  unfold extension
  rw [hfile]
  dsimp only
  rw [htake, hdrop, if_neg (by simpa using hstem), List.reverse_reverse, String.ofList_toList]

/-- the extension is a matter of the file's name -/
theorem extension_congr {path path' : String} (h : fileName path = fileName path') : extension path = extension path' := by
  unfold extension
  rw [h]

example : extension "data/people.CSV" = some "CSV" := by decide
example : extension "data/.csv" = none := by decide

end RustStd
