/-
Tokens of a text with quoted parts, in which a doubled closing mark stands for one.

A dialect says which characters open a quoted part and what closes each (`"` for `"`, `]` for `[`). The scanner is a
machine with three modes; a closing mark inside a part is only understood with the character after it.

- `render_tokens`: tokens say all of the text they were read from.
- `tokens_render`: a text in which every closing mark is doubled is read as the tokens it was written for.
- `tokens_append`: what follows a finished text is read by itself.
-/
import Mathlib.Tactic

namespace Quoted

inductive Token where
  | quoted (mark : Char) (s : List Char)
  | char (c : Char)
deriving DecidableEq, Repr

/-- what closes a part opened by a character: nothing, if it opens none -/
abbrev Dialect := Char → Option Char

/-! ## Scanning -/

inductive Mode where
  | plain
  | inside (mark close : Char) (content : List Char)
  | closing (mark close : Char) (content : List Char)

def openAt (d : Dialect) (c : Char) : Mode × List Token :=
  match d c with
  | some close => (.inside c close [], [])
  | none => (.plain, [.char c])

def step (d : Dialect) : Mode → Char → Mode × List Token
  | .plain, c => openAt d c
  | .inside mark close content, c =>
    if c = close then (.closing mark close content, []) else (.inside mark close (content ++ [c]), [])
  | .closing mark close content, c =>
    if c = close then (.inside mark close (content ++ [close]), [])
    else ((openAt d c).1, .quoted mark content :: (openAt d c).2)

/-- at the end of the text: an open part is an error -/
def finish : Mode → Option (List Token)
  | .plain => some []
  | .inside _ _ _ => none
  | .closing mark _ content => some [.quoted mark content]

def tokensFrom (d : Dialect) : Mode → List Char → Option (List Token)
  | m, [] => finish m
  | m, c :: cs => (tokensFrom d (step d m c).1 cs).map ((step d m c).2 ++ ·)

def tokens (d : Dialect) (cs : List Char) : Option (List Token) := tokensFrom d .plain cs

/-! ## Writing -/

def double (close : Char) (s : List Char) : List Char := s.flatMap fun c => if c = close then [close, close] else [c]

def renderToken (d : Dialect) : Token → List Char
  | .quoted mark s => mark :: double ((d mark).getD mark) s ++ [(d mark).getD mark]
  | .char c => [c]

def render (d : Dialect) (ts : List Token) : List Char := ts.flatMap (renderToken d)

theorem render_append (d : Dialect) (ts us : List Token) : render d (ts ++ us) = render d ts ++ render d us :=
  List.flatMap_append

theorem double_append (close : Char) (s t : List Char) : double close (s ++ t) = double close s ++ double close t :=
  List.flatMap_append

theorem length_double (close : Char) (s : List Char) : (double close s).length = s.length + s.count close := by
  induction s with
  | nil => rfl
  | cons c s ih =>
    have hcons : double close (c :: s) = (if c = close then [close, close] else [c]) ++ double close s := rfl
    rw [hcons, List.length_append, ih, List.length_cons, List.count_cons]
    by_cases hc : c = close
    · simp [hc]
      omega
    · simp [hc]
      omega

theorem double_of_not_mem {close : Char} {s : List Char} (h : close ∉ s) : double close s = s := by
  induction s with
  | nil => rfl
  | cons c s ih =>
    rw [List.mem_cons, not_or] at h
    have hcons : double close (c :: s) = (if c = close then [close, close] else [c]) ++ double close s := rfl
    rw [hcons, if_neg (Ne.symm h.1), ih h.2, List.singleton_append]

/-- plain text, character by character -/
def chars (s : List Char) : List Token := s.map .char

theorem render_chars (d : Dialect) (s : List Char) : render d (chars s) = s := by
  induction s with
  | nil => rfl
  | cons c s ih =>
    change c :: render d (chars s) = c :: s
    rw [ih]

/-! ## Tokens say all -/

/-- what a mode has read and not yet given out -/
def pending : Mode → List Char
  | .plain => []
  | .inside mark close content => mark :: double close content
  | .closing mark close content => mark :: double close content ++ [close]

def Mode.Ok (d : Dialect) : Mode → Prop
  | .plain => True
  | .inside mark close _ => d mark = some close
  | .closing mark close _ => d mark = some close

theorem openAt_spec (d : Dialect) (c : Char) :
    (openAt d c).1.Ok d ∧ render d (openAt d c).2 ++ pending (openAt d c).1 = [c] := by
  unfold openAt
  cases hc : d c with
  | none => exact ⟨trivial, rfl⟩
  | some close => exact ⟨hc, rfl⟩

/-- one character: it is given out or pending -/
theorem step_spec {d : Dialect} {m : Mode} (hm : m.Ok d) (c : Char) :
    (step d m c).1.Ok d ∧ render d (step d m c).2 ++ pending (step d m c).1 = pending m ++ [c] := by
  cases m with
  | plain => exact openAt_spec d c
  | inside mark close content =>
    rw [step]
    split_ifs with hc
    · subst hc
      exact ⟨hm, rfl⟩
    · refine ⟨hm, ?_⟩
      have hdouble : double close [c] = [c] := by simp [double, hc]
      simp [pending, render, double_append, hdouble]
  | closing mark close content =>
    rw [step]
    split_ifs with hc
    · subst hc
      refine ⟨hm, ?_⟩
      have hdouble : double c [c] = [c, c] := by simp [double]
      simp [pending, render, double_append, hdouble]
    · obtain ⟨hok, hrender⟩ := openAt_spec d c
      refine ⟨hok, ?_⟩
      have hmark : d mark = some close := hm
      have hcons : render d (.quoted mark content :: (openAt d c).2) =
          (mark :: double close content ++ [close]) ++ render d (openAt d c).2 := by
        simp [render, renderToken, hmark]
      rw [hcons, List.append_assoc, hrender]
      rfl

theorem render_tokensFrom {d : Dialect} {m : Mode} (hm : m.Ok d) {cs : List Char} {ts : List Token}
    (h : tokensFrom d m cs = some ts) : render d ts = pending m ++ cs := by
  induction cs generalizing m ts with
  | nil =>
    cases m with
    | plain =>
      obtain rfl : [] = ts := Option.some.inj h
      rfl
    | inside mark close content => cases h
    | closing mark close content =>
      obtain rfl : [.quoted mark content] = ts := Option.some.inj h
      have hmark : d mark = some close := hm
      simp [render, renderToken, hmark, pending]
  | cons c cs ih =>
    obtain ⟨hok, hrender⟩ := step_spec hm c
    rw [tokensFrom] at h
    obtain ⟨us, hus, rfl⟩ := Option.map_eq_some_iff.1 h
    rw [render_append, ih hok hus, ← List.append_assoc, hrender, List.append_assoc, List.singleton_append]

/-- **Tokens say all of the text** -/
theorem render_tokens {d : Dialect} {cs : List Char} {ts : List Token} (h : tokens d cs = some ts) :
    render d ts = cs := render_tokensFrom (m := .plain) trivial h

/-! ## Reading what was written -/

/-- plain characters open nothing, and no quoted part is followed by its own closing mark -/
def Separated (d : Dialect) : List Token → Prop
  | [] => True
  | .char c :: ts => d c = none ∧ Separated d ts
  | .quoted mark _ :: ts => (∃ close, d mark = some close ∧ (render d ts).head? ≠ some close) ∧ Separated d ts

theorem tokensFrom_inside (d : Dialect) (mark close : Char) (s content cs : List Char) :
    tokensFrom d (.inside mark close content) (double close s ++ cs) =
      tokensFrom d (.inside mark close (content ++ s)) cs := by
  induction s generalizing content with
  | nil => rw [List.append_nil]; rfl
  | cons c s ih =>
    have hcons : double close (c :: s) = (if c = close then [close, close] else [c]) ++ double close s := rfl
    rw [hcons]
    split_ifs with hc
    · subst hc
      have hstep : tokensFrom d (.inside mark c content) (c :: c :: (double c s ++ cs)) =
          tokensFrom d (.inside mark c (content ++ [c])) (double c s ++ cs) := by
        simp [tokensFrom, step]
      refine hstep.trans ?_
      rw [ih, List.append_assoc, List.singleton_append]
    · have hstep : tokensFrom d (.inside mark close content) (c :: (double close s ++ cs)) =
          tokensFrom d (.inside mark close (content ++ [c])) (double close s ++ cs) := by
        simp [tokensFrom, step, hc]
      refine hstep.trans ?_
      rw [ih, List.append_assoc, List.singleton_append]

theorem tokensFrom_closing {d : Dialect} {mark close : Char} {content cs : List Char} (h : cs.head? ≠ some close) :
    tokensFrom d (.closing mark close content) cs = (tokens d cs).map (.quoted mark content :: ·) := by
  cases cs with
  | nil => rfl
  | cons c cs =>
    have hc : c ≠ close := by
      rintro rfl
      exact h rfl
    simp [tokens, tokensFrom, step, hc, Option.map_map, Function.comp_def]

/-- **What was written is read** -/
theorem tokens_render {d : Dialect} {ts : List Token} (h : Separated d ts) : tokens d (render d ts) = some ts := by
  induction ts with
  | nil => rfl
  | cons t ts ih =>
    cases t with
    | char c =>
      obtain ⟨hc, hts⟩ := h
      have hstep : tokens d (c :: render d ts) = (tokens d (render d ts)).map (.char c :: ·) := by
        simp [tokens, tokensFrom, step, openAt, hc]
      exact hstep.trans (by rw [ih hts, Option.map_some])
    | quoted mark s =>
      obtain ⟨⟨close, hmark, hnext⟩, hts⟩ := h
      have hrender : render d (.quoted mark s :: ts) = mark :: (double close s ++ close :: render d ts) := by
        simp [render, renderToken, hmark]
      have hstep : tokens d (mark :: (double close s ++ close :: render d ts)) =
          tokensFrom d (.inside mark close []) (double close s ++ close :: render d ts) := by
        simp [tokens, tokensFrom, step, openAt, hmark]
      rw [hrender, hstep, tokensFrom_inside, List.nil_append]
      have hclose : tokensFrom d (.inside mark close s) (close :: render d ts) =
          tokensFrom d (.closing mark close s) (render d ts) := by
        simp [tokensFrom, step]
      rw [hclose, tokensFrom_closing hnext, ih hts, Option.map_some]

/-- what follows cannot be taken for a closing mark -/
def Joinable (d : Dialect) (ts : List Token) : Prop := ∀ mark close, d mark = some close → (render d ts).head? ≠ some close

theorem separated_append {d : Dialect} {a b : List Token} (ha : Separated d a) (hb : Separated d b)
    (hjoin : Joinable d b) : Separated d (a ++ b) := by
  induction a with
  | nil => exact hb
  | cons t a ih =>
    cases t with
    | char c => exact ⟨ha.1, ih ha.2⟩
    | quoted mark s =>
      obtain ⟨⟨close, hmark, hnext⟩, hrest⟩ := ha
      refine ⟨⟨close, hmark, ?_⟩, ih hrest⟩
      change (render d (a ++ b)).head? ≠ some close
      rw [render_append, List.head?_append]
      cases hhead : (render d a).head? with
      | none => exact hjoin mark close hmark
      | some c =>
        rw [hhead] at hnext
        exact hnext

theorem separated_chars_append {d : Dialect} {s : List Char} {ts : List Token} (h : ∀ c ∈ s, d c = none)
    (hts : Separated d ts) : Separated d (chars s ++ ts) := by
  induction s with
  | nil => exact hts
  | cons c s ih =>
    obtain ⟨hc, hs⟩ := List.forall_mem_cons.1 h
    exact ⟨hc, ih hs⟩

theorem separated_chars {d : Dialect} {s : List Char} (h : ∀ c ∈ s, d c = none) : Separated d (chars s) := by
  have := @separated_chars_append d s [] h trivial
  rwa [List.append_nil] at this

theorem joinable_char {d : Dialect} {c : Char} (hc : ∀ mark, d mark ≠ some c) (ts : List Token) :
    Joinable d (.char c :: ts) := by
  rintro mark close hmark heq
  obtain rfl : c = close := by simpa [render, renderToken] using heq
  exact hc mark hmark

/-- **What follows a finished text is read by itself**, if the text ends with a character that opens and closes nothing -/
theorem tokens_append {d : Dialect} {a b : List Char} {c : Char} {ts : List Token} (hopen : d c = none)
    (hclose : ∀ mark, d mark ≠ some c) (h : tokens d (a ++ [c]) = some ts) :
    tokens d (a ++ [c] ++ b) = (tokens d b).map (ts ++ ·) := by
  have hrun : ∀ (a : List Char) (m : Mode) (ts : List Token), m.Ok d → tokensFrom d m (a ++ [c]) = some ts →
      tokensFrom d m (a ++ [c] ++ b) = (tokens d b).map (ts ++ ·) := by
    intro a
    induction a with
    | nil =>
      intro m ts hm hts
      cases m with
      | plain =>
        obtain rfl : [.char c] = ts := by simpa [tokensFrom, step, openAt, hopen, finish] using hts
        simp [tokens, tokensFrom, step, openAt, hopen]
      | inside mark close content =>
        have hne : c ≠ close := by
          rintro rfl
          exact hclose mark hm
        simp [tokensFrom, step, hne, finish] at hts
      | closing mark close content =>
        have hne : c ≠ close := by
          rintro rfl
          exact hclose mark hm
        obtain rfl : [.quoted mark content, .char c] = ts := by
          simpa [tokensFrom, step, hne, openAt, hopen, finish] using hts
        simp [tokens, tokensFrom, step, hne, openAt, hopen]
    | cons e a ih =>
      intro m ts hm hts
      rw [List.cons_append, tokensFrom] at hts
      obtain ⟨us, hus, rfl⟩ := Option.map_eq_some_iff.1 hts
      rw [List.cons_append, List.cons_append, tokensFrom, ih _ us (step_spec hm e).1 hus, Option.map_map]
      congr 1
      funext vs
      exact (List.append_assoc _ _ _).symm
  exact hrun a .plain ts trivial h

end Quoted
