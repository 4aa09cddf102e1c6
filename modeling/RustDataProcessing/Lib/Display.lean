/-
Printing numbers as Rust's `Display` does, and reading them back.

- `displayI64` is the decimal numeral; `parseI64_displayI64`: it parses to the integer.
- `displayF64` prints a finite double as the shortest decimal that rounds to it, the nearest one of that length, without
  an exponent. The search goes from coarse decimal places to fine ones and ends at the latest with the exact value.
  `parseF64_displayF64`: it parses to the double, for every finite double.
-/
import Mathlib.Tactic
import RustDataProcessing.Lib.RustStd

namespace Binary64

/-! ## Exact ratios -/

theorem roundHalfEven_mul {k : ℕ} (hk : 0 < k) (a d : ℕ) : roundHalfEven (k * a) (k * d) = roundHalfEven a d := by
  unfold roundHalfEven
  rw [Nat.mul_div_mul_left a d hk, Nat.mul_mod_mul_left]
  have h1 : 2 * (k * (a % d)) < k * d ↔ 2 * (a % d) < d := by
    rw [Nat.mul_left_comm]
    exact Nat.mul_lt_mul_left hk
  have h2 : k * d < 2 * (k * (a % d)) ↔ d < 2 * (a % d) := by
    rw [Nat.mul_left_comm]
    exact Nat.mul_lt_mul_left hk
  simp only [h1, h2]

theorem roundHalfEven_exact {d : ℕ} (hd : 0 < d) (n : ℕ) : roundHalfEven (n * d) d = n := by
  unfold roundHalfEven
  rw [Nat.mul_div_cancel n hd, Nat.mul_mod_left]
  simp [hd]

/-- the nearest double depends on the ratio alone -/
theorem ofRatio_mul {k : ℕ} (hk : 0 < k) (negative : Bool) (num den : ℕ) :
    ofRatio negative (k * num) (k * den) = ofRatio negative num den := by
  unfold ofRatio
  simp only [Nat.mul_assoc, Nat.mul_div_mul_left _ den hk, roundHalfEven_mul hk]

/-- the power by a name, so that no tactic expands it -/
theorem unit_eq {n : ℕ} (hn : n = 1074) : unit = 2 ^ n := by
  unfold unit
  rw [hn]

theorem word_eq (x : Binary64) :
    x.word = (if x.isNegative then 2 ^ 63 else 0) + (x.exponent * 2 ^ 52 + x.fraction) := by
  have hx : x.word < 2 ^ 64 := x.bits.toNat_lt
  unfold isNegative exponent magnitude fraction
  simp only [decide_eq_true_eq]
  split_ifs <;> omega

theorem fraction_lt (x : Binary64) : x.fraction < 2 ^ 52 := Nat.mod_lt _ (by decide)

theorem exponent_le (x : Binary64) : x.exponent ≤ 2047 := by
  unfold exponent magnitude
  omega

/-- the fields make the double -/
theorem ofWord_fields (x : Binary64) : ofWord x.isNegative (x.exponent * 2 ^ 52 + x.fraction) = x := by
  have hword := word_eq x
  have hx : x = ⟨UInt64.ofNat x.word⟩ := by
    cases x
    simp [word]
  conv_rhs => rw [hx, hword]
  unfold ofWord
  cases x.isNegative <;> simp

/-- **A finite double is the rounding of its own value** -/
theorem ofRatio_scaled {x : Binary64} (h : x.isFinite = true) : ofRatio x.isNegative x.scaled unit = x := by
  have hfrac := x.fraction_lt
  have hexp : x.exponent < 2047 := by
    have hne : x.exponent ≠ 2047 := by simpa [isFinite] using h
    have := x.exponent_le
    omega
  have hdiv : x.scaled * unit / unit = x.scaled := Nat.mul_div_cancel _ unit_pos
  unfold ofRatio
  simp only [hdiv]
  rcases Nat.eq_zero_or_pos x.exponent with h0 | hpos
  · have hscaled : x.scaled = x.fraction := by rw [scaled, if_pos h0]
    have hplaces : Nat.log2 x.scaled - 52 = 0 := by
      rw [hscaled]
      rcases Nat.eq_zero_or_pos x.fraction with hz | hz
      · rw [hz]
        decide
      · have := (Nat.log2_lt hz.ne').2 hfrac
        omega
    rw [hplaces, pow_zero, mul_one, roundHalfEven_exact unit_pos, hscaled, if_pos hfrac, if_neg (by omega)]
    have := ofWord_fields x
    rwa [h0, Nat.zero_mul, Nat.zero_add] at this
  · obtain ⟨e, he⟩ := Nat.exists_eq_add_of_lt hpos
    have he' : x.exponent = e + 1 := by omega
    have hscaled : x.scaled = (2 ^ 52 + x.fraction) * 2 ^ e := by
      rw [scaled, if_neg hpos.ne', he', Nat.add_sub_cancel]
    have hlog : Nat.log2 x.scaled = 52 + e := by
      rw [hscaled]
      refine (Nat.log2_eq_iff (Nat.mul_pos (by omega) (Nat.two_pow_pos e)).ne').2 ⟨?_, ?_⟩
      · rw [pow_add]
        exact Nat.mul_le_mul_right _ (by omega)
      · rw [show 52 + e + 1 = 53 + e by omega, pow_add]
        exact Nat.mul_lt_mul_of_pos_right (by omega) (Nat.two_pow_pos e)
    have hround : roundHalfEven (x.scaled * unit) (unit * 2 ^ e) = 2 ^ 52 + x.fraction := by
      have : x.scaled * unit = (2 ^ 52 + x.fraction) * (unit * 2 ^ e) := by
        rw [hscaled]
        ring
      rw [this, roundHalfEven_exact (Nat.mul_pos unit_pos (Nat.two_pow_pos e))]
    have hword : e * 2 ^ 52 + (2 ^ 52 + x.fraction) = x.exponent * 2 ^ 52 + x.fraction := by omega
    have hcarry : ¬2 ^ 52 + x.fraction < 2 ^ 52 := by omega
    rw [hlog, Nat.add_sub_cancel_left, hround, if_neg hcarry, hword, if_neg (by omega), ofWord_fields]

end Binary64

namespace RustStd

/-! ## Digits -/

theorem natOfDigits_eq (cs : List Char) : natOfDigits cs = Nat.ofDigitChars 10 cs 0 := by
  unfold natOfDigits
  rw [Nat.ofDigitChars_eq_foldl]
  congr 1
  funext n c
  rw [Nat.mul_comm]

theorem digitOf_isDigit {c : Char} (h : c.isDigit) : digitOf c = some (c.toNat - '0'.toNat) := if_pos h

theorem isDigit_of_mem_toDigits {n : ℕ} {c : Char} (h : c ∈ Nat.toDigits 10 n) : c.isDigit :=
  Nat.isDigit_of_mem_toDigits (by decide) (by decide) h

theorem le_ofDigitChars (cs : List Char) (n : ℕ) : n ≤ Nat.ofDigitChars 10 cs n := by
  induction cs generalizing n with
  | nil => exact le_rfl
  | cons c cs ih =>
    rw [Nat.ofDigitChars_cons]
    have := ih (10 * n + (c.toNat - '0'.toNat))
    omega

/-! ## Integers -/

/-- `i.to_string()` -/
def displayI64 (n : Int64) : String := toString n.toInt

theorem parseDigits_pos {cs : List Char} (hcs : ∀ c ∈ cs, c.isDigit) {n : ℕ}
    (hmax : (Nat.ofDigitChars 10 cs n : ℤ) ≤ i64Max) : parseDigits false n cs = .ok (Nat.ofDigitChars 10 cs n : ℤ) := by
  induction cs generalizing n with
  | nil => rfl
  | cons c cs ih =>
    obtain ⟨hc, hrest⟩ := List.forall_mem_cons.1 hcs
    rw [Nat.ofDigitChars_cons] at hmax ⊢
    have hle := le_ofDigitChars cs (10 * n + (c.toNat - '0'.toNat))
    have hcast : (n : ℤ) * 10 + ((c.toNat - '0'.toNat : ℕ) : ℤ) = ((10 * n + (c.toNat - '0'.toNat) : ℕ) : ℤ) := by
      push_cast
      ring
    have hlow : ¬((10 * n + (c.toNat - '0'.toNat) : ℕ) : ℤ) < i64Min := by
      unfold i64Min
      omega
    rw [parseDigits, digitOf_isDigit hc]
    simp only [Bool.false_eq_true, if_false, hcast]
    rw [if_neg hlow, if_neg (by omega)]
    exact ih hrest hmax

theorem parseDigits_neg {cs : List Char} (hcs : ∀ c ∈ cs, c.isDigit) {n : ℕ}
    (hmin : i64Min ≤ -(Nat.ofDigitChars 10 cs n : ℤ)) :
    parseDigits true (-(n : ℤ)) cs = .ok (-(Nat.ofDigitChars 10 cs n : ℤ)) := by
  induction cs generalizing n with
  | nil => rfl
  | cons c cs ih =>
    obtain ⟨hc, hrest⟩ := List.forall_mem_cons.1 hcs
    rw [Nat.ofDigitChars_cons] at hmin ⊢
    have hle := le_ofDigitChars cs (10 * n + (c.toNat - '0'.toNat))
    have hcast : -(n : ℤ) * 10 - ((c.toNat - '0'.toNat : ℕ) : ℤ) = -((10 * n + (c.toNat - '0'.toNat) : ℕ) : ℤ) := by
      push_cast
      ring
    have hhigh : ¬i64Max < -((10 * n + (c.toNat - '0'.toNat) : ℕ) : ℤ) := by
      unfold i64Max
      omega
    rw [parseDigits, digitOf_isDigit hc]
    simp only [if_true, hcast]
    rw [if_neg (by omega), if_neg hhigh]
    exact ih hrest hmin

theorem parseI64Chars_digits {cs : List Char} (hcs : ∀ c ∈ cs, c.isDigit) (hne : cs ≠ []) :
    parseI64Chars cs = parseDigits false 0 cs := by
  obtain ⟨c, cs, rfl⟩ := List.exists_cons_of_ne_nil hne
  have hc := hcs c List.mem_cons_self
  have hplus : c ≠ '+' := by rintro rfl; cases hc
  have hminus : c ≠ '-' := by rintro rfl; cases hc
  unfold parseI64Chars
  split <;> simp_all

theorem parseI64Chars_minus {cs : List Char} (hne : cs ≠ []) : parseI64Chars ('-' :: cs) = parseDigits true 0 cs := by
  obtain ⟨c, cs, rfl⟩ := List.exists_cons_of_ne_nil hne
  rfl

theorem toString_neg (n : ℕ) : (toString (-((n + 1 : ℕ) : ℤ))).toList = '-' :: Nat.toDigits 10 (n + 1) := by
  have : toString (-((n + 1 : ℕ) : ℤ)) = "-" ++ Nat.repr (n + 1) := rfl
  rw [this, String.toList_append, Nat.toList_repr]
  rfl

/-- **An integer prints and parses back** -/
theorem parseI64_displayI64 (n : Int64) : parseI64 (displayI64 n) = .ok n := by
  obtain ⟨hlow, hhigh⟩ := toInt_bounds n
  have hchars : parseI64Chars (displayI64 n).toList = .ok n.toInt := by
    unfold displayI64
    generalize n.toInt = z at hlow hhigh
    rcases z with m | m
    · have hstr : (toString (Int.ofNat m)).toList = Nat.toDigits 10 m := Nat.toList_repr
      rw [hstr, parseI64Chars_digits (fun c hc => isDigit_of_mem_toDigits hc) Nat.toDigits_ne_nil]
      have hval : Nat.ofDigitChars 10 (Nat.toDigits 10 m) 0 = m := Nat.ofDigitChars_ten_toDigits
      have := parseDigits_pos (n := 0) (fun c hc => isDigit_of_mem_toDigits (n := m) hc) (by
        rw [hval]
        exact hhigh)
      rw [hval] at this
      exact this
    · have hneg : Int.negSucc m = -((m + 1 : ℕ) : ℤ) := rfl
      rw [hneg, toString_neg, parseI64Chars_minus Nat.toDigits_ne_nil]
      have hval : Nat.ofDigitChars 10 (Nat.toDigits 10 (m + 1)) 0 = m + 1 := Nat.ofDigitChars_ten_toDigits
      have := parseDigits_neg (n := 0) (fun c hc => isDigit_of_mem_toDigits (n := m + 1) hc) (by
        rw [hval]
        exact hneg ▸ hlow)
      rw [hval] at this
      exact this
  rw [parseI64, hchars]
  exact congrArg Except.ok (Int64.ofInt_toInt n)

theorem displayI64_injective {m n : Int64} (h : displayI64 m = displayI64 n) : m = n := by
  have hparse := parseI64_displayI64 m
  rw [h, parseI64_displayI64] at hparse
  exact (Except.ok.inj hparse).symm

/-- `{:0width$}`: the sign, and zeros before the digits up to the width -/
def zeroPadded (width : ℕ) (n : ℤ) : String :=
  let digits := Nat.toDigits 10 n.natAbs
  if n < 0 then String.ofList ('-' :: (List.replicate (width - 1 - digits.length) '0' ++ digits))
  else String.ofList (List.replicate (width - digits.length) '0' ++ digits)

example : zeroPadded 5 (-42) = "-0042" := by decide

theorem ofDigitChars_padded (k n : ℕ) :
    Nat.ofDigitChars 10 (List.replicate k '0' ++ Nat.toDigits 10 n) 0 = n := by
  rw [Nat.ofDigitChars_append, Nat.ofDigitChars_replicate_zero, Nat.mul_zero, Nat.ofDigitChars_ten_toDigits]

theorem minus_not_mem_padded (k n : ℕ) : '-' ∉ List.replicate k '0' ++ Nat.toDigits 10 n := by
  rw [List.mem_append, List.mem_replicate]
  rintro (⟨-, h⟩ | h)
  · exact absurd h (by decide)
  · exact absurd (isDigit_of_mem_toDigits h) (by decide)

/-- **Padding** keeps integers apart -/
theorem zeroPadded_injective {width : ℕ} {m n : ℤ} (h : zeroPadded width m = zeroPadded width n) : m = n := by
  unfold zeroPadded at h
  dsimp only at h
  split_ifs at h with hm hn hn <;> rw [String.ofList_inj] at h
  · have hvalue := congrArg (Nat.ofDigitChars 10 · 0) (List.cons.inj h).2
    simp only [ofDigitChars_padded] at hvalue
    omega
  · exact absurd (h ▸ List.mem_cons_self) (minus_not_mem_padded _ _)
  · exact absurd (h ▸ List.mem_cons_self) (minus_not_mem_padded _ _)
  · have hvalue := congrArg (Nat.ofDigitChars 10 · 0) h
    simp only [ofDigitChars_padded] at hvalue
    omega

/-! ## Doubles -/

/-- the double nearest to `m * 10 ^ e` -/
def roundDecimal (negative : Bool) (m : ℕ) (e : ℤ) : Binary64 :=
  if 0 ≤ e then .ofRatio negative (m * 10 ^ e.toNat) 1 else .ofRatio negative m (10 ^ (-e).toNat)

/-- `value / 10 ^ e` as a ratio -/
def scaledAt (x : Binary64) (e : ℤ) : ℕ × ℕ :=
  if 0 ≤ e then (x.scaled, Binary64.unit * 10 ^ e.toNat) else (x.scaled * 10 ^ (-e).toNat, Binary64.unit)

/-- the two multiples of `10 ^ e` around the value, the nearer one first -/
def candidates (x : Binary64) (e : ℤ) : List ℕ :=
  let r := scaledAt x e
  let q := r.1 / r.2
  if 2 * (r.1 % r.2) < r.2 then [q, q + 1] else [q + 1, q]

/-- the first place, from `10 ^ e` downwards, with a multiple that rounds to the double; the last place is exact -/
def shortestFrom (x : Binary64) : ℕ → ℤ → ℕ × ℤ
  | 0, e => ((scaledAt x e).1 / (scaledAt x e).2, e)
  | fuel + 1, e => match (candidates x e).find? fun m => roundDecimal x.isNegative m e = x with
    | some m => (m, e)
    | none => shortestFrom x fuel (e - 1)

/-- no double is above `10 ^ 309`, and every double is a multiple of `10 ^ -1074` -/
def shortest (x : Binary64) : ℕ × ℤ := shortestFrom x 1383 309

/-- `m * 10 ^ e` in decimal notation -/
def renderDecimal (m : ℕ) (e : ℤ) : List Char :=
  if 0 ≤ e then Nat.toDigits 10 m ++ List.replicate e.toNat '0'
  else
    let places := (-e).toNat
    let digits := List.replicate (places + 1 - (Nat.toDigits 10 m).length) '0' ++ Nat.toDigits 10 m
    digits.take (digits.length - places) ++ '.' :: digits.drop (digits.length - places)

example : renderDecimal 25 (-3) = "0.025".toList := by decide
example : renderDecimal 25 1 = "250".toList := by decide

def displayMagnitude (x : Binary64) : List Char :=
  if x.isFinite then
    if x.scaled = 0 then ['0'] else renderDecimal (shortest x).1 (shortest x).2
  else "inf".toList

/-- `f.to_string()` -/
def displayF64 (x : Binary64) : String :=
  if x.isNaN then "NaN" else String.ofList ((if x.isNegative then ['-'] else []) ++ displayMagnitude x)

/-! ## Reading a double back -/

section Search

variable {x : Binary64} (hx : x.isFinite = true) {n : ℕ} (hn : 0 < n) (hunit : Binary64.unit = 2 ^ n)
include hx hn hunit

/-- the exact value, at the last place -/
theorem roundDecimal_exact :
    roundDecimal x.isNegative ((scaledAt x (-(n : ℤ))).1 / (scaledAt x (-(n : ℤ))).2) (-(n : ℤ)) = x := by
  have hneg : ¬(0 : ℤ) ≤ -(n : ℤ) := by omega
  have hpow : (10 : ℕ) ^ n = 5 ^ n * Binary64.unit := by
    rw [hunit, ← Nat.mul_pow]
  have hplaces : (-(-(n : ℤ))).toNat = n := by omega
  have hquot : x.scaled * 10 ^ n / Binary64.unit = 5 ^ n * x.scaled := by
    rw [hpow, ← Nat.mul_assoc, Nat.mul_div_cancel _ Binary64.unit_pos, Nat.mul_comm]
  rw [roundDecimal, if_neg hneg, scaledAt, if_neg hneg, hplaces]
  dsimp only
  rw [hquot, hpow, Binary64.ofRatio_mul (Nat.pow_pos (by decide)), Binary64.ofRatio_scaled hx]

/-- whatever place the search stops at, what it finds rounds to the double -/
theorem shortestFrom_round (fuel : ℕ) :
    roundDecimal x.isNegative (shortestFrom x fuel ((fuel : ℤ) - n)).1 (shortestFrom x fuel ((fuel : ℤ) - n)).2 = x := by
  induction fuel with
  | zero =>
    have hlast : ((0 : ℕ) : ℤ) - n = -(n : ℤ) := by omega
    rw [hlast]
    exact roundDecimal_exact hx hn hunit
  | succ fuel ih =>
    rw [shortestFrom]
    cases hfind : (candidates x (((fuel + 1 : ℕ) : ℤ) - n)).find?
        fun m => roundDecimal x.isNegative m (((fuel + 1 : ℕ) : ℤ) - n) = x with
    | some m => simpa using List.find?_some hfind
    | none =>
      have hnext : ((fuel + 1 : ℕ) : ℤ) - n - 1 = (fuel : ℤ) - n := by
        push_cast
        ring
      simp only [hnext]
      exact ih

end Search

theorem shortest_round {x : Binary64} (h : x.isFinite = true) :
    roundDecimal x.isNegative (shortest x).1 (shortest x).2 = x := by
  obtain ⟨n, hn⟩ : ∃ n, n = 1074 := ⟨_, rfl⟩
  have hstart : ((1383 : ℕ) : ℤ) - (n : ℤ) = 309 := by omega
  have hround := shortestFrom_round h (by omega) (Binary64.unit_eq hn) 1383
  rw [hstart] at hround
  exact hround

theorem takeWhile_digits {cs : List Char} (h : ∀ c ∈ cs, c.isDigit) (rest : List Char)
    (hrest : ∀ c ∈ rest.head?, c.isDigit = false) :
    (cs ++ rest).takeWhile Char.isDigit = cs ∧ (cs ++ rest).dropWhile Char.isDigit = rest := by
  rw [List.takeWhile_append_of_pos h, List.dropWhile_append_of_pos h]
  cases rest with
  | nil => simp
  | cons c rest =>
    have hc : c.isDigit = false := hrest c rfl
    simp [hc]

theorem parseNumber_whole {whole : List Char} (hwhole : ∀ c ∈ whole, c.isDigit) (hne : whole ≠ []) (negative : Bool) :
    parseNumber negative whole = .ok (.ofRatio negative (Nat.ofDigitChars 10 whole 0) 1) := by
  obtain ⟨h1, h2⟩ := takeWhile_digits hwhole [] (by simp)
  rw [List.append_nil] at h1 h2
  unfold parseNumber
  simp only [h1, h2, hne, false_and, if_false, parseExponent, List.append_nil, natOfDigits_eq]
  simp

theorem parseNumber_point {whole frac : List Char} (hwhole : ∀ c ∈ whole, c.isDigit) (hfrac : ∀ c ∈ frac, c.isDigit)
    (hne : whole ≠ []) (hplaces : frac ≠ []) (negative : Bool) :
    parseNumber negative (whole ++ '.' :: frac) =
      .ok (.ofRatio negative (Nat.ofDigitChars 10 (whole ++ frac) 0) (10 ^ frac.length)) := by
  obtain ⟨h1, h2⟩ := takeWhile_digits hwhole ('.' :: frac) (by simp)
  obtain ⟨h3, h4⟩ := takeWhile_digits hfrac [] (by simp)
  rw [List.append_nil] at h3 h4
  have hlen : 0 < frac.length := List.length_pos_iff.2 hplaces
  have hscale : ¬(0 : ℤ) ≤ 0 - (frac.length : ℤ) := by omega
  have hneg : (-(0 - (frac.length : ℤ))).toNat = frac.length := by omega
  unfold parseNumber
  simp only [h1, h2, h3, h4, hne, false_and, if_false, parseExponent, natOfDigits_eq, hscale, hneg]

theorem ofDigitChars_zeros (n : ℕ) (cs : List Char) :
    Nat.ofDigitChars 10 (List.replicate n '0' ++ cs) 0 = Nat.ofDigitChars 10 cs 0 := by
  rw [Nat.ofDigitChars_append, Nat.ofDigitChars_replicate_zero, Nat.mul_zero]

/-- the numeral's characters around the point: digits on both sides, as many behind it as there are places -/
theorem padded_spec (m places : ℕ) (hpos : 0 < places) {digits : List Char}
    (hdigits : digits = List.replicate (places + 1 - (Nat.toDigits 10 m).length) '0' ++ Nat.toDigits 10 m) :
    (∀ c ∈ digits, c.isDigit) ∧ digits.take (digits.length - places) ≠ [] ∧
      digits.drop (digits.length - places) ≠ [] ∧ (digits.drop (digits.length - places)).length = places := by
  have hall : ∀ c ∈ digits, c.isDigit := by
    intro c hc
    rw [hdigits] at hc
    rcases List.mem_append.1 hc with hc | hc
    · rw [List.eq_of_mem_replicate hc]
      rfl
    · exact isDigit_of_mem_toDigits hc
  have hlen : places < digits.length := by
    rw [hdigits, List.length_append, List.length_replicate]
    omega
  have hdroplen : (digits.drop (digits.length - places)).length = places := by
    rw [List.length_drop]
    omega
  refine ⟨hall, ?_, ?_, hdroplen⟩
  · rw [← List.length_pos_iff, List.length_take]
    omega
  · rw [← List.length_pos_iff, hdroplen]
    exact hpos

/-- a numeral starts with a digit, and is read as the double nearest to its value -/
theorem renderDecimal_spec (m : ℕ) (e : ℤ) :
    (∃ c cs, renderDecimal m e = c :: cs ∧ c.isDigit) ∧
      ∀ negative, parseNumber negative (renderDecimal m e) = .ok (roundDecimal negative m e) := by
  unfold renderDecimal
  split_ifs with he
  · have hall : ∀ c ∈ Nat.toDigits 10 m ++ List.replicate e.toNat '0', c.isDigit := by
      intro c hc
      rcases List.mem_append.1 hc with hc | hc
      · exact isDigit_of_mem_toDigits hc
      · rw [List.eq_of_mem_replicate hc]
        rfl
    have hne : Nat.toDigits 10 m ++ List.replicate e.toNat '0' ≠ [] := by simp [Nat.toDigits_ne_nil]
    constructor
    · obtain ⟨c, cs, hcs⟩ := List.exists_cons_of_ne_nil hne
      exact ⟨c, cs, hcs, hall c (hcs ▸ List.mem_cons_self)⟩
    · intro negative
      rw [parseNumber_whole hall hne, Nat.ofDigitChars_append, Nat.ofDigitChars_ten_toDigits,
        Nat.ofDigitChars_replicate_zero, roundDecimal, if_pos he, Nat.mul_comm]
  · dsimp only
    set places := (-e).toNat
    set digits := List.replicate (places + 1 - (Nat.toDigits 10 m).length) '0' ++ Nat.toDigits 10 m with hdef
    obtain ⟨hall, hwhole, hfrac, hdroplen⟩ := padded_spec m places (by omega) hdef
    have htake : ∀ c ∈ digits.take (digits.length - places), c.isDigit := fun c hc => hall c (List.mem_of_mem_take hc)
    have hdrop : ∀ c ∈ digits.drop (digits.length - places), c.isDigit := fun c hc => hall c (List.mem_of_mem_drop hc)
    constructor
    · obtain ⟨c, cs, hcs⟩ := List.exists_cons_of_ne_nil hwhole
      exact ⟨c, cs ++ '.' :: digits.drop (digits.length - places), by rw [hcs, List.cons_append],
        htake c (hcs ▸ List.mem_cons_self)⟩
    · intro negative
      rw [parseNumber_point htake hdrop hwhole hfrac, List.take_append_drop, hdroplen, hdef, ofDigitChars_zeros,
        Nat.ofDigitChars_ten_toDigits, roundDecimal, if_neg he]

/-- text that starts with a digit is a number, not a name -/
theorem parseUnsigned_digit {c : Char} (hc : c.isDigit) (cs : List Char) (negative : Bool) :
    parseUnsigned negative (c :: cs) = parseNumber negative (c :: cs) := by
  have hname : ∀ s : String, s.toList.head?.all (fun d => !d.isDigit) = true →
      String.ofList ((c :: cs).map Char.toLower) ≠ s := by
    rintro s hs rfl
    have hle : c.val ≤ '9'.val := by
      simp only [Char.isDigit, Bool.and_eq_true, decide_eq_true_eq] at hc
      exact hc.2
    have hlower : c.toLower = c := by
      unfold Char.toLower
      rw [dif_neg]
      rintro ⟨h, -⟩
      exact absurd (UInt32.le_trans h hle) (by decide)
    simp [hlower, hc] at hs
  unfold parseUnsigned
  rw [if_neg, if_neg (hname "nan" (by decide))]
  rintro (h | h)
  · exact hname "inf" (by decide) h
  · exact hname "infinity" (by decide) h

/-- **A finite double prints and parses back** -/
theorem parseF64_displayF64 {x : Binary64} (h : x.isFinite = true) : parseF64 (displayF64 x) = .ok x := by
  have hmagnitude : (∃ c cs, displayMagnitude x = c :: cs ∧ c.isDigit) ∧
      parseNumber x.isNegative (displayMagnitude x) = .ok x := by
    unfold displayMagnitude
    rw [if_pos h]
    split_ifs with hzero
    · refine ⟨⟨'0', [], rfl, rfl⟩, ?_⟩
      have hround := Binary64.ofRatio_scaled h
      rw [hzero, ← Nat.mul_zero Binary64.unit] at hround
      have hunit : Binary64.unit = Binary64.unit * 1 := (Nat.mul_one _).symm
      rw [hunit, Nat.mul_assoc, Binary64.ofRatio_mul Binary64.unit_pos, Nat.one_mul] at hround
      rw [parseNumber_whole (by simp) (by simp)]
      exact congrArg Except.ok hround
    · obtain ⟨hfirst, hparse⟩ := renderDecimal_spec (shortest x).1 (shortest x).2
      exact ⟨hfirst, by rw [hparse, shortest_round h]⟩
  obtain ⟨⟨c, cs, hcs, hdigit⟩, hparse⟩ := hmagnitude
  have hnan : x.isNaN = false := by
    unfold Binary64.isFinite at h
    unfold Binary64.isNaN
    simp only [decide_eq_true_eq, ne_eq] at h
    simp [h]
  rw [hcs] at hparse
  unfold displayF64 parseF64
  rw [hnan, hcs]
  cases hsign : x.isNegative with
  | true =>
    rw [hsign] at hparse
    simp only [Bool.false_eq_true, if_false, if_true, String.toList_ofList, List.cons_append, List.nil_append]
    rw [parseUnsigned_digit hdigit, hparse]
  | false =>
    rw [hsign] at hparse
    have hplus : c ≠ '+' := by rintro rfl; cases hdigit
    have hminus : c ≠ '-' := by rintro rfl; cases hdigit
    simp only [Bool.false_eq_true, if_false, String.toList_ofList, List.nil_append]
    split
    · simp_all
    · simp_all
    · simp_all
    · rw [parseUnsigned_digit hdigit, hparse]

/-! ## Characters -/

/-- the characters of a printed number -/
def isNumeral (c : Char) : Bool := c.isDigit || c = '-' || c = '.'

theorem numeral_displayI64 (n : Int64) : ∀ c ∈ (displayI64 n).toList, isNumeral c = true := by
  intro c hc
  unfold displayI64 at hc
  generalize n.toInt = z at hc
  rcases z with m | m
  · have hstr : (toString (Int.ofNat m)).toList = Nat.toDigits 10 m := Nat.toList_repr
    rw [hstr] at hc
    simp [isNumeral, isDigit_of_mem_toDigits hc]
  · have hneg : Int.negSucc m = -((m + 1 : ℕ) : ℤ) := rfl
    rw [hneg, toString_neg] at hc
    rcases List.mem_cons.1 hc with rfl | hc
    · rfl
    · simp [isNumeral, isDigit_of_mem_toDigits hc]

theorem numeral_renderDecimal (m : ℕ) (e : ℤ) : ∀ c ∈ renderDecimal m e, isNumeral c = true := by
  have hdigits : ∀ n, ∀ c ∈ List.replicate n '0' ++ Nat.toDigits 10 m, isNumeral c = true := by
    intro n c hc
    rcases List.mem_append.1 hc with hc | hc
    · rw [List.eq_of_mem_replicate hc]
      rfl
    · simp [isNumeral, isDigit_of_mem_toDigits hc]
  intro c hc
  unfold renderDecimal at hc
  split_ifs at hc
  · rcases List.mem_append.1 hc with hc | hc
    · exact hdigits 0 c (by simpa using hc)
    · rw [List.eq_of_mem_replicate hc]
      rfl
  · rcases List.mem_append.1 hc with hc | hc
    · exact hdigits _ c (List.mem_of_mem_take hc)
    rcases List.mem_cons.1 hc with rfl | hc
    · rfl
    · exact hdigits _ c (List.mem_of_mem_drop hc)

theorem numeral_displayF64 {x : Binary64} (h : x.isFinite = true) : ∀ c ∈ (displayF64 x).toList, isNumeral c = true := by
  have hnan : x.isNaN = false := by
    unfold Binary64.isFinite at h
    unfold Binary64.isNaN
    simp only [decide_eq_true_eq, ne_eq] at h
    simp [h]
  intro c hc
  unfold displayF64 displayMagnitude at hc
  rw [hnan, if_pos h] at hc
  simp only [Bool.false_eq_true, if_false, String.toList_ofList] at hc
  rcases List.mem_append.1 hc with hc | hc
  · split_ifs at hc
    · rw [List.mem_singleton.1 hc]
      rfl
    · cases hc
  · split_ifs at hc
    · rw [List.mem_singleton.1 hc]
      rfl
    · exact numeral_renderDecimal _ _ c hc

/-- any printed double: a numeral, or one of the names -/
theorem displayF64_chars (x : Binary64) : ∀ c ∈ (displayF64 x).toList, isNumeral c = true ∨ c.isAlpha = true := by
  intro c hc
  by_cases hfinite : x.isFinite = true
  · exact Or.inl (numeral_displayF64 hfinite c hc)
  have hnames : ∀ c ∈ "-inf".toList ++ "NaN".toList, isNumeral c = true ∨ c.isAlpha = true := by decide
  refine hnames c ?_
  unfold displayF64 displayMagnitude at hc
  rw [if_neg hfinite] at hc
  split_ifs at hc with hnan hneg
  · exact List.mem_append_right _ hc
  · rw [String.toList_ofList] at hc
    exact List.mem_append_left _ hc
  · rw [String.toList_ofList] at hc
    exact List.mem_append_left _ (List.mem_cons_of_mem _ hc)

/-- a printed number has no blanks -/
theorem isWhitespace_numeral {c : Char} (h : isNumeral c = true) : isWhitespace c = false := by
  simp only [isNumeral, Bool.or_eq_true, decide_eq_true_eq, or_assoc] at h
  rcases h with h | rfl | rfl
  · have hlow : '0'.val ≤ c.val ∧ c.val ≤ '9'.val := by simpa [Char.isDigit] using h
    have h1 : 48 ≤ c.toNat := hlow.1
    have h2 : c.toNat ≤ 57 := hlow.2
    simp only [isWhitespace, Bool.or_eq_false_iff, Bool.and_eq_false_iff, decide_eq_false_iff_not]
    omega
  · rfl
  · rfl

end RustStd
