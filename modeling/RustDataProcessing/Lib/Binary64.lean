/-
IEEE 754 binary64, as bit patterns. No runtime `Float` is involved: a double is its 64-bit word, so equality is bit
identity (two NaNs with different payloads differ, and -0 differs from +0) and every operation below evaluates.

- `value`: the exact rational value of a finite double; none for an infinity or a NaN;
- `truncate`: the integer obtained by dropping the fractional part (`truncate_of_value_eq_int`: on an integral double
  it is the value itself);
- `totalKey`: the integer whose order is the total order of the standard (-NaN < -inf < ... < -0 < +0 < ... < NaN).
  It is injective (`totalKey_injective`), so the order is a linear order on bit patterns;
- `ofRatio`: the double nearest to a ratio of naturals, ties to even, overflow to infinity.
-/
import Mathlib.Tactic

/-- a double, as its bit pattern -/
structure Binary64 where
  bits : UInt64
deriving DecidableEq, Repr

namespace Binary64

/-! ## Fields -/

def word (x : Binary64) : ℕ := x.bits.toNat

def isNegative (x : Binary64) : Bool := 2 ^ 63 ≤ x.word

/-- the word without its sign bit -/
def magnitude (x : Binary64) : ℕ := x.word % 2 ^ 63

def exponent (x : Binary64) : ℕ := x.magnitude / 2 ^ 52

def fraction (x : Binary64) : ℕ := x.word % 2 ^ 52

def isFinite (x : Binary64) : Bool := x.exponent ≠ 2047

def isNaN (x : Binary64) : Bool := x.exponent = 2047 ∧ x.fraction ≠ 0

/-- the reciprocal of the smallest positive double; sealed, so that no tactic expands the power -/
@[irreducible] def unit : ℕ := 2 ^ 1074

theorem unit_pos : 0 < unit := by unfold unit; decide +kernel

/-- the value of a finite double is `± scaled / unit` -/
def scaled (x : Binary64) : ℕ :=
  if x.exponent = 0 then x.fraction else (2 ^ 52 + x.fraction) * 2 ^ (x.exponent - 1)

/-! ## Values -/

def value (x : Binary64) : Option ℚ :=
  if x.isFinite then some ((if x.isNegative then -(x.scaled : ℚ) else x.scaled) / unit) else none

/-- the value with its fractional part dropped -/
def truncate (x : Binary64) : Option ℤ :=
  if x.isFinite then
    let n : ℤ := (x.scaled / unit : ℕ)
    some (if x.isNegative then -n else n)
  else none

theorem value_isSome (x : Binary64) : x.value.isSome = x.isFinite := by
  unfold value; split_ifs with h <;> simp [h]

theorem truncate_isSome (x : Binary64) : x.truncate.isSome = x.isFinite := by
  unfold truncate; split_ifs with h <;> simp [h]

theorem div_of_ratio_eq {s d n : ℕ} (hd : 0 < d) (h : (s : ℚ) / d = n) : s / d = n := by
  have hs : (s : ℚ) = ((n * d : ℕ) : ℚ) := by
    push_cast; exact (div_eq_iff (Nat.cast_ne_zero.2 hd.ne')).1 h
  rw [Nat.cast_inj.1 hs]
  exact Nat.mul_div_cancel _ hd

/-- **Truncation keeps integers**: a double whose value is the integer `n` truncates to `n` -/
theorem truncate_of_value_eq_int {x : Binary64} {n : ℤ} (h : x.value = some (n : ℚ)) : x.truncate = some n := by
  have hf : x.isFinite = true := by rw [← value_isSome, h]; rfl
  simp only [value, hf, if_true, Option.some.injEq] at h
  simp only [truncate, hf, if_true, Option.some.injEq]
  cases hs : x.isNegative
  · simp only [hs, Bool.false_eq_true, if_false] at h ⊢
    have hn : 0 ≤ n := by
      have : (0 : ℚ) ≤ n := by rw [← h]; positivity
      exact_mod_cast this
    obtain ⟨k, rfl⟩ := Int.eq_ofNat_of_zero_le hn
    rw [Int.cast_natCast] at h
    rw [div_of_ratio_eq unit_pos h]
  · simp only [hs, if_true] at h ⊢
    have hn : n ≤ 0 := by
      have : (n : ℚ) ≤ 0 := by rw [← h, neg_div]; exact neg_nonpos.2 (by positivity)
      exact_mod_cast this
    obtain ⟨k, rfl⟩ := Int.exists_eq_neg_ofNat hn
    rw [neg_div, Int.cast_neg, neg_inj, Int.cast_natCast] at h
    rw [div_of_ratio_eq unit_pos h]

/-! ## The total order -/

/-- the bit pattern as a signed integer, with the order of the negative ones reversed -/
def totalKey (x : Binary64) : ℤ := if x.isNegative then -1 - x.magnitude else x.magnitude

def totalCmp (x y : Binary64) : Ordering := compare x.totalKey y.totalKey

theorem totalKey_injective : Function.Injective totalKey := by
  intro x y h
  have hx : x.word < 2 ^ 64 := x.bits.toNat_lt
  have hy : y.word < 2 ^ 64 := y.bits.toNat_lt
  have hw : x.word = y.word := by
    simp only [totalKey, isNegative, magnitude, decide_eq_true_eq] at h
    split_ifs at h <;> omega
  cases x; cases y
  simpa [word, UInt64.toNat_inj] using hw

/-- an infinity or a NaN stands beyond every finite double, on the side of its sign -/
theorem totalKey_of_not_finite {x y : Binary64} (hx : x.isFinite = true) (hy : y.isFinite = false) :
    if y.isNegative then y.totalKey < x.totalKey else x.totalKey < y.totalKey := by
  have hx' : x.magnitude / 2 ^ 52 ≠ 2047 := of_decide_eq_true hx
  have hy' : y.magnitude / 2 ^ 52 = 2047 := not_not.1 (of_decide_eq_false hy)
  have hlt : x.magnitude < 2 ^ 63 := Nat.mod_lt _ (by norm_num)
  unfold totalKey
  split_ifs <;> omega

/-! ## Rounding -/

/-- `a / d` rounded to the nearest natural, ties to even -/
def roundHalfEven (a d : ℕ) : ℕ :=
  let q := a / d
  let r := a % d
  if 2 * r < d then q else if d < 2 * r then q + 1 else q + q % 2

def ofWord (negative : Bool) (w : ℕ) : Binary64 := ⟨UInt64.ofNat (if negative then 2 ^ 63 + w else w)⟩

def infinity (negative : Bool) : Binary64 := ofWord negative (2047 * 2 ^ 52)

def nan : Binary64 := ofWord false (2047 * 2 ^ 52 + 2 ^ 51)

/-- the double nearest to `± num / den` -/
def ofRatio (negative : Bool) (num den : ℕ) : Binary64 :=
  let a := num * unit
  -- the unit in the last place is `2 ^ p`, so that the significand has at most 53 bits
  let p := Nat.log2 (a / den) - 52
  let m := roundHalfEven a (den * 2 ^ p)
  -- a significand of 2 ^ 53 carries into the exponent field by itself
  let w := if m < 2 ^ 52 then m else p * 2 ^ 52 + m
  if 2047 * 2 ^ 52 ≤ w then infinity negative else ofWord negative w

def ofInt (n : ℤ) : Binary64 := ofRatio (n < 0) n.natAbs 1

/-- `v.fract() == 0.0` -/
def isIntegral (x : Binary64) : Bool := x.isFinite && x.scaled % unit = 0

/-- a double is integral when its value is an integer -/
theorem isIntegral_iff {x : Binary64} : x.isIntegral = true ↔ ∃ m : ℤ, x.value = some (m : ℚ) := by
  have hunit : (unit : ℚ) ≠ 0 := Nat.cast_ne_zero.2 unit_pos.ne'
  unfold isIntegral
  rw [Bool.and_eq_true, decide_eq_true_eq]
  constructor
  · rintro ⟨hfinite, hmod⟩
    obtain ⟨q, hq⟩ := Nat.dvd_of_mod_eq_zero hmod
    refine ⟨if x.isNegative then -(q : ℤ) else q, ?_⟩
    rw [value, if_pos hfinite, hq, Nat.cast_mul]
    congr 1
    split_ifs
    · rw [← mul_neg, mul_div_cancel_left₀ _ hunit, Int.cast_neg, Int.cast_natCast]
    · rw [mul_div_cancel_left₀ _ hunit, Int.cast_natCast]
  · rintro ⟨m, hm⟩
    have hfinite : x.isFinite = true := by rw [← value_isSome, hm]; rfl
    refine ⟨hfinite, ?_⟩
    rw [value, if_pos hfinite, Option.some.injEq, div_eq_iff hunit] at hm
    have hscaled : x.scaled = m.natAbs * unit := by
      have hint : (if x.isNegative then -(x.scaled : ℤ) else x.scaled) = m * unit := by
        split_ifs at hm ⊢ <;> exact_mod_cast hm
      have habs := congrArg Int.natAbs hint
      rw [Int.natAbs_mul, Int.natAbs_natCast] at habs
      rw [← habs]
      split_ifs <;> simp
    rw [hscaled, Nat.mul_mod_left]

-- 0.1, 2 ^ 53 + 1 (a tie, to even) and the smallest magnitude that overflows
example : (ofRatio false 1 10).bits = 0x3FB999999999999A := by decide +kernel
example : ofInt (2 ^ 53 + 1) = ofInt (2 ^ 53) := by decide +kernel
example : ofInt (-2 ^ 1024) = infinity true := by decide +kernel

end Binary64

/-! ## Single precision -/

structure Binary32 where
  bits : UInt32
deriving DecidableEq, Repr

namespace Binary32

def isNegative (x : Binary32) : Bool := 2 ^ 31 ≤ x.bits.toNat

def exponent (x : Binary32) : ℕ := x.bits.toNat % 2 ^ 31 / 2 ^ 23

def fraction (x : Binary32) : ℕ := x.bits.toNat % 2 ^ 23

/-- `v as f64`: exact, a NaN keeps its payload and becomes quiet -/
def toBinary64 (x : Binary32) : Binary64 :=
  if x.exponent = 255 then
    if x.fraction = 0 then Binary64.infinity x.isNegative
    else Binary64.ofWord x.isNegative (2047 * 2 ^ 52 + 2 ^ 51 + x.fraction % 2 ^ 22 * 2 ^ 29)
  else
    let scaled := if x.exponent = 0 then x.fraction else (2 ^ 23 + x.fraction) * 2 ^ (x.exponent - 1)
    Binary64.ofRatio x.isNegative scaled (2 ^ 149)

-- 0.1f32 and the smallest single
example : (toBinary64 ⟨0x3DCCCCCD⟩).bits = 0x3FB99999A0000000 := by decide +kernel
example : (toBinary64 ⟨1⟩).bits = 0x36A0000000000000 := by decide +kernel

end Binary32
