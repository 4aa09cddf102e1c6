/-
IEEE 754 arithmetic on binary64 bit patterns: the exact result, rounded to nearest, ties to even.

- `add`, `sub`, `mul`, `div`, `sqrt`, and the comparison `partialCmp`, evaluate on any two doubles. Every NaN result is
  the one `nan`: the payload and the sign of a computed NaN are not specified.
- `units`: the value of a finite double, as a whole number of the smallest positive double; `real`: as a rational.
- `add_exact`, `mul_self_exact`: an operation whose exact result is a double returns it, with +0 for a zero.
- `ExactSums s`: every sum of some of the members of `s` is a double. Then adding them up gives one result, whatever the
  order and the bracketing of the additions (`ExactSums.sum_unique`).
-/
import Mathlib.Tactic
import RustDataProcessing.Lib.Display
import RustDataProcessing.Lib.Reduction

namespace Binary64

open Reduction

/-! ## Operations -/

def zero (negative : Bool) : Binary64 := ofWord negative 0

def units (x : Binary64) : ℤ := if x.isNegative then -x.scaled else x.scaled

def neg (x : Binary64) : Binary64 := ⟨x.bits ^^^ 0x8000000000000000⟩

def add (x y : Binary64) : Binary64 :=
  if x.isNaN || y.isNaN then nan
  else if x.isFinite then
    if y.isFinite then
      let n := x.units + y.units
      -- an exact zero is +0, unless both operands are -0
      if n = 0 then zero (x.isNegative && y.isNegative) else ofRatio (n < 0) n.natAbs unit
    else y
  else if y.isFinite || x = y then x
  else nan

def sub (x y : Binary64) : Binary64 := x.add y.neg

def mul (x y : Binary64) : Binary64 :=
  let negative := x.isNegative != y.isNegative
  if x.isNaN || y.isNaN then nan
  else if x.isFinite && y.isFinite then ofRatio negative (x.scaled * y.scaled) (unit * unit)
  else if x.scaled = 0 || y.scaled = 0 then nan
  else infinity negative

def div (x y : Binary64) : Binary64 :=
  let negative := x.isNegative != y.isNegative
  if x.isNaN || y.isNaN then nan
  else if x.isFinite then
    if !y.isFinite then zero negative
    else if y.scaled ≠ 0 then ofRatio negative x.scaled y.scaled
    else if x.scaled = 0 then nan
    else infinity negative
  else if y.isFinite then infinity negative
  else nan

/-- the root with more places than a double has; a last bit stands for what is cut off -/
def sqrt (x : Binary64) : Binary64 :=
  if x.isNaN then nan
  else if x.scaled = 0 then x
  else if x.isNegative then nan
  else if x.isFinite then
    let shifted := x.scaled * 2 ^ 128
    let root := Nat.sqrt shifted
    ofRatio false (2 * root + (if root * root = shifted then 0 else 1)) (2 ^ 602)
  else x

/-- the order of the numbers, infinities included: -0 and +0 have one key -/
def orderKey (x : Binary64) : ℤ := if x.isNegative then -x.magnitude else x.magnitude

def partialCmp (x y : Binary64) : Option Ordering :=
  if x.isNaN || y.isNaN then none else some (compare x.orderKey y.orderKey)

/-- `f64::min`: a NaN is passed over -/
def min (x y : Binary64) : Binary64 :=
  if x.isNaN then y else if y.isNaN then x else if y.orderKey < x.orderKey then y else x

/-- `f64::max` -/
def max (x y : Binary64) : Binary64 :=
  if x.isNaN then y else if y.isNaN then x else if x.orderKey < y.orderKey then y else x

instance : Zero Binary64 := ⟨zero false⟩
instance : Add Binary64 := ⟨add⟩
instance : Sub Binary64 := ⟨sub⟩
instance : Mul Binary64 := ⟨mul⟩
instance : Div Binary64 := ⟨div⟩
instance : NatCast Binary64 := ⟨fun n => ofInt n⟩

-- 0.1 + 0.2, 1 / 3, the root of 2 and the difference of two infinities
example : (add (ofRatio false 1 10) (ofRatio false 2 10)).bits = 0x3FD3333333333334 := by decide +kernel
example : div (ofInt 1) (ofInt 3) = ofRatio false 1 3 := by decide +kernel
example : (sqrt (ofInt 2)).bits = 0x3FF6A09E667F3BCD := by decide +kernel
example : sub (infinity false) (infinity false) = nan := by decide +kernel

/-! ## Values -/

/-- the value of a finite double -/
def real (x : Binary64) : ℚ := x.units / unit

theorem value_eq_real {x : Binary64} (h : x.isFinite = true) : x.value = some x.real := by
  unfold value real units
  rw [if_pos h]
  split_ifs <;> simp

theorem value_eq_some_iff {x : Binary64} {q : ℚ} : x.value = some q ↔ x.isFinite = true ∧ x.real = q := by
  constructor
  · intro h
    have hfin : x.isFinite = true := by rw [← value_isSome, h]; rfl
    rw [value_eq_real hfin] at h
    exact ⟨hfin, Option.some.inj h⟩
  · rintro ⟨hfin, rfl⟩
    exact value_eq_real hfin

theorem real_inj {x y : Binary64} : x.real = y.real ↔ x.units = y.units := by
  have hunit : (unit : ℚ) ≠ 0 := Nat.cast_ne_zero.2 unit_pos.ne'
  unfold real
  rw [div_left_inj' hunit, Int.cast_inj]

theorem not_nan_of_finite {x : Binary64} (h : x.isFinite = true) : x.isNaN = false := by
  simp only [isFinite, decide_eq_true_eq] at h
  simp [isNaN, h]

/-- the sign and the units make a finite double -/
theorem eq_of_units {x y : Binary64} (hx : x.isFinite = true) (hy : y.isFinite = true)
    (hsign : x.isNegative = y.isNegative) (h : x.units = y.units) : x = y := by
  have hscaled : x.scaled = y.scaled := by
    unfold units at h
    rw [hsign] at h
    split_ifs at h <;> omega
  rw [← ofRatio_scaled hx, ← ofRatio_scaled hy, hsign, hscaled]

theorem sign_of_units {x : Binary64} (h : x.units ≠ 0) : x.isNegative = decide (x.units < 0) := by
  unfold units at h ⊢
  split_ifs at h ⊢ with hs
  · rw [hs]
    exact (decide_eq_true (by omega)).symm
  · rw [Bool.not_eq_true] at hs
    rw [hs]
    exact (decide_eq_false (by omega)).symm

theorem natAbs_units (x : Binary64) : x.units.natAbs = x.scaled := by
  unfold units
  split_ifs <;> omega

/-! ## Zeros -/

theorem zero_facts : ∀ b, (zero b).isFinite = true ∧ (zero b).units = 0 ∧ (zero b).isNegative = b := by decide +kernel

theorem finite_zero (b : Bool) : (zero b).isFinite = true := (zero_facts b).1

theorem units_zero (b : Bool) : (zero b).units = 0 := (zero_facts b).2.1

theorem eq_zero {x : Binary64} (hx : x.isFinite = true) (h : x.units = 0) : x = zero x.isNegative :=
  eq_of_units hx (finite_zero _) (zero_facts _).2.2.symm (by rw [h, units_zero])

/-- two doubles of one value, neither of them -0 -/
theorem eq_of_real {x y : Binary64} (hx : x.isFinite = true) (hy : y.isFinite = true) (hx0 : x ≠ zero true)
    (hy0 : y ≠ zero true) (h : x.real = y.real) : x = y := by
  rw [real_inj] at h
  have hsign : x.isNegative = y.isNegative := by
    rcases eq_or_ne x.units 0 with h0 | h0
    · have hxz := eq_zero hx h0
      have hyz := eq_zero hy (h ▸ h0)
      rcases hxs : x.isNegative <;> rcases hys : y.isNegative
      · rfl
      · exact absurd (hys ▸ hyz) hy0
      · exact absurd (hxs ▸ hxz) hx0
      · rfl
    · rw [sign_of_units h0, sign_of_units (h ▸ h0), h]
  exact eq_of_units hx hy hsign h

theorem eq_of_orderKey {x y : Binary64} (hx0 : x ≠ zero true) (hy0 : y ≠ zero true) (h : x.orderKey = y.orderKey) :
    x = y := by
  have hzero : ∀ z : Binary64, z ≠ zero true → z.isNegative = true → z.magnitude ≠ 0 := by
    intro z hz hs h0
    refine hz (totalKey_injective ?_)
    have hkey : (zero true).totalKey = -1 := by decide +kernel
    rw [hkey, totalKey, if_pos hs, h0]
    rfl
  refine totalKey_injective ?_
  unfold orderKey at h
  unfold totalKey
  rcases hxs : x.isNegative <;> rcases hys : y.isNegative <;>
    simp only [hxs, hys, Bool.false_eq_true, if_false, if_true] at h ⊢
  · exact h
  · have := hzero y hy0 hys
    omega
  · have := hzero x hx0 hxs
    omega
  · omega

/-! ## Exact results -/

/-- **An exact sum** is the sum -/
theorem add_exact {x y z : Binary64} (hx : x.isFinite = true) (hy : y.isFinite = true)
    (hz : z.value = some (x.real + y.real)) :
    (x.add y).value = some (x.real + y.real) ∧ (x.add y = zero true → x = zero true ∧ y = zero true) := by
  obtain ⟨hzfin, hzreal⟩ := value_eq_some_iff.1 hz
  have hunit : (unit : ℚ) ≠ 0 := Nat.cast_ne_zero.2 unit_pos.ne'
  have hunits : z.units = x.units + y.units := by
    unfold real at hzreal
    rw [← add_div, div_left_inj' hunit] at hzreal
    exact_mod_cast hzreal
  unfold add
  rw [not_nan_of_finite hx, not_nan_of_finite hy, if_neg (by simp), if_pos hx, if_pos hy]
  dsimp only
  split_ifs with h0
  · constructor
    · rw [value_eq_some_iff, ← hzreal, real_inj, units_zero, hunits]
      exact ⟨finite_zero _, h0.symm⟩
    · intro h
      have hboth : (x.isNegative && y.isNegative) = true := by
        have := congrArg isNegative h
        rwa [(zero_facts _).2.2, (zero_facts _).2.2] at this
      obtain ⟨hxs, hys⟩ := Bool.and_eq_true_iff.1 hboth
      have hxu : x.units ≤ 0 := by simp only [units, hxs, if_true]; omega
      have hyu : y.units ≤ 0 := by simp only [units, hys, if_true]; omega
      have hx0 := eq_zero hx (by omega)
      have hy0 := eq_zero hy (by omega)
      rw [hxs] at hx0
      rw [hys] at hy0
      exact ⟨hx0, hy0⟩
  · have hround : ofRatio (decide (x.units + y.units < 0)) (x.units + y.units).natAbs unit = z := by
      rw [← hunits, natAbs_units, ← sign_of_units (by omega)]
      exact ofRatio_scaled hzfin
    rw [hround]
    constructor
    · exact hz
    · intro h
      rw [h, units_zero] at hunits
      exact absurd hunits.symm h0

/-- the square of a double, where it is a double -/
structure IsSquare (x z : Binary64) : Prop where
  notNaN : x.isNaN = false
  finite : x.isFinite = true → z.value = some (x.real * x.real) ∧ z.isNegative = false
  infinite : x.isFinite = false → z = infinity false

/-- a square is not -0 -/
theorem IsSquare.ne_zero {x z : Binary64} (h : IsSquare x z) : z ≠ zero true := by
  rintro rfl
  rcases hx : x.isFinite with - | -
  · exact absurd (h.infinite hx) (by decide +kernel)
  · exact absurd (h.finite hx).2 (by decide +kernel)

/-- **An exact square** is the product -/
theorem mul_self_exact {x z : Binary64} (h : IsSquare x z) : x.mul x = z := by
  unfold mul
  rw [h.notNaN, if_neg (by simp)]
  rcases hx : x.isFinite with - | -
  · rw [h.infinite hx]
    have hscaled : x.scaled ≠ 0 := by
      have he : x.exponent = 2047 := by simpa [isFinite] using hx
      rw [scaled, if_neg (by omega)]
      exact (Nat.mul_pos (by omega) (Nat.two_pow_pos _)).ne'
    simp [hscaled]
  · obtain ⟨hvalue, hsign⟩ := h.finite hx
    obtain ⟨hzfin, hzreal⟩ := value_eq_some_iff.1 hvalue
    have hunit : (unit : ℚ) ≠ 0 := Nat.cast_ne_zero.2 unit_pos.ne'
    have hscaled : x.scaled * x.scaled = unit * z.scaled := by
      have hzunits : z.units = z.scaled := by simp [units, hsign]
      have hsq : x.units * x.units = (x.scaled * x.scaled : ℕ) := by
        unfold units
        split_ifs <;> push_cast <;> ring
      unfold real at hzreal
      rw [div_mul_div_comm, div_eq_div_iff hunit (mul_ne_zero hunit hunit), hzunits] at hzreal
      have hcast : (z.scaled : ℤ) * (unit * unit) = x.units * x.units * unit := by exact_mod_cast hzreal
      rw [hsq] at hcast
      have hnat : z.scaled * (unit * unit) = x.scaled * x.scaled * unit := by exact_mod_cast hcast
      have := Nat.eq_of_mul_eq_mul_right unit_pos ((Nat.mul_assoc _ _ _).trans hnat)
      rw [← this, Nat.mul_comm]
    simp only [Bool.and_self, if_true, bne_self_eq_false]
    rw [hscaled, ofRatio_mul unit_pos, ← hsign, ofRatio_scaled hzfin]

/-! ## Sums in any order -/

def isZero (x : Binary64) : Prop := x.value = some 0

theorem isZero_zero (b : Bool) : isZero (zero b) :=
  value_eq_some_iff.2 ⟨finite_zero b, by simp [real, units_zero]⟩

/-- no addition of some of the members rounds, overflows or meets two infinities of different sign -/
structure ExactSums (s : Multiset Binary64) : Prop where
  notNaN : ∀ x ∈ s, x.isNaN = false
  oneInfinity : ∀ x ∈ s, ∀ y ∈ s, x.isFinite = false → y.isFinite = false → x = y
  representable : ∀ t ≤ s, (∀ x ∈ t, x.isFinite = true) → ∃ z : Binary64, z.value = some (t.map real).sum

/-- the exact sum of a part: its infinity, or the sum of the values -/
def IsTotal (t : Multiset Binary64) (a : Binary64) : Prop :=
  (a ∈ t ∧ a.isFinite = false) ∨
    ((∀ x ∈ t, x.isFinite = true) ∧ a.value = some (t.map real).sum ∧ (a = zero true → t = 0))

theorem add_infinite {x y : Binary64} (hx : x.isFinite = false) (hxn : x.isNaN = false) (hyn : y.isNaN = false)
    (h : y.isFinite = true ∨ x = y) : x.add y = x ∧ y.add x = x := by
  unfold add
  rw [hxn, hyn]
  rcases hy : y.isFinite with - | -
  · obtain rfl := h.resolve_left (by simp [hy])
    simp [hx]
  · simp [hx]

/-- one addition of two parts -/
theorem IsTotal.add {s t u : Multiset Binary64} (hexact : ExactSums s) (hle : t + u ≤ s) {a b : Binary64}
    (ha : IsTotal t a) (hb : IsTotal u b) : IsTotal (t + u) (a.add b) := by
  have hmem : ∀ {x}, x ∈ t ∨ x ∈ u → x ∈ s := fun h => Multiset.mem_of_le hle (Multiset.mem_add.2 h)
  rcases ha with ⟨hat, hainf⟩ | ⟨htfin, haval, hazero⟩ <;> rcases hb with ⟨hbu, hbinf⟩ | ⟨hufin, hbval, hbzero⟩
  · have heq := hexact.oneInfinity a (hmem (.inl hat)) b (hmem (.inr hbu)) hainf hbinf
    have hadd := (add_infinite hainf (hexact.notNaN a (hmem (.inl hat))) (hexact.notNaN b (hmem (.inr hbu))) (.inr heq)).1
    rw [hadd]
    exact .inl ⟨Multiset.mem_add.2 (.inl hat), hainf⟩
  · have hbfin := (value_eq_some_iff.1 hbval).1
    rw [(add_infinite hainf (hexact.notNaN a (hmem (.inl hat))) (not_nan_of_finite hbfin) (.inl hbfin)).1]
    exact .inl ⟨Multiset.mem_add.2 (.inl hat), hainf⟩
  · have hafin := (value_eq_some_iff.1 haval).1
    rw [(add_infinite hbinf (hexact.notNaN b (hmem (.inr hbu))) (not_nan_of_finite hafin) (.inl hafin)).2]
    exact .inl ⟨Multiset.mem_add.2 (.inr hbu), hbinf⟩
  · obtain ⟨hafin, hareal⟩ := value_eq_some_iff.1 haval
    obtain ⟨hbfin, hbreal⟩ := value_eq_some_iff.1 hbval
    have hfin : ∀ x ∈ t + u, x.isFinite = true := by
      intro x hx
      rcases Multiset.mem_add.1 hx with hx | hx
      · exact htfin x hx
      · exact hufin x hx
    have hsum : ((t + u).map real).sum = a.real + b.real := by
      rw [Multiset.map_add, Multiset.sum_add, hareal, hbreal]
    obtain ⟨z, hz⟩ := hexact.representable _ hle hfin
    rw [hsum] at hz
    obtain ⟨hval, hzero⟩ := add_exact hafin hbfin hz
    refine .inr ⟨hfin, by rw [hval, hsum], fun h => ?_⟩
    rw [hazero (hzero h).1, hbzero (hzero h).2, add_zero]

/-- **Every way of adding up** gives the exact sum -/
theorem ExactSums.isTotal {s : Multiset Binary64} (hexact : ExactSums s) (hneg : zero true ∉ s) {a : Binary64}
    (h : AddedUp add isZero s a) : IsTotal s a := by
  refine h.keeps (fun z hz => ?_) (fun x hx => ?_) (fun t u a b hle ha hb => ha.add hexact hle hb) le_rfl
  · exact .inr ⟨by simp, by simpa [isZero] using hz, fun _ => rfl⟩
  · rcases hfin : x.isFinite with - | -
    · exact .inl ⟨Multiset.mem_singleton_self x, hfin⟩
    · refine .inr ⟨by simpa using hfin, by simpa using value_eq_real hfin, fun h => ?_⟩
      exact absurd (h ▸ hx) hneg

/-- **One sum**: the order of the additions does not matter -/
theorem ExactSums.sum_unique {s : Multiset Binary64} (hexact : ExactSums s) (hneg : zero true ∉ s) (hne : s ≠ 0)
    {a b : Binary64} (ha : AddedUp add isZero s a) (hb : AddedUp add isZero s b) : a = b := by
  rcases hexact.isTotal hneg ha with ⟨has, hainf⟩ | ⟨hfin, haval, hazero⟩
  · rcases hexact.isTotal hneg hb with ⟨hbs, hbinf⟩ | ⟨hfin, -, -⟩
    · exact hexact.oneInfinity a has b hbs hainf hbinf
    · rw [hfin a has] at hainf
      cases hainf
  · rcases hexact.isTotal hneg hb with ⟨hbs, hbinf⟩ | ⟨-, hbval, hbzero⟩
    · rw [hfin b hbs] at hbinf
      cases hbinf
    · obtain ⟨hafin, hareal⟩ := value_eq_some_iff.1 haval
      obtain ⟨hbfin, hbreal⟩ := value_eq_some_iff.1 hbval
      exact eq_of_real hafin hbfin (fun h => hne (hazero h)) (fun h => hne (hbzero h)) (hareal.trans hbreal.symm)

end Binary64
