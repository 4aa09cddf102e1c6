/-
Doubles of one value, and the mean of two.

- `Alike`: one value, up to the sign of a zero and the payload of a NaN.
- `midpoint`: the mean as it is computed, the sum divided by two. It depends on the values alone (`Alike.midpoint`); with
  a NaN it is a NaN, and between doubles of one value it is none (`midpoint_nan`, `midpoint_notNaN`).
- `midpoint_alike_mean_iff`: the sum and the quotient are both rounded, and still the midpoint is the nearest double to
  the mean, unless the sum of two finite doubles overflows. That of two rounded integers does not (`sumFinite_ofInt`).
-/
import Mathlib.Tactic
import RustDataProcessing.Lib.Rounding

namespace Binary64

/-! ## Doubles of one value -/

/-- one value, up to the sign of a zero and the payload of a NaN -/
def Alike (x y : Binary64) : Prop := x.isNaN = y.isNaN ∧ (x.isNaN = false → x.orderKey = y.orderKey)

instance (x y : Binary64) : Decidable (Alike x y) := inferInstanceAs (Decidable (_ ∧ _))

theorem Alike.refl (x : Binary64) : Alike x x := ⟨rfl, fun _ => rfl⟩

theorem Alike.symm {x y : Binary64} (h : Alike x y) : Alike y x := ⟨h.1.symm, fun hy => (h.2 (h.1.trans hy)).symm⟩

theorem Alike.trans {x y z : Binary64} (h : Alike x y) (h' : Alike y z) : Alike x z :=
  ⟨h.1.trans h'.1, fun hx => (h.2 hx).trans (h'.2 (h.1.symm.trans hx))⟩

theorem alike_of_nan {x y : Binary64} (hx : x.isNaN = true) (hy : y.isNaN = true) : Alike x y :=
  ⟨hx.trans hy.symm, fun h => by simp [hx] at h⟩

theorem zeros_alike : ∀ b b', Alike (zero b) (zero b') := by decide +kernel

theorem eq_zero_of_orderKey {x : Binary64} (h : x.orderKey = 0) : x = zero x.isNegative := by
  have hmagnitude : x.magnitude = 0 := by
    unfold orderKey at h
    split_ifs at h <;> omega
  have hkey : ∀ b, (zero b).totalKey = if b then -1 else 0 := by decide +kernel
  apply totalKey_injective
  rw [hkey, totalKey, hmagnitude]
  rfl

theorem eq_or_zeros {x y : Binary64} (h : x.orderKey = y.orderKey) : x = y ∨ ∃ b b', x = zero b ∧ y = zero b' := by
  rcases eq_or_ne x.orderKey 0 with h0 | h0
  · exact Or.inr ⟨_, _, eq_zero_of_orderKey h0, eq_zero_of_orderKey (h.symm.trans h0)⟩
  · have hkey : (zero true).orderKey = 0 := by decide +kernel
    refine Or.inl (eq_of_orderKey ?_ ?_ h)
    · rintro rfl
      exact h0 hkey
    · rintro rfl
      exact h0 (h.trans hkey)

/-- **Alike**: both NaN, or the same double, or two zeros -/
theorem Alike.cases {x y : Binary64} (h : Alike x y) :
    (x.isNaN = true ∧ y.isNaN = true) ∨ x = y ∨ ∃ b b', x = zero b ∧ y = zero b' := by
  rcases hx : x.isNaN with - | -
  · exact Or.inr (eq_or_zeros (h.2 hx))
  · exact Or.inl ⟨rfl, h.1.symm.trans hx⟩

/-! ## Midpoints -/

theorem notNaN_ofWord (negative : Bool) {w : ℕ} (hw : w ≤ 2047 * 2 ^ 52) : (ofWord negative w).isNaN = false := by
  obtain ⟨-, hexp, hfrac⟩ := fields_of_word negative hw
  rw [isNaN, hexp, hfrac, decide_eq_false_iff_not]
  omega

/-- a rounded ratio is a number or an infinity -/
theorem notNaN_ofRatio (negative : Bool) (num den : ℕ) : (ofRatio negative num den).isNaN = false := by
  unfold ofRatio
  dsimp only
  split_ifs
  · exact notNaN_ofWord _ le_rfl
  · exact notNaN_ofWord _ (by omega)
  · exact notNaN_ofWord _ le_rfl
  · exact notNaN_ofWord _ (by omega)

theorem notNaN_zero (b : Bool) : (zero b).isNaN = false := notNaN_ofWord b (Nat.zero_le _)

theorem add_comm (x y : Binary64) : x.add y = y.add x := by
  have heq : decide (y = x) = decide (x = y) := decide_eq_decide.2 eq_comm
  unfold add
  rw [Bool.or_comm y.isNaN, Int.add_comm y.units, Bool.and_comm y.isNegative, heq]
  rcases x.isFinite <;> rcases y.isFinite <;> simp
  split_ifs with hnan heq
  · rfl
  · exact heq
  · rfl

theorem add_nan {x : Binary64} (hx : x.isNaN = true) (y : Binary64) : x.add y = nan := by
  unfold add
  simp [hx]

/-- adding to one zero or to the other -/
theorem zero_add_alike (b b' : Bool) (y : Binary64) : Alike ((zero b).add y) ((zero b').add y) := by
  rcases hy : y.isNaN with - | -
  · unfold add
    simp only [notNaN_zero, hy, finite_zero, units_zero, Bool.or_false, Bool.false_eq_true, if_false, if_true,
      Int.zero_add]
    split_ifs
    · exact zeros_alike _ _
    · exact .refl _
    · exact .refl _
  · rw [add_comm, add_comm (zero b'), add_nan hy, add_nan hy]
    exact .refl _

theorem Alike.add_right {x x' : Binary64} (h : Alike x x') (y : Binary64) : Alike (x.add y) (x'.add y) := by
  rcases h.cases with ⟨hx, hx'⟩ | rfl | ⟨b, b', rfl, rfl⟩
  · rw [add_nan hx, add_nan hx']
    exact .refl _
  · exact .refl _
  · exact zero_add_alike b b' y

theorem Alike.add {x x' y y' : Binary64} (h : Alike x x') (h' : Alike y y') : Alike (x.add y) (x'.add y') := by
  refine (h.add_right y).trans ?_
  rw [add_comm x' y, add_comm x' y']
  exact h'.add_right x'

/-- the mean of two doubles, as it is computed -/
def midpoint (x y : Binary64) : Binary64 := (x + y) / ofInt 2

theorem two_facts : (ofInt 2).isNaN = false ∧ (ofInt 2).isFinite = true ∧ (ofInt 2).scaled ≠ 0 := by decide +kernel

theorem half_notNaN {x : Binary64} (hx : x.isNaN = false) : (x.div (ofInt 2)).isNaN = false := by
  obtain ⟨hnan, hfinite, hscaled⟩ := two_facts
  unfold div
  simp only [hx, hnan, hfinite, hscaled, Bool.or_false, Bool.not_true, Bool.false_eq_true, if_false, if_true, ne_eq,
    not_false_eq_true]
  split_ifs
  · exact notNaN_ofRatio _ _ _
  · exact notNaN_ofWord _ le_rfl

theorem half_nan {x : Binary64} (hx : x.isNaN = true) : x.div (ofInt 2) = nan := by
  unfold div
  simp [hx]

theorem Alike.half {x x' : Binary64} (h : Alike x x') : Alike (x.div (ofInt 2)) (x'.div (ofInt 2)) := by
  rcases h.cases with ⟨hx, hx'⟩ | rfl | ⟨b, b', rfl, rfl⟩
  · rw [half_nan hx, half_nan hx']
    exact .refl _
  · exact .refl _
  · have hzeros : ∀ b b', Alike ((zero b).div (ofInt 2)) ((zero b').div (ofInt 2)) := by decide +kernel
    exact hzeros b b'

/-- **Midpoints** of doubles that are alike -/
theorem Alike.midpoint {x x' y y' : Binary64} (h : Alike x x') (h' : Alike y y') :
    Alike (x.midpoint y) (x'.midpoint y') := (h.add h').half

theorem nan_isNaN : nan.isNaN = true := by decide +kernel

/-- the midpoint with a NaN -/
theorem midpoint_nan {x y : Binary64} (h : x.isNaN = true ∨ y.isNaN = true) : (x.midpoint y).isNaN = true := by
  have hsum : x.add y = nan := by
    rcases h with hx | hy
    · exact add_nan hx y
    · rw [add_comm, add_nan hy]
  change ((x.add y).div (ofInt 2)).isNaN = true
  rw [hsum, half_nan nan_isNaN]
  exact nan_isNaN

/-- a double added to itself -/
theorem add_self_notNaN {x : Binary64} (hx : x.isNaN = false) : (x.add x).isNaN = false := by
  unfold add
  simp only [hx, Bool.or_false, Bool.false_eq_true, if_false, decide_true, Bool.or_true, if_true]
  split_ifs
  · exact notNaN_zero _
  · exact notNaN_ofRatio _ _ _
  · exact hx

/-- between doubles of one value -/
theorem midpoint_notNaN {x y : Binary64} (hx : x.isNaN = false) (h : Alike x y) : (x.midpoint y).isNaN = false := by
  have hself : (x.midpoint x).isNaN = false := half_notNaN (add_self_notNaN hx)
  exact ((Alike.refl x).midpoint h).1.symm.trans hself

/-! ## The nearest double to the mean -/

/-- the mean of two finite doubles, rounded once; the sum of others -/
def mean (x y : Binary64) : Binary64 :=
  if x.isFinite && y.isFinite then ofRatio (x.units + y.units < 0) (x.units + y.units).natAbs (2 * unit) else x + y

/-- two finite doubles whose sum is one -/
def SumFinite (x y : Binary64) : Prop := x.isFinite = true → y.isFinite = true → (x + y).isFinite = true

instance (x y : Binary64) : Decidable (SumFinite x y) := inferInstanceAs (Decidable (_ → _ → _))

theorem finite_of_alike {x y : Binary64} (h : Alike x y) : x.isFinite = y.isFinite := by
  have hnan : ∀ z : Binary64, z.isNaN = true → z.isFinite = false := by
    intro z hz
    by_contra hfinite
    rw [not_nan_of_finite (by simpa using hfinite)] at hz
    cases hz
  rcases h.cases with ⟨hx, hy⟩ | rfl | ⟨b, b', rfl, rfl⟩
  · rw [hnan x hx, hnan y hy]
  · rfl
  · rw [finite_zero, finite_zero]

theorem add_not_finite {x y : Binary64} (h : ¬ (x.isFinite = true ∧ y.isFinite = true)) : (x.add y).isFinite = false := by
  have hnan : nan.isFinite = false := by decide +kernel
  unfold add
  rcases hx : x.isFinite with - | - <;> rcases hy : y.isFinite with - | -
  · simp only [Bool.false_eq_true, if_false, Bool.false_or]
    split_ifs
    · exact hnan
    · exact hx
    · exact hnan
  · simp only [Bool.false_eq_true, if_false, Bool.true_or, if_true]
    split_ifs
    · exact hnan
    · exact hx
  · simp only [Bool.false_eq_true, if_false, if_true]
    split_ifs
    · exact hnan
    · exact hy
  · exact absurd ⟨hx, hy⟩ h

/-- half of an infinity, and of a NaN -/
theorem half_alike {x : Binary64} (hx : x.isFinite = false) : Alike (x.div (ofInt 2)) x := by
  rcases hnan : x.isNaN with - | -
  · obtain ⟨htwo, hfinite, -⟩ := two_facts
    have hsign : (ofInt 2).isNegative = false := by decide +kernel
    have hhalf : x.div (ofInt 2) = infinity x.isNegative := by
      unfold div
      simp [hnan, htwo, hx, hfinite, hsign]
    have hself : x = infinity x.isNegative := by
      have hexp : x.exponent = 2047 := by simpa [isFinite] using hx
      have hfrac : x.fraction = 0 := by simpa [isNaN, hexp] using hnan
      have hfields := ofWord_fields x
      rw [hexp, hfrac] at hfields
      exact hfields.symm
    rw [hhalf, ← hself]
    exact .refl x
  · rw [half_nan hnan]
    exact alike_of_nan nan_isNaN hnan

/-- half of a finite double, by its units -/
theorem half_ofWord (negative : Bool) {w : ℕ} (hw : w < 2047 * 2 ^ 52) :
    (ofWord negative w).div (ofInt 2) = ofRatio negative (ofWord negative w).scaled (2 * unit) := by
  have htwo : (ofInt 2).isNaN = false ∧ (ofInt 2).isFinite = true ∧ (ofInt 2).isNegative = false ∧
      (ofInt 2).scaled = 2 * unit := by decide +kernel
  have hunit : 2 * unit ≠ 0 := (Nat.mul_pos Nat.two_pos unit_pos).ne'
  unfold div
  simp [notNaN_ofWord negative hw.le, isFinite_ofWord negative hw, (fields_of_word negative hw.le).1, htwo, hunit]

/-- **Two roundings are one**: the half of a rounded number of units -/
theorem half_ofRatio_unit (negative : Bool) {a : ℕ} (ha : unitsWord a < 2047 * 2 ^ 52) :
    (ofRatio negative a unit).div (ofInt 2) = ofRatio negative a (2 * unit) := by
  have hcapped : cappedWord (unitsWord a) = unitsWord a := if_neg (Nat.not_le.2 ha)
  rw [ofRatio_unit, hcapped, half_ofWord negative ha, ofRatio_half_unit, ofRatio_half_unit, unitsWord_scaled negative ha]
  have hscaled := unitsWord_scaled negative ha
  generalize (ofWord negative (unitsWord a)).scaled = b at hscaled ⊢
  rcases Nat.lt_or_ge b (2 ^ 53) with hb | hb <;> rcases Nat.lt_or_ge a (2 ^ 53) with ha' | ha'
  · rw [unitsWord_small hb, unitsWord_small ha'] at hscaled
    rw [hscaled]
  · have := le_unitsWord ha'
    rw [unitsWord_small hb] at hscaled
    omega
  · have := le_unitsWord hb
    rw [unitsWord_small ha'] at hscaled
    omega
  · rw [if_neg (Nat.not_lt.2 hb), if_neg (Nat.not_lt.2 ha')]

theorem scaled_le {x : Binary64} (hx : x.isFinite = true) {k : ℕ} (hk : k = 2045) : x.scaled ≤ (2 ^ 53 - 1) * 2 ^ k := by
  have hfrac := x.fraction_lt
  have hexp : x.exponent ≤ 2046 := by
    have hne : x.exponent ≠ 2047 := by simpa [isFinite] using hx
    have := x.exponent_le
    omega
  unfold scaled
  split_ifs
  · calc x.fraction ≤ (2 ^ 53 - 1) * 1 := by omega
      _ ≤ (2 ^ 53 - 1) * 2 ^ k := Nat.mul_le_mul_left _ (Nat.two_pow_pos k)
  · exact Nat.mul_le_mul (by omega) (Nat.pow_le_pow_right (by omega) (by omega))

/-- the mean of two finite doubles is one -/
theorem finite_mean {x y : Binary64} (hx : x.isFinite = true) (hy : y.isFinite = true) : (x.mean y).isFinite = true := by
  obtain ⟨k, hk⟩ : ∃ k, k = 2045 := ⟨2045, rfl⟩
  have hsum : (x.units + y.units).natAbs ≤ 2 * ((2 ^ 53 - 1) * 2 ^ k) := by
    have hxs := natAbs_units x
    have hys := natAbs_units y
    have hxle := scaled_le hx hk
    have hyle := scaled_le hy hk
    omega
  have hlargest : unitsWord (2 * ((2 ^ 53 - 1) * 2 ^ k)) < 2048 * 2 ^ 52 := by
    rw [hk]
    decide +kernel
  have hword := (unitsWord_mono hsum).trans_lt hlargest
  rw [mean, hx, hy, Bool.and_self, if_pos rfl, ofRatio_half_unit]
  generalize (x.units + y.units).natAbs = a at hword ⊢
  split_ifs with hsmall
  · have hhalf := roundHalfEven_le a 2
    have hcapped : cappedWord (roundHalfEven a 2) = roundHalfEven a 2 := if_neg (by omega)
    rw [hcapped]
    exact isFinite_ofWord _ (by omega)
  · have hcapped : cappedWord (unitsWord a - 2 ^ 52) = unitsWord a - 2 ^ 52 := if_neg (by omega)
    rw [hcapped]
    exact isFinite_ofWord _ (by omega)

/-- the sum of two finite doubles that cancel -/
theorem add_cancel {x y : Binary64} (hx : x.isFinite = true) (hy : y.isFinite = true) (h0 : x.units + y.units = 0) :
    x.add y = zero (x.isNegative && y.isNegative) := by
  unfold add
  simp [not_nan_of_finite hx, not_nan_of_finite hy, hx, hy, h0]

/-- the sum of two finite doubles, rounded -/
theorem add_finite {x y : Binary64} (hx : x.isFinite = true) (hy : y.isFinite = true) (h0 : x.units + y.units ≠ 0) :
    x.add y = ofRatio (x.units + y.units < 0) (x.units + y.units).natAbs unit := by
  unfold add
  simp [not_nan_of_finite hx, not_nan_of_finite hy, hx, hy, h0]

theorem half_add_alike_mean {x y : Binary64} (hx : x.isFinite = true) (hy : y.isFinite = true)
    (hsum : (x.add y).isFinite = true) : Alike ((x.add y).div (ofInt 2)) (x.mean y) := by
  have hmean : x.mean y = ofRatio (x.units + y.units < 0) (x.units + y.units).natAbs (2 * unit) := by
    rw [mean, hx, hy, Bool.and_self, if_pos rfl]
  rw [hmean]
  rcases eq_or_ne (x.units + y.units) 0 with h0 | h0
  · have hzeros : ∀ b, Alike ((zero b).div (ofInt 2)) (ofRatio false 0 (2 * unit)) := by decide +kernel
    rw [add_cancel hx hy h0, h0]
    exact hzeros _
  · rw [add_finite hx hy h0] at hsum ⊢
    have hword : unitsWord (x.units + y.units).natAbs < 2047 * 2 ^ 52 := by
      by_contra hover
      have hcapped : cappedWord (unitsWord (x.units + y.units).natAbs) = 2047 * 2 ^ 52 := if_pos (Nat.not_lt.1 hover)
      have hexp := (fields_of_word (decide (x.units + y.units < 0)) (le_refl (2047 * 2 ^ 52))).2.1
      rw [ofRatio_unit, hcapped, isFinite, hexp] at hsum
      simp at hsum
    rw [half_ofRatio_unit _ hword]
    exact .refl _

/-- **The midpoint is the mean** exactly when the sum of two finite doubles does not overflow -/
theorem midpoint_alike_mean_iff {x y : Binary64} : Alike (x.midpoint y) (x.mean y) ↔ SumFinite x y := by
  change Alike ((x.add y).div (ofInt 2)) (x.mean y) ↔ _
  by_cases hfinite : x.isFinite = true ∧ y.isFinite = true
  · obtain ⟨hx, hy⟩ := hfinite
    refine ⟨fun h _ _ => ?_, fun h => half_add_alike_mean hx hy (h hx hy)⟩
    by_contra hover
    have hhalf := finite_of_alike (half_alike (Bool.eq_false_of_not_eq_true hover))
    have hmean := (finite_of_alike h).trans (finite_mean hx hy)
    exact hover (hhalf.symm.trans hmean)
  · have hmean : x.mean y = x.add y := by
      rw [mean, if_neg (by simpa using hfinite)]
      rfl
    rw [hmean]
    exact iff_of_true (half_alike (add_not_finite hfinite)) fun hx hy => absurd ⟨hx, hy⟩ hfinite

-- the greatest double cannot be added to itself
example : ¬ SumFinite ⟨0x7FEFFFFFFFFFFFFF⟩ ⟨0x7FEFFFFFFFFFFFFF⟩ := by decide +kernel

/-- the units of a rounded integer -/
theorem scaled_ofInt_lt {n : ℤ} (hn : n.natAbs ≤ 2 ^ 63) : (ofInt n).scaled < unit * 2 ^ 64 := by
  have hbounds : unitsWord (unit * 2 ^ 63) < unitsWord (unit * 2 ^ 64) ∧ unitsWord (unit * 2 ^ 64) < 2047 * 2 ^ 52 := by
    decide +kernel
  have hword := (unitsWord_mono (Nat.mul_le_mul_left unit hn)).trans_lt hbounds.1
  have hfits := hword.trans hbounds.2
  have hcapped : cappedWord (unitsWord (unit * n.natAbs)) = unitsWord (unit * n.natAbs) := if_neg (Nat.not_le.2 hfits)
  refine Nat.lt_of_not_le fun hge => ?_
  have hmono := unitsWord_mono hge
  rw [ofInt_word, hcapped, unitsWord_scaled _ hfits] at hmono
  exact absurd hword (Nat.not_lt.2 hmono)

/-- **Rounded integers** add up without overflow -/
theorem sumFinite_ofInt {m n : ℤ} (hm : m.natAbs ≤ 2 ^ 63) (hn : n.natAbs ≤ 2 ^ 63) :
    SumFinite (ofInt m) (ofInt n) := by
  intro hx hy
  change ((ofInt m).add (ofInt n)).isFinite = true
  rcases eq_or_ne ((ofInt m).units + (ofInt n).units) 0 with h0 | h0
  · rw [add_cancel hx hy h0]
    exact finite_zero _
  · have hsum : ((ofInt m).units + (ofInt n).units).natAbs ≤ unit * 2 ^ 65 := by
      have hdouble : unit * 2 ^ 65 = unit * 2 ^ 64 + unit * 2 ^ 64 := by ring
      rw [hdouble]
      calc ((ofInt m).units + (ofInt n).units).natAbs
          ≤ (ofInt m).units.natAbs + (ofInt n).units.natAbs := Int.natAbs_add_le _ _
        _ ≤ unit * 2 ^ 64 + unit * 2 ^ 64 := by
          rw [natAbs_units, natAbs_units]
          exact Nat.add_le_add (scaled_ofInt_lt hm).le (scaled_ofInt_lt hn).le
    have hlargest : unitsWord (unit * 2 ^ 65) < 2047 * 2 ^ 52 := by decide +kernel
    have hword := (unitsWord_mono hsum).trans_lt hlargest
    have hcapped : cappedWord (unitsWord ((ofInt m).units + (ofInt n).units).natAbs) =
        unitsWord ((ofInt m).units + (ofInt n).units).natAbs := if_neg (Nat.not_le.2 hword)
    rw [add_finite hx hy h0, ofRatio_unit, hcapped]
    exact isFinite_ofWord _ hword

end Binary64
