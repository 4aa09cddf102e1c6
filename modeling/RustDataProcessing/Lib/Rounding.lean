/-
Rounding as a function of words: what a number of units is rounded to.

- `ofRatio_unit`, `ofRatio_half_unit`: the double nearest to a number of units, and to half of it, by its word.
- `unitsWord_mono`, `orderKey_ofInt_mono`: rounding keeps the order, ties aside.
- `unitsWord_scaled`: the units of a rounded number are rounded to the same word.
-/
import Mathlib.Tactic
import RustDataProcessing.Lib.Arithmetic64
import RustDataProcessing.Lib.Widening

namespace Binary64

/-! ## The order -/

theorem roundHalfEven_mono (d : ℕ) {a b : ℕ} (h : a ≤ b) : roundHalfEven a d ≤ roundHalfEven b d := by
  have hquot : a / d ≤ b / d := Nat.div_le_div_right h
  rcases hquot.lt_or_eq with hlt | heq
  · have hup := roundHalfEven_le a d
    have hdown := le_roundHalfEven b d
    omega
  · have hmod : a % d ≤ b % d := by
      have ha := Nat.div_add_mod a d
      have hb := Nat.div_add_mod b d
      rw [heq] at ha
      omega
    unfold roundHalfEven
    rw [heq]
    dsimp only
    split_ifs <;> omega

/-- the word of a number of units, were there no largest double -/
def unitsWord (a : ℕ) : ℕ := (a.log2 - 52) * 2 ^ 52 + roundHalfEven a (2 ^ (a.log2 - 52))

theorem unitsWord_mono {a b : ℕ} (h : a ≤ b) : unitsWord a ≤ unitsWord b := by
  unfold unitsWord
  have hlog : a.log2 ≤ b.log2 := by
    rw [Nat.log2_eq_log_two, Nat.log2_eq_log_two]
    exact Nat.log_mono_right h
  rcases (Nat.sub_le_sub_right hlog 52).lt_or_eq with hlt | heq
  · -- in a greater binade the word is at least the least one there
    have hup := (significand_bounds a).1
    have hdown := (significand_bounds b).2 (by omega)
    omega
  · have := roundHalfEven_mono (2 ^ (b.log2 - 52)) h
    rw [heq]
    omega

/-- a number of units that fits the significand is a word -/
theorem unitsWord_small {a : ℕ} (h : a < 2 ^ 53) : unitsWord a = a := by
  have hlog : a.log2 - 52 = 0 := by
    rcases Nat.eq_zero_or_pos a with rfl | hpos
    · rw [Nat.log2_zero]
    · have := (Nat.log2_lt hpos.ne').2 h
      omega
  have hexact := roundHalfEven_exact Nat.one_pos a
  rw [Nat.mul_one] at hexact
  rw [unitsWord, hlog, pow_zero, hexact, Nat.zero_mul, Nat.zero_add]

theorem le_unitsWord {a : ℕ} (h : 2 ^ 53 ≤ a) : 2 ^ 53 ≤ unitsWord a := by
  have hleast : unitsWord (2 ^ 53) = 2 ^ 53 := by decide +kernel
  have := unitsWord_mono h
  rwa [hleast] at this

/-! ## The nearest double -/

/-- beyond the largest double, the word of infinity -/
def cappedWord (w : ℕ) : ℕ := if 2047 * 2 ^ 52 ≤ w then 2047 * 2 ^ 52 else w

theorem cappedWord_le (w : ℕ) : cappedWord w ≤ 2047 * 2 ^ 52 := by
  unfold cappedWord
  split_ifs <;> omega

theorem cappedWord_mono {w w' : ℕ} (h : w ≤ w') : cappedWord w ≤ cappedWord w' := by
  unfold cappedWord
  split_ifs <;> omega

/-- the double of a significand and an exponent -/
theorem ofRatio_word (negative : Bool) {num den p m : ℕ} (hp : Nat.log2 (num * unit / den) - 52 = p)
    (hm : roundHalfEven (num * unit) (den * 2 ^ p) = m) (hfull : p ≠ 0 → 2 ^ 52 ≤ m) :
    ofRatio negative num den = ofWord negative (cappedWord (p * 2 ^ 52 + m)) := by
  unfold ofRatio cappedWord
  dsimp only
  rw [hp, hm]
  have hword : (if m < 2 ^ 52 then m else p * 2 ^ 52 + m) = p * 2 ^ 52 + m := by
    split_ifs with hlow
    · rcases Nat.eq_zero_or_pos p with rfl | hpos
      · omega
      · exact absurd (hfull hpos.ne') (by omega)
    · rfl
  rw [hword]
  split_ifs <;> rfl

/-- **Units** -/
theorem ofRatio_unit (negative : Bool) (a : ℕ) : ofRatio negative a unit = ofWord negative (cappedWord (unitsWord a)) := by
  have hquot : a * unit / unit = a := Nat.mul_div_cancel a unit_pos
  refine ofRatio_word negative (by rw [hquot]) ?_ (significand_bounds a).2
  rw [Nat.mul_comm a, roundHalfEven_mul unit_pos]

/-- **Half of the units**: one binade below, or a significand of fewer bits -/
theorem ofRatio_half_unit (negative : Bool) (a : ℕ) : ofRatio negative a (2 * unit) =
    ofWord negative (cappedWord (if a < 2 ^ 53 then roundHalfEven a 2 else unitsWord a - 2 ^ 52)) := by
  have hquot : a * unit / (2 * unit) = a / 2 := by
    rw [Nat.mul_comm 2, Nat.mul_comm a, Nat.mul_div_mul_left _ _ unit_pos]
  have hround : ∀ p, roundHalfEven (a * unit) (2 * unit * 2 ^ p) = roundHalfEven a (2 ^ (p + 1)) := by
    intro p
    rw [Nat.mul_comm a, Nat.mul_comm 2, Nat.mul_assoc, roundHalfEven_mul unit_pos, pow_succ, Nat.mul_comm 2]
  have hlog : (a / 2).log2 = a.log2 - 1 := by
    rw [Nat.log2_eq_log_two, Nat.log2_eq_log_two, Nat.log_div_base]
  split_ifs with hsmall
  · have hzero : (a / 2).log2 - 52 = 0 := by
      rcases Nat.eq_zero_or_pos a with rfl | hpos
      · rw [hlog, Nat.log2_zero]
      · have := (Nat.log2_lt hpos.ne').2 hsmall
        omega
    have h := @ofRatio_word negative a (2 * unit) 0 (roundHalfEven a 2) (by rw [hquot, hzero]) (hround 0)
      fun h => absurd rfl h
    rwa [Nat.zero_mul, Nat.zero_add] at h
  · have hne : a ≠ 0 := by omega
    have hbits : 53 ≤ a.log2 := (Nat.le_log2 hne).2 (by omega)
    have hp : a.log2 - 1 - 52 + 1 = a.log2 - 52 := by omega
    have hm : roundHalfEven (a * unit) (2 * unit * 2 ^ (a.log2 - 1 - 52)) = roundHalfEven a (2 ^ (a.log2 - 52)) := by
      rw [hround, hp]
    rw [ofRatio_word negative (by rw [hquot, hlog]) hm fun _ => (significand_bounds a).2 (by omega)]
    have hword : (a.log2 - 1 - 52) * 2 ^ 52 + roundHalfEven a (2 ^ (a.log2 - 52)) = unitsWord a - 2 ^ 52 := by
      unfold unitsWord
      generalize roundHalfEven a (2 ^ (a.log2 - 52)) = m
      omega
    rw [hword]

theorem magnitude_ofWord (negative : Bool) {w : ℕ} (hw : w ≤ 2047 * 2 ^ 52) : (ofWord negative w).magnitude = w := by
  obtain ⟨-, hexp, hfrac⟩ := fields_of_word negative hw
  unfold exponent at hexp
  unfold fraction at hfrac
  unfold magnitude at hexp ⊢
  omega

theorem orderKey_ofWord (negative : Bool) {w : ℕ} (hw : w ≤ 2047 * 2 ^ 52) :
    (ofWord negative w).orderKey = if negative then -(w : ℤ) else w := by
  rw [orderKey, (fields_of_word negative hw).1, magnitude_ofWord negative hw]

/-- **The units of a word** are rounded to the word -/
theorem unitsWord_scaled (negative : Bool) {w : ℕ} (hw : w < 2047 * 2 ^ 52) :
    unitsWord (ofWord negative w).scaled = w := by
  have hself := ofRatio_scaled (isFinite_ofWord negative hw)
  rw [ofRatio_unit] at hself
  have hmagnitude := congrArg magnitude hself
  rw [magnitude_ofWord _ (cappedWord_le _), magnitude_ofWord _ hw.le] at hmagnitude
  unfold cappedWord at hmagnitude
  split_ifs at hmagnitude
  · omega
  · exact hmagnitude

/-- an integer is a number of units -/
theorem ofInt_word (k : ℤ) : ofInt k = ofWord (k < 0) (cappedWord (unitsWord (unit * k.natAbs))) := by
  have hround := ofRatio_mul unit_pos (decide (k < 0)) k.natAbs 1
  rw [Nat.mul_one, ofRatio_unit] at hround
  exact hround.symm

/-- **Rounding keeps the order** of the integers -/
theorem orderKey_ofInt_mono {m n : ℤ} (h : m ≤ n) : (ofInt m).orderKey ≤ (ofInt n).orderKey := by
  have hkey : ∀ k : ℤ, (ofInt k).orderKey =
      if k < 0 then -(cappedWord (unitsWord (unit * k.natAbs)) : ℤ) else cappedWord (unitsWord (unit * k.natAbs)) := by
    intro k
    rw [ofInt_word, orderKey_ofWord _ (cappedWord_le _)]
    simp
  have hmono : ∀ i j : ℕ, i ≤ j → cappedWord (unitsWord (unit * i)) ≤ cappedWord (unitsWord (unit * j)) :=
    fun i j hij => cappedWord_mono (unitsWord_mono (Nat.mul_le_mul_left _ hij))
  rw [hkey, hkey]
  split_ifs with hm hn hn
  · have := hmono n.natAbs m.natAbs (by omega)
    omega
  · omega
  · omega
  · have := hmono m.natAbs n.natAbs (by omega)
    omega

end Binary64
