/-
Numbers that are doubles: the singles, and the machine integers up to rounding.

- `exists_scaled`: a significand of at most 53 bits, times a power of two in range, is the value of a double.
- `isFinite_ofInt`: an integer of at most 1023 bits is rounded to a finite double.
- `toBinary64_value`: widening a single keeps its value; an infinity and a NaN have none before and after.
-/
import Mathlib.Tactic
import RustDataProcessing.Lib.Display

namespace Binary64

/-- a double made of its fields has them -/
theorem fields_ofWord (negative : Bool) {e f : ℕ} (he : e ≤ 2047) (hf : f < 2 ^ 52) :
    (ofWord negative (e * 2 ^ 52 + f)).isNegative = negative ∧ (ofWord negative (e * 2 ^ 52 + f)).exponent = e ∧
      (ofWord negative (e * 2 ^ 52 + f)).fraction = f := by
  have hword : (ofWord negative (e * 2 ^ 52 + f)).word = (if negative then 2 ^ 63 else 0) + (e * 2 ^ 52 + f) := by
    unfold ofWord word
    dsimp only
    rw [UInt64.toNat_ofNat']
    split_ifs <;> omega
  unfold exponent fraction magnitude isNegative
  rw [hword]
  refine ⟨?_, ?_, ?_⟩
  · cases negative
    · simp
      omega
    · simp
  · split_ifs <;> omega
  · split_ifs <;> omega

/-- a significand that fills its 53 bits -/
theorem exists_scaled_of_full (negative : Bool) {c j : ℕ} (hlow : 2 ^ 52 ≤ c) (hhigh : c < 2 ^ 53) (hj : j < 2046) :
    ∃ y : Binary64, y.isFinite = true ∧ y.isNegative = negative ∧ y.scaled = c * 2 ^ j := by
  obtain ⟨hsign, hexp, hfrac⟩ := @fields_ofWord negative (j + 1) (c - 2 ^ 52) (by omega) (by omega)
  refine ⟨_, ?_, hsign, ?_⟩
  · rw [isFinite, hexp, decide_eq_true_eq]
    omega
  · rw [scaled, hexp, hfrac, if_neg (by omega), Nat.add_sub_cancel, Nat.add_sub_cancel' hlow]

/-- **Doubles**: a significand of at most 53 bits, times a power of two in range -/
theorem exists_scaled (negative : Bool) {m k : ℕ} (hm : m < 2 ^ 53) (hlow : 52 ≤ k) (hhigh : k < 2046) :
    ∃ y : Binary64, y.isFinite = true ∧ y.isNegative = negative ∧ y.scaled = m * 2 ^ k := by
  rcases Nat.eq_zero_or_pos m with rfl | hpos
  · obtain ⟨hsign, hexp, hfrac⟩ := @fields_ofWord negative 0 0 (by omega) (by omega)
    refine ⟨_, ?_, hsign, ?_⟩
    · rw [isFinite, hexp]
      decide
    · rw [scaled, hexp, hfrac, if_pos rfl, Nat.zero_mul]
  · -- the significand is shifted until it fills its bits
    obtain ⟨hfloor, hceil⟩ := (Nat.log2_eq_iff hpos.ne').1 (rfl : m.log2 = m.log2)
    have hlog : m.log2 < 53 := (Nat.log2_lt hpos.ne').2 hm
    have hfill : 2 ^ 52 ≤ m * 2 ^ (52 - m.log2) := by
      calc 2 ^ 52 = 2 ^ m.log2 * 2 ^ (52 - m.log2) := by rw [← pow_add, Nat.add_sub_cancel' (by omega)]
        _ ≤ m * 2 ^ (52 - m.log2) := Nat.mul_le_mul_right _ hfloor
    have hfit : m * 2 ^ (52 - m.log2) < 2 ^ 53 := by
      calc m * 2 ^ (52 - m.log2) < 2 ^ (m.log2 + 1) * 2 ^ (52 - m.log2) :=
            Nat.mul_lt_mul_of_pos_right hceil (Nat.two_pow_pos _)
        _ = 2 ^ 53 := by rw [← pow_add, show m.log2 + 1 + (52 - m.log2) = 53 by omega]
    obtain ⟨y, hfinite, hsign, hscaled⟩ :=
      @exists_scaled_of_full negative _ (k - (52 - m.log2)) hfill hfit (by omega)
    refine ⟨y, hfinite, hsign, ?_⟩
    rw [hscaled, Nat.mul_assoc, ← pow_add, Nat.add_sub_cancel' (by omega)]

/-- a ratio that is the value of a double rounds to it -/
theorem ofRatio_exact {y : Binary64} (hy : y.isFinite = true) {num den t : ℕ} (ht : 0 < t) (hden : unit = t * den)
    (hnum : y.scaled = t * num) : ofRatio y.isNegative num den = y := by
  rw [← ofRatio_mul ht, ← hden, ← hnum]
  exact ofRatio_scaled hy

theorem roundHalfEven_le (a d : ℕ) : roundHalfEven a d ≤ a / d + 1 := by
  unfold roundHalfEven
  dsimp only
  split_ifs <;> omega

theorem le_roundHalfEven (a d : ℕ) : a / d ≤ roundHalfEven a d := by
  unfold roundHalfEven
  dsimp only
  split_ifs <;> omega

/-- the significand fills its bits, unless it is in the smallest unit -/
theorem significand_bounds (a : ℕ) :
    roundHalfEven a (2 ^ (a.log2 - 52)) ≤ 2 ^ 53 ∧
      (a.log2 - 52 ≠ 0 → 2 ^ 52 ≤ roundHalfEven a (2 ^ (a.log2 - 52))) := by
  constructor
  · have hquot : a / 2 ^ (a.log2 - 52) < 2 ^ 53 := by
      rw [Nat.div_lt_iff_lt_mul (Nat.two_pow_pos _), ← pow_add]
      calc a < 2 ^ (a.log2 + 1) := Nat.lt_log2_self
        _ ≤ 2 ^ (53 + (a.log2 - 52)) := Nat.pow_le_pow_right (by omega) (by omega)
    have := roundHalfEven_le a (2 ^ (a.log2 - 52))
    omega
  · intro hp
    have hne : a ≠ 0 := by
      rintro rfl
      simp at hp
    refine le_trans ?_ (le_roundHalfEven _ _)
    rw [Nat.le_div_iff_mul_le (Nat.two_pow_pos _), ← pow_add, show 52 + (a.log2 - 52) = a.log2 by omega]
    exact Nat.log2_self_le hne

/-- the fields of a double made of its word, up to that of infinity -/
theorem fields_of_word (negative : Bool) {w : ℕ} (hw : w ≤ 2047 * 2 ^ 52) :
    (ofWord negative w).isNegative = negative ∧ (ofWord negative w).exponent = w / 2 ^ 52 ∧
      (ofWord negative w).fraction = w % 2 ^ 52 := by
  have hfields := @fields_ofWord negative (w / 2 ^ 52) (w % 2 ^ 52) (by omega) (Nat.mod_lt _ (by decide))
  rw [Nat.div_add_mod'] at hfields
  exact hfields

/-- a word below that of infinity is a finite double -/
theorem isFinite_ofWord (negative : Bool) {w : ℕ} (hw : w < 2047 * 2 ^ 52) : (ofWord negative w).isFinite = true := by
  rw [isFinite, (fields_of_word negative hw.le).2.1, decide_eq_true_eq]
  omega

/-- an integer of few enough bits is rounded to a finite double -/
theorem isFinite_ofInt {n : ℤ} {b : ℕ} (hb : b ≤ 1023) (hn : n.natAbs < 2 ^ b) : (ofInt n).isFinite = true := by
  obtain ⟨k, hk⟩ : ∃ k, k = 1074 := ⟨1074, rfl⟩
  unfold ofInt ofRatio
  rw [unit_eq hk]
  dsimp only
  obtain ⟨a, ha⟩ : ∃ a, a = n.natAbs * 2 ^ k := ⟨_, rfl⟩
  rw [Nat.div_one, Nat.one_mul, ← ha]
  have hlog : a.log2 < b + k := by
    rcases Nat.eq_zero_or_pos a with rfl | hpos
    · rw [Nat.log2_zero]
      omega
    · have hlt : a < 2 ^ (b + k) := by
        rw [ha, pow_add]
        exact Nat.mul_lt_mul_of_pos_right hn (Nat.two_pow_pos k)
      exact (Nat.log2_lt hpos.ne').2 hlt
  have hword : ∀ m ≤ 2 ^ 53, (if m < 2 ^ 52 then m else (a.log2 - 52) * 2 ^ 52 + m) < 2047 * 2 ^ 52 := by
    intro m hm
    split_ifs <;> omega
  have hw := hword _ (significand_bounds a).1
  rw [if_neg (Nat.not_le.2 hw)]
  exact isFinite_ofWord _ hw

end Binary64

namespace Binary32

/-- the value of a finite single is `± scaled / 2 ^ 149` -/
def scaled (x : Binary32) : ℕ :=
  if x.exponent = 0 then x.fraction else (2 ^ 23 + x.fraction) * 2 ^ (x.exponent - 1)

def value (x : Binary32) : Option ℚ :=
  if x.exponent = 255 then none else some ((if x.isNegative then -(x.scaled : ℚ) else x.scaled) / 2 ^ 149)

theorem fraction_lt (x : Binary32) : x.fraction < 2 ^ 23 := Nat.mod_lt _ (by decide)

theorem exponent_lt (x : Binary32) : x.exponent < 256 := by
  unfold exponent
  omega

/-- a finite single is a double; the power goes by a name, so that no tactic expands it -/
theorem exists_double (x : Binary32) {k : ℕ} (hk : k = 925) :
    ∃ y : Binary64, y.isFinite = true ∧ y.isNegative = x.isNegative ∧ y.scaled = 2 ^ k * x.scaled := by
  have hfrac := x.fraction_lt
  have hexp := x.exponent_lt
  by_cases h0 : x.exponent = 0
  · obtain ⟨y, hfinite, hsign, hscaled⟩ :=
      @Binary64.exists_scaled x.isNegative x.fraction k (by omega) (by omega) (by omega)
    exact ⟨y, hfinite, hsign, by rw [hscaled, scaled, if_pos h0, Nat.mul_comm]⟩
  · obtain ⟨y, hfinite, hsign, hscaled⟩ :=
      @Binary64.exists_scaled x.isNegative (2 ^ 23 + x.fraction) (x.exponent - 1 + k) (by omega) (by omega) (by omega)
    refine ⟨y, hfinite, hsign, ?_⟩
    rw [hscaled, scaled, if_neg h0, pow_add, ← Nat.mul_assoc, Nat.mul_comm]

/-- an infinity and a NaN stay what they are -/
theorem toBinary64_not_finite {x : Binary32} (h : x.exponent = 255) : x.toBinary64.isFinite = false := by
  have hfrac : 2 ^ 51 + x.fraction % 2 ^ 22 * 2 ^ 29 < 2 ^ 52 := by omega
  unfold toBinary64
  rw [if_pos h]
  split_ifs
  · cases x.isNegative <;> decide +kernel
  · rw [Nat.add_assoc]
    obtain ⟨-, hexp, -⟩ := Binary64.fields_ofWord x.isNegative (le_refl 2047) hfrac
    rw [Binary64.isFinite, hexp]
    decide

/-- **Widening keeps the value** -/
theorem toBinary64_value (x : Binary32) : x.toBinary64.value = x.value := by
  by_cases h : x.exponent = 255
  · rw [Binary64.value, toBinary64_not_finite h, value, if_pos h]
    rfl
  · obtain ⟨k, hk⟩ : ∃ k, k = 925 := ⟨925, rfl⟩
    obtain ⟨y, hfinite, hsign, hscaled⟩ := x.exists_double hk
    have hunit : Binary64.unit = 2 ^ k * 2 ^ 149 := by
      rw [Binary64.unit_eq rfl, ← pow_add, hk]
    have hwide : x.toBinary64 = y := by
      rw [← Binary64.ofRatio_exact hfinite (Nat.two_pow_pos k) hunit hscaled, hsign]
      exact if_neg h
    have hpow : ((2 ^ k : ℕ) : ℚ) ≠ 0 := Nat.cast_ne_zero.2 (Nat.two_pow_pos k).ne'
    rw [hwide, Binary64.value, if_pos hfinite, value, if_neg h, hsign, hscaled, hunit, Nat.cast_mul, Nat.cast_mul,
      Nat.cast_pow 2 149, Nat.cast_ofNat]
    congr 1
    split_ifs
    · rw [← mul_neg, mul_div_mul_left _ _ hpow]
    · rw [mul_div_mul_left _ _ hpow]

end Binary32
