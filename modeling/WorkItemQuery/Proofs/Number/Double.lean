/-
Which doubles are finite. A magnitude below that of the infinities is, and a ratio of moderate size rounds to one. So
every whole number of 64 bits is read as a finite double, step by step.
-/
import WorkItemQuery.Number.Scaling

namespace WorkItemQuery.Number

namespace Double

/-! ## Magnitudes -/

theorem exponentField_ofMagnitude {negative : Bool} {m : Nat} (h : m < topExponent * hiddenBit) :
    (ofMagnitude negative m).exponentField = m / hiddenBit := by
  -- the exponent field is the quotient of the lower 63 bits, whatever the sign
  unfold exponentField ofMagnitude
  simp only [UInt64.toNat_ofNat', topExponent, hiddenBit, signBit] at h ⊢
  cases negative <;> simp <;> omega

theorem isFinite_ofMagnitude {negative : Bool} {m : Nat} (h : m < topExponent * hiddenBit) :
    (ofMagnitude negative m).isFinite = true := by
  unfold isFinite
  rw [exponentField_ofMagnitude h, decide_eq_true_iff]
  exact Nat.div_lt_of_lt_mul (by rwa [Nat.mul_comm])

theorem ofRatio_finite_or (negative : Bool) (num den : Nat) :
    (ofRatio negative num den).isFinite = true ∨ ofRatio negative num den = infinity negative := by
  unfold ofRatio
  extract_lets q m magnitude
  by_cases h : topExponent * hiddenBit ≤ magnitude
  · rw [if_pos h]; exact .inr rfl
  · rw [if_neg h]; exact .inl (isFinite_ofMagnitude (Nat.lt_of_not_le h))

/-- A decimal is read as a finite double or as infinity. -/
theorem ofDecimal_finite_or (d : Decimal) :
    (ofDecimal d).isFinite = true ∨ ofDecimal d = infinity d.negative := by
  unfold ofDecimal
  dsimp only
  split
  · exact .inl (isFinite_ofMagnitude (by decide))
  · split
    · exact .inr rfl
    · split <;> exact ofRatio_finite_or _ _ _

/-! ## Ratios of moderate size -/

theorem roundEven_le (num den : Nat) : roundEven num den ≤ num / den + 1 := by
  unfold roundEven
  extract_lets q r
  split
  · omega
  · split
    · omega
    · omega

theorem binaryExponent_bounds (num den : Nat) :
    (num.log2 : Int) - den.log2 - 1 ≤ binaryExponent num den ∧
      binaryExponent num den ≤ (num.log2 : Int) - den.log2 := by
  unfold binaryExponent
  extract_lets k below
  split <;> omega

/-- A ratio, scaled so that its leading bit is at most the fifty-third, rounds to few bits. -/
theorem roundEven_scaled_le {num den : Nat} {up down : Nat} (hden : den ≠ 0)
    (h : num.log2 + up ≤ den.log2 + down + 53) :
    roundEven (num * Nat.pow 2 up) (den * Nat.pow 2 down) ≤ 4 * hiddenBit := by
  have hpos : 0 < den * 2 ^ down := Nat.mul_pos (Nat.pos_of_ne_zero hden) (Nat.two_pow_pos down)
  have hlt : num * 2 ^ up < 2 ^ 54 * (den * 2 ^ down) := calc
    num * 2 ^ up < 2 ^ (num.log2 + 1) * 2 ^ up := Nat.mul_lt_mul_of_pos_right Nat.lt_log2_self (Nat.two_pow_pos up)
    _ = 2 ^ (num.log2 + 1 + up) := (Nat.pow_add 2 (num.log2 + 1) up).symm
    _ ≤ 2 ^ (54 + (den.log2 + down)) := Nat.pow_le_pow_right (by decide) (by omega)
    _ = 2 ^ 54 * (2 ^ den.log2 * 2 ^ down) := by rw [Nat.pow_add, Nat.pow_add]
    _ ≤ 2 ^ 54 * (den * 2 ^ down) := Nat.mul_le_mul_left _ (Nat.mul_le_mul_right _ (Nat.log2_self_le hden))
  have hquotient : num * Nat.pow 2 up / (den * Nat.pow 2 down) < 2 ^ 54 := (Nat.div_lt_iff_lt_mul hpos).2 hlt
  have hround := roundEven_le (num * Nat.pow 2 up) (den * Nat.pow 2 down)
  have hbit : 4 * hiddenBit = 2 ^ 54 := by decide
  omega

/-- A ratio of moderate size is rounded to a finite double, and its exponent grows with the leading bit. -/
theorem ofRatio_eq_ofMagnitude (negative : Bool) {num den : Nat} (hden : den ≠ 0) (h : num.log2 ≤ 900) :
    ∃ magnitude, magnitude ≤ (num.log2 + 1026) * hiddenBit ∧ magnitude < topExponent * hiddenBit ∧
      ofRatio negative num den = ofMagnitude negative magnitude := by
  obtain ⟨hlow, hhigh⟩ := binaryExponent_bounds num den
  unfold ofRatio
  extract_lets q m magnitude
  have hq : (num.log2 : Int) - den.log2 - 53 ≤ q := by omega
  -- the numerator is scaled up or the denominator is, by the sign of the exponent
  have hm : m ≤ 4 * hiddenBit := by
    by_cases hq0 : 0 ≤ q
    · have hscaled := @roundEven_scaled_le num den 0 q.toNat hden (by omega)
      have hsame : m = roundEven (num * Nat.pow 2 0) (den * Nat.pow 2 q.toNat) := by
        simp only [m, if_pos hq0]
        rw [show num * Nat.pow 2 0 = num from Nat.mul_one num]
      omega
    · have hscaled := @roundEven_scaled_le num den (-q).toNat 0 hden (by omega)
      have hsame : m = roundEven (num * Nat.pow 2 (-q).toNat) (den * Nat.pow 2 0) := by
        simp only [m, if_neg hq0]
        rw [show den * Nat.pow 2 0 = den from Nat.mul_one den]
      omega
  have hexponent : (q + 1074).toNat ≤ num.log2 + 1022 := by omega
  have hmagnitude : magnitude ≤ (num.log2 + 1026) * hiddenBit := by
    have hmul := Nat.mul_le_mul_right hiddenBit hexponent
    have hsum : (num.log2 + 1026) * hiddenBit = (num.log2 + 1022) * hiddenBit + 4 * hiddenBit := by
      rw [← Nat.add_mul]
    omega
  have htop : magnitude < topExponent * hiddenBit :=
    Nat.lt_of_le_of_lt hmagnitude (Nat.mul_lt_mul_of_pos_right (by unfold topExponent; omega) (by decide))
  rw [if_neg (Nat.not_le_of_lt htop)]
  exact ⟨magnitude, hmagnitude, htop, rfl⟩

theorem isFinite_ofRatio (negative : Bool) {num den : Nat} (hden : den ≠ 0) (h : num.log2 ≤ 900) :
    (ofRatio negative num den).isFinite = true := by
  obtain ⟨magnitude, -, htop, heq⟩ := ofRatio_eq_ofMagnitude negative hden h
  rw [heq]
  exact isFinite_ofMagnitude htop

theorem isFinite_ofQuotient {num den : Nat} (hden : den ≠ 0) (h : num.log2 ≤ 900) :
    (ofQuotient num den).isFinite = true := by
  unfold ofQuotient
  split
  · exact isFinite_ofMagnitude (by decide)
  · exact isFinite_ofRatio false hden h

theorem significand_lt (d : Double) : d.significand < 2 * hiddenBit := by
  have hfraction : d.fractionField < hiddenBit := Nat.mod_lt _ (by decide)
  unfold significand
  unfold hiddenBit at *
  split <;> omega

/-- The numerator of a rounded ratio has few bits more than the ratio. -/
theorem numerator_ofQuotient_lt {num den : Nat} (hden : den ≠ 0) (h : num.log2 ≤ 900) :
    (ofQuotient num den).numerator < Nat.pow 2 (53 + num.log2) := by
  unfold ofQuotient
  split
  · exact Nat.lt_of_lt_of_le (by decide) Nat.one_le_two_pow
  · obtain ⟨magnitude, hle, htop, heq⟩ := ofRatio_eq_ofMagnitude false hden h
    have hfield : (ofMagnitude false magnitude).exponentField ≤ num.log2 + 1026 := by
      rw [exponentField_ofMagnitude htop]
      exact Nat.div_le_of_le_mul (by rwa [Nat.mul_comm])
    have hscale : (ofMagnitude false magnitude).scale.toNat ≤ num.log2 := by
      unfold scale
      split <;> omega
    have hpow : Nat.pow 2 (53 + num.log2) = 2 * hiddenBit * 2 ^ num.log2 := Nat.pow_add 2 53 num.log2
    rw [heq, numerator, hpow]
    exact Nat.mul_lt_mul_of_lt_of_le (significand_lt _) (Nat.pow_le_pow_right (by decide) hscale) (Nat.two_pow_pos _)

theorem denominator_ne_zero (d : Double) : d.denominator ≠ 0 := Nat.ne_of_gt (Nat.two_pow_pos _)

/-- A whole number of 64 bits is read as a double. -/
theorem ofSteps?_isSome (negative : Bool) {n : Nat} (h : n < wordLimit) :
    (ofSteps? ⟨negative, n, 0⟩).isSome = true := by
  have hlog : n.log2 ≤ 63 := by
    by_cases hn : n = 0
    · rw [hn]; decide
    · exact Nat.le_of_lt_succ ((Nat.log2_lt hn).2 h)
  -- a number of one word keeps all its digits, so no power of ten is left to apply
  have hdigits : ∀ fuel, highestDigits fuel n 0 = (n, 0) := by
    intro fuel
    cases fuel with
    | zero => rfl
    | succ fuel => rw [highestDigits, if_neg (Nat.not_le_of_lt h)]
  have hfinite : ((ofQuotient n 1).mul (powerOfTen 0)).isFinite = true := by
    refine isFinite_ofQuotient (Nat.mul_ne_zero (denominator_ne_zero _) (denominator_ne_zero _)) ?_
    have hone : (powerOfTen 0).numerator = 2 ^ 52 := by decide +kernel
    have hsize := @numerator_ofQuotient_lt n 1 Nat.one_ne_zero (by omega)
    have hproduct : (ofQuotient n 1).numerator * (powerOfTen 0).numerator < 2 ^ (53 + n.log2 + 52) := by
      rw [hone, Nat.pow_add]
      exact Nat.mul_lt_mul_of_pos_right hsize (Nat.two_pow_pos 52)
    by_cases hzero : (ofQuotient n 1).numerator * (powerOfTen 0).numerator = 0
    · rw [hzero]; decide
    · have hlt := (Nat.log2_lt hzero).2 hproduct
      omega
  have hscaled : scaled? 3 (ofQuotient n 1) 0 = some ((ofQuotient n 1).mul (powerOfTen 0)) := by
    rw [scaled?, if_pos (by decide), if_pos (by decide)]
    exact if_pos hfinite
  unfold ofSteps?
  rw [hdigits]
  simp only [hscaled]
  rfl

end Double

end WorkItemQuery.Number
