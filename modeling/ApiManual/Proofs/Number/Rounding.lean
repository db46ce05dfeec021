import ApiManual.Number.Binary64
import Mathlib.Algebra.Order.Field.Power
import Mathlib.Data.Nat.Cast.Order.Field
import Mathlib.Data.Rat.Defs
import Mathlib.Tactic.FieldSimp
import Mathlib.Tactic.GCongr
import Mathlib.Tactic.Linarith
import Mathlib.Tactic.NormNum
import Mathlib.Tactic.Positivity
import Mathlib.Tactic.Ring

/-!
# Rounding without overflow

A ratio under `Binary64.limit` is rounded to a finite number.

* `two_zpow_floorLog2_le`, `lt_two_zpow_floorLog2`: the binade of a ratio.
* `ofRatio_inRange`: what is rounded has a significand of 53 bits and no exponent beyond the largest.
* `ofRatio_isFinite`, `ofDecimal_isFinite`: there is no overflow below the limit.
* `roundTo_isFinite`: rounding to decimal places does not overflow.
-/

namespace ApiManual

/-! ## Ratios -/

theorem scaleRatio_pos {base : Nat} (hbase : 0 < base) (exponent : Int) (num : Nat) {den : Nat} (hden : 0 < den) :
    0 < (scaleRatio base exponent num den).2 := by
  unfold scaleRatio
  split
  · exact Nat.mul_pos hden (Nat.pow_pos hbase)
  · exact hden

/-- Scaling divides a ratio by a power of the base. -/
theorem scaleRatio_eq {base : Nat} (exponent : Int) (num den : Nat) :
    ((scaleRatio base exponent num den).1 : ℚ) / (scaleRatio base exponent num den).2 =
      num / den / (base : ℚ) ^ exponent := by
  unfold scaleRatio
  split
  · rename_i h
    obtain ⟨n, rfl⟩ := Int.eq_ofNat_of_zero_le h
    simp only [Int.toNat_natCast, zpow_natCast, Nat.pow_eq]
    push_cast
    rw [div_div]
  · obtain ⟨n, rfl⟩ : ∃ n : Nat, exponent = -(n : Int) := ⟨(-exponent).toNat, by omega⟩
    simp only [Int.neg_neg, Int.toNat_natCast, zpow_neg, zpow_natCast, div_inv_eq_mul, Nat.pow_eq]
    push_cast
    rw [mul_div_right_comm]

/-- Rounding stays at or under a natural that the ratio exceeds by less than a half. -/
theorem roundHalfEven_le {num den k : Nat} (hden : 0 < den) (h : (num : ℚ) / den < k + 1 / 2) :
    roundHalfEven num den ≤ k := by
  have hnat : 2 * num < (2 * k + 1) * den := by
    rw [div_lt_iff₀ (by exact_mod_cast hden)] at h
    have hdouble : (2 * num : ℚ) < (2 * k + 1) * den := by linarith
    exact_mod_cast hdouble
  have hdivision := Nat.div_add_mod num den
  have hmod := Nat.mod_lt num hden
  have hquotient : num / den ≤ k := by
    have hlt : num < den * (k + 1) := by nlinarith
    exact Nat.lt_succ_iff.mp (Nat.div_lt_of_lt_mul hlt)
  unfold roundHalfEven
  simp only
  split
  · rename_i hup
    -- a quotient of `k` leaves less than a half
    by_contra hlt
    have heq : num / den = k := by omega
    have hrest : den ≤ 2 * (num % den) := by
      simp only [Bool.or_eq_true, decide_eq_true_eq, Bool.and_eq_true, beq_iff_eq] at hup
      omega
    rw [heq] at hdivision
    nlinarith
  · exact hquotient

/-- Rounding takes the quotient or the next number. -/
theorem roundHalfEven_cases (num den : Nat) :
    roundHalfEven num den = num / den ∨ roundHalfEven num den = num / den + 1 := by
  unfold roundHalfEven
  simp only
  split
  · exact .inr rfl
  · exact .inl rfl

/-! ## The binade of a ratio -/

theorem scaled_le_iff (guess : Int) (num : Nat) {den : Nat} (hden : 0 < den) :
    (scaleRatio 2 guess num den).2 ≤ (scaleRatio 2 guess num den).1 ↔ (2 : ℚ) ^ guess ≤ (num : ℚ) / den := by
  have hpos : (0 : ℚ) < (scaleRatio 2 guess num den).2 := by
    exact_mod_cast scaleRatio_pos (by norm_num) guess num hden
  have hpower : (0 : ℚ) < (2 : ℚ) ^ guess := by positivity
  rw [← Nat.cast_le (α := ℚ), ← one_le_div hpos, scaleRatio_eq]
  push_cast
  exact one_le_div hpower

section Binade

variable {num den : Nat} (hnum : 0 < num) (hden : 0 < den)

include hnum hden

/-- A ratio lies between the powers of two of the logarithms of its parts. -/
theorem ratio_log2 : (2 : ℚ) ^ ((num.log2 : Int) - den.log2 - 1) < (num : ℚ) / den ∧
    (num : ℚ) / den < (2 : ℚ) ^ ((num.log2 : Int) - den.log2 + 1) := by
  have hden' : (0 : ℚ) < den := by exact_mod_cast hden
  have hnumLow : (2 : ℚ) ^ (num.log2 : Int) ≤ num := by
    exact_mod_cast Nat.log2_self_le hnum.ne'
  have hnumHigh : (num : ℚ) < (2 : ℚ) ^ ((num.log2 : Int) + 1) := by
    exact_mod_cast (Nat.lt_log2_self (n := num))
  have hdenLow : (2 : ℚ) ^ (den.log2 : Int) ≤ den := by
    exact_mod_cast Nat.log2_self_le hden.ne'
  have hdenHigh : (den : ℚ) < (2 : ℚ) ^ ((den.log2 : Int) + 1) := by
    exact_mod_cast (Nat.lt_log2_self (n := den))
  constructor
  · rw [lt_div_iff₀ hden']
    calc (2 : ℚ) ^ ((num.log2 : Int) - den.log2 - 1) * den
        < (2 : ℚ) ^ ((num.log2 : Int) - den.log2 - 1) * 2 ^ ((den.log2 : Int) + 1) := by gcongr
      _ = (2 : ℚ) ^ (num.log2 : Int) := by rw [← zpow_add₀ (by norm_num)]; ring_nf
      _ ≤ num := hnumLow
  · rw [div_lt_iff₀ hden']
    calc (num : ℚ) < (2 : ℚ) ^ ((num.log2 : Int) + 1) := hnumHigh
      _ = (2 : ℚ) ^ ((num.log2 : Int) - den.log2 + 1) * 2 ^ (den.log2 : Int) := by
          rw [← zpow_add₀ (by norm_num)]; ring_nf
      _ ≤ (2 : ℚ) ^ ((num.log2 : Int) - den.log2 + 1) * den := by gcongr

theorem two_zpow_floorLog2_le : (2 : ℚ) ^ floorLog2 num den ≤ (num : ℚ) / den := by
  have hlow := (ratio_log2 hnum hden).1
  have hiff := scaled_le_iff ((num.log2 : Int) - den.log2) num hden
  unfold floorLog2
  simp only
  split
  · rename_i h
    exact hiff.mp h
  · exact hlow.le

theorem lt_two_zpow_floorLog2 : (num : ℚ) / den < (2 : ℚ) ^ (floorLog2 num den + 1) := by
  have hhigh := (ratio_log2 hnum hden).2
  have hiff := scaled_le_iff ((num.log2 : Int) - den.log2) num hden
  unfold floorLog2
  simp only
  split
  · exact hhigh
  · rename_i h
    rw [Int.sub_add_cancel]
    exact lt_of_not_ge fun hle => h (hiff.mpr hle)

end Binade

/-! ## Rounding to a number -/

namespace Binary64

/-- The least magnitude that is rounded to an infinite number: half a step beyond the largest finite one. -/
def limit : ℚ := (2 ^ 53 - 1 / 2) * 2 ^ (971 : Int)

theorem limit_lt : limit < 2 ^ (1024 : Int) := by
  have hsplit : (2 : ℚ) ^ (1024 : Int) = 2 ^ 53 * 2 ^ (971 : Int) := by
    rw [show (1024 : Int) = (53 : Nat) + 971 by norm_num, zpow_add₀ (by norm_num), zpow_natCast]
  unfold limit
  rw [hsplit]
  gcongr
  norm_num

theorem four_le_last_step : (4 : ℚ) ≤ 2 ^ (971 : Int) := by
  calc (4 : ℚ) = 2 ^ (2 : Int) := by norm_num
    _ ≤ 2 ^ (971 : Int) := zpow_le_zpow_right₀ (by norm_num) (by norm_num)

theorem lt_limit {x : ℚ} (h : x ≤ 2 ^ 53) : x < limit := by
  calc x ≤ 2 ^ 53 := h
    _ < (2 ^ 53 - 1 / 2) * 4 := by norm_num
    _ ≤ limit := by
        unfold limit
        gcongr
        exact four_le_last_step

/-- A significand of 53 bits at most, and an exponent that is not beyond the largest. -/
def InRange : Binary64 → Prop
  | .finite _ significand exponent => significand < 2 ^ 53 ∧ exponent ≤ 971
  | _ => True

/-- The magnitude of a finite number. -/
def magnitude (significand : Nat) (exponent : Int) : ℚ := significand * 2 ^ exponent

theorem zero_inRange (negative : Bool) : (zero negative).InRange := by
  constructor <;> norm_num

theorem ofRounded_inRange (negative : Bool) {significand : Nat} (h : significand ≤ 2 ^ 53) (exponent : Int) :
    (ofRounded negative significand exponent).InRange := by
  have hcarried : (if significand = 2 ^ 53 then 2 ^ 52 else significand) < 2 ^ 53 := by
    split <;> omega
  unfold ofRounded
  simp only [Nat.pow_eq, beq_iff_eq]
  generalize (if significand = 2 ^ 53 then 2 ^ 52 else significand) = carried at hcarried ⊢
  generalize (if significand = 2 ^ 53 then exponent + 1 else exponent) = last
  by_cases hlast : last > 971
  · rw [if_pos hlast]
    exact trivial
  · rw [if_neg hlast]
    exact ⟨hcarried, by omega⟩

theorem ofRounded_isFinite (negative : Bool) {significand : Nat} {exponent : Int} (hle : exponent ≤ 971)
    (hlast : exponent = 971 → significand ≠ 2 ^ 53) : (ofRounded negative significand exponent).isFinite = true := by
  unfold ofRounded
  simp only [Nat.pow_eq, beq_iff_eq]
  rw [if_neg]
  · rfl
  · split <;> omega

/-- The step between numbers next to a ratio. -/
def stepExponent (num den : Nat) : Int := max (floorLog2 num den - 52) (-1074)

section Ratio

variable {num den : Nat} (hnum : 0 < num) (hden : 0 < den)

include hnum hden

/-- In steps, a ratio has 53 bits before the point at most. -/
theorem ratio_div_step_lt : (num : ℚ) / den / 2 ^ stepExponent num den < 2 ^ 53 := by
  have hhigh := lt_two_zpow_floorLog2 hnum hden
  have hstep : (0 : ℚ) < 2 ^ stepExponent num den := by positivity
  rw [div_lt_iff₀ hstep]
  calc (num : ℚ) / den < 2 ^ (floorLog2 num den + 1) := hhigh
    _ ≤ 2 ^ (53 + stepExponent num den) := by
        apply zpow_le_zpow_right₀ (by norm_num)
        unfold stepExponent
        omega
    _ = 2 ^ 53 * 2 ^ stepExponent num den := by
        rw [zpow_add₀ (by norm_num)]
        norm_num

omit hnum in
theorem roundHalfEven_step_le {k : Nat} (h : (num : ℚ) / den / 2 ^ stepExponent num den < k + 1 / 2) :
    roundHalfEven (scaleRatio 2 (stepExponent num den) num den).1 (scaleRatio 2 (stepExponent num den) num den).2 ≤
      k := by
  apply roundHalfEven_le (scaleRatio_pos (by norm_num) _ _ hden)
  rw [scaleRatio_eq]
  exact_mod_cast h

theorem stepExponent_le (h : (num : ℚ) / den < limit) : stepExponent num den ≤ 971 := by
  have hlow := two_zpow_floorLog2_le hnum hden
  have hlog : (2 : ℚ) ^ floorLog2 num den < 2 ^ (1024 : Int) := hlow.trans_lt (h.trans limit_lt)
  have hlt := (zpow_lt_zpow_iff_right₀ (by norm_num : (1 : ℚ) < 2)).mp hlog
  unfold stepExponent
  omega

end Ratio

variable {num den : Nat}

theorem ofRatio_inRange (negative : Bool) (num : Nat) (hden : 0 < den) : (ofRatio negative num den).InRange := by
  unfold ofRatio
  split
  · exact zero_inRange negative
  · rename_i hzero
    have hnum : 0 < num := Nat.pos_of_ne_zero hzero
    apply ofRounded_inRange
    apply roundHalfEven_step_le hden
    have hlt := ratio_div_step_lt hnum hden
    push_cast
    linarith

theorem ofRatio_isFinite (negative : Bool) (hden : 0 < den) (h : (num : ℚ) / den < limit) :
    (ofRatio negative num den).isFinite = true := by
  unfold ofRatio
  split
  · rfl
  · rename_i hzero
    have hnum : 0 < num := Nat.pos_of_ne_zero hzero
    refine ofRounded_isFinite negative (stepExponent_le hnum hden h) fun hlast => ?_
    have hsteps : (num : ℚ) / den / 2 ^ stepExponent num den < (2 ^ 53 - 1 : Nat) + 1 / 2 := by
      rw [show stepExponent num den = 971 from hlast, div_lt_iff₀ (by positivity)]
      refine h.trans_le (le_of_eq ?_)
      unfold limit
      congr 1
      norm_num
    have hround := roundHalfEven_step_le hden hsteps
    exact Nat.ne_of_lt (Nat.lt_of_le_of_lt hround (by norm_num))

/-! ## Reading decimals -/

theorem ofDecimal_inRange (negative : Bool) (digits : Nat) (exponent : Int) :
    (ofDecimal negative digits exponent).InRange := by
  unfold ofDecimal
  split_ifs
  · exact zero_inRange negative
  · exact trivial
  · exact zero_inRange negative
  · exact ofRatio_inRange negative _ Nat.one_pos
  · exact ofRatio_inRange negative _ (Nat.pow_pos (by norm_num))

theorem limit_le_of_exponent {digits : Nat} (hdigits : digits ≠ 0) {exponent : Int} (h : 400 < exponent) :
    limit ≤ digits * 10 ^ exponent := by
  have hone : (1 : ℚ) ≤ digits := by exact_mod_cast Nat.one_le_iff_ne_zero.mpr hdigits
  calc limit ≤ 2 ^ (1024 : Int) := limit_lt.le
    _ ≤ 2 ^ (1200 : Int) := zpow_le_zpow_right₀ (by norm_num) (by norm_num)
    _ = 8 ^ (400 : Int) := by rw [show (1200 : Int) = (3 : Nat) * 400 by norm_num, zpow_mul]; norm_num
    _ ≤ 10 ^ (400 : Int) := zpow_le_zpow_left₀ (by norm_num) (by norm_num) (by norm_num)
    _ ≤ 10 ^ exponent := zpow_le_zpow_right₀ (by norm_num) h.le
    _ ≤ digits * 10 ^ exponent := le_mul_of_one_le_left (by positivity) hone

/-- A decimal under the limit is read as a finite number. -/
theorem ofDecimal_isFinite (negative : Bool) {digits : Nat} {exponent : Int}
    (h : (digits : ℚ) * 10 ^ exponent < limit) : (ofDecimal negative digits exponent).isFinite = true := by
  unfold ofDecimal
  split_ifs with hzero hlarge hsmall hwhole
  · rfl
  · exact absurd h (limit_le_of_exponent hzero hlarge).not_gt
  · rfl
  · obtain ⟨n, rfl⟩ := Int.eq_ofNat_of_zero_le hwhole
    apply ofRatio_isFinite negative Nat.one_pos
    simpa [Nat.pow_eq] using h
  · obtain ⟨n, rfl⟩ : ∃ n : Nat, exponent = -(n : Int) := ⟨(-exponent).toNat, by omega⟩
    apply ofRatio_isFinite negative (Nat.pow_pos (by norm_num))
    simpa [Nat.pow_eq, div_eq_mul_inv] using h

/-! ## Rounding to places -/

theorem ratio_eq (significand : Nat) (exponent : Int) :
    ((ratio significand exponent).1 : ℚ) / (ratio significand exponent).2 = magnitude significand exponent := by
  unfold ratio magnitude
  rw [scaleRatio_eq]
  simp

theorem magnitude_add_one_lt {significand : Nat} {exponent : Int} (hsignificand : significand < 2 ^ 53)
    (hexponent : exponent ≤ 971) : magnitude significand exponent + 1 < limit := by
  have hle : (significand : ℚ) ≤ 2 ^ 53 - 1 := by
    have hnat : significand + 1 ≤ 2 ^ 53 := hsignificand
    have hcast : (significand : ℚ) + 1 ≤ 2 ^ 53 := by exact_mod_cast hnat
    linarith
  have hpower : (2 : ℚ) ^ exponent ≤ 2 ^ (971 : Int) := zpow_le_zpow_right₀ (by norm_num) hexponent
  have hstep := four_le_last_step
  unfold magnitude limit
  generalize (2 : ℚ) ^ (971 : Int) = last at hpower hstep ⊢
  calc (significand : ℚ) * 2 ^ exponent + 1
      ≤ (2 ^ 53 - 1) * last + 1 := by gcongr
    _ < (2 ^ 53 - 1 / 2) * last := by
        linarith

/-- Rounding a finite number to decimal places gives a finite number. -/
theorem roundTo_isFinite (places : Nat) {x : Binary64} (hrange : x.InRange) (hfinite : x.isFinite = true) :
    (x.roundTo places).isFinite = true := by
  cases x with
  | infinite negative => cases hfinite
  | nan => cases hfinite
  | finite negative significand exponent =>
    have hplaces : (0 : ℚ) < 10 ^ places := by positivity
    have hlt := magnitude_add_one_lt hrange.1 hrange.2
    rw [← ratio_eq] at hlt
    unfold roundTo
    apply ofRatio_isFinite negative (Nat.pow_pos (by norm_num))
    generalize ratio significand exponent = value at hlt ⊢
    have hround : roundHalfEven (value.1 * Nat.pow 10 places) value.2 ≤ value.1 * Nat.pow 10 places / value.2 + 1 := by
      rcases roundHalfEven_cases (value.1 * Nat.pow 10 places) value.2 with hround | hround <;> omega
    refine lt_of_le_of_lt ?_ hlt
    rw [Nat.pow_eq, Nat.cast_pow, div_le_iff₀ (by exact_mod_cast hplaces)]
    calc (roundHalfEven (value.1 * Nat.pow 10 places) value.2 : ℚ)
        ≤ ((value.1 * 10 ^ places / value.2 : Nat) : ℚ) + 1 := by exact_mod_cast hround
      _ ≤ (value.1 * 10 ^ places : Nat) / (value.2 : ℚ) + 1 := by gcongr; exact Nat.cast_div_le
      _ ≤ ((value.1 : ℚ) / value.2 + 1) * (10 : Nat) ^ places := by
          have hone : (1 : ℚ) ≤ 10 ^ places := one_le_pow₀ (by norm_num)
          push_cast
          rw [add_mul, one_mul, mul_div_right_comm]
          gcongr

end Binary64

end ApiManual
