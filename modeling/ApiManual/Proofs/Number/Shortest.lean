import ApiManual.Number.Shortest
import ApiManual.Proofs.Number.Rounding

/-!
# Shortest decimals stay in range

The decimal that is chosen for a finite number lies under the limit of the finite numbers
(`shortest_lt_limit`), so reading it does not overflow.

* `holds_lt_limit`: everything that rounds to a finite number lies under the limit.
* `onGrid?_holds`: what is chosen on a grid rounds to the number.
* `dropZeros_value`: taking zeros off keeps the value.
-/

namespace ApiManual.Binary64

/-! ## Comparing -/

section Compare

variable {digits : Nat} {exponent : Int} {num den : Nat} (hden : 0 < den)

include hden

theorem lt_of_compareDecimal (h : compareDecimal digits exponent num den = .lt) :
    (digits : ℚ) * 10 ^ exponent < num / den := by
  have hpos : 0 < (scaleRatio 10 exponent num den).2 := scaleRatio_pos (by norm_num) exponent num hden
  have hlt : (digits : ℚ) * (scaleRatio 10 exponent num den).2 < (scaleRatio 10 exponent num den).1 := by
    exact_mod_cast Nat.compare_eq_lt.mp h
  rw [← lt_div_iff₀ (by exact_mod_cast hpos), scaleRatio_eq, lt_div_iff₀ (by positivity)] at hlt
  exact_mod_cast hlt

theorem eq_of_compareDecimal (h : compareDecimal digits exponent num den = .eq) :
    (digits : ℚ) * 10 ^ exponent = num / den := by
  have hpos : 0 < (scaleRatio 10 exponent num den).2 := scaleRatio_pos (by norm_num) exponent num hden
  have heq : (digits : ℚ) * (scaleRatio 10 exponent num den).2 = (scaleRatio 10 exponent num den).1 := by
    exact_mod_cast Nat.compare_eq_eq.mp h
  rw [← eq_div_iff (by exact_mod_cast hpos.ne'), scaleRatio_eq, eq_div_iff (by positivity)] at heq
  exact_mod_cast heq

end Compare

/-! ## The interval of a number -/

section Interval

variable {significand : Nat} {exponent : Int} {digits : Nat} {place : Int}

theorem upper_pos (significand : Nat) (exponent : Int) : 0 < (interval significand exponent).upper.2 :=
  scaleRatio_pos (by norm_num) _ _ Nat.one_pos

/-- The upper end of the interval lies half a step above the number. -/
theorem upper_eq (significand : Nat) (exponent : Int) :
    ((interval significand exponent).upper.1 : ℚ) / (interval significand exponent).upper.2 =
      (significand + 1 / 2) * 2 ^ exponent := by
  unfold interval
  rw [ratio_eq]
  unfold magnitude
  rw [zpow_sub₀ (by norm_num)]
  push_cast
  ring

/-- Below the largest number, half a step up is still no overflow. -/
theorem half_step_le (hsignificand : significand < 2 ^ 53) (hexponent : exponent ≤ 971) :
    ((significand : ℚ) + 1 / 2) * 2 ^ exponent ≤ limit := by
  have hle : (significand : ℚ) + 1 ≤ 2 ^ 53 := by exact_mod_cast Nat.succ_le_of_lt hsignificand
  have hhalf : (significand : ℚ) + 1 / 2 ≤ 2 ^ 53 - 1 / 2 := by linarith
  have hpower : (2 : ℚ) ^ exponent ≤ 2 ^ (971 : Int) := zpow_le_zpow_right₀ (by norm_num) hexponent
  exact mul_le_mul hhalf hpower (by positivity) (by norm_num)

theorem half_step_lt (hsignificand : significand + 1 < 2 ^ 53) (hexponent : exponent ≤ 971) :
    ((significand : ℚ) + 1 / 2) * 2 ^ exponent < limit := by
  have hnext := half_step_le hsignificand hexponent
  have hpower : (0 : ℚ) < 2 ^ exponent := by positivity
  refine lt_of_lt_of_le ?_ hnext
  push_cast
  gcongr
  linarith

/-- What rounds to a finite number lies under the limit. The largest significand is odd, so the limit
itself is in no interval. -/
theorem holds_lt_limit (hsignificand : significand < 2 ^ 53) (hexponent : exponent ≤ 971)
    (h : (interval significand exponent).holds digits place = true) : (digits : ℚ) * 10 ^ place < limit := by
  unfold Interval.holds at h
  simp only [Bool.and_eq_true, Bool.or_eq_true, beq_iff_eq] at h
  obtain ⟨-, hbelow | ⟨hclosed, hequal⟩⟩ := h
  · have hlt := lt_of_compareDecimal (upper_pos _ _) hbelow
    rw [upper_eq] at hlt
    exact hlt.trans_le (half_step_le hsignificand hexponent)
  · have heven : significand % 2 = 0 := by simpa [interval] using hclosed
    have heq := eq_of_compareDecimal (upper_pos _ _) hequal
    rw [upper_eq] at heq
    rw [heq]
    exact half_step_lt (by omega) hexponent

end Interval

/-! ## The choice -/

/-- What is chosen on a grid lies in the interval. -/
theorem onGrid?_holds {i : Interval} {num den : Nat} {exponent : Int} {d : Nat × Int}
    (h : onGrid? i num den exponent = some d) : i.holds d.1 d.2 = true := by
  unfold onGrid? at h
  simp only at h
  split at h
  · rename_i hlow hhigh
    obtain rfl := Option.some.inj h
    rcases roundHalfEven_cases (scaleRatio 10 exponent num den).1 (scaleRatio 10 exponent num den).2 with
      hround | hround <;> simp only [hround]
    · exact hlow
    · exact hhigh
  · rename_i hlow _
    obtain rfl := Option.some.inj h
    exact hlow
  · rename_i _ hhigh
    obtain rfl := Option.some.inj h
    exact hhigh
  · exact absurd h (by simp)

theorem dropZeros_value (fuel : Nat) (d : Nat × Int) :
    ((dropZeros fuel d).1 : ℚ) * 10 ^ (dropZeros fuel d).2 = d.1 * 10 ^ d.2 := by
  fun_induction dropZeros fuel d with
  | case1 d => rfl
  | case2 fuel digits exponent hzero ih =>
    have hdigits : (digits : ℚ) = (digits / 10 : Nat) * 10 := by
      exact_mod_cast (Nat.div_mul_cancel (Nat.dvd_of_mod_eq_zero hzero)).symm
    rw [ih, hdigits, zpow_add_one₀ (by norm_num)]
    push_cast
    ring
  | case3 => rfl

/-- The decimal that is written for a finite number lies under the limit. -/
theorem shortest_lt_limit {significand : Nat} {exponent : Int} (hsignificand : significand < 2 ^ 53)
    (hexponent : exponent ≤ 971) :
    ((shortest significand exponent).1 : ℚ) * 10 ^ (shortest significand exponent).2 < limit := by
  have hnone : ((0 : Nat) : ℚ) * 10 ^ (0 : Int) < limit := lt_limit (by norm_num)
  unfold shortest
  split
  · exact hnone
  · simp only
    split
    · rename_i d hfound
      obtain ⟨place, -, hplace⟩ := List.exists_of_findSome?_eq_some hfound
      rw [dropZeros_value]
      exact holds_lt_limit hsignificand hexponent (onGrid?_holds hplace)
    · exact hnone

end ApiManual.Binary64
