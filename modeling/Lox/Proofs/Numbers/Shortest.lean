import Lox.Proofs.Numbers.Intervals

/-!
# The shortest decimal is read as the number

Place by place, `Dyadic.shortest` looks for a decimal that is read as the number. At the
seventeenth place the grid is finer than the interval of the number, whichever number it is
(`Dyadic.Canonical.pow_lt_width`). So the search does not come to its end without a find, and what
it finds is in the interval (`Dyadic.Canonical.reads_shortest`).
-/

set_option autoImplicit false

namespace Lox

/-! ## Lengths -/

theorem decimalLength_of_lt {n : ℕ} (h : n < 10) : decimalLength n = 1 := by
  rw [decimalLength, if_pos h]

theorem decimalLength_of_le {n : ℕ} (h : 10 ≤ n) :
    decimalLength n = decimalLength (n / 10) + 1 := by
  rw [decimalLength, if_neg (Nat.not_lt.mpr h)]

theorem lt_pow_decimalLength (n : ℕ) : n < 10 ^ decimalLength n := by
  induction n using decimalLength.induct with
  | case1 n h => rwa [decimalLength_of_lt h, pow_one]
  | case2 n h ih =>
    rw [decimalLength_of_le (Nat.not_lt.mp h), pow_succ]
    omega

theorem pow_le_of_decimalLength {n k : ℕ} (hn : 0 < n) (h : decimalLength n = k + 1) :
    10 ^ k ≤ n := by
  induction n using decimalLength.induct generalizing k with
  | case1 n hlt =>
    rw [decimalLength_of_lt hlt] at h
    cases h
    exact hn
  | case2 n hlt ih =>
    have hle := Nat.not_lt.mp hlt
    rw [decimalLength_of_le hle] at h
    obtain _ | k := k
    · exact hn
    · have hlow := ih (Nat.div_pos hle (by decide)) (Nat.succ.inj h)
      rw [pow_succ]
      omega

/-! ## The first digit -/

namespace Dyadic

variable {x : Dyadic}

theorem value_mul_den (x : Dyadic) :
    x.value * (2 ^ (-x.power).toNat : ℕ) = (x.significand * 2 ^ x.power.toNat : ℕ) := by
  have htwo := zpow_mul_pow_toNat (b := 2) (by norm_num) x.power
  have hquarter : x.quarter = 2 ^ x.power / 4 := by
    rw [quarter, zpow_sub₀ (by norm_num)]
    norm_num
  calc x.value * (2 ^ (-x.power).toNat : ℕ)
      = x.significand * (2 ^ x.power * 2 ^ (-x.power).toNat) := by
        rw [value, quarters, hquarter]
        push_cast
        ring
    _ = (x.significand * 2 ^ x.power.toNat : ℕ) := by
      rw [htwo]
      push_cast
      ring

/-- There is a digit at the leading place. -/
theorem Canonical.pow_leadingExponent_le (h : x.Canonical) : 10 ^ x.leadingExponent ≤ x.value := by
  have hden : (0 : ℚ) < (2 ^ (-x.power).toNat : ℕ) := Nat.cast_pos.mpr (Nat.pow_pos (by decide))
  have hnum : 0 < x.significand * 2 ^ x.power.toNat := Nat.mul_pos h.pos (Nat.pow_pos (by decide))
  rw [← mul_le_mul_iff_of_pos_right hden, x.value_mul_den]
  simp only [leadingExponent, Nat.pow_eq]
  generalize x.significand * 2 ^ x.power.toNat = num at hnum ⊢
  generalize 2 ^ (-x.power).toNat = den at hden ⊢
  have hden : 0 < den := Nat.cast_pos.mp hden
  split
  case isTrue hle =>
    obtain ⟨k, hk⟩ : ∃ k, decimalLength (num / den) = k + 1 := by
      rw [decimalLength]
      split <;> exact ⟨_, rfl⟩
    have hlow := pow_le_of_decimalLength (Nat.div_pos hle hden) hk
    rw [hk, Nat.cast_succ, add_sub_cancel_right, zpow_natCast]
    exact_mod_cast (Nat.le_div_iff_mul_le hden).mp hlow
  case isFalse hlt =>
    have hhigh := lt_pow_decimalLength ((den - 1) / num)
    generalize decimalLength ((den - 1) / num) = k at hhigh
    have hle : den ≤ num * 10 ^ k := by
      have := (Nat.div_lt_iff_lt_mul hnum).mp hhigh
      rw [Nat.mul_comm]
      omega
    rw [zpow_neg, zpow_natCast, inv_mul_le_iff₀ (by positivity), mul_comm]
    exact_mod_cast hle

/-! ## Seventeen places -/

/-- The number is smaller than the width of its interval times `10 ^ 16`. -/
theorem Canonical.value_lt (h : x.Canonical) : x.value < 10 ^ 16 * (x.high - x.low) := by
  have hlt := h.lt
  have hends : x.quarters + 10 ^ 16 * x.lowEnd < 10 ^ 16 * x.highEnd := by
    unfold lowEnd highEnd quarters Binary64.fullSignificand at *
    split <;> omega
  have hscaled : ((x.quarters + 10 ^ 16 * x.lowEnd : ℕ) : ℚ) * x.quarter <
      (10 ^ 16 * x.highEnd : ℕ) * x.quarter :=
    mul_lt_mul_of_pos_right (Nat.cast_lt.mpr hends) x.quarter_pos
  push_cast at hscaled
  rw [value, high, low]
  linarith

theorem Canonical.pow_lt_width (h : x.Canonical) :
    (10 : ℚ) ^ (x.leadingExponent - 16) < x.high - x.low := by
  have hvalue := lt_of_le_of_lt h.pow_leadingExponent_le h.value_lt
  rw [zpow_sub₀ (by norm_num), div_lt_iff₀ (by positivity), mul_comm]
  exact hvalue

end Dyadic

/-! ## The search -/

/-- Zeros at the end of a decimal do not count. -/
theorem Decimal.value_trim (d : Decimal) : d.trim.value = d.value := by
  induction d using trim.induct with
  | case1 d h ih =>
    have hdigits : d.digits = 10 * (d.digits / 10) := by omega
    rw [trim, if_pos h, ih, value, value, zpow_add_one₀ (by norm_num)]
    conv_rhs => rw [hdigits]
    push_cast
    ring
  | case2 d h => rw [trim, if_neg h]

/-- **What is written is read back.** -/
theorem Dyadic.Canonical.reads_shortest {x : Dyadic} (h : x.Canonical) :
    x.Reads x.shortest.value := by
  rw [shortest, Decimal.value_trim]
  generalize hfound : (List.range 17).findSome? _ = found
  cases found with
  | some d =>
    obtain ⟨places, -, hplace⟩ := List.exists_of_findSome?_eq_some hfound
    obtain ⟨c, hhit, rfl⟩ := Option.map_eq_some_iff.mp hplace
    exact reads_of_hit? hhit
  | none =>
    obtain ⟨c, hhit⟩ := exists_hit? h h.pow_lt_width
    have hlast := List.findSome?_eq_none_iff.mp hfound 16 (by decide)
    cases hhit.symm.trans (Option.map_eq_none_iff.mp hlast)

end Lox
