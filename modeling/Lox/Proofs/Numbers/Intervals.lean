import Mathlib.Algebra.Order.Field.Power
import Mathlib.Tactic.Linarith
import Mathlib.Tactic.NormNum
import Mathlib.Tactic.Positivity
import Mathlib.Tactic.Ring
import Lox.Number.Shortest

/-!
# The intervals of numbers that are read alike

A floating-point number is read from all rationals of an interval (`Dyadic.Reads`), and the
intervals of two numbers have nothing in common (`Dyadic.eq_of_reads`). So a number is known from
any rational that is read as it, however few digits that has.

The search for such a rational compares natural numbers only (`Dyadic.readsBack`). That it
compares what is meant is `Dyadic.readsBack_iff`: both sides have been multiplied by the same
positive number.
-/

set_option autoImplicit false

namespace Lox

/-- The rational number that a decimal is. -/
def Decimal.value (d : Decimal) : ℚ := d.digits * 10 ^ d.exponent

namespace Dyadic

/-! ## Intervals -/

/-- A quarter of `2 ^ power`, the unit in which an interval has whole ends. -/
def quarter (x : Dyadic) : ℚ := 2 ^ (x.power - 2)

/-- The lower end of the interval. -/
def low (x : Dyadic) : ℚ := x.lowEnd * x.quarter

/-- The upper end of the interval. -/
def high (x : Dyadic) : ℚ := x.highEnd * x.quarter

/-- The rational number that `x` is. -/
def value (x : Dyadic) : ℚ := x.quarters * x.quarter

/-- The rational `q` is read as `x`. The ends of the interval are only if the significand is
even. -/
def Reads (x : Dyadic) (q : ℚ) : Prop :=
  if x.significand % 2 = 0 then x.low ≤ q ∧ q ≤ x.high else x.low < q ∧ q < x.high

/-- The number is positive and written as the bits of a floating-point number say it: with full
precision, if it is not too small for that. -/
structure Canonical (x : Dyadic) : Prop where
  pos : 0 < x.significand
  lt : x.significand < 2 * Binary64.fullSignificand
  least : Binary64.leastPower ≤ x.power
  full : Binary64.leastPower < x.power → Binary64.fullSignificand ≤ x.significand

variable {x y : Dyadic} {q : ℚ}

theorem quarter_pos (x : Dyadic) : 0 < x.quarter := zpow_pos (by norm_num) _

theorem Reads.low_le (h : x.Reads q) : x.low ≤ q := by
  unfold Reads at h
  split at h
  · exact h.1
  · exact h.1.le

theorem Reads.le_high (h : x.Reads q) : q ≤ x.high := by
  unfold Reads at h
  split at h
  · exact h.2
  · exact h.2.le

theorem Reads.lt_of_odd (h : x.Reads q) (hodd : x.significand % 2 = 1) :
    x.low < q ∧ q < x.high := by
  rw [Reads, if_neg (by omega)] at h
  exact h

theorem reads_of_lt (hlow : x.low < q) (hhigh : q < x.high) : x.Reads q := by
  unfold Reads
  split
  · exact ⟨hlow.le, hhigh.le⟩
  · exact ⟨hlow, hhigh⟩

theorem Canonical.low_pos (h : x.Canonical) : 0 < x.low := by
  have hpos := h.pos
  have hend : 0 < x.lowEnd := by
    unfold lowEnd quarters
    split <;> omega
  exact mul_pos (Nat.cast_pos.mpr hend) x.quarter_pos

theorem Canonical.low_lt_value (h : x.Canonical) : x.low < x.value := by
  have hpos := h.pos
  have hend : x.lowEnd < x.quarters := by
    unfold lowEnd quarters
    split <;> omega
  exact mul_lt_mul_of_pos_right (Nat.cast_lt.mpr hend) x.quarter_pos

theorem value_lt_high (x : Dyadic) : x.value < x.high := by
  have hend : x.quarters < x.highEnd := Nat.lt_add_of_pos_right (by decide)
  exact mul_lt_mul_of_pos_right (Nat.cast_lt.mpr hend) x.quarter_pos

/-! ## The intervals of two numbers -/

/-- The number `x` comes before `y`. -/
def Before (x y : Dyadic) : Prop :=
  x.power < y.power ∨ x.power = y.power ∧ x.significand < y.significand

/-- The upper end of an interval is at most as large as any later lower end. Where the two meet,
they belong to one of the intervals at most. -/
theorem Before.high_le_low (hx : x.Canonical) (hy : y.Canonical) (h : x.Before y) :
    x.high ≤ y.low ∧ (x.high = y.low → x.significand % 2 = 1 ∨ y.significand % 2 = 1) := by
  rcases h with hpower | ⟨hpower, hsignificand⟩
  · -- The later unit is at least twice as large, and there is full precision then.
    have hfull := hy.full (lt_of_le_of_lt hx.least hpower)
    have hlt := hx.lt
    have hleast := hx.least
    have hends : x.highEnd ≤ 2 * y.lowEnd ∧ (x.highEnd = 2 * y.lowEnd → x.significand % 2 = 1) := by
      unfold highEnd lowEnd quarters Binary64.fullSignificand at *
      split <;> omega
    have hunit : 2 * x.quarter ≤ y.quarter := by
      rw [quarter, quarter, ← zpow_one_add₀ (by norm_num)]
      exact zpow_le_zpow_right₀ (by norm_num) (by omega)
    have hhigh : x.high ≤ (2 * y.lowEnd : ℕ) * x.quarter :=
      mul_le_mul_of_nonneg_right (Nat.cast_le.mpr hends.1) x.quarter_pos.le
    have hlow : (2 * y.lowEnd : ℕ) * x.quarter ≤ y.low := by
      calc (2 * y.lowEnd : ℕ) * x.quarter = y.lowEnd * (2 * x.quarter) := by push_cast; ring
        _ ≤ y.low := mul_le_mul_of_nonneg_left hunit (Nat.cast_nonneg _)
    refine ⟨hhigh.trans hlow, fun heq => .inl (hends.2 ?_)⟩
    have hmeet : x.high = (2 * y.lowEnd : ℕ) * x.quarter := le_antisymm hhigh (heq ▸ hlow)
    exact Nat.cast_injective (mul_right_cancel₀ x.quarter_pos.ne' hmeet)
  · have hunit : x.quarter = y.quarter := by rw [quarter, quarter, hpower]
    have hends : x.highEnd ≤ y.lowEnd ∧
        (x.highEnd = y.lowEnd → x.significand % 2 = 1 ∨ y.significand % 2 = 1) := by
      unfold highEnd lowEnd quarters
      split <;> omega
    rw [high, low, hunit]
    refine ⟨mul_le_mul_of_nonneg_right (Nat.cast_le.mpr hends.1) y.quarter_pos.le,
      fun heq => hends.2 ?_⟩
    exact Nat.cast_injective (mul_right_cancel₀ y.quarter_pos.ne' heq)

theorem Before.not_reads (hx : x.Canonical) (hy : y.Canonical) (h : x.Before y)
    (hxq : x.Reads q) : ¬ y.Reads q := by
  intro hyq
  obtain ⟨hle, hmeet⟩ := h.high_le_low hx hy
  have hhigh := hxq.le_high
  have hlow := hyq.low_le
  rcases hmeet (le_antisymm hle (hlow.trans hhigh)) with hodd | hodd
  · exact absurd (hxq.lt_of_odd hodd).2 (not_lt.mpr (hle.trans hlow))
  · exact absurd (hyq.lt_of_odd hodd).1 (not_lt.mpr (hhigh.trans hle))

/-- No rational is read as two numbers. -/
theorem eq_of_reads (hx : x.Canonical) (hy : y.Canonical) (hxq : x.Reads q) (hyq : y.Reads q) :
    x = y := by
  rcases lt_trichotomy x.power y.power with hp | hp | hp
  · exact absurd hyq (Before.not_reads hx hy (.inl hp) hxq)
  · rcases lt_trichotomy x.significand y.significand with hs | hs | hs
    · exact absurd hyq (Before.not_reads hx hy (.inr ⟨hp, hs⟩) hxq)
    · cases x
      cases y
      cases hp
      cases hs
      rfl
    · exact absurd hxq (Before.not_reads hy hx (.inr ⟨hp.symm, hs⟩) hyq)
  · exact absurd hxq (Before.not_reads hy hx (.inl hp) hyq)

/-! ## Comparing with decimals -/

theorem zpow_mul_pow_toNat {b : ℚ} (hb : b ≠ 0) (n : ℤ) :
    b ^ n * b ^ (-n).toNat = b ^ n.toNat := by
  rw [← zpow_natCast, ← zpow_natCast, ← zpow_add₀ hb]
  congr 1
  omega

/-- What both sides are multiplied by when a decimal with the exponent `e` is compared with
quarters of `2 ^ power`. -/
def scale (x : Dyadic) (e : ℤ) : ℚ := 10 ^ (-e).toNat * 2 ^ (2 - x.power).toNat

theorem scale_pos (x : Dyadic) (e : ℤ) : 0 < x.scale e := by
  unfold scale
  positivity

theorem decimal_mul_scale (x : Dyadic) (e : ℤ) (c : ℕ) :
    c * 10 ^ e * x.scale e = (c * x.decimalScale e : ℕ) := by
  have hten := zpow_mul_pow_toNat (b := 10) (by norm_num) e
  calc (c : ℚ) * 10 ^ e * x.scale e
      = c * (10 ^ e * 10 ^ (-e).toNat) * 2 ^ (2 - x.power).toNat := by rw [scale]; ring
    _ = (c * x.decimalScale e : ℕ) := by
      rw [hten, decimalScale, Nat.pow_eq, Nat.pow_eq]
      push_cast
      ring

theorem quarters_mul_scale (x : Dyadic) (e : ℤ) (n : ℕ) :
    n * x.quarter * x.scale e = (n * x.quarterScale e : ℕ) := by
  have htwo := zpow_mul_pow_toNat (b := 2) (by norm_num) (x.power - 2)
  rw [neg_sub] at htwo
  calc (n : ℚ) * x.quarter * x.scale e
      = n * 10 ^ (-e).toNat * (2 ^ (x.power - 2) * 2 ^ (2 - x.power).toNat) := by
        rw [scale, quarter]; ring
    _ = (n * x.quarterScale e : ℕ) := by
      rw [htwo, quarterScale, Nat.pow_eq, Nat.pow_eq]
      push_cast
      ring

theorem quarters_le_decimal_iff (x : Dyadic) (e : ℤ) (n c : ℕ) :
    n * x.quarter ≤ c * 10 ^ e ↔ n * x.quarterScale e ≤ c * x.decimalScale e := by
  rw [← mul_le_mul_iff_of_pos_right (x.scale_pos e), quarters_mul_scale, decimal_mul_scale,
    Nat.cast_le]

theorem decimal_le_quarters_iff (x : Dyadic) (e : ℤ) (n c : ℕ) :
    c * 10 ^ e ≤ n * x.quarter ↔ c * x.decimalScale e ≤ n * x.quarterScale e := by
  rw [← mul_le_mul_iff_of_pos_right (x.scale_pos e), quarters_mul_scale, decimal_mul_scale,
    Nat.cast_le]

/-- A decimal is found to read back exactly if it is read as the number. -/
theorem readsBack_iff (x : Dyadic) (e : ℤ) (c : ℕ) :
    x.readsBack e c = true ↔ x.Reads (Decimal.value ⟨c, e⟩) := by
  unfold readsBack Reads Decimal.value low high
  split
  · rw [quarters_le_decimal_iff, decimal_le_quarters_iff]
    exact decide_eq_true_iff
  · rw [← not_le, ← not_le, quarters_le_decimal_iff, decimal_le_quarters_iff, Nat.not_le,
      Nat.not_le]
    exact decide_eq_true_iff

/-! ## The two neighbours -/

theorem below_le_value (x : Dyadic) (e : ℤ) : Decimal.value ⟨x.below e, e⟩ ≤ x.value :=
  (x.decimal_le_quarters_iff e _ _).mpr (Nat.div_mul_le_self _ _)

theorem value_lt_above (x : Dyadic) (e : ℤ) : x.value < Decimal.value ⟨x.below e + 1, e⟩ := by
  have hscale : 0 < x.decimalScale e :=
    Nat.mul_pos (Nat.pow_pos (by decide)) (Nat.pow_pos (by decide))
  rw [value, Decimal.value, ← not_le, decimal_le_quarters_iff, Nat.not_le]
  exact Nat.lt_mul_of_div_lt (Nat.lt_succ_self _) hscale

theorem reads_of_hit? {e : ℤ} {c : ℕ} (h : x.hit? e = some c) :
    x.Reads (Decimal.value ⟨c, e⟩) := by
  simp only [hit?] at h
  split at h
  case h_1 hbelow habove =>
    cases h
    split
    · exact (x.readsBack_iff e _).mp habove
    · exact (x.readsBack_iff e _).mp hbelow
  case h_2 hbelow _ =>
    cases h
    exact (x.readsBack_iff e _).mp hbelow
  case h_3 _ habove =>
    cases h
    exact (x.readsBack_iff e _).mp habove
  case h_4 => cases h

/-- If the interval is wider than the grid, one of the neighbours lies in it. -/
theorem exists_hit? (h : x.Canonical) {e : ℤ} (hwide : 10 ^ e < x.high - x.low) :
    ∃ c, x.hit? e = some c := by
  have hbelow := x.below_le_value e
  have habove := x.value_lt_above e
  have hlow := h.low_lt_value
  have hhigh := x.value_lt_high
  have hgrid : Decimal.value ⟨x.below e + 1, e⟩ = Decimal.value ⟨x.below e, e⟩ + 10 ^ e := by
    simp only [Decimal.value]
    push_cast
    ring
  have hreads : x.Reads (Decimal.value ⟨x.below e, e⟩) ∨
      x.Reads (Decimal.value ⟨x.below e + 1, e⟩) := by
    rcases lt_or_ge x.low (Decimal.value ⟨x.below e, e⟩) with hin | hout
    · exact .inl (reads_of_lt hin (lt_of_le_of_lt hbelow hhigh))
    · exact .inr (reads_of_lt (hlow.trans habove) (by linarith))
  simp only [← readsBack_iff] at hreads
  simp only [hit?]
  rcases hreads with hreads | hreads
  · rw [hreads]
    cases x.readsBack e (x.below e + 1) <;> exact ⟨_, rfl⟩
  · rw [hreads]
    cases x.readsBack e (x.below e) <;> exact ⟨_, rfl⟩

end Dyadic

end Lox
