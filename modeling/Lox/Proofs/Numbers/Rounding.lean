import Lox.Number.Nearest
import Lox.Proofs.Numbers.Bits

/-!
# How decimals are read

A decimal is read as the nearest floating-point number (`Decimal.rounds_toFloat`). What is nearest
is said about rationals, by comparing distances to everything that floating-point numbers with any
exponent can be; whether the nearest of these is too large is asked afterwards, as the standard for
floating-point arithmetic has it. There is only one nearest number, since of two equally near ones
one is odd (`Decimal.eq_toFloat_of_rounds`).
-/

set_option autoImplicit false

namespace Lox

namespace Binary64

/-! ## Being nearest -/

/-- The rational number `significand · 2 ^ power`. -/
def magnitude (significand : ℕ) (power : ℤ) : ℚ := significand * 2 ^ power

/-- Of all numbers that can be written canonically none is nearer to the rational `v` than
`significand · 2 ^ power`; and if another one is equally near, the significand is even. -/
structure IsNearest (v : ℚ) (significand : ℕ) (power : ℤ) : Prop where
  canonical : Canonical significand power
  le : ∀ m p, Canonical m p → |v - magnitude significand power| ≤ |v - magnitude m p|
  even_of_eq : ∀ m p, Canonical m p → |v - magnitude significand power| = |v - magnitude m p| →
    m = significand ∧ p = power ∨ significand % 2 = 0

/-- The power of the largest numbers. -/
def greatestPower : ℤ := 971

/-- What the rational `v` is rounded to: the nearest number, or infinity if that is too large. -/
inductive Rounds (v : ℚ) : Binary64 → Prop where
  | finite {significand : ℕ} {power : ℤ} (h : IsNearest v significand power)
    (hp : power ≤ greatestPower) : Rounds v (.finite false significand power)
  | infinity {significand : ℕ} {power : ℤ} (h : IsNearest v significand power)
    (hp : greatestPower < power) : Rounds v (.infinity false)

end Binary64

/-! ## The nearest whole number -/

/-- The whole number is at most half a unit away, and even if it is half a unit away. -/
theorem two_mul_abs_sub_nearestQuotient {n d : ℕ} (hd : 0 < d) :
    2 * |(n : ℚ) / d - nearestQuotient n d| ≤ 1 ∧
      (2 * |(n : ℚ) / d - nearestQuotient n d| = 1 → nearestQuotient n d % 2 = 0) := by
  have hpos : (0 : ℚ) < d := Nat.cast_pos.mpr hd
  have hdiv : (n : ℚ) / d = (n / d : ℕ) + (n % d : ℕ) / d := by
    rw [eq_comm, ← mul_left_inj' hpos.ne', add_mul, div_mul_cancel₀ _ hpos.ne',
      div_mul_cancel₀ _ hpos.ne']
    exact_mod_cast Nat.div_add_mod' n d
  have hrest : (0 : ℚ) ≤ (n % d : ℕ) / d := by positivity
  rw [hdiv]
  unfold nearestQuotient
  dsimp only
  split
  case isTrue h =>
    have hle : 2 * (n % d) ≤ d := by omega
    have hle' : 2 * ((n % d : ℕ) / d : ℚ) ≤ 1 := by
      rw [← mul_div_assoc, div_le_one hpos]
      exact_mod_cast hle
    rw [add_sub_cancel_left, abs_of_nonneg hrest]
    refine ⟨hle', fun heq => ?_⟩
    have htie : 2 * (n % d) = d := by
      rw [← mul_div_assoc, div_eq_one_iff_eq hpos.ne'] at heq
      exact_mod_cast heq
    omega
  case isFalse h =>
    have hle : d ≤ 2 * (n % d) := by omega
    have hle' : 1 ≤ 2 * ((n % d : ℕ) / d : ℚ) := by
      rw [← mul_div_assoc, one_le_div hpos]
      exact_mod_cast hle
    have hlt : ((n % d : ℕ) / d : ℚ) < 1 := by
      rw [div_lt_one hpos]
      exact_mod_cast Nat.mod_lt n hd
    have habs : |((n / d : ℕ) : ℚ) + (n % d : ℕ) / d - (n / d + 1 : ℕ)| =
        1 - (n % d : ℕ) / d := by
      rw [abs_of_nonpos (by push_cast; linarith)]
      push_cast
      ring
    rw [habs]
    refine ⟨by linarith, fun heq => ?_⟩
    have htie : 2 * (n % d) = d := by
      have hone : 2 * ((n % d : ℕ) / d : ℚ) = 1 := by linarith
      rw [← mul_div_assoc, div_eq_one_iff_eq hpos.ne'] at hone
      exact_mod_cast hone
    omega

/-- No whole number is nearer; and of two equally near ones this one is even, the other odd. -/
theorem abs_sub_nearestQuotient_le {n d : ℕ} (hd : 0 < d) (k : ℕ) :
    |(n : ℚ) / d - nearestQuotient n d| ≤ |(n : ℚ) / d - k| ∧
      (|(n : ℚ) / d - nearestQuotient n d| = |(n : ℚ) / d - k| →
        k = nearestQuotient n d ∨ nearestQuotient n d % 2 = 0 ∧ k % 2 = 1) := by
  obtain ⟨hhalf, heven⟩ := two_mul_abs_sub_nearestQuotient (n := n) hd
  generalize nearestQuotient n d = q at *
  generalize (n : ℚ) / d = v at *
  by_cases hk : k = q
  · rw [hk]
    exact ⟨le_refl _, fun _ => .inl rfl⟩
  have hgap : 1 ≤ |(q : ℚ) - k| := by
    have hone : 1 ≤ |(q : ℤ) - k| := Int.one_le_abs (by omega)
    exact_mod_cast hone
  have htriangle : |(q : ℚ) - k| ≤ |v - q| + |v - k| := by
    rw [abs_sub_comm v q]
    exact abs_sub_le _ _ _
  refine ⟨by linarith, fun htie => .inr ?_⟩
  have hq := heven (by linarith)
  -- The two lie half a unit below and above `v`.
  have hnext : |(q : ℚ) - k| ≤ 1 := by linarith
  have hnext' : |(q : ℤ) - k| ≤ 1 := by exact_mod_cast hnext
  rw [abs_le] at hnext'
  omega

namespace Binary64

/-! ## Units -/

variable {n d : ℕ}

theorem denominator_pos (hd : 0 < d) (p : ℤ) : 0 < denominator d p :=
  Nat.mul_pos hd (Nat.pow_pos (by decide))

/-- The quotient, counted in units of `2 ^ p`. -/
theorem div_eq_units (hd : 0 < d) (p : ℤ) :
    (n : ℚ) / d = (numerator n p : ℚ) / denominator d p * 2 ^ p := by
  have hpow := Dyadic.zpow_mul_pow_toNat (b := 2) (by norm_num) p
  have hd' : (d : ℚ) ≠ 0 := Nat.cast_ne_zero.mpr hd.ne'
  have htwo : (2 : ℚ) ^ p.toNat ≠ 0 := by positivity
  rw [numerator, denominator, Nat.pow_eq, Nat.pow_eq]
  push_cast
  rw [div_mul_eq_mul_div, mul_assoc, mul_comm _ (2 ^ p : ℚ), hpow, mul_div_mul_right _ _ htwo]

/-- The comparison that is made with whole numbers, to find out how many units there are. -/
theorem div_lt_units_iff (hd : 0 < d) (p : ℤ) (k : ℕ) :
    (n : ℚ) / d < k * 2 ^ p ↔ numerator n p < k * denominator d p := by
  have hunit : (0 : ℚ) < 2 ^ p := by positivity
  have hpos : (0 : ℚ) < denominator d p := Nat.cast_pos.mpr (denominator_pos hd p)
  rw [div_eq_units hd p, mul_lt_mul_iff_left₀ hunit, div_lt_iff₀ hpos]
  exact_mod_cast Iff.rfl

/-- What the logarithms say of the quotient. -/
theorem div_between_logs (hn : 0 < n) (hd : 0 < d) :
    (2 : ℚ) ^ ((n.log2 : ℤ) - d.log2 - 1) < (n : ℚ) / d ∧
      (n : ℚ) / d < 2 ^ ((n.log2 : ℤ) - d.log2 + 1) := by
  have hpos : (0 : ℚ) < d := Nat.cast_pos.mpr hd
  have hlow : (2 : ℚ) ^ n.log2 ≤ n := by exact_mod_cast Nat.log2_self_le hn.ne'
  have hhigh : (n : ℚ) < 2 ^ (n.log2 + 1) := by exact_mod_cast Nat.lt_log2_self
  have hlow' : (2 : ℚ) ^ d.log2 ≤ d := by exact_mod_cast Nat.log2_self_le hd.ne'
  have hhigh' : (d : ℚ) < 2 ^ (d.log2 + 1) := by exact_mod_cast Nat.lt_log2_self
  have hunit (e : ℤ) : (0 : ℚ) < 2 ^ e := by positivity
  constructor
  · rw [lt_div_iff₀ hpos]
    calc (2 : ℚ) ^ ((n.log2 : ℤ) - d.log2 - 1) * d
        < 2 ^ ((n.log2 : ℤ) - d.log2 - 1) * 2 ^ (d.log2 + 1) :=
          mul_lt_mul_of_pos_left hhigh' (hunit _)
      _ = 2 ^ n.log2 := by
          rw [← zpow_natCast, ← zpow_natCast, ← zpow_add₀ two_ne_zero]
          congr 1
          omega
      _ ≤ n := hlow
  · rw [div_lt_iff₀ hpos]
    calc (n : ℚ) < 2 ^ (n.log2 + 1) := hhigh
      _ = 2 ^ ((n.log2 : ℤ) - d.log2 + 1) * 2 ^ d.log2 := by
          rw [← zpow_natCast, ← zpow_natCast, ← zpow_add₀ two_ne_zero]
          congr 1
          omega
      _ ≤ 2 ^ ((n.log2 : ℤ) - d.log2 + 1) * d := mul_le_mul_of_nonneg_left hlow' (hunit _).le

theorem fullSignificand_eq : ((fullSignificand : ℕ) : ℚ) = 2 ^ (52 : ℤ) := by
  norm_num [fullSignificand]

/-- With the full power the quotient has full precision, and not more. -/
theorem fullPower_spec (hn : 0 < n) (hd : 0 < d) :
    fullSignificand * 2 ^ fullPower n d ≤ (n : ℚ) / d ∧
      (n : ℚ) / d < 2 * fullSignificand * 2 ^ fullPower n d := by
  obtain ⟨hlow, hhigh⟩ := div_between_logs hn hd
  rw [fullPower]
  rw [fullSignificand_eq, ← zpow_one_add₀ two_ne_zero, ← zpow_add₀ two_ne_zero,
    ← zpow_add₀ two_ne_zero]
  split
  case isTrue h =>
    rw [← div_lt_units_iff hd, fullSignificand_eq, ← zpow_add₀ two_ne_zero] at h
    constructor
    · refine le_trans (le_of_eq ?_) hlow.le
      congr 1
      ring
    · refine lt_of_lt_of_eq h ?_
      congr 1
      ring
  case isFalse h =>
    rw [← div_lt_units_iff hd, fullSignificand_eq, ← zpow_add₀ two_ne_zero, not_lt] at h
    refine ⟨h, lt_of_lt_of_eq hhigh ?_⟩
    congr 1
    ring

/-- With the power that is taken, the quotient has no more than full precision, and it has full
precision unless the power is the least. -/
theorem nearestPower_spec (hd : 0 < d) :
    leastPower ≤ nearestPower n d ∧
      (leastPower < nearestPower n d → fullSignificand * 2 ^ nearestPower n d ≤ (n : ℚ) / d) ∧
      (n : ℚ) / d < 2 * fullSignificand * 2 ^ nearestPower n d := by
  unfold nearestPower
  split
  case isTrue hzero =>
    refine ⟨le_refl _, fun h => absurd h (lt_irrefl _), ?_⟩
    rw [hzero, Nat.cast_zero, zero_div, fullSignificand_eq]
    positivity
  case isFalse hzero =>
    obtain ⟨hlow, hhigh⟩ := fullPower_spec (Nat.pos_of_ne_zero hzero) hd
    refine ⟨le_max_right _ _, fun h => ?_, ?_⟩
    · rw [max_eq_left_of_lt ((lt_max_iff.mp h).resolve_right (lt_irrefl _))]
      exact hlow
    · refine lt_of_lt_of_le hhigh (mul_le_mul_of_nonneg_left ?_ (by positivity))
      exact zpow_le_zpow_right₀ one_le_two (le_max_left _ _)

/-! ## Canonical numbers -/

variable {m : ℕ} {p : ℤ}

theorem Canonical.lt (h : Canonical m p) : m < 2 * fullSignificand := by
  rcases h with ⟨rfl, -⟩ | h
  · decide
  · exact h.lt

theorem Canonical.leastPower_le (h : Canonical m p) : leastPower ≤ p := by
  rcases h with ⟨-, rfl⟩ | h
  · exact le_refl _
  · exact h.least

theorem Canonical.full_le (h : Canonical m p) (hp : leastPower < p) : fullSignificand ≤ m := by
  rcases h with ⟨-, rfl⟩ | h
  · exact absurd hp (lt_irrefl _)
  · exact h.full hp

/-- A significand that is within its bounds is canonical with this power. -/
theorem canonical_of_le (hp : leastPower ≤ p) (hfull : leastPower < p → fullSignificand ≤ m)
    (hlt : m < 2 * fullSignificand) : Canonical m p := by
  rcases Nat.eq_zero_or_pos m with hzero | hpos
  · refine .inl ⟨hzero, le_antisymm (not_lt.mp fun h => ?_) hp⟩
    have hle := hfull h
    rw [hzero] at hle
    exact absurd hle (by decide)
  · exact .inr ⟨hpos, hlt, hp, hfull⟩

theorem magnitude_eq_value (m : ℕ) (p : ℤ) : magnitude m p = Dyadic.value ⟨m, p⟩ := by
  have hquarter : (2 : ℚ) ^ p = 4 * 2 ^ (p - 2) := by
    rw [zpow_sub₀ two_ne_zero, zpow_two]
    ring
  rw [magnitude, hquarter, Dyadic.value, Dyadic.quarters, Dyadic.quarter]
  push_cast
  ring

/-- A number is written canonically in one way only. -/
theorem Canonical.eq_of_magnitude_eq {m' : ℕ} {p' : ℤ} (h : Canonical m p) (h' : Canonical m' p')
    (heq : magnitude m p = magnitude m' p') : m = m' ∧ p = p' := by
  have hunit (e : ℤ) : (2 : ℚ) ^ e ≠ 0 := by positivity
  rcases h with ⟨rfl, rfl⟩ | h
  · rcases h' with ⟨rfl, rfl⟩ | h'
    · exact ⟨rfl, rfl⟩
    · have hzero : m' = 0 := by simpa [magnitude, hunit] using heq.symm
      exact absurd hzero h'.pos.ne'
  · rcases h' with ⟨rfl, rfl⟩ | h'
    · have hzero : m = 0 := by simpa [magnitude, hunit] using heq
      exact absurd hzero h.pos.ne'
    · have hreads := Dyadic.reads_of_lt h.low_lt_value (Dyadic.value_lt_high ⟨m, p⟩)
      have hreads' := Dyadic.reads_of_lt h'.low_lt_value (Dyadic.value_lt_high ⟨m', p'⟩)
      rw [← magnitude_eq_value] at hreads hreads'
      rw [← heq] at hreads'
      exact Dyadic.mk.inj (Dyadic.eq_of_reads h h' hreads hreads')

/-! ## The nearest number -/

/-- The significand before a carry. -/
def nearestSignificand (n d : ℕ) : ℕ :=
  nearestQuotient (numerator n (nearestPower n d)) (denominator d (nearestPower n d))

theorem abs_sub_units (hd : 0 < d) (p : ℤ) (k : ℕ) :
    |(n : ℚ) / d - k * 2 ^ p| = |(numerator n p : ℚ) / denominator d p - k| * 2 ^ p := by
  have hunit : (0 : ℚ) < 2 ^ p := by positivity
  rw [div_eq_units hd p, ← sub_mul, abs_mul, abs_of_pos hunit]

/-- Among the multiples of the power that is taken, none is nearer. -/
theorem abs_sub_multiple_le (hd : 0 < d) (k : ℕ) :
    |(n : ℚ) / d - magnitude (nearestSignificand n d) (nearestPower n d)| ≤
        |(n : ℚ) / d - k * 2 ^ nearestPower n d| ∧
      (|(n : ℚ) / d - magnitude (nearestSignificand n d) (nearestPower n d)| =
          |(n : ℚ) / d - k * 2 ^ nearestPower n d| →
        k = nearestSignificand n d ∨ nearestSignificand n d % 2 = 0 ∧ k % 2 = 1) := by
  have hunit : (0 : ℚ) < 2 ^ nearestPower n d := by positivity
  obtain ⟨hle, htie⟩ := abs_sub_nearestQuotient_le (n := numerator n (nearestPower n d))
    (denominator_pos hd (nearestPower n d)) k
  rw [magnitude, abs_sub_units hd, abs_sub_units hd]
  refine ⟨mul_le_mul_of_nonneg_right hle hunit.le, fun heq => htie ?_⟩
  exact mul_right_cancel₀ hunit.ne' heq

/-- Among all numbers, none is nearer. Those with a smaller power are not, because they lie below
full precision. -/
theorem abs_sub_magnitude_le (hd : 0 < d) (h : Canonical m p) :
    |(n : ℚ) / d - magnitude (nearestSignificand n d) (nearestPower n d)| ≤
        |(n : ℚ) / d - magnitude m p| ∧
      (|(n : ℚ) / d - magnitude (nearestSignificand n d) (nearestPower n d)| =
          |(n : ℚ) / d - magnitude m p| →
        magnitude m p = magnitude (nearestSignificand n d) (nearestPower n d) ∨
          nearestSignificand n d % 2 = 0 ∧ m % 2 = 1) := by
  obtain ⟨-, hfull, -⟩ := nearestPower_spec (n := n) hd
  rcases le_or_gt (nearestPower n d) p with hge | hlt
  · have hmultiple : magnitude m p =
        (m * 2 ^ (p - nearestPower n d).toNat : ℕ) * 2 ^ nearestPower n d := by
      rw [magnitude]
      push_cast
      rw [mul_assoc, ← zpow_natCast, ← zpow_add₀ two_ne_zero]
      congr 2
      omega
    obtain ⟨hle, htie⟩ := abs_sub_multiple_le (n := n) hd (m * 2 ^ (p - nearestPower n d).toNat)
    rw [hmultiple]
    refine ⟨hle, fun heq => ?_⟩
    rcases htie heq with hsame | ⟨heven, hodd⟩
    · rw [hsame]
      exact .inl rfl
    · exact .inr ⟨heven, Nat.odd_iff.mp (Nat.odd_mul.mp (Nat.odd_iff.mpr hodd)).1⟩
  · have hlow := hfull (lt_of_le_of_lt h.leastPower_le hlt)
    have hbelow : magnitude m p < fullSignificand * 2 ^ nearestPower n d := by
      have hunit : (0 : ℚ) < 2 ^ p := by positivity
      calc magnitude m p < (2 * fullSignificand : ℕ) * 2 ^ p :=
            mul_lt_mul_of_pos_right (Nat.cast_lt.mpr h.lt) hunit
        _ = fullSignificand * 2 ^ (1 + p) := by
            rw [zpow_one_add₀ two_ne_zero]
            push_cast
            ring
        _ ≤ fullSignificand * 2 ^ nearestPower n d :=
            mul_le_mul_of_nonneg_left (zpow_le_zpow_right₀ one_le_two (by omega)) (by positivity)
    have hnear := (abs_sub_multiple_le (n := n) hd fullSignificand).1
    rw [abs_of_nonneg (sub_nonneg.mpr hlow)] at hnear
    rw [abs_of_nonneg (a := (n : ℚ) / d - magnitude m p) (by linarith)]
    exact ⟨by linarith, fun heq => absurd heq (by linarith)⟩

/-! ## The carry -/

theorem nearestSignificand_le (hd : 0 < d) : nearestSignificand n d ≤ 2 * fullSignificand := by
  obtain ⟨-, -, hhigh⟩ := nearestPower_spec (n := n) hd
  have hlt : numerator n (nearestPower n d) / denominator d (nearestPower n d) <
      2 * fullSignificand := by
    rw [Nat.div_lt_iff_lt_mul (denominator_pos hd _), ← div_lt_units_iff hd]
    exact_mod_cast hhigh
  unfold nearestSignificand nearestQuotient
  dsimp only
  split <;> omega

/-- Rounding does not take full precision away. -/
theorem full_le_nearestSignificand (hd : 0 < d) (h : leastPower < nearestPower n d) :
    fullSignificand ≤ nearestSignificand n d := by
  obtain ⟨-, hfull, -⟩ := nearestPower_spec (n := n) hd
  have hle : fullSignificand ≤
      numerator n (nearestPower n d) / denominator d (nearestPower n d) := by
    rw [Nat.le_div_iff_mul_le (denominator_pos hd _), ← not_lt, ← div_lt_units_iff hd, not_lt]
    exact hfull h
  unfold nearestSignificand nearestQuotient
  dsimp only
  split <;> omega

/-- The bits that a canonical number has, unless it is too large. -/
def bitsOf (significand : ℕ) (power : ℤ) : ℕ :=
  (power - leastPower).toNat * fullSignificand + significand

/-- A significand that is one too long is the least of full precision with the next power. Its bits
do not tell the difference. -/
theorem exists_canonical (hd : 0 < d) :
    ∃ s p, Canonical s p ∧
      magnitude s p = magnitude (nearestSignificand n d) (nearestPower n d) ∧
      (nearestSignificand n d % 2 = 0 → s % 2 = 0) ∧
      bitsOf s p = bitsOf (nearestSignificand n d) (nearestPower n d) := by
  obtain ⟨hleast, -, -⟩ := nearestPower_spec (n := n) hd
  rcases Nat.lt_or_eq_of_le (nearestSignificand_le (n := n) hd) with hlt | hcarry
  · exact ⟨_, _, canonical_of_le hleast (full_le_nearestSignificand hd) hlt, rfl, id, rfl⟩
  · refine ⟨fullSignificand, nearestPower n d + 1, ?_, ?_, fun _ => rfl, ?_⟩
    · exact canonical_of_le (by omega) (fun _ => le_refl _) (by decide)
    · rw [hcarry, magnitude, magnitude, zpow_add_one₀ two_ne_zero]
      push_cast
      ring
    · rw [hcarry, bitsOf, bitsOf]
      simp only [fullSignificand]
      omega

/-- The number that is taken is the nearest, and the only one. -/
theorem exists_isNearest (hd : 0 < d) :
    ∃ s p, IsNearest ((n : ℚ) / d) s p ∧
      bitsOf s p = bitsOf (nearestSignificand n d) (nearestPower n d) ∧
      ∀ m p', IsNearest ((n : ℚ) / d) m p' → m = s ∧ p' = p := by
  obtain ⟨s, p, hcanonical, hmagnitude, heven, hbits⟩ := exists_canonical (n := n) hd
  have hcompare {m : ℕ} {p' : ℤ} (h : Canonical m p') :
      |(n : ℚ) / d - magnitude s p| ≤ |(n : ℚ) / d - magnitude m p'| ∧
        (|(n : ℚ) / d - magnitude s p| = |(n : ℚ) / d - magnitude m p'| →
          m = s ∧ p' = p ∨ s % 2 = 0 ∧ m % 2 = 1) := by
    obtain ⟨hle, htie⟩ := abs_sub_magnitude_le (n := n) hd h
    rw [hmagnitude]
    refine ⟨hle, fun heq => ?_⟩
    rcases htie heq with hsame | ⟨hq, hodd⟩
    · exact .inl (h.eq_of_magnitude_eq hcanonical (hsame.trans hmagnitude.symm))
    · exact .inr ⟨heven hq, hodd⟩
  refine ⟨s, p, ⟨hcanonical, fun m p' h => (hcompare h).1, fun m p' h heq => ?_⟩, hbits, ?_⟩
  · exact ((hcompare h).2 heq).imp_right And.left
  · intro m p' h
    have heq := le_antisymm (hcompare h.canonical).1 (h.le s p hcanonical)
    rcases (hcompare h.canonical).2 heq with hsame | ⟨-, hodd⟩
    · exact hsame
    · rcases h.even_of_eq s p hcanonical heq.symm with ⟨rfl, rfl⟩ | hm
      · exact ⟨rfl, rfl⟩
      · omega

/-! ## Bits -/

theorem ofBits_bitsOf (h : Canonical m p) (hp : p ≤ greatestPower) :
    ofBits (bitsOf m p) = .finite false m p := by
  have hlt := h.lt
  have hleast := h.leastPower_le
  have hfull := h.full_le
  simp only [ofBits, bitsOf, fullSignificand, exponentCount, leastPower, greatestPower,
    Nat.testBit_eq_decide_div_mod_eq] at *
  have hsign : decide (((p - -1074).toNat * 0x10000000000000 + m) / 2 ^ 63 % 2 = 1) = false := by
    rw [decide_eq_false_iff_not]
    omega
  rw [hsign, if_neg (by omega)]
  split
  · congr 1 <;> omega
  · congr 1 <;> omega

/-- The bits of all that is too large come after those of infinity, so they can be cut off there.
-/
theorem bitsOf_lt_iff (h : Canonical m p) : bitsOf m p < infinityBits ↔ p ≤ greatestPower := by
  have hlt := h.lt
  have hleast := h.leastPower_le
  have hfull := h.full_le
  simp only [bitsOf, infinityBits, fullSignificand, leastPower, greatestPower] at *
  constructor
  · intro hbits
    by_contra hlarge
    have := hfull (by omega)
    omega
  · intro hp
    omega

theorem nearestBits_le (n d : ℕ) : nearestBits n d ≤ infinityBits := Nat.min_le_right _ _

/-- The bits that are taken are those of what the quotient is rounded to. -/
theorem rounds_ofBits (hd : 0 < d) : Rounds ((n : ℚ) / d) (ofBits (nearestBits n d)) := by
  obtain ⟨s, p, hnearest, hbits, -⟩ := exists_isNearest (n := n) hd
  change Rounds _ (ofBits (min (bitsOf (nearestSignificand n d) (nearestPower n d)) infinityBits))
  rw [← hbits]
  rcases le_or_gt p greatestPower with hp | hp
  · rw [min_eq_left ((bitsOf_lt_iff hnearest.canonical).mpr hp).le,
      ofBits_bitsOf hnearest.canonical hp]
    exact .finite hnearest hp
  · rw [min_eq_right (not_lt.mp (mt (bitsOf_lt_iff hnearest.canonical).mp (not_le.mpr hp)))]
    exact .infinity hnearest hp

/-- A quotient is rounded to one number only. -/
theorem Rounds.unique {b b' : Binary64} (hd : 0 < d) (h : Rounds ((n : ℚ) / d) b)
    (h' : Rounds ((n : ℚ) / d) b') : b = b' := by
  obtain ⟨s, p, -, -, hunique⟩ := exists_isNearest (n := n) hd
  cases h with
  | finite h hp =>
    obtain ⟨rfl, rfl⟩ := hunique _ _ h
    cases h' with
    | finite h' hp' =>
      obtain ⟨rfl, rfl⟩ := hunique _ _ h'
      rfl
    | infinity h' hp' =>
      obtain ⟨rfl, rfl⟩ := hunique _ _ h'
      exact absurd hp' (not_lt.mpr hp)
  | infinity h hp =>
    obtain ⟨rfl, rfl⟩ := hunique _ _ h
    cases h' with
    | finite h' hp' =>
      obtain ⟨rfl, rfl⟩ := hunique _ _ h'
      exact absurd hp (not_lt.mpr hp')
    | infinity h' hp' => rfl

theorem Rounds.ne_nan {v : ℚ} {b : Binary64} (h : Rounds v b) : b ≠ .nan := by
  rintro rfl
  cases h

theorem ofFloat_ofBits {bits : ℕ} (h : bits ≤ infinityBits) :
    ofFloat (Float.ofBits (UInt64.ofNat bits)) = ofBits bits := by
  have hbits : (UInt64.ofNat bits).toNat = bits := by
    rw [UInt64.toNat_ofNat']
    simp only [infinityBits] at h
    omega
  rw [ofFloat, toBits_ofBits (by rwa [hbits]), hbits]

end Binary64

/-! ## Decimals -/

/-- The quotient that is rounded is the decimal. -/
theorem Decimal.value_eq_div (d : Decimal) :
    d.value =
      (d.digits * Nat.pow 10 d.exponent.toNat : ℕ) / (Nat.pow 10 (-d.exponent).toNat : ℕ) := by
  have hpow := Dyadic.zpow_mul_pow_toNat (b := 10) (by norm_num) d.exponent
  have hten : (10 : ℚ) ^ (-d.exponent).toNat ≠ 0 := by positivity
  rw [value, eq_div_iff (by exact_mod_cast hten), Nat.pow_eq, Nat.pow_eq]
  push_cast
  rw [mul_assoc, hpow]

namespace Decimal

theorem exists_isNearest (d : Decimal) : ∃ s p, Binary64.IsNearest d.value s p := by
  have hden : 0 < Nat.pow 10 (-d.exponent).toNat := Nat.pow_pos (by decide)
  rw [value_eq_div]
  obtain ⟨s, p, hnearest, -, -⟩ := Binary64.exists_isNearest hden
  exact ⟨s, p, hnearest⟩

theorem rounds_unique {d : Decimal} {b b' : Binary64} (h : Binary64.Rounds d.value b)
    (h' : Binary64.Rounds d.value b') : b = b' := by
  have hden : 0 < Nat.pow 10 (-d.exponent).toNat := Nat.pow_pos (by decide)
  rw [value_eq_div] at h h'
  exact h.unique hden h'

/-! ## Decimals that are too large or too small -/

theorem two_pow_le_ten_pow (k : ℕ) : (2 : ℚ) ^ (3 * k) ≤ 10 ^ k := by
  rw [pow_mul]
  exact pow_le_pow_left₀ (by norm_num) (by norm_num) k

/-- If a number were nearest that is not too large, the next power of two would be nearer. -/
theorem rounds_large {d : Decimal} (hpos : 0 < d.digits) (h : 400 ≤ d.exponent) :
    Binary64.Rounds d.value (.infinity false) := by
  obtain ⟨s, p, hnearest⟩ := d.exists_isNearest
  refine .infinity hnearest (lt_of_not_ge fun hp => ?_)
  have hnext : Binary64.magnitude Binary64.fullSignificand (Binary64.greatestPower + 1) ≤
      d.value := by
    have hdigits : (1 : ℚ) ≤ d.digits := by exact_mod_cast hpos
    calc Binary64.magnitude Binary64.fullSignificand (Binary64.greatestPower + 1)
        = 2 ^ ((52 : ℤ) + (Binary64.greatestPower + 1)) := by
          rw [Binary64.magnitude, Binary64.fullSignificand_eq, ← zpow_add₀ two_ne_zero]
      _ ≤ 2 ^ ((3 * 400 : ℕ) : ℤ) := zpow_le_zpow_right₀ one_le_two (by decide)
      _ ≤ 10 ^ ((400 : ℕ) : ℤ) := by exact_mod_cast two_pow_le_ten_pow 400
      _ ≤ 10 ^ d.exponent := zpow_le_zpow_right₀ (by norm_num) h
      _ ≤ d.value := le_mul_of_one_le_left (by positivity) hdigits
  have hbelow : Binary64.magnitude s p <
      Binary64.magnitude Binary64.fullSignificand (Binary64.greatestPower + 1) := by
    have hunit : (0 : ℚ) < 2 ^ p := by positivity
    calc Binary64.magnitude s p < (2 * Binary64.fullSignificand : ℕ) * 2 ^ p :=
          mul_lt_mul_of_pos_right (Nat.cast_lt.mpr hnearest.canonical.lt) hunit
      _ ≤ (2 * Binary64.fullSignificand : ℕ) * 2 ^ Binary64.greatestPower :=
          mul_le_mul_of_nonneg_left (zpow_le_zpow_right₀ one_le_two hp) (Nat.cast_nonneg _)
      _ = Binary64.magnitude Binary64.fullSignificand (Binary64.greatestPower + 1) := by
          rw [Binary64.magnitude, zpow_add_one₀ two_ne_zero]
          push_cast
          ring
  have hcanonical : Binary64.Canonical Binary64.fullSignificand (Binary64.greatestPower + 1) :=
    Binary64.canonical_of_le (by decide) (fun _ => le_refl _) (by decide)
  have hle := hnearest.le _ _ hcanonical
  rw [abs_of_nonneg (by linarith), abs_of_nonneg (by linarith)] at hle
  linarith

/-- Zero is nearest to what is less than half of the least number. -/
theorem rounds_small {d : Decimal} (h : d.exponent ≤ -(400 + d.digits.log2)) :
    Binary64.Rounds d.value (.finite false 0 Binary64.leastPower) := by
  have hnonneg : 0 ≤ d.value := by
    unfold value
    positivity
  have hvalue : 2 * d.value < 2 ^ Binary64.leastPower := by
    have hdigits : (d.digits : ℚ) ≤ 2 ^ (d.digits.log2 + 1) := by
      exact_mod_cast (Nat.lt_log2_self (n := d.digits)).le
    have hten : (10 : ℚ) ^ d.exponent ≤ (2 ^ (3 * (400 + d.digits.log2)))⁻¹ := by
      calc (10 : ℚ) ^ d.exponent ≤ 10 ^ (-((400 + d.digits.log2 : ℕ) : ℤ)) :=
            zpow_le_zpow_right₀ (by norm_num) (by omega)
        _ = (10 ^ (400 + d.digits.log2))⁻¹ := by rw [zpow_neg, zpow_natCast]
        _ ≤ (2 ^ (3 * (400 + d.digits.log2)))⁻¹ :=
            inv_anti₀ (by positivity) (two_pow_le_ten_pow _)
    calc 2 * d.value ≤ 2 * (2 ^ (d.digits.log2 + 1) * (2 ^ (3 * (400 + d.digits.log2)))⁻¹) :=
          mul_le_mul_of_nonneg_left (mul_le_mul hdigits hten (by positivity) (by positivity))
            (by norm_num)
      _ = 2 ^ ((d.digits.log2 : ℤ) + 2 - 3 * (400 + d.digits.log2)) := by
          rw [← zpow_natCast, ← zpow_natCast, ← zpow_neg, ← zpow_add₀ two_ne_zero,
            ← zpow_one_add₀ two_ne_zero]
          congr 1
          push_cast
          ring
      _ < 2 ^ Binary64.leastPower :=
          zpow_lt_zpow_right₀ one_lt_two (by simp only [Binary64.leastPower]; omega)
  have hfar {m : ℕ} {p : ℤ} (hm : Binary64.Canonical m p) (hpos : 0 < m) :
      |d.value - Binary64.magnitude 0 Binary64.leastPower| <
        |d.value - Binary64.magnitude m p| := by
    have hleast : (2 : ℚ) ^ Binary64.leastPower ≤ Binary64.magnitude m p := by
      have hone : (1 : ℚ) ≤ m := by exact_mod_cast hpos
      calc (2 : ℚ) ^ Binary64.leastPower ≤ 2 ^ p :=
            zpow_le_zpow_right₀ one_le_two hm.leastPower_le
        _ ≤ Binary64.magnitude m p := le_mul_of_one_le_left (by positivity) hone
    rw [Binary64.magnitude, Nat.cast_zero, zero_mul, sub_zero, abs_of_nonneg hnonneg, abs_sub_comm,
      abs_of_nonneg (by linarith)]
    linarith
  refine .finite ⟨.inl ⟨rfl, rfl⟩, fun m p hm => ?_, fun _ _ _ _ => .inr rfl⟩ (by decide)
  rcases Nat.eq_zero_or_pos m with rfl | hpos
  · simp [Binary64.magnitude]
  · exact (hfar hm hpos).le

/-- Bringing the exponent within its bounds makes no difference to what a decimal is read as. -/
theorem rounds_of_bounded {d : Decimal} {b : Binary64}
    (h : Binary64.Rounds d.bounded.value b) : Binary64.Rounds d.value b := by
  rcases lt_or_ge d.exponent (-(400 + d.digits.log2)) with hsmall | hlow
  · have hbounded : d.bounded.exponent = -(400 + d.bounded.digits.log2) := by
      simp only [bounded]
      omega
    rw [rounds_unique h (rounds_small hbounded.le)]
    exact rounds_small hsmall.le
  rcases lt_or_ge 400 d.exponent with hlarge | hhigh
  · rcases Nat.eq_zero_or_pos d.digits with hzero | hpos
    · have hvalue : d.bounded.value = d.value := by simp [value, bounded, hzero]
      rwa [hvalue] at h
    · have hbounded : d.bounded.exponent = 400 := by
        simp only [bounded]
        omega
      rw [rounds_unique h (rounds_large hpos hbounded.ge)]
      exact rounds_large hpos hlarge.le
  · have hsame : d.bounded = d := by
      simp only [bounded, min_eq_left hhigh, max_eq_left hlow]
    rwa [hsame] at h

/-! ## Reading -/

/-- **A decimal is read as the nearest floating-point number.** -/
theorem rounds_toFloat (d : Decimal) :
    Binary64.Rounds d.value (Binary64.ofFloat d.toFloat) := by
  have hden : 0 < Nat.pow 10 (-d.bounded.exponent).toNat := Nat.pow_pos (by decide)
  apply rounds_of_bounded
  rw [toFloat, Binary64.ofFloat_ofBits (Binary64.nearestBits_le _ _), value_eq_div]
  exact Binary64.rounds_ofBits hden

-- It lies half-way between two numbers, of which the even one is below.
example : toFloat ⟨9007199254740993, 0⟩ = 9007199254740992 := by decide +kernel

/-- No row of digits denotes something that is no number. -/
theorem ofFloat_toFloat_ne_nan (d : Decimal) : Binary64.ofFloat d.toFloat ≠ .nan :=
  d.rounds_toFloat.ne_nan

/-- There is no other nearest number. -/
theorem eq_toFloat_of_rounds {d : Decimal} {x : Float}
    (h : Binary64.Rounds d.value (Binary64.ofFloat x)) : x = d.toFloat :=
  Binary64.eq_of_ofFloat_eq (rounds_unique h d.rounds_toFloat) h.ne_nan

end Decimal

end Lox
