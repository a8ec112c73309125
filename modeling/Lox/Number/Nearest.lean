import Lox.Number.Decimal
import Lox.Number.Binary64

/-!
# The floating-point number nearest to a decimal

A decimal is read by rounding it once. It is a quotient `n / d` of natural numbers. The power of
two is chosen such that the quotient lies between full precision and twice that when it is counted
in units of that power, and no smaller than the least there is. Then the significand is the nearest
whole number, of two equally near ones the even one.

Rounding up may reach twice full precision, and any number may be too large. In the bits neither
is a special case. The exponent stands just above the fraction, so a significand that is one too
long carries into the exponent, and the bits of larger numbers are larger: whatever would come out
above infinity is infinity.
-/

set_option autoImplicit false

namespace Lox

/-- The whole number nearest to `n / d`, of two equally near ones the even one. -/
def nearestQuotient (n d : Nat) : Nat :=
  let q := n / d
  let r := n % d
  if 2 * r < d ∨ 2 * r = d ∧ q % 2 = 0 then q else q + 1

namespace Binary64

/-- The bits of infinity. -/
def infinityBits : Nat := 0x7FF0000000000000

/-- What `n` is multiplied by when `n / d` is counted in units of `2 ^ p`. -/
def numerator (n : Nat) (p : Int) : Nat := n * Nat.pow 2 (-p).toNat

/-- What `d` is multiplied by when `n / d` is counted in units of `2 ^ p`. -/
def denominator (d : Nat) (p : Int) : Nat := d * Nat.pow 2 p.toNat

/-- The largest power with which `n / d` has full precision. The logarithms of both leave a doubt
of one. -/
def fullPower (n d : Nat) : Int :=
  let p := (n.log2 : Int) - d.log2 - 52
  if numerator n p < fullSignificand * denominator d p then p - 1 else p

/-- The power of the number that `n / d` is read as. -/
def nearestPower (n d : Nat) : Int :=
  if n = 0 then leastPower else max (fullPower n d) leastPower

/-- The bits of the number that `n / d` is read as. -/
def nearestBits (n d : Nat) : Nat :=
  let p := nearestPower n d
  let significand := nearestQuotient (numerator n p) (denominator d p)
  min ((p - leastPower).toNat * fullSignificand + significand) infinityBits

end Binary64

namespace Decimal

/-- The decimal with its exponent brought within bounds. It is read as the same: with any exponent
above them it is too large, and with any below them too small. -/
def bounded (d : Decimal) : Decimal :=
  ⟨d.digits, max (min d.exponent 400) (-(400 + d.digits.log2))⟩

/-- The floating-point number nearest to a decimal, of two equally near the even one. -/
def toFloat (d : Decimal) : Float :=
  let b := d.bounded
  let numerator := b.digits * Nat.pow 10 b.exponent.toNat
  let denominator := Nat.pow 10 (-b.exponent).toNat
  Float.ofBits (UInt64.ofNat (Binary64.nearestBits numerator denominator))

end Decimal

end Lox
