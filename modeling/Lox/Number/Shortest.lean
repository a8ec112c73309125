import Lox.Number.Decimal
import Lox.Number.Binary64

/-!
# The shortest decimal that reads back

A floating-point number is written with as few digits as will read back to it, and of the decimals
with that few digits, with the nearest.

The reals that are read as `m · 2 ^ p` form an interval around it, from half-way to the neighbour
below to half-way to the neighbour above. A half-way point itself is read as the even one of the
two, so the ends belong to the interval exactly if `m` is even. The neighbour below is only half
as far away if `m` is the least significand of full precision, since below it the numbers lie
twice as dense.

The decimals with a given last place form a grid. If any point of a grid lies in the interval,
then so does one of the two grid points next to the number, so only those two are ever tested. The
search starts at the place of the number's first digit, moves on place by place, and takes the
first hit; seventeen places always suffice. Of two hits the nearer is taken, and of two equally
near ones the upper: `2 ^ (-25)` is `2.98023223876953125e-8` exactly, and is written
`2.9802322387695313e-8`.

All comparisons are between natural numbers: the ends of the interval are whole multiples of a
quarter of `2 ^ p`, and both sides are multiplied up to be whole.
-/

set_option autoImplicit false

namespace Lox

/-- The positive number `significand · 2 ^ power`, to be written in decimal. -/
structure Dyadic where
  significand : Nat
  power : Int
deriving DecidableEq, Repr

namespace Dyadic

/-- The number in quarters of `2 ^ power`, in which the ends of its interval are whole. -/
def quarters (x : Dyadic) : Nat := 4 * x.significand

/-- The lower end of the interval of reals that are read as `x`, in quarters. -/
def lowEnd (x : Dyadic) : Nat :=
  if x.significand = Binary64.fullSignificand ∧ Binary64.leastPower < x.power then
    x.quarters - 1
  else x.quarters - 2

/-- The upper end of the interval of reals that are read as `x`, in quarters. -/
def highEnd (x : Dyadic) : Nat := x.quarters + 2

/-- What a decimal with the exponent `e` is multiplied by when it is compared with quarters of `2
^ power`. -/
def decimalScale (x : Dyadic) (e : Int) : Nat :=
  Nat.pow 10 e.toNat * Nat.pow 2 (2 - x.power).toNat

/-- What a number of quarters is multiplied by when it is compared with a decimal with the
exponent `e`. -/
def quarterScale (x : Dyadic) (e : Int) : Nat :=
  Nat.pow 10 (-e).toNat * Nat.pow 2 (x.power - 2).toNat

/-- Whether `c · 10 ^ e` is read as `x`. -/
def readsBack (x : Dyadic) (e : Int) (c : Nat) : Bool :=
  let point := c * x.decimalScale e
  let low := x.lowEnd * x.quarterScale e
  let high := x.highEnd * x.quarterScale e
  if x.significand % 2 = 0 then low ≤ point ∧ point ≤ high else low < point ∧ point < high

/-- The grid point `c · 10 ^ e` at or below `x`: the other neighbour is the next. -/
def below (x : Dyadic) (e : Int) : Nat :=
  x.quarters * x.quarterScale e / x.decimalScale e

/-- Whether the neighbour above is at least as near to `x` as the one below. -/
def upperIsNearer (x : Dyadic) (e : Int) : Bool :=
  (2 * x.below e + 1) * x.decimalScale e ≤ 2 * (x.quarters * x.quarterScale e)

/-- The nearest grid point with the exponent `e` that is read as `x`. -/
def hit? (x : Dyadic) (e : Int) : Option Nat :=
  let c := x.below e
  match x.readsBack e c, x.readsBack e (c + 1) with
  | true, true => some (if x.upperIsNearer e then c + 1 else c)
  | true, false => some c
  | false, true => some (c + 1)
  | false, false => none

/-- The power of ten of the number's first digit. -/
def leadingExponent (x : Dyadic) : Int :=
  let num := x.significand * Nat.pow 2 x.power.toNat
  let den := Nat.pow 2 (-x.power).toNat
  if den ≤ num then decimalLength (num / den) - 1 else -(decimalLength ((den - 1) / num) : Int)

/-- The shortest decimal that is read as `x`, nearest to `x` among those. -/
def shortest (x : Dyadic) : Decimal :=
  let at? (places : Nat) : Option Decimal :=
    let e := x.leadingExponent - places
    (x.hit? e).map (⟨·, e⟩)
  let last := x.leadingExponent - 16
  (((List.range 17).findSome? at?).getD ⟨x.below last, last⟩).trim

end Dyadic

end Lox
