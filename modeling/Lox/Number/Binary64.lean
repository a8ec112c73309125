/-!
# What a floating-point number is

The 64 bits of a `Float` are a sign, eleven bits of exponent and fifty-two of fraction. `Binary64`
is what they stand for: not a number, an infinity, or `±significand · 2 ^ power` exactly.
Everything that is written about a number starts from this view, in plain arithmetic on natural
numbers.
-/

set_option autoImplicit false

namespace Lox

/-- The meaning of a 64-bit floating-point number. -/
inductive Binary64 where
  | nan
  | infinity (negative : Bool)
  /-- The number `± significand · 2 ^ power`; both zeros have the significand `0`. -/
  | finite (negative : Bool) (significand : Nat) (power : Int)
deriving DecidableEq, Repr

namespace Binary64

/-- The power of the smallest numbers, the gap between any two of which is `2 ^ leastPower`. -/
def leastPower : Int := -1074

/-- The least significand of full precision, which is `2 ^ 52`. Numbers with a smaller one have
lost precision to smallness. -/
def fullSignificand : Nat := 0x10000000000000

/-- How many exponents the bits can say, which is `2 ^ 11`. The last marks what is no number. -/
def exponentCount : Nat := 0x800

/-- Takes the 64 bits apart: the sign, the exponent, and the fraction, from the top. -/
def ofBits (bits : Nat) : Binary64 :=
  let negative := bits.testBit 63
  let exponent := bits / fullSignificand % exponentCount
  let fraction := bits % fullSignificand
  if exponent + 1 = exponentCount then
    if fraction = 0 then infinity negative else nan
  else if exponent = 0 then finite negative fraction leastPower
  else finite negative (fullSignificand + fraction) (leastPower + exponent - 1)

/-- What the floating-point number `x` stands for. -/
def ofFloat (x : Float) : Binary64 := ofBits x.toBits.toNat

end Binary64

end Lox
