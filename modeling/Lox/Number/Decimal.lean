/-!
# Decimal numbers

How a number is written: some digits, and where the point goes. A decimal is exact; it becomes a
floating-point number only when it is read, and then the nearest one.
-/

set_option autoImplicit false

namespace Lox

/-- The number `digits · 10 ^ exponent`. -/
structure Decimal where
  digits : Nat
  exponent : Int
deriving DecidableEq, Repr

/-- The number that a row of decimal digits denotes; the empty row denotes zero. -/
def digitsValue (cs : List Char) : Nat :=
  cs.foldl (fun n c => 10 * n + (c.toNat - '0'.toNat)) 0

/-- How many decimal digits it takes to write `n`; one for zero. -/
def decimalLength (n : Nat) : Nat :=
  if n < 10 then 1 else decimalLength (n / 10) + 1

namespace Decimal

/-- The decimal with the digits `whole` before the point and `fraction` behind it. -/
def ofDigits (whole fraction : List Char) : Decimal :=
  ⟨digitsValue (whole ++ fraction), -(fraction.length : Int)⟩

/-- The same number without zeros at the end of its digits. -/
def trim (d : Decimal) : Decimal :=
  if 0 < d.digits ∧ d.digits % 10 = 0 then trim ⟨d.digits / 10, d.exponent + 1⟩ else d
termination_by d.digits
decreasing_by omega

/-- The power of ten of the first digit: `6` for `1234567`, `-2` for `0.012`. -/
def leadingExponent (d : Decimal) : Int :=
  d.exponent + decimalLength d.digits - 1

/-- The digits with the point at its place, zeros up to it, and no fraction if it is whole. -/
def positional (d : Decimal) : String :=
  let ds := (Nat.repr d.digits).toList
  match d.exponent with
  | .ofNat n => String.ofList (ds ++ List.replicate n '0')
  | .negSucc n =>
    let places := n + 1
    let padded := List.replicate (places + 1 - ds.length) '0' ++ ds
    String.ofList (padded.take (padded.length - places) ++ '.' ::
      padded.drop (padded.length - places))

/-- One digit, then a point and the other digits if there are any, then the power of ten. -/
def scientific (d : Decimal) : String :=
  let tail := s!"e{d.leadingExponent}"
  match (Nat.repr d.digits).toList with
  | [] => tail
  | [c] => c.toString ++ tail
  | c :: cs => c.toString ++ "." ++ String.ofList cs ++ tail

end Decimal

end Lox
