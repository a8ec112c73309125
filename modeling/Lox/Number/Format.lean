import Lox.Number.Shortest

/-!
# How numbers are written

The digits of a number are the shortest that read back (`Dyadic.shortest`). What remains is a
matter of taste, and the language has two tastes: what a program prints, and how a number literal
is shown in a token or a tree. A `NumberFormat` is one such taste.

The two differ in one thing that matters to a reader: a printed whole number has no fraction, a
literal always has one or an exponent, so that `1` is printed `1` and shown `1.0`.
-/

set_option autoImplicit false

namespace Lox

/-- The decisions that turn digits into text. -/
structure NumberFormat where
  /-- The text of infinity; a minus sign goes before it. -/
  infinity : String
  /-- Whether a number with this power of ten at its first digit is written without an exponent.
  -/
  isPositional : Int → Bool
  /-- What follows the digits of a whole number written without an exponent. -/
  wholeMark : String

namespace NumberFormat

/-- What a program prints: never an exponent, and no fraction on a whole number. -/
def printed : NumberFormat where
  infinity := "Infinity"
  isPositional _ := true
  wholeMark := ""

/-- How a literal is shown: with an exponent from `1e16` on and below `1e-4`, and else with at
least one digit behind the point. -/
def literal : NumberFormat where
  infinity := "inf"
  isPositional e := -4 ≤ e && e < 16
  wholeMark := ".0"

/-- The text of a decimal. -/
def decimalText (f : NumberFormat) (d : Decimal) : String :=
  if f.isPositional d.leadingExponent then
    if 0 ≤ d.exponent then d.positional ++ f.wholeMark else d.positional
  else d.scientific

/-- The text of a number's magnitude. -/
def magnitudeText (f : NumberFormat) (significand : Nat) (power : Int) : String :=
  f.decimalText (if significand = 0 then ⟨0, 0⟩ else (Dyadic.mk significand power).shortest)

/-- The text of a number. A number that is not one has no sign; every other shows its own, zero
included. -/
def text (f : NumberFormat) (x : Float) : String :=
  let signed (negative : Bool) (s : String) := if negative then "-" ++ s else s
  match Binary64.ofFloat x with
  | .nan => "NaN"
  | .infinity negative => signed negative f.infinity
  | .finite negative significand power => signed negative (f.magnitudeText significand power)

end NumberFormat

end Lox
