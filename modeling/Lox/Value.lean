import Lox.Number.Format

/-!
# Values and what can be done with them

The language has four kinds of value and no conversions between them: an operation that does not
know its operands' kinds fails, and says what it was given. Literals denote values, so one type
serves for both what is written and what is computed.

Numbers behave as IEEE 754 says, with one exception: division by zero of either sign is an error,
not an infinity. Infinities and not-a-number still arise by overflow, and then compare as IEEE
says; in particular not-a-number is unequal to itself.

Strings are compared character by character, by code point.
-/

set_option autoImplicit false

namespace Lox

/-- A value of the language. -/
inductive Value where
  | number (n : Float)
  | string (s : String)
  | bool (b : Bool)
  | nil
deriving DecidableEq, Repr

/-- Why a computation has no value. -/
inductive RuntimeFault where
  | nonNumeric (operand : Value)
  | nonNumerics (lhs rhs : Value)
  | nonAddable (lhs rhs : Value)
  | nonComparable (lhs rhs : Value)
  | divisionByZero
  | undefinedVariable (name : String)
deriving DecidableEq, Repr

/-- What is said about a failed computation. The operands are not shown. -/
def RuntimeFault.message : RuntimeFault → String
  | nonNumeric _ => "Operand must be a number."
  | nonNumerics _ _ => "Operands must be numbers."
  | nonAddable _ _ | nonComparable _ _ => "Operands must be two numbers or two strings."
  | divisionByZero => "Division by zero."
  | undefinedVariable name => s!"Undefined variable '{name}'."

namespace Value

/-- What `print` writes for a value. -/
def text : Value → String
  | number n => NumberFormat.printed.text n
  | string s => s
  | bool b => if b then "true" else "false"
  | nil => "nil"

/-! ## Truth -/

/-- Only `nil` and `false` count as false. Zero and the empty string count as true. -/
def isTruthy : Value → Bool
  | bool b => b
  | nil => false
  | _ => true

/-- The opposite truth value. -/
def not (v : Value) : Value := bool !v.isTruthy

/-! ## Arithmetic -/

/-- The number with the opposite sign. -/
def negate : Value → Except RuntimeFault Value
  | number n => .ok (number (-n))
  | v => .error (.nonNumeric v)

/-- The sum of two numbers or the first of two strings followed by the second. -/
def add : Value → Value → Except RuntimeFault Value
  | number a, number b => .ok (number (a + b))
  | string a, string b => .ok (string (a ++ b))
  | a, b => .error (.nonAddable a b)

/-- An operation that is for two numbers only. -/
def arithmetic (f : Float → Float → Except RuntimeFault Float) :
    Value → Value → Except RuntimeFault Value
  | number a, number b => (f a b).map number
  | a, b => .error (.nonNumerics a b)

/-- The difference of two numbers. -/
def subtract : Value → Value → Except RuntimeFault Value := arithmetic fun a b => .ok (a - b)

/-- The product of two numbers. -/
def multiply : Value → Value → Except RuntimeFault Value := arithmetic fun a b => .ok (a * b)

/-- The quotient of two numbers. Either zero is refused as a divisor. -/
def divide : Value → Value → Except RuntimeFault Value :=
  arithmetic fun a b => if b == 0 then .error .divisionByZero else .ok (a / b)

/-! ## Comparison -/

/-- A comparison of two numbers or of two strings. -/
def comparison (numbers : Float → Float → Bool) (strings : String → String → Bool) :
    Value → Value → Except RuntimeFault Value
  | number a, number b => .ok (bool (numbers a b))
  | string a, string b => .ok (bool (strings a b))
  | a, b => .error (.nonComparable a b)

/-- Whether the first value comes before the second. -/
def less : Value → Value → Except RuntimeFault Value :=
  comparison (fun a b => a < b) (fun a b => a < b)

/-- Whether the first value comes before the second or is equal to it. -/
def lessEqual : Value → Value → Except RuntimeFault Value :=
  comparison (fun a b => a ≤ b) (fun a b => a ≤ b)

/-- Whether the first value comes after the second. -/
def greater : Value → Value → Except RuntimeFault Value :=
  comparison (fun a b => a > b) (fun a b => a > b)

/-- Whether the first value comes after the second or is equal to it. -/
def greaterEqual : Value → Value → Except RuntimeFault Value :=
  comparison (fun a b => a ≥ b) (fun a b => a ≥ b)

/-- Whether two values are equal. Values of different kinds never are. -/
def equal : Value → Value → Bool
  | number a, number b => a == b
  | string a, string b => a == b
  | bool a, bool b => a == b
  | nil, nil => true
  | _, _ => false

end Value

end Lox
