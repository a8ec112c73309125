import Lox.Token
import Lox.Value

/-!
# Operators

The operators of the language: which symbol writes each of them, and what each computes. A tree
holds an operator and not a symbol, so a tree with an operator that cannot be computed does not
exist. Trees that hold the tokens themselves are those of `Lox.Raw`, and there it takes a proof that
the parser builds none that cannot be computed.

Two symbols look the same in two places. The minus sign is both a negation and a difference, and
which one it is depends on where it stands; here they are two operators of two types.
-/

set_option autoImplicit false

namespace Lox

/-- The operators written before their operand. -/
inductive UnaryOp where
  | not
  | negate
deriving DecidableEq, Repr

/-- The operators written between their operands. -/
inductive BinaryOp where
  | comma
  | add | subtract | multiply | divide
  | less | lessEqual | greater | greaterEqual
  | equal | notEqual
deriving DecidableEq, Repr

/-- The symbol that writes a unary operator. -/
def UnaryOp.symbol : UnaryOp → Symbol
  | not => .bang
  | negate => .minus

/-- The value of a unary operator's application. -/
def UnaryOp.apply : UnaryOp → Value → Except RuntimeFault Value
  | not, v => .ok v.not
  | negate, v => v.negate

/-- The symbol that writes a binary operator. -/
def BinaryOp.symbol : BinaryOp → Symbol
  | comma => .comma
  | add => .plus
  | subtract => .minus
  | multiply => .star
  | divide => .slash
  | less => .less
  | lessEqual => .lessEqual
  | greater => .greater
  | greaterEqual => .greaterEqual
  | equal => .equalEqual
  | notEqual => .bangEqual

/-- The value of a binary operator's application. By then both operands have been computed, the
left one first; the comma keeps the right one. -/
def BinaryOp.apply : BinaryOp → Value → Value → Except RuntimeFault Value
  | comma, _, b => .ok b
  | add, a, b => a.add b
  | subtract, a, b => a.subtract b
  | multiply, a, b => a.multiply b
  | divide, a, b => a.divide b
  | less, a, b => a.less b
  | lessEqual, a, b => a.lessEqual b
  | greater, a, b => a.greater b
  | greaterEqual, a, b => a.greaterEqual b
  | equal, a, b => .ok (.bool (a.equal b))
  | notEqual, a, b => .ok (.bool !(a.equal b))

/-- The unary operator among `ops` that the symbol `s` writes. -/
def UnaryOp.among (ops : List UnaryOp) (s : Symbol) : Option UnaryOp := ops.find? (·.symbol == s)

/-- The binary operator among `ops` that the symbol `s` writes. -/
def BinaryOp.among (ops : List BinaryOp) (s : Symbol) : Option BinaryOp :=
  ops.find? (·.symbol == s)

end Lox
