import Lox.Operator

/-!
# Expressions

The tree of an expression. Besides its meaning a node keeps the lexeme of the operator or the name
that it was built from, because a failure is reported there; nothing that is computed depends on
it.

Parentheses have a node of their own. They change no value, but a tree that forgot them could not
be shown as it was written.
-/

set_option autoImplicit false

namespace Lox

/-- An expression. -/
inductive Expr where
  | literal (value : Value)
  | grouping (inner : Expr)
  /-- A use of the variable that the lexeme names. -/
  | name (site : Lexeme)
  /-- An assignment to the variable that the lexeme names. -/
  | assign (site : Lexeme) (value : Expr)
  | unary (op : UnaryOp) (site : Lexeme) (operand : Expr)
  | binary (op : BinaryOp) (site : Lexeme) (lhs rhs : Expr)
  /-- The choice `condition ? success : failure`. -/
  | ternary (condition : Expr) (question : Lexeme) (success : Expr) (colon : Lexeme)
      (failure : Expr)
deriving DecidableEq, Repr

end Lox
