import Lox.Expr

/-!
# Statements and programs
-/

set_option autoImplicit false

namespace Lox

/-- A statement. -/
inductive Stmt where
  /-- An expression, computed for its effects. -/
  | expression (e : Expr)
  | print (e : Expr)
  /-- The declaration of the variable that the lexeme names. -/
  | var (site : Lexeme) (initial : Option Expr)
  | block (body : List Stmt)
deriving Repr

/-- A program is what stands in a source file: statements, one after the other. -/
abbrev Program := List Stmt

end Lox
