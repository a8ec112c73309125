import Lox.Expr

/-!
# Expressions in prefix notation

The one-line form in which a tree is shown: every node that is not a leaf in parentheses, its
operator first. `(1 + 2) * -x` is `(* (group (+ 1.0 2.0)) (- x))`.
-/

set_option autoImplicit false

namespace Lox

/-- How a literal is shown in a tree: a number with its fraction, a string without its quotes. -/
def Value.literalText : Value → String
  | .number n => NumberFormat.literal.text n
  | v => v.text

/-- The operator at the head of a ternary. -/
def ternaryHead : String := "?:"

/-- The head of parentheses that were in the source. -/
def groupHead : String := "group"

/-- The parenthesised form with the given head and parts. -/
def parenthesized (head : String) (parts : List String) : String :=
  "(" ++ head ++ parts.foldr (fun part rest => " " ++ part ++ rest) ")"

/-- An expression in prefix notation. -/
def Expr.sexpr : Expr → String
  | .literal v => v.literalText
  | .grouping e => parenthesized groupHead [e.sexpr]
  | .name site => site.text
  | .assign site e => parenthesized "=" [site.text, e.sexpr]
  | .unary op _ e => parenthesized op.symbol.text [e.sexpr]
  | .binary op _ l r => parenthesized op.symbol.text [l.sexpr, r.sexpr]
  | .ternary c _ s _ f => parenthesized ternaryHead [c.sexpr, s.sexpr, f.sexpr]

end Lox
