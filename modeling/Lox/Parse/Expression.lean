import Lox.Parse.Rule
import Lox.Expr

/-!
# The grammar of expressions

From the loosest to the tightest binding:

    expression  := assignment ("," assignment)*
    assignment  := name "=" assignment | ternary
    ternary     := equality ("?" expression ":" equality)?
    equality    := comparison (("==" | "!=") comparison)*
    comparison  := term (("<" | "<=" | ">" | ">=") term)*
    term        := factor (("+" | "-") factor)*
    factor      := unary (("*" | "/") unary)*
    unary       := ("!" | "-") unary | primary
    primary     := literal | name | "(" expression ")"

**Nesting is limited,** and the limit is what makes the grammar total. A whole expression, the
operand of a unary operator, the value of an assignment, the middle of a ternary and the inside of
parentheses each are one level further in than what they stand in. The rules of one level are
written over the rules of the next, `Inner`; `inner room` has `room` levels to go, and with no
room left every rule fails. Along one level nothing recurs: the loops of the left-associative
rules read at least an operator each time round.

**A missing left operand has its own message.** Where an operand should begin, an operator of the
same level cannot stand. The rule then reads the operand behind it, so that a mistake inside that
is found first, and only then complains about the operator. A leading minus is not such an
operator, since it negates.
-/

set_option autoImplicit false

namespace Lox

/-- The symbol, if the kind is one. -/
def TokenKind.symbol? : TokenKind → Option Symbol
  | symbol s => some s
  | _ => none

/-- The rules that begin a new level of nesting, for use by the level around it. -/
structure Inner where
  expression : Rule Expr
  assignment : Rule Expr
  unary : Rule Expr

namespace Grammar

open Rule

/-! ## Left-associative chains -/

/-- The run of `chain`. -/
def chainRun (ops : List BinaryOp) (operand : Rule Expr) (finish : Lexeme) (lhs : Expr)
    (ts : List Token) : Reply Expr :=
  match ts with
  | [] => .ok lhs []
  | t :: rest =>
    match t.kind.symbol?.bind (BinaryOp.among ops) with
    | none => .ok lhs (t :: rest)
    | some op =>
      match h : operand.run finish rest with
      | .error e rest' => .error e rest'
      | .ok rhs rest' =>
        have : rest'.length < (t :: rest).length := by
          have := operand.length_le finish rest
          rw [h] at this
          exact Nat.lt_succ_of_le this
        chainRun ops operand finish (.binary op t.lexeme lhs rhs) rest'
termination_by ts.length
decreasing_by exact this

theorem chainRun_suffix (ops : List BinaryOp) (operand : Rule Expr) (finish : Lexeme) (lhs : Expr)
    (ts : List Token) : (chainRun ops operand finish lhs ts).rest <:+ ts := by
  fun_induction chainRun ops operand finish lhs ts with
  | case1 => exact List.suffix_refl _
  | case2 => exact List.suffix_refl _
  | case3 lhs t rest op _ e rest' h =>
    have := operand.suffix finish rest
    rw [h] at this
    exact this.trans (List.suffix_cons t rest)
  | case4 lhs t rest op _ rhs rest' h _ ih =>
    have := operand.suffix finish rest
    rw [h] at this
    exact (ih.trans this).trans (List.suffix_cons t rest)

/-- Goes on with the chain of which `lhs` has been read: as long as an operator out of `ops` comes
next, reads it and an operand, and makes both and what has been read before into one tree. -/
def chain (ops : List BinaryOp) (operand : Rule Expr) (lhs : Expr) : Rule Expr where
  run finish ts := chainRun ops operand finish lhs ts
  suffix finish ts := chainRun_suffix ops operand finish lhs ts

/-- The levels of left-associative operators between the ternary and the unary ones. -/
inductive Level where
  | equality
  | comparison
  | term
  | factor

/-- The operators of a level. -/
def Level.operators : Level → List BinaryOp
  | equality => [.notEqual, .equal]
  | comparison => [.greater, .greaterEqual, .less, .lessEqual]
  | term => [.add, .subtract]
  | factor => [.divide, .multiply]

/-- The operators of a level that no operand can begin with. -/
def Level.nonLeading : Level → List BinaryOp
  | term => [.add]
  | level => level.operators

/-- Operands and operators of one level. -/
def leftAssociative (level : Level) (operand : Rule Expr) : Rule Expr := do
  match ← take? fun k => k.symbol?.bind (BinaryOp.among level.nonLeading) with
  | some (_, t) =>
    let _ ← operand
    failAt t .missingLeftOperand
  | none => chain level.operators operand (← operand)

/-! ## The rules of one level of nesting -/

/-- Whether a token is a whole primary expression, and which. -/
def atom? (t : Token) : Option Expr :=
  match t.kind with
  | .keyword .falseWord => some (.literal (.bool false))
  | .keyword .trueWord => some (.literal (.bool true))
  | .keyword .nilWord => some (.literal .nil)
  | .number v => some (.literal (.number v))
  | .string s => some (.literal (.string s))
  | .ident => some (.name t.lexeme)
  | _ => none

/-- A literal, a name, or an expression in parentheses. -/
def primary (inner : Inner) : Rule Expr := do
  match ← peek with
  | none => fail .nonExpression
  | some t =>
    match atom? t with
    | some e =>
      skip
      return e
    | none =>
      match ← takeKind? (.symbol .leftParen) with
      | none => fail .nonExpression
      | some _ =>
        let e ← inner.expression
        let _ ← expect (.symbol .rightParen) .unclosedGroup
        return .grouping e

/-- Unary operators before a primary expression. -/
def unary (inner : Inner) : Rule Expr := do
  match ← take? fun k => k.symbol?.bind (UnaryOp.among [.not, .negate]) with
  | some (op, t) => return .unary op t.lexeme (← inner.unary)
  | none => primary inner

/-- An expression of equalities, comparisons, sums and products. -/
def equality (inner : Inner) : Rule Expr :=
  leftAssociative .equality <| leftAssociative .comparison <| leftAssociative .term <|
    leftAssociative .factor <| unary inner

/-- A choice between two expressions, or just an expression. -/
def ternary (inner : Inner) : Rule Expr := do
  let condition ← equality inner
  match ← takeKind? (.symbol .question) with
  | none => return condition
  | some question =>
    let success ← inner.expression
    let colon ← expect (.symbol .colon) .missingColon
    return .ternary condition question.lexeme success colon (← equality inner)

/-- An assignment, or just an expression. What stands before the equals sign is read as an
expression and is only then found to be a name or not. -/
def assignment (inner : Inner) : Rule Expr := do
  let target ← ternary inner
  match ← takeKind? (.symbol .equal) with
  | none => return target
  | some equals =>
    let value ← inner.assignment
    match target with
    | .name site => return .assign site value
    | _ => failAt equals .invalidTarget

/-- Expressions with commas between them. -/
def comma (inner : Inner) : Rule Expr := do
  chain [.comma] (assignment inner) (← assignment inner)

/-! ## All levels -/

/-- The rules for the inside of something, when `room` levels of nesting are still allowed. -/
def inner : (room : Nat) → Inner
  | 0 =>
    { expression := fail .excessiveNesting
      assignment := fail .excessiveNesting
      unary := fail .excessiveNesting }
  | room + 1 =>
    let next := inner room
    { expression := comma next
      assignment := assignment next
      unary := unary next }

/-- How many levels of nesting are allowed. -/
def nestingLimit : Nat := 128

/-- A whole expression. -/
def expression : Rule Expr := (inner nestingLimit).expression

end Grammar

end Lox
