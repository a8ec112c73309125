import Lox.Eval
import Lox.Raw.Scan

/-!
# Trees of tokens

A node of these trees keeps the token it was built from, whichever that is. So a tree can be
written whose operator is no operator at all, and computing it has no result: the evaluator knows
what to do for the kinds that it has been told about, and for no other.

A computation hands on its state when it fails, as in `Lox.Eval`.
-/

set_option autoImplicit false

namespace Lox.Raw

/-- The value of a literal token. -/
def Literal.value : Literal → Value
  | .number v => .number v
  | .string s => .string s

inductive Expr where
  | literal (value : Value)
  | grouping (inner : Expr)
  | name (token : Token)
  | assign (token : Token) (value : Expr)
  | unary (operator : Token) (operand : Expr)
  | binary (lhs : Expr) (operator : Token) (rhs : Expr)
  | ternary (condition : Expr) (question : Token) (success : Expr) (colon : Token)
      (failure : Expr)
deriving DecidableEq, Repr

inductive Stmt where
  | expression (e : Expr)
  | print (e : Expr)
  | var (token : Token) (initial : Option Expr)
  | block (body : List Stmt)
deriving Repr

/-- A computation that failed, and the token at which it did. -/
structure RuntimeError where
  fault : RuntimeFault
  token : Token
deriving DecidableEq, Repr

/-- Computations over a state that can fail or have no result. -/
abbrev EvalM (σ : Type) := ExceptT RuntimeError (StateT σ Option)

/-- What a branch computes that is not to be reached. -/
def unreachable {σ α : Type} : EvalM σ α := fun _ => none

/-- An operation's result, with a fault blamed on a token. -/
def blame {σ : Type} (token : Token) : Except RuntimeFault Value → EvalM σ Value
  | .ok v => return v
  | .error fault => throw ⟨fault, token⟩

def evalUnary {σ : Type} (operator : Token) (v : Value) : EvalM σ Value :=
  match operator.kind with
  | .symbol .bang => return v.not
  | .symbol .minus => blame operator v.negate
  | _ => unreachable

def evalBinary {σ : Type} (operator : Token) (a b : Value) : EvalM σ Value :=
  match operator.kind with
  | .symbol .comma => return b
  | .symbol .plus => blame operator (a.add b)
  | .symbol .minus => blame operator (a.subtract b)
  | .symbol .star => blame operator (a.multiply b)
  | .symbol .slash => blame operator (a.divide b)
  | .symbol .less => blame operator (a.less b)
  | .symbol .lessEqual => blame operator (a.lessEqual b)
  | .symbol .greater => blame operator (a.greater b)
  | .symbol .greaterEqual => blame operator (a.greaterEqual b)
  | .symbol .equalEqual => return .bool (a.equal b)
  | .symbol .bangEqual => return .bool !(a.equal b)
  | _ => unreachable

/-- What has been found for the variable that a token names. -/
def orUndefined {σ α : Type} (token : Token) : Option α → EvalM σ α
  | some a => return a
  | none => throw ⟨.undefinedVariable token.text, token⟩

/-- The value of an expression. -/
def Expr.eval : Expr → EvalM Bindings Value
  | .literal v => return v
  | .grouping e => e.eval
  | .name token => do orUndefined token ((← get).get? token.text)
  | .assign token e => do
    let v ← e.eval
    set (← orUndefined token ((← get).assign? token.text v))
    return v
  | .unary operator e => do evalUnary operator (← e.eval)
  | .binary l operator r => do
    let a ← l.eval
    let b ← r.eval
    evalBinary operator a b
  | .ternary c _ s _ f => do if (← c.eval).isTruthy then s.eval else f.eval

/-- Computes an expression in the bindings of a world. -/
def Expr.evalIn (e : Expr) : EvalM World Value := fun w =>
  (e.eval w.bindings).map fun x => (x.1, { w with bindings := x.2 })

mutual

/-- Executes a statement. -/
def Stmt.exec : Stmt → EvalM World Unit
  | .expression e => do let _ ← e.evalIn
  | .print e => do
    let v ← e.evalIn
    modify fun w => { w with lines := w.lines.push v.text }
  | .var token initial => do
    let v ← match initial with
      | some e => e.evalIn
      | none => pure .nil
    modify fun w => { w with bindings := w.bindings.define token.text v }
  | .block body => execAll body

/-- Executes statements one after the other, up to the first that fails. -/
def execAll : List Stmt → EvalM World Unit
  | [] => return ()
  | s :: rest => do
    s.exec
    execAll rest

end

end Lox.Raw
