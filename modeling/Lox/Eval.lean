import Lox.Bindings
import Lox.Stmt
import Lox.Text.Lines

/-!
# What programs do

A program computes by changing what variables are bound to and by printing lines. Nothing repeats
and nothing is called, so the meaning of an expression and of a statement follows their tree, and
every program comes to an end.

**A failure keeps what was done before it.** An expression may assign a variable and then fail,
and the assignment stays. That is why failing is an outcome beside the state and not instead of
it: `EStateM` hands on the state in both cases. Of a block that fails, everything up to the
failing statement has happened.

The order is fixed and visible: left operand before right, operands before the operation, and of a
choice only the branch that was chosen.
-/

set_option autoImplicit false

namespace Lox

/-- A computation that failed, and the lexeme of the operator or variable at which it did. -/
structure RuntimeError where
  fault : RuntimeFault
  site : Lexeme
deriving DecidableEq, Repr

namespace Bindings

/-- The value of the variable that a lexeme names. -/
def read (b : Bindings) (site : Lexeme) : Except RuntimeError Value :=
  match b.get? site.text with
  | some v => .ok v
  | none => .error ⟨.undefinedVariable site.text, site⟩

/-- Rebinds the variable that a lexeme names. -/
def write (b : Bindings) (site : Lexeme) (v : Value) : Except RuntimeError Bindings :=
  match b.assign? site.text v with
  | some b' => .ok b'
  | none => .error ⟨.undefinedVariable site.text, site⟩

end Bindings

/-- An operation's result, with a fault blamed on the lexeme `site`. -/
def blame (site : Lexeme) : Except RuntimeFault Value → Except RuntimeError Value
  | .ok v => .ok v
  | .error fault => .error ⟨fault, site⟩

/-- The value of an expression. Computing it may rebind variables. -/
def Expr.eval : Expr → EStateM RuntimeError Bindings Value
  | .literal v => return v
  | .grouping e => e.eval
  | .name site => do ofExcept ((← get).read site)
  | .assign site e => do
    let v ← e.eval
    set (← ofExcept ((← get).write site v))
    return v
  | .unary op site e => do
    let v ← e.eval
    ofExcept (blame site (op.apply v))
  | .binary op site l r => do
    let a ← l.eval
    let b ← r.eval
    ofExcept (blame site (op.apply a b))
  | .ternary c _ s _ f => do
    if (← c.eval).isTruthy then s.eval else f.eval

/-- What a run has done so far: the bindings it has arrived at, and the lines it has printed. -/
structure World where
  bindings : Bindings
  lines : Array String

namespace World

/-- Nothing bound, nothing printed. -/
def initial : World := ⟨∅, #[]⟩

/-- Everything printed, each line with its end. -/
def output (w : World) : String := unlines w.lines.toList

end World

/-- Computes an expression in the bindings of a world. -/
def Expr.evalIn (e : Expr) : EStateM RuntimeError World Value := fun w =>
  match e.eval w.bindings with
  | .ok v b => .ok v { w with bindings := b }
  | .error err b => .error err { w with bindings := b }

mutual

/-- Executes a statement. -/
def Stmt.exec : Stmt → EStateM RuntimeError World Unit
  | .expression e => do let _ ← e.evalIn
  | .print e => do
    let v ← e.evalIn
    modify fun w => { w with lines := w.lines.push v.text }
  | .var site initial => do
    let v ← match initial with
      | some e => e.evalIn
      | none => pure .nil
    modify fun w => { w with bindings := w.bindings.define site.text v }
  | .block body => execAll body

/-- Executes statements one after the other, up to the first that fails. -/
def execAll : List Stmt → EStateM RuntimeError World Unit
  | [] => return ()
  | s :: rest => do
    s.exec
    execAll rest

end

/-- Executes a program. -/
def Program.exec (p : Program) : EStateM RuntimeError World Unit := execAll p

end Lox
