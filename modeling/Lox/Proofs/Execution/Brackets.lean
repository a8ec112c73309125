import Lox.Proofs.Execution.Steps
import Lox.Proofs.Grammar.Tree

/-!
# Braces and parentheses

Braces and parentheses say how a program is to be read. Once it has been read they have done their
work: a block opens no scope, and what is in parentheses has the value that it has without them. So
a program can be executed just as well when all of them have been taken away from its tree, with
everything between them left where it is (`Program.exec_flat`).

That nothing else is taken away, and nothing moved, can be seen from the yield: it loses the
brackets, and the other tokens stay in their order (`stmtsYield_flat`).
-/

set_option autoImplicit false

namespace Lox

/-! ## Trees without brackets -/

/-- The expression without parentheses. -/
def Expr.bare : Expr → Expr
  | .literal v => .literal v
  | .grouping e => e.bare
  | .name site => .name site
  | .assign site e => .assign site e.bare
  | .unary op site e => .unary op site e.bare
  | .binary op site l r => .binary op site l.bare r.bare
  | .ternary c question s colon f => .ternary c.bare question s.bare colon f.bare

mutual

/-- The statements that are left of a statement without braces and parentheses. -/
def Stmt.flat : Stmt → List Stmt
  | .expression e => [.expression e.bare]
  | .print e => [.print e.bare]
  | .var site none => [.var site none]
  | .var site (some e) => [.var site (some e.bare)]
  | .block body => stmtsFlat body

def stmtsFlat : List Stmt → List Stmt
  | [] => []
  | s :: rest => s.flat ++ stmtsFlat rest

end

/-- The program without braces and parentheses. -/
def Program.flat (p : Program) : Program := stmtsFlat p

/-- Whether the leaf is a brace or a parenthesis. -/
def Leaf.isBracket : Leaf → Bool
  | .bare (.symbol .leftParen) | .bare (.symbol .rightParen)
  | .bare (.symbol .leftBrace) | .bare (.symbol .rightBrace) => true
  | _ => false

/-- The leaves that are no brackets. -/
def withoutBrackets (leaves : List Leaf) : List Leaf := leaves.filter fun leaf => !leaf.isBracket

/-! ## What is taken away -/

@[simp] theorem withoutBrackets_nil : withoutBrackets [] = [] := rfl

@[simp] theorem withoutBrackets_append (xs ys : List Leaf) :
    withoutBrackets (xs ++ ys) = withoutBrackets xs ++ withoutBrackets ys := List.filter_append ..

theorem withoutBrackets_cons (leaf : Leaf) (rest : List Leaf) :
    withoutBrackets (leaf :: rest) =
      if leaf.isBracket then withoutBrackets rest else leaf :: withoutBrackets rest := by
  cases h : leaf.isBracket <;> simp [withoutBrackets, h]

@[simp] theorem Leaf.isBracket_sited (kind : TokenKind) (site : Lexeme) :
    (sited kind site).isBracket = false := rfl

@[simp] theorem Value.isBracket_literalKind (v : Value) :
    (Leaf.bare v.literalKind).isBracket = false := by
  cases v with
  | bool b => cases b <;> rfl
  | number _ | string _ | nil => rfl

theorem Expr.yield_bare (e : Expr) : e.bare.yield = withoutBrackets e.yield := by
  induction e with
  | literal v => simp [bare, yield, withoutBrackets_cons]
  | grouping e ih => simp [bare, yield, withoutBrackets_cons, Leaf.isBracket, ih]
  | name site => rfl
  | assign site e ih => simp [bare, yield, withoutBrackets_cons, Leaf.isBracket, ih]
  | unary op site e ih => simp [bare, yield, withoutBrackets_cons, ih]
  | binary op site l r ihl ihr => simp [bare, yield, withoutBrackets_cons, ihl, ihr]
  | ternary c question s colon f ihc ihs ihf =>
    simp [bare, yield, withoutBrackets_cons, ihc, ihs, ihf]

theorem stmtsYield_append (xs ys : List Stmt) :
    stmtsYield (xs ++ ys) = stmtsYield xs ++ stmtsYield ys := by
  induction xs with
  | nil => rfl
  | cons s xs ih => rw [List.cons_append, stmtsYield, stmtsYield, ih, List.append_assoc]

mutual

theorem Stmt.yield_flat : (s : Stmt) → stmtsYield s.flat = withoutBrackets s.yield
  | .expression e | .print e => by
    simp [Stmt.flat, stmtsYield, Stmt.yield, withoutBrackets_cons, Leaf.isBracket, e.yield_bare]
  | .var site none => rfl
  | .var site (some e) => by
    simp [Stmt.flat, stmtsYield, Stmt.yield, withoutBrackets_cons, Leaf.isBracket, e.yield_bare]
  | .block body => by
    simp [Stmt.flat, Stmt.yield, withoutBrackets_cons, Leaf.isBracket, stmtsYield_flat body]

theorem stmtsYield_flat :
    (body : List Stmt) → stmtsYield (stmtsFlat body) = withoutBrackets (stmtsYield body)
  | [] => by simp [stmtsFlat, stmtsYield]
  | s :: rest => by
    rw [stmtsFlat, stmtsYield_append, stmtsYield, withoutBrackets_append, s.yield_flat,
      stmtsYield_flat rest]

end

/-! ## What is executed -/

theorem Expr.eval_bare (e : Expr) : e.bare.eval = e.eval := by
  induction e with
  | literal v => rfl
  | grouping e ih => exact ih
  | name site => rfl
  | assign site e ih | unary op site e ih => rw [bare, eval, eval, ih]
  | binary op site l r ihl ihr => rw [bare, eval, eval, ihl, ihr]
  | ternary c question s colon f ihc ihs ihf => rw [bare, eval, eval, ihc, ihs, ihf]

theorem Expr.evalIn_bare (e : Expr) : e.bare.evalIn = e.evalIn := by
  unfold evalIn
  rw [e.eval_bare]

mutual

theorem Stmt.execAll_flat : (s : Stmt) → execAll s.flat = s.exec
  | .expression e | .print e => by
    rw [Stmt.flat, execAll_singleton, Stmt.exec, Stmt.exec, e.evalIn_bare]
  | .var site none => by rw [Stmt.flat, execAll_singleton]
  | .var site (some e) => by
    rw [Stmt.flat, execAll_singleton, Stmt.exec, Stmt.exec, e.evalIn_bare]
  | .block body => by
    rw [Stmt.flat, Stmt.exec, execAll_stmtsFlat body]

/-- A failure is the same, too, and so the statements behind it are not executed in either case. -/
theorem execAll_stmtsFlat : (body : List Stmt) → execAll (stmtsFlat body) = execAll body
  | [] => by rw [stmtsFlat]
  | s :: rest => by
    rw [stmtsFlat, execAll_append, s.execAll_flat, execAll_stmtsFlat rest]
    rfl

end

/-- **Braces and parentheses mean nothing to an execution.** A program does the same without them in
every world: it ends in the same way, with the same error at the same lexeme if it fails, leaves the
same bindings and has printed the same. And all that it has lost of its tokens are the brackets. -/
theorem Program.exec_flat (p : Program) :
    (∀ w : World, p.flat.exec w = p.exec w) ∧ p.flat.yield = withoutBrackets p.yield :=
  ⟨fun w => congrFun (execAll_stmtsFlat p) w, stmtsYield_flat p⟩

end Lox
