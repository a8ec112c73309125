import Lox.Parse.Program
import Lox.Token.Scan

/-!
# Parsing step by step

A token sequence can be read in steps instead of all at once: an expression here, the rest as a
program there, or nothing but a recovery. A step begins where the one before it has stopped,
whether that one succeeded or failed, and this is the only thing that one step leaves to the next.

A token sequence can also be cut short before it is read. It then ends where its last remaining
token does.
-/

set_option autoImplicit false

namespace Lox

/-- What a step tries to read. -/
inductive ParseStep where
  | expression
  | program
  | synchronize
deriving DecidableEq, Repr

/-- What has come of a step. -/
inductive ParseAnswer where
  | expression (result : Except ParseError Expr)
  | program (result : Except (List ParseError) Program)
  | synchronized

namespace ParseStep

/-- Takes one step: what has come of it, and the tokens that are left. -/
def run (finish : Lexeme) (ts : List Token) : ParseStep → ParseAnswer × List Token
  | expression =>
    let reply := Grammar.expression.run finish ts
    (.expression reply.result, reply.rest)
  | program => (.program (Program.parse finish ts), Grammar.leftover finish ts)
  | synchronize => (.synchronized, Grammar.synchronize ts)

/-- Takes steps one after the other. -/
def runAll (finish : Lexeme) : List Token → List ParseStep → List ParseAnswer
  | _, [] => []
  | ts, step :: steps =>
    let (answer, rest) := step.run finish ts
    answer :: runAll finish rest steps

end ParseStep

/-- The end of an input that consists of the tokens `ts` and nothing else. -/
def endOf (ts : List Token) : Lexeme :=
  match ts.getLast? with
  | some t => ⟨"", t.lexeme.span.stop, t.lexeme.line⟩
  | none => .endingAt .origin

/-- The first `n` tokens of a scan, and the end of the input behind them. The end of the source
counts as the last token: if that is among them, nothing is cut. -/
def Scan.take (s : Scan) (n : Nat) : List Token × Lexeme :=
  if s.tokens.length < n then (s.tokens, s.finish)
  else (s.tokens.take n, endOf (s.tokens.take n))

end Lox
