import Lox.Parse.Error
import Lox.Token.Listing
import Lox.Eval

/-!
# Diagnostics

Whatever goes wrong with a program, in whichever stage, is told to its author in the same way: a
code, a message, and the place in the source that it is about. The first two stages find *static*
errors, before anything is executed; the third fails while it executes.

The plain form of a diagnostic is one line, or two for a failed execution. `Lox.Report` has the
form that shows the source.
-/

set_option autoImplicit false

namespace Lox

/-- The code of a lexical fault. -/
def LexicalFault.code : LexicalFault → String
  | unrecognized _ => "LX001"
  | unclosedString => "LX002"
  | unclosedComment => "LX003"

/-- The code of a parse fault. -/
def ParseFault.code : ParseFault → String
  | nonExpression => "PS001"
  | missingLeftOperand => "PS002"
  | unclosedGroup => "PS003"
  | missingColon => "PS004"
  | unclosedBlock => "PS005"
  | missingSemicolon _ => "PS006"
  | missingVariableName => "PS007"
  | invalidTarget => "PS008"
  | excessiveNesting => "PS009"

/-- The code of a failed computation. -/
def RuntimeFault.code : RuntimeFault → String
  | nonNumeric _ => "RT001"
  | nonNumerics _ _ => "RT002"
  | nonAddable _ _ => "RT003"
  | nonComparable _ _ => "RT004"
  | divisionByZero => "RT005"
  | undefinedVariable _ => "RT006"

/-- A parse error on one line. -/
def ParseError.text (e : ParseError) : String :=
  match e.found with
  | none => s!"[line {e.site.line}] Error at end: {e.fault.message}"
  | some _ => s!"[line {e.site.line}] Error at '{e.site.text}': {e.fault.message}"

/-- A failed computation on two lines. -/
def RuntimeError.text (e : RuntimeError) : String :=
  s!"{e.fault.message}\n[line {e.site.line}]"

/-- Something that went wrong with a program. -/
inductive Diagnostic where
  | lexical (e : LexicalError)
  | parse (e : ParseError)
  | runtime (e : RuntimeError)
deriving DecidableEq, Repr

namespace Diagnostic

/-- Whether it was found before anything was executed. -/
def isStatic : Diagnostic → Bool
  | lexical _ | parse _ => true
  | runtime _ => false

/-- Its code. -/
def code : Diagnostic → String
  | lexical e => e.fault.code
  | parse e => e.fault.code
  | runtime e => e.fault.code

/-- Its message. -/
def message : Diagnostic → String
  | lexical e => e.fault.message
  | parse e => e.fault.message
  | runtime e => e.fault.message

/-- The stretch of the source it is about. -/
def span : Diagnostic → Span
  | lexical e => e.span
  | parse e => e.site.span
  | runtime e => e.site.span

/-- Its plain form. -/
def text : Diagnostic → String
  | lexical e => Listing.error e
  | parse e => e.text
  | runtime e => e.text

end Diagnostic

end Lox
