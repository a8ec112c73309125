import Lox.Token

/-!
# What can be wrong with a token sequence

A parse error is a fault and the token it is about. Most faults are about the token that the
parser is looking at and cannot go on with. Two are about an operator it has already passed: an
operator without a left operand, and an assignment to something that is no variable.
-/

set_option autoImplicit false

namespace Lox

/-- The constructs that end with a semicolon. -/
inductive Terminated where
  | value
  | variableDeclaration
  | expression
deriving DecidableEq, Repr

/-- What a message calls the construct. -/
def Terminated.text : Terminated → String
  | value => "value"
  | variableDeclaration => "variable declaration"
  | expression => "expression"

/-- Why a token sequence does not fit the grammar. -/
inductive ParseFault where
  | nonExpression
  | missingLeftOperand
  | unclosedGroup
  | missingColon
  | unclosedBlock
  | missingSemicolon (after : Terminated)
  | missingVariableName
  | invalidTarget
  | excessiveNesting
deriving DecidableEq, Repr

/-- What is said about a fault. -/
def ParseFault.message : ParseFault → String
  | nonExpression => "Expect expression."
  | missingLeftOperand => "Expect left-hand operand."
  | unclosedGroup => "Expect ')' after expression."
  | missingColon => "Expect ':' after expression."
  | unclosedBlock => "Expect '\x7d' after block."
  | missingSemicolon what => s!"Expect ';' after {what.text}."
  | missingVariableName => "Expect variable name."
  | invalidTarget => "Invalid assignment target."
  | excessiveNesting => "Too much nesting."

/-- A fault, and the token it is about. -/
structure ParseError where
  fault : ParseFault
  /-- The kind of the token, or nothing at the end of the input. -/
  found : Option TokenKind
  /-- The token's lexeme, which is empty at the end of the input. -/
  site : Lexeme
deriving DecidableEq, Repr

end Lox
