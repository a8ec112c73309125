import Lox.Parse.Error
import Lox.Expr
import Lox.Token.Listing
import Lox.Text.Quoted

/-!
# Structural dumps

The form in which everything about a token, a tree or an error is written out on one line, places
included: constructors by name, their fields in braces or parentheses, text in quotes. It is meant
for looking at what the earlier stages have made of a source.
-/

set_option autoImplicit false

namespace Lox

namespace Dump

/-! ## Shapes -/

/-- A constructor with named fields. -/
def record (name : String) (fields : List (String × String)) : String :=
  name ++ " \x7b " ++ String.intercalate ", " (fields.map fun f => f.1 ++ ": " ++ f.2) ++ " \x7d"

/-- A constructor with one unnamed field. -/
def tagged (name body : String) : String := name ++ "(" ++ body ++ ")"

/-! ## Tokens -/

/-- The name of a symbol. -/
def symbolName : Symbol → String
  | .leftParen => "LeftParenthesis" | .rightParen => "RightParenthesis"
  | .leftBrace => "LeftBrace" | .rightBrace => "RightBrace"
  | .comma => "Comma" | .dot => "Dot" | .minus => "Minus" | .plus => "Plus"
  | .semicolon => "Semicolon" | .star => "Star" | .question => "Question" | .colon => "Colon"
  | .bang => "Bang" | .bangEqual => "BangEqual"
  | .equal => "Equal" | .equalEqual => "EqualEqual"
  | .less => "LessThan" | .lessEqual => "LessThanEqual"
  | .greater => "GreaterThan" | .greaterEqual => "GreaterThanEqual"
  | .slash => "Slash"

/-- The name of a kind of token, or of the end of the input. -/
def kindName : Option TokenKind → String
  | some (.symbol s) => symbolName s
  | some (.keyword k) => "Keyword" ++ k.text.capitalize
  | some (.number _) => "NumericLiteral"
  | some (.string _) => "StringLiteral"
  | some .ident => "Ident"
  | none => "Eof"

/-- A literal's value. -/
def value : Value → String
  | .number n => tagged "Number" (NumberFormat.literal.text n)
  | .string s => tagged "String" (quotedString s)
  | .bool b => tagged "Bool" (if b then "true" else "false")
  | .nil => "Nil"

/-- What a token denotes, if it is a literal. -/
def literal : Option TokenKind → String
  | some (.number n) => tagged "Some" (value (.number n))
  | some (.string s) => tagged "Some" (value (.string s))
  | _ => "None"

/-- A stretch of the source. -/
def span (s : Span) : String :=
  record "Span"
    [("start", tagged "SpanIndex" s!"{s.start}"), ("length", tagged "SpanLength" s!"{s.length}")]

/-- A token, or the end of the input. -/
def token (kind : Option TokenKind) (site : Lexeme) : String :=
  record "Token"
    [("kind", kindName kind), ("lexeme", quotedString site.text), ("literal", literal kind),
      ("span", span site.span), ("line", s!"{site.line}")]

/-! ## Errors -/

/-- A lexical fault. -/
def lexicalFault : LexicalFault → String
  | .unrecognized c => tagged "Unrecognized" (quotedChar c)
  | .unclosedString => "UnclosedString"
  | .unclosedComment => "UnclosedComment"

/-- A lexical error. -/
def lexicalError (e : LexicalError) : String :=
  record "LexicalError"
    [("kind", lexicalFault e.fault), ("span", span e.span), ("line", s!"{e.line}")]

/-- A parse fault. -/
def parseFault : ParseFault → String
  | .nonExpression => "NonExpression"
  | .missingLeftOperand => "MissingLeftOperand"
  | .unclosedGroup => "UnclosedGroup"
  | .missingColon => "MissingColon"
  | .unclosedBlock => "UnclosedBlock"
  | .missingSemicolon after => tagged "MissingSemicolon" (quotedString after.text)
  | .missingVariableName => "MissingVariableName"
  | .invalidTarget => "InvalidLValue"
  | .excessiveNesting => "ExcessiveNesting"

/-- A parse error. -/
def parseError (e : ParseError) : String :=
  record "ParserError" [("kind", parseFault e.fault), ("token", token e.found e.site)]

/-! ## Expressions -/

/-- A token that is a symbol. -/
def symbolToken (s : Symbol) (site : Lexeme) : String := token (some (.symbol s)) site

/-- A token that is a name. -/
def nameToken (site : Lexeme) : String := token (some .ident) site

/-- An expression. -/
def expr : Expr → String
  | .literal v => tagged "Literal" (value v)
  | .grouping e => tagged "Grouping" (expr e)
  | .name site => tagged "Variable" (nameToken site)
  | .assign site e => record "Assign" [("name", nameToken site), ("value", expr e)]
  | .unary op site e =>
    record "Unary" [("operator", symbolToken op.symbol site), ("rhs", expr e)]
  | .binary op site l r =>
    record "Binary" [("lhs", expr l), ("operator", symbolToken op.symbol site), ("rhs", expr r)]
  | .ternary c question s colon f =>
    record "Ternary"
      [("condition", expr c), ("question", symbolToken .question question), ("success", expr s),
        ("colon", symbolToken .colon colon), ("failure", expr f)]

end Dump

end Lox
