import Lox.Token.Scan
import Lox.Number.Format

/-!
# Listings of tokens

A token listing has a line per token: what category it is of, how it was written, and, for a
literal, what it denotes. The errors a scan has met stand where they were met. A listing may say
the line number in front; the errors are then written in the same columns.
-/

set_option autoImplicit false

namespace Lox

/-- The category under which a symbol is listed. -/
def Symbol.category : Symbol → String
  | .leftParen => "LEFT_PAREN" | .rightParen => "RIGHT_PAREN"
  | .leftBrace => "LEFT_BRACE" | .rightBrace => "RIGHT_BRACE"
  | .comma => "COMMA" | .dot => "DOT" | .minus => "MINUS" | .plus => "PLUS"
  | .semicolon => "SEMICOLON" | .star => "STAR" | .question => "QUESTION" | .colon => "COLON"
  | .bang => "BANG" | .bangEqual => "BANG_EQUAL"
  | .equal => "EQUAL" | .equalEqual => "EQUAL_EQUAL"
  | .less => "LESS" | .lessEqual => "LESS_EQUAL"
  | .greater => "GREATER" | .greaterEqual => "GREATER_EQUAL"
  | .slash => "SLASH"

/-- The category under which a token of the given kind is listed. A reserved word is its own
category, and the end of the input has one too. -/
def TokenKind.category : Option TokenKind → String
  | some (symbol s) => s.category
  | some (keyword k) => k.text.toUpper
  | some (number _) => "NUMBER"
  | some (string _) => "STRING"
  | some ident => "IDENTIFIER"
  | none => "EOF"

/-- What a token of the given kind denotes, as it is listed. -/
def TokenKind.literalText : Option TokenKind → String
  | some (number v) => NumberFormat.literal.text v
  | some (string s) => s
  | _ => "null"

/-- The category and the literal under which a lexical fault is listed. -/
def LexicalFault.listed : LexicalFault → String
  | unrecognized c => "UNEXPECTED_CHAR " ++ c.toString
  | unclosedString => "UNTERMINATED_STRING null"
  | unclosedComment => "UNTERMINATED_COMMENT null"

namespace Listing

/-- A token, or the end of the input, without its line number. -/
def token (kind : Option TokenKind) (site : Lexeme) : String :=
  s!"{TokenKind.category kind} {site.text} {TokenKind.literalText kind}"

/-- An error in words. -/
def error (e : LexicalError) : String :=
  s!"[line {e.line}] Error: {e.fault.message}"

/-- A token, or the end of the input, with its line number. -/
def numberedToken (kind : Option TokenKind) (site : Lexeme) : String :=
  s!"({site.line}) {token kind site}"

/-- An error in the columns of a listing with line numbers. -/
def numberedError (e : LexicalError) : String :=
  s!"({e.line}) ERROR {e.fault.listed}"

end Listing

end Lox
