import Lox.Token
import Lox.Number.Nearest

/-!
# Cutting one piece off a source text

Scanning repeats one step: look at the characters that are left and cut the first *piece* off
them. A piece is a blank (white space or a comment), a token, or a fault. What the first piece is
depends on the remaining characters alone; where in the source they stand does not matter, and so
no place appears in this file.

`Piece.cut` answers with the piece and with *how many characters after the first* belong to it.
That a piece has at least one character, and that the pieces of a text put together are the text
again, is therefore true by construction.

A piece is always as long as it can be: `<=` is never `<` and `=`, `12.5` is never `12` and `.5`,
and `orchid` is a name, not the word `or` and a name.
-/

set_option autoImplicit false

namespace Lox

/-- What can be wrong with a source text before any grammar is applied to it. -/
inductive LexicalFault where
  /-- A character that begins no token. -/
  | unrecognized (c : Char)
  /-- A string whose closing quote is missing. -/
  | unclosedString
  /-- A block comment, one of whose closing marks is missing. -/
  | unclosedComment
deriving DecidableEq, Repr

/-- What a stretch of source text is. -/
inductive Piece where
  /-- White space or a comment: it separates tokens and means nothing. -/
  | blank
  | token (kind : TokenKind)
  | fault (fault : LexicalFault)
deriving DecidableEq, Repr

/-! ## Character classes -/

/-- The characters that may stand between tokens. -/
def isBlankChar (c : Char) : Bool := c == ' ' || c == '\r' || c == '\t' || c == '\n'

/-- The characters that may begin a name: ASCII letters and the underscore. -/
def isNameStart (c : Char) : Bool := c.isAlpha || c == '_'

/-- The characters that may go on with a name. -/
def isNameChar (c : Char) : Bool := c.isAlphanum || c == '_'

namespace Piece

/-! ## Pieces of more than two characters -/

/-- How many characters it takes to close `depth` open block comments, or nothing if the text ends
first. Each opening mark inside needs a closing mark of its own. -/
def commentLength? : (depth : Nat) → List Char → Option Nat
  | 0, _ => some 0
  | _ + 1, [] => none
  | depth + 1, '/' :: '*' :: cs => (commentLength? (depth + 2) cs).map (· + 2)
  | depth + 1, '*' :: '/' :: cs => (commentLength? depth cs).map (· + 2)
  | depth + 1, _ :: cs => (commentLength? (depth + 1) cs).map (· + 1)

/-- A string literal whose opening quote stands before `cs`. Everything up to the next quote
belongs to it, line ends included, and stands for itself. -/
def cutString (cs : List Char) : Piece × Nat :=
  let body := cs.takeWhile (· != '"')
  if body.length < cs.length then (token (.string (String.ofList body)), body.length + 1)
  else (fault .unclosedString, cs.length)

/-- The digits behind the point, if `cs` begins with a point and at least one digit. -/
def fractionDigits : List Char → List Char
  | '.' :: cs => cs.takeWhile Char.isDigit
  | _ => []

/-- A number literal with the first digit `c`. A point belongs to it only if a digit follows. -/
def cutNumber (c : Char) (cs : List Char) : Piece × Nat :=
  let whole := cs.takeWhile Char.isDigit
  let fraction := fractionDigits (cs.drop whole.length)
  let value := (Decimal.ofDigits (c :: whole) fraction).toFloat
  (token (.number value),
    if fraction = [] then whole.length else whole.length + 1 + fraction.length)

/-- The kind of the word `cs`: a reserved word or a name. -/
def wordKind (cs : List Char) : TokenKind :=
  match Keyword.ofText? (String.ofList cs) with
  | some k => .keyword k
  | none => .ident

/-- A word with the first character `c`. -/
def cutWord (c : Char) (cs : List Char) : Piece × Nat :=
  let tail := cs.takeWhile isNameChar
  (token (wordKind (c :: tail)), tail.length)

/-! ## The first piece of a text -/

/-- A symbol that is `long` if an equals sign follows and `short` otherwise. -/
def cutEither (long short : Symbol) : List Char → Piece × Nat
  | '=' :: _ => (token (.symbol long), 1)
  | _ => (token (.symbol short), 0)

/-- What begins with a slash: a line comment, a block comment, or the slash itself. -/
def cutSlash : List Char → Piece × Nat
  | '/' :: cs => (blank, 1 + (cs.takeWhile (· != '\n')).length)
  | '*' :: cs =>
    match commentLength? 1 cs with
    | some n => (blank, 1 + n)
    | none => (fault .unclosedComment, 1 + cs.length)
  | _ => (token (.symbol .slash), 0)

/-- The symbol that the character `c` is whatever follows it. -/
def soloSymbol? (c : Char) : Option Symbol :=
  match c with
  | '(' => some .leftParen
  | ')' => some .rightParen
  | '\x7b' => some .leftBrace
  | '\x7d' => some .rightBrace
  | ',' => some .comma
  | '.' => some .dot
  | '-' => some .minus
  | '+' => some .plus
  | ';' => some .semicolon
  | '*' => some .star
  | '?' => some .question
  | ':' => some .colon
  | _ => none

/-- The first piece of the text `c :: cs`, and how many characters of `cs` belong to it. -/
def cut (c : Char) (cs : List Char) : Piece × Nat :=
  match soloSymbol? c with
  | some s => (token (.symbol s), 0)
  | none =>
    if c == '!' then cutEither .bangEqual .bang cs
    else if c == '=' then cutEither .equalEqual .equal cs
    else if c == '<' then cutEither .lessEqual .less cs
    else if c == '>' then cutEither .greaterEqual .greater cs
    else if c == '/' then cutSlash cs
    else if isBlankChar c then (blank, 0)
    else if c == '"' then cutString cs
    else if c.isDigit then cutNumber c cs
    else if isNameStart c then cutWord c cs
    else (fault (.unrecognized c), 0)

end Piece

end Lox
