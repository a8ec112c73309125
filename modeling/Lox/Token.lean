import Lox.Place

/-!
# Tokens

A program is a sequence of tokens, and a token is a *kind* together with the *lexeme* it was
written as. The kind is all that the grammar looks at; the lexeme is all that a message shows.

Two decisions are made here once for the whole library.

* **A literal's value lives in its kind.** `number v` and `string s` carry what they denote, so
  there is no number token without a number, and whoever meets one needs no second look at the
  text.
* **There is no token for the end of the input.** A token sequence is a plain list, and the end of
  the list is the end of the input. Where a message is about the end, it has no token to name
  (`Option TokenKind`), only a place.

A lexeme knows where it starts and what it says; where it stops follows (`Lexeme.span`), so a
lexeme and its span cannot disagree.

Tokens of which none of this is known, with a kind, a text, perhaps a literal, and a place beside
each other, are those of `Lox.Raw`. That a scan makes no such token that could not be one of these
has to be proved there (`Raw.tokenize_eq`).
-/

set_option autoImplicit false

namespace Lox

/-- The tokens that are always spelled the same and are not words. -/
inductive Symbol where
  | leftParen | rightParen | leftBrace | rightBrace
  | comma | dot | minus | plus | semicolon | star | question | colon
  | bang | bangEqual | equal | equalEqual
  | less | lessEqual | greater | greaterEqual
  | slash
deriving DecidableEq, Repr

/-- How a symbol is spelled. -/
def Symbol.text : Symbol → String
  | .leftParen => "(" | .rightParen => ")" | .leftBrace => "\x7b" | .rightBrace => "\x7d"
  | .comma => "," | .dot => "." | .minus => "-" | .plus => "+" | .semicolon => ";"
  | .star => "*" | .question => "?" | .colon => ":"
  | .bang => "!" | .bangEqual => "!=" | .equal => "=" | .equalEqual => "=="
  | .less => "<" | .lessEqual => "<=" | .greater => ">" | .greaterEqual => ">="
  | .slash => "/"

/-- The reserved words. Several of them have no meaning yet; they are reserved all the same. -/
inductive Keyword where
  | andWord | classWord | elseWord | falseWord | forWord | funWord | ifWord | nilWord
  | orWord | printWord | returnWord | superWord | thisWord | trueWord | varWord | whileWord
deriving DecidableEq, Repr

namespace Keyword

/-- How a reserved word is spelled. -/
def text : Keyword → String
  | .andWord => "and" | .classWord => "class" | .elseWord => "else" | .falseWord => "false"
  | .forWord => "for" | .funWord => "fun" | .ifWord => "if" | .nilWord => "nil"
  | .orWord => "or" | .printWord => "print" | .returnWord => "return" | .superWord => "super"
  | .thisWord => "this" | .trueWord => "true" | .varWord => "var" | .whileWord => "while"

/-- Every reserved word. -/
def all : List Keyword :=
  [.andWord, .classWord, .elseWord, .falseWord, .forWord, .funWord, .ifWord, .nilWord,
   .orWord, .printWord, .returnWord, .superWord, .thisWord, .trueWord, .varWord, .whileWord]

/-- The reserved word spelled `word`, if there is one. -/
def ofText? (word : String) : Option Keyword := all.find? (·.text == word)

theorem text_of_ofText? {word : String} {k : Keyword} (h : ofText? word = some k) :
    k.text = word := by
  simpa using List.find?_some h

theorem ofText?_text (k : Keyword) : ofText? k.text = some k := by cases k <;> decide +kernel

/-- The words that begin a statement. After a mistake the parser resumes at one of these. -/
def startsStatement : Keyword → Bool
  | .classWord | .funWord | .varWord | .forWord | .ifWord | .whileWord | .printWord
  | .returnWord => true
  | _ => false

end Keyword

/-- What a token is, as far as the grammar is concerned. -/
inductive TokenKind where
  | symbol (s : Symbol)
  | keyword (k : Keyword)
  /-- A number literal, with the number it denotes. -/
  | number (value : Float)
  /-- A string literal, with the text between its quotes. -/
  | string (value : String)
  /-- A name. Which name is its lexeme's text. -/
  | ident
deriving DecidableEq, Repr

/-- A piece of source text together with the place it was found at. -/
structure Lexeme where
  text : String
  /-- The offset of its first byte. -/
  start : Nat
  /-- The line its first character is on. -/
  line : Nat
deriving DecidableEq, Repr

namespace Lexeme

/-- The bytes a lexeme covers: as many as its text has, from where it starts. -/
def span (l : Lexeme) : Span := ⟨l.start, l.text.utf8ByteSize⟩

/-- The lexeme that the characters `cs` are when they are found at `p`. -/
def ofChars (p : Place) (cs : List Char) : Lexeme := ⟨String.ofList cs, p.offset, p.line⟩

/-- A lexeme made of characters covers them. -/
@[simp] theorem span_ofChars (p : Place) (cs : List Char) :
    (ofChars p cs).span = ⟨p.offset, byteLength cs⟩ := by
  simp [span, ofChars, utf8ByteSize_ofList]

/-- The empty lexeme at `p`, which stands for the end of a text that ends there. -/
def endingAt (p : Place) : Lexeme := ⟨"", p.offset, p.line⟩

end Lexeme

/-- A token: its kind, and the lexeme it was written as. -/
structure Token where
  kind : TokenKind
  lexeme : Lexeme
deriving DecidableEq, Repr

end Lox
