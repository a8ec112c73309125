import Lox.Token.Piece

/-!
# Scanning

A scan is the sequence of the pieces of a source text, each with its place, blanks left out.
Tokens and faults stay in one sequence, in the order in which they stand in the text, because a
listing shows them in that order; the parser wants the tokens alone and a report the errors alone,
and those are views of it (`Scan.tokens`, `Scan.errors`).

A fault never stops a scan. An unrecognised character is cut off by itself and the scan goes on
behind it; a string or comment that is never closed takes the rest of the text with it.
-/

set_option autoImplicit false

namespace Lox

/-- What is said about a lexical fault. -/
def LexicalFault.message : LexicalFault → String
  | unrecognized c => "Unexpected character: " ++ c.toString
  | unclosedString => "Unterminated string."
  | unclosedComment => "Unterminated block comment."

/-- Something wrong with the source text: what, where, and on which line it is reported. -/
structure LexicalError where
  fault : LexicalFault
  span : Span
  /-- A bad character is reported on its own line, and a missing end on the line where the text
  ends. -/
  line : Nat
deriving DecidableEq, Repr

/-- What a scan meets. -/
inductive ScanItem where
  | token (t : Token)
  | error (e : LexicalError)
deriving DecidableEq, Repr

namespace ScanItem

/-- The token, if it is one. -/
def token? : ScanItem → Option Token
  | token t => some t
  | error _ => none

/-- The error, if it is one. -/
def error? : ScanItem → Option LexicalError
  | token _ => none
  | error e => some e

end ScanItem

/-- The line on which a fault that covers the text from `start` to `stop` is reported. -/
def LexicalFault.line (start stop : Place) : LexicalFault → Nat
  | .unrecognized _ => start.line
  | .unclosedString | .unclosedComment => stop.line

/-- What a scan makes of a piece that has the characters `cs` and begins at `p`. -/
def Piece.item? (p : Place) (cs : List Char) : Piece → Option ScanItem
  | blank => none
  | token kind => some (.token ⟨kind, Lexeme.ofChars p cs⟩)
  | fault f => some (.error ⟨f, ⟨p.offset, byteLength cs⟩, f.line p (p.after cs)⟩)

/-- The items of the text `cs`, which begins at `p`. -/
def scanFrom (p : Place) : List Char → List ScanItem
  | [] => []
  | c :: cs =>
    let piece := Piece.cut c cs
    let taken := c :: cs.take piece.2
    (piece.1.item? p taken).toList ++ scanFrom (p.after taken) (cs.drop piece.2)
termination_by cs => cs.length
decreasing_by exact Nat.lt_succ_of_le (List.length_drop ▸ Nat.sub_le ..)

theorem scanFrom_nil (p : Place) : scanFrom p [] = [] := by
  rw [scanFrom]

/-- A scan is the item of the first piece, if that is one, and the scan of what follows the piece.
-/
theorem scanFrom_cons (p : Place) (c : Char) (cs : List Char) :
    scanFrom p (c :: cs) =
      ((Piece.cut c cs).1.item? p (c :: cs.take (Piece.cut c cs).2)).toList ++
        scanFrom (p.after (c :: cs.take (Piece.cut c cs).2)) (cs.drop (Piece.cut c cs).2) := by
  rw [scanFrom]

/-- A scanned source text. -/
structure Scan where
  /-- The tokens and the errors, in the order they stand in the text. -/
  items : List ScanItem
  /-- The end of the text: an empty lexeme behind its last character. -/
  finish : Lexeme
deriving DecidableEq, Repr

namespace Scan

/-- Scans a source text. -/
def ofString (source : String) : Scan :=
  ⟨scanFrom .origin source.toList, .endingAt (Place.origin.after source.toList)⟩

/-- The tokens, without the errors between them. -/
def tokens (s : Scan) : List Token := s.items.filterMap ScanItem.token?

/-- The errors, without the tokens between them. -/
def errors (s : Scan) : List LexicalError := s.items.filterMap ScanItem.error?

end Scan

end Lox
