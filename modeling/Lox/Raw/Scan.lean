import Lox.Token.Scan

/-!
# Scanning with nothing taken for granted

The stages of the interpreter once more, and this time they take on trust what the stage before has
done. A token has a kind and beside it, perhaps, a literal; a place is two numbers of 32 bits; text
is found again by its place. Whatever relies on something has **no result** where that does not
hold: a stretch of the source that ends before it begins, or lies outside, or cuts a character in
two, a sum that is too large, a number that cannot be read. `none` is where a program of these
stages would stop.

Which piece comes next is decided as ever (`Piece.cut`), and so is how many characters it has. What
is taken from it here is only this, and its class: what a token says and denotes comes from the
source, and from where the cursor was and is.

That every stage has a result after all, and the one that the other modules compute, is proved in
`Lox.Proofs.Raw`.
-/

set_option autoImplicit false

namespace Lox.Raw

/-- The kind of a token, the end of the input being one of them. -/
inductive Kind where
  | symbol (s : Symbol)
  | keyword (k : Keyword)
  | number
  | string
  | ident
  | eof
deriving DecidableEq, Repr

/-- Whether a token of this kind begins a statement. -/
def Kind.startsStatement : Kind → Bool
  | .keyword k => k.startsStatement
  | _ => false

/-- What a token denotes, if it is a literal. -/
inductive Literal where
  | number (value : Float)
  | string (value : String)
deriving DecidableEq, Repr

/-! ## Arithmetic -/

/-- A sum that fits in 32 bits. -/
def checkedAdd? (a b : UInt32) : Option UInt32 :=
  if a.toNat + b.toNat < UInt32.size then some (a + b) else none

/-- A difference that is not negative. -/
def checkedSub? (a b : Nat) : Option Nat := if b ≤ a then some (a - b) else none

/-- Some bytes of a source text, numbered with 32 bits. -/
structure Span where
  start : UInt32
  length : UInt32
deriving DecidableEq, Repr

/-- The bytes from `start` up to `stop`. -/
def Span.between? (start stop : UInt32) : Option Span :=
  if start ≤ stop then some ⟨start, stop - start⟩ else none

/-- The first byte behind the span. -/
def Span.stop? (s : Span) : Option UInt32 := checkedAdd? s.start s.length

/-! ## Slices -/

/-- The characters that take the first `n` bytes, and the others. -/
def splitBytes? : Nat → List Char → Option (List Char × List Char)
  | 0, cs => some ([], cs)
  | _ + 1, [] => none
  | n + 1, c :: cs =>
    if c.utf8Size ≤ n + 1 then
      (splitBytes? (n + 1 - c.utf8Size) cs).map fun split => (c :: split.1, split.2)
    else none

/-- The bytes `start`, `start + 1`, … of a source text, up to `stop`, as a text. -/
def slice? (source : String) (start stop : Nat) : Option String := do
  let length ← checkedSub? stop start
  let (_, rest) ← splitBytes? start source.toList
  let (text, _) ← splitBytes? length rest
  return String.ofList text

/-! ## The cursor -/

/-- Where the scanner is. -/
structure Cursor where
  offset : UInt32
  line : UInt32
deriving DecidableEq, Repr

namespace Cursor

def origin : Cursor := ⟨0, 1⟩

/-- The offset behind the character `c`, cut off to 32 bits. -/
def behind (p : Cursor) (c : Char) : UInt32 := UInt32.ofNat (p.offset.toNat + c.utf8Size)

/-- Moves over a character. -/
def advance? (p : Cursor) (c : Char) : Option Cursor := do
  let line ← if c = '\n' then checkedAdd? p.line 1 else some p.line
  return ⟨p.behind c, line⟩

/-- Moves over characters, one after the other. -/
def over? : Cursor → List Char → Option Cursor
  | p, [] => some p
  | p, c :: cs => do over? (← p.advance? c) cs

end Cursor

/-! ## Tokens and errors -/

/-- A token, or the end of the input. -/
structure Token where
  kind : Kind
  text : String
  literal : Option Literal
  span : Span
  line : UInt32
deriving DecidableEq, Repr

structure LexicalError where
  fault : LexicalFault
  span : Span
  line : UInt32
deriving DecidableEq, Repr

/-- The number that a text denotes which consists of digits, or of digits on both sides of a
point. -/
def parseNumber? (text : String) : Option Float :=
  let whole := text.toList.takeWhile Char.isDigit
  if whole = [] then none
  else
    match text.toList.drop whole.length with
    | [] => some (Decimal.ofDigits whole []).toFloat
    | '.' :: fraction =>
      if fraction ≠ [] ∧ fraction.all Char.isDigit then
        some (Decimal.ofDigits whole fraction).toFloat
      else none
    | _ => none

/-- What the scanner meets. -/
inductive Item where
  | token (t : Token)
  | error (e : LexicalError)
deriving DecidableEq, Repr

namespace Item

/-- The token, if it is one. -/
def token? : Item → Option Token
  | token t => some t
  | error _ => none

/-- The error, if it is one. -/
def error? : Item → Option LexicalError
  | token _ => none
  | error e => some e

end Item

section

variable (source : String) (start stop : Cursor)

/-- The token from `start` up to `stop`. -/
def makeToken (kind : Kind) (literal : Option Literal) : Option Token := do
  let span ← Span.between? start.offset stop.offset
  let text ← slice? source span.start.toNat (← span.stop?).toNat
  return ⟨kind, text, literal, span, start.line⟩

/-- A number literal is read from its characters. -/
def lexNumber : Option Token := do
  let text ← slice? source start.offset.toNat stop.offset.toNat
  let value ← parseNumber? text
  makeToken source start stop .number (some (.number value))

/-- A string literal denotes what stands between its quotes. -/
def lexString : Option Token := do
  let inner ← checkedSub? stop.offset.toNat 1
  let value ← slice? source (start.behind '"').toNat inner
  makeToken source start stop .string (some (.string value))

/-- A word is looked up among the reserved ones. -/
def lexWord : Option Token := do
  let text ← slice? source start.offset.toNat stop.offset.toNat
  makeToken source start stop ((Keyword.ofText? text).elim .ident .keyword) none

/-- The error about what is there from `start` up to `stop`. -/
def lexError (fault : LexicalFault) : Option LexicalError := do
  let span ← Span.between? start.offset stop.offset
  let line :=
    match fault with
    | .unrecognized _ => start.line
    | .unclosedString | .unclosedComment => stop.line
  return ⟨fault, span, line⟩

/-- What is made of a piece from `start` up to `stop`. -/
def lex : Piece → Option (Option Item)
  | .blank => some none
  | .token (.symbol s) => return some (.token (← makeToken source start stop (.symbol s) none))
  | .token (.number _) => return some (.token (← lexNumber source start stop))
  | .token (.string _) => return some (.token (← lexString source start stop))
  | .token (.keyword _) | .token .ident => return some (.token (← lexWord source start stop))
  | .fault f => return some (.error (← lexError start stop f))

end

/-! ## The scan -/

/-- The items of the characters `cs`, before which the cursor is, and the end behind them. -/
def scanItems (source : String) (p : Cursor) : List Char → Option (List Item)
  | [] => return [.token (← makeToken source p p .eof none)]
  | c :: cs => do
    let stop ← p.over? (c :: cs.take (Piece.cut c cs).2)
    let item ← lex source p stop (Piece.cut c cs).1
    return item.toList ++ (← scanItems source stop (cs.drop (Piece.cut c cs).2))
termination_by cs => cs.length
decreasing_by exact Nat.lt_succ_of_le (List.length_drop ▸ Nat.sub_le ..)

theorem scanItems_nil (source : String) (p : Cursor) :
    scanItems source p [] = (makeToken source p p .eof none).bind fun t => some [.token t] := by
  rw [scanItems]
  rfl

/-- A scan is a move over the first piece, its item, and the scan of what follows it. -/
theorem scanItems_cons (source : String) (p : Cursor) (c : Char) (cs : List Char) :
    scanItems source p (c :: cs) =
      (p.over? (c :: cs.take (Piece.cut c cs).2)).bind fun stop =>
        (lex source p stop (Piece.cut c cs).1).bind fun item =>
          (scanItems source stop (cs.drop (Piece.cut c cs).2)).bind fun rest =>
            some (item.toList ++ rest) := by
  rw [scanItems]
  rfl

/-- The tokens and the errors of a source text. The last token is the end. -/
def tokenize (source : String) : Option (List Token × List LexicalError) := do
  let items ← scanItems source .origin source.toList
  return (items.filterMap Item.token?, items.filterMap Item.error?)

end Lox.Raw
