import Lox.Token.Scan

/-!
# The lexical grammar

How tokens are spelled, what may stand between them, and what it means that a stretch of text is
wrong, all said about characters and without a scanner. A scanner cuts pieces off the front of a
text by looking at the next character or two; here a stretch of text is looked at as a whole, with
the text behind it, and is or is not of a certain class.

The text behind matters in three places only. A line comment reaches up to the next line end or to
the end of the text. A token is as long as it can be. And a fault is a fault because nothing that
begins there is right.
-/

set_option autoImplicit false

namespace Lox

/-! ## Tokens -/

/-- The spellings of a token of the given kind. The classes are disjoint, except that a word has
to be looked up to know whether it is reserved. -/
inductive TokenKind.Spells : TokenKind → List Char → Prop where
  /-- A symbol is spelled in one way. -/
  | symbol (s : Symbol) : Spells (.symbol s) s.text.toList
  /-- A number without a fraction is a row of digits. -/
  | whole {digits : List Char} (hne : digits ≠ []) (hd : ∀ d ∈ digits, d.isDigit = true) :
    Spells (.number (Decimal.ofDigits digits []).toFloat) digits
  /-- A fraction is a point and at least one more digit. -/
  | fraction {digits fraction : List Char} (hne : digits ≠ [])
    (hd : ∀ d ∈ digits, d.isDigit = true) (hfne : fraction ≠ [])
    (hf : ∀ d ∈ fraction, d.isDigit = true) :
    Spells (.number (Decimal.ofDigits digits fraction).toFloat) (digits ++ '.' :: fraction)
  /-- A string stands between quotes and has none inside. -/
  | string {body : List Char} (h : '"' ∉ body) :
    Spells (.string (String.ofList body)) ('"' :: (body ++ ['"']))
  /-- A reserved word is spelled in one way. -/
  | keyword (k : Keyword) : Spells (.keyword k) k.text.toList
  /-- A name is any other word. -/
  | ident {c : Char} {tail : List Char} (hc : isNameStart c = true)
    (ht : ∀ d ∈ tail, isNameChar d = true)
    (hk : Keyword.ofText? (String.ofList (c :: tail)) = none) : Spells .ident (c :: tail)

/-! ## Comments and gaps -/

/-- What follows the opening mark of a block comment, up to and with the closing mark that belongs
to it. Marks are read from the left, so a character stands for itself only if no mark begins with
it. -/
inductive CommentBody : List Char → Prop where
  | close : CommentBody ['*', '/']
  | nested {inner rest : List Char} (hi : CommentBody inner) (hr : CommentBody rest) :
    CommentBody ('/' :: '*' :: (inner ++ rest))
  | char {c : Char} {rest : List Char} (ho : ∀ cs, c :: rest ≠ '/' :: '*' :: cs)
    (hc : ∀ cs, c :: rest ≠ '*' :: '/' :: cs) (hr : CommentBody rest) : CommentBody (c :: rest)

/-- One of the things that may stand between tokens, with the text behind it. -/
inductive Blank : List Char → List Char → Prop where
  | space {c : Char} {behind : List Char} (h : isBlankChar c = true) : Blank [c] behind
  /-- A line comment goes up to the line end, which does not belong to it. -/
  | line {text behind : List Char} (h : '\n' ∉ text) (hb : ∀ c ∈ behind.head?, c = '\n') :
    Blank ('/' :: '/' :: text) behind
  | block {body behind : List Char} (h : CommentBody body) : Blank ('/' :: '*' :: body) behind

/-- A stretch of text that consists of blanks, with the text behind it. -/
inductive Gap : List Char → List Char → Prop where
  | nil {behind : List Char} : Gap [] behind
  | cons {text gap behind : List Char} (hb : Blank text (gap ++ behind)) (hg : Gap gap behind) :
    Gap (text ++ gap) behind

/-! ## Tokens and faults in their surroundings -/

/-- The characters `text`, with `behind` following, are a token of the given kind, and no longer
stretch that begins there is a token. -/
structure TokenKind.Munches (kind : TokenKind) (text behind : List Char) : Prop where
  spells : kind.Spells text
  longest : ∀ (kind' : TokenKind) (longer : List Char), kind'.Spells longer →
    longer <+: text ++ behind → longer.length ≤ text.length
  /-- A slash is not the beginning of a comment. -/
  no_comment : kind = .symbol .slash → ∀ c ∈ behind.head?, c ≠ '/' ∧ c ≠ '*'

/-- The characters `text`, with `behind` following, are wrong in the given way. -/
def LexicalFault.Covers (text behind : List Char) : LexicalFault → Prop
  /- A single character that is no blank and with which no token begins. The slash begins one, so
  this excludes comments too. -/
  | unrecognized c =>
    text = [c] ∧ isBlankChar c = false ∧
      ∀ (kind : TokenKind) (spelling : List Char), kind.Spells spelling →
        ¬ spelling <+: c :: behind
  /- A quote, and no other up to the end of the text. -/
  | unclosedString => behind = [] ∧ ∃ body, text = '"' :: body ∧ '"' ∉ body
  /- The opening mark of a comment, which is not closed up to the end of the text. -/
  | unclosedComment =>
    behind = [] ∧ ∃ body, text = '/' :: '*' :: body ∧ ∀ closed, closed <+: body →
      ¬ CommentBody closed

/-- The scan item stands at the place `p`, and is right about the characters `text` there. -/
def ScanItem.StandsAt (p : Place) (text behind : List Char) : ScanItem → Prop
  | token t => t.lexeme = .ofChars p text ∧ t.kind.Munches text behind
  | error e =>
    e.span = ⟨p.offset, byteLength text⟩ ∧ e.line = e.fault.line p (p.after text) ∧
      e.fault.Covers text behind

/-- The text `cs`, which begins at `p`, consists of the given items with gaps before, between and
behind them. -/
inductive Partition : Place → List Char → List ScanItem → Prop where
  | finish {p : Place} {gap : List Char} (h : Gap gap []) : Partition p gap []
  | item {p : Place} {gap text rest : List Char} {item : ScanItem} {items : List ScanItem}
    (hg : Gap gap (text ++ rest)) (hne : text ≠ []) (hi : item.StandsAt (p.after gap) text rest)
    (hr : Partition ((p.after gap).after text) rest items) :
    Partition p (gap ++ (text ++ rest)) (item :: items)

/-- The bytes that an item covers. -/
def ScanItem.span : ScanItem → Span
  | token t => t.lexeme.span
  | error e => e.span

end Lox
