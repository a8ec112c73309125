import Lox.Diagnostic
import Lox.Text.Columns

/-!
# Reports that show the source

The long form of a diagnostic: its code and message, the position in the file, the line or the two
lines of the source it is about, and under them what is wrong there. If the marked text lies on
one line it is underlined and the label hangs from its middle; if it reaches over several lines,
its first and its last one are shown, joined by an arrow on the left.

      [RT006] Error: Undefined variable 'b'.
         ╭─[ main.lox:1:11 ]
         │
       1 │ print a + b;
         │           ┬
         │           ╰── While evaluating `b`
      ───╯

Spans count bytes. A report is laid out by characters, and marks have to stand under characters
that may be wider than one column, or take none; so the columns of a line are counted out
(`SourceLine.columns`).

Lines here are those a reader sees: they end at any line terminator that Unicode knows, not only
where the line count of the language does.
-/

set_option autoImplicit false

namespace Lox

/-! ## Lines of a source text -/

/-- Whether a character ends a line as far as a reader is concerned. -/
def isLineEnd (c : Char) : Bool :=
  c == '\n' || c == '\r' || c == '\x0b' || c == '\x0c' || c == '\u0085' || c == '\u2028' ||
    c == '\u2029'

/-- White space in the sense of Unicode. -/
def isSpace (c : Char) : Bool :=
  inRanges
    [(0x09, 0x0d), (0x20, 0x20), (0x85, 0x85), (0xa0, 0xa0), (0x1680, 0x1680), (0x2000, 0x200a),
      (0x2028, 0x2029), (0x202f, 0x202f), (0x205f, 0x205f), (0x3000, 0x3000)] c

/-- Cuts a text behind every line end. A carriage return and a line feed are one line end. -/
def cutLines : List Char → List (List Char)
  | [] => []
  | '\r' :: '\n' :: cs => ['\r', '\n'] :: cutLines cs
  | c :: cs =>
    if isLineEnd c then [c] :: cutLines cs
    else
      match cutLines cs with
      | [] => [[c]]
      | line :: lines => (c :: line) :: lines

/-- A line of a source text, with its line end. -/
structure SourceLine where
  /-- Its number, counted from one. -/
  number : Nat
  /-- How many characters stand before it. -/
  offset : Nat
  chars : List Char

namespace SourceLine

/-- Numbers lines and finds out where they start. -/
def enumerate (number offset : Nat) : List (List Char) → List SourceLine
  | [] => []
  | cs :: rest => ⟨number, offset, cs⟩ :: enumerate (number + 1) (offset + cs.length) rest

/-- The first line of every text, as long as nothing is on it. -/
def first : SourceLine := ⟨1, 0, []⟩

/-- The lines of a text. The empty text has one, and there is none behind the last line end. -/
def ofText (cs : List Char) : List SourceLine :=
  if cs = [] then [first] else enumerate 1 0 (cutLines cs)

/-- The line that the character with the given offset is on. -/
def containing (lines : List SourceLine) (offset : Nat) : SourceLine :=
  ((lines.takeWhile (·.offset ≤ offset)).getLast?).getD first

/-- What is shown of a line: all but the white space at its end. -/
def shown (line : SourceLine) : List Char :=
  (line.chars.reverse.dropWhile isSpace).reverse

/-- How many columns the character `c` takes when it is the character number `i` of its line. -/
def charColumns (i : Nat) (c : Char) : Nat :=
  if c == '\t' then 4 - i % 4 else if isSpace c then 1 else glyphColumns c

/-- How many columns the character number `i` of a line takes. Behind the shown text every
position takes one. -/
def columns (line : SourceLine) (i : Nat) : Nat :=
  match line.shown[i]? with
  | some c => charColumns i c
  | none => 1

end SourceLine

/-- How many characters the first `bytes` bytes of a text are. -/
def charCount : (bytes : Nat) → List Char → Nat
  | 0, _ => 0
  | _, [] => 0
  | bytes, c :: cs => 1 + charCount (bytes - c.utf8Size) cs

namespace Report

/-! ## Colours -/

/-- A text in the terminal style with the given code. -/
def styled (code text : String) : String := "\x1b[" ++ code ++ "m" ++ text ++ "\x1b[0m"

/-- The style of the headline. -/
def headline : String → String := styled "31"

/-- The style of what is wrong, and of the marks on it. -/
def marked : String → String := styled "91"

/-- The style of the frame. -/
def frame : String → String := styled "38;5;246"

/-- The style of the frame where no source line is. -/
def faint : String → String := styled "38;5;240"

/-- The style of the source. -/
def plain : String → String := styled "38;5;249"

/-- A number of spaces. -/
def spaces (n : Nat) : String := String.ofList (List.replicate n ' ')

/-- A text a number of times over. -/
def repeated (n : Nat) (s : String) : String := String.join (List.replicate n s)

/-! ## Rows -/

/-- What a report is laid out from: the marked characters are those from the offset `start` up to
before `stop`, and `margin` is the width of the line numbers. -/
structure Layout where
  start : Nat
  stop : Nat
  firstLine : SourceLine
  lastLine : SourceLine

namespace Layout

/-- The layout for marking a span of a text. -/
def ofSpan (text : List Char) (span : Span) : Layout :=
  let lines := SourceLine.ofText text
  let start := charCount span.start text
  let stop := charCount span.stop text
  { start
    stop
    firstLine := .containing lines start
    lastLine := .containing lines (if start = stop then start else stop - 1) }

/-- The width of the line numbers. -/
def margin (l : Layout) : Nat := decimalLength l.lastLine.number

/-- Whether the character with the given offset is marked. -/
def isMarked (l : Layout) (offset : Nat) : Bool := l.start ≤ offset && offset < l.stop

/-- The beginning of a row without a source line. -/
def gutter (l : Layout) (bar : String) : String :=
  " " ++ faint (spaces (l.margin + 1) ++ bar) ++ " "

/-- The beginning of a row with a source line. -/
def numberedGutter (l : Layout) (line : SourceLine) : String :=
  let number := Nat.repr line.number
  " " ++ frame (spaces (l.margin - number.length) ++ number ++ " │") ++ " "

/-- The character number `i` of a line. White space is as many spaces as it takes columns. -/
def glyph (l : Layout) (line : SourceLine) (i : Nat) (c : Char) : String :=
  let style := if l.isMarked (line.offset + i) then marked else plain
  if isSpace c then repeated (SourceLine.charColumns i c) (style " ") else style c.toString

/-- A row with a source line. -/
def sourceRow (l : Layout) (line : SourceLine) (arrow : String) : String :=
  l.numberedGutter line ++ arrow ++
    String.join (line.shown.mapIdx fun i c => l.glyph line i c)

/-- A position under a source line: `mark`, filled up with `filler` to the columns it has. -/
def cell (line : SourceLine) (i : Nat) (mark filler : String) : String :=
  match line.columns i with
  | 0 => ""
  | n + 1 => mark ++ repeated n filler

/-! ## One line -/

/-- How many positions under the line are drawn: two more than the marked text reaches. -/
def reach (l : Layout) : Nat := l.stop - l.firstLine.offset + 2

/-- The position that the label hangs from. -/
def middle (l : Layout) : Nat := (l.start + l.stop) / 2 - l.firstLine.offset

/-- The underline. An empty text has none, only the line that the label hangs from. -/
def underline (l : Layout) : String :=
  String.join <| (List.range l.reach).map fun i =>
    if i = l.middle then
      if l.start < l.stop then cell l.firstLine i (marked "┬") (marked "─")
      else cell l.firstLine i (marked "│") (marked " ")
    else if l.isMarked (l.firstLine.offset + i) then
      cell l.firstLine i (marked "─") (marked "─")
    else cell l.firstLine i " " " "

/-- The line that leads to the label. -/
def leader (l : Layout) : String :=
  String.join <| (List.range l.reach).map fun i =>
    if i = l.middle then cell l.firstLine i (marked "╰") (marked "─")
    else if l.middle < i then cell l.firstLine i (marked "─") (marked "─")
    else cell l.firstLine i " " " "

/-- The rows that show marked text on one line. -/
def singleBody (l : Layout) (label : String) : List String :=
  [l.sourceRow l.firstLine "",
    l.gutter "│" ++ l.underline,
    l.gutter "│" ++ l.leader ++ " " ++ label]

/-! ## Several lines -/

/-- How many columns there are up to behind the last line. -/
def lastColumns (l : Layout) : Nat :=
  (List.range (l.lastLine.chars.length + 2)).foldl (fun n i => n + l.lastLine.columns i) 0

/-- The rows that show marked text over several lines. -/
def spanningBody (l : Layout) (label : String) : List String :=
  let arrow (corner : String) := marked corner ++ marked "─" ++ marked "▶" ++ marked " "
  let skipped :=
    if l.firstLine.number + 1 < l.lastLine.number then
      [l.gutter "┆" ++ marked "┆" ++ spaces 3]
    else []
  [l.sourceRow l.firstLine (arrow "╭")] ++ skipped ++
    [l.sourceRow l.lastLine (arrow "├"),
      l.gutter "│" ++ marked "│" ++ spaces (3 + l.lastColumns),
      l.gutter "│" ++ marked "╰" ++ repeated (3 + l.lastColumns) (marked "─") ++ " " ++ label]

end Layout

/-! ## Whole reports -/

/-- The words at the marked text. -/
def label : Diagnostic → String
  | .lexical e => s!"Error on line {e.line}"
  | .parse e =>
    match e.found with
    | none => "File ends here"
    | some _ => s!"Unexpected `{e.site.text}`"
  | .runtime e => s!"While evaluating `{e.site.text}`"

/-- The rows of the report on a diagnostic about the text `source` in the file `path`. -/
def rows (source path : String) (d : Diagnostic) : List String :=
  let l := Layout.ofSpan source.toList d.span
  let line := l.firstLine
  let indent := spaces (l.margin + 2)
  let position := s!"{path}:{line.number}:{l.start - line.offset + 1}"
  [headline ("[" ++ d.code ++ "] Error:") ++ " " ++ d.message,
    indent ++ frame "╭" ++ frame "─" ++ frame "[" ++ " " ++ position ++ " " ++ frame "]",
    indent ++ frame "│"] ++
  (if line.number = l.lastLine.number then l.singleBody (label d) else l.spanningBody (label d)) ++
  [frame (repeated (l.margin + 2) "─" ++ "╯")]

end Report

/-- The report on a diagnostic about the text `source` in the file `path`. -/
def Diagnostic.report (source path : String) (d : Diagnostic) : String :=
  unlines (Report.rows source path d)

end Lox
