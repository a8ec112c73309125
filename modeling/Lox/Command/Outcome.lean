import Lox.Command.Line
import Lox.Dump
import Lox.Expr.SExpr
import Lox.Report
import Lox.Session
import Lox.Text.Backspace

/-!
# What a command does

A command turns the text of a file, or of the standard input, into two texts and an exit code.
That is all it does, so it is a function; reading the file and writing the texts is left to
whoever starts it.

The exit codes are those of `RunStatus`, and two more: `64` for an invalid invocation, `1` for a
file that cannot be read as text.
-/

set_option autoImplicit false

namespace Lox

/-- What a finished command has written, and its exit code. -/
structure Outcome where
  code : Nat
  stdout : String
  stderr : String
deriving DecidableEq, Repr

namespace Outcome

/-- The outcome of an invalid invocation. -/
def invalidInvocation : Outcome := ⟨64, "", "invalid invocation, try --help\n"⟩

/-- The outcome when there is no such file, or no text in it. -/
def unreadable (path : String) : Outcome := ⟨1, "", s!"cannot read {path}\n"⟩

end Outcome

namespace Session

/-- The diagnostics in the form that `text` gives them. -/
def errorOutput (s : Session) (text : Diagnostic → String) : String :=
  unlines (s.diagnostics.toList.map text)

/-- The outcome of a session: what it has printed, and its diagnostics in the form that `text`
gives them. -/
def outcome (s : Session) (code : Nat) (text : Diagnostic → String) : Outcome :=
  ⟨code, s.world.output, s.errorOutput text⟩

end Session

/-! ## Files -/

/-- A token, or the end of the input, in a format. -/
def TokenFormat.token (kind : Option TokenKind) (site : Lexeme) : TokenFormat → String
  | basic => Listing.token kind site
  | line => Listing.numberedToken kind site
  | dump => Dump.token kind site

/-- A lexical error in a format. -/
def TokenFormat.error (e : LexicalError) : TokenFormat → String
  | basic => Listing.error e
  | line => Listing.numberedError e
  | dump => Dump.lexicalError e

/-- An item of a scan in a format. -/
def TokenFormat.item (format : TokenFormat) : ScanItem → String
  | .token t => format.token (some t.kind) t.lexeme
  | .error e => format.error e

/-- An expression in a format. -/
def TreeFormat.expr (e : Expr) : TreeFormat → String
  | sexpr => e.sexpr
  | dump => Dump.expr e

/-- A parse error in a format. -/
def TreeFormat.error (e : ParseError) : TreeFormat → String
  | sexpr => e.text
  | dump => Dump.parseError e

/-- A diagnostic about the text `source` in the file `path`, in a format. -/
def DiagnosticFormat.text (source path : String) : DiagnosticFormat → Diagnostic → String
  | basic => Diagnostic.text
  | pretty => Diagnostic.report source path

namespace FileTask

/-- Lists the tokens, the end of the input last. The errors go where errors go, and do not
interrupt the list. -/
def tokenizeOutcome (source : String) (format : TokenFormat) : Outcome :=
  let scan := Scan.ofString source
  { code := if scan.errors = [] then 0 else RunStatus.staticError.exitCode
    stdout := unlines <|
      scan.tokens.map (fun t => format.token (some t.kind) t.lexeme) ++
        [format.token none scan.finish]
    stderr := unlines (scan.errors.map format.error) }

/-- Shows the tree of an expression, or the error in it. Lexical errors are always shown in the
same way. -/
def parseOutcome (source : String) (format : TreeFormat) : Outcome :=
  let scan := Scan.ofString source
  if scan.errors = [] then
    match Expr.parse scan.finish scan.tokens with
    | .ok e => ⟨0, unlines [format.expr e], ""⟩
    | .error e => ⟨RunStatus.staticError.exitCode, "", unlines [format.error e]⟩
  else ⟨RunStatus.staticError.exitCode, "", unlines (scan.errors.map Listing.error)⟩

/-- Prints the value of an expression. -/
def evaluateOutcome (source : String) : Outcome :=
  match Session.initial.evaluate source with
  | (some v, s) =>
    { s.outcome 0 Diagnostic.text with stdout := s.world.output ++ unlines [v.text] }
  | (none, s) =>
    let status := if s.hadStaticError then RunStatus.staticError else .runtimeError
    s.outcome status.exitCode Diagnostic.text

/-- Runs a program. -/
def runOutcome (source path : String) (format : DiagnosticFormat) : Outcome :=
  let (status, s) := Session.initial.run source
  s.outcome status.exitCode (format.text source path)

/-- Does a task with the text `source` of the file `path`. -/
def outcome (source path : String) : FileTask → Outcome
  | tokenize format => tokenizeOutcome source format
  | parse format => parseOutcome source format
  | evaluate => evaluateOutcome source
  | run format => runOutcome source path format

end FileTask

/-! ## The interactive session -/

namespace Repl

/-- The lines of a text. The line feed that ends a line, and a carriage return before it, do not
belong to the line; a last line without an end counts if there is anything on it. -/
def lines (cs : List Char) : List (List Char) :=
  match cs with
  | [] => []
  | c :: rest =>
    let line := (c :: rest).takeWhile (· != '\n')
    match h : (c :: rest).dropWhile (· != '\n') with
    | [] => [line]
    | _ :: behind =>
      have : behind.length < (c :: rest).length := by
        have hle := ((c :: rest).dropWhile_suffix (· != '\n')).length_le
        rw [h] at hle
        exact hle
      (if line.getLast? = some '\r' then line.dropLast else line) :: lines behind
termination_by cs.length
decreasing_by exact this

/-- Runs a line as its backspaces leave it. Its errors do not end the session. -/
def step (s : Session) (line : List Char) : Session :=
  (s.run (String.ofList (applyBackspaces line))).2

/-- The session in which every line of a text has been run. -/
def session (input : String) : Session := (lines input.toList).foldl step .initial

end Repl

/-! ## Commands -/

namespace Command

/-- What is printed as help. -/
def usage : String := unlines
  ["Usage: loxide COMMAND",
    "",
    "Commands:",
    "  tokenize PATH [--format basic|line|debug]     list the tokens of a file",
    "  parse PATH [--format sexpr|debug]             show the tree of an expression",
    "  evaluate PATH                                 print the value of an expression",
    "  run PATH [--diagnostics basic|pretty]         run a program",
    "  repl                                          run programs line by line",
    "  help [COMMAND]                                print this"]

/-- What is printed as the version. -/
def versionText : String := "loxide 0.1.0\n"

/-- What a command does with the standard input `input`, where `file?` has the texts of the files
that can be read. -/
def outcome (file? : String → Option String) (input : String) : Command → Outcome
  | help => ⟨0, usage, ""⟩
  | version => ⟨0, versionText, ""⟩
  | repl => (Repl.session input).outcome 0 Diagnostic.text
  | onFile path task =>
    match file? path with
    | some source => task.outcome source path
    | none => .unreadable path

end Command

/-- What an invocation with the given arguments does. -/
def Outcome.ofArguments (file? : String → Option String) (input : String) (args : List String) :
    Outcome :=
  match Command.ofArguments? args with
  | some command => command.outcome file? input
  | none => .invalidInvocation

end Lox
