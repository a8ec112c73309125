import Lox.Command.Outcome

/-!
# The program

Reads what a command needs, has its outcome computed, and writes that.
-/

set_option autoImplicit false

namespace Lox

/-- The text of a file, if the file can be read and holds text. -/
def readText? (path : String) : IO (Option String) := do
  match ← (IO.FS.readBinFile path).toBaseIO with
  | .ok bytes => return String.fromUTF8? bytes
  | .error _ => return none

/-- Runs the lines of the standard input in a session, and writes what each has printed and
reported before it reads the next. -/
partial def interact (input : IO.FS.Stream) (s : Session) : IO Unit := do
  match Repl.lines (← input.getLine).toList with
  | [] => return ()
  | line :: _ =>
    let after := Repl.step s line
    let added := s.added after
    IO.print added.world.output
    IO.eprint (added.errorOutput Diagnostic.text)
    interact input after

end Lox

/-- Starts the program. -/
def main (args : List String) : IO UInt32 := do
  match Lox.Command.ofArguments? args with
  | some .repl =>
    Lox.interact (← IO.getStdin) .initial
    return 0
  | command? =>
    let source? ← match command? with
      | some (.onFile path _) => Lox.readText? path
      | _ => pure none
    let outcome := Lox.Outcome.ofArguments (fun _ => source?) "" args
    IO.print outcome.stdout
    IO.eprint outcome.stderr
    return outcome.code.toUInt32
