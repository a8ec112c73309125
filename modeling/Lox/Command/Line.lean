/-!
# The command line

What can be asked of the program, and how it is asked: a subcommand, and behind it a path and
perhaps an option, in any order.

Arguments are read from left to right and the first that settles the matter does so: a request for
help counts even if nothing else is complete, but not if something before it is wrong already.
-/

set_option autoImplicit false

namespace Lox

/-- How tokens are listed. -/
inductive TokenFormat where
  | basic
  | line
  | dump
deriving DecidableEq, Repr

/-- How a tree is shown. -/
inductive TreeFormat where
  | sexpr
  | dump
deriving DecidableEq, Repr

/-- How diagnostics are shown. -/
inductive DiagnosticFormat where
  | basic
  | pretty
deriving DecidableEq, Repr

/-- What can be done with a source file. -/
inductive FileTask where
  | tokenize (format : TokenFormat)
  | parse (format : TreeFormat)
  | evaluate
  | run (format : DiagnosticFormat)
deriving DecidableEq, Repr

/-- What the program is asked to do. -/
inductive Command where
  | help
  | version
  | repl
  | onFile (path : String) (task : FileTask)
deriving DecidableEq, Repr

namespace Command

/-! ## Arguments of a subcommand -/

/-- An option that takes one out of several values. -/
structure Choice (α : Type) where
  /-- Its name, without the dashes. -/
  name : String
  values : List (String × α)

/-- What the arguments of a subcommand can be. -/
structure Parameters (α : Type) where
  hasPath : Bool
  choices : List (Choice α)

/-- What has been read of the arguments so far. -/
structure Given (α : Type) where
  path : Option String
  choice : Option α

/-- Why reading stops before the last argument. -/
inductive Stop where
  | helpWanted
  | invalid
deriving DecidableEq, Repr

namespace Given

variable {α : Type}

/-- Nothing has been read. -/
def nothing : Given α := ⟨none, none⟩

/-- Takes an argument as the path. There is at most one path, and it is not empty. -/
def addPath (ps : Parameters α) (g : Given α) (arg : String) : Except Stop (Given α) :=
  if ps.hasPath ∧ g.path = none ∧ arg ≠ "" then .ok { g with path := some arg }
  else .error .invalid

/-- Takes a value for the named option, which must exist and not have a value yet. -/
def addChoice (ps : Parameters α) (g : Given α) (name value : String) : Except Stop (Given α) :=
  match ps.choices.find? (·.name == name), g.choice with
  | some c, none =>
    match c.values.lookup value with
    | some v => .ok { g with choice := some v }
    | none => .error .invalid
  | _, _ => .error .invalid

/-- Reads arguments none of which is an option, because they stand behind a double dash. -/
def readPaths (ps : Parameters α) (g : Given α) : List String → Except Stop (Given α)
  | [] => .ok g
  | arg :: args =>
    match g.addPath ps arg with
    | .ok g => readPaths ps g args
    | .error stop => .error stop

/-- Reads the arguments of a subcommand. The value of an option is behind an equals sign, or is
the argument that follows. -/
def read (ps : Parameters α) (g : Given α) : List String → Except Stop (Given α)
  | [] => .ok g
  | arg :: args =>
    match arg.toList with
    | ['-', '-'] => readPaths ps g args
    | '-' :: '-' :: long =>
      if arg = "--help" then .error .helpWanted
      else
        let name := String.ofList (long.takeWhile (· != '='))
        match long.dropWhile (· != '='), args with
        | _ :: value, rest =>
          match g.addChoice ps name (String.ofList value) with
          | .ok g => read ps g rest
          | .error stop => .error stop
        | [], value :: rest =>
          match g.addChoice ps name value with
          | .ok g => read ps g rest
          | .error stop => .error stop
        | [], [] => .error .invalid
    | '-' :: 'h' :: _ => .error .helpWanted
    | '-' :: _ :: _ => .error .invalid
    | _ =>
      match g.addPath ps arg with
      | .ok g => read ps g args
      | .error stop => .error stop

end Given

/-- The command for the arguments of a subcommand: help if it is wanted, and else what `make`
makes of what was given. Without an answer the invocation is invalid. -/
def ofParameters? {α : Type} (ps : Parameters α) (make : Given α → Option Command)
    (args : List String) : Option Command :=
  match Given.nothing.read ps args with
  | .error .helpWanted => some .help
  | .error .invalid => none
  | .ok g => make g

/-! ## Subcommands -/

/-- The parameters of `tokenize`. -/
def tokenizeParameters : Parameters TokenFormat :=
  ⟨true, [⟨"format", [("basic", .basic), ("line", .line), ("debug", .dump)]⟩]⟩

/-- The parameters of `parse`. -/
def parseParameters : Parameters TreeFormat :=
  ⟨true, [⟨"format", [("sexpr", .sexpr), ("debug", .dump)]⟩]⟩

/-- The parameters of `evaluate`. -/
def evaluateParameters : Parameters Unit := ⟨true, []⟩

/-- The parameters of `run`. -/
def runParameters : Parameters DiagnosticFormat :=
  ⟨true, [⟨"diagnostics", [("basic", .basic), ("pretty", .pretty)]⟩]⟩

/-- The parameters of `repl`. -/
def replParameters : Parameters Unit := ⟨false, []⟩

/-- A task on the file that was given. -/
def onGivenPath {α : Type} (task : Option α → FileTask) (g : Given α) : Option Command :=
  g.path.map (.onFile · (task g.choice))

/-- The names of the subcommands. -/
def subcommandNames : List String := ["tokenize", "parse", "evaluate", "run", "repl", "help"]

/-- The command that a list of arguments asks for, or nothing if the invocation is invalid. -/
def ofArguments? : List String → Option Command
  | "tokenize" :: args =>
    ofParameters? tokenizeParameters (onGivenPath fun c => .tokenize (c.getD .basic)) args
  | "parse" :: args =>
    ofParameters? parseParameters (onGivenPath fun c => .parse (c.getD .sexpr)) args
  | "evaluate" :: args => ofParameters? evaluateParameters (onGivenPath fun _ => .evaluate) args
  | "run" :: args =>
    ofParameters? runParameters (onGivenPath fun c => .run (c.getD .basic)) args
  | "repl" :: args => ofParameters? replParameters (fun _ => some .repl) args
  | ["help"] => some .help
  | ["help", name] => if name ∈ subcommandNames then some .help else none
  | "--help" :: _ => some .help
  | "--version" :: _ => some .version
  | arg :: _ =>
    match arg.toList with
    | '-' :: 'h' :: _ => some .help
    | '-' :: 'V' :: _ => some .version
    | _ => none
  | [] => none

end Command

end Lox
