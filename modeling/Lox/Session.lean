import Lox.Diagnostic
import Lox.Parse.Program

/-!
# Sessions

A session takes source texts one after the other. What one of them binds the next can use; what
has been printed and what has been reported accumulates. Scanning and parsing start afresh with
every text.

**A program with a static error is not executed at all,** not even the part before the error. All
of its static errors are reported, the lexical ones first. An execution has at most one error,
since it ends there.

A single expression can be evaluated instead of a program. It is not parsed if it has a lexical
error, and so it has at most one parse error.
-/

set_option autoImplicit false

namespace Lox

/-- How a run ended. -/
inductive RunStatus where
  | success
  | staticError
  | runtimeError
deriving DecidableEq, Repr

/-- The exit code that says how a run ended. -/
def RunStatus.exitCode : RunStatus → Nat
  | success => 0
  | staticError => 65
  | runtimeError => 70

/-- Everything that has come of the source texts so far. -/
structure Session where
  world : World
  diagnostics : Array Diagnostic
  /-- Whether a static error has been reported. -/
  hadStaticError : Bool
  /-- Whether a failed execution has been reported. -/
  hadRuntimeError : Bool

namespace Session

/-- The beginning of a session. -/
def initial : Session := ⟨.initial, #[], false, false⟩

/-- Reports an error that was found before anything was executed. -/
def reportStatic (s : Session) (d : Diagnostic) : Session :=
  { s with diagnostics := s.diagnostics.push d, hadStaticError := true }

/-- Reports a failed execution. -/
def reportRuntime (s : Session) (e : RuntimeError) : Session :=
  { s with diagnostics := s.diagnostics.push (.runtime e), hadRuntimeError := true }

/-- Reports one diagnostic. -/
def reportOne (s : Session) : Diagnostic → Session
  | .lexical e => s.reportStatic (.lexical e)
  | .parse e => s.reportStatic (.parse e)
  | .runtime e => s.reportRuntime e

/-- Reports diagnostics one after the other. -/
def report (s : Session) (ds : List Diagnostic) : Session := ds.foldl reportOne s

/-- What of the session `after` was not there yet in the session `before` it: the bindings and
flags are those of `after`, and the lines and diagnostics those that were added. -/
def added (before after : Session) : Session :=
  { after with
    world :=
      { after.world with
        lines := after.world.lines.extract before.world.lines.size after.world.lines.size }
    diagnostics := after.diagnostics.extract before.diagnostics.size after.diagnostics.size }

/-- Runs a program. -/
def run (s : Session) (source : String) : RunStatus × Session :=
  let scan := Scan.ofString source
  let lexical := scan.errors.map Diagnostic.lexical
  match Program.parse scan.finish scan.tokens with
  | .error errors => (.staticError, s.report (lexical ++ errors.map .parse))
  | .ok program =>
    if lexical = [] then
      match program.exec s.world with
      | .ok () world => (.success, { s with world })
      | .error e world => (.runtimeError, { s with world }.report [.runtime e])
    else (.staticError, s.report lexical)

/-- Evaluates the expression that a source text begins with. There is no value if there is any
error. -/
def evaluate (s : Session) (source : String) : Option Value × Session :=
  let scan := Scan.ofString source
  if scan.errors = [] then
    match Expr.parse scan.finish scan.tokens with
    | .error e => (none, s.report [.parse e])
    | .ok expr =>
      match expr.evalIn s.world with
      | .ok v world => (some v, { s with world })
      | .error e world => (none, { s with world }.report [.runtime e])
  else (none, s.report (scan.errors.map .lexical))

/-! ## What a report changes -/

@[simp] theorem world_report (s : Session) (ds : List Diagnostic) :
    (s.report ds).world = s.world := by
  induction ds generalizing s with
  | nil => rfl
  | cons d ds ih => cases d <;> exact ih _

@[simp] theorem diagnostics_report (s : Session) (ds : List Diagnostic) :
    (s.report ds).diagnostics = s.diagnostics ++ ds.toArray := by
  induction ds generalizing s with
  | nil => simp [report]
  | cons d ds ih =>
    rw [report, List.foldl_cons, ← report, ih]
    cases d <;> simp [reportOne, reportStatic, reportRuntime]

/-- The one flag is set by the static errors of a report. -/
theorem hadStaticError_report (s : Session) (ds : List Diagnostic) :
    (s.report ds).hadStaticError = (s.hadStaticError || ds.any (·.isStatic)) := by
  induction ds generalizing s with
  | nil => simp [report]
  | cons d ds ih =>
    rw [report, List.foldl_cons, ← report, ih, List.any_cons, ← Bool.or_assoc]
    cases d <;> simp [reportOne, reportStatic, reportRuntime, Diagnostic.isStatic]

/-- The other is set by its failed executions. -/
theorem hadRuntimeError_report (s : Session) (ds : List Diagnostic) :
    (s.report ds).hadRuntimeError = (s.hadRuntimeError || ds.any (!·.isStatic)) := by
  induction ds generalizing s with
  | nil => simp [report]
  | cons d ds ih =>
    rw [report, List.foldl_cons, ← report, ih, List.any_cons, ← Bool.or_assoc]
    cases d <;> simp [reportOne, reportStatic, reportRuntime, Diagnostic.isStatic]

end Session

end Lox
