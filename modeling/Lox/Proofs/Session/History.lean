import Lox.Proofs.Session.Pieces

/-!
# What a session keeps account of

Every call of a session, whether it runs a program or evaluates an expression, has a static phase
and a dynamic one. The static phase looks at the source text only, and if it finds an error it is
all there is: the errors are reported, and nothing else happens. The dynamic phase looks at the
world only, and has at most one error. So a call either reports static errors, or one runtime
error, or nothing, and which of the three it is can be told from its answer.

What a whole history of calls leads to follows from that step by step. In particular a call with a
static error leaves no trace but its report (`Session.serveAll_filter_world`).
-/

set_option autoImplicit false

namespace Lox

/-! ## Static errors -/

/-- The lexical errors of a source text, in order. -/
def lexicalErrors (source : String) : List Diagnostic :=
  (Scan.ofString source).errors.map .lexical

/-- The errors that the parser finds in a program, in order. -/
def parseErrors (source : String) : List Diagnostic :=
  match Program.parse (Scan.ofString source).finish (Scan.ofString source).tokens with
  | .ok _ => []
  | .error errors => errors.map .parse

/-- Everything that is wrong with a program before it is executed. -/
def staticErrors (source : String) : List Diagnostic :=
  lexicalErrors source ++ parseErrors source

theorem lexicalErrors_eq_nil_iff {source : String} :
    lexicalErrors source = [] ↔ (Scan.ofString source).errors = [] :=
  List.map_eq_nil_iff

theorem runtime_not_mem_staticErrors (source : String) (e : RuntimeError) :
    .runtime e ∉ staticErrors source := by
  unfold staticErrors lexicalErrors parseErrors
  split <;> simp

/-- A source text is a program, or something is wrong with it. -/
theorem staticErrors_eq_nil_iff {source : String} :
    staticErrors source = [] ↔ ∃ p, ReadsAs source p := by
  rw [staticErrors, List.append_eq_nil_iff, lexicalErrors_eq_nil_iff, parseErrors]
  constructor
  · rintro ⟨hlexical, hparse⟩
    split at hparse
    · rename_i p hok
      exact ⟨p, hlexical, hok⟩
    · rename_i errors herror
      exact absurd (List.map_eq_nil_iff.mp hparse) (Program.parse_eq_error_iff.mp herror).2
  · rintro ⟨p, hlexical, hok⟩
    exact ⟨hlexical, by rw [hok]⟩

/-- A source text is one program at most. -/
theorem ReadsAs.unique {source : String} {p p' : Program} (h : ReadsAs source p)
    (h' : ReadsAs source p') : p = p' :=
  Except.ok.inj (h.parse.symm.trans h'.parse)

namespace Session

/-! ## One run -/

theorem run_of_staticErrors (s : Session) {source : String} (h : staticErrors source ≠ []) :
    s.run source = (.staticError, s.report (staticErrors source)) := by
  unfold run
  dsimp only
  split
  · rename_i errors herror
    rw [staticErrors, parseErrors, herror]
    rfl
  · rename_i p hok
    split
    · rename_i hnil
      exact absurd (staticErrors_eq_nil_iff.mpr ⟨p, List.map_eq_nil_iff.mp hnil, hok⟩) h
    · rw [staticErrors, parseErrors, hok, List.append_nil]
      rfl

/-- A run has static errors or executes a program. -/
theorem run_cases (s : Session) (source : String) :
    (staticErrors source ≠ [] ∧ s.run source = (.staticError, s.report (staticErrors source))) ∨
      ∃ p, ReadsAs source p ∧ s.run source = s.ofOutcome (p.exec s.world) := by
  by_cases h : staticErrors source = []
  · obtain ⟨p, hp⟩ := staticErrors_eq_nil_iff.mp h
    exact .inr ⟨p, hp, run_of_readsAs s hp⟩
  · exact .inl ⟨h, run_of_staticErrors s h⟩

/-- Executing the program `source` fails with the error `e`. -/
def ExecFails (s : Session) (source : String) (e : RuntimeError) : Prop :=
  ∃ p world, ReadsAs source p ∧ p.exec s.world = .error e world

/-- What a run's status says of what has been reported and executed. -/
structure RunAccount (s : Session) (source : String) : Prop where
  staticError_iff : (s.run source).1 = .staticError ↔ staticErrors source ≠ []
  runtimeError_iff : (s.run source).1 = .runtimeError ↔
    staticErrors source = [] ∧ ∃ e, s.ExecFails source e
  success_iff : (s.run source).1 = .success ↔
    staticErrors source = [] ∧ ¬ ∃ e, s.ExecFails source e
  of_staticError : (s.run source).1 = .staticError →
    (s.run source).2.diagnostics = s.diagnostics ++ (staticErrors source).toArray ∧
      (s.run source).2.world = s.world
  of_runtimeError : (s.run source).1 = .runtimeError →
    ∃ e, s.ExecFails source e ∧ (s.run source).2.diagnostics = s.diagnostics ++ #[.runtime e]
  of_success : (s.run source).1 = .success → (s.run source).2.diagnostics = s.diagnostics

theorem runAccount (s : Session) (source : String) : RunAccount s source := by
  rcases run_cases s source with ⟨hne, hrun⟩ | ⟨p, hp, hrun⟩
  · have hstatus : (s.run source).1 = .staticError := by rw [hrun]
    exact {
      staticError_iff := iff_of_true hstatus hne
      runtimeError_iff := by simp [hstatus, hne]
      success_iff := by simp [hstatus, hne]
      of_staticError := fun _ => by
        rw [hrun]
        exact ⟨diagnostics_report .., world_report ..⟩
      of_runtimeError := by simp [hstatus]
      of_success := by simp [hstatus] }
  · have hnil : staticErrors source = [] := staticErrors_eq_nil_iff.mpr ⟨p, hp⟩
    cases hexec : p.exec s.world with
    | ok u world =>
      rw [hexec] at hrun
      have hstatus : (s.run source).1 = .success := by rw [hrun]; rfl
      have hnot : ¬ ∃ e, s.ExecFails source e := by
        rintro ⟨e, p', world', hp', hfails⟩
        rw [hp'.unique hp, hexec] at hfails
        cases hfails
      exact {
        staticError_iff := by simp [hstatus, hnil]
        runtimeError_iff := by simp [hstatus, hnot]
        success_iff := iff_of_true hstatus ⟨hnil, hnot⟩
        of_staticError := by simp [hstatus]
        of_runtimeError := by simp [hstatus]
        of_success := fun _ => by rw [hrun]; rfl }
    | error e world =>
      rw [hexec] at hrun
      have hstatus : (s.run source).1 = .runtimeError := by rw [hrun]; rfl
      have hfails : s.ExecFails source e := ⟨p, world, hp, hexec⟩
      exact {
        staticError_iff := by simp [hstatus, hnil]
        runtimeError_iff := iff_of_true hstatus ⟨hnil, e, hfails⟩
        success_iff := iff_of_false (by simp [hstatus]) fun h => h.2 ⟨e, hfails⟩
        of_staticError := by simp [hstatus]
        of_runtimeError := fun _ => ⟨e, hfails, by rw [hrun]; rfl⟩
        of_success := by simp [hstatus] }

/-! ## One evaluation -/

/-- The source text begins with the expression `e`, and there are no lexical errors in it. -/
structure ReadsAsExpr (source : String) (e : Expr) : Prop where
  errors : lexicalErrors source = []
  parse : Expr.parse (Scan.ofString source).finish (Scan.ofString source).tokens = .ok e

/-- What is wrong with an expression before it is evaluated. -/
def expressionErrors (source : String) : List Diagnostic :=
  if lexicalErrors source = [] then
    match Expr.parse (Scan.ofString source).finish (Scan.ofString source).tokens with
    | .ok _ => []
    | .error e => [.parse e]
  else lexicalErrors source

/-- It is the lexical errors, or if there are none one parse error, or if there is none nothing. -/
theorem expressionErrors_cases (source : String) :
    (lexicalErrors source ≠ [] ∧ expressionErrors source = lexicalErrors source) ∨
      (lexicalErrors source = [] ∧ ∃ e,
        Expr.parse (Scan.ofString source).finish (Scan.ofString source).tokens = .error e ∧
          expressionErrors source = [.parse e]) ∨
      ((∃ e, ReadsAsExpr source e) ∧ expressionErrors source = []) := by
  unfold expressionErrors
  by_cases hlexical : lexicalErrors source = []
  · rw [if_pos hlexical]
    cases hparse : Expr.parse (Scan.ofString source).finish (Scan.ofString source).tokens with
    | ok e => exact .inr (.inr ⟨⟨e, hlexical, hparse⟩, rfl⟩)
    | error e => exact .inr (.inl ⟨hlexical, e, rfl, rfl⟩)
  · exact .inl ⟨hlexical, if_neg hlexical⟩

theorem expressionErrors_eq_nil_iff {source : String} :
    expressionErrors source = [] ↔ ∃ e, ReadsAsExpr source e := by
  rcases expressionErrors_cases source with
    ⟨hlexical, heq⟩ | ⟨-, err, hparse, heq⟩ | ⟨hread, heq⟩
  · exact iff_of_false (by rwa [heq]) fun ⟨e, he⟩ => hlexical he.errors
  · refine iff_of_false (by simp [heq]) fun ⟨e, he⟩ => ?_
    rw [he.parse] at hparse
    cases hparse
  · exact iff_of_true heq hread

/-- What is left of an evaluation in the session it was made in. -/
def ofEvaluation (s : Session) : EStateM.Result RuntimeError World Value → Option Value × Session
  | .ok v world => (some v, { s with world })
  | .error e world => (none, { s with world }.report [.runtime e])

theorem evaluate_of_expressionErrors (s : Session) {source : String}
    (h : expressionErrors source ≠ []) :
    s.evaluate source = (none, s.report (expressionErrors source)) := by
  unfold evaluate
  rcases expressionErrors_cases source with
    ⟨hlexical, heq⟩ | ⟨hlexical, e, hparse, heq⟩ | ⟨-, hnil⟩
  · rw [heq]
    exact if_neg (mt lexicalErrors_eq_nil_iff.mpr hlexical)
  · dsimp only
    rw [heq, if_pos (lexicalErrors_eq_nil_iff.mp hlexical), hparse]
  · exact absurd hnil h

theorem evaluate_of_readsAsExpr (s : Session) {source : String} {e : Expr}
    (h : ReadsAsExpr source e) : s.evaluate source = s.ofEvaluation (e.evalIn s.world) := by
  unfold evaluate
  dsimp only
  rw [if_pos (lexicalErrors_eq_nil_iff.mp h.errors), h.parse]
  cases hrun : e.evalIn s.world with
  | ok v world => simp only [hrun, ofEvaluation]
  | error e world => simp only [hrun, ofEvaluation]

/-- Evaluating the expression `source` fails with the error `e`. -/
def EvalFails (s : Session) (source : String) (e : RuntimeError) : Prop :=
  ∃ expr world, ReadsAsExpr source expr ∧ expr.evalIn s.world = .error e world

/-- What an evaluation's answer says of what has been reported and computed. -/
structure EvaluateAccount (s : Session) (source : String) : Prop where
  none_iff : (s.evaluate source).1 = none ↔ (s.evaluate source).2.diagnostics ≠ s.diagnostics
  of_none : (s.evaluate source).1 = none →
    (lexicalErrors source ≠ [] ∧
        (s.evaluate source).2.diagnostics = s.diagnostics ++ (lexicalErrors source).toArray ∧
        (s.evaluate source).2.world = s.world) ∨
      (lexicalErrors source = [] ∧ ∃ e,
        Expr.parse (Scan.ofString source).finish (Scan.ofString source).tokens = .error e ∧
        (s.evaluate source).2.diagnostics = s.diagnostics ++ #[.parse e] ∧
        (s.evaluate source).2.world = s.world) ∨
      ∃ e, s.EvalFails source e ∧
        (s.evaluate source).2.diagnostics = s.diagnostics ++ #[.runtime e]

theorem evaluateAccount (s : Session) (source : String) : EvaluateAccount s source := by
  rcases expressionErrors_cases source with
    ⟨hlexical, heq⟩ | ⟨hlexical, e, hparse, heq⟩ | ⟨⟨expr, hexpr⟩, -⟩
  · have hne : expressionErrors source ≠ [] := by rwa [heq]
    have hrun := evaluate_of_expressionErrors s hne
    rw [heq] at hrun
    constructor
    · simp [hrun, hlexical]
    · intro _
      rw [hrun]
      exact .inl ⟨hlexical, diagnostics_report .., world_report ..⟩
  · have hne : expressionErrors source ≠ [] := by simp [heq]
    have hrun := evaluate_of_expressionErrors s hne
    rw [heq] at hrun
    constructor
    · simp [hrun]
    · intro _
      rw [hrun]
      exact .inr (.inl ⟨hlexical, e, hparse, rfl, rfl⟩)
  · have hrun := evaluate_of_readsAsExpr s hexpr
    cases heval : expr.evalIn s.world with
    | ok v world =>
      rw [heval] at hrun
      constructor
      · simp [hrun, ofEvaluation]
      · intro hnone
        rw [hrun] at hnone
        cases hnone
    | error e world =>
      rw [heval] at hrun
      constructor
      · simp [hrun, ofEvaluation]
      · intro _
        rw [hrun]
        exact .inr (.inr ⟨e, ⟨expr, world, hexpr, heval⟩, rfl⟩)

/-! ## Calls and histories -/

/-- What can be asked of a session. -/
inductive Call where
  | run (source : String)
  | evaluate (source : String)

/-- What a session answers. -/
inductive Answer where
  | status (status : RunStatus)
  | value (value : Option Value)

/-- What is wrong with the source text of a call before anything is computed. -/
def Call.errors : Call → List Diagnostic
  | run source => staticErrors source
  | evaluate source => expressionErrors source

theorem runtime_not_mem_expressionErrors (source : String) (e : RuntimeError) :
    .runtime e ∉ expressionErrors source := by
  unfold expressionErrors lexicalErrors
  split
  · split <;> simp
  · simp

/-- What is wrong with a source text is found before anything is executed. -/
theorem Call.runtime_not_mem_errors (call : Call) (e : RuntimeError) :
    .runtime e ∉ call.errors := by
  cases call with
  | run source => exact runtime_not_mem_staticErrors source e
  | evaluate source => exact runtime_not_mem_expressionErrors source e

theorem Call.isStatic_of_mem_errors {call : Call} {d : Diagnostic} (h : d ∈ call.errors) :
    d.isStatic = true := by
  cases d with
  | lexical e | parse e => rfl
  | runtime e => exact absurd h (call.runtime_not_mem_errors e)

theorem Call.any_isStatic_errors (call : Call) (h : call.errors ≠ []) :
    call.errors.any (·.isStatic) = true := by
  obtain ⟨d, hd⟩ := List.exists_mem_of_ne_nil _ h
  exact List.any_eq_true.mpr ⟨d, hd, isStatic_of_mem_errors hd⟩

/-- Makes a call. -/
def serve (s : Session) : Call → Answer × Session
  | .run source => (.status (s.run source).1, (s.run source).2)
  | .evaluate source => (.value (s.evaluate source).1, (s.evaluate source).2)

/-- Makes calls one after the other. -/
def serveAll (s : Session) (history : List Call) : Session :=
  history.foldl (fun s call => (s.serve call).2) s

theorem serve_of_errors (s : Session) {call : Call} (h : call.errors ≠ []) :
    (s.serve call).2 = s.report call.errors := by
  cases call with
  | run source => exact congrArg Prod.snd (run_of_staticErrors s h)
  | evaluate source => exact congrArg Prod.snd (evaluate_of_expressionErrors s h)

/-- Two calls with the same answer, that report the same and lead to the same world. -/
structure SameReply (s s' : Session) (reply reply' : Answer × Session) : Prop where
  answer : reply.1 = reply'.1
  world : reply.2.world = reply'.2.world
  diagnostics : ∃ found : List Diagnostic, reply.2.diagnostics = s.diagnostics ++ found.toArray ∧
    reply'.2.diagnostics = s'.diagnostics ++ found.toArray

/-- The same static errors are reported. -/
theorem sameReply_report {s s' : Session} (answer : Answer) (h : s.world = s'.world)
    (ds : List Diagnostic) : SameReply s s' (answer, s.report ds) (answer, s'.report ds) :=
  ⟨rfl, by simpa using h, ds, diagnostics_report .., diagnostics_report ..⟩

/-- A call does not depend on what has been reported before. -/
theorem serve_congr {s s' : Session} (h : s.world = s'.world) (call : Call) :
    SameReply s s' (s.serve call) (s'.serve call) := by
  cases call with
  | run source =>
    by_cases hnil : staticErrors source = []
    · obtain ⟨p, hp⟩ := staticErrors_eq_nil_iff.mp hnil
      rw [serve, serve, run_of_readsAs s hp, run_of_readsAs s' hp, h]
      cases p.exec s'.world with
      | ok u world => exact ⟨rfl, rfl, [], by simp [ofOutcome], by simp [ofOutcome]⟩
      | error e world => exact ⟨rfl, rfl, [.runtime e], rfl, rfl⟩
    · rw [serve, serve, run_of_staticErrors s hnil, run_of_staticErrors s' hnil]
      exact sameReply_report _ h _
  | evaluate source =>
    by_cases hnil : expressionErrors source = []
    · obtain ⟨e, he⟩ := expressionErrors_eq_nil_iff.mp hnil
      rw [serve, serve, evaluate_of_readsAsExpr s he, evaluate_of_readsAsExpr s' he, h]
      cases e.evalIn s'.world with
      | ok v world => exact ⟨rfl, rfl, [], by simp [ofEvaluation], by simp [ofEvaluation]⟩
      | error e world => exact ⟨rfl, rfl, [.runtime e], rfl, rfl⟩
    · rw [serve, serve, evaluate_of_expressionErrors s hnil, evaluate_of_expressionErrors s' hnil]
      exact sameReply_report _ h _

/-- What a call adds to a session. -/
def adds (s : Session) (call : Call) : Session := s.added (s.serve call).2

theorem adds_diagnostics_of_eq {s : Session} {call : Call} {ds : Array Diagnostic}
    (h : (s.serve call).2.diagnostics = s.diagnostics ++ ds) :
    (s.adds call).diagnostics = ds := by
  simp [adds, added, h]

/-! ## What a call reports -/

/-- The execution or evaluation that a call asks for fails with the error `e`. -/
def Fails (s : Session) : Call → RuntimeError → Prop
  | .run source, e => s.ExecFails source e
  | .evaluate source, e => s.EvalFails source e

/-- Something is wrong with the source text of a call, and all of that is reported. -/
def ReportsStatic (s : Session) (call : Call) : Prop :=
  call.errors ≠ [] ∧ (s.serve call).2.diagnostics = s.diagnostics ++ call.errors.toArray

/-- The execution or evaluation that a call asks for fails, and that is reported. -/
def ReportsRuntime (s : Session) (call : Call) : Prop :=
  ∃ e, s.Fails call e ∧ (s.serve call).2.diagnostics = s.diagnostics ++ #[.runtime e]

theorem errors_eq_nil_of_fails {s : Session} {call : Call} {e : RuntimeError}
    (h : s.Fails call e) : call.errors = [] := by
  cases call with
  | run source =>
    obtain ⟨p, -, hp, -⟩ := h
    exact staticErrors_eq_nil_iff.mpr ⟨p, hp⟩
  | evaluate source =>
    obtain ⟨expr, -, hexpr, -⟩ := h
    exact expressionErrors_eq_nil_iff.mpr ⟨expr, hexpr⟩

/-- A call with nothing wrong in its source text reports nothing, or one failure. -/
theorem serve_of_errors_eq_nil (s : Session) {call : Call} (h : call.errors = []) :
    ((∀ e, ¬ s.Fails call e) ∧ ∃ world, (s.serve call).2 = { s with world }) ∨
      ∃ e world, s.Fails call e ∧ (s.serve call).2 = { s with world }.report [.runtime e] := by
  cases call with
  | run source =>
    obtain ⟨p, hp⟩ := staticErrors_eq_nil_iff.mp h
    rw [serve, run_of_readsAs s hp]
    cases hexec : p.exec s.world with
    | ok u world =>
      refine .inl ⟨?_, world, rfl⟩
      rintro e ⟨p', world', hp', hfails⟩
      rw [hp'.unique hp, hexec] at hfails
      cases hfails
    | error e world => exact .inr ⟨e, world, ⟨p, world, hp, hexec⟩, rfl⟩
  | evaluate source =>
    obtain ⟨expr, hexpr⟩ := expressionErrors_eq_nil_iff.mp h
    rw [serve, evaluate_of_readsAsExpr s hexpr]
    cases heval : expr.evalIn s.world with
    | ok v world =>
      refine .inl ⟨?_, world, rfl⟩
      rintro e ⟨expr', world', hexpr', hfails⟩
      rw [Except.ok.inj (hexpr'.parse.symm.trans hexpr.parse), heval] at hfails
      cases hfails
    | error e world => exact .inr ⟨e, world, ⟨expr, world, hexpr, heval⟩, rfl⟩

/-- The flag of the static errors is set by a call that reports some, and never taken back. -/
theorem hadStaticError_serve (s : Session) (call : Call) :
    (s.serve call).2.hadStaticError = true ↔ s.hadStaticError = true ∨ s.ReportsStatic call := by
  by_cases hnil : call.errors = []
  · have hnot : ¬ s.ReportsStatic call := fun h => h.1 hnil
    rw [or_iff_left hnot]
    obtain ⟨-, world, heq⟩ | ⟨e, world, -, heq⟩ := s.serve_of_errors_eq_nil hnil
    · rw [heq]
    · rw [heq, hadStaticError_report]
      simp [Diagnostic.isStatic]
  · have hserve := s.serve_of_errors hnil
    have hreports : s.ReportsStatic call := ⟨hnil, by rw [hserve, diagnostics_report]⟩
    rw [hserve, hadStaticError_report, call.any_isStatic_errors hnil]
    simp [hreports]

/-- The flag of the failures is set by a call that reports one, and never taken back. -/
theorem hadRuntimeError_serve (s : Session) (call : Call) :
    (s.serve call).2.hadRuntimeError = true ↔
      s.hadRuntimeError = true ∨ s.ReportsRuntime call := by
  by_cases hnil : call.errors = []
  · obtain ⟨hnone, world, heq⟩ | ⟨e, world, hfails, heq⟩ := s.serve_of_errors_eq_nil hnil
    · have hnot : ¬ s.ReportsRuntime call := fun ⟨e, hfails, _⟩ => hnone e hfails
      rw [or_iff_left hnot, heq]
    · have hreports : s.ReportsRuntime call := ⟨e, hfails, by rw [heq, diagnostics_report]⟩
      rw [heq, hadRuntimeError_report]
      simp [hreports, Diagnostic.isStatic]
  · have hnot : ¬ s.ReportsRuntime call :=
      fun ⟨e, hfails, _⟩ => hnil (errors_eq_nil_of_fails hfails)
    have hnone : call.errors.any (!·.isStatic) = false := by
      rw [List.any_eq_false]
      intro d hd
      simp [Call.isStatic_of_mem_errors hd]
    rw [or_iff_left hnot, s.serve_of_errors hnil, hadRuntimeError_report, hnone, Bool.or_false]

/-! ## Histories -/

/-- A call of a history is the first one or one of the others. -/
theorem exists_call_cons {P : List Call → Call → Prop} {first : Call} {rest : List Call} :
    (∃ before call later, first :: rest = before ++ call :: later ∧ P before call) ↔
      P [] first ∨
        ∃ before call later, rest = before ++ call :: later ∧ P (first :: before) call := by
  constructor
  · rintro ⟨before, call, later, heq, hcall⟩
    cases before with
    | nil =>
      cases heq
      exact .inl hcall
    | cons _ before =>
      cases heq
      exact .inr ⟨before, call, later, rfl, hcall⟩
  · rintro (hfirst | ⟨before, call, later, rfl, hcall⟩)
    · exact ⟨[], first, rest, rfl, hfirst⟩
    · exact ⟨first :: before, call, later, rfl, hcall⟩

/-- What holds of a session once a call has brought it about holds at the end of a history if it
did before, or if one of the calls has brought it about. -/
theorem serveAll_iff_of_serve (Holds : Session → Prop) {Brings : Session → Call → Prop}
    (hstep : ∀ s call, Holds (s.serve call).2 ↔ Holds s ∨ Brings s call)
    (s : Session) (history : List Call) :
    Holds (s.serveAll history) ↔ Holds s ∨
      ∃ before call later, history = before ++ call :: later ∧
        Brings (s.serveAll before) call := by
  -- The sessions of the other calls begin where the first call has led, so `s` has to be free.
  induction history generalizing s with
  | nil => simp [serveAll]
  | cons first rest ih =>
    change Holds ((s.serve first).2.serveAll rest) ↔ _
    rw [ih, hstep, or_assoc, exists_call_cons]
    exact Iff.rfl

/-- Calls with static errors make no difference to the world. -/
theorem serveAll_filter_world {s s' : Session} (h : s.world = s'.world) (history : List Call) :
    (s.serveAll history).world = (s'.serveAll (history.filter (·.errors.isEmpty))).world := by
  induction history generalizing s s' with
  | nil => exact h
  | cons call rest ih =>
    change ((s.serve call).2.serveAll rest).world = _
    by_cases hnil : call.errors = []
    · rw [List.filter_cons_of_pos (by simp [hnil])]
      exact ih (serve_congr h call).world
    · rw [List.filter_cons_of_neg (by simp [hnil])]
      refine ih ?_
      rw [serve_of_errors s hnil, world_report]
      exact h

/-- **A session keeps account.** The answer to each call says what it has reported and whether it
was executed; the flags are set exactly if one of the calls since the session began has reported
errors of the one kind or the other; and from any call on, everything is as if the calls with
static errors had never been made. -/
theorem bookkeeping :
    (∀ (s : Session) (source : String), RunAccount s source ∧ EvaluateAccount s source) ∧
      (∀ history : List Call,
        ((initial.serveAll history).hadStaticError = true ↔
          ∃ before call later, history = before ++ call :: later ∧
            (initial.serveAll before).ReportsStatic call) ∧
        ((initial.serveAll history).hadRuntimeError = true ↔
          ∃ before call later, history = before ++ call :: later ∧
            (initial.serveAll before).ReportsRuntime call)) ∧
      ∀ (history : List Call) (call : Call),
        SameReply (initial.serveAll history)
          (initial.serveAll (history.filter (·.errors.isEmpty)))
          ((initial.serveAll history).serve call)
          ((initial.serveAll (history.filter (·.errors.isEmpty))).serve call) := by
  refine ⟨fun s source => ⟨s.runAccount source, s.evaluateAccount source⟩, fun history => ?_,
    fun history call => serve_congr (serveAll_filter_world rfl history) call⟩
  have hstatic :=
    serveAll_iff_of_serve (·.hadStaticError = true) hadStaticError_serve initial history
  have hruntime :=
    serveAll_iff_of_serve (·.hadRuntimeError = true) hadRuntimeError_serve initial history
  exact ⟨hstatic.trans (or_iff_right Bool.false_ne_true),
    hruntime.trans (or_iff_right Bool.false_ne_true)⟩

/-- An evaluation that fails, and then a program that ends too early: each of them sets the flag of
its kind, and only that one. -/
theorem bookkeeping_flags :
    (initial.ReportsRuntime (.evaluate "-nil") ∧
      (initial.serveAll [.evaluate "-nil"]).hadRuntimeError = true) ∧
    (¬ initial.ReportsStatic (.evaluate "-nil") ∧
      (initial.serveAll [.evaluate "-nil"]).hadStaticError = false) ∧
    (initial.serveAll [.evaluate "-nil"]).ReportsStatic (.run "print 1") ∧
      (initial.serveAll [.evaluate "-nil", .run "print 1"]).hadStaticError = true := by
  have hfailed : (initial.serveAll [.evaluate "-nil"]).hadRuntimeError = true := by decide +kernel
  have hclean : (initial.serveAll [.evaluate "-nil"]).hadStaticError = false := by decide +kernel
  have hreports : (initial.serveAll [.evaluate "-nil"]).ReportsStatic (.run "print 1") :=
    ⟨by decide +kernel, by decide +kernel⟩
  refine ⟨⟨?_, hfailed⟩, ⟨fun h => ?_, hclean⟩, hreports, ?_⟩
  · obtain ⟨before, call, later, heq, h⟩ := (bookkeeping.2.1 [.evaluate "-nil"]).2.mp hfailed
    cases before with
    | nil =>
      cases heq
      exact h
    | cons _ before => simp at heq
  · have hset := (bookkeeping.2.1 [.evaluate "-nil"]).1.mpr ⟨[], _, [], rfl, h⟩
    rw [hclean] at hset
    cases hset
  · exact (bookkeeping.2.1 _).1.mpr ⟨[.evaluate "-nil"], _, [], rfl, hreports⟩

end Session

end Lox
