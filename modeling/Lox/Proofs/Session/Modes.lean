import Lox.Command.Outcome
import Lox.Proofs.Session.Names
import Lox.Proofs.Session.Printing

/-!
# The commands agree on static errors

Four commands look at the same file. They go different ways: one lists the tokens, one reads an
expression, and two keep a session, in which an expression is evaluated or a program run. But what
is wrong with the text itself they see alike. Each of the last three stops at the static errors it
has found, with exit code `65`, no output, and these errors on standard error
(`Outcome.ofStaticErrors`); what a program has wrong with it begins with what an expression has
wrong with it if that is lexical; and a listing has its lexical errors where the others do.

From there the exit codes can be compared. Behind the static errors only an evaluation is left,
which prints nothing itself.
-/

set_option autoImplicit false

namespace Lox

/-! ## Errors on lines of their own -/

theorem newline_not_mem_toString (n : Nat) : '\n' ∉ (toString n).toList := by
  intro h
  rw [Nat.toString_eq_repr, Nat.toList_repr] at h
  exact absurd (Nat.isDigit_of_mem_toDigits (by decide) (by decide) h) (by decide)

/-- The message about a foreign character has the character in it, which is no line end. -/
theorem LexicalFault.newline_not_mem_message {text behind : List Char} {fault : LexicalFault}
    (h : fault.Covers text behind) : '\n' ∉ fault.message.toList := by
  cases fault with
  | unrecognized c =>
    obtain ⟨-, hblank, -⟩ := h
    have hc : '\n' ≠ c := by
      rintro rfl
      cases hblank
    change '\n' ∉ ("Unexpected character: " ++ c.toString).toList
    simp [hc]
  | unclosedString =>
    change '\n' ∉ "Unterminated string.".toList
    simp
  | unclosedComment =>
    change '\n' ∉ "Unterminated block comment.".toList
    simp

/-- A lexical error is told on one line. -/
theorem Listing.newline_not_mem_error {source : String} {e : LexicalError}
    (h : e ∈ (Scan.ofString source).errors) : '\n' ∉ (Listing.error e).toList := by
  obtain ⟨_, _, _, -, -, -, hcovers⟩ := Scan.exists_of_mem_errors h
  change '\n' ∉ ("[line " ++ toString e.line ++ "] Error: " ++ e.fault.message).toList
  simp only [String.toList_append, List.mem_append, not_or]
  exact ⟨⟨⟨by simp, newline_not_mem_toString e.line⟩, by simp⟩,
    LexicalFault.newline_not_mem_message hcovers⟩

/-- The lexical errors come in the order in which they begin. -/
theorem Scan.errors_pairwise (source : String) :
    (Scan.ofString source).errors.Pairwise fun a b => a.span.start < b.span.start := by
  have hpart := scanFrom_partition .origin source.toList
  refine List.pairwise_filterMap.mpr (hpart.pairwise_start.imp ?_)
  intro a b hlt e he e' he'
  cases a with
  | token t => cases he
  | error e₀ =>
    cases b with
    | token t => cases he'
    | error e₁ =>
      cases he
      cases he'
      exact hlt

/-! ## Commands that stop at static errors -/

theorem parseErrors_ne_nil_iff {source : String} :
    parseErrors source ≠ [] ↔
      ∃ errors, Program.parse (Scan.ofString source).finish (Scan.ofString source).tokens =
        .error errors := by
  rw [parseErrors]
  constructor
  · intro h
    split at h
    · exact absurd rfl h
    · rename_i errors herror
      exact ⟨errors, herror⟩
  · rintro ⟨errors, herror⟩
    rw [herror]
    exact mt List.map_eq_nil_iff.mp (Program.parse_eq_error_iff.mp herror).2

theorem staticErrors_ne_nil_iff {source : String} :
    staticErrors source ≠ [] ↔ (Scan.ofString source).errors ≠ [] ∨
      ∃ errors, Program.parse (Scan.ofString source).finish (Scan.ofString source).tokens =
        .error errors := by
  rw [← parseErrors_ne_nil_iff, staticErrors, Ne, List.append_eq_nil_iff, lexicalErrors_eq_nil_iff]
  exact Classical.not_and_iff_not_or_not

open Session (initial ReadsAsExpr expressionErrors expressionErrors_cases)

/-- The outcome of a command that has found the given static errors, and done nothing else. -/
def Outcome.ofStaticErrors (errors : List Diagnostic) : Outcome :=
  ⟨65, "", unlines (errors.map Diagnostic.text)⟩

/-- A session that has only reported, and reported in the plain form. -/
theorem Session.outcome_report (errors : List Diagnostic) (code : Nat) :
    (initial.report errors).outcome code Diagnostic.text =
      ⟨code, "", unlines (errors.map Diagnostic.text)⟩ := by
  simp [outcome, errorOutput, initial, World.initial, World.output]

namespace FileTask

variable {source path : String}

theorem stderr_tokenize (source : String) : (tokenizeOutcome source .basic).stderr =
    unlines ((lexicalErrors source).map Diagnostic.text) := by
  rw [lexicalErrors, List.map_map]
  rfl

theorem parse_of_expressionErrors (h : expressionErrors source ≠ []) :
    parseOutcome source .sexpr = .ofStaticErrors (expressionErrors source) := by
  unfold parseOutcome
  dsimp only
  rcases expressionErrors_cases source with
    ⟨hlexical, heq⟩ | ⟨hlexical, e, hparse, heq⟩ | ⟨-, hnil⟩
  · rw [if_neg (mt lexicalErrors_eq_nil_iff.mpr hlexical), heq, Outcome.ofStaticErrors,
      lexicalErrors, List.map_map]
    rfl
  · rw [if_pos (lexicalErrors_eq_nil_iff.mp hlexical), hparse, heq]
    rfl
  · exact absurd hnil h

theorem parse_of_readsAsExpr {e : Expr} (h : ReadsAsExpr source e) :
    parseOutcome source .sexpr = ⟨0, unlines [e.sexpr], ""⟩ := by
  unfold parseOutcome
  dsimp only
  rw [if_pos (lexicalErrors_eq_nil_iff.mp h.errors), h.parse]
  rfl

/-- The flag that decides between the exit codes is set. -/
theorem evaluate_of_expressionErrors (h : expressionErrors source ≠ []) :
    evaluateOutcome source = .ofStaticErrors (expressionErrors source) := by
  have hflag : (initial.report (expressionErrors source)).hadStaticError = true := by
    have hany : (expressionErrors source).any (·.isStatic) = true :=
      Session.Call.any_isStatic_errors (.evaluate source) h
    rw [Session.hadStaticError_report, hany, Bool.or_true]
  unfold evaluateOutcome
  rw [Session.evaluate_of_expressionErrors initial h]
  dsimp only
  rw [if_pos hflag, Session.outcome_report]
  rfl

theorem output_of_evalIn {e : Expr} {w : World} (h : finalState (e.evalIn .initial) = w) :
    w.output = "" := by
  rw [← h, World.output_congr (e.lines_evalIn .initial)]
  rfl

theorem evaluate_of_ok {e : Expr} {v : Value} {w : World} (h : ReadsAsExpr source e)
    (hrun : e.evalIn .initial = .ok v w) :
    evaluateOutcome source = ⟨0, unlines [v.text], ""⟩ := by
  have hevaluate : initial.evaluate source = (some v, { initial with world := w }) :=
    (Session.evaluate_of_readsAsExpr initial h).trans (congrArg initial.ofEvaluation hrun)
  have houtput : w.output = "" := output_of_evalIn (by rw [hrun, finalState_ok])
  unfold evaluateOutcome
  rw [hevaluate]
  simp [Session.outcome, Session.errorOutput, initial, houtput]

/-- The flag is not set when the only error is one of the evaluation. -/
theorem evaluate_of_error {e : Expr} {err : RuntimeError} {w : World} (h : ReadsAsExpr source e)
    (hrun : e.evalIn .initial = .error err w) :
    evaluateOutcome source = ⟨70, "", unlines [err.text]⟩ := by
  have hevaluate : initial.evaluate source =
      (none, { initial with world := w }.report [.runtime err]) :=
    (Session.evaluate_of_readsAsExpr initial h).trans (congrArg initial.ofEvaluation hrun)
  have houtput : w.output = "" := output_of_evalIn (by rw [hrun, finalState_error])
  have hflag : ({ initial with world := w }.report [.runtime err]).hadStaticError = false := by
    rw [Session.hadStaticError_report]
    rfl
  unfold evaluateOutcome
  rw [hevaluate]
  dsimp only
  rw [hflag]
  simp [Session.outcome, Session.errorOutput, initial, houtput, RunStatus.exitCode,
    Diagnostic.text]

/-- A text that is evaluated has static errors, or a value, or a runtime error. -/
theorem evaluate_cases (source : String) :
    (expressionErrors source ≠ [] ∧
      evaluateOutcome source = .ofStaticErrors (expressionErrors source)) ∨
    (∃ e v w, ReadsAsExpr source e ∧ e.evalIn .initial = .ok v w ∧
      evaluateOutcome source = ⟨0, unlines [v.text], ""⟩) ∨
    ∃ err, initial.EvalFails source err ∧
      evaluateOutcome source = ⟨70, "", unlines [err.text]⟩ := by
  by_cases hnil : expressionErrors source = []
  · obtain ⟨e, he⟩ := Session.expressionErrors_eq_nil_iff.mp hnil
    cases hrun : e.evalIn .initial with
    | ok v w => exact .inr (.inl ⟨e, v, w, he, hrun, evaluate_of_ok he hrun⟩)
    | error err w => exact .inr (.inr ⟨err, ⟨e, w, he, hrun⟩, evaluate_of_error he hrun⟩)
  · exact .inl ⟨hnil, evaluate_of_expressionErrors hnil⟩

theorem run_of_staticErrors (h : staticErrors source ≠ []) :
    runOutcome source path .basic = .ofStaticErrors (staticErrors source) := by
  unfold runOutcome
  rw [Session.run_of_staticErrors initial h]
  exact Session.outcome_report _ _

/-! ## Exit codes -/

theorem code_tokenize (source : String) : (tokenizeOutcome source .basic).code =
    if (Scan.ofString source).errors = [] then 0 else 65 := rfl

theorem code_parse (source : String) : (parseOutcome source .sexpr).code =
    if expressionErrors source = [] then 0 else 65 := by
  split
  · next hnil =>
    obtain ⟨e, he⟩ := Session.expressionErrors_eq_nil_iff.mp hnil
    rw [parse_of_readsAsExpr he]
  · next hne => rw [parse_of_expressionErrors hne, Outcome.ofStaticErrors]

theorem code_evaluate_of_nil (h : expressionErrors source = []) :
    (evaluateOutcome source).code = 0 ∨ (evaluateOutcome source).code = 70 := by
  rcases evaluate_cases source with ⟨hne, -⟩ | ⟨_, _, _, -, -, houtcome⟩ | ⟨_, -, houtcome⟩
  · exact absurd h hne
  · exact .inl (by rw [houtcome])
  · exact .inr (by rw [houtcome])

theorem code_evaluate_of_ne (h : expressionErrors source ≠ []) :
    (evaluateOutcome source).code = 65 := by
  rw [evaluate_of_expressionErrors h, Outcome.ofStaticErrors]

/-- An evaluation has the exit code of a runtime error if and only if there is one. -/
theorem code_evaluate_runtime_iff :
    (evaluateOutcome source).code = 70 ↔ ∃ err, initial.EvalFails source err := by
  rcases evaluate_cases source with
    ⟨hne, houtcome⟩ | ⟨e, v, w, he, hrun, houtcome⟩ | ⟨err, hfails, houtcome⟩
  · refine iff_of_false (by simp [houtcome, Outcome.ofStaticErrors]) ?_
    rintro ⟨err, e, w, he, -⟩
    exact hne (Session.expressionErrors_eq_nil_iff.mpr ⟨e, he⟩)
  · refine iff_of_false (by simp [houtcome]) ?_
    rintro ⟨err, e', w', he', hfails⟩
    obtain rfl : e = e' := Except.ok.inj (he.parse.symm.trans he'.parse)
    cases hrun.symm.trans hfails
  · exact iff_of_true (by rw [houtcome]) ⟨err, hfails⟩

theorem stdout_evaluate_of_runtime (h : (evaluateOutcome source).code = 70) :
    (evaluateOutcome source).stdout = "" := by
  rcases evaluate_cases source with ⟨-, houtcome⟩ | ⟨_, _, _, -, -, houtcome⟩ | ⟨_, -, houtcome⟩
  · rw [houtcome, Outcome.ofStaticErrors]
  · rw [houtcome] at h
    cases h
  · rw [houtcome]

/-- The exit code of a run is that of its status. -/
theorem code_run_iff :
    (runOutcome source path .basic).code = 65 ↔ staticErrors source ≠ [] := by
  rw [← (initial.runAccount source).staticError_iff]
  change (initial.run source).1.exitCode = 65 ↔ _
  cases (initial.run source).1 <;> simp [RunStatus.exitCode]

/-- With lexical errors all commands write the same, and a run may write more behind it. -/
theorem stderr_of_lexicalErrors (h : (Scan.ofString source).errors ≠ []) :
    ∃ stderr, stderr = (tokenizeOutcome source .basic).stderr ∧
      parseOutcome source .sexpr = ⟨65, "", stderr⟩ ∧ evaluateOutcome source = ⟨65, "", stderr⟩ ∧
      ∃ more, runOutcome source path .basic = ⟨65, "", stderr ++ more⟩ := by
  have hlexical : lexicalErrors source ≠ [] := mt lexicalErrors_eq_nil_iff.mp h
  have hexpression : expressionErrors source = lexicalErrors source := if_neg hlexical
  have hne : expressionErrors source ≠ [] := by rwa [hexpression]
  have hstatic : staticErrors source ≠ [] := List.append_ne_nil_of_left_ne_nil hlexical _
  refine ⟨unlines ((lexicalErrors source).map Diagnostic.text), (stderr_tokenize source).symm,
    ?_, ?_, unlines ((parseErrors source).map Diagnostic.text), ?_⟩
  · rw [parse_of_expressionErrors hne, hexpression, Outcome.ofStaticErrors]
  · rw [evaluate_of_expressionErrors hne, hexpression, Outcome.ofStaticErrors]
  · rw [run_of_staticErrors hstatic, Outcome.ofStaticErrors, staticErrors, List.map_append,
      unlines_append]

/-! ## The commands together -/

/-- What the commands say of the text `source` of the file `path`. -/
structure Agree (source path : String) : Prop where
  /-- A listing fails if there are lexical errors. It has each of them on a line of standard error,
  in the order of the text. -/
  tokenize_code_iff : ((tokenize .basic).outcome source path).code = 65 ↔
    (Scan.ofString source).errors ≠ []
  tokenize_stderr : ((tokenize .basic).outcome source path).stderr =
    unlines ((Scan.ofString source).errors.map Listing.error)
  one_line : ∀ e ∈ (Scan.ofString source).errors, '\n' ∉ (Listing.error e).toList
  in_order : (Scan.ofString source).errors.Pairwise fun a b => a.span.start < b.span.start
  /-- The other commands then fail on the same errors. A run may find more, behind these. -/
  of_lexicalErrors : (Scan.ofString source).errors ≠ [] →
    ∃ stderr, stderr = ((tokenize .basic).outcome source path).stderr ∧
      (parse .sexpr).outcome source path = ⟨65, "", stderr⟩ ∧
      evaluate.outcome source path = ⟨65, "", stderr⟩ ∧
      ∃ more, (run .basic).outcome source path = ⟨65, "", stderr ++ more⟩
  /-- Parsing and evaluating fail statically on the same texts, in the same way. -/
  static_iff : ((parse .sexpr).outcome source path).code = 65 ↔
    (evaluate.outcome source path).code = 65
  of_static : ((parse .sexpr).outcome source path).code = 65 →
    ((parse .sexpr).outcome source path).stdout = "" ∧
      evaluate.outcome source path = (parse .sexpr).outcome source path
  /-- What can be parsed is evaluated, which may fail. -/
  evaluated_iff : (evaluate.outcome source path).code = 0 ∨
      (evaluate.outcome source path).code = 70 ↔ ((parse .sexpr).outcome source path).code = 0
  runtimeError_iff : (evaluate.outcome source path).code = 70 ↔
    ∃ err, initial.EvalFails source err
  of_runtimeError : (evaluate.outcome source path).code = 70 →
    (evaluate.outcome source path).stdout = ""
  /-- A run fails statically on every static error of the program. -/
  run_code_iff : ((run .basic).outcome source path).code = 65 ↔
    (Scan.ofString source).errors ≠ [] ∨
      ∃ errors, Program.parse (Scan.ofString source).finish (Scan.ofString source).tokens =
        .error errors

/-- **The commands agree on static errors.** Whatever the file: a listing fails if and only if
there are lexical errors, and then the others fail with the same text on standard error, which a
run may go on with. Parsing and evaluating fail statically on the same files and in the same way;
what is left is evaluated, with a runtime error or without. A run fails statically exactly when
the scan or the parser has found an error. -/
theorem agree (source path : String) : Agree source path where
  tokenize_code_iff := by
    rw [outcome, code_tokenize]
    split <;> simp [*]
  tokenize_stderr := rfl
  one_line _ he := Listing.newline_not_mem_error he
  in_order := Scan.errors_pairwise source
  of_lexicalErrors := stderr_of_lexicalErrors
  static_iff := by
    rw [outcome, outcome, code_parse]
    split
    · next hnil => rcases code_evaluate_of_nil hnil with h | h <;> simp [h]
    · next hne => simp [code_evaluate_of_ne hne]
  of_static := by
    rw [outcome, outcome, code_parse]
    split
    · next hnil =>
      intro h
      cases h
    · next hne =>
      intro _
      rw [parse_of_expressionErrors hne, evaluate_of_expressionErrors hne]
      exact ⟨rfl, rfl⟩
  evaluated_iff := by
    rw [outcome, outcome, code_parse]
    split
    · next hnil => exact iff_of_true (code_evaluate_of_nil hnil) rfl
    · next hne => simp [code_evaluate_of_ne hne]
  runtimeError_iff := code_evaluate_runtime_iff
  of_runtimeError := stdout_evaluate_of_runtime
  run_code_iff := code_run_iff.trans staticErrors_ne_nil_iff

end FileTask

end Lox
