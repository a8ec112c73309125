import Lox.Proofs.Grammar.Completeness

/-!
# Which programs are accepted

A token sequence is a program exactly when it is the yield of one that has the shape of the grammar
and nests no deeper than is allowed, and then it is that program and no other. The two directions
are soundness and completeness of the rules; what is added here is that a program counts only if
not one of its declarations was found to be wrong.
-/

set_option autoImplicit false

namespace Lox

namespace Grammar

/-- Without errors there are only statements. -/
theorem eq_map_ok_of_errors_eq_nil {results : List (Except ParseError Stmt)}
    (h : errors results = []) : results = (statements results).map .ok := by
  induction results with
  | nil => rfl
  | cons result results ih =>
    cases result with
    | ok s => exact congrArg (Except.ok s :: ·) (ih h)
    | error e => cases h

theorem errors_map_ok (body : List Stmt) : errors (body.map .ok) = [] := by
  induction body with
  | nil => rfl
  | cons s body ih => exact ih

theorem statements_map_ok (body : List Stmt) : statements (body.map .ok) = body := by
  induction body with
  | nil => rfl
  | cons s body ih => exact congrArg (s :: ·) ih

end Grammar

/-- A program is accepted when each of its declarations is. -/
theorem Program.parse_eq_ok_iff_declarations {finish : Lexeme} {ts : List Token} {p : Program} :
    Program.parse finish ts = .ok p ↔ Grammar.declarations finish ts = p.map .ok := by
  unfold Program.parse
  constructor
  · intro h
    dsimp only at h
    split at h
    · rename_i hnil
      cases h
      exact Grammar.eq_map_ok_of_errors_eq_nil hnil
    · cases h
  · intro h
    dsimp only
    rw [h, if_pos (Grammar.errors_map_ok p), Grammar.statements_map_ok]

/-- It is not when one of them is wrong, and then it has these errors. -/
theorem Program.parse_eq_error_iff {finish : Lexeme} {ts : List Token} {es : List ParseError} :
    Program.parse finish ts = .error es ↔
      Grammar.errors (Grammar.declarations finish ts) = es ∧ es ≠ [] := by
  unfold Program.parse
  dsimp only
  split
  · rename_i hnil
    simp only [reduceCtorEq, hnil, false_iff, not_and]
    rintro rfl hne
    exact hne rfl
  · rename_i hne
    constructor
    · intro h
      cases h
      exact ⟨rfl, hne⟩
    · rintro ⟨rfl, -⟩
      rfl

theorem Program.reading_of_parse {finish : Lexeme} {ts : List Token} {p : Program}
    (h : Program.parse finish ts = .ok p) : StmtsReading Grammar.nestingLimit p ts :=
  Grammar.declarations_sound (parse_eq_ok_iff_declarations.mp h)

theorem Program.parse_of_reading {finish : Lexeme} {ts : List Token} {p : Program}
    (h : StmtsReading Grammar.nestingLimit p ts) : Program.parse finish ts = .ok p :=
  parse_eq_ok_iff_declarations.mpr (Grammar.declarations_complete h)

/-- An expression is read from the tokens at the beginning. -/
theorem Expr.reading_of_parse {finish : Lexeme} {ts : List Token} {e : Expr}
    (h : Expr.parse finish ts = .ok e) :
    ∃ used rest, ts = used ++ rest ∧ Reading .comma Grammar.nestingLimit e used := by
  unfold Expr.parse at h
  cases hrun : Grammar.expression.run finish ts with
  | ok e' rest =>
    rw [hrun] at h
    cases h
    obtain ⟨used, hused, hread⟩ := (Grammar.inner_sound _).expression _ _ _ _ hrun
    exact ⟨used, rest, hused, hread⟩
  | error e' rest =>
    rw [hrun] at h
    cases h

/-- **What is accepted is the grammar, exactly.** A token sequence is read as the program `p` if
and only if its tokens are the yield of `p`, every expression in `p` is shaped, and `p` nests at
most 128 levels deep. Where the input ends makes no difference to this, nor does anything else
about the tokens than what a tree knows of them. -/
theorem Program.parse_eq_ok_iff (finish : Lexeme) (ts : List Token) (p : Program) :
    Program.parse finish ts = .ok p ↔
      ts.map Token.leaf = p.yield ∧ p.Shaped ∧ p.depth ≤ 128 := by
  constructor
  · intro h
    obtain ⟨hyield, hshaped, hdepth⟩ := Program.reading_of_parse h
    exact ⟨hyield, hshaped, hdepth⟩
  · rintro ⟨hyield, hshaped, hdepth⟩
    exact Program.parse_of_reading ⟨hyield, hshaped, hdepth⟩

end Lox
