import Lox.Parse.Expression
import Lox.Stmt

/-!
# The grammar of statements and programs

    program     := declaration*
    declaration := "var" name ("=" expression)? ";" | statement
    statement   := "print" expression ";" | "{" declaration* "}" | expression ";"

Only blocks nest, and a block counts as one level of the same limit that expressions are held to.

**Every declaration reads at least one token,** namely the semicolon or the brace that ends it
(`Grammar.consumes_statement`), so reading declarations until the input ends does end.

**A mistake does not end a program.** The parser drops tokens until it is again likely to be
between two statements, which is behind a semicolon or before a word that begins a statement, and
goes on from there. A program therefore has a list of errors, and the statements it has count only
if that list is empty.
-/

set_option autoImplicit false

namespace Lox

namespace Grammar

open Rule

/-! ## Statements -/

/-- What follows the word `var`. -/
def variableDeclaration (expression : Rule Expr) : Rule Stmt := do
  let site ← expect .ident .missingVariableName
  let initial ← do
    match ← takeKind? (.symbol .equal) with
    | some _ => some <$> expression
    | none => pure none
  let _ ← expect (.symbol .semicolon) (.missingSemicolon .variableDeclaration)
  return .var site initial

/-- An expression and a semicolon. -/
def terminated (expression : Rule Expr) (what : Terminated) : Rule Expr := do
  let e ← expression
  let _ ← expect (.symbol .semicolon) (.missingSemicolon what)
  return e

/-- A declaration or another statement, where `block` reads what follows an opening brace. -/
def statement (block : Rule Stmt) (expression : Rule Expr) : Rule Stmt := do
  let next ← peek
  match next.map Token.kind with
  | some (.keyword .varWord) => do skip; variableDeclaration expression
  | some (.keyword .printWord) => do skip; .print <$> terminated expression .value
  | some (.symbol .leftBrace) => do skip; block
  | _ => .expression <$> terminated expression .expression

theorem consumes_terminated (e : Rule Expr) (what : Terminated) : (terminated e what).Consumes :=
  Consumes.bind fun _ => Consumes.bind_left _ (consumes_expect _ _)

theorem consumes_statement (block : Rule Stmt) (e : Rule Expr) : (statement block e).Consumes := by
  intro finish ts s rest h
  have skips (t : Token) (ts' : List Token) (r : Rule Stmt)
      (h : (do skip; r : Rule Stmt).run finish (t :: ts') = .ok s rest) :
      rest.length < (t :: ts').length := by
    have hle := r.length_le finish ts'
    rw [show r.run finish ts' = .ok s rest from h] at hle
    exact Nat.lt_succ_of_le hle
  have ends (what : Terminated) (f : Expr → Stmt)
      (h : (f <$> terminated e what).run finish ts = .ok s rest) : rest.length < ts.length :=
    Consumes.bind_left _ (consumes_terminated e what) finish ts s rest h
  cases ts with
  | nil => exact ends _ _ h
  | cons t ts' =>
    rw [statement, run_bind] at h
    dsimp only [peek, List.head?_cons, Option.map_some] at h
    split at h
    · exact skips t ts' _ h
    · exact skips t ts' _ h
    · exact skips t ts' _ h
    · exact ends _ _ h

/-- What follows an opening brace: declarations, and the closing one. -/
def block (declaration : { r : Rule Stmt // r.Consumes }) : Rule Stmt := do
  let body ← many (fun k => k == none || k == some (.symbol .rightBrace)) declaration.1
    declaration.2
  let _ ← expect (.symbol .rightBrace) .unclosedBlock
  return .block body

/-- A declaration, when `room` levels of nesting are still allowed. -/
def declarationWithin : (room : Nat) → { r : Rule Stmt // r.Consumes }
  | 0 => ⟨statement (fail .excessiveNesting) (inner 0).expression, consumes_statement _ _⟩
  | room + 1 =>
    ⟨statement (block (declarationWithin room)) (inner (room + 1)).expression,
      consumes_statement _ _⟩

/-- A declaration that stands in no block. -/
def declaration : { r : Rule Stmt // r.Consumes } := declarationWithin nestingLimit

/-! ## Recovery -/

/-- Whether `t` begins a statement. -/
def startsStatement (t : Token) : Bool :=
  match t.kind with
  | .keyword k => k.startsStatement
  | _ => false

/-- Drops tokens, but at least one, up to the end of a statement or the beginning of the next. -/
def synchronize : List Token → List Token
  | [] => []
  | t :: ts =>
    if t.kind = .symbol .semicolon ∨ ts.head?.any startsStatement then ts else synchronize ts

theorem synchronize_suffix_tail (ts : List Token) : synchronize ts <:+ ts.tail := by
  induction ts with
  | nil => exact List.suffix_refl _
  | cons t ts ih =>
    rw [synchronize]
    split
    · exact List.suffix_refl _
    · exact ih.trans (List.tail_suffix ts)

/-- Recovery drops something if there is anything left, so that parsing goes on. -/
theorem length_synchronize_le (ts : List Token) : (synchronize ts).length ≤ ts.length - 1 := by
  simpa using (synchronize_suffix_tail ts).length_le

/-- So a mistake in a declaration costs a token at least, whatever the declaration has read. -/
theorem length_synchronize_lt {finish : Lexeme} {t : Token} {ts rest : List Token} {e : ParseError}
    (h : declaration.1.run finish (t :: ts) = .error e rest) :
    (synchronize rest).length < (t :: ts).length := by
  have hle := declaration.1.length_le finish (t :: ts)
  have hsync := length_synchronize_le rest
  rw [h] at hle
  simp only [Reply.rest_error, List.length_cons] at hle ⊢
  omega

/-! ## Programs -/

/-- The declarations of a token sequence, each read or found to be wrong. -/
def declarations (finish : Lexeme) (ts : List Token) : List (Except ParseError Stmt) :=
  match ts with
  | [] => []
  | t :: ts' =>
    match h : declaration.1.run finish (t :: ts') with
    | .ok s rest =>
      have := declaration.2 finish _ s rest h
      .ok s :: declarations finish rest
    | .error e rest =>
      have := length_synchronize_lt h
      .error e :: declarations finish (synchronize rest)
termination_by ts.length
decreasing_by all_goals exact this

/-- The tokens that are left behind the last of the declarations. -/
def leftover (finish : Lexeme) (ts : List Token) : List Token :=
  match ts with
  | [] => []
  | t :: ts' =>
    match h : declaration.1.run finish (t :: ts') with
    | .ok s rest =>
      have := declaration.2 finish _ s rest h
      leftover finish rest
    | .error _ rest =>
      have := length_synchronize_lt h
      leftover finish (synchronize rest)
termination_by ts.length
decreasing_by all_goals exact this

/-- Declarations are read to the end of the input. -/
theorem leftover_eq_nil (finish : Lexeme) (ts : List Token) : leftover finish ts = [] := by
  fun_induction leftover finish ts with
  | case1 => rfl
  | case2 t ts' s rest h this ih => exact ih
  | case3 t ts' e rest h this ih => exact ih

/-- The declarations that could be read. -/
def statements (results : List (Except ParseError Stmt)) : List Stmt :=
  results.filterMap fun
    | .ok s => some s
    | .error _ => none

/-- The errors in those that could not. -/
def errors (results : List (Except ParseError Stmt)) : List ParseError :=
  results.filterMap fun
    | .ok _ => none
    | .error e => some e

end Grammar

/-- The program that a whole token sequence is, or all the errors in it, in order. -/
def Program.parse (finish : Lexeme) (ts : List Token) : Except (List ParseError) Program :=
  let results := Grammar.declarations finish ts
  if Grammar.errors results = [] then .ok (Grammar.statements results)
  else .error (Grammar.errors results)

/-- The expression that a token sequence begins with, or the error in it. What follows the
expression is not looked at. -/
def Expr.parse (finish : Lexeme) (ts : List Token) : Except ParseError Expr :=
  (Grammar.expression.run finish ts).result

end Lox
