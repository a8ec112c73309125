import Lox.Proofs.Execution.Steps
import Lox.Proofs.Grammar.Sources

/-!
# What is wrong when an execution fails

A failure comes up through the whole tree from the one part of it where something was wrong. Here
this part is found again. An evaluation *comes to* some of the parts of its expression
(`Expr.ComesTo`), each in certain bindings; and at a name, an assignment or an operator it may
*raise* an error there, when everything that is needed for the operation has been computed and the
operation itself is impossible (`Expr.Raises`). An evaluation fails exactly if it comes to a part
that raises an error, and then with that error (`Expr.eval_eq_error_iff`).

What can be wrong is a short list. `UnaryOp.Faults` and `BinaryOp.Faults` say it of the operators
and their operands, without computing anything, and `RuntimeFault.kinds` of the tokens that are
blamed.
-/

set_option autoImplicit false

namespace Lox

/-! ## What can be wrong with an operation -/

/-- The value is a number. -/
def Value.IsNumber (v : Value) : Prop := ∃ n, v = .number n

/-- The values are two numbers. -/
def Value.AreNumbers (x y : Value) : Prop := x.IsNumber ∧ y.IsNumber

/-- The values are two strings. -/
def Value.AreStrings (x y : Value) : Prop := (∃ s, x = .string s) ∧ ∃ t, y = .string t

/-- The operator cannot be applied to the operand, and what is said then. There is always an
opposite truth value. -/
inductive UnaryOp.Faults : UnaryOp → Value → RuntimeFault → Prop where
  | nonNumeric {v : Value} (h : ¬ v.IsNumber) : Faults .negate v (.nonNumeric v)

/-- The operator cannot be applied to the operands, and what is said then. Any two values can be
compared for equality, and any two can stand around a comma. -/
inductive BinaryOp.Faults : BinaryOp → Value → Value → RuntimeFault → Prop where
  | nonNumerics {op : BinaryOp} {x y : Value} (hop : op ∈ [subtract, multiply, divide])
    (h : ¬ x.AreNumbers y) : Faults op x y (.nonNumerics x y)
  | nonAddable {x y : Value} (hn : ¬ x.AreNumbers y) (hs : ¬ x.AreStrings y) :
    Faults .add x y (.nonAddable x y)
  | nonComparable {op : BinaryOp} {x y : Value}
    (hop : op ∈ [less, lessEqual, greater, greaterEqual])
    (hn : ¬ x.AreNumbers y) (hs : ¬ x.AreStrings y) : Faults op x y (.nonComparable x y)
  | divisionByZero {n m : Float} (h : (m == 0) = true) :
    Faults .divide (.number n) (.number m) .divisionByZero

namespace Value

variable {v x y : Value} {fault : RuntimeFault}

theorem negate_eq_error_iff :
    v.negate = .error fault ↔ ¬ v.IsNumber ∧ fault = .nonNumeric v := by
  cases v <;> simp [negate, IsNumber, eq_comm]

theorem add_eq_error_iff :
    x.add y = .error fault ↔
      ¬ x.AreNumbers y ∧ ¬ x.AreStrings y ∧ fault = .nonAddable x y := by
  cases x <;> cases y <;> simp [add, AreNumbers, IsNumber, AreStrings, eq_comm]

theorem arithmetic_eq_error_iff {f : Float → Float → Except RuntimeFault Float} :
    arithmetic f x y = .error fault ↔
      (¬ x.AreNumbers y ∧ fault = .nonNumerics x y) ∨
        ∃ n m, x = .number n ∧ y = .number m ∧ f n m = .error fault := by
  cases x with
  | number n =>
    cases y with
    | number m => cases hf : f n m <;> simp [arithmetic, AreNumbers, IsNumber, Except.map, hf]
    | _ => simp [arithmetic, AreNumbers, IsNumber, eq_comm]
  | _ => cases y <;> simp [arithmetic, AreNumbers, IsNumber, eq_comm]

theorem comparison_eq_error_iff {numbers : Float → Float → Bool}
    {strings : String → String → Bool} :
    comparison numbers strings x y = .error fault ↔
      ¬ x.AreNumbers y ∧ ¬ x.AreStrings y ∧ fault = .nonComparable x y := by
  cases x <;> cases y <;> simp [comparison, AreNumbers, IsNumber, AreStrings, eq_comm]

end Value

theorem UnaryOp.apply_eq_error_iff (op : UnaryOp) (v : Value) (fault : RuntimeFault) :
    op.apply v = .error fault ↔ op.Faults v fault := by
  constructor
  · intro h
    cases op with
    | not => cases h
    | negate =>
      obtain ⟨hv, rfl⟩ := Value.negate_eq_error_iff.mp h
      exact .nonNumeric hv
  · rintro ⟨hv⟩
    exact Value.negate_eq_error_iff.mpr ⟨hv, rfl⟩

namespace BinaryOp

variable {x y : Value} {fault : RuntimeFault}

theorem faults_of_apply {op : BinaryOp} (h : op.apply x y = .error fault) :
    op.Faults x y fault := by
  cases op with
  | comma | equal | notEqual => cases h
  | add =>
    obtain ⟨hn, hs, rfl⟩ := Value.add_eq_error_iff.mp h
    exact .nonAddable hn hs
  | subtract | multiply =>
    rcases Value.arithmetic_eq_error_iff.mp h with ⟨hn, rfl⟩ | ⟨n, m, rfl, rfl, hf⟩
    · exact .nonNumerics (by decide) hn
    · cases hf
  | divide =>
    rcases Value.arithmetic_eq_error_iff.mp h with ⟨hn, rfl⟩ | ⟨n, m, rfl, rfl, hf⟩
    · exact .nonNumerics (by decide) hn
    · split at hf
      · cases hf
        exact .divisionByZero ‹_›
      · cases hf
  | less | lessEqual | greater | greaterEqual =>
    obtain ⟨hn, hs, rfl⟩ := Value.comparison_eq_error_iff.mp h
    exact .nonComparable (by decide) hn hs

theorem Faults.apply {op : BinaryOp} (h : op.Faults x y fault) : op.apply x y = .error fault := by
  cases h with
  | nonNumerics hop hn =>
    simp only [List.mem_cons, List.not_mem_nil, or_false] at hop
    rcases hop with rfl | rfl | rfl <;> exact Value.arithmetic_eq_error_iff.mpr (.inl ⟨hn, rfl⟩)
  | nonAddable hn hs => exact Value.add_eq_error_iff.mpr ⟨hn, hs, rfl⟩
  | nonComparable hop hn hs =>
    simp only [List.mem_cons, List.not_mem_nil, or_false] at hop
    rcases hop with rfl | rfl | rfl | rfl <;>
      exact Value.comparison_eq_error_iff.mpr ⟨hn, hs, rfl⟩
  | divisionByZero h =>
    rw [BinaryOp.apply, Value.divide, Value.arithmetic_eq_error_iff]
    exact .inr ⟨_, _, rfl, rfl, if_pos h⟩

theorem apply_eq_error_iff (op : BinaryOp) (x y : Value) (fault : RuntimeFault) :
    op.apply x y = .error fault ↔ op.Faults x y fault :=
  ⟨faults_of_apply, Faults.apply⟩

end BinaryOp

/-! ## From the tree to the part -/

/-- Evaluating the first expression in the bindings beside it comes to evaluating the second in
those beside that. -/
inductive Expr.ComesTo : Expr → Bindings → Expr → Bindings → Prop where
  | self {e : Expr} {b : Bindings} : ComesTo e b e b
  | grouping {e part : Expr} {b b' : Bindings} (h : ComesTo e b part b') :
    ComesTo (.grouping e) b part b'
  | assign {site : Lexeme} {e part : Expr} {b b' : Bindings} (h : ComesTo e b part b') :
    ComesTo (.assign site e) b part b'
  | unary {op : UnaryOp} {site : Lexeme} {e part : Expr} {b b' : Bindings}
    (h : ComesTo e b part b') : ComesTo (.unary op site e) b part b'
  | left {op : BinaryOp} {site : Lexeme} {l r part : Expr} {b b' : Bindings}
    (h : ComesTo l b part b') : ComesTo (.binary op site l r) b part b'
  | right {op : BinaryOp} {site : Lexeme} {l r part : Expr} {x : Value} {b b₁ b' : Bindings}
    (hl : l.eval b = .ok x b₁) (h : ComesTo r b₁ part b') :
    ComesTo (.binary op site l r) b part b'
  | condition {question colon : Lexeme} {c s f part : Expr} {b b' : Bindings}
    (h : ComesTo c b part b') : ComesTo (.ternary c question s colon f) b part b'
  | success {question colon : Lexeme} {c s f part : Expr} {v : Value} {b b₁ b' : Bindings}
    (hc : c.eval b = .ok v b₁) (hv : v.isTruthy = true) (h : ComesTo s b₁ part b') :
    ComesTo (.ternary c question s colon f) b part b'
  | failure {question colon : Lexeme} {c s f part : Expr} {v : Value} {b b₁ b' : Bindings}
    (hc : c.eval b = .ok v b₁) (hv : v.isTruthy = false) (h : ComesTo f b₁ part b') :
    ComesTo (.ternary c question s colon f) b part b'

/-- What the expression needs has been computed, and then its own operation is impossible. The
error is raised in the bindings that are left by then, and they remain. -/
inductive Expr.Raises : Expr → Bindings → RuntimeError → Bindings → Prop where
  | name {site : Lexeme} {b : Bindings} (h : ¬ b.Binds site.text) :
    Raises (.name site) b ⟨.undefinedVariable site.text, site⟩ b
  | assign {site : Lexeme} {e : Expr} {v : Value} {b b' : Bindings} (he : e.eval b = .ok v b')
    (h : ¬ b'.Binds site.text) :
    Raises (.assign site e) b ⟨.undefinedVariable site.text, site⟩ b'
  | unary {op : UnaryOp} {site : Lexeme} {e : Expr} {v : Value} {fault : RuntimeFault}
    {b b' : Bindings} (he : e.eval b = .ok v b') (h : op.Faults v fault) :
    Raises (.unary op site e) b ⟨fault, site⟩ b'
  | binary {op : BinaryOp} {site : Lexeme} {l r : Expr} {x y : Value} {fault : RuntimeFault}
    {b b₁ b' : Bindings} (hl : l.eval b = .ok x b₁) (hr : r.eval b₁ = .ok y b')
    (h : op.Faults x y fault) :
    Raises (.binary op site l r) b ⟨fault, site⟩ b'

namespace Expr

variable {e part : Expr} {b b₀ b' : Bindings} {err : RuntimeError}

theorem ComesTo.mem_parts (h : e.ComesTo b part b₀) : part ∈ e.parts := by
  induction h with
  | @self e b => cases e <;> simp [parts]
  | grouping _ ih | assign _ ih | unary _ ih => exact List.mem_cons_of_mem _ ih
  | left _ ih | condition _ ih => simp [parts, ih]
  | right _ _ ih | success _ _ _ ih | failure _ _ _ ih => simp [parts, ih]

theorem Raises.eval (h : part.Raises b err b') : part.eval b = .error err b' := by
  cases h with
  | name h => exact fetch_of_not_binds h
  | assign he h =>
    rw [eval_assign, bind_of_ok he]
    exact store_of_not_binds h _
  | @unary op _ _ _ _ _ _ he h =>
    unfold Expr.eval
    rw [bind_of_ok he, (op.apply_eq_error_iff _ _).mpr h]
    rfl
  | binary hl hr h =>
    unfold Expr.eval
    rw [bind_of_ok hl, bind_of_ok hr, h.apply]
    rfl

/-- Nothing handles an error on its way up. -/
theorem ComesTo.eval (h : e.ComesTo b part b₀) (herror : part.eval b₀ = .error err b') :
    e.eval b = .error err b' := by
  induction h with
  | self => exact herror
  | grouping _ ih => exact ih herror
  | assign _ ih | unary _ ih | left _ ih | condition _ ih => exact bind_of_error (ih herror)
  | right hl _ ih =>
    unfold Expr.eval
    rw [bind_of_ok hl]
    exact bind_of_error (ih herror)
  | success hc hv _ ih =>
    unfold Expr.eval
    rw [bind_of_ok hc, hv]
    exact ih herror
  | failure hc hv _ ih =>
    unfold Expr.eval
    rw [bind_of_ok hc, hv]
    exact ih herror

theorem exists_raises_of_eval (e : Expr) {b : Bindings} (h : e.eval b = .error err b') :
    ∃ part b₀, e.ComesTo b part b₀ ∧ part.Raises b₀ err b' := by
  induction e generalizing b with
  | literal v => cases h
  | grouping e ih =>
    obtain ⟨part, b₀, hcomes, hraises⟩ := ih h
    exact ⟨part, b₀, .grouping hcomes, hraises⟩
  | name site =>
    by_cases hb : b.Binds site.text
    · obtain ⟨v, hv⟩ := Option.ne_none_iff_exists'.mp hb
      rw [eval_name, fetch_of_get? hv] at h
      cases h
    · rw [eval_name, fetch_of_not_binds hb] at h
      cases h
      exact ⟨_, _, .self, .name hb⟩
  | assign site e ih =>
    rw [eval_assign] at h
    cases hrun : e.eval b with
    | ok v b₁ =>
      rw [bind_of_ok hrun] at h
      by_cases hb : b₁.Binds site.text
      · rw [store_of_binds hb] at h
        cases h
      · rw [store_of_not_binds hb] at h
        cases h
        exact ⟨_, _, .self, .assign hrun hb⟩
    | error err' b₁ =>
      rw [bind_of_error hrun] at h
      obtain ⟨part, b₀, hcomes, hraises⟩ := ih (hrun.trans h)
      exact ⟨part, b₀, .assign hcomes, hraises⟩
  | unary op site e ih =>
    unfold Expr.eval at h
    cases hrun : e.eval b with
    | ok v b₁ =>
      rw [bind_of_ok hrun] at h
      cases happly : op.apply v with
      | ok w =>
        rw [happly] at h
        cases h
      | error fault =>
        rw [happly] at h
        cases h
        exact ⟨_, _, .self, .unary hrun ((op.apply_eq_error_iff _ _).mp happly)⟩
    | error err' b₁ =>
      rw [bind_of_error hrun] at h
      obtain ⟨part, b₀, hcomes, hraises⟩ := ih (hrun.trans h)
      exact ⟨part, b₀, .unary hcomes, hraises⟩
  | binary op site l r ihl ihr =>
    unfold Expr.eval at h
    cases hl : l.eval b with
    | ok x b₁ =>
      rw [bind_of_ok hl] at h
      cases hr : r.eval b₁ with
      | ok y b₂ =>
        rw [bind_of_ok hr] at h
        cases happly : op.apply x y with
        | ok w =>
          rw [happly] at h
          cases h
        | error fault =>
          rw [happly] at h
          cases h
          exact ⟨_, _, .self, .binary hl hr (BinaryOp.faults_of_apply happly)⟩
      | error err' b₂ =>
        rw [bind_of_error hr] at h
        obtain ⟨part, b₀, hcomes, hraises⟩ := ihr (hr.trans h)
        exact ⟨part, b₀, .right hl hcomes, hraises⟩
    | error err' b₁ =>
      rw [bind_of_error hl] at h
      obtain ⟨part, b₀, hcomes, hraises⟩ := ihl (hl.trans h)
      exact ⟨part, b₀, .left hcomes, hraises⟩
  | ternary c question s colon f ihc ihs ihf =>
    unfold Expr.eval at h
    cases hc : c.eval b with
    | ok v b₁ =>
      rw [bind_of_ok hc] at h
      cases hv : v.isTruthy with
      | true =>
        rw [hv] at h
        obtain ⟨part, b₀, hcomes, hraises⟩ := ihs h
        exact ⟨part, b₀, .success hc hv hcomes, hraises⟩
      | false =>
        rw [hv] at h
        obtain ⟨part, b₀, hcomes, hraises⟩ := ihf h
        exact ⟨part, b₀, .failure hc hv hcomes, hraises⟩
    | error err' b₁ =>
      rw [bind_of_error hc] at h
      obtain ⟨part, b₀, hcomes, hraises⟩ := ihc (hc.trans h)
      exact ⟨part, b₀, .condition hcomes, hraises⟩

/-- An evaluation fails exactly if it comes to a part that raises an error. -/
theorem eval_eq_error_iff (e : Expr) (b : Bindings) (err : RuntimeError) (b' : Bindings) :
    e.eval b = .error err b' ↔ ∃ part b₀, e.ComesTo b part b₀ ∧ part.Raises b₀ err b' := by
  constructor
  · exact e.exists_raises_of_eval
  · rintro ⟨part, b₀, hcomes, hraises⟩
    exact hcomes.eval hraises.eval

end Expr

/-! ## From the part to the source text -/

/-- The kinds of token that a fault can be blamed on. -/
def RuntimeFault.kinds : RuntimeFault → List TokenKind
  | nonNumeric _ => [.symbol .minus]
  | nonNumerics _ _ => [.symbol .minus, .symbol .star, .symbol .slash]
  | nonAddable _ _ => [.symbol .plus]
  | nonComparable _ _ =>
    [.symbol .less, .symbol .lessEqual, .symbol .greater, .symbol .greaterEqual]
  | divisionByZero => [.symbol .slash]
  | undefinedVariable _ => [.ident]

/-- The symbols of the operators that have a value for all operands. -/
def Symbol.faultless : List Symbol := [.bang, .equalEqual, .bangEqual, .comma]

theorem RuntimeFault.not_mem_kinds (fault : RuntimeFault) {s : Symbol} (h : s ∈ Symbol.faultless) :
    .symbol s ∉ fault.kinds := by
  simp only [Symbol.faultless, List.mem_cons, List.not_mem_nil, or_false] at h
  rcases h with rfl | rfl | rfl | rfl <;> cases fault <;> simp [kinds]

theorem UnaryOp.Faults.mem_kinds {op : UnaryOp} {v : Value} {fault : RuntimeFault}
    (h : op.Faults v fault) : .symbol op.symbol ∈ fault.kinds := by
  cases h
  exact List.mem_singleton_self _

theorem BinaryOp.Faults.mem_kinds {op : BinaryOp} {x y : Value} {fault : RuntimeFault}
    (h : op.Faults x y fault) : .symbol op.symbol ∈ fault.kinds := by
  cases h with
  | nonNumerics hop _ | nonComparable hop _ _ =>
    exact List.mem_map_of_mem (f := fun op => TokenKind.symbol (symbol op)) hop
  | nonAddable _ _ | divisionByZero _ => exact List.mem_singleton_self _

/-- What is blamed for an error is the operator or the name of the part that raises it. -/
theorem Expr.Raises.exists_kind {part : Expr} {b b' : Bindings} {err : RuntimeError}
    (h : part.Raises b err b') :
    ∃ kind ∈ err.fault.kinds, .sited kind err.site ∈ part.yield := by
  cases h with
  | name _ => exact ⟨.ident, List.mem_singleton_self _, List.mem_singleton_self _⟩
  | assign _ _ => exact ⟨.ident, List.mem_singleton_self _, List.mem_cons_self⟩
  | unary _ h => exact ⟨_, h.mem_kinds, List.mem_cons_self⟩
  | binary _ _ h => exact ⟨_, h.mem_kinds, by simp [yield]⟩

mutual

theorem Stmt.mem_expressions_of_mem_steps {step : Stmt} {e : Expr} (he : step.operand? = some e) :
    (s : Stmt) → step ∈ s.steps → e ∈ s.expressions
  | .expression _, h | .print _, h | .var _ none, h | .var _ (some _), h => by
    rw [Stmt.steps, List.mem_singleton] at h
    cases h
    cases he <;> exact List.mem_singleton_self _
  | .block body, h => by
    rw [Stmt.steps] at h
    exact mem_stmtsExpressions_of_mem_steps he body h

theorem mem_stmtsExpressions_of_mem_steps {step : Stmt} {e : Expr} (he : step.operand? = some e) :
    (body : List Stmt) → step ∈ stmtsSteps body → e ∈ stmtsExpressions body
  | [], h => by
    rw [stmtsSteps] at h
    cases h
  | s :: rest, h => by
    rw [stmtsSteps] at h
    rw [stmtsExpressions]
    rcases List.mem_append.mp h with h | h
    · exact List.mem_append_left _ (Stmt.mem_expressions_of_mem_steps he s h)
    · exact List.mem_append_right _ (mem_stmtsExpressions_of_mem_steps he rest h)

end

/-- Where an error comes from: the part that raises it, the bindings in which it does, and the kind
of the token that is blamed. -/
structure Origin where
  part : Expr
  bindings : Bindings
  kind : TokenKind

/-- The evaluation of the expression in the bindings `b` comes to the origin, where the error is
raised and the bindings `b'` are left. The token that is blamed is one of the expression's, and
it is the only one of the source text with its lexeme. -/
structure Origin.Of (origin : Origin) (source : String) (e : Expr) (b : Bindings)
    (err : RuntimeError) (b' : Bindings) : Prop where
  comes : e.ComesTo b origin.part origin.bindings
  raises : origin.part.Raises origin.bindings err b'
  leaf : .sited origin.kind err.site ∈ e.yield
  token : ∀ t : Token, t = ⟨origin.kind, err.site⟩ ↔
    t ∈ (Scan.ofString source).tokens ∧ t.lexeme = err.site
  kind : origin.kind ∈ err.fault.kinds
  faultless : ∀ s ∈ Symbol.faultless, origin.kind ≠ .symbol s

theorem Expr.exists_origin {source : String} {e : Expr} {b b' : Bindings} {err : RuntimeError}
    (hsource : LeavesFrom source e.yield) (h : e.eval b = .error err b') :
    ∃ origin : Origin, origin.Of source e b err b' := by
  obtain ⟨part, b₀, hcomes, hraises⟩ := e.exists_raises_of_eval h
  obtain ⟨kind, hkind, hleaf⟩ := hraises.exists_kind
  have hleaf := yield_subset_of_mem_parts hcomes.mem_parts hleaf
  obtain ⟨htoken, hunique⟩ := hsource.exists_token hleaf
  refine ⟨⟨part, b₀, kind⟩, hcomes, hraises, hleaf, fun t => ?_, hkind, fun s hs heq => ?_⟩
  · constructor
    · rintro rfl
      exact ⟨htoken, rfl⟩
    · rintro ⟨ht, hlexeme⟩
      exact hunique t ht hlexeme
  · exact err.fault.not_mem_kinds hs (heq ▸ hkind)

/-- **An error says what is really wrong.** If an expression that is read from a source text fails,
then its evaluation has come to a part of it whose own operation is impossible, and that is what
the error says: which operator was applied to which values, and why it has no result for them, or
which variable is not bound in the bindings that are left behind. The token that is blamed is the
operator or the name there, so its kind is one that can have this fault. If a program fails, this
is so of the expression of the step that it stops at. -/
theorem RuntimeError.has_origin (source : String) (err : RuntimeError) (w w' : World) :
    (∀ e : Expr, e.ReadFrom source → e.evalIn w = .error err w' →
      ∃ origin : Origin, origin.Of source e w.bindings err w'.bindings) ∧
    ∀ p : Program, p.ReadFrom source → p.exec w = .error err w' →
      ∃ stop : Stop, stop.Of p.steps w.bindings err w'.bindings ∧
        ∃ e ∈ stmtsExpressions p, stop.step.operand? = some e ∧
          ∃ origin : Origin, origin.Of source e stop.bindings err w'.bindings := by
  constructor
  · intro e hsource h
    rw [Expr.evalIn] at h
    cases heval : e.eval w.bindings with
    | ok v b =>
      rw [heval] at h
      cases h
    | error err' b =>
      rw [heval] at h
      cases h
      exact Expr.exists_origin hsource.leavesFrom heval
  · intro p hsource h
    rcases p.exec_cases w with ⟨lines, b, hruns, hexec⟩ | ⟨stop, err', b, hstop, hexec⟩
    · rw [hexec] at h
      cases h
    · rw [hexec] at h
      cases h
      obtain ⟨e, he, herror⟩ := hstop.fails
      have hmem := mem_stmtsExpressions_of_mem_steps he p (List.mem_of_getElem? hstop.step)
      have hleaves := hsource.leavesFrom.mono (stmtsYield_subset_of_mem_expressions p hmem)
      exact ⟨stop, hstop, e, hmem, he, Expr.exists_origin hleaves herror⟩

/-- The expression `!-nil` and the program `!-nil;`, which are read from `!-nil;`, fail. -/
theorem RuntimeError.has_origin_negatedNil :
    let negated : Expr := .unary .not ⟨"!", 0, 1⟩ (.unary .negate ⟨"-", 1, 1⟩ (.literal .nil))
    let failure : RuntimeError := ⟨.nonNumeric .nil, ⟨"-", 1, 1⟩⟩
    (∃ origin : Origin, origin.Of "!-nil;" negated ∅ failure ∅) ∧
      ∃ stop : Stop, stop.Of (Program.steps [.expression negated]) ∅ failure ∅ := by
  intro negated failure
  have hexpr : negated.ReadFrom "!-nil;" :=
    ⟨⟨"", 5, 1⟩, (Scan.ofString "!-nil;").tokens.take 3, List.take_subset 3 _, by decide +kernel⟩
  have hreading : StmtsReading Grammar.nestingLimit [.expression negated]
      (Scan.ofString "!-nil;").tokens :=
    ⟨by decide +kernel, ⟨⟨⟨trivial, by decide⟩, by decide⟩, trivial⟩, by decide +kernel⟩
  have hprogram : Program.ReadFrom "!-nil;" [.expression negated] :=
    ⟨⟨"", 6, 1⟩, _, List.Subset.refl _, Program.parse_of_reading hreading⟩
  have horigin := has_origin "!-nil;" failure .initial .initial
  obtain ⟨stop, hstop, -⟩ := horigin.2 _ hprogram rfl
  exact ⟨horigin.1 negated hexpr rfl, stop, hstop⟩

end Lox
