import Lox.Proofs.Execution.Computations
import Lox.Proofs.Raw.Scan
import Lox.Raw.Tree

/-!
# Computing a tree always has a result

A tree with its tokens (`Expr.raw`) has only operators that the evaluator knows
(`Expr.supported_raw`), and it computes what the tree does (`Raw.eval_raw`, `Raw.execAll_raw`). So
the evaluator does not come to a branch that it is not to reach. That the parser builds no other
trees is seen in `Lox.Proofs.Raw.Parser`.
-/

set_option autoImplicit false

namespace Lox

/-! ## Trees with their tokens -/

/-- The tree with the tokens it was read from. -/
def Expr.raw : Expr → Raw.Expr
  | .literal v => .literal v
  | .grouping e => .grouping e.raw
  | .name site => .name (site.raw .ident none)
  | .assign site e => .assign (site.raw .ident none) e.raw
  | .unary op site e => .unary (site.raw (.symbol op.symbol) none) e.raw
  | .binary op site l r => .binary l.raw (site.raw (.symbol op.symbol) none) r.raw
  | .ternary c question s colon f =>
    .ternary c.raw (question.raw (.symbol .question) none) s.raw (colon.raw (.symbol .colon) none)
      f.raw

mutual

def Stmt.raw : Stmt → Raw.Stmt
  | .expression e => .expression e.raw
  | .print e => .print e.raw
  | .var site initial => .var (site.raw .ident none) (initial.map Expr.raw)
  | .block body => .block (stmtsRaw body)

def stmtsRaw : List Stmt → List Raw.Stmt
  | [] => []
  | s :: rest => s.raw :: stmtsRaw rest

end

theorem stmtsRaw_eq_map (body : List Stmt) : stmtsRaw body = body.map Stmt.raw := by
  induction body with
  | nil => rfl
  | cons s rest ih => rw [stmtsRaw, ih, List.map_cons]

theorem stmtsRaw_concat (body : List Stmt) (s : Stmt) :
    stmtsRaw (body ++ [s]) = stmtsRaw body ++ [s.raw] := by
  simp only [stmtsRaw_eq_map, List.map_append, List.map_cons, List.map_nil]

namespace Raw

/-! ## Operators that can be computed -/

/-- The kinds of the unary operators. -/
def unaryKinds : List Kind := [.symbol .bang, .symbol .minus]

/-- The kinds of the binary operators. -/
def binaryKinds : List Kind :=
  [.symbol .comma, .symbol .plus, .symbol .minus, .symbol .star, .symbol .slash, .symbol .less,
    .symbol .lessEqual, .symbol .greater, .symbol .greaterEqual, .symbol .equalEqual,
    .symbol .bangEqual]

/-- Every operator in the expression is of a kind that can be computed. -/
def Expr.Supported : Expr → Prop
  | .literal _ | .name _ => True
  | .grouping e | .assign _ e => e.Supported
  | .unary operator e => operator.kind ∈ unaryKinds ∧ e.Supported
  | .binary l operator r => operator.kind ∈ binaryKinds ∧ l.Supported ∧ r.Supported
  | .ternary c _ s _ f => c.Supported ∧ s.Supported ∧ f.Supported

mutual

/-- So it is in the expressions of a statement. -/
def Stmt.Supported : Stmt → Prop
  | .expression e | .print e => e.Supported
  | .var _ initial => ∀ e ∈ initial, e.Supported
  | .block body => AllSupported body

/-- And in those of statements. -/
def AllSupported : List Stmt → Prop
  | [] => True
  | s :: rest => s.Supported ∧ AllSupported rest

end

theorem unary_kind_mem (op : UnaryOp) : .symbol op.symbol ∈ unaryKinds := by
  cases op <;> decide

theorem binary_kind_mem (op : BinaryOp) : .symbol op.symbol ∈ binaryKinds := by
  cases op <;> decide

end Raw

/-- The operators of a tree are all supported, for the tree holds operators and not tokens. -/
theorem Expr.supported_raw (e : Expr) : e.raw.Supported := by
  induction e with
  | literal v => trivial
  | grouping e ih => exact ih
  | name site => trivial
  | assign site e ih => exact ih
  | unary op site e ih => exact ⟨Raw.unary_kind_mem op, ih⟩
  | binary op site l r ihl ihr => exact ⟨Raw.binary_kind_mem op, ihl, ihr⟩
  | ternary c question s colon f ihc ihs ihf => exact ⟨ihc, ihs, ihf⟩

mutual

/-- So are those in statements. -/
theorem Stmt.supported_raw : (s : Stmt) → s.raw.Supported
  | .expression e => e.supported_raw
  | .print e => e.supported_raw
  | .var site initial => by
    intro e he
    obtain ⟨e, -, rfl⟩ := Option.map_eq_some_iff.mp he
    exact e.supported_raw
  | .block body => allSupported_raw body

theorem allSupported_raw : (body : List Stmt) → Raw.AllSupported (stmtsRaw body)
  | [] => trivial
  | s :: rest => ⟨s.supported_raw, allSupported_raw rest⟩

end

namespace Raw

/-! ## Computations and their results -/

/-- The same value, or the same fault at a token with the lexeme that is blamed, and the same state.
-/
inductive Matches {σ α : Type} :
    Except RuntimeError α × σ → EStateM.Result Lox.RuntimeError σ α → Prop where
  | ok (a : α) (s : σ) : Matches (.ok a, s) (.ok a s)
  | error (fault : RuntimeFault) (site : Lexeme) (kind : Kind) (literal : Option Literal) (s : σ) :
    Matches (.error ⟨fault, site.raw kind literal⟩, s) (.error ⟨fault, site⟩ s)

/-- In every state the computation `x` has a result, and it matches that of `y`. -/
def Refines {σ α : Type} (x : EvalM σ α) (y : EStateM Lox.RuntimeError σ α) : Prop :=
  ∀ s, ∃ r, x s = some r ∧ Matches r (y s)

section

variable {σ α β : Type}

theorem refines_pure (a : α) : Refines (pure a : EvalM σ α) (pure a) :=
  fun s => ⟨_, rfl, .ok a s⟩

theorem refines_modify (g : σ → σ) : Refines (modify g : EvalM σ PUnit) (modify g) :=
  fun s => ⟨_, rfl, .ok PUnit.unit (g s)⟩

/-- Computations in a row refine others in a row. If the first one fails, so does the one it
refines, with the same fault and in the same state, and nothing else is computed. -/
theorem Refines.bind {x : EvalM σ α} {y : EStateM Lox.RuntimeError σ α} {k : α → EvalM σ β}
    {k' : α → EStateM Lox.RuntimeError σ β} (hx : Refines x y)
    (hk : ∀ a, Refines (k a) (k' a)) : Refines (x >>= k) (y >>= k') := by
  intro s
  have hbind : (x >>= k) s = (x s).bind fun r => ExceptT.bindCont k r.1 r.2 := rfl
  obtain ⟨r, hr, hmatches⟩ := hx s
  rw [hbind, hr, Option.bind_some]
  generalize hrun : y s = result at hmatches
  cases hmatches with
  | ok a s' =>
    rw [bind_of_ok hrun]
    exact hk a s'
  | error fault site kind literal s' =>
    rw [bind_of_error hrun]
    exact ⟨_, rfl, .error fault site kind literal s'⟩

theorem refines_get : Refines (get : EvalM σ σ) get := fun s => ⟨_, rfl, .ok s s⟩

theorem refines_set (s : σ) : Refines (set s : EvalM σ PUnit) (set s) :=
  fun _ => ⟨_, rfl, .ok PUnit.unit s⟩

/-- The name that is said to be undefined is the text of the token. -/
theorem refines_undefined (site : Lexeme) (kind : Kind) (literal : Option Literal) :
    Refines (orUndefined (site.raw kind literal) none : EvalM σ α)
      (ofExcept (.error ⟨.undefinedVariable site.text, site⟩)) :=
  fun s => ⟨_, rfl, .error _ site kind literal s⟩

/-- What is blamed is a token with the lexeme. -/
theorem refines_blame (site : Lexeme) (kind : Kind) (literal : Option Literal)
    (r : Except RuntimeFault Value) :
    Refines (blame (site.raw kind literal) r : EvalM σ Value) (ofExcept (Lox.blame site r)) := by
  cases r with
  | ok v => exact refines_pure v
  | error fault => exact fun s => ⟨_, rfl, .error fault site kind literal s⟩

end

/-! ## Expressions -/

section

variable {σ : Type} (site : Lexeme) (literal : Option Literal)

/-- For the token of an operator the branch is the one for that operator. -/
theorem evalUnary_symbol (op : UnaryOp) (v : Value) :
    (evalUnary (site.raw (.symbol op.symbol) literal) v : EvalM σ Value) =
      blame (site.raw (.symbol op.symbol) literal) (op.apply v) := by
  cases op <;> rfl

theorem evalBinary_symbol (op : BinaryOp) (a b : Value) :
    (evalBinary (site.raw (.symbol op.symbol) literal) a b : EvalM σ Value) =
      blame (site.raw (.symbol op.symbol) literal) (op.apply a b) := by
  cases op <;> rfl

/-- Looking up a variable is blamed on the token that names it. -/
theorem refines_read (kind : Kind) (b : Bindings) :
    Refines (orUndefined (site.raw kind literal) (b.get? site.text) : EvalM σ Value)
      (ofExcept (b.read site)) := by
  cases h : b.get? site.text with
  | some v =>
    simp only [Bindings.read, h]
    exact refines_pure v
  | none =>
    simp only [Bindings.read, h]
    exact refines_undefined site kind literal

theorem refines_write (kind : Kind) (b : Bindings) (v : Value) :
    Refines (orUndefined (site.raw kind literal) (b.assign? site.text v) : EvalM σ Bindings)
      (ofExcept (b.write site v)) := by
  cases h : b.assign? site.text v with
  | some b' =>
    simp only [Bindings.write, h]
    exact refines_pure b'
  | none =>
    simp only [Bindings.write, h]
    exact refines_undefined site kind literal

end

/-- Computing a tree with its tokens is computing the tree. -/
theorem eval_raw (e : Lox.Expr) : Refines e.raw.eval e.eval := by
  induction e with
  | literal v => exact refines_pure v
  | grouping e ih => exact ih
  | name site => exact refines_get.bind fun b => refines_read site none .ident b
  | assign site e ih =>
    refine ih.bind fun v => refines_get.bind fun b => ?_
    exact (refines_write site none .ident b v).bind fun b' =>
      (refines_set b').bind fun _ => refines_pure v
  | unary op site e ih =>
    refine ih.bind fun v => ?_
    rw [evalUnary_symbol]
    exact refines_blame _ _ _ _
  | binary op site l r ihl ihr =>
    refine ihl.bind fun a => ihr.bind fun b => ?_
    rw [evalBinary_symbol]
    exact refines_blame _ _ _ _
  | ternary c question s colon f ihc ihs ihf =>
    -- The condition has one value on both sides, so it is the same branch that is computed.
    refine ihc.bind fun v => ?_
    split
    · exact ihs
    · exact ihf

/-- An expression that is computed in a world leaves the lines alone on either side. -/
theorem evalIn_raw (e : Lox.Expr) : Refines e.raw.evalIn e.evalIn := by
  intro w
  obtain ⟨r, hr, hmatches⟩ := eval_raw e w.bindings
  have hin : e.raw.evalIn w = some (r.1, { w with bindings := r.2 }) := by
    rw [Expr.evalIn, hr]
    rfl
  refine ⟨_, hin, ?_⟩
  rw [Lox.Expr.evalIn]
  generalize e.eval w.bindings = result at hmatches
  cases hmatches with
  | ok v b => exact .ok v _
  | error fault site kind literal b => exact .error fault site kind literal _

mutual

/-- Running a statement with its tokens is running the statement, one kind of statement after the
other. -/
theorem exec_raw : (s : Lox.Stmt) → Refines s.raw.exec s.exec
  | .expression e => by
    unfold Stmt.raw Raw.Stmt.exec Lox.Stmt.exec
    exact (evalIn_raw e).bind fun _ => refines_pure ()
  | .print e => by
    unfold Stmt.raw Raw.Stmt.exec Lox.Stmt.exec
    exact (evalIn_raw e).bind fun v => refines_modify _
  | .var site none => by
    unfold Stmt.raw Raw.Stmt.exec Lox.Stmt.exec
    exact (refines_pure Value.nil).bind fun v => refines_modify _
  | .var site (some e) => by
    unfold Stmt.raw Raw.Stmt.exec Lox.Stmt.exec
    exact (evalIn_raw e).bind fun v => refines_modify _
  | .block body => by
    unfold Stmt.raw Raw.Stmt.exec Lox.Stmt.exec
    exact execAll_raw body

theorem execAll_raw : (body : List Lox.Stmt) → Refines (execAll (stmtsRaw body)) (Lox.execAll body)
  | [] => by
    unfold stmtsRaw execAll Lox.execAll
    exact refines_pure ()
  | s :: rest => by
    unfold stmtsRaw execAll Lox.execAll
    exact (exec_raw s).bind fun _ => execAll_raw rest

end

end Raw

end Lox
