import Lox.Proofs.Grammar.Tree

/-!
# The parts of trees

An expression has parts, which are expressions, and in a statement there are expressions. The
tokens of a part are tokens of the whole, so that what is known of all the tokens that a tree was
read from is known of every part of it.
-/

set_option autoImplicit false

namespace Lox

/-- All parts of an expression, itself among them. -/
def Expr.parts : Expr → List Expr
  | .literal v => [.literal v]
  | .grouping e => .grouping e :: e.parts
  | .name site => [.name site]
  | .assign site e => .assign site e :: e.parts
  | .unary op site e => .unary op site e :: e.parts
  | .binary op site l r => .binary op site l r :: (l.parts ++ r.parts)
  | .ternary c question s colon f =>
    .ternary c question s colon f :: (c.parts ++ (s.parts ++ f.parts))

mutual

/-- The expressions in a statement. -/
def Stmt.expressions : Stmt → List Expr
  | .expression e | .print e => [e]
  | .var _ none => []
  | .var _ (some e) => [e]
  | .block body => stmtsExpressions body

/-- The expressions in some statements. -/
def stmtsExpressions : List Stmt → List Expr
  | [] => []
  | s :: rest => s.expressions ++ stmtsExpressions rest

end

/-- What a part was written with is some of what the whole was. -/
theorem Expr.yield_subset_of_mem_parts {e part : Expr} (h : part ∈ e.parts) :
    part.yield ⊆ e.yield := by
  induction e with
  | literal v | name site =>
    cases List.mem_singleton.mp h
    exact List.Subset.refl _
  | grouping e ih | assign site e ih | unary op site e ih =>
    rcases List.mem_cons.mp h with rfl | h
    · exact List.Subset.refl _
    · exact List.Subset.trans (ih h) (by simp [yield])
  | binary op site l r ihl ihr =>
    rcases List.mem_cons.mp h with rfl | h
    · exact List.Subset.refl _
    · rcases List.mem_append.mp h with h | h
      · exact List.Subset.trans (ihl h) (by simp [yield])
      · exact List.Subset.trans (ihr h) (by simp [yield])
  | ternary c question s colon f ihc ihs ihf =>
    rcases List.mem_cons.mp h with rfl | h
    · exact List.Subset.refl _
    · rcases List.mem_append.mp h with h | h
      · exact List.Subset.trans (ihc h) (by simp [yield])
      · rcases List.mem_append.mp h with h | h
        · exact List.Subset.trans (ihs h) fun leaf hl => by simp [yield, hl]
        · exact List.Subset.trans (ihf h) fun leaf hl => by simp [yield, hl]

mutual

theorem Stmt.yield_subset_of_mem_expressions {e : Expr} :
    (s : Stmt) → e ∈ s.expressions → e.yield ⊆ s.yield
  | .expression e', h => by
    cases List.mem_singleton.mp h
    simp [Stmt.yield]
  | .print e', h => by
    cases List.mem_singleton.mp h
    simp [Stmt.yield]
  | .var _ none, h => by cases h
  | .var _ (some e'), h => by
    cases List.mem_singleton.mp h
    intro leaf hl
    simp [Stmt.yield, hl]
  | .block body, h => by
    have hsub := stmtsYield_subset_of_mem_expressions body h
    exact List.Subset.trans hsub (by simp [Stmt.yield])

theorem stmtsYield_subset_of_mem_expressions {e : Expr} :
    (body : List Stmt) → e ∈ stmtsExpressions body → e.yield ⊆ stmtsYield body
  | [], h => by cases h
  | s :: rest, h => by
    rcases List.mem_append.mp h with h | h
    · have hsub := Stmt.yield_subset_of_mem_expressions s h
      exact List.Subset.trans hsub (by simp [stmtsYield])
    · have hsub := stmtsYield_subset_of_mem_expressions rest h
      exact List.Subset.trans hsub (by simp [stmtsYield])

end

end Lox
