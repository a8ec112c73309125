import Lox.Proofs.Grammar.FirstError
import Lox.Proofs.Grammar.Parts

/-!
# Trees that are read from a source text

The parser may be given all tokens of a source text or some of them, and asked for an expression or
for a program. In any case it can only put into a tree what it finds in the tokens, and so every
leaf of the tree is known from one token of the text.
-/

set_option autoImplicit false

namespace Lox

/-- The program is what the parser makes of some tokens of the source text. -/
def Program.ReadFrom (source : String) (p : Program) : Prop :=
  ∃ finish ts, ts ⊆ (Scan.ofString source).tokens ∧ Program.parse finish ts = .ok p

/-- The expression is what the parser makes of some tokens of the source text. -/
def Expr.ReadFrom (source : String) (e : Expr) : Prop :=
  ∃ finish ts, ts ⊆ (Scan.ofString source).tokens ∧ Expr.parse finish ts = .ok e

/-- Every leaf stands for a token of the source text. -/
def LeavesFrom (source : String) (leaves : List Leaf) : Prop :=
  leaves ⊆ (Scan.ofString source).tokens.map Token.leaf

section

variable {source : String}

theorem LeavesFrom.mono {xs ys : List Leaf} (h : LeavesFrom source ys) (hsub : xs ⊆ ys) :
    LeavesFrom source xs :=
  List.Subset.trans hsub h

theorem Program.ReadFrom.leavesFrom {p : Program} (h : p.ReadFrom source) :
    LeavesFrom source p.yield := by
  obtain ⟨finish, ts, hsub, hparse⟩ := h
  have hyield := (Program.reading_of_parse hparse).yield
  rw [LeavesFrom, Program.yield, ← hyield]
  exact List.map_subset _ hsub

theorem Expr.ReadFrom.leavesFrom {e : Expr} (h : e.ReadFrom source) :
    LeavesFrom source e.yield := by
  obtain ⟨finish, ts, hsub, hparse⟩ := h
  obtain ⟨used, rest, rfl, hread⟩ := Expr.reading_of_parse hparse
  rw [LeavesFrom, ← hread.yield]
  exact List.map_subset _ (List.Subset.trans (List.subset_append_left used rest) hsub)

/-- A leaf that keeps its lexeme has it from exactly one token. -/
theorem LeavesFrom.exists_token {leaves : List Leaf} {kind : TokenKind} {site : Lexeme}
    (h : LeavesFrom source leaves) (hleaf : .sited kind site ∈ leaves) :
    (⟨kind, site⟩ : Token) ∈ (Scan.ofString source).tokens ∧
      ∀ t ∈ (Scan.ofString source).tokens, t.lexeme = site → t = ⟨kind, site⟩ := by
  obtain ⟨t, ht, heq⟩ := List.mem_map.mp (h hleaf)
  obtain ⟨rfl, rfl⟩ := Token.leaf_eq_sited heq
  refine ⟨ht, fun t' ht' hlexeme => ?_⟩
  obtain ⟨i, hi, rfl⟩ := List.getElem_of_mem ht
  obtain ⟨j, hj, rfl⟩ := List.getElem_of_mem ht'
  obtain rfl := Scan.eq_of_lexeme_eq (Scan.tokens_pairwise source) hi hj hlexeme
  rfl

end

end Lox
