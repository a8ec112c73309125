import Lox.Parse.Program

/-!
# The trees of the grammar

What a token sequence has to look like for a tree to be the tree of it, said without a parser.
Three things decide it:

* the **yield**: the tokens that the tree was written with, from left to right;
* the **shape**: no node stands under one that binds tighter than it, unless in parentheses;
* the **depth**: how many levels of nesting it takes to read the tree.

None of the three mentions how tokens are read. That reading finds exactly the trees described
here is proved in `Lox.Proofs.Grammar.Soundness` and `Lox.Proofs.Grammar.Completeness`.
-/

set_option autoImplicit false

namespace Lox

/-! ## Leaves

A tree does not keep all of its tokens. It keeps the lexemes of names and operators, since a
failing computation is reported there, and forgets those of everything else. Which of the two a
token is depends on its kind alone, so forgetting is a function on tokens (`Token.leaf`), and a
tree's yield can be compared with a token sequence by an equation. -/

/-- What a tree knows of one of the tokens it was read from. -/
inductive Leaf where
  /-- Only the kind. -/
  | bare (kind : TokenKind)
  /-- The kind and the lexeme. -/
  | sited (kind : TokenKind) (site : Lexeme)
deriving DecidableEq, Repr

/-- Whether a tree keeps the lexeme of a symbol. The ones it forgets only hold other parts
together. -/
def Symbol.isSited : Symbol → Bool
  | .leftParen | .rightParen | .leftBrace | .rightBrace | .dot | .semicolon | .equal => false
  | _ => true

/-- Whether a tree keeps the lexeme of a token of the given kind. -/
def TokenKind.isSited : TokenKind → Bool
  | symbol s => s.isSited
  | ident => true
  | _ => false

/-- What a tree knows of the token `t`. -/
def Token.leaf (t : Token) : Leaf :=
  if t.kind.isSited then .sited t.kind t.lexeme else .bare t.kind

theorem Token.leaf_eq_bare {t : Token} {kind : TokenKind} (h : t.leaf = .bare kind) :
    t.kind = kind := by
  unfold leaf at h
  split at h
  · cases h
  · exact Leaf.bare.inj h

theorem Token.leaf_eq_sited {t : Token} {kind : TokenKind} {site : Lexeme}
    (h : t.leaf = .sited kind site) : t.kind = kind ∧ t.lexeme = site := by
  unfold leaf at h
  split at h
  · exact Leaf.sited.inj h
  · cases h

/-- The kind of the token that a leaf stands for. -/
def Leaf.kind : Leaf → TokenKind
  | bare kind => kind
  | sited kind _ => kind

theorem Token.kind_eq_of_leaf {t : Token} {leaf : Leaf} (h : t.leaf = leaf) :
    t.kind = leaf.kind := by
  subst h
  unfold leaf
  split <;> rfl

@[simp] theorem UnaryOp.isSited_symbol (op : UnaryOp) : op.symbol.isSited = true := by
  cases op <;> rfl

@[simp] theorem BinaryOp.isSited_symbol (op : BinaryOp) : op.symbol.isSited = true := by
  cases op <;> rfl

/-! ## Yields -/

/-- The kind of the token that a literal is written with. -/
def Value.literalKind : Value → TokenKind
  | number n => .number n
  | string s => .string s
  | bool true => .keyword .trueWord
  | bool false => .keyword .falseWord
  | nil => .keyword .nilWord

/-- The tokens of an expression, from left to right. -/
def Expr.yield : Expr → List Leaf
  | .literal v => [.bare v.literalKind]
  | .grouping e => .bare (.symbol .leftParen) :: (e.yield ++ [.bare (.symbol .rightParen)])
  | .name site => [.sited .ident site]
  | .assign site e => .sited .ident site :: .bare (.symbol .equal) :: e.yield
  | .unary op site e => .sited (.symbol op.symbol) site :: e.yield
  | .binary op site l r => l.yield ++ .sited (.symbol op.symbol) site :: r.yield
  | .ternary c question s colon f =>
    c.yield ++ .sited (.symbol .question) question ::
      (s.yield ++ .sited (.symbol .colon) colon :: f.yield)

mutual

/-- The tokens of a statement, from left to right. -/
def Stmt.yield : Stmt → List Leaf
  | .expression e => e.yield ++ [.bare (.symbol .semicolon)]
  | .print e => .bare (.keyword .printWord) :: (e.yield ++ [.bare (.symbol .semicolon)])
  | .var site none =>
    [.bare (.keyword .varWord), .sited .ident site, .bare (.symbol .semicolon)]
  | .var site (some e) =>
    .bare (.keyword .varWord) :: .sited .ident site :: .bare (.symbol .equal) ::
      (e.yield ++ [.bare (.symbol .semicolon)])
  | .block body =>
    .bare (.symbol .leftBrace) :: (stmtsYield body ++ [.bare (.symbol .rightBrace)])

/-- The tokens of some statements, one after the other. -/
def stmtsYield : List Stmt → List Leaf
  | [] => []
  | s :: rest => s.yield ++ stmtsYield rest

end

/-- The tokens of a program, from left to right. -/
def Program.yield (p : Program) : List Leaf := stmtsYield p

/-! ## Shape -/

/-- How tightly the parts of an expression hold together, from the loosest to the tightest. -/
inductive Precedence where
  | comma
  | assignment
  | ternary
  | equality
  | comparison
  | term
  | factor
  | unary
  | primary
deriving DecidableEq, Repr

/-- The position of a precedence in that order. -/
def Precedence.rank : Precedence → Nat
  | comma => 0
  | assignment => 1
  | ternary => 2
  | equality => 3
  | comparison => 4
  | term => 5
  | factor => 6
  | unary => 7
  | primary => 8

theorem Precedence.rank_injective {p q : Precedence} (h : p.rank = q.rank) : p = q := by
  cases p <;> cases q <;> first | rfl | cases h

/-- The precedence of a binary operator. -/
def BinaryOp.precedence : BinaryOp → Precedence
  | comma => .comma
  | equal | notEqual => .equality
  | less | lessEqual | greater | greaterEqual => .comparison
  | add | subtract => .term
  | multiply | divide => .factor

/-- The precedence of the outermost node of an expression. -/
def Expr.precedence : Expr → Precedence
  | .literal _ | .grouping _ | .name _ => .primary
  | .assign .. => .assignment
  | .unary .. => .unary
  | .binary op .. => op.precedence
  | .ternary .. => .ternary

/-- Whether no part of an expression is held together more loosely than its place allows. On the
left of a binary operator one of the same precedence may stand, on the right only a tighter one:
this is left associativity. The value of an assignment may be an assignment again. What is in
parentheses, or between the question mark and the colon, may be anything. -/
def Expr.Shaped : Expr → Prop
  | .literal _ | .name _ => True
  | .grouping e => e.Shaped
  | .assign _ e => e.Shaped ∧ Precedence.assignment.rank ≤ e.precedence.rank
  | .unary _ _ e => e.Shaped ∧ Precedence.unary.rank ≤ e.precedence.rank
  | .binary op _ l r =>
    l.Shaped ∧ r.Shaped ∧ op.precedence.rank ≤ l.precedence.rank ∧
      op.precedence.rank < r.precedence.rank
  | .ternary c _ s _ f =>
    c.Shaped ∧ s.Shaped ∧ f.Shaped ∧ Precedence.equality.rank ≤ c.precedence.rank ∧
      Precedence.equality.rank ≤ f.precedence.rank

mutual

/-- Whether every expression in a statement is shaped. -/
def Stmt.Shaped : Stmt → Prop
  | .expression e | .print e => e.Shaped
  | .var _ initial => ∀ e ∈ initial, e.Shaped
  | .block body => StmtsShaped body

/-- Whether every expression in some statements is shaped. -/
def StmtsShaped : List Stmt → Prop
  | [] => True
  | s :: rest => s.Shaped ∧ StmtsShaped rest

end

/-- Whether every expression in a program is shaped. -/
def Program.Shaped (p : Program) : Prop := StmtsShaped p

/-! ## Depth -/

/-- How many levels of nesting there are inside an expression. Parentheses, a unary operator, an
assignment and the middle of a ternary each open one; the operands of a binary operator, the
condition of a ternary and its last part are on the level of the whole. -/
def Expr.depth : Expr → Nat
  | .literal _ | .name _ => 0
  | .grouping e | .assign _ e | .unary _ _ e => e.depth + 1
  | .binary _ _ l r => max l.depth r.depth
  | .ternary c _ s _ f => max c.depth (max (s.depth + 1) f.depth)

mutual

/-- How many levels of nesting a statement has. An expression in it is one, and so is the inside
of a block. -/
def Stmt.depth : Stmt → Nat
  | .expression e | .print e => e.depth + 1
  | .var _ none => 0
  | .var _ (some e) => e.depth + 1
  | .block body => stmtsDepth body + 1

/-- How many levels of nesting the deepest of some statements has. -/
def stmtsDepth : List Stmt → Nat
  | [] => 0
  | s :: rest => max s.depth (stmtsDepth rest)

end

/-- How many levels of nesting a program has. -/
def Program.depth (p : Program) : Nat := stmtsDepth p

/-! ## How an expression begins

One token decides whether an expression begins there, and which kind of statement does. No
expression begins with a word of a statement, with a brace, or with an operator that wants a left
operand; this is what lets a reader choose by looking one token ahead. -/

/-- Whether an expression may begin with a token of the given kind. -/
def TokenKind.beginsExpr : TokenKind → Bool
  | number _ | string _ | ident => true
  | keyword .trueWord | keyword .falseWord | keyword .nilWord => true
  | symbol .leftParen | symbol .bang | symbol .minus => true
  | _ => false

theorem Value.beginsExpr_literalKind (v : Value) : v.literalKind.beginsExpr = true := by
  cases v with
  | bool b => cases b <;> rfl
  | _ => rfl

/-- An expression has a first token, with which an expression may begin. -/
theorem Expr.yield_eq_cons (e : Expr) :
    ∃ leaf rest, e.yield = leaf :: rest ∧ leaf.kind.beginsExpr = true := by
  induction e with
  | literal v => exact ⟨_, _, rfl, v.beginsExpr_literalKind⟩
  | grouping e _ => exact ⟨_, _, rfl, rfl⟩
  | name site => exact ⟨_, _, rfl, rfl⟩
  | assign site e _ => exact ⟨_, _, rfl, rfl⟩
  | unary op site e _ => exact ⟨_, _, rfl, by cases op <;> rfl⟩
  | binary op site l r ihl _ =>
    obtain ⟨leaf, rest, hl, hb⟩ := ihl
    exact ⟨leaf, _, by rw [yield, hl, List.cons_append], hb⟩
  | ternary c question s colon f ihc _ _ =>
    obtain ⟨leaf, rest, hc, hb⟩ := ihc
    exact ⟨leaf, _, by rw [yield, hc, List.cons_append], hb⟩

/-- A statement has a first token, and that is no closing brace. -/
theorem Stmt.yield_eq_cons (s : Stmt) :
    ∃ leaf rest, s.yield = leaf :: rest ∧ leaf.kind ≠ .symbol .rightBrace := by
  cases s with
  | expression e =>
    obtain ⟨leaf, rest, hy, hb⟩ := e.yield_eq_cons
    refine ⟨leaf, _, by rw [yield, hy, List.cons_append], ?_⟩
    intro hk
    rw [hk] at hb
    cases hb
  | print e => exact ⟨_, _, rfl, by simp [Leaf.kind]⟩
  | var site initial => cases initial <;> exact ⟨_, _, rfl, by simp [Leaf.kind]⟩
  | block body => exact ⟨_, _, rfl, by simp [Leaf.kind]⟩

end Lox
