import Lox.Proofs.Grammar.Soundness

/-!
# Every tree of the grammar is read

The other direction: tokens that are a reading of a tree are read as that tree, whatever stands
behind them, as long as it does not go on with the tree (`StopsAt`). One token of lookahead is all
that this takes.

A left-associative chain is read from left to right while its tree has the last operator on top.
What reconciles the two is an equation instead of a result: reading the tokens of a tree and what
follows is *the same as* going on with the chain behind that tree (`chain_run_of_reading`). It goes
by induction along the left edge of the tree, and only then is the chain found to be at its end.
-/

set_option autoImplicit false

namespace Lox

/-! ## What goes on with an expression -/

/-- The precedence of what a symbol makes of the expression before it, if it can stand there. -/
def Symbol.extends? : Symbol → Option Precedence
  | .comma => some .comma
  | .equal => some .assignment
  | .question => some .ternary
  | .equalEqual | .bangEqual => some .equality
  | .less | .lessEqual | .greater | .greaterEqual => some .comparison
  | .plus | .minus => some .term
  | .star | .slash => some .factor
  | _ => none

/-- The precedence of what a token of the given kind makes of the expression before it. -/
def TokenKind.extends? : TokenKind → Option Precedence
  | symbol s => s.extends?
  | _ => none

/-- Whether an expression that binds at least as tightly as `p` ends before the tokens `ts`:
the first of them, if it goes on with an expression, makes a looser one. -/
def StopsAt (p : Precedence) (ts : List Token) : Prop :=
  ∀ t ∈ ts.head?, ∀ q ∈ t.kind.extends?, q.rank < p.rank

theorem BinaryOp.extends?_symbol (op : BinaryOp) : op.symbol.extends? = some op.precedence := by
  cases op <;> rfl

theorem BinaryOp.symbol_injective {op op' : BinaryOp} (h : op.symbol = op'.symbol) :
    op = op' := by
  cases op <;> cases op' <;> first | rfl | cases h

theorem StopsAt.tighten {p q : Precedence} {ts : List Token} (h : StopsAt p ts)
    (hle : p.rank ≤ q.rank) : StopsAt q ts :=
  fun t ht q' hq => Nat.lt_of_lt_of_le (h t ht q' hq) hle

theorem stopsAt_cons {p : Precedence} {t : Token} {ts : List Token} {kind : TokenKind}
    (hk : t.kind = kind) (h : ∀ q ∈ kind.extends?, q.rank < p.rank) : StopsAt p (t :: ts) := by
  rintro t' ⟨⟩ q hq
  exact h q (hk ▸ hq)

/-- Where an expression ends, its own operators do not come next. -/
theorem StopsAt.kind_ne {p q : Precedence} {ts : List Token} {s : Symbol} (h : StopsAt p ts)
    (hs : s.extends? = some q) (hle : p.rank ≤ q.rank) :
    ∀ t ∈ ts.head?, t.kind ≠ .symbol s := by
  intro t ht hk
  have := h t ht q (by rw [hk]; exact hs)
  omega

theorem StopsAt.among_eq_none {p : Precedence} {ts : List Token} {ops : List BinaryOp}
    (h : StopsAt p ts) (hops : ∀ op ∈ ops, op.precedence = p) :
    ∀ t ∈ ts.head?, t.kind.symbol?.bind (BinaryOp.among ops) = none := by
  intro t ht
  rw [Option.eq_none_iff_forall_ne_some]
  intro op hop
  obtain ⟨hk, hmem⟩ := TokenKind.eq_symbol_of_binaryOp hop
  have := h t ht op.precedence (by rw [hk]; exact op.extends?_symbol)
  rw [hops op hmem] at this
  omega

/-! ## Expressions -/

/-- Whether every expression that binds at least as tightly as `p` and nests less than `room`
levels deep is read by the rule `r`. -/
def Rule.CompleteAt (r : Rule Expr) (p : Precedence) (room : Nat) : Prop :=
  ∀ finish e used rest, Reading p room e used → StopsAt p rest →
    r.run finish (used ++ rest) = .ok e rest

namespace Grammar

open Rule

/-- Whether the rules of the next level read all they should when `room` levels are left. -/
structure InnerComplete (inner : Inner) (room : Nat) : Prop where
  expression : inner.expression.CompleteAt .comma room
  assignment : inner.assignment.CompleteAt .assignment room
  unary : inner.unary.CompleteAt .unary room

/-! ### Chains -/

theorem among_symbol {ops : List BinaryOp} {op : BinaryOp} (h : op ∈ ops) :
    BinaryOp.among ops op.symbol = some op := by
  unfold BinaryOp.among
  cases hf : ops.find? (·.symbol == op.symbol) with
  | none =>
    have := List.find?_eq_none.mp hf op h
    simp at this
  | some op' =>
    have : op'.symbol = op.symbol := by simpa using List.find?_some hf
    rw [BinaryOp.symbol_injective this]

theorem chainRun_cons {ops : List BinaryOp} {operand : Rule Expr} {finish : Lexeme}
    {lhs rhs : Expr} {op : BinaryOp} {t : Token} {ts rest : List Token} (hop : op ∈ ops)
    (ht : t.kind = .symbol op.symbol) (hr : operand.run finish ts = .ok rhs rest) :
    chainRun ops operand finish lhs (t :: ts) =
      chainRun ops operand finish (.binary op t.lexeme lhs rhs) rest := by
  have hsome : t.kind.symbol?.bind (BinaryOp.among ops) = some op := by
    rw [ht]
    exact among_symbol hop
  exact (chain_run_of_some hsome).trans (run_bind_of_ok hr)

/-- Reading the tokens of a tree with the operators of one precedence along its left edge, and
then what follows, is going on with the chain behind that tree. -/
theorem chain_run_of_reading {ops : List BinaryOp} {operand : Rule Expr} {p q : Precedence}
    {room : Nat} (hops : ∀ op, op.precedence = p → op ∈ ops)
    (hp : ∀ e : Expr, e.precedence = p → ∃ op site l r, e = .binary op site l r)
    (hq : q.rank = p.rank + 1) (hr : operand.CompleteAt q room) {finish : Lexeme} {e : Expr}
    {used rest : List Token} (h : Reading p room e used) (hstop : StopsAt q rest) :
    (do chain ops operand (← operand)).run finish (used ++ rest) =
      chainRun ops operand finish e rest := by
  -- A tree without such an operator on top is a single operand.
  have hoperand {e : Expr} {used rest : List Token} (hne : e.precedence ≠ p)
      (h : Reading p room e used) (hstop : StopsAt q rest) :
      (do chain ops operand (← operand)).run finish (used ++ rest) =
        chainRun ops operand finish e rest := by
    have hrank : p.rank ≠ e.precedence.rank := fun heq => hne (Precedence.rank_injective heq).symm
    have hle := h.rank_le
    have h' : Reading q room e used := ⟨h.yield, h.shaped, by omega, h.depth_lt⟩
    rw [run_bind_of_ok (hr finish e used rest h' hstop)]
    rfl
  induction e generalizing used rest with
  | binary op site l r ihl _ =>
    by_cases hop : op.precedence = p
    · subst hop
      obtain ⟨ul, t, ur, rfl, ht, rfl, hl, hrhs⟩ := h.of_binary hq
      have hnext : StopsAt q (t :: (ur ++ rest)) := by
        refine stopsAt_cons ht fun q' hq' => ?_
        cases (op.extends?_symbol).symm.trans hq'
        omega
      rw [List.append_assoc, List.cons_append, ihl hl hnext,
        chainRun_cons (hops op rfl) ht (hr finish r ur rest hrhs hstop)]
    · exact hoperand hop h hstop
  | literal | grouping | name | assign | unary | ternary =>
    refine hoperand (fun heq => ?_) h hstop
    obtain ⟨op, site, l, r, he⟩ := hp _ heq
    cases he

/-- A node that binds like a binary operator is one. -/
theorem eq_binary_of_precedence {e : Expr} {op : BinaryOp} (h : e.precedence = op.precedence) :
    ∃ op site l r, e = .binary op site l r := by
  cases e with
  | binary op site l r => exact ⟨op, site, l, r, rfl⟩
  | _ => cases op <;> cases h

/-- A chain that is read to its end gives the whole tree. -/
theorem chain_complete {ops : List BinaryOp} {operand : Rule Expr} {p q : Precedence}
    {room : Nat} (hops : ∀ op, op ∈ ops ↔ op.precedence = p) (op : BinaryOp)
    (hop : op.precedence = p) (hq : q.rank = p.rank + 1) (hr : operand.CompleteAt q room) :
    (do chain ops operand (← operand)).CompleteAt p room := by
  intro finish e used rest h hstop
  rw [chain_run_of_reading (fun op => (hops op).mpr)
    (fun e he => eq_binary_of_precedence (he.trans hop.symm)) hq hr h (hstop.tighten (by omega))]
  exact chain_run_of_stop (hstop.among_eq_none fun op => (hops op).mp)

/-- Where an expression begins there is no operator that lacks its left operand. -/
theorem nonLeading_eq_none {level : Level} {kind : TokenKind} (h : kind.beginsExpr = true) :
    kind.symbol?.bind (BinaryOp.among level.nonLeading) = none := by
  cases kind with
  | symbol s => cases s <;> first | (cases level <;> rfl) | cases h
  | _ => rfl

theorem leftAssociative_complete {level : Level} {operand : Rule Expr} {room : Nat}
    (hr : operand.CompleteAt level.operandPrecedence room) :
    (leftAssociative level operand).CompleteAt level.precedence room := by
  intro finish e used rest h hstop
  have hhead : ∀ t ∈ (used ++ rest).head?,
      t.kind.symbol?.bind (BinaryOp.among level.nonLeading) = none := by
    obtain ⟨t, u, rfl, hb⟩ := h.head_beginsExpr
    rintro t' ⟨⟩
    exact nonLeading_eq_none hb
  rw [leftAssociative, run_bind_of_ok (run_take?_of_none hhead)]
  obtain ⟨op, hop⟩ : ∃ op : BinaryOp, op.precedence = level.precedence := by
    cases level
    · exact ⟨.equal, rfl⟩
    · exact ⟨.less, rfl⟩
    · exact ⟨.add, rfl⟩
    · exact ⟨.multiply, rfl⟩
  exact chain_complete (fun _ => Level.mem_operators_iff) op hop level.rank_operandPrecedence hr
    finish e used rest h hstop

/-! ### The rules of one level -/

theorem atom?_of_literalKind {t : Token} {v : Value} (h : t.kind = v.literalKind) :
    atom? t = some (.literal v) := by
  unfold atom?
  rw [h]
  cases v with
  | bool b => cases b <;> rfl
  | _ => rfl

theorem atom?_of_ident {t : Token} (h : t.kind = .ident) : atom? t = some (.name t.lexeme) := by
  unfold atom?
  rw [h]

theorem atom?_of_leftParen {t : Token} (h : t.kind = .symbol .leftParen) : atom? t = none := by
  unfold atom?
  rw [h]

theorem primary_of_atom {inner : Inner} {finish : Lexeme} {t : Token} {e : Expr}
    {rest : List Token} (h : atom? t = some e) :
    (primary inner).run finish (t :: rest) = .ok e rest := by
  rw [primary, run_bind_of_ok run_peek]
  dsimp only [List.head?_cons]
  rw [h]
  rfl

theorem primary_complete {inner : Inner} {room : Nat} (hi : InnerComplete inner room) :
    (primary inner).CompleteAt .primary (room + 1) := by
  intro finish e used rest h hstop
  cases e with
  | literal v =>
    obtain ⟨t, _, rfl, ht, hnil⟩ := List.map_eq_cons_iff.mp h.yield
    cases List.map_eq_nil_iff.mp hnil
    exact primary_of_atom (atom?_of_literalKind (Token.leaf_eq_bare ht))
  | name site =>
    obtain ⟨t, _, rfl, ht, hnil⟩ := List.map_eq_cons_iff.mp h.yield
    cases List.map_eq_nil_iff.mp hnil
    obtain ⟨hk, rfl⟩ := Token.leaf_eq_sited ht
    exact primary_of_atom (atom?_of_ident hk)
  | grouping e =>
    obtain ⟨opening, u, closing, rfl, ho, hc, hread⟩ := h.of_grouping
    have hclose : StopsAt .comma (closing :: rest) := stopsAt_cons hc (by rintro q ⟨⟩)
    rw [primary, run_bind_of_ok run_peek]
    dsimp only [List.cons_append, List.head?_cons]
    rw [atom?_of_leftParen ho]
    dsimp only
    rw [run_bind_of_ok (run_takeKind?_of_kind ho), List.append_assoc]
    dsimp only [List.cons_append, List.nil_append]
    rw [run_bind_of_ok (hi.expression finish e u _ hread hclose),
      run_bind_of_ok (run_expect_of_kind hc)]
    rfl
  | assign | unary | ternary => exact absurd h.rank_le (by simp [Precedence.rank, Expr.precedence])
  | binary op =>
    exact absurd h.rank_le (by cases op <;> simp [Precedence.rank, Expr.precedence,
      BinaryOp.precedence])

/-- No primary expression begins with a unary operator. -/
theorem unaryOp_eq_none_of_primary {room : Nat} {e : Expr} {used rest : List Token}
    (h : Reading .primary room e used) :
    ∀ t ∈ (used ++ rest).head?, t.kind.symbol?.bind (UnaryOp.among [.not, .negate]) = none := by
  have hkind : ∃ leaf leaves, e.yield = leaf :: leaves ∧
      leaf.kind.symbol?.bind (UnaryOp.among [.not, .negate]) = none := by
    cases e with
    | literal v =>
      refine ⟨_, _, rfl, ?_⟩
      cases v with
      | bool b => cases b <;> rfl
      | _ => rfl
    | name | grouping => exact ⟨_, _, rfl, rfl⟩
    | assign | unary | ternary =>
      exact absurd h.rank_le (by simp [Precedence.rank, Expr.precedence])
    | binary op =>
      exact absurd h.rank_le (by cases op <;> simp [Precedence.rank, Expr.precedence,
        BinaryOp.precedence])
  obtain ⟨leaf, leaves, hy, hnone⟩ := hkind
  obtain ⟨t, u, rfl, ht, -⟩ := List.map_eq_cons_iff.mp (h.yield.trans hy)
  rintro t' ⟨⟩
  rw [Token.kind_eq_of_leaf ht, hnone]

theorem unary_complete {inner : Inner} {room : Nat} (hi : InnerComplete inner room) :
    (unary inner).CompleteAt .unary (room + 1) := by
  intro finish e used rest h hstop
  by_cases hp : Precedence.primary.rank ≤ e.precedence.rank
  · have h' : Reading .primary (room + 1) e used := ⟨h.yield, h.shaped, hp, h.depth_lt⟩
    rw [unary, run_bind_of_ok (run_take?_of_none (unaryOp_eq_none_of_primary h'))]
    exact primary_complete hi finish e used rest h' (hstop.tighten (by decide))
  · cases e with
    | unary op site e =>
      obtain ⟨t, u, rfl, ht, rfl, hread⟩ := h.of_unary
      have hop : t.kind.symbol?.bind (UnaryOp.among [.not, .negate]) = some op := by
        rw [ht]
        cases op <;> rfl
      rw [unary, List.cons_append, run_bind_of_ok (run_take?_of_some hop)]
      dsimp only
      rw [run_bind_of_ok (hi.unary finish e u rest hread hstop)]
      rfl
    | literal | grouping | name => exact absurd (Nat.le_refl _) hp
    | assign | ternary => exact absurd h.rank_le (by simp [Precedence.rank, Expr.precedence])
    | binary op =>
      exact absurd h.rank_le (by cases op <;> simp [Precedence.rank, Expr.precedence,
        BinaryOp.precedence])

theorem equality_complete {inner : Inner} {room : Nat} (hi : InnerComplete inner room) :
    (equality inner).CompleteAt .equality (room + 1) :=
  leftAssociative_complete <| leftAssociative_complete <| leftAssociative_complete <|
    leftAssociative_complete <| unary_complete hi

theorem ternary_complete {inner : Inner} {room : Nat} (hi : InnerComplete inner room) :
    (ternary inner).CompleteAt .ternary (room + 1) := by
  intro finish e used rest h hstop
  by_cases hp : Precedence.equality.rank ≤ e.precedence.rank
  · have h' : Reading .equality (room + 1) e used := ⟨h.yield, h.shaped, hp, h.depth_lt⟩
    rw [ternary, run_bind_of_ok
        (equality_complete hi finish e used rest h' (hstop.tighten (by decide))),
      run_bind_of_ok (run_takeKind?_of_ne (hstop.kind_ne rfl (Nat.le_refl _)))]
    rfl
  · cases e with
    | ternary c question s colon f =>
      obtain ⟨uc, tq, us, tk, uf, rfl, hq, rfl, hk, rfl, hc, hs, hf⟩ := h.of_ternary
      have hquestion : StopsAt .equality (tq :: (us ++ tk :: (uf ++ rest))) :=
        stopsAt_cons hq (by rintro q ⟨⟩; decide)
      have hcolon : StopsAt .comma (tk :: (uf ++ rest)) := stopsAt_cons hk (by rintro q ⟨⟩)
      rw [ternary]
      simp only [List.append_assoc, List.cons_append]
      rw [run_bind_of_ok (equality_complete hi finish c uc _ hc hquestion),
        run_bind_of_ok (run_takeKind?_of_kind hq)]
      dsimp only
      rw [run_bind_of_ok (hi.expression finish s us _ hs hcolon),
        run_bind_of_ok (run_expect_of_kind hk),
        run_bind_of_ok
          (equality_complete hi finish f uf rest hf (hstop.tighten (by decide)))]
      rfl
    | literal | grouping | name | unary =>
      exact absurd (by simp [Precedence.rank, Expr.precedence]) hp
    | assign => exact absurd h.rank_le (by simp [Precedence.rank, Expr.precedence])
    | binary op =>
      have := h.rank_le
      cases op <;> simp [Precedence.rank, Expr.precedence, BinaryOp.precedence] at hp this

theorem assignment_complete {inner : Inner} {room : Nat} (hi : InnerComplete inner room) :
    (assignment inner).CompleteAt .assignment (room + 1) := by
  intro finish e used rest h hstop
  by_cases hp : Precedence.ternary.rank ≤ e.precedence.rank
  · have h' : Reading .ternary (room + 1) e used := ⟨h.yield, h.shaped, hp, h.depth_lt⟩
    rw [assignment, run_bind_of_ok
        (ternary_complete hi finish e used rest h' (hstop.tighten (by decide))),
      run_bind_of_ok (run_takeKind?_of_ne (hstop.kind_ne rfl (Nat.le_refl _)))]
    rfl
  · cases e with
    | assign site e =>
      obtain ⟨name, equals, u, rfl, hn, rfl, heq, hread⟩ := h.of_assign
      have hname : Reading .ternary (room + 1) (.name name.lexeme) [name] :=
        (Reading.name hn).loosen (by decide)
      have hequals : StopsAt .ternary (equals :: (u ++ rest)) :=
        stopsAt_cons heq (by rintro q ⟨⟩; decide)
      rw [assignment]
      change ((ternary inner >>= _).run finish ([name] ++ equals :: (u ++ rest))) = _
      rw [run_bind_of_ok (ternary_complete hi finish _ _ _ hname hequals),
        run_bind_of_ok (run_takeKind?_of_kind heq)]
      dsimp only
      rw [run_bind_of_ok (hi.assignment finish e u rest hread hstop)]
      rfl
    | literal | grouping | name | unary | ternary =>
      exact absurd (by simp [Precedence.rank, Expr.precedence]) hp
    | binary op =>
      have := h.rank_le
      cases op <;> simp [Precedence.rank, Expr.precedence, BinaryOp.precedence] at hp this

theorem comma_complete {inner : Inner} {room : Nat} (hi : InnerComplete inner room) :
    (comma inner).CompleteAt .comma (room + 1) :=
  chain_complete (by rintro ⟨⟩ <;> simp [BinaryOp.precedence]) .comma rfl rfl
    (assignment_complete hi)

/-- With no room left there is nothing to read, and with room for one level more that level reads
all it should if the level inside it does. -/
theorem inner_complete (room : Nat) : InnerComplete (inner room) room := by
  induction room with
  | zero =>
    have hfail {p : Precedence} : (fail .excessiveNesting : Rule Expr).CompleteAt p 0 :=
      fun _ _ _ _ h _ => absurd h.depth_lt (Nat.not_lt_zero _)
    exact ⟨hfail, hfail, hfail⟩
  | succ room ih => exact ⟨comma_complete ih, assignment_complete ih, unary_complete ih⟩

end Grammar

/-! ## Statements -/

/-- Whether every statement that nests at most `room` levels deep is read by the rule `r`. -/
def Rule.StmtCompleteAt (r : Rule Stmt) (room : Nat) : Prop :=
  ∀ finish s used rest, s.Reading room used → r.run finish (used ++ rest) = .ok s rest

namespace Grammar

open Rule

variable {room : Nat}

theorem terminated_complete {expression : Rule Expr} {what : Terminated} {finish : Lexeme}
    {used rest : List Token} {e : Expr} {semicolon : Token}
    (he : expression.CompleteAt .comma room) (h : Reading .comma room e used)
    (hs : semicolon.kind = .symbol .semicolon) :
    (terminated expression what).run finish (used ++ semicolon :: rest) = .ok e rest := by
  have hstop : StopsAt .comma (semicolon :: rest) := stopsAt_cons hs (by rintro q ⟨⟩)
  rw [terminated, run_bind_of_ok (he finish e used _ h hstop),
    run_bind_of_ok (run_expect_of_kind hs)]
  rfl

/-- Whether a block's rule reads, behind an opening brace, every block that nests at most `room`
levels deep. -/
def BlockCompleteAt (block : Rule Stmt) (room : Nat) : Prop :=
  ∀ finish body opening used rest, Stmt.Reading room (.block body) (opening :: used) →
    block.run finish (used ++ rest) = .ok (.block body) rest

theorem statement_complete {block : Rule Stmt} {expression : Rule Expr}
    (hb : BlockCompleteAt block room) (he : expression.CompleteAt .comma room) :
    (statement block expression).StmtCompleteAt room := by
  intro finish s used rest h
  rw [statement, run_bind_of_ok run_peek]
  cases s with
  | expression e =>
    obtain ⟨u, semicolon, rfl, hs, hread⟩ := h.of_expression
    obtain ⟨t, u, rfl, hbegins⟩ := hread.head_beginsExpr
    simp only [List.cons_append, List.append_assoc, List.nil_append, List.head?_cons,
      Option.map_some]
    -- The words and the brace that begin other statements begin no expression.
    split
    · rename_i hk
      rw [Option.some.inj hk] at hbegins
      cases hbegins
    · rename_i hk
      rw [Option.some.inj hk] at hbegins
      cases hbegins
    · rename_i hk
      rw [Option.some.inj hk] at hbegins
      cases hbegins
    · exact run_map_of_ok (terminated_complete he hread hs)
  | print e =>
    obtain ⟨t, u, semicolon, rfl, ht, hs, hread⟩ := h.of_print
    simp only [List.cons_append, List.append_assoc, List.nil_append, List.head?_cons,
      Option.map_some, ht]
    rw [run_bind_of_ok run_skip]
    exact run_map_of_ok (terminated_complete he hread hs)
  | var site initial =>
    cases initial with
    | none =>
      obtain ⟨t, name, semicolon, rfl, ht, hn, rfl, hs⟩ := h.of_var
      have hne : ∀ t ∈ (semicolon :: rest).head?, t.kind ≠ .symbol .equal := by
        rintro t ⟨⟩
        simp [hs]
      simp only [List.cons_append, List.nil_append, List.head?_cons, Option.map_some, ht]
      rw [run_bind_of_ok run_skip, variableDeclaration]
      dsimp only [List.tail_cons]
      rw [run_bind_of_ok (run_expect_of_kind hn), run_bind_of_ok (run_takeKind?_of_ne hne)]
      dsimp only
      rw [run_bind_of_ok (run_pure none finish _), run_bind_of_ok (run_expect_of_kind hs)]
      rfl
    | some e =>
      obtain ⟨t, name, equals, u, semicolon, rfl, ht, hn, rfl, heq, hs, hread⟩ :=
        h.of_varInitial
      have hstop : StopsAt .comma (semicolon :: rest) := stopsAt_cons hs (by rintro q ⟨⟩)
      simp only [List.cons_append, List.append_assoc, List.nil_append, List.head?_cons,
        Option.map_some, ht]
      rw [run_bind_of_ok run_skip, variableDeclaration]
      dsimp only [List.tail_cons]
      rw [run_bind_of_ok (run_expect_of_kind hn), run_bind_of_ok (run_takeKind?_of_kind heq)]
      dsimp only
      rw [run_bind_of_ok (run_map_of_ok (he finish e u _ hread hstop)),
        run_bind_of_ok (run_expect_of_kind hs)]
      rfl
  | block body =>
    obtain ⟨opening, u, closing, rfl, ho, hc, _, _⟩ := h.of_block
    simp only [List.cons_append, List.head?_cons, Option.map_some, ho]
    rw [run_bind_of_ok run_skip]
    exact hb finish body opening _ rest h

/-- Whether the declarations of a block end here. -/
def endsBlock (kind : Option TokenKind) : Bool :=
  kind == none || kind == some (.symbol .rightBrace)

theorem many_complete {r : Rule Stmt} {hr : r.Consumes} (hs : r.StmtCompleteAt room)
    {finish : Lexeme} {body : List Stmt} {used rest : List Token} {closing : Token}
    (h : StmtsReading room body used) (hc : closing.kind = .symbol .rightBrace) :
    (many endsBlock r hr).run finish (used ++ closing :: rest) = .ok body (closing :: rest) := by
  induction body generalizing used with
  | nil =>
    cases List.map_eq_nil_iff.mp h.yield
    exact many_run_of_stop (by simp [endsBlock, hc])
  | cons s body ih =>
    obtain ⟨us, ub, rfl, hread, hbody⟩ := h.of_cons
    have hrun := hs finish s us (ub ++ closing :: rest) hread
    obtain ⟨t, us, rfl, hne⟩ := hread.head_ne_rightBrace
    have hgoes : ¬ endsBlock (some t.kind) = true := by
      simp [endsBlock, hne]
    rw [List.append_assoc]
    exact (many_run_of_go hgoes).trans ((run_bind_of_ok hrun).trans (run_bind_of_ok (ih hbody)))

theorem block_complete {declaration : { r : Rule Stmt // r.Consumes }}
    (hd : declaration.1.StmtCompleteAt room) :
    BlockCompleteAt (block declaration) (room + 1) := by
  intro finish body opening used rest h
  obtain ⟨opening', u, closing, heq, _, hc, _, hbody⟩ := h.of_block
  cases heq
  have hmany : (many (fun k => k == none || k == some (.symbol .rightBrace)) declaration.1
      declaration.2).run finish (u ++ closing :: rest) = .ok body (closing :: rest) :=
    many_complete hd hbody hc
  rw [block, List.append_assoc]
  dsimp only [List.cons_append, List.nil_append]
  rw [run_bind_of_ok hmany, run_bind_of_ok (run_expect_of_kind hc)]
  rfl

theorem declarationWithin_complete (room : Nat) :
    (declarationWithin room).1.StmtCompleteAt room := by
  induction room with
  | zero =>
    refine statement_complete (fun finish body opening used rest h => ?_)
      (inner_complete 0).expression
    obtain ⟨_, _, _, _, _, _, hpos, _⟩ := h.of_block
    exact absurd hpos (Nat.lt_irrefl 0)
  | succ room ih =>
    exact statement_complete (block_complete ih) (inner_complete (room + 1)).expression

/-- Tokens that are declarations of the grammar are read as those declarations. -/
theorem declarations_complete {finish : Lexeme} {body : List Stmt} {ts : List Token}
    (h : StmtsReading nestingLimit body ts) : declarations finish ts = body.map .ok := by
  induction body generalizing ts with
  | nil =>
    cases List.map_eq_nil_iff.mp h.yield
    rw [declarations]
    rfl
  | cons s body ih =>
    obtain ⟨us, ub, rfl, hread, hbody⟩ := h.of_cons
    have hrun := declarationWithin_complete nestingLimit finish s us ub hread
    obtain ⟨t, us, rfl, -⟩ := hread.head_ne_rightBrace
    rw [List.cons_append] at hrun ⊢
    rw [declarations_cons_of_ok hrun, ih hbody, List.map_cons]

end Grammar

end Lox
