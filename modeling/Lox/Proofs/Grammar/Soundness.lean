import Lox.Proofs.Grammar.Readings
import Lox.Proofs.Grammar.Replies

/-!
# What is read is a tree of the grammar

Whenever a rule of the grammar succeeds, the tokens it has used are a reading of the tree it
replies with: the tree's yield is those tokens and nothing else, its shape is that of the grammar,
and it nests no deeper than there was room for.

The statements follow the rules from the tightest to the loosest, each in terms of the ones it is
written over. Nesting is closed by an induction on the room that is left (`inner_sound`), because
the rules of one level only call those of the next.
-/

set_option autoImplicit false

namespace Lox

/-! ## Operators and their tokens -/

theorem TokenKind.eq_symbol_of_symbol? {kind : TokenKind} {s : Symbol}
    (h : kind.symbol? = some s) : kind = .symbol s := by
  cases kind with
  | symbol s' => cases h; rfl
  | _ => cases h

/-- An operator found among some is written by the token's symbol. -/
theorem TokenKind.eq_symbol_of_binaryOp {kind : TokenKind} {ops : List BinaryOp} {op : BinaryOp}
    (h : kind.symbol?.bind (BinaryOp.among ops) = some op) :
    kind = .symbol op.symbol ∧ op ∈ ops := by
  obtain ⟨s, hs, hop⟩ := Option.bind_eq_some_iff.mp h
  have hsym : op.symbol = s := by simpa using List.find?_some hop
  exact ⟨by rw [hsym, eq_symbol_of_symbol? hs], List.mem_of_find?_eq_some hop⟩

theorem TokenKind.eq_symbol_of_unaryOp {kind : TokenKind} {ops : List UnaryOp} {op : UnaryOp}
    (h : kind.symbol?.bind (UnaryOp.among ops) = some op) : kind = .symbol op.symbol := by
  obtain ⟨s, hs, hop⟩ := Option.bind_eq_some_iff.mp h
  have hsym : op.symbol = s := by simpa using List.find?_some hop
  rw [hsym, eq_symbol_of_symbol? hs]

namespace Grammar

/-- The precedence of the chains of a level. -/
def Level.precedence : Level → Precedence
  | equality => .equality
  | comparison => .comparison
  | term => .term
  | factor => .factor

/-- The precedence of the operands in the chains of a level. -/
def Level.operandPrecedence : Level → Precedence
  | equality => .comparison
  | comparison => .term
  | term => .factor
  | factor => .unary

theorem Level.rank_operandPrecedence (level : Level) :
    level.operandPrecedence.rank = level.precedence.rank + 1 := by
  cases level <;> rfl

/-- The operators of a level are the operators of its precedence. -/
theorem Level.mem_operators_iff {level : Level} {op : BinaryOp} :
    op ∈ level.operators ↔ op.precedence = level.precedence := by
  cases level <;> cases op <;> simp [operators, precedence, BinaryOp.precedence]

end Grammar

/-! ## Expressions -/

/-- Whether everything that the rule `r` reads is an expression that binds at least as tightly as
`p` and nests less than `room` levels deep. -/
def Rule.SoundAt (r : Rule Expr) (p : Precedence) (room : Nat) : Prop :=
  ∀ finish ts e rest, r.run finish ts = .ok e rest →
    ∃ used, ts = used ++ rest ∧ Reading p room e used

namespace Grammar

open Rule

/-- Whether the rules of the next level read what they should when `room` levels are left. -/
structure InnerSound (inner : Inner) (room : Nat) : Prop where
  expression : inner.expression.SoundAt .comma room
  assignment : inner.assignment.SoundAt .assignment room
  unary : inner.unary.SoundAt .unary room

/-- A chain prolongs the reading of its left end, one operator and operand at a time. -/
theorem chainRun_sound {ops : List BinaryOp} {operand : Rule Expr} {p q : Precedence}
    {room : Nat} (hops : ∀ op ∈ ops, op.precedence = p) (hq : q.rank = p.rank + 1)
    (hr : operand.SoundAt q room) {finish : Lexeme} {lhs e : Expr} {ts rest ul : List Token}
    (hl : Reading p room lhs ul) (h : chainRun ops operand finish lhs ts = .ok e rest) :
    ∃ used, ts = used ++ rest ∧ Reading p room e (ul ++ used) := by
  fun_induction chainRun ops operand finish lhs ts generalizing ul with
  | case1 lhs =>
    cases h
    exact ⟨[], rfl, by simpa using hl⟩
  | case2 lhs t ts' hnone =>
    cases h
    exact ⟨[], rfl, by simpa using hl⟩
  | case3 => cases h
  | case4 lhs t ts' op hop rhs rest' hrun hlt ih =>
    obtain ⟨ht, hmem⟩ := TokenKind.eq_symbol_of_binaryOp hop
    obtain ⟨ur, rfl, hrhs⟩ := hr _ _ _ _ hrun
    obtain ⟨used, rfl, he⟩ := ih (hl.binary ht (hops op hmem) hrhs hq) h
    exact ⟨t :: (ur ++ used), by simp, by simpa using he⟩

theorem chain_sound {ops : List BinaryOp} {operand : Rule Expr} {p q : Precedence} {room : Nat}
    (hops : ∀ op ∈ ops, op.precedence = p) (hq : q.rank = p.rank + 1)
    (hr : operand.SoundAt q room) :
    (do chain ops operand (← operand)).SoundAt p room := by
  intro finish ts e rest h
  obtain ⟨lhs, mid, hlhs, hchain⟩ := run_bind_eq_ok_iff.mp h
  obtain ⟨ul, rfl, hl⟩ := hr _ _ _ _ hlhs
  have hl' : Reading p room lhs ul := hl.loosen (by omega)
  obtain ⟨used, rfl, he⟩ := chainRun_sound hops hq hr hl' hchain
  exact ⟨ul ++ used, by simp, he⟩

theorem leftAssociative_sound {level : Level} {operand : Rule Expr} {room : Nat}
    (hr : operand.SoundAt level.operandPrecedence room) :
    (leftAssociative level operand).SoundAt level.precedence room := by
  intro finish ts e rest h
  obtain ⟨taken, mid, htaken, h⟩ := run_bind_eq_ok_iff.mp h
  rcases run_take?_eq_ok_iff.mp htaken with ⟨b, t, rfl, _, rfl⟩ | ⟨rfl, rfl, _⟩
  · -- A leading operator is always an error, even when its operand can be read.
    obtain ⟨_, _, _, hfail⟩ := run_bind_eq_ok_iff.mp h
    cases hfail
  · exact chain_sound (fun op => Level.mem_operators_iff.mp) level.rank_operandPrecedence hr
      _ _ _ _ h

theorem reading_of_atom? {t : Token} {e : Expr} {room : Nat} (h : atom? t = some e) :
    Reading .primary (room + 1) e [t] := by
  unfold atom? at h
  split at h <;> rename_i hk <;> cases h
  · exact Reading.literal hk
  · exact Reading.literal hk
  · exact Reading.literal hk
  · exact Reading.literal hk
  · exact Reading.literal hk
  · exact Reading.name hk

theorem primary_sound {inner : Inner} {room : Nat} (hi : InnerSound inner room) :
    (primary inner).SoundAt .primary (room + 1) := by
  intro finish ts e rest h
  cases ts with
  | nil => cases h
  | cons t ts =>
    rw [primary, run_bind_of_ok run_peek] at h
    dsimp only [List.head?_cons] at h
    split at h
    · rename_i e' hatom
      cases h
      exact ⟨[t], rfl, reading_of_atom? hatom⟩
    · obtain ⟨taken, mid, htaken, h₁⟩ := run_bind_eq_ok_iff.mp h
      rcases run_takeKind?_eq_ok_iff.mp htaken with ⟨opening, heq, ho, rfl⟩ | ⟨_, rfl, _⟩
      · cases heq
        obtain ⟨e', mid', he, h₂⟩ := run_bind_eq_ok_iff.mp h₁
        obtain ⟨used, rfl, hread⟩ := hi.expression _ _ _ _ he
        obtain ⟨_, rest', hclose, h₃⟩ := run_bind_eq_ok_iff.mp h₂
        obtain ⟨closing, rfl, hc, _⟩ := run_expect_eq_ok_iff.mp hclose
        cases h₃
        exact ⟨t :: (used ++ [closing]), by simp, Reading.grouping ho hread hc⟩
      · simp at h₁

theorem unary_sound {inner : Inner} {room : Nat} (hi : InnerSound inner room) :
    (unary inner).SoundAt .unary (room + 1) := by
  intro finish ts e rest h
  obtain ⟨taken, mid, htaken, h₁⟩ := run_bind_eq_ok_iff.mp h
  rcases run_take?_eq_ok_iff.mp htaken with ⟨op, t, rfl, hop, rfl⟩ | ⟨rfl, rfl, _⟩
  · obtain ⟨operand, mid', hoperand, h₂⟩ := run_bind_eq_ok_iff.mp h₁
    obtain ⟨used, rfl, hread⟩ := hi.unary _ _ _ _ hoperand
    cases h₂
    exact ⟨t :: used, rfl, Reading.unary (TokenKind.eq_symbol_of_unaryOp hop) hread⟩
  · obtain ⟨used, hused, hread⟩ := primary_sound hi _ _ _ _ h₁
    exact ⟨used, hused, hread.loosen (by decide)⟩

theorem equality_sound {inner : Inner} {room : Nat} (hi : InnerSound inner room) :
    (equality inner).SoundAt .equality (room + 1) :=
  leftAssociative_sound <| leftAssociative_sound <| leftAssociative_sound <|
    leftAssociative_sound <| unary_sound hi

theorem ternary_sound {inner : Inner} {room : Nat} (hi : InnerSound inner room) :
    (ternary inner).SoundAt .ternary (room + 1) := by
  intro finish ts e rest h
  obtain ⟨c, mid, hc, h₁⟩ := run_bind_eq_ok_iff.mp h
  obtain ⟨uc, rfl, hcond⟩ := equality_sound hi _ _ _ _ hc
  obtain ⟨taken, mid₂, htaken, h₂⟩ := run_bind_eq_ok_iff.mp h₁
  rcases run_takeKind?_eq_ok_iff.mp htaken with ⟨question, rfl, hq, rfl⟩ | ⟨rfl, rfl, _⟩
  · obtain ⟨s, mid₃, hs, h₃⟩ := run_bind_eq_ok_iff.mp h₂
    obtain ⟨us, rfl, hsuccess⟩ := hi.expression _ _ _ _ hs
    obtain ⟨_, mid₄, hcolon, h₄⟩ := run_bind_eq_ok_iff.mp h₃
    obtain ⟨colon, rfl, hk, rfl⟩ := run_expect_eq_ok_iff.mp hcolon
    obtain ⟨f, mid₅, hf, h₅⟩ := run_bind_eq_ok_iff.mp h₄
    obtain ⟨uf, rfl, hfailure⟩ := equality_sound hi _ _ _ _ hf
    cases h₅
    exact ⟨_, by simp, Reading.ternary hcond hq hsuccess hk hfailure⟩
  · cases h₂
    exact ⟨uc, rfl, hcond.loosen (by decide)⟩

theorem assignment_sound {inner : Inner} {room : Nat} (hi : InnerSound inner room) :
    (assignment inner).SoundAt .assignment (room + 1) := by
  intro finish ts e rest h
  obtain ⟨target, mid, htarget, h₁⟩ := run_bind_eq_ok_iff.mp h
  obtain ⟨ul, rfl, hread⟩ := ternary_sound hi _ _ _ _ htarget
  obtain ⟨taken, mid₂, htaken, h₂⟩ := run_bind_eq_ok_iff.mp h₁
  rcases run_takeKind?_eq_ok_iff.mp htaken with ⟨equals, rfl, ht, rfl⟩ | ⟨rfl, rfl, _⟩
  · obtain ⟨value, mid₃, hvalue, h₃⟩ := run_bind_eq_ok_iff.mp h₂
    obtain ⟨used, rfl, hv⟩ := hi.assignment _ _ _ _ hvalue
    cases target with
    | name site =>
      cases h₃
      exact ⟨ul ++ equals :: used, by simp, Reading.assign hread ht hv⟩
    | _ => cases h₃
  · cases h₂
    exact ⟨ul, rfl, hread.loosen (by decide)⟩

theorem comma_sound {inner : Inner} {room : Nat} (hi : InnerSound inner room) :
    (comma inner).SoundAt .comma (room + 1) :=
  chain_sound (by simp [BinaryOp.precedence]) rfl (assignment_sound hi)

/-- With no room left nothing is read, and with room for one level more, what that level reads is
right if the level inside it is. -/
theorem inner_sound (room : Nat) : InnerSound (inner room) room := by
  induction room with
  | zero =>
    have hfail : (fail .excessiveNesting : Rule Expr).SoundAt .comma 0 ∧
        (fail .excessiveNesting : Rule Expr).SoundAt .assignment 0 ∧
        (fail .excessiveNesting : Rule Expr).SoundAt .unary 0 := by
      refine ⟨?_, ?_, ?_⟩ <;> (intro finish ts e rest h; simp at h)
    exact ⟨hfail.1, hfail.2.1, hfail.2.2⟩
  | succ room ih => exact ⟨comma_sound ih, assignment_sound ih, unary_sound ih⟩

end Grammar

/-! ## Statements -/

/-- Whether everything that the rule `r` reads is a statement that nests at most `room` levels
deep. -/
def Rule.StmtSoundAt (r : Rule Stmt) (room : Nat) : Prop :=
  ∀ finish ts s rest, r.run finish ts = .ok s rest →
    ∃ used, ts = used ++ rest ∧ s.Reading room used

namespace Grammar

open Rule

variable {room : Nat}

theorem terminated_sound {expression : Rule Expr} {what : Terminated} {finish : Lexeme}
    {ts rest : List Token} {e : Expr} (he : expression.SoundAt .comma room)
    (h : (terminated expression what).run finish ts = .ok e rest) :
    ∃ used semicolon, ts = used ++ semicolon :: rest ∧ Reading .comma room e used ∧
      semicolon.kind = .symbol .semicolon := by
  obtain ⟨e', mid, hrun, h₁⟩ := run_bind_eq_ok_iff.mp h
  obtain ⟨used, rfl, hread⟩ := he _ _ _ _ hrun
  obtain ⟨_, mid₂, hsemi, h₂⟩ := run_bind_eq_ok_iff.mp h₁
  obtain ⟨semicolon, rfl, hs, _⟩ := run_expect_eq_ok_iff.mp hsemi
  cases h₂
  exact ⟨used, semicolon, rfl, hread, hs⟩

theorem variableDeclaration_sound {expression : Rule Expr} {finish : Lexeme} {t : Token}
    {ts rest : List Token} {s : Stmt} (he : expression.SoundAt .comma room)
    (ht : t.kind = .keyword .varWord)
    (h : (variableDeclaration expression).run finish ts = .ok s rest) :
    ∃ used, t :: ts = used ++ rest ∧ s.Reading room used := by
  obtain ⟨_, mid, hname, h₁⟩ := run_bind_eq_ok_iff.mp h
  obtain ⟨name, rfl, hn, rfl⟩ := run_expect_eq_ok_iff.mp hname
  obtain ⟨taken, mid₂, htaken, h₂⟩ := run_bind_eq_ok_iff.mp h₁
  rcases run_takeKind?_eq_ok_iff.mp htaken with ⟨equals, rfl, heq, rfl⟩ | ⟨rfl, rfl, _⟩
  · obtain ⟨initial, mid₃, hinitial, h₃⟩ := run_bind_eq_ok_iff.mp h₂
    obtain ⟨e, hrun, rfl⟩ := run_map_eq_ok_iff.mp hinitial
    obtain ⟨used, rfl, hread⟩ := he _ _ _ _ hrun
    obtain ⟨_, mid₄, hsemi, h₄⟩ := run_bind_eq_ok_iff.mp h₃
    obtain ⟨semicolon, rfl, hs, _⟩ := run_expect_eq_ok_iff.mp hsemi
    cases h₄
    exact ⟨_, by simp, Stmt.Reading.varInitial ht hn heq hread hs⟩
  · obtain ⟨_, mid₃, hnone, h₃⟩ := run_bind_eq_ok_iff.mp h₂
    obtain ⟨rfl, rfl⟩ := run_pure_eq_ok_iff.mp hnone
    obtain ⟨_, mid₄, hsemi, h₄⟩ := run_bind_eq_ok_iff.mp h₃
    obtain ⟨semicolon, rfl, hs, _⟩ := run_expect_eq_ok_iff.mp hsemi
    cases h₄
    exact ⟨_, by simp, Stmt.Reading.var ht hn hs⟩

/-- A block's rule begins behind the opening brace, so what it has read is a statement together
with that. -/
def BlockSoundAt (block : Rule Stmt) (room : Nat) : Prop :=
  ∀ finish opening ts s rest, opening.kind = .symbol .leftBrace →
    block.run finish ts = .ok s rest →
      ∃ used, opening :: ts = used ++ rest ∧ s.Reading room used

theorem statement_sound {block : Rule Stmt} {expression : Rule Expr}
    (hb : BlockSoundAt block room) (he : expression.SoundAt .comma room) :
    (statement block expression).StmtSoundAt room := by
  intro finish ts s rest h
  -- What is read without a leading word or brace is an expression statement.
  have hexpression (h : (.expression <$> terminated expression .expression : Rule Stmt).run
      finish ts = .ok s rest) : ∃ used, ts = used ++ rest ∧ s.Reading room used := by
    obtain ⟨e, hrun, rfl⟩ := run_map_eq_ok_iff.mp h
    obtain ⟨used, semicolon, rfl, hread, hs⟩ := terminated_sound he hrun
    exact ⟨_, by simp, Stmt.Reading.expression hread hs⟩
  rw [statement, run_bind_of_ok run_peek] at h
  cases ts with
  | nil => exact hexpression h
  | cons t ts =>
    dsimp only [List.head?_cons, Option.map_some] at h
    split at h
    · rename_i hk
      rw [run_bind_of_ok run_skip] at h
      exact variableDeclaration_sound he (Option.some.inj hk) h
    · rename_i hk
      rw [run_bind_of_ok run_skip] at h
      obtain ⟨e, hrun, rfl⟩ := run_map_eq_ok_iff.mp h
      obtain ⟨used, semicolon, hts, hread, hs⟩ := terminated_sound he hrun
      rw [List.tail_cons] at hts
      subst hts
      exact ⟨_, by simp, Stmt.Reading.print (Option.some.inj hk) hread hs⟩
    · rename_i hk
      rw [run_bind_of_ok run_skip] at h
      exact hb _ t _ _ _ (Option.some.inj hk) h
    · exact hexpression h

theorem manyRun_sound {r : Rule Stmt} {hr : r.Consumes} {stop : Option TokenKind → Bool}
    (hs : r.StmtSoundAt room) {finish : Lexeme} {ts rest : List Token} {body : List Stmt}
    (h : manyRun stop r hr finish ts = .ok body rest) :
    ∃ used, ts = used ++ rest ∧ StmtsReading room body used := by
  fun_induction manyRun stop r hr finish ts generalizing body with
  | case1 ts =>
    cases h
    exact ⟨[], rfl, .nil⟩
  | case2 => cases h
  | case3 => cases h
  | case4 ts _ s mid hrun _ body' rest' hmany ih =>
    cases h
    obtain ⟨us, rfl, hread⟩ := hs _ _ _ _ hrun
    obtain ⟨ub, rfl, hbody⟩ := ih hmany
    exact ⟨us ++ ub, by simp, .cons hread hbody⟩

theorem block_sound {declaration : { r : Rule Stmt // r.Consumes }}
    (hd : declaration.1.StmtSoundAt room) : BlockSoundAt (block declaration) (room + 1) := by
  intro finish opening ts s rest ho h
  obtain ⟨body, mid, hmany, h₁⟩ := run_bind_eq_ok_iff.mp h
  obtain ⟨used, rfl, hbody⟩ := manyRun_sound hd hmany
  obtain ⟨_, mid₂, hclose, h₂⟩ := run_bind_eq_ok_iff.mp h₁
  obtain ⟨closing, rfl, hc, _⟩ := run_expect_eq_ok_iff.mp hclose
  cases h₂
  exact ⟨_, by simp, Stmt.Reading.block ho hbody hc⟩

theorem declarationWithin_sound (room : Nat) : (declarationWithin room).1.StmtSoundAt room := by
  induction room with
  | zero =>
    refine statement_sound (fun finish opening ts s rest _ h => ?_) (inner_sound 0).expression
    simp at h
  | succ room ih => exact statement_sound (block_sound ih) (inner_sound (room + 1)).expression

/-- If all declarations of a token sequence could be read, the tokens are those declarations. -/
theorem declarations_sound {finish : Lexeme} {ts : List Token} {body : List Stmt}
    (h : declarations finish ts = body.map .ok) : StmtsReading nestingLimit body ts := by
  fun_induction declarations finish ts generalizing body with
  | case1 =>
    rw [List.map_eq_nil_iff.mp h.symm]
    exact .nil
  | case2 t ts s rest hrun hlt ih =>
    obtain ⟨s', body', rfl, hs, hbody⟩ := List.map_eq_cons_iff.mp h.symm
    cases hs
    obtain ⟨used, hused, hread⟩ := declarationWithin_sound nestingLimit _ _ _ _ hrun
    rw [hused]
    exact .cons hread (ih hbody.symm)
  | case3 t ts e rest hrun hlt ih =>
    obtain ⟨s', body', rfl, hs, _⟩ := List.map_eq_cons_iff.mp h.symm
    cases hs

end Grammar

end Lox
