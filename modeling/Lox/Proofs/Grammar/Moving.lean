import Lox.Proofs.Grammar.Replies
import Lox.Proofs.Grammar.Sites

/-!
# What is read from moved tokens

Rules choose by the kinds of tokens. When all the tokens are moved to other places, and the end of
the input with them, a rule makes the same choices: it leaves the same tokens, moved, and what it
has read or found to be wrong is the same, moved. `Rule.Moves` says this of a rule, and there is
one lemma for each way in which rules are made.

Of a program that is accepted this could be told from the grammar alone. It is the errors that make
a look at the rules necessary, for where a rule gives up depends on how it reads.
-/

set_option autoImplicit false

namespace Lox

/-! ## Moved replies -/

/-- The error about the moved token. -/
def ParseError.mapSite (f : Lexeme → Lexeme) (e : ParseError) : ParseError :=
  ⟨e.fault, e.found, f e.site⟩

/-- The tokens with their lexemes moved. -/
def mapTokens (f : Lexeme → Lexeme) (ts : List Token) : List Token := ts.map (·.mapSite f)

@[simp] theorem mapTokens_nil (f : Lexeme → Lexeme) : mapTokens f [] = [] := rfl

@[simp] theorem mapTokens_cons (f : Lexeme → Lexeme) (t : Token) (ts : List Token) :
    mapTokens f (t :: ts) = t.mapSite f :: mapTokens f ts := rfl

@[simp] theorem Token.kind_mapSite (f : Lexeme → Lexeme) (t : Token) :
    (t.mapSite f).kind = t.kind := rfl

/-- The reply with everything in it moved, the value by `g`. -/
def Reply.move {α β : Type} (f : Lexeme → Lexeme) (g : α → β) : Reply α → Reply β
  | .ok a rest => .ok (g a) (mapTokens f rest)
  | .error e rest => .error (e.mapSite f) (mapTokens f rest)

section

variable (f : Lexeme → Lexeme)

/-! ## Rules in general -/

namespace Rule

variable {α β γ δ : Type}

/-- The rule `r'` replies to moved tokens what `r` replies to the tokens, moved. -/
def Moves (g : α → β) (r : Rule α) (r' : Rule β) : Prop :=
  ∀ finish ts, r'.run (f finish) (mapTokens f ts) = (r.run finish ts).move f g

variable {f}

/-- Two rules in a row reply alike to moved tokens as soon as the first does so here, and the
second on what the first leaves. It is stated for one list of tokens, since a repetition knows of
its own tail only that it is shorter. -/
theorem run_bind_move {g : α → β} {h : γ → δ} {r : Rule α} {r' : Rule β} {k : α → Rule γ}
    {k' : β → Rule δ} {finish : Lexeme} {ts : List Token}
    (hr : r'.run (f finish) (mapTokens f ts) = (r.run finish ts).move f g)
    (hk : ∀ a rest, r.run finish ts = .ok a rest →
      (k' (g a)).run (f finish) (mapTokens f rest) = ((k a).run finish rest).move f h) :
    (r' >>= k').run (f finish) (mapTokens f ts) = ((r >>= k).run finish ts).move f h := by
  cases hrun : r.run finish ts with
  | ok a rest =>
    rw [hrun] at hr
    rw [run_bind_of_ok hrun, run_bind_of_ok hr]
    exact hk a rest hrun
  | error e rest =>
    rw [hrun] at hr
    rw [run_bind_of_error hrun, run_bind_of_error hr]
    rfl

/-- Rules in a row move, if each of them moves. What the second one does depends on the value of
the first, so it is asked about the moved value. -/
theorem Moves.bind {g : α → β} {h : γ → δ} {r : Rule α} {r' : Rule β} {k : α → Rule γ}
    {k' : β → Rule δ} (hr : Moves f g r r') (hk : ∀ a, Moves f h (k a) (k' (g a))) :
    Moves f h (r >>= k) (r' >>= k') :=
  fun finish ts => run_bind_move (hr finish ts) fun a rest _ => hk a finish rest

theorem moves_pure {g : α → β} {a : α} {b : β} (h : g a = b) :
    Moves f g (pure a) (pure b) := by
  intro finish ts
  subst h
  rfl

theorem Moves.map {g : α → β} {h : γ → δ} {r : Rule α} {r' : Rule β} (hr : Moves f g r r')
    {k : α → γ} {k' : β → δ} (hk : ∀ a, h (k a) = k' (g a)) :
    Moves f h (k <$> r) (k' <$> r') :=
  hr.bind fun a => moves_pure (hk a)

/-- A rule that gives up at the next token names the moved one, and the moved end of the input
where there is none. -/
theorem moves_fail (g : α → β) (fault : ParseFault) : Moves f g (fail fault) (fail fault) := by
  intro finish ts
  cases ts <;> rfl

theorem moves_failAt (g : α → β) (t : Token) (fault : ParseFault) :
    Moves f g (failAt t fault) (failAt (t.mapSite f) fault) :=
  fun _ _ => rfl

theorem moves_peek : Moves f (Option.map (·.mapSite f)) peek peek := by
  intro finish ts
  cases ts <;> rfl

theorem moves_skip : Moves f id skip skip := by
  intro finish ts
  cases ts <;> rfl

/-- The choice is by the kind, which does not move; what is taken is the moved token. -/
theorem moves_take? (p : TokenKind → Option β) :
    Moves f (Option.map fun taken => (taken.1, taken.2.mapSite f)) (take? p) (take? p) := by
  intro finish ts
  cases ts with
  | nil => rfl
  | cons t ts =>
    cases hp : p t.kind <;> simp [take?, hp, Reply.move]

theorem moves_takeKind? (kind : TokenKind) :
    Moves f (Option.map (·.mapSite f)) (takeKind? kind) (takeKind? kind) := by
  apply (moves_take? _).bind
  intro taken
  cases taken <;> exact moves_pure rfl

/-- The token that must come next is found or missed alike, and its lexeme has moved. -/
theorem moves_expect (kind : TokenKind) (fault : ParseFault) :
    Moves f f (expect kind fault) (expect kind fault) := by
  apply (moves_takeKind? kind).bind
  intro taken
  cases taken with
  | none => exact moves_fail f fault
  | some t => exact moves_pure rfl

/-- A repetition moves if its rule does. The induction is on the number of tokens: the rule
consumes something each time, and the kind at which the repetition ends stays where it was. -/
theorem moves_many {g : α → β} {stop : Option TokenKind → Bool} {r : Rule α} {r' : Rule β}
    (hr : r.Consumes) (hr' : r'.Consumes) (h : Moves f g r r') :
    Moves f (List.map g) (many stop r hr) (many stop r' hr') := by
  intro finish ts
  induction hn : ts.length using Nat.strongRecOn generalizing ts with
  | _ n ih =>
    have hhead : (mapTokens f ts).head?.map (·.kind) = ts.head?.map (·.kind) := by
      cases ts <;> rfl
    rw [many_run, many_run, hhead]
    split
    · rfl
    · apply run_bind_move (h finish ts)
      intro a rest hrun
      apply run_bind_move
      · exact ih rest.length (hn ▸ hr finish ts a rest hrun) rest rfl
      · intro as rest' _
        rfl

end Rule

namespace Grammar

open Rule

variable {f}

/-! ## The rules of the grammar -/

/-- A rule that reads something, and reads it moved when the tokens are moved. -/
abbrev MovesExpr (f : Lexeme → Lexeme) (r : Rule Expr) : Prop := Moves f (Expr.mapSites f) r r

/-- A chain of operators grows its left operand to the left, so the induction is over all left
operands at once; each round consumes an operator and has fewer tokens to go. -/
theorem moves_chain {ops : List BinaryOp} {operand : Rule Expr} (h : MovesExpr f operand)
    (lhs : Expr) :
    Moves f (Expr.mapSites f) (chain ops operand lhs) (chain ops operand (lhs.mapSites f)) := by
  intro finish ts
  induction hn : ts.length using Nat.strongRecOn generalizing ts lhs with
  | _ n ih =>
    cases ts with
    | nil =>
      have hend (t : Token) (ht : t ∈ ([] : List Token).head?) :
          t.kind.symbol?.bind (BinaryOp.among ops) = none := nomatch ht
      rw [mapTokens_nil, chain_run_of_stop hend, chain_run_of_stop hend]
      rfl
    | cons t ts =>
      cases hop : t.kind.symbol?.bind (BinaryOp.among ops) with
      | none =>
        rw [chain_run_of_none hop, mapTokens_cons, chain_run_of_none (by exact hop)]
        rfl
      | some op =>
        rw [chain_run_of_some hop, mapTokens_cons, chain_run_of_some (by exact hop)]
        apply run_bind_move (h finish ts)
        intro rhs rest hrun
        have hle := operand.length_le finish ts
        rw [hrun, Reply.rest_ok] at hle
        refine ih rest.length ?_ (.binary op t.lexeme lhs rhs) rest rfl
        rw [← hn, List.length_cons]
        omega

theorem moves_leftAssociative {level : Level} {operand : Rule Expr} (h : MovesExpr f operand) :
    MovesExpr f (leftAssociative level operand) := by
  apply (moves_take? _).bind
  intro taken
  cases taken with
  | none => exact h.bind fun lhs => moves_chain h lhs
  | some taken => exact h.bind fun _ => moves_failAt _ taken.2 _

/-- The three rules that go one level deeper move. -/
structure InnerMoves (f : Lexeme → Lexeme) (inner : Inner) : Prop where
  expression : MovesExpr f inner.expression
  assignment : MovesExpr f inner.assignment
  unary : MovesExpr f inner.unary

variable {inner : Inner}

/-- Whether a token is an expression by itself is a matter of its kind. If it is a name, the
expression has the place of the token. -/
theorem atom?_mapSite (t : Token) : atom? (t.mapSite f) = (atom? t).map (Expr.mapSites f) := by
  unfold atom?
  rw [Token.kind_mapSite]
  split <;> rfl

/-- The innermost rule peeks, and then takes an atom, a parenthesis or nothing at all. -/
theorem moves_primary (hi : InnerMoves f inner) : MovesExpr f (primary inner) := by
  apply moves_peek.bind
  intro next
  cases next with
  | none => exact moves_fail _ _
  | some t =>
    dsimp only [Option.map_some]
    rw [atom?_mapSite]
    cases atom? t with
    | some e => exact moves_skip.bind fun _ => moves_pure rfl
    | none =>
      apply (moves_takeKind? _).bind
      intro opening
      cases opening with
      | none => exact moves_fail _ _
      | some opening =>
        apply hi.expression.bind
        intro e
        exact (moves_expect _ _).bind fun _ => moves_pure rfl

theorem moves_unary (hi : InnerMoves f inner) : MovesExpr f (unary inner) := by
  apply (moves_take? _).bind
  intro taken
  cases taken with
  | none => exact moves_primary hi
  | some taken => exact hi.unary.bind fun e => moves_pure rfl

/-- The four levels of operators that lean to the left, from factors up to equalities. -/
theorem moves_equality (hi : InnerMoves f inner) : MovesExpr f (equality inner) :=
  moves_leftAssociative <| moves_leftAssociative <| moves_leftAssociative <|
    moves_leftAssociative <| moves_unary hi

theorem moves_ternary (hi : InnerMoves f inner) : MovesExpr f (ternary inner) := by
  apply (moves_equality hi).bind
  intro condition
  apply (moves_takeKind? _).bind
  intro question
  cases question with
  | none => exact moves_pure rfl
  | some question =>
    apply hi.expression.bind
    intro success
    apply (moves_expect _ _).bind
    intro colon
    exact (moves_equality hi).bind fun failure => moves_pure rfl

/-- The error of an assignment without a proper target is at its equals sign, which has been taken
long before: it moves because the rule keeps the token. -/
theorem moves_assignment (hi : InnerMoves f inner) : MovesExpr f (assignment inner) := by
  apply (moves_ternary hi).bind
  intro target
  apply (moves_takeKind? _).bind
  intro equals
  cases equals with
  | none => exact moves_pure rfl
  | some equals =>
    apply hi.assignment.bind
    intro value
    cases target with
    | name site => exact moves_pure rfl
    | _ => exact moves_failAt _ equals _

theorem moves_comma (hi : InnerMoves f inner) : MovesExpr f (comma inner) := by
  apply (moves_assignment hi).bind
  intro lhs
  exact moves_chain (moves_assignment hi) lhs

/-- The rules move on every level of nesting, down to the one on which they only give up. -/
theorem inner_moves (room : Nat) : InnerMoves f (Grammar.inner room) := by
  induction room with
  | zero => exact ⟨moves_fail _ _, moves_fail _ _, moves_fail _ _⟩
  | succ room ih => exact ⟨moves_comma ih, moves_assignment ih, moves_unary ih⟩

abbrev MovesStmt (f : Lexeme → Lexeme) (r : Rule Stmt) : Prop := Moves f (Stmt.mapSites f) r r

/-- The name of the variable is the only place that the statement keeps of its own. -/
theorem moves_variableDeclaration {expression : Rule Expr} (h : MovesExpr f expression) :
    MovesStmt f (variableDeclaration expression) := by
  apply (moves_expect _ _).bind
  intro site
  -- With a value or without one, what is read next is the semicolon.
  have hrest (initial : Option Expr) : Moves f (Stmt.mapSites f)
      (do let _ ← expect (.symbol .semicolon) (.missingSemicolon .variableDeclaration)
          return .var site initial)
      (do let _ ← expect (.symbol .semicolon) (.missingSemicolon .variableDeclaration)
          return .var (f site) (initial.map (Expr.mapSites f))) := by
    apply (moves_expect _ _).bind
    intro _
    cases initial <;> exact moves_pure rfl
  apply (moves_takeKind? _).bind
  intro equals
  cases equals with
  | none => exact hrest none
  | some equals =>
    have hsome : Moves f (Option.map (Expr.mapSites f)) (some <$> expression)
        (some <$> expression) := h.map fun _ => rfl
    exact hsome.bind hrest

theorem moves_terminated {expression : Rule Expr} (h : MovesExpr f expression)
    (what : Terminated) : MovesExpr f (terminated expression what) := by
  apply h.bind
  intro e
  exact (moves_expect _ _).bind fun _ => moves_pure rfl

/-- A statement begins as its first token says, and the kind of that one is the same. -/
theorem moves_statement {block : Rule Stmt} {expression : Rule Expr} (hb : MovesStmt f block)
    (he : MovesExpr f expression) : MovesStmt f (statement block expression) := by
  apply moves_peek.bind
  intro next
  have hkind : (next.map (·.mapSite f)).map Token.kind = next.map Token.kind := by
    cases next <;> rfl
  rw [hkind]
  split
  · exact moves_skip.bind fun _ => moves_variableDeclaration he
  · exact moves_skip.bind fun _ => (moves_terminated he _).map fun _ => rfl
  · exact moves_skip.bind fun _ => hb
  · exact (moves_terminated he _).map fun _ => rfl

theorem stmtsMapSites_eq_map (f : Lexeme → Lexeme) (body : List Stmt) :
    stmtsMapSites f body = body.map (Stmt.mapSites f) := by
  induction body with
  | nil => rfl
  | cons s body ih => rw [stmtsMapSites, ih, List.map_cons]

/-- Declarations move with whatever nesting is left to them, by induction on it. -/
theorem moves_declarationWithin (room : Nat) : MovesStmt f (declarationWithin room).1 := by
  induction room with
  | zero => exact moves_statement (moves_fail _ _) (inner_moves 0).expression
  | succ room ih =>
    refine moves_statement ?_ (inner_moves _).expression
    apply (moves_many _ _ ih).bind
    intro body
    refine (moves_expect _ _).bind fun _ => moves_pure ?_
    rw [Stmt.mapSites, stmtsMapSites_eq_map]

/-! ## Programs -/

/-- The parser gets over an error by kinds alone: it comes out at the same token, moved. -/
theorem synchronize_mapTokens (ts : List Token) :
    synchronize (mapTokens f ts) = mapTokens f (synchronize ts) := by
  induction ts with
  | nil => rfl
  | cons t ts ih =>
    have hhead : (mapTokens f ts).head?.any startsStatement = ts.head?.any startsStatement := by
      cases ts <;> rfl
    rw [mapTokens_cons, synchronize, synchronize, ih, hhead, Token.kind_mapSite]
    split <;> rfl

/-- A declaration that has been read, or the error in it, moved. -/
def moveResult (f : Lexeme → Lexeme) : Except ParseError Stmt → Except ParseError Stmt
  | .ok s => .ok (s.mapSites f)
  | .error e => .error (e.mapSite f)

/-- One declaration after the other, each of them moves: the good ones leave moved tokens to the
next round, and behind an error the next round starts from the same boundary. -/
theorem declarations_mapTokens (finish : Lexeme) (ts : List Token) :
    declarations (f finish) (mapTokens f ts) =
      (declarations finish ts).map (moveResult f) := by
  induction hn : ts.length using Nat.strongRecOn generalizing ts with
  | _ n ih =>
    cases ts with
    | nil => rw [mapTokens_nil, declarations, declarations, List.map_nil]
    | cons t ts =>
      have hmoved := moves_declarationWithin (f := f) nestingLimit finish (t :: ts)
      rw [mapTokens_cons] at hmoved ⊢
      cases hrun : declaration.1.run finish (t :: ts) with
      | ok s rest =>
        rw [← declaration, hrun] at hmoved
        have hlt := declaration.2 finish _ s rest hrun
        rw [declarations_cons_of_ok hrun, declarations_cons_of_ok hmoved, List.map_cons,
          ih rest.length (hn ▸ hlt) rest rfl]
        rfl
      | error e rest =>
        rw [← declaration, hrun] at hmoved
        have hlt : (synchronize rest).length < n := hn ▸ length_synchronize_lt hrun
        rw [declarations_cons_of_error hrun, declarations_cons_of_error hmoved, List.map_cons,
          synchronize_mapTokens, ih _ hlt _ rfl]
        rfl

theorem errors_map_moveResult (results : List (Except ParseError Stmt)) :
    errors (results.map (moveResult f)) = (errors results).map (ParseError.mapSite f) := by
  induction results with
  | nil => rfl
  | cons result results ih =>
    cases result with
    | ok s => exact ih
    | error e => exact congrArg (e.mapSite f :: ·) ih

theorem statements_map_moveResult (results : List (Except ParseError Stmt)) :
    statements (results.map (moveResult f)) = stmtsMapSites f (statements results) := by
  induction results with
  | nil => rfl
  | cons result results ih =>
    cases result with
    | ok s => exact congrArg (s.mapSites f :: ·) ih
    | error e => exact ih

end Grammar

/-- What is read from moved tokens, or what is wrong with them, has moved with them. -/
theorem Program.parse_mapTokens (finish : Lexeme) (ts : List Token) :
    Program.parse (f finish) (mapTokens f ts) =
      match Program.parse finish ts with
      | .ok p => .ok (p.mapSites f)
      | .error es => .error (es.map (ParseError.mapSite f)) := by
  unfold parse
  dsimp only
  rw [Grammar.declarations_mapTokens, Grammar.errors_map_moveResult,
    Grammar.statements_map_moveResult]
  by_cases hnil : Grammar.errors (Grammar.declarations finish ts) = []
  · rw [if_pos hnil, if_pos (List.map_eq_nil_iff.mpr hnil)]
    rfl
  · rw [if_neg hnil, if_neg (mt List.map_eq_nil_iff.mp hnil)]

/-- A single expression likewise: what is read from moved tokens, or is wrong there, has moved. -/
theorem Expr.parse_mapTokens (finish : Lexeme) (ts : List Token) :
    Expr.parse (f finish) (mapTokens f ts) =
      match Expr.parse finish ts with
      | .ok e => .ok (e.mapSites f)
      | .error e => .error (e.mapSite f) := by
  unfold parse
  rw [Grammar.expression, (Grammar.inner_moves Grammar.nestingLimit).expression finish ts]
  cases (Grammar.inner Grammar.nestingLimit).expression.run finish ts <;> rfl

end

end Lox
