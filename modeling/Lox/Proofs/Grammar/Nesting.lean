import Lox.Proofs.Grammar.Acceptance
import Lox.Proofs.Grammar.Recovery

/-!
# Where too deep nesting is reported

The limit is tested when a level is entered, and by then the token that opens the level has been
read. So the error is not about this token but about what stands behind it
(`ParseError.IsBehind`). The two look alike only where levels are opened one directly behind the
other, as in a row of parentheses.

A whole expression is a level too, and nothing opens that one. Inside of as many blocks as are
allowed there is no room for any expression, and the error is then about the first token of the
expression, behind a brace, the word `print`, or the semicolon of a declaration that has no
expression.

That an error stands behind a token which was read is a property of a rule and of what was read
just before it (`Rule.SinksBehind`). With room left nothing has to be known of what was read.
-/

set_option autoImplicit false

namespace Lox

namespace Grammar

/-- The tokens behind which an expression is one level further in. -/
def exprOpeners : List TokenKind :=
  [.symbol .leftParen, .symbol .bang, .symbol .minus, .symbol .equal, .symbol .question]

/-- The tokens behind which a program can be one level further in. -/
def openers : List TokenKind :=
  exprOpeners ++ [.symbol .leftBrace, .keyword .printWord, .symbol .semicolon]

end Grammar

/-- The error is about what stands directly behind a token of `ts` that is of one of the given
kinds: about the next token, or the end of the input. -/
def ParseError.IsBehind (kinds : List TokenKind) (finish : Lexeme) (ts : List Token)
    (e : ParseError) : Prop :=
  ∃ before opener after, ts = before ++ opener :: after ∧ opener.kind ∈ kinds ∧
    e = .atHead e.fault finish after

/-- More may stand in front. -/
theorem ParseError.IsBehind.of_suffix {kinds : List TokenKind} {finish : Lexeme}
    {mid ts : List Token} {e : ParseError} (h : e.IsBehind kinds finish mid) (hs : mid <:+ ts) :
    e.IsBehind kinds finish ts := by
  obtain ⟨before, opener, after, rfl, hk, he⟩ := h
  obtain ⟨dropped, rfl⟩ := hs
  exact ⟨dropped ++ before, opener, after, (List.append_assoc ..).symm, hk, he⟩

theorem ParseError.IsBehind.mono {kinds kinds' : List TokenKind} {finish : Lexeme}
    {ts : List Token} {e : ParseError} (h : e.IsBehind kinds finish ts) (hk : kinds ⊆ kinds') :
    e.IsBehind kinds' finish ts := by
  obtain ⟨before, opener, after, heq, hopener, he⟩ := h
  exact ⟨before, opener, after, heq, hk hopener, he⟩

/-- Whether the rule reports too deep nesting only behind a token of one of the given kinds, when
it follows the tokens `read`. -/
def Rule.SinksBehind {α : Type} (kinds : List TokenKind) (read : List Token) (r : Rule α) : Prop :=
  ∀ finish ts e rest, r.run finish ts = .error e rest → e.fault = .excessiveNesting →
    e.IsBehind kinds finish (read ++ ts)

namespace Rule

variable {α β : Type} {kinds : List TokenKind} {read : List Token}

/-! ## Rules in general -/

/-- If nothing has to be known of what was read, anything may have been. -/
theorem SinksBehind.behind {r : Rule α} (h : r.SinksBehind kinds []) (read : List Token) :
    r.SinksBehind kinds read := by
  intro finish ts e rest herror hf
  exact (h finish ts e rest herror hf).of_suffix (List.suffix_append read ts)

theorem SinksBehind.bind {r : Rule α} {f : α → Rule β} (hr : r.SinksBehind kinds read)
    (hf : ∀ a, (f a).SinksBehind kinds []) : (r >>= f).SinksBehind kinds read := by
  intro finish ts e rest h hfault
  rcases run_bind_eq_error_iff.mp h with h | ⟨a, mid, hok, h⟩
  · exact hr finish ts e rest h hfault
  · have hs := r.suffix finish ts
    rw [hok, Reply.rest_ok] at hs
    exact (hf a finish mid e rest h hfault).of_suffix (hs.trans (List.suffix_append read ts))

theorem SinksBehind.map {r : Rule α} (h : r.SinksBehind kinds read) (g : α → β) :
    (g <$> r).SinksBehind kinds read :=
  fun finish ts e rest herror => h finish ts e rest (run_map_eq_error_iff.mp herror)

theorem sinksBehind_pure (a : α) : (pure a : Rule α).SinksBehind kinds read := by
  intro finish ts e rest h
  cases h

theorem sinksBehind_peek : peek.SinksBehind kinds read := by
  intro finish ts e rest h
  cases h

theorem sinksBehind_skip : skip.SinksBehind kinds read := by
  intro finish ts e rest h
  cases h

/-- An error of another kind does not matter. -/
theorem sinksBehind_fail {fault : ParseFault} (h : fault ≠ .excessiveNesting) :
    (fail fault : Rule α).SinksBehind kinds read := by
  intro finish ts e rest herror hf
  rw [run_fail] at herror
  cases herror
  cases ts <;> exact absurd hf h

theorem sinksBehind_failAt {fault : ParseFault} (t : Token) (h : fault ≠ .excessiveNesting) :
    (failAt t fault : Rule α).SinksBehind kinds read := by
  intro finish ts e rest herror hf
  cases herror
  exact absurd hf h

/-- A level without room is refused behind its opener. -/
theorem sinksBehind_noRoom {opener : Token} (h : opener.kind ∈ kinds) :
    (fail .excessiveNesting : Rule α).SinksBehind kinds [opener] := by
  intro finish ts e rest herror hf
  rw [run_fail] at herror
  cases herror
  exact ⟨[], opener, ts, rfl, h, by rw [hf]⟩

/-- Behind a token that has been taken this is the one that was read. -/
theorem sinksBehind_take? {f : TokenKind → Option β} {k : Option (β × Token) → Rule α}
    (hsome : ∀ b t, f t.kind = some b → (k (some (b, t))).SinksBehind kinds [t])
    (hnone : (k none).SinksBehind kinds read) : (take? f >>= k).SinksBehind kinds read := by
  intro finish ts e rest h hf
  rcases run_bind_eq_error_iff.mp h with h | ⟨taken, mid, hok, h⟩
  · exact absurd h run_take?_ne_error
  · rcases run_take?_eq_ok_iff.mp hok with ⟨b, t, rfl, hb, rfl⟩ | ⟨rfl, rfl, -⟩
    · exact (hsome b t hb finish mid e rest h hf).of_suffix (List.suffix_append read _)
    · exact hnone finish ts e rest h hf

theorem sinksBehind_takeKind? {kind : TokenKind} {k : Option Token → Rule α}
    (hsome : ∀ t, t.kind = kind → (k (some t)).SinksBehind kinds [t])
    (hnone : (k none).SinksBehind kinds read) :
    (takeKind? kind >>= k).SinksBehind kinds read := by
  intro finish ts e rest h hf
  rcases run_bind_eq_error_iff.mp h with h | ⟨taken, mid, hok, h⟩
  · exact absurd h run_takeKind?_ne_error
  · rcases run_takeKind?_eq_ok_iff.mp hok with ⟨t, rfl, hk, rfl⟩ | ⟨rfl, rfl, -⟩
    · exact (hsome t hk finish mid e rest h hf).of_suffix (List.suffix_append read _)
    · exact hnone finish ts e rest h hf

theorem sinksBehind_expect (kind : TokenKind) {fault : ParseFault}
    (h : fault ≠ .excessiveNesting) : (expect kind fault).SinksBehind kinds read :=
  sinksBehind_takeKind? (fun _ _ => sinksBehind_pure _) (sinksBehind_fail h)

/-- In a repetition, what was read before a round is the end of the round before. -/
theorem sinksBehind_many {stop : Option TokenKind → Bool} {r : Rule α} (hr : r.Consumes)
    (hagain : ∀ finish ts a rest, r.run finish ts = .ok a rest →
      ∃ before last, ts = before ++ last :: rest ∧ r.SinksBehind kinds [last])
    (h : r.SinksBehind kinds read) : (many stop r hr).SinksBehind kinds read := by
  intro finish ts e rest herror hf
  change manyRun stop r hr finish ts = _ at herror
  fun_induction manyRun stop r hr finish ts generalizing read with
  | case1 ts => cases herror
  | case2 ts _ e' rest' hrun =>
    cases herror
    exact h finish ts e rest hrun hf
  | case3 ts _ a mid hrun _ e' rest' hmany ih =>
    cases herror
    obtain ⟨before, last, rfl, hlast⟩ := hagain finish ts a mid hrun
    refine (ih hlast hmany).of_suffix ⟨read ++ before, ?_⟩
    simp
  | case4 ts _ a mid hrun _ as rest' hmany ih => cases herror

end Rule

namespace Grammar

open Rule

/-! ## Expressions -/

section

variable {kinds : List TokenKind}

theorem sinksBehind_chain {ops : List BinaryOp} {operand : Rule Expr}
    (h : operand.SinksBehind kinds []) (lhs : Expr) :
    (chain ops operand lhs).SinksBehind kinds [] := by
  intro finish ts e rest herror hf
  change chainRun ops operand finish lhs ts = _ at herror
  fun_induction chainRun ops operand finish lhs ts with
  | case1 => cases herror
  | case2 => cases herror
  | case3 lhs t ts' op _ e' rest' hrun =>
    cases herror
    exact (h finish ts' e rest hrun hf).of_suffix (List.suffix_cons t ts')
  | case4 lhs t ts' op _ rhs mid hrun _ ih =>
    have hs := operand.suffix finish ts'
    rw [hrun, Reply.rest_ok] at hs
    exact (ih herror).of_suffix (hs.trans (List.suffix_cons t ts'))

theorem sinksBehind_leftAssociative {level : Level} {operand : Rule Expr}
    (h : operand.SinksBehind kinds []) : (leftAssociative level operand).SinksBehind kinds [] := by
  apply sinksBehind_take?
  · intro op t _
    exact (h.behind [t]).bind fun _ => sinksBehind_failAt t (by decide)
  · apply h.bind
    intro lhs
    exact sinksBehind_chain h lhs

/-- Whether the rules of the next level report too deep nesting only behind one of the given
kinds of tokens, if they follow such a token themselves. -/
structure InnerSinksBehind (kinds : List TokenKind) (inner : Inner) : Prop where
  expression : ∀ t, t.kind ∈ kinds → inner.expression.SinksBehind kinds [t]
  assignment : ∀ t, t.kind ∈ kinds → inner.assignment.SinksBehind kinds [t]
  unary : ∀ t, t.kind ∈ kinds → inner.unary.SinksBehind kinds [t]

variable {inner : Inner} (hk : exprOpeners ⊆ kinds)
include hk

theorem sinksBehind_primary (hi : InnerSinksBehind kinds inner) :
    (primary inner).SinksBehind kinds [] := by
  apply sinksBehind_peek.bind
  intro next
  split
  · exact sinksBehind_fail (by decide)
  · split
    · exact sinksBehind_skip.bind fun _ => sinksBehind_pure _
    · apply sinksBehind_takeKind?
      · intro opening ho
        apply (hi.expression opening (hk (by simp [ho, exprOpeners]))).bind
        intro e
        exact (sinksBehind_expect _ (by decide)).bind fun _ => sinksBehind_pure _
      · exact sinksBehind_fail (by decide)

theorem sinksBehind_unary (hi : InnerSinksBehind kinds inner) :
    (unary inner).SinksBehind kinds [] := by
  apply sinksBehind_take?
  · intro op t hop
    have ht : t.kind ∈ exprOpeners := by
      rw [TokenKind.eq_symbol_of_unaryOp hop]
      cases op <;> decide
    exact (hi.unary t (hk ht)).bind fun _ => sinksBehind_pure _
  · exact sinksBehind_primary hk hi

theorem sinksBehind_equality (hi : InnerSinksBehind kinds inner) :
    (equality inner).SinksBehind kinds [] :=
  sinksBehind_leftAssociative <| sinksBehind_leftAssociative <| sinksBehind_leftAssociative <|
    sinksBehind_leftAssociative <| sinksBehind_unary hk hi

theorem sinksBehind_ternary (hi : InnerSinksBehind kinds inner) :
    (ternary inner).SinksBehind kinds [] := by
  apply (sinksBehind_equality hk hi).bind
  intro condition
  apply sinksBehind_takeKind?
  · intro question hq
    apply (hi.expression question (hk (by simp [hq, exprOpeners]))).bind
    intro success
    apply (sinksBehind_expect _ (by decide)).bind
    intro colon
    exact (sinksBehind_equality hk hi).bind fun failure => sinksBehind_pure _
  · exact sinksBehind_pure _

theorem sinksBehind_assignment (hi : InnerSinksBehind kinds inner) :
    (assignment inner).SinksBehind kinds [] := by
  apply (sinksBehind_ternary hk hi).bind
  intro target
  apply sinksBehind_takeKind?
  · intro equals heq
    apply (hi.assignment equals (hk (by simp [heq, exprOpeners]))).bind
    intro value
    split
    · exact sinksBehind_pure _
    · exact sinksBehind_failAt equals (by decide)
  · exact sinksBehind_pure _

theorem sinksBehind_comma (hi : InnerSinksBehind kinds inner) :
    (comma inner).SinksBehind kinds [] := by
  apply (sinksBehind_assignment hk hi).bind
  intro lhs
  exact sinksBehind_chain (sinksBehind_assignment hk hi) lhs

theorem inner_sinksBehind (room : Nat) : InnerSinksBehind kinds (Grammar.inner room) := by
  induction room with
  | zero =>
    exact ⟨fun _ => sinksBehind_noRoom, fun _ => sinksBehind_noRoom, fun _ => sinksBehind_noRoom⟩
  | succ room ih =>
    exact ⟨fun t _ => (sinksBehind_comma hk ih).behind [t],
      fun t _ => (sinksBehind_assignment hk ih).behind [t],
      fun t _ => (sinksBehind_unary hk ih).behind [t]⟩

end

/-! ## Statements -/

section

variable {expression : Rule Expr} {read : List Token}
variable (he : ∀ t, t.kind ∈ openers → expression.SinksBehind openers [t])
include he

theorem sinksBehind_variableDeclaration :
    (variableDeclaration expression).SinksBehind openers [] := by
  apply (sinksBehind_expect _ (by decide)).bind
  intro site
  apply sinksBehind_takeKind?
  · intro equals heq
    apply ((he equals (by rw [heq]; decide)).map _).bind
    intro initial
    exact (sinksBehind_expect _ (by decide)).bind fun _ => sinksBehind_pure _
  · apply (sinksBehind_pure _).bind
    intro initial
    exact (sinksBehind_expect _ (by decide)).bind fun _ => sinksBehind_pure _

omit he in
theorem sinksBehind_terminated (h : expression.SinksBehind openers read) (what : Terminated) :
    (terminated expression what).SinksBehind openers read := by
  apply h.bind
  intro e
  exact (sinksBehind_expect _ (by rintro ⟨⟩)).bind fun _ => sinksBehind_pure _

/-- The expression of a statement follows the word `print`, or what was read before. -/
theorem sinksBehind_statement {block : Rule Stmt}
    (hb : ∀ t, t.kind = .symbol .leftBrace → block.SinksBehind openers [t])
    (h : expression.SinksBehind openers read) :
    (statement block expression).SinksBehind openers read := by
  intro finish ts e rest herror hf
  have hexpression := (sinksBehind_terminated h .expression).map Stmt.expression
  cases ts with
  | nil => exact hexpression finish [] e rest herror hf
  | cons t ts =>
    rw [statement, run_bind_of_ok run_peek] at herror
    dsimp only [List.head?_cons, Option.map_some] at herror
    split at herror
    · have hvar := sinksBehind_variableDeclaration he finish ts e rest herror hf
      exact hvar.of_suffix ⟨read ++ [t], by simp⟩
    · rename_i hkind
      have ht : t.kind ∈ openers := by
        rw [Option.some.inj hkind]
        decide
      have hprint := (sinksBehind_terminated (he t ht) .value).map Stmt.print
      exact (hprint finish ts e rest herror hf).of_suffix (List.suffix_append read (t :: ts))
    · rename_i hkind
      have hblock := hb t (Option.some.inj hkind) finish ts e rest herror hf
      exact hblock.of_suffix (List.suffix_append read (t :: ts))
    · exact hexpression finish (t :: ts) e rest herror hf

end

/-- Where there is no room for an expression nor for a block there are only declarations of
variables without a value. -/
theorem exists_var_of_no_room {s : Stmt} {used : List Token} (h : s.Reading 0 used) :
    ∃ site, s = .var site none := by
  cases s with
  | expression e =>
    obtain ⟨_, _, -, -, hread⟩ := h.of_expression
    exact absurd hread.depth_lt (Nat.not_lt_zero _)
  | print e =>
    obtain ⟨_, _, _, -, -, -, hread⟩ := h.of_print
    exact absurd hread.depth_lt (Nat.not_lt_zero _)
  | var site initial =>
    cases initial with
    | none => exact ⟨site, rfl⟩
    | some e =>
      obtain ⟨_, _, _, _, _, -, -, -, -, -, -, hread⟩ := h.of_varInitial
      exact absurd hread.depth_lt (Nat.not_lt_zero _)
  | block body =>
    obtain ⟨_, _, _, -, -, -, hroom, -⟩ := h.of_block
    exact absurd hroom (Nat.not_lt_zero _)

/-- A declaration may be refused behind one of the openers only, the last token of the declaration
before it being one if this matters. -/
structure DeclarationSinksBehind (r : Rule Stmt) : Prop where
  behind : ∀ t, t.kind ∈ openers → r.SinksBehind openers [t]
  again : ∀ finish ts s rest, r.run finish ts = .ok s rest →
    ∃ before last, ts = before ++ last :: rest ∧ r.SinksBehind openers [last]

theorem sinksBehind_block {declaration : { r : Rule Stmt // r.Consumes }}
    (h : DeclarationSinksBehind declaration.1) (t : Token) (ht : t.kind = .symbol .leftBrace) :
    (block declaration).SinksBehind openers [t] := by
  apply (sinksBehind_many declaration.2 h.again (h.behind t (by rw [ht]; decide))).bind
  intro body
  exact (sinksBehind_expect _ (by decide)).bind fun _ => sinksBehind_pure _

/-- With room left the first token of a declaration is never refused. -/
theorem sinksBehind_of_room {room : Nat}
    (h : DeclarationSinksBehind (declarationWithin room).1) :
    (declarationWithin (room + 1)).1.SinksBehind openers [] :=
  have hk : exprOpeners ⊆ openers := List.subset_append_left ..
  sinksBehind_statement (inner_sinksBehind hk (room + 1)).expression (sinksBehind_block h)
    (sinksBehind_comma hk (inner_sinksBehind hk room))

theorem declarationWithin_sinksBehind (room : Nat) :
    DeclarationSinksBehind (declarationWithin room).1 := by
  induction room with
  | zero =>
    have hi := inner_sinksBehind (List.subset_append_left exprOpeners _ : _ ⊆ openers) 0
    have hbehind (t : Token) (ht : t.kind ∈ openers) :
        (declarationWithin 0).1.SinksBehind openers [t] :=
      sinksBehind_statement hi.expression
        (fun t' ht' => sinksBehind_noRoom (by rw [ht']; decide)) (hi.expression t ht)
    refine ⟨hbehind, fun finish ts s rest hrun => ?_⟩
    obtain ⟨used, rfl, hread⟩ := declarationWithin_sound 0 _ _ _ _ hrun
    obtain ⟨site, rfl⟩ := exists_var_of_no_room hread
    obtain ⟨t, name, semicolon, rfl, -, -, -, hs⟩ := hread.of_var
    exact ⟨[t, name], semicolon, rfl, hbehind semicolon (by rw [hs]; decide)⟩
  | succ room ih =>
    have h := sinksBehind_of_room ih
    refine ⟨fun t _ => h.behind [t], fun finish ts s rest hrun => ?_⟩
    obtain ⟨used, rfl, hread⟩ := declarationWithin_sound (room + 1) _ _ _ _ hrun
    obtain ⟨front, last, rfl, -⟩ := hread.exists_last
    exact ⟨front, last, by simp, h.behind [last]⟩

/-! ## Programs and expressions -/

theorem isBehind_of_mem_declarations {finish : Lexeme} {ts : List Token} {e : ParseError}
    (h : e ∈ errors (declarations finish ts)) (hf : e.fault = .excessiveNesting) :
    e.IsBehind openers finish ts := by
  fun_induction declarations finish ts with
  | case1 => cases h
  | case2 t ts' s rest hrun _ ih =>
    have hs := declaration.1.suffix finish (t :: ts')
    rw [hrun, Reply.rest_ok] at hs
    exact (ih h).of_suffix hs
  | case3 t ts' e' rest hrun _ ih =>
    have hs := declaration.1.suffix finish (t :: ts')
    rw [hrun, Reply.rest_error] at hs
    rcases List.mem_cons.mp h with rfl | h
    · exact sinksBehind_of_room (declarationWithin_sinksBehind 127) _ _ _ _ hrun hf
    · have hsync := (synchronize_suffix_tail rest).trans (List.tail_suffix rest)
      exact (ih h).of_suffix (hsync.trans hs)

end Grammar

/-- Where an expression nests too deeply, the error is about what stands behind one of its openers.
-/
theorem Expr.isBehind_of_parse {finish : Lexeme} {ts : List Token} {e : ParseError}
    (h : Expr.parse finish ts = .error e) (hf : e.fault = .excessiveNesting) :
    e.IsBehind Grammar.exprOpeners finish ts := by
  unfold Expr.parse at h
  cases hrun : Grammar.expression.run finish ts with
  | ok a rest =>
    rw [hrun] at h
    cases h
  | error e' rest =>
    rw [hrun] at h
    cases h
    have hk : Grammar.exprOpeners ⊆ Grammar.exprOpeners := List.Subset.refl _
    have hsinks := Grammar.sinksBehind_comma hk (Grammar.inner_sinksBehind hk 127)
    exact hsinks finish ts e rest hrun hf

/-- So it is in a program. -/
theorem Program.isBehind_of_parse {finish : Lexeme} {ts : List Token} {errors : List ParseError}
    {e : ParseError} (h : Program.parse finish ts = .error errors) (he : e ∈ errors)
    (hf : e.fault = .excessiveNesting) : e.IsBehind Grammar.openers finish ts := by
  obtain ⟨rfl, -⟩ := Program.parse_eq_error_iff.mp h
  exact Grammar.isBehind_of_mem_declarations he hf

/-! ## Texts without `=` and `?` -/

/-- An error that parsing the tokens `ts` reports, as one expression or as a program. -/
def ParseError.ReportedFor (finish : Lexeme) (ts : List Token) (e : ParseError) : Prop :=
  Expr.parse finish ts = .error e ∨
    ∃ errors, Program.parse finish ts = .error errors ∧ e ∈ errors

theorem ParseError.ReportedFor.isBehind {finish : Lexeme} {ts : List Token} {e : ParseError}
    (h : e.ReportedFor finish ts) (hf : e.fault = .excessiveNesting) :
    e.IsBehind Grammar.openers finish ts := by
  rcases h with h | ⟨errors, h, he⟩
  · exact (Expr.isBehind_of_parse h hf).mono (List.subset_append_left ..)
  · exact Program.isBehind_of_parse h he hf

/-- The tokens that are written to open a level, in a text without `=` and `?`. -/
def Grammar.levelMarks : List TokenKind :=
  [.symbol .leftParen, .symbol .bang, .symbol .minus, .symbol .leftBrace]

/-- Whether the error names one of them. -/
def ParseError.NamesMark (e : ParseError) : Prop :=
  ∃ kind ∈ Grammar.levelMarks, e.found = some kind

/-- The error about what comes next names what comes next. -/
theorem ParseError.namesMark_atHead_iff {fault : ParseFault} {finish : Lexeme} {ts : List Token} :
    (ParseError.atHead fault finish ts).NamesMark ↔
      ∃ next ∈ ts.head?, next.kind ∈ Grammar.levelMarks := by
  cases ts with
  | nil => simp [NamesMark, atHead]
  | cons t ts => simp [NamesMark, atHead]

namespace Scan

/-- Whether there is no `=` and no `?` among the tokens. -/
def IsPlain (s : Scan) : Prop :=
  ∀ t ∈ s.tokens, t.kind ≠ .symbol .equal ∧ t.kind ≠ .symbol .question

instance (s : Scan) : Decidable s.IsPlain :=
  inferInstanceAs (Decidable (∀ t ∈ s.tokens, _ ∧ _))

/-- **An error of too deep nesting is about what stands behind the opening token.** In a text
without `=` and `?` that token is a parenthesis, a brace or a unary operator, or it is the word
`print` or a semicolon before an expression that is itself too much. So the error names a token
that opens a level only if another one of these stands directly behind it. -/
theorem excessiveNesting_isBehind {source : String} {e : ParseError}
    (hplain : (ofString source).IsPlain)
    (h : e.ReportedFor (ofString source).finish (ofString source).tokens)
    (hf : e.fault = .excessiveNesting) :
    ∃ before opener after, (ofString source).tokens = before ++ opener :: after ∧
      opener.kind ∈ Grammar.levelMarks ++ [.keyword .printWord, .symbol .semicolon] ∧
      e = .atHead .excessiveNesting (ofString source).finish after ∧
      (e.NamesMark ↔ ∃ next ∈ after.head?, next.kind ∈ Grammar.levelMarks) := by
  obtain ⟨before, opener, after, heq, hk, he⟩ := h.isBehind hf
  obtain ⟨hequal, hquestion⟩ := hplain opener (by simp [heq])
  rw [hf] at he
  refine ⟨before, opener, after, heq, ?_, he, ?_⟩
  · simpa [Grammar.openers, Grammar.exprOpeners, Grammar.levelMarks, hequal, hquestion] using hk
  · rw [he]
    exact ParseError.namesMark_atHead_iff

/-- A name behind too many parentheses. -/
def deepParens : String := .ofList (List.replicate 128 '(' ++ ['a'])

/-- The name is at fault, not the parenthesis before it. -/
theorem excessiveNesting_isBehind_deepParens :
    (ofString deepParens).IsPlain ∧
      Expr.parse (ofString deepParens).finish (ofString deepParens).tokens =
        .error ⟨.excessiveNesting, some .ident, "a", 128, 1⟩ ∧
      ∃ before opener after, (ofString deepParens).tokens = before ++ opener :: after ∧
        opener.kind ∈ Grammar.levelMarks ++ [.keyword .printWord, .symbol .semicolon] ∧
        ⟨.excessiveNesting, some .ident, "a", 128, 1⟩ =
          ParseError.atHead .excessiveNesting (ofString deepParens).finish after ∧
        (ParseError.NamesMark ⟨.excessiveNesting, some .ident, "a", 128, 1⟩ ↔
          ∃ next ∈ after.head?, next.kind ∈ Grammar.levelMarks) := by
  have hplain : (ofString deepParens).IsPlain := by decide +kernel
  have hrun : Grammar.expression.run (ofString deepParens).finish (ofString deepParens).tokens =
      .error ⟨.excessiveNesting, some .ident, "a", 128, 1⟩ [⟨.ident, "a", 128, 1⟩] := by
    decide +kernel
  have hparse := congrArg Reply.result hrun
  exact ⟨hplain, hparse, excessiveNesting_isBehind hplain (.inl hparse) rfl⟩

/-- The beginnings of blocks, one more than are allowed, and the end of the innermost. -/
def deepBlocks : String := .ofList (List.replicate 129 '\x7b' ++ ['\x7d'])

/-- The last of the opening braces opens the level that is too much. What is named is the closing
brace behind it. -/
theorem excessiveNesting_deepBlocks :
    (ofString deepBlocks).IsPlain ∧
      ∃ e, Program.parse (ofString deepBlocks).finish (ofString deepBlocks).tokens = .error [e] ∧
        e = ⟨.excessiveNesting, some (.symbol .rightBrace), "\x7d", 129, 1⟩ ∧ ¬ e.NamesMark := by
  refine ⟨by decide +kernel, _, Program.parse_eq_error_iff.mpr ⟨?_, List.cons_ne_nil _ _⟩, rfl, ?_⟩
  · decide +kernel
  · rintro ⟨kind, hk, hfound⟩
    cases hfound
    exact absurd hk (by decide)

end Scan

end Lox
