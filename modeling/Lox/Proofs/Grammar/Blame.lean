import Lox.Proofs.Grammar.Replies

/-!
# What a parse error is about

Every parse error names a token of the input, or its end. Most name the token that comes next, but
an operator without a left operand and an assignment to no variable are found when more has been
read. So the statement about a rule allows for tokens that were read before the rule began
(`Rule.Blames`), and it says of the named token also that what is left begins at the token or
behind it: nothing is dropped twice when reading goes on after an error.
-/

set_option autoImplicit false

namespace Lox

/-- The error is about the end of the input, or about a token of `ts` that does not stand behind
the beginning of `rest`. -/
def ParseError.Blames (e : ParseError) (finish : Lexeme) (ts rest : List Token) : Prop :=
  (e = ⟨e.fault, none, finish⟩ ∧ rest = []) ∨
    ∃ before t after, ts = before ++ t :: after ∧ rest.length ≤ after.length + 1 ∧
      e = .atToken e.fault t

/-- More tokens may be in the middle. -/
theorem ParseError.Blames.widen {e : ParseError} {finish : Lexeme} {read mid ts rest : List Token}
    (h : e.Blames finish (read ++ mid) rest) (hs : mid <:+ ts) :
    e.Blames finish (read ++ ts) rest := by
  rcases h with h | ⟨before, t, after, heq, hlen, he⟩
  · exact .inl h
  · have hle := hs.length_le
    obtain ⟨dropped, rfl⟩ := hs
    -- The named token is one of `mid`, or it was read before.
    refine .inr ?_
    rcases List.append_eq_append_iff.mp heq with ⟨skipped, rfl, rfl⟩ | ⟨passed, rfl, hmid⟩
    · exact ⟨read ++ dropped ++ skipped, t, after, by simp, hlen, he⟩
    · cases passed with
      | nil =>
        obtain rfl : t :: after = mid := hmid
        exact ⟨before ++ dropped, t, after, by simp, hlen, he⟩
      | cons t' passed =>
        rw [List.cons_append] at hmid
        obtain ⟨rfl, rfl⟩ := List.cons.inj hmid
        refine ⟨before, t, passed ++ (dropped ++ mid), by simp, ?_, he⟩
        simp only [List.length_append] at hlen hle ⊢
        omega

/-- The error names one of the tokens, or the end of the input. -/
def ParseError.NamesOneOf (finish : Lexeme) (ts : List Token) (e : ParseError) : Prop :=
  e = ⟨e.fault, none, finish⟩ ∨ ∃ t ∈ ts, e = .atToken e.fault t

theorem ParseError.NamesOneOf.mono {finish : Lexeme} {xs ys : List Token} {e : ParseError}
    (h : e.NamesOneOf finish xs) (hsub : xs ⊆ ys) : e.NamesOneOf finish ys := by
  rcases h with hend | ⟨t, ht, he⟩
  · exact .inl hend
  · exact .inr ⟨t, hsub ht, he⟩

theorem ParseError.Blames.namesOneOf {e : ParseError} {finish : Lexeme} {ts rest : List Token}
    (h : e.Blames finish ts rest) : e.NamesOneOf finish ts := by
  rcases h with ⟨hend, -⟩ | ⟨before, t, after, rfl, -, he⟩
  · exact .inl hend
  · exact .inr ⟨t, List.mem_append_right _ (List.mem_cons_self ..), he⟩

/-- Whether every error of the rule is about a token that it was given, or one of those that were
read just before, or the end. -/
def Rule.Blames {α : Type} (read : List Token) (r : Rule α) : Prop :=
  ∀ finish ts e rest, r.run finish ts = .error e rest → e.Blames finish (read ++ ts) rest

namespace Rule

variable {α β : Type} {read : List Token}

/-! ## Rules in general -/

theorem Blames.behind {r : Rule α} (h : r.Blames []) (read : List Token) : r.Blames read := by
  intro finish ts e rest herror
  rcases h finish ts e rest herror with hend | ⟨before, t, after, rfl, hlen, he⟩
  · exact .inl hend
  · exact .inr ⟨read ++ before, t, after, by simp, hlen, he⟩

theorem Blames.bind {r : Rule α} {f : α → Rule β} (hr : r.Blames read)
    (hf : ∀ a, (f a).Blames read) : (r >>= f).Blames read := by
  intro finish ts e rest h
  rcases run_bind_eq_error_iff.mp h with h | ⟨a, mid, hok, h⟩
  · exact hr finish ts e rest h
  · have hs := r.suffix finish ts
    rw [hok, Reply.rest_ok] at hs
    exact (hf a finish mid e rest h).widen hs

theorem Blames.map {r : Rule α} (h : r.Blames read) (g : α → β) : (g <$> r).Blames read :=
  fun finish ts e rest herror => h finish ts e rest (run_map_eq_error_iff.mp herror)

theorem blames_pure (a : α) : (pure a : Rule α).Blames read := by
  intro finish ts e rest h
  cases h

theorem blames_peek : peek.Blames read := by
  intro finish ts e rest h
  cases h

theorem blames_skip : skip.Blames read := by
  intro finish ts e rest h
  cases h

theorem blames_fail (fault : ParseFault) : (fail fault : Rule α).Blames read := by
  refine Blames.behind (fun finish ts e rest h => ?_) read
  cases ts with
  | nil =>
    cases h
    exact .inl ⟨rfl, rfl⟩
  | cons t ts =>
    cases h
    exact .inr ⟨[], t, ts, rfl, Nat.le_refl _, rfl⟩

/-- A rule may fail about a token that was read before it began. -/
theorem blames_failAt (t : Token) (fault : ParseFault) :
    (failAt t fault : Rule α).Blames (read ++ [t]) := by
  intro finish ts e rest h
  cases h
  exact .inr ⟨read, t, ts, by simp, Nat.le_succ _, rfl⟩

/-- Behind a token that has been taken the rule that goes on may fail about it. -/
theorem blames_take? {f : TokenKind → Option β} {k : Option (β × Token) → Rule α}
    (hsome : ∀ b t, (k (some (b, t))).Blames (read ++ [t])) (hnone : (k none).Blames read) :
    (take? f >>= k).Blames read := by
  intro finish ts e rest h
  rcases run_bind_eq_error_iff.mp h with h₁ | ⟨taken, mid, hok, h₁⟩
  · exact absurd h₁ run_take?_ne_error
  · rcases run_take?_eq_ok_iff.mp hok with ⟨b, t, rfl, -, rfl⟩ | ⟨rfl, rfl, -⟩
    · have := hsome b t finish mid e rest h₁
      rwa [List.append_assoc] at this
    · exact hnone finish ts e rest h₁

theorem blames_takeKind? {kind : TokenKind} {k : Option Token → Rule α}
    (hsome : ∀ t, (k (some t)).Blames (read ++ [t])) (hnone : (k none).Blames read) :
    (takeKind? kind >>= k).Blames read := by
  intro finish ts e rest h
  rcases run_bind_eq_error_iff.mp h with h₁ | ⟨taken, mid, hok, h₁⟩
  · exact absurd h₁ run_takeKind?_ne_error
  · rcases run_takeKind?_eq_ok_iff.mp hok with ⟨t, rfl, -, rfl⟩ | ⟨rfl, rfl, -⟩
    · have := hsome t finish mid e rest h₁
      rwa [List.append_assoc] at this
    · exact hnone finish ts e rest h₁

theorem blames_expect (kind : TokenKind) (fault : ParseFault) :
    (expect kind fault).Blames read :=
  blames_takeKind? (fun _ => blames_pure _) (blames_fail fault)

theorem blames_many {stop : Option TokenKind → Bool} {r : Rule α} (hr : r.Consumes)
    (h : r.Blames []) : (many stop r hr).Blames [] := by
  intro finish ts e rest herror
  change manyRun stop r hr finish ts = _ at herror
  fun_induction manyRun stop r hr finish ts with
  | case1 ts => cases herror
  | case2 ts _ e' rest' hrun =>
    cases herror
    exact h finish ts e rest hrun
  | case3 ts _ a mid hrun _ e' rest' hmany ih =>
    cases herror
    have hs := r.suffix finish ts
    rw [hrun, Reply.rest_ok] at hs
    exact (ih hmany).widen hs
  | case4 ts _ a mid hrun _ as rest' hmany ih => cases herror

end Rule

namespace Grammar

open Rule

/-! ## The rules of the grammar -/

theorem blames_chain {ops : List BinaryOp} {operand : Rule Expr} (h : operand.Blames [])
    (lhs : Expr) : (chain ops operand lhs).Blames [] := by
  intro finish ts e rest herror
  change chainRun ops operand finish lhs ts = _ at herror
  fun_induction chainRun ops operand finish lhs ts with
  | case1 => cases herror
  | case2 => cases herror
  | case3 lhs t ts' op _ e' rest' hrun =>
    cases herror
    exact (h finish ts' e rest hrun).widen (List.suffix_cons t ts')
  | case4 lhs t ts' op _ rhs mid hrun _ ih =>
    have hs := operand.suffix finish ts'
    rw [hrun, Reply.rest_ok] at hs
    exact (ih herror).widen (hs.trans (List.suffix_cons t ts'))

theorem blames_leftAssociative {level : Level} {operand : Rule Expr} (h : operand.Blames []) :
    (leftAssociative level operand).Blames [] := by
  apply blames_take?
  · intro op t
    -- The leading operator is named only behind its operand.
    exact (h.behind _).bind fun _ => blames_failAt t _
  · apply h.bind
    intro lhs
    exact blames_chain h lhs

/-- Whether every error of the rules of the next level is about a token they were given. -/
structure InnerBlames (inner : Inner) : Prop where
  expression : inner.expression.Blames []
  assignment : inner.assignment.Blames []
  unary : inner.unary.Blames []

variable {inner : Inner}

theorem blames_primary (hi : InnerBlames inner) : (primary inner).Blames [] := by
  apply blames_peek.bind
  intro next
  split
  · exact blames_fail _
  · split
    · exact blames_skip.bind fun _ => blames_pure _
    · apply blames_takeKind?
      · intro opening
        apply (hi.expression.behind _).bind
        intro e
        exact (blames_expect _ _).bind fun _ => blames_pure _
      · exact blames_fail _

theorem blames_unary (hi : InnerBlames inner) : (unary inner).Blames [] := by
  apply blames_take?
  · intro op t
    exact (hi.unary.behind _).bind fun _ => blames_pure _
  · exact blames_primary hi

theorem blames_equality (hi : InnerBlames inner) : (equality inner).Blames [] :=
  blames_leftAssociative <| blames_leftAssociative <| blames_leftAssociative <|
    blames_leftAssociative <| blames_unary hi

theorem blames_ternary (hi : InnerBlames inner) : (ternary inner).Blames [] := by
  apply (blames_equality hi).bind
  intro condition
  apply blames_takeKind?
  · intro question
    apply (hi.expression.behind _).bind
    intro success
    apply (blames_expect _ _).bind
    intro colon
    exact ((blames_equality hi).behind _).bind fun failure => blames_pure _
  · exact blames_pure _

theorem blames_assignment (hi : InnerBlames inner) : (assignment inner).Blames [] := by
  apply (blames_ternary hi).bind
  intro target
  apply blames_takeKind?
  · intro equals
    apply (hi.assignment.behind _).bind
    intro value
    -- The equals sign that may be named has been read, and a whole value behind it.
    split
    · exact blames_pure _
    · exact blames_failAt equals _
  · exact blames_pure _

theorem blames_comma (hi : InnerBlames inner) : (comma inner).Blames [] := by
  apply (blames_assignment hi).bind
  intro lhs
  exact blames_chain (blames_assignment hi) lhs

theorem inner_blames (room : Nat) : InnerBlames (Grammar.inner room) := by
  induction room with
  | zero => exact ⟨blames_fail _, blames_fail _, blames_fail _⟩
  | succ room ih => exact ⟨blames_comma ih, blames_assignment ih, blames_unary ih⟩

theorem blames_variableDeclaration {expression : Rule Expr} (h : expression.Blames []) :
    (variableDeclaration expression).Blames [] := by
  apply (blames_expect _ _).bind
  intro site
  apply blames_takeKind?
  · intro equals
    apply ((h.behind _).map _).bind
    intro initial
    exact (blames_expect _ _).bind fun _ => blames_pure _
  · apply (blames_pure _).bind
    intro initial
    exact (blames_expect _ _).bind fun _ => blames_pure _

theorem blames_terminated {expression : Rule Expr} (h : expression.Blames [])
    (what : Terminated) : (terminated expression what).Blames [] := by
  apply h.bind
  intro e
  exact (blames_expect _ _).bind fun _ => blames_pure _

theorem blames_statement {block : Rule Stmt} {expression : Rule Expr} (hb : block.Blames [])
    (he : expression.Blames []) : (statement block expression).Blames [] := by
  apply blames_peek.bind
  intro next
  split
  · exact blames_skip.bind fun _ => blames_variableDeclaration he
  · exact blames_skip.bind fun _ => (blames_terminated he _).map _
  · exact blames_skip.bind fun _ => hb
  · exact (blames_terminated he _).map _

theorem blames_declarationWithin (room : Nat) : (declarationWithin room).1.Blames [] := by
  induction room with
  | zero => exact blames_statement (blames_fail _) (inner_blames 0).expression
  | succ room ih =>
    refine blames_statement ?_ (inner_blames _).expression
    apply (blames_many _ ih).bind
    intro body
    exact (blames_expect _ _).bind fun _ => blames_pure _

/-! ## Programs and expressions -/

/-- Every error of a program names one of its tokens, or the end. -/
theorem namesOneOf_of_mem_declarations {finish : Lexeme} {ts : List Token} {e : ParseError}
    (h : e ∈ errors (declarations finish ts)) : e.NamesOneOf finish ts := by
  fun_induction declarations finish ts with
  | case1 => cases h
  | case2 t ts' s rest hrun _ ih =>
    have hs := declaration.1.suffix finish (t :: ts')
    rw [hrun, Reply.rest_ok] at hs
    exact (ih h).mono hs.subset
  | case3 t ts' e' rest hrun _ ih =>
    have hs := declaration.1.suffix finish (t :: ts')
    rw [hrun, Reply.rest_error] at hs
    rcases List.mem_cons.mp h with rfl | h
    · exact (blames_declarationWithin _ _ _ _ _ hrun).namesOneOf
    · have hsync := (synchronize_suffix_tail rest).trans (List.tail_suffix rest)
      exact (ih h).mono (hsync.trans hs).subset

end Grammar

/-- A program that is not accepted has errors, and each of them names a token or the end. -/
theorem Program.namesOneOf_of_parse {finish : Lexeme} {ts : List Token}
    {errors : List ParseError} (h : Program.parse finish ts = .error errors) {e : ParseError}
    (he : e ∈ errors) : e.NamesOneOf finish ts := by
  unfold Program.parse at h
  dsimp only at h
  split at h
  · cases h
  · cases h
    exact Grammar.namesOneOf_of_mem_declarations he

/-- So does the error of an expression. -/
theorem Expr.namesOneOf_of_parse {finish : Lexeme} {ts : List Token} {e : ParseError}
    (h : Expr.parse finish ts = .error e) : e.NamesOneOf finish ts := by
  unfold Expr.parse at h
  cases hrun : Grammar.expression.run finish ts with
  | ok a rest =>
    rw [hrun] at h
    cases h
  | error e' rest =>
    rw [hrun] at h
    cases h
    exact ((Grammar.inner_blames _).expression _ _ _ _ hrun).namesOneOf

end Lox
