import Lox.Parse.Steps
import Lox.Proofs.Grammar.FirstError

/-!
# Recovery isolates faults

A program that is a row of segments, some of them declarations and some of them not, is read one
segment after the other, and whatever is wrong with a segment is reported as if nothing stood
before or behind it.

For a segment that is a declaration this is completeness. For a faulty one there are two things to
know of the reply to it. It leaves the semicolon at the segment's end, because no rule reads a
semicolon and then fails (`Rule.FailsBefore`); so recovery, which goes up to the next semicolon,
stops exactly where the segment does. And since the reply leaves something, it is the same reply
whatever follows (`Reply.Alike.eq_error`).
-/

set_option autoImplicit false

namespace Lox

/-! ## What a failing rule has passed -/

/-- Between `ts` and its end `rest` there is no token of the kind `kind`. -/
def Passes (kind : TokenKind) (ts rest : List Token) : Prop :=
  ∃ read, ts = read ++ rest ∧ ∀ t ∈ read, t.kind ≠ kind

theorem Passes.refl (kind : TokenKind) (ts : List Token) : Passes kind ts ts :=
  ⟨[], rfl, by simp⟩

theorem Passes.trans {kind : TokenKind} {ts mid rest : List Token} (h : Passes kind ts mid)
    (h' : Passes kind mid rest) : Passes kind ts rest := by
  obtain ⟨read, rfl, hread⟩ := h
  obtain ⟨read', rfl, hread'⟩ := h'
  refine ⟨read ++ read', (List.append_assoc ..).symm, fun t ht => ?_⟩
  rcases List.mem_append.mp ht with ht | ht
  · exact hread t ht
  · exact hread' t ht

theorem passes_cons {kind : TokenKind} {t : Token} (h : t.kind ≠ kind) (ts : List Token) :
    Passes kind (t :: ts) ts :=
  ⟨[t], rfl, by simpa using h⟩

/-- What has not been passed is still left. -/
theorem Passes.exists_of_append {kind : TokenKind} {body rest : List Token} {last : Token}
    (h : Passes kind (body ++ [last]) rest) (hlast : last.kind = kind) :
    ∃ left, left <:+ body ∧ rest = left ++ [last] := by
  obtain ⟨read, heq, hread⟩ := h
  rcases List.append_eq_append_iff.mp heq.symm with ⟨left, hbody, hrest⟩ | ⟨passed, hpassed, hnil⟩
  · exact ⟨left, ⟨read, hbody.symm⟩, hrest⟩
  · cases passed with
    | nil => exact ⟨[], List.nil_suffix, hnil.symm⟩
    | cons t passed =>
      obtain ⟨rfl, -⟩ := List.cons.inj hnil
      exact absurd hlast (hread last (by simp [hpassed]))

namespace Rule

variable {α β : Type} {kind : TokenKind}

/-- Whether the rule reads no token of the kind `kind`. -/
def Avoids (kind : TokenKind) (r : Rule α) : Prop :=
  ∀ finish ts, Passes kind ts (r.run finish ts).rest

/-- Whether the rule has read no token of the kind `kind` when it fails. -/
def FailsBefore (kind : TokenKind) (r : Rule α) : Prop :=
  ∀ finish ts e rest, r.run finish ts = .error e rest → Passes kind ts rest

theorem Avoids.failsBefore {r : Rule α} (h : r.Avoids kind) : r.FailsBefore kind := by
  intro finish ts e rest hrun
  have hpass := h finish ts
  rwa [hrun] at hpass

theorem Avoids.bind {r : Rule α} {f : α → Rule β} (hr : r.Avoids kind)
    (hf : ∀ a, (f a).Avoids kind) : (r >>= f).Avoids kind := by
  intro finish ts
  have hpass := hr finish ts
  cases hrun : r.run finish ts with
  | ok a mid =>
    rw [hrun] at hpass
    rw [run_bind_of_ok hrun]
    exact hpass.trans (hf a finish mid)
  | error e rest =>
    rw [hrun] at hpass
    rw [run_bind_of_error hrun]
    exact hpass

theorem FailsBefore.bind {r : Rule α} {f : α → Rule β} (hr : r.Avoids kind)
    (hf : ∀ a, (f a).FailsBefore kind) : (r >>= f).FailsBefore kind := by
  intro finish ts e rest h
  rcases run_bind_eq_error_iff.mp h with h | ⟨a, mid, hok, h⟩
  · exact hr.failsBefore finish ts e rest h
  · have hpass := hr finish ts
    rw [hok] at hpass
    exact hpass.trans (hf a finish mid e rest h)

theorem FailsBefore.map {r : Rule α} (h : r.FailsBefore kind) (g : α → β) :
    (g <$> r).FailsBefore kind :=
  fun finish ts e rest herror => h finish ts e rest (run_map_eq_error_iff.mp herror)

theorem avoids_pure (a : α) : (pure a : Rule α).Avoids kind :=
  fun _ ts => .refl kind ts

theorem Avoids.map {r : Rule α} (h : r.Avoids kind) (g : α → β) : (g <$> r).Avoids kind :=
  h.bind fun a => avoids_pure (g a)

theorem avoids_fail (fault : ParseFault) : (fail fault : Rule α).Avoids kind := by
  intro finish ts
  rw [run_fail]
  exact .refl kind ts

theorem avoids_failAt (t : Token) (fault : ParseFault) :
    (failAt t fault : Rule α).Avoids kind :=
  fun _ ts => .refl kind ts

theorem avoids_take? {f : TokenKind → Option β} (h : f kind = none) :
    (take? f).Avoids kind := by
  intro finish ts
  cases ts with
  | nil => exact .refl kind []
  | cons t ts =>
    cases hf : f t.kind with
    | some b =>
      rw [run_take?_of_some hf]
      refine passes_cons ?_ ts
      rintro rfl
      rw [h] at hf
      cases hf
    | none =>
      rw [run_take?_of_none (by rintro t' ⟨⟩; exact hf)]
      exact .refl kind (t :: ts)

theorem avoids_takeKind? {kind' : TokenKind} (h : kind ≠ kind') :
    (takeKind? kind').Avoids kind :=
  (avoids_take? (if_neg h)).bind fun taken => avoids_pure (taken.map (·.2))

theorem avoids_expect {kind' : TokenKind} (h : kind ≠ kind') (fault : ParseFault) :
    (expect kind' fault).Avoids kind := by
  apply (avoids_takeKind? h).bind
  intro taken
  cases taken with
  | some t => exact avoids_pure t.lexeme
  | none => exact avoids_fail fault

/-- A token that is expected and not there has not been read. -/
theorem failsBefore_expect (kind' : TokenKind) (fault : ParseFault) :
    (expect kind' fault).FailsBefore kind := by
  intro finish ts e rest h
  rcases run_bind_eq_error_iff.mp h with h | ⟨taken, mid, hok, h⟩
  · exact absurd h run_takeKind?_ne_error
  · rcases run_takeKind?_eq_ok_iff.mp hok with ⟨t, -, -, rfl⟩ | ⟨rfl, rfl, -⟩
    · cases h
    · exact (avoids_fail fault).failsBefore finish ts e rest h

end Rule

namespace Grammar

open Rule

/-! ## Expressions have no semicolons -/

/-- No operator is written with a semicolon. -/
theorem binaryOp_semicolon (ops : List BinaryOp) :
    (TokenKind.symbol .semicolon).symbol?.bind (BinaryOp.among ops) = none := by
  rw [Option.eq_none_iff_forall_ne_some]
  intro op hop
  have hk := (TokenKind.eq_symbol_of_binaryOp hop).1
  cases op <;> cases hk

theorem avoids_chain {ops : List BinaryOp} {operand : Rule Expr}
    (h : operand.Avoids (.symbol .semicolon)) (lhs : Expr) :
    (chain ops operand lhs).Avoids (.symbol .semicolon) := by
  intro finish ts
  change Passes _ ts (chainRun ops operand finish lhs ts).rest
  fun_induction chainRun ops operand finish lhs ts with
  | case1 => exact .refl _ _
  | case2 => exact .refl _ _
  | case3 lhs t ts' op hop e rest hrun =>
    have hpass := h finish ts'
    rw [hrun] at hpass
    refine (passes_cons ?_ ts').trans hpass
    intro hk
    rw [hk, binaryOp_semicolon] at hop
    cases hop
  | case4 lhs t ts' op hop rhs mid hrun _ ih =>
    have hpass := h finish ts'
    rw [hrun] at hpass
    refine (passes_cons ?_ ts').trans (hpass.trans ih)
    intro hk
    rw [hk, binaryOp_semicolon] at hop
    cases hop

theorem avoids_leftAssociative {level : Level} {operand : Rule Expr}
    (h : operand.Avoids (.symbol .semicolon)) :
    (leftAssociative level operand).Avoids (.symbol .semicolon) := by
  apply (avoids_take? (binaryOp_semicolon _)).bind
  intro taken
  cases taken with
  | some taken => exact h.bind fun _ => avoids_failAt _ _
  | none => exact h.bind fun lhs => avoids_chain h lhs

/-- Whether the rules of the next level read no semicolon. -/
structure InnerAvoids (inner : Inner) : Prop where
  expression : inner.expression.Avoids (.symbol .semicolon)
  assignment : inner.assignment.Avoids (.symbol .semicolon)
  unary : inner.unary.Avoids (.symbol .semicolon)

variable {inner : Inner}

theorem avoids_primary (hi : InnerAvoids inner) :
    (primary inner).Avoids (.symbol .semicolon) := by
  intro finish ts
  cases ts with
  | nil => exact .refl _ _
  | cons t ts =>
    cases hatom : atom? t with
    | some e =>
      rw [primary_of_atom hatom]
      refine passes_cons ?_ ts
      intro hk
      simp [atom?, hk] at hatom
    | none =>
      rw [primary, run_bind_of_ok run_peek]
      dsimp only [List.head?_cons]
      rw [hatom]
      refine Avoids.bind (avoids_takeKind? (by simp)) (fun opening => ?_) finish (t :: ts)
      cases opening with
      | none => exact avoids_fail _
      | some t =>
        apply hi.expression.bind
        intro e
        exact (avoids_expect (by simp) _).map fun _ => Expr.grouping e

theorem avoids_unary (hi : InnerAvoids inner) : (unary inner).Avoids (.symbol .semicolon) := by
  apply (avoids_take? (by rfl)).bind
  intro taken
  cases taken with
  | some taken => exact hi.unary.map fun e => Expr.unary taken.1 taken.2.lexeme e
  | none => exact avoids_primary hi

theorem avoids_equality (hi : InnerAvoids inner) :
    (equality inner).Avoids (.symbol .semicolon) :=
  avoids_leftAssociative <| avoids_leftAssociative <| avoids_leftAssociative <|
    avoids_leftAssociative <| avoids_unary hi

theorem avoids_ternary (hi : InnerAvoids inner) :
    (ternary inner).Avoids (.symbol .semicolon) := by
  apply (avoids_equality hi).bind
  intro condition
  apply (avoids_takeKind? (by simp)).bind
  intro question
  cases question with
  | none => exact avoids_pure _
  | some question =>
    apply hi.expression.bind
    intro success
    apply (avoids_expect (by simp) _).bind
    intro colon
    exact (avoids_equality hi).map fun failure =>
      Expr.ternary condition question.lexeme success colon failure

theorem avoids_assignment (hi : InnerAvoids inner) :
    (assignment inner).Avoids (.symbol .semicolon) := by
  apply (avoids_ternary hi).bind
  intro target
  apply (avoids_takeKind? (by simp)).bind
  intro equals
  cases equals with
  | none => exact avoids_pure _
  | some equals =>
    apply hi.assignment.bind
    intro value
    cases target with
    | name site => exact avoids_pure _
    | _ => exact avoids_failAt _ _

theorem avoids_comma (hi : InnerAvoids inner) : (comma inner).Avoids (.symbol .semicolon) := by
  apply (avoids_assignment hi).bind
  intro lhs
  exact avoids_chain (avoids_assignment hi) lhs

theorem inner_avoids (room : Nat) : InnerAvoids (Grammar.inner room) := by
  induction room with
  | zero => exact ⟨avoids_fail _, avoids_fail _, avoids_fail _⟩
  | succ room ih => exact ⟨avoids_comma ih, avoids_assignment ih, avoids_unary ih⟩

/-! ## Statements fail before their semicolon -/

theorem failsBefore_terminated {expression : Rule Expr} {kind : TokenKind}
    (h : expression.Avoids kind) (what : Terminated) :
    (terminated expression what).FailsBefore kind := by
  apply FailsBefore.bind h
  intro e
  exact (failsBefore_expect _ _).map fun _ => e

theorem failsBefore_variableDeclaration {expression : Rule Expr}
    (h : expression.Avoids (.symbol .semicolon)) :
    (variableDeclaration expression).FailsBefore (.symbol .semicolon) := by
  apply FailsBefore.bind (avoids_expect (by simp) _)
  intro site
  apply FailsBefore.bind (avoids_takeKind? (by simp))
  intro equals
  cases equals with
  | some equals =>
    apply FailsBefore.bind (h.map some)
    intro initial
    exact (failsBefore_expect _ _).map fun _ => Stmt.var site initial
  | none =>
    apply FailsBefore.bind (avoids_pure none)
    intro initial
    exact (failsBefore_expect _ _).map fun _ => Stmt.var site initial

/-- The semicolons inside a block are read. A statement that is no block has only its own. -/
theorem passes_of_statement_error {block : Rule Stmt} {expression : Rule Expr} {finish : Lexeme}
    {ts rest : List Token} {e : ParseError} (h : expression.Avoids (.symbol .semicolon))
    (hbrace : ∀ t ∈ ts, t.kind ≠ .symbol .leftBrace)
    (herror : (statement block expression).run finish ts = .error e rest) :
    Passes (.symbol .semicolon) ts rest := by
  have hexpression := (failsBefore_terminated h .expression).map Stmt.expression
  cases ts with
  | nil => exact hexpression finish [] e rest herror
  | cons t ts =>
    rw [statement, run_bind_of_ok run_peek] at herror
    dsimp only [List.head?_cons, Option.map_some] at herror
    split at herror
    · rename_i hk
      have hpass := failsBefore_variableDeclaration h finish ts e rest herror
      exact (passes_cons (by simp [Option.some.inj hk]) ts).trans hpass
    · rename_i hk
      have hpass := (failsBefore_terminated h .value).map Stmt.print finish ts e rest herror
      exact (passes_cons (by simp [Option.some.inj hk]) ts).trans hpass
    · rename_i hk
      exact absurd (Option.some.inj hk) (hbrace t List.mem_cons_self)
    · exact hexpression finish (t :: ts) e rest herror

theorem passes_of_declaration_error {finish : Lexeme} {ts rest : List Token} {e : ParseError}
    (hbrace : ∀ t ∈ ts, t.kind ≠ .symbol .leftBrace)
    (herror : declaration.1.run finish ts = .error e rest) :
    Passes (.symbol .semicolon) ts rest :=
  passes_of_statement_error (inner_avoids nestingLimit).expression hbrace herror

/-- Recovery stops behind the next semicolon, if no statement begins before that. -/
theorem synchronize_append {left : List Token} {semicolon : Token}
    (hleft : ∀ t ∈ left, t.kind ≠ .symbol .semicolon)
    (hs : semicolon.kind = .symbol .semicolon)
    (hstart : ∀ t ∈ (left ++ [semicolon]).tail, startsStatement t = false)
    (behind : List Token) : synchronize (left ++ semicolon :: behind) = behind := by
  induction left with
  | nil => rw [List.nil_append, synchronize, if_pos (.inl hs)]
  | cons t left ih =>
    rw [List.cons_append, synchronize, if_neg, ih]
    · intro t' ht'
      exact hleft t' (List.mem_cons_of_mem t ht')
    · intro t' ht'
      exact hstart t' (List.mem_of_mem_tail ht')
    · rintro (hk | hany)
      · exact hleft t List.mem_cons_self hk
      · cases left with
        | nil => simp [hstart semicolon (by simp)] at hany
        | cons t' left => simp [hstart t' (by simp)] at hany

end Grammar

/-- A statement ends with a semicolon or with a brace. -/
theorem Stmt.Reading.exists_last {room : Nat} {s : Stmt} {used : List Token}
    (h : s.Reading room used) :
    ∃ front last, used = front ++ [last] ∧
      (last.kind = .symbol .semicolon ∨ last.kind = .symbol .rightBrace) := by
  cases s with
  | expression e =>
    obtain ⟨u, semicolon, rfl, hs, -⟩ := h.of_expression
    exact ⟨u, semicolon, rfl, .inl hs⟩
  | print e =>
    obtain ⟨t, u, semicolon, rfl, -, hs, -⟩ := h.of_print
    exact ⟨t :: u, semicolon, rfl, .inl hs⟩
  | var site initial =>
    cases initial with
    | none =>
      obtain ⟨t, name, semicolon, rfl, -, -, -, hs⟩ := h.of_var
      exact ⟨[t, name], semicolon, rfl, .inl hs⟩
    | some e =>
      obtain ⟨t, name, equals, u, semicolon, rfl, -, -, -, -, hs, -⟩ := h.of_varInitial
      exact ⟨t :: name :: equals :: u, semicolon, rfl, .inl hs⟩
  | block body =>
    obtain ⟨opening, u, closing, rfl, -, hc, -⟩ := h.of_block
    exact ⟨opening :: u, closing, rfl, .inr hc⟩

/-! ## Segments -/

/-- What a token sequence is read as when there is nothing else. -/
def Program.parseAlone (segment : List Token) : Except (List ParseError) Program :=
  Program.parse (endOf segment) segment

/-- Whether a token sequence is no program. -/
def Program.failsAlone (segment : List Token) : Bool :=
  !(Program.parseAlone segment).isOk

/-- A segment that is one declaration. -/
def IsValid (segment : List Token) : Prop :=
  ∃ s, Program.parseAlone segment = .ok [s]

/-- A segment that is none, up to a semicolon, with nothing in it that would stop a recovery
earlier. -/
structure IsFaulty (segment : List Token) : Prop where
  noBrace : ∀ t ∈ segment, t.kind ≠ .symbol .leftBrace ∧ t.kind ≠ .symbol .rightBrace
  semicolon : ∃ body last, segment = body ++ [last] ∧ last.kind = .symbol .semicolon ∧
    ∀ t ∈ body, t.kind ≠ .symbol .semicolon
  noStart : ∀ t ∈ segment.tail, Grammar.startsStatement t = false
  fails : Program.failsAlone segment = true

namespace Grammar

/-- Whether a segment is read as `result` wherever it stands before other declarations. -/
def Isolated (segment : List Token) (result : Except ParseError Stmt) : Prop :=
  ∀ finish behind,
    declarations finish (segment ++ behind) = result :: declarations finish behind

theorem Isolated.declarations_eq {segment : List Token} {result : Except ParseError Stmt}
    (h : Isolated segment result) (finish : Lexeme) :
    declarations finish segment = [result] := by
  have halone := h finish []
  rw [List.append_nil] at halone
  rw [halone, declarations]

theorem Isolated.parseAlone_of_ok {segment : List Token} {s : Stmt}
    (h : Isolated segment (.ok s)) : Program.parseAlone segment = .ok [s] :=
  Program.parse_eq_ok_iff_declarations.mpr (h.declarations_eq _)

theorem Isolated.parseAlone_of_error {segment : List Token} {e : ParseError}
    (h : Isolated segment (.error e)) : Program.parseAlone segment = .error [e] := by
  refine Program.parse_eq_error_iff.mpr ⟨?_, List.cons_ne_nil _ _⟩
  rw [h.declarations_eq]
  rfl

theorem isolated_of_isValid {segment : List Token} (h : IsValid segment) :
    ∃ s, Isolated segment (.ok s) := by
  obtain ⟨s, hparse⟩ := h
  refine ⟨s, fun finish behind => ?_⟩
  obtain ⟨used, rest, rfl, hread, hrest⟩ := (Program.reading_of_parse hparse).of_cons
  cases List.map_eq_nil_iff.mp hrest.yield
  have hrun := declarationWithin_complete nestingLimit finish s used behind hread
  obtain ⟨t, used, rfl, -⟩ := hread.head_ne_rightBrace
  rw [List.append_nil, List.cons_append]
  exact declarations_cons_of_ok hrun

/-- No declaration is read from a faulty segment. -/
theorem declaration_run_ne_ok_of_isFaulty {segment rest : List Token} {finish : Lexeme} {s : Stmt}
    (h : IsFaulty segment) : declaration.1.run finish segment ≠ .ok s rest := by
  intro hrun
  obtain ⟨used, heq, hread⟩ := declarationWithin_sound nestingLimit _ _ _ _ hrun
  obtain ⟨front, last, rfl, hlast⟩ := hread.exists_last
  obtain ⟨body, semicolon, hbody, -, hnone⟩ := h.semicolon
  have hmem : last ∈ segment := by simp [heq]
  have hkind : last.kind = .symbol .semicolon := by
    rcases hlast with hk | hk
    · exact hk
    · exact absurd hk (h.noBrace last hmem).2
  -- Only the last token is a semicolon, so the declaration is all of the segment.
  rcases List.eq_nil_or_concat rest with rfl | ⟨rest, t, rfl⟩
  · have hreading : StmtsReading nestingLimit [s] segment := by
      rw [heq]
      exact .cons hread .nil
    have hfails := h.fails
    rw [Program.failsAlone, Program.parseAlone, Program.parse_of_reading hreading] at hfails
    cases hfails
  · rw [hbody, List.concat_eq_append, ← List.append_assoc] at heq
    obtain ⟨hfront, -⟩ := List.append_inj' heq rfl
    exact hnone last (by simp [hfront]) hkind

theorem isolated_of_isFaulty {segment : List Token} (h : IsFaulty segment) :
    ∃ e, Isolated segment (.error e) := by
  obtain ⟨body, semicolon, hsegment, hs, hbody⟩ := h.semicolon
  cases hrun : declaration.1.run (endOf segment) segment with
  | ok s rest => exact absurd hrun (declaration_run_ne_ok_of_isFaulty h)
  | error e rest =>
    have hpass := passes_of_declaration_error (fun t ht => (h.noBrace t ht).1) hrun
    rw [hsegment] at hpass
    obtain ⟨left, hleft, rfl⟩ := hpass.exists_of_append hs
    refine ⟨e, fun finish behind => ?_⟩
    -- The semicolon is left, so what follows it made no difference.
    have halike := (determined_declarationWithin nestingLimit).alike (endOf segment) finish segment
      [] behind
    change Reply.Alike _ _ (declaration.1.run _ _) (declaration.1.run _ _) at halike
    rw [List.append_nil, hrun, ← List.append_nil (left ++ [semicolon])] at halike
    have hrun' := halike.eq_error (by simp)
    have hsync : synchronize (left ++ [semicolon] ++ behind) = behind := by
      rw [List.append_assoc]
      apply synchronize_append (fun t ht => hbody t (hleft.mem ht)) hs
      intro t ht
      apply h.noStart
      obtain ⟨before, rfl⟩ := hleft
      rw [hsegment, List.append_assoc]
      cases before with
      | nil => exact ht
      | cons t' before => exact List.mem_append_right _ (List.mem_of_mem_tail ht)
    cases segment with
    | nil => simp at hsegment
    | cons t segment =>
      rw [List.cons_append] at hrun' ⊢
      rw [declarations_cons_of_error hrun', hsync]

/-! ## Rows of segments -/

theorem declarations_flatten_of_isValid (finish : Lexeme) {segments : List (List Token)}
    (h : ∀ segment ∈ segments, IsValid segment) :
    ∃ p : Program, segments.map Program.parseAlone = p.map (fun s => .ok [s]) ∧
      declarations finish segments.flatten = p.map .ok := by
  induction segments with
  | nil => exact ⟨[], rfl, by rw [List.flatten_nil, declarations]; rfl⟩
  | cons segment segments ih =>
    obtain ⟨s, hs⟩ := isolated_of_isValid (h segment List.mem_cons_self)
    obtain ⟨p, halone, hwhole⟩ := ih fun other hmem => h other (List.mem_cons_of_mem _ hmem)
    refine ⟨s :: p, ?_, ?_⟩
    · rw [List.map_cons, List.map_cons, hs.parseAlone_of_ok, halone]
    · rw [List.flatten_cons, hs, hwhole, List.map_cons]

theorem errors_flatten (finish : Lexeme) {segments : List (List Token)}
    (h : ∀ segment ∈ segments, IsValid segment ∨ IsFaulty segment) :
    (segments.filter Program.failsAlone).map Program.parseAlone =
      (errors (declarations finish segments.flatten)).map fun e => .error [e] := by
  induction segments with
  | nil =>
    rw [List.flatten_nil, declarations]
    rfl
  | cons segment segments ih =>
    have halone := ih fun other hmem => h other (List.mem_cons_of_mem _ hmem)
    rw [List.flatten_cons]
    rcases h segment List.mem_cons_self with hvalid | hfaulty
    · obtain ⟨s, hs⟩ := isolated_of_isValid hvalid
      have hok : ¬ Program.failsAlone segment = true := by
        rw [Program.failsAlone, hs.parseAlone_of_ok]
        exact Bool.false_ne_true
      rw [hs, List.filter_cons_of_neg hok, halone]
      rfl
    · obtain ⟨e, he⟩ := isolated_of_isFaulty hfaulty
      rw [he, List.filter_cons_of_pos hfaulty.fails, List.map_cons, he.parseAlone_of_error,
        halone]
      rfl

end Grammar

/-- **Recovery isolates faults.** Of a row of segments that are valid or faulty, the declarations
are those of the segments if all are valid. Otherwise there is exactly one error for each faulty
segment, in order, and it is the one that the segment has alone. -/
theorem Program.parse_flatten (finish : Lexeme) {segments : List (List Token)}
    (h : ∀ segment ∈ segments, IsValid segment ∨ IsFaulty segment) :
    ((∀ segment ∈ segments, ¬ IsFaulty segment) →
      ∃ p : Program, segments.map Program.parseAlone = p.map (fun s => .ok [s]) ∧
        Program.parse finish segments.flatten = .ok p) ∧
    ((∃ segment ∈ segments, IsFaulty segment) →
      ∃ errors, (segments.filter Program.failsAlone).map Program.parseAlone =
          errors.map (fun e => .error [e]) ∧
        Program.parse finish segments.flatten = .error errors) := by
  constructor
  · intro hnone
    have hvalid : ∀ segment ∈ segments, IsValid segment := fun segment hmem =>
      (h segment hmem).resolve_right (hnone segment hmem)
    obtain ⟨p, halone, hwhole⟩ := Grammar.declarations_flatten_of_isValid finish hvalid
    exact ⟨p, halone, parse_eq_ok_iff_declarations.mpr hwhole⟩
  · rintro ⟨segment, hmem, hfaulty⟩
    have halone := Grammar.errors_flatten finish h
    refine ⟨_, halone, parse_eq_error_iff.mpr ⟨rfl, ?_⟩⟩
    intro hnil
    rw [hnil, List.map_nil, List.map_eq_nil_iff, List.filter_eq_nil_iff] at halone
    exact halone segment hmem hfaulty.fails

/-- Two of these three segments are faulty. -/
theorem Program.parse_flatten_two_faulty :
    ∃ errors, errors.length = 2 ∧
      Program.parse (.endingAt .origin) ((["+ a;", "var b;", "print ;"].map fun source =>
        (Scan.ofString source).tokens).flatten) = .error errors := by
  have hplus : IsFaulty (Scan.ofString "+ a;").tokens :=
    ⟨by decide +kernel, ⟨(Scan.ofString "+ a").tokens, ⟨.symbol .semicolon, ";", 3, 1⟩,
      by decide +kernel, rfl, by decide +kernel⟩, by decide +kernel, by decide +kernel⟩
  have hvar : IsValid (Scan.ofString "var b;").tokens := by
    have htokens : (Scan.ofString "var b;").tokens = [⟨.keyword .varWord, "var", 0, 1⟩,
        ⟨.ident, "b", 4, 1⟩, ⟨.symbol .semicolon, ";", 5, 1⟩] := by
      decide +kernel
    rw [htokens]
    exact ⟨_, Program.parse_of_reading (.cons (.var rfl rfl rfl) .nil)⟩
  have hprint : IsFaulty (Scan.ofString "print ;").tokens :=
    ⟨by decide +kernel, ⟨(Scan.ofString "print").tokens, ⟨.symbol .semicolon, ";", 6, 1⟩,
      by decide +kernel, rfl, by decide +kernel⟩, by decide +kernel, by decide +kernel⟩
  have hsegments : ∀ segment ∈ ["+ a;", "var b;", "print ;"].map fun source =>
      (Scan.ofString source).tokens, IsValid segment ∨ IsFaulty segment := by
    simp [hplus, hvar, hprint]
  obtain ⟨errors, halone, hwhole⟩ :=
    (Program.parse_flatten (.endingAt .origin) hsegments).2 ⟨_, by simp, hplus⟩
  refine ⟨errors, ?_, hwhole⟩
  have hlength := congrArg List.length halone
  rw [List.length_map, List.length_map] at hlength
  rw [← hlength]
  decide +kernel

end Lox
