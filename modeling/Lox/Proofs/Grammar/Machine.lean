import Lox.Parse.Parser
import Lox.Proofs.Grammar.Replies

/-!
# The machine and the rules

The parser as a machine (`Lox.Parse.Parser`) follows the rules of the grammar. Where it stands
before some tokens, each of its computations has a result; this is what the rule replies to these
tokens, and the machine stands before the tokens that the rule leaves, with its slots and its
depth as they were. `Realizes` says so of one computation and one rule.

There is one lemma for each function of the machine. The depth of the machine and the room that a
rule is given add up to the limit, so where levels nest the induction is on the room; that a loop
comes to an end is `loop_apply`, an induction on the tokens that are left, for all loops.

A parser that has come to some position therefore answers as one that begins there.
-/

set_option autoImplicit false

namespace Lox

/-- What a reply is made of: what has come of the rule, and the tokens that are left. -/
def Reply.parts {α : Type} (reply : Reply α) : Except ParseError α × List Token :=
  (reply.result, reply.rest)

namespace Parser

/-! ## Positions -/

/-- The parser stands before the tokens `ts`, and behind them is the end. -/
def Faces (p : Parser) (finish : Lexeme) (ts : List Token) : Prop :=
  p.slots.drop p.current = ts.map .token ++ [.finish finish]

/-- The parser `p'` is `p`, but may have gone on. -/
structure Before (p p' : Parser) : Prop where
  slots : p'.slots = p.slots
  depth : p'.depth = p.depth
  current_le : p.current ≤ p'.current

section

variable {p p' p'' : Parser} {finish : Lexeme} {t : Token} {ts : List Token}

theorem Before.refl (p : Parser) : p.Before p := ⟨rfl, rfl, Nat.le_refl _⟩

theorem Before.trans (h : p.Before p') (h' : p'.Before p'') : p.Before p'' :=
  ⟨h'.slots.trans h.slots, h'.depth.trans h.depth, Nat.le_trans h.current_le h'.current_le⟩

theorem Faces.current_lt (h : p.Faces finish ts) : p.current < p.slots.length := by
  have hlength := congrArg List.length h
  simp only [List.length_drop, List.length_append, List.length_cons] at hlength
  omega

theorem Faces.getLast? (h : p.Faces finish ts) : p.slots.getLast? = some (.finish finish) := by
  rw [← List.take_append_drop p.current p.slots, h, ← List.append_assoc, List.getLast?_concat]

theorem Faces.getElem?_nil (h : p.Faces finish []) :
    p.slots[p.current]? = some (.finish finish) := by
  rw [← List.head?_drop, h]
  rfl

theorem Faces.getElem?_cons (h : p.Faces finish (t :: ts)) :
    p.slots[p.current]? = some (.token t) := by
  rw [← List.head?_drop, h]
  rfl

theorem Faces.tail (h : p.Faces finish (t :: ts)) :
    Faces { p with current := p.current + 1 } finish ts := by
  show p.slots.drop (p.current + 1) = _
  rw [← List.tail_drop, h]
  rfl

theorem before_next (p : Parser) : p.Before { p with current := p.current + 1 } :=
  ⟨rfl, rfl, Nat.le_succ _⟩

end

/-! ## Computations -/

theorem bind_apply {σ α β : Type} (m : StateT σ Option α) (k : α → StateT σ Option β) (s : σ) :
    (m >>= k) s = (m s).bind fun x => k x.1 x.2 := rfl

section

variable {α β : Type} {p : Parser} {finish : Lexeme} {t : Token} {ts : List Token}

theorem peek_of_nil (h : p.Faces finish []) : peek p = some (.finish finish, p) := by
  rw [peek, h.getElem?_nil]
  rfl

theorem peek_of_cons (h : p.Faces finish (t :: ts)) : peek p = some (.token t, p) := by
  rw [peek, h.getElem?_cons]
  rfl

theorem peek_apply (h : p.Faces finish ts) :
    ∃ slot, peek p = some (slot, p) ∧ slot.kind? = ts.head?.map (·.kind) := by
  cases ts with
  | nil => exact ⟨_, peek_of_nil h, rfl⟩
  | cons t ts => exact ⟨_, peek_of_cons h, rfl⟩

theorem advance_of_nil (h : p.Faces finish []) : advance p = some ((), p) := by
  rw [advance, bind_apply, peek_of_nil h]
  rfl

theorem advance_of_cons (h : p.Faces finish (t :: ts)) :
    advance p = some ((), { p with current := p.current + 1 }) := by
  rw [advance, bind_apply, peek_of_cons h]
  rfl

theorem failure_apply (h : p.Faces finish ts) (fault : ParseFault) :
    failure fault p = some (.atHead fault finish ts, p) := by
  cases ts with
  | nil =>
    rw [failure, bind_apply, peek_of_nil h]
    rfl
  | cons t ts =>
    rw [failure, bind_apply, peek_of_cons h]
    rfl

end

/-! ## Computations and rules -/

/-- In depth `d` the computation `m` is the rule `r`: its result is that of the rule, and the parser
then stands before what the rule leaves. -/
def Realizes {α : Type} (d : Nat) (m : ParserM (Except ParseError α)) (r : Rule α) : Prop :=
  ∀ p finish ts, p.Faces finish ts → p.depth = d →
    ∃ p', m p = some ((r.run finish ts).result, p') ∧ p'.Faces finish (r.run finish ts).rest ∧
      p.Before p'

/-- The same of a rule that never fails. -/
def Takes {α : Type} (d : Nat) (m : ParserM α) (r : Rule α) : Prop :=
  ∀ p finish ts, p.Faces finish ts → p.depth = d →
    ∃ a rest p', r.run finish ts = .ok a rest ∧ m p = some (a, p') ∧ p'.Faces finish rest ∧
      p.Before p'

section

variable {α β : Type} {d : Nat}

/-- After a success the rule goes on with `k'`, and the computation with `k`. -/
theorem Realizes.bind {m : ParserM (Except ParseError α)} {r : Rule α}
    {k : Except ParseError α → ParserM (Except ParseError β)} {k' : α → Rule β}
    (hm : Realizes d m r) (herror : ∀ e, k (.error e) = pure (.error e))
    (hk : ∀ a, Realizes d (k (.ok a)) (k' a)) : Realizes d (m >>= k) (r >>= k') := by
  intro p finish ts hfaces hdepth
  obtain ⟨p', hx, hfaces', hbefore⟩ := hm p finish ts hfaces hdepth
  rw [bind_apply, hx, Option.bind_some]
  cases hrun : r.run finish ts with
  | ok a rest =>
    rw [hrun] at hfaces'
    obtain ⟨p'', hx', hfaces'', hbefore'⟩ :=
      hk a p' finish rest hfaces' (hbefore.depth.trans hdepth)
    rw [Rule.run_bind_of_ok hrun]
    exact ⟨p'', hx', hfaces'', hbefore.trans hbefore'⟩
  | error e rest =>
    rw [hrun] at hfaces'
    rw [Rule.run_bind_of_error hrun]
    refine ⟨p', ?_, hfaces', hbefore⟩
    show k (.error e) p' = _
    rw [herror]
    rfl

theorem Takes.bind {m : ParserM α} {r : Rule α} {k : α → ParserM (Except ParseError β)}
    {k' : α → Rule β} (hm : Takes d m r) (hk : ∀ a, Realizes d (k a) (k' a)) :
    Realizes d (m >>= k) (r >>= k') := by
  intro p finish ts hfaces hdepth
  obtain ⟨a, rest, p', hrun, hx, hfaces', hbefore⟩ := hm p finish ts hfaces hdepth
  obtain ⟨p'', hx', hfaces'', hbefore'⟩ :=
    hk a p' finish rest hfaces' (hbefore.depth.trans hdepth)
  rw [bind_apply, hx, Rule.run_bind_of_ok hrun]
  exact ⟨p'', hx', hfaces'', hbefore.trans hbefore'⟩

theorem realizes_ok (a : α) : Realizes d (pure (.ok a)) (pure a) :=
  fun p _ _ hfaces _ => ⟨p, rfl, hfaces, .refl p⟩

theorem Realizes.map {m : ParserM (Except ParseError α)} {r : Rule α} (h : Realizes d m r)
    (g : α → β) : Realizes d (m >>= fun x => pure (x.map g)) (g <$> r) :=
  h.bind (fun _ => rfl) fun a => realizes_ok (g a)

theorem realizes_fail (fault : ParseFault) :
    Realizes d (do return .error (← failure fault)) (Rule.fail fault : Rule α) := by
  intro p finish ts hfaces _
  rw [bind_apply, failure_apply hfaces, Rule.run_fail]
  exact ⟨p, rfl, hfaces, .refl p⟩

theorem realizes_failAt (t : Token) (fault : ParseFault) :
    Realizes d (pure (.error ⟨fault, some t.kind, t.lexeme⟩)) (Rule.failAt t fault : Rule α) :=
  fun p _ _ hfaces _ => ⟨p, rfl, hfaces, .refl p⟩

theorem takes_advance : Takes d advance Rule.skip := by
  intro p finish ts hfaces _
  cases ts with
  | nil => exact ⟨_, _, _, rfl, advance_of_nil hfaces, hfaces, .refl p⟩
  | cons t ts => exact ⟨_, _, _, rfl, advance_of_cons hfaces, hfaces.tail, before_next p⟩

theorem takes_eatIf (f : TokenKind → Option β) : Takes d (eatIf f) (Rule.take? f) := by
  intro p finish ts hfaces _
  cases ts with
  | nil =>
    refine ⟨none, [], p, rfl, ?_, hfaces, .refl p⟩
    rw [eatIf, bind_apply, peek_of_nil hfaces]
    rfl
  | cons t ts =>
    cases hf : f t.kind with
    | none =>
      have hnone : ∀ t' ∈ (t :: ts).head?, f t'.kind = none := by
        rintro t' ⟨⟩
        exact hf
      refine ⟨none, t :: ts, p, Rule.run_take?_of_none hnone, ?_, hfaces, .refl p⟩
      rw [eatIf, bind_apply, peek_of_cons hfaces, Option.bind_some]
      simp only [hf]
      rfl
    | some b =>
      refine ⟨some (b, t), ts, _, Rule.run_take?_of_some hf, ?_, hfaces.tail, before_next p⟩
      rw [eatIf, bind_apply, peek_of_cons hfaces, Option.bind_some]
      simp only [hf]
      rw [bind_apply, advance_of_cons hfaces]
      rfl

theorem takes_eatKind (kind : TokenKind) : Takes d (eatKind kind) (Rule.takeKind? kind) := by
  intro p finish ts hfaces hdepth
  obtain ⟨taken, rest, p', hrun, hx, hfaces', hbefore⟩ :=
    takes_eatIf (fun k => if k = kind then some () else none) p finish ts hfaces hdepth
  refine ⟨taken.map (·.2), rest, p', ?_, ?_, hfaces', hbefore⟩
  · rw [Rule.takeKind?, Rule.run_bind_of_ok hrun]
    rfl
  · rw [eatKind, bind_apply, hx]
    rfl

theorem realizes_expect (kind : TokenKind) (fault : ParseFault) :
    Realizes d (expect kind fault) (Rule.expect kind fault) := by
  apply (takes_eatKind kind).bind
  intro taken
  cases taken with
  | some t => exact realizes_ok t.lexeme
  | none => exact realizes_fail fault

/-! ### Levels of nesting -/

theorem enter_of_lt {p : Parser} (h : p.depth < Grammar.nestingLimit) :
    enter p = some (.ok (), { p with depth := p.depth + 1 }) := by
  show (if Grammar.nestingLimit ≤ p.depth then _ else _ : ParserM _) p = _
  rw [if_neg (Nat.not_le.mpr h)]
  rfl

theorem enter_of_limit {p : Parser} {finish : Lexeme} {ts : List Token}
    (hfaces : p.Faces finish ts) (h : p.depth = Grammar.nestingLimit) :
    enter p = some (.error (.atHead .excessiveNesting finish ts), p) := by
  show (if Grammar.nestingLimit ≤ p.depth then _ else _ : ParserM _) p = _
  rw [if_pos (Nat.le_of_eq h.symm), bind_apply, failure_apply hfaces]
  rfl

/-- Whatever comes of it, the level that has been entered is left. -/
theorem realizes_nested {m : ParserM (Except ParseError α)} {r : Rule α}
    (hd : d < Grammar.nestingLimit) (h : Realizes (d + 1) m r) : Realizes d (nested m) r := by
  intro p finish ts hfaces hdepth
  have henter := enter_of_lt (hdepth ▸ hd)
  obtain ⟨p', hx, hfaces', hslots, hdepth', hle⟩ :=
    h { p with depth := p.depth + 1 } finish ts hfaces (congrArg (· + 1) hdepth)
  refine ⟨{ p' with depth := p'.depth - 1 }, ?_, hfaces', hslots, ?_, hle⟩
  · rw [nested, bind_apply, henter, Option.bind_some]
    dsimp only
    rw [bind_apply, hx]
    rfl
  · show p'.depth - 1 = p.depth
    rw [hdepth']
    rfl

theorem realizes_nested_limit (m : ParserM (Except ParseError α)) :
    Realizes Grammar.nestingLimit (nested m) (Rule.fail .excessiveNesting) := by
  intro p finish ts hfaces hdepth
  refine ⟨p, ?_, ?_, .refl p⟩
  · rw [nested, bind_apply, enter_of_limit hfaces hdepth, Rule.run_fail]
    rfl
  · rw [Rule.run_fail]
    exact hfaces

/-! ### Loops -/

section

variable {σ : Type} {round : σ → ParserM (Round σ α)} {p p' : Parser} {finish : Lexeme}
variable {ts : List Token}

theorem Faces.left (h : p.Faces finish ts) : p.left = ts.length + 1 := by
  have hlength := congrArg List.length h
  simpa [Parser.left] using hlength

theorem loop_of_done {s : σ} {a : α} (h : round s p = some (.done a, p')) :
    loop round s p = some (a, p') := by
  rw [loop, h]

theorem loop_of_again {s s' : σ} (h : round s p = some (.again s', p')) (hlt : p'.left < p.left) :
    loop round s p = loop round s' p' := by
  rw [loop, h]
  exact if_pos hlt

/-- A round in the state `s` before the tokens `ts`, of a loop that is to come to the result
`(goal s ts).1` before the tokens `(goal s ts).2`. It comes to them itself, or it goes past some
tokens and is in a state with the same goal. -/
inductive Advances (goal : σ → List Token → α × List Token) (finish : Lexeme) (p : Parser) (s : σ)
    (ts : List Token) : Option (Round σ α × Parser) → Prop
  | done {a : α} {rest : List Token} {p' : Parser} (hgoal : goal s ts = (a, rest))
      (hfaces : p'.Faces finish rest) (hbefore : p.Before p') :
      Advances goal finish p s ts (some (.done a, p'))
  | again {s' : σ} {rest : List Token} {p' : Parser} (hgoal : goal s ts = goal s' rest)
      (hfaces : p'.Faces finish rest) (hbefore : p.Before p') (hlt : rest.length < ts.length) :
      Advances goal finish p s ts (some (.again s', p'))

/-- Since every round that is not the last goes past some tokens, there is a last one. -/
theorem loop_apply (goal : σ → List Token → α × List Token)
    (hround : ∀ s p ts, p.Faces finish ts → p.depth = d →
      Advances goal finish p s ts (round s p))
    (s : σ) (h : p.Faces finish ts) (hdepth : p.depth = d) :
    ∃ p', loop round s p = some ((goal s ts).1, p') ∧ p'.Faces finish (goal s ts).2 ∧
      p.Before p' := by
  induction hn : ts.length using Nat.strongRecOn generalizing s p ts with
  | _ n ih =>
    have hadvances := hround s p ts h hdepth
    generalize hx : round s p = x at hadvances
    cases hadvances with
    | @done a rest p' hgoal hfaces hbefore =>
      rw [hgoal]
      exact ⟨p', loop_of_done hx, hfaces, hbefore⟩
    | @again s' rest p' hgoal hfaces hbefore hlt =>
      have hleft : p'.left < p.left := by
        rw [hfaces.left, h.left]
        omega
      obtain ⟨p'', hx', hfaces', hbefore'⟩ :=
        ih rest.length (hn ▸ hlt) s' hfaces (hbefore.depth.trans hdepth) rfl
      rw [hgoal, loop_of_again hx hleft]
      exact ⟨p'', hx', hfaces', hbefore.trans hbefore'⟩

end

/-! ### Expressions -/

/-- The rule for what begins a level. -/
def Entry.rule (inner : Inner) : Entry → Rule Expr
  | expression => inner.expression
  | assignment => inner.assignment
  | unary => inner.unary

theorem chainRound_advances {ops : List BinaryOp} {m : ParserM (Except ParseError Expr)}
    {r : Rule Expr} (h : Realizes d m r) (finish : Lexeme) (lhs : Expr) (p : Parser)
    (ts : List Token) (hfaces : p.Faces finish ts) (hdepth : p.depth = d) :
    Advances (fun lhs ts => ((Grammar.chain ops r lhs).run finish ts).parts) finish p lhs ts
      (chainRound ops m lhs p) := by
  obtain ⟨eaten, rest, p', hrun, hx, hfaces', hbefore⟩ :=
    takes_eatIf (fun k => k.symbol?.bind (BinaryOp.among ops)) p finish ts hfaces hdepth
  rw [chainRound, bind_apply, hx, Option.bind_some]
  rcases Rule.run_take?_eq_ok_iff.mp hrun with ⟨op, t, rfl, hop, rfl⟩ | ⟨rfl, rfl, hstop⟩
  · obtain ⟨p'', hx', hfaces'', hbefore'⟩ :=
      h p' finish rest hfaces' (hbefore.depth.trans hdepth)
    have hle := r.length_le finish rest
    dsimp only
    rw [bind_apply, hx', Option.bind_some]
    cases hoperand : r.run finish rest with
    | ok rhs left =>
      rw [hoperand, Reply.rest_ok] at hfaces'' hle
      refine .again ?_ hfaces'' (hbefore.trans hbefore') (Nat.lt_succ_of_le hle)
      rw [Grammar.chain_run_of_some hop, Rule.run_bind_of_ok hoperand]
    | error e left =>
      rw [hoperand] at hfaces''
      refine .done ?_ hfaces'' (hbefore.trans hbefore')
      rw [Grammar.chain_run_of_some hop, Rule.run_bind_of_error hoperand]
      rfl
  · refine .done ?_ hfaces' hbefore
    rw [Grammar.chain_run_of_stop hstop]
    rfl

theorem realizes_chain {ops : List BinaryOp} {m : ParserM (Except ParseError Expr)}
    {r : Rule Expr} (h : Realizes d m r) (lhs : Expr) :
    Realizes d (chain ops m lhs) (Grammar.chain ops r lhs) :=
  fun _ finish _ hfaces hdepth => loop_apply _ (chainRound_advances h finish) lhs hfaces hdepth

theorem realizes_leftAssociative {level : Grammar.Level} {m : ParserM (Except ParseError Expr)}
    {r : Rule Expr} (h : Realizes d m r) :
    Realizes d (leftAssociative level m) (Grammar.leftAssociative level r) := by
  apply (takes_eatIf _).bind
  intro eaten
  cases eaten with
  | some eaten => exact h.bind (fun _ => rfl) fun _ => realizes_failAt eaten.2 _
  | none => exact h.bind (fun _ => rfl) fun lhs => realizes_chain h lhs

section

variable {computations : Entry → ParserM (Except ParseError Expr)} {inner : Inner}
variable (hi : ∀ entry, Realizes d (computations entry) (entry.rule inner))

include hi

theorem realizes_primary : Realizes d (primary computations) (Grammar.primary inner) := by
  intro p finish ts hfaces hdepth
  rw [primary, bind_apply]
  cases ts with
  | nil =>
    rw [peek_of_nil hfaces]
    exact realizes_fail _ p finish [] hfaces hdepth
  | cons t ts =>
    rw [peek_of_cons hfaces, Grammar.primary, Rule.run_bind_of_ok Rule.run_peek]
    dsimp only [Option.bind_some, List.head?_cons]
    cases Grammar.atom? t with
    | some e => exact (takes_advance.bind fun _ => realizes_ok e) p finish _ hfaces hdepth
    | none =>
      refine (takes_eatKind _).bind (fun opening => ?_) p finish _ hfaces hdepth
      cases opening with
      | none => exact realizes_fail _
      | some opening =>
        refine (hi .expression).bind (fun _ => rfl) fun e => ?_
        exact (realizes_expect _ _).bind (fun _ => rfl) fun _ => realizes_ok _

theorem realizes_unary : Realizes d (unary computations) (Grammar.unary inner) := by
  apply (takes_eatIf _).bind
  intro eaten
  cases eaten with
  | none => exact realizes_primary hi
  | some eaten => exact (hi .unary).bind (fun _ => rfl) fun e => realizes_ok _

theorem realizes_equality : Realizes d (equality computations) (Grammar.equality inner) :=
  realizes_leftAssociative <| realizes_leftAssociative <| realizes_leftAssociative <|
    realizes_leftAssociative <| realizes_unary hi

theorem realizes_ternary : Realizes d (ternary computations) (Grammar.ternary inner) := by
  refine (realizes_equality hi).bind (fun _ => rfl) fun condition => ?_
  apply (takes_eatKind _).bind
  intro question
  cases question with
  | none => exact realizes_ok condition
  | some question =>
    refine (hi .expression).bind (fun _ => rfl) fun success => ?_
    refine (realizes_expect _ _).bind (fun _ => rfl) fun colon => ?_
    exact (realizes_equality hi).bind (fun _ => rfl) fun other => realizes_ok _

theorem realizes_assignment : Realizes d (assignment computations) (Grammar.assignment inner) := by
  refine (realizes_ternary hi).bind (fun _ => rfl) fun target => ?_
  apply (takes_eatKind _).bind
  intro equals
  cases equals with
  | none => exact realizes_ok target
  | some equals =>
    refine (hi .assignment).bind (fun _ => rfl) fun value => ?_
    cases target with
    | name site => exact realizes_ok _
    | _ => exact realizes_failAt equals _

theorem realizes_comma : Realizes d (comma computations) (Grammar.comma inner) := by
  refine (realizes_assignment hi).bind (fun _ => rfl) fun lhs => ?_
  exact realizes_chain (realizes_assignment hi) lhs

end

/-- The depth that has been reached and the room that is left make up the limit. -/
theorem realizes_inside {room levels : Nat} (h : d + room = Grammar.nestingLimit)
    (hle : room ≤ levels) (entry : Entry) :
    Realizes d (inside levels entry) (entry.rule (Grammar.inner room)) := by
  induction room generalizing d levels entry with
  | zero =>
    obtain rfl : d = Grammar.nestingLimit := h
    cases levels <;> cases entry <;> exact realizes_nested_limit _
  | succ room ih =>
    obtain ⟨levels, rfl⟩ := Nat.exists_eq_add_one_of_ne_zero (Nat.ne_of_gt (Nat.zero_lt_of_lt hle))
    have hd : d < Grammar.nestingLimit := by omega
    have hi := ih (show d + 1 + room = _ by omega) (Nat.le_of_succ_le_succ hle)
    cases entry with
    | expression => exact realizes_nested hd (realizes_comma hi)
    | assignment => exact realizes_nested hd (realizes_assignment hi)
    | unary => exact realizes_nested hd (realizes_unary hi)

theorem realizes_expression {room : Nat} (h : d + room = Grammar.nestingLimit) :
    Realizes d expression (Grammar.inner room).expression :=
  realizes_inside h (by omega) .expression

/-! ### Statements -/

section

variable {expr : Rule Expr} (he : Realizes d expression expr)

include he

theorem realizes_variableDeclaration :
    Realizes d variableDeclaration (Grammar.variableDeclaration expr) := by
  refine (realizes_expect _ _).bind (fun _ => rfl) fun site => ?_
  apply (takes_eatKind _).bind
  intro equals
  cases equals with
  | none =>
    refine (realizes_ok none).bind (fun _ => rfl) fun initial => ?_
    exact (realizes_expect _ _).bind (fun _ => rfl) fun _ => realizes_ok _
  | some equals =>
    refine (he.map some).bind (fun _ => rfl) fun initial => ?_
    exact (realizes_expect _ _).bind (fun _ => rfl) fun _ => realizes_ok _

theorem realizes_terminated (what : Terminated) :
    Realizes d (terminated what) (Grammar.terminated expr what) :=
  he.bind (fun _ => rfl) fun _ => (realizes_expect _ _).bind (fun _ => rfl) fun _ => realizes_ok _

omit he in
/-- A statement begins with a word or a brace that is passed over, or it is an expression. -/
theorem run_statement (block : Rule Stmt) (finish : Lexeme) (ts : List Token) :
    (Grammar.statement block expr).run finish ts =
      (do
        match ← Rule.takeKind? (.keyword .varWord) with
        | some _ => Grammar.variableDeclaration expr
        | none =>
          match ← Rule.takeKind? (.keyword .printWord) with
          | some _ => .print <$> Grammar.terminated expr .value
          | none =>
            match ← Rule.takeKind? (.symbol .leftBrace) with
            | some _ => block
            | none => .expression <$> Grammar.terminated expr .expression : Rule Stmt).run
        finish ts := by
  rw [Grammar.statement, Rule.run_bind_of_ok Rule.run_peek]
  cases ts with
  | nil =>
    have hne (kind : TokenKind) : ∀ t ∈ ([] : List Token).head?, t.kind ≠ kind := by simp
    rw [Rule.run_bind_of_ok (Rule.run_takeKind?_of_ne (hne _))]
    dsimp only
    rw [Rule.run_bind_of_ok (Rule.run_takeKind?_of_ne (hne _))]
    dsimp only
    rw [Rule.run_bind_of_ok (Rule.run_takeKind?_of_ne (hne _))]
    rfl
  | cons t ts =>
    have hne {kind : TokenKind} (h : t.kind ≠ kind) : ∀ t' ∈ (t :: ts).head?, t'.kind ≠ kind := by
      rintro t' ⟨⟩
      exact h
    dsimp only [List.head?_cons, Option.map_some]
    by_cases hvar : t.kind = .keyword .varWord
    · rw [Rule.run_bind_of_ok (Rule.run_takeKind?_of_kind hvar), hvar]
      rfl
    rw [Rule.run_bind_of_ok (Rule.run_takeKind?_of_ne (hne hvar))]
    dsimp only
    by_cases hprint : t.kind = .keyword .printWord
    · rw [Rule.run_bind_of_ok (Rule.run_takeKind?_of_kind hprint), hprint]
      rfl
    rw [Rule.run_bind_of_ok (Rule.run_takeKind?_of_ne (hne hprint))]
    dsimp only
    by_cases hbrace : t.kind = .symbol .leftBrace
    · rw [Rule.run_bind_of_ok (Rule.run_takeKind?_of_kind hbrace), hbrace]
      rfl
    rw [Rule.run_bind_of_ok (Rule.run_takeKind?_of_ne (hne hbrace))]
    split
    · rename_i heq
      exact absurd (Option.some.inj heq) hvar
    · rename_i heq
      exact absurd (Option.some.inj heq) hprint
    · rename_i heq
      exact absurd (Option.some.inj heq) hbrace
    · rfl

theorem realizes_declaration {m : ParserM (Except ParseError Stmt)} {block : Rule Stmt}
    (hb : Realizes d m block) : Realizes d (declaration m) (Grammar.statement block expr) := by
  intro p finish ts hfaces hdepth
  rw [run_statement]
  refine (takes_eatKind _).bind (fun word => ?_) p finish ts hfaces hdepth
  cases word with
  | some word => exact realizes_variableDeclaration he
  | none =>
    apply (takes_eatKind _).bind
    intro word
    cases word with
    | some word => exact (realizes_terminated he _).map _
    | none =>
      apply (takes_eatKind _).bind
      intro opening
      cases opening with
      | some opening => exact hb
      | none => exact (realizes_terminated he _).map _

end

/-- Whether a block ends before a token of this kind. -/
abbrev endsBlock (kind : Option TokenKind) : Bool :=
  kind == none || kind == some (.symbol .rightBrace)

/-- What has been read of a block stands before what is still read. -/
theorem blockRound_advances {m : ParserM (Except ParseError Stmt)}
    {r : { r : Rule Stmt // r.Consumes }} (h : Realizes d m r.1) (finish : Lexeme)
    (body : List Stmt) (p : Parser) (ts : List Token) (hfaces : p.Faces finish ts)
    (hdepth : p.depth = d) :
    Advances (fun body ts => (((body ++ ·) <$> Rule.many endsBlock r.1 r.2).run finish ts).parts)
      finish p body ts (blockRound m body p) := by
  obtain ⟨slot, hpeek, hkind⟩ := peek_apply hfaces
  rw [blockRound, bind_apply, hpeek]
  dsimp only [Option.bind_some]
  by_cases hends : endsBlock slot.kind? = true
  · rw [if_pos hends]
    refine .done ?_ hfaces (.refl p)
    have hmany : (Rule.many endsBlock r.1 r.2).run finish ts = .ok [] ts := by
      rw [Rule.many_run, ← hkind, if_pos hends]
    rw [Rule.run_map_of_ok hmany, List.append_nil]
    rfl
  · rw [if_neg hends]
    have hmany : (Rule.many endsBlock r.1 r.2).run finish ts =
        (do let s ← r.1; return s :: (← Rule.many endsBlock r.1 r.2)).run finish ts := by
      rw [Rule.many_run, ← hkind, if_neg hends]
    obtain ⟨p', hx, hfaces', hbefore⟩ := h p finish ts hfaces hdepth
    rw [bind_apply, hx, Option.bind_some]
    cases hrun : r.1.run finish ts with
    | ok s rest =>
      rw [hrun] at hfaces'
      rw [Rule.run_bind_of_ok hrun] at hmany
      refine .again ?_ hfaces' hbefore (r.2 finish ts s rest hrun)
      cases hrest : (Rule.many endsBlock r.1 r.2).run finish rest with
      | ok ss rest' =>
        rw [Rule.run_bind_of_ok hrest, Rule.run_pure] at hmany
        rw [Rule.run_map_of_ok hmany, Reply.rest_ok, Rule.run_map_of_ok hrest, List.append_assoc]
        rfl
      | error e rest' =>
        rw [Rule.run_bind_of_error hrest] at hmany
        rw [Rule.run_map_eq_error_iff.mpr hmany, Reply.rest_ok,
          Rule.run_map_eq_error_iff.mpr hrest]
    | error e rest =>
      rw [hrun] at hfaces'
      rw [Rule.run_bind_of_error hrun] at hmany
      refine .done ?_ hfaces' hbefore
      rw [Rule.run_map_eq_error_iff.mpr hmany]
      rfl

theorem realizes_block {m : ParserM (Except ParseError Stmt)}
    {r : { r : Rule Stmt // r.Consumes }} (h : Realizes d m r.1) :
    Realizes d (block m) (Grammar.block r) := by
  have hbody : Realizes d (loop (blockRound m) []) (Rule.many endsBlock r.1 r.2) := by
    intro p finish ts hfaces hdepth
    have hloop := loop_apply _ (blockRound_advances h finish) [] hfaces hdepth
    have hnil : (([] ++ ·) <$> Rule.many endsBlock r.1 r.2).run finish ts =
        (Rule.many endsBlock r.1 r.2).run finish ts := by
      cases hrun : (Rule.many endsBlock r.1 r.2).run finish ts with
      | ok body rest => exact Rule.run_map_of_ok hrun
      | error e rest => exact Rule.run_map_eq_error_iff.mpr hrun
    rw [hnil] at hloop
    exact hloop
  refine hbody.bind (fun _ => rfl) fun body => ?_
  exact (realizes_expect _ _).bind (fun _ => rfl) fun _ => realizes_ok _

theorem realizes_declarationWithin {room levels : Nat} (h : d + room = Grammar.nestingLimit)
    (hle : room ≤ levels) :
    Realizes d (declarationWithin levels) (Grammar.declarationWithin room).1 := by
  induction room generalizing d levels with
  | zero =>
    have he := realizes_expression h
    obtain rfl : d = Grammar.nestingLimit := h
    cases levels <;> exact realizes_declaration he (realizes_nested_limit _)
  | succ room ih =>
    obtain ⟨levels, rfl⟩ := Nat.exists_eq_add_one_of_ne_zero (Nat.ne_of_gt (Nat.zero_lt_of_lt hle))
    apply realizes_declaration (realizes_expression h)
    exact realizes_nested (by omega)
      (realizes_block (ih (by omega) (Nat.le_of_succ_le_succ hle)))

end

/-! ## Recovery and programs -/

section

variable {p : Parser} {finish : Lexeme} {t : Token} {ts : List Token}

theorem previousKind_next (h : p.Faces finish (t :: ts)) :
    previousKind { p with current := p.current + 1 } =
      some (some t.kind, { p with current := p.current + 1 }) := by
  have hslot : p.slots[p.current + 1 - 1]? = some (.token t) := h.getElem?_cons
  rw [previousKind, if_neg (Nat.succ_ne_zero _), hslot]
  rfl

theorem seekRound_of_nil (h : p.Faces finish []) : seekRound () p = some (.done (), p) := by
  rw [seekRound, bind_apply, peek_of_nil h]
  rfl

/-- It is the token before the position that says whether a statement ends there. -/
theorem seek_apply (h : p.Faces finish ts)
    (hprevious : previousKind p = some (some t.kind, p)) :
    ∃ p', loop seekRound () p = some ((), p') ∧
      p'.Faces finish (Grammar.synchronize (t :: ts)) ∧ p.Before p' := by
  induction ts generalizing p t with
  | nil =>
    refine ⟨p, loop_of_done (seekRound_of_nil h), ?_, .refl p⟩
    simpa [Grammar.synchronize] using h
  | cons next ts ih =>
    have hround : seekRound () p =
        (if t.kind = .symbol .semicolon ∨ Grammar.startsStatement next then pure (.done ())
          else (do advance; return .again ()) : ParserM (Round Unit Unit)) p := by
      rw [seekRound, bind_apply, peek_of_cons h, Option.bind_some]
      dsimp only
      rw [bind_apply, hprevious, Option.bind_some]
      simp only [Option.some.injEq]
    by_cases hstop : t.kind = .symbol .semicolon ∨ Grammar.startsStatement next = true
    · have hstay : Grammar.synchronize (t :: next :: ts) = next :: ts := if_pos hstop
      rw [if_pos hstop] at hround
      rw [hstay]
      exact ⟨p, loop_of_done hround, h, .refl p⟩
    · have hgo : Grammar.synchronize (t :: next :: ts) = Grammar.synchronize (next :: ts) :=
        if_neg hstop
      rw [if_neg hstop, bind_apply, advance_of_cons h] at hround
      have hleft : Parser.left { p with current := p.current + 1 } < p.left := by
        rw [h.tail.left, h.left]
        exact Nat.lt_succ_self _
      obtain ⟨p', hx, hfaces, hbefore⟩ := ih h.tail (previousKind_next h)
      rw [hgo, loop_of_again hround hleft]
      exact ⟨p', hx, hfaces, (before_next p).trans hbefore⟩

theorem synchronize_apply (h : p.Faces finish ts) :
    ∃ p', synchronize p = some ((), p') ∧ p'.Faces finish (Grammar.synchronize ts) ∧
      p.Before p' := by
  cases ts with
  | nil =>
    refine ⟨p, ?_, h, .refl p⟩
    rw [synchronize, bind_apply, advance_of_nil h]
    exact loop_of_done (seekRound_of_nil h)
  | cons t ts =>
    obtain ⟨p', hx, hfaces, hbefore⟩ := seek_apply h.tail (previousKind_next h)
    refine ⟨p', ?_, hfaces, (before_next p).trans hbefore⟩
    rw [synchronize, bind_apply, advance_of_cons h]
    exact hx

/-- What `read` becomes with what is read of the tokens `ts`. -/
def Progress.with (read : Progress) (finish : Lexeme) (ts : List Token) : Progress where
  statements := read.statements ++ Grammar.statements (Grammar.declarations finish ts)
  errors := read.errors ++ Grammar.errors (Grammar.declarations finish ts)

theorem programRound_advances (finish : Lexeme) (read : Progress) (p : Parser) (ts : List Token)
    (h : p.Faces finish ts) (hdepth : p.depth = 0) :
    Advances (fun read ts => (read.with finish ts, [])) finish p read ts (programRound read p) := by
  cases ts with
  | nil =>
    rw [programRound, bind_apply, peek_of_nil h]
    refine .done ?_ h (.refl p)
    simp [Progress.with, Grammar.declarations, Grammar.statements, Grammar.errors]
  | cons t ts =>
    have hlimit : 0 + Grammar.nestingLimit = Grammar.nestingLimit := Nat.zero_add _
    obtain ⟨q, hx, hfaces, hbefore⟩ :=
      realizes_declarationWithin hlimit (Nat.le_refl _) p finish _ h hdepth
    rw [← Grammar.declaration] at hx hfaces
    rw [programRound, bind_apply, peek_of_cons h, Option.bind_some]
    dsimp only
    rw [bind_apply, hx, Option.bind_some]
    cases hrun : Grammar.declaration.1.run finish (t :: ts) with
    | ok s rest =>
      rw [hrun] at hfaces
      refine .again ?_ hfaces hbefore (Grammar.declaration.2 finish _ s rest hrun)
      rw [Progress.with, Progress.with, Grammar.declarations_cons_of_ok hrun]
      simp [Grammar.statements, Grammar.errors]
    | error e rest =>
      rw [hrun] at hfaces
      have hlt := Grammar.length_synchronize_lt hrun
      obtain ⟨p', hsync, hfaces', hafter⟩ := synchronize_apply hfaces
      show Advances _ _ _ _ _ ((synchronize >>= _) q)
      rw [bind_apply, hsync]
      refine .again ?_ hfaces' (hbefore.trans hafter) hlt
      rw [Progress.with, Progress.with, Grammar.declarations_cons_of_error hrun]
      simp [Grammar.statements, Grammar.errors]

theorem parse_apply (h : p.Faces finish ts) (hdepth : p.depth = 0) :
    ∃ p', parse p = some (Program.parse finish ts, p') ∧ p'.Faces finish [] ∧ p.Before p' := by
  obtain ⟨p', hx, hfaces, hbefore⟩ :=
    loop_apply _ (programRound_advances finish) ⟨[], []⟩ h hdepth
  refine ⟨p', ?_, hfaces, hbefore⟩
  rw [parse, bind_apply, hx, Program.parse]
  dsimp only [Option.bind_some, Progress.with, List.nil_append]
  split <;> rfl

/-! ## Calls -/

theorem call_apply (h : p.Faces finish ts) (hdepth : p.depth = 0) (step : ParseStep) :
    ∃ p', call step p = some ((step.run finish ts).1, p') ∧
      p'.Faces finish (step.run finish ts).2 ∧ p.Before p' := by
  cases step with
  | expression =>
    have hlimit : 0 + Grammar.nestingLimit = Grammar.nestingLimit := Nat.zero_add _
    obtain ⟨p', hx, hfaces, hbefore⟩ := realizes_expression hlimit p finish ts h hdepth
    refine ⟨p', ?_, hfaces, hbefore⟩
    rw [call, bind_apply, hx]
    rfl
  | program =>
    obtain ⟨p', hx, hfaces, hbefore⟩ := parse_apply h hdepth
    rw [← Grammar.leftover_eq_nil finish ts] at hfaces
    refine ⟨p', ?_, hfaces, hbefore⟩
    rw [call, bind_apply, hx]
    rfl
  | synchronize =>
    obtain ⟨p', hx, hfaces, hbefore⟩ := synchronize_apply h
    refine ⟨p', ?_, hfaces, hbefore⟩
    rw [call, bind_apply, hx]
    rfl

theorem callAll_apply (h : p.Faces finish ts) (hdepth : p.depth = 0) (steps : List ParseStep) :
    ∃ rest p', callAll steps p = some (ParseStep.runAll finish ts steps, p') ∧
      p'.Faces finish rest ∧ p.Before p' := by
  induction steps generalizing p ts with
  | nil => exact ⟨ts, p, rfl, h, .refl p⟩
  | cons step steps ih =>
    obtain ⟨q, hx, hfaces, hbefore⟩ := call_apply h hdepth step
    obtain ⟨rest, p', hx', hfaces', hbefore'⟩ := ih hfaces (hbefore.depth.trans hdepth)
    refine ⟨rest, p', ?_, hfaces', hbefore.trans hbefore'⟩
    rw [callAll, bind_apply, hx, Option.bind_some, bind_apply, hx']
    rfl

/-! ## Beginnings -/

theorem slots_new_of_finish {slots : List Slot} {site : Lexeme}
    (h : slots.getLast? = some (.finish site)) : (new slots).slots = slots := by
  rw [new, h]

/-- A parser begins with the tokens that it is given, and with the end that belongs to them. -/
theorem faces_new_take (s : Scan) (n : Nat) :
    (new (s.slots.take n)).Faces (s.take n).2 (s.take n).1 := by
  show (new (s.slots.take n)).slots = _
  rw [Scan.take]
  split
  · rename_i hlt
    have htake : s.slots.take n = s.slots := by
      apply List.take_of_length_le
      simp [Scan.slots]
      omega
    rw [htake]
    apply slots_new_of_finish
    exact List.getLast?_concat
  · rename_i hge
    have htake : s.slots.take n = (s.tokens.take n).map .token := by
      rw [Scan.slots, List.take_append_of_le_length, List.map_take]
      simpa using hge
    rw [htake, new, List.getLast?_map, endOf]
    cases hlast : (s.tokens.take n).getLast? with
    | none =>
      rw [List.getLast?_eq_none_iff.mp hlast]
      rfl
    | some t => rfl

/-- A parser for what is left at a position begins where this is left. -/
theorem faces_new_drop (h : p.Faces finish ts) :
    (new (p.slots.drop p.current)).Faces finish ts := by
  show (new (p.slots.drop p.current)).slots = _
  rw [h]
  apply slots_new_of_finish
  exact List.getLast?_concat

end

/-- **A parser has no memory but its position.** However it has been called, and whatever has come
of it, it has answered as the rules of the grammar say, its slots are what they were and end with
the end, it is in no level of nesting, and its position is one of the slots. Any further calls do
not take it back, and they are answered as by a parser that is made of the slots from its position
on. -/
theorem callAll_position (source : String) (n : Nat) (calls : List ParseStep) :
    ∃ answers p,
      callAll calls (new ((Scan.ofString source).slots.take n)) = some (answers, p) ∧
      answers = ParseStep.runAll ((Scan.ofString source).take n).2
        ((Scan.ofString source).take n).1 calls ∧
      p.slots = (new ((Scan.ofString source).slots.take n)).slots ∧
      (∃ site, p.slots.getLast? = some (.finish site)) ∧
      p.depth = 0 ∧ p.current < p.slots.length ∧
      ∀ further, ∃ answers' p' p'',
        callAll further p = some (answers', p') ∧ p.current ≤ p'.current ∧
        callAll further (new (p.slots.drop p.current)) = some (answers', p'') := by
  have hfaces := faces_new_take (Scan.ofString source) n
  obtain ⟨rest, p, hx, hfaces', hslots, hdepth, -⟩ := callAll_apply hfaces rfl calls
  refine ⟨_, p, hx, rfl, hslots, ⟨_, hfaces'.getLast?⟩, hdepth, hfaces'.current_lt,
    fun further => ?_⟩
  obtain ⟨_, p', hx', -, hbefore⟩ := callAll_apply hfaces' hdepth further
  obtain ⟨_, p'', hx'', -, -⟩ := callAll_apply (faces_new_drop hfaces') rfl further
  exact ⟨_, p', p'', hx', hbefore.current_le, hx''⟩

/-- A parenthesis that is not closed, and a statement without its semicolon. -/
example :
    (callAll [.expression, .synchronize, .program]
      (new (Scan.ofString "(1; print 2 print 3;").slots)).map
        (fun x => (x.2.current, x.2.depth)) = some (8, 0) := by decide +kernel

end Parser

end Lox
