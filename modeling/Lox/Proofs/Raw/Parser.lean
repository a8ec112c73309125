import Lox.Proofs.Grammar.Machine
import Lox.Proofs.Raw.Tree
import Lox.Raw.Parser

/-!
# The parser and its tokens

The parser over a vector of tokens (`Lox.Raw.Parser`) goes through the same motions as the one of
`Lox.Parse.Parser`: from the same position, written out in full, the same result comes, written out
in full, or none comes of both. `Mirrors` says so of two computations, and there is one lemma for
each function.

Nothing is said here about where the parsers may be: that is known of the other parser
(`Lox.Proofs.Grammar.Machine`), and carries over. What is written out is more than what a tree
keeps, so each lemma has to find the token again from the operator that the tree has.
-/

set_option autoImplicit false

namespace Lox

/-- An error with its token. At the end of the input this is the end. -/
def ParseError.raw (e : ParseError) : Raw.ParseError :=
  ⟨e.fault, e.site.raw (e.found.elim .eof TokenKind.raw) (e.found.bind TokenKind.literal?)⟩

/-- The parser with its tokens written out in full. -/
def Parser.raw (p : Parser) : Raw.Parser := ⟨p.slots.map Slot.raw, p.current, p.depth⟩

/-- Only literals have lost something by being written out. -/
theorem TokenKind.eq_of_raw_eq {kind kind' : TokenKind} (h : kind.raw = kind'.raw)
    (hplain : kind'.literal? = none) : kind = kind' := by
  cases kind' with
  | number v => cases hplain
  | string s => cases hplain
  | symbol s => cases kind <;> cases h; rfl
  | keyword k => cases kind <;> cases h; rfl
  | ident => cases kind <;> cases h; rfl

/-- A token whose literal is none is known again from its lexeme and its kind. -/
theorem Lexeme.raw_of_kind (kind : TokenKind) (hplain : kind.literal? = none) {t : Token}
    (h : t.kind = kind) : t.lexeme.raw kind.raw none = t.raw := by
  rw [Token.raw, h, hplain]

/-- No token has the kind of the end, so the two kinds of slots can still be told apart. -/
theorem Slot.raw_kind_ne_eof (t : Token) : (token t).raw.kind ≠ .eof := by
  show t.kind.raw ≠ .eof
  cases t.kind <;> exact Raw.Kind.noConfusion

namespace Raw.Parser

open Lox.Parser (Round Entry bind_apply)

/-- A result with what `f` makes of it, and an error with its token. -/
def outcome {α β : Type} (f : α → β) : Except Lox.ParseError α → Except ParseError β
  | .ok a => .ok (f a)
  | .error e => .error e.raw

/-- From each position the computation `m` comes to what `f` makes of the result of `m'`, and to the
same position; or neither has a result. -/
def Mirrors {α β : Type} (f : α → β) (m : ParserM β) (m' : Lox.ParserM α) : Prop :=
  ∀ p : Lox.Parser, m p.raw = (m' p).map fun x => (f x.1, x.2.raw)

/-- The same of a rule. -/
def Follows {α β : Type} (f : α → β) (m : RuleM β)
    (m' : Lox.ParserM (Except Lox.ParseError α)) : Prop :=
  Mirrors (outcome f) m.run m'

section

variable {α β γ δ : Type} {f : α → β} {g : γ → δ}

theorem bind_of_some {σ : Type} {m : StateT σ Option α} {k : α → StateT σ Option β} {s s' : σ}
    {a : α} (h : m s = some (a, s')) : (m >>= k) s = k a s' := by
  rw [bind_apply, h, Option.bind_some]

/-- Computations in a row mirror others in a row. The second one goes on with the image of what the
first one has come to. -/
theorem Mirrors.bind {m : ParserM β} {m' : Lox.ParserM α} {k : β → ParserM δ}
    {k' : α → Lox.ParserM γ} (hm : Mirrors f m m') (hk : ∀ a, Mirrors g (k (f a)) (k' a)) :
    Mirrors g (m >>= k) (m' >>= k') := by
  intro p
  rw [bind_apply, bind_apply, hm p]
  cases m' p with
  | none => rfl
  | some x => exact hk x.1 x.2

/-- What is made of a result afterwards can be made of its image. -/
theorem Mirrors.map {h : α → γ} {f' : γ → β} {m : ParserM β} {m' : Lox.ParserM α}
    (hm : Mirrors f m m') (hf : ∀ a, f' (h a) = f a) :
    Mirrors f' m (m' >>= fun a => pure (h a)) := by
  intro p
  rw [hm p, bind_apply]
  cases m' p with
  | none => rfl
  | some x =>
    simp only [Option.map_some, Option.bind_some, ← hf]
    rfl

/-- A computation within a rule cannot fail, so the rule goes on from whatever it has come to. -/
theorem run_lift_bind (m : ParserM β) (k : β → RuleM δ) :
    (liftM m >>= k : RuleM δ).run = m >>= fun b => (k b).run := by
  funext p
  show ((m p).bind _).bind _ = (m p).bind _
  cases m p <;> rfl

/-- A rule that goes on after a computation. -/
theorem Mirrors.lift_bind {m : ParserM β} {m' : Lox.ParserM α} {k : β → RuleM δ}
    {k' : α → Lox.ParserM (Except Lox.ParseError γ)} (hm : Mirrors f m m')
    (hk : ∀ a, Follows g (k (f a)) (k' a)) : Follows g (liftM m >>= k) (m' >>= k') := by
  rw [Follows, run_lift_bind]
  exact hm.bind hk

theorem run_bind (m : RuleM β) (k : β → RuleM δ) (p : Parser) :
    (m >>= k).run p = (m.run p).bind fun x => ExceptT.bindCont k x.1 x.2 := rfl

theorem run_map (h : β → δ) (m : RuleM β) (p : Parser) :
    (h <$> m).run p = (m.run p).map fun x => (x.1.map h, x.2) := by
  show (m p).bind _ = (m p).map _
  cases m p with
  | none => rfl
  | some x =>
    obtain ⟨result, p'⟩ := x
    cases result <;> rfl

/-- A rule that goes on after a success. -/
theorem Follows.bind {m : RuleM β} {m' : Lox.ParserM (Except Lox.ParseError α)} {k : β → RuleM δ}
    {k' : Except Lox.ParseError α → Lox.ParserM (Except Lox.ParseError γ)} (hm : Follows f m m')
    (herror : ∀ e, k' (.error e) = pure (.error e))
    (hk : ∀ a, Follows g (k (f a)) (k' (.ok a))) : Follows g (m >>= k) (m' >>= k') := by
  intro p
  rw [run_bind, bind_apply, hm p]
  cases m' p with
  | none => rfl
  | some x =>
    obtain ⟨result, p'⟩ := x
    cases result with
    | ok a => exact hk a p'
    | error e =>
      simp only [Option.map_some, Option.bind_some, herror]
      rfl

/-- What is done to a success on both sides, where it does not matter whether this is done before
or after the result is written out. -/
theorem Follows.map {h : β → δ} {h' : α → γ} {m : RuleM β}
    {m' : Lox.ParserM (Except Lox.ParseError α)} (hm : Follows f m m')
    (hcomm : ∀ a, h (f a) = g (h' a)) : Follows g (h <$> m) (Except.map h' <$> m') := by
  intro p
  rw [run_map, map_eq_pure_bind, bind_apply, hm p]
  cases m' p with
  | none => rfl
  | some x =>
    obtain ⟨result, p'⟩ := x
    cases result with
    | ok a => exact congrArg (fun c => some (Except.ok c, p'.raw)) (hcomm a)
    | error e => rfl

theorem follows_pure (a : α) : Follows f (pure (f a)) (pure (.ok a)) := fun _ => rfl

theorem follows_throw (t : Lox.Token) (fault : ParseFault) :
    Follows f (throw ⟨fault, t.raw⟩) (pure (.error ⟨fault, some t.kind, t.lexeme⟩)) :=
  fun _ => rfl

end

/-! ## One token at a time -/

/-- The look beside the tokens has no result on either side. -/
theorem mirrors_peek : Mirrors Slot.raw peek Lox.Parser.peek := by
  intro p
  show (p.slots.map Slot.raw)[p.current]?.map _ = (p.slots[p.current]?.map _).map _
  rw [List.getElem?_map, Option.map_map, Option.map_map]
  rfl

section

variable {p : Lox.Parser} {slot : Slot}

theorem peek_of_none (h : p.slots[p.current]? = none) : Lox.Parser.peek p = none := by
  rw [Lox.Parser.peek, h]
  rfl

theorem peek_of_slot (h : p.slots[p.current]? = some slot) :
    Lox.Parser.peek p = some (slot, p) := by
  rw [Lox.Parser.peek, h]
  rfl

theorem peek_bind_of_none {α : Type} (h : p.slots[p.current]? = none) (k : Token → ParserM α) :
    (peek >>= k) p.raw = none := by
  rw [bind_apply, mirrors_peek p, peek_of_none h]
  rfl

theorem peek_bind_of_slot {α : Type} (h : p.slots[p.current]? = some slot)
    (k : Token → ParserM α) : (peek >>= k) p.raw = k slot.raw p.raw := by
  rw [bind_apply, mirrors_peek p, peek_of_slot h]
  rfl

/-- Both parsers go on by one token, or stay at the end, and the other one says which token it was.
-/
theorem advance_of_slot (h : p.slots[p.current]? = some slot) :
    ∃ p', Lox.Parser.advance p = some ((), p') ∧ advance p.raw = some (slot.raw, p'.raw) := by
  rw [Lox.Parser.advance, bind_of_some (peek_of_slot h), advance, peek_bind_of_slot h]
  cases slot with
  | token t =>
    rw [if_neg (Slot.raw_kind_ne_eof t)]
    exact ⟨_, rfl, rfl⟩
  | finish site => exact ⟨p, rfl, rfl⟩

end

theorem Mirrors.advance_bind {α β : Type} {f : α → β} {k : ParserM β} {k' : Lox.ParserM α}
    (hk : Mirrors f k k') :
    Mirrors f (advance >>= fun _ => k) (Lox.Parser.advance >>= fun _ => k') := by
  intro p
  cases h : p.slots[p.current]? with
  | none =>
    rw [bind_apply, bind_apply, Lox.Parser.advance, bind_apply, peek_of_none h, advance,
      peek_bind_of_none h]
    rfl
  | some slot =>
    obtain ⟨p', hadvance, hadvance'⟩ := advance_of_slot h
    rw [bind_of_some hadvance, bind_of_some hadvance']
    exact hk p'

theorem Follows.advance_bind {α β : Type} {f : α → β} {k : RuleM β}
    {k' : Lox.ParserM (Except Lox.ParseError α)} (hk : Follows f k k') :
    Follows f (liftM advance >>= fun _ => k) (Lox.Parser.advance >>= fun _ => k') := by
  rw [Follows, run_lift_bind]
  exact Mirrors.advance_bind hk

/-- The kinds have to be those of which `f` says something, and what it says has to tell the token
again. -/
theorem mirrors_eatIf {β : Type} {kinds : List Kind} {f : TokenKind → Option β}
    {g : β × Lox.Token → Token}
    (hsome : ∀ t b, f t.kind = some b → t.kind.raw ∈ kinds ∧ g (b, t) = t.raw)
    (hnone : ∀ kind, f kind = none → kind.raw ∉ kinds) (heof : .eof ∉ kinds) :
    Mirrors (Option.map g) (eatIf kinds) (Lox.Parser.eatIf f) := by
  intro p
  cases h : p.slots[p.current]? with
  | none =>
    rw [Lox.Parser.eatIf, bind_apply, peek_of_none h, eatIf, peek_bind_of_none h]
    rfl
  | some slot =>
    rw [Lox.Parser.eatIf, bind_of_some (peek_of_slot h), eatIf, peek_bind_of_slot h]
    cases slot with
    | finish site =>
      have hkind : (Slot.finish site).raw.kind ∉ kinds := heof
      rw [if_neg hkind]
      rfl
    | token t =>
      cases hf : f t.kind with
      | none =>
        have hkind : (Slot.token t).raw.kind ∉ kinds := hnone _ hf
        simp only [if_neg hkind, hf]
        rfl
      | some b =>
        obtain ⟨hkind, hg⟩ := hsome t b hf
        obtain ⟨p', hadvance, hadvance'⟩ := advance_of_slot h
        have hkind' : (Slot.token t).raw.kind ∈ kinds := hkind
        simp only [if_pos hkind', hf, bind_of_some hadvance, bind_of_some hadvance']
        exact congrArg (fun t => some (some t, p'.raw)) hg.symm

/-- A token of a given kind is known again. -/
theorem mirrors_eatKind (kind : TokenKind) {g : Lox.Token → Token}
    (hplain : kind.literal? = none) (hg : ∀ t, t.kind = kind → g t = t.raw) :
    Mirrors (Option.map g) (eatIf [kind.raw]) (Lox.Parser.eatKind kind) := by
  have heat : Mirrors (Option.map fun x => g x.2) (eatIf [kind.raw])
      (Lox.Parser.eatIf fun k => if k = kind then some () else none) := by
    apply mirrors_eatIf
    · intro t b h
      by_cases hkind : t.kind = kind
      · exact ⟨List.mem_singleton.mpr (congrArg _ hkind), hg t hkind⟩
      · rw [if_neg hkind] at h
        cases h
    · intro k h hmem
      rw [if_pos (TokenKind.eq_of_raw_eq (List.mem_singleton.mp hmem) hplain)] at h
      cases h
    · intro hmem
      cases kind <;> cases List.mem_singleton.mp hmem
  apply heat.map
  intro eaten
  cases eaten <;> rfl

/-- The error names the token that the parser is at, and the other parser's error has all that this
token has: its kind, its literal and its lexeme. -/
theorem follows_fail {α β : Type} (f : α → β) (fault : ParseFault) :
    Follows f (fail fault) (do return .error (← Lox.Parser.failure fault)) := by
  intro p
  rw [fail, run_lift_bind, bind_apply, mirrors_peek p, bind_apply, Lox.Parser.failure, bind_apply]
  cases Lox.Parser.peek p with
  | none => rfl
  | some x =>
    obtain ⟨slot, p'⟩ := x
    cases slot <;> rfl

theorem follows_expect (kind : TokenKind) (hplain : kind.literal? = none) (fault : ParseFault) :
    Follows (fun site => site.raw kind.raw none) (expect kind.raw fault)
      (Lox.Parser.expect kind fault) := by
  have heat := mirrors_eatKind kind hplain fun t => Lexeme.raw_of_kind kind hplain
  refine heat.lift_bind fun taken => ?_
  cases taken with
  | some t => exact follows_pure t.lexeme
  | none => exact follows_fail _ fault

/-! ## Levels and loops -/

section

variable {α β : Type} {m : RuleM β} {m' : Lox.ParserM (Except Lox.ParseError α)}

theorem nested_of_limit {p : Parser} (h : Grammar.nestingLimit ≤ p.depth) :
    (nested m).run p = (fail .excessiveNesting : RuleM β).run p := by
  have hget : (get : ParserM Parser) p = some (p, p) := rfl
  rw [nested, ExceptT.run_mk, bind_of_some hget, if_pos h]

theorem nested_of_lt {p : Parser} (h : p.depth < Grammar.nestingLimit) :
    (nested m).run p = (m.run { p with depth := p.depth + 1 }).map fun x =>
      (x.1, { x.2 with depth := x.2.depth - 1 }) := by
  have hget : (get : ParserM Parser) p = some (p, p) := rfl
  have hmodify : (modify fun p => { p with depth := p.depth + 1 } : ParserM Unit) p =
      some ((), { p with depth := p.depth + 1 }) := rfl
  rw [nested, ExceptT.run_mk, bind_of_some hget, if_neg (Nat.not_le.mpr h), bind_of_some hmodify,
    bind_apply]
  cases m.run { p with depth := p.depth + 1 } <;> rfl

/-- The depth is counted in the same way. The level is left in the end whatever has come of the
rule, which is why the failure must not be handed on before. -/
theorem follows_nested {f : α → β} (hm : Follows f m m') :
    Follows f (nested m) (Lox.Parser.nested m') := by
  intro p
  rcases Nat.lt_or_ge p.depth Grammar.nestingLimit with hlt | hlimit
  · rw [nested_of_lt hlt, Lox.Parser.nested, bind_of_some (Lox.Parser.enter_of_lt hlt)]
    have hdeeper := hm { p with depth := p.depth + 1 }
    show (m.run (Lox.Parser.raw { p with depth := p.depth + 1 })).map _ = (Option.bind _ _).map _
    rw [hdeeper]
    cases m' { p with depth := p.depth + 1 } <;> rfl
  · have henter : Lox.Parser.enter p = (Lox.Parser.failure .excessiveNesting p).bind fun x =>
        some (.error x.1, x.2) := by
      have hget : (get : Lox.ParserM Lox.Parser) p = some (p, p) := rfl
      rw [Lox.Parser.enter, bind_of_some hget, if_pos hlimit]
      rfl
    rw [nested_of_limit hlimit, follows_fail f .excessiveNesting p, bind_apply,
      Lox.Parser.nested, bind_apply, henter]
    cases Lox.Parser.failure .excessiveNesting p <;> rfl

end

theorem follows_stuck {α β : Type} (f : α → β) : Follows f stuck Lox.Parser.stuck := fun _ => rfl

/-- A round with its state and its result written out. -/
def roundImage {σ τ α β : Type} (f : σ → τ) (g : α → β) : Round σ α → Round τ β
  | .again s => .again (f s)
  | .done a => .done (g a)

/-- The loops go round in step. -/
theorem mirrors_loop {σ τ α β : Type} {f : σ → τ} {g : α → β} {round : τ → ParserM (Round τ β)}
    {round' : σ → Lox.ParserM (Round σ α)}
    (h : ∀ s, Mirrors (roundImage f g) (round (f s)) (round' s)) (s : σ) :
    Mirrors g (loop round (f s)) (Lox.Parser.loop round' s) := by
  intro p
  have hleft (p : Lox.Parser) : p.raw.left = p.left := by
    rw [left, Lox.Parser.left, Lox.Parser.raw, List.length_map]
  -- As many tokens are left on both sides, so the two agree on whether a round has got on.
  fun_induction Lox.Parser.loop round' s p with
  | case1 s p hround =>
    rw [loop, h s p, hround]
    rfl
  | case2 s p a p' hround =>
    rw [loop, h s p, hround]
    rfl
  | case3 s p s' p' hround hlt ih =>
    rw [loop, h s p, hround]
    simp only [Option.map_some, roundImage, hleft, if_pos hlt]
    exact ih
  | case4 s p s' p' hround hlt =>
    rw [loop, h s p, hround]
    simp only [Option.map_some, roundImage, hleft, if_neg hlt]
    rfl

/-! ## Expressions -/

/-- An operator's token is known from the operator and the lexeme. -/
theorem mirrors_eatOperator {ω : Type} (symbol : ω → Symbol) (ops : List ω)
    {g : ω × Lox.Token → Token} (hg : ∀ op t, t.kind = .symbol (symbol op) → g (op, t) = t.raw) :
    Mirrors (Option.map g) (eatIf (ops.map fun op => .symbol (symbol op)))
      (Lox.Parser.eatIf fun k => k.symbol?.bind fun s => ops.find? (symbol · == s)) := by
  apply mirrors_eatIf
  · intro t op h
    obtain ⟨s, hs, hfind⟩ := Option.bind_eq_some_iff.mp h
    obtain rfl : symbol op = s := by simpa using List.find?_some hfind
    have hkind : t.kind = .symbol (symbol op) := by
      cases hk : t.kind <;> rw [hk] at hs <;> cases hs
      rfl
    refine ⟨?_, hg op t hkind⟩
    rw [hkind]
    exact List.mem_map_of_mem (List.mem_of_find?_eq_some hfind)
  · intro kind h hmem
    obtain ⟨op, hop, hkind⟩ := List.mem_map.mp hmem
    have hsymbol : kind.symbol? = some (symbol op) := by
      cases kind <;> cases hkind
      rfl
    rw [hsymbol, Option.bind_some, List.find?_eq_none] at h
    exact h op hop (beq_self_eq_true _)
  · intro hmem
    obtain ⟨op, -, hkind⟩ := List.mem_map.mp hmem
    cases hkind

theorem operators_eq (level : Grammar.Level) :
    operators level = level.operators.map fun op => .symbol op.symbol := by
  cases level <;> rfl

/-- The operators that cannot lead are found by their kinds, too. -/
theorem nonLeading_eq (level : Grammar.Level) :
    nonLeading level = level.nonLeading.map fun op => .symbol op.symbol := by
  cases level <;> rfl

section

variable {operand : RuleM Expr} {operand' : Lox.ParserM (Except Lox.ParseError Lox.Expr)}
variable (h : Follows Expr.raw operand operand')

include h

/-- The tree that is built has the operator's token in it, and the token has no literal to lose. -/
theorem mirrors_chainRound (ops : List BinaryOp) (lhs : Lox.Expr) :
    Mirrors (roundImage Expr.raw (outcome Expr.raw))
      (chainRound (ops.map fun op => .symbol op.symbol) operand lhs.raw)
      (Lox.Parser.chainRound ops operand' lhs) := by
  have heat := mirrors_eatOperator BinaryOp.symbol ops
    (g := fun x => x.2.lexeme.raw (.symbol x.1.symbol) none)
    fun op t hkind => Lexeme.raw_of_kind (.symbol op.symbol) rfl hkind
  refine heat.bind fun eaten => ?_
  cases eaten with
  | none => exact fun _ => rfl
  | some eaten =>
    refine Mirrors.bind h fun result => ?_
    cases result <;> exact fun _ => rfl

theorem follows_chain (ops : List BinaryOp) (lhs : Lox.Expr) :
    Follows Expr.raw (chain (ops.map fun op => .symbol op.symbol) operand lhs.raw)
      (Lox.Parser.chain ops operand' lhs) :=
  mirrors_loop (mirrors_chainRound h ops) lhs

/-- An operator with nothing before it is blamed after its operand has been read, and the token has
to be the same by then. -/
theorem follows_leftAssociative (level : Grammar.Level) :
    Follows Expr.raw (leftAssociative level operand)
      (Lox.Parser.leftAssociative level operand') := by
  rw [leftAssociative, nonLeading_eq, operators_eq]
  have heat := mirrors_eatOperator BinaryOp.symbol level.nonLeading
    (g := fun x => x.2.raw) fun _ _ _ => rfl
  refine heat.lift_bind fun eaten => ?_
  cases eaten with
  | some eaten => exact h.bind (fun _ => rfl) fun _ => follows_throw eaten.2 _
  | none => exact h.bind (fun _ => rfl) fun lhs => follows_chain h _ lhs

end

section

variable {inner : Entry → RuleM Expr}
variable {inner' : Entry → Lox.ParserM (Except Lox.ParseError Lox.Expr)}
variable (hi : ∀ entry, Follows Expr.raw (inner entry) (inner' entry))

include hi

/-- What is in parentheses. -/
theorem follows_group : Follows Expr.raw
    (do
      match ← eatIf [.symbol .leftParen] with
      | some _ =>
        let e ← inner .expression
        let _ ← expect (.symbol .rightParen) .unclosedGroup
        return .grouping e
      | none => fail .nonExpression)
    (do
      match ← Lox.Parser.eatKind (.symbol .leftParen) with
      | none => return .error (← Lox.Parser.failure .nonExpression)
      | some _ =>
        match ← inner' .expression with
        | .error e => return .error e
        | .ok e =>
          match ← Lox.Parser.expect (.symbol .rightParen) .unclosedGroup with
          | .error e => return .error e
          | .ok _ => return .ok (.grouping e)) := by
  have heat := mirrors_eatKind (.symbol .leftParen) rfl fun t _ => rfl
  refine heat.lift_bind fun opening => ?_
  cases opening with
  | none => exact follows_fail _ _
  | some opening =>
    refine (hi .expression).bind (fun _ => rfl) fun e => ?_
    exact (follows_expect (.symbol .rightParen) rfl _).bind (fun _ => rfl) fun _ => follows_pure _

/-- The literal of a token is there if the kind says so: this is where the other parser has a
branch that is not to be reached. -/
theorem follows_primary : Follows Expr.raw (primary inner) (Lox.Parser.primary inner') := by
  have hatom (e : Lox.Expr) : Follows Expr.raw (do let _ ← advance; return e.raw)
      (do Lox.Parser.advance; return .ok e) := (follows_pure e).advance_bind
  refine mirrors_peek.lift_bind fun slot => ?_
  cases slot with
  | finish site => exact follows_fail _ _
  | token t =>
    obtain ⟨kind, lexeme⟩ := t
    cases kind with
    | symbol s => exact follows_group hi
    | keyword k =>
      cases k with
      | falseWord => exact hatom (.literal (.bool false))
      | trueWord => exact hatom (.literal (.bool true))
      | nilWord => exact hatom (.literal .nil)
      | _ => exact follows_group hi
    | number v => exact hatom (.literal (.number v))
    | string s => exact hatom (.literal (.string s))
    | ident => exact hatom (.name lexeme)

theorem follows_unary : Follows Expr.raw (unary inner) (Lox.Parser.unary inner') := by
  have heat := mirrors_eatOperator UnaryOp.symbol [.not, .negate]
    (g := fun x => x.2.lexeme.raw (.symbol x.1.symbol) none)
    fun op t hkind => Lexeme.raw_of_kind (.symbol op.symbol) rfl hkind
  refine heat.lift_bind fun eaten => ?_
  cases eaten with
  | none => exact follows_primary hi
  | some eaten => exact (hi .unary).bind (fun _ => rfl) fun e => follows_pure _

theorem follows_equality : Follows Expr.raw (equality inner) (Lox.Parser.equality inner') :=
  follows_leftAssociative (follows_leftAssociative (follows_leftAssociative
    (follows_leftAssociative (follows_unary hi) _) _) _) _

theorem follows_ternary : Follows Expr.raw (ternary inner) (Lox.Parser.ternary inner') := by
  refine (follows_equality hi).bind (fun _ => rfl) fun condition => ?_
  have heat := mirrors_eatKind (.symbol .question) rfl fun t => Lexeme.raw_of_kind _ rfl
  refine heat.lift_bind fun question => ?_
  cases question with
  | none => exact follows_pure condition
  | some question =>
    refine (hi .expression).bind (fun _ => rfl) fun success => ?_
    refine (follows_expect (.symbol .colon) rfl _).bind (fun _ => rfl) fun colon => ?_
    exact (follows_equality hi).bind (fun _ => rfl) fun other => follows_pure _

theorem follows_assignment :
    Follows Expr.raw (assignment inner) (Lox.Parser.assignment inner') := by
  refine (follows_ternary hi).bind (fun _ => rfl) fun target => ?_
  have heat := mirrors_eatKind (.symbol .equal) rfl fun t _ => rfl
  refine heat.lift_bind fun equals => ?_
  cases equals with
  | none => exact follows_pure target
  | some equals =>
    refine (hi .assignment).bind (fun _ => rfl) fun value => ?_
    cases target with
    | name site => exact follows_pure _
    | _ => exact follows_throw equals _

theorem follows_comma : Follows Expr.raw (comma inner) (Lox.Parser.comma inner') := by
  refine (follows_assignment hi).bind (fun _ => rfl) fun lhs => ?_
  exact follows_chain (follows_assignment hi) [.comma] lhs

end

/-- All levels, from the innermost one outwards. -/
theorem follows_inside (levels : Nat) (entry : Entry) :
    Follows Expr.raw (inside levels entry) (Lox.Parser.inside levels entry) := by
  induction levels generalizing entry with
  | zero => cases entry <;> exact follows_nested (follows_stuck _)
  | succ levels ih =>
    cases entry with
    | expression => exact follows_nested (follows_comma ih)
    | assignment => exact follows_nested (follows_assignment ih)
    | unary => exact follows_nested (follows_unary ih)

theorem follows_expression : Follows Expr.raw expression Lox.Parser.expression :=
  follows_inside _ _

/-! ## Statements -/

/-- The name is known from its place, and the value is written out if there is one. -/
theorem follows_variableDeclaration :
    Follows Stmt.raw variableDeclaration Lox.Parser.variableDeclaration := by
  refine (follows_expect .ident rfl _).bind (fun _ => rfl) fun site => ?_
  have heat := mirrors_eatKind (.symbol .equal) rfl fun t _ => rfl
  refine heat.lift_bind fun equals => ?_
  cases equals with
  | none =>
    have hnone : Follows (Option.map Expr.raw) (pure none) (pure (.ok none)) :=
      follows_pure none
    refine hnone.bind (fun _ => rfl) fun initial => ?_
    exact (follows_expect (.symbol .semicolon) rfl _).bind (fun _ => rfl) fun _ => follows_pure _
  | some equals =>
    have hsome : Follows (Option.map Expr.raw) (some <$> expression)
        (Except.map some <$> Lox.Parser.expression) := follows_expression.map fun _ => rfl
    refine hsome.bind (fun _ => rfl) fun initial => ?_
    exact (follows_expect (.symbol .semicolon) rfl _).bind (fun _ => rfl) fun _ => follows_pure _

theorem follows_terminated (what : Terminated) :
    Follows Expr.raw (terminated what) (Lox.Parser.terminated what) :=
  follows_expression.bind (fun _ => rfl) fun _ =>
    (follows_expect (.symbol .semicolon) rfl _).bind (fun _ => rfl) fun _ => follows_pure _

section

variable {m : RuleM Stmt} {m' : Lox.ParserM (Except Lox.ParseError Lox.Stmt)}
variable (h : Follows Stmt.raw m m')

include h

theorem follows_statement : Follows Stmt.raw (statement m) (Lox.Parser.statement m') := by
  have hprint := mirrors_eatKind (.keyword .printWord) rfl fun t _ => rfl
  refine hprint.lift_bind fun word => ?_
  cases word with
  | some word => exact (follows_terminated _).bind (fun _ => rfl) fun e => follows_pure _
  | none =>
    have hbrace := mirrors_eatKind (.symbol .leftBrace) rfl fun t _ => rfl
    refine hbrace.lift_bind fun opening => ?_
    cases opening with
    | some opening => exact h
    | none => exact (follows_terminated _).bind (fun _ => rfl) fun e => follows_pure _

theorem follows_declaration : Follows Stmt.raw (declaration m) (Lox.Parser.declaration m') := by
  have heat := mirrors_eatKind (.keyword .varWord) rfl fun t _ => rfl
  refine heat.lift_bind fun word => ?_
  cases word with
  | some word => exact follows_variableDeclaration
  | none => exact follows_statement h

/-- A block ends before a brace or the end, both of which are kinds for the other parser. -/
theorem mirrors_blockRound (body : List Lox.Stmt) :
    Mirrors (roundImage stmtsRaw (outcome stmtsRaw)) (blockRound m (stmtsRaw body))
      (Lox.Parser.blockRound m' body) := by
  refine mirrors_peek.bind fun slot => ?_
  have hends : (slot.raw.kind = .symbol .rightBrace ∨ slot.raw.kind = .eof) ↔
      (slot.kind? == none || slot.kind? == some (.symbol .rightBrace)) = true := by
    cases slot with
    | finish site => exact iff_of_true (.inr rfl) rfl
    | token t =>
      obtain ⟨kind, lexeme⟩ := t
      show kind.raw = .symbol .rightBrace ∨ kind.raw = .eof ↔ _
      cases kind <;> simp [TokenKind.raw, Slot.kind?]
  dsimp only
  by_cases hend : slot.raw.kind = .symbol .rightBrace ∨ slot.raw.kind = .eof
  · rw [if_pos hend, if_pos (hends.mp hend)]
    exact fun _ => rfl
  · rw [if_neg hend, if_neg fun h => hend (hends.mpr h)]
    refine Mirrors.bind h fun result => ?_
    cases result with
    | ok s =>
      simp only [outcome, ← stmtsRaw_concat]
      exact fun _ => rfl
    | error e => exact fun _ => rfl

theorem follows_block : Follows Stmt.raw (block m) (Lox.Parser.block m') := by
  have hbody : Follows stmtsRaw (ExceptT.mk (loop (blockRound m) []))
      (Lox.Parser.loop (Lox.Parser.blockRound m') []) :=
    mirrors_loop (mirrors_blockRound h) []
  refine hbody.bind (fun _ => rfl) fun body => ?_
  exact (follows_expect (.symbol .rightBrace) rfl _).bind (fun _ => rfl) fun _ => follows_pure _

end

theorem follows_declarationWithin (levels : Nat) :
    Follows Stmt.raw (declarationWithin levels) (Lox.Parser.declarationWithin levels) := by
  induction levels with
  | zero => exact follows_declaration (follows_nested (follows_stuck _))
  | succ levels ih => exact follows_declaration (follows_nested (follows_block ih))

/-! ## Recovery and programs -/

/-- The end has a kind among the tokens and none otherwise, but it is no semicolon either way. -/
theorem previousKind_raw (p : Lox.Parser) :
    ∃ kind kind', previousKind p.raw = some (kind, p.raw) ∧
      Lox.Parser.previousKind p = some (kind', p) ∧
      (kind = some (.symbol .semicolon) ↔ kind' = some (.symbol .semicolon)) := by
  refine ⟨_, _, rfl, rfl, ?_⟩
  show (if p.current = 0 then none
    else (p.slots.map Slot.raw)[p.current - 1]?.map Token.kind) = _ ↔ _
  split
  · simp
  · rw [List.getElem?_map]
    cases p.slots[p.current - 1]? with
    | none => simp
    | some slot =>
      cases slot with
      | finish site => simp [Slot.raw, Slot.kind?, Lexeme.raw]
      | token t =>
        obtain ⟨kind, lexeme⟩ := t
        cases kind <;> simp [Slot.raw, Slot.kind?, Lexeme.raw, Lox.Token.raw, TokenKind.raw]

/-- Recovery goes by the kinds before the position and at it, and these are the same. -/
theorem mirrors_seekRound :
    Mirrors (roundImage (fun _ => ()) fun _ => ()) (seekRound ()) (Lox.Parser.seekRound ()) := by
  refine mirrors_peek.bind fun slot => ?_
  cases slot with
  | finish site => exact fun _ => rfl
  | token t =>
    have hgo : Mirrors (roundImage (fun _ : Unit => ()) fun _ : Unit => ())
        (do let _ ← advance; return .again ()) (do Lox.Parser.advance; return .again ()) :=
      Mirrors.advance_bind fun _ => rfl
    have hstarts : (Slot.token t).raw.kind.startsStatement = Grammar.startsStatement t := by
      obtain ⟨kind, lexeme⟩ := t
      cases kind <;> rfl
    intro p
    obtain ⟨kind, kind', hkind, hkind', hiff⟩ := previousKind_raw p
    rw [if_neg (Slot.raw_kind_ne_eof t), bind_of_some hkind]
    dsimp only
    rw [bind_of_some hkind']
    simp only [hiff, hstarts]
    split
    · rfl
    · exact hgo p

theorem mirrors_synchronize : Mirrors (fun _ => ()) synchronize Lox.Parser.synchronize :=
  Mirrors.advance_bind (mirrors_loop (fun _ => mirrors_seekRound) ())

/-- What has been read, written out. -/
def readImage (read : Lox.Parser.Progress) : Progress :=
  ⟨stmtsRaw read.statements, read.errors.map ParseError.raw⟩

/-- Each declaration is read or gives an error, and the lists of both grow together. -/
theorem mirrors_programRound (read : Lox.Parser.Progress) :
    Mirrors (roundImage readImage readImage) (programRound (readImage read))
      (Lox.Parser.programRound read) := by
  refine mirrors_peek.bind fun slot => ?_
  cases slot with
  | finish site => exact fun _ => rfl
  | token t =>
    rw [if_neg (Slot.raw_kind_ne_eof t)]
    refine Mirrors.bind (follows_declarationWithin _) fun result => ?_
    cases result with
    | ok s =>
      simp only [outcome, readImage, ← stmtsRaw_concat]
      exact fun _ => rfl
    | error e =>
      refine mirrors_synchronize.bind fun _ => ?_
      simp only [readImage, ← List.map_singleton, ← List.map_append]
      exact fun _ => rfl

/-- The program, or the errors, written out. -/
def programImage : Except (List Lox.ParseError) Program → Except (List ParseError) (List Stmt)
  | .ok body => .ok (stmtsRaw body)
  | .error es => .error (es.map ParseError.raw)

theorem mirrors_parse : Mirrors programImage parse Lox.Parser.parse := by
  have hloop : Mirrors readImage (loop programRound ⟨[], []⟩)
      (Lox.Parser.loop Lox.Parser.programRound ⟨[], []⟩) :=
    mirrors_loop mirrors_programRound ⟨[], []⟩
  refine hloop.bind fun read => ?_
  by_cases h : read.errors = []
  · have himage : (readImage read).errors = [] := List.map_eq_nil_iff.mpr h
    rw [if_pos h, if_pos himage]
    exact fun _ => rfl
  · have himage : (readImage read).errors ≠ [] := fun h' => h (List.map_eq_nil_iff.mp h')
    rw [if_neg h, if_neg himage]
    exact fun _ => rfl

end Raw.Parser

/-- An answer, written out. -/
def ParseAnswer.raw : ParseAnswer → Raw.ParseAnswer
  | expression result => .expression (Raw.Parser.outcome Expr.raw result)
  | program result => .program (Raw.Parser.programImage result)
  | synchronized => .synchronized

namespace Raw.Parser

/-- Whatever the parser is called for. -/
theorem mirrors_call (step : ParseStep) :
    Mirrors ParseAnswer.raw (call step) (Lox.Parser.call step) := by
  cases step with
  | expression => exact Mirrors.bind follows_expression fun result _ => rfl
  | program => exact mirrors_parse.bind fun result _ => rfl
  | synchronize => exact mirrors_synchronize.bind fun _ _ => rfl

/-- **The parser over a vector of tokens answers as the other one does,** whatever it is called for
and from wherever, and comes to the same position. -/
theorem mirrors_callAll (steps : List ParseStep) :
    Mirrors (List.map ParseAnswer.raw) (callAll steps) (Lox.Parser.callAll steps) := by
  induction steps with
  | nil => exact fun _ => rfl
  | cons step steps ih =>
    exact (mirrors_call step).bind fun answer => ih.bind fun answers _ => rfl

end Raw.Parser

end Lox
