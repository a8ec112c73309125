import Lox.Proofs.Grammar.Tree

/-!
# Readings

The parser never has a whole tree's worth of tokens in view. At any time it is about to read an
expression of at least some precedence with so many levels of nesting to go, and what it may have
read then is a *reading*: some tokens, and a tree whose yield they are and that fits there.

A reading is put together from those of the parts of its tree, which is how a parser makes one,
and it comes apart into them, which is how a tree is followed. There is a statement in each
direction for every kind of node, and nothing after this file looks into yields any more.
-/

set_option autoImplicit false

namespace Lox

/-- The tokens `used` are the expression `e`, which binds at least as tightly as `p` and nests
less than `room` levels deep. -/
structure Reading (p : Precedence) (room : Nat) (e : Expr) (used : List Token) : Prop where
  yield : used.map Token.leaf = e.yield
  shaped : e.Shaped
  rank_le : p.rank ≤ e.precedence.rank
  depth_lt : e.depth < room

/-- The tokens `used` are the statement `s`, which nests at most `room` levels deep. -/
structure Stmt.Reading (room : Nat) (s : Stmt) (used : List Token) : Prop where
  yield : used.map Token.leaf = s.yield
  shaped : s.Shaped
  depth_le : s.depth ≤ room

/-- The tokens `used` are the statements `body`, which nest at most `room` levels deep. -/
structure StmtsReading (room : Nat) (body : List Stmt) (used : List Token) : Prop where
  yield : used.map Token.leaf = stmtsYield body
  shaped : StmtsShaped body
  depth_le : stmtsDepth body ≤ room

/-- A reading of some precedence is one of every looser precedence. -/
theorem Reading.loosen {p q : Precedence} {room : Nat} {e : Expr} {used : List Token}
    (h : Reading q room e used) (hle : p.rank ≤ q.rank) : Reading p room e used :=
  ⟨h.yield, h.shaped, Nat.le_trans hle h.rank_le, h.depth_lt⟩

/-- The first token of a reading is one with which an expression may begin. -/
theorem Reading.head_beginsExpr {p : Precedence} {room : Nat} {e : Expr} {used : List Token}
    (h : Reading p room e used) :
    ∃ t rest, used = t :: rest ∧ t.kind.beginsExpr = true := by
  obtain ⟨leaf, leaves, hy, hb⟩ := e.yield_eq_cons
  obtain ⟨t, rest, rfl, ht, -⟩ := List.map_eq_cons_iff.mp (h.yield.trans hy)
  exact ⟨t, rest, rfl, by rw [Token.kind_eq_of_leaf ht, hb]⟩

/-- No statement begins with the brace that ends a block, so a block ends at the first one it
meets. -/
theorem Stmt.Reading.head_ne_rightBrace {room : Nat} {s : Stmt} {used : List Token}
    (h : s.Reading room used) :
    ∃ t rest, used = t :: rest ∧ t.kind ≠ .symbol .rightBrace := by
  obtain ⟨leaf, leaves, hy, hne⟩ := s.yield_eq_cons
  obtain ⟨t, rest, rfl, ht, -⟩ := List.map_eq_cons_iff.mp (h.yield.trans hy)
  exact ⟨t, rest, rfl, by rw [Token.kind_eq_of_leaf ht]; exact hne⟩

/-- What a token contributes to a yield, given its kind: its place counts if the tree keeps it, and
otherwise only the kind. -/
theorem Token.leaf_of_kind {t : Token} {kind : TokenKind} (h : t.kind = kind) :
    t.leaf = if kind.isSited then .sited kind t.lexeme else .bare kind := by
  subst h
  rfl

/-! ## How readings are put together -/

section

variable {p q : Precedence} {room : Nat} {t : Token} {e l r c s f : Expr}
variable {used ul ur uc us uf : List Token}

/-- A token that stands for a value is a reading of it, at any level that is left. -/
theorem Reading.literal {v : Value} (h : t.kind = v.literalKind) :
    Reading .primary (room + 1) (.literal v) [t] := by
  refine ⟨?_, trivial, Nat.le_refl _, Nat.succ_pos room⟩
  have hsited : v.literalKind.isSited = false := by
    cases v with
    | bool b => cases b <;> rfl
    | _ => rfl
  simp [Token.leaf_of_kind h, hsited, Expr.yield]

theorem Reading.name (h : t.kind = .ident) :
    Reading .primary (room + 1) (.name t.lexeme) [t] :=
  ⟨by simp [Token.leaf_of_kind h, TokenKind.isSited, Expr.yield], trivial, Nat.le_refl _,
    Nat.succ_pos room⟩

/-- A grouping holds the loosest kind of expression, one level deeper, and itself binds tightest.
-/
theorem Reading.grouping {opening closing : Token} (ho : opening.kind = .symbol .leftParen)
    (h : Reading .comma room e used) (hc : closing.kind = .symbol .rightParen) :
    Reading .primary (room + 1) (.grouping e) (opening :: (used ++ [closing])) :=
  ⟨by simp [Token.leaf_of_kind ho, Token.leaf_of_kind hc, h.yield, Expr.yield,
      TokenKind.isSited, Symbol.isSited],
    h.shaped, Nat.le_refl _, Nat.succ_lt_succ h.depth_lt⟩

theorem Reading.unary {op : UnaryOp} (ht : t.kind = .symbol op.symbol)
    (h : Reading .unary room e used) :
    Reading .unary (room + 1) (.unary op t.lexeme e) (t :: used) :=
  ⟨by simp [Token.leaf_of_kind ht, h.yield, Expr.yield, TokenKind.isSited],
    ⟨h.shaped, h.rank_le⟩, Nat.le_refl _, Nat.succ_lt_succ h.depth_lt⟩

/-- A binary operator of some level takes on its left what binds at least as tightly as itself, and
on its right only what binds tighter: this is how a chain comes to lean to the left. -/
theorem Reading.binary {op : BinaryOp} (hl : Reading p room l ul)
    (ht : t.kind = .symbol op.symbol) (hop : op.precedence = p) (hr : Reading q room r ur)
    (hq : q.rank = p.rank + 1) :
    Reading p room (.binary op t.lexeme l r) (ul ++ t :: ur) := by
  subst hop
  refine ⟨?_, ⟨hl.shaped, hr.shaped, hl.rank_le, ?_⟩, Nat.le_refl _,
    Nat.max_lt.mpr ⟨hl.depth_lt, hr.depth_lt⟩⟩
  · simp [Token.leaf_of_kind ht, hl.yield, hr.yield, Expr.yield, TokenKind.isSited]
  · exact Nat.lt_of_lt_of_le (Nat.lt_of_lt_of_eq (Nat.lt_succ_self _) hq.symm) hr.rank_le

/-- The middle of a conditional is enclosed by its two signs, so it may be anything and is one
level deeper; the condition and the alternative are not enclosed. -/
theorem Reading.ternary {question colon : Token} (hc : Reading .equality (room + 1) c uc)
    (hq : question.kind = .symbol .question) (hs : Reading .comma room s us)
    (hk : colon.kind = .symbol .colon) (hf : Reading .equality (room + 1) f uf) :
    Reading .ternary (room + 1) (.ternary c question.lexeme s colon.lexeme f)
      (uc ++ question :: (us ++ colon :: uf)) := by
  refine ⟨?_, ⟨hc.shaped, hs.shaped, hf.shaped, hc.rank_le, hf.rank_le⟩, Nat.le_refl _, ?_⟩
  · simp [Token.leaf_of_kind hq, Token.leaf_of_kind hk, hc.yield, hs.yield, hf.yield, Expr.yield,
      TokenKind.isSited, Symbol.isSited]
  · exact Nat.max_lt.mpr
      ⟨hc.depth_lt, Nat.max_lt.mpr ⟨Nat.succ_lt_succ hs.depth_lt, hf.depth_lt⟩⟩

/-- An assignment goes on to the right, and each of its equals signs takes one level. -/
theorem Reading.assign {site : Lexeme} {equals : Token}
    (hn : Reading p (room + 1) (.name site) ul) (ht : equals.kind = .symbol .equal)
    (h : Reading .assignment room e used) :
    Reading .assignment (room + 1) (.assign site e) (ul ++ equals :: used) :=
  ⟨by simp [Token.leaf_of_kind ht, hn.yield, h.yield, Expr.yield, TokenKind.isSited,
      Symbol.isSited],
    ⟨h.shaped, h.rank_le⟩, Nat.le_refl _, Nat.succ_lt_succ h.depth_lt⟩

end

section

variable {room : Nat} {t semicolon : Token} {e : Expr} {used : List Token}

/-- An expression with a semicolon is a statement of the same depth, with one level given to the
expression as a whole: `depth_lt` has become `depth_le`. -/
theorem Stmt.Reading.expression (h : Lox.Reading .comma room e used)
    (hs : semicolon.kind = .symbol .semicolon) :
    Stmt.Reading room (.expression e) (used ++ [semicolon]) :=
  ⟨by simp [h.yield, Token.leaf_of_kind hs, Stmt.yield, TokenKind.isSited, Symbol.isSited],
    h.shaped, h.depth_lt⟩

theorem Stmt.Reading.print (ht : t.kind = .keyword .printWord)
    (h : Lox.Reading .comma room e used) (hs : semicolon.kind = .symbol .semicolon) :
    Stmt.Reading room (.print e) (t :: (used ++ [semicolon])) :=
  ⟨by simp [h.yield, Token.leaf_of_kind ht, Token.leaf_of_kind hs, Stmt.yield,
      TokenKind.isSited, Symbol.isSited],
    h.shaped, h.depth_lt⟩

theorem Stmt.Reading.var {name : Token} (ht : t.kind = .keyword .varWord)
    (hn : name.kind = .ident) (hs : semicolon.kind = .symbol .semicolon) :
    Stmt.Reading room (.var name.lexeme none) [t, name, semicolon] :=
  ⟨by simp [Token.leaf_of_kind ht, Token.leaf_of_kind hn, Token.leaf_of_kind hs, Stmt.yield,
      TokenKind.isSited, Symbol.isSited],
    by simp [Stmt.Shaped], Nat.zero_le _⟩

theorem Stmt.Reading.varInitial {name equals : Token} (ht : t.kind = .keyword .varWord)
    (hn : name.kind = .ident) (he : equals.kind = .symbol .equal)
    (h : Lox.Reading .comma room e used) (hs : semicolon.kind = .symbol .semicolon) :
    Stmt.Reading room (.var name.lexeme (some e))
      (t :: name :: equals :: (used ++ [semicolon])) :=
  ⟨by simp [h.yield, Token.leaf_of_kind ht, Token.leaf_of_kind hn, Token.leaf_of_kind he,
      Token.leaf_of_kind hs, Stmt.yield, TokenKind.isSited, Symbol.isSited],
    by simpa [Stmt.Shaped] using h.shaped, h.depth_lt⟩

/-- A block takes a level for itself, and its statements have what is left. -/
theorem Stmt.Reading.block {opening closing : Token} {body : List Stmt}
    (ho : opening.kind = .symbol .leftBrace) (h : StmtsReading room body used)
    (hc : closing.kind = .symbol .rightBrace) :
    Stmt.Reading (room + 1) (.block body) (opening :: (used ++ [closing])) :=
  ⟨by simp [h.yield, Token.leaf_of_kind ho, Token.leaf_of_kind hc, Stmt.yield,
      TokenKind.isSited, Symbol.isSited],
    h.shaped, Nat.succ_le_succ h.depth_le⟩

theorem StmtsReading.nil : StmtsReading room [] [] := ⟨rfl, trivial, Nat.zero_le _⟩

/-- The statements of a list nest independently of one another. -/
theorem StmtsReading.cons {s : Stmt} {body : List Stmt} {us ub : List Token}
    (hs : s.Reading room us) (hb : StmtsReading room body ub) :
    StmtsReading room (s :: body) (us ++ ub) :=
  ⟨by simp [hs.yield, hb.yield, stmtsYield], ⟨hs.shaped, hb.shaped⟩,
    Nat.max_le.mpr ⟨hs.depth_le, hb.depth_le⟩⟩

end

/-! ## How readings come apart -/

section

variable {p q : Precedence} {room : Nat} {e l r c s f : Expr} {site question colon : Lexeme}
variable {used : List Token}

/-- The first and the last token of a grouping are its parentheses, and what stands between them is
read one level deeper. -/
theorem Reading.of_grouping (h : Reading p room (.grouping e) used) :
    ∃ opening u closing, used = opening :: (u ++ [closing]) ∧
      opening.kind = .symbol .leftParen ∧ closing.kind = .symbol .rightParen ∧
      Reading .comma (room - 1) e u := by
  obtain ⟨opening, rest, rfl, ho, hrest⟩ := List.map_eq_cons_iff.mp h.yield
  obtain ⟨u, last, rfl, hu, hlast⟩ := List.map_eq_append_iff.mp hrest
  obtain ⟨closing, _, rfl, hc, hnil⟩ := List.map_eq_cons_iff.mp hlast
  cases List.map_eq_nil_iff.mp hnil
  have hdepth : e.depth + 1 < room := h.depth_lt
  exact ⟨opening, u, closing, rfl, Token.leaf_eq_bare ho, Token.leaf_eq_bare hc, hu, h.shaped,
    Nat.zero_le _, by omega⟩

/-- The operator comes first, and it is the token whose place the tree has. -/
theorem Reading.of_unary {op : UnaryOp} (h : Reading p room (.unary op site e) used) :
    ∃ t u, used = t :: u ∧ t.kind = .symbol op.symbol ∧ t.lexeme = site ∧
      Reading .unary (room - 1) e u := by
  obtain ⟨t, u, rfl, ht, hu⟩ := List.map_eq_cons_iff.mp h.yield
  obtain ⟨hk, hsite⟩ := Token.leaf_eq_sited ht
  have hdepth : e.depth + 1 < room := h.depth_lt
  exact ⟨t, u, rfl, hk, hsite, hu, h.shaped.1, h.shaped.2, by omega⟩

/-- The operator parts the tokens, with a reading on each side. That the right one binds tighter
comes from the shape of the tree, whatever precedence was asked for. -/
theorem Reading.of_binary {op : BinaryOp} (h : Reading p room (.binary op site l r) used)
    (hq : q.rank = op.precedence.rank + 1) :
    ∃ ul t ur, used = ul ++ t :: ur ∧ t.kind = .symbol op.symbol ∧ t.lexeme = site ∧
      Reading op.precedence room l ul ∧ Reading q room r ur := by
  obtain ⟨ul, rest, rfl, hl, hrest⟩ := List.map_eq_append_iff.mp h.yield
  obtain ⟨t, ur, rfl, ht, hr⟩ := List.map_eq_cons_iff.mp hrest
  obtain ⟨hk, hsite⟩ := Token.leaf_eq_sited ht
  obtain ⟨hsl, hsr, hrl, hrr⟩ := h.shaped
  obtain ⟨hdl, hdr⟩ := Nat.max_lt.mp h.depth_lt
  exact ⟨ul, t, ur, rfl, hk, hsite, ⟨hl, hsl, hrl, hdl⟩, hr, hsr, by omega, hdr⟩

/-- The two signs part the tokens of a conditional into the readings of its three branches. -/
theorem Reading.of_ternary (h : Reading p room (.ternary c question s colon f) used) :
    ∃ uc tq us tk uf, used = uc ++ tq :: (us ++ tk :: uf) ∧
      tq.kind = .symbol .question ∧ tq.lexeme = question ∧
      tk.kind = .symbol .colon ∧ tk.lexeme = colon ∧
      Reading .equality room c uc ∧ Reading .comma (room - 1) s us ∧
      Reading .equality room f uf := by
  obtain ⟨uc, rest, rfl, hc, hrest⟩ := List.map_eq_append_iff.mp h.yield
  obtain ⟨tq, rest, rfl, htq, hrest⟩ := List.map_eq_cons_iff.mp hrest
  obtain ⟨us, rest, rfl, hs, hrest⟩ := List.map_eq_append_iff.mp hrest
  obtain ⟨tk, uf, rfl, htk, hf⟩ := List.map_eq_cons_iff.mp hrest
  obtain ⟨hq, hqsite⟩ := Token.leaf_eq_sited htq
  obtain ⟨hk, hksite⟩ := Token.leaf_eq_sited htk
  obtain ⟨hsc, hss, hsf, hrc, hrf⟩ := h.shaped
  obtain ⟨hdc, hdsf⟩ := Nat.max_lt.mp h.depth_lt
  obtain ⟨hds, hdf⟩ := Nat.max_lt.mp hdsf
  exact ⟨uc, tq, us, tk, uf, rfl, hq, hqsite, hk, hksite, ⟨hc, hsc, hrc, hdc⟩,
    ⟨hs, hss, Nat.zero_le _, by omega⟩, ⟨hf, hsf, hrf, hdf⟩⟩

/-- An assignment consists of a name, an equals sign and the value, which may be another
assignment. -/
theorem Reading.of_assign (h : Reading p room (.assign site e) used) :
    ∃ name equals u, used = name :: equals :: u ∧ name.kind = .ident ∧ name.lexeme = site ∧
      equals.kind = .symbol .equal ∧ Reading .assignment (room - 1) e u := by
  obtain ⟨name, rest, rfl, hn, hrest⟩ := List.map_eq_cons_iff.mp h.yield
  obtain ⟨equals, u, rfl, he, hu⟩ := List.map_eq_cons_iff.mp hrest
  obtain ⟨hk, hsite⟩ := Token.leaf_eq_sited hn
  have hdepth : e.depth + 1 < room := h.depth_lt
  exact ⟨name, equals, u, rfl, hk, hsite, Token.leaf_eq_bare he, hu, h.shaped.1, h.shaped.2,
    by omega⟩

end

section

variable {room : Nat} {e : Expr} {site : Lexeme} {body : List Stmt} {used : List Token}

/-- The last token is the semicolon, and all others are the expression. -/
theorem Stmt.Reading.of_expression (h : Stmt.Reading room (.expression e) used) :
    ∃ u semicolon, used = u ++ [semicolon] ∧ semicolon.kind = .symbol .semicolon ∧
      Lox.Reading .comma room e u := by
  obtain ⟨u, last, rfl, hu, hlast⟩ := List.map_eq_append_iff.mp h.yield
  obtain ⟨semicolon, _, rfl, hs, hnil⟩ := List.map_eq_cons_iff.mp hlast
  cases List.map_eq_nil_iff.mp hnil
  exact ⟨u, semicolon, rfl, Token.leaf_eq_bare hs, hu, h.shaped, Nat.zero_le _, h.depth_le⟩

theorem Stmt.Reading.of_print (h : Stmt.Reading room (.print e) used) :
    ∃ t u semicolon, used = t :: (u ++ [semicolon]) ∧ t.kind = .keyword .printWord ∧
      semicolon.kind = .symbol .semicolon ∧ Lox.Reading .comma room e u := by
  obtain ⟨t, rest, rfl, ht, hrest⟩ := List.map_eq_cons_iff.mp h.yield
  obtain ⟨u, last, rfl, hu, hlast⟩ := List.map_eq_append_iff.mp hrest
  obtain ⟨semicolon, _, rfl, hs, hnil⟩ := List.map_eq_cons_iff.mp hlast
  cases List.map_eq_nil_iff.mp hnil
  exact ⟨t, u, semicolon, rfl, Token.leaf_eq_bare ht, Token.leaf_eq_bare hs, hu, h.shaped,
    Nat.zero_le _, h.depth_le⟩

theorem Stmt.Reading.of_var (h : Stmt.Reading room (.var site none) used) :
    ∃ t name semicolon, used = [t, name, semicolon] ∧ t.kind = .keyword .varWord ∧
      name.kind = .ident ∧ name.lexeme = site ∧ semicolon.kind = .symbol .semicolon := by
  obtain ⟨t, rest, rfl, ht, hrest⟩ := List.map_eq_cons_iff.mp h.yield
  obtain ⟨name, rest, rfl, hn, hrest⟩ := List.map_eq_cons_iff.mp hrest
  obtain ⟨semicolon, _, rfl, hs, hnil⟩ := List.map_eq_cons_iff.mp hrest
  cases List.map_eq_nil_iff.mp hnil
  obtain ⟨hk, hsite⟩ := Token.leaf_eq_sited hn
  exact ⟨t, name, semicolon, rfl, Token.leaf_eq_bare ht, hk, hsite, Token.leaf_eq_bare hs⟩

theorem Stmt.Reading.of_varInitial (h : Stmt.Reading room (.var site (some e)) used) :
    ∃ t name equals u semicolon, used = t :: name :: equals :: (u ++ [semicolon]) ∧
      t.kind = .keyword .varWord ∧ name.kind = .ident ∧ name.lexeme = site ∧
      equals.kind = .symbol .equal ∧ semicolon.kind = .symbol .semicolon ∧
      Lox.Reading .comma room e u := by
  obtain ⟨t, rest, rfl, ht, hrest⟩ := List.map_eq_cons_iff.mp h.yield
  obtain ⟨name, rest, rfl, hn, hrest⟩ := List.map_eq_cons_iff.mp hrest
  obtain ⟨equals, rest, rfl, he, hrest⟩ := List.map_eq_cons_iff.mp hrest
  obtain ⟨u, last, rfl, hu, hlast⟩ := List.map_eq_append_iff.mp hrest
  obtain ⟨semicolon, _, rfl, hs, hnil⟩ := List.map_eq_cons_iff.mp hlast
  cases List.map_eq_nil_iff.mp hnil
  obtain ⟨hk, hsite⟩ := Token.leaf_eq_sited hn
  exact ⟨t, name, equals, u, semicolon, rfl, Token.leaf_eq_bare ht, hk, hsite,
    Token.leaf_eq_bare he, Token.leaf_eq_bare hs, hu, h.shaped e rfl, Nat.zero_le _, h.depth_le⟩

/-- A block can be read only where a level is left for it. -/
theorem Stmt.Reading.of_block (h : Stmt.Reading room (.block body) used) :
    ∃ opening u closing, used = opening :: (u ++ [closing]) ∧
      opening.kind = .symbol .leftBrace ∧ closing.kind = .symbol .rightBrace ∧
      0 < room ∧ StmtsReading (room - 1) body u := by
  obtain ⟨opening, rest, rfl, ho, hrest⟩ := List.map_eq_cons_iff.mp h.yield
  obtain ⟨u, last, rfl, hu, hlast⟩ := List.map_eq_append_iff.mp hrest
  obtain ⟨closing, _, rfl, hc, hnil⟩ := List.map_eq_cons_iff.mp hlast
  cases List.map_eq_nil_iff.mp hnil
  have hdepth : stmtsDepth body + 1 ≤ room := h.depth_le
  exact ⟨opening, u, closing, rfl, Token.leaf_eq_bare ho, Token.leaf_eq_bare hc, by omega, hu,
    h.shaped, by omega⟩

/-- The first statement has its own tokens, in front of those of the others. -/
theorem StmtsReading.of_cons {s : Stmt} (h : StmtsReading room (s :: body) used) :
    ∃ us ub, used = us ++ ub ∧ s.Reading room us ∧ StmtsReading room body ub := by
  obtain ⟨us, ub, rfl, hs, hb⟩ := List.map_eq_append_iff.mp h.yield
  obtain ⟨hds, hdb⟩ := Nat.max_le.mp h.depth_le
  exact ⟨us, ub, rfl, ⟨hs, h.shaped.1, hds⟩, hb, h.shaped.2, hdb⟩

end

end Lox
