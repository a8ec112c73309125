import Lox.Proofs.Grammar.Acceptance

/-!
# Trees whose tokens stand elsewhere

A tree keeps the lexemes of its names and operators. When the tokens of a program are moved to
other places, the tree that is read is the same but for these lexemes, and they are moved as the
tokens were (`Program.parse_mapSites`): no choice that is made in reading depends on a place.
-/

set_option autoImplicit false

namespace Lox

/-! ## Moving the lexemes of a tree -/

/-- The token with another lexeme. -/
def Token.mapSite (f : Lexeme → Lexeme) (t : Token) : Token := ⟨t.kind, f t.lexeme⟩

/-- What a tree knows of a token with another lexeme. -/
def Leaf.mapSite (f : Lexeme → Lexeme) : Leaf → Leaf
  | bare kind => bare kind
  | sited kind site => sited kind (f site)

/-- The expression with every lexeme in it moved by `f`. -/
def Expr.mapSites (f : Lexeme → Lexeme) : Expr → Expr
  | .literal v => .literal v
  | .grouping e => .grouping (e.mapSites f)
  | .name site => .name (f site)
  | .assign site e => .assign (f site) (e.mapSites f)
  | .unary op site e => .unary op (f site) (e.mapSites f)
  | .binary op site l r => .binary op (f site) (l.mapSites f) (r.mapSites f)
  | .ternary c question s colon r =>
    .ternary (c.mapSites f) (f question) (s.mapSites f) (f colon) (r.mapSites f)

mutual

/-- The statement with every lexeme in it moved by `f`. -/
def Stmt.mapSites (f : Lexeme → Lexeme) : Stmt → Stmt
  | .expression e => .expression (e.mapSites f)
  | .print e => .print (e.mapSites f)
  | .var site none => .var (f site) none
  | .var site (some e) => .var (f site) (some (e.mapSites f))
  | .block body => .block (stmtsMapSites f body)

/-- Some statements with every lexeme in them moved by `f`. -/
def stmtsMapSites (f : Lexeme → Lexeme) : List Stmt → List Stmt
  | [] => []
  | s :: rest => s.mapSites f :: stmtsMapSites f rest

end

/-- The program with every lexeme in it moved by `f`. -/
def Program.mapSites (f : Lexeme → Lexeme) (p : Program) : Program := stmtsMapSites f p

/-! ## What moving changes

The yield moves with the tree; shape and depth do not look at lexemes. -/

variable (f : Lexeme → Lexeme)

theorem Token.leaf_mapSite (t : Token) : (t.mapSite f).leaf = t.leaf.mapSite f := by
  unfold leaf mapSite
  by_cases h : t.kind.isSited
  · rw [if_pos h, if_pos h, Leaf.mapSite]
  · rw [if_neg h, if_neg h, Leaf.mapSite]

theorem Expr.yield_mapSites (e : Expr) : (e.mapSites f).yield = e.yield.map (·.mapSite f) := by
  induction e with
  | literal v => rfl
  | grouping e ih => simp [mapSites, yield, Leaf.mapSite, ih]
  | name site => rfl
  | assign site e ih => simp [mapSites, yield, Leaf.mapSite, ih]
  | unary op site e ih => simp [mapSites, yield, Leaf.mapSite, ih]
  | binary op site l r ihl ihr => simp [mapSites, yield, Leaf.mapSite, ihl, ihr]
  | ternary c question s colon r ihc ihs ihr =>
    simp [mapSites, yield, Leaf.mapSite, ihc, ihs, ihr]

@[simp] theorem Expr.precedence_mapSites (e : Expr) : (e.mapSites f).precedence = e.precedence := by
  cases e <;> rfl

theorem Expr.shaped_mapSites (e : Expr) : (e.mapSites f).Shaped ↔ e.Shaped := by
  induction e with
  | literal v => rfl
  | grouping e ih => exact ih
  | name site => rfl
  | assign site e ih => simp only [mapSites, Shaped, ih, precedence_mapSites]
  | unary op site e ih => simp only [mapSites, Shaped, ih, precedence_mapSites]
  | binary op site l r ihl ihr => simp only [mapSites, Shaped, ihl, ihr, precedence_mapSites]
  | ternary c question s colon r ihc ihs ihr =>
    simp only [mapSites, Shaped, ihc, ihs, ihr, precedence_mapSites]

theorem Expr.depth_mapSites (e : Expr) : (e.mapSites f).depth = e.depth := by
  induction e with
  | literal v => rfl
  | name site => rfl
  | grouping e ih | assign site e ih | unary op site e ih => simp only [mapSites, depth, ih]
  | binary op site l r ihl ihr => simp only [mapSites, depth, ihl, ihr]
  | ternary c question s colon r ihc ihs ihr => simp only [mapSites, depth, ihc, ihs, ihr]

mutual

theorem Stmt.yield_mapSites : (s : Stmt) → (s.mapSites f).yield = s.yield.map (·.mapSite f)
  | .expression e => by simp [Stmt.mapSites, Stmt.yield, Leaf.mapSite, e.yield_mapSites]
  | .print e => by simp [Stmt.mapSites, Stmt.yield, Leaf.mapSite, e.yield_mapSites]
  | .var site none => rfl
  | .var site (some e) => by simp [Stmt.mapSites, Stmt.yield, Leaf.mapSite, e.yield_mapSites]
  | .block body => by simp [Stmt.mapSites, Stmt.yield, Leaf.mapSite, stmtsYield_mapSites body]

theorem stmtsYield_mapSites :
    (body : List Stmt) → stmtsYield (stmtsMapSites f body) = (stmtsYield body).map (·.mapSite f)
  | [] => rfl
  | s :: rest => by
    rw [stmtsMapSites, stmtsYield, stmtsYield, List.map_append, s.yield_mapSites,
      stmtsYield_mapSites rest]

end

mutual

theorem Stmt.shaped_mapSites : (s : Stmt) → ((s.mapSites f).Shaped ↔ s.Shaped)
  | .expression e | .print e => e.shaped_mapSites f
  | .var site none => by simp [Stmt.mapSites, Stmt.Shaped]
  | .var site (some e) => by simp [Stmt.mapSites, Stmt.Shaped, e.shaped_mapSites f]
  | .block body => stmtsShaped_mapSites body

theorem stmtsShaped_mapSites :
    (body : List Stmt) → (StmtsShaped (stmtsMapSites f body) ↔ StmtsShaped body)
  | [] => Iff.rfl
  | s :: rest => and_congr s.shaped_mapSites (stmtsShaped_mapSites rest)

end

mutual

theorem Stmt.depth_mapSites : (s : Stmt) → (s.mapSites f).depth = s.depth
  | .expression e | .print e => congrArg (· + 1) (e.depth_mapSites f)
  | .var _ none => rfl
  | .var _ (some e) => congrArg (· + 1) (e.depth_mapSites f)
  | .block body => congrArg (· + 1) (stmtsDepth_mapSites body)

theorem stmtsDepth_mapSites :
    (body : List Stmt) → stmtsDepth (stmtsMapSites f body) = stmtsDepth body
  | [] => rfl
  | s :: rest => by
    rw [stmtsMapSites, stmtsDepth, stmtsDepth, s.depth_mapSites, stmtsDepth_mapSites rest]

end

/-! ## Reading -/

/-- An expression that is read from tokens is read from moved tokens, too, and moves with them. -/
theorem Reading.mapSites {p : Precedence} {room : Nat} {e : Expr} {used : List Token}
    (h : Reading p room e used) : Reading p room (e.mapSites f) (used.map (·.mapSite f)) where
  yield := by
    rw [e.yield_mapSites, ← h.yield, List.map_map, List.map_map]
    exact List.map_congr_left fun t _ => t.leaf_mapSite f
  shaped := (e.shaped_mapSites f).mpr h.shaped
  rank_le := by
    rw [e.precedence_mapSites]
    exact h.rank_le
  depth_lt := by
    rw [e.depth_mapSites]
    exact h.depth_lt

/-- So is a program. -/
theorem StmtsReading.mapSites {room : Nat} {body : List Stmt} {used : List Token}
    (h : StmtsReading room body used) :
    StmtsReading room (stmtsMapSites f body) (used.map (·.mapSite f)) where
  yield := by
    rw [stmtsYield_mapSites, ← h.yield, List.map_map, List.map_map]
    exact List.map_congr_left fun t _ => t.leaf_mapSite f
  shaped := (stmtsShaped_mapSites f body).mpr h.shaped
  depth_le := by
    rw [stmtsDepth_mapSites]
    exact h.depth_le

theorem Program.parse_mapSites {finish : Lexeme} {ts : List Token} {p : Program}
    (h : Program.parse finish ts = .ok p) (finish' : Lexeme) :
    Program.parse finish' (ts.map (·.mapSite f)) = .ok (p.mapSites f) :=
  parse_of_reading ((reading_of_parse h).mapSites f)

/-! ## Reading one program behind another -/

theorem StmtsReading.append {room : Nat} {body body' : List Stmt} {used used' : List Token}
    (h : StmtsReading room body used) (h' : StmtsReading room body' used') :
    StmtsReading room (body ++ body') (used ++ used') := by
  induction body generalizing used with
  | nil =>
    obtain rfl : used = [] := List.map_eq_nil_iff.mp h.yield
    exact h'
  | cons s body ih =>
    obtain ⟨us, ub, rfl, hs, hb⟩ := h.of_cons
    rw [List.append_assoc]
    exact StmtsReading.cons hs (ih hb)

/-- Programs that are read from tokens are read from the tokens of both, one after the other: where
one ends the other begins. -/
theorem Program.parse_append {finish₁ finish₂ finish : Lexeme} {ts₁ ts₂ : List Token}
    {p₁ p₂ : Program} (h₁ : Program.parse finish₁ ts₁ = .ok p₁)
    (h₂ : Program.parse finish₂ ts₂ = .ok p₂) :
    Program.parse finish (ts₁ ++ ts₂) = .ok (p₁ ++ p₂) :=
  parse_of_reading ((reading_of_parse h₁).append (reading_of_parse h₂))

end Lox
