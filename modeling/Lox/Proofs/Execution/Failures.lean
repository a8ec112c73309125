import Lox.Eval
import Lox.Proofs.Execution.Computations
import Lox.Proofs.Grammar.Tree

/-!
# Where executions fail

A failed computation blames one of the lexemes of its tree. What can be blamed is found by looking
at the tree alone, and does not depend on the bindings or on what has been run before.
-/

set_option autoImplicit false

namespace Lox

/-- Whether an expression or statement with these leaves keeps the lexeme. -/
def KeptBy (leaves : List Leaf) (site : Lexeme) : Prop := ∃ kind, .sited kind site ∈ leaves

theorem KeptBy.mono {xs ys : List Leaf} (h : xs ⊆ ys) {site : Lexeme} (hk : KeptBy xs site) :
    KeptBy ys site := by
  obtain ⟨kind, hmem⟩ := hk
  exact ⟨kind, h hmem⟩

section

variable {σ α β : Type} {leaves : List Leaf}

/-- Whether a computation that fails blames one of the lexemes that the leaves keep. -/
def FailsAt (leaves : List Leaf) (x : EStateM RuntimeError σ α) : Prop :=
  ∀ s e s', x s = .error e s' → KeptBy leaves e.site

theorem FailsAt.mono {xs ys : List Leaf} {x : EStateM RuntimeError σ α} (hx : FailsAt xs x)
    (h : xs ⊆ ys) : FailsAt ys x :=
  fun s e s' herror => (hx s e s' herror).mono h

theorem FailsAt.bind {x : EStateM RuntimeError σ α} {k : α → EStateM RuntimeError σ β}
    (hx : FailsAt leaves x) (hk : ∀ a, FailsAt leaves (k a)) : FailsAt leaves (x >>= k) :=
  FailsOnly.bind hx hk

theorem failsAt_pure (a : α) : FailsAt leaves (pure a : EStateM RuntimeError σ α) :=
  failsOnly_pure a

theorem failsAt_get : FailsAt leaves (get : EStateM RuntimeError σ σ) := by
  intro s e s' h
  cases h

theorem failsAt_set (s : σ) : FailsAt leaves (set s : EStateM RuntimeError σ PUnit) := by
  intro s e s' h
  cases h

theorem failsAt_modify (g : σ → σ) :
    FailsAt leaves (modify g : EStateM RuntimeError σ PUnit) :=
  failsOnly_modify g

theorem failsAt_ofExcept {r : Except RuntimeError α}
    (h : ∀ e, r = .error e → KeptBy leaves e.site) :
    FailsAt leaves (ofExcept r : EStateM RuntimeError σ α) :=
  failsOnly_ofExcept fun e _ => h e

end

/-! ## Single operations -/

theorem Bindings.site_of_read {b : Bindings} {site : Lexeme} {e : RuntimeError}
    (h : b.read site = .error e) : e.site = site := by
  unfold read at h
  split at h <;> cases h
  rfl

theorem Bindings.site_of_write {b : Bindings} {site : Lexeme} {v : Value} {e : RuntimeError}
    (h : b.write site v = .error e) : e.site = site := by
  unfold write at h
  split at h <;> cases h
  rfl

theorem site_of_blame {site : Lexeme} {r : Except RuntimeFault Value} {e : RuntimeError}
    (h : blame site r = .error e) : e.site = site := by
  cases r <;> cases h
  rfl

/-! ## Trees -/

theorem Expr.failsAt_eval (e : Expr) : FailsAt e.yield e.eval := by
  induction e with
  | literal v => exact failsAt_pure v
  | grouping e ih => exact ih.mono (by simp [yield])
  | name site =>
    apply failsAt_get.bind
    intro b
    apply failsAt_ofExcept
    intro err h
    rw [Bindings.site_of_read h]
    exact ⟨.ident, by simp [yield]⟩
  | assign site e ih =>
    apply (ih.mono (by simp [yield])).bind
    intro v
    apply failsAt_get.bind
    intro b
    -- What may fail here is the rebinding: the name is declared or it is not.
    refine FailsAt.bind ?_ fun b' => (failsAt_set b').bind fun _ => failsAt_pure v
    apply failsAt_ofExcept
    intro err h
    rw [Bindings.site_of_write h]
    exact ⟨.ident, by simp [yield]⟩
  | unary op site e ih =>
    apply (ih.mono (by simp [yield])).bind
    intro v
    apply failsAt_ofExcept
    intro err h
    rw [site_of_blame h]
    exact ⟨.symbol op.symbol, by simp [yield]⟩
  | binary op site l r ihl ihr =>
    apply (ihl.mono (by simp [yield])).bind
    intro a
    apply (ihr.mono (by simp [yield])).bind
    intro b
    apply failsAt_ofExcept
    intro err h
    rw [site_of_blame h]
    exact ⟨.symbol op.symbol, by simp [yield]⟩
  | ternary c question s colon r ihc ihs ihr =>
    apply (ihc.mono (by simp [yield])).bind
    intro v
    split
    · exact ihs.mono fun leaf h => by simp [yield, h]
    · exact ihr.mono fun leaf h => by simp [yield, h]

theorem Expr.failsAt_evalIn (e : Expr) : FailsAt e.yield e.evalIn := by
  intro w err w' h
  unfold Expr.evalIn at h
  cases hrun : e.eval w.bindings with
  | ok v b =>
    rw [hrun] at h
    cases h
  | error err' b =>
    rw [hrun] at h
    cases h
    exact e.failsAt_eval w.bindings err b hrun

mutual

theorem Stmt.failsAt_exec : (s : Stmt) → FailsAt s.yield s.exec
  | .expression e => by
    unfold Stmt.exec
    exact (e.failsAt_evalIn.mono (by simp [Stmt.yield])).bind fun _ => failsAt_pure ()
  | .print e => by
    unfold Stmt.exec
    exact (e.failsAt_evalIn.mono (by simp [Stmt.yield])).bind fun v => failsAt_modify _
  | .var site none => by
    unfold Stmt.exec
    exact (failsAt_pure Value.nil).bind fun v => failsAt_modify _
  | .var site (some e) => by
    unfold Stmt.exec
    exact (e.failsAt_evalIn.mono fun leaf h => by simp [Stmt.yield, h]).bind fun v =>
      failsAt_modify _
  | .block body => by
    unfold Stmt.exec
    exact (failsAt_execAll body).mono (by simp [Stmt.yield])

theorem failsAt_execAll : (body : List Stmt) → FailsAt (stmtsYield body) (execAll body)
  | [] => failsAt_pure ()
  | s :: rest => by
    unfold execAll
    exact (s.failsAt_exec.mono (by simp [stmtsYield])).bind fun _ =>
      (failsAt_execAll rest).mono (by simp [stmtsYield])

end

theorem Program.failsAt_exec (p : Program) : FailsAt p.yield p.exec := failsAt_execAll p

/-- If the leaves are those of some tokens, the lexeme that is blamed is that of one of them. -/
theorem KeptBy.mem {ts : List Token} {site : Lexeme} (h : KeptBy (ts.map Token.leaf) site) :
    ∃ t ∈ ts, t.lexeme = site := by
  obtain ⟨kind, hmem⟩ := h
  obtain ⟨t, ht, hleaf⟩ := List.mem_map.mp hmem
  exact ⟨t, ht, (Token.leaf_eq_sited hleaf).2⟩

end Lox
