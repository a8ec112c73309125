import Lox.Eval
import Lox.Proofs.Execution.Computations
import Lox.Proofs.Grammar.Sites

/-!
# Executions compared

Two ways in which the execution of one program says what that of another is. A program that
consists of two parts executes the first and, if that succeeds, the second (`execAll_append`). And
a program whose lexemes are moved, but not rewritten, does what it did before, except that a
failure is found where its lexeme has been moved to (`Program.exec_mapSites`).
-/

set_option autoImplicit false

namespace Lox

/-! ## One part after the other -/

/-- Of a program in two parts the second is executed where the first has succeeded. -/
theorem execAll_append (xs ys : List Stmt) :
    execAll (xs ++ ys) = (execAll xs >>= fun _ => execAll ys) := by
  induction xs with
  | nil => rfl
  | cons s xs ih =>
    rw [List.cons_append, execAll, execAll, ih, bind_assoc]

theorem execAll_append_of_ok {xs : List Stmt} {w w' : World} (h : execAll xs w = .ok () w')
    (ys : List Stmt) : execAll (xs ++ ys) w = execAll ys w' := by
  rw [execAll_append]
  exact bind_of_ok h

/-! ## Moved programs -/

/-- The error where its lexeme is moved to. -/
def RuntimeError.mapSite (f : Lexeme → Lexeme) (e : RuntimeError) : RuntimeError :=
  ⟨e.fault, f e.site⟩

/-- An outcome, with the lexeme of its error moved. -/
def movedOutcome {σ α : Type} (f : Lexeme → Lexeme) :
    EStateM.Result RuntimeError σ α → EStateM.Result RuntimeError σ α
  | .ok a s => .ok a s
  | .error e s => .error (e.mapSite f) s

/-- The computation `x'` does what `x` does, and fails where `x` fails, moved. -/
def Follows {σ α : Type} (f : Lexeme → Lexeme) (x x' : EStateM RuntimeError σ α) : Prop :=
  ∀ s, x' s = movedOutcome f (x s)

section

variable {σ α β : Type} {f : Lexeme → Lexeme}

theorem Follows.pure (a : α) : Follows f (Pure.pure a : EStateM RuntimeError σ α) (Pure.pure a) :=
  fun _ => rfl

theorem Follows.get : Follows f (get : EStateM RuntimeError σ σ) get := fun _ => rfl

theorem Follows.set (s : σ) : Follows f (set s : EStateM RuntimeError σ PUnit) (set s) :=
  fun _ => rfl

theorem Follows.modify (g : σ → σ) :
    Follows f (modify g : EStateM RuntimeError σ PUnit) (modify g) := fun _ => rfl

theorem Follows.ofExcept (r : Except RuntimeError α) :
    Follows f (ofExcept r : EStateM RuntimeError σ α)
      (ofExcept (r.mapError (RuntimeError.mapSite f))) := by
  intro s
  cases r <;> rfl

theorem Follows.bind {x x' : EStateM RuntimeError σ α} {k k' : α → EStateM RuntimeError σ β}
    (hx : Follows f x x') (hk : ∀ a, Follows f (k a) (k' a)) :
    Follows f (x >>= k) (x' >>= k') := by
  intro s
  have hs := hx s
  cases hrun : x s with
  | ok a s' =>
    rw [hrun] at hs
    rw [bind_of_ok hrun, bind_of_ok hs]
    exact hk a s'
  | error e s' =>
    rw [hrun] at hs
    rw [bind_of_error hrun, bind_of_error hs]
    rfl

end

/-! A variable is found by the text of its lexeme, and this is the only use that an execution makes
of a lexeme before there is an error. -/

/-- Lexemes are moved but not rewritten. -/
def KeepsText (f : Lexeme → Lexeme) : Prop := ∀ l, (f l).text = l.text

variable {f : Lexeme → Lexeme}

theorem Bindings.read_mapSite (hf : KeepsText f) (b : Bindings) (site : Lexeme) :
    b.read (f site) = (b.read site).mapError (RuntimeError.mapSite f) := by
  unfold read
  rw [hf]
  cases b.get? site.text <;> rfl

theorem Bindings.write_mapSite (hf : KeepsText f) (b : Bindings) (site : Lexeme) (v : Value) :
    b.write (f site) v = (b.write site v).mapError (RuntimeError.mapSite f) := by
  unfold write
  rw [hf]
  cases b.assign? site.text v <;> rfl

theorem blame_mapSite (site : Lexeme) (r : Except RuntimeFault Value) :
    blame (f site) r = (blame site r).mapError (RuntimeError.mapSite f) := by
  cases r <;> rfl

theorem Expr.eval_mapSites (hf : KeepsText f) (e : Expr) :
    Follows f e.eval (e.mapSites f).eval := by
  induction e with
  | literal v => exact .pure v
  | grouping e ih => exact ih
  | name site =>
    apply Follows.bind .get
    intro b
    rw [Bindings.read_mapSite hf]
    exact .ofExcept _
  | assign site e ih =>
    apply Follows.bind ih
    intro v
    apply Follows.bind .get
    intro b
    refine .bind ?_ fun b' => .bind (.set b') fun _ => .pure v
    rw [Bindings.write_mapSite hf]
    exact .ofExcept _
  | unary op site e ih =>
    apply Follows.bind ih
    intro v
    rw [blame_mapSite]
    exact .ofExcept _
  | binary op site l r ihl ihr =>
    apply Follows.bind ihl
    intro a
    apply Follows.bind ihr
    intro b
    rw [blame_mapSite]
    exact .ofExcept _
  | ternary c question s colon r ihc ihs ihr =>
    apply Follows.bind ihc
    intro v
    -- The branch is chosen by a value, and a value has no lexeme.
    split
    · exact ihs
    · exact ihr

theorem Expr.evalIn_mapSites (hf : KeepsText f) (e : Expr) :
    Follows f e.evalIn (e.mapSites f).evalIn := by
  intro w
  unfold Expr.evalIn
  rw [e.eval_mapSites hf w.bindings]
  cases e.eval w.bindings <;> rfl

mutual

theorem Stmt.exec_mapSites (hf : KeepsText f) : (s : Stmt) → Follows f s.exec (s.mapSites f).exec
  | .expression e => by
    unfold Stmt.mapSites Stmt.exec
    exact .bind (e.evalIn_mapSites hf) fun _ => .pure ()
  | .print e => by
    unfold Stmt.mapSites Stmt.exec
    exact .bind (e.evalIn_mapSites hf) fun v => .modify _
  | .var site none => by
    unfold Stmt.mapSites Stmt.exec
    rw [hf]
    exact .bind (.pure Value.nil) fun v => .modify _
  | .var site (some e) => by
    unfold Stmt.mapSites Stmt.exec
    rw [hf]
    exact .bind (e.evalIn_mapSites hf) fun v => .modify _
  | .block body => by
    unfold Stmt.mapSites Stmt.exec
    exact execAll_mapSites hf body

theorem execAll_mapSites (hf : KeepsText f) :
    (body : List Stmt) → Follows f (execAll body) (execAll (stmtsMapSites f body))
  | [] => .pure ()
  | s :: rest => by
    unfold stmtsMapSites execAll
    exact .bind (s.exec_mapSites hf) fun _ => execAll_mapSites hf rest

end

/-- A program that is moved does what it did, and fails where it failed, moved. -/
theorem Program.exec_mapSites (hf : KeepsText f) (p : Program) :
    Follows f p.exec (p.mapSites f).exec :=
  execAll_mapSites hf p

end Lox
