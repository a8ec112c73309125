import Lox.Proofs.Execution.Variables

/-!
# Which variables come into being

A variable is bound when a declaration of it has been completed, and then for good: an execution
adds to the variables that are bound those whose declarations it completes, in blocks or not, and
changes nothing else about which are bound (`Program.binds_exec`). Expressions change nothing about
it at all, since an assignment needs a variable that is bound.

So a variable that an execution has failed for the want of is not bound even then
(`Program.failsOnly_exec`), and one that is bound is never missed.
-/

set_option autoImplicit false

namespace Lox

/-! ## Completed declarations -/

/-- The statement itself, if executing it completes. -/
def Stmt.completedAlone (s : Stmt) (w : World) : List Stmt :=
  match s.exec w with
  | .ok _ _ => [s]
  | .error _ _ => []

mutual

/-- The statements other than blocks that are completed when a statement is executed, in order. -/
def Stmt.completed : Stmt → World → List Stmt
  | .expression e, w => (Stmt.expression e).completedAlone w
  | .print e, w => (Stmt.print e).completedAlone w
  | .var site initial, w => (Stmt.var site initial).completedAlone w
  | .block body, w => completedAll body w

def completedAll : List Stmt → World → List Stmt
  | [], _ => []
  | s :: rest, w =>
    s.completed w ++
      match s.exec w with
      | .ok _ w' => completedAll rest w'
      | .error _ _ => []

end

/-- The name that a statement declares, if it is a declaration. -/
def Stmt.declares? : Stmt → Option String
  | .var site _ => some site.text
  | _ => none

/-- The names that the declarations among some statements declare. -/
def namesDeclared (body : List Stmt) : List String := body.filterMap Stmt.declares?

/-- The names that executing a program declares. A declaration that the execution does not get to,
or of which the initial value cannot be computed, does not declare anything. -/
def Program.declared (p : Program) (w : World) : List String := namesDeclared (completedAll p w)

/-- What does not change the bindings leaves those that it has found. -/
theorem bindings_bind {α β : Type} {x : EStateM RuntimeError World α}
    {k : α → EStateM RuntimeError World β}
    (hk : ∀ a w, (finalState (k a w)).bindings = w.bindings) (w : World) :
    (finalState ((x >>= k) w)).bindings = (finalState (x w)).bindings := by
  cases hrun : x w with
  | ok a w' =>
    rw [bind_of_ok hrun]
    exact hk a w'
  | error e w' => rw [bind_of_error hrun, finalState_error, finalState_error]

theorem Expr.binds_evalIn (e : Expr) (w : World) (name : String) :
    (finalState (e.evalIn w)).bindings.Binds name ↔ w.bindings.Binds name := by
  rw [e.finalState_evalIn]
  exact Bindings.binds_of_rebinds (e.leads_eval w.bindings) name

namespace Stmt

theorem completedAlone_of_ok {s : Stmt} {w w' : World} (h : s.exec w = .ok () w') :
    s.completedAlone w = [s] := by
  rw [completedAlone, h]

theorem completedAlone_of_error {s : Stmt} {w w' : World} {e : RuntimeError}
    (h : s.exec w = .error e w') : s.completedAlone w = [] := by
  rw [completedAlone, h]

theorem namesDeclared_completedAlone {s : Stmt} (h : s.declares? = none) (w : World) :
    namesDeclared (s.completedAlone w) = [] := by
  unfold completedAlone
  split <;> simp [namesDeclared, h]

theorem binds_expression (e : Expr) (w : World) (name : String) :
    (finalState ((expression e).exec w)).bindings.Binds name ↔ w.bindings.Binds name := by
  unfold exec
  rw [bindings_bind (fun _ _ => rfl)]
  exact e.binds_evalIn w name

theorem binds_print (e : Expr) (w : World) (name : String) :
    (finalState ((print e).exec w)).bindings.Binds name ↔ w.bindings.Binds name := by
  unfold exec
  rw [bindings_bind (fun _ _ => rfl)]
  exact e.binds_evalIn w name

theorem exec_var_of_ok {site : Lexeme} {e : Expr} {w w' : World} {v : Value}
    (h : e.evalIn w = .ok v w') :
    (var site (some e)).exec w =
      .ok () { w' with bindings := w'.bindings.define site.text v } := by
  unfold exec
  exact bind_of_ok h

/-- A declaration of which the initial value cannot be computed is given up. -/
theorem exec_var_of_error {site : Lexeme} {e : Expr} {w w' : World} {err : RuntimeError}
    (h : e.evalIn w = .error err w') : (var site (some e)).exec w = .error err w' := by
  unfold exec
  exact bind_of_error h

theorem binds_var (site : Lexeme) (initial : Option Expr) (w : World) (name : String) :
    (finalState ((var site initial).exec w)).bindings.Binds name ↔
      w.bindings.Binds name ∨ name ∈ namesDeclared ((var site initial).completedAlone w) := by
  cases initial with
  | none =>
    have hrun : (var site none).exec w =
        .ok () { w with bindings := w.bindings.define site.text .nil } := by
      unfold exec
      rfl
    rw [completedAlone_of_ok hrun, hrun]
    simp [namesDeclared, declares?, Bindings.binds_define]
  | some e =>
    have heval := e.binds_evalIn w name
    cases hrun : e.evalIn w with
    | ok v w' =>
      rw [hrun, finalState_ok] at heval
      rw [completedAlone_of_ok (exec_var_of_ok hrun), exec_var_of_ok hrun]
      simp [namesDeclared, declares?, Bindings.binds_define, heval]
    | error err w' =>
      rw [hrun, finalState_error] at heval
      rw [completedAlone_of_error (exec_var_of_error hrun), exec_var_of_error hrun]
      simp [namesDeclared, heval]

end Stmt

mutual

/-- The variables that are bound after an execution are those that were, and those of the
declarations that it has completed. -/
theorem Stmt.binds_exec {name : String} : (s : Stmt) → (w : World) →
    ((finalState (s.exec w)).bindings.Binds name ↔
      w.bindings.Binds name ∨ name ∈ namesDeclared (s.completed w))
  | .expression e, w => by
    rw [Stmt.binds_expression, Stmt.completed, Stmt.namesDeclared_completedAlone rfl]
    simp
  | .print e, w => by
    rw [Stmt.binds_print, Stmt.completed, Stmt.namesDeclared_completedAlone rfl]
    simp
  | .var site initial, w => by
    rw [Stmt.completed]
    exact Stmt.binds_var site initial w name
  | .block body, w => by
    rw [Stmt.completed, Stmt.exec]
    exact binds_execAll body w

theorem binds_execAll {name : String} : (body : List Stmt) → (w : World) →
    ((finalState (execAll body w)).bindings.Binds name ↔
      w.bindings.Binds name ∨ name ∈ namesDeclared (completedAll body w))
  | [], w => by
    rw [execAll, completedAll]
    simp [namesDeclared, show (pure () : EStateM RuntimeError World Unit) w = .ok () w from rfl]
  | s :: rest, w => by
    have hfirst := @Stmt.binds_exec name s w
    unfold completedAll execAll
    cases hrun : s.exec w with
    | ok u w' =>
      rw [hrun, finalState_ok] at hfirst
      rw [bind_of_ok hrun, binds_execAll rest w', hfirst, or_assoc]
      simp [namesDeclared]
    | error e w' =>
      -- The others are not executed. But the first, if it is a block, may have declared something.
      rw [hrun, finalState_error] at hfirst
      rw [bind_of_error hrun, finalState_error, hfirst]
      simp [namesDeclared]

end

theorem Program.binds_exec (p : Program) (w : World) (name : String) :
    (finalState (p.exec w)).bindings.Binds name ↔
      w.bindings.Binds name ∨ name ∈ p.declared w :=
  binds_execAll p w

/-! ## Which variables are missing -/

/-- If the error is that a variable is undefined, that variable is not bound. -/
def Bindings.Lacks (e : RuntimeError) (b : Bindings) : Prop :=
  ∀ name, e.fault = .undefinedVariable name → ¬ b.Binds name

open Bindings (Lacks)

section

variable {site : Lexeme}

theorem failsOnly_fetch : FailsOnly Lacks (fetch site) := by
  intro b e b' h
  by_cases hb : b.Binds site.text
  · obtain ⟨v, hv⟩ := Option.ne_none_iff_exists'.mp hb
    rw [fetch_of_get? hv] at h
    cases h
  · rw [fetch_of_not_binds hb] at h
    cases h
    intro name hname
    cases hname
    exact hb

theorem failsOnly_store (v : Value) : FailsOnly Lacks (store site v) := by
  intro b e b' h
  by_cases hb : b.Binds site.text
  · rw [store_of_binds hb] at h
    cases h
  · rw [store_of_not_binds hb] at h
    cases h
    intro name hname
    cases hname
    exact hb

end

/-! Operators have faults of their own, and none of them is about a variable. -/

theorem Value.arithmetic_ne {f : Float → Float → Except RuntimeFault Float} {name : String}
    (hf : ∀ x y, f x y ≠ .error (.undefinedVariable name)) (a b : Value) :
    arithmetic f a b ≠ .error (.undefinedVariable name) := by
  cases a with
  | number x =>
    cases b with
    | number y =>
      intro h
      cases hxy : f x y with
      | ok z =>
        rw [arithmetic, hxy] at h
        cases h
      | error fault =>
        rw [arithmetic, hxy] at h
        cases h
        exact hf x y hxy
    | string _ | bool _ | nil => simp [arithmetic]
  | string _ | bool _ | nil => simp [arithmetic]

theorem Value.comparison_ne (numbers : Float → Float → Bool) (strings : String → String → Bool)
    (a b : Value) (name : String) :
    comparison numbers strings a b ≠ .error (.undefinedVariable name) := by
  cases a <;> cases b <;> simp [comparison]

theorem UnaryOp.apply_ne (op : UnaryOp) (v : Value) (name : String) :
    op.apply v ≠ .error (.undefinedVariable name) := by
  cases op with
  | not => simp [apply]
  | negate => cases v <;> simp [apply, Value.negate]

theorem BinaryOp.apply_ne (op : BinaryOp) (a b : Value) (name : String) :
    op.apply a b ≠ .error (.undefinedVariable name) := by
  cases op with
  | comma | equal | notEqual => simp [apply]
  | add => cases a <;> cases b <;> simp [apply, Value.add]
  | subtract | multiply =>
    apply Value.arithmetic_ne
    simp
  | divide =>
    apply Value.arithmetic_ne
    intro x y
    split <;> simp
  | less | lessEqual | greater | greaterEqual => apply Value.comparison_ne

theorem failsOnly_blame {site : Lexeme} {r : Except RuntimeFault Value}
    (h : ∀ name, r ≠ .error (.undefinedVariable name)) :
    FailsOnly Lacks (ofExcept (blame site r) : EStateM RuntimeError Bindings Value) := by
  apply failsOnly_ofExcept
  intro e b herror name hname
  cases r with
  | ok v => cases herror
  | error fault =>
    cases herror
    exact absurd (congrArg _ hname) (h name)

theorem Expr.failsOnly_eval (e : Expr) : FailsOnly Lacks e.eval := by
  induction e with
  | literal v => exact failsOnly_pure v
  | grouping e ih => exact ih
  | name site => exact failsOnly_fetch
  | assign site e ih => exact ih.bind fun v => failsOnly_store v
  | unary op site e ih => exact ih.bind fun v => failsOnly_blame (op.apply_ne v)
  | binary op site l r ihl ihr =>
    exact ihl.bind fun a => ihr.bind fun b => failsOnly_blame (op.apply_ne a b)
  | ternary c question s colon r ihc ihs ihr =>
    refine ihc.bind fun v => ?_
    split
    · exact ihs
    · exact ihr

/-- The same of a world. -/
def LacksIn (e : RuntimeError) (w : World) : Prop := Lacks e w.bindings

theorem Expr.failsOnly_evalIn (e : Expr) : FailsOnly LacksIn e.evalIn := by
  intro w err w' h
  unfold evalIn at h
  cases hrun : e.eval w.bindings with
  | ok v b =>
    rw [hrun] at h
    cases h
  | error err' b =>
    rw [hrun] at h
    cases h
    exact e.failsOnly_eval w.bindings err b hrun

mutual

theorem Stmt.failsOnly_exec : (s : Stmt) → FailsOnly LacksIn s.exec
  | .expression e => by
    unfold Stmt.exec
    exact e.failsOnly_evalIn.bind fun _ => failsOnly_pure ()
  | .print e => by
    unfold Stmt.exec
    exact e.failsOnly_evalIn.bind fun v => failsOnly_modify _
  | .var site none => by
    unfold Stmt.exec
    exact (failsOnly_pure Value.nil).bind fun v => failsOnly_modify _
  | .var site (some e) => by
    unfold Stmt.exec
    exact e.failsOnly_evalIn.bind fun v => failsOnly_modify _
  | .block body => by
    unfold Stmt.exec
    exact failsOnly_execAll body

theorem failsOnly_execAll : (body : List Stmt) → FailsOnly LacksIn (execAll body)
  | [] => failsOnly_pure ()
  | s :: rest => by
    unfold execAll
    exact s.failsOnly_exec.bind fun _ => failsOnly_execAll rest

end

/-- A variable for the want of which an execution fails is not bound when it has failed. -/
theorem Program.failsOnly_exec (p : Program) : FailsOnly LacksIn p.exec := failsOnly_execAll p

/-- Of a variable that is bound when the execution begins no execution fails for the want. -/
theorem Program.exec_ne_undefined (p : Program) {w : World} {name : String}
    (h : w.bindings.Binds name) (site : Lexeme) (w' : World) :
    p.exec w ≠ .error ⟨.undefinedVariable name, site⟩ w' := by
  intro hexec
  have hkept := (p.binds_exec w name).mpr (.inl h)
  rw [hexec] at hkept
  exact p.failsOnly_exec w _ w' hexec name rfl hkept

/-! ## One expression -/

/-- What the evaluation of an expression has to do with the names that are bound. -/
structure Expr.NamesAccount (e : Expr) : Prop where
  expression : ∀ (w : World) (name : String),
    (finalState ((Stmt.expression e).exec w)).bindings.Binds name ↔ w.bindings.Binds name
  print : ∀ (w : World) (name : String),
    (finalState ((Stmt.print e).exec w)).bindings.Binds name ↔ w.bindings.Binds name
  /-- A declaration whose initial value cannot be computed binds nothing. -/
  var : ∀ (site : Lexeme) (w w' : World) (err : RuntimeError), e.evalIn w = .error err w' →
    (Stmt.var site (some e)).exec w = .error err w' ∧
      ∀ name, w'.bindings.Binds name ↔ w.bindings.Binds name
  /-- What is not bound cannot be assigned to, but that is found out last. -/
  assign : ∀ (site : Lexeme) (b : Bindings), ¬ b.Binds site.text →
    (∀ v b', e.eval b = .ok v b' →
      (Expr.assign site e).eval b = .error ⟨.undefinedVariable site.text, site⟩ b') ∧
    ∀ err b', e.eval b = .error err b' → (Expr.assign site e).eval b = .error err b'
  defined : ∀ (b : Bindings) (name : String), b.Binds name → ∀ (site : Lexeme) (b' : Bindings),
    e.eval b ≠ .error ⟨.undefinedVariable name, site⟩ b'

theorem Expr.namesAccount (e : Expr) : e.NamesAccount where
  expression := Stmt.binds_expression e
  print := Stmt.binds_print e
  var site w w' err h := by
    refine ⟨Stmt.exec_var_of_error h, fun name => ?_⟩
    have heval := e.binds_evalIn w name
    rwa [h] at heval
  assign site b hb := by
    rw [eval_assign]
    refine ⟨fun v b' h => ?_, fun err b' h => bind_of_error h⟩
    have hkept := Bindings.binds_of_rebinds (e.leads_eval b) site.text
    rw [h] at hkept
    rw [bind_of_ok h]
    exact store_of_not_binds (mt hkept.mp hb) v
  defined b name hb site b' h := by
    have hkept := Bindings.binds_of_rebinds (e.leads_eval b) name
    rw [h] at hkept
    exact e.failsOnly_eval b _ b' h name rfl (hkept.mpr hb)

end Lox
