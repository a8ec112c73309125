import Lox.Proofs.Execution.Declarations
import Lox.Proofs.Session.History

/-!
# Which variables are bound in a session

A variable comes into being when the execution of its declaration completes, and it stays for as
long as the session does, whatever is run or evaluated afterwards and however it ends. So a
session complains of an undefined variable only if no declaration of it has been completed yet
(`Session.not_binds_of_adds`).

An assignment declares nothing. That makes `evaluate` the call that leaves the set of the bound
variables alone, since an expression can do no more than assign.
-/

set_option autoImplicit false

namespace Lox

namespace Session

/-! ## One call -/

/-- Whether a variable is bound in a session. -/
def Binds (s : Session) (name : String) : Prop := s.world.bindings.Binds name

instance (s : Session) (name : String) : Decidable (s.Binds name) :=
  inferInstanceAs (Decidable (s.world.bindings.Binds name))

/-- What a session makes of a computation in its world: it goes on in the world that is left, and
reports the error if there is one. -/
def after {α : Type} (s : Session) : EStateM.Result RuntimeError World α → Session
  | .ok _ world => { s with world }
  | .error e world => { s with world }.report [.runtime e]

theorem ofOutcome_snd (s : Session) (r : EStateM.Result RuntimeError World Unit) :
    (s.ofOutcome r).2 = s.after r := by
  cases r <;> rfl

theorem ofEvaluation_snd (s : Session) (r : EStateM.Result RuntimeError World Value) :
    (s.ofEvaluation r).2 = s.after r := by
  cases r <;> rfl

@[simp] theorem world_after {α : Type} (s : Session) (r : EStateM.Result RuntimeError World α) :
    (s.after r).world = finalState r := by
  cases r <;> rfl

/-- What can come of a call: its static errors, an execution, or an evaluation. -/
theorem serve_cases (s : Session) (call : Call) :
    (call.errors ≠ [] ∧ (s.serve call).2 = s.report call.errors) ∨
      (∃ source p, call = .run source ∧ ReadsAs source p ∧
        (s.serve call).2 = s.after (p.exec s.world)) ∨
      ∃ source e, call = .evaluate source ∧ ReadsAsExpr source e ∧
        (s.serve call).2 = s.after (e.evalIn s.world) := by
  by_cases hnil : call.errors = []
  · right
    cases call with
    | run source =>
      obtain ⟨p, hp⟩ := staticErrors_eq_nil_iff.mp hnil
      refine .inl ⟨source, p, rfl, hp, ?_⟩
      rw [serve, run_of_readsAs s hp, ofOutcome_snd]
    | evaluate source =>
      obtain ⟨e, he⟩ := expressionErrors_eq_nil_iff.mp hnil
      refine .inr ⟨source, e, rfl, he, ?_⟩
      rw [serve, evaluate_of_readsAsExpr s he, ofEvaluation_snd]
  · exact .inl ⟨hnil, serve_of_errors s hnil⟩

/-- Whether a call declares a variable: it runs a program, and the execution completes a declaration
of the variable. -/
def Declares (s : Session) : Call → String → Prop
  | .run source, name => ∃ p, ReadsAs source p ∧ name ∈ p.declared s.world
  | .evaluate _, _ => False

theorem not_declares_of_errors (s : Session) {call : Call} (h : call.errors ≠ []) (name : String) :
    ¬ s.Declares call name := by
  cases call with
  | run source => exact fun ⟨p, hp, _⟩ => h (staticErrors_eq_nil_iff.mpr ⟨p, hp⟩)
  | evaluate source => exact id

/-- A call adds to the bound variables those that it declares. -/
theorem binds_serve_iff (s : Session) (call : Call) (name : String) :
    (s.serve call).2.Binds name ↔ s.Binds name ∨ s.Declares call name := by
  rcases s.serve_cases call with
    ⟨hne, heq⟩ | ⟨source, p, rfl, hp, heq⟩ | ⟨source, e, rfl, he, heq⟩
  · rw [heq, or_iff_left (s.not_declares_of_errors hne name), Binds, world_report]
    exact Iff.rfl
  · have hdeclares : s.Declares (.run source) name ↔ name ∈ p.declared s.world :=
      ⟨fun ⟨p', hp', hmem⟩ => hp'.unique hp ▸ hmem, fun hmem => ⟨p, hp, hmem⟩⟩
    rw [heq, hdeclares, Binds, world_after]
    exact p.binds_exec s.world name
  · rw [heq, Binds, world_after, e.binds_evalIn]
    exact (or_iff_left id).symm

/-- Where a call makes a computation that says of undefined variables only that they are not bound,
so does the call. -/
theorem not_binds_of_after {α : Type} {x : EStateM RuntimeError World α} (hx : FailsOnly LacksIn x)
    {s : Session} {call : Call} (heq : (s.serve call).2 = s.after (x s.world)) {name : String}
    {site : Lexeme} (h : .runtime ⟨.undefinedVariable name, site⟩ ∈ (s.adds call).diagnostics) :
    ¬ (s.serve call).2.Binds name := by
  cases hrun : x s.world with
  | ok a world =>
    rw [hrun] at heq
    have hnone : (s.adds call).diagnostics = #[] :=
      adds_diagnostics_of_eq (by simp [heq, after])
    simp [hnone] at h
  | error e world =>
    rw [hrun] at heq
    have hone : (s.adds call).diagnostics = #[.runtime e] :=
      adds_diagnostics_of_eq (congrArg diagnostics heq)
    have he : e = ⟨.undefinedVariable name, site⟩ := by simpa [hone, eq_comm] using h
    rw [heq]
    exact hx _ _ _ hrun name (congrArg RuntimeError.fault he)

/-- A variable that a call has found to be undefined is not bound when the call has ended. -/
theorem not_binds_of_adds {s : Session} {call : Call} {name : String} {site : Lexeme}
    (h : .runtime ⟨.undefinedVariable name, site⟩ ∈ (s.adds call).diagnostics) :
    ¬ (s.serve call).2.Binds name := by
  rcases s.serve_cases call with
    ⟨-, heq⟩ | ⟨source, p, -, -, heq⟩ | ⟨source, e, -, -, heq⟩
  · have hall : (s.adds call).diagnostics = call.errors.toArray :=
      adds_diagnostics_of_eq (by rw [heq, diagnostics_report])
    rw [hall] at h
    exact absurd (List.mem_toArray.mp h) (call.runtime_not_mem_errors _)
  · exact not_binds_of_after p.failsOnly_exec heq h
  · exact not_binds_of_after e.failsOnly_evalIn heq h

/-! ## Any number of calls -/

/-- The variables that are bound are those that were, and those that the calls have declared. -/
theorem binds_serveAll_iff (s : Session) (history : List Call) (name : String) :
    (s.serveAll history).Binds name ↔
      s.Binds name ∨ ∃ before call later, history = before ++ call :: later ∧
        (s.serveAll before).Declares call name := by
  induction history generalizing s with
  | nil => simp [serveAll]
  | cons first rest ih =>
    show ((s.serve first).2.serveAll rest).Binds name ↔ _
    rw [ih, binds_serve_iff, or_assoc, exists_call_cons]
    exact Iff.rfl

theorem binds_serveAll {s : Session} {name : String} (h : s.Binds name) (history : List Call) :
    (s.serveAll history).Binds name :=
  (binds_serveAll_iff s history name).mpr (.inl h)

/-- What becomes of the names that are bound in a session. -/
structure NamesAccount (s : Session) : Prop where
  /-- Nothing is ever unbound. -/
  grow : ∀ call name, s.Binds name → (s.serve call).2.Binds name
  evaluate : ∀ source name, (s.evaluate source).2.Binds name ↔ s.Binds name
  run : ∀ source name, (s.run source).2.Binds name ↔
    s.Binds name ∨ ∃ p, ReadsAs source p ∧ name ∈ p.declared s.world
  /-- What is bound is not found to be undefined by any call from then on. -/
  defined : ∀ name, s.Binds name → ∀ (later : List Call) (call : Call) (site : Lexeme),
    .runtime ⟨.undefinedVariable name, site⟩ ∉ ((s.serveAll later).adds call).diagnostics

theorem namesAccount (s : Session) : NamesAccount s where
  grow call name h := (s.binds_serve_iff call name).mpr (.inl h)
  evaluate source name := (s.binds_serve_iff (.evaluate source) name).trans (or_iff_left id)
  run source name := s.binds_serve_iff (.run source) name
  defined name h later call site hadds := by
    have hbinds : (s.serveAll later).Binds name := binds_serveAll h later
    exact not_binds_of_adds hadds ((binds_serve_iff _ call name).mpr (.inl hbinds))

/-- **Names are bound by declarations only, and for good.** In any session a call adds to the bound
variables those whose declarations it completes; and so those of a history are the ones that its
runs have declared. Nothing else binds a variable, least of all an assignment to it, and nothing
unbinds it. -/
theorem names_stay :
    (∀ s : Session, NamesAccount s) ∧
      (∀ (history : List Call) (name : String), (initial.serveAll history).Binds name ↔
        ∃ before call later, history = before ++ call :: later ∧
          (initial.serveAll before).Declares call name) ∧
      (∀ e : Expr, e.NamesAccount) ∧
      ∀ (p : Program) (w : World) (name : String), w.bindings.Binds name →
        ∀ (site : Lexeme) (w' : World), p.exec w ≠ .error ⟨.undefinedVariable name, site⟩ w' := by
  refine ⟨namesAccount, fun history name => ?_, Expr.namesAccount,
    fun p _ _ => p.exec_ne_undefined⟩
  have hinitial : ¬ initial.Binds name := fun h => h (Bindings.get?_empty name)
  rw [binds_serveAll_iff, or_iff_right hinitial]

/-- A session in which `a` has been declared, in a block. -/
def blockRun : Session := (initial.run "{ var a = true; }").2

/-- There `a` is defined in whatever is run later, also when a declaration of it fails. -/
theorem names_stay_blockRun :
    blockRun.Binds "a" ∧
      .runtime ⟨.undefinedVariable "a", ⟨"a", 8, 1⟩⟩ ∉
        ((blockRun.serveAll [.run "var a = b;"]).adds (.evaluate "true ? a : b")).diagnostics ∧
      ¬ blockRun.Binds "b" ∧
      (Expr.assign ⟨"b", 0, 1⟩ (.name ⟨"a", 4, 1⟩)).eval blockRun.world.bindings =
        .error ⟨.undefinedVariable "b", ⟨"b", 0, 1⟩⟩ blockRun.world.bindings ∧
      (Stmt.var ⟨"c", 4, 1⟩ (some (.name ⟨"b", 8, 1⟩))).exec blockRun.world =
        .error ⟨.undefinedVariable "b", ⟨"b", 8, 1⟩⟩ blockRun.world := by
  have ha : blockRun.Binds "a" := by decide +kernel
  have hb : ¬ blockRun.Binds "b" := by decide +kernel
  refine ⟨ha, (names_stay.1 blockRun).defined "a" ha _ _ _, hb, ?_, ?_⟩
  · have heval : (Expr.name ⟨"a", 4, 1⟩).eval blockRun.world.bindings =
        .ok (.bool true) blockRun.world.bindings :=
      fetch_of_get? (by decide +kernel)
    exact ((names_stay.2.2.1 (.name ⟨"a", 4, 1⟩)).assign ⟨"b", 0, 1⟩ _ hb).1 _ _ heval
  · have hfetch : fetch ⟨"b", 8, 1⟩ blockRun.world.bindings =
        .error ⟨.undefinedVariable "b", ⟨"b", 8, 1⟩⟩ blockRun.world.bindings :=
      fetch_of_not_binds hb
    have heval : (Expr.name ⟨"b", 8, 1⟩).evalIn blockRun.world =
        .error ⟨.undefinedVariable "b", ⟨"b", 8, 1⟩⟩ blockRun.world := by
      rw [Expr.evalIn, Expr.eval_name, hfetch]
    exact ((names_stay.2.2.1 (.name ⟨"b", 8, 1⟩)).var ⟨"c", 4, 1⟩ _ _ _ heval).1

end Session

end Lox
