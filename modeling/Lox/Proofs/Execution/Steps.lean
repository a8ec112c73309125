import Mathlib.Data.List.Forall2
import Lox.Proofs.Execution.Declarations
import Lox.Proofs.Execution.Runs

/-!
# Executions step by step

A block is nothing but the statements in it, so a program consists of *steps*: its statements that
are no blocks, in the order in which they are come to when every block is opened. It does what its
steps do one after the other (`Program.exec_eq_execAll_steps`).

What one step does is said without the interpreter, by two relations on bindings: `Stmt.Completes`,
in which it prints a line or none, and `Stmt.Fails`, in which it prints and declares nothing. In any
bindings one of the two holds. An execution is then a row of steps that complete (`Runs`), either
of all the steps or of those up to one that fails (`Program.exec_stops`).
-/

set_option autoImplicit false

namespace Lox

/-! ## The steps of a program -/

/-- Whether the statement is a block. -/
def Stmt.isBlock : Stmt → Bool
  | .block _ => true
  | _ => false

mutual

/-- The steps that a statement consists of, in order. -/
def Stmt.steps : Stmt → List Stmt
  | .expression e => [.expression e]
  | .print e => [.print e]
  | .var site initial => [.var site initial]
  | .block body => stmtsSteps body

def stmtsSteps : List Stmt → List Stmt
  | [] => []
  | s :: rest => s.steps ++ stmtsSteps rest

end

/-- The steps that a program consists of, in order. -/
def Program.steps (p : Program) : List Stmt := stmtsSteps p

mutual

theorem Stmt.isBlock_of_mem_steps {step : Stmt} :
    (s : Stmt) → step ∈ s.steps → step.isBlock = false
  | .expression _, h | .print _, h | .var _ _, h => by
    rw [Stmt.steps, List.mem_singleton] at h
    cases h
    rfl
  | .block body, h => by
    rw [Stmt.steps] at h
    exact isBlock_of_mem_stmtsSteps body h

theorem isBlock_of_mem_stmtsSteps {step : Stmt} :
    (body : List Stmt) → step ∈ stmtsSteps body → step.isBlock = false
  | [], h => by
    rw [stmtsSteps] at h
    cases h
  | s :: rest, h => by
    rw [stmtsSteps] at h
    rcases List.mem_append.mp h with h | h
    · exact Stmt.isBlock_of_mem_steps s h
    · exact isBlock_of_mem_stmtsSteps rest h

end

theorem execAll_singleton (s : Stmt) : execAll [s] = s.exec := by
  rw [execAll, execAll]
  exact bind_pure_unit

mutual

theorem Stmt.execAll_steps : (s : Stmt) → execAll s.steps = s.exec
  | .expression _ | .print _ | .var _ _ => by
    rw [Stmt.steps]
    exact execAll_singleton _
  | .block body => by
    rw [Stmt.steps, Stmt.exec]
    exact execAll_stmtsSteps body

theorem execAll_stmtsSteps : (body : List Stmt) → execAll (stmtsSteps body) = execAll body
  | [] => by rw [stmtsSteps]
  | s :: rest => by
    rw [stmtsSteps, execAll_append, s.execAll_steps, execAll_stmtsSteps rest]
    rfl

end

/-- Opening the blocks changes nothing about what a program does. -/
theorem Program.exec_eq_execAll_steps (p : Program) : p.exec = execAll p.steps :=
  (execAll_stmtsSteps p).symm

/-! ## One step -/

/-- The step completes: it leaves the bindings `b'` where it has found `b`, and prints the lines. -/
inductive Stmt.Completes : Stmt → Bindings → List String → Bindings → Prop where
  | expression {e : Expr} {v : Value} {b b' : Bindings} (h : e.eval b = .ok v b') :
    Completes (.expression e) b [] b'
  | print {e : Expr} {v : Value} {b b' : Bindings} (h : e.eval b = .ok v b') :
    Completes (.print e) b [v.text] b'
  | declared {site : Lexeme} {b : Bindings} :
    Completes (.var site none) b [] (b.define site.text .nil)
  | initialized {site : Lexeme} {e : Expr} {v : Value} {b b' : Bindings}
    (h : e.eval b = .ok v b') : Completes (.var site (some e)) b [] (b'.define site.text v)

/-- The expression that a step computes, if there is one. -/
def Stmt.operand? : Stmt → Option Expr
  | .expression e | .print e => some e
  | .var _ initial => initial
  | .block _ => none

/-- The step fails, since its expression does. What that has done to the bindings remains, and
nothing else is done. -/
def Stmt.Fails (s : Stmt) (b : Bindings) (err : RuntimeError) (b' : Bindings) : Prop :=
  ∃ e, s.operand? = some e ∧ e.eval b = .error err b'

theorem Expr.evalIn_of_ok {e : Expr} {b b' : Bindings} {v : Value} (h : e.eval b = .ok v b')
    (before : Array String) : e.evalIn ⟨b, before⟩ = .ok v ⟨b', before⟩ := by
  rw [evalIn, h]

theorem Expr.evalIn_of_error {e : Expr} {b b' : Bindings} {err : RuntimeError}
    (h : e.eval b = .error err b') (before : Array String) :
    e.evalIn ⟨b, before⟩ = .error err ⟨b', before⟩ := by
  rw [evalIn, h]

namespace Stmt

variable {s : Stmt} {b b' : Bindings}

theorem Completes.exec {lines : List String} (h : s.Completes b lines b')
    (before : Array String) : s.exec ⟨b, before⟩ = .ok () ⟨b', before ++ lines.toArray⟩ := by
  cases h with
  | expression h =>
    unfold Stmt.exec
    rw [bind_of_ok (Expr.evalIn_of_ok h before), Array.append_empty]
    rfl
  | print h =>
    unfold Stmt.exec
    rw [bind_of_ok (Expr.evalIn_of_ok h before), ← Array.push_eq_append]
    rfl
  | declared =>
    unfold Stmt.exec
    rw [Array.append_empty]
    rfl
  | initialized h =>
    rw [exec_var_of_ok (Expr.evalIn_of_ok h before), Array.append_empty]

theorem Fails.exec {err : RuntimeError} (h : s.Fails b err b') (before : Array String) :
    s.exec ⟨b, before⟩ = .error err ⟨b', before⟩ := by
  obtain ⟨e, he, herror⟩ := h
  have hrun := Expr.evalIn_of_error herror before
  cases s with
  | expression _ | print _ =>
    cases he
    unfold Stmt.exec
    exact bind_of_error hrun
  | var site _ =>
    cases he
    exact exec_var_of_error hrun
  | block _ => cases he

/-- A step does the one or the other. -/
theorem completes_or_fails (hs : s.isBlock = false) (b : Bindings) :
    (∃ lines b', s.Completes b lines b') ∨ ∃ err b', s.Fails b err b' := by
  have heval (e : Expr) (he : s.operand? = some e) :
      (∃ v b', e.eval b = .ok v b') ∨ ∃ err b', s.Fails b err b' := by
    cases hrun : e.eval b with
    | ok v b' => exact .inl ⟨v, b', rfl⟩
    | error err b' => exact .inr ⟨err, b', e, he, hrun⟩
  cases s with
  | expression e => exact (heval e rfl).imp_left fun ⟨_, _, h⟩ => ⟨_, _, .expression h⟩
  | print e => exact (heval e rfl).imp_left fun ⟨_, _, h⟩ => ⟨_, _, .print h⟩
  | var site initial =>
    cases initial with
    | none => exact .inl ⟨_, _, .declared⟩
    | some e => exact (heval e rfl).imp_left fun ⟨_, _, h⟩ => ⟨_, _, .initialized h⟩
  | block body => cases hs

end Stmt

/-! ## Steps one after the other -/

/-- The steps complete, one after the other: they lead from the bindings `b` to `b'` and print the
lines. -/
inductive Runs : List Stmt → Bindings → List String → Bindings → Prop where
  | nil (b : Bindings) : Runs [] b [] b
  | cons {s : Stmt} {rest : List Stmt} {b b₁ b₂ : Bindings} {lines lines' : List String}
    (hs : s.Completes b lines b₁) (hrest : Runs rest b₁ lines' b₂) :
    Runs (s :: rest) b (lines ++ lines') b₂

/-- A place where a row of steps may stop: the step that is not completed, its position, the
bindings that it has found, and what has been printed before it. -/
structure Stop where
  position : Nat
  step : Stmt
  bindings : Bindings
  lines : List String

/-- The steps before the stop complete, one after the other, and the step there fails. -/
structure Stop.Of (stop : Stop) (steps : List Stmt) (b : Bindings) (err : RuntimeError)
    (b' : Bindings) : Prop where
  step : steps[stop.position]? = some stop.step
  runs : Runs (steps.take stop.position) b stop.lines stop.bindings
  fails : stop.step.Fails stop.bindings err b'

section

variable {steps : List Stmt} {b b' : Bindings} {err : RuntimeError}

theorem Runs.exec {lines : List String} (h : Runs steps b lines b') (before : Array String) :
    execAll steps ⟨b, before⟩ = .ok () ⟨b', before ++ lines.toArray⟩ := by
  induction h generalizing before with
  | nil b =>
    rw [execAll, Array.append_empty]
    rfl
  | @cons s rest b b₁ b₂ lines lines' hs _ ih =>
    have happend : before ++ lines.toArray ++ lines'.toArray =
        before ++ (lines ++ lines').toArray := by simp
    rw [execAll, bind_of_ok (hs.exec before), ih, happend]

theorem runs_or_stops (hsteps : ∀ s ∈ steps, s.isBlock = false) (b : Bindings) :
    (∃ lines b', Runs steps b lines b') ∨ ∃ stop err b', Stop.Of stop steps b err b' := by
  induction steps generalizing b with
  | nil => exact .inl ⟨[], b, .nil b⟩
  | cons s rest ih =>
    obtain ⟨hs, hrest⟩ := List.forall_mem_cons.mp hsteps
    rcases Stmt.completes_or_fails hs b with ⟨lines, b₁, hcompletes⟩ | ⟨err, b', hfails⟩
    · rcases ih hrest b₁ with ⟨lines', b', hruns⟩ | ⟨stop, err, b', hstep, hruns, hfails⟩
      · exact .inl ⟨_, _, .cons hcompletes hruns⟩
      · -- The stop is one step further on.
        refine .inr ⟨⟨stop.position + 1, stop.step, stop.bindings, lines ++ stop.lines⟩, err, b',
          hstep, ?_, hfails⟩
        rw [List.take_succ_cons]
        exact .cons hcompletes hruns
    · exact .inr ⟨⟨0, s, b, []⟩, err, b', rfl, .nil b, hfails⟩

namespace Stop.Of

variable {stop stop' : Stop}

/-- Of the steps only those up to the stop make a difference. -/
theorem exec (h : stop.Of steps b err b') {steps' : List Stmt}
    (hsame : steps'.take (stop.position + 1) = steps.take (stop.position + 1))
    (before : Array String) :
    execAll steps' ⟨b, before⟩ = .error err ⟨b', before ++ stop.lines.toArray⟩ := by
  have hstep : steps.take (stop.position + 1) = steps.take stop.position ++ [stop.step] := by
    rw [List.take_add_one, h.step, Option.toList_some]
  rw [← List.take_append_drop (stop.position + 1) steps', hsame, hstep, List.append_assoc,
    execAll_append_of_ok (h.runs.exec before), List.singleton_append, execAll]
  exact bind_of_error (h.fails.exec _)

/-- There is no stop behind a stop, since all steps before one complete. -/
theorem not_lt {err' : RuntimeError} {b'' : Bindings} (h : stop.Of steps b err b')
    (h' : stop'.Of steps b err' b'') : ¬ stop.position < stop'.position := by
  intro hlt
  have hsame : (steps.take stop'.position).take (stop.position + 1) =
      steps.take (stop.position + 1) := by
    rw [List.take_take, Nat.min_eq_left hlt]
  have herror := h.exec hsame #[]
  rw [h'.runs.exec #[]] at herror
  cases herror

theorem position_eq {err' : RuntimeError} {b'' : Bindings} (h : stop.Of steps b err b')
    (h' : stop'.Of steps b err' b'') : stop'.position = stop.position :=
  Nat.le_antisymm (Nat.le_of_not_lt (h.not_lt h')) (Nat.le_of_not_lt (h'.not_lt h))

end Stop.Of

end

/-! ## What is printed -/

/-- The expression whose value a step prints, if it prints one. -/
def Stmt.printed? : Stmt → Option Expr
  | .print e => some e
  | _ => none

/-- The line is the text of a value of the expression. -/
def Expr.Shows (e : Expr) (line : String) : Prop :=
  ∃ b v b', e.eval b = .ok v b' ∧ line = v.text

theorem Stmt.Completes.shows {s : Stmt} {b b' : Bindings} {lines : List String}
    (h : s.Completes b lines b') : List.Forall₂ Expr.Shows s.printed?.toList lines := by
  cases h with
  | print h => exact .cons ⟨_, _, _, h, rfl⟩ .nil
  | expression _ | declared | initialized _ => exact .nil

/-- There is a line for each of the steps that print, in order. -/
theorem Runs.shows {steps : List Stmt} {b b' : Bindings} {lines : List String}
    (h : Runs steps b lines b') :
    List.Forall₂ Expr.Shows (steps.filterMap Stmt.printed?) lines := by
  induction h with
  | nil b => exact .nil
  | @cons s rest _ _ _ _ _ hs _ ih =>
    have hcons : (s :: rest).filterMap Stmt.printed? =
        s.printed?.toList ++ rest.filterMap Stmt.printed? := by
      rw [List.filterMap_cons]
      cases s.printed? <;> rfl
    rw [hcons]
    exact List.rel_append hs.shows ih

/-! ## What a failing step leaves -/

/-- Binds variables, one after the other. -/
def Bindings.defineAll (b : Bindings) (assigned : List (String × Value)) : Bindings :=
  assigned.foldl (fun b x => b.define x.1 x.2) b

/-- The assignments that evaluating an expression completes, in order. One is completed when its
value has been computed and its variable is found to be bound. -/
def Expr.assigned : Expr → Bindings → List (String × Value)
  | .literal _, _ | .name _, _ => []
  | .grouping e, b | .unary _ _ e, b => e.assigned b
  | .assign site e, b =>
    e.assigned b ++
      match e.eval b with
      | .ok v b' => if b'.Binds site.text then [(site.text, v)] else []
      | .error _ _ => []
  | .binary _ _ l r, b =>
    l.assigned b ++
      match l.eval b with
      | .ok _ b' => r.assigned b'
      | .error _ _ => []
  | .ternary c _ s _ f, b =>
    c.assigned b ++
      match c.eval b with
      | .ok v b' => if v.isTruthy then s.assigned b' else f.assigned b'
      | .error _ _ => []

theorem Bindings.defineAll_append (b : Bindings) (xs ys : List (String × Value)) :
    b.defineAll (xs ++ ys) = (b.defineAll xs).defineAll ys := List.foldl_append

/-- An expression does nothing to the bindings but what the assignments do that it completes. -/
theorem Expr.finalState_eval (e : Expr) (b : Bindings) :
    finalState (e.eval b) = b.defineAll (e.assigned b) := by
  induction e generalizing b with
  | literal v => rfl
  | grouping e ih => exact ih b
  | name site =>
    rw [eval_name, fetch_apply, assigned]
    cases b.read site <;> rfl
  | assign site e ih =>
    have hvalue := ih b
    rw [eval_assign, assigned, Bindings.defineAll_append, ← hvalue]
    cases hrun : e.eval b with
    | ok v b' =>
      rw [bind_of_ok hrun, finalState_ok]
      dsimp only
      by_cases hb : b'.Binds site.text
      · rw [store_of_binds hb, if_pos hb]
        rfl
      · rw [store_of_not_binds hb, if_neg hb]
        rfl
    | error err b' =>
      rw [bind_of_error hrun]
      rfl
  | unary op site e ih =>
    rw [assigned, ← ih b, eval, finalState_bind_ofExcept]
  | binary op site l r ihl ihr =>
    rw [assigned, Bindings.defineAll_append, ← ihl b, eval]
    cases hrun : l.eval b with
    | ok x b' =>
      rw [bind_of_ok hrun, finalState_bind_ofExcept]
      exact ihr b'
    | error err b' =>
      rw [bind_of_error hrun]
      rfl
  | ternary c question s colon f ihc ihs ihf =>
    rw [assigned, Bindings.defineAll_append, ← ihc b, eval]
    cases hrun : c.eval b with
    | ok v b' =>
      rw [bind_of_ok hrun]
      dsimp only
      split
      · exact ihs b'
      · exact ihf b'
    | error err b' =>
      rw [bind_of_error hrun]
      rfl

/-! ## Executions -/

/-- What has been printed between the two worlds is these lines, one for each of the steps that
print. -/
structure World.Prints (w : World) (steps : List Stmt) (lines : List String) (w' : World) :
    Prop where
  shows : List.Forall₂ Expr.Shows (steps.filterMap Stmt.printed?) lines
  added : w'.lines = w.lines ++ lines.toArray
  output : w'.output = w.output ++ unlines lines

theorem Runs.prints {w w' : World} {steps : List Stmt} {lines : List String} {b : Bindings}
    (h : Runs steps w.bindings lines b) (hlines : w'.lines = w.lines ++ lines.toArray) :
    w.Prints steps lines w' where
  shows := h.shows
  added := hlines
  output := by
    rw [World.output, World.output, hlines, Array.toList_append, unlines_append]

/-- Either all steps of a program complete, or it stops at one of them. -/
theorem Program.exec_cases (p : Program) (w : World) :
    (∃ lines b, Runs p.steps w.bindings lines b ∧
        p.exec w = .ok () ⟨b, w.lines ++ lines.toArray⟩) ∨
      ∃ stop err b, Stop.Of stop p.steps w.bindings err b ∧
        p.exec w = .error err ⟨b, w.lines ++ stop.lines.toArray⟩ := by
  rw [p.exec_eq_execAll_steps]
  rcases runs_or_stops (fun _ => isBlock_of_mem_stmtsSteps p) w.bindings with
    ⟨lines, b, h⟩ | ⟨stop, err, b, h⟩
  · exact .inl ⟨lines, b, h, h.exec w.lines⟩
  · exact .inr ⟨stop, err, b, h, h.exec rfl w.lines⟩

/-- **An execution stops exactly where it fails.** If it succeeds, all steps of the program have
completed, one after the other, and each that prints has printed its line. If it fails, there is
exactly one step that fails in the bindings which those before it leave when they complete. The
error is that of this step; of what is printed the step adds nothing, and to the bindings only the
assignments that are completed in its expression. What follows the step makes no difference. -/
theorem Program.exec_stops (p : Program) (w : World) :
    (∀ w', p.exec w = .ok () w' →
      ∃ lines, Runs p.steps w.bindings lines w'.bindings ∧ w.Prints p.steps lines w') ∧
    ∀ err w', p.exec w = .error err w' →
      ∃ stop : Stop, stop.Of p.steps w.bindings err w'.bindings ∧
        (∀ stop' err' b', Stop.Of stop' p.steps w.bindings err' b' →
          stop'.position = stop.position) ∧
        w.Prints (p.steps.take stop.position) stop.lines w' ∧
        (∃ e, stop.step.operand? = some e ∧
          w'.bindings = stop.bindings.defineAll (e.assigned stop.bindings)) ∧
        (∀ name, w'.bindings.Binds name ↔ stop.bindings.Binds name) ∧
        ∀ q : Program, q.steps.take (stop.position + 1) = p.steps.take (stop.position + 1) →
          q.exec w = .error err w' := by
  rcases p.exec_cases w with ⟨lines, b, hruns, hexec⟩ | ⟨stop, err, b, hstop, hexec⟩
  · rw [hexec]
    refine ⟨fun w' h => ?_, fun err w' h => by cases h⟩
    cases h
    exact ⟨lines, hruns, hruns.prints rfl⟩
  · rw [hexec]
    refine ⟨fun w' h => (by cases h), fun err' w' h => ?_⟩
    cases h
    obtain ⟨e, he, herror⟩ := hstop.fails
    have hfinal := e.finalState_eval stop.bindings
    have hbinds := Bindings.binds_of_rebinds (e.leads_eval stop.bindings)
    rw [herror] at hfinal hbinds
    refine ⟨stop, hstop, fun _ _ _ => hstop.position_eq, hstop.runs.prints rfl, ⟨e, he, hfinal⟩,
      hbinds, fun q hq => ?_⟩
    rw [q.exec_eq_execAll_steps]
    exact hstop.exec hq w.lines

/-- The program `{ var a; print a; } print (a = true) + nil; print a;`. -/
def Program.failsBehindBlock : Program :=
  [.block [.var ⟨"a", 6, 1⟩ none, .print (.name ⟨"a", 15, 1⟩)],
    .print (.binary .add ⟨"+", 37, 1⟩
      (.grouping (.assign ⟨"a", 27, 1⟩ (.literal (.bool true)))) (.literal .nil)),
    .print (.name ⟨"a", 49, 1⟩)]

/-- What it leaves at the beginning of a session. -/
def World.behindFailure : World := ⟨.define (.define ∅ "a" .nil) "a" (.bool true), #["nil"]⟩

/-- The sum fails behind the block, when `a` has been assigned to, and so does the program that has
nothing behind the sum and no braces before it. -/
theorem Program.exec_stops_failsBehindBlock :
    failsBehindBlock.exec .initial =
        .error ⟨.nonAddable (.bool true) .nil, ⟨"+", 37, 1⟩⟩ .behindFailure ∧
      Program.exec (failsBehindBlock.steps.take 3) .initial =
        .error ⟨.nonAddable (.bool true) .nil, ⟨"+", 37, 1⟩⟩ .behindFailure := by
  have hexec : failsBehindBlock.exec .initial =
      .error ⟨.nonAddable (.bool true) .nil, ⟨"+", 37, 1⟩⟩ .behindFailure := rfl
  -- What stands in the block succeeds, so it is a row of steps that complete.
  obtain ⟨lines, hblock, hprints⟩ :=
    (exec_stops (failsBehindBlock.steps.take 2) .initial).1
      ⟨.define ∅ "a" .nil, #["nil"]⟩ rfl
  have hlines : lines = ["nil"] := by
    have hadded := congrArg Array.toList hprints.added
    rw [Array.toList_append, List.toList_toArray] at hadded
    exact hadded.symm
  subst hlines
  have hsum : Stop.Of ⟨2, failsBehindBlock.steps[2], .define ∅ "a" .nil, ["nil"]⟩
      failsBehindBlock.steps ∅ ⟨.nonAddable (.bool true) .nil, ⟨"+", 37, 1⟩⟩
      World.behindFailure.bindings :=
    ⟨rfl, hblock, _, rfl, rfl⟩
  obtain ⟨stop, -, hunique, -, -, -, hothers⟩ := (exec_stops failsBehindBlock .initial).2 _ _ hexec
  refine ⟨hexec, hothers _ ?_⟩
  rw [← hunique _ _ _ hsum]
  rfl

end Lox
