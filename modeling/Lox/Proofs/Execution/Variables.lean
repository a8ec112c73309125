import Lox.Eval
import Lox.Proofs.Execution.Computations

/-!
# Which variables a program touches

An execution looks at the variables that the program mentions, and at no others; and it changes
those that the program assigns to or declares, and no others (`Program.exec_touches`).

Everything that an expression can do to the bindings is said once (`Expr.leads_eval`): it rebinds
variables that are bound, one after the other. Whether it then fails or not makes no difference.
-/

set_option autoImplicit false

namespace Lox

/-! ## Names in trees -/

/-- The names that an expression reads or assigns to. -/
def Expr.names : Expr → List String
  | .literal _ => []
  | .grouping e => e.names
  | .name site => [site.text]
  | .assign site e => site.text :: e.names
  | .unary _ _ e => e.names
  | .binary _ _ l r => l.names ++ r.names
  | .ternary c _ s _ f => c.names ++ s.names ++ f.names

/-- The names that an expression assigns to. -/
def Expr.targets : Expr → List String
  | .literal _ => []
  | .grouping e => e.targets
  | .name _ => []
  | .assign site e => site.text :: e.targets
  | .unary _ _ e => e.targets
  | .binary _ _ l r => l.targets ++ r.targets
  | .ternary c _ s _ f => c.targets ++ s.targets ++ f.targets

mutual

/-- The names that a statement reads, assigns to or declares. -/
def Stmt.names : Stmt → List String
  | .expression e => e.names
  | .print e => e.names
  | .var site none => [site.text]
  | .var site (some e) => site.text :: e.names
  | .block body => stmtsNames body

def stmtsNames : List Stmt → List String
  | [] => []
  | s :: rest => s.names ++ stmtsNames rest

end

mutual

/-- The names that a statement assigns to or declares. -/
def Stmt.targets : Stmt → List String
  | .expression e => e.targets
  | .print e => e.targets
  | .var site none => [site.text]
  | .var site (some e) => site.text :: e.targets
  | .block body => stmtsTargets body

def stmtsTargets : List Stmt → List String
  | [] => []
  | s :: rest => s.targets ++ stmtsTargets rest

end

/-- The names that a program reads, assigns to or declares. -/
def Program.names (p : Program) : List String := stmtsNames p

/-- The names that a program assigns to or declares. -/
def Program.targets (p : Program) : List String := stmtsTargets p

/-- An assignment mentions its target, so what is assigned to is among the names. -/
theorem Expr.mem_names_of_mem_targets {name : String} {e : Expr} (h : name ∈ e.targets) :
    name ∈ e.names := by
  induction e with
  | literal v => simp [targets] at h
  | grouping e ih => exact ih h
  | name site => simp [targets] at h
  | assign site e ih =>
    simp only [targets, names, List.mem_cons] at h ⊢
    exact h.imp_right ih
  | unary op site e ih => exact ih h
  | binary op site l r ihl ihr =>
    simp only [targets, names, List.mem_append] at h ⊢
    exact h.imp ihl ihr
  | ternary c question s colon r ihc ihs ihr =>
    simp only [targets, names, List.mem_append] at h ⊢
    exact h.imp (Or.imp ihc ihs) ihr

mutual

theorem Stmt.mem_names_of_mem_targets {name : String} :
    (s : Stmt) → name ∈ s.targets → name ∈ s.names
  | .expression e, h => by
    simp only [Stmt.targets, Stmt.names] at h ⊢
    exact Expr.mem_names_of_mem_targets h
  | .print e, h => by
    simp only [Stmt.targets, Stmt.names] at h ⊢
    exact Expr.mem_names_of_mem_targets h
  | .var site none, h => by simpa only [Stmt.targets, Stmt.names] using h
  | .var site (some e), h => by
    simp only [Stmt.targets, Stmt.names, List.mem_cons] at h ⊢
    exact h.imp_right Expr.mem_names_of_mem_targets
  | .block body, h => by
    simp only [Stmt.targets, Stmt.names] at h ⊢
    exact mem_stmtsNames_of_mem_stmtsTargets body h

theorem mem_stmtsNames_of_mem_stmtsTargets {name : String} :
    (body : List Stmt) → name ∈ stmtsTargets body → name ∈ stmtsNames body
  | [], h => by simp [stmtsTargets] at h
  | s :: rest, h => by
    simp only [stmtsTargets, stmtsNames, List.mem_append] at h ⊢
    exact h.imp s.mem_names_of_mem_targets (mem_stmtsNames_of_mem_stmtsTargets rest)

end

/-! ## Single variables

An expression gets at the bindings in two places only, where it reads a variable and where it
assigns to one. -/

/-- Looks up the variable that a lexeme names. -/
def fetch (site : Lexeme) : EStateM RuntimeError Bindings Value := do
  ofExcept ((← get).read site)

/-- Assigns a value that has been computed to the variable that a lexeme names. -/
def store (site : Lexeme) (v : Value) : EStateM RuntimeError Bindings Value := do
  set (← ofExcept ((← get).write site v))
  return v

/-- A variable that is evaluated is looked up. -/
theorem Expr.eval_name (site : Lexeme) : (Expr.name site).eval = fetch site := rfl

/-- The value of an assignment is computed before its target is looked at. -/
theorem Expr.eval_assign (site : Lexeme) (e : Expr) :
    (Expr.assign site e).eval = e.eval >>= store site := rfl

namespace Bindings

/-- Whether a variable is bound. -/
def Binds (b : Bindings) (name : String) : Prop := b.get? name ≠ none

instance (b : Bindings) (name : String) : Decidable (b.Binds name) :=
  inferInstanceAs (Decidable (b.get? name ≠ none))

/-- A definition binds its name, and no name is ever released. -/
theorem binds_define {b : Bindings} {name other : String} {v : Value} :
    (b.define name v).Binds other ↔ b.Binds other ∨ other = name := by
  by_cases h : other = name <;> simp [Binds, get?_define, h]

end Bindings

section

variable {b : Bindings} {site : Lexeme}

theorem fetch_apply : fetch site b = (ofExcept (b.read site) : EStateM _ Bindings Value) b := rfl

theorem store_apply (v : Value) :
    store site v b =
      ((ofExcept (b.write site v) : EStateM _ Bindings Bindings) >>= fun b' => do
        set b'
        return v) b := rfl

/-- A variable that is bound is read, and reading changes nothing. -/
theorem fetch_of_get? {v : Value} (h : b.get? site.text = some v) : fetch site b = .ok v b := by
  rw [fetch_apply, Bindings.read.eq_def, h]
  rfl

/-- The error names the variable and the place where it was read. -/
theorem fetch_of_not_binds (h : ¬ b.Binds site.text) :
    fetch site b = .error ⟨.undefinedVariable site.text, site⟩ b := by
  rw [fetch_apply, Bindings.read.eq_def, Classical.not_not.mp h]
  rfl

/-- An assignment to a bound variable has the assigned value for its own. -/
theorem store_of_binds (h : b.Binds site.text) (v : Value) :
    store site v b = .ok v (b.define site.text v) := by
  rw [store_apply, Bindings.write.eq_def, Bindings.assign?,
    if_pos (Option.isSome_iff_ne_none.mpr h)]
  rfl

/-- An assignment never binds a new variable: it fails as reading does. -/
theorem store_of_not_binds (h : ¬ b.Binds site.text) (v : Value) :
    store site v b = .error ⟨.undefinedVariable site.text, site⟩ b := by
  rw [store_apply, Bindings.write.eq_def,
    Bindings.assign?_eq_none_iff.mpr (Classical.not_not.mp h)]
  rfl

end

/-! ## What expressions do to the bindings -/

namespace Bindings

/-- One of the variables `names` is bound, and is bound to something else. -/
def Rebinds (names : List String) (b b' : Bindings) : Prop :=
  ∃ name ∈ names, b.Binds name ∧ ∃ v, b' = b.define name v

/-- One of the variables `names` is bound to something, whether it was bound before or not. -/
def Defines (names : List String) (b b' : Bindings) : Prop :=
  ∃ name ∈ names, ∃ v, b' = b.define name v

variable {names names' : List String} {b b' : Bindings}

theorem Rebinds.mono (h : names ⊆ names') (hb : Rebinds names b b') : Rebinds names' b b' := by
  obtain ⟨name, hmem, hstep⟩ := hb
  exact ⟨name, h hmem, hstep⟩

theorem Defines.mono (h : names ⊆ names') (hb : Defines names b b') : Defines names' b b' := by
  obtain ⟨name, hmem, hstep⟩ := hb
  exact ⟨name, h hmem, hstep⟩

/-- To bind a bound variable anew is one way of binding it. -/
theorem Rebinds.defines (hb : Rebinds names b b') : Defines names b b' := by
  obtain ⟨name, hmem, -, hstep⟩ := hb
  exact ⟨name, hmem, hstep⟩

/-- However often variables are rebound, the same ones are bound. -/
theorem binds_of_rebinds (h : Relation.ReflTransGen (Rebinds names) b b') (name : String) :
    b'.Binds name ↔ b.Binds name := by
  induction h with
  | refl => rfl
  | tail _ hstep ih =>
    obtain ⟨target, -, hbound, v, rfl⟩ := hstep
    have hkept : name = target → Binds _ name := fun heq => heq ▸ hbound
    rw [binds_define, or_iff_left_of_imp hkept, ih]

/-- A variable that is none of those being bound keeps its value. -/
theorem get?_of_defines (h : Relation.ReflTransGen (Defines names) b b') {name : String}
    (hname : name ∉ names) : b'.get? name = b.get? name := by
  induction h with
  | refl => rfl
  | tail _ hstep ih =>
    obtain ⟨target, hmem, v, rfl⟩ := hstep
    have hne : name ≠ target := fun heq => hname (heq ▸ hmem)
    rw [get?_define, if_neg hne, ih]

/-- Each of the variables `names` has the same value in both, or none in either. -/
def AgreeOn (names : List String) (b b' : Bindings) : Prop :=
  ∀ name ∈ names, b.get? name = b'.get? name

/-- The same definition in both leaves them in agreement, even if the name was not among those they
agreed on. -/
theorem AgreeOn.define (h : AgreeOn names b b') (name : String) (v : Value) :
    AgreeOn names (b.define name v) (b'.define name v) := by
  intro other hother
  rw [get?_define, get?_define, h other hother]

theorem AgreeOn.binds_iff (h : AgreeOn names b b') {name : String} (hname : name ∈ names) :
    b.Binds name ↔ b'.Binds name := by
  rw [Binds, Binds, h name hname]

end Bindings

open Bindings (Rebinds Defines AgreeOn)

section

variable {site : Lexeme} {names : List String}

theorem leads_fetch : Leads id (Rebinds names) (fetch site) := by
  intro b
  rw [fetch_apply]
  exact leads_ofExcept _ b

/-- An assignment does one step of rebinding, or fails and does none. -/
theorem leads_store (h : site.text ∈ names) (v : Value) :
    Leads id (Rebinds names) (store site v) := by
  intro b
  by_cases hb : b.Binds site.text
  · rw [store_of_binds hb]
    exact .single ⟨site.text, h, hb, v, rfl⟩
  · -- An assignment that fails has not changed anything.
    rw [store_of_not_binds hb]
    exact .refl

/-- What a variable is looked up to be depends on that variable alone. -/
theorem respects_fetch (h : site.text ∈ names) : Respects (AgreeOn names) (fetch site) := by
  intro b b' hagree
  cases hb : b.get? site.text with
  | none =>
    have hnot : ¬ b.Binds site.text := fun hbinds => hbinds hb
    rw [fetch_of_not_binds hnot, fetch_of_not_binds (mt (hagree.binds_iff h).mpr hnot)]
    exact .error _ hagree
  | some v =>
    rw [fetch_of_get? hb, fetch_of_get? (hagree _ h ▸ hb)]
    exact .ok v hagree

/-- An assignment looks at its target only, to see whether it is bound. -/
theorem respects_store (h : site.text ∈ names) (v : Value) :
    Respects (AgreeOn names) (store site v) := by
  intro b b' hagree
  have hiff := hagree.binds_iff h
  by_cases hb : b.Binds site.text
  · rw [store_of_binds hb, store_of_binds (hiff.mp hb)]
    exact .ok v (hagree.define _ v)
  · rw [store_of_not_binds hb, store_of_not_binds (mt hiff.mpr hb)]
    exact .error _ hagree

end

namespace Expr

/-- An evaluation, whether it fails or not, rebinds targets of the expression and does nothing
else. -/
theorem leads_eval (e : Expr) : Leads id (Rebinds e.targets) e.eval := by
  induction e with
  | literal v => exact leads_pure v
  | grouping e ih => exact ih
  | name site => exact leads_fetch
  | assign site e ih =>
    rw [eval_assign]
    refine Leads.bind (ih.mono fun _ _ => .mono (by simp [targets])) fun v => ?_
    exact leads_store (by simp [targets]) v
  | unary op site e ih => exact ih.bind fun v => leads_ofExcept _
  | binary op site l r ihl ihr =>
    refine Leads.bind (ihl.mono fun _ _ => .mono (by simp [targets])) fun a => ?_
    refine Leads.bind (ihr.mono fun _ _ => .mono (by simp [targets])) fun b => ?_
    exact leads_ofExcept _
  | ternary c question s colon r ihc ihs ihr =>
    refine Leads.bind (ihc.mono fun _ _ => .mono (by simp [targets])) fun v => ?_
    split
    · exact ihs.mono fun _ _ => .mono (by simp [targets])
    · exact ihr.mono fun _ _ => .mono (by simp [targets])

/-- An evaluation depends on the names in the expression only. -/
theorem respects_eval {names : List String} (e : Expr) (h : e.names ⊆ names) :
    Respects (AgreeOn names) e.eval := by
  induction e with
  | literal v => exact respects_pure v
  | grouping e ih => exact ih h
  | name site => exact respects_fetch (h (by simp [Expr.names]))
  | assign site e ih =>
    rw [eval_assign]
    simp only [Expr.names, List.cons_subset] at h
    exact (ih h.2).bind fun v => respects_store h.1 v
  | unary op site e ih => exact (ih h).bind fun v => respects_ofExcept _
  | binary op site l r ihl ihr =>
    simp only [Expr.names, List.append_subset] at h
    exact (ihl h.1).bind fun a => (ihr h.2).bind fun b => respects_ofExcept _
  | ternary c question s colon r ihc ihs ihr =>
    simp only [Expr.names, List.append_subset] at h
    -- The condition has the same value in both, so it is the same branch that is evaluated.
    refine (ihc h.1.1).bind fun v => ?_
    split
    · exact ihs h.1.2
    · exact ihr h.2

end Expr

/-! ## What programs do to the bindings -/

/-- Two worlds that began with the lines `before` and `before'`. The same has been printed since in
both, and each of the variables `names` has the same value in both, or none in either. -/
structure World.Alike (names : List String) (before before' : Array String) (w w' : World) :
    Prop where
  bindings : AgreeOn names w.bindings w'.bindings
  lines : ∃ printed, w.lines = before ++ printed ∧ w'.lines = before' ++ printed

/-- Worlds that agree are alike at the beginning, when nothing has been printed yet. -/
theorem World.alike_refl {names : List String} {w w' : World}
    (h : AgreeOn names w.bindings w'.bindings) : Alike names w.lines w'.lines w w' :=
  ⟨h, #[], by simp⟩

/-- An expression leaves the lines alone, also when it fails. -/
theorem Expr.finalState_evalIn (e : Expr) (w : World) :
    finalState (e.evalIn w) = { w with bindings := finalState (e.eval w.bindings) } := by
  unfold evalIn
  cases e.eval w.bindings <;> rfl

section

variable {names : List String} {before before' : Array String}

/-- In a world, too, an expression does no more than to bind its targets. -/
theorem Expr.leads_evalIn (e : Expr) : Leads World.bindings (Defines e.targets) e.evalIn := by
  intro w
  rw [e.finalState_evalIn]
  exact (e.leads_eval.mono fun _ _ => Bindings.Rebinds.defines) w.bindings

theorem Expr.respects_evalIn (e : Expr) (h : e.names ⊆ names) :
    Respects (World.Alike names before before') e.evalIn := by
  intro w w' hw
  have hsame := e.respects_eval h w.bindings w'.bindings hw.bindings
  unfold evalIn
  generalize e.eval w.bindings = r, e.eval w'.bindings = r' at hsame
  cases hsame with
  | ok v hb => exact .ok v ⟨hb, hw.lines⟩
  | error err hb => exact .error err ⟨hb, hw.lines⟩

theorem leads_define {site : Lexeme} (h : site.text ∈ names) (v : Value) :
    Leads World.bindings (Defines names)
      (modify fun w => { w with bindings := w.bindings.define site.text v } :
        EStateM RuntimeError World PUnit) :=
  leads_modify fun _ => .single ⟨site.text, h, v, rfl⟩

theorem respects_define (site : Lexeme) (v : Value) :
    Respects (World.Alike names before before')
      (modify fun w => { w with bindings := w.bindings.define site.text v } :
        EStateM RuntimeError World PUnit) :=
  respects_modify fun _ _ h => ⟨h.bindings.define _ v, h.lines⟩

/-- The same line is added in both, so the same lines have been printed since. -/
theorem respects_push (text : String) :
    Respects (World.Alike names before before')
      (modify fun w => { w with lines := w.lines.push text } :
        EStateM RuntimeError World PUnit) := by
  refine respects_modify fun w w' h => ⟨h.bindings, ?_⟩
  obtain ⟨printed, hw, hw'⟩ := h.lines
  exact ⟨printed.push text, by simp [hw], by simp [hw']⟩

mutual

/-- A statement binds its targets, by assignments and by declarations, and nothing else. -/
theorem Stmt.leads_exec : (s : Stmt) → Leads World.bindings (Defines s.targets) s.exec
  | .expression e => by
    unfold Stmt.exec Stmt.targets
    exact e.leads_evalIn.bind fun _ => leads_pure ()
  | .print e => by
    unfold Stmt.exec Stmt.targets
    exact e.leads_evalIn.bind fun v => leads_modify fun _ => .refl
  | .var site none => by
    unfold Stmt.exec Stmt.targets
    exact (leads_pure Value.nil).bind fun v => leads_define (by simp) v
  | .var site (some e) => by
    unfold Stmt.exec Stmt.targets
    exact (e.leads_evalIn.mono fun _ _ => .mono (by simp)).bind fun v => leads_define (by simp) v
  | .block body => by
    unfold Stmt.exec Stmt.targets
    exact leads_execAll body

theorem leads_execAll :
    (body : List Stmt) → Leads World.bindings (Defines (stmtsTargets body)) (execAll body)
  | [] => leads_pure ()
  | s :: rest => by
    unfold execAll stmtsTargets
    refine Leads.bind (s.leads_exec.mono fun _ _ => .mono (by simp)) fun _ => ?_
    exact (leads_execAll rest).mono fun _ _ => .mono (by simp)

end

mutual

/-- A statement does alike in worlds that are alike on the names in it. -/
theorem Stmt.respects_exec :
    (s : Stmt) → s.names ⊆ names → Respects (World.Alike names before before') s.exec
  | .expression e, h => by
    unfold Stmt.names at h
    unfold Stmt.exec
    exact (e.respects_evalIn h).bind fun _ => respects_pure ()
  | .print e, h => by
    unfold Stmt.names at h
    unfold Stmt.exec
    exact (e.respects_evalIn h).bind fun v => respects_push v.text
  | .var site none, h => by
    unfold Stmt.exec
    exact (respects_pure Value.nil).bind fun v => respects_define site v
  | .var site (some e), h => by
    unfold Stmt.names at h
    unfold Stmt.exec
    exact (e.respects_evalIn (List.cons_subset.mp h).2).bind fun v => respects_define site v
  | .block body, h => by
    unfold Stmt.names at h
    unfold Stmt.exec
    exact respects_execAll body h

theorem respects_execAll :
    (body : List Stmt) → stmtsNames body ⊆ names →
      Respects (World.Alike names before before') (execAll body)
  | [], _ => respects_pure ()
  | s :: rest, h => by
    unfold stmtsNames at h
    have hparts := List.append_subset.mp h
    unfold execAll
    exact (s.respects_exec hparts.1).bind fun _ => respects_execAll rest hparts.2

end

end

namespace Program

/-- **Executions touch the variables that are mentioned.** A program does the same in two worlds
that agree on the names in it: it ends in the same way, prints the same, and leaves the worlds in
agreement. And whether it fails or not, all variables but its targets are left alone. -/
theorem exec_touches (p : Program) :
    (∀ name ∈ p.targets, name ∈ p.names) ∧
      (∀ w w' : World, AgreeOn p.names w.bindings w'.bindings →
        SameResult (World.Alike p.names w.lines w'.lines) (p.exec w) (p.exec w')) ∧
      ∀ (w : World) (name : String), name ∉ p.targets →
        (finalState (p.exec w)).bindings.get? name = w.bindings.get? name := by
  refine ⟨fun _ => mem_stmtsNames_of_mem_stmtsTargets p, ?_, ?_⟩
  · intro w w' h
    exact respects_execAll p (List.Subset.refl _) w w' (World.alike_refl h)
  · intro w name h
    exact Bindings.get?_of_defines (leads_execAll p w) h

/-- The program `a = b; print c;`. -/
def assignThenPrint : Program :=
  [.expression (.assign ⟨"a", 0, 1⟩ (.name ⟨"b", 4, 1⟩)), .print (.name ⟨"c", 13, 1⟩)]

/-- Worlds in which `c` is not bound. -/
def beforeAssign : World := ⟨.define (.define ∅ "a" .nil) "b" (.bool true), #[]⟩

def beforeAssign' : World := ⟨beforeAssign.bindings.define "d" .nil, #["nil"]⟩

/-- The program fails, when it has assigned to `a`, and where it cannot see `d` no less. -/
theorem exec_touches_assignThenPrint :
    AgreeOn assignThenPrint.names beforeAssign.bindings beforeAssign'.bindings ∧
      SameResult (World.Alike assignThenPrint.names beforeAssign.lines beforeAssign'.lines)
        (assignThenPrint.exec beforeAssign) (assignThenPrint.exec beforeAssign') ∧
      "b" ∉ assignThenPrint.targets ∧
      (finalState (assignThenPrint.exec beforeAssign)).bindings.get? "b" =
        beforeAssign.bindings.get? "b" := by
  have hagree : AgreeOn assignThenPrint.names beforeAssign.bindings beforeAssign'.bindings := by
    intro name hname
    have hne : name ≠ "d" := by
      rintro rfl
      simp [assignThenPrint, names, stmtsNames, Stmt.names, Expr.names] at hname
    rw [beforeAssign', Bindings.get?_define, if_neg hne]
  have htarget : "b" ∉ assignThenPrint.targets := by
    simp [assignThenPrint, targets, stmtsTargets, Stmt.targets, Expr.targets]
  exact ⟨hagree, (exec_touches assignThenPrint).2.1 _ _ hagree, htarget,
    (exec_touches assignThenPrint).2.2 _ "b" htarget⟩

end Program

end Lox
