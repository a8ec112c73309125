import Mathlib.Data.List.Forall2
import Lox.Proofs.Grammar.Moving
import Lox.Proofs.Scanning.Rendering
import Lox.Proofs.Session.History

/-!
# Layout does not matter

Two source texts may have the same tokens and differ in everything between them. Their tokens then
become equal when every lexeme forgets its place (`Lexeme.unplaced`). Forgetting a place is moving
a lexeme, to the beginning of nowhere, and what a session makes of moved tokens is known: the
parser from `Lox.Proofs.Grammar.Moving` and executions from `Lox.Proofs.Execution.Runs`. So both
texts are compared with the one that has no places, and through it with each other.
-/

set_option autoImplicit false

namespace Lox

/-- The lexeme without its place. -/
def Lexeme.unplaced (l : Lexeme) : Lexeme := ⟨l.text, 0, 0⟩

theorem Lexeme.keepsText_unplaced : KeepsText unplaced := fun _ => rfl

theorem Lexeme.unplaced_eq_iff {l l' : Lexeme} : l.unplaced = l'.unplaced ↔ l.text = l'.text := by
  simp [unplaced]

/-! ## What is compared -/

/-- Both source texts can be scanned, and they have tokens of the same kinds and texts. -/
structure SameTokens (source source' : String) : Prop where
  errors : (Scan.ofString source).errors = []
  errors' : (Scan.ofString source').errors = []
  tokens : (Scan.ofString source).tokens.map Token.written =
    (Scan.ofString source').tokens.map Token.written

/-- The two say the same about the same token, wherever it stands. -/
inductive Diagnostic.Agrees : Diagnostic → Diagnostic → Prop where
  | parse {fault : ParseFault} {found : Option TokenKind} {site site' : Lexeme}
    (h : site.text = site'.text) :
    Agrees (.parse ⟨fault, found, site⟩) (.parse ⟨fault, found, site'⟩)
  | runtime {fault : RuntimeFault} {site site' : Lexeme} (h : site.text = site'.text) :
    Agrees (.runtime ⟨fault, site⟩) (.runtime ⟨fault, site'⟩)

theorem Diagnostic.Agrees.message_eq {d d' : Diagnostic} (h : d.Agrees d') :
    d.message = d'.message := by
  cases h <;> rfl

/-- Two answers of the session `s` that are the same, with the same effect on its world, and with
reports that agree one by one. -/
structure Session.Agree {α : Type} (s : Session) (reply reply' : α × Session) : Prop where
  answer : reply.1 = reply'.1
  world : reply.2.world = reply'.2.world
  diagnostics : ∃ found found' : List Diagnostic,
    reply.2.diagnostics = s.diagnostics ++ found.toArray ∧
      reply'.2.diagnostics = s.diagnostics ++ found'.toArray ∧
      List.Forall₂ (fun d d' => d.Agrees d' ∧ d.message = d'.message) found found'

/-! ## Reading -/

theorem ParseError.agrees_of_mapSite {e e' : ParseError}
    (h : e.mapSite Lexeme.unplaced = e'.mapSite Lexeme.unplaced) :
    (Diagnostic.parse e).Agrees (.parse e') := by
  obtain ⟨fault, found, site⟩ := e
  obtain ⟨fault', found', site'⟩ := e'
  simp only [mapSite, ParseError.mk.injEq, Lexeme.unplaced_eq_iff] at h
  obtain ⟨rfl, rfl, htext⟩ := h
  exact .parse htext

theorem RuntimeError.agrees_of_mapSite {e e' : RuntimeError}
    (h : e.mapSite Lexeme.unplaced = e'.mapSite Lexeme.unplaced) :
    (Diagnostic.runtime e).Agrees (.runtime e') := by
  obtain ⟨fault, site⟩ := e
  obtain ⟨fault', site'⟩ := e'
  simp only [mapSite, RuntimeError.mk.injEq, Lexeme.unplaced_eq_iff] at h
  obtain ⟨rfl, htext⟩ := h
  exact .runtime htext

namespace SameTokens

variable {source source' : String}

theorem mapTokens_eq (h : SameTokens source source') :
    mapTokens Lexeme.unplaced (Scan.ofString source).tokens =
      mapTokens Lexeme.unplaced (Scan.ofString source').tokens := by
  have hunplaced (t : Token) :
      t.mapSite Lexeme.unplaced = ⟨t.written.1, t.written.2, 0, 0⟩ := rfl
  have hmap (ts : List Token) : mapTokens Lexeme.unplaced ts =
      (ts.map Token.written).map fun w => ⟨w.1, w.2, 0, 0⟩ := by
    simp [mapTokens, hunplaced]
  rw [hmap, hmap, h.tokens]

theorem finish_eq (source source' : String) :
    (Scan.ofString source).finish.unplaced = (Scan.ofString source').finish.unplaced := rfl

/-- Both are programs, and the same one but for places; or both are not, for the same reasons. -/
theorem program (h : SameTokens source source') :
    (∃ p p', ReadsAs source p ∧ ReadsAs source' p' ∧
        p.mapSites Lexeme.unplaced = p'.mapSites Lexeme.unplaced) ∨
      (staticErrors source ≠ [] ∧ staticErrors source' ≠ [] ∧
        List.Forall₂ Diagnostic.Agrees (staticErrors source) (staticErrors source')) := by
  have hparse := Program.parse_mapTokens Lexeme.unplaced (Scan.ofString source).finish
    (Scan.ofString source).tokens
  rw [h.mapTokens_eq, finish_eq source source', Program.parse_mapTokens] at hparse
  simp only [staticErrors, lexicalErrors, parseErrors, h.errors, h.errors', List.map_nil,
    List.nil_append]
  cases hread : Program.parse (Scan.ofString source).finish (Scan.ofString source).tokens with
  | ok p =>
    cases hread' : Program.parse (Scan.ofString source').finish
        (Scan.ofString source').tokens with
    | ok p' =>
      rw [hread, hread'] at hparse
      exact .inl ⟨p, p', ⟨h.errors, hread⟩, ⟨h.errors', hread'⟩, (Except.ok.inj hparse).symm⟩
    | error es' =>
      rw [hread, hread'] at hparse
      cases hparse
  | error es =>
    cases hread' : Program.parse (Scan.ofString source').finish
        (Scan.ofString source').tokens with
    | ok p' =>
      rw [hread, hread'] at hparse
      cases hparse
    | error es' =>
      rw [hread, hread'] at hparse
      have hne := (Program.parse_eq_error_iff.mp hread).2
      have hne' := (Program.parse_eq_error_iff.mp hread').2
      refine .inr ⟨mt List.map_eq_nil_iff.mp hne, mt List.map_eq_nil_iff.mp hne', ?_⟩
      have hagree : List.Forall₂ Eq (es.map (ParseError.mapSite Lexeme.unplaced))
          (es'.map (ParseError.mapSite Lexeme.unplaced)) := by
        rw [List.forall₂_eq_eq_eq]
        exact (Except.error.inj hparse).symm
      rw [List.forall₂_map_left_iff, List.forall₂_map_right_iff] at hagree ⊢
      exact hagree.imp fun _ _ => ParseError.agrees_of_mapSite

theorem expression (h : SameTokens source source') :
    (∃ e e', Session.ReadsAsExpr source e ∧ Session.ReadsAsExpr source' e' ∧
        e.mapSites Lexeme.unplaced = e'.mapSites Lexeme.unplaced) ∨
      (Session.expressionErrors source ≠ [] ∧ Session.expressionErrors source' ≠ [] ∧
        List.Forall₂ Diagnostic.Agrees (Session.expressionErrors source)
          (Session.expressionErrors source')) := by
  have hparse := Expr.parse_mapTokens Lexeme.unplaced (Scan.ofString source).finish
    (Scan.ofString source).tokens
  rw [h.mapTokens_eq, finish_eq source source', Expr.parse_mapTokens] at hparse
  have hlexical := lexicalErrors_eq_nil_iff.mpr h.errors
  have hlexical' := lexicalErrors_eq_nil_iff.mpr h.errors'
  simp only [Session.expressionErrors, hlexical, hlexical', if_true]
  cases hread : Expr.parse (Scan.ofString source).finish (Scan.ofString source).tokens with
  | ok e =>
    cases hread' : Expr.parse (Scan.ofString source').finish (Scan.ofString source').tokens with
    | ok e' =>
      rw [hread, hread'] at hparse
      exact .inl ⟨e, e', ⟨hlexical, hread⟩, ⟨hlexical', hread'⟩, (Except.ok.inj hparse).symm⟩
    | error err' =>
      rw [hread, hread'] at hparse
      cases hparse
  | error err =>
    cases hread' : Expr.parse (Scan.ofString source').finish (Scan.ofString source').tokens with
    | ok e' =>
      rw [hread, hread'] at hparse
      cases hparse
    | error err' =>
      rw [hread, hread'] at hparse
      have hagree := ParseError.agrees_of_mapSite (Except.error.inj hparse).symm
      exact .inr ⟨List.cons_ne_nil _ _, List.cons_ne_nil _ _, .cons hagree .nil⟩

end SameTokens

/-! ## Executing -/

/-- What two computations come to if they follow the same one: the same value in the same state,
or the same fault in the same state. -/
theorem movedOutcome_eq_cases {σ α : Type} {x x' : EStateM.Result RuntimeError σ α}
    (h : movedOutcome Lexeme.unplaced x = movedOutcome Lexeme.unplaced x') :
    (∃ a s, x = .ok a s ∧ x' = .ok a s) ∨
      ∃ e e' s, x = .error e s ∧ x' = .error e' s ∧
        (Diagnostic.runtime e).Agrees (.runtime e') := by
  cases x with
  | ok a s =>
    cases x' with
    | ok a' s' =>
      cases h
      exact .inl ⟨a, s, rfl, rfl⟩
    | error e' s' => cases h
  | error e s =>
    cases x' with
    | ok a' s' => cases h
    | error e' s' =>
      obtain ⟨he, rfl⟩ := EStateM.Result.error.inj h
      exact .inr ⟨e, e', s, rfl, rfl, RuntimeError.agrees_of_mapSite he⟩

namespace Session

variable {source source' : String} {α : Type} {s : Session}

theorem agree_of_errors {answer : α} {found found' : List Diagnostic}
    (h : List.Forall₂ Diagnostic.Agrees found found') :
    Agree s (answer, s.report found) (answer, s.report found') :=
  ⟨rfl, by simp, found, found', diagnostics_report .., diagnostics_report ..,
    h.imp fun _ _ hagree => ⟨hagree, hagree.message_eq⟩⟩

theorem agree_ofOutcome {x x' : EStateM.Result RuntimeError World Unit}
    (h : movedOutcome Lexeme.unplaced x = movedOutcome Lexeme.unplaced x') :
    Agree s (s.ofOutcome x) (s.ofOutcome x') := by
  rcases movedOutcome_eq_cases h with ⟨u, w, rfl, rfl⟩ | ⟨e, e', w, rfl, rfl, hagree⟩
  · exact ⟨rfl, rfl, [], [], by simp [ofOutcome], by simp [ofOutcome], .nil⟩
  · exact ⟨rfl, rfl, [.runtime e], [.runtime e'], rfl, rfl,
      .cons ⟨hagree, hagree.message_eq⟩ .nil⟩

theorem agree_ofEvaluation {x x' : EStateM.Result RuntimeError World Value}
    (h : movedOutcome Lexeme.unplaced x = movedOutcome Lexeme.unplaced x') :
    Agree s (s.ofEvaluation x) (s.ofEvaluation x') := by
  rcases movedOutcome_eq_cases h with ⟨v, w, rfl, rfl⟩ | ⟨e, e', w, rfl, rfl, hagree⟩
  · exact ⟨rfl, rfl, [], [], by simp [ofEvaluation], by simp [ofEvaluation], .nil⟩
  · exact ⟨rfl, rfl, [.runtime e], [.runtime e'], rfl, rfl,
      .cons ⟨hagree, hagree.message_eq⟩ .nil⟩

/-- **Layout does not matter.** Two source texts with the same tokens are run with the same status,
the same output and the same effect on the bindings, and evaluated to the same value. What is
reported agrees one by one: the same is said about the same token, and only the place is another.
-/
theorem layout_agree (s : Session) {source source' : String} (h : SameTokens source source') :
    Agree s (s.run source) (s.run source') ∧ Agree s (s.evaluate source) (s.evaluate source') := by
  have hplaces := Lexeme.keepsText_unplaced
  constructor
  · rcases h.program with ⟨p, p', hp, hp', hsites⟩ | ⟨hne, hne', hagree⟩
    · rw [run_of_readsAs s hp, run_of_readsAs s hp']
      apply agree_ofOutcome
      rw [← p.exec_mapSites hplaces s.world, ← p'.exec_mapSites hplaces s.world, hsites]
    · rw [run_of_staticErrors s hne, run_of_staticErrors s hne']
      exact agree_of_errors hagree
  · rcases h.expression with ⟨e, e', he, he', hsites⟩ | ⟨hne, hne', hagree⟩
    · rw [evaluate_of_readsAsExpr s he, evaluate_of_readsAsExpr s he']
      apply agree_ofEvaluation
      rw [← e.evalIn_mapSites hplaces s.world, ← e'.evalIn_mapSites hplaces s.world, hsites]
    · rw [evaluate_of_expressionErrors s hne, evaluate_of_expressionErrors s hne']
      exact agree_of_errors hagree

/-- A program that fails and an expression that does, each of them on one line and on several. -/
theorem layout_agree_print :
    (SameTokens "var a=2;print a;print-nil;" "var a = 2; // two\nprint a;\nprint -/* no */nil;" ∧
      Agree initial (initial.run "var a=2;print a;print-nil;")
        (initial.run "var a = 2; // two\nprint a;\nprint -/* no */nil;")) ∧
    SameTokens "(1+2)<nil" "(1 /* one */ + 2) // three\n\t< nil" ∧
      Agree initial (initial.evaluate "(1+2)<nil")
        (initial.evaluate "(1 /* one */ + 2) // three\n\t< nil") := by
  have hprogram : SameTokens "var a=2;print a;print-nil;"
      "var a = 2; // two\nprint a;\nprint -/* no */nil;" :=
    ⟨by decide +kernel, by decide +kernel, by decide +kernel⟩
  have hexpr : SameTokens "(1+2)<nil" "(1 /* one */ + 2) // three\n\t< nil" :=
    ⟨by decide +kernel, by decide +kernel, by decide +kernel⟩
  exact ⟨⟨hprogram, (initial.layout_agree hprogram).1⟩, hexpr, (initial.layout_agree hexpr).2⟩

end Session

end Lox
