import Lox.Proofs.Grammar.Moving
import Lox.Proofs.Scanning.Rendering
import Lox.Proofs.Session.Names

/-!
# Evaluating and printing

There are two ways to have an expression computed. It can be evaluated, or it can be printed by a
program that consists of one statement. They share the scanner, the grammar and the evaluation, but
get there by different ways: where an evaluation reads one expression and does not look at what is
behind it, a program has to go on up to the end. For a source text that is one expression they do
the same (`Session.printing_agrees`).

What has to be seen is that the semicolon makes no difference to the expression before it. Where
the expression is right the semicolon ends it; and where something is wrong a semicolon does not
make it right, since no expression has one.
-/

set_option autoImplicit false

namespace Lox

/-! ## The tokens of the program -/

/-- A program that prints an expression. The semicolon is on a line of its own, lest it be taken for
a part of a comment. -/
def printing (source : String) : String := "print " ++ source ++ "\n;"

/-- What stands before the expression. -/
def printText : List Char := ['p', 'r', 'i', 'n', 't', ' ']

/-- The word that begins the program. -/
def printToken : Token := ⟨.keyword .printWord, ⟨"print", 0, 1⟩⟩

theorem items_print (source : String) :
    (Scan.ofString ("print " ++ source)).items =
      .token printToken :: (Scan.ofString source).items.map (·.behind printText) := by
  obtain ⟨word, hkind, hchars⟩ := exists_tokenText_of_spells (.keyword .printWord)
  have hword : word.chars = ['p', 'r', 'i', 'n', 't'] := by simp [hchars, Keyword.text]
  have hsource : ("print " ++ source).toList = word.chars ++ ' ' :: source.toList := by
    simp [hword]
  have hblank : ∀ c ∈ (' ' :: source.toList).head?, isBlankChar c = true := by simp [isBlankChar]
  have hspace : Piece.cut ' ' ([] ++ source.toList) = (.blank, 0) := cut_of_isBlankChar rfl _
  calc
    (Scan.ofString ("print " ++ source)).items
        = scanFrom .origin (word.chars ++ ' ' :: source.toList) := by
      rw [Scan.ofString, hsource]
    _ = .token ⟨word.kind, .ofChars .origin word.chars⟩ ::
          scanFrom (Place.origin.after word.chars) (' ' :: source.toList) :=
      scanFrom_tokenText word .origin hblank
    _ = .token printToken :: scanFrom ((Place.origin.after word.chars).after [' '])
          source.toList := by
      rw [hkind, hword]
      exact congrArg _ (scanFrom_blank _ hspace)
    _ = .token printToken :: (Scan.ofString source).items.map (·.behind printText) := by
      rw [← Place.after_append, hword]
      exact congrArg _ (scanFrom_after .origin printText source.toList)

/-- Behind the word stand the tokens of the expression, and behind them the semicolon. -/
theorem scan_printing {source : String} (h : (Scan.ofString source).errors = []) :
    (Scan.ofString (printing source)).errors = [] ∧
      ∃ semicolon, semicolon.kind = .symbol .semicolon ∧
        (Scan.ofString (printing source)).tokens = printToken ::
          ((Scan.ofString source).tokens.map (·.mapSite (.behind printText)) ++ [semicolon]) := by
  have hprint : (Scan.ofString ("print " ++ source)).errors = [] := by
    rw [Scan.errors, items_print, List.filterMap_cons_none rfl, List.filterMap_map]
    simp only [Function.comp_def, ScanItem.error?_behind, ← List.map_filterMap]
    rw [← Scan.errors, h, List.map_nil]
  have htokens : (Scan.ofString ("print " ++ source)).tokens =
      printToken :: (Scan.ofString source).tokens.map (·.mapSite (.behind printText)) := by
    have hfirst : (ScanItem.token printToken).token? = some printToken := rfl
    rw [Scan.tokens, items_print, List.filterMap_cons_some hfirst, List.filterMap_map]
    simp only [Function.comp_def, ScanItem.token?_behind, ← List.map_filterMap]
    rfl
  have hsource : printing source = "print " ++ source ++ "\n" ++ ";" := by
    simp [printing, String.append_assoc]
  have hend : (Scan.ofString ";").errors = [] ∧
      (Scan.ofString ";").tokens = [⟨.symbol .semicolon, ⟨";", 0, 1⟩⟩] := by decide +kernel
  rw [hsource]
  refine ⟨Scan.errors_line_end hprint hend.1,
    Token.behind ("print " ++ source ++ "\n").toList ⟨.symbol .semicolon, ⟨";", 0, 1⟩⟩, rfl, ?_⟩
  rw [Scan.tokens_line_end ";" hprint, htokens, hend.2]
  rfl

/-! ## The tree of the program -/

/-- Where the text is one expression, the program prints that expression. -/
theorem parse_print {finish finish' : Lexeme} {ts : List Token} {e : Expr} {semicolon : Token}
    {f : Lexeme → Lexeme} (h : Grammar.expression.run finish ts = .ok e [])
    (hs : semicolon.kind = .symbol .semicolon) :
    Program.parse finish' (printToken :: (ts.map (·.mapSite f) ++ [semicolon])) =
      .ok [.print (e.mapSites f)] := by
  obtain ⟨used, hused, hread⟩ := (Grammar.inner_sound _).expression _ _ _ _ h
  obtain rfl : ts = used := by simpa using hused
  have hprint : Stmt.Reading Grammar.nestingLimit (.print (e.mapSites f))
      (printToken :: (ts.map (·.mapSite f) ++ [semicolon])) :=
    .print rfl (hread.mapSites f) hs
  apply Program.parse_of_reading
  simpa using StmtsReading.cons hprint .nil

/-- A program that begins with the word goes on with an expression. Behind it there is a semicolon,
so nothing that an expression could go on with. -/
theorem exists_reading_of_print {s : Stmt} {used : List Token} {t : Token}
    (h : s.Reading Grammar.nestingLimit (t :: used)) (ht : t.kind = .keyword .printWord) :
    ∃ e u semicolon, used = u ++ [semicolon] ∧ semicolon.kind = .symbol .semicolon ∧
      Reading .comma Grammar.nestingLimit e u := by
  cases s with
  | print e =>
    obtain ⟨t', u, semicolon, heq, -, hs, hread⟩ := h.of_print
    cases heq
    exact ⟨e, u, semicolon, rfl, hs, hread⟩
  | expression e =>
    obtain ⟨u, semicolon, heq, -, hread⟩ := h.of_expression
    obtain ⟨t', rest, rfl, hbegins⟩ := hread.head_beginsExpr
    cases heq
    rw [ht] at hbegins
    cases hbegins
  | var site initial =>
    cases initial with
    | none =>
      obtain ⟨t', name, semicolon, heq, hvar, -⟩ := h.of_var
      cases heq
      rw [ht] at hvar
      cases hvar
    | some e =>
      obtain ⟨t', name, equals, u, semicolon, heq, hvar, -⟩ := h.of_varInitial
      cases heq
      rw [ht] at hvar
      cases hvar
  | block body =>
    obtain ⟨opening, u, closing, heq, hbrace, -⟩ := h.of_block
    cases heq
    rw [ht] at hbrace
    cases hbrace

/-- Behind a part of the tokens with a semicolon after it no expression goes on. -/
theorem exists_stopsAt_of_append_eq {u ub ts : List Token} {semicolon last : Token}
    (h : u ++ semicolon :: ub = ts ++ [last]) (hs : semicolon.kind = .symbol .semicolon) :
    ∃ rest, ts = u ++ rest ∧ StopsAt .comma rest := by
  have hnil : StopsAt .comma [] := by
    rintro t ⟨⟩
  have hcons (rest : List Token) : StopsAt .comma (semicolon :: rest) :=
    stopsAt_cons hs (by rintro q ⟨⟩)
  rcases List.append_eq_append_iff.mp h with ⟨rest, rfl, heq⟩ | ⟨more, rfl, heq⟩
  · cases rest with
    | nil => exact ⟨[], rfl, hnil⟩
    | cons t rest =>
      cases heq
      exact ⟨_, rfl, hcons rest⟩
  · cases more with
    | nil => exact ⟨[], by simp, hnil⟩
    | cons t more => simp at heq

/-- Where the program is right, the tokens begin with an expression. -/
theorem expression_of_parse_print (finish : Lexeme) {finish' : Lexeme} {ts : List Token}
    {semicolon : Token} {p : Program}
    (h : Program.parse finish' (printToken :: (ts ++ [semicolon])) = .ok p) :
    ∃ e, Expr.parse finish ts = .ok e := by
  have hread := Program.reading_of_parse h
  cases p with
  | nil => cases hread.yield
  | cons s rest =>
    obtain ⟨us, ub, heq, hs, -⟩ := hread.of_cons
    obtain ⟨t, us, rfl, -⟩ := hs.head_ne_rightBrace
    obtain ⟨rfl, htail⟩ := List.cons.inj heq
    obtain ⟨e, u, semicolon', rfl, hsemicolon, hexpr⟩ := exists_reading_of_print hs rfl
    -- The semicolon behind the expression is the last token, or one of those before it.
    have happend : u ++ semicolon' :: ub = ts ++ [semicolon] := by simpa using htail.symm
    obtain ⟨rest, rfl, hstop⟩ := exists_stopsAt_of_append_eq happend hsemicolon
    have hrun := (Grammar.inner_complete _).expression finish e u rest hexpr hstop
    exact ⟨e, by rw [Expr.parse, Grammar.expression, hrun, Reply.result]⟩

/-! ## The execution of the program -/

section

variable {e : Expr} {w w' : World}

theorem exec_print_of_ok {v : Value} (h : e.evalIn w = .ok v w') :
    Program.exec [.print e] w = .ok () { w' with lines := w'.lines.push v.text } := by
  have hstmt : (Stmt.print e).exec w = .ok () { w' with lines := w'.lines.push v.text } := by
    unfold Stmt.exec
    exact bind_of_ok h
  rw [Program.exec, execAll, bind_of_ok hstmt]
  rfl

theorem exec_print_of_error {err : RuntimeError} (h : e.evalIn w = .error err w') :
    Program.exec [.print e] w = .error err w' := by
  have hstmt : (Stmt.print e).exec w = .error err w' := by
    unfold Stmt.exec
    exact bind_of_error h
  rw [Program.exec, execAll]
  exact bind_of_error hstmt

/-- An evaluation prints nothing. -/
theorem Expr.lines_evalIn (e : Expr) (w : World) :
    (finalState (e.evalIn w)).lines = w.lines := by
  rw [e.finalState_evalIn]

theorem World.output_congr (h : w'.lines = w.lines) : w'.output = w.output := by
  rw [output, output, h]

theorem World.output_push (w : World) (text : String) :
    output { w with lines := w.lines.push text } = w.output ++ (text ++ "\n") := by
  simp [output, unlines_append]

end

/-- The error where it is found in the program that prints the expression. -/
def RuntimeError.printed (err : RuntimeError) : RuntimeError :=
  ⟨err.fault, err.site.text, err.site.start + 6, err.site.line⟩

namespace Session

/-- The source text is an expression, and nothing follows it. -/
def IsExpression (source : String) : Prop :=
  ∃ e, Grammar.expression.run (Scan.ofString source).finish (Scan.ofString source).tokens = .ok e []

/-- What evaluating an expression has in common with running the program that prints it. -/
structure PrintsAlike (s : Session) (source : String) : Prop where
  value : ∀ (text : String) (b : Bindings),
    (∃ v, (s.evaluate source).1 = some v ∧ v.text = text ∧
        (s.evaluate source).2.world.bindings = b) ↔
      (s.run (printing source)).1 = .success ∧
        (s.run (printing source)).2.world.output = s.world.output ++ (text ++ "\n") ∧
        (s.run (printing source)).2.world.bindings = b
  failure_iff : (∃ err, (s.adds (.evaluate source)).diagnostics = #[.runtime err]) ↔
    (s.run (printing source)).1 = .runtimeError
  failure : ∀ err, (s.adds (.evaluate source)).diagnostics = #[.runtime err] →
    (s.evaluate source).1 = none ∧
      (s.adds (.run (printing source))).diagnostics = #[.runtime err.printed] ∧
      (s.run (printing source)).2.world = (s.evaluate source).2.world ∧
      (s.run (printing source)).2.world.output = s.world.output

theorem printsAlike_of_ok {s : Session} {source : String} {v : Value} {w : World}
    (hevaluate : s.evaluate source = (some v, { s with world := w }))
    (hrun : s.run (printing source) =
      (.success, { s with world := { w with lines := w.lines.push v.text } }))
    (hlines : w.lines = s.world.lines) : s.PrintsAlike source := by
  have hnone : (s.adds (.evaluate source)).diagnostics = #[] :=
    adds_diagnostics_of_eq (by simp [serve, hevaluate])
  have houtput : (s.run (printing source)).2.world.output = s.world.output ++ (v.text ++ "\n") := by
    rw [hrun, ← World.output_congr hlines]
    exact w.output_push v.text
  constructor
  · intro text b
    rw [houtput, hevaluate, hrun]
    simp
  · rw [hrun]
    simp [hnone]
  · intro err herr
    simp [hnone] at herr

theorem printsAlike_of_error {s : Session} {source : String} {err : RuntimeError} {w : World}
    (hevaluate : s.evaluate source = (none, { s with world := w }.report [.runtime err]))
    (hrun : s.run (printing source) =
      (.runtimeError, { s with world := w }.report [.runtime err.printed]))
    (hlines : w.lines = s.world.lines) : s.PrintsAlike source := by
  have hone : (s.adds (.evaluate source)).diagnostics = #[.runtime err] :=
    adds_diagnostics_of_eq (by rw [serve, hevaluate]; rfl)
  have hone' : (s.adds (.run (printing source))).diagnostics = #[.runtime err.printed] :=
    adds_diagnostics_of_eq (by rw [serve, hrun]; rfl)
  constructor
  · intro text b
    simp [hevaluate, hrun]
  · simp [hone, hrun]
  · intro err' herr
    obtain rfl : err = err' := by simpa [hone] using herr
    refine ⟨by rw [hevaluate], hone', by rw [hevaluate, hrun]; rfl, ?_⟩
    rw [hrun]
    exact World.output_congr hlines

theorem printsAlike (s : Session) {source : String} (herrors : (Scan.ofString source).errors = [])
    (h : IsExpression source) : s.PrintsAlike source := by
  obtain ⟨e, hrun⟩ := h
  have hexpr : ReadsAsExpr source e :=
    ⟨lexicalErrors_eq_nil_iff.mpr herrors, by rw [Expr.parse, hrun, Reply.result]⟩
  obtain ⟨hprinting, semicolon, hsemicolon, htokens⟩ := scan_printing herrors
  have hprogram : ReadsAs (printing source) [.print (e.mapSites (.behind printText))] :=
    ⟨hprinting, by rw [htokens]; exact parse_print hrun hsemicolon⟩
  have hmoved := e.evalIn_mapSites (Lexeme.keepsText_behind printText) s.world
  have hlines := e.lines_evalIn s.world
  have hevaluate := evaluate_of_readsAsExpr s hexpr
  have hexec := run_of_readsAs s hprogram
  cases heval : e.evalIn s.world with
  | ok v w =>
    rw [heval] at hmoved hlines hevaluate
    rw [exec_print_of_ok hmoved] at hexec
    exact printsAlike_of_ok hevaluate hexec hlines
  | error err w =>
    rw [heval] at hmoved hlines hevaluate
    rw [exec_print_of_error hmoved] at hexec
    exact printsAlike_of_error hevaluate hexec hlines

/-- Where the text does not even begin with an expression, neither call does anything. -/
theorem printing_of_error (s : Session) {source : String} {err : ParseError}
    (herrors : (Scan.ofString source).errors = [])
    (h : Expr.parse (Scan.ofString source).finish (Scan.ofString source).tokens = .error err) :
    (s.run (printing source)).1 = .staticError ∧ (s.run (printing source)).2.world = s.world ∧
      (s.evaluate source).1 = none ∧ (s.evaluate source).2.world = s.world := by
  have hstatic : staticErrors (printing source) ≠ [] := by
    rw [Ne, staticErrors_eq_nil_iff]
    rintro ⟨p, hp⟩
    obtain ⟨-, semicolon, -, htokens⟩ := scan_printing herrors
    have hparse := hp.parse
    rw [htokens] at hparse
    obtain ⟨e, he⟩ :=
      expression_of_parse_print ((Scan.ofString source).finish.behind printText) hparse
    have hmoved := Expr.parse_mapTokens (f := .behind printText)
      (Scan.ofString source).finish (Scan.ofString source).tokens
    rw [h] at hmoved
    cases hmoved.symm.trans he
  have hexpression : expressionErrors source ≠ [] := by
    rw [Ne, expressionErrors_eq_nil_iff]
    rintro ⟨e, he⟩
    cases h.symm.trans he.parse
  rw [run_of_staticErrors s hstatic, evaluate_of_expressionErrors s hexpression]
  exact ⟨rfl, world_report .., rfl, world_report ..⟩

/-- **Printing an expression agrees with evaluating it.** Take a source text without lexical errors.
If it is an expression, the program that prints it succeeds where the evaluation has a value, and
prints that, and it fails where the evaluation fails, for the same reason and in the same place; and
both leave the same bindings. If it does not even begin with an expression, neither call changes
anything. -/
theorem printing_agrees (s : Session) (source : String)
    (herrors : (Scan.ofString source).errors = []) :
    (IsExpression source → s.PrintsAlike source) ∧
      ∀ err, Expr.parse (Scan.ofString source).finish (Scan.ofString source).tokens = .error err →
        (s.run (printing source)).1 = .staticError ∧
          (s.run (printing source)).2.world = s.world ∧
          (s.evaluate source).1 = none ∧ (s.evaluate source).2.world = s.world :=
  ⟨s.printsAlike herrors, fun _ => s.printing_of_error herrors⟩

/-- An assignment before a comment that goes on to the end; and a sum without its right operand. -/
theorem printing_agrees_comment :
    (Scan.ofString "a = -nil // a").errors = [] ∧ IsExpression "a = -nil // a" ∧
      PrintsAlike initial "a = -nil // a" ∧
      (Scan.ofString "1 +").errors = [] ∧ (initial.run (printing "1 +")).1 = .staticError := by
  have herrors : (Scan.ofString "a = -nil // a").errors = [] := by decide +kernel
  have herrors' : (Scan.ofString "1 +").errors = [] := by decide +kernel
  have hexpr : IsExpression "a = -nil // a" := by
    refine ⟨.assign ⟨"a", 0, 1⟩ (.unary .negate ⟨"-", 4, 1⟩ (.literal .nil)), ?_⟩
    decide +kernel
  have hrun : Grammar.expression.run (Scan.ofString "1 +").finish (Scan.ofString "1 +").tokens =
      .error ⟨.nonExpression, none, ⟨"", 3, 1⟩⟩ [] := by decide +kernel
  have herr : Expr.parse (Scan.ofString "1 +").finish (Scan.ofString "1 +").tokens =
      .error ⟨.nonExpression, none, ⟨"", 3, 1⟩⟩ := by rw [Expr.parse, hrun, Reply.result]
  exact ⟨herrors, hexpr, (printing_agrees initial _ herrors).1 hexpr, herrors',
    ((printing_agrees initial _ herrors').2 _ herr).1⟩

end Session

end Lox
