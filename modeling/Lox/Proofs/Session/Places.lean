import Lox.Proofs.Execution.Failures
import Lox.Proofs.Grammar.Acceptance
import Lox.Proofs.Grammar.Blame
import Lox.Proofs.Scanning.Partition
import Lox.Session

/-!
# Where diagnostics point

Whatever is reported about a source text is about a place in that text, and not in one that was run
before. The text is known here only by its bytes, as it is to whoever shows the diagnostic: a span
lies inside the source and does not cut a character in two, a lexeme is what the source has there,
and a line is counted from the line ends before it.

All of it comes from the division of the source into items. A lexical error is one of them; a parse
error names a token or the end of the input; and the lexeme that a failed execution blames is one
that the tree has kept, of one of the tokens it was read from.
-/

set_option autoImplicit false

namespace Lox

/-! ## Places in a source text -/

/-- The span lies in the source text, and both its ends lie between two characters. -/
structure Span.Within (source : String) (s : Span) : Prop where
  start_le : s.start ≤ s.stop
  stop_le : s.stop ≤ source.utf8ByteSize
  start_valid : (⟨s.start⟩ : String.Pos.Raw).IsValid source
  stop_valid : (⟨s.stop⟩ : String.Pos.Raw).IsValid source

/-- `line` is the number of the line on which the byte `offset` of the source is. -/
def IsLineAt (source : String) (offset line : Nat) : Prop :=
  ∃ before behind, source.toList = before ++ behind ∧ byteLength before = offset ∧
    line = 1 + before.count '\n'

/-- The lexeme is what stands in the source where it says. -/
structure Lexeme.IsPartOf (source : String) (l : Lexeme) : Prop where
  within : l.span.Within source
  text : l.span.bytes source = l.text.toByteArray
  line : IsLineAt source l.start l.line

/-- A place behind some of the characters of a text lies between two characters. -/
theorem isValid_of_eq_append {source : String} {before behind : List Char}
    (h : source.toList = before ++ behind) :
    (⟨byteLength before⟩ : String.Pos.Raw).IsValid source := by
  refine String.Pos.Raw.isValid_iff_exists_append.mpr
    ⟨String.ofList before, String.ofList behind, ?_, ?_⟩
  · rw [← String.ofList_append, ← h, String.ofList_toList]
  · rw [String.Pos.Raw.ext_iff, String.byteIdx_rawEndPos, utf8ByteSize_ofList]

theorem Span.within_of_eq_append {source : String} {before text behind : List Char}
    (h : source.toList = before ++ (text ++ behind)) :
    (⟨byteLength before, byteLength text⟩ : Span).Within source where
  start_le := Span.start_le_stop _
  stop_le := by
    rw [← byteLength_toList, h, byteLength_append, byteLength_append, ← Nat.add_assoc]
    exact Nat.le_add_right ..
  start_valid := isValid_of_eq_append h
  stop_valid := by
    rw [← List.append_assoc] at h
    rw [Span.stop, ← byteLength_append]
    exact isValid_of_eq_append h

theorem Lexeme.isPartOf_of_eq_append {source : String} {before text behind : List Char}
    (h : source.toList = before ++ (text ++ behind)) :
    (Lexeme.ofChars (Place.origin.after before) text).IsPartOf source := by
  have hspan : (Lexeme.ofChars (Place.origin.after before) text).span =
      ⟨byteLength before, byteLength text⟩ := by
    rw [Lexeme.span_ofChars, Place.after, Place.origin, Nat.zero_add]
  refine ⟨?_, ?_, before, text ++ behind, h, (Nat.zero_add _).symm, rfl⟩
  · rw [hspan]
    exact Span.within_of_eq_append h
  · rw [hspan, Span.bytes_of_eq_append h, Lexeme.ofChars]

/-- Every token is a part of the source. -/
theorem Scan.isPartOf_of_mem_tokens {source : String} {t : Token}
    (h : t ∈ (Scan.ofString source).tokens) : t.lexeme.IsPartOf source := by
  obtain ⟨before, text, behind, heq, hlexeme, -⟩ := Scan.exists_of_mem_tokens h
  rw [hlexeme]
  exact Lexeme.isPartOf_of_eq_append heq

/-- So is the end of the input, although nothing stands there. -/
theorem Scan.isPartOf_finish (source : String) :
    (Scan.ofString source).finish.IsPartOf source := by
  have h : source.toList = source.toList ++ ([] ++ []) := by simp
  exact Lexeme.isPartOf_of_eq_append h

/-! ## Diagnostics -/

/-- The diagnostic is about a place in the source text, and right about it. -/
def Diagnostic.PointsInto (source : String) (d : Diagnostic) : Prop :=
  d.span.Within source ∧
    match d with
    | lexical e =>
      match e.fault with
      | .unrecognized c =>
        e.span.bytes source = c.toString.toByteArray ∧ IsLineAt source e.span.start e.line
      -- What is missing is missed where the text ends.
      | .unclosedString | .unclosedComment => e.line = 1 + source.toList.count '\n'
    | parse e => e.site.IsPartOf source
    | runtime e =>
      e.site.IsPartOf source ∧ ∃ t ∈ (Scan.ofString source).tokens, t.lexeme = e.site

variable {source : String}

theorem Scan.pointsInto_of_mem_errors {e : LexicalError}
    (h : e ∈ (Scan.ofString source).errors) : (Diagnostic.lexical e).PointsInto source := by
  obtain ⟨before, text, behind, heq, hspan, hline, hcovers⟩ := Scan.exists_of_mem_errors h
  obtain ⟨fault, span, line⟩ := e
  obtain rfl : span = ⟨byteLength before, byteLength text⟩ := by
    simpa [Place.after, Place.origin] using hspan
  refine ⟨Span.within_of_eq_append heq, ?_⟩
  cases fault with
  | unrecognized c =>
    obtain ⟨rfl, -, -⟩ := hcovers
    exact ⟨Span.bytes_of_eq_append heq, before, _, heq, rfl, hline⟩
  | unclosedString | unclosedComment =>
    obtain ⟨rfl, -⟩ := hcovers
    rw [heq, List.append_nil, List.count_append, ← Nat.add_assoc]
    exact hline

/-- An error that names a token or the end of the input points there. -/
theorem ParseError.pointsInto {e : ParseError}
    (h : e.NamesOneOf (Scan.ofString source).finish (Scan.ofString source).tokens) :
    (Diagnostic.parse e).PointsInto source := by
  have hpart : e.site.IsPartOf source := by
    rcases h with hend | ⟨t, hmem, he⟩
    · rw [hend]
      exact Scan.isPartOf_finish source
    · rw [he]
      exact Scan.isPartOf_of_mem_tokens hmem
  exact ⟨hpart.within, hpart⟩

/-- A failure that blames a lexeme of a tree points at the token that the tree has it from. -/
theorem RuntimeError.pointsInto {e : RuntimeError} {ts : List Token}
    (hts : ts ⊆ (Scan.ofString source).tokens) (h : KeptBy (ts.map Token.leaf) e.site) :
    (Diagnostic.runtime e).PointsInto source := by
  obtain ⟨t, hmem, hsite⟩ := h.mem
  have hpart : e.site.IsPartOf source := by
    rw [← hsite]
    exact Scan.isPartOf_of_mem_tokens (hts hmem)
  exact ⟨hpart.within, hpart, t, hts hmem, hsite⟩

/-! ## Sessions -/

namespace Session

/-- The session `s'` has more diagnostics than `s`, if anything, and they all point into the source
text. -/
def ReportsInto (source : String) (s s' : Session) : Prop :=
  ∃ found : List Diagnostic, s'.diagnostics = s.diagnostics ++ found.toArray ∧
    ∀ d ∈ found, d.PointsInto source

theorem reportsInto_report {s s' : Session} {found : List Diagnostic}
    (hs : s'.diagnostics = s.diagnostics) (h : ∀ d ∈ found, d.PointsInto source) :
    ReportsInto source s (s'.report found) :=
  ⟨found, by rw [diagnostics_report, hs], h⟩

theorem reportsInto_of_eq {s s' : Session} (h : s'.diagnostics = s.diagnostics) :
    ReportsInto source s s' :=
  ⟨[], by simpa using h, by simp⟩

theorem run_reportsInto (s : Session) (source : String) :
    ReportsInto source s (s.run source).2 := by
  have hlexical : ∀ d ∈ (Scan.ofString source).errors.map Diagnostic.lexical,
      d.PointsInto source := by
    intro d hd
    obtain ⟨e, he, rfl⟩ := List.mem_map.mp hd
    exact Scan.pointsInto_of_mem_errors he
  unfold run
  dsimp only
  split
  · -- Static errors: first those of the scan, then those of the parser.
    rename_i errors hparse
    refine reportsInto_report rfl fun d hd => ?_
    rcases List.mem_append.mp hd with hd | hd
    · exact hlexical d hd
    · obtain ⟨e, he, rfl⟩ := List.mem_map.mp hd
      exact ParseError.pointsInto (Program.namesOneOf_of_parse hparse he)
  · rename_i p hparse
    split
    · split
      · exact reportsInto_of_eq rfl
      · rename_i e world hexec
        refine reportsInto_report rfl fun d hd => ?_
        obtain rfl := List.mem_singleton.mp hd
        refine RuntimeError.pointsInto (List.Subset.refl _) ?_
        rw [(Program.reading_of_parse hparse).yield]
        exact p.failsAt_exec _ _ _ hexec
    · exact reportsInto_report rfl hlexical

theorem evaluate_reportsInto (s : Session) (source : String) :
    ReportsInto source s (s.evaluate source).2 := by
  unfold evaluate
  dsimp only
  split
  · split
    · rename_i e hparse
      refine reportsInto_report rfl fun d hd => ?_
      obtain rfl := List.mem_singleton.mp hd
      exact ParseError.pointsInto (Expr.namesOneOf_of_parse hparse)
    · rename_i expr hparse
      split
      · exact reportsInto_of_eq rfl
      · rename_i e world heval
        obtain ⟨used, rest, hused, hread⟩ := Expr.reading_of_parse hparse
        -- The expression has not been read from all tokens, but from some.
        have hsub : used ⊆ (Scan.ofString source).tokens := by
          rw [hused]
          exact List.subset_append_left used rest
        refine reportsInto_report rfl fun d hd => ?_
        obtain rfl := List.mem_singleton.mp hd
        refine RuntimeError.pointsInto hsub ?_
        rw [hread.yield]
        exact expr.failsAt_evalIn _ _ _ heval
  · refine reportsInto_report rfl fun d hd => ?_
    obtain ⟨e, he, rfl⟩ := List.mem_map.mp hd
    exact Scan.pointsInto_of_mem_errors he

/-- **Every diagnostic points into the source it is about.** Whatever the session was before,
running or evaluating a source text adds only diagnostics that are about places in this text. -/
theorem reportsInto (s : Session) (source : String) :
    ReportsInto source s (s.run source).2 ∧ ReportsInto source s (s.evaluate source).2 :=
  ⟨s.run_reportsInto source, s.evaluate_reportsInto source⟩

end Session

end Lox
