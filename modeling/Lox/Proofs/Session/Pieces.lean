import Lox.Proofs.Execution.Runs
import Lox.Proofs.Scanning.Behind
import Lox.Proofs.Scanning.Partition
import Lox.Session

/-!
# Running a program in pieces

A program that is divided at line ends, with every piece a program of its own, can be run piece by
piece in one session or as a whole, and it makes no difference. The three stages have been compared
one at a time: the tokens of the whole are those of the pieces, one after the other and moved; so
is the program; and so the execution. Here they are put together for two texts
(`ReadsAs.line_end`, `Session.exec_line_end`), and from there for any number (`Succeeds.exec`).
-/

set_option autoImplicit false

namespace Lox

/-! ## Programs as texts -/

/-- The source text has neither lexical nor parse errors. -/
def IsProgram (source : String) : Prop :=
  (Scan.ofString source).errors = [] ∧
    (Program.parse (Scan.ofString source).finish (Scan.ofString source).tokens).isOk = true

instance (source : String) : Decidable (IsProgram source) := inferInstanceAs (Decidable (_ ∧ _))

/-- The source text has no errors and is the program `p`. -/
structure ReadsAs (source : String) (p : Program) : Prop where
  errors : (Scan.ofString source).errors = []
  parse : Program.parse (Scan.ofString source).finish (Scan.ofString source).tokens = .ok p

theorem IsProgram.exists_readsAs {source : String} (h : IsProgram source) :
    ∃ p, ReadsAs source p := by
  obtain ⟨herrors, hok⟩ := h
  cases hparse : Program.parse (Scan.ofString source).finish (Scan.ofString source).tokens with
  | ok p => exact ⟨p, herrors, hparse⟩
  | error errors =>
    rw [hparse] at hok
    cases hok

theorem Lexeme.keepsText_behind (text : List Char) : KeepsText (Lexeme.behind text) :=
  fun _ => rfl

/-- A program behind another and a line end is the program of both, with the second moved. -/
theorem ReadsAs.line_end {first second : String} {p₁ p₂ : Program} (h₁ : ReadsAs first p₁)
    (h₂ : ReadsAs second p₂) :
    ReadsAs (first ++ "\n" ++ second)
      (p₁ ++ p₂.mapSites (Lexeme.behind (first ++ "\n").toList)) where
  errors := Scan.errors_line_end h₁.errors h₂.errors
  parse := by
    rw [Scan.tokens_line_end second h₁.errors]
    exact Program.parse_append h₁.parse
      (Program.parse_mapSites _ h₂.parse (Scan.ofString second).finish)

namespace Session

/-! ## Runs of such texts -/

/-- What is left of an execution in the session it was made in. -/
def ofOutcome (s : Session) : EStateM.Result RuntimeError World Unit → RunStatus × Session
  | .ok () world => (.success, { s with world })
  | .error e world => (.runtimeError, { s with world }.report [.runtime e])

/-- A program is executed. -/
theorem run_of_readsAs (s : Session) {source : String} {p : Program} (h : ReadsAs source p) :
    s.run source = s.ofOutcome (p.exec s.world) := by
  unfold run
  simp only [h.errors, h.parse, List.map_nil, if_true]
  cases p.exec s.world <;> rfl

/-- Only a program can be run with success, and all that a run with success changes is what its
execution changes. -/
theorem readsAs_of_run_success {s s' : Session} {source : String}
    (h : s.run source = (.success, s')) :
    ∃ p, ReadsAs source p ∧ p.exec s.world = .ok () s'.world := by
  unfold run at h
  dsimp only at h
  split at h
  · cases h
  · rename_i p hparse
    split at h
    · rename_i hnil
      have hread : ReadsAs source p := ⟨List.map_eq_nil_iff.mp hnil, hparse⟩
      refine ⟨p, hread, ?_⟩
      cases hexec : p.exec s.world with
      | ok u world =>
        rw [hexec] at h
        cases h
        rfl
      | error e world =>
        rw [hexec] at h
        cases h
    · cases h

/-- Executing both programs of a text is executing the second where the first, when it was run by
itself, has led. -/
theorem exec_line_end {s s₁ : Session} {first second : String} {p : Program}
    (h₁ : s.run first = (.success, s₁)) (h₂ : ReadsAs second p) :
    ∃ whole, ReadsAs (first ++ "\n" ++ second) whole ∧
      whole.exec s.world =
        movedOutcome (Lexeme.behind (first ++ "\n").toList) (p.exec s₁.world) := by
  obtain ⟨p₁, hp₁, hexec⟩ := readsAs_of_run_success h₁
  refine ⟨_, hp₁.line_end h₂, ?_⟩
  rw [Program.exec, execAll_append_of_ok hexec]
  exact Program.exec_mapSites (Lexeme.keepsText_behind _) p s₁.world

/-! ## Any number of texts -/

/-- The source texts `pieces`, run one after the other, all succeed and lead to a session. -/
inductive Succeeds : Session → List String → Session → Prop where
  | nil {s : Session} : Succeeds s [] s
  | cons {s s₁ s' : Session} {first : String} {rest : List String}
    (h : s.run first = (.success, s₁)) (hr : Succeeds s₁ rest s') : Succeeds s (first :: rest) s'

/-- Executing what several texts and a last one are together is executing the last one where the
others have led. -/
theorem Succeeds.exec {s s' : Session} {pieces : List String} (h : s.Succeeds pieces s')
    {last : String} {p : Program} (hlast : ReadsAs last p) :
    ∃ whole, ReadsAs (unlines pieces ++ last) whole ∧
      whole.exec s.world =
        movedOutcome (Lexeme.behind (unlines pieces).toList) (p.exec s'.world) := by
  induction h with
  | @nil s =>
    refine ⟨p, by rwa [unlines_nil, String.empty_append], ?_⟩
    cases p.exec s.world <;> rfl
  | @cons s s₁ s' first rest hfirst _ ih =>
    obtain ⟨others, hothers, hexec⟩ := ih
    obtain ⟨whole, hwhole, hexec'⟩ := exec_line_end hfirst hothers
    refine ⟨whole, by rwa [unlines_cons, String.append_assoc], ?_⟩
    rw [hexec', hexec]
    -- Moving behind the rest and then behind the first is moving behind both.
    cases p.exec s'.world with
    | ok u world => rfl
    | error e world =>
      simp only [movedOutcome, RuntimeError.mapSite, ← Lexeme.behind_append]
      rw [unlines_cons, ← String.toList_append]

/-- The run `whole` began in `s` and the run `part` in `s'`, and they ended alike: with the same
status, bindings and lines, and with the same error, if there was one, except that the text it is
about stood `bytes` bytes and `lines` lines further on in the whole. -/
structure EndsAlike (s s' : Session) (bytes lines : Nat) (whole part : RunStatus × Session) :
    Prop where
  status : whole.1 = part.1
  world : whole.2.world = part.2.world
  diagnostics : ∃ error : Option RuntimeError,
    (error.isSome = true ↔ part.1 = .runtimeError) ∧
    part.2.diagnostics = s'.diagnostics ++ (error.map Diagnostic.runtime).toArray ∧
    whole.2.diagnostics = s.diagnostics ++ (error.map fun e => Diagnostic.runtime
      ⟨e.fault, e.site.text, e.site.start + bytes, e.site.line + lines⟩).toArray

/-- Where the execution of the whole has the outcome of the part, moved, the runs end alike. -/
theorem endsAlike_of_exec {s s' : Session} {text whole part : String} {p p' : Program}
    (hwhole : ReadsAs whole p) (hpart : ReadsAs part p')
    (h : p.exec s.world = movedOutcome (Lexeme.behind text.toList) (p'.exec s'.world)) :
    EndsAlike s s' text.utf8ByteSize (text.toList.count '\n') (s.run whole) (s'.run part) := by
  rw [run_of_readsAs s hwhole, run_of_readsAs s' hpart, h]
  cases p'.exec s'.world with
  | ok u world =>
    refine ⟨rfl, rfl, none, ?_, ?_, ?_⟩
    · simp [ofOutcome]
    · simp [ofOutcome]
    · simp [ofOutcome, movedOutcome]
  | error e world =>
    refine ⟨rfl, rfl, some e, ?_, rfl, ?_⟩
    · simp [ofOutcome]
    · rw [← byteLength_toList]
      rfl

/-- **Running a program in pieces is running it whole.** If the first of two source texts runs with
success and the second is a program, then running both as one text ends as running one after the
other does. An error in the second text is the same error in the whole, as many bytes and lines
further on as the first text and its line end take. The same holds of any number of texts, all but
the last of which run with success. -/
theorem run_pieces :
    (∀ (s : Session) (first second : String), (s.run first).1 = .success → IsProgram second →
      EndsAlike s (s.run first).2 (first.utf8ByteSize + 1) (first.toList.count '\n' + 1)
        (s.run (first ++ "\n" ++ second)) ((s.run first).2.run second)) ∧
    ∀ (s s' : Session) (pieces : List String) (last : String), s.Succeeds pieces s' →
      IsProgram last →
      EndsAlike s s' (unlines pieces).utf8ByteSize ((unlines pieces).toList.count '\n')
        (s.run (unlines pieces ++ last)) (s'.run last) := by
  constructor
  · intro s first second hfirst hsecond
    obtain ⟨p, hp⟩ := hsecond.exists_readsAs
    have hrun : s.run first = (.success, (s.run first).2) := Prod.ext hfirst rfl
    obtain ⟨whole, hwhole, hexec⟩ := exec_line_end hrun hp
    have hsize : (first ++ "\n").utf8ByteSize = first.utf8ByteSize + 1 := String.utf8ByteSize_append
    have hcount : (first ++ "\n").toList.count '\n' = first.toList.count '\n' + 1 := by simp
    have := endsAlike_of_exec hwhole hp hexec
    rwa [hsize, hcount] at this
  · intro s s' pieces last hpieces hlast
    obtain ⟨p, hp⟩ := hlast.exists_readsAs
    obtain ⟨whole, hwhole, hexec⟩ := hpieces.exec hp
    exact endsAlike_of_exec hwhole hp hexec

/-- A program whose last line fails. Its lines can be run one after the other or as one text, and
the first one by itself or with the second. -/
theorem run_pieces_var_print :
    EndsAlike .initial (initial.run "var a = true;").2 14 1
        (initial.run "var a = true;\nprint a; b;")
        ((initial.run "var a = true;").2.run "print a; b;") ∧
      EndsAlike .initial ((initial.run "var a = true;").2.run "print a;").2 23 2
        (initial.run "var a = true;\nprint a;\nb;")
        (((initial.run "var a = true;").2.run "print a;").2.run "b;") ∧
      ((initial.run "var a = true;").2.run "print a; b;").1 = .runtimeError := by
  have hsucceeds : initial.Succeeds ["var a = true;", "print a;"]
      ((initial.run "var a = true;").2.run "print a;").2 :=
    .cons (Prod.ext (by decide +kernel) rfl) (.cons (Prod.ext (by decide +kernel) rfl) .nil)
  refine ⟨?_, ?_, by decide +kernel⟩
  · exact run_pieces.1 initial "var a = true;" "print a; b;" (by decide +kernel)
      (by decide +kernel)
  · exact run_pieces.2 _ _ _ "b;" hsucceeds (by decide +kernel)

end Session

end Lox
