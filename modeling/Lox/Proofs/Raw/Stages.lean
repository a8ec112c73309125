import Lox.Proofs.Raw.Parser

/-!
# No stage can get stuck

Every stage relies on the one before it. The scanner cuts stretches out of the source; the parser
takes the value of a literal from its token and never looks beside the tokens; the evaluator knows
what to do for an operator only if it is one of those it has been told about. In `Lox.Raw` none of
this is promised by a type, and a stage that relies on what is not so has no result.

They all have one (`Raw.stages_safe`), of whatever part of a scan is parsed, for whatever the parser
is called, and in whatever bindings the trees are computed. The stages are followed by those of the
other modules: the scan, whose places and spellings are known; the parser, whose position is known;
and trees that hold operators, so that an operator's token can only be one that the evaluator knows.
-/

set_option autoImplicit false

namespace Lox.Raw

/-! ## What each stage can rely on -/

/-- The span does not end before it begins, and the source has the given text there. -/
def Span.Covers (source text : String) (s : Span) : Prop :=
  ∃ stop, s.stop? = some stop ∧ s.start ≤ stop ∧
    slice? source s.start.toNat stop.toNat = some text

/-- The token is what the source has where it says, and a literal has its value. -/
structure Token.Sound (source : String) (t : Token) : Prop where
  covers : t.span.Covers source t.text
  number : t.kind = .number → ∃ v, t.literal = some (.number v)
  string : t.kind = .string → ∃ s, t.literal = some (.string s)

/-- Every operator of the trees is one that can be computed, and in any bindings computing the
trees has a result. -/
def ParseAnswer.Safe : ParseAnswer → Prop
  | expression (.ok e) => e.Supported ∧ ∀ b, ∃ r, e.eval b = some r
  | program (.ok body) => AllSupported body ∧ ∀ w, ∃ r, execAll body w = some r
  | expression (.error _) | program (.error _) | synchronized => True

/-! ## Scans -/

section

variable {source : String}

/-- What stands in the source is covered by its span, which ends where the characters do. -/
theorem Occurs.covers {p : Place} {text : List Char} (h : Occurs source p text) :
    Span.Covers source (String.ofList text)
      ⟨UInt32.ofNat p.offset, UInt32.ofNat (byteLength text)⟩ := by
  have hstop : p.offset + byteLength text < UInt32.size := h.stop_fits.offset
  refine ⟨_, checkedAdd?_ofNat hstop, ?_, h.slice⟩
  exact (UInt32.ofNat_le_iff_le h.start_fits.offset hstop).mpr (Nat.le_add_right ..)

theorem Occurs.covers_raw {p : Place} {text : List Char} (h : Occurs source p text) (kind : Kind)
    (literal : Option Literal) :
    ((Lexeme.ofChars p text).raw kind literal).span.Covers source (String.ofList text) := by
  rw [Lexeme.raw, Lexeme.span_ofChars]
  exact h.covers

/-- A token of the scan stands in the source where it says. -/
theorem occurs_of_mem_tokens (hsize : source.utf8ByteSize + 1 < UInt32.size) {t : Lox.Token}
    (h : t ∈ (Scan.ofString source).tokens) :
    ∃ p text, t.lexeme = .ofChars p text ∧ Occurs source p text := by
  obtain ⟨before, text, behind, heq, hlexeme, -⟩ := Scan.exists_of_mem_tokens h
  exact ⟨_, text, hlexeme, hsize, before, behind, heq, rfl⟩

/-- Every token of a scan is sound, and so is the end. -/
theorem sound_of_mem_slots (hsize : source.utf8ByteSize + 1 < UInt32.size) {slot : Slot}
    (h : slot ∈ (Scan.ofString source).slots) : slot.raw.Sound source := by
  rcases List.mem_append.mp h with h | h
  · obtain ⟨t, ht, rfl⟩ := List.mem_map.mp h
    obtain ⟨p, text, hlexeme, hoccurs⟩ := occurs_of_mem_tokens hsize ht
    obtain ⟨kind, lexeme⟩ := t
    obtain rfl : lexeme = .ofChars p text := hlexeme
    refine ⟨hoccurs.covers_raw _ _, fun hk => ?_, fun hk => ?_⟩
    · cases kind <;> cases hk
      exact ⟨_, rfl⟩
    · cases kind <;> cases hk
      exact ⟨_, rfl⟩
  · obtain rfl := List.mem_singleton.mp h
    have hoccurs : Occurs source (Place.origin.after source.toList) [] :=
      ⟨hsize, source.toList, [], by simp, rfl⟩
    refine ⟨hoccurs.covers_raw .eof none, ?_, ?_⟩ <;> rintro ⟨⟩

theorem covers_of_mem_errors (hsize : source.utf8ByteSize + 1 < UInt32.size) {e : Lox.LexicalError}
    (h : e ∈ (Scan.ofString source).errors) : ∃ text, e.raw.span.Covers source text := by
  obtain ⟨before, text, behind, heq, hspan, -, -⟩ := Scan.exists_of_mem_errors h
  have hoccurs : Occurs source _ text := ⟨hsize, before, behind, heq, rfl⟩
  refine ⟨String.ofList text, ?_⟩
  rw [Lox.LexicalError.raw, hspan]
  exact hoccurs.covers

/-! ## Beginnings -/

/-- The end that is put behind a last token is where that ends, which is a place in the source. -/
theorem new?_raw {slots : List Slot}
    (h : ∀ t, slots.getLast? = some (.token t) → t.lexeme.span.stop < UInt32.size) :
    Parser.new? (slots.map Slot.raw) = some (Lox.Parser.new slots).raw := by
  rw [Parser.new?, List.getLast?_map]
  cases hlast : slots.getLast? with
  | none =>
    obtain rfl := List.getLast?_eq_none_iff.mp hlast
    rfl
  | some slot =>
    cases slot with
    | finish site =>
      have hnew : Lox.Parser.new slots = ⟨slots, 0, 0⟩ := by rw [Lox.Parser.new, hlast]
      rw [hnew]
      rfl
    | token t =>
      have hnew : Lox.Parser.new slots =
          ⟨slots ++ [.finish ⟨"", t.lexeme.span.stop, t.lexeme.line⟩], 0, 0⟩ := by
        rw [Lox.Parser.new, hlast]
      have hstop : (Slot.token t).raw.span.stop? = some (UInt32.ofNat t.lexeme.span.stop) :=
        checkedAdd?_ofNat (h t hlast)
      -- The end has the place behind the token, and no length.
      have hempty : t.lexeme.span.stop + 0 < UInt32.size := h t hlast
      have hspan : Span.between? (UInt32.ofNat t.lexeme.span.stop)
          (UInt32.ofNat t.lexeme.span.stop) = some ⟨UInt32.ofNat t.lexeme.span.stop, 0⟩ :=
        Span.between?_ofNat hempty
      rw [hnew, Option.map_some]
      dsimp only
      rw [if_neg (Slot.raw_kind_ne_eof t), hstop, Option.bind_eq_bind, Option.bind_some, hspan,
        Lox.Parser.raw, List.map_append]
      rfl

/-- Wherever a scan is cut off, a parser can begin there: the end is put behind a token, and all
tokens end within the source. -/
theorem new?_take (hsize : source.utf8ByteSize + 1 < UInt32.size) (n : Nat) :
    Parser.new? (((Scan.ofString source).slots.map Slot.raw).take n) =
      some (Lox.Parser.new ((Scan.ofString source).slots.take n)).raw := by
  rw [← List.map_take]
  apply new?_raw
  intro t hlast
  have hmem : .token t ∈ (Scan.ofString source).slots :=
    List.mem_of_mem_take (List.mem_of_getLast? hlast)
  have htoken : t ∈ (Scan.ofString source).tokens := by
    simpa [Scan.slots] using hmem
  obtain ⟨p, text, hlexeme, hoccurs⟩ := occurs_of_mem_tokens hsize htoken
  rw [hlexeme, Lexeme.span_ofChars]
  exact hoccurs.stop_fits.offset

end

/-! ## Answers -/

/-- The parser's trees hold operators, so the tokens written out for these are supported. -/
theorem safe_raw (answer : Lox.ParseAnswer) : answer.raw.Safe := by
  cases answer with
  | expression result =>
    cases result with
    | ok e =>
      refine ⟨e.supported_raw, fun b => ?_⟩
      obtain ⟨r, hr, -⟩ := eval_raw e b
      exact ⟨r, hr⟩
    | error e => trivial
  | program result =>
    cases result with
    | ok body =>
      refine ⟨allSupported_raw body, fun w => ?_⟩
      obtain ⟨r, hr, -⟩ := execAll_raw body w
      exact ⟨r, hr⟩
    | error es => trivial
  | synchronized => trivial

/-! ## The stages together -/

/-- **No stage can get stuck.** Of a source text that is short enough for its places to be numbered
with 32 bits, scanning has a result: every token is what the source has where it says, every literal
has its value, and no span ends before it begins. Of any first part of the tokens, and for any
calls, the parser has answers, and its index is that of a token; the operators in its trees can be
computed, and computing the trees has a result in any bindings. The tokens, the answers and the
index are those of the scan and the parser of the other modules. -/
theorem stages_safe {source : String} (h : source.utf8ByteSize + 1 < UInt32.size) :
    ∃ tokens errors, tokenize source = some (tokens, errors) ∧
      tokens = (Scan.ofString source).slots.map Slot.raw ∧
      errors = (Scan.ofString source).errors.map LexicalError.raw ∧
      (∀ t ∈ tokens, t.Sound source) ∧
      (∀ e ∈ errors, ∃ text, e.span.Covers source text) ∧
      ∀ (n : Nat) (calls : List ParseStep), ∃ p answers p',
        Parser.new? (tokens.take n) = some p ∧
        Parser.callAll calls p = some (answers, p') ∧
        p'.tokens = p.tokens ∧ p'.current < p'.tokens.length ∧
        (∀ answer ∈ answers, answer.Safe) ∧
        ∃ answers' q,
          Lox.Parser.callAll calls (.new ((Scan.ofString source).slots.take n)) =
            some (answers', q) ∧
          q.current < q.slots.length ∧ answers = answers'.map ParseAnswer.raw ∧ p' = q.raw := by
  refine ⟨_, _, tokenize_eq h, rfl, rfl, fun t ht => ?_, fun e he => ?_, fun n calls => ?_⟩
  · obtain ⟨slot, hmem, rfl⟩ := List.mem_map.mp ht
    exact sound_of_mem_slots h hmem
  · obtain ⟨e, hmem, rfl⟩ := List.mem_map.mp he
    exact covers_of_mem_errors h hmem
  · -- Of the other parser it is known that it has answers, and where it is when it has them.
    have hfaces := Lox.Parser.faces_new_take (Scan.ofString source) n
    obtain ⟨rest, q, hcalls, hfaces', hslots, -, -⟩ := Lox.Parser.callAll_apply hfaces rfl calls
    have hraw := Parser.mirrors_callAll calls (.new ((Scan.ofString source).slots.take n))
    rw [hcalls] at hraw
    have htokens : q.raw.tokens.length = q.slots.length := List.length_map _
    refine ⟨_, _, _, new?_take h n, hraw, ?_, ?_, fun answer hmem => ?_, _, q, hcalls,
      hfaces'.current_lt, rfl, rfl⟩
    · rw [Lox.Parser.raw, Lox.Parser.raw, hslots]
    · rw [htokens]
      exact hfaces'.current_lt
    · obtain ⟨answer, -, rfl⟩ := List.mem_map.mp hmem
      exact safe_raw answer

/-- A plus sign computes nothing when it stands before its operand. -/
example : (evalUnary ⟨.symbol .plus, "+", none, ⟨0, 1⟩, 1⟩ .nil : EvalM Bindings Value) ∅ = none :=
  rfl

/-- A number without its number cannot be read. -/
example :
    (Parser.callAll [.expression] ⟨[⟨.number, "1", none, ⟨0, 1⟩, 1⟩], 0, 0⟩).isNone = true := by
  decide +kernel

/-- The first two of three tokens, read as an expression. -/
theorem stages_safe_not :
    "!a;".utf8ByteSize + 1 < UInt32.size ∧
      (Expr.unary ⟨.symbol .bang, "!", none, ⟨0, 1⟩, 1⟩
        (.name ⟨.ident, "a", none, ⟨1, 1⟩, 1⟩)).Supported ∧
      ∀ b, ∃ r, (Expr.unary ⟨.symbol .bang, "!", none, ⟨0, 1⟩, 1⟩
        (.name ⟨.ident, "a", none, ⟨1, 1⟩, 1⟩)).eval b = some r := by
  have hsize : "!a;".utf8ByteSize + 1 < UInt32.size := by decide
  refine ⟨hsize, ?_⟩
  obtain ⟨tokens, errors, htokenize, -, -, -, -, hparse⟩ := stages_safe hsize
  have htokens : (tokenize "!a;").map Prod.fst = some
      [⟨.symbol .bang, "!", none, ⟨0, 1⟩, 1⟩, ⟨.ident, "a", none, ⟨1, 1⟩, 1⟩,
        ⟨.symbol .semicolon, ";", none, ⟨2, 1⟩, 1⟩, ⟨.eof, "", none, ⟨3, 0⟩, 1⟩] := by
    decide +kernel
  rw [htokenize] at htokens
  obtain rfl := Option.some.inj htokens
  obtain ⟨p, answers, p', hnew, hcalls, -, -, hsafe, -⟩ := hparse 2 [.expression]
  have hrun : ((Parser.new? [⟨.symbol .bang, "!", none, ⟨0, 1⟩, 1⟩,
      ⟨.ident, "a", none, ⟨1, 1⟩, 1⟩]).bind Parser.expression.run).map (·.1.toOption) =
      some (some (Expr.unary ⟨.symbol .bang, "!", none, ⟨0, 1⟩, 1⟩
        (.name ⟨.ident, "a", none, ⟨1, 1⟩, 1⟩))) := by
    decide +kernel
  have hbegin : Parser.new? [⟨.symbol .bang, "!", none, ⟨0, 1⟩, 1⟩,
      ⟨.ident, "a", none, ⟨1, 1⟩, 1⟩] = some p := hnew
  rw [hbegin, Option.bind_some] at hrun
  cases hx : Parser.expression.run p with
  | none =>
    rw [hx] at hrun
    cases hrun
  | some x =>
    obtain ⟨result, q⟩ := x
    rw [hx] at hrun
    cases result with
    | error e => cases hrun
    | ok e =>
      have hanswers : Parser.callAll [.expression] p = some ([.expression (.ok e)], q) := by
        show ((Parser.expression.run p).bind _).bind _ = _
        rw [hx]
        rfl
      rw [hanswers] at hcalls
      cases hcalls
      cases hrun
      exact hsafe _ (List.mem_singleton_self _)

end Lox.Raw
