import Lox.Proofs.Numbers.Rounding
import Lox.Proofs.Scanning.Rendering

/-!
# What the texts of tokens denote

The kind of a token has the value of a literal in it. Here this is said without the scanner's
functions: the digits of a number are added up by their weights, the sum is a rational, and the
value is the floating-point number nearest to it; a string is what stands between its quotes; and a
word is reserved if it is one of the reserved words. There is exactly one kind that a text denotes
(`TokenText.denotes_iff`), and that is what the scan of a text has for it
(`Scan.ofString_rendering`).
-/

set_option autoImplicit false

namespace Lox

/-! ## Values of digits -/

/-- The number that a row of digits denotes, where each digit counts ten times as much as the one
behind it. -/
def Digits.value (ds : Digits) : ℕ :=
  Nat.ofDigits 10 (ds.chars.reverse.map fun c => c.toNat - '0'.toNat)

/-- The rational number that the digits before and behind a point denote. -/
def numberValue (whole : Digits) : Option Digits → ℚ
  | none => whole.value
  | some fraction => whole.value + fraction.value / 10 ^ fraction.chars.length

theorem digitsValue_append_singleton (cs : List Char) (c : Char) :
    digitsValue (cs ++ [c]) = 10 * digitsValue cs + (c.toNat - '0'.toNat) := by
  rw [digitsValue, List.foldl_append]
  rfl

theorem digitsValue_eq_ofDigits (cs : List Char) :
    digitsValue cs = Nat.ofDigits 10 (cs.reverse.map fun c => c.toNat - '0'.toNat) := by
  induction cs using List.reverseRecOn with
  | nil => rfl
  | append_singleton cs c ih =>
    rw [digitsValue_append_singleton, ih, List.reverse_concat, List.map_cons, Nat.ofDigits_cons]
    push_cast
    ring

theorem Decimal.value_ofDigits_whole (whole : Digits) :
    (Decimal.ofDigits whole.chars []).value = numberValue whole none := by
  simp [value, ofDigits, numberValue, Digits.value, digitsValue_eq_ofDigits]

/-- The digits behind the point make up one whole number with those before it, which is divided by
as many tens as there are digits behind the point. -/
theorem Decimal.value_ofDigits_fraction (whole fraction : Digits) :
    (Decimal.ofDigits whole.chars fraction.chars).value = numberValue whole (some fraction) := by
  have hten : (10 : ℚ) ^ fraction.chars.length ≠ 0 := by positivity
  have hdigits : digitsValue (whole.chars ++ fraction.chars) =
      fraction.value + 10 ^ fraction.chars.length * whole.value := by
    rw [digitsValue_eq_ofDigits, List.reverse_append, List.map_append, Nat.ofDigits_append,
      List.length_map, List.length_reverse]
    rfl
  rw [value, ofDigits, numberValue, hdigits, zpow_neg, zpow_natCast]
  push_cast
  field_simp
  ring

/-! ## Kinds -/

namespace TokenText

/-- The kind of token that a text denotes. -/
inductive Denotes : TokenText → TokenKind → Prop where
  | symbol (s : Symbol) : Denotes (.symbol s) (.symbol s)
  | number {whole : Digits} {fraction : Option Digits} {x : Float}
    (h : Binary64.Rounds (numberValue whole fraction) (Binary64.ofFloat x)) :
    Denotes (.number whole fraction) (.number x)
  | string (body : List Char) (h : '"' ∉ body) :
    Denotes (.string body h) (.string (String.ofList body))
  | keyword {first : Char} {tail : List Char} {hf : isNameStart first = true}
    {ht : ∀ d ∈ tail, isNameChar d = true} {k : Keyword} (h : first :: tail = k.text.toList) :
    Denotes (.word first tail hf ht) (.keyword k)
  | ident {first : Char} {tail : List Char} {hf : isNameStart first = true}
    {ht : ∀ d ∈ tail, isNameChar d = true} (h : ∀ k : Keyword, first :: tail ≠ k.text.toList) :
    Denotes (.word first tail hf ht) .ident

theorem denotes_number_iff {whole : Digits} {fraction : Option Digits} {kind : TokenKind} :
    Denotes (.number whole fraction) kind ↔ kind = TokenText.kind (.number whole fraction) := by
  -- The scanner reads a decimal, and this has the value of the digits.
  have hkind : ∃ d : Decimal, d.value = numberValue whole fraction ∧
      TokenText.kind (.number whole fraction) = .number d.toFloat := by
    cases fraction with
    | none => exact ⟨_, Decimal.value_ofDigits_whole whole, rfl⟩
    | some fraction => exact ⟨_, Decimal.value_ofDigits_fraction whole fraction, rfl⟩
  obtain ⟨d, hvalue, hkind⟩ := hkind
  rw [hkind]
  constructor
  · rintro (- | ⟨h⟩)
    rw [← hvalue] at h
    rw [Decimal.eq_toFloat_of_rounds h]
  · rintro rfl
    refine .number ?_
    rw [← hvalue]
    exact d.rounds_toFloat

/-- A word is reserved if it is spelled like a reserved word, and a name otherwise. -/
theorem denotes_word_iff {first : Char} {tail : List Char} {hf : isNameStart first = true}
    {ht : ∀ d ∈ tail, isNameChar d = true} {kind : TokenKind} :
    Denotes (.word first tail hf ht) kind ↔ kind = Piece.wordKind (first :: tail) := by
  constructor
  · intro h
    cases h with
    | keyword h => exact (Piece.wordKind_eq_keyword_iff.mpr h).symm
    | ident h => exact (Piece.wordKind_eq_ident_iff.mpr h).symm
  · rintro rfl
    by_cases h : ∃ k : Keyword, first :: tail = k.text.toList
    · obtain ⟨k, hk⟩ := h
      rw [Piece.wordKind_eq_keyword_iff.mpr hk]
      exact .keyword hk
    · have hnone : ∀ k : Keyword, first :: tail ≠ k.text.toList := fun k hk => h ⟨k, hk⟩
      rw [Piece.wordKind_eq_ident_iff.mpr hnone]
      exact .ident hnone

/-- A text denotes one kind of token. -/
theorem denotes_iff (t : TokenText) (kind : TokenKind) : t.Denotes kind ↔ kind = t.kind := by
  cases t with
  | symbol s =>
    constructor
    · rintro ⟨⟩
      rfl
    · rintro rfl
      exact .symbol s
  | number whole fraction => exact denotes_number_iff
  | string body h =>
    constructor
    · rintro ⟨⟩
      rfl
    · rintro rfl
      exact .string body h
  | word first tail hf ht => exact denotes_word_iff

end TokenText

/-! ## Scanning what is written -/

/-- **Scanning gives back what was written.** Whatever texts are written, with whatever blanks and
comments behind each of them, the scan has no error and one token for each text, in order, with
this text as its lexeme and of the kind that the text denotes, with its value; then comes the end. A
word is a token of a reserved word exactly if it is spelled like that. In particular the tokens of
any scan, written with spaces between them, are scanned as the same tokens again. -/
theorem Scan.ofString_rendering :
    (∀ (ts : List TokenText) (cs : List Char), Rendering ts cs →
      (Scan.ofString (String.ofList cs)).errors = [] ∧
      (Scan.ofString (String.ofList cs)).tokens.map Token.written = ts.map TokenText.written ∧
      List.Forall₂ TokenText.Denotes ts ((Scan.ofString (String.ofList cs)).tokens.map (·.kind)) ∧
      (Scan.ofString (String.ofList cs)).finish = ⟨"", byteLength cs, 1 + cs.count '\n'⟩) ∧
    (∀ (t : TokenText) (kind : TokenKind), t.Denotes kind ↔ kind = t.kind) ∧
    (∀ c tail hc ht k,
      (TokenText.word c tail hc ht).kind = .keyword k ↔ c :: tail = k.text.toList) ∧
    ∀ source : String,
      (Scan.ofString (Scan.ofString source).respaced).errors = [] ∧
      (Scan.ofString (Scan.ofString source).respaced).tokens.map Token.written =
        (Scan.ofString source).tokens.map Token.written := by
  refine ⟨fun ts cs h => ?_, TokenText.denotes_iff,
    fun c tail _ _ k => Piece.wordKind_eq_keyword_iff, fun source => ?_⟩
  · obtain ⟨herrors, htokens⟩ := scanFrom_rendering h .origin
    have hkinds : (Scan.ofString (String.ofList cs)).tokens.map (·.kind) = ts.map (·.kind) := by
      have hfirst := congrArg (List.map Prod.fst) htokens
      rw [List.map_map, List.map_map] at hfirst
      simp only [Scan.tokens, Scan.ofString, String.toList_ofList]
      exact hfirst
    have hdenotes : List.Forall₂ TokenText.Denotes ts (ts.map (·.kind)) := by
      rw [List.forall₂_map_right_iff, List.forall₂_same]
      exact fun t _ => (t.denotes_iff t.kind).mpr rfl
    rw [hkinds]
    simp only [Scan.errors, Scan.tokens, Scan.ofString, String.toList_ofList]
    refine ⟨herrors, htokens, hdenotes, ?_⟩
    simp [Lexeme.endingAt, Place.after, Place.origin]
  · obtain ⟨ts, hts⟩ := exists_tokenTexts source
    have hlexemes : (Scan.ofString source).tokens.map (·.lexeme.text) =
        ts.map fun t => String.ofList t.chars := by
      have htexts := congrArg (List.map Prod.snd) hts
      rw [List.map_map, List.map_map] at htexts
      exact htexts
    have hrendering := rendering_intercalate ts
    rw [← hlexemes, ← respaced] at hrendering
    rw [hts]
    exact scanFrom_rendering hrendering .origin

/-- A quotient with a line comment and a nested comment around its operator, and nothing at its
end. -/
theorem Scan.ofString_rendering_slash :
    ∃ (ts : List TokenText) (cs : List Char), Rendering ts cs ∧
      ts.map (fun t => String.ofList t.chars) = ["6", "/", "2.5"] ∧
      String.ofList cs = "6 // six\n/\t/*/*x*/*/2.5" ∧
      (Scan.ofString (String.ofList cs)).errors = [] ∧
      (Scan.ofString (String.ofList cs)).tokens.map Token.written =
        [(.number 6.0, "6"), (.symbol .slash, "/"), (.number 2.5, "2.5")] := by
  let six : TokenText := .number ⟨['6'], by simp, by simp⟩ none
  let half : TokenText :=
    .number ⟨['2'], by simp, by simp⟩ (some ⟨['5'], by simp, by simp⟩)
  have hline : Separator (' ' :: '/' :: '/' :: ([' ', 's', 'i', 'x'] ++ ['\n'])) :=
    .mk rfl (.line (by decide) .nil)
  have hinner : CommentBody ['x', '*', '/'] := .char (by simp) (by simp) .close
  have hblock : Separator ('\t' :: '/' :: '*' ::
      (('/' :: '*' :: (['x', '*', '/'] ++ ['*', '/'])) ++ [])) :=
    .mk rfl (.block (.nested hinner .close) .nil)
  have hrendering := Rendering.cons six hline
    (.cons (.symbol .slash) hblock (.last half))
  obtain ⟨herrors, htokens, -⟩ := Scan.ofString_rendering.1 _ _ hrendering
  exact ⟨_, _, hrendering, by decide, by decide, herrors, htokens.trans (by decide +kernel)⟩

end Lox
