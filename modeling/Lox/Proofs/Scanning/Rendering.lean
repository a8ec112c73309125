import Lox.Proofs.Scanning.Partition

/-!
# Texts written out of tokens

The other way round: given the tokens, write them down with something between them, and scan that.
What comes back is what was written down, one token for each, and nothing is lost at the joints
(`scanFrom_rendering`). A blank character behind a token is all it takes. It goes on with none of
the classes of tokens, and it completes neither a symbol of two characters nor a comment mark.

What may be written is said by data, not by a scanner: a `TokenText` is a text of one of the
classes of the lexical grammar, and has its kind from its class; a `Filler` is any row of blanks
and comments. So there is no token that cannot be written (`exists_tokenText_of_spells`), and none
whose kind depends on how it was found.
-/

set_option autoImplicit false

namespace Lox

/-! ## What is written -/

/-- A row of one or more digits. -/
structure Digits where
  chars : List Char
  ne_nil : chars ≠ []
  isDigit : ∀ d ∈ chars, d.isDigit = true

/-- A text that is a token. -/
inductive TokenText where
  | symbol (s : Symbol)
  | number (whole : Digits) (fraction : Option Digits)
  | string (body : List Char) (h : '"' ∉ body)
  /-- A name or a reserved word. -/
  | word (first : Char) (tail : List Char) (hf : isNameStart first = true)
    (ht : ∀ d ∈ tail, isNameChar d = true)

namespace TokenText

/-- The characters of the text. -/
def chars : TokenText → List Char
  | symbol s => s.text.toList
  | number whole none => whole.chars
  | number whole (some fraction) => whole.chars ++ '.' :: fraction.chars
  | string body _ => '"' :: (body ++ ['"'])
  | word first tail _ _ => first :: tail

/-- The kind of the token, with the value of a literal. -/
def kind : TokenText → TokenKind
  | symbol s => .symbol s
  | number whole none => .number (Decimal.ofDigits whole.chars []).toFloat
  | number whole (some fraction) => .number (Decimal.ofDigits whole.chars fraction.chars).toFloat
  | string body _ => .string (String.ofList body)
  | word first tail _ _ => Piece.wordKind (first :: tail)

/-- What there is to a token apart from its place. -/
def written (t : TokenText) : TokenKind × String := (t.kind, String.ofList t.chars)

end TokenText

/-- What there is to a token apart from its place. -/
def Token.written (t : Token) : TokenKind × String := (t.kind, t.lexeme.text)

/-! ## What is written between -/

/-- A row of blank characters and comments. A line comment has its line end with it, so that a
filler is one whatever stands behind it. -/
inductive Filler : List Char → Prop where
  | nil : Filler []
  | space {c : Char} {rest : List Char} (h : isBlankChar c = true) (hr : Filler rest) :
    Filler (c :: rest)
  | line {text rest : List Char} (h : '\n' ∉ text) (hr : Filler rest) :
    Filler ('/' :: '/' :: (text ++ '\n' :: rest))
  | block {body rest : List Char} (h : CommentBody body) (hr : Filler rest) :
    Filler ('/' :: '*' :: (body ++ rest))

/-- A filler that begins with a blank character. -/
inductive Separator : List Char → Prop where
  | mk {c : Char} {rest : List Char} (h : isBlankChar c = true) (hr : Filler rest) :
    Separator (c :: rest)

/-- The characters `cs` are the texts `ts`, with a separator behind each of them. Behind the last
there may be none. -/
inductive Rendering : List TokenText → List Char → Prop where
  | nil : Rendering [] []
  | last (t : TokenText) : Rendering [t] t.chars
  | cons (t : TokenText) {ts : List TokenText} {gap cs : List Char} (hg : Separator gap)
    (hr : Rendering ts cs) : Rendering (t :: ts) (t.chars ++ (gap ++ cs))

/-! ## Every token can be written -/

namespace Piece

theorem wordKind_text (k : Keyword) : wordKind k.text.toList = .keyword k := by
  rw [wordKind, String.ofList_toList, Keyword.ofText?_text]

/-- A word is reserved if it is in the table, and only then. -/
theorem wordKind_eq_keyword_iff {cs : List Char} {k : Keyword} :
    wordKind cs = .keyword k ↔ cs = k.text.toList := by
  constructor
  · intro h
    unfold wordKind at h
    split at h
    · next k' hk =>
      cases h
      rw [Keyword.text_of_ofText? hk, String.toList_ofList]
    · cases h
  · rintro rfl
    exact wordKind_text k

theorem wordKind_eq_ident_iff {cs : List Char} :
    wordKind cs = .ident ↔ ∀ k : Keyword, cs ≠ k.text.toList := by
  constructor
  · rintro h k rfl
    rw [wordKind_text] at h
    cases h
  · intro h
    unfold wordKind
    split
    · next k hk =>
      have htext : cs = k.text.toList := by rw [Keyword.text_of_ofText? hk, String.toList_ofList]
      exact absurd htext (h k)
    · rfl

end Piece

/-- A spelling of the lexical grammar is a text that can be written, with the same kind. -/
theorem exists_tokenText_of_spells {kind : TokenKind} {cs : List Char} (h : kind.Spells cs) :
    ∃ t : TokenText, t.kind = kind ∧ t.chars = cs := by
  cases h with
  | symbol s => exact ⟨.symbol s, rfl, rfl⟩
  | whole hne hd => exact ⟨.number ⟨_, hne, hd⟩ none, rfl, rfl⟩
  | fraction hne hd hfne hf => exact ⟨.number ⟨_, hne, hd⟩ (some ⟨_, hfne, hf⟩), rfl, rfl⟩
  | string hb => exact ⟨.string _ hb, rfl, rfl⟩
  | keyword k =>
    obtain ⟨c, tail, htext, hc, ht⟩ := Piece.text_of_keyword k
    refine ⟨.word c tail hc ht, ?_, htext.symm⟩
    show Piece.wordKind (c :: tail) = _
    rw [← htext, Piece.wordKind_text]
  | @ident c tail hc ht hk =>
    refine ⟨.word c tail hc ht, ?_, rfl⟩
    show Piece.wordKind (c :: tail) = _
    rw [Piece.wordKind, hk]

/-! ## What is cut off where a token is written

The text behind the token begins with a blank character, if there is any. -/

theorem isNameChar_of_isBlankChar {c : Char} (h : isBlankChar c = true) :
    isNameChar c = false := by
  simp only [isBlankChar, Bool.or_eq_true, beq_iff_eq] at h
  rcases h with ((rfl | rfl) | rfl) | rfl <;> rfl

theorem isDigit_of_isBlankChar {c : Char} (h : isBlankChar c = true) : c.isDigit = false := by
  rw [Bool.eq_false_iff]
  intro hd
  have := isNameChar_of_isBlankChar h
  simp [isNameChar_of_isDigit hd] at this

namespace Piece

variable {behind : List Char}

/-- No text goes on with a character that is not blank. -/
theorem not_begins_of_isBlankChar {c : Char} {cs : List Char} (hc : isBlankChar c = false)
    (hb : ∀ c ∈ behind.head?, isBlankChar c = true) : behind ≠ c :: cs := by
  rintro rfl
  simp [hc] at hb

theorem cutEither_short (long short : Symbol)
    (hb : ∀ c ∈ behind.head?, isBlankChar c = true) :
    cutEither long short behind = (token (.symbol short), 0) := by
  rw [cutEither]
  intro cs
  exact not_begins_of_isBlankChar (by decide) hb

theorem cutSlash_alone (hb : ∀ c ∈ behind.head?, isBlankChar c = true) :
    cutSlash behind = (token (.symbol .slash), 0) := by
  rw [cutSlash]
  · intro cs
    exact not_begins_of_isBlankChar (by decide) hb
  · intro cs
    exact not_begins_of_isBlankChar (by decide) hb

theorem fractionDigits_of_isBlankChar (hb : ∀ c ∈ behind.head?, isBlankChar c = true) :
    fractionDigits behind = [] := by
  rw [fractionDigits]
  intro cs
  exact not_begins_of_isBlankChar (by decide) hb

theorem cutNumber_whole {c : Char} {digits : List Char} (hd : ∀ d ∈ digits, d.isDigit = true)
    (hb : ∀ c ∈ behind.head?, isBlankChar c = true) :
    cutNumber c (digits ++ behind) =
      (token (.number (Decimal.ofDigits (c :: digits) []).toFloat), digits.length) := by
  have hwhole : (digits ++ behind).takeWhile Char.isDigit = digits :=
    takeWhile_row hd fun d hd => isDigit_of_isBlankChar (hb d hd)
  simp [cutNumber, hwhole, fractionDigits_of_isBlankChar hb]

theorem cutNumber_fraction {c : Char} {digits fraction : List Char}
    (hd : ∀ d ∈ digits, d.isDigit = true) (hne : fraction ≠ [])
    (hf : ∀ d ∈ fraction, d.isDigit = true) (hb : ∀ c ∈ behind.head?, isBlankChar c = true) :
    cutNumber c (digits ++ '.' :: (fraction ++ behind)) =
      (token (.number (Decimal.ofDigits (c :: digits) fraction).toFloat),
        digits.length + 1 + fraction.length) := by
  have hwhole : (digits ++ '.' :: (fraction ++ behind)).takeWhile Char.isDigit = digits :=
    takeWhile_row hd (by simp)
  have hfraction : (fraction ++ behind).takeWhile Char.isDigit = fraction :=
    takeWhile_row hf fun d hd => isDigit_of_isBlankChar (hb d hd)
  simp [cutNumber, hwhole, fractionDigits, hfraction, hne]

theorem cut_quote (cs : List Char) : cut '"' cs = cutString cs := rfl

theorem cut_slash (cs : List Char) : cut '/' cs = cutSlash cs := rfl

theorem cutString_closed {body : List Char} (h : '"' ∉ body) (behind : List Char) :
    cutString (body ++ '"' :: behind) =
      (token (.string (String.ofList body)), body.length + 1) := by
  have hbody : (body ++ '"' :: behind).takeWhile (· != '"') = body := by
    refine takeWhile_row (fun c hc => ?_) (by simp)
    rw [bne_iff_ne]
    rintro rfl
    exact h hc
  simp [cutString, hbody]

theorem cutWord_row {c : Char} {tail : List Char} (ht : ∀ d ∈ tail, isNameChar d = true)
    (hb : ∀ c ∈ behind.head?, isBlankChar c = true) :
    cutWord c (tail ++ behind) = (token (wordKind (c :: tail)), tail.length) := by
  have htail : (tail ++ behind).takeWhile isNameChar = tail :=
    takeWhile_row ht fun d hd => isNameChar_of_isBlankChar (hb d hd)
  simp [cutWord, htail]

/-- What is cut off is the token that is written there, all of it and no more. -/
theorem cut_tokenText (t : TokenText) (hb : ∀ c ∈ behind.head?, isBlankChar c = true) :
    ∃ c tail, t.chars = c :: tail ∧ cut c (tail ++ behind) = (token t.kind, tail.length) := by
  cases t with
  | symbol s =>
    cases s with
    | slash => exact ⟨_, _, rfl, cutSlash_alone hb⟩
    | bang | equal | less | greater => exact ⟨_, _, rfl, cutEither_short _ _ hb⟩
    | _ => exact ⟨_, _, rfl, rfl⟩
  | number whole fraction =>
    obtain ⟨digits, hne, hd⟩ := whole
    obtain ⟨d, digits, rfl⟩ := List.exists_cons_of_ne_nil hne
    obtain ⟨hd, hds⟩ := List.forall_mem_cons.mp hd
    cases fraction with
    | none =>
      refine ⟨d, digits, rfl, ?_⟩
      rw [cut_of_isDigit hd]
      exact cutNumber_whole hds hb
    | some fraction =>
      refine ⟨d, digits ++ '.' :: fraction.chars, rfl, ?_⟩
      rw [cut_of_isDigit hd, List.append_assoc]
      simpa [TokenText.kind, Nat.add_right_comm, Nat.add_assoc] using
        cutNumber_fraction hds fraction.ne_nil fraction.isDigit hb
  | string body h =>
    refine ⟨'"', body ++ ['"'], rfl, ?_⟩
    rw [List.append_assoc, cut_quote]
    simpa [TokenText.kind] using cutString_closed h behind
  | word c tail hf ht =>
    refine ⟨c, tail, rfl, ?_⟩
    rw [cut_of_isNameStart hf]
    exact cutWord_row ht hb

end Piece

/-! ## Scanning what is written -/

theorem scanFrom_tokenText (t : TokenText) (p : Place) {behind : List Char}
    (hb : ∀ c ∈ behind.head?, isBlankChar c = true) :
    scanFrom p (t.chars ++ behind) =
      .token ⟨t.kind, .ofChars p t.chars⟩ :: scanFrom (p.after t.chars) behind := by
  obtain ⟨c, tail, hchars, hcut⟩ := Piece.cut_tokenText t hb
  rw [hchars, List.cons_append, scanFrom_cons, hcut]
  simp [Piece.item?]

/-- A blank leaves no item. -/
theorem scanFrom_blank {c : Char} {tail cs : List Char} (p : Place)
    (h : Piece.cut c (tail ++ cs) = (.blank, tail.length)) :
    scanFrom p (c :: (tail ++ cs)) = scanFrom (p.after (c :: tail)) cs := by
  rw [scanFrom_cons, h]
  simp [Piece.item?]

theorem cut_of_isBlankChar {c : Char} (h : isBlankChar c = true) (cs : List Char) :
    Piece.cut c cs = (.blank, 0) := by
  simp only [isBlankChar, Bool.or_eq_true, beq_iff_eq] at h
  rcases h with ((rfl | rfl) | rfl) | rfl <;> rfl

theorem cut_line {text : List Char} (h : '\n' ∉ text) (cs : List Char) :
    Piece.cut '/' ('/' :: (text ++ '\n' :: cs)) = (.blank, 1 + text.length) := by
  have htext : (text ++ '\n' :: cs).takeWhile (· != '\n') = text := by
    refine takeWhile_row (fun c hc => ?_) (by simp)
    rw [bne_iff_ne]
    rintro rfl
    exact h hc
  simp [Piece.cut_slash, Piece.cutSlash, htext]

theorem cut_block {body : List Char} (h : CommentBody body) (cs : List Char) :
    Piece.cut '/' ('*' :: (body ++ cs)) = (.blank, 1 + body.length) := by
  have hlength : Piece.commentLength? 1 (body ++ cs) = some body.length :=
    Piece.commentLength?_one_eq_some_iff.mpr ⟨body, cs, rfl, h, rfl⟩
  simp [Piece.cut_slash, Piece.cutSlash, hlength]

theorem scanFrom_filler {gap : List Char} (h : Filler gap) (p : Place) (cs : List Char) :
    scanFrom p (gap ++ cs) = scanFrom (p.after gap) cs := by
  induction h generalizing p with
  | nil => rfl
  | @space c rest hc _ ih =>
    have hblank : Piece.cut c ([] ++ (rest ++ cs)) = (.blank, 0) := cut_of_isBlankChar hc _
    rw [← List.singleton_append, Place.after_append, ← ih]
    exact scanFrom_blank p hblank
  | @line text rest ht _ ih =>
    -- The line end is a blank of its own, but the comment stops before it.
    have hblank : Piece.cut '/' (('/' :: text) ++ ('\n' :: (rest ++ cs))) =
        (.blank, ('/' :: text).length) := by
      rw [List.cons_append, cut_line ht, List.length_cons, Nat.add_comm]
    have hend : Piece.cut '\n' ([] ++ (rest ++ cs)) = (.blank, 0) := rfl
    have hsplit : '/' :: '/' :: (text ++ '\n' :: rest) =
        ('/' :: '/' :: text) ++ (['\n'] ++ rest) := by simp
    rw [hsplit, Place.after_append, Place.after_append, ← ih, List.append_assoc,
      List.append_assoc]
    exact (scanFrom_blank p hblank).trans (scanFrom_blank _ hend)
  | @block body rest hbody _ ih =>
    have hblank : Piece.cut '/' (('*' :: body) ++ (rest ++ cs)) =
        (.blank, ('*' :: body).length) := by
      rw [List.cons_append, cut_block hbody, List.length_cons, Nat.add_comm]
    have hsplit : '/' :: '*' :: (body ++ rest) = ('/' :: '*' :: body) ++ rest := by simp
    rw [hsplit, Place.after_append, ← ih, List.append_assoc]
    exact scanFrom_blank p hblank

theorem Separator.filler {gap : List Char} (h : Separator gap) : Filler gap := by
  obtain ⟨hc, hr⟩ := h
  exact .space hc hr

theorem Separator.head_isBlankChar {gap : List Char} (h : Separator gap) (cs : List Char) :
    ∀ c ∈ (gap ++ cs).head?, isBlankChar c = true := by
  obtain ⟨hc, -⟩ := h
  simpa using hc

/-- The scan of a rendering has one token for each text, and nothing else. -/
theorem scanFrom_rendering {ts : List TokenText} {cs : List Char} (h : Rendering ts cs)
    (p : Place) :
    (scanFrom p cs).filterMap ScanItem.error? = [] ∧
      ((scanFrom p cs).filterMap ScanItem.token?).map Token.written =
        ts.map TokenText.written := by
  induction h generalizing p with
  | nil => simp [scanFrom_nil]
  | last t =>
    have hnone : ∀ c ∈ ([] : List Char).head?, isBlankChar c = true := by simp
    have hscan := scanFrom_tokenText t p hnone
    rw [List.append_nil] at hscan
    rw [hscan, scanFrom_nil]
    exact ⟨rfl, rfl⟩
  | @cons t ts gap cs hg _ ih =>
    obtain ⟨herrors, htokens⟩ := ih ((p.after t.chars).after gap)
    rw [scanFrom_tokenText t p (hg.head_isBlankChar cs), scanFrom_filler hg.filler]
    exact ⟨herrors, congrArg (t.written :: ·) htokens⟩

/-! ## Writing down what has been scanned -/

theorem rendering_intercalate (ts : List TokenText) :
    Rendering ts (" ".intercalate (ts.map fun t => String.ofList t.chars)).toList := by
  induction ts with
  | nil => exact .nil
  | cons t ts ih =>
    cases ts with
    | nil => simpa using Rendering.last t
    | cons t' ts =>
      have hspace : Separator [' '] := ⟨rfl, .nil⟩
      simpa using Rendering.cons t hspace ih

/-- The tokens of a scan are texts that can be written. -/
theorem Scan.exists_tokenTexts (source : String) :
    ∃ ts : List TokenText,
      (Scan.ofString source).tokens.map Token.written = ts.map TokenText.written := by
  have hall (t : Token) (ht : t ∈ (Scan.ofString source).tokens) :
      ∃ text : TokenText, text.written = t.written := by
    obtain ⟨before, cs, behind, -, hlexeme, hmunches⟩ := Scan.exists_of_mem_tokens ht
    obtain ⟨text, hkind, hchars⟩ := exists_tokenText_of_spells hmunches.spells
    exact ⟨text, by rw [TokenText.written, Token.written, hkind, hchars, hlexeme, Lexeme.ofChars]⟩
  generalize (Scan.ofString source).tokens = tokens at hall
  induction tokens with
  | nil => exact ⟨[], rfl⟩
  | cons t tokens ih =>
    obtain ⟨text, htext⟩ := hall t List.mem_cons_self
    obtain ⟨texts, htexts⟩ := ih fun t ht => hall t (List.mem_cons_of_mem _ ht)
    exact ⟨text :: texts, by rw [List.map_cons, List.map_cons, htext, htexts]⟩

/-- The lexemes of a scan's tokens, with a space between them. -/
def Scan.respaced (s : Scan) : String := " ".intercalate (s.tokens.map (·.lexeme.text))

end Lox
