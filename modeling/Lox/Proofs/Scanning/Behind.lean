import Lox.Proofs.Scanning.Cut

/-!
# Scanning one text behind another

What stands behind a line end is scanned as it would be by itself, if what stands before it has no
lexical error: no token goes on over a line end except a string, and no comment but a block
comment, and those have been closed. The items are the same as those of the text by itself, except
that they stand further back (`ScanItem.behind`).
-/

set_option autoImplicit false

namespace Lox

/-! ## Moving items back -/

/-- The lexeme where it is when its source text stands behind `text`. -/
def Lexeme.behind (text : List Char) (l : Lexeme) : Lexeme :=
  ⟨l.text, l.start + byteLength text, l.line + text.count '\n'⟩

theorem Lexeme.behind_append (xs ys : List Char) (l : Lexeme) :
    l.behind (xs ++ ys) = (l.behind ys).behind xs := by
  simp [behind, Nat.add_comm, Nat.add_left_comm]

/-- The token where it is when its source text stands behind `text`. -/
def Token.behind (text : List Char) (t : Token) : Token := ⟨t.kind, t.lexeme.behind text⟩

/-- The lexical error where it is when its source text stands behind `text`. -/
def LexicalError.behind (text : List Char) (e : LexicalError) : LexicalError :=
  ⟨e.fault, ⟨e.span.start + byteLength text, e.span.length⟩, e.line + text.count '\n'⟩

/-- The scan item where it is when its source text stands behind `text`. -/
def ScanItem.behind (text : List Char) : ScanItem → ScanItem
  | token t => token (t.behind text)
  | error e => error (e.behind text)

theorem ScanItem.token?_behind (text : List Char) (item : ScanItem) :
    (item.behind text).token? = item.token?.map (·.behind text) := by
  cases item <;> rfl

theorem ScanItem.error?_behind (text : List Char) (item : ScanItem) :
    (item.behind text).error? = item.error?.map (·.behind text) := by
  cases item <;> rfl

/-- Moving over two stretches of text leads to the same place in either order. -/
theorem Place.after_comm (p : Place) (xs ys : List Char) :
    (p.after xs).after ys = (p.after ys).after xs := by
  simp [after, Nat.add_right_comm]

theorem Piece.item?_after (p : Place) (text cs : List Char) (piece : Piece) :
    piece.item? (p.after text) cs = (piece.item? p cs).map (·.behind text) := by
  cases piece with
  | blank => rfl
  | token kind => rfl
  | fault f =>
    cases f with
    | unrecognized c => rfl
    | _ => simp [item?, ScanItem.behind, LexicalError.behind, Place.after, LexicalFault.line,
       Nat.add_right_comm]

/-- A scan that begins further back has its items further back, and no other items. -/
theorem scanFrom_after (p : Place) (text cs : List Char) :
    scanFrom (p.after text) cs = (scanFrom p cs).map (·.behind text) := by
  fun_induction scanFrom p cs with
  | case1 p => rw [scanFrom_nil, List.map_nil]
  | case2 p c cs piece taken ih =>
    rw [scanFrom_cons, Piece.item?_after, Place.after_comm, ih, List.map_append,
      Option.toList_map]

/-! ## A line end ends the pieces before it -/

namespace Piece

/-- A piece is closed if it has not been cut off by the end of the text. -/
def IsClosed : Piece → Prop
  | fault .unclosedString | fault .unclosedComment => False
  | _ => True

theorem takeWhile_line_end {p : Char → Bool} (hp : p '\n' = false) (cs ds : List Char) :
    (cs ++ '\n' :: ds).takeWhile p = cs.takeWhile p := by
  induction cs with
  | nil => simp [hp]
  | cons c cs ih => simp only [List.cons_append, List.takeWhile_cons, ih]

variable {cs : List Char} (ds : List Char)

theorem cutEither_line_end (long short : Symbol) :
    cutEither long short (cs ++ '\n' :: ds) = cutEither long short cs := by
  cases cs with
  | nil => rfl
  | cons c cs =>
    by_cases hc : c = '='
    · subst hc
      rfl
    · simp [cutEither, hc]

/-- A block comment that is closed ends where it did. -/
theorem commentLength?_append {n : Nat} (h : commentLength? 1 cs = some n) :
    commentLength? 1 (cs ++ ds) = some n := by
  obtain ⟨body, rest, rfl, hbody, hn⟩ := commentLength?_one_eq_some_iff.mp h
  exact commentLength?_one_eq_some_iff.mpr ⟨body, rest ++ ds, by simp, hbody, hn⟩

theorem cutSlash_line_end (h : (cutSlash cs).1.IsClosed) :
    cutSlash (cs ++ '\n' :: ds) = cutSlash cs := by
  cases cs with
  | nil => rfl
  | cons c cs =>
    by_cases hslash : c = '/'
    · subst hslash
      have hline := takeWhile_line_end (p := (· != '\n')) rfl cs ds
      simp only [List.cons_append, cutSlash, hline]
    by_cases hstar : c = '*'
    · subst hstar
      rw [cutSlash] at h
      rw [List.cons_append, cutSlash, cutSlash]
      cases hn : commentLength? 1 cs with
      | none =>
        rw [hn] at h
        cases h
      | some n => rw [commentLength?_append _ hn]
    · simp [cutSlash, hslash, hstar]

theorem cutString_line_end (h : (cutString cs).1.IsClosed) :
    cutString (cs ++ '\n' :: ds) = cutString cs := by
  obtain ⟨body, rest, rfl, hbody, hp, hrest⟩ := exists_row (· != '"') cs
  cases rest with
  | nil =>
    rw [cutString, hbody, List.append_nil, if_neg (Nat.lt_irrefl _)] at h
    cases h
  | cons c rest =>
    have hbody' : (body ++ (c :: (rest ++ '\n' :: ds))).takeWhile (· != '"') = body :=
      takeWhile_row hp hrest
    simp only [cutString, List.append_assoc, List.cons_append, hbody, hbody']
    rw [if_pos (by simp), if_pos (by simp)]

theorem fractionDigits_line_end :
    fractionDigits (cs ++ '\n' :: ds) = fractionDigits cs := by
  cases cs with
  | nil => rfl
  | cons c cs =>
    by_cases hpoint : c = '.'
    · subst hpoint
      exact takeWhile_line_end (by decide) cs ds
    · simp [fractionDigits, hpoint]

theorem cutNumber_line_end (c : Char) : cutNumber c (cs ++ '\n' :: ds) = cutNumber c cs := by
  have hwhole := takeWhile_line_end (p := Char.isDigit) (by decide) cs ds
  have hle : (cs.takeWhile Char.isDigit).length ≤ cs.length :=
    (List.takeWhile_prefix _).length_le
  simp only [cutNumber, hwhole, List.drop_append_of_le_length hle, fractionDigits_line_end]

theorem cutWord_line_end (c : Char) : cutWord c (cs ++ '\n' :: ds) = cutWord c cs := by
  rw [cutWord, takeWhile_line_end (by decide), cutWord]

/-- What is cut off a text does not change when a line end and more text is put behind, unless it
reached the end of the text unclosed. -/
theorem cut_line_end {c : Char} (h : (cut c cs).1.IsClosed) :
    cut c (cs ++ '\n' :: ds) = cut c cs := by
  unfold cut at h ⊢
  cases hsolo : soloSymbol? c with
  | some s => rfl
  | none =>
    rw [hsolo] at h
    simp only [cutEither_line_end, cutNumber_line_end, cutWord_line_end]
    -- Only a comment and a string can be open where the text ends.
    by_cases hslash : c == '/'
    · obtain rfl := beq_iff_eq.mp hslash
      exact cutSlash_line_end ds h
    by_cases hquote : c == '"'
    · obtain rfl := beq_iff_eq.mp hquote
      exact cutString_line_end ds h
    simp only [if_neg hslash, if_neg hquote]

end Piece

/-! ## Scanning two texts -/

/-- What stands behind a line end is scanned as if it were the whole text, if there is no lexical
error before. -/
theorem scanFrom_line_end {p : Place} {cs : List Char} (ds : List Char)
    (h : (scanFrom p cs).filterMap ScanItem.error? = []) :
    scanFrom p (cs ++ '\n' :: ds) = scanFrom p cs ++ scanFrom (p.after (cs ++ ['\n'])) ds := by
  fun_induction scanFrom p cs with
  | case1 p =>
    rw [List.nil_append, scanFrom_cons]
    rfl
  | case2 p c cs piece taken ih =>
    rw [List.filterMap_append, List.append_eq_nil_iff] at h
    obtain ⟨hfirst, hrest⟩ := h
    have hclosed : (Piece.cut c cs).1.IsClosed := by
      cases hcut : (Piece.cut c cs).1 with
      | blank => exact trivial
      | token kind => exact trivial
      | fault f =>
        simp only [piece, hcut] at hfirst
        cases hfirst
    obtain ⟨tail, behind, rfl, htail, -⟩ := Piece.cut_isRight c cs
    have ih := ih hrest
    simp only [piece, taken, htail, List.take_left, List.drop_left] at ih ⊢
    -- The first piece is the same with the line end behind the text, and of the same length.
    rw [List.cons_append, scanFrom_cons, Piece.cut_line_end ds hclosed, htail, List.append_assoc,
      List.take_left, List.drop_left, ih, ← Place.after_append, List.append_assoc]
    simp only [List.cons_append, List.append_assoc]

/-- The scan of a text behind another and a line end has the items of both. -/
theorem Scan.items_line_end {first : String} (second : String)
    (h : (Scan.ofString first).errors = []) :
    (Scan.ofString (first ++ "\n" ++ second)).items =
      (Scan.ofString first).items ++
        (Scan.ofString second).items.map (·.behind (first ++ "\n").toList) := by
  have hsource : (first ++ "\n" ++ second).toList = first.toList ++ '\n' :: second.toList := by
    simp
  have hfirst : (first ++ "\n").toList = first.toList ++ ['\n'] := by simp
  simp only [Scan.ofString, hsource, hfirst]
  rw [scanFrom_line_end _ h, scanFrom_after]

theorem Scan.errors_line_end {first second : String} (h₁ : (Scan.ofString first).errors = [])
    (h₂ : (Scan.ofString second).errors = []) :
    (Scan.ofString (first ++ "\n" ++ second)).errors = [] := by
  rw [errors, items_line_end second h₁, List.filterMap_append, List.filterMap_map]
  simp only [Function.comp_def, ScanItem.error?_behind, ← List.map_filterMap]
  rw [← errors, ← errors, h₁, h₂, List.map_nil, List.append_nil]

theorem Scan.tokens_line_end {first : String} (second : String)
    (h : (Scan.ofString first).errors = []) :
    (Scan.ofString (first ++ "\n" ++ second)).tokens =
      (Scan.ofString first).tokens ++
        (Scan.ofString second).tokens.map (·.behind (first ++ "\n").toList) := by
  rw [tokens, items_line_end second h, List.filterMap_append, List.filterMap_map]
  simp only [Function.comp_def, ScanItem.token?_behind, ← List.map_filterMap]
  rfl

end Lox
