import Lox.Parse.Parser
import Lox.Proofs.Scanning.Partition
import Lox.Raw.Scan

/-!
# Scanning always has a result

Of a source text whose places can be numbered with 32 bits, the scanner that takes nothing for
granted (`Lox.Raw.Scan`) makes the tokens and errors that a scan has, written out in full
(`tokenize_eq`).

The invariant is that the cursor is the place behind the characters that have been read. So what a
piece covers lies between two places of the source: the slices are the characters of the piece, or
of a string those between its quotes, and the piece is spelled as its kind says, which is what
reading a number and looking up a word rely on.
-/

set_option autoImplicit false

namespace Lox

/-! ## Tokens written out in full -/

/-- The class of a token. -/
def TokenKind.raw : TokenKind → Raw.Kind
  | symbol s => .symbol s
  | keyword k => .keyword k
  | number _ => .number
  | string _ => .string
  | ident => .ident

/-- What a token of this kind denotes, if it is a literal. -/
def TokenKind.literal? : TokenKind → Option Raw.Literal
  | number v => some (.number v)
  | string s => some (.string s)
  | _ => none

/-- A span numbered with 32 bits. -/
def Span.raw (s : Span) : Raw.Span := ⟨UInt32.ofNat s.start, UInt32.ofNat s.length⟩

/-- The token that a lexeme is, with a kind and a literal beside it. -/
def Lexeme.raw (l : Lexeme) (kind : Raw.Kind) (literal : Option Raw.Literal) : Raw.Token :=
  ⟨kind, l.text, literal, l.span.raw, UInt32.ofNat l.line⟩

/-- A token with its literal beside its kind. -/
def Token.raw (t : Token) : Raw.Token := t.lexeme.raw t.kind.raw t.kind.literal?

/-- The end of the input is a token, too. -/
def Slot.raw : Slot → Raw.Token
  | token t => t.raw
  | finish site => site.raw .eof none

def LexicalError.raw (e : LexicalError) : Raw.LexicalError :=
  ⟨e.fault, e.span.raw, UInt32.ofNat e.line⟩

def ScanItem.raw : ScanItem → Raw.Item
  | token t => .token t.raw
  | error e => .error e.raw

/-- The cursor at a place. -/
def Place.cursor (p : Place) : Raw.Cursor := ⟨UInt32.ofNat p.offset, UInt32.ofNat p.line⟩

/-! ## Places that can be numbered -/

/-- 32 bits are enough for the place. -/
structure Place.Fits (p : Place) : Prop where
  offset : p.offset < UInt32.size
  line : p.line < UInt32.size

theorem count_le_byteLength (c : Char) (cs : List Char) : cs.count c ≤ byteLength cs := by
  induction cs with
  | nil => exact Nat.le_refl 0
  | cons d cs ih =>
    have hpos := d.utf8Size_pos
    rw [List.count_cons, byteLength_cons]
    split <;> omega

theorem Place.offset_after_origin (cs : List Char) : (origin.after cs).offset = byteLength cs :=
  Nat.zero_add _

/-- Of a short text every place fits: there are no more lines than bytes, and one. -/
theorem Place.fits_of_eq_append {source : String} {before behind : List Char}
    (hsize : source.utf8ByteSize + 1 < UInt32.size) (h : source.toList = before ++ behind) :
    (Place.origin.after before).Fits := by
  have hcount := count_le_byteLength '\n' before
  rw [← byteLength_toList, h, byteLength_append] at hsize
  constructor <;> simp only [Place.after, Place.origin] <;> omega

namespace Raw

/-! ## Arithmetic -/

/-- Where the sum can be numbered, adding has a result. -/
theorem checkedAdd?_ofNat {a b : Nat} (h : a + b < UInt32.size) :
    checkedAdd? (UInt32.ofNat a) (UInt32.ofNat b) = some (UInt32.ofNat (a + b)) := by
  have ha : a < UInt32.size := Nat.lt_of_le_of_lt (Nat.le_add_right ..) h
  have hb : b < UInt32.size := Nat.lt_of_le_of_lt (Nat.le_add_left ..) h
  rw [checkedAdd?, UInt32.toNat_ofNat_of_lt' ha, UInt32.toNat_ofNat_of_lt' hb, if_pos h,
    UInt32.ofNat_add]

/-- A span from a place to one behind it. -/
theorem Span.between?_ofNat {a n : Nat} (h : a + n < UInt32.size) :
    Span.between? (UInt32.ofNat a) (UInt32.ofNat (a + n)) =
      some ⟨UInt32.ofNat a, UInt32.ofNat n⟩ := by
  have ha : a < UInt32.size := Nat.lt_of_le_of_lt (Nat.le_add_right ..) h
  rw [Span.between?, if_pos ((UInt32.ofNat_le_iff_le ha h).mpr (Nat.le_add_right ..)),
    ← UInt32.ofNat_sub (Nat.le_add_right ..), Nat.add_sub_cancel_left]

theorem checkedSub?_add (a b : Nat) : checkedSub? (a + b) a = some b := by
  rw [checkedSub?, if_pos (Nat.le_add_right ..), Nat.add_sub_cancel_left]

/-! ## Slices -/

/-- Characters are split off where their bytes end, and nowhere else. -/
theorem splitBytes?_eq_some_iff {n : Nat} {cs xs ys : List Char} :
    splitBytes? n cs = some (xs, ys) ↔ cs = xs ++ ys ∧ byteLength xs = n := by
  fun_induction splitBytes? n cs generalizing xs with
  | case1 cs =>
    constructor
    · rintro ⟨⟩
      exact ⟨rfl, rfl⟩
    · rintro ⟨rfl, hlength⟩
      cases xs with
      | nil => rfl
      | cons c xs =>
        have hpos := c.utf8Size_pos
        rw [byteLength_cons] at hlength
        omega
  | case2 n =>
    refine iff_of_false (by rintro ⟨⟩) ?_
    rintro ⟨heq, hlength⟩
    rw [(List.append_eq_nil_iff.mp heq.symm).1] at hlength
    cases hlength
  | case3 n c cs hle ih =>
    simp only [Option.map_eq_some_iff, Prod.mk.injEq, Prod.exists]
    constructor
    · rintro ⟨xs, ys, hsplit, rfl, rfl⟩
      obtain ⟨rfl, hlength⟩ := ih.mp hsplit
      refine ⟨rfl, ?_⟩
      rw [byteLength_cons]
      omega
    · rintro ⟨heq, hlength⟩
      cases xs with
      | nil => cases hlength
      | cons d xs =>
        obtain ⟨rfl, rfl⟩ := List.cons_eq_cons.mp heq
        rw [byteLength_cons] at hlength
        exact ⟨xs, ys, ih.mpr ⟨rfl, by omega⟩, rfl, rfl⟩
  | case4 n c cs hle =>
    -- The first character goes beyond the bytes, so no row of characters ends there.
    refine iff_of_false (by rintro ⟨⟩) ?_
    rintro ⟨heq, hlength⟩
    cases xs with
    | nil => cases hlength
    | cons d xs =>
      obtain ⟨rfl, rfl⟩ := List.cons_eq_cons.mp heq
      rw [byteLength_cons] at hlength
      omega

/-- There is a slice where characters begin and end, and it is these characters. -/
theorem slice?_eq_some_iff {source text : String} {start stop : Nat} :
    slice? source start stop = some text ↔
      ∃ before behind, source.toList = before ++ (text.toList ++ behind) ∧
        start = byteLength before ∧ stop = start + byteLength text.toList := by
  constructor
  · intro h
    simp only [slice?, Option.bind_eq_bind, Option.bind_eq_some_iff, Prod.exists] at h
    obtain ⟨length, hsub, before, rest, hbefore, cs, behind, hcs, htext⟩ := h
    obtain ⟨heq, rfl⟩ := splitBytes?_eq_some_iff.mp hbefore
    obtain ⟨rfl, rfl⟩ := splitBytes?_eq_some_iff.mp hcs
    cases htext
    rw [checkedSub?] at hsub
    split at hsub
    · refine ⟨before, behind, ?_, rfl, ?_⟩
      · rwa [String.toList_ofList]
      · rw [String.toList_ofList, ← Option.some.inj hsub]
        omega
    · cases hsub
  · rintro ⟨before, behind, heq, rfl, rfl⟩
    have hbefore := splitBytes?_eq_some_iff.mpr ⟨heq, rfl⟩
    have htext : splitBytes? (byteLength text.toList) (text.toList ++ behind) = some _ :=
      splitBytes?_eq_some_iff.mpr ⟨rfl, rfl⟩
    rw [slice?, checkedSub?_add]
    simp only [Option.bind_eq_bind, Option.bind_some, hbefore, htext, String.ofList_toList]
    rfl

/-! ## The cursor -/

theorem Cursor.behind_cursor (p : Place) (c : Char) :
    p.cursor.behind c = UInt32.ofNat (p.offset + c.utf8Size) := by
  rw [Cursor.behind, Place.cursor, UInt32.ofNat_add, UInt32.ofNat_toNat, ← UInt32.ofNat_add]

/-- The cursor goes on as the place does, as long as the lines can be counted. -/
theorem Cursor.advance?_cursor {p : Place} {c : Char} (h : (p.after [c]).line < UInt32.size) :
    p.cursor.advance? c = some (p.after [c]).cursor := by
  have hoffset : p.cursor.behind c = UInt32.ofNat (p.after [c]).offset := by
    rw [behind_cursor]
    simp [Place.after]
  rw [Cursor.advance?, hoffset]
  by_cases hc : c = '\n'
  · subst hc
    have hadd : checkedAdd? p.cursor.line 1 = some (UInt32.ofNat (p.line + 1)) :=
      checkedAdd?_ofNat h
    rw [if_pos rfl, hadd]
    rfl
  · have hline : p.cursor.line = (p.after [c]).cursor.line := by
      simp [Place.cursor, Place.after, hc]
    rw [if_neg hc, hline]
    rfl

theorem Cursor.over?_cursor {p : Place} {cs : List Char} (h : (p.after cs).line < UInt32.size) :
    p.cursor.over? cs = some (p.after cs).cursor := by
  induction cs generalizing p with
  | nil => rfl
  | cons c cs ih =>
    rw [← List.singleton_append, Place.after_append] at h ⊢
    have hc : (p.after [c]).line < UInt32.size := by
      simp only [Place.after] at h ⊢
      omega
    rw [List.singleton_append, Cursor.over?, Cursor.advance?_cursor hc]
    exact ih h

/-! ## Pieces -/

/-- The characters `text` stand at `p` in a source text that is short enough. -/
structure Occurs (source : String) (p : Place) (text : List Char) : Prop where
  short : source.utf8ByteSize + 1 < UInt32.size
  part : ∃ before behind, source.toList = before ++ (text ++ behind) ∧
    p = Place.origin.after before

namespace Occurs

variable {source : String} {p : Place} {text : List Char}

/-- The characters end within the source, so the place behind them can be numbered. -/
theorem stop_fits (h : Occurs source p text) : (p.after text).Fits := by
  obtain ⟨before, behind, heq, rfl⟩ := h.part
  rw [← Place.after_append]
  exact Place.fits_of_eq_append h.short (heq.trans (List.append_assoc ..).symm)

theorem start_fits (h : Occurs source p text) : p.Fits := by
  obtain ⟨before, behind, heq, rfl⟩ := h.part
  exact Place.fits_of_eq_append h.short heq

/-- The slice from the one cursor to the other is the characters. -/
theorem slice (h : Occurs source p text) :
    slice? source p.cursor.offset.toNat (p.after text).cursor.offset.toNat =
      some (String.ofList text) := by
  obtain ⟨before, behind, heq, hp⟩ := h.part
  have hstart : p.offset = byteLength before := by rw [hp, Place.offset_after_origin]
  rw [Place.cursor, Place.cursor, UInt32.toNat_ofNat_of_lt' h.start_fits.offset,
    UInt32.toNat_ofNat_of_lt' h.stop_fits.offset, slice?_eq_some_iff, String.toList_ofList]
  exact ⟨before, behind, heq, hstart, rfl⟩

/-- The three computations that could fail in making a token have results, and it is the token with
the lexeme of these characters. -/
theorem makeToken_eq (h : Occurs source p text) (kind : Kind) (literal : Option Literal) :
    makeToken source p.cursor (p.after text).cursor kind literal =
      some ((Lexeme.ofChars p text).raw kind literal) := by
  have hstop : p.offset + byteLength text < UInt32.size := h.stop_fits.offset
  have hspan : Span.between? p.cursor.offset (p.after text).cursor.offset =
      some ⟨UInt32.ofNat p.offset, UInt32.ofNat (byteLength text)⟩ :=
    Span.between?_ofNat hstop
  have hend : Span.stop? ⟨UInt32.ofNat p.offset, UInt32.ofNat (byteLength text)⟩ =
      some (p.after text).cursor.offset := checkedAdd?_ofNat hstop
  have hslice : slice? source (UInt32.ofNat p.offset).toNat
      (p.after text).cursor.offset.toNat = some (String.ofList text) := h.slice
  simp only [makeToken, Option.bind_eq_bind, hspan, Option.bind_some, hend, hslice]
  rw [Lexeme.raw, Lexeme.span_ofChars]
  rfl

end Occurs

/-- What is spelled as a number can be read. -/
theorem parseNumber?_of_spells {v : Float} {text : List Char}
    (h : (TokenKind.number v).Spells text) : parseNumber? (String.ofList text) = some v := by
  cases h with
  | whole hne hd =>
    have hnil : ∀ c ∈ ([] : List Char).head?, c.isDigit = false := by
      rintro c ⟨⟩
    have htake := takeWhile_row hd hnil
    rw [List.append_nil] at htake
    simp only [parseNumber?, String.toList_ofList, htake, List.drop_length, if_neg hne]
  | @fraction digits fraction hne hd hfne hf =>
    have hpoint : ∀ c ∈ ('.' :: fraction).head?, c.isDigit = false := by
      rintro c ⟨⟩
      rfl
    have hall : fraction.all Char.isDigit = true := List.all_eq_true.mpr hf
    simp only [parseNumber?, String.toList_ofList, takeWhile_row hd hpoint, List.drop_left,
      if_neg hne]
    rw [if_pos ⟨hfne, hall⟩]

section

variable {source : String} {p : Place} {text behind : List Char}

theorem lexNumber_eq {v : Float} (h : Occurs source p text)
    (hspells : (TokenKind.number v).Spells text) :
    lexNumber source p.cursor (p.after text).cursor =
      some ((Lexeme.ofChars p text).raw .number (some (.number v))) := by
  simp only [lexNumber, Option.bind_eq_bind, h.slice, parseNumber?_of_spells hspells,
    Option.bind_some, h.makeToken_eq]

/-- Both quotes are one byte long, so the slice between them begins and ends with a character, and
it is the value that the scan has. -/
theorem lexString_eq {s : String} (h : Occurs source p text)
    (hspells : (TokenKind.string s).Spells text) :
    lexString source p.cursor (p.after text).cursor =
      some ((Lexeme.ofChars p text).raw .string (some (.string s))) := by
  obtain ⟨before, behind, heq, hp⟩ := h.part
  have hstart : p.offset = byteLength before := by rw [hp, Place.offset_after_origin]
  have hstop := h.stop_fits.offset
  cases hspells with
  | @string body hquote =>
    have hone : '"'.utf8Size = 1 := by decide
    have hoffset : (p.after ('"' :: (body ++ ['"']))).offset = p.offset + byteLength body + 2 := by
      simp only [Place.after, byteLength_cons, byteLength_append, byteLength_nil, hone]
      omega
    rw [hoffset] at hstop
    have hinner : checkedSub? (p.after ('"' :: (body ++ ['"']))).cursor.offset.toNat 1 =
        some (p.offset + 1 + byteLength body) := by
      have hsum : p.offset + byteLength body + 2 = 1 + (p.offset + 1 + byteLength body) := by
        omega
      rw [Place.cursor, hoffset, UInt32.toNat_ofNat_of_lt' hstop, hsum, checkedSub?_add]
    have hbehind : (p.cursor.behind '"').toNat = p.offset + 1 := by
      rw [Cursor.behind_cursor, hone, UInt32.toNat_ofNat_of_lt' (by omega)]
    have hslice : slice? source (p.offset + 1) (p.offset + 1 + byteLength body) =
        some (String.ofList body) := by
      rw [slice?_eq_some_iff, String.toList_ofList]
      refine ⟨before ++ ['"'], '"' :: behind, ?_, ?_, rfl⟩
      · simp [heq]
      · rw [byteLength_append, hstart]
        rfl
    simp only [lexString, Option.bind_eq_bind, hinner, hbehind, hslice, Option.bind_some,
      h.makeToken_eq]

/-- The table of reserved words is asked for the kind. -/
theorem lexWord_eq {kind : Kind} (h : Occurs source p text)
    (hkind : (Keyword.ofText? (String.ofList text)).elim .ident .keyword = kind) :
    lexWord source p.cursor (p.after text).cursor =
      some ((Lexeme.ofChars p text).raw kind none) := by
  simp only [lexWord, Option.bind_eq_bind, h.slice, hkind, Option.bind_some, h.makeToken_eq]

theorem lexError_eq (h : Occurs source p text) (fault : LexicalFault) :
    lexError p.cursor (p.after text).cursor fault =
      some (Lox.LexicalError.raw
        ⟨fault, ⟨p.offset, byteLength text⟩, fault.line p (p.after text)⟩) := by
  have hspan : Span.between? p.cursor.offset (p.after text).cursor.offset =
      some ⟨UInt32.ofNat p.offset, UInt32.ofNat (byteLength text)⟩ :=
    Span.between?_ofNat h.stop_fits.offset
  simp only [lexError, Option.bind_eq_bind, hspan, Option.bind_some]
  cases fault <;> rfl

/-- What is made of a piece is its item. -/
theorem lex_eq {piece : Piece} (h : Occurs source p text) (hright : piece.IsRight text behind) :
    lex source p.cursor (p.after text).cursor piece =
      some ((piece.item? p text).map ScanItem.raw) := by
  cases piece with
  | blank => rfl
  | token kind =>
    have hspells : kind.Spells text := TokenKind.Munches.spells hright
    cases kind with
    | symbol s => simp only [lex, h.makeToken_eq, Option.bind_eq_bind, Option.bind_some]; rfl
    | number v => simp only [lex, lexNumber_eq h hspells, Option.bind_eq_bind]; rfl
    | string s => simp only [lex, lexString_eq h hspells, Option.bind_eq_bind]; rfl
    | keyword k =>
      have hkind : (Keyword.ofText? (String.ofList text)).elim .ident .keyword =
          Kind.keyword k := by
        cases hspells
        rw [String.ofList_toList, Keyword.ofText?_text]
        rfl
      simp only [lex, lexWord_eq h hkind, Option.bind_eq_bind]
      rfl
    | ident =>
      have hkind : (Keyword.ofText? (String.ofList text)).elim .ident .keyword = Kind.ident := by
        cases hspells with
        | ident hc ht hk =>
          rw [hk]
          rfl
      simp only [lex, lexWord_eq h hkind, Option.bind_eq_bind]
      rfl
  | fault f =>
    simp only [lex, lexError_eq h f, Option.bind_eq_bind]
    rfl

end

/-! ## Scans -/

/-- The cursor goes through the text, piece by piece. -/
theorem scanItems_eq {source : String} (hsize : source.utf8ByteSize + 1 < UInt32.size)
    (p : Place) (cs : List Char) :
    ∀ before, source.toList = before ++ cs → p = Place.origin.after before →
      scanItems source p.cursor cs =
        some ((scanFrom p cs).map ScanItem.raw ++
          [.token ((Lexeme.endingAt (p.after cs)).raw .eof none)]) := by
  fun_induction scanFrom p cs with
  | case1 p =>
    intro before heq hp
    have hoccurs : Occurs source p [] := ⟨hsize, before, [], heq, hp⟩
    have hmake := hoccurs.makeToken_eq .eof none
    rw [Place.after_nil] at hmake
    rw [scanItems_nil, hmake]
    rfl
  | case2 p c cs piece taken ih =>
    intro before heq hp
    obtain ⟨tail, behind, rfl, htail, hright⟩ := Piece.cut_isRight c cs
    simp only [piece, taken, htail, List.take_left, List.drop_left] at ih ⊢
    have hoccurs : Occurs source p (c :: tail) := ⟨hsize, before, behind, heq, hp⟩
    -- Before the next piece stand the characters before this one, and its own.
    have hbefore : source.toList = (before ++ (c :: tail)) ++ behind := by
      rw [heq, List.append_assoc]
      rfl
    have hnext : p.after (c :: tail) = Place.origin.after (before ++ (c :: tail)) := by
      rw [hp, Place.after_append]
    rw [scanItems_cons, htail, List.take_left, List.drop_left,
      Cursor.over?_cursor hoccurs.stop_fits.line, Option.bind_some, lex_eq hoccurs hright,
      Option.bind_some, ih _ hbefore hnext, Option.bind_some, ← List.cons_append,
      Place.after_append, List.map_append, List.append_assoc]
    cases (Piece.cut c (tail ++ behind)).1.item? p (c :: tail) <;> rfl

theorem filterMap_token?_raw (items : List ScanItem) :
    (items.map ScanItem.raw).filterMap Item.token? =
      (items.filterMap ScanItem.token?).map Token.raw := by
  rw [List.filterMap_map, List.map_filterMap]
  congr 1
  funext item
  cases item <;> rfl

theorem filterMap_error?_raw (items : List ScanItem) :
    (items.map ScanItem.raw).filterMap Item.error? =
      (items.filterMap ScanItem.error?).map LexicalError.raw := by
  rw [List.filterMap_map, List.map_filterMap]
  congr 1
  funext item
  cases item <;> rfl

/-- **Scanning always has a result.** It is the scan, written out in full. -/
theorem tokenize_eq {source : String} (hsize : source.utf8ByteSize + 1 < UInt32.size) :
    tokenize source = some ((Scan.ofString source).slots.map Slot.raw,
      (Scan.ofString source).errors.map LexicalError.raw) := by
  have hitems : scanItems source Cursor.origin source.toList = some _ :=
    scanItems_eq hsize .origin source.toList [] rfl rfl
  rw [tokenize, hitems]
  simp only [Option.bind_eq_bind, Option.bind_some, List.filterMap_append, filterMap_token?_raw,
    filterMap_error?_raw]
  rw [Scan.slots, List.map_append, List.map_map]
  simp only [List.filterMap, Item.token?, Item.error?, List.append_nil]
  rfl

end Raw

end Lox
