import Lox.Proofs.Scanning.Cut

/-!
# A scan loses nothing

A scan divides a text into items and the gaps between them, and each item is right about the
characters it covers (`scanFrom_partition`). The induction is over the pieces: a piece that is no
item goes in front of the gap that comes next, and an item has an empty gap before it until such a
piece is put there.

Everything else about the places of items follows from the division alone: they come in order, do
not overlap, are not empty, and their lexemes are what stands in the source where their spans say.
-/

set_option autoImplicit false

namespace Lox

/-! ## A scan is a partition -/

/-- A blank goes in front of the first gap. -/
theorem Partition.blank {p : Place} {text rest : List Char} {items : List ScanItem}
    (hb : Blank text rest) (h : Partition (p.after text) rest items) :
    Partition p (text ++ rest) items := by
  cases h with
  | finish hg =>
    refine .finish (.cons ?_ hg)
    rwa [List.append_nil]
  | @item _ gap covered rest item items hg hne hi hr =>
    rw [← Place.after_append p text gap] at hi hr
    rw [← List.append_assoc text]
    exact .item (.cons hb hg) hne hi hr

/-- An item stands in front of everything that follows it. -/
theorem Partition.cons {p : Place} {text rest : List Char} {item : ScanItem}
    {items : List ScanItem} (hne : text ≠ []) (hi : item.StandsAt p text rest)
    (hr : Partition (p.after text) rest items) : Partition p (text ++ rest) (item :: items) := by
  have hgap : Gap [] (text ++ rest) := .nil
  exact .item hgap hne hi hr

/-- A scan divides its text into items and gaps. -/
theorem scanFrom_partition (p : Place) (cs : List Char) : Partition p cs (scanFrom p cs) := by
  fun_induction scanFrom p cs with
  | case1 p => exact .finish .nil
  | case2 p c cs piece taken ih =>
    obtain ⟨tail, behind, rfl, htail, hright⟩ := Piece.cut_isRight c cs
    simp only [piece, taken, htail, List.take_left, List.drop_left] at ih ⊢
    rw [← List.cons_append]
    cases hcut : (Piece.cut c (tail ++ behind)).1 with
    | blank =>
      rw [hcut] at hright
      exact ih.blank hright
    | token kind =>
      rw [hcut] at hright
      exact .cons (List.cons_ne_nil _ _) ⟨rfl, hright⟩ ih
    | fault f =>
      rw [hcut] at hright
      exact .cons (List.cons_ne_nil _ _) ⟨rfl, rfl, hright⟩ ih

/-! ## Where the items of a partition are -/

/-- An item covers the bytes of its characters. -/
theorem ScanItem.StandsAt.span {p : Place} {text behind : List Char} {item : ScanItem}
    (h : item.StandsAt p text behind) : item.span = ⟨p.offset, byteLength text⟩ := by
  cases item with
  | token t =>
    obtain ⟨hlexeme, -⟩ := h
    rw [ScanItem.span, hlexeme, Lexeme.span_ofChars]
  | error e => exact h.1

theorem byteLength_pos {cs : List Char} (h : cs ≠ []) : 0 < byteLength cs := by
  obtain ⟨c, cs, rfl⟩ := List.exists_cons_of_ne_nil h
  rw [byteLength_cons]
  exact Nat.lt_of_lt_of_le c.utf8Size_pos (Nat.le_add_right ..)

namespace Partition

variable {p : Place} {cs : List Char} {items : List ScanItem}

/-- Every item of a partition has characters of the text to itself, and stands there. -/
theorem exists_of_mem (h : Partition p cs items) {item : ScanItem} (hmem : item ∈ items) :
    ∃ before text behind, cs = before ++ (text ++ behind) ∧ text ≠ [] ∧
      item.StandsAt (p.after before) text behind := by
  induction h with
  | finish hg => cases hmem
  | @item p gap text rest first items hg hne hi hr ih =>
    rcases List.mem_cons.mp hmem with rfl | hmem
    · exact ⟨gap, text, rest, rfl, hne, hi⟩
    · obtain ⟨before, text', behind, rfl, hne', hi'⟩ := ih hmem
      refine ⟨gap ++ text ++ before, text', behind, by simp, hne', ?_⟩
      rwa [Place.after_append, Place.after_append]

/-- No item begins before the text does. -/
theorem start_le (h : Partition p cs items) {item : ScanItem} (hmem : item ∈ items) :
    p.offset ≤ item.span.start := by
  obtain ⟨before, text, behind, -, -, hi⟩ := h.exists_of_mem hmem
  rw [hi.span]
  exact Nat.le_add_right ..

/-- No item ends behind the text. -/
theorem stop_le (h : Partition p cs items) {item : ScanItem} (hmem : item ∈ items) :
    item.span.stop ≤ p.offset + byteLength cs := by
  obtain ⟨before, text, behind, rfl, -, hi⟩ := h.exists_of_mem hmem
  rw [hi.span, byteLength_append, byteLength_append]
  simp only [Span.stop, Place.after]
  omega

theorem span_length_pos (h : Partition p cs items) {item : ScanItem} (hmem : item ∈ items) :
    0 < item.span.length := by
  obtain ⟨before, text, behind, -, hne, hi⟩ := h.exists_of_mem hmem
  rw [hi.span]
  exact byteLength_pos hne

/-- Every item ends before the next one begins. -/
theorem pairwise (h : Partition p cs items) :
    items.Pairwise fun a b => a.span.stop ≤ b.span.start := by
  induction h with
  | finish hg => exact .nil
  | @item p gap text rest first items hg hne hi hr ih =>
    refine .cons (fun b hb => ?_) ih
    rw [hi.span]
    exact hr.start_le hb

/-- Every item begins before the next one does. -/
theorem pairwise_start (h : Partition p cs items) :
    items.Pairwise fun a b => a.span.start < b.span.start := by
  refine h.pairwise.imp_of_mem ?_
  intro a b ha _ hle
  have hpos := h.span_length_pos ha
  simp only [Span.stop] at hle
  omega

end Partition

/-! ## What stands in a source text -/

/-- The bytes of a source text that a span covers. -/
def Span.bytes (s : Span) (source : String) : ByteArray := source.toByteArray.extract s.start s.stop

/-- A stretch of characters has the bytes between the ends of the stretch. -/
theorem Span.bytes_of_eq_append {source : String} {before text behind : List Char}
    (h : source.toList = before ++ (text ++ behind)) :
    (⟨byteLength before, byteLength text⟩ : Span).bytes source =
      (String.ofList text).toByteArray := by
  have hsource : source = String.ofList before ++ (String.ofList text ++ String.ofList behind) := by
    rw [← String.ofList_append, ← String.ofList_append, ← h, String.ofList_toList]
  have hsize (cs : List Char) : (String.ofList cs).toByteArray.size = byteLength cs := by
    rw [String.size_toByteArray, utf8ByteSize_ofList]
  simp only [Span.bytes, Span.stop, hsource, String.toByteArray_append, ← hsize]
  exact (ByteArray.extract_append_size_add (i := 0)).trans
    (ByteArray.extract_append_eq_left rfl)

theorem Scan.mem_items_of_mem_tokens {s : Scan} {t : Token} (h : t ∈ s.tokens) :
    .token t ∈ s.items := by
  obtain ⟨item, hmem, hitem⟩ := List.mem_filterMap.mp h
  cases item with
  | token t' =>
    cases hitem
    exact hmem
  | error e => cases hitem

theorem Scan.mem_items_of_mem_errors {s : Scan} {e : LexicalError} (h : e ∈ s.errors) :
    .error e ∈ s.items := by
  obtain ⟨item, hmem, hitem⟩ := List.mem_filterMap.mp h
  cases item with
  | token t => cases hitem
  | error e' =>
    cases hitem
    exact hmem

/-- A token of a scan stands where it says, among the tokens of the source text. -/
theorem Scan.exists_of_mem_tokens {source : String} {t : Token}
    (h : t ∈ (Scan.ofString source).tokens) :
    ∃ before text behind, source.toList = before ++ (text ++ behind) ∧
      t.lexeme = .ofChars (Place.origin.after before) text ∧ t.kind.Munches text behind := by
  obtain ⟨before, text, behind, heq, -, hi⟩ :=
    (scanFrom_partition .origin source.toList).exists_of_mem (mem_items_of_mem_tokens h)
  exact ⟨before, text, behind, heq, hi⟩

/-- An error of a scan is one: the characters that it covers are wrong as it says. -/
theorem Scan.exists_of_mem_errors {source : String} {e : LexicalError}
    (h : e ∈ (Scan.ofString source).errors) :
    ∃ before text behind, source.toList = before ++ (text ++ behind) ∧
      (ScanItem.error e).StandsAt (Place.origin.after before) text behind := by
  obtain ⟨before, text, behind, heq, -, hi⟩ :=
    (scanFrom_partition .origin source.toList).exists_of_mem (mem_items_of_mem_errors h)
  exact ⟨before, text, behind, heq, hi⟩

/-- The lexeme of a token is the stretch of the source that its span covers. -/
theorem Scan.bytes_of_mem_tokens {source : String} {t : Token}
    (h : t ∈ (Scan.ofString source).tokens) :
    t.lexeme.span.bytes source = t.lexeme.text.toByteArray := by
  obtain ⟨before, text, behind, heq, hlexeme, -⟩ := Scan.exists_of_mem_tokens h
  rw [hlexeme, Lexeme.span_ofChars, Place.after, Place.origin, Nat.zero_add,
    Span.bytes_of_eq_append heq, Lexeme.ofChars]

theorem byteLength_toList (source : String) : byteLength source.toList = source.utf8ByteSize := by
  rw [← utf8ByteSize_ofList, String.ofList_toList]

/-- **A scan is a lossless division of its source.** The items and the gaps between them make up
the text; a token is as long as it can be and a fault is one; the spans come in order and do not
overlap, are not empty, and lie inside the source; what a token's lexeme says is what stands there;
and the end of the input is an empty lexeme at the end of the text. -/
theorem Scan.ofString_isPartition (source : String) :
    Partition .origin source.toList (Scan.ofString source).items ∧
      ((Scan.ofString source).items.Pairwise fun a b => a.span.stop ≤ b.span.start) ∧
      (∀ item ∈ (Scan.ofString source).items,
        0 < item.span.length ∧ item.span.stop ≤ source.utf8ByteSize) ∧
      (∀ t ∈ (Scan.ofString source).tokens,
        t.lexeme.span.bytes source = t.lexeme.text.toByteArray) ∧
      (Scan.ofString source).finish =
        ⟨"", source.utf8ByteSize, 1 + source.toList.count '\n'⟩ := by
  have h := scanFrom_partition .origin source.toList
  refine ⟨h, h.pairwise, fun item hmem => ⟨h.span_length_pos hmem, ?_⟩,
    fun t ht => Scan.bytes_of_mem_tokens ht, ?_⟩
  · -- The text begins at the origin, so its end is its length.
    have := h.stop_le hmem
    rwa [byteLength_toList, Place.origin, Nat.zero_add] at this
  · simp [Scan.ofString, Lexeme.endingAt, Place.after, Place.origin, byteLength_toList]

/-- Spans count bytes, and neither the bad character nor the comment hides the name behind it. -/
example : (Scan.ofString "é // x\na").items.map ScanItem.span = [⟨0, 2⟩, ⟨8, 1⟩] := by
  decide +kernel

end Lox
