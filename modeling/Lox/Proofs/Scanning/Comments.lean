import Lox.Proofs.Scanning.Behind
import Lox.Proofs.Scanning.Rendering

/-!
# Comments inside comments

A block comment may have others inside, to any depth and next to each other. It is a blank all the
same, and goes exactly as far as the mark that closes it. Marks stand close together, as in `/**/`
or `*//*`, and each of their characters could be taken for a part of the wrong one.

What a comment is made of is said by a tree (`CommentText`), and what the tree is written as is a
comment body of the lexical grammar (`CommentText.commentBody_chars`). The rest follows from this:
a body has no end but its own, so no part of it that ends earlier is closed
(`commentLength?_of_prefix`).
-/

set_option autoImplicit false

namespace Lox

/-! ## Trees of comments -/

/-- Text in which no mark can begin, whatever follows. -/
structure PlainText where
  chars : List Char
  no_mark : ∀ c ∈ chars, c ≠ '/' ∧ c ≠ '*'

/-- What stands between the marks of a comment: plain texts and other comments, in any order. -/
inductive CommentText where
  | nil
  | plain (text : PlainText) (rest : CommentText)
  | comment (inner rest : CommentText)

namespace CommentText

/-- The characters between the marks. -/
def chars : CommentText → List Char
  | nil => []
  | plain text rest => text.chars ++ rest.chars
  | comment inner rest => '/' :: '*' :: (inner.chars ++ '*' :: '/' :: rest.chars)

/-- The comment with its own marks. -/
def enclosed (t : CommentText) : List Char := '/' :: '*' :: (t.chars ++ ['*', '/'])

end CommentText

/-! ## What is written is a comment -/

theorem CommentBody.plain {text rest : List Char} (h : ∀ c ∈ text, c ≠ '/' ∧ c ≠ '*')
    (hr : CommentBody rest) : CommentBody (text ++ rest) := by
  induction text with
  | nil => exact hr
  | cons c text ih =>
    obtain ⟨⟨hslash, hstar⟩, htext⟩ := List.forall_mem_cons.mp h
    refine .char ?_ ?_ (ih htext)
    · intro cs heq
      exact hslash (List.cons.inj heq).1
    · intro cs heq
      exact hstar (List.cons.inj heq).1

theorem CommentText.commentBody_chars (t : CommentText) :
    CommentBody (t.chars ++ ['*', '/']) := by
  induction t with
  | nil => exact .close
  | plain text rest ih =>
    rw [chars, List.append_assoc]
    exact .plain text.no_mark ih
  | comment inner rest ihi ihr =>
    have hnested := CommentBody.nested ihi ihr
    simpa [chars] using hnested

/-- A comment that is cut off before its end is not closed. -/
theorem Piece.commentLength?_of_prefix {front body : List Char} (hbody : CommentBody body)
    (hp : front <+: body) (hne : front ≠ body) : commentLength? 1 front = none := by
  rw [Option.eq_none_iff_forall_ne_some]
  intro n hn
  -- A body at the beginning of `front` would be one at the beginning of `body`, too.
  obtain ⟨closed, rest, rfl, hclosed, rfl⟩ := commentLength?_one_eq_some_iff.mp hn
  obtain ⟨more, rfl⟩ := hp
  have hshort : commentLength? 1 (closed ++ rest ++ more) = some closed.length :=
    commentLength?_one_eq_some_iff.mpr ⟨closed, rest ++ more, by simp, hclosed, rfl⟩
  have hlong : commentLength? 1 (closed ++ rest ++ more) =
      some (closed ++ rest ++ more).length :=
    commentLength?_one_eq_some_iff.mpr ⟨_, [], by simp, hbody, rfl⟩
  have hlength := Option.some.inj (hshort.symm.trans hlong)
  simp only [List.length_append] at hlength
  have hmore : more = [] := List.eq_nil_of_length_eq_zero (by omega)
  exact hne (by simp [hmore])

/-! ## Scanning comments -/

/-- The scan where it is when its source text stands behind `text`. -/
def Scan.behind (text : List Char) (s : Scan) : Scan :=
  ⟨s.items.map (·.behind text), s.finish.behind text⟩

theorem scanFrom_enclosed (t : CommentText) (p : Place) (cs : List Char) :
    scanFrom p (t.enclosed ++ cs) = (scanFrom p cs).map (·.behind t.enclosed) := by
  have hfiller : Filler t.enclosed := by
    simpa [CommentText.enclosed] using Filler.block t.commentBody_chars .nil
  rw [scanFrom_filler hfiller, scanFrom_after]

/-- What is left of a comment without its end is one error, as long as the opening mark is there. -/
theorem scanFrom_unclosed {t : CommentText} {front : List Char} (p : Place)
    (hp : front <+: t.enclosed) (hne : front ≠ t.enclosed) (hlength : 2 ≤ front.length) :
    scanFrom p front =
      [.error ⟨.unclosedComment, ⟨p.offset, byteLength front⟩, (p.after front).line⟩] := by
  obtain ⟨d, front, rfl⟩ : ∃ d front', front = '/' :: d :: front' := by
    rcases front with _ | ⟨c, _ | ⟨d, front⟩⟩
    · cases hlength
    · simp at hlength
    · exact ⟨d, front, by rw [(List.cons_prefix_cons.mp hp).1]⟩
  obtain ⟨rfl, htext⟩ := List.cons_prefix_cons.mp (List.cons_prefix_cons.mp hp).2
  have hopen : Piece.commentLength? 1 front = none := by
    refine Piece.commentLength?_of_prefix t.commentBody_chars htext ?_
    rintro rfl
    exact hne rfl
  have hcut : Piece.cut '/' ('*' :: front) = (.fault .unclosedComment, 1 + front.length) := by
    rw [Piece.cut_slash, Piece.cutSlash, hopen]
  rw [scanFrom_cons, hcut]
  simp [Piece.item?, LexicalFault.line, scanFrom_nil, Nat.add_comm]

/-- **Comments nest.** Whatever comments a comment has inside, the text behind it is scanned as if
it were the whole text, except that everything in it stands further back. And wherever the comment
is cut off behind its opening mark, there is one error, which covers all of it and is reported on
the line where the text ends. -/
theorem Scan.ofString_enclosed (t : CommentText) :
    (∀ rest : String,
      Scan.ofString (String.ofList t.enclosed ++ rest) = (Scan.ofString rest).behind t.enclosed) ∧
    ∀ front, front <+: t.enclosed → front ≠ t.enclosed → 2 ≤ front.length →
      Scan.ofString (String.ofList front) =
        ⟨[.error ⟨.unclosedComment, ⟨0, byteLength front⟩, 1 + front.count '\n'⟩],
          ⟨"", byteLength front, 1 + front.count '\n'⟩⟩ := by
  constructor
  · intro rest
    simp only [Scan.ofString, Scan.behind, String.toList_append, String.toList_ofList]
    rw [scanFrom_enclosed, Place.after_append, Place.after_comm]
    rfl
  · intro front hp hne hlength
    rw [Scan.ofString, String.toList_ofList, scanFrom_unclosed .origin hp hne hlength]
    simp [Place.after, Place.origin, Lexeme.endingAt]

/-- Two comments side by side in a third, without the last mark, over two lines. -/
theorem Scan.ofString_enclosed_siblings :
    ∃ t : CommentText, String.ofList t.enclosed = "/*/**//*\n*/*/" ∧
      "/*/**//*\n*/*".toList <+: t.enclosed ∧
      Scan.ofString "/*/**//*\n*/*" =
        ⟨[.error ⟨.unclosedComment, ⟨0, 12⟩, 2⟩], ⟨"", 12, 2⟩⟩ := by
  let newline : PlainText := ⟨['\n'], by simp⟩
  let t : CommentText := .comment .nil (.comment (.plain newline .nil) .nil)
  have hp : "/*/**//*\n*/*".toList <+: t.enclosed := ⟨['/'], by decide⟩
  have h := (Scan.ofString_enclosed t).2 "/*/**//*\n*/*".toList hp (by decide) (by decide)
  exact ⟨t, by decide, hp, h⟩

end Lox
