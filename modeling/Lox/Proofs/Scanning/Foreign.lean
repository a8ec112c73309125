import Lox.Proofs.Scanning.Rendering

/-!
# Foreign characters

A character with which no piece begins is reported and passed over, and the scan goes on as if it
had been a space. This is meant literally: write spaces in its place, as many as it has bytes, and
everything else of the scan stays what and where it is (`Scan.ofString_blankedOut`).

The pieces before the character do not see the difference. They look ahead by a character or two,
but only for characters that are neither foreign nor spaces (`Piece.cut_blanked`). A foreign
character inside a string or a comment is not reported, and stays.
-/

set_option autoImplicit false

namespace Lox

/-! ## Characters with which no piece begins -/

/-- Nothing but a fault about `c` begins with the character `c`, whatever follows. -/
def IsForeign (c : Char) : Prop :=
  ∀ cs, Piece.cut c cs = (.fault (.unrecognized c), 0)

/-- Whether the fault is about a foreign character. -/
def LexicalFault.isForeign : LexicalFault → Bool
  | unrecognized _ => true
  | _ => false

namespace Piece

/-- Whether the piece is a foreign character. -/
def isForeign : Piece → Bool
  | fault f => f.isForeign
  | _ => false

theorem isForeign_cutEither (long short : Symbol) (cs : List Char) :
    (cutEither long short cs).1.isForeign = false := by
  unfold cutEither
  split <;> rfl

theorem isForeign_cutSlash (cs : List Char) : (cutSlash cs).1.isForeign = false := by
  unfold cutSlash
  split
  · rfl
  · split <;> rfl
  · rfl

theorem isForeign_cutString (cs : List Char) : (cutString cs).1.isForeign = false := by
  unfold cutString
  dsimp only
  split <;> rfl

theorem isForeign_cutNumber (c : Char) (cs : List Char) : (cutNumber c cs).1.isForeign = false :=
  rfl

theorem isForeign_cutWord (c : Char) (cs : List Char) : (cutWord c cs).1.isForeign = false := rfl

/-- Whether a character is foreign does not depend on what follows it. -/
theorem isForeign_of_cut {c : Char} {cs : List Char} (h : (cut c cs).1.isForeign = true) :
    IsForeign c := by
  intro cs'
  unfold cut at h ⊢
  cases hsolo : soloSymbol? c with
  | some s =>
    rw [hsolo] at h
    cases h
  | none =>
    rw [hsolo] at h
    -- Every branch but the last cuts something else.
    simp only [apply_ite Prod.fst, apply_ite isForeign, isForeign_cutEither, isForeign_cutSlash,
      isForeign_cutString, isForeign_cutNumber, isForeign_cutWord] at h
    simp only [isForeign, Bool.if_false_left, Bool.decide_eq_true, Bool.and_eq_true,
      Bool.not_eq_true'] at h
    simp [h]

end Piece

namespace IsForeign

variable {c : Char}

/-- A character that begins something is not foreign. -/
theorem ne {d : Char} (h : IsForeign c) (hd : (Piece.cut d []).1.isForeign = false) : c ≠ d := by
  rintro rfl
  rw [h []] at hd
  cases hd

end IsForeign

/-! ## Spaces in the place of foreign characters -/

/-- The characters `ys` are `xs` with some foreign characters replaced by spaces, one for each of
their bytes. -/
inductive Blanked : List Char → List Char → Prop where
  | nil : Blanked [] []
  | keep (c : Char) {xs ys : List Char} (h : Blanked xs ys) : Blanked (c :: xs) (c :: ys)
  | blank {c : Char} {xs ys : List Char} (hc : IsForeign c) (h : Blanked xs ys) :
    Blanked (c :: xs) (List.replicate c.utf8Size ' ' ++ ys)

/-- A character has at least one byte, so there is a space in its place. -/
theorem exists_replicate_utf8Size (c : Char) :
    ∃ spaces, List.replicate c.utf8Size ' ' = ' ' :: spaces := by
  obtain ⟨n, hn⟩ := Nat.exists_eq_add_of_lt c.utf8Size_pos
  exact ⟨_, by rw [hn, List.replicate_succ]⟩

namespace Blanked

variable {xs ys : List Char}

theorem append (text : List Char) (h : Blanked xs ys) : Blanked (text ++ xs) (text ++ ys) := by
  induction text with
  | nil => exact h
  | cons c text ih => exact .keep c ih

theorem eq_nil (h : Blanked [] ys) : ys = [] := by
  cases h
  rfl

/-- What is not a space was there before. -/
theorem of_cons {d : Char} (h : Blanked xs (d :: ys)) (hd : d ≠ ' ') :
    ∃ xs', xs = d :: xs' ∧ Blanked xs' ys := by
  generalize hzs : d :: ys = zs at h
  cases h with
  | nil => cases hzs
  | keep _ h =>
    cases hzs
    exact ⟨_, rfl, h⟩
  | @blank c _ _ hc h =>
    obtain ⟨spaces, hspaces⟩ := exists_replicate_utf8Size c
    rw [hspaces] at hzs
    exact absurd (List.cons.inj hzs).1 hd

theorem not_begins {d : Char} (h : Blanked xs ys) (hd : d ≠ ' ') (hxs : ∀ cs, xs ≠ d :: cs) :
    ∀ cs, ys ≠ d :: cs := by
  rintro cs rfl
  obtain ⟨xs', heq, -⟩ := h.of_cons hd
  exact hxs xs' heq

/-- A row of characters that has ended where the replacements begin is the same row, whether
spaces can go on with it or foreign characters can. -/
theorem takeWhile_eq {p : Char → Bool} {tail : List Char} (h : Blanked xs ys)
    (hp : p ' ' = false ∨ ∀ c, IsForeign c → p c = true)
    (hle : ((tail ++ xs).takeWhile p).length ≤ tail.length) :
    (tail ++ ys).takeWhile p = (tail ++ xs).takeWhile p := by
  induction tail with
  | nil =>
    cases h with
    | nil => rfl
    | keep c h =>
      cases hc : p c with
      | true => simp [hc] at hle
      | false => simp [hc]
    | @blank c _ _ hforeign h =>
      cases hc : p c with
      | true => simp [hc] at hle
      | false =>
        obtain ⟨spaces, hspaces⟩ := exists_replicate_utf8Size c
        have hspace : p ' ' = false := hp.resolve_right fun hall => by
          rw [hall c hforeign] at hc
          cases hc
        simp [hspaces, hspace, hc]
  | cons d tail ih =>
    cases hd : p d with
    | true =>
      simp only [List.cons_append, List.takeWhile_cons, hd, List.length_cons] at hle ⊢
      rw [ih (Nat.le_of_succ_le_succ hle)]
    | false => simp [hd]

end Blanked

/-! ## Pieces before a foreign character -/

namespace Piece

variable {xs ys tail : List Char}

theorem cutEither_blanked {long short : Symbol} (h : Blanked xs ys)
    (hle : (cutEither long short (tail ++ xs)).2 ≤ tail.length) :
    cutEither long short (tail ++ ys) = cutEither long short (tail ++ xs) := by
  cases tail with
  | nil =>
    have hxs : ∀ cs, xs ≠ '=' :: cs := by
      rintro cs rfl
      simp [cutEither] at hle
    have hys := h.not_begins (by decide) hxs
    rw [List.nil_append, List.nil_append, cutEither, cutEither]
    · exact hxs
    · exact hys
  | cons d tail =>
    by_cases hd : d = '='
    · subst hd
      rfl
    · simp [cutEither, hd]

theorem cutSlash_blanked (h : Blanked xs ys) (hle : (cutSlash (tail ++ xs)).2 ≤ tail.length) :
    cutSlash (tail ++ ys) = cutSlash (tail ++ xs) := by
  cases tail with
  | nil =>
    have hslash : ∀ cs, xs ≠ '/' :: cs := by
      rintro cs rfl
      simp [cutSlash] at hle
    have hstar : ∀ cs, xs ≠ '*' :: cs := by
      rintro cs rfl
      simp only [List.nil_append, cutSlash] at hle
      split at hle <;> simp at hle
    rw [List.nil_append, List.nil_append, cutSlash, cutSlash]
    · exact hslash
    · exact hstar
    · exact h.not_begins (by decide) hslash
    · exact h.not_begins (by decide) hstar
  | cons d tail =>
    by_cases hslash : d = '/'
    · subst hslash
      have hline : (tail ++ ys).takeWhile (· != '\n') = (tail ++ xs).takeWhile (· != '\n') := by
        refine h.takeWhile_eq (.inr fun c hc => ?_) ?_
        · simpa using hc.ne (d := '\n') rfl
        · simp only [List.cons_append, cutSlash, List.length_cons] at hle
          omega
      simp only [List.cons_append, cutSlash, hline]
    by_cases hstar : d = '*'
    · subst hstar
      simp only [List.cons_append, cutSlash, List.length_cons] at hle ⊢
      cases hn : commentLength? 1 (tail ++ xs) with
      | none =>
        -- The comment is open up to the end, so nothing stands behind it.
        simp only [hn, List.length_append] at hle
        obtain rfl : xs = [] := List.eq_nil_of_length_eq_zero (by omega)
        rw [h.eq_nil, hn]
      | some n =>
        simp only [hn] at hle
        obtain ⟨body, rest, heq, hbody, rfl⟩ := commentLength?_one_eq_some_iff.mp hn
        obtain ⟨more, rfl⟩ : body <+: tail :=
          List.prefix_of_prefix_length_le ⟨rest, heq.symm⟩ (List.prefix_append ..) (by omega)
        have hclosed : commentLength? 1 (body ++ more ++ ys) = some body.length :=
          commentLength?_one_eq_some_iff.mpr ⟨body, more ++ ys, by simp, hbody, rfl⟩
        rw [hclosed]
    · simp [cutSlash, hslash, hstar]

theorem cutString_blanked (h : Blanked xs ys) (hle : (cutString (tail ++ xs)).2 ≤ tail.length) :
    cutString (tail ++ ys) = cutString (tail ++ xs) := by
  have hbody : ((tail ++ xs).takeWhile (· != '"')).length ≤ tail.length := by
    unfold cutString at hle
    dsimp only at hle
    split at hle
    · exact Nat.le_of_succ_le hle
    · exact Nat.le_trans (List.takeWhile_prefix _).length_le hle
  have hrow : (tail ++ ys).takeWhile (· != '"') = (tail ++ xs).takeWhile (· != '"') := by
    refine h.takeWhile_eq (.inr fun c hc => ?_) hbody
    simpa using hc.ne (d := '"') rfl
  unfold cutString at hle ⊢
  dsimp only at hle ⊢
  rw [hrow]
  split at hle
  · next hlt =>
    rw [if_pos, if_pos hlt]
    rw [List.length_append]
    omega
  · next hlt =>
    rw [List.length_append] at hle
    obtain rfl : xs = [] := List.eq_nil_of_length_eq_zero (by omega)
    rw [h.eq_nil]

theorem fractionDigits_blanked (h : Blanked xs ys)
    (hle : (fractionDigits (tail ++ xs)).length ≤ tail.length - 1) :
    fractionDigits (tail ++ ys) = fractionDigits (tail ++ xs) := by
  cases tail with
  | nil =>
    have hxs : fractionDigits xs = [] := List.eq_nil_of_length_eq_zero (Nat.le_zero.mp hle)
    rw [List.nil_append, List.nil_append, hxs]
    by_cases hpoint : ∃ cs, ys = '.' :: cs
    · obtain ⟨ys, rfl⟩ := hpoint
      obtain ⟨xs, rfl, hrest⟩ := h.of_cons (by decide)
      have hrow : ([] ++ ys).takeWhile Char.isDigit = ([] ++ xs).takeWhile Char.isDigit :=
        hrest.takeWhile_eq (.inl (by decide)) hle
      exact hrow.trans hxs
    · rw [fractionDigits]
      intro cs heq
      exact hpoint ⟨cs, heq⟩
  | cons d tail =>
    by_cases hpoint : d = '.'
    · subst hpoint
      exact h.takeWhile_eq (.inl (by decide)) hle
    · simp [fractionDigits, hpoint]

theorem cutNumber_blanked {c : Char} (h : Blanked xs ys)
    (hle : (cutNumber c (tail ++ xs)).2 ≤ tail.length) :
    cutNumber c (tail ++ ys) = cutNumber c (tail ++ xs) := by
  simp only [cutNumber] at hle ⊢
  have hwhole : ((tail ++ xs).takeWhile Char.isDigit).length ≤ tail.length := by
    split at hle <;> omega
  have hrow : (tail ++ ys).takeWhile Char.isDigit = (tail ++ xs).takeWhile Char.isDigit :=
    h.takeWhile_eq (.inl (by decide)) hwhole
  rw [hrow]
  generalize (tail ++ xs).takeWhile Char.isDigit = whole at hle hwhole
  rw [List.drop_append_of_le_length hwhole] at hle ⊢
  rw [List.drop_append_of_le_length hwhole, fractionDigits_blanked h]
  rw [List.length_drop]
  split at hle
  · next hnil =>
    rw [hnil]
    exact Nat.zero_le _
  · omega

theorem cutWord_blanked {c : Char} (h : Blanked xs ys)
    (hle : (cutWord c (tail ++ xs)).2 ≤ tail.length) :
    cutWord c (tail ++ ys) = cutWord c (tail ++ xs) := by
  have hrow : (tail ++ ys).takeWhile isNameChar = (tail ++ xs).takeWhile isNameChar :=
    h.takeWhile_eq (.inl (by decide)) hle
  rw [cutWord, hrow, cutWord]

/-- A choice between two cuts that do not change does not change either. -/
theorem ite_blanked {p : Prop} [Decidable p] {a a' b b' : Piece × Nat} {n : Nat}
    (hle : (if p then a else b).2 ≤ n) (ha : a.2 ≤ n → a' = a) (hb : b.2 ≤ n → b' = b) :
    (if p then a' else b') = if p then a else b := by
  by_cases hp : p
  · rw [if_pos hp] at hle ⊢
    rw [if_pos hp, ha hle]
  · rw [if_neg hp] at hle ⊢
    rw [if_neg hp, hb hle]

/-- What is cut off a text does not change when foreign characters behind it are blanked out. -/
theorem cut_blanked {c : Char} (h : Blanked xs ys) (hle : (cut c (tail ++ xs)).2 ≤ tail.length) :
    cut c (tail ++ ys) = cut c (tail ++ xs) := by
  unfold cut at hle ⊢
  cases hsolo : soloSymbol? c with
  | some s => rfl
  | none =>
    rw [hsolo] at hle
    -- The tests on the first character, in the order in which they are made.
    refine ite_blanked hle (cutEither_blanked h) fun hle => ?_
    refine ite_blanked hle (cutEither_blanked h) fun hle => ?_
    refine ite_blanked hle (cutEither_blanked h) fun hle => ?_
    refine ite_blanked hle (cutEither_blanked h) fun hle => ?_
    refine ite_blanked hle (cutSlash_blanked h) fun hle => ?_
    refine ite_blanked hle (fun _ => rfl) fun hle => ?_
    refine ite_blanked hle (cutString_blanked h) fun hle => ?_
    refine ite_blanked hle (cutNumber_blanked h) fun hle => ?_
    exact ite_blanked hle (cutWord_blanked h) fun _ => rfl

end Piece

/-! ## Scanning what is left -/

/-- Whether the item is a foreign character. -/
def ScanItem.isForeign : ScanItem → Bool
  | token _ => false
  | error e => e.fault.isForeign

/-- Spaces are passed over. -/
theorem filler_replicate (n : Nat) : Filler (List.replicate n ' ') := by
  induction n with
  | zero => exact .nil
  | succ n ih => exact .space rfl ih

theorem byteLength_replicate (n : Nat) : byteLength (List.replicate n ' ') = n := by
  induction n with
  | zero => rfl
  | succ n ih =>
    rw [List.replicate_succ, byteLength_cons, ih]
    exact Nat.add_comm 1 n

/-- The spaces lead to where the foreign character did. -/
theorem IsForeign.after_replicate {c : Char} (h : IsForeign c) (p : Place) :
    p.after (List.replicate c.utf8Size ' ') = p.after [c] := by
  have hline : c ≠ '\n' := h.ne rfl
  simp [Place.after, byteLength_replicate, List.count_replicate, hline]

theorem Blanked.after_eq {xs ys : List Char} (h : Blanked xs ys) (p : Place) :
    p.after ys = p.after xs := by
  induction h generalizing p with
  | nil => rfl
  | @keep c xs ys _ ih =>
    rw [← List.singleton_append, ← List.singleton_append (l := xs), Place.after_append, ih,
      ← Place.after_append]
  | @blank c xs ys hc _ ih =>
    rw [← List.singleton_append (l := xs), Place.after_append, hc.after_replicate, ih,
      ← Place.after_append]

/-! ## Blanking out what a scan has reported -/

/-- Whether a scan has reported a foreign character at `offset`. -/
def Scan.rejects (s : Scan) (offset : Nat) : Bool :=
  s.errors.any fun e => e.fault.isForeign && e.span.start == offset

/-- The characters `cs`, the first of which stands at `offset`, with spaces in the place of those
that stand at a bad offset. -/
def blankOut (bad : Nat → Bool) (offset : Nat) : List Char → List Char
  | [] => []
  | c :: cs =>
    (if bad offset then List.replicate c.utf8Size ' ' else [c]) ++
      blankOut bad (offset + c.utf8Size) cs

/-- A source text with spaces in the place of the foreign characters that its scan reports. -/
def blankedOut (source : String) : String :=
  String.ofList (blankOut (Scan.ofString source).rejects 0 source.toList)

/-- Where no offset is bad everything stays. -/
theorem blankOut_append {bad : Nat → Bool} {offset : Nat} {text : List Char}
    (h : ∀ o, offset ≤ o → o < offset + byteLength text → bad o = false) (cs : List Char) :
    blankOut bad offset (text ++ cs) = text ++ blankOut bad (offset + byteLength text) cs := by
  induction text generalizing offset with
  | nil => rfl
  | cons c text ih =>
    have hpos := c.utf8Size_pos
    simp only [byteLength_cons] at h
    have hfirst : bad offset = false := h offset (Nat.le_refl _) (by omega)
    rw [List.cons_append, blankOut, hfirst, ih fun o hle hlt => h o (by omega) (by omega)]
    simp [Nat.add_assoc]

namespace Scan

/-- Whether the item is about a foreign character at `offset`. -/
def itemRejects (offset : Nat) (item : ScanItem) : Bool :=
  item.isForeign && item.span.start == offset

theorem rejects_eq_any (s : Scan) (offset : Nat) :
    s.rejects offset = s.items.any (itemRejects offset) := by
  rw [rejects, errors, List.any_filterMap]
  congr 1
  funext item
  cases item <;> rfl

end Scan

/-- The bad offsets are those at which the scan of `cs` from `p` has foreign characters. -/
def ReportedFrom (bad : Nat → Bool) (p : Place) (cs : List Char) : Prop :=
  ∀ o, p.offset ≤ o → bad o = (scanFrom p cs).any (Scan.itemRejects o)

theorem Piece.any_item? (p : Place) (text : List Char) (piece : Piece) (o : Nat) :
    (piece.item? p text).toList.any (Scan.itemRejects o) =
      (piece.isForeign && p.offset == o) := by
  cases piece with
  | blank => rfl
  | token kind => rfl
  | fault f => simp [item?, Scan.itemRejects, ScanItem.isForeign, ScanItem.span, isForeign]

namespace ReportedFrom

variable {bad : Nat → Bool} {p : Place} {c : Char} {tail behind : List Char}

/-- The first piece and what follows it, each on its own. -/
theorem bad_eq (h : ReportedFrom bad p (c :: (tail ++ behind)))
    (hlen : (Piece.cut c (tail ++ behind)).2 = tail.length) {o : Nat} (hle : p.offset ≤ o) :
    bad o = (((Piece.cut c (tail ++ behind)).1.isForeign && p.offset == o) ||
      (scanFrom (p.after (c :: tail)) behind).any (Scan.itemRejects o)) := by
  rw [h o hle, scanFrom_cons, hlen, List.take_left, List.drop_left, List.any_append,
    Piece.any_item?]

/-- The bad offsets behind the piece are those of the scan behind it. -/
theorem after (h : ReportedFrom bad p (c :: (tail ++ behind)))
    (hlen : (Piece.cut c (tail ++ behind)).2 = tail.length) :
    ReportedFrom bad (p.after (c :: tail)) behind := by
  intro o hle
  have hpos := byteLength_pos (List.cons_ne_nil c tail)
  simp only [Place.after] at hle
  have hne : (p.offset == o) = false := by
    rw [beq_eq_false_iff_ne]
    omega
  rw [h.bad_eq hlen (by omega), hne, Bool.and_false, Bool.false_or]

/-- A piece is blanked out as a whole or not at all. -/
theorem blankOut_eq (h : ReportedFrom bad p (c :: (tail ++ behind)))
    (hlen : (Piece.cut c (tail ++ behind)).2 = tail.length) :
    blankOut bad p.offset (c :: (tail ++ behind)) =
      (if (Piece.cut c (tail ++ behind)).1.isForeign then List.replicate c.utf8Size ' '
        else c :: tail) ++ blankOut bad (p.after (c :: tail)).offset behind := by
  -- The items behind the piece stand further back than its characters.
  have hlater (o : Nat) (hlt : o < (p.after (c :: tail)).offset) :
      (scanFrom (p.after (c :: tail)) behind).any (Scan.itemRejects o) = false := by
    rw [List.any_eq_false]
    intro item hmem hrejects
    have hstart := (scanFrom_partition (p.after (c :: tail)) behind).start_le hmem
    simp only [Scan.itemRejects, Bool.and_eq_true, beq_iff_eq] at hrejects
    omega
  by_cases hforeign : (Piece.cut c (tail ++ behind)).1.isForeign
  · have htail : tail = [] := by
      rw [Piece.isForeign_of_cut hforeign] at hlen
      exact List.eq_nil_of_length_eq_zero hlen.symm
    subst htail
    have hbad : bad p.offset = true := by
      rw [h.bad_eq hlen (Nat.le_refl _), hforeign]
      simp
    rw [if_pos hforeign, List.nil_append, blankOut, if_pos hbad]
    rfl
  · rw [if_neg hforeign, ← List.cons_append, blankOut_append]
    · rfl
    · intro o hle hlt
      rw [h.bad_eq hlen hle, hlater o hlt]
      simp [hforeign]

end ReportedFrom

/-- What the first piece leaves of its items when the foreign characters are taken out. -/
theorem Piece.filter_item? (p : Place) (text : List Char) (piece : Piece) :
    (piece.item? p text).toList.filter (!·.isForeign) =
      if piece.isForeign then [] else (piece.item? p text).toList := by
  cases piece with
  | blank => rfl
  | token kind => rfl
  | fault f =>
    cases hf : f.isForeign <;> simp [item?, ScanItem.isForeign, isForeign, hf]

/-- Spaces in the place of the foreign characters that are reported change no piece, and take
nothing but these reports away. The induction is over the pieces. -/
theorem scanFrom_blankOut {bad : Nat → Bool} {p : Place} {cs : List Char}
    (h : ReportedFrom bad p cs) :
    Blanked cs (blankOut bad p.offset cs) ∧
      scanFrom p (blankOut bad p.offset cs) = (scanFrom p cs).filter (!·.isForeign) := by
  fun_induction scanFrom p cs with
  | case1 p => exact ⟨.nil, scanFrom_nil p⟩
  | case2 p c cs piece taken ih =>
    obtain ⟨tail, behind, rfl, htail, -⟩ := Piece.cut_isRight c cs
    simp only [piece, taken, htail, List.take_left, List.drop_left] at ih ⊢
    obtain ⟨hblanked, hscan⟩ := ih (h.after htail)
    rw [h.blankOut_eq htail, List.filter_append, Piece.filter_item?]
    by_cases hforeign : (Piece.cut c (tail ++ behind)).1.isForeign
    · -- The spaces lead to the place behind the character, and are not reported.
      have hc : IsForeign c := Piece.isForeign_of_cut hforeign
      obtain rfl : tail = [] := by
        rw [hc] at htail
        exact List.eq_nil_of_length_eq_zero htail.symm
      rw [if_pos hforeign, if_pos hforeign]
      refine ⟨.blank hc hblanked, ?_⟩
      rw [scanFrom_filler (filler_replicate _), hc.after_replicate, hscan]
      rfl
    · -- The piece is cut off as before, for what has changed stands behind it.
      rw [if_neg hforeign, if_neg hforeign]
      refine ⟨hblanked.append (c :: tail), ?_⟩
      rw [List.cons_append, scanFrom_cons, Piece.cut_blanked hblanked (Nat.le_of_eq htail), htail,
        List.take_left, List.drop_left, hscan]

/-! ## Whole scans -/

namespace Partition

variable {p : Place} {items : List ScanItem}

theorem eq_nil (h : Partition p [] items) : items = [] := by
  generalize hcs : ([] : List Char) = cs at h
  cases h with
  | finish hg => rfl
  | item hg hne hi hr =>
    simp only [List.nil_eq, List.append_eq_nil_iff] at hcs
    exact absurd hcs.2.1 hne

/-- A string or a comment that is never closed takes the rest of the text with it, so there is at
most one. -/
theorem unclosed_length_le {cs : List Char} (h : Partition p cs items) :
    ((items.filterMap ScanItem.error?).filter (!·.fault.isForeign)).length ≤ 1 := by
  induction h with
  | finish hg => exact Nat.zero_le _
  | @item p gap text rest first items hg hne hi hr ih =>
    cases first with
    | token t => exact ih
    | error e =>
      cases hf : e.fault.isForeign with
      | true => simpa [ScanItem.error?, hf] using ih
      | false =>
        have hrest : rest = [] := by
          obtain ⟨-, -, hcovers⟩ := hi
          cases hfault : e.fault with
          | unrecognized c =>
            rw [hfault] at hf
            cases hf
          | unclosedString =>
            rw [hfault] at hcovers
            exact hcovers.1
          | unclosedComment =>
            rw [hfault] at hcovers
            exact hcovers.1
        rw [hrest] at hr
        simp [hr.eq_nil, ScanItem.error?, hf]

end Partition

/-- **A foreign character is to the scan what a row of spaces is.** With spaces in the place of the
characters reported as foreign, as many as they have bytes, the tokens are the same, where they
were; of the errors those about foreign characters are gone and the others, of which there is at
most one, are the same; and the text ends where it did. -/
theorem Scan.ofString_blankedOut (source : String) :
    (ofString (blankedOut source)).tokens = (ofString source).tokens ∧
      (ofString (blankedOut source)).errors =
        (ofString source).errors.filter (!·.fault.isForeign) ∧
      ((ofString source).errors.filter (!·.fault.isForeign)).length ≤ 1 ∧
      (ofString (blankedOut source)).finish = (ofString source).finish := by
  have hreported : ReportedFrom (ofString source).rejects .origin source.toList :=
    fun o _ => rejects_eq_any (ofString source) o
  obtain ⟨hblanked, hscan⟩ := scanFrom_blankOut hreported
  have hitems : (ofString (blankedOut source)).items =
      (ofString source).items.filter (!·.isForeign) := by
    rw [ofString, blankedOut, String.toList_ofList]
    exact hscan
  refine ⟨?_, ?_, (scanFrom_partition .origin source.toList).unclosed_length_le, ?_⟩
  · rw [tokens, hitems, List.filterMap_filter, tokens]
    congr 1
    funext item
    cases item with
    | token t => rfl
    | error e => simp [ScanItem.token?]
  · rw [errors, hitems, List.filterMap_filter, errors, List.filter_filterMap]
    congr 1
    funext item
    cases item with
    | token t => rfl
    | error e =>
      cases hf : e.fault.isForeign <;> simp [ScanItem.isForeign, ScanItem.error?, Option.filter, hf]
  · rw [ofString, blankedOut, String.toList_ofList]
    exact congrArg Lexeme.endingAt (hblanked.after_eq _)

/-- The character behind the point is blanked out, the ones in the string stay. -/
example : blankedOut "1.é \"é" = "1.   \"é" := by decide +kernel

end Lox
