import Lox.Proofs.Scanning.Spelling

/-!
# What is cut off a text

The first piece of a text is what the lexical grammar says there is: a blank, a token that is as
long as it can be, or a fault (`Piece.cut_isRight`). The statements before that go through the
pieces one kind at a time, each against its class.

That a token is as long as possible takes the other direction: whatever the class of a longer
spelling, its first character decides which kind of piece is cut, and that piece then reaches at
least as far (`Piece.reaches_of_spells`).
-/

set_option autoImplicit false

namespace Lox

/-! ## Rows of characters -/

/-- A text is a row of characters with a property, as long as possible, and the rest. -/
theorem exists_row (p : Char → Bool) (cs : List Char) :
    ∃ row rest, cs = row ++ rest ∧ cs.takeWhile p = row ∧ (∀ c ∈ row, p c = true) ∧
      ∀ c ∈ rest.head?, p c = false := by
  refine ⟨cs.takeWhile p, cs.dropWhile p, (List.takeWhile_append_dropWhile).symm, rfl,
    fun c hc => List.all_eq_true.mp List.all_takeWhile c hc, fun c hc => ?_⟩
  have := List.head?_dropWhile_not p cs
  rw [Option.mem_def.mp hc] at this
  simpa using this

/-- Such a row, when it comes first, is what is taken. -/
theorem takeWhile_row {p : Char → Bool} {row rest : List Char} (hrow : ∀ c ∈ row, p c = true)
    (hrest : ∀ c ∈ rest.head?, p c = false) : (row ++ rest).takeWhile p = row := by
  rw [List.takeWhile_append_of_pos hrow]
  cases rest with
  | nil => simp
  | cons c rest => simp [hrest c rfl]

/-- What comes first and has the property throughout is no longer than such a row. -/
theorem length_le_takeWhile {p : Char → Bool} {xs cs : List Char} (h : xs <+: cs)
    (hp : ∀ c ∈ xs, p c = true) : xs.length ≤ (cs.takeWhile p).length := by
  obtain ⟨rest, rfl⟩ := h
  rw [List.takeWhile_append_of_pos hp, List.length_append]
  exact Nat.le_add_right ..

/-! ## Character classes -/

theorem isNameChar_of_isNameStart {c : Char} (h : isNameStart c = true) : isNameChar c = true := by
  simp only [isNameStart, isNameChar, Char.isAlphanum, Bool.or_eq_true] at h ⊢
  rcases h with h | h
  · exact Or.inl (Or.inl h)
  · exact Or.inr h

theorem isNameChar_of_isDigit {c : Char} (h : c.isDigit = true) : isNameChar c = true := by
  simp only [isNameChar, Char.isAlphanum, Bool.or_eq_true]
  exact Or.inl (Or.inr h)

/-- No name begins with a digit. -/
theorem isNameStart_of_isDigit {c : Char} (h : c.isDigit = true) : isNameStart c = false := by
  rw [Bool.eq_false_iff]
  intro hstart
  rcases Bool.or_eq_true_iff.mp hstart with hletter | hunderscore
  · have hdigit : 48 ≤ c.toNat ∧ c.toNat ≤ 57 := by
      obtain ⟨hlow, hhigh⟩ := Bool.and_eq_true_iff.mp h
      exact ⟨UInt32.le_iff_toNat_le.mp (of_decide_eq_true hlow),
        UInt32.le_iff_toNat_le.mp (of_decide_eq_true hhigh)⟩
    rcases Bool.or_eq_true_iff.mp hletter with hupper | hlower
    · obtain ⟨hge, -⟩ : c.val ≥ 'A'.val ∧ c.val ≤ 'Z'.val := of_decide_eq_true hupper
      have hlow := UInt32.le_iff_toNat_le.mp hge
      change 65 ≤ c.toNat at hlow
      omega
    · obtain ⟨hge, -⟩ := Bool.and_eq_true_iff.mp hlower
      have hlow := UInt32.le_iff_toNat_le.mp (of_decide_eq_true hge)
      change 97 ≤ c.toNat at hlow
      omega
  · obtain rfl := beq_iff_eq.mp hunderscore
    revert h
    decide

namespace Piece

/-- Where a word or a number goes on no symbol begins. -/
theorem cut_of_isNameChar {c : Char} (h : isNameChar c = true) (cs : List Char) :
    cut c cs = if c.isDigit then cutNumber c cs else
      if isNameStart c then cutWord c cs else (fault (.unrecognized c), 0) := by
  have hsolo : soloSymbol? c = none := by
    unfold soloSymbol?
    split <;> first | rfl | (exfalso; revert h; decide)
  have hne (d : Char) (hd : isNameChar d = false) : (c == d) = false := by
    rw [beq_eq_false_iff_ne]
    rintro rfl
    rw [h] at hd
    cases hd
  have hblank : isBlankChar c = false := by
    simp [isBlankChar, hne ' ' (by decide), hne '\r' (by decide), hne '\t' (by decide),
      hne '\n' (by decide)]
  simp only [cut, hsolo, hne '!' (by decide), hne '=' (by decide), hne '<' (by decide),
    hne '>' (by decide), hne '/' (by decide), hne '"' (by decide), hblank, Bool.false_eq_true,
    if_false]

theorem cut_of_isDigit {c : Char} (h : c.isDigit = true) (cs : List Char) :
    cut c cs = cutNumber c cs := by
  rw [cut_of_isNameChar (isNameChar_of_isDigit h), if_pos h]

theorem cut_of_isNameStart {c : Char} (h : isNameStart c = true) (cs : List Char) :
    cut c cs = cutWord c cs := by
  rw [cut_of_isNameChar (isNameChar_of_isNameStart h), if_neg, if_pos h]
  intro hd
  rw [isNameStart_of_isDigit hd] at h
  cases h

/-! ## Block comments

Counting open comments finds the end of a comment body, and the body is what was counted over. -/

theorem commentLength?_other {c : Char} {cs : List Char} (ho : ∀ cs', c :: cs ≠ '/' :: '*' :: cs')
    (hc : ∀ cs', c :: cs ≠ '*' :: '/' :: cs') (depth : Nat) :
    commentLength? (depth + 1) (c :: cs) = (commentLength? (depth + 1) cs).map (· + 1) := by
  rw [commentLength?]
  · rintro cs' rfl rfl
    exact ho cs' rfl
  · rintro cs' rfl rfl
    exact hc cs' rfl

/-- A comment body has no end but its own. -/
theorem commentLength?_body {body : List Char} (h : CommentBody body) (depth : Nat)
    (rest : List Char) :
    commentLength? (depth + 1) (body ++ rest) =
      (commentLength? depth rest).map (· + body.length) := by
  induction h generalizing depth rest with
  | close => simp [commentLength?]
  | @nested inner tail _ _ ihi ihr =>
    simp only [List.cons_append, List.append_assoc, commentLength?, ihi, ihr, Option.map_map]
    congr 1
    funext n
    simp only [Function.comp_apply, List.length_cons, List.length_append]
    omega
  | @char c tail ho hc hr ihr =>
    -- What may follow a body cannot complete a mark that begins inside it.
    obtain ⟨d, tail, rfl⟩ : ∃ d tail', tail = d :: tail' := by cases hr <;> exact ⟨_, _, rfl⟩
    rw [List.cons_append, commentLength?_other, ihr, Option.map_map]
    · rfl
    · intro cs' heq
      cases heq
      exact ho _ rfl
    · intro cs' heq
      cases heq
      exact hc _ rfl

theorem exists_body_of_commentLength? {depth n : Nat} {cs : List Char}
    (h : commentLength? (depth + 1) cs = some n) :
    ∃ body rest m, cs = body ++ rest ∧ CommentBody body ∧ commentLength? depth rest = some m ∧
      n = body.length + m := by
  induction hlen : cs.length using Nat.strongRecOn generalizing depth n cs with
  | ind len ih =>
    subst hlen
    cases cs with
    | nil => simp [commentLength?] at h
    | cons c cs =>
      by_cases ho : ∃ cs', c :: cs = '/' :: '*' :: cs'
      · obtain ⟨cs', heq⟩ := ho
        cases heq
        obtain ⟨n', hn', rfl⟩ := Option.map_eq_some_iff.mp h
        have hlt : cs'.length < ('/' :: '*' :: cs').length := by
          simp only [List.length_cons]
          omega
        -- Two bodies follow an opening mark: that of the comment it opens, and what is left of
        -- the one around it.
        obtain ⟨inner, rest₁, m₁, rfl, hinner, hm₁, rfl⟩ := ih _ hlt hn' rfl
        have hlt₁ : rest₁.length < ('/' :: '*' :: (inner ++ rest₁)).length := by
          simp only [List.length_cons, List.length_append]
          omega
        obtain ⟨outer, rest₂, m₂, rfl, houter, hm₂, rfl⟩ := ih _ hlt₁ hm₁ rfl
        exact ⟨'/' :: '*' :: (inner ++ outer), rest₂, m₂, by simp, .nested hinner houter, hm₂,
          by simp; omega⟩
      · by_cases hc : ∃ cs', c :: cs = '*' :: '/' :: cs'
        · obtain ⟨cs', heq⟩ := hc
          cases heq
          obtain ⟨n', hn', rfl⟩ := Option.map_eq_some_iff.mp h
          exact ⟨['*', '/'], cs', n', rfl, .close, hn', by simp; omega⟩
        · have ho' : ∀ cs', c :: cs ≠ '/' :: '*' :: cs' := fun cs' heq => ho ⟨cs', heq⟩
          have hc' : ∀ cs', c :: cs ≠ '*' :: '/' :: cs' := fun cs' heq => hc ⟨cs', heq⟩
          rw [commentLength?_other ho' hc'] at h
          obtain ⟨n', hn', rfl⟩ := Option.map_eq_some_iff.mp h
          obtain ⟨body, rest, m, rfl, hbody, hm, rfl⟩ := ih _ (by simp) hn' rfl
          refine ⟨c :: body, rest, m, rfl, .char ?_ ?_ hbody, hm, by simp; omega⟩
          · intro cs' heq
            cases heq
            exact ho' _ rfl
          · intro cs' heq
            cases heq
            exact hc' _ rfl

/-- A comment is closed where its body ends. -/
theorem commentLength?_one_eq_some_iff {cs : List Char} {n : Nat} :
    commentLength? 1 cs = some n ↔
      ∃ body rest, cs = body ++ rest ∧ CommentBody body ∧ n = body.length := by
  constructor
  · intro h
    obtain ⟨body, rest, m, rfl, hbody, hm, rfl⟩ := exists_body_of_commentLength? h
    rw [commentLength?] at hm
    cases hm
    exact ⟨body, rest, rfl, hbody, rfl⟩
  · rintro ⟨body, rest, rfl, hbody, rfl⟩
    rw [commentLength?_body hbody, commentLength?]
    simp

/-- A comment is not closed if no body begins the text. -/
theorem not_commentBody_of_commentLength? {cs : List Char} (h : commentLength? 1 cs = none)
    {closed : List Char} (hp : closed <+: cs) : ¬ CommentBody closed := by
  intro hbody
  obtain ⟨rest, rfl⟩ := hp
  rw [commentLength?_one_eq_some_iff.mpr ⟨closed, rest, rfl, hbody, rfl⟩] at h
  cases h

/-! ## Each kind of piece is of its class -/

/-- A piece is of its class. For a token this leaves out that it is as long as it can be, and for a
character that nothing can begin with it. -/
def Fits (text behind : List Char) : Piece → Prop
  | blank => Blank text behind
  | token kind =>
    kind.Spells text ∧ (kind = .symbol .slash → ∀ c ∈ behind.head?, c ≠ '/' ∧ c ≠ '*')
  | fault (.unrecognized c) => text = [c] ∧ isBlankChar c = false
  | fault f => f.Covers text behind

/-- What was cut off the text `c :: cs` is a part of it and of its class. -/
def Parts (c : Char) (cs : List Char) (cut : Piece × Nat) : Prop :=
  ∃ tail behind, cs = tail ++ behind ∧ cut.2 = tail.length ∧ cut.1.Fits (c :: tail) behind

theorem text_of_soloSymbol? {c : Char} {s : Symbol} (h : soloSymbol? c = some s) :
    s.text.toList = [c] ∧ s ≠ .slash := by
  unfold soloSymbol? at h
  split at h <;> cases h <;> exact ⟨rfl, by decide⟩

/-- A symbol that is spelled by a single character is a part of every text it begins. -/
theorem parts_symbol {c : Char} {s : Symbol} (h : s.text.toList = [c] ∧ s ≠ .slash)
    (cs : List Char) : Parts c cs (token (.symbol s), 0) := by
  refine ⟨[], cs, rfl, rfl, h.1 ▸ .symbol s, ?_⟩
  intro heq
  cases heq
  exact absurd rfl h.2

theorem parts_cutEither {c : Char} {long short : Symbol}
    (hl : long.text.toList = [c, '='] ∧ long ≠ .slash)
    (hs : short.text.toList = [c] ∧ short ≠ .slash) (cs : List Char) :
    Parts c cs (cutEither long short cs) := by
  unfold cutEither
  split
  · refine ⟨['='], _, rfl, rfl, hl.1 ▸ .symbol long, ?_⟩
    intro heq
    cases heq
    exact absurd rfl hl.2
  · exact parts_symbol hs cs

theorem parts_cutSlash (cs : List Char) : Parts '/' cs (cutSlash cs) := by
  unfold cutSlash
  split
  · rename_i cs
    obtain ⟨row, rest, rfl, hrow, hp, hrest⟩ := exists_row (· != '\n') cs
    refine ⟨'/' :: row, rest, rfl, ?_, .line ?_ ?_⟩
    · rw [hrow, List.length_cons, Nat.add_comm]
    · intro hmem
      simpa using hp _ hmem
    · intro c hc
      simpa using hrest c hc
  · rename_i cs
    split
    · next n hn =>
      obtain ⟨body, rest, rfl, hbody, rfl⟩ := commentLength?_one_eq_some_iff.mp hn
      exact ⟨'*' :: body, rest, rfl, Nat.add_comm .., .block hbody⟩
    · next hn =>
      refine ⟨'*' :: cs, [], by simp, Nat.add_comm .., rfl, cs, rfl, fun closed hp => ?_⟩
      exact not_commentBody_of_commentLength? hn hp
  · next hslash hstar =>
    refine ⟨[], cs, rfl, rfl, .symbol .slash, fun _ c hc => ?_⟩
    obtain ⟨cs', rfl⟩ := List.head?_eq_some_iff.mp hc
    constructor
    · rintro rfl
      exact hslash cs' rfl
    · rintro rfl
      exact hstar cs' rfl

theorem parts_cutString (cs : List Char) : Parts '"' cs (cutString cs) := by
  obtain ⟨body, rest, rfl, hbody, hp, hrest⟩ := exists_row (· != '"') cs
  have hmem : '"' ∉ body := fun h => by simpa using hp _ h
  simp only [cutString, hbody]
  cases rest with
  | nil =>
    refine ⟨body, [], rfl, ?_, ?_⟩
    · simp
    · rw [List.append_nil, if_neg (Nat.lt_irrefl _)]
      exact ⟨rfl, body, rfl, hmem⟩
  | cons c rest =>
    obtain rfl : c = '"' := by simpa using hrest c rfl
    rw [if_pos (by simp)]
    refine ⟨body ++ ['"'], rest, by simp, by simp, .string hmem, ?_⟩
    intro heq
    cases heq

theorem fractionDigits_eq_nil_or (cs : List Char) :
    fractionDigits cs = [] ∨ ∃ digits rest, cs = '.' :: (digits ++ rest) ∧
      fractionDigits cs = digits ∧ digits ≠ [] ∧ ∀ d ∈ digits, d.isDigit = true := by
  unfold fractionDigits
  split
  · next cs =>
    obtain ⟨row, rest, rfl, hrow, hp, -⟩ := exists_row Char.isDigit cs
    rw [hrow]
    by_cases hne : row = []
    · exact .inl hne
    · exact .inr ⟨row, rest, rfl, rfl, hne, hp⟩
  · exact .inl rfl

theorem parts_cutNumber {c : Char} (h : c.isDigit = true) (cs : List Char) :
    Parts c cs (cutNumber c cs) := by
  obtain ⟨whole, rest, rfl, hwhole, hp, -⟩ := exists_row Char.isDigit cs
  have hd : ∀ d ∈ c :: whole, d.isDigit = true := List.forall_mem_cons.mpr ⟨h, hp⟩
  simp only [cutNumber, hwhole, List.drop_left]
  rcases fractionDigits_eq_nil_or rest with hnil | ⟨digits, rest', rfl, hdigits, hne, hf⟩
  · rw [hnil, if_pos rfl]
    refine ⟨whole, rest, rfl, rfl, .whole (List.cons_ne_nil _ _) hd, ?_⟩
    intro heq
    cases heq
  · rw [hdigits, if_neg hne]
    refine ⟨whole ++ '.' :: digits, rest', by simp, ?_,
      .fraction (List.cons_ne_nil _ _) hd hne hf, ?_⟩
    · simp only [List.length_append, List.length_cons]
      omega
    · rintro ⟨⟩

theorem parts_cutWord {c : Char} (h : isNameStart c = true) (cs : List Char) :
    Parts c cs (cutWord c cs) := by
  obtain ⟨tail, rest, rfl, htail, hp, -⟩ := exists_row isNameChar cs
  simp only [cutWord, htail]
  refine ⟨tail, rest, rfl, rfl, ?_, ?_⟩
  · unfold wordKind
    split
    · next k hk =>
      have htext := Keyword.text_of_ofText? hk
      rw [← String.toList_ofList (l := c :: tail), ← htext]
      exact .keyword k
    · next hk => exact .ident h hp hk
  · unfold wordKind
    split <;> rintro ⟨⟩

/-- What is cut off a text is a part of it and of its class. -/
theorem parts_cut (c : Char) (cs : List Char) : Parts c cs (cut c cs) := by
  unfold cut
  split
  · next s hs => exact parts_symbol (text_of_soloSymbol? hs) cs
  · -- The tests on the first character, in the order in which they are made.
    by_cases hbang : c == '!'
    · obtain rfl := beq_iff_eq.mp hbang
      exact parts_cutEither ⟨rfl, by decide⟩ ⟨rfl, by decide⟩ cs
    rw [if_neg hbang]
    by_cases hequal : c == '='
    · obtain rfl := beq_iff_eq.mp hequal
      exact parts_cutEither ⟨rfl, by decide⟩ ⟨rfl, by decide⟩ cs
    rw [if_neg hequal]
    by_cases hless : c == '<'
    · obtain rfl := beq_iff_eq.mp hless
      exact parts_cutEither ⟨rfl, by decide⟩ ⟨rfl, by decide⟩ cs
    rw [if_neg hless]
    by_cases hgreater : c == '>'
    · obtain rfl := beq_iff_eq.mp hgreater
      exact parts_cutEither ⟨rfl, by decide⟩ ⟨rfl, by decide⟩ cs
    rw [if_neg hgreater]
    by_cases hslash : c == '/'
    · obtain rfl := beq_iff_eq.mp hslash
      exact parts_cutSlash cs
    rw [if_neg hslash]
    by_cases hblank : isBlankChar c
    · rw [if_pos hblank]
      exact ⟨[], cs, rfl, rfl, .space hblank⟩
    rw [if_neg hblank]
    by_cases hquote : c == '"'
    · obtain rfl := beq_iff_eq.mp hquote
      exact parts_cutString cs
    rw [if_neg hquote]
    by_cases hdigit : c.isDigit
    · rw [if_pos hdigit]
      exact parts_cutNumber hdigit cs
    rw [if_neg hdigit]
    by_cases hstart : isNameStart c
    · rw [if_pos hstart]
      exact parts_cutWord hstart cs
    rw [if_neg hstart]
    exact ⟨[], cs, rfl, rfl, rfl, Bool.eq_false_iff.mpr hblank⟩

/-! ## No token is longer

Whatever the class of a spelling that begins a text, what is cut off the text reaches at least as
far. It need not be a token: a comment begins with a slash, too. -/

/-- What is cut off the text `c :: cs` covers `length` characters or more, and is something. -/
def Reaches (c : Char) (cs : List Char) (length : Nat) : Prop :=
  length ≤ (cut c cs).2 + 1 ∧ ∀ d, (cut c cs).1 ≠ fault (.unrecognized d)

theorem reaches_solo {c d : Char} {cs rest : List Char} {s : Symbol} (hs : soloSymbol? d = some s)
    (h : d :: rest = c :: cs) : Reaches c cs 1 := by
  cases h
  refine ⟨Nat.le_add_left .., fun d' => ?_⟩
  rw [cut, hs]
  intro heq
  cases heq

theorem reaches_short {c d : Char} {cs rest : List Char} {long short : Symbol}
    (hcut : cut d rest = cutEither long short rest) (h : d :: rest = c :: cs) :
    Reaches c cs 1 := by
  cases h
  refine ⟨Nat.le_add_left .., fun d' => ?_⟩
  rw [hcut]
  unfold cutEither
  split <;> rintro ⟨⟩

theorem reaches_long {c d : Char} {cs rest : List Char} {long : Symbol}
    (hcut : cut d ('=' :: rest) = (token (.symbol long), 1))
    (h : d :: '=' :: rest = c :: cs) : Reaches c cs 2 := by
  cases h
  rw [Reaches, hcut]
  refine ⟨Nat.le_refl _, fun d' => ?_⟩
  intro heq
  cases heq

theorem reaches_slash (cs : List Char) : Reaches '/' cs 1 := by
  refine ⟨Nat.le_add_left .., fun d => ?_⟩
  show (cutSlash cs).1 ≠ _
  unfold cutSlash
  split
  · rintro ⟨⟩
  · split <;> rintro ⟨⟩
  · rintro ⟨⟩

theorem reaches_symbol {c : Char} {cs : List Char} (s : Symbol) (h : s.text.toList <+: c :: cs) :
    Reaches c cs s.text.toList.length := by
  obtain ⟨rest, h⟩ := h
  cases s with
  | slash =>
    cases h
    exact reaches_slash rest
  | bang | equal | less | greater => exact reaches_short rfl h
  | bangEqual | equalEqual | lessEqual | greaterEqual => exact reaches_long rfl h
  | _ => exact reaches_solo rfl h

theorem reaches_word {c : Char} {cs tail : List Char} (hc : isNameStart c = true)
    (ht : ∀ d ∈ tail, isNameChar d = true) (h : tail <+: cs) :
    Reaches c cs (tail.length + 1) := by
  rw [Reaches, cut_of_isNameStart hc]
  refine ⟨?_, fun d => by rintro ⟨⟩⟩
  exact Nat.succ_le_succ (length_le_takeWhile h ht)

theorem reaches_whole {c : Char} {cs digits : List Char} (hc : c.isDigit = true)
    (hd : ∀ d ∈ digits, d.isDigit = true) (h : digits <+: cs) :
    Reaches c cs (digits.length + 1) := by
  rw [Reaches, cut_of_isDigit hc]
  refine ⟨?_, fun d => by rintro ⟨⟩⟩
  have hle := length_le_takeWhile h hd
  dsimp only [cutNumber]
  split <;> omega

theorem reaches_fraction {c : Char} {digits fraction : List Char} (rest : List Char)
    (hc : c.isDigit = true) (hd : ∀ d ∈ digits, d.isDigit = true) (hne : fraction ≠ [])
    (hf : ∀ d ∈ fraction, d.isDigit = true) :
    Reaches c (digits ++ '.' :: (fraction ++ rest)) (digits.length + 1 + fraction.length + 1) := by
  rw [Reaches, cut_of_isDigit hc]
  refine ⟨?_, fun d => by rintro ⟨⟩⟩
  have hwhole : (digits ++ '.' :: (fraction ++ rest)).takeWhile Char.isDigit = digits :=
    takeWhile_row hd (by rintro _ ⟨⟩; decide)
  have hle := length_le_takeWhile (List.prefix_append fraction rest) hf
  have hpos := List.length_pos_iff.mpr hne
  simp only [cutNumber, hwhole, List.drop_left, fractionDigits]
  rw [if_neg]
  · omega
  · intro hnil
    rw [hnil, List.length_nil] at hle
    omega

theorem reaches_string {body : List Char} (rest : List Char) (h : '"' ∉ body) :
    Reaches '"' (body ++ '"' :: rest) (body.length + 2) := by
  have hbody : (body ++ '"' :: rest).takeWhile (· != '"') = body := by
    refine takeWhile_row (fun c hc => ?_) (by rintro _ ⟨⟩; decide)
    rw [bne_iff_ne]
    rintro rfl
    exact h hc
  have hcut : cut '"' (body ++ '"' :: rest) =
      (token (.string (String.ofList body)), body.length + 1) := by
    show cutString _ = _
    rw [cutString, hbody, if_pos (by simp)]
  rw [Reaches, hcut]
  exact ⟨Nat.le_refl _, fun d => by rintro ⟨⟩⟩

theorem text_of_keyword (k : Keyword) : ∃ c tail, k.text.toList = c :: tail ∧
    isNameStart c = true ∧ ∀ d ∈ tail, isNameChar d = true := by
  have hall : ∃ c tail, k.text.toList = c :: tail ∧ isNameStart c = true ∧
      tail.all isNameChar = true := by
    cases k <;> exact ⟨_, _, rfl, rfl, rfl⟩
  simpa using hall

/-- What is cut off a text reaches at least as far as any spelling that the text begins with. -/
theorem reaches_of_spells {kind : TokenKind} {spelling : List Char} (h : kind.Spells spelling)
    {c : Char} {cs : List Char} (hp : spelling <+: c :: cs) : Reaches c cs spelling.length := by
  cases h with
  | symbol s => exact reaches_symbol s hp
  | @whole digits hne hd =>
    obtain ⟨d, digits, rfl⟩ := List.exists_cons_of_ne_nil hne
    obtain ⟨rfl, hp'⟩ := List.cons_prefix_cons.mp hp
    obtain ⟨hd, hds⟩ := List.forall_mem_cons.mp hd
    exact reaches_whole hd hds hp'
  | @fraction digits fraction hne hd hfne hf =>
    obtain ⟨d, digits, rfl⟩ := List.exists_cons_of_ne_nil hne
    obtain ⟨rfl, rest, rfl⟩ := List.cons_prefix_cons.mp hp
    obtain ⟨hd, hds⟩ := List.forall_mem_cons.mp hd
    have := reaches_fraction rest hd hds hfne hf
    simpa [Nat.add_assoc, Nat.add_comm, Nat.add_left_comm] using this
  | @string body hbody =>
    obtain ⟨rfl, rest, rfl⟩ := List.cons_prefix_cons.mp hp
    simpa using reaches_string rest hbody
  | keyword k =>
    obtain ⟨d, tail, htext, hd, htail⟩ := text_of_keyword k
    rw [htext] at hp ⊢
    obtain ⟨rfl, hp'⟩ := List.cons_prefix_cons.mp hp
    exact reaches_word hd htail hp'
  | ident hc htail hk =>
    obtain ⟨rfl, hp'⟩ := List.cons_prefix_cons.mp hp
    exact reaches_word hc htail hp'

/-! ## The first piece of a text -/

/-- A piece is what the lexical grammar says, in its surroundings. -/
def IsRight (text behind : List Char) : Piece → Prop
  | blank => Blank text behind
  | token kind => kind.Munches text behind
  | fault f => f.Covers text behind

/-- What is cut off a text is a part of it, and is what the lexical grammar says stands there. -/
theorem cut_isRight (c : Char) (cs : List Char) :
    ∃ tail behind, cs = tail ++ behind ∧ (cut c cs).2 = tail.length ∧
      (cut c cs).1.IsRight (c :: tail) behind := by
  obtain ⟨tail, behind, rfl, hlen, hfits⟩ := parts_cut c cs
  refine ⟨tail, behind, rfl, hlen, ?_⟩
  cases hcut : (cut c (tail ++ behind)).1 with
  | blank =>
    rw [hcut] at hfits
    exact hfits
  | token kind =>
    rw [hcut] at hfits
    obtain ⟨hspells, hslash⟩ := hfits
    -- A longer spelling would have been reached by what is cut off.
    refine ⟨hspells, fun kind' longer hspells' hp => ?_, hslash⟩
    rw [List.length_cons, ← hlen]
    exact (reaches_of_spells hspells' hp).1
  | fault f =>
    rw [hcut] at hfits
    cases f with
    | unrecognized d =>
      obtain ⟨htext, hblank⟩ := hfits
      cases htext
      refine ⟨rfl, hblank, fun kind spelling hspells hp => ?_⟩
      exact (reaches_of_spells hspells hp).2 _ hcut
    | unclosedString => exact hfits
    | unclosedComment => exact hfits

end Piece

end Lox
