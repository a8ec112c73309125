import Mathlib.Data.List.Basic
import Mathlib.Data.List.Forall2
import Lox.Proofs.Grammar.Blame
import Lox.Proofs.Grammar.FirstError
import Lox.Proofs.Grammar.Machine

/-!
# Recovery gets on

A program is read declaration by declaration, and after a wrong one the parser drops tokens until
it is likely to be before the next. What keeps this from going wrong is one fact about a single
declaration (`Rule.Blames`): the token that its error names is not behind the place where reading
goes on, and recovery drops one token more at least. So the next error names a token further on.

All errors together name a part of the tokens, in the order of the tokens and none of them twice;
that is what being a sublist means (`Grammar.named_sublist`). Tokens of a scan are pairwise
different, and so the positions that are named can be told from the errors.
-/

set_option autoImplicit false

namespace Lox

/-- What an error about the slot names. -/
def Slot.named (slot : Slot) : Option TokenKind × Lexeme := (slot.kind?, slot.lexeme)

namespace Grammar

/-! ## The errors of a token sequence -/

/-- What errors can name in a token sequence: its tokens, and the end behind them. -/
def nameable (finish : Lexeme) (ts : List Token) : List (Option TokenKind × Lexeme) :=
  ts.map (fun t => (some t.kind, t.lexeme)) ++ [(none, finish)]

variable {finish : Lexeme} {rest ts : List Token}

theorem nameable_sublist (h : rest <:+ ts) : (nameable finish rest).Sublist (nameable finish ts) :=
  (h.sublist.map _).append_right _

/-- Where an error of a declaration is followed by others, it names something before what is left
when the parser has recovered. -/
theorem named_cons_sublist {e : ParseError} {others : List (Option TokenKind × Lexeme)}
    (h : e.Blames finish ts rest) (hrest : rest <:+ ts)
    (hend : rest = [] → others = [])
    (hothers : others.Sublist (nameable finish (synchronize rest))) :
    (e.named :: others).Sublist (nameable finish ts) := by
  rcases h with ⟨he, hnil⟩ | ⟨before, t, after, hts, hlen, he⟩
  · have hnamed : e.named = (none, finish) := by rw [he, ParseError.named]
    rw [hnamed, hend hnil]
    exact List.sublist_append_right _ _
  · have hnamed : e.named = (some t.kind, t.lexeme) := by rw [he, ParseError.named]; rfl
    -- Reading goes on behind the named token, since recovery drops one token at least.
    have hafter : synchronize rest <:+ after := by
      have hsuffix : synchronize rest <:+ ts :=
        ((synchronize_suffix_tail rest).trans (List.tail_suffix rest)).trans hrest
      have hdrop := length_synchronize_le rest
      refine List.suffix_of_suffix_length_le hsuffix ?_ (by omega)
      exact hts ▸ ⟨before ++ [t], by simp⟩
    rw [hnamed, hts, nameable, List.map_append, List.append_assoc, List.map_cons, List.cons_append]
    apply List.sublist_append_of_sublist_right
    exact (hothers.trans (nameable_sublist hafter)).cons_cons _

/-- The errors name tokens in the order in which they stand, each of them once at most, and at last
possibly the end. -/
theorem named_sublist (finish : Lexeme) (ts : List Token) :
    ((errors (declarations finish ts)).map ParseError.named).Sublist (nameable finish ts) := by
  fun_induction declarations finish ts with
  | case1 => exact List.nil_sublist _
  | case2 t ts' s rest hrun _ ih =>
    have hrest := declaration.1.suffix finish (t :: ts')
    rw [hrun, Reply.rest_ok] at hrest
    exact ih.trans (nameable_sublist hrest)
  | case3 t ts' e rest hrun _ ih =>
    have hrest := declaration.1.suffix finish (t :: ts')
    rw [hrun, Reply.rest_error] at hrest
    refine named_cons_sublist (blames_declarationWithin _ _ _ _ _ hrun) hrest ?_ ih
    -- An error about the end is found when nothing is left, and then there is no other.
    rintro rfl
    simp [synchronize, declarations]

/-- There are no more errors than tokens, since each is of a declaration that begins with one. -/
theorem length_errors_le (finish : Lexeme) (ts : List Token) :
    (errors (declarations finish ts)).length ≤ ts.length := by
  fun_induction declarations finish ts with
  | case1 => exact Nat.le_refl 0
  | case2 t ts' s rest hrun hlt ih => exact Nat.le_of_lt (Nat.lt_of_le_of_lt ih hlt)
  | case3 t ts' e rest hrun hlt ih => exact Nat.lt_of_le_of_lt ih hlt

/-- All errors but the last name a token, and not the end. -/
theorem found_ne_none {finish : Lexeme} {ts : List Token} {es : List ParseError}
    (h : (es.map ParseError.named).Sublist (nameable finish ts)) {e : ParseError}
    (he : e ∈ es.dropLast) : e.found ≠ none := by
  obtain ⟨some, last, heq, hsome, hlast⟩ := List.sublist_append_iff.mp h
  have hmem : e.named ∈ (some ++ last).dropLast := by
    rw [← heq, ← List.map_dropLast]
    exact List.mem_map_of_mem he
  have hmem' : e.named ∈ some := by
    rcases List.sublist_singleton.mp hlast with rfl | rfl
    · exact (List.dropLast_sublist _).subset (by simpa using hmem)
    · simpa using hmem
  obtain ⟨t, -, ht⟩ := List.mem_map.mp (hsome.subset hmem')
  intro hnone
  simp [ParseError.named, hnone] at ht

end Grammar

namespace Parser

/-! ## The errors of a parser -/

/-- The error names what there is at position `i`. -/
def Names (p : Parser) (e : ParseError) (i : Nat) : Prop :=
  p.slots[i]?.map Slot.named = some e.named

/-- The errors that a parser finds from its position on. -/
structure FindsInOrder (p : Parser) (es : List ParseError) : Prop where
  ne_nil : es ≠ []
  /-- The positions that are named get greater from error to error. -/
  positions : ∃ positions : List Nat, List.Forall₂ p.Names es positions ∧
    positions.Pairwise (· < ·) ∧ ∀ i ∈ positions, p.current ≤ i
  /-- An error can be told to name one position only. -/
  unique : ∀ e i j, p.Names e i → p.Names e j → i = j
  nodup : (es.map ParseError.named).Nodup
  /-- Only the last error may be about the end. -/
  found_ne_none : ∀ e ∈ es.dropLast, e.found ≠ none
  /-- There are as many tokens at least, and the end behind them. -/
  length_lt : p.current + es.length < p.slots.length

variable {p : Parser} {finish : Lexeme} {ts : List Token} {es : List ParseError}

theorem Faces.named (h : p.Faces finish ts) :
    (p.slots.drop p.current).map Slot.named = Grammar.nameable finish ts := by
  rw [h]
  simp [Grammar.nameable, Slot.named, Slot.kind?, Slot.lexeme]

theorem exists_positions
    (h : (es.map ParseError.named).Sublist ((p.slots.drop p.current).map Slot.named)) :
    ∃ positions : List Nat, List.Forall₂ p.Names es positions ∧
      positions.Pairwise (· < ·) ∧ ∀ i ∈ positions, p.current ≤ i := by
  obtain ⟨is, heq, his⟩ := List.sublist_eq_map_getElem h
  refine ⟨is.map fun i => p.current + i.val, ?_, ?_, by simp⟩
  · rw [← List.forall₂_eq_eq_eq, List.forall₂_map_left_iff, List.forall₂_map_right_iff] at heq
    rw [List.forall₂_map_right_iff]
    refine heq.imp fun e i hei => ?_
    have hi := i.isLt
    simp only [List.length_map, List.length_drop] at hi
    rw [Names, hei]
    simp [List.getElem?_eq_getElem (show p.current + i.val < p.slots.length by omega)]
  · exact List.pairwise_map.mpr (his.imp fun hlt => Nat.add_lt_add_left hlt _)

/-- If all that a parser could name is different, so is all that it does name. -/
theorem findsInOrder (h : p.Faces finish ts) (hnodup : (p.slots.map Slot.named).Nodup)
    (hparse : Program.parse finish ts = .error es) : p.FindsInOrder es := by
  obtain ⟨rfl, hne⟩ := Program.parse_eq_error_iff.mp hparse
  have hsublist := Grammar.named_sublist finish ts
  have hlength := Grammar.length_errors_le finish ts
  have hleft := h.left
  have hlt := h.current_lt
  rw [left] at hleft
  rw [← h.named] at hsublist
  exact {
    ne_nil := hne
    positions := exists_positions hsublist
    unique := fun e i j hi hj => by
      rw [Names, ← List.getElem?_map] at hi hj
      obtain ⟨hlti, -⟩ := List.getElem?_eq_some_iff.mp hi
      exact (List.getElem?_inj hlti hnodup).mp (hi.trans hj.symm)
    nodup := hsublist.nodup (((List.drop_sublist _ _).map _).nodup hnodup)
    found_ne_none := fun e he => Grammar.found_ne_none (h.named ▸ hsublist) he
    length_lt := by omega }

/-! ## The rounds of a parser -/

/-- The parser is at the end, behind all tokens. -/
def AtEnd (p : Parser) : Prop := ∃ site, p.Faces site []

/-- A round is the last one, at the end, or a token has been consumed in it. -/
theorem programRound_progress (h : p.Faces finish ts) (hdepth : p.depth = 0) (read : Progress) :
    (∃ read' p', programRound read p = some (.done read', p') ∧ p.Before p' ∧ p'.AtEnd) ∨
      ∃ read' p', programRound read p = some (.again read', p') ∧ p.Before p' ∧
        p.current < p'.current ∧ p'.current < p'.slots.length := by
  have hadvances := programRound_advances finish read p ts h hdepth
  generalize hx : programRound read p = x at hadvances
  cases hadvances with
  | @done read' rest p' hgoal hfaces hbefore =>
    obtain rfl : [] = rest := congrArg Prod.snd hgoal
    exact .inl ⟨read', p', rfl, hbefore, finish, hfaces⟩
  | @again read' rest p' hgoal hfaces hbefore hlt =>
    have hleft := h.left
    have hleft' := hfaces.left
    rw [left] at hleft hleft'
    rw [hbefore.slots] at hleft'
    exact .inr ⟨read', p', rfl, hbefore, by omega, hfaces.current_lt⟩

/-- What becomes of a parser that reads a program from its position on. -/
structure GetsOn (p : Parser) : Prop where
  ends : ∃ result p', parse p = some (result, p') ∧ p.Before p' ∧ p'.AtEnd
  errors : ∀ es p', parse p = some (.error es, p') → p.FindsInOrder es
  round : ∀ read,
    (∃ read' p', programRound read p = some (.done read', p') ∧ p.Before p' ∧ p'.AtEnd) ∨
      ∃ read' p', programRound read p = some (.again read', p') ∧ p.Before p' ∧
        p.current < p'.current ∧ p'.current < p'.slots.length

theorem Faces.getsOn (h : p.Faces finish ts) (hdepth : p.depth = 0)
    (hnodup : (p.slots.map Slot.named).Nodup) : p.GetsOn := by
  obtain ⟨p', hx, hfaces, hbefore⟩ := parse_apply h hdepth
  constructor
  · exact ⟨_, p', hx, hbefore, finish, hfaces⟩
  · intro es p'' herror
    rw [hx] at herror
    exact findsInOrder h hnodup (congrArg Prod.fst (Option.some.inj herror))
  · exact programRound_progress h hdepth

/-! ## Parsers of scans -/

theorem Faces.at_position (h : p.Faces finish ts) (hbegin : p.current = 0) {c : Nat}
    (hc : c < p.slots.length) : Faces { p with current := c } finish (ts.drop c) := by
  have hslots : p.slots = ts.map .token ++ [.finish finish] := by
    rw [← h, hbegin, List.drop_zero]
  have hle : c ≤ (ts.map Slot.token).length := by
    rw [hslots, List.length_append] at hc
    exact Nat.le_of_lt_succ hc
  show p.slots.drop c = _
  rw [hslots, List.drop_append_of_le_length hle, List.map_drop]

/-- No two tokens of a scan are the same, and none is the end. -/
theorem nodup_nameable (h : ts.Pairwise fun a b => a.lexeme.start < b.lexeme.start) :
    (Grammar.nameable finish ts).Nodup := by
  have htokens : (ts.map fun t => (some t.kind, t.lexeme)).Nodup := by
    refine List.pairwise_map.mpr (h.imp fun {a b} hlt heq => ?_)
    have hlexeme : a.lexeme = b.lexeme := congrArg Prod.snd heq
    rw [hlexeme] at hlt
    exact Nat.lt_irrefl _ hlt
  exact List.nodup_append.mpr ⟨htokens, by simp, by simp⟩

/-- **Recovery gets on, and no token is blamed twice.** A parser for what has been scanned, or for a
beginning of it, that reads a program from any of its positions comes to the end. Each round of its
loop but the last consumes a token, and the errors that it finds name tokens further and further
on. -/
theorem parse_getsOn (source : String) (n c : Nat)
    (hc : c < (new ((Scan.ofString source).slots.take n)).slots.length) :
    GetsOn { new ((Scan.ofString source).slots.take n) with current := c } := by
  have hfaces := faces_new_take (Scan.ofString source) n
  have horder : ((Scan.ofString source).take n).1.Pairwise
      fun a b => a.lexeme.start < b.lexeme.start := by
    rw [Scan.take]
    split
    · exact Scan.tokens_pairwise source
    · exact (Scan.tokens_pairwise source).sublist (List.take_sublist _ _)
  have hnodup : (Grammar.nameable ((Scan.ofString source).take n).2 _).Nodup :=
    nodup_nameable horder
  rw [← hfaces.named] at hnodup
  exact (hfaces.at_position rfl hc).getsOn rfl hnodup

/-- An operator without a left operand, which is named when its right one has been read; a value
that is missing; and a parenthesis before the end. Of all this the parser reads the last two. -/
theorem parse_getsOn_operator :
    3 < (new ((Scan.ofString "+ 1; print; (").slots.take 7)).slots.length ∧
      GetsOn { new ((Scan.ofString "+ 1; print; (").slots.take 7) with current := 3 } := by
  have hc : 3 < (new ((Scan.ofString "+ 1; print; (").slots.take 7)).slots.length := by
    decide +kernel
  exact ⟨hc, parse_getsOn _ 7 3 hc⟩

end Parser

end Lox
