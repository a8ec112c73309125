import Lox.Proofs.Grammar.Sources
import Lox.Proofs.Notation.Trees
import Lox.Proofs.Numbers.Rounding
import Lox.Proofs.Numbers.Texts
import Lox.Proofs.Session.Layout

/-!
# What prefix notation tells about an expression

An expression in prefix notation is a tree of words (`Expr.wordTree`), and these can be read. What
is left is to read the expression off the tree. Its words are names and literals, and they are told
apart by how they begin, or because reserved words are not names; its heads are told apart by how
they are spelled and how many parts there are.

Two things are lost in prefix notation, and an expression that has none of them is *plain*: a
string is written without its quotes, and all infinite numbers are written alike. From everything
else the expression can be recovered, but for the places that its lexemes were found at
(`Expr.eq_of_sexpr_eq`).
-/

set_option autoImplicit false

namespace Lox

/-! ## From the text to the tree -/

/-- The expression as a tree of words. -/
def Expr.wordTree : Expr → WordTree
  | .literal v => .word v.literalText
  | .grouping e => .form groupHead [e.wordTree]
  | .name site => .word site.text
  | .assign site e => .form "=" [.word site.text, e.wordTree]
  | .unary op _ e => .form op.symbol.text [e.wordTree]
  | .binary op _ l r => .form op.symbol.text [l.wordTree, r.wordTree]
  | .ternary c _ s _ f => .form ternaryHead [c.wordTree, s.wordTree, f.wordTree]

theorem toList_parenthesized (head : String) (parts : List WordTree) (texts : List String)
    (h : texts.map String.toList = parts.map WordTree.chars) :
    (parenthesized head texts).toList = (WordTree.form head parts).chars := by
  have hparts : (texts.foldr (fun part rest => " " ++ part ++ rest) ")").toList =
      WordTree.partsChars parts := by
    induction texts generalizing parts with
    | nil =>
      cases List.map_eq_nil_iff.mp h.symm
      rfl
    | cons text texts ih =>
      obtain ⟨part, parts, rfl, hpart, hrest⟩ := List.map_eq_cons_iff.mp h.symm
      rw [List.foldr_cons, String.toList_append, String.toList_append, ih parts hrest.symm,
        WordTree.partsChars, hpart]
      rfl
  rw [parenthesized, String.toList_append, String.toList_append, hparts, WordTree.chars]
  rfl

theorem Expr.toList_sexpr (e : Expr) : e.sexpr.toList = e.wordTree.chars := by
  induction e with
  | literal v | name site => rfl
  | grouping e ih | assign site e ih | unary op site e ih =>
    exact toList_parenthesized _ _ _ (by simp [ih, WordTree.chars])
  | binary op site l r ihl ihr => exact toList_parenthesized _ _ _ (by simp [ihl, ihr])
  | ternary c question s colon f ihc ihs ihf =>
    exact toList_parenthesized _ _ _ (by simp [ihc, ihs, ihf])

/-! ## Leaves that can be read -/

/-- The literal is neither a string nor an infinite number. -/
def Value.IsPlain : Value → Prop
  | number n => ∀ negative, Binary64.ofFloat n ≠ .infinity negative
  | string _ => False
  | bool _ | nil => True

/-- The expression has plain literals only. -/
def Expr.IsPlain (e : Expr) : Prop := ∀ v, .literal v ∈ e.parts → v.IsPlain

/-- The leaf is spelled as the grammar says. -/
def Leaf.Spelled : Leaf → Prop
  | bare kind => ∃ cs, kind.Spells cs
  | sited kind site => kind.Spells site.text.toList

theorem LeavesFrom.spelled {source : String} {leaves : List Leaf} (h : LeavesFrom source leaves)
    {leaf : Leaf} (hleaf : leaf ∈ leaves) : leaf.Spelled := by
  obtain ⟨t, ht, rfl⟩ := List.mem_map.mp (h hleaf)
  obtain ⟨before, cs, behind, -, hlexeme, hmunches⟩ := Scan.exists_of_mem_tokens ht
  unfold Token.leaf
  split
  · rw [Leaf.Spelled, hlexeme, Lexeme.ofChars, String.toList_ofList]
    exact hmunches.spells
  · exact ⟨cs, hmunches.spells⟩

/-- The expression is plain, and its leaves are spelled as the grammar says. -/
structure Expr.Legible (e : Expr) : Prop where
  plain : e.IsPlain
  spelled : ∀ leaf ∈ e.yield, leaf.Spelled

section

variable {site question colon : Lexeme} {e l r c s f : Expr}

theorem Expr.Legible.of_subset {part : Expr} (h : e.Legible) (hparts : part.parts ⊆ e.parts)
    (hyield : part.yield ⊆ e.yield) : part.Legible where
  plain v hv := h.plain v (hparts hv)
  spelled leaf hleaf := h.spelled leaf (hyield hleaf)

theorem Expr.Legible.of_grouping (h : (grouping e).Legible) : e.Legible :=
  h.of_subset (by simp [parts]) (by simp [yield])

theorem Expr.Legible.of_assign (h : (assign site e).Legible) : e.Legible :=
  h.of_subset (by simp [parts]) (by simp [yield])

theorem Expr.Legible.of_unary {op : UnaryOp} (h : (unary op site e).Legible) : e.Legible :=
  h.of_subset (by simp [parts]) (by simp [yield])

theorem Expr.Legible.of_binary {op : BinaryOp} (h : (binary op site l r).Legible) :
    l.Legible ∧ r.Legible :=
  ⟨h.of_subset (by simp [parts]) (by simp [yield]),
    h.of_subset (by simp [parts]) (by simp [yield])⟩

theorem Expr.Legible.of_ternary (h : (ternary c question s colon f).Legible) :
    c.Legible ∧ s.Legible ∧ f.Legible :=
  ⟨h.of_subset (by simp [parts]) (by simp [yield]),
    h.of_subset (fun part hpart => by simp [parts, hpart]) fun leaf hleaf => by simp [yield, hleaf],
    h.of_subset (fun part hpart => by simp [parts, hpart]) fun leaf hleaf => by simp [yield, hleaf]⟩

end

/-! ## Words -/

theorem isWordChar_of_isNameChar {c : Char} (h : isNameChar c = true) : isWordChar c = true := by
  unfold isWordChar
  have hne (d : Char) (hd : isNameChar d = false) : (c != d) = true := by
    rw [bne_iff_ne]
    rintro rfl
    rw [h] at hd
    cases hd
  rw [hne ' ' rfl, hne '(' rfl, hne ')' rfl]
  rfl

theorem isWordChar_of_isDigit {c : Char} (h : c.isDigit = true) : isWordChar c = true :=
  isWordChar_of_isNameChar (isNameChar_of_isDigit h)

/-- What a name looks like. -/
theorem TokenKind.Spells.ident_inv {cs : List Char} (h : TokenKind.Spells .ident cs) :
    (∃ c tail, cs = c :: tail ∧ isNameStart c = true) ∧ (∀ c ∈ cs, isNameChar c = true) ∧
      Keyword.ofText? (String.ofList cs) = none := by
  cases h with
  | ident hc ht hk =>
    refine ⟨⟨_, _, rfl, hc⟩, fun d hd => ?_, hk⟩
    rcases List.mem_cons.mp hd with rfl | hd
    · exact isNameChar_of_isNameStart hc
    · exact ht d hd

theorem isWord_of_spells_ident {text : String} (h : TokenKind.Spells .ident text.toList) :
    IsWord text := by
  obtain ⟨⟨c, tail, heq, -⟩, hchars, -⟩ := h.ident_inv
  refine ⟨?_, fun d hd => isWordChar_of_isNameChar (hchars d hd)⟩
  rw [heq]
  exact List.cons_ne_nil _ _

/-- The value is a finite number, or neither a number nor a string. -/
def Value.IsWritable : Value → Prop
  | number n => ∃ negative significand power,
    Binary64.ofFloat n = .finite negative significand power
  | string _ => False
  | bool _ | nil => True

/-- What is written as digits is a number, so it is a finite one if it is not infinite. -/
theorem Value.isWritable_of_spelled {v : Value} (hplain : v.IsPlain)
    (hspelled : (Leaf.bare v.literalKind).Spelled) : v.IsWritable := by
  cases v with
  | number n =>
    obtain ⟨cs, hcs⟩ := hspelled
    have hnumber : Binary64.ofFloat n ≠ .nan := by
      cases hcs with
      | whole _ _ => exact Decimal.ofFloat_toFloat_ne_nan _
      | fraction _ _ _ _ => exact Decimal.ofFloat_toFloat_ne_nan _
    cases hn : Binary64.ofFloat n with
    | nan => exact absurd hn hnumber
    | infinity negative => exact absurd hn (hplain negative)
    | finite negative significand power => exact ⟨negative, significand, power, hn⟩
  | string s => exact hplain
  | bool b => trivial
  | nil => trivial

theorem Value.IsWritable.isWord {v : Value} (h : v.IsWritable) : IsWord v.literalText := by
  cases v with
  | number n =>
    obtain ⟨negative, significand, power, hn⟩ := h
    obtain ⟨c, cs, heq, -⟩ := NumberFormat.head_literal_text hn
    have hne : (number n).literalText.toList ≠ [] := by
      rw [literalText, heq]
      exact List.cons_ne_nil _ _
    refine ⟨hne, fun d hd => ?_⟩
    rcases NumberFormat.mem_literal_text hn hd with hdigit | hother
    · exact isWordChar_of_isDigit hdigit
    · simp only [List.mem_cons, List.not_mem_nil, or_false] at hother
      rcases hother with rfl | rfl | rfl <;> rfl
  | string s => exact h.elim
  | bool b => cases b <;> decide +kernel
  | nil => decide +kernel

/-- No name begins as the text of a number does. -/
theorem isNameStart_of_number {c : Char} (h : c.isDigit = true ∨ c = '-') :
    isNameStart c = false := by
  rcases h with hdigit | rfl
  · exact isNameStart_of_isDigit hdigit
  · rfl

/-- How the text of a literal begins if it is a number, and what it is if it is none. -/
theorem Value.IsWritable.literalText_cases {v : Value} (h : v.IsWritable) :
    (∃ n c cs, v = .number n ∧ v.literalText.toList = c :: cs ∧ (c.isDigit = true ∨ c = '-')) ∨
      ∃ k : Keyword, v.literalText = k.text ∧ v.literalKind = .keyword k := by
  cases v with
  | number n =>
    obtain ⟨negative, significand, power, hn⟩ := h
    obtain ⟨c, cs, heq, hc⟩ := NumberFormat.head_literal_text hn
    exact .inl ⟨n, c, cs, rfl, heq, hc⟩
  | string s => exact h.elim
  | bool b => cases b <;> exact .inr ⟨_, rfl, rfl⟩
  | nil => exact .inr ⟨_, rfl, rfl⟩

/-- No literal looks like a name. -/
theorem Value.IsWritable.literalText_ne {v : Value} (h : v.IsWritable) {text : String}
    (hname : TokenKind.Spells .ident text.toList) : v.literalText ≠ text := by
  rintro rfl
  obtain ⟨⟨c, tail, heq, hc⟩, -, hkeyword⟩ := hname.ident_inv
  rcases h.literalText_cases with ⟨n, c', cs, -, heq', hc'⟩ | ⟨k, htext, -⟩
  · cases heq.symm.trans heq'
    rw [isNameStart_of_number hc'] at hc
    cases hc
  · rw [String.ofList_toList, htext, Keyword.ofText?_text] at hkeyword
    cases hkeyword

theorem Value.eq_of_literalKind_eq {v v' : Value} (h : v.literalKind = v'.literalKind) :
    v = v' := by
  cases v with
  | number n | string s =>
    cases v' with
    | bool b => cases b <;> cases h
    | _ => cases h <;> rfl
  | bool b =>
    cases v' with
    | bool b' => cases b <;> cases b' <;> cases h <;> rfl
    | _ => cases b <;> cases h
  | nil =>
    cases v' with
    | bool b => cases b <;> cases h
    | nil => rfl
    | _ => cases h

theorem Keyword.text_injective {k k' : Keyword} (h : k.text = k'.text) : k = k' := by
  have hfound := ofText?_text k
  rw [h, ofText?_text] at hfound
  exact (Option.some.inj hfound).symm

/-- A reserved word begins as a name does. -/
theorem Keyword.isNameStart_text (k : Keyword) :
    k.text.toList.head?.all isNameStart = true := by
  cases k <;> decide +kernel

/-- No reserved word looks like a number. -/
theorem Keyword.text_ne_number (k : Keyword) {c : Char} {cs : List Char}
    (hc : c.isDigit = true ∨ c = '-') : k.text.toList ≠ c :: cs := by
  intro heq
  have hstart := k.isNameStart_text
  rw [heq, List.head?_cons, Option.all_some, isNameStart_of_number hc] at hstart
  cases hstart

theorem Value.IsWritable.eq_of_literalText_eq {v v' : Value} (h : v.IsWritable)
    (h' : v'.IsWritable) (heq : v.literalText = v'.literalText) : v = v' := by
  rcases h.literalText_cases with ⟨n, c, cs, rfl, hc, hfirst⟩ | ⟨k, hk, hkind⟩
  · rcases h'.literalText_cases with ⟨n', -, -, rfl, -, -⟩ | ⟨k', hk', -⟩
    · obtain ⟨negative, significand, power, hn⟩ := h
      obtain ⟨negative', significand', power', hn'⟩ := h'
      exact congrArg number (NumberFormat.literal_text_injective hn hn' heq)
    · rw [heq, hk'] at hc
      exact absurd hc (k'.text_ne_number hfirst)
  · rcases h'.literalText_cases with ⟨n', c, cs, -, hc, hfirst⟩ | ⟨k', hk', hkind'⟩
    · rw [← heq, hk] at hc
      exact absurd hc (k.text_ne_number hfirst)
    · obtain rfl := Keyword.text_injective (hk.symm.trans (heq.trans hk'))
      exact eq_of_literalKind_eq (hkind.trans hkind'.symm)

/-! ## From the tree to the expression -/

namespace Expr

variable {e e' : Expr}

theorem Legible.isWritable {v : Value} (h : (Expr.literal v).Legible) : v.IsWritable :=
  v.isWritable_of_spelled (h.plain v (List.mem_singleton_self _))
    (h.spelled _ (List.mem_singleton_self _))

theorem isWord_unary_symbol (op : UnaryOp) : IsWord op.symbol.text := by
  cases op <;> decide +kernel

theorem isWord_binary_symbol (op : BinaryOp) : IsWord op.symbol.text := by
  cases op <;> decide +kernel

theorem Legible.proper_wordTree (h : e.Legible) : e.wordTree.Proper := by
  induction e with
  | literal v => exact h.isWritable.isWord
  | grouping e ih => exact ⟨by decide +kernel, ih h.of_grouping, trivial⟩
  | name site => exact isWord_of_spells_ident (h.spelled _ (List.mem_singleton_self _))
  | assign site e ih =>
    exact ⟨by decide +kernel, isWord_of_spells_ident (h.spelled _ List.mem_cons_self),
      ih h.of_assign, trivial⟩
  | unary op site e ih => exact ⟨isWord_unary_symbol op, ih h.of_unary, trivial⟩
  | binary op site l r ihl ihr =>
    obtain ⟨hl, hr⟩ := h.of_binary
    exact ⟨isWord_binary_symbol op, ihl hl, ihr hr, trivial⟩
  | ternary c question s colon f ihc ihs ihf =>
    obtain ⟨hc, hs, hf⟩ := h.of_ternary
    exact ⟨by decide +kernel, ihc hc, ihs hs, ihf hf, trivial⟩

theorem group_ne_unary (op : UnaryOp) : groupHead ≠ op.symbol.text := by cases op <;> decide

theorem assign_ne_binary (op : BinaryOp) : "=" ≠ op.symbol.text := by cases op <;> decide

theorem eq_of_unary_symbol_eq {op op' : UnaryOp} (h : op.symbol.text = op'.symbol.text) :
    op = op' := by
  cases op <;> cases op' <;> first | rfl | exact absurd h (by decide)

theorem eq_of_binary_symbol_eq {op op' : BinaryOp} (h : op.symbol.text = op'.symbol.text) :
    op = op' := by
  cases op <;> cases op' <;> first | rfl | exact absurd h (by decide)

theorem text_of_spells_symbol {s : Symbol} {text : String}
    (h : TokenKind.Spells (.symbol s) text.toList) : text = s.text := by
  generalize hcs : text.toList = cs at h
  cases h
  exact String.toList_injective hcs

theorem unplaced_eq_of_spells_symbol {s : Symbol} {site site' : Lexeme}
    (h : TokenKind.Spells (.symbol s) site.text.toList)
    (h' : TokenKind.Spells (.symbol s) site'.text.toList) : site.unplaced = site'.unplaced := by
  rw [Lexeme.unplaced_eq_iff, text_of_spells_symbol h, text_of_spells_symbol h']

/-- An expression is known from its tree. -/
theorem Legible.eq_of_wordTree_eq (h : e.Legible) (h' : e'.Legible)
    (heq : e.wordTree = e'.wordTree) :
    e.mapSites Lexeme.unplaced = e'.mapSites Lexeme.unplaced := by
  induction e generalizing e' with
  | literal v =>
    cases e' with
    | literal v' =>
      rw [h.isWritable.eq_of_literalText_eq h'.isWritable (WordTree.word.inj heq)]
    | name site' =>
      have hname := h'.spelled _ (List.mem_singleton_self _)
      exact absurd (WordTree.word.inj heq) (h.isWritable.literalText_ne hname)
    | _ => cases congrArg WordTree.arity? heq
  | grouping e ih =>
    cases e' with
    | grouping e' =>
      obtain ⟨-, hparts⟩ := WordTree.form.inj heq
      obtain ⟨hinner, -⟩ := List.cons.inj hparts
      exact congrArg grouping (ih h.of_grouping h'.of_grouping hinner)
    | unary op' site' e' => exact absurd (WordTree.form.inj heq).1 (group_ne_unary op')
    | _ => cases congrArg WordTree.arity? heq
  | name site =>
    cases e' with
    | literal v' =>
      have hname := h.spelled _ (List.mem_singleton_self _)
      exact absurd (WordTree.word.inj heq).symm (h'.isWritable.literalText_ne hname)
    | name site' => exact congrArg name (Lexeme.unplaced_eq_iff.mpr (WordTree.word.inj heq))
    | _ => cases congrArg WordTree.arity? heq
  | assign site e ih =>
    cases e' with
    | assign site' e' =>
      obtain ⟨-, hparts⟩ := WordTree.form.inj heq
      obtain ⟨hname, hrest⟩ := List.cons.inj hparts
      obtain ⟨hvalue, -⟩ := List.cons.inj hrest
      exact congrArg₂ assign (Lexeme.unplaced_eq_iff.mpr (WordTree.word.inj hname))
        (ih h.of_assign h'.of_assign hvalue)
    | binary op' site' l' r' => exact absurd (WordTree.form.inj heq).1 (assign_ne_binary op')
    | _ => cases congrArg WordTree.arity? heq
  | unary op site e ih =>
    cases e' with
    | grouping e' => exact absurd (WordTree.form.inj heq).1.symm (group_ne_unary op)
    | unary op' site' e' =>
      obtain ⟨hop, hparts⟩ := WordTree.form.inj heq
      obtain ⟨hoperand, -⟩ := List.cons.inj hparts
      obtain rfl := eq_of_unary_symbol_eq hop
      exact congrArg₂ (unary op)
        (unplaced_eq_of_spells_symbol (h.spelled _ List.mem_cons_self)
          (h'.spelled _ List.mem_cons_self))
        (ih h.of_unary h'.of_unary hoperand)
    | _ => cases congrArg WordTree.arity? heq
  | binary op site l r ihl ihr =>
    cases e' with
    | assign site' e' => exact absurd (WordTree.form.inj heq).1.symm (assign_ne_binary op)
    | binary op' site' l' r' =>
      obtain ⟨hop, hparts⟩ := WordTree.form.inj heq
      obtain ⟨hlhs, hrest⟩ := List.cons.inj hparts
      obtain ⟨hrhs, -⟩ := List.cons.inj hrest
      obtain rfl := eq_of_binary_symbol_eq hop
      have hsite := unplaced_eq_of_spells_symbol
        (h.spelled (.sited (.symbol op.symbol) site) (by simp [yield]))
        (h'.spelled (.sited (.symbol op.symbol) site') (by simp [yield]))
      rw [mapSites, mapSites, hsite, ihl h.of_binary.1 h'.of_binary.1 hlhs,
        ihr h.of_binary.2 h'.of_binary.2 hrhs]
    | _ => cases congrArg WordTree.arity? heq
  | ternary c question s colon f ihc ihs ihf =>
    cases e' with
    | ternary c' question' s' colon' f' =>
      obtain ⟨-, hparts⟩ := WordTree.form.inj heq
      obtain ⟨hcondition, hrest⟩ := List.cons.inj hparts
      obtain ⟨hsuccess, hlast⟩ := List.cons.inj hrest
      obtain ⟨hfailure, -⟩ := List.cons.inj hlast
      obtain ⟨hc, hs, hf⟩ := h.of_ternary
      obtain ⟨hc', hs', hf'⟩ := h'.of_ternary
      have hquestion := unplaced_eq_of_spells_symbol
        (h.spelled (.sited (.symbol .question) question) (by simp [yield]))
        (h'.spelled (.sited (.symbol .question) question') (by simp [yield]))
      have hcolon := unplaced_eq_of_spells_symbol
        (h.spelled (.sited (.symbol .colon) colon) (by simp [yield]))
        (h'.spelled (.sited (.symbol .colon) colon') (by simp [yield]))
      rw [mapSites, mapSites, hquestion, hcolon, ihc hc hc' hcondition, ihs hs hs' hsuccess,
        ihf hf hf' hfailure]
    | _ => cases congrArg WordTree.arity? heq

end Expr

/-! ## From the text to the expression -/

/-- The expression is what the parser makes of some tokens of the source text, or it stands in a
program that is. -/
def Expr.FoundIn (source : String) (e : Expr) : Prop :=
  e.ReadFrom source ∨ ∃ p : Program, p.ReadFrom source ∧ e ∈ stmtsExpressions p

theorem Expr.FoundIn.leavesFrom {source : String} {e : Expr} (h : e.FoundIn source) :
    LeavesFrom source e.yield := by
  rcases h with hread | ⟨p, hread, hmem⟩
  · exact hread.leavesFrom
  · exact hread.leavesFrom.mono (stmtsYield_subset_of_mem_expressions p hmem)

/-- **The text of an expression determines the expression.** If two plain expressions that have
been found in source texts are written alike in prefix notation, then they are the same, but for
the places of their lexemes. -/
theorem Expr.eq_of_sexpr_eq {source source' : String} {e e' : Expr} (h : e.FoundIn source)
    (h' : e'.FoundIn source') (hplain : e.IsPlain) (hplain' : e'.IsPlain)
    (heq : e.sexpr = e'.sexpr) : e.mapSites Lexeme.unplaced = e'.mapSites Lexeme.unplaced := by
  have hlegible : e.Legible := ⟨hplain, fun _ => h.leavesFrom.spelled⟩
  have hlegible' : e'.Legible := ⟨hplain', fun _ => h'.leavesFrom.spelled⟩
  have hchars : e.wordTree.chars = e'.wordTree.chars := by
    rw [← toList_sexpr, ← toList_sexpr, heq]
  exact hlegible.eq_of_wordTree_eq hlegible'
    (WordTree.chars_injective hlegible.proper_wordTree hlegible'.proper_wordTree hchars)

/-- One is written in two ways in the source texts, and in one way in prefix notation. -/
theorem Expr.eq_of_sexpr_eq_negatedOne :
    let one : Expr := .unary .negate ⟨"-", 0, 1⟩ (.literal (.number 1.0))
    let one' : Expr := .unary .negate ⟨"-", 2, 2⟩ (.literal (.number 1.0))
    one.FoundIn "-1" ∧ one'.FoundIn "\n -1.00" ∧ one.sexpr = one'.sexpr ∧
      one.mapSites Lexeme.unplaced = one'.mapSites Lexeme.unplaced := by
  intro one one'
  have hone : one.FoundIn "-1" := .inl ⟨⟨"", 2, 1⟩, _, List.Subset.refl _, by decide +kernel⟩
  have hone' : one'.FoundIn "\n -1.00" :=
    .inl ⟨⟨"", 7, 2⟩, _, List.Subset.refl _, by decide +kernel⟩
  have hnumber : (Value.number 1.0).IsPlain := by
    unfold Value.IsPlain
    decide +kernel
  have hplain (site : Lexeme) : (Expr.unary .negate site (.literal (.number 1.0))).IsPlain := by
    intro v hv
    simp only [parts, List.mem_cons, List.not_mem_nil, or_false, reduceCtorEq, false_or,
      literal.injEq] at hv
    exact hv ▸ hnumber
  have htext : one.sexpr = one'.sexpr := rfl
  exact ⟨hone, hone', htext, eq_of_sexpr_eq hone hone' (hplain _) (hplain _) htext⟩

end Lox
