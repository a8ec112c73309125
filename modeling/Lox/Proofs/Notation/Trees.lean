import Lox.Expr.SExpr
import Lox.Proofs.Scanning.Cut

/-!
# Trees of words

Prefix notation without a language: a tree is a word, or a head and some parts in parentheses.
A word has neither blanks nor parentheses in it, so it ends where the first of these stands, and
every tree of words can be read off the beginning of a text, whatever follows
(`WordTree.chars_append_inj`).
-/

set_option autoImplicit false

namespace Lox

/-- The characters that words are made of. -/
def isWordChar (c : Char) : Bool := c != ' ' && c != '(' && c != ')'

/-- The text is a word. -/
structure IsWord (text : String) : Prop where
  ne_nil : text.toList ≠ []
  chars : ∀ c ∈ text.toList, isWordChar c = true

theorem isWord_iff {text : String} :
    IsWord text ↔ (!text.toList.isEmpty && text.toList.all isWordChar) = true := by
  rw [Bool.and_eq_true, List.all_eq_true, Bool.not_eq_true', List.isEmpty_eq_false_iff]
  exact ⟨fun h => ⟨h.ne_nil, h.chars⟩, fun h => ⟨h.1, h.2⟩⟩

instance (text : String) : Decidable (IsWord text) := decidable_of_iff' _ isWord_iff

/-- No word begins with a parenthesis. -/
theorem IsWord.append_ne {text : String} (h : IsWord text) (rest rest' : List Char) :
    text.toList ++ rest ≠ '(' :: rest' := by
  intro heq
  obtain ⟨c, cs, hcs⟩ := List.exists_cons_of_ne_nil h.ne_nil
  rw [hcs, List.cons_append] at heq
  have hparen := h.chars c (hcs ▸ List.mem_cons_self)
  rw [(List.cons.inj heq).1] at hparen
  cases hparen

/-- A tree in prefix notation. -/
inductive WordTree where
  | word (text : String)
  | form (head : String) (parts : List WordTree)

namespace WordTree

mutual

/-- How a tree is written. -/
def chars : WordTree → List Char
  | word text => text.toList
  | form head parts => '(' :: (head.toList ++ partsChars parts)

/-- How the parts of a tree are written, with the parenthesis behind them. -/
def partsChars : List WordTree → List Char
  | [] => [')']
  | part :: rest => ' ' :: (part.chars ++ partsChars rest)

end

/-- How many parts a tree has, if it is no word. -/
def arity? : WordTree → Option Nat
  | word _ => none
  | form _ parts => some parts.length

mutual

/-- All words of a tree are words. -/
def Proper : WordTree → Prop
  | word text => IsWord text
  | form head parts => IsWord head ∧ PartsProper parts

def PartsProper : List WordTree → Prop
  | [] => True
  | part :: rest => part.Proper ∧ PartsProper rest

end

/-- A word ends before the text. -/
def EndsWord (rest : List Char) : Prop := ∀ c ∈ rest.head?, isWordChar c = false

theorem endsWord_partsChars (parts : List WordTree) (rest : List Char) :
    EndsWord (partsChars parts ++ rest) := by
  intro c hc
  cases parts <;> cases hc <;> rfl

/-- What does not belong to the one word does not belong to the other. -/
theorem word_append_inj {text text' : String} {rest rest' : List Char} (h : IsWord text)
    (h' : IsWord text') (hrest : EndsWord rest) (hrest' : EndsWord rest')
    (heq : text.toList ++ rest = text'.toList ++ rest') : text = text' ∧ rest = rest' := by
  have hrow : text.toList = text'.toList := by
    rw [← takeWhile_row h.chars hrest, heq, takeWhile_row h'.chars hrest']
  obtain rfl := String.toList_injective hrow
  exact ⟨rfl, List.append_cancel_left heq⟩

mutual

/-- **A tree can be read off the beginning of a text.** -/
theorem chars_append_inj {rest rest' : List Char} :
    (t t' : WordTree) → t.Proper → t'.Proper → EndsWord rest → EndsWord rest' →
      t.chars ++ rest = t'.chars ++ rest' → t = t' ∧ rest = rest'
  | word text, word text', h, h', hrest, hrest', heq => by
    obtain ⟨rfl, hrests⟩ := word_append_inj h h' hrest hrest' heq
    exact ⟨rfl, hrests⟩
  | word text, form head' parts', h, _, _, _, heq => absurd heq (h.append_ne _ _)
  | form head parts, word text', _, h', _, _, heq => absurd heq.symm (h'.append_ne _ _)
  | form head parts, form head' parts', h, h', _, _, heq => by
    rw [chars, chars, List.cons_append, List.cons_append, List.append_assoc, List.append_assoc]
      at heq
    obtain ⟨rfl, hparts⟩ := word_append_inj h.1 h'.1 (endsWord_partsChars parts rest)
      (endsWord_partsChars parts' rest') (List.cons.inj heq).2
    obtain ⟨rfl, hrests⟩ := partsChars_append_inj parts parts' h.2 h'.2 hparts
    exact ⟨rfl, hrests⟩

/-- The parenthesis says where the parts end. -/
theorem partsChars_append_inj {rest rest' : List Char} :
    (parts parts' : List WordTree) → PartsProper parts → PartsProper parts' →
      partsChars parts ++ rest = partsChars parts' ++ rest' → parts = parts' ∧ rest = rest'
  | [], [], _, _, heq => ⟨rfl, (List.cons.inj heq).2⟩
  | [], _ :: _, _, _, heq => by cases heq
  | _ :: _, [], _, _, heq => by cases heq
  | part :: parts, part' :: parts', h, h', heq => by
    rw [partsChars, partsChars, List.cons_append, List.cons_append, List.append_assoc,
      List.append_assoc] at heq
    obtain ⟨rfl, hparts⟩ := chars_append_inj part part' h.1 h'.1
      (endsWord_partsChars parts rest) (endsWord_partsChars parts' rest') (List.cons.inj heq).2
    obtain ⟨rfl, hrests⟩ := partsChars_append_inj parts parts' h.2 h'.2 hparts
    exact ⟨rfl, hrests⟩

end

theorem chars_injective {t t' : WordTree} (h : t.Proper) (h' : t'.Proper)
    (heq : t.chars = t'.chars) : t = t' := by
  have hnil : EndsWord [] := fun c hc => by cases hc
  have hwhole : t.chars ++ [] = t'.chars ++ [] := by rw [heq]
  exact (chars_append_inj t t' h h' hnil hnil hwhole).1

end WordTree

end Lox
