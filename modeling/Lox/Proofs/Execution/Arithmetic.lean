import Mathlib.Data.List.Forall2
import Lox.Proofs.Scanning.Rendering
import Lox.Proofs.Session.History

/-!
# Arithmetic

What `1 - 2 * 3 / 4 - 5` should be is known without any grammar: the products are computed first,
each run of them from the left, and then what has come of them is added up, again from the left.
Here that is written down (`Chain.value`), and a session's answer to the text of such a chain is
shown to be nothing else.

A chain is arranged, and its operands never change places. The same arrangement, made with trees
in place of numbers, gives the tree of the chain; made with tokens, it gives the tokens in the
order in which they were written. So that the parser reads this tree from these tokens, and that
the tree has this value, are two cases of one fact about arrangements (`arrange_rel`).
-/

set_option autoImplicit false

namespace Lox

/-! ## Operators and what they link -/

inductive ArithOp where
  | add | subtract | multiply | divide
deriving DecidableEq

namespace ArithOp

def binary : ArithOp → BinaryOp
  | add => .add
  | subtract => .subtract
  | multiply => .multiply
  | divide => .divide

def isProduct : ArithOp → Bool
  | multiply | divide => true
  | add | subtract => false

/-- The operation on numbers. If it fails, it is the token `n` that is to blame. -/
def apply (n : Nat) : ArithOp → Float → Float → Except Nat Float
  | add, a, b => .ok (a + b)
  | subtract, a, b => .ok (a - b)
  | multiply, a, b => .ok (a * b)
  | divide, a, b => if b == 0 then .error n else .ok (a / b)

/-- It is the operation on values, so far as they are numbers. -/
theorem binary_apply (op : ArithOp) (n : Nat) (a b : Float) :
    op.binary.apply (.number a) (.number b) =
      match op.apply n a b with
      | .ok v => .ok (.number v)
      | .error _ => .error .divisionByZero := by
  cases op with
  | add | subtract | multiply => rfl
  | divide =>
    simp only [binary, BinaryOp.apply, Value.divide, Value.arithmetic, apply]
    split <;> rfl

/-- Only a quotient can fail. -/
theorem eq_divide_of_apply {op : ArithOp} {n k : Nat} {a b : Float}
    (h : op.apply n a b = .error k) : op = .divide ∧ k = n := by
  cases op with
  | add | subtract | multiply => cases h
  | divide =>
    rw [apply] at h
    split at h
    · cases h
      exact ⟨rfl, rfl⟩
    · cases h

/-- The operation on what may have failed before: on the left first, then on the right. -/
def combine (op : ArithOp) (n : Nat) (l r : Except Nat Float) : Except Nat Float := do
  let a ← l
  let b ← r
  op.apply n a b

end ArithOp

/-- An operator with its right operand. -/
structure Link (α : Type) where
  op : ArithOp
  /-- Which token the operator is. -/
  index : Nat
  operand : α

section

variable {α β : Type}

/-- Cuts a row of links before every sum. The first part has no sum in it; every other one has a
sum at its beginning, and only there. -/
def runs : List (Link α) → List (Link α) × List (Link α × List (Link α))
  | [] => ([], [])
  | l :: links =>
    let (run, terms) := runs links
    if l.op.isProduct then (l :: run, terms) else ([], (l, run) :: terms)

/-- Combines from the left. -/
def foldLinks (f : ArithOp → Nat → α → α → α) (first : α) (links : List (Link α)) : α :=
  links.foldl (fun acc l => f l.op l.index acc l.operand) first

@[simp] theorem foldLinks_cons (f : ArithOp → Nat → α → α → α) (first : α) (l : Link α)
    (links : List (Link α)) :
    foldLinks f first (l :: links) = foldLinks f (f l.op l.index first l.operand) links := rfl

/-- Combines each run of products from the left, and then the results of this from the left. -/
def arrange (f : ArithOp → Nat → α → α → α) (first : α) (links : List (Link α)) : α :=
  let (run, terms) := runs links
  foldLinks f (foldLinks f first run)
    (terms.map fun (l, run) => { l with operand := foldLinks f l.operand run })

end

/-! ## Chains -/

mutual

inductive Atom where
  | number (whole : Digits) (fraction : Option Digits)
  | negate (a : Atom)
  | group (c : Chain)

/-- Operands with operators between them. -/
inductive Chain where
  | mk (first : Atom) (rest : Links)

inductive Links where
  | nil
  | cons (op : ArithOp) (operand : Atom) (rest : Links)

end

mutual

/-- What an atom is written as. -/
def Atom.texts : Atom → List TokenText
  | .number whole fraction => [.number whole fraction]
  | .negate a => .symbol .minus :: a.texts
  | .group c => .symbol .leftParen :: (c.texts ++ [.symbol .rightParen])

def Chain.texts : Chain → List TokenText
  | .mk first rest => first.texts ++ rest.texts

def Links.texts : Links → List TokenText
  | .nil => []
  | .cons op a rest => .symbol op.binary.symbol :: (a.texts ++ rest.texts)

end

mutual

/-- How many minus signs and parentheses there are around a number of the atom, at most. -/
def Atom.depth : Atom → Nat
  | .number _ _ => 0
  | .negate a => a.depth + 1
  | .group c => c.depth + 1

def Chain.depth : Chain → Nat
  | .mk first rest => max first.depth rest.depth

def Links.depth : Links → Nat
  | .nil => 0
  | .cons _ a rest => max a.depth rest.depth

end

/-- The number that a literal is written for. -/
def literalValue (whole : Digits) : Option Digits → Float
  | none => (Decimal.ofDigits whole.chars []).toFloat
  | some fraction => (Decimal.ofDigits whole.chars fraction.chars).toFloat

mutual

/-- The value of an atom whose first token is the `n`-th, or which token has no value because its
right operand is zero. -/
def Atom.value (n : Nat) : Atom → Except Nat Float
  | .number whole fraction => .ok (literalValue whole fraction)
  | .negate a => do return -(← a.value (n + 1))
  | .group c => c.value (n + 1)

def Chain.value (n : Nat) : Chain → Except Nat Float
  | .mk first rest => arrange ArithOp.combine (first.value n) (rest.values (n + first.texts.length))

def Links.values (n : Nat) : Links → List (Link (Except Nat Float))
  | .nil => []
  | .cons op a rest => ⟨op, n, a.value (n + 1)⟩ :: rest.values (n + 1 + a.texts.length)

end

/-! ## Arrangements -/

section

variable {α β : Type}

/-- Nothing is lost by cutting. -/
theorem runs_flatten (links : List (Link α)) :
    (runs links).1 ++ (runs links).2.flatMap (fun (l, run) => l :: run) = links := by
  induction links with
  | nil => rfl
  | cons l links ih =>
    unfold runs
    split
    next run terms h =>
      rw [h] at ih
      split
      · exact congrArg (l :: ·) ih
      · simpa using ih

/-- Two links with the same operator, and with operands that are related. -/
structure Link.Rel (Q : ArithOp → Nat → Prop) (R : α → β → Prop) (l : Link α) (l' : Link β) :
    Prop where
  op : l'.op = l.op
  index : l'.index = l.index
  written : Q l.op l.index
  operand : R l.operand l'.operand

/-- What holds of the products among the operators. -/
def OfProducts (Q : ArithOp → Nat → Prop) (op : ArithOp) (n : Nat) : Prop :=
  op.isProduct = true ∧ Q op n

/-- What holds of the sums among the operators. -/
def OfSums (Q : ArithOp → Nat → Prop) (op : ArithOp) (n : Nat) : Prop :=
  op.isProduct = false ∧ Q op n

variable {Q : ArithOp → Nat → Prop} {f : ArithOp → Nat → α → α → α} {g : ArithOp → Nat → β → β → β}

theorem runs_rel {R : α → β → Prop} {links : List (Link α)} {links' : List (Link β)}
    (h : List.Forall₂ (Link.Rel Q R) links links') :
    List.Forall₂ (Link.Rel (OfProducts Q) R) (runs links).1 (runs links').1 ∧
      List.Forall₂ (fun term term' => Link.Rel (OfSums Q) R term.1 term'.1 ∧
        List.Forall₂ (Link.Rel (OfProducts Q) R) term.2 term'.2)
        (runs links).2 (runs links').2 := by
  induction h with
  | nil => exact ⟨.nil, .nil⟩
  | @cons l l' links links' hl _ ih =>
    obtain ⟨hrun, hterms⟩ := ih
    obtain ⟨hop, hindex, hwritten, hoperand⟩ := hl
    cases hproduct : l.op.isProduct with
    | true =>
      simp only [runs, hop, hproduct, if_true]
      exact ⟨.cons ⟨hop, hindex, ⟨hproduct, hwritten⟩, hoperand⟩ hrun, hterms⟩
    | false =>
      simp only [runs, hop, hproduct, Bool.false_eq_true, if_false]
      exact ⟨.nil, .cons ⟨⟨hop, hindex, ⟨hproduct, hwritten⟩, hoperand⟩, hrun⟩ hterms⟩

theorem foldLinks_rel {R R' : α → β → Prop}
    (hstep : ∀ op n a b a' b', Q op n → R a b → R' a' b' → R (f op n a a') (g op n b b'))
    {a : α} {b : β} (hfirst : R a b) {links : List (Link α)} {links' : List (Link β)}
    (h : List.Forall₂ (Link.Rel Q R') links links') :
    R (foldLinks f a links) (foldLinks g b links') := by
  induction h generalizing a b with
  | nil => exact hfirst
  | @cons l l' _ _ hl _ ih =>
    rw [foldLinks_cons, foldLinks_cons, hl.op, hl.index]
    exact ih (hstep _ _ _ _ _ _ hl.written hfirst hl.operand)

/-- **Related operands have related arrangements.** What is shown is one relation for operands, one
for products and one for sums, because operands of a sum are products. -/
theorem arrange_rel {R S T : α → β → Prop} (hRS : ∀ a b, R a b → S a b)
    (hST : ∀ a b, S a b → T a b)
    (hproduct : ∀ op n a b a' b', OfProducts Q op n → S a b → R a' b' →
      S (f op n a a') (g op n b b'))
    (hsum : ∀ op n a b a' b', OfSums Q op n → T a b → S a' b' →
      T (f op n a a') (g op n b b'))
    {a : α} {b : β} (hfirst : R a b) {links : List (Link α)} {links' : List (Link β)}
    (h : List.Forall₂ (Link.Rel Q R) links links') :
    T (arrange f a links) (arrange g b links') := by
  obtain ⟨hrun, hterms⟩ := runs_rel h
  have hleft := hST _ _ (foldLinks_rel hproduct (hRS a b hfirst) hrun)
  refine foldLinks_rel hsum hleft ?_
  rw [List.forall₂_map_left_iff, List.forall₂_map_right_iff]
  refine hterms.imp fun term term' ⟨hl, hproducts⟩ => ⟨hl.op, hl.index, hl.written, ?_⟩
  exact foldLinks_rel hproduct (hRS _ _ hl.operand) hproducts

/-! Tokens arranged are tokens in a row. -/

theorem foldLinks_append (tokenAt : Nat → α) (first : List α) (links : List (Link (List α))) :
    foldLinks (fun _ n l r => l ++ tokenAt n :: r) first links =
      first ++ links.flatMap fun l => tokenAt l.index :: l.operand := by
  induction links generalizing first with
  | nil => simp [foldLinks]
  | cons l links ih =>
    rw [foldLinks_cons, ih, List.flatMap_cons, List.append_assoc]

theorem arrange_append (tokenAt : Nat → α) (first : List α) (links : List (Link (List α))) :
    arrange (fun _ n l r => l ++ tokenAt n :: r) first links =
      first ++ links.flatMap fun l => tokenAt l.index :: l.operand := by
  have hterm (term : Link (List α) × List (Link (List α))) :
      tokenAt term.1.index ::
          foldLinks (fun _ n l r => l ++ tokenAt n :: r) term.1.operand term.2 =
        (term.1 :: term.2).flatMap fun l => tokenAt l.index :: l.operand := by
    rw [foldLinks_append, List.flatMap_cons, List.cons_append]
  calc
    _ = (first ++ (runs links).1.flatMap fun l => tokenAt l.index :: l.operand) ++
          (runs links).2.flatMap fun term =>
            (term.1 :: term.2).flatMap fun l => tokenAt l.index :: l.operand := by
      simp only [arrange, foldLinks_append, List.flatMap_map, ← hterm]
    _ = first ++ ((runs links).1 ++ (runs links).2.flatMap fun term =>
            term.1 :: term.2).flatMap fun l => tokenAt l.index :: l.operand := by
      rw [List.flatMap_append, List.flatMap_assoc, List.append_assoc]
    _ = _ := by rw [runs_flatten]

end

/-! ## Tokens in a row -/

section

variable {tokenAt : Nat → Token} {n : Nat} {text : TokenText} {texts texts' : List TokenText}

/-- The tokens at `n` and behind it are of the kinds that these texts have. -/
def Stands (tokenAt : Nat → Token) (n : Nat) (texts : List TokenText) : Prop :=
  ∀ p ∈ texts.zipIdx n, (tokenAt p.2).kind = p.1.kind

/-- As many tokens as there are texts, from `n` on. -/
def stretch (tokenAt : Nat → Token) (n : Nat) (texts : List TokenText) : List Token :=
  (texts.zipIdx n).map fun p => tokenAt p.2

theorem stands_cons_iff : Stands tokenAt n (text :: texts) ↔
    (tokenAt n).kind = text.kind ∧ Stands tokenAt (n + 1) texts := by
  simp [Stands]

theorem stands_append_iff : Stands tokenAt n (texts ++ texts') ↔
    Stands tokenAt n texts ∧ Stands tokenAt (n + texts.length) texts' := by
  rw [Stands, List.zipIdx_append, List.forall_mem_append]
  rfl

@[simp] theorem stretch_cons : stretch tokenAt n (text :: texts) =
    tokenAt n :: stretch tokenAt (n + 1) texts := by
  simp [stretch]

@[simp] theorem stretch_append : stretch tokenAt n (texts ++ texts') =
    stretch tokenAt n texts ++ stretch tokenAt (n + texts.length) texts' := by
  simp [stretch, List.zipIdx_append]

end

/-! ## Trees -/

section

variable (tokenAt : Nat → Token)

/-- The node of an operator that is the `n`-th token. -/
def ArithOp.node (op : ArithOp) (n : Nat) (l r : Expr) : Expr :=
  .binary op.binary (tokenAt n).lexeme l r

mutual

/-- The tree of an atom whose first token is the `n`-th. -/
def Atom.tree (n : Nat) : Atom → Expr
  | .number whole fraction => .literal (.number (literalValue whole fraction))
  | .negate a => .unary .negate (tokenAt n).lexeme (a.tree (n + 1))
  | .group c => .grouping (c.tree (n + 1))

def Chain.tree (n : Nat) : Chain → Expr
  | .mk first rest =>
    arrange (ArithOp.node tokenAt) (first.tree n) (rest.trees (n + first.texts.length))

def Links.trees (n : Nat) : Links → List (Link Expr)
  | .nil => []
  | .cons op a rest => ⟨op, n, a.tree (n + 1)⟩ :: rest.trees (n + 1 + a.texts.length)

end

/-- The `n`-th token is this operator. -/
def ArithOp.IsAt (op : ArithOp) (n : Nat) : Prop := (tokenAt n).kind = .symbol op.binary.symbol

end

section

variable {tokenAt : Nat → Token} {n : Nat} {room : Nat}

/-! ### What a tree is read from -/

theorem Atom.number_kind (whole : Digits) (fraction : Option Digits) :
    (TokenText.number whole fraction).kind = .number (literalValue whole fraction) := by
  cases fraction <;> rfl

theorem ArithOp.precedence_of_isProduct {op : ArithOp} (h : op.isProduct = true) :
    op.binary.precedence = .factor := by
  cases op <;> first | rfl | cases h

theorem ArithOp.precedence_of_not_isProduct {op : ArithOp} (h : op.isProduct = false) :
    op.binary.precedence = .term := by
  cases op <;> first | rfl | cases h

/-- The tokens of the operands, arranged like the trees, are what the tree is read from. -/
theorem arrange_reading {first : Expr} {used : List Token}
    (hfirst : Reading .unary room first used) {trees : List (Link Expr)}
    {cuts : List (Link (List Token))}
    (h : List.Forall₂ (Link.Rel (ArithOp.IsAt tokenAt) (Reading .unary room)) trees cuts) :
    Reading .term room (arrange (ArithOp.node tokenAt) first trees)
      (used ++ cuts.flatMap fun l => tokenAt l.index :: l.operand) := by
  rw [← arrange_append]
  refine arrange_rel (S := Reading .factor room) (fun _ _ hread => hread.loosen (by decide))
    (fun _ _ hread => hread.loosen (by decide)) ?_ ?_ hfirst h
  · intro op n l ul r ur ⟨hproduct, hop⟩ hl hr
    exact hl.binary hop (op.precedence_of_isProduct hproduct) hr rfl
  · intro op n l ul r ur ⟨hsum, hop⟩ hl hr
    exact hl.binary hop (op.precedence_of_not_isProduct hsum) hr rfl

mutual

theorem Atom.tree_reading (n room : Nat) (a : Atom) (h : Stands tokenAt n a.texts)
    (hd : a.depth ≤ room) :
    Reading .unary (room + 1) (a.tree tokenAt n) (stretch tokenAt n a.texts) := by
  cases a with
  | number whole fraction =>
    rw [Atom.texts, stands_cons_iff, Atom.number_kind] at h
    have hliteral : (tokenAt n).kind = (Value.number (literalValue whole fraction)).literalKind :=
      h.1
    exact (Reading.literal hliteral).loosen (by decide)
  | negate a =>
    rw [Atom.texts, stands_cons_iff] at h
    cases room with
    | zero => cases hd
    | succ room =>
      have hread := a.tree_reading (n + 1) room h.2 (Nat.le_of_succ_le_succ hd)
      rw [Atom.texts, stretch_cons, Atom.tree]
      have hminus : (tokenAt n).kind = .symbol UnaryOp.negate.symbol := h.1
      exact hread.unary hminus
  | group c =>
    rw [Atom.texts, stands_cons_iff, stands_append_iff, stands_cons_iff] at h
    cases room with
    | zero => cases hd
    | succ room =>
      have hread := c.tree_reading (n + 1) room h.2.1 (Nat.le_of_succ_le_succ hd)
      rw [Atom.texts, stretch_cons, stretch_append, Atom.tree]
      exact ((hread.loosen (by decide)).grouping h.1 h.2.2.1).loosen (by decide)

theorem Chain.tree_reading (n room : Nat) (c : Chain) (h : Stands tokenAt n c.texts)
    (hd : c.depth ≤ room) :
    Reading .term (room + 1) (c.tree tokenAt n) (stretch tokenAt n c.texts) := by
  cases c with
  | mk first rest =>
    rw [Chain.texts, stands_append_iff] at h
    obtain ⟨hfirst, hrest⟩ := Nat.max_le.mp hd
    obtain ⟨cuts, hcuts, hflat⟩ := rest.trees_reading _ room h.2 hrest
    rw [Chain.texts, stretch_append, ← hflat, Chain.tree]
    exact arrange_reading (first.tree_reading n room h.1 hfirst) hcuts

theorem Links.trees_reading (n room : Nat) (links : Links) (h : Stands tokenAt n links.texts)
    (hd : links.depth ≤ room) :
    ∃ cuts, List.Forall₂ (Link.Rel (ArithOp.IsAt tokenAt) (Reading .unary (room + 1)))
        (links.trees tokenAt n) cuts ∧
      cuts.flatMap (fun l => tokenAt l.index :: l.operand) = stretch tokenAt n links.texts := by
  cases links with
  | nil =>
    rw [Links.trees]
    exact ⟨[], .nil, rfl⟩
  | cons op a rest =>
    rw [Links.texts, stands_cons_iff, stands_append_iff] at h
    obtain ⟨ha, hrest⟩ := Nat.max_le.mp hd
    obtain ⟨cuts, hcuts, hflat⟩ := rest.trees_reading _ room h.2.2 hrest
    have hread := a.tree_reading (n + 1) room h.2.1 ha
    refine ⟨⟨op, n, stretch tokenAt (n + 1) a.texts⟩ :: cuts, ?_, ?_⟩
    · rw [Links.trees]
      exact .cons ⟨rfl, rfl, h.1, hread⟩ hcuts
    · rw [Links.texts, stretch_cons, stretch_append, ← hflat]
      rfl

end

/-! ### What a tree computes -/

/-- The expression has the value `v` in all bindings and changes none of them, or it fails at a
slash. -/
def Computes (tokenAt : Nat → Token) (e : Expr) : Except Nat Float → Prop
  | .ok v => ∀ b, e.eval b = .ok (.number v) b
  | .error n => (∀ b, e.eval b = .error ⟨.divisionByZero, (tokenAt n).lexeme⟩ b) ∧
      (tokenAt n).kind = .symbol .slash

theorem Computes.negate {e : Expr} {v : Except Nat Float} (h : Computes tokenAt e v) :
    Computes tokenAt (.unary .negate (tokenAt n).lexeme e) (do return -(← v)) := by
  cases v with
  | ok a =>
    intro b
    unfold Expr.eval
    exact bind_of_ok (h b)
  | error k =>
    refine ⟨fun b => ?_, h.2⟩
    unfold Expr.eval
    exact bind_of_error (h.1 b)

theorem Computes.grouping {e : Expr} {v : Except Nat Float} (h : Computes tokenAt e v) :
    Computes tokenAt (.grouping e) v := by
  cases v with
  | ok a => exact h
  | error k => exact h

/-- The left operand fails before the right one, and each of them before the operator. -/
theorem Computes.node {op : ArithOp} {l r : Expr} {v w : Except Nat Float}
    (hl : Computes tokenAt l v) (hr : Computes tokenAt r w) (hop : op.IsAt tokenAt n) :
    Computes tokenAt (op.node tokenAt n l r) (op.combine n v w) := by
  have heval : (op.node tokenAt n l r).eval =
      l.eval >>= fun a => r.eval >>= fun a' =>
        ofExcept (blame (tokenAt n).lexeme (op.binary.apply a a')) := rfl
  cases v with
  | error k =>
    refine ⟨fun b => ?_, hl.2⟩
    rw [heval]
    exact bind_of_error (hl.1 b)
  | ok a =>
    cases w with
    | error k =>
      refine ⟨fun b => ?_, hr.2⟩
      rw [heval, bind_of_ok (hl b)]
      exact bind_of_error (hr.1 b)
    | ok a' =>
      have hoperands (b : Bindings) : (op.node tokenAt n l r).eval b =
          (ofExcept (blame (tokenAt n).lexeme (op.binary.apply (.number a) (.number a'))) :
            EStateM RuntimeError Bindings Value) b := by
        rw [heval, bind_of_ok (hl b)]
        exact bind_of_ok (hr b)
      rw [op.binary_apply n a a'] at hoperands
      show Computes tokenAt _ (op.apply n a a')
      cases happly : op.apply n a a' with
      | ok v =>
        rw [happly] at hoperands
        exact hoperands
      | error k =>
        rw [happly] at hoperands
        obtain ⟨rfl, rfl⟩ := ArithOp.eq_divide_of_apply happly
        exact ⟨hoperands, hop⟩

theorem arrange_computes {first : Expr} {v : Except Nat Float} (hfirst : Computes tokenAt first v)
    {trees : List (Link Expr)} {values : List (Link (Except Nat Float))}
    (h : List.Forall₂ (Link.Rel (ArithOp.IsAt tokenAt) (Computes tokenAt)) trees values) :
    Computes tokenAt (arrange (ArithOp.node tokenAt) first trees)
      (arrange ArithOp.combine v values) :=
  arrange_rel (fun _ _ h => h) (fun _ _ h => h) (fun _ _ _ _ _ _ hop hl hr => hl.node hr hop.2)
    (fun _ _ _ _ _ _ hop hl hr => hl.node hr hop.2) hfirst h

mutual

theorem Atom.tree_computes (n : Nat) (a : Atom) (h : Stands tokenAt n a.texts) :
    Computes tokenAt (a.tree tokenAt n) (a.value n) := by
  cases a with
  | number whole fraction =>
    rw [Atom.tree, Atom.value]
    exact fun b => rfl
  | negate a =>
    rw [Atom.tree, Atom.value]
    rw [Atom.texts, stands_cons_iff] at h
    exact (a.tree_computes (n + 1) h.2).negate
  | group c =>
    rw [Atom.tree, Atom.value]
    rw [Atom.texts, stands_cons_iff, stands_append_iff] at h
    exact (c.tree_computes (n + 1) h.2.1).grouping

theorem Chain.tree_computes (n : Nat) (c : Chain) (h : Stands tokenAt n c.texts) :
    Computes tokenAt (c.tree tokenAt n) (c.value n) := by
  cases c with
  | mk first rest =>
    rw [Chain.tree, Chain.value]
    rw [Chain.texts, stands_append_iff] at h
    exact arrange_computes (first.tree_computes n h.1) (rest.trees_compute _ h.2)

theorem Links.trees_compute (n : Nat) (links : Links) (h : Stands tokenAt n links.texts) :
    List.Forall₂ (Link.Rel (ArithOp.IsAt tokenAt) (Computes tokenAt)) (links.trees tokenAt n)
      (links.values n) := by
  cases links with
  | nil =>
    rw [Links.trees, Links.values]
    exact .nil
  | cons op a rest =>
    rw [Links.trees, Links.values]
    rw [Links.texts, stands_cons_iff, stands_append_iff] at h
    exact .cons ⟨rfl, rfl, h.1, a.tree_computes (n + 1) h.2.1⟩ (rest.trees_compute _ h.2.2)

end

end

/-! ## Texts -/

/-- The `n`-th of the tokens, and a name if there are not so many. -/
def nthToken (tokens : List Token) (n : Nat) : Token := tokens.getD n ⟨.ident, .endingAt .origin⟩

theorem getElem?_of_nthToken {tokens : List Token} {n : Nat} {s : Symbol}
    (h : (nthToken tokens n).kind = .symbol s) : tokens[n]? = some (nthToken tokens n) := by
  unfold nthToken at *
  rw [List.getD_eq_getElem?_getD] at *
  cases hn : tokens[n]? with
  | none =>
    rw [hn] at h
    cases h
  | some t => rfl

section

variable {tokens : List Token} {texts : List TokenText}

theorem stretch_nthToken (h : tokens.map Token.written = texts.map TokenText.written) :
    stretch (nthToken tokens) 0 texts = tokens := by
  have hlength : texts.length = tokens.length := by simpa using (congrArg List.length h).symm
  apply List.ext_getElem
  · simpa [stretch] using hlength
  · intro n hn hn'
    simp [stretch, nthToken, hn']

theorem stands_nthToken (h : tokens.map Token.written = texts.map TokenText.written) :
    Stands (nthToken tokens) 0 texts := by
  rintro ⟨text, n⟩ hmem
  have htext : texts[n]? = some text := by simpa [List.mem_zipIdx_iff_getElem?] using hmem
  have hwritten : (tokens[n]?).map Token.written = some text.written := by
    rw [← List.getElem?_map, h, List.getElem?_map, htext]
    rfl
  obtain ⟨t, ht, heq⟩ := Option.map_eq_some_iff.mp hwritten
  show (nthToken tokens n).kind = text.kind
  rw [nthToken, List.getD_eq_getElem?_getD, ht]
  exact (Prod.mk.inj heq).1

end

theorem Chain.tokens_of_rendering {c : Chain} {cs : List Char} (h : Rendering c.texts cs) :
    (Scan.ofString (String.ofList cs)).tokens.map Token.written =
      c.texts.map TokenText.written := by
  simpa [Scan.tokens, Scan.ofString] using (scanFrom_rendering h .origin).2

/-- The text of a chain is read as the chain's tree. -/
theorem Chain.readsAsExpr {c : Chain} {cs : List Char} (h : Rendering c.texts cs)
    (hd : c.depth ≤ 127) :
    Session.ReadsAsExpr (String.ofList cs)
      (c.tree (nthToken (Scan.ofString (String.ofList cs)).tokens) 0) := by
  have htokens := tokens_of_rendering h
  have hread := c.tree_reading 0 127 (stands_nthToken htokens) hd
  rw [stretch_nthToken htokens] at hread
  constructor
  · rw [lexicalErrors_eq_nil_iff]
    simpa [Scan.errors, Scan.ofString] using (scanFrom_rendering h .origin).1
  · have hstop : StopsAt .comma [] := by simp [StopsAt]
    have hrun := (Grammar.inner_complete Grammar.nestingLimit).expression
      (Scan.ofString (String.ofList cs)).finish _ _ [] (hread.loosen (by decide)) hstop
    rw [List.append_nil] at hrun
    rw [Expr.parse, Grammar.expression, hrun]
    rfl

namespace Session

/-- **Arithmetic is what it should be.** A session evaluates the text of a chain to the chain's
value, and nothing else happens; or if a divisor in it is zero, and only then, there is no value,
and one error, at the first slash at which this is so. -/
theorem evaluate_chain (s : Session) (c : Chain) {cs : List Char} (h : Rendering c.texts cs)
    (hd : c.depth ≤ 127) :
    (∀ v, c.value 0 = .ok v → s.evaluate (String.ofList cs) = (some (.number v), s)) ∧
    (∀ n, c.value 0 = .error n → ∃ slash,
      (Scan.ofString (String.ofList cs)).tokens[n]? = some slash ∧
      slash.kind = .symbol .slash ∧
      s.evaluate (String.ofList cs) =
        (none, s.report [.runtime ⟨.divisionByZero, slash.lexeme⟩])) ∧
    ((∃ site, s.evaluate (String.ofList cs) =
        (none, s.report [.runtime ⟨.divisionByZero, site⟩])) ↔ ∃ n, c.value 0 = .error n) := by
  have hevaluate := evaluate_of_readsAsExpr s (Chain.readsAsExpr h hd)
  have hcomputes := c.tree_computes 0 (stands_nthToken (Chain.tokens_of_rendering h))
  rw [Expr.evalIn] at hevaluate
  cases hvalue : c.value 0 with
  | ok v =>
    rw [hvalue] at hcomputes
    rw [hcomputes s.world.bindings] at hevaluate
    simp [hevaluate, ofEvaluation]
  | error n =>
    rw [hvalue] at hcomputes
    obtain ⟨heval, hslash⟩ := hcomputes
    rw [heval s.world.bindings] at hevaluate
    refine ⟨?_, ?_, iff_of_true ⟨_, hevaluate⟩ ⟨n, rfl⟩⟩
    · rintro _ ⟨⟩
    · rintro _ ⟨⟩
      exact ⟨_, getElem?_of_nthToken hslash, hslash, hevaluate⟩

/-- The second of two divisors is zero. -/
theorem evaluate_chain_slash :
    ∃ (c : Chain) (cs : List Char), Rendering c.texts cs ∧ c.depth ≤ 127 ∧
      String.ofList cs = "8 / 2.5 / ( 3 - - - 3 )" ∧
      initial.evaluate (String.ofList cs) =
        (none, initial.report [.runtime ⟨.divisionByZero, "/", 8, 1⟩]) := by
  let three : Atom := .number ⟨['3'], by simp, by simp⟩ none
  let half : Atom := .number ⟨['2'], by simp, by simp⟩ (some ⟨['5'], by simp, by simp⟩)
  let zero : Chain := .mk three (.cons .subtract (.negate (.negate three)) .nil)
  let c : Chain := .mk (.number ⟨['8'], by simp, by simp⟩ none)
    (.cons .divide half (.cons .divide (.group zero) .nil))
  have hrendering := rendering_intercalate c.texts
  have hdepth : c.depth ≤ 127 := by decide
  have hvalue : c.value 0 = .error 3 := by decide +kernel
  have hslash : (Scan.ofString (String.ofList
      (" ".intercalate (c.texts.map fun t => String.ofList t.chars)).toList)).tokens[3]? =
      some ⟨.symbol .slash, "/", 8, 1⟩ := by decide +kernel
  obtain ⟨slash, hmem, -, hevaluate⟩ := (initial.evaluate_chain c hrendering hdepth).2.1 3 hvalue
  rw [hslash] at hmem
  cases hmem
  exact ⟨c, _, hrendering, hdepth, by decide +kernel, hevaluate⟩

end Session

end Lox
