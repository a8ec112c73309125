import Lox.Parse.Error

/-!
# Grammar rules

A rule reads a token sequence from the front and replies with what it has read, or with the reason
why it cannot, and in both cases with the tokens that are left. The reply to a failure keeps them
because the parser recovers from there.

**A rule never gives tokens back.** What is left is an end of what there was, and this is part of
a rule's type: `Rule.suffix`. It is why repetition terminates, with no counter and no test for
progress while parsing, and it holds of every rule that is built with `do` from the few primitive
ones below.

A rule is also told where the input ends, `finish`. It has no use for that but to place an error
there.
-/

set_option autoImplicit false

namespace Lox

/-- What a rule replies. -/
inductive Reply (α : Type) where
  | ok (value : α) (rest : List Token)
  | error (e : ParseError) (rest : List Token)
deriving DecidableEq, Repr

namespace Reply

variable {α : Type}

/-- The tokens that are left. -/
def rest : Reply α → List Token
  | ok _ ts => ts
  | error _ ts => ts

@[simp] theorem rest_ok (a : α) (ts : List Token) : (ok a ts).rest = ts := rfl

@[simp] theorem rest_error (e : ParseError) (ts : List Token) :
    (error e ts : Reply α).rest = ts := rfl

/-- The reply without the tokens that are left. -/
def result : Reply α → Except ParseError α
  | ok a _ => .ok a
  | error e _ => .error e

end Reply

/-- A way to read a token sequence from the front. -/
structure Rule (α : Type) where
  /-- The reply to a token sequence that ends at the given lexeme. -/
  run : Lexeme → List Token → Reply α
  suffix : ∀ finish ts, (run finish ts).rest <:+ ts

namespace Rule

variable {α β : Type}

theorem length_le (r : Rule α) (finish : Lexeme) (ts : List Token) :
    (r.run finish ts).rest.length ≤ ts.length :=
  (r.suffix finish ts).length_le

/-! ## Sequence -/

/-- Reads nothing. -/
protected def pure (a : α) : Rule α where
  run _ ts := .ok a ts
  suffix _ ts := List.suffix_refl ts

/-- Reads with `r` and then, if that succeeds, with the rule that `f` chooses. -/
protected def bind (r : Rule α) (f : α → Rule β) : Rule β where
  run finish ts :=
    match r.run finish ts with
    | .ok a rest => (f a).run finish rest
    | .error e rest => .error e rest
  suffix finish ts := by
    have h := r.suffix finish ts
    split <;> rename_i heq <;> rw [heq] at h
    · exact ((f _).suffix finish _).trans h
    · exact h

instance : Monad Rule where
  pure := Rule.pure
  bind := Rule.bind

@[simp] theorem run_pure (a : α) (finish : Lexeme) (ts : List Token) :
    (pure a : Rule α).run finish ts = .ok a ts := rfl

theorem run_bind (r : Rule α) (f : α → Rule β) (finish : Lexeme) (ts : List Token) :
    (r >>= f).run finish ts =
      match r.run finish ts with
      | .ok a rest => (f a).run finish rest
      | .error e rest => .error e rest := rfl

/-! ## Primitive rules -/

/-- Fails about the token that comes next. -/
def fail (fault : ParseFault) : Rule α where
  run finish ts :=
    match ts with
    | [] => .error ⟨fault, none, finish⟩ []
    | t :: rest => .error ⟨fault, some t.kind, t.lexeme⟩ (t :: rest)
  suffix _ ts := by cases ts <;> exact List.suffix_refl _

/-- Fails about the token `t`, which has been read before. -/
def failAt (t : Token) (fault : ParseFault) : Rule α where
  run _ ts := .error ⟨fault, some t.kind, t.lexeme⟩ ts
  suffix _ ts := List.suffix_refl ts

/-- Looks at the next token, if there is one, and leaves it where it is. -/
def peek : Rule (Option Token) where
  run _ ts := .ok ts.head? ts
  suffix _ ts := List.suffix_refl ts

/-- Passes over the next token, if there is one. -/
def skip : Rule Unit where
  run _ ts := .ok () ts.tail
  suffix _ ts := List.tail_suffix ts

/-- Reads the next token if `f` has an answer for its kind. -/
def take? (f : TokenKind → Option β) : Rule (Option (β × Token)) where
  run _ ts :=
    match ts with
    | [] => .ok none []
    | t :: rest =>
      match f t.kind with
      | some b => .ok (some (b, t)) rest
      | none => .ok none (t :: rest)
  suffix _ ts := by
    cases ts with
    | nil => exact List.suffix_refl _
    | cons t rest =>
      dsimp only
      split
      · exact List.suffix_cons t rest
      · exact List.suffix_refl _

/-- Reads the next token if it is of the kind `kind`. -/
def takeKind? (kind : TokenKind) : Rule (Option Token) := do
  let taken ← take? fun k => if k = kind then some () else none
  return taken.map (·.2)

/-- Reads a token of the kind `kind`, and fails if the next one is of another. -/
def expect (kind : TokenKind) (fault : ParseFault) : Rule Lexeme := do
  match ← takeKind? kind with
  | some t => return t.lexeme
  | none => fail fault

/-! ## Rules that read something -/

/-- Whether success means that at least one token was read. -/
def Consumes (r : Rule α) : Prop :=
  ∀ finish ts a rest, r.run finish ts = .ok a rest → rest.length < ts.length

/-- A sequence reads something if its last part does. -/
theorem Consumes.bind {r : Rule α} {f : α → Rule β} (hf : ∀ a, (f a).Consumes) :
    (r >>= f).Consumes := by
  intro finish ts b rest h
  have hle := r.length_le finish ts
  rw [run_bind] at h
  split at h
  · rename_i a mid heq
    rw [heq] at hle
    exact Nat.lt_of_lt_of_le (hf a finish mid b rest h) hle
  · cases h

/-- A sequence reads something if its first part does. -/
theorem Consumes.bind_left {r : Rule α} (f : α → Rule β) (hr : r.Consumes) :
    (r >>= f).Consumes := by
  intro finish ts b rest h
  rw [run_bind] at h
  split at h
  · rename_i a mid heq
    have hle := (f a).length_le finish mid
    rw [h] at hle
    exact Nat.lt_of_le_of_lt hle (hr finish ts a mid heq)
  · cases h

theorem consumes_expect (kind : TokenKind) (fault : ParseFault) :
    (expect kind fault).Consumes := by
  intro finish ts a rest h
  cases ts with
  | nil => cases h
  | cons t ts =>
    by_cases hk : t.kind = kind
    · simp [expect, takeKind?, take?, run_bind, hk] at h
      simp [← h.2]
    · simp [expect, takeKind?, take?, run_bind, hk, fail] at h

/-! ## Repetition -/

/-- The run of `many`. -/
def manyRun (stop : Option TokenKind → Bool) (r : Rule α) (hr : r.Consumes) (finish : Lexeme)
    (ts : List Token) : Reply (List α) :=
  if stop (ts.head?.map (·.kind)) then .ok [] ts
  else
    match h : r.run finish ts with
    | .error e rest => .error e rest
    | .ok a rest =>
      have := hr finish ts a rest h
      match manyRun stop r hr finish rest with
      | .error e rest => .error e rest
      | .ok as rest => .ok (a :: as) rest
termination_by ts.length
decreasing_by exact this

theorem manyRun_suffix (stop : Option TokenKind → Bool) (r : Rule α) (hr : r.Consumes)
    (finish : Lexeme) (ts : List Token) : (manyRun stop r hr finish ts).rest <:+ ts := by
  fun_induction manyRun stop r hr finish ts with
  | case1 ts => exact List.suffix_refl ts
  | case2 ts _ e rest h => simpa [h] using r.suffix finish ts
  | case3 ts _ a rest h _ e rest' h' ih =>
    have := r.suffix finish ts
    simp only [h, h', Reply.rest_ok, Reply.rest_error] at *
    exact ih.trans this
  | case4 ts _ a rest h _ as rest' h' ih =>
    have := r.suffix finish ts
    simp only [h, h', Reply.rest_ok] at *
    exact ih.trans this

/-- Reads with `r` again and again, until `stop` says so of the next token or of the end. The rule
`r` must read something every time. -/
def many (stop : Option TokenKind → Bool) (r : Rule α) (hr : r.Consumes) : Rule (List α) where
  run := manyRun stop r hr
  suffix := manyRun_suffix stop r hr

end Rule

end Lox
