import Lox.Parse.Program

/-!
# What rules reply

The replies of the primitive rules and of a sequence, read backwards: from the reply to what must
have happened. A rule written with `do` comes apart with these, one line of it at a time, and no
proof about the grammar has to look into the definition of a primitive rule again.

Where a rule succeeds there is also the statement in the other direction, as an equation that
moves a reading forward.
-/

set_option autoImplicit false

namespace Lox

/-- The error of a rule that cannot go on with the tokens `ts`: it names the first of them, or the
end of the input. -/
def ParseError.atHead (fault : ParseFault) (finish : Lexeme) : List Token → ParseError
  | [] => ⟨fault, none, finish⟩
  | t :: _ => ⟨fault, some t.kind, t.lexeme⟩

/-- The error about the token `t`. -/
def ParseError.atToken (fault : ParseFault) (t : Token) : ParseError :=
  ⟨fault, some t.kind, t.lexeme⟩

namespace Rule

variable {α β : Type} {finish : Lexeme} {ts rest : List Token}

/-! ## Sequence -/

theorem run_bind_eq_ok_iff {r : Rule α} {f : α → Rule β} {b : β} :
    (r >>= f).run finish ts = .ok b rest ↔
      ∃ a mid, r.run finish ts = .ok a mid ∧ (f a).run finish mid = .ok b rest := by
  rw [run_bind]
  cases h : r.run finish ts with
  | ok a mid => simp [and_assoc]
  | error e mid => simp

theorem run_bind_eq_error_iff {r : Rule α} {f : α → Rule β} {e : ParseError} :
    (r >>= f).run finish ts = .error e rest ↔
      r.run finish ts = .error e rest ∨
        ∃ a mid, r.run finish ts = .ok a mid ∧ (f a).run finish mid = .error e rest := by
  rw [run_bind]
  cases h : r.run finish ts with
  | ok a mid => simp [and_assoc]
  | error e' mid => simp

/-- After a success the rest of the sequence goes on. -/
theorem run_bind_of_ok {r : Rule α} {f : α → Rule β} {a : α} {mid : List Token}
    (h : r.run finish ts = .ok a mid) : (r >>= f).run finish ts = (f a).run finish mid := by
  rw [run_bind, h]

theorem run_bind_of_error {r : Rule α} {f : α → Rule β} {e : ParseError} {rest : List Token}
    (h : r.run finish ts = .error e rest) : (r >>= f).run finish ts = .error e rest :=
  run_bind_eq_error_iff.mpr (.inl h)

theorem map_eq_bind (g : α → β) (r : Rule α) : g <$> r = r >>= fun a => pure (g a) := rfl

/-- A reply stays a success, or an error, when its value is converted. -/
theorem run_map_eq_ok_iff {r : Rule α} {g : α → β} {b : β} :
    (g <$> r).run finish ts = .ok b rest ↔
      ∃ a, r.run finish ts = .ok a rest ∧ g a = b := by
  rw [map_eq_bind, run_bind_eq_ok_iff]
  constructor
  · rintro ⟨a, mid, h, hp⟩
    cases hp
    exact ⟨a, h, rfl⟩
  · rintro ⟨a, h, rfl⟩
    exact ⟨a, rest, h, rfl⟩

theorem run_map_eq_error_iff {r : Rule α} {g : α → β} {e : ParseError} :
    (g <$> r).run finish ts = .error e rest ↔ r.run finish ts = .error e rest := by
  rw [map_eq_bind, run_bind_eq_error_iff]
  constructor
  · rintro (h | ⟨a, mid, _, hp⟩)
    · exact h
    · cases hp
  · exact Or.inl

theorem run_map_of_ok {r : Rule α} {g : α → β} {a : α} (h : r.run finish ts = .ok a rest) :
    (g <$> r).run finish ts = .ok (g a) rest :=
  run_map_eq_ok_iff.mpr ⟨a, h, rfl⟩

@[simp] theorem run_pure_eq_ok_iff {a b : α} :
    (pure a : Rule α).run finish ts = .ok b rest ↔ a = b ∧ ts = rest := by
  simp

/-! ## Primitive rules -/

@[simp] theorem run_fail (fault : ParseFault) :
    (fail fault : Rule α).run finish ts = .error (.atHead fault finish ts) ts := by
  cases ts <;> rfl

@[simp] theorem run_failAt (t : Token) (fault : ParseFault) :
    (failAt t fault : Rule α).run finish ts = .error (.atToken fault t) ts := rfl

@[simp] theorem run_peek : peek.run finish ts = .ok ts.head? ts := rfl

@[simp] theorem run_skip : skip.run finish ts = .ok () ts.tail := rfl

theorem run_take?_of_some {f : TokenKind → Option β} {t : Token} {b : β} (h : f t.kind = some b) :
    (take? f).run finish (t :: ts) = .ok (some (b, t)) ts := by
  simp only [take?, h]

theorem run_take?_of_none {f : TokenKind → Option β} (h : ∀ t ∈ ts.head?, f t.kind = none) :
    (take? f).run finish ts = .ok none ts := by
  cases ts with
  | nil => rfl
  | cons t ts => simp only [take?, h t rfl]

/-- A rule that may take a token never fails. It has taken the first one, or left everything. -/
theorem run_take?_eq_ok_iff {f : TokenKind → Option β} {taken : Option (β × Token)} :
    (take? f).run finish ts = .ok taken rest ↔
      (∃ b t, ts = t :: rest ∧ f t.kind = some b ∧ taken = some (b, t)) ∨
        (ts = rest ∧ taken = none ∧ ∀ t ∈ ts.head?, f t.kind = none) := by
  constructor
  · intro h
    cases ts with
    | nil =>
      cases h
      exact Or.inr ⟨rfl, rfl, by simp⟩
    | cons t ts =>
      cases hf : f t.kind with
      | some b =>
        rw [run_take?_of_some hf] at h
        cases h
        exact Or.inl ⟨b, t, rfl, hf, rfl⟩
      | none =>
        have hnone : ∀ t' ∈ (t :: ts).head?, f t'.kind = none := by
          rintro t' ⟨⟩
          exact hf
        rw [run_take?_of_none hnone] at h
        cases h
        exact Or.inr ⟨rfl, rfl, hnone⟩
  · rintro (⟨b, t, rfl, hf, rfl⟩ | ⟨rfl, rfl, hf⟩)
    · exact run_take?_of_some hf
    · exact run_take?_of_none hf

theorem run_take?_ne_error {f : TokenKind → Option β} {e : ParseError} :
    (take? f).run finish ts ≠ .error e rest := by
  intro h
  cases ts with
  | nil => cases h
  | cons t ts =>
    cases hf : f t.kind with
    | some b => simp [run_take?_of_some hf] at h
    | none => simp [take?, hf] at h

theorem run_takeKind?_of_kind {kind : TokenKind} {t : Token} (h : t.kind = kind) :
    (takeKind? kind).run finish (t :: ts) = .ok (some t) ts := by
  rw [takeKind?, run_bind_of_ok (run_take?_of_some (if_pos h))]
  rfl

theorem run_takeKind?_of_ne {kind : TokenKind} (h : ∀ t ∈ ts.head?, t.kind ≠ kind) :
    (takeKind? kind).run finish ts = .ok none ts := by
  rw [takeKind?, run_bind_of_ok (run_take?_of_none fun t ht => if_neg (h t ht))]
  rfl

theorem run_takeKind?_eq_ok_iff {kind : TokenKind} {taken : Option Token} :
    (takeKind? kind).run finish ts = .ok taken rest ↔
      (∃ t, ts = t :: rest ∧ t.kind = kind ∧ taken = some t) ∨
        (ts = rest ∧ taken = none ∧ ∀ t ∈ ts.head?, t.kind ≠ kind) := by
  constructor
  · intro h
    obtain ⟨a, mid, ht, hp⟩ := run_bind_eq_ok_iff.mp h
    rcases run_take?_eq_ok_iff.mp ht with ⟨b, t, rfl, hf, rfl⟩ | ⟨rfl, rfl, hf⟩
    · cases hp
      by_cases hk : t.kind = kind
      · exact Or.inl ⟨t, rfl, hk, rfl⟩
      · rw [if_neg hk] at hf
        cases hf
    · cases hp
      refine Or.inr ⟨rfl, rfl, fun t ht hk => ?_⟩
      have := hf t ht
      rw [if_pos hk] at this
      cases this
  · rintro (⟨t, rfl, hk, rfl⟩ | ⟨rfl, rfl, hne⟩)
    · exact run_takeKind?_of_kind hk
    · exact run_takeKind?_of_ne hne

theorem run_takeKind?_ne_error {kind : TokenKind} {e : ParseError} :
    (takeKind? kind).run finish ts ≠ .error e rest := by
  intro h
  rcases run_bind_eq_error_iff.mp h with h | ⟨a, mid, _, hp⟩
  · exact run_take?_ne_error h
  · cases hp

theorem run_expect_of_kind {kind : TokenKind} {fault : ParseFault} {t : Token}
    (h : t.kind = kind) : (expect kind fault).run finish (t :: ts) = .ok t.lexeme ts := by
  rw [expect, run_bind_of_ok (run_takeKind?_of_kind h)]
  rfl

theorem run_expect_eq_ok_iff {kind : TokenKind} {fault : ParseFault} {site : Lexeme} :
    (expect kind fault).run finish ts = .ok site rest ↔
      ∃ t, ts = t :: rest ∧ t.kind = kind ∧ t.lexeme = site := by
  constructor
  · intro h
    obtain ⟨a, mid, ht, hp⟩ := run_bind_eq_ok_iff.mp h
    rcases run_takeKind?_eq_ok_iff.mp ht with ⟨t, rfl, hk, rfl⟩ | ⟨rfl, rfl, hne⟩
    · cases hp
      exact ⟨t, rfl, hk, rfl⟩
    · simp at hp
  · rintro ⟨t, rfl, hk, rfl⟩
    exact run_expect_of_kind hk

/-! ## Repetition -/

theorem many_run {stop : Option TokenKind → Bool} {r : Rule α} {hr : r.Consumes} :
    (many stop r hr).run finish ts =
      if stop (ts.head?.map (·.kind)) then .ok [] ts
      else (do let a ← r; return a :: (← many stop r hr)).run finish ts := by
  change manyRun stop r hr finish ts = _
  rw [manyRun]
  congr 1
  split
  · rename_i e rest hrun
    exact (run_bind_of_error hrun).symm
  · rename_i a rest hrun
    rw [run_bind_of_ok hrun]
    cases hmany : (many stop r hr).run finish rest with
    | ok as rest' =>
      rw [run_bind_of_ok hmany]
      change manyRun stop r hr finish rest = _ at hmany
      rw [hmany]
      rfl
    | error e rest' =>
      rw [run_bind_of_error hmany]
      change manyRun stop r hr finish rest = _ at hmany
      rw [hmany]

theorem many_run_of_stop {stop : Option TokenKind → Bool} {r : Rule α} {hr : r.Consumes}
    {t : Token} (h : stop (some t.kind) = true) :
    (many stop r hr).run finish (t :: ts) = .ok [] (t :: ts) := by
  rw [many_run]
  exact if_pos h

theorem many_run_of_go {stop : Option TokenKind → Bool} {r : Rule α} {hr : r.Consumes}
    {t : Token} (h : ¬ stop (some t.kind) = true) :
    (many stop r hr).run finish (t :: ts) =
      (do let a ← r; return a :: (← many stop r hr)).run finish (t :: ts) := by
  rw [many_run]
  exact if_neg h

end Rule

/-! ## Chains -/

namespace Grammar

open Rule

variable {ops : List BinaryOp} {operand : Rule Expr} {lhs : Expr} {finish : Lexeme} {t : Token}
variable {ts : List Token}

theorem chain_run_of_none (h : t.kind.symbol?.bind (BinaryOp.among ops) = none) :
    (chain ops operand lhs).run finish (t :: ts) = .ok lhs (t :: ts) := by
  change chainRun ops operand finish lhs (t :: ts) = _
  rw [chainRun]
  split
  · rfl
  · rename_i op hop
    rw [h] at hop
    cases hop

theorem chain_run_of_stop
    (h : ∀ t ∈ ts.head?, t.kind.symbol?.bind (BinaryOp.among ops) = none) :
    (chain ops operand lhs).run finish ts = .ok lhs ts := by
  cases ts with
  | nil =>
    change chainRun ops operand finish lhs [] = _
    rw [chainRun]
  | cons t ts => exact chain_run_of_none (h t rfl)

theorem chain_run_of_some {op : BinaryOp}
    (h : t.kind.symbol?.bind (BinaryOp.among ops) = some op) :
    (chain ops operand lhs).run finish (t :: ts) =
      (do chain ops operand (.binary op t.lexeme lhs (← operand))).run finish ts := by
  change chainRun ops operand finish lhs (t :: ts) = _
  rw [chainRun]
  split
  · rename_i hnone
    rw [h] at hnone
    cases hnone
  · rename_i op' hop
    cases h.symm.trans hop
    split
    · rename_i e rest hrun
      exact (run_bind_of_error hrun).symm
    · rename_i rhs rest hrun
      rw [run_bind_of_ok hrun]
      rfl

/-! ## Declarations -/

theorem declarations_cons_of_ok {rest : List Token} {s : Stmt}
    (h : declaration.1.run finish (t :: ts) = .ok s rest) :
    declarations finish (t :: ts) = .ok s :: declarations finish rest := by
  rw [declarations]
  split
  · rename_i s' rest' hok
    rw [h] at hok
    cases hok
    rfl
  · rename_i e rest' herr
    rw [h] at herr
    cases herr

theorem declarations_cons_of_error {rest : List Token} {e : ParseError}
    (h : declaration.1.run finish (t :: ts) = .error e rest) :
    declarations finish (t :: ts) = .error e :: declarations finish (synchronize rest) := by
  rw [declarations]
  split
  · rename_i s rest' hok
    rw [h] at hok
    cases hok
  · rename_i e' rest' herr
    rw [h] at herr
    cases herr
    rfl

end Grammar

end Lox
