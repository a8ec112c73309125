import Lox.Proofs.Grammar.Blame

/-!
# What a reply depends on

A rule finds out about the input from its front, and looks one token ahead. So what it replies is
decided by the tokens up to the first one that it leaves, and two inputs that begin alike are read
alike as long as a common token is left (`Reply.Alike.ok`, `Reply.Alike.error`).

Where a rule has read all that two inputs have in common, its replies to them may be as different
as the inputs are. What is left to say then is about errors (`Reply.Commits`): an error that is
about one of the common tokens has made up its mind, and what follows them cannot undo it. This
concerns the two faults that look behind. They are reported about an operator that has been read,
and only after an operand behind it; that operand may be wrong in one input and right in the other,
but the operator is wrong in both.
-/

set_option autoImplicit false

namespace Lox

theorem eq_nil_of_append_suffix {α : Type} {xs ys : List α} (h : xs ++ ys <:+ ys) : xs = [] := by
  have hle := h.length_le
  rw [List.length_append] at hle
  exact List.eq_nil_of_length_eq_zero (by omega)

/-- The faults that are reported about a token that has been read before. -/
def ParseFault.LooksBehind (fault : ParseFault) : Prop :=
  fault = .missingLeftOperand ∨ fault = .invalidTarget

/-- The error is about the end of the input, or about one of the tokens `ts`. -/
def ParseError.IsAbout (e : ParseError) (ts : List Token) : Prop :=
  e.found = none ∨ ∃ t ∈ ts, e = .atToken e.fault t

theorem ParseError.IsAbout.mono {e : ParseError} {xs ys : List Token} (h : e.IsAbout xs)
    (hsub : xs ⊆ ys) : e.IsAbout ys := by
  rcases h with hend | ⟨t, ht, he⟩
  · exact .inl hend
  · exact .inr ⟨t, hsub ht, he⟩

theorem ParseError.Blames.isAbout {e : ParseError} {finish : Lexeme} {ts rest : List Token}
    (h : e.Blames finish ts rest) : e.IsAbout ts := by
  rcases h.namesOneOf with hend | hmem
  · exact .inl (by rw [hend])
  · exact .inr hmem

/-! ## Two replies compared -/

namespace Reply

variable {α : Type} {behind behind' : List Token}

/-- If the first reply is an error that is not about `behind`, the second is an error as well. It
is the same one, or the fault looks behind and the second error is about `behind'`. -/
def Commits (behind behind' : List Token) (reply reply' : Reply α) : Prop :=
  ∀ e rest, reply = .error e rest → ¬ e.IsAbout behind →
    ∃ e' rest', reply' = .error e' rest' ∧
      (e' = e ∨ (e.fault.LooksBehind ∧ e'.IsAbout behind'))

/-- Replies to two inputs that begin alike and go on with `behind` and with `behind'`. -/
inductive Alike (behind behind' : List Token) : Reply α → Reply α → Prop where
  | ok (a : α) (left : List Token) :
    Alike behind behind' (.ok a (left ++ behind)) (.ok a (left ++ behind'))
  | error (e : ParseError) (left : List Token) :
    Alike behind behind' (.error e (left ++ behind)) (.error e (left ++ behind'))
  /-- All that the inputs have in common has been read. -/
  | beyond {reply reply' : Reply α} (hr : reply.rest <:+ behind) (hr' : reply'.rest <:+ behind')
    (hc : reply.Commits behind behind' reply') (hc' : reply'.Commits behind' behind reply) :
    Alike behind behind' reply reply'

/-- An error that leaves one of the common tokens is the same for both. -/
theorem Alike.eq_error {reply' : Reply α} {e : ParseError} {left : List Token} (hne : left ≠ [])
    (h : Alike behind behind' (.error e (left ++ behind)) reply') :
    reply' = .error e (left ++ behind') := by
  generalize hrest : left ++ behind = rest at h
  cases h with
  | error e left' => rw [List.append_cancel_right hrest]
  | beyond hr =>
    rw [rest_error, ← hrest] at hr
    exact absurd (eq_nil_of_append_suffix hr) hne

end Reply

/-! ## Rules in general -/

namespace Rule

open Reply

variable {α β : Type}

section

variable {behind behind' ts ts' : List Token} {finish finish' : Lexeme}

theorem rest_bind_suffix (r : Rule α) (f : α → Rule β) (finish : Lexeme) (ts : List Token) :
    ((r >>= f).run finish ts).rest <:+ (r.run finish ts).rest := by
  cases h : r.run finish ts with
  | ok a mid =>
    rw [run_bind_of_ok h]
    exact (f a).suffix finish mid
  | error e mid =>
    rw [run_bind_of_error h]
    exact List.suffix_refl mid

/-- What follows a rule that has read everything can only fail about what is left. -/
theorem commits_bind {r : Rule α} {f : α → Rule β} (hr : (r.run finish ts).rest <:+ behind)
    (hc : (r.run finish ts).Commits behind behind' (r.run finish' ts'))
    (hf : ∀ a, (f a).Blames []) :
    ((r >>= f).run finish ts).Commits behind behind' ((r >>= f).run finish' ts') := by
  intro e rest h hn
  rcases run_bind_eq_error_iff.mp h with h | ⟨a, mid, hok, h⟩
  · obtain ⟨e', rest', h', hd⟩ := hc e rest h hn
    exact ⟨e', rest', run_bind_of_error h', hd⟩
  · rw [hok, rest_ok] at hr
    have hmid : e.IsAbout mid := (hf a finish mid e rest h).isAbout
    exact absurd (hmid.mono hr.subset) hn

theorem alike_bind {r : Rule α} {f : α → Rule β}
    (h : Alike behind behind' (r.run finish ts) (r.run finish' ts'))
    (hf : ∀ a left, r.run finish ts = .ok a (left ++ behind) →
      Alike behind behind' ((f a).run finish (left ++ behind))
        ((f a).run finish' (left ++ behind')))
    (hb : ∀ a, (f a).Blames []) :
    Alike behind behind' ((r >>= f).run finish ts) ((r >>= f).run finish' ts') := by
  generalize hreply : r.run finish ts = reply at h hf
  generalize hreply' : r.run finish' ts' = reply' at h
  cases h with
  | ok a left =>
    rw [run_bind_of_ok hreply, run_bind_of_ok hreply']
    exact hf a left rfl
  | error e left =>
    rw [run_bind_of_error hreply, run_bind_of_error hreply']
    exact .error e left
  | beyond hr hr' hc hc' =>
    subst hreply hreply'
    exact .beyond ((rest_bind_suffix r f finish ts).trans hr)
      ((rest_bind_suffix r f finish' ts').trans hr') (commits_bind hr hc hb)
      (commits_bind hr' hc' hb)

/-- If two inputs have nothing in common, the errors of a rule are about what they have apart. -/
theorem alike_nil {r : Rule α} (h : r.Blames []) :
    Alike behind behind' (r.run finish behind) (r.run finish' behind') := by
  have hcommits {f f' : Lexeme} {us us' : List Token} :
      (r.run f us).Commits us us' (r.run f' us') := by
    intro e rest he hn
    exact absurd (h f us e rest he).isAbout hn
  exact .beyond (r.suffix _ _) (r.suffix _ _) hcommits hcommits

end

/-- Whether inputs that begin alike are read alike. As in `Rule.Blames`, the tokens `read` were
read just before. -/
structure Determined (read : List Token) (r : Rule α) : Prop where
  blames : r.Blames read
  alike : ∀ finish finish' seen behind behind',
    Alike behind behind' (r.run finish (seen ++ behind)) (r.run finish' (seen ++ behind'))

variable {read : List Token}

theorem Determined.behind {r : Rule α} (h : r.Determined []) (read : List Token) :
    r.Determined read :=
  ⟨h.blames.behind read, h.alike⟩

/-- Only inputs that have a token in common need to be compared. -/
theorem Determined.of_cons {r : Rule α} (hb : r.Blames [])
    (h : ∀ finish finish' t seen behind behind',
      Alike behind behind' (r.run finish (t :: (seen ++ behind)))
        (r.run finish' (t :: (seen ++ behind')))) : r.Determined [] := by
  refine ⟨hb, fun finish finish' seen behind behind' => ?_⟩
  cases seen with
  | nil => exact alike_nil hb
  | cons t seen => exact h finish finish' t seen behind behind'

theorem Determined.bind {r : Rule α} {f : α → Rule β} (hr : r.Determined read)
    (hf : ∀ a, (f a).Determined []) : (r >>= f).Determined read where
  blames := hr.blames.bind fun a => (hf a).blames.behind read
  alike finish finish' seen behind behind' := by
    apply alike_bind (hr.alike finish finish' seen behind behind')
    · intro a left _
      exact (hf a).alike finish finish' left behind behind'
    · intro a
      exact (hf a).blames

theorem determined_pure (a : α) : (pure a : Rule α).Determined read :=
  ⟨blames_pure a, fun _ _ seen _ _ => .ok a seen⟩

theorem Determined.map {r : Rule α} (h : r.Determined read) (g : α → β) :
    (g <$> r).Determined read :=
  h.bind fun a => determined_pure (g a)

theorem determined_peek : peek.Determined [] :=
  .of_cons blames_peek fun _ _ t seen _ _ => .ok (some t) (t :: seen)

theorem determined_skip : skip.Determined [] :=
  .of_cons blames_skip fun _ _ _ seen _ _ => .ok () seen

theorem determined_fail (fault : ParseFault) : (fail fault : Rule α).Determined [] :=
  .of_cons (blames_fail fault) fun _ _ t seen _ _ => .error (.atToken fault t) (t :: seen)

/-- Behind a token that has been taken the rule that goes on may look behind to it. -/
theorem Determined.take? {f : TokenKind → Option β} {k : Option (β × Token) → Rule α}
    (hsome : ∀ b t, (k (some (b, t))).Determined [t]) (hnone : (k none).Determined []) :
    (take? f >>= k).Determined [] := by
  apply Determined.of_cons
  · exact blames_take? (fun b t => (hsome b t).blames) hnone.blames
  · intro finish finish' t seen behind behind'
    cases hf : f t.kind with
    | some b =>
      rw [run_bind_of_ok (run_take?_of_some hf), run_bind_of_ok (run_take?_of_some hf)]
      exact (hsome b t).alike finish finish' seen behind behind'
    | none =>
      have hne (ts : List Token) : ∀ t' ∈ (t :: ts).head?, f t'.kind = none := by
        rintro t' ⟨⟩
        exact hf
      rw [run_bind_of_ok (run_take?_of_none (hne _)), run_bind_of_ok (run_take?_of_none (hne _))]
      exact hnone.alike finish finish' (t :: seen) behind behind'

theorem Determined.takeKind? {kind : TokenKind} {k : Option Token → Rule α}
    (hsome : ∀ t, (k (some t)).Determined [t]) (hnone : (k none).Determined []) :
    (takeKind? kind >>= k).Determined [] := by
  apply Determined.of_cons
  · exact blames_takeKind? (fun t => (hsome t).blames) hnone.blames
  · intro finish finish' t seen behind behind'
    by_cases hk : t.kind = kind
    · rw [run_bind_of_ok (run_takeKind?_of_kind hk), run_bind_of_ok (run_takeKind?_of_kind hk)]
      exact (hsome t).alike finish finish' seen behind behind'
    · have hne (ts : List Token) : ∀ t' ∈ (t :: ts).head?, t'.kind ≠ kind := by
        rintro t' ⟨⟩
        exact hk
      rw [run_bind_of_ok (run_takeKind?_of_ne (hne _)),
        run_bind_of_ok (run_takeKind?_of_ne (hne _))]
      exact hnone.alike finish finish' (t :: seen) behind behind'

theorem determined_expect (kind : TokenKind) (fault : ParseFault) :
    (expect kind fault).Determined [] := by
  apply Determined.takeKind?
  · intro t
    exact determined_pure t.lexeme
  · exact determined_fail fault

/-- An error about a token read before stands, whatever the rule makes of what comes next. -/
theorem Determined.bind_failAt {r : Rule α} (h : r.Determined []) {fault : ParseFault}
    (hfault : fault.LooksBehind) (t : Token) :
    (r >>= fun _ => (failAt t fault : Rule β)).Determined [t] where
  blames := by
    have hfail : (failAt t fault : Rule β).Blames ([] ++ [t]) := blames_failAt t fault
    exact (h.blames.behind [t]).bind fun _ => hfail
  alike finish finish' seen behind behind' := by
    have hcommits {f f' : Lexeme} {us us' after after' : List Token}
        (hc : (r.run f us).Commits after after' (r.run f' us'))
        (hc' : (r.run f' us').Commits after' after (r.run f us)) :
        ((r >>= fun _ => (failAt t fault : Rule β)).run f us).Commits after after'
          ((r >>= fun _ => (failAt t fault : Rule β)).run f' us') := by
      intro e rest he hn
      rcases run_bind_eq_error_iff.mp he with he | ⟨a, mid, hok, he⟩
      · obtain ⟨e', rest', he', hd⟩ := hc e rest he hn
        exact ⟨e', rest', run_bind_of_error he', hd⟩
      · cases he
        cases h' : r.run f' us' with
        | ok a' mid' => exact ⟨_, _, run_bind_of_ok h', .inl rfl⟩
        | error e' mid' =>
          refine ⟨e', mid', run_bind_of_error h', .inr ⟨hfault, ?_⟩⟩
          -- Were it about a common token, the rule would have failed on the other input, too.
          refine Classical.byContradiction fun hn' => ?_
          obtain ⟨_, _, herror, _⟩ := hc' e' mid' h' hn'
          rw [hok] at herror
          cases herror
    have halike := h.alike finish finish' seen behind behind'
    generalize hreply : r.run finish (seen ++ behind) = reply at halike
    generalize hreply' : r.run finish' (seen ++ behind') = reply' at halike
    cases halike with
    | ok a left =>
      rw [run_bind_of_ok hreply, run_bind_of_ok hreply']
      exact .error (.atToken fault t) left
    | error e left =>
      rw [run_bind_of_error hreply, run_bind_of_error hreply']
      exact .error e left
    | beyond hr hr' hc hc' =>
      subst hreply hreply'
      exact .beyond ((rest_bind_suffix _ _ _ _).trans hr) ((rest_bind_suffix _ _ _ _).trans hr')
        (hcommits hc hc') (hcommits hc' hc)

/-! ### Repetition -/

variable {ts : List Token} {finish : Lexeme}

theorem determined_many {stop : Option TokenKind → Bool} {r : Rule α} (hr : r.Consumes)
    (h : r.Determined []) : (many stop r hr).Determined [] := by
  refine ⟨blames_many hr h.blames, fun finish finish' seen behind behind' => ?_⟩
  induction hn : seen.length using Nat.strongRecOn generalizing seen with
  | _ n ih =>
    cases seen with
    | nil => exact alike_nil (blames_many hr h.blames)
    | cons t seen =>
      by_cases hstop : stop (some t.kind) = true
      · rw [List.cons_append, List.cons_append, many_run_of_stop hstop, many_run_of_stop hstop]
        exact .ok [] (t :: seen)
      · rw [List.cons_append, List.cons_append, many_run_of_go hstop, many_run_of_go hstop]
        apply alike_bind (h.alike finish finish' (t :: seen) behind behind')
        · intro a left hok
          -- The rule has read something, so fewer common tokens are left.
          have hlt : (left ++ behind).length < ((t :: seen) ++ behind).length :=
            hr finish _ a _ hok
          have hleft : left.length < n := by
            rw [List.length_append, List.length_append] at hlt
            omega
          apply alike_bind (ih left.length hleft left rfl)
          · intro as left' _
            exact .ok (a :: as) left'
          · intro as
            exact blames_pure _
        · intro a
          exact (blames_many hr h.blames).bind fun _ => blames_pure _

end Rule

namespace Grammar

open Rule Reply

/-! ## The rules of the grammar -/

theorem determined_chain {ops : List BinaryOp} {operand : Rule Expr} (h : operand.Determined [])
    (lhs : Expr) : (chain ops operand lhs).Determined [] := by
  refine ⟨blames_chain h.blames lhs, fun finish finish' seen behind behind' => ?_⟩
  induction hn : seen.length using Nat.strongRecOn generalizing seen lhs with
  | _ n ih =>
    cases seen with
    | nil => exact alike_nil (blames_chain h.blames lhs)
    | cons t seen =>
      rw [List.cons_append, List.cons_append]
      cases hop : t.kind.symbol?.bind (BinaryOp.among ops) with
      | none =>
        rw [chain_run_of_none hop, chain_run_of_none hop]
        exact .ok lhs (t :: seen)
      | some op =>
        rw [chain_run_of_some hop, chain_run_of_some hop]
        apply alike_bind (h.alike finish finish' seen behind behind')
        · intro rhs left hok
          have hle := operand.length_le finish (seen ++ behind)
          rw [hok, rest_ok, List.length_append, List.length_append] at hle
          refine ih left.length ?_ _ left rfl
          rw [← hn, List.length_cons]
          omega
        · intro rhs
          exact blames_chain h.blames _

theorem determined_leftAssociative {level : Level} {operand : Rule Expr}
    (h : operand.Determined []) : (leftAssociative level operand).Determined [] := by
  apply Determined.take?
  · intro op t
    exact h.bind_failAt (.inl rfl) t
  · apply h.bind
    intro lhs
    exact determined_chain h lhs

/-- Whether the rules of the next level read alike what begins alike. -/
structure InnerDetermined (inner : Inner) : Prop where
  expression : inner.expression.Determined []
  assignment : inner.assignment.Determined []
  unary : inner.unary.Determined []

variable {inner : Inner}

theorem determined_primary (hi : InnerDetermined inner) : (primary inner).Determined [] := by
  apply determined_peek.bind
  intro next
  split
  · exact determined_fail _
  · split
    · exact determined_skip.bind fun _ => determined_pure _
    · apply Determined.takeKind?
      · intro opening
        apply (hi.expression.behind _).bind
        intro e
        exact (determined_expect _ _).bind fun _ => determined_pure _
      · exact determined_fail _

theorem determined_unary (hi : InnerDetermined inner) : (unary inner).Determined [] := by
  apply Determined.take?
  · intro op t
    exact (hi.unary.behind _).bind fun _ => determined_pure _
  · exact determined_primary hi

theorem determined_equality (hi : InnerDetermined inner) : (equality inner).Determined [] :=
  determined_leftAssociative <| determined_leftAssociative <| determined_leftAssociative <|
    determined_leftAssociative <| determined_unary hi

theorem determined_ternary (hi : InnerDetermined inner) : (ternary inner).Determined [] := by
  apply (determined_equality hi).bind
  intro condition
  apply Determined.takeKind?
  · intro question
    apply (hi.expression.behind _).bind
    intro success
    apply (determined_expect _ _).bind
    intro colon
    exact (determined_equality hi).bind fun failure => determined_pure _
  · exact determined_pure _

theorem determined_assignment (hi : InnerDetermined inner) : (assignment inner).Determined [] := by
  apply (determined_ternary hi).bind
  intro target
  apply Determined.takeKind?
  · intro equals
    -- Whether the target is a name has been decided before the value is read.
    cases target with
    | name site => exact (hi.assignment.behind _).bind fun value => determined_pure _
    | _ => exact hi.assignment.bind_failAt (.inr rfl) equals
  · exact determined_pure _

theorem determined_comma (hi : InnerDetermined inner) : (comma inner).Determined [] := by
  apply (determined_assignment hi).bind
  intro lhs
  exact determined_chain (determined_assignment hi) lhs

theorem inner_determined (room : Nat) : InnerDetermined (Grammar.inner room) := by
  induction room with
  | zero => exact ⟨determined_fail _, determined_fail _, determined_fail _⟩
  | succ room ih =>
    exact ⟨determined_comma ih, determined_assignment ih, determined_unary ih⟩

theorem determined_variableDeclaration {expression : Rule Expr} (h : expression.Determined []) :
    (variableDeclaration expression).Determined [] := by
  apply (determined_expect _ _).bind
  intro site
  apply Determined.takeKind?
  · intro equals
    apply ((h.map _).behind _).bind
    intro initial
    exact (determined_expect _ _).bind fun _ => determined_pure _
  · apply (determined_pure _).bind
    intro initial
    exact (determined_expect _ _).bind fun _ => determined_pure _

theorem determined_terminated {expression : Rule Expr} (h : expression.Determined [])
    (what : Terminated) : (terminated expression what).Determined [] := by
  apply h.bind
  intro e
  exact (determined_expect _ _).bind fun _ => determined_pure _

theorem determined_statement {block : Rule Stmt} {expression : Rule Expr}
    (hb : block.Determined []) (he : expression.Determined []) :
    (statement block expression).Determined [] := by
  apply determined_peek.bind
  intro next
  split
  · exact determined_skip.bind fun _ => determined_variableDeclaration he
  · exact determined_skip.bind fun _ => (determined_terminated he _).map _
  · exact determined_skip.bind fun _ => hb
  · exact (determined_terminated he _).map _

theorem determined_declarationWithin (room : Nat) : (declarationWithin room).1.Determined [] := by
  induction room with
  | zero => exact determined_statement (determined_fail _) (inner_determined 0).expression
  | succ room ih =>
    refine determined_statement ?_ (inner_determined _).expression
    apply (determined_many _ ih).bind
    intro body
    exact (determined_expect _ _).bind fun _ => determined_pure _

end Grammar

end Lox
