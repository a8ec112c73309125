import Mathlib.Logic.Relation

/-!
# Computations that may fail

A computation has a result and leaves a state, and it leaves one when it fails, too. What is said
here of computations holds of one that is made of two, if it holds of both: which changes it can
make (`Leads`), which differences it cannot see (`Respects`), and how it can fail (`FailsOnly`).
Each of these has a lemma for every way in which computations are put together.
-/

set_option autoImplicit false

namespace Lox

section

variable {ε σ τ α β : Type}

/-- The state that a computation leaves, whether it has failed or not. -/
def finalState : EStateM.Result ε σ α → σ
  | .ok _ s => s
  | .error _ s => s

@[simp] theorem finalState_ok (a : α) (s : σ) :
    finalState (.ok a s : EStateM.Result ε σ α) = s := rfl

@[simp] theorem finalState_error (e : ε) (s : σ) :
    finalState (.error e s : EStateM.Result ε σ α) = s := rfl

variable {x : EStateM ε σ α} {k : α → EStateM ε σ β}

/-- A computation goes on with the value and the state that have been reached. -/
theorem bind_of_ok {s s' : σ} {a : α} (h : x s = .ok a s') : (x >>= k) s = k a s' := by
  show EStateM.bind x k s = _
  rw [EStateM.bind, h]

/-- A failure is final: what should have come next is not looked at. -/
theorem bind_of_error {s s' : σ} {e : ε} (h : x s = .error e s') :
    (x >>= k) s = .error e s' := by
  show EStateM.bind x k s = _
  rw [EStateM.bind, h]

/-- What is done with a result afterwards does not change the state if it is no computation. -/
theorem finalState_bind_ofExcept (r : α → Except ε β) (s : σ) :
    finalState ((x >>= fun a => ofExcept (r a)) s) = finalState (x s) := by
  cases h : x s with
  | ok a s' =>
    rw [bind_of_ok h]
    cases r a <;> rfl
  | error e s' => rw [bind_of_error h, finalState_error, finalState_error]

/-! ## What becomes of the state -/

/-- Whatever a computation does to what is seen of the state, it does by steps of `R`. -/
def Leads (view : σ → τ) (R : τ → τ → Prop) (x : EStateM ε σ α) : Prop :=
  ∀ s, Relation.ReflTransGen R (view s) (view (finalState (x s)))

section

variable {view : σ → τ} {R R' : τ → τ → Prop}

/-- What is done by steps of one kind is done by steps of any more general kind. -/
theorem Leads.mono (hx : Leads view R x) (h : ∀ t t', R t t' → R' t t') : Leads view R' x :=
  fun s => Relation.ReflTransGen.mono h _ _ (hx s)

theorem leads_pure (a : α) : Leads view R (pure a : EStateM ε σ α) := fun _ => .refl

/-- Two computations in a row lead where the second leads from what the first has left; if the
first fails, nothing is added to its steps. -/
theorem Leads.bind (hx : Leads view R x) (hk : ∀ a, Leads view R (k a)) :
    Leads view R (x >>= k) := by
  intro s
  have hs := hx s
  cases hrun : x s with
  | ok a s' =>
    rw [hrun] at hs
    rw [bind_of_ok hrun]
    exact hs.trans (hk a s')
  | error e s' =>
    rw [hrun] at hs
    rwa [bind_of_error hrun]

theorem leads_ofExcept (r : Except ε α) : Leads view R (ofExcept r : EStateM ε σ α) := by
  intro s
  cases r <;> exact .refl

/-- A change of the state leads where its effect on the view does. -/
theorem leads_modify {g : σ → σ} (h : ∀ s, Relation.ReflTransGen R (view s) (view (g s))) :
    Leads view R (modify g : EStateM ε σ PUnit) := h

end

/-! ## What does not matter to a computation -/

/-- Two results with the same value or the same error, and states that `R` relates. -/
inductive SameResult (R : σ → σ → Prop) :
    EStateM.Result ε σ α → EStateM.Result ε σ α → Prop where
  | ok (a : α) {s s' : σ} (h : R s s') : SameResult R (.ok a s) (.ok a s')
  | error (e : ε) {s s' : σ} (h : R s s') : SameResult R (.error e s) (.error e s')

/-- A computation that cannot tell states apart that `R` relates. -/
def Respects (R : σ → σ → Prop) (x : EStateM ε σ α) : Prop :=
  ∀ s s', R s s' → SameResult R (x s) (x s')

section

variable {R : σ → σ → Prop}

theorem respects_pure (a : α) : Respects R (pure a : EStateM ε σ α) := fun _ _ h => .ok a h

/-- If the first computation cannot tell two states apart, it hands the same value on, and states
that are still related; or it fails in both with the same error. -/
theorem Respects.bind (hx : Respects R x) (hk : ∀ a, Respects R (k a)) :
    Respects R (x >>= k) := by
  intro s s' h
  have hs := hx s s' h
  cases hrun : x s with
  | ok a t =>
    rw [hrun] at hs
    generalize hrun' : x s' = r at hs
    cases hs with
    | ok _ ht =>
      rw [bind_of_ok hrun, bind_of_ok hrun']
      exact hk a _ _ ht
  | error e t =>
    rw [hrun] at hs
    generalize hrun' : x s' = r at hs
    cases hs with
    | error _ ht =>
      rw [bind_of_error hrun, bind_of_error hrun']
      exact .error e ht

theorem respects_ofExcept (r : Except ε α) : Respects R (ofExcept r : EStateM ε σ α) := by
  intro s s' h
  cases r with
  | ok a => exact .ok a h
  | error e => exact .error e h

/-- A change that keeps states related is not told apart by its result, which is none. -/
theorem respects_modify {g : σ → σ} (h : ∀ s s', R s s' → R (g s) (g s')) :
    Respects R (modify g : EStateM ε σ PUnit) :=
  fun s s' hs => .ok PUnit.unit (h s s' hs)

end

/-! ## How a computation fails -/

/-- Whenever a computation fails, `Q` says what the error has to do with the state it leaves. -/
def FailsOnly (Q : ε → σ → Prop) (x : EStateM ε σ α) : Prop :=
  ∀ s e s', x s = .error e s' → Q e s'

section

variable {Q : ε → σ → Prop}

theorem failsOnly_pure (a : α) : FailsOnly Q (pure a : EStateM ε σ α) := by
  intro s e s' h
  cases h

theorem failsOnly_modify (g : σ → σ) : FailsOnly Q (modify g : EStateM ε σ PUnit) := by
  intro s e s' h
  cases h

/-- A failure that comes from outside leaves the state as it was found. -/
theorem failsOnly_ofExcept {r : Except ε α} (h : ∀ e s, r = .error e → Q e s) :
    FailsOnly Q (ofExcept r : EStateM ε σ α) := by
  intro s e s' herror
  cases r with
  | ok a => cases herror
  | error e' =>
    cases herror
    exact h e s rfl

/-- A failure of two computations in a row is one of the first or one of the second. -/
theorem FailsOnly.bind (hx : FailsOnly Q x) (hk : ∀ a, FailsOnly Q (k a)) :
    FailsOnly Q (x >>= k) := by
  intro s e s' h
  cases hrun : x s with
  | ok a t =>
    rw [bind_of_ok hrun] at h
    exact hk a t e s' h
  | error e' t =>
    rw [bind_of_error hrun] at h
    cases h
    exact hx s e s' hrun

end

end

end Lox
