import Mathlib.Data.Nat.Find
import Mathlib.Data.Nat.SuccPred
import Mathlib.Order.Bounds.Basic
import Mathlib.Order.Interval.Set.Monotone
import Lox.Proofs.Grammar.Progress

/-!
# Where recovery stops

A parser that recovers from an error goes on to where the next statement may begin, and this can be
told from the tokens at and before that place: there is the end, or a semicolon has just gone by,
or there is one of eight words (`Boundary`). Recovery goes to the first such place behind the one it
begins at. It always takes a first step, so where it begins at a boundary it leaves it; only at the
end it stays.

The place is found in the token sequence first (`Grammar.synchronize_isLeast`), which is an
induction over the tokens. The machine then has no choice, since it stands before the tokens that
are left there (`Parser.synchronize_apply`).
-/

set_option autoImplicit false

namespace Lox

/-! ## Boundaries -/

/-- The words before which recovery stops. -/
def statementWords : List Keyword :=
  [.classWord, .funWord, .varWord, .forWord, .ifWord, .whileWord, .printWord, .returnWord]

theorem startsStatement_iff_mem (k : Keyword) : k.startsStatement = true ↔ k ∈ statementWords := by
  cases k <;> decide

/-- There is the end at position `i`. -/
def IsEnd (slots : List Slot) (i : Nat) : Prop := ∃ site, slots[i]? = some (.finish site)

/-- Position `i` is one where a statement may begin, or the end. -/
inductive Boundary (slots : List Slot) : Nat → Prop where
  | atEnd {i : Nat} (h : IsEnd slots i) : Boundary slots i
  | behindSemicolon {i : Nat} {t : Token} (h : slots[i]? = some (.token t))
      (hkind : t.kind = .symbol .semicolon) : Boundary slots (i + 1)
  | beforeWord {i : Nat} {t : Token} {k : Keyword} (h : slots[i]? = some (.token t))
      (hkind : t.kind = .keyword k) (hk : k ∈ statementWords) : Boundary slots i

section

variable {slots slots' : List Slot} {c i j : Nat}

/-- Whether a position is a boundary depends on what stands there and what stands right before. -/
theorem Boundary.congr (h : Boundary slots (i + 1)) (hbefore : slots'[j]? = slots[i]?)
    (hhere : slots'[j + 1]? = slots[i + 1]?) : Boundary slots' (j + 1) := by
  cases h with
  | atEnd h =>
    obtain ⟨site, hsite⟩ := h
    exact .atEnd ⟨site, hhere.trans hsite⟩
  | behindSemicolon h hkind => exact .behindSemicolon (hbefore.trans h) hkind
  | beforeWord h hkind hk => exact .beforeWord (hhere.trans h) hkind hk

theorem boundary_drop_iff (slots : List Slot) (c i : Nat) :
    Boundary (slots.drop c) (i + 1) ↔ Boundary slots (c + i + 1) := by
  have hslot (k : Nat) : (slots.drop c)[k]? = slots[c + k]? := List.getElem?_drop
  exact ⟨fun h => h.congr (hslot i).symm (hslot (i + 1)).symm,
    fun h => h.congr (hslot i) (hslot (i + 1))⟩

theorem boundary_cons_iff (slot : Slot) :
    Boundary (slot :: slots) (i + 1 + 1) ↔ Boundary slots (i + 1) :=
  ⟨fun h => h.congr rfl rfl, fun h => h.congr rfl rfl⟩

/-- The first boundary behind a position is the first one in what there is from there on. -/
theorem isLeast_of_drop (h : IsLeast {j | 0 < j ∧ Boundary (slots.drop c) j} i) :
    IsLeast {j | c < j ∧ Boundary slots j} (c + i) := by
  obtain ⟨⟨hpos, hboundary⟩, hleast⟩ := h
  obtain ⟨i, rfl⟩ := Nat.exists_eq_add_one_of_ne_zero (Nat.ne_of_gt hpos)
  refine ⟨⟨Nat.lt_add_of_pos_right hpos, (boundary_drop_iff slots c i).mp hboundary⟩, ?_⟩
  rintro j ⟨hj, hother⟩
  obtain ⟨j, rfl⟩ := Nat.exists_eq_add_of_lt hj
  have hdropped := (boundary_drop_iff slots c j).mpr hother
  exact Nat.add_le_add_left (hleast ⟨Nat.succ_pos j, hdropped⟩) c

end

/-- Where a parser comes to that recovers at position `c`. -/
structure NextBoundary (slots : List Slot) (c i : Nat) : Prop where
  stays : IsEnd slots c → i = c
  isLeast : ¬IsEnd slots c → IsLeast {j | c < j ∧ Boundary slots j} i

theorem NextBoundary.lt {slots : List Slot} {c i : Nat} (h : NextBoundary slots c i)
    (hne : ¬IsEnd slots c) : c < i :=
  (h.isLeast hne).1.1

/-! ## Recovery among tokens -/

namespace Grammar

/-- Whether recovery stops between `t` and what follows it. -/
theorem boundary_one_iff {finish : Lexeme} {t next : Token} {ts : List Token} :
    Boundary ((t :: next :: ts).map .token ++ [.finish finish]) 1 ↔
      t.kind = .symbol .semicolon ∨ startsStatement next = true := by
  constructor
  · intro h
    cases h with
    | atEnd h =>
      obtain ⟨_, ⟨⟩⟩ := h
    | behindSemicolon h hkind =>
      cases h
      exact .inl hkind
    | beforeWord h hkind hk =>
      cases h
      rw [startsStatement, hkind]
      exact .inr ((startsStatement_iff_mem _).mpr hk)
  · rintro (hkind | hnext)
    · exact .behindSemicolon rfl hkind
    · rw [startsStatement] at hnext
      split at hnext
      · rename_i k hkind
        exact .beforeWord rfl hkind ((startsStatement_iff_mem k).mp hnext)
      · cases hnext

/-- Recovery drops the tokens up to the first boundary behind their beginning. -/
theorem synchronize_isLeast (finish : Lexeme) (t : Token) (ts : List Token) :
    ∃ i, synchronize (t :: ts) = (t :: ts).drop i ∧ i ≤ (t :: ts).length ∧
      IsLeast {j | 0 < j ∧ Boundary ((t :: ts).map .token ++ [.finish finish]) j} i := by
  induction ts generalizing t with
  | nil =>
    refine ⟨1, ?_, Nat.le_refl _, ⟨Nat.one_pos, .atEnd ⟨finish, rfl⟩⟩, fun j hj => hj.1⟩
    simp [synchronize]
  | cons next ts ih =>
    by_cases hstop : t.kind = .symbol .semicolon ∨ startsStatement next = true
    · refine ⟨1, if_pos hstop, by simp, ⟨Nat.one_pos, ?_⟩, fun j hj => hj.1⟩
      exact boundary_one_iff.mpr hstop
    · -- There is no boundary before `next`, so the first one behind it is the first one behind `t`.
      have hgo : synchronize (t :: next :: ts) = synchronize (next :: ts) := if_neg hstop
      obtain ⟨i, hdrop, hle, ⟨hpos, hboundary⟩, hleast⟩ := ih next
      obtain ⟨i, rfl⟩ := Nat.exists_eq_add_one_of_ne_zero (Nat.ne_of_gt hpos)
      refine ⟨i + 1 + 1, hgo.trans hdrop, Nat.succ_le_succ hle,
        ⟨Nat.succ_pos _, (boundary_cons_iff _).mpr hboundary⟩, ?_⟩
      rintro j ⟨hj, hother⟩
      rcases j with _ | _ | j
      · exact absurd hj (Nat.lt_irrefl 0)
      · exact absurd (boundary_one_iff.mp hother) hstop
      · exact Nat.succ_le_succ (hleast ⟨Nat.succ_pos j, (boundary_cons_iff _).mp hother⟩)

end Grammar

namespace Parser

/-- The parser where nothing is left but the tokens `rest`. -/
def facing (p : Parser) (rest : List Token) : Parser :=
  { p with current := p.slots.length - (rest.length + 1) }

section

variable {p p' : Parser} {finish : Lexeme} {ts rest : List Token}

theorem Faces.current_add (h : p.Faces finish ts) :
    p.current + (ts.length + 1) = p.slots.length := by
  have hleft := h.left
  have hlt := h.current_lt
  rw [Parser.left] at hleft
  omega

/-- What a parser has come to can be told from the tokens that are left. -/
theorem Faces.eq_facing (h : p'.Faces finish rest) (hbefore : p.Before p') :
    p' = p.facing rest := by
  show p' = ⟨p.slots, p.slots.length - (rest.length + 1), p.depth⟩
  rw [← hbefore.slots, ← hbefore.depth, ← h.current_add, Nat.add_sub_cancel]

/-! ## Recovery, once and again -/

theorem synchronize_facing (h : p.Faces finish ts) :
    synchronize p = some ((), p.facing (Grammar.synchronize ts)) ∧
      (p.facing (Grammar.synchronize ts)).Faces finish (Grammar.synchronize ts) := by
  obtain ⟨p', hx, hfaces, hbefore⟩ := synchronize_apply h
  rw [hfaces.eq_facing hbefore] at hx hfaces
  exact ⟨hx, hfaces⟩

theorem Faces.nextBoundary (h : p.Faces finish ts) :
    NextBoundary p.slots p.current (p.facing (Grammar.synchronize ts)).current := by
  have hcurrent := h.current_add
  cases ts with
  | nil =>
    have hend : IsEnd p.slots p.current := ⟨finish, h.getElem?_nil⟩
    exact ⟨fun _ => (Nat.eq_sub_of_add_eq hcurrent).symm, fun hne => absurd hend hne⟩
  | cons t ts =>
    have hne : ¬IsEnd p.slots p.current := by
      rintro ⟨site, hsite⟩
      rw [h.getElem?_cons] at hsite
      cases hsite
    obtain ⟨i, hdrop, hle, hleast⟩ := Grammar.synchronize_isLeast finish t ts
    have hi : (p.facing (Grammar.synchronize (t :: ts))).current = p.current + i := by
      show p.slots.length - ((Grammar.synchronize (t :: ts)).length + 1) = _
      rw [hdrop, List.length_drop]
      omega
    rw [← h] at hleast
    rw [hi]
    exact ⟨fun hend => absurd hend hne, fun _ => isLeast_of_drop hleast⟩

theorem callAll_synchronize (h : p.Faces finish ts) (k : Nat) :
    callAll (List.replicate k .synchronize) p =
        some (List.replicate k .synchronized, p.facing (Grammar.synchronize^[k] ts)) ∧
      (p.facing (Grammar.synchronize^[k] ts)).Faces finish (Grammar.synchronize^[k] ts) := by
  induction k generalizing p ts with
  | zero =>
    have hself : p = p.facing ts := h.eq_facing (.refl p)
    exact ⟨congrArg (fun q => some ([], q)) hself, hself ▸ h⟩
  | succ k ih =>
    obtain ⟨hx, hfaces⟩ := synchronize_facing h
    obtain ⟨hrest, hfaces'⟩ := ih hfaces
    refine ⟨?_, hfaces'⟩
    rw [List.replicate_succ, callAll, bind_apply, call, bind_apply, hx, Option.bind_some]
    show (callAll (List.replicate k .synchronize) >>= _) (p.facing (Grammar.synchronize ts)) = _
    rw [bind_apply, hrest]
    rfl

end

/-- Positions that go on until there is the end, and stay there, reach it. -/
theorem exists_last {positions : Nat → Nat} (ends : Nat → Prop) {bound : Nat}
    (hbound : ∀ k, positions k < bound)
    (hstays : ∀ k, ends (positions k) → positions (k + 1) = positions k)
    (hgoes : ∀ k, ¬ends (positions k) → positions k < positions (k + 1)) :
    ∃ last, StrictMonoOn positions (Set.Iic last) ∧ ends (positions last) ∧
      ∀ k, last ≤ k → positions k = positions last := by
  classical
  have hex : ∃ k, ends (positions k) := by
    -- Positions that go on for ever do not have a bound.
    by_contra hnone
    have hmono : StrictMono positions :=
      strictMono_nat_of_lt_succ fun k => hgoes k fun h => hnone ⟨k, h⟩
    exact absurd (hmono.le_apply (x := bound)) (Nat.not_le.mpr (hbound bound))
  have hlast := Nat.find_spec hex
  refine ⟨Nat.find hex, ?_, hlast, fun k hk => ?_⟩
  · exact strictMonoOn_Iic_of_lt_succ fun k hk => hgoes k (Nat.find_min hex hk)
  · induction k, hk using Nat.le_induction with
    | base => rfl
    | succ k hk ih => exact (hstays k (ih ▸ hlast)).trans ih

/-- What becomes of a parser that recovers, once or again and again. Only its position changes. -/
structure SeeksBoundaries (p : Parser) : Prop where
  once : ∃ i, synchronize p = some ((), { p with current := i }) ∧
    NextBoundary p.slots p.current i
  again : ∃ (positions : Nat → Nat) (last : Nat),
    (∀ k, callAll (List.replicate k .synchronize) p =
      some (List.replicate k .synchronized, { p with current := positions k })) ∧
    positions 0 = p.current ∧
    (∀ k, NextBoundary p.slots (positions k) (positions (k + 1))) ∧
    StrictMonoOn positions (Set.Iic last) ∧ IsEnd p.slots (positions last) ∧
    ∀ k, last ≤ k → positions k = positions last

theorem Faces.seeksBoundaries {p : Parser} {finish : Lexeme} {ts : List Token}
    (h : p.Faces finish ts) : p.SeeksBoundaries := by
  let positions (k : Nat) : Nat := (p.facing (Grammar.synchronize^[k] ts)).current
  have hcall (k : Nat) := callAll_synchronize h k
  have hzero : positions 0 = p.current := congrArg current (h.eq_facing (.refl p)).symm
  have hnext (k : Nat) : NextBoundary p.slots (positions k) (positions (k + 1)) := by
    show NextBoundary p.slots (positions k) (p.facing (Grammar.synchronize^[k + 1] ts)).current
    rw [Function.iterate_succ_apply']
    exact (hcall k).2.nextBoundary
  have hbound (k : Nat) : positions k < p.slots.length := (hcall k).2.current_lt
  obtain ⟨last, hlast⟩ := exists_last (IsEnd p.slots) hbound (fun k => (hnext k).stays)
    fun k => (hnext k).lt
  exact ⟨⟨_, (synchronize_facing h).1, h.nextBoundary⟩,
    positions, last, fun k => (hcall k).1, hzero, hnext, hlast⟩

/-- **Recovery stops at the next boundary and nowhere else.** A parser for what has been scanned, or
for a beginning of it, that recovers at any of its positions comes to the first boundary behind
that position, if it is not at the end. If it recovers again and again it gets on every time until
it has come to the end, where it stays. -/
theorem synchronize_seeksBoundaries (source : String) (n c depth : Nat)
    (hc : c < (new ((Scan.ofString source).slots.take n)).slots.length) :
    SeeksBoundaries
      { new ((Scan.ofString source).slots.take n) with current := c, depth := depth } := by
  have hfaces : Faces
      { new ((Scan.ofString source).slots.take n) with current := c, depth := depth }
      ((Scan.ofString source).take n).2 (((Scan.ofString source).take n).1.drop c) :=
    (faces_new_take (Scan.ofString source) n).at_position rfl hc
  exact hfaces.seeksBoundaries

/-- A text that is cut off behind its second semicolon. -/
theorem synchronize_seeksBoundaries_semicolons :
    1 < (new ((Scan.ofString "if print 1;; fun").slots.take 5)).slots.length ∧
      SeeksBoundaries
        { new ((Scan.ofString "if print 1;; fun").slots.take 5) with
          current := 1, depth := 0 } := by
  have hc : 1 < (new ((Scan.ofString "if print 1;; fun").slots.take 5)).slots.length := by
    decide +kernel
  exact ⟨hc, synchronize_seeksBoundaries _ 5 1 0 hc⟩

/-- The positions that a parser for all of it comes to. -/
example :
    [0, 1, 2, 3, 4, 5].map (fun k =>
      (callAll (List.replicate k .synchronize)
        (new (Scan.ofString "if print 1;; fun").slots)).map (·.2.current)) =
      [some 0, some 1, some 4, some 5, some 6, some 6] := by decide +kernel

end Parser

end Lox
