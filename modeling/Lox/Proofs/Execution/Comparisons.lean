import Lox.Proofs.Text.ByteOrder
import Lox.Value

/-!
# The order of strings

Each of the four comparisons is an operation of its own, and so are equality and addition. Between
strings all of them speak of one order. It is total, it is the lexicographic order of the bytes and
that of the code points at once (`Lox.Proofs.Text.ByteOrder`), and it takes no notice of what two
strings both begin with.

Between strings a comparison always has an answer (`Value.Answers`), while for values of different
kinds it has none.
-/

set_option autoImplicit false

namespace Lox

/-! ## Texts put together -/

theorem append_lt_append_left_iff (s t u : String) : u ++ s < u ++ t ↔ s < t := by
  have h := lt_iff_of_mono (f := (u.toList ++ ·)) (fun _ _ => List.append_left_lt) s.toList t.toList
  simp only [← String.toList_append] at h
  exact h

theorem not_append_lt (s t : String) : ¬s ++ t < s := by
  show ¬(s ++ t).toList < s.toList
  rw [String.toList_append]
  exact List.not_lt.mpr List.le_append_left

theorem not_lt_iff (s t : String) : ¬t < s ↔ s < t ∨ s = t := by
  have h : ¬t.toList < s.toList ↔ s.toList < t.toList ∨ s.toList = t.toList :=
    List.not_lt.trans List.le_iff_lt_or_eq
  rw [String.toList_inj] at h
  exact h

/-- Of three things exactly one is so. -/
def ExactlyOne (p q r : Prop) : Prop := p ∧ ¬q ∧ ¬r ∨ ¬p ∧ q ∧ ¬r ∨ ¬p ∧ ¬q ∧ r

theorem exactlyOne_lt (s t : String) : ExactlyOne (s < t) (s = t) (t < s) := by
  by_cases hlt : s < t
  · refine .inl ⟨hlt, ?_, String.lt_asymm hlt⟩
    rintro rfl
    exact String.lt_irrefl s hlt
  by_cases hgt : t < s
  · exact .inr (.inr ⟨hlt, fun h => hlt (h ▸ hgt), hgt⟩)
  · exact .inr (.inl ⟨hlt, ((not_lt_iff s t).mp hgt).resolve_left hlt, hgt⟩)

namespace Value

/-! ## Answers -/

/-- The comparison has an answer, and the answer is yes exactly if `p`. -/
def Answers (result : Except RuntimeFault Value) (p : Prop) : Prop :=
  ∃ yes : Bool, result = .ok (.bool yes) ∧ (yes = true ↔ p)

theorem answers_decide (p : Prop) [Decidable p] : Answers (.ok (.bool (decide p))) p :=
  ⟨_, rfl, decide_eq_true_iff⟩

theorem Answers.congr {result : Except RuntimeFault Value} {p q : Prop} (h : Answers result p)
    (hpq : p ↔ q) : Answers result q := by
  obtain ⟨yes, hyes, hp⟩ := h
  exact ⟨yes, hyes, hp.trans hpq⟩

theorem Answers.eq_true_iff {result : Except RuntimeFault Value} {p : Prop}
    (h : Answers result p) : result = .ok (.bool true) ↔ p := by
  obtain ⟨yes, rfl, hp⟩ := h
  rw [Except.ok.injEq, bool.injEq, hp]

/-! ## Strings -/

/-- The comparison finds that `a` comes before `b`. -/
def Precedes (a b : String) : Prop := (string a).less (string b) = .ok (.bool true)

/-- The strings are found to be equal. -/
def Same (a b : String) : Prop := (string a).equal (string b) = true

theorem answers_less (a b : String) : Answers ((string a).less (string b)) (a < b) :=
  answers_decide _

theorem answers_lessEqual (a b : String) :
    Answers ((string a).lessEqual (string b)) (¬b < a) :=
  (answers_decide (a ≤ b)).congr String.not_lt.symm

theorem answers_greater (a b : String) : Answers ((string a).greater (string b)) (b < a) :=
  answers_decide _

theorem answers_greaterEqual (a b : String) :
    Answers ((string a).greaterEqual (string b)) (¬a < b) :=
  (answers_decide (b ≤ a)).congr String.not_lt.symm

theorem precedes_iff (a b : String) : Precedes a b ↔ a < b := (answers_less a b).eq_true_iff

theorem same_iff (a b : String) : Same a b ↔ a = b := beq_iff_eq

/-- What the comparisons find between three strings. -/
structure OrdersStrings (a b c : String) : Prop where
  less_bytes : Answers ((string a).less (string b)) (utf8Bytes a < utf8Bytes b)
  less_codePoints : Answers ((string a).less (string b)) (codePoints a < codePoints b)
  exactlyOne : ExactlyOne (Precedes a b) (Same a b) (Precedes b a)
  trans : Precedes a b → Precedes b c → Precedes a c
  lessEqual : Answers ((string a).lessEqual (string b)) (Precedes a b ∨ Same a b)
  greater : Answers ((string a).greater (string b)) (Precedes b a)
  greaterEqual : Answers ((string a).greaterEqual (string b)) (¬Precedes a b)
  /-- What is put before both strings makes no difference. -/
  add_less_add : (do (← (string c).add (string a)).less (← (string c).add (string b))) =
    (string a).less (string b)
  /-- No string is greater than one that it begins. -/
  lessEqual_add : (do (string a).lessEqual (← (string a).add (string b))) = .ok (.bool true)

/-- **The comparisons of strings agree.** Whatever strings are compared, every comparison has an
answer, and the answers are those of one total order. -/
theorem ordersStrings (a b c : String) : OrdersStrings a b c := by
  have hab := precedes_iff a b
  have hba := precedes_iff b a
  have hsame := same_iff a b
  constructor
  · exact (answers_less a b).congr (utf8Bytes_lt_iff a b).symm
  · exact (answers_less a b).congr (codePoints_lt_iff a b).symm
  · rw [hab, hsame, hba]
    exact exactlyOne_lt a b
  · rw [hab, precedes_iff, precedes_iff]
    exact String.lt_trans
  · rw [hab, hsame]
    exact (answers_lessEqual a b).congr (not_lt_iff a b)
  · exact (answers_greater a b).congr hba.symm
  · exact (answers_greaterEqual a b).congr (not_congr hab.symm)
  · show (string (c ++ a)).less (string (c ++ b)) = (string a).less (string b)
    show Except.ok (bool (decide (c ++ a < c ++ b))) = Except.ok (bool (decide (a < b)))
    rw [decide_eq_decide.mpr (append_lt_append_left_iff a b c)]
  · show (string a).lessEqual (string (a ++ b)) = .ok (.bool true)
    exact (answers_lessEqual a (a ++ b)).eq_true_iff.mpr (not_append_lt a b)

end Value

end Lox
