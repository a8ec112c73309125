import Std.Data.String.ToInt
import Lox.Number.Format
import Lox.Proofs.Numbers.Bits
import Lox.Proofs.Numbers.Shortest
import Lox.Proofs.Scanning.Cut

/-!
# The texts of number literals

A number literal is shown with some digits, a point and more digits, and an exponent, of which only
the first digits are always there. From the text these three can be recovered
(`NumberText.eq_of_chars_eq`), and from them the decimal that the text was made for
(`NumberFormat.writtenAs_literal`). That decimal is read as the number and as no other, so the text
determines the number (`NumberFormat.literal_text_injective`).
-/

set_option autoImplicit false

namespace Lox

/-! ## Digits -/

theorem digitsValue_append (xs ys : List Char) :
    digitsValue (xs ++ ys) = 10 ^ ys.length * digitsValue xs + digitsValue ys := by
  calc digitsValue (xs ++ ys) = Nat.ofDigitChars 10 ys (digitsValue xs) :=
        Nat.ofDigitChars_append 0
    _ = 10 ^ ys.length * digitsValue xs + digitsValue ys :=
        Nat.ofDigitChars_eq_ofDigitChars_zero

theorem digitsValue_replicate (n : ℕ) : digitsValue (List.replicate n '0') = 0 :=
  Nat.ofDigitChars_replicate_zero

theorem digitsValue_toDigits (n : ℕ) : digitsValue (Nat.toDigits 10 n) = n :=
  Nat.ofDigitChars_ten_toDigits

theorem isDigit_of_mem_toDigits {n : ℕ} {c : Char} (h : c ∈ Nat.toDigits 10 n) :
    c.isDigit = true := Nat.isDigit_of_mem_toDigits (by decide) (by decide) h

theorem isDigit_of_mem_replicate {n : ℕ} {c : Char} (h : c ∈ List.replicate n '0') :
    c.isDigit = true := by
  rw [List.eq_of_mem_replicate h]
  rfl

theorem length_toDigits (n : ℕ) : (Nat.toDigits 10 n).length = decimalLength n := by
  induction n using decimalLength.induct with
  | case1 n h => rw [Nat.toDigits_of_lt_base h, decimalLength_of_lt h, List.length_singleton]
  | case2 n h ih =>
    have hle := Nat.not_lt.mp h
    rw [Nat.toDigits_of_base_le (by decide) hle, decimalLength_of_le hle, List.length_append, ih,
      List.length_singleton]

/-! ## The parts of a text -/

/-- What is written in a number literal: the digits before the point and those behind it, which may
be none, and the exponent, if there is one. -/
structure NumberText where
  whole : List Char
  fraction : List Char
  exponent : Option ℤ

namespace NumberText

/-- The point and what is behind it. Without digits there is no point. -/
def pointed : List Char → List Char
  | [] => []
  | d :: fraction => '.' :: d :: fraction

/-- The mark of the exponent and the exponent. -/
def marked : Option ℤ → List Char
  | none => []
  | some e => 'e' :: e.repr.toList

/-- The characters of the text. -/
def chars (t : NumberText) : List Char := t.whole ++ (pointed t.fraction ++ marked t.exponent)

/-- What is written as digits is digits, and there is at least one. -/
structure Valid (t : NumberText) : Prop where
  ne_nil : t.whole ≠ []
  whole : ∀ c ∈ t.whole, c.isDigit = true
  fraction : ∀ c ∈ t.fraction, c.isDigit = true

/-- The decimal that the text denotes. -/
def decimal (t : NumberText) : Decimal :=
  ⟨digitsValue (t.whole ++ t.fraction), t.exponent.getD 0 - t.fraction.length⟩

variable {t t' : NumberText}

theorem head?_marked (e : Option ℤ) : ∀ c ∈ (marked e).head?, c = 'e' := by
  cases e with
  | none => intro c hc; cases hc
  | some e => intro c hc; exact (Option.some.inj hc).symm

theorem head?_tail (fraction : List Char) (e : Option ℤ) :
    ∀ c ∈ (pointed fraction ++ marked e).head?, c.isDigit = false := by
  intro c hc
  cases fraction with
  | nil =>
    rw [head?_marked e c hc]
    rfl
  | cons d fraction =>
    cases hc
    rfl

/-- Where one row of digits ends, so does the other. -/
theorem digits_append_inj {xs ys xs' ys' : List Char} (hxs : ∀ c ∈ xs, c.isDigit = true)
    (hys : ∀ c ∈ ys.head?, c.isDigit = false) (hxs' : ∀ c ∈ xs', c.isDigit = true)
    (hys' : ∀ c ∈ ys'.head?, c.isDigit = false) (h : xs ++ ys = xs' ++ ys') :
    xs = xs' ∧ ys = ys' := by
  have hrow : xs = xs' := by
    rw [← takeWhile_row hxs hys, h, takeWhile_row hxs' hys']
  subst hrow
  exact ⟨rfl, List.append_cancel_left h⟩

theorem marked_injective {e e' : Option ℤ} (h : marked e = marked e') : e = e' := by
  cases e with
  | none =>
    cases e' with
    | none => rfl
    | some e' => cases h
  | some e =>
    cases e' with
    | none => cases h
    | some e' => rw [Int.repr_injective (String.toList_injective (List.cons.inj h).2)]

/-- The parts of a text can be recovered. -/
theorem eq_of_chars_eq (ht : t.Valid) (ht' : t'.Valid) (h : t.chars = t'.chars) : t = t' := by
  obtain ⟨whole, fraction, e⟩ := t
  obtain ⟨whole', fraction', e'⟩ := t'
  obtain ⟨hwhole, htail⟩ :=
    digits_append_inj ht.whole (head?_tail fraction e) ht'.whole (head?_tail fraction' e') h
  have hdigit (e : Option ℤ) : ∀ c ∈ (marked e).head?, c.isDigit = false :=
    fun c hc => head?_marked e c hc ▸ rfl
  have hfraction : fraction = fraction' ∧ marked e = marked e' := by
    cases fraction with
    | nil =>
      cases fraction' with
      | nil => exact ⟨rfl, htail⟩
      | cons d' fraction' =>
        cases head?_marked e '.' (congrArg List.head? htail)
    | cons d fraction =>
      cases fraction' with
      | nil => cases head?_marked e' '.' (congrArg List.head? htail.symm)
      | cons d' fraction' =>
        exact digits_append_inj ht.fraction (hdigit e) ht'.fraction (hdigit e')
          (List.cons.inj htail).2
  rw [show whole = whole' from hwhole, hfraction.1, marked_injective hfraction.2]

/-- The characters that a text is made of. -/
theorem mem_chars (h : t.Valid) {c : Char} (hc : c ∈ t.chars) :
    c.isDigit = true ∨ c ∈ ['.', 'e', '-'] := by
  rcases List.mem_append.mp hc with hc | hc
  · exact .inl (h.whole c hc)
  · rcases List.mem_append.mp hc with hc | hc
    · have hfraction := h.fraction
      cases hf : t.fraction with
      | nil =>
        rw [hf] at hc
        cases hc
      | cons d fraction =>
        rw [hf] at hc hfraction
        rcases List.mem_cons.mp hc with rfl | hc
        · exact .inr (by decide)
        · exact .inl (hfraction c hc)
    · cases he : t.exponent with
      | none =>
        rw [he] at hc
        cases hc
      | some e =>
        rw [he, marked, Int.repr_eq_if] at hc
        rcases List.mem_cons.mp hc with rfl | hc
        · exact .inr (by decide)
        · split at hc
          · rw [Nat.toList_repr] at hc
            exact .inl (isDigit_of_mem_toDigits hc)
          · rw [String.toList_append, Nat.toList_repr] at hc
            rcases List.mem_append.mp hc with hc | hc
            · exact .inr (List.mem_of_mem_tail (List.mem_of_mem_tail hc))
            · exact .inl (isDigit_of_mem_toDigits hc)

theorem head_chars (h : t.Valid) : ∃ c cs, t.chars = c :: cs ∧ c.isDigit = true := by
  obtain ⟨c, cs, hcs⟩ := List.exists_cons_of_ne_nil h.ne_nil
  have hc : c ∈ t.whole := by
    rw [hcs]
    exact List.mem_cons_self
  exact ⟨c, _, by rw [chars, hcs, List.cons_append], h.whole c hc⟩

end NumberText

/-! ## How a decimal is written -/

/-- The text is one that denotes the decimal. -/
def Decimal.WrittenAs (d : Decimal) (text : String) : Prop :=
  ∃ t : NumberText, t.Valid ∧ text.toList = t.chars ∧ t.decimal.value = d.value

theorem NumberText.pointed_of_ne_nil {fraction : List Char} (h : fraction ≠ []) :
    pointed fraction = '.' :: fraction := by
  obtain ⟨d, fraction, rfl⟩ := List.exists_cons_of_ne_nil h
  rfl

/-- Zeros before the point are written as such, and one behind it. -/
theorem Decimal.writtenAs_whole (digits n : ℕ) :
    WrittenAs ⟨digits, .ofNat n⟩ (positional ⟨digits, .ofNat n⟩ ++ ".0") := by
  refine ⟨⟨Nat.toDigits 10 digits ++ List.replicate n '0', ['0'], none⟩, ⟨?_, ?_, ?_⟩, ?_, ?_⟩
  · exact List.append_ne_nil_of_left_ne_nil Nat.toDigits_ne_nil _
  · intro c hc
    rcases List.mem_append.mp hc with hc | hc
    · exact isDigit_of_mem_toDigits hc
    · exact isDigit_of_mem_replicate hc
  · exact fun c hc => List.mem_singleton.mp hc ▸ rfl
  · rw [positional, String.toList_append, String.toList_ofList, Nat.toList_repr]
    rfl
  · have hdigits : digitsValue (Nat.toDigits 10 digits ++ List.replicate n '0' ++ ['0']) =
        10 * (10 ^ n * digits) := by
      rw [digitsValue_append, digitsValue_append, digitsValue_toDigits, digitsValue_replicate,
        List.length_replicate]
      rfl
    rw [NumberText.decimal, value, value, hdigits]
    change ((10 * (10 ^ n * digits) : ℕ) : ℚ) * 10 ^ (-1 : ℤ) = digits * 10 ^ (n : ℤ)
    rw [zpow_neg_one, zpow_natCast]
    push_cast
    ring

/-- Behind the point there are as many digits as the exponent says, and one before it at least. -/
theorem Decimal.writtenAs_fraction (digits n : ℕ) :
    WrittenAs ⟨digits, .negSucc n⟩ (positional ⟨digits, .negSucc n⟩) := by
  obtain ⟨padded, hpadded⟩ : ∃ padded : List Char, padded =
      List.replicate (n + 1 + 1 - (Nat.toDigits 10 digits).length) '0' ++
        Nat.toDigits 10 digits := ⟨_, rfl⟩
  have hlength : n + 1 < padded.length := by
    rw [hpadded, List.length_append, List.length_replicate]
    omega
  have hdigit : ∀ c ∈ padded, c.isDigit = true := by
    intro c hc
    rw [hpadded] at hc
    rcases List.mem_append.mp hc with hc | hc
    · exact isDigit_of_mem_replicate hc
    · exact isDigit_of_mem_toDigits hc
  have hvalue : digitsValue padded = digits := by
    rw [hpadded, digitsValue_append, digitsValue_replicate, digitsValue_toDigits, Nat.mul_zero,
      Nat.zero_add]
  have hfraction : (padded.drop (padded.length - (n + 1))).length = n + 1 := by
    rw [List.length_drop]
    omega
  have hne : padded.drop (padded.length - (n + 1)) ≠ [] :=
    List.ne_nil_of_length_pos (by rw [hfraction]; exact Nat.succ_pos n)
  refine ⟨⟨padded.take (padded.length - (n + 1)), padded.drop (padded.length - (n + 1)), none⟩,
    ⟨?_, ?_, ?_⟩, ?_, ?_⟩
  · exact List.ne_nil_of_length_pos (by rw [List.length_take]; omega)
  · exact fun c hc => hdigit c (List.mem_of_mem_take hc)
  · exact fun c hc => hdigit c (List.mem_of_mem_drop hc)
  · rw [positional, String.toList_ofList, NumberText.chars,
      NumberText.pointed_of_ne_nil hne, Nat.toList_repr, ← hpadded, NumberText.marked,
      List.append_nil]
  · have hexponent : 0 - ((n + 1 : ℕ) : ℤ) = .negSucc n := by omega
    rw [NumberText.decimal, List.take_append_drop, hvalue, hfraction]
    exact congrArg (fun e => value ⟨digits, e⟩) hexponent

/-- The first digit stands before the point, and the others, if there are any, behind it. -/
theorem Decimal.writtenAs_scientific (d : Decimal) : WrittenAs d d.scientific := by
  obtain ⟨c, cs, hcs⟩ := List.exists_cons_of_ne_nil (Nat.toDigits_ne_nil (n := d.digits) (b := 10))
  have hlength : decimalLength d.digits = cs.length + 1 := by
    rw [← length_toDigits, hcs, List.length_cons]
  have hdigit : ∀ c' ∈ c :: cs, c'.isDigit = true :=
    fun c' hc' => isDigit_of_mem_toDigits (hcs ▸ hc')
  refine ⟨⟨[c], cs, some d.leadingExponent⟩, ⟨?_, ?_, ?_⟩, ?_, ?_⟩
  · exact List.cons_ne_nil _ _
  · exact fun c' hc' => hdigit c' (List.mem_singleton.mp hc' ▸ List.mem_cons_self)
  · exact fun c' hc' => hdigit c' (List.mem_cons_of_mem _ hc')
  · have hmark : (toString "e").toList = ['e'] := rfl
    rw [scientific, Nat.toList_repr, hcs]
    cases cs <;> simp [NumberText.chars, NumberText.pointed, NumberText.marked, hmark]
  · have hvalue : digitsValue ([c] ++ cs) = d.digits := by
      rw [List.singleton_append, ← hcs, digitsValue_toDigits]
    rw [NumberText.decimal, hvalue, value, value, leadingExponent, hlength]
    congr 2
    rw [Option.getD_some]
    push_cast
    ring

/-- The text of a decimal denotes it. -/
theorem NumberFormat.writtenAs_literal (d : Decimal) : d.WrittenAs (literal.decimalText d) := by
  obtain ⟨digits, exponent⟩ := d
  unfold decimalText
  split
  · cases exponent with
    | ofNat n => exact Decimal.writtenAs_whole digits n
    | negSucc n => exact Decimal.writtenAs_fraction digits n
  · exact Decimal.writtenAs_scientific _

/-! ## How a number is written -/

namespace NumberFormat

/-- The shortest decimal that is read as the number, which for zero is zero itself. -/
def magnitude (significand : ℕ) (power : ℤ) : Decimal :=
  if significand = 0 then ⟨0, 0⟩ else (Dyadic.mk significand power).shortest

theorem writtenAs_magnitudeText (significand : ℕ) (power : ℤ) :
    (magnitude significand power).WrittenAs (literal.magnitudeText significand power) :=
  writtenAs_literal _

theorem value_magnitude_zero (power : ℤ) : (magnitude 0 power).value = 0 := by
  rw [magnitude, if_pos rfl, Decimal.value, Nat.cast_zero, zero_mul]

theorem reads_magnitude {x : Dyadic} (h : x.Canonical) :
    x.Reads (magnitude x.significand x.power).value := by
  rw [magnitude, if_neg h.pos.ne']
  exact h.reads_shortest

variable {significand significand' : ℕ} {power power' : ℤ}

theorem eq_of_value_magnitude_eq (h : Binary64.Canonical significand power)
    (h' : Binary64.Canonical significand' power')
    (heq : (magnitude significand power).value = (magnitude significand' power').value) :
    significand = significand' ∧ power = power' := by
  rcases h with ⟨rfl, rfl⟩ | h
  · rcases h' with ⟨rfl, rfl⟩ | h'
    · exact ⟨rfl, rfl⟩
    · rw [value_magnitude_zero] at heq
      exact absurd (heq ▸ (reads_magnitude h').low_le) (not_le.mpr h'.low_pos)
  · rcases h' with ⟨rfl, rfl⟩ | h'
    · rw [value_magnitude_zero] at heq
      exact absurd (heq ▸ (reads_magnitude h).low_le) (not_le.mpr h.low_pos)
    · have hread := reads_magnitude h'
      dsimp only at hread
      rw [← heq] at hread
      cases Dyadic.eq_of_reads h h' (reads_magnitude h) hread
      exact ⟨rfl, rfl⟩

theorem eq_of_magnitudeText_eq (h : Binary64.Canonical significand power)
    (h' : Binary64.Canonical significand' power')
    (heq : literal.magnitudeText significand power = literal.magnitudeText significand' power') :
    significand = significand' ∧ power = power' := by
  obtain ⟨t, ht, htext, hvalue⟩ := writtenAs_magnitudeText significand power
  obtain ⟨t', ht', htext', hvalue'⟩ := writtenAs_magnitudeText significand' power'
  have hchars : t.chars = t'.chars := by rw [← htext, heq, htext']
  obtain rfl := NumberText.eq_of_chars_eq ht ht' hchars
  exact eq_of_value_magnitude_eq h h' (hvalue.symm.trans hvalue')

/-- The text of a finite number: a minus sign, if the number has one, and a text of its magnitude,
which begins with a digit. -/
theorem toList_literal_text {x : Float} {negative : Bool}
    (h : Binary64.ofFloat x = .finite negative significand power) :
    (literal.text x).toList =
      (if negative then ['-'] else []) ++ (literal.magnitudeText significand power).toList := by
  rw [text, h]
  cases negative <;> simp

theorem sign_append_inj {n n' : Bool} {c c' : Char} {cs cs' : List Char}
    (hc : c.isDigit = true) (hc' : c'.isDigit = true)
    (h : (if n then ['-'] else []) ++ c :: cs = (if n' then ['-'] else []) ++ c' :: cs') :
    n = n' ∧ c :: cs = c' :: cs' := by
  cases n with
  | false =>
    cases n' with
    | false => exact ⟨rfl, h⟩
    | true =>
      cases h
      cases hc
  | true =>
    cases n' with
    | false =>
      cases h
      cases hc'
    | true => exact ⟨rfl, (List.cons.inj h).2⟩

/-- **The text of a finite number determines the number.** -/
theorem literal_text_injective {x y : Float} {n n' : Bool}
    (hx : Binary64.ofFloat x = .finite n significand power)
    (hy : Binary64.ofFloat y = .finite n' significand' power')
    (h : literal.text x = literal.text y) : x = y := by
  obtain ⟨t, ht, htext, -⟩ := writtenAs_magnitudeText significand power
  obtain ⟨t', ht', htext', -⟩ := writtenAs_magnitudeText significand' power'
  obtain ⟨c, cs, hcs, hc⟩ := NumberText.head_chars ht
  obtain ⟨c', cs', hcs', hc'⟩ := NumberText.head_chars ht'
  have hsame := congrArg String.toList h
  rw [toList_literal_text hx, toList_literal_text hy, htext, htext', hcs, hcs'] at hsame
  obtain ⟨rfl, hmagnitude⟩ := sign_append_inj hc hc' hsame
  rw [← hcs, ← hcs', ← htext, ← htext'] at hmagnitude
  obtain ⟨rfl, rfl⟩ := eq_of_magnitudeText_eq (Binary64.canonical_of_ofBits hx)
    (Binary64.canonical_of_ofBits hy) (String.toList_injective hmagnitude)
  exact Binary64.eq_of_ofFloat hx hy

/-- The characters that the text of a finite number is made of. -/
theorem mem_literal_text {x : Float} {n : Bool}
    (h : Binary64.ofFloat x = .finite n significand power) {c : Char}
    (hc : c ∈ (literal.text x).toList) : c.isDigit = true ∨ c ∈ ['.', 'e', '-'] := by
  obtain ⟨t, ht, htext, -⟩ := writtenAs_magnitudeText significand power
  rw [toList_literal_text h, htext] at hc
  rcases List.mem_append.mp hc with hc | hc
  · cases n with
    | false => cases hc
    | true => exact .inr (List.mem_of_mem_tail (List.mem_of_mem_tail hc))
  · exact NumberText.mem_chars ht hc

theorem head_literal_text {x : Float} {n : Bool}
    (h : Binary64.ofFloat x = .finite n significand power) :
    ∃ c cs, (literal.text x).toList = c :: cs ∧ (c.isDigit = true ∨ c = '-') := by
  obtain ⟨t, ht, htext, -⟩ := writtenAs_magnitudeText significand power
  obtain ⟨c, cs, hcs, hc⟩ := NumberText.head_chars ht
  rw [toList_literal_text h, htext, hcs]
  cases n with
  | false => exact ⟨c, cs, rfl, .inl hc⟩
  | true => exact ⟨'-', c :: cs, rfl, .inr rfl⟩

end NumberFormat

end Lox
