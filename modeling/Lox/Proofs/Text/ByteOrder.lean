/-!
# The order of bytes and the order of characters

Texts that are sorted by the bytes of their UTF-8 encodings are sorted by their code points. Either
way it is the first difference that decides; but a character is one to four bytes, so a difference
of two characters has to be found again among their bytes, and what follows it there must not
matter.

This is so because of how UTF-8 spells a number (`Utf8.spell`). It is written in base 64, the
greatest digit first, and something is added to its first byte that tells how many bytes follow. Of
two numbers in rows of one length the less has the less digit where they first differ. And a first
byte with more bytes behind it is greater than any with fewer (`Utf8.mark`), whatever its digit is.
In both cases the rows differ at a place that both of them have (`Undercuts`), and the rest of the
texts has no part in it.
-/

set_option autoImplicit false

namespace Lox

/-! ## Differences that decide -/

/-- Where they first differ both `xs` and `ys` have a byte, and that of `xs` is less. -/
inductive Undercuts : List UInt8 → List UInt8 → Prop where
  | here {x y : UInt8} (h : x < y) (xs ys : List UInt8) : Undercuts (x :: xs) (y :: ys)
  | there (x : UInt8) {xs ys : List UInt8} (h : Undercuts xs ys) : Undercuts (x :: xs) (x :: ys)

namespace Undercuts

variable {xs ys : List UInt8}

/-- What has been decided does not depend on what follows. -/
theorem append (h : Undercuts xs ys) (after after' : List UInt8) :
    Undercuts (xs ++ after) (ys ++ after') := by
  induction h with
  | here h xs ys => exact .here h _ _
  | there x _ ih => exact .there x ih

theorem append_left (h : Undercuts xs ys) (before : List UInt8) :
    Undercuts (before ++ xs) (before ++ ys) := by
  induction before with
  | nil => exact h
  | cons x before ih => exact .there x ih

theorem lt (h : Undercuts xs ys) : xs < ys := by
  induction h with
  | here h xs ys => exact .rel h
  | there x _ ih => exact .cons ih

end Undercuts

/-! ## The spelling of a number -/

namespace Utf8

/-- The least byte that begins a row of bytes with `k` more behind it. No character has more than
three behind its first byte, which is less than the last of these marks. -/
def mark : (k : Nat) → Nat
  | 0 => 0
  | 1 => 192
  | 2 => 224
  | 3 => 240
  | _ => 248

theorem mark_le_succ (k : Nat) : mark k ≤ mark (k + 1) := by
  rcases k with _ | _ | _ | _ | k <;> simp [mark]

theorem mark_mono {j k : Nat} (h : j ≤ k) : mark j ≤ mark k := by
  induction h with
  | refl => exact Nat.le_refl _
  | step _ ih => exact Nat.le_trans ih (mark_le_succ _)

theorem mark_lt (k : Nat) : mark k < 256 := by
  rcases k with _ | _ | _ | _ | k <;> simp [mark]

/-- What is left of `n` for the first byte. -/
def leading : (k : Nat) → Nat → Nat
  | 0, n => n
  | k + 1, n => leading k (n / 64)

/-- The row of bytes for `n`, with `k` bytes behind the first one, to which `base` is added. -/
def spell (base : Nat) : (k : Nat) → Nat → List UInt8
  | 0, n => [.ofNat (base + n)]
  | k + 1, n => spell base k (n / 64) ++ [.ofNat (128 + n % 64)]

theorem spell_eq_cons (base k n : Nat) :
    ∃ rest, spell base k n = .ofNat (base + leading k n) :: rest := by
  induction k generalizing n with
  | zero => exact ⟨[], rfl⟩
  | succ k ih =>
    obtain ⟨rest, h⟩ := ih (n / 64)
    exact ⟨rest ++ [.ofNat (128 + n % 64)], by rw [spell, h, leading, List.cons_append]⟩

theorem ofNat_lt_ofNat {m n : Nat} (h : m < n) (hn : n < 256) : UInt8.ofNat m < UInt8.ofNat n :=
  (UInt8.ofNat_lt_iff_lt (Nat.lt_trans h hn) hn).mpr h

/-- Rows of one length are compared digit by digit, as the numbers are. -/
theorem undercuts_spell {base k m n : Nat} (h : m < n) (hn : base + leading k n < 256) :
    Undercuts (spell base k m) (spell base k n) := by
  induction k generalizing m n with
  | zero => exact .here (ofNat_lt_ofNat (Nat.add_lt_add_left h _) hn) [] []
  | succ k ih =>
    -- The numbers without their last digits differ already, or else the last digits do.
    rcases Nat.lt_or_eq_of_le (Nat.div_le_div_right (Nat.le_of_lt h)) with hlt | heq
    · exact (ih hlt hn).append _ _
    · have hdigit : 128 + m % 64 < 128 + n % 64 := by omega
      rw [spell, spell, heq]
      exact .append_left (.here (ofNat_lt_ofNat hdigit (by omega)) [] []) _

/-! ## The encoding of a character -/

/-- How many bytes there are behind the first one of the character with code point `n`. -/
def following (n : Nat) : Nat :=
  if n ≤ 0x7f then 0 else if n ≤ 0x7ff then 1 else if n ≤ 0xffff then 2 else 3

theorem following_mono {m n : Nat} (h : m ≤ n) : following m ≤ following n := by
  grind [following]

/-- No first byte is so great that it would begin a longer row. -/
theorem mark_add_leading_lt {n : Nat} (h : n < 0x110000) :
    mark (following n) + leading (following n) n < mark (following n + 1) := by
  unfold following
  repeat' split
  all_goals
    simp only [mark, leading]
    omega

theorem toNat_lt (c : Char) : c.toNat < 0x110000 := by
  have h := c.valid
  simp only [UInt32.isValidChar, Nat.isValidChar, Char.toNat_val] at h
  omega

/-- The four forms of an encoding are one. -/
theorem encodeChar_eq_spell (c : Char) :
    String.utf8EncodeChar c = spell (mark (following c.toNat)) (following c.toNat) c.toNat := by
  have h := toNat_lt c
  unfold String.utf8EncodeChar following
  simp only [Char.toNat_val]
  repeat' split
  all_goals
    simp only [spell, mark, List.cons_append, List.nil_append, List.cons.injEq, and_true]
  · exact congrArg UInt8.ofNat (by omega)
  · exact ⟨congrArg UInt8.ofNat (by omega), congrArg UInt8.ofNat (by omega)⟩
  · exact ⟨congrArg UInt8.ofNat (by omega), congrArg UInt8.ofNat (by omega),
      congrArg UInt8.ofNat (by omega)⟩
  · exact ⟨congrArg UInt8.ofNat (by omega), congrArg UInt8.ofNat (by omega),
      congrArg UInt8.ofNat (by omega), congrArg UInt8.ofNat (by omega)⟩

theorem encodeChar_eq_cons (c : Char) :
    ∃ rest, String.utf8EncodeChar c =
      .ofNat (mark (following c.toNat) + leading (following c.toNat) c.toNat) :: rest := by
  rw [encodeChar_eq_spell]
  exact spell_eq_cons _ _ _

/-- Different characters have encodings that differ at a place which both of them have. -/
theorem undercuts_encodeChar {c d : Char} (h : c < d) :
    Undercuts (String.utf8EncodeChar c) (String.utf8EncodeChar d) := by
  have hlt : c.toNat < d.toNat := h
  have hd := mark_add_leading_lt (toNat_lt d)
  have hbyte := mark_lt (following d.toNat + 1)
  rcases Nat.lt_or_eq_of_le (following_mono (Nat.le_of_lt hlt)) with hfewer | heq
  · -- The encoding of `c` is shorter, and the first bytes tell it.
    have hc := mark_add_leading_lt (toNat_lt c)
    have hmark : mark (following c.toNat + 1) ≤ mark (following d.toNat) := mark_mono hfewer
    obtain ⟨xs, hxs⟩ := encodeChar_eq_cons c
    obtain ⟨ys, hys⟩ := encodeChar_eq_cons d
    rw [hxs, hys]
    exact .here (ofNat_lt_ofNat (by omega) (by omega)) xs ys
  · rw [encodeChar_eq_spell, encodeChar_eq_spell, heq]
    exact undercuts_spell hlt (Nat.lt_trans hd hbyte)

end Utf8

/-! ## Texts -/

/-- The bytes of a text in UTF-8. -/
def utf8Bytes (s : String) : List UInt8 := s.toUTF8.data.toList

/-- The code points of a text. -/
def codePoints (s : String) : List Nat := s.toList.map Char.toNat

theorem utf8Bytes_eq (s : String) : utf8Bytes s = s.toList.flatMap String.utf8EncodeChar := by
  rw [utf8Bytes, String.toUTF8_eq_toByteArray, ← String.utf8Encode_toList, List.utf8Encode,
    List.toList_data_toByteArray]

theorem flatMap_encodeChar_lt {cs ds : List Char} (h : cs < ds) :
    cs.flatMap String.utf8EncodeChar < ds.flatMap String.utf8EncodeChar := by
  induction h with
  | @nil d ds =>
    obtain ⟨rest, hrest⟩ := Utf8.encodeChar_eq_cons d
    rw [List.flatMap_cons, hrest]
    exact .nil
  | rel h =>
    rw [List.flatMap_cons, List.flatMap_cons]
    exact ((Utf8.undercuts_encodeChar h).append _ _).lt
  | cons _ ih =>
    rw [List.flatMap_cons, List.flatMap_cons]
    exact List.append_left_lt ih

/-- What keeps the order of rows of characters also tells it, because of any two different rows one
comes first. -/
theorem lt_iff_of_mono {α : Type} [LT α] [Std.Asymm (· < · : α → α → Prop)]
    {f : List Char → List α} (hf : ∀ cs ds, cs < ds → f cs < f ds) (cs ds : List Char) :
    f cs < f ds ↔ cs < ds := by
  refine ⟨fun h => ?_, hf cs ds⟩
  by_cases hlt : cs < ds
  · exact hlt
  · rcases List.le_iff_lt_or_eq.mp (List.not_lt.mp hlt) with hgt | rfl
    · exact absurd h (List.lt_asymm (hf ds cs hgt))
    · exact absurd h (List.lt_asymm h)

/-- Texts have the order of their bytes. -/
theorem utf8Bytes_lt_iff (s t : String) : utf8Bytes s < utf8Bytes t ↔ s < t := by
  rw [utf8Bytes_eq, utf8Bytes_eq]
  exact lt_iff_of_mono (fun _ _ => flatMap_encodeChar_lt) s.toList t.toList

theorem codePoints_lt_iff (s t : String) : codePoints s < codePoints t ↔ s < t :=
  lt_iff_of_mono (f := List.map Char.toNat) (fun _ _ => List.map_lt fun _ _ h => h)
    s.toList t.toList

/-- In units of 16 bits, of which the second character takes two, it would be the other way. -/
example : utf8Bytes "\uffff" < utf8Bytes "😀" := by decide

end Lox
