/-!
# Places in a source text

Everything the interpreter says about a program it says about a *place* in its text: a byte
offset, because that is how an editor finds it, and a line number, because that is how a person
does. Both are counted from the text before the place and from nothing else, so moving past a
stretch of text is addition (`Place.after_append`), and a place is determined by the characters
before it.

Offsets count the bytes of the UTF-8 encoding. Lines are counted from one, and only `\n` ends one.
-/

set_option autoImplicit false

namespace Lox

/-- How many bytes the characters `cs` take in UTF-8. -/
def byteLength : List Char → Nat
  | [] => 0
  | c :: cs => c.utf8Size + byteLength cs

@[simp] theorem byteLength_nil : byteLength [] = 0 := rfl

@[simp] theorem byteLength_cons (c : Char) (cs : List Char) :
    byteLength (c :: cs) = c.utf8Size + byteLength cs := rfl

@[simp] theorem byteLength_append (xs ys : List Char) :
    byteLength (xs ++ ys) = byteLength xs + byteLength ys := by
  induction xs with
  | nil => simp
  | cons c xs ih => simp [ih, Nat.add_assoc]

/-- The length in bytes of a text is that of its characters. -/
theorem utf8ByteSize_ofList (cs : List Char) :
    (String.ofList cs).utf8ByteSize = byteLength cs := by
  induction cs with
  | nil => rfl
  | cons c cs ih => simp [String.ofList_cons, ih]

/-- The bytes `start`, `start + 1`, … of a source text, `length` of them. -/
structure Span where
  start : Nat
  length : Nat
deriving DecidableEq, Repr

namespace Span

/-- The first byte behind the span. -/
def stop (s : Span) : Nat := s.start + s.length

theorem start_le_stop (s : Span) : s.start ≤ s.stop := Nat.le_add_right ..

end Span

/-- A point between two characters of a source text: how many bytes lie before it and on which
line it is. -/
structure Place where
  offset : Nat
  line : Nat
deriving DecidableEq, Repr

namespace Place

/-- The beginning of every text. -/
def origin : Place := ⟨0, 1⟩

/-- The place reached from `p` by moving over the characters `cs`. -/
def after (p : Place) (cs : List Char) : Place :=
  ⟨p.offset + byteLength cs, p.line + cs.count '\n'⟩

@[simp] theorem after_nil (p : Place) : p.after [] = p := rfl

/-- Moving over two stretches of text, one after the other, is moving over both at once. -/
theorem after_append (p : Place) (xs ys : List Char) :
    p.after (xs ++ ys) = (p.after xs).after ys := by
  simp [after, Nat.add_assoc]

end Place

end Lox
