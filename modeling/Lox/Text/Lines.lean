/-!
# Texts made of lines

Everything the program writes it writes line by line, and a line is not finished without its end.
Writing some lines and then some more is writing them all (`unlines_append`).
-/

set_option autoImplicit false

namespace Lox

/-- The text of some lines, each with its line end. -/
def unlines : List String → String
  | [] => ""
  | line :: lines => line ++ "\n" ++ unlines lines

@[simp] theorem unlines_nil : unlines [] = "" := rfl

@[simp] theorem unlines_cons (line : String) (lines : List String) :
    unlines (line :: lines) = line ++ "\n" ++ unlines lines := rfl

theorem unlines_append (xs ys : List String) : unlines (xs ++ ys) = unlines xs ++ unlines ys := by
  induction xs with
  | nil => simp
  | cons x xs ih => simp [ih, String.append_assoc]

end Lox
