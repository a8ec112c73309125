import Lox.Text.Printable

/-!
# Quoted text

Text in quotes, written so that one can see what it is: the quote itself and the backslash are
escaped, the usual controls have their letters, and every other character that would not show, or
would attach itself to its neighbour, is written as its code point.
-/

set_option autoImplicit false

namespace Lox

/-- A character as it is written between two of the given quotes. -/
def escaped (quote c : Char) : String :=
  if c == '\x00' then "\\0"
  else if c == '\t' then "\\t"
  else if c == '\r' then "\\r"
  else if c == '\n' then "\\n"
  else if c == '\\' || c == quote then "\\" ++ c.toString
  else if isMark c || isUnprintable c then
    "\\u\x7b" ++ String.ofList (Nat.toDigits 16 c.toNat) ++ "\x7d"
  else c.toString

/-- A text in double quotes. -/
def quotedString (s : String) : String :=
  "\"" ++ String.join (s.toList.map (escaped '"')) ++ "\""

/-- A character in single quotes. -/
def quotedChar (c : Char) : String := "'" ++ escaped '\'' c ++ "'"

end Lox
