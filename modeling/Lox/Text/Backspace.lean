import Lox.Place
import Lox.Text.Grapheme

/-!
# Lines with backspaces

A backspace among the characters of a line takes back what was typed before it, a whole cluster at
a time: a letter goes with its accents. A line without one is as it was typed
(`applyBackspaces_eq_self`).
-/

set_option autoImplicit false

namespace Lox

/-- What has been typed of a line: its characters, last first, and for each cluster that can be
taken back, last first, the number of bytes that this takes back. -/
structure TypedText where
  chars : List Char
  sizes : List Nat

namespace TypedText

/-- Nothing typed. -/
def empty : TypedText := ⟨[], []⟩

/-- What is left of a text, given last first, without its last `n` bytes. A character goes as a
whole or not at all. -/
def withoutBytes (n : Nat) : List Char → List Char
  | [] => []
  | c :: cs => if n < c.utf8Size then c :: cs else withoutBytes (n - c.utf8Size) cs

/-- Types a cluster, or takes one back if it is the backspace. The number of bytes to take back is
kept in a byte of its own, so of a cluster of 256 bytes or more only the rest goes. -/
def type (t : TypedText) (cluster : List Char) : TypedText :=
  if cluster = ['\x08'] then
    match t.sizes with
    | [] => t
    | n :: sizes => ⟨withoutBytes n t.chars, sizes⟩
  else ⟨cluster.reverse ++ t.chars, byteLength cluster % 256 :: t.sizes⟩

end TypedText

/-- What is left of a line when its backspaces have done their work. -/
def applyBackspaces (line : List Char) : List Char :=
  ((clusters line).foldl TypedText.type .empty).chars.reverse

/-- Clusters none of which is a backspace are added as they are. -/
theorem TypedText.chars_foldl_type (t : TypedText) (cs : List (List Char))
    (h : ['\x08'] ∉ cs) :
    (cs.foldl TypedText.type t).chars.reverse = t.chars.reverse ++ cs.flatten := by
  induction cs generalizing t with
  | nil => simp
  | cons c cs ih =>
    obtain ⟨hc, hcs⟩ := not_or.mp (mt List.mem_cons.mpr h)
    simp [ih _ hcs, TypedText.type, Ne.symm hc]

/-- A line without a backspace is as it was typed. -/
theorem applyBackspaces_eq_self {line : List Char} (h : '\x08' ∉ line) :
    applyBackspaces line = line := by
  have hc : ['\x08'] ∉ clusters line := fun hm =>
    h (flatten_clusters line ▸ List.mem_flatten_of_mem hm (List.mem_singleton.mpr rfl))
  simpa [applyBackspaces, TypedText.empty, flatten_clusters] using
    TypedText.chars_foldl_type .empty _ hc

end Lox
