import Std.Data.TreeMap
import Lox.Value

/-!
# Variable bindings

What each variable is bound to. There is one set of bindings for a whole session: blocks do not
open a scope. A declaration binds a name whether it was bound before or not; an assignment only
rebinds, and so no variable ever comes into being by a misspelt assignment.
-/

set_option autoImplicit false

namespace Lox

/-- The variables that have a value, and their values. -/
structure Bindings where
  values : Std.TreeMap String Value

namespace Bindings

/-- No variable is bound. -/
def empty : Bindings := ⟨∅⟩

instance : EmptyCollection Bindings := ⟨empty⟩

/-- The value of a variable, if it is bound. -/
def get? (b : Bindings) (name : String) : Option Value := b.values[name]?

/-- Binds a variable, whatever it was bound to before. -/
def define (b : Bindings) (name : String) (v : Value) : Bindings := ⟨b.values.insert name v⟩

/-- Rebinds a variable. There is no answer if it is not bound. -/
def assign? (b : Bindings) (name : String) (v : Value) : Option Bindings :=
  if (b.get? name).isSome then some (b.define name v) else none

@[simp] theorem get?_empty (name : String) : empty.get? name = none := by
  simp [get?, empty]

theorem get?_define (b : Bindings) (name other : String) (v : Value) :
    (b.define name v).get? other = if other = name then some v else b.get? other := by
  simp only [get?, define, Std.TreeMap.getElem?_insert, Std.compare_eq_iff_eq,
    @eq_comm _ other name]

theorem assign?_eq_none_iff {b : Bindings} {name : String} {v : Value} :
    b.assign? name v = none ↔ b.get? name = none := by
  simp [assign?, Option.isSome_iff_ne_none]

end Bindings

end Lox
