/-
The nearest of some things, looked for in order with the help of a box: one is taken if it is strictly
nearer than the one taken before and lies inside the box whose half side is the rounded distance of that
one. Where the distance is rounded down, a thing that is nearer can lie on the side of the box.
-/
import Mathlib.Order.Lattice
import Mathlib.Tactic.Common

namespace Netrek.Lib

/-- Things at a distance: its square, the distance as it is rounded, and the larger of the offsets along the axes. -/
structure Boxed (α β : Type) [LinearOrder β] where
  sq : α → β
  rounded : α → β
  reach : α → β
  rounded_le : ∀ a b, sq a ≤ sq b → rounded a ≤ rounded b
  reach_le : ∀ a, reach a ≤ rounded a

namespace Boxed

variable {α β : Type} [LinearOrder β] (s : Boxed α β)

/-- One more thing is looked at. -/
def look (best : Option α) (a : α) : Option α :=
  match best with
  | none => some a
  | some b => if s.reach a < s.rounded b ∧ s.sq a < s.sq b then some a else some b

def seek (l : List α) : Option α := l.foldl s.look none

variable {s} {l l₁ l₂ : List α} {b c n v : α}

end Boxed

end Netrek.Lib
