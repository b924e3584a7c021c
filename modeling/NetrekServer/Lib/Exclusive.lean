/-
Keys held by at most one holder each, and how a table of holders may change.
-/
import Mathlib.Logic.Basic

namespace Netrek.Lib

variable {ι κ : Type}

/-- Each key has at most one holder. -/
def Exclusive (h : ι → Option κ) : Prop := ∀ ⦃i j k⦄, h i = some k → h j = some k → i = j

namespace Exclusive

variable {h h' : ι → Option κ}

/-- One holder changes what it holds to a key that nobody else holds. -/
theorem change {i : ι} (he : Exclusive h) (hfree : ∀ k, h' i = some k → ∀ j, j ≠ i → h j ≠ some k)
    (hrest : ∀ j, j ≠ i → h' j = h j) : Exclusive h' := by
  have free {j : ι} {k : κ} (hi : h' i = some k) (hj : h' j = some k) : j = i := by
    by_cases hne : j = i
    · exact hne
    · rw [hrest j hne] at hj
      exact absurd hj (hfree k hi j hne)
  intro a b k ha hb
  by_cases hai : a = i
  · subst hai; exact (free ha hb).symm
  · by_cases hbi : b = i
    · subst hbi; exact free hb ha
    · rw [hrest a hai] at ha
      rw [hrest b hbi] at hb
      exact he ha hb

end Exclusive

end Netrek.Lib
