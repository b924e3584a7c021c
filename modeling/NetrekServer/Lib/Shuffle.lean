/-
Shuffling a table in place: going down from an index, each entry changes places with one at or below
it, drawn at random; or both entries that change places are drawn. Whatever is drawn, the entries stay
the same.
-/
import Mathlib.Data.List.Basic

namespace Netrek.Lib

variable {α σ : Type} {n : Nat}

/-- Exchange the entries from `i` down to 1, each with the one drawn from those up to it. -/
def shuffleDown (draw : σ → Nat × σ) : Nat → Vector α n → σ → Vector α n × σ
  | 0, t, s => (t, s)
  | i + 1, t, s =>
    let (r, s) := draw s
    shuffleDown draw i (t.swapIfInBounds (r % (i + 2)) (i + 1)) s

/-- Two entries drawn at random change places, as often as there are entries. -/
def shuffleSwaps (random : Nat → Nat) (t : Array α) : Array α :=
  (List.range t.size).foldl
    (fun t i => t.swapIfInBounds (random (2 * i) % t.size) (random (2 * i + 1) % t.size)) t

theorem array_swapIfInBounds_perm (t : Array α) (i j : Nat) : (t.swapIfInBounds i j).toList.Perm t.toList := by
  rw [← Array.perm_iff_toList_perm]
  rw [Array.swapIfInBounds_def]
  split
  · split
    · exact Array.swap_perm ..
    · exact Array.Perm.refl _
  · exact Array.Perm.refl _

theorem swapIfInBounds_perm (t : Vector α n) (i j : Nat) : (t.swapIfInBounds i j).toList.Perm t.toList :=
  array_swapIfInBounds_perm t.toArray i j

/-- The shuffled table has the entries that it had. -/
theorem shuffleSwaps_perm (random : Nat → Nat) (t : Array α) : (shuffleSwaps random t).toList.Perm t.toList := by
  have hfold : ∀ (l : List Nat) (u : Array α), (l.foldl
      (fun t i => t.swapIfInBounds (random (2 * i) % t.size) (random (2 * i + 1) % t.size)) u).toList.Perm u.toList := by
    intro l
    induction l with
    | nil => exact fun _ => .refl _
    | cons i l ih => exact fun u => (ih _).trans (array_swapIfInBounds_perm u _ _)
  exact hfold _ t

/-- The shuffled table has the entries that it had. -/
theorem shuffleDown_perm (draw : σ → Nat × σ) : ∀ (i : Nat) (t : Vector α n) (s : σ),
    (shuffleDown draw i t s).1.toList.Perm t.toList
  | 0, _, _ => .refl _
  | i + 1, t, _ => (shuffleDown_perm draw i _ _).trans (swapIfInBounds_perm t _ _)

end Netrek.Lib
