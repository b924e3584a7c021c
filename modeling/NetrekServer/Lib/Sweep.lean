/-
Sweeps: a loop over indices each of which has a cell of its own. A turn changes its own cell, from what
is in it and from what no turn changes, so the order of the turns does not matter.
-/
import Mathlib.Data.List.Basic
import Mathlib.Tactic.Common

namespace Netrek.Lib

/-- One turn of a loop, the cell of each index, what the loop leaves alone, and what a turn makes of its cell. -/
structure Sweep (σ ι β ν : Type) where
  step : σ → ι → σ
  cell : σ → ι → β
  view : σ → ν
  turn : ν → ι → β → β
  view_step : ∀ s i, view (step s i) = view s
  cell_self : ∀ s i, cell (step s i) i = turn (view s) i (cell s i)
  cell_other : ∀ s i j, j ≠ i → cell (step s i) j = cell s j

namespace Sweep

variable {σ ι β ν : Type} (w : Sweep σ ι β ν)

theorem view_foldl (l : List ι) : ∀ s : σ, w.view (l.foldl w.step s) = w.view s := by
  induction l with
  | nil => exact fun _ => rfl
  | cons i l ih => exact fun s => (ih _).trans (w.view_step s i)

/-- An index that is not swept keeps its cell. -/
theorem cell_of_notMem {l : List ι} {j : ι} (hj : j ∉ l) : ∀ s : σ, w.cell (l.foldl w.step s) j = w.cell s j := by
  induction l with
  | nil => exact fun _ => rfl
  | cons i l ih =>
    rw [List.mem_cons, not_or] at hj
    exact fun s => (ih hj.2 _).trans (w.cell_other s i j hj.1)

/-- An index that is swept once gets what its turn makes of its first cell. -/
theorem cell_of_mem {l : List ι} (hl : l.Nodup) {j : ι} (hj : j ∈ l) :
    ∀ s : σ, w.cell (l.foldl w.step s) j = w.turn (w.view s) j (w.cell s j) := by
  induction l with
  | nil => cases hj
  | cons i l ih =>
    intro s
    obtain ⟨hi, hl⟩ := List.nodup_cons.1 hl
    rw [List.foldl_cons]
    rcases List.mem_cons.1 hj with rfl | hj
    · rw [w.cell_of_notMem hi, w.cell_self]
    · have hne : j ≠ i := fun h => hi (h ▸ hj)
      rw [ih hl hj, w.view_step, w.cell_other s i j hne]

end Sweep

/-- A loop over the indices below `n`: what holds at first, and after each turn with one index more, holds at the end. -/
theorem foldl_finRange {σ : Type} {n : Nat} (f : σ → Fin n → σ) (I : Nat → σ → Prop)
    (hstep : ∀ (i : Fin n) s, I i.val s → I (i.val + 1) (f s i)) {s : σ} (h : I 0 s) : I n ((List.finRange n).foldl f s) := by
  induction n with
  | zero => exact h
  | succ n ih =>
    rw [List.finRange_succ_last, List.foldl_append, List.foldl_map]
    exact hstep (Fin.last n) _ (ih (fun s i => f s i.castSucc) fun i s hi => hstep i.castSucc s hi)

end Netrek.Lib
