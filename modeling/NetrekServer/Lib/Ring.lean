/-
Rings of `n` cells read at a cursor. `Holds n cell c l` says that the cells from the cursor `c` on,
going round, hold the items `l` in order; taking the first item, adding one behind the last and
writing to a cell outside preserve it.
-/
import Mathlib.Data.Nat.ModEq
import Mathlib.Tactic.Common

namespace Netrek.Lib.Ring

variable {α : Type} {n c : Nat} {cell cell' : Nat → α} {l : List α} {m : α}

/-- The cells `c`, `c + 1`, … modulo `n` hold the items of the list. -/
def Holds (n : Nat) (cell : Nat → α) : Nat → List α → Prop
  | _, [] => True
  | c, m :: l => cell (c % n) = m ∧ Holds n cell (c + 1) l

/-- Two places less than a whole turn apart are different cells. -/
theorem offset_inj {i j : Nat} (hi : i < n) (hj : j < n) (h : (c + i) % n = (c + j) % n) : i = j := by
  have hmod : i ≡ j [MOD n] := Nat.ModEq.add_left_cancel' c h
  rwa [Nat.ModEq, Nat.mod_eq_of_lt hi, Nat.mod_eq_of_lt hj] at hmod

namespace Holds

theorem mod : ∀ {c : Nat} {l : List α}, Holds n cell (c % n) l ↔ Holds n cell c l
  | _, [] => Iff.rfl
  | c, m :: l => by
    simp only [Holds, Nat.mod_mod]
    rw [← mod (c := c % n + 1), ← mod (c := c + 1), Nat.mod_add_mod]

/-- Only the cells up to the last item matter. -/
theorem congr : ∀ {c : Nat} {l : List α}, (∀ i < l.length, cell' ((c + i) % n) = cell ((c + i) % n)) →
    Holds n cell c l → Holds n cell' c l
  | _, [], _, _ => trivial
  | c, m :: l, he, h => by
    refine ⟨(he 0 (by simp)).trans h.1, congr (fun i hi => ?_) h.2⟩
    have := he (i + 1) (by simpa using hi)
    rwa [Nat.add_comm i 1, ← Nat.add_assoc] at this

/-- An item written behind the last one. -/
theorem push (h : Holds n cell c l) (hm : cell ((c + l.length) % n) = m) : Holds n cell c (l ++ [m]) := by
  induction l generalizing c with
  | nil => exact ⟨hm, trivial⟩
  | cons k l ih =>
    refine ⟨h.1, ih h.2 ?_⟩
    rwa [Nat.add_assoc, Nat.add_comm 1]

/-- A write to a cell that holds none of the items. -/
theorem frame {i : Nat} (h : Holds n cell c l) (hi : i < n) (hl : l.length ≤ i)
    (hc : ∀ k, k ≠ (c + i) % n → cell' k = cell k) : Holds n cell' c l :=
  h.congr fun _ hj => hc _ fun he => by
    have := offset_inj (by omega) hi he
    omega

/-- Taking the first item and overwriting its cell. -/
theorem pop (h : Holds n cell c (m :: l)) (hl : l.length < n) (hc : ∀ k, k ≠ c % n → cell' k = cell k) :
    Holds n cell' (c + 1) l := by
  refine h.2.congr fun j hj => hc _ fun he => ?_
  have := offset_inj (n := n) (c := c) (i := 1 + j) (j := 0) (by omega) (by omega) (by rw [← Nat.add_assoc]; simpa using he)
  omega

end Holds

end Netrek.Lib.Ring
