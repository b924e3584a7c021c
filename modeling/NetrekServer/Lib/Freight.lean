/-
Freight: goods aboard carriers and in stores. Carriers unload into stores that take their goods, and
may be lost with what is aboard. What the stores gain over any number of such steps is accounted
for by what each carrier had aboard.
-/
import Mathlib.Algebra.BigOperators.Group.Finset.Piecewise
import Mathlib.Algebra.Order.BigOperators.Group.Finset
import Mathlib.Algebra.Ring.Int.Defs
import Mathlib.Tactic.Common

namespace Netrek.Lib

/-- What is aboard of each carrier, and in each store. -/
structure Freight (ι κ : Type) where
  aboard : ι → Int
  stored : κ → Int

namespace Freight

variable {ι κ : Type} [Fintype ι] [Fintype κ] {may : ι → κ → Prop} {h h' h'' : Freight ι κ}

def total (h : Freight ι κ) : Int := ∑ i, h.aboard i + ∑ k, h.stored k

/-- The stores have gained what was landed, each carrier has lost at least what it landed, and
nothing was landed where the carrier may not. -/
structure Accounts (may : ι → κ → Prop) (h h' : Freight ι κ) (landed : ι → κ → Nat) : Prop where
  stored : ∀ k, h'.stored k = h.stored k + ∑ i, (landed i k : Int)
  aboard : ∀ i, h'.aboard i + ∑ k, (landed i k : Int) ≤ h.aboard i
  allowed : ∀ i k, landed i k ≠ 0 → may i k

/-- Everything the stores gained was landed by a carrier, once. -/
def Delivers (may : ι → κ → Prop) (h h' : Freight ι κ) : Prop := ∃ landed, Accounts may h h' landed

/-- Goods are lost, none are landed. -/
theorem Delivers.of_lost (hs : ∀ k, h'.stored k = h.stored k) (ha : ∀ i, h'.aboard i ≤ h.aboard i) : Delivers may h h' := by
  refine ⟨fun _ _ => 0, ?_, ?_, ?_⟩
  · intro k
    simp [hs k]
  · intro i
    simpa using ha i
  · intro i k hne
    exact absurd rfl hne

theorem Delivers.refl (h : Freight ι κ) : Delivers may h h := .of_lost (fun _ => rfl) fun _ => le_rfl

/-- Deliveries follow one another. -/
theorem Delivers.trans (h₁ : Delivers may h h') (h₂ : Delivers may h' h'') : Delivers may h h'' := by
  obtain ⟨a, ha⟩ := h₁
  obtain ⟨b, hb⟩ := h₂
  refine ⟨fun i k => a i k + b i k, ?_, ?_, ?_⟩
  · intro k
    have := ha.stored k
    have := hb.stored k
    simp only [Nat.cast_add, Finset.sum_add_distrib]
    omega
  · intro i
    have := ha.aboard i
    have := hb.aboard i
    simp only [Nat.cast_add, Finset.sum_add_distrib]
    omega
  · intro i k hne
    by_cases hz : a i k = 0
    · exact hb.allowed i k (by omega)
    · exact ha.allowed i k hz

/-- A carrier unloads `n` into one store. -/
theorem Delivers.unload [DecidableEq ι] [DecidableEq κ] {i : ι} {k : κ} (n : Nat) (hmay : may i k)
    (hs : ∀ l, h'.stored l = h.stored l + if l = k then (n : Int) else 0)
    (ha : ∀ j, h'.aboard j + (if j = i then (n : Int) else 0) ≤ h.aboard j) : Delivers may h h' := by
  refine ⟨fun j l => if j = i ∧ l = k then n else 0, ?_, ?_, ?_⟩
  · intro l
    rw [hs l]
    by_cases hl : l = k
    · simp [hl, Nat.cast_ite]
    · simp [hl]
  · intro j
    have := ha j
    by_cases hj : j = i
    · simpa [hj, Nat.cast_ite] using ha i
    · simpa [hj] using ha j
  · intro j l hne
    obtain ⟨rfl, rfl⟩ : j = i ∧ l = k := by
      by_contra hc
      exact hne (if_neg hc)
    exact hmay

/-- What is aboard and in the stores together does not grow. -/
theorem Delivers.total_le (hd : Delivers may h h') : h'.total ≤ h.total := by
  obtain ⟨a, ha⟩ := hd
  have hstored : ∑ k, h'.stored k = ∑ k, h.stored k + ∑ k, ∑ i, (a i k : Int) := by
    rw [← Finset.sum_add_distrib]
    exact Finset.sum_congr rfl fun k _ => ha.stored k
  have haboard : ∑ i, h'.aboard i + ∑ i, ∑ k, (a i k : Int) ≤ ∑ i, h.aboard i := by
    rw [← Finset.sum_add_distrib]
    exact Finset.sum_le_sum fun i _ => ha.aboard i
  rw [Finset.sum_comm] at haboard
  unfold total
  omega

/-- What one carrier and one store gain is gained in total. -/
theorem total_gain [DecidableEq ι] [DecidableEq κ] (h h' : Freight ι κ) {i : ι} {k : κ} {d n : Int}
    (ha : ∀ j, h'.aboard j = h.aboard j + if j = i then d else 0)
    (hs : ∀ l, h'.stored l = h.stored l + if l = k then n else 0) : h'.total = h.total + d + n := by
  have haboard : ∑ j, h'.aboard j = ∑ j, h.aboard j + d := by
    simp [ha, Finset.sum_add_distrib]
  have hstored : ∑ l, h'.stored l = ∑ l, h.stored l + n := by
    simp [hs, Finset.sum_add_distrib]
  unfold total
  omega

end Freight

end Netrek.Lib
