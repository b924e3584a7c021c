/-
Directions on a circle of 256, as the numbers of a byte: the arc between two of them, and turning by
less than the arc.
-/
import Mathlib.Tactic.Common

namespace Netrek.Lib

/-- The shorter way round from one direction to another. -/
def arc (a b : UInt8) : Nat := min (a - b).toNat (b - a).toNat

theorem toNat_sub_eq (a b : UInt8) : (a - b).toNat = (256 - b.toNat + a.toNat) % 256 := UInt8.toNat_sub a b

theorem arc_eq_zero {a b : UInt8} : arc a b = 0 ↔ a = b := by
  unfold arc
  rw [toNat_sub_eq, toNat_sub_eq, ← UInt8.toNat_inj]
  have ha := a.toNat_lt
  have hb := b.toNat_lt
  omega

theorem arc_le (a b : UInt8) : arc a b ≤ 128 := by
  unfold arc
  rw [toNat_sub_eq, toNat_sub_eq]
  have ha := a.toNat_lt
  have hb := b.toNat_lt
  omega

/-- The arc from the numbers of the two directions. -/
theorem arc_eq {a b : UInt8} {lo hi : Nat} (h : lo = a.toNat ∧ hi = b.toNat ∨ lo = b.toNat ∧ hi = a.toNat) (hle : lo ≤ hi) :
    arc a b = min (hi - lo) (256 - hi + lo) := by
  unfold arc
  rw [toNat_sub_eq, toNat_sub_eq]
  have ha := a.toNat_lt
  have hb := b.toNat_lt
  omega

/-- Past half the circle, going on shortens the arc. -/
theorem arc_add {a b : UInt8} {t : Nat} (hfar : 127 < (a - b).toNat) (ht : t ≤ arc a b) :
    arc (a + .ofNat t) b = arc a b - t := by
  have hle := arc_le a b
  unfold arc at ht hle ⊢
  simp only [toNat_sub_eq, UInt8.toNat_add, UInt8.toNat_ofNat'] at hfar ht hle ⊢
  have ha := a.toNat_lt
  have hb := b.toNat_lt
  omega

/-- Up to half the circle, going back does. -/
theorem arc_sub {a b : UInt8} {t : Nat} (hnear : ¬ 127 < (a - b).toNat) (ht : t ≤ arc a b) :
    arc (a - .ofNat t) b = arc a b - t := by
  have hle := arc_le a b
  unfold arc at ht hle ⊢
  simp only [toNat_sub_eq, UInt8.toNat_ofNat'] at hnear ht hle ⊢
  have ha := a.toNat_lt
  have hb := b.toNat_lt
  omega

end Netrek.Lib
