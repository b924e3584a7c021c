/-
Numbers of type `float` and `double`: they are rounded when they are stored, in order and not past a
number that needs no rounding, and cut off towards zero when they become an `int`.
-/
import Mathlib.Tactic.Linarith
import Mathlib.Tactic.Positivity
import NetrekServer.Server

namespace Netrek

/-! ## Storing -/

theorem toFloat_nonneg {q : ℚ} (h : 0 ≤ q) : 0 ≤ toFloat q := Lib.Format.round_nonneg h

theorem toDouble_nonneg {q : ℚ} (h : 0 ≤ q) : 0 ≤ toDouble q := Lib.Format.round_nonneg h

theorem one_le_toFloat {q : ℚ} (h : 1 ≤ q) : 1 ≤ toFloat q :=
  (Lib.Format.exact_one (by decide)).le_round h

theorem one_le_toDouble {q : ℚ} (h : 1 ≤ q) : 1 ≤ toDouble q :=
  (Lib.Format.exact_one (by decide)).le_round h

/-! ## Cutting off -/

theorem truncate_of_nonneg {q : ℚ} (h : 0 ≤ q) : truncate q = ⌊q⌋ := by
  unfold truncate
  rw [Rat.floor_def', Int.tdiv_eq_ediv_of_nonneg (Rat.num_nonneg.2 h)]

theorem truncate_neg (q : ℚ) : truncate (-q) = -truncate q := by
  unfold truncate
  rw [Rat.num_neg_eq_neg_num, Rat.den_neg_eq_den, Int.neg_tdiv]

theorem truncate_of_nonpos {q : ℚ} (h : q ≤ 0) : truncate q = ⌈q⌉ := by
  have hq := truncate_of_nonneg (neg_nonneg.2 h)
  rw [truncate_neg, Int.floor_neg] at hq
  omega

/-- Truncation is by less than one. -/
theorem truncate_near (q : ℚ) : q - 1 < truncate q ∧ (truncate q : ℚ) < q + 1 := by
  rcases le_total 0 q with h | h
  · rw [truncate_of_nonneg h]
    exact ⟨Int.sub_one_lt_floor q, (Int.floor_le q).trans_lt (lt_add_one q)⟩
  · rw [truncate_of_nonpos h]
    exact ⟨(sub_one_lt q).trans_le (Int.le_ceil q), Int.ceil_lt_add_one q⟩

/-- Truncation does not go back past an integer. -/
theorem le_truncate {x : Int} {q : ℚ} (h : (x : ℚ) ≤ q) : x ≤ truncate q := by
  rcases le_total 0 q with hq | hq
  · rw [truncate_of_nonneg hq]
    exact Int.le_floor.2 h
  · rw [truncate_of_nonpos hq]
    exact Int.cast_le.1 (h.trans (Int.le_ceil q))

theorem truncate_le {x : Int} {q : ℚ} (h : q ≤ x) : truncate q ≤ x := by
  have hx : -x ≤ truncate (-q) := by
    apply le_truncate
    push_cast
    linarith
  rw [truncate_neg] at hx
  omega

end Netrek
