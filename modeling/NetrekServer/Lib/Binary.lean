/-
Binary floating point over the rationals: a number is rounded to the nearest multiple of the unit of
its binade, half way to the even one. Infinities and signed zeros are left out.
-/
import Mathlib.Algebra.Order.Field.Power
import Mathlib.Algebra.Order.Floor.Ring
import Mathlib.Data.Int.Log
import Mathlib.Data.Rat.Floor
import Mathlib.Tactic.Linarith
import Mathlib.Tactic.Positivity

namespace Netrek.Lib

/-! ## The nearest integer -/

/-- The nearest integer, half way the even one. -/
def nearestEven (q : ℚ) : ℤ :=
  let f := ⌊q⌋
  if q - f < 1 / 2 then f
  else if 1 / 2 < q - f then f + 1
  else if f % 2 = 0 then f else f + 1

@[simp]
theorem nearestEven_intCast (z : ℤ) : nearestEven z = z := by
  simp [nearestEven]

theorem floor_le_nearestEven (q : ℚ) : ⌊q⌋ ≤ nearestEven q := by
  unfold nearestEven
  dsimp only
  split_ifs <;> omega

theorem nearestEven_le_floor_succ (q : ℚ) : nearestEven q ≤ ⌊q⌋ + 1 := by
  unfold nearestEven
  dsimp only
  split_ifs <;> omega

theorem nearestEven_mono {a b : ℚ} (h : a ≤ b) : nearestEven a ≤ nearestEven b := by
  rcases (Int.floor_le_floor h).eq_or_lt with heq | hlt
  -- between the same two integers the distance from the lower one decides
  · unfold nearestEven
    rw [← heq]
    dsimp only
    split_ifs <;> first | omega | (exfalso; linarith)
  · have ha := nearestEven_le_floor_succ a
    have hb := floor_le_nearestEven b
    omega

/-- Rounding is odd. -/
theorem nearestEven_neg (q : ℚ) : nearestEven (-q) = -nearestEven q := by
  rcases eq_or_ne (⌊q⌋ : ℚ) q with hint | hint
  · rw [← hint, nearestEven_intCast]
    exact_mod_cast nearestEven_intCast (-⌊q⌋)
  have hlt : (⌊q⌋ : ℚ) < q := lt_of_le_of_ne (Int.floor_le q) hint
  have hfloor : ⌊-q⌋ = -⌊q⌋ - 1 := by
    rw [Int.floor_eq_iff]
    have := Int.lt_floor_add_one q
    constructor <;> push_cast <;> linarith
  unfold nearestEven
  dsimp only
  rw [hfloor]
  push_cast
  split_ifs <;> first | omega | (exfalso; linarith)

/-! ## Multiples of a power of two -/

/-- The nearest multiple of `2 ^ e`. -/
def roundTo (e : ℤ) (q : ℚ) : ℚ := nearestEven (q / 2 ^ e) * 2 ^ e

theorem two_zpow_pos (e : ℤ) : (0 : ℚ) < 2 ^ e := by positivity

theorem roundTo_mono (e : ℤ) {a b : ℚ} (h : a ≤ b) : roundTo e a ≤ roundTo e b := by
  have hpos := two_zpow_pos e
  have hdiv : a / 2 ^ e ≤ b / 2 ^ e := by gcongr
  have hround : (nearestEven (a / 2 ^ e) : ℚ) ≤ nearestEven (b / 2 ^ e) := by exact_mod_cast nearestEven_mono hdiv
  unfold roundTo
  gcongr

theorem roundTo_neg (e : ℤ) (q : ℚ) : roundTo e (-q) = -roundTo e q := by
  unfold roundTo
  rw [neg_div, nearestEven_neg]
  push_cast
  ring

/-- A multiple of the unit stays. -/
theorem roundTo_mul (e : ℤ) (z : ℤ) : roundTo e (z * 2 ^ e) = z * 2 ^ e := by
  have hne := (two_zpow_pos e).ne'
  unfold roundTo
  rw [mul_div_cancel_right₀ _ hne, nearestEven_intCast]

/-- A multiple of a larger unit is one of this unit, too. -/
theorem exists_mul_of_le {e e' : ℤ} (h : e ≤ e') (z : ℤ) : ∃ z' : ℤ, (z * 2 ^ e' : ℚ) = z' * 2 ^ e := by
  obtain ⟨n, rfl⟩ := Int.le.dest h
  refine ⟨z * 2 ^ n, ?_⟩
  rw [zpow_add₀ two_ne_zero, zpow_natCast]
  push_cast
  ring

/-! ## Formats -/

/-- A binary format: how many digits a significand has, and the power of two that is its least unit. -/
structure Format where
  digits : ℕ
  least : ℤ
  digits_pos : 0 < digits

/-- The formats of C's `float` and `double`. -/
def single : Format := ⟨24, -149, by decide⟩
def double : Format := ⟨53, -1074, by decide⟩

namespace Format

variable (f : Format)

/-- The unit of the last digit of a number, as a power of two. -/
def unit (q : ℚ) : ℤ := max (Int.log 2 |q| - (f.digits - 1)) f.least

/-- A number as the format stores it. -/
def round (q : ℚ) : ℚ := roundTo (f.unit q) q

/-- A number that the format stores as it is. -/
def Exact (q : ℚ) : Prop := ∃ (z e : ℤ), f.least ≤ e ∧ |z| < 2 ^ f.digits ∧ q = z * 2 ^ e

variable {f}

theorem round_neg (q : ℚ) : f.round (-q) = -f.round q := by
  have hunit : f.unit (-q) = f.unit q := by
    unfold unit
    rw [abs_neg]
  unfold round
  rw [hunit, roundTo_neg]

/-- A number that has the digits is stored as it is. -/
theorem Exact.round_eq {q : ℚ} (h : f.Exact q) : f.round q = q := by
  obtain ⟨z, e, hleast, hz, rfl⟩ := h
  rcases eq_or_ne z 0 with rfl | hne
  · unfold round
    simpa using roundTo_mul (f.unit 0) 0
  have hq : |(z * 2 ^ e : ℚ)| < 2 ^ ((f.digits : ℤ) + e) := by
    rw [abs_mul, abs_of_pos (two_zpow_pos e), zpow_add₀ two_ne_zero, zpow_natCast]
    have hz' : |(z : ℚ)| < 2 ^ f.digits := by exact_mod_cast hz
    have := two_zpow_pos e
    gcongr
  have hpos : 0 < |(z * 2 ^ e : ℚ)| := abs_pos.2 (mul_ne_zero (by exact_mod_cast hne) (two_zpow_pos e).ne')
  -- the number lies in a binade whose unit is not above `2 ^ e`
  have hlog : Int.log 2 |(z * 2 ^ e : ℚ)| < f.digits + e := (Int.lt_zpow_iff_log_lt one_lt_two hpos).1 (by exact_mod_cast hq)
  have hunit : f.unit (z * 2 ^ e) ≤ e := by
    unfold unit
    omega
  unfold round
  generalize f.unit (z * 2 ^ e) = u at hunit ⊢
  obtain ⟨z', hz'⟩ := exists_mul_of_le hunit z
  rw [hz', roundTo_mul]

theorem exact_intCast {z : ℤ} (hleast : f.least ≤ 0) (hz : |z| < 2 ^ f.digits) : f.Exact z :=
  ⟨z, 0, hleast, hz, by simp⟩

theorem exact_one (hleast : f.least ≤ 0) : f.Exact 1 := by
  have hlt : (1 : ℤ) < 2 ^ f.digits := one_lt_pow₀ one_lt_two f.digits_pos.ne'
  exact_mod_cast exact_intCast (z := 1) hleast (by simpa using hlt)

/-- Numbers with a multiple of both units between them stay in order. -/
theorem round_le_of_between {a b : ℚ} {z : ℤ} {e : ℤ} (ha : f.unit a ≤ e) (hb : f.unit b ≤ e) (haz : a ≤ z * 2 ^ e)
    (hzb : z * 2 ^ e ≤ b) : f.round a ≤ f.round b := by
  obtain ⟨za, hza⟩ := exists_mul_of_le ha z
  obtain ⟨zb, hzb'⟩ := exists_mul_of_le hb z
  have hround_a := roundTo_mono (f.unit a) haz
  have hround_b := roundTo_mono (f.unit b) hzb
  rw [hza, roundTo_mul, ← hza] at hround_a
  rw [hzb', roundTo_mul, ← hzb'] at hround_b
  exact hround_a.trans hround_b

/-- Rounding keeps the order of positive numbers. -/
theorem round_mono_of_pos {a b : ℚ} (ha : 0 < a) (h : a ≤ b) : f.round a ≤ f.round b := by
  have hb : 0 < b := ha.trans_le h
  have hlog : Int.log 2 a ≤ Int.log 2 b := Int.log_mono_right ha h
  rcases eq_or_ne (f.unit a) (f.unit b) with heq | hne
  · unfold round
    rw [heq]
    exact roundTo_mono _ h
  -- the power of two below `b` is in the binade of `b`, and above `a`
  · have hdigits := f.digits_pos
    unfold unit at hne
    rw [abs_of_pos ha, abs_of_pos hb] at hne
    have hlt : Int.log 2 a < Int.log 2 b := by omega
    have hua : f.unit a ≤ Int.log 2 b := by
      unfold unit
      rw [abs_of_pos ha]
      omega
    have hub : f.unit b ≤ Int.log 2 b := by
      unfold unit
      rw [abs_of_pos hb]
      omega
    have haz : a < 2 ^ Int.log 2 b := (Int.lt_zpow_iff_log_lt one_lt_two ha).2 hlt
    have hzb : (2 : ℚ) ^ Int.log 2 b ≤ b := Int.zpow_log_le_self one_lt_two hb
    exact round_le_of_between (z := 1) hua hub (by simpa using haz.le) (by simpa using hzb)

theorem round_nonneg {q : ℚ} (h : 0 ≤ q) : 0 ≤ f.round q := by
  have hround := roundTo_mono (f.unit q) h
  have hzero := roundTo_mul (f.unit q) 0
  simp only [Int.cast_zero, zero_mul] at hzero
  unfold round
  rwa [hzero] at hround

/-- Rounding keeps the order. -/
theorem round_mono {a b : ℚ} (h : a ≤ b) : f.round a ≤ f.round b := by
  rcases lt_or_ge 0 a with ha | ha
  · exact round_mono_of_pos ha h
  rcases lt_or_ge b 0 with hb | hb
  · have hneg := round_mono_of_pos (f := f) (neg_pos.2 hb) (neg_le_neg h)
    rw [round_neg, round_neg] at hneg
    exact neg_le_neg_iff.1 hneg
  · have ha' := round_nonneg (f := f) (neg_nonneg.2 ha)
    rw [round_neg] at ha'
    exact (neg_nonneg.1 ha').trans (round_nonneg hb)

/-- Rounding does not pass a number that is stored as it is. -/
theorem Exact.le_round {a q : ℚ} (ha : f.Exact a) (h : a ≤ q) : a ≤ f.round q :=
  ha.round_eq.symm.le.trans (round_mono h)

end Format

end Netrek.Lib
