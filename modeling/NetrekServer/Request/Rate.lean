/-
The rate that `p_ups_set` of `ntserv/util.c` leaves: the frames are divided by the rate asked for, and again by
what that gives, so a client gets the highest rate that takes as many frames per update. The request is kept
within the limits, the rate that comes of it is not.
-/
import NetrekServer.Request.Bounds

namespace Netrek.Request

/-! ## Frames per update -/

section Divisor

variable {fps u m : Nat}

theorem div_pos_of_le (hu : 0 < u) (h : u ≤ fps) : 0 < fps / u := Nat.div_pos h hu

/-- The rate that comes of a request is no lower. -/
theorem le_div_div (hu : 0 < u) (h : u ≤ fps) : u ≤ fps / (fps / u) := by
  rw [Nat.le_div_iff_mul_le (div_pos_of_le hu h), Nat.mul_comm]
  exact Nat.div_mul_le_self fps u

/-- It takes as many frames. -/
theorem div_div_div (hu : 0 < u) (h : u ≤ fps) : fps / (fps / (fps / u)) = fps / u := by
  have hpos := div_pos_of_le hu h
  apply Nat.le_antisymm
  · exact Nat.div_le_div_left (le_div_div hu h) hu
  · exact le_div_div hpos (Nat.div_le_self fps u)

/-- And it is the highest that does. -/
theorem div_div_le_iff (hu : 0 < u) (h : u ≤ fps) : fps / (fps / u) ≤ m ↔ fps / (m + 1) < fps / u := by
  have hpos := div_pos_of_le hu h
  rw [← Nat.lt_succ_iff, Nat.div_lt_iff_lt_mul hpos, Nat.div_lt_iff_lt_mul (Nat.succ_pos m), Nat.mul_comm]

/-- A limit between the request and the rate that comes of it leaves the frames per update as they are. -/
theorem div_min_div_div (hu : 0 < u) (h : u ≤ fps) (hm : u ≤ m) : fps / min (fps / (fps / u)) m = fps / u := by
  rcases Nat.le_total (fps / (fps / u)) m with hle | hle
  · rw [Nat.min_eq_left hle, div_div_div hu h]
  · rw [Nat.min_eq_right hle]
    apply Nat.le_antisymm
    · exact Nat.div_le_div_left hm hu
    · calc fps / u = fps / (fps / (fps / u)) := (div_div_div hu h).symm
        _ ≤ fps / m := Nat.div_le_div_left hle (by omega)

end Divisor

/-! ## Setting the rate -/

/-- The request within the limits. -/
theorem clampUps_eq (r : Rates) (ups : Nat) (h : r.minups ≤ r.maxups) (hf : r.minups ≤ r.fps) :
    clampUps r ups = min (max ups r.minups) (min r.maxups r.fps) := by
  unfold clampUps
  simp only
  split <;> split <;> split <;> omega

/-- What `p_ups_set` makes of the player. -/
def setRate (w : World) (fpu ups : Nat) : World × Bool :=
  if w.me.fpu = fpu ∧ w.me.ups = ups then (w, false)
  else (w.modifyMe fun p => { p with fpu := fpu, ups := ups }, true)

theorem me_modifyMe (w : World) (f : Player → Player) : (w.modifyMe f).me = f w.me := Function.update_self _ _ _

theorem me_setRate (w : World) (fpu ups : Nat) : (setRate w fpu ups).1.me.fpu = fpu ∧ (setRate w fpu ups).1.me.ups = ups := by
  unfold setRate
  split
  · assumption
  · rw [me_modifyMe]
    exact ⟨rfl, rfl⟩

theorem proc_setRate (w : World) (fpu ups : Nat) : (setRate w fpu ups).1.proc = w.proc := by
  unfold setRate
  split <;> rfl

theorem divide_eq {a b : Nat} (hb : 0 < b) : divide a b = .ok (a / b) := if_neg (by omega)

/-- `p_ups_set` divides by no zero. -/
theorem pUpsSet_eq (w : World) (ups : Nat) :
    pUpsSet w ups = .ok (setRate w (w.proc.rates.fps / clampUps w.proc.rates ups)
      (w.proc.rates.fps / (w.proc.rates.fps / clampUps w.proc.rates ups))) := by
  obtain ⟨hpos, hle⟩ := clampUps_pos_le w.proc.rates ups
  unfold pUpsSet
  rw [divide_eq hpos]
  show (divide _ _).map _ = _
  rw [divide_eq (div_pos_of_le hpos hle)]
  rfl

/-- A request for the rate one already has is granted as it is. -/
theorem setRate_self (w : World) : setRate w w.me.fpu w.me.ups = (w, false) := if_pos ⟨rfl, rfl⟩

/-! ## The limits -/

/-- The rate is within the limits, the division of frames is exact to a frame, and a request for the rate
that was set changes nothing. -/
def KeepsLimits (w : World) (ups : Nat) : Prop :=
  ∃ w' b, pUpsSet w ups = .ok (w', b) ∧
    w.proc.rates.minups ≤ w'.me.ups ∧ w'.me.ups ≤ w.proc.rates.maxups ∧
    1 ≤ w'.me.fpu ∧ w'.me.ups = w.proc.rates.fps / w'.me.fpu ∧
    pUpsSet w' w'.me.ups = .ok (w', false)

/-- Asking for the rate that was set changes nothing, also where it exceeds the limit. -/
theorem clampUps_rate (r : Rates) (ups : Nat) (h : r.minups ≤ r.maxups) (hf : r.minups ≤ r.fps) :
    r.fps / clampUps r (r.fps / (r.fps / clampUps r ups)) = r.fps / clampUps r ups := by
  obtain ⟨hpos, hle⟩ := clampUps_pos_le r ups
  have hc := clampUps_eq r ups h hf
  have hbounds : r.minups ≤ clampUps r ups ∧ clampUps r ups ≤ r.maxups := by omega
  generalize clampUps r ups = c at hpos hle hbounds
  have hup := le_div_div hpos hle
  have hself : r.fps / (r.fps / c) ≤ r.fps := Nat.div_le_self _ _
  have hclamp : clampUps r (r.fps / (r.fps / c)) = min (r.fps / (r.fps / c)) r.maxups := by
    rw [clampUps_eq r _ h hf]
    omega
  rw [hclamp, div_min_div_div hpos hle hbounds.2]

/-- The rate is within the limits exactly if one above `maxups` would take fewer frames per update. -/
theorem keepsLimits_iff (w : World) (ups : Nat) (h : w.proc.rates.minups ≤ w.proc.rates.maxups)
    (hf : w.proc.rates.minups ≤ w.proc.rates.fps) :
    KeepsLimits w ups ↔
      w.proc.rates.fps / (w.proc.rates.maxups + 1) <
        w.proc.rates.fps / min (max ups w.proc.rates.minups) (min w.proc.rates.maxups w.proc.rates.fps) := by
  rw [← clampUps_eq _ _ h hf]
  obtain ⟨hpos, hle⟩ := clampUps_pos_le w.proc.rates ups
  have hmin : w.proc.rates.minups ≤ clampUps w.proc.rates ups := by
    rw [clampUps_eq _ _ h hf]
    omega
  have hagain := clampUps_rate w.proc.rates ups h hf
  have hup := le_div_div hpos hle
  rw [← div_div_le_iff hpos hle]
  unfold KeepsLimits
  rw [pUpsSet_eq]
  generalize hfpu : w.proc.rates.fps / clampUps w.proc.rates ups = fpu at hagain hup ⊢
  obtain ⟨hme, hset⟩ := me_setRate w fpu (w.proc.rates.fps / fpu)
  have hproc := proc_setRate w fpu (w.proc.rates.fps / fpu)
  constructor
  · rintro ⟨w', b, hw, -, hmax, -⟩
    obtain rfl : (setRate w fpu (w.proc.rates.fps / fpu)).1 = w' := congrArg Prod.fst (Except.ok.inj hw)
    rwa [hset] at hmax
  · intro hmax
    refine ⟨(setRate w fpu (w.proc.rates.fps / fpu)).1, (setRate w fpu (w.proc.rates.fps / fpu)).2, rfl, ?_⟩
    rw [hme, hset]
    refine ⟨by omega, hmax, ?_, rfl, ?_⟩
    · rw [← hfpu]
      exact div_pos_of_le hpos hle
    · rw [pUpsSet_eq, hproc, hagain]
      have hself := setRate_self (setRate w fpu (w.proc.rates.fps / fpu)).1
      rw [hme, hset] at hself
      exact congrArg Except.ok hself

/-- A server of 50 frames per second whose clients may have 30 updates at most. -/
def capped : World :=
  { (default : World) with
    proc := { (default : Proc) with rates := { (default : Rates) with maxups := 30, maxups_pos := by decide } } }

theorem keepsLimits_capped : 50 / (30 + 1) < 50 / min (max 25 1) (min 30 50) ∧ KeepsLimits capped 25 :=
  ⟨by decide, (keepsLimits_iff capped 25 (by decide) (by decide)).2 (by decide)⟩

/-- At that server the highest rate that may be asked for is granted as 50. -/
theorem exceeds_maxups : ¬ ∀ (w : World) (ups : Nat), w.proc.rates.minups ≤ w.proc.rates.maxups →
    w.proc.rates.minups ≤ w.proc.rates.fps → KeepsLimits w ups := by
  intro h
  obtain ⟨w', b, hw, -, hmax, -⟩ := h capped 30 (by decide) (by decide)
  rw [pUpsSet_eq] at hw
  obtain rfl := congrArg Prod.fst (Except.ok.inj hw)
  rw [(me_setRate _ _ _).2] at hmax
  exact absurd hmax (by decide)

end Netrek.Request
