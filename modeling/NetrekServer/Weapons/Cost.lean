/-
What a torp costs and the angle between the ship and the torp. The source takes the difference of the
two directions and folds it where it is more than half a circle, at 255 instead of 256: on that side
of the bow every angle counts as one less. It shows where the torps to the side begin and where those
to the rear do.
-/
import NetrekServer.Lib.Circle
import NetrekServer.Truncate
import NetrekServer.Weapons.Launch

namespace Netrek.Weapons

open Daemon Lib

/-! ## The angle -/

/-- The difference of the two directions as numbers. -/
def gap (a b : UInt8) : Int := |(a.toNat : Int) - b.toNat|

/-- The difference as the source folds it. -/
def delta (a b : UInt8) : Int := if 128 < gap a b then 255 - gap a b else gap a b

/-- The two directions lie on different sides of zero, the shorter way round leads over it. -/
def Over (a b : UInt8) : Prop := 128 < gap a b

instance (a b : UInt8) : Decidable (Over a b) := inferInstanceAs (Decidable (_ < _))

/-- The angle between two directions is the smaller of the two ways round. -/
theorem arc_eq_gap (a b : UInt8) : (arc a b : Int) = min (gap a b) (256 - gap a b) := by
  have ha := a.toNat_lt
  have hb := b.toNat_lt
  unfold gap
  rcases le_total a.toNat b.toNat with h | h
  · have hgap : |(a.toNat : Int) - b.toNat| = b.toNat - a.toNat := by
      rw [abs_of_nonpos (by omega)]
      omega
    have harc : arc a b = min (b.toNat - a.toNat) (256 - b.toNat + a.toNat) := arc_eq (.inl ⟨rfl, rfl⟩) h
    rw [hgap, harc]
    omega
  · have hgap : |(a.toNat : Int) - b.toNat| = a.toNat - b.toNat := abs_of_nonneg (by omega)
    have harc : arc a b = min (a.toNat - b.toNat) (256 - a.toNat + b.toNat) := arc_eq (.inr ⟨rfl, rfl⟩) h
    rw [hgap, harc]
    omega

theorem delta_of_not_over {a b : UInt8} (h : ¬ Over a b) : delta a b = arc a b := by
  rw [arc_eq_gap]
  unfold delta
  unfold Over at h
  rw [if_neg h]
  omega

theorem delta_of_over {a b : UInt8} (h : Over a b) : delta a b = arc a b - 1 := by
  rw [arc_eq_gap]
  unfold delta
  unfold Over at h
  rw [if_pos h]
  omega

/-! ## The surcharge -/

variable (c : Setup) (p : Player)

/-- A starbase whose torps always cost the same. -/
def bareBase : Prop := p.ship.type = .starbase ∧ c.asstorpBase = false

instance : Decidable (bareBase c p) := inferInstanceAs (Decidable (_ ∧ _))

/-- The cost of a torp ahead, and how much a torp elsewhere costs more. -/
def baseCost : Adj → Int
  | .fuel => if p.cloakphase ≠ 0 ∧ p.ship.type ≠ .att then 2 * p.ship.torpCost else p.ship.torpCost
  | .wtemp | .etemp => p.ship.torpCost.tdiv 10 - 10

def baseAdj : Adj → ℚ
  | .fuel => c.asstorpFuelMult
  | .wtemp => c.asstorpWtempMult
  | .etemp => c.asstorpEtempMult

/-- The engines are heated by torps to the side and to the rear only. -/
def Adj.engine : Adj → Bool
  | .etemp => true
  | .fuel | .wtemp => false

/-- A torp to the side or to the rear costs more than one ahead. -/
structure Surcharged (adj : Adj) : Prop where
  bare : ¬ bareBase c p
  mult : 1 < baseAdj c adj
  cost : 0 < baseCost p adj

/-- How much a torp costs more, the cost taken as a `float`, by how far a direction counts. -/
def surcharge (adj : Adj) (dirAdj : ℚ) : ℚ := adjustedCost (baseCost p adj) (baseAdj c adj) p dirAdj - baseCost p adj

/-- The surcharge changes by a whole point between this angle and the one below it. -/
def Threshold (adj : Adj) (angle : Nat) : Prop :=
  angle = 42 ∧ (adj.engine ∨ ⌊surcharge c p adj (1 / 2)⌋ ≠ 0) ∨
    angle = 93 ∧ ⌊surcharge c p adj 1⌋ ≠ ⌊surcharge c p adj (1 / 2)⌋

/-- The cost as a function of the folded difference. -/
def costAt (adj : Adj) (delta : Int) : Int :=
  let base := if adj.engine then
    if bareBase c p ∨ baseAdj c adj ≤ 1 ∨ delta < 42 then 0 else baseCost p adj else baseCost p adj
  if bareBase c p then base
  else if baseAdj c adj ≤ 1 then base
  else if base ≤ 0 then 0
  else if delta < 42 then base
  else truncate (adjustedCost base (baseAdj c adj) p (if 92 < delta then 1 else 1 / 2))

variable {c p}

theorem getAdjTorpCost_eq (torpdir : UInt8) (adj : Adj) :
    getAdjTorpCost c p torpdir adj = costAt c p adj (delta p.dir torpdir) := by
  cases adj <;> rfl

theorem costAt_of_not_surcharged {adj : Adj} (h : ¬ Surcharged c p adj) (d d' : Int) :
    costAt c p adj d = costAt c p adj d' := by
  unfold costAt
  by_cases hbare : bareBase c p
  · simp [hbare]
  by_cases hmult : baseAdj c adj ≤ 1
  · simp [hmult]
  have hcost : baseCost p adj ≤ 0 := by
    by_contra hcost
    exact h ⟨hbare, lt_of_not_ge hmult, lt_of_not_ge hcost⟩
  simp only [hbare, hmult, if_false, false_or]
  split_ifs <;> omega

/-- No term of the multiplier is rounded below what it would be at rest. -/
theorem one_le_adjustedCost {base : Int} {mult q : ℚ} (hbase : 0 < base) (hmult : 1 < mult) (hspeed : 0 ≤ p.speed)
    (hmax : 0 < p.ship.maxSpeed) (hq : 0 ≤ q) : 1 ≤ adjustedCost base mult p q := by
  have hspeed' : (0 : ℚ) ≤ p.speed := by exact_mod_cast hspeed
  have hmax' : (0 : ℚ) ≤ p.ship.maxSpeed := by exact_mod_cast hmax.le
  have hadj : 0 ≤ toFloat (toFloat p.speed / toFloat p.ship.maxSpeed) :=
    toFloat_nonneg (div_nonneg (toFloat_nonneg hspeed') (toFloat_nonneg hmax'))
  have hterm : 0 ≤ toDouble (mult - 1) := toDouble_nonneg (by linarith)
  have hsum := toDouble_nonneg (mul_nonneg (toDouble_nonneg (mul_nonneg hterm hadj)) hq)
  have hnet := one_le_toFloat (one_le_toDouble (le_add_of_nonneg_right hsum))
  have hbase' : (1 : ℚ) ≤ base := by exact_mod_cast hbase
  exact one_le_toFloat (one_le_mul_of_one_le_of_one_le (one_le_toFloat hbase') hnet)

theorem truncate_adjustedCost {adj : Adj} (h : Surcharged c p adj) (hspeed : 0 ≤ p.speed) (hmax : 0 < p.ship.maxSpeed)
    {q : ℚ} (hq : 0 ≤ q) :
    truncate (adjustedCost (baseCost p adj) (baseAdj c adj) p q) = baseCost p adj + ⌊surcharge c p adj q⌋ := by
  have hone := one_le_adjustedCost h.cost h.mult hspeed hmax hq
  have heq : adjustedCost (baseCost p adj) (baseAdj c adj) p q = baseCost p adj + surcharge c p adj q := by
    unfold surcharge
    ring
  rw [truncate_of_nonneg (zero_le_one.trans hone), heq, Int.floor_intCast_add]

theorem costAt_ahead {adj : Adj} (h : Surcharged c p adj) {d : Int} (hd : d < 42) :
    costAt c p adj d = if adj.engine then 0 else baseCost p adj := by
  have hcost := h.cost
  unfold costAt
  simp only [h.bare, not_le_of_gt h.mult, if_false, hd, or_true, if_true]
  cases adj.engine
  · simp [hcost]
  · simp

theorem costAt_not_ahead {adj : Adj} (h : Surcharged c p adj) (hspeed : 0 ≤ p.speed) (hmax : 0 < p.ship.maxSpeed)
    {d : Int} (hd : ¬ d < 42) :
    costAt c p adj d = baseCost p adj + ⌊surcharge c p adj (if 92 < d then 1 else 1 / 2)⌋ := by
  have hq : (0 : ℚ) ≤ if 92 < d then 1 else 1 / 2 := by split_ifs <;> norm_num
  rw [← truncate_adjustedCost h hspeed hmax hq]
  unfold costAt
  simp only [h.bare, not_le_of_gt h.mult, if_false, hd, or_false, ite_self, not_le_of_gt h.cost]

theorem costAt_side {adj : Adj} (h : Surcharged c p adj) (hspeed : 0 ≤ p.speed) (hmax : 0 < p.ship.maxSpeed) {d : Int}
    (hlo : 42 ≤ d) (hhi : d ≤ 92) : costAt c p adj d = baseCost p adj + ⌊surcharge c p adj (1 / 2)⌋ := by
  rw [costAt_not_ahead h hspeed hmax (not_lt_of_ge hlo), if_neg (not_lt_of_ge hhi)]

theorem costAt_rear {adj : Adj} (h : Surcharged c p adj) (hspeed : 0 ≤ p.speed) (hmax : 0 < p.ship.maxSpeed) {d : Int}
    (hd : 92 < d) : costAt c p adj d = baseCost p adj + ⌊surcharge c p adj 1⌋ := by
  rw [costAt_not_ahead h hspeed hmax (by omega), if_pos hd]

/-- A torp that is not ahead costs something. -/
theorem costAt_side_pos {adj : Adj} (h : Surcharged c p adj) (hspeed : 0 ≤ p.speed) (hmax : 0 < p.ship.maxSpeed) :
    0 < baseCost p adj + ⌊surcharge c p adj (1 / 2)⌋ := by
  have hone := one_le_adjustedCost (q := 1 / 2) h.cost h.mult hspeed hmax (by norm_num)
  rw [← truncate_adjustedCost h hspeed hmax (by norm_num)]
  exact le_truncate (x := 1) (by exact_mod_cast hone)

/-! ## The cost and the angle -/

/-- Counting one less than the angle matters at the two thresholds only. -/
theorem costAt_pred_iff {adj : Adj} (h : Surcharged c p adj) (hspeed : 0 ≤ p.speed) (hmax : 0 < p.ship.maxSpeed)
    (angle : Nat) : costAt c p adj angle = costAt c p adj (angle - 1) ↔ ¬ Threshold c p adj angle := by
  unfold Threshold
  rcases lt_or_ge angle 42 with hlt | hge
  · rw [costAt_ahead h (by omega), costAt_ahead h (by omega)]
    simp [show angle ≠ 42 by omega, show angle ≠ 93 by omega]
  rcases eq_or_ne angle 42 with rfl | h42
  -- the torp to the side begins here
  · have hpos := costAt_side_pos h hspeed hmax
    rw [costAt_side h hspeed hmax (by norm_num) (by norm_num), costAt_ahead h (by norm_num)]
    cases adj.engine
    · simp
    · simpa using hpos.ne'
  rcases eq_or_ne angle 93 with rfl | h93
  -- the torp to the rear begins here
  · rw [costAt_rear h hspeed hmax (by norm_num), costAt_side h hspeed hmax (by norm_num) (by norm_num), add_right_inj]
    simp
  rcases lt_or_ge 93 angle with hrear | hside
  · rw [costAt_rear h hspeed hmax (by omega), costAt_rear h hspeed hmax (by omega)]
    simp [h42, h93]
  · rw [costAt_side h hspeed hmax (by omega) (by omega), costAt_side h hspeed hmax (by omega) (by omega)]
    simp [h42, h93]

/-- Two torps at the same angle cost the same, unless they are on different sides of zero, torps that
are not ahead cost more, and the cost changes at this angle. -/
theorem torp_cost_depends_on_angle_iff (c : Setup) (p : Player) (dir torpdir torpdir' : UInt8) (adj : Adj)
    (hspeed : 0 ≤ p.speed) (hmax : 0 < p.ship.maxSpeed) (hangle : arc p.dir torpdir = arc dir torpdir') :
    getAdjTorpCost c p torpdir adj = getAdjTorpCost c { p with dir := dir } torpdir' adj ↔
      ((Over p.dir torpdir ↔ Over dir torpdir') ∨
        ¬ (Surcharged c p adj ∧ Threshold c p adj (arc p.dir torpdir))) := by
  have hcost : ∀ d, costAt c { p with dir := dir } adj d = costAt c p adj d := by
    intro d
    cases adj <;> rfl
  rw [getAdjTorpCost_eq, getAdjTorpCost_eq, hcost]
  by_cases hfree : Surcharged c p adj
  swap
  · have heq := costAt_of_not_surcharged hfree (delta p.dir torpdir) (delta dir torpdir')
    simp [hfree, heq]
  have hiff := costAt_pred_iff hfree hspeed hmax (arc p.dir torpdir)
  by_cases ho : Over p.dir torpdir <;> by_cases ho' : Over dir torpdir'
  · simp [delta_of_over, ho, ho', hangle]
  · rw [delta_of_over ho, delta_of_not_over ho', ← hangle, eq_comm, hiff]
    simp [ho, ho', hfree]
  · rw [delta_of_not_over ho, delta_of_over ho', ← hangle, hiff]
    simp [ho, ho', hfree]
  · simp [delta_of_not_over, ho, ho', hangle]

/-- A server where torps that are not ahead take up to twice the fuel. -/
def costlySetup : Setup := { (default : Setup) with asstorpFuelMult := 2 }

/-- A cruiser at full speed, heading up. -/
def cruiser : Player :=
  { (default : Player) with speed := 9, ship := { (default : Ship) with type := .cruiser, torpCost := 140, maxSpeed := 9 } }

theorem torp_cost_depends_on_angle_at_cruiser :
    (0 ≤ cruiser.speed ∧ 0 < cruiser.ship.maxSpeed ∧ arc cruiser.dir 41 = arc 100 59) ∧
      (getAdjTorpCost costlySetup cruiser 41 .fuel = getAdjTorpCost costlySetup { cruiser with dir := 100 } 59 .fuel ↔
        ((Over cruiser.dir 41 ↔ Over 100 59) ∨
          ¬ (Surcharged costlySetup cruiser .fuel ∧ Threshold costlySetup cruiser .fuel (arc cruiser.dir 41)))) :=
  ⟨by decide, torp_cost_depends_on_angle_iff costlySetup cruiser 100 41 59 .fuel (by decide) (by decide) (by decide)⟩

/-- Torps at the same angle on the two sides of the bow do not cost the same: the torp on one side
counts as one to the side, the torp on the other as one ahead. -/
theorem torp_cost_differs_at_42 :
    ¬ ∀ (c : Setup) (p : Player) (dir torpdir torpdir' : UInt8) (adj : Adj), 0 ≤ p.speed → 0 < p.ship.maxSpeed →
      arc p.dir torpdir = arc dir torpdir' →
        getAdjTorpCost c p torpdir adj = getAdjTorpCost c { p with dir := dir } torpdir' adj := by
  intro h
  have h42 := h costlySetup cruiser 0 42 214 .fuel (by decide) (by decide) (by decide)
  have hside : getAdjTorpCost costlySetup cruiser 42 .fuel = 210 := by decide +kernel
  have hahead : getAdjTorpCost costlySetup { cruiser with dir := 0 } 214 .fuel = 140 := by decide +kernel
  rw [hside, hahead] at h42
  exact absurd h42 (by decide)

end Netrek.Weapons
