/-
`udplayers_palive_repair` of `ntserv/daemon.c`: shields and hull are repaired in thousandths of a point.
The whole points are credited to the player before the shields are cut down to their maximum and the
hull to no damage, so that a step that goes too far is credited for more than it repairs.
-/
import Mathlib.Tactic.Linarith
import NetrekServer.Server

namespace Netrek.Repair

/-! ## Data -/

/-- A ship under repair: `s_repair` of its type, `p_repair_time`, and `damage_repaired` of its statistics. -/
structure Yard where
  player : Player
  repair : Int
  repairTime : Int
  damageRepaired : Word

/-- What the rest of the server sets between two calls: what the ship does and where it is. -/
structure Setting where
  flags : Word
  speed : Int
  planet : Fin maxPlanets
  war : Word
  planets : Fin maxPlanets → Planet

/-- An `int` as a `short`. -/
def short (n : Int) : Int := n.bmod (2 ^ 16)

/-- `ltd_update_repaired`. -/
def ltdUpdateRepaired (y : Yard) (damage : Int) : Yard :=
  { y with damageRepaired := y.damageRepaired + BitVec.ofInt 32 damage }

/-! ## The rates -/

/-- The ship stands still and is repaired. -/
def resting (p : Player) : Bool := p.flags.has pfRepair && p.speed == 0

/-- The ship orbits a planet that repairs it. -/
def atRepairPlanet (planets : Fin maxPlanets → Planet) (p : Player) : Bool :=
  p.flags.has pfOrbit && (planets p.planet).flags.has plRepair && !(planets p.planet).owner.has p.war

/-- What a call adds to `p_subshield`. -/
def shieldGain (planets : Fin maxPlanets → Planet) (y : Yard) : Int :=
  if resting y.player then
    y.repair * 4 + (if atRepairPlanet planets y.player then y.repair * 4 else 0) +
      (if y.player.flags.has pfDock then y.repair * 6 else 0)
  else y.repair * 2

/-- What a call adds to `p_subdamage`. -/
def hullGain (planets : Fin maxPlanets → Planet) (y : Yard) : Int :=
  if resting y.player then
    y.repair * 2 + (if atRepairPlanet planets y.player then y.repair * 2 else 0) +
      (if y.player.flags.has pfDock then y.repair * 3 else 0)
  else y.repair

/-! ## `udplayers_palive_repair` -/

/-- The shields are repaired; also the time that the repair takes. -/
def repairShields (planets : Fin maxPlanets → Planet) (y : Yard) : Yard × Int :=
  let p := y.player
  if p.shield < p.ship.maxShield then
    let gained := shieldGain planets y
    let sub := p.subshield + gained
    let time := ((p.ship.maxShield - p.shield) * 100).tdiv gained
    let y := { y with player := { p with subshield := sub }, repairTime := short time }
    let y :=
      if sub.tdiv 1000 ≠ 0 then
        { ltdUpdateRepaired y (sub.tdiv 1000) with
          player := { p with shield := p.shield + sub.tdiv 1000, subshield := sub.tmod 1000 } }
      else y
    let p := y.player
    let y := if p.ship.maxShield < p.shield then { y with player := { p with shield := p.ship.maxShield, subshield := 0 } } else y
    (y, time)
  else (y, 0)

/-- The hull is repaired, if the shields are down. -/
def repairHull (planets : Fin maxPlanets → Planet) (y : Yard) (repairTime : Int) : Yard :=
  let p := y.player
  if p.damage ≠ 0 ∧ !p.flags.has pfShield then
    let gained := hullGain planets y
    let sub := p.subdamage + gained
    let time := (p.damage * 100).tdiv gained
    let y := { y with
      player := { p with subdamage := sub }
      repairTime := short (if p.shield ≠ p.ship.maxShield then max repairTime time else time) }
    let y :=
      if sub.tdiv 1000 ≠ 0 then
        { ltdUpdateRepaired y (sub.tdiv 1000) with
          player := { p with damage := p.damage - sub.tdiv 1000, subdamage := sub.tmod 1000 } }
      else y
    let p := y.player
    if p.damage < 0 then { y with player := { p with damage := 0, subdamage := 0 } } else y
  else y

/-- `udplayers_palive_repair`. -/
def udplayersPaliveRepair (planets : Fin maxPlanets → Planet) (y : Yard) : Yard :=
  let (y, time) := repairShields planets y
  repairHull planets y time

/-- What the ship does and where it is, before a call. -/
def Yard.set (y : Yard) (c : Setting) : Yard :=
  { y with player := { y.player with flags := c.flags, speed := c.speed, planet := c.planet, war := c.war } }

def call (y : Yard) (c : Setting) : Yard := udplayersPaliveRepair c.planets (y.set c)

/-! ## Bounds -/

/-- A ship as it should be: `s_repair` is a positive `short`. `s_maxshield` has no bound here; the code computes a hundred
times it in an `int`, and every ship has at most 600. -/
structure Sound (y : Yard) : Prop where
  repair : 1 ≤ y.repair ∧ y.repair < 2 ^ 15
  shield : 0 ≤ y.player.shield ∧ y.player.shield ≤ y.player.ship.maxShield
  damage : 0 ≤ y.player.damage
  subshield : 0 ≤ y.player.subshield ∧ y.player.subshield < 1000
  subdamage : 0 ≤ y.player.subdamage ∧ y.player.subdamage < 1000

/-- So many points are beyond the maximum of the shields. -/
def shieldOver (planets : Fin maxPlanets → Planet) (y : Yard) : Int :=
  if y.player.shield < y.player.ship.maxShield then
    max 0 (y.player.shield + (y.player.subshield + shieldGain planets y) / 1000 - y.player.ship.maxShield)
  else 0

/-- So many points are more than the damage of the hull. -/
def hullOver (planets : Fin maxPlanets → Planet) (y : Yard) : Int :=
  if y.player.damage ≠ 0 ∧ !y.player.flags.has pfShield then
    max 0 ((y.player.subdamage + hullGain planets y) / 1000 - y.player.damage)
  else 0

/-- No more overshoot than this can come from a repair that is under way. -/
def overMax : Int := 460

variable (planets : Fin maxPlanets → Planet) {y : Yard}

theorem shieldGain_bounds (h : Sound y) : 0 < shieldGain planets y ∧ shieldGain planets y ≤ 14 * (2 ^ 15 - 1) := by
  have hr := h.repair
  unfold shieldGain
  split_ifs <;> omega

theorem hullGain_bounds (h : Sound y) : 0 < hullGain planets y ∧ hullGain planets y ≤ 7 * (2 ^ 15 - 1) := by
  have hr := h.repair
  unfold hullGain
  split_ifs <;> omega

/-! ## One call -/

/-- The shields after a repair, however much of a point it was. -/
structure ShieldsRepaired (planets : Fin maxPlanets → Planet) (y y' : Yard) : Prop where
  repair : y'.repair = y.repair
  ship : y'.player.ship = y.player.ship
  flags : y'.player.flags = y.player.flags
  damage : y'.player.damage = y.player.damage
  subdamage : y'.player.subdamage = y.player.subdamage
  gain : hullGain planets y' = hullGain planets y
  shield : y.player.shield ≤ y'.player.shield ∧ y'.player.shield ≤ y.player.ship.maxShield
  subshield : 0 ≤ y'.player.subshield ∧ y'.player.subshield < 1000
  excess : 0 ≤ shieldOver planets y ∧ shieldOver planets y ≤ overMax ∧
    (shieldOver planets y ≠ 0 → y.player.shield < y.player.ship.maxShield ∧ y'.player.shield = y.player.ship.maxShield)
  credit : y'.damageRepaired =
    y.damageRepaired + BitVec.ofInt 32 (y'.player.shield - y.player.shield + shieldOver planets y)

/-- Whole units and what is left of them. -/
theorem thousandths {n : Int} (h : 0 ≤ n) : n.tdiv 1000 = n / 1000 ∧ n.tmod 1000 = n % 1000 :=
  ⟨Int.tdiv_eq_ediv_of_nonneg h, Int.tmod_eq_emod_of_nonneg h⟩

/-- Shields that are not full, after a repair. -/
theorem repairShields_low (h : Sound y) (hlow : y.player.shield < y.player.ship.maxShield) :
    (repairShields planets y).1 =
      { y with
        repairTime := short (((y.player.ship.maxShield - y.player.shield) * 100).tdiv (shieldGain planets y))
        damageRepaired := y.damageRepaired + BitVec.ofInt 32 ((y.player.subshield + shieldGain planets y) / 1000)
        player := { y.player with
          shield := min y.player.ship.maxShield (y.player.shield + (y.player.subshield + shieldGain planets y) / 1000)
          subshield :=
            if y.player.ship.maxShield < y.player.shield + (y.player.subshield + shieldGain planets y) / 1000 then 0
            else (y.player.subshield + shieldGain planets y) % 1000 } } := by
  have hsub := h.subshield
  obtain ⟨hpos, -⟩ := shieldGain_bounds planets h
  have hsum : 0 ≤ y.player.subshield + shieldGain planets y := by omega
  obtain ⟨hdiv, hmod⟩ := thousandths hsum
  unfold repairShields
  simp only [if_pos hlow, hdiv, hmod]
  by_cases hq : (y.player.subshield + shieldGain planets y) / 1000 = 0
  · have hself : (y.player.subshield + shieldGain planets y) % 1000 = y.player.subshield + shieldGain planets y := by omega
    simp [hq, hself, not_lt.2 hlow.le, min_eq_right hlow.le]
  by_cases hover : y.player.ship.maxShield < y.player.shield + (y.player.subshield + shieldGain planets y) / 1000
  · simp only [ne_eq, hq, not_false_eq_true, if_true, ltdUpdateRepaired, if_pos hover, min_eq_left hover.le]
  · simp only [ne_eq, hq, not_false_eq_true, if_true, ltdUpdateRepaired, if_neg hover, min_eq_right (not_lt.1 hover)]

/-- The shields gain points up to their maximum, and what is over it is credited too. -/
theorem repairShields_spec (h : Sound y) : ShieldsRepaired planets y (repairShields planets y).1 := by
  have hshield := h.shield
  have hsub := h.subshield
  by_cases hlow : y.player.shield < y.player.ship.maxShield
  · obtain ⟨hpos, hmax⟩ := shieldGain_bounds planets h
    have hover : shieldOver planets y =
        max 0 (y.player.shield + (y.player.subshield + shieldGain planets y) / 1000 - y.player.ship.maxShield) := if_pos hlow
    rw [repairShields_low planets h hlow]
    refine ⟨rfl, rfl, rfl, rfl, rfl, rfl, ?_, ?_, ?_, ?_⟩
    · constructor
      · show y.player.shield ≤ min _ _
        omega
      · exact min_le_left _ _
    · dsimp only
      split_ifs <;> omega
    · rw [hover]
      unfold overMax
      refine ⟨le_max_left _ _, by omega, fun hne => ⟨hlow, ?_⟩⟩
      show min _ _ = _
      omega
    · rw [hover]
      show _ + BitVec.ofInt 32 _ = _ + BitVec.ofInt 32 (min _ _ - _ + _)
      congr 2
      omega
  · have hdone : repairShields planets y = (y, 0) := if_neg hlow
    have hover : shieldOver planets y = 0 := if_neg hlow
    rw [hdone]
    refine ⟨rfl, rfl, rfl, rfl, rfl, rfl, ⟨le_rfl, hshield.2⟩, hsub, ?_, ?_⟩
    · rw [hover]
      exact ⟨le_rfl, by decide, fun h => absurd rfl h⟩
    · simp [hover]

/-- The hull after a repair. -/
structure HullRepaired (planets : Fin maxPlanets → Planet) (y y' : Yard) : Prop where
  repair : y'.repair = y.repair
  ship : y'.player.ship = y.player.ship
  shield : y'.player.shield = y.player.shield
  subshield : y'.player.subshield = y.player.subshield
  damage : 0 ≤ y'.player.damage ∧ y'.player.damage ≤ y.player.damage
  subdamage : 0 ≤ y'.player.subdamage ∧ y'.player.subdamage < 1000
  excess : 0 ≤ hullOver planets y ∧ hullOver planets y ≤ overMax ∧
    (hullOver planets y ≠ 0 → y.player.damage ≠ 0 ∧ y'.player.damage = 0)
  credit : y'.damageRepaired =
    y.damageRepaired + BitVec.ofInt 32 (y.player.damage - y'.player.damage + hullOver planets y)

/-- A damaged hull with the shields down, after a repair. -/
theorem repairHull_damaged (h : Sound y) (hlow : y.player.damage ≠ 0 ∧ !y.player.flags.has pfShield) (time : Int) :
    repairHull planets y time =
      { y with
        repairTime := short (if y.player.shield ≠ y.player.ship.maxShield then
          max time ((y.player.damage * 100).tdiv (hullGain planets y)) else (y.player.damage * 100).tdiv (hullGain planets y))
        damageRepaired := y.damageRepaired + BitVec.ofInt 32 ((y.player.subdamage + hullGain planets y) / 1000)
        player := { y.player with
          damage := max 0 (y.player.damage - (y.player.subdamage + hullGain planets y) / 1000)
          subdamage := if y.player.damage - (y.player.subdamage + hullGain planets y) / 1000 < 0 then 0
            else (y.player.subdamage + hullGain planets y) % 1000 } } := by
  have hdamage := h.damage
  have hsub := h.subdamage
  obtain ⟨hpos, -⟩ := hullGain_bounds planets h
  have hsum : 0 ≤ y.player.subdamage + hullGain planets y := by omega
  obtain ⟨hdiv, hmod⟩ := thousandths hsum
  unfold repairHull
  simp only [if_pos hlow, hdiv, hmod]
  by_cases hq : (y.player.subdamage + hullGain planets y) / 1000 = 0
  · have hself : (y.player.subdamage + hullGain planets y) % 1000 = y.player.subdamage + hullGain planets y := by omega
    simp [hq, hself, not_lt.2 hdamage, max_eq_right hdamage]
  by_cases hover : y.player.damage - (y.player.subdamage + hullGain planets y) / 1000 < 0
  · simp only [ne_eq, hq, not_false_eq_true, if_true, ltdUpdateRepaired, if_pos hover, max_eq_left hover.le]
  · simp only [ne_eq, hq, not_false_eq_true, if_true, ltdUpdateRepaired, if_neg hover, max_eq_right (not_lt.1 hover)]

/-- The hull loses damage down to none, and what is over is credited too. -/
theorem repairHull_spec (h : Sound y) (time : Int) : HullRepaired planets y (repairHull planets y time) := by
  have hdamage := h.damage
  have hsub := h.subdamage
  by_cases hlow : y.player.damage ≠ 0 ∧ !y.player.flags.has pfShield
  · obtain ⟨hpos, hmax⟩ := hullGain_bounds planets h
    have hover : hullOver planets y = max 0 ((y.player.subdamage + hullGain planets y) / 1000 - y.player.damage) :=
      if_pos hlow
    rw [repairHull_damaged planets h hlow]
    refine ⟨rfl, rfl, rfl, rfl, ?_, ?_, ?_, ?_⟩
    · constructor
      · exact le_max_left _ _
      · show max _ _ ≤ _
        omega
    · dsimp only
      split_ifs <;> omega
    · rw [hover]
      unfold overMax
      refine ⟨le_max_left _ _, by omega, fun hne => ⟨hlow.1, ?_⟩⟩
      show max _ _ = _
      omega
    · rw [hover]
      show _ + BitVec.ofInt 32 _ = _ + BitVec.ofInt 32 (_ - max _ _ + _)
      congr 2
      omega
  · have hdone : repairHull planets y time = y := if_neg hlow
    have hover : hullOver planets y = 0 := if_neg hlow
    rw [hdone]
    refine ⟨rfl, rfl, rfl, rfl, ⟨hdamage, le_rfl⟩, hsub, ?_, ?_⟩
    · rw [hover]
      exact ⟨le_rfl, by decide, fun h => absurd rfl h⟩
    · simp [hover]

/-- A call keeps the bounds, repairs, and credits what is repaired and what goes too far. -/
structure Called (y : Yard) (c : Setting) (y' : Yard) : Prop where
  sound : Sound y'
  shield : y.player.shield ≤ y'.player.shield
  damage : y'.player.damage ≤ y.player.damage
  ship : y'.player.ship = y.player.ship
  excess : 0 ≤ shieldOver c.planets (y.set c) + hullOver c.planets (y.set c)
  credit : y'.damageRepaired = y.damageRepaired + BitVec.ofInt 32 (y'.player.shield - y.player.shield +
    (y.player.damage - y'.player.damage) + (shieldOver c.planets (y.set c) + hullOver c.planets (y.set c)))

/-- The overshoot that is still possible. -/
def room (y : Yard) : Int :=
  (if y.player.shield < y.player.ship.maxShield then overMax else 0) + if y.player.damage ≠ 0 then overMax else 0

theorem hullOver_eq {y y' : Yard} (h : ShieldsRepaired planets y y') : hullOver planets y' = hullOver planets y := by
  unfold hullOver
  rw [h.damage, h.subdamage, h.flags, h.gain]

theorem sound_set (h : Sound y) (c : Setting) : Sound (y.set c) := ⟨h.repair, h.shield, h.damage, h.subshield, h.subdamage⟩

/-- What one call repairs and credits, and how much may still be credited too much. -/
theorem called (h : Sound y) (c : Setting) : Called y c (call y c) ∧
    shieldOver c.planets (y.set c) + hullOver c.planets (y.set c) + room (call y c) ≤ room y := by
  have hset := sound_set h c
  have hs := repairShields_spec c.planets hset
  have hmid : Sound (repairShields c.planets (y.set c)).1 :=
    ⟨by rw [hs.repair]; exact hset.repair, by rw [hs.ship]; exact ⟨hset.shield.1.trans hs.shield.1, hs.shield.2⟩,
      by rw [hs.damage]; exact hset.damage, hs.subshield, by rw [hs.subdamage]; exact hset.subdamage⟩
  have hh := repairHull_spec c.planets hmid (repairShields c.planets (y.set c)).2
  have hhull := hullOver_eq c.planets hs
  change HullRepaired c.planets _ (call y c) at hh
  have hship : (call y c).player.ship = y.player.ship := hh.ship.trans hs.ship
  have hshield : y.player.shield ≤ (call y c).player.shield := hh.shield ▸ hs.shield.1
  have hdamage : (call y c).player.damage ≤ y.player.damage := hh.damage.2.trans_eq hs.damage
  have hover := hh.excess
  rw [hhull] at hover
  refine ⟨⟨⟨?_, ?_, hh.damage.1, ?_, hh.subdamage⟩, hshield, hdamage, hship, ?_, ?_⟩, ?_⟩
  · rw [hh.repair]
    exact hmid.repair
  · rw [hh.shield, hh.ship]
    exact hmid.shield
  · rw [hh.subshield]
    exact hs.subshield
  · exact add_nonneg hs.excess.1 hover.1
  · have hbefore : (y.set c).damageRepaired = y.damageRepaired := rfl
    rw [hh.credit, hs.credit, hhull, hs.damage, hh.shield, BitVec.add_assoc, ← BitVec.ofInt_add, hbefore]
    congr 2
    show _ - y.player.shield + _ + (y.player.damage - _ + _) = _
    ring
  -- an overshoot fills the shields, or leaves no damage, and there is no more of it
  · have hfull : shieldOver c.planets (y.set c) = 0 ∨ y.player.shield < y.player.ship.maxShield ∧
        (call y c).player.shield = y.player.ship.maxShield := by
      rcases eq_or_ne (shieldOver c.planets (y.set c)) 0 with h0 | h0
      · exact .inl h0
      · exact .inr ⟨(hs.excess.2.2 h0).1, hh.shield.trans (hs.excess.2.2 h0).2⟩
    have hwhole : hullOver c.planets (y.set c) = 0 ∨ y.player.damage ≠ 0 ∧ (call y c).player.damage = 0 := by
      rcases eq_or_ne (hullOver c.planets (y.set c)) 0 with h0 | h0
      · exact .inl h0
      · exact .inr ⟨fun hzero => (hover.2.2 h0).1 (hs.damage.trans hzero), (hover.2.2 h0).2⟩
    have hmax := hs.excess.2.1
    have hmax' := hover.2.1
    have hnonneg := h.damage
    have hnonneg' := hh.damage.1
    unfold room
    rw [hship]
    unfold overMax at *
    split_ifs <;> omega

/-! ## Runs -/

/-- Neither the shields nor the hull overshoot: what is repaired is at most what is missing. -/
def Fits (y : Yard) (c : Setting) : Prop :=
  (y.player.shield < y.player.ship.maxShield → y.player.shield +
    (y.player.subshield + shieldGain c.planets (y.set c)) / 1000 ≤ y.player.ship.maxShield) ∧
  (y.player.damage ≠ 0 → c.flags.has pfShield = false →
    (y.player.subdamage + hullGain c.planets (y.set c)) / 1000 ≤ y.player.damage)

/-- Every call of a run fits the ship as it is then. -/
def EachFits : Yard → List Setting → Prop
  | _, [] => True
  | y, c :: cs => Fits y c ∧ EachFits (call y c) cs

instance (y : Yard) (c : Setting) : Decidable (Fits y c) := inferInstanceAs (Decidable (_ ∧ _))

instance decidableEachFits : (y : Yard) → (cs : List Setting) → Decidable (EachFits y cs)
  | _, [] => .isTrue trivial
  | y, c :: cs => @instDecidableAnd _ _ _ (decidableEachFits (call y c) cs)

/-- What a run credits beyond what it repairs. -/
def overshoot : Yard → List Setting → Int
  | _, [] => 0
  | y, c :: cs => shieldOver c.planets (y.set c) + hullOver c.planets (y.set c) + overshoot (call y c) cs

/-- A call fits exactly if nothing is over. -/
theorem fits_iff (y : Yard) (c : Setting) :
    Fits y c ↔ shieldOver c.planets (y.set c) = 0 ∧ hullOver c.planets (y.set c) = 0 := by
  unfold Fits shieldOver hullOver
  apply and_congr
  · show (y.player.shield < y.player.ship.maxShield → _) ↔ (if y.player.shield < y.player.ship.maxShield then _ else _) = _
    split_ifs with hlow
    · simp only [hlow, true_imp_iff]
      show _ ↔ max 0 (y.player.shield + (y.player.subshield + _) / 1000 - y.player.ship.maxShield) = 0
      omega
    · simp [hlow]
  · show _ ↔ (if y.player.damage ≠ 0 ∧ (!c.flags.has pfShield) = true then max 0 ((y.player.subdamage + _) / 1000 - y.player.damage)
      else 0) = 0
    by_cases hdamage : y.player.damage = 0
    · simp [hdamage]
    · cases c.flags.has pfShield
      · simp only [hdamage, ne_eq, not_false_eq_true, Bool.not_false, and_self, if_true, true_imp_iff]
        omega
      · simp

/-- What any calls repair and credit. -/
theorem run_spec (cs : List Setting) : ∀ {y : Yard}, Sound y →
    Sound (cs.foldl call y) ∧ y.player.shield ≤ (cs.foldl call y).player.shield ∧
    (cs.foldl call y).player.damage ≤ y.player.damage ∧
    (0 ≤ overshoot y cs ∧ overshoot y cs ≤ room y) ∧ (overshoot y cs = 0 ↔ EachFits y cs) ∧
    (cs.foldl call y).damageRepaired = y.damageRepaired + BitVec.ofInt 32
      ((cs.foldl call y).player.shield - y.player.shield + (y.player.damage - (cs.foldl call y).player.damage) +
        overshoot y cs) := by
  induction cs with
  | nil =>
    intro y h
    have hroom : 0 ≤ room y := by
      unfold room overMax
      split_ifs <;> omega
    exact ⟨h, le_rfl, le_rfl, ⟨le_rfl, hroom⟩, ⟨fun _ => trivial, fun _ => rfl⟩, by simp [overshoot]⟩
  | cons c cs ih =>
    intro y h
    obtain ⟨hc, hroom⟩ := called h c
    obtain ⟨hsound, hshield, hdamage, ⟨hnonneg, hle⟩, hfit, hcredit⟩ := ih hc.sound
    have hover := hc.excess
    have hshieldOver : 0 ≤ shieldOver c.planets (y.set c) := (repairShields_spec c.planets (sound_set h c)).excess.1
    have hhullOver : 0 ≤ hullOver c.planets (y.set c) := by
      unfold hullOver
      split_ifs
      · exact le_max_left _ _
      · exact le_rfl
    rw [List.foldl_cons]
    unfold overshoot EachFits
    refine ⟨hsound, hc.shield.trans hshield, hdamage.trans hc.damage, ⟨by omega, by omega⟩, ?_, ?_⟩
    · rw [fits_iff, ← hfit]
      omega
    · rw [hcredit, hc.credit, BitVec.add_assoc, ← BitVec.ofInt_add]
      congr 2
      ring

/-- Whatever a ship does, repairs keep the bounds, never divide by zero and only repair, and what they credit is
what they repair if and only if no call overshoots. -/
theorem repair_accounted_iff (y : Yard) (h : Sound y) (cs : List Setting) :
    (∀ c, 0 < shieldGain c.planets ((cs.foldl call y).set c) ∧ 0 < hullGain c.planets ((cs.foldl call y).set c)) ∧
    Sound (cs.foldl call y) ∧ y.player.shield ≤ (cs.foldl call y).player.shield ∧
    (cs.foldl call y).player.damage ≤ y.player.damage ∧
    ((cs.foldl call y).damageRepaired = y.damageRepaired + BitVec.ofInt 32
      ((cs.foldl call y).player.shield - y.player.shield + (y.player.damage - (cs.foldl call y).player.damage)) ↔
        EachFits y cs) := by
  obtain ⟨hsound, hshield, hdamage, ⟨hnonneg, hle⟩, hfit, hcredit⟩ := run_spec cs h
  refine ⟨fun c => ?_, hsound, hshield, hdamage, ?_⟩
  · have hset := sound_set hsound c
    exact ⟨(shieldGain_bounds c.planets hset).1, (hullGain_bounds c.planets hset).1⟩
  · have hsmall : overshoot y cs ≤ 920 := by
      unfold room overMax at hle
      split_ifs at hle <;> omega
    rw [hcredit, ← hfit, BitVec.ofInt_add, ← BitVec.add_assoc, add_eq_left]
    constructor
    · intro hzero
      -- the counter is wider than any overshoot
      have hint := congrArg BitVec.toInt hzero
      rw [BitVec.toInt_ofInt, Int.bmod_eq_of_le (by omega) (by omega)] at hint
      exact hint
    · intro hzero
      rw [hzero]
      rfl

/-- A cruiser with half its shields and a damaged hull. -/
def wounded : Yard :=
  { player := { (default : Player) with
      shield := 50, subshield := 500, damage := 30, subdamage := 0, ship := { (default : Ship) with maxShield := 100 } }
    repair := 110, repairTime := 0, damageRepaired := 7 }

theorem wounded_sound : Sound wounded := ⟨by decide, by decide, by decide, by decide, by decide⟩

/-- Ten updates in repair. -/
def inRepair : List Setting := List.replicate 10 ⟨pfRepair, 0, 0, 0, fun _ => default⟩

/-- Six points are repaired, and credited. -/
theorem repair_accounted_in_repair :
    (inRepair.foldl call wounded).damageRepaired = 13 ∧
    (inRepair.foldl call wounded).damageRepaired = wounded.damageRepaired + BitVec.ofInt 32
      ((inRepair.foldl call wounded).player.shield - wounded.player.shield +
        (wounded.player.damage - (inRepair.foldl call wounded).player.damage)) :=
  ⟨by decide +kernel, (repair_accounted_iff wounded wounded_sound inRepair).2.2.2.2.2 (by decide +kernel)⟩

/-- A cruiser with its shields at 99 of 100, and most of a point in reserve. -/
def nearlyFull : Yard :=
  { player := { (default : Player) with
      shield := 99, subshield := 999, damage := 0, subdamage := 0, ship := { (default : Ship) with maxShield := 100 } }
    repair := 110, repairTime := 0, damageRepaired := 0 }

theorem nearlyFull_sound : Sound nearlyFull := ⟨by decide, by decide, by decide, by decide, by decide⟩

/-- In repair and docked, the last step goes too far: two points are credited for the one that was missing. -/
theorem repair_overcredited :
    ¬ ∀ (y : Yard) (cs : List Setting), Sound y → (cs.foldl call y).damageRepaired = y.damageRepaired + BitVec.ofInt 32
      ((cs.foldl call y).player.shield - y.player.shield + (y.player.damage - (cs.foldl call y).player.damage)) := by
  intro h
  have hcredit := h nearlyFull [⟨pfRepair ||| pfDock, 0, 0, 0, fun _ => default⟩] nearlyFull_sound
  revert hcredit
  decide +kernel

end Netrek.Repair
