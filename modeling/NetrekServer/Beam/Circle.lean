/-
No statistics are to be had by moving armies in a circle: what `ltd_stats.c` counts when a carrier picks up
armies at a planet of its own, or from a base, is taken back when it puts them down there again.
-/
import NetrekServer.Beam.Turn
import NetrekServer.Lib.Run

namespace Netrek.Beam

open Stats Netrek.Lib

/-! ## Credit -/

/-- The counters of armies picked up and put down, and of the carries that reinforced and ferried. -/
structure Credit where
  total : Counter
  attack : Counter
  reinforce : Counter
  ferries : Counter
  carriesReinforce : Counter
  carriesFerries : Counter
  deriving DecidableEq

/-- Armies picked up, or put back. -/
def Credit.carry (c : Credit) (n : Counter) : Credit := { c with total := c.total + n }

/-- Armies given away by a base, or taken back. -/
def Credit.deliver (c : Credit) (n : Counter) : Credit := { c with attack := c.attack + n }

def Credit.of (l : LtdStats) : Credit :=
  ⟨l.armiesTotal, l.armiesAttack, l.armiesReinforce, l.armiesFerries, l.carriesReinforce, l.carriesFerries⟩

theorem Credit.of_total_sub (l : LtdStats) :
    Credit.of { l with armiesTotal := l.armiesTotal - 1 } = (Credit.of l).carry (-1) := by
  show Credit.mk (_ - 1) _ _ _ _ _ = Credit.mk (_ + -1) _ _ _ _ _
  rw [BitVec.sub_eq_add_neg]
  rfl

theorem Credit.of_attack_sub (l : LtdStats) :
    Credit.of { l with armiesAttack := l.armiesAttack - 1 } = (Credit.of l).deliver (-1) := by
  show Credit.mk _ (_ - 1) _ _ _ _ = Credit.mk _ (_ + -1) _ _ _ _
  rw [BitVec.sub_eq_add_neg]
  rfl

/-- The credit of a player in the ship that is flown. -/
def credit (b : Book) (j : Slot) : Credit := .of (b.stats j)

/-- Nobody's credit changes, nor where the last army was picked up. -/
structure NoCredit (b b' : Book) : Prop where
  credit : ∀ j, credit b' j = credit b j
  beamup : ∀ j, (b'.hist j).lastBeamupPlanet = (b.hist j).lastBeamupPlanet

theorem NoCredit.refl (b : Book) : NoCredit b b := ⟨fun _ => rfl, fun _ => rfl⟩

theorem NoCredit.trans {b b' b'' : Book} (h : NoCredit b b') (h' : NoCredit b' b'') : NoCredit b b'' :=
  ⟨fun j => (h'.credit j).trans (h.credit j), fun j => (h'.beamup j).trans (h.beamup j)⟩

theorem noCredit_modifyStats (b : Book) (i : Slot) {f : LtdStats → LtdStats} (hf : ∀ l, Credit.of (f l) = Credit.of l) :
    NoCredit b (b.modifyStats i f) := by
  refine ⟨fun j => ?_, fun _ => rfl⟩
  unfold credit
  by_cases hj : j = i
  · subst hj
    rw [stats_modifyStats, hf]
  · rw [stats_modifyStats_ne b hj]

theorem noCredit_modifyHist (b : Book) (i : Slot) {f : History → History}
    (hf : ∀ h, (f h).lastBeamupPlanet = h.lastBeamupPlanet) : NoCredit b (b.modifyHist i f) := by
  refine ⟨fun _ => rfl, fun j => ?_⟩
  unfold Book.modifyHist
  dsimp only
  by_cases hj : j = i
  · subst hj
    rw [Function.update_self, hf]
  · rw [Function.update_of_ne hj]

/-- Other statistics of a ship are none of the credit. -/
theorem noCredit_modifyAt (b : Book) (v : Slot) (race : Fin numRaces) (ship : Fin numShips) {f : LtdStats → LtdStats}
    (hf : ∀ l, Credit.of (f l) = Credit.of l) : NoCredit b (b.modifyAt v race ship f) := by
  have hcell (t : Fin numRaces → Fin numShips → LtdStats) (r s) :
      Credit.of (Book.modifyCell t race ship f r s) = Credit.of (t r s) := by
    unfold Book.modifyCell
    by_cases hr : r = race
    · subst hr
      by_cases hs : s = ship
      · subst hs
        simp only [Function.update_self, hf]
      · simp only [Function.update_self, Function.update_of_ne hs]
    · simp only [Function.update_of_ne hr]
  refine ⟨fun j => ?_, fun _ => rfl⟩
  unfold credit Book.stats Book.player Book.modifyAt
  dsimp only
  split
  · by_cases hj : j = v
    · subst hj
      rw [Function.update_self, hcell]
    · rw [Function.update_of_ne hj]
  · rfl

/-- A conversion gives no credit for carrying. -/
theorem noCredit_convert (b : Book) (i : Slot) : NoCredit b (convert b i) := by
  have hkill (b : Book) (f : Kills → Kills) : NoCredit b (b.modifyKills i f) := noCredit_modifyStats b i fun _ => rfl
  have hmark (b : Book) (n : Nat) : NoCredit b (b.modifyHist i fun h => { h with killPotential := n }) :=
    noCredit_modifyHist b i fun _ => rfl
  unfold convert
  dsimp only
  split
  · refine NoCredit.trans ?_ (hmark _ 3)
    have hfirst : NoCredit b (if 1 ≤ (b.hist i).numKills then
        b.modifyKills i fun k => { k with firstPotential := k.firstPotential + 1 } else b) := by
      split
      · exact hkill _ _
      · exact .refl b
    split
    · exact hfirst.trans (hkill _ _)
    · exact hfirst
  split
  · split
    · exact (hkill _ _).trans (hmark _ 3)
    · exact .refl b
  split
  · split
    · exact (hkill _ _).trans (hmark _ 4)
    · exact .refl b
  · exact .refl b

theorem noCredit_debitVictim (i : Slot) : ∀ (ks : List (Fin numHist)) (b : Book), NoCredit b (debitVictim b i ks)
  | [], b => .refl b
  | k :: ks, b => by
    unfold debitVictim
    dsimp only
    split
    · split
      · refine NoCredit.trans ?_ (noCredit_modifyHist _ i ?_)
        · exact noCredit_modifyAt b _ _ _ fun _ => rfl
        · exact fun _ => rfl
      · exact noCredit_debitVictim i ks b
    · exact noCredit_debitVictim i ks b

theorem noCredit_completeCarry (b : Book) (i : Slot) : NoCredit b (completeCarry b i) := by
  unfold completeCarry
  split
  · exact noCredit_modifyStats b i fun _ => rfl
  · exact .refl b

/-! ## The calls -/

theorem credit_modifyStats (b : Book) (i j : Slot) (f : LtdStats → LtdStats) :
    credit (b.modifyStats i f) j = if j = i then .of (f (b.stats i)) else credit b j := by
  unfold credit
  by_cases hj : j = i
  · rw [if_pos hj, hj, stats_modifyStats]
  · rw [if_neg hj, stats_modifyStats_ne b hj]

/-- Beamed up from another place than the last, an army gives no more credit, and the place is remembered. -/
theorem beamupFrom_spec (b : Book) (i : Slot) (place : Int) :
    (∀ j, credit (beamupFrom b i place) j = credit b j) ∧
      ∀ j, ((beamupFrom b i place).hist j).lastBeamupPlanet =
        if j = i then place else (b.hist j).lastBeamupPlanet := by
  unfold beamupFrom
  dsimp only
  have hplace (j : Slot) : ((b.modifyHist i fun h => { h with lastBeamupPlanet := place }).hist j).lastBeamupPlanet =
      if j = i then place else (b.hist j).lastBeamupPlanet := by
    unfold Book.modifyHist
    dsimp only
    by_cases hj : j = i
    · rw [if_pos hj, hj, Function.update_self]
    · rw [if_neg hj, Function.update_of_ne hj]
  split
  · split
    · have h := noCredit_modifyStats (b.modifyHist i fun h => { h with lastBeamupPlanet := place }) i
        (f := fun l => { l with carriesTotal := l.carriesTotal + 1 }) fun _ => rfl
      exact ⟨fun j => h.credit j, fun j => (h.beamup j).trans (hplace j)⟩
    · exact ⟨fun _ => rfl, hplace⟩
  · rename_i hsame
    refine ⟨fun _ => rfl, fun j => ?_⟩
    split
    · rename_i hj
      rw [hj]
      exact not_not.1 hsame
    · rfl

/-- An army beamed up counts, for the carrier and for the base it comes from. -/
theorem updateArmiesCarried_spec (b : Book) (i : Slot) (sb : Option Slot) (hsb : sb ≠ some i) :
    (∀ j, credit (updateArmiesCarried b i sb) j =
      if j = i then (credit b i).carry 1
      else if sb = some j then (credit b j).deliver 1 else credit b j) ∧
    ((updateArmiesCarried b i sb).hist i).lastBeamupPlanet = match sb with
      | none => ((b.player i).planet.val : Int)
      | some _ => -1 := by
  have hcarried (j : Slot) : credit (b.modifyStats i fun l => { l with armiesTotal := l.armiesTotal + 1 }) j =
      if j = i then (credit b i).carry 1 else credit b j := credit_modifyStats b i j _
  unfold updateArmiesCarried
  extract_lets b₁ b₂
  have hquiet := (noCredit_convert b₁ i).trans (noCredit_debitVictim i ((List.finRange numHist).take (b₂.hist i).numKills) b₂)
  have hserver : (debitVictim b₂ i ((List.finRange numHist).take (b₂.hist i).numKills)).server = b.server :=
    -- the victims' books are written in between, and no credit with them
    (server_debitVictim _ _ _).trans (server_convert b₁ i)
  generalize debitVictim b₂ i _ = b₃ at hquiet hserver ⊢
  -- from a planet the beam-up is noted there; from a base the base is credited
  cases sb with
  | none =>
    have hplanet : (b₃.player i).planet = (b.player i).planet := by
      unfold Book.player
      rw [hserver]
    obtain ⟨hc, hh⟩ := beamupFrom_spec b₃ i (b₃.player i).planet.val
    refine ⟨fun j => ?_, ?_⟩
    · simp only [reduceCtorEq, if_false]
      exact (hc j).trans ((hquiet.credit j).trans (hcarried j))
    · rw [← hplanet]
      exact (hh i).trans (if_pos rfl)
  | some sb =>
    have hne : sb ≠ i := fun h => hsb (congrArg some h)
    obtain ⟨hc, hh⟩ := beamupFrom_spec (b₃.modifyStats sb fun l => { l with armiesAttack := l.armiesAttack + 1 }) i (-1)
    refine ⟨fun j => ?_, (hh i).trans (if_pos rfl)⟩
    refine (hc j).trans ((credit_modifyStats b₃ sb j _).trans ?_)
    -- the base has delivered, the ship has carried
    by_cases hj : j = sb
    · subst hj
      rw [if_pos rfl, if_neg hne, if_pos rfl]
      show (credit b₃ j).deliver 1 = _
      rw [hquiet.credit, hcarried, if_neg hne]
    · rw [if_neg hj, hquiet.credit, hcarried]
      split
      · rfl
      · rw [if_neg fun h => hj (Option.some.inj h).symm]

/-- An army put down among enough others at the planet it came from is taken back. -/
theorem updateArmies_spec {b : Book} {i : Slot} {l : Fin maxPlanets} (hown : (b.server.planet l).owner = (b.player i).team)
    (hmany : 4 < (b.server.planet l).armies) (hback : (b.hist i).lastBeamupPlanet = ((b.player i).planet.val : Int)) :
    credit (updateArmies b i l) i = (credit b i).carry (-1) ∧
      ((updateArmies b i l).hist i).lastBeamupPlanet = (b.hist i).lastBeamupPlanet := by
  have hquiet := noCredit_completeCarry b i
  have hserver := server_completeCarry b i
  unfold updateArmies
  extract_lets planet b₁
  have hplayer : b₁.player i = b.player i := by
    unfold Book.player
    rw [show b₁.server = b.server from hserver]
  rw [hplayer, if_neg (not_not.2 hown), if_neg (not_le.2 hmany), if_pos ((hquiet.beamup i).trans hback)]
  refine ⟨?_, hquiet.beamup i⟩
  rw [credit_modifyStats, if_pos rfl, ← hquiet.credit i]
  exact Credit.of_total_sub _

/-- An army put down at a base by one who took it from a base is taken back. -/
theorem updateArmiesFerried_spec {b : Book} {i sb : Slot} (hne : sb ≠ i) (hback : (b.hist i).lastBeamupPlanet = -1) :
    credit (updateArmiesFerried b i sb) i = (credit b i).carry (-1) ∧
      credit (updateArmiesFerried b i sb) sb = (credit b sb).deliver (-1) ∧
      ((updateArmiesFerried b i sb).hist i).lastBeamupPlanet = -1 := by
  unfold updateArmiesFerried
  rw [if_pos hback]
  have hquiet := noCredit_completeCarry ((b.modifyStats i fun l => { l with armiesTotal := l.armiesTotal - 1 }).modifyStats sb
    fun l => { l with armiesAttack := l.armiesAttack - 1 }) i
  refine ⟨?_, ?_, (hquiet.beamup i).trans hback⟩
  · rw [hquiet.credit, credit_modifyStats, if_neg hne.symm, credit_modifyStats, if_pos rfl]
    exact Credit.of_total_sub _
  · rw [hquiet.credit, credit_modifyStats, if_pos rfl, stats_modifyStats_ne b hne]
    exact Credit.of_attack_sub _

/-! ## The moves of a carrier -/

/-- The carrier has its turn in `beam` while it beams up, or down, or anything else happens. -/
inductive Move
  | up
  | down
  | others (c' : Campaign)

def move (i : Slot) (c : Campaign) : Move → Campaign
  | .up | .down => (beamOn c i).1
  | .others c' => c'

/-- The ship's turn is one in which it picks up an army. -/
structure PicksUp (c : Campaign) (i : Slot) : Prop where
  alive : (c.player i).status = .palive
  moored : moored (c.player i) = true
  up : (c.player i).flags.has pfBeamUp = true
  may : mayBeamUp c.server i = true

/-- A change that is not to the armies aboard of a player, nor to its credit. -/
structure Beside (j : Slot) (c c' : Campaign) : Prop where
  armies : (c'.player j).armies = (c.player j).armies
  credit : credit c'.toBook j = credit c.toBook j
  beamup : (c'.hist j).lastBeamupPlanet = (c.hist j).lastBeamupPlanet

/-- The carrier moves armies between itself and a planet of its own, and nobody else changes the planet. -/
def AtPlanet (i : Slot) (l : Fin maxPlanets) (c : Campaign) : Move → Prop
  | .up => PicksUp c i ∧ (c.player i).flags.has pfOrbit = true ∧ (c.player i).planet = l
  | .down => Lands c i ∧ (c.player i).planet = l ∧ (c.player i).team = (c.planet l).owner
  | .others c' => Beside i c c' ∧ c'.planet l = c.planet l

/-- The carrier moves armies between itself and a base. -/
def AtBase (i base : Slot) (c : Campaign) : Move → Prop
  | .up => PicksUp c i ∧ (c.player i).flags.has pfOrbit = false ∧ (c.player i).dockWith = base
  | .down =>
    (c.player i).status = .palive ∧ (c.player i).flags.has pfOrbit = false ∧ (c.player i).flags.has pfDock = true ∧
      (c.player i).flags.has pfBeamUp = false ∧ (c.player i).flags.has pfBeamDown = true ∧ (c.player i).armies ≠ 0 ∧
      (c.player i).dockWith = base ∧ baseTakes c.server i = true
  | .others c' => Beside i c c' ∧ Beside base c c'

/-- The server matters to a player's credit for the team, the ship, and the mode of the game. -/
theorem credit_onServer (c : Campaign) (f : Server → Server) (j : Slot)
    (ht : (f c.server).mem.status.tourn = c.server.mem.status.tourn)
    (hteam : ((f c.server).player j).team = (c.server.player j).team)
    (hship : ((f c.server).player j).ship = (c.server.player j).ship) :
    credit (c.onServer f).toBook j = credit c.toBook j := by
  unfold credit Book.stats Campaign.onServer Book.player
  dsimp only
  rw [ht, hteam, hship]

/-- The credit is found by the team and the ship of a player. -/
theorem credit_modifyPlayer (c : Campaign) (i j : Slot) {f : Player → Player} (hteam : ∀ p, (f p).team = p.team)
    (hship : ∀ p, (f p).ship = p.ship) : credit (c.modifyPlayer i f).toBook j = credit c.toBook j := by
  apply credit_onServer
  · rfl
  · rw [Server.player_modifyPlayer]
    split
    · subst_vars
      exact hteam _
    · rfl
  · rw [Server.player_modifyPlayer]
    split
    · subst_vars
      exact hship _
    · rfl

theorem credit_load (c : Campaign) (i j : Slot) : credit (c.modifyPlayer i load).toBook j = credit c.toBook j :=
  credit_modifyPlayer c i j (fun _ => rfl) fun _ => rfl

theorem credit_unload (c : Campaign) (i j : Slot) : credit (c.modifyPlayer i unload).toBook j = credit c.toBook j :=
  credit_modifyPlayer c i j (fun _ => rfl) fun _ => rfl

theorem credit_modifyPlanet (c : Campaign) (l : Fin maxPlanets) (f : Planet → Planet) (j : Slot) :
    credit (c.modifyPlanet l f).toBook j = credit c.toBook j := credit_onServer c _ j rfl rfl rfl

theorem beamOn_up {c : Campaign} {i : Slot} (h : PicksUp c i) : beamOn c i = (beamUp c i, false) := by
  unfold beamOn
  dsimp only
  rw [if_neg (by simp [h.alive, h.moored]), if_pos h.up, if_pos h.may]

/-! ## At a planet -/

/-- Since some state before the first army was picked up at the planet, the carrier has been given credit for just the
armies that it has gained, and the planet holds so many that none that is put back reinforces it. -/
structure Circling (i : Slot) (l : Fin maxPlanets) (c₀ c : Campaign) : Prop where
  credit : credit c.toBook i =
    (credit c₀.toBook i).carry (.ofInt 32 ((c.player i).armies - (c₀.player i).armies))
  beamup : (c.hist i).lastBeamupPlanet = l.val
  low : 4 ≤ (c.planet l).armies

theorem Credit.carry_zero (c : Credit) : c.carry (.ofInt 32 0) = c := by
  show Credit.mk (c.total + 0#32) _ _ _ _ _ = _
  rw [BitVec.add_zero]

theorem Credit.deliver_zero (c : Credit) : c.deliver (.ofInt 32 0) = c := by
  show Credit.mk _ (c.attack + 0#32) _ _ _ _ = _
  rw [BitVec.add_zero]

/-- Credit goes with the armies aboard. -/
theorem Credit.carried {x₀ x y : Credit} {a₀ a a' d : Int} (h : x = x₀.carry (.ofInt 32 (a - a₀)))
    (hy : y = x.carry (.ofInt 32 d)) (ha : a' = a + d) : y = x₀.carry (.ofInt 32 (a' - a₀)) := by
  have hd : a' - a₀ = (a - a₀) + d := by omega
  rw [hy, h, hd, BitVec.ofInt_add]
  unfold carry
  dsimp only
  rw [BitVec.add_assoc]

theorem Credit.delivered {x₀ x y : Credit} {a₀ a a' d : Int} (h : x = x₀.deliver (.ofInt 32 (a - a₀)))
    (hy : y = x.deliver (.ofInt 32 d)) (ha : a' = a + d) : y = x₀.deliver (.ofInt 32 (a' - a₀)) := by
  have hd : a' - a₀ = (a - a₀) + d := by omega
  rw [hy, h, hd, BitVec.ofInt_add]
  unfold deliver
  dsimp only
  rw [BitVec.add_assoc]

/-- Nothing is gained with no armies more. -/
theorem Credit.carried_start (x : Credit) (a : Int) : x = x.carry (.ofInt 32 (a - a)) := by
  rw [Int.sub_self, carry_zero]

theorem Credit.delivered_start (x : Credit) (a : Int) : x = x.deliver (.ofInt 32 (a - a)) := by
  rw [Int.sub_self, deliver_zero]

/-- A pick-up at the planet. -/
theorem up_atPlanet {i : Slot} {l : Fin maxPlanets} {c : Campaign} (h : AtPlanet i l c .up) :
    credit (beamOn c i).1.toBook i = (credit c.toBook i).carry (.ofInt 32 1) ∧
      ((beamOn c i).1.hist i).lastBeamupPlanet = l.val ∧
      ((beamOn c i).1.player i).armies = (c.player i).armies + 1 ∧ 4 ≤ ((beamOn c i).1.planet l).armies := by
  obtain ⟨hp, ho, hl⟩ := h
  have hlow := (MayLoad.of hp.may).planet ho
  have hserver := server_beamUp_orbit ho
  rw [hl] at hlow hserver
  rw [beamOn_up hp]
  have hbook : (beamUp c i).toBook = updateArmiesCarried ((c.modifyPlayer i load).modifyPlanet l (gain (-1))).toBook i none := by
    unfold beamUp
    dsimp only
    rw [if_pos ho, hl]
    rfl
  obtain ⟨hc, hh⟩ := updateArmiesCarried_spec ((c.modifyPlayer i load).modifyPlanet l (gain (-1))).toBook i none (by simp)
  refine ⟨?_, ?_, ?_, ?_⟩
  · rw [hbook, hc, if_pos rfl, credit_modifyPlanet, credit_load]
    rfl
  · show ((beamUp c i).toBook.hist i).lastBeamupPlanet = l.val
    rw [hbook, hh]
    show ((((c.server.modifyPlayer i load).modifyPlanet l (gain (-1))).player i).planet.val : Int) = l.val
    rw [Server.player_modifyPlanet, Server.player_modifyPlayer, if_pos rfl]
    exact congrArg (fun x : Fin maxPlanets => (x.val : Int)) hl
  · show ((beamUp c i).server.player i).armies = _
    rw [hserver, Server.player_modifyPlanet, Server.player_modifyPlayer, if_pos rfl]
    rfl
  · show 4 ≤ ((beamUp c i).server.planet l).armies
    rw [hserver, Server.planet_modifyPlanet, if_pos rfl]
    show 4 ≤ (c.planet l).armies + -1
    omega

/-- Armies put down where they were picked up are taken back. -/
theorem down_atPlanet {i : Slot} {l : Fin maxPlanets} {c : Campaign} (h : AtPlanet i l c .down)
    (hback : (c.hist i).lastBeamupPlanet = l.val) (hlow : 4 ≤ (c.planet l).armies) :
    credit (beamOn c i).1.toBook i = (credit c.toBook i).carry (.ofInt 32 (-1)) ∧
      ((beamOn c i).1.hist i).lastBeamupPlanet = l.val ∧
      ((beamOn c i).1.player i).armies = (c.player i).armies - 1 ∧ 4 ≤ ((beamOn c i).1.planet l).armies := by
  obtain ⟨hd, hl, hown⟩ := h
  -- the tests lead to `reinforce`: down, in orbit, at a planet of his own
  have hturn : beamOn c i = (reinforce c i, false) := by
    have hm : moored (c.player i) = true := by
      unfold moored
      rw [has_union, hd.orbit, Bool.true_or]
    unfold beamOn
    dsimp only
    rw [if_neg (by simp [hd.alive, hm]), if_neg (by simp [hd.up]), if_pos hd.down]
    unfold beamDown
    dsimp only
    rw [if_neg hd.aboard, if_pos hd.orbit, if_neg (by simp [hd.war]), hl, if_neg (not_not.2 hown)]
  have hserver := server_reinforce c i
  rw [hl] at hserver
  rw [hturn]
  have hbook : (reinforce c i).toBook = updateArmies ((c.modifyPlayer i unload).modifyPlanet l (gain 1)).toBook i l := by
    unfold reinforce
    -- what the books see: an army less aboard, one more on the planet
    rw [hl]
    rfl
  have hplayer : ((c.modifyPlayer i unload).modifyPlanet l (gain 1)).player i = unload (c.player i) := by
    show ((c.server.modifyPlayer i unload).modifyPlanet l (gain 1)).player i = _
    rw [Server.player_modifyPlanet, Server.player_modifyPlayer, if_pos rfl]
    rfl
  have hplanet : ((c.modifyPlayer i unload).modifyPlanet l (gain 1)).server.planet l = gain 1 (c.planet l) := by
    show ((c.server.modifyPlayer i unload).modifyPlanet l (gain 1)).planet l = _
    rw [Server.planet_modifyPlanet, if_pos rfl]
    rfl
  have harmies : (gain 1 (c.planet l)).armies = (c.planet l).armies + 1 := rfl
  obtain ⟨hc, hh⟩ := updateArmies_spec (b := ((c.modifyPlayer i unload).modifyPlanet l (gain 1)).toBook) (i := i) (l := l)
    -- the planet is his and had four, so nothing but the way back is debited
    (by rw [hplanet, hplayer]; exact hown.symm) (by rw [hplanet, harmies]; omega)
    (by rw [hplayer]; exact hback.trans (congrArg (fun x : Fin maxPlanets => (x.val : Int)) hl.symm))
  refine ⟨?_, ?_, ?_, ?_⟩
  · rw [hbook, hc, credit_modifyPlanet, credit_unload]
    rfl
  · show ((reinforce c i).toBook.hist i).lastBeamupPlanet = l.val
    rw [hbook, hh]
    exact hback
  · show ((reinforce c i).server.player i).armies = _
    rw [hserver, Server.player_modifyPlanet, Server.player_modifyPlayer, if_pos rfl]
    rfl
  · show 4 ≤ ((reinforce c i).server.planet l).armies
    rw [hserver, Server.planet_modifyPlanet, if_pos rfl]
    show 4 ≤ (c.planet l).armies + 1
    omega

/-- One more army up, or down again. -/
theorem circling_step {i : Slot} {l : Fin maxPlanets} {c₀ c : Campaign} (h : Circling i l c₀ c) {m : Move}
    (hm : AtPlanet i l c m) : Circling i l c₀ (move i c m) := by
  cases m with
  | up =>
    obtain ⟨hc, hb, ha, hl⟩ := up_atPlanet hm
    exact ⟨Credit.carried h.credit hc ha, hb, hl⟩
  | down =>
    obtain ⟨hc, hb, ha, hl⟩ := down_atPlanet hm h.beamup h.low
    exact ⟨Credit.carried h.credit hc ha, hb, hl⟩
  | others c' =>
    obtain ⟨hb, hp⟩ := hm
    refine ⟨?_, hb.beamup.trans h.beamup, ?_⟩
    · show credit c'.toBook i = (credit c₀.toBook i).carry (.ofInt 32 ((c'.player i).armies - _))
      rw [hb.credit, hb.armies]
      exact h.credit
    · show 4 ≤ (c'.planet l).armies
      rw [hp]
      exact h.low

theorem credit_atPlanet {i : Slot} {l : Fin maxPlanets} {c c' : Campaign} {ms : List Move}
    (h : Run (AtPlanet i l) (move i) c (.up :: ms) c') (ha : (c'.player i).armies = (c.player i).armies) :
    credit c'.toBook i = credit c.toBook i := by
  cases h with
  | cons hup hrest =>
    obtain ⟨hc, hb, har, hl⟩ := up_atPlanet hup
    have hfirst : Circling i l c (move i c .up) := ⟨Credit.carried (Credit.carried_start _ _) hc har, hb, hl⟩
    have hend := Run.inv (I := Circling i l c) (fun _ _ hm h => circling_step h hm) hrest hfirst
    rw [hend.credit, ha, Int.sub_self, Credit.carry_zero]

/-! ## At a base -/

/-- Since some state before the first army was picked up from the base, the carrier and the base have been given credit
for just the armies that the carrier has gained. -/
structure CirclingBase (i base : Slot) (c₀ c : Campaign) : Prop where
  credit : credit c.toBook i =
    (credit c₀.toBook i).carry (.ofInt 32 ((c.player i).armies - (c₀.player i).armies))
  delivered : Beam.credit c.toBook base =
    (Beam.credit c₀.toBook base).deliver (.ofInt 32 ((c.player i).armies - (c₀.player i).armies))
  beamup : (c.hist i).lastBeamupPlanet = -1

/-- An army from the base: one more carried, and for the base one more delivered. -/
theorem up_atBase {i base : Slot} (hne : base ≠ i) {c : Campaign} (h : AtBase i base c .up) :
    credit (beamOn c i).1.toBook i = (credit c.toBook i).carry (.ofInt 32 1) ∧
      credit (beamOn c i).1.toBook base = (credit c.toBook base).deliver (.ofInt 32 1) ∧
      ((beamOn c i).1.hist i).lastBeamupPlanet = -1 ∧
      ((beamOn c i).1.player i).armies = (c.player i).armies + 1 := by
  obtain ⟨hp, ho, hb⟩ := h
  have hd : (c.player i).flags.has pfDock = true := by
    have hm := hp.moored
    rwa [moored, has_union, ho, Bool.false_or] at hm
  have hserver := server_beamUp_dock ho hd
  rw [hb] at hserver
  rw [beamOn_up hp]
  have hbook : (beamUp c i).toBook =
      updateArmiesCarried ((c.modifyPlayer i load).modifyPlayer base unload).toBook i (some base) := by
    unfold beamUp
    dsimp only
    rw [if_neg (by simp [ho]), if_pos hd, hb]
    rfl
  obtain ⟨hc, hh⟩ := updateArmiesCarried_spec ((c.modifyPlayer i load).modifyPlayer base unload).toBook i (some base)
    fun h => hne (Option.some.inj h)
  refine ⟨?_, ?_, ?_, ?_⟩
  · rw [hbook, hc, if_pos rfl, credit_unload, credit_load]
    rfl
  · rw [hbook, hc, if_neg hne, if_pos rfl, credit_unload, credit_load]
    rfl
  · show ((beamUp c i).toBook.hist i).lastBeamupPlanet = -1
    rw [hbook, hh]
  · show ((beamUp c i).server.player i).armies = _
    rw [hserver, Server.player_modifyPlayer, if_neg hne.symm, Server.player_modifyPlayer, if_pos rfl]
    rfl

/-- And back: one less for both. -/
theorem down_atBase {i base : Slot} (hne : base ≠ i) {c : Campaign} (h : AtBase i base c .down)
    (hback : (c.hist i).lastBeamupPlanet = -1) :
    credit (beamOn c i).1.toBook i = (credit c.toBook i).carry (.ofInt 32 (-1)) ∧
      credit (beamOn c i).1.toBook base = (credit c.toBook base).deliver (.ofInt 32 (-1)) ∧
      ((beamOn c i).1.hist i).lastBeamupPlanet = -1 ∧
      ((beamOn c i).1.player i).armies = (c.player i).armies - 1 := by
  obtain ⟨hal, ho, hd, hu, hdn, haboard, hb, htakes⟩ := h
  have hturn : beamOn c i = (transfer c i, false) := by
    have hm : moored (c.player i) = true := by
      unfold moored
      rw [has_union, hd, Bool.or_true]
    unfold beamOn
    dsimp only
    rw [if_neg (by simp [hal, hm]), if_neg (by simp [hu]), if_pos hdn]
    unfold beamDown
    dsimp only
    rw [if_neg haboard, if_neg (by simp [ho]), if_pos hd, if_pos htakes]
  have hserver := server_transfer c i
  rw [hb] at hserver
  rw [hturn]
  have hbook : (transfer c i).toBook =
      updateArmiesFerried ((c.modifyPlayer i unload).modifyPlayer base load).toBook i base := by
    unfold transfer
    rw [hb]
    rfl
  obtain ⟨hc, hcb, hh⟩ := updateArmiesFerried_spec (b := ((c.modifyPlayer i unload).modifyPlayer base load).toBook) hne hback
  refine ⟨?_, ?_, ?_, ?_⟩
  · rw [hbook, hc, credit_load, credit_unload]
    rfl
  · rw [hbook, hcb, credit_load, credit_unload]
    rfl
  · show ((transfer c i).toBook.hist i).lastBeamupPlanet = -1
    rw [hbook, hh]
  · show ((transfer c i).server.player i).armies = _
    rw [hserver, Server.player_modifyPlayer, if_neg hne.symm, Server.player_modifyPlayer, if_pos rfl]
    rfl

/-- One more army from the base, or back to it. -/
theorem circlingBase_step {i base : Slot} (hne : base ≠ i) {c₀ c : Campaign} (h : CirclingBase i base c₀ c) {m : Move}
    (hm : AtBase i base c m) : CirclingBase i base c₀ (move i c m) := by
  cases m with
  | up =>
    obtain ⟨hc, hcb, hb, ha⟩ := up_atBase hne hm
    exact ⟨Credit.carried h.credit hc ha, Credit.delivered h.delivered hcb ha, hb⟩
  | down =>
    obtain ⟨hc, hcb, hb, ha⟩ := down_atBase hne hm h.beamup
    exact ⟨Credit.carried h.credit hc ha, Credit.delivered h.delivered hcb ha, hb⟩
  | others c' =>
    obtain ⟨hi, hb⟩ := hm
    refine ⟨?_, ?_, hi.beamup.trans h.beamup⟩
    · show credit c'.toBook i = (credit c₀.toBook i).carry (.ofInt 32 ((c'.player i).armies - _))
      rw [hi.credit, hi.armies]
      exact h.credit
    · show credit c'.toBook base = (credit c₀.toBook base).deliver (.ofInt 32 ((c'.player i).armies - _))
      rw [hb.credit, hi.armies]
      exact h.delivered

theorem credit_atBase {i base : Slot} (hne : base ≠ i) {c c' : Campaign} {ms : List Move}
    (h : Run (AtBase i base) (move i) c (.up :: ms) c') (ha : (c'.player i).armies = (c.player i).armies) :
    credit c'.toBook i = credit c.toBook i ∧ credit c'.toBook base = credit c.toBook base := by
  cases h with
  | cons hup hrest =>
    obtain ⟨hc, hcb, hb, har⟩ := up_atBase hne hup
    have hfirst : CirclingBase i base c (move i c .up) :=
      ⟨Credit.carried (Credit.carried_start _ _) hc har, Credit.delivered (Credit.delivered_start _ _) hcb har, hb⟩
    have hend := Run.inv (I := CirclingBase i base c) (fun _ _ hm h => circlingBase_step hne h hm) hrest hfirst
    have hcarry := hend.credit
    have hdeliver := hend.delivered
    rw [ha, Int.sub_self] at hcarry hdeliver
    exact ⟨hcarry.trans (Credit.carry_zero _), hdeliver.trans (Credit.deliver_zero _)⟩

/-- Armies that a carrier moves in a circle, to and from a planet of its own or a base, from a pick-up on until it has as
many aboard as before it, leave its credit and that of the base as they were. -/
theorem no_credit_in_a_circle (i : Slot) :
    (∀ (l : Fin maxPlanets) (c c' : Campaign) (ms : List Move), Run (AtPlanet i l) (move i) c (.up :: ms) c' →
      (c'.player i).armies = (c.player i).armies → credit c'.toBook i = credit c.toBook i) ∧
    ∀ (base : Slot) (c c' : Campaign) (ms : List Move), base ≠ i → Run (AtBase i base) (move i) c (.up :: ms) c' →
      (c'.player i).armies = (c.player i).armies →
      credit c'.toBook i = credit c.toBook i ∧ credit c'.toBook base = credit c.toBook base :=
  ⟨fun _ _ _ _ h ha => credit_atPlanet h ha, fun _ _ _ _ hne h ha => credit_atBase hne h ha⟩

/-- A carrier with a kill orbits a planet of its own in tournament mode. -/
def shuttle : Campaign :=
  { (default : Campaign) with
    server := { (default : Server) with
      mem := { (default : Memory) with
        status := { (default : Status) with tourn := true }
        players := fun _ => { (default : Player) with
          status := .palive, team := fed, flags := pfOrbit ||| pfBeamUp, kills := 1
          ship := { (default : Ship) with maxArmies := 5 } }
        planets := fun _ => { (default : Planet) with owner := fed, armies := 5 } } } }

/-- A carrier with a kill is docked with a base that holds five armies. -/
def docked : Campaign :=
  { shuttle with
    server := { shuttle.server with
      mem := { shuttle.server.mem with
        players := fun i => { (default : Player) with
          status := .palive, team := fed, flags := if i = 0 then pfDock ||| pfBeamUp else 0, kills := 1
          dockWith := 1, armies := if i = 1 then 5 else 0
          ship := { (default : Ship) with type := if i = 1 then .starbase else .cruiser, maxArmies := 5 } } } } }

/-- After the army is aboard, the carrier turns to beaming down. -/
def turnedRound (c : Campaign) : Campaign :=
  (move 0 c .up).modifyPlayer 0 fun p => { p with flags := p.flags &&& ~~~pfBeamUp ||| pfBeamDown }

/-- An army goes up and down again, at a planet and at a base; what was counted on the way up is taken back. -/
theorem no_credit_in_a_circle_shuttle :
    (credit (move 0 (turnedRound shuttle) .down).toBook 0 = credit shuttle.toBook 0 ∧
      credit (move 0 shuttle .up).toBook 0 ≠ credit shuttle.toBook 0) ∧
    (credit (move 0 (turnedRound docked) .down).toBook 0 = credit docked.toBook 0 ∧
      credit (move 0 (turnedRound docked) .down).toBook 1 = credit docked.toBook 1) ∧
      credit (move 0 docked .up).toBook 1 ≠ credit docked.toBook 1 := by
  refine ⟨⟨(no_credit_in_a_circle 0).1 0 shuttle _ [.others (turnedRound shuttle), .down]
    (.cons ?_ (.cons ?_ (.cons ?_ (.nil _)))) ?_, ?_⟩,
    (no_credit_in_a_circle 0).2 1 docked _ [.others (turnedRound docked), .down] (by decide)
      (.cons ?_ (.cons ?_ (.cons ?_ (.nil _)))) ?_, ?_⟩
  · exact ⟨⟨rfl, by decide, by decide, by decide +kernel⟩, by decide, rfl⟩
  · exact ⟨⟨by decide +kernel, by decide +kernel, by decide +kernel⟩, by decide +kernel⟩
  · exact ⟨⟨by decide +kernel, by decide +kernel, by decide +kernel, by decide +kernel, by decide +kernel, by decide +kernel⟩,
      by decide +kernel, by decide +kernel⟩
  · decide +kernel
  · decide +kernel
  · exact ⟨⟨rfl, by decide, by decide, by decide +kernel⟩, by decide, rfl⟩
  · exact ⟨⟨by decide +kernel, by decide +kernel, by decide +kernel⟩,
      ⟨by decide +kernel, by decide +kernel, by decide +kernel⟩⟩
  · exact ⟨by decide +kernel, by decide +kernel, by decide +kernel, by decide +kernel, by decide +kernel, by decide +kernel,
      by decide +kernel, by decide +kernel⟩
  · decide +kernel
  · decide +kernel

end Netrek.Beam
