/-
The statistics of armies put down, of `ntserv/ltd_stats.c`: on a planet (`ltd_update_armies`) or on a
starbase (`ltd_update_armies_ferried`), and of planets destroyed or taken. The history remembers where the
last army was beamed up and down, so that armies moved to and fro do not count.
-/
import NetrekServer.Stats.Ltd

namespace Netrek.Stats

/-! ## Updates -/

/-- With no army left aboard, the carry was completed. -/
def completeCarry (b : Book) (i : Slot) : Book :=
  if (b.player i).armies = 0 then b.modifyStats i fun l => { l with carriesCompleted := l.carriesCompleted + 1 } else b

/-- The first army put down at the planet counts as a delivery there. -/
def landing (b : Book) (i : Slot) (f : LtdStats → LtdStats) : Book :=
  if (b.hist i).lastBeamdownPlanet ≠ (b.player i).planet.val then
    (b.modifyHist i fun h => { h with lastBeamdownPlanet := (b.player i).planet.val }).modifyStats i f
  else b

/-- `ltd_update_armies`, of an army put down on the planet `l`. -/
def updateArmies (b : Book) (i : Slot) (l : Fin maxPlanets) : Book :=
  let planet := b.server.planet l
  let b := completeCarry b i
  if planet.owner ≠ (b.player i).team then
    landing (b.modifyStats i fun l => { l with armiesAttack := l.armiesAttack + 1 }) i
      fun l => { l with carriesAttack := l.carriesAttack + 1 }
  else if planet.armies ≤ 4 then
    landing (b.modifyStats i fun l => { l with armiesReinforce := l.armiesReinforce + 1 }) i
      fun l => { l with carriesReinforce := l.carriesReinforce + 1 }
  else if (b.hist i).lastBeamupPlanet = (b.player i).planet.val then
    -- the planet it was picked up from
    b.modifyStats i fun l => { l with armiesTotal := l.armiesTotal - 1 }
  else
    landing (b.modifyStats i fun l => { l with armiesFerries := l.armiesFerries + 1 }) i
      fun l => { l with carriesFerries := l.carriesFerries + 1 }

/-- `ltd_update_armies_ferried`, of an army put down on a starbase. -/
def updateArmiesFerried (b : Book) (i sb : Slot) : Book :=
  let b := if (b.hist i).lastBeamupPlanet = -1 then
      (b.modifyStats i fun l => { l with armiesTotal := l.armiesTotal - 1 }).modifyStats sb
        fun l => { l with armiesAttack := l.armiesAttack - 1 }
    else
      (b.modifyStats i fun l => { l with armiesFerries := l.armiesFerries + 1 }).modifyStats sb
        fun l => { l with armiesTotal := l.armiesTotal + 1 }
  completeCarry b i

/-- `ltd_update_planets`. -/
def updatePlanets (b : Book) (i : Slot) (l : Fin maxPlanets) : Book :=
  if (b.server.planet l).owner = nobody then
    b.modifyStats i fun l => { l with planetsDestroyed := l.planetsDestroyed + 1 }
  else b.modifyStats i fun l => { l with planetsTaken := l.planetsTaken + 1 }

/-! ## Writing -/

theorem hist_modifyStats (b : Book) (i : Slot) (f : LtdStats → LtdStats) : (b.modifyStats i f).hist = b.hist := rfl

theorem server_modifyStats (b : Book) (i : Slot) (f : LtdStats → LtdStats) : (b.modifyStats i f).server = b.server := rfl

theorem hist_modifyHist (b : Book) (i : Slot) (f : History → History) : (b.modifyHist i f).hist i = f (b.hist i) :=
  Function.update_self _ _ _

/-- The record that a call of the player writes. -/
theorem stats_modifyStats (b : Book) (i : Slot) (f : LtdStats → LtdStats) : (b.modifyStats i f).stats i = f (b.stats i) := by
  unfold Book.stats Book.modifyStats
  by_cases ht : b.server.mem.status.tourn = true
  · simp only [ht, if_true, Book.modifyAt, Book.modifyCell, Book.player, Function.update_self]
  · simp only [ht, if_false, Bool.false_eq_true, Function.update_self]

theorem stats_modifyStats_ne (b : Book) {i j : Slot} (h : j ≠ i) (f : LtdStats → LtdStats) :
    (b.modifyStats i f).stats j = b.stats j := by
  unfold Book.stats Book.modifyStats
  by_cases ht : b.server.mem.status.tourn = true
  · simp only [ht, if_true, Book.modifyAt, Book.player, Function.update_of_ne h]
  · simp only [ht, if_false, Bool.false_eq_true, Function.update_of_ne h]

/-! ## The server is only read -/

variable (b : Book) (i : Slot)

theorem server_completeCarry : (completeCarry b i).server = b.server := by
  unfold completeCarry
  split <;> rfl

theorem server_landing (f : LtdStats → LtdStats) : (landing b i f).server = b.server := by
  unfold landing
  split <;> rfl

theorem server_updateArmies (l : Fin maxPlanets) : (updateArmies b i l).server = b.server := by
  unfold updateArmies
  have hb := server_completeCarry b i
  dsimp only
  split
  · exact (server_landing _ _ _).trans hb
  split
  · exact (server_landing _ _ _).trans hb
  split
  · exact hb
  · exact (server_landing _ _ _).trans hb

theorem server_updateArmiesFerried (sb : Slot) : (updateArmiesFerried b i sb).server = b.server := by
  unfold updateArmiesFerried
  rw [server_completeCarry]
  split <;> rfl

theorem server_updatePlanets (l : Fin maxPlanets) : (updatePlanets b i l).server = b.server := by
  unfold updatePlanets
  split <;> rfl

theorem server_updateKillsMax : (updateKillsMax b i).server = b.server := rfl

theorem server_debitVictim : ∀ (ks : List (Fin numHist)) (b : Book), (debitVictim b i ks).server = b.server
  | [], _ => rfl
  | k :: ks, b => by
    unfold debitVictim
    dsimp only
    split
    · split
      · rfl
      · exact server_debitVictim ks b
    · exact server_debitVictim ks b

theorem server_convert : (convert b i).server = b.server := by
  unfold convert
  dsimp only
  repeat' split
  all_goals rfl

theorem server_beamupFrom (place : Int) : (beamupFrom b i place).server = b.server := by
  unfold beamupFrom
  dsimp only
  split
  · split <;> rfl
  · rfl

theorem server_beamupBy (sb : Option Slot) : (beamupBy b i sb).server = b.server := by
  cases sb <;> exact server_beamupFrom ..

theorem server_updateArmiesCarried (sb : Option Slot) : (updateArmiesCarried b i sb).server = b.server := by
  unfold updateArmiesCarried
  dsimp only
  rw [server_beamupBy, server_debitVictim, server_convert]
  rfl

end Netrek.Stats
