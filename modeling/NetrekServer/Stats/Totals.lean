/-
The totals of the statistics in `ntserv/ltd_stats.c`: `ltd_update_totals` sums up one race, counter by
counter; six counters are also totalled on demand, for all races, by loops that go on with the total
of the races before.
-/
import Mathlib.Algebra.BigOperators.Group.Finset.Basic
import Mathlib.Algebra.Order.Floor.Semifield
import Mathlib.Data.BitVec
import Mathlib.Data.Finset.Lattice.Fold
import Mathlib.Data.Finset.Max
import Mathlib.Data.NNRat.Floor
import Mathlib.Order.Lattice.Nat
import NetrekServer.Defs

namespace Netrek.Totals

/-! ## `struct ltd_stats` -/

abbrev Counter := BitVec 32

/-- `struct _kills`, but for `max`. -/
inductive KillCount
  | total
  | first
  | firstPotential
  | firstConverted
  | second
  | secondPotential
  | secondConverted
  | phasered
  | torped
  | plasmaed
  deriving DecidableEq

/-- `struct _deaths`. -/
inductive DeathCount
  | total
  | potential
  | converted
  | dooshed
  | phasered
  | torped
  | plasmaed
  | acc
  deriving DecidableEq

/-- `struct _planets`. -/
inductive PlanetCount
  | taken
  | destroyed
  deriving DecidableEq

/-- `struct _bomb`. -/
inductive BombCount
  | planets
  | planets8
  | planetsCore
  | armies
  | armies8
  | armiesCore
  deriving DecidableEq

/-- `struct _ogged`. -/
inductive OggCount
  | armies
  | dooshed
  | converted
  | potential
  | biggerShip
  | sameShip
  | smallerShip
  | sbArmies
  | friendly
  | friendlyArmies
  deriving DecidableEq

/-- `struct _armies`. -/
inductive ArmyCount
  | total
  | attack
  | reinforce
  | ferries
  | killed
  deriving DecidableEq

/-- `struct _carries`. -/
inductive CarryCount
  | total
  | partialCarry
  | completed
  | attack
  | reinforce
  | ferries
  deriving DecidableEq

/-- `struct _ticks`. -/
inductive TickCount
  | total
  | yellow
  | red
  | zone (k : Fin 8)
  | potential
  | carrier
  | repair
  deriving DecidableEq

/-- `struct _damage`. -/
inductive DamageCount
  | inflicted
  | taken
  deriving DecidableEq

/-- `struct _phaser`. -/
inductive PhaserCount
  | fired
  | hit
  | damage (d : DamageCount)
  deriving DecidableEq

/-- `struct _torp`. -/
inductive TorpCount
  | fired
  | hit
  | detted
  | selfdetted
  | wall
  | damage (d : DamageCount)
  deriving DecidableEq

/-- `struct _plasma`. -/
inductive PlasmaCount
  | fired
  | hit
  | phasered
  | wall
  | damage (d : DamageCount)
  deriving DecidableEq

/-- The counters of `struct ltd_stats`. -/
inductive Stat
  | kills (k : KillCount)
  | deaths (k : DeathCount)
  | planets (k : PlanetCount)
  | bomb (k : BombCount)
  | ogged (k : OggCount)
  | armies (k : ArmyCount)
  | carries (k : CarryCount)
  | ticks (k : TickCount)
  | damageRepaired
  | phaser (k : PhaserCount)
  | torps (k : TorpCount)
  | plasma (k : PlasmaCount)
  deriving DecidableEq

/-- `struct ltd_stats`: its counters, and `kills.max`. The maximum has no bound here; the code makes an `int` of it, and
no player has 2^31 kills. -/
structure LtdStats where
  count : Stat → Counter
  killsMax : ℚ≥0

/-! ## Records of a player -/

def ltdTotal : Nat := 0
def ltdSB : Nat := 6
def numShips : Nat := 8

/-- The races whose statistics are kept apart: `LTD_NUM_RACES`, and `ltd_race`. -/
structure Layout where
  numRaces : Nat
  race : Word → Nat
  race_lt : ∀ team, race team < numRaces
  onto : ∀ r < numRaces, ∃ team, race team = r

/-- `ltd_race` with `LTD_PER_RACE`. -/
def ltdRace (team : Word) : Nat := (raceIndex team).val

theorem ltdRace_lt (team : Word) : ltdRace team < 5 := (raceIndex team).isLt

theorem ltdRace_onto : ∀ r < 5, ∃ team, ltdRace team = r := by
  intro r hr
  obtain rfl | rfl | rfl | rfl | rfl : r = 0 ∨ r = 1 ∨ r = 2 ∨ r = 3 ∨ r = 4 := by omega
  · exact ⟨fed, rfl⟩
  · exact ⟨rom, rfl⟩
  · exact ⟨kli, rfl⟩
  · exact ⟨ori, rfl⟩
  · exact ⟨nobody, rfl⟩

/-- Without `LTD_PER_RACE`. -/
def Layout.single : Layout where
  numRaces := 1
  race _ := 0
  race_lt _ := Nat.one_pos
  onto _ hr := ⟨0, (Nat.lt_one_iff.1 hr).symm⟩

def Layout.perRace : Layout where
  numRaces := 5
  race := ltdRace
  race_lt := ltdRace_lt
  onto := ltdRace_onto

/-- The team of a player and the statistics, a record for each race and ship. -/
structure PlayerStats where
  team : Word
  ltd : Nat → Nat → LtdStats

/-- The record of the totals of a race is written to. -/
def PlayerStats.modifyTotal (p : PlayerStats) (race : Nat) (f : LtdStats → LtdStats) : PlayerStats :=
  { p with ltd := Function.update p.ltd race (Function.update (p.ltd race) ltdTotal (f (p.ltd race ltdTotal))) }

def LtdStats.set (r : LtdStats) (stat : Stat) (t : Counter) : LtdStats := { r with count := Function.update r.count stat t }

/-! ## `ltd_update_totals` -/

/-- A loop over the ships of a race, but for the starbase. -/
def overShips {α : Type} (p : PlayerStats) (race : Nat) (f : α → LtdStats → α) (t : α) : α :=
  (List.range' 1 (numShips - 1)).foldl (fun t i => if i = ltdSB then t else f t (p.ltd race i)) t

/-- What the loop of a counter makes of `t`. -/
def addShips (p : PlayerStats) (race : Nat) (stat : Stat) (t : Counter) : Counter :=
  overShips p race (fun t r => t + r.count stat) t

/-- What the loop of `kills.max` makes of `m`, which is an integer. -/
def maxShips (p : PlayerStats) (race : Nat) (m : Nat) : Nat :=
  overShips p race (fun m r => if (m : ℚ≥0) < r.killsMax then ⌊r.killsMax⌋₊ else m) m

/-- `TOTAL` of a counter, and `MAXIMISE` of `kills.max`. -/
inductive Macro
  | total (stat : Stat)
  | maximise
  deriving DecidableEq

def Macro.apply (race : Nat) (p : PlayerStats) : Macro → PlayerStats
  | .total stat => p.modifyTotal race fun r => r.set stat (addShips p race stat 0)
  | .maximise => p.modifyTotal race fun r => { r with killsMax := maxShips p race 0 }

/-- The macros of `ltd_update_totals` in their order. -/
def macros : List Macro :=
  [.total (.kills .total), .maximise, .total (.kills .first), .total (.kills .firstPotential),
    .total (.kills .firstConverted), .total (.kills .second), .total (.kills .secondPotential),
    .total (.kills .secondConverted), .total (.kills .phasered), .total (.kills .torped), .total (.kills .plasmaed),
    .total (.deaths .total), .total (.deaths .potential), .total (.deaths .converted), .total (.deaths .dooshed),
    .total (.deaths .phasered), .total (.deaths .torped), .total (.deaths .plasmaed), .total (.deaths .acc),
    .total (.planets .taken), .total (.planets .destroyed),
    .total (.bomb .planets), .total (.bomb .planets8), .total (.bomb .planetsCore), .total (.bomb .armies),
    .total (.bomb .armies8), .total (.bomb .armiesCore),
    .total (.ogged .armies), .total (.ogged .dooshed), .total (.ogged .converted), .total (.ogged .potential),
    .total (.ogged .biggerShip), .total (.ogged .sameShip), .total (.ogged .smallerShip), .total (.ogged .sbArmies),
    .total (.ogged .friendly), .total (.ogged .friendlyArmies),
    .total (.armies .total), .total (.armies .attack), .total (.armies .reinforce), .total (.armies .ferries),
    .total (.armies .killed),
    .total (.carries .total), .total (.carries .partialCarry), .total (.carries .completed), .total (.carries .attack),
    .total (.carries .reinforce), .total (.carries .ferries),
    .total (.ticks .total), .total (.ticks .yellow), .total (.ticks .red), .total (.ticks (.zone 0)),
    .total (.ticks (.zone 1)), .total (.ticks (.zone 2)), .total (.ticks (.zone 3)), .total (.ticks (.zone 4)),
    .total (.ticks (.zone 5)), .total (.ticks (.zone 6)), .total (.ticks (.zone 7)), .total (.ticks .potential),
    .total (.ticks .carrier), .total (.ticks .repair),
    .total .damageRepaired,
    .total (.phaser .fired), .total (.phaser .hit), .total (.phaser (.damage .inflicted)),
    .total (.phaser (.damage .taken)),
    .total (.torps .fired), .total (.torps .hit), .total (.torps .detted), .total (.torps .selfdetted),
    .total (.torps .wall), .total (.torps (.damage .inflicted)), .total (.torps (.damage .taken)),
    .total (.plasma .fired), .total (.plasma .hit), .total (.plasma .phasered), .total (.plasma .wall),
    .total (.plasma (.damage .inflicted)), .total (.plasma (.damage .taken))]

/-- `ltd_update_totals`. -/
def ltdUpdateTotals (L : Layout) (p : PlayerStats) : PlayerStats := macros.foldl (Macro.apply (L.race p.team)) p

/-! ## Totals on demand -/

/-- The loop over the races for some counters; the totals go on from race to race. -/
def forceTotals (stats : List Stat) (p : PlayerStats) (numRaces : Nat) : (Stat → Counter) × PlayerStats :=
  (List.range numRaces).foldl (fun (totals, p) race =>
    let totals := fun stat => addShips p race stat (totals stat)
    (totals, stats.foldl (fun p stat => p.modifyTotal race fun r => r.set stat (totals stat)) p)) (fun _ => 0, p)

/-- The loop over the races for `kills.max`; the maximum goes on as well. -/
def forceMax (p : PlayerStats) (numRaces : Nat) : Nat × PlayerStats :=
  (List.range numRaces).foldl (fun (m, p) race =>
    let m := maxShips p race m
    (m, p.modifyTotal race fun r => { r with killsMax := m })) (0, p)

/-- A counter of a ship, as an `int`; those of `LTD_TOTAL` are brought up to date first. -/
def onDemand (stats : List Stat) (value : LtdStats → Counter) (L : Layout) (p : PlayerStats) (s : Nat) : PlayerStats × Int :=
  let p := if s = ltdTotal then (forceTotals stats p L.numRaces).2 else p
  (p, (value (p.ltd (L.race p.team) s)).toInt)

/-- `ltd_kills`. -/
def ltdKills := onDemand [.kills .total] fun r => r.count (.kills .total)

/-- `ltd_deaths`. -/
def ltdDeaths := onDemand [.deaths .total] fun r => r.count (.deaths .total)

/-- `ltd_armies_bombed`. -/
def ltdArmiesBombed :=
  onDemand [.bomb .armies, .ogged .armies] fun r => r.count (.bomb .armies) + 5 * r.count (.ogged .armies)

/-- `ltd_planets_taken`. -/
def ltdPlanetsTaken := onDemand [.planets .taken] fun r => r.count (.planets .taken)

/-- `ltd_ticks`. -/
def ltdTicks := onDemand [.ticks .total] fun r => r.count (.ticks .total)

/-- `ltd_kills_max`. -/
def ltdKillsMax (L : Layout) (p : PlayerStats) (s : Nat) : PlayerStats × Int :=
  let p := if s = ltdTotal then (forceMax p L.numRaces).2 else p
  (p, (⌊(p.ltd (L.race p.team) s).killsMax⌋₊ : Int))

/-! ## The ships of a race -/

/-- The ships whose counters are totalled. -/
def totalShips : Finset Nat := {i ∈ Finset.range numShips | i ≠ ltdTotal ∧ i ≠ ltdSB}

/-- The sum of a counter over the ships of a race. -/
def shipSum (p : PlayerStats) (race : Nat) (stat : Stat) : Counter := ∑ i ∈ totalShips, (p.ltd race i).count stat

/-- The most kills of the ships of a race, rounded down. -/
def shipMax (p : PlayerStats) (race : Nat) : Nat := totalShips.sup fun i => ⌊(p.ltd race i).killsMax⌋₊

theorem totalShips_eq : totalShips = {1, 2, 3, 4, 5, 7} := rfl

theorem overShips_eq {α : Type} (p : PlayerStats) (race : Nat) (f : α → LtdStats → α) (t : α) :
    overShips p race f t = f (f (f (f (f (f t (p.ltd race 1)) (p.ltd race 2)) (p.ltd race 3)) (p.ltd race 4))
      (p.ltd race 5)) (p.ltd race 7) := rfl

theorem addShips_eq (p : PlayerStats) (race : Nat) (stat : Stat) (t : Counter) :
    addShips p race stat t = t + shipSum p race stat := by
  unfold addShips shipSum
  rw [overShips_eq, totalShips_eq]
  simp [BitVec.add_assoc]

theorem raise_eq_max (m : Nat) (x : ℚ≥0) : (if (m : ℚ≥0) < x then ⌊x⌋₊ else m) = max m ⌊x⌋₊ := by
  split
  · next h => exact (max_eq_right (Nat.le_floor h.le)).symm
  · next h => exact (max_eq_left (Nat.floor_le_of_le (not_lt.1 h))).symm

theorem maxShips_eq (p : PlayerStats) (race : Nat) (m : Nat) : maxShips p race m = max m (shipMax p race) := by
  unfold maxShips shipMax
  simp only [raise_eq_max]
  rw [overShips_eq, totalShips_eq]
  simp only [Finset.sup_insert, Finset.sup_singleton, max_assoc]

/-- The most kills of a race are those of its best ship. -/
theorem shipMax_eq (p : PlayerStats) (race : Nat) : ∃ i ∈ totalShips,
    (∀ j ∈ totalShips, (p.ltd race j).killsMax ≤ (p.ltd race i).killsMax) ∧
      shipMax p race = ⌊(p.ltd race i).killsMax⌋₊ := by
  obtain ⟨i, hi, hbest⟩ := totalShips.exists_max_image (fun i => (p.ltd race i).killsMax) ⟨1, by decide⟩
  refine ⟨i, hi, hbest, le_antisymm ?_ ?_⟩
  · exact Finset.sup_le fun j hj => Nat.floor_mono (hbest j hj)
  · exact Finset.le_sup (f := fun i => ⌊(p.ltd race i).killsMax⌋₊) hi

/-- Two players whose ships have the same statistics. -/
def SameShips (p q : PlayerStats) : Prop := ∀ race i, i ≠ ltdTotal → q.ltd race i = p.ltd race i

theorem SameShips.shipSum {p q : PlayerStats} (h : SameShips p q) (race : Nat) (stat : Stat) :
    shipSum q race stat = shipSum p race stat := by
  apply Finset.sum_congr rfl
  intro i hi
  rw [h race i (Finset.mem_filter.1 hi).2.1]

theorem SameShips.shipMax {p q : PlayerStats} (h : SameShips p q) (race : Nat) : shipMax q race = shipMax p race := by
  apply Finset.sup_congr rfl
  intro i hi
  rw [h race i (Finset.mem_filter.1 hi).2.1]

theorem ltd_modifyTotal (p : PlayerStats) (race r i : Nat) (f : LtdStats → LtdStats) :
    (p.modifyTotal race f).ltd r i = if r = race ∧ i = ltdTotal then f (p.ltd race ltdTotal) else p.ltd r i := by
  unfold PlayerStats.modifyTotal
  by_cases hr : r = race
  · subst hr
    by_cases hi : i = ltdTotal
    · subst hi
      simp
    · simp [hi]
  · simp [hr]

theorem sameShips_modifyTotal (p : PlayerStats) (race : Nat) (f : LtdStats → LtdStats) : SameShips p (p.modifyTotal race f) := by
  intro r i hi
  rw [ltd_modifyTotal, if_neg fun h => hi h.2]

/-! ## One race -/

theorem mem_macros (stat : Stat) : .total stat ∈ macros := by
  rcases stat with k | k | k | k | k | k | k | k | - | k | k | k
  case ticks =>
    cases k with
    | zone k =>
      have h : ∀ k : Fin 8, .total (.ticks (.zone k)) ∈ macros := by decide
      exact h k
    | _ => decide
  case damageRepaired => decide
  all_goals
    rcases k with _ | _ | _ | _ | _ | _ | _ | _ | _ | _
    all_goals decide

theorem maximise_mem_macros : Macro.maximise ∈ macros := by decide

theorem sameShips_apply (race : Nat) (p : PlayerStats) (m : Macro) : SameShips p (m.apply race p) := by
  cases m with
  | total stat => exact sameShips_modifyTotal p race fun r => r.set stat (addShips p race stat 0)
  | maximise => exact sameShips_modifyTotal p race fun r => { r with killsMax := maxShips p race 0 }

/-- What a macro leaves in the record of the totals. -/
theorem apply_total (race : Nat) (p : PlayerStats) (m : Macro) :
    (∀ stat, ((m.apply race p).ltd race ltdTotal).count stat =
      if m = .total stat then shipSum p race stat else (p.ltd race ltdTotal).count stat) ∧
    ((m.apply race p).ltd race ltdTotal).killsMax =
      if m = .maximise then (shipMax p race : ℚ≥0) else (p.ltd race ltdTotal).killsMax := by
  unfold Macro.apply
  cases m with
  | total stat' =>
    simp only [ltd_modifyTotal, and_self, if_true, LtdStats.set, addShips_eq, Function.update_apply,
      Macro.total.injEq, reduceCtorEq, if_false, and_true]
    intro stat
    by_cases h : stat = stat'
    · subst h
      simp
    · simp [h, Ne.symm h]
  | maximise => simp [ltd_modifyTotal, maxShips_eq]

/-- What some macros leave in it: each total is of the ships, which they do not change. -/
theorem foldl_apply (race : Nat) (ms : List Macro) : ∀ p : PlayerStats,
    (∀ stat, ((ms.foldl (Macro.apply race) p).ltd race ltdTotal).count stat =
      if .total stat ∈ ms then shipSum p race stat else (p.ltd race ltdTotal).count stat) ∧
    ((ms.foldl (Macro.apply race) p).ltd race ltdTotal).killsMax =
      if .maximise ∈ ms then (shipMax p race : ℚ≥0) else (p.ltd race ltdTotal).killsMax := by
  induction ms with
  | nil => exact fun p => ⟨fun stat => by simp, by simp⟩
  | cons m ms ih =>
    intro p
    obtain ⟨hcount, hmax⟩ := ih (m.apply race p)
    obtain ⟨hcount', hmax'⟩ := apply_total race p m
    have hsame := sameShips_apply race p m
    rw [List.foldl_cons]
    constructor
    · intro stat
      rw [hcount stat, hcount' stat, hsame.shipSum]
      by_cases hin : .total stat ∈ ms
      · simp [hin]
      · simp [hin, eq_comm]
    · rw [hmax, hmax', hsame.shipMax]
      by_cases hin : .maximise ∈ ms
      · simp [hin]
      · simp [hin, eq_comm]

theorem ltdUpdateTotals_count (L : Layout) (p : PlayerStats) (stat : Stat) :
    ((ltdUpdateTotals L p).ltd (L.race p.team) ltdTotal).count stat = shipSum p (L.race p.team) stat := by
  unfold ltdUpdateTotals
  rw [(foldl_apply (L.race p.team) macros p).1 stat, if_pos (mem_macros stat)]

theorem ltdUpdateTotals_killsMax (L : Layout) (p : PlayerStats) :
    ((ltdUpdateTotals L p).ltd (L.race p.team) ltdTotal).killsMax = shipMax p (L.race p.team) := by
  unfold ltdUpdateTotals
  rw [(foldl_apply (L.race p.team) macros p).2, if_pos maximise_mem_macros]

/-! ## All races -/

/-- The loop over counters in a race. -/
theorem foldl_set (race : Nat) (totals : Stat → Counter) (stats : List Stat) : ∀ p : PlayerStats,
    SameShips p (stats.foldl (fun p stat => p.modifyTotal race fun r => r.set stat (totals stat)) p) ∧
    ∀ r stat, ((stats.foldl (fun p stat => p.modifyTotal race fun r => r.set stat (totals stat)) p).ltd r ltdTotal).count stat =
      if r = race ∧ stat ∈ stats then totals stat else (p.ltd r ltdTotal).count stat := by
  induction stats with
  | nil => exact fun p => ⟨fun _ _ _ => rfl, fun r stat => by simp⟩
  | cons stat' stats ih =>
    intro p
    obtain ⟨hsame, hcount⟩ := ih (p.modifyTotal race fun r => r.set stat' (totals stat'))
    rw [List.foldl_cons]
    refine ⟨fun r i hi => (hsame r i hi).trans (sameShips_modifyTotal p race _ r i hi), fun r stat => ?_⟩
    rw [hcount r stat, ltd_modifyTotal]
    by_cases hr : r = race
    · subst hr
      by_cases hin : stat ∈ stats
      · simp [hin]
      · by_cases heq : stat = stat'
        · subst heq
          simp [hin, LtdStats.set]
        · simp [hin, heq, LtdStats.set]
    · simp [hr]

/-- On demand, the total of a race goes on from those of the races before. -/
theorem forceTotals_spec (stats : List Stat) (p : PlayerStats) (n : Nat) :
    (∀ stat, (forceTotals stats p n).1 stat = ∑ r ∈ Finset.range n, shipSum p r stat) ∧
    SameShips p (forceTotals stats p n).2 ∧
    ∀ r < n, ∀ stat ∈ stats,
      ((forceTotals stats p n).2.ltd r ltdTotal).count stat = ∑ r' ∈ Finset.range (r + 1), shipSum p r' stat := by
  induction n with
  | zero => exact ⟨fun stat => rfl, fun _ _ _ => rfl, nofun⟩
  | succ n ih =>
    obtain ⟨htotals, hsame, hcount⟩ := ih
    have hstep : forceTotals stats p (n + 1) =
        (fun stat => addShips (forceTotals stats p n).2 n stat ((forceTotals stats p n).1 stat),
          stats.foldl (fun q stat => q.modifyTotal n fun r =>
            r.set stat (addShips (forceTotals stats p n).2 n stat ((forceTotals stats p n).1 stat))) (forceTotals stats p n).2) := by
      unfold forceTotals
      rw [List.range_succ, List.foldl_append]
      rfl
    have hnext : ∀ stat, addShips (forceTotals stats p n).2 n stat ((forceTotals stats p n).1 stat) =
        ∑ r ∈ Finset.range (n + 1), shipSum p r stat := by
      intro stat
      rw [addShips_eq, htotals stat, hsame.shipSum, Finset.sum_range_succ]
    obtain ⟨hsame', hcount'⟩ := foldl_set n
      (fun stat => addShips (forceTotals stats p n).2 n stat ((forceTotals stats p n).1 stat)) stats (forceTotals stats p n).2
    rw [hstep]
    refine ⟨hnext, fun r i hi => (hsame' r i hi).trans (hsame r i hi), fun r hr stat hstat => ?_⟩
    rw [hcount' r stat]
    by_cases heq : r = n
    · subst heq
      rw [if_pos ⟨rfl, hstat⟩, hnext]
    · rw [if_neg fun h => heq h.1, hcount r (by omega) stat hstat]

/-- So does the maximum. -/
theorem forceMax_spec (p : PlayerStats) (n : Nat) :
    (forceMax p n).1 = (Finset.range n).sup (shipMax p) ∧ SameShips p (forceMax p n).2 ∧
    ∀ r < n, ((forceMax p n).2.ltd r ltdTotal).killsMax = (Finset.range (r + 1)).sup (shipMax p) := by
  induction n with
  | zero => exact ⟨rfl, fun _ _ _ => rfl, nofun⟩
  | succ n ih =>
    obtain ⟨hmax, hsame, hkills⟩ := ih
    have hstep : forceMax p (n + 1) = (maxShips (forceMax p n).2 n (forceMax p n).1,
        (forceMax p n).2.modifyTotal n fun r => { r with killsMax := maxShips (forceMax p n).2 n (forceMax p n).1 }) := by
      unfold forceMax
      rw [List.range_succ, List.foldl_append]
      rfl
    have hnext : maxShips (forceMax p n).2 n (forceMax p n).1 = (Finset.range (n + 1)).sup (shipMax p) := by
      rw [maxShips_eq, hmax, hsame.shipMax, Finset.range_add_one, Finset.sup_insert, max_comm]
    rw [hnext] at hstep
    have hsame' := sameShips_modifyTotal (forceMax p n).2 n fun r =>
      { r with killsMax := ((Finset.range (n + 1)).sup (shipMax p) : Nat) }
    rw [hstep]
    refine ⟨rfl, fun r i hi => (hsame' r i hi).trans (hsame r i hi), fun r hr => ?_⟩
    rw [ltd_modifyTotal]
    by_cases heq : r = n
    · subst heq
      rw [if_pos ⟨rfl, rfl⟩]
    · rw [if_neg fun h => heq h.1, hkills r (by omega)]

/-! ## The two ways to total -/

/-- A record has the sum of every counter of the ships, and the most kills of one of them, rounded down. -/
def Totalled (ships : Nat → LtdStats) (total : LtdStats) : Prop :=
  (∀ stat, total.count stat = ∑ i ∈ totalShips, (ships i).count stat) ∧
    ∃ i ∈ totalShips, (∀ j ∈ totalShips, (ships j).killsMax ≤ (ships i).killsMax) ∧
      total.killsMax = ⌊(ships i).killsMax⌋₊

/-- Some counters of the totals of every race are those that `ltd_update_totals` leaves for it. -/
def Agrees (L : Layout) (p : PlayerStats) (stats : List Stat) (q : PlayerStats) : Prop :=
  ∀ team, ∀ stat ∈ stats, (q.ltd (L.race team) ltdTotal).count stat =
    ((ltdUpdateTotals L { p with team := team }).ltd (L.race team) ltdTotal).count stat

/-- So is `kills.max`. -/
def MaxAgrees (L : Layout) (p q : PlayerStats) : Prop :=
  ∀ team, (q.ltd (L.race team) ltdTotal).killsMax =
    ((ltdUpdateTotals L { p with team := team }).ltd (L.race team) ltdTotal).killsMax

/-- Every race but the last counts nothing, all in all. -/
def OnlyLast (L : Layout) (p : PlayerStats) (stats : List Stat) : Prop :=
  ∀ stat ∈ stats, ∀ race, race + 1 < L.numRaces → shipSum p race stat = 0

/-- No race has fewer kills at most than the race before it. -/
def Climbing (L : Layout) (p : PlayerStats) : Prop :=
  ∀ race, race + 1 < L.numRaces → shipMax p race ≤ shipMax p (race + 1)

/-- The total that goes on from race to race is that of each race only if there was nothing to go on with. -/
theorem running_total_iff (f : Nat → Counter) (n : Nat) :
    (∀ r < n, ∑ r' ∈ Finset.range (r + 1), f r' = f r) ↔ ∀ r, r + 1 < n → f r = 0 := by
  constructor
  · intro h r hr
    have hnext := h (r + 1) hr
    rw [Finset.sum_range_succ, h r (by omega)] at hnext
    exact add_eq_right.1 hnext
  · intro h r hr
    rw [Finset.sum_range_succ, Finset.sum_eq_zero, zero_add]
    intro r' hr'
    exact h r' (by have := Finset.mem_range.1 hr'; omega)

theorem running_max_iff (f : Nat → Nat) (n : Nat) :
    (∀ r < n, (Finset.range (r + 1)).sup f = f r) ↔ ∀ r, r + 1 < n → f r ≤ f (r + 1) := by
  constructor
  · intro h r hr
    rw [← h (r + 1) hr]
    exact Finset.le_sup (Finset.mem_range.2 (by omega))
  · intro h r
    induction r with
    | zero => simp
    | succ r ih =>
      intro hr
      rw [Finset.range_add_one, Finset.sup_insert, ih (by omega)]
      exact max_eq_left (h r hr)

/-- The accessors of counters leave the right totals exactly if only the last race has any. -/
theorem forceTotals_agrees_iff (L : Layout) (p : PlayerStats) (stats : List Stat) :
    Agrees L p stats (forceTotals stats p L.numRaces).2 ↔ OnlyLast L p stats := by
  have hrace : ∀ team, ∀ stat ∈ stats,
      ((forceTotals stats p L.numRaces).2.ltd (L.race team) ltdTotal).count stat =
        ∑ r ∈ Finset.range (L.race team + 1), shipSum p r stat :=
    fun team stat hstat => (forceTotals_spec stats p L.numRaces).2.2 _ (L.race_lt team) stat hstat
  constructor
  · intro h stat hstat
    apply (running_total_iff (fun r => shipSum p r stat) L.numRaces).1
    intro r hr
    obtain ⟨team, rfl⟩ := L.onto r hr
    have hteam := h team stat hstat
    rw [hrace team stat hstat, ltdUpdateTotals_count L { p with team := team } stat] at hteam
    exact hteam
  · intro h team stat hstat
    rw [hrace team stat hstat, ltdUpdateTotals_count L { p with team := team } stat]
    exact (running_total_iff (fun r => shipSum p r stat) L.numRaces).2 (h stat hstat) _ (L.race_lt team)

/-- The accessor of `kills.max` leaves the right ones exactly if the races climb. -/
theorem forceMax_agrees_iff (L : Layout) (p : PlayerStats) :
    MaxAgrees L p (forceMax p L.numRaces).2 ↔ Climbing L p := by
  have hrace : ∀ team, ((forceMax p L.numRaces).2.ltd (L.race team) ltdTotal).killsMax =
      (Finset.range (L.race team + 1)).sup (shipMax p) :=
    fun team => (forceMax_spec p L.numRaces).2.2 _ (L.race_lt team)
  constructor
  · intro h
    apply (running_max_iff (shipMax p) L.numRaces).1
    intro r hr
    obtain ⟨team, rfl⟩ := L.onto r hr
    have hteam := h team
    rw [hrace team, ltdUpdateTotals_killsMax L { p with team := team }] at hteam
    exact Nat.cast_injective hteam
  · intro h team
    rw [hrace team, ltdUpdateTotals_killsMax L { p with team := team }]
    exact congrArg Nat.cast ((running_max_iff (shipMax p) L.numRaces).2 h _ (L.race_lt team))

/-- `ltd_update_totals` totals every counter of the race. An accessor that totals on demand leaves the same
totals if and only if the races before the last have nothing to pass on; for `kills.max`, if and only if none
has more than the next. -/
theorem totals_on_demand_agree_iff (L : Layout) (p : PlayerStats) :
    Totalled (p.ltd (L.race p.team)) ((ltdUpdateTotals L p).ltd (L.race p.team) ltdTotal) ∧
    (Agrees L p [.kills .total] (ltdKills L p ltdTotal).1 ↔ OnlyLast L p [.kills .total]) ∧
    (Agrees L p [.deaths .total] (ltdDeaths L p ltdTotal).1 ↔ OnlyLast L p [.deaths .total]) ∧
    (Agrees L p [.bomb .armies, .ogged .armies] (ltdArmiesBombed L p ltdTotal).1 ↔
      OnlyLast L p [.bomb .armies, .ogged .armies]) ∧
    (Agrees L p [.planets .taken] (ltdPlanetsTaken L p ltdTotal).1 ↔ OnlyLast L p [.planets .taken]) ∧
    (Agrees L p [.ticks .total] (ltdTicks L p ltdTotal).1 ↔ OnlyLast L p [.ticks .total]) ∧
    (MaxAgrees L p (ltdKillsMax L p ltdTotal).1 ↔ Climbing L p) := by
  refine ⟨⟨ltdUpdateTotals_count L p, ?_⟩, forceTotals_agrees_iff L p _, forceTotals_agrees_iff L p _,
    forceTotals_agrees_iff L p _, forceTotals_agrees_iff L p _, forceTotals_agrees_iff L p _,
    forceMax_agrees_iff L p⟩
  obtain ⟨i, hi, hbest, heq⟩ := shipMax_eq p (L.race p.team)
  exact ⟨i, hi, hbest, by rw [ltdUpdateTotals_killsMax, heq]⟩

/-- No statistics, but for one kill in a scout of the Federation. -/
def oneKill : PlayerStats where
  team := rom
  ltd race i := { count := fun stat => if race = 0 ∧ i = 1 ∧ stat = .kills .total then 1 else 0, killsMax := 0 }

/-- The kill counts for the Romulans as well when the kills are totalled on demand. -/
theorem kill_counts_for_every_race :
    ((ltdKills .perRace oneKill ltdTotal).1.ltd (ltdRace rom) ltdTotal).count (.kills .total) = 1 ∧
      ((ltdUpdateTotals .perRace oneKill).ltd (ltdRace rom) ltdTotal).count (.kills .total) = 0 := by
  have hfed : shipSum oneKill 0 (.kills .total) = 1 := by decide
  have hrom : shipSum oneKill 1 (.kills .total) = 0 := by decide
  constructor
  · have h := (forceTotals_spec [.kills .total] oneKill 5).2.2 1 (by decide) (.kills .total) (by simp)
    rw [Finset.sum_range_succ, Finset.sum_range_one, hfed, hrom] at h
    exact h
  · exact (ltdUpdateTotals_count .perRace oneKill (.kills .total)).trans hrom

end Netrek.Totals
