/-
`ntserv/ltd_stats.c`: statistics kept for each race and ship type, as a tick passes, a kill is credited
and an army is beamed up, with the history of the life that they depend on. Counters are unsigned
machine integers; a float is a rational here.
-/
import NetrekServer.Server

namespace Netrek.Stats

/-! ## Records -/

/-- An `unsigned int` that counts. -/
abbrev Counter := BitVec 32

/-- `struct _kills`. -/
structure Kills where
  total : Counter
  max : ℚ
  /-- First kills, those that could be converted to carries, and those that were. -/
  first : Counter
  firstPotential : Counter
  firstConverted : Counter
  second : Counter
  secondPotential : Counter
  secondConverted : Counter
  phasered : Counter
  torped : Counter
  plasmaed : Counter
  deriving Inhabited

/-- `struct _ogged`. -/
structure Ogged where
  armies : Counter
  dooshed : Counter
  converted : Counter
  potential : Counter
  biggerShip : Counter
  sameShip : Counter
  smallerShip : Counter
  sbArmies : Counter
  friendly : Counter
  friendlyArmies : Counter
  deriving Inhabited

def numTzones : Nat := 8

/-- `struct _ticks`. -/
structure Ticks where
  total : Counter
  yellow : Counter
  red : Counter
  zone : Fin numTzones → Counter
  potential : Counter
  carrier : Counter
  repair : Counter
  deriving Inhabited

/-- `struct ltd_stats`, the fields the model writes. -/
structure LtdStats where
  kills : Kills
  deathsAcc : Counter
  ogged : Ogged
  planetsTaken : Counter
  planetsDestroyed : Counter
  armiesTotal : Counter
  armiesAttack : Counter
  armiesReinforce : Counter
  armiesFerries : Counter
  carriesTotal : Counter
  carriesCompleted : Counter
  carriesAttack : Counter
  carriesReinforce : Counter
  carriesFerries : Counter
  ticks : Ticks
  deriving Inhabited

def numHist : Nat := 5

/-- `struct _kill`. -/
structure HistKill where
  tick : Counter
  potential : Nat
  victim : Option Slot
  before : ℚ
  ship : ShipType
  deriving Inhabited

/-- `struct ltd_history`, the fields the model reads. -/
structure History where
  kills : Fin numHist → HistKill
  numKills : Nat
  /-- 0, or a potential first or second kill, or a converted first or second kill. -/
  killPotential : Nat
  /-- A planet's number, -1 for a starbase, -2 for none. -/
  lastBeamupPlanet : Int
  lastBeamdownPlanet : Int
  enemyTeam : Word
  deriving Inhabited

def numRaces : Nat := 5
def numShips : Nat := 8

/-- The server, and the statistics and the history of each player; `bogus` is written outside of tournament mode. -/
structure Book where
  /-- `LTD_PER_RACE`. -/
  perRace : Bool
  server : Server
  ltd : Slot → Fin numRaces → Fin numShips → LtdStats
  bogus : Slot → LtdStats
  hist : Slot → History
  deriving Inhabited

/-- `ltd_ship[].index`. -/
def shipIndex : ShipType → Fin numShips
  | .scout => ⟨1, by decide⟩
  | .destroyer => ⟨2, by decide⟩
  | .cruiser => ⟨3, by decide⟩
  | .battleship => ⟨4, by decide⟩
  | .assault => ⟨5, by decide⟩
  | .starbase => ⟨6, by decide⟩
  | .sgalaxy => ⟨7, by decide⟩
  -- the last entry of the table is that of the total
  | .att => ⟨0, by decide⟩

/-- `ltd_race`. -/
def ltdRace (perRace : Bool) (team : Word) : Fin numRaces := if perRace then raceIndex team else ⟨0, by decide⟩

namespace Book

def player (b : Book) (i : Slot) : Player := b.server.player i

/-- A record of a table of records by race and ship. -/
def modifyCell (t : Fin numRaces → Fin numShips → LtdStats) (race : Fin numRaces) (ship : Fin numShips)
    (f : LtdStats → LtdStats) : Fin numRaces → Fin numShips → LtdStats :=
  Function.update t race (Function.update (t race) ship (f (t race ship)))

def modifyAt (b : Book) (i : Slot) (race : Fin numRaces) (ship : Fin numShips) (f : LtdStats → LtdStats) : Book :=
  { b with ltd := Function.update b.ltd i (modifyCell (b.ltd i) race ship f) }

/-- `ltd_stat_ptr`, to read. -/
def stats (b : Book) (i : Slot) : LtdStats :=
  if b.server.mem.status.tourn then b.ltd i (ltdRace b.perRace (b.player i).team) (shipIndex (b.player i).ship.type)
  else b.bogus i

/-- `ltd_stat_ptr`, to write. -/
def modifyStats (b : Book) (i : Slot) (f : LtdStats → LtdStats) : Book :=
  let tourn := b.server.mem.status.tourn
  let race := ltdRace b.perRace (b.player i).team
  let ship := shipIndex (b.player i).ship.type
  { b with
    ltd := if tourn then (b.modifyAt i race ship f).ltd else b.ltd
    bogus := if tourn then b.bogus else Function.update b.bogus i (f (b.bogus i)) }

def modifyKills (b : Book) (i : Slot) (f : Kills → Kills) : Book := b.modifyStats i fun l => { l with kills := f l.kills }
def modifyOgged (b : Book) (i : Slot) (f : Ogged → Ogged) : Book := b.modifyStats i fun l => { l with ogged := f l.ogged }
def modifyTicks (b : Book) (i : Slot) (f : Ticks → Ticks) : Book := b.modifyStats i fun l => { l with ticks := f l.ticks }

def modifyHist (b : Book) (i : Slot) (f : History → History) : Book :=
  { b with hist := Function.update b.hist i (f (b.hist i)) }

end Book

/-! ## Ticks -/

/-- The zones along an axis from the own backfield on. -/
def zoneUp (v : Int) : Fin numTzones :=
  if v < 20000 then ⟨0, by decide⟩ else if v < 35000 then ⟨1, by decide⟩ else if v < 50000 then ⟨2, by decide⟩
  else if v < 65000 then ⟨3, by decide⟩ else if v < 80000 then ⟨4, by decide⟩ else ⟨5, by decide⟩

def zoneDown (v : Int) : Fin numTzones :=
  if 80000 ≤ v then ⟨0, by decide⟩ else if 65000 ≤ v then ⟨1, by decide⟩ else if 50000 ≤ v then ⟨2, by decide⟩
  else if 35000 ≤ v then ⟨3, by decide⟩ else if 20000 ≤ v then ⟨4, by decide⟩ else ⟨5, by decide⟩

/-- `ltd_zone`. -/
def ltdZone (p : Player) (h : History) : Fin numTzones :=
  let within (b : Bool) (z : Fin numTzones) : Fin numTzones := if b then z else ⟨6, by decide⟩
  let x := p.x
  let y := p.y
  let other := h.enemyTeam
  if p.status ≠ .palive then ⟨7, by decide⟩
  else if p.team = fed ∧ other = rom then within (x < 50000) (zoneDown y)
  else if p.team = fed ∧ other = ori then within (50000 ≤ y) (zoneUp x)
  else if p.team = rom ∧ other = fed then within (x < 50000) (zoneUp y)
  else if p.team = rom ∧ other = kli then within (y < 50000) (zoneUp x)
  else if p.team = kli ∧ other = rom then within (y < 50000) (zoneDown x)
  else if p.team = kli ∧ other = ori then within (50000 ≤ x) (zoneUp y)
  else if p.team = ori ∧ other = fed then within (50000 ≤ y) (zoneDown x)
  else if p.team = ori ∧ other = kli then within (50000 ≤ x) (zoneDown y)
  else ⟨7, by decide⟩

/-- The counts of a tick. -/
def countTick (p : Player) (h : History) (t : Ticks) : Ticks :=
  let t := { t with total := t.total + 1 }
  let t := if p.flags.has pfRed then { t with red := t.red + 1 }
    else if p.flags.has pfYellow then { t with yellow := t.yellow + 1 }
    else t
  let t := if 0 < p.armies then { t with carrier := t.carrier + 1 }
    else if h.killPotential ≠ 0 then { t with potential := t.potential + 1 }
    else t
  let t := if p.flags.has pfRepair then { t with repair := t.repair + 1 } else t
  if t.total % 10 = 0 then { t with zone := Function.update t.zone (ltdZone p h) (t.zone (ltdZone p h) + 1) } else t

/-- In green alert with less than half of the hull damaged. -/
def safe (p : Player) : Bool := p.flags.has pfGreen && decide (p.damage < p.ship.maxDamage.tdiv 2)

/-- Green alert is reached with a kill that is not yet a potential one. -/
def markFirst (b : Book) (i : Slot) : Book :=
  if (b.hist i).killPotential = 0 ∧ 0 < (b.hist i).numKills ∧ safe (b.player i) = true then
    (b.modifyKills i fun k => { k with firstPotential := k.firstPotential + 1 }).modifyHist i
      fun h => { h with killPotential := 1 }
  else b

/-- The second kill can be acquired long after the first. -/
def markSecond (b : Book) (i : Slot) : Book :=
  if (b.hist i).killPotential = 1 ∧ 1 < (b.hist i).numKills ∧ safe (b.player i) = true then
    (b.modifyKills i fun k => { k with secondPotential := k.secondPotential + 1 }).modifyHist i
      fun h => { h with killPotential := 2 }
  else b

/-- `ltd_update_ticks`. -/
def updateTicks (b : Book) (i : Slot) : Book :=
  markSecond (markFirst (b.modifyTicks i (countTick (b.player i) (b.hist i))) i) i

/-! ## Kills -/

/-- An `int` as a `short`. -/
def short (n : Int) : Int := (BitVec.ofInt 16 n).toInt

/-- Kills by weapon type. -/
def countWeapon (w : WhyDead) (k : Kills) : Kills :=
  match w with
  | .kphaser => { k with phasered := k.phasered + 1 }
  | .ktorp | .ktorp2 => { k with torped := k.torped + 1 }
  | .kplasma | .kplasma2 => { k with plasmaed := k.plasmaed + 1 }
  | _ => k

/-- How big a ship is, for the ships that are compared. -/
def shipSize : ShipType → Option Nat
  | .scout | .destroyer => some 0
  | .assault => some 1
  | .cruiser | .battleship => some 2
  | .starbase => some 3
  | .sgalaxy | .att => none

/-- The killer's ship against the victim's. -/
def countSize (killer victim : ShipType) (o : Ogged) : Ogged :=
  match shipSize killer, shipSize victim with
  | some k, some v =>
    if v < k then { o with smallerShip := o.smallerShip + 1 }
    else if v = k then { o with sameShip := o.sameShip + 1 }
    else { o with biggerShip := o.biggerShip + 1 }
  | _, _ => o

/-- The victim was a carrier. -/
def countCarrier (b : Book) (credit actual victim : Slot) : Book :=
  let victimArmies := short (b.player victim).armies
  let armies := BitVec.ofInt 32 victimArmies
  let b := if (b.player victim).ship.type = .starbase then
      b.modifyOgged credit fun o => { o with sbArmies := o.sbArmies + armies }
    else b.modifyOgged credit fun o => { o with armies := o.armies + armies, dooshed := o.dooshed + 1 }
  let b := if (b.player actual).team = (b.player victim).team then
      b.modifyOgged actual fun o => { o with friendlyArmies := o.friendlyArmies + armies, friendly := o.friendly + 1 }
    else b
  b.modifyOgged credit (countSize (b.player credit).ship.type (b.player victim).ship.type)

/-- The victim had no armies, but may have had kills to carry on. -/
def countPotential (potential : Nat) (o : Ogged) : Ogged :=
  if potential = 1 ∨ potential = 2 then { o with potential := o.potential + 1 }
  else if 2 < potential then { o with converted := o.converted + 1 }
  else o

/-- The kill as the history keeps it. -/
def histKill (b : Book) (credit victim : Slot) : HistKill :=
  let v := b.player victim
  { tick := (b.stats credit).ticks.total
    potential := 0
    victim := some victim
    before := addFloat (b.player credit).kills (-v.worth)
    ship := v.ship.type }

/-- The kills of a life are remembered, up to a number of them. -/
def remember (b : Book) (credit victim : Slot) : Book :=
  let k := (b.hist credit).numKills
  if hk : k < numHist then
    let entry := histKill b credit victim
    let b := b.modifyHist credit fun h => { h with kills := Function.update h.kills ⟨k, hk⟩ entry }
    let b :=
      if k = 0 then b.modifyKills credit fun k => { k with first := k.first + 1 }
      else if k = 1 then b.modifyKills credit fun k => { k with second := k.second + 1 }
      else b
    b.modifyHist credit fun h => { h with numKills := h.numKills + 1 }
  else b

/-- `ltd_update_kills_max`. -/
def updateKillsMax (b : Book) (killer : Slot) : Book :=
  b.modifyKills killer fun k => if k.max < (b.player killer).kills then { k with max := (b.player killer).kills } else k

/-- `ltd_update_kills`. -/
def updateKills (b : Book) (credit actual victim : Slot) : Book :=
  let b := b.modifyKills credit fun k => countWeapon (b.player victim).whydead { k with total := k.total + 1 }
  let b := if 0 < short (b.player victim).armies then countCarrier b credit actual victim
    else b.modifyOgged credit (countPotential (b.hist victim).killPotential)
  updateKillsMax (remember b credit victim) credit

/-! ## Armies -/

/-- How many armies a kill carries. -/
def perKill (t : ShipType) : Int := if t = .assault then 3 else 2

/-- The potential of the kills once an army is beamed up. -/
def convert (b : Book) (i : Slot) : Book :=
  let numKills := (b.hist i).numKills
  if (b.hist i).killPotential = 0 then
    let b := if 1 ≤ numKills then b.modifyKills i fun k => { k with firstPotential := k.firstPotential + 1 } else b
    let b := if 2 ≤ numKills then b.modifyKills i fun k => { k with secondPotential := k.secondPotential + 1 } else b
    b.modifyHist i fun h => { h with killPotential := 3 }
  else if (b.hist i).killPotential = 1 ∨ (b.hist i).killPotential = 2 then
    if 0 < numKills then
      (b.modifyKills i fun k => { k with firstConverted := k.firstConverted + 1 }).modifyHist i
        fun h => { h with killPotential := 3 }
    else b
  else if (b.hist i).killPotential = 3 then
    if 1 < numKills ∧ perKill (b.player i).ship.type < (b.player i).armies then
      (b.modifyKills i fun k => { k with secondConverted := k.secondConverted + 1 }).modifyHist i
        fun h => { h with killPotential := 4 }
    else b
  else b

/-- The victim of the first kill in the list that this army needed is debited. -/
def debitVictim (b : Book) (i : Slot) : List (Fin numHist) → Book
  | [] => b
  | k :: ks =>
    let kill := (b.hist i).kills k
    match kill.victim with
    | some v =>
      if truncate (toFloat (kill.before * perKill (b.player i).ship.type)) < (b.player i).armies then
        (b.modifyAt v (ltdRace b.perRace (b.player v).team) (shipIndex kill.ship)
            fun l => { l with deathsAcc := l.deathsAcc + 1 }).modifyHist i
          fun h => { h with kills := Function.update h.kills k { h.kills k with victim := none } }
      else debitVictim b i ks
    | none => debitVictim b i ks

/-- An army comes from another place than the last: if it is the first, a carry begins. -/
def beamupFrom (b : Book) (i : Slot) (place : Int) : Book :=
  if (b.hist i).lastBeamupPlanet ≠ place then
    let b := b.modifyHist i fun h => { h with lastBeamupPlanet := place }
    if (b.player i).armies = 1 then b.modifyStats i fun l => { l with carriesTotal := l.carriesTotal + 1 } else b
  else b

/-- The army comes from a planet, or from a starbase, for which it counts as delivered. -/
def beamupBy (b : Book) (i : Slot) (sb : Option Slot) : Book :=
  match sb with
  | none => beamupFrom b i (b.player i).planet.val
  | some sb => beamupFrom (b.modifyStats sb fun l => { l with armiesAttack := l.armiesAttack + 1 }) i (-1)

/-- `ltd_update_armies_carried`, of an army beamed up from a planet or from a starbase. -/
def updateArmiesCarried (b : Book) (i : Slot) (sb : Option Slot) : Book :=
  let b := b.modifyStats i fun l => { l with armiesTotal := l.armiesTotal + 1 }
  let b := convert b i
  beamupBy (debitVictim b i ((List.finRange numHist).take (b.hist i).numKills)) i sb

/-! ## Starting over -/

/-- `ltd_reset_hist`. -/
def resetHist (b : Book) (i : Slot) : Book :=
  b.modifyHist i fun _ => ⟨fun _ => ⟨0, 0, none, 0, .scout⟩, 0, 0, -2, -2, 0⟩

/-- A record as `ltd_reset_struct` leaves it; no tick count is 0, so that none divides by it. -/
def LtdStats.fresh : LtdStats :=
  ⟨⟨0, 0, 0, 0, 0, 0, 0, 0, 0, 0, 0⟩, 0, ⟨0, 0, 0, 0, 0, 0, 0, 0, 0, 0⟩, 0, 0, 0, 0, 0, 0, 0, 0, 0, 0, 0,
    ⟨1, 1, 1, fun _ => 1, 1, 1, 1⟩⟩

/-- `ltd_reset`. -/
def reset (b : Book) (i : Slot) : Book :=
  resetHist { b with ltd := Function.update b.ltd i fun _ _ => .fresh } i

end Netrek.Stats
