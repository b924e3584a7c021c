/-
`ntorp` of `ntserv/torp.c` and `nplasmatorp` of `ntserv/plasma.c`: a player fires a torp or a plasma
torp, if none of the conditions of the source refuses it.
-/
import NetrekServer.Daemon.Torps

namespace Netrek.Weapons

open Daemon

/-! ## Costs -/

/-- What a torp costs: fuel, engine temperature, weapon temperature. -/
inductive Adj
  | fuel
  | etemp
  | wtemp

/-- `base_cost * net_adj`. The speed and the product are of type `float`, the terms of `net_adj` of
type `double`, for the constants are. -/
def adjustedCost (baseCost : Int) (baseAdj : ℚ) (p : Player) (dirAdj : ℚ) : ℚ :=
  let speedAdj := toFloat (toFloat p.speed / toFloat p.ship.maxSpeed)
  let netAdj := toFloat (toDouble (1 + toDouble (toDouble (toDouble (baseAdj - 1) * speedAdj) * dirAdj)))
  toFloat (toFloat baseCost * netAdj)

/-- `getAdjTorpCost`: costs are higher for firing to the side or backwards. -/
def getAdjTorpCost (c : Setup) (p : Player) (torpdir : UInt8) (adjType : Adj) : Int :=
  let delta : Int := |(p.dir.toNat : Int) - torpdir.toNat|
  let delta := if 128 < delta then 255 - delta else delta
  let bareBase := p.ship.type = .starbase ∧ c.asstorpBase = false
  let (baseCost, baseAdj) : Int × ℚ := match adjType with
    | .fuel => (if p.cloakphase ≠ 0 ∧ p.ship.type ≠ .att then 2 * p.ship.torpCost else p.ship.torpCost, c.asstorpFuelMult)
    | .wtemp => (p.ship.torpCost.tdiv 10 - 10, c.asstorpWtempMult)
    | .etemp => (if bareBase ∨ c.asstorpEtempMult ≤ 1 ∨ delta < 42 then 0 else p.ship.torpCost.tdiv 10 - 10,
        c.asstorpEtempMult)
  if bareBase then baseCost
  else if baseAdj ≤ 1 then baseCost
  else if baseCost ≤ 0 then 0
  else if delta < 42 then baseCost
  else
    -- side torp penalties are reduced by half
    let dirAdj : ℚ := if 92 < delta then 1 else 1 / 2
    truncate (adjustedCost baseCost baseAdj p dirAdj)

/-- `torpGetVectorSpeed`: the speeds of the ship and the torp add up as vectors. -/
def torpGetVectorSpeed (c : Setup) (pdir : UInt8) (pspeed : Int) (tdir : UInt8) (tspeed : Int) : Int :=
  let ntx := c.cos pdir * (pspeed * warp1 : Int) + c.cos tdir * (tspeed * warp1 : Int)
  let nty := c.sin pdir * (pspeed * warp1 : Int) + c.sin tdir * (tspeed * warp1 : Int)
  min (nearbySqrt (ntx * ntx + nty * nty)) (20 * warp1)

/-! ## Refusals -/

def conquest (s : Server) : Bool := s.mem.status.gameup.has guConquer

/-- The teacher keeps some or all weapons locked. -/
def teacherRefusal (c : Setup) (p : Player) (none : String) : Option String :=
  if c.teacherTorpsNone then some none
  else if c.teacherTorpsSome ∧ p.flags.has pfGreen then
    some "Green alert. Teacher says there's nothing here to shoot at! Fly forward."
  else if c.teacherTorpsSome ∧ p.kills < 1 then
    some "No kills. Teacher says you should learn phasers first! Middle button."
  else .none

/-- Why a torp is not fired, once the launch tubes are fit for it. -/
def torpRefusal (c : Setup) (p : Player) (course : UInt8) : Option String :=
  let delta : Int := |(p.dir.toNat : Int) - course.toNat|
  if p.ntorp = maxTorp then some "Our computers limit us to having 8 live torpedos at a time captain!"
  else if p.fuel < getAdjTorpCost c p course .fuel then some "We don't have enough fuel to fire photon torpedos!"
  else if p.flags.has pfRepair then some "We cannot fire while our vessel is in repair mode."
  else if p.cloakphase ≠ 0 ∧ p.ship.type ≠ .att then some "We are unable to fire while in cloak, captain!"
  else if c.topgun ≠ 0 ∧ p.ship.type ≠ .starbase ∧ c.topgun < delta ∧ delta < 256 - c.topgun then
    some "We only have forward mounted cannons."
  else if p.flags.has pfEng ∧ 0 < getAdjTorpCost c p course .etemp ∧ 1 < c.asstorpEtempMult ∧
      (p.ship.type ≠ .starbase ∨ c.asstorpBase) then
    some "Engines have overheated rear torpedos tubes."
  else teacherRefusal c p (if c.teacherPhasersNone then "Teacher has locked out the torpedo controls!"
    else "Teacher has locked out the torpedo controls!  Use phasers.  Middle button.")

/-- The first free slot of `n` slots from `k` on, or the slot behind them. -/
def searchFree (s : Server) (k : Nat) : Nat → Nat
  | 0 => k
  | n + 1 => if (s.torp k).status = .tfree then k else searchFree s (k + 1) n

/-! ## Torps -/

/-- A fresh torp of the player, before its own numbers are set. -/
def newTorp (me : Slot) (p : Player) (type : TType) (attributes : Word) (dir : UInt8) (turns damage gspeed fuse : Int) : Torp :=
  { status := .tmove, type := type, attributes := attributes, owner := me, x := p.x, y := p.y, xInternal := spi p.x,
    yInternal := spi p.y, turns := turns, damage := damage, gspeed := gspeed, fuse := fuse, dir := dir, war := p.war,
    team := p.team, whodet := none }

/-- The speed at which a torp of speed `tspeed` leaves the ship. -/
def launchSpeed (c : Setup) (p : Player) (attributes : Word) (course : UInt8) (tspeed : Int) : Int :=
  if attributes.has tVector then torpGetVectorSpeed c p.dir p.speed course tspeed else tspeed * warp1

/-- The end of `ntorp`: the torp is put into the slot that the search has found. -/
def fireTorp (s : Server) (me : Slot) (course : UInt8) (attributes : Word) : Server :=
  let p := s.player me
  let k := searchFree s (firstTorpOf me) maxTorp
  let s := { s with lastTorpFired := Function.update s.lastTorpFired me p.updates }
  let s := s.modifyPlayer me fun p =>
    { p with
      ntorp := p.ntorp + 1
      fuel := p.fuel - getAdjTorpCost s.setup p course .fuel
      wtemp := p.wtemp + getAdjTorpCost s.setup p course .wtemp
      etemp := p.etemp + getAdjTorpCost s.setup p course .etemp }
  let (r, s) := s.draw
  let s := s.modifyTorp k fun _ => newTorp me p .photon attributes course p.ship.torpTurns p.ship.torpDamage
    (launchSpeed s.setup p attributes course p.ship.torpSpeed) ((p.ship.torpFuse + (r % 20 : Nat)) * s.setup.tpf)
  (s.record (.launched k)).record (.torpFired .photon me)

/-- `ntorp`. -/
def ntorp (s : Server) (me : Slot) (course : UInt8) (attributes : Word) : Server :=
  let p := s.player me
  if conquest s then s
  else if p.updates = s.lastTorpFired me then s
  else
    let hot := p.flags.has pfWep
    let s := if hot then s.warn me "Torpedo launch tubes have exceeded maximum safe temperature!" else s
    if hot && !s.setup.chaosmode then s
    else match torpRefusal s.setup p course with
      | some text => s.warn me text
      | none => fireTorp s me course attributes

/-! ## Plasma torps -/

/-- Why a plasma torp is not fired, before the launch tube is looked at. -/
def plasmaUnarmed (c : Setup) (p : Player) : Option String :=
  if !c.plasmaAllowed then some "Plasmas haven't been invented yet."
  else if p.ship.plasmaCost < 0 then
    some "Weapon's Officer:  Captain, this ship is not armed with plasma torpedoes!"
  else none

/-- Why a plasma torp is not fired, once the launch tube is fit for it. -/
def plasmaRefusal (p : Player) : Option String :=
  if p.nplasmatorp = maxPlasma ∧ p.ship.type ≠ .att then
    some "Our fire control system limits us to 1 live torpedo at a time captain!"
  else if p.fuel < p.ship.plasmaCost then some "We don't have enough fuel to fire a plasma torpedo!"
  else if p.flags.has pfRepair then some "We cannot fire while our vessel is undergoing repairs."
  else if p.cloakphase ≠ 0 ∧ p.ship.type ≠ .att then some "We are unable to fire while in cloak, captain!"
  else none

/-- The end of `nplasmatorp`, with a free slot. -/
def firePlasma (s : Server) (me : Slot) (k : Nat) (course : UInt8) (attributes : Word) : Server :=
  let p := s.player me
  let s := s.modifyPlayer me fun p =>
    { p with
      nplasmatorp := p.nplasmatorp + 1
      fuel := p.fuel - p.ship.plasmaCost
      wtemp := p.wtemp + (p.ship.plasmaCost.tdiv 10 - 8) }
  let dir := if p.ship.type = .starbase ∨ p.ship.type = .att then course else p.dir
  let s := s.modifyTorp k fun _ => newTorp me p .plasma attributes dir p.ship.plasmaTurns p.ship.plasmaDamage
    (launchSpeed s.setup p attributes course p.ship.plasmaSpeed) (p.ship.plasmaFuse * s.setup.tpf)
  (s.record (.launched k)).record (.torpFired .plasma me)

/-- `nplasmatorp`. -/
def nplasmatorp (s : Server) (me : Slot) (course : UInt8) (attributes : Word) : Server :=
  let p := s.player me
  match plasmaUnarmed s.setup p with
  | some text => s.warn me text
  | none =>
    let hot := p.flags.has pfWep
    let s := if hot then s.warn me "Plasma torpedo launch tube has exceeded the maximum safe temperature!" else s
    if hot && !s.setup.chaosmode then s
    else match plasmaRefusal p with
      | some text => s.warn me text
      | none =>
        let k := searchFree s (firstPlasmaOf me) maxPlasma
        if firstPlasmaOf me + maxPlasma ≤ k then s.warn me "We are out of plasma, for the moment, Captain!"
        else match teacherRefusal s.setup p "Teacher has locked out the plasma controls!" with
          | some text => s.warn me text
          | none => firePlasma s me k course attributes

end Netrek.Weapons
