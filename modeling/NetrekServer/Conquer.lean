/-
`ntserv/conquer.c`: the parade after a conquest. It takes the plasma slots for a ring of plasma, and
at the end of a game it blows up the ships.
-/
import NetrekServer.Daemon.Torps

namespace Netrek.Parade

open Daemon

/-! ## The timer -/

def timerBegin : Int := 100
def timerDecloak : Int := 90
def timerParade : Int := 40
def ringRadius : Int := 5
def ringMoveSteps : Int := 10

/-! ## Plasma -/

/-- `conquer_deplasma`. -/
def deplasma (s : Server) : Server :=
  (List.range (maxPlasma * maxPlayer)).foldl (fun s i => s.modifyTorp (firstPlasma + i) fun t => { t with status := .tfree }) s

/-- The plasma slots of the ring: every other one. -/
def ringSlots : List Nat := (List.range (maxPlasma * maxPlayer / 2)).map fun pn => firstPlasma + 2 * pn

/-- A point on a circle around a planet, a quarter turn behind `dir`. -/
def onCircle (c : Setup) (l : Planet) (radius : Int) (dir : UInt8) : Int × Int :=
  (truncate (l.x + radius * c.cos (dir - 64)), truncate (l.y + radius * c.sin (dir - 64)))

/-- `conquer_plasma_ring` at the slot number `pn` of the ring. -/
def ringPlasma (player : Slot) (s : Server) (pn : Nat) : Server :=
  let shrink := (timerBegin - s.conquer.timer) * ringRadius * orbDist / timerBegin
  let radius := if s.conquer.type = .endOfGame then 2 * ringRadius * orbDist - shrink else shrink
  let dir : UInt8 := UInt8.ofInt (pn * 256 / (ringSlots.length : Int) + s.conquer.timer)
  let (x, y) := onCircle s.setup (s.planet s.conquer.planet) radius dir
  let p := s.player player
  s.modifyTorp (firstPlasma + 2 * pn) fun _ =>
    { status := .tmove, type := .plasma, attributes := 0, owner := player, x := x, y := y, xInternal := spi x,
      yInternal := spi y, turns := 1, damage := 1, gspeed := 1, fuse := 1, dir := dir, war := p.war, team := p.team,
      whodet := none }

/-- `conquer_plasma_ring`. -/
def plasmaRing (s : Server) : Server :=
  match s.conquer.player with
  | none => s
  | some player => (List.range (maxPlasma * maxPlayer / 2)).foldl (ringPlasma player) s

/-- `conquer_plasma_explode`. -/
def plasmaExplode (s : Server) : Server :=
  ringSlots.foldl (fun s k => s.modifyTorp k fun t => { t with status := .texplode, fuse := 10 * s.setup.tpf }) s

/-! ## Ships -/

/-- `conquer_decloak`. -/
def decloak (s : Server) : Server :=
  (List.finRange maxPlayer).foldl (fun s j =>
    if (s.player j).status = .pfree ∨ s.isIdle j then s
    else s.modifyPlayer j fun p =>
      let p := (p.clearFlags pfCloak).setFlags pfSeen
      if s.conquer.type ≠ .endOfGame then p.clearFlags (pfRepair ||| pfBomb ||| pfOrbit ||| pfBeamUp ||| pfBeamDown) else p) s

/-- The ships of the parade. -/
def paraded (s : Server) : List Slot :=
  (List.finRange maxPlayer).filter fun j => (s.player j).status != .pfree && s.conquer.player != some j

/-- The place in the ring of the ship that comes as number `h` of `n`. -/
def ringDir (h n : Nat) : UInt8 := UInt8.ofNat (h * 256 / (n + 1))

/-- A ship moves towards its place in the ring. -/
def ringShip (n : Nat) (s : Server) (hj : Nat × Slot) : Server :=
  let dir := ringDir hj.1 n
  let (x, y) := onCircle s.setup (s.planet s.conquer.planet) (orbDist * ringRadius) dir
  s.modifyPlayer hj.2 fun p =>
    let p := { p with dir := dir }
    let dx := p.x - x
    let dy := p.y - y
    if |dx| + |dy| < 100 then p.go x y else p.go (p.x - dx.tdiv ringMoveSteps) (p.y - dy.tdiv ringMoveSteps)

/-- `conquer_ships_ring`. -/
def shipsRing (s : Server) : Server :=
  let s := decloak s
  let n := (paraded s).length
  ((List.range n).zip (paraded s)).foldl (ringShip n) s

/-- `conquer_parade` puts a ship in its place. -/
def placeShip (n : Nat) (s : Server) (hj : Nat × Slot) : Server :=
  let dir := ringDir hj.1 n
  let (x, y) := onCircle s.setup (s.planet s.conquer.planet) (orbDist * ringRadius) dir
  s.modifyPlayer hj.2 fun p => { (p.go x y) with dir := dir, speed := 0 }

/-- `conquer_parade`. -/
def parade (s : Server) : Server :=
  let n := (paraded s).length
  let ships := (paraded s).filter fun j => !s.isIdle j
  ((List.range ships.length).zip ships).foldl (placeShip n) s

/-- The ships that blow up at the end: robots and admin observers do not. -/
def blowsUp (p : Player) : Bool :=
  p.status != .pfree && !p.flags.has pfRobot && !(p.authorised && p.flags.has pfObserv)

/-- `conquer_ships_explode` at one ship. -/
def shipExplode (s : Server) (j : Slot) : Server :=
  if blowsUp (s.player j) then
    s.modifyPlayer j fun p =>
      { p with
        status := .pexplode
        whydead := .kwinner
        whodead := match s.conquer.player with | some k => k.val | none => maxPlayer
        explode := if p.ship.type = .starbase then 2 * sbExpViews else 10
        ntorp := 0
        nplasmatorp := 0 }
  else s

/-- `conquer_ships_explode`. -/
def shipsExplode (s : Server) : Server := (List.finRange maxPlayer).foldl shipExplode s

/-- `conquer_go_home`, to the places picked for the ships. -/
def goHome (home : Slot → Int × Int) (s : Server) : Server :=
  (List.finRange maxPlayer).foldl (fun s j =>
    if (s.player j).status = .pfree then s else s.modifyPlayer j fun p => p.go (home j).1 (home j).2) s

/-! ## The parade -/

/-- The end of the parade; `galaxy` is what `pl_reset` makes of the planets. -/
def finish (galaxy : Fin maxPlanets → Planet) (home : Slot → Int × Int) (s : Server) : Server :=
  let s := s.modifyStatus fun t => { t with gameup := t.gameup &&& ~~~(guPaused ||| guConquer) }
  match s.conquer.type with
  | .endOfGame =>
    let s := shipsExplode (plasmaExplode s)
    { s with mem := { s.mem with planets := galaxy } }
  | .special => goHome home s
  | .pret => goHome home (plasmaExplode s)

def tick (s : Server) : Server := { s with conquer := { s.conquer with timer := s.conquer.timer - 1 } }

/-- The parade begins: cloaks are dropped and the plasma slots are taken. -/
def begin (s : Server) : Server :=
  if s.conquer.timer = timerDecloak then
    if s.conquer.type ≠ .special then deplasma (decloak s) else decloak s
  else s

/-- The rings. -/
def rings (s : Server) : Server :=
  if s.conquer.timer < timerDecloak then
    shipsRing (if s.conquer.type ≠ .special then plasmaRing s else s)
  else s

/-- `conquer_update`. -/
def conquerUpdate (galaxy : Fin maxPlanets → Planet) (home : Slot → Int × Int) (s : Server) : Server :=
  let s := rings (begin (tick s))
  let s := if s.conquer.timer = timerParade then parade s else s
  if 0 < s.conquer.timer then s else finish galaxy home s

end Netrek.Parade
