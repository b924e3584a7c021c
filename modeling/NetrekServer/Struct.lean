/-
`include/struct.h`: the records of shared memory. Slot numbers are `Fin maxPlayer`, so that what
the source stores as a valid slot number is one; a vacant bay or an absent slot is `none`.
-/
import Mathlib.Data.List.FinRange
import Mathlib.Data.Rat.Defs
import Mathlib.Logic.Function.Basic
import NetrekServer.Defs

namespace Netrek

/-! ## Ships and players -/

abbrev Slot := Fin maxPlayer

inductive ShipType
  | scout
  | destroyer
  | cruiser
  | battleship
  | assault
  | starbase
  | sgalaxy
  | att
  deriving DecidableEq, Inhabited

/-- `struct ship`, the fields the model reads. -/
structure Ship where
  type : ShipType
  torpDamage : Int
  phaserDamage : Int
  phaserFuse : Int
  plasmaDamage : Int
  torpSpeed : Int
  torpFuse : Int
  torpTurns : Int
  plasmaSpeed : Int
  plasmaFuse : Int
  plasmaTurns : Int
  maxSpeed : Int
  maxFuel : Int
  torpCost : Int
  plasmaCost : Int
  phaserCost : Int
  detCost : Int
  maxShield : Int
  maxDamage : Int
  maxArmies : Int
  tractRng : ℚ
  deriving DecidableEq, Inhabited

/-- `p_status`. -/
inductive PStatus
  | pfree
  | poutfit
  | palive
  | pexplode
  | pdead
  | pobserv
  deriving DecidableEq, Inhabited

/-- `p_inl_draft`. -/
inductive InlDraft
  | off
  | movingToPool
  | captainUp
  | captainDown
  | pooled
  | movingToPick
  | picked
  | pickedSelector
  | movingToHome
  | finished
  deriving DecidableEq, Inhabited

/-- `p_whydead`. -/
inductive WhyDead
  | klogin
  | kquit
  | ktorp
  | kphaser
  | kplanet
  | kship
  | kdaemon
  | kwinner
  | kghost
  | kgenocide
  | kprovidence
  | kplasma
  | tournend
  | kover
  | tournstart
  | kbadbin
  | ktorp2
  | kship2
  | kplasma2
  deriving DecidableEq, Inhabited

/-- `struct player`, the fields the model reads; the slot number is the index in the table. -/
structure Player where
  status : PStatus
  flags : Word
  updates : Int
  name : String
  mapchars : String
  ship : Ship
  x : Int
  y : Int
  xInternal : Int
  yInternal : Int
  dir : UInt8
  speed : Int
  team : Word
  shield : Int
  subshield : Int
  damage : Int
  subdamage : Int
  fuel : Int
  etemp : Int
  wtemp : Int
  cloakphase : Int
  /-- The torps and the plasma torps in flight. -/
  ntorp : Int
  nplasmatorp : Int
  kills : ℚ
  armies : Int
  explode : Int
  whydead : WhyDead
  /-- The slot of the killer, or the number of the planet that killed. -/
  whodead : Nat
  genoplanets : Int
  genoarmsbomb : Int
  planets : Int
  armsbomb : Int
  authorised : Bool
  hostile : Word
  swar : Word
  war : Word
  planet : Fin maxPlanets
  playerl : Slot
  /-- The starbase this ship is docked with and the bay, if `pfDock` is set. -/
  dockWith : Slot
  dockBay : Fin numBays
  /-- The ship in each bay of a starbase. -/
  bays : Fin numBays → Option Slot
  tractor : Slot
  wQueue : Nat
  ups : Nat
  fpu : Nat
  canDock : Bool
  inlCaptain : Bool
  inlDraft : InlDraft
  inlPick : Int
  rank : Int
  subIn : Bool
  subInFor : Option Slot
  subOut : Bool
  subOutFor : Option Slot
  ident : String
  verifyClue : Bool
  avrt : Int
  stdv : Int
  pklsCs : ℚ
  pklsSc : ℚ
  /-- `ST_CYBORG` of the player's statistics. -/
  cyborg : Bool
  deriving Inhabited

namespace Player

def setFlags (p : Player) (w : Word) : Player := { p with flags := p.flags ||| w }

def clearFlags (p : Player) (w : Word) : Player := { p with flags := p.flags &&& ~~~w }

end Player

/-! ## Names -/

def teamlet (team : Word) : Char := ['I', 'F', 'R', 'X', 'K', 'X', 'X', 'X', 'O'].getD team.toNat ' '

def teamshort (team : Nat) : String := ["IND", "FED", "ROM", "X", "KLI", "X", "X", "X", "ORI"].getD team ""

def shipno (i : Slot) : Char := "0123456789abcdefghijklmnopqrstuvwxyz".toList.getD i.val ' '

def letters (team : Word) (i : Slot) : String := String.ofList [teamlet team, shipno i]

/-! ## Changes of a player -/

namespace Player

/-- `p_heal`. -/
def heal (p : Player) : Player :=
  { p with shield := p.ship.maxShield, subshield := 0, damage := 0, subdamage := 0, fuel := p.ship.maxFuel,
           etemp := 0, wtemp := 0 }

/-- `p_x_y_go`. -/
def go (p : Player) (x y : Int) : Player := { p with x := x, y := y, xInternal := spi x, yInternal := spi y }

/-- The end of `change_team_quietly`: the player in the slot `k` joins the team `ours`. -/
def joinTeam (p : Player) (k : Slot) (ours theirs : Word) : Player :=
  let hostile := (p.hostile ||| theirs) &&& ~~~ours
  let swar := (p.swar ||| theirs) &&& ~~~ours
  { p with hostile := hostile, swar := swar, war := hostile ||| swar, team := ours, mapchars := letters ours k }

end Player

/-! ## Planets -/

/-- `struct planet`, the fields the model reads. -/
structure Planet where
  flags : Word
  x : Int
  y : Int
  owner : Word
  name : String
  armies : Int
  info : Word
  deriving DecidableEq, Inhabited

def plRepair : Word := 0x010
def plFuel : Word := 0x020
def plAgri : Word := 0x040
/-- Player close for redraw. -/
def plRedraw : Word := 0x080
def plHome : Word := 0x100
/-- Coup has occurred. -/
def plCoup : Word := 0x200
/-- Planet was taken from an undefended team. -/
def plCheap : Word := 0x400
def plCore : Word := 0x800
def plFlagMask : Word := plRepair ||| plFuel ||| plAgri ||| plHome ||| plCoup ||| plCore

/-! ## Torps and phasers -/

/-- `t_status`. -/
inductive TStatus
  | tfree
  | tmove
  | texplode
  | tdet
  | toff
  deriving DecidableEq, Inhabited

/-- `t_type`. -/
inductive TType
  | photon
  | plasma
  deriving DecidableEq, Inhabited

def tWobble : Word := 0x001
def tVector : Word := 0x002
def tOwnerSafe : Word := 0x004
def tOwnTeamSafe : Word := 0x008
def tDetterSafe : Word := 0x010
def tDetTeamSafe : Word := 0x020
def tPractice : Word := 0x040

/-- `struct torp`. -/
structure Torp where
  status : TStatus
  type : TType
  attributes : Word
  owner : Slot
  x : Int
  y : Int
  xInternal : Int
  yInternal : Int
  turns : Int
  damage : Int
  gspeed : Int
  fuse : Int
  dir : UInt8
  war : Word
  team : Word
  /-- Who detonated it, if anyone. -/
  whodet : Option Slot
  deriving DecidableEq, Inhabited

/-- `ph_status`. -/
inductive PhStatus
  | phfree
  | phhit
  | phmiss
  | phhit2
  deriving DecidableEq, Inhabited

/-- `struct phaser`. -/
structure Phaser where
  status : PhStatus
  dir : UInt8
  target : Slot
  x : Int
  y : Int
  fuse : Int
  damage : Int
  deriving DecidableEq, Inhabited

/-! ## Shared memory -/

def guPractice : Word := 0x2
def guChaos : Word := 0x4
def guPaused : Word := 0x8
/-- The robot of a league game is present. -/
def guInRobot : Word := 0x10
def guPret : Word := 0x40
def guConquer : Word := 0x100
def guInlDrafting : Word := 0x800
def guInlDrafted : Word := 0x1000

/-- `struct status`, the fields the model reads. -/
structure Status where
  tourn : Bool
  armsbomb : Nat
  kills : Nat
  losses : Nat
  gameup : Word
  deriving DecidableEq, Inhabited

/-- Shared memory. `torps` holds the torps of each slot in turn, then the plasma torps. -/
structure Memory where
  players : Slot → Player
  planets : Fin maxPlanets → Planet
  torps : Nat → Torp
  phasers : Slot → Phaser
  status : Status
  deriving Inhabited

namespace Memory

def modifyPlayer (m : Memory) (i : Slot) (f : Player → Player) : Memory :=
  { m with players := Function.update m.players i (f (m.players i)) }

theorem players_modifyPlayer (m : Memory) (j i : Slot) (f : Player → Player) :
    (m.modifyPlayer j f).players i = if i = j then f (m.players j) else m.players i := by
  show Function.update m.players j _ i = _
  rw [Function.update_apply]

def modifyPlanet (m : Memory) (i : Fin maxPlanets) (f : Planet → Planet) : Memory :=
  { m with planets := Function.update m.planets i (f (m.planets i)) }

def modifyTorp (m : Memory) (k : Nat) (f : Torp → Torp) : Memory :=
  { m with torps := Function.update m.torps k (f (m.torps k)) }

def modifyPhaser (m : Memory) (i : Slot) (f : Phaser → Phaser) : Memory :=
  { m with phasers := Function.update m.phasers i (f (m.phasers i)) }

end Memory

/-- `realNumShips`. -/
def realNumShips (m : Memory) (owner : Word) : Nat :=
  (List.finRange maxPlayer).countP fun i =>
    (m.players i).status != .pfree && !(m.players i).flags.has pfObserv && !(m.players i).flags.has pfRobot &&
      (m.players i).team == owner

end Netrek
