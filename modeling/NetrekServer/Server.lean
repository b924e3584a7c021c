/-
The server as the daemon and the processes of the players change it: shared memory, the
configuration, the outcomes of `random()` still to come, and a log of what happened, newest first.
The log holds the calls of the statistics and the numbered arguments of broadcasts; text is left out.
-/
import Mathlib.Data.Nat.Sqrt
import Mathlib.Data.PNat.Basic
import Mathlib.Data.Rat.Floor
import NetrekServer.Lib.Binary
import NetrekServer.Struct

namespace Netrek

/-! ## Arithmetic of the source -/

/-- A double as an `int`. -/
def truncate (q : ℚ) : Int := q.num.tdiv q.den

/-- What a `float` and a `double` keep of a number. -/
def toFloat (q : ℚ) : ℚ := Lib.single.round q
def toDouble (q : ℚ) : ℚ := Lib.double.round q

/-- `x += d` of a `float`, by a `double`. -/
def addFloat (x d : ℚ) : ℚ := toFloat (toDouble (x + d))

/-- `1.0 + p_armies * 0.1 + p_kills * 0.1`: the kills that a player is worth. -/
def Player.worth (p : Player) : ℚ :=
  let tenth := toDouble (1 / 10)
  toDouble (toDouble (1 + toDouble (p.armies * tenth)) + toDouble (p.kills * tenth))

/-- `(int) (p_kills * 100)`. -/
def Player.hundredths (p : Player) : Int := truncate (toFloat (p.kills * 100))

/-- The least integer whose square is at least `n`. -/
def ceilSqrt (n : Nat) : Nat := if n.sqrt * n.sqrt = n then n.sqrt else n.sqrt + 1

/-- `nearbyint(sqrt(q))`. -/
def nearbySqrt (q : ℚ) : Int :=
  let r := q.floor.toNat.sqrt
  if ((r : ℚ) + 1 / 2) ^ 2 < q then r + 1 else r

/-! ## Configuration -/

/-- Options of the configuration and the tables of the geometry. -/
structure Setup where
  /-- `TPF`: ticks to a frame, by which the fuses of torps are scaled. -/
  tpf : ℕ+
  safeIdle : Bool
  wrapGalaxy : Bool
  pingpongPlasma : Bool
  chaosmode : Bool
  dogfight : Bool
  inlMode : Bool
  plasmaAllowed : Bool
  topgun : Int
  asstorpBase : Bool
  asstorpFuelMult : ℚ
  asstorpEtempMult : ℚ
  asstorpWtempMult : ℚ
  teacherTorpsNone : Bool
  teacherTorpsSome : Bool
  teacherPhasersNone : Bool
  tournplayers : Nat
  plkills : Int
  /-- `TWO_RACE`, a switch of the build. -/
  twoRace : Bool
  shipvals : ShipType → Ship
  cos : UInt8 → ℚ
  sin : UInt8 → ℚ
  /-- `to_dir` of an offset. -/
  toDir : Int → Int → UInt8
  deriving Inhabited

/-- `VICTORY`: home systems needed to conquer the galaxy. -/
def Setup.victory (c : Setup) : Nat := if c.twoRace then 2 else 3

/-! ## Log -/

inductive Event
  /-- A slot of the torp table became a moving torp. -/
  | launched (k : Nat)
  /-- `t_explosion` on a slot. -/
  | exploded (k : Nat)
  /-- A ship is damaged, by the torp of a slot if by a torp. -/
  | hurt (k : Option Nat) (j : Slot)
  /-- `ltd_update_deaths`; no credit for a planet. -/
  | death (victim : Slot) (credit : Option Slot)
  /-- `ltd_update_kills`. -/
  | kill (credit actual victim : Slot)
  | killsMax (credit : Slot)
  | torpFired (type : TType) (owner : Slot)
  | torpDamage (type : TType) (owner victim : Slot) (damage : Int)
  | torpWall (type : TType) (owner : Slot)
  | torpHit (type : TType) (owner : Slot)
  | torpDetted (owner : Slot)
  | torpSelfdetted (owner : Slot)
  | phaserFired (owner : Slot)
  | phaserHit (owner : Slot)
  | phaserDamage (owner victim : Slot) (damage : Int)
  | plasmaPhasered (owner : Slot)
  | bomb (j : Slot) (l : Fin maxPlanets) (ab : Int)
  /-- A warning to the player. -/
  | warned (j : Slot) (text : String)
  /-- A broadcast with numbered arguments. -/
  | posted (group : Word) (arg : List Int)
  deriving DecidableEq

/-! ## Server -/

/-- `conquer_type`. -/
inductive ConquerType
  | endOfGame
  | special
  | pret
  deriving DecidableEq, Inhabited

/-- The variables of `conquer.c`. -/
structure Conquer where
  player : Option Slot
  planet : Fin maxPlanets
  timer : Int
  type : ConquerType
  deriving Inhabited

structure Server where
  setup : Setup
  mem : Memory
  random : Nat → Nat
  log : List Event
  /-- For each planet, how long the next warning of an attack has to wait. -/
  plWarning : Fin maxPlanets → Int
  /-- In the process of each player, the update in which a torp was last fired. -/
  lastTorpFired : Slot → Int
  conquer : Conquer
  deriving Inhabited

namespace Server

def player (s : Server) (j : Slot) : Player := s.mem.players j

def torp (s : Server) (k : Nat) : Torp := s.mem.torps k

def planet (s : Server) (l : Fin maxPlanets) : Planet := s.mem.planets l

def modifyPlayer (s : Server) (j : Slot) (f : Player → Player) : Server := { s with mem := s.mem.modifyPlayer j f }

def modifyTorp (s : Server) (k : Nat) (f : Torp → Torp) : Server := { s with mem := s.mem.modifyTorp k f }

def modifyPlanet (s : Server) (l : Fin maxPlanets) (f : Planet → Planet) : Server :=
  { s with mem := s.mem.modifyPlanet l f }

def modifyPhaser (s : Server) (i : Slot) (f : Phaser → Phaser) : Server := { s with mem := s.mem.modifyPhaser i f }

def modifyStatus (s : Server) (f : Status → Status) : Server := { s with mem := { s.mem with status := f s.mem.status } }

def warn (s : Server) (j : Slot) (text : String) : Server := { s with log := .warned j text :: s.log }

def record (s : Server) (e : Event) : Server := { s with log := e :: s.log }

/-- One outcome of `random()`. -/
def draw (s : Server) : Nat × Server := (s.random 0, { s with random := fun n => s.random (n + 1) })

@[simp] theorem player_modifyPlayer (s : Server) (j i : Slot) (f : Player → Player) :
    (s.modifyPlayer j f).player i = if i = j then f (s.player j) else s.player i := by
  unfold modifyPlayer player Memory.modifyPlayer
  simp only [Function.update_apply]

@[simp] theorem torp_modifyTorp (s : Server) (k i : Nat) (f : Torp → Torp) :
    (s.modifyTorp k f).torp i = if i = k then f (s.torp k) else s.torp i := by
  unfold modifyTorp torp Memory.modifyTorp
  simp only [Function.update_apply]

@[simp] theorem planet_modifyPlanet (s : Server) (l i : Fin maxPlanets) (f : Planet → Planet) :
    (s.modifyPlanet l f).planet i = if i = l then f (s.planet l) else s.planet i := by
  unfold modifyPlanet planet Memory.modifyPlanet
  simp only [Function.update_apply]

@[simp] theorem player_record (s : Server) (e : Event) (i : Slot) : (s.record e).player i = s.player i := rfl
@[simp] theorem player_modifyTorp (s : Server) (k : Nat) (f : Torp → Torp) (i : Slot) :
    (s.modifyTorp k f).player i = s.player i := rfl
@[simp] theorem player_modifyPlanet (s : Server) (l : Fin maxPlanets) (f : Planet → Planet) (i : Slot) :
    (s.modifyPlanet l f).player i = s.player i := rfl
@[simp] theorem player_modifyPhaser (s : Server) (j : Slot) (f : Phaser → Phaser) (i : Slot) :
    (s.modifyPhaser j f).player i = s.player i := rfl
@[simp] theorem player_modifyStatus (s : Server) (f : Status → Status) (i : Slot) :
    (s.modifyStatus f).player i = s.player i := rfl

@[simp] theorem torp_record (s : Server) (e : Event) (k : Nat) : (s.record e).torp k = s.torp k := rfl
@[simp] theorem torp_modifyPlayer (s : Server) (j : Slot) (f : Player → Player) (k : Nat) :
    (s.modifyPlayer j f).torp k = s.torp k := rfl
@[simp] theorem torp_modifyStatus (s : Server) (f : Status → Status) (k : Nat) :
    (s.modifyStatus f).torp k = s.torp k := rfl

@[simp] theorem planet_record (s : Server) (e : Event) (l : Fin maxPlanets) : (s.record e).planet l = s.planet l := rfl
@[simp] theorem planet_modifyPlayer (s : Server) (j : Slot) (f : Player → Player) (l : Fin maxPlanets) :
    (s.modifyPlayer j f).planet l = s.planet l := rfl
@[simp] theorem planet_modifyStatus (s : Server) (f : Status → Status) (l : Fin maxPlanets) :
    (s.modifyStatus f).planet l = s.planet l := rfl

@[simp] theorem log_record (s : Server) (e : Event) : (s.record e).log = e :: s.log := rfl
@[simp] theorem log_modifyPlayer (s : Server) (j : Slot) (f : Player → Player) : (s.modifyPlayer j f).log = s.log := rfl
@[simp] theorem log_modifyTorp (s : Server) (k : Nat) (f : Torp → Torp) : (s.modifyTorp k f).log = s.log := rfl
@[simp] theorem setup_modifyTorp (s : Server) (k : Nat) (f : Torp → Torp) : (s.modifyTorp k f).setup = s.setup := rfl

/-- `is_idle`. -/
def isIdle (s : Server) (victim : Slot) : Bool :=
  let p := s.player victim
  p.inlDraft != .off ||
    (s.setup.safeIdle && !s.mem.status.tourn && (p.flags.has pfCloak && p.flags.has pfOrbit &&
      (s.planet p.planet).flags.has plHome) && p.kills == 0 && p.ntorp == 0 && p.nplasmatorp == 0 &&
      p.fuel == p.ship.maxFuel && p.shield == p.ship.maxShield && p.damage == 0)

end Server

end Netrek
