/-
`getEntry` of `ntserv/getentry.c` and `do_refit` of `ntserv/interface.c`, by which a player is given a
ship, and the loop of `main` around them: a request is accepted, the ship is installed, the player is
alive. The statistics that give a player's offense are taken as they come out.
-/
import Mathlib.Data.List.FinRange
import NetrekServer.Dock.Bay
import NetrekServer.Enter
import NetrekServer.Queue.Basic

namespace Netrek.Outfit

open Netrek.Queue (quGodObs)

/-! ## Options -/

/-- What a ship may demand of its commander, and the ships there are. -/
structure Options where
  shipsallowed : ShipType → Bool
  ddrank : Int
  garank : Int
  sbrank : Int
  asMinimalOffense : ℚ
  bbMinimalOffense : ℚ
  ddMinimalOffense : ℚ
  scMinimalOffense : ℚ
  sbMinimalOffense : ℚ
  sbplanets : Nat
  maxChaosBases : Nat
  lameRefit : Bool
  lameBaseRefit : Bool

/-- The ship types by their numbers. -/
def shipTypes : List ShipType := [.scout, .destroyer, .cruiser, .battleship, .assault, .starbase, .sgalaxy, .att]

/-- `is_only_one_ship_type_allowed`: the choice, replaced if there is none. -/
def onlyShipType (o : Options) (type : ShipType) : ShipType :=
  match shipTypes.filter o.shipsallowed with
  | [seen] => seen
  | _ => type

/-! ## The state between the steps of `main` -/

/-- Where the process of a player is. -/
inductive Stage
  | away
  /-- In `getEntry`; the team of the last pick that has to be confirmed, or -1. -/
  | outfit (switching : Int)
  /-- `getEntry` has returned this team and this ship. -/
  | accepted (tno : Nat) (sType : ShipType)
  /-- `enter` has returned. -/
  | installed
  | playing
  deriving DecidableEq, Inhabited

/-- The server with `te_turns` of each team, and the processes. -/
structure Yard where
  server : Server
  teTurns : Word → Int
  stage : Slot → Stage
  /-- The process was started for an independent. -/
  indie : Slot → Bool
  deriving Inhabited

namespace Yard

def player (y : Yard) (i : Slot) : Player := y.server.player i

/-- A bit of `gameup`. -/
def mode (y : Yard) (m : Word) : Bool := y.server.mem.status.gameup.has m

def setStage (y : Yard) (i : Slot) (stage : Stage) : Yard := { y with stage := Function.update y.stage i stage }

def modifyPlayer (y : Yard) (i : Slot) (f : Player → Player) : Yard := { y with server := y.server.modifyPlayer i f }

@[simp] theorem player_setStage (y : Yard) (i j : Slot) (stage : Stage) : (y.setStage i stage).player j = y.player j :=
  rfl
@[simp] theorem player_modifyPlayer (y : Yard) (i j : Slot) (f : Player → Player) :
    (y.modifyPlayer i f).player j = if j = i then f (y.player i) else y.player j :=
  Server.player_modifyPlayer _ _ _ _
@[simp] theorem stage_setStage (y : Yard) (i j : Slot) (stage : Stage) :
    (y.setStage i stage).stage j = if j = i then stage else y.stage j := by
  unfold setStage
  simp only [Function.update_apply]
@[simp] theorem stage_modifyPlayer (y : Yard) (i : Slot) (f : Player → Player) : (y.modifyPlayer i f).stage = y.stage :=
  rfl

end Yard

/-- `numPlanets`. -/
def numPlanets (y : Yard) (owner : Word) : Nat :=
  (List.finRange maxPlanets).countP fun l => (y.server.planet l).owner == owner

/-- A ship in play that is a starbase of the team. -/
def isBase (p : Player) (team : Word) : Bool := p.status == .palive && p.team == team && p.ship.type == .starbase

/-- The other players in play that have a starbase of the team. -/
def otherBases (y : Yard) (me : Slot) (team : Word) : Nat :=
  (List.finRange maxPlayer).countP fun i => i != me && isBase (y.player i) team

/-! ## Refusals -/

/-- The warning that refuses a ship. -/
inductive Refusal
  | warning (text : String)
  | needRank (rank : Int) (ship : String)
  | needOffense (offense : ℚ) (ship : String)
  | notConstructed (turns : Int)
  | hasStarbases (most : Nat)
  deriving DecidableEq

/-- Refuse if so. -/
def refuseIf (b : Bool) (r : Refusal) : Except Refusal Unit := if b then .error r else .ok ()

/-- The rank and offense that a ship other than a starbase demands. -/
def mayCommand (o : Options) (y : Yard) (rank : Int) (offense : ℚ) (type : ShipType) : Except Refusal Unit :=
  let rated := !y.mode guInRobot && !y.mode guPractice
  let needOffense (least : ℚ) (ship : String) := refuseIf (rated && decide (offense < least)) (.needOffense least ship)
  match type with
  | .assault => needOffense o.asMinimalOffense "an assault ship"
  | .battleship => needOffense o.bbMinimalOffense "a battleship"
  | .destroyer => do
    refuseIf (decide (rank < o.ddrank)) (.needRank o.ddrank "a destroyer")
    needOffense o.ddMinimalOffense "a destroyer"
  | .scout => needOffense o.scMinimalOffense "a scout"
  | .sgalaxy => refuseIf (decide (rank < o.garank)) (.needRank o.garank "a galaxy class ship")
  | _ => .ok ()

/-- The rank that a starbase demands. -/
def baseRank (o : Options) (rank : Int) : Except Refusal Unit :=
  refuseIf (decide (rank < o.sbrank)) (.needRank o.sbrank "a starbase")

/-- The offense that a starbase demands. -/
def baseOffense (o : Options) (y : Yard) (offense : ℚ) : Except Refusal Unit :=
  refuseIf (!y.mode guInRobot && !y.mode guPractice && !y.mode guPret && decide (offense < o.sbMinimalOffense))
    (.needOffense o.sbMinimalOffense "a starbase")

/-- The last starbase of the team has to be replaced first. -/
def baseTurns (y : Yard) (team : Word) : Except Refusal Unit :=
  refuseIf (decide (0 < y.teTurns team) && !y.mode guChaos && decide (y.server.setup.topgun = 0))
    (.notConstructed (y.teTurns team))

/-- The team has fewer ships than a starbase needs. -/
def baseDefence (y : Yard) (team : Word) (least : Nat) (text : String) : Except Refusal Unit :=
  refuseIf (decide (realNumShips y.server.mem team < least) && !y.mode guChaos && decide (y.server.setup.topgun = 0))
    (.warning text)

def baseEconomy (o : Options) (y : Yard) (team : Word) : Except Refusal Unit :=
  refuseIf (decide (numPlanets y team < o.sbplanets) && decide (y.server.setup.topgun = 0))
    (.warning "Your team's stuggling economy cannot support such an expenditure!")

/-- The starbases that the team has in play already. -/
def baseTaken (o : Options) (y : Yard) (me : Slot) (team : Word) : Except Refusal Unit :=
  if y.mode guChaos then
    refuseIf (decide (o.maxChaosBases ≤ otherBases y me team)) (.hasStarbases o.maxChaosBases)
  else
    refuseIf (decide (0 < otherBases y me team)) (.warning "Your side already has a starbase!")

/-! ## Entry -/

/-- The checks of `getEntry` on a starbase. -/
def entryBase (o : Options) (y : Yard) (me : Slot) (offense : ℚ) (team : Word) : Except Refusal Unit := do
  baseTurns y team
  baseRank o (y.player me).rank
  baseOffense o y offense
  baseDefence y team 3 "Your team is not capable of defending such an expensive ship!"
  baseEconomy o y team
  baseTaken o y me team

/-- The choice of another team is asked for twice. -/
def mustConfirm (p : Player) (switching teamPick : Int) : Bool :=
  (1 <<< teamPick.toNat : Word) != p.team && p.team != allTeam && switching != teamPick &&
    p.whydead != .kgenocide && p.whydead != .kwinner && p.whydead != .kprovidence

def confirmText : String := "Please confirm change of teams.  Select the new team again."

/-- One pass of the loop of `getEntry` over a request; `mask` holds the teams that may be picked. -/
def getEntry (o : Options) (y : Yard) (me : Slot) (mask : Word) (offense : ℚ) (switching teamPick shipPick : Int) :
    Except Refusal (Nat × ShipType) := do
  refuseIf (decide (teamPick < 0 ∨ 3 < teamPick)) (.warning "Get real!")
  let team : Word := 1 <<< teamPick.toNat
  refuseIf (!mask.has team) (.warning "I cannot allow that.  Pick another team")
  refuseIf (mustConfirm (y.player me) switching teamPick) (.warning confirmText)
  refuseIf (decide (shipPick < 0 ∨ 7 < shipPick)) (.warning "That is an illegal ship type.  Try again.")
  let type := onlyShipType o (shipTypes.getD shipPick.toNat .scout)
  refuseIf (!o.shipsallowed type) (.warning "That ship hasn't been designed yet.  Try again.")
  mayCommand o y (y.player me).rank offense type
  if type = .starbase then entryBase o y me offense team
  return (teamPick.toNat, type)

/-! ## Refit -/

/-- Where `do_refit` finds the ship. -/
def refitPlace (y : Yard) (me : Slot) (type : ShipType) : Except Refusal Unit :=
  let p := y.player me
  if p.flags.has pfOrbit then do
    let home := (y.server.planet p.planet).flags
    refuseIf (!home.has plHome) (.warning "You must orbit your HOME planet to apply for command reassignment!")
    refuseIf (!home.has p.team) (.warning "You must orbit your home planet to apply for command reassignment!")
  else if p.flags.has pfDock then do
    refuseIf (decide (type = .starbase)) (.warning "Can only refit to starbase on your home planet.")
    refuseIf ((y.player p.dockWith).team != p.team)
      (.warning "You must dock YOUR starbase to apply for command reassignment!")
  else .error (.warning "Must orbit home planet or dock your starbase to apply for command reassignment!")

/-- The ship that is given back is in good order. -/
def refitCondition (o : Options) (p : Player) : Except Refusal Unit :=
  let lame := if p.ship.type ≠ .starbase then o.lameRefit else o.lameBaseRefit
  let damageFactor : ℚ := if lame then 3 / 4 else 1 / 4
  refuseIf (decide ((p.damage : ℚ) > p.ship.maxDamage * damageFactor ∨ (p.shield : ℚ) < p.ship.maxShield * (3 / 4) ∨
    (p.fuel : ℚ) < p.ship.maxFuel * (3 / 4))) (.warning "Central Command refuses to accept a ship in this condition!")

/-- The checks of `do_refit` on a starbase. -/
def refitBase (o : Options) (y : Yard) (me : Slot) (offense : ℚ) : Except Refusal Unit := do
  let team := (y.player me).team
  baseRank o (y.player me).rank
  baseOffense o y offense
  baseTaken o y me team
  baseDefence y team 4 "Your team is not capable of defending such an expensive ship"
  baseTurns y team
  baseEconomy o y team

/-- The checks of `do_refit`, and the ship that is given. -/
def mayRefit (o : Options) (y : Yard) (me : Slot) (type : ShipType) (offense : ℚ) : Except Refusal ShipType := do
  refitPlace y me type
  refitCondition o (y.player me)
  refuseIf (decide (0 < (y.player me).armies))
    (.warning "You must beam your armies down before moving to your new ship")
  let type := onlyShipType o type
  refuseIf (!o.shipsallowed type) (.warning "That ship hasn't been designed yet.")
  mayCommand o y (y.player me).rank offense type
  if type = .starbase then refitBase o y me offense
  return type

/-- A starbase that is given back has no ships in its bays. -/
def leaveBase (m : Memory) (me : Slot) : Memory :=
  if (m.players me).ship.type = .starbase then
    (Dock.bayReleaseAll (m.modifyPlayer me fun p => { p with kills := 0 }) me).modifyPlayer me fun p =>
      p.setFlags pfDockOk
  else m

/-- The new ship. -/
def newShip (c : Setup) (type : ShipType) (p : Player) : Player :=
  let ship := c.shipvals type
  let ship := if type ≠ .starbase ∧ type ≠ .att ∧ p.kills < c.plkills then { ship with plasmaCost := -1 } else ship
  let p := { p with ship := ship }.heal
  let p := { p with ship := { p.ship with type := type } }
  let p := if type = .starbase then { p with bays := fun _ => none }.setFlags pfDockOk else p
  (p.clearFlags (pfRefit ||| pfWep ||| pfEng)).setFlags pfRefitting

/-- What `do_refit` does when nothing speaks against it. -/
def refit (s : Server) (me : Slot) (type : ShipType) : Server :=
  { s with mem := (leaveBase s.mem me).modifyPlayer me (newShip s.setup type) }

/-- `do_refit`. -/
def doRefit (o : Options) (y : Yard) (me : Slot) (type : Int) (offense : ℚ) : Yard :=
  if type < 0 ∨ 7 < type then y
  else
    match mayRefit o y me (shipTypes.getD type.toNat .scout) offense with
    | .error _ => y
    | .ok type => { y with server := refit y.server me type }

/-! ## Steps -/

/-- The team that the process enters with. -/
def entryTeam (y : Yard) (i : Slot) (tno : Nat) : Word :=
  if y.indie i ∨ tno = 4 ∨ tno = 5 ∨ (y.player i).wQueue = quGodObs then nobody else 1 <<< tno

/-- What `pickslot` and the login of `main` make of the player. -/
def login (wQueue : Nat) (p : Player) : Player :=
  let p := { p with status := .poutfit, flags := 0, wQueue := wQueue, cyborg := false, team := allTeam }
  let p := { p with hostile := allTeam, war := allTeam, planets := 0, genoplanets := 0, armsbomb := 0 }
  let p := { p with genoarmsbomb := 0, canDock := true, avrt := -1, stdv := -1, pklsCs := -1, pklsSc := -1 }
  { p with authorised := false, verifyClue := false, inlCaptain := false, subIn := false, subInFor := none,
           subOut := false, subOutFor := none, ident := "unknown" }

inductive Step
  /-- A process is given a slot and somebody logs in. -/
  | join (i : Slot) (wQueue : Nat) (indie : Bool)
  /-- `getEntry` reads a request. -/
  | request (i : Slot) (mask : Word) (offense : ℚ) (teamPick shipPick : Int)
  /-- `enter`; of the last argument the team, the ship and the queue are the process's own. -/
  | install (i : Slot) (e : Entry)
  | goAlive (i : Slot) (observer : Bool)
  /-- `do_refit`, for a player whose process reads its input. -/
  | refit (i : Slot) (type : Int) (offense : ℚ)
  | die (i : Slot)
  /-- The explosion is over. -/
  | exploded (i : Slot)
  /-- `death`, and back to `getEntry`. -/
  | death (i : Slot)
  | quit (i : Slot)
  /-- All else that changes shared memory. -/
  | play (m : Memory) (teTurns : Word → Int)

/-- What `enter` is called with. -/
def entryOf (y : Yard) (i : Slot) (tno : Nat) (sType : ShipType) (e : Entry) : Entry :=
  { e with tno := if y.indie i then 4 else tno, sType := sType,
           godObserver := decide ((y.player i).wQueue = quGodObs) }

def step (o : Options) (y : Yard) : Step → Yard
  | .join i wQueue indie =>
    if (y.player i).status = .pfree ∧ y.stage i = .away then
      ({ y with indie := Function.update y.indie i indie }.modifyPlayer i (login wQueue)).setStage i (.outfit (-1))
    else y
  | .request i mask offense teamPick shipPick =>
    match y.stage i with
    | .outfit switching =>
      match getEntry o y i mask offense switching teamPick shipPick with
      | .ok (tno, sType) => y.setStage i (.accepted tno sType)
      | .error r => if r = .warning confirmText then y.setStage i (.outfit teamPick) else y
    | _ => y
  | .install i e =>
    match y.stage i with
    | .accepted tno sType => { y with server := enter y.server i (entryOf y i tno sType e) }.setStage i .installed
    | _ => y
  | .goAlive i observer =>
    if y.stage i = .installed then
      (y.modifyPlayer i fun p => { p with status := if observer then .pobserv else .palive }).setStage i .playing
    else y
  | .refit i type offense => if y.stage i = .playing then doRefit o y i type offense else y
  | .die i => if (y.player i).status = .palive then y.modifyPlayer i fun p => { p with status := .pexplode } else y
  | .exploded i => if (y.player i).status = .pexplode then y.modifyPlayer i fun p => { p with status := .pdead } else y
  | .death i =>
    if y.stage i = .playing ∧ ((y.player i).status = .pdead ∨ (y.player i).status = .poutfit) then
      (y.modifyPlayer i fun p => { p with status := .poutfit }).setStage i (.outfit (-1))
    else y
  | .quit i => (y.modifyPlayer i fun p => { p with status := .pfree, flags := 0 }).setStage i .away
  | .play m teTurns => { y with server := { y.server with mem := m }, teTurns := teTurns }

end Netrek.Outfit
