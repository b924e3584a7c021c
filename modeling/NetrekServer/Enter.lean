/-
`enter` of `ntserv/enter.c`, by which a player enters the game, and `change_team` of `ntserv/util.c`.
-/
import NetrekServer.Server

namespace Netrek

/-! ## Entering -/

/-- What a player asks for, where the ship is put, and what the process remembers: the wish to keep the peace,
and the team that the player was on before. -/
structure Entry where
  tno : Nat
  sType : ShipType
  name : String
  x : Int
  y : Int
  dir : UInt8
  keeppeace : Bool
  godObserver : Bool
  lastteam : Option Nat

/-- The team of a choice; independents have none. -/
def Entry.team (e : Entry) : Word := if e.tno = 4 ∨ e.tno = 5 ∨ e.godObserver then nobody else 1 <<< e.tno

/-- The ship; plasma torps may have to be earned. -/
def Entry.ship (e : Entry) (c : Setup) : Ship :=
  let ship := c.shipvals e.sType
  if e.sType ≠ .starbase ∧ e.sType ≠ .att ∧ 0 < c.plkills then { ship with plasmaCost := -1 } else ship

/-- The players of a team, with free slots left out. -/
def teamCount (m : Memory) (team : Word) : Nat :=
  (List.finRange maxPlayer).countP fun i => (m.players i).status != .pfree && (m.players i).team == team

/-- `auto_peace`: one is hostile to the teams of a tournament, or to all. -/
def autoPeace (c : Setup) (m : Memory) : Word :=
  let among (team : Word) : Word := if c.tournplayers ≤ teamCount m team then team else 0
  if m.status.tourn then among fed ||| among rom ||| among kli ||| among ori else allTeam

/-- `declare_war` of a ship that is not docked and has nobody docked, without a delay. -/
def Player.declareWar (p : Player) (mask : Word) : Player :=
  if !p.flags.has pfRobot && p.team == nobody then { p with war := nobody, hostile := nobody, swar := nobody }
  else
    let mask := mask &&& allTeam &&& ~~~p.team ||| p.swar
    if mask ^^^ p.hostile = 0 then p else { p with hostile := mask, war := p.swar ||| mask }

/-- The player as it enters the game in the slot `pno`. -/
def Entry.player (e : Entry) (c : Setup) (m : Memory) (pno : Slot) (p : Player) : Player :=
  let p := { p with name := e.name, ship := e.ship c, updates := 0, speed := 0, team := e.team }
  let p := { p with flags := pfShield ||| pfGreen ||| if e.sType = ShipType.starbase then pfDockOk else 0 }
  let p := p.go e.x e.y
  let p := { p with dir := e.dir, ntorp := 0, cloakphase := 0, nplasmatorp := 0 }
  let p := { p.heal with swar := nobody, kills := 0, armies := 0, bays := fun _ => none, dockWith := 0, dockBay := 0 }
  let p := if e.team = nobody then { p with hostile := nobody, war := nobody }
    else
      let m := m.modifyPlayer pno fun p => { p with team := e.team }
      let hostile := (if e.keeppeace then p.hostile else autoPeace c m) &&& ~~~e.team
      { p with hostile := hostile, war := hostile }
  { p with inlDraft := .off, mapchars := letters e.team pno }

/-- A new starbase gives its team permission to dock. -/
def permitDocking (s : Server) (team : Word) : Server :=
  { s with mem := { s.mem with players := fun i =>
      if (s.mem.players i).team = team then { s.mem.players i with canDock := true } else s.mem.players i } }

/-- Having changed sides, one becomes hostile to the former team. -/
def Entry.switch (e : Entry) (p : Player) : Player :=
  match e.lastteam with
  | some team => if team < 4 ∧ team ≠ e.tno then p.declareWar (1 <<< team) else p
  | none => p

/-- `enter`. -/
def enter (s : Server) (pno : Slot) (e : Entry) : Server :=
  let s := if e.sType = .starbase then permitDocking s (s.player pno).team else s
  s.modifyPlayer pno fun p => e.switch (e.player s.setup s.mem pno p)

/-- The gate of `redraw.c` before `death`: the ship is gone, and so are its torps. -/
def maySetOut (p : Player) : Bool :=
  (p.status == .pdead || p.status == .poutfit) && decide (p.ntorp ≤ 0 ∧ p.nplasmatorp ≤ 0)

/-- A player enters and is alive. -/
def setOut (s : Server) (pno : Slot) (e : Entry) : Server :=
  (enter s pno e).modifyPlayer pno fun p => { p with status := .palive }

/-- A player enters again after its death, once its torps are gone. -/
def reenter (s : Server) (pno : Slot) (e : Entry) : Server := if maySetOut (s.player pno) then setOut s pno e else s

/-! ## Changing teams -/

/-- `change_team`. -/
def changeTeam (s : Server) (k : Slot) (ours theirs : Word) : Server :=
  s.modifyPlayer k fun p =>
    let p := p.joinTeam k ours theirs
    { p with
      status := .pexplode
      whydead := .tournstart
      explode := if p.ship.type = .starbase then 2 * sbExpViews else 10
      ntorp := 0
      nplasmatorp := 0
      hostile := allTeam
      war := allTeam ||| p.swar }

end Netrek
