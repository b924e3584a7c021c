/-
`beam` of `ntserv/daemon.c`: the daemon's pass over the ships that moves armies between them and the
planets they orbit or the bases they are docked with; and `checkgen`, which it calls when a planet is
destroyed. The robots that are sent in and the texts of messages are left out.
-/
import NetrekServer.Daemon.Damage
import NetrekServer.Empire.Teams
import NetrekServer.Empire.Winners
import NetrekServer.Enter
import NetrekServer.Stats.Armies

namespace Netrek.Beam

open Daemon Empire Stats

/-! ## Data -/

def mTake : Word := 0x20
def mDest : Word := 0x40
def dmDest : Int := 25
def dmTake : Int := 26

def surrLength : Int := 30
/-- Minutes before a race that was wiped out can coup. -/
def minCoupTime : Nat := 30
def maxCoupTime : Nat := 60

/-- The server with its statistics and its teams. -/
structure Campaign extends Book where
  teams : Word → Team
  /-- `context->frame`. -/
  frame : Int
  pretPlanets : Int
  announced : List Word
  /-- `pl_couptime`. -/
  couptime : Fin maxPlanets → Int
  /-- Planets at which the surrender of a team starts. -/
  surrenderStart : Int
  binconfirm : Bool
  /-- The daemon has written through a null pointer, and is going down. -/
  fault : Bool
  deriving Inhabited

namespace Campaign

def planet (c : Campaign) (l : Fin maxPlanets) : Planet := c.server.planet l

/-- A change of the server. -/
def onServer (c : Campaign) (f : Server → Server) : Campaign := { c with server := f c.server }

/-- A call of the statistics. -/
def onBook (c : Campaign) (f : Book → Book) : Campaign := { c with toBook := f c.toBook }

def modifyPlayer (c : Campaign) (i : Slot) (f : Player → Player) : Campaign := c.onServer fun s => s.modifyPlayer i f

def modifyPlanet (c : Campaign) (l : Fin maxPlanets) (f : Planet → Planet) : Campaign :=
  c.onServer fun s => s.modifyPlanet l f

def realm (c : Campaign) : Realm := ⟨c.server, c.teams, c.frame, c.pretPlanets, c.announced⟩

def withRealm (c : Campaign) (r : Realm) : Campaign :=
  { c with server := r.server, teams := r.teams, announced := r.announced }

end Campaign

/-! ## Genocide -/

/-- Troops for one planet of the winners. -/
def recruit (n : Nat) (winner : Word) (s : Server) (l : Fin maxPlanets) : Server :=
  if (s.planet l).owner = winner then
    let (r, s) := s.draw
    s.modifyPlanet l fun p => { p with armies := p.armies + (r % n : Nat) }
  else s

/-- `addTroops`: the winners get troops, sometimes with three defenders or more, and always with six. -/
def addTroops (s : Server) (loser winner : Word) : Server :=
  let count := teamCount s.mem loser
  let boost (s : Server) : Server := (List.finRange maxPlanets).foldl (recruit (2 * count) winner) s
  if count < 3 then s
  else if count < 6 then
    let (r, s) := s.draw
    if r % count = 0 then s else boost s
  else boost s

/-- `displayBest`, for what it clears. -/
def displayGenocide (s : Server) (team : Word) : Server :=
  match displayBest s.mem.players team .kgenocide with
  | some b => { s with mem := { s.mem with players := b.players } }
  | none => s

/-- `genocideMessage`. -/
def genocideMessage (s : Server) (loser winner : Word) : Server := displayGenocide (displayGenocide s winner) loser

/-- A player of the race that was wiped out. -/
def kickOut (loser : Word) (winner : Slot) (s : Server) (j : Slot) : Server :=
  if (s.player j).team = loser then
    let s := s.modifyPlayer j fun p => { p with genoplanets := 0, genoarmsbomb := 0, armsbomb := 0, planets := 0 }
    if (s.player j).status = .palive then pExplosion s j .kgenocide winner else s
  else s

/-- `te_plcount` of every team is counted anew. -/
def recountAll (r : Realm) : Realm :=
  (List.finRange maxPlanets).foldl countPlanet
    ((List.range (maxTeam + 1)).foldl (fun r t => clearCount r (BitVec.ofNat 32 t)) r)

/-- The home planet of a team, the last one if there are several. -/
def homePlanet (s : Server) (team : Word) : Option (Fin maxPlanets) :=
  (List.finRange maxPlanets).reverse.find? fun l => (s.planet l).flags &&& allTeam == team && (s.planet l).flags.has plHome

/-- With few planets left, the team starts to consider surrender. -/
def startSurrender (c : Campaign) (loser : Word) : Campaign :=
  if (c.teams loser).surrender = 0 ∧ (c.teams loser).plcount = c.surrenderStart then
    let minutes := if c.binconfirm then surrLength else surrLength * 2 / 3
    { c with
      teams := Function.update c.teams loser
        { c.teams loser with surrender := minutes, surrenderPause := .off, surrenderFrame := c.frame } }
  else c

/-- The team has lost its last planet; the answer is whether that is a genocide, and not a conquest. -/
def lastPlanet (c : Campaign) (loser : Word) (winner : Slot) : Campaign × Bool :=
  let c := { c with
    teams := Function.update c.teams loser { c.teams loser with surrender := 0, surrenderFrame := c.frame } }
  let c := c.modifyPlayer winner fun p => { p with genoplanets := p.genoplanets + 1, planets := p.planets + 1 }
  let (r, won) := checkwin c.realm winner
  (c.withRealm r, !won)

/-- `checkgen` up to the message of a genocide; the answer is whether it comes to that. -/
def toGenocide (c : Campaign) (loser : Word) (winner : Slot) : Campaign × Bool :=
  if c.server.setup.inlMode then (c, false)
  else
    let c := startSurrender (c.withRealm (recountAll c.realm)) loser
    if 0 < (c.teams loser).plcount then (c, false) else lastPlanet c loser winner

/-- The losers are hosed: their home planet cannot coup for a while. Without one `homep` is null. -/
def hose (c : Campaign) (loser : Word) : Campaign :=
  let (r, s) := c.server.draw
  let c := { c with server := s }
  match homePlanet s loser with
  | some l => { c with couptime := Function.update c.couptime l (minCoupTime + r % (maxCoupTime - minCoupTime) : Nat) }
  | none => { c with fault := true }

/-- The rest of `checkgen`, for the winner's team. -/
def genocide (c : Campaign) (loser : Word) (winner : Slot) : Campaign :=
  let team := (c.player winner).team
  let c := c.onServer fun s => addTroops (genocideMessage s loser team) loser team
  hose (c.onServer fun s => (List.finRange maxPlayer).foldl (kickOut loser winner) s) loser

/-- `checkgen`. -/
def checkgen (c : Campaign) (loser : Word) (winner : Slot) : Campaign :=
  match toGenocide c loser winner with
  | (c, false) => c
  | (c, true) => genocide c loser winner

/-! ## Beaming up -/

/-- The armies that the kills of a ship carry: `(int) ((float) ((int) (p_kills*100)/100.0) * 3.0)` for an assault
ship, and with `2.0` for another. -/
def capacity (p : Player) : Int :=
  truncate (toDouble (toFloat (toDouble (p.hundredths / 100)) * perKill p.ship.type))

/-- The ship is orbiting or docked. -/
def moored (p : Player) : Bool := p.flags.has (pfOrbit ||| pfDock)

/-- An army may come aboard, from the planet or else from the base. -/
def mayBeamUp (s : Server) (i : Slot) : Bool :=
  let p := s.player i
  let l := s.planet p.planet
  !(p.flags.has pfOrbit && decide (l.armies < 5)) &&
    !(p.flags.has pfDock && decide ((s.player p.dockWith).armies < 1)) &&
    decide (p.armies < p.ship.maxArmies) &&
    (p.ship.type == .starbase || decide (p.armies < capacity p)) &&
    !(p.flags.has pfOrbit && (p.team != l.owner || p.war.has l.owner))

/-- One army is beamed up. -/
def beamUp (c : Campaign) (i : Slot) : Campaign :=
  let p := c.player i
  let c := c.modifyPlayer i fun p => { p with armies := p.armies + 1 }
  if p.flags.has pfOrbit then
    (c.modifyPlanet p.planet fun l => { l with armies := l.armies - 1 }).onBook fun b => updateArmiesCarried b i none
  else if p.flags.has pfDock then
    (c.modifyPlayer p.dockWith fun q => { q with armies := q.armies - 1 }).onBook
      fun b => updateArmiesCarried b i (some p.dockWith)
  else c

/-! ## Beaming down -/

/-- The planet belongs to a team that the ship is at peace with. -/
def peaceful (p : Player) (l : Planet) : Bool := !p.war.has l.owner && p.team != l.owner && l.owner != nobody

/-- The army that is beamed down kills one of the armies there. -/
def invade (c : Campaign) (i : Slot) : Campaign :=
  let h := (c.player i).planet
  let owner := (c.planet h).owner
  let c := c.modifyPlayer i fun p =>
    { p with armies := p.armies - 1, swar := p.swar ||| owner, kills := addFloat p.kills (toDouble (2 / 100)), armsbomb := p.armsbomb + 1,
             genoarmsbomb := p.genoarmsbomb + 1 }
  let c := c.modifyPlanet h fun l => { l with armies := l.armies - 1 }
  c.onBook fun b => updateKillsMax (updateArmies b i h) i

/-- The planet was taken from a team with nobody to defend it. -/
def undefended (s : Server) (l : Planet) : Bool :=
  s.mem.status.tourn && decide (realNumShips s.mem l.owner < 2) && decide (realNumShips s.mem (l.flags &&& allTeam) < 2)

/-- The planet has no armies left, and is given to nobody. -/
def destroy (c : Campaign) (i : Slot) : Campaign :=
  let h := (c.player i).planet
  let c := c.onServer fun s => s.record (.posted (mTeam ||| mDest) [dmDest, h.val, i.val])
  let c := c.modifyPlanet h fun l =>
    { l with flags := if undefended c.server l then l.flags ||| plCheap else l.flags, owner := nobody }
  c.onBook fun b => updatePlanets b i h

/-- A planet with armies loses one, and with the last of them its owner; the answer is whether the daemon goes down. -/
def beamDownHostile (c : Campaign) (i : Slot) : Campaign × Bool :=
  let h := (c.player i).planet
  let owner := (c.planet h).owner
  let c := invade c i
  if (c.planet h).armies = 0 then
    let c := checkgen (destroy c i) owner i
    (c, c.fault)
  else (c, false)

/-- A planet without armies is taken over; the answer is whether that is a conquest. -/
def takeOver (c : Campaign) (i : Slot) : Campaign × Bool :=
  let h := (c.player i).planet
  let team := (c.player i).team
  let c := c.modifyPlayer i fun p =>
    { p with armies := p.armies - 1, planets := p.planets + 1, genoplanets := p.genoplanets + 1, kills := addFloat p.kills (1 / 4) }
  let c := c.modifyPlanet h fun l =>
    { l with armies := l.armies + 1, flags := l.flags &&& ~~~plCheap, owner := team, info := team }
  let c := c.onBook fun b => updateKillsMax (updatePlanets (updateArmies b i h) i h) i
  let (r, won) := checkwin c.realm i
  let c := c.withRealm r
  if won then (c, true) else (c.onServer fun s => s.record (.posted (mTeam ||| mTake) [dmTake, h.val, i.val]), false)

/-- The army joins those of the own planet. -/
def reinforce (c : Campaign) (i : Slot) : Campaign :=
  let h := (c.player i).planet
  let c := c.modifyPlayer i fun p => { p with armies := p.armies - 1 }
  let c := c.modifyPlanet h fun l => { l with armies := l.armies + 1 }
  c.onBook fun b => updateArmies b i h

/-- The base has room for an army of its own team. -/
def baseTakes (s : Server) (i : Slot) : Bool :=
  let base := s.player (s.player i).dockWith
  base.team == (s.player i).team && decide (base.armies < base.ship.maxArmies)

/-- The army goes to the base. -/
def transfer (c : Campaign) (i : Slot) : Campaign :=
  let base := (c.player i).dockWith
  let c := c.modifyPlayer i fun p => { p with armies := p.armies - 1 }
  let c := c.modifyPlayer base fun q => { q with armies := q.armies + 1 }
  c.onBook fun b => updateArmiesFerried b i base

/-- One army is beamed down, if there is one and where it is let; the answer is whether that ends the pass. -/
def beamDown (c : Campaign) (i : Slot) : Campaign × Bool :=
  let p := c.player i
  let l := c.planet p.planet
  if p.armies = 0 then (c, false)
  else if p.flags.has pfOrbit then
    if peaceful p l then (c, false)
    else if p.team ≠ l.owner then
      if l.armies ≠ 0 then beamDownHostile c i else takeOver c i
    else (reinforce c i, false)
  else if p.flags.has pfDock then (if baseTakes c.server i then transfer c i else c, false)
  else (c, false)

/-! ## The pass -/

/-- One ship in `beam`; the answer is whether the pass ends with it. -/
def beamOn (c : Campaign) (i : Slot) : Campaign × Bool :=
  let p := c.player i
  if p.status ≠ .palive ∨ moored p = false then (c, false)
  else if p.flags.has pfBeamUp then (if mayBeamUp c.server i then beamUp c i else c, false)
  else if p.flags.has pfBeamDown then beamDown c i
  else (c, false)

/-- The pass over some ships, up to a conquest or the daemon's end. -/
def beamLoop : List Slot → Campaign → Campaign × Bool
  | [], c => (c, false)
  | i :: is, c =>
    match beamOn c i with
    | (c, true) => (c, true)
    | (c, false) => beamLoop is c

/-- `beam`; the answer is whether it did not come to the last ship. -/
def beam (c : Campaign) : Campaign × Bool := beamLoop (List.finRange maxPlayer) c

end Netrek.Beam
