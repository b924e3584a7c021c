/-
`coup` of `ntserv/coup.c` and `udsurrend` of `ntserv/daemon.c`: a team gets its home planet back, and a
team with few planets left surrenders. The terminators that are sent in, the texts of messages and the file
of conquests are left out.
-/
import NetrekServer.Beam.Basic

namespace Netrek.Planets

open Daemon Empire Beam

/-! ## Coups -/

/-- A warning for a player. -/
def refuse (c : Campaign) (me : Slot) (text : String) : Campaign := c.onServer fun s => s.warn me text

/-- The player may throw a coup no sooner. -/
def coupWait (minutes : Int) : String :=
  let ending := if 1 < minutes then "s!" else "!"
  s!"Can't throw a coup for {minutes} more minute{ending}"

/-- `coup`: it shows when the daemon comes to the planet in `plfight`. -/
def coup (c : Campaign) (me : Slot) : Campaign :=
  let p := c.player me
  let l := c.planet p.planet
  if p.kills < 1 then refuse c me "You must have one kill to throw a coup"
  else if !p.flags.has pfOrbit then refuse c me "You must orbit your home planet to throw a coup"
  else if (List.finRange maxPlanets).any fun k => (c.planet k).owner == p.team && decide (0 < (c.planet k).armies) then
    refuse c me "You already own a planet!!!"
  else if !l.flags.has plHome || l.flags &&& allTeam != p.team then
    refuse c me "You must orbit your home planet to throw a coup"
  else if 4 < l.armies then refuse c me "Too many armies on planet to throw a coup"
  else if 0 < c.couptime p.planet then refuse c me (coupWait (c.couptime p.planet))
  else if l.flags.has plCoup then c
  else
    (c.modifyPlanet p.planet fun l => { l with flags := l.flags ||| plCoup }).modifyPlayer me fun p =>
      { p with planets := p.planets + 1, genoplanets := p.genoplanets + 1 }

/-! ## Surrender -/

/-- Against the people of a race with too few ships a terminator may be sent. -/
def sendTerminator (s : Server) (j : Slot) : Server :=
  let p := s.player j
  if p.status = .palive ∧ !p.flags.has pfRobot ∧ p.team ≠ nobody ∧ realNumShips s.mem p.team < s.setup.tournplayers then
    s.draw.2
  else s

/-- An observer of such a race chooses another. -/
def bumpObserver (s : Server) (j : Slot) : Server :=
  let p := s.player j
  if p.status = .pobserv ∧ p.team ≠ nobody ∧ realNumShips s.mem p.team < s.setup.tournplayers ∧ !p.authorised then
    s.modifyPlayer j fun p =>
      { (p.clearFlags (pfPLock ||| pfPlLock)).go (-100000) (-100000) with status := .pexplode, whydead := .kprovidence }
  else s

/-- A planet of the race that surrenders is given up; if it is the home, there is no coup for a while. -/
def neutralise (t : Word) (c : Campaign) (l : Fin maxPlanets) : Campaign :=
  let c :=
    if (c.planet l).flags &&& allTeam = t ∧ (c.planet l).flags.has plHome then
      let (r, s) := c.server.draw
      { c with
        server := s
        couptime := Function.update c.couptime l (minCoupTime + r % (maxCoupTime - minCoupTime) : Nat) }
    else c
  if (c.planet l).owner = t then
    c.modifyPlanet l fun l => { l with owner := nobody, armies := 0, flags := l.flags ||| plCheap }
  else c

/-- A player of the race that surrenders. -/
def dismiss (t : Word) (s : Server) (j : Slot) : Server :=
  let s :=
    if (s.player j).team = t then
      s.modifyPlayer j fun p => { p with genoplanets := 0, genoarmsbomb := 0, armsbomb := 0, planets := 0 }
    else s
  if (s.player j).status = .palive ∧ (s.player j).team = t then pExplosion s j .kprovidence 0 else s

def modifyTeam (c : Campaign) (t : Word) (f : Team → Team) : Campaign :=
  { c with teams := Function.update c.teams t (f (c.teams t)) }

/-- The race has surrendered. -/
def terminateRace (c : Campaign) (t : Word) : Campaign :=
  ((List.finRange maxPlanets).foldl (neutralise t) c).onServer fun s => (List.finRange maxPlayer).foldl (dismiss t) s

/-- The countdown of one team, with none once it has enough planets or too few players. -/
def countdown (c : Campaign) (t : Word) : Campaign :=
  if (c.teams t).surrender = 0 ∨ realNumShips c.server.mem t < c.server.setup.tournplayers then
    modifyTeam c t fun x => { x with surrenderPause := .onTourn }
  else if c.surrenderStart < (c.teams t).plcount then modifyTeam c t fun x => { x with surrenderPause := .onPlanets }
  else
    let c := modifyTeam c t fun x =>
      { x with surrenderPause := .off, surrender := x.surrender - 1, surrenderFrame := c.frame }
    if (c.teams t).surrender = 0 then terminateRace c t else c

/-- Every entry of `teams[]`. -/
def forTeams (f : Campaign → Word → Campaign) (c : Campaign) : Campaign :=
  (List.range (maxTeam + 1)).foldl (fun c t => f c (BitVec.ofNat 32 t)) c

/-- `udsurrend`. -/
def udsurrend (c : Campaign) : Campaign :=
  let c := forTeams (fun c t => modifyTeam c t fun x => { x with turns := x.turns - 1 }) c
  let c := { c with couptime := fun l => if c.couptime l = 0 then 0 else c.couptime l - 1 }
  if !c.server.mem.status.tourn then c
  else
    let c := c.onServer fun s => (List.finRange maxPlayer).foldl sendTerminator s
    let c := c.onServer fun s => (List.finRange maxPlayer).foldl bumpObserver s
    forTeams countdown c

end Netrek.Planets
