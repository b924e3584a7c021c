/-
The four routines of `ntserv/daemon.c` that damage ships: exploding torps (`t_explosion`), phaser
hits (`udphaser`), planets that fire (`pldamageplayer`, within `plfight`) and exploding ships
(`blowup`).
-/
import NetrekServer.Server

namespace Netrek.Daemon

/-! ## Messages -/

def mTeam : Word := 0x04
def mAll : Word := 0x08
def mBomb : Word := 0x60
def mKillA : Word := 0x40
def mKillP : Word := 0x60
def mKill : Word := 0x80
def dmKill : Int := 21
def dmKillP : Int := 23
def dmBomb : Int := 24

/-- The number of `p_whydead`. -/
def whydeadCode : WhyDead → Int
  | .klogin => 0x00
  | .kquit => 0x01
  | .ktorp => 0x02
  | .kphaser => 0x03
  | .kplanet => 0x04
  | .kship => 0x05
  | .kdaemon => 0x06
  | .kwinner => 0x07
  | .kghost => 0x08
  | .kgenocide => 0x09
  | .kprovidence => 0x0a
  | .kplasma => 0x0b
  | .tournend => 0x0c
  | .kover => 0x0d
  | .tournstart => 0x0e
  | .kbadbin => 0x0f
  | .ktorp2 => 0x10
  | .kship2 => 0x11
  | .kplasma2 => 0x12

/-! ## Damage and death of one ship -/

/-- Damage is taken by the shield as far as it goes, if it is up. -/
def inflict (p : Player) (damage : Int) : Player :=
  if p.flags.has pfShield then
    if p.shield - damage < 0 then { p with damage := p.damage - (p.shield - damage), shield := 0 }
    else { p with shield := p.shield - damage }
  else { p with damage := p.damage + damage }

/-- The ship has taken more damage than it can. -/
def destroyed (p : Player) : Bool := decide (p.ship.maxDamage ≤ p.damage)

/-- Damage at a squared distance: in full up to `expDist`, and from there falling to none at `range`. -/
def falloff (full range dist : Int) : Int :=
  if dist ≤ expDist * expDist then full
  else full.sign * ((full.natAbs * range - ceilSqrt (full.natAbs ^ 2 * dist.toNat)) / (range - expDist))

/-- The square of the distance, when it is at most `range`. -/
def distWithin (dx dy range : Int) : Option Int :=
  if dx < -range ∨ range < dx ∨ dy < -range ∨ range < dy ∨ range * range < dx * dx + dy * dy then none
  else some (dx * dx + dy * dy)

/-- `p_explosion`; `PLAYERFUSE` is one. -/
def pExplosion (s : Server) (j : Slot) (why : WhyDead) (who : Nat) : Server :=
  s.modifyPlayer j fun p =>
    { p with status := .pexplode, explode := if p.ship.type = .starbase then 2 * sbExpViews else 10,
             whydead := why, whodead := who }

/-- `killer_credit`. -/
def killerCredit (s : Server) (killer died : Slot) : Server :=
  let d := s.player died
  s.modifyPlayer killer fun p => { p with kills := addFloat p.kills d.worth }

/-- A count that is kept in tournament mode. -/
def countTourn (s : Server) (f : Status → Status) : Server := if s.mem.status.tourn then s.modifyStatus f else s

def countKill (s : Server) : Server := countTourn s fun t => { t with kills := t.kills + 1, losses := t.losses + 1 }

def countLoss (s : Server) : Server := countTourn s fun t => { t with losses := t.losses + 1 }

/-- `killmess`. -/
def killmess (s : Server) (victim killer : Slot) (whydead : WhyDead) : Server :=
  let v := s.player victim
  let s := s.record (.posted (mAll ||| if v.armies = 0 then mKill else mKillA)
    [dmKill, victim.val, killer.val, (s.player killer).hundredths, v.armies, whydeadCode whydead])
  if s.setup.dogfight then s.modifyPlayer killer Player.heal else s

/-! ## Exploding torps -/

/-- `t_whydead`. -/
def tWhydead (killer : Slot) (t : Torp) : WhyDead :=
  if killer ≠ t.owner then if t.type = .photon then .ktorp2 else .kplasma2
  else if t.type = .photon then .ktorp else .kplasma

/-- The reasons for which a torp spares a ship. -/
def tSpares (s : Server) (t : Torp) (j : Slot) : Bool :=
  let p := s.player j
  s.isIdle j ||
    (if j = t.owner then t.attributes.has tOwnerSafe else t.attributes.has tOwnTeamSafe && t.team == p.team) ||
    (p.flags.has pfPractr && t.attributes.has tPractice) ||
    (t.status == .tdet &&
      match t.whodet with
      | none => false
      | some d =>
        if j = d then t.attributes.has tDetterSafe
        else t.attributes.has tDetTeamSafe && p.team == (s.player d).team)

/-- Who is credited with the death of `j`: the player who detonated the torp, if an enemy. -/
def tKiller (s : Server) (t : Torp) (j : Slot) : Slot :=
  match t.whodet with
  | none => t.owner
  | some d => if d ≠ j ∧ (s.player d).team ≠ (s.player j).team then d else t.owner

/-- The range of a torp's damage. -/
def tRange (t : Torp) : Int := if t.type = .photon then damDist else plasDamDist

/-- The damage that a torp would do to a ship, if it is in range. -/
def tDamage (t : Torp) (p : Player) : Option Int :=
  (distWithin (spo (t.xInternal - p.xInternal)) (spo (t.yInternal - p.yInternal)) (tRange t)).map fun dist =>
    falloff t.damage (tRange t) dist

/-- A torp destroys a ship. -/
def tKill (s : Server) (t : Torp) (j : Slot) : Server :=
  let k := tKiller s t j
  let s := pExplosion s j (tWhydead k t) k
  let credit := (s.player k).team ≠ (s.player j).team ∨ (s.player j).flags.has pfPractr
  let s := if credit then killerCredit s k j else s
  let s := ((countKill s).record (.kill k t.owner j)).record (.death j (some k))
  killmess s j t.owner
    (if k ≠ t.owner then if t.type = .photon then .ktorp2 else .kplasma2 else (s.player j).whydead)

/-- An act of war, when the owner is hostile to the victim's team. -/
def startWar (s : Server) (owner victim : Slot) : Server :=
  let team := (s.player victim).team
  if (s.player owner).hostile.has team then s.modifyPlayer owner fun p => { p with swar := p.swar ||| team } else s

/-- The ship `j` in the explosion of the torp in slot `k`. -/
def tExplosionOn (k : Nat) (s : Server) (j : Slot) : Server :=
  let t := s.torp k
  if (s.player j).status ≠ .palive then s
  else if tSpares s t j then s
  else match tDamage t (s.player j) with
    | none => s
    | some damage =>
      if damage ≤ 0 then s
      else
        let s := (s.record (.hurt (some k) j)).record (.torpDamage t.type t.owner j damage)
        let s := startWar s t.owner j
        let s := s.modifyPlayer j fun p => inflict p damage
        if destroyed (s.player j) then tKill s t j else s

/-- `t_explosion` -/
def tExplosion (s : Server) (k : Nat) : Server :=
  let s := (List.finRange maxPlayer).foldl (tExplosionOn k) (s.record (.exploded k))
  s.modifyTorp k fun t => { t with status := .texplode, fuse := 10 * s.setup.tpf }

/-! ## Phasers -/

/-- A phaser of `i` destroys a ship. -/
def phaserKill (s : Server) (i victim : Slot) : Server :=
  let s := killerCredit (pExplosion s victim .kphaser i) i victim
  let s := ((countKill s).record (.kill i i victim)).record (.death victim (some i))
  killmess s victim i .kphaser

/-- A phaser of `i` strikes its target. -/
def phaserStrike (s : Server) (i : Slot) : Server :=
  let ph := s.mem.phasers i
  let victim := ph.target
  let s := startWar s i victim
  if (s.player victim).status ≠ .palive then s
  else
    let s := (s.record (.hurt none victim)).modifyPlayer victim fun p => inflict p ph.damage
    if destroyed (s.player victim) then phaserKill s i victim else s

/-- The phaser of one ship. -/
def udphaserOf (s : Server) (i : Slot) : Server :=
  let ph := s.mem.phasers i
  match ph.status with
  | .phfree => s
  | .phmiss | .phhit2 =>
    s.modifyPhaser i fun q => { q with fuse := q.fuse - 1, status := if ph.fuse = 1 then .phfree else q.status }
  | .phhit =>
    let s := s.modifyPhaser i fun q => { q with fuse := q.fuse - 1 }
    if ph.fuse = (s.player i).ship.phaserFuse ∧ s.isIdle ph.target then s
    else
      let s := if ph.fuse = (s.player i).ship.phaserFuse then phaserStrike s i else s
      if (s.mem.phasers i).fuse = 0 then s.modifyPhaser i fun q => { q with status := .phfree } else s

/-- `udphaser`. -/
def udphaser (s : Server) : Server := (List.finRange maxPlayer).foldl udphaserOf s

/-! ## Planets -/

/-- The planet has armies of a team that the ship is at war with. -/
def planetHostile (l : Planet) (p : Player) : Bool := p.war.has l.owner && l.armies != 0

/-- A hostile planet with the ship in range. -/
def planetFires (l : Planet) (p : Player) : Bool :=
  planetHostile l p && (distWithin (l.x - p.x) (l.y - p.y) pFireDist).isSome

/-- What one shot of a planet does. -/
def planetDamage (l : Planet) : Int := l.armies.tdiv 10 + 2

/-- A planet destroys a ship. -/
def planetKill (s : Server) (j : Slot) (l : Fin maxPlanets) : Server :=
  let s := pExplosion s j .kplanet l
  let s := s.record (.posted (mAll ||| mKillP) [dmKillP, j.val, l.val, 0, (s.player j).armies, whydeadCode .kplanet])
  (countLoss s).record (.death j none)

/-- One planet and the ship `j`. -/
def planetFire (j : Slot) (s : Server) (l : Fin maxPlanets) : Server :=
  let p := s.player j
  let near := |(s.planet l).x - p.x| < 3 * pFireDist ∧ |(s.planet l).y - p.y| < 3 * pFireDist
  if !planetHostile (s.planet l) p then s
  else
    let s := if near then s.modifyPlanet l fun q => { q with flags := q.flags ||| plRedraw } else s
    if !planetFires (s.planet l) p then s
    else
      let s := (s.record (.hurt none j)).modifyPlayer j fun p => inflict p (planetDamage (s.planet l))
      if destroyed (s.player j) then planetKill s j l else s

/-- `pldamageplayer`. -/
def pldamageplayer (s : Server) (j : Slot) : Server := (List.finRange maxPlanets).foldl (planetFire j) s

/-- A coup shows on the planet. -/
def resolveCoup (s : Server) (h : Fin maxPlanets) : Server :=
  if (s.planet h).flags.has plCoup then
    s.modifyPlanet h fun l =>
      { l with flags := l.flags &&& ~~~plCoup, owner := l.flags &&& ~~~plCoup &&& allTeam, armies := 4 }
  else s

/-- The first loop of `plfight`: coups show, and the warnings of attacks run out. -/
def coupAndWarnings (s : Server) (h : Fin maxPlanets) : Server :=
  let s := (resolveCoup s h).modifyPlanet h fun l => { l with flags := l.flags &&& ~~~plRedraw }
  if 0 < s.plWarning h then { s with plWarning := Function.update s.plWarning h (s.plWarning h - 1) } else s

/-- The armies that one bombing run destroys; `rnd` is less than 100. -/
def bombed (p : Player) (rnd : Nat) : Int :=
  (if rnd < 80 then 1 else if rnd < 90 then 2 else 3) + if p.ship.type = .assault then 1 else 0

/-- A ship that orbits the planet bombs it. -/
def bombs (s : Server) (j : Slot) : Bool :=
  let p := s.player j
  let l := s.planet p.planet
  p.flags.has pfOrbit && p.flags.has pfBomb && p.team != l.owner && p.war.has l.owner && decide (5 ≤ l.armies)

/-- The owners are warned, unless they just were; `PLFIGHTFUSE` is five. -/
def warnOwners (s : Server) (j : Slot) : Server :=
  let p := s.player j
  if s.plWarning p.planet ≤ 0 then
    { s with plWarning := Function.update s.plWarning p.planet 10 }.record
      (.posted (mTeam ||| mBomb) [dmBomb, j.val, (100 * p.damage).tdiv p.ship.maxDamage, p.planet.val])
  else s

/-- The planet loses armies. -/
def bombArmies (s : Server) (j : Slot) (ab : Int) : Server :=
  let h := (s.player j).planet
  let s := s.modifyPlanet h fun l =>
    { l with armies := l.armies - ab, flags := if l.armies - ab < 5 then l.flags ||| plRedraw else l.flags }
  let s := s.modifyPlayer j fun p =>
    { p with kills := addFloat p.kills (toDouble (toDouble (2 / 100) * ab)), armsbomb := p.armsbomb + ab, genoarmsbomb := p.genoarmsbomb + ab }
  let s := countTourn s fun t => { t with armsbomb := t.armsbomb + ab.toNat }
  (s.record (.killsMax j)).record (.bomb j h ab)

/-- Bombing by the ship `j`. -/
def bombPlanet (s : Server) (j : Slot) : Server :=
  let s := warnOwners s j
  let owner := (s.planet (s.player j).planet).owner
  let (r, s) := (s.modifyPlayer j fun p => { p with swar := p.swar ||| owner }).draw
  if r % 100 < 50 then s else bombArmies s j (bombed (s.player j) (r % 100))

/-- One ship in `plfight`. -/
def plfightOn (s : Server) (j : Slot) : Server :=
  if (s.player j).status ≠ .palive then s
  else
    let s := pldamageplayer s j
    if bombs s j then bombPlanet s j else s

/-- `plfight`. -/
def plfight (s : Server) : Server :=
  (List.finRange maxPlayer).foldl plfightOn ((List.finRange maxPlanets).foldl coupAndWarnings s)

/-! ## Exploding ships -/

/-- `friendlyPlayer`, as `me` sees it. -/
def friendlyPlayer (me p : Player) : Bool := !me.team.has p.swar && !p.team.has me.war

/-- What a ship that blows up does at close range. -/
def blowupDamage (p : Player) : Int :=
  match p.ship.type with
  | .starbase => 200
  | .scout => 75
  | _ => 100

/-- The team of the killer of a ship that blew up; a planet has none. -/
def teamOfKiller (s : Server) (who : Nat) : Word := if h : who < maxPlayer then (s.player ⟨who, h⟩).team else 0

/-- Who is credited with the death of `j` when `sh` blows up: the killer of `sh`, if an enemy. -/
def blowupKiller (s : Server) (sh j : Slot) : Slot :=
  let p := s.player sh
  if h : p.whodead < maxPlayer then
    if j.val ≠ p.whodead ∧ (s.player j).team ≠ teamOfKiller s p.whodead ∧
        (p.whydead = .kship ∨ p.whydead = .ktorp ∨ p.whydead = .kphaser ∨ p.whydead = .kplasma) then
      ⟨p.whodead, h⟩
    else sh
  else sh

/-- The ship `sh` spares a ship as it blows up. -/
def blowupSpares (s : Server) (sh j : Slot) : Bool :=
  let p := s.player sh
  s.isIdle j || (p.whydead == .kquit && friendlyPlayer p (s.player j)) || p.whydead == .kghost ||
    p.whydead == .kprovidence

/-- `sh` blowing up destroys the ship `j`. -/
def blowupKill (s : Server) (sh j : Slot) : Server :=
  let k := blowupKiller s sh j
  let s := pExplosion s j (if k ≠ sh then .kship2 else .kship) k
  let credit := (s.player k).team ≠ (s.player j).team ∨ !(s.player j).flags.has pfPractr
  let s := if credit then (killerCredit s k j).record (.killsMax k) else s
  let s := ((countKill s).record (.kill k sh j)).record (.death j (some k))
  killmess s j sh (if k = sh then .kship else .kship2)

/-- The ship `j` as `sh` blows up. -/
def blowupOn (sh : Slot) (s : Server) (j : Slot) : Server :=
  let p := s.player sh
  let q := s.player j
  if q.status ≠ .palive then s
  else if sh = j then s
  else if blowupSpares s sh j then s
  else match distWithin (p.x - q.x) (p.y - q.y) shipDamDist with
    | none => s
    | some dist =>
      let damage := falloff (blowupDamage p) shipDamDist dist
      if damage ≤ 0 then s
      else
        let s := (s.record (.hurt none j)).modifyPlayer j fun q => inflict q damage
        if destroyed (s.player j) then blowupKill s sh j else s

/-- `blowup`. -/
def blowup (s : Server) (sh : Slot) : Server := (List.finRange maxPlayer).foldl (blowupOn sh) s

end Netrek.Daemon
