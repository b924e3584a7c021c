/-
`phaser` of `ntserv/phaser.c`, `detothers` of `ntserv/detonate.c` and `handleDetMReq` of
`ntserv/socket.c`: what a player does to torps that fly already.
-/
import NetrekServer.Weapons.Launch

namespace Netrek.Weapons

open Daemon

/-! ## Phasers -/

/-- At this range a phaser does damage; it hits a ship or a plasma torp that is as close to its line. -/
def phaseDist : Int := 6000
def zapPlayerDist : Int := 390
def zapPlasmaDist : Int := 270

/-- The nearest target that the phaser hits so far, with its range. -/
structure Aim (α : Type) where
  range : Int
  rangeSq : Int
  target : Option α

/-- Whether the phaser hits something at `(a, b)` from the ship that is nearer than what it hits so far. What is
behind the ship is missed, unless `overlap` lets the phaser hit where it starts. -/
def zaps {α : Type} (c : Setup) (course : UInt8) (aim : Aim α) (a b zap : Int) (overlap : Bool) : Bool :=
  let C := c.cos course * 10 * (phaseDist : ℚ)
  let D := c.sin course * 10 * (phaseDist : ℚ)
  let s := (a * C + b * D) / (10 * (phaseDist : ℚ) * (10 * (phaseDist : ℚ)))
  let t := if s < 0 then 0 else s
  decide (a < aim.range ∧ -aim.range < a ∧ b < aim.range ∧ -aim.range < b ∧ a * a + b * b < aim.rangeSq ∧
    (overlap = true ∨ 0 ≤ s)) &&
    (distWithin (truncate (C * t) - a) (truncate (D * t) - b) zap).isSome

/-- The aim at a new target. -/
def Aim.take {α : Type} (x : α) (a b : Int) : Aim α :=
  ⟨nearbySqrt ((a * a + b * b : Int) : ℚ), a * a + b * b, some x⟩

/-- What a phaser hits. -/
inductive Hit
  | ship (j : Slot)
  | plasma (k : Nat)

/-- The phaser looks at the ship `j`. -/
def aimShip (s : Server) (me : Slot) (course : UInt8) (aim : Aim Hit) (j : Slot) : Aim Hit :=
  let p := s.player me
  let q := s.player j
  if q.status ≠ .palive ∨ j = me ∨ (!q.war.has p.team && !p.war.has q.team) ∨ s.isIdle j then aim
  else if zaps s.setup course aim (q.x - p.x) (q.y - p.y) zapPlayerDist true then .take (.ship j) (q.x - p.x) (q.y - p.y)
  else aim

/-- The phaser looks at the plasma slot `k`. -/
def aimPlasma (s : Server) (me : Slot) (course : UInt8) (aim : Aim Hit) (k : Nat) : Aim Hit :=
  let p := s.player me
  let t := s.torp k
  if t.status ≠ .tmove ∨ t.owner = me then aim
  else if !s.setup.pingpongPlasma && !t.war.has p.team && !p.war.has t.team then aim
  else if zaps s.setup course aim (t.x - p.x) (t.y - p.y) zapPlasmaDist false then .take (.plasma k) (t.x - p.x) (t.y - p.y)
  else aim

def plasmaSlots : List Nat := (List.range (maxPlasma * maxPlayer)).map (firstPlasma + ·)

def phaserRange (p : Player) : Int := (phaseDist * p.ship.phaserDamage).tdiv 100

/-- What the phaser hits: the nearest of ships and plasma torps. -/
def aimPhaser (s : Server) (me : Slot) (course : UInt8) : Aim Hit :=
  let r := phaserRange (s.player me)
  let aim := (List.finRange maxPlayer).foldl (aimShip s me course) ⟨r + 1, r * r + 1, none⟩
  plasmaSlots.foldl (aimPlasma s me course) aim

/-- The damage of a phaser at `range`. -/
def phaserDamage (p : Player) (range : Int) : Int :=
  truncate (p.ship.phaserDamage * (1 - range / (phaserRange p : ℚ)))

/-- A plasma torp changes hands. -/
def takePlasma (s : Server) (me : Slot) (k : Nat) (damage turns gspeed : Int) (dir : UInt8) (ph : Int) : Server :=
  let s := s.modifyPlayer (s.torp k).owner fun p => { p with nplasmatorp := p.nplasmatorp - 1 }
  let s := s.modifyPlayer me fun p => { p with nplasmatorp := p.nplasmatorp + 1 }
  let p := s.player me
  s.modifyTorp k fun t =>
    { t with
      owner := me
      damage := damage
      turns := turns
      gspeed := gspeed
      dir := dir
      team := p.team
      war := p.hostile
      fuse := truncate (t.fuse + ((ph : ℚ) / 4 + 5) * (s.setup.tpf : ℚ)) }

/-- The phaser hits a plasma torp and sends it back. -/
def pingPong (s : Server) (me : Slot) (k : Nat) (ph : Int) : Server :=
  let t := s.torp k
  let p := s.player me
  if t.war.has p.team || p.hostile.has t.team then
    let (r1, s) := s.draw
    let (r2, s) := s.draw
    let dir : UInt8 := if r1 % 9 < 8 then 128 else 80
    (takePlasma s me k (t.damage + ph.tdiv 4) (if r2 % 9 < 7 then t.turns + 1 else t.turns)
      (t.gspeed + ph.tdiv 100) (t.dir + dir) ph).warn me "Ping-Pong!"
  else
    (takePlasma s me k (t.damage + ph) (t.turns + 1) (t.gspeed + ph.tdiv 100) p.dir ph).warn me
      "You deflected the plasma!"

/-- The phaser hits the plasma torp in the slot `k` at `range`. -/
def phaserPlasma (s : Server) (me : Slot) (k : Nat) (range : Int) : Server :=
  let s := s.record (.plasmaPhasered (s.torp k).owner)
  let t := s.torp k
  if s.setup.pingpongPlasma then
    let ph := phaserDamage (s.player me) range
    let s := s.modifyPhaser me fun q => { q with damage := ph, x := t.x, y := t.y, status := .phhit2 }
    pingPong s me k ph
  else
    let s := s.modifyPhaser me fun q => { q with x := t.x, y := t.y }
    (s.modifyTorp k fun t => { t with status := .tdet, whodet := some me }).warn me "You destroyed the plasma torpedo!"

/-- The phaser hits the ship `j` at `range`. -/
def phaserShip (s : Server) (me j : Slot) (range : Int) : Server :=
  let ph := phaserDamage (s.player me) range
  let s := s.modifyPhaser me fun q => { q with target := j, damage := ph }
  let name := (s.player j).name
  (s.record (.phaserDamage me j ph)).warn me s!"Phaser burst hit {name} for {ph} points"

/-- Why a phaser is not fired. -/
def phaserRefusal (s : Server) (me : Slot) : Option String :=
  let p := s.player me
  if (s.mem.phasers me).status ≠ .phfree then some "Phasers have not recharged."
  else if p.fuel < p.ship.phaserCost then some "Not enough fuel for phaser."
  else if p.flags.has pfRepair then some "Can't fire while repairing."
  else none

/-- Why a phaser is not fired, once it is cool enough. -/
def phaserLocked (s : Server) (me : Slot) : Option String :=
  let p := s.player me
  if p.cloakphase ≠ 0 ∧ p.ship.type ≠ .att then some "Cannot fire while cloaked"
  else if p.ship.phaserCost < 0 then some "Weapons Officer:  This ship is not armed with phasers, captain!"
  else if s.setup.teacherPhasersNone then some "Teacher has locked out the phaser controls!"
  else none

/-- The phaser fires. -/
def firePhaser (s : Server) (me : Slot) (course : UInt8) : Server :=
  let aim := aimPhaser s me course
  let p := s.player me
  let status : PhStatus := match aim.target with
    | none => .phmiss
    | some (.ship _) => .phhit
    | some (.plasma _) => .phhit2
  let s := s.modifyPhaser me fun q => { q with status := status, dir := course, fuse := p.ship.phaserFuse }
  let s := s.modifyPlayer me fun p =>
    { p with fuel := p.fuel - p.ship.phaserCost, wtemp := p.wtemp + p.ship.phaserCost.tdiv 10 }
  let s := s.record (.phaserFired me)
  match aim.target with
  | none => s.warn me "Phaser missed."
  | some (.ship j) => phaserShip (s.record (.phaserHit me)) me j aim.range
  | some (.plasma k) => phaserPlasma (s.record (.phaserHit me)) me k aim.range

/-- `phaser`. -/
def phaser (s : Server) (me : Slot) (course : UInt8) : Server :=
  if conquest s then s
  else match phaserRefusal s me with
    | some text => s.warn me text
    | none =>
      let hot := (s.player me).flags.has pfWep
      let s := if hot then s.warn me "Weapons overheated" else s
      if hot && !s.setup.chaosmode then s
      else match phaserLocked s me with
        | some text => s.warn me text
        | none => firePhaser s me course

/-! ## Detonation -/

/-- `enemyTorp`. -/
def enemyTorp (p : Player) (t : Torp) : Bool := t.war.has p.team || t.team.has p.war

/-- `detothers` at the slot `k` of a player `j`. -/
def detTorp (me j : Slot) (s : Server) (k : Nat) : Server :=
  let p := s.player me
  let t := s.torp k
  if enemyTorp p t && t.status == .tmove && (distWithin (t.x - p.x) (t.y - p.y) detDist).isSome then
    (s.modifyTorp k fun t => { t with status := .tdet, whodet := some me }).record (.torpDetted j)
  else s

/-- The slots of the torps of a player. -/
def torpSlots (j : Slot) : List Nat := (List.range maxTorp).map (firstTorpOf j + ·)

/-- `detothers`. -/
def detothers (s : Server) (me : Slot) : Server :=
  let p := s.player me
  let hot := p.flags.has pfWep
  if conquest s then s
  else if p.fuel < p.ship.detCost then s.warn me "Not enough fuel to detonate"
  else
    let s := if hot then s.warn me "Weapons overheated" else s
    if hot && !s.setup.chaosmode then s
    else
      let s := s.modifyPlayer me fun p =>
        { p with fuel := p.fuel - p.ship.detCost, wtemp := p.wtemp + p.ship.detCost.tdiv 5 }
      (List.finRange maxPlayer).foldl
        (fun s j => if (s.player j).status = .pfree then s else (torpSlots j).foldl (detTorp me j) s) s

/-- A player turns off an own torp that moves. -/
def offTorp (me : Slot) (s : Server) (k : Nat) : Server :=
  if (s.torp k).status = .tmove then
    (s.modifyTorp k fun t => { t with status := .toff }).record (.torpSelfdetted me)
  else s

/-- `handleDetMReq`; with short packets all torps are turned off. -/
def handleDetMReq (s : Server) (me : Slot) (tnum : UInt16) (sendShort : Bool) : Server :=
  let n := tnum.toNat
  if maxPlayer * maxTorp ≤ n then s
  else if (s.torp n).owner ≠ me then s
  else if sendShort then (torpSlots me).foldl (offTorp me) s
  else offTorp me s n

end Netrek.Weapons
