/-
Torps in flight: `udtorps` of `ntserv/daemon.c`, with what moves a torp and what sets it off. Torps and
plasma torps are in one table.
-/
import NetrekServer.Daemon.Damage

namespace Netrek.Daemon

/-! ## The table -/

/-- Slots of the table; the plasma torps follow the torps. -/
def numTorps : Nat := maxTorp * maxPlayer + maxPlasma * maxPlayer

def firstTorpOf (p : Slot) : Nat := maxTorp * p
def lastTorpOf (p : Slot) : Nat := maxTorp * p + maxTorp - 1
def firstPlasma : Nat := maxTorp * maxPlayer
def firstPlasmaOf (p : Slot) : Nat := firstPlasma + maxPlasma * p

/-! ## Motion -/

/-- The nearest target of a tracking torp so far, and which way to turn. -/
structure Track where
  range : Int
  minRangeSq : Int
  turn : Int

/-- `t_track` looks at the ship `j`. -/
def tTrackOn (s : Server) (t : Torp) (a : Track) (j : Slot) : Track :=
  let p := s.player j
  let friend := p.team = (s.player t.owner).team ∧ !p.flags.has pfPractr
  if p.status ≠ .palive ∨ j = t.owner ∨ friend ∨ !(t.war.has p.team || t.team.has p.war) then a
  else
    let dx := spo (t.xInternal - p.xInternal)
    let dy := spo (t.yInternal - p.yInternal)
    if a.range ≤ dx ∨ dx ≤ -a.range ∨ a.range ≤ dy ∨ dy ≤ -a.range then a
    else
      let bearing : Int := (s.setup.toDir dx dy - t.dir).toNat
      let arc := (t.turns * t.fuse).tdiv s.setup.tpf
      -- an unsigned word
      let rangeSq := (dx * dx + dy * dy) % 2 ^ 32
      if (127 < arc ∨ bearing < arc ∨ 256 - arc < bearing) ∧ rangeSq < a.minRangeSq then
        ⟨rangeSq.toNat.sqrt, rangeSq, if 127 < bearing then -1 else 1⟩
      else a

/-- `t_track` -/
def tTrack (s : Server) (t : Torp) : Torp :=
  let a := (List.finRange maxPlayer).foldl (tTrackOn s t) ⟨65535, 0xffffffff, 0⟩
  if a.turn < 0 then { t with dir := t.dir - UInt8.ofInt t.turns }
  else if 0 < a.turn then { t with dir := t.dir + UInt8.ofInt t.turns }
  else t

/-- `t_move`. -/
def tMove (s : Server) (t : Torp) : Torp :=
  let x := truncate (t.xInternal + (spm * t.gspeed : Int) * s.setup.cos t.dir / s.setup.tpf)
  let y := truncate (t.yInternal + (spm * t.gspeed : Int) * s.setup.sin t.dir / s.setup.tpf)
  { t with xInternal := x, yInternal := y, x := spo x, y := spo y }

/-- A coordinate within the walls: it stays at the wall, or wraps around. -/
def withinWalls (wrap : Bool) (x : Int) : Int :=
  if x < 0 then if wrap then spi gWidth else 0
  else if spi gWidth < x then if wrap then 0 else spi gWidth
  else x

/-- `t_check_wall`. -/
def tCheckWall (s : Server) (t : Torp) : Torp × Bool :=
  let wrap := s.setup.wrapGalaxy
  let x := withinWalls wrap t.xInternal
  let y := withinWalls wrap t.yInternal
  ({ t with xInternal := x, yInternal := y, x := if x = t.xInternal then t.x else spo x,
            y := if y = t.yInternal then t.y else spo y },
    !wrap && (x != t.xInternal || y != t.yInternal))

/-- A moving torp in a tick: its fuse burns, it tracks at the normal rate, it moves, and the walls stop it. -/
def tAdvance (s : Server) (t : Torp) : Torp × Bool :=
  let t := { t with fuse := t.fuse - 1 }
  let t := if t.fuse % (s.setup.tpf : Int) = 0 ∧ 0 < t.turns then tTrack s t else t
  tCheckWall s (tMove s t)

/-! ## What sets a torp off -/

/-- `t_hit_wall`. -/
def tHitWall (s : Server) (k : Nat) : Server :=
  let s := tExplosion (s.modifyTorp k fun t => { t with status := .tdet, whodet := some t.owner }) k
  s.record (.torpWall (s.torp k).type (s.torp k).owner)

/-- `t_wobble`. -/
def tWobble (s : Server) (k : Nat) : Server :=
  let (r, s) := s.draw
  s.modifyTorp k fun t => { t with dir := t.dir + UInt8.ofNat (r % 3) - 1 }

/-- A torp of another player at war with the ship is close enough to explode for it. -/
def tNearTo (t : Torp) (p : Player) : Bool :=
  (t.war.has p.team || t.team.has p.war) &&
    (distWithin (spo (t.xInternal - p.xInternal)) (spo (t.yInternal - p.yInternal)) expDist).isSome

/-- `t_near`. -/
def tNear (s : Server) (t : Torp) : Bool :=
  (List.finRange maxPlayer).any fun j =>
    (s.player j).status == .palive && t.owner != j && tNearTo t (s.player j) && !s.isIdle j

/-- The slot is free, and the owner has one torp less. -/
def freeTorp (s : Server) (k : Nat) : Server :=
  let t := s.torp k
  let s := s.modifyTorp k fun t => { t with status := .tfree }
  match t.type with
  | .photon => s.modifyPlayer t.owner fun p => { p with ntorp := p.ntorp - 1 }
  | .plasma => s.modifyPlayer t.owner fun p => { p with nplasmatorp := p.nplasmatorp - 1 }

/-- The work on a moving torp that is done at the normal rate: it wobbles, and a ship near it sets it off. -/
def tSeek (s : Server) (k : Nat) : Server :=
  let s := if (s.torp k).attributes.has Netrek.tWobble then tWobble s k else s
  if tNear s (s.torp k) then
    tExplosion (s.record (.torpHit (s.torp k).type (s.torp k).owner)) k
  else s

/-- `udtorps` at the slot `k`. -/
def udtorp (s : Server) (k : Nat) : Server :=
  let t := s.torp k
  match t.status with
  | .tfree => s
  | .tmove =>
    if t.fuse ≤ 0 then freeTorp (s.modifyTorp k fun t => { t with fuse := t.fuse - 1 }) k
    else
      let (t, hit) := tAdvance s t
      let s := s.modifyTorp k fun _ => t
      let s := if hit then tHitWall s k else s
      -- a torp that the wall set off is not passed over here
      if (s.torp k).fuse % (s.setup.tpf : Int) ≠ 0 then s else tSeek s k
  | .tdet => tExplosion s k
  | .texplode =>
    let s := s.modifyTorp k fun t => { t with fuse := t.fuse - 1 }
    if 0 < t.fuse then s else freeTorp s k
  | .toff => freeTorp s k

/-- `udtorps`. -/
def udtorps (s : Server) : Server := (List.range numTorps).foldl udtorp s

end Netrek.Daemon
