/-
`SupdateTorps` of `ntserv/genspkt.c`: what one client is told of the torps in short packets, eight torps at a time.
A position takes nine bits for each coordinate, and the fields of a packet share bytes; a packet is laid out once it
is known how many there are.
-/
import NetrekServer.Lib.Cells
import NetrekServer.Server

namespace Netrek.Short

open Netrek.Lib

def scale : Int := 40
/-- Size of strategic and tactical windows. -/
def winside : Int := 500

def spSTorp : UInt8 := 47
def spSTorpInfo : UInt8 := 48
def spS8Torp : UInt8 := 49

/-- How big is the `SP_S_TORP` packet. -/
def vtsize (n : Nat) : Nat := [4, 8, 8, 12, 12, 16, 20, 20, 24].getD n 0

/-- How big is Torpdata. -/
def vtdata (n : Nat) : Nat := [0, 3, 5, 7, 9, 12, 14, 16, 18].getD n 0

/-- `sizes[SP_S_8_TORP]`. -/
def size8Torp : Nat := 20

/-! ## State -/

/-- `struct torp_info_spacket`: what the client was told of a torp. -/
structure TorpInfo where
  war : BitVec 8
  /-- `none` for -1, so that the status is sent in any case. -/
  status : Option TStatus
  deriving DecidableEq, Inhabited

/-- `struct torp_spacket`: where the client was told it is. -/
structure TorpSpot where
  dir : UInt8
  x : Int
  y : Int
  deriving DecidableEq, Inhabited

/-- The process of a client: what it reads and what it has sent. -/
structure Screen where
  mem : Memory
  me : Slot
  /-- `F_full_weapon_resolution`. -/
  fullWeaponResolution : Bool
  clientTorpsInfo : Nat → TorpInfo
  clientTorps : Nat → TorpSpot
  /-- 40 bytes. -/
  clientVTorps : Cells UInt8
  /-- 16 bytes. -/
  clientVTorpsInfo : Cells UInt8
  /-- Flag to remind that `SP_S_TORP` must be sent. -/
  mustsend : Bool
  /-- The packets given to `sendClientPacket`, as long as their sizes say. -/
  sent : List (List UInt8)
  deriving Inhabited

/-- The variables of the loop over eight torps. -/
structure Group extends Screen where
  shift : Nat
  numtorps : Nat
  infobitset : UInt8
  torpbitset : UInt8
  /-- Where the next coordinate goes in `clientVTorps`. -/
  torpXy : Nat
  /-- Where the next info goes in `clientVTorpsInfo`. -/
  tinfo : Nat
  deriving Inhabited

/-- The number of a torp's status. -/
def statusCode : TStatus → UInt8
  | .tfree => 0
  | .tmove => 1
  | .texplode => 2
  | .tdet => 3
  | .toff => 4

/-- `01 << i` in a byte. -/
def bit (i : Nat) : UInt8 := UInt8.ofNat (1 <<< i)

/-- An info byte. -/
def infoByte (war : BitVec 8) (status : TStatus) : UInt8 := (UInt8.ofBitVec war &&& (0x0f : UInt8)) ||| (statusCode status <<< (4 : UInt8))

namespace Screen

def player (s : Screen) : Player := s.mem.players s.me

/-- `t_war`, a byte. -/
def uwar (s : Screen) (k : Nat) : Word := ((s.mem.torps k).war.setWidth 8).setWidth 32

/-- The torp is mine. -/
def own (s : Screen) (k : Nat) : Bool := (s.mem.torps k).owner == s.me

/-- `SCALE * WINSIDE / 2`. -/
def view : Int := scale * winside / 2

/-- The test for own torps. -/
def offScreen (s : Screen) (k : Nat) : Bool :=
  let dx := (s.mem.torps k).x - s.player.x
  let dy := (s.mem.torps k).y - s.player.y
  decide (dx > view) || decide (dx < -view) || decide (dy > view) || decide (dy < -view)

/-- The test for the torps of others. -/
def outOfView (s : Screen) (k : Nat) : Bool :=
  let torp := s.mem.torps k
  decide (torp.y > s.player.y + scale * winside / 2) || decide (torp.x > s.player.x + scale * winside / 2) ||
    decide (torp.x < s.player.x - scale * winside / 2) || decide (torp.y < s.player.y - scale * winside / 2) ||
    torp.status == .tfree

/-- The torp is not where the client was told, or it stands still. -/
def moved (s : Screen) (k : Nat) : Bool :=
  let torp := s.mem.torps k
  (s.clientTorps k).x != torp.x || (s.clientTorps k).y != torp.y || (torp.gspeed == 0 && torp.status != .tfree)

/-- A coordinate in pixels of the window. -/
def pixel (t me : Int) : Int := t.tdiv scale - me.tdiv scale + winside / 2

def setInfo (s : Screen) (k : Nat) (war : BitVec 8) (status : TStatus) : Screen :=
  { s with clientTorpsInfo := Function.update s.clientTorpsInfo k ⟨war, some status⟩ }

/-- `tpi->status = status`. -/
def setStatus (s : Screen) (k : Nat) (status : TStatus) : Screen := s.setInfo k (s.clientTorpsInfo k).war status

/-- The client is told where the torp is. -/
def setSpot (s : Screen) (k : Nat) : Screen :=
  let torp := s.mem.torps k
  { s with clientTorps := Function.update s.clientTorps k ⟨torp.dir, torp.x, torp.y⟩ }

end Screen

namespace Group

/-! ## Coordinates and infos -/

/-- A coordinate goes where the last left off. -/
def put (g : Group) (d : Int) : Group :=
  let d : Word := BitVec.ofInt 32 d <<< g.shift
  let v := Function.update g.clientVTorps g.torpXy (g.clientVTorps g.torpXy ||| UInt8.ofBitVec ((d &&& 255).setWidth 8))
  let v := Function.update v (g.torpXy + 1) (UInt8.ofBitVec ((d >>> 8 &&& 255).setWidth 8))
  { g with clientVTorps := v, torpXy := g.torpXy + 1, shift := g.shift + 1 }

/-- Eight coordinates end with a full byte. -/
def carry (g : Group) : Group :=
  if g.shift = 8 then
    { g with shift := 0, torpXy := g.torpXy + 1, clientVTorps := Function.update g.clientVTorps (g.torpXy + 1) 0 }
  else g

/-- The torp is in the packet, at these coordinates. -/
def putTorp (g : Group) (i : Nat) (dx dy : Int) : Group :=
  let g := { g with torpbitset := g.torpbitset ||| bit i, numtorps := g.numtorps + 1 }
  ((g.put dx).put dy).carry

/-- Info of the torp goes into the packet. -/
def putInfo (g : Group) (i : Nat) (war : BitVec 8) (status : TStatus) : Group :=
  { g with infobitset := g.infobitset ||| bit i,
           clientVTorpsInfo := Function.update g.clientVTorpsInfo g.tinfo (infoByte war status), tinfo := g.tinfo + 1 }

def withScreen (g : Group) (s : Screen) : Group := { g with toScreen := s }

/-! ## Own torps -/

/-- War and status of my torp; the second value is whether the position follows. -/
def ownInfo (g : Group) (k i : Nat) : Group × Bool :=
  let torp := g.mem.torps k
  let tpi := g.clientTorpsInfo k
  if g.uwar k != tpi.war.signExtend 32 || some torp.status != tpi.status then
    if g.uwar k == tpi.war.signExtend 32 then
      -- moving and free torps are known by the bitset of the packet
      match torp.status with
      | .tfree =>
        let g := if tpi.status = some .texplode then g.putInfo i tpi.war torp.status else { g with mustsend := true }
        (g.withScreen ((g.setStatus k torp.status).setSpot k), false)
      | .tmove => (g.withScreen (g.setStatus k torp.status), true)
      | _ => ((g.withScreen (g.setStatus k torp.status)).putInfo i tpi.war torp.status, true)
    else
      let war := torp.war.setWidth 8
      ((g.withScreen (g.setInfo k war torp.status)).putInfo i war torp.status, true)
  else (g, true)

/-- The position of my torp. -/
def ownSpot (g : Group) (k i : Nat) : Group :=
  let torp := g.mem.torps k
  if g.moved k then
    let g := g.withScreen (g.setSpot k)
    -- any torps off screen appear at 501
    if g.offScreen k then g.putTorp i 501 501
    else g.putTorp i (Screen.pixel torp.x g.player.x) (Screen.pixel torp.y g.player.y)
  else g

def ownTorp (g : Group) (k i : Nat) : Group :=
  -- with full weapon resolution, self torps are sent by `updateTorps`
  if g.fullWeaponResolution then g
  else
    let r := g.ownInfo k i
    if r.2 then r.1.ownSpot k i else r.1

/-! ## Torps of others -/

/-- War, as far as it concerns me, and status of someone else's torp in view. -/
def otherInfo (g : Group) (k i : Nat) : Group × Bool :=
  let torp := g.mem.torps k
  let tpi := g.clientTorpsInfo k
  let war := g.uwar k &&& g.player.team
  if some torp.status != tpi.status || war != tpi.war.signExtend 32 then
    if war == tpi.war.signExtend 32 then
      match torp.status with
      | .tfree => ({ g.withScreen ((g.setStatus k torp.status).setSpot k) with mustsend := true }, false)
      | .tmove => (g.withScreen (g.setStatus k torp.status), true)
      | _ => ((g.withScreen (g.setStatus k torp.status)).putInfo i tpi.war torp.status, true)
    else ((g.withScreen (g.setInfo k (war.setWidth 8) torp.status)).putInfo i (war.setWidth 8) torp.status, true)
  else (g, true)

def otherSpot (g : Group) (k i : Nat) : Group :=
  let torp := g.mem.torps k
  if g.moved k then
    let g := g.withScreen (g.setSpot k)
    g.putTorp i (Screen.pixel torp.x g.player.x) (Screen.pixel torp.y g.player.y)
  else g

def otherTorp (g : Group) (k i : Nat) : Group :=
  let torp := g.mem.torps k
  let tpi := g.clientTorpsInfo k
  if g.outOfView k then
    if torp.status = .tfree ∧ tpi.status = some .texplode then g.withScreen (g.setStatus k .tfree)
    else if tpi.status ≠ some .tfree then { g.withScreen (g.setStatus k .tfree) with mustsend := true }
    else g
  else
    let r := g.otherInfo k i
    if r.2 then r.1.otherSpot k i else r.1

/-! ## Groups of eight -/

def torp (j : Nat) (g : Group) (i : Nat) : Group :=
  if g.own (8 * j + i) then g.ownTorp (8 * j + i) i else g.otherTorp (8 * j + i) i

/-- The loop over the torps of a group. -/
def scan (g : Group) (j n : Nat) : Group := (List.range n).foldl (torp j) g

/-- A packet with these bytes at `pos`, given to `sendClientPacket`. -/
def emit (g : Group) (pos : Nat) (header : List UInt8) (size : Nat) : Screen :=
  let v := g.clientVTorps.write pos header
  { g.toScreen with clientVTorps := v, sent := g.sent ++ [v.read pos size], mustsend := false }

/-- A size filled up to a multiple of four. -/
def roundUp (size : Nat) : Nat := if size % 4 ≠ 0 then size + (4 - size % 4) else size

/-- Is there something to send? -/
def send (g : Group) (j : Nat) : Screen :=
  if g.infobitset ≠ 0 then
    let dest := 4 + vtdata g.numtorps
    let v := g.clientVTorps.write dest (g.clientVTorpsInfo.read 0 g.tinfo)
    let size := roundUp (4 + vtdata g.numtorps + g.tinfo)
    { g with clientVTorps := v }.emit 0 [spSTorpInfo, g.torpbitset, UInt8.ofNat j, g.infobitset] size
  else if g.torpbitset ≠ 0 then
    -- with all eight there is no need of the bitset
    if g.numtorps = 8 then g.emit 2 [spS8Torp, UInt8.ofNat j] size8Torp
    else g.emit 1 [spSTorp, g.torpbitset, UInt8.ofNat j] (vtsize g.numtorps)
  else if g.mustsend then g.emit 1 [spSTorp, g.torpbitset, UInt8.ofNat j] 4
  else g.toScreen

end Group

namespace Screen

/-- The variables at the start of a group; the first data byte is cleared. -/
def group (s : Screen) : Group :=
  { s with shift := 0, numtorps := 0, infobitset := 0, torpbitset := 0, torpXy := 4,
           clientVTorps := Function.update s.clientVTorps 4 0, tinfo := 0 }

/-- One round of the loop over the groups. -/
def updateGroup (s : Screen) (j : Nat) : Screen := (s.group.scan j 8).send j

/-- `SupdateTorps`. -/
def supdateTorps (s : Screen) : Screen :=
  (List.range (maxPlayer * maxTorp / 8)).foldl updateGroup { s with mustsend := false }

end Screen

end Netrek.Short
