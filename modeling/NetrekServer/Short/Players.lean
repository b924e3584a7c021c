/-
`updateVPlayer` and `sendVPlayers` of `ntserv/genspkt.c`: the records of the other ships are collected in a buffer
behind room for the largest header, and the header goes before them once it is known which one it is.
-/
import NetrekServer.Lib.Network
import NetrekServer.Short.Torps

namespace Netrek.Short

open Netrek.Lib

def spSPlayer : UInt8 := 45

/-- `struct player_spacket`, in host order. -/
structure PlayerSpacket where
  pnum : Slot
  dir : UInt8
  speed : UInt8
  x : Word
  y : Word
  deriving DecidableEq, Inhabited

/-- The process of a client, as far as the packets of the ships go. -/
structure VScreen where
  mem : Memory
  me : Slot
  /-- `send_short`: 1 for S_P1, 2 for S_P2. -/
  sendShort : Nat
  /-- `MAXPLAYER * VPLAYER_SIZE + 16` bytes. -/
  clientVPlayers : Cells UInt8
  clientVPlayerCount : Nat
  /-- Flag to remind that the big header must be sent. -/
  big : Bool
  /-- `n_flags`: two bits for each player. -/
  nFlags : Slot → BitVec 2
  highestActivePlayer : Nat
  sent : List (List UInt8)
  deriving Inhabited

/-- The macro `rosette`. -/
def rosette (dir : UInt8) : UInt8 := UInt8.ofNat ((dir.toNat + 8) / 16 % 16)

/-- A record: bits 0 to 4 of the first byte are the player, bit 5 is set for the galactic map, bits 6 and 7 are the
ninth bits of the coordinates. -/
def recordBytes (p : PlayerSpacket) (galactic : UInt8) (dx dy : Int) : List UInt8 :=
  let dx : Word := BitVec.ofInt 32 dx
  let dy : Word := BitVec.ofInt 32 dy
  [UInt8.ofNat p.pnum.val ||| UInt8.ofBitVec (((dx &&& 256) >>> 2).setWidth 8) |||
      UInt8.ofBitVec (((dy &&& 256) >>> 1).setWidth 8) ||| galactic,
    (p.speed &&& (0x0f : UInt8)) ||| (rosette p.dir <<< (4 : UInt8)), UInt8.ofBitVec ((dx &&& 0xff).setWidth 8),
    UInt8.ofBitVec ((dy &&& 0xff).setWidth 8)]

namespace VScreen

def player (s : VScreen) : Player := s.mem.players s.me

/-- The ship is on the galactic map only. -/
def farOff (s : VScreen) (p : PlayerSpacket) : Bool :=
  let dx := p.x.toInt - s.player.x
  let dy := p.y.toInt - s.player.y
  decide (dx > Screen.view) || decide (dx < -Screen.view) || decide (dy > Screen.view) || decide (dy < -Screen.view)

/-- The coordinates on the galactic map, 501 if clipped. -/
def galacticPlace (p : PlayerSpacket) : Int × Int :=
  let dx := (p.x.toInt * winside).tdiv gWidth
  let dy := (p.y.toInt * winside).tdiv gWidth
  if dx < 0 ∨ dy < 0 ∨ winside ≤ dx ∨ winside ≤ dy then (501, 501) else (dx, dy)

/-- The record of another ship. -/
def record (s : VScreen) (p : PlayerSpacket) : List UInt8 :=
  if s.farOff p then recordBytes p 32 (galacticPlace p).1 (galacticPlace p).2
  else recordBytes p 0 (Screen.pixel p.x.toInt s.player.x) (Screen.pixel p.y.toInt s.player.y)

/-- What the header has of my own ship, from its third byte on. -/
def ownBytes (s : VScreen) (p : PlayerSpacket) : List UInt8 :=
  if 1 < s.sendShort then
    [p.dir, p.speed] ++ Network.half (((p.x + 20) / 40).setWidth 16) ++ Network.half (((p.y + 20) / 40).setWidth 16)
  else [p.dir, p.speed] ++ Network.word p.x ++ Network.word p.y

/-- `updateVPlayer`. -/
def updateVPlayer (s : VScreen) (p : PlayerSpacket) : VScreen :=
  if p.pnum = s.me then { s with clientVPlayers := s.clientVPlayers.write 2 (s.ownBytes p), big := true }
  else
    let v : Cells UInt8 := Function.update s.clientVPlayers 1 (s.clientVPlayers 1 + 1)
    { s with clientVPlayers := v.write s.clientVPlayerCount (s.record p), clientVPlayerCount := s.clientVPlayerCount + 4 }

/-- The flags of sixteen players, two bits each. -/
def flagWord (s : VScreen) (offset : Nat) : Word :=
  (List.range 16).foldl (fun new i => new ||| ((s.nFlags (Fin.ofNat maxPlayer (16 * offset + i))).setWidth 32 <<< (2 * i))) 0

/-- These bytes go to `pos`, and a packet that starts at `start` is given to `sendClientPacket`. -/
def emit (s : VScreen) (pos : Nat) (bytes : List UInt8) (start size : Nat) : VScreen :=
  let v := s.clientVPlayers.write pos bytes
  { s with clientVPlayers := v, sent := s.sent ++ [v.read start size] }

/-- There are players beyond the sixteenth. -/
def upperActive (s : VScreen) : Bool := decide (15 < s.highestActivePlayer) && decide (s.highestActivePlayer < 32)

/-- The header goes before the records. -/
def sendRecords (s : VScreen) : VScreen :=
  let n := (s.clientVPlayers 1).toNat
  if s.big then
    if 1 < s.sendShort then
      let s := s.emit 8 (Network.word (s.flagWord 0)) 0 (12 + n * 4)
      -- the header is used again, for the flags of the others
      if s.upperActive then s.emit 4 ([spSPlayer, 64, 1, 1] ++ Network.word (s.flagWord 1)) 4 8 else s
    else s.emit 0 [] 0 (12 + n * 4)
  else if 12 < s.clientVPlayerCount then
    let packets := s.clientVPlayers 1 ||| 64
    if 1 < s.sendShort then
      if s.upperActive then
        s.emit 0 ([spSPlayer, packets, 2, 1] ++ Network.word (s.flagWord 1) ++ Network.word (s.flagWord 0)) 0 (12 + n * 4)
      else s.emit 4 ([spSPlayer, packets, 1, 0] ++ Network.word (s.flagWord 0)) 4 (8 + n * 4)
    else s.emit 8 [spSPlayer, packets, 0, 0] 8 (4 + n * 4)
  else s

/-- `sendVPlayers`. -/
def sendVPlayers (s : VScreen) : VScreen :=
  { s with clientVPlayers := Function.update s.clientVPlayers 0 spSPlayer }.sendRecords

/-- The start of `updateShips`, as far as the records go. -/
def start (s : VScreen) : VScreen :=
  { s with clientVPlayerCount := 12, clientVPlayers := Function.update s.clientVPlayers 1 0, big := false }

end VScreen

end Netrek.Short
