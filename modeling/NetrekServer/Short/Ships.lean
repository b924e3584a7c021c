/-
`updateShips` of `ntserv/genspkt.c`: what one client is told of the players in one update. Each kind of packet is sent
when it differs from what was sent last. `sndLogin` is left out.
-/
import NetrekServer.Short.Players

namespace Netrek.Short

open Netrek.Lib

def spPlayerInfo : UInt8 := 2
def spKills : UInt8 := 3
def spPlayer : UInt8 := 4
def spFlags : UInt8 := 18
def spPStatus : UInt8 := 20
def spHostile : UInt8 := 22
def spFlagsAll : UInt8 := 33
def spSKills : UInt8 := 58

/-- Number of drawing phases in a cloak engage/disengage. -/
def cloakPhases : Int := 12

/-- Flags we get to know about players not seen. -/
def invisoMask : Word := pfCloak ||| pfRobot ||| pfPractr ||| pfDockOk ||| pfObserv ||| pfBpRobot
/-- Flags we get to know about players who are seen. -/
def flagMask : Word := pfShield ||| invisoMask

/-- How much a client is told. -/
inductive HowMuch
  | all
  | most
  | many
  | little
  | least
  deriving DecidableEq

/-- `flags_all`: the two bits for a player. -/
def flagsAllDead : BitVec 2 := 0
def flagsAllCloakOn : BitVec 2 := 1
def flagsAllCloakOffShieldsUp : BitVec 2 := 2
def flagsAllCloakOffShieldsDown : BitVec 2 := 3

/-! ## State -/

/-- The process of a client; a shadow is `none` or -1 as long as nothing was sent, or if it is to be sent again. -/
structure Ships extends VScreen where
  setup : Setup
  hiddenenemy : Bool
  galacticSmooth : Bool
  /-- `F_flags_all`. -/
  flagsAll : Bool
  /-- `F_full_direction_resolution`. -/
  fullDirection : Bool
  /-- `F_show_all_tractors`. -/
  showAllTractors : Bool
  fManySelf : Bool
  fps : Nat
  repCount : Nat
  deadWarp : Nat
  random : Nat → Nat
  mustUpdate : Slot → Bool
  ignored : Slot → Bool
  /-- War and hostility. -/
  clientHostile : Slot → BitVec 8 × BitVec 8
  /-- Ship and team. -/
  clientPlayersInfo : Slot → Option (ShipType × BitVec 8)
  clientKills : Slot → Word
  /-- Flags and tractor. -/
  clientFlags : Slot → Word × UInt8
  clientPStatus : Slot → Option PStatus
  clientPlayers : Slot → PlayerSpacket
  /-- The type of the packet has been filled in. -/
  typed : Slot → Bool
  clientVKills : Cells UInt8
  clientVKillsCount : Nat
  deriving Inhabited

/-- The number of a ship. -/
def shipCode : ShipType → UInt8
  | .scout => 0
  | .destroyer => 1
  | .cruiser => 2
  | .battleship => 3
  | .assault => 4
  | .starbase => 5
  | .sgalaxy => 6
  | .att => 7

/-- The number of a status. -/
def pstatusCode : PStatus → UInt8
  | .pfree => 0
  | .poutfit => 1
  | .palive => 2
  | .pexplode => 3
  | .pdead => 4
  | .pobserv => 5

namespace Ships

def slotByte (i : Slot) : UInt8 := UInt8.ofNat i.val

/-- `sendClientPacket`. -/
def sendPacket (s : Ships) (packet : List UInt8) : Ships := { s with sent := s.sent ++ [packet] }

/-- `efticks`. -/
def efticks (s : Ships) (x : Nat) : Nat := x * (s.fps / 5) / s.player.fpu

/-- `is_invisible_due_idle`. -/
def isInvisibleDueIdle (s : Ships) (i : Slot) : Bool :=
  !s.mem.status.gameup.has guInlDrafting && ({ (default : Server) with setup := s.setup, mem := s.mem } : Server).isIdle i

/-! ## Packets of one kind -/

/-- `sndHostile`: all wars of the player, or only those with my team. -/
def sndHostile (s : Ships) (i : Slot) (howmuch : HowMuch) : Ships :=
  let pl := s.mem.players i
  let war := if howmuch = .all then pl.swar else pl.swar &&& s.player.team
  let hostile := if howmuch = .all then pl.hostile else pl.hostile &&& s.player.team
  let was := s.clientHostile i
  if war != was.1.signExtend 32 || hostile != was.2.signExtend 32 then
    let now : BitVec 8 × BitVec 8 := (war.setWidth 8, hostile.setWidth 8)
    { s with clientHostile := Function.update s.clientHostile i now }.sendPacket
      [spHostile, slotByte i, UInt8.ofBitVec now.1, UInt8.ofBitVec now.2]
  else s

/-- `sndPlayerInfo`. -/
def sndPlayerInfo (s : Ships) (i : Slot) : Ships :=
  let pl := s.mem.players i
  let same := match s.clientPlayersInfo i with
    | some (type, team) => type == pl.ship.type && team.signExtend 32 == pl.team
    | none => false
  if same then s
  else
    let team : BitVec 8 := pl.team.setWidth 8
    { s with clientPlayersInfo := Function.update s.clientPlayersInfo i (some (pl.ship.type, team)) }.sendPacket
      [spPlayerInfo, slotByte i, shipCode pl.ship.type, UInt8.ofBitVec team]

/-- The kills as a packet has them. -/
def kills100 (pl : Player) : Word := BitVec.ofInt 32 pl.hundredths

/-- `addVKills`: ten bits for the kills, six for the player. -/
def addVKills (s : Ships) (i : Slot) : Ships :=
  let shiftkills : BitVec 16 := (kills100 (s.mem.players i)).setWidth 16 ||| (BitVec.ofNat 16 i.val <<< 10)
  { s with clientVKills := s.clientVKills.write (2 + 2 * s.clientVKillsCount)
             [UInt8.ofBitVec (shiftkills.setWidth 8), UInt8.ofBitVec ((shiftkills >>> 8).setWidth 8)],
           clientVKillsCount := s.clientVKillsCount + 1 }

/-- `sndKills`. -/
def sndKills (s : Ships) (i : Slot) : Ships :=
  let pl := s.mem.players i
  let kills := kills100 pl
  if s.clientKills i != kills then
    let s := { s with clientKills := Function.update s.clientKills i kills }
    if 1 < s.sendShort ∧ toFloat (pl.kills * 100) < 1001 ∧ i.val < 64 then s.addVKills i
    else s.sendPacket ([spKills, slotByte i, 0, 0] ++ Network.word kills)
  else s

/-- `sendVKills`. -/
def sendVKills (s : Ships) : Ships :=
  if s.clientVKillsCount ≠ 0 then
    let v := s.clientVKills.write 0 [spSKills, UInt8.ofNat s.clientVKillsCount]
    let count := 2 + s.clientVKillsCount * 2
    let count := if count % 4 ≠ 0 then count + (4 - count % 4) else count
    { s with clientVKills := v, clientVKillsCount := count, sent := s.sent ++ [v.read 0 count] }
  else s

/-- `sndFlags`. -/
def sndFlags (s : Ships) (i : Slot) (howmuch : HowMuch) : Ships :=
  let pl := s.mem.players i
  let tractors := s.showAllTractors || s.fManySelf
  let observes := !s.fManySelf && pl.status == .pobserv
  let tractor : UInt8 := if !observes && tractors && pl.flags.has pfTract then slotByte pl.tractor ||| 0x40 else 0
  let mask : Word :=
    if observes then pfObserv
    else if howmuch = .all then if tractors then flagMask ||| (pfTract ||| pfPress) else flagMask
    else invisoMask
  let masked := pl.flags &&& mask
  if s.clientFlags i = (masked, tractor) then s
  else
    { s with clientFlags := Function.update s.clientFlags i (masked, tractor) }.sendPacket
      ([spFlags, slotByte i, tractor, 0] ++ Network.word masked)

/-- `observed_status`. -/
def observedStatus (s : Ships) (i : Slot) : PStatus :=
  let pl := s.mem.players i
  if pl.status ≠ .pobserv then pl.status else if i = s.me then .palive else .poutfit

/-- `sndPStatus`; the second value is whether the status was sent. -/
def sndPStatus (s : Ships) (i : Slot) : Ships × Bool :=
  let ostatus := s.observedStatus i
  if s.clientPStatus i ≠ some ostatus then
    ({ s with clientPStatus := Function.update s.clientPStatus i (some ostatus),
              deadWarp := if s.deadWarp ≠ 0 then 1 else s.deadWarp }.sendPacket
      [spPStatus, slotByte i, pstatusCode ostatus, 0], true)
  else (s, false)

/-! ## Positions -/

/-- Where a hidden player is said to be. -/
def nowhere : Word := BitVec.ofInt 32 (-10000)

def setPlayer (s : Ships) (i : Slot) (cpl : PlayerSpacket) : Ships :=
  { s with clientPlayers := Function.update s.clientPlayers i cpl, typed := Function.update s.typed i true }

/-- The position is nowhere; a dead player has warp 14, and a direction that changes each time. -/
def vanish (s : Ships) (i : Slot) (dead : Bool) : Ships :=
  if dead then
    { s.setPlayer i ⟨i, UInt8.ofNat s.deadWarp, 0xe, nowhere, nowhere⟩ with deadWarp := s.deadWarp + 1 }
  else s.setPlayer i ⟨i, 0, 0, nowhere, nowhere⟩

/-- One coordinate made inaccurate. -/
def jitter (s : Ships) (x : Int) : Word × Ships :=
  (BitVec.ofInt 32 (x + (s.random 0 : Int) % 2000 - 1000), { s with random := fun n => s.random (n + 1) })

/-- `updtPlayer`; the second value is whether the packet is to be sent. -/
def updtPlayer (s : Ships) (i : Slot) (howmuch : HowMuch) : Ships × Bool :=
  let pl := s.mem.players i
  let cpl := s.clientPlayers i
  let dead := (pl.status == .pdead || pl.status == .pexplode) && s.deadWarp != 0
  if howmuch = .least then
    if cpl.x = nowhere ∧ cpl.y = nowhere then (s, false) else (s.vanish i dead, true)
  else if BitVec.ofInt 32 pl.x ≠ cpl.x ∨ BitVec.ofInt 32 pl.y ≠ cpl.y ∨ pl.dir ≠ cpl.dir ∨
      pl.speed ≠ cpl.speed.toBitVec.toInt then
    if dead then (s.vanish i true, true)
    else if howmuch = .little then (s, true)
    else if howmuch = .many then
      let (x, s) := s.jitter pl.x
      let (y, s) := s.jitter pl.y
      (s.setPlayer i ⟨i, cpl.dir, 0xf, x, y⟩, true)
    else
      let speed := if howmuch = .all then UInt8.ofBitVec (BitVec.ofInt 8 pl.speed) else 0xf
      (s.setPlayer i ⟨i, pl.dir, speed, BitVec.ofInt 32 pl.x, BitVec.ofInt 32 pl.y⟩, true)
  else (s, false)

/-- `sndPlayer`: as a record of `SP_S_PLAYER`, or as a packet of its own, which is refused if it has no type yet. -/
def sndPlayer (s : Ships) (i : Slot) (howmuch : HowMuch) : Ships :=
  let r := s.updtPlayer i howmuch
  let s := r.1
  if r.2 then
    let cpl := s.clientPlayers i
    if s.sendShort ≠ 0 ∧ !s.fullDirection then { s with toVScreen := s.toVScreen.updateVPlayer cpl }
    else if s.typed i then
      s.sendPacket ([spPlayer, slotByte cpl.pnum, cpl.dir, cpl.speed] ++ Network.word cpl.x ++ Network.word cpl.y)
    else s
  else s

/-! ## Shields and cloaks -/

/-- Two bits for a player who is there. -/
def aliveFlags (pl : Player) : BitVec 2 :=
  if pl.flags.has pfCloak then flagsAllCloakOn
  else if pl.flags.has pfShield then flagsAllCloakOffShieldsUp
  else flagsAllCloakOffShieldsDown

/-- The new flag sampling of S_P2; shield and cloak are marked as updated. -/
def sampleFlags (s : Ships) (i : Slot) : Ships :=
  let pl := s.mem.players i
  if 1 < s.sendShort ∧ (pl.status ≠ .pobserv ∨ i = s.me) then
    let s := match pl.status with
      | .pobserv | .palive =>
        { s with highestActivePlayer := i.val, nFlags := Function.update s.nFlags i (aliveFlags pl) }
      | .pexplode | .pdead => { s with highestActivePlayer := i.val, nFlags := Function.update s.nFlags i 0 }
      | _ => { s with nFlags := Function.update s.nFlags i 0 }
    if s.fullDirection && !s.flagsAll then s
    else
      let old := s.clientFlags i
      let flags := (old.1 &&& ~~~(pfShield ||| pfCloak)) ||| (pl.flags &&& (pfShield ||| pfCloak))
      { s with clientFlags := Function.update s.clientFlags i (flags, old.2) }
  else s

/-- One round of the loop of `updateFlagsAll`. -/
def sampleAll (s : Ships) (i : Slot) : Ships :=
  let pl := s.mem.players i
  let flags := match pl.status with
    | .pobserv | .palive => aliveFlags pl
    | _ => flagsAllDead
  { s with nFlags := Function.update s.nFlags i flags }

/-- `updateFlagsAll`: the flags of sixteen players. -/
def updateFlagsAll (s : Ships) (offset : Nat) : Ships :=
  let s := (List.range 16).foldl (fun s i => s.sampleAll (Fin.ofNat maxPlayer (16 * offset + i))) s
  s.sendPacket ([spFlagsAll, UInt8.ofNat offset, 0, 0] ++ Network.word (s.flagWord offset))

/-! ## One update -/

/-- The start of `updateShips`. -/
def begin (s : Ships) : Ships :=
  { s with toVScreen := { s.toVScreen.start with highestActivePlayer := 0 }, clientVKillsCount := 0 }

/-- The player is not seen by me. -/
def hides (s : Ships) (i : Slot) : Bool :=
  let pl := s.mem.players i
  (s.hiddenenemy && pl.team != s.player.team && !pl.flags.has pfSeen && s.mem.status.tourn) ||
    (pl.status == .pobserv && i != s.me) || (s.isInvisibleDueIdle i && i != s.me)

/-- The player is off my screen. -/
def offScreen (s : Ships) (pl : Player) : Bool :=
  decide (pl.y > s.player.y + scale * winside / 2) || decide (pl.x > s.player.x + scale * winside / 2) ||
    decide (pl.x < s.player.x - scale * winside / 2) || decide (pl.y < s.player.y - scale * winside / 2)

/-- What was sent last is off my screen: the comparisons are unsigned. -/
def wasOffScreen (s : Ships) (cpl : PlayerSpacket) : Bool :=
  let unsigned (v : Int) : Nat := (BitVec.ofInt 32 v).toNat
  decide (cpl.x.toNat < unsigned (s.player.x - scale * winside / 2)) ||
    decide (cpl.x.toNat > unsigned (s.player.x + scale * winside / 2)) ||
    decide (cpl.y.toNat > unsigned (s.player.y + scale * winside / 2)) ||
    decide (cpl.y.toNat < unsigned (s.player.y - scale * winside / 2))

/-- The wars of the player. -/
def hostility (s : Ships) (i : Slot) : HowMuch :=
  if i = s.me ∨ (!s.player.flags.has pfRobot && s.player.team == nobody) then .all
  else if s.isInvisibleDueIdle i then .least
  else .most

/-- The position of a player who is seen; `update` is whether the status was sent. -/
def position (s : Ships) (i : Slot) (update : Bool) : Ships :=
  let pl := s.mem.players i
  let cpl := s.clientPlayers i
  let due := s.repCount % s.efticks 9 == 0
  if !update && !s.galacticSmooth && !due && s.wasOffScreen cpl && s.offScreen pl then s
  else if pl.flags.has pfCloak && pl.cloakphase == cloakPhases - 1 && i != s.me && !s.mustUpdate i then
    if !due then s.sndPlayer i .little else s.sndPlayer i .many
  else if i != s.me && pl.flags.has pfCloak then s.sndPlayer i .most
  else s.sndPlayer i .all

/-- One round of the loop over the players. -/
def ship (s : Ships) (i : Slot) : Ships :=
  let s := s.sndHostile i (s.hostility i)
  let s := s.sndPlayerInfo i
  let s := s.sndKills i
  let s := s.sampleFlags i
  let r := s.sndPStatus i
  let update := r.2
  let s := if update ∧ (r.1.mem.players i).status = .pfree then
      { r.1 with ignored := Function.update r.1.ignored i false } else r.1
  if s.hides i then
    let s := if i ≠ s.me then s.sndFlags i .most else s
    s.sndPlayer i .least
  else
    let s := if i ≠ s.me then s.sndFlags i .all else s
    s.position i update

/-- The packets after the loop. -/
def finish (s : Ships) : Ships :=
  let s := if s.sendShort ≠ 0 ∧ (12 < s.clientVPlayerCount ∨ s.big ∨ 1 < s.sendShort) then
      { s with toVScreen := s.toVScreen.sendVPlayers } else s
  let s := if 1 < s.sendShort then s.sendVKills else s
  if s.flagsAll ∧ (s.sendShort ≠ 0 → s.fullDirection) then
    let s := s.updateFlagsAll 0
    if 15 < s.highestActivePlayer then s.updateFlagsAll 1 else s
  else s

/-- `updateShips`. -/
def updateShips (s : Ships) : Ships := ((List.finRange maxPlayer).foldl ship s.begin).finish

end Ships

end Netrek.Short
