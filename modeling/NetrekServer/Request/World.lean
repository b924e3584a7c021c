/-
What a client's requests act on: shared memory and the variables of the process that serves the
client. An index that a packet supplies is checked where the table is read: out of range is a
fault, as is a division by zero.
-/
import Mathlib.Data.PNat.Basic
import NetrekServer.Queue.Basic
import NetrekServer.Struct
import NetrekServer.Uplink.Basic

namespace Netrek.Request

/-! ## Faults -/

inductive Fault
  | players (i : Int)
  | planets (i : Int)
  | ignored (i : Int)
  | divide
  deriving DecidableEq

/-- The slot that `players[i]` names. -/
def playerAt (i : Int) : Except Fault Slot :=
  if h : 0 ≤ i ∧ i < maxPlayer then .ok ⟨i.toNat, by omega⟩ else .error (.players i)

/-- The planet that `planets[i]` names. -/
def planetAt (i : Int) : Except Fault (Fin maxPlanets) :=
  if h : 0 ≤ i ∧ i < maxPlanets then .ok ⟨i.toNat, by omega⟩ else .error (.planets i)

/-- The slot that `ignored[i]` names. -/
def ignoredAt (i : Int) : Except Fault Slot :=
  if h : 0 ≤ i ∧ i < maxPlayer then .ok ⟨i.toNat, by omega⟩ else .error (.ignored i)

def divide (a b : Nat) : Except Fault Nat := if b = 0 then .error .divide else .ok (a / b)

/-- A divisor, of integers or of doubles. -/
def divisor (b : Int) : Except Fault Int := if b = 0 then .error .divide else .ok b

/-! ## The process -/

/-- The update rates of the configuration. -/
structure Rates where
  minups : Nat
  maxups : Nat
  fps : Nat
  minups_pos : 0 < minups
  maxups_pos : 0 < maxups
  fps_pos : 0 < fps

instance : Inhabited Rates := ⟨⟨1, 50, 50, by decide, by decide, by decide⟩⟩

/-- A planet as `SP_PLANET` tells the client. -/
structure PlanetSPacket where
  pnum : Fin maxPlanets
  owner : Word
  info : Word
  flags : Word
  armies : Int

def pingSlots : Nat := 32

/-- `ping_sent[]`. -/
structure PingSent where
  time : Int
  packetsSentAtPing : Int
  responded : Bool
  deriving Inhabited

/-- The variables of `ping.c`; packet counts are machine integers. -/
structure Pings where
  ping : Bool
  freq : Nat
  ghostbust : Nat
  lastNum : Int
  lag : Int
  sent : Fin pingSlots → PingSent
  packetsSent : Int32
  packetsReceived : Int32
  oldStoCDropped : Int32
  oldCtoSDropped : Int32
  incPacketsSent : Int
  incPacketsReceived : Int32
  incStoCDropped : Int32
  incCtoSDropped : Int32
  ilossInterval : ℕ+
  timer : Int
  tlossSc : ℚ
  tlossCs : ℚ
  ilossSc : Int
  ilossCs : Int
  n : Nat
  sum : Int
  s2 : Int
  deriving Inhabited

/-- The variables of the process. -/
structure Proc where
  me : Slot
  observer : Bool
  tractorAllowed : Bool
  checkPlanets : Bool
  sendShort : Bool
  featurePackets : Bool
  rates : Rates
  pings : Pings
  mute : Bool
  muteall : Bool
  observerMuting : Bool
  whitelisted : Bool
  inlMode : Bool
  inRobot : Bool
  tourn : Bool
  lasttime : Int
  balance : Int
  ignored : Slot → Word
  dooshignore : Bool
  macroignore : Bool
  binconfirm : Bool
  clue : Bool
  clueVerified : Bool
  clueString : Option String
  clueFuse : Nat
  clueCount : Nat
  deriving Inhabited

/-- Shared memory, the process, and what it has put out: warnings to the client, as text or by number,
messages, planet packets, the file of a player's ignore masks, and the counts of planet checks. -/
structure World where
  mem : Memory
  queues : Nat → Queue.PQueue
  shipvals : ShipType → Ship
  inlHomePick : Int
  inlAwayPick : Int
  proc : Proc
  warnings : List String
  shortWarnings : List (Nat × Nat)
  posts : List Uplink.Call
  sent : List PlanetSPacket
  featureUps : Nat
  ignoreMasks : List (Slot × Word)
  planetMiss : Nat
  planetHits : Nat
  deriving Inhabited

namespace World

def me (w : World) : Player := w.mem.players w.proc.me

def modifyPlayer (w : World) (i : Slot) (f : Player → Player) : World := { w with mem := w.mem.modifyPlayer i f }

def modifyMe (w : World) (f : Player → Player) : World := w.modifyPlayer w.proc.me f

def warn (w : World) (text : String) : World := { w with warnings := w.warnings ++ [text] }

/-- `swarning`. -/
def swarn (w : World) (whichmessage argument : Nat) : World :=
  { w with shortWarnings := w.shortWarnings ++ [(whichmessage, argument)] }

def pmessage (w : World) (recip : Int) (group : Word) (address : String) (mFrom : Int) (fmt text : String) : World :=
  { w with posts := w.posts ++ [⟨recip, group, address, mFrom, fmt, text⟩] }

/-- `god`. -/
def god (w : World) (bounceto : Slot) (msg : String) : World :=
  w.pmessage bounceto.val 0x02 ("GOD->" ++ (w.mem.players bounceto).mapchars) 255 "%s" msg

end World

/-! ## Strings -/

/-- A string as C reads it, up to the first NUL. -/
def cString (s : List Char) : List Char := s.takeWhile (· ≠ Char.ofNat 0)

end Netrek.Request
