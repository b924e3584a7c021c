/-
The output side of `ntserv/socket.c`: packets are collected in `buf` and written to the TCP socket
when it is full or flushed, and in UDP mode the critical ones only. The warnings of
`ntserv/warning.c`, and the client's messages, which `parseIgnore` may answer by way of `buf`.

What the network makes of each `gwrite` is drawn from a sequence of outcomes, as many as are needed.
-/
import NetrekServer.Lib.Cells
import NetrekServer.Request.Message

namespace Netrek.Sending

open Netrek.Lib
open Netrek.Request (World MesgCPacket handleMessageReq silenced carriedAway)

/-! ## State -/

def bufSize : Nat := 16738
def udpBufSize : Nat := 1024
/-- `sizeof(struct sequence_spacket)`. -/
def sequenceSize : Nat := 4
def fatThresh : Nat := 500

/-- `udpMode`. -/
inductive UdpMode
  | tcp
  | simple
  | fat
  | double
  deriving DecidableEq, Inhabited

/-- How a `gwrite` ends: all is written, or it fails after some bytes, having marked the client dead itself or not. -/
inductive Written
  | all
  | failed (n : Nat) (hosed : Bool)
  deriving DecidableEq, Inhabited

/-- A packet in memory, its type in the first byte. -/
abbrev Packet := Cells UInt8

structure Output where
  buf : Cells UInt8
  bufptr : Nat
  udpptr : Nat
  /-- `commMode` is `COMM_UDP`. -/
  udp : Bool
  udpMode : UdpMode
  udpOpen : Bool
  clientDead : Bool
  sizes : UInt8 → Int
  /-- The outcomes of writes to come. -/
  net : Nat → Written
  /-- The bytes written to the TCP socket. -/
  wire : List UInt8
  /-- The packets given for TCP delivery, in the order of the calls. -/
  handed : List (List UInt8)
  deriving Inhabited

namespace Output

/-- What has still to be written to the TCP socket. -/
def pending (o : Output) : List UInt8 := o.buf.read 0 o.bufptr

/-! ## Writing -/

/-- `gwrite` of some bytes of the TCP buffer or of the UDP buffer: whether all were written. -/
def gwrite (o : Output) (tcp : Bool) (bytes : List UInt8) : Output × Bool :=
  if o.clientDead then (o, bytes.isEmpty)
  else if bufSize < bytes.length then (o, false)
  else if bytes.isEmpty then (o, true)
  else
    let n := { o with net := fun k => o.net (k + 1) }
    let w := if tcp then bytes else []
    match o.net 0 with
    | .all => ({ n with wire := o.wire ++ w }, true)
    | .failed k hosed => ({ n with wire := o.wire ++ w.take k, clientDead := hosed }, false)

/-- The pending output goes to the TCP socket. -/
def writeTcp (o : Output) : Output :=
  let r := o.gwrite true o.pending
  { r.1 with bufptr := 0, clientDead := r.1.clientDead || !r.2 }

/-- The UDP buffer is written; a failure ends UDP mode. -/
def writeUdp (o : Output) : Output :=
  let r := o.gwrite false (List.replicate o.udpptr 0)
  { r.1 with udpptr := sequenceSize, udp := r.1.udp && r.2, udpOpen := r.1.udpOpen && r.2 }

/-! ## Packets -/

/-- The packets that may go by UDP, by type; 0x40 marks a semi-critical one. -/
def nonCritical : List UInt8 :=
  [3, 5, 7, 8, 12 ||| 0x40, 15, 18, 22, 43 ||| 0x40, 50, 57, 58, 44, 45, 47, 48, 49, 59, 4, 6, 12, 9, 23, 14, 46, 28,
    32, 33]

/-- The packet without its special flags. -/
def plain (packet : Packet) : Packet := Function.update packet 0 (packet 0 &&& 0x3f)

/-- `sizes` of the packet's type. -/
def size (o : Output) (packet : Packet) : Int := o.sizes (plain packet 0)

/-- The packet is refused as a strange one. -/
def strange (o : Output) (packet : Packet) : Bool := plain packet 0 == 0 || o.size packet == 0

/-- The packet is to be delivered by TCP. -/
def byTcp (o : Output) (packet : Packet) : Bool :=
  !o.strange packet && (!o.udp || o.udpMode == .tcp || !nonCritical.contains (packet 0))

/-- The bytes of a packet, as many as its type is declared to have. -/
def bytes (o : Output) (packet : Packet) : List UInt8 := (plain packet).read 0 (o.size packet).toNat

/-- `sendClientPacket`. -/
def sendClientPacket (o : Output) (packet : Packet) : Output :=
  if o.strange packet then o
  else
    let size := (o.size packet).toNat
    let bytes := o.bytes packet
    if o.byTcp packet then
      let o := if bufSize ≤ o.bufptr + size then o.writeTcp else o
      { o with buf := o.buf.write o.bufptr bytes, bufptr := o.bufptr + size, handed := o.handed ++ [bytes] }
    else
      let o := if udpBufSize ≤ o.udpptr + size then o.writeUdp else o
      { o with udpptr := o.udpptr + size }

/-- `flushSockBuf`; in fat mode `fatten` may add to the UDP buffer. -/
def flushSockBuf (o : Output) (fat : Nat) : Output :=
  if o.clientDead then o
  else
    let o := if o.bufptr ≠ 0 then o.writeTcp else o
    let o := if o.udpOpen && o.udpMode == .fat && decide (o.udpptr < fatThresh) then { o with udpptr := o.udpptr + fat }
      else o
    if o.udpOpen && decide (o.udpptr ≠ 0) then o.writeUdp else o

/-! ## Strings -/

/-- The characters of a string as bytes, with the NUL that ends it. -/
def cBytes (text : String) : List UInt8 := text.toList.map (fun c => c.toNat.toUInt8) ++ [0]

/-- `strcpy` into `buf`, where the pending output is. -/
def strcpy (o : Output) (text : String) : Output := { o with buf := o.buf.write 0 (cBytes text) }

/-! ## Warnings -/

def setSize (o : Output) (type : UInt8) (size : Int) : Output := { o with sizes := Function.update o.sizes type size }

/-- `struct warning_spacket`. -/
def warningPacket (type pad1 pad2 pad3 : UInt8) (mesg : List UInt8) : Packet :=
  fun k => ([type, pad1, pad2, pad3] ++ mesg.take (msgLen - 1)).getD k 0

def spWarning : UInt8 := 10
def spSWarning : UInt8 := 42
def shortWarning : UInt8 := 33
def texte : UInt8 := 0

/-- The length of a text in a short packet, with its header and filled up to a multiple of four. -/
def shortSize (mesg : List UInt8) : Nat := ((mesg.take (msgLen - 1)).length + 5 + 3) / 4 * 4

/-- `warning`. -/
def warning (o : Output) (sendShort : Bool) (text : String) : Output :=
  let mesg := text.toList.map fun c => c.toNat.toUInt8
  if !sendShort then o.sendClientPacket (warningPacket spWarning 0 0 0 mesg)
  else
    let size := shortSize mesg
    let o := o.setSize spSWarning size
    let o := o.sendClientPacket (warningPacket spSWarning shortWarning 0 size.toUInt8 mesg)
    o.setSize spSWarning 4

/-- `spwarning`: a warning the client has the text of. -/
def spwarning (o : Output) (sendShort : Bool) (text : String) (index : UInt8) : Output :=
  if !sendShort then o.warning false text
  else o.sendClientPacket (warningPacket spSWarning texte index 0 [])

/-- The warnings of `handleMessageReq` that have a number. -/
def warningIndex (text : String) : Option UInt8 :=
  if text = "Be quiet" then some 86
  else if text = "You are ignoring that player.  Message was not sent." then some 88
  else none

/-- `new_warning`. -/
def newWarning (sendShort : Bool) (o : Output) (text : String) : Output :=
  match warningIndex text with
  | some index => o.spwarning sendShort text index
  | none => o.warning sendShort text

end Output

/-! ## Messages -/

/-- A message reaches the end of `parseIgnore`, where the status of a player is put together in `buf`. -/
def reachesIgnore (w : World) (p : MesgCPacket) : Bool :=
  let s := Request.cString p.mesg
  (s.head? == some ':' || s == "     ".toList) && decide (p.indiv.toNat ≠ w.proc.me.val) &&
    decide (s.head? ≠ some ' ') && p.groupWord == Request.mIndiv

/-- The message is an ignore command that is answered. -/
def answersIgnore (w : World) (now : Int) (p : MesgCPacket) : Bool :=
  !silenced w p && !carriedAway w now && reachesIgnore w p.cut

/-- The process: what requests act on, and its output. -/
structure Session where
  world : World
  out : Output
  deriving Inhabited

/-- The client's message at the time `now`; its warnings are sent. -/
def Session.message (s : Session) (now : Int) (p : MesgCPacket) : Session :=
  match handleMessageReq s.world now p with
  | .error _ => s
  | .ok w =>
    let warnings := w.warnings.drop s.world.warnings.length
    let out := if answersIgnore s.world now p then s.out.strcpy (String.join warnings) else s.out
    ⟨w, warnings.foldl (Output.newWarning w.proc.sendShort) out⟩

/-! ## Steps -/

inductive Op
  | send (packet : Packet)
  /-- The size of a type of variable length is set before a packet of it is sent. -/
  | setSize (type : UInt8) (size : Int)
  | flush (fat : Nat)
  | message (now : Int) (p : MesgCPacket)
  /-- The client and the server agree on TCP or UDP. -/
  | comm (udp : Bool) (mode : UdpMode) (udpOpen : Bool)
  /-- The game, and all other requests. -/
  | play (w : World)

def step (s : Session) : Op → Session
  | .send packet => { s with out := s.out.sendClientPacket packet }
  | .setSize type size => { s with out := s.out.setSize type size }
  | .flush fat => { s with out := s.out.flushSockBuf fat }
  | .message now p => s.message now p
  | .comm udp mode udpOpen => { s with out := { s.out with udp := udp, udpMode := mode, udpOpen := udpOpen } }
  | .play w => { s with world := w }

end Netrek.Sending
