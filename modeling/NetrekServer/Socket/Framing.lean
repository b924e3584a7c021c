/-
The reading half of `ntserv/socket.c`: `doRead` takes what the client has sent into a buffer of
twice `BUFSIZ` bytes, parses the packets in place, reads on when the last one is cut off
(`doReadRest`), and moves the second half of the buffer down once the first is consumed. A read or
a copy outside the buffer is a fault.
-/
import NetrekServer.Defs
import NetrekServer.Lib.Buffer

namespace Netrek.Socket

open Netrek.Lib.Buffer

/-! ## Packets -/

abbrev Packet := List UInt8

/-- The switches of `config.h` that the table of handlers and the test for a legal request depend on. -/
structure Switches where
  rsa : Bool
  oggv : Bool
  messagesAllTime : Bool

/-- The packet types `doRead` names. -/
def cpMessage : Nat := 1
def cpSocket : Nat := 27
def cpOptions : Nat := 28
def cpBye : Nat := 29
def cpUpdates : Nat := 31
def cpResetStats : Nat := 32
def cpReserved : Nat := 33
def cpRsaKey : Nat := 37
def cpPlanet : Nat := 38
def cpPingResponse : Nat := 42
def cpSMessage : Nat := 45
def cpFeature : Nat := 60

def numPackets : Nat := 60

/-- `sizeof(struct mesg_s_cpacket)`. -/
def sizeofMesgS : Nat := 84

/-- The sizes in the table `handlers[]`, by packet type: 0 where there is no handler and -1 for
packets of variable length. -/
def handlerSizes (sw : Switches) : List Int :=
  [0, 84, 4, 4, 4, 4, 4, 4, 52, 4,
   4, 4, 4, 4, 4, 4, 4, 4, 4, 4,
   4, 4, 4, 4, 4, 4, 4, 8, 104, 4,
   4, 8, 4, 36, 4, 8, 4, if sw.rsa then 100 else 0, 12, 0,
   0, 0, 12, 4, 4, -1, 0, 0, 0, 0,
   if sw.oggv then 3 else 0, 0, 0, 0, 0, 0, 0, 0, 0, 0,
   88]

def handlerSize (sw : Switches) (t : Nat) : Int := (handlerSizes sw).getD t 0

/-- Up to a multiple of 4. -/
def roundUp (size : Nat) : Nat := if size % 4 ≠ 0 then size + (4 - size % 4) else size

/-- A packet a client may send: of a known type, and of the length the type or its length byte
asks for. -/
def WellFormed (sw : Switches) : Packet → Prop
  | [] => False
  | t :: p =>
    1 ≤ t.toNat ∧ t.toNat ≤ numPackets ∧ handlerSize sw t.toNat ≠ 0 ∧
    if handlerSize sw t.toNat = -1 then
      ∃ l ∈ (t :: p)[3]?, (t :: p).length = roundUp l.toNat ∧ 4 ≤ roundUp l.toNat ∧ roundUp l.toNat ≤ sizeofMesgS
    else ((t :: p).length : Int) = handlerSize sw t.toNat

/-- The length of the packet at the head of a stream. -/
def packetLength (sw : Switches) (bs : List UInt8) : Option Nat :=
  match bs with
  | [] => none
  | t :: _ =>
    if t.toNat < 1 ∨ numPackets < t.toNat ∨ handlerSize sw t.toNat = 0 then none
    else if handlerSize sw t.toNat = -1 then
      match bs[3]? with
      | none => none
      | some l => if roundUp l.toNat < 4 ∨ sizeofMesgS < roundUp l.toNat then none else some (roundUp l.toNat)
    else some (handlerSize sw t.toNat).toNat

/-- A whole stream parsed at once, in at most `n` packets; nothing when it is not made of complete
packets. -/
def frames (sw : Switches) : Nat → List UInt8 → Option (List Packet)
  | _, [] => some []
  | 0, _ :: _ => none
  | n + 1, b :: bs =>
    match packetLength sw (b :: bs) with
    | none => none
    | some k => if (b :: bs).length < k then none else (frames sw n ((b :: bs).drop k)).map ((b :: bs).take k :: ·)

/-! ## The session the packets act on -/

/-- What the test before a handler reads of `me`. -/
structure Me where
  observ : Bool
  flags : Word

/-- `inputMask`, `me`, the packet counts, and everything else the handlers work on. -/
structure Session (ω : Type) where
  inputMask : Nat → Bool
  me : Option Me
  packetsReceived : Nat → Nat
  world : ω

/-- A handler is given the packet and changes the session. -/
abbrev Handlers (ω : Type) := Nat → Packet → Session ω → Session ω

/-- The test of `doRead` whether a request is legal. -/
def legal {ω : Type} (sw : Switches) (s : Session ω) (t : Nat) : Bool :=
  (s.inputMask t &&
    match s.me with
    | none => true
    | some me => me.observ || !me.flags.has (pfWar ||| pfRefitting ||| pfTwarp)) ||
  t == cpResetStats || t == cpUpdates || t == cpOptions || t == cpReserved || t == cpPingResponse ||
  (sw.rsa && t == cpRsaKey) || t == cpFeature ||
  (sw.messagesAllTime && (t == cpMessage || t == cpSMessage)) || t == cpSocket || t == cpBye

/-- A legal request, but for two kinds, cancels a self destruct. -/
def cancelSelfDest {ω : Type} (s : Session ω) (t : Nat) : Session ω :=
  match s.me with
  | some me =>
    if me.flags.has pfSelfDest && t != cpPlanet && t != cpPingResponse then
      { s with me := some { me with flags := me.flags &&& ~~~pfSelfDest } }
    else s
  | none => s

/-- The session and the calls of handlers made so far. -/
abbrev Served (ω : Type) := Session ω × List (Nat × Packet)

/-- One more packet of a type is received. -/
def countPacket {ω : Type} (s : Session ω) (t : Nat) : Session ω :=
  { s with packetsReceived := fun k => if k = t then s.packetsReceived k + 1 else s.packetsReceived k }

/-- Count a packet and give it to its handler, if the request is legal. -/
def dispatch {ω : Type} (sw : Switches) (handlers : Handlers ω) (st : Served ω) (p : Packet) : Served ω :=
  match p with
  | [] => st
  | b :: _ =>
    let t := b.toNat
    let s := countPacket st.1 t
    if legal sw s t then (handlers t p (cancelSelfDest s t), st.2 ++ [(t, p)]) else (s, st.2)

/-! ## Reading -/

/-- How the network behaves: how many bytes the k-th `read` gives at most, whether the `select`
before it reports data, and what the stack of `doRead` holds before it. -/
structure Network where
  split : Nat → Nat
  ready : Nat → Bool
  stack : Nat → Nat → UInt8

inductive Fault
  | overrun
  | exited
  | outOfFuel
  deriving DecidableEq

/-- The reader: the bytes sent and not read yet, the number of reads, the buffer, the packets
parsed, and what has been done for them. -/
structure Reader (ω : Type) where
  rest : List UInt8
  reads : Nat
  buf : List UInt8
  parsed : List Packet
  served : Served ω
  clientDead : Bool
  log : List String

section Read

variable {ω : Type} (net : Network)

/-- `read(asock, buf + pos, n)`: at least one byte as long as there are any, at most `n`. -/
def read (r : Reader ω) (pos n : Nat) : Except Fault (Reader ω × Nat) :=
  if r.buf.length < pos + n then .error .overrun
  else
    let k := min (max 1 (net.split r.reads)) (min n r.rest.length)
    .ok ({ r with buf := store r.buf pos (r.rest.take k), rest := r.rest.drop k, reads := r.reads + 1 }, k)

/-- `doReadRest`: read until the buffer holds `size` bytes from `off` on. -/
def doReadRest (r : Reader ω) (off count size : Nat) : Except Fault (Reader ω × Nat × Bool) :=
  if _h : off + size ≤ count then .ok (r, count, true)
  else
    match read net r count (size - (count - off)) with
    | .error e => .error e
    | .ok (r', temp) =>
      if _h : temp = 0 then
        .ok ({ r' with clientDead := true, log := r'.log ++ ["Died in second read(), return=0"] }, count, false)
      else doReadRest r' off (count + temp) size
  termination_by off + size - count

variable (sw : Switches)

/-- The size of the packet of type `t` at `off`, reading on to its length byte where it has one;
no size when the packet is refused. -/
def packetSize (r : Reader ω) (off count t : Nat) : Except Fault (Reader ω × Nat × Option Nat) :=
  if handlerSize sw t = -1 then
    if t = cpSMessage then
      match doReadRest net r off count 4 with
      | .error e => .error e
      | .ok (r', count', false) => .ok (r', count', none)
      | .ok (r', count', true) =>
        match r'.buf[off + 3]? with
        | none => .error .overrun
        | some l =>
          let size := roundUp l.toNat
          if size < 4 ∨ sizeofMesgS < size then
            .ok ({ r' with log := r'.log ++ [s!"bad variable packet length: {size}, aborting..."] }, count', none)
          else .ok (r', count', some size)
    else .error .exited
  else .ok (r, count, some (handlerSize sw t).toNat)

variable (bufsiz : Nat)

/-- Once the first half of the buffer is consumed, move the second half down; when the buffer was
full, read on if there is data. -/
def shift (r : Reader ω) (off count : Nat) : Except Fault (Reader ω × Nat × Nat × Bool) :=
  if off ≤ bufsiz then .ok (r, off, count, true)
  else if r.buf.length < bufsiz * 2 then .error .overrun
  else
    let r := { r with buf := (r.buf.drop bufsiz).take bufsiz ++ r.buf.drop bufsiz }
    if count = bufsiz * 2 then
      if net.ready r.reads ∧ r.rest ≠ [] then
        match read net r bufsiz bufsiz with
        | .error e => .error e
        | .ok (r, temp) =>
          if temp = 0 then
            .ok ({ r with clientDead := true, log := r.log ++ ["Died in third read(), return=0"] },
              off - bufsiz, bufsiz, false)
          else .ok (r, off - bufsiz, bufsiz + temp, true)
      else .ok (r, off - bufsiz, bufsiz, true)
    else .ok (r, off - bufsiz, count - bufsiz, true)

variable (handlers : Handlers ω)

/-- The loop of `doRead` over the packets in the buffer. -/
def doReadLoop : Nat → Reader ω → Nat → Nat → Except Fault (Reader ω × Bool)
  | 0, _, _, _ => .error .outOfFuel
  | fuel + 1, r, off, count =>
    if count ≤ off then .ok (r, true)
    else match r.buf[off]? with
    | none => .error .overrun
    | some b =>
      let t := b.toNat
      if t < 1 ∨ numPackets < t ∨ handlerSize sw t = 0 then
        .ok ({ r with log := r.log ++ [s!"unknown packet type: {t}, aborting..."] }, false)
      else match packetSize net sw r off count t with
      | .error e => .error e
      | .ok (r, _, none) => .ok (r, false)
      | .ok (r, count, some size) =>
        match doReadRest net r off count size with
        | .error e => .error e
        | .ok (r, _, false) => .ok (r, false)
        | .ok (r, count, true) =>
          if r.buf.length < off + size then .error .overrun
          else
            let p := (r.buf.drop off).take size
            let r := { r with served := dispatch sw handlers r.served p, parsed := r.parsed ++ [p] }
            match shift net bufsiz r (off + size) count with
            | .error e => .error e
            | .ok (r, _, _, false) => .ok (r, false)
            | .ok (r, off, count, true) => doReadLoop fuel r off count

/-- `doRead`: the buffer is on the stack, so that it starts with whatever was there. -/
def doRead (fuel : Nat) (r : Reader ω) : Except Fault (Reader ω × Bool) :=
  match read net { r with buf := (List.range (bufsiz * 2)).map (net.stack r.reads) } 0 (bufsiz * 2) with
  | .error e => .error e
  | .ok (r, count) =>
    if count = 0 then .ok ({ r with clientDead := true, log := r.log ++ ["read() failed"] }, false)
    else doReadLoop net sw bufsiz handlers fuel r 0 count

/-- `readFromClient`, for the TCP socket. -/
def readFromClient (fuel : Nat) (r : Reader ω) : Except Fault (Reader ω × Bool) :=
  if r.clientDead then .ok (r, false)
  else if r.rest = [] then .ok (r, false)
  else doRead net sw bufsiz handlers fuel r

/-- Call `readFromClient` until everything sent has been read, each call with the fuel `fuel`. -/
def serve (fuel : Nat) : Nat → Reader ω → Except Fault (Reader ω)
  | 0, _ => .error .outOfFuel
  | n + 1, r =>
    if r.rest = [] then .ok r
    else match readFromClient net sw bufsiz handlers fuel r with
      | .error e => .error e
      | .ok (r, _) => serve fuel n r

end Read

end Netrek.Socket
