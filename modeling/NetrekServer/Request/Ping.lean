/-
`handlePingResponse` of `ntserv/socket.c` and `ntserv/ping.c`: a client's answer to a ping, with
its own counts of the packets it has sent and received. What is in doubles there is rational here.
-/
import Mathlib.Data.Nat.Sqrt
import NetrekServer.Request.World

namespace Netrek.Request

/-- `struct ping_cpacket`, in host order. -/
structure PingCPacket where
  number : UInt8
  pingme : Int8
  cpSent : UInt32
  cpRecv : UInt32

/-- `PITH`. -/
def pith (i : UInt8) : Fin pingSlots := ⟨i.toNat % pingSlots, Nat.mod_lt _ (by decide)⟩

/-- `u_char_diff`. -/
def uCharDiff (x y : Int) : Int :=
  if 128 < x - y then x - y - 256 else if x - y < -128 then x - y + 256 else x - y

namespace Pings

/-! ## Statistics -/

/-- `update_lag_stats`. -/
def updateLagStats (s : Pings) (me : Player) : Except Fault (Pings × Player) :=
  let s := { s with n := s.n + 1, sum := s.sum + s.lag, s2 := s.s2 + s.lag * s.lag }
  if s.n = 1 then .ok (s, me)
  else
    (divisor s.n).bind fun n =>
      (divisor (s.n - 1)).map fun n1 =>
        let M := s.sum.tdiv n
        let var := (s.s2 - M * s.sum).tdiv n1
        if var < 0 then ({ s with n := 1, sum := 0, s2 := 0 }, me)
        else (s, { me with avrt := M, stdv := var.toNat.sqrt })

/-- `update_loss_stats`. -/
def updateLossStats (s : Pings) (me : Player) : Player := { me with pklsSc := s.tlossSc, pklsCs := s.tlossCs }

/-- The losses since the start of the connection, once both counts of dropped packets are known:
a count lower than before is put down to extra packets. -/
def calcTotals (s : Pings) (i : Fin pingSlots) (p : PingCPacket) : Except Fault Pings :=
  let sentAt := (s.sent i).packetsSentAtPing
  let sToC := Int32.ofInt (sentAt - p.cpRecv.toInt32.toInt)
  let extra := sToC < s.oldStoCDropped
  let packetsSent := if extra then s.packetsSent + (s.oldStoCDropped - sToC) else s.packetsSent
  let sToC := if extra then s.oldStoCDropped else sToC
  let cToS := p.cpSent.toInt32 - s.packetsReceived
  let extra := cToS < s.oldCtoSDropped
  let received := if extra then s.packetsReceived - (s.oldCtoSDropped - cToS) else s.packetsReceived
  let cToS := if extra then s.oldCtoSDropped else cToS
  (divisor sentAt).bind fun (dSent : Int) =>
    (divisor received.toInt).map fun (dReceived : Int) =>
      { s with
        packetsSent := packetsSent
        packetsReceived := received
        oldStoCDropped := sToC
        oldCtoSDropped := cToS
        tlossSc := 100 - (100 * (sentAt - sToC.toInt) : Int) / (dSent : ℚ)
        tlossCs := 100 - (100 * (received - cToS) : Int32).toInt / (dReceived : ℚ) }

/-- The losses since the last start of an interval. -/
def calcIncrements (s : Pings) (i : Fin pingSlots) : Except Fault Pings :=
  let sentAt := (s.sent i).packetsSentAtPing
  let pSent := Int32.ofInt (sentAt - s.incPacketsSent)
  let pRecv := s.packetsReceived - s.incPacketsReceived
  if pSent = 0 ∨ pRecv = 0 then .ok s
  else
    (divisor pSent.toInt).bind fun dSent =>
      (divisor pRecv.toInt).bind fun dRecv =>
        (divisor s.ilossInterval).map fun interval =>
          let ilossSc := 100 - (100 * (pSent - (s.oldStoCDropped - s.incStoCDropped)) : Int32).toInt.tdiv dSent
          let ilossCs := 100 - (100 * (pRecv - (s.oldCtoSDropped - s.incCtoSDropped)) : Int32).toInt.tdiv dRecv
          let fresh := s.timer.tmod interval = 0
          { s with
            ilossSc := if ilossSc < 0 then 0 else ilossSc
            ilossCs := if ilossCs < 0 then 0 else ilossCs
            incStoCDropped := if fresh then s.oldStoCDropped else s.incStoCDropped
            incCtoSDropped := if fresh then s.oldCtoSDropped else s.incCtoSDropped
            incPacketsSent := if fresh then sentAt else s.incPacketsSent
            incPacketsReceived := if fresh then s.packetsReceived else s.incPacketsReceived
            timer := s.timer + 1 }

/-- `calc_loss`. -/
def calcLoss (s : Pings) (i : Fin pingSlots) (p : PingCPacket) : Except Fault Pings :=
  let s := { s with timer := if s.timer = 0 then s.ilossInterval else s.timer }
  (s.calcTotals i p).bind fun s => s.calcIncrements i

/-! ## Responses -/

/-- The response is the first to its ping, and no response to a later ping came before it. -/
def isNew (s : Pings) (p : PingCPacket) : Bool :=
  s.ping && p.pingme == 1 && decide (0 ≤ uCharDiff p.number.toNat s.lastNum) && !(s.sent (pith p.number)).responded

/-- The response is noted, with its round trip. -/
def roundTrip (s : Pings) (now : Int) (p : PingCPacket) : Pings :=
  let i := pith p.number
  { s with
    lastNum := p.number.toNat
    sent := Function.update s.sent i { s.sent i with responded := true }
    lag := now - (s.sent i).time }

/-- `pingResponse`, at `now` milliseconds. -/
def pingResponse (s : Pings) (me : Player) (now : Int) (p : PingCPacket) : Except Fault (Pings × Player) :=
  if !s.ping || p.pingme != 1 then .ok (s, me)
  else
    let s := { s with ghostbust := 0 }
    if !s.isNew p then .ok (s, me)
    else
      let s := s.roundTrip now p
      if 10000 < s.lag ∨ s.lag < 0 then .ok ({ s with lag := me.avrt }, me)
      else
        (s.updateLagStats me).bind fun (s, me) =>
          let i := pith p.number
          if s.packetsReceived = 0 ∨ (s.sent i).packetsSentAtPing = 0 then .ok (s, me)
          else (s.calcLoss i p).map fun s => (s, s.updateLossStats me)

end Pings

/-- `handlePingResponse`; `onTcp` when the packet came over TCP. -/
def handlePingResponse (w : World) (onTcp : Bool) (now : Int) (p : PingCPacket) : Except Fault World :=
  let s := w.proc.pings
  if onTcp && !s.ping && p.pingme == 1 then
    let freq := s.freq
    .ok ({ w with proc := { w.proc with pings := { s with ping := true } } }.warn
      (if freq ≠ 0 then s!"Server sending PING packets at {freq} second intervals"
        else "Server sending PING packets on every update."))
  else if onTcp && s.ping && p.pingme == 0 then
    .ok ({ w with proc := { w.proc with pings := { s with ping := false } } }.warn
      "Server no longer sending PING packets.")
  else
    (s.pingResponse w.me now p).map fun r =>
      { w with proc := { w.proc with pings := r.1 } }.modifyMe fun _ => r.2

end Netrek.Request
