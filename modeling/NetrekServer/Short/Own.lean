/-
`updateSelf` of `ntserv/genspkt.c`: what a client is told of its own ship, and whether `clientSelfShort.flags`, the
server's record of the flags that the client has, is right while the feature `19FLAGS` is on. The packets are read in
the order of the calls that fill them. `SP_GENERIC_32`, which follows each update, has no flags and is left out.
-/
import NetrekServer.Lib.Run
import NetrekServer.Short.OwnFlags
import NetrekServer.Short.Ships

namespace Netrek.Short.Own

open Netrek.Lib

/-! ## Packets -/

def spYou : BitVec 8 := 12
def spSequence : BitVec 8 := 29
def spSYou : BitVec 8 := 43
def spSYouSs : BitVec 8 := 44

/-- `struct you_spacket`, in host order. -/
structure YouSPacket where
  type : BitVec 8
  pnum : BitVec 8
  hostile : BitVec 8
  swar : BitVec 8
  armies : BitVec 8
  tractor : BitVec 8
  flags : Word
  damage : Word
  shield : Word
  fuel : Word
  etemp : BitVec 16
  wtemp : BitVec 16
  whydead : BitVec 16
  whodead : BitVec 16
  deriving DecidableEq, Inhabited

/-- `struct you_short_spacket`, in host order. -/
structure YouShortSPacket where
  type : BitVec 8
  pnum : BitVec 8
  hostile : BitVec 8
  swar : BitVec 8
  armies : BitVec 8
  whydead : BitVec 8
  whodead : BitVec 8
  flags : Word
  deriving DecidableEq, Inhabited

/-- `struct youss_spacket`, in host order. -/
structure YoussSPacket where
  type : BitVec 8
  pad1 : BitVec 8
  damage : BitVec 16
  shield : BitVec 16
  fuel : BitVec 16
  etemp : BitVec 16
  wtemp : BitVec 16
  deriving DecidableEq, Inhabited

/-- The packets that tell of flags. -/
inductive Packet
  | you (p : YouSPacket)
  | youShort (p : YouShortSPacket)
  | youss (p : YoussSPacket)
  | sequence (flag8 : BitVec 8)
  deriving DecidableEq

/-- The flags as a client has them after a packet. -/
def Packet.read (w : Word) : Packet → Word
  | you p => p.flags
  | youShort p => p.flags
  | youss p => w &&& ~~~padFlags ||| padWord p.pad1
  | sequence b => w &&& ~~~seqFlags ||| seqWord b

/-! ## State -/

/-- What the process of a client reads and remembers when it tells the client of its own ship. -/
structure Link where
  me : Player
  /-- `p_no`. -/
  no : Slot
  sendShort : Nat
  /-- `commMode` is `COMM_UDP`. -/
  udp : Bool
  f19flags : Bool
  fSelf8flags : Bool
  fManySelf : Bool
  fWhyDead2 : Bool
  /-- The static of `updateSelf`. -/
  again : Bool
  clientSelf : YouSPacket
  clientSelfShort : YouShortSPacket
  clientSelfShip : YoussSPacket
  /-- The packets sent, the last one first, each with the flags of `clientSelfShort` as it leaves them. -/
  sent : List (Packet × Word)
  deriving Inhabited

namespace Link

/-- `sendClientPacket`. -/
def sendClientPacket (s : Link) (packet : Packet) : Link :=
  { s with sent := (packet, s.clientSelfShort.flags) :: s.sent }

/-- Consider the flags `f` sent. -/
def note (s : Link) (f : Word) : Link :=
  { s with clientSelfShort := { s.clientSelfShort with
      flags := s.clientSelfShort.flags &&& ~~~f ||| s.me.flags &&& f } }

/-- Short packets are used, with a little margin for the fuel. -/
def short (s : Link) : Bool := s.sendShort != 0 && decide (s.me.fuel < 61000)

def whydeadCode : WhyDead → Int
  | .klogin => 0x00
  | .kquit => 0x01
  | .ktorp => 0x02
  | .kphaser => 0x03
  | .kplanet => 0x04
  | .kship => 0x05
  | .kdaemon => 0x06
  | .kwinner => 0x07
  | .kghost => 0x08
  | .kgenocide => 0x09
  | .kprovidence => 0x0a
  | .kplasma => 0x0b
  | .tournend => 0x0c
  | .kover => 0x0d
  | .tournstart => 0x0e
  | .kbadbin => 0x0f
  | .ktorp2 => 0x10
  | .kship2 => 0x11
  | .kplasma2 => 0x12

/-- `legacy_whydead`. -/
def legacyWhydead (s : Link) : Int :=
  if s.fWhyDead2 then whydeadCode s.me.whydead
  else
    match s.me.whydead with
    | .ktorp2 => whydeadCode .ktorp
    | .kship2 => whydeadCode .kship
    | .kplasma2 => whydeadCode .kplasma
    | why => whydeadCode why

/-- `check_sendself_critical`, given what the client was told last. -/
def checkSendselfCritical (s : Link) (flags : Word) (armies swar : BitVec 8) (whydead whodead : BitVec 16)
    (pnum : BitVec 8) : BitVec 8 :=
  let type := if s.short then spSYou else spYou
  if s.udp then
    let type := if flags ≠ s.me.flags ∨ armies.toInt ≠ s.me.armies ∨ swar.signExtend 32 ≠ s.me.swar then
      type ||| 0x40 else type
    if whydead.toInt ≠ s.legacyWhydead ∨ whodead.toInt ≠ s.me.whodead ∨ pnum.toInt ≠ s.no.val then
      type ||| 0x80 else type
  else type

/-! ## Sending -/

/-- `sndSelfShip`. -/
def sndSelfShip (s : Link) : Link :=
  let pl := s.me
  let self := s.clientSelfShip
  if (self.damage.toNat : Int) ≠ pl.damage ∨ (self.shield.toNat : Int) ≠ pl.shield ∨
      (self.fuel.toNat : Int) ≠ pl.fuel ∨ (self.etemp.toNat : Int) ≠ pl.etemp ∨
      (self.wtemp.toNat : Int) ≠ pl.wtemp then
    let (pad, f) : BitVec 8 × Word :=
      if s.fManySelf then (BitVec.ofNat 8 s.no.val, 0)
      else if s.f19flags then (pad1 pl.flags, padFlags)
      else if s.fSelf8flags then (pl.flags.setWidth 8, 0xff)
      else (self.pad1, 0)
    let self : YoussSPacket :=
      { type := spSYouSs
        pad1 := pad
        damage := BitVec.ofInt 16 pl.damage
        shield := BitVec.ofInt 16 pl.shield
        fuel := BitVec.ofInt 16 pl.fuel
        etemp := BitVec.ofInt 16 pl.etemp
        wtemp := BitVec.ofInt 16 pl.wtemp }
    { s.note f with clientSelfShip := self }.sendClientPacket (.youss self)
  else s

/-- `sndSSelf`, and whether it sent anything. -/
def sndSSelf (s : Link) (howmuch : HowMuch) : Link × Bool :=
  let pl := s.me
  let youp := s.clientSelfShort
  if howmuch = .all ∨ youp.pnum.toInt ≠ s.no.val ∨ youp.hostile.signExtend 32 ≠ pl.hostile ∨
      youp.swar.signExtend 32 ≠ pl.swar ∨ youp.armies.toInt ≠ pl.armies ∨ youp.whydead.toInt ≠ s.legacyWhydead ∨
      youp.whodead.toInt ≠ pl.whodead ∨ youp.flags ≠ pl.flags then
    let youp : YouShortSPacket :=
      { type := s.checkSendselfCritical youp.flags youp.armies youp.swar (youp.whydead.signExtend 16)
          (youp.whodead.signExtend 16) youp.pnum
        pnum := BitVec.ofNat 8 s.no.val
        hostile := pl.hostile.setWidth 8
        swar := pl.swar.setWidth 8
        armies := BitVec.ofInt 8 pl.armies
        whydead := BitVec.ofInt 8 s.legacyWhydead
        whodead := BitVec.ofNat 8 pl.whodead
        flags := pl.flags }
    ({ s with clientSelfShort := youp }.sendClientPacket (.youShort youp), true)
  else (s, false)

/-- The ship in the tractor beam, marked as valid. -/
def tractorByte (s : Link) : BitVec 8 :=
  if s.me.flags.has pfTract then BitVec.ofNat 8 s.me.tractor.val ||| 0x40 else 0

/-- `SP_YOU` differs from what the client was told last. -/
def selfDiffers (s : Link) : Bool :=
  let pl := s.me
  let youp := s.clientSelf
  decide (youp.fuel ≠ BitVec.ofInt 32 pl.fuel ∨ youp.shield ≠ BitVec.ofInt 32 pl.shield ∨
    youp.damage ≠ BitVec.ofInt 32 pl.damage ∨ (youp.etemp.toNat : Int) ≠ pl.etemp ∨
    (youp.wtemp.toNat : Int) ≠ pl.wtemp ∨ youp.flags ≠ pl.flags ∨ youp.armies.toInt ≠ pl.armies ∨
    youp.swar.signExtend 32 ≠ pl.swar ∨ (youp.whydead.toNat : Int) ≠ s.legacyWhydead ∨
    (youp.whodead.toNat : Int) ≠ pl.whodead ∨ youp.tractor ≠ s.tractorByte ∨ youp.pnum.toInt ≠ s.no.val)

/-- `sndSelf` has something to send. -/
def selfDue (s : Link) (howmuch : HowMuch) : Bool := howmuch == .all || s.selfDiffers

/-- `sndSelf`. -/
def sndSelf (s : Link) (howmuch : HowMuch) : Link :=
  let pl := s.me
  let youp := s.clientSelf
  if s.selfDue howmuch then
    let youp : YouSPacket :=
      { type := s.checkSendselfCritical youp.flags youp.armies youp.swar youp.whydead youp.whodead youp.pnum
        pnum := BitVec.ofNat 8 s.no.val
        hostile := pl.hostile.setWidth 8
        swar := pl.swar.setWidth 8
        armies := BitVec.ofInt 8 pl.armies
        tractor := s.tractorByte
        flags := pl.flags
        damage := BitVec.ofInt 32 pl.damage
        shield := BitVec.ofInt 32 pl.shield
        fuel := BitVec.ofInt 32 pl.fuel
        etemp := BitVec.ofInt 16 pl.etemp
        wtemp := BitVec.ofInt 16 pl.wtemp
        whydead := BitVec.ofInt 16 s.legacyWhydead
        whodead := BitVec.ofNat 16 pl.whodead }
    { s with clientSelf := youp }.sendClientPacket (.you youp)
  else s

/-- `updateSelf`. -/
def updateSelf (s : Link) (force : Bool) : Link :=
  if s.short then
    let s := s.sndSelfShip
    match s.sndSSelf .most with
    | (s, true) => s
    | (s, false) =>
      if s.again || force then
        let s := (s.sndSSelf .all).1
        if force then s else { s with again := !s.again }
      else s
  else s.sndSelf (if force then .all else .most)

/-- `addSequenceFlags`, for a buffer that starts with a packet of this type. -/
def addSequenceFlags (s : Link) (type : BitVec 8) : Link :=
  if type ≠ spSequence then s
  else if s.fManySelf then s
  else
    let (b, f) : BitVec 8 × Word :=
      if s.f19flags then (flag8 s.me.flags, seqFlags)
      else ((s.me.flags >>> 8).setWidth 8, if 1 < s.sendShort then 0xff00 else 0)
    (s.note f).sendClientPacket (.sequence b)

/-- `clearSPackets`, as far as one's own ship goes. -/
def clearSPackets (s : Link) : Link :=
  { s with
    clientSelf := { s.clientSelf with pnum := -1 }
    clientSelfShort := { s.clientSelfShort with pnum := -1 }
    clientSelfShip := { s.clientSelfShip with damage := -1 } }

/-! ## Steps -/

def setFlags (s : Link) (f : Word) : Link := { s with me := { s.me with flags := f } }

end Link

inductive Op
  | setter (f : Setter)
  | orbit (beams : List Bool) (docks : List Dock) (planet : Bool)
  | setAlert (enemies : List Nearness)
  /-- The rest of the player changes. -/
  | player (p : Player)
  /-- `handleShortReq`: 0 is `SPK_VOFF`. -/
  | shortReq (version : Nat)
  | commMode (udp : Bool)
  | clearSPackets
  | updateSelf (force : Bool)
  | addSequenceFlags (type : BitVec 8)

namespace Link

def step (s : Link) : Op → Link
  | .setter f => s.setFlags (f.run s.me.flags)
  | .orbit beams docks planet => s.setFlags (orbit beams docks planet s.me.flags)
  | .setAlert enemies => s.setFlags (setAlert enemies s.me.flags)
  | .player p => { s with me := { p with flags := s.me.flags } }
  | .shortReq version => { s with sendShort := version }
  | .commMode udp => { s with udp := udp }
  | .clearSPackets => s.clearSPackets
  | .updateSelf force => s.updateSelf force
  | .addSequenceFlags type => s.addSequenceFlags type

/-- The ship has just entered, and the client has been told nothing since. -/
structure Entered (s : Link) : Prop where
  f19flags : s.f19flags = true
  fManySelf : s.fManySelf = false
  flags : ∃ starbase, s.me.flags = enterFlags starbase
  sent : s.sent = []

end Link

/-! ## The client -/

/-- The flags of a client that had the flags `w` before these packets. -/
def client (w : Word) : List (Packet × Word) → Word
  | [] => w
  | (p, _) :: l => p.read (client w l)

/-- After each packet the record is what the client has. -/
def Exact (w : Word) : List (Packet × Word) → Prop
  | [] => True
  | (p, f) :: l => f = p.read (client w l) ∧ Exact w l

instance Exact.decidable (w : Word) : ∀ l, Decidable (Exact w l)
  | [] => isTrue trivial
  | (p, f) :: l =>
    have := Exact.decidable w l
    inferInstanceAs (Decidable (f = p.read (client w l) ∧ Exact w l))

namespace Link

/-- If an update takes `SP_YOU`, the flags that it tells are on record already. -/
def Noted (s : Link) (force : Bool) : Prop :=
  s.short = true ∨ s.selfDue (if force then .all else .most) = false ∨ s.me.flags = s.clientSelfShort.flags

instance (s : Link) (force : Bool) : Decidable (s.Noted force) := inferInstanceAs (Decidable (_ ∨ _ ∨ _))

/-- What is asked of a step. -/
def Ok (s : Link) : Op → Prop
  | .updateSelf force => s.Noted force
  | _ => True

instance (s : Link) : ∀ op, Decidable (s.Ok op)
  | .updateSelf force => inferInstanceAs (Decidable (s.Noted force))
  | .setter _ | .orbit _ _ _ | .setAlert _ | .player _ | .shortReq _ | .commMode _ | .clearSPackets
  | .addSequenceFlags _ => isTrue trivial

/-- The flags are in order, and the record is right. -/
structure Kept (w : Word) (s : Link) : Prop where
  f19flags : s.f19flags = true
  fManySelf : s.fManySelf = false
  inOrder : InOrder s.me.flags
  record : s.clientSelfShort.flags = client w s.sent
  exact : Exact w s.sent

variable {w : Word} {s : Link}

/-! ## Each packet -/

theorem Entered.kept (h : s.Entered) : s.Kept s.clientSelfShort.flags := by
  obtain ⟨starbase, hf⟩ := h.flags
  refine ⟨h.f19flags, h.fManySelf, ?_, ?_, ?_⟩
  · rw [hf]
    exact enterFlags_inOrder starbase
  · rw [h.sent]
    rfl
  · rw [h.sent]
    trivial

/-- A packet that leaves the record as the client has the flags after it. -/
theorem Kept.send (h : s.Kept w) {s' : Link} {p : Packet} (hfeat : s'.f19flags = s.f19flags)
    (hmany : s'.fManySelf = s.fManySelf) (hme : s'.me = s.me) (hsent : s'.sent = (p, s'.clientSelfShort.flags) :: s.sent)
    (hread : s'.clientSelfShort.flags = p.read s.clientSelfShort.flags) : s'.Kept w where
  f19flags := hfeat.trans h.f19flags
  fManySelf := hmany.trans h.fManySelf
  inOrder := by
    rw [hme]
    exact h.inOrder
  record := by
    rw [hsent, hread, h.record]
    rfl
  exact := by
    rw [hsent]
    refine ⟨?_, h.exact⟩
    rw [hread, h.record]

theorem Kept.sndSelfShip (h : s.Kept w) : s.sndSelfShip.Kept w := by
  unfold Link.sndSelfShip
  dsimp only
  split
  · simp only [h.fManySelf, h.f19flags, if_true, Bool.false_eq_true, if_false]
    refine h.send rfl rfl rfl rfl ?_
    show s.clientSelfShort.flags &&& ~~~padFlags ||| s.me.flags &&& padFlags =
      s.clientSelfShort.flags &&& ~~~padFlags ||| padWord (pad1 s.me.flags)
    rw [padWord_pad1 h.inOrder]
  · exact h

theorem Kept.sndSSelf (h : s.Kept w) (howmuch : HowMuch) : (s.sndSSelf howmuch).1.Kept w := by
  unfold Link.sndSSelf
  dsimp only
  split
  · exact h.send rfl rfl rfl rfl rfl
  · exact h

theorem Kept.addSequenceFlags (h : s.Kept w) (type : BitVec 8) : (s.addSequenceFlags type).Kept w := by
  unfold Link.addSequenceFlags
  split
  · exact h
  · simp only [h.fManySelf, h.f19flags, if_true, Bool.false_eq_true, if_false]
    refine h.send rfl rfl rfl rfl ?_
    show s.clientSelfShort.flags &&& ~~~seqFlags ||| s.me.flags &&& seqFlags =
      s.clientSelfShort.flags &&& ~~~seqFlags ||| seqWord (flag8 s.me.flags)
    rw [seqWord_flag8]

theorem Kept.updateShort (h : s.Kept w) (hs : s.short = true) (force : Bool) : (s.updateSelf force).Kept w := by
  unfold Link.updateSelf
  rw [if_pos hs]
  have hmost := h.sndSelfShip.sndSSelf .most
  dsimp only
  split
  next heq =>
    rw [heq] at hmost
    exact hmost
  next heq =>
    rw [heq] at hmost
    split
    · have hall := hmost.sndSSelf .all
      split
      · exact hall
      · exact ⟨hall.f19flags, hall.fManySelf, hall.inOrder, hall.record, hall.exact⟩
    · exact hmost

/-- `SP_YOU` tells all flags and leaves the record alone. -/
theorem sent_sndSelf (s : Link) (howmuch : HowMuch) : (s.sndSelf howmuch).sent = s.sent ∧ s.selfDue howmuch = false ∨
    ∃ youp, (s.sndSelf howmuch).sent = (.you youp, s.clientSelfShort.flags) :: s.sent ∧ youp.flags = s.me.flags ∧
      s.selfDue howmuch = true := by
  unfold Link.sndSelf
  cases hdue : s.selfDue howmuch with
  | false => exact .inl ⟨rfl, rfl⟩
  | true => exact .inr ⟨_, rfl, rfl, rfl⟩

/-- An update goes well exactly if it takes short packets, has nothing to send, or tells what is on record. -/
theorem Kept.exact_updateSelf (h : s.Kept w) (force : Bool) :
    Exact w (s.updateSelf force).sent ↔ s.Noted force := by
  cases hs : s.short with
  | true => exact iff_of_true (h.updateShort hs force).exact (.inl hs)
  | false =>
    have hself : s.updateSelf force = s.sndSelf (if force then .all else .most) := by
      unfold Link.updateSelf
      rw [hs]
      rfl
    rw [hself]
    obtain ⟨hsent, hdue⟩ | ⟨youp, hsent, hflags, hdue⟩ := s.sent_sndSelf (if force then .all else .most)
    · rw [hsent]
      exact iff_of_true h.exact (.inr (.inl hdue))
    · rw [hsent]
      constructor
      · rintro ⟨hrecord, -⟩
        exact .inr (.inr (hflags.symm.trans hrecord.symm))
      · rintro (hshort | hnone | hsame)
        · rw [hs] at hshort
          cases hshort
        · rw [hdue] at hnone
          cases hnone
        · exact ⟨hsame.symm.trans hflags.symm, h.exact⟩

theorem Kept.sndSelf (h : s.Kept w) (howmuch : HowMuch)
    (hn : s.selfDue howmuch = false ∨ s.me.flags = s.clientSelfShort.flags) : (s.sndSelf howmuch).Kept w := by
  unfold Link.sndSelf
  dsimp only
  split
  next hdue =>
    obtain hnone | hsame := hn
    · rw [hdue] at hnone
      cases hnone
    · exact h.send rfl rfl rfl rfl hsame.symm
  · exact h

theorem Kept.updateSelf (h : s.Kept w) {force : Bool} (hn : s.Noted force) : (s.updateSelf force).Kept w := by
  obtain hs | hn := hn
  · exact h.updateShort hs force
  · cases hs : s.short with
    | true => exact h.updateShort hs force
    | false =>
      unfold Link.updateSelf
      rw [hs]
      exact h.sndSelf _ hn

/-! ## Runs -/

theorem Kept.step (h : s.Kept w) {op : Op} (hok : s.Ok op) : (s.step op).Kept w := by
  cases op with
  | setter f => exact ⟨h.f19flags, h.fManySelf, h.inOrder.setter f, h.record, h.exact⟩
  | orbit beams docks planet => exact ⟨h.f19flags, h.fManySelf, h.inOrder.orbit beams docks planet, h.record, h.exact⟩
  | setAlert enemies => exact ⟨h.f19flags, h.fManySelf, h.inOrder.setAlert enemies, h.record, h.exact⟩
  | player p => exact ⟨h.f19flags, h.fManySelf, h.inOrder, h.record, h.exact⟩
  | shortReq version => exact ⟨h.f19flags, h.fManySelf, h.inOrder, h.record, h.exact⟩
  | commMode udp => exact ⟨h.f19flags, h.fManySelf, h.inOrder, h.record, h.exact⟩
  | clearSPackets => exact ⟨h.f19flags, h.fManySelf, h.inOrder, h.record, h.exact⟩
  | updateSelf force => exact h.updateSelf hok
  | addSequenceFlags type => exact h.addSequenceFlags type

theorem Kept.run (h : s.Kept w) {s' : Link} {ops : List Op} (hr : Run Ok Link.step s ops s') : s'.Kept w :=
  hr.inv (fun _ _ hok hk => hk.step hok) h

end Link

open Link

/-- In a run whose updates by `SP_YOU` tell what is on record, the record is after each packet what the client has, and
the spare bytes have room for the flags; the next update keeps it so exactly if it is such an update. -/
theorem flags_on_record {s s' : Link} {ops : List Op} (hs : s.Entered) (h : Run Ok step s ops s') :
    Exact s.clientSelfShort.flags s'.sent ∧
      s'.clientSelfShort.flags = client s.clientSelfShort.flags s'.sent ∧
      padWord (pad1 s'.me.flags) = s'.me.flags &&& padFlags ∧ seqWord (flag8 s'.me.flags) = s'.me.flags &&& seqFlags ∧
      ∀ force, Exact s.clientSelfShort.flags (s'.updateSelf force).sent ↔ s'.Noted force := by
  have hk := hs.kept.run h
  exact ⟨hk.exact, hk.record, padWord_pad1 hk.inOrder, seqWord_flag8 _, hk.exact_updateSelf⟩

/-- A ship that has just entered, with short packets. -/
def entered : Link :=
  { (default : Link) with me := { (default : Player) with flags := enterFlags false }, sendShort := 1, f19flags := true }

theorem entered_entered : entered.Entered := ⟨rfl, rfl, ⟨false, rfl⟩, rfl⟩

/-- Shields down, orbit, an update and a sequence packet; then without short packets, as long as nothing changes. -/
theorem flags_on_record_in_orbit :
    let ops := [.clearSPackets, .setter .shieldDown, .setter .lockPlanet, .orbit [] [] true, .updateSelf false,
      .setter .beamUp, .setAlert [.yellow, .red], .addSequenceFlags spSequence, .updateSelf false, .shortReq 0,
      .updateSelf true]
    let s' := ops.foldl step entered
    Exact entered.clientSelfShort.flags s'.sent ∧ s'.sent.length = 5 :=
  ⟨(flags_on_record entered_entered (Run.of_allowedAll _ _ (by decide))).1, by decide⟩

/-- An alert that comes and goes while short packets are off: it is the last that the client is told of, although the
record is as if it had been told that the alert is over. -/
theorem alert_considered_sent :
    let ops := [.updateSelf false, .shortReq 0, .setAlert [.yellow], .updateSelf false, .setAlert [], .shortReq 1,
      .updateSelf false]
    let s' := ops.foldl step entered
    entered.Entered ∧ Run (fun _ _ => True) step entered ops s' ∧ ¬ Exact entered.clientSelfShort.flags s'.sent ∧
      s'.clientSelfShort.flags = s'.me.flags ∧ s'.me.flags.has pfGreen = true ∧
      (client entered.clientSelfShort.flags s'.sent).has pfYellow = true :=
  ⟨entered_entered, Run.all _ _, by decide, by decide, by decide, by decide⟩

end Netrek.Short.Own
