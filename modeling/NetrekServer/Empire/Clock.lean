/-
The surrender clock: the seconds sent in the generic packet of `ntserv/genspkt.c`, and what the time
command of `ntserv/ntscmds.c` says. The packet adds the seconds gone by to the minutes left, so it
agrees with the command only just after a minute has passed, or as long as both are at the limit.
-/
import NetrekServer.Empire.Teams

namespace Netrek.Empire

/-! ## Data -/

/-- What the reports read: the teams, and the rest of the context. -/
structure Watch where
  realm : Realm
  /-- Simulation frames per second. -/
  fps : ℕ+
  /-- The teams involved in tournament mode. -/
  quorum : Word × Word
  frameTournStart : Int
  inlRemaining : Int
  repairTime : Slot → Int
  deriving Inhabited

def guUnsafe : Word := 0x1

/-- `struct generic_32_spacket_b`. -/
structure GenericB where
  repairTime : UInt16
  plOrbit : Int
  gameup : UInt16
  tournamentTeams : UInt8
  tournamentAge : UInt8
  tournamentAgeUnits : Char
  tournamentRemain : UInt8
  tournamentRemainUnits : Char
  starbaseRemain : UInt8
  teamRemain : UInt8
  deriving DecidableEq

/-! ## The packet -/

/-- `s2du`: seconds as a byte and its unit. -/
def s2du (input : Int) : UInt8 × Char :=
  let minutes := input.tdiv 60
  let hours := minutes.tdiv 60
  let days := hours.tdiv 24
  if input < 256 then (.ofInt input, 's')
  else if minutes < 256 then (.ofInt minutes, 'm')
  else if hours < 256 then (.ofInt hours, 'h')
  else if days < 256 then (.ofInt days, 'd')
  else if days.tdiv 7 < 256 then (.ofInt (days.tdiv 7), 'w')
  else if days.tdiv 365 < 256 then (.ofInt (days.tdiv 365), 'y')
  else (.ofInt input, 'z')

/-- The first team that considers surrender. -/
def surrendering (r : Realm) : Option Word :=
  ((List.range (maxTeam + 1)).map (BitVec.ofNat 32)).find? fun t => (r.teams t).surrender != 0

/-- Seconds since the minutes of the team were last updated. -/
def Watch.elapsed (w : Watch) (t : Word) : Int := (w.realm.frame - (w.realm.teams t).surrenderFrame).tdiv w.fps

/-- The number of seconds that is sent. -/
def teamRemain (w : Watch) : UInt8 :=
  match surrendering w.realm with
  | none => 0
  | some t =>
    let v := (w.realm.teams t).surrender * 60 + w.elapsed t
    .ofInt (if 255 < v then 255 else v)

/-- `sendGeneric32PacketB`. -/
def sendGeneric32PacketB (w : Watch) (pl : Slot) : GenericB :=
  let p := w.realm.player pl
  let gameup := (w.realm.server.mem.status.gameup &&& ~~~guUnsafe) ||| (if w.realm.server.isIdle pl then 0 else guUnsafe)
  let age := s2du ((w.realm.frame - w.frameTournStart).tdiv w.fps)
  let remain := s2du (w.inlRemaining.tdiv w.fps)
  let turns := (w.realm.teams p.team).turns
  { repairTime := .ofInt (w.repairTime pl)
    plOrbit := if p.flags.has pfOrbit then p.planet.val else -1
    gameup := .ofNat (gameup &&& 0xffff).toNat
    tournamentTeams := .ofNat (((w.quorum.2).toNat <<< 4 &&& 0xf0) ||| ((w.quorum.1).toNat &&& 0xf))
    tournamentAge := age.1
    tournamentAgeUnits := age.2
    tournamentRemain := remain.1
    tournamentRemainUnits := remain.2
    starbaseRemain := .ofInt (if turns < 0 then 0 else if 255 < turns then 255 else turns)
    teamRemain := teamRemain w }

/-! ## The command -/

/-- What `do_time_msg` says. -/
inductive TimeMsg
  | noone
  | left (t : Word) (minutes seconds : Int)
  | minutes (t : Word) (minutes : Int)
  | whenTourn (t : Word) (minutes : Int)
  | whenPlanets (t : Word) (minutes : Int)
  deriving DecidableEq

/-- `do_time_msg`. -/
def doTimeMsg (w : Watch) : TimeMsg :=
  let t := if (w.realm.teams (w.quorum.1)).surrender = 0 then w.quorum.2 else w.quorum.1
  let x := w.realm.teams t
  if x.surrender = 0 then .noone
  else
    match x.surrenderPause with
    | .off =>
      let remaining := 60 - w.elapsed t
      if remaining < 50 ∧ 0 < remaining then .left t (x.surrender - 1) remaining else .minutes t x.surrender
    | .onTourn => .whenTourn t x.surrender
    | .onPlanets => .whenPlanets t x.surrender

/-! ## The two reports -/

/-- The time left that the command describes. -/
def timeLeft (w : Watch) (t : Word) : Int := ((w.realm.teams t).surrender - 1) * 60 + (60 - w.elapsed t)

/-- One team considers surrender, its countdown runs, and the command is about it. -/
structure Running (w : Watch) (t : Word) : Prop where
  team : surrendering w.realm = some t
  quorum : t = if (w.realm.teams (w.quorum.1)).surrender = 0 then w.quorum.2 else w.quorum.1
  surrender : 1 ≤ (w.realm.teams t).surrender
  pause : (w.realm.teams t).surrenderPause = .off
  frame : (w.realm.teams t).surrenderFrame ≤ w.realm.frame

/-- The same countdown at a later frame. -/
def Watch.atFrame (w : Watch) (frame : Int) : Watch := { w with realm := { w.realm with frame := frame } }

theorem Running.later {w : Watch} {t : Word} (h : Running w t) {frame : Int} (hf : w.realm.frame ≤ frame) :
    Running (w.atFrame frame) t :=
  ⟨h.team, h.quorum, h.surrender, h.pause, h.frame.trans hf⟩

theorem Running.elapsed_nonneg {w : Watch} {t : Word} (h : Running w t) : 0 ≤ w.elapsed t := by
  have := h.frame
  have hpos : (0 : Int) < w.fps := by exact_mod_cast w.fps.pos
  exact Int.tdiv_nonneg (by omega) hpos.le

/-- Seconds go by with the frames. -/
theorem Running.elapsed_mono {w : Watch} {t : Word} (h : Running w t) {frame : Int} (hf : w.realm.frame ≤ frame) :
    w.elapsed t ≤ (w.atFrame frame).elapsed t := by
  have := h.frame
  have hpos : (0 : Int) < w.fps := by exact_mod_cast w.fps.pos
  unfold Watch.elapsed
  show _ ≤ (frame - (w.realm.teams t).surrenderFrame).tdiv w.fps
  rw [Int.tdiv_eq_ediv_of_nonneg (by omega), Int.tdiv_eq_ediv_of_nonneg (by omega)]
  exact Int.ediv_le_ediv hpos (by omega)

/-- What the command says is the time left, to the second in the last fifty of a minute. -/
theorem Running.doTimeMsg {w : Watch} {t : Word} (h : Running w t) :
    doTimeMsg w = .minutes t (w.realm.teams t).surrender ∨
      ∃ minutes seconds, doTimeMsg w = .left t minutes seconds ∧ minutes * 60 + seconds = timeLeft w t := by
  have hs := h.surrender
  unfold Empire.doTimeMsg
  simp only [← h.quorum, h.pause]
  rw [if_neg (by omega)]
  split
  · exact .inr ⟨_, _, rfl, rfl⟩
  · exact .inl rfl

/-- The packet sends the seconds gone by on top of the minutes. -/
theorem Running.teamRemain {w : Watch} {t : Word} (h : Running w t) (pl : Slot) :
    ((sendGeneric32PacketB w pl).teamRemain.toNat : Int) = min 255 ((w.realm.teams t).surrender * 60 + w.elapsed t) := by
  have hs := h.surrender
  have he := h.elapsed_nonneg
  show ((Empire.teamRemain w).toNat : Int) = _
  unfold Empire.teamRemain
  simp only [h.team]
  split
  · rw [min_eq_left (by omega)]
    rfl
  · rw [min_eq_right (by omega)]
    unfold UInt8.ofInt
    rw [UInt8.toNat_ofNat']
    omega

/-- While a countdown runs, the packet says what the command says exactly if less than a second has gone by since the last
minute or both are at the limit; and from one frame to a later one of the same countdown it does not say more exactly if
they are in the same second or it was at the limit before. -/
theorem reports_agree {w : Watch} {t : Word} (h : Running w t) {frame : Int} (hf : w.realm.frame ≤ frame) (pl : Slot) :
    (((sendGeneric32PacketB w pl).teamRemain.toNat : Int) = min 255 (timeLeft w t) ↔
      w.elapsed t = 0 ∨ 255 ≤ timeLeft w t) ∧
    ((sendGeneric32PacketB (w.atFrame frame) pl).teamRemain.toNat ≤ (sendGeneric32PacketB w pl).teamRemain.toNat ↔
      (w.atFrame frame).elapsed t = w.elapsed t ∨ 255 ≤ (w.realm.teams t).surrender * 60 + w.elapsed t) := by
  have hs := h.surrender
  have he := h.elapsed_nonneg
  have hle := h.elapsed_mono hf
  have hnow := h.teamRemain pl
  have hlater : ((sendGeneric32PacketB (w.atFrame frame) pl).teamRemain.toNat : Int) =
      min 255 ((w.realm.teams t).surrender * 60 + (w.atFrame frame).elapsed t) := (h.later hf).teamRemain pl
  constructor
  · rw [hnow]
    unfold timeLeft
    omega
  · rw [← Int.ofNat_le, hlater, hnow]
    omega

/-! ## The last minute -/

/-- The Federation has a minute left, of which so many seconds have gone by. -/
def lastMinute (seconds : Nat) : Watch :=
  { (default : Watch) with
    fps := Nat.succPNat 49
    quorum := (fed, rom)
    realm :=
      { (default : Realm) with
        frame := 50 * seconds
        teams := fun t => { (default : Team) with surrender := if t = fed then 1 else 0, surrenderPause := .off } } }

theorem lastMinute_running (seconds : Nat) : Running (lastMinute seconds) fed where
  team := by
    show List.find? (fun t => (if t = fed then (1 : Int) else 0) != 0) _ = _
    decide
  quorum := rfl
  surrender := by
    show (1 : Int) ≤ if fed = fed then 1 else 0
    decide
  pause := rfl
  frame := by
    show (0 : Int) ≤ 50 * seconds
    omega

theorem reports_agree_lastMinute : ((sendGeneric32PacketB (lastMinute 0) 0).teamRemain.toNat : Int) = min 255 60 := by
  have h := (reports_agree (lastMinute_running 0) le_rfl 0).1.2 (.inl (by decide))
  exact h

/-- After twenty seconds of the last minute the command says that forty are left, the packet that eighty are; ten seconds
before it was seventy. -/
theorem reports_differ :
    doTimeMsg (lastMinute 20) = .left fed 0 40 ∧ (sendGeneric32PacketB (lastMinute 20) 0).teamRemain = 80 ∧
      (sendGeneric32PacketB (lastMinute 10) 0).teamRemain = 70 ∧ timeLeft (lastMinute 20) fed = 40 := by
  refine ⟨?_, ?_, ?_, ?_⟩ <;> decide

end Netrek.Empire
