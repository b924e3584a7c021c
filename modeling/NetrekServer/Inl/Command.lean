/-
`robots/inlcomm.c` and `check_command` of `robots/inlcmds.c`: the commands that players send to the
robot, and `checkmess`, which carries them out.
-/
import NetrekServer.Inl.Robot

namespace Netrek.Inl

/-! ## Who is asking -/

/-- The side that a player is on, by its race. -/
def sideOf (r : Robot) (who : Slot) : Option Side :=
  if (r.player who).team = (r.teams home).side then some home
  else if (r.player who).team = (r.teams away).side then some away
  else none

/-- `check_player`. -/
def checkPlayer (r : Robot) (who : Slot) (captain : Bool) : Option Side :=
  let queue := (r.player who).wQueue
  if queue ≠ quHome ∧ queue ≠ quAway ∧ queue ≠ quHomeObs ∧ queue ≠ quAwayObs then none
  else
    match sideOf r who with
    | none => none
    | some num => if captain = true ∧ (r.teams num).captain ≠ some who then none else some num

/-- Both teams have set a flag. -/
def bothHave (r : Robot) (m : Word) : Bool := (r.teams home).flags.has m && (r.teams away).flags.has m

theorem bothHave_set (r : Robot) (num : Side) {m : Word} (hm : m ≠ 0) :
    bothHave (r.modifyTeam num fun t => { t with flags := t.flags ||| m }) m = (r.teams num.other).flags.has m := by
  have hteams (i : Side) := r.teams_modifyTeam num i fun t => { t with flags := t.flags ||| m }
  unfold bothHave
  rw [hteams, hteams]
  rcases Side.cases num with rfl | rfl
  · rw [if_pos rfl, if_neg (by decide), Word.has_set hm, Bool.true_and]
    rfl
  · rw [if_pos rfl, if_neg (by decide), Word.has_set hm, Bool.and_true]
    rfl

/-! ## Commands -/

inductive Command
  | captain
  | uncaptain
  /-- FED, ROM, KLI or ORI, or PASS. -/
  | pickside (pick : Option (Fin 4))
  | start
  /-- NEWGALAXY, with what the new galaxy is to be. -/
  | resetgalaxy (galaxy : Fin maxPlanets → Planet)
  | gametime (times : Option (Int × Int))
  | army (army : Option Int)
  | scoremode (mode : Option Int)
  | register
  | confine
  | pause
  | pausenow
  | continue
  | timeout
  | restart (galaxy : Fin maxPlanets → Planet)

/-- `do_captain`: a captain who is not alive is overthrown. -/
def doCaptain (r : Robot) (who : Slot) : Robot :=
  match checkPlayer r who false with
  | none => r
  | some num =>
    match (r.teams num).captain with
    | none =>
      (r.modifyTeam num fun t => { t with captain := some who }).modifyPlayer who fun p => { p with inlCaptain := true }
    | some c =>
      if (r.player c).status ≠ .palive then r.modifyTeam num fun t => { t with captain := none } else r

/-- `do_uncaptain`. -/
def doUncaptain (r : Robot) (who : Slot) : Robot :=
  match checkPlayer r who true with
  | none => r
  | some num =>
    (r.modifyTeam num fun t => { t with captain := none }).modifyPlayer who fun p => { p with inlCaptain := false }

/-- `do_pickside` of a race for the team `num`. -/
def pickRace (r : Robot) (num : Side) (c : Fin 4) : Robot :=
  let pick := fun t : Team => { t with sideIndex := .race c }
  match (r.teams num.other).sideIndex with
  | .race o =>
    if o = c then r
    else if diagonal o = c then r
    else (r.modifyTeam num.other fun t => { t with flags := t.flags ||| tSideLocked }).modifyTeam num pick
  | _ => r.modifyTeam num pick

/-- `do_pickside`. -/
def doPickside (r : Robot) (who : Slot) (pick : Option (Fin 4)) : Robot :=
  if !r.stat.change then r
  else
    match checkPlayer r who true with
    | none => r
    | some num =>
      if (r.teams num).flags.has tSideLocked then r
      else if num = home ∧ (r.teams num.other).sideIndex = .notChoosen then r
      else
        match pick with
        | none => if num = home then r else r.modifyTeam num fun t => { t with sideIndex := .relinquish }
        | some c => pickRace r num c

/-- Whether the teams agree on the game. -/
def agreed (r : Robot) : Bool :=
  (r.teams home).time == (r.teams away).time && (r.teams home).overtime == (r.teams away).overtime &&
    (r.teams home).startArmies == (r.teams away).startArmies && (r.teams home).scoreMode == (r.teams away).scoreMode

/-- `do_start` for the team `num`, once its side is known. -/
def requestStart (r : Robot) (num : Side) : Robot :=
  let r := r.modifyTeam num fun t => { t with flags := t.flags ||| tStart }
  if !bothHave r tStart then r
  else if !agreed r then r
  else startCountdown (r.modifyTeams fun t => { t with flags := t.flags &&& ~~~tStart })

/-- `do_start`. -/
def doStart (r : Robot) (who : Slot) : Robot :=
  if !r.stat.change then r
  else
    match checkPlayer r who true with
    | none => r
    | some num =>
      let r := if r.has sDraft && !r.mem.status.gameup.has guInlDrafting then
          r.modifyStat fun s => { s with flags := s.flags &&& ~~~sDraft }
        else r
      if r.has sDraft then r
      else
        match (r.teams num).sideIndex with
        | .race _ => requestStart r num
        | _ => r

/-- `do_resetgalaxy`. -/
def doResetgalaxy (r : Robot) (who : Slot) (galaxy : Fin maxPlanets → Planet) : Robot :=
  if !r.stat.change then r
  else
    match checkPlayer r who true with
    | none => r
    | some num =>
      let r := r.modifyTeam num fun t => { t with flags := t.flags ||| tResetGalaxy }
      if bothHave r tResetGalaxy then plResetInl (r.modifyTeams fun t => { t with flags := 0 }) (some galaxy) else r

/-- `do_gametime` before a game. -/
def doGametime (r : Robot) (who : Slot) (times : Option (Int × Int)) : Robot :=
  match checkPlayer r who true, times with
  | some num, some (time, overtime) =>
    if !r.stat.change then r
    else
      let r := r.modifyTeam num fun t => { t with time := time, overtime := overtime }
      if (r.teams home).time ≠ (r.teams away).time ∨ (r.teams home).overtime ≠ (r.teams away).overtime then r
      else r.modifyStat fun s => { s with time := time * r.permin, overtime := overtime * r.permin }
  | _, _ => r

/-- `do_army`. -/
def doArmy (r : Robot) (who : Slot) (army : Option Int) : Robot :=
  match checkPlayer r who true, army with
  | some num, some army =>
    if !r.stat.change then r
    else
      let r := r.modifyTeam num fun t => { t with startArmies := army }
      if (r.teams home).startArmies ≠ (r.teams away).startArmies then r
      else r.modifyStat fun s => { s with startArmies := army }
  | _, _ => r

/-- `do_scoremode` by a captain. -/
def doScoremode (r : Robot) (who : Slot) (mode : Option Int) : Robot :=
  match checkPlayer r who true, mode with
  | some num, some mode =>
    if !r.stat.change then r
    else if mode ≠ 0 ∧ mode ≠ 1 ∧ mode ≠ 2 then r
    else
      let r := r.modifyTeam num fun t => { t with scoreMode := mode }
      if (r.teams home).scoreMode = (r.teams away).scoreMode then
        r.modifyStat fun s => { s with scoreMode := (r.teams home).scoreMode }
      else r
  | _, _ => r

/-- `do_register`. -/
def doRegister (r : Robot) (who : Slot) : Robot :=
  match checkPlayer r who true with
  | none => r
  | some num => r.modifyTeam num fun t => { t with flags := t.flags ^^^ tRegister }

def tConfine : Word := 0x80

/-- `do_confine`. -/
def doConfine (r : Robot) (who : Slot) : Robot :=
  match checkPlayer r who true with
  | none => r
  | some num =>
    if !r.has sPregame then r
    else if (r.teams num).flags.has tConfine then
      let r := r.modifyTeam num fun t => { t with flags := t.flags &&& ~~~tConfine }
      if (r.teams num.other).flags.has tConfine then r
      else r.modifyStat fun s => { s with flags := s.flags &&& ~~~sConfine }
    else
      (r.modifyTeam num fun t => { t with flags := t.flags ||| tConfine }).modifyStat fun s =>
        { s with flags := s.flags ||| sConfine }

/-- `inl_freeze`. -/
def inlFreeze (r : Robot) : Robot :=
  let r := r.modifyTeams fun t => { t with flags := t.flags ||| tPause }
  let r := r.modifyStat fun s => { s with flags := s.flags ||| sFreeze }
  let r := r.modifyStatus fun s => { s with gameup := s.gameup ||| (guPractice ||| guPaused) }
  { r with mem := { r.mem with players := fun j => (r.mem.players j).clearFlags pfSeen } }

/-- `end_pause`. -/
def endPause (r : Robot) : Robot :=
  (r.modifyStat fun s => { s with flags := s.flags &&& ~~~(sFreeze ||| sCountdown) }).modifyStatus fun s =>
    { s with gameup := s.gameup &&& ~~~(guPractice ||| guPaused) }

/-- The end of `do_pause`: the game is frozen, or goes on in ten seconds. -/
def settlePause (r : Robot) : Robot :=
  if bothHave r tPause then inlFreeze r
  else if !(r.teams home).flags.has tPause && !(r.teams away).flags.has tPause then
    { r.modifyStat fun s => { s with flags := s.flags ||| sCountdown } with
      countdown := { r.countdown with idx := 2, ends := r.stat.ticks + 10 * r.persec, action := .endPause } }
  else r

/-- `do_pause`: PAUSE, PAUSENOW (`now`) or CONTINUE (not `request`). -/
def doPause (r : Robot) (who : Slot) (request now : Bool) : Robot :=
  match checkPlayer r who true with
  | none => r
  | some num =>
    if r.has sPregame then r
    else if request then
      if now then settlePause (r.modifyTeams fun t => { t with flags := t.flags ||| tPause })
      else settlePause (r.modifyTeam num fun t => { t with flags := t.flags ||| tPause })
    else if !(r.teams num).flags.has tPause then r
    else settlePause (r.modifyTeam num fun t => { t with flags := t.flags &&& ~~~tPause })

/-- `do_timeout`. -/
def doTimeout (r : Robot) (who : Slot) : Robot :=
  match checkPlayer r who true with
  | none => r
  | some num =>
    if r.has sPregame then r
    else if (r.teams num).flags.has tTimeout then
      let r := r.modifyTeam num fun t => { t with flags := t.flags &&& ~~~tTimeout, tmout := t.tmout + 1 }
      if (r.teams num.other).flags.has tTimeout then r
      else r.modifyStat fun s => { s with flags := s.flags &&& ~~~sTmout, tmoutTicks := 0 }
    else if (r.teams num).tmout ≤ 0 then r
    else
      (r.modifyTeam num fun t => { t with flags := t.flags ||| tTimeout, tmout := t.tmout - 1 }).modifyStat fun s =>
        { s with flags := s.flags ||| sTmout }

/-- `do_restart` up to `reset_inl`: whether both captains have asked. -/
def doRestart (r : Robot) (who : Slot) : Robot × Bool :=
  match checkPlayer r who true with
  | none => (r, false)
  | some num =>
    if r.has sPregame then (r, false)
    else
      let r := r.modifyTeam num fun t => { t with flags := t.flags ||| tRestart }
      (r, bothHave r tRestart)

/-! ## Messages -/

structure Message where
  sender : Slot
  command : Command

/-- The preconditions of a command: a captain, before a game, in a game. -/
def needs : Command → Bool × Bool × Bool
  | .captain => (false, false, false)
  | .uncaptain | .register => (true, false, false)
  | .pickside _ | .start | .resetgalaxy _ | .gametime _ | .army _ | .scoremode _ | .confine => (true, true, false)
  | .pause | .pausenow | .continue | .timeout | .restart _ => (true, false, true)

/-- `check_command`: the sender meets the preconditions of the command. -/
def allowed (r : Robot) (m : Message) : Bool :=
  let (captain, pregame, ingame) := needs m.command
  match sideOf r m.sender with
  | none => !captain && !pregame && !ingame
  | some num =>
    (!captain || (r.teams num).captain == some m.sender) && (!pregame || r.has sPregame) &&
      (!ingame || r.has (sTourney ||| sOvertime))

/-- A command other than RESTART. -/
def obey (r : Robot) (who : Slot) : Command → Robot
  | .captain => doCaptain r who
  | .uncaptain => doUncaptain r who
  | .pickside pick => doPickside r who pick
  | .start => doStart r who
  | .resetgalaxy galaxy => doResetgalaxy r who galaxy
  | .gametime times => doGametime r who times
  | .army army => doArmy r who army
  | .scoremode mode => doScoremode r who mode
  | .register => doRegister r who
  | .confine => doConfine r who
  | .pause => doPause r who true false
  | .pausenow => doPause r who true true
  | .continue => doPause r who false false
  | .timeout => doTimeout r who
  | .restart _ => r

/-- `checkmess`. The robot resets itself in the middle of it when both captains ask for that: `reset_inl`
then takes the messages that are left. -/
def checkmess : List Message → Robot → Robot
  | [], r => r
  | m :: ms, r =>
    -- no commands during countdown, and no buffering of them
    if r.has sCountdown || !allowed r m then checkmess ms r
    else
      match m.command with
      | .restart galaxy =>
        match doRestart r m.sender with
        | (r, true) => resetInl (checkmess ms r) (some galaxy)
        | (r, false) => checkmess ms r
      | c => checkmess ms (obey r m.sender c)

end Netrek.Inl
