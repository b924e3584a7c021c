/-
The rest of `robots/inl.c`: the scores, the genocide, the end of a game, the countdowns, and
`inlmove`, which the robot runs at every tick. Scores are rational numbers.
-/
import Mathlib.Algebra.Order.Ring.Rat
import Mathlib.Data.Fintype.Card
import NetrekServer.Inl.Command

namespace Netrek.Inl

/-! ## Scores -/

/-- The planets of an owner. -/
def planetCount (m : Memory) (owner : Word) : Nat :=
  (List.finRange maxPlanets).countP fun l => (m.planets l).owner == owner

/-- `countplanets`. -/
def countplanets (r : Robot) : Robot :=
  { r with teams := fun t => { r.teams t with planets := planetCount r.mem (r.flagOf t) } }

/-- Who is ahead by a margin: -1 home, 1 away, 0 nobody. -/
def normWinner (r : Robot) : Int :=
  if (r.teams home).planets > (r.teams away).planets + 2 then -1
  else if (r.teams away).planets > (r.teams home).planets + 2 then 1
  else 0

/-- Who is ahead in continuous scores. -/
def contWinner (r : Robot) : Int :=
  let divisor := r.stat.weightedDivisor
  let delta := (r.teams home).weightedScore / divisor - (r.teams away).weightedScore / divisor
  if 2 ≤ delta then -1 else if delta ≤ -2 then 1 else 0

/-- `check_winner`, with the planets counted: -1 for extra time, 0 for a tie, else how the game is won. -/
def winner (r : Robot) : Int :=
  let norm := normWinner r
  if r.stat.scoreMode = 0 ∨ r.has sOvertime = true then if norm ≠ 0 then 1 else 0
  else if r.stat.weightedDivisor < 1 then 0
  else if r.stat.gameTicks < 100 then 0
  else
    let cont := contWinner r
    if r.stat.scoreMode = 1 then if cont ≠ 0 then 2 else if norm ≠ 0 then 3 else 0
    else if r.stat.scoreMode = 2 then
      if cont = 0 ∧ norm = 0 then 0 else if cont + norm ≠ 0 then 4 else -1
    else 0

/-- `check_winner`. -/
def checkWinner (r : Robot) : Robot × Int := (countplanets r, winner (countplanets r))

/-- `announce_scores`, which counts the planets. -/
def announceScores (r : Robot) : Robot :=
  if r.stat.gameTicks < 1 then r else if r.stat.weightedDivisor < 1 then r else (checkWinner r).1

/-- The weight of the time that has passed. -/
def scoreWeight (r : Robot) : ℚ :=
  let w : ℚ := r.stat.gameTicks / r.stat.time
  let w := if w < 0 then 0 else if 1 < w then 1 else w
  let w := r.exp w - 71828183 / 100000000 * w
  if w < 1 then 1 else if 2 < w then 2 else w

/-- A planet scores for its team. -/
def scorePlanet (weight : ℚ) (r : Robot) (p : Fin maxPlanets) : Robot :=
  { r with teams := fun t =>
      let x := r.teams t
      if r.flagOf t = (r.mem.planets p).owner then
        let points : Int := if 2 < (r.mem.planets p).armies then 2 else 1
        { x with
          absScore := x.absScore + points
          semiScore := if r.stat.gameTicks % r.permin = 0 then x.semiScore + points else x.semiScore
          weightedScore := x.weightedScore + weight * points }
      else x }

/-- `update_scores`. -/
def updateScores (r : Robot) : Robot :=
  let weight := scoreWeight r
  let r := r.modifyStat fun s => { s with weightedDivisor := s.weightedDivisor + weight * 2 }
  let r := (List.finRange maxPlanets).foldl (scorePlanet weight) r
  if r.stat.scoreMode ≠ 0 ∧ r.stat.gameTicks % (5 * r.permin) = 0 then announceScores r else r

/-! ## Genocide -/

/-- The side whose race has no planet, the home side first. -/
def genoLoser (r : Robot) : Option Side :=
  if planetCount r.mem (r.teams home).side = 0 then some home
  else if planetCount r.mem (r.teams away).side = 0 then some away
  else none

/-- `genocideMessage` lists the players of both teams, and clears what it has listed. -/
def listBest (r : Robot) (team : Word) : Robot :=
  { r with mem := { r.mem with players := fun j =>
      let p := r.mem.players j
      if p.team ≠ team ∨ p.status = .pfree then p else { p with genoplanets := 0, genoarmsbomb := 0 } } }

/-- The number of a side, as the source compares it with a team. -/
def sideNumber (t : Side) : Word := BitVec.ofNat 32 t.val

/-- A ship that goes with its race. -/
def genocide (loser : Side) (captain : Option Slot) (p : Player) : Player :=
  if p.status = .palive ∧ p.team = sideNumber loser then
    { p with
      status := .pexplode
      explode := if p.ship.type = .starbase then 2 * sbExpViews else 10
      whydead := .kgenocide
      whodead := (captain.map Fin.val).getD p.whodead }
  else p

/-- `checkgeno`. -/
def checkgeno (r : Robot) : Robot × Bool :=
  match genoLoser r with
  | none => (r, false)
  | some loser =>
    let winner := loser.other
    let r := listBest (listBest r (r.teams winner).side) (r.teams loser).side
    let kill := genocide loser (r.teams winner).captain
    ({ r with mem := { r.mem with players := fun j => kill (r.mem.players j) } }, true)

/-! ## The end of a game -/

/-- The minutes of an extra time, in ticks, and of all. -/
def extraTicks (r : Robot) : Int := 5 * r.permin
def extraMax (r : Robot) : Int := 15 * r.permin

/-- The robot tells the captains of an official game; it is not checked that there are any. -/
def tellCaptains (r : Robot) : Robot :=
  if bothHave r tRegister then
    [home, away].foldl (fun r t => r.modifyCaptain (r.teams t).captain fun p => p) r
  else r

/-- The end of `end_tourney` for a game that is over, with the messages that come in meanwhile. -/
def gameOver (r : Robot) (flush : List Message) : Robot :=
  let r := setMasks (r.note .gameOver) homeTeam awayTeam
  let r := { r with mem := { r.mem with planets := fun l => { r.mem.planets l with info := allTeam } } }
  let r := obliterate r 1 .tournend
  let r := r.modifyStatus fun s =>
    { s with tourn := false, gameup := (s.gameup ||| (guChaos ||| guPractice)) &&& ~~~(guPaused &&& guInlDrafted) }
  let r := tellCaptains { r with pos := fun _ => -1 }
  resetInl (checkmess flush r) none

/-- Extra time. -/
def extraTime (r : Robot) : Robot :=
  let r := r.note .extraTime
  let r := if r.stat.extratime = 0 then obliterate r 0 .kprovidence else r
  let r := r.modifyStat fun s => { s with extratime := s.extratime + extraTicks r }
  announceScores { r with game := { r.game with idx := 0, ends := r.game.ends + extraTicks r } }

/-- Overtime. -/
def overtime (r : Robot) : Robot :=
  let r := (r.note .overtime).modifyStat fun s =>
    { s with flags := (s.flags &&& ~~~(sTourney ||| sCountdown)) ||| sOvertime }
  let r := obliterate r 0 .kprovidence
  announceScores { r with game := { r.game with idx := 0, ends := r.game.ends + r.stat.overtime } }

/-- `end_tourney`. -/
def endTourney (r : Robot) (flush : List Message) : Robot :=
  let (r, cond) := checkWinner r
  if 0 < cond then gameOver (announceScores r) flush
  else if r.has sTourney = true ∧ cond = -1 then
    if r.stat.extratime < extraMax r then extraTime r else gameOver (announceScores r) flush
  else if r.has sTourney = true then overtime r
  else if r.game.ends ≤ r.stat.gameTicks then gameOver (announceScores r) flush
  else r

/-! ## Countdowns -/

/-- The loop of `countdown`; nothing if it reads beyond the table. -/
def advance (persec counter : Int) : Nat → Countdown → Option Countdown
  | 0, _ => none
  | fuel + 1, c =>
    if c.idx = c.act then some c
    else
      match c.counts[c.idx + 1]? with
      | none => none
      | some n =>
        if c.ends - n * persec ≤ counter then advance persec counter fuel { c with idx := c.idx + 1 } else some c

/-- `countdown`: the countdown afterwards, and whether its action is due. -/
def countdown (persec counter : Int) (c : Countdown) : Option (Countdown × Bool) :=
  match c.counts[c.idx]? with
  | none => none
  | some n =>
    if counter < c.ends - n * persec then some (c, false)
    else
      match advance persec counter c.counts.length c with
      | none => none
      | some c => some ({ c with idx := c.idx + 1 }, c.idx == c.act)

/-- The action of a countdown. -/
def act (r : Robot) (flush : List Message) : Action → Robot
  | .startTourney => startTourney r
  | .endPause => endPause r
  | .endTourney => endTourney r flush

/-- `countdown` on `inl_countdown`. -/
def countStart (r : Robot) : Robot :=
  match countdown r.persec r.stat.ticks r.countdown with
  | none => r.note .strayCount
  | some (c, false) => { r with countdown := c }
  | some (c, true) => act { r with countdown := c } [] c.action

/-- `countdown` on `inl_game`. -/
def countGame (r : Robot) (flush : List Message) : Robot :=
  match countdown r.persec r.stat.gameTicks r.game with
  | none => r.note .strayCount
  | some (c, false) => { r with game := c }
  | some (c, true) =>
    act ({ r with game := c }.note (.timeUp (r.has sTourney) r.stat.gameTicks c.ends)) flush c.action

/-! ## Ticks -/

/-- `all_alert`. -/
def allAlert (r : Robot) (stat : Word) : Bool :=
  (List.finRange maxPlayer).all fun j => (r.player j).status != .palive || (r.player j).flags.has stat

/-- The clock of the game goes on. -/
def countTick (r : Robot) : Robot :=
  let r := r.modifyStat fun s => { s with gameTicks := s.gameTicks + 1 }
  let r := r.modifyStat fun s =>
    { s with remaining :=
        s.time + (if s.flags.has sOvertime then s.overtime else 0) + s.extratime - s.gameTicks }
  { r with obliterateTimer := if 0 < r.obliterateTimer then r.obliterateTimer - 1 else r.obliterateTimer }

/-- A timeout that has been called freezes the game when all is quiet. -/
def checkTimeout (r : Robot) : Robot :=
  if r.has sTmout then
    let r := r.modifyStat fun s => { s with tmoutTicks := s.tmoutTicks + 1 }
    if r.obliterateTimer = 0 ∧ (1300 < r.stat.tmoutTicks ∨ allAlert r pfGreen = true ∨
        (800 < r.stat.tmoutTicks ∧ allAlert r pfYellow = true)) then
      let r := r.modifyStat fun s => { s with flags := s.flags &&& ~~~sTmout, tmoutTicks := 0 }
      inlFreeze (r.modifyTeams fun t => { t with flags := t.flags &&& ~~~tTimeout })
    else r
  else r

/-- The messages that come in at a tick: when the robot looks for them, and while it ends a game. -/
structure Mail where
  mess : List Message
  sudden : List Message
  time : List Message
  geno : List Message
  deriving Inhabited

/-- The check for sudden death in overtime. -/
def suddenDeath (r : Robot) (mail : Mail) : Robot :=
  if r.has sOvertime = true ∧ r.stat.gameTicks % r.persec ≠ 0 then endTourney r mail.sudden else r

/-- The periodic countdown. -/
def periodic (r : Robot) (mail : Mail) : Robot :=
  if r.stat.gameTicks % r.persec = 0 then countGame r mail.time else r

/-- The check for a genocide. -/
def genoCheck (r : Robot) (mail : Mail) : Robot :=
  match checkgeno r with
  | (r, true) => endTourney r mail.geno
  | (r, false) => r

/-- The part of `inlmove` before the game goes on. -/
def prepare (r : Robot) (mail : Mail) : Robot :=
  let r := playerMaint (r.modifyStat fun s => { s with ticks := s.ticks + 1 })
  let r := if r.has sCountdown then countStart r else r
  checkmess mail.mess r

/-- A game is being played. -/
def playing (r : Robot) : Bool := r.has (sTourney ||| sOvertime) && !r.has sFreeze

/-- The part of `inlmove` up to the check for a genocide. -/
def play (r : Robot) (mail : Mail) : Robot :=
  let r := (checkTimeout (countTick r)).modifyStatus fun s => { s with tourn := true }
  updateScores (periodic (suddenDeath r mail) mail)

/-- `inlmove`. -/
def inlmove (r : Robot) (mail : Mail) : Robot :=
  let r := prepare r mail
  if playing r then genoCheck (play r mail) mail else r

end Netrek.Inl
