/-
`robots/inldefs.h` and the start and end of a game in `robots/inl.c`: the robot that moderates a
league game, with its table of the two teams, its clocks, and the shared memory it works on.
Text for the players is left out.
-/
import Mathlib.Data.PNat.Basic
import NetrekServer.Struct

namespace Netrek.Inl

/-! ## Teams -/

/-- An index of `inl_teams`. -/
abbrev Side := Fin 2
def home : Side := 0
def away : Side := 1

/-- `get_other_side`. -/
def Side.other (t : Side) : Side := 1 - t

theorem Side.cases (t : Side) : t = home ∨ t = away := by
  revert t
  decide

theorem Side.eq_other {t s : Side} (h : t ≠ s) : t = s.other := by
  revert t s
  decide

/-- An index into `sides`, or one of the two marks that are none. -/
inductive Choice
  | notChoosen
  | relinquish
  | race (c : Fin 4)
  deriving DecidableEq, Inhabited

/-- `sides[c].flag`. -/
def sideFlag : Fin 4 → Word
  | 0 => fed
  | 1 => rom
  | 2 => kli
  | 3 => ori

/-- `sides[c].diagonal`. -/
def diagonal : Fin 4 → Fin 4
  | 0 => 2
  | 1 => 3
  | 2 => 0
  | 3 => 1

/-- The first two indices of `sides`. -/
def fedSide : Fin 4 := 0
def romSide : Fin 4 := 1

/-- The race of a side before races are picked. -/
def homeTeam : Word := fed
def awayTeam : Word := rom

def tStart : Word := 0x01
def tResetGalaxy : Word := 0x02
def tPause : Word := 0x04
def tRestart : Word := 0x10
def tTimeout : Word := 0x20
/-- The side cannot pick again. -/
def tSideLocked : Word := 0x40
def tRegister : Word := 0x100

/-- `Team`. -/
structure Team where
  captain : Option Slot
  side : Word
  sideIndex : Choice
  startArmies : Int
  time : Int
  overtime : Int
  flags : Word
  tmout : Int
  planets : Int
  scoreMode : Int
  absScore : Int
  semiScore : Int
  weightedScore : ℚ
  deriving Inhabited

/-! ## The game -/

def sTmout : Word := 0x01
def sFreeze : Word := 0x04
def sOvertime : Word := 0x08
def sPregame : Word := 0x10
def sTourney : Word := 0x40
def sCountdown : Word := 0x80
def sConfine : Word := 0x100
def sDraft : Word := 0x200

/-- `Inl_stats`. -/
structure Stats where
  startArmies : Int
  change : Bool
  flags : Word
  ticks : Int
  gameTicks : Int
  tmoutTicks : Int
  time : Int
  overtime : Int
  extratime : Int
  remaining : Int
  scoreMode : Int
  weightedDivisor : ℚ
  deriving Inhabited

/-- The functions that a countdown ends in. -/
inductive Action
  | startTourney
  | endPause
  | endTourney
  deriving DecidableEq, Inhabited

/-- `Inl_countdown`. -/
structure Countdown where
  idx : Nat
  counts : List Int
  act : Nat
  ends : Int
  action : Action
  deriving DecidableEq, Inhabited

/-- The table of `inl_countdown`, as long as its array. -/
def startCounts : List Int := [60, 30, 10, 5, 4, 3, 2, 1, 0, -1, 0, 0, 0, 0, 0, 0, 0, 0, 0, 0]

/-- The table of `inl_game`. -/
def gameCounts : List Int := [2700, 1800, 600, 300, 120, 60, 30, 10, 5, 4, 3, 2, 1, 0, -1, 0, 0, 0, 0, 0]

/-- What happens in a game. -/
inductive Note
  /-- The one-minute countdown begins, with these races. -/
  | starting (homeIndex awayIndex : Choice)
  | started
  /-- `inl_game` calls `end_tourney`, in regulation or extra time or not. -/
  | timeUp (regulation : Bool) (gameTicks ends : Int)
  | extraTime
  | overtime
  | gameOver
  /-- `players[NONE]` is accessed. -/
  | strayPlayer
  /-- A countdown reads beyond its table. -/
  | strayCount
  deriving DecidableEq

structure Robot where
  fps : ℕ+
  /-- `pl_virgin`. -/
  virgin : Fin maxPlanets → Planet
  /-- The function `exp` on doubles. -/
  exp : ℚ → ℚ
  /-- What the memory before the table `sides` holds in place of a flag. -/
  before : Choice → Word
  mem : Memory
  /-- `p_pos` of each player. -/
  pos : Slot → Int
  /-- `tournmask` of each queue. -/
  tournmask : Nat → Word
  teams : Side → Team
  stat : Stats
  /-- `inl_countdown`. -/
  countdown : Countdown
  /-- `inl_game`. -/
  game : Countdown
  obliterateTimer : Int
  /-- Newest first. -/
  log : List Note
  deriving Inhabited

/-- Ten ticks a second. -/
def tenTicks : ℕ+ := 10

namespace Robot

def persec (r : Robot) : Int := r.fps
def permin (r : Robot) : Int := 60 * r.persec

def player (r : Robot) (i : Slot) : Player := r.mem.players i

def modifyPlayer (r : Robot) (i : Slot) (f : Player → Player) : Robot := { r with mem := r.mem.modifyPlayer i f }

def modifyTeam (r : Robot) (t : Side) (f : Team → Team) : Robot :=
  { r with teams := Function.update r.teams t (f (r.teams t)) }

def modifyTeams (r : Robot) (f : Team → Team) : Robot := { r with teams := fun t => f (r.teams t) }

def modifyStat (r : Robot) (f : Stats → Stats) : Robot := { r with stat := f r.stat }

def modifyStatus (r : Robot) (f : Status → Status) : Robot :=
  { r with mem := { r.mem with status := f r.mem.status } }

def note (r : Robot) (n : Note) : Robot := { r with log := n :: r.log }

/-- `inl_stat.flags & m`. -/
def has (r : Robot) (m : Word) : Bool := r.stat.flags.has m

/-- `sides[inl_teams[t].side_index].flag`. -/
def flagOf (r : Robot) (t : Side) : Word :=
  match (r.teams t).sideIndex with
  | .race c => sideFlag c
  | c => r.before c

/-- `players[who].f = ...`, where `who` may be `NONE`. -/
def modifyCaptain (r : Robot) (who : Option Slot) (f : Player → Player) : Robot :=
  match who with
  | some i => r.modifyPlayer i f
  | none => r.note .strayPlayer

theorem teams_modifyTeam (r : Robot) (t i : Side) (f : Team → Team) :
    (r.modifyTeam t f).teams i = if i = t then f (r.teams t) else r.teams i := by
  unfold modifyTeam
  simp only [Function.update_apply]

@[simp] theorem modifyTeam_self (r : Robot) (t : Side) (f : Team → Team) :
    (r.modifyTeam t f).teams t = f (r.teams t) := by
  rw [teams_modifyTeam, if_pos rfl]

end Robot

/-! ## Obliteration -/

def remap (team : Word) : Int := ([0, 1, 2, -1, 3, -1, -1, -1, 4] : List Int).getD team.toNat 0

/-- The first planet of the team in the ten of its home. -/
def homePlanet (m : Memory) (team : Word) : Option (Fin maxPlanets) :=
  let k := 10 * (remap team - 1)
  if 0 ≤ k ∧ k ≤ 30 then
    (List.finRange maxPlanets).find? fun l =>
      decide (k ≤ l.val ∧ l.val < k + 10) && (m.planets l).owner == team
  else none

/-- Armies in flight are dropped at home, in a tournament. -/
def dropArmies (r : Robot) (j : Slot) : Robot :=
  let p := r.player j
  if 0 < p.armies then
    match homePlanet r.mem p.team with
    | none => r
    | some l =>
      if r.mem.status.tourn then
        { r with mem := (r.mem.modifyPlanet l fun x => { x with armies := x.armies + p.armies }).modifyPlayer j
                   fun p => { p with armies := 0 } }
      else r
  else r

/-- The ship explodes; 1 makes war with all, 2 makes peace with all. -/
def explodeShip (wflag : Nat) (kreason : WhyDead) (p : Player) : Player :=
  let hostile := if wflag = 1 then allTeam else if wflag = 2 then 0 else p.hostile
  { p with
    status := .pexplode
    whydead := kreason
    explode := if p.ship.type = .starbase then 2 * sbExpViews else 10
    ntorp := 0
    nplasmatorp := 0
    hostile := hostile
    war := p.swar ||| hostile }

/-- One turn of the loop of `obliterate`. -/
def obliterateOne (wflag : Nat) (kreason : WhyDead) (r : Robot) (j : Slot) : Robot :=
  if (r.player j).status = .pfree then r
  else
    let r := if kreason = .tournend then r.modifyPlayer j fun p => { p with inlCaptain := false } else r
    if (r.player j).status = .pobserv then r.modifyPlayer j fun p => { p with status := .pexplode, whydead := kreason }
    else if !(r.player j).flags.has pfRobot && decide (r.pos j < 0) then
      r.modifyPlayer j fun p => { p with status := .pexplode, whydead := .kquit, explode := 10, whodead := 0 }
    else dropArmies (r.modifyPlayer j (explodeShip wflag kreason)) j

/-- `obliterate`. -/
def obliterate (r : Robot) (wflag : Nat) (kreason : WhyDead) : Robot :=
  (List.finRange maxPlayer).foldl (obliterateOne wflag kreason)
    { r with obliterateTimer := 10, mem := { r.mem with torps := fun _ => default } }

/-- Obliteration concerns shared memory, but not the status of the server. -/
theorem obliterateOne_eq (wflag : Nat) (kreason : WhyDead) (r : Robot) (j : Slot) :
    ∃ m, obliterateOne wflag kreason r j = { r with mem := m } ∧ m.status = r.mem.status := by
  have hmodify (r : Robot) (f : Player → Player) : ∃ m, r.modifyPlayer j f = { r with mem := m } ∧
      m.status = r.mem.status := ⟨_, rfl, rfl⟩
  have hdrop (r : Robot) : ∃ m, dropArmies r j = { r with mem := m } ∧ m.status = r.mem.status := by
    unfold dropArmies
    dsimp only
    split
    · split
      · exact ⟨_, rfl, rfl⟩
      · split <;> exact ⟨_, rfl, rfl⟩
    · exact ⟨_, rfl, rfl⟩
  have hrest (r : Robot) : ∃ m, (if (r.player j).status = .pobserv then
        r.modifyPlayer j fun p => { p with status := .pexplode, whydead := kreason }
      else if !(r.player j).flags.has pfRobot && decide (r.pos j < 0) then
        r.modifyPlayer j fun p => { p with status := .pexplode, whydead := .kquit, explode := 10, whodead := 0 }
      else dropArmies (r.modifyPlayer j (explodeShip wflag kreason)) j) = { r with mem := m } ∧
      m.status = r.mem.status := by
    split
    · exact hmodify r _
    split
    · exact hmodify r _
    · obtain ⟨m, hm, hs⟩ := hdrop (r.modifyPlayer j (explodeShip wflag kreason))
      exact ⟨m, hm, hs⟩
  unfold obliterateOne
  dsimp only
  split
  · exact ⟨_, rfl, rfl⟩
  · split
    · exact hrest (r.modifyPlayer j _)
    · exact hrest r

theorem obliterate_eq (r : Robot) (wflag : Nat) (kreason : WhyDead) :
    ∃ m, obliterate r wflag kreason = { r with mem := m, obliterateTimer := 10 } ∧ m.status = r.mem.status := by
  have hloop : ∀ (l : List Slot) (r : Robot), ∃ m,
      l.foldl (obliterateOne wflag kreason) r = { r with mem := m } ∧ m.status = r.mem.status := by
    intro l
    induction l with
    | nil => exact fun r => ⟨_, rfl, rfl⟩
    | cons j l ih =>
      intro r
      obtain ⟨m, hm, hs⟩ := obliterateOne_eq wflag kreason r j
      obtain ⟨m', hm', hs'⟩ := ih { r with mem := m }
      refine ⟨m', ?_, hs'.trans hs⟩
      rw [List.foldl_cons, hm, hm']
  obtain ⟨m, hm, hs⟩ := hloop (List.finRange maxPlayer)
    { r with obliterateTimer := 10, mem := { r.mem with torps := fun _ => default } }
  exact ⟨m, hm, hs⟩

theorem obliterate_teams (r : Robot) (wflag : Nat) (kreason : WhyDead) : (obliterate r wflag kreason).teams = r.teams := by
  obtain ⟨m, hm, -⟩ := obliterate_eq r wflag kreason
  rw [hm]

theorem obliterate_log (r : Robot) (wflag : Nat) (kreason : WhyDead) : (obliterate r wflag kreason).log = r.log := by
  obtain ⟨m, hm, -⟩ := obliterate_eq r wflag kreason
  rw [hm]

theorem obliterate_fps (r : Robot) (wflag : Nat) (kreason : WhyDead) : (obliterate r wflag kreason).fps = r.fps := by
  obtain ⟨m, hm, -⟩ := obliterate_eq r wflag kreason
  rw [hm]

theorem obliterate_game (r : Robot) (wflag : Nat) (kreason : WhyDead) : (obliterate r wflag kreason).game = r.game := by
  obtain ⟨m, hm, -⟩ := obliterate_eq r wflag kreason
  rw [hm]

theorem obliterate_before (r : Robot) (wflag : Nat) (kreason : WhyDead) :
    (obliterate r wflag kreason).before = r.before := by
  obtain ⟨m, hm, -⟩ := obliterate_eq r wflag kreason
  rw [hm]

theorem obliterate_stat (r : Robot) (wflag : Nat) (kreason : WhyDead) : (obliterate r wflag kreason).stat = r.stat := by
  obtain ⟨m, hm, -⟩ := obliterate_eq r wflag kreason
  rw [hm]

theorem obliterate_countdown (r : Robot) (wflag : Nat) (kreason : WhyDead) :
    (obliterate r wflag kreason).countdown = r.countdown := by
  obtain ⟨m, hm, -⟩ := obliterate_eq r wflag kreason
  rw [hm]

/-! ## Beginning and end -/

def inlRegulation : Int := 60
def inlOvertime : Int := 20

def quHome : Nat := 2
def quAway : Nat := 3
def quHomeObs : Nat := 4
def quAwayObs : Nat := 5

/-- The races that the players of each side may choose. -/
def setMasks (r : Robot) (home away : Word) : Robot :=
  { r with tournmask := fun q =>
      if q = quHome ∨ q = quHomeObs then home else if q = quAway ∨ q = quAwayObs then away else r.tournmask q }

/-- A team before a game. -/
def freshTeam (t : Side) (x : Team) : Team :=
  { x with
    captain := none
    side := if t = home then homeTeam else awayTeam
    sideIndex := .notChoosen
    startArmies := 12
    time := inlRegulation
    overtime := inlOvertime
    flags := 0
    tmout := 1
    planets := 10
    scoreMode := 0
    absScore := 0
    semiScore := 0
    weightedScore := 0 }

/-- `pl_reset_inl`: a new galaxy, whose features are chosen at random, or the planets as they were. -/
def plResetInl (r : Robot) (galaxy : Option (Fin maxPlanets → Planet)) : Robot :=
  match galaxy with
  | some planets => { r with mem := { r.mem with planets := fun l => { planets l with info := allTeam } } }
  | none =>
    { r with mem := { r.mem with planets := fun l =>
        { r.mem.planets l with
          info := (r.virgin l).info, owner := (r.virgin l).owner, armies := r.stat.startArmies } } }

/-- `reset_inl` after the messages are flushed; a new galaxy is given unless a tournament has ended. -/
def resetInl (r : Robot) (galaxy : Option (Fin maxPlanets → Planet)) : Robot :=
  let r := r.modifyStatus fun s => { s with gameup := (s.gameup ||| (guChaos ||| guPractice)) &&& ~~~guPaused }
  let r := if galaxy.isSome then obliterate r 1 .kprovidence else r
  let r := r.modifyStat fun s =>
    { s with
      startArmies := 12, change := true, flags := sPregame, ticks := 0, gameTicks := 0, tmoutTicks := 0
      time := inlRegulation * r.permin, overtime := inlOvertime * r.permin, remaining := 0, scoreMode := 0
      weightedDivisor := 0 }
  let r := { r with teams := fun t => freshTeam t (r.teams t) }
  match galaxy with
  | some planets => plResetInl r (some planets)
  | none => { setMasks r fed rom with pos := fun _ => -1 }

/-- `start_countdown`. -/
def startCountdown (r : Robot) : Robot :=
  let r := r.note (.starting (r.teams home).sideIndex (r.teams away).sideIndex)
  let r := r.modifyStat fun s => { s with change := false }
  let r := { r with teams := fun t => { r.teams t with side := r.flagOf t } }
  let r := setMasks r (r.teams home).side (r.teams away).side
  let r := obliterate r 2 .kprovidence
  let r := r.modifyStat fun s => { s with flags := sCountdown }
  { r with countdown := { r.countdown with idx := 0, ends := r.stat.ticks + 60 * r.persec, action := .startTourney } }

theorem startCountdown_teams (r : Robot) (t : Side) :
    (startCountdown r).teams t = { r.teams t with side := r.flagOf t } := by
  unfold startCountdown
  dsimp only [Robot.modifyStat]
  rw [obliterate_teams]
  rfl

/-- `start_countdown` leaves the races that play. -/
theorem startCountdown_side (r : Robot) (t : Side) :
    ((startCountdown r).teams t).side = (startCountdown r).flagOf t := by
  have hbefore : (startCountdown r).before = r.before := by
    unfold startCountdown
    dsimp only [Robot.modifyStat]
    rw [obliterate_before]
    rfl
  unfold Robot.flagOf
  rw [startCountdown_teams, hbefore]
  rfl

/-- `reset_stats`: the statistics of the players, and what of them is kept elsewhere. -/
def resetStats (r : Robot) : Robot :=
  let r := r.modifyStatus fun s => { s with armsbomb := 10, kills := 10, losses := 10 }
  { r with mem := { r.mem with players := fun j =>
      { r.mem.players j with kills := 0, armies := 0, genoplanets := 0, genoarmsbomb := 0, planets := 0, armsbomb := 0 } } }

/-- `start_tourney`. -/
def startTourney (r : Robot) : Robot :=
  let r := plResetInl (r.note .started) none
  let r := r.modifyStat fun s => { s with flags := (s.flags ||| sTourney) &&& ~~~(sPregame ||| sCountdown ||| sConfine) }
  let r := resetStats (obliterate r 1 .tournstart)
  let r := r.modifyStat fun s => { s with gameTicks := 0, remaining := -1 }
  let r := r.modifyStatus fun s => { s with gameup := s.gameup &&& ~~~(guChaos ||| guPractice), tourn := true }
  { r with game := { r.game with idx := 0, ends := r.stat.time } }

/-! ## Captains -/

/-- The captain of a team is forgotten when its slot is free. -/
def forgetCaptain (r : Robot) (t : Side) : Robot :=
  match (r.teams t).captain with
  | none => r
  | some c =>
    if (r.player c).status = .pfree then
      let r := r.modifyTeam t fun x => { x with captain := none }
      -- the flag is cleared by the entry just changed
      r.modifyCaptain (r.teams t).captain fun p => { p with inlCaptain := false }
    else r

/-- `player_maint`. -/
def playerMaint (r : Robot) : Robot := forgetCaptain (forgetCaptain r home) away

end Netrek.Inl
