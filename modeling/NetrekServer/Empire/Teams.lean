/-
The teams and their planets: `struct team` of `include/struct.h`, and `checkwin` of `ntserv/daemon.c`
with the start of the parade in `ntserv/conquer.c`.
-/
import NetrekServer.Server

namespace Netrek.Empire

/-! ## Data -/

def maxTeam : Nat := allTeam.toNat
/-- Planets that end the surrender of a team. -/
def surrend : Int := 4
def timerBegin : Int := 100

/-- `te_surrender_pause`. -/
inductive SurrenderPause
  | off
  | onTourn
  | onPlanets
  deriving DecidableEq, Inhabited

/-- `struct team`. -/
structure Team where
  /-- Turns till another starbase is legal. -/
  turns : Int
  /-- Minutes until this team surrenders, and the frame of their last update. -/
  surrender : Int
  surrenderFrame : Int
  surrenderPause : SurrenderPause
  /-- How many planets this team owns. -/
  plcount : Int
  deriving DecidableEq, Inhabited

/-- The server with its teams; `announced` are the teams that `conquerMessage` was called for, the last
one first. -/
structure Realm where
  server : Server
  teams : Word → Team
  /-- `context->frame`. -/
  frame : Int
  pretPlanets : Int
  announced : List Word
  deriving Inhabited

namespace Realm

def player (r : Realm) (i : Slot) : Player := r.server.player i

def victory (r : Realm) : Nat := r.server.setup.victory

def owner (r : Realm) (l : Fin maxPlanets) : Word := (r.server.planet l).owner

def modifyTeam (r : Realm) (t : Word) (f : Team → Team) : Realm :=
  { r with teams := Function.update r.teams t (f (r.teams t)) }

end Realm

/-- The four teams, in the order of their bits. -/
def fourTeams : List Word := [fed, rom, kli, ori]

/-! ## The parade -/

/-- `conquer_begin_by_type`. -/
def conquerBeginByType (s : Server) (winner : Slot) (type : ConquerType) : Server :=
  let s := s.modifyStatus fun st => { st with gameup := st.gameup ||| (guConquer ||| guPaused) }
  { s with conquer := ⟨some winner, (s.player winner).planet, timerBegin, type⟩ }

/-- `conquer_begin`. -/
def conquerBegin (s : Server) (winner : Slot) : Server := conquerBeginByType s winner .endOfGame

/-- `conquer_begin_pret`. -/
def conquerBeginPret (s : Server) (winner : Slot) : Server := conquerBeginByType s winner .pret

/-! ## Counting -/

/-- The planets of a home system. -/
def systemPlanet (i : Fin 4) (h : Fin 10) : Fin maxPlanets := ⟨i.val * 10 + h.val, by unfold maxPlanets; omega⟩

/-- Count one for the team `t`. -/
def bump (c : Word → Nat) (t : Word) : Word → Nat := Function.update c t (c t + 1)

/-- `teamtemp[]`: how many planets of the system each team owns. -/
def teamtemp (r : Realm) (i : Fin 4) : Word → Nat :=
  (List.finRange 10).foldl (fun c h => bump c (r.owner (systemPlanet i h))) fun _ => 0

/-- The system counts for the first of the teams that the others have no planet against. -/
def creditSystem (r : Realm) (team : Word → Nat) (i : Fin 4) : Word → Nat :=
  let temp := teamtemp r i
  if temp fed + temp rom + temp kli = 0 then bump team ori
  else if temp fed + temp rom + temp ori = 0 then bump team kli
  else if temp fed + temp kli + temp ori = 0 then bump team rom
  else if temp rom + temp kli + temp ori = 0 then bump team fed
  else team

/-- `team[]`: the home systems that count for each team. -/
def homeSystems (r : Realm) : Word → Nat := (List.finRange 4).foldl (creditSystem r) fun _ => 0

/-- `te_plcount` of a team is set to 0. -/
def clearCount (r : Realm) (t : Word) : Realm := r.modifyTeam t fun x => { x with plcount := 0 }

/-- A planet is counted for its owner. -/
def countPlanet (r : Realm) (l : Fin maxPlanets) : Realm :=
  r.modifyTeam (r.owner l) fun x => { x with plcount := x.plcount + 1 }

def countSystem (r : Realm) (i : Fin 4) : Realm := (List.finRange 10).foldl (fun r h => countPlanet r (systemPlanet i h)) r

/-- `te_plcount` is counted anew. -/
def recount (r : Realm) : Realm := (List.finRange 4).foldl countSystem ((nobody :: fourTeams).foldl clearCount r)

/-! ## The check -/

/-- The surrender of the player's team is over if it is back to enough planets. -/
def endSurrender (r : Realm) (winner : Slot) : Realm :=
  let t := (r.player winner).team
  if 0 < (r.teams t).surrender ∧ (r.teams t).plcount = surrend then
    r.modifyTeam t fun x => { x with surrender := 0, surrenderFrame := r.frame }
  else r

/-- A round of the pre-tournament game is won with enough planets. -/
def checkPret (r : Realm) (winner : Slot) : Realm :=
  if !r.server.mem.status.tourn && r.server.mem.status.gameup.has guPret then
    let need := 10 + r.pretPlanets - (r.teams (r.player winner).team).plcount
    if need < 1 then { r with server := conquerBeginPret r.server winner } else r
  else r

/-- `checkwin`. -/
def checkwin (r : Realm) (winner : Slot) : Realm × Bool :=
  if r.server.setup.inlMode then (r, false)
  else
    let team := homeSystems r
    let victory := r.victory
    let r := endSurrender (recount r) winner
    if fourTeams.any fun t => victory ≤ team t then
      ({ r with announced := (r.player winner).team :: r.announced, server := conquerBegin r.server winner }, true)
    else (checkPret r winner, false)

end Netrek.Empire
