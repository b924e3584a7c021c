/-
`ntserv/draft.c`: two captains pick their teams from a pool in turn. The daemon moves the ships to
their places and acts when they arrive; the picks of the captains are `inl_draft_select`.
-/
import NetrekServer.Enter
import NetrekServer.Request.Interface

namespace Netrek.Draft

open Netrek.Request

/-! ## State -/

/-- `p_inl_x`, `p_inl_y` and `p_inl_pool`. -/
structure Spot where
  x : Int
  y : Int
  pool : Int
  deriving DecidableEq, Inhabited

/-- What is on record: a pick with its number, or a player who enters the game. -/
inductive Note
  | drafted (j : Slot) (team : Word) (pick : Int)
  | entered (j : Slot)
  deriving DecidableEq

structure Hall where
  world : World
  setup : Setup
  /-- `context->inl_draft`. -/
  draft : InlDraft
  /-- `context->inl_pool`. -/
  inlPool : Int
  /-- `inl_draft_style`. -/
  style : Int
  spots : Slot → Spot
  /-- The ships that have arrived at a place since the draft began. -/
  arrived : Slot → Bool
  /-- Newest first. -/
  log : List Note
  deriving Inhabited

namespace Hall

def player (d : Hall) (i : Slot) : Player := d.world.mem.players i

def modifyPlayer (d : Hall) (i : Slot) (f : Player → Player) : Hall := { d with world := d.world.modifyPlayer i f }

def modifySpot (d : Hall) (i : Slot) (f : Spot → Spot) : Hall :=
  { d with spots := Function.update d.spots i (f (d.spots i)) }

def modifyStatus (d : Hall) (f : Status → Status) : Hall :=
  { d with world := { d.world with mem := { d.world.mem with status := f d.world.mem.status } } }

def gameup (d : Hall) (m : Word) : Bool := d.world.mem.status.gameup.has m

def announce (d : Hall) (fmt text : String) : Hall :=
  { d with world := d.world.pmessage 0 0x08 "GOD->ALL" 255 fmt text }

end Hall

/-! ## Places -/

def draftX : Int := gWidth / 2
def draftY : Int := gWidth / 2
/-- Width of tactical. -/
def draftW : Int := gWidth / 5

def centreOutwards : Int := 0
def leftToRight : Int := 1
def bottomToTop : Int := 2

/-- An offset to the side of the home team or of the away team. -/
def sideways (team : Word) (d : Int) : Int := if team = fed then d else if team = rom then -d else 0

/-- `inl_draft_place_captain`. -/
def placeCaptain (style : Int) (p : Player) (s : Spot) : Spot :=
  if style = leftToRight then { s with x := draftX, y := draftY + sideways p.team 2000 }
  else if style = bottomToTop then { s with x := draftX + sideways p.team (draftW / 10), y := draftY }
  else if style = centreOutwards then
    { s with x := draftX, y := if p.team = fed ∨ p.team = rom then draftY + sideways p.team 2000 else s.y }
  else s

/-- `inl_draft_place_pool`. -/
def placePool (style inlPool : Int) (s : Spot) : Spot :=
  if style = leftToRight then { s with x := draftX - 10000 + s.pool * (10000 / 18) + 1000, y := draftY }
  else if style = bottomToTop then
    let dx := draftW / 2
    { s with x := draftX - dx / 2 + s.pool * (dx / 14), y := draftY + draftW / 5 }
  else if style = centreOutwards then
    let dx := draftW / 20
    { s with x := if inlPool = 0 then draftX else draftX - (dx * inlPool).tdiv 2 + s.pool * dx, y := draftY }
  else s

/-- `inl_draft_place_pick`. -/
def placePick (style : Int) (w : World) (p : Player) (s : Spot) : Spot :=
  if style = leftToRight then
    { s with x := draftX + p.inlPick * (draftW / 20), y := draftY + sideways p.team 4000 }
  else if style = bottomToTop then
    let dy := if p.team = fed ∨ p.team = rom then draftW / 8 + draftW / 10 * p.inlPick.tmod 3 else 0
    { s with x := draftX + sideways p.team (draftW / 8 + draftW / 10 * p.inlPick.tdiv 3), y := draftY - dy }
  else if style = centreOutwards then
    let n := if p.team = rom then w.inlAwayPick else if p.team = fed then w.inlHomePick else 0
    let dx := draftW / 20
    { s with
      x := if n = 0 then draftX else draftX - (dx * n).tdiv 2 + p.inlPick * dx + dx / 2
      y := if p.team = fed ∨ p.team = rom then draftY + sideways p.team 4000 else s.y }
  else s

/-- `inl_draft_place_selector`. -/
def placeSelector (style : Int) (p : Player) (s : Spot) : Spot :=
  let s := placeCaptain style p s
  if style = bottomToTop then { s with y := s.y - 1000 }
  else if style = leftToRight then { s with x := s.x - 2000 }
  else if style = centreOutwards then { s with x := s.x - sideways p.team 2000 }
  else s

/-- `inl_draft_place`. -/
def place (d : Hall) (j : Slot) : Hall :=
  let p := d.player j
  match p.inlDraft with
  | .captainUp | .captainDown => d.modifySpot j (placeCaptain d.style p)
  | .movingToPool | .pooled => d.modifySpot j (placePool d.style d.inlPool)
  | .movingToPick | .picked => d.modifySpot j (placePick d.style d.world p)
  | .pickedSelector => d.modifySpot j (placeSelector d.style p)
  | .off | .movingToHome | .finished => d

/-! ## Beginning and end -/

/-- `inl_draft_highlight_off`. -/
def highlightOff (d : Hall) (k : Slot) : Hall :=
  d.modifyPlayer k fun p => { p with ship := d.world.shipvals .cruiser }

/-- The start of `inl_draft_assign_to_pool`. -/
def toPool (d : Hall) (j : Slot) : Hall :=
  d.modifyPlayer j fun p => { p with inlDraft := .movingToPool, inlPick := 0 }

/-- The next place in the pool, on no team. -/
def takePlace (d : Hall) (j : Slot) : Hall :=
  { d.modifySpot j fun s => { s with pool := d.inlPool } with
    inlPool := d.inlPool + 1
    world := changeTeamQuietly d.world j nobody (d.player j).team }

/-- `inl_draft_assign_to_pool`: captains don't get put in the pool. -/
def assignToPool (d : Hall) (j : Slot) : Hall :=
  if (d.player j).inlCaptain then toPool d j else takePlace (toPool d j) j

/-- A player is put in the draft when it begins. -/
def beginOne (d : Hall) (j : Slot) : Hall :=
  if inlDraftIgnore (d.player j) then d
  else
    let d := { d with world := { d.world with mem := Dock.bayRelease d.world.mem j } }
    let d := d.modifyPlayer j fun p =>
      (p.clearFlags (pfRepair ||| pfBomb ||| pfOrbit ||| pfBeamUp ||| pfBeamDown ||| pfCloak)).setFlags pfSeen
    place (assignToPool (highlightOff d j) j) j

/-- `inl_draft_begin`. -/
def inlDraftBegin (d : Hall) : Hall :=
  let d := d.modifyStatus fun s => { s with gameup := s.gameup &&& ~~~guInlDrafted }
  let d := { d with
    draft := .movingToPool, inlPool := 0, world := { d.world with inlHomePick := 0, inlAwayPick := 0 },
    arrived := fun _ => false, log := [] }
  let d := (List.finRange maxPlayer).foldl beginOne d
  let d := d.modifyStatus fun s => { s with gameup := s.gameup ||| guInlDrafting }
  d.announce "The captains have agreed to hold a draft." "The captains have agreed to hold a draft."

/-- A player goes home, to a place that is chosen at random. -/
def doneOne (home : Slot → Int × Int) (d : Hall) (j : Slot) : Hall :=
  if inlDraftIgnore (d.player j) then d
  else
    (highlightOff (d.modifyPlayer j fun p => { p with inlDraft := .movingToHome }) j).modifySpot j fun s =>
      { s with x := (home j).1, y := (home j).2 }

/-- `inl_draft_done`. -/
def inlDraftDone (d : Hall) (home : Slot → Int × Int) : Hall :=
  let d := (List.finRange maxPlayer).foldl (doneOne home) { d with draft := .movingToHome }
  if d.gameup guInRobot then d.modifyStatus fun s => { s with gameup := s.gameup ||| guInlDrafted } else d

/-- `inl_draft_end`. -/
def inlDraftEnd (d : Hall) : Hall :=
  let d := { d with draft := .off }
  let d := (List.finRange maxPlayer).foldl
    (fun d j => d.modifyPlayer j fun p => { p with inlDraft := .off }.heal) d
  (d.announce "The draft has completed." "The draft has completed.").modifyStatus fun s =>
    { s with gameup := s.gameup &&& ~~~guInlDrafting }

/-! ## Arrivals -/

/-- `inl_draft_team_to_captain`. -/
def teamToCaptain (w : World) (team : Word) : Option Slot :=
  (List.finRange maxPlayer).find? fun h =>
    let j := w.mem.players h
    !inlDraftIgnore j && j.inlCaptain && j.team == team && (j.inlDraft == .captainUp || j.inlDraft == .captainDown)

def rankAdmiral : Int := 8

/-- The captain has the pick. -/
def captainUp (d : Hall) (k : Slot) : Hall :=
  let d := d.modifyPlayer k fun p => { p with inlDraft := .captainUp }
  { d with world := inlDraftHighlightUp d.world k }

/-- The captain waits. -/
def captainDown (d : Hall) (k : Slot) : Hall :=
  let d := d.modifyPlayer k fun p => { p with inlDraft := .captainDown }
  { d with world := inlDraftHighlightDown d.world k }

/-- `inl_draft_arrival_captain`. -/
def arrivalCaptain (d : Hall) (k : Slot) : Hall :=
  let otherTeam := if (d.player k).team = rom then fed else rom
  let otherCaptain := teamToCaptain d.world otherTeam
  let d := if d.gameup guInRobot then d.modifyPlayer k fun p => { p with rank := rankAdmiral } else d
  match otherCaptain with
  | none => captainUp d k
  | some other => if (d.player other).inlDraft = .captainUp then captainDown d k else captainUp d k

/-- `inl_draft_arrival`. -/
def arrival (d : Hall) (j : Slot) : Hall :=
  let p := d.player j
  let d := { d with arrived := Function.update d.arrived j true }
  match p.inlDraft with
  | .movingToPool =>
    if p.inlCaptain then arrivalCaptain d j else d.modifyPlayer j fun p => { p with inlDraft := .pooled }
  | .movingToPick => d.modifyPlayer j fun p => { p with inlDraft := .picked }
  | .pooled | .picked => if p.inlCaptain then arrivalCaptain d j else d
  | .movingToHome => d.modifyPlayer j fun p => { p with inlDraft := .finished }
  | _ => d

/-! ## Movement -/

/-- A ship goes a tenth of the way to its place, or arrives. -/
def approach (d : Hall) (j : Slot) : Hall :=
  let p := d.player j
  let dx := p.x - (d.spots j).x
  let dy := p.y - (d.spots j).y
  if 750 < dx.natAbs + dy.natAbs then
    d.modifyPlayer j fun p => { p.go (p.x - dx.tdiv 10) (p.y - dy.tdiv 10) with dir := p.dir + 24 }
  else arrival (d.modifyPlayer j fun p => p.go (d.spots j).x (d.spots j).y) j

/-- Newly arriving players are forced into the pool. -/
def forcePool (d : Hall) (j : Slot) : Hall :=
  if d.draft = .movingToPool ∧ (d.player j).inlDraft = .off then
    let chars := (d.player j).mapchars
    assignToPool (d.announce "%s has joined, and is ready to be drafted"
      s!"{chars} has joined, and is ready to be drafted") j
  else d

/-- One turn of the loop of `inl_draft_update`. -/
def updateOne (d : Hall) (j : Slot) : Hall :=
  if inlDraftIgnore (d.player j) ∨ (d.player j).status ≠ .palive then d
  else approach (place (forcePool d j) j) j

/-- The players in a state. -/
def countByState (d : Hall) (states : List InlDraft) : Nat :=
  (List.finRange maxPlayer).countP fun i =>
    !inlDraftIgnore (d.player i) && states.contains (d.player i).inlDraft

/-- `inl_draft_pool_size`. -/
def poolSize (d : Hall) : Nat := countByState d [.movingToPool, .pooled, .movingToPick]

/-- `inl_draft_update`; the places at home are those that `random()` gives. -/
def inlDraftUpdate (d : Hall) (home : Slot → Int × Int) : Hall :=
  let d := (List.finRange maxPlayer).foldl updateOne d
  match d.draft with
  | .movingToPool => if poolSize d = 0 then inlDraftDone d home else d
  | .movingToHome => if countByState d [.movingToHome] = 0 then inlDraftEnd d else d
  | _ => d

/-! ## Steps -/

inductive Step
  /-- The daemon's update, with the places at home. -/
  | update (home : Slot → Int × Int)
  /-- `inl_draft_select` by the player that a process serves. -/
  | select (proc : Proc) (n : Slot)
  /-- `enter`. -/
  | enter (j : Slot) (e : Entry)
  /-- All else that changes shared memory and the queues. -/
  | play (m : Memory) (queues : Nat → Queue.PQueue)

/-- What a selection puts on record. -/
def noteSelection (before : Player) (n : Slot) (d : Hall) : Hall :=
  if before.inlDraft ≠ .movingToPick ∧ (d.player n).inlDraft = .movingToPick then
    { d with log := .drafted n (d.player n).team (d.player n).inlPick :: d.log }
  else d

/-- `inl_draft_select` in the process of a player. -/
def select (d : Hall) (proc : Proc) (n : Slot) : Hall :=
  match inlDraftSelect { d.world with proc := proc } n.val with
  | .ok w => noteSelection (d.player n) n { d with world := w }
  | .error _ => d

/-- Shared memory after `enter`. -/
def enterMemory (c : Setup) (m : Memory) (j : Slot) (e : Entry) : Memory :=
  let server : Server := default
  (Netrek.enter { server with setup := c, mem := m } j e).mem

def step (d : Hall) : Step → Hall
  | .update home => inlDraftUpdate d home
  | .select proc n => select d proc n
  | .enter j e =>
    { d with world := { d.world with mem := enterMemory d.setup d.world.mem j e }, log := .entered j :: d.log }
  | .play m queues => { d with world := { d.world with mem := m, queues := queues } }

end Netrek.Draft
