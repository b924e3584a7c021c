/-
The ranks of players: the table `ranks[]`, `ltd_can_rank` of `ntserv/ltd_stats.c`, the promotion in
`death`, the join message of `enter` and what `sndLogin` sends, beside the ranks that a draft gives. A
draft has no last rank to give: the pick after the sixteenth is below the table.
-/
import NetrekServer.Draft.Turns

namespace Netrek.Draft

open Lib Request

/-! ## The table -/

/-- `struct rank`. -/
structure Rank where
  hours : ℚ
  ratings : ℚ
  offense : ℚ
  name : String

def ranks : List Rank :=
  [⟨0, 0, 0, "Ensign"⟩, ⟨2, 1, 0, "Lieutenant"⟩, ⟨4, 2, 0, "Lt. Cmdr."⟩, ⟨8, 3, 0, "Commander"⟩,
    ⟨15, 4, 0, "Captain"⟩, ⟨20, 5, 0, "Flt. Capt."⟩, ⟨25, 6, 1, "Commodore"⟩, ⟨30, 7, 6 / 5, "Rear Adm."⟩,
    ⟨40, 8, 7 / 5, "Admiral"⟩]

/-- `ranks[i]`, if there is one. -/
def rankAt (i : Int) : Option Rank := if 0 ≤ i then ranks[i.toNat]? else none

def InRange (r : Int) : Prop := 0 ≤ r ∧ r < numRanks

/-- The table of ranks is read within its bounds exactly at a number in range. -/
theorem rankAt_some {i : Int} : (∃ k, rankAt i = some k) ↔ InRange i := by
  unfold rankAt InRange
  constructor
  · rintro ⟨k, hk⟩
    split at hk
    · next h =>
      obtain ⟨hlt, -⟩ := List.getElem?_eq_some_iff.1 hk
      have hlt : i.toNat < 9 := hlt
      exact ⟨h, by show i < 9; omega⟩
    · cases hk
  · rintro ⟨hnonneg, hlt⟩
    have hlt : i < 9 := hlt
    rw [if_pos hnonneg]
    exact ⟨_, List.getElem?_eq_getElem (show i.toNat < 9 by omega)⟩

/-! ## Promotion -/

/-- What a promotion is judged by: the ratings of the player, the hours, and the options of the server. -/
structure Scores where
  offense : ℚ
  total : ℚ
  hours : ℚ
  hourratio : ℚ
  offenseRank : Bool

/-- Whether the offense is that of the next rank, if this matters. -/
def Scores.offends (s : Scores) (next : Rank) : Bool := decide (next.offense ≤ s.offense) || !s.offenseRank

/-- `required_di`. -/
def Scores.requiredDi (s : Scores) (next : Rank) : ℚ := next.hours / s.hourratio * next.ratings

/-- The player belongs in the rank `rank`, and has several times the DI for the next one. -/
def Scores.belongs (s : Scores) (next : Rank) (rank : Int) (times : ℚ) : Option Bool :=
  if s.offends next then
    (rankAt rank).map fun k => decide (k.ratings ≤ s.total ∧ s.requiredDi next * times ≤ s.total * s.hours)
  else some false

/-- The player has the ratings of the next rank and the hours, or makes up for them. -/
def Scores.earned (s : Scores) (next : Rank) : Bool :=
  s.offends next &&
    decide ((next.hours / s.hourratio < s.hours ∧ next.ratings ≤ s.total) ∨
      (s.hours < next.hours / s.hourratio ∧ s.requiredDi next ≤ s.total * s.hours))

/-- `||` of tests that may fail. -/
def orElse (a b : Option Bool) : Option Bool := a.bind fun x => if x then some true else b

/-- `ltd_can_rank`; it fails where `ranks[]` is indexed outside. -/
def ltdCanRank (s : Scores) (r : Int) : Option Bool :=
  (rankAt (r + 1)).bind fun next =>
    if numRanks ≤ r + 1 then some false
    else if s.earned next then some true
    else orElse (s.belongs next r 2)
      (orElse (if 0 < r then s.belongs next (r - 1) 4 else some false)
        (if 4 ≤ r then s.belongs next (r - 2) 8 else some false))

/-- The promotion in `death`. -/
def deathRank (drafted : Bool) (s : Scores) (r : Int) : Option Int :=
  if r < numRanks - 1 ∧ drafted = false then (ltdCanRank s r).map fun b => if b then r + 1 else r else some r

/-! ## The game -/

/-- The draft, the ranks in the player file and, for the process of each player, the place in the file and what
`enter` remembers. -/
structure Game where
  hall : Hall
  file : Nat → Int
  pos : Slot → Option Nat
  lastteam : Slot → Int
  lastrank : Slot → Int
  deriving Inhabited

def Game.rank (g : Game) (j : Slot) : Int := (g.hall.player j).rank

def Game.setRank (g : Game) (j : Slot) (r : Int) : Game :=
  { g with hall := g.hall.modifyPlayer j fun p => { p with rank := r } }

/-- Whether `enter` names the rank of a player: nothing is said of who stays on its team with its rank, nor of
a new rank in a drafted game. -/
def namesRank (g : Game) (j : Slot) (tno : Nat) : Bool :=
  let r := g.rank j
  let lastrank := if g.lastrank j = -1 then r else g.lastrank j
  (g.lastteam j != tno || g.lastrank j != r) && (lastrank == r || !g.hall.gameup guInlDrafted)

/-- The `rank` that `sndLogin` sends. -/
def sentRank (fSpRank : Bool) (r : Int) : UInt8 :=
  if rankAdmiral < r ∧ fSpRank = false then UInt8.ofInt rankAdmiral else UInt8.ofInt r

inductive Op
  /-- `inl_draft_begin`. -/
  | begin
  /-- `inl_draft_update`, with the places at home. -/
  | update (home : Slot → Int × Int)
  /-- `inl_draft_select` in the process of a player. -/
  | select (proc : Proc) (n : Slot)
  /-- `death`. -/
  | death (j : Slot) (s : Scores)
  /-- `enter`. -/
  | enter (j : Slot) (e : Entry)
  /-- A player joins, who has a place in the file or none. -/
  | login (j : Slot) (pos : Option Nat)
  /-- `exitGame`, by which a player leaves. -/
  | leave (j : Slot)
  /-- `handleReset`. -/
  | reset (j : Slot)
  /-- `sndLogin`; the client looks the rank up. -/
  | send (j : Slot) (fSpRank : Bool)
  /-- All else that changes shared memory and the queues: the ranks stay. -/
  | play (m : Memory) (queues : Nat → Queue.PQueue)

/-- The process of a player, as the game is. -/
def atGame (g : Game) (proc : Proc) : Proc := { proc with inRobot := g.hall.gameup guInRobot }

/-- One step, if it indexes `ranks[]` inside only. -/
def Game.step (g : Game) : Op → Option Game
  | .begin => some { g with hall := inlDraftBegin g.hall }
  | .update home => some { g with hall := inlDraftUpdate g.hall home }
  | .select proc n => some { g with hall := Draft.select g.hall (atGame g proc) n }
  | .death j s => (deathRank (g.hall.gameup guInlDrafted) s (g.rank j)).map (g.setRank j)
  | .enter j e =>
    let g' := { g with
      hall := Draft.step g.hall (.enter j e)
      lastteam := Function.update g.lastteam j e.tno
      lastrank := Function.update g.lastrank j (g.rank j) }
    if namesRank g j e.tno then (rankAt (g.rank j)).map fun _ => g' else some g'
  | .login j pos => some { g.setRank j ((pos.map g.file).getD 0) with
      pos := Function.update g.pos j pos
      lastteam := Function.update g.lastteam j (-1)
      lastrank := Function.update g.lastrank j (-1) }
  | .leave j =>
    let g' := { g with file := match g.pos j with
      | some pos => Function.update g.file pos (g.rank j)
      | none => g.file }
    if (g.hall.player j).team ≠ allTeam then (rankAt (g.rank j)).map fun _ => g' else some g
  | .reset j => some (g.setRank j 0)
  | .send j fSpRank => (rankAt (sentRank fSpRank (g.rank j)).toNat).map fun _ => g
  | .play m queues => some { g with hall := { g.hall with world := { g.hall.world with
      mem := { m with players := fun j => { m.players j with rank := g.rank j } }
      queues := queues } } }

/-! ## Promotions -/

theorem belongs_some (s : Scores) (next : Rank) {i : Int} (hi : InRange i) (times : ℚ) :
    ∃ b, s.belongs next i times = some b := by
  obtain ⟨k, hk⟩ := rankAt_some.2 hi
  unfold Scores.belongs
  split
  · exact ⟨_, by rw [hk]; rfl⟩
  · exact ⟨false, rfl⟩

theorem orElse_some {a b : Option Bool} (ha : ∃ x, a = some x) (hb : ∃ x, b = some x) : ∃ x, orElse a b = some x := by
  obtain ⟨x, rfl⟩ := ha
  cases x with
  | false => exact hb
  | true => exact ⟨true, rfl⟩

/-- Below the last rank `ltd_can_rank` indexes `ranks[]` inside. -/
theorem ltdCanRank_some (s : Scores) {r : Int} (hr : InRange r) (hlast : r < numRanks - 1) : ∃ b, ltdCanRank s r = some b := by
  obtain ⟨hnonneg, hlt⟩ := hr
  obtain ⟨next, hnext⟩ := rankAt_some.2 (show InRange (r + 1) from ⟨by omega, by omega⟩)
  have hmaybe (c : Prop) [Decidable c] (i : Int) (times : ℚ) (hc : c → InRange i) :
      ∃ b, (if c then s.belongs next i times else some false) = some b := by
    split
    · next h => exact belongs_some s next (hc h) times
    · exact ⟨false, rfl⟩
  unfold ltdCanRank
  rw [hnext, Option.bind_some, if_neg (by omega)]
  split
  · exact ⟨true, rfl⟩
  · refine orElse_some (belongs_some s next ⟨hnonneg, hlt⟩ 2) (orElse_some ?_ ?_)
    · exact hmaybe (0 < r) (r - 1) 4 fun h => ⟨by omega, by omega⟩
    · exact hmaybe (4 ≤ r) (r - 2) 8 fun h => ⟨by omega, by omega⟩

/-- `death` leaves a rank of the table. -/
theorem deathRank_some (drafted : Bool) (s : Scores) {r : Int} (hr : InRange r) :
    ∃ r', deathRank drafted s r = some r' ∧ InRange r' := by
  unfold deathRank
  split
  · next h =>
    obtain ⟨b, hb⟩ := ltdCanRank_some s hr h.1
    rw [hb]
    refine ⟨_, rfl, ?_⟩
    cases b with
    | false => exact hr
    | true => exact ⟨Int.le_add_one hr.1, Int.add_lt_of_lt_sub_right h.1⟩
  · exact ⟨r, rfl, hr⟩

/-- The rank that a client is told is in range if that of the player is. -/
theorem sentRank_some (fSpRank : Bool) {r : Int} (hr : InRange r) : ∃ k, rankAt (sentRank fSpRank r).toNat = some k := by
  obtain ⟨hnonneg, hlt⟩ := hr
  have hlt : r < 9 := hlt
  have hsent : sentRank fSpRank r = UInt8.ofInt r := by
    unfold sentRank
    rw [if_neg]
    rintro ⟨h, -⟩
    have h : 8 < r := h
    omega
  rw [hsent]
  obtain ⟨n, rfl⟩ := Int.eq_ofNat_of_zero_le hnonneg
  apply rankAt_some.2
  have hn : (UInt8.ofInt (n : Int)).toNat = n := by
    unfold UInt8.ofInt
    rw [UInt8.toNat_ofNat']
    omega
  rw [hn]
  exact ⟨hnonneg, hlt⟩

/-! ## What leaves the ranks alone -/

def rankIn (w : World) (j : Slot) : Int := (w.mem.players j).rank

/-- Ranks stay, or become those of captains; no player is picked. -/
structure Lifts (w w' : World) : Prop where
  rank : ∀ j, rankIn w' j = rankIn w j ∨ rankIn w' j = rankAdmiral
  home : w'.inlHomePick = w.inlHomePick
  away : w'.inlAwayPick = w.inlAwayPick

theorem Lifts.refl (w : World) : Lifts w w := ⟨fun _ => .inl rfl, rfl, rfl⟩

theorem Lifts.trans {w w' w'' : World} (h : Lifts w w') (h' : Lifts w' w'') : Lifts w w'' := by
  refine ⟨fun j => ?_, h'.home.trans h.home, h'.away.trans h.away⟩
  rcases h'.rank j with hj | hj
  · rw [hj]
    exact h.rank j
  · exact .inr hj

theorem Lifts.post {w w' : World} (h : Lifts w w') (recip : Int) (group : Word) (address : String) (mFrom : Int)
    (fmt text : String) : Lifts w (w'.pmessage recip group address mFrom fmt text) := ⟨h.rank, h.home, h.away⟩

theorem rank_modifyPlayer (m : Memory) (k : Slot) (f : Player → Player) (hf : ∀ p, (f p).rank = p.rank) (j : Slot) :
    ((m.modifyPlayer k f).players j).rank = (m.players j).rank := by
  unfold Memory.modifyPlayer
  by_cases hj : j = k
  · subst hj
    simp only [Function.update_self]
    exact hf _
  · simp only [Function.update_of_ne hj]

theorem lifts_modifyPlayer (w : World) (k : Slot) (f : Player → Player) (hf : ∀ p, (f p).rank = p.rank) :
    Lifts w (w.modifyPlayer k f) :=
  ⟨fun j => .inl (rank_modifyPlayer w.mem k f hf j), rfl, rfl⟩

theorem lifts_status (d : Hall) (f : Status → Status) : Lifts d.world (d.modifyStatus f).world := ⟨fun _ => .inl rfl, rfl, rfl⟩

theorem lifts_announce (d : Hall) (fmt text : String) : Lifts d.world (d.announce fmt text).world :=
  ⟨fun _ => .inl rfl, rfl, rfl⟩

theorem lifts_foldl {f : Hall → Slot → Hall} (hf : ∀ d j, Lifts d.world (f d j).world) :
    ∀ (l : List Slot) (d : Hall), Lifts d.world (l.foldl f d).world
  | [], d => Lifts.refl d.world
  | j :: l, d => (hf d j).trans (lifts_foldl hf l (f d j))

theorem rank_joinTeam (p : Player) (k : Slot) (ours theirs : Word) : (p.joinTeam k ours theirs).rank = p.rank := by
  rfl

theorem lifts_changeTeamQuietly (w : World) (k : Slot) (ours theirs : Word) : Lifts w (changeTeamQuietly w k ours theirs) := by
  have hjoin (w : World) := lifts_modifyPlayer w k (fun p => p.joinTeam k ours theirs) fun p => rank_joinTeam p k ours theirs
  rw [changeTeamQuietly_eq]
  dsimp only
  split
  · have hqueue (queue : Nat) : Lifts w (((w.addFreeSlots (w.mem.players k).wQueue 1).modifyPlayer k fun p =>
        { p with wQueue := queue }).addFreeSlots queue (-1)) :=
      ⟨fun j => .inl (rank_modifyPlayer w.mem k (fun p => { p with wQueue := queue }) (fun _ => rfl) j), rfl, rfl⟩
    exact (hqueue _).trans (hjoin _)
  · exact hjoin w

theorem rank_bayRelease (m : Memory) (me j : Slot) : ((Dock.bayRelease m me).players j).rank = (m.players j).rank := by
  have hflags (m : Memory) := rank_modifyPlayer m me (fun p => p.clearFlags pfDock) (fun _ => rfl) j
  have hbay := rank_modifyPlayer m (m.players me).dockWith (fun b => Dock.setBay b (m.players me).dockBay none)
    (fun _ => rfl) j
  unfold Dock.bayRelease
  dsimp only
  split
  · exact (hflags _).trans hbay
  · rfl

theorem place_world (d : Hall) (j : Slot) : (place d j).world = d.world := by
  unfold place
  dsimp only
  split <;> rfl

theorem lifts_toPool (d : Hall) (j : Slot) : Lifts d.world (assignToPool d j).world := by
  have hpool : Lifts d.world (toPool d j).world := lifts_modifyPlayer d.world j _ fun _ => rfl
  unfold assignToPool
  split
  · exact hpool
  · exact hpool.trans (lifts_changeTeamQuietly _ j _ _)

/-- The beginning of a draft moves players, and leaves ranks. -/
theorem lifts_beginOne (d : Hall) (j : Slot) : Lifts d.world (beginOne d j).world := by
  unfold beginOne
  split
  · exact Lifts.refl d.world
  · have hbay : Lifts d.world { d.world with mem := Dock.bayRelease d.world.mem j } :=
      ⟨fun i => .inl (rank_bayRelease d.world.mem j i), rfl, rfl⟩
    have hflags (w : World) := lifts_modifyPlayer w j (fun p =>
      (p.clearFlags (pfRepair ||| pfBomb ||| pfOrbit ||| pfBeamUp ||| pfBeamDown ||| pfCloak)).setFlags pfSeen) fun _ => rfl
    have hoff (d : Hall) : Lifts d.world (highlightOff d j).world :=
      lifts_modifyPlayer d.world j (fun p => { p with ship := d.world.shipvals .cruiser }) fun _ => rfl
    rw [place_world]
    refine Lifts.trans ?_ (lifts_toPool _ j)
    refine Lifts.trans ?_ (hoff _)
    exact hbay.trans (hflags _)

theorem lifts_doneOne (home : Slot → Int × Int) (d : Hall) (j : Slot) : Lifts d.world (doneOne home d j).world := by
  unfold doneOne
  split
  · exact Lifts.refl d.world
  · exact (lifts_modifyPlayer d.world j (fun p => { p with inlDraft := .movingToHome }) fun _ => rfl).trans
      (lifts_modifyPlayer _ j _ fun _ => rfl)

theorem lifts_done (d : Hall) (home : Slot → Int × Int) : Lifts d.world (inlDraftDone d home).world := by
  have hloop := lifts_foldl (lifts_doneOne home) (List.finRange maxPlayer) { d with draft := .movingToHome }
  unfold inlDraftDone
  dsimp only
  split
  · exact hloop.trans (lifts_status _ _)
  · exact hloop

theorem lifts_end (d : Hall) : Lifts d.world (inlDraftEnd d).world := by
  have hone (d : Hall) (j : Slot) : Lifts d.world (d.modifyPlayer j fun p => { p with inlDraft := .off }.heal).world :=
    lifts_modifyPlayer d.world j (fun p => Player.heal { p with inlDraft := .off }) fun _ => rfl
  have hloop := lifts_foldl hone (List.finRange maxPlayer) { d with draft := .off }
  exact (hloop.trans (lifts_announce _ _ _)).trans (lifts_status _ _)

theorem lifts_highlightUp (w : World) (k : Slot) : Lifts w (inlDraftHighlightUp w k) :=
  ⟨fun j => .inl (rank_modifyPlayer w.mem k (fun p => { p with ship := w.shipvals .battleship }) (fun _ => rfl) j), rfl, rfl⟩

theorem lifts_highlightDown (w : World) (k : Slot) : Lifts w (inlDraftHighlightDown w k) :=
  ⟨fun j => .inl (rank_modifyPlayer w.mem k (fun p => { p with ship := w.shipvals .scout }) (fun _ => rfl) j), rfl, rfl⟩

theorem lifts_promote (d : Hall) (k : Slot) : Lifts d.world (promote d k).world := by
  unfold promote
  split
  · refine ⟨fun j => ?_, rfl, rfl⟩
    by_cases hj : j = k
    · subst hj
      right
      show ((d.world.modifyPlayer j _).mem.players j).rank = rankAdmiral
      rw [players_modifyPlayer]
    · left
      show (Function.update d.world.mem.players k _ j).rank = (d.world.mem.players j).rank
      rw [Function.update_of_ne hj]
  · exact Lifts.refl d.world

theorem lifts_arrivalCaptain (d : Hall) (k : Slot) : Lifts d.world (arrivalCaptain d k).world := by
  have hup (d : Hall) : Lifts d.world (captainUp d k).world :=
    (lifts_modifyPlayer d.world k (fun p => { p with inlDraft := .captainUp }) fun _ => rfl).trans (lifts_highlightUp _ k)
  have hdown (d : Hall) : Lifts d.world (captainDown d k).world :=
    (lifts_modifyPlayer d.world k (fun p => { p with inlDraft := .captainDown }) fun _ => rfl).trans
      (lifts_highlightDown _ k)
  rw [arrivalCaptain_eq]
  split
  · exact (lifts_promote d k).trans (hup _)
  · split
    · exact (lifts_promote d k).trans (hdown _)
    · exact (lifts_promote d k).trans (hup _)

/-- An arrival picks nobody. -/
theorem lifts_arrival (d : Hall) (j : Slot) : Lifts d.world (arrival d j).world := by
  have hstate (state : InlDraft) : Lifts d.world (d.modifyPlayer j fun p => { p with inlDraft := state }).world :=
    lifts_modifyPlayer d.world j _ fun _ => rfl
  have hcaptain := lifts_arrivalCaptain { d with arrived := Function.update d.arrived j true } j
  unfold arrival
  dsimp only
  split
  · split
    · exact hcaptain
    · exact hstate .pooled
  · exact hstate .picked
  · split
    · exact hcaptain
    · exact Lifts.refl d.world
  · split
    · exact hcaptain
    · exact Lifts.refl d.world
  · exact hstate .finished
  · exact Lifts.refl d.world

/-- A turn of the loop that moves players to their places picks nobody. -/
theorem lifts_updateOne (d : Hall) (j : Slot) : Lifts d.world (updateOne d j).world := by
  have hforce : Lifts d.world (forcePool d j).world := by
    unfold forcePool
    split
    · dsimp only
      refine Lifts.trans ?_ (lifts_toPool _ j)
      exact lifts_announce d _ _
    · exact Lifts.refl d.world
  have happroach (d : Hall) : Lifts d.world (approach d j).world := by
    unfold approach
    dsimp only
    split
    · exact lifts_modifyPlayer d.world j _ fun _ => rfl
    · refine Lifts.trans ?_ (lifts_arrival _ j)
      exact lifts_modifyPlayer d.world j (fun p => p.go (d.spots j).x (d.spots j).y) fun _ => rfl
  unfold updateOne
  split
  · exact Lifts.refl d.world
  · have happroach := happroach (place (forcePool d j) j)
    rw [place_world] at happroach
    exact hforce.trans happroach

theorem lifts_update (d : Hall) (home : Slot → Int × Int) : Lifts d.world (inlDraftUpdate d home).world := by
  have hloop := lifts_foldl lifts_updateOne (List.finRange maxPlayer) d
  unfold inlDraftUpdate
  dsimp only
  split
  · split
    · exact hloop.trans (lifts_done _ home)
    · exact hloop
  · split
    · exact hloop.trans (lifts_end _)
    · exact hloop
  · exact hloop

/-! ## Picks -/

/-- `inl_draft_next` finds a captain beside `k`. -/
def hasOther (w : World) (k : Slot) : Bool :=
  ((List.finRange maxPlayer).find? fun h =>
    h != k && !inlDraftIgnore (w.mem.players h) && (w.mem.players h).inlCaptain).isSome

/-- The captain whose turn it is, if a player may pick: the captain itself, or the one it picks for. -/
def captainFor (w : World) : Option Slot :=
  let k := w.proc.me
  if (w.mem.players k).inlDraft = .captainUp then some k
  else if (w.mem.players k).inlDraft = .pickedSelector then
    (inlDraftPickToCaptain w k).filter fun c => (w.mem.players c).inlDraft == .captainUp
  else none

/-- The captain for whom a selection of the player `n` picks it, if it does. -/
def picker (w : World) (n : Slot) : Option Slot :=
  if ((w.mem.players n).inlDraft = .movingToPool ∨ (w.mem.players n).inlDraft = .pooled) ∧
      (w.mem.players n).inlCaptain = false then (captainFor w).filter (hasOther w)
  else none

/-- The number of a pick for the captain `c`, of both teams together. -/
def pickNumber (w : World) (c : Slot) : Int :=
  w.inlHomePick + w.inlAwayPick + if (w.mem.players c).team = fed ∨ (w.mem.players c).team = rom then 1 else 0

/-- The rank that a pick gives in a league game. -/
def pickRank (number : Int) : Int := numRanks - (number - 1).tdiv 2 - 2

/-- The player `n` is picked for the captain `c`. -/
structure Picks (w w' : World) (n c : Slot) : Prop where
  rank : w.proc.inRobot = true → rankIn w' n = pickRank (pickNumber w c)
  others : ∀ j, (w.proc.inRobot = true → j ≠ n) → rankIn w' j = rankIn w j ∨ rankIn w' j = rankAdmiral
  home : w.inlHomePick ≤ w'.inlHomePick
  away : w.inlAwayPick ≤ w'.inlAwayPick

/-- The pick goes to the captain of the other team, if there is one. -/
theorem next_cases (w : World) (k : Slot) :
    (hasOther w k = true ∧ ∃ w', inlDraftNext w k = (w', true) ∧ Lifts w w' ∧ w'.proc = w.proc ∧
        ∀ i, (w'.mem.players i).team = (w.mem.players i).team) ∨
      hasOther w k = false ∧ ∃ w', inlDraftNext w k = (w', false) ∧ Lifts w w' := by
  unfold hasOther inlDraftNext
  split
  · next o hfind =>
    rw [hfind]
    refine .inl ⟨rfl, _, rfl, ?_, rfl, fun i => ?_⟩
    · refine Lifts.trans ?_ (lifts_highlightDown _ k)
      refine Lifts.trans ?_ (lifts_modifyPlayer _ k (fun p => { p with inlDraft := .captainDown }) fun _ => rfl)
      refine Lifts.trans ?_ (lifts_highlightUp _ o)
      exact lifts_modifyPlayer w o (fun p => { p with inlDraft := .captainUp }) fun _ => rfl
    · show (role (inlDraftHighlightDown _ k) i).team = (role w i).team
      rw [role_highlightDown, role_state]
      have hup : (role (inlDraftHighlightUp (w.modifyPlayer o fun p => { p with inlDraft := .captainUp }) o) i).team =
          (role w i).team := by
        rw [role_highlightUp, role_state]
        split
        · next h => rw [h]
        · rfl
      split
      · next h =>
        rw [h] at hup ⊢
        exact hup
      · exact hup
  · next hfind =>
    rw [hfind]
    exact .inr ⟨rfl, _, rfl, fun _ => .inl rfl, rfl, rfl⟩

/-- What `giveNumber` does for a player of either team. -/
theorem giveNumber_cases (w : World) (j : Slot) :
    (((w.mem.players j).team = fed ∨ (w.mem.players j).team = rom) ∧
      ((giveNumber w j).inlHomePick = w.inlHomePick + 1 ∧ (giveNumber w j).inlAwayPick = w.inlAwayPick ∨
        (giveNumber w j).inlHomePick = w.inlHomePick ∧ (giveNumber w j).inlAwayPick = w.inlAwayPick + 1) ∧
      (giveNumber w j).proc = w.proc ∧ ∀ i, rankIn (giveNumber w j) i = rankIn w i) ∨
    ¬ ((w.mem.players j).team = fed ∨ (w.mem.players j).team = rom) ∧ giveNumber w j = w := by
  have hrank (n : Int) := rank_modifyPlayer w.mem j (fun p => { p with inlPick := n }) fun _ => rfl
  by_cases hfed : (w.mem.players j).team = fed
  · have hteam : ((w.modifyPlayer j fun p => { p with inlPick := w.inlHomePick }).mem.players j).team ≠ rom := by
      rw [players_modifyPlayer]
      show (w.mem.players j).team ≠ rom
      rw [hfed]
      decide
    have heq : giveNumber w j =
        { w.modifyPlayer j fun p => { p with inlPick := w.inlHomePick } with inlHomePick := w.inlHomePick + 1 } := by
      unfold giveNumber
      dsimp only
      rw [if_pos hfed, if_neg hteam]
    rw [heq]
    exact .inl ⟨.inl hfed, .inl ⟨rfl, rfl⟩, rfl, hrank _⟩
  · by_cases hrom : (w.mem.players j).team = rom
    · have heq : giveNumber w j =
          { w.modifyPlayer j fun p => { p with inlPick := w.inlAwayPick } with inlAwayPick := w.inlAwayPick + 1 } := by
        unfold giveNumber
        dsimp only
        rw [if_neg hfed, if_pos hrom]
      rw [heq]
      exact .inl ⟨.inr hrom, .inr ⟨rfl, rfl⟩, rfl, hrank _⟩
    · refine .inr ⟨not_or.2 ⟨hfed, hrom⟩, ?_⟩
      unfold giveNumber
      dsimp only
      rw [if_neg hfed, if_neg hrom]

theorem joinSide_team (w : World) (j k : Slot) : ((joinSide w j k).mem.players j).team = (w.mem.players k).team := by
  have hrole := (joinSide_spec w j k).1 j
  rw [if_pos rfl] at hrole
  exact congrArg Role.team hrole

theorem lifts_joinSide (w : World) (j k : Slot) : Lifts w (joinSide w j k) := by
  unfold joinSide
  split
  · exact lifts_changeTeamQuietly w j _ _
  · exact Lifts.refl w

theorem proc_joinSide (w : World) (j k : Slot) : (joinSide w j k).proc = w.proc := by
  unfold joinSide
  rw [changeTeamQuietly_eq]
  dsimp only
  split
  · split <;> rfl
  · rfl

/-- In a league game the rank of the player goes by the number of the pick; no other rank changes. -/
theorem rankPick_rank (w : World) (j : Slot) (n : Int) :
    (w.proc.inRobot = true → rankIn (rankPick w j n) j = pickRank n) ∧
      ∀ i, (w.proc.inRobot = true → i ≠ j) → rankIn (rankPick w j n) i = rankIn w i := by
  unfold rankPick
  constructor
  · intro hin
    rw [if_pos hin]
    exact congrArg Player.rank (players_modifyPlayer w j _)
  · intro i hi
    split
    · next hin => exact congrArg Player.rank (Function.update_of_ne (hi hin) _ _)
    · rfl

theorem announcePick_rank (w : World) (j k : Slot) :
    (w.proc.inRobot = true → rankIn (announcePick w j k) j = pickRank (w.inlHomePick + w.inlAwayPick)) ∧
      (∀ i, (w.proc.inRobot = true → i ≠ j) → rankIn (announcePick w j k) i = rankIn w i) ∧
      (announcePick w j k).inlHomePick = w.inlHomePick ∧ (announcePick w j k).inlAwayPick = w.inlAwayPick := by
  have hstate := rank_modifyPlayer w.mem j (fun p => { p with inlDraft := .movingToPick }) fun _ => rfl
  have hcount := (announcePick_spec w j k).2.2
  obtain ⟨w', n, heq, hproc, hmem, hn⟩ : ∃ w' n, announcePick w j k = rankPick w' j n ∧ w'.proc = w.proc ∧
      (∀ i, rankIn w' i = rankIn w i) ∧ n = w.inlHomePick + w.inlAwayPick := ⟨_, _, rfl, rfl, hstate, rfl⟩
  obtain ⟨hrank, hothers⟩ := rankPick_rank w' j n
  rw [hproc, ← heq, hn] at hrank
  rw [hproc, ← heq] at hothers
  exact ⟨hrank, fun i hi => (hothers i hi).trans (hmem i), hcount⟩

/-- After the turn has passed, the player is picked for the captain that had it. -/
theorem pick_picks {w w' : World} {n c : Slot} (h : Lifts w w') (hproc : w'.proc = w.proc)
    (hteam : (w'.mem.players c).team = (w.mem.players c).team) : Picks w (inlDraftPick w' n c) n c := by
  have hjoin := h.trans (lifts_joinSide w' n c)
  have hproc' : (joinSide w' n c).proc = w.proc := (proc_joinSide w' n c).trans hproc
  have hside : ((joinSide w' n c).mem.players n).team = (w.mem.players c).team := (joinSide_team w' n c).trans hteam
  obtain ⟨hrank, hothers, hhome, haway⟩ := announcePick_rank (giveNumber (joinSide w' n c) n) n c
  rw [pick_eq]
  have hnumber : (giveNumber (joinSide w' n c) n).inlHomePick + (giveNumber (joinSide w' n c) n).inlAwayPick =
      pickNumber w c ∧ (giveNumber (joinSide w' n c) n).proc = w.proc ∧
      (∀ i, rankIn (giveNumber (joinSide w' n c) n) i = rankIn (joinSide w' n c) i) ∧
      w.inlHomePick ≤ (giveNumber (joinSide w' n c) n).inlHomePick ∧
      w.inlAwayPick ≤ (giveNumber (joinSide w' n c) n).inlAwayPick := by
    have hh := hjoin.home
    have ha := hjoin.away
    unfold pickNumber
    rcases giveNumber_cases (joinSide w' n c) n with ⟨hgive, hcount, hp, hr⟩ | ⟨hno, heq⟩
    · rw [hside] at hgive
      rw [if_pos hgive]
      exact ⟨by omega, hp.trans hproc', hr, by omega, by omega⟩
    · rw [hside] at hno
      rw [if_neg hno, heq]
      exact ⟨by omega, hproc', fun _ => rfl, by omega, by omega⟩
  obtain ⟨hnumber, hp, hr, hle, hle'⟩ := hnumber
  rw [hp, hnumber] at hrank
  refine ⟨hrank, fun i hi => ?_, by rw [hhome]; exact hle, by rw [haway]; exact hle'⟩
  rw [hothers i (by rw [hp]; exact hi), hr]
  exact hjoin.rank i

/-- A player of the pool is fingered for the captain `k`. -/
theorem draftFromPool_picks (w : World) (n k : Slot) :
    (hasOther w k = true ∧ (w.mem.players n).inlCaptain = false ∧ Picks w (draftFromPool w n k) n k) ∨
      ¬ (hasOther w k = true ∧ (w.mem.players n).inlCaptain = false) ∧ Lifts w (draftFromPool w n k) := by
  unfold draftFromPool
  split
  · next hcaptain => exact .inr ⟨fun h => absurd hcaptain (by simp [h.2]), Lifts.refl w⟩
  · next hplain =>
    rcases next_cases w k with ⟨hother, w', hnext, hlifts, hproc, hteam⟩ | ⟨hother, w', hnext, hlifts⟩
    · rw [hnext]
      exact .inl ⟨hother, by simpa using hplain, pick_picks hlifts hproc (hteam k)⟩
    · rw [hnext]
      exact .inr ⟨fun h => absurd (h.1.symm.trans hother) Bool.noConfusion, hlifts⟩

theorem picker_for {w : World} {n c : Slot}
    (hpool : (w.mem.players n).inlDraft = .movingToPool ∨ (w.mem.players n).inlDraft = .pooled)
    (hc : captainFor w = some c) : (∃ c', picker w n = some c' ∧ Picks w (draftFromPool w n c) n c') ∨
      picker w n = none ∧ Lifts w (draftFromPool w n c) := by
  have hpicker : picker w n = if hasOther w c = true ∧ (w.mem.players n).inlCaptain = false then some c else none := by
    unfold picker
    rw [hc]
    by_cases hplain : (w.mem.players n).inlCaptain = false <;> by_cases hother : hasOther w c = true <;>
      simp [hpool, hplain, hother, Option.filter]
  rcases draftFromPool_picks w n c with ⟨hother, hplain, hpicks⟩ | ⟨hno, hlifts⟩
  · exact .inl ⟨c, hpicker.trans (if_pos ⟨hother, hplain⟩), hpicks⟩
  · exact .inr ⟨hpicker.trans (if_neg hno), hlifts⟩

theorem picker_none {w : World} (n : Slot) (h : captainFor w = none) : picker w n = none := by
  unfold picker
  rw [h]
  exact ite_self none

/-- A selection picks a player for the captain that `picker` says, or leaves the ranks alone. -/
theorem select_picks (w : World) (n : Slot) : ∃ w', inlDraftSelect w n.val = .ok w' ∧
    ((∃ c, picker w n = some c ∧ Picks w w' n c) ∨ picker w n = none ∧ Lifts w w') := by
  unfold inlDraftSelect
  rw [if_neg (by have := n.isLt; omega), playerAt_val]
  refine ⟨_, rfl, ?_⟩
  dsimp only
  have hstate (state : InlDraft) := lifts_modifyPlayer w n (fun p => { p with inlDraft := state }) fun _ => rfl
  -- by the state of the player selected, as `inl_draft_select()` has it
  cases hs : (w.mem.players n).inlDraft with
  | captainDown =>
    refine .inr ⟨by simp [picker, hs], ?_⟩
    dsimp only
    split
    · rcases next_cases w w.proc.me with ⟨-, w', hnext, hlifts, -⟩ | ⟨-, w', hnext, hlifts⟩
      · rw [hnext]
        exact hlifts.post ..
      · rw [hnext]
        exact hlifts
    · exact Lifts.refl w
  | movingToPool | pooled =>
    have hpool : (w.mem.players n).inlDraft = .movingToPool ∨ (w.mem.players n).inlDraft = .pooled := by simp [hs]
    dsimp only
    split
    -- a captain who is up picks for himself
    · next hup => exact picker_for hpool (if_pos hup)
    · next hup =>
      split
      -- a selector picks for a captain who is up
      · next hsel =>
        have hc : captainFor w = (inlDraftPickToCaptain w w.proc.me).filter fun c =>
            (w.mem.players c).inlDraft == .captainUp := (if_neg hup).trans (if_pos hsel)
        split
        · next hnone => exact .inr ⟨picker_none n (by rw [hc, hnone]; rfl), (Lifts.refl w).post ..⟩
        · next c hsome =>
          rw [hsome] at hc
          split
          · next hdown => exact .inr ⟨picker_none n (by rw [hc]; simp [Option.filter, hdown]), (Lifts.refl w).post ..⟩
          · next hdown => exact picker_for hpool (by rw [hc]; simp [Option.filter, not_not.1 hdown])
      · next hsel => exact .inr ⟨picker_none n ((if_neg hup).trans (if_neg hsel)), Lifts.refl w⟩
  -- players already picked change state, nobody is ranked
  | movingToPick | picked =>
    refine .inr ⟨by simp [picker, hs], ?_⟩
    dsimp only
    split
    · exact (hstate .pickedSelector).post ..
    · exact Lifts.refl w
  | pickedSelector =>
    refine .inr ⟨by simp [picker, hs], ?_⟩
    dsimp only
    split
    · exact (hstate .picked).post ..
    · exact Lifts.refl w
  | off | captainUp | movingToHome | finished => exact .inr ⟨by simp [picker, hs], Lifts.refl w⟩

/-! ## Steps -/

theorem rank_declareWar (p : Player) (mask : Word) : (p.declareWar mask).rank = p.rank := by
  unfold Player.declareWar
  dsimp only
  split
  · rfl
  · split <;> rfl

/-- Entering the game leaves the rank. -/
theorem rank_enter (c : Setup) (m : Memory) (j : Slot) (e : Entry) (i : Slot) :
    ((enterMemory c m j e).players i).rank = (m.players i).rank := by
  have hplayer (m : Memory) (p : Player) : (e.switch (e.player c m j p)).rank = p.rank := by
    have hbefore : (e.player c m j p).rank = p.rank := by
      unfold Entry.player
      dsimp only
      split <;> rfl
    unfold Entry.switch
    split
    · split
      · rw [rank_declareWar, hbefore]
      · exact hbefore
    · exact hbefore
  unfold enterMemory Netrek.enter
  dsimp only
  split
  · refine (rank_modifyPlayer _ j _ (hplayer _) i).trans ?_
    show Player.rank (if _ then _ else _) = _
    split <;> rfl
  · exact rank_modifyPlayer _ j _ (hplayer _) i

/-- All ranks, and those in the player file, are of the table. -/
structure Sound (g : Game) : Prop where
  ranks : ∀ j, InRange (g.rank j)
  file : ∀ pos, InRange (g.file pos)
  home : 0 ≤ g.hall.world.inlHomePick
  away : 0 ≤ g.hall.world.inlAwayPick

theorem rankAdmiral_inRange : InRange rankAdmiral := by
  constructor <;> decide

theorem zero_inRange : InRange 0 := by
  constructor <;> decide

/-- A rank given in a draft is of the table up to the sixteenth pick. -/
theorem pickRank_inRange {n : Int} (h : 0 ≤ n) : InRange (pickRank n) ↔ n ≤ 16 := by
  unfold InRange pickRank
  have hranks : numRanks = 9 := rfl
  rw [hranks]
  rcases Int.lt_or_le n 1 with hlt | hge
  · obtain rfl : n = 0 := by omega
    decide
  · rw [Int.tdiv_eq_ediv_of_nonneg (by omega)]
    omega

theorem Sound.lifts {g : Game} (h : Sound g) {d : Hall} (hd : Lifts g.hall.world d.world) : Sound { g with hall := d } where
  ranks j := by
    show InRange (rankIn d.world j)
    rcases hd.rank j with hj | hj
    · rw [hj]
      exact h.ranks j
    · rw [hj]
      exact rankAdmiral_inRange
  file := h.file
  home := hd.home ▸ h.home
  away := hd.away ▸ h.away

theorem rank_setRank (g : Game) (j i : Slot) (r : Int) : (g.setRank j r).rank i = if i = j then r else g.rank i := by
  show (Function.update g.hall.world.mem.players j _ i).rank = _
  by_cases hij : i = j
  · subst hij
    rw [Function.update_self, if_pos rfl]
  · rw [Function.update_of_ne hij, if_neg hij]
    rfl

theorem Sound.setRank {g : Game} (h : Sound g) (j : Slot) {r : Int} (hr : InRange r) : Sound (g.setRank j r) where
  ranks i := by
    rw [rank_setRank]
    split
    · exact hr
    · exact h.ranks i
  file := h.file
  home := h.home
  away := h.away

/-- The world in which a player selects. -/
def Game.selecting (g : Game) (proc : Proc) : World := { g.hall.world with proc := atGame g proc }

/-- A step that picks a player in a league game is one of the first sixteen picks of the draft. -/
def Allowed (g : Game) : Op → Prop
  | .select proc n => g.hall.gameup guInRobot = true → ∀ c, picker (g.selecting proc) n = some c →
      pickNumber (g.selecting proc) c ≤ 16
  | _ => True

instance (g : Game) : DecidablePred (Allowed g)
  | .select _ _ => inferInstanceAs (Decidable (_ → ∀ _ : Slot, _ → _))
  | .begin | .update _ | .death _ _ | .enter _ _ | .login _ _ | .leave _ | .reset _ | .send _ _ | .play _ _ =>
    inferInstanceAs (Decidable True)

theorem pickNumber_nonneg {g : Game} (h : Sound g) (proc : Proc) (c : Slot) : 0 ≤ pickNumber (g.selecting proc) c := by
  have hhome := h.home
  have haway := h.away
  unfold pickNumber
  show 0 ≤ g.hall.world.inlHomePick + g.hall.world.inlAwayPick + _
  split <;> omega

theorem select_world (d : Hall) (proc : Proc) (n : Slot) {w' : World}
    (hw : inlDraftSelect { d.world with proc := proc } n.val = .ok w') : (Draft.select d proc n).world = w' := by
  unfold Draft.select
  rw [hw]
  unfold noteSelection
  dsimp only
  split <;> rfl

/-- What a selection does to the ranks. -/
theorem select_step {g : Game} (h : Sound g) (proc : Proc) (n : Slot) :
    ∃ g', g.step (.select proc n) = some g' ∧ (Allowed g (.select proc n) → Sound g') ∧
      (¬ Allowed g (.select proc n) → ¬ InRange (g'.rank n)) := by
  obtain ⟨w', hw, hcases⟩ := select_picks (g.selecting proc) n
  have hworld := select_world g.hall (atGame g proc) n hw
  refine ⟨_, rfl, ?_⟩
  -- either the selection is a pick, or it changes no rank
  rcases hcases with ⟨c, hpicker, hpicks⟩ | ⟨hnone, hlifts⟩
  · have hnumber := pickNumber_nonneg h proc c
    have hallowed : Allowed g (.select proc n) ↔
        (g.hall.gameup guInRobot = true → pickNumber (g.selecting proc) c ≤ 16) := by
      constructor
      · exact fun hal hin => hal hin c hpicker
      · intro hal hin c' hc'
        rw [hpicker] at hc'
        cases hc'
        exact hal hin
    constructor
    -- a pick within the sixteen writes a rank of the table
    · intro hal
      rw [hallowed] at hal
      refine ⟨fun j => ?_, h.file, ?_, ?_⟩
      · show InRange (rankIn (Draft.select g.hall (atGame g proc) n).world j)
        rw [hworld]
        by_cases hj : g.hall.gameup guInRobot = true ∧ j = n
        · obtain ⟨hin, rfl⟩ := hj
          rw [hpicks.rank hin]
          exact (pickRank_inRange hnumber).2 (hal hin)
        · rcases hpicks.others j fun hin heq => hj ⟨hin, heq⟩ with hrank | hrank
          · rw [hrank]
            exact h.ranks j
          · rw [hrank]
            exact rankAdmiral_inRange
      · show 0 ≤ (Draft.select g.hall (atGame g proc) n).world.inlHomePick
        rw [hworld]
        exact h.home.trans hpicks.home
      · show 0 ≤ (Draft.select g.hall (atGame g proc) n).world.inlAwayPick
        rw [hworld]
        exact h.away.trans hpicks.away
    -- a later one writes what is outside it
    · intro hal
      rw [hallowed] at hal
      obtain ⟨hin, hlate⟩ := Classical.not_imp.1 hal
      show ¬ InRange (rankIn (Draft.select g.hall (atGame g proc) n).world n)
      rw [hworld, hpicks.rank hin, pickRank_inRange hnumber]
      exact hlate
  · constructor
    · intro _
      apply h.lifts
      rw [hworld]
      exact ⟨hlifts.rank, hlifts.home, hlifts.away⟩
    · intro hal
      refine absurd (fun _ c hc => ?_) hal
      rw [hnone] at hc
      cases hc

theorem sound_begin {g : Game} (h : Sound g) : Sound { g with hall := inlDraftBegin g.hall } := by
  let d := g.hall.modifyStatus fun s => { s with gameup := s.gameup &&& ~~~guInlDrafted }
  let d := { d with
    draft := .movingToPool, inlPool := 0, world := { d.world with inlHomePick := 0, inlAwayPick := 0 },
    arrived := fun _ => false, log := [] }
  have hcleared : Sound { g with hall := d } := ⟨h.ranks, h.file, le_rfl, le_rfl⟩
  have hloop := lifts_foldl lifts_beginOne (List.finRange maxPlayer) d
  refine hcleared.lifts (hloop.trans ?_)
  refine Lifts.trans ?_ (lifts_announce _ _ _)
  exact lifts_status _ _

/-- Steps that name a rank of the table. -/
theorem named {g g' : Game} (h : Sound g) (j : Slot) (hg' : Sound g') (c : Prop) [Decidable c] {g₀ : Game} (hg₀ : Sound g₀) :
    ∃ g₁, (if c then (rankAt (g.rank j)).map fun _ => g' else some g₀) = some g₁ ∧ Sound g₁ := by
  split
  · obtain ⟨k, hk⟩ := rankAt_some.2 (h.ranks j)
    exact ⟨g', congrArg (Option.map fun _ => g') hk, hg'⟩
  · exact ⟨g₀, rfl, hg₀⟩

/-- An allowed step indexes `ranks[]` inside, and leaves all ranks in the table. -/
theorem step_sound {g : Game} (h : Sound g) (op : Op) (hal : Allowed g op) : ∃ g', g.step op = some g' ∧ Sound g' := by
  cases op with
  | begin => exact ⟨_, rfl, sound_begin h⟩
  | update home => exact ⟨_, rfl, h.lifts (lifts_update g.hall home)⟩
  | select proc n =>
    obtain ⟨g', hg', hsound, -⟩ := select_step h proc n
    exact ⟨g', hg', hsound hal⟩
  -- a death asks for the rank that comes next
  | death j s =>
    obtain ⟨r, hr, hin⟩ := deathRank_some (g.hall.gameup guInlDrafted) s (h.ranks j)
    exact ⟨g.setRank j r, congrArg (Option.map (g.setRank j)) hr, h.setRank j hin⟩
  | enter j e =>
    let g' := { g with
      hall := Draft.step g.hall (.enter j e)
      lastteam := Function.update g.lastteam j e.tno
      lastrank := Function.update g.lastrank j (g.rank j) }
    -- the newcomer's rank is not touched until it is named
    have hg' : Sound g' := by
      refine ⟨fun i => ?_, h.file, h.home, h.away⟩
      show InRange ((enterMemory g.hall.setup g.hall.world.mem j e).players i).rank
      rw [rank_enter]
      exact h.ranks i
    exact named h j hg' (namesRank g j e.tno = true) hg'
  | login j pos =>
    have hrank : InRange ((pos.map g.file).getD 0) := by
      cases pos with
      | none => exact zero_inRange
      | some pos => exact h.file pos
    have hset := h.setRank j hrank
    exact ⟨_, rfl, hset.ranks, hset.file, hset.home, hset.away⟩
  | leave j =>
    -- on leaving the rank goes to the file
    refine named h j ?_ _ h
    refine ⟨h.ranks, fun pos => ?_, h.home, h.away⟩
    dsimp only
    cases g.pos j with
    | none => exact h.file pos
    | some p =>
      show InRange (Function.update g.file p (g.rank j) pos)
      by_cases hp : pos = p
      · rw [hp, Function.update_self]
        exact h.ranks j
      · rw [Function.update_of_ne hp]
        exact h.file pos
  | reset j => exact ⟨_, rfl, h.setRank j zero_inRange⟩
  | send j fSpRank =>
    obtain ⟨k, hk⟩ := sentRank_some fSpRank (h.ranks j)
    exact ⟨g, congrArg (Option.map fun _ => g) hk, h⟩
  | play m queues => exact ⟨_, rfl, h.ranks, h.file, h.home, h.away⟩

/-! ## Runs -/

/-- In every state that is reached the ranks are of the table, and no step indexes `ranks[]` outside. -/
def Safe : Game → List Op → Prop
  | g, [] => ∀ j, InRange (g.rank j)
  | g, op :: ops => (∀ j, InRange (g.rank j)) ∧ ∃ g', g.step op = some g' ∧ Safe g' ops

theorem Safe.ranks : ∀ {g : Game} {ops : List Op}, Safe g ops → ∀ j, InRange (g.rank j)
  | _, [], h => h
  | _, _ :: _, h => h.1

/-- The next state. -/
def next (g : Game) (op : Op) : Game := (g.step op).getD g

theorem Safe.last : ∀ {g : Game} {ops : List Op}, Safe g ops → ∀ j, InRange ((ops.foldl next g).rank j)
  | _, [], h => h
  | g, op :: ops, ⟨_, g', hstep, h⟩ => by
    have hnext : next g op = g' := by
      unfold next
      rw [hstep]
      rfl
    rw [List.foldl_cons, hnext]
    exact h.last

/-- A run keeps the ranks in the table, and every index of `ranks[]`, if and only if no pick of a draft in a league
game comes after the sixteenth. -/
theorem ranks_in_table_iff (g : Game) (h : Sound g) (ops : List Op) : Safe g ops ↔ Run Allowed next g ops (ops.foldl next g) := by
  induction ops generalizing g with
  | nil => exact ⟨fun _ => .nil g, fun _ => h.ranks⟩
  | cons op ops ih =>
    have hnext {g' : Game} (hstep : g.step op = some g') : next g op = g' := by
      unfold next
      rw [hstep]
      rfl
    rw [List.foldl_cons]
    constructor
    · rintro ⟨-, g', hstep, hsafe⟩
      have hal : Allowed g op := by
        by_contra hal
        cases op with
        | select proc n =>
          obtain ⟨g'', hstep', -, hout⟩ := select_step h proc n
          rw [hstep] at hstep'
          cases hstep'
          exact hout hal (hsafe.ranks n)
        | _ => exact hal trivial
      obtain ⟨g'', hstep', hsound⟩ := step_sound h op hal
      rw [hstep] at hstep'
      cases hstep'
      refine .cons hal ?_
      rw [hnext hstep]
      exact (ih g' hsound).1 hsafe
    · rintro (_ | ⟨hal, hrun⟩)
      obtain ⟨g', hstep, hsound⟩ := step_sound h op hal
      rw [hnext hstep] at hrun
      exact ⟨h.ranks, g', hstep, (ih g' hsound).2 hrun⟩

/-! ## Seventeen picks -/

/-- The home captain has the pick, and one player waits in the pool. -/
def onePooled : Memory :=
  let p : Player := { (default : Player) with status := .palive }
  { (default : Memory) with
    status := { (default : Status) with gameup := guInRobot ||| guInlDrafting }
    players := fun j =>
      if j = 0 then { p with team := fed, inlCaptain := true, inlDraft := .captainUp }
      else if j = 1 then { p with team := rom, inlCaptain := true, inlDraft := .captainDown }
      else if j = 2 then { p with inlDraft := .pooled }
      else default }

/-- The player is picked; before the next pick it leaves and another one joins, and the turn comes back. -/
def picksOf (n : Nat) : List Op := (List.replicate n [Op.play onePooled default, Op.select default 2]).flatten

theorem sixteen_picks_in_table : Safe default (picksOf 16) :=
  (ranks_in_table_iff default ⟨fun _ => zero_inRange, fun _ => zero_inRange, le_rfl, le_rfl⟩ (picksOf 16)).2
    (Run.of_allowedAll default (picksOf 16) (by decide +kernel))

theorem seventeenth_pick_is_no_rank : ¬ Safe default (picksOf 17) := by
  intro h
  have hrank : ((picksOf 17).foldl next default).rank 2 = -1 := by decide +kernel
  have hin := (h.last 2).1
  rw [hrank] at hin
  exact absurd hin (by decide)

end Netrek.Draft
