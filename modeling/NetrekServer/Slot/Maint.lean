/-
`ntserv/slotmaint.c`: slots of the player table are given to people of a queue and taken back. Also
`change_team_quietly` of `ntserv/util.c`, by which a slot may pass to another queue, `getplayer` of
`ntserv/gencmds.c`, which reads the slot named in a command, and the votes that `enter` resets. A call
runs to completion, as the queue's semaphore and the lock have it.
-/
import NetrekServer.Enter
import NetrekServer.Slot.Team

namespace Netrek.SlotMaint

open Netrek.Queue (PQueue quPickup quHome quAway quOpen quTok)

/-! ## Votes -/

/-- Vote types that name no slot. -/
def pvExtra : Nat := 8
/-- The entries of `voting[]`, as its declaration counts them. -/
def pvTotal : Nat := maxPlayer * 3 + pvExtra
def pvEject : Nat := 0 * maxPlayer
def pvBan : Nat := 1 * maxPlayer
def pvNopick : Nat := 2 * maxPlayer
def pvOther : Nat := 3 * maxPlayer

def sizeofTime : Nat := 8

/-- The bytes that `sizeof(time_t) * PV_TOTAL` comes to: the macro is not in parentheses. -/
def votingBytes : Nat := sizeofTime * maxPlayer * 3 + pvExtra

/-! ## Data -/

/-- The fields of a slot that outlive its ship. -/
structure Desk where
  /-- When the player last voted for each thing; 0 if never, -1 if the votes were reset. -/
  voting : Nat → Int
  process : Int
  ghostbuster : Int
  pos : Int
  deriving Inhabited

/-- `memset` over `voting[]`: the entries that the bytes reach. -/
def Desk.clearVotes (d : Desk) : Desk :=
  { d with voting := fun k => if sizeofTime * (k + 1) ≤ votingBytes then 0 else d.voting k }

/-- The server, the rest of each slot, and the queues. -/
structure Roster where
  server : Server
  desks : Slot → Desk
  queues : Nat → PQueue
  deriving Inhabited

namespace Roster

def player (r : Roster) (i : Slot) : Player := r.server.player i

def modifyPlayer (r : Roster) (i : Slot) (f : Player → Player) : Roster := { r with server := r.server.modifyPlayer i f }

def modifyDesk (r : Roster) (i : Slot) (f : Desk → Desk) : Roster :=
  { r with desks := Function.update r.desks i (f (r.desks i)) }

def modifyQueue (r : Roster) (q : Nat) (f : PQueue → PQueue) : Roster :=
  { r with queues := Function.update r.queues q (f (r.queues q)) }

/-- `queues[q].free_slots += n`. -/
def addFree (r : Roster) (q : Nat) (n : Int) : Roster := r.modifyQueue q fun x => { x with freeSlots := x.freeSlots + n }

@[simp] theorem player_modifyPlayer (r : Roster) (i j : Slot) (f : Player → Player) :
    (r.modifyPlayer i f).player j = if j = i then f (r.player i) else r.player j :=
  Server.player_modifyPlayer _ _ _ _
@[simp] theorem player_modifyDesk (r : Roster) (i j : Slot) (f : Desk → Desk) :
    (r.modifyDesk i f).player j = r.player j := rfl
@[simp] theorem player_modifyQueue (r : Roster) (q : Nat) (j : Slot) (f : PQueue → PQueue) :
    (r.modifyQueue q f).player j = r.player j := rfl
@[simp] theorem player_addFree (r : Roster) (q : Nat) (n : Int) (j : Slot) : (r.addFree q n).player j = r.player j := rfl
@[simp] theorem queues_modifyPlayer (r : Roster) (i : Slot) (f : Player → Player) :
    (r.modifyPlayer i f).queues = r.queues := rfl
@[simp] theorem queues_modifyDesk (r : Roster) (i : Slot) (f : Desk → Desk) : (r.modifyDesk i f).queues = r.queues := rfl
@[simp] theorem desks_modifyPlayer (r : Roster) (i : Slot) (f : Player → Player) :
    (r.modifyPlayer i f).desks = r.desks := rfl
@[simp] theorem desks_addFree (r : Roster) (q : Nat) (n : Int) : (r.addFree q n).desks = r.desks := rfl
@[simp] theorem desks_modifyDesk (r : Roster) (i j : Slot) (f : Desk → Desk) :
    (r.modifyDesk i f).desks j = if j = i then f (r.desks i) else r.desks j := by
  unfold modifyDesk
  simp only [Function.update_apply]

end Roster

/-! ## Leaving -/

/-- `freeslot`. -/
def freeslot (r : Roster) (who : Slot) : Roster × Int :=
  let queue := (r.player who).wQueue
  let free := (r.player who).status == .pfree
  -- the slot is counted already, so the count below is undone in advance
  let r := if free then r.addFree queue (-1) else r
  let r := r.modifyPlayer who fun p => { p with status := .pfree, flags := 0 }
  let r := r.addFree queue 1
  (r.modifyDesk who fun d => { d.clearVotes with ghostbuster := 0, process := 0 }, if free then -2 else 1)

/-! ## Slots by name -/

/-- What follows the command: nothing, no player's number, or a player's. -/
inductive Argument
  | absent
  | invalid
  | slot (i : Slot)

/-- `getplayer`. -/
def getplayer (r : Roster) (who : Slot) (a : Argument) : Option Slot :=
  let what : Option Slot := match a with
    | .absent => some who
    | .invalid => none
    | .slot i => some i
  what.filter fun i => (r.player i).status != .pfree

/-! ## Joining -/

/-- Slot t is reserved. -/
def verboten (r : Roster) (wQueue : Nat) (i : Slot) : Bool := i.val == 29 && !(r.queues wQueue).qFlags.has quTok

/-- `pickslot_action`: whether the slot was given. -/
def pickslotAction (r : Roster) (wQueue : Nat) (i : Slot) : Roster × Bool :=
  if (r.player i).status ≠ .pfree then (r, false)
  else if verboten r wQueue i then (r, false)
  else
    let r := r.modifyPlayer i fun p =>
      { p with status := .poutfit, team := nobody, flags := 0, wQueue := wQueue, cyborg := false }
    let r := r.modifyDesk i fun d => { d.clearVotes with ghostbuster := 0, pos := -1, process := 0 }
    (r.addFree wQueue (-1), true)

/-- A loop of `scanqueue`. -/
def scan (r : Roster) (wQueue : Nat) : List Slot → Roster × Option Slot
  | [] => (r, none)
  | i :: is =>
    match pickslotAction r wQueue i with
    | (r, true) => (r, some i)
    | (r, false) => scan r wQueue is

/-- The slots from `low` to below `high`. -/
def slotRange (low high : Nat) : List Slot :=
  (List.finRange maxPlayer).filter fun i => decide (low ≤ i.val ∧ i.val < high)

/-- `scanqueue`. -/
def scanqueue (r : Roster) (wQueue : Nat) : Roster × Option Slot :=
  let q := r.queues wQueue
  match scan r wQueue (if q.prefer = 0 then [] else slotRange q.prefer q.highSlot) with
  | (r, some i) => (r, some i)
  | (r, none) => scan r wQueue (slotRange q.lowSlot q.highSlot)

/-- The semaphore goes down, and is given back as 1. -/
def setSem (r : Roster) (wQueue : Nat) (n : Int) : Roster := r.modifyQueue wQueue fun q => { q with enterSem := n }

@[simp] theorem player_setSem (r : Roster) (wQueue : Nat) (n : Int) (i : Slot) :
    (setSem r wQueue n).player i = r.player i := rfl
@[simp] theorem desks_setSem (r : Roster) (wQueue : Nat) (n : Int) : (setSem r wQueue n).desks = r.desks := rfl

/-- The number of a slot, or that there is none. -/
def slotNumber : Option Slot → Int
  | some i => i.val
  | none => -1

/-- `pickslot`. -/
def pickslot (r : Roster) (wQueue : Nat) : Roster × Int :=
  let q := r.queues wQueue
  if !q.qFlags.has quOpen then (r, -2)
  else
    let r := setSem r wQueue (q.enterSem - 1)
    if q.enterSem < 1 then (r, -1)
    else if q.freeSlots ≤ 0 then (setSem r wQueue 1, -1)
    else
      let (r, i) := scanqueue r wQueue
      (setSem r wQueue 1, slotNumber i)

/-! ## Entering and changing teams -/

/-- `enter`: the votes to eject the last occupant are reset. -/
def enter (r : Roster) (me : Slot) (e : Entry) : Roster :=
  { r with
    server := Netrek.enter r.server me e
    desks := fun i => { r.desks i with voting := Function.update (r.desks i).voting (pvEject + me.val) (-1) } }

/-- `change_team_quietly`. -/
def changeTeamQuietly (r : Roster) (k : Slot) (ours theirs : Word) : Roster :=
  let (m, queues) := r.server.mem.changeTeamQuietly r.queues k ours theirs
  { r with server := { r.server with mem := m }, queues := queues }

/-- In terms of rosters. -/
theorem changeTeamQuietly_eq (r : Roster) (k : Slot) (ours theirs : Word) : changeTeamQuietly r k ours theirs =
    let old := (r.player k).wQueue
    let r :=
      if old ≠ quPickup ∧ ours ≠ nobody then
        let queue := if ours = fed then quHome else quAway
        ((r.addFree old 1).modifyPlayer k fun p => { p with wQueue := queue }).addFree queue (-1)
      else r
    r.modifyPlayer k fun p => p.joinTeam k ours theirs := by
  unfold changeTeamQuietly Memory.changeTeamQuietly Roster.player Server.player
  dsimp only
  by_cases h : (r.server.mem.players k).wQueue ≠ quPickup ∧ ours ≠ nobody
  · rw [if_pos h, if_pos h]
    rfl
  · rw [if_neg h, if_neg h]
    rfl

end Netrek.SlotMaint
