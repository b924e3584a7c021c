/-
The robot beside the slots that its captains free and trade: the slots named in a command (`slot_num`
of `ntserv/util.c`), `freeslot` of `ntserv/slotmaint.c` and `change_team` of `ntserv/util.c` as the
robot calls them.
-/
import NetrekServer.Inl.Command
import NetrekServer.Slot.Maint

namespace Netrek.Inl

open Netrek.Queue (PQueue)
open SlotMaint (Desk Roster)

/-! ## Data -/

/-- The robot, the rest of each slot and the queues; `p_pos` is the robot's. -/
structure Bureau where
  robot : Robot
  desks : Slot → Desk
  queues : Nat → PQueue
  /-- `p_disconnect`. -/
  disconnect : Slot → Int
  deriving Inhabited

namespace Bureau

def mem (b : Bureau) : Memory := b.robot.mem

def player (b : Bureau) (i : Slot) : Player := b.robot.player i

def process (b : Bureau) (i : Slot) : Int := (b.desks i).process

def modifyPlayer (b : Bureau) (i : Slot) (f : Player → Player) : Bureau := { b with robot := b.robot.modifyPlayer i f }

/-- The same slots, as `ntserv/slotmaint.c` works on them. -/
def roster (b : Bureau) : Roster :=
  { server := { (default : Server) with mem := b.robot.mem }, desks := b.desks, queues := b.queues }

/-- What a call of `ntserv/slotmaint.c` leaves. -/
def withRoster (b : Bureau) (r : Roster) : Bureau :=
  { b with robot := { b.robot with mem := r.server.mem }, desks := r.desks, queues := r.queues }

@[simp] theorem player_modifyPlayer (b : Bureau) (i j : Slot) (f : Player → Player) :
    (b.modifyPlayer i f).player j = if j = i then f (b.player i) else b.player j := by
  show Function.update b.mem.players i _ j = _
  rw [Function.update_apply]
  rfl

@[simp] theorem player_withRoster (b : Bureau) (r : Roster) (j : Slot) : (b.withRoster r).player j = r.player j := rfl

@[simp] theorem player_roster (b : Bureau) (j : Slot) : b.roster.player j = b.player j := rfl

end Bureau

/-! ## Slots by name -/

/-- `slot_num`. -/
def slotNum (slot : Char) : Option Slot :=
  let n := slot.toLower.toNat
  if '0'.toNat ≤ n ∧ n ≤ '9'.toNat then
    if h : n - '0'.toNat < maxPlayer then some ⟨_, h⟩ else none
  else if 'a'.toNat ≤ n ∧ n ≤ 'z'.toNat then
    if h : n - 'a'.toNat + 10 < maxPlayer then some ⟨_, h⟩ else none
  else none

/-- What a text says that goes on with the character `id`, or does not go on. -/
def argument (id : Option Char) : SlotMaint.Argument :=
  match id with
  | none => .absent
  | some id =>
    -- the characters of `slot_num`: the digits, and the letters up to that of the last slot
    match slotNum id with
    | none => .invalid
    | some i => .slot i

/-! ## Leaving and changing teams -/

/-- `freeslot`. -/
def Bureau.freeslot (b : Bureau) (who : Slot) : Bureau := b.withRoster (SlotMaint.freeslot b.roster who).1

/-- The end of `change_team`: the ship explodes, at war with all. -/
def explodeTraded (p : Player) : Player :=
  { p with
    status := .pexplode
    whydead := .tournstart
    explode := if p.ship.type = .starbase then 2 * sbExpViews else 10
    ntorp := 0
    nplasmatorp := 0
    hostile := allTeam
    war := allTeam ||| p.swar }

/-- `change_team`. -/
def Bureau.changeTeam (b : Bureau) (k : Slot) (ours theirs : Word) : Bureau :=
  (b.withRoster (SlotMaint.changeTeamQuietly b.roster k ours theirs)).modifyPlayer k explodeTraded

/-! ## What they leave -/

@[simp] theorem player_freeslot (b : Bureau) (who j : Slot) :
    (b.freeslot who).player j = if j = who then { b.player who with status := .pfree, flags := 0 } else b.player j := by
  show ((SlotMaint.freeslot b.roster who).1).player j = _
  unfold SlotMaint.freeslot
  dsimp only
  split <;> simp

theorem planets_freeslot (b : Bureau) (who : Slot) : (b.freeslot who).mem.planets = b.mem.planets := by
  show ((SlotMaint.freeslot b.roster who).1).server.mem.planets = _
  unfold SlotMaint.freeslot
  dsimp only
  split <;> rfl

end Netrek.Inl
