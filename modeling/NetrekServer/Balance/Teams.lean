/-
`do_balance` of `ntserv/balance.c`, as built with `TRIPLE_PLANET_MAYHEM`: the players in the game are divided evenly between
two teams, so that the totals of their values differ least and, among the divisions of which that is true, the fewest change
sides.
-/
import Mathlib.Data.Int.Bitwise
import NetrekServer.Lib.Partition
import NetrekServer.Lib.Shuffle
import NetrekServer.Lib.Sweep
import NetrekServer.Slot.Maint

namespace Netrek.Balance

open Netrek.Lib
open Netrek.SlotMaint (Roster changeTeamQuietly)

/-! ## Messages -/

/-- What players are told. -/
inductive Say
  | onlyOneTeam
  | pleaseMove
  | swapSides (k : Slot) (ours : Word)
  | remain (k : Slot) (ours : Word)
  | joins (k : Slot) (value : Int) (ours : Word)
  | total (value : Int)
  | noBalance (one : Word) (valueOne : Int) (two : Word) (valueTwo : Int)
  deriving DecidableEq

/-- The slots, and what has been said. -/
structure Hall where
  roster : Roster
  said : List Say

namespace Hall

def player (h : Hall) (i : Slot) : Player := h.roster.player i

def tell (h : Hall) (m : Say) : Hall := { h with said := h.said ++ [m] }

@[simp] theorem player_tell (h : Hall) (m : Say) (i : Slot) : (h.tell m).player i = h.player i := rfl
@[simp] theorem roster_tell (h : Hall) (m : Say) : (h.tell m).roster = h.roster := rfl

end Hall

/-! ## Sides -/

/-- An occupied slot that is not a robot's. -/
def inGame (p : Player) : Bool := p.status != .pfree && !p.flags.has pfRobot

/-- The loop of `sides`. -/
def sidesFrom (r : Roster) (one unseen : Word) : List Slot → Word × Word
  | [] => (one, 0)
  | i :: is =>
    let team := (r.player i).team
    if inGame (r.player i) && unseen.has team then
      if one = 0 then sidesFrom r team (unseen &&& ~~~team) is else (one, team)
    else sidesFrom r one unseen is

/-- `sides`. -/
def sides (r : Roster) : Word × Word := sidesFrom r 0 allTeam (List.finRange maxPlayer)

/-! ## The working array -/

/-- `struct item`. -/
structure Item where
  pNo : Slot
  pValue : Int
  pTeam : Word
  deriving DecidableEq

/-- The slots in the game. -/
def participants (r : Roster) : List Slot := (List.finRange maxPlayer).filter fun i => inGame (r.player i)

def item (value : Player → Int) (r : Roster) (i : Slot) : Item := ⟨i, value (r.player i), (r.player i).team⟩

/-- The players in the game, in random order. -/
def workingArray (value : Player → Int) (random : Nat → Nat) (r : Roster) : List Item :=
  (shuffleSwaps random ((participants r).map (item value r)).toArray).toList

/-! ## The search -/

/-- `best`. -/
structure Best where
  combination : Int
  value : Int
  one : Int
  two : Int
  swaps : Int
  deriving DecidableEq

/-- The worst case. -/
def worst : Best := ⟨-1, 2 ^ 30, 0, 0, 2 ^ 30⟩

/-- One combination is tried. -/
def consider (one two : Word) (list : List Item) (best : Best) (i : Nat) : Best :=
  let a := side i true list
  let b := side i false list
  if 1 < |(a.length : Int) - b.length| then best
  else
    let valueA := (a.map Item.pValue).sum
    let valueB := (b.map Item.pValue).sum
    let swaps := a.countP (fun x => x.pTeam != one) + b.countP (fun x => x.pTeam != two)
    let difference := |valueA - valueB|
    if difference < best.value ∨ difference = best.value ∧ (swaps : Int) < best.swaps then
      ⟨i, difference, valueA, valueB, swaps⟩
    else best

/-- `1 << records`. -/
def combinations (records : Nat) : Nat := ((1 : BitVec 32) <<< records).toInt.toNat

def search (one two : Word) (list : List Item) : Best :=
  (List.range (combinations list.length)).foldl (consider one two list) worst

/-! ## The moves -/

/-- `change_team`. -/
def changeTeam (r : Roster) (k : Slot) (ours theirs : Word) : Roster :=
  (changeTeamQuietly r k ours theirs).modifyPlayer k fun p =>
    { p with
      status := .pexplode
      whydead := .tournstart
      explode := if p.ship.type = .starbase then 2 * sbExpViews else 10
      ntorp := 0
      nplasmatorp := 0
      hostile := allTeam
      war := allTeam ||| p.swar }

/-- `move`. -/
def move (h : Hall) (k : Slot) (ours theirs : Word) : Hall :=
  let h := h.tell (if (h.player k).team ≠ ours then .swapSides k ours else .remain k ours)
  { h with roster := changeTeam h.roster k ours theirs }

/-- The bit of an entry in the combination. -/
def chosen (best : Best) (j : Nat) : Bool := best.combination.testBit j

def moveAll (one two : Word) (list : List Item) (best : Best) (h : Hall) : Hall :=
  list.zipIdx.foldl (fun h x => if chosen best x.2 then move h x.1.pNo one two else move h x.1.pNo two one) h

/-- `moveallmsg` for the entries of one side. -/
def announceSide (list : List Item) (best : Best) (b : Bool) (ours : Word) (h : Hall) : Hall :=
  list.zipIdx.foldl (fun h x => if chosen best x.2 == b then h.tell (.joins x.1.pNo x.1.pValue ours) else h) h

def announce (one two : Word) (list : List Item) (best : Best) (h : Hall) : Hall :=
  let h := (announceSide list best true one h).tell (.total best.one)
  (announceSide list best false two h).tell (.total best.two)

/-- `do_balance`, and what it has selected if it has not given up. -/
def doBalance (value : Player → Int) (random : Nat → Nat) (h : Hall) : Hall × Option (List Item × Best) :=
  let (one, two) := sides h.roster
  if two = 0 then ((h.tell .onlyOneTeam).tell .pleaseMove, none)
  else
    let list := workingArray value random h.roster
    let best := search one two list
    if best.swaps ≠ 0 then (announce one two list best (moveAll one two list best h), some (list, best))
    else (h.tell (.noBalance one best.one two best.two), some (list, best))

end Netrek.Balance
