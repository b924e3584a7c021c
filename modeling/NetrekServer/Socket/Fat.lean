/-
Fat UDP of `ntserv/socket.c`: the nodes of the semi-critical packets, the five queues they wait on to be sent again,
each with a temporary queue beside it, and `fatten`, which adds packets from the queues to a transmission.
-/
import NetrekServer.Socket.Output

namespace Netrek.Sending

open Netrek.Lib

/-! ## Nodes and lists -/

/-- The variables of type `FAT_NODE`. -/
inductive Node
  | kills (i : Fin maxPlayer)
  | torpInfo (i : Fin (maxPlayer * maxTorp))
  | phaser (i : Fin maxPlayer)
  | plasmaInfo (i : Fin (maxPlayer * maxPlasma))
  | you
  | sYou
  | sPlanet
  | sKills
  | sPhaser (i : Fin maxPlayer)
  | status
  | planet (i : Fin maxPlanets)
  | flags (i : Fin maxPlayer)
  | hostile (i : Fin maxPlayer)
  deriving DecidableEq

/-- The size of the packet of a node, for the types whose size is fixed. -/
def Node.sizeof : Node → Nat
  | .hostile _ => 4
  | .kills _ | .flags _ | .torpInfo _ | .plasmaInfo _ => 8
  | .planet _ | .sYou | .sPhaser _ => 12
  | .phaser _ => 16
  | .status => 28
  | .you => 32
  | .sPlanet | .sKills => 0

def maxFatList : Nat := 5
def maxFatData : Nat := 100
def maxNonfat : Nat := 10

/-- A list: `fatlist[i]` or `tmplist[i]`. -/
inductive Place
  | fatlist (i : Nat)
  | tmplist (i : Nat)
  deriving DecidableEq

/-- The ends of a list. -/
structure FatList where
  head : Option Node
  tail : Option Node
  deriving DecidableEq

structure Fat where
  /-- Towards the head. -/
  next : Node → Option Node
  /-- Towards the tail. -/
  prev : Node → Option Node
  /-- `pkt_size`. -/
  size : Node → Nat
  list : Place → FatList

namespace Fat

/-- Nothing has been set up. -/
def blank : Fat where
  next _ := none
  prev _ := none
  size _ := 0
  list _ := ⟨none, none⟩

/-- `initClientData`. The next of a plasma's node and the temporary lists are left as they are. -/
def initClientData (s : Fat) : Fat where
  next n :=
    match n with
    | .plasmaInfo _ => s.next n
    | _ => none
  prev _ := none
  size := Node.sizeof
  list w :=
    match w with
    | .fatlist _ => ⟨none, none⟩
    | .tmplist _ => s.list w

section Links

variable (s : Fat)

def setNext (n : Node) (p : Option Node) : Fat := { s with next := Function.update s.next n p }
def setPrev (n : Node) (p : Option Node) : Fat := { s with prev := Function.update s.prev n p }
def setList (w : Place) (l : FatList) : Fat := { s with list := Function.update s.list w l }

/-- `p->next = q`, unless `p` is NULL. -/
def setNextAt (p q : Option Node) : Fat :=
  match p with
  | none => s
  | some n => s.setNext n q

def setPrevAt (p q : Option Node) : Fat :=
  match p with
  | none => s
  | some n => s.setPrev n q

def setHead (w : Place) (p : Option Node) : Fat := s.setList w { s.list w with head := p }
def setTail (w : Place) (p : Option Node) : Fat := s.setList w { s.list w with tail := p }

/-! ## Queues -/

/-- The list that has the node at its head is looked for, and the head moved back. -/
def leaveHead (n : Node) : Fat :=
  match (List.range maxFatList).find? fun i => (s.list (.fatlist i)).head == some n with
  | none => s
  | some i => (s.setHead (.fatlist i) (s.prev n)).setNextAt (s.prev n) none

/-- The list that has the node at its tail is looked for, and the tail moved forward. -/
def leaveTail (n : Node) : Fat :=
  match (List.range maxFatList).find? fun i => (s.list (.fatlist i)).tail == some n with
  | none => s
  | some i => (s.setTail (.fatlist i) (s.next n)).setPrevAt (s.next n) none

/-- `dequeue`. -/
def dequeue (n : Node) : Fat :=
  let s := if s.next n = none then s.leaveHead n else s.setNextAt (s.prev n) (s.next n)
  let s := if s.prev n = none then s.leaveTail n else s.setPrevAt (s.next n) (s.prev n)
  (s.setPrev n none).setNext n none

/-- `enqueue`. -/
def enqueue (n : Node) (i : Nat) : Fat :=
  match (s.list (.tmplist i)).tail with
  | none => s.setList (.tmplist i) ⟨some n, some n⟩
  | some t => ((s.setNext n (some t)).setPrev t (some n)).setTail (.tmplist i) (some n)

/-- A turn of the loop of `fatMerge`. -/
def merge (i : Nat) : Fat :=
  match (s.list (.tmplist i)).head with
  | none => s
  | some h =>
    let tail := (s.list (.fatlist i)).tail
    let s := if (s.list (.fatlist i)).head = none then s.setList (.fatlist i) (s.list (.tmplist i))
      else ((s.setNext h tail).setPrevAt tail (some h)).setTail (.fatlist i) (s.list (.tmplist i)).tail
    s.setList (.tmplist i) ⟨none, none⟩

/-- `fatMerge`. -/
def fatMerge : Fat := (List.range maxFatList).foldl merge s

end Links

end Fat

/-! ## `updateFat` -/

/-- `packet->pnum`, and the two bytes of `tnum`. -/
def pnum (packet : Packet) : Nat := (packet 1).toNat
def tnum (packet : Packet) : Nat := 256 * (packet 4).toNat + (packet 5).toNat

/-- A node of an array, if there is one with this index. -/
def nodeAt {k : Nat} (node : Fin k → Node) (i : Nat) : Option Node := if h : i < k then some (node ⟨i, h⟩) else none

/-- The node for a packet, none for a packet of another type. -/
def fatNode (packet : Packet) : Option Node :=
  match packet 0 with
  | 3 => nodeAt .kills (pnum packet)
  | 5 => nodeAt .torpInfo (tnum packet)
  | 7 => nodeAt .phaser (pnum packet)
  | 8 => nodeAt .plasmaInfo (tnum packet)
  | 12 => some .you
  | 14 => some .status
  | 15 => nodeAt .planet (pnum packet)
  | 18 => nodeAt .flags (pnum packet)
  | 22 => nodeAt .hostile (pnum packet)
  | 43 => some .sYou
  | 50 => some .sPlanet
  | 57 => nodeAt .sPhaser ((packet 2).toNat % 64)
  | 58 => some .sKills
  | _ => none

/-- The size of a packet of variable size is known when it is sent. -/
def Fat.resize (s : Fat) (sizes : UInt8 → Int) (n : Node) : Fat :=
  match n with
  | .sPlanet => { s with size := Function.update s.size n (sizes 50).toNat }
  | .sPhaser _ => { s with size := Function.update s.size n (sizes 57).toNat }
  | .sKills => { s with size := Function.update s.size n (sizes 58).toNat }
  | _ => s

/-- `updateFat`. -/
def Fat.updateFat (s : Fat) (sizes : UInt8 → Int) (packet : Packet) : Fat :=
  match fatNode packet with
  | none => s
  | some n => ((s.resize sizes n).dequeue n).enqueue n 0

/-! ## `fatten` -/

/-- What `fatten` works on: the queues, the bytes that are left, and the nodes sent so far. -/
structure Fattening where
  fat : Fat
  bytesleft : Nat
  sent : List Node

/-- A packet is added, and its node moves to a higher queue if there is one. -/
def Fattening.add (f : Fattening) (list : Nat) (n : Node) : Fattening :=
  let s := f.fat.dequeue n
  { fat := if list + 1 = maxFatList then s else s.enqueue n (list + 1)
    bytesleft := f.bytesleft - f.fat.size n
    sent := f.sent ++ [n] }

/-- The loop over one list, from a node towards the tail; whether the search is done. It may take for ever in a list
that is not well formed, so the turns are counted. -/
def fattenList (list : Nat) : Nat → Fattening → Option Node → Option (Fattening × Bool)
  | 0, _, _ => none
  | _ + 1, f, none => some (f, false)
  | fuel + 1, f, some n =>
    let nextfatp := f.fat.prev n
    if f.fat.size n < f.bytesleft then
      let f := f.add list n
      if f.bytesleft < maxNonfat then some (f, true) else fattenList list fuel f nextfatp
    else fattenList list fuel f nextfatp

def fattenLists (fuel : Nat) : List Nat → Fattening → Option Fattening
  | [], f => some f
  | list :: lists, f =>
    match fattenList list fuel f (f.fat.list (.fatlist list)).head with
    | none => none
    | some (f, true) => some f
    | some (f, false) => fattenLists fuel lists f

/-- `fatten`. -/
def Fat.fatten (s : Fat) (fuel : Nat) : Option Fattening :=
  fattenLists fuel (List.range maxFatList) ⟨s, maxFatData, []⟩

end Netrek.Sending
