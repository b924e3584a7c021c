/-
`ntserv/queue.c`: the wait queues. Every queue is a doubly linked list threaded through the one
array `waiting[]` by index, `-1` standing for no entry. The lines a function gives to `ERROR` are
kept in a log.
-/
import NetrekServer.Defs

namespace Netrek.Queue

/-! ## Data -/

def quPickup : Nat := 0
def quRobot : Nat := 1
def quHome : Nat := 2
def quAway : Nat := 3
def quHomeObs : Nat := 4
def quAwayObs : Nat := 5
def quPickupObs : Nat := 6
def quGod : Nat := 7
def quGodObs : Nat := 8
def quNewbiePlr : Nat := 9
def quNewbieBot : Nat := 10
def quNewbieObs : Nat := 11
def quNewbieDmn : Nat := 12
def quPretDmn : Nat := 13

/-- The queue is accepting people. -/
def quOpen : Word := 0x001
/-- It is an observer queue. -/
def quObserver : Word := 0x002
/-- The tournament mask may be restricted. -/
def quRestrict : Word := 0x004
/-- The queue command reports it. -/
def quReport : Word := 0x008
/-- Slot t may be used. -/
def quTok : Word := 0x010

/-- The switches of `config.h` that the queue tables depend on. -/
structure Build where
  newbieServer : Bool
  pretServer : Bool
  robotObserverOffset : Bool

def Build.maxQueue (b : Build) : Nat := if b.newbieServer || b.pretServer then 14 else 9

/-- `struct pqueue`. -/
structure PQueue where
  enterSem : Int
  freeSlots : Int
  maxSlots : Int
  tournmask : Word
  lowSlot : Nat
  highSlot : Nat
  prefer : Nat
  first : Int
  last : Int
  count : Nat
  qFlags : Word
  qName : String
  deriving Inhabited

/-- `struct queuewait`. -/
structure QueueWait where
  mynum : Int
  inuse : Int
  previous : Int
  next : Int
  count : Nat
  wQueue : Int
  process : Int
  ip : String
  host : String
  deriving Inhabited

/-- The part of shared memory `queue.c` works on, and the error log. -/
structure QMem where
  queues : Nat → PQueue
  waiting : Nat → QueueWait
  log : List String
  deriving Inhabited

namespace QMem

def modifyQueue (m : QMem) (q : Nat) (f : PQueue → PQueue) : QMem :=
  { m with queues := Function.update m.queues q (f (m.queues q)) }

def modifyWaiting (m : QMem) (i : Nat) (f : QueueWait → QueueWait) : QMem :=
  { m with waiting := Function.update m.waiting i (f (m.waiting i)) }

def error (m : QMem) (line : String) : QMem := { m with log := m.log ++ [line] }

end QMem

/-! ## Set up -/

/-- `queue_setname`. -/
def queueSetname (b : Build) (m : QMem) (wQueue : Int) (name : String) : QMem × Int :=
  if wQueue < 0 ∨ (b.maxQueue : Int) ≤ wQueue then
    (m.error s!"queue_update: Invalid queue number {wQueue}", 0)
  else (m.modifyQueue wQueue.toNat fun q => { q with qName := String.ofList (name.toList.take (qNameSize - 1)) }, 1)

/-- What `queues_init` stores in one queue after clearing it. -/
structure Setup where
  queue : Nat
  freeSlots : Nat
  maxSlots : Nat
  tournmask : Word
  lowSlot : Nat
  highSlot : Nat
  prefer : Nat := 0
  qFlags : Word
  name : String

/-- The assignments of `queues_init`, in order. -/
def setups (b : Build) : List Setup :=
  [{ queue := quPickup, freeSlots := maxPlayer - testers, maxSlots := maxPlayer - testers,
     tournmask := allTeam, lowSlot := 0, highSlot := maxPlayer - testers,
     qFlags := quOpen ||| quRestrict ||| quReport, name := "pickup" },
   { queue := quRobot, freeSlots := testers, maxSlots := testers, tournmask := allTeam,
     lowSlot := maxPlayer - testers, highSlot := maxPlayer, qFlags := quOpen, name := "robot" },
   { queue := quHome, freeSlots := 0, maxSlots := (maxPlayer - testers) / 2, tournmask := fed,
     lowSlot := 0, prefer := 0, highSlot := maxPlayer - testers, qFlags := quReport, name := "home" },
   { queue := quAway, freeSlots := 0, maxSlots := (maxPlayer - testers) / 2, tournmask := rom,
     lowSlot := 0, prefer := 8, highSlot := maxPlayer - testers, qFlags := quReport, name := "away" },
   { queue := quHomeObs, freeSlots := 0, maxSlots := testers / 2, tournmask := fed,
     lowSlot := maxPlayer - testers, highSlot := maxPlayer - testers / 2,
     qFlags := quObserver ||| quReport, name := "home observer" },
   { queue := quAwayObs, freeSlots := 0, maxSlots := testers / 2, tournmask := rom,
     lowSlot := maxPlayer - testers / 2, highSlot := maxPlayer,
     qFlags := quObserver ||| quReport, name := "away observer" },
   -- one less than `testers`, so that a robot can always join the game
   { queue := quPickupObs, freeSlots := testers - 1, maxSlots := testers - 1, tournmask := allTeam,
     lowSlot := if b.robotObserverOffset then maxPlayer - testers + 1 else maxPlayer - testers,
     highSlot := maxPlayer - 1, qFlags := quOpen ||| quRestrict ||| quObserver ||| quReport,
     name := "pickup observer" },
   { queue := quGod, freeSlots := maxPlayer, maxSlots := maxPlayer, tournmask := allTeam,
     lowSlot := 0, highSlot := maxPlayer, qFlags := quOpen, name := "god" },
   { queue := quGodObs, freeSlots := 1, maxSlots := 1, tournmask := allTeam,
     lowSlot := 29, highSlot := 29, qFlags := quOpen ||| quObserver ||| quTok, name := "god observer" }] ++
  (if b.newbieServer then
    [{ queue := quNewbiePlr, freeSlots := maxPlayer - testers, maxSlots := maxPlayer - testers,
       tournmask := allTeam, lowSlot := 0, highSlot := maxPlayer - testers,
       qFlags := quOpen ||| quRestrict, name := "newbie player" },
     { queue := quNewbieBot, freeSlots := maxPlayer - testers, maxSlots := maxPlayer - testers,
       tournmask := allTeam, lowSlot := (maxPlayer - testers) / 2, highSlot := maxPlayer - testers / 2,
       qFlags := quOpen, name := "newbie robot" },
     { queue := quNewbieObs, freeSlots := (maxPlayer - testers) / 2 - 1,
       maxSlots := (maxPlayer - testers) / 2 - 1, tournmask := allTeam,
       lowSlot := maxPlayer - testers / 2, highSlot := maxPlayer - 1,
       qFlags := quOpen ||| quRestrict ||| quObserver, name := "newbie observer" },
     { queue := quNewbieDmn, freeSlots := 1, maxSlots := 1, tournmask := allTeam,
       lowSlot := maxPlayer - 1, highSlot := maxPlayer, qFlags := quOpen, name := "newbie daemon" }]
   else []) ++
  (if b.pretServer then
    [{ queue := quPretDmn, freeSlots := 1, maxSlots := 1, tournmask := allTeam,
       lowSlot := maxPlayer - 1, highSlot := maxPlayer, qFlags := quOpen, name := "preT daemon" }]
   else [])

def setup (b : Build) (m : QMem) (s : Setup) : QMem :=
  (queueSetname b
    (m.modifyQueue s.queue fun q =>
      { q with freeSlots := s.freeSlots, maxSlots := s.maxSlots, tournmask := s.tournmask,
               lowSlot := s.lowSlot, prefer := s.prefer, highSlot := s.highSlot, qFlags := s.qFlags })
    s.queue s.name).1

/-- An entry of `waiting[]` as `queues_init` clears it; `count` is unsigned, so `-1` is stored as
the largest value. -/
def clearWait (i : Nat) (w : QueueWait) : QueueWait :=
  { w with mynum := i, inuse := 0, previous := -1, next := -1, count := 2 ^ 32 - 1, wQueue := -1, process := 0 }

/-- A queue as `queues_init` clears it. -/
def clearQueue (q : PQueue) : PQueue :=
  { q with enterSem := 1, freeSlots := 0, maxSlots := 0, tournmask := nobody, lowSlot := 0, prefer := 0,
           highSlot := 0, first := -1, last := -1, count := 0, qFlags := 0, qName := "no name" }

/-- `queues_init`. -/
def queuesInit (b : Build) (m : QMem) : QMem :=
  (setups b).foldl (setup b)
    { m with
      waiting := fun i => if i < maxWaiting then clearWait i (m.waiting i) else m.waiting i
      queues := fun i => if i < b.maxQueue then clearQueue (m.queues i) else m.queues i }

/-! ## Joining and leaving -/

/-- The process that calls `queue_add`: its number, which `getpid` never gives as 0, its client's
address and name, and whether the address is one `ip_hide` hides. -/
structure Client where
  pid : Int
  pid_ne : pid ≠ 0
  ip : String
  host : String
  hide : Bool

/-- The first entry of `waiting[]` that is not in use. -/
def freeWait (m : QMem) : Option Nat := (List.range maxWaiting).find? fun i => (m.waiting i).inuse == 0

/-- Link the entry `i` in at the end of a queue. -/
def linkLast (m : QMem) (wQueue i : Nat) : QMem :=
  let lqueue := m.queues wQueue
  let m := if lqueue.first = -1 then m.modifyQueue wQueue fun q => { q with first := i }
    else (m.modifyWaiting lqueue.last.toNat fun w => { w with next := i }).modifyWaiting i
      fun w => { w with previous := lqueue.last }
  m.modifyQueue wQueue fun q => { q with last := i }

/-- `queue_add`. -/
def queueAdd (m : QMem) (c : Client) (wQueue : Nat) : QMem × Int :=
  if !(m.queues wQueue).qFlags.has quOpen then (m, -1)
  else match freeWait m with
    | none => (m, -1)
    | some i =>
      let m := m.modifyWaiting i fun w => { w with inuse := 1 }
      let m := linkLast m wQueue i
      let count := (m.queues wQueue).count
      let m := m.modifyQueue wQueue fun q => { q with count := (count + 1) % 2 ^ 32 }
      let m := m.modifyWaiting i fun w =>
        { w with next := -1, count := count, process := c.pid, wQueue := wQueue,
                 ip := if c.hide then "127.0.0.1" else c.ip,
                 host := if c.hide then "hidden" else c.host }
      (m, i)

/-- The loop of `queue_update`: renumber from `currentindex` on, giving back the count reached.
The three tests are the source's redundant ones. -/
def queueUpdateLoop (m : QMem) (currentindex : Int) (lcount : Nat) : QMem × Nat :=
  if currentindex = -1 then (m, lcount)
  else if _h : maxWaiting ≤ lcount then (m.error "queues_update: wait count more than MAXWAITING", lcount)
  else
    let current := m.waiting currentindex.toNat
    if current.inuse = 0 then (m.error "queues_update: waitq element is not in use", lcount)
    else if current.process = 0 then (m.error "queues_update: waitq element is process 0", lcount)
    else queueUpdateLoop (m.modifyWaiting currentindex.toNat fun w => { w with count := lcount })
      current.next (lcount + 1)
  termination_by maxWaiting - lcount

/-- `queue_update`. -/
def queueUpdate (b : Build) (m : QMem) (wQueue : Int) : QMem × Int :=
  if wQueue < 0 ∨ (b.maxQueue : Int) ≤ wQueue then
    (m.error s!"queue_update: Invalid queue number {wQueue}", 0)
  else
    let r := queueUpdateLoop m (m.queues wQueue.toNat).first 0
    (r.1.modifyQueue wQueue.toNat fun q => { q with count := r.2 }, 1)

/-- Unlink the entry `i` from its queue, by the links it holds. -/
def unlink (m : QMem) (wQueue i : Nat) : QMem :=
  let lwait := m.waiting i
  let m := if lwait.previous = -1 then m.modifyQueue wQueue fun q => { q with first := lwait.next }
    else m.modifyWaiting lwait.previous.toNat fun w => { w with next := lwait.next }
  if lwait.next = -1 then m.modifyQueue wQueue fun q => { q with last := lwait.previous }
  else m.modifyWaiting lwait.next.toNat fun w => { w with previous := lwait.previous }

/-- An entry as `queue_exit` leaves it. -/
def vacate (w : QueueWait) : QueueWait :=
  { w with previous := -1, next := -1, count := 2 ^ 32 - 1, wQueue := -1, process := 0, inuse := 0 }

/-- `queue_exit`. -/
def queueExit (b : Build) (m : QMem) (waitindex : Nat) : QMem × Int :=
  let wQueue := (m.waiting waitindex).wQueue
  if wQueue < 0 ∨ (b.maxQueue : Int) ≤ wQueue then
    (m.error s!"queue_exit: Invalid queue number {wQueue}", 0)
  else
    let m := unlink m wQueue.toNat waitindex
    let m := m.modifyWaiting waitindex vacate
    ((queueUpdate b m wQueue).1, 1)

/-! ## Purging -/

/-- What `kill(pid, 0)` reports. -/
inductive KillResult
  | ok
  | esrch
  | einval
  | eperm
  | other (errno : Int)
  deriving DecidableEq

/-- What the purge does with one entry, by the result of `kill`. -/
def purgeEntry (b : Build) (kill : Int → KillResult) (m : QMem) (lwait : QueueWait) : QMem :=
  match kill lwait.process with
  | .ok => m
  | .esrch => (queueExit b (m.error "queues_purge: removing dead waitQ player") lwait.mynum.toNat).1
  | .einval => m.error "queues_purge: EINVAL kill error!"
  | .eperm => m.error s!"queues_purge: EPERM kill error (pid {lwait.process})!"
  | .other e => m.error s!"queues_purge: Unknown kill error {e}"

/-- The inner loop of `queues_purge`: the memory, the kill count reached and, when the function is
left from here, `true`. An entry that fails a redundant test is tried again. -/
def purgeLoop (b : Build) (kill : Int → KillResult) (m : QMem) (next : Int) (killcount : Nat) :
    QMem × Nat × Bool :=
  if next = -1 then (m, killcount, false)
  else if _h : maxWaiting ≤ killcount then
    (m.error "queues_purge: trying to kill more than MAXWAITING", killcount + 1, true)
  else
    let lwait := m.waiting next.toNat
    if lwait.inuse = 0 then
      purgeLoop b kill (m.error "queues_purge: waitq element is not in use") next (killcount + 1)
    else if lwait.process = 0 then
      purgeLoop b kill (m.error "queues_purge: waitq element is process 0") next (killcount + 1)
    else purgeLoop b kill (purgeEntry b kill m lwait) lwait.next (killcount + 1)
  termination_by maxWaiting - killcount

/-- A queue has at most `max_slots` free slots. -/
def clampFree (m : QMem) (q : Nat) : QMem :=
  if (m.queues q).maxSlots < (m.queues q).freeSlots then
    (m.error "queues_purge: reducing the free_slots to max_slots").modifyQueue q
      fun x => { x with freeSlots := x.maxSlots }
  else m

/-- The outer loop of `queues_purge`, over the queues listed. -/
def purgeQueues (b : Build) (kill : Int → KillResult) (m : QMem) (killcount : Nat) : List Nat → QMem × Int
  | [] => (m, 1)
  | i :: is =>
    match purgeLoop b kill m (m.queues i).first killcount with
    | (m, _, true) => (m, 0)
    | (m, killcount, false) => purgeQueues b kill (clampFree m i) killcount is

/-- `queues_purge`. -/
def queuesPurge (b : Build) (kill : Int → KillResult) (m : QMem) : QMem × Int :=
  purgeQueues b kill m 0 (List.range b.maxQueue)

end Netrek.Queue
