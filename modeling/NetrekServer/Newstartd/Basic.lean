/-
`newstartd/newstartd.c`: the listener, which reads a table of ports, waits for connections, and forks a child for
each. The steps of `main` are those between which the signal handlers can run.
-/
import NetrekServer.Defs
import Mathlib.Logic.Function.Basic

namespace Netrek.Newstartd

/-- Maximum ports to listen to. -/
def maxProg : Nat := 16

/-- Maximum processes to create. -/
def maxProcesses : Int := 8 + maxPlayer + testers + maxWaiting

def defaultPort : BitVec 16 := 2592#16

/-! ## The table of ports -/

/-- The type of a socket. A record that has never been read has none. -/
inductive SockType
  | unset
  | stream
  | dgram
  deriving DecidableEq, Inhabited

/-- What a socket is bound to. -/
structure Port where
  type : SockType
  addr : BitVec 32
  port : BitVec 16
  deriving DecidableEq, Inhabited

/-- An entry of the table, but for the program and its arguments. -/
structure ProgRecord extends Port where
  sock : Option Nat
  /-- For a datagram port, the active child, or 0. -/
  child : Nat
  /-- Ports handled without a program. -/
  internal : Bool
  accepts : Nat
  denials : Nat
  forks : Nat
  deriving DecidableEq, Inhabited

/-- A line of the port file that has the three fields it needs. -/
structure Line where
  /-- The host, any address if there is none. -/
  host : Option (BitVec 32)
  port : Int
  /-- The port is followed by a u. -/
  udp : Bool
  prog : String
  /-- The program can be executed. -/
  accessible : Bool

/-- The port that a line describes. -/
def Line.toPort (l : Line) : Port :=
  { type := if l.udp then .dgram else .stream, addr := l.host.getD 0, port := BitVec.ofInt 16 l.port }

def Line.internal (l : Line) : Bool := l.prog == "special"

/-! ## Processes -/

/-- What a child was forked for. -/
inductive Job
  | statistics
  | program (port : Port)
  deriving DecidableEq

/-- A child that has not been reaped yet. -/
structure Child where
  pid : Nat
  job : Job
  deriving DecidableEq

/-- A child that runs a program. -/
def Child.runs (c : Child) : Bool :=
  match c.job with
  | .statistics => false
  | .program _ => true

/-- Where `main` is. -/
inductive Point
  /-- In `read_portfile`, with so many entries read. -/
  | reading (i : Nat)
  | listening
  /-- `get_connection` has returned a port. -/
  | connected (i : Nat)
  /-- The client is not denied, and the limit is not hit. -/
  | admitted (i : Nat)
  deriving DecidableEq

structure Netrekd where
  active : Int
  prog : Nat → ProgRecord
  numProgs : Nat
  /-- Set by SIGHUP. -/
  restart : Bool
  point : Point
  children : List Child

/-- Nothing has been read. -/
def start : Netrekd where
  active := 0
  prog _ := { type := .unset, addr := 0, port := 0, sock := some 0, child := 0, internal := false, accepts := 0
              denials := 0, forks := 0 }
  numProgs := 0
  restart := false
  point := .reading 0
  children := []

namespace Netrekd

def modifyProg (s : Netrekd) (i : Nat) (f : ProgRecord → ProgRecord) : Netrekd :=
  { s with prog := Function.update s.prog i (f (s.prog i)) }

def goto (s : Netrekd) (p : Point) : Netrekd := { s with point := p }

theorem prog_modifyProg (s : Netrekd) (i k : Nat) (f : ProgRecord → ProgRecord) :
    (s.modifyProg i f).prog k = if k = i then f (s.prog i) else s.prog k := by
  unfold modifyProg
  simp only [Function.update_apply]

end Netrekd

/-! ## `read_portfile` -/

/-- The entry of a line. The child of the record stays. -/
def readEntry (l : Line) (p : ProgRecord) : ProgRecord :=
  { p with
    toPort := l.toPort, sock := none, internal := l.internal, accepts := 0, denials := 0, forks := 0 }

/-- The table has been read, and `main` goes on to listen. -/
def readDone (s : Netrekd) (n : Nat) : Netrekd :=
  { s with numProgs := n, restart := false, point := .listening }

/-- A line is read into entry `i`. An entry that is not accessible is read over. -/
def readLine (s : Netrekd) (i : Nat) (l : Line) : Netrekd :=
  let s := s.modifyProg i (readEntry l)
  if !l.internal && !l.accessible then s
  else if i = maxProg then readDone s i
  else s.goto (.reading (i + 1))

/-- The standard port, in what the first record was. -/
def standardEntry (p : ProgRecord) : ProgRecord :=
  { p with port := defaultPort, sock := none, accepts := 0, denials := 0, forks := 0 }

/-- The file ends. If it was empty, at least the standard port is opened. -/
def readEnd (s : Netrekd) (i : Nat) : Netrekd :=
  if i = 0 then readDone (s.modifyProg 0 standardEntry) 1 else readDone s i

/-! ## `main` -/

/-- `get_connection` opens a socket. -/
def openSocket (s : Netrekd) (i sock : Nat) : Netrekd := s.modifyProg i fun p => { p with sock := some sock }

/-- `get_connection` returns a port. -/
def accept (s : Netrekd) (i : Nat) : Netrekd :=
  (s.modifyProg i fun p => { p with accepts := p.accepts + 1 }).goto (.connected i)

/-- The checks for denied parties and for the limit. -/
def check (s : Netrekd) (i : Nat) (denied : Bool) : Netrekd :=
  if denied then (s.modifyProg i fun p => { p with denials := p.denials + 1 }).goto .listening
  else if s.active > maxProcesses then s.goto .listening
  else s.goto (.admitted i)

/-- `statistics`, whose `fork` returns a child or fails. -/
def statistics (s : Netrekd) (pid : Option Nat) : Netrekd :=
  match pid with
  | some pid => { s with children := ⟨pid, .statistics⟩ :: s.children }
  | none => s

/-- `main` forks to execute the program of the port; SIGCHLD is blocked. -/
def execute (s : Netrekd) (i : Nat) (pid : Option Nat) : Netrekd :=
  match pid with
  | none => s
  | some pid =>
    let s := { s with children := ⟨pid, .program (s.prog i).toPort⟩ :: s.children }
    let s := if (s.prog i).type = .dgram then s.modifyProg i fun p => { p with child := pid } else s
    let s := s.modifyProg i fun p => { p with forks := p.forks + 1 }
    { s with active := s.active + 1 }

/-- The client is served. -/
def serve (s : Netrekd) (i : Nat) (pid : Option Nat) : Netrekd :=
  if (s.prog i).internal then (statistics s pid).goto .listening else (execute s i pid).goto .listening

/-- A turn of the loop of `reaper`: a child has terminated. -/
def reaper (s : Netrekd) (pid : Nat) : Netrekd :=
  { s with
    active := s.active - 1
    prog := fun i => if i < s.numProgs ∧ (s.prog i).child = pid then { s.prog i with child := 0 } else s.prog i
    children := s.children.filter fun c => c.pid ≠ pid }

/-! ## Steps -/

inductive Act
  | line (l : Line)
  | eof
  | openSocket (i sock : Nat)
  | accept (i : Nat)
  | check (denied : Bool)
  /-- `fork` in `main` or in `statistics`. -/
  | serve (pid : Option Nat)
  /-- SIGHUP, and the loop that ends on it. -/
  | hangup
  | again
  /-- A child has exited, and `reaper` takes it. -/
  | reap (pid : Nat)

def step (s : Netrekd) : Act → Netrekd
  | .line l =>
    match s.point with
    | .reading i => readLine s i l
    | _ => s
  | .eof =>
    match s.point with
    | .reading i => readEnd s i
    | _ => s
  | .openSocket i sock => if s.point = .listening then openSocket s i sock else s
  | .accept i => if s.point = .listening then accept s i else s
  | .check denied =>
    match s.point with
    | .connected i => check s i denied
    | _ => s
  | .serve pid =>
    match s.point with
    | .admitted i => serve s i pid
    | _ => s
  | .hangup => { s with restart := true }
  | .again => if s.point = .listening ∧ s.restart = true then s.goto (.reading 0) else s
  | .reap pid => reaper s pid

/-- What the system can do: connections come on sockets that `select` waits for, a new child has a number
that no child has, and a child that terminates is there. -/
def lawful (s : Netrekd) : Act → Prop
  | .openSocket i _ => i < s.numProgs ∧ (s.prog i).type ≠ .unset
  | .accept i =>
    i < s.numProgs ∧ (s.prog i).sock ≠ none ∧
      ((s.prog i).type = .stream ∨ ((s.prog i).type = .dgram ∧ (s.prog i).child = 0))
  | .serve (some pid) => pid ≠ 0 ∧ ∀ c ∈ s.children, c.pid ≠ pid
  | .reap pid => ∃ c ∈ s.children, c.pid = pid
  | _ => True

instance (s : Netrekd) : ∀ a, Decidable (lawful s a)
  | .openSocket _ _ => inferInstanceAs (Decidable (_ ∧ _))
  | .accept _ => inferInstanceAs (Decidable (_ ∧ _ ∧ _))
  | .serve (some _) => inferInstanceAs (Decidable (_ ∧ _))
  | .reap _ => inferInstanceAs (Decidable (∃ _ ∈ _, _))
  | .line _ | .eof | .check _ | .serve none | .hangup | .again => inferInstanceAs (Decidable True)

end Netrek.Newstartd
