/-
`ntserv/smessage.c`: a process posts a message to the daemon through a ring of its own, and the
daemon moves the entries of all the rings to the main ring. A post is three atomic steps (advance
the index, clear and fill the entry, set `MVALID`), and the daemon's loops take one entry a step;
the steps of the processes and of the daemon interleave in any order.
-/
import Mathlib.Logic.Function.Basic
import NetrekServer.Defs

namespace Netrek.Uplink

/-! ## Data -/

def mvalid : Word := 0x01
def dinvalid : Int := 255

/-- `struct message`. -/
structure Message where
  no : Int := 0
  flags : Word := 0
  time : Int := 0
  recpt : Int := 0
  data : String := ""
  mFrom : Int := 0
  args : List Int := List.replicate 8 0
  deriving DecidableEq, Inhabited

/-- Who posts: a player process, or a tool through the out-of-band ring. -/
inductive Source
  | player (pNo : Fin maxPlayer)
  | oob
  deriving DecidableEq

/-- An entry of the shared tables `uplink[]` and `oob[]`. -/
inductive Entry
  | uplink (k : Nat)
  | oob (k : Nat)
  deriving DecidableEq

/-- The entry `i` of the ring of a source. -/
def entry : Source → Nat → Entry
  | .player j, i => .uplink (i + j * maxUplink)
  | .oob, i => .oob i

/-- The entries that belong to the ring of a source. -/
def Source.Owns : Source → Entry → Prop
  | .player j, .uplink k => j * maxUplink ≤ k ∧ k < (j + 1) * maxUplink
  | .oob, .oob k => k < maxUplink
  | _, _ => False

/-- The arguments of `do_message`, and the text `vsnprintf` makes of the format. -/
structure Call where
  recip : Int
  group : Word
  address : String
  mFrom : Int
  fmt : String
  text : String
  deriving DecidableEq

/-- A post under way: the entry it was given, and whether it has filled it. -/
structure Sending where
  call : Call
  slot : Nat
  filled : Bool
  deriving DecidableEq

/-- Shared memory, the processes' places in `do_message` and the daemon's in
`do_message_requeue_all`. The last four fields record what has happened: the messages posted, the
writes to the main ring with the ring they came from (`none` for the daemon's own), the entries
read, and the posts of each source since the daemon last found its ring empty. -/
structure State where
  current : Nat
  messages : Nat → Message
  index : Source → Nat
  cell : Entry → Message
  sending : Source → Option Sending
  cursor : Source → Nat
  pc : Option Source
  posted : Source → List Message
  main : List (Option Source × Message)
  reads : List (Source × Entry)
  since : Source → Nat
  deriving Inhabited

/-- The messages the daemon has copied from the ring of a source, in the order of the copies. -/
def copied (st : State) (s : Source) : List Message := (st.main.filter fun x => x.1 = some s).map (·.2)

/-! ## Posting -/

/-- `do_message_kick`. -/
def doMessageKick (current maximum : Nat) : Nat :=
  let i := current + 1
  if maximum ≤ i then 0 else i

/-- The data of a message: the address in the first ten characters, then the text. -/
def mData (address text : String) : String :=
  if address = "" then String.ofList (text.toList.take (msgLen - 1))
  else
    let padded := address.toList ++ List.replicate (9 - address.length) ' ' ++ [' ']
    String.ofList (padded.take 10 ++ text.toList.take (msgLen - 10 - 1))

/-- An entry as `do_message` fills it, before it is valid. -/
def fillMessage (c : Call) : Message :=
  { flags := c.group, recpt := c.recip, mFrom := c.mFrom, data := mData c.address c.text,
    args := dinvalid :: List.replicate 7 0 }

def setValid (m : Message) : Message := { m with flags := m.flags ||| mvalid }

/-- The first step of a post: `do_message_next_player` or `do_message_next_oob`. An empty format is
not posted. -/
def postAdvance (st : State) (s : Source) (c : Call) : State :=
  if c.fmt = "" then st
  else
    let i := doMessageKick (st.index s) maxUplink
    { st with
      index := Function.update st.index s i
      sending := Function.update st.sending s (some ⟨c, i, false⟩)
      since := Function.update st.since s (st.since s + 1) }

/-- The second step: clear and fill the entry. -/
def postFill (st : State) (s : Source) : State :=
  match st.sending s with
  | some ⟨c, i, false⟩ =>
    { st with
      cell := Function.update st.cell (entry s i) (fillMessage c)
      sending := Function.update st.sending s (some ⟨c, i, true⟩) }
  | _ => st

/-- The third step: set `MVALID`. -/
def postValid (st : State) (s : Source) : State :=
  match st.sending s with
  | some ⟨c, i, true⟩ =>
    { st with
      cell := Function.update st.cell (entry s i) (setValid (st.cell (entry s i)))
      sending := Function.update st.sending s none
      posted := Function.update st.posted s (st.posted s ++ [setValid (fillMessage c)]) }
  | _ => st

/-! ## The daemon -/

/-- `do_message_force_daemon`: the daemon starts to read behind the last entry of each ring. -/
def doMessageForceDaemon (st : State) : State :=
  { st with
    cursor := fun s => st.index s + 1
    pc := none, sending := fun _ => none
    posted := fun _ => [], main := [], reads := [], since := fun _ => 0 }

/-- Write a message to the entry `do_message_next_daemon` gives. -/
def writeMain (st : State) (ring : Option Source) (m : Message) : State :=
  let mesgnum := doMessageKick st.current maxMessage
  { st with
    current := mesgnum
    messages := Function.update st.messages mesgnum m
    main := st.main ++ [(ring, m)] }

/-- `do_message` in the daemon. -/
def daemonMessage (st : State) (c : Call) : State :=
  if c.fmt = "" then st else writeMain st none (setValid (fillMessage c))

/-- `do_message_requeue`. -/
def doMessageRequeue (st : State) (s : Source) (src : Entry) : State :=
  let st := { st with reads := st.reads ++ [(s, src)] }
  if (st.cell src).flags.has mvalid then
    let st := writeMain st (some s) (st.cell src)
    { st with cell := Function.update st.cell src { st.cell src with flags := 0 } }
  else st

/-- The loop that follows the loop over the ring of a source. -/
def Source.next : Source → Option Source
  | .player i => if h : i + 1 < maxPlayer then some (.player ⟨i + 1, h⟩) else some .oob
  | .oob => none

/-- One step of `do_message_requeue_all`: enter it, requeue one entry, or leave a loop. -/
def drainStep (st : State) : State :=
  match st.pc with
  | none => { st with pc := some (.player ⟨0, by decide⟩) }
  | some s =>
    if st.cursor s ≠ (st.index s + 1) % maxUplink then
      let st := doMessageRequeue st s (entry s (st.cursor s))
      { st with cursor := Function.update st.cursor s ((st.cursor s + 1) % maxUplink) }
    else { st with pc := s.next, since := Function.update st.since s 0 }

/-! ## Interleavings -/

inductive Op
  | advance (s : Source) (c : Call)
  | fill (s : Source)
  | valid (s : Source)
  | drain
  | own (c : Call)

def step (st : State) : Op → State
  | .advance s c => postAdvance st s c
  | .fill s => postFill st s
  | .valid s => postValid st s
  | .drain => drainStep st
  | .own c => daemonMessage st c

/-- A process posts one message at a time and at most `maxUplink - 1` messages from one time its
ring is drained to the next; the daemon sends its own messages between two drains. -/
def Op.ok (st : State) : Op → Prop
  | .advance s _ => st.sending s = none ∧ st.since s < maxUplink - 1
  | .own _ => st.pc = none
  | _ => True

/-- The daemon is not about to pass an entry whose post is under way. -/
def Unhurried (st : State) : Prop :=
  ∀ s, st.pc = some s → ∀ p, st.sending s = some p → p.slot ≠ st.cursor s

/-- As `Op.ok`, and no drain step passes an entry whose post is under way. -/
def Op.clean (st : State) (op : Op) : Prop := op.ok st ∧ (op matches .drain → Unhurried st)

end Netrek.Uplink
