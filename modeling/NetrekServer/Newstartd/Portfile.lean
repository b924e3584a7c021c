/-
`read_portfile` of `newstartd/newstartd.c`: lines of the port file are scanned straight into the table
of ports, so that a line that is not accepted leaves something in the entry of the next one. If no line
is accepted the first entry becomes the standard port, by assignments that leave out its address, the
type of its socket and whether it is internal.
-/
import NetrekServer.Inet
import NetrekServer.Newstartd.Basic

namespace Netrek.Portfile

open Inet
open Text (nul isSpace atoi fgets)
open Newstartd (SockType maxProg defaultPort)

/-! ## Lines -/

/-- A buffer of `BUFSIZ` bytes holds so many characters and a NUL. -/
def lineRoom : Nat := 8191

/-- The directives of a format of `sscanf`: white space, a character, a word or what is before a quote,
of so many characters at most. -/
inductive Directive
  | space
  | literal (c : Char)
  | word (width : Nat)
  | unquoted (width : Nat)

/-- What `sscanf` converts, up to the directive that fails. -/
def scan : List Directive → List Char → List (List Char)
  | [], _ => []
  | .space :: ds, text => scan ds (text.dropWhile isSpace)
  | .literal _ :: _, [] => []
  | .literal c :: ds, x :: text => if x = c then scan ds text else []
  | .word width :: ds, text =>
    let text := text.dropWhile isSpace
    let field := (text.takeWhile (!isSpace ·)).take width
    if field = [] then [] else field :: scan ds (text.drop field.length)
  | .unquoted width :: ds, text =>
    let field := (text.takeWhile (· ≠ '"')).take width
    if field = [] then [] else field :: scan ds (text.drop field.length)

/-- The format of a line: address and port, program, name of the program in quotes, arguments. -/
def format : List Directive :=
  [.word 127, .space, .word 511, .space, .literal '"', .unquoted 511, .literal '"',
    .space, .word 63, .space, .word 63, .space, .word 63, .space, .word 63]

def sscanf (buf : List Char) : List (List Char) := scan format (buf.takeWhile (· ≠ nul))

/-! ## Entries -/

/-- `struct progrecord`. -/
structure ProgRecord where
  type : SockType
  port : BitVec 16
  sock : Option Nat
  child : Nat
  nargs : Nat
  prog : List Char
  progname : List Char
  arg : Nat → List Char
  internal : Bool
  accepts : Nat
  denials : Nat
  forks : Nat
  addr : Word
  deriving Inhabited

abbrev Table := Nat → ProgRecord

/-- `sscanf` stores what it converts; the address goes into a buffer of its own. -/
def ProgRecord.store (fields : List (List Char)) (r : ProgRecord) : ProgRecord :=
  { r with
    prog := fields.getD 1 r.prog
    progname := fields.getD 2 r.progname
    arg := fun k => if k < 4 then fields.getD (k + 3) (r.arg k) else r.arg k }

/-- Where a port is: the host, and the text of the port. -/
def endpoint (addrbuf : List Char) : Word × List Char :=
  if ':' ∈ addrbuf then (inetAddr (addrbuf.takeWhile (· ≠ ':')), (addrbuf.dropWhile (· ≠ ':')).tail) else (0, addrbuf)

/-- The type of the socket of a port. -/
def sockType (port : List Char) : SockType := if 'u' ∈ port then .dgram else .stream

def special : List Char := ['s', 'p', 'e', 'c', 'i', 'a', 'l']

/-- An entry of three fields or more is filled in. -/
def ProgRecord.fill (fields : List (List Char)) (r : ProgRecord) : ProgRecord :=
  let (addr, port) := endpoint (fields.getD 0 [])
  { r with
    addr := addr
    port := BitVec.ofInt 16 (atoi port)
    type := sockType port
    nargs := fields.length - 3
    sock := none
    internal := r.prog == special
    accepts := 0
    denials := 0
    forks := 0 }

/-! ## `read_portfile` -/

/-- The loop, with `i` entries read. `usable` are the programs that `stat` finds to be accessible. -/
def readLines (usable : List Char → Bool) : Table → Nat → List (List Char) → Nat × Table
  | prog, i, [] => (i, prog)
  | prog, i, buf :: rest =>
    if buf.head? = some '#' then readLines usable prog i rest
    else
      let fields := sscanf buf
      let r := (prog i).store fields
      if fields.length < 3 then readLines usable (Function.update prog i r) i rest
      else
        let r := r.fill fields
        let prog := Function.update prog i r
        if !r.internal && !usable r.prog then readLines usable prog i rest
        else if i = maxProg then (i, prog)
        else readLines usable prog (i + 1) rest

/-- The standard port, in what the first entry was. -/
def ProgRecord.standard (standardProg : List Char) (r : ProgRecord) : ProgRecord :=
  { r with
    prog := standardProg
    progname := standardProg
    port := defaultPort
    nargs := 0
    sock := none
    accepts := 0
    denials := 0
    forks := 0 }

/-- A port file, if it can be opened, and the programs there are when it is read. -/
structure Reading where
  portfile : Option (List Char)
  usable : List Char → Bool

def Reading.lines (r : Reading) : List (List Char) := fgets lineRoom (r.portfile.getD [])

/-- `read_portfile`. -/
def readPortfile (standardProg : List Char) (prog : Table) (r : Reading) : Nat × Table :=
  let (i, prog) := readLines r.usable prog 0 r.lines
  if i = 0 then (1, Function.update prog 0 ((prog 0).standard standardProg)) else (i, prog)

/-! ## What a line says -/

/-- The fields of a line that is not a comment and has enough of them. -/
def fields? (buf : List Char) : Option (List (List Char)) :=
  if buf.head? = some '#' ∨ (sscanf buf).length < 3 then none else some (sscanf buf)

/-- The program is internal or accessible. -/
def acceptable (usable : List Char → Bool) (fields : List (List Char)) : Bool :=
  fields.getD 1 [] == special || usable (fields.getD 1 [])

/-- The accepted lines. -/
def accepted (usable : List Char → Bool) (ls : List (List Char)) : List (List (List Char)) :=
  (ls.filterMap fields?).filter (acceptable usable)

/-- The entry is the one that the fields describe. -/
structure Holds (fields : List (List Char)) (r : ProgRecord) : Prop where
  addr : r.addr = (endpoint (fields.getD 0 [])).1
  port : r.port = BitVec.ofInt 16 (atoi (endpoint (fields.getD 0 [])).2)
  type : r.type = sockType (endpoint (fields.getD 0 [])).2
  sock : r.sock = none
  internal : r.internal = (fields.getD 1 [] == special)
  prog : r.prog = fields.getD 1 []
  progname : r.progname = fields.getD 2 []
  nargs : r.nargs = fields.length - 3
  args : (List.range r.nargs).map r.arg = fields.drop 3

/-- Besides the assignments of `read_portfile`, what makes an entry the standard port. -/
structure Plain (r : ProgRecord) : Prop where
  type : r.type = .stream
  addr : r.addr = 0
  internal : r.internal = false

/-! ## Lines into entries -/

/-- The directives that convert something. -/
def Directive.converts : Directive → Bool
  | .space | .literal _ => false
  | .word _ | .unquoted _ => true

/-- No more is converted than there are directives that convert. -/
theorem scan_length (ds : List Directive) (text : List Char) : (scan ds text).length ≤ ds.countP Directive.converts := by
  induction ds generalizing text with
  | nil => simp [scan]
  | cons d ds ih =>
    rw [List.countP_cons]
    cases d with
    | space =>
      unfold scan
      exact (ih _).trans (Nat.le_add_right _ _)
    | literal c =>
      cases text with
      | nil => simp [scan]
      | cons x text =>
        unfold scan
        split
        · exact (ih _).trans (Nat.le_add_right _ _)
        · exact Nat.zero_le _
    | word width | unquoted width =>
      unfold scan
      dsimp only
      split
      · exact Nat.zero_le _
      · exact Nat.succ_le_succ (ih _)

theorem sscanf_length (buf : List Char) : (sscanf buf).length ≤ 7 := scan_length format _

/-- What is filled in is what the fields describe, whatever the entry was. -/
theorem holds_fill {fields : List (List Char)} (hmin : 3 ≤ fields.length) (hmax : fields.length ≤ 7) (r : ProgRecord) :
    Holds fields ((r.store fields).fill fields) where
  addr := rfl
  port := rfl
  type := rfl
  sock := rfl
  internal := by
    show ((fields.getD 1 r.prog) == special) = _
    simp only [List.getD_eq_getElem?_getD, List.getElem?_eq_getElem (show 1 < fields.length by omega), Option.getD_some]
  prog := by
    show fields.getD 1 r.prog = _
    simp only [List.getD_eq_getElem?_getD, List.getElem?_eq_getElem (show 1 < fields.length by omega), Option.getD_some]
  progname := by
    show fields.getD 2 r.progname = _
    simp only [List.getD_eq_getElem?_getD, List.getElem?_eq_getElem (show 2 < fields.length by omega), Option.getD_some]
  nargs := rfl
  args := by
    show (List.range (fields.length - 3)).map (fun k => if k < 4 then fields.getD (k + 3) (r.arg k) else r.arg k) = _
    apply List.ext_getElem
    · simp
    · intro k hk hk'
      simp only [List.length_map, List.length_range] at hk
      simp only [List.getElem_map, List.getElem_range, List.getElem_drop, if_pos (show k < 4 by omega)]
      simp only [List.getD_eq_getElem?_getD, List.getElem?_eq_getElem (show k + 3 < fields.length by omega),
        Option.getD_some, Nat.add_comm]

section Lines

variable (usable : List Char → Bool)

/-- The fields of a line decide whether it is accepted. -/
theorem rejected_iff {fields : List (List Char)} (hmin : 3 ≤ fields.length) (hmax : fields.length ≤ 7) (r : ProgRecord) :
    (!((r.store fields).fill fields).internal && !usable ((r.store fields).fill fields).prog) = !acceptable usable fields := by
  have h := holds_fill hmin hmax r
  rw [h.internal, h.prog]
  unfold acceptable
  rw [Bool.not_or]

theorem fields?_eq_some {buf : List Char} {fields : List (List Char)} (h : fields? buf = some fields) :
    sscanf buf = fields ∧ buf.head? ≠ some '#' ∧ 3 ≤ fields.length ∧ fields.length ≤ 7 := by
  unfold fields? at h
  split at h
  · cases h
  · next hno =>
    cases h
    push Not at hno
    exact ⟨rfl, hno.1, hno.2, sscanf_length buf⟩

theorem readLines_cons (prog : Table) (i : Nat) (buf : List Char) (rest : List (List Char)) :
    readLines usable prog i (buf :: rest) =
      if buf.head? = some '#' then readLines usable prog i rest
      else
        let fields := sscanf buf
        let r := (prog i).store fields
        if fields.length < 3 then readLines usable (Function.update prog i r) i rest
        else
          let r := r.fill fields
          let prog := Function.update prog i r
          if !r.internal && !usable r.prog then readLines usable prog i rest
          else if i = maxProg then (i, prog)
          else readLines usable prog (i + 1) rest := rfl

/-- A comment, or a line with too few fields, leaves only texts in the entry. -/
theorem readLines_none {buf : List Char} (h : fields? buf = none) (prog : Table) (i : Nat) (rest : List (List Char)) :
    ∃ r, (Plain r ↔ Plain (prog i)) ∧
      readLines usable prog i (buf :: rest) = readLines usable (Function.update prog i r) i rest := by
  by_cases hcomment : buf.head? = some '#'
  · refine ⟨prog i, Iff.rfl, ?_⟩
    rw [readLines_cons, if_pos hcomment, Function.update_eq_self]
  · have hfew : (sscanf buf).length < 3 := by
      by_contra hmany
      simp [fields?, hcomment, hmany] at h
    refine ⟨(prog i).store (sscanf buf), ?_, by simp only [readLines_cons, if_neg hcomment, if_pos hfew]⟩
    exact ⟨fun hp => ⟨hp.type, hp.addr, hp.internal⟩, fun hp => ⟨hp.type, hp.addr, hp.internal⟩⟩

/-- A line with the fields it needs fills the entry; if it is accepted the next line is read into the next one. -/
theorem readLines_some {buf : List Char} {fields : List (List Char)} (h : fields? buf = some fields) (prog : Table) (i : Nat)
    (rest : List (List Char)) :
    ∃ r, Holds fields r ∧ readLines usable prog i (buf :: rest) =
      if !acceptable usable fields then readLines usable (Function.update prog i r) i rest
      else if i = maxProg then (i, Function.update prog i r)
      else readLines usable (Function.update prog i r) (i + 1) rest := by
  obtain ⟨rfl, hcomment, hmin, hmax⟩ := fields?_eq_some h
  refine ⟨_, holds_fill hmin hmax (prog i), ?_⟩
  rw [← rejected_iff usable hmin hmax (prog i)]
  simp only [readLines_cons, if_neg hcomment, if_neg (show ¬ (sscanf buf).length < 3 by omega)]

theorem accepted_cons (buf : List Char) (rest : List (List Char)) :
    accepted usable (buf :: rest) = match fields? buf with
      | none => accepted usable rest
      | some fields => if acceptable usable fields then fields :: accepted usable rest else accepted usable rest := by
  unfold accepted
  cases h : fields? buf with
  | none => rw [List.filterMap_cons_none h]
  | some fields =>
    rw [List.filterMap_cons_some h, List.filter_cons]

/-- The entries from `i` on hold the accepted lines in the order of the file, as far as there is room; those
before are left alone. -/
theorem readLines_spec (ls : List (List Char)) : ∀ (prog : Table) {i : Nat}, i ≤ maxProg →
    (readLines usable prog i ls).1 = min maxProg (i + (accepted usable ls).length) ∧
    (∀ k < i, (readLines usable prog i ls).2 k = prog k) ∧
    ∀ (k : Nat) (hk : k < (accepted usable ls).length), i + k < maxProg →
      Holds (accepted usable ls)[k] ((readLines usable prog i ls).2 (i + k)) := by
  induction ls with
  | nil =>
    intro prog i hi
    refine ⟨?_, fun _ _ => rfl, fun k hk => absurd hk (Nat.not_lt_zero k)⟩
    show i = min maxProg (i + 0)
    omega
  | cons buf rest ih =>
    intro prog i hi
    have hcons := accepted_cons usable buf rest
    have hkeep : ∀ (r : ProgRecord) (k : Nat), k < i → Function.update prog i r k = prog k :=
      fun r k hk => Function.update_of_ne (Nat.ne_of_lt hk) r prog
    cases hfields : fields? buf with
    | none =>
      obtain ⟨r, -, heq⟩ := readLines_none usable hfields prog i rest
      obtain ⟨hn, hbefore, hheld⟩ := ih (Function.update prog i r) hi
      rw [hfields] at hcons
      simp only [hcons, heq]
      exact ⟨hn, fun k hk => (hbefore k hk).trans (hkeep r k hk), hheld⟩
    | some fields =>
      obtain ⟨r, hr, heq⟩ := readLines_some usable hfields prog i rest
      rw [hfields] at hcons
      cases hacc : acceptable usable fields with
      | false =>
        simp only [hacc, Bool.not_false, if_true] at hcons heq
        obtain ⟨hn, hbefore, hheld⟩ := ih (Function.update prog i r) hi
        simp only [hcons, heq]
        exact ⟨hn, fun k hk => (hbefore k hk).trans (hkeep r k hk), hheld⟩
      | true =>
        simp only [hacc, Bool.not_true, Bool.false_eq_true, if_true, if_false] at hcons heq
        by_cases hfull : i = maxProg
        -- the spare entry is read, and the rest of the file is not
        · rw [if_pos hfull] at heq
          simp only [hcons, heq]
          refine ⟨by omega, hkeep r, ?_⟩
          intro k _ hlt
          omega
        · rw [if_neg hfull] at heq
          obtain ⟨hn, hbefore, hheld⟩ := ih (Function.update prog i r) (show i + 1 ≤ maxProg by omega)
          simp only [hcons, heq]
          refine ⟨?_, fun k hk => (hbefore k (by omega)).trans (hkeep r k hk), ?_⟩
          · rw [hn, List.length_cons]
            omega
          · rintro (_ | k) hk hlt
            · have hself := hbefore i (Nat.lt_succ_self i)
              rw [Function.update_self] at hself
              show Holds fields ((readLines usable (Function.update prog i r) (i + 1) rest).2 i)
              rw [hself]
              exact hr
            · have hnext := hheld k (by simpa using hk) (by omega)
              rw [show i + (k + 1) = i + 1 + k by omega]
              exact hnext

/-- What is left in the entry after lines that are not accepted: the last line with the fields it needs, if there
is one, or what was there before. -/
def LeavesPlain (r : ProgRecord) (ls : List (List Char)) : Prop :=
  match (ls.filterMap fields?).getLast? with
  | some fields => sockType (endpoint (fields.getD 0 [])).2 = .stream ∧ (endpoint (fields.getD 0 [])).1 = 0
  | none => Plain r

/-- Without an accepted line nothing is counted. -/
theorem readLines_rejected (ls : List (List Char)) : ∀ (prog : Table) {i : Nat}, accepted usable ls = [] →
    (readLines usable prog i ls).1 = i ∧ (Plain ((readLines usable prog i ls).2 i) ↔ LeavesPlain (prog i) ls) := by
  induction ls with
  | nil => exact fun _ _ _ => ⟨rfl, Iff.rfl⟩
  | cons buf rest ih =>
    intro prog i hnone
    rw [accepted_cons] at hnone
    cases hfields : fields? buf with
    | none =>
      obtain ⟨r, hplain, heq⟩ := readLines_none usable hfields prog i rest
      rw [hfields] at hnone
      obtain ⟨hn, hleft⟩ := ih (Function.update prog i r) (i := i) hnone
      rw [heq]
      refine ⟨hn, hleft.trans ?_⟩
      unfold LeavesPlain
      rw [List.filterMap_cons_none hfields, Function.update_self]
      cases (rest.filterMap fields?).getLast? with
      | none => exact hplain
      | some fields => exact Iff.rfl
    | some fields =>
      obtain ⟨r, hr, heq⟩ := readLines_some usable hfields prog i rest
      simp only [hfields] at hnone
      cases hacc : acceptable usable fields with
      | true => simp [hacc] at hnone
      | false =>
        simp only [hacc, Bool.not_false, if_true, Bool.false_eq_true, if_false] at hnone heq
        obtain ⟨hn, hleft⟩ := ih (Function.update prog i r) (i := i) hnone
        rw [heq]
        refine ⟨hn, hleft.trans ?_⟩
        unfold LeavesPlain
        rw [List.filterMap_cons_some hfields, Function.update_self, List.getLast?_cons]
        cases (rest.filterMap fields?).getLast? with
        | none =>
          -- what the line has left, which is not internal since it is not accepted
          have hinternal : r.internal = false := by
            rw [hr.internal]
            unfold acceptable at hacc
            rw [Bool.or_eq_false_iff] at hacc
            exact hacc.1
          exact ⟨fun h => ⟨hr.type ▸ h.type, hr.addr ▸ h.addr⟩,
            fun h => ⟨hr.type.trans h.1, hr.addr.trans h.2, hinternal⟩⟩
        | some fields' => exact Iff.rfl

end Lines

/-! ## The table of ports -/

/-- `read_portfile` leaves what the port file says in the table. -/
structure Right (standardProg : List Char) (prog : Table) (r : Reading) : Prop where
  room : (readPortfile standardProg prog r).1 ≤ maxProg
  entries : accepted r.usable r.lines ≠ [] →
    (readPortfile standardProg prog r).1 = min maxProg (accepted r.usable r.lines).length ∧
    ∀ (k : Nat) (hk : k < (accepted r.usable r.lines).length), k < maxProg →
      Holds (accepted r.usable r.lines)[k] ((readPortfile standardProg prog r).2 k)
  /-- Without an accepted line, the standard port. -/
  standard : accepted r.usable r.lines = [] →
    (readPortfile standardProg prog r).1 = 1 ∧
    Plain ((readPortfile standardProg prog r).2 0) ∧
    ((readPortfile standardProg prog r).2 0).port = defaultPort ∧
    ((readPortfile standardProg prog r).2 0).sock = none ∧
    ((readPortfile standardProg prog r).2 0).nargs = 0 ∧
    ((readPortfile standardProg prog r).2 0).prog = standardProg ∧
    ((readPortfile standardProg prog r).2 0).progname = standardProg

/-- A line is accepted, or what the others leave in the first entry is a stream socket on any address. -/
def Fit (prog : Table) (r : Reading) : Prop := accepted r.usable r.lines ≠ [] ∨ LeavesPlain (prog 0) r.lines

/-- A port file is read as it should be exactly if the entry of the standard port is plain when it is needed. -/
theorem right_iff (standardProg : List Char) (prog : Table) (r : Reading) : Right standardProg prog r ↔ Fit prog r := by
  obtain ⟨hn, -, hheld⟩ := readLines_spec r.usable r.lines prog (Nat.zero_le maxProg)
  rw [Nat.zero_add] at hn
  by_cases hnone : accepted r.usable r.lines = []
  · obtain ⟨hzero, hleft⟩ := readLines_rejected r.usable r.lines prog (i := 0) hnone
    have hread : readPortfile standardProg prog r = (1, Function.update (readLines r.usable prog 0 r.lines).2 0
        (((readLines r.usable prog 0 r.lines).2 0).standard standardProg)) := by
      unfold readPortfile
      simp only [hzero, if_true]
    have hentry : (readPortfile standardProg prog r).2 0 = ((readLines r.usable prog 0 r.lines).2 0).standard standardProg := by
      simp only [hread, Function.update_self]
    have hplain : Plain ((readPortfile standardProg prog r).2 0) ↔ LeavesPlain (prog 0) r.lines := by
      rw [hentry, ← hleft]
      exact ⟨fun h => ⟨h.type, h.addr, h.internal⟩, fun h => ⟨h.type, h.addr, h.internal⟩⟩
    constructor
    · exact fun h => .inr (hplain.1 (h.standard hnone).2.1)
    · rintro (h | h)
      · exact absurd hnone h
      · refine ⟨?_, fun hsome => absurd hnone hsome, fun _ => ⟨?_, hplain.2 h, ?_⟩⟩
        · rw [hread]
          show 1 ≤ maxProg
          decide
        · rw [hread]
        · rw [hentry]
          exact ⟨rfl, rfl, rfl, rfl, rfl⟩
  · have hpos : 0 < (accepted r.usable r.lines).length := List.length_pos_iff.2 hnone
    have hread : readPortfile standardProg prog r = readLines r.usable prog 0 r.lines := by
      unfold readPortfile
      have hne : (readLines r.usable prog 0 r.lines).1 ≠ 0 := by
        rw [hn]
        unfold maxProg
        omega
      simp only [hne, if_false]
    refine ⟨fun _ => .inl hnone, fun _ => ⟨?_, fun _ => ⟨?_, fun k hk hlt => ?_⟩, fun h => absurd h hnone⟩⟩
    · rw [hread, hn]
      exact Nat.min_le_left _ _
    · rw [hread, hn]
    · have hk' := hheld k hk (by omega)
      rw [Nat.zero_add] at hk'
      rw [hread]
      exact hk'

/-! ## Reloads -/

/-- What happens to the table: a port file is read, or the sockets of an entry and its counts change. -/
inductive Event
  | read (r : Reading)
  | serve (i : Nat) (sock : Option Nat) (child accepts denials forks : Nat)

def step (standardProg : List Char) (prog : Table) : Event → Table
  | .read r => (readPortfile standardProg prog r).2
  | .serve i sock child accepts denials forks =>
    Function.update prog i
      { prog i with sock := sock, child := child, accepts := accepts, denials := denials, forks := forks }

/-- Before anything is read the table is zero. -/
def start : Table := fun _ =>
  { type := .unset, port := 0, sock := some 0, child := 0, nargs := 0, prog := [], progname := [], arg := fun _ => []
    internal := false, accepts := 0, denials := 0, forks := 0, addr := 0 }

/-- Whenever a port file is read in a run, it and the table before are so related. -/
def EachRead (standardProg : List Char) (P : Table → Reading → Prop) : Table → List Event → Prop
  | _, [] => True
  | prog, .read r :: events => P prog r ∧ EachRead standardProg P (step standardProg prog (.read r)) events
  | prog, e :: events => EachRead standardProg P (step standardProg prog e) events

theorem EachRead.iff {standardProg : List Char} {P Q : Table → Reading → Prop} (h : ∀ prog r, P prog r ↔ Q prog r)
    (events : List Event) : ∀ prog, EachRead standardProg P prog events ↔ EachRead standardProg Q prog events := by
  induction events with
  | nil => exact fun _ => Iff.rfl
  | cons e events ih =>
    intro prog
    cases e with
    | read r => exact and_congr (h prog r) (ih _)
    | serve i sock child accepts denials forks => exact ih _

/-- In a run from the first start on, the table holds what each port file said after it was read, if and only if
each file has an accepted line or leaves a stream socket on any address in the first entry. -/
theorem portfile_right_iff (standardProg : List Char) (events : List Event) :
    EachRead standardProg (Right standardProg) start events ↔ EachRead standardProg Fit start events :=
  EachRead.iff (right_iff standardProg) events start

/-- An empty port file, or none, at the first start: the standard port has no type. -/
theorem portfile_empty_at_start :
    ¬ EachRead [] (Right []) start [.read ⟨none, fun _ => true⟩] ∧
      ¬ EachRead [] (Right []) start [.read ⟨some [], fun _ => true⟩] := by
  constructor
  · rintro ⟨hright, -⟩
    exact absurd (hright.standard rfl).2.1.type (by decide)
  · rintro ⟨hright, -⟩
    exact absurd (hright.standard rfl).2.1.type (by decide)

end Netrek.Portfile
