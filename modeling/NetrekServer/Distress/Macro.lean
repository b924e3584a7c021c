/-
`ntserv/distress.c`: a distress call of a client is decoded, and its macro is turned into text in three passes. A text is
the list of its characters; what is left of it stands for a pointer into it, and its end for the NUL. A pass that takes the
NUL for a character reads past it, which is a fault, as is a buffer that gets more than it holds.
-/
import NetrekServer.Struct
import NetrekServer.Text

namespace Netrek.Distress

open Text (atoi)

def maxMacLen : Nat := 85
def msgLen : Nat := 80
/-- The size of `buf1`, `buf2`, `buf3` and `tmp`. -/
def bufSize : Nat := 10 * maxMacLen

/-! ## Faults -/

inductive Table
  | players
  | planets
  | macros
  deriving DecidableEq

inductive Fault
  | outOfRange (t : Table) (i : Nat)
  /-- The last entry of `distmacro[]` has no macro. -/
  | nullMacro
  /-- What is behind the NUL of a text is read. -/
  | pastEnd
  /-- A buffer gets more than it holds. -/
  | overrun
  | noFuel
  deriving DecidableEq

/-! ## The record -/

/-- `struct distress`, but for three fields that nothing uses. -/
structure Call where
  sender : Nat
  dam : Nat
  shld : Nat
  arms : Nat
  wtmp : Nat
  etmp : Nat
  fuelp : Nat
  sts : Nat
  wtmpflag : Bool
  etempflag : Bool
  cloakflag : Bool
  distype : Nat
  macroflag : Bool
  closePl : Nat
  closeEn : Nat
  tclosePl : Nat
  tcloseEn : Nat
  preApp : Bool
  closeJ : Nat
  closeFr : Nat
  tcloseJ : Nat
  tcloseFr : Nat
  cclist : List UInt8
  preappend : List UInt8
  deriving Inhabited

def pfWep : UInt8 := 0x20
def pfEng : UInt8 := 0x40
def pfCloak : UInt8 := 0x10

/-- The carbon copies, at most so many: from the first byte on that is none. -/
def cclistFrom (mtext : Nat → UInt8) : Nat → Nat → List UInt8
  | 0, i => [mtext i]
  | most + 1, i =>
    if mtext i &&& 0xc0 = 0xc0 then (mtext i &&& 0x1f) :: cclistFrom mtext most (i + 1) else [mtext i]

/-- The bytes up to a NUL, at most so many. -/
def strncpy (mtext : Nat → UInt8) : Nat → Nat → List UInt8
  | 0, _ => []
  | most + 1, i => if mtext i = 0 then [] else mtext i :: strncpy mtext most (i + 1)

/-- `HandleGenDistr`; `mtext` is the text of the message behind its address. -/
def handleGenDistr (mtext : Nat → UInt8) (sender : Nat) : Call :=
  let low (i : Nat) := (mtext i &&& 0x7f).toNat
  let sts := mtext 7 &&& 0x7f
  let cclist := cclistFrom mtext 6 16
  let i := 16 + cclist.length - 1
  { sender := sender
    distype := (mtext 0 &&& 0x1f).toNat
    macroflag := decide (mtext 0 &&& 0x20 ≠ 0)
    fuelp := low 1
    dam := low 2
    shld := low 3
    etmp := low 4
    wtmp := low 5
    arms := (mtext 6 &&& 0x1f).toNat
    sts := sts.toNat
    wtmpflag := decide (sts &&& pfWep ≠ 0)
    etempflag := decide (sts &&& pfEng ≠ 0)
    cloakflag := decide (sts &&& pfCloak ≠ 0)
    closePl := low 8
    closeEn := low 9
    tclosePl := low 10
    tcloseEn := low 11
    tcloseJ := low 12
    closeJ := low 13
    tcloseFr := low 14
    closeFr := low 15
    cclist := cclist
    preApp := decide (mtext i = 0x80)
    preappend := strncpy mtext (msgLen - 1) (i + 1) }

/-! ## Values -/

/-- The tables, and the text of a player's kills as `sprintf` writes it. -/
structure Scene where
  mem : Memory
  kills : Slot → List Char

def slot (i : Nat) : Except Fault Slot := if h : i < maxPlayer then .ok ⟨i, h⟩ else .error (.outOfRange .players i)

def planet (i : Nat) : Except Fault (Fin maxPlanets) :=
  if h : i < maxPlanets then .ok ⟨i, h⟩ else .error (.outOfRange .planets i)

/-- `itoa2`. -/
def itoa2 (n : Int) : List Char := (toString n).toList

/-- `APPEND_CAP`. -/
def capital (cap : Bool) (text : List Char) : List Char := if cap then text.map Char.toUpper else text

def shiptypes : ShipType → List Char
  | .scout => ['S', 'C']
  | .destroyer => ['D', 'D']
  | .cruiser => ['C', 'A']
  | .battleship => ['B', 'B']
  | .assault => ['A', 'S']
  | .starbase => ['S', 'B']
  | .sgalaxy => ['G', 'A']
  | .att => ['A', 'T']

/-- `p_mapchars[1]`. -/
def letter (p : Player) : List Char := (p.mapchars.toList.drop 1).take 1

/-- The first three characters of a planet's name, the first one made small. -/
def planetName (l : Planet) : List Char :=
  match l.name.toList with
  | [] => [' ']
  | c :: name => Char.ofNat (c.toNat - 'A'.toNat + 'a'.toNat) :: name.take 2

def flagText (b : Bool) : List Char := [if b then '1' else '0']

section

variable (g : Scene) (d : Call)

/-- What an escape puts in its place; `cap` is set by the capital of a letter, and left set by `K`. -/
def escape (cap : Bool) (c : Char) : Except Fault (List Char) :=
  match c with
  | ' ' => .ok [' ']
  | 'O' | 'o' => do
    let sender := g.mem.players (← slot d.sender)
    return if sender.team ≠ allTeam then capital (cap || c == 'O') (teamshort sender.team.toNat).toList else []
  | 'a' => .ok (itoa2 d.arms)
  | 'd' => .ok (itoa2 d.dam)
  | 's' => .ok (itoa2 d.shld)
  | 'f' => .ok (itoa2 d.fuelp)
  | 'w' => .ok (itoa2 d.wtmp)
  | 'e' => .ok (itoa2 d.etmp)
  | 'p' => return letter (g.mem.players (← slot d.tcloseJ))
  | 'g' => return letter (g.mem.players (← slot d.tcloseFr))
  | 'h' => return letter (g.mem.players (← slot d.tcloseEn))
  | 'P' => return letter (g.mem.players (← slot d.closeJ))
  | 'G' => return letter (g.mem.players (← slot d.closeFr))
  | 'H' => return letter (g.mem.players (← slot d.closeEn))
  | 'n' => do
    let l := g.mem.planets (← planet d.tclosePl)
    let sender := g.mem.players (← slot d.sender)
    return itoa2 (if l.info.has sender.team then l.armies else -1)
  | 'B' | 'b' => return capital (cap || c == 'B') (planetName (g.mem.planets (← planet d.closePl)))
  | 'L' | 'l' => return capital (cap || c == 'L') (planetName (g.mem.planets (← planet d.tclosePl)))
  | 'Z' | 'z' => return capital (cap || c == 'Z') (teamshort (g.mem.planets (← planet d.tclosePl)).owner.toNat).toList
  | 't' => return [teamlet (g.mem.planets (← planet d.tclosePl)).owner]
  | 'T' => return [teamlet (g.mem.players (← slot d.sender)).team]
  | 'c' => return letter (g.mem.players (← slot d.sender))
  | 'W' => .ok (flagText d.wtmpflag)
  | 'E' => .ok (flagText d.etempflag)
  | 'K' => return g.kills (← slot d.tcloseEn)
  | 'k' => return g.kills (← slot (if cap then d.tcloseEn else d.sender))
  | 'U' | 'u' => return capital (cap || c == 'U') (g.mem.players (← slot d.tcloseEn)).name.toList
  | 'I' | 'i' => return capital (cap || c == 'I') (g.mem.players (← slot d.sender)).name.toList
  | 'S' => return shiptypes (g.mem.players (← slot d.sender)).ship.type
  | 'v' | 'V' | 'y' => .ok ['0']
  | '*' | '}' | '{' | '!' | '?' | '%' => .ok ['%', c]
  | _ => .ok []

/-- What an escape leaves in `cap`. -/
def capAfter (cap : Bool) (c : Char) : Bool :=
  match c with
  | 'K' => true
  | 'O' | 'o' | 'B' | 'b' | 'L' | 'l' | 'Z' | 'z' | 'U' | 'u' | 'I' | 'i' => false
  | _ => cap

/-- The first pass: values are put in the place of escapes. -/
def substitute (cap : Bool) : List Char → Except Fault (List Char)
  | [] => .ok []
  -- the NUL is taken for the letter of the escape
  | ['%'] => .error .pastEnd
  | '%' :: c :: pm => do
    let text ← escape g d cap c
    return text ++ (← substitute (capAfter cap c) pm)
  | c :: pm => return c :: (← substitute cap pm)

end

/-! ## Tests -/

def isOperation (c : Char) : Bool := c == '<' || c == '>' || c == '='

/-- Whether the test is true. -/
def compare (bufh : List Char) (operation : Char) (bufc : List Char) : Bool :=
  match operation with
  | '=' => bufc == bufh
  | '<' => decide (atoi bufh < atoi bufc)
  | '>' => decide (atoi bufc < atoi bufh)
  | _ => true

/-- The second loop of `solvetest`: what is compared to, and where the text goes on; `prev` is the place one before. -/
def rightSide (state : Bool) (prev : List Char) : List Char → List Char × List Char
  | [] => ([], [])
  | c :: bufa =>
    if state && (c == '?' || c == '{') then ([], prev)
    else if state && (c == '%' || c == '!' || c == '}') then
      let (bufc, rest) := rightSide false (c :: bufa) bufa
      ('%' :: c :: bufc, rest)
    else if c == '%' then rightSide true (c :: bufa) bufa
    else
      let (bufc, rest) := rightSide false (c :: bufa) bufa
      (c :: bufc, rest)

/-- `solvetest`: whether the test is true, and where the text goes on. -/
def solveTest (bufa : List Char) : Except Fault (Bool × List Char) :=
  let bufh := bufa.takeWhile fun c => !isOperation c
  match bufa.dropWhile fun c => !isOperation c with
  -- the NUL is taken for the operation
  | [] => .error .pastEnd
  | operation :: bufa =>
    let (bufc, rest) := rightSide false (operation :: bufa) bufa
    if bufSize ≤ bufh.length ∨ bufSize ≤ bufc.length then .error .overrun
    else .ok (compare bufh operation bufc, rest)

/-- `testmacro`: tests are replaced by their results. -/
def testMacro : Nat → Bool → List Char → List Char → Except Fault (List Char)
  | 0, _, _, _ => .error .noFuel
  | _ + 1, _, [], bufb => .ok bufb
  | fuel + 1, state, c :: bufa, bufb =>
    if bufSize ≤ bufb.length then .ok bufb
    else if state then
      match c with
      | '*' | '%' | '{' | '}' | '!' =>
        if bufb.length < bufSize - 2 then testMacro fuel false bufa (bufb ++ ['%', c]) else .ok bufb
      | '?' => do
        let (result, bufa) ← solveTest bufa
        testMacro fuel false bufa (bufb ++ flagText result)
      | _ => testMacro fuel false bufa bufb
    else if c == '%' then testMacro fuel true bufa bufb
    else testMacro fuel false bufa (bufb ++ [c])

/-! ## Conditionals -/

/-- `bufb` and `*indb`; and whether `%*` has aborted a macro. -/
structure Sheet where
  bufb : Nat → Char
  indb : Nat
  aborted : Bool

def Sheet.push (s : Sheet) (c : Char) : Sheet := { s with bufb := Function.update s.bufb s.indb c, indb := s.indb + 1 }

/-- The text is thrown away. -/
def Sheet.abort (s : Sheet) : Sheet := { bufb := Function.update s.bufb 0 '\x00', indb := 0, aborted := true }

/-- The result of the test before a conditional is taken back. -/
def Sheet.takeResult (s : Sheet) : Bool × Sheet :=
  if 0 < s.indb then (s.bufb (s.indb - 1) != '0', { s with indb := s.indb - 1 }) else (true, s)

/-- `skipmacro`: where the text goes on behind a conditional. -/
def skipMacro : Nat → Bool → List Char → Except Fault (List Char)
  | 0, _, _ => .error .noFuel
  | _ + 1, _, [] => .ok []
  | fuel + 1, state, c :: buf =>
    -- the character after one that is no escape is taken without a look whether there is one
    let plain (buf : List Char) : Except Fault (List Char) :=
      match buf with
      | [] => .error .pastEnd
      | c :: buf => skipMacro fuel (c == '%') buf
    if state then
      match c with
      -- state stays set after a conditional within
      | '{' => do
        let buf ← skipMacro fuel false buf
        skipMacro fuel true buf
      | '}' => .ok buf
      | '!' | '%' => skipMacro fuel false buf
      | _ => plain buf
    else plain (c :: buf)

/-- `condmacro`: where the text goes on, and what has been included of it. -/
def condMacro : Nat → Bool → Bool → Bool → Sheet → List Char → Except Fault (List Char × Sheet)
  | 0, _, _, _, _, _ => .error .noFuel
  | _ + 1, _, _, _, s, [] => .ok ([], s)
  | fuel + 1, flag, incl, state, s, c :: bufa =>
    let plain (bufa : List Char) : Except Fault (List Char × Sheet) :=
      match bufa with
      | [] => .error .pastEnd
      | c :: bufa =>
        if c == '%' then condMacro fuel flag incl true s bufa
        else condMacro fuel flag incl false (if incl then s.push c else s) bufa
    if maxMacLen ≤ s.indb then .ok (c :: bufa, s)
    else if state then
      match c with
      | '}' => .ok (bufa, s)
      | '{' =>
        let (newflag, s) := s.takeResult
        if incl then do
          let (bufa, s) ← condMacro fuel newflag newflag false s bufa
          condMacro fuel flag incl false s bufa
        else do
          let bufa ← skipMacro fuel false bufa
          condMacro fuel flag incl false { s with indb := s.indb + 1 } bufa
      | '!' => condMacro fuel flag (!flag) false s bufa
      | '*' => if incl then .ok (bufa, s.abort) else condMacro fuel flag incl false s bufa
      | '%' => condMacro fuel flag incl false (if incl then s.push '%' else s) bufa
      | _ => plain bufa
    else plain (c :: bufa)

/-! ## The text -/

/-- The text up to the NUL, in the first so many characters. -/
def Sheet.text (s : Sheet) (count : Nat) : List Char := ((List.range count).map s.bufb).takeWhile (· != '\x00')

/-- What `makedistress` returns and what it leaves in `cry`; and whether the macro was aborted. -/
structure Cry where
  size : Nat
  text : List Char
  aborted : Bool
  deriving DecidableEq

/-- The third step of `makedistress`, for a `cry` of `MSG_LEN` characters; `junk` is what `buf3` holds at first. -/
def thirdStep (junk : Nat → Char) (buf2 : List Char) : Except Fault Cry :=
  if buf2 = [] then .ok ⟨0, [], false⟩
  else do
    let (_, buf3) ← condMacro (buf2.length + 1) true true false ⟨junk, 0, false⟩ buf2
    if buf3.indb = 0 then .ok ⟨0, [], buf3.aborted⟩
    else
      let index3 := min buf3.indb msgLen
      let text := buf3.text index3
      if msgLen < text.length + 1 then .error .overrun else .ok ⟨index3, text, buf3.aborted⟩

/-- `makedistress`. -/
def makedistress (g : Scene) (d : Call) (junk : Nat → Char) (pm : List Char) : Except Fault Cry :=
  if pm = [] then .ok ⟨0, [], false⟩
  else do
    let buf1 ← substitute g d false pm
    if bufSize ≤ buf1.length then .error .overrun
    else do
      let bufb ← testMacro (buf1.length + 1) false buf1 []
      thirdStep junk (bufb.take (bufSize - 1))

/-! ## The macros -/

/-- `distmacro[]`. -/
def distMacro : List (Option String) :=
  [some "this should never get looked at",
   some " %T%c->%O (%S) Carrying %a to %l%?%n>-1%\x7b @ %n%\x7d",
   some " %T%c->%O Help Ogg %p at %l",
   some " %T%c->%O %?%n>4%\x7bbomb %l @ %n%!bomb %l%\x7d",
   some " %T%c->%O Help Control at %L",
   some " %T%c->%O Emergency at %L!!!!",
   some " %T%c->%O Sync with --]> %g <[-- OGG ogg OGG base!!",
   some " %T%c->%O Help me! %d%% dam, %s%% shd, %f%% fuel %a armies.",
   some " %T%c->%O Help me! %d%% dam, %s%% shd, %f%% fuel %a armies.",
   some " %T%c->%O ESCORTING %g (%d%%D %s%%S %f%%F)",
   some " %T%c->%O Ogging %h",
   some " %T%c->%O Bombing %l @ %n",
   some " %T%c->%O Controlling at %l",
   some " %T%c->%O Anti-bombing %p near %b.",
   some " %T%c->%O DON'T BOMB %l. Let me bomb it (%S)",
   some " %T%c->%O (%i)%?%a>0%\x7b has %a arm%?%a=1%\x7by%!ies%\x7d%\x7d at %l.  (%d%% dam, %s%% shd, %f%% fuel)",
   some " %T%c->%O (%i)%?%a>0%\x7b has %a arm%?%a=1%\x7by%!ies%\x7d%\x7d at %l.  (%d%% dam, %s%% shd, %f%% fuel)",
   some " %T%c->%O %p is free beer",
   some " %T%c->%O %p @ %l has no gas",
   some " %T%c->%O %p @ %l crippled",
   some " %T%c->%O %p++ @ %l",
   some " %T%c->%O %l%?%n>-1%\x7b @ %n%\x7d!",
   some " %T%c->%O %?%S=SB%\x7bYour Starbase is c%!C%\x7darrying %?%a>0%\x7b%a%!NO%\x7d arm%?%a=1%\x7by%!ies%\x7d.",
   some " %T%c->%O (%i)%?%a>0%\x7b has %a arm%?%a=1%\x7by%!ies%\x7d%\x7d at %l. (%d%%D, %s%%S, %f%%F)",
   some " %T%c->%O (%i)%?%a>0%\x7b has %a arm%?%a=1%\x7by%!ies%\x7d%\x7d at %l. (%d%%D, %s%%S, %f%%F)",
   some (" %T%c->%O Help(%S)! %s%% shd, %d%% dmg, %f%% fuel,%?%S=SB%\x7b %w%% wtmp,%!%\x7d%E%\x7b ETEMP!%\x7d" ++
     "%W%\x7b WTEMP!%\x7d %a armies!"),
   none]

/-- `distmacro[i].macro`. -/
def macroAt (i : Nat) : Except Fault (List Char) :=
  match distMacro[i]? with
  | some (some m) => .ok m.toList
  | some none => .error .nullMacro
  | none => .error (.outOfRange .macros i)

/-- A distress message is turned into text for a client that cannot do it itself. -/
def distressText (g : Scene) (junk : Nat → Char) (mtext : Nat → UInt8) (sender : Nat) : Except Fault Cry := do
  let d := handleGenDistr mtext sender
  makedistress g d junk (← macroAt d.distype)

end Netrek.Distress
