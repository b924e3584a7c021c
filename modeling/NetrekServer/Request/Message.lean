/-
`handleMessageReq`, `handleSMessageReq` and `parseIgnore` of `ntserv/socket.c`: a client's message
is either a command to this process or a message to post.
-/
import NetrekServer.Request.World

namespace Netrek.Request

/-! ## Packets -/

def mIndiv : Word := 0x02
def mTeam : Word := 0x04
def mAll : Word := 0x08
def mGod : Word := 0x10
def mConfig : Word := 0x40
def mDistr : Word := 0xC0
/-- From the client only: a multi-line macro. -/
def fmMacro : Word := 0x80
/-- From the server only: a multi-line macro. -/
def mMacro : Word := 0x100

/-- `struct mesg_cpacket`. -/
structure MesgCPacket where
  group : UInt8
  indiv : UInt8
  mesg : List Char

def MesgCPacket.groupWord (p : MesgCPacket) : Word := BitVec.ofNat 32 p.group.toNat

/-! ## Commands to this process -/

/-- What a letter of an ignore command toggles. -/
def ignoreLetter (c : Char) : Word :=
  if c = 'a' ∨ c = 'A' then mAll
  else if c = 't' ∨ c = 'T' then mTeam
  else if c = 'i' ∨ c = 'I' then mIndiv
  else 0

/-- The loop over the letters of an ignore command. -/
def ignoreLoop : List Char → Word → Word
  | [], mask => mask
  | c :: s, mask => if ignoreLetter c = 0 then mask else ignoreLoop s (mask ^^^ ignoreLetter c)

def World.modifyProc (w : World) (f : Proc → Proc) : World := { w with proc := f w.proc }

/-- What a list of possible cyborgs tells. -/
def cyborgs (w : World) : String :=
  let found := (List.finRange maxPlayer).filter fun i => (w.mem.players i).status != .pfree && (w.mem.players i).cyborg
  "Possible cyborgs: " ++ if found = [] then "None" else String.join (found.map fun i => (w.mem.players i).mapchars ++ " ")

def ignoreStatus (mask : Word) : String :=
  let all := if mask.has mAll then "All " else ""
  let team := if mask.has mTeam then "Team " else ""
  let indiv := if mask.has mIndiv then "Indiv " else ""
  "Ignore status for this player: " ++ all ++ team ++ indiv ++ if mask.has (mAll ||| mTeam ||| mIndiv) then "" else "None"

/-- `parseIgnore`: whether the message is eaten. -/
def parseIgnore (w : World) (p : MesgCPacket) : Except Fault (World × Bool) :=
  let s := cString p.mesg
  let self := p.indiv.toNat = w.proc.me.val
  if s.head? ≠ some ':' ∧ s ≠ "     ".toList then .ok (w, false)
  else if self ∧ s[1]? = some 'D' then
    if w.proc.dooshignore then
      .ok ((w.warn "Accepting Doosh messages.").modifyProc fun q => { q with dooshignore := false }, true)
    else .ok ((w.warn "Ignoring Doosh messages.").modifyProc fun q => { q with dooshignore := true }, true)
  else if self ∧ s[1]? = some 'M' then
    if w.proc.macroignore then
      .ok ((w.warn "Accepting multi-line macros.").modifyProc fun q => { q with macroignore := false }, true)
    else .ok ((w.warn "Ignoring multi-line macros.").modifyProc fun q => { q with macroignore := true }, true)
  else if self ∨ s.head? = some ' ' then
    -- a borg call is sent on, and anything else to oneself is eaten
    .ok (w.warn (if w.proc.binconfirm then "No cyborgs allowed in the game at this time." else cyborgs w),
      s.head? ≠ some ' ')
  else if p.groupWord ≠ mIndiv then .ok (w, false)
  else
    (ignoredAt p.indiv.toNat).bind fun i =>
      let mask := ignoreLoop s.tail (w.proc.ignored i)
      let w := w.modifyProc fun q => { q with ignored := Function.update q.ignored i mask }
      (playerAt p.indiv.toNat).map fun j =>
        ({ w with ignoreMasks := w.ignoreMasks ++ [(j, mask)] }.warn (ignoreStatus mask), true)

/-! ## Messages to post -/

/-- `clientVersion`. -/
def clientVersion (w : World) (mesg : List Char) : World :=
  match mesg with
  | '@' :: ident => w.modifyPlayer w.proc.me fun p => { p with ident := String.ofList (ident.take 79) }
  | _ => w

/-- `check_clue`. -/
def checkClue (w : World) (p : MesgCPacket) (group : Word) (text : String) : World :=
  match w.proc.clueString with
  | none => w
  | some clue =>
    if group = mIndiv ∧ p.indiv.toNat = w.proc.me.val ∧ text = clue then
      let w := w.modifyProc fun q => { q with clueVerified := true, clueFuse := 0, clueCount := 0 }
      let w := w.modifyPlayer w.proc.me fun q => { q with verifyClue := true }
      let name := w.me.name
      w.pmessage w.proc.me.val mIndiv ("GOD->" ++ letters w.me.team w.proc.me) 255
        "Thank you, %s, you have been verified as possible clue."
        s!"Thank you, {name}, you have been verified as possible clue."
    else w

/-- Post the message, once its group and its address are settled. -/
def postMessage (w : World) (p : MesgCPacket) (group macroBit : Word) (dest : String) : World :=
  let text := String.ofList (cString p.mesg)
  let address := " " ++ letters w.me.team w.proc.me ++ "->" ++ dest
  let w := w.pmessage p.indiv.toNat (macroBit ||| group) address w.proc.me.val "%s" text
  if w.proc.clue && !w.proc.clueVerified then checkClue w p group text else w

/-- The switch of `handleMessageReq` over the group. -/
def addressMessage (w : World) (p : MesgCPacket) (group macroBit : Word) : Except Fault World :=
  if group = mAll then .ok (postMessage w p group macroBit "ALL")
  else if group = mTeam ||| mDistr ∨ group = mTeam then
    let team := BitVec.ofNat 32 p.indiv.toNat
    if team ≠ fed ∧ team ≠ rom ∧ team ≠ kli ∧ team ≠ ori then .ok w
    else .ok (postMessage (w.modifyProc fun q => { q with clueFuse := 0 }) p group macroBit (teamshort p.indiv.toNat))
  else if group = mIndiv then
    if maxPlayer ≤ p.indiv.toNat then .ok w
    else
      (playerAt p.indiv.toNat).bind fun i =>
        if (w.mem.players i).status = .pfree then .ok w
        else
          (ignoredAt p.indiv.toNat).map fun j =>
            if (w.proc.ignored j).has mIndiv then w.warn "You are ignoring that player.  Message was not sent."
            else postMessage w p group macroBit (letters (w.mem.players i).team i ++ " ")
  else if group = mIndiv ||| mConfig then .ok (postMessage (clientVersion w (cString p.mesg)) p group macroBit "")
  else if group = mGod then .ok (postMessage w p group macroBit "GOD")
  else .ok w

/-- The client may not speak at all. -/
def silenced (w : World) (p : MesgCPacket) : Bool :=
  w.proc.mute || (w.proc.observerMuting && w.me.status == .pobserv) || (w.proc.muteall && p.groupWord.has mAll)

/-- The messages sent lately, less one for each second gone by. -/
def balanceNow (w : World) (now : Int) : Int :=
  if w.proc.lasttime ≠ 0 then max 0 (w.proc.balance - (now - w.proc.lasttime)) else w.proc.balance

/-- Too many messages lately. -/
def carriedAway (w : World) (now : Int) : Bool := decide (15 ≤ balanceNow w now) && !w.proc.whitelisted

/-- The text is cut off after 69 characters. -/
def MesgCPacket.cut (p : MesgCPacket) : MesgCPacket :=
  { p with mesg := p.mesg.take (msgLen - 11) }

/-- `handleMessageReq`, at the time `now`. -/
def handleMessageReq (w : World) (now : Int) (p : MesgCPacket) : Except Fault World :=
  if silenced w p then .ok (w.warn "Be quiet")
  else
    let balance := balanceNow w now
    if carriedAway w now then
      .ok ((w.warn "Be quiet").modifyProc fun q =>
        { q with lasttime := now, balance := balance + 3 + if q.tourn then 3 else 0 })
    else
      let add := if !w.proc.inlMode || !w.me.inlCaptain then 3 else 0
      let w := w.modifyProc fun q => { q with lasttime := now, balance := balance + add }
      let p := p.cut
      (parseIgnore w p).bind fun (w, eaten) =>
        if eaten then .ok w
        else
          let isMacro := p.groupWord.has fmMacro && !p.groupWord.has 0x40
          addressMessage w p (if isMacro then p.groupWord &&& ~~~fmMacro else p.groupWord) (if isMacro then mMacro else 0)

/-- `struct mesg_s_cpacket`. -/
structure MesgSCPacket where
  group : UInt8
  indiv : UInt8
  length : UInt8
  mesg : List Char

/-- `handleSMessageReq`: the text ends with the packet. -/
def handleSMessageReq (w : World) (now : Int) (p : MesgSCPacket) : Except Fault World :=
  handleMessageReq w now ⟨p.group, p.indiv, p.mesg.take (min (p.length.toNat - 4) (msgLen - 1))⟩

end Netrek.Request
