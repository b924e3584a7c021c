/-
The requests of `ntserv/socket.c`, `interface.c`, `draft.c` and `util.c` that name a player or a
planet by number, or a rate.
-/
import NetrekServer.Dock.Bay
import NetrekServer.Request.World
import NetrekServer.Slot.Team

namespace Netrek.Request

open Dock

/-! ## Drafting -/

/-- `inl_draft_ignore`. -/
def inlDraftIgnore (j : Player) : Bool := j.status == .pfree || j.flags.has pfRobot || j.flags.has pfObserv

/-- `inl_draft_highlight_up`. -/
def inlDraftHighlightUp (w : World) (k : Slot) : World :=
  (w.modifyPlayer k fun p => { p with ship := w.shipvals .battleship }).god k
    "Draft captain, your turn to pick a player."

/-- `inl_draft_highlight_down`. -/
def inlDraftHighlightDown (w : World) (k : Slot) : World :=
  (w.modifyPlayer k fun p => { p with ship := w.shipvals .scout }).god k
    "Draft captain, the other captain has the pick, standby."

/-- `inl_draft_next`: the pick goes from the captain `k` to the other captain. -/
def inlDraftNext (w : World) (k : Slot) : World × Bool :=
  match (List.finRange maxPlayer).find? fun h =>
      h != k && !inlDraftIgnore (w.mem.players h) && (w.mem.players h).inlCaptain with
  | some j =>
    let w := inlDraftHighlightUp (w.modifyPlayer j fun p => { p with inlDraft := .captainUp }) j
    (inlDraftHighlightDown (w.modifyPlayer k fun p => { p with inlDraft := .captainDown }) k, true)
  | none => (w.pmessage 0 0x08 "GOD->ALL" 255 "Draft stalled, no captain of other team."
      "Draft stalled, no captain of other team.", false)

/-- `inl_draft_pick_to_captain`. -/
def inlDraftPickToCaptain (w : World) (k : Slot) : Option Slot :=
  (List.finRange maxPlayer).find? fun h =>
    let j := w.mem.players h
    !inlDraftIgnore j && j.inlCaptain && j.team == (w.mem.players k).team &&
      (j.inlDraft == .captainUp || j.inlDraft == .captainDown)

def World.addFreeSlots (w : World) (q : Nat) (n : Int) : World :=
  { w with queues := Function.update w.queues q { w.queues q with freeSlots := (w.queues q).freeSlots + n } }

/-- `change_team_quietly`. -/
def changeTeamQuietly (w : World) (k : Slot) (ours theirs : Word) : World :=
  let (m, queues) := w.mem.changeTeamQuietly w.queues k ours theirs
  { w with mem := m, queues := queues }

/-- In terms of worlds. -/
theorem changeTeamQuietly_eq (w : World) (k : Slot) (ours theirs : Word) : changeTeamQuietly w k ours theirs =
    let wQueue := (w.mem.players k).wQueue
    let w := if wQueue ≠ Queue.quPickup ∧ ours ≠ nobody then
        let queue := if ours = fed then Queue.quHome else Queue.quAway
        ((w.addFreeSlots wQueue 1).modifyPlayer k fun p => { p with wQueue := queue }).addFreeSlots queue (-1)
      else w
    w.modifyPlayer k fun p => p.joinTeam k ours theirs := by
  unfold changeTeamQuietly Memory.changeTeamQuietly
  dsimp only
  by_cases h : (w.mem.players k).wQueue ≠ Queue.quPickup ∧ ours ≠ nobody
  · rw [if_pos h, if_pos h]
    rfl
  · rw [if_neg h, if_neg h]
    rfl

def numRanks : Int := 9

/-- `inl_draft_pick`. -/
def inlDraftPick (w : World) (j k : Slot) : World :=
  let ours := (w.mem.players k).team
  let theirs := (w.mem.players j).team
  let w := if theirs ≠ ours then changeTeamQuietly w j ours theirs else w
  let w := if (w.mem.players j).team = fed then
      { w.modifyPlayer j fun p => { p with inlPick := w.inlHomePick } with inlHomePick := w.inlHomePick + 1 }
    else w
  let w := if (w.mem.players j).team = rom then
      { w.modifyPlayer j fun p => { p with inlPick := w.inlAwayPick } with inlAwayPick := w.inlAwayPick + 1 }
    else w
  let w := w.modifyPlayer j fun p => { p with inlDraft := .movingToPick }
  let n := w.inlHomePick + w.inlAwayPick
  let side := if (w.mem.players j).team = fed then "HOME" else "AWAY"
  let kChars := (w.mem.players k).mapchars
  let jChars := (w.mem.players j).mapchars
  let jName := (w.mem.players j).name
  let w := w.pmessage 0 0x08 "GOD->ALL" 255 "Selection #%d: %s (%s) drafts %s (%s)."
    s!"Selection #{n}: {kChars} ({side}) drafts {jChars} ({jName})."
  if w.proc.inRobot then w.modifyPlayer j fun p => { p with rank := numRanks - (n - 1).tdiv 2 - 2 } else w

/-- A pick by the captain `k`, unless the player fingered is a captain. -/
def draftFromPool (w : World) (j k : Slot) : World :=
  if (w.mem.players j).inlCaptain then w
  else match inlDraftNext w k with
    | (w, true) => inlDraftPick w j k
    | (w, false) => w

/-- `inl_draft_select`. -/
def inlDraftSelect (w : World) (n : Int) : Except Fault World :=
  if n < 0 ∨ (maxPlayer : Int) < n then .ok w
  else
    (playerAt n).map fun j =>
      let k := w.proc.me
      let kDraft := (w.mem.players k).inlDraft
      match (w.mem.players j).inlDraft with
      | .captainDown =>
        if kDraft = .captainUp then
          match inlDraftNext w k with
          | (w, true) =>
            let kChars := (w.mem.players k).mapchars
            w.pmessage 0 0x08 "GOD->ALL" 255 "%s passes this draft pick." s!"{kChars} passes this draft pick."
          | (w, false) => w
        else w
      | .movingToPool | .pooled =>
        if kDraft = .captainUp then draftFromPool w j k
        else if kDraft = .pickedSelector then
          let meChars := (w.mem.players k).mapchars
          match inlDraftPickToCaptain w k with
          | none => w.pmessage 0 0x08 "GOD->ALL" 255 "Draft error, %s has no captain."
              s!"Draft error, {meChars} has no captain."
          | some c =>
            if (w.mem.players c).inlDraft ≠ .captainUp then
              w.pmessage 0 0x08 "GOD->ALL" 255 "Draft error, pick by %s ignored because captain is not up."
                s!"Draft error, pick by {meChars} ignored because captain is not up."
            else draftFromPool w j c
        else w
      | .movingToPick | .picked =>
        if (kDraft = .captainUp ∨ kDraft = .captainDown) ∧ (w.mem.players j).team = (w.mem.players k).team then
          (w.modifyPlayer j fun p => { p with inlDraft := .pickedSelector }).god j
            "Draft selector, your captain has chosen you to pick."
        else w
      | .pickedSelector =>
        if (kDraft = .captainUp ∨ kDraft = .captainDown) ∧ (w.mem.players j).team = (w.mem.players k).team then
          (w.modifyPlayer j fun p => { p with inlDraft := .picked }).god j
            "Draft selector, your captain has withdrawn your duty to pick."
        else w
      | _ => w

/-- `inl_draft_reject`. -/
def inlDraftReject (w : World) (n : Int) : Except Fault World :=
  if n < 0 ∨ (maxPlayer : Int) < n then .ok w
  else
    (playerAt n).map fun j =>
      let captain (d : InlDraft) : Bool := d == .captainUp || d == .captainDown
      if captain (w.mem.players j).inlDraft && captain w.me.inlDraft then
        let meChars := w.me.mapchars
        let jChars := (w.mem.players j).mapchars
        w.pmessage 0 0x08 "GOD->ALL" 255 "Captain %s slaps captain %s around with a dead trout."
          s!"Captain {meChars} slaps captain {jChars} around with a dead trout."
      else w

/-! ## Locking on -/

def lockPlanetText : Nat := 14
def sbLockStranger : Nat := 19
def sbLockMyTeam : Nat := 20

/-- `is_sub_in_locked`. -/
def isSubInLocked (w : World) : Bool :=
  match w.me.subInFor with
  | none => false
  | some i =>
    let p := w.mem.players i
    w.me.subIn && p.subOut && p.subOutFor == some w.proc.me && p.status != .pfree

/-- `lock_planet`. -/
def lockPlanet (w : World) (planet : Int) : Except Fault World :=
  if w.me.inlDraft ≠ .off then .ok w
  else if planet < 0 ∨ (maxPlanets : Int) ≤ planet then .ok w
  else if isSubInLocked w then .ok w
  else
    (planetAt planet).map fun l =>
      let w := w.modifyMe fun p =>
        { (p.setFlags pfPlLock).clearFlags (pfPLock ||| pfOrbit ||| pfBeamUp ||| pfBeamDown ||| pfBomb) with planet := l }
      let name := (w.mem.planets l).name
      if w.proc.sendShort then w.swarn lockPlanetText l else w.warn s!"Locking onto {name}"

/-- `lock_player`. -/
def lockPlayer (w : World) (player : Int) : Except Fault World :=
  if w.me.inlDraft ≠ .off then inlDraftSelect w player
  else if player < 0 ∨ (maxPlayer : Int) ≤ player then .ok w
  else
    (playerAt player).map fun i =>
      let v := w.mem.players i
      if v.status ≠ .palive then w
      else if v.flags.has pfCloak && !w.proc.observer then w
      else if isSubInLocked w then w
      else
        let w := w.modifyMe fun p =>
          ({ p with playerl := i }.clearFlags (pfPlLock ||| pfOrbit ||| pfBeamUp ||| pfBeamDown ||| pfBomb)).setFlags pfPLock
        let v := w.mem.players i
        let name := v.name
        let chars := letters v.team i
        if v.team = w.me.team ∧ v.ship.type = .starbase ∧ w.me.canDock then
          let docking := if v.flags.has pfDockOk then "enabled" else "disabled"
          if w.proc.sendShort then w.swarn sbLockMyTeam i
          else w.warn s!"Locking onto {name} ({chars}) (docking is {docking})"
        else if w.proc.sendShort then w.swarn sbLockStranger i
        else w.warn s!"Locking onto {name} ({chars})"

/-! ## Tractors and pressors -/

/-- Whether a ship is in range of a tractor beam; `hypot` is compared by squares. -/
def inTractorRange (p v : Player) : Bool :=
  decide (0 < p.ship.tractRng ∧
    ((p.x - v.x) ^ 2 + (p.y - v.y) ^ 2 : Int) < (tractDist * p.ship.tractRng) ^ 2)

/-- Undock both ships and break both orbits; `wv` are the flags the two lose besides. -/
def breakOrbits (w : World) (v : Slot) (wv : Word) : World :=
  let m := bayRelease (bayRelease w.mem v) w.proc.me
  let m := m.modifyPlayer v fun p => p.clearFlags (pfOrbit ||| wv)
  { w with mem := m.modifyPlayer w.proc.me fun p => p.clearFlags (pfOrbit ||| wv) }

/-- Lay the beam on `v` when it is visible and in range. -/
def beamOn (w : World) (v : Slot) (wv on : Word) (far : World → World) : World :=
  if (w.mem.players v).flags.has pfCloak then w
  else if inTractorRange w.me (w.mem.players v) then
    (breakOrbits w v wv).modifyMe fun p => { p with tractor := v }.setFlags on
  else far w

def noTractors (w : World) : World := w.warn "Tractor beams haven't been invented yet."
def cloakedTractor (w : World) : World := w.warn "Weapons's Officer:  Cannot tractor while cloaked, sir!"
def outOfRange (w : World) : World := w.warn "Weapon's Officer:  Vessel is out of range of our tractor beam."

/-- `tractor_player`. -/
def tractorPlayer (w : World) (player : Int) : Except Fault World :=
  if !w.proc.tractorAllowed then .ok w
  else if player < 0 ∨ (maxPlayer : Int) < player then .ok (w.modifyMe fun p => p.clearFlags (pfTract ||| pfPress))
  else if w.me.flags.has pfCloak then .ok w
  else if player = w.proc.me.val then .ok w
  else (playerAt player).map fun v => beamOn w v 0 pfTract id

/-- `pressor_player`. -/
def pressorPlayer (w : World) (player : Int) : Except Fault World :=
  if !w.proc.tractorAllowed then .ok (noTractors w)
  else if player < 0 ∨ (maxPlayer : Int) < player then .ok (w.modifyMe fun p => p.clearFlags (pfTract ||| pfPress))
  else if w.me.flags.has pfPress then .ok w
  else if w.me.flags.has pfCloak then .ok (cloakedTractor w)
  else (playerAt player).map fun v => beamOn w v pfDock (pfTract ||| pfPress) outOfRange

/-- What `handleTractorReq` and `handleRepressReq` share: the target is a slot other than one's
own, and during a draft it is selected or rejected. -/
def handleBeamReq (w : World) (state pnum : Int) (draft : World → Int → Except Fault World) (on : Word) :
    Except Fault World :=
  if !w.proc.tractorAllowed then .ok (noTractors w)
  else if state = 0 then .ok (w.modifyMe fun p => p.clearFlags (pfTract ||| pfPress))
  else if w.me.flags.has pfCloak then .ok (cloakedTractor w)
  else if pnum < 0 ∨ (maxPlayer : Int) ≤ pnum ∨ pnum = w.proc.me.val then .ok w
  else if w.me.inlDraft ≠ .off then draft w pnum
  else (playerAt pnum).map fun v => beamOn w v 0 on outOfRange

/-- `handleTractorReq`. -/
def handleTractorReq (w : World) (state pnum : Int8) : Except Fault World :=
  handleBeamReq w state.toInt pnum.toInt inlDraftSelect pfTract

/-- `handleRepressReq`. -/
def handleRepressReq (w : World) (state pnum : Int8) : Except Fault World :=
  handleBeamReq w state.toInt pnum.toInt inlDraftReject (pfTract ||| pfPress)

/-- `handlePlanlockReq`. -/
def handlePlanlockReq (w : World) (pnum : Int8) : Except Fault World := lockPlanet w pnum.toInt

/-- `handlePlaylockReq`. -/
def handlePlaylockReq (w : World) (pnum : Int8) : Except Fault World := lockPlayer w pnum.toInt

/-! ## Planet checks -/

/-- `struct planet_cpacket`, in host order. -/
structure PlanetCPacket where
  pnum : Int8
  owner : Int8
  info : Int8
  flags : UInt16
  armies : UInt32

/-- `handlePlanReq`. -/
def handlePlanReq (w : World) (p : PlanetCPacket) : Except Fault World :=
  if !w.proc.checkPlanets then .ok w
  else if p.pnum.toInt < 0 ∨ (maxPlanets : Int) < p.pnum.toInt then .ok w
  else
    (planetAt p.pnum.toInt).map fun i =>
      let plan := w.mem.planets i
      if plan.info.has w.me.team then
        if plan.info.toInt ≠ p.info.toInt ∨ BitVec.ofInt 32 plan.armies ≠ p.armies.toBitVec ∨
            plan.owner.toInt ≠ p.owner.toInt ∨
            plan.flags &&& plFlagMask ≠ BitVec.ofNat 32 p.flags.toNat &&& plFlagMask then
          { w with
            sent := w.sent ++ [⟨i, plan.owner, plan.info, plan.flags &&& plFlagMask, plan.armies⟩]
            planetMiss := w.planetMiss + 1 }
        else { w with planetHits := w.planetHits + 1 }
      else w

/-! ## Update rates -/

/-- The requested rate within the configured limits. -/
def clampUps (r : Rates) (ups : Nat) : Nat :=
  let ups := if ups < r.minups then r.minups else ups
  let ups := if r.maxups < ups then r.maxups else ups
  if r.fps < ups then r.fps else ups

/-- `p_ups_set`. -/
def pUpsSet (w : World) (clientUps : Nat) : Except Fault (World × Bool) :=
  (divide w.proc.rates.fps (clampUps w.proc.rates clientUps)).bind fun fpu =>
    (divide w.proc.rates.fps fpu).map fun ups =>
      if w.me.fpu = fpu ∧ w.me.ups = ups then (w, false)
      else (w.modifyMe fun p => { p with fpu := fpu, ups := ups }, true)

/-- `handleUpdatesReq`. -/
def handleUpdatesReq (w : World) (usecs : UInt32) : Except Fault World :=
  (divide 1000000 usecs.toNat).bind fun ups =>
    (pUpsSet w ups).map fun r =>
      if r.2 && r.1.proc.featurePackets then { r.1 with featureUps := r.1.featureUps + 1 } else r.1

end Netrek.Request
