/-
`solicit` of `ntserv/solicit.c`: the metaservers are told of the game, each at its own intervals. One
loop over the entries of the metaservers file shares a buffer for the packet and a flag that forces an
update.
-/
import Mathlib.Data.List.Chain
import NetrekServer.Lib.Run
import NetrekServer.Queue.Basic
import NetrekServer.Server

namespace Netrek.Solicit

open Lib
open Queue (PQueue quPickup quHome quAway quNewbiePlr)

/-! ## Data -/

/-- A slot of the player table, as far as it is reported. -/
structure Guest where
  player : Player
  login : String
  /-- `p_monitor`. -/
  monitor : String
  fullHostname : String
  ip : String
  /-- `ltd_ticks` of `LTD_TOTAL`. -/
  ticks : Nat
  deriving Inhabited

/-- `struct metaserver`, the items that come from the file. -/
structure Entry where
  minimum : Int
  maximum : Int
  ours : String
  type : Char
  pport : Int
  oport : Int
  comment : String
  deriving DecidableEq, Inhabited

/-- `struct metaserver`, with the socket as far as there is one, and our own data. -/
structure Metaserver extends Entry where
  attached : Bool
  sent : Int
  prior : String
  deriving DecidableEq, Inhabited

/-- What a call of `solicit` finds. -/
structure Moment where
  /-- `time(NULL)` at the start of the call, and after the packet of an entry. -/
  now : Int
  clock : Nat → Int
  now_le : ∀ i, now ≤ clock i
  inlMode : Bool
  newbieMode : Bool
  reportUsers : Bool
  /-- The server is built with `RSA`. -/
  rsa : Bool
  tourn : Bool
  /-- The host of robots, if `is_robot_by_host`. -/
  robotHost : Option String
  guests : Slot → Guest
  queues : Nat → PQueue
  /-- What is in the buffer before anything is written to it. -/
  stale : String
  /-- Whether the packet of an entry can be sent. -/
  reached : Nat → Bool

/-! ## Players -/

/-- `is_robot`. -/
def isRobot (w : Moment) (g : Guest) : Bool :=
  g.player.flags.has pfBpRobot || w.robotHost == some g.ip || g.player.flags.has pfRobot

/-- `is_local`: the first `localhost` of the host name is its end. -/
def isLocal (g : Guest) : Bool :=
  let host := g.fullHostname.toList
  decide (9 ≤ host.length) &&
    (List.range (host.length + 1)).find? (fun k => "localhost".toList.isPrefixOf (host.drop k)) == some (host.length - 9)

/-- The slots of a queue. -/
def slotsOf (w : Moment) (queue : Nat) : List Slot :=
  (List.finRange maxPlayer).filter fun i => decide ((w.queues queue).lowSlot ≤ i ∧ i.val < (w.queues queue).highSlot)

/-- `slots_free`. -/
def slotsFree (w : Moment) (queue : Nat) : Nat := (slotsOf w queue).countP fun i => (w.guests i).player.status == .pfree

/-- `slots_playing`. -/
def slotsPlaying (w : Moment) (queue : Nat) (showempty : Bool) : Nat :=
  (slotsOf w queue).countP fun i =>
    let p := (w.guests i).player
    p.status != .pfree && !isRobot w (w.guests i) && p.wQueue == queue && (p.team != allTeam || showempty)

/-- The captains of a league game. -/
def captains (w : Moment) : Nat :=
  (List.finRange maxPlayer).countP fun i => (w.guests i).player.inlCaptain && (w.guests i).player.status != .pfree

/-! ## Packets -/

/-- `name_fix`: characters are signed. -/
def nameFix (name : String) : String :=
  name.map fun c => if c.toNat ≤ 32 ∨ 128 ≤ c.toNat then '_' else c

def orUnknown (name : String) : String := if name = "" then "unknown" else name

/-- The lines about a player. -/
def guestLines (g : Guest) : String :=
  let p := g.player
  let number := p.mapchars.toList.getD 1 ' '
  let team := p.mapchars.toList.getD 0 ' '
  s!"{number}\n{team}\n{p.ship.type.ctorIdx}\n{p.rank}\n{orUnknown (nameFix p.name)}\n{orUnknown (nameFix g.login)}@{g.monitor}\n"

/-- The players that are reported. -/
def reported (w : Moment) : List Guest :=
  ((List.finRange maxPlayer).map w.guests).filter fun g => !(g.player.status == .pfree || isLocal g || g.ticks == 0)

/-- `strncasecmp` with a word in lower case, over its length. -/
def startsWith (s word : String) : Bool := (s.toList.take word.length).map Char.toLower == word.toList

/-- The queue that an entry reports. -/
def queueOf (w : Moment) (e : Entry) : Nat :=
  if w.newbieMode then quNewbiePlr
  else if w.inlMode && startsWith e.ours "home" then quHome
  else if w.inlMode && startsWith e.ours "away" then quAway
  else quPickup

def yesNo (b : Bool) : String := if b then "y" else "n"

/-- The packet that is built for an entry. -/
def packetFor (w : Moment) (e : Entry) : String :=
  let queue := queueOf w e
  let nfree := slotsFree w queue
  let nplayers := slotsPlaying w queue false
  let gamefull := nfree == 0 && decide ((slotsPlaying w queue true : Int) - nplayers < 4)
  let nfree : Int := if gamefull then -(w.queues queue).count else nfree
  let counts := if w.reportUsers then s!"{nplayers}\n{nfree}" else "0\n16"
  let full := if w.reportUsers then yesNo gamefull else "n"
  "b\n" ++ s!"{e.ours}\n{e.type}\n{e.pport}\n{e.oport}\n{counts}\n{yesNo w.tourn}\n{yesNo w.rsa}\n{full}\n{e.comment}\n" ++
    String.join ((reported w).map guestLines)

/-! ## `solicit` -/

/-- What the loop over the entries keeps: the buffer, whether a packet was made in it, and `force`. -/
structure Loop where
  packet : String
  made : Bool
  force : Bool

/-- The entry is for the kind of game that is played. -/
def fits (w : Moment) (m : Metaserver) : Bool := m.attached && w.inlMode == (m.type.toLower == 'i')

/-- In a league game nothing is reported of a side without players, except one last time. -/
def makePacket (w : Moment) (l : Loop) (m : Metaserver) : Option Loop :=
  if l.made then some l
  else if slotsPlaying w (queueOf w m.toEntry) false = 0 ∧ w.inlMode ∧ (l.packet = m.prior ∨ m.prior = "") then none
  else some { l with packet := packetFor w m.toEntry, made := true }

/-- In a league game the packet is made anew for every entry, as there are two ports. -/
def Loop.begin (w : Moment) (l : Loop) : Loop := if w.inlMode then { l with made := false } else l

/-- The packet is sent, unless nothing has changed. -/
def deliver (w : Moment) (i : Nat) (l : Loop) (m : Metaserver) : Loop × Metaserver × Option (Int × String) :=
  let l := if m.maximum < w.now - m.sent then { l with force := true } else l
  if !l.force && l.packet == m.prior then (l, m, none)
  else if w.reached i then (l, { m with sent := w.clock i, prior := l.packet }, some (w.clock i, l.packet))
  else (l, m, none)

/-- The entry `i`: what the loop keeps, the entry afterwards, and the packet if one is sent, with its time. -/
def visit (w : Moment) (i : Nat) (l : Loop) (m : Metaserver) : Loop × Metaserver × Option (Int × String) :=
  if !fits w m then (l, m, none)
  else if !l.force && decide (w.now - m.sent < m.minimum) then (l, m, none)
  else match makePacket w (l.begin w) m with
    | none => (l.begin w, m, none)
    | some l => deliver w i l m

/-- The loop, from the entry `i` on. -/
def update (w : Moment) : Nat → Loop → List Metaserver → List (Metaserver × Option (Int × String))
  | _, _, [] => []
  | i, l, m :: ms =>
    let (l, m, packet) := visit w i l m
    (m, packet) :: update w (i + 1) l ms

/-- `solicit`. A league game is not reported before both sides have captains. -/
def solicit (force : Bool) (w : Moment) (ms : List Metaserver) : List (Metaserver × Option (Int × String)) :=
  if w.inlMode && decide (captains w < 2) then ms.map fun m => (m, none)
  else update w 0 ⟨w.stale, false, force⟩ ms

/-! ## Calls -/

/-- A packet that was sent. -/
structure Sent where
  moment : Moment
  time : Int
  text : String

/-- An entry and the packets sent for it, the newest first. -/
structure Told where
  server : Metaserver
  history : List Sent

def Told.next (w : Moment) (t : Told) (r : Metaserver × Option (Int × String)) : Told where
  server := r.1
  history := (r.2.map fun p => ⟨w, p.1, p.2⟩).toList ++ t.history

/-- A call of `solicit(0)`. -/
def call (ts : List Told) (w : Moment) : List Told := List.zipWith (Told.next w) ts (solicit false w (ts.map (·.server)))

/-- Every packet is the entry's own, of the moment it was sent; no two are less than its minimum delay apart;
one like the one before was sent only after more than its maximum delay. -/
structure Informed (t : Told) : Prop where
  own : ∀ a ∈ t.history, a.text = packetFor a.moment t.server.toEntry
  apart : t.history.Pairwise fun b a => t.server.minimum ≤ b.time - a.time
  news : t.history.IsChain fun b a => b.text = a.text → t.server.maximum < b.time - a.time

/-! ## What an entry does to the ones after it -/

section Call

variable (w : Moment)

/-- The entry has not been told recently. -/
def Due (m : Metaserver) : Prop := m.minimum ≤ w.now - m.sent

/-- It has not been told for more than its maximum delay. -/
def Over (m : Metaserver) : Prop := m.maximum < w.now - m.sent

/-- A side of a league game without players, of which nothing was reported yet. -/
def Quiet (m : Metaserver) : Prop :=
  w.inlMode = true ∧ slotsPlaying w (queueOf w m.toEntry) false = 0 ∧ m.prior = ""

/-- What a packet says of the server. -/
def card (e : Entry) : String × Char × Int × Int × String := (e.ours, e.type, e.pport, e.oport, e.comment)

/-- The entry `m` comes after `a`, of which a packet is due. Outside league games they share a packet if that of
`m` is due or `a` is over its maximum delay; in this case `m` is told even what it knows, and at any time. -/
def Undisturbed (a m : Metaserver) : Prop :=
  fits w a = true → Due w a → fits w m = true →
    (w.inlMode = false → Due w m ∨ Over w a → card a.toEntry = card m.toEntry) ∧
    (Over w a → ¬ Quiet w a → m.prior ≠ "" → Due w m ∧ (Over w m ∨ packetFor w m.toEntry ≠ m.prior))

instance (m : Metaserver) : Decidable (Due w m) := inferInstanceAs (Decidable (_ ≤ _))
instance (m : Metaserver) : Decidable (Over w m) := inferInstanceAs (Decidable (_ < _))
instance (m : Metaserver) : Decidable (Quiet w m) := inferInstanceAs (Decidable (_ ∧ _))

instance (a m : Metaserver) : Decidable (Undisturbed w a m) :=
  haveI : Decidable (Due w m ∨ Over w a → card a.toEntry = card m.toEntry) := inferInstance
  haveI : Decidable (Over w a → ¬ Quiet w a → m.prior ≠ "" → Due w m ∧ (Over w m ∨ packetFor w m.toEntry ≠ m.prior)) :=
    inferInstance
  inferInstanceAs (Decidable (_ → _ → _ → _ ∧ _))

/-- The entry forces an update of the ones after it. -/
structure Forces (a : Metaserver) : Prop where
  fits : fits w a = true
  due : Due w a
  overdue : Over w a
  notQuiet : ¬ Quiet w a

/-- What the entries before have left in the loop. -/
structure Shares (pre : List Metaserver) (l : Loop) : Prop where
  made : w.inlMode = false → l.made = true → ∃ a ∈ pre, fits w a = true ∧ Due w a
  text : w.inlMode = false → ∀ a ∈ pre, fits w a = true → Due w a → l.made = true ∧ l.packet = packetFor w a.toEntry
  force : l.force = true → ∃ a ∈ pre, Forces w a

/-- What becomes of an entry: it stays as it is, or is sent its own packet when it may be. -/
inductive Served (m : Metaserver) : Metaserver × Option (Int × String) → Prop
  | silent : Served m (m, none)
  | sent (i : Nat) : (m.prior ≠ "" → Due w m) → (m.prior ≠ "" → packetFor w m.toEntry = m.prior → Over w m) →
      Served m ({ m with sent := w.clock i, prior := packetFor w m.toEntry }, some (w.clock i, packetFor w m.toEntry))

variable {w} {pre : List Metaserver} {l : Loop} {m : Metaserver}

theorem packetFor_card {a e : Entry} (h : card a = card e) : packetFor w a = packetFor w e := by
  obtain ⟨_, _, ours, type, pport, oport, comment⟩ := a
  obtain ⟨_, _, ours', type', pport', oport', comment'⟩ := e
  simp only [card, Prod.mk.injEq] at h
  obtain ⟨rfl, rfl, rfl, rfl, rfl⟩ := h
  rfl

/-- Where the packet is one that was made before, it is that of the entry as well. -/
theorem Shares.own (h : Shares w pre l) (hun : ∀ a ∈ pre, Undisturbed w a m) (hfits : fits w m = true)
    (hinl : w.inlMode = false) (hmade : l.made = true) (hturn : l.force = true ∨ Due w m) :
    l.packet = packetFor w m.toEntry := by
  rcases hturn with hforce | hdue
  · obtain ⟨a, ha, hf⟩ := h.force hforce
    rw [(h.text hinl a ha hf.fits hf.due).2]
    exact packetFor_card ((hun a ha hf.fits hf.due hfits).1 hinl (.inr hf.overdue))
  · obtain ⟨a, ha, hafits, hadue⟩ := h.made hinl hmade
    rw [(h.text hinl a ha hafits hadue).2]
    exact packetFor_card ((hun a ha hafits hadue hfits).1 hinl (.inl hdue))

/-- An entry of which no packet is due leaves the loop as it was. -/
theorem Shares.skip (h : Shares w pre l) (hskip : fits w m = true → ¬ Due w m) : Shares w (pre ++ [m]) l := by
  refine ⟨fun hinl hmade => ?_, fun hinl a ha hfits hdue => ?_, fun hforce => ?_⟩
  · obtain ⟨a, ha, hdue⟩ := h.made hinl hmade
    exact ⟨a, List.mem_append_left _ ha, hdue⟩
  · rcases List.mem_append.1 ha with ha | ha
    · exact h.text hinl a ha hfits hdue
    · rw [List.mem_singleton.1 ha] at hfits hdue
      exact absurd hdue (hskip hfits)
  · obtain ⟨a, ha, hf⟩ := h.force hforce
    exact ⟨a, List.mem_append_left _ ha, hf⟩

theorem begin_force (w : Moment) (l : Loop) : (l.begin w).force = l.force := by
  unfold Loop.begin
  split <;> rfl

/-- A packet that is made is the entry's own. -/
theorem makePacket_spec {l' : Loop} (h : Shares w pre l) (hun : ∀ a ∈ pre, Undisturbed w a m) (hfits : fits w m = true)
    (hturn : l.force = true ∨ Due w m) (hmake : makePacket w (l.begin w) m = some l') :
    l' = ⟨packetFor w m.toEntry, true, l.force⟩ ∧ ¬ Quiet w m ∧
      (w.inlMode = false → l.made = true → l.packet = packetFor w m.toEntry) := by
  have hforce := begin_force w l
  cases hinl : w.inlMode with
  | false =>
    have hbegin : l.begin w = l := by
      unfold Loop.begin
      rw [hinl]
      rfl
    have hown := h.own hun hfits hinl
    unfold makePacket at hmake
    rw [hbegin, hinl] at hmake
    refine ⟨?_, fun hq => absurd (hinl.symm.trans hq.1) Bool.false_ne_true, fun _ hmade => hown hmade hturn⟩
    cases hmade : l.made with
    | true =>
      rw [if_pos hmade] at hmake
      cases hmake
      rw [← hown hmade hturn, ← hmade]
    | false =>
      rw [if_neg (by simp [hmade]), if_neg fun h => by cases h.2.1] at hmake
      cases hmake
      rfl
  | true =>
    have hbegin : l.begin w = { l with made := false } := by
      unfold Loop.begin
      rw [hinl]
      rfl
    unfold makePacket at hmake
    rw [hbegin, if_neg Bool.false_ne_true] at hmake
    split at hmake
    · cases hmake
    · next hplay =>
      cases hmake
      exact ⟨rfl, fun hq => hplay ⟨hq.2.1, hinl, .inr hq.2.2⟩, nofun⟩

/-- A side of a league game that is not reported. -/
theorem Shares.unmade (h : Shares w pre l) (hmake : makePacket w (l.begin w) m = none) :
    Shares w (pre ++ [m]) (l.begin w) := by
  have hinl : w.inlMode = true := by
    unfold makePacket at hmake
    split at hmake
    · cases hmake
    · split at hmake
      · next hplay => exact hplay.2.1
      · cases hmake
  refine ⟨fun hno => ?_, fun hno => ?_, fun hforce => ?_⟩
  · rw [hinl] at hno
    cases hno
  · rw [hinl] at hno
    cases hno
  · obtain ⟨a, ha, hf⟩ := h.force (begin_force w l ▸ hforce)
    exact ⟨a, List.mem_append_left _ ha, hf⟩

/-- What the packet of an entry leaves in the loop. -/
theorem Shares.made_own (h : Shares w pre l) (hfits : fits w m = true) (hturn : l.force = true ∨ Due w m)
    (hquiet : ¬ Quiet w m) (hsame : w.inlMode = false → l.made = true → l.packet = packetFor w m.toEntry) :
    Shares w (pre ++ [m]) ⟨packetFor w m.toEntry, true, l.force || decide (Over w m)⟩ := by
  have hdue (hno : l.force ≠ true) : Due w m := hturn.resolve_left hno
  refine ⟨fun _ _ => ?_, fun hinl a ha hafits hadue => ⟨rfl, ?_⟩, fun hforce => ?_⟩
  · by_cases hforce : l.force = true
    · obtain ⟨a, ha, hf⟩ := h.force hforce
      exact ⟨a, List.mem_append_left _ ha, hf.fits, hf.due⟩
    · exact ⟨m, List.mem_append_right _ (List.mem_singleton_self m), hfits, hdue hforce⟩
  · rcases List.mem_append.1 ha with ha | ha
    · obtain ⟨hmade, htext⟩ := h.text hinl a ha hafits hadue
      rw [← htext, hsame hinl hmade]
    · rw [List.mem_singleton.1 ha]
  · by_cases hbefore : l.force = true
    · obtain ⟨a, ha, hf⟩ := h.force hbefore
      exact ⟨a, List.mem_append_left _ ha, hf⟩
    · rw [Bool.or_eq_true, decide_eq_true_eq] at hforce
      exact ⟨m, List.mem_append_right _ (List.mem_singleton_self m), hfits, hdue hbefore, hforce.resolve_left hbefore, hquiet⟩

/-- A metaserver whose turn it is is told, if no earlier one disturbs it. -/
theorem deliver_served (h : Shares w pre l) (hun : ∀ a ∈ pre, Undisturbed w a m) (hfits : fits w m = true)
    (hturn : l.force = true ∨ Due w m) (hquiet : ¬ Quiet w m)
    (hsame : w.inlMode = false → l.made = true → l.packet = packetFor w m.toEntry) (i : Nat) :
    Served w m (deliver w i ⟨packetFor w m.toEntry, true, l.force⟩ m).2 ∧
      Shares w (pre ++ [m]) (deliver w i ⟨packetFor w m.toEntry, true, l.force⟩ m).1 := by
  have hforce : (if m.maximum < w.now - m.sent then (⟨packetFor w m.toEntry, true, true⟩ : Loop)
      else ⟨packetFor w m.toEntry, true, l.force⟩) = ⟨packetFor w m.toEntry, true, l.force || decide (Over w m)⟩ := by
    by_cases hover : Over w m
    · rw [decide_eq_true hover, Bool.or_true]
      exact if_pos hover
    · rw [decide_eq_false hover, Bool.or_false]
      exact if_neg hover
  have hshares := h.made_own hfits hturn hquiet hsame
  unfold deliver
  dsimp only
  rw [hforce]
  split
  · exact ⟨.silent, hshares⟩
  · next hnews =>
    split
    · refine ⟨.sent i (fun htold => ?_) (fun htold heq => ?_), hshares⟩
      · by_cases hbefore : l.force = true
        · obtain ⟨a, ha, hf⟩ := h.force hbefore
          exact ((hun a ha hf.fits hf.due hfits).2 hf.overdue hf.notQuiet htold).1
        · exact hturn.resolve_left hbefore
      · by_cases hbefore : l.force = true
        · obtain ⟨a, ha, hf⟩ := h.force hbefore
          exact ((hun a ha hf.fits hf.due hfits).2 hf.overdue hf.notQuiet htold).2.resolve_right fun hne => hne heq
        · by_contra hover
          simp [hbefore, hover, heq] at hnews
    · exact ⟨.silent, hshares⟩

/-- One turn of the loop. -/
theorem visit_served (h : Shares w pre l) (hun : ∀ a ∈ pre, Undisturbed w a m) (i : Nat) :
    Served w m (visit w i l m).2 ∧ Shares w (pre ++ [m]) (visit w i l m).1 := by
  unfold visit
  by_cases hfits : fits w m = true
  · rw [if_neg (by simp [hfits])]
    by_cases hturn : l.force = true ∨ Due w m
    · rw [if_neg (by
        rw [Bool.and_eq_true, Bool.not_eq_true', decide_eq_true_eq]
        rintro ⟨hforce, hlt⟩
        rcases hturn with hturn | hdue
        · rw [hforce] at hturn
          cases hturn
        · exact absurd hlt (not_lt.2 hdue))]
      cases hmake : makePacket w (l.begin w) m with
      | none => exact ⟨.silent, h.unmade hmake⟩
      | some l' =>
        obtain ⟨rfl, hquiet, hsame⟩ := makePacket_spec h hun hfits hturn hmake
        exact deliver_served h hun hfits hturn hquiet hsame i
    · obtain ⟨hforce, hdue⟩ := not_or.1 hturn
      rw [if_pos (by
        rw [Bool.and_eq_true, Bool.not_eq_true', decide_eq_true_eq]
        exact ⟨Bool.not_eq_true _ ▸ hforce, not_le.1 hdue⟩)]
      exact ⟨.silent, h.skip fun _ => hdue⟩
  · rw [if_pos (by simp [hfits])]
    exact ⟨.silent, h.skip fun hf => absurd hf hfits⟩

/-- The entries a call goes through. -/
theorem update_served (w : Moment) (ms : List Metaserver) : ∀ (pre : List Metaserver) (i : Nat) (l : Loop), Shares w pre l →
    (∀ a ∈ pre, ∀ m ∈ ms, Undisturbed w a m) → ms.Pairwise (Undisturbed w) →
    List.Forall₂ (Served w) ms (update w i l ms) := by
  induction ms with
  | nil => exact fun _ _ _ _ _ _ => .nil
  | cons m ms ih =>
    intro pre i l h hpre hms
    obtain ⟨hm, hms⟩ := List.pairwise_cons.1 hms
    obtain ⟨hserved, hshares⟩ := visit_served h (fun a ha => hpre a ha m List.mem_cons_self) i
    refine .cons hserved (ih (pre ++ [m]) (i + 1) _ hshares ?_ hms)
    intro a ha m' hm'
    rcases List.mem_append.1 ha with ha | ha
    · exact hpre a ha m' (List.mem_cons_of_mem m hm')
    · rw [List.mem_singleton.1 ha]
      exact hm m' hm'

end Call

/-! ## Runs -/

/-- No entry disturbs one after it, unless the call does nothing. -/
def Spared (ts : List Told) (w : Moment) : Prop :=
  w.inlMode = true ∧ captains w < 2 ∨ (ts.map (·.server)).Pairwise (Undisturbed w)

/-- Every metaserver is served if none disturbs a later one, or if nobody is told yet. -/
theorem solicit_served {ms : List Metaserver} {w : Moment}
    (h : w.inlMode = true ∧ captains w < 2 ∨ ms.Pairwise (Undisturbed w)) :
    List.Forall₂ (Served w) ms (solicit false w ms) := by
  unfold solicit
  split
  · exact List.forall₂_map_right_iff.2 (List.forall₂_same.2 fun m _ => .silent)
  · next hcaptains =>
    have hms : ms.Pairwise (Undisturbed w) := by
      rcases h with h | h
      · exact absurd (by simpa using h) hcaptains
      · exact h
    have hstart : Shares w [] ⟨w.stale, false, false⟩ :=
      ⟨fun _ h => absurd h Bool.false_ne_true, fun _ _ h => absurd h List.not_mem_nil, fun h => absurd h Bool.false_ne_true⟩
    exact update_served w ms [] 0 _ hstart (fun _ h => absurd h List.not_mem_nil) hms

/-- What a run keeps of an entry. -/
structure Kept (t : Told) : Prop extends Informed t where
  fresh : t.history = [] → t.server.prior = ""
  last : ∀ a ∈ t.history.head?, t.server.sent = a.time ∧ t.server.prior = a.text ∧ a.text ≠ ""
  past : ∀ a ∈ t.history, a.time ≤ t.server.sent

theorem packetFor_ne_empty (w : Moment) (e : Entry) : packetFor w e ≠ "" := by
  unfold packetFor
  simp

/-- A call leaves an entry informed. -/
theorem Kept.next {t : Told} (h : Kept t) {w : Moment} (htime : ∀ a ∈ t.history, a.time ≤ w.now)
    {r : Metaserver × Option (Int × String)} (hserved : Served w t.server r) : Kept (t.next w r) := by
  cases hserved with
  | silent => exact h
  | sent i hdue hover =>
    have hclock := w.now_le i
    have htold (a : Sent) (ha : a ∈ t.history) : t.server.prior ≠ "" := by
      cases hhist : t.history with
      | nil =>
        rw [hhist] at ha
        cases ha
      | cons b l =>
        obtain ⟨-, hprior, hne⟩ := h.last b (by rw [hhist]; rfl)
        rw [hprior]
        exact hne
    refine ⟨⟨?_, ?_, ?_⟩, nofun, ?_, ?_⟩
    · rintro a (_ | ⟨_, ha⟩)
      · rfl
      · exact h.own a ha
    · refine List.pairwise_cons.2 ⟨fun a ha => ?_, h.apart⟩
      have hsent := h.past a ha
      have hdue := hdue (htold a ha)
      unfold Due at hdue
      show t.server.minimum ≤ w.clock i - a.time
      omega
    · refine List.isChain_cons.2 ⟨fun a ha heq => ?_, h.news⟩
      obtain ⟨hsent, hprior, -⟩ := h.last a ha
      have hover := hover (htold a (List.mem_of_mem_head? ha)) (heq.trans hprior.symm)
      unfold Over at hover
      show t.server.maximum < w.clock i - a.time
      omega
    · rintro a ⟨⟩
      exact ⟨rfl, rfl, packetFor_ne_empty w t.server.toEntry⟩
    · rintro a (_ | ⟨_, ha⟩)
      · exact le_rfl
      · exact (htime a ha).trans hclock

/-- A call serves every entry. -/
theorem call_served {ts : List Told} {w : Moment} (h : Spared ts w) :
    List.Forall₂ (fun t t' => ∃ r, Served w t.server r ∧ t' = t.next w r) ts (call ts w) := by
  have hserved := List.forall₂_map_left_iff.1 (solicit_served h)
  unfold call
  generalize solicit false w (ts.map (·.server)) = rs at hserved
  induction hserved with
  | nil => exact .nil
  | cons hr _ ih => exact .cons ⟨_, hr, rfl⟩ (ih (h.imp_right fun h => (List.pairwise_cons.1 h).2))

/-- The entry of the file, kept before some calls. -/
structure KeptFor (ws : List Moment) (m : Metaserver) (t : Told) : Prop where
  kept : Kept t
  entry : t.server.toEntry = m.toEntry
  before : ∀ a ∈ t.history, ∀ w ∈ ws, a.time ≤ w.now

theorem KeptFor.next {w : Moment} {ws : List Moment} {m : Metaserver} {t : Told} (h : KeptFor (w :: ws) m t)
    (hlater : ∀ w' ∈ ws, ∀ i, w.clock i ≤ w'.now) {r : Metaserver × Option (Int × String)}
    (hserved : Served w t.server r) : KeptFor ws m (t.next w r) := by
  refine ⟨h.kept.next (fun a ha => h.before a ha w List.mem_cons_self) hserved, ?_, ?_⟩
  · cases hserved <;> exact h.entry
  · intro a ha w' hw'
    cases hserved with
    | silent => exact h.before a ha w' (List.mem_cons_of_mem w hw')
    | sent i _ _ =>
      rcases ha with _ | ⟨_, ha⟩
      · exact hlater w' hw' i
      · exact h.before a ha w' (List.mem_cons_of_mem w hw')

/-- The histories of the entries go on, in the order of the file. -/
theorem keptFor_run {ms : List Metaserver} : ∀ {ws : List Moment} {ts ts' : List Told}, Run Spared call ts ws ts' →
    (ws.Pairwise fun a b => ∀ i, a.clock i ≤ b.now) → List.Forall₂ (KeptFor ws) ms ts → List.Forall₂ (KeptFor []) ms ts'
  | _, _, _, .nil _, _, h => h
  | w :: ws, ts, _, .cons hspared hrun, htimes, h => by
    obtain ⟨hlater, htimes⟩ := List.pairwise_cons.1 htimes
    refine keptFor_run hrun htimes ?_
    have hcall := call_served hspared
    clear hrun hspared
    generalize call ts w = ts' at hcall
    induction h generalizing ts' with
    | nil =>
      cases hcall
      exact .nil
    | cons hm _ ih =>
      cases hcall with
      | cons hr hcall =>
        obtain ⟨r, hserved, rfl⟩ := hr
        exact .cons (hm.next hlater hserved) (ih _ hcall)

/-- In any run of calls at which no entry disturbs one after it, every entry of the file is told what it should be,
and no more often. -/
theorem told_in_every_run (ms : List Metaserver) (ws : List Moment) (ts : List Told) (hfresh : ∀ m ∈ ms, m.prior = "")
    (htimes : ws.Pairwise fun a b => ∀ i, a.clock i ≤ b.now)
    (hrun : Run (fun ts w => w.inlMode = true ∧ captains w < 2 ∨ (ts.map (·.server)).Pairwise (Undisturbed w)) call
      (ms.map (⟨·, []⟩)) ws ts) :
    List.Forall₂ (fun m t => t.server.toEntry = m.toEntry ∧ Informed t) ms ts := by
  have hkept : List.Forall₂ (KeptFor ws) ms (ms.map (⟨·, []⟩)) := by
    refine List.forall₂_map_right_iff.2 (List.forall₂_same.2 fun m hm => ?_)
    have hnone (a : Sent) : a ∉ (Told.mk m []).history := List.not_mem_nil
    have hinformed : Informed ⟨m, []⟩ := ⟨fun a ha => absurd ha (hnone a), .nil, .nil⟩
    have hkept : Kept ⟨m, []⟩ :=
      ⟨hinformed, fun _ => hfresh m hm, fun a ha => absurd (List.mem_of_mem_head? ha) (hnone a), fun a ha => absurd ha (hnone a)⟩
    exact ⟨hkept, rfl, fun a ha => absurd ha (hnone a)⟩
  exact (keptFor_run hrun htimes hkept).imp fun m t h => ⟨h.entry, h.kept.toInformed⟩

/-! ## Two metaservers -/

/-- Nobody plays; every packet is sent at once. -/
def emptyGame (now : Int) : Moment where
  now := now
  clock _ := now
  now_le _ := le_rfl
  inlMode := false
  newbieMode := false
  reportUsers := true
  rsa := false
  tourn := false
  robotHost := none
  guests := default
  queues := default
  stale := ""
  reached _ := true

def pickupEntry (ours : String) (minimum maximum : Int) : Metaserver :=
  { minimum := minimum, maximum := maximum, ours := ours, type := 'B', pport := 2592, oport := 2593, comment := "open",
    attached := true, sent := 0, prior := "" }

theorem told_in_two_calls :
    let ms := [pickupEntry "a" 60 900, pickupEntry "a" 60 900]
    List.Forall₂ (fun m t => t.server.toEntry = m.toEntry ∧ Informed t) ms
      ([emptyGame 1000, emptyGame 1010].foldl call (ms.map (⟨·, []⟩))) := by
  refine told_in_every_run _ _ _ ?_ ?_ (.cons (.inr ?_) (.cons (.inr ?_) (.nil _)))
  · decide
  · simp [emptyGame]
  · decide +kernel
  · decide +kernel

/-- The second entry is sent the packet of the first; and one told 101 seconds ago, which is not to be told for 200,
is told the same again, as the first is over its maximum delay of 100 seconds. -/
theorem metaserver_misinformed :
    (∃ t ∈ [emptyGame 1000].foldl call ([pickupEntry "a" 60 900, pickupEntry "b" 60 900].map (⟨·, []⟩)), ¬ Informed t) ∧
      ∃ t ∈ [emptyGame 1000, emptyGame 1101].foldl call ([pickupEntry "a" 60 100, pickupEntry "a" 200 900].map (⟨·, []⟩)),
        ¬ Informed t := by
  have hforeign : ∃ t ∈ [emptyGame 1000].foldl call ([pickupEntry "a" 60 900, pickupEntry "b" 60 900].map (⟨·, []⟩)),
      ¬ ∀ a ∈ t.history, a.text = packetFor a.moment t.server.toEntry := by decide +kernel
  have hearly : ∃ t ∈ [emptyGame 1000, emptyGame 1101].foldl call
        ([pickupEntry "a" 60 100, pickupEntry "a" 200 900].map (⟨·, []⟩)),
      ¬ t.history.Pairwise fun b a => t.server.minimum ≤ b.time - a.time := by decide +kernel
  obtain ⟨t, ht, hno⟩ := hforeign
  obtain ⟨t', ht', hno'⟩ := hearly
  exact ⟨⟨t, ht, fun h => hno h.own⟩, t', ht', fun h => hno' h.apart⟩

end Netrek.Solicit
