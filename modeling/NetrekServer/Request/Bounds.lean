/-
Which requests read a table outside its bounds, or divide by zero: exactly the ones a check of the
wrong bound, or no check, lets through.
-/
import NetrekServer.Request.Interface
import NetrekServer.Request.Message
import NetrekServer.Request.Ping

namespace Netrek.Request

/-! ## Requests -/

/-- The requests that name a player, a planet or a rate, with what the client sends; `tractor_player`
and `pressor_player` are given a player number. -/
inductive ClientRequest
  | plan (p : PlanetCPacket)
  | updates (usecs : UInt32)
  | planlock (pnum : Int8)
  | playlock (pnum : Int8)
  | tractor (state pnum : Int8)
  | repress (state pnum : Int8)
  | tractorPlayer (player : Int)
  | pressorPlayer (player : Int)
  | message (now : Int) (p : MesgCPacket)
  | smessage (now : Int) (p : MesgSCPacket)
  | pingResponse (onTcp : Bool) (now : Int) (p : PingCPacket)

def handle (w : World) : ClientRequest → Except Fault World
  | .plan p => handlePlanReq w p
  | .updates usecs => handleUpdatesReq w usecs
  | .planlock pnum => handlePlanlockReq w pnum
  | .playlock pnum => handlePlaylockReq w pnum
  | .tractor state pnum => handleTractorReq w state pnum
  | .repress state pnum => handleRepressReq w state pnum
  | .tractorPlayer player => tractorPlayer w player
  | .pressorPlayer player => pressorPlayer w player
  | .message now p => handleMessageReq w now p
  | .smessage now p => handleSMessageReq w now p
  | .pingResponse onTcp now p => handlePingResponse w onTcp now p

/-- An ignore command for a player number there is no slot for, from a client that may speak. -/
def StrayIgnore (w : World) (now : Int) (p : MesgCPacket) : Prop :=
  silenced w p = false ∧ carriedAway w now = false ∧ (cString (p.mesg.take (msgLen - 11))).head? = some ':' ∧
    p.groupWord = mIndiv ∧ maxPlayer ≤ p.indiv.toNat

/-- An answer in time whose count of packets sent is the count of dropped ones. -/
def StrayPing (s : Pings) (now : Int) (p : PingCPacket) : Prop :=
  s.isNew p = true ∧ 0 ≤ now - (s.sent (pith p.number)).time ∧ now - (s.sent (pith p.number)).time ≤ 10000 ∧
    s.packetsReceived ≠ 0 ∧ (s.sent (pith p.number)).packetsSentAtPing ≠ 0 ∧
    p.cpSent.toInt32 - s.packetsReceived < s.oldCtoSDropped ∧ p.cpSent.toInt32 = s.oldCtoSDropped

/-- The requests that pass the checks of their handlers and should not: a number equal to the size
of the table, a rate of zero, an ignore command for a player there is no slot for, and an answer to a
ping that leaves no packets received. -/
def Stray (w : World) : ClientRequest → Prop
  | .plan p => w.proc.checkPlanets = true ∧ p.pnum.toInt = maxPlanets
  | .updates usecs => usecs = 0
  | .playlock pnum => w.me.inlDraft ≠ .off ∧ pnum.toInt = maxPlayer
  | .tractorPlayer player => w.proc.tractorAllowed = true ∧ w.me.flags.has pfCloak = false ∧ player = maxPlayer
  | .pressorPlayer player =>
    w.proc.tractorAllowed = true ∧ w.me.flags.has pfPress = false ∧ w.me.flags.has pfCloak = false ∧ player = maxPlayer
  | .message now p => StrayIgnore w now p
  | .smessage now p => StrayIgnore w now ⟨p.group, p.indiv, p.mesg.take (min (p.length.toNat - 4) (msgLen - 1))⟩
  | .pingResponse _ now p => StrayPing w.proc.pings now p
  | _ => False

/-! ## Results without a fault -/

/-- The handler returns. -/
def Returns {α : Type} (x : Except Fault α) : Prop := ∃ a, x = .ok a

theorem returns_ok {α : Type} (a : α) : Returns (.ok a) := ⟨a, rfl⟩

theorem not_returns_error {α : Type} (e : Fault) : ¬ Returns (.error e : Except Fault α) := fun ⟨_, h⟩ => by cases h

theorem returns_map {α β : Type} (x : Except Fault α) (f : α → β) : Returns (x.map f) ↔ Returns x := by
  cases x with
  | error e => simp [Returns, Except.map]
  | ok a => simp [Returns, Except.map]

theorem returns_bind {α β : Type} (x : Except Fault α) (f : α → Except Fault β) :
    Returns (x.bind f) ↔ ∃ a, x = .ok a ∧ Returns (f a) := by
  cases x with
  | error e => simp [Returns, Except.bind]
  | ok a => simp [Returns, Except.bind]

/-- What follows always returns. -/
theorem returns_bind_total {α β : Type} (x : Except Fault α) (f : α → Except Fault β) (hf : ∀ a, Returns (f a)) :
    Returns (x.bind f) ↔ Returns x := by
  rw [returns_bind]
  constructor
  · rintro ⟨a, h, -⟩
    exact ⟨a, h⟩
  · rintro ⟨a, h⟩
    exact ⟨a, h, hf a⟩

theorem returns_playerAt (i : Int) : Returns (playerAt i) ↔ 0 ≤ i ∧ i < maxPlayer := by
  unfold playerAt
  split
  · exact iff_of_true (returns_ok _) ‹_›
  · exact iff_of_false (not_returns_error _) ‹_›

theorem returns_planetAt (i : Int) : Returns (planetAt i) ↔ 0 ≤ i ∧ i < maxPlanets := by
  unfold planetAt
  split
  · exact iff_of_true (returns_ok _) ‹_›
  · exact iff_of_false (not_returns_error _) ‹_›

theorem returns_ignoredAt (i : Int) : Returns (ignoredAt i) ↔ 0 ≤ i ∧ i < maxPlayer := by
  unfold ignoredAt
  split
  · exact iff_of_true (returns_ok _) ‹_›
  · exact iff_of_false (not_returns_error _) ‹_›

theorem returns_divide (a b : Nat) : Returns (divide a b) ↔ b ≠ 0 := by
  unfold divide
  split
  · exact iff_of_false (not_returns_error _) (not_not_intro ‹_›)
  · exact iff_of_true (returns_ok _) ‹_›

/-! ## The handlers -/

theorem returns_inlDraftSelect (w : World) (n : Int) : Returns (inlDraftSelect w n) ↔ n ≠ maxPlayer := by
  unfold inlDraftSelect
  by_cases h : n < 0 ∨ (maxPlayer : Int) < n
  · rw [if_pos h]
    exact iff_of_true (returns_ok _) (by omega)
  · rw [if_neg h, returns_map, returns_playerAt]
    omega

theorem returns_inlDraftReject (w : World) (n : Int) : Returns (inlDraftReject w n) ↔ n ≠ maxPlayer := by
  unfold inlDraftReject
  by_cases h : n < 0 ∨ (maxPlayer : Int) < n
  · rw [if_pos h]
    exact iff_of_true (returns_ok _) (by omega)
  · rw [if_neg h, returns_map, returns_playerAt]
    omega

theorem returns_lockPlanet (w : World) (n : Int) : Returns (lockPlanet w n) := by
  unfold lockPlanet
  by_cases hd : w.me.inlDraft ≠ .off
  · rw [if_pos hd]; exact returns_ok _
  rw [if_neg hd]
  by_cases hn : n < 0 ∨ (maxPlanets : Int) ≤ n
  · rw [if_pos hn]; exact returns_ok _
  rw [if_neg hn]
  split
  · exact returns_ok _
  · rw [returns_map, returns_planetAt]; omega

theorem returns_lockPlayer (w : World) (n : Int) :
    Returns (lockPlayer w n) ↔ ¬ (w.me.inlDraft ≠ .off ∧ n = maxPlayer) := by
  unfold lockPlayer
  by_cases hd : w.me.inlDraft ≠ .off
  · rw [if_pos hd, returns_inlDraftSelect]
    simp [hd]
  rw [if_neg hd]
  refine iff_of_true ?_ fun h => hd h.1
  by_cases hn : n < 0 ∨ (maxPlayer : Int) ≤ n
  · rw [if_pos hn]; exact returns_ok _
  · rw [if_neg hn, returns_map, returns_playerAt]; omega

/-- `tractor_player` reads `players[32]` if it is asked to. -/
theorem returns_tractorPlayer (w : World) (n : Int) :
    Returns (tractorPlayer w n) ↔
      ¬ (w.proc.tractorAllowed = true ∧ w.me.flags.has pfCloak = false ∧ n = maxPlayer) := by
  unfold tractorPlayer
  have hme := w.proc.me.isLt
  split
  · rename_i ha
    exact iff_of_true (returns_ok _) fun h => by simp [h.1] at ha
  split
  · exact iff_of_true (returns_ok _) fun h => by omega
  split
  · rename_i hc
    exact iff_of_true (returns_ok _) fun h => by simp [h.2.1] at hc
  split
  · exact iff_of_true (returns_ok _) fun h => by omega
  · rw [returns_map, returns_playerAt]
    simp_all only [Bool.not_eq_true, Bool.not_eq_false', true_and, not_or, not_lt]
    omega

/-- So does `pressor_player`. -/
theorem returns_pressorPlayer (w : World) (n : Int) :
    Returns (pressorPlayer w n) ↔
      ¬ (w.proc.tractorAllowed = true ∧ w.me.flags.has pfPress = false ∧ w.me.flags.has pfCloak = false ∧
        n = maxPlayer) := by
  unfold pressorPlayer
  split
  · rename_i ha
    exact iff_of_true (returns_ok _) fun h => by simp [h.1] at ha
  split
  · exact iff_of_true (returns_ok _) fun h => by omega
  split
  · rename_i hp
    exact iff_of_true (returns_ok _) fun h => by simp [h.2.1] at hp
  split
  · rename_i hc
    exact iff_of_true (returns_ok _) fun h => by simp [h.2.2.1] at hc
  · rw [returns_map, returns_playerAt]
    simp_all only [Bool.not_eq_true, Bool.not_eq_false', true_and, not_or, not_lt]
    omega

/-- The requests for a beam check their target. -/
theorem returns_handleBeamReq (w : World) (state pnum : Int) {draft : World → Int → Except Fault World} (on : Word)
    (hdraft : ∀ w n, Returns (draft w n) ↔ n ≠ maxPlayer) : Returns (handleBeamReq w state pnum draft on) := by
  unfold handleBeamReq
  split
  · exact returns_ok _
  split
  · exact returns_ok _
  split
  · exact returns_ok _
  split
  · exact returns_ok _
  · rename_i hn
    split
    · rw [hdraft]; omega
    · rw [returns_map, returns_playerAt]; omega

theorem returns_handlePlanReq (w : World) (p : PlanetCPacket) :
    Returns (handlePlanReq w p) ↔ ¬ (w.proc.checkPlanets = true ∧ p.pnum.toInt = maxPlanets) := by
  unfold handlePlanReq
  split
  · rename_i hc
    exact iff_of_true (returns_ok _) fun h => by simp [h.1] at hc
  · rename_i hc
    split
    · exact iff_of_true (returns_ok _) fun h => by omega
    · rw [returns_map, returns_planetAt]
      simp only [Bool.not_eq_true, Bool.not_eq_false'] at hc
      simp only [hc, true_and]
      omega

/-- A rate within the limits is positive and at most the frame rate. -/
theorem clampUps_pos_le (r : Rates) (ups : Nat) : 0 < clampUps r ups ∧ clampUps r ups ≤ r.fps := by
  have h1 := r.minups_pos
  have h2 := r.maxups_pos
  have h3 := r.fps_pos
  unfold clampUps
  simp only
  split <;> split <;> split <;> omega

theorem returns_pUpsSet (w : World) (ups : Nat) : Returns (pUpsSet w ups) := by
  obtain ⟨h1, h2⟩ := clampUps_pos_le w.proc.rates ups
  unfold pUpsSet
  rw [returns_bind]
  obtain ⟨fpu, hfpu⟩ := (returns_divide w.proc.rates.fps (clampUps w.proc.rates ups)).2 (by omega)
  refine ⟨fpu, hfpu, ?_⟩
  have hpos : 0 < fpu := by
    unfold divide at hfpu
    rw [if_neg (by omega)] at hfpu
    cases hfpu
    exact Nat.div_pos h2 h1
  rw [returns_map, returns_divide]
  omega

theorem returns_handleUpdatesReq (w : World) (usecs : UInt32) : Returns (handleUpdatesReq w usecs) ↔ ¬ usecs = 0 := by
  unfold handleUpdatesReq
  rw [returns_bind_total, returns_divide, Ne, ← UInt32.toNat_inj]
  · rfl
  · intro ups
    rw [returns_map]
    exact returns_pUpsSet w ups

/-! ## Messages -/

/-- The recipient of a message is looked up within bounds. -/
theorem returns_addressMessage (w : World) (p : MesgCPacket) (group macroBit : Word) :
    Returns (addressMessage w p group macroBit) := by
  unfold addressMessage
  simp only
  split
  · exact returns_ok _
  split
  · split <;> exact returns_ok _
  split
  · split
    · exact returns_ok _
    · rename_i hn
      obtain ⟨i, hi⟩ := (returns_playerAt p.indiv.toNat).2 (by omega)
      rw [returns_bind]
      refine ⟨i, hi, ?_⟩
      split
      · exact returns_ok _
      · rw [returns_map, returns_ignoredAt]; omega
  split
  · exact returns_ok _
  split <;> exact returns_ok _

/-- Of the ignore commands, one for a player without a slot. -/
theorem returns_parseIgnore (w : World) (p : MesgCPacket) :
    Returns (parseIgnore w p) ↔
      ¬ ((cString p.mesg).head? = some ':' ∧ p.groupWord = mIndiv ∧ maxPlayer ≤ p.indiv.toNat) := by
  have hme := w.proc.me.isLt
  unfold parseIgnore
  simp only
  -- neither a switch nor a question: an ordinary message
  by_cases hcmd : (cString p.mesg).head? ≠ some ':' ∧ cString p.mesg ≠ "     ".toList
  · rw [if_pos hcmd]
    exact iff_of_true (returns_ok _) fun h => hcmd.1 h.1
  rw [if_neg hcmd]
  split
  · split <;> exact iff_of_true (returns_ok _) fun h => by omega
  split
  · split <;> exact iff_of_true (returns_ok _) fun h => by omega
  -- about oneself, or a question: the index is not used
  by_cases hself : p.indiv.toNat = w.proc.me.val ∨ (cString p.mesg).head? = some ' '
  · rw [if_pos hself]
    refine iff_of_true (returns_ok _) ?_
    rintro ⟨hc, -, hn⟩
    rcases hself with h | h
    · omega
    · rw [hc] at h; exact absurd h (by decide)
  rw [if_neg hself]
  have hc : (cString p.mesg).head? = some ':' := by
    by_contra h
    refine hself (Or.inr ?_)
    rw [not_not.1 fun hs => hcmd ⟨h, hs⟩]
    rfl
  -- to a team or to all: it is not used either
  by_cases hg : p.groupWord ≠ mIndiv
  · rw [if_pos hg]
    exact iff_of_true (returns_ok _) fun h => hg h.2.1
  rw [if_neg hg, returns_bind]
  -- what is left reads `ignored` at the number sent
  constructor
  · rintro ⟨i, hi, -⟩ ⟨-, -, hn⟩
    have := (returns_ignoredAt p.indiv.toNat).1 ⟨i, hi⟩
    omega
  · intro h
    have hn : p.indiv.toNat < maxPlayer := by
      by_contra hn
      exact h ⟨hc, not_not.1 hg, by omega⟩
    obtain ⟨i, hi⟩ := (returns_ignoredAt p.indiv.toNat).2 (by omega)
    refine ⟨i, hi, ?_⟩
    rw [returns_map, returns_playerAt]
    omega

/-- A message returns unless it is an ignore command for a player there is no slot for. -/
theorem returns_handleMessageReq (w : World) (now : Int) (p : MesgCPacket) :
    Returns (handleMessageReq w now p) ↔ ¬ StrayIgnore w now p := by
  unfold handleMessageReq StrayIgnore
  by_cases hs : silenced w p = true
  · rw [if_pos hs]
    exact iff_of_true (returns_ok _) fun h => by simp [h.1] at hs
  rw [if_neg hs]
  simp only
  by_cases hb : carriedAway w now = true
  · rw [if_pos hb]
    exact iff_of_true (returns_ok _) fun h => by simp [h.2.1] at hb
  rw [if_neg hb]
  generalize w.modifyProc _ = w'
  rw [returns_bind_total, returns_parseIgnore]
  swap
  · rintro ⟨w'', eaten⟩
    simp only
    split
    · exact returns_ok _
    · exact returns_addressMessage _ _ _ _
  simp only [Bool.not_eq_true] at hs hb
  simp only [hs, hb, true_and]
  rfl
/-! ## Pings -/

theorem returns_divisor (b : Int) : Returns (divisor b) ↔ b ≠ 0 := by
  unfold divisor
  split
  · exact iff_of_false (not_returns_error _) (not_not_intro ‹_›)
  · exact iff_of_true (returns_ok _) ‹_›

theorem returns_updateLagStats (s : Pings) (me : Player) : Returns (s.updateLagStats me) := by
  unfold Pings.updateLagStats
  simp only
  split
  · exact returns_ok _
  · rw [returns_bind]
    obtain ⟨n, hn⟩ := (returns_divisor (s.n + 1 : Nat)).2 (by omega)
    refine ⟨n, hn, ?_⟩
    rw [returns_map, returns_divisor]
    omega

/-- The losses of an interval are computed without a fault. -/
theorem returns_calcIncrements (s : Pings) (i : Fin pingSlots) : Returns (s.calcIncrements i) := by
  unfold Pings.calcIncrements
  simp only
  split
  · exact returns_ok _
  · rename_i h
    rw [not_or] at h
    obtain ⟨a, ha⟩ := (returns_divisor _).2 fun h0 => h.1 (Int32.toInt_inj.1 h0)
    obtain ⟨b, hb⟩ := (returns_divisor _).2 fun h0 => h.2 (Int32.toInt_inj.1 h0)
    rw [returns_bind]
    refine ⟨a, ha, ?_⟩
    rw [returns_bind]
    refine ⟨b, hb, ?_⟩
    rw [returns_map, returns_divisor]
    exact Int.natCast_ne_zero.2 s.ilossInterval.ne_zero

/-- Taking away the extra packets leaves the client's own count less the old count of dropped ones. -/
theorem received_sub (received old sent : Int32) : received - (old - (sent - received)) = 0 ↔ sent = old := by
  grind

/-- The counts of a response that leave no packets received. -/
theorem returns_calcTotals (s : Pings) (i : Fin pingSlots) (p : PingCPacket)
    (hsent : (s.sent i).packetsSentAtPing ≠ 0) (hrecv : s.packetsReceived ≠ 0) :
    Returns (s.calcTotals i p) ↔
      ¬ (p.cpSent.toInt32 - s.packetsReceived < s.oldCtoSDropped ∧ p.cpSent.toInt32 = s.oldCtoSDropped) := by
  unfold Pings.calcTotals
  simp only
  obtain ⟨d, hd⟩ := (returns_divisor _).2 hsent
  rw [returns_bind]
  have hmap : ∀ {β : Type} (r : Int32) (f : Int → β), Returns ((divisor r.toInt).map f) ↔ r ≠ 0 := by
    intro β r f
    rw [returns_map, returns_divisor]
    exact not_congr (Int32.toInt_inj (y := 0))
  constructor
  · rintro ⟨d', -, h⟩ ⟨hlt, heq⟩
    rw [hmap, if_pos hlt] at h
    exact h ((received_sub _ _ _).2 heq)
  · intro h
    refine ⟨d, hd, ?_⟩
    rw [hmap]
    split
    · rename_i hlt
      exact fun h0 => h ⟨hlt, (received_sub _ _ _).1 h0⟩
    · exact hrecv

theorem returns_calcLoss (s : Pings) (i : Fin pingSlots) (p : PingCPacket)
    (hsent : (s.sent i).packetsSentAtPing ≠ 0) (hrecv : s.packetsReceived ≠ 0) :
    Returns (s.calcLoss i p) ↔
      ¬ (p.cpSent.toInt32 - s.packetsReceived < s.oldCtoSDropped ∧ p.cpSent.toInt32 = s.oldCtoSDropped) := by
  unfold Pings.calcLoss
  simp only
  rw [returns_bind_total _ _ fun s' => returns_calcIncrements s' i]
  exact returns_calcTotals _ i p hsent hrecv

/-- The statistics of the round trips leave the counts as they are. -/
theorem updateLagStats_counts {s s' : Pings} {me me' : Player} (h : s.updateLagStats me = .ok (s', me')) :
    s'.sent = s.sent ∧ s'.packetsReceived = s.packetsReceived ∧ s'.oldCtoSDropped = s.oldCtoSDropped := by
  unfold Pings.updateLagStats divisor at h
  simp only at h
  split at h
  · cases h
    exact ⟨rfl, rfl, rfl⟩
  · rw [if_neg (by omega), if_neg (by omega)] at h
    simp only [Except.bind, Except.map] at h
    split at h <;> (cases h; exact ⟨rfl, rfl, rfl⟩)

/-- A response to a ping returns unless it leaves no packets to divide by. -/
theorem returns_pingResponse (s : Pings) (me : Player) (now : Int) (p : PingCPacket) :
    Returns (s.pingResponse me now p) ↔ ¬ StrayPing s now p := by
  unfold Pings.pingResponse StrayPing
  -- a ping that is not asked for is dropped
  by_cases hp : (!s.ping || p.pingme != 1) = true
  · rw [if_pos hp]
    refine iff_of_true (returns_ok _) fun h => ?_
    have hn := h.1
    simp only [Pings.isNew, Bool.and_eq_true, beq_iff_eq] at hn
    simp [hn.1.1.1, hn.1.1.2] at hp
  rw [if_neg hp]
  simp only
  have hnew : Pings.isNew { s with ghostbust := 0 } p = s.isNew p := rfl
  rw [hnew]
  by_cases hn : s.isNew p = true
  swap
  -- so is one that is not new
  · rw [if_pos (by simpa using hn)]
    exact iff_of_true (returns_ok _) fun h => hn h.1
  rw [if_neg (by simpa using hn)]
  generalize hs : Pings.roundTrip { s with ghostbust := 0 } now p = s1
  have hlag : s1.lag = now - (s.sent (pith p.number)).time := by rw [← hs]; rfl
  have hsent : (s1.sent (pith p.number)).packetsSentAtPing = (s.sent (pith p.number)).packetsSentAtPing := by
    rw [← hs]; simp [Pings.roundTrip]
  have hrecv : s1.packetsReceived = s.packetsReceived := by rw [← hs]; rfl
  have hold : s1.oldCtoSDropped = s.oldCtoSDropped := by rw [← hs]; rfl
  by_cases hl : 10000 < s1.lag ∨ s1.lag < 0
  -- a round trip out of range is not counted
  · rw [if_pos hl]
    exact iff_of_true (returns_ok _) fun h => by omega
  rw [if_neg hl, returns_bind]
  -- the lag statistics do not touch the counts that the loss is made of
  obtain ⟨⟨s2, me2⟩, h2⟩ := returns_updateLagStats s1 me
  obtain ⟨hsent2, hrecv2, hold2⟩ := updateLagStats_counts h2
  have hone : ∀ f : Pings × Player → Except Fault (Pings × Player),
      (∃ a, s1.updateLagStats me = .ok a ∧ Returns (f a)) ↔ Returns (f (s2, me2)) := by
    intro f
    rw [h2]
    exact ⟨fun ⟨a, ha, h⟩ => by cases ha; exact h, fun h => ⟨_, rfl, h⟩⟩
  rw [hone]
  simp only [hrecv2, hsent2, hsent, hrecv]
  -- a count of zero is caught before the division
  by_cases hz : s.packetsReceived = 0 ∨ (s.sent (pith p.number)).packetsSentAtPing = 0
  · rw [if_pos hz]
    refine iff_of_true (returns_ok _) fun h => ?_
    exact hz.elim h.2.2.2.1 h.2.2.2.2.1
  rw [if_neg hz, returns_map]
  rw [not_or] at hz
  rw [returns_calcLoss s2 _ p (by rw [hsent2, hsent]; exact hz.2) (by rw [hrecv2, hrecv]; exact hz.1),
    hrecv2, hrecv, hold2, hold]
  rw [hlag] at hl
  constructor
  · rintro h ⟨-, -, -, -, -, h'⟩
    exact h h'
  · intro h h'
    exact h ⟨hn, by omega, by omega, hz.1, hz.2, h'⟩

/-- The handler of `CP_PING_RESPONSE` adds no fault of its own. -/
theorem returns_handlePingResponse (w : World) (onTcp : Bool) (now : Int) (p : PingCPacket) :
    Returns (handlePingResponse w onTcp now p) ↔ ¬ StrayPing w.proc.pings now p := by
  have hstray : StrayPing w.proc.pings now p → w.proc.pings.ping = true ∧ p.pingme = 1 := by
    intro h
    have hn := h.1
    simp only [Pings.isNew, Bool.and_eq_true, beq_iff_eq] at hn
    exact hn.1.1
  unfold handlePingResponse
  simp only
  split
  · rename_i h
    refine iff_of_true (returns_ok _) fun hs => ?_
    simp [(hstray hs).1] at h
  split
  · rename_i h
    refine iff_of_true (returns_ok _) fun hs => ?_
    simp [(hstray hs).2] at h
  · rw [returns_map, returns_pingResponse]

/-! ## Every request -/

/-- A request is handled without a fault exactly when it is not stray. -/
theorem handle_returns_iff (w : World) (r : ClientRequest) : (∃ w', handle w r = .ok w') ↔ ¬ Stray w r := by
  change Returns (handle w r) ↔ ¬ Stray w r
  cases r with
  | plan p => exact returns_handlePlanReq w p
  | updates usecs => exact returns_handleUpdatesReq w usecs
  | planlock pnum => exact iff_of_true (returns_lockPlanet w _) id
  | playlock pnum => exact returns_lockPlayer w _
  | tractor state pnum => exact iff_of_true (returns_handleBeamReq w _ _ _ (returns_inlDraftSelect)) id
  | repress state pnum => exact iff_of_true (returns_handleBeamReq w _ _ _ (returns_inlDraftReject)) id
  | tractorPlayer player => exact returns_tractorPlayer w player
  | pressorPlayer player => exact returns_pressorPlayer w player
  | message now p => exact returns_handleMessageReq w now p
  | smessage now p => exact returns_handleMessageReq w now _
  | pingResponse onTcp now p => exact returns_handlePingResponse w onTcp now p

/-- A captain in a draft, on a server that checks planets. -/
def draftWorld : World :=
  { (default : World) with
    mem := { (default : Memory) with players := fun _ => { (default : Player) with inlDraft := .captainUp } }
    proc := { (default : Proc) with checkPlanets := true } }

theorem handle_faults :
    handle draftWorld (.updates 0) = .error .divide ∧
      handle draftWorld (.plan ⟨40, 0, 0, 0, 0⟩) = .error (.planets 40) ∧
      handle draftWorld (.playlock 32) = .error (.players 32) ∧
      handle draftWorld (.message 1 ⟨0x02, 32, [':', 't']⟩) = .error (.ignored 32) := by
  refine ⟨rfl, rfl, rfl, rfl⟩

end Netrek.Request
