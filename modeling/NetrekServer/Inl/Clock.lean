/-
What leaves the clock of a league game alone: the messages, the captains, the pauses, the scores, the
genocide and the obliterations of the robot.
-/
import NetrekServer.Inl.Countdown

namespace Netrek.Inl

/-! ## Frames -/

/-- A game, before it, in regulation or in overtime. -/
def phase (w : Word) : Word := w &&& (sTourney ||| sOvertime ||| sPregame)

theorem phase_or {w a : Word} (h : a &&& (sTourney ||| sOvertime ||| sPregame) = 0) : phase (w ||| a) = phase w := by
  unfold phase
  rw [BitVec.and_or_distrib_right, h]
  exact BitVec.or_zero

theorem phase_andNot {w a : Word}
    (h : ~~~a &&& (sTourney ||| sOvertime ||| sPregame) = sTourney ||| sOvertime ||| sPregame) :
    phase (w &&& ~~~a) = phase w := by
  unfold phase
  rw [BitVec.and_assoc, h]

theorem phase_has {w m : Word} (h : m &&& (sTourney ||| sOvertime ||| sPregame) = m) : (phase w).has m = w.has m := by
  unfold phase Word.has
  rw [BitVec.and_assoc, BitVec.and_comm _ m, h]

/-- The notes on the clock. -/
def timing : Note → Bool
  | .timeUp .. | .extraTime | .overtime | .strayCount => true
  | _ => false

/-- While the robot counts down in a game, it counts to the end of a pause. -/
structure Pausing (r : Robot) : Prop where
  counts : r.countdown.counts = startCounts
  act : r.countdown.act = 8
  pause : r.has sCountdown = true → r.countdown.idx ≤ 8 ∧ r.countdown.action = .endPause

/-- The clock itself is as it was. -/
structure Same (r r' : Robot) : Prop where
  fps : r'.fps = r.fps
  game : r'.game = r.game
  log : r'.log.filter timing = r.log.filter timing

/-- The clock and the time of the game are as they were. -/
structure Keeps (r r' : Robot) : Prop extends Same r r' where
  gameTicks : r'.stat.gameTicks = r.stat.gameTicks
  time : r'.stat.time = r.stat.time
  overtime : r'.stat.overtime = r.stat.overtime
  extratime : r'.stat.extratime = r.stat.extratime
  phase : phase r'.stat.flags = phase r.stat.flags
  pausing : Pausing r → Pausing r'

theorem Same.refl (r : Robot) : Same r r := ⟨rfl, rfl, rfl⟩

theorem Same.trans {r₁ r₂ r₃ : Robot} (h : Same r₁ r₂) (h' : Same r₂ r₃) : Same r₁ r₃ :=
  ⟨h'.fps.trans h.fps, h'.game.trans h.game, h'.log.trans h.log⟩

theorem Keeps.refl (r : Robot) : Keeps r r := ⟨Same.refl r, rfl, rfl, rfl, rfl, rfl, id⟩

theorem Keeps.trans {r₁ r₂ r₃ : Robot} (h : Keeps r₁ r₂) (h' : Keeps r₂ r₃) : Keeps r₁ r₃ :=
  ⟨h.toSame.trans h'.toSame, h'.gameTicks.trans h.gameTicks, h'.time.trans h.time, h'.overtime.trans h.overtime,
    h'.extratime.trans h.extratime, h'.phase.trans h.phase, fun hp => h'.pausing (h.pausing hp)⟩

/-- Only the teams and shared memory change. -/
theorem keeps_rest {r r' : Robot} (hfps : r'.fps = r.fps) (hstat : r'.stat = r.stat) (hcount : r'.countdown = r.countdown)
    (hgame : r'.game = r.game) (hlog : r'.log = r.log) : Keeps r r' := by
  refine ⟨⟨hfps, hgame, by rw [hlog]⟩, by rw [hstat], by rw [hstat], by rw [hstat], by rw [hstat], by rw [hstat], ?_⟩
  rintro ⟨hc, ha, hp⟩
  refine ⟨by rw [hcount, hc], by rw [hcount, ha], ?_⟩
  unfold Robot.has
  rw [hstat, hcount]
  exact hp

theorem keeps_modifyStat (r : Robot) (f : Stats → Stats) (hticks : ∀ s, (f s).gameTicks = s.gameTicks)
    (htime : ∀ s, (f s).time = s.time) (hovertime : ∀ s, (f s).overtime = s.overtime)
    (hextra : ∀ s, (f s).extratime = s.extratime) (hphase : ∀ s, Inl.phase (f s).flags = Inl.phase s.flags)
    (hcount : ∀ s : Stats, (f s).flags.has sCountdown = true → s.flags.has sCountdown = true) :
    Keeps r (r.modifyStat f) :=
  ⟨⟨rfl, rfl, rfl⟩, hticks _, htime _, hovertime _, hextra _, hphase _,
    fun hp => ⟨hp.counts, hp.act, fun h => hp.pause (hcount _ h)⟩⟩

/-- Statistics change, but for the clock and the flags. -/
theorem keeps_modifyStat_flags (r : Robot) (f : Stats → Stats) (hticks : ∀ s, (f s).gameTicks = s.gameTicks)
    (htime : ∀ s, (f s).time = s.time) (hovertime : ∀ s, (f s).overtime = s.overtime)
    (hextra : ∀ s, (f s).extratime = s.extratime) (hflags : ∀ s, (f s).flags = s.flags) : Keeps r (r.modifyStat f) :=
  keeps_modifyStat r f hticks htime hovertime hextra (fun s => by rw [hflags]) fun s h => by rwa [hflags] at h

theorem keeps_modifyTeam (r : Robot) (t : Side) (f : Team → Team) : Keeps r (r.modifyTeam t f) :=
  keeps_rest rfl rfl rfl rfl rfl

theorem keeps_modifyTeams (r : Robot) (f : Team → Team) : Keeps r (r.modifyTeams f) :=
  keeps_rest rfl rfl rfl rfl rfl

theorem keeps_modifyPlayer (r : Robot) (i : Slot) (f : Player → Player) : Keeps r (r.modifyPlayer i f) :=
  keeps_rest rfl rfl rfl rfl rfl

theorem keeps_modifyStatus (r : Robot) (f : Status → Status) : Keeps r (r.modifyStatus f) :=
  keeps_rest rfl rfl rfl rfl rfl

theorem keeps_note (r : Robot) {n : Note} (hn : timing n = false) : Keeps r (r.note n) := by
  refine ⟨⟨rfl, rfl, ?_⟩, rfl, rfl, rfl, rfl, rfl, fun h => ⟨h.counts, h.act, h.pause⟩⟩
  show (n :: r.log).filter timing = _
  rw [List.filter_cons_of_neg (by rw [hn]; decide)]

theorem keeps_modifyCaptain (r : Robot) (who : Option Slot) (f : Player → Player) : Keeps r (r.modifyCaptain who f) := by
  cases who with
  | none => exact keeps_note r rfl
  | some i => exact keeps_modifyPlayer r i f

theorem keeps_obliterate (r : Robot) (wflag : Nat) (kreason : WhyDead) : Keeps r (obliterate r wflag kreason) := by
  obtain ⟨m, hm, -⟩ := obliterate_eq r wflag kreason
  rw [hm]
  exact keeps_rest rfl rfl rfl rfl rfl

/-! ## Captains and scores -/

theorem keeps_forgetCaptain (r : Robot) (t : Side) : Keeps r (forgetCaptain r t) := by
  unfold forgetCaptain
  split
  · exact Keeps.refl r
  · split
    · exact (keeps_modifyTeam r t _).trans (keeps_modifyCaptain _ _ _)
    · exact Keeps.refl r

theorem keeps_playerMaint (r : Robot) : Keeps r (playerMaint r) :=
  (keeps_forgetCaptain r home).trans (keeps_forgetCaptain _ away)

theorem keeps_announceScores (r : Robot) : Keeps r (announceScores r) := by
  unfold announceScores
  split
  · exact Keeps.refl r
  split
  · exact Keeps.refl r
  · exact keeps_rest rfl rfl rfl rfl rfl

theorem keeps_scorePlanets (weight : ℚ) : ∀ (l : List (Fin maxPlanets)) (r : Robot), Keeps r (l.foldl (scorePlanet weight) r)
  | [], r => Keeps.refl r
  | p :: l, r =>
    have h : Keeps r (scorePlanet weight r p) := keeps_rest rfl rfl rfl rfl rfl
    h.trans (keeps_scorePlanets weight l _)

theorem keeps_updateScores (r : Robot) : Keeps r (updateScores r) := by
  have hstat := keeps_modifyStat_flags r (fun s => { s with weightedDivisor := s.weightedDivisor + scoreWeight r * 2 })
    (fun _ => rfl) (fun _ => rfl) (fun _ => rfl) (fun _ => rfl) fun _ => rfl
  have h := hstat.trans (keeps_scorePlanets (scoreWeight r) (List.finRange maxPlanets) _)
  unfold updateScores
  dsimp only
  split
  · exact h.trans (keeps_announceScores _)
  · exact h

theorem keeps_checkgeno (r : Robot) : Keeps r (checkgeno r).1 := by
  unfold checkgeno
  split
  · exact Keeps.refl r
  · exact keeps_rest rfl rfl rfl rfl rfl

theorem keeps_tellCaptains (r : Robot) : Keeps r (tellCaptains r) := by
  unfold tellCaptains
  split
  · exact (keeps_modifyCaptain r _ _).trans (keeps_modifyCaptain _ _ _)
  · exact Keeps.refl r

/-! ## Messages -/

theorem keeps_captain (r : Robot) (who : Slot) : Keeps r (doCaptain r who) := by
  unfold doCaptain
  split
  · exact Keeps.refl r
  · split
    · exact keeps_rest rfl rfl rfl rfl rfl
    · split
      · exact keeps_rest rfl rfl rfl rfl rfl
      · exact Keeps.refl r

theorem keeps_uncaptain (r : Robot) (who : Slot) : Keeps r (doUncaptain r who) := by
  unfold doUncaptain
  split
  · exact Keeps.refl r
  · exact keeps_rest rfl rfl rfl rfl rfl

theorem keeps_register (r : Robot) (who : Slot) : Keeps r (doRegister r who) := by
  unfold doRegister
  split
  · exact Keeps.refl r
  · exact keeps_rest rfl rfl rfl rfl rfl

/-- Flags of no phase are set. -/
theorem keeps_setFlags (r : Robot) {m : Word} (h : m &&& (sTourney ||| sOvertime ||| sPregame) = 0)
    (hc : m &&& sCountdown = 0) : Keeps r (r.modifyStat fun s => { s with flags := s.flags ||| m }) :=
  keeps_modifyStat r _ (fun _ => rfl) (fun _ => rfl) (fun _ => rfl) (fun _ => rfl) (fun _ => phase_or h) fun _ hs =>
    (Word.has_or hc).symm.trans hs

theorem has_of_has_andNot {w a m : Word} (h : Word.has (w &&& ~~~a) m = true) : w.has m = true := by
  rw [Word.has_iff] at h ⊢
  intro hw
  apply h
  rw [BitVec.and_assoc, BitVec.and_comm (~~~a), ← BitVec.and_assoc, hw]
  exact BitVec.zero_and

/-- Flags of no phase are cleared. -/
theorem keeps_clearFlags (r : Robot) {m : Word}
    (h : ~~~m &&& (sTourney ||| sOvertime ||| sPregame) = sTourney ||| sOvertime ||| sPregame) :
    Keeps r (r.modifyStat fun s => { s with flags := s.flags &&& ~~~m }) :=
  keeps_modifyStat r _ (fun _ => rfl) (fun _ => rfl) (fun _ => rfl) (fun _ => rfl) (fun _ => phase_andNot h) fun _ hs =>
    has_of_has_andNot hs

theorem keeps_inlFreeze (r : Robot) : Keeps r (inlFreeze r) := by
  have h := (keeps_modifyTeams r fun t => { t with flags := t.flags ||| tPause }).trans
    (keeps_setFlags (m := sFreeze) _ (by decide) (by decide))
  exact h.trans (keeps_rest rfl rfl rfl rfl rfl)

/-- The countdown to the end of a pause begins. -/
theorem keeps_settlePause (r : Robot) : Keeps r (settlePause r) := by
  unfold settlePause
  split
  · exact keeps_inlFreeze r
  split
  · refine ⟨⟨rfl, rfl, rfl⟩, rfl, rfl, rfl, rfl, phase_or (by decide), ?_⟩
    rintro ⟨hc, ha, -⟩
    exact ⟨hc, ha, fun _ => ⟨(by decide : 2 ≤ 8), rfl⟩⟩
  · exact Keeps.refl r

theorem keeps_pause (r : Robot) (who : Slot) (request now : Bool) : Keeps r (doPause r who request now) := by
  unfold doPause
  cases checkPlayer r who true with
  | none => exact Keeps.refl r
  | some num =>
    dsimp only
    split
    · exact Keeps.refl r
    split
    · split
      · exact (keeps_modifyTeams r _).trans (keeps_settlePause _)
      · exact (keeps_modifyTeam r _ _).trans (keeps_settlePause _)
    split
    · exact Keeps.refl r
    · exact (keeps_modifyTeam r _ _).trans (keeps_settlePause _)

/-- A timeout is called or taken back without touching the clock. -/
theorem keeps_timeout (r : Robot) (who : Slot) : Keeps r (doTimeout r who) := by
  unfold doTimeout
  cases checkPlayer r who true with
  | none => exact Keeps.refl r
  | some num =>
    dsimp only
    split
    · exact Keeps.refl r
    split
    · split
      · exact keeps_modifyTeam r _ _
      · refine (keeps_modifyTeam r num _).trans (keeps_modifyStat _ (fun s =>
          { s with flags := s.flags &&& ~~~sTmout, tmoutTicks := 0 }) ?_ ?_ ?_ ?_ ?_ ?_)
        · exact fun _ => rfl
        · exact fun _ => rfl
        · exact fun _ => rfl
        · exact fun _ => rfl
        · exact fun _ => phase_andNot (by decide)
        · exact fun _ hs => has_of_has_andNot hs
    split
    · exact Keeps.refl r
    · exact (keeps_modifyTeam r _ _).trans (keeps_setFlags (m := sTmout) _ (by decide) (by decide))

theorem keeps_restart (r : Robot) (who : Slot) : Keeps r (doRestart r who).1 := by
  unfold doRestart
  cases checkPlayer r who true with
  | none => exact Keeps.refl r
  | some num =>
    dsimp only
    split
    · exact Keeps.refl r
    · exact keeps_rest rfl rfl rfl rfl rfl

/-- A command that is allowed in a game keeps the clock. -/
theorem keeps_obey {r : Robot} (hgame : r.has sPregame = false) {m : Message} (ha : allowed r m = true) :
    Keeps r (obey r m.sender m.command) := by
  obtain ⟨who, c⟩ := m
  -- a command for the time before a game is not allowed
  have hno (hneeds : (needs c).2.1 = true) : False := by
    rcases hn : needs c with ⟨captain, pregame, ingame⟩
    unfold allowed at ha
    rw [hn] at hneeds ha
    dsimp only at hneeds ha
    rw [hneeds, hgame] at ha
    split at ha <;> simp at ha
  cases c with
  | captain => exact keeps_captain r who
  | uncaptain => exact keeps_uncaptain r who
  | register => exact keeps_register r who
  | pause => exact keeps_pause r who true false
  | pausenow => exact keeps_pause r who true true
  | «continue» => exact keeps_pause r who false false
  | timeout => exact keeps_timeout r who
  | restart galaxy => exact Keeps.refl r
  | _ => exact absurd rfl fun h => hno h

theorem keeps_endPause (r : Robot) : Keeps r (endPause r) :=
  (keeps_clearFlags (m := sFreeze ||| sCountdown) r (by decide)).trans (keeps_modifyStatus _ _)

/-- The countdown to the end of a pause does not run off its table. -/
theorem keeps_countStart {r : Robot} (hp : Pausing r) (hc : r.has sCountdown = true) : Keeps r (countStart r) := by
  obtain ⟨hi, haction⟩ := hp.pause hc
  have hlen : r.countdown.act < r.countdown.counts.length := by
    rw [hp.counts, hp.act]
    decide
  obtain ⟨i, due, hcount, hidx⟩ := countdown_some (p := r.persec) (t := r.stat.ticks) hlen (by rw [hp.act]; exact hi)
  unfold countStart
  rw [hcount]
  cases due with
  | false =>
    refine ⟨⟨rfl, rfl, rfl⟩, rfl, rfl, rfl, rfl, rfl, fun h => ⟨h.counts, h.act, fun _ => ⟨?_, haction⟩⟩⟩
    have hle := hidx rfl
    rwa [hp.act] at hle
  | true =>
    dsimp only
    rw [haction]
    -- after the pause nothing is counted down
    have hend := keeps_endPause { r with countdown := { r.countdown with idx := i } }
    refine ⟨⟨hend.fps, hend.game, hend.log⟩, hend.gameTicks, hend.time, hend.overtime, hend.extratime, hend.phase,
      fun h => ⟨h.counts, h.act, fun hs => ?_⟩⟩
    have hoff : Word.has (r.stat.flags &&& ~~~(sFreeze ||| sCountdown)) sCountdown = true := hs
    rw [Word.has_iff, BitVec.and_assoc] at hoff
    exact absurd (by simp [sFreeze, sCountdown]) hoff

/-- A game has ended, and the clock is as it was. -/
structure Ended (r r' : Robot) : Prop extends Same r r' where
  phase : phase r'.stat.flags = sPregame
  gameTicks : r'.stat.gameTicks = 0

theorem ended_resetInl {r r' : Robot} (h : Same r r') (galaxy : Option (Fin maxPlanets → Planet)) :
    Ended r (resetInl r' galaxy) := by
  have hphase : Inl.phase sPregame = sPregame := by decide
  unfold resetInl
  cases galaxy with
  | none => exact ⟨⟨h.fps, h.game, h.log⟩, hphase, rfl⟩
  | some planets =>
    obtain ⟨m, hm, -⟩ := obliterate_eq (r'.modifyStatus fun s =>
      { s with gameup := (s.gameup ||| (guChaos ||| guPractice)) &&& ~~~guPaused }) 1 .kprovidence
    dsimp only
    rw [Option.isSome_some, if_pos rfl, hm]
    exact ⟨⟨h.fps, h.game, h.log⟩, hphase, rfl⟩

/-- Messages in a game keep its clock, or end it. -/
theorem keeps_checkmess : ∀ (ms : List Message) {r : Robot}, r.has sPregame = false →
    Keeps r (checkmess ms r) ∨ Ended r (checkmess ms r)
  | [], r, _ => .inl (Keeps.refl r)
  | m :: ms, r, hgame => by
    -- what is left is taken in a state in which the game is still on
    have hrest {r' : Robot} (hk : Keeps r r') : Keeps r (checkmess ms r') ∨ Ended r (checkmess ms r') := by
      have hgame' : r'.has sPregame = false := by
        rw [← hgame]
        show r'.stat.flags.has sPregame = r.stat.flags.has sPregame
        rw [← phase_has (w := r'.stat.flags) (by decide), ← phase_has (w := r.stat.flags) (by decide), hk.phase]
      rcases keeps_checkmess ms hgame' with h | h
      · exact .inl (hk.trans h)
      · exact .inr ⟨hk.toSame.trans h.toSame, h.phase, h.gameTicks⟩
    unfold checkmess
    split
    · exact hrest (Keeps.refl r)
    · next hyes =>
      rw [Bool.not_eq_true, Bool.or_eq_false_iff, Bool.not_eq_false'] at hyes
      have hobey := keeps_obey hgame hyes.2
      obtain ⟨who, c⟩ := m
      cases c with
      | restart galaxy =>
        have hq := keeps_restart r who
        dsimp only
        split
        · next r' hr =>
          rw [hr] at hq
          rcases hrest hq with h | h
          · exact .inr (ended_resetInl h.toSame _)
          · exact .inr (ended_resetInl h.toSame _)
        · next r' hr =>
          rw [hr] at hq
          exact hrest hq
      | _ => exact hrest hobey

/-! ## Messages at any time -/

/-- Picking a side leaves the clocks. -/
theorem same_pickside (r : Robot) (who : Slot) (pick : Option (Fin 4)) : Same r (doPickside r who pick) := by
  unfold doPickside
  split
  · exact Same.refl r
  cases checkPlayer r who true with
  | none => exact Same.refl r
  | some num =>
    dsimp only
    split
    · exact Same.refl r
    split
    · exact Same.refl r
    cases pick with
    | none =>
      dsimp only
      split
      · exact Same.refl r
      · exact ⟨rfl, rfl, rfl⟩
    | some c =>
      dsimp only
      unfold pickRace
      dsimp only
      split
      · split
        · exact Same.refl r
        split
        · exact Same.refl r
        · exact ⟨rfl, rfl, rfl⟩
      · exact ⟨rfl, rfl, rfl⟩

theorem same_startCountdown (r : Robot) : Same r (startCountdown r) := by
  have hnote := keeps_note r (n := .starting (r.teams home).sideIndex (r.teams away).sideIndex) rfl
  unfold startCountdown
  dsimp only [Robot.modifyStat]
  refine ⟨?_, ?_, ?_⟩
  · rw [obliterate_fps]
    rfl
  · rw [obliterate_game]
    rfl
  · rw [obliterate_log]
    exact hnote.log

/-- A start sets up the countdown only. -/
theorem same_start (r : Robot) (who : Slot) : Same r (doStart r who) := by
  have hrequest (r : Robot) (num : Side) : Same r (requestStart r num) := by
    unfold requestStart
    dsimp only
    split
    · exact ⟨rfl, rfl, rfl⟩
    split
    · exact ⟨rfl, rfl, rfl⟩
    · refine Same.trans ?_ (same_startCountdown _)
      exact ⟨rfl, rfl, rfl⟩
  unfold doStart
  split
  · exact Same.refl r
  cases checkPlayer r who true with
  | none => exact Same.refl r
  | some num =>
    -- a draft that is over is forgotten
    obtain ⟨r', hr', hsame⟩ : ∃ r', (if (r.has sDraft && !r.mem.status.gameup.has guInlDrafting) = true then
        r.modifyStat fun s => { s with flags := s.flags &&& ~~~sDraft } else r) = r' ∧ Same r r' := by
      refine ⟨_, rfl, ?_⟩
      split
      · exact ⟨rfl, rfl, rfl⟩
      · exact Same.refl r
    dsimp only
    rw [hr']
    split
    · exact hsame
    split
    · exact hsame.trans (hrequest r' num)
    · exact hsame

theorem same_resetgalaxy (r : Robot) (who : Slot) (galaxy : Fin maxPlanets → Planet) :
    Same r (doResetgalaxy r who galaxy) := by
  unfold doResetgalaxy
  split
  · exact Same.refl r
  cases checkPlayer r who true with
  | none => exact Same.refl r
  | some num =>
    dsimp only
    split
    · exact ⟨rfl, rfl, rfl⟩
    · exact ⟨rfl, rfl, rfl⟩

theorem same_gametime (r : Robot) (who : Slot) (times : Option (Int × Int)) : Same r (doGametime r who times) := by
  unfold doGametime
  split
  · dsimp only
    split
    · exact Same.refl r
    split
    · exact ⟨rfl, rfl, rfl⟩
    · exact ⟨rfl, rfl, rfl⟩
  · exact Same.refl r

theorem same_army (r : Robot) (who : Slot) (army : Option Int) : Same r (doArmy r who army) := by
  unfold doArmy
  split
  · dsimp only
    split
    · exact Same.refl r
    split
    · exact ⟨rfl, rfl, rfl⟩
    · exact ⟨rfl, rfl, rfl⟩
  · exact Same.refl r

theorem same_scoremode (r : Robot) (who : Slot) (mode : Option Int) : Same r (doScoremode r who mode) := by
  unfold doScoremode
  split
  · dsimp only
    split
    · exact Same.refl r
    split
    · exact Same.refl r
    split
    · exact ⟨rfl, rfl, rfl⟩
    · exact ⟨rfl, rfl, rfl⟩
  · exact Same.refl r

theorem same_confine (r : Robot) (who : Slot) : Same r (doConfine r who) := by
  unfold doConfine
  cases checkPlayer r who true with
  | none => exact Same.refl r
  | some num =>
    dsimp only
    split
    · exact Same.refl r
    split
    · split
      · exact ⟨rfl, rfl, rfl⟩
      · exact ⟨rfl, rfl, rfl⟩
    · exact ⟨rfl, rfl, rfl⟩

theorem same_obey (r : Robot) (who : Slot) (c : Command) : Same r (obey r who c) := by
  cases c with
  | captain => exact (keeps_captain r who).toSame
  | uncaptain => exact (keeps_uncaptain r who).toSame
  | pickside pick => exact same_pickside r who pick
  | start => exact same_start r who
  | resetgalaxy galaxy => exact same_resetgalaxy r who galaxy
  | gametime times => exact same_gametime r who times
  | army army => exact same_army r who army
  | scoremode mode => exact same_scoremode r who mode
  | register => exact (keeps_register r who).toSame
  | confine => exact same_confine r who
  | pause => exact (keeps_pause r who true false).toSame
  | pausenow => exact (keeps_pause r who true true).toSame
  | «continue» => exact (keeps_pause r who false false).toSame
  | timeout => exact (keeps_timeout r who).toSame
  | restart galaxy => exact Same.refl r

/-- Messages do not touch the clock. -/
theorem same_checkmess : ∀ (ms : List Message) (r : Robot), Same r (checkmess ms r)
  | [], r => Same.refl r
  | m :: ms, r => by
    have hobey := same_obey r m.sender m.command
    unfold checkmess
    split
    · exact same_checkmess ms r
    · obtain ⟨who, c⟩ := m
      cases c with
      | restart galaxy =>
        have hq := (keeps_restart r who).toSame
        dsimp only
        split
        · next r' hr =>
          rw [hr] at hq
          exact (ended_resetInl (hq.trans (same_checkmess ms r')) _).toSame
        · next r' hr =>
          rw [hr] at hq
          exact hq.trans (same_checkmess ms r')
      | _ => exact hobey.trans (same_checkmess ms _)

/-! ## Ends -/

/-- A game that is over has ended. -/
theorem ended_gameOver (r : Robot) (flush : List Message) : Ended r (gameOver r flush) := by
  have hnote := keeps_note r (n := .gameOver) rfl
  unfold gameOver
  dsimp only
  refine ended_resetInl (Same.trans (Same.trans ?_ (keeps_tellCaptains _).toSame) (same_checkmess flush _)) none
  dsimp only [Robot.modifyStatus]
  refine ⟨?_, ?_, ?_⟩
  · rw [obliterate_fps]
    rfl
  · rw [obliterate_game]
    rfl
  · rw [obliterate_log]
    exact hnote.log

/-- A timeout that is called keeps the clock. -/
theorem keeps_checkTimeout (r : Robot) : Keeps r (checkTimeout r) := by
  unfold checkTimeout
  split
  · have hticks := keeps_modifyStat_flags r (fun s => { s with tmoutTicks := s.tmoutTicks + 1 }) (fun _ => rfl)
      (fun _ => rfl) (fun _ => rfl) (fun _ => rfl) fun _ => rfl
    dsimp only
    split
    · refine hticks.trans (Keeps.trans (keeps_modifyStat _ (fun s =>
        { s with flags := s.flags &&& ~~~sTmout, tmoutTicks := 0 }) ?_ ?_ ?_ ?_ ?_ ?_)
        ((keeps_modifyTeams _ fun t => { t with flags := t.flags &&& ~~~tTimeout }).trans (keeps_inlFreeze _)))
      · exact fun _ => rfl
      · exact fun _ => rfl
      · exact fun _ => rfl
      · exact fun _ => rfl
      · exact fun _ => phase_andNot (by decide)
      · exact fun _ hs => has_of_has_andNot hs
    · exact hticks
  · exact Keeps.refl r

end Netrek.Inl
