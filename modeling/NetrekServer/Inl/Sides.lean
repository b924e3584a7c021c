/-
The races of the two sides of a league game. `start_countdown` makes them the ones that the captains have
chosen, and from then on until `reset_inl` nobody changes either, because the commands that choose look at
`inl_stat.change` first.
-/
import NetrekServer.Inl.Period
import NetrekServer.Lib.Run

namespace Netrek.Inl

open Netrek.Lib

/-! ## Choosing and playing -/

/-- Before a game no clock of it runs. -/
def Waits (w : Word) : Prop := w &&& (sTourney ||| sOvertime ||| sPregame ||| sCountdown) = sPregame

/-- The sides play the races that were chosen for them. -/
def Chosen (r : Robot) : Prop := ∀ t, (r.teams t).side = r.flagOf t

/-- Races are chosen before a game and played in it, and the clock of the game ends it. -/
structure Cast (r : Robot) : Prop where
  action : r.game.action = .endTourney
  sides : (r.stat.change = true ∧ Waits r.stat.flags) ∨ r.stat.change = false ∧ Chosen r

/-- The races, and whether they may be chosen, are as they were. -/
structure Steady (r r' : Robot) : Prop where
  action : r'.game.action = r.game.action
  change : r'.stat.change = r.stat.change
  waits : Waits r.stat.flags → Waits r'.stat.flags
  before : r'.before = r.before
  side : ∀ t, (r'.teams t).side = (r.teams t).side
  index : ∀ t, (r'.teams t).sideIndex = (r.teams t).sideIndex

theorem Steady.refl (r : Robot) : Steady r r := ⟨rfl, rfl, id, rfl, fun _ => rfl, fun _ => rfl⟩

theorem Steady.trans {r₁ r₂ r₃ : Robot} (h : Steady r₁ r₂) (h' : Steady r₂ r₃) : Steady r₁ r₃ where
  action := h'.action.trans h.action
  change := h'.change.trans h.change
  waits hw := h'.waits (h.waits hw)
  before := h'.before.trans h.before
  side t := (h'.side t).trans (h.side t)
  index t := (h'.index t).trans (h.index t)

theorem Steady.flagOf {r r' : Robot} (h : Steady r r') (t : Side) : r'.flagOf t = r.flagOf t := by
  unfold Robot.flagOf
  rw [h.index, h.before]

theorem Steady.chosen {r r' : Robot} (h : Steady r r') (hc : Chosen r) : Chosen r' := fun t => by
  rw [h.side, h.flagOf]
  exact hc t

theorem Cast.steady {r r' : Robot} (hc : Cast r) (h : Steady r r') : Cast r' := by
  refine ⟨h.action.trans hc.action, ?_⟩
  rw [h.change]
  exact hc.sides.imp (And.imp_right h.waits) (And.imp_right h.chosen)

theorem Waits.has {w m : Word} (h : Waits w) (hm : m &&& (sTourney ||| sOvertime ||| sPregame ||| sCountdown) = m) :
    w.has m = (sPregame : Word).has m := by
  have hand : sPregame &&& m = w &&& m := by
    rw [← h, BitVec.and_assoc, BitVec.and_comm (sTourney ||| sOvertime ||| sPregame ||| sCountdown), hm]
  unfold Word.has
  rw [hand]

/-- Whoever plays has chosen. -/
theorem Cast.chosen {r : Robot} (h : Cast r) (hplays : r.has (sTourney ||| sOvertime) = true) : Chosen r := by
  rcases h.sides with ⟨-, hw⟩ | ⟨-, hc⟩
  · have hno : r.has (sTourney ||| sOvertime) = false := (hw.has (by decide)).trans (by decide)
    rw [hno] at hplays
    cases hplays
  · exact hc

/-! ## What leaves the races -/

theorem waits_or {w m : Word} (h : m &&& (sTourney ||| sOvertime ||| sPregame ||| sCountdown) = 0) (hw : Waits w) :
    Waits (w ||| m) := by
  unfold Waits at hw ⊢
  rw [BitVec.and_or_distrib_right, h]
  exact BitVec.or_zero.trans hw

theorem waits_andNot {w m : Word} (h : sPregame &&& ~~~m = sPregame) (hw : Waits w) : Waits (w &&& ~~~m) := by
  unfold Waits at hw ⊢
  rw [BitVec.and_assoc, BitVec.and_comm (~~~m), ← BitVec.and_assoc, hw, h]

theorem steady_modifyTeam (r : Robot) (i : Side) (f : Team → Team)
    (hf : ∀ x, (f x).side = x.side ∧ (f x).sideIndex = x.sideIndex) : Steady r (r.modifyTeam i f) := by
  refine ⟨rfl, rfl, id, rfl, fun t => ?_, fun t => ?_⟩
  all_goals
    rw [Robot.teams_modifyTeam]
    split
  · next h => rw [h, (hf _).1]
  · rfl
  · next h => rw [h, (hf _).2]
  · rfl

theorem steady_modifyTeams (r : Robot) (f : Team → Team)
    (hf : ∀ x, (f x).side = x.side ∧ (f x).sideIndex = x.sideIndex) : Steady r (r.modifyTeams f) :=
  ⟨rfl, rfl, id, rfl, fun _ => (hf _).1, fun _ => (hf _).2⟩

theorem steady_modifyStat (r : Robot) (f : Stats → Stats) (hw : ∀ s, Waits s.flags → Waits (f s).flags)
    (hc : ∀ s, (f s).change = s.change) : Steady r (r.modifyStat f) :=
  ⟨rfl, hc _, hw _, rfl, fun _ => rfl, fun _ => rfl⟩

theorem steady_setFlags (r : Robot) {m : Word} (h : m &&& (sTourney ||| sOvertime ||| sPregame ||| sCountdown) = 0) :
    Steady r (r.modifyStat fun s => { s with flags := s.flags ||| m }) :=
  steady_modifyStat r _ (fun _ => waits_or h) fun _ => rfl

theorem steady_clearFlags (r : Robot) {m : Word} (h : sPregame &&& ~~~m = sPregame) :
    Steady r (r.modifyStat fun s => { s with flags := s.flags &&& ~~~m }) :=
  steady_modifyStat r _ (fun _ => waits_andNot h) fun _ => rfl

/-- Shared memory, the log and other variables change. -/
theorem steady_rest {r r' : Robot} (hg : r'.game.action = r.game.action) (hs : r'.stat = r.stat)
    (hb : r'.before = r.before) (ht : r'.teams = r.teams) : Steady r r' :=
  ⟨hg, by rw [hs], by rw [hs]; exact id, hb, fun _ => by rw [ht], fun _ => by rw [ht]⟩

theorem steady_note (r : Robot) (n : Note) : Steady r (r.note n) := steady_rest rfl rfl rfl rfl

theorem steady_memory (r : Robot) (m : Memory) : Steady r { r with mem := m } := steady_rest rfl rfl rfl rfl

theorem steady_modifyStatus (r : Robot) (f : Status → Status) : Steady r (r.modifyStatus f) := steady_memory r _

theorem steady_pos (r : Robot) (pos : Slot → Int) : Steady r { r with pos := pos } := steady_rest rfl rfl rfl rfl

theorem steady_setMasks (r : Robot) (x y : Word) : Steady r (setMasks r x y) := steady_rest rfl rfl rfl rfl

theorem steady_prolong (r : Robot) (n : Int) : Steady r (prolong r n) := ⟨rfl, rfl, id, rfl, fun _ => rfl, fun _ => rfl⟩

theorem steady_modifyPlayer (r : Robot) (i : Slot) (f : Player → Player) : Steady r (r.modifyPlayer i f) := steady_rest rfl rfl rfl rfl

theorem steady_modifyCaptain (r : Robot) (who : Option Slot) (f : Player → Player) : Steady r (r.modifyCaptain who f) := by
  cases who with
  | none => exact steady_rest rfl rfl rfl rfl
  | some i => exact steady_modifyPlayer r i f

theorem steady_obliterate (r : Robot) (wflag : Nat) (kreason : WhyDead) : Steady r (obliterate r wflag kreason) :=
  steady_rest (by rw [obliterate_game]) (obliterate_stat ..) (obliterate_before ..) (obliterate_teams ..)

theorem steady_plResetInl (r : Robot) (galaxy : Option (Fin maxPlanets → Planet)) : Steady r (plResetInl r galaxy) := by
  cases galaxy with
  | none => exact steady_rest rfl rfl rfl rfl
  | some planets => exact steady_rest rfl rfl rfl rfl

theorem steady_forgetCaptain (r : Robot) (t : Side) : Steady r (forgetCaptain r t) := by
  unfold forgetCaptain
  split
  · exact .refl r
  split
  · exact (steady_modifyTeam r t _ (by intro; exact ⟨rfl, rfl⟩)).trans (steady_modifyCaptain _ _ _)
  · exact .refl r

theorem steady_playerMaint (r : Robot) : Steady r (playerMaint r) :=
  (steady_forgetCaptain r home).trans (steady_forgetCaptain _ away)

theorem steady_countplanets (r : Robot) : Steady r (countplanets r) :=
  ⟨rfl, rfl, id, rfl, fun _ => rfl, fun _ => rfl⟩

theorem steady_announceScores (r : Robot) : Steady r (announceScores r) := by
  unfold announceScores
  split
  · exact .refl r
  split
  · exact .refl r
  · exact steady_countplanets r

theorem steady_scorePlanet (weight : ℚ) (r : Robot) (p : Fin maxPlanets) : Steady r (scorePlanet weight r p) := by
  refine ⟨rfl, rfl, id, rfl, fun t => ?_, fun t => ?_⟩
  all_goals
    unfold scorePlanet
    dsimp only
    split <;> rfl

theorem steady_scorePlanets (weight : ℚ) : ∀ (l : List (Fin maxPlanets)) (r : Robot),
    Steady r (l.foldl (scorePlanet weight) r)
  | [], r => .refl r
  | p :: l, r => (steady_scorePlanet weight r p).trans (steady_scorePlanets weight l _)

theorem steady_updateScores (r : Robot) : Steady r (updateScores r) := by
  have h := (steady_modifyStat r (fun s => { s with weightedDivisor := s.weightedDivisor + scoreWeight r * 2 })
    (fun _ => id) fun _ => rfl).trans (steady_scorePlanets (scoreWeight r) (List.finRange maxPlanets) _)
  unfold updateScores
  dsimp only
  split
  · exact h.trans (steady_announceScores _)
  · exact h

theorem steady_checkgeno (r : Robot) : Steady r (checkgeno r).1 := by
  unfold checkgeno
  split
  · exact .refl r
  · exact steady_rest rfl rfl rfl rfl

theorem steady_tellCaptains (r : Robot) : Steady r (tellCaptains r) := by
  unfold tellCaptains
  split
  · exact (steady_modifyCaptain r _ _).trans (steady_modifyCaptain _ _ _)
  · exact .refl r

/-! ## Commands -/

theorem steady_captain (r : Robot) (who : Slot) : Steady r (doCaptain r who) := by
  unfold doCaptain
  split
  · exact .refl r
  split
  · exact (steady_modifyTeam r _ _ (by intro; exact ⟨rfl, rfl⟩)).trans (steady_modifyPlayer _ _ _)
  split
  · exact steady_modifyTeam r _ _ (by intro; exact ⟨rfl, rfl⟩)
  · exact .refl r

theorem steady_uncaptain (r : Robot) (who : Slot) : Steady r (doUncaptain r who) := by
  unfold doUncaptain
  split
  · exact .refl r
  · exact (steady_modifyTeam r _ _ (by intro; exact ⟨rfl, rfl⟩)).trans (steady_modifyPlayer _ _ _)

theorem steady_register (r : Robot) (who : Slot) : Steady r (doRegister r who) := by
  unfold doRegister
  split
  · exact .refl r
  · exact steady_modifyTeam r _ _ (by intro; exact ⟨rfl, rfl⟩)

theorem steady_resetgalaxy (r : Robot) (who : Slot) (galaxy : Fin maxPlanets → Planet) :
    Steady r (doResetgalaxy r who galaxy) := by
  unfold doResetgalaxy
  split
  · exact .refl r
  split
  · exact .refl r
  · next num _ =>
    have hask := steady_modifyTeam r num (fun t => { t with flags := t.flags ||| tResetGalaxy }) fun _ => ⟨rfl, rfl⟩
    dsimp only
    split
    · exact hask.trans ((steady_modifyTeams _ (fun t => { t with flags := 0 }) fun _ => ⟨rfl, rfl⟩).trans
        (steady_plResetInl _ _))
    · exact hask

/-- The captains' values of the settings of a game. -/
theorem steady_settings (r : Robot) (who : Slot) : (∀ times, Steady r (doGametime r who times)) ∧
    (∀ army, Steady r (doArmy r who army)) ∧ ∀ mode, Steady r (doScoremode r who mode) := by
  refine ⟨fun times => ?_, fun army => ?_, fun mode => ?_⟩
  · unfold doGametime
    split
    · split
      · exact .refl r
      have h := fun num x y => steady_modifyTeam r num (fun t => { t with time := x, overtime := y }) fun _ => ⟨rfl, rfl⟩
      dsimp only
      split
      · exact h ..
      · exact (h ..).trans (steady_modifyStat _ (fun s => { s with time := _, overtime := _ }) (fun _ => id) fun _ => rfl)
    · exact .refl r
  · unfold doArmy
    split
    · split
      · exact .refl r
      have h := fun num x => steady_modifyTeam r num (fun t => { t with startArmies := x }) fun _ => ⟨rfl, rfl⟩
      dsimp only
      split
      · exact h ..
      · exact (h ..).trans (steady_modifyStat _ (fun s => { s with startArmies := _ }) (fun _ => id) fun _ => rfl)
    · exact .refl r
  · unfold doScoremode
    split
    · split
      · exact .refl r
      split
      · exact .refl r
      have h := fun num x => steady_modifyTeam r num (fun t => { t with scoreMode := x }) fun _ => ⟨rfl, rfl⟩
      dsimp only
      split
      · exact (h ..).trans (steady_modifyStat _ (fun s => { s with scoreMode := _ }) (fun _ => id) fun _ => rfl)
      · exact h ..
    · exact .refl r

theorem steady_confine (r : Robot) (who : Slot) : Steady r (doConfine r who) := by
  unfold doConfine
  split
  · exact .refl r
  split
  · exact .refl r
  split
  · have h := fun num => steady_modifyTeam r num (fun t => { t with flags := t.flags &&& ~~~tConfine }) fun _ => ⟨rfl, rfl⟩
    dsimp only
    split
    · exact h _
    · exact (h _).trans (steady_clearFlags (m := sConfine) _ (by decide))
  · exact (steady_modifyTeam r _ _ (by intro; exact ⟨rfl, rfl⟩)).trans (steady_setFlags (m := sConfine) _ (by decide))

theorem steady_inlFreeze (r : Robot) : Steady r (inlFreeze r) := by
  have hteams := steady_modifyTeams r (fun t => { t with flags := t.flags ||| tPause }) fun _ => ⟨rfl, rfl⟩
  have hflags := hteams.trans (steady_setFlags (m := sFreeze) _ (by decide))
  exact hflags.trans (steady_rest rfl rfl rfl rfl)

/-- A pause is none before a game. -/
theorem steady_settlePause {r : Robot} (hno : ¬ Waits r.stat.flags) : Steady r (settlePause r) := by
  unfold settlePause
  split
  · exact steady_inlFreeze r
  split
  · exact ⟨rfl, rfl, fun hw => absurd hw hno, rfl, fun _ => rfl, fun _ => rfl⟩
  · exact .refl r

/-- There is nothing to pause before a game. -/
theorem steady_pause (r : Robot) (who : Slot) (request now : Bool) : Steady r (doPause r who request now) := by
  unfold doPause
  split
  · exact .refl r
  split
  · exact .refl r
  · next hgame =>
    have hno : ¬ Waits r.stat.flags := fun hw => hgame ((hw.has (by decide)).trans (by decide))
    have hall := steady_modifyTeams r (fun t => { t with flags := t.flags ||| tPause }) fun _ => ⟨rfl, rfl⟩
    have hon := fun num => steady_modifyTeam r num (fun t => { t with flags := t.flags ||| tPause }) fun _ => ⟨rfl, rfl⟩
    have hoff := fun num => steady_modifyTeam r num (fun t => { t with flags := t.flags &&& ~~~tPause }) fun _ => ⟨rfl, rfl⟩
    split
    · split
      · exact hall.trans (steady_settlePause hno)
      · exact (hon _).trans (steady_settlePause hno)
    split
    · exact .refl r
    · exact (hoff _).trans (steady_settlePause hno)

theorem steady_timeout (r : Robot) (who : Slot) : Steady r (doTimeout r who) := by
  unfold doTimeout
  split
  · exact .refl r
  split
  · exact .refl r
  split
  · have h := fun num => steady_modifyTeam r num
      (fun t => { t with flags := t.flags &&& ~~~tTimeout, tmout := t.tmout + 1 }) fun _ => ⟨rfl, rfl⟩
    dsimp only
    split
    · exact h _
    · exact (h _).trans (steady_modifyStat _ (fun s => { s with flags := s.flags &&& ~~~sTmout, tmoutTicks := 0 })
        (fun _ => waits_andNot (by decide)) fun _ => rfl)
  split
  · exact .refl r
  · exact (steady_modifyTeam r _ _ (by intro; exact ⟨rfl, rfl⟩)).trans (steady_setFlags (m := sTmout) _ (by decide))

theorem steady_restart (r : Robot) (who : Slot) : Steady r (doRestart r who).1 := by
  unfold doRestart
  split
  · exact .refl r
  split
  · exact .refl r
  · exact steady_modifyTeam r _ (fun t => { t with flags := t.flags ||| tRestart }) fun _ => ⟨rfl, rfl⟩

/-! ## Choosing -/

theorem steady_pickRace {r : Robot} (num : Side) (c : Fin 4) : (pickRace r num c).stat = r.stat ∧ (pickRace r num c).game = r.game := by
  unfold pickRace
  dsimp only
  split
  · split
    · exact ⟨rfl, rfl⟩
    split <;> exact ⟨rfl, rfl⟩
  · exact ⟨rfl, rfl⟩

/-- Races are picked only as long as things can be changed. -/
theorem Cast.pickside {r : Robot} (h : Cast r) (who : Slot) (pick : Option (Fin 4)) : Cast (doPickside r who pick) := by
  have hpick (r' : Robot) (hchange : r.stat.change = true) (hstat : r'.stat = r.stat) (hgame : r'.game = r.game) : Cast r' := by
    refine ⟨by rw [hgame]; exact h.action, .inl ?_⟩
    rw [hstat]
    exact h.sides.resolve_right fun hno => by rw [hno.1] at hchange; cases hchange
  unfold doPickside
  split
  · exact h
  next hchange =>
  have hchange : r.stat.change = true := by simpa using hchange
  split
  · exact h
  split
  · exact h
  split
  · exact h
  split
  · split
    · exact h
    · exact hpick _ hchange rfl rfl
  · exact hpick _ hchange (steady_pickRace _ _).1 (steady_pickRace _ _).2

theorem startCountdown_action (r : Robot) : (startCountdown r).game.action = r.game.action := by
  unfold startCountdown
  dsimp only [Robot.modifyStat]
  rw [obliterate_game]
  rfl

theorem startCountdown_change (r : Robot) : (startCountdown r).stat.change = false := by
  unfold startCountdown
  dsimp only [Robot.modifyStat]
  rw [obliterate_stat]
  rfl

/-- From the countdown on the races are fixed. -/
theorem cast_startCountdown {r : Robot} (h : r.game.action = .endTourney) : Cast (startCountdown r) :=
  ⟨(startCountdown_action r).trans h, .inr ⟨startCountdown_change r, startCountdown_side r⟩⟩

theorem Cast.requestStart {r : Robot} (h : Cast r) (num : Side) : Cast (requestStart r num) := by
  have hask := h.steady (steady_modifyTeam r num (fun t => { t with flags := t.flags ||| tStart }) fun _ => ⟨rfl, rfl⟩)
  unfold Inl.requestStart
  dsimp only
  split
  · exact hask
  split
  · exact hask
  · exact cast_startCountdown
      (hask.steady (steady_modifyTeams _ (fun t => { t with flags := t.flags &&& ~~~tStart }) fun _ => ⟨rfl, rfl⟩)).action

/-- A start makes the races final, if both sides want it and have all they need. -/
theorem Cast.start {r : Robot} (h : Cast r) (who : Slot) : Cast (doStart r who) := by
  unfold doStart
  split
  · exact h
  cases checkPlayer r who true with
  | none => exact h
  | some num =>
    -- a draft that is over is forgotten
    obtain ⟨r', hr', hcast⟩ : ∃ r', (if (r.has sDraft && !r.mem.status.gameup.has guInlDrafting) = true then
        r.modifyStat fun s => { s with flags := s.flags &&& ~~~sDraft } else r) = r' ∧ Cast r' := by
      refine ⟨_, rfl, ?_⟩
      split
      · exact h.steady (steady_clearFlags (m := sDraft) r (by decide))
      · exact h
    dsimp only
    rw [hr']
    split
    · exact hcast
    split
    · exact hcast.requestStart num
    · exact hcast

/-- Before a new game everything can be changed. -/
theorem Cast.resetInl {r : Robot} (h : Cast r) (galaxy : Option (Fin maxPlanets → Planet)) : Cast (resetInl r galaxy) := by
  have hwaits : Waits sPregame := (by decide : sPregame &&& (sTourney ||| sOvertime ||| sPregame ||| sCountdown) = sPregame)
  unfold Inl.resetInl
  cases galaxy with
  | none => exact ⟨h.action, .inl ⟨rfl, hwaits⟩⟩
  | some planets =>
    obtain ⟨m, hm, -⟩ := obliterate_eq (r.modifyStatus fun s =>
      { s with gameup := (s.gameup ||| (guChaos ||| guPractice)) &&& ~~~guPaused }) 1 .kprovidence
    dsimp only
    rw [Option.isSome_some, if_pos rfl, hm]
    exact ⟨h.action, .inl ⟨rfl, hwaits⟩⟩

/-- Whatever a captain says. -/
theorem Cast.obey {r : Robot} (h : Cast r) (who : Slot) (c : Command) : Cast (obey r who c) := by
  obtain ⟨htime, harmy, hmode⟩ := steady_settings r who
  cases c with
  | captain => exact h.steady (steady_captain r who)
  | uncaptain => exact h.steady (steady_uncaptain r who)
  | pickside pick => exact h.pickside who pick
  | start => exact h.start who
  | resetgalaxy galaxy => exact h.steady (steady_resetgalaxy r who galaxy)
  | gametime times => exact h.steady (htime times)
  | army army => exact h.steady (harmy army)
  | scoremode mode => exact h.steady (hmode mode)
  | register => exact h.steady (steady_register r who)
  | confine => exact h.steady (steady_confine r who)
  | pause => exact h.steady (steady_pause r who true false)
  | pausenow => exact h.steady (steady_pause r who true true)
  | «continue» => exact h.steady (steady_pause r who false false)
  | timeout => exact h.steady (steady_timeout r who)
  | restart galaxy => exact h

theorem Cast.checkmess : ∀ (ms : List Message) {r : Robot}, Cast r → Cast (checkmess ms r)
  | [], _, h => h
  | m :: ms, r, h => by
    unfold Inl.checkmess
    split
    · exact Cast.checkmess ms h
    split
    · next galaxy _ =>
      have hrestart := h.steady (steady_restart r m.sender)
      split
      · next r' heq =>
        rw [heq] at hrestart
        exact (Cast.checkmess ms hrestart).resetInl (some galaxy)
      · next r' heq =>
        rw [heq] at hrestart
        exact Cast.checkmess ms hrestart
    · exact Cast.checkmess ms (h.obey _ _)

/-! ## The end of a game -/

theorem Cast.gameOver {r : Robot} (h : Cast r) (flush : List Message) : Cast (gameOver r flush) := by
  obtain ⟨r₁, hr₁, hs₁⟩ : ∃ r₁, setMasks (r.note .gameOver) homeTeam awayTeam = r₁ ∧ Steady r r₁ :=
    ⟨_, rfl, (steady_note r .gameOver).trans (steady_setMasks _ _ _)⟩
  obtain ⟨r₂, hr₂, hs₂⟩ : ∃ r₂, obliterate { r₁ with mem := { r₁.mem with
      planets := fun l => { r₁.mem.planets l with info := allTeam } } } 1 .tournend = r₂ ∧ Steady r₁ r₂ :=
    ⟨_, rfl, (steady_memory r₁ _).trans (steady_obliterate _ 1 .tournend)⟩
  unfold Inl.gameOver
  dsimp only
  rw [hr₁, hr₂]
  refine (Cast.checkmess flush (h.steady ?_)).resetInl none
  refine (hs₁.trans hs₂).trans (Steady.trans ?_ (steady_tellCaptains _))
  exact (steady_modifyStatus r₂ _).trans (steady_pos _ _)

theorem steady_extraTime (r : Robot) : Steady r (extraTime r) := by
  -- the ships are destroyed at the first extra time
  obtain ⟨r₁, hr₁, hs⟩ : ∃ r₁, (if (r.note .extraTime).stat.extratime = 0 then
      obliterate (r.note .extraTime) 0 .kprovidence else r.note .extraTime) = r₁ ∧ Steady (r.note .extraTime) r₁ := by
    refine ⟨_, rfl, ?_⟩
    split
    · exact steady_obliterate _ 0 .kprovidence
    · exact .refl _
  have heq : extraTime r =
      announceScores (prolong (r₁.modifyStat fun s => { s with extratime := s.extratime + extraTicks r₁ }) (extraTicks r₁)) := by
    unfold extraTime
    dsimp only
    rw [hr₁]
    rfl
  have hticks := steady_modifyStat r₁ (fun s => { s with extratime := s.extratime + extraTicks r₁ }) (fun _ => id) fun _ => rfl
  rw [heq]
  exact ((steady_note r .extraTime).trans hs).trans (hticks.trans ((steady_prolong _ _).trans (steady_announceScores _)))

/-- Overtime comes after regulation. -/
theorem steady_overtime {r : Robot} (hno : ¬ Waits r.stat.flags) : Steady r (overtime r) := by
  obtain ⟨r₁, hr₁, hs⟩ : ∃ r₁, ((r.note .overtime).modifyStat fun s =>
      { s with flags := (s.flags &&& ~~~(sTourney ||| sCountdown)) ||| sOvertime }) = r₁ ∧ Steady r r₁ :=
    ⟨_, rfl, rfl, rfl, fun hw => absurd hw hno, rfl, fun _ => rfl, fun _ => rfl⟩
  have heq : overtime r = announceScores (prolong (obliterate r₁ 0 .kprovidence) (obliterate r₁ 0 .kprovidence).stat.overtime) := by
    unfold overtime
    dsimp only
    rw [hr₁]
    rfl
  rw [heq]
  exact (hs.trans (steady_obliterate _ _ _)).trans ((steady_prolong _ _).trans (steady_announceScores _))

/-- A game goes on, into extra time or overtime, with its races, or is over. -/
theorem Cast.endTourney {r : Robot} (h : Cast r) (flush : List Message) : Cast (endTourney r flush) := by
  have hcount : Cast (countplanets r) := h.steady (steady_countplanets r)
  have hover : Cast (Inl.gameOver (announceScores (countplanets r)) flush) :=
    (hcount.steady (steady_announceScores _)).gameOver flush
  unfold Inl.endTourney checkWinner
  dsimp only
  split
  · exact hover
  split
  · split
    · exact hcount.steady (steady_extraTime _)
    · exact hover
  split
  · next htourney =>
    have hno : ¬ Waits (countplanets r).stat.flags := fun hw => by
      have hoff : (countplanets r).has sTourney = false := (hw.has (by decide)).trans (by decide)
      rw [hoff] at htourney
      cases htourney
    exact hcount.steady (steady_overtime hno)
  split
  · exact hover
  · exact hcount

theorem steady_resetStats (r : Robot) : Steady r (resetStats r) := (steady_modifyStatus r _).trans (steady_memory _ _)

/-- A game is started by a countdown only. -/
theorem steady_startTourney {r : Robot} (hno : ¬ Waits r.stat.flags) : Steady r (startTourney r) := by
  have hreset := (steady_note r .started).trans (steady_plResetInl _ none)
  obtain ⟨r₁, hr₁, hs₁⟩ : ∃ r₁, ((plResetInl (r.note .started) none).modifyStat fun s =>
      { s with flags := (s.flags ||| sTourney) &&& ~~~(sPregame ||| sCountdown ||| sConfine) }) = r₁ ∧ Steady r r₁ :=
    ⟨_, rfl, hreset.action, hreset.change, fun hw => absurd hw hno, hreset.before, hreset.side, hreset.index⟩
  obtain ⟨r₂, hr₂, hs₂⟩ : ∃ r₂, resetStats (obliterate r₁ 1 .tournstart) = r₂ ∧ Steady r₁ r₂ :=
    ⟨_, rfl, (steady_obliterate r₁ 1 .tournstart).trans (steady_resetStats _)⟩
  obtain ⟨r₃, hr₃, hs₃⟩ : ∃ r₃, (r₂.modifyStat fun s => { s with gameTicks := 0, remaining := -1 }) = r₃ ∧ Steady r₂ r₃ :=
    ⟨_, rfl, steady_modifyStat r₂ _ (fun _ => id) fun _ => rfl⟩
  unfold startTourney
  dsimp only
  rw [hr₁, hr₂, hr₃]
  exact (((hs₁.trans hs₂).trans hs₃).trans (steady_modifyStatus _ _)).trans ⟨rfl, rfl, id, rfl, fun _ => rfl, fun _ => rfl⟩

theorem steady_endPause (r : Robot) : Steady r (endPause r) :=
  (steady_clearFlags (m := sFreeze ||| sCountdown) r (by decide)).trans (steady_rest rfl rfl rfl rfl)

/-! ## Ticks -/

theorem Cast.countStart {r : Robot} (h : Cast r) (hcount : r.has sCountdown = true) : Cast (countStart r) := by
  have hno : ¬ Waits r.stat.flags := fun hw => by
    have hoff : r.has sCountdown = false := (hw.has (by decide)).trans (by decide)
    rw [hoff] at hcount
    cases hcount
  unfold Inl.countStart
  split
  · exact h.steady (steady_rest rfl rfl rfl rfl)
  · exact h.steady (steady_rest rfl rfl rfl rfl)
  · next c _ =>
    have hc : Cast { r with countdown := c } := h.steady (steady_rest rfl rfl rfl rfl)
    cases c.action with
    | startTourney => exact hc.steady (steady_startTourney hno)
    | endPause => exact hc.steady (steady_endPause _)
    | endTourney => exact hc.endTourney []

/-- The clock of a game has one action. -/
theorem Cast.countGame {r : Robot} (h : Cast r) (flush : List Message) : Cast (countGame r flush) := by
  have haction : ∀ {c : Countdown} {due : Bool}, countdown r.persec r.stat.gameTicks r.game = some (c, due) →
      c.action = .endTourney := fun heq => by
    obtain ⟨i, rfl⟩ := countdown_idx heq
    exact h.action
  unfold Inl.countGame
  split
  · exact h.steady (steady_rest rfl rfl rfl rfl)
  · next c heq => exact ⟨haction heq, h.sides⟩
  · next c heq =>
    have hc : Cast { r with game := c } := ⟨haction heq, h.sides⟩
    have hnote := hc.steady (steady_note _ (.timeUp (r.has sTourney) r.stat.gameTicks c.ends))
    rw [haction heq]
    exact hnote.endTourney flush

theorem steady_checkTimeout (r : Robot) : Steady r (checkTimeout r) := by
  unfold checkTimeout
  split
  · have hticks := steady_modifyStat r (fun s => { s with tmoutTicks := s.tmoutTicks + 1 }) (fun _ => id) fun _ => rfl
    dsimp only
    split
    · have hoff (r : Robot) :=
        steady_modifyStat r (fun s => { s with flags := s.flags &&& ~~~sTmout, tmoutTicks := 0 })
          (fun s => waits_andNot (m := sTmout) (by decide)) fun _ => rfl
      have hclear (r : Robot) := steady_modifyTeams r (fun t => { t with flags := t.flags &&& ~~~tTimeout }) fun _ => ⟨rfl, rfl⟩
      exact hticks.trans ((hoff _).trans ((hclear _).trans (steady_inlFreeze _)))
    · exact hticks
  · exact .refl r

theorem steady_countTick (r : Robot) : Steady r (countTick r) := ⟨rfl, rfl, id, rfl, fun _ => rfl, fun _ => rfl⟩

theorem Cast.prepare {r : Robot} (h : Cast r) (mail : Mail) : Cast (prepare r mail) := by
  have hmaint : Cast (playerMaint (r.modifyStat fun s => { s with ticks := s.ticks + 1 })) :=
    (h.steady (steady_modifyStat r (fun s => { s with ticks := s.ticks + 1 }) (fun _ => id) fun _ => rfl)).steady
      (steady_playerMaint _)
  unfold Inl.prepare
  refine Cast.checkmess mail.mess ?_
  split
  · next hcount => exact hmaint.countStart hcount
  · exact hmaint

theorem Cast.play {r : Robot} (h : Cast r) (mail : Mail) : Cast (play r mail) := by
  have hticked : Cast ((checkTimeout (countTick r)).modifyStatus fun s => { s with tourn := true }) :=
    ((h.steady (steady_countTick r)).steady (steady_checkTimeout _)).steady (steady_rest rfl rfl rfl rfl)
  unfold Inl.play
  refine Cast.steady ?_ (steady_updateScores _)
  have hsudden : Cast (suddenDeath ((checkTimeout (countTick r)).modifyStatus fun s => { s with tourn := true }) mail) := by
    unfold suddenDeath
    split
    · exact hticked.endTourney _
    · exact hticked
  unfold periodic
  split
  · exact hsudden.countGame _
  · exact hsudden

theorem Cast.inlmove {r : Robot} (h : Cast r) (mail : Mail) : Cast (inlmove r mail) := by
  unfold Inl.inlmove
  dsimp only
  split
  · have hplay := (h.prepare mail).play mail
    have hgeno := hplay.steady (steady_checkgeno _)
    unfold genoCheck
    split
    · next heq =>
      rw [heq] at hgeno
      exact hgeno.endTourney _
    · next heq =>
      rw [heq] at hgeno
      exact hgeno
  · exact h.prepare mail

/-! ## Runs -/

/-- A tick, or what the players and the daemon do to shared memory meanwhile. -/
inductive Moment
  | tick (mail : Mail)
  | world (m : Memory) (pos : Slot → Int)

def Moment.run (r : Robot) : Moment → Robot
  | .tick mail => inlmove r mail
  | .world m pos => { r with mem := m, pos := pos }

theorem Cast.moment {r : Robot} (h : Cast r) (a : Moment) : Cast (a.run r) := by
  cases a with
  | tick mail => exact h.inlmove mail
  | world m pos => exact h.steady (steady_rest rfl rfl rfl rfl)

/-- From a countdown on, through any number of games, the sides play the races that were chosen for them. -/
theorem cast_run {r r' : Robot} {moments : List Moment} (hr : r.game.action = .endTourney)
    (h : Run (fun _ _ => True) Moment.run (startCountdown r) moments r') : Cast r' :=
  h.inv (fun _ a _ hc => hc.moment a) (cast_startCountdown hr)

end Netrek.Inl
