/-
A genocide in a league game. The ships that go with the race that owns no planet are found by the number
of its side, not by the race, and `end_tourney` ends the game only if the planets or the scores decide it.
-/
import NetrekServer.Inl.Sides

namespace Netrek.Inl

open Netrek.Lib

/-! ## The ships -/

/-- The race of a side owns no planet, and that of the other side does. -/
structure Genocided (r : Robot) (loser : Side) : Prop where
  lost : planetCount r.mem (r.teams loser).side = 0
  kept : 0 < planetCount r.mem (r.teams loser.other).side

/-- The ships of the race that owns no planet, and no others, are set exploding. -/
def RightShips (r : Robot) (loser : Side) : Prop :=
  ∀ j, ((checkgeno r).1.player j).status =
    if (r.player j).status = .palive ∧ (r.player j).team = (r.teams loser).side then .pexplode else (r.player j).status

theorem Genocided.genoLoser {r : Robot} {loser : Side} (h : Genocided r loser) : genoLoser r = some loser := by
  have hlost := h.lost
  have hkept := h.kept
  unfold Inl.genoLoser
  rcases Side.cases loser with rfl | rfl
  · rw [if_pos hlost]
  · have hhome : planetCount r.mem (r.teams home).side ≠ 0 := Nat.pos_iff_ne_zero.mp hkept
    rw [if_neg hhome, if_pos hlost]

theorem listBest_player (r : Robot) (team : Word) (j : Slot) :
    ((listBest r team).player j).status = (r.player j).status ∧ ((listBest r team).player j).team = (r.player j).team := by
  unfold listBest Robot.player
  dsimp only
  split
  · exact ⟨rfl, rfl⟩
  · exact ⟨rfl, rfl⟩

/-- What `checkgeno` does to a player. -/
theorem checkgeno_status {r : Robot} {loser : Side} (h : genoLoser r = some loser) (j : Slot) :
    ((checkgeno r).1.player j).status =
      if (r.player j).status = .palive ∧ (r.player j).team = sideNumber loser then .pexplode else (r.player j).status := by
  obtain ⟨hs, ht⟩ := listBest_player (listBest r (r.teams loser.other).side) (r.teams loser).side j
  obtain ⟨hs', ht'⟩ := listBest_player r (r.teams loser.other).side j
  rw [hs'] at hs
  rw [ht'] at ht
  unfold checkgeno
  rw [h]
  show (genocide loser _ ((listBest (listBest r _) _).player j)).status = _
  unfold genocide
  rw [hs, ht]
  split
  · rfl
  · exact hs

/-- The right ships go exactly if the number of the side picks out the players of its race. -/
theorem rightShips_iff {r : Robot} {loser : Side} (h : Genocided r loser) : RightShips r loser ↔
    ∀ j, (r.player j).status = .palive →
      ((r.player j).team = sideNumber loser ↔ (r.player j).team = (r.teams loser).side) := by
  unfold RightShips
  refine forall_congr' fun j => ?_
  rw [checkgeno_status h.genoLoser]
  by_cases halive : (r.player j).status = .palive
  · simp only [halive, true_and, forall_true_left]
    by_cases hn : (r.player j).team = sideNumber loser
    · by_cases hs : (r.player j).team = (r.teams loser).side
      · rw [if_pos hn, if_pos hs]
        exact ⟨fun _ => ⟨fun _ => hs, fun _ => hn⟩, fun _ => rfl⟩
      · rw [if_pos hn, if_neg hs]
        exact ⟨fun heq => (nomatch heq), fun hiff => absurd (hiff.mp hn) hs⟩
    · by_cases hs : (r.player j).team = (r.teams loser).side
      · rw [if_neg hn, if_pos hs]
        exact ⟨fun heq => (nomatch heq), fun hiff => absurd (hiff.mpr hs) hn⟩
      · rw [if_neg hn, if_neg hs]
        exact ⟨fun _ => ⟨fun h' => absurd h' hn, fun h' => absurd h' hs⟩, fun _ => rfl⟩
  · simp [halive]

/-! ## The end -/

/-- How far the race that owns planets leads in continuous scores. -/
def lead (r : Robot) (loser : Side) : ℚ :=
  (r.teams loser.other).weightedScore / r.stat.weightedDivisor - (r.teams loser).weightedScore / r.stat.weightedDivisor

/-- The planets and the scores decide the game, when `n` planets are owned by the race that owns any. -/
def Decided (r : Robot) (loser : Side) (n : Nat) : Prop :=
  if r.has sOvertime = true then 3 ≤ n ∨ r.game.ends ≤ r.stat.gameTicks
  else if r.stat.scoreMode = 0 then 3 ≤ n
  else
    1 ≤ r.stat.weightedDivisor ∧ 100 ≤ r.stat.gameTicks ∧
      ((r.stat.scoreMode = 1 ∧ (3 ≤ n ∨ 2 ≤ lead r loser ∨ lead r loser ≤ -2)) ∨
        (r.stat.scoreMode = 2 ∧
          (if lead r loser ≤ -2 then n < 3 ∨ extraMax r ≤ r.stat.extratime else 3 ≤ n ∨ 2 ≤ lead r loser)))

/-- `end_tourney` ends a game that is on exactly in these cases. -/
theorem endTourney_over {r : Robot} (hphase : phase r.stat.flags = sTourney ∨ phase r.stat.flags = sOvertime)
    (flush : List Message) :
    (endTourney r flush).has (sTourney ||| sOvertime) = false ↔
      0 < winner (countplanets r) ∨
        (if r.has sOvertime = true then r.game.ends ≤ r.stat.gameTicks
          else winner (countplanets r) = -1 ∧ extraMax r ≤ r.stat.extratime) := by
  have hover {r' : Robot} (h : Ended r r') : r'.has (sTourney ||| sOvertime) = false := has_phase h.phase (by decide)
  have hon {r' : Robot} {w : Word} (h : phase r'.stat.flags = w) (hw : w.has (sTourney ||| sOvertime) = true) :
      r'.has (sTourney ||| sOvertime) ≠ false := by
    rw [has_phase h (by decide), hw]
    decide
  have hk : Keeps r (countplanets r) := keeps_rest rfl rfl rfl rfl rfl
  have hgame : Ended r (gameOver (announceScores (countplanets r)) flush) := by
    have h := ended_gameOver (announceScores (countplanets r)) flush
    exact ⟨(hk.trans (keeps_announceScores _)).toSame.trans h.toSame, h.phase, h.gameTicks⟩
  unfold endTourney checkWinner
  dsimp only
  by_cases hcond : 0 < winner (countplanets r)
  · rw [if_pos hcond]
    exact iff_of_true (hover hgame) (.inl hcond)
  rw [if_neg hcond]
  rcases hphase with htour | hot
  · have ht : (countplanets r).has sTourney = true := has_phase (hk.phase.trans htour) (by decide)
    have hno : r.has sOvertime = false := has_phase htour (by decide)
    rw [ht, hno, if_neg Bool.false_ne_true, or_iff_right hcond]
    by_cases hextra : winner (countplanets r) = -1
    · rw [if_pos ⟨rfl, hextra⟩]
      by_cases hmax : (countplanets r).stat.extratime < extraMax (countplanets r)
      · rw [if_pos hmax]
        have hphase := (extended_extraTime (countplanets r)).2.2.trans (hk.phase.trans htour)
        exact iff_of_false (hon hphase (by decide)) fun hand => absurd hand.2 (not_le.mpr hmax)
      · rw [if_neg hmax]
        exact iff_of_true (hover hgame) ⟨hextra, not_lt.mp hmax⟩
    · rw [if_neg (fun hand => hextra hand.2), if_pos rfl]
      exact iff_of_false (hon (extended_overtime (hk.phase.trans htour)).2 (by decide)) fun hand => hextra hand.1
  · have ht : (countplanets r).has sTourney = false := has_phase (hk.phase.trans hot) (by decide)
    have hyes : r.has sOvertime = true := has_phase hot (by decide)
    rw [ht, hyes, if_pos rfl, or_iff_right hcond, if_neg (fun hand => Bool.false_ne_true hand.1),
      if_neg Bool.false_ne_true]
    by_cases hends : (countplanets r).game.ends ≤ (countplanets r).stat.gameTicks
    · rw [if_pos hends]
      exact iff_of_true (hover hgame) hends
    · rw [if_neg hends]
      exact iff_of_false (hon (hk.phase.trans hot) (by decide)) hends

/-- The planets that the teams have when their races are those they play. -/
theorem countplanets_planets {r : Robot} (hside : ∀ t, (r.teams t).side = r.flagOf t) (t : Side) :
    ((countplanets r).teams t).planets = planetCount r.mem (r.teams t).side := by
  rw [hside]
  rfl

/-- The side that owns planets, in the numbers of `check_winner`. -/
def ahead (loser : Side) : Int := if loser = home then 1 else -1

/-- By planets, the side that owns any is ahead, if it has three. -/
theorem normWinner_genocided {r : Robot} {loser : Side} (h : Genocided r loser)
    (hside : ∀ t, (r.teams t).side = r.flagOf t) : normWinner (countplanets r) =
      if 3 ≤ planetCount r.mem (r.teams loser.other).side then ahead loser else 0 := by
  have hlost := h.lost
  unfold normWinner
  rw [countplanets_planets hside, countplanets_planets hside]
  rcases Side.cases loser with rfl | rfl
  · have hother : home.other = away := rfl
    rw [hlost, hother, if_neg (by omega)]
    by_cases hn : 3 ≤ planetCount r.mem (r.teams away).side
    · rw [if_pos hn, if_pos (by omega)]
      rfl
    · rw [if_neg hn, if_neg (by omega)]
  · have hother : away.other = home := rfl
    rw [hlost, hother]
    by_cases hn : 3 ≤ planetCount r.mem (r.teams home).side
    · rw [if_pos hn, if_pos (by omega)]
      rfl
    · rw [if_neg hn, if_neg (by omega), if_neg (by omega)]

/-- By scores, the side that owns planets is ahead or behind by its lead. -/
theorem contWinner_genocided (r : Robot) (loser : Side) : contWinner (countplanets r) =
    if 2 ≤ lead r loser then ahead loser else if lead r loser ≤ -2 then -ahead loser else 0 := by
  unfold contWinner
  rcases Side.cases loser with rfl | rfl
  · have hlead : lead r home = -((r.teams home).weightedScore / r.stat.weightedDivisor -
        (r.teams away).weightedScore / r.stat.weightedDivisor) := (neg_sub _ _).symm
    show (if 2 ≤ (r.teams home).weightedScore / r.stat.weightedDivisor -
        (r.teams away).weightedScore / r.stat.weightedDivisor then _ else if (r.teams home).weightedScore /
        r.stat.weightedDivisor - (r.teams away).weightedScore / r.stat.weightedDivisor ≤ -2 then _ else _) = _
    rw [hlead]
    generalize (r.teams home).weightedScore / r.stat.weightedDivisor -
      (r.teams away).weightedScore / r.stat.weightedDivisor = d
    by_cases h1 : 2 ≤ d
    · rw [if_pos h1, if_neg (by linarith), if_pos (by linarith)]
      rfl
    · by_cases h2 : d ≤ -2
      · rw [if_neg h1, if_pos h2, if_pos (by linarith)]
        rfl
      · rw [if_neg h1, if_neg h2, if_neg (by linarith), if_neg (by linarith)]
  · rfl

/-- Who wins after a genocide. -/
theorem winner_genocided {r : Robot} {loser : Side} (h : Genocided r loser) (hside : ∀ t, (r.teams t).side = r.flagOf t) :
    winner (countplanets r) =
      let n := planetCount r.mem (r.teams loser.other).side
      if r.stat.scoreMode = 0 ∨ r.has sOvertime = true then if 3 ≤ n then 1 else 0
      else if r.stat.weightedDivisor < 1 then 0
      else if r.stat.gameTicks < 100 then 0
      else if r.stat.scoreMode = 1 then if 2 ≤ lead r loser ∨ lead r loser ≤ -2 then 2 else if 3 ≤ n then 3 else 0
      else if r.stat.scoreMode = 2 then
        if n < 3 ∧ -2 < lead r loser ∧ lead r loser < 2 then 0
        else if 3 ≤ n ∧ lead r loser ≤ -2 then -1 else 4
      else 0 := by
  -- the two counts that `checkwinner()` makes, for one side without planets
  have hnorm := normWinner_genocided h hside
  have hcont := contWinner_genocided r loser
  have hahead : ahead loser = 1 ∨ ahead loser = -1 := by
    unfold ahead
    split
    · exact .inl rfl
    · exact .inr rfl
  unfold winner
  rw [hnorm, hcont]
  show (if r.stat.scoreMode = 0 ∨ r.has sOvertime = true then _ else if r.stat.weightedDivisor < 1 then _
    else if r.stat.gameTicks < 100 then _ else if r.stat.scoreMode = 1 then _ else if r.stat.scoreMode = 2 then _
    else _) = _
  generalize planetCount r.mem (r.teams loser.other).side = n
  generalize lead r loser = l
  generalize ahead loser = a at hahead ⊢
  have ha : a ≠ 0 := by omega
  -- by planets alone, as in score mode 0 and in overtime
  have hone : (if (if 3 ≤ n then a else 0) ≠ 0 then (1 : Int) else 0) = if 3 ≤ n then 1 else 0 := by
    by_cases hn : 3 ≤ n
    · simp [hn, ha]
    · simp [hn]
  -- score mode 1: the lead first, the planets after it
  have hcontinuous : (if (if 2 ≤ l then a else if l ≤ -2 then -a else 0) ≠ 0 then (2 : Int)
      else if (if 3 ≤ n then a else 0) ≠ 0 then 3 else 0) =
      if 2 ≤ l ∨ l ≤ -2 then 2 else if 3 ≤ n then 3 else 0 := by
    by_cases h1 : 2 ≤ l
    · simp [h1, ha]
    · by_cases h2 : l ≤ -2
      · simp [h1, h2, ha]
      · by_cases hn : 3 ≤ n
        · simp [h1, h2, hn, ha]
        · simp [h1, h2, hn]
  -- score mode 2: the sum of the two, which cancels when they disagree
  have hmomentum : (if (if 2 ≤ l then a else if l ≤ -2 then -a else 0) = 0 ∧ (if 3 ≤ n then a else 0) = 0 then (0 : Int)
      else if (if 2 ≤ l then a else if l ≤ -2 then -a else 0) + (if 3 ≤ n then a else 0) ≠ 0 then 4 else -1) =
      if n < 3 ∧ -2 < l ∧ l < 2 then 0 else if 3 ≤ n ∧ l ≤ -2 then -1 else 4 := by
    have hsum : a + a ≠ 0 := by omega
    by_cases h1 : 2 ≤ l
    · have h2 : ¬ l ≤ -2 := by linarith
      have h3 : ¬ l < 2 := not_lt.mpr h1
      by_cases hn : 3 ≤ n
      · simp [h1, h2, h3, hn, ha, hsum]
      · simp [h1, h3, hn, ha]
    · have h3 : l < 2 := not_le.mp h1
      by_cases h2 : l ≤ -2
      · have h4 : ¬ -2 < l := not_lt.mpr h2
        by_cases hn : 3 ≤ n
        · simp [h1, h2, h4, hn, ha]
        · simp [h1, h2, h4, hn, ha]
      · have h4 : -2 < l := not_le.mp h2
        by_cases hn : 3 ≤ n
        · have h5 : ¬ n < 3 := not_lt.mpr hn
          simp [h1, h2, hn, h5, ha]
        · have h5 : n < 3 := not_le.mp hn
          simp [h1, h2, h3, h4, hn, h5]
  dsimp only
  rw [hone, hcontinuous, hmomentum]

/-- The planets and the scores decide the game exactly if `end_tourney` ends it. -/
theorem decided_iff {r : Robot} {loser : Side} (h : Genocided r loser) (hside : ∀ t, (r.teams t).side = r.flagOf t)
    (hphase : phase r.stat.flags = sTourney ∨ phase r.stat.flags = sOvertime) (flush : List Message) :
    (endTourney r flush).has (sTourney ||| sOvertime) = false ↔
      Decided r loser (planetCount r.mem (r.teams loser.other).side) := by
  have hwin := winner_genocided h hside
  rw [endTourney_over hphase, hwin]
  unfold Decided
  generalize planetCount r.mem (r.teams loser.other).side = n
  dsimp only
  -- overtime counts the planets
  by_cases hover : r.has sOvertime = true
  · rw [if_pos (.inr hover), if_pos hover, if_pos hover]
    by_cases hn : 3 ≤ n
    · simp [hn]
    · simp [hn]
  rw [if_neg hover, if_neg hover]
  -- so does score mode 0
  by_cases hmode : r.stat.scoreMode = 0
  · rw [if_pos (.inl hmode), if_pos hmode]
    by_cases hn : 3 ≤ n
    · simp [hn]
    · simp [hn]
  rw [if_neg (fun hor => hor.elim hmode hover), if_neg hmode]
  -- without a divisor, or too early, nobody has won
  by_cases hdiv : r.stat.weightedDivisor < 1
  · rw [if_pos hdiv]
    exact iff_of_false (by simp) fun hand => absurd hand.1 (not_le.mpr hdiv)
  rw [if_neg hdiv, and_iff_right (not_lt.mp hdiv)]
  by_cases hticks : r.stat.gameTicks < 100
  · rw [if_pos hticks]
    exact iff_of_false (by simp) fun hand => absurd hand.1 (not_le.mpr hticks)
  rw [if_neg hticks, and_iff_right (not_lt.mp hticks)]
  generalize lead r loser = l
  -- either of the two counts is enough in score mode 1
  by_cases hcontinuous : r.stat.scoreMode = 1
  · have hmomentum : ¬ r.stat.scoreMode = 2 := by omega
    rw [if_pos hcontinuous, and_iff_right hcontinuous]
    by_cases h1 : 2 ≤ l ∨ l ≤ -2
    · simp [h1]
    · by_cases hn : 3 ≤ n
      · simp [h1, hn]
      · simp [h1, hn, hmomentum]
  simp only [hcontinuous, if_false, false_and, false_or]
  -- in score mode 2 they must not disagree
  by_cases hmomentum : r.stat.scoreMode = 2
  · rw [if_pos hmomentum, and_iff_right hmomentum]
    by_cases h2 : l ≤ -2
    · have h4 : ¬ -2 < l := not_lt.mpr h2
      rw [if_neg (fun hand => h4 hand.2.1), if_pos h2]
      by_cases hn : 3 ≤ n
      · rw [if_pos ⟨hn, h2⟩, or_iff_right (not_lt.mpr hn)]
        simp
      · rw [if_neg (fun hand => hn hand.1)]
        exact iff_of_true (.inl (by decide)) (.inl (not_le.mp hn))
    · rw [if_neg h2]
      by_cases hnone : n < 3 ∧ -2 < l ∧ l < 2
      · rw [if_pos hnone]
        refine iff_of_false (by simp) ?_
        rintro (hn | h1)
        · omega
        · exact absurd h1 (not_le.mpr hnone.2.2)
      · rw [if_neg hnone, if_neg (fun hand => h2 hand.2)]
        refine iff_of_true (.inl (by decide)) ?_
        by_contra hno
        rw [not_or] at hno
        exact hnone ⟨not_le.mp hno.1, not_le.mp h2, not_le.mp hno.2⟩
  -- no other mode names a winner
  · rw [if_neg hmomentum]
    exact iff_of_false (by simp) fun hand => hmomentum hand.1

/-! ## The tick -/

/-- A genocide concerns players only. -/
theorem checkgeno_eq {r : Robot} {loser : Side} (h : genoLoser r = some loser) :
    ∃ players, checkgeno r = ({ r with mem := { r.mem with players := players } }, true) := by
  unfold checkgeno
  rw [h]
  exact ⟨_, rfl⟩

/-- After any run from a countdown on, a tick with a genocide sets exactly the ships of the race that owns no
planet exploding and ends the game exactly if the number of the losing side picks out the players of its race,
and the planets and the scores decide the game. -/
theorem genocide_tick {s r₀ r : Robot} {moments : List Moment} {mail : Mail} {loser : Side}
    (haction : s.game.action = .endTourney) (hrun : Run (fun _ _ => True) Moment.run (startCountdown s) moments r₀)
    (hplaying : playing (prepare r₀ mail) = true) (hr : play (prepare r₀ mail) mail = r)
    (hphase : phase r.stat.flags = sTourney ∨ phase r.stat.flags = sOvertime) (hgeno : Genocided r loser) :
    (RightShips r loser ∧ (inlmove r₀ mail).has (sTourney ||| sOvertime) = false) ↔
      (∀ j, (r.player j).status = .palive →
        ((r.player j).team = sideNumber loser ↔ (r.player j).team = (r.teams loser).side)) ∧
        Decided r loser (planetCount r.mem (r.teams loser.other).side) := by
  obtain ⟨players, hcheck⟩ := checkgeno_eq hgeno.genoLoser
  have hmove : inlmove r₀ mail = endTourney { r with mem := { r.mem with players := players } } mail.geno := by
    unfold inlmove
    dsimp only
    rw [if_pos hplaying, hr]
    unfold genoCheck
    rw [hcheck]
  have hcast : Cast r := by
    rw [← hr]
    exact ((cast_run haction hrun).prepare mail).play mail
  have hplays : r.has (sTourney ||| sOvertime) = true := by
    rcases hphase with htour | hover
    · exact (has_phase htour (by decide)).trans (by decide)
    · exact (has_phase hover (by decide)).trans (by decide)
  have hgeno' : Genocided { r with mem := { r.mem with players := players } } loser := ⟨hgeno.lost, hgeno.kept⟩
  rw [rightShips_iff hgeno, hmove, decided_iff hgeno' (hcast.chosen hplays) hphase]
  exact Iff.rfl

/-- The races are chosen, each has planets in a new galaxy, and the clock of a game waits; the server has one tick a second. -/
def gathered : Robot :=
  let r : Robot := default
  let x : Team := default
  let p : Planet := default
  { r with
    fps := 1
    virgin := fun l => { p with owner := if l.val < 20 then fed else rom }
    teams := fun t => { x with sideIndex := .race (if t = home then fedSide else romSide) }
    countdown := ⟨9, startCounts, 8, 0, .startTourney⟩
    game := ⟨0, gameCounts, 12, 0, .endTourney⟩
    stat := { r.stat with change := true, flags := sPregame, time := 60 * 60, overtime := 20 * 60 } }

/-- The away race owns no planet, and the home race two; a ship of the away race is alive. -/
def worn : Memory :=
  let p : Planet := default
  let q : Player := default
  let m : Memory := default
  { m with
    planets := fun l => { p with owner := if l.val < 2 then fed else kli }
    players := fun j => if j = 0 then { q with status := .palive, team := rom } else q }

/-- The minute of the countdown, and what happens to the planets. -/
def minute : List Moment := List.replicate 60 (.tick default) ++ [.world worn fun _ => 0]

/-- The game after it. -/
def lastPlanet : Robot := minute.foldl Moment.run (startCountdown gathered)

/-- It, at the check for a genocide. -/
def lastTick : Robot := play (prepare lastPlanet default) default

theorem playing_lastPlanet : playing (prepare lastPlanet default) = true := by decide +kernel

theorem phase_lastTick : phase lastTick.stat.flags = sTourney := by decide +kernel

theorem genocided_lastTick : Genocided lastTick away := ⟨by decide +kernel, by decide +kernel⟩

theorem genocide_tick_lastPlanet :
    (RightShips lastTick away ∧ (inlmove lastPlanet default).has (sTourney ||| sOvertime) = false) ↔
      (∀ j, (lastTick.player j).status = .palive →
        ((lastTick.player j).team = sideNumber away ↔ (lastTick.player j).team = (lastTick.teams away).side)) ∧
        Decided lastTick away (planetCount lastTick.mem (lastTick.teams away.other).side) :=
  genocide_tick (s := gathered) rfl (.all _ minute) playing_lastPlanet rfl (.inl phase_lastTick) genocided_lastTick

/-- The ship of the race that owns no planet lives on, and the game goes on to overtime. -/
theorem lastPlanet_lives : playing (prepare lastPlanet default) = true ∧ Genocided lastTick away ∧
    ¬ RightShips lastTick away ∧ (inlmove lastPlanet default).has sOvertime = true := by
  refine ⟨playing_lastPlanet, genocided_lastTick, fun hright => ?_, by decide +kernel⟩
  have hstatus : ((checkgeno lastTick).1.player 0).status = .palive := by decide +kernel
  have halive : (lastTick.player 0).status = .palive ∧
      (lastTick.player 0).team = (lastTick.teams away).side := by decide +kernel
  have h := hright 0
  rw [if_pos halive, hstatus] at h
  cases h

end Netrek.Inl
