/-
The choice of races before a league game. The races that two captains have chosen differ and are not
diagonal, and a game starts with such a pair unless the away captain passes after asking for the
start: the request stays, and `do_start` looks only at the side of the team that asks.
-/
import NetrekServer.Inl.Command
import NetrekServer.Lib.Run

namespace Netrek.Inl

open Netrek.Lib

/-! ## Before a game -/

/-- What happens before a game: a message is carried out, the captains are looked after, or the players and
the daemon change shared memory. -/
inductive Pregame
  | mess (m : Message)
  | maint
  | world (m : Memory)

def pregame (r : Robot) : Pregame → Robot
  | .mess m => checkmess [m] r
  | .maint => playerMaint r
  | .world m => { r with mem := m }

/-- The robot after `reset_inl`, with an empty log. -/
def fresh (r : Robot) (galaxy : Option (Fin maxPlanets → Planet)) : Robot := { resetInl r galaxy with log := [] }

/-- Two races that may play each other. -/
def Selected (h a : Choice) : Prop :=
  ∃ c d, h = .race c ∧ a = .race d ∧ c ≠ d ∧ diagonal c ≠ d ∧ diagonal d ≠ c

/-! ## The invariant -/

structure Races (r : Robot) : Prop where
  pair : ∀ c d, (r.teams home).sideIndex = .race c → (r.teams away).sideIndex = .race d →
    c ≠ d ∧ diagonal c ≠ d ∧ diagonal d ≠ c
  home : (r.teams home).sideIndex ≠ .relinquish
  start : ∀ t, (r.teams t).flags.has tStart = true → (r.teams t).sideIndex ≠ .notChoosen

theorem diagonal_diagonal (c : Fin 4) : diagonal (diagonal c) = c := by
  revert c
  decide

/-- A change that does not touch the choice of races. -/
structure Quiet (r r' : Robot) : Prop where
  index : ∀ t, (r'.teams t).sideIndex = (r.teams t).sideIndex
  start : ∀ t, (r'.teams t).flags.has tStart = true → (r.teams t).flags.has tStart = true
  log : r'.log = r.log

theorem Quiet.refl (r : Robot) : Quiet r r := ⟨fun _ => rfl, fun _ h => h, rfl⟩

theorem Quiet.trans {r₁ r₂ r₃ : Robot} (h : Quiet r₁ r₂) (h' : Quiet r₂ r₃) : Quiet r₁ r₃ :=
  ⟨fun t => (h'.index t).trans (h.index t), fun t ht => h.start t (h'.start t ht), h'.log.trans h.log⟩

theorem Races.quiet {r r' : Robot} (h : Races r) (hq : Quiet r r') : Races r' where
  pair c d := by rw [hq.index, hq.index]; exact h.pair c d
  home := by rw [hq.index]; exact h.home
  start t ht := by rw [hq.index]; exact h.start t (hq.start t ht)

theorem quiet_modifyTeam (r : Robot) (t : Side) (f : Team → Team) (hi : ∀ x, (f x).sideIndex = x.sideIndex)
    (hs : ∀ x : Team, (f x).flags.has tStart = true → x.flags.has tStart = true) : Quiet r (r.modifyTeam t f) := by
  refine ⟨fun i => ?_, fun i => ?_, rfl⟩
  all_goals
    rw [Robot.teams_modifyTeam]
    split
  · next h => rw [h, hi]
  · rfl
  · next h =>
    rw [h]
    exact hs _
  · exact id

theorem quiet_modifyTeams (r : Robot) (f : Team → Team) (hi : ∀ x, (f x).sideIndex = x.sideIndex)
    (hs : ∀ x : Team, (f x).flags.has tStart = true → x.flags.has tStart = true) : Quiet r (r.modifyTeams f) :=
  ⟨fun _ => hi _, fun _ => hs _, rfl⟩

theorem quiet_modifyPlayer (r : Robot) (i : Slot) (f : Player → Player) : Quiet r (r.modifyPlayer i f) :=
  ⟨fun _ => rfl, fun _ h => h, rfl⟩

theorem quiet_modifyStat (r : Robot) (f : Stats → Stats) : Quiet r (r.modifyStat f) :=
  ⟨fun _ => rfl, fun _ h => h, rfl⟩

/-! ## Commands that leave the races alone -/

theorem quiet_captain (r : Robot) (who : Slot) : Quiet r (doCaptain r who) := by
  unfold doCaptain
  split
  · exact Quiet.refl r
  · split
    · refine Quiet.trans (quiet_modifyTeam r _ _ ?_ ?_) (quiet_modifyPlayer _ _ _)
      · exact fun _ => rfl
      · exact fun _ h => h
    · split
      · refine quiet_modifyTeam r _ _ ?_ ?_
        · exact fun _ => rfl
        · exact fun _ h => h
      · exact Quiet.refl r

theorem quiet_uncaptain (r : Robot) (who : Slot) : Quiet r (doUncaptain r who) := by
  unfold doUncaptain
  split
  · exact Quiet.refl r
  · refine Quiet.trans (quiet_modifyTeam r _ _ ?_ ?_) (quiet_modifyPlayer _ _ _)
    · exact fun _ => rfl
    · exact fun _ h => h

theorem quiet_gametime (r : Robot) (who : Slot) (times : Option (Int × Int)) : Quiet r (doGametime r who times) := by
  unfold doGametime
  cases checkPlayer r who true with
  | none => exact Quiet.refl r
  | some num =>
    cases times with
    | none => exact Quiet.refl r
    | some x =>
      obtain ⟨time, overtime⟩ := x
      have h := quiet_modifyTeam r num (fun t => { t with time := time, overtime := overtime }) (fun _ => rfl) fun _ h => h
      dsimp only
      split
      · exact Quiet.refl r
      split
      · exact h
      · exact h.trans (quiet_modifyStat _ _)

theorem quiet_army (r : Robot) (who : Slot) (army : Option Int) : Quiet r (doArmy r who army) := by
  unfold doArmy
  cases checkPlayer r who true with
  | none => exact Quiet.refl r
  | some num =>
    cases army with
    | none => exact Quiet.refl r
    | some army =>
      have h := quiet_modifyTeam r num (fun t => { t with startArmies := army }) (fun _ => rfl) fun _ h => h
      dsimp only
      split
      · exact Quiet.refl r
      split
      · exact h
      · exact h.trans (quiet_modifyStat _ _)

theorem quiet_scoremode (r : Robot) (who : Slot) (mode : Option Int) : Quiet r (doScoremode r who mode) := by
  unfold doScoremode
  cases checkPlayer r who true with
  | none => exact Quiet.refl r
  | some num =>
    cases mode with
    | none => exact Quiet.refl r
    | some mode =>
      have h := quiet_modifyTeam r num (fun t => { t with scoreMode := mode }) (fun _ => rfl) fun _ h => h
      dsimp only
      split
      · exact Quiet.refl r
      split
      · exact Quiet.refl r
      split
      · exact h.trans (quiet_modifyStat _ _)
      · exact h

theorem quiet_register (r : Robot) (who : Slot) : Quiet r (doRegister r who) := by
  unfold doRegister
  split
  · exact Quiet.refl r
  · refine quiet_modifyTeam r _ _ ?_ ?_
    · exact fun _ => rfl
    · exact fun x hx => (Word.has_xor (by decide)).symm.trans hx

theorem quiet_confine (r : Robot) (who : Slot) : Quiet r (doConfine r who) := by
  unfold doConfine
  cases checkPlayer r who true with
  | none => exact Quiet.refl r
  | some num =>
    have hoff := quiet_modifyTeam r num (fun t => { t with flags := t.flags &&& ~~~tConfine }) (fun _ => rfl) fun x hx =>
      (Word.has_andNot (by decide)).symm.trans hx
    have hon := quiet_modifyTeam r num (fun t => { t with flags := t.flags ||| tConfine }) (fun _ => rfl) fun x hx =>
      (Word.has_or (by decide)).symm.trans hx
    dsimp only
    split
    · exact Quiet.refl r
    split
    · split
      · exact hoff
      · exact hoff.trans (quiet_modifyStat _ _)
    · exact hon.trans (quiet_modifyStat _ _)

theorem quiet_settlePause (r : Robot) : Quiet r (settlePause r) := by
  unfold settlePause
  split
  · have h := quiet_modifyTeams r (fun t => { t with flags := t.flags ||| tPause }) (fun _ => rfl) fun x hx =>
      (Word.has_or (by decide)).symm.trans hx
    exact ⟨h.index, h.start, rfl⟩
  · split
    · exact ⟨fun _ => rfl, fun _ h => h, rfl⟩
    · exact Quiet.refl r

/-- A pause says nothing of races. -/
theorem quiet_pause (r : Robot) (who : Slot) (request now : Bool) : Quiet r (doPause r who request now) := by
  unfold doPause
  cases checkPlayer r who true with
  | none => exact Quiet.refl r
  | some num =>
    have hset (x : Team) (hx : (x.flags ||| tPause).has tStart = true) : x.flags.has tStart = true :=
      (Word.has_or (by decide)).symm.trans hx
    have hall := quiet_modifyTeams r (fun t => { t with flags := t.flags ||| tPause }) (fun _ => rfl) hset
    have hon := quiet_modifyTeam r num (fun t => { t with flags := t.flags ||| tPause }) (fun _ => rfl) hset
    have hoff := quiet_modifyTeam r num (fun t => { t with flags := t.flags &&& ~~~tPause }) (fun _ => rfl) fun x hx =>
      (Word.has_andNot (by decide)).symm.trans hx
    dsimp only
    split
    · exact Quiet.refl r
    split
    · split
      · exact hall.trans (quiet_settlePause _)
      · exact hon.trans (quiet_settlePause _)
    split
    · exact Quiet.refl r
    · exact hoff.trans (quiet_settlePause _)

/-- A timeout says nothing of races. -/
theorem quiet_timeout (r : Robot) (who : Slot) : Quiet r (doTimeout r who) := by
  unfold doTimeout
  cases checkPlayer r who true with
  | none => exact Quiet.refl r
  | some num =>
    have hoff := quiet_modifyTeam r num (fun t => { t with flags := t.flags &&& ~~~tTimeout, tmout := t.tmout + 1 })
      (fun _ => rfl) fun x hx => (Word.has_andNot (by decide)).symm.trans hx
    have hon := quiet_modifyTeam r num (fun t => { t with flags := t.flags ||| tTimeout, tmout := t.tmout - 1 })
      (fun _ => rfl) fun x hx => (Word.has_or (by decide)).symm.trans hx
    dsimp only
    split
    · exact Quiet.refl r
    split
    · split
      · exact hoff
      · exact hoff.trans (quiet_modifyStat _ _)
    split
    · exact Quiet.refl r
    · exact hon.trans (quiet_modifyStat _ _)

/-! ## Commands that choose -/

/-- Picking a race keeps the pair of races valid. -/
theorem Races.pickRace {r : Robot} (h : Races r) (num : Side) (c : Fin 4) :
    Races (Inl.pickRace r num c) ∧ (Inl.pickRace r num c).log = r.log := by
  -- the team that picks, when the other team's race allows it
  have picked (r : Robot) (h : Races r)
      (hfree : ∀ o, (r.teams num.other).sideIndex = .race o → o ≠ c ∧ diagonal o ≠ c) :
      Races (r.modifyTeam num fun t => { t with sideIndex := .race c }) := by
    have hteams (i : Side) := r.teams_modifyTeam num i fun t => { t with sideIndex := .race c }
    refine ⟨fun x y hx hy => ?_, ?_, fun t ht => ?_⟩
    · rw [hteams] at hx hy
      rcases Side.cases num with rfl | rfl
      · rw [if_pos rfl] at hx
        rw [if_neg (by decide)] at hy
        cases hx
        obtain ⟨h1, h2⟩ := hfree y hy
        refine ⟨h1.symm, fun hd => h2 ?_, h2⟩
        rw [← hd, diagonal_diagonal]
      · rw [if_neg (by decide)] at hx
        rw [if_pos rfl] at hy
        cases hy
        obtain ⟨h1, h2⟩ := hfree x hx
        refine ⟨h1, h2, fun hd => h2 ?_⟩
        rw [← hd, diagonal_diagonal]
    · rw [hteams]
      split
      · nofun
      · exact h.home
    · rw [hteams] at ht ⊢
      split
      · nofun
      · next hn =>
        rw [if_neg hn] at ht
        exact h.start t ht
  unfold Inl.pickRace
  dsimp only
  split
  · next o ho =>
    split
    · exact ⟨h, rfl⟩
    split
    · exact ⟨h, rfl⟩
    · next hne hd =>
      have hlock := quiet_modifyTeam r num.other (fun t => { t with flags := t.flags ||| tSideLocked }) (fun _ => rfl)
        fun x hx => (Word.has_or (by decide)).symm.trans hx
      refine ⟨picked _ (h.quiet hlock) fun x hx => ?_, rfl⟩
      rw [hlock.index, ho] at hx
      cases hx
      exact ⟨hne, hd⟩
  · next hother =>
    exact ⟨picked r h fun x hx => absurd hx (hother x), rfl⟩

/-- A side that picks gets a race that the other does not have. -/
theorem Races.pickside {r : Robot} (h : Races r) (who : Slot) (pick : Option (Fin 4)) :
    Races (doPickside r who pick) ∧ (doPickside r who pick).log = r.log := by
  unfold doPickside
  split
  · exact ⟨h, rfl⟩
  cases checkPlayer r who true with
  | none => exact ⟨h, rfl⟩
  | some num =>
    dsimp only
    split
    · exact ⟨h, rfl⟩
    split
    · exact ⟨h, rfl⟩
    cases pick with
    | some c => exact h.pickRace num c
    | none =>
      dsimp only
      split
      · exact ⟨h, rfl⟩
      · next hn =>
        have hteams (i : Side) := r.teams_modifyTeam num i fun t => { t with sideIndex := .relinquish }
        have haway : num = away := (Side.cases num).resolve_left hn
        subst haway
        refine ⟨⟨fun x y hx hy => ?_, ?_, fun t ht => ?_⟩, rfl⟩
        · rw [hteams, if_pos rfl] at hy
          cases hy
        · rw [hteams, if_neg (by decide)]
          exact h.home
        · rw [hteams] at ht ⊢
          split
          · nofun
          · next hna =>
            rw [if_neg hna] at ht
            exact h.start t ht

/-- A new galaxy leaves the races. -/
theorem Races.resetgalaxy {r : Robot} (h : Races r) (who : Slot) (galaxy : Fin maxPlanets → Planet) :
    Races (doResetgalaxy r who galaxy) ∧ (doResetgalaxy r who galaxy).log = r.log := by
  unfold doResetgalaxy
  split
  · exact ⟨h, rfl⟩
  cases checkPlayer r who true with
  | none => exact ⟨h, rfl⟩
  | some num =>
    have hask := quiet_modifyTeam r num (fun t => { t with flags := t.flags ||| tResetGalaxy }) (fun _ => rfl)
      fun x hx => (Word.has_or (by decide)).symm.trans hx
    dsimp only
    split
    · refine ⟨⟨?_, ?_, fun t ht => ?_⟩, rfl⟩
      · exact (h.quiet hask).pair
      · exact (h.quiet hask).home
      · have ht : Word.has 0 tStart = true := ht
        cases ht
    · exact ⟨h.quiet hask, rfl⟩

/-! ## START -/

def Choice.isRace : Choice → Bool
  | .race _ => true
  | _ => false

/-- START begins the countdown: the team that asks has a race, the other team has asked, and the teams
agree on the game. -/
def completes (r : Robot) (who : Slot) : Bool :=
  r.stat.change &&
    match checkPlayer r who true with
    | none => false
    | some num =>
      !(r.has sDraft && r.mem.status.gameup.has guInlDrafting) && (r.teams num).sideIndex.isRace &&
        (r.teams num.other).flags.has tStart && agreed r

/-- The countdown that begins. -/
def startNote (r : Robot) : Note := .starting (r.teams home).sideIndex (r.teams away).sideIndex

theorem startCountdown_log (r : Robot) : (startCountdown r).log = startNote r :: r.log := by
  unfold startCountdown
  dsimp only [Robot.modifyStat]
  rw [obliterate_log]
  rfl

theorem Races.startCountdown {r : Robot} (h : Races r) : Races (Inl.startCountdown r) := by
  refine ⟨?_, ?_, fun t => ?_⟩
  · rw [startCountdown_teams, startCountdown_teams]
    exact h.pair
  · rw [startCountdown_teams]
    exact h.home
  · rw [startCountdown_teams]
    exact h.start t

theorem agreed_set (r : Robot) (num : Side) (m : Word) :
    agreed (r.modifyTeam num fun t => { t with flags := t.flags ||| m }) = agreed r := by
  have hteams (i : Side) := r.teams_modifyTeam num i fun t => { t with flags := t.flags ||| m }
  unfold agreed
  rw [hteams, hteams]
  rcases Side.cases num with rfl | rfl <;> rfl

/-- What asking for the start does: the countdown begins when the other team has asked and the teams agree. -/
theorem Races.requestStart {r : Robot} (h : Races r) {num : Side} (hnum : (r.teams num).sideIndex.isRace = true) :
    Races (Inl.requestStart r num) ∧ (Inl.requestStart r num).log =
      if ((r.teams num.other).flags.has tStart && agreed r) = true then startNote r :: r.log else r.log := by
  -- the request sets one flag of one team
  have hteams (i : Side) := r.teams_modifyTeam num i fun t => { t with flags := t.flags ||| tStart }
  have hindex (i : Side) : ((r.modifyTeam num fun t => { t with flags := t.flags ||| tStart }).teams i).sideIndex =
      (r.teams i).sideIndex := by
    rw [hteams]
    split
    · next hi => rw [hi]
    · rfl
  have hr : Races (r.modifyTeam num fun t => { t with flags := t.flags ||| tStart }) := by
    refine ⟨?_, ?_, fun t ht => ?_⟩
    · rw [hindex, hindex]
      exact h.pair
    · rw [hindex]
      exact h.home
    · rw [hindex]
      by_cases hi : t = num
      · subst hi
        intro hno
        rw [hno] at hnum
        cases hnum
      · rw [hteams, if_neg hi] at ht
        exact h.start t ht
  have hboth := bothHave_set r num (m := tStart) (by decide)
  have hagreed := agreed_set r num tStart
  unfold Inl.requestStart
  dsimp only
  rw [hboth, hagreed]
  -- the countdown starts when the other team has asked too and both agree
  cases (r.teams num.other).flags.has tStart with
  | false => exact ⟨hr, rfl⟩
  | true =>
    cases agreed r with
    | false => exact ⟨hr, rfl⟩
    | true =>
      -- then the requests are cleared, which changes no race
      have hclear := quiet_modifyTeams (r.modifyTeam num fun t => { t with flags := t.flags ||| tStart })
        (fun t => { t with flags := t.flags &&& ~~~tStart }) (fun _ => rfl) fun x hx => by
          unfold Word.has at hx
          rw [BitVec.and_assoc, BitVec.and_comm (~~~tStart)] at hx
          exact absurd hx (by simp)
      refine ⟨(hr.quiet hclear).startCountdown, ?_⟩
      have hnote : startNote ((r.modifyTeam num fun t => { t with flags := t.flags ||| tStart }).modifyTeams
          fun t => { t with flags := t.flags &&& ~~~tStart }) = startNote r := by
        unfold startNote
        rw [hclear.index, hclear.index, hindex, hindex]
      show (Inl.startCountdown _).log = _
      rw [startCountdown_log, hnote]
      rfl

/-- `do_start` for the team `num`, when no draft is going on. -/
theorem Races.askStart {r : Robot} (h : Races r) (num : Side) :
    Races (match (r.teams num).sideIndex with | .race _ => Inl.requestStart r num | _ => r) ∧
      (match (r.teams num).sideIndex with | .race _ => Inl.requestStart r num | _ => r).log =
        if ((r.teams num).sideIndex.isRace && (r.teams num.other).flags.has tStart && agreed r) = true then
          startNote r :: r.log
        else r.log := by
  cases hc : (r.teams num).sideIndex with
  | notChoosen => exact ⟨h, rfl⟩
  | relinquish => exact ⟨h, rfl⟩
  | race c => exact h.requestStart (by rw [hc]; rfl)

/-- A start that both sides want is noted with the races they have. -/
theorem Races.doStart {r : Robot} (h : Races r) (who : Slot) :
    Races (Inl.doStart r who) ∧
      (Inl.doStart r who).log = if completes r who = true then startNote r :: r.log else r.log := by
  unfold Inl.doStart completes
  cases r.stat.change with
  | false => exact ⟨h, rfl⟩
  | true =>
    cases checkPlayer r who true with
    | none => exact ⟨h, rfl⟩
    | some num =>
      cases hdraft : r.has sDraft with
      | false =>
        simp only [Bool.not_true, Bool.false_eq_true, if_false, Bool.false_and, hdraft, Bool.not_false, Bool.true_and]
        exact h.askStart num
      | true =>
        cases hup : r.mem.status.gameup.has guInlDrafting with
        | true =>
          simp only [Bool.not_true, Bool.false_eq_true, if_false, Bool.and_false, hdraft, Bool.and_self, Bool.false_and]
          exact ⟨h, rfl⟩
        | false =>
          -- the draft that is over is forgotten
          have hq := quiet_modifyStat r fun s => { s with flags := s.flags &&& ~~~sDraft }
          have hoff : (r.modifyStat fun s => { s with flags := s.flags &&& ~~~sDraft }).has sDraft = false := by
            show Word.has (r.stat.flags &&& ~~~sDraft) sDraft = false
            unfold Word.has
            rw [BitVec.and_assoc]
            simp [sDraft]
          simp only [Bool.not_true, Bool.false_eq_true, if_false, Bool.not_false, Bool.and_self, if_true, hoff,
            Bool.and_false, Bool.true_and]
          exact (h.quiet hq).askStart num

/-! ## Runs -/

/-- A step begins the countdown. -/
def begins (r : Robot) : Pregame → Bool
  | .mess ⟨who, .start⟩ => !r.has sCountdown && allowed r ⟨who, .start⟩ && completes r who
  | _ => false

/-- A step after which the countdown has begun only if `begins` says so. -/
def Selects (r r' : Robot) (began : Bool) : Prop :=
  Races r' ∧ ∀ h a, .starting h a ∈ r'.log ↔ .starting h a ∈ r.log ∨ began = true ∧ .starting h a = startNote r

theorem selects_quiet {r r' : Robot} (h : Races r) (hq : Quiet r r') : Selects r r' false :=
  ⟨h.quiet hq, fun _ _ => by rw [hq.log]; simp⟩

theorem selects_same {r r' : Robot} (h : Races r' ∧ r'.log = r.log) : Selects r r' false :=
  ⟨h.1, fun _ _ => by rw [h.2]; simp⟩

theorem quiet_restart (r : Robot) (who : Slot) : Quiet r (doRestart r who).1 := by
  unfold doRestart
  cases checkPlayer r who true with
  | none => exact Quiet.refl r
  | some num =>
    have h := quiet_modifyTeam r num (fun t => { t with flags := t.flags ||| tRestart }) (fun _ => rfl) fun x hx =>
      (Word.has_or (by decide)).symm.trans hx
    dsimp only
    split
    · exact Quiet.refl r
    · exact h

theorem resetInl_teams (r : Robot) (galaxy : Option (Fin maxPlanets → Planet)) (t : Side) :
    (resetInl r galaxy).teams t = freshTeam t (r.teams t) := by
  unfold resetInl
  cases galaxy with
  | none => rfl
  | some planets =>
    obtain ⟨m, hm, -⟩ := obliterate_eq (r.modifyStatus fun s =>
      { s with gameup := (s.gameup ||| (guChaos ||| guPractice)) &&& ~~~guPaused }) 1 .kprovidence
    dsimp only
    rw [Option.isSome_some, if_pos rfl, hm]
    rfl

theorem resetInl_log (r : Robot) (galaxy : Option (Fin maxPlanets → Planet)) : (resetInl r galaxy).log = r.log := by
  unfold resetInl
  cases galaxy with
  | none => rfl
  | some planets =>
    obtain ⟨m, hm, -⟩ := obliterate_eq (r.modifyStatus fun s =>
      { s with gameup := (s.gameup ||| (guChaos ||| guPractice)) &&& ~~~guPaused }) 1 .kprovidence
    dsimp only
    rw [Option.isSome_some, if_pos rfl, hm]
    rfl

/-- After `reset_inl` no race is chosen and nothing is asked for. -/
theorem races_resetInl (r : Robot) (galaxy : Option (Fin maxPlanets → Planet)) : Races (resetInl r galaxy) := by
  refine ⟨fun c d hc => ?_, ?_, fun t ht => ?_⟩
  · rw [resetInl_teams] at hc
    cases hc
  · rw [resetInl_teams]
    nofun
  · rw [resetInl_teams] at ht
    have ht : Word.has 0 tStart = true := ht
    cases ht

/-- Looking after the captains leaves the races alone. -/
theorem selects_forgetCaptain {r : Robot} (h : Races r) (t : Side) : Selects r (forgetCaptain r t) false := by
  unfold forgetCaptain
  split
  · exact selects_quiet h (Quiet.refl r)
  · split
    · have hq := quiet_modifyTeam r t (fun x => { x with captain := none }) (fun _ => rfl) fun _ h => h
      have hnone : ((r.modifyTeam t fun x => { x with captain := none }).teams t).captain = none := by
        rw [Robot.modifyTeam_self]
      dsimp only
      rw [hnone]
      refine ⟨⟨(h.quiet hq).pair, (h.quiet hq).home, (h.quiet hq).start⟩, fun a b => ?_⟩
      show _ ∈ Note.strayPlayer :: r.log ↔ _
      simp
    · exact selects_quiet h (Quiet.refl r)

theorem Selects.trans {r₁ r₂ r₃ : Robot} (h : Selects r₁ r₂ false) (h' : Selects r₂ r₃ false) : Selects r₁ r₃ false :=
  ⟨h'.1, fun a b => by rw [h'.2, h.2]; simp⟩

/-- Only a start that completes is noted. -/
theorem selects_obey {r : Robot} (h : Races r) (who : Slot) (c : Command) :
    Selects r (obey r who c) (match c with | .start => completes r who | _ => false) := by
  cases c with
  | captain => exact selects_quiet h (quiet_captain r who)
  | uncaptain => exact selects_quiet h (quiet_uncaptain r who)
  | pickside pick => exact selects_same (h.pickside who pick)
  | start =>
    obtain ⟨hr, hlog⟩ := h.doStart who
    refine ⟨hr, fun a b => ?_⟩
    show _ ∈ (doStart r who).log ↔ _
    rw [hlog]
    cases completes r who <;> simp [or_comm]
  | resetgalaxy galaxy => exact selects_same (h.resetgalaxy who galaxy)
  | gametime times => exact selects_quiet h (quiet_gametime r who times)
  | army army => exact selects_quiet h (quiet_army r who army)
  | scoremode mode => exact selects_quiet h (quiet_scoremode r who mode)
  | register => exact selects_quiet h (quiet_register r who)
  | confine => exact selects_quiet h (quiet_confine r who)
  | pause => exact selects_quiet h (quiet_pause r who true false)
  | pausenow => exact selects_quiet h (quiet_pause r who true true)
  | «continue» => exact selects_quiet h (quiet_pause r who false false)
  | timeout => exact selects_quiet h (quiet_timeout r who)
  | restart galaxy => exact selects_quiet h (Quiet.refl r)

/-- A message is noted as a start exactly if it completes one. -/
theorem selects_mess {r : Robot} (h : Races r) (m : Message) :
    Selects r (checkmess [m] r) (begins r (.mess m)) := by
  obtain ⟨who, c⟩ := m
  unfold checkmess
  split
  · next hno =>
    have hb : begins r (.mess ⟨who, c⟩) = false := by
      cases c with
      | start =>
        show (!r.has sCountdown && allowed r ⟨who, .start⟩ && completes r who) = false
        rcases (Bool.or_eq_true _ _).mp hno with hc | ha
        · rw [hc]
          rfl
        · rw [(Bool.not_eq_true' _).mp ha]
          simp
      | _ => rfl
    rw [hb]
    exact selects_quiet h (Quiet.refl r)
  · next hyes =>
    rw [Bool.not_eq_true, Bool.or_eq_false_iff, Bool.not_eq_false'] at hyes
    have hobey := selects_obey h who c
    cases c with
    | start =>
      have hb : begins r (.mess ⟨who, .start⟩) = completes r who := by
        show (!r.has sCountdown && allowed r ⟨who, .start⟩ && completes r who) = _
        rw [hyes.1, hyes.2]
        rfl
      rw [hb]
      exact hobey
    | restart galaxy =>
      have hq := quiet_restart r who
      dsimp only
      split
      · next r' hr =>
        rw [hr] at hq
        exact selects_same ⟨races_resetInl _ _, (resetInl_log _ _).trans hq.log⟩
      · next r' hr =>
        rw [hr] at hq
        exact selects_quiet h hq
    | _ => exact hobey

theorem selects_pregame {r : Robot} (h : Races r) (st : Pregame) : Selects r (pregame r st) (begins r st) := by
  cases st with
  | mess m => exact selects_mess h m
  | maint =>
    have hhome := selects_forgetCaptain h home
    exact hhome.trans (selects_forgetCaptain hhome.1 away)
  | world m => exact ⟨⟨h.pair, h.home, h.start⟩, fun a b => by simp [begins, pregame]⟩

/-- A countdown that begins does so with valid races, but for an away team that has passed. -/
theorem selected_startNote {r : Robot} (h : Races r) {st : Pregame} (hb : begins r st = true) :
    Selected (r.teams home).sideIndex (r.teams away).sideIndex ↔ (r.teams away).sideIndex ≠ .relinquish := by
  constructor
  · rintro ⟨c, d, -, hd, -⟩
    rw [hd]
    nofun
  · intro haway
    have hchosen : ∀ t, (r.teams t).sideIndex ≠ .notChoosen := by
      unfold begins at hb
      split at hb
      · next who =>
        unfold completes at hb
        cases hp : checkPlayer r who true with
        | none => simp [hp] at hb
        | some num =>
          simp only [hp, Bool.and_eq_true] at hb
          obtain ⟨-, -, ⟨⟨-, hrace⟩, hask⟩, -⟩ := hb
          intro t
          by_cases ht : t = num
          · subst ht
            intro hno
            rw [hno] at hrace
            cases hrace
          · rw [Side.eq_other ht]
            exact h.start _ hask
      · cases hb
    cases hh : (r.teams home).sideIndex with
    | notChoosen => exact absurd hh (hchosen home)
    | relinquish => exact absurd hh h.home
    | race c =>
      cases ha : (r.teams away).sideIndex with
      | notChoosen => exact absurd ha (hchosen away)
      | relinquish => exact absurd ha haway
      | race d => exact ⟨c, d, rfl, rfl, h.pair c d hh ha⟩

/-- No countdown begins while the away team has passed. -/
def Fine (r : Robot) (st : Pregame) : Prop := begins r st = true → (r.teams away).sideIndex ≠ .relinquish

/-- The countdowns that have begun have valid races. -/
def AllSelected (r : Robot) : Prop := ∀ h a, .starting h a ∈ r.log → Selected h a

/-- A step keeps the countdowns valid when it is fine, and only then. -/
theorem allSelected_pregame {r : Robot} (h : Races r) (hs : AllSelected r) (st : Pregame) :
    AllSelected (pregame r st) ↔ Fine r st := by
  obtain ⟨-, hlog⟩ := selects_pregame h st
  constructor
  · intro hall hb
    refine (selected_startNote h hb).mp (hall _ _ ?_)
    rw [hlog]
    exact .inr ⟨hb, rfl⟩
  · intro hfine a b hab
    rw [hlog] at hab
    rcases hab with hold | ⟨hb, hnew⟩
    · exact hs a b hold
    · cases hnew
      exact (selected_startNote h hb).mpr (hfine hb)

theorem starting_mem_run : ∀ (ops : List Pregame) {r : Robot} {h a : Choice}, Races r → .starting h a ∈ r.log →
    .starting h a ∈ (ops.foldl pregame r).log
  | [], _, _, _, _, hin => hin
  | st :: ops, _, h, a, hr, hin => by
    obtain ⟨hr', hlog⟩ := selects_pregame hr st
    exact starting_mem_run ops hr' ((hlog h a).mpr (.inl hin))

theorem allSelected_run : ∀ (ops : List Pregame) {r : Robot}, Races r → AllSelected r →
    (AllSelected (ops.foldl pregame r) ↔ Run Fine pregame r ops (ops.foldl pregame r))
  | [], r, _, hs => ⟨fun _ => .nil r, fun _ => hs⟩
  | st :: ops, r, h, hs => by
    have hstep := allSelected_pregame h hs st
    obtain ⟨hr, -⟩ := selects_pregame h st
    rw [List.foldl_cons]
    constructor
    · intro hall
      have hs' : AllSelected (pregame r st) := fun a b hab => hall a b (starting_mem_run ops hr hab)
      exact .cons (hstep.mp hs') ((allSelected_run ops hr hs').mp hall)
    · rintro (_ | ⟨hfine, hrun⟩)
      exact (allSelected_run ops hr (hstep.mpr hfine)).mpr hrun

/-- Whatever is sent after `reset_inl`, the games that start have two races that are not diagonal, exactly if
none is started while the away team has passed. -/
theorem races_at_start (r : Robot) (galaxy : Option (Fin maxPlanets → Planet)) (ops : List Pregame) :
    (∀ h a, .starting h a ∈ (ops.foldl pregame (fresh r galaxy)).log → Selected h a) ↔
      Run Fine pregame (fresh r galaxy) ops (ops.foldl pregame (fresh r galaxy)) := by
  have hreset := races_resetInl r galaxy
  exact allSelected_run ops ⟨hreset.pair, hreset.home, hreset.start⟩ fun _ _ hin => nomatch hin

/-- A player at home and one away. -/
def twoPlayers : Robot :=
  let r : Robot := default
  let member (team : Word) (queue : Nat) : Player :=
    let p : Player := default
    { p with status := .palive, team := team, wQueue := queue }
  (r.modifyPlayer 0 fun _ => member fed quHome).modifyPlayer 1 fun _ => member rom quAway

/-- The away captain asks for the start, and passes. -/
def passAfterStart : List Pregame :=
  let say (who : Slot) (c : Command) : Pregame := .mess ⟨who, c⟩
  [say 0 .captain, say 1 .captain, say 1 (.pickside (some fedSide)), say 1 .start,
    say 1 (.pickside none), say 0 (.pickside (some romSide)), say 0 .start]

theorem starting_relinquish : ¬ ∀ h a,
    .starting h a ∈ (passAfterStart.foldl pregame (fresh twoPlayers none)).log → Selected h a := by
  have hin : Note.starting (.race romSide) .relinquish ∈ (passAfterStart.foldl pregame (fresh twoPlayers none)).log := by
    decide +kernel
  intro hall
  obtain ⟨c, d, -, hd, -⟩ := hall _ _ hin
  cases hd

end Netrek.Inl
