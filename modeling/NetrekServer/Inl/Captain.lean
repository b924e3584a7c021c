/-
The captains of a league game. Who is captain is kept twice, in the table of the robot and as a flag of the
player in shared memory. The two agree as long as nobody is overthrown, no captain leaves, and no game is
restarted.
-/
import NetrekServer.Inl.Game
import NetrekServer.Lib.Run

namespace Netrek.Inl

open Netrek.Lib

/-! ## Players after a robot's action -/

section Players

variable (r : Robot) (i j : Slot)

theorem player_modifyPlayer (f : Player → Player) :
    (r.modifyPlayer j f).player i = if i = j then f (r.player j) else r.player i := by
  unfold Robot.modifyPlayer Robot.player Memory.modifyPlayer
  simp only [Function.update_apply]

/-- A captain, and a slot that is free, as they appear to the robot. -/
def captainFlag : Bool := (r.player i).inlCaptain
def isFree : Prop := (r.player i).status = .pfree

instance : Decidable (isFree r i) := inferInstanceAs (Decidable (_ = _))

end Players

/-- Nobody becomes captain, no slot changes hands, and the robot does not stray. -/
structure Tame (r r' : Robot) : Prop where
  flag : ∀ j, captainFlag r' j = true → captainFlag r j = true
  free : ∀ j, isFree r' j ↔ isFree r j
  stray : .strayPlayer ∈ r'.log → .strayPlayer ∈ r.log

theorem Tame.refl (r : Robot) : Tame r r := ⟨fun _ h => h, fun _ => Iff.rfl, id⟩

theorem Tame.trans {r₁ r₂ r₃ : Robot} (h : Tame r₁ r₂) (h' : Tame r₂ r₃) : Tame r₁ r₃ :=
  ⟨fun j hj => h.flag j (h'.flag j hj), fun j => (h'.free j).trans (h.free j), fun hs => h.stray (h'.stray hs)⟩

/-- Players are as they were. -/
theorem tame_rest {r r' : Robot} (hp : r'.mem.players = r.mem.players) (hl : r'.log = r.log) : Tame r r' := by
  refine ⟨fun j => ?_, fun j => ?_, fun hs => ?_⟩
  · unfold captainFlag Robot.player
    rw [hp]
    exact id
  · unfold isFree Robot.player
    rw [hp]
  · rwa [hl] at hs

theorem tame_modifyTeam (r : Robot) (t : Side) (f : Team → Team) : Tame r (r.modifyTeam t f) := tame_rest rfl rfl

/-- A player who does not become a captain, and neither joins nor leaves, changes nothing here. -/
theorem tame_modifyPlayer (r : Robot) (j : Slot) (f : Player → Player)
    (hf : (f (r.player j)).inlCaptain = true → (r.player j).inlCaptain = true)
    (hs : (f (r.player j)).status = .pfree ↔ (r.player j).status = .pfree) : Tame r (r.modifyPlayer j f) := by
  refine ⟨fun i => ?_, fun i => ?_, id⟩
  · unfold captainFlag
    rw [player_modifyPlayer]
    split
    · next h =>
      rw [h]
      exact hf
    · exact id
  · unfold isFree
    rw [player_modifyPlayer]
    split
    · next h =>
      rw [h]
      exact hs
    · exact Iff.rfl

theorem tame_note (r : Robot) {n : Note} (hn : n ≠ .strayPlayer) : Tame r (r.note n) :=
  ⟨fun _ h => h, fun _ => Iff.rfl, fun h => (List.mem_cons.mp h).resolve_left hn.symm⟩

/-! ## Obliteration -/

theorem tame_dropArmies (r : Robot) (j : Slot) : Tame r (dropArmies r j) := by
  have hdrop (r : Robot) : Tame r (r.modifyPlayer j fun p => { p with armies := 0 }) :=
    tame_modifyPlayer r j _ id Iff.rfl
  unfold dropArmies
  dsimp only
  split
  · split
    · exact Tame.refl r
    · next l _ =>
      split
      · refine Tame.trans ?_ (hdrop { r with mem := r.mem.modifyPlanet l fun x =>
          { x with armies := x.armies + (r.player j).armies } })
        exact tame_rest rfl rfl
      · exact Tame.refl r
  · exact Tame.refl r

/-- A ship that explodes, in a slot that is not free. -/
theorem tame_explode (wflag : Nat) (kreason : WhyDead) {r : Robot} {j : Slot} (hfree : ¬ isFree r j) :
    Tame r (if (r.player j).status = .pobserv then
        r.modifyPlayer j fun p => { p with status := .pexplode, whydead := kreason }
      else if !(r.player j).flags.has pfRobot && decide (r.pos j < 0) then
        r.modifyPlayer j fun p => { p with status := .pexplode, whydead := .kquit, explode := 10, whodead := 0 }
      else dropArmies (r.modifyPlayer j (explodeShip wflag kreason)) j) := by
  split
  · exact tame_modifyPlayer r j _ id ⟨fun h => (nomatch h), fun h => absurd h hfree⟩
  split
  · exact tame_modifyPlayer r j _ id ⟨fun h => (nomatch h), fun h => absurd h hfree⟩
  · refine Tame.trans (tame_modifyPlayer r j (explodeShip wflag kreason) ?_ ?_) (tame_dropArmies _ j)
    · exact id
    · exact ⟨fun h => (nomatch (show PStatus.pexplode = .pfree from h)), fun h => absurd h hfree⟩

/-- One turn of the loop. At the end of a tournament it takes the flag from the player. -/
theorem obliterateOne_tame (wflag : Nat) (kreason : WhyDead) (r : Robot) (j : Slot) :
    Tame r (obliterateOne wflag kreason r j) ∧
      (kreason = .tournend → ¬ isFree r j → captainFlag (obliterateOne wflag kreason r j) j = false) := by
  by_cases hfree : isFree r j
  · have hstatus : (r.player j).status = .pfree := hfree
    unfold obliterateOne
    rw [if_pos hstatus]
    exact ⟨Tame.refl r, fun _ h => absurd hfree h⟩
  · obtain ⟨r₁, hr₁, ht, hflag⟩ : ∃ r₁, (if kreason = .tournend then
        r.modifyPlayer j fun p => { p with inlCaptain := false } else r) = r₁ ∧ Tame r r₁ ∧
        (kreason = .tournend → captainFlag r₁ j = false) := by
      refine ⟨_, rfl, ?_⟩
      by_cases hend : kreason = .tournend
      · rw [if_pos hend]
        refine ⟨tame_modifyPlayer r j _ (fun h => nomatch h) Iff.rfl, fun _ => ?_⟩
        unfold captainFlag
        rw [player_modifyPlayer, if_pos rfl]
      · rw [if_neg hend]
        exact ⟨Tame.refl r, fun h => absurd h hend⟩
    have hexplode := tame_explode wflag kreason (r := r₁) (j := j) fun h => hfree ((ht.free j).mp h)
    have heq : obliterateOne wflag kreason r j = if (r₁.player j).status = .pobserv then
        r₁.modifyPlayer j fun p => { p with status := .pexplode, whydead := kreason }
      else if !(r₁.player j).flags.has pfRobot && decide (r₁.pos j < 0) then
        r₁.modifyPlayer j fun p => { p with status := .pexplode, whydead := .kquit, explode := 10, whodead := 0 }
      else dropArmies (r₁.modifyPlayer j (explodeShip wflag kreason)) j := by
      have hstatus : (r.player j).status ≠ .pfree := hfree
      unfold obliterateOne
      rw [if_neg hstatus]
      dsimp only
      rw [hr₁]
    rw [heq]
    refine ⟨ht.trans hexplode, fun hend _ => ?_⟩
    by_contra hset
    rw [Bool.not_eq_false] at hset
    have hset' := hexplode.flag j hset
    rw [hflag hend] at hset'
    cases hset'

theorem obliterateAll_tame (wflag : Nat) (kreason : WhyDead) : ∀ (l : List Slot) (r : Robot),
    Tame r (l.foldl (obliterateOne wflag kreason) r) ∧
      (kreason = .tournend → ∀ j ∈ l, ¬ isFree r j → captainFlag (l.foldl (obliterateOne wflag kreason) r) j = false)
  | [], r => ⟨Tame.refl r, fun _ _ h => nomatch h⟩
  | k :: l, r => by
    obtain ⟨hone, hclear⟩ := obliterateOne_tame wflag kreason r k
    obtain ⟨hall, hclears⟩ := obliterateAll_tame wflag kreason l (obliterateOne wflag kreason r k)
    rw [List.foldl_cons]
    refine ⟨hone.trans hall, fun hend j hj hfree => ?_⟩
    by_contra hset
    rw [Bool.not_eq_false] at hset
    rcases List.mem_cons.mp hj with rfl | hmem
    · have hset' := hall.flag _ hset
      rw [hclear hend hfree] at hset'
      cases hset'
    · rw [hclears hend j hmem fun h => hfree ((hone.free j).mp h)] at hset
      cases hset

theorem tame_obliterate (r : Robot) (wflag : Nat) (kreason : WhyDead) : Tame r (obliterate r wflag kreason) := by
  unfold obliterate
  refine Tame.trans ?_ (obliterateAll_tame wflag kreason (List.finRange maxPlayer) _).1
  exact tame_rest rfl rfl

/-- At the end of a tournament nobody who is there is captain. -/
theorem obliterate_tournend (r : Robot) (wflag : Nat) (j : Slot) (hfree : ¬ isFree r j) :
    captainFlag (obliterate r wflag .tournend) j = false := by
  unfold obliterate
  exact (obliterateAll_tame wflag .tournend (List.finRange maxPlayer) _).2 rfl j (List.mem_finRange j) hfree

/-! ## Commands other than CAPTAIN -/

theorem tame_uncaptain (r : Robot) (who : Slot) : Tame r (doUncaptain r who) := by
  unfold doUncaptain
  split
  · exact Tame.refl r
  · refine Tame.trans (tame_modifyTeam r _ _) (tame_modifyPlayer _ who _ ?_ ?_)
    · exact fun h => (nomatch h)
    · exact Iff.rfl

/-- Picking a side concerns no captain. -/
theorem tame_pickside (r : Robot) (who : Slot) (pick : Option (Fin 4)) : Tame r (doPickside r who pick) := by
  unfold doPickside
  split
  · exact Tame.refl r
  cases checkPlayer r who true with
  | none => exact Tame.refl r
  | some num =>
    dsimp only
    split
    · exact Tame.refl r
    split
    · exact Tame.refl r
    cases pick with
    | none =>
      dsimp only
      split
      · exact Tame.refl r
      · exact tame_rest rfl rfl
    | some c =>
      dsimp only
      unfold pickRace
      dsimp only
      split
      · split
        · exact Tame.refl r
        split
        · exact Tame.refl r
        · exact tame_rest rfl rfl
      · exact tame_rest rfl rfl

theorem tame_startCountdown (r : Robot) : Tame r (startCountdown r) := by
  have hnote := tame_note r (n := .starting (r.teams home).sideIndex (r.teams away).sideIndex) (by nofun)
  unfold startCountdown
  dsimp only [Robot.modifyStat]
  generalize hX : setMasks _ _ _ = X
  have hmasks : Tame r X := by
    rw [← hX]
    exact hnote.trans (tame_rest rfl rfl)
  have h := hmasks.trans (tame_obliterate X 2 .kprovidence)
  generalize obliterate X 2 .kprovidence = Y at h ⊢
  exact h.trans (tame_rest rfl rfl)

/-- A start concerns no captain, though ships are obliterated. -/
theorem tame_start (r : Robot) (who : Slot) : Tame r (doStart r who) := by
  have hrequest (r : Robot) (num : Side) : Tame r (requestStart r num) := by
    unfold requestStart
    dsimp only
    split
    · exact tame_rest rfl rfl
    split
    · exact tame_rest rfl rfl
    · refine Tame.trans ?_ (tame_startCountdown _)
      exact tame_rest rfl rfl
  unfold doStart
  split
  · exact Tame.refl r
  cases checkPlayer r who true with
  | none => exact Tame.refl r
  | some num =>
    obtain ⟨r', hr', htame⟩ : ∃ r', (if (r.has sDraft && !r.mem.status.gameup.has guInlDrafting) = true then
        r.modifyStat fun s => { s with flags := s.flags &&& ~~~sDraft } else r) = r' ∧ Tame r r' := by
      refine ⟨_, rfl, ?_⟩
      split
      · exact tame_rest rfl rfl
      · exact Tame.refl r
    dsimp only
    rw [hr']
    split
    · exact htame
    split
    · exact htame.trans (hrequest r' num)
    · exact htame

theorem tame_resetgalaxy (r : Robot) (who : Slot) (galaxy : Fin maxPlanets → Planet) :
    Tame r (doResetgalaxy r who galaxy) := by
  unfold doResetgalaxy
  split
  · exact Tame.refl r
  cases checkPlayer r who true with
  | none => exact Tame.refl r
  | some num =>
    dsimp only
    split
    · exact tame_rest rfl rfl
    · exact tame_rest rfl rfl

theorem tame_gametime (r : Robot) (who : Slot) (times : Option (Int × Int)) : Tame r (doGametime r who times) := by
  unfold doGametime
  split
  · dsimp only
    split
    · exact Tame.refl r
    split
    · exact tame_rest rfl rfl
    · exact tame_rest rfl rfl
  · exact Tame.refl r

theorem tame_army (r : Robot) (who : Slot) (army : Option Int) : Tame r (doArmy r who army) := by
  unfold doArmy
  split
  · dsimp only
    split
    · exact Tame.refl r
    split
    · exact tame_rest rfl rfl
    · exact tame_rest rfl rfl
  · exact Tame.refl r

theorem tame_scoremode (r : Robot) (who : Slot) (mode : Option Int) : Tame r (doScoremode r who mode) := by
  unfold doScoremode
  split
  · dsimp only
    split
    · exact Tame.refl r
    split
    · exact Tame.refl r
    split
    · exact tame_rest rfl rfl
    · exact tame_rest rfl rfl
  · exact Tame.refl r

theorem tame_register (r : Robot) (who : Slot) : Tame r (doRegister r who) := by
  unfold doRegister
  split
  · exact Tame.refl r
  · exact tame_rest rfl rfl

theorem tame_confine (r : Robot) (who : Slot) : Tame r (doConfine r who) := by
  unfold doConfine
  cases checkPlayer r who true with
  | none => exact Tame.refl r
  | some num =>
    dsimp only
    split
    · exact Tame.refl r
    split
    · split
      · exact tame_rest rfl rfl
      · exact tame_rest rfl rfl
    · exact tame_rest rfl rfl

theorem tame_settlePause (r : Robot) : Tame r (settlePause r) := by
  unfold settlePause
  split
  · exact ⟨fun _ h => h, fun _ => Iff.rfl, id⟩
  split
  · exact tame_rest rfl rfl
  · exact Tame.refl r

/-- A pause concerns no captain. -/
theorem tame_pause (r : Robot) (who : Slot) (request now : Bool) : Tame r (doPause r who request now) := by
  unfold doPause
  cases checkPlayer r who true with
  | none => exact Tame.refl r
  | some num =>
    dsimp only
    split
    · exact Tame.refl r
    split
    · split
      · refine Tame.trans ?_ (tame_settlePause _)
        exact tame_rest rfl rfl
      · refine Tame.trans ?_ (tame_settlePause _)
        exact tame_rest rfl rfl
    split
    · exact Tame.refl r
    · refine Tame.trans ?_ (tame_settlePause _)
      exact tame_rest rfl rfl

theorem tame_timeout (r : Robot) (who : Slot) : Tame r (doTimeout r who) := by
  unfold doTimeout
  cases checkPlayer r who true with
  | none => exact Tame.refl r
  | some num =>
    dsimp only
    split
    · exact Tame.refl r
    split
    · split
      · exact tame_rest rfl rfl
      · exact tame_rest rfl rfl
    split
    · exact Tame.refl r
    · exact tame_rest rfl rfl

theorem tame_restart (r : Robot) (who : Slot) : Tame r (doRestart r who).1 := by
  unfold doRestart
  cases checkPlayer r who true with
  | none => exact Tame.refl r
  | some num =>
    dsimp only
    split
    · exact Tame.refl r
    · exact tame_rest rfl rfl

/-- Who sends CAPTAIN becomes captain. -/
def crowns (r : Robot) (who : Slot) : Bool :=
  match checkPlayer r who false with
  | none => false
  | some num => (r.teams num).captain.isNone

/-- A CAPTAIN that is refused makes no captain. -/
theorem tame_captain {r : Robot} {who : Slot} (hc : crowns r who = false) : Tame r (doCaptain r who) := by
  unfold crowns at hc
  unfold doCaptain
  cases hnum : checkPlayer r who false with
  | none => exact Tame.refl r
  | some num =>
    rw [hnum] at hc
    cases hcap : (r.teams num).captain with
    | none =>
      dsimp only at hc
      rw [hcap] at hc
      cases hc
    | some c =>
      dsimp only
      rw [hcap]
      dsimp only
      split
      · exact tame_modifyTeam r num _
      · exact Tame.refl r

def Command.isCaptain : Command → Bool
  | .captain => true
  | _ => false

/-- No command but a CAPTAIN that is granted makes a captain. -/
theorem tame_obey (r : Robot) (who : Slot) (c : Command) (hc : (c.isCaptain && crowns r who) = false) :
    Tame r (obey r who c) := by
  cases c with
  | captain => exact tame_captain hc
  | uncaptain => exact tame_uncaptain r who
  | pickside pick => exact tame_pickside r who pick
  | start => exact tame_start r who
  | resetgalaxy galaxy => exact tame_resetgalaxy r who galaxy
  | gametime times => exact tame_gametime r who times
  | army army => exact tame_army r who army
  | scoremode mode => exact tame_scoremode r who mode
  | register => exact tame_register r who
  | confine => exact tame_confine r who
  | pause => exact tame_pause r who true false
  | pausenow => exact tame_pause r who true true
  | «continue» => exact tame_pause r who false false
  | timeout => exact tame_timeout r who
  | restart galaxy => exact Tame.refl r

theorem tame_resetInl (r : Robot) (galaxy : Option (Fin maxPlanets → Planet)) : Tame r (resetInl r galaxy) := by
  unfold resetInl
  cases galaxy with
  | none => exact tame_rest rfl rfl
  | some planets =>
    dsimp only
    rw [Option.isSome_some, if_pos rfl]
    generalize hX : r.modifyStatus _ = X
    have hstatus : Tame r X := by
      rw [← hX]
      exact tame_rest rfl rfl
    have h := hstatus.trans (tame_obliterate X 1 .kprovidence)
    generalize obliterate X 1 .kprovidence = Y at h ⊢
    exact h.trans (tame_rest rfl rfl)

/-- What a message does at once. -/
def heard (r : Robot) (m : Message) : Robot :=
  if r.has sCountdown || !allowed r m then r
  else
    match m.command with
    | .restart _ => (doRestart r m.sender).1
    | c => obey r m.sender c

/-- No message makes a captain. -/
def uncrowned : List Message → Robot → Bool
  | [], _ => true
  | m :: ms, r =>
    (r.has sCountdown || !allowed r m || !(m.command.isCaptain && crowns r m.sender)) && uncrowned ms (heard r m)

/-- Messages among which no CAPTAIN is granted make no captain. -/
theorem tame_checkmess : ∀ (ms : List Message) (r : Robot), uncrowned ms r = true → Tame r (checkmess ms r)
  | [], r, _ => Tame.refl r
  | m :: ms, r, hms => by
    obtain ⟨hone, hrest⟩ := (Bool.and_eq_true _ _).mp hms
    have hrest := tame_checkmess ms (heard r m) hrest
    unfold heard at hrest
    unfold checkmess
    split
    · next hno =>
      rw [if_pos hno] at hrest
      exact hrest
    · next hyes =>
      rw [if_neg hyes] at hrest
      have hcrown : (m.command.isCaptain && crowns r m.sender) = false := by
        rcases (Bool.or_eq_true _ _).mp hone with hno | hmade
        · exact absurd hno hyes
        · exact (Bool.not_eq_true' _).mp hmade
      have hobey := tame_obey r m.sender m.command hcrown
      obtain ⟨who, c⟩ := m
      cases c with
      | restart galaxy =>
        have hq := tame_restart r who
        dsimp only at hrest ⊢
        split
        · next r' hr =>
          rw [hr] at hq hrest
          exact (hq.trans hrest).trans (tame_resetInl _ _)
        · next r' hr =>
          rw [hr] at hq hrest
          exact hq.trans hrest
      | _ => exact hobey.trans hrest

/-! ## The end of a game -/

/-- `end_tourney` up to `obliterate`, and up to the messages. -/
def atEnd (r : Robot) : Robot :=
  let r := setMasks (r.note .gameOver) homeTeam awayTeam
  { r with mem := { r.mem with planets := fun l => { r.mem.planets l with info := allTeam } } }

def ended (r : Robot) : Robot :=
  let r := (obliterate (atEnd r) 1 .tournend).modifyStatus fun s =>
    { s with tourn := false, gameup := (s.gameup ||| (guChaos ||| guPractice)) &&& ~~~(guPaused &&& guInlDrafted) }
  tellCaptains { r with pos := fun _ => -1 }

theorem gameOver_eq (r : Robot) (flush : List Message) :
    gameOver r flush = resetInl (checkmess flush (ended r)) none := rfl

theorem tellCaptains_tame {r : Robot} (h : bothHave r tRegister = true → ∀ t, (r.teams t).captain ≠ none) :
    Tame r (tellCaptains r) := by
  have hone (r : Robot) {c : Option Slot} (hc : c ≠ none) : Tame r (r.modifyCaptain c fun p => p) := by
    cases c with
    | none => exact absurd rfl hc
    | some c => exact tame_modifyPlayer r c _ id Iff.rfl
  unfold tellCaptains
  split
  · next hboth =>
    have hcaptain := h hboth
    simp only [List.foldl_cons, List.foldl_nil]
    refine Tame.trans (hone r (hcaptain home)) (hone _ ?_)
    cases hc : (r.teams home).captain with
    | none => exact absurd hc (hcaptain home)
    | some c => exact hcaptain away
  · exact Tame.refl r

/-- At the end of a game nobody who is there is captain. -/
theorem ended_tame {r : Robot} (h : bothHave r tRegister = true → ∀ t, (r.teams t).captain ≠ none) :
    Tame r (ended r) ∧ ∀ j, ¬ isFree r j → captainFlag (ended r) j = false := by
  have hstart : Tame r (atEnd r) := by
    refine (tame_note r (n := .gameOver) (by nofun)).trans ?_
    exact tame_rest rfl rfl
  have hflag (j : Slot) := obliterate_tournend (atEnd r) 1 j
  have hteams := obliterate_teams (atEnd r) 1 .tournend
  have hobl := hstart.trans (tame_obliterate (atEnd r) 1 .tournend)
  unfold ended
  generalize obliterate (atEnd r) 1 .tournend = Y at hflag hteams hobl ⊢
  dsimp only
  generalize hZ : Robot.modifyStatus Y _ = Z
  have hrest : Tame Y { Z with pos := fun _ => -1 } := by
    rw [← hZ]
    exact tame_rest rfl rfl
  have htold : Tame { Z with pos := fun _ => -1 } (tellCaptains { Z with pos := fun _ => -1 }) := by
    refine tellCaptains_tame ?_
    rw [← hZ]
    show bothHave Y tRegister = true → ∀ t, (Y.teams t).captain ≠ none
    unfold bothHave
    rw [hteams]
    exact h
  have hend := hrest.trans htold
  refine ⟨hobl.trans hend, fun j hfree => ?_⟩
  by_contra hset
  rw [Bool.not_eq_false] at hset
  have hset := hend.flag j hset
  rw [hflag j fun hf => hfree ((hstart.free j).mp hf)] at hset
  cases hset

/-! ## Runs -/

/-- The robot, and the slots whose process has not started yet. -/
structure Scene where
  robot : Robot
  starting : Slot → Bool

inductive Deed
  | captain (who : Slot)
  | uncaptain (who : Slot)
  | restart (who : Slot) (galaxy : Fin maxPlanets → Planet) (flush : List Message)
  /-- A game is over. -/
  | finish (flush : List Message)
  | maint
  | freeslot (j : Slot)
  | pickslot (j : Slot)
  /-- The process of a new player sets its slot up. -/
  | start (j : Slot)
  /-- Whatever else happens. -/
  | beside (r : Robot)

def Scene.on (s : Scene) (r : Robot) : Scene := { s with robot := r }

/-- `do_restart`. -/
def restart (r : Robot) (who : Slot) (galaxy : Fin maxPlanets → Planet) (flush : List Message) : Robot :=
  match doRestart r who with
  | (r, true) => resetInl (checkmess flush r) (some galaxy)
  | (r, false) => r

def Deed.run (s : Scene) : Deed → Scene
  | .captain who => s.on (doCaptain s.robot who)
  | .uncaptain who => s.on (doUncaptain s.robot who)
  | .restart who galaxy flush => s.on (Inl.restart s.robot who galaxy flush)
  | .finish flush => s.on (gameOver s.robot flush)
  | .maint => s.on (playerMaint s.robot)
  | .freeslot j =>
    ⟨s.robot.modifyPlayer j fun p => { p with status := .pfree, flags := 0 }, Function.update s.starting j false⟩
  | .pickslot j =>
    if (s.robot.player j).status = .pfree then
      ⟨s.robot.modifyPlayer j fun p => { p with status := .poutfit, team := nobody, flags := 0 },
        Function.update s.starting j true⟩
    else s
  | .start j => ⟨s.robot.modifyPlayer j fun p => { p with inlCaptain := false }, Function.update s.starting j false⟩
  | .beside r => s.on r

/-- Who is captain, who is there, and the notes of the robot stay as they are. -/
structure Beside (r r' : Robot) : Prop where
  captain : ∀ t, (r'.teams t).captain = (r.teams t).captain
  flag : ∀ j, captainFlag r' j = captainFlag r j
  free : ∀ j, isFree r' j ↔ isFree r j
  stray : .strayPlayer ∈ r'.log ↔ .strayPlayer ∈ r.log

/-- A player is heard when the process has started, which it does once. -/
def Deed.lawful (s : Scene) : Deed → Prop
  | .captain who | .uncaptain who | .restart who _ _ => s.starting who = false
  | .start j => s.starting j = true
  | .beside r => Beside s.robot r
  | _ => True

/-- A captain is made of a player who is there and is not captain, and nobody is overthrown; no slot of a captain is
freed; no game is restarted; and when a game is over nobody becomes captain, and both captains are there if
both have registered. -/
def Deed.fine (s : Scene) : Deed → Prop
  | .captain who =>
    ∀ num, checkPlayer s.robot who false = some num →
      if (s.robot.teams num).captain = none then ¬ isFree s.robot who ∧ captainFlag s.robot who = false
      else ∀ c, (s.robot.teams num).captain = some c → (s.robot.player c).status = .palive
  | .restart who _ _ =>
    ∀ num, checkPlayer s.robot who true = some num → s.robot.has sPregame = false →
      (s.robot.teams num.other).flags.has tRestart = false
  | .finish flush =>
    (bothHave s.robot tRegister = true → ∀ t, (s.robot.teams t).captain ≠ none) ∧
      uncrowned flush (ended s.robot) = true
  | .freeslot j => captainFlag s.robot j = false
  | _ => True

/-- The table and the flags agree, and `players[NONE]` has not been accessed. -/
structure Agreed (r : Robot) : Prop where
  captain : ∀ t c, (r.teams t).captain = some c → ¬ isFree r c ∧ captainFlag r c = true
  player : ∀ j, ¬ isFree r j → captainFlag r j = true → ∃! t, (r.teams t).captain = some j
  stray : .strayPlayer ∉ r.log

/-- They agree, and no slot that is free or starting has the flag. -/
structure Orderly (s : Scene) : Prop where
  captain : ∀ t c, (s.robot.teams t).captain = some c → ¬ isFree s.robot c ∧ captainFlag s.robot c = true
  player : ∀ j, captainFlag s.robot j = true → ¬ isFree s.robot j ∧ ∃! t, (s.robot.teams t).captain = some j
  starting : ∀ j, s.starting j = true → captainFlag s.robot j = false
  stray : .strayPlayer ∉ s.robot.log

theorem Orderly.agreed {s : Scene} (h : Orderly s) : Agreed s.robot :=
  ⟨h.captain, fun j _ hj => (h.player j hj).2, h.stray⟩

theorem Orderly.beside {s : Scene} (h : Orderly s) {r : Robot} (hb : Beside s.robot r) : Orderly (s.on r) := by
  refine ⟨fun t c hc => ?_, fun j hj => ?_, fun j hj => ?_, fun hs => h.stray (hb.stray.mp hs)⟩
  · have hc : (r.teams t).captain = some c := hc
    rw [hb.captain] at hc
    obtain ⟨hfree, hflag⟩ := h.captain t c hc
    exact ⟨fun hf => hfree ((hb.free c).mp hf), (hb.flag c).trans hflag⟩
  · have hj : captainFlag r j = true := hj
    rw [hb.flag] at hj
    obtain ⟨hfree, t, ht, huniq⟩ := h.player j hj
    exact ⟨fun hf => hfree ((hb.free j).mp hf), t, (hb.captain t).trans ht, fun t' ht' =>
      huniq t' ((hb.captain t').symm.trans ht')⟩
  · exact (hb.flag j).trans (h.starting j hj)

theorem checkPlayer_captain {r : Robot} {who : Slot} {num : Side} (h : checkPlayer r who true = some num) :
    (r.teams num).captain = some who := by
  unfold checkPlayer at h
  dsimp only at h
  split at h
  · cases h
  · split at h
    · cases h
    · split at h
      · cases h
      · next hno =>
        cases h
        by_contra hne
        exact hno ⟨rfl, hne⟩

/-! ## Steps -/

section Steps

variable {s : Scene}

theorem captainFlag_modifyPlayer (r : Robot) (j i : Slot) (f : Player → Player) :
    captainFlag (r.modifyPlayer j f) i = if i = j then (f (r.player j)).inlCaptain else captainFlag r i := by
  unfold captainFlag
  rw [player_modifyPlayer]
  split <;> rfl

theorem isFree_modifyPlayer (r : Robot) (j i : Slot) (f : Player → Player) :
    isFree (r.modifyPlayer j f) i ↔ if i = j then (f (r.player j)).status = .pfree else isFree r i := by
  unfold isFree
  rw [player_modifyPlayer]
  split <;> rfl

/-- A player becomes captain. -/
theorem Orderly.captainOf (h : Orderly s) {num : Side} {who : Slot} (hnone : (s.robot.teams num).captain = none)
    (hfree : ¬ isFree s.robot who) (hflag : captainFlag s.robot who = false) (hstart : s.starting who = false) :
    Orderly (s.on ((s.robot.modifyTeam num fun t => { t with captain := some who }).modifyPlayer who fun p =>
      { p with inlCaptain := true })) := by
  -- the step writes one team's captain and one player's flag
  have hteams (t : Side) : (((s.robot.modifyTeam num fun t => { t with captain := some who }).modifyPlayer who fun p =>
      { p with inlCaptain := true }).teams t).captain = if t = num then some who else (s.robot.teams t).captain := by
    show ((s.robot.modifyTeam num fun t => { t with captain := some who }).teams t).captain = _
    rw [Robot.teams_modifyTeam]
    split <;> rfl
  have hflags (j : Slot) : captainFlag ((s.robot.modifyTeam num fun t => { t with captain := some who }).modifyPlayer who
      fun p => { p with inlCaptain := true }) j = if j = who then true else captainFlag s.robot j := by
    rw [captainFlag_modifyPlayer]
    rfl
  have hfrees (j : Slot) : isFree ((s.robot.modifyTeam num fun t => { t with captain := some who }).modifyPlayer who
      fun p => { p with inlCaptain := true }) j ↔ isFree s.robot j := by
    rw [isFree_modifyPlayer]
    split
    · next hj => rw [hj]; rfl
    · rfl
  refine ⟨fun t c hc => ?_, fun j hj => ?_, fun j hj => ?_, h.stray⟩
  -- a team's captain: the new one, or one of before
  · have hc := (hteams t).symm.trans hc
    show ¬ isFree (Robot.modifyPlayer _ _ _) c ∧ captainFlag (Robot.modifyPlayer _ _ _) c = true
    rw [hfrees, hflags]
    split at hc
    · cases hc
      exact ⟨hfree, if_pos rfl⟩
    · obtain ⟨hcf, hcc⟩ := h.captain t c hc
      refine ⟨hcf, ?_⟩
      rw [hcc]
      split <;> rfl
  · have hj := (hflags j).symm.trans hj
    show ¬ isFree (Robot.modifyPlayer _ _ _) j ∧ ∃! t, ((Robot.modifyPlayer _ _ _).teams t).captain = some j
    simp only [hfrees, hteams]
    -- a flagged player: the new captain has this team only, since he had none
    split at hj
    · next heq =>
      subst heq
      refine ⟨hfree, num, if_pos rfl, fun t ht => ?_⟩
      by_contra hne
      have ht : (if t = num then some j else (s.robot.teams t).captain) = some j := ht
      rw [if_neg hne] at ht
      rw [(h.captain t j ht).2] at hflag
      cases hflag
    · next hne =>
      -- an old captain has another team, since this one had no captain
      obtain ⟨hjf, t, ht, huniq⟩ := h.player j hj
      have htn : t ≠ num := by
        rintro rfl
        rw [hnone] at ht
        cases ht
      refine ⟨hjf, t, (if_neg htn).trans ht, fun t' ht' => ?_⟩
      have ht' : (if t' = num then some who else (s.robot.teams t').captain) = some j := ht'
      split at ht'
      · cases ht'
        exact absurd rfl hne
      · exact huniq t' ht'
  -- the new captain has not been asked to start
  · show captainFlag (Robot.modifyPlayer _ _ _) j = false
    rw [hflags, if_neg]
    · exact h.starting j hj
    · rintro rfl
      have hj : s.starting j = true := hj
      rw [hstart] at hj
      cases hj

/-- The slot of a player who is not captain changes, and the player is not captain then. -/
theorem Orderly.slot (h : Orderly s) {j : Slot} {f : Player → Player} (hflag : captainFlag s.robot j = false)
    (hf : (f (s.robot.player j)).inlCaptain = false) (b : Bool) :
    Orderly ⟨s.robot.modifyPlayer j f, Function.update s.starting j b⟩ := by
  have hflags (i : Slot) : captainFlag (s.robot.modifyPlayer j f) i = captainFlag s.robot i := by
    rw [captainFlag_modifyPlayer, hf]
    split
    · next hi => rw [hi, hflag]
    · rfl
  have hfrees {i : Slot} (hi : captainFlag s.robot i = true) :
      isFree (s.robot.modifyPlayer j f) i ↔ isFree s.robot i := by
    rw [isFree_modifyPlayer, if_neg]
    rintro rfl
    rw [hflag] at hi
    cases hi
  constructor
  · intro t c hc
    obtain ⟨hcf, hcc⟩ := h.captain t c hc
    exact ⟨fun hfree => hcf ((hfrees hcc).mp hfree), (hflags c).trans hcc⟩
  · intro i hi
    have hi := (hflags i).symm.trans hi
    obtain ⟨hif, ht⟩ := h.player i hi
    exact ⟨fun hfree => hif ((hfrees hi).mp hfree), ht⟩
  · intro i hi
    refine (hflags i).trans ?_
    by_cases hij : i = j
    · rw [hij]
      exact hflag
    · exact h.starting i ((Function.update_of_ne hij b s.starting).symm.trans hi)
  · exact h.stray

/-- The one place where a captain is made. -/
theorem Orderly.captain_step (h : Orderly s) {who : Slot} (hstart : s.starting who = false)
    (hfine : (Deed.captain who).fine s) : Orderly (s.on (doCaptain s.robot who)) := by
  unfold doCaptain
  cases hnum : checkPlayer s.robot who false with
  | none => exact h
  | some num =>
    have hfine := hfine num hnum
    cases hcap : (s.robot.teams num).captain with
    | none =>
      rw [if_pos hcap] at hfine
      obtain ⟨hfree, hflag⟩ := hfine
      dsimp only
      rw [hcap]
      exact h.captainOf hcap hfree hflag hstart
    | some c =>
      rw [if_neg (by rw [hcap]; nofun)] at hfine
      dsimp only
      rw [hcap]
      dsimp only
      -- nobody is overthrown
      rw [if_neg (not_not_intro (hfine c hcap))]
      exact h

/-- A captain who resigns is a captain no more; the other side keeps its own. -/
theorem Orderly.uncaptain_step (h : Orderly s) (who : Slot) : Orderly (s.on (doUncaptain s.robot who)) := by
  unfold doUncaptain
  cases hnum : checkPlayer s.robot who true with
  | none => exact h
  | some num =>
    have hcap := checkPlayer_captain hnum
    obtain ⟨hfree, hflag⟩ := h.captain num who hcap
    obtain ⟨-, _, -, huniq⟩ := h.player who hflag
    -- he is the captain of one team only
    have honly {t : Side} (ht : (s.robot.teams t).captain = some who) : t = num :=
      (huniq t ht).trans (huniq num hcap).symm
    dsimp only
    generalize hX : Robot.modifyPlayer _ who _ = X
    have hteams (t : Side) : (X.teams t).captain = if t = num then none else (s.robot.teams t).captain := by
      rw [← hX]
      show ((s.robot.modifyTeam num fun t => { t with captain := none }).teams t).captain = _
      rw [Robot.teams_modifyTeam]
      split <;> rfl
    have hflags (j : Slot) : captainFlag X j = if j = who then false else captainFlag s.robot j := by
      rw [← hX, captainFlag_modifyPlayer]
      rfl
    have hfrees (j : Slot) : isFree X j ↔ isFree s.robot j := by
      rw [← hX, isFree_modifyPlayer]
      split
      · next hj => rw [hj]; rfl
      · rfl
    constructor
    -- the captains that are left are other players
    · intro t c hc
      have hc := (hteams t).symm.trans hc
      split at hc
      · cases hc
      · next htn =>
        obtain ⟨hcf, hcc⟩ := h.captain t c hc
        refine ⟨fun hf => hcf ((hfrees c).mp hf), (hflags c).trans ?_⟩
        rw [if_neg, hcc]
        rintro rfl
        exact htn (honly hc)
    -- so are the flagged ones, each with his own team
    · intro j hj
      have hj := (hflags j).symm.trans hj
      split at hj
      · cases hj
      · next hne =>
        obtain ⟨hjf, t, ht, huniq⟩ := h.player j hj
        refine ⟨fun hf => hjf ((hfrees j).mp hf), t, (hteams t).trans ?_, fun t' ht' => huniq t' ?_⟩
        · rw [if_neg, ht]
          rintro rfl
          rw [hcap] at ht
          cases ht
          exact hne rfl
        · have ht' := (hteams t').symm.trans ht'
          split at ht'
          · cases ht'
          · exact ht'
    · intro j hj
      refine (hflags j).trans ?_
      split
      · rfl
      · exact h.starting j hj
    · show Note.strayPlayer ∉ X.log
      rw [← hX]
      exact h.stray

theorem Orderly.restart_step (h : Orderly s) (who : Slot) (galaxy : Fin maxPlanets → Planet) (flush : List Message)
    (hfine : (Deed.restart who galaxy flush).fine s) : Orderly (s.on (Inl.restart s.robot who galaxy flush)) := by
  unfold Inl.restart doRestart
  cases hnum : checkPlayer s.robot who true with
  | none => exact h
  | some num =>
    dsimp only
    cases hpre : s.robot.has sPregame with
    | true => exact h
    | false =>
      rw [if_neg (by nofun), bothHave_set s.robot num (by decide), hfine num hnum hpre]
      dsimp only
      refine h.beside ⟨fun t => ?_, fun _ => rfl, fun _ => Iff.rfl, Iff.rfl⟩
      rw [Robot.teams_modifyTeam]
      split
      · next ht => rw [ht]
      · rfl

/-- The end of a game forgets both captains. -/
theorem Orderly.finish_step (h : Orderly s) (flush : List Message) (hfine : (Deed.finish flush).fine s) :
    Orderly (s.on (gameOver s.robot flush)) := by
  obtain ⟨hboth, hflush⟩ := hfine
  obtain ⟨htame, hclear⟩ := ended_tame hboth
  have hrest := (tame_checkmess flush _ hflush).trans (tame_resetInl _ none)
  rw [gameOver_eq]
  have hnone (j : Slot) : captainFlag (resetInl (checkmess flush (ended s.robot)) none) j = false := by
    by_contra hset
    rw [Bool.not_eq_false] at hset
    have hset := hrest.flag j hset
    have hfree := (h.player j (htame.flag j hset)).1
    rw [hclear j hfree] at hset
    cases hset
  constructor
  · intro t c hc
    cases (show none = some c from hc)
  · intro j hj
    cases (hnone j).symm.trans hj
  · intro j _
    exact hnone j
  · intro hs
    exact h.stray (htame.stray (hrest.stray hs))

/-- The captains of teams that are in order are not forgotten. -/
theorem Orderly.maint_step (h : Orderly s) : playerMaint s.robot = s.robot := by
  have hone (t : Side) : forgetCaptain s.robot t = s.robot := by
    unfold forgetCaptain
    cases hc : (s.robot.teams t).captain with
    | none => rfl
    | some c => exact if_neg (h.captain t c hc).1
  unfold playerMaint
  rw [hone, hone]

/-- Every deed keeps the order. -/
theorem Orderly.step (h : Orderly s) {d : Deed} (hlaw : d.lawful s) (hfine : d.fine s) : Orderly (d.run s) := by
  cases d with
  | captain who => exact h.captain_step hlaw hfine
  | uncaptain who => exact h.uncaptain_step who
  | restart who galaxy flush => exact h.restart_step who galaxy flush hfine
  | finish flush => exact h.finish_step flush hfine
  | maint =>
    show Orderly (s.on (playerMaint s.robot))
    rw [h.maint_step]
    exact h
  | freeslot j =>
    have hflag : captainFlag s.robot j = false := hfine
    exact h.slot (f := fun p => { p with status := .pfree, flags := 0 }) hflag hflag false
  | pickslot j =>
    show Orderly (if (s.robot.player j).status = .pfree then _ else s)
    split
    · next hfree =>
      have hflag : captainFlag s.robot j = false := by
        by_contra hset
        exact (h.player j (Bool.of_not_eq_false hset)).1 hfree
      exact h.slot (f := fun p => { p with status := .poutfit, team := nobody, flags := 0 }) hflag hflag true
    · exact h
  | start j => exact h.slot (h.starting j hlaw) rfl false
  | beside r => exact h.beside hlaw

end Steps

/-! ## Whole runs -/

/-- Nobody is captain yet. -/
structure Vacant (s : Scene) : Prop where
  captain : ∀ t, (s.robot.teams t).captain = none
  flag : ∀ j, captainFlag s.robot j = false
  stray : .strayPlayer ∉ s.robot.log

theorem Vacant.orderly {s : Scene} (h : Vacant s) : Orderly s := by
  refine ⟨fun t c hc => ?_, fun j hj => ?_, fun j _ => h.flag j, h.stray⟩
  · rw [h.captain] at hc
    cases hc
  · rw [h.flag] at hj
    cases hj

/-- In a run without overthrows, captains who leave and restarts, the table and the flags always agree. -/
theorem captains_agree {s s' : Scene} {deeds : List Deed} (h : Vacant s)
    (hrun : Run (fun s d => d.lawful s ∧ d.fine s) Deed.run s deeds s') : Agreed s'.robot := by
  have hstep (s : Scene) (d : Deed) (hd : d.lawful s ∧ d.fine s) (ho : Orderly s) : Orderly (d.run s) :=
    ho.step hd.1 hd.2
  exact (hrun.inv hstep h.orderly).agreed

/-- A captain who resigns. -/
def resignation : List Deed := [.captain 0, .maint, .uncaptain 0, .maint]

/-- A player of the home team. -/
def homePlayer : Scene where
  robot :=
    let r : Robot := default
    { r with teams := fun t => freshTeam t (r.teams t) }.modifyPlayer 0 fun p =>
      { p with status := .palive, team := homeTeam, wQueue := quHome }
  starting _ := false

theorem vacant_homePlayer : Vacant homePlayer := by
  refine ⟨fun t => rfl, fun j => ?_, fun h => nomatch h⟩
  show captainFlag (Robot.modifyPlayer _ 0 _) j = false
  rw [captainFlag_modifyPlayer]
  split <;> rfl

theorem captains_agree_resign : Agreed (resignation.foldl Deed.run homePlayer).robot := by
  have hrun : Run (fun s d => d.lawful s ∧ d.fine s) Deed.run homePlayer resignation
      (resignation.foldl Deed.run homePlayer) := by
    unfold resignation
    refine .cons ⟨rfl, ?_⟩ (.cons ⟨trivial, trivial⟩ (.cons ⟨rfl, trivial⟩ (.cons ⟨trivial, trivial⟩ (.nil _))))
    show ∀ num, checkPlayer homePlayer.robot 0 false = some num → _
    decide
  exact captains_agree vacant_homePlayer hrun

/-- The captain leaves. -/
theorem captain_leaves : ¬ ∀ (s s' : Scene) (deeds : List Deed), Vacant s → Run Deed.lawful Deed.run s deeds s' →
    deeds.getLast? = some .maint → Agreed s'.robot := by
  intro hall
  have hrun : Run Deed.lawful Deed.run homePlayer [.captain 0, .freeslot 0, .maint] _ :=
    .cons rfl (.cons trivial (.cons trivial (.nil _)))
  refine (hall _ _ _ vacant_homePlayer hrun rfl).stray ?_
  decide

end Netrek.Inl
