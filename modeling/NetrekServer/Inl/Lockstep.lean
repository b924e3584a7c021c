/-
Two robots with different pasts, side by side. As long as what they decide by is the same, the same
commands, ticks and players keep it the same: the clocks of a countdown that is not running, the
masks of the queues and what was noted before do not matter.
-/
import NetrekServer.Inl.Captain
import NetrekServer.Inl.Timely

namespace Netrek.Inl

/-! ## Robots side by side -/

/-- What does not change while a robot runs. -/
structure Machine where
  fps : ℕ+
  virgin : Fin maxPlanets → Planet
  exp : ℚ → ℚ
  before : Choice → Word
  /-- The tables of `inl_countdown` and `inl_game`. -/
  counts : List Int × List Int
  act : Nat × Nat
  /-- What `inl_game` ends in. -/
  action : Action

def Robot.machine (r : Robot) : Machine :=
  ⟨r.fps, r.virgin, r.exp, r.before, (r.countdown.counts, r.game.counts), (r.countdown.act, r.game.act),
    r.game.action⟩

/-- A game is being played, or frozen. -/
def gameOn (s : Stats) : Bool := s.flags.has (sTourney ||| sOvertime)

/-- When the clocks of two games are to agree. -/
inductive Watch
  | never
  | inGame
  | always

def Watch.on (w : Watch) (s : Stats) : Prop :=
  match w with
  | .never => False
  | .inGame => gameOn s = true
  | .always => True

theorem Watch.on_imp (w : Watch) {s s' : Stats} (h : gameOn s = true → gameOn s' = true) : w.on s → w.on s' := by
  cases w with
  | never => exact id
  | inGame => exact h
  | always => exact id

/-- How two robots are compared. -/
structure Common where
  machine : Machine
  /-- `GU_INL_DRAFTED`, which the robot reads only. -/
  drafted : Bool
  watch : Watch
  /-- Whether ships have exploded at this tick. -/
  timer : Prop
  /-- The extra time, while none is added. -/
  extratime : Option Int
  /-- What each of them has noted before. -/
  past : List Note
  past' : List Note

/-- A game is being played, and anything may happen to its clocks. -/
structure Common.Live (c : Common) : Prop where
  watch : c.watch = .always
  extratime : c.extratime = none
  timer : ¬ c.timer

/-- What `reset_inl` makes of `inl_stat`. -/
def freshStats (r : Robot) (s : Stats) : Stats :=
  { s with
    startArmies := 12, change := true, flags := sPregame, ticks := 0, gameTicks := 0, tmoutTicks := 0
    time := inlRegulation * r.permin, overtime := inlOvertime * r.permin, remaining := 0, scoreMode := 0
    weightedDivisor := 0 }

/-- The robot at a tick when it comes to its messages. -/
def listening (r : Robot) : Robot :=
  let r := playerMaint (r.modifyStat fun s => { s with ticks := s.ticks + 1 })
  if r.has sCountdown then countStart r else r

theorem prepare_listening (r : Robot) (mail : Mail) : prepare r mail = checkmess mail.mess (listening r) := rfl

/-- The robots agree on all they decide by. -/
structure Alike (c : Common) (r r' : Robot) : Prop where
  machine : r.machine = c.machine
  machine' : r'.machine = c.machine
  mem : r'.mem = r.mem
  pos : r'.pos = r.pos
  teams : r'.teams = r.teams
  stat : r'.stat = r.stat
  obliterateTimer : r'.obliterateTimer = r.obliterateTimer
  drafted : r.mem.status.gameup.has guInlDrafted = c.drafted
  timer : c.timer → r.obliterateTimer = 10
  extratime : ∀ n ∈ c.extratime, r.stat.extratime = n
  countdown : r.has sCountdown = true → r'.countdown = r.countdown ∧ r.countdown.action ≠ .endTourney
  game : c.watch.on r.stat → r'.game = r.game
  log : ∃ news, r.log = news ++ c.past ∧ r'.log = news ++ c.past'

section

variable {c : Common} {r r' : Robot}

namespace Alike

theorem fps (h : Alike c r r') : r'.fps = r.fps := congrArg Machine.fps (h.machine'.trans h.machine.symm)

theorem virgin (h : Alike c r r') : r'.virgin = r.virgin := congrArg Machine.virgin (h.machine'.trans h.machine.symm)

theorem exp (h : Alike c r r') : r'.exp = r.exp := congrArg Machine.exp (h.machine'.trans h.machine.symm)

theorem before (h : Alike c r r') : r'.before = r.before := congrArg Machine.before (h.machine'.trans h.machine.symm)

theorem counts (h : Alike c r r') : r'.countdown.counts = r.countdown.counts ∧ r'.game.counts = r.game.counts := by
  have hm := congrArg Machine.counts (h.machine'.trans h.machine.symm)
  exact ⟨congrArg Prod.fst hm, congrArg Prod.snd hm⟩

theorem act (h : Alike c r r') : r'.countdown.act = r.countdown.act ∧ r'.game.act = r.game.act := by
  have hm := congrArg Machine.act (h.machine'.trans h.machine.symm)
  exact ⟨congrArg Prod.fst hm, congrArg Prod.snd hm⟩

theorem action (h : Alike c r r') : r'.game.action = r.game.action :=
  congrArg Machine.action (h.machine'.trans h.machine.symm)

theorem persec (h : Alike c r r') : r'.persec = r.persec := by
  unfold Robot.persec
  rw [h.fps]

theorem permin (h : Alike c r r') : r'.permin = r.permin := by
  unfold Robot.permin
  rw [h.persec]

theorem has (h : Alike c r r') (m : Word) : r'.has m = r.has m := by
  unfold Robot.has
  rw [h.stat]

theorem player (h : Alike c r r') (i : Slot) : r'.player i = r.player i := by
  unfold Robot.player
  rw [h.mem]

theorem sideOf (h : Alike c r r') (who : Slot) : Inl.sideOf r' who = Inl.sideOf r who := by
  unfold Inl.sideOf
  rw [h.player, h.teams]

theorem checkPlayer (h : Alike c r r') (who : Slot) (captain : Bool) :
    Inl.checkPlayer r' who captain = Inl.checkPlayer r who captain := by
  unfold Inl.checkPlayer
  rw [h.player, h.sideOf, h.teams]

theorem bothHave (h : Alike c r r') (m : Word) : Inl.bothHave r' m = Inl.bothHave r m := by
  unfold Inl.bothHave
  rw [h.teams]

theorem allowed (h : Alike c r r') (m : Message) : Inl.allowed r' m = Inl.allowed r m := by
  unfold Inl.allowed
  rw [h.sideOf, h.teams, h.has, h.has]

theorem flagOf (h : Alike c r r') (t : Side) : r'.flagOf t = r.flagOf t := by
  unfold Robot.flagOf
  rw [h.teams, h.before]

/-! ## Changes that both make -/

/-- Shared memory. -/
theorem setMem (h : Alike c r r') {m m' : Memory} (hm : m' = m) (hd : m.status.gameup.has guInlDrafted = c.drafted) :
    Alike c { r with mem := m } { r' with mem := m' } :=
  ⟨h.machine, h.machine', hm, h.pos, h.teams, h.stat, h.obliterateTimer, hd, h.timer, h.extratime, h.countdown, h.game,
    h.log⟩

/-- Shared memory that others have changed. -/
theorem setMemory (h : Alike c r r') {m m' : Memory} (hm : m' = m) :
    Alike { c with drafted := m.status.gameup.has guInlDrafted } { r with mem := m } { r' with mem := m' } :=
  ⟨h.machine, h.machine', hm, h.pos, h.teams, h.stat, h.obliterateTimer, rfl, h.timer, h.extratime, h.countdown, h.game,
    h.log⟩

theorem setTeams (h : Alike c r r') {t t' : Side → Team} (ht : t' = t) :
    Alike c { r with teams := t } { r' with teams := t' } :=
  ⟨h.machine, h.machine', h.mem, h.pos, ht, h.stat, h.obliterateTimer, h.drafted, h.timer, h.extratime,
    h.countdown, h.game, h.log⟩

/-- `inl_stat`, if neither a countdown nor a game begins. -/
theorem setStat (h : Alike c r r') {s : Stats} (hextra : ∀ n ∈ c.extratime, r.stat.extratime = n → s.extratime = n)
    (hcount : s.flags.has sCountdown = true → r.has sCountdown = true) (hgame : c.watch.on s → c.watch.on r.stat) :
    Alike c { r with stat := s } { r' with stat := s } :=
  ⟨h.machine, h.machine', h.mem, h.pos, h.teams, rfl, h.obliterateTimer, h.drafted, h.timer,
    fun n hn => hextra n hn (h.extratime n hn), fun hs => h.countdown (hcount hs), fun hs => h.game (hgame hs), h.log⟩

theorem setTimer (h : Alike c r r') {n : Int} (hn : c.timer → n = 10) :
    Alike c { r with obliterateTimer := n } { r' with obliterateTimer := n } :=
  ⟨h.machine, h.machine', h.mem, h.pos, h.teams, h.stat, rfl, h.drafted, hn, h.extratime,
    h.countdown, h.game, h.log⟩

theorem setPos (h : Alike c r r') (pos : Slot → Int) : Alike c { r with pos := pos } { r' with pos := pos } :=
  ⟨h.machine, h.machine', h.mem, rfl, h.teams, h.stat, h.obliterateTimer, h.drafted, h.timer, h.extratime,
    h.countdown, h.game, h.log⟩

/-- The masks need not agree. -/
theorem setMasks (h : Alike c r r') (home away home' away' : Word) :
    Alike c (Inl.setMasks r home away) (Inl.setMasks r' home' away') :=
  ⟨h.machine, h.machine', h.mem, h.pos, h.teams, h.stat, h.obliterateTimer, h.drafted, h.timer, h.extratime,
    h.countdown, h.game, h.log⟩

/-- A countdown, with its table. -/
theorem setCountdown (h : Alike c r r') {d : Countdown} (hd : d.counts = r.countdown.counts ∧ d.act = r.countdown.act)
    (ha : d.action ≠ .endTourney) : Alike c { r with countdown := d } { r' with countdown := d } := by
  refine ⟨?_, ?_, h.mem, h.pos, h.teams, h.stat, h.obliterateTimer, h.drafted, h.timer, h.extratime,
    fun _ => ⟨rfl, ha⟩, h.game, h.log⟩
  · rw [← h.machine]
    unfold Robot.machine
    rw [hd.1, hd.2]
  · rw [← h.machine']
    unfold Robot.machine
    rw [hd.1, hd.2, h.counts.1, h.act.1]

/-- The clock of a game, whether or not the clocks agreed. -/
theorem setClock {w : Watch} (h : Alike { c with watch := w } r r') (i : Nat) {n n' : Int} (hn : n' = n) :
    Alike c { r with game := { r.game with idx := i, ends := n } }
      { r' with game := { r'.game with idx := i, ends := n' } } := by
  refine ⟨h.machine, h.machine', h.mem, h.pos, h.teams, h.stat, h.obliterateTimer, h.drafted, h.timer, h.extratime,
    h.countdown, fun _ => ?_, h.log⟩
  dsimp only
  rw [h.counts.2, h.act.2, h.action, hn]

theorem note (h : Alike c r r') (n : Note) : Alike c (r.note n) (r'.note n) := by
  obtain ⟨news, hr, hr'⟩ := h.log
  refine ⟨h.machine, h.machine', h.mem, h.pos, h.teams, h.stat, h.obliterateTimer, h.drafted, h.timer, h.extratime,
    h.countdown, h.game, n :: news, ?_, ?_⟩
  · exact congrArg (n :: ·) hr
  · exact congrArg (n :: ·) hr'

theorem modifyPlayer (h : Alike c r r') (i : Slot) (f : Player → Player) :
    Alike c (r.modifyPlayer i f) (r'.modifyPlayer i f) := by
  unfold Robot.modifyPlayer
  exact h.setMem (by rw [h.mem]) h.drafted

theorem modifyCaptain (h : Alike c r r') (who : Option Slot) (f : Player → Player) :
    Alike c (r.modifyCaptain who f) (r'.modifyCaptain who f) := by
  cases who with
  | none => exact h.note _
  | some i => exact h.modifyPlayer i f

theorem modifyTeam (h : Alike c r r') (t : Side) (f : Team → Team) : Alike c (r.modifyTeam t f) (r'.modifyTeam t f) := by
  unfold Robot.modifyTeam
  exact h.setTeams (by rw [h.teams])

theorem modifyTeams (h : Alike c r r') (f : Team → Team) : Alike c (r.modifyTeams f) (r'.modifyTeams f) := by
  unfold Robot.modifyTeams
  exact h.setTeams (by rw [h.teams])

theorem modifyStat (h : Alike c r r') (f : Stats → Stats) (hextra : (f r.stat).extratime = r.stat.extratime)
    (hcount : (f r.stat).flags.has sCountdown = true → r.has sCountdown = true)
    (hgame : gameOn (f r.stat) = true → gameOn r.stat = true) : Alike c (r.modifyStat f) (r'.modifyStat f) := by
  unfold Robot.modifyStat
  rw [h.stat]
  exact h.setStat (fun n _ hn => hextra.trans hn) hcount (c.watch.on_imp hgame)

theorem clearFlags (h : Alike c r r') (m : Word) :
    Alike c (r.modifyStat fun s => { s with flags := s.flags &&& ~~~m })
      (r'.modifyStat fun s => { s with flags := s.flags &&& ~~~m }) :=
  h.modifyStat _ rfl has_of_has_andNot has_of_has_andNot

theorem setFlags (h : Alike c r r') {m : Word}
    (hm : m &&& sCountdown = 0 ∧ m &&& (sTourney ||| sOvertime) = 0) :
    Alike c (r.modifyStat fun s => { s with flags := s.flags ||| m })
      (r'.modifyStat fun s => { s with flags := s.flags ||| m }) := by
  refine h.modifyStat _ rfl (fun hs => ?_) fun hs => ?_
  · rwa [Word.has_or hm.1] at hs
  · unfold gameOn at hs
    rwa [Word.has_or hm.2] at hs

theorem modifyStatus (h : Alike c r r') (f : Status → Status)
    (hf : (f r.mem.status).gameup.has guInlDrafted = r.mem.status.gameup.has guInlDrafted) :
    Alike c (r.modifyStatus f) (r'.modifyStatus f) := by
  unfold Robot.modifyStatus
  exact h.setMem (by rw [h.mem]) (hf.trans h.drafted)

/-- The clocks agree, or it does not matter whether they do. -/
theorem rewatch (h : Alike c r r') {w : Watch} (hw : w.on r.stat → r'.game = r.game) : Alike { c with watch := w } r r' :=
  ⟨h.machine, h.machine', h.mem, h.pos, h.teams, h.stat, h.obliterateTimer, h.drafted, h.timer, h.extratime,
    h.countdown, hw, h.log⟩

/-- Ships have just exploded. -/
theorem retime (h : Alike c r r') {x : Prop} (hx : x → r.obliterateTimer = 10) : Alike { c with timer := x } r r' :=
  ⟨h.machine, h.machine', h.mem, h.pos, h.teams, h.stat, h.obliterateTimer, h.drafted, hx, h.extratime, h.countdown,
    h.game, h.log⟩

/-- The extra time is known. -/
theorem recount (h : Alike c r r') {x : Option Int} (hx : ∀ n ∈ x, r.stat.extratime = n) :
    Alike { c with extratime := x } r r' :=
  ⟨h.machine, h.machine', h.mem, h.pos, h.teams, h.stat, h.obliterateTimer, h.drafted, h.timer, hx, h.countdown,
    h.game, h.log⟩

/-- The same choice on both sides. -/
theorem ite {p : Prop} [Decidable p] {a a' b b' : Robot} (ha : p → Alike c a a') (hb : ¬ p → Alike c b b') :
    Alike c (if p then a else b) (if p then a' else b') := by
  split
  · next hp => exact ha hp
  · next hp => exact hb hp

/-! ## Obliteration -/

theorem dropArmies (h : Alike c r r') (j : Slot) : Alike c (Inl.dropArmies r j) (Inl.dropArmies r' j) := by
  unfold Inl.dropArmies
  dsimp only
  rw [h.player, h.mem]
  refine ite (fun _ => ?_) fun _ => h
  split
  · exact h
  · refine ite (fun _ => ?_) fun _ => h
    exact h.setMem rfl h.drafted

/-- The same ships explode. -/
theorem obliterateOne (h : Alike c r r') (wflag : Nat) (kreason : WhyDead) (j : Slot) :
    Alike c (Inl.obliterateOne wflag kreason r j) (Inl.obliterateOne wflag kreason r' j) := by
  have hexplode {r r' : Robot} (h : Alike c r r') :
      Alike c (if (r.player j).status = .pobserv then
          r.modifyPlayer j fun p => { p with status := .pexplode, whydead := kreason }
        else if !(r.player j).flags.has pfRobot && decide (r.pos j < 0) then
          r.modifyPlayer j fun p => { p with status := .pexplode, whydead := .kquit, explode := 10, whodead := 0 }
        else Inl.dropArmies (r.modifyPlayer j (explodeShip wflag kreason)) j)
        (if (r'.player j).status = .pobserv then
          r'.modifyPlayer j fun p => { p with status := .pexplode, whydead := kreason }
        else if !(r'.player j).flags.has pfRobot && decide (r'.pos j < 0) then
          r'.modifyPlayer j fun p => { p with status := .pexplode, whydead := .kquit, explode := 10, whodead := 0 }
        else Inl.dropArmies (r'.modifyPlayer j (explodeShip wflag kreason)) j) := by
    rw [h.player, h.pos]
    refine ite (fun _ => h.modifyPlayer j _) fun _ => ?_
    refine ite (fun _ => h.modifyPlayer j _) fun _ => ?_
    exact (h.modifyPlayer j _).dropArmies j
  unfold Inl.obliterateOne
  rw [h.player]
  refine ite (fun _ => h) fun _ => ?_
  by_cases hend : kreason = .tournend
  · rw [if_pos hend, if_pos hend]
    exact hexplode (h.modifyPlayer j _)
  · rw [if_neg hend, if_neg hend]
    exact hexplode h

theorem obliterate (h : Alike c r r') (wflag : Nat) (kreason : WhyDead) :
    Alike c (Inl.obliterate r wflag kreason) (Inl.obliterate r' wflag kreason) := by
  unfold Inl.obliterate
  refine List.foldl_rel ?_ fun j _ _ _ h => h.obliterateOne wflag kreason j
  have hmem : Alike c { r with mem := { r.mem with torps := fun _ => default } }
      { r' with mem := { r'.mem with torps := fun _ => default } } := h.setMem (by rw [h.mem]) h.drafted
  exact hmem.setTimer fun _ => rfl

/-! ## Beginning and end -/

theorem plResetInl (h : Alike c r r') (galaxy : Option (Fin maxPlanets → Planet)) :
    Alike c (Inl.plResetInl r galaxy) (Inl.plResetInl r' galaxy) := by
  unfold Inl.plResetInl
  cases galaxy with
  | some planets => exact h.setMem (by rw [h.mem]) h.drafted
  | none => exact h.setMem (by rw [h.mem, h.virgin, h.stat]) h.drafted

/-- A countdown begins, with its flag. -/
theorem startCount (h : Alike c r r') (f : Stats → Stats) (i : Nat) (n : Int) {a : Action}
    (ha : a ≠ .endTourney)
    (hextra : (f r.stat).extratime = r.stat.extratime) (hgame : gameOn (f r.stat) = true → gameOn r.stat = true) :
    Alike c { r.modifyStat f with countdown := { r.countdown with idx := i, ends := r.stat.ticks + n * r.persec, action := a } }
      { r'.modifyStat f with
        countdown := { r'.countdown with idx := i, ends := r'.stat.ticks + n * r'.persec, action := a } } := by
  have hset := h.setCountdown (d := { r.countdown with idx := i, ends := r.stat.ticks + n * r.persec, action := a })
    ⟨rfl, rfl⟩ ha
  dsimp only
  rw [h.counts.1, h.act.1, h.persec, congrArg Stats.ticks h.stat]
  exact ⟨hset.machine, hset.machine', h.mem, h.pos, h.teams, congrArg f h.stat, h.obliterateTimer, h.drafted, h.timer,
    fun n hn => hextra.trans (h.extratime n hn), fun _ => ⟨rfl, ha⟩, fun hs => h.game (c.watch.on_imp hgame hs), h.log⟩

/-- Both countdowns begin, with the same races. -/
theorem startCountdown (h : Alike c r r') : Alike c (Inl.startCountdown r) (Inl.startCountdown r') := by
  have hsides {r r' : Robot} (h : Alike c r r') : Alike c { r with teams := fun t => { r.teams t with side := r.flagOf t } }
      { r' with teams := fun t => { r'.teams t with side := r'.flagOf t } } := by
    refine h.setTeams (funext fun t => ?_)
    rw [h.teams, h.flagOf]
  unfold Inl.startCountdown
  dsimp only
  rw [h.teams]
  have h₁ := hsides ((h.note (.starting (r.teams home).sideIndex (r.teams away).sideIndex)).modifyStat
    (fun s => { s with change := false }) rfl id id)
  generalize hX : Inl.setMasks _ _ _ = X
  generalize hX' : Inl.setMasks _ _ _ = X'
  have hmasks : Alike c X X' := by
    rw [← hX, ← hX']
    exact h₁.setMasks _ _ _ _
  have h₂ := hmasks.obliterate 2 .kprovidence
  generalize Inl.obliterate X _ _ = Y at h₂ ⊢
  generalize Inl.obliterate X' _ _ = Y' at h₂ ⊢
  refine h₂.startCount (fun s => { s with flags := sCountdown }) 0 60 (a := .startTourney) Action.noConfusion rfl fun hgame => ?_
  exact absurd (show Word.has sCountdown (sTourney ||| sOvertime) = true from hgame) (by decide)

theorem resetStats (h : Alike c r r') : Alike c (Inl.resetStats r) (Inl.resetStats r') := by
  have h₁ := h.modifyStatus (fun s => { s with armsbomb := 10, kills := 10, losses := 10 }) rfl
  unfold Inl.resetStats
  exact h₁.setMem (by rw [h₁.mem]) h₁.drafted

/-- Both games begin, from the same settings. -/
theorem startTourney (h : Alike c r r') : Alike c (Inl.startTourney r) (Inl.startTourney r') := by
  have hflags {c : Common} {r r' : Robot} (hc : c.watch = .never) (h : Alike c r r') : Alike c
      (r.modifyStat fun s => { s with flags := (s.flags ||| sTourney) &&& ~~~(sPregame ||| sCountdown ||| sConfine) })
      (r'.modifyStat fun s => { s with flags := (s.flags ||| sTourney) &&& ~~~(sPregame ||| sCountdown ||| sConfine) }) := by
    unfold Robot.modifyStat
    rw [h.stat]
    refine h.setStat (fun _ _ hn => hn) (fun hs => ?_) fun hs => ?_
    · rw [Word.has_iff, BitVec.and_assoc] at hs
      exact absurd (by simp [sPregame, sCountdown, sConfine]) hs
    · rw [hc] at hs
      exact hs.elim
  have h₁ := hflags rfl (((h.rewatch (w := .never) False.elim).note .started).plResetInl none)
  have h₂ := (h₁.obliterate 1 .tournstart).resetStats
  unfold Inl.startTourney
  dsimp only
  generalize Inl.resetStats _ = X at h₂ ⊢
  generalize Inl.resetStats _ = X' at h₂ ⊢
  have h₃ := (h₂.modifyStat (fun s => { s with gameTicks := 0, remaining := -1 }) rfl id id).modifyStatus (fun s =>
    { s with gameup := s.gameup &&& ~~~(guChaos ||| guPractice), tourn := true }) (Word.has_andNot (by decide))
  refine h₃.setClock 0 ?_
  exact congrArg Stats.time h₃.stat

/-! ## Captains -/

theorem forgetCaptain (h : Alike c r r') (t : Side) : Alike c (Inl.forgetCaptain r t) (Inl.forgetCaptain r' t) := by
  unfold Inl.forgetCaptain
  rw [h.teams]
  split
  · exact h
  · rw [h.player]
    refine ite (fun _ => ?_) fun _ => h
    have h₁ := h.modifyTeam t fun x => { x with captain := none }
    dsimp only
    rw [h₁.teams]
    exact h₁.modifyCaptain _ _

theorem playerMaint (h : Alike c r r') : Alike c (Inl.playerMaint r) (Inl.playerMaint r') :=
  (h.forgetCaptain home).forgetCaptain away

/-! ## Commands -/

theorem captain (h : Alike c r r') (who : Slot) : Alike c (doCaptain r who) (doCaptain r' who) := by
  unfold doCaptain
  rw [h.checkPlayer]
  cases Inl.checkPlayer r who false with
  | none => exact h
  | some num =>
    dsimp only
    rw [h.teams]
    cases (r.teams num).captain with
    | none => exact (h.modifyTeam num _).modifyPlayer who _
    | some k =>
      dsimp only
      rw [h.player]
      exact ite (fun _ => h.modifyTeam num _) fun _ => h

theorem uncaptain (h : Alike c r r') (who : Slot) : Alike c (doUncaptain r who) (doUncaptain r' who) := by
  unfold doUncaptain
  rw [h.checkPlayer]
  cases Inl.checkPlayer r who true with
  | none => exact h
  | some num => exact (h.modifyTeam num _).modifyPlayer who _

theorem pickRace (h : Alike c r r') (num : Side) (k : Fin 4) : Alike c (Inl.pickRace r num k) (Inl.pickRace r' num k) := by
  unfold Inl.pickRace
  dsimp only
  rw [h.teams]
  split
  · refine ite (fun _ => h) fun _ => ?_
    refine ite (fun _ => h) fun _ => ?_
    exact (h.modifyTeam num.other _).modifyTeam num _
  · exact h.modifyTeam num _

theorem pickside (h : Alike c r r') (who : Slot) (pick : Option (Fin 4)) :
    Alike c (doPickside r who pick) (doPickside r' who pick) := by
  unfold doPickside
  rw [h.stat, h.checkPlayer]
  refine ite (fun _ => h) fun _ => ?_
  cases Inl.checkPlayer r who true with
  | none => exact h
  | some num =>
    dsimp only
    rw [h.teams]
    refine ite (fun _ => h) fun _ => ?_
    refine ite (fun _ => h) fun _ => ?_
    cases pick with
    | none => exact ite (fun _ => h) fun _ => h.modifyTeam num _
    | some k => exact h.pickRace num k

theorem requestStart (h : Alike c r r') (num : Side) : Alike c (Inl.requestStart r num) (Inl.requestStart r' num) := by
  have h₁ := h.modifyTeam num fun t => { t with flags := t.flags ||| tStart }
  unfold Inl.requestStart
  dsimp only
  unfold agreed
  rw [h₁.bothHave, h₁.teams]
  refine ite (fun _ => h₁) fun _ => ?_
  refine ite (fun _ => h₁) fun _ => ?_
  exact (h₁.modifyTeams _).startCountdown

/-- A start is answered alike. -/
theorem start (h : Alike c r r') (who : Slot) : Alike c (doStart r who) (doStart r' who) := by
  unfold doStart
  rw [h.stat, h.checkPlayer]
  refine ite (fun _ => h) fun _ => ?_
  cases Inl.checkPlayer r who true with
  | none => exact h
  | some num =>
    -- a draft that is over is forgotten
    have hdraft : Alike c
        (if r.has sDraft && !r.mem.status.gameup.has guInlDrafting then
          r.modifyStat fun s => { s with flags := s.flags &&& ~~~sDraft } else r)
        (if r'.has sDraft && !r'.mem.status.gameup.has guInlDrafting then
          r'.modifyStat fun s => { s with flags := s.flags &&& ~~~sDraft } else r') := by
      rw [h.has, h.mem]
      refine ite (fun _ => h.clearFlags sDraft) fun _ => h
    dsimp only
    generalize (if r.has sDraft && !r.mem.status.gameup.has guInlDrafting then _ else r) = X at hdraft ⊢
    generalize (if r'.has sDraft && !r'.mem.status.gameup.has guInlDrafting then _ else r') = X' at hdraft ⊢
    rw [hdraft.has, hdraft.teams]
    refine ite (fun _ => hdraft) fun _ => ?_
    split
    · exact hdraft.requestStart num
    · exact hdraft

theorem resetgalaxy (h : Alike c r r') (who : Slot) (galaxy : Fin maxPlanets → Planet) :
    Alike c (doResetgalaxy r who galaxy) (doResetgalaxy r' who galaxy) := by
  unfold doResetgalaxy
  rw [h.stat, h.checkPlayer]
  refine ite (fun _ => h) fun _ => ?_
  cases Inl.checkPlayer r who true with
  | none => exact h
  | some num =>
    have h₁ := h.modifyTeam num fun t => { t with flags := t.flags ||| tResetGalaxy }
    dsimp only
    rw [h₁.bothHave]
    exact ite (fun _ => (h₁.modifyTeams _).plResetInl _) fun _ => h₁

theorem gametime (h : Alike c r r') (who : Slot) (times : Option (Int × Int)) :
    Alike c (doGametime r who times) (doGametime r' who times) := by
  unfold doGametime
  rw [h.checkPlayer]
  rcases Inl.checkPlayer r who true with _ | num
  · exact h
  rcases times with _ | ⟨time, overtime⟩
  · exact h
  · have h₁ := h.modifyTeam num fun t => { t with time := time, overtime := overtime }
    dsimp only
    rw [h.stat, h₁.teams, h₁.permin]
    refine ite (fun _ => h) fun _ => ?_
    exact ite (fun _ => h₁) fun _ => h₁.modifyStat _ rfl id id

theorem army (h : Alike c r r') (who : Slot) (army : Option Int) : Alike c (doArmy r who army) (doArmy r' who army) := by
  unfold doArmy
  rw [h.checkPlayer]
  rcases Inl.checkPlayer r who true with _ | num
  · exact h
  rcases army with _ | army
  · exact h
  · have h₁ := h.modifyTeam num fun t => { t with startArmies := army }
    dsimp only
    rw [h.stat, h₁.teams]
    refine ite (fun _ => h) fun _ => ?_
    exact ite (fun _ => h₁) fun _ => h₁.modifyStat _ rfl id id

theorem scoremode (h : Alike c r r') (who : Slot) (mode : Option Int) :
    Alike c (doScoremode r who mode) (doScoremode r' who mode) := by
  unfold doScoremode
  rw [h.checkPlayer]
  rcases Inl.checkPlayer r who true with _ | num
  · exact h
  rcases mode with _ | mode
  · exact h
  · have h₁ := h.modifyTeam num fun t => { t with scoreMode := mode }
    dsimp only
    rw [h.stat, h₁.teams]
    refine ite (fun _ => h) fun _ => ?_
    refine ite (fun _ => h) fun _ => ?_
    exact ite (fun _ => h₁.modifyStat _ rfl id id) fun _ => h₁

theorem register (h : Alike c r r') (who : Slot) : Alike c (doRegister r who) (doRegister r' who) := by
  unfold doRegister
  rw [h.checkPlayer]
  cases Inl.checkPlayer r who true with
  | none => exact h
  | some num => exact h.modifyTeam num _

theorem confine (h : Alike c r r') (who : Slot) : Alike c (doConfine r who) (doConfine r' who) := by
  unfold doConfine
  rw [h.checkPlayer]
  cases Inl.checkPlayer r who true with
  | none => exact h
  | some num =>
    have h₁ := h.modifyTeam num fun t => { t with flags := t.flags &&& ~~~tConfine }
    have h₂ := h.modifyTeam num fun t => { t with flags := t.flags ||| tConfine }
    dsimp only
    rw [h.has, h.teams, h₁.teams]
    refine ite (fun _ => h) fun _ => ?_
    refine ite (fun _ => ?_) fun _ => h₂.setFlags (by decide)
    exact ite (fun _ => h₁) fun _ => h₁.clearFlags sConfine

theorem inlFreeze (h : Alike c r r') : Alike c (Inl.inlFreeze r) (Inl.inlFreeze r') := by
  have h₁ := ((h.modifyTeams fun t => { t with flags := t.flags ||| tPause }).setFlags (m := sFreeze)
    (by decide)).modifyStatus (fun s => { s with gameup := s.gameup ||| (guPractice ||| guPaused) })
    (Word.has_or (by decide))
  unfold Inl.inlFreeze
  exact h₁.setMem (by rw [h₁.mem]) h₁.drafted

theorem endPause (h : Alike c r r') : Alike c (Inl.endPause r) (Inl.endPause r') :=
  (h.clearFlags (sFreeze ||| sCountdown)).modifyStatus _ (Word.has_andNot (by decide))

theorem settlePause (h : Alike c r r') : Alike c (Inl.settlePause r) (Inl.settlePause r') := by
  unfold Inl.settlePause
  rw [h.bothHave, h.teams]
  refine ite (fun _ => h.inlFreeze) fun _ => ?_
  refine ite (fun _ => ?_) fun _ => h
  refine h.startCount (fun s => { s with flags := s.flags ||| sCountdown }) 2 10 (a := .endPause) Action.noConfusion rfl fun hs => ?_
  unfold gameOn at hs
  rwa [Word.has_or (by decide)] at hs

theorem pause (h : Alike c r r') (who : Slot) (request now : Bool) :
    Alike c (doPause r who request now) (doPause r' who request now) := by
  unfold doPause
  rw [h.checkPlayer]
  cases Inl.checkPlayer r who true with
  | none => exact h
  | some num =>
    dsimp only
    rw [h.has, h.teams]
    refine ite (fun _ => h) fun _ => ?_
    refine ite (fun _ => ?_) fun _ => ?_
    · exact ite (fun _ => (h.modifyTeams _).settlePause) fun _ => (h.modifyTeam num _).settlePause
    · exact ite (fun _ => h) fun _ => (h.modifyTeam num _).settlePause

theorem timeout (h : Alike c r r') (who : Slot) : Alike c (doTimeout r who) (doTimeout r' who) := by
  unfold doTimeout
  rw [h.checkPlayer]
  cases Inl.checkPlayer r who true with
  | none => exact h
  | some num =>
    have h₁ := h.modifyTeam num fun t => { t with flags := t.flags &&& ~~~tTimeout, tmout := t.tmout + 1 }
    have h₂ := h.modifyTeam num fun t => { t with flags := t.flags ||| tTimeout, tmout := t.tmout - 1 }
    dsimp only
    rw [h.has, h.teams, h₁.teams]
    refine ite (fun _ => h) fun _ => ?_
    refine ite (fun _ => ?_) fun _ => ?_
    · exact ite (fun _ => h₁) fun _ => h₁.modifyStat _ rfl has_of_has_andNot has_of_has_andNot
    · exact ite (fun _ => h) fun _ => h₂.setFlags (by decide)

theorem restart (h : Alike c r r') (who : Slot) :
    Alike c (doRestart r who).1 (doRestart r' who).1 ∧ (doRestart r' who).2 = (doRestart r who).2 := by
  unfold doRestart
  rw [h.checkPlayer]
  cases Inl.checkPlayer r who true with
  | none => exact ⟨h, rfl⟩
  | some num =>
    have h₁ := h.modifyTeam num fun t => { t with flags := t.flags ||| tRestart }
    dsimp only
    rw [h.has, h₁.bothHave]
    split
    · exact ⟨h, rfl⟩
    · exact ⟨h₁, rfl⟩

theorem obey (h : Alike c r r') (who : Slot) (m : Command) : Alike c (Inl.obey r who m) (Inl.obey r' who m) := by
  cases m with
  | captain => exact h.captain who
  | uncaptain => exact h.uncaptain who
  | pickside pick => exact h.pickside who pick
  | start => exact h.start who
  | resetgalaxy galaxy => exact h.resetgalaxy who galaxy
  | gametime times => exact h.gametime who times
  | army army => exact h.army who army
  | scoremode mode => exact h.scoremode who mode
  | register => exact h.register who
  | confine => exact h.confine who
  | pause => exact h.pause who true false
  | pausenow => exact h.pause who true true
  | «continue» => exact h.pause who false false
  | timeout => exact h.timeout who
  | restart galaxy => exact h

/-- What is not reset was the same. -/
theorem resetInl (h : Alike c r r') (galaxy : Option (Fin maxPlanets → Planet)) :
    Alike c (Inl.resetInl r galaxy) (Inl.resetInl r' galaxy) := by
  have h₁ := h.modifyStatus (fun s => { s with gameup := (s.gameup ||| (guChaos ||| guPractice)) &&& ~~~guPaused })
    (by rw [Word.has_andNot (by decide), Word.has_or (by decide)])
  have hfresh {r r' : Robot} (h : Alike c r r') : Alike c
      { r.modifyStat (freshStats r) with teams := fun t => freshTeam t (r.teams t) }
      { r'.modifyStat (freshStats r') with teams := fun t => freshTeam t (r'.teams t) } := by
    have hf : freshStats r' = freshStats r := by
      unfold freshStats
      rw [h.permin]
    have hflags : (freshStats r r.stat).flags = sPregame := rfl
    have h₂ := h.modifyStat (freshStats r) rfl (fun hs => by rw [hflags] at hs; exact absurd hs (by decide)) fun hs => by
      unfold gameOn at hs
      rw [hflags] at hs
      exact absurd hs (by decide)
    rw [hf]
    exact h₂.setTeams (by rw [h.teams])
  unfold Inl.resetInl
  cases galaxy with
  | none => exact ((hfresh h₁).setMasks _ _ _ _).setPos _
  | some planets =>
    have h₂ := h₁.obliterate 1 .kprovidence
    dsimp only
    rw [Option.isSome_some, if_pos rfl, if_pos rfl]
    generalize Inl.obliterate _ _ _ = X at h₂ ⊢
    generalize Inl.obliterate _ _ _ = X' at h₂ ⊢
    exact (hfresh h₂).plResetInl (some planets)

/-- The same messages, one after the other. -/
theorem checkmess : ∀ (ms : List Message) {r r' : Robot}, Alike c r r' →
    Alike c (Inl.checkmess ms r) (Inl.checkmess ms r')
  | [], _, _, h => h
  | m :: ms, r, r', h => by
    unfold Inl.checkmess
    rw [h.has, h.allowed]
    refine ite (fun _ => checkmess ms h) fun _ => ?_
    obtain ⟨who, k⟩ := m
    cases k with
    | restart galaxy =>
      obtain ⟨h₁, hboth⟩ := h.restart who
      dsimp only
      rcases hr : doRestart r who with ⟨r₁, both⟩
      rcases hr' : doRestart r' who with ⟨r₁', both'⟩
      rw [hr, hr'] at h₁ hboth
      dsimp only at h₁ hboth
      rw [hboth]
      cases both with
      | true => exact (checkmess ms h₁).resetInl _
      | false => exact checkmess ms h₁
    | _ => exact checkmess ms (h.obey who _)

/-! ## Scores -/

theorem countplanets (h : Alike c r r') : Alike c (Inl.countplanets r) (Inl.countplanets r') := by
  refine h.setTeams (funext fun t => ?_)
  rw [h.teams, h.mem, h.flagOf]

theorem normWinner (h : Alike c r r') : Inl.normWinner r' = Inl.normWinner r := by
  unfold Inl.normWinner
  rw [h.teams]

theorem contWinner (h : Alike c r r') : Inl.contWinner r' = Inl.contWinner r := by
  unfold Inl.contWinner
  rw [h.teams, h.stat]

theorem winner (h : Alike c r r') : Inl.winner r' = Inl.winner r := by
  unfold Inl.winner
  rw [h.normWinner, h.contWinner, h.stat, h.has]

theorem announceScores (h : Alike c r r') : Alike c (Inl.announceScores r) (Inl.announceScores r') := by
  unfold Inl.announceScores checkWinner
  rw [h.stat]
  refine ite (fun _ => h) fun _ => ?_
  exact ite (fun _ => h) fun _ => h.countplanets

theorem scorePlanet (h : Alike c r r') (weight : ℚ) (p : Fin maxPlanets) :
    Alike c (Inl.scorePlanet weight r p) (Inl.scorePlanet weight r' p) := by
  refine h.setTeams (funext fun t => ?_)
  rw [h.teams, h.flagOf, h.mem, h.stat, h.permin]

theorem updateScores (h : Alike c r r') : Alike c (Inl.updateScores r) (Inl.updateScores r') := by
  have hweight : scoreWeight r' = scoreWeight r := by
    unfold scoreWeight
    rw [h.stat, h.exp]
  unfold Inl.updateScores
  rw [hweight]
  have h₁ := h.modifyStat (fun s => { s with weightedDivisor := s.weightedDivisor + scoreWeight r * 2 }) rfl id id
  have h₂ := List.foldl_rel (r := Alike c) (l := List.finRange maxPlanets) h₁ fun p _ _ _ h =>
    h.scorePlanet (scoreWeight r) p
  dsimp only
  generalize List.foldl _ _ _ = X at h₂ ⊢
  generalize List.foldl _ _ _ = X' at h₂ ⊢
  rw [h₂.stat, h₂.permin]
  exact ite (fun _ => h₂.announceScores) fun _ => h₂

/-! ## Genocide -/

theorem listBest (h : Alike c r r') (team : Word) : Alike c (Inl.listBest r team) (Inl.listBest r' team) :=
  h.setMem (by rw [h.mem]) h.drafted

theorem checkgeno (h : Alike c r r') :
    Alike c (Inl.checkgeno r).1 (Inl.checkgeno r').1 ∧ (Inl.checkgeno r').2 = (Inl.checkgeno r).2 := by
  have hloser : genoLoser r' = genoLoser r := by
    unfold genoLoser
    rw [h.mem, h.teams]
  unfold Inl.checkgeno
  rw [hloser]
  rcases genoLoser r with _ | loser
  · exact ⟨h, rfl⟩
  · dsimp only
    rw [h.teams]
    have h₁ := (h.listBest (r.teams loser.other).side).listBest (r.teams loser).side
    exact ⟨h₁.setMem (by rw [h₁.mem, h₁.teams]) h₁.drafted, rfl⟩

/-! ## The end of a game -/

theorem tellCaptains (h : Alike c r r') : Alike c (Inl.tellCaptains r) (Inl.tellCaptains r') := by
  unfold Inl.tellCaptains
  rw [h.bothHave]
  refine ite (fun _ => ?_) fun _ => h
  refine List.foldl_rel h fun t _ r r' h => ?_
  rw [h.teams]
  exact h.modifyCaptain _ _

theorem atEnd (h : Alike c r r') : Alike c (Inl.atEnd r) (Inl.atEnd r') := by
  have h₁ := (h.note .gameOver).setMasks homeTeam awayTeam homeTeam awayTeam
  unfold Inl.atEnd
  exact h₁.setMem (by rw [h₁.mem]) h₁.drafted

/-- The ships have exploded when the messages are flushed. -/
theorem ended (h : Alike c r r') : Alike { c with timer := True } (Inl.ended r) (Inl.ended r') := by
  have h₁ := h.atEnd.obliterate 1 .tournend
  have htimer : (Inl.obliterate (Inl.atEnd r) 1 .tournend).obliterateTimer = 10 := by
    obtain ⟨m, hm, -⟩ := obliterate_eq (Inl.atEnd r) 1 .tournend
    rw [hm]
  have h₂ := (h₁.retime (x := True) fun _ => htimer).modifyStatus (fun s =>
    { s with tourn := false, gameup := (s.gameup ||| (guChaos ||| guPractice)) &&& ~~~(guPaused &&& guInlDrafted) })
    (by rw [Word.has_andNot (by decide), Word.has_or (by decide)])
  exact (h₂.setPos _).tellCaptains

theorem gameOver (h : Alike c r r') (flush : List Message) : Alike c (Inl.gameOver r flush) (Inl.gameOver r' flush) := by
  have h₁ := (checkmess flush h.ended).resetInl none
  rw [gameOver_eq, gameOver_eq]
  exact h₁.retime (x := c.timer) fun _ => h₁.timer trivial

/-! ## While the clocks agree -/

theorem clock (h : Alike c r r') (hw : c.Live) : r'.game = r.game := by
  refine h.game ?_
  rw [hw.watch]
  trivial

/-- The same extra time; the ships explode if there has been none. -/
theorem extraTime (h : Alike c r r') (hw : c.Live) : Alike c (Inl.extraTime r) (Inl.extraTime r') := by
  have hticks {r r' : Robot} (h : Alike c r r') : extraTicks r' = extraTicks r := by
    unfold extraTicks
    rw [h.permin]
  have hobliterate : Alike c
      (if (r.note .extraTime).stat.extratime = 0 then Inl.obliterate (r.note .extraTime) 0 .kprovidence
        else r.note .extraTime)
      (if (r'.note .extraTime).stat.extratime = 0 then Inl.obliterate (r'.note .extraTime) 0 .kprovidence
        else r'.note .extraTime) := by
    have h₁ := h.note .extraTime
    rw [h₁.stat]
    exact ite (fun _ => h₁.obliterate 0 .kprovidence) fun _ => h₁
  unfold Inl.extraTime
  dsimp only
  generalize (if (r.note .extraTime).stat.extratime = 0 then _ else _) = X at hobliterate ⊢
  generalize (if (r'.note .extraTime).stat.extratime = 0 then _ else _) = X' at hobliterate ⊢
  rw [hticks hobliterate]
  have h₂ : Alike c (X.modifyStat fun s => { s with extratime := s.extratime + extraTicks X })
      (X'.modifyStat fun s => { s with extratime := s.extratime + extraTicks X }) := by
    unfold Robot.modifyStat
    rw [hobliterate.stat]
    refine hobliterate.setStat (fun n hn => ?_) id (c.watch.on_imp id)
    rw [hw.extratime] at hn
    cases hn
  refine Alike.announceScores (h₂.setClock 0 ?_)
  rw [h₂.clock hw, hticks h₂]

/-- Overtime begins for both. -/
theorem overtime (h : Alike c r r') (hw : c.Live) : Alike c (Inl.overtime r) (Inl.overtime r') := by
  have h₁ : Alike c
      ((r.note .overtime).modifyStat fun s => { s with flags := (s.flags &&& ~~~(sTourney ||| sCountdown)) ||| sOvertime })
      ((r'.note .overtime).modifyStat fun s =>
        { s with flags := (s.flags &&& ~~~(sTourney ||| sCountdown)) ||| sOvertime }) := by
    unfold Robot.modifyStat
    rw [(h.note .overtime).stat]
    refine (h.note .overtime).setStat (fun _ _ hn => hn) (fun hs => ?_) fun _ => ?_
    · rw [Word.has_or (by decide), Word.has_iff, BitVec.and_assoc] at hs
      exact absurd (by simp [sTourney, sCountdown]) hs
    · rw [hw.watch]
      trivial
  have h₂ := h₁.obliterate 0 .kprovidence
  unfold Inl.overtime
  dsimp only
  generalize Inl.obliterate _ _ _ = X at h₂ ⊢
  generalize Inl.obliterate _ _ _ = X' at h₂ ⊢
  refine Alike.announceScores (h₂.setClock 0 ?_)
  rw [h₂.clock hw, h₂.stat]

theorem endTourney (h : Alike c r r') (hw : c.Live) (flush : List Message) :
    Alike c (Inl.endTourney r flush) (Inl.endTourney r' flush) := by
  have h₁ := h.countplanets
  have hmax : extraMax (Inl.countplanets r') = extraMax (Inl.countplanets r) := by
    unfold extraMax
    rw [h₁.permin]
  unfold Inl.endTourney checkWinner
  dsimp only
  rw [h₁.winner, h₁.has, h₁.stat, h₁.clock hw, hmax]
  refine ite (fun _ => h₁.announceScores.gameOver flush) fun _ => ?_
  refine ite (fun _ => ?_) fun _ => ?_
  · exact ite (fun _ => h₁.extraTime hw) fun _ => h₁.announceScores.gameOver flush
  refine ite (fun _ => h₁.overtime hw) fun _ => ?_
  exact ite (fun _ => h₁.announceScores.gameOver flush) fun _ => h₁

/-- What a countdown ends in. -/
theorem action_due (h : Alike c r r') (hw : c.Live) (flush : List Message) (a : Action) :
    Alike c (Inl.act r flush a) (Inl.act r' flush a) := by
  cases a with
  | startTourney => exact h.startTourney
  | endPause => exact h.endPause
  | endTourney => exact h.endTourney hw flush

/-- The clocks of both games come to the same entry of the table. -/
theorem countGame (h : Alike c r r') (hw : c.Live) (flush : List Message) :
    Alike c (Inl.countGame r flush) (Inl.countGame r' flush) := by
  have hsame : Inl.countdown r'.persec r'.stat.gameTicks r'.game = Inl.countdown r.persec r.stat.gameTicks r.game := by
    rw [h.persec, h.stat, h.clock hw]
  unfold Inl.countGame
  rw [hsame]
  rcases hcount : Inl.countdown r.persec r.stat.gameTicks r.game with _ | ⟨d, due⟩
  · exact h.note _
  · obtain ⟨i, rfl⟩ := countdown_idx hcount
    have h₁ : Alike c { r with game := { r.game with idx := i } } { r' with game := { r.game with idx := i } } := by
      have := h.setClock i (congrArg Countdown.ends (h.clock hw))
      rwa [h.clock hw] at this
    cases due with
    | false => exact h₁
    | true =>
      dsimp only
      rw [h.has, congrArg Stats.gameTicks h.stat]
      exact (h₁.note _).action_due hw flush _

/-- What a countdown before a game, or in a pause, ends in. -/
theorem action_begin (h : Alike c r r') {a : Action} (ha : a ≠ .endTourney) (flush : List Message) :
    Alike c (Inl.act r flush a) (Inl.act r' flush a) := by
  cases a with
  | startTourney => exact h.startTourney
  | endPause => exact h.endPause
  | endTourney => exact absurd rfl ha

theorem countStart (h : Alike c r r') (hcount : r.has sCountdown = true) :
    Alike c (Inl.countStart r) (Inl.countStart r') := by
  obtain ⟨heq, haction⟩ := h.countdown hcount
  have hsame : Inl.countdown r'.persec r'.stat.ticks r'.countdown = Inl.countdown r.persec r.stat.ticks r.countdown := by
    rw [h.persec, h.stat, heq]
  unfold Inl.countStart
  rw [hsame]
  rcases hdue : Inl.countdown r.persec r.stat.ticks r.countdown with _ | ⟨d, due⟩
  · exact h.note _
  · obtain ⟨i, rfl⟩ := countdown_idx hdue
    have h₁ := h.setCountdown (d := { r.countdown with idx := i }) ⟨rfl, rfl⟩ haction
    cases due with
    | false => exact h₁
    | true => exact h₁.action_begin haction []

/-! ## Ticks -/

theorem allAlert (h : Alike c r r') (stat : Word) : Inl.allAlert r' stat = Inl.allAlert r stat := by
  unfold Inl.allAlert
  simp only [h.player]

theorem countTick (h : Alike c r r') (hw : c.Live) : Alike c (Inl.countTick r) (Inl.countTick r') := by
  have h₁ := (h.modifyStat (fun s => { s with gameTicks := s.gameTicks + 1 }) rfl id id).modifyStat (fun s =>
    { s with remaining :=
        s.time + (if s.flags.has sOvertime then s.overtime else 0) + s.extratime - s.gameTicks }) rfl id id
  unfold Inl.countTick
  dsimp only
  rw [h₁.obliterateTimer]
  exact h₁.setTimer fun ht => absurd ht hw.timer

theorem checkTimeout (h : Alike c r r') : Alike c (Inl.checkTimeout r) (Inl.checkTimeout r') := by
  have h₁ := h.modifyStat (fun s => { s with tmoutTicks := s.tmoutTicks + 1 }) rfl id id
  unfold Inl.checkTimeout
  dsimp only
  rw [h.has, h₁.obliterateTimer, h₁.stat, h₁.allAlert, h₁.allAlert]
  refine ite (fun _ => ?_) fun _ => h
  refine ite (fun _ => ?_) fun _ => h₁
  exact ((h₁.modifyStat (fun s => { s with flags := s.flags &&& ~~~sTmout, tmoutTicks := 0 }) rfl has_of_has_andNot
    has_of_has_andNot).modifyTeams _).inlFreeze

theorem suddenDeath (h : Alike c r r') (hw : c.Live) (mail : Mail) :
    Alike c (Inl.suddenDeath r mail) (Inl.suddenDeath r' mail) := by
  unfold Inl.suddenDeath
  rw [h.has, h.stat, h.persec]
  exact ite (fun _ => h.endTourney hw _) fun _ => h

theorem periodic (h : Alike c r r') (hw : c.Live) (mail : Mail) :
    Alike c (Inl.periodic r mail) (Inl.periodic r' mail) := by
  unfold Inl.periodic
  rw [h.stat, h.persec]
  exact ite (fun _ => h.countGame hw _) fun _ => h

theorem genoCheck (h : Alike c r r') (hw : c.Live) (mail : Mail) :
    Alike c (Inl.genoCheck r mail) (Inl.genoCheck r' mail) := by
  obtain ⟨h₁, hgeno⟩ := h.checkgeno
  unfold Inl.genoCheck
  rcases hr : Inl.checkgeno r with ⟨r₁, geno⟩
  rcases hr' : Inl.checkgeno r' with ⟨r₁', geno'⟩
  rw [hr, hr'] at h₁ hgeno
  dsimp only at h₁ hgeno
  rw [hgeno]
  cases geno with
  | true => exact h₁.endTourney hw _
  | false => exact h₁

theorem listening (h : Alike c r r') : Alike c (Inl.listening r) (Inl.listening r') := by
  have h₁ := (h.modifyStat (fun s => { s with ticks := s.ticks + 1 }) rfl id id).playerMaint
  unfold Inl.listening
  dsimp only
  generalize Inl.playerMaint _ = X at h₁ ⊢
  generalize Inl.playerMaint _ = X' at h₁ ⊢
  rw [h₁.has]
  exact ite h₁.countStart fun _ => h₁

theorem prepare (h : Alike c r r') (mail : Mail) : Alike c (Inl.prepare r mail) (Inl.prepare r' mail) := by
  rw [prepare_listening, prepare_listening]
  exact checkmess mail.mess h.listening

theorem ticked (h : Alike c r r') (hw : c.Live) : Alike c (Inl.ticked r) (Inl.ticked r') :=
  (h.countTick hw).checkTimeout.modifyStatus (fun s => { s with tourn := true }) rfl

theorem play (h : Alike c r r') (hw : c.Live) (mail : Mail) : Alike c (Inl.play r mail) (Inl.play r' mail) := by
  rw [play_eq, play_eq]
  exact (((h.ticked hw).suddenDeath hw mail).periodic hw mail).updateScores

/-- A tick, for clocks that agree as long as a game is on. -/
theorem inlmove (h : Alike { c with watch := .inGame, timer := False, extratime := none } r r') (mail : Mail) :
    Alike { c with watch := .inGame, timer := False, extratime := none } (Inl.inlmove r mail) (Inl.inlmove r' mail) := by
  have h₁ := h.prepare mail
  have hplaying : playing (Inl.prepare r' mail) = playing (Inl.prepare r mail) := by
    unfold playing
    rw [h₁.has, h₁.has]
  unfold Inl.inlmove
  dsimp only
  rw [hplaying]
  refine ite (fun hp => ?_) fun _ => h₁
  -- from here to the end of the tick the clocks agree, whatever becomes of the game
  have hgame := h₁.game (Bool.and_eq_true_iff.1 hp).1
  have hw : Common.Live { c with watch := .always, timer := False, extratime := none } := ⟨rfl, rfl, id⟩
  have h₂ := ((h₁.rewatch (w := .always) fun _ => hgame).play hw mail).genoCheck hw mail
  exact h₂.rewatch (w := .inGame) fun _ => h₂.clock hw

end Alike

end

end Netrek.Inl
