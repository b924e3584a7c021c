/-
One game of a robot after another. What `reset_inl` leaves does not depend on the games before, but for
the extra time, the pending trade and `GU_INL_DRAFTED`, which nobody clears, and the scores of the last
tick of a game that its clock has ended.
-/
import NetrekServer.Draft.Update
import NetrekServer.Inl.Lockstep
import NetrekServer.Inl.Trade

namespace Netrek.Inl

open Netrek.Lib

/-! ## What comes from outside -/

/-- The flags of `status->gameup` that a robot or a draft sets. -/
def ownFlags : Word := guChaos ||| guPractice ||| guPaused ||| guInlDrafted

/-- What a robot finds in shared memory, its own flags apart: the planets, the players, the slots and the queues. -/
structure Setting where
  mem : Memory
  pos : Slot → Int
  desks : Slot → SlotMaint.Desk
  queues : Nat → Queue.PQueue
  disconnect : Slot → Int
  occupant : Slot → Nat
  deriving Inhabited

def tDraft : Word := 0x200

/-- `do_draft`, with the rest of the draft. -/
def doDraft (r : Robot) (who : Slot) (d : Draft.Hall) : Robot :=
  if !r.stat.change then r
  else
    match checkPlayer r who true with
    | none => r
    | some num =>
      let r := r.modifyTeam num fun t => { t with flags := t.flags ||| tDraft }
      if !bothHave r tDraft then r
      else
        let r := r.modifyTeams fun t => { t with flags := t.flags &&& ~~~tDraft }
        let r := r.modifyStat fun s => { s with flags := s.flags ||| sDraft }
        { r with mem := (Draft.inlDraftBegin { d with world := { d.world with mem := r.mem } }).world.mem }

/-- What happens next: a tick with the messages that it finds, a command that is no `Command`, or a change of shared
memory by others, such as `inl_draft_done` makes. -/
inductive Turn
  | tick (mail : Mail)
  | trade (who : Slot) (comm : List Char)
  | draft (who : Slot) (d : Draft.Hall)
  | others (f : Memory → Memory)

structure Event where
  scene : Setting
  turn : Turn

namespace Market

def drafted (m : Market) : Bool := m.robot.mem.status.gameup.has guInlDrafted

def withRobot (m : Market) (r : Robot) : Market := { m with bureau := { m.bureau with robot := r } }

/-- Shared memory as it is found. -/
def found (m : Market) (s : Setting) : Memory :=
  { s.mem with status := { s.mem.status with
      gameup := (s.mem.status.gameup &&& ~~~ownFlags) ||| (m.robot.mem.status.gameup &&& ownFlags) } }

def arrange (m : Market) (s : Setting) : Market :=
  { m with
    bureau := ⟨{ m.robot with mem := m.found s, pos := s.pos }, s.desks, s.queues, s.disconnect⟩
    occupant := s.occupant }

def turn (m : Market) : Turn → Market
  | .tick mail => m.withRobot (inlmove m.robot mail)
  | .trade who comm => m.doTrade who comm
  -- DRAFT is a command for the time before a game
  | .draft who d => if m.robot.has sPregame then m.withRobot (doDraft m.robot who d) else m
  | .others f => m.withRobot { m.robot with mem := f m.robot.mem }

def after (m : Market) (e : Event) : Market := (m.arrange e.scene).turn e.turn

/-! ## What robots decide by -/

end Market

/-- What `inl_stat` and `inl_teams` hold, and the flags. -/
structure Standing where
  stat : Stats
  teams : Side → Team
  trade : Trade
  obliterateTimer : Int
  paused : Bool
  drafted : Bool

/-- What `check_winner` finds, the winner by planets and the winner by scores. -/
def verdict (r : Robot) : Int × Int × Int :=
  let r := countplanets r
  (winner r, normWinner r, contWinner r)

/-- The game when the clock has been looked at. -/
def clocked (r : Robot) (mail : Mail) : Robot := periodic (suddenDeath (ticked r) mail) mail

/-- The clock calls `end_tourney`: on a second when the countdown of the game comes to its action, and between two
seconds in overtime. -/
def ClockCalls (r : Robot) : Prop :=
  if r.stat.gameTicks % r.persec = 0 then
    ∃ c, countdown r.persec r.stat.gameTicks r.game = some (c, true) ∧ c.action = .endTourney
  else r.has sOvertime = true

/-- Nobody has won, and outside regulation there is time left. -/
structure Undecided (r : Robot) : Prop where
  winner : winner (countplanets r) = 0
  time : r.has sTourney = false → r.stat.gameTicks < r.game.ends

/-- The verdicts at the three places where a tick may call `end_tourney`. -/
def verdicts (r : Robot) (mail : Mail) : List (Int × Int × Int) :=
  let r := prepare r mail
  if playing r then
    [verdict (ticked r), verdict (suddenDeath (ticked r) mail), verdict (checkgeno (play r mail)).1]
  else []

namespace Market

def standing (m : Market) : Standing :=
  ⟨m.robot.stat, m.robot.teams, m.trade, m.robot.obliterateTimer, m.robot.mem.status.gameup.has guPaused, m.drafted⟩

/-- A game ends: the robot is back in the time before a game. -/
def ends (m : Market) (e : Event) : Bool := !m.robot.has sPregame && (m.after e).robot.has sPregame

/-- When its clock calls `end_tourney`, the game is undecided. -/
def notByClock (m : Market) (e : Event) : Prop :=
  match e.turn with
  | .tick mail =>
    let r := prepare (m.arrange e.scene).robot mail
    playing r = true → ClockCalls (ticked r) → Undecided (ticked r)
  | _ => True

/-- Before the game ends there has been no extra time, nothing is being traded and nobody was drafted; and it is not
ended by its clock. -/
structure Clean (m : Market) (e : Event) : Prop where
  extratime : m.robot.stat.extratime = 0
  trade : m.trade = .reset
  drafted : m.drafted = false
  notByClock : m.notByClock e

/-- Whatever comes later, two robots decide alike. -/
structure Indistinct (m m' : Market) : Prop where
  standing : ∀ later : List Event, (later.foldl after m').standing = (later.foldl after m).standing
  notes : ∀ later : List Event, ∃ news, (later.foldl after m).robot.log = news ++ m.robot.log ∧
    (later.foldl after m').robot.log = news ++ m'.robot.log
  told : ∀ later : List Event, ∃ news, (later.foldl after m).log = news ++ m.log ∧
    (later.foldl after m').log = news ++ m'.log
  verdicts : ∀ (later : List Event) (s : Setting) (mail : Mail),
    verdicts ((later.foldl after m').arrange s).robot mail = verdicts ((later.foldl after m).arrange s).robot mail

end Market

/-! ## Trades side by side -/

/-- The robots agree, and so do the slots around them. -/
structure Adjacent (c : Common) (b b' : Bureau) : Prop where
  robot : Alike c b.robot b'.robot
  desks : b'.desks = b.desks
  queues : b'.queues = b.queues
  disconnect : b'.disconnect = b.disconnect

/-- So do the pending trades. -/
structure Level (c : Common) (told told' : List Announcement) (m m' : Market) : Prop where
  bureau : Adjacent c m.bureau m'.bureau
  trade : m'.trade = m.trade
  occupant : m'.occupant = m.occupant
  log : ∃ news, m.log = news ++ told ∧ m'.log = news ++ told'

section

variable {c : Common} {told told' : List Announcement} {m m' : Market}

theorem status_changeTeamQuietly (r : SlotMaint.Roster) (k : Slot) (ours theirs : Word) :
    (SlotMaint.changeTeamQuietly r k ours theirs).server.mem.status = r.server.mem.status := by
  rw [SlotMaint.changeTeamQuietly_eq]
  dsimp only
  split <;> rfl

theorem Adjacent.changeTeam {b b' : Bureau} (h : Adjacent c b b') (k : Slot) (ours theirs : Word) :
    Adjacent c (b.changeTeam k ours theirs) (b'.changeTeam k ours theirs) := by
  have hroster : b'.roster = b.roster := by
    unfold Bureau.roster
    rw [h.robot.mem, h.desks, h.queues]
  have hstatus := status_changeTeamQuietly b.roster k ours theirs
  unfold Bureau.changeTeam Bureau.modifyPlayer Bureau.withRoster
  rw [hroster]
  refine ⟨Alike.modifyPlayer (h.robot.setMem rfl ?_) k explodeTraded, rfl, rfl, h.disconnect⟩
  rw [hstatus]
  exact h.robot.drafted

namespace Level

theorem robot (h : Level c told told' m m') : Alike c m.robot m'.robot := h.bureau.robot

theorem withRobot (h : Level c told told' m m') {x : Common} {r r' : Robot} (hr : Alike x r r') :
    Level x told told' (m.withRobot r) (m'.withRobot r') :=
  ⟨⟨hr, h.bureau.desks, h.bureau.queues, h.bureau.disconnect⟩, h.trade, h.occupant, h.log⟩

theorem setTrade (h : Level c told told' m m') (t : Trade) : Level c told told' { m with trade := t } { m' with trade := t } :=
  ⟨h.bureau, rfl, h.occupant, h.log⟩

theorem tell (h : Level c told told' m m') (d : Announcement) : Level c told told' (m.tell d) (m'.tell d) := by
  obtain ⟨news, hm, hm'⟩ := h.log
  exact ⟨h.bureau, h.trade, h.occupant, d :: news, congrArg (d :: ·) hm, congrArg (d :: ·) hm'⟩

theorem player (h : Level c told told' m m') (i : Slot) : m'.player i = m.player i := h.robot.player i

theorem alive (h : Level c told told' m m') (i : Slot) : m'.alive i = m.alive i := by
  unfold Market.alive
  rw [h.player]

theorem tradable (h : Level c told told' m m') (names : List Slot) : m'.tradable names = m.tradable names := by
  have halive : m'.alive = m.alive := funext h.alive
  unfold Market.tradable
  simp only [halive, h.player, h.robot.teams]

theorem request (h : Level c told told' m m') (us : Side) (names : List Slot) : m'.request us names = m.request us names := by
  unfold Market.request
  rw [h.occupant]

theorem ask (h : Level c told told' m m') (us : Side) (names : List Slot) :
    Level c told told' (m.ask us names) (m'.ask us names) := by
  unfold Market.ask
  rw [h.request, h.trade]
  exact (h.setTrade _).tell _

/-- An approved trade moves the same players on both sides. -/
theorem approve (h : Level c told told' m m') (us : Side) (names : List Slot) :
    Level c told told' (m.approve us names) (m'.approve us names) := by
  have hbit (t : Side) : m'.bit t = m.bit t := by
    unfold Market.bit
    rw [h.robot.teams]
  have hmoved {b b' : Bureau} (hb : Adjacent c b b') :
      Level c told told' ({ m with bureau := b, trade := .reset }.tell (.moved (m.request us names)))
        ({ m' with bureau := b', trade := .reset }.tell (.moved (m.request us names))) := by
    have h₁ : Level c told told' { m with bureau := b, trade := .reset } { m' with bureau := b', trade := .reset } :=
      ⟨hb, rfl, h.occupant, h.log⟩
    exact h₁.tell _
  unfold Market.approve
  dsimp only
  rw [h.request, hbit, hbit]
  refine hmoved ?_
  split
  · next a =>
    rw [h.player]
    split
    · exact h.bureau.changeTeam a _ _
    · exact h.bureau.changeTeam a _ _
  · next a b =>
    rw [h.player]
    exact (h.bureau.changeTeam _ _ _).changeTeam _ _ _
  · exact h.bureau

/-- A trade is answered alike. -/
theorem doTrade (h : Level c told told' m m') (who : Slot) (comm : List Char) :
    Level c told told' (m.doTrade who comm) (m'.doTrade who comm) := by
  have hpending : m'.pendingSlots = m.pendingSlots := by
    unfold Market.pendingSlots
    rw [h.trade]
  have hmatches (names : List Slot) : m'.matchesPending names = m.matchesPending names := by
    unfold Market.matchesPending
    rw [h.trade]
  have halive : m'.alive = m.alive := funext h.alive
  unfold Market.doTrade
  rw [h.robot.stat, h.robot.checkPlayer, hpending, halive]
  split
  · exact h
  split
  · exact h
  split
  · next i _ =>
    rw [h.player]
    exact (h.setTrade _).tell _
  split
  · exact h
  · rw [h.trade]
    split
    · exact h
    · exact (h.setTrade _).tell _
  · next names _ =>
    unfold Market.tradeSlots
    rw [h.tradable, h.trade, hmatches]
    split
    · exact h
    split
    · exact h.ask _ names
    split
    · exact h.approve _ names
    · exact h
  · exact h

theorem standing (h : Level c told told' m m') : m'.standing = m.standing := by
  unfold Market.standing Market.drafted
  rw [h.robot.stat, h.robot.teams, h.trade, h.robot.obliterateTimer, h.robot.mem]

end Level

/-! ## Verdicts side by side -/

theorem Alike.verdict {r r' : Robot} (h : Alike c r r') : Inl.verdict r' = Inl.verdict r := by
  have h₁ := h.countplanets
  unfold Inl.verdict
  dsimp only
  rw [h₁.winner, h₁.normWinner, h₁.contWinner]

theorem Alike.verdicts {r r' : Robot} (h : Alike { c with watch := .inGame, timer := False, extratime := none } r r')
    (mail : Mail) : Inl.verdicts r' mail = Inl.verdicts r mail := by
  have h₁ := h.prepare mail
  have hplaying : playing (Inl.prepare r' mail) = playing (Inl.prepare r mail) := by
    unfold playing
    rw [h₁.has, h₁.has]
  unfold Inl.verdicts
  dsimp only
  rw [hplaying]
  split
  · next hp =>
    have hgame := h₁.game (Bool.and_eq_true_iff.1 hp).1
    have hw : Common.Live { c with watch := .always, timer := False, extratime := none } := ⟨rfl, rfl, id⟩
    have h₂ := h₁.rewatch (w := .always) fun _ => hgame
    rw [(h₂.ticked hw).verdict, ((h₂.ticked hw).suddenDeath hw mail).verdict, (h₂.play hw mail).checkgeno.1.verdict]
  · rfl

/-! ## Events side by side -/

theorem Alike.doDraft {r r' : Robot} (h : Alike c r r') (who : Slot) (d : Draft.Hall) :
    ∃ x, Alike { c with drafted := x } (Inl.doDraft r who d) (Inl.doDraft r' who d) := by
  unfold Inl.doDraft
  rw [h.stat, h.checkPlayer]
  split
  · exact ⟨_, h⟩
  split
  · exact ⟨_, h⟩
  · next num _ =>
    have h₁ := h.modifyTeam num fun t => { t with flags := t.flags ||| tDraft }
    dsimp only
    rw [h₁.bothHave]
    split
    · exact ⟨_, h₁⟩
    · have h₂ := (h₁.modifyTeams fun t => { t with flags := t.flags &&& ~~~tDraft }).setFlags (m := sDraft) (by decide)
      exact ⟨_, h₂.setMemory (by rw [h₂.mem])⟩

end

/-- Between events. -/
def idle (machine : Machine) (drafted : Bool) (past past' : List Note) : Common :=
  ⟨machine, drafted, .inGame, False, none, past, past'⟩

/-- Wherever they come to, the robots find the same. -/
def Together (machine : Machine) (past past' : List Note) (told told' : List Announcement) (m m' : Market) : Prop :=
  ∀ s, ∃ d, Level (idle machine d past past') told told' (m.arrange s) (m'.arrange s)

section

variable {machine : Machine} {past past' : List Note} {told told' : List Announcement} {m m' : Market}

theorem Level.arrange {d : Bool} (h : Level (idle machine d past past') told told' m m') :
    Together machine past past' told told' m m' := by
  intro s
  have hfound : m'.found s = m.found s := by
    unfold Market.found
    rw [h.robot.mem]
  exact ⟨_, ⟨(h.robot.setMemory hfound).setPos s.pos, rfl, rfl, rfl⟩, h.trade, rfl, h.log⟩

theorem Level.turn {d : Bool} (h : Level (idle machine d past past') told told' m m') (u : Turn) :
    ∃ x, Level (idle machine x past past') told told' (m.turn u) (m'.turn u) := by
  cases u with
  | tick mail => exact ⟨d, h.withRobot (Alike.inlmove (c := idle machine d past past') h.robot mail)⟩
  | trade who comm => exact ⟨d, h.doTrade who comm⟩
  | draft who hall =>
    obtain ⟨x, hx⟩ := h.robot.doDraft who hall
    unfold Market.turn
    dsimp only
    rw [h.robot.has]
    split
    · exact ⟨x, h.withRobot hx⟩
    · exact ⟨d, h⟩
  | others f => exact ⟨_, h.withRobot (h.robot.setMemory (congrArg f h.robot.mem))⟩

theorem Together.after (h : Together machine past past' told told' m m') (e : Event) :
    Together machine past past' told told' (m.after e) (m'.after e) := by
  obtain ⟨d, hd⟩ := h e.scene
  obtain ⟨x, hx⟩ := hd.turn e.turn
  exact hx.arrange

theorem Together.run (h : Together machine past past' told told' m m') (later : List Event) :
    Together machine past past' told told' (later.foldl Market.after m) (later.foldl Market.after m') :=
  List.foldl_rel h fun e _ _ _ h => h.after e

theorem found_has (m : Market) (s : Setting) {f : Word} (hf : ownFlags &&& f = f ∧ ~~~ownFlags &&& f = 0) :
    (m.found s).status.gameup.has f = m.robot.mem.status.gameup.has f := by
  show Word.has ((s.mem.status.gameup &&& ~~~ownFlags) ||| (m.robot.mem.status.gameup &&& ownFlags)) f = _
  rw [BitVec.or_comm, Word.has_or (by rw [BitVec.and_assoc, hf.2]; exact BitVec.and_zero)]
  unfold Word.has
  rw [BitVec.and_assoc, hf.1]

theorem standing_arrange (m : Market) (s : Setting) : (m.arrange s).standing = m.standing := by
  have hpaused := found_has m s (f := guPaused) (by decide)
  have hdrafted := found_has m s (f := guInlDrafted) (by decide)
  unfold Market.standing Market.drafted
  rw [← hpaused, ← hdrafted]
  rfl

/-- Robots that are together cannot be told apart. -/
theorem Together.indistinct (h : Together machine m.robot.log m'.robot.log m.log m'.log m m') : m.Indistinct m' where
  standing later := by
    obtain ⟨d, hd⟩ := h.run later default
    rw [← standing_arrange _ default, hd.standing, standing_arrange]
  notes later := by
    obtain ⟨d, hd⟩ := h.run later default
    exact hd.robot.log
  told later := by
    obtain ⟨d, hd⟩ := h.run later default
    exact hd.log
  verdicts later s mail := by
    obtain ⟨d, hd⟩ := h.run later s
    exact Alike.verdicts (c := idle machine d m.robot.log m'.robot.log) hd.robot mail

end

/-! ## What a reset leaves -/

/-- A robot as it is before its first game. -/
structure Anew (machine : Machine) (r : Robot) : Prop where
  machine : r.machine = machine
  stat : ∃ s : Stats, s.extratime = 0 ∧ r.stat = freshStats r s
  teams : ∃ x : Side → Team, r.teams = fun t => freshTeam t (x t)
  flags : r.mem.status.gameup &&& ownFlags = guChaos ||| guPractice
  timer : r.obliterateTimer = 10

theorem ownFlags_reset {w : Word} (h : w.has guInlDrafted = false) :
    ((w ||| (guChaos ||| guPractice)) &&& ~~~guPaused) &&& ownFlags = guChaos ||| guPractice := by
  have hw : w &&& guInlDrafted = 0 := by
    by_contra hne
    rw [Word.has_iff.2 hne] at h
    cases h
  have hown : ~~~guPaused &&& ownFlags = guChaos ||| guPractice ||| guInlDrafted := by decide
  have hset : (w ||| (guChaos ||| guPractice)) &&& (guChaos ||| guPractice) = guChaos ||| guPractice := by
    ext i hi
    rw [BitVec.getElem_and, BitVec.getElem_or]
    cases w[i] <;> cases (guChaos ||| guPractice)[i] <;> rfl
  have hclear : (w ||| (guChaos ||| guPractice)) &&& guInlDrafted = 0 := by
    rw [BitVec.and_or_distrib_right, hw]
    decide
  rw [BitVec.and_assoc, hown, BitVec.and_or_distrib_left, hset, hclear]
  exact BitVec.or_zero

theorem resetInl_some (r : Robot) (planets : Fin maxPlanets → Planet) : ∃ m : Memory,
    resetInl r (some planets) =
      { r with mem := m, obliterateTimer := 10, stat := freshStats r r.stat, teams := fun t => freshTeam t (r.teams t) } ∧
      m.status.gameup = (r.mem.status.gameup ||| (guChaos ||| guPractice)) &&& ~~~guPaused := by
  obtain ⟨m, hm, hs⟩ := obliterate_eq (r.modifyStatus fun s =>
    { s with gameup := (s.gameup ||| (guChaos ||| guPractice)) &&& ~~~guPaused }) 1 .kprovidence
  unfold resetInl
  dsimp only
  rw [Option.isSome_some, if_pos rfl, hm]
  exact ⟨_, rfl, congrArg Status.gameup hs⟩

theorem resetInl_none (r : Robot) : ∃ (m : Memory) (masks : Nat → Word),
    resetInl r none =
      { r with
        mem := m, stat := freshStats r r.stat, teams := fun t => freshTeam t (r.teams t), tournmask := masks
        pos := fun _ => -1 } ∧
      m.status.gameup = (r.mem.status.gameup ||| (guChaos ||| guPractice)) &&& ~~~guPaused :=
  ⟨_, _, rfl, rfl⟩

section

variable {c : Common} {r : Robot}

/-- Without extra time and a draft, nothing of the game before is left. -/
theorem Alike.anew (h : Alike c r r) (hextra : c.extratime = some 0) (hdrafted : c.drafted = false)
    {galaxy : Option (Fin maxPlanets → Planet)} (htimer : galaxy = none → c.timer) : Anew c.machine (Inl.resetInl r galaxy) := by
  have hmachine := (h.resetInl galaxy).machine
  have hs : r.stat.extratime = 0 := h.extratime 0 hextra
  have hd : r.mem.status.gameup.has guInlDrafted = false := h.drafted.trans hdrafted
  cases galaxy with
  | some planets =>
    obtain ⟨m, hm, hflags⟩ := resetInl_some r planets
    rw [hm] at hmachine ⊢
    exact ⟨hmachine, ⟨r.stat, hs, rfl⟩, ⟨r.teams, rfl⟩, by rw [hflags, ownFlags_reset hd], rfl⟩
  | none =>
    obtain ⟨m, masks, hm, hflags⟩ := resetInl_none r
    rw [hm] at hmachine ⊢
    exact ⟨hmachine, ⟨r.stat, hs, rfl⟩, ⟨r.teams, rfl⟩, by rw [hflags, ownFlags_reset hd], h.timer (htimer rfl)⟩

/-- Two robots before their first games, among the same. -/
theorem Anew.together {machine : Machine} {m m' : Market} (h : Anew machine m.robot) (h' : Anew machine m'.robot)
    (ht : m'.trade = m.trade) : Together machine m.robot.log m'.robot.log m.log m'.log m m' := by
  intro s
  obtain ⟨x, hx, hstat⟩ := h.stat
  obtain ⟨x', hx', hstat'⟩ := h'.stat
  obtain ⟨y, hteams⟩ := h.teams
  obtain ⟨y', hteams'⟩ := h'.teams
  have hfps : m'.robot.fps = m.robot.fps := congrArg Machine.fps (h'.machine.trans h.machine.symm)
  have hfound : m'.found s = m.found s := by
    unfold Market.found
    rw [h.flags, h'.flags]
  have hstats : m'.robot.stat = m.robot.stat := by
    rw [hstat, hstat']
    unfold freshStats Robot.permin Robot.persec
    rw [hfps, hx, hx']
  have hfresh : m.robot.stat.flags = sPregame := by
    rw [hstat]
    rfl
  refine ⟨(m.found s).status.gameup.has guInlDrafted, ⟨⟨h.machine, h'.machine, hfound, rfl, ?_, hstats, ?_, rfl, False.elim,
    fun _ hn => (nomatch hn), fun hs => ?_, fun hs => ?_, [], rfl, rfl⟩, rfl, rfl, rfl⟩, ht, rfl, [], rfl, rfl⟩
  · show m'.robot.teams = m.robot.teams
    rw [hteams, hteams']
    rfl
  · show m'.robot.obliterateTimer = m.robot.obliterateTimer
    rw [h.timer, h'.timer]
  · have hno : Word.has m.robot.stat.flags sCountdown = true := hs
    rw [hfresh] at hno
    exact absurd hno (by decide)
  · have hno : Word.has m.robot.stat.flags (sTourney ||| sOvertime) = true := hs
    rw [hfresh] at hno
    exact absurd hno (by decide)

/-! ## How games end -/

theorem not_pregame_keeps {r' : Robot} (h : Keeps r r') (hgame : r.has sPregame = false) : r'.has sPregame = false := by
  rw [← hgame]
  show r'.stat.flags.has sPregame = r.stat.flags.has sPregame
  rw [← phase_has (w := r'.stat.flags) (by decide), ← phase_has (w := r.stat.flags) (by decide), h.phase]

/-- A game that messages end is reset, with whatever its robot had agreed on. -/
theorem checkmess_reset : ∀ (ms : List Message) {r : Robot}, Alike c r r → r.has sPregame = false →
    (checkmess ms r).has sPregame = true → ∃ (r₁ : Robot) (galaxy : Fin maxPlanets → Planet),
      Alike c r₁ r₁ ∧ checkmess ms r = resetInl r₁ (some galaxy)
  | [], r, _, hgame, hend => by
    rw [show checkmess [] r = r from rfl, hgame] at hend
    cases hend
  | m :: ms, r, h, hgame, hend => by
    unfold checkmess at hend ⊢
    split at hend
    · next hno =>
      rw [if_pos hno]
      exact checkmess_reset ms h hgame hend
    · next hyes =>
      rw [if_neg hyes]
      rw [Bool.not_eq_true, Bool.or_eq_false_iff, Bool.not_eq_false'] at hyes
      have hobey := not_pregame_keeps (keeps_obey hgame hyes.2) hgame
      have halike := h.obey m.sender m.command
      obtain ⟨who, k⟩ := m
      cases k with
      | restart galaxy =>
        have hq := not_pregame_keeps (keeps_restart r who) hgame
        obtain ⟨h₁, -⟩ := h.restart who
        dsimp only at hend ⊢
        rcases hr : doRestart r who with ⟨r₁, both⟩
        rw [hr] at hq h₁ hend
        cases both with
        | true => exact ⟨checkmess ms r₁, galaxy, Alike.checkmess ms h₁, rfl⟩
        | false => exact checkmess_reset ms h₁ hq hend
      | _ => exact checkmess_reset ms halike hobey hend

/-- A game that is over is reset after the ships have exploded. -/
theorem gameOver_reset (h : Alike c r r) (flush : List Message) :
    ∃ r₁, Alike { c with timer := True } r₁ r₁ ∧ gameOver r flush = resetInl r₁ none := by
  rw [gameOver_eq]
  exact ⟨_, Alike.checkmess flush h.ended, rfl⟩

/-- Overtime goes on with the clock of regulation. -/
theorem overtime_goes (r : Robot) : (overtime r).fps = r.fps ∧ (overtime r).stat.gameTicks = r.stat.gameTicks ∧
    (overtime r).stat.extratime = r.stat.extratime ∧ (overtime r).has sPregame = r.has sPregame := by
  have hk := keeps_obliterate ((r.note .overtime).modifyStat fun s =>
    { s with flags := (s.flags &&& ~~~(sTourney ||| sCountdown)) ||| sOvertime }) 0 .kprovidence
  unfold overtime
  dsimp only
  generalize obliterate _ _ _ = X at hk ⊢
  have hann := keeps_announceScores { X with game := { X.game with idx := 0, ends := X.game.ends + X.stat.overtime } }
  refine ⟨hann.fps.trans hk.fps, hann.gameTicks.trans hk.gameTicks, hann.extratime.trans hk.extratime, ?_⟩
  show Word.has (announceScores _).stat.flags sPregame = _
  rw [← phase_has (by decide), hann.phase, show phase X.stat.flags = _ from hk.phase, phase_has (by decide)]
  show Word.has ((r.stat.flags &&& ~~~(sTourney ||| sCountdown)) ||| sOvertime) sPregame = _
  rw [Word.has_or (by decide), Word.has_andNot (by decide)]
  rfl

/-- If `end_tourney` takes the robot back to the time before a game, the game is over. -/
theorem endTourney_reset (h : Alike c r r) (flush : List Message) (hgame : r.has sPregame = false)
    (hend : (endTourney r flush).has sPregame = true) : ∃ r₁, Alike c r₁ r₁ ∧ endTourney r flush = gameOver r₁ flush := by
  have h₁ := h.countplanets
  have hgame₁ : (countplanets r).has sPregame = false := hgame
  unfold endTourney checkWinner at hend ⊢
  dsimp only at hend ⊢
  split at hend
  · next hover =>
    rw [if_pos hover]
    exact ⟨_, h₁.announceScores, rfl⟩
  next hover =>
  rw [if_neg hover]
  split at hend
  · next hextra =>
    rw [if_pos hextra]
    split at hend
    · have hphase := (extended_extraTime (countplanets r)).2.2
      rw [Robot.has, ← phase_has (by decide), hphase, phase_has (by decide), ← Robot.has, hgame₁] at hend
      cases hend
    · next hmax =>
      rw [if_neg hmax]
      exact ⟨_, h₁.announceScores, rfl⟩
  next hextra =>
  rw [if_neg hextra]
  split at hend
  · rw [(overtime_goes _).2.2.2, hgame₁] at hend
    cases hend
  next htourney =>
  rw [if_neg htourney]
  split at hend
  · next hends =>
    rw [if_pos hends]
    exact ⟨_, h₁.announceScores, rfl⟩
  · rw [hgame₁] at hend
    cases hend

theorem startTourney_pregame (r : Robot) : (startTourney r).has sPregame = false := by
  have hflags := congrArg Stats.flags (begin_stat r)
  show Word.has (Inl.begin r).stat.flags sPregame = false
  rw [hflags]
  show Word.has ((r.stat.flags ||| sTourney) &&& ~~~(sPregame ||| sCountdown ||| sConfine)) sPregame = false
  by_contra hset
  rw [Bool.not_eq_false, Word.has_iff, BitVec.and_assoc] at hset
  exact hset (by simp [sPregame, sCountdown, sConfine])

theorem startTourney_extratime (r : Robot) : (startTourney r).stat.extratime = r.stat.extratime := by
  show (Inl.begin r).stat.extratime = r.stat.extratime
  rw [begin_stat]

/-- Before the messages, nothing in a tick takes the robot back to the time before a game. -/
theorem listening_pregame (h : Alike c r r) (hgame : r.has sPregame = false) : (listening r).has sPregame = false := by
  have h₁ := (h.modifyStat (fun s => { s with ticks := s.ticks + 1 }) rfl id id).playerMaint
  have hgame₁ := not_pregame_keeps (keeps_playerMaint (r.modifyStat fun s => { s with ticks := s.ticks + 1 })) hgame
  unfold listening
  dsimp only
  generalize playerMaint _ = X at h₁ hgame₁ ⊢
  split
  · next hcount =>
    obtain ⟨-, haction⟩ := h₁.countdown hcount
    unfold countStart
    rcases hdue : countdown X.persec X.stat.ticks X.countdown with _ | ⟨d, due⟩
    · exact hgame₁
    obtain ⟨i, rfl⟩ := countdown_idx hdue
    cases due with
    | false => exact hgame₁
    | true =>
      have hact {r : Robot} {a : Action} (hr : r.has sPregame = false) (ha : a ≠ .endTourney) :
          (act r [] a).has sPregame = false := by
        cases a with
        | startTourney => exact startTourney_pregame r
        | endPause => exact not_pregame_keeps (keeps_endPause r) hr
        | endTourney => exact absurd rfl ha
      exact hact (r := { X with countdown := { X.countdown with idx := i } }) hgame₁ haction
  · exact hgame₁

/-- An undecided game goes on, without extra time. -/
theorem endTourney_undecided (h : Undecided r) (flush : List Message) : ∃ r₁, endTourney r flush = r₁ ∧ r₁.fps = r.fps ∧
    r₁.stat.gameTicks = r.stat.gameTicks ∧ r₁.stat.extratime = r.stat.extratime ∧ r₁.has sPregame = r.has sPregame := by
  refine ⟨_, rfl, ?_⟩
  unfold endTourney checkWinner
  dsimp only
  rw [h.winner, if_neg (lt_irrefl 0), if_neg (fun hand => absurd hand.2 (by decide))]
  by_cases htourney : (countplanets r).has sTourney = true
  · rw [if_pos htourney]
    exact overtime_goes (countplanets r)
  · have htime : ¬ (countplanets r).game.ends ≤ (countplanets r).stat.gameTicks :=
      not_le.mpr (h.time (Bool.eq_false_iff.mpr htourney))
    rw [if_neg htourney, if_neg htime]
    exact ⟨rfl, rfl, rfl, rfl⟩

/-- An undecided game is not ended by its clock, and gets no extra time. -/
theorem clocked_undecided {r : Robot} (mail : Mail) (hgame : (ticked r).has sPregame = false)
    (hextra : (ticked r).stat.extratime = 0) (h : ClockCalls (ticked r) → Undecided (ticked r)) :
    (clocked r mail).has sPregame = false ∧ (clocked r mail).stat.extratime = 0 := by
  unfold clocked
  generalize ticked r = q at hgame hextra h
  unfold ClockCalls at h
  by_cases hsecond : q.stat.gameTicks % q.persec = 0
  -- on the second the countdown of the game is looked at
  · rw [if_pos hsecond] at h
    have hsudden : suddenDeath q mail = q := if_neg fun hand => hand.2 hsecond
    unfold periodic
    rw [hsudden, if_pos hsecond]
    unfold countGame
    rcases hdue : countdown q.persec q.stat.gameTicks q.game with _ | ⟨c, due⟩
    · exact ⟨hgame, hextra⟩
    cases due with
    | false => exact ⟨hgame, hextra⟩
    | true =>
      obtain ⟨q₁, hq₁, hstat, hundecided⟩ : ∃ q₁, { q with game := c }.note (.timeUp (q.has sTourney) q.stat.gameTicks c.ends) = q₁ ∧
          q₁.stat = q.stat ∧ (Undecided q → Undecided q₁) := by
        obtain ⟨i, rfl⟩ := countdown_idx hdue
        exact ⟨_, rfl, rfl, fun hu => ⟨hu.winner, hu.time⟩⟩
      have hgame₁ : q₁.has sPregame = false := by
        unfold Robot.has
        rw [hstat]
        exact hgame
      have hextra₁ : q₁.stat.extratime = 0 := by rw [hstat, hextra]
      dsimp only
      rw [hq₁]
      cases haction : c.action with
      | startTourney => exact ⟨startTourney_pregame q₁, (startTourney_extratime q₁).trans hextra₁⟩
      | endPause => exact ⟨not_pregame_keeps (keeps_endPause q₁) hgame₁, (keeps_endPause q₁).extratime.trans hextra₁⟩
      | endTourney =>
        obtain ⟨q₂, hq₂, -, -, hextra₂, hgame₂⟩ := endTourney_undecided (hundecided (h ⟨c, hdue, haction⟩)) mail.time
        unfold act
        dsimp only
        rw [hq₂]
        exact ⟨hgame₂.trans hgame₁, hextra₂.trans hextra₁⟩
  -- between the seconds overtime may be over by sudden death
  · rw [if_neg hsecond] at h
    unfold suddenDeath
    by_cases hovertime : q.has sOvertime = true
    · rw [if_pos ⟨hovertime, hsecond⟩]
      obtain ⟨r₁, hr₁, hfps, hticks, hextra', hgame'⟩ := endTourney_undecided (h hovertime) mail.sudden
      rw [hr₁]
      have hsecond' : ¬ r₁.stat.gameTicks % r₁.persec = 0 := by
        unfold Robot.persec
        rw [hticks, hfps]
        exact hsecond
      unfold periodic
      rw [if_neg hsecond']
      exact ⟨hgame'.trans hgame, hextra'.trans hextra⟩
    · rw [if_neg fun hand => hovertime hand.1]
      unfold periodic
      rw [if_neg hsecond]
      exact ⟨hgame, hextra⟩

/-- Messages that leave a game that is played do not end it. -/
theorem prepare_pregame (h : Alike c r r) (mail : Mail) (hgame : r.has sPregame = false)
    (hplaying : playing (prepare r mail) = true) : (prepare r mail).has sPregame = false := by
  by_contra hpre
  rw [Bool.not_eq_false] at hpre
  rw [prepare_listening] at hpre hplaying
  obtain ⟨r₁, galaxy, -, hreset⟩ := checkmess_reset mail.mess h.listening (listening_pregame h hgame) hpre
  have hno : (resetInl r₁ (some galaxy)).has (sTourney ||| sOvertime) = false :=
    (has_phase (ended_resetInl (Same.refl r₁) (some galaxy)).phase (by decide)).trans (by decide)
  rw [hreset] at hplaying
  unfold playing at hplaying
  rw [hno] at hplaying
  cases hplaying

/-- A tick that ends a game, other than by its clock, leaves the robot as it is before its first game. -/
theorem inlmove_anew {machine : Machine} {past : List Note} (h : Alike (idle machine false past past) r r) (mail : Mail)
    (hextra : r.stat.extratime = 0) (hgame : r.has sPregame = false) (hend : (inlmove r mail).has sPregame = true)
    (hclock : playing (prepare r mail) = true →
      ClockCalls (ticked (prepare r mail)) → Undecided (ticked (prepare r mail))) :
    Anew machine (inlmove r mail) := by
  have hrecount := h.recount (x := some 0) fun n hn => by
    rw [← Option.mem_some_iff.1 hn]
    exact hextra
  unfold inlmove at hend ⊢
  dsimp only at hend ⊢
  by_cases hp : playing (prepare r mail) = true
  · rw [if_pos hp] at hend ⊢
    have hticked := keeps_ticked (prepare r mail)
    obtain ⟨hgame₁, hextra₁⟩ := clocked_undecided mail (not_pregame_keeps hticked (prepare_pregame h mail hgame hp))
      (hticked.extratime.trans ((hrecount.prepare mail).extratime 0 rfl)) (hclock hp)
    have hk : Keeps (clocked (prepare r mail) mail) (play (prepare r mail) mail) := keeps_updateScores _
    have hk₁ := hk.trans (keeps_checkgeno _)
    have h₁ := h.prepare mail
    -- until the genocide the clock of the game is looked at
    have hw : Common.Live { idle machine false past past with watch := .always } := ⟨rfl, rfl, id⟩
    have h₂ := ((h₁.rewatch (w := .always) fun _ => rfl).play hw mail).checkgeno.1
    unfold genoCheck at hend ⊢
    rcases hgeno : checkgeno (play (prepare r mail) mail) with ⟨r₁, geno⟩
    rw [hgeno] at hk₁ h₂ hend
    have hgame₂ := not_pregame_keeps hk₁ hgame₁
    cases geno with
    | false =>
      rw [hgame₂] at hend
      cases hend
    | true =>
      have h₃ := h₂.recount (x := some 0) fun n hn => by
        rw [← Option.mem_some_iff.1 hn]
        exact hk₁.extratime.trans hextra₁
      obtain ⟨r₂, h₄, hover⟩ := endTourney_reset h₃ mail.geno hgame₂ hend
      obtain ⟨r₃, h₅, hreset⟩ := gameOver_reset h₄ mail.geno
      dsimp only
      rw [hover, hreset]
      exact h₅.anew rfl rfl fun _ => trivial
  · rw [if_neg hp] at hend ⊢
    rw [prepare_listening] at hend ⊢
    obtain ⟨r₁, galaxy, h₂, hreset⟩ := checkmess_reset mail.mess hrecount.listening (listening_pregame h hgame) hend
    rw [hreset]
    exact h₂.anew rfl rfl nofun

end

/-! ## Independence -/

section

variable {machine : Machine} {m m₁ m₂ : Market} {e e₁ e₂ : Event}

theorem Together.self (hm : m.robot.has sCountdown = true → m.robot.countdown.action ≠ .endTourney) :
    Together m.robot.machine [] [] [] [] m m := by
  intro s
  have hlog {α : Type} (l : List α) : ∃ news, l = news ++ [] ∧ l = news ++ [] :=
    ⟨l, (List.append_nil l).symm, (List.append_nil l).symm⟩
  exact ⟨_, ⟨⟨rfl, rfl, rfl, rfl, rfl, rfl, rfl, rfl, False.elim, fun _ hn => (nomatch hn), fun hs => ⟨rfl, hm hs⟩,
    fun _ => rfl, hlog _⟩, rfl, rfl, rfl⟩, rfl, rfl, hlog _⟩

/-- Trades leave the game alone. -/
theorem stat_doTrade (m : Market) (who : Slot) (comm : List Char) : (m.doTrade who comm).robot.stat = m.robot.stat := by
  have houtcome := Market.doTrade_outcome m who comm
  generalize m.doTrade who comm = m' at houtcome
  cases houtcome with
  | @approve us names => exact (Market.robot_approve m us names).2
  | _ => rfl

/-- A game that ends cleanly leaves nothing. -/
theorem Market.Clean.anew (h : m.Clean e) (hself : Together machine [] [] [] [] m m) (hend : m.ends e = true) :
    Anew machine (m.after e).robot ∧ (m.after e).trade = .reset := by
  unfold Market.ends at hend
  rw [Bool.and_eq_true, Bool.not_eq_true'] at hend
  obtain ⟨hgame, hend⟩ := hend
  obtain ⟨s, u⟩ := e
  obtain ⟨d, hd⟩ := hself s
  have hstill {r : Robot} (hr : r.stat = m.robot.stat) : ¬ r.has sPregame = true := by
    unfold Robot.has at hgame ⊢
    rw [hr, hgame]
    exact Bool.false_ne_true
  cases u with
  | tick mail =>
    have hdrafted : m.drafted = d := (found_has m s (f := guInlDrafted) (by decide)).symm.trans hd.robot.drafted
    obtain rfl : d = false := hdrafted.symm.trans h.drafted
    exact ⟨inlmove_anew hd.robot mail h.extratime hgame hend h.notByClock, h.trade⟩
  | trade who comm => exact absurd hend (hstill (stat_doTrade (m.arrange s) who comm))
  | draft who hall =>
    refine absurd hend (hstill ?_)
    show (if (m.arrange s).robot.has sPregame = true then _ else m.arrange s).robot.stat = _
    have hgame₁ : (m.arrange s).robot.has sPregame = false := hgame
    rw [hgame₁]
    rfl
  | others f => exact absurd hend (hstill rfl)

/-- Whatever has happened before two games end cleanly, what comes later is decided alike. -/
theorem games_independent (history₁ history₂ : List Event)
    (hm : m.robot.has sCountdown = true → m.robot.countdown.action ≠ .endTourney)
    (hend₁ : (history₁.foldl Market.after m).ends e₁ = true) (hclean₁ : (history₁.foldl Market.after m).Clean e₁)
    (hend₂ : (history₂.foldl Market.after m).ends e₂ = true) (hclean₂ : (history₂.foldl Market.after m).Clean e₂) :
    ((history₁.foldl Market.after m).after e₁).Indistinct ((history₂.foldl Market.after m).after e₂) := by
  have hself := Together.self hm
  obtain ⟨h₁, ht₁⟩ := hclean₁.anew (hself.run history₁) hend₁
  obtain ⟨h₂, ht₂⟩ := hclean₂.anew (hself.run history₂) hend₂
  exact (h₁.together h₂ (ht₂.trans ht₁.symm)).indistinct

/-- Ten planets of the home race and one of the away race, and their captains in the first two slots. -/
def pitch : Memory :=
  let m : Memory := default
  let p : Planet := default
  let q : Player := default
  { m with
    planets := fun l => { p with owner := if l.val < 10 then fed else if l.val = 10 then rom else kli }
    players := fun j =>
      if j = 0 then { q with status := .palive, team := fed, wQueue := quHome }
      else if j = 1 then { q with status := .palive, team := rom, wQueue := quAway }
      else q }

/-- A game of an hour for both winners, in which the away side is ahead in scores. -/
def momentum (ticks : Int) : Market :=
  let b : Bureau := default
  let r : Robot := default
  let x : Team := default
  ⟨{ b with robot := { r with
      fps := tenTicks
      mem := pitch
      teams := fun t => { x with
        captain := some (if t = home then 0 else 1)
        side := if t = home then fed else rom
        sideIndex := .race (if t = home then fedSide else romSide)
        weightedScore := if t = home then 0 else 2 }
      game := ⟨12, gameCounts, 12, 60 * 600, .endTourney⟩
      stat := { r.stat with
        flags := sTourney, time := 60 * 600, overtime := 20 * 600, scoreMode := 2, weightedDivisor := 1
        gameTicks := ticks } } }, .reset, Fin.val, []⟩

/-- A tick with these messages. -/
def tickWith (mess : List Message) : Event := ⟨{ (default : Setting) with mem := pitch }, .tick { (default : Mail) with mess := mess }⟩

/-- Both captains want the game to be played again. -/
def bothRestart : Event := tickWith [⟨0, .restart default⟩, ⟨1, .restart default⟩]

/-- A game that both captains break off is not ended by its clock. -/
theorem clean_bothRestart (h : m.robot.stat.extratime = 0) (ht : m.trade = .reset) (hd : m.drafted = false)
    (hp : playing (prepare (m.arrange bothRestart.scene).robot
      { (default : Mail) with mess := [⟨0, .restart default⟩, ⟨1, .restart default⟩] }) = false) : m.Clean bothRestart :=
  ⟨h, ht, hd, fun hplaying => absurd hplaying (by rw [hp]; exact Bool.false_ne_true)⟩

theorem games_independent_momentum :
    ((momentum 100).after bothRestart).Indistinct (((momentum 100).after (tickWith [])).after bothRestart) := by
  refine games_independent (m := momentum 100) [] [tickWith []] ?_ ?_ ?_ ?_ ?_
  · exact fun h => absurd h (by decide)
  · decide +kernel
  · exact clean_bothRestart rfl rfl (by decide) (by decide +kernel)
  · decide +kernel
  · exact clean_bothRestart (by decide +kernel) rfl (by decide +kernel) (by decide +kernel)

/-- After a game with extra time the next one has less of it. -/
theorem games_depend :
    ((momentum 35989).ends bothRestart = true ∧ ((momentum 35989).after (tickWith [])).ends bothRestart = true) ∧
      ¬ ((momentum 35989).after bothRestart).Indistinct (((momentum 35989).after (tickWith [])).after bothRestart) := by
  refine ⟨⟨by decide +kernel, by decide +kernel⟩, fun h => ?_⟩
  have hextra := congrArg (fun x => x.stat.extratime) (h.standing [])
  exact absurd hextra (by decide +kernel)

end

end Netrek.Inl
