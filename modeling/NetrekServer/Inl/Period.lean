/-
The periods of a league game. Between `start_tourney` and the end there are at most three extra times
and one overtime, and with two ticks a second or more the game is over in time. The clock calls
`end_tourney` a second before the end of regulation and of each extra time.
-/
import Mathlib.Tactic.Linarith
import Mathlib.Tactic.Ring
import NetrekServer.Inl.Clock

namespace Netrek.Inl

/-! ## New periods -/

/-- A period is added to a game. -/
structure Extended (r r' : Robot) (ticks : Int) (n : Note) : Prop where
  fps : r'.fps = r.fps
  game : r'.game = { r.game with idx := 0, ends := r.game.ends + ticks }
  log : r'.log.filter timing = n :: r.log.filter timing
  gameTicks : r'.stat.gameTicks = r.stat.gameTicks
  time : r'.stat.time = r.stat.time
  overtime : r'.stat.overtime = r.stat.overtime
  pausing : Pausing r → Pausing r'

theorem Extended.keeps {r r₁ r₂ : Robot} {ticks : Int} {n : Note} (h : Extended r r₁ ticks n) (hk : Keeps r₁ r₂) :
    Extended r r₂ ticks n :=
  ⟨hk.fps.trans h.fps, hk.game.trans h.game, hk.log.trans h.log, hk.gameTicks.trans h.gameTicks, hk.time.trans h.time,
    hk.overtime.trans h.overtime, fun hp => hk.pausing (h.pausing hp)⟩

theorem extraTicks_keeps {r r' : Robot} (h : r'.fps = r.fps) : extraTicks r' = extraTicks r := by
  unfold extraTicks Robot.permin Robot.persec
  rw [h]

/-- The clock of a game goes on for a time. -/
def prolong (r : Robot) (ticks : Int) : Robot := { r with game := { r.game with idx := 0, ends := r.game.ends + ticks } }

theorem prolong_stat (r : Robot) (ticks : Int) : (prolong r ticks).stat = r.stat := rfl

theorem extended_prolong {r r₁ : Robot} {n : Note} (ticks : Int) (hfps : r₁.fps = r.fps) (hgame : r₁.game = r.game)
    (hlog : r₁.log.filter timing = n :: r.log.filter timing) (hticks : r₁.stat.gameTicks = r.stat.gameTicks)
    (htime : r₁.stat.time = r.stat.time) (hovertime : r₁.stat.overtime = r.stat.overtime)
    (hpausing : Pausing r → Pausing r₁) : Extended r (prolong r₁ ticks) ticks n := by
  refine ⟨hfps, ?_, hlog, hticks, htime, hovertime, fun hp => ?_⟩
  · unfold prolong
    rw [hgame]
  · obtain ⟨hc, ha, hp⟩ := hpausing hp
    exact ⟨hc, ha, hp⟩

/-- Extra time makes the game longer by `extraTicks`, and stays in regulation. -/
theorem extended_extraTime (r : Robot) : Extended r (extraTime r) (extraTicks r) .extraTime ∧
    (extraTime r).stat.extratime = r.stat.extratime + extraTicks r ∧ phase (extraTime r).stat.flags = phase r.stat.flags := by
  -- the ships are destroyed at the first extra time
  obtain ⟨r₁, hr₁, hk⟩ : ∃ r₁, (if (r.note .extraTime).stat.extratime = 0 then
      obliterate (r.note .extraTime) 0 .kprovidence else r.note .extraTime) = r₁ ∧ Keeps (r.note .extraTime) r₁ := by
    refine ⟨_, rfl, ?_⟩
    split
    · exact keeps_obliterate _ 0 .kprovidence
    · exact Keeps.refl _
  have hticks : extraTicks r₁ = extraTicks r := extraTicks_keeps hk.fps
  have heq : extraTime r =
      announceScores (prolong (r₁.modifyStat fun s => { s with extratime := s.extratime + extraTicks r₁ }) (extraTicks r₁)) := by
    unfold extraTime
    dsimp only
    rw [hr₁]
    rfl
  have hlog : r₁.log.filter timing = .extraTime :: r.log.filter timing := hk.log
  have hpausing (hp : Pausing r) : Pausing r₁ := hk.pausing ⟨hp.counts, hp.act, hp.pause⟩
  have hann := keeps_announceScores
    (prolong (r₁.modifyStat fun s => { s with extratime := s.extratime + extraTicks r₁ }) (extraTicks r₁))
  rw [heq]
  rw [hticks] at hann ⊢
  refine ⟨Extended.keeps (extended_prolong (extraTicks r) ?_ ?_ ?_ ?_ ?_ ?_ ?_) hann, ?_, ?_⟩
  · exact hk.fps
  · exact hk.game
  · exact hlog
  · exact hk.gameTicks
  · exact hk.time
  · exact hk.overtime
  · intro hp
    obtain ⟨hc, ha, hp⟩ := hpausing hp
    exact ⟨hc, ha, hp⟩
  · rw [hann.extratime]
    exact congrArg (· + extraTicks r) hk.extratime
  · rw [hann.phase]
    exact hk.phase

theorem phase_overtime {w : Word} (h : phase w = sTourney) :
    phase ((w &&& ~~~(sTourney ||| sCountdown)) ||| sOvertime) = sOvertime := by
  have hsplit : phase ((w &&& ~~~(sTourney ||| sCountdown)) ||| sOvertime) =
      (phase w &&& ~~~(sTourney ||| sCountdown)) ||| phase sOvertime := by
    unfold phase
    rw [BitVec.and_or_distrib_right, BitVec.and_assoc, BitVec.and_comm (~~~(sTourney ||| sCountdown)), BitVec.and_assoc]
  rw [hsplit, h]
  decide

/-- Overtime makes the game longer once. -/
theorem extended_overtime {r : Robot} (hphase : phase r.stat.flags = sTourney) :
    Extended r (overtime r) r.stat.overtime .overtime ∧ phase (overtime r).stat.flags = sOvertime := by
  obtain ⟨r₁, hr₁⟩ : ∃ r₁, ((r.note .overtime).modifyStat fun s =>
    { s with flags := (s.flags &&& ~~~(sTourney ||| sCountdown)) ||| sOvertime }) = r₁ := ⟨_, rfl⟩
  have hk := keeps_obliterate r₁ 0 .kprovidence
  have heq : overtime r = announceScores (prolong (obliterate r₁ 0 .kprovidence) (obliterate r₁ 0 .kprovidence).stat.overtime) := by
    unfold overtime
    dsimp only
    rw [hr₁]
    rfl
  have hticks : (obliterate r₁ 0 .kprovidence).stat.overtime = r.stat.overtime := by
    rw [hk.overtime, ← hr₁]
    rfl
  have hann := keeps_announceScores (prolong (obliterate r₁ 0 .kprovidence) r.stat.overtime)
  rw [heq, hticks]
  refine ⟨Extended.keeps (extended_prolong r.stat.overtime ?_ ?_ ?_ ?_ ?_ hticks ?_) hann, ?_⟩
  · rw [hk.fps, ← hr₁]
    rfl
  · rw [hk.game, ← hr₁]
    rfl
  · rw [hk.log, ← hr₁]
    rfl
  · rw [hk.gameTicks, ← hr₁]
    rfl
  · rw [hk.time, ← hr₁]
    rfl
  · intro hp
    refine hk.pausing ?_
    rw [← hr₁]
    refine ⟨hp.counts, hp.act, fun hs => hp.pause ?_⟩
    have hs : Word.has ((r.stat.flags &&& ~~~(sTourney ||| sCountdown)) ||| sOvertime) sCountdown = true := hs
    rw [Word.has_or (by decide)] at hs
    exact has_of_has_andNot hs
  · rw [hann.phase]
    rw [prolong_stat, hk.phase, ← hr₁]
    exact phase_overtime hphase

theorem has_phase {r : Robot} {w m : Word} (h : phase r.stat.flags = w)
    (hm : m &&& (sTourney ||| sOvertime ||| sPregame) = m) : r.has m = w.has m := by
  rw [← h, phase_has hm]
  rfl

/-- What `end_tourney` does: it ends the game, adds a period in regulation, or does nothing. -/
theorem endTourney_cases (r : Robot) (flush : List Message) :
    Ended r (endTourney r flush) ∨
      (r.has sTourney = true ∧ r.stat.extratime < extraMax r ∧ ∃ r₁, Keeps r r₁ ∧ endTourney r flush = extraTime r₁) ∨
      (r.has sTourney = true ∧ ∃ r₁, Keeps r r₁ ∧ endTourney r flush = overtime r₁) ∨
      (r.has sTourney = false ∧ r.stat.gameTicks < r.game.ends ∧ Keeps r (endTourney r flush)) := by
  have hk : Keeps r (countplanets r) := keeps_rest rfl rfl rfl rfl rfl
  have hover : Ended r (gameOver (announceScores (countplanets r)) flush) := by
    have h := ended_gameOver (announceScores (countplanets r)) flush
    exact ⟨(hk.trans (keeps_announceScores _)).toSame.trans h.toSame, h.phase, h.gameTicks⟩
  unfold endTourney checkWinner
  dsimp only
  by_cases hcond : 0 < winner (countplanets r)
  · rw [if_pos hcond]
    exact .inl hover
  rw [if_neg hcond]
  by_cases hextra : (countplanets r).has sTourney = true ∧ winner (countplanets r) = -1
  · rw [if_pos hextra]
    by_cases hmax : (countplanets r).stat.extratime < extraMax (countplanets r)
    · rw [if_pos hmax]
      exact .inr (.inl ⟨hextra.1, hmax, _, hk, rfl⟩)
    · rw [if_neg hmax]
      exact .inl hover
  rw [if_neg hextra]
  by_cases ht : (countplanets r).has sTourney = true
  · rw [if_pos ht]
    exact .inr (.inr (.inl ⟨ht, _, hk, rfl⟩))
  rw [if_neg ht]
  by_cases hends : (countplanets r).game.ends ≤ (countplanets r).stat.gameTicks
  · rw [if_pos hends]
    exact .inl hover
  · rw [if_neg hends]
    exact .inr (.inr (.inr ⟨Bool.eq_false_iff.mpr ht, Int.not_le.mp hends, hk⟩))

/-! ## The game -/

def extras (r : Robot) : Nat := r.log.count .extraTime
def overtimes (r : Robot) : Nat := r.log.count .overtime

/-- The clock has not called `end_tourney` in regulation or extra time before its end. -/
def Punctual (r : Robot) : Prop := ∀ t e, .timeUp true t e ∈ r.log → e ≤ t

/-- Regulation, or an extra time, of the game that began in the state `s`. -/
structure Regular (s r : Robot) : Prop where
  phase : phase r.stat.flags = sTourney
  ends : r.game.ends = s.stat.time + extras r * extraTicks s
  extratime : r.stat.extratime = s.stat.extratime + extras r * extraTicks s
  overtimes : overtimes r = 0

/-- Overtime. -/
structure InOvertime (s r : Robot) : Prop where
  phase : phase r.stat.flags = sOvertime
  ends : r.game.ends = s.stat.time + extras r * extraTicks s + s.stat.overtime
  overtimes : overtimes r = 1

/-- A game that began in the state `s` is on. -/
structure Going (s r : Robot) : Prop where
  fps : r.fps = s.fps
  table : IsGame r.game
  pausing : Pausing r
  time : r.stat.time = s.stat.time
  overtime : r.stat.overtime = s.stat.overtime
  extras : extras r ≤ 3
  stray : .strayCount ∉ r.log

/-- It is over. -/
structure Gone (s r : Robot) : Prop where
  fps : r.fps = s.fps
  table : IsGame r.game
  phase : phase r.stat.flags = sPregame
  gameTicks : r.stat.gameTicks = 0
  ends : 60 * s.persec ≤ r.game.ends
  idx : r.game.idx ≤ 14
  extras : extras r ≤ 3
  overtimes : overtimes r ≤ 1
  stray : .strayCount ∉ r.log

/-- What a game begins with: its lengths are minutes. -/
structure Begun (s : Robot) : Prop where
  time : ∃ k : Int, 0 < k ∧ s.stat.time = k * s.permin
  overtime : ∃ k : Int, 0 < k ∧ s.stat.overtime = k * s.permin
  extratime : 0 ≤ s.stat.extratime

/-- How far the countdown is in overtime. -/
structure Settled (s r : Robot) : Prop where
  ticks : r.stat.gameTicks ≤ r.game.ends
  early : r.stat.gameTicks + s.persec < r.game.ends → r.game.idx ≤ 12
  last : r.game.ends ≤ r.stat.gameTicks + s.persec → r.stat.gameTicks < r.game.ends → r.game.idx = 13
  zero : r.stat.gameTicks = r.game.ends → r.game.idx = 14

/-- Between two ticks of a game. -/
structure Play (s r : Robot) : Prop extends Going s r where
  period : (Regular s r ∧ r.stat.gameTicks + s.persec < r.game.ends ∧ r.game.idx ≤ 12) ∨
    (InOvertime s r ∧ Settled s r)

/-! ## What the notes say -/

theorem mem_timing {r r' : Robot} (h : r'.log.filter timing = r.log.filter timing) {n : Note} (hn : timing n = true) :
    n ∈ r'.log ↔ n ∈ r.log := by
  have hmem (l : List Note) : n ∈ l.filter timing ↔ n ∈ l := by
    rw [List.mem_filter]
    exact and_iff_left hn
  rw [← hmem, h, hmem]

theorem count_timing {r r' : Robot} (h : r'.log.filter timing = r.log.filter timing) {n : Note} (hn : timing n = true) :
    r'.log.count n = r.log.count n := by
  rw [← List.count_filter (p := timing) hn, h, List.count_filter hn]

/-- The notes on the clock agree. -/
structure Agree (r r' : Robot) : Prop where
  extras : extras r' = extras r
  overtimes : overtimes r' = overtimes r
  stray : .strayCount ∈ r'.log ↔ .strayCount ∈ r.log
  punctual : Punctual r' ↔ Punctual r

theorem Same.agree {r r' : Robot} (h : Same r r') : Agree r r' where
  extras := count_timing h.log rfl
  overtimes := count_timing h.log rfl
  stray := mem_timing h.log rfl
  punctual := by
    unfold Punctual
    constructor
    · exact fun hp t e he => hp t e ((mem_timing h.log rfl).mpr he)
    · exact fun hp t e he => hp t e ((mem_timing h.log rfl).mp he)

theorem Extended.notes {r r' : Robot} {ticks : Int} {n : Note} (h : Extended r r' ticks n) (hn : timing n = true) :
    Agree (r.note n) r' := by
  have hlog : r'.log.filter timing = (r.note n).log.filter timing := by
    show _ = (n :: r.log).filter timing
    rw [List.filter_cons_of_pos hn, h.log]
  exact ⟨count_timing hlog rfl, count_timing hlog rfl, mem_timing hlog rfl,
    ⟨fun hp t e he => hp t e ((mem_timing hlog rfl).mpr he), fun hp t e he => hp t e ((mem_timing hlog rfl).mp he)⟩⟩

/-! ## What is kept -/

section Kept

variable {s r r' : Robot}

theorem Going.keeps (h : Going s r) (hk : Keeps r r') : Going s r' := by
  have ha := hk.toSame.agree
  refine ⟨hk.fps.trans h.fps, ?_, hk.pausing h.pausing, hk.time.trans h.time, hk.overtime.trans h.overtime, ?_, ?_⟩
  · rw [hk.game]
    exact h.table
  · rw [ha.extras]
    exact h.extras
  · rw [ha.stray]
    exact h.stray

theorem Regular.keeps (h : Regular s r) (hk : Keeps r r') : Regular s r' := by
  have ha := hk.toSame.agree
  refine ⟨hk.phase.trans h.phase, ?_, ?_, ?_⟩
  · rw [hk.game, ha.extras]
    exact h.ends
  · rw [hk.extratime, ha.extras]
    exact h.extratime
  · rw [ha.overtimes]
    exact h.overtimes

theorem InOvertime.keeps (h : InOvertime s r) (hk : Keeps r r') : InOvertime s r' := by
  have ha := hk.toSame.agree
  refine ⟨hk.phase.trans h.phase, ?_, ?_⟩
  · rw [hk.game, ha.extras]
    exact h.ends
  · rw [ha.overtimes]
    exact h.overtimes

theorem Settled.keeps (h : Settled s r) (hk : Keeps r r') : Settled s r' := by
  obtain ⟨ht, he, hl, hz⟩ := h
  refine ⟨?_, ?_, ?_, ?_⟩
  all_goals rw [hk.gameTicks, hk.game]
  · exact ht
  · exact he
  · exact hl
  · exact hz

theorem Play.keeps (h : Play s r) (hk : Keeps r r') : Play s r' := by
  refine ⟨h.toGoing.keeps hk, ?_⟩
  rcases h.period with ⟨hr, ht, hi⟩ | ⟨ho, hset⟩
  · left
    rw [hk.gameTicks, hk.game]
    exact ⟨hr.keeps hk, ht, hi⟩
  · exact .inr ⟨ho.keeps hk, hset.keeps hk⟩

theorem Gone.same (h : Gone s r) (hs : Same r r') (hphase : Inl.phase r'.stat.flags = sPregame)
    (hticks : r'.stat.gameTicks = 0) : Gone s r' := by
  have ha := hs.agree
  refine ⟨hs.fps.trans h.fps, ?_, hphase, hticks, ?_, ?_, ?_, ?_, ?_⟩
  · rw [hs.game]
    exact h.table
  · rw [hs.game]
    exact h.ends
  · rw [hs.game]
    exact h.idx
  · rw [ha.extras]
    exact h.extras
  · rw [ha.overtimes]
    exact h.overtimes
  · rw [ha.stray]
    exact h.stray

theorem Gone.keeps (h : Gone s r) (hk : Keeps r r') : Gone s r' :=
  h.same hk.toSame (hk.phase.trans h.phase) (hk.gameTicks.trans h.gameTicks)

theorem Gone.ended (h : Gone s r) (he : Ended r r') : Gone s r' := h.same he.toSame he.phase he.gameTicks

/-- A game that is over leaves the clock as it was. -/
theorem Going.ended (h : Going s r) (hends : 60 * s.persec ≤ r.game.ends) (hi : r.game.idx ≤ 14)
    (ho : overtimes r ≤ 1) (he : Ended r r') : Gone s r' := by
  have ha := he.toSame.agree
  refine ⟨he.fps.trans h.fps, ?_, he.phase, he.gameTicks, ?_, ?_, ?_, ?_, ?_⟩
  · rw [he.game]
    exact h.table
  · rw [he.game]
    exact hends
  · rw [he.game]
    exact hi
  · rw [ha.extras]
    exact h.extras
  · rw [ha.overtimes]
    exact ho
  · rw [ha.stray]
    exact h.stray

end Kept

/-! ## The end of a period -/

section Ends

variable {s r : Robot}

theorem persec_pos (s : Robot) : 0 < s.persec := by
  unfold Robot.persec
  exact_mod_cast s.fps.pos

theorem Going.persec (h : Going s r) : r.persec = s.persec := by
  unfold Robot.persec
  rw [h.fps]

theorem extraTicks_eq (s : Robot) : extraTicks s = 300 * s.persec := by
  unfold extraTicks Robot.permin
  omega

/-- The end of a period is a full number of minutes away from the start. -/
theorem Begun.minutes (hs : Begun s) (n : Nat) : ∃ k : Int, 60 ≤ k ∧ s.stat.time + n * extraTicks s = k * s.persec := by
  obtain ⟨k, hk, htime⟩ := hs.time
  refine ⟨60 * k + 300 * n, by omega, ?_⟩
  rw [htime, extraTicks_eq]
  unfold Robot.permin
  ring

theorem Begun.overtime_minutes (hs : Begun s) : ∃ k : Int, 60 ≤ k ∧ s.stat.overtime = k * s.persec := by
  obtain ⟨k, hk, hover⟩ := hs.overtime
  refine ⟨60 * k, by omega, ?_⟩
  rw [hover]
  unfold Robot.permin
  ring

theorem Regular.ends_eq (hs : Begun s) (h : Regular s r) : ∃ k : Int, 60 ≤ k ∧ r.game.ends = k * s.persec := by
  obtain ⟨k, hk, he⟩ := hs.minutes (extras r)
  exact ⟨k, hk, h.ends.trans he⟩

theorem InOvertime.ends_eq (hs : Begun s) (h : InOvertime s r) : ∃ k : Int, 60 ≤ k ∧ r.game.ends = k * s.persec := by
  obtain ⟨k, hk, he⟩ := hs.minutes (Inl.extras r)
  obtain ⟨v, hv, hov⟩ := hs.overtime_minutes
  refine ⟨k + v, by omega, ?_⟩
  rw [h.ends, he, hov]
  ring

theorem ends_le {p k e : Int} (hp : 0 < p) (hk : 60 ≤ k) (he : e = k * p) : 60 * p ≤ e := by
  rw [he]
  exact mul_le_mul_of_nonneg_right hk hp.le

/-- A period is added to a game that is on. -/
theorem Going.extended (h : Going s r) {r' : Robot} {ticks : Int} {n : Note} (he : Extended r r' ticks n)
    (hn : n = .extraTime ∨ n = .overtime) (hx : Inl.extras r' ≤ 3) : Going s r' := by
  have htiming : timing n = true := by rcases hn with rfl | rfl <;> rfl
  have ha := he.notes htiming
  refine ⟨he.fps.trans h.fps, ?_, he.pausing h.pausing, he.time.trans h.time, he.overtime.trans h.overtime, hx, ?_⟩
  · rw [he.game]
    exact ⟨h.table.counts, h.table.act, h.table.action⟩
  · rw [ha.stray]
    intro hin
    rcases List.mem_cons.mp hin with heq | hold
    · rcases hn with rfl | rfl <;> cases heq
    · exact h.stray hold

/-- The end of regulation or of an extra time. -/
theorem Going.endTourney_regular (hs : Begun s) (h : Going s r) (hr : Regular s r)
    (ht : r.stat.gameTicks + s.persec ≤ r.game.ends) (hi : r.game.idx ≤ 14) (flush : List Message) :
    (Play s (endTourney r flush) ∨ Gone s (endTourney r flush)) ∧ (Punctual (endTourney r flush) ↔ Punctual r) := by
  have hp := persec_pos s
  obtain ⟨k, hk, hends⟩ := hr.ends_eq hs
  have h60 := ends_le hp hk hends
  have htourney : r.has sTourney = true := has_phase hr.phase (by decide)
  rcases endTourney_cases r flush with he | ⟨-, hmax, r₁, hk₁, heq⟩ | ⟨-, r₁, hk₁, heq⟩ | ⟨hno, -, -⟩
  · exact ⟨.inr (h.ended h60 hi (by rw [hr.overtimes]; omega) he), he.toSame.agree.punctual⟩
  -- an extra time, of which there are three at most
  · obtain ⟨hext, hextratime, hphase⟩ := extended_extraTime r₁
    have ha := hext.notes rfl
    have h₁ := h.keeps hk₁
    have hr₁ := hr.keeps hk₁
    have hticks : extraTicks r₁ = extraTicks s := extraTicks_keeps h₁.fps
    have hcount : Inl.extras (extraTime r₁) = Inl.extras r₁ + 1 := ha.extras.trans List.count_cons_self
    have hfew : Inl.extras r₁ < 3 := by
      by_contra hge
      have hx : (3 : Int) ≤ Inl.extras r₁ := by omega
      have hmul : 3 * extraTicks s ≤ Inl.extras r₁ * extraTicks s :=
        mul_le_mul_of_nonneg_right hx (by rw [extraTicks_eq]; omega)
      have hmax' : r₁.stat.extratime < 3 * extraTicks s := by
        rw [hk₁.extratime, extraTicks_eq, ← h.persec]
        refine lt_of_lt_of_eq hmax ?_
        unfold extraMax Robot.permin
        ring
      have hpos := hs.extratime
      have hval := hr₁.extratime
      omega
    have hsum : ((Inl.extras r₁ + 1 : Nat) : Int) * extraTicks s = Inl.extras r₁ * extraTicks s + extraTicks s := by
      push_cast
      ring
    rw [heq]
    refine ⟨.inl ⟨h₁.extended hext (.inl rfl) (by omega), .inl ⟨⟨?_, ?_, ?_, ?_⟩, ?_, ?_⟩⟩, ?_⟩
    · rw [hphase]
      exact hr₁.phase
    · rw [hext.game, hcount, hsum, hticks]
      show r₁.game.ends + _ = _
      rw [hr₁.ends]
      ring
    · rw [hextratime, hcount, hsum, hticks, hr₁.extratime]
      ring
    · rw [ha.overtimes]
      exact (List.count_cons_of_ne (by decide)).trans hr₁.overtimes
    · rw [hext.gameTicks, hext.game, hk₁.gameTicks]
      show _ < r₁.game.ends + _
      rw [hk₁.game, hticks, extraTicks_eq]
      omega
    · rw [hext.game]
      exact Nat.zero_le 12
    · rw [ha.punctual, ← hk₁.toSame.agree.punctual]
      unfold Punctual
      constructor
      · exact fun hpun t e hin => hpun t e (List.mem_cons_of_mem _ hin)
      · exact fun hpun t e hin => hpun t e ((List.mem_cons.mp hin).resolve_left (by nofun))
  -- overtime
  · have h₁ := h.keeps hk₁
    have hr₁ := hr.keeps hk₁
    obtain ⟨hext, hphase⟩ := extended_overtime hr₁.phase
    have ha := hext.notes rfl
    have hcount : Inl.extras (Inl.overtime r₁) = Inl.extras r₁ := ha.extras.trans (List.count_cons_of_ne (by decide))
    obtain ⟨v, hv, hov⟩ := hs.overtime_minutes
    have hov60 := ends_le hp hv hov
    have hlater : (Inl.overtime r₁).stat.gameTicks + s.persec < (Inl.overtime r₁).game.ends := by
      rw [hext.gameTicks, hext.game, hk₁.gameTicks]
      show _ < r₁.game.ends + _
      rw [hk₁.game, h₁.overtime]
      omega
    rw [heq]
    refine ⟨.inl ⟨h₁.extended hext (.inr rfl) (by rw [hcount]; exact h₁.extras), .inr ⟨⟨hphase, ?_, ?_⟩, ?_⟩⟩, ?_⟩
    · rw [hext.game, hcount]
      show r₁.game.ends + _ = _
      rw [hr₁.ends, h₁.overtime]
    · rw [ha.overtimes]
      exact List.count_cons_self.trans (congrArg (· + 1) hr₁.overtimes)
    · refine ⟨by omega, fun _ => ?_, fun hlast _ => ?_, fun hz => ?_⟩
      · rw [hext.game]
        exact Nat.zero_le 12
      · omega
      · omega
    · rw [ha.punctual, ← hk₁.toSame.agree.punctual]
      unfold Punctual
      constructor
      · exact fun hpun t e hin => hpun t e (List.mem_cons_of_mem _ hin)
      · exact fun hpun t e hin => hpun t e ((List.mem_cons.mp hin).resolve_left (by nofun))
  · rw [htourney] at hno
    cases hno

/-- `end_tourney` in overtime. -/
theorem Going.endTourney_overtime (hs : Begun s) (h : Going s r) (ho : InOvertime s r) (hi : r.game.idx ≤ 14)
    (flush : List Message) :
    (Gone s (endTourney r flush) ∨ r.stat.gameTicks < r.game.ends ∧ Keeps r (endTourney r flush)) ∧
      (Punctual (endTourney r flush) ↔ Punctual r) := by
  have hp := persec_pos s
  obtain ⟨k, hk, hends⟩ := ho.ends_eq hs
  have h60 := ends_le hp hk hends
  have hno : r.has sTourney = false := has_phase ho.phase (by decide)
  rcases endTourney_cases r flush with he | ⟨ht, -⟩ | ⟨ht, -⟩ | ⟨-, hlt, hkeep⟩
  · exact ⟨.inl (h.ended h60 hi (by rw [ho.overtimes]) he), he.toSame.agree.punctual⟩
  · rw [hno] at ht
    cases ht
  · rw [hno] at ht
    cases ht
  · exact ⟨.inr ⟨hlt, hkeep⟩, hkeep.toSame.agree.punctual⟩

/-- `end_tourney` after the end. -/
theorem Gone.endTourney (h : Gone s r) (flush : List Message) :
    Gone s (Inl.endTourney r flush) ∧ (Punctual (Inl.endTourney r flush) ↔ Punctual r) := by
  have hno : r.has sTourney = false := has_phase h.phase (by decide)
  rcases endTourney_cases r flush with he | ⟨ht, -⟩ | ⟨ht, -⟩ | ⟨-, -, hkeep⟩
  · exact ⟨h.ended he, he.toSame.agree.punctual⟩
  · rw [hno] at ht
    cases ht
  · rw [hno] at ht
    cases ht
  · exact ⟨h.keeps hkeep, hkeep.toSame.agree.punctual⟩

/-! ## The clock of the game -/

/-- The countdown of the game goes on. -/
def setIdx (r : Robot) (i : Nat) : Robot := { r with game := { r.game with idx := i } }

theorem Going.setIdx (h : Going s r) (i : Nat) : Going s (setIdx r i) :=
  ⟨h.fps, ⟨h.table.counts, h.table.act, h.table.action⟩, ⟨h.pausing.counts, h.pausing.act, h.pausing.pause⟩, h.time,
    h.overtime, h.extras, h.stray⟩

theorem Regular.setIdx (h : Regular s r) (i : Nat) : Regular s (setIdx r i) :=
  ⟨h.phase, h.ends, h.extratime, h.overtimes⟩

theorem InOvertime.setIdx (h : InOvertime s r) (i : Nat) : InOvertime s (setIdx r i) := ⟨h.phase, h.ends, h.overtimes⟩

section Up

variable (up : Bool) (t e : Int)

theorem count_timeUp {n : Note} (hn : n ≠ .timeUp up t e) : (r.note (.timeUp up t e)).log.count n = r.log.count n :=
  List.count_cons_of_ne hn.symm

theorem Going.timeUp (h : Going s r) : Going s (r.note (.timeUp up t e)) := by
  refine ⟨h.fps, h.table, ⟨h.pausing.counts, h.pausing.act, h.pausing.pause⟩, h.time, h.overtime, ?_, ?_⟩
  · unfold Inl.extras
    rw [count_timeUp up t e (by nofun)]
    exact h.extras
  · intro hin
    exact h.stray ((List.mem_cons.mp hin).resolve_left (by nofun))

theorem Regular.timeUp (h : Regular s r) : Regular s (r.note (.timeUp up t e)) := by
  have hx : Inl.extras (r.note (.timeUp up t e)) = Inl.extras r := count_timeUp up t e (by nofun)
  refine ⟨h.phase, ?_, ?_, (count_timeUp up t e (by nofun)).trans h.overtimes⟩
  · rw [hx]
    exact h.ends
  · rw [hx]
    exact h.extratime

theorem InOvertime.timeUp (h : InOvertime s r) : InOvertime s (r.note (.timeUp up t e)) := by
  have hx : Inl.extras (r.note (.timeUp up t e)) = Inl.extras r := count_timeUp up t e (by nofun)
  refine ⟨h.phase, ?_, (count_timeUp up t e (by nofun)).trans h.overtimes⟩
  rw [hx]
  exact h.ends

end Up

/-- The clock, in a tick that brings a full second. -/
theorem Going.countGame_early (h : Going s r) (hi : r.game.idx ≤ 12) (ht : r.stat.gameTicks + s.persec < r.game.ends)
    (flush : List Message) : ∃ i ≤ 12, countGame r flush = Inl.setIdx r i := by
  obtain ⟨i, hi', hc⟩ := h.table.early hi ht
  refine ⟨i, hi', ?_⟩
  unfold countGame
  rw [h.persec, hc]
  rfl

theorem Going.countGame_due (h : Going s r) (hi : r.game.idx ≤ 12) (ht : r.game.ends ≤ r.stat.gameTicks + s.persec)
    (flush : List Message) : countGame r flush =
      endTourney ((Inl.setIdx r 13).note (.timeUp (r.has sTourney) r.stat.gameTicks r.game.ends)) flush := by
  have hc := h.table.due (persec_pos s) hi ht
  unfold countGame Inl.setIdx
  rw [h.persec, hc]
  dsimp only
  rw [h.table.action]
  unfold act
  rfl

/-- The clock of regulation: it calls `end_tourney` a second early. -/
theorem Going.periodic_regular (hs : Begun s) (h : Going s r) (hr : Regular s r)
    (ht : r.stat.gameTicks + s.persec ≤ r.game.ends) (hi : r.game.idx ≤ 12) (mail : Mail) :
    (Play s (periodic r mail) ∨ Gone s (periodic r mail)) ∧
      (Punctual (periodic r mail) ↔ Punctual r ∧ r.stat.gameTicks + s.persec < r.game.ends) := by
  have hp := persec_pos s
  unfold periodic
  rw [h.persec]
  rcases lt_or_eq_of_le ht with hlt | heq
  · split
    · obtain ⟨i, hi', hc⟩ := h.countGame_early hi hlt mail.time
      rw [hc]
      exact ⟨.inl ⟨h.setIdx i, .inl ⟨hr.setIdx i, hlt, hi'⟩⟩, (and_iff_left hlt).symm⟩
    · exact ⟨.inl ⟨h, .inl ⟨hr, hlt, hi⟩⟩, (and_iff_left hlt).symm⟩
  · obtain ⟨k, -, hends⟩ := hr.ends_eq hs
    have hsecond : r.stat.gameTicks % s.persec = 0 := by
      have hmul : r.stat.gameTicks = (k - 1) * s.persec := by
        rw [sub_mul, ← hends]
        omega
      rw [hmul]
      exact Int.mul_emod_left _ _
    have htourney : r.has sTourney = true := has_phase hr.phase (by decide)
    rw [if_pos hsecond, h.countGame_due hi heq.ge mail.time, htourney]
    have hend := Going.endTourney_regular hs ((h.setIdx 13).timeUp true r.stat.gameTicks r.game.ends)
      ((hr.setIdx 13).timeUp true r.stat.gameTicks r.game.ends) ht (by show 13 ≤ 14; decide) mail.time
    refine ⟨hend.1, ?_⟩
    rw [hend.2]
    constructor
    · intro hpun
      have hle := hpun _ _ List.mem_cons_self
      omega
    · exact fun hno => absurd hno.2 (by omega)

/-- The clock after the end. -/
theorem Gone.periodic (h : Gone s r) (mail : Mail) :
    Gone s (Inl.periodic r mail) ∧ (Punctual (Inl.periodic r mail) ↔ Punctual r) := by
  have hp := persec_pos s
  have hends := h.ends
  have hpersec : r.persec = s.persec := by
    unfold Robot.persec
    rw [h.fps]
  have hcount : ∃ i ≤ 14, countdown s.persec 0 r.game = some ({ r.game with idx := i }, false) := by
    rcases Nat.lt_or_ge r.game.idx 13 with hlt | hge
    · obtain ⟨i, hi, hc⟩ := h.table.early (p := s.persec) (t := 0) (Nat.le_of_lt_succ hlt) (by omega)
      exact ⟨i, by omega, hc⟩
    · have hi := h.idx
      refine ⟨r.game.idx, hi, ?_⟩
      rcases Nat.lt_or_ge r.game.idx 14 with hlt | hge'
      · exact h.table.last (by omega) (by omega)
      · exact h.table.past (by omega) (by omega)
  obtain ⟨i, hi, hc⟩ := hcount
  unfold Inl.periodic
  split
  · have heq : countGame r mail.time = setIdx r i := by
      unfold countGame
      rw [hpersec, h.gameTicks, hc]
      rfl
    rw [heq]
    exact ⟨⟨h.fps, ⟨h.table.counts, h.table.act, h.table.action⟩, h.phase, h.gameTicks, h.ends, hi, h.extras,
      h.overtimes, h.stray⟩, Iff.rfl⟩
  · exact ⟨h, Iff.rfl⟩

/-- How far the countdown is in a tick of overtime, before the clock is looked at. -/
structure Moving (s r : Robot) : Prop where
  ticks : r.stat.gameTicks ≤ r.game.ends + 1
  early : r.stat.gameTicks + s.persec ≤ r.game.ends → r.game.idx ≤ 12
  last : r.game.ends < r.stat.gameTicks + s.persec → r.stat.gameTicks ≤ r.game.ends → r.game.idx = 13
  zero : r.stat.gameTicks = r.game.ends + 1 → r.game.idx = 14

theorem Moving.idx (h : Moving s r) : r.game.idx ≤ 14 := by
  rcases le_or_gt (r.stat.gameTicks + s.persec) r.game.ends with he | hl
  · have := h.early he
    omega
  · rcases le_or_gt r.stat.gameTicks r.game.ends with hle | hgt
    · rw [h.last hl hle]
      decide
    · have ht := h.ticks
      rw [h.zero (by omega)]

/-- Two full seconds are not less than a second apart. -/
theorem second_eq {p t e k : Int} (hp : 0 < p) (ht : t % p = 0) (he : e = k * p) (hlow : e < t + p) (hle : t ≤ e) : t = e := by
  obtain ⟨j, hj⟩ := Int.dvd_of_emod_eq_zero ht
  rw [Int.mul_comm] at hj
  have h1 : k < j + 1 := by
    have hlt : k * p < (j + 1) * p := by
      rw [add_mul]
      omega
    exact lt_of_mul_lt_mul_right hlt hp.le
  have h2 : j ≤ k := by
    have hmul : j * p ≤ k * p := by omega
    exact le_of_mul_le_mul_right hmul hp
  have hjk : j = k := by omega
  rw [hj, he, hjk]

/-- The clock of overtime in a full second. -/
theorem Going.countGame_overtime (hs : Begun s) (h : Going s r) (ho : InOvertime s r) (hm : Moving s r)
    (hsecond : r.stat.gameTicks % s.persec = 0) (hle : r.stat.gameTicks ≤ r.game.ends) (flush : List Message) :
    (Play s (countGame r flush) ∨ Gone s (countGame r flush)) ∧ (Punctual (countGame r flush) ↔ Punctual r) := by
  have hp := persec_pos s
  obtain ⟨k, hk, hends⟩ := ho.ends_eq hs
  rcases lt_trichotomy (r.stat.gameTicks + s.persec) r.game.ends with hearly | hdue | hlate
  · obtain ⟨i, hi, hc⟩ := h.countGame_early (hm.early hearly.le) hearly flush
    rw [hc]
    exact ⟨.inl ⟨h.setIdx i, .inr ⟨ho.setIdx i, hle, fun _ => hi, fun hl => absurd hl (not_le.mpr hearly),
      fun hz => by simp only [Inl.setIdx] at hz; omega⟩⟩, Iff.rfl⟩
  -- the last second, in which nobody need win
  · have htourney : r.has sTourney = false := has_phase ho.phase (by decide)
    rw [h.countGame_due (hm.early hdue.le) hdue.ge, htourney]
    have ho₂ := (ho.setIdx 13).timeUp false r.stat.gameTicks r.game.ends
    have hend := Going.endTourney_overtime hs ((h.setIdx 13).timeUp false r.stat.gameTicks r.game.ends) ho₂
      (by show 13 ≤ 14; decide) flush
    have hpun : Punctual ((Inl.setIdx r 13).note (.timeUp false r.stat.gameTicks r.game.ends)) ↔ Punctual r := by
      unfold Punctual
      constructor
      · exact fun hpun t e hin => hpun t e (List.mem_cons_of_mem _ hin)
      · exact fun hpun t e hin => hpun t e ((List.mem_cons.mp hin).resolve_left (by nofun))
    refine ⟨?_, hend.2.trans hpun⟩
    rcases hend.1 with hgone | ⟨hlt, hkeep⟩
    · exact .inr hgone
    · left
      refine ⟨((h.setIdx 13).timeUp _ _ _).keeps hkeep, .inr ⟨ho₂.keeps hkeep, Settled.keeps ?_ hkeep⟩⟩
      exact ⟨hle, fun he => absurd hdue (ne_of_lt he), fun _ _ => rfl, fun hz => absurd hz (ne_of_lt hlt)⟩
  -- the end
  · have heq := second_eq hp hsecond hends hlate hle
    have hi := hm.last hlate hle
    have hc : countGame r flush = Inl.setIdx r 14 := by
      unfold countGame
      rw [h.persec, h.table.zero hp hi heq.symm]
      rfl
    rw [hc]
    exact ⟨.inl ⟨h.setIdx 14, .inr ⟨ho.setIdx 14, hle, fun he => absurd hlate (not_lt.mpr he.le),
      fun _ hlt => absurd heq (ne_of_lt hlt), fun _ => rfl⟩⟩, Iff.rfl⟩

/-- A second after the end with one tick a second, the clock runs off its table. -/
theorem Going.countGame_stray (h : Going s r) (hm : Moving s r) (hone : s.persec = 1)
    (hgt : r.game.ends < r.stat.gameTicks) (flush : List Message) : countGame r flush = r.note .strayCount := by
  have ht := hm.ticks
  have hc := h.table.stray (persec_pos s) (hm.zero (by omega)) (t := r.stat.gameTicks) (by omega)
  unfold countGame
  rw [h.persec, hc]

/-- Sudden death and the clock of overtime. -/
theorem Going.periodic_overtime (hs : Begun s) (h : Going s r) (ho : InOvertime s r) (hm : Moving s r) (mail : Mail)
    (hone : s.persec = 1 → r.stat.gameTicks ≤ r.game.ends) :
    (Play s (periodic (suddenDeath r mail) mail) ∨ Gone s (periodic (suddenDeath r mail) mail)) ∧
      (Punctual (periodic (suddenDeath r mail) mail) ↔ Punctual r) := by
  have hp := persec_pos s
  obtain ⟨k, hk, hends⟩ := ho.ends_eq hs
  have hover : r.has sOvertime = true := has_phase ho.phase (by decide)
  -- on a whole second sudden death is not tried and the clock is read
  by_cases hsecond : r.stat.gameTicks % s.persec = 0
  · have hno : suddenDeath r mail = r := by
      unfold suddenDeath
      rw [if_neg]
      rw [h.persec]
      exact fun hand => hand.2 hsecond
    -- the overtime has not run past its end: with one tick a second by assumption
    have hle : r.stat.gameTicks ≤ r.game.ends := by
      rcases le_or_gt r.stat.gameTicks r.game.ends with hle | hgt
      · exact hle
      · refine hone ?_
        have ht := hm.ticks
        obtain ⟨j, hj⟩ := Int.dvd_of_emod_eq_zero hsecond
        have hmul : s.persec * (j - k) = 1 := by
          rw [mul_sub, ← hj, mul_comm s.persec k, ← hends]
          omega
        exact Int.eq_one_of_mul_eq_one_right hp.le hmul
    have hperiodic : periodic r mail = countGame r mail.time := by
      unfold periodic
      rw [h.persec, if_pos hsecond]
    rw [hno, hperiodic]
    exact h.countGame_overtime hs ho hm hsecond hle mail.time
  -- between two seconds it is sudden death that may end the game
  · have hsudden : suddenDeath r mail = endTourney r mail.sudden := by
      unfold suddenDeath
      rw [if_pos]
      rw [h.persec]
      exact ⟨hover, hsecond⟩
    have hend := h.endTourney_overtime hs ho hm.idx mail.sudden
    rw [hsudden]
    rcases hend.1 with hgone | ⟨hlt, hkeep⟩
    · have hper := hgone.periodic mail
      exact ⟨.inr hper.1, hper.2.trans hend.2⟩
    -- where it does not, nothing else happens in this tick
    · have hsame : periodic (endTourney r mail.sudden) mail = endTourney r mail.sudden := by
        unfold periodic
        rw [if_neg]
        rw [(h.keeps hkeep).persec, hkeep.gameTicks]
        exact hsecond
      rw [hsame]
      refine ⟨.inl ⟨h.keeps hkeep, .inr ⟨ho.keeps hkeep, Settled.keeps ?_ hkeep⟩⟩, hend.2⟩
      refine ⟨hlt.le, fun he => hm.early he.le, fun hl hlt' => ?_, fun hz => absurd hz (ne_of_lt hlt)⟩
      refine hm.last (lt_of_le_of_ne hl fun heq => hsecond ?_) hlt'.le
      have hmul : r.stat.gameTicks = (k - 1) * s.persec := by
        rw [sub_mul, ← hends]
        omega
      rw [hmul]
      exact Int.mul_emod_left _ _

end Ends

end Netrek.Inl
