/-
A league game from `start_tourney` on, tick after tick: it keeps to its time exactly if it is over before
the clock comes to the last second of regulation or of an extra time, and, with one tick a second,
before it comes to the end of overtime.
-/
import NetrekServer.Inl.Period
import NetrekServer.Lib.Run

namespace Netrek.Inl

open Netrek.Lib

/-! ## Ticks -/

/-- The players and the daemon change shared memory, or the robot runs. -/
inductive Step
  | world (m : Memory) (pos : Slot → Int)
  | wake
  | move (mail : Mail)

/-- `inlmove` up to `checkmess`. -/
def wake (r : Robot) : Robot :=
  let r := playerMaint (r.modifyStat fun s => { s with ticks := s.ticks + 1 })
  if r.has sCountdown then countStart r else r

/-- `inlmove` from `checkmess` on. -/
def move (r : Robot) (mail : Mail) : Robot :=
  let r := checkmess mail.mess r
  if playing r then genoCheck (play r mail) mail else r

/-- A tick is these two; the tick that starts a game does the second only, after `start_tourney`. -/
theorem inlmove_eq (r : Robot) (mail : Mail) : inlmove r mail = move (wake r) mail := rfl

def step (r : Robot) : Step → Robot
  | .world m pos => { r with mem := m, pos := pos }
  | .wake => wake r
  | .move mail => move r mail

/-- A game is on. -/
def inGame (r : Robot) (_ : Step) : Prop := r.has (sTourney ||| sOvertime) = true

instance (r : Robot) (st : Step) : Decidable (inGame r st) := inferInstanceAs (Decidable (_ = true))

/-- Neither does the clock of regulation or extra time come to its last second, nor, with one tick a second,
does the clock of overtime pass its end. -/
def InTime (r : Robot) : Step → Prop
  | .world .. | .wake => True
  | .move mail =>
    let r := checkmess mail.mess r
    playing r = true →
      (r.has sTourney = true → r.stat.gameTicks + 1 + r.persec < r.game.ends) ∧
        (r.persec = 1 → r.has sOvertime = true → r.stat.gameTicks + 1 ≤ r.game.ends)

/-- A game that began in the state `s` keeps to its time. -/
structure Timely (s r : Robot) : Prop where
  punctual : Punctual r
  extras : extras r ≤ 3
  overtimes : overtimes r ≤ 1
  idx : r.game.idx ≤ 14
  stray : .strayCount ∉ r.log
  ended : r.has (sTourney ||| sOvertime) = true →
    r.stat.gameTicks < s.stat.time + 15 * s.permin + s.stat.overtime + s.persec

/-! ## A tick of a game -/

section Ticks

variable {s r : Robot}

theorem Play.idx (h : Play s r) : r.game.idx ≤ 14 := by
  rcases h.period with ⟨-, -, hi⟩ | ⟨-, hset⟩
  · omega
  · rcases lt_trichotomy (r.stat.gameTicks + s.persec) r.game.ends with he | he | hl
    · have := hset.early he
      omega
    · rcases lt_or_eq_of_le hset.ticks with hlt | heq
      · rw [hset.last he.ge hlt]
        decide
      · rw [hset.zero heq]
    · rcases lt_or_eq_of_le hset.ticks with hlt | heq
      · rw [hset.last hl.le hlt]
        decide
      · rw [hset.zero heq]

theorem Play.overtimes (h : Play s r) : overtimes r ≤ 1 := by
  rcases h.period with ⟨hr, -, -⟩ | ⟨ho, -⟩
  · rw [hr.overtimes]
    exact Nat.zero_le 1
  · rw [ho.overtimes]

theorem Play.ends (hs : Begun s) (h : Play s r) : 60 * s.persec ≤ r.game.ends := by
  rcases h.period with ⟨hr, -, -⟩ | ⟨ho, -⟩
  · obtain ⟨k, hk, he⟩ := hr.ends_eq hs
    exact ends_le (persec_pos s) hk he
  · obtain ⟨k, hk, he⟩ := ho.ends_eq hs
    exact ends_le (persec_pos s) hk he

/-- A game is over in the time of all its periods. -/
theorem Play.bounded (hs : Begun s) (h : Play s r) :
    r.stat.gameTicks < s.stat.time + 15 * s.permin + s.stat.overtime + s.persec := by
  have hp := persec_pos s
  have hx : (Inl.extras r : Int) ≤ 3 := by exact_mod_cast h.extras
  have hticks := extraTicks_eq s
  have hextra : Inl.extras r * extraTicks s ≤ 3 * extraTicks s := mul_le_mul_of_nonneg_right hx (by omega)
  have hall : 3 * extraTicks s = 15 * s.permin := by
    unfold extraTicks Robot.permin
    omega
  obtain ⟨v, hv, hov⟩ := hs.overtime_minutes
  have hov60 := ends_le hp hv hov
  rcases h.period with ⟨hr, ht, -⟩ | ⟨ho, hset⟩
  · have he := hr.ends
    omega
  · have he := ho.ends
    have ht := hset.ticks
    omega

theorem Play.timely (hs : Begun s) (h : Play s r) (hpun : Punctual r) : Timely s r :=
  ⟨hpun, h.extras, h.overtimes, h.idx, h.stray, fun _ => h.bounded hs⟩

theorem Gone.timely (h : Gone s r) (hpun : Punctual r) : Timely s r := by
  refine ⟨hpun, h.extras, h.overtimes, h.idx, h.stray, fun hon => ?_⟩
  have hoff : r.has (sTourney ||| sOvertime) = false := has_phase h.phase (by decide)
  rw [hoff] at hon
  cases hon

/-- The clock has gone on. -/
theorem Going.countTick (h : Going s r) : Going s (Inl.countTick r) :=
  ⟨h.fps, h.table, ⟨h.pausing.counts, h.pausing.act, h.pausing.pause⟩, h.time, h.overtime, h.extras, h.stray⟩

/-- The clock goes on, with what a timeout changes. -/
def ticked (r : Robot) : Robot := (checkTimeout (countTick r)).modifyStatus fun s => { s with tourn := true }

theorem keeps_ticked (r : Robot) : Keeps (countTick r) (ticked r) :=
  (keeps_checkTimeout (countTick r)).trans (keeps_modifyStatus _ _)

theorem ticked_gameTicks (r : Robot) : (ticked r).stat.gameTicks = r.stat.gameTicks + 1 := (keeps_ticked r).gameTicks

theorem ticked_game (r : Robot) : (ticked r).game = r.game := (keeps_ticked r).game

theorem play_eq (r : Robot) (mail : Mail) :
    play r mail = updateScores (periodic (suddenDeath (ticked r) mail) mail) := rfl

theorem ticked_agree (r : Robot) : Agree r (ticked r) := by
  have h := (keeps_ticked r).toSame
  exact Same.agree ⟨h.fps, h.game, h.log⟩

theorem Going.ticked (h : Going s r) : Going s (Inl.ticked r) := h.countTick.keeps (keeps_ticked r)

theorem Regular.ticked (h : Regular s r) : Regular s (Inl.ticked r) :=
  Regular.keeps (r := Inl.countTick r) ⟨h.phase, h.ends, h.extratime, h.overtimes⟩ (keeps_ticked r)

theorem InOvertime.ticked (h : InOvertime s r) : InOvertime s (Inl.ticked r) :=
  InOvertime.keeps (r := Inl.countTick r) ⟨h.phase, h.ends, h.overtimes⟩ (keeps_ticked r)

theorem Settled.ticked (h : Settled s r) : Moving s (Inl.ticked r) := by
  obtain ⟨ht, he, hl, hz⟩ := h
  refine ⟨?_, ?_, ?_, ?_⟩
  all_goals rw [ticked_gameTicks, ticked_game]
  · omega
  · exact fun hle => he (by omega)
  · exact fun hlt hle => hl (by omega) (by omega)
  · exact fun heq => hz (by omega)

/-- A tick in regulation. -/
theorem Play.play_regular (hs : Begun s) (h : Going s r) (hr : Regular s r)
    (ht : r.stat.gameTicks + s.persec < r.game.ends) (hi : r.game.idx ≤ 12) (mail : Mail) :
    (Play s (Inl.play r mail) ∨ Gone s (Inl.play r mail)) ∧
      (Punctual (Inl.play r mail) ↔ Punctual r ∧ r.stat.gameTicks + 1 + s.persec < r.game.ends) := by
  have hno : suddenDeath (Inl.ticked r) mail = Inl.ticked r := by
    have hover : (Inl.ticked r).has sOvertime = false := has_phase hr.ticked.phase (by decide)
    unfold suddenDeath
    rw [hover, if_neg (fun hand => Bool.false_ne_true hand.1)]
  have hper := h.ticked.periodic_regular hs hr.ticked (by rw [ticked_gameTicks, ticked_game]; omega)
    (by rw [ticked_game]; exact hi) mail
  rw [ticked_gameTicks, ticked_game, (ticked_agree r).punctual] at hper
  rw [play_eq, hno]
  have hk := keeps_updateScores (periodic (Inl.ticked r) mail)
  refine ⟨?_, hk.toSame.agree.punctual.trans hper.2⟩
  rcases hper.1 with hp | hg
  · exact .inl (hp.keeps hk)
  · exact .inr (hg.keeps hk)

/-- A tick in overtime. -/
theorem Play.play_overtime (hs : Begun s) (h : Going s r) (ho : InOvertime s r) (hset : Settled s r) (mail : Mail)
    (hone : s.persec = 1 → r.stat.gameTicks + 1 ≤ r.game.ends) :
    (Play s (Inl.play r mail) ∨ Gone s (Inl.play r mail)) ∧ (Punctual (Inl.play r mail) ↔ Punctual r) := by
  have hper := h.ticked.periodic_overtime hs ho.ticked hset.ticked mail
    (by rw [ticked_gameTicks, ticked_game]; exact hone)
  rw [(ticked_agree r).punctual] at hper
  rw [play_eq]
  have hk := keeps_updateScores (periodic (suddenDeath (Inl.ticked r) mail) mail)
  refine ⟨?_, hk.toSame.agree.punctual.trans hper.2⟩
  rcases hper.1 with hp | hg
  · exact .inl (hp.keeps hk)
  · exact .inr (hg.keeps hk)

theorem genoCheck_cases (r : Robot) (mail : Mail) :
    ∃ r', Keeps r r' ∧ (Inl.genoCheck r mail = r' ∨ Inl.genoCheck r mail = endTourney r' mail.geno) := by
  refine ⟨(checkgeno r).1, keeps_checkgeno r, ?_⟩
  unfold Inl.genoCheck
  split
  · next h =>
    right
    rw [h]
  · next h =>
    left
    rw [h]

/-- The check for a genocide. -/
theorem Play.genoCheck (hs : Begun s) (h : Play s r) (mail : Mail) :
    (Play s (Inl.genoCheck r mail) ∨ Gone s (Inl.genoCheck r mail)) ∧
      (Punctual (Inl.genoCheck r mail) ↔ Punctual r) := by
  obtain ⟨r', hk, heq | heq⟩ := genoCheck_cases r mail
  · rw [heq]
    exact ⟨.inl (h.keeps hk), hk.toSame.agree.punctual⟩
  · have h' := h.keeps hk
    have hpun := hk.toSame.agree.punctual
    rw [heq]
    rcases h'.period with ⟨hr, ht, hi⟩ | ⟨ho, hset⟩
    · have hend := h'.toGoing.endTourney_regular hs hr ht.le (by omega) mail.geno
      exact ⟨hend.1, hend.2.trans hpun⟩
    · have hend := h'.toGoing.endTourney_overtime hs ho h'.idx mail.geno
      refine ⟨?_, hend.2.trans hpun⟩
      rcases hend.1 with hg | ⟨-, hkeep⟩
      · exact .inr hg
      · exact .inl (h'.keeps hkeep)

theorem Gone.genoCheck (h : Gone s r) (mail : Mail) :
    Gone s (Inl.genoCheck r mail) ∧ (Punctual (Inl.genoCheck r mail) ↔ Punctual r) := by
  obtain ⟨r', hk, heq | heq⟩ := genoCheck_cases r mail
  · rw [heq]
    exact ⟨h.keeps hk, hk.toSame.agree.punctual⟩
  · have hend := Gone.endTourney (h.keeps hk) mail.geno
    rw [heq]
    exact ⟨hend.1, hend.2.trans hk.toSame.agree.punctual⟩

/-- What is noted as strayed stays so at the check for a genocide, in overtime. -/
theorem stray_genoCheck (ho : phase r.stat.flags = sOvertime) (hin : .strayCount ∈ r.log) (mail : Mail) :
    .strayCount ∈ (Inl.genoCheck r mail).log := by
  obtain ⟨r', hk, heq | heq⟩ := genoCheck_cases r mail
  · rw [heq]
    exact hk.toSame.agree.stray.mpr hin
  · have hin' := hk.toSame.agree.stray.mpr hin
    have hno : r'.has sTourney = false := has_phase (hk.phase.trans ho) (by decide)
    rw [heq]
    rcases endTourney_cases r' mail.geno with he | ⟨ht, -⟩ | ⟨ht, -⟩ | ⟨-, -, hkeep⟩
    · exact he.toSame.agree.stray.mpr hin'
    · rw [hno] at ht
      cases ht
    · rw [hno] at ht
      cases ht
    · exact hkeep.toSame.agree.stray.mpr hin'

/-- With one tick a second, a tick that passes the end of overtime runs off the table. -/
theorem stray_play (h : Going s r) (ho : InOvertime s r) (hset : Settled s r) (hone : s.persec = 1)
    (hgt : r.game.ends < r.stat.gameTicks + 1) (mail : Mail) :
    phase (Inl.play r mail).stat.flags = sOvertime ∧ .strayCount ∈ (Inl.play r mail).log := by
  have hsecond : (Inl.ticked r).stat.gameTicks % (Inl.ticked r).persec = 0 := by
    rw [h.ticked.persec, hone]
    exact Int.emod_one _
  have hno : suddenDeath (Inl.ticked r) mail = Inl.ticked r := by
    unfold suddenDeath
    rw [if_neg (fun hand => hand.2 hsecond)]
  have hperiodic : periodic (Inl.ticked r) mail = countGame (Inl.ticked r) mail.time := by
    unfold periodic
    rw [if_pos hsecond]
  have hcount := h.ticked.countGame_stray hset.ticked hone (by rw [ticked_gameTicks, ticked_game]; exact hgt) mail.time
  have hk := keeps_updateScores ((Inl.ticked r).note .strayCount)
  rw [play_eq, hno, hperiodic, hcount]
  exact ⟨hk.phase.trans ho.ticked.phase, hk.toSame.agree.stray.mpr List.mem_cons_self⟩

/-- A message may end the game. -/
theorem Play.checkmess (hs : Begun s) (h : Play s r) (ms : List Message) :
    (Play s (Inl.checkmess ms r) ∧ Keeps r (Inl.checkmess ms r)) ∨
      (Gone s (Inl.checkmess ms r) ∧ Ended r (Inl.checkmess ms r)) := by
  have hgame : r.has sPregame = false := by
    rcases h.period with ⟨hr, -⟩ | ⟨ho, -⟩
    · exact has_phase hr.phase (by decide)
    · exact has_phase ho.phase (by decide)
  rcases keeps_checkmess ms hgame with hk | he
  · exact .inl ⟨h.keeps hk, hk⟩
  · exact .inr ⟨h.toGoing.ended (h.ends hs) h.idx h.overtimes he, he⟩

/-- A tick that is played: in regulation, and in overtime. -/
theorem Play.tick_regular (hs : Begun s) (h : Going s r) (hr : Regular s r)
    (ht : r.stat.gameTicks + s.persec < r.game.ends) (hi : r.game.idx ≤ 12) (mail : Mail) :
    (Play s (Inl.genoCheck (Inl.play r mail) mail) ∨ Gone s (Inl.genoCheck (Inl.play r mail) mail)) ∧
      (Punctual (Inl.genoCheck (Inl.play r mail) mail) ↔
        Punctual r ∧ r.stat.gameTicks + 1 + s.persec < r.game.ends) := by
  obtain ⟨hstate, hiff⟩ := Play.play_regular hs h hr ht hi mail
  rcases hstate with hp | hg
  · have hgeno := hp.genoCheck hs mail
    exact ⟨hgeno.1, hgeno.2.trans hiff⟩
  · have hgeno := hg.genoCheck mail
    exact ⟨.inr hgeno.1, hgeno.2.trans hiff⟩

theorem Play.tick_overtime (hs : Begun s) (h : Going s r) (ho : InOvertime s r) (hset : Settled s r) (mail : Mail)
    (hone : s.persec = 1 → r.stat.gameTicks + 1 ≤ r.game.ends) :
    (Play s (Inl.genoCheck (Inl.play r mail) mail) ∨ Gone s (Inl.genoCheck (Inl.play r mail) mail)) ∧
      (Punctual (Inl.genoCheck (Inl.play r mail) mail) ↔ Punctual r) := by
  obtain ⟨hstate, hiff⟩ := Play.play_overtime hs h ho hset mail hone
  rcases hstate with hp | hg
  · have hgeno := hp.genoCheck hs mail
    exact ⟨hgeno.1, hgeno.2.trans hiff⟩
  · have hgeno := hg.genoCheck mail
    exact ⟨.inr hgeno.1, hgeno.2.trans hiff⟩

theorem Gone.not_playing (h : Gone s r) : playing r = false := by
  have hoff : r.has (sTourney ||| sOvertime) = false := has_phase h.phase (by decide)
  unfold playing
  rw [hoff]
  rfl

/-- A tick of a game, in time or not. -/
theorem Play.move (hs : Begun s) (h : Play s r) (mail : Mail) :
    (InTime r (.move mail) →
      (Play s (Inl.move r mail) ∨ Gone s (Inl.move r mail)) ∧ (Punctual (Inl.move r mail) ↔ Punctual r)) ∧
      (¬ InTime r (.move mail) → ¬ Punctual (Inl.move r mail) ∨ .strayCount ∈ (Inl.move r mail).log) := by
  unfold InTime Inl.move
  dsimp only
  rcases h.checkmess hs mail.mess with ⟨h₁, hk⟩ | ⟨hg, he⟩
  · have hpun := hk.toSame.agree.punctual
    revert h₁ hpun
    generalize Inl.checkmess mail.mess r = r₁
    intro h₁ hpun
    cases hplaying : playing r₁ with
    | false => exact ⟨fun _ => ⟨.inl h₁, hpun⟩, fun hno => absurd (fun hp => nomatch hp) hno⟩
    | true =>
      rw [if_pos rfl, h₁.persec]
      rcases h₁.period with ⟨hr, ht, hi⟩ | ⟨ho, hset⟩
      · have htourney : r₁.has sTourney = true := has_phase hr.phase (by decide)
        have hover : r₁.has sOvertime = false := has_phase hr.phase (by decide)
        obtain ⟨hstate, hiff⟩ := Play.tick_regular hs h₁.toGoing hr ht hi mail
        constructor
        · intro hin
          exact ⟨hstate, hiff.trans ((and_iff_left ((hin rfl).1 htourney)).trans hpun)⟩
        · intro hno
          left
          rw [hiff]
          intro hand
          exact hno fun _ => ⟨fun _ => hand.2, fun _ hov => by rw [hover] at hov; cases hov⟩
      · have htourney : r₁.has sTourney = false := has_phase ho.phase (by decide)
        have hover : r₁.has sOvertime = true := has_phase ho.phase (by decide)
        constructor
        · intro hin
          obtain ⟨hstate, hiff⟩ := Play.tick_overtime hs h₁.toGoing ho hset mail fun hone => (hin rfl).2 hone hover
          exact ⟨hstate, hiff.trans hpun⟩
        · intro hno
          right
          by_cases hlate : s.persec = 1 ∧ r₁.game.ends < r₁.stat.gameTicks + 1
          · obtain ⟨hphase, hin⟩ := stray_play h₁.toGoing ho hset hlate.1 hlate.2 mail
            exact stray_genoCheck hphase hin mail
          · exfalso
            refine hno fun _ => ⟨fun ht => ?_, fun hone _ => ?_⟩
            · rw [htourney] at ht
              cases ht
            · exact not_lt.mp fun hlt => hlate ⟨hone, hlt⟩
  · rw [hg.not_playing]
    exact ⟨fun _ => ⟨.inr hg, he.toSame.agree.punctual⟩, fun hnot => absurd (fun hp => nomatch hp) hnot⟩

theorem Play.wake (h : Play s r) : Play s (Inl.wake r) ∧ (Punctual (Inl.wake r) ↔ Punctual r) := by
  have hticks := keeps_modifyStat_flags r (fun s => { s with ticks := s.ticks + 1 }) (fun _ => rfl) (fun _ => rfl)
    (fun _ => rfl) (fun _ => rfl) fun _ => rfl
  have hk := hticks.trans (keeps_playerMaint _)
  unfold Inl.wake
  dsimp only
  split
  · next hc =>
    have hk' := hk.trans (keeps_countStart (hk.pausing h.pausing) hc)
    exact ⟨h.keeps hk', hk'.toSame.agree.punctual⟩
  · exact ⟨h.keeps hk, hk.toSame.agree.punctual⟩

/-- A step of a game keeps to the time exactly if it is in time. -/
theorem Play.step (hs : Begun s) (h : Play s r) (hpun : Punctual r) (st : Step) :
    (InTime r st → (Play s (Inl.step r st) ∨ Gone s (Inl.step r st)) ∧ Punctual (Inl.step r st)) ∧
      (¬ InTime r st → ¬ Timely s (Inl.step r st)) := by
  cases st with
  | world m pos =>
    have hk : Keeps r { r with mem := m, pos := pos } := keeps_rest rfl rfl rfl rfl rfl
    exact ⟨fun _ => ⟨.inl (h.keeps hk), hk.toSame.agree.punctual.mpr hpun⟩, fun hno => absurd trivial hno⟩
  | wake =>
    obtain ⟨hw, hiff⟩ := h.wake
    exact ⟨fun _ => ⟨.inl hw, hiff.mpr hpun⟩, fun hno => absurd trivial hno⟩
  | move mail =>
    obtain ⟨hin, hout⟩ := h.move hs mail
    constructor
    · intro hi
      obtain ⟨hstate, hiff⟩ := hin hi
      exact ⟨hstate, hiff.mpr hpun⟩
    · intro hno ht
      rcases hout hno with hp | hstray
      · exact hp ht.punctual
      · exact ht.stray hstray

end Ticks

/-! ## Whole games -/

/-- The states of a run are timely exactly if its steps are. -/
theorem timely_run {s : Robot} (hs : Begun s) : ∀ {r r' : Robot} {ops : List Step}, Run inGame step r ops r' →
    Play s r ∨ Gone s r → Punctual r →
    ((∀ pre, pre <+: ops → Timely s (pre.foldl step r)) ↔ Run InTime step r ops r')
  | _, _, _, .nil r, hstate, hpun => by
    have ht : Timely s r := by
      rcases hstate with hp | hg
      · exact hp.timely hs hpun
      · exact hg.timely hpun
    constructor
    · exact fun _ => .nil r
    · intro _ pre hpre
      rw [List.prefix_nil.mp hpre]
      exact ht
  | r, _, a :: ops, .cons hon hrun, hstate, hpun => by
    have hplay : Play s r := by
      rcases hstate with hp | hg
      · exact hp
      · have hoff : r.has (sTourney ||| sOvertime) = false := has_phase hg.phase (by decide)
        have hon : r.has (sTourney ||| sOvertime) = true := hon
        rw [hoff] at hon
        cases hon
    obtain ⟨hin, hout⟩ := hplay.step hs hpun a
    constructor
    · intro hall
      have hi : InTime r a := by
        by_contra hno
        exact hout hno (hall [a] (List.prefix_append [a] ops))
      obtain ⟨hstate', hpun'⟩ := hin hi
      refine .cons hi ((timely_run hs hrun hstate' hpun').mp fun pre hpre => ?_)
      exact hall (a :: pre) (List.cons_prefix_cons.mpr ⟨rfl, hpre⟩)
    · rintro (_ | ⟨hi, hrun'⟩)
      obtain ⟨hstate', hpun'⟩ := hin hi
      intro pre hpre
      cases pre with
      | nil => exact hplay.timely hs hpun
      | cons b pre =>
        obtain ⟨rfl, hpre'⟩ := List.cons_prefix_cons.mp hpre
        exact (timely_run hs hrun hstate' hpun').mpr hrun' pre hpre'

/-- The robot when the countdown to a game ends. -/
structure Ready (r : Robot) : Prop where
  table : IsGame r.game
  counts : r.countdown.counts = startCounts
  act : r.countdown.act = 8
  overtime : r.has sOvertime = false
  begun : Begun r

/-- A game that begins, with an empty log. -/
def begin (r : Robot) : Robot := { startTourney r with log := [] }

theorem phase_start {w : Word} (h : w.has sOvertime = false) :
    phase ((w ||| sTourney) &&& ~~~(sPregame ||| sCountdown ||| sConfine)) = sTourney := by
  have hno : w &&& sOvertime = 0 := by
    by_contra hne
    rw [Word.has_iff.mpr hne] at h
    cases h
  have hmask : ~~~(sPregame ||| sCountdown ||| sConfine) &&& (sTourney ||| sOvertime ||| sPregame) =
      sOvertime ||| sTourney := by decide
  unfold phase
  rw [BitVec.and_assoc, hmask, BitVec.and_or_distrib_right, BitVec.and_or_distrib_left, hno]
  have hself : sTourney &&& (sOvertime ||| sTourney) = sTourney := by decide
  have habs : (w &&& sTourney) ||| sTourney = sTourney := by
    ext i hi
    simp only [BitVec.getElem_and, BitVec.getElem_or]
    cases w[i] <;> cases sTourney[i] <;> rfl
  rw [hself]
  exact (congrArg (· ||| sTourney) BitVec.zero_or).trans habs

theorem begin_stat (r : Robot) : (begin r).stat =
    { r.stat with
      flags := (r.stat.flags ||| sTourney) &&& ~~~(sPregame ||| sCountdown ||| sConfine)
      gameTicks := 0
      remaining := -1 } := by
  unfold begin startTourney
  dsimp only [Robot.modifyStat, Robot.modifyStatus, resetStats]
  rw [obliterate_stat]
  rfl

theorem begin_game (r : Robot) : (begin r).game = { r.game with idx := 0, ends := r.stat.time } := by
  unfold begin startTourney
  dsimp only [Robot.modifyStat, Robot.modifyStatus, resetStats]
  rw [obliterate_stat, obliterate_game]
  rfl

theorem begin_fps (r : Robot) : (begin r).fps = r.fps := by
  unfold begin startTourney
  dsimp only [Robot.modifyStat, Robot.modifyStatus, resetStats]
  rw [obliterate_fps]
  rfl

theorem begin_countdown (r : Robot) : (begin r).countdown = r.countdown := by
  unfold begin startTourney
  dsimp only [Robot.modifyStat, Robot.modifyStatus, resetStats]
  rw [obliterate_countdown]
  rfl

/-- A game begins in regulation, with all its time before it. -/
theorem Ready.begin {r : Robot} (h : Ready r) : Begun (Inl.begin r) ∧ Play (Inl.begin r) (Inl.begin r) := by
  have hpersec : (Inl.begin r).persec = r.persec := by
    unfold Robot.persec
    rw [begin_fps]
  have hpermin : (Inl.begin r).permin = r.permin := by
    unfold Robot.permin
    rw [hpersec]
  have hbegun : Begun (Inl.begin r) := by
    refine ⟨?_, ?_, ?_⟩
    · rw [begin_stat, hpermin]
      exact h.begun.time
    · rw [begin_stat, hpermin]
      exact h.begun.overtime
    · rw [begin_stat]
      exact h.begun.extratime
  have hlog : (Inl.begin r).log = [] := rfl
  have hx : extras (Inl.begin r) = 0 := by
    unfold extras
    rw [hlog]
    rfl
  refine ⟨hbegun, ⟨rfl, ?_, ?_, rfl, rfl, by omega, by rw [hlog]; exact List.not_mem_nil⟩,
    .inl ⟨⟨?_, ?_, ?_, by unfold overtimes; rw [hlog]; rfl⟩, ?_, ?_⟩⟩
  · rw [begin_game]
    exact ⟨h.table.counts, h.table.act, h.table.action⟩
  · refine ⟨?_, ?_, fun hc => ?_⟩
    · rw [begin_countdown]
      exact h.counts
    · rw [begin_countdown]
      exact h.act
    · unfold Robot.has at hc
      rw [begin_stat] at hc
      have hoff : Word.has ((r.stat.flags ||| sTourney) &&& ~~~(sPregame ||| sCountdown ||| sConfine)) sCountdown =
          true := hc
      rw [Word.has_iff, BitVec.and_assoc] at hoff
      exact absurd (by simp [sPregame, sCountdown, sConfine]) hoff
  · rw [begin_stat]
    exact phase_start h.overtime
  · rw [begin_game, begin_stat, hx]
    simp
  · rw [hx]
    simp
  · obtain ⟨k, hk, htime⟩ := hbegun.minutes 0
    have h60 := ends_le (persec_pos (Inl.begin r)) hk htime
    have hp := persec_pos (Inl.begin r)
    rw [begin_stat] at h60 ⊢
    rw [begin_game]
    dsimp only at h60 ⊢
    omega
  · rw [begin_game]
    exact Nat.zero_le 12

/-- A game keeps to its time, whatever happens, exactly if it is over before the clock comes to the last second
of regulation or of an extra time, and, with one tick a second, before it passes the end of overtime. -/
theorem game_in_time {r r' : Robot} {ops : List Step} (hr : Ready r) (h : Run inGame step (begin r) ops r') :
    (∀ pre, pre <+: ops → Timely (begin r) (pre.foldl step (begin r))) ↔ Run InTime step (begin r) ops r' := by
  obtain ⟨hs, hplay⟩ := hr.begin
  exact timely_run hs h (.inl hplay) fun _ _ hin => nomatch hin

/-! ## A game in which nothing happens -/

/-- Nothing changes that a genocide or a pause depends on. -/
structure Idle (r r' : Robot) : Prop where
  flags : r'.stat.flags = r.stat.flags
  planets : r'.mem.planets = r.mem.planets
  side : ∀ t, (r'.teams t).side = (r.teams t).side

theorem Idle.refl (r : Robot) : Idle r r := ⟨rfl, rfl, fun _ => rfl⟩

theorem Idle.trans {r₁ r₂ r₃ : Robot} (h : Idle r₁ r₂) (h' : Idle r₂ r₃) : Idle r₁ r₃ :=
  ⟨h'.flags.trans h.flags, h'.planets.trans h.planets, fun t => (h'.side t).trans (h.side t)⟩

theorem Idle.genoLoser {r r' : Robot} (h : Idle r r') : Inl.genoLoser r' = Inl.genoLoser r := by
  unfold Inl.genoLoser planetCount
  rw [h.planets, h.side, h.side]

theorem idle_scorePlanets (weight : ℚ) : ∀ (l : List (Fin maxPlanets)) (r : Robot), Idle r (l.foldl (scorePlanet weight) r)
  | [], r => Idle.refl r
  | p :: l, r => by
    have h : Idle r (scorePlanet weight r p) := by
      refine ⟨rfl, rfl, fun t => ?_⟩
      unfold scorePlanet
      dsimp only
      split <;> rfl
    exact h.trans (idle_scorePlanets weight l _)

theorem idle_announceScores (r : Robot) : Idle r (announceScores r) := by
  unfold announceScores
  split
  · exact Idle.refl r
  split
  · exact Idle.refl r
  · exact ⟨rfl, rfl, fun _ => rfl⟩

theorem idle_updateScores (r : Robot) : Idle r (updateScores r) := by
  have hstat : Idle r (r.modifyStat fun s => { s with weightedDivisor := s.weightedDivisor + scoreWeight r * 2 }) :=
    ⟨rfl, rfl, fun _ => rfl⟩
  have h := hstat.trans (idle_scorePlanets (scoreWeight r) (List.finRange maxPlanets) _)
  unfold updateScores
  dsimp only
  split
  · exact h.trans (idle_announceScores _)
  · exact h

/-- A game in regulation that is not paused, in which both sides have planets. -/
structure Quiescent (s r : Robot) (ticks : Int) : Prop extends Play s r where
  flags : r.stat.flags = sTourney
  geno : genoLoser r = none
  gameTicks : r.stat.gameTicks = ticks
  punctual : Punctual r
  ends : r.game.ends = s.stat.time

theorem Quiescent.regular {s r : Robot} {ticks : Int} (h : Quiescent s r ticks) :
    Regular s r ∧ r.stat.gameTicks + s.persec < r.game.ends ∧ r.game.idx ≤ 12 := by
  rcases h.period with hr | ⟨ho, -⟩
  · exact hr
  · have hphase := ho.phase
    rw [h.flags] at hphase
    exact absurd hphase (by decide)

theorem Quiescent.playing {s r : Robot} {ticks : Int} (h : Quiescent s r ticks) : playing r = true := by
  unfold Inl.playing Robot.has
  rw [h.flags]
  rfl

/-- A tick without messages, before the last second. -/
theorem Quiescent.tick {s : Robot} (hs : Begun s) {r : Robot} {ticks : Int} (h : Quiescent s r ticks)
    (ht : ticks + 1 + s.persec < s.stat.time) : Quiescent s (Inl.step r (.move default)) (ticks + 1) := by
  obtain ⟨hr, hlt, hi⟩ := h.regular
  have hlast : r.stat.gameTicks + 1 + s.persec < r.game.ends := by
    rw [h.gameTicks, h.ends]
    exact ht
  have hticked : Idle r (ticked r) := by
    have hoff : (countTick r).has sTmout = false := by
      show r.stat.flags.has sTmout = false
      rw [h.flags]
      rfl
    unfold ticked checkTimeout
    rw [hoff]
    exact ⟨rfl, rfl, fun _ => rfl⟩
  have hno : suddenDeath (ticked r) default = ticked r := by
    have hover : (ticked r).has sOvertime = false := has_phase hr.ticked.phase (by decide)
    unfold suddenDeath
    rw [hover, if_neg (fun hand => Bool.false_ne_true hand.1)]
  obtain ⟨i, hper⟩ : ∃ i, periodic (ticked r) default = setIdx (ticked r) i := by
    unfold periodic
    split
    · obtain ⟨i, -, hc⟩ := h.toGoing.ticked.countGame_early (by rw [ticked_game]; exact hi)
        (by rw [ticked_gameTicks, ticked_game]; exact hlast) (default : Mail).time
      exact ⟨i, hc⟩
    · exact ⟨(ticked r).game.idx, rfl⟩
  have hset : Idle (ticked r) (setIdx (ticked r) i) := ⟨rfl, rfl, fun _ => rfl⟩
  have hidle : Idle r (play r default) := by
    rw [play_eq, hno, hper]
    exact (hticked.trans hset).trans (idle_updateScores _)
  have hkeeps := keeps_updateScores (setIdx (ticked r) i)
  have hgeno : genoCheck (play r default) default = play r default := by
    unfold genoCheck checkgeno
    rw [hidle.genoLoser, h.geno]
  have hmove : Inl.step r (.move default) = play r default := by
    show (if Inl.playing r = true then genoCheck (play r default) default else r) = _
    rw [if_pos h.playing, hgeno]
  obtain ⟨hstate, hpun⟩ := Play.tick_regular hs h.toGoing hr hlt hi default
  rw [hgeno] at hstate hpun
  rw [hmove]
  rcases hstate with hplay | hgone
  · refine ⟨hplay, hidle.flags.trans h.flags, hidle.genoLoser.trans h.geno, ?_, hpun.mpr ⟨h.punctual, hlast⟩, ?_⟩
    · rw [play_eq, hno, hper, hkeeps.gameTicks, ← h.gameTicks]
      exact ticked_gameTicks r
    · rw [play_eq, hno, hper, hkeeps.game, ← h.ends]
      show (ticked r).game.ends = _
      rw [ticked_game]
  · have hphase := hgone.phase
    rw [hidle.flags, h.flags] at hphase
    exact absurd hphase (by decide)

/-- Ticks without messages, before the last second. -/
theorem Quiescent.run {s : Robot} (hs : Begun s) : ∀ (n : Nat) {r : Robot} {ticks : Int}, Quiescent s r ticks →
    ticks + n + s.persec < s.stat.time →
    ∃ r', Quiescent s r' (ticks + n) ∧ Run inGame step r (List.replicate n (.move default)) r'
  | 0, r, ticks, h, _ => ⟨r, by simpa using h, .nil r⟩
  | n + 1, r, ticks, h, ht => by
    push_cast at ht
    obtain ⟨r', hq, hrun⟩ := Quiescent.run hs n (h.tick hs (by omega)) (by omega)
    refine ⟨r', ?_, .cons ?_ hrun⟩
    · have hsum : ticks + ((n + 1 : Nat) : Int) = ticks + 1 + n := by
        push_cast
        ring
      rw [hsum]
      exact hq
    · show r.stat.flags.has (sTourney ||| sOvertime) = true
      rw [h.flags]
      rfl

/-- Every game in which nobody sends a message and both sides keep planets is ended, or prolonged, a second
early. -/
theorem quiet_game_early {r : Robot} (hr : Ready r) (hflags : r.stat.flags = sCountdown)
    (hgeno : genoLoser (begin r) = none) :
    ∃ ops r', Run inGame step (begin r) ops r' ∧ ¬ Timely (begin r) r' := by
  obtain ⟨hs, hplay⟩ := hr.begin
  have hp := persec_pos (begin r)
  obtain ⟨k, hk, htime⟩ := hs.minutes 0
  have h60 := ends_le hp hk htime
  have hbegin : Quiescent (begin r) (begin r) 0 := by
    refine ⟨hplay, ?_, hgeno, ?_, fun _ _ hin => (nomatch hin), ?_⟩
    · have hstart : (sCountdown ||| sTourney) &&& ~~~(sPregame ||| sCountdown ||| sConfine) = sTourney := by decide
      rw [begin_stat, hflags]
      exact hstart
    · rw [begin_stat]
    · rw [begin_game, begin_stat]
  simp only [Nat.cast_zero, zero_mul, add_zero] at h60
  obtain ⟨n, hn⟩ : ∃ n : Nat, (n : Int) + 1 + (begin r).persec = (begin r).stat.time :=
    ⟨((begin r).stat.time - (begin r).persec - 1).toNat, by omega⟩
  obtain ⟨r', hq, hrun⟩ := hbegin.run hs n (by omega)
  -- the next tick is the last second
  obtain ⟨hreg, hlt, hi⟩ := hq.regular
  refine ⟨_, step r' (.move default), hrun.append (.cons ?_ (.nil _)), fun ht => ?_⟩
  · show r'.stat.flags.has (sTourney ||| sOvertime) = true
    rw [hq.flags]
    rfl
  · have hstep : step r' (.move default) = genoCheck (play r' default) default := by
      show (if playing r' = true then genoCheck (play r' default) default else r') = _
      rw [if_pos hq.playing]
    have hpun := ht.punctual
    rw [hstep, (Play.tick_regular hs hq.toGoing hreg hlt hi default).2, hq.gameTicks, hq.ends] at hpun
    omega

/-- The robot at the end of a countdown to a game of an hour, of the first two races. -/
def hourGame : Robot :=
  let r : Robot := default
  let x : Team := default
  let p : Planet := default
  { r with
    fps := tenTicks
    virgin := fun l => { p with owner := if l.val < 10 then fed else if l.val < 20 then rom else if l.val < 30 then kli else ori }
    teams := fun t => { x with side := if t = home then fed else rom, sideIndex := .race (if t = home then fedSide else romSide) }
    countdown := ⟨9, startCounts, 8, 0, .startTourney⟩
    game := ⟨0, gameCounts, 12, 0, .endTourney⟩
    stat := { r.stat with flags := sCountdown, time := 60 * 600, overtime := 20 * 600 } }

theorem ready_hourGame : Ready hourGame := by
  refine ⟨⟨rfl, rfl, rfl⟩, rfl, rfl, by decide +kernel, ⟨60, by decide, ?_⟩, ⟨20, by decide, ?_⟩, ?_⟩
  · decide +kernel
  · decide +kernel
  · decide +kernel

/-- Its first tick is played. -/
theorem game_in_time_first_tick :
    (∀ pre, pre <+: [.wake, .move default] → Timely (begin hourGame) (pre.foldl step (begin hourGame))) ↔
      Run InTime step (begin hourGame) [.wake, .move default] (inlmove (begin hourGame) default) := by
  rw [inlmove_eq]
  exact game_in_time ready_hourGame (.cons (by decide +kernel) (.cons (by decide +kernel) (.nil _)))

/-- The clock of an hour's game calls `end_tourney` a second early. -/
theorem hourGame_early : ∃ ops r', Run inGame step (begin hourGame) ops r' ∧ ¬ Timely (begin hourGame) r' :=
  quiet_game_early ready_hourGame rfl (by decide +kernel)

end Netrek.Inl
