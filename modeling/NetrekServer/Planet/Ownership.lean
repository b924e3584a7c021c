/-
A planet has no armies exactly if it has no owner, whatever is bombed, beamed down, populated, given up in
a surrender or taken by a coup; unless a ship of no team drops an army.
-/
import NetrekServer.Lib.Run
import NetrekServer.Planet.Populate
import NetrekServer.Planet.Surrender
import NetrekServer.War.Keeps

namespace Netrek.Planets

open Daemon Empire Beam Stats War Netrek.Lib

/-! ## Planets in order -/

/-- The planet has no armies exactly if it has no owner. -/
structure Peopled (l : Planet) : Prop where
  nonneg : 0 ≤ l.armies
  owned : l.armies = 0 ↔ l.owner = nobody

/-- The home of a team, and a planet with a coup to come, are of a team. -/
def Native (l : Planet) : Prop := l.flags.has (plHome ||| plCoup) = true → l.flags &&& allTeam ≠ nobody

structure Settled (s : Server) : Prop where
  lawful : Lawful s
  peopled : ∀ l, Peopled (s.planet l)
  native : ∀ l, Native (s.planet l)

/-- A change that keeps a planet in order. -/
structure Proper (l l' : Planet) : Prop where
  peopled : Peopled l → Native l → Peopled l'
  native : Native l → Native l'

theorem Peopled.pos {l : Planet} (h : Peopled l) (ho : l.owner ≠ nobody) : 0 < l.armies := by
  have hz : l.armies ≠ 0 := fun hz => ho (h.owned.1 hz)
  have := h.nonneg
  omega

/-- A planet with armies is peopled if it has an owner. -/
theorem Peopled.of_pos {l : Planet} (h : 0 < l.armies) (ho : l.owner ≠ nobody) : Peopled l :=
  ⟨by omega, ⟨fun hz => by omega, fun hn => absurd hn ho⟩⟩

theorem Proper.refl (l : Planet) : Proper l l := ⟨fun h _ => h, id⟩

theorem Proper.trans {l l' l'' : Planet} (h : Proper l l') (h' : Proper l' l'') : Proper l l'' :=
  ⟨fun hp hn => h'.peopled (h.peopled hp hn) (h.native hn), fun hn => h'.native (h.native hn)⟩

/-- The flags that say whose home it is. -/
def nativeFlags : Word := allTeam ||| plHome ||| plCoup

theorem Native.congr {l l' : Planet} (hf : l'.flags &&& nativeFlags = l.flags &&& nativeFlags) (h : Native l) :
    Native l' := by
  have hmask (w m : Word) (hm : nativeFlags &&& m = m) : w &&& nativeFlags &&& m = w &&& m := by
    rw [BitVec.and_assoc, hm]
  have hall : l'.flags &&& allTeam = l.flags &&& allTeam := by
    rw [← hmask l'.flags allTeam (by decide), hf, hmask _ _ (by decide)]
  have hhome : l'.flags &&& (plHome ||| plCoup) = l.flags &&& (plHome ||| plCoup) := by
    rw [← hmask l'.flags (plHome ||| plCoup) (by decide), hf, hmask _ _ (by decide)]
  unfold Native Word.has at h ⊢
  rw [hall, hhome]
  exact h

/-- Armies come and go, but the last of them. -/
theorem Proper.of_armies {l l' : Planet} (ho : l'.owner = l.owner)
    (hf : l'.flags &&& nativeFlags = l.flags &&& nativeFlags) (ha : 0 < l.armies → 0 < l'.armies)
    (hz : l.armies = 0 → l'.armies = 0) : Proper l l' := by
  refine ⟨fun hp _ => ?_, .congr hf⟩
  by_cases hn : l.owner = nobody
  · have hzero := hz (hp.owned.2 hn)
    exact ⟨by omega, ⟨fun _ => ho.trans hn, fun _ => hzero⟩⟩
  · exact .of_pos (ha (hp.pos hn)) (by rw [ho]; exact hn)

theorem and_or_of_disjoint (w : Word) {m : Word} (hm : m &&& nativeFlags = 0) :
    (w ||| m) &&& nativeFlags = w &&& nativeFlags := by
  rw [BitVec.and_or_distrib_right, hm]
  exact BitVec.or_zero

theorem and_andNot_of_disjoint (w : Word) {m : Word} (hm : ~~~m &&& nativeFlags = nativeFlags) :
    w &&& ~~~m &&& nativeFlags = w &&& nativeFlags := by
  rw [BitVec.and_assoc, hm]

/-! ## Steps over all planets -/

/-- Every planet is kept in order. -/
def Tends (s s' : Server) : Prop := ∀ l, Proper (s.planet l) (s'.planet l)

theorem Tends.refl (s : Server) : Tends s s := fun _ => .refl _

theorem Tends.trans {s s' s'' : Server} (h : Tends s s') (h' : Tends s' s'') : Tends s s'' := fun l => (h l).trans (h' l)

theorem Tends.foldl {α : Type} {f : Server → α → Server} (hf : ∀ s a, Tends s (f s a)) : ∀ (as : List α) (s : Server),
    Tends s (as.foldl f s)
  | [], s => .refl s
  | a :: as, s => (hf s a).trans (Tends.foldl hf as _)

theorem Tends.of_planets {s s' : Server} (h : s'.mem.planets = s.mem.planets) : Tends s s' := by
  intro l
  rw [show s'.planet l = s.planet l from congrFun h l]
  exact .refl _

theorem Tends.modifyPlanet (s : Server) (l : Fin maxPlanets) {f : Planet → Planet}
    (hf : Proper (s.planet l) (f (s.planet l))) : Tends s (s.modifyPlanet l f) := by
  intro k
  rw [Server.planet_modifyPlanet]
  split
  · subst_vars
    exact hf
  · exact .refl _

/-- One planet changes, and perhaps other things that are no planets. -/
theorem Tends.planet {s s' : Server} (h : s'.mem.planets = s.mem.planets) (l : Fin maxPlanets) {f : Planet → Planet}
    (hf : Proper (s.planet l) (f (s.planet l))) : Tends s (s'.modifyPlanet l f) := by
  have hplanet : s'.planet l = s.planet l := congrFun h l
  exact (Tends.of_planets h).trans (.modifyPlanet s' l (by rw [hplanet]; exact hf))

theorem Settled.of {s s' : Server} (h : Settled s) (hl : Lawful s') (ht : Tends s s') : Settled s' :=
  ⟨hl, fun l => (ht l).peopled (h.peopled l) (h.native l), fun l => (ht l).native (h.native l)⟩

/-! ## Bombs and coups -/

theorem proper_redraw (l : Planet) : Proper l { l with flags := l.flags ||| plRedraw } :=
  .of_armies rfl (and_or_of_disjoint _ (by decide)) id id

/-- A coup gives the planet to the team whose home it is, with four armies. -/
theorem tends_resolveCoup (s : Server) (h : Fin maxPlanets) : Tends s (resolveCoup s h) := by
  unfold resolveCoup
  split
  · rename_i hcoup
    refine .modifyPlanet s h ⟨fun _ hn => ?_, fun hn => ?_⟩
    · refine .of_pos (by decide : (0 : Int) < 4) ?_
      rw [and_allTeam_andNot _ (by decide)]
      exact hn (by rw [has_union, hcoup, Bool.or_true])
    · intro hhas
      show (s.planet h).flags &&& ~~~plCoup &&& allTeam ≠ nobody
      rw [and_allTeam_andNot _ (by decide)]
      exact hn (by rw [has_union, hcoup, Bool.or_true])
  · exact .refl s

theorem tends_coupAndWarnings (s : Server) (h : Fin maxPlanets) : Tends s (coupAndWarnings s h) := by
  unfold coupAndWarnings
  extract_lets s₁
  have h₁ : Tends (resolveCoup s h) s₁ :=
    .modifyPlanet _ h (.of_armies rfl (and_andNot_of_disjoint _ (by decide)) id id)
  have hwarn (n : Int) : Tends s₁ { s₁ with plWarning := Function.update s₁.plWarning h n } := .of_planets rfl
  split
  · exact ((tends_resolveCoup s h).trans h₁).trans (hwarn _)
  · exact (tends_resolveCoup s h).trans h₁

theorem planets_planetKill (s : Server) (j : Slot) (l : Fin maxPlanets) :
    (planetKill s j l).mem.planets = s.mem.planets := by
  unfold planetKill countLoss countTourn
  dsimp only
  split <;> rfl

/-- A planet that fires keeps every planet in order. -/
theorem tends_planetFire (j : Slot) (s : Server) (l : Fin maxPlanets) : Tends s (planetFire j s l) := by
  unfold planetFire
  extract_lets p near s₁ s₂
  have h₁ : Tends s s₁ := by
    show Tends s (if near then _ else s)
    split
    · exact .modifyPlanet s l (proper_redraw _)
    · exact .refl s
  have h₂ : Tends s₁ s₂ := .of_planets rfl
  split
  · exact .refl s
  split
  · exact h₁
  split
  · exact (h₁.trans h₂).trans (.of_planets (planets_planetKill s₂ j l))
  · exact h₁.trans h₂

/-- A bombing run destroys four armies at most, and only where there are five. -/
theorem bombed_le (p : Player) (rnd : Nat) : bombed p rnd ≤ 4 := by
  unfold bombed
  split_ifs <;> decide

/-- A bomb kills at most four of five armies or more. -/
theorem tends_bombArmies {s : Server} {j : Slot} {ab : Int} (hab : ab ≤ 4)
    (ha : 5 ≤ (s.planet (s.player j).planet).armies) : Tends s (bombArmies s j ab) := by
  unfold bombArmies
  extract_lets h s₁ s₂ s₃
  have h₁ : Tends s s₁ := by
    refine .modifyPlanet s h (.of_armies rfl ?_ (fun _ => ?_) fun hz => ?_)
    · dsimp only
      split
      · exact and_or_of_disjoint _ (by decide)
      · rfl
    · show 0 < (s.planet (s.player j).planet).armies - ab
      omega
    · have : 5 ≤ (s.planet h).armies := ha
      omega
  have h₂ : s₃.mem.planets = s₁.mem.planets := by
    show (countTourn s₂ _).mem.planets = _
    unfold countTourn
    split <;> rfl
  exact h₁.trans (.of_planets h₂)

/-- Bombing keeps every planet in order. -/
theorem tends_bombPlanet {s : Server} {j : Slot} (hb : bombs s j = true) : Tends s (bombPlanet s j) := by
  have hfive : 5 ≤ (s.planet (s.player j).planet).armies := by
    unfold bombs at hb
    simp only [Bool.and_eq_true, decide_eq_true_eq] at hb
    exact hb.2
  have hw : (warnOwners s j).mem = s.mem := by
    unfold warnOwners
    extract_lets p
    split <;> rfl
  unfold bombPlanet
  extract_lets s₁ owner
  generalize hs₂ : (s₁.modifyPlayer j fun p => { p with swar := p.swar ||| owner }) = s₂
  have hplanets : s₂.mem.planets = s.mem.planets := by
    rw [← hs₂]
    exact congrArg (·.planets) hw
  have hplanet : (s₂.player j).planet = (s.player j).planet := by
    rw [← hs₂, player_self]
    exact congrArg (fun m => (m.players j).planet) hw
  dsimp only [Server.draw]
  split
  · exact .of_planets hplanets
  · have hdraw : Tends s { s₂ with random := fun n => s₂.random (n + 1) } := .of_planets hplanets
    refine hdraw.trans (tends_bombArmies (bombed_le _ _) ?_)
    show 5 ≤ (s₂.mem.planets (s₂.player j).planet).armies
    rw [hplanets, hplanet]
    exact hfive

theorem tends_plfight (s : Server) : Tends s (plfight s) := by
  have hon (s : Server) (j : Slot) : Tends s (plfightOn s j) := by
    have hdamage : Tends s (pldamageplayer s j) := .foldl (tends_planetFire j) _ s
    unfold plfightOn
    split
    · exact .refl s
    dsimp only
    split
    · exact hdamage.trans (tends_bombPlanet ‹_›)
    · exact hdamage
  exact (Tends.foldl tends_coupAndWarnings _ s).trans (.foldl hon _ _)

/-! ## Armies that are beamed -/

/-- A ship of no team drops an army on a planet of nobody, or the one that wipes out a race of three players or more. -/
structure Strays (c : Campaign) (i : Slot) : Prop where
  lands : Lands c i
  stateless : (c.player i).team = nobody
  drop : (c.planet (c.player i).planet).owner = nobody ∨
    (c.planet (c.player i).planet).armies = 1 ∧ c.server.setup.inlMode = false ∧
      3 ≤ teamCount c.server.mem (c.planet (c.player i).planet).owner ∧ ∀ l, l ≠ (c.player i).planet → (c.planet l).owner ≠ (c.planet (c.player i).planet).owner

/-- The loop of `udplanets` that counts adds up the planets of each team. -/
theorem plcount_countPlanet (t : Word) : ∀ (ls : List (Fin maxPlanets)) (r : Realm),
    ((ls.foldl countPlanet r).teams t).plcount = (r.teams t).plcount + (ls.countP fun l => r.owner l == t : Nat)
  | [], r => by simp
  | l :: ls, r => by
    have hone : ((countPlanet r l).teams t).plcount = (r.teams t).plcount + if r.owner l = t then 1 else 0 := by
      unfold countPlanet Realm.modifyTeam
      by_cases ht : r.owner l = t
      · simp [ht]
      · simp [ht, Function.update_of_ne (Ne.symm ht)]
    rw [List.foldl_cons, plcount_countPlanet t ls (countPlanet r l), hone, List.countP_cons]
    show _ + ((ls.countP fun l => r.owner l == t : Nat) : Int) = _
    by_cases ht : r.owner l = t
    · simp [ht]
      omega
    · simp [ht]

/-- The loop before it clears the counts of the teams it goes through. -/
theorem plcount_clear (t : Word) : ∀ (ks : List Nat) (r : Realm),
    (r.teams t).plcount = 0 ∨ t ∈ ks.map (BitVec.ofNat 32) →
      ((ks.foldl (fun r k => clearCount r (BitVec.ofNat 32 k)) r).teams t).plcount = 0
  | [], _, h => by simpa using h
  | k :: ks, r, h => by
    refine plcount_clear t ks _ ?_
    unfold clearCount Realm.modifyTeam
    dsimp only
    by_cases ht : t = BitVec.ofNat 32 k
    · subst ht
      exact .inl (by simp)
    · rw [List.map_cons, List.mem_cons] at h
      rw [Function.update_of_ne ht]
      exact h.imp_right fun h => h.resolve_left ht

theorem mem_teams {t : Word} (ht : t ∈ fourTeams) : t ∈ (List.range (maxTeam + 1)).map (BitVec.ofNat 32) := by
  have hfifteen : maxTeam = 15 := by decide
  rw [hfifteen]
  unfold fourTeams at ht
  simp only [List.mem_cons, List.not_mem_nil, or_false] at ht
  rcases ht with rfl | rfl | rfl | rfl
  · exact List.mem_map.2 ⟨1, List.mem_range.2 (by decide), rfl⟩
  · exact List.mem_map.2 ⟨2, List.mem_range.2 (by decide), rfl⟩
  · exact List.mem_map.2 ⟨4, List.mem_range.2 (by decide), rfl⟩
  · exact List.mem_map.2 ⟨8, List.mem_range.2 (by decide), rfl⟩

/-- A team that owns a planet is counted. -/
theorem plcount_recountAll {r : Realm} {t : Word} {l : Fin maxPlanets} (ht : t ∈ fourTeams) (hl : r.owner l = t) :
    0 < ((recountAll r).teams t).plcount := by
  have hserver : ∀ (ks : List Nat) (r : Realm),
      (ks.foldl (fun r k => clearCount r (BitVec.ofNat 32 k)) r).server = r.server := server_foldl fun _ _ => rfl
  have hcount (r' : Realm) (hs : r'.server = r.server) (hz : (r'.teams t).plcount = 0) :
      0 < (((List.finRange maxPlanets).foldl countPlanet r').teams t).plcount := by
    have hl' : r'.owner l = t := by
      unfold Realm.owner at hl ⊢
      rw [hs]
      exact hl
    have hpos : 0 < (List.finRange maxPlanets).countP fun l => r'.owner l == t :=
      List.countP_pos_iff.2 ⟨l, List.mem_finRange l, by simp [hl']⟩
    rw [plcount_countPlanet, hz]
    omega
  exact hcount _ (hserver _ r) (plcount_clear t _ r (.inr (mem_teams ht)))

theorem plcount_startSurrender (c : Campaign) (r : Realm) (loser : Word) :
    ((startSurrender (c.withRealm r) loser).teams loser).plcount = (r.teams loser).plcount := by
  unfold startSurrender
  split
  · dsimp only
    rw [Function.update_self]
    rfl
  · rfl

/-- The players are in the game, or not, and of the teams, as before. -/
structure SameCrews (s s' : Server) : Prop where
  status : ∀ j, (s'.player j).status = (s.player j).status
  team : ∀ j, (s'.player j).team = (s.player j).team

theorem SameCrews.refl (s : Server) : SameCrews s s := ⟨fun _ => rfl, fun _ => rfl⟩

theorem SameCrews.trans {s s' s'' : Server} (h : SameCrews s s') (h' : SameCrews s' s'') : SameCrews s s'' :=
  ⟨fun j => (h'.status j).trans (h.status j), fun j => (h'.team j).trans (h.team j)⟩

theorem SameCrews.modifyPlayer (s : Server) (i : Slot) {f : Player → Player} (hs : ∀ p, (f p).status = p.status)
    (ht : ∀ p, (f p).team = p.team) : SameCrews s (s.modifyPlayer i f) := by
  constructor <;>
    · intro j
      rw [Server.player_modifyPlayer]
      split
      · subst_vars
        first | exact hs _ | exact ht _
      · rfl

theorem SameCrews.teamCount {s s' : Server} (h : SameCrews s s') (t : Word) : teamCount s'.mem t = teamCount s.mem t := by
  unfold Netrek.teamCount
  congr 1
  funext i
  have hs : (s'.mem.players i).status = (s.mem.players i).status := h.status i
  have ht : (s'.mem.players i).team = (s.mem.players i).team := h.team i
  rw [hs, ht]

/-- The message changes nobody. -/
theorem sameCrews_genocideMessage (s : Server) (loser winner : Word) : SameCrews s (genocideMessage s loser winner) := by
  have hdisplay (s : Server) (team : Word) : SameCrews s (displayGenocide s team) := by
    obtain ⟨b, ws, hb, h⟩ := displayBest_spec s.mem.players team .kgenocide
    unfold displayGenocide
    rw [hb]
    refine ⟨fun j => ?_, fun j => ?_⟩
    · show (b.players j).status = (s.mem.players j).status
      rw [h.players_eq]
      dsimp only
      split <;> rfl
    · show (b.players j).team = (s.mem.players j).team
      rw [h.players_eq]
      dsimp only
      split <;> rfl
  exact (hdisplay _ _).trans (hdisplay _ _)

/-- Up to its message a genocide moves no player. -/
theorem sameCrews_toGenocide (c : Campaign) (loser : Word) (winner : Slot) :
    SameCrews c.server (toGenocide c loser winner).1.server := by
  have hs : (startSurrender (c.withRealm (recountAll c.realm)) loser).server = c.server :=
    (server_startSurrender _ _).trans (server_recountAll c.realm)
  have hlast (c : Campaign) : SameCrews c.server (lastPlanet c loser winner).1.server := by
    have hscore : SameCrews c.server (c.server.modifyPlayer winner fun p =>
        { p with genoplanets := p.genoplanets + 1, planets := p.planets + 1 }) :=
      .modifyPlayer c.server winner (fun _ => rfl) fun _ => rfl
    have hcheck := calm_lastPlanet c loser winner
    exact hscore.trans ⟨fun j => by rw [hcheck.player], fun j => by rw [hcheck.player]⟩
  unfold toGenocide
  dsimp only
  split
  · exact .refl _
  split
  · rw [hs]
    exact .refl _
  · rw [← hs]
    exact hlast _

/-- A race that has a planet is not wiped out, and for one of two players at most no troops are raised. -/
theorem raised_eq_zero {c : Campaign} {loser : Word} (winner : Slot) (hl : loser ∈ fourTeams)
    (h : c.server.setup.inlMode = true ∨ (∃ l, (c.planet l).owner = loser) ∨ teamCount c.server.mem loser < 3) :
    raised c loser winner = 0 := by
  have hcrews := sameCrews_toGenocide c loser winner
  by_cases hfew : teamCount c.server.mem loser < 3
  · unfold raised
    generalize toGenocide c loser winner = x at hcrews ⊢
    obtain ⟨c', won⟩ := x
    cases won with
    | false => rfl
    | true =>
      have hcount := ((hcrews.trans (sameCrews_genocideMessage c'.server loser (c'.player winner).team)).teamCount loser).trans_lt
        hfew
      show enlisted (genocideMessage c'.server loser (c'.player winner).team) loser (c'.player winner).team = 0
      unfold enlisted
      dsimp only
      rw [if_pos hcount]
  have h : c.server.setup.inlMode = true ∨ ∃ l, (c.planet l).owner = loser := by tauto
  have hno : (toGenocide c loser winner).2 = false := by
    unfold toGenocide
    split
    · rfl
    rename_i hinl
    obtain ⟨l, hl'⟩ := h.resolve_left hinl
    have hcount := plcount_recountAll (r := c.realm) hl hl'
    rw [← plcount_startSurrender c] at hcount
    generalize startSurrender (c.withRealm (recountAll c.realm)) loser = c' at hcount ⊢
    dsimp only
    rw [if_pos hcount]
  unfold raised
  generalize toGenocide c loser winner = x at hno ⊢
  obtain ⟨c', won⟩ := x
  obtain rfl : won = false := hno
  rfl

/-- A ship of no team that does not stray raises no army on the planet it lands on. -/
theorem raisedOn_eq_zero {c : Campaign} {i : Slot} (hs : Settled c.server) (hl : Lands c i) (hh : hostile c i = true)
    (ht : (c.player i).team = nobody) (hok : ¬ Strays c i) : raisedOn c i = 0 := by
  unfold hostile at hh
  simp only [Bool.and_eq_true, bne_iff_ne, ht] at hh
  have howner : (c.planet (c.player i).planet).owner ∈ fourTeams := by
    have h := hs.lawful.owner (c.player i).planet
    exact (List.mem_cons.1 h).resolve_left (Ne.symm hh.1)
  unfold raisedOn
  dsimp only
  -- troops are raised only when the last planet of a race has fallen
  split
  · rename_i hlast
    have hone : (c.planet (c.player i).planet).armies = 1 := by
      rw [planet_invade, if_pos rfl] at hlast
      unfold gain at hlast
      dsimp only at hlast
      omega
    refine raised_eq_zero i howner ?_
    -- were any raised, the ship of nobody would have ended a race, which is excluded
    by_contra hc
    rw [not_or, not_or, not_exists, not_lt] at hc
    obtain ⟨hnoinl, hnone, hmany⟩ := hc
    have hcrews : SameCrews c.server (destroy (invade c i) i).server := by
      have hplayer (j) : (destroy (invade c i) i).server.player j = _ := (player_destroy _ i j).trans (player_invade c i j)
      constructor <;>
        · intro j
          rw [hplayer]
          split
          · subst_vars
            rfl
          · rfl
    rw [hcrews.teamCount] at hmany
    have hinl : (destroy (invade c i) i).server.setup = c.server.setup := by
      have hinvade : (invade c i).server.setup = c.server.setup := by
        rw [server_invade]
        rfl
      rw [← hinvade]
      unfold destroy
      exact congrArg (·.setup) (server_updatePlanets _ i _)
    refine hok ⟨hl, ht, .inr ⟨hone, ?_, hmany, fun l hne howned => hnone l ?_⟩⟩
    -- the other planets are those of before the fight
    · rw [← hinl]
      exact Bool.eq_false_of_not_eq_true hnoinl
    · obtain ⟨cheap, -, hd⟩ := planet_destroy (invade c i) i
      have hplanet : ((invade c i).player i).planet = (c.player i).planet := by
        rw [player_invade, if_pos rfl]
        rfl
      rw [hd, hplanet, if_neg hne, planet_invade, if_neg hne]
      exact howned
  · rfl

theorem proper_gain {l : Planet} {n : Int} (h : 0 < l.armies) (hn : 0 < l.armies + n) : Proper l (gain n l) :=
  .of_armies rfl rfl (fun _ => hn) fun hz => by omega

/-- A hostile drop, and the troops of the genocide that it may be. -/
theorem tends_hostile {c : Campaign} {i : Slot} (hs : Settled c.server) (hl : Lands c i) (hh : hostile c i = true)
    (hok : ¬ Strays c i) {s' : Server} (hframe : Frame (landed c i).server s') {troops : Fin maxPlanets → Nat}
    (henlists : Enlists (c.player i).team (raisedOn c i) (landed c i).server s' troops) : Tends c.server s' := by
  have harmies : (c.planet (c.player i).planet).armies ≠ 0 := by
    unfold hostile at hh
    simp only [Bool.and_eq_true, bne_iff_ne] at hh
    exact hh.2
  obtain ⟨cheap, hc, hlanded⟩ := planet_landed c i
  -- the landing takes one army, and the planet is nobody's with the last
  have hland : Tends c.server (landed c i).server := by
    intro l
    show Proper (c.planet l) ((landed c i).planet l)
    rw [hlanded]
    split
    · rename_i hlh
      subst hlh
      have hflags : ((c.planet (c.player i).planet).flags ||| cheap) &&& nativeFlags =
          (c.planet (c.player i).planet).flags &&& nativeFlags :=
        and_or_of_disjoint _ (by rcases hc with rfl | rfl <;> decide)
      refine ⟨fun hp _ => ?_, .congr hflags⟩
      have hnonneg := hp.nonneg
      by_cases hone : (c.planet (c.player i).planet).armies = 1
      · refine ⟨?_, ?_⟩
        · show 0 ≤ (c.planet (c.player i).planet).armies - 1
          omega
        · dsimp only
          rw [if_pos hone, hone]
          decide
      · refine .of_pos ?_ ?_
        · show 0 < (c.planet (c.player i).planet).armies - 1
          omega
        · dsimp only
          rw [if_neg hone]
          exact fun hn => harmies (hp.owned.2 hn)
    · exact .refl _
  -- the fight then only enlists troops, for the winners
  refine hland.trans fun l => ⟨fun hp _ => ?_, .congr (by rw [hframe.flags])⟩
  have hgain := henlists.armies l
  by_cases hz : troops l = 0
  · rw [hz, Nat.cast_zero, add_zero] at hgain
    refine ⟨?_, ?_⟩
    · rw [hgain]
      exact hp.nonneg
    · rw [hgain, hframe.owner]
      exact hp.owned
  -- a planet that gained troops is a winner's, and nobody does not enlist
  · have hteam : (c.player i).team ≠ nobody := by
      intro ht
      have htotal := henlists.total
      rw [raisedOn_eq_zero hs hl hh ht hok, Finset.sum_eq_zero_iff] at htotal
      exact hz (htotal l (Finset.mem_univ l))
    have howner := henlists.winners l hz
    have hpos := hp.pos (by rw [howner]; exact hteam)
    refine .of_pos (by rw [hgain]; omega) ?_
    rw [hframe.owner, howner]
    exact hteam

/-- A turn of a ship that does not stray. -/
theorem tends_beamOn {c : Campaign} {i : Slot} (hs : Settled c.server) (hok : ¬ Strays c i) :
    Tends c.server (beamOn c i).1.server := by
  have hturn := turn_beamOn c i
  generalize (beamOn c i).1.server = s' at hturn ⊢
  cases hturn with
  | idle => exact .refl _
  | fromPlanet ho hmay =>
    have hfive := hmay.planet ho
    refine .planet rfl _ (proper_gain ?_ ?_)
    · show 0 < (c.planet (c.player i).planet).armies
      omega
    · show 0 < (c.planet (c.player i).planet).armies + -1
      omega
  | fromBase ho hd ha hmay => exact .of_planets rfl
  | hostile hl hh hframe henlists => exact tends_hostile hs hl hh hok hframe henlists
  | takeOver hl ho he hcalm =>
    have howner : (c.planet (c.player i).planet).owner = nobody := (hs.peopled _).owned.1 he
    have htaken : Proper (c.planet (c.player i).planet) (taken (c.player i).team (c.planet (c.player i).planet)) := by
      refine ⟨fun _ _ => .of_pos ?_ ?_, .congr (and_andNot_of_disjoint _ (by decide))⟩
      · show 0 < (c.planet (c.player i).planet).armies + 1
        omega
      · show (c.player i).team ≠ nobody
        rw [← howner]
        exact ho
    have h : Tends c.server ((c.server.modifyPlayer i conquer).modifyPlanet (c.player i).planet (taken (c.player i).team)) :=
      .planet rfl _ htaken
    exact h.trans (.of_planets hcalm.planets)
  | reinforce hl ho =>
    have hteam : (c.player i).team ≠ nobody := fun hn => hok ⟨hl, hn, .inl (ho ▸ hn)⟩
    have hpos : 0 < (c.planet (c.player i).planet).armies := (hs.peopled _).pos fun hn => hteam (ho.trans hn)
    refine .planet rfl _ (proper_gain hpos ?_)
    show 0 < (c.planet (c.player i).planet).armies + 1
    omega
  | transfer hd ha ho ht => exact .of_planets rfl

/-- No ship that has its turn in the pass strays. -/
def Straight : List Slot → Campaign → Prop
  | [], _ => True
  | i :: is, c => ¬ Strays c i ∧ ((beamOn c i).2 = false → Straight is (beamOn c i).1)

/-- A pass of `plfight` in which no ship strays leaves what is settled. -/
theorem settled_beam {c : Campaign} (hs : Settled c.server) (h : Straight (List.finRange maxPlayer) c) :
    Settled (beam c).1.server := by
  have hloop : ∀ (is : List Slot) (c : Campaign), Settled c.server → Straight is c →
      Settled (beamLoop is c).1.server := by
    intro is
    induction is with
    | nil => exact fun c hs _ => hs
    | cons i is ih =>
      intro c hs h
      have hon : Settled (beamOn c i).1.server := hs.of ((keeps_beamOn i c i).lawful hs.lawful) (tends_beamOn hs h.1)
      have hrest := h.2
      unfold beamLoop
      generalize beamOn c i = x at hon hrest ⊢
      obtain ⟨c', _ | _⟩ := x
      · exact ih c' hon (hrest rfl)
      · exact hon
  exact hloop _ c hs h

/-! ## Populations -/

/-- One planet changes, and has armies if it had any. -/
structure Thrives (l : Fin maxPlanets) (s s' : Server) : Prop where
  other : ∀ k, k ≠ l → s'.planet k = s.planet k
  owner : (s'.planet l).owner = (s.planet l).owner
  flags : (s'.planet l).flags &&& nativeFlags = (s.planet l).flags &&& nativeFlags
  armies : 0 < (s.planet l).armies → 0 < (s'.planet l).armies
  players : s'.mem.players = s.mem.players

variable {l : Fin maxPlanets} {s s' s'' : Server}

theorem Thrives.refl (l : Fin maxPlanets) (s : Server) : Thrives l s s := ⟨fun _ _ => rfl, rfl, rfl, id, rfl⟩

theorem Thrives.trans (h : Thrives l s s') (h' : Thrives l s' s'') : Thrives l s s'' :=
  ⟨fun k hk => (h'.other k hk).trans (h.other k hk), h'.owner.trans h.owner, h'.flags.trans h.flags,
    fun ha => h'.armies (h.armies ha), h'.players.trans h.players⟩

theorem Thrives.modifyPlanet (s : Server) {f : Planet → Planet} (ho : ∀ p, (f p).owner = p.owner)
    (hf : ∀ p, (f p).flags &&& nativeFlags = p.flags &&& nativeFlags)
    (ha : 0 < (s.planet l).armies → 0 < (f (s.planet l)).armies) : Thrives l s (s.modifyPlanet l f) := by
  have hself : (s.modifyPlanet l f).planet l = f (s.planet l) := by
    rw [Server.planet_modifyPlanet, if_pos rfl]
  refine ⟨fun k hk => ?_, ?_, ?_, ?_, rfl⟩
  · rw [Server.planet_modifyPlanet, if_neg hk]
  · rw [hself]
    exact ho _
  · rw [hself]
    exact hf _
  · rw [hself]
    exact ha

theorem thrives_draw (l : Fin maxPlanets) (s : Server) : Thrives l s s.draw.2 := ⟨fun _ _ => rfl, rfl, rfl, id, rfl⟩

theorem thrives_grow (s : Server) {n : Int} (hn : 0 < (s.planet l).armies → 0 < (s.planet l).armies + n) :
    Thrives l s (grow s l n) := .modifyPlanet s (fun _ => rfl) (fun _ => rfl) hn

theorem thrives_redraw (s : Server) : Thrives l s (redraw s l) :=
  .modifyPlanet s (fun _ => rfl) (fun _ => and_or_of_disjoint _ (by decide)) id

theorem thrives_growOne (s : Server) : Thrives l s (growOne s l) := by
  have hgrow : Thrives l s (grow s l 1) := thrives_grow s fun _ => by omega
  unfold growOne
  dsimp only
  split
  · exact hgrow.trans (thrives_redraw _)
  · exact hgrow

/-- The plague leaves some armies, where there are not too many. -/
theorem plague_lt {a r : Int} (ha : 5 < a) (hm : a ≤ 4000) (hr : 0 ≤ r ∧ r < 4500) : (r + a * a).tdiv 4500 < a := by
  have hbound : r + a * a < a * 4500 := by
    by_cases h : a ≤ 8
    · nlinarith
    · nlinarith
  have hnonneg : 0 ≤ r + a * a := by nlinarith [mul_self_nonneg a]
  rw [Int.tdiv_eq_ediv_of_nonneg hnonneg]
  exact Int.ediv_lt_of_lt_mul (by decide) hbound

theorem thrives_plague (hm : (s.planet l).armies ≤ 4000) : Thrives l s (plague s l) := by
  unfold plague
  dsimp only [Server.draw]
  split
  · rename_i hfive
    refine (thrives_draw l s).trans (thrives_grow _ fun _ => ?_)
    have h := plague_lt hfive hm (r := (s.random 0 % 4500 : Nat)) (by omega)
    show 0 < (s.planet l).armies + -_
    omega
  · exact .refl l s

/-- Small populations grow. -/
theorem thrives_growSmall (s : Server) : Thrives l s (growSmall s l) := by
  have hdraw := thrives_draw l s
  unfold growSmall
  generalize s.draw = x at hdraw ⊢
  obtain ⟨r, s₁⟩ := x
  dsimp only at hdraw ⊢
  split
  · have hgrow : Thrives l s₁ (if r % 20 = 0 then grow s₁ l 1 else s₁) := by
      split
      · exact thrives_grow _ fun _ => by omega
      · exact .refl l _
    generalize (if r % 20 = 0 then grow s₁ l 1 else s₁) = s₂ at hgrow ⊢
    split
    · exact (hdraw.trans hgrow).trans (thrives_growOne _)
    · exact hdraw.trans hgrow
  · exact .refl l s

/-- Others grow by chance. -/
theorem thrives_growExtra (s : Server) : Thrives l s (growExtra s l) := by
  have hdraw := thrives_draw l s
  unfold growExtra
  generalize s.draw = x at hdraw ⊢
  obtain ⟨r, s₁⟩ := x
  dsimp only at hdraw ⊢
  split
  · have hredraw : Thrives l s₁ (if (s₁.planet l).armies < 5 then redraw s₁ l else s₁) := by
      split
      · exact thrives_redraw _
      · exact .refl l _
    generalize (if (s₁.planet l).armies < 5 then redraw s₁ l else s₁) = s₂ at hredraw ⊢
    refine ((hdraw.trans hredraw).trans (thrives_draw l s₂)).trans (thrives_grow _ fun _ => ?_)
    omega
  · exact hdraw

theorem thrives_growAgri (s : Server) : Thrives l s (growAgri s l) := by
  unfold growAgri
  split
  · dsimp only
    split
    · exact (thrives_draw l s).trans (thrives_growOne _)
    · exact thrives_draw l s
  · exact .refl l s

/-- `PopPlanet` leaves planets without armies alone. -/
theorem thrives_popAt (g : Populace) (hm : (g.server.planet l).armies ≤ 4000) :
    popAt g l = g.server ∨ (g.server.planet l).armies ≠ 0 ∧ Thrives l g.server (popAt g l) := by
  unfold popAt
  dsimp only
  split
  · exact .inl rfl
  rename_i hz
  split
  · exact .inl rfl
  refine .inr ⟨hz, ?_⟩
  have hplague : Thrives l g.server (if g.planetPlague then plague g.server l else g.server) := by
    split
    · exact thrives_plague hm
    · exact .refl l _
  exact ((hplague.trans (thrives_growSmall _)).trans (thrives_growExtra _)).trans (thrives_growAgri _)

end Netrek.Planets
