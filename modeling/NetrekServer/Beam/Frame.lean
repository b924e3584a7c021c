/-
What a turn of a ship in `beam` does to players and planets. The checks for a genocide and for a conquest
leave everything but the scores, the deaths, and the armies that enlist with the winners.
-/
import Mathlib.Algebra.BigOperators.Fin
import NetrekServer.Beam.Basic

namespace Netrek.Beam

open Daemon Empire Stats

/-! ## Players and planets that are kept -/

/-- The player is as before, but for scores, and for being killed. -/
structure Kept (p p' : Player) : Prop where
  armies : p'.armies = p.armies
  kills : p'.kills = p.kills
  ship : p'.ship = p.ship
  flags : p'.flags = p.flags
  planet : p'.planet = p.planet
  dockWith : p'.dockWith = p.dockWith
  team : p'.team = p.team
  hostile : p'.hostile = p.hostile
  swar : p'.swar = p.swar
  war : p'.war = p.war
  status : p'.status = p.status ∨ p'.status = .pexplode

theorem Kept.refl (p : Player) : Kept p p := ⟨rfl, rfl, rfl, rfl, rfl, rfl, rfl, rfl, rfl, rfl, .inl rfl⟩

/-- What is kept twice is kept. -/
theorem Kept.trans {p p' p'' : Player} (h : Kept p p') (h' : Kept p' p'') : Kept p p'' where
  armies := h'.armies.trans h.armies
  kills := h'.kills.trans h.kills
  ship := h'.ship.trans h.ship
  flags := h'.flags.trans h.flags
  planet := h'.planet.trans h.planet
  dockWith := h'.dockWith.trans h.dockWith
  team := h'.team.trans h.team
  hostile := h'.hostile.trans h.hostile
  swar := h'.swar.trans h.swar
  war := h'.war.trans h.war
  status := by
    rcases h'.status with hs | hs
    · rw [hs]
      exact h.status
    · exact .inr hs

/-- The players are kept, and the planets are the same but for their armies. -/
structure Frame (s s' : Server) : Prop where
  players : ∀ j, Kept (s.player j) (s'.player j)
  owner : ∀ l, (s'.planet l).owner = (s.planet l).owner
  flags : ∀ l, (s'.planet l).flags = (s.planet l).flags

theorem Frame.refl (s : Server) : Frame s s := ⟨fun _ => .refl _, fun _ => rfl, fun _ => rfl⟩

theorem Frame.trans {s s' s'' : Server} (h : Frame s s') (h' : Frame s' s'') : Frame s s'' :=
  ⟨fun j => (h.players j).trans (h'.players j), fun l => (h'.owner l).trans (h.owner l),
    fun l => (h'.flags l).trans (h.flags l)⟩

theorem Frame.foldl {α : Type} {f : Server → α → Server} (hf : ∀ s a, Frame s (f s a)) : ∀ (as : List α) (s : Server),
    Frame s (as.foldl f s)
  | [], s => .refl s
  | a :: as, s => (hf s a).trans (Frame.foldl hf as _)

/-- A change of one player that keeps it. -/
theorem Frame.modifyPlayer (s : Server) (i : Slot) {f : Player → Player} (hf : ∀ p, Kept p (f p)) :
    Frame s (s.modifyPlayer i f) := by
  refine ⟨fun j => ?_, fun _ => rfl, fun _ => rfl⟩
  rw [Server.player_modifyPlayer]
  split
  · subst_vars
    exact hf _
  · exact .refl _

/-! ## Genocide -/

theorem frame_displayGenocide (s : Server) (team : Word) : Frame s (displayGenocide s team) := by
  obtain ⟨b, ws, hb, h⟩ := displayBest_spec s.mem.players team .kgenocide
  unfold displayGenocide
  rw [hb]
  refine ⟨fun j => ?_, fun _ => rfl, fun _ => rfl⟩
  show Kept (s.mem.players j) (b.players j)
  rw [h.players_eq]
  dsimp only
  split
  · exact ⟨rfl, rfl, rfl, rfl, rfl, rfl, rfl, rfl, rfl, rfl, .inl rfl⟩
  · exact .refl _

theorem frame_genocideMessage (s : Server) (loser winner : Word) : Frame s (genocideMessage s loser winner) :=
  (frame_displayGenocide s winner).trans (frame_displayGenocide _ loser)

theorem frame_recruit (n : Nat) (winner : Word) (s : Server) (l : Fin maxPlanets) : Frame s (recruit n winner s l) := by
  unfold recruit
  split
  · refine ⟨fun _ => .refl _, fun k => ?_, fun k => ?_⟩ <;>
      · simp only [Server.draw, Server.planet_modifyPlanet]
        split
        · subst_vars; rfl
        · rfl
  · exact .refl s

theorem frame_addTroops (s : Server) (loser winner : Word) : Frame s (addTroops s loser winner) := by
  unfold addTroops
  dsimp only
  have hboost (s : Server) (n : Nat) := Frame.foldl (frame_recruit n winner) (List.finRange maxPlanets) s
  have hdraw (s : Server) : Frame s s.draw.2 := ⟨fun _ => .refl _, fun _ => rfl, fun _ => rfl⟩
  split
  · exact .refl s
  split
  · split
    · exact hdraw s
    · exact (hdraw s).trans (hboost _ _)
  · exact hboost s _

/-- The troops for some planets, each at most `n`. -/
def enlist (n : Nat) (winner : Word) : List (Fin maxPlanets) → Server → Nat
  | [], _ => 0
  | l :: ls, s => (if (s.planet l).owner = winner then s.random 0 % n else 0) + enlist n winner ls (recruit n winner s l)

/-- The troops that `addTroops` gives to the winners. -/
def enlisted (s : Server) (loser winner : Word) : Nat :=
  let count := teamCount s.mem loser
  if count < 3 then 0
  else if count < 6 then
    if s.draw.1 % count = 0 then 0 else enlist (2 * count) winner (List.finRange maxPlanets) s.draw.2
  else enlist (2 * count) winner (List.finRange maxPlanets) s

/-- The planets have more armies by these troops, which are all on planets of the winners. -/
structure Enlists (winner : Word) (n : Nat) (s s' : Server) (troops : Fin maxPlanets → Nat) : Prop where
  armies : ∀ l, (s'.planet l).armies = (s.planet l).armies + troops l
  winners : ∀ l, troops l ≠ 0 → (s.planet l).owner = winner
  total : ∑ l, troops l = n

theorem Enlists.none {winner : Word} {s s' : Server} (h : s'.mem.planets = s.mem.planets) :
    Enlists winner 0 s s' fun _ => 0 := by
  refine ⟨fun l => ?_, fun _ hl => absurd rfl hl, Finset.sum_const_zero⟩
  show (s'.mem.planets l).armies = (s.mem.planets l).armies + _
  simp [h]

/-- The planets before and after may be those of other servers. -/
theorem Enlists.congr {winner : Word} {n : Nat} {s s' t t' : Server} {troops : Fin maxPlanets → Nat}
    (h : Enlists winner n s s' troops) (hs : t.mem.planets = s.mem.planets) (hs' : t'.mem.planets = s'.mem.planets) :
    Enlists winner n t t' troops := by
  have hl (l) : t.planet l = s.planet l := congrFun hs l
  have hl' (l) : t'.planet l = s'.planet l := congrFun hs' l
  refine ⟨fun l => ?_, fun l hne => ?_, h.total⟩
  · rw [hl, hl', h.armies]
  · rw [hl, h.winners l hne]

theorem Enlists.trans {winner : Word} {n m : Nat} {s s' s'' : Server} {troops troops' : Fin maxPlanets → Nat}
    (h : Enlists winner n s s' troops) (hf : Frame s s') (h' : Enlists winner m s' s'' troops') :
    Enlists winner (n + m) s s'' fun l => troops l + troops' l := by
  refine ⟨fun l => ?_, fun l hl => ?_, ?_⟩
  · rw [h'.armies, h.armies]
    push_cast
    omega
  · by_cases ht : troops l = 0
    · rw [← hf.owner]
      exact h'.winners l (by omega)
    · exact h.winners l ht
  · rw [Finset.sum_add_distrib, h.total, h'.total]

/-- One planet gets its troops. -/
theorem enlists_recruit (n : Nat) (winner : Word) (s : Server) (l : Fin maxPlanets) :
    Enlists winner (if (s.planet l).owner = winner then s.random 0 % n else 0) s (recruit n winner s l)
      fun k => if k = l ∧ (s.planet l).owner = winner then s.random 0 % n else 0 := by
  unfold recruit
  by_cases hw : (s.planet l).owner = winner
  · simp only [hw, if_true, and_true]
    refine ⟨fun k => ?_, fun k hk => ?_, by simp⟩
    · simp only [Server.draw, Server.planet_modifyPlanet]
      by_cases hk : k = l
      · simp only [hk, if_true]
        rfl
      · simp only [hk, if_false]
        show (s.planet k).armies = (s.planet k).armies + ((0 : Nat) : Int)
        omega
    · by_cases hkl : k = l
      · rw [hkl, hw]
      · simp [hkl] at hk
  · simp only [hw, if_false, and_false]
    exact .none rfl

theorem enlists_foldl (n : Nat) (winner : Word) : ∀ (ls : List (Fin maxPlanets)) (s : Server),
    ∃ troops, Enlists winner (enlist n winner ls s) s (ls.foldl (recruit n winner) s) troops
  | [], s => ⟨_, .none rfl⟩
  | l :: ls, s => by
    obtain ⟨troops, h⟩ := enlists_foldl n winner ls (recruit n winner s l)
    exact ⟨_, (enlists_recruit n winner s l).trans (frame_recruit n winner s l) h⟩

/-- Troops are raised twice over the planets. -/
theorem enlists_addTroops (s : Server) (loser winner : Word) :
    ∃ troops, Enlists winner (enlisted s loser winner) s (addTroops s loser winner) troops := by
  unfold addTroops enlisted
  dsimp only
  have hboost (s : Server) (n : Nat) := enlists_foldl n winner (List.finRange maxPlanets) s
  generalize List.finRange maxPlanets = ls at hboost ⊢
  split
  · exact ⟨_, .none rfl⟩
  split
  · split
    · exact ⟨_, .none rfl⟩
    · obtain ⟨troops, h⟩ := hboost s.draw.2 (2 * teamCount s.mem loser)
      exact ⟨troops, h.congr rfl rfl⟩
  · exact hboost s _

theorem frame_kickOut (loser : Word) (winner : Slot) (s : Server) (j : Slot) : Frame s (kickOut loser winner s j) := by
  have hscore (s : Server) := Frame.modifyPlayer s j
    (f := fun p => { p with genoplanets := 0, genoarmsbomb := 0, armsbomb := 0, planets := 0 })
    fun _ => ⟨rfl, rfl, rfl, rfl, rfl, rfl, rfl, rfl, rfl, rfl, .inl rfl⟩
  have hkill (s : Server) : Frame s (pExplosion s j .kgenocide winner) := Frame.modifyPlayer s j
    fun _ => ⟨rfl, rfl, rfl, rfl, rfl, rfl, rfl, rfl, rfl, rfl, .inr rfl⟩
  unfold kickOut
  dsimp only
  split
  · split
    · exact (hscore s).trans (hkill _)
    · exact hscore s
  · exact .refl s

theorem planets_kickOut (loser : Word) (winner : Slot) : ∀ (js : List Slot) (s : Server),
    (js.foldl (kickOut loser winner) s).mem.planets = s.mem.planets
  | [], _ => rfl
  | j :: js, s => by
    refine (planets_kickOut loser winner js _).trans ?_
    unfold kickOut
    dsimp only
    split
    · split <;> rfl
    · rfl

/-! ## Conquest -/

/-- Nothing but the game changes. -/
structure Calm (s s' : Server) : Prop where
  players : s'.mem.players = s.mem.players
  planets : s'.mem.planets = s.mem.planets

theorem Calm.refl (s : Server) : Calm s s := ⟨rfl, rfl⟩

theorem Calm.trans {s s' s'' : Server} (h : Calm s s') (h' : Calm s' s'') : Calm s s'' :=
  ⟨h'.players.trans h.players, h'.planets.trans h.planets⟩

theorem Calm.player {s s' : Server} (h : Calm s s') (j : Slot) : s'.player j = s.player j := congrFun h.players j

theorem Calm.planet {s s' : Server} (h : Calm s s') (l : Fin maxPlanets) : s'.planet l = s.planet l :=
  congrFun h.planets l

theorem Calm.frame {s s' : Server} (h : Calm s s') : Frame s s' :=
  ⟨fun j => by rw [h.player]; exact .refl _, fun l => by rw [h.planet], fun l => by rw [h.planet]⟩

theorem server_foldl {α : Type} {f : Realm → α → Realm} (hf : ∀ r a, (f r a).server = r.server) : ∀ (as : List α) (r : Realm),
    (as.foldl f r).server = r.server
  | [], _ => rfl
  | a :: as, r => (server_foldl hf as (f r a)).trans (hf r a)

theorem server_recount (r : Realm) : (recount r).server = r.server := by
  have hplanet (i : Fin 4) (r : Realm) (h : Fin 10) : (countPlanet r (systemPlanet i h)).server = r.server := rfl
  have hsystem (r : Realm) (i : Fin 4) : (countSystem r i).server = r.server := server_foldl (hplanet i) _ r
  have hclear (r : Realm) (t : Word) : (clearCount r t).server = r.server := rfl
  unfold recount
  rw [server_foldl hsystem, server_foldl hclear]

theorem server_recountAll (r : Realm) : (recountAll r).server = r.server := by
  have hplanet (r : Realm) (l : Fin maxPlanets) : (countPlanet r l).server = r.server := rfl
  have hclear (r : Realm) (t : Nat) : (clearCount r (BitVec.ofNat 32 t)).server = r.server := rfl
  unfold recountAll
  rw [server_foldl hplanet, server_foldl hclear]

theorem server_endSurrender (r : Realm) (winner : Slot) : (endSurrender r winner).server = r.server := by
  unfold endSurrender
  dsimp only
  split <;> rfl

theorem calm_checkPret (r : Realm) (winner : Slot) : Calm r.server (checkPret r winner).server := by
  unfold checkPret
  dsimp only
  split
  · split
    · exact ⟨rfl, rfl⟩
    · exact .refl _
  · exact .refl _

theorem calm_checkwin (r : Realm) (winner : Slot) : Calm r.server (checkwin r winner).1.server := by
  have hs : (endSurrender (recount r) winner).server = r.server :=
    (server_endSurrender _ _).trans (server_recount r)
  unfold checkwin
  dsimp only
  split
  · exact .refl _
  split
  · dsimp only
    rw [hs]
    exact ⟨rfl, rfl⟩
  · rw [← hs]
    exact calm_checkPret _ _

/-! ## `checkgen` -/

theorem server_startSurrender (c : Campaign) (loser : Word) : (startSurrender c loser).server = c.server := by
  unfold startSurrender
  split <;> rfl

/-- The winner is credited, and the check for a conquest is left. -/
theorem calm_lastPlanet (c : Campaign) (loser : Word) (winner : Slot) :
    Calm (c.server.modifyPlayer winner fun p => { p with genoplanets := p.genoplanets + 1, planets := p.planets + 1 })
      (lastPlanet c loser winner).1.server := by
  unfold lastPlanet
  exact calm_checkwin (Campaign.realm (Campaign.modifyPlayer
    { c with teams := Function.update c.teams loser { c.teams loser with surrender := 0, surrenderFrame := c.frame } }
    winner fun p => { p with genoplanets := p.genoplanets + 1, planets := p.planets + 1 })) winner

theorem frame_lastPlanet (c : Campaign) (loser : Word) (winner : Slot) :
    Frame c.server (lastPlanet c loser winner).1.server ∧
      (lastPlanet c loser winner).1.server.mem.planets = c.server.mem.planets := by
  have hscore := Frame.modifyPlayer c.server winner
    (f := fun p => { p with genoplanets := p.genoplanets + 1, planets := p.planets + 1 })
    fun _ => ⟨rfl, rfl, rfl, rfl, rfl, rfl, rfl, rfl, rfl, rfl, .inl rfl⟩
  have hcheck := calm_lastPlanet c loser winner
  exact ⟨hscore.trans hcheck.frame, hcheck.planets⟩

/-- Up to its message a genocide leaves the planets. -/
theorem frame_toGenocide (c : Campaign) (loser : Word) (winner : Slot) :
    Frame c.server (toGenocide c loser winner).1.server ∧
      (toGenocide c loser winner).1.server.mem.planets = c.server.mem.planets := by
  have hs : (startSurrender (c.withRealm (recountAll c.realm)) loser).server = c.server :=
    (server_startSurrender _ _).trans (server_recountAll c.realm)
  unfold toGenocide
  dsimp only
  split
  · exact ⟨.refl _, rfl⟩
  split
  · rw [hs]
    exact ⟨.refl _, rfl⟩
  · rw [← hs]
    exact frame_lastPlanet _ _ _

theorem calm_hose (c : Campaign) (loser : Word) : Calm c.server (hose c loser).server := by
  unfold hose
  dsimp only
  split <;> exact ⟨rfl, rfl⟩

theorem frame_genocide (c : Campaign) (loser : Word) (winner : Slot) : Frame c.server (genocide c loser winner).server := by
  have hmessage := frame_genocideMessage c.server loser (c.player winner).team
  have htroops := hmessage.trans (frame_addTroops _ loser (c.player winner).team)
  unfold genocide
  refine Frame.trans ?_ (calm_hose _ loser).frame
  have hkick := Frame.foldl (frame_kickOut loser winner) (List.finRange maxPlayer)
  generalize List.finRange maxPlayer = js at hkick ⊢
  exact htroops.trans (hkick _)

/-- The troops of the genocide that `checkgen` may find. -/
def raised (c : Campaign) (loser : Word) (winner : Slot) : Nat :=
  match toGenocide c loser winner with
  | (_, false) => 0
  | (c, true) =>
    let team := (c.player winner).team
    enlisted (genocideMessage c.server loser team) loser team

theorem planets_genocideMessage (s : Server) (loser winner : Word) :
    (genocideMessage s loser winner).mem.planets = s.mem.planets := by
  have hdisplay (s : Server) (team : Word) : (displayGenocide s team).mem.planets = s.mem.planets := by
    unfold displayGenocide
    split <;> rfl
  exact (hdisplay _ _).trans (hdisplay _ _)

theorem enlists_genocide (c : Campaign) (loser : Word) (winner : Slot) :
    ∃ troops, Enlists (c.player winner).team
      (enlisted (genocideMessage c.server loser (c.player winner).team) loser (c.player winner).team) c.server
      (genocide c loser winner).server troops := by
  obtain ⟨troops, h⟩ := enlists_addTroops (genocideMessage c.server loser (c.player winner).team) loser (c.player winner).team
  refine ⟨troops, h.congr (planets_genocideMessage _ _ _).symm ?_⟩
  unfold genocide
  rw [(calm_hose _ loser).planets]
  have hkick := planets_kickOut loser winner (List.finRange maxPlayer)
  generalize List.finRange maxPlayer = js at hkick ⊢
  exact hkick _

/-- `checkgen` keeps the players and the planets, but for scores, deaths and armies. -/
theorem frame_checkgen (c : Campaign) (loser : Word) (winner : Slot) : Frame c.server (checkgen c loser winner).server := by
  have h := (frame_toGenocide c loser winner).1
  unfold checkgen
  split
  · rename_i heq
    rw [heq] at h
    exact h
  · rename_i heq
    rw [heq] at h
    exact h.trans (frame_genocide _ _ _)

theorem enlists_checkgen (c : Campaign) (loser : Word) (winner : Slot) :
    ∃ troops, Enlists (c.player winner).team (raised c loser winner) c.server (checkgen c loser winner).server troops := by
  obtain ⟨hf, hp⟩ := frame_toGenocide c loser winner
  unfold checkgen raised
  generalize toGenocide c loser winner = x at hf hp ⊢
  obtain ⟨c', _ | _⟩ := x
  · exact ⟨_, .none hp⟩
  · obtain ⟨troops, h⟩ := enlists_genocide c' loser winner
    have hteam : (c'.player winner).team = (c.player winner).team := (hf.players winner).team
    rw [← hteam]
    exact ⟨troops, h.congr hp.symm rfl⟩

end Netrek.Beam
