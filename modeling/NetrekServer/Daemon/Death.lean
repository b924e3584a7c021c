/-
Deaths in the damage routines: torps, phasers and exploding ships account for every death. Planets
are the exception, since `pldamageplayer` does not look at `p_status` between two planets.
-/
import NetrekServer.Daemon.Accounted
import NetrekServer.Lib.Run

namespace Netrek.Daemon

open Lib

/-! ## Torps, phasers and exploding ships -/

theorem accounted_killmess (s : Server) (victim killer : Slot) (why : WhyDead) :
    Accounted s (killmess s victim killer why) := by
  unfold killmess
  exact (Accounted.record s _ fun _ => id).trans (.ite fun hd => .heal killer hd)

theorem accounted_startWar (s : Server) (owner victim : Slot) : Accounted s (startWar s owner victim) :=
  .ite fun _ => .modifyPlayer ⟨rfl, rfl, rfl, rfl⟩

theorem startWar_status (s : Server) (owner victim i : Slot) :
    ((startWar s owner victim).player i).status = (s.player i).status := by
  unfold startWar
  simp only
  split
  · rw [Server.player_modifyPlayer]
    split
    · subst i; rfl
    · rfl
  · rfl

/-- A living ship is hurt, and dies by what `kill` does if it is destroyed. -/
theorem accounted_hit {s : Server} {j : Slot} {d : Int} (kill : Server → Server) (hj : (s.player j).status = .palive)
    (hkill : ∀ s, (s.player j).status = .palive → Accounted s (kill s)) :
    Accounted s (if destroyed ((s.modifyPlayer j fun p => inflict p d).player j) then
      kill (s.modifyPlayer j fun p => inflict p d) else s.modifyPlayer j fun p => inflict p d) := by
  have hstatus := inflict_status (s.player j) d
  refine (Accounted.inflict hj ⟨hstatus.1.trans hj, hstatus.2⟩).trans (.ite fun _ => hkill _ ?_)
  rw [Server.player_modifyPlayer, if_pos rfl]
  exact hstatus.1.trans hj

theorem story_death (s : Server) (j : Slot) (credit : Option Slot) :
    story j (s.record (.death j credit)).log = .death j credit :: story j s.log :=
  List.filter_cons_of_pos (by rw [decide_eq_true_iff]; rfl)

theorem story_death_ne {i j : Slot} (h : i ≠ j) (s : Server) (credit : Option Slot) :
    story i (s.record (.death j credit)).log = story i s.log :=
  List.filter_cons_of_neg (by rw [decide_eq_true_iff]; exact Ne.symm h)

theorem story_kill (s : Server) (j credit actual : Slot) :
    story j (s.record (.kill credit actual j)).log = .kill credit actual j :: story j s.log :=
  List.filter_cons_of_pos (by rw [decide_eq_true_iff]; rfl)

theorem story_kill_ne {i j : Slot} (h : i ≠ j) (s : Server) (credit actual : Slot) :
    story i (s.record (.kill credit actual j)).log = story i s.log :=
  List.filter_cons_of_neg (by rw [decide_eq_true_iff]; exact Ne.symm h)

/-- A kill by a ship: `s1` is the state after the explosion and the credit. -/
theorem accounted_kill {s s1 : Server} {j k actual : Slot} {why : WhyDead} {who : Nat}
    (hj : (s.player j).status = .palive) (hsame : ∀ i, Same ((pExplosion s j why who).player i) (s1.player i))
    (hsetup : s1.setup = s.setup) (hstatus : s1.mem.status = s.mem.status) (hstory : ∀ i, story i s1.log = story i s.log) :
    Accounted s (((countKill s1).record (.kill k actual j)).record (.death j (some k))) := by
  obtain ⟨hplayer, hlog, hset⟩ := countTourn_frame s1 fun t => { t with kills := t.kills + 1, losses := t.losses + 1 }
  replace hlog : ∀ i, story i (countKill s1).log = story i s.log := fun i => by rw [← hstory i]; exact congrArg _ hlog
  refine @Accounted.of_death _ _ j why who (some k) [.kill k actual j] hj (fun i => ?_) ?_ ?_ ?_ ?_ (fun i hi => ?_)
    (Nat.le_refl _) ?_
  · have h := hsame i
    rwa [← hplayer i] at h
  · exact hset.trans hsetup
  · rw [← hstatus]; exact tourn_countTourn s1 rfl
  · rw [← hstatus]; exact losses_countTourn s1 rfl
  · rw [story_death, story_kill, hlog]; rfl
  · rw [story_death_ne hi, story_kill_ne hi, hlog]
  · intro e he
    rw [List.mem_singleton] at he
    exact ⟨k, actual, he⟩

theorem accounted_tKill {s : Server} {t : Torp} {j : Slot} (hj : (s.player j).status = .palive) :
    Accounted s (tKill s t j) := by
  unfold tKill
  refine Accounted.trans ?_ (accounted_killmess _ _ _ _)
  split
  · exact accounted_kill hj (same_killerCredit _ _ _) rfl rfl fun _ => rfl
  · exact accounted_kill hj (fun _ => .refl _) rfl rfl fun _ => rfl

/-- A death by a torp. -/
theorem accounted_tExplosionOn (k : Nat) (s : Server) (j : Slot) : Accounted s (tExplosionOn k s j) := by
  unfold tExplosionOn
  simp only
  split
  · exact .refl s
  rename_i hj
  rw [not_not] at hj
  split
  · exact .refl s
  split
  · exact .refl s
  rename_i damage hd
  split
  · exact .refl s
  · refine (Accounted.record_hurt (some k) hj).trans ?_
    refine (Accounted.record _ (.torpDamage (s.torp k).type (s.torp k).owner j damage) fun _ => id).trans ?_
    refine (accounted_startWar _ (s.torp k).owner j).trans ?_
    exact accounted_hit (fun s' => tKill s' (s.torp k) j) (by rw [startWar_status]; exact hj) fun _ h => accounted_tKill h

theorem accounted_tExplosion (s : Server) (k : Nat) : Accounted s (tExplosion s k) :=
  ((Accounted.record s (.exploded k) fun _ => id).trans (.foldl (accounted_tExplosionOn k) _ _)).trans (.modifyTorp _ _ _)

theorem accounted_phaserKill {s : Server} {i victim : Slot} (hj : (s.player victim).status = .palive) :
    Accounted s (phaserKill s i victim) :=
  (accounted_kill hj (same_killerCredit _ _ _) rfl rfl fun _ => rfl).trans (accounted_killmess _ _ _ _)

theorem accounted_phaserStrike (s : Server) (i : Slot) : Accounted s (phaserStrike s i) := by
  unfold phaserStrike
  refine (accounted_startWar s i (s.mem.phasers i).target).trans ?_
  simp only
  split
  · exact .refl _
  rename_i hj
  rw [not_not] at hj
  refine (Accounted.record_hurt none hj).trans ?_
  exact accounted_hit (fun s' => phaserKill s' i (s.mem.phasers i).target) hj fun _ h => accounted_phaserKill h

theorem accounted_udphaserOf (s : Server) (i : Slot) : Accounted s (udphaserOf s i) := by
  unfold udphaserOf
  simp only
  split
  · exact .refl s
  · exact .modifyPhaser _ _ _
  · exact .modifyPhaser _ _ _
  · refine (Accounted.modifyPhaser s i fun q => { q with fuse := q.fuse - 1 }).trans ?_
    split
    · exact .refl _
    · exact (Accounted.ite fun _ => accounted_phaserStrike _ i).trans (.ite fun _ => .modifyPhaser _ _ _)

theorem accounted_udphaser (s : Server) : Accounted s (udphaser s) := .foldl accounted_udphaserOf _ s

theorem accounted_blowupKill {s : Server} {sh j : Slot} (hj : (s.player j).status = .palive) :
    Accounted s (blowupKill s sh j) := by
  unfold blowupKill
  refine Accounted.trans ?_ (accounted_killmess _ _ _ _)
  generalize (if blowupKiller s sh j ≠ sh then WhyDead.kship2 else .kship) = why
  split
  · exact accounted_kill hj (same_killerCredit _ _ _) rfl rfl
      fun i => List.filter_cons_of_neg (by rw [decide_eq_true_iff]; exact id)
  · exact accounted_kill hj (fun _ => .refl _) rfl rfl fun _ => rfl

/-- A death by an exploding ship. -/
theorem accounted_blowupOn (sh : Slot) (s : Server) (j : Slot) : Accounted s (blowupOn sh s j) := by
  unfold blowupOn
  simp only
  split
  · exact .refl s
  rename_i hj
  rw [not_not] at hj
  split
  · exact .refl s
  split
  · exact .refl s
  split
  · exact .refl s
  split
  · exact .refl s
  · refine (Accounted.record_hurt none hj).trans ?_
    exact accounted_hit (fun s' => blowupKill s' sh j) hj fun _ h => accounted_blowupKill h

theorem accounted_blowup (s : Server) (sh : Slot) : Accounted s (blowup s sh) := .foldl (accounted_blowupOn sh) _ s

/-! ## Planets -/

/-- What the planets of a list fire at the ship `j`, in order. -/
def shots (s : Server) (j : Slot) : List (Fin maxPlanets) → List Int
  | [] => []
  | l :: ls =>
    if planetFires (s.planet l) (s.player j) then planetDamage (s.planet l) :: shots s j ls else shots s j ls

/-- The ship is not destroyed by any shot but the last. -/
def Outlasts (p : Player) : List Int → Prop
  | [] => True
  | d :: ds => (ds ≠ [] → destroyed (inflict p d) = false) ∧ Outlasts (inflict p d) ds

/-- The planets and the place of the ship are as far as shots go the same. -/
theorem shots_congr {s s' : Server} {j : Slot}
    (hplanet : ∀ l, planetFires (s'.planet l) (s'.player j) = planetFires (s.planet l) (s.player j) ∧
      planetDamage (s'.planet l) = planetDamage (s.planet l)) :
    ∀ ls, shots s' j ls = shots s j ls
  | [] => rfl
  | l :: ls => by
    unfold shots
    rw [(hplanet l).1, (hplanet l).2, shots_congr hplanet ls]

/-- Where the ship is and whom it is at war with do not change as it is damaged. -/
theorem planetFires_inflict (l : Planet) (p : Player) (d : Int) : planetFires l (inflict p d) = planetFires l p := by
  unfold inflict
  split
  · split <;> rfl
  · rfl

/-- A death by a planet. -/
theorem accounted_planetKill {s : Server} {j : Slot} {l : Fin maxPlanets} (hj : (s.player j).status = .palive) :
    Accounted s (planetKill s j l) := by
  unfold planetKill
  simp only
  generalize hs : Server.record (pExplosion s j .kplanet l) _ = s1
  obtain ⟨hplayer, hlog, hset⟩ := countTourn_frame s1 fun t => { t with losses := t.losses + 1 }
  have h1 : s1.mem.status = s.mem.status ∧ s1.setup = s.setup ∧ (∀ i, story i s1.log = story i s.log) ∧
      ∀ i, s1.player i = (pExplosion s j .kplanet l).player i := by rw [← hs]; exact ⟨rfl, rfl, fun _ => rfl, fun _ => rfl⟩
  replace hlog : ∀ i, story i (countLoss s1).log = story i s.log := fun i => by rw [← h1.2.2.1 i]; exact congrArg _ hlog
  refine @Accounted.of_death _ _ j .kplanet l none [] hj (fun i => ?_) (hset.trans h1.2.1) ?_ ?_ ?_ (fun i hi => ?_)
    (Nat.zero_le _) nofun
  · rw [← h1.2.2.2 i, Server.player_record]
    unfold countLoss
    rw [hplayer]
    exact .refl _
  · rw [← h1.1]; exact tourn_countTourn s1 rfl
  · rw [← h1.1]; exact losses_countTourn s1 rfl
  · rw [story_death, hlog]; rfl
  · rw [story_death_ne hi, hlog]

/-- As far as the shots at `j` go, the planets and the ship are the same. -/
def SameShots (j : Slot) (s s' : Server) : Prop :=
  ∀ l, planetFires (s'.planet l) (s'.player j) = planetFires (s.planet l) (s.player j) ∧
    planetDamage (s'.planet l) = planetDamage (s.planet l)

theorem SameShots.trans {j : Slot} {s s' s'' : Server} (h : SameShots j s s') (h' : SameShots j s' s'') :
    SameShots j s s'' := fun l => ⟨(h' l).1.trans (h l).1, (h' l).2.trans (h l).2⟩

theorem sameShots_redraw (j : Slot) (s : Server) (l : Fin maxPlanets) (f : Word → Word) :
    SameShots j s (s.modifyPlanet l fun q => { q with flags := f q.flags }) := by
  intro i
  rw [Server.planet_modifyPlanet, Server.player_modifyPlanet]
  split
  · subst i; exact ⟨rfl, rfl⟩
  · exact ⟨rfl, rfl⟩

theorem sameShots_inflict (j : Slot) (s : Server) (d : Int) : SameShots j s (s.modifyPlayer j fun p => inflict p d) := by
  intro l
  rw [Server.planet_modifyPlayer, Server.player_modifyPlayer, if_pos rfl, planetFires_inflict]
  exact ⟨rfl, rfl⟩

theorem sameShots_planetKill (j : Slot) (s : Server) (l : Fin maxPlanets) : SameShots j s (planetKill s j l) := by
  intro i
  unfold planetKill countLoss countTourn pExplosion
  simp only
  split <;> simp [planetFires, planetHostile]

/-- What a planet that fires does, if it does. -/
def shotBy (j : Slot) (l : Fin maxPlanets) (d : Int) (s : Server) : Server :=
  let s := (s.record (.hurt none j)).modifyPlayer j fun p => inflict p d
  if destroyed (s.player j) then planetKill s j l else s

/-- A planet may be marked to be drawn again, and then it fires or not. -/
theorem planetFire_cases (j : Slot) (s : Server) (l : Fin maxPlanets) :
    ∃ s1, Accounted s s1 ∧ SameShots j s s1 ∧ s1.player j = s.player j ∧
      planetFire j s l =
        if planetFires (s.planet l) (s.player j) then shotBy j l (planetDamage (s.planet l)) s1 else s1 := by
  unfold planetFire
  simp only
  by_cases hh : planetHostile (s.planet l) (s.player j) = true
  · rw [if_neg (by simp [hh])]
    split
    · refine ⟨_, .modifyPlanet s l _, sameShots_redraw j s l (· ||| plRedraw), rfl, ?_⟩
      obtain ⟨hfires, hdamage⟩ := sameShots_redraw j s l (· ||| plRedraw) l
      rw [Server.player_modifyPlanet] at hfires
      rw [hdamage, hfires]
      cases planetFires (s.planet l) (s.player j) <;> rfl
    · refine ⟨s, .refl s, fun _ => ⟨rfl, rfl⟩, rfl, ?_⟩
      cases planetFires (s.planet l) (s.player j) <;> rfl
  · refine ⟨s, .refl s, fun _ => ⟨rfl, rfl⟩, rfl, ?_⟩
    rw [if_pos (by simpa using hh), if_neg]
    intro hf
    unfold planetFires at hf
    simp [hh] at hf

/-- A shot at a living ship. -/
theorem accounted_shotBy {j : Slot} {s : Server} (l : Fin maxPlanets) (d : Int) (hj : (s.player j).status = .palive) :
    Accounted s (shotBy j l d s) :=
  (Accounted.record_hurt none hj).trans (accounted_hit (fun s' => planetKill s' j l) hj fun _ h => accounted_planetKill h)

theorem sameShots_shotBy (j : Slot) (l : Fin maxPlanets) (d : Int) (s : Server) : SameShots j s (shotBy j l d s) := by
  unfold shotBy
  simp only
  split
  · exact (sameShots_inflict j (s.record (.hurt none j)) d).trans (sameShots_planetKill j _ l)
  · exact sameShots_inflict j (s.record (.hurt none j)) d

/-- A ship that no shot but the last can destroy. By recursion on the planets still to fire: as long
as the ship lives it outlasts their shots, and once it is dead there are none. -/
theorem accounted_planetFires (j : Slot) : ∀ (ls : List (Fin maxPlanets)) (s : Server),
    shots s j ls = [] ∨ ((s.player j).status = .palive ∧ Outlasts (s.player j) (shots s j ls)) →
    Accounted s (ls.foldl (planetFire j) s)
  | [], s, _ => .refl s
  | l :: ls, s, h => by
    obtain ⟨s1, hacc, hsame, hplayer, hcase⟩ := planetFire_cases j s l
    rw [List.foldl_cons, hcase]
    by_cases hf : planetFires (s.planet l) (s.player j) = true
    · rw [if_pos hf]
      unfold shots at h
      rw [if_pos hf] at h
      obtain h | ⟨hj, hlast, hrest⟩ := h
      · cases h
      have hj1 : (s1.player j).status = .palive := by rw [hplayer]; exact hj
      refine (hacc.trans (accounted_shotBy l _ hj1)).trans (accounted_planetFires j ls _ ?_)
      rw [shots_congr (hsame.trans (sameShots_shotBy j l _ s1))]
      by_cases hd : destroyed (inflict (s.player j) (planetDamage (s.planet l))) = true
      · refine .inl ?_
        by_contra hne
        rw [hlast hne] at hd
        cases hd
      · refine .inr ?_
        unfold shotBy
        simp only [Server.player_modifyPlayer, if_true, Server.player_record, hplayer]
        rw [if_neg hd, Server.player_modifyPlayer, if_pos rfl, Server.player_record, hplayer]
        exact ⟨(inflict_status _ _).1.trans hj, hrest⟩
    · rw [if_neg hf]
      refine hacc.trans (accounted_planetFires j ls s1 ?_)
      unfold shots at h
      rw [if_neg hf] at h
      rw [shots_congr hsame, hplayer]
      exact h

theorem accounted_coupAndWarnings (s : Server) (h : Fin maxPlanets) : Accounted s (coupAndWarnings s h) := by
  have hcoup : Accounted s (resolveCoup s h) := .ite fun _ => .modifyPlanet s h _
  refine (hcoup.trans (.modifyPlanet _ h fun l => { l with flags := l.flags &&& ~~~plRedraw })).trans ?_
  exact .ite fun _ => .of_same (fun _ => .refl _) rfl ⟨rfl, rfl⟩ fun _ => rfl

theorem accounted_countTourn (s : Server) {f : Status → Status} (hf : (f s.mem.status).tourn = s.mem.status.tourn ∧
    (f s.mem.status).losses = s.mem.status.losses) : Accounted s (countTourn s f) :=
  .ite fun _ => .of_same (fun _ => .refl _) rfl hf fun _ => rfl

theorem accounted_draw (s : Server) : Accounted s s.draw.2 := .of_same (fun _ => .refl _) rfl ⟨rfl, rfl⟩ fun _ => rfl

theorem accounted_warnOwners (s : Server) (j : Slot) : Accounted s (warnOwners s j) :=
  .ite fun _ => .of_same (fun _ => .refl _) rfl ⟨rfl, rfl⟩
    fun _ => List.filter_cons_of_neg (by rw [decide_eq_true_iff]; exact id)

theorem accounted_bombArmies (s : Server) (j : Slot) (ab : Int) : Accounted s (bombArmies s j ab) := by
  unfold bombArmies
  refine Accounted.trans ?_ (.record _ _ fun _ => id)
  refine Accounted.trans ?_ (.record _ _ fun _ => id)
  refine Accounted.trans ?_ (accounted_countTourn _ ⟨rfl, rfl⟩)
  exact (Accounted.modifyPlanet _ _ _).trans (.modifyPlayer ⟨rfl, rfl, rfl, rfl⟩)

theorem accounted_bombPlanet (s : Server) (j : Slot) : Accounted s (bombPlanet s j) := by
  unfold bombPlanet
  refine (accounted_warnOwners s j).trans ?_
  generalize warnOwners s j = s1
  simp only
  split
  · exact Accounted.trans (.modifyPlayer ⟨rfl, rfl, rfl, rfl⟩) (accounted_draw _)
  · refine Accounted.trans ?_ (accounted_bombArmies _ j _)
    exact Accounted.trans (.modifyPlayer ⟨rfl, rfl, rfl, rfl⟩) (accounted_draw _)

/-! ## Runs -/

/-- The passes of the daemon that damage ships. -/
inductive Pass
  | plfight
  | tExplosion (k : Nat)
  | udphaser
  | blowup (sh : Slot)

def pass (s : Server) : Pass → Server
  | .plfight => plfight s
  | .tExplosion k => tExplosion s k
  | .udphaser => udphaser s
  | .blowup sh => blowup s sh

/-- Each ship in turn, if it is alive, outlasts the planets that fire at it. -/
def Outlasted : Server → List Slot → Prop
  | _, [] => True
  | s, j :: js =>
    ((s.player j).status = .palive → Outlasts (s.player j) (shots s j (List.finRange maxPlanets))) ∧
      Outlasted (plfightOn s j) js

instance decidableOutlasts : ∀ (p : Player) (ds : List Int), Decidable (Outlasts p ds)
  | _, [] => isTrue trivial
  | p, d :: ds =>
    have := decidableOutlasts (inflict p d) ds
    inferInstanceAs (Decidable (_ ∧ _))

instance decidableOutlasted : ∀ (s : Server) (js : List Slot), Decidable (Outlasted s js)
  | _, [] => isTrue trivial
  | s, j :: js =>
    have := decidableOutlasted (plfightOn s j) js
    inferInstanceAs (Decidable (_ ∧ _))

/-- In `plfight` only the last planet to fire at a ship may destroy it. -/
def Pass.clean (s : Server) : Pass → Prop
  | .plfight => Outlasted ((List.finRange maxPlanets).foldl coupAndWarnings s) (List.finRange maxPlayer)
  | _ => True

theorem accounted_plfightOn {s : Server} {j : Slot}
    (h : (s.player j).status = .palive → Outlasts (s.player j) (shots s j (List.finRange maxPlanets))) :
    Accounted s (plfightOn s j) := by
  unfold plfightOn
  by_cases hj : (s.player j).status = .palive
  · rw [if_neg (not_not_intro hj)]
    exact (accounted_planetFires j _ s (.inr ⟨hj, h hj⟩)).trans (.ite fun _ => accounted_bombPlanet _ j)
  · rw [if_pos hj]
    exact .refl s

theorem accounted_plfightLoop : ∀ (js : List Slot) (s : Server), Outlasted s js → Accounted s (js.foldl plfightOn s)
  | [], s, _ => .refl s
  | _ :: js, _, h => (accounted_plfightOn h.1).trans (accounted_plfightLoop js _ h.2)

theorem accounted_pass (s : Server) (a : Pass) (h : a.clean s) : Accounted s (pass s a) := by
  cases a with
  | plfight => exact (Accounted.foldl accounted_coupAndWarnings _ s).trans (accounted_plfightLoop _ _ h)
  | tExplosion k => exact accounted_tExplosion s k
  | udphaser => exact accounted_udphaser s
  | blowup sh => exact accounted_blowup s sh

/-- In every run of passes in which planets are clean, every death is accounted for. -/
theorem deaths_accounted {s s' : Server} {passes : List Pass} (h : Run Pass.clean pass s passes s') : Accounted s s' :=
  Run.rel Accounted.refl Accounted.trans accounted_pass h

/-- A badly damaged ship at war with the Romulans, near their first `n` planets, in tournament mode. -/
def nearRomulus (n : Nat) : Server :=
  let ship : Ship := { (default : Ship) with maxDamage := 100 }
  let player : Player := { (default : Player) with status := .palive, war := rom, damage := 99, ship := ship }
  { (default : Server) with
    mem := { (default : Memory) with
      players := Function.update default 0 player
      planets := fun l => if l.val < n then { (default : Planet) with owner := rom, armies := 30 } else default
      status := { (default : Status) with tourn := true } } }

theorem accounted_nearRomulus_one :
    Accounted (nearRomulus 1) (plfight (nearRomulus 1)) ∧ ((plfight (nearRomulus 1)).player 0).status = .pexplode :=
  ⟨@deaths_accounted _ _ [.plfight] (.cons (by unfold Pass.clean; decide +kernel) (.nil _)), by decide +kernel⟩

/-- Two planets in range kill the ship twice. -/
theorem not_accounted_nearRomulus_two :
    ¬ Accounted (nearRomulus 2) (plfight (nearRomulus 2)) ∧
      story 0 (plfight (nearRomulus 2)).log = [.death 0 none, .hurt none 0, .death 0 none, .hurt none 0] ∧
      (plfight (nearRomulus 2)).mem.status.losses = 2 := by
  have hlosses : (plfight (nearRomulus 2)).mem.status.losses = 2 := by decide +kernel
  have hstory : story 0 (plfight (nearRomulus 2)).log = [.death 0 none, .hurt none 0, .death 0 none, .hurt none 0] := by
    decide +kernel
  refine ⟨fun h => ?_, hstory, hlosses⟩
  obtain ⟨new, hnew, hf⟩ := h.fate 0
  rw [hstory] at hnew
  have hnil : new ++ story 0 (nearRomulus 2).log = new := List.append_nil new
  rw [hnil] at hnew
  subst hnew
  exact hf.death_once none (by decide)

end Netrek.Daemon
