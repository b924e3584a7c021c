/-
The armies in one pass of `beam`. An army that is beamed is taken from where it was and put where it goes; one that
lands among the armies of another owner is lost with one of them. Only the troops that enlist with the winners when a
drop wipes out a race are new.
-/
import NetrekServer.Beam.Turn
import NetrekServer.Lib.Freight
import NetrekServer.Truncate

namespace Netrek.Beam

open Empire Netrek.Lib

/-! ## The account -/

/-- The armies aboard the ships and on the planets. -/
def freight (s : Server) : Freight Slot (Fin maxPlanets) := ⟨fun j => (s.player j).armies, fun l => (s.planet l).armies⟩

/-- The ship drops an army on a planet of another owner that still holds armies. -/
def drops (c : Campaign) (i : Slot) : Bool :=
  let p := c.player i
  p.status == .palive && p.flags.has pfOrbit && !p.flags.has pfBeamUp && p.flags.has pfBeamDown && p.armies != 0 &&
    !peaceful p (c.planet p.planet) && hostile c i

/-- What is counted over the turns of a pass, each in the state that it begins in. -/
def overLoop (f : Campaign → Slot → Nat) : List Slot → Campaign → Nat
  | [], _ => 0
  | i :: is, c => f c i + if (beamOn c i).2 then 0 else overLoop f is (beamOn c i).1

def overPass (f : Campaign → Slot → Nat) (c : Campaign) : Nat := overLoop f (List.finRange maxPlayer) c

/-- The hostile drops of a pass. -/
def hostileDrops (c : Campaign) : Nat := overPass (fun c i => if drops c i then 1 else 0) c

/-- The troops that enlist in a pass. -/
def troopsRaised (c : Campaign) : Nat := overPass (fun c i => if drops c i then raisedOn c i else 0) c

/-- A live ship that is docked is docked with a base. -/
def BasesValid (s : Server) : Prop :=
  ∀ i, (s.player i).status = .palive → (s.player i).flags.has pfDock = true →
    (s.player (s.player i).dockWith).ship.type = .starbase

/-- The ship has no more armies than it can hold, and than its kills carry if it is not a base. -/
def Within (p : Player) : Prop := p.armies ≤ p.ship.maxArmies ∧ (p.ship.type ≠ .starbase → p.armies ≤ capacity p)

/-! ## One turn -/

theorem drops_iff {c : Campaign} {i : Slot} : drops c i = true ↔ Lands c i ∧ hostile c i = true := by
  unfold drops
  simp only [Bool.and_eq_true, Bool.not_eq_true', beq_iff_eq, bne_iff_ne]
  constructor
  · rintro ⟨⟨⟨⟨⟨⟨ha, ho⟩, hu⟩, hd⟩, hz⟩, hp⟩, hh⟩
    exact ⟨⟨ha, ho, hu, hd, hz, hp⟩, hh⟩
  · rintro ⟨h, hh⟩
    exact ⟨⟨⟨⟨⟨⟨h.alive, h.orbit⟩, h.up⟩, h.down⟩, h.aboard⟩, h.war⟩, hh⟩

/-- A hostile drop is what the turn is. -/
theorem beamOn_drops {c : Campaign} {i : Slot} (h : drops c i = true) : beamOn c i = beamDownHostile c i := by
  obtain ⟨hl, hh⟩ := drops_iff.1 h
  unfold hostile at hh
  dsimp only at hh
  rw [Bool.and_eq_true, bne_iff_ne, bne_iff_ne] at hh
  have hm : moored (c.player i) = true := by
    unfold moored
    rw [has_union, hl.orbit, Bool.true_or]
  unfold beamOn
  dsimp only
  rw [if_neg (by simp [hl.alive, hm]), if_neg (by simp [hl.up]), if_pos hl.down]
  unfold beamDown
  dsimp only
  rw [if_neg hl.aboard, if_pos hl.orbit, if_neg (by simp [hl.war]), if_pos hh.1, if_pos hh.2]

theorem total_modifyPlayer (s : Server) (i : Slot) {f : Player → Player} {d : Int}
    (hf : ∀ p, (f p).armies = p.armies + d) : (freight (s.modifyPlayer i f)).total = (freight s).total + d := by
  have h := Freight.total_gain (freight s) (freight (s.modifyPlayer i f)) (i := i) (k := (0 : Fin 40)) (d := d) (n := 0)
    (fun j => ?_) fun l => ?_
  · omega
  · show ((s.modifyPlayer i f).player j).armies = (s.player j).armies + _
    rw [Server.player_modifyPlayer]
    split
    · subst_vars
      exact hf _
    · omega
  · show (s.planet l).armies = (s.planet l).armies + _
    split <;> omega

theorem total_modifyPlanet (s : Server) (l : Fin maxPlanets) {f : Planet → Planet} {n : Int}
    (hf : ∀ p, (f p).armies = p.armies + n) : (freight (s.modifyPlanet l f)).total = (freight s).total + n := by
  have h := Freight.total_gain (freight s) (freight (s.modifyPlanet l f)) (i := (0 : Fin 32)) (k := l) (d := 0) (n := n)
    (fun j => ?_) fun k => ?_
  · omega
  · show (s.player j).armies = (s.player j).armies + _
    split <;> omega
  · show ((s.modifyPlanet l f).planet k).armies = (s.planet k).armies + _
    rw [Server.planet_modifyPlanet]
    split
    · subst_vars
      exact hf _
    · omega

theorem total_calm {s s' : Server} (h : Calm s s') : (freight s').total = (freight s).total := by
  unfold freight
  simp only [h.player, h.planet]

/-- A hostile drop loses two armies, before the check for a genocide. -/
theorem total_landed (c : Campaign) (i : Slot) : (freight (landed c i).server).total = (freight c.server).total - 2 := by
  obtain ⟨cheap, -, hplanet⟩ := planet_landed c i
  have h := Freight.total_gain (freight c.server) (freight (landed c i).server) (i := i) (k := (c.player i).planet)
    (d := -1) (n := -1) (fun j => ?_) fun l => ?_
  · omega
  · show ((landed c i).player j).armies = (c.player j).armies + _
    rw [player_landed]
    split
    · subst_vars
      rfl
    · omega
  · show ((landed c i).planet l).armies = (c.planet l).armies + _
    rw [hplanet]
    split
    · rfl
    · omega

/-- The troops of a genocide are new. -/
theorem total_enlists {winner : Word} {n : Nat} {s s' : Server} {troops : Fin maxPlanets → Nat} (hf : Frame s s')
    (h : Enlists winner n s s' troops) : (freight s').total = (freight s).total + n := by
  have haboard : ∑ j, (s'.player j).armies = ∑ j, (s.player j).armies :=
    Finset.sum_congr rfl fun j _ => (hf.players j).armies
  have hstored : ∑ l, (s'.planet l).armies = ∑ l, (s.planet l).armies + n := by
    rw [← h.total, Nat.cast_sum, ← Finset.sum_add_distrib]
    exact Finset.sum_congr rfl fun l _ => h.armies l
  unfold freight Freight.total
  dsimp only
  omega

/-- What a turn does to the number of armies. -/
theorem total_beamOn (c : Campaign) (i : Slot) :
    (freight (beamOn c i).1.server).total + 2 * (if drops c i then 1 else 0 : Nat) =
      (freight c.server).total + (if drops c i then raisedOn c i else 0 : Nat) := by
  have hload (s : Server) (j : Slot) : (freight (s.modifyPlayer j load)).total = _ := total_modifyPlayer s j fun _ => rfl
  have hunload (s : Server) (j : Slot) : (freight (s.modifyPlayer j unload)).total = _ :=
    total_modifyPlayer s j (d := -1) fun _ => rfl
  have hgain (s : Server) (l : Fin maxPlanets) (n : Int) : (freight (s.modifyPlanet l (gain n))).total = _ :=
    total_modifyPlanet s l fun _ => rfl
  by_cases hd : drops c i = true
  · rw [beamOn_drops hd, if_pos hd, if_pos hd]
    obtain ⟨troops, h⟩ := enlists_beamDownHostile c i
    rw [total_enlists (frame_beamDownHostile c i) h, total_landed]
    omega
  · rw [if_neg hd, if_neg hd]
    have hturn := turn_beamOn c i
    generalize (beamOn c i).1.server = s' at hturn ⊢
    cases hturn with
    | idle => rfl
    | fromPlanet =>
      rw [hgain, hload]
      omega
    | fromBase =>
      rw [hunload, hload]
      omega
    | hostile hl hh => exact absurd (drops_iff.2 ⟨hl, hh⟩) hd
    | takeOver hl other empty calm =>
      rw [total_calm calm, total_modifyPlanet _ _ (n := 1) fun _ => rfl, total_modifyPlayer _ _ (d := -1) fun _ => rfl]
      omega
    | reinforce =>
      rw [hgain, hunload]
      omega
    | transfer =>
      rw [hload, hunload]
      omega

/-! ## What is aboard -/

/-- The ships are as they were; they hold no more armies, or no more than they have room for. -/
structure Bounded (s s' : Server) : Prop where
  ship : ∀ j, (s'.player j).ship = (s.player j).ship
  flags : ∀ j, (s'.player j).flags = (s.player j).flags
  dockWith : ∀ j, (s'.player j).dockWith = (s.player j).dockWith
  status : ∀ j, (s'.player j).status = .palive → (s.player j).status = .palive
  armies : ∀ j, (s'.player j).armies ≤ (s.player j).armies ∨ (s'.player j).armies ≤ (s'.player j).ship.maxArmies

theorem Bounded.refl (s : Server) : Bounded s s :=
  ⟨fun _ => rfl, fun _ => rfl, fun _ => rfl, fun _ h => h, fun _ => .inl le_rfl⟩

theorem Bounded.trans {s s' s'' : Server} (h : Bounded s s') (h' : Bounded s' s'') : Bounded s s'' where
  ship j := (h'.ship j).trans (h.ship j)
  flags j := (h'.flags j).trans (h.flags j)
  dockWith j := (h'.dockWith j).trans (h.dockWith j)
  status j ha := h.status j (h'.status j ha)
  armies j := by
    rcases h'.armies j with hle | hroom
    · rcases h.armies j with hle' | hroom'
      · exact .inl (hle.trans hle')
      · right
        rw [h'.ship]
        exact hle.trans hroom'
    · exact .inr hroom

theorem Bounded.bases {s s' : Server} (h : Bounded s s') (hb : BasesValid s) : BasesValid s' := by
  intro i ha hd
  rw [h.dockWith, h.ship]
  rw [h.flags] at hd
  exact hb i (h.status i ha) hd

/-- A change of one player. -/
theorem Bounded.modifyPlayer (s : Server) (i : Slot) {f : Player → Player} (hship : ∀ p, (f p).ship = p.ship)
    (hflags : ∀ p, (f p).flags = p.flags) (hdock : ∀ p, (f p).dockWith = p.dockWith)
    (hstatus : ∀ p, (f p).status = p.status)
    (ha : (f (s.player i)).armies ≤ (s.player i).armies ∨ (f (s.player i)).armies ≤ (s.player i).ship.maxArmies) :
    Bounded s (s.modifyPlayer i f) := by
  constructor <;> intro j <;> rw [Server.player_modifyPlayer] <;> by_cases hj : j = i
  all_goals simp only [hj, if_true, if_false, hship, hflags, hdock, hstatus, ha, le_refl, true_or, imp_self]

theorem Bounded.load {s : Server} {i : Slot} (hroom : (s.player i).armies < (s.player i).ship.maxArmies) :
    Bounded s (s.modifyPlayer i load) :=
  .modifyPlayer s i (fun _ => rfl) (fun _ => rfl) (fun _ => rfl) (fun _ => rfl) (.inr hroom)

/-- A player that lets an army go, whatever is counted for it. -/
theorem Bounded.spend (s : Server) (i : Slot) {f : Player → Player} (hship : ∀ p, (f p).ship = p.ship)
    (hflags : ∀ p, (f p).flags = p.flags) (hdock : ∀ p, (f p).dockWith = p.dockWith)
    (hstatus : ∀ p, (f p).status = p.status) (ha : ∀ p, (f p).armies = p.armies - 1) : Bounded s (s.modifyPlayer i f) := by
  refine .modifyPlayer s i hship hflags hdock hstatus (.inl ?_)
  rw [ha]
  omega

theorem Bounded.unload (s : Server) (i : Slot) : Bounded s (s.modifyPlayer i unload) :=
  .spend s i (fun _ => rfl) (fun _ => rfl) (fun _ => rfl) (fun _ => rfl) fun _ => rfl

theorem Bounded.attack (s : Server) (i : Slot) (owner : Word) : Bounded s (s.modifyPlayer i (attack owner)) :=
  .spend s i (fun _ => rfl) (fun _ => rfl) (fun _ => rfl) (fun _ => rfl) fun _ => rfl

theorem Bounded.conquer (s : Server) (i : Slot) : Bounded s (s.modifyPlayer i conquer) :=
  .spend s i (fun _ => rfl) (fun _ => rfl) (fun _ => rfl) (fun _ => rfl) fun _ => rfl

theorem Bounded.of_frame {s s' : Server} (h : Frame s s') : Bounded s s' where
  ship j := (h.players j).ship
  flags j := (h.players j).flags
  dockWith j := (h.players j).dockWith
  status j ha := by
    rcases (h.players j).status with hs | hs
    · rwa [hs] at ha
    · rw [hs] at ha
      cases ha
  armies j := .inl (h.players j).armies.le

theorem Bounded.of_players {s s' : Server} (h : ∀ j, s'.player j = s.player j) : Bounded s s' where
  ship j := by rw [h]
  flags j := by rw [h]
  dockWith j := by rw [h]
  status j := by rw [h]; exact id
  armies j := .inl (congrArg Player.armies (h j)).le

/-- What is done to a planet is nothing to the ships. -/
theorem Bounded.planet {s s' : Server} (h : Bounded s s') (l : Fin maxPlanets) (f : Planet → Planet) :
    Bounded s (s'.modifyPlanet l f) := h.trans (.of_players fun _ => rfl)

/-- A base that takes an army has room for it. -/
theorem Bounded.transfer {c : Campaign} {i : Slot} (htakes : baseTakes c.server i = true) :
    Bounded c.server ((c.server.modifyPlayer i Beam.unload).modifyPlayer (c.player i).dockWith Beam.load) := by
  have hu := Bounded.unload c.server i
  unfold baseTakes at htakes
  dsimp only at htakes
  rw [Bool.and_eq_true, decide_eq_true_iff] at htakes
  refine hu.trans (.load ?_)
  have hle : ((c.server.modifyPlayer i Beam.unload).player (c.player i).dockWith).armies ≤
      (c.server.player (c.player i).dockWith).armies := by
    rw [Server.player_modifyPlayer]
    split
    · rename_i hi
      rw [hi]
      show (c.server.player i).armies - 1 ≤ (c.server.player i).armies
      omega
    · exact le_rfl
  rw [hu.ship]
  exact hle.trans_lt htakes.2

/-- A turn gives an army to a ship or a base only if there is room. -/
theorem bounded_beamOn (c : Campaign) (i : Slot) : Bounded c.server (beamOn c i).1.server := by
  have hturn := turn_beamOn c i
  generalize (beamOn c i).1.server = s' at hturn ⊢
  cases hturn with
  | idle => exact .refl _
  | fromPlanet orbit may => exact (Bounded.load may.room).planet _ _
  | fromBase orbit dock alive may => exact (Bounded.load may.room).trans (.unload _ _)
  | hostile hl hh frame =>
    have hlanded : Bounded c.server (landed c i).server := by
      refine (Bounded.attack c.server i (c.planet (c.player i).planet).owner).trans (.of_players fun j => ?_)
      rw [Server.player_modifyPlayer]
      exact player_landed c i j
    exact hlanded.trans (.of_frame frame)
  | takeOver hl other empty calm => exact ((Bounded.conquer c.server i).planet _ _).trans (.of_frame calm.frame)
  | reinforce => exact (Bounded.unload _ _).planet _ _
  | transfer dock alive aboard takes => exact .transfer takes

/-! ## What the kills carry -/

/-- The armies and the kills of a player are as they were. -/
def SameLoad (p p' : Player) : Prop := p'.armies = p.armies ∧ p'.kills = p.kills

/-- A ship that docks is not taken for the base. -/
theorem BasesValid.ne {c : Campaign} (hb : BasesValid c.server) {i j : Slot} (ha : (c.player i).status = .palive)
    (hd : (c.player i).flags.has pfDock = true) (hj : (c.player j).ship.type ≠ .starbase) : j ≠ (c.player i).dockWith := by
  rintro rfl
  exact hj (hb i ha hd)

theorem sameLoad_modifyPlayer (s : Server) {i j : Slot} (hne : j ≠ i) (f : Player → Player) :
    SameLoad (s.player j) ((s.modifyPlayer i f).player j) := by
  rw [Server.player_modifyPlayer, if_neg hne]
  exact ⟨rfl, rfl⟩

theorem Kept.sameLoad {p p' : Player} (h : Kept p p') : SameLoad p p' := ⟨h.armies, h.kills⟩

theorem SameLoad.trans {p p' p'' : Player} (h : SameLoad p p') (h' : SameLoad p' p'') : SameLoad p p'' :=
  ⟨h'.1.trans h.1, h'.2.trans h.2⟩

/-- The turn of another ship is nothing to the armies and the kills of a ship that is no base. -/
theorem sameLoad_beamOn {c : Campaign} (hb : BasesValid c.server) {i j : Slot} (hne : j ≠ i)
    (hj : (c.player j).ship.type ≠ .starbase) : SameLoad (c.player j) ((beamOn c i).1.player j) := by
  have hturn := turn_beamOn c i
  show SameLoad (c.server.player j) ((beamOn c i).1.server.player j)
  generalize (beamOn c i).1.server = s' at hturn ⊢
  have hown (f : Player → Player) := sameLoad_modifyPlayer c.server hne f
  cases hturn with
  | idle => exact ⟨rfl, rfl⟩
  | fromPlanet => exact hown load
  | fromBase orbit dock alive => exact (hown load).trans (sameLoad_modifyPlayer _ (hb.ne alive dock hj) _)
  | hostile hl hh frame =>
    have hlanded : SameLoad (c.server.player j) ((landed c i).server.player j) := by
      rw [show (landed c i).server.player j = _ from player_landed c i j, if_neg hne]
      exact ⟨rfl, rfl⟩
    exact hlanded.trans (frame.players j).sameLoad
  | takeOver hl other empty calm =>
    rw [calm.player]
    exact hown conquer
  | reinforce => exact hown unload
  | transfer dock alive => exact (hown unload).trans (sameLoad_modifyPlayer _ (hb.ne alive dock hj) _)

theorem capacity_congr {p p' : Player} (hs : p'.ship = p.ship) (hk : p'.kills = p.kills) : capacity p' = capacity p := by
  unfold capacity Player.hundredths
  rw [hs, hk]

/-- In its own turn a ship that is no base takes an army aboard only if its kills carry it. -/
theorem carried_beamOn {c : Campaign} (hb : BasesValid c.server) {i : Slot} (hi : (c.player i).ship.type ≠ .starbase) :
    ((beamOn c i).1.player i).armies ≤ (c.player i).armies ∨
      ((beamOn c i).1.player i).armies ≤ capacity ((beamOn c i).1.player i) := by
  have hturn := turn_beamOn c i
  show ((beamOn c i).1.server.player i).armies ≤ (c.server.player i).armies ∨
    ((beamOn c i).1.server.player i).armies ≤ capacity ((beamOn c i).1.server.player i)
  generalize (beamOn c i).1.server = s' at hturn ⊢
  have hplayer (f : Player → Player) : (c.server.modifyPlayer i f).player i = f (c.server.player i) := by
    rw [Server.player_modifyPlayer, if_pos rfl]
  -- beaming down leaves the ship with less than before
  have hspend (f : Player → Player) (hf : ∀ p, (f p).armies = p.armies - 1) :
      ((c.server.modifyPlayer i f).player i).armies ≤ (c.server.player i).armies := by
    rw [hplayer, hf]
    omega
  -- beaming up was allowed for the kills the ship has
  have hload (may : MayLoad c i) : ((c.server.modifyPlayer i load).player i).armies ≤
      capacity ((c.server.modifyPlayer i load).player i) := by
    have hcap : capacity (load (c.server.player i)) = capacity (c.server.player i) := capacity_congr rfl rfl
    rw [hplayer, hcap]
    exact may.kills hi
  cases hturn with
  | idle => exact .inl le_rfl
  | fromPlanet orbit may => exact .inr (hload may)
  -- a ship that is no starbase is not docked on itself
  | fromBase orbit dock alive may =>
    right
    rw [Server.player_modifyPlayer, if_neg (hb.ne alive dock hi)]
    exact hload may
  | hostile hl hh frame =>
    left
    rw [(frame.players i).armies, show (landed c i).server.player i = _ from player_landed c i i, if_pos rfl]
    show (c.server.player i).armies - 1 ≤ (c.server.player i).armies
    omega
  | takeOver hl other empty calm =>
    left
    rw [calm.player]
    exact hspend conquer fun _ => rfl
  | reinforce => exact .inl (hspend unload fun _ => rfl)
  | transfer dock alive =>
    left
    rw [Server.player_modifyPlayer, if_neg (hb.ne alive dock hi)]
    exact hspend unload fun _ => rfl

/-! ## No negative counts -/

/-- With no negative count before a turn there is none after it. -/
theorem nonneg_beamOn {c : Campaign} (h : ∀ j, 0 ≤ (c.player j).armies) (i j : Slot) :
    0 ≤ ((beamOn c i).1.player j).armies := by
  have hturn := turn_beamOn c i
  show 0 ≤ ((beamOn c i).1.server.player j).armies
  generalize (beamOn c i).1.server = s' at hturn ⊢
  have hj := h j
  have hi := h i
  -- a step that takes an army from the ship needs one aboard
  have hspend (aboard : (c.player i).armies ≠ 0) (f : Player → Player) (hf : ∀ p, (f p).armies = p.armies - 1) :
      0 ≤ ((c.server.modifyPlayer i f).player j).armies := by
    rw [Server.player_modifyPlayer]
    split
    · rw [hf]
      show 0 ≤ (c.player i).armies - 1
      omega
    · exact hj
  have hload : 0 ≤ ((c.server.modifyPlayer i load).player j).armies := by
    rw [Server.player_modifyPlayer]
    split
    · show 0 ≤ (c.player i).armies + 1
      omega
    · exact hj
  cases hturn with
  | idle => exact hj
  -- the base pays for the army; the ship itself may be the base
  | fromPlanet => exact hload
  | fromBase orbit dock alive may =>
    have hbase := may.base dock
    rw [Server.player_modifyPlayer]
    split
    · rename_i hd
      rw [Server.player_modifyPlayer]
      split
      · show 0 ≤ (c.player i).armies + 1 - 1
        omega
      · show 0 ≤ (c.player (c.player i).dockWith).armies - 1
        omega
    · exact hload
  -- the fight on the planet does not touch what ships carry
  | hostile hl hh frame =>
    rw [(frame.players j).armies]
    have hp := hspend hl.aboard (attack (c.planet (c.player i).planet).owner) fun _ => rfl
    rw [Server.player_modifyPlayer] at hp
    rw [show (landed c i).server.player j = _ from player_landed c i j]
    exact hp
  | takeOver hl other empty calm =>
    rw [calm.player]
    exact hspend hl.aboard conquer fun _ => rfl
  | reinforce hl => exact hspend hl.aboard unload fun _ => rfl
  -- the army goes from the ship to its base
  | transfer dock alive aboard =>
    have hunload := hspend aboard unload fun _ => rfl
    rw [Server.player_modifyPlayer]
    split
    · rename_i hd
      rw [← hd]
      show 0 ≤ ((c.server.modifyPlayer i unload).player j).armies + 1
      omega
    · exact hunload

/-! ## The pass -/

/-- Over a pass, armies are lost by drops on hostile planets and gained as troops. -/
theorem total_beamLoop : ∀ (is : List Slot) (c : Campaign),
    (freight (beamLoop is c).1.server).total + 2 * (overLoop (fun c i => if drops c i then 1 else 0) is c : Nat) =
      (freight c.server).total + (overLoop (fun c i => if drops c i then raisedOn c i else 0) is c : Nat)
  | [], _ => rfl
  | i :: is, c => by
    have hturn := total_beamOn c i
    unfold beamLoop overLoop
    split
    · rename_i heq
      simp only [heq, if_true, Nat.add_zero] at hturn ⊢
      exact hturn
    · rename_i c' heq
      have ih := total_beamLoop is c'
      simp only [heq, Bool.false_eq_true, if_false] at hturn ⊢
      push_cast at hturn ih ⊢
      linarith

theorem bounded_beamLoop : ∀ (is : List Slot) (c : Campaign), Bounded c.server (beamLoop is c).1.server
  | [], _ => .refl _
  | i :: is, c => by
    have hturn := bounded_beamOn c i
    unfold beamLoop
    split
    · rename_i heq
      rw [heq] at hturn
      exact hturn
    · rename_i heq
      rw [heq] at hturn
      exact hturn.trans (bounded_beamLoop is _)

/-- Who does not have his turn, and has no starbase, keeps his armies and kills. -/
theorem sameLoad_beamLoop {j : Slot} : ∀ (is : List Slot) {c : Campaign}, BasesValid c.server → j ∉ is →
    (c.player j).ship.type ≠ .starbase → SameLoad (c.player j) ((beamLoop is c).1.player j)
  | [], _, _, _, _ => ⟨rfl, rfl⟩
  | i :: is, c, hb, hmem, hj => by
    rw [List.mem_cons, not_or] at hmem
    have hturn := sameLoad_beamOn hb hmem.1 hj
    have hbounded := bounded_beamOn c i
    unfold beamLoop
    split
    · rename_i heq
      rw [heq] at hturn
      exact hturn
    · rename_i c' heq
      rw [heq] at hturn hbounded
      have hship : (c'.player j).ship = (c.player j).ship := hbounded.ship j
      exact hturn.trans (sameLoad_beamLoop is (hbounded.bases hb) hmem.2 (by rwa [hship]))

/-- A ship that is no base has one turn, before and after which nothing is aboard of it that was not. -/
theorem carried_beamLoop {j : Slot} : ∀ (is : List Slot) {c : Campaign}, BasesValid c.server → is.Nodup →
    (c.player j).ship.type ≠ .starbase → ((beamLoop is c).1.player j).armies ≤ (c.player j).armies ∨
      ((beamLoop is c).1.player j).armies ≤ capacity ((beamLoop is c).1.player j)
  | [], _, _, _, _ => .inl le_rfl
  | i :: is, c, hb, hnodup, hj => by
    rw [List.nodup_cons] at hnodup
    have hbounded := bounded_beamOn c i
    by_cases hji : j = i
    · subst hji
      have hturn := carried_beamOn hb hj
      unfold beamLoop
      split
      · rename_i heq
        rw [heq] at hturn
        exact hturn
      · rename_i c' heq
        rw [heq] at hturn hbounded
        have hship : (c'.player j).ship = (c.player j).ship := hbounded.ship j
        obtain ⟨harmies, hkills⟩ := sameLoad_beamLoop is (hbounded.bases hb) hnodup.1 (by rwa [hship])
        have hcap : capacity ((beamLoop is c').1.player j) = capacity (c'.player j) :=
          capacity_congr ((bounded_beamLoop is c').ship j) hkills
        rw [harmies, hcap]
        exact hturn
    · have hturn := sameLoad_beamOn hb hji hj
      unfold beamLoop
      split
      · rename_i heq
        rw [heq] at hturn
        exact .inl hturn.1.le
      · rename_i c' heq
        rw [heq] at hturn hbounded
        have hship : (c'.player j).ship = (c.player j).ship := hbounded.ship j
        have hrest := carried_beamLoop is (hbounded.bases hb) hnodup.2 (by rwa [hship])
        rwa [hturn.1] at hrest

theorem nonneg_beamLoop : ∀ (is : List Slot) {c : Campaign}, (∀ j, 0 ≤ (c.player j).armies) →
    ∀ j, 0 ≤ ((beamLoop is c).1.player j).armies
  | [], _, h => h
  | i :: is, c, h => by
    have hturn := nonneg_beamOn h i
    unfold beamLoop
    split
    · rename_i heq
      rw [heq] at hturn
      exact hturn
    · rename_i heq
      rw [heq] at hturn
      exact nonneg_beamLoop is hturn

/-- After a pass there are as many armies as before, less two for each hostile drop, and with the troops that enlisted;
none is negative that was not before, and no ship or base has gained an army beyond what it may hold. -/
theorem armies_accounted {c : Campaign} (hb : BasesValid c.server) :
    (freight (beam c).1.server).total = (freight c.server).total - 2 * hostileDrops c + troopsRaised c ∧
      ((∀ j, 0 ≤ (c.player j).armies) → ∀ j, 0 ≤ ((beam c).1.player j).armies) ∧
      ∀ j, (c.player j).armies < ((beam c).1.player j).armies → Within ((beam c).1.player j) := by
  refine ⟨?_, nonneg_beamLoop _, fun j hj => ?_⟩
  · have h : (freight (beam c).1.server).total + 2 * (hostileDrops c : Nat) =
        (freight c.server).total + (troopsRaised c : Nat) := total_beamLoop (List.finRange maxPlayer) c
    omega
  · have hbounded : Bounded c.server (beam c).1.server := bounded_beamLoop (List.finRange maxPlayer) c
    refine ⟨(hbounded.armies j).resolve_left (not_le_of_gt hj), fun hbase => ?_⟩
    rw [show ((beam c).1.player j).ship = (c.player j).ship from hbounded.ship j] at hbase
    exact (carried_beamLoop (List.finRange maxPlayer) hb (List.nodup_finRange _) hbase).resolve_left (not_le_of_gt hj)

/-! ## The last planet of a race -/

/-- A Federation ship with one army orbits Romulus, the last planet of six Romulans, with one army left. The Klingons and
the Orions hold their home systems, and planets in the others: nobody is about to conquer the galaxy, whatever it takes. -/
def lastOfRomulans (twoRace : Bool) : Campaign :=
  { (default : Campaign) with
    server := { (default : Server) with
      setup := { (default : Setup) with twoRace := twoRace }
      random := fun _ => 1
      mem := { (default : Memory) with
        players := fun i => { (default : Player) with
          status := if i.val ≤ 6 then .palive else .pfree
          team := if i.val = 0 then fed else rom
          flags := if i.val = 0 then pfOrbit ||| pfBeamDown else 0
          armies := if i.val = 0 then 1 else 0
          war := if i.val = 0 then rom else 0
          planet := ⟨10, by decide⟩ }
        planets := fun l => { (default : Planet) with
          flags := fourTeams.getD (l.val / 10) nobody ||| (if l.val % 10 = 0 then plHome else 0)
          owner := if l.val < 5 then fed else if l.val = 10 then rom else if l.val < 15 ∨ 20 ≤ l.val ∧ l.val < 30 then kli
            else ori
          armies := if l.val = 10 then 1 else 5 } } } }

theorem basesValid_lastOfRomulans (twoRace : Bool) : BasesValid (lastOfRomulans twoRace).server := by
  intro i _ hd
  revert i twoRace
  decide +kernel

/-- The Romulans are wiped out by one drop, and one army enlists on each planet of the Federation. -/
theorem armies_accounted_lastOfRomulans :
    (freight (beam (lastOfRomulans true)).1.server).total = (freight (lastOfRomulans true).server).total - 2 * 1 + 5 := by
  have hdrops : hostileDrops (lastOfRomulans true) = 1 := by decide +kernel
  have htroops : troopsRaised (lastOfRomulans true) = 5 := by decide +kernel
  have h := (armies_accounted (basesValid_lastOfRomulans true)).1
  rw [hdrops, htroops] at h
  exact h

/-- The pass comes to its end, and with one hostile drop the total is not less by two. -/
structure Gains (c : Campaign) : Prop where
  bases : BasesValid c.server
  ends : (beam c).2 = false
  sound : (beam c).1.fault = false
  drops : hostileDrops c = 1
  total : (freight (beam c).1.server).total ≠ (freight c.server).total - 2 * 1

/-- With the troops the total is not less by two for each hostile drop, in a game of two races and of four. -/
theorem troops_enlist : Gains (lastOfRomulans true) ∧ Gains (lastOfRomulans false) := by
  constructor
  · exact ⟨basesValid_lastOfRomulans true, by decide +kernel, by decide +kernel, by decide +kernel, by decide +kernel⟩
  · exact ⟨basesValid_lastOfRomulans false, by decide +kernel, by decide +kernel, by decide +kernel, by decide +kernel⟩

end Netrek.Beam
