/-
What the turn of one ship in `beam` comes to: the ways an army may be moved, each with the checks it
passed, and what they leave of the players and the planets.
-/
import NetrekServer.Beam.Frame

namespace Netrek.Beam

open Daemon Empire Stats

/-! ## The ways of an army -/

/-- An army comes aboard. -/
def load (p : Player) : Player := { p with armies := p.armies + 1 }

/-- An army is let go. -/
def unload (p : Player) : Player := { p with armies := p.armies - 1 }

/-- The planet gains or loses armies. -/
def gain (n : Int) (l : Planet) : Planet := { l with armies := l.armies + n }

/-- The ship after a hostile drop. -/
def attack (owner : Word) (p : Player) : Player :=
  { p with armies := p.armies - 1, swar := p.swar ||| owner, kills := addFloat p.kills (toDouble (2 / 100)), armsbomb := p.armsbomb + 1,
           genoarmsbomb := p.genoarmsbomb + 1 }

/-- The ship after it took a planet. -/
def conquer (p : Player) : Player :=
  { p with armies := p.armies - 1, planets := p.planets + 1, genoplanets := p.genoplanets + 1, kills := addFloat p.kills (1 / 4) }

/-- The planet after it was taken. -/
def taken (team : Word) (l : Planet) : Planet :=
  { l with armies := l.armies + 1, flags := l.flags &&& ~~~plCheap, owner := team, info := team }

/-- The ship has its turn, and beams down an army at the planet it orbits. -/
structure Lands (c : Campaign) (i : Slot) : Prop where
  alive : (c.player i).status = .palive
  orbit : (c.player i).flags.has pfOrbit = true
  up : (c.player i).flags.has pfBeamUp = false
  down : (c.player i).flags.has pfBeamDown = true
  aboard : (c.player i).armies ≠ 0
  war : peaceful (c.player i) (c.planet (c.player i).planet) = false

/-- The checks before an army is beamed up. -/
structure MayLoad (c : Campaign) (i : Slot) : Prop where
  planet : (c.player i).flags.has pfOrbit = true → 5 ≤ (c.planet (c.player i).planet).armies
  own : (c.player i).flags.has pfOrbit = true → (c.player i).team = (c.planet (c.player i).planet).owner
  base : (c.player i).flags.has pfDock = true → 1 ≤ (c.player (c.player i).dockWith).armies
  room : (c.player i).armies < (c.player i).ship.maxArmies
  kills : (c.player i).ship.type ≠ .starbase → (c.player i).armies < capacity (c.player i)

/-- The planet is of another owner and still holds armies. -/
def hostile (c : Campaign) (i : Slot) : Bool :=
  let l := c.planet (c.player i).planet
  (c.player i).team != l.owner && l.armies != 0

/-- The planet after a hostile drop, before the check for a genocide. -/
def landed (c : Campaign) (i : Slot) : Campaign :=
  if ((invade c i).planet (c.player i).planet).armies = 0 then destroy (invade c i) i else invade c i

/-- The troops of the genocide that the hostile drop may be. -/
def raisedOn (c : Campaign) (i : Slot) : Nat :=
  let h := (c.player i).planet
  if ((invade c i).planet h).armies = 0 then raised (destroy (invade c i) i) (c.planet h).owner i else 0

/-- What a turn may leave. -/
inductive Turn (c : Campaign) (i : Slot) : Server → Prop
  | idle : Turn c i c.server
  | fromPlanet (orbit : (c.player i).flags.has pfOrbit = true) (may : MayLoad c i) :
      Turn c i ((c.server.modifyPlayer i load).modifyPlanet (c.player i).planet (gain (-1)))
  | fromBase (orbit : (c.player i).flags.has pfOrbit = false) (dock : (c.player i).flags.has pfDock = true)
      (alive : (c.player i).status = .palive) (may : MayLoad c i) :
      Turn c i ((c.server.modifyPlayer i load).modifyPlayer (c.player i).dockWith unload)
  | hostile (lands : Lands c i) (hostile : hostile c i = true) {s' : Server}
      (frame : Frame (landed c i).server s') {troops : Fin maxPlanets → Nat}
      (enlists : Enlists (c.player i).team (raisedOn c i) (landed c i).server s' troops) : Turn c i s'
  | takeOver (lands : Lands c i) (other : (c.player i).team ≠ (c.planet (c.player i).planet).owner)
      (empty : (c.planet (c.player i).planet).armies = 0) {s' : Server}
      (calm : Calm ((c.server.modifyPlayer i conquer).modifyPlanet (c.player i).planet (taken (c.player i).team)) s') :
      Turn c i s'
  | reinforce (lands : Lands c i) (own : (c.player i).team = (c.planet (c.player i).planet).owner) :
      Turn c i ((c.server.modifyPlayer i unload).modifyPlanet (c.player i).planet (gain 1))
  | transfer (dock : (c.player i).flags.has pfDock = true) (alive : (c.player i).status = .palive)
      (aboard : (c.player i).armies ≠ 0) (takes : baseTakes c.server i = true) :
      Turn c i ((c.server.modifyPlayer i unload).modifyPlayer (c.player i).dockWith load)

/-! ## Each of them -/

theorem server_beamUp_orbit {c : Campaign} {i : Slot} (ho : (c.player i).flags.has pfOrbit = true) :
    (beamUp c i).server =
      (c.server.modifyPlayer i load).modifyPlanet (c.player i).planet (gain (-1)) := by
  unfold beamUp
  rw [if_pos ho]
  exact server_updateArmiesCarried _ i none

theorem server_beamUp_dock {c : Campaign} {i : Slot} (ho : (c.player i).flags.has pfOrbit = false)
    (hd : (c.player i).flags.has pfDock = true) :
    (beamUp c i).server = (c.server.modifyPlayer i load).modifyPlayer (c.player i).dockWith unload := by
  unfold beamUp
  rw [if_neg (by simp [ho]), if_pos hd]
  exact server_updateArmiesCarried _ i (some (c.player i).dockWith)

theorem server_reinforce (c : Campaign) (i : Slot) :
    (reinforce c i).server = (c.server.modifyPlayer i unload).modifyPlanet (c.player i).planet (gain 1) :=
  server_updateArmies _ i _

theorem server_transfer (c : Campaign) (i : Slot) :
    (transfer c i).server = (c.server.modifyPlayer i unload).modifyPlayer (c.player i).dockWith load :=
  server_updateArmiesFerried _ i _

theorem server_invade (c : Campaign) (i : Slot) :
    (invade c i).server =
      (c.server.modifyPlayer i (attack (c.planet (c.player i).planet).owner)).modifyPlanet (c.player i).planet
        (gain (-1)) := by
  unfold invade
  exact (server_updateKillsMax _ i).trans (server_updateArmies _ i _)

/-- After a planet is taken, only the game changes. -/
theorem calm_takeOver (c : Campaign) (i : Slot) :
    Calm ((c.server.modifyPlayer i conquer).modifyPlanet (c.player i).planet (taken (c.player i).team))
      (takeOver c i).1.server := by
  unfold takeOver
  extract_lets h team c₁ c₂ c₃
  have hs : c₃.server =
      (c.server.modifyPlayer i conquer).modifyPlanet (c.player i).planet (taken (c.player i).team) :=
    (server_updateKillsMax _ i).trans ((server_updatePlanets _ i _).trans (server_updateArmies _ i _))
  have hcheck : Calm c₃.server (checkwin c₃.realm i).1.server := calm_checkwin c₃.realm i
  rw [← hs]
  generalize checkwin c₃.realm i = x at hcheck ⊢
  obtain ⟨r, won⟩ := x
  dsimp only
  split
  · exact hcheck
  · exact hcheck.trans ⟨rfl, rfl⟩

theorem player_invade (c : Campaign) (i j : Slot) : (invade c i).player j =
    if j = i then attack (c.planet (c.player i).planet).owner (c.player i) else c.player j := by
  show (invade c i).server.player j = _
  rw [server_invade, Server.player_modifyPlanet, Server.player_modifyPlayer]
  rfl

theorem planet_invade (c : Campaign) (i : Slot) (l : Fin maxPlanets) : (invade c i).planet l =
    if l = (c.player i).planet then gain (-1) (c.planet l) else c.planet l := by
  show (invade c i).server.planet l = _
  rw [server_invade, Server.planet_modifyPlanet]
  split
  · subst_vars
    rfl
  · rfl

theorem player_destroy (c : Campaign) (i j : Slot) : (destroy c i).player j = c.player j := by
  show (destroy c i).server.player j = c.server.player j
  unfold destroy
  exact congrArg (·.player j) (server_updatePlanets _ i _)

/-- The planet that is destroyed has no owner, and may be cheap. -/
theorem planet_destroy (c : Campaign) (i : Slot) : ∃ cheap, (cheap = plCheap ∨ cheap = 0) ∧
    ∀ l, (destroy c i).planet l = if l = (c.player i).planet then
      { c.planet l with flags := (c.planet l).flags ||| cheap, owner := nobody } else c.planet l := by
  unfold destroy
  extract_lets h c₁ c₂
  refine ⟨if undefended c₁.server (c₁.planet h) then plCheap else 0, ?_, fun l => ?_⟩
  · split
    · exact .inl rfl
    · exact .inr rfl
  · have hl : (c₂.onBook fun b => updatePlanets b i h).planet l = c₂.planet l :=
      congrArg (·.planet l) (server_updatePlanets _ i _)
    rw [hl]
    show (c₁.server.modifyPlanet h _).planet l = _
    rw [Server.planet_modifyPlanet]
    by_cases hlh : l = h
    · subst hlh
      rw [if_pos rfl, if_pos rfl]
      show Planet.mk (if undefended c₁.server (c₁.planet h) then _ else _) _ _ _ _ _ _ = Planet.mk _ _ _ _ _ _ _
      congr 1
      split
      · rfl
      · exact BitVec.or_zero.symm
    · rw [if_neg hlh, if_neg hlh]
      rfl

/-- After a hostile drop the ship has attacked, and the others are as they were. -/
theorem player_landed (c : Campaign) (i j : Slot) : (landed c i).player j =
    if j = i then attack (c.planet (c.player i).planet).owner (c.player i) else c.player j := by
  unfold landed
  split
  · rw [player_destroy, player_invade]
  · exact player_invade c i j

/-- After a hostile drop the planet has an army less, and without armies it has no owner. -/
theorem planet_landed (c : Campaign) (i : Slot) : ∃ cheap, (cheap = plCheap ∨ cheap = 0) ∧
    ∀ l, (landed c i).planet l = if l = (c.player i).planet then
      { c.planet l with
        armies := (c.planet l).armies - 1
        flags := (c.planet l).flags ||| cheap
        owner := if (c.planet l).armies = 1 then nobody else (c.planet l).owner } else c.planet l := by
  have harmies : ((invade c i).planet (c.player i).planet).armies = (c.planet (c.player i).planet).armies - 1 := by
    rw [planet_invade, if_pos rfl]
    rfl
  have hplanet : ((invade c i).player i).planet = (c.player i).planet := by
    rw [player_invade, if_pos rfl]
    rfl
  unfold landed
  rw [harmies]
  split
  · rename_i hlast
    obtain ⟨cheap, hc, h⟩ := planet_destroy (invade c i) i
    refine ⟨cheap, hc, fun l => ?_⟩
    rw [h, hplanet, planet_invade]
    split
    · rename_i hl
      subst hl
      rw [if_pos (by omega : (c.planet (c.player i).planet).armies = 1)]
      rfl
    · rfl
  · rename_i hlast
    refine ⟨0, .inr rfl, fun l => ?_⟩
    rw [planet_invade]
    split
    · rename_i hl
      subst hl
      rw [if_neg (by omega : ¬ (c.planet (c.player i).planet).armies = 1)]
      show Planet.mk _ _ _ _ _ _ _ = Planet.mk _ _ _ _ _ _ _
      congr 1
      simp
    · rfl

theorem frame_beamDownHostile (c : Campaign) (i : Slot) :
    Frame (landed c i).server (beamDownHostile c i).1.server := by
  unfold beamDownHostile landed
  dsimp only
  split
  · exact frame_checkgen _ _ _
  · exact .refl _

theorem enlists_beamDownHostile (c : Campaign) (i : Slot) :
    ∃ troops, Enlists (c.player i).team (raisedOn c i) (landed c i).server (beamDownHostile c i).1.server troops := by
  unfold beamDownHostile landed raisedOn
  dsimp only
  split
  · obtain ⟨troops, h⟩ := enlists_checkgen (destroy (invade c i) i) (c.planet (c.player i).planet).owner i
    have hteam : ((destroy (invade c i) i).player i).team = (c.player i).team := by
      rw [player_destroy, player_invade, if_pos rfl]
      rfl
    rw [← hteam]
    exact ⟨troops, h⟩
  · exact ⟨_, .none rfl⟩

/-! ## The turn -/

theorem MayLoad.of {c : Campaign} {i : Slot} (h : mayBeamUp c.server i = true) : MayLoad c i := by
  unfold mayBeamUp at h
  simp only [Bool.and_eq_true, Bool.not_eq_true', Bool.and_eq_false_iff, decide_eq_false_iff_not, Bool.or_eq_true,
    beq_iff_eq, decide_eq_true_eq, Bool.or_eq_false_iff, bne_eq_false_iff_eq] at h
  obtain ⟨⟨⟨⟨hplanet, hbase⟩, hroom⟩, hkills⟩, hown⟩ := h
  refine ⟨fun ho => ?_, fun ho => ?_, fun hd => ?_, hroom, fun hs => hkills.resolve_left hs⟩
  · have := hplanet.resolve_left (by rw [show (c.server.player i).flags.has pfOrbit = true from ho]; decide)
    show 5 ≤ (c.server.planet (c.server.player i).planet).armies
    omega
  · exact (hown.resolve_left (by rw [show (c.server.player i).flags.has pfOrbit = true from ho]; decide)).1
  · have := hbase.resolve_left (by rw [show (c.server.player i).flags.has pfDock = true from hd]; decide)
    show 1 ≤ (c.server.player (c.server.player i).dockWith).armies
    omega

theorem has_union (w a b : Word) : w.has (a ||| b) = (w.has a || w.has b) := by
  rw [Bool.eq_iff_iff, Bool.or_eq_true, Word.has_iff, Word.has_iff, Word.has_iff, BitVec.and_or_distrib_left]
  constructor
  · intro h
    by_contra hc
    rw [not_or, not_not, not_not] at hc
    rw [hc.1, hc.2] at h
    exact h rfl
  · intro h hz
    obtain ⟨ha, hb⟩ := BitVec.or_eq_zero_iff.1 hz
    exact h.elim (fun h => h ha) fun h => h hb

theorem turn_beamUp {c : Campaign} {i : Slot} (ha : (c.player i).status = .palive) (hm : moored (c.player i) = true)
    (hmay : mayBeamUp c.server i = true) : Turn c i (beamUp c i).server := by
  cases ho : (c.player i).flags.has pfOrbit with
  | true =>
    rw [server_beamUp_orbit ho]
    exact .fromPlanet ho (.of hmay)
  | false =>
    have hd : (c.player i).flags.has pfDock = true := by
      rwa [moored, has_union, ho, Bool.false_or] at hm
    rw [server_beamUp_dock ho hd]
    exact .fromBase ho hd ha (.of hmay)

/-- A turn in which the ship beams down. -/
theorem turn_beamDown {c : Campaign} {i : Slot} (ha : (c.player i).status = .palive)
    (hup : (c.player i).flags.has pfBeamUp = false) (hdown : (c.player i).flags.has pfBeamDown = true) :
    Turn c i (beamDown c i).1.server := by
  unfold beamDown
  dsimp only
  split
  · exact .idle
  rename_i haboard
  split
  · rename_i ho
    split
    · exact .idle
    rename_i hwar
    have hl : Lands c i := ⟨ha, ho, hup, hdown, haboard, Bool.eq_false_of_not_eq_true hwar⟩
    split
    · rename_i hother
      split
      · rename_i harmies
        obtain ⟨troops, h⟩ := enlists_beamDownHostile c i
        refine .hostile hl ?_ (frame_beamDownHostile c i) h
        unfold hostile
        simp only [Bool.and_eq_true, bne_iff_ne]
        exact ⟨hother, harmies⟩
      · rename_i harmies
        exact .takeOver hl hother (by omega) (calm_takeOver c i)
    · rename_i hown
      rw [server_reinforce]
      exact .reinforce hl (by simpa using hown)
  split
  · rename_i hd
    split
    · rename_i htakes
      rw [server_transfer]
      exact .transfer hd ha haboard htakes
    · exact .idle
  · exact .idle

/-- The turn of a ship moves an army in one of these ways, or none. -/
theorem turn_beamOn (c : Campaign) (i : Slot) : Turn c i (beamOn c i).1.server := by
  unfold beamOn
  dsimp only
  split
  · exact .idle
  rename_i hactive
  simp only [not_or, not_not, Bool.not_eq_false] at hactive
  split
  · rename_i hup
    split
    · exact turn_beamUp hactive.1 hactive.2 ‹_›
    · exact .idle
  rename_i hup
  split
  · exact turn_beamDown hactive.1 (Bool.eq_false_of_not_eq_true hup) ‹_›
  · exact .idle

end Netrek.Beam
