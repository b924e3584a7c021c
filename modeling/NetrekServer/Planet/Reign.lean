/-
Over any run of the daemon and of the players' coups, planets have armies exactly while they have owners;
as long as no ship of no team drops an army on a planet of nobody, or wipes out a race.
-/
import NetrekServer.Planet.Ownership

namespace Netrek.Planets

open Daemon Empire Beam War Netrek.Lib

/-! ## What a step upholds -/

/-- Live players and planets keep to the teams, and planets in order. -/
structure Upholds (s s' : Server) : Prop where
  lawful : Lawful s → Lawful s'
  tends : Tends s s'

theorem Upholds.refl (s : Server) : Upholds s s := ⟨id, .refl s⟩

theorem Upholds.trans {s s' s'' : Server} (h : Upholds s s') (h' : Upholds s' s'') : Upholds s s'' :=
  ⟨fun hl => h'.lawful (h.lawful hl), h.tends.trans h'.tends⟩

theorem Upholds.foldl {α : Type} {f : Server → α → Server} (hf : ∀ s a, Upholds s (f s a)) :
    ∀ (as : List α) (s : Server), Upholds s (as.foldl f s)
  | [], s => .refl s
  | a :: as, s => (hf s a).trans (Upholds.foldl hf as _)

theorem Settled.upholds {s s' : Server} (hs : Settled s) (h : Upholds s s') : Settled s' :=
  hs.of (h.lawful hs.lawful) h.tends

/-- Players change, but not their teams. -/
theorem Upholds.of_peace {s s' : Server} (h : Peace s s') (hp : s'.mem.planets = s.mem.planets) : Upholds s s' :=
  ⟨(h.keeps 0).lawful, .of_planets hp⟩

theorem Upholds.modifyPlayer (s : Server) (i : Slot) {f : Player → Player} (hf : ∀ p, masks (f p) = masks p)
    (ha : ∀ p, (f p).status = .palive → p.status = .palive) : Upholds s (s.modifyPlayer i f) :=
  .of_peace (.modifyPlayer s i hf ha) rfl

theorem upholds_draw (s : Server) : Upholds s s.draw.2 := .of_peace (.of_mem rfl rfl) rfl

theorem upholds_plfight (s : Server) : Upholds s (plfight s) := ⟨(keeps_plfight 0 s).lawful, tends_plfight s⟩

/-- A planet that thrives and had armies stays in order. -/
theorem upholds_popPlanet (g : Populace) (plnum : Int) (hm : ∀ l, (g.server.planet l).armies ≤ 4000) :
    Upholds g.server (popPlanet g plnum).server := by
  have hat (l : Fin maxPlanets) : Upholds g.server (popAt g l) := by
    rcases thrives_popAt g (hm l) with h | ⟨hz, h⟩
    · rw [h]
      exact .refl _
    have hplanet (k : Fin maxPlanets) (hk : k = l) : ((popAt g l).planet k).owner = (g.server.planet k).owner := by
      rw [hk]
      exact h.owner
    have hfree : Keeps 0 g.server (popAt g l) := by
      refine .of_planets 0 (fun i => congrFun h.players i) (fun hl k => ?_) fun k => ?_
      · by_cases hk : k = l
        · rw [hplanet k hk]
          exact hl.owner k
        · rw [h.other k hk]
          exact hl.owner k
      · by_cases hk : k = l
        · have hmask (w : Word) : w &&& nativeFlags &&& allTeam = w &&& allTeam := by
            rw [BitVec.and_assoc, show nativeFlags &&& allTeam = allTeam by decide]
          rw [hk, ← hmask, h.flags, hmask]
        · rw [h.other k hk]
    refine ⟨hfree.lawful, fun k => ?_⟩
    by_cases hk : k = l
    · subst hk
      exact .of_armies h.owner h.flags h.armies fun hzero => absurd hzero hz
    · rw [h.other k hk]
      exact .refl _
  unfold popPlanet
  dsimp only
  split
  · exact hat _
  · exact .refl _

/-! ## Coups -/

/-- A coup is thrown at home. -/
theorem upholds_coup (c : Campaign) (me : Slot) : Upholds c.server (coup c me).server := by
  have hrefuse (text : String) : Upholds c.server (refuse c me text).server := .of_peace (.of_mem rfl rfl) rfl
  unfold coup
  extract_lets p l
  split
  · exact hrefuse _
  split
  · exact hrefuse _
  split
  · exact hrefuse _
  split
  · exact hrefuse _
  rename_i hhome
  split
  · exact hrefuse _
  split
  · exact hrefuse _
  split
  · exact .refl _
  have hplanet : Upholds c.server (c.server.modifyPlanet p.planet fun l => { l with flags := l.flags ||| plCoup }) := by
    have hpeace : Peace c.server (c.server.modifyPlanet p.planet fun l => { l with flags := l.flags ||| plCoup }) :=
      .modifyPlanet _ _ (fun _ => rfl) fun l => and_allTeam_or l.flags (by decide)
    refine ⟨(hpeace.keeps 0).lawful, ?_⟩
    refine .modifyPlanet _ _ ⟨fun hp _ => ⟨hp.nonneg, hp.owned⟩, fun hn _ => ?_⟩
    rw [Bool.or_eq_true, not_or, Bool.not_eq_true', Bool.not_eq_false] at hhome
    show ((c.server.planet p.planet).flags ||| plCoup) &&& allTeam ≠ nobody
    rw [and_allTeam_or _ (by decide)]
    exact hn (by rw [has_union]; exact Bool.or_eq_true_iff.2 (.inl hhome.1))
  exact hplanet.trans (.modifyPlayer _ me (fun _ => rfl) fun _ => id)

/-! ## Surrender -/

theorem upholds_sendTerminator (s : Server) (j : Slot) : Upholds s (sendTerminator s j) := by
  unfold sendTerminator
  dsimp only
  split
  · exact upholds_draw s
  · exact .refl s

theorem upholds_bumpObserver (s : Server) (j : Slot) : Upholds s (bumpObserver s j) := by
  unfold bumpObserver
  dsimp only
  split
  · exact .modifyPlayer s j (fun _ => rfl) fun _ ha => by cases ha
  · exact .refl s

theorem upholds_dismiss (t : Word) (s : Server) (j : Slot) : Upholds s (dismiss t s j) := by
  unfold dismiss
  extract_lets s₁
  have h₁ : Upholds s s₁ := by
    show Upholds s (if _ then _ else s)
    split
    · exact .modifyPlayer s j (fun _ => rfl) fun _ => id
    · exact .refl s
  split
  · exact h₁.trans (.modifyPlayer s₁ j (fun _ => rfl) fun _ ha => by cases ha)
  · exact h₁

/-- A planet that is given up has neither armies nor an owner. -/
theorem upholds_neutralise (t : Word) (c : Campaign) (l : Fin maxPlanets) :
    Upholds c.server (neutralise t c l).server := by
  unfold neutralise
  extract_lets c₁
  have h₁ : Upholds c.server c₁.server := by
    show Upholds c.server (if _ then _ else c : Campaign).server
    split
    · exact upholds_draw _
    · exact .refl _
  split
  · refine h₁.trans ⟨(keeps_modifyPlanet _ 0 l (fun _ => List.mem_cons_self) (and_allTeam_or _ (by decide))).lawful, ?_⟩
    refine .modifyPlanet _ _ ⟨fun _ _ => ⟨Int.le_refl 0, ⟨fun _ => rfl, fun _ => rfl⟩⟩, ?_⟩
    exact .congr (and_or_of_disjoint _ (by decide))
  · exact h₁

theorem upholds_terminateRace (c : Campaign) (t : Word) : Upholds c.server (terminateRace c t).server := by
  have hplanets : ∀ (ls : List (Fin maxPlanets)) (c : Campaign), Upholds c.server (ls.foldl (neutralise t) c).server := by
    intro ls
    induction ls with
    | nil => exact fun c => .refl _
    | cons l ls ih => exact fun c => (upholds_neutralise t c l).trans (ih _)
  have hfree := hplanets (List.finRange maxPlanets) c
  unfold terminateRace
  generalize (List.finRange maxPlanets).foldl (neutralise t) c = c₁ at hfree ⊢
  generalize List.finRange maxPlayer = js
  exact hfree.trans (.foldl (upholds_dismiss t) js c₁.server)

theorem upholds_countdown (c : Campaign) (t : Word) : Upholds c.server (countdown c t).server := by
  unfold countdown
  split
  · exact .refl _
  split
  · exact .refl _
  dsimp only
  split
  · exact upholds_terminateRace (modifyTeam c t _) t
  · exact .refl _

theorem upholds_forTeams {f : Campaign → Word → Campaign} (hf : ∀ c t, Upholds c.server (f c t).server) (c : Campaign) :
    Upholds c.server (forTeams f c).server := by
  unfold forTeams
  generalize List.range (maxTeam + 1) = ts
  induction ts generalizing c with
  | nil => exact .refl _
  | cons t ts ih => exact (hf c _).trans (ih _)

theorem upholds_udsurrend (c : Campaign) : Upholds c.server (udsurrend c).server := by
  have hturns := upholds_forTeams (fun c t => .refl (modifyTeam c t fun x => { x with turns := x.turns - 1 }).server) c
  unfold udsurrend
  generalize forTeams (fun c t => modifyTeam c t fun x => { x with turns := x.turns - 1 }) c = c₁ at hturns ⊢
  generalize List.finRange maxPlayer = js
  extract_lets c c₂ c₃ c₄
  split
  · exact hturns
  · have h₃ : Upholds c₂.server c₃.server := .foldl upholds_sendTerminator js c₂.server
    have h₄ : Upholds c₃.server c₄.server := .foldl upholds_bumpObserver js c₃.server
    exact ((hturns.trans h₃).trans h₄).trans (upholds_forTeams upholds_countdown c₄)

/-! ## Runs -/

/-- What changes owners or armies, and anything else; a planet is populated with what the daemon keeps for that. -/
inductive Op
  | plfight
  | beam
  | popPlanet (g : Populace) (plnum : Int)
  | udsurrend
  | coup (me : Slot)
  | others (c : Campaign)

def step (c : Campaign) : Op → Campaign
  | .plfight => c.onServer Daemon.plfight
  | .beam => (Beam.beam c).1
  | .popPlanet g plnum => c.onServer fun s => (Planets.popPlanet { g with server := s } plnum).server
  | .udsurrend => Planets.udsurrend c
  | .coup me => Planets.coup c me
  | .others c' => c'

/-- The planets are the same, but for what is of no interest here. -/
structure Untouched (c c' : Campaign) : Prop where
  lawful : Lawful c'.server
  armies : ∀ l, (c'.planet l).armies = (c.planet l).armies
  owner : ∀ l, (c'.planet l).owner = (c.planet l).owner
  flags : ∀ l, (c'.planet l).flags &&& nativeFlags = (c.planet l).flags &&& nativeFlags

/-- No planet has more than 4000 armies, no ship strays in a pass, and all else leaves the planets alone. -/
structure Allowed (c : Campaign) (op : Op) : Prop where
  armies : ∀ l, (c.planet l).armies ≤ 4000
  straight : op = .beam → Straight (List.finRange maxPlayer) c
  others : ∀ c', op = .others c' → Untouched c c'

/-- Every operation that is allowed leaves what is settled. -/
theorem settled_step {c : Campaign} {op : Op} (ha : Allowed c op) (hs : Settled c.server) :
    Settled (step c op).server := by
  cases op with
  | plfight =>
    unfold step Campaign.onServer
    dsimp only
    exact hs.upholds (upholds_plfight c.server)
  | beam => exact settled_beam hs (ha.straight rfl)
  | popPlanet g plnum => exact hs.upholds (upholds_popPlanet { g with server := c.server } plnum ha.armies)
  | udsurrend => exact hs.upholds (upholds_udsurrend c)
  | coup me => exact hs.upholds (upholds_coup c me)
  | others c' =>
    obtain ⟨hl, harmies, howner, hflags⟩ := ha.others c' rfl
    refine hs.of hl fun l => ⟨fun hp _ => ?_, .congr (hflags l)⟩
    refine ⟨?_, ?_⟩
    · show 0 ≤ (c'.planet l).armies
      rw [harmies]
      exact hp.nonneg
    · show (c'.planet l).armies = 0 ↔ (c'.planet l).owner = nobody
      rw [harmies, howner]
      exact hp.owned

/-- In a run in which no ship strays, every planet always has armies or no owner. -/
theorem planets_peopled {c c' : Campaign} {ops : List Op} (hs : Settled c.server) (h : Run Allowed step c ops c') :
    ∀ l, Peopled (c'.planet l) := by
  have hs' : Settled c'.server := h.inv (fun _ _ => settled_step) hs
  exact hs'.peopled

/-- With everyone on a team, no ship strays. -/
theorem straight_of_teams : ∀ (is : List Slot) {c : Campaign}, (∀ j, (c.player j).team ≠ nobody) → Straight is c
  | [], _, _ => trivial
  | i :: is, c, h => by
    refine ⟨fun hs => h i hs.stateless, fun _ => straight_of_teams is fun j => ?_⟩
    have hteam := (keeps_beamOn j c i).team
    rw [show ((beamOn c i).1.player j).team = (c.player j).team from hteam]
    exact h j

/-- A ship of the Federation takes a planet of nobody, and the daemon goes on. -/
def federal : Campaign :=
  { (default : Campaign) with
    server := { (default : Server) with
      mem := { (default : Memory) with
        players := fun i => { (default : Player) with
          status := if i.val = 0 then .palive else .pfree
          team := fed
          flags := if i.val = 0 then pfOrbit ||| pfBeamDown else 0
          armies := if i.val = 0 then 1 else 0
          planet := 0 }
        planets := fun _ => { (default : Planet) with owner := nobody, flags := fed, armies := 0 } } } }

theorem planets_peopled_federal : ((step federal .beam).planet 0).owner = fed ∧
    ∀ l, Peopled ((step (step (step federal .beam) .plfight) (.coup 0)).planet l) := by
  have hs : Settled federal.server := by
    refine ⟨⟨fun j _ => ?_, fun l => List.mem_cons_self, fun l => ?_⟩, fun l => ?_, fun l _ => ?_⟩
    · show fed ∈ nobody :: fourTeams
      decide
    · show fed &&& allTeam ∈ nobody :: fourTeams
      decide
    · exact ⟨Int.le_refl 0, ⟨fun _ => rfl, fun _ => rfl⟩⟩
    · show fed &&& allTeam ≠ nobody
      decide
  have hteams (j : Slot) : (federal.player j).team ≠ nobody := by
    show fed ≠ nobody
    decide
  have h₀ : Allowed federal .beam :=
    ⟨by decide +kernel, fun _ => straight_of_teams _ hteams, fun _ h => by cases h⟩
  have h₁ : Allowed (step federal .beam) .plfight :=
    ⟨by decide +kernel, fun h => (by cases h), fun _ h => by cases h⟩
  have h₂ : Allowed (step (step federal .beam) .plfight) (.coup 0) :=
    ⟨by decide +kernel, fun h => (by cases h), fun _ h => by cases h⟩
  exact ⟨by decide +kernel, planets_peopled hs (.cons h₀ (.cons h₁ (.cons h₂ (.nil _))))⟩

/-! ## Ships of no team -/

/-- A ship of no team drops the army it has aboard on a planet of nobody. -/
def independent : Campaign :=
  { (default : Campaign) with
    server := { (default : Server) with
      mem := { (default : Memory) with
        players := fun i => { (default : Player) with
          status := if i.val = 0 then .palive else .pfree
          team := nobody
          flags := if i.val = 0 then pfOrbit ||| pfBeamDown else 0
          armies := if i.val = 0 then 1 else 0
          planet := 0 }
        planets := fun l => { (default : Planet) with
          owner := if l.val = 0 then nobody else fed
          flags := fed
          armies := if l.val = 0 then 0 else 5 } } } }

/-- What is settled does not keep such a ship away. -/
theorem settled_independent : Settled independent.server := by
  refine ⟨⟨fun _ _ => List.mem_cons_self, fun l => ?_, fun l => ?_⟩, fun l => ?_, fun l => ?_⟩
  · show (if l.val = 0 then nobody else fed) ∈ _
    split <;> decide
  · show fed &&& allTeam ∈ _
    decide
  · by_cases hl : l.val = 0
    · refine ⟨?_, ?_⟩
      · show (0 : Int) ≤ if l.val = 0 then 0 else 5
        rw [if_pos hl]
      · show (if l.val = 0 then (0 : Int) else 5) = 0 ↔ (if l.val = 0 then nobody else fed) = nobody
        rw [if_pos hl, if_pos hl]
        exact ⟨fun _ => rfl, fun _ => rfl⟩
    · refine .of_pos ?_ ?_
      · show (0 : Int) < if l.val = 0 then 0 else 5
        rw [if_neg hl]
        decide
      · show (if l.val = 0 then nobody else fed) ≠ nobody
        rw [if_neg hl]
        decide
  · intro _
    show fed &&& allTeam ≠ nobody
    decide

/-- The planet then has an army, and still no owner. -/
theorem no_owner_independent : Settled independent.server ∧ (∀ l, (independent.planet l).armies ≤ 4000) ∧
    ¬ Peopled ((step independent .beam).planet 0) := by
  refine ⟨settled_independent, fun l => ?_, fun h => ?_⟩
  · show (if l.val = 0 then (0 : Int) else 5) ≤ 4000
    split <;> decide
  · have harmies : ((step independent .beam).planet 0).armies = 1 := by decide +kernel
    have howner : ((step independent .beam).planet 0).owner = nobody := by decide +kernel
    have hzero := h.owned.2 howner
    rw [harmies] at hzero
    exact absurd hzero (by decide)

end Netrek.Planets
