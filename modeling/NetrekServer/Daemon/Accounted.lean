/-
What is recorded of a ship as the daemon runs: it is hurt only while it is alive, and its death, with
at most one kill, ends its story. `Accounted` says so of every ship between two states, and that each
death is counted as one loss; it composes, so that a routine is accounted for change by change.
-/
import Mathlib.Data.Finset.Card
import Mathlib.Data.Fintype.Basic
import NetrekServer.Daemon.Damage

namespace Netrek.Daemon

/-! ## What the records tell of a ship -/

/-- A record of damage to the ship `j`, of its death, or of the kill. -/
def Tells (j : Slot) : Event → Prop
  | .hurt _ i | .death i _ | .kill _ _ i => i = j
  | _ => False

instance (j : Slot) : DecidablePred (Tells j) := fun e => by
  cases e <;> unfold Tells <;> infer_instance

/-- The records of one ship, newest first. -/
def story (j : Slot) (log : List Event) : List Event := log.filter (Tells j)

def IsHurt (j : Slot) (e : Event) : Prop := ∃ k, e = .hurt k j

def IsKill (j : Slot) (e : Event) : Prop := ∃ credit actual, e = .kill credit actual j

/-- The status of a ship before and after, and what is recorded of it in between. -/
inductive Fate (j : Slot) : PStatus → PStatus → List Event → Prop
  /-- Nothing is recorded of a ship, dead or alive. -/
  | none (p : PStatus) : Fate j p p []
  /-- A living ship is hurt. -/
  | hurt {hs : List Event} : (∀ e ∈ hs, IsHurt j e) → Fate j .palive .palive hs
  /-- A living ship is hurt and dies. -/
  | death {ks hs : List Event} (credit : Option Slot) : ks.length ≤ 1 → (∀ e ∈ ks, IsKill j e) →
      (∀ e ∈ hs, IsHurt j e) → Fate j .palive .pexplode (.death j credit :: (ks ++ hs))

/-- What becomes of a player in two parts of a tick. -/
theorem Fate.trans {j : Slot} {a b c : PStatus} {new new' : List Event} (h : Fate j a b new) (h' : Fate j b c new') :
    Fate j a c (new' ++ new) := by
  cases h with
  | none => rw [List.append_nil]; exact h'
  | hurt hs =>
    cases h' with
    | none => exact .hurt hs
    | hurt hs' =>
      refine .hurt fun e he => ?_
      rcases List.mem_append.1 he with he | he
      · exact hs' e he
      · exact hs e he
    | death credit hlen hks hs' =>
      rw [List.cons_append, List.append_assoc]
      refine .death credit hlen hks fun e he => ?_
      rcases List.mem_append.1 he with he | he
      · exact hs' e he
      · exact hs e he
  | death credit hlen hks hs =>
    cases h' with
    | none => exact .death credit hlen hks hs

/-- A death is recorded once. -/
theorem Fate.death_once {j : Slot} {a b : PStatus} {e : Event} {new : List Event} (h : Fate j a b (e :: new))
    (credit : Option Slot) : .death j credit ∉ new := by
  intro hmem
  cases h with
  | hurt hs =>
    obtain ⟨k, hk⟩ := hs _ (List.mem_cons_of_mem _ hmem)
    cases hk
  | death credit' hlen hks hs =>
    rcases List.mem_append.1 hmem with hm | hm
    · obtain ⟨c, a, hk⟩ := hks _ hm
      cases hk
    · obtain ⟨k, hk⟩ := hs _ hm
      cases hk

/-! ## Accounting -/

/-- Shield and damage of a ship are as they were, or `killmess` healed it after a dogfight. -/
def Unhurt (s : Server) (p p' : Player) : Prop :=
  (p'.shield = p.shield ∧ p'.damage = p.damage) ∨ (s.setup.dogfight = true ∧ p'.shield = p.ship.maxShield ∧ p'.damage = 0)

/-- The ships that died between two states. -/
def dead (s s' : Server) : Finset Slot :=
  Finset.univ.filter fun j => (s.player j).status = .palive ∧ (s'.player j).status = .pexplode

/-- Every death between two states is recorded once and counted once. -/
structure Accounted (s s' : Server) : Prop where
  setup : s'.setup = s.setup
  ship : ∀ j, (s'.player j).ship = (s.player j).ship
  tourn : s'.mem.status.tourn = s.mem.status.tourn
  fate : ∀ j, ∃ new, story j s'.log = new ++ story j s.log ∧ Fate j (s.player j).status (s'.player j).status new
  unhurt : ∀ j, (s.player j).status ≠ .palive → Unhurt s (s.player j) (s'.player j)
  losses : s'.mem.status.losses = s.mem.status.losses + if s.mem.status.tourn then (dead s s').card else 0

theorem dead_self (s : Server) : dead s s = ∅ := by
  refine Finset.filter_eq_empty_iff.2 fun j _ h => ?_
  rw [h.1] at h
  exact absurd h.2 (by decide)

theorem Unhurt.trans {s s' : Server} {p p' p'' : Player} (hsetup : s'.setup = s.setup) (hship : p'.ship = p.ship)
    (h : Unhurt s p p') (h' : Unhurt s' p' p'') : Unhurt s p p'' := by
  rcases h' with ⟨h1, h2⟩ | ⟨hd, h1, h2⟩
  · rcases h with ⟨h3, h4⟩ | ⟨hd, h3, h4⟩
    · exact .inl ⟨h1.trans h3, h2.trans h4⟩
    · exact .inr ⟨hd, h1.trans h3, h2.trans h4⟩
  · rw [hsetup] at hd
    rw [hship] at h1
    exact .inr ⟨hd, h1, h2⟩

namespace Accounted

theorem refl (s : Server) : Accounted s s where
  setup := rfl
  ship _ := rfl
  tourn := rfl
  fate _ := ⟨[], rfl, .none _⟩
  unhurt _ _ := .inl ⟨rfl, rfl⟩
  losses := by rw [dead_self, Finset.card_empty, ite_self, Nat.add_zero]

/-- A ship that is not alive keeps its status. -/
theorem status_of_not_alive {s s' : Server} (h : Accounted s s') {j : Slot} (hj : (s.player j).status ≠ .palive) :
    (s'.player j).status = (s.player j).status := by
  obtain ⟨new, -, hf⟩ := h.fate j
  generalize hp : (s.player j).status = p at *
  generalize (s'.player j).status = p' at *
  cases hf with
  | none => rfl
  | hurt hs => exact absurd rfl hj
  | death credit hlen hks hs => exact absurd rfl hj

/-- A living ship stays alive or explodes. -/
theorem status_of_alive {s s' : Server} (h : Accounted s s') {j : Slot} (hj : (s.player j).status = .palive) :
    (s'.player j).status = .palive ∨ (s'.player j).status = .pexplode := by
  obtain ⟨new, -, hf⟩ := h.fate j
  rw [hj] at hf
  generalize (s'.player j).status = p' at *
  cases hf with
  | none => exact .inl rfl
  | hurt hs => exact .inl rfl
  | death credit hlen hks hs => exact .inr rfl

/-- Who has died in two parts of a tick has died in one of them. -/
theorem dead_trans {s s' s'' : Server} (h : Accounted s s') (h' : Accounted s' s'') :
    (dead s s'').card = (dead s s').card + (dead s' s'').card := by
  have hunion : dead s s'' = dead s s' ∪ dead s' s'' := by
    ext j
    simp only [dead, Finset.mem_union, Finset.mem_filter, Finset.mem_univ, true_and]
    constructor
    · rintro ⟨ha, he⟩
      rcases h.status_of_alive ha with hs | hs
      · exact .inr ⟨hs, he⟩
      · exact .inl ⟨ha, hs⟩
    · rintro (⟨ha, he⟩ | ⟨ha, he⟩)
      · exact ⟨ha, by rw [h'.status_of_not_alive (by rw [he]; decide), he]⟩
      · refine ⟨?_, he⟩
        by_contra hn
        rw [h.status_of_not_alive hn] at ha
        exact hn ha
  rw [hunion, Finset.card_union_of_disjoint]
  refine Finset.disjoint_left.2 fun j h1 h2 => ?_
  simp only [dead, Finset.mem_filter] at h1 h2
  rw [h1.2.2] at h2
  exact absurd h2.2.1 (by decide)

/-- Two parts of a tick, each accounted for. -/
theorem trans {s s' s'' : Server} (h : Accounted s s') (h' : Accounted s' s'') : Accounted s s'' where
  setup := h'.setup.trans h.setup
  ship j := (h'.ship j).trans (h.ship j)
  tourn := h'.tourn.trans h.tourn
  fate j := by
    obtain ⟨new, hnew, hf⟩ := h.fate j
    obtain ⟨new', hnew', hf'⟩ := h'.fate j
    refine ⟨new' ++ new, ?_, hf.trans hf'⟩
    rw [hnew', hnew, List.append_assoc]
  unhurt j hj := by
    have hj' : (s'.player j).status ≠ .palive := by rw [h.status_of_not_alive hj]; exact hj
    exact (h.unhurt j hj).trans h.setup (h.ship j) (h'.unhurt j hj')
  losses := by
    rw [h'.losses, h.losses, h.tourn, h.dead_trans h']
    split <;> omega

/-- The rule for loops. -/
theorem foldl {α : Type} {f : Server → α → Server} (hf : ∀ s a, Accounted s (f s a)) :
    ∀ (l : List α) (s : Server), Accounted s (l.foldl f s)
  | [], s => refl s
  | a :: l, s => (hf s a).trans (foldl hf l (f s a))

end Accounted

/-! ## Single changes -/

/-- What deaths depend on is the same. -/
structure Same (p p' : Player) : Prop where
  status : p'.status = p.status
  ship : p'.ship = p.ship
  shield : p'.shield = p.shield
  damage : p'.damage = p.damage

theorem Same.refl (p : Player) : Same p p := ⟨rfl, rfl, rfl, rfl⟩

theorem Same.trans {p p' p'' : Player} (h : Same p p') (h' : Same p' p'') : Same p p'' :=
  ⟨h'.status.trans h.status, h'.ship.trans h.ship, h'.shield.trans h.shield, h'.damage.trans h.damage⟩

theorem same_modifyPlayer {s : Server} {j : Slot} {f : Player → Player} (hf : Same (s.player j) (f (s.player j)))
    (i : Slot) : Same (s.player i) ((s.modifyPlayer j f).player i) := by
  rw [Server.player_modifyPlayer]
  split
  · subst i; exact hf
  · exact .refl _

theorem same_killerCredit (s : Server) (killer died i : Slot) :
    Same (s.player i) ((killerCredit s killer died).player i) := same_modifyPlayer ⟨rfl, rfl, rfl, rfl⟩ i

/-- A count leaves everything but the status of the game. -/
theorem countTourn_frame (s : Server) (f : Status → Status) :
    (∀ i, (countTourn s f).player i = s.player i) ∧ (countTourn s f).log = s.log ∧
      (countTourn s f).setup = s.setup := by
  unfold countTourn
  split <;> exact ⟨fun _ => rfl, rfl, rfl⟩

theorem tourn_countTourn (s : Server) {f : Status → Status} (hf : (f s.mem.status).tourn = s.mem.status.tourn) :
    (countTourn s f).mem.status.tourn = s.mem.status.tourn := by
  unfold countTourn
  split
  · exact hf
  · rfl

theorem losses_countTourn (s : Server) {f : Status → Status} {n : Nat} (hf : (f s.mem.status).losses = s.mem.status.losses + n) :
    (countTourn s f).mem.status.losses = s.mem.status.losses + if s.mem.status.tourn then n else 0 := by
  unfold countTourn
  split
  · exact hf
  · rfl

/-- Damage changes neither the status nor the ship. -/
theorem inflict_status (p : Player) (d : Int) : (inflict p d).status = p.status ∧ (inflict p d).ship = p.ship := by
  unfold inflict
  split
  · split <;> exact ⟨rfl, rfl⟩
  · exact ⟨rfl, rfl⟩

namespace Accounted

/-- Nothing that deaths depend on changes. -/
theorem of_same {s s' : Server} (hsame : ∀ j, Same (s.player j) (s'.player j)) (hsetup : s'.setup = s.setup)
    (hstatus : s'.mem.status.tourn = s.mem.status.tourn ∧ s'.mem.status.losses = s.mem.status.losses)
    (hstory : ∀ j, story j s'.log = story j s.log) : Accounted s s' where
  setup := hsetup
  ship j := (hsame j).ship
  tourn := hstatus.1
  fate j := ⟨[], hstory j, by rw [(hsame j).status]; exact .none _⟩
  unhurt j _ := .inl ⟨(hsame j).shield, (hsame j).damage⟩
  losses := by
    have hnone : dead s s' = ∅ := by
      refine Finset.filter_eq_empty_iff.2 fun j _ h => ?_
      rw [(hsame j).status, h.1] at h
      exact absurd h.2 (by decide)
    rw [hnone, Finset.card_empty, ite_self, Nat.add_zero]
    exact hstatus.2

theorem modifyPlayer {s : Server} {j : Slot} {f : Player → Player} (hf : Same (s.player j) (f (s.player j))) :
    Accounted s (s.modifyPlayer j f) := of_same (same_modifyPlayer hf) rfl ⟨rfl, rfl⟩ fun _ => rfl

theorem modifyTorp (s : Server) (k : Nat) (f : Torp → Torp) : Accounted s (s.modifyTorp k f) :=
  of_same (fun _ => .refl _) rfl ⟨rfl, rfl⟩ fun _ => rfl

theorem modifyPlanet (s : Server) (l : Fin maxPlanets) (f : Planet → Planet) : Accounted s (s.modifyPlanet l f) :=
  of_same (fun _ => .refl _) rfl ⟨rfl, rfl⟩ fun _ => rfl

theorem modifyPhaser (s : Server) (i : Slot) (f : Phaser → Phaser) : Accounted s (s.modifyPhaser i f) :=
  of_same (fun _ => .refl _) rfl ⟨rfl, rfl⟩ fun _ => rfl

/-- A record that tells of no ship. -/
theorem record (s : Server) (e : Event) (he : ∀ j, ¬ Tells j e) : Accounted s (s.record e) :=
  of_same (fun _ => .refl _) rfl ⟨rfl, rfl⟩ fun j => List.filter_cons_of_neg (by simpa using he j)

/-- The record that a living ship is hurt. -/
theorem record_hurt {s : Server} {j : Slot} (k : Option Nat) (hj : (s.player j).status = .palive) :
    Accounted s (s.record (.hurt k j)) where
  setup := rfl
  ship _ := rfl
  tourn := rfl
  fate i := by
    by_cases hi : i = j
    · subst i
      refine ⟨[.hurt k j], List.filter_cons_of_pos (by simp [Tells]), ?_⟩
      rw [Server.player_record, hj]
      refine .hurt fun e he => ⟨k, ?_⟩
      rwa [List.mem_singleton] at he
    · exact ⟨[], List.filter_cons_of_neg (by rw [decide_eq_true_iff]; exact Ne.symm hi), .none _⟩
  unhurt _ _ := .inl ⟨rfl, rfl⟩
  losses := (refl s).losses

/-- A living ship takes damage. -/
theorem inflict {s : Server} {j : Slot} {f : Player → Player} (hj : (s.player j).status = .palive)
    (hf : (f (s.player j)).status = .palive ∧ (f (s.player j)).ship = (s.player j).ship) :
    Accounted s (s.modifyPlayer j f) := by
  have hstatus : ∀ i, ((s.modifyPlayer j f).player i).status = (s.player i).status := by
    intro i
    rw [Server.player_modifyPlayer]
    split
    · subst i; rw [hf.1, hj]
    · rfl
  refine ⟨rfl, fun i => ?_, rfl, fun i => ⟨[], rfl, ?_⟩, fun i hi => ?_, ?_⟩
  · rw [Server.player_modifyPlayer]
    split
    · subst i; exact hf.2
    · rfl
  · rw [hstatus]; exact .none _
  · rw [Server.player_modifyPlayer, if_neg]
    · exact .inl ⟨rfl, rfl⟩
    · rintro rfl; exact hi hj
  · have hnone : dead s (s.modifyPlayer j f) = ∅ := by
      refine Finset.filter_eq_empty_iff.2 fun i _ h => ?_
      rw [hstatus, h.1] at h
      exact absurd h.2 (by decide)
    rw [hnone, Finset.card_empty, ite_self, Nat.add_zero]
    rfl

/-- A living ship explodes, and then its death is recorded and counted. -/
theorem of_death {s s' : Server} {j : Slot} {why : WhyDead} {who : Nat} {credit : Option Slot} {ks : List Event}
    (hj : (s.player j).status = .palive) (hsame : ∀ i, Same ((pExplosion s j why who).player i) (s'.player i))
    (hsetup : s'.setup = s.setup) (htourn : s'.mem.status.tourn = s.mem.status.tourn)
    (hlosses : s'.mem.status.losses = s.mem.status.losses + if s.mem.status.tourn then 1 else 0)
    (hstory : story j s'.log = .death j credit :: ks ++ story j s.log) (hother : ∀ i, i ≠ j → story i s'.log = story i s.log)
    (hlen : ks.length ≤ 1) (hks : ∀ e ∈ ks, IsKill j e) : Accounted s s' := by
  have hne : ∀ i, i ≠ j → Same (s.player i) (s'.player i) := by
    intro i hi
    have h := hsame i
    unfold pExplosion at h
    rwa [Server.player_modifyPlayer, if_neg hi] at h
  have hjs : (s'.player j).status = .pexplode ∧ (s'.player j).ship = (s.player j).ship := by
    have h := hsame j
    unfold pExplosion at h
    rw [Server.player_modifyPlayer, if_pos rfl] at h
    exact ⟨h.status, h.ship⟩
  refine ⟨hsetup, fun i => ?_, htourn, fun i => ?_, fun i hi => ?_, ?_⟩
  · by_cases hi : i = j
    · subst i; exact hjs.2
    · exact (hne i hi).ship
  · by_cases hi : i = j
    · subst i
      refine ⟨_, hstory, ?_⟩
      rw [hj, hjs.1, ← List.append_nil ks]
      exact .death credit hlen hks nofun
    · refine ⟨[], hother i hi, ?_⟩
      rw [(hne i hi).status]
      exact .none _
  · have hi' : i ≠ j := by rintro rfl; exact hi hj
    exact .inl ⟨(hne i hi').shield, (hne i hi').damage⟩
  · have hone : dead s s' = {j} := by
      ext i
      simp only [dead, Finset.mem_filter, Finset.mem_univ, true_and, Finset.mem_singleton]
      constructor
      · rintro ⟨ha, he⟩
        by_contra hi
        rw [(hne i hi).status, ha] at he
        exact absurd he (by decide)
      · rintro rfl
        exact ⟨hj, hjs.1⟩
    rw [hone, Finset.card_singleton, hlosses]

/-- Healing after a dogfight hurts nobody. -/
theorem heal {s : Server} (j : Slot) (hd : s.setup.dogfight = true) : Accounted s (s.modifyPlayer j Player.heal) := by
  have hstatus : ∀ i, ((s.modifyPlayer j Player.heal).player i).status = (s.player i).status ∧
      ((s.modifyPlayer j Player.heal).player i).ship = (s.player i).ship := by
    intro i
    rw [Server.player_modifyPlayer]
    split
    · subst i; exact ⟨rfl, rfl⟩
    · exact ⟨rfl, rfl⟩
  refine ⟨rfl, fun i => (hstatus i).2, rfl, fun i => ⟨[], rfl, ?_⟩, fun i _ => ?_, ?_⟩
  · rw [(hstatus i).1]; exact .none _
  · rw [Server.player_modifyPlayer]
    split
    · subst i; exact .inr ⟨hd, rfl, rfl⟩
    · exact .inl ⟨rfl, rfl⟩
  · have hnone : dead s (s.modifyPlayer j Player.heal) = ∅ := by
      refine Finset.filter_eq_empty_iff.2 fun i _ h => ?_
      rw [(hstatus i).1, h.1] at h
      exact absurd h.2 (by decide)
    rw [hnone, Finset.card_empty, ite_self, Nat.add_zero]
    rfl

/-- The change of `f` is made or not. -/
theorem ite {s s' : Server} {p : Prop} [Decidable p] (h : p → Accounted s s') : Accounted s (if p then s' else s) := by
  split
  · exact h ‹_›
  · exact refl s

end Accounted

end Netrek.Daemon
