/-
The daemon keeps the masks of every ship in order: torps, phasers, bombs and armies that are beamed down
begin wars only with teams that the ship is hostile to.
-/
import NetrekServer.Beam.Turn
import NetrekServer.War.Masks

namespace Netrek.War

open Daemon Empire Beam

/-! ## Steps without a war -/

/-- The masks and the team of a player. -/
def masks (p : Player) : Word × Word × Word × Word := (p.hostile, p.swar, p.war, p.team)

/-- Nobody's masks change, nobody comes alive, and the planets' owners stay. -/
structure Peace (s s' : Server) : Prop where
  masks : ∀ j, masks (s'.player j) = masks (s.player j)
  alive : ∀ j, (s'.player j).status = .palive → (s.player j).status = .palive
  owner : ∀ l, (s'.planet l).owner = (s.planet l).owner
  home : ∀ l, (s'.planet l).flags &&& allTeam = (s.planet l).flags &&& allTeam

theorem Peace.refl (s : Server) : Peace s s := ⟨fun _ => rfl, fun _ => id, fun _ => rfl, fun _ => rfl⟩

theorem Peace.trans {s s' s'' : Server} (h : Peace s s') (h' : Peace s' s'') : Peace s s'' :=
  ⟨fun j => (h'.masks j).trans (h.masks j), fun j ha => h.alive j (h'.alive j ha),
    fun l => (h'.owner l).trans (h.owner l), fun l => (h'.home l).trans (h.home l)⟩

theorem Peace.of_mem {s s' : Server} (hp : s'.mem.players = s.mem.players) (hl : s'.mem.planets = s.mem.planets) :
    Peace s s' := by
  have hplayer (j) : s'.player j = s.player j := congrFun hp j
  have hplanet (l) : s'.planet l = s.planet l := congrFun hl l
  exact ⟨fun j => by rw [hplayer], fun j ha => by rwa [hplayer] at ha, fun l => by rw [hplanet], fun l => by rw [hplanet]⟩

theorem Peace.foldl {α : Type} {f : Server → α → Server} (hf : ∀ s a, Peace s (f s a)) : ∀ (as : List α) (s : Server),
    Peace s (as.foldl f s)
  | [], s => .refl s
  | a :: as, s => (hf s a).trans (Peace.foldl hf as _)

theorem Peace.modifyPlayer (s : Server) (i : Slot) {f : Player → Player} (hf : ∀ p, War.masks (f p) = War.masks p)
    (ha : ∀ p, (f p).status = .palive → p.status = .palive) : Peace s (s.modifyPlayer i f) := by
  refine ⟨fun j => ?_, fun j => ?_, fun _ => rfl, fun _ => rfl⟩ <;>
    · rw [Server.player_modifyPlayer]
      split
      · subst_vars
        first | exact hf _ | exact ha _
      · first | rfl | exact id

theorem Peace.modifyPlanet (s : Server) (l : Fin maxPlanets) {f : Planet → Planet} (ho : ∀ p, (f p).owner = p.owner)
    (hf : ∀ p, (f p).flags &&& allTeam = p.flags &&& allTeam) : Peace s (s.modifyPlanet l f) := by
  refine ⟨fun _ => rfl, fun _ => id, fun k => ?_, fun k => ?_⟩ <;>
    · rw [Server.planet_modifyPlanet]
      split
      · subst_vars
        first | exact ho _ | exact hf _
      · rfl

theorem Peace.of_calm {s s' : Server} (h : Calm s s') : Peace s s' := .of_mem h.players h.planets

theorem Peace.of_frame {s s' : Server} (h : Frame s s') : Peace s s' := by
  refine ⟨fun j => ?_, fun j ha => ?_, h.owner, fun l => by rw [h.flags]⟩
  · have hk := h.players j
    unfold War.masks
    rw [hk.hostile, hk.swar, hk.war, hk.team]
  · rcases (h.players j).status with hs | hs
    · rwa [hs] at ha
    · rw [hs] at ha
      cases ha

/-! ## Damage -/

theorem masks_inflict (p : Player) (damage : Int) : masks (inflict p damage) = masks p := by
  unfold inflict
  split
  · split <;> rfl
  · rfl

theorem status_inflict (p : Player) (damage : Int) : (inflict p damage).status = p.status := by
  unfold inflict
  split
  · split <;> rfl
  · rfl

theorem peace_inflict (s : Server) (j : Slot) (damage : Int) : Peace s (s.modifyPlayer j fun p => inflict p damage) :=
  .modifyPlayer s j (fun p => masks_inflict p damage) fun p ha => by rwa [status_inflict] at ha

theorem peace_pExplosion (s : Server) (j : Slot) (why : WhyDead) (who : Nat) : Peace s (pExplosion s j why who) :=
  .modifyPlayer s j (fun _ => rfl) fun _ ha => by cases ha

theorem peace_killerCredit (s : Server) (killer died : Slot) : Peace s (killerCredit s killer died) :=
  .modifyPlayer s killer (fun _ => rfl) fun _ => id

theorem peace_countTourn (s : Server) (f : Status → Status) : Peace s (countTourn s f) := by
  unfold countTourn
  split
  · exact .of_mem rfl rfl
  · exact .refl s

theorem peace_killmess (s : Server) (victim killer : Slot) (whydead : WhyDead) :
    Peace s (killmess s victim killer whydead) := by
  unfold killmess
  extract_lets v s₁
  have h₁ : Peace s s₁ := .of_mem rfl rfl
  split
  · exact h₁.trans (.modifyPlayer _ killer (fun _ => rfl) fun _ => id)
  · exact h₁

theorem peace_tKill (s : Server) (t : Torp) (j : Slot) : Peace s (tKill s t j) := by
  unfold tKill
  extract_lets k s₁ credit s₂ s₃
  have h₁ : Peace s s₁ := peace_pExplosion s j _ _
  have h₂ : Peace s₁ s₂ := by
    show Peace s₁ (if credit then killerCredit s₁ k j else s₁)
    split
    · exact peace_killerCredit s₁ k j
    · exact .refl _
  have h₃ : Peace s₂ s₃ := (peace_countTourn s₂ _).trans (.of_mem rfl rfl)
  exact ((h₁.trans h₂).trans h₃).trans (peace_killmess s₃ j t.owner _)

theorem peace_phaserKill (s : Server) (i victim : Slot) : Peace s (phaserKill s i victim) := by
  unfold phaserKill
  extract_lets s₁ s₂
  have h₁ : Peace s s₁ := (peace_pExplosion s victim _ _).trans (peace_killerCredit _ i victim)
  have h₂ : Peace s₁ s₂ := (peace_countTourn s₁ _).trans (.of_mem rfl rfl)
  exact (h₁.trans h₂).trans (peace_killmess s₂ victim i _)

theorem peace_planetKill (s : Server) (j : Slot) (l : Fin maxPlanets) : Peace s (planetKill s j l) := by
  unfold planetKill
  extract_lets s₁ s₂
  have h₁ : Peace s s₁ := peace_pExplosion s j _ _
  have h₂ : Peace s₁ s₂ := .of_mem rfl rfl
  exact ((h₁.trans h₂).trans (peace_countTourn s₂ _)).trans (.of_mem rfl rfl)

theorem and_allTeam_or (w : Word) {m : Word} (hm : m &&& allTeam = 0) : (w ||| m) &&& allTeam = w &&& allTeam := by
  rw [BitVec.and_or_distrib_right, hm]
  exact BitVec.or_zero

theorem and_allTeam_andNot (w : Word) {m : Word} (hm : ~~~m &&& allTeam = allTeam) :
    w &&& ~~~m &&& allTeam = w &&& allTeam := by
  rw [BitVec.and_assoc, hm]

/-- Planets fire at whom they like, and change no masks. -/
theorem peace_planetFire (j : Slot) (s : Server) (l : Fin maxPlanets) : Peace s (planetFire j s l) := by
  unfold planetFire
  extract_lets p near s₁ s₂
  have h₁ : Peace s s₁ := by
    show Peace s (if near then _ else s)
    split
    · exact .modifyPlanet s l (fun _ => rfl) fun q => and_allTeam_or q.flags (by decide)
    · exact .refl s
  have hrecord : Peace s₁ (s₁.record (.hurt none j)) := .of_mem rfl rfl
  have h₂ : Peace s₁ s₂ := hrecord.trans (peace_inflict _ j (planetDamage (s₁.planet l)))
  split
  · exact .refl s
  split
  · exact h₁
  split
  · exact (h₁.trans h₂).trans (peace_planetKill s₂ j l)
  · exact h₁.trans h₂

theorem peace_pldamageplayer (s : Server) (j : Slot) : Peace s (pldamageplayer s j) := .foldl (peace_planetFire j) _ s

/-! ## What a step keeps -/

/-- A step that keeps the masks of the ship in order, its team, and the wars of the past. -/
structure Keeps (j : Slot) (s s' : Server) : Prop where
  lawful : Lawful s → Lawful s'
  masked : Lawful s → Masked (s.player j) → Masked (s'.player j)
  team : (s'.player j).team = (s.player j).team
  sticky : (s.player j).team ≠ nobody → (s.player j).swar &&& ~~~(s'.player j).swar = 0

theorem Keeps.refl (j : Slot) (s : Server) : Keeps j s s :=
  ⟨id, fun _ => id, rfl, fun _ => BitVec.and_not_self _⟩

theorem Keeps.trans {j : Slot} {s s' s'' : Server} (h : Keeps j s s') (h' : Keeps j s' s'') : Keeps j s s'' where
  lawful hl := h'.lawful (h.lawful hl)
  masked hl hm := h'.masked (h.lawful hl) (h.masked hl hm)
  team := h'.team.trans h.team
  sticky ht := sub_iff.2 fun k hk =>
    sub_iff.1 (h'.sticky (by rw [h.team]; exact ht)) k (sub_iff.1 (h.sticky ht) k hk)

theorem Keeps.foldl {α : Type} {j : Slot} {f : Server → α → Server} (hf : ∀ s a, Keeps j s (f s a)) :
    ∀ (as : List α) (s : Server), Keeps j s (as.foldl f s)
  | [], s => .refl j s
  | a :: as, s => (hf s a).trans (Keeps.foldl hf as _)

theorem Masked.congr {p p' : Player} (h : Masked p) (he : masks p' = masks p) : Masked p' := by
  unfold masks at he
  simp only [Prod.mk.injEq] at he
  obtain ⟨hh, hs, hw, ht⟩ := he
  refine .of_bits ?_ ?_ ?_
  · rw [hh, hs, hw]
    exact h.war
  · rw [hh, hs]
    exact h.sub
  · rw [hh, ht]
    exact h.disjoint

theorem Peace.keeps {s s' : Server} (h : Peace s s') (j : Slot) : Keeps j s s' := by
  have hteam (i) : (s'.player i).team = (s.player i).team := congrArg (·.2.2.2) (h.masks i)
  refine ⟨fun hl => ⟨fun i ha => ?_, fun l => ?_, fun l => ?_⟩, fun _ hm => hm.congr (h.masks j), hteam j, fun _ => ?_⟩
  · rw [hteam]
    exact hl.team i (h.alive i ha)
  · rw [h.owner]
    exact hl.owner l
  · rw [h.home]
    exact hl.home l
  · rw [show (s'.player j).swar = (s.player j).swar from congrArg (·.2.1) (h.masks j)]
    exact BitVec.and_not_self _

theorem player_other (s : Server) {i j : Slot} (f : Player → Player) (h : j ≠ i) :
    (s.modifyPlayer i f).player j = s.player j := by
  rw [Server.player_modifyPlayer, if_neg h]

theorem player_self (s : Server) (i : Slot) (f : Player → Player) :
    (s.modifyPlayer i f).player i = f (s.player i) := by
  rw [Server.player_modifyPlayer, if_pos rfl]

/-- One player changes, whose team is still one of the four, or none, if it is alive. -/
theorem Lawful.modifyPlayer {s : Server} (hl : Lawful s) (i : Slot) {f : Player → Player}
    (ht : (f (s.player i)).status = .palive → (f (s.player i)).team ∈ nobody :: fourTeams) :
    Lawful (s.modifyPlayer i f) := by
  refine ⟨fun j => ?_, hl.owner, hl.home⟩
  by_cases hj : j = i
  · rw [hj, player_self]
    exact ht
  · rw [player_other s f hj]
    exact hl.team j

/-- Others do not notice. -/
theorem keeps_other (s : Server) {i j : Slot} (hj : j ≠ i) {f : Player → Player}
    (ht : Lawful s → (f (s.player i)).status = .palive → (f (s.player i)).team ∈ nobody :: fourTeams) :
    Keeps j s (s.modifyPlayer i f) := by
  refine ⟨fun hl => hl.modifyPlayer i (ht hl), fun _ hm => ?_, ?_, fun _ => ?_⟩
  · rw [player_other s f hj]
    exact hm
  · rw [player_other s f hj]
  · rw [player_other s f hj]
    exact BitVec.and_not_self _

/-- One player changes, and is still in order. -/
theorem keeps_modifyPlayer (s : Server) (i j : Slot) {f : Player → Player}
    (ha : (f (s.player i)).status = .palive → (s.player i).status = .palive)
    (ht : (f (s.player i)).team = (s.player i).team)
    (hm : Lawful s → Masked (s.player i) → Masked (f (s.player i)))
    (hs : (s.player i).team ≠ nobody → (s.player i).swar &&& ~~~(f (s.player i)).swar = 0) :
    Keeps j s (s.modifyPlayer i f) := by
  have hteam (hl : Lawful s) (hs : (f (s.player i)).status = .palive) : (f (s.player i)).team ∈ nobody :: fourTeams := by
    rw [ht]
    exact hl.team i (ha hs)
  by_cases hj : j = i
  · subst hj
    refine ⟨fun hl => hl.modifyPlayer j (hteam hl), fun hl h => ?_, ?_, fun h => ?_⟩
    · rw [player_self]
      exact hm hl h
    · rw [player_self]
      exact ht
    · rw [player_self]
      exact hs h
  · exact keeps_other s hj hteam

/-- A war begins, or goes on, with a team that the ship may be at war with. -/
theorem keeps_swar (s : Server) (i j : Slot) {f : Player → Player} {t : Word}
    (hf : ∀ p, masks (f p) = masks { p with swar := p.swar ||| t }) (ha : ∀ p, (f p).status = p.status)
    (ht : Lawful s → Masked (s.player i) → t &&& ~~~(s.player i).hostile = 0) : Keeps j s (s.modifyPlayer i f) := by
  have hself := hf (s.player i)
  have hteam : (f (s.player i)).team = (s.player i).team := congrArg (·.2.2.2) hself
  refine keeps_modifyPlayer s i j (ha (s.player i)).symm.trans hteam (fun hl hm => ?_) fun _ => ?_
  · obtain ⟨hwar, hsub⟩ := hm.startWar (ht hl hm) rfl
    have hbegun : Masked { s.player i with swar := (s.player i).swar ||| t } := .of_bits hwar hsub hm.disjoint
    exact hbegun.congr hself
  · rw [show (f (s.player i)).swar = (s.player i).swar ||| t from congrArg (·.2.1) hself, sub_iff]
    intro k hk
    rw [BitVec.getLsbD_or, hk, Bool.true_or]

/-- An act of war is one against a team that the ship is hostile to; if others go too far, the ship does not care. -/
theorem keeps_startWar (s : Server) (owner victim j : Slot)
    (h : Lawful s → owner = j → (s.player owner).hostile.has (s.player victim).team = true →
      (s.player victim).team &&& ~~~(s.player owner).hostile = 0) : Keeps j s (startWar s owner victim) := by
  unfold startWar
  extract_lets team
  split
  · rename_i hhas
    by_cases ho : owner = j
    · exact keeps_swar s owner j (fun _ => rfl) (fun _ => rfl) fun hl _ => h hl ho hhas
    · exact keeps_other s (Ne.symm ho) fun hl => hl.team owner
  · exact .refl j s

/-! ## Torps and phasers -/

/-- An explosion may start a war of the owner of the torp. -/
theorem keeps_tExplosionOn (j : Slot) (k : Nat) (s : Server) (i : Slot) : Keeps j s (tExplosionOn k s i) := by
  unfold tExplosionOn
  extract_lets t
  split
  · exact .refl j s
  rename_i halive
  split
  · exact .refl j s
  split
  · exact .refl j s
  rename_i damage hd
  split
  · exact .refl j s
  extract_lets s₁ s₂ s₃
  have h₁ : Peace s s₁ := .of_mem rfl rfl
  have h₂ : Keeps j s₁ s₂ := keeps_startWar s₁ t.owner i j fun hl _ => sub_of_has (hl.team i (not_not.1 halive))
  have h₃ : Peace s₂ s₃ := peace_inflict s₂ i damage
  have h := ((h₁.keeps j).trans h₂).trans (h₃.keeps j)
  split
  · exact h.trans ((peace_tKill s₃ t i).keeps j)
  · exact h

theorem keeps_tExplosion (j : Slot) (s : Server) (k : Nat) : Keeps j s (tExplosion s k) := by
  have htorp (s : Server) (f : Torp → Torp) : Peace s (s.modifyTorp k f) := .of_mem rfl rfl
  have hrecord : Peace s (s.record (.exploded k)) := .of_mem rfl rfl
  have hloop := Keeps.foldl (fun s i => keeps_tExplosionOn j k s i) (List.finRange maxPlayer) (s.record (.exploded k))
  unfold tExplosion
  generalize (List.finRange maxPlayer).foldl (tExplosionOn k) (s.record (.exploded k)) = s' at hloop ⊢
  exact ((hrecord.keeps j).trans hloop).trans ((htorp s' _).keeps j)

/-- The phaser of the ship has just hit a slot that is of a team it is hostile to, and of another that it is not. -/
structure Misfires (s : Server) (i : Slot) : Prop where
  hit : (s.mem.phasers i).status = .phhit
  first : (s.mem.phasers i).fuse = (s.player i).ship.phaserFuse
  awake : s.isIdle (s.mem.phasers i).target = false
  hostile : (s.player i).hostile.has (s.player (s.mem.phasers i).target).team = true
  beyond : (s.player (s.mem.phasers i).target).team &&& ~~~(s.player i).hostile ≠ 0

/-- The state in which the loop of `udphaser` comes to the phaser of a ship. -/
def phaserTurn (s : Server) (me : Slot) : Server := ((List.finRange maxPlayer).take me.val).foldl udphaserOf s

/-- A phaser that strikes adds the team of its target to the wars of the past. -/
theorem keeps_phaserStrike (j : Slot) (s : Server) (i : Slot)
    (h : i = j → (s.player i).hostile.has (s.player (s.mem.phasers i).target).team = true →
      (s.player (s.mem.phasers i).target).team &&& ~~~(s.player i).hostile = 0) : Keeps j s (phaserStrike s i) := by
  unfold phaserStrike
  extract_lets ph victim s₁ s₂
  have h₁ : Keeps j s s₁ := keeps_startWar s i victim j fun _ => h
  have hrecord : Peace s₁ (s₁.record (.hurt none victim)) := .of_mem rfl rfl
  have h₂ : Peace s₁ s₂ := hrecord.trans (peace_inflict _ victim ph.damage)
  have hstruck := h₁.trans (h₂.keeps j)
  split
  · exact h₁
  split
  · exact hstruck.trans ((peace_phaserKill s₂ i victim).keeps j)
  · exact hstruck

/-- A phaser that does not misfire. -/
theorem keeps_udphaserOf (j : Slot) (s : Server) (i : Slot) (hok : i = j → ¬ Misfires s i) :
    Keeps j s (udphaserOf s i) := by
  have hpeace (s : Server) (f : Phaser → Phaser) : Peace s (s.modifyPhaser i f) := .of_mem rfl rfl
  have hphaser (s : Server) (f : Phaser → Phaser) : Keeps j s (s.modifyPhaser i f) := (hpeace s f).keeps j
  unfold udphaserOf
  extract_lets ph
  split
  · exact .refl j s
  · exact hphaser s _
  · exact hphaser s _
  rename_i s₁ s₂ _ hhit
  have h₁ : Keeps j s s₁ := hphaser s _
  split
  · exact h₁
  rename_i hidle
  have h₂ : Keeps j s₁ s₂ := by
    show Keeps j s₁ (if _ then phaserStrike s₁ i else s₁)
    split
    · rename_i hfirst
      refine keeps_phaserStrike j s₁ i fun hij hhas => ?_
      have htarget : (s₁.mem.phasers i).target = ph.target := by
        show (Function.update s.mem.phasers i _ i).target = _
        rw [Function.update_self]
      rw [htarget] at hhas ⊢
      by_contra hbeyond
      have hawake : s₁.isIdle ph.target = false := by simpa [hfirst] using hidle
      exact hok hij ⟨hhit, hfirst, hawake, hhas, hbeyond⟩
    · exact .refl j s₁
  split
  · exact (h₁.trans h₂).trans (hphaser s₂ _)
  · exact h₁.trans h₂

/-- Of all the phasers only the ship's own matters to it. -/
theorem keeps_udphaser (j : Slot) (s : Server) (hok : ¬ Misfires (phaserTurn s j) j) : Keeps j s (udphaser s) := by
  have hothers : ∀ (is : List Slot) (s : Server), j ∉ is → Keeps j s (is.foldl udphaserOf s) := by
    intro is
    induction is with
    | nil => exact fun s _ => .refl j s
    | cons i is ih =>
      intro s hj
      rw [List.mem_cons, not_or] at hj
      exact (keeps_udphaserOf j s i fun hij => absurd hij.symm hj.1).trans (ih _ hj.2)
  have hlen : j.val < (List.finRange maxPlayer).length := by simp
  have hsplit : List.finRange maxPlayer =
      (List.finRange maxPlayer).take j.val ++ j :: (List.finRange maxPlayer).drop (j.val + 1) := by
    have hdrop := List.drop_eq_getElem_cons hlen
    rw [List.getElem_finRange] at hdrop
    exact (List.take_append_drop j.val _).symm.trans (congrArg _ hdrop)
  have hnodup := List.nodup_finRange maxPlayer
  rw [hsplit, List.nodup_append, List.nodup_cons] at hnodup
  obtain ⟨-, ⟨hafter, -⟩, hbefore⟩ := hnodup
  have hturn : Keeps j s (phaserTurn s j) := hothers _ s fun hj => hbefore j hj j (List.mem_cons_self ..) rfl
  unfold udphaser
  rw [hsplit, List.foldl_append, List.foldl_cons]
  exact (hturn.trans (keeps_udphaserOf j _ j fun _ => hok)).trans (hothers _ _ hafter)

/-! ## Planets -/

/-- Planets change, and stay in order. -/
theorem Keeps.of_planets {s s' : Server} (j : Slot) (hp : ∀ i, s'.player i = s.player i)
    (ho : Lawful s → ∀ l, (s'.planet l).owner ∈ nobody :: fourTeams)
    (hf : ∀ l, (s'.planet l).flags &&& allTeam = (s.planet l).flags &&& allTeam) : Keeps j s s' := by
  refine ⟨fun hl => ⟨fun i => ?_, ho hl, fun l => ?_⟩, fun _ hm => ?_, by rw [hp], fun _ => ?_⟩
  · rw [hp]
    exact hl.team i
  · rw [hf]
    exact hl.home l
  · rw [hp]
    exact hm
  · rw [hp]
    exact BitVec.and_not_self _

/-- A planet gets an owner. -/
theorem keeps_modifyPlanet (s : Server) (j : Slot) (l : Fin maxPlanets) {f : Planet → Planet}
    (ho : Lawful s → (f (s.planet l)).owner ∈ nobody :: fourTeams)
    (hf : (f (s.planet l)).flags &&& allTeam = (s.planet l).flags &&& allTeam) : Keeps j s (s.modifyPlanet l f) := by
  refine .of_planets j (fun _ => rfl) (fun hl k => ?_) fun k => ?_
  · rw [Server.planet_modifyPlanet]
    split
    · exact ho hl
    · exact hl.owner k
  · rw [Server.planet_modifyPlanet]
    split
    · subst_vars
      exact hf
    · rfl

/-- After a coup, the planet belongs to the team whose home it is. -/
theorem keeps_coupAndWarnings (j : Slot) (s : Server) (h : Fin maxPlanets) : Keeps j s (coupAndWarnings s h) := by
  have hcoup : Keeps j s (resolveCoup s h) := by
    unfold resolveCoup
    split
    · refine keeps_modifyPlanet s j h (fun hl => ?_) (and_allTeam_andNot _ (by decide))
      show (s.planet h).flags &&& ~~~plCoup &&& allTeam ∈ _
      rw [and_allTeam_andNot _ (by decide)]
      exact hl.home h
    · exact .refl j s
  unfold coupAndWarnings
  extract_lets s₁
  have h₁ : Peace (resolveCoup s h) s₁ := .modifyPlanet _ h (fun _ => rfl) fun _ => and_allTeam_andNot _ (by decide)
  have hwarn (n : Int) : Peace s₁ { s₁ with plWarning := Function.update s₁.plWarning h n } := .of_mem rfl rfl
  split
  · exact (hcoup.trans (h₁.keeps j)).trans ((hwarn _).keeps j)
  · exact hcoup.trans (h₁.keeps j)

theorem peace_bombArmies (s : Server) (i : Slot) (ab : Int) : Peace s (bombArmies s i ab) := by
  unfold bombArmies
  extract_lets h s₁ s₂ s₃
  have h₁ : Peace s s₁ := by
    refine .modifyPlanet s h (fun _ => rfl) fun l => ?_
    dsimp only
    split
    · exact and_allTeam_or _ (by decide)
    · rfl
  have h₂ : Peace s₁ s₂ := .modifyPlayer s₁ i (fun _ => rfl) fun _ => id
  have hrecord : Peace s₃ ((s₃.record (.killsMax i)).record (.bomb i h ab)) := .of_mem rfl rfl
  exact ((h₁.trans h₂).trans (peace_countTourn s₂ _)).trans hrecord

theorem peace_warnOwners (s : Server) (i : Slot) : Peace s (warnOwners s i) := by
  unfold warnOwners
  extract_lets p
  split
  · exact .of_mem rfl rfl
  · exact .refl s

/-- Who bombs a planet is at war with its owner. -/
theorem keeps_bombPlanet (j : Slot) (s : Server) (i : Slot) (hb : bombs s i = true) : Keeps j s (bombPlanet s i) := by
  have hw := peace_warnOwners s i
  have howner : ((warnOwners s i).planet ((warnOwners s i).player i).planet).owner =
      (s.planet (s.player i).planet).owner := by
    have hplayer : (warnOwners s i).player i = s.player i := by
      unfold warnOwners
      extract_lets p
      split <;> rfl
    rw [hw.owner, hplayer]
  have hwar : (s.player i).war.has (s.planet (s.player i).planet).owner = true := by
    unfold bombs at hb
    simp only [Bool.and_eq_true] at hb
    exact hb.1.2
  have hswar : Keeps j s ((warnOwners s i).modifyPlayer i fun p =>
      { p with swar := p.swar ||| ((warnOwners s i).planet ((warnOwners s i).player i).planet).owner }) := by
    refine (hw.keeps j).trans (keeps_swar _ i j (fun _ => rfl) (fun _ => rfl) fun hl hm => ?_)
    have hm' : Masked (s.player i) := hm.congr (hw.masks i).symm
    rw [howner, show ((warnOwners s i).player i).hostile = (s.player i).hostile from congrArg (·.1) (hw.masks i),
      ← hm'.war_eq]
    refine sub_of_has ?_ hwar
    rw [← hw.owner]
    exact hl.owner _
  unfold bombPlanet
  extract_lets s₁ owner
  generalize hs₂ : (s₁.modifyPlayer i fun p => { p with swar := p.swar ||| owner }) = s₂
  have h₂ : Keeps j s s₂ := hs₂ ▸ hswar
  have hdraw : Peace s₂ s₂.draw.2 := .of_mem rfl rfl
  dsimp only [Server.draw] at hdraw ⊢
  split
  · exact h₂.trans (hdraw.keeps j)
  · exact (h₂.trans (hdraw.keeps j)).trans ((peace_bombArmies _ i _).keeps j)

theorem keeps_plfightOn (j : Slot) (s : Server) (i : Slot) : Keeps j s (plfightOn s i) := by
  unfold plfightOn
  split
  · exact .refl j s
  extract_lets s₁
  have h₁ : Peace s s₁ := peace_pldamageplayer s i
  split
  · exact (h₁.keeps j).trans (keeps_bombPlanet j s₁ i ‹_›)
  · exact h₁.keeps j

theorem keeps_plfight (j : Slot) (s : Server) : Keeps j s (plfight s) :=
  (Keeps.foldl (keeps_coupAndWarnings j) _ s).trans (Keeps.foldl (keeps_plfightOn j) _ _)

/-! ## Armies -/

theorem peace_load (s : Server) (i : Slot) : Peace s (s.modifyPlayer i load) :=
  .modifyPlayer s i (fun _ => rfl) fun _ => id

theorem peace_unload (s : Server) (i : Slot) : Peace s (s.modifyPlayer i unload) :=
  .modifyPlayer s i (fun _ => rfl) fun _ => id

theorem peace_gain (s : Server) (l : Fin maxPlanets) (n : Int) : Peace s (s.modifyPlanet l (gain n)) :=
  .modifyPlanet s l (fun _ => rfl) fun _ => rfl

/-- The team that loses an army is one that the ship is at war with, or none. -/
theorem sub_of_lands {c : Campaign} {i : Slot} (h : Lands c i) (hh : hostile c i = true) (hl : Lawful c.server)
    (hm : Masked (c.player i)) : (c.planet (c.player i).planet).owner &&& ~~~(c.player i).hostile = 0 := by
  have hwar := h.war
  unfold peaceful at hwar
  unfold hostile at hh
  simp only [Bool.and_eq_true, bne_iff_ne] at hh
  by_cases hn : (c.planet (c.player i).planet).owner = nobody
  · rw [hn]
    exact BitVec.zero_and
  · have hhas : (c.player i).war.has (c.planet (c.player i).planet).owner = true := by
      simpa [hh.1, hn] using hwar
    rw [← hm.war_eq]
    exact sub_of_has (hl.owner _) hhas

/-- A landing on a hostile planet. -/
theorem keeps_landed (j : Slot) {c : Campaign} {i : Slot} (h : Lands c i) (hh : hostile c i = true) :
    Keeps j c.server (landed c i).server := by
  have hinvade : Keeps j c.server (invade c i).server := by
    have hwar : Keeps j c.server (c.server.modifyPlayer i (attack (c.planet (c.player i).planet).owner)) :=
      keeps_swar c.server i j (fun _ => rfl) (fun _ => rfl) (sub_of_lands h hh)
    rw [server_invade]
    exact hwar.trans ((peace_gain _ _ _).keeps j)
  unfold landed
  split
  · obtain ⟨cheap, hc, hp⟩ := planet_destroy (invade c i) i
    refine hinvade.trans (.of_planets j (fun k => player_destroy _ i k) (fun hl l => ?_) fun l => ?_)
    · show ((destroy (invade c i) i).planet l).owner ∈ _
      rw [hp]
      split
      · exact List.mem_cons_self
      · exact hl.owner l
    · show ((destroy (invade c i) i).planet l).flags &&& _ = _
      rw [hp]
      split
      · exact and_allTeam_or _ (by rcases hc with rfl | rfl <;> decide)
      · rfl
  · exact hinvade

theorem keeps_takeOver (j : Slot) (s : Server) {i : Slot} (l : Fin maxPlanets) (ha : (s.player i).status = .palive) :
    Keeps j s ((s.modifyPlayer i conquer).modifyPlanet l (taken (s.player i).team)) := by
  have hconquer : Peace s (s.modifyPlayer i conquer) := .modifyPlayer s i (fun _ => rfl) fun _ => id
  refine (hconquer.keeps j).trans (keeps_modifyPlanet _ j l (fun hl => ?_) (and_allTeam_andNot _ (by decide)))
  have hteam := hl.team i (by rw [player_self]; exact ha)
  rwa [show ((s.modifyPlayer i conquer).player i).team = (s.player i).team from congrArg (·.2.2.2) (hconquer.masks i)]
    at hteam

theorem keeps_beamOn (j : Slot) (c : Campaign) (i : Slot) : Keeps j c.server (beamOn c i).1.server := by
  have hturn := turn_beamOn c i
  generalize (beamOn c i).1.server = s' at hturn ⊢
  cases hturn with
  | idle => exact .refl j _
  | fromPlanet ho hmay => exact ((peace_load _ i).trans (peace_gain _ _ _)).keeps j
  | fromBase ho hd ha hmay => exact ((peace_load _ i).trans (peace_unload _ _)).keeps j
  | hostile hl hh hframe henlists => exact (keeps_landed j hl hh).trans ((Peace.of_frame hframe).keeps j)
  | takeOver hl ho he hcalm => exact (keeps_takeOver j _ _ hl.alive).trans ((Peace.of_calm hcalm).keeps j)
  | reinforce hl ho => exact ((peace_unload _ i).trans (peace_gain _ _ _)).keeps j
  | transfer hd ha ho ht => exact ((peace_unload _ i).trans (peace_load _ _)).keeps j

/-- A pass of beaming. -/
theorem keeps_beam (j : Slot) (c : Campaign) : Keeps j c.server (beam c).1.server := by
  have hloop : ∀ (is : List Slot) (c : Campaign), Keeps j c.server (beamLoop is c).1.server := by
    intro is
    induction is with
    | nil => exact fun c => .refl j _
    | cons i is ih =>
      intro c
      have hon := keeps_beamOn j c i
      unfold beamLoop
      split
      · rename_i heq
        rwa [heq] at hon
      · rename_i heq
        rw [heq] at hon
        exact hon.trans (ih _)
  exact hloop _ c

end Netrek.War
