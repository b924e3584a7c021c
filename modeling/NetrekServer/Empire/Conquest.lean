/-
Conquest: `checkwin` says that the galaxy is conquered exactly when some team with a planet has enough
home systems that hold no planets but its own and neutral ones, and the player it is called for is of
such a team; except where a home system is wholly neutral, which it counts for one team only. Two home
systems are enough in the games of two races that the server is built for, or else three.
-/
import Mathlib.Algebra.BigOperators.Fin
import Mathlib.Algebra.Order.BigOperators.Group.Finset
import Mathlib.Data.Fintype.Perm
import NetrekServer.Empire.Teams

namespace Netrek.Empire

/-! ## What conquest is -/

/-- Every planet belongs to one of the teams, or to nobody. -/
def Owned (r : Realm) : Prop := ∀ l, r.owner l ∈ nobody :: fourTeams

/-- A home system holds only planets of the team, and of nobody. -/
def Held (r : Realm) (t : Word) (i : Fin 4) : Prop :=
  ∀ h, r.owner (systemPlanet i h) = t ∨ r.owner (systemPlanet i h) = nobody

/-- A home system holds only planets of nobody. -/
def Neutral (r : Realm) (i : Fin 4) : Prop := ∀ h, r.owner (systemPlanet i h) = nobody

/-- A home system is held, and with a planet at least. -/
def Own (r : Realm) (t : Word) (i : Fin 4) : Prop := Held r t i ∧ ¬ Neutral r i

instance (r : Realm) (t : Word) : DecidablePred (Held r t) := fun _ => inferInstanceAs (Decidable (∀ _, _))
instance (r : Realm) : DecidablePred (Neutral r) := fun _ => inferInstanceAs (Decidable (∀ _, _))
instance (r : Realm) (t : Word) : DecidablePred (Own r t) := fun _ => inferInstanceAs (Decidable (_ ∧ _))

/-- How many home systems are such. -/
def systems (p : Fin 4 → Prop) [DecidablePred p] : Nat := (Finset.univ.filter p).card

/-- The team has conquered the galaxy. -/
structure Conquers (r : Realm) (t : Word) : Prop where
  team : t ∈ fourTeams
  owns : ∃ l, r.owner l = t
  holds : r.victory ≤ systems (Held r t)

/-- Other names for the teams. -/
structure Renaming (f : Equiv.Perm Word) : Prop where
  nobody : f nobody = nobody
  team : ∀ t, f t ∈ fourTeams ↔ t ∈ fourTeams

/-- The galaxy with the teams renamed. -/
def Realm.rename (r : Realm) (f : Word → Word) : Realm :=
  { r with
    server :=
      { r.server with
        mem :=
          { r.server.mem with
            planets := fun l => { r.server.mem.planets l with owner := f (r.server.mem.planets l).owner }
            players := fun i => { r.server.mem.players i with team := f (r.server.mem.players i).team } } }
    announced := r.announced.map f }

/-! ## What the check reports -/

/-- A conquest is announced for the team of the player, the parade begins, and the answer is yes. -/
structure Reports (r : Realm) (w : Slot) : Prop where
  answer : (checkwin r w).2 = true
  announced : (checkwin r w).1.announced = (r.player w).team :: r.announced
  parade : (checkwin r w).1.server = conquerBegin r.server w

/-- No conquest is announced, no parade at the end of the game begins, and the answer is no. -/
structure Silent (r : Realm) (w : Slot) : Prop where
  answer : (checkwin r w).2 = false
  announced : (checkwin r w).1.announced = r.announced
  parade : (checkwin r w).1.server = r.server ∨ (checkwin r w).1.server = conquerBeginPret r.server w

/-- The answer is right, the team announced has conquered, and the answer is the same under other names. -/
structure Detects (r : Realm) (w : Slot) : Prop where
  reports : (∃ t, Conquers r t) → Reports r w
  silent : (¬ ∃ t, Conquers r t) → Silent r w
  winner : Reports r w → Conquers r (r.player w).team
  symmetric : ∀ f : Equiv.Perm Word, Renaming f → (checkwin (r.rename f) w).2 = (checkwin r w).2 ∧
    (checkwin (r.rename f) w).1.announced = (checkwin r w).1.announced.map f

/-- Some planet has an owner; and if a team has conquered, then the player is of such a team, and either enough systems are
wholly neutral or some team has enough systems with a planet of its own in each. -/
structure Clear (r : Realm) (w : Slot) : Prop where
  owned : ∃ l, r.owner l ≠ nobody
  winner : ∀ t, Conquers r t → Conquers r (r.player w).team
  systems : ∀ t, Conquers r t → r.victory ≤ systems (Neutral r) ∨ ∃ t' ∈ fourTeams, r.victory ≤ systems (Own r t')

/-! ## Counting -/

theorem foldl_bump {ι : Type} (f : ι → Word) (t : Word) : ∀ (l : List ι) (c : Word → Nat),
    l.foldl (fun c h => bump c (f h)) c t = c t + l.countP fun h => f h = t
  | [], _ => rfl
  | h :: l, c => by
    rw [List.foldl_cons, foldl_bump f t l, List.countP_cons]
    unfold bump
    by_cases ht : f h = t
    · rw [← ht]
      simp
      omega
    · simp [ht, Ne.symm ht]

theorem teamtemp_eq_zero {r : Realm} {i : Fin 4} {t : Word} :
    teamtemp r i t = 0 ↔ ∀ h, r.owner (systemPlanet i h) ≠ t := by
  unfold teamtemp
  rw [foldl_bump]
  simp [List.countP_eq_zero]

theorem forall_owners {p : Word → Prop} : (∀ o ∈ nobody :: fourTeams, p o) ↔ p nobody ∧ p fed ∧ p rom ∧ p kli ∧ p ori := by
  simp [fourTeams]

/-- The other three teams have no planet in a system exactly if the fourth holds it. -/
theorem others_zero {r : Realm} (ho : Owned r) (i : Fin 4) {a b e t : Word}
    (hcover : ∀ o ∈ nobody :: fourTeams, o ≠ a ∧ o ≠ b ∧ o ≠ e ↔ o = t ∨ o = nobody) :
    teamtemp r i a + teamtemp r i b + teamtemp r i e = 0 ↔ Held r t i := by
  rw [Nat.add_eq_zero_iff, Nat.add_eq_zero_iff, teamtemp_eq_zero, teamtemp_eq_zero, teamtemp_eq_zero]
  constructor
  · rintro ⟨⟨ha, hb⟩, he⟩ h
    exact (hcover _ (ho _)).1 ⟨ha h, hb h, he h⟩
  · intro hh
    have hall (h) := (hcover _ (ho (systemPlanet i h))).2 (hh h)
    exact ⟨⟨fun h => (hall h).1, fun h => (hall h).2.1⟩, fun h => (hall h).2.2⟩

/-- The team that a system counts for. -/
def credited (r : Realm) (i : Fin 4) : Option Word :=
  if Held r ori i then some ori
  else if Held r kli i then some kli
  else if Held r rom i then some rom
  else if Held r fed i then some fed
  else none

/-- A home system is credited to the team that owns all of it, if there is one. -/
theorem creditSystem_eq {r : Realm} (ho : Owned r) (team : Word → Nat) (i : Fin 4) :
    creditSystem r team i = (credited r i).elim team (bump team) := by
  unfold creditSystem credited
  dsimp only
  have hori := others_zero ho i (a := fed) (b := rom) (e := kli) (t := ori) (forall_owners.2 (by decide))
  have hkli := others_zero ho i (a := fed) (b := rom) (e := ori) (t := kli) (forall_owners.2 (by decide))
  have hrom := others_zero ho i (a := fed) (b := kli) (e := ori) (t := rom) (forall_owners.2 (by decide))
  have hfed := others_zero ho i (a := rom) (b := kli) (e := ori) (t := fed) (forall_owners.2 (by decide))
  simp only [hori, hkli, hrom, hfed]
  split
  · rfl
  split
  · rfl
  split
  · rfl
  split <;> rfl

/-- The systems of a team are those credited to it. -/
theorem homeSystems_eq {r : Realm} (ho : Owned r) (t : Word) : homeSystems r t = systems fun i => credited r i = some t := by
  have key : ∀ (l : List (Fin 4)) (c : Word → Nat),
      l.foldl (creditSystem r) c t = c t + l.countP fun i => credited r i = some t := by
    intro l
    induction l with
    | nil => intro c; rfl
    | cons i l ih =>
      intro c
      rw [List.foldl_cons, ih, creditSystem_eq ho, List.countP_cons]
      cases hc : credited r i with
      | none => simp
      | some t' =>
        show bump c t' t + _ = _
        unfold bump
        by_cases ht : t' = t
        · subst ht
          simp
          omega
        · simp [ht, Ne.symm ht]
  unfold homeSystems
  rw [key, Nat.zero_add]
  unfold systems
  rw [List.countP_eq_length_filter]
  rfl

/-- Two teams hold a system together only if it is neutral. -/
theorem neutral_of_held {r : Realm} {i : Fin 4} {t t' : Word} (hne : t ≠ t') (h : Held r t i) (h' : Held r t' i) :
    Neutral r i := by
  intro p
  rcases h p with hp | hp
  · rcases h' p with hp' | hp'
    · exact absurd (hp.symm.trans hp') hne
    · exact hp'
  · exact hp

theorem Neutral.held {r : Realm} {i : Fin 4} (h : Neutral r i) (t : Word) : Held r t i := fun p => .inr (h p)

/-- A system with a planet counts for the team that holds it, a neutral one for the Orions. -/
theorem credited_iff {r : Realm} {i : Fin 4} {t : Word} (ht : t ∈ fourTeams) :
    credited r i = some t ↔ Own r t i ∨ t = ori ∧ Neutral r i := by
  have hexcl : ∀ a b, a ≠ b → Own r a i → ¬ Held r b i := fun a b hne ha hb => ha.2 (neutral_of_held hne ha.1 hb)
  unfold credited
  constructor
  · intro h
    split at h
    · cases h
      by_cases hn : Neutral r i
      · exact .inr ⟨rfl, hn⟩
      · exact .inl ⟨‹_›, hn⟩
    rename_i hori
    have hown (t) (hh : Held r t i) : Own r t i := ⟨hh, fun hn => hori (hn.held ori)⟩
    left
    split at h
    · cases h; exact hown _ ‹_›
    split at h
    · cases h; exact hown _ ‹_›
    split at h
    · cases h; exact hown _ ‹_›
    · cases h
  · rintro (h | ⟨rfl, h⟩)
    · simp only [fourTeams, List.mem_cons, List.not_mem_nil, or_false] at ht
      rcases ht with rfl | rfl | rfl | rfl
      · rw [if_neg (hexcl _ _ (by decide) h), if_neg (hexcl _ _ (by decide) h), if_neg (hexcl _ _ (by decide) h), if_pos h.1]
      · rw [if_neg (hexcl _ _ (by decide) h), if_neg (hexcl _ _ (by decide) h), if_pos h.1]
      · rw [if_neg (hexcl _ _ (by decide) h), if_pos h.1]
      · rw [if_pos h.1]
    · rw [if_pos (h.held ori)]

theorem Realm.victory_cases (r : Realm) : r.victory = 2 ∨ r.victory = 3 := by
  unfold Realm.victory Setup.victory
  split
  · exact .inl rfl
  · exact .inr rfl

theorem systems_congr {p q : Fin 4 → Prop} [DecidablePred p] [DecidablePred q] (h : ∀ i, p i ↔ q i) : systems p = systems q := by
  unfold systems
  simp only [h]

/-- What a team holds are the systems of its own and the neutral ones. -/
theorem systems_held (r : Realm) (t : Word) : systems (Held r t) = systems (Own r t) + systems (Neutral r) := by
  unfold systems
  rw [← Finset.card_union_of_disjoint]
  · congr 1
    ext i
    simp only [Finset.mem_filter, Finset.mem_univ, true_and, Finset.mem_union]
    by_cases hn : Neutral r i
    · exact iff_of_true (hn.held t) (.inr hn)
    · simp only [hn, or_false]
      exact ⟨fun h => ⟨h, hn⟩, fun h => h.1⟩
  · rw [Finset.disjoint_filter]
    exact fun i _ h => h.2

theorem homeSystems_ori {r : Realm} (ho : Owned r) : homeSystems r ori = systems (Own r ori) + systems (Neutral r) := by
  rw [homeSystems_eq ho, ← systems_held]
  apply systems_congr
  intro i
  rw [credited_iff (by decide)]
  simp only [true_and]
  by_cases hn : Neutral r i
  · exact iff_of_true (.inr hn) (hn.held ori)
  · simp only [hn, or_false]
    exact ⟨fun h => h.1, fun h => ⟨h, hn⟩⟩

theorem homeSystems_other {r : Realm} (ho : Owned r) {t : Word} (ht : t ∈ fourTeams) (hne : t ≠ ori) :
    homeSystems r t = systems (Own r t) := by
  rw [homeSystems_eq ho]
  apply systems_congr
  intro i
  rw [credited_iff ht]
  simp [hne]

/-- No system is of two kinds. -/
theorem systems_le (r : Realm) : systems (Own r fed) + systems (Own r rom) + systems (Own r kli) + systems (Own r ori) +
    systems (Neutral r) ≤ 4 := by
  have hone (i : Fin 4) : (if Own r fed i then 1 else 0) + (if Own r rom i then 1 else 0) + (if Own r kli i then 1 else 0) +
      (if Own r ori i then 1 else 0) + (if Neutral r i then 1 else 0) ≤ 1 := by
    have hexcl (a b) (hne : a ≠ b) (ha : Own r a i) : ¬ Own r b i := fun hb => ha.2 (neutral_of_held hne ha.1 hb.1)
    by_cases hn : Neutral r i
    · simp [Own, hn]
    by_cases h1 : Own r fed i
    · simp [h1, hn, hexcl fed rom (by decide) h1, hexcl fed kli (by decide) h1, hexcl fed ori (by decide) h1]
    by_cases h2 : Own r rom i
    · simp [h1, h2, hn, hexcl rom kli (by decide) h2, hexcl rom ori (by decide) h2]
    by_cases h3 : Own r kli i
    · simp [h1, h2, h3, hn, hexcl kli ori (by decide) h3]
    · simp only [h1, h2, h3, hn, if_false, Nat.zero_add, Nat.add_zero]
      split <;> omega
  unfold systems
  simp only [Finset.card_filter]
  rw [← Finset.sum_add_distrib, ← Finset.sum_add_distrib, ← Finset.sum_add_distrib, ← Finset.sum_add_distrib]
  exact (Finset.sum_le_sum fun i _ => hone i).trans (by simp)

/-- A team with a system of its own has a planet. -/
theorem owns_of_own {r : Realm} {t : Word} (h : 0 < systems (Own r t)) : ∃ l, r.owner l = t := by
  obtain ⟨i, hi⟩ := Finset.card_pos.1 h
  obtain ⟨hheld, hn⟩ := (Finset.mem_filter.1 hi).2
  by_contra hnone
  refine hn fun p => ?_
  rcases hheld p with hp | hp
  · exact absurd ⟨_, hp⟩ hnone
  · exact hp

/-! ## The answer -/

/-- Nothing but the teams is changed. -/
structure SameRealm (r r' : Realm) : Prop where
  server : r'.server = r.server
  announced : r'.announced = r.announced

theorem SameRealm.foldl {ι : Type} {f : Realm → ι → Realm} (hf : ∀ r i, SameRealm r (f r i)) :
    ∀ (l : List ι) (r : Realm), SameRealm r (l.foldl f r)
  | [], _ => ⟨rfl, rfl⟩
  | i :: l, r => ⟨(foldl hf l (f r i)).server.trans (hf r i).server, (foldl hf l (f r i)).announced.trans (hf r i).announced⟩

theorem sameRealm_countSystem (r : Realm) (i : Fin 4) : SameRealm r (countSystem r i) :=
  SameRealm.foldl (f := fun r h => countPlanet r (systemPlanet i h)) (fun _ _ => ⟨rfl, rfl⟩) _ r

theorem recount_frame (r : Realm) : SameRealm r (recount r) := by
  have h1 : SameRealm r ((nobody :: fourTeams).foldl clearCount r) :=
    SameRealm.foldl (f := clearCount) (fun _ _ => ⟨rfl, rfl⟩) _ r
  have h2 := SameRealm.foldl sameRealm_countSystem (List.finRange 4) ((nobody :: fourTeams).foldl clearCount r)
  exact ⟨h2.server.trans h1.server, h2.announced.trans h1.announced⟩

theorem endSurrender_frame (r : Realm) (w : Slot) :
    (endSurrender r w).server = r.server ∧ (endSurrender r w).announced = r.announced := by
  unfold endSurrender
  dsimp only
  split <;> exact ⟨rfl, rfl⟩

theorem checkPret_frame (r : Realm) (w : Slot) : (checkPret r w).announced = r.announced ∧
    ((checkPret r w).server = r.server ∨ (checkPret r w).server = conquerBeginPret r.server w) := by
  unfold checkPret
  dsimp only
  split
  · split
    · exact ⟨rfl, .inr rfl⟩
    · exact ⟨rfl, .inl rfl⟩
  · exact ⟨rfl, .inl rfl⟩

/-- Some team has enough home systems that count for it. -/
def Enough (r : Realm) : Prop := ∃ t ∈ fourTeams, r.victory ≤ homeSystems r t

/-- Outside a league game the check goes by the home systems. -/
theorem checkwin_spec {r : Realm} (hinl : r.server.setup.inlMode = false) (w : Slot) :
    (Enough r → Reports r w) ∧ (¬ Enough r → Silent r w) := by
  obtain ⟨hs, ha⟩ := endSurrender_frame (recount r) w
  obtain ⟨hs', ha'⟩ := recount_frame r
  have hserver := hs.trans hs'
  have hannounced := ha.trans ha'
  have hany : (fourTeams.any fun t => r.victory ≤ homeSystems r t) = true ↔ Enough r := by
    unfold Enough
    simp
  constructor
  · intro he
    have he := hany.2 he
    constructor <;> unfold checkwin <;> simp only [hinl, Bool.false_eq_true, if_false, he, if_true]
    · unfold Realm.player
      rw [hserver, hannounced]
    · rw [hserver]
  · intro hn
    have hn : (fourTeams.any fun t => r.victory ≤ homeSystems r t) = false := by
      rw [← Bool.not_eq_true, hany]
      exact hn
    obtain ⟨hpa, hps⟩ := checkPret_frame (endSurrender (recount r) w) w
    rw [hserver] at hps
    constructor <;> unfold checkwin <;> simp only [hinl, Bool.false_eq_true, if_false, hn]
    · exact hpa.trans hannounced
    · exact hps

theorem answer_iff {r : Realm} (hinl : r.server.setup.inlMode = false) (w : Slot) :
    (checkwin r w).2 = true ↔ Enough r := by
  obtain ⟨hyes, hno⟩ := checkwin_spec hinl w
  constructor
  · intro h
    by_contra hn
    rw [(hno hn).answer] at h
    cases h
  · exact fun h => (hyes h).answer

theorem announced_eq {r : Realm} (hinl : r.server.setup.inlMode = false) (w : Slot) :
    (checkwin r w).1.announced = if (checkwin r w).2 = true then (r.player w).team :: r.announced else r.announced := by
  obtain ⟨hyes, hno⟩ := checkwin_spec hinl w
  by_cases he : Enough r
  · rw [(hyes he).answer, (hyes he).announced, if_pos rfl]
  · rw [(hno he).answer, (hno he).announced, if_neg (by decide)]

/-- The announcement has the new names if the answer stays the same. -/
theorem announced_rename {r : Realm} (hinl : r.server.setup.inlMode = false) (w : Slot) {f : Word → Word}
    (h : (checkwin (r.rename f) w).2 = (checkwin r w).2) :
    (checkwin (r.rename f) w).1.announced = (checkwin r w).1.announced.map f := by
  rw [announced_eq (r := r.rename f) hinl, announced_eq hinl, h]
  split <;> rfl

/-- What the check goes by: a team's own systems, or those of the Orions and the neutral ones. -/
theorem enough_iff {r : Realm} (ho : Owned r) :
    Enough r ↔ (∃ t ∈ fourTeams, r.victory ≤ systems (Own r t)) ∨ r.victory ≤ systems (Own r ori) + systems (Neutral r) := by
  constructor
  · rintro ⟨t, ht, h⟩
    by_cases hori : t = ori
    · subst hori
      rw [homeSystems_ori ho] at h
      exact .inr h
    · rw [homeSystems_other ho ht hori] at h
      exact .inl ⟨t, ht, h⟩
  · rintro (⟨t, ht, h⟩ | h)
    · refine ⟨t, ht, ?_⟩
      by_cases hori : t = ori
      · subst hori
        rw [homeSystems_ori ho]
        omega
      · rw [homeSystems_other ho ht hori]
        exact h
    · refine ⟨ori, by decide, ?_⟩
      rw [homeSystems_ori ho]
      exact h

/-- If some planet is owned, enough systems mean a conquest. -/
theorem conquers_of_enough {r : Realm} (ho : Owned r) (hplanet : ∃ l, r.owner l ≠ nobody) (h : Enough r) :
    ∃ t, Conquers r t := by
  have hown : ∀ t ∈ fourTeams, 0 < systems (Own r t) → r.victory ≤ systems (Own r t) + systems (Neutral r) → Conquers r t := by
    intro t ht hpos hle
    refine ⟨ht, owns_of_own hpos, ?_⟩
    rw [systems_held]
    exact hle
  rcases (enough_iff ho).1 h with ⟨t, ht, hle⟩ | hle
  · exact ⟨t, hown t ht (by have := r.victory_cases; omega) (by omega)⟩
  · by_cases hpos : 0 < systems (Own r ori)
    · exact ⟨ori, hown ori (by decide) hpos hle⟩
    -- enough neutral systems: whoever has a planet has conquered
    · obtain ⟨l, hl⟩ := hplanet
      have ht : r.owner l ∈ fourTeams := (List.mem_cons.1 (ho l)).resolve_left hl
      refine ⟨r.owner l, ht, ⟨l, rfl⟩, ?_⟩
      rw [systems_held]
      omega

theorem enough_of_systems {r : Realm} (ho : Owned r)
    (hs : r.victory ≤ systems (Neutral r) ∨ ∃ t' ∈ fourTeams, r.victory ≤ systems (Own r t')) : Enough r := by
  rw [enough_iff ho]
  rcases hs with hs | hs
  · right
    omega
  · exact .inl hs

/-! ## Other names -/

section Rename

variable {r : Realm} {f : Equiv.Perm Word} (hf : Renaming f)

include hf

theorem Renaming.eq_nobody {o : Word} : f o = Netrek.nobody ↔ o = Netrek.nobody := by
  constructor
  · intro h
    exact f.injective (h.trans hf.nobody.symm)
  · rintro rfl
    exact hf.nobody

theorem held_rename (t : Word) (i : Fin 4) : Held (r.rename f) (f t) i ↔ Held r t i := by
  apply forall_congr'
  intro h
  show f (r.owner _) = f t ∨ f (r.owner _) = Netrek.nobody ↔ _
  rw [f.apply_eq_iff_eq, hf.eq_nobody]

theorem neutral_rename (i : Fin 4) : Neutral (r.rename f) i ↔ Neutral r i := by
  apply forall_congr'
  intro h
  show f (r.owner _) = Netrek.nobody ↔ _
  rw [hf.eq_nobody]

theorem systems_own_rename (t : Word) : systems (Own (r.rename f) (f t)) = systems (Own r t) :=
  systems_congr fun i => and_congr (held_rename hf t i) (not_congr (neutral_rename hf i))

theorem systems_neutral_rename : systems (Neutral (r.rename f)) = systems (Neutral r) :=
  systems_congr (neutral_rename hf)

theorem conquers_rename (t : Word) : Conquers (r.rename f) (f t) ↔ Conquers r t := by
  have howns : (∃ l, (r.rename f).owner l = f t) ↔ ∃ l, r.owner l = t :=
    exists_congr fun l => f.apply_eq_iff_eq
  have hheld : systems (Held (r.rename f) (f t)) = systems (Held r t) := systems_congr (held_rename hf t)
  constructor
  · rintro ⟨h1, h2, h3⟩
    exact ⟨(hf.team t).1 h1, howns.1 h2, hheld ▸ h3⟩
  · rintro ⟨h1, h2, h3⟩
    exact ⟨(hf.team t).2 h1, howns.2 h2, hheld ▸ h3⟩

theorem owned_rename (ho : Owned r) : Owned (r.rename f) := by
  intro l
  show f (r.owner l) ∈ _
  rcases List.mem_cons.1 (ho l) with h | h
  · rw [h, hf.nobody]
    exact List.mem_cons_self ..
  · exact List.mem_cons_of_mem _ ((hf.team _).2 h)

/-- Some team has conquered under other names exactly if one has. -/
theorem exists_conquers_rename : (∃ t, Conquers (r.rename f) t) ↔ ∃ t, Conquers r t := by
  constructor
  · rintro ⟨t, h⟩
    refine ⟨f.symm t, (conquers_rename hf _).1 ?_⟩
    rw [f.apply_symm_apply]
    exact h
  · rintro ⟨t, h⟩
    exact ⟨f t, (conquers_rename hf t).2 h⟩

end Rename

/-- Two teams change names. -/
theorem renaming_swap {a b : Word} (ha : a ∈ fourTeams) (hb : b ∈ fourTeams) : Renaming (Equiv.swap a b) := by
  have hn : ∀ t ∈ fourTeams, nobody ≠ t := by
    rintro t ht rfl
    revert ht
    decide
  constructor
  · exact Equiv.swap_apply_of_ne_of_ne (hn a ha) (hn b hb)
  · intro t
    rw [Equiv.swap_apply_def]
    split
    · subst_vars
      exact iff_of_true hb ha
    split
    · subst_vars
      exact iff_of_true ha hb
    · rfl

/-! ## When the check is right -/

/-- Of a clear galaxy the check says what is so. -/
theorem answer_of_clear {r : Realm} (hinl : r.server.setup.inlMode = false) (ho : Owned r) (w : Slot)
    (hplanet : ∃ l, r.owner l ≠ nobody)
    (hs : ∀ t, Conquers r t → r.victory ≤ systems (Neutral r) ∨ ∃ t' ∈ fourTeams, r.victory ≤ systems (Own r t')) :
    (checkwin r w).2 = true ↔ ∃ t, Conquers r t := by
  rw [answer_iff hinl]
  constructor
  · exact conquers_of_enough ho hplanet
  · rintro ⟨t, h⟩
    exact enough_of_systems ho (hs t h)

/-- A winner in the sense of the counts is detected. -/
theorem Clear.detects {r : Realm} (hinl : r.server.setup.inlMode = false) (ho : Owned r) {w : Slot} (h : Clear r w) :
    Detects r w := by
  have hanswer := answer_of_clear hinl ho w h.owned h.systems
  obtain ⟨hyes, hno⟩ := checkwin_spec hinl w
  constructor
  · intro hc
    exact hyes ((answer_iff hinl w).1 (hanswer.2 hc))
  · intro hc
    exact hno fun he => hc (hanswer.1 ((answer_iff hinl w).2 he))
  · intro hr
    obtain ⟨t, ht⟩ := hanswer.1 hr.answer
    exact h.winner t ht
  · intro f hf
    have hplanet : ∃ l, (r.rename f).owner l ≠ nobody := by
      obtain ⟨l, hl⟩ := h.owned
      exact ⟨l, fun he => hl (hf.eq_nobody.1 he)⟩
    suffices heq : (checkwin (r.rename f) w).2 = (checkwin r w).2 from ⟨heq, announced_rename hinl w heq⟩
    rw [Bool.eq_iff_iff, hanswer, ← exists_conquers_rename hf]
    apply answer_of_clear (r := r.rename f) hinl (owned_rename hf ho) w hplanet
    intro t ht
    obtain ⟨t, rfl⟩ := f.surjective t
    rw [conquers_rename hf] at ht
    rw [systems_neutral_rename hf]
    rcases h.systems t ht with hn | ⟨t', ht', hown⟩
    · exact .inl hn
    · right
      refine ⟨f t', (hf.team t').2 ht', ?_⟩
      rw [systems_own_rename hf]
      exact hown

/-- If the answer is the same for all names and some team conquers, enough systems are neutral or a team's own. -/
theorem clear_of_symmetric {r : Realm} (hinl : r.server.setup.inlMode = false) (ho : Owned r) {w : Slot}
    (hyes : (checkwin r w).2 = true)
    (hsym : ∀ f : Equiv.Perm Word, Renaming f → (checkwin (r.rename f) w).2 = (checkwin r w).2) :
    r.victory ≤ systems (Neutral r) ∨ ∃ t ∈ fourTeams, r.victory ≤ systems (Own r t) := by
  by_contra hn
  rw [not_or] at hn
  obtain ⟨hneutral, hown⟩ := hn
  -- with any team in the place of the Orions the neutral systems have to make up what it lacks
  have hall : ∀ t ∈ fourTeams, r.victory ≤ systems (Own r t) + systems (Neutral r) := by
    intro t ht
    have hf := renaming_swap ht (b := ori) (by decide)
    have h := (hsym _ hf).trans hyes
    rw [answer_iff (r := r.rename _) hinl, enough_iff (owned_rename hf ho)] at h
    rcases h with ⟨t', ht', h⟩ | h
    · refine absurd ⟨Equiv.swap t ori t', (hf.team t').2 ht', ?_⟩ hown
      rw [← systems_own_rename hf, Equiv.swap_apply_self]
      exact h
    · rw [systems_neutral_rename hf] at h
      have he := systems_own_rename (r := r) hf t
      rw [Equiv.swap_apply_left] at he
      rw [← he]
      exact h
  have hle := systems_le r
  have hfed := hall fed (by decide)
  have hrom := hall rom (by decide)
  have hkli := hall kli (by decide)
  have hori := hall ori (by decide)
  have hlt : ∀ t ∈ fourTeams, systems (Own r t) < r.victory := fun t ht => not_le.1 fun h => hown ⟨t, ht, h⟩
  have hfed' := hlt fed (by decide)
  rcases r.victory_cases with hv | hv <;> rw [hv] at * <;> omega

/-- And only such a winner is. -/
theorem Detects.clear {r : Realm} (hinl : r.server.setup.inlMode = false) (ho : Owned r) {w : Slot} (h : Detects r w) :
    Clear r w := by
  constructor
  · by_contra hn
    have hneutral : ∀ l, r.owner l = nobody := by
      intro l
      by_contra hl
      exact hn ⟨l, hl⟩
    -- nobody has a planet, and all four systems count for the Orions
    have hnone : ¬ ∃ t, Conquers r t := by
      rintro ⟨t, ht⟩
      obtain ⟨l, hl⟩ := ht.owns
      rw [hneutral] at hl
      exact absurd (hl ▸ ht.team) (by decide)
    have hfour : systems (Neutral r) = 4 := by
      have htrue : systems (Neutral r) = systems fun _ => True :=
        systems_congr fun i => iff_of_true (fun p => hneutral _) trivial
      rw [htrue]
      rfl
    have henough : Enough r := (enough_iff ho).2 (.inr (by rw [hfour]; have := r.victory_cases; omega))
    have hyes := (answer_iff hinl w).2 henough
    rw [(h.silent hnone).answer] at hyes
    cases hyes
  · intro t ht
    exact h.winner (h.reports ⟨t, ht⟩)
  · intro t ht
    exact clear_of_symmetric hinl ho (h.reports ⟨t, ht⟩).answer fun f hf => (h.symmetric f hf).1

/-- Outside a league game, whoever owns the planets and whichever player it is called for, the check detects conquest as it
should exactly if the galaxy is clear. -/
theorem conquest_detected {r : Realm} (hinl : r.server.setup.inlMode = false) (ho : Owned r) (w : Slot) :
    Detects r w ↔ Clear r w :=
  ⟨Detects.clear hinl ho, Clear.detects hinl ho⟩

/-! ## A conquest that is missed -/

/-- A game of two races, with these owners of the home systems and a player in slot 0 of a team. -/
def realm (owners : List Word) (team : Word) : Realm :=
  { (default : Realm) with
    server :=
      { (default : Server) with
        setup := { (default : Setup) with twoRace := true }
        mem :=
          { (default : Memory) with
            planets := fun l => { (default : Planet) with owner := owners.getD (l.val / 10) nobody }
            players := fun _ => { (default : Player) with team := team } } } }

/-- The Federation holds its system and a neutral one, the Romulans and the Klingons hold the others. -/
def oneAndOne : Realm := realm [fed, nobody, rom, kli] fed

/-- The Federation holds three systems and the Romulans one. -/
def three : Realm := realm [fed, fed, fed, rom] fed

theorem owned_realm {owners : List Word} (h : (owners.all (nobody :: fourTeams).contains) = true) (team : Word) :
    Owned (realm owners team) := by
  intro l
  have hall := List.all_eq_true.1 h
  show owners.getD (l.val / 10) nobody ∈ nobody :: fourTeams
  rw [List.getD_eq_getElem?_getD]
  cases hl : owners[l.val / 10]? with
  | none => exact List.mem_cons_self
  | some o => exact List.contains_iff_mem.1 (hall o (List.mem_of_getElem? hl))

/-- A third system conquered. -/
theorem conquest_detected_three : Detects three 0 := by
  have hc : ∀ t, Conquers three t → t = fed := by
    rintro t ⟨ht, -, hs⟩
    simp only [fourTeams, List.mem_cons, List.not_mem_nil, or_false] at ht
    rcases ht with rfl | rfl | rfl | rfl
    · rfl
    · exact absurd hs (by decide +kernel)
    · exact absurd hs (by decide +kernel)
    · exact absurd hs (by decide +kernel)
  refine (conquest_detected rfl (owned_realm (by decide) fed) 0).2 ⟨⟨0, by decide⟩, ?_, ?_⟩
  · intro t ht
    rw [hc t ht] at ht
    exact ht
  · intro t _
    exact .inr ⟨fed, by decide, by decide +kernel⟩

/-- The Federation has conquered, and nothing is reported. -/
theorem conquest_missed : Owned oneAndOne ∧ oneAndOne.server.setup.inlMode = false ∧ (oneAndOne.player 0).team = fed ∧
    Conquers oneAndOne fed ∧ Silent oneAndOne 0 ∧ ¬ Detects oneAndOne 0 := by
  have hc : Conquers oneAndOne fed := ⟨by decide, ⟨0, by decide⟩, by decide +kernel⟩
  have hn : ¬ Enough oneAndOne := by
    rintro ⟨t, ht, h⟩
    have hall := List.all_eq_true.1 (show (fourTeams.all fun t => homeSystems oneAndOne t < oneAndOne.victory) = true by decide +kernel)
    have := of_decide_eq_true (hall t ht)
    omega
  have hs : Silent oneAndOne 0 := (checkwin_spec rfl 0).2 hn
  refine ⟨owned_realm (by decide) fed, rfl, rfl, hc, hs, fun hd => ?_⟩
  have h := (hd.reports ⟨fed, hc⟩).answer
  rw [hs.answer] at h
  cases h

end Netrek.Empire
