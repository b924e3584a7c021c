/-
A torp explodes once, unless it hits a wall with a ship near it that outlives the explosion: then
`udtorps` goes on to `t_near` in the same tick, and the torp explodes again.
-/
import NetrekServer.Daemon.Blast
import NetrekServer.Lib.Run

namespace Netrek.Daemon

open Lib

/-! ## One explosion -/

theorem tExplosion_torp (s : Server) (k i : Nat) :
    (tExplosion s k).torp i =
      if i = k then { s.torp k with status := .texplode, fuse := 10 * s.setup.tpf } else s.torp i := by
  have hcalm := tExplosionLoop_calm k (List.finRange maxPlayer) (s.record (.exploded k))
  unfold tExplosion
  generalize (List.finRange maxPlayer).foldl (tExplosionOn k) (s.record (.exploded k)) = s1 at *
  rw [Server.torp_modifyTorp]
  unfold Server.torp
  rw [hcalm.torps, hcalm.setup]
  rfl

/-- An explosion is noted once, and each of its victims at most once. -/
theorem tExplosion_log (s : Server) (k : Nat) :
    (∀ i, explosions i (tExplosion s k).log = explosions i s.log + if i = k then 1 else 0) ∧
      ∀ i v, hurts i v (tExplosion s k).log ≤ hurts i v s.log + if i = k then 1 else 0 := by
  obtain ⟨he, hh⟩ := tExplosionLoop_log k (List.finRange maxPlayer) (s.record (.exploded k))
  unfold tExplosion
  rw [Server.log_modifyTorp]
  refine ⟨fun i => ?_, fun i v => ?_⟩
  · rw [he, Server.log_record, explosions, if_congr eq_comm rfl rfl]
    split <;> rfl
  · have hcount := List.nodup_iff_count_le_one.1 (List.nodup_finRange maxPlayer) v
    have h := hh i v
    have hlog : hurts i v (s.record (.exploded k)).log = hurts i v s.log := rfl
    rw [hlog] at h
    by_cases hi : i = k
    · rw [if_pos hi] at h ⊢; omega
    · rw [if_neg hi] at h ⊢; omega

/-- All that an explosion changes but the torp it changes in the loop over the ships. -/
theorem tExplosion_calm (s : Server) (k : Nat) : (tExplosion s k).setup = s.setup ∧
    (tExplosion s k).mem.planets = s.mem.planets ∧ (tExplosion s k).mem.status.tourn = s.mem.status.tourn := by
  have hcalm := tExplosionLoop_calm k (List.finRange maxPlayer) (s.record (.exploded k))
  unfold tExplosion
  generalize (List.finRange maxPlayer).foldl (tExplosionOn k) (s.record (.exploded k)) = s1 at *
  exact ⟨hcalm.setup, hcalm.planets, hcalm.tourn⟩

/-! ## Ships near a wall -/

/-- The torp as the wall sets it off. -/
def atWall (t : Torp) : Torp := { t with status := .tdet, whodet := some t.owner }

/-- The ship lives on after the explosion at the wall, and is not idle. -/
def Outlives (s : Server) (t : Torp) (j : Slot) : Prop :=
  match tHits s (atWall t) j with
  | none => (s.player j).status = .palive ∧ s.isIdle j = false
  | some d =>
    destroyed (inflict (s.player j) d) = false ∧ (s.modifyPlayer j fun p => inflict p d).isIdle j = false

/-- A ship that the torp seeks is near it at the wall, and outlives the explosion. -/
def WallNear (s : Server) (t : Torp) : Prop := ∃ j, j ≠ t.owner ∧ tNearTo t (s.player j) = true ∧ Outlives s t j

theorem tNear_iff (s : Server) (t : Torp) : tNear s t = true ↔
    ∃ j, (s.player j).status = .palive ∧ j ≠ t.owner ∧ tNearTo t (s.player j) = true ∧ s.isIdle j = false := by
  unfold tNear
  simp only [List.any_eq_true, List.mem_finRange, true_and, Bool.and_eq_true, beq_iff_eq, bne_iff_ne,
    Bool.not_eq_true', and_assoc, ne_comm]

theorem tNearTo_inflict (t : Torp) (p : Player) (d : Int) : tNearTo t (inflict p d) = tNearTo t p := by
  unfold inflict
  split
  · split <;> rfl
  · rfl

/-- A ship near a torp after its explosion at the wall was near it before, and outlives it. -/
theorem wallNear_of_tNear {s : Server} {k : Nat} {t : Torp} (ht : s.torp k = atWall t)
    (h : tNear (tExplosion s k) t = true) : WallNear s t := by
  obtain ⟨j, halive, hne, hnear, hidle⟩ := (tNear_iff _ t).1 h
  obtain ⟨hset, hpl, htn⟩ := tExplosion_calm s k
  have hstruck := tExplosionLoop_struck k (j := j) (List.finRange maxPlayer) (s.record (.exploded k))
    (List.nodup_finRange _) (List.mem_finRange j)
  rw [Server.torp_record, ht] at hstruck
  replace hstruck := hstruck hne fun hd => hne (Option.some.inj hd).symm
  have hplayer : (tExplosion s k).player j =
      ((List.finRange maxPlayer).foldl (tExplosionOn k) (s.record (.exploded k))).player j := by
    unfold tExplosion
    rw [Server.player_modifyTorp]
  have hhits : tHits (s.record (.exploded k)) (atWall t) j = tHits s (atWall t) j := rfl
  rw [← hplayer] at hstruck
  generalize tExplosion s k = s' at *
  have hidle' : ∀ s0 : Server, s0.player j = s'.player j → s0.setup = s.setup →
      s0.mem.planets = s.mem.planets → s0.mem.status = s.mem.status → s0.isIdle j = false := by
    intro s0 h1 h2 h3 h4
    rw [← hidle]
    unfold Server.isIdle Server.planet
    rw [h1, h2, h3, h4, hset, hpl, htn]
  refine ⟨j, hne, ?_, ?_⟩
  · unfold Struck at hstruck
    rw [hhits] at hstruck
    split at hstruck
    · rw [hstruck] at hnear; exact hnear
    · split at hstruck
      · rw [hstruck] at halive; cases halive
      · rw [hstruck, tNearTo_inflict] at hnear; exact hnear
  · unfold Struck at hstruck
    unfold Outlives
    rw [hhits] at hstruck
    cases hd : tHits s (atWall t) j with
    | none =>
      simp only [hd] at hstruck ⊢
      have hp : s.player j = s'.player j := hstruck.symm
      exact ⟨by rw [hp]; exact halive, hidle' s hp rfl rfl rfl⟩
    | some d =>
      simp only [hd] at hstruck ⊢
      split at hstruck
      · rw [hstruck] at halive; cases halive
      · rename_i hsurv
        refine ⟨Bool.not_eq_true _ ▸ hsurv, hidle' _ ?_ rfl rfl rfl⟩
        rw [Server.player_modifyPlayer, if_pos rfl]
        exact hstruck.symm

/-! ## The invariant -/

/-- Every torp has exploded at most once, and hurt each ship at most once, since it began to move. -/
def Once (s : Server) : Prop := ∀ k, explosions k s.log ≤ 1 ∧ ∀ j, hurts k j s.log ≤ 1

/-- The torp is yet to explode. -/
def Armed (t : Torp) : Prop := t.status = .tmove ∨ t.status = .tdet

structure Inv (s : Server) : Prop where
  once : Once s
  armed : ∀ k, Armed (s.torp k) → explosions k s.log = 0 ∧ ∀ j, hurts k j s.log = 0

/-- No explosion, and no torp that is armed again. -/
theorem Inv.quiet {s s' : Server} (h : Inv s) (hlog : (∀ k, explosions k s'.log = explosions k s.log) ∧
    ∀ k j, hurts k j s'.log = hurts k j s.log) (harmed : ∀ k, Armed (s'.torp k) → Armed (s.torp k)) : Inv s' := by
  refine ⟨fun k => ?_, fun k hk => ?_⟩
  · rw [hlog.1]
    exact ⟨(h.once k).1, fun j => by rw [hlog.2]; exact (h.once k).2 j⟩
  · rw [hlog.1]
    exact ⟨(h.armed k (harmed k hk)).1, fun j => by rw [hlog.2]; exact (h.armed k (harmed k hk)).2 j⟩

theorem Inv.modifyTorp {s : Server} (h : Inv s) (k : Nat) {f : Torp → Torp}
    (hf : Armed (f (s.torp k)) → Armed (s.torp k)) : Inv (s.modifyTorp k f) := by
  refine h.quiet ⟨fun _ => rfl, fun _ _ => rfl⟩ fun i hi => ?_
  rw [Server.torp_modifyTorp] at hi
  split at hi
  · subst i; exact hf hi
  · exact hi

theorem Inv.record {s : Server} (h : Inv s) {e : Event} (he : Plain e) : Inv (s.record e) :=
  h.quiet ⟨fun _ => explosions_plain he _, fun _ _ => hurts_plain he _⟩ fun _ => id

/-- A torp that is armed may explode. -/
theorem Inv.explosion {s : Server} (h : Inv s) {k : Nat} (hk : Armed (s.torp k)) : Inv (tExplosion s k) := by
  obtain ⟨he, hh⟩ := tExplosion_log s k
  have hold := h.armed k hk
  refine ⟨fun i => ?_, fun i hi => ?_⟩
  · rw [he]
    by_cases hik : i = k
    · subst i
      rw [if_pos rfl, hold.1]
      refine ⟨Nat.le_refl _, fun j => (hh k j).trans ?_⟩
      rw [if_pos rfl, hold.2]
    · rw [if_neg hik]
      refine ⟨(h.once i).1, fun j => (hh i j).trans ?_⟩
      rw [if_neg hik]
      exact (h.once i).2 j
  · rw [tExplosion_torp] at hi
    split at hi
    · rcases hi with hi | hi <;> cases hi
    · rename_i hik
      obtain ⟨h1, h2⟩ := h.armed i hi
      refine ⟨by rw [he, if_neg hik, h1], fun j => ?_⟩
      have := hh i j
      rw [if_neg hik, h2] at this
      omega

/-! ## Ticks -/

theorem freeTorp_inv {s : Server} (h : Inv s) (k : Nat) : Inv (freeTorp s k) := by
  have h1 : Inv (s.modifyTorp k fun t => { t with status := .tfree }) :=
    h.modifyTorp k fun ha => by rcases ha with ha | ha <;> cases ha
  unfold freeTorp
  simp only
  split <;> exact h1.quiet ⟨fun _ => rfl, fun _ _ => rfl⟩ fun _ => id

theorem tWobble_inv {s : Server} (h : Inv s) (k : Nat) : Inv (tWobble s k) := by
  have h1 : Inv s.draw.2 := h.quiet ⟨fun _ => rfl, fun _ _ => rfl⟩ fun _ => id
  exact h1.modifyTorp k id

/-- Wobbling changes the direction of the torp. -/
theorem tWobble_tNear (s : Server) (k : Nat) : tNear (tWobble s k) ((tWobble s k).torp k) = tNear s (s.torp k) := by
  have ht : (tWobble s k).torp k = { s.torp k with dir := (s.torp k).dir + UInt8.ofNat (s.draw.1 % 3) - 1 } := by
    unfold tWobble
    simp only [Server.torp_modifyTorp, if_true]
    rfl
  rw [ht]
  rfl

theorem tWobble_armed {s : Server} {k : Nat} (h : Armed (s.torp k)) : Armed ((tWobble s k).torp k) := by
  unfold tWobble
  simp only [Server.torp_modifyTorp, if_true]
  exact h

/-- The work at the normal rate: a torp that a ship sets off is armed. -/
theorem tSeek_inv {s : Server} (h : Inv s) {k : Nat} (hk : tNear s (s.torp k) = true → Armed (s.torp k)) :
    Inv (tSeek s k) := by
  have hwob : Inv (if (s.torp k).attributes.has Netrek.tWobble then tWobble s k else s) ∧
      tNear (if (s.torp k).attributes.has Netrek.tWobble then tWobble s k else s)
        ((if (s.torp k).attributes.has Netrek.tWobble then tWobble s k else s).torp k) = tNear s (s.torp k) ∧
      (Armed (s.torp k) → Armed ((if (s.torp k).attributes.has Netrek.tWobble then tWobble s k else s).torp k)) := by
    split
    · exact ⟨tWobble_inv h k, tWobble_tNear s k, tWobble_armed⟩
    · exact ⟨h, rfl, id⟩
  unfold tSeek
  generalize (if (s.torp k).attributes.has Netrek.tWobble then tWobble s k else s) = s1 at *
  simp only
  split
  · rename_i hnear
    refine (hwob.1.record (e := .torpHit _ _) trivial).explosion ?_
    exact hwob.2.2 (hk (hwob.2.1 ▸ hnear))
  · exact hwob.1

/-- At the wall a torp explodes, and a ship near it afterwards was near it before. -/
theorem tHitWall_inv {s : Server} (h : Inv s) {k : Nat} (hk : Armed (s.torp k)) :
    Inv (tHitWall s k) ∧ (tNear (tHitWall s k) ((tHitWall s k).torp k) = true → WallNear s (s.torp k)) := by
  have hwall : (s.modifyTorp k atWall).torp k = atWall (s.torp k) := by rw [Server.torp_modifyTorp, if_pos rfl]
  have h1 : Inv (tExplosion (s.modifyTorp k atWall) k) :=
    (h.modifyTorp k fun _ => hk).explosion (by rw [hwall]; exact .inr rfl)
  have htorp := tExplosion_torp (s.modifyTorp k atWall) k k
  rw [if_pos rfl, hwall] at htorp
  have hfar : tNear (tExplosion (s.modifyTorp k atWall) k) (s.torp k) = true → WallNear s (s.torp k) :=
    wallNear_of_tNear hwall
  unfold tHitWall
  change Inv (Server.record (tExplosion (s.modifyTorp k atWall) k) _) ∧
    (tNear (Server.record (tExplosion (s.modifyTorp k atWall) k) _)
      ((Server.record (tExplosion (s.modifyTorp k atWall) k) _).torp k) = true → _)
  generalize tExplosion (s.modifyTorp k atWall) k = s1 at *
  refine ⟨h1.record trivial, fun hnear => hfar ?_⟩
  rw [Server.torp_record, htorp] at hnear
  exact hnear

theorem tAdvance_status (s : Server) (t : Torp) : (tAdvance s t).1.status = t.status := by
  unfold tAdvance tCheckWall tMove
  simp only
  split
  · unfold tTrack
    simp only
    split
    · rfl
    · split <;> rfl
  · rfl

/-- A moving torp that comes to the wall has no ship near it that outlives its explosion. -/
def CleanTorp (s : Server) (k : Nat) : Prop :=
  (s.torp k).status = .tmove → 0 < (s.torp k).fuse → (tAdvance s (s.torp k)).2 = true →
    ¬ WallNear s (tAdvance s (s.torp k)).1

/-- A turn of the loop over torps. -/
theorem udtorp_inv {s : Server} (h : Inv s) {k : Nat} (hclean : CleanTorp s k) : Inv (udtorp s k) := by
  unfold udtorp
  simp only
  split
  · exact h
  · rename_i hmove
    have harmed : Armed (s.torp k) := .inl hmove
    split
    · exact freeTorp_inv (h.modifyTorp k fun _ => harmed) k
    · rename_i hfuse
      have hstatus : (tAdvance s (s.torp k)).1.status = .tmove := (tAdvance_status s _).trans hmove
      have hclean' := hclean hmove (by omega)
      generalize tAdvance s (s.torp k) = a at *
      obtain ⟨t, hit⟩ := a
      simp only at hstatus hclean' ⊢
      have h1 : Inv (s.modifyTorp k fun _ => t) := h.modifyTorp k fun _ => harmed
      have ht1 : (s.modifyTorp k fun _ => t).torp k = t := by rw [Server.torp_modifyTorp, if_pos rfl]
      cases hit with
      | false =>
        simp only [Bool.false_eq_true, if_false]
        split
        · exact h1
        · refine tSeek_inv h1 fun _ => ?_
          rw [ht1]
          exact .inl hstatus
      | true =>
        simp only [if_true]
        obtain ⟨h2, hfar⟩ := tHitWall_inv h1 (by rw [ht1]; exact .inl hstatus)
        rw [ht1] at hfar
        split
        · exact h2
        · refine tSeek_inv h2 fun hnear => ?_
          exact absurd (hfar hnear) (hclean' rfl)
  · rename_i hdet
    exact h.explosion (.inr hdet)
  · rename_i hexp
    have h1 : Inv (s.modifyTorp k fun t => { t with fuse := t.fuse - 1 }) := h.modifyTorp k id
    split
    · exact h1
    · exact freeTorp_inv h1 k
  · exact freeTorp_inv h k

/-! ## Runs -/

/-- Every torp of a list of slots is clean when its turn comes. -/
def CleanTorps : Server → List Nat → Prop
  | _, [] => True
  | s, k :: ks => CleanTorp s k ∧ CleanTorps (udtorp s k) ks

theorem udtorpsLoop_inv : ∀ (ks : List Nat) (s : Server), Inv s → CleanTorps s ks → Inv (ks.foldl udtorp s)
  | [], _, h, _ => h
  | _ :: ks, _, h, hclean => udtorpsLoop_inv ks _ (udtorp_inv h hclean.1) hclean.2

/-- A frame of `udtorps`, or what else may happen to the torps, and to anything else, between frames. -/
inductive Act
  | frame
  /-- The slot becomes a moving torp. -/
  | launch (k : Nat) (t : Torp)
  /-- A moving torp is detonated by a player, or turned off by its owner. -/
  | det (k : Nat) (who : Slot)
  | off (k : Nat)
  /-- A torp changes in anything but its status. -/
  | steer (k : Nat) (t : Torp)
  /-- A parade frees the slot, or leaves it exploding. -/
  | parade (k : Nat) (free : Bool)
  | others (m : Memory) (random : Nat → Nat) (plWarning : Fin maxPlanets → Int)

def act (s : Server) : Act → Server
  | .frame => udtorps s
  | .launch k t => (s.modifyTorp k fun _ => { t with status := .tmove }).record (.launched k)
  | .det k who => s.modifyTorp k fun t => if t.status = .tmove then { t with status := .tdet, whodet := some who } else t
  | .off k => s.modifyTorp k fun t => if t.status = .tmove then { t with status := .toff } else t
  | .steer k t' => s.modifyTorp k fun t => { t' with status := t.status }
  | .parade k free => s.modifyTorp k fun t => { t with status := if free then .tfree else .texplode }
  | .others m random plWarning =>
    { s with mem := { m with torps := s.mem.torps }, random := random, plWarning := plWarning }

def Act.clean (s : Server) : Act → Prop
  | .frame => CleanTorps s (List.range numTorps)
  | _ => True

/-- Every act that is clean. -/
theorem act_inv (s : Server) (a : Act) (hclean : a.clean s) (h : Inv s) : Inv (act s a) := by
  cases a with
  | frame => exact udtorpsLoop_inv _ s h hclean
  | launch k t =>
    refine ⟨fun i => ?_, fun i hi => ?_⟩
    · show (if k = i then 0 else _) ≤ 1 ∧ ∀ j, (if k = i then 0 else _) ≤ 1
      split
      · exact ⟨Nat.zero_le _, fun _ => Nat.zero_le _⟩
      · exact h.once i
    · show (if k = i then 0 else _) = 0 ∧ ∀ j, (if k = i then 0 else _) = 0
      split
      · exact ⟨rfl, fun _ => rfl⟩
      · rename_i hne
        refine h.armed i ?_
        unfold act at hi
        rwa [Server.torp_record, Server.torp_modifyTorp, if_neg (Ne.symm hne)] at hi
  | det k who =>
    refine h.modifyTorp k fun ha => ?_
    split at ha
    · exact .inl ‹_›
    · exact ha
  | off k =>
    refine h.modifyTorp k fun ha => ?_
    split at ha
    · exact .inl ‹_›
    · exact ha
  | steer k t' => exact h.modifyTorp k id
  | parade k free =>
    refine h.modifyTorp k fun ha => ?_
    cases free <;> rcases ha with ha | ha <;> cases ha
  | others m random plWarning => exact h.quiet ⟨fun _ => rfl, fun _ _ => rfl⟩ fun _ => id

/-- From any state on, in a run whose frames are clean, a torp explodes at most once from when it
begins to move, and damages each ship at most once. -/
theorem explodes_once {s s' : Server} {acts : List Act} (hlog : s.log = []) (h : Run Act.clean act s acts s') : Once s' := by
  have h0 : Inv s := by
    refine ⟨fun k => ?_, fun k _ => ?_⟩
    · rw [hlog]; exact ⟨Nat.zero_le _, fun _ => Nat.zero_le _⟩
    · rw [hlog]; exact ⟨rfl, fun _ => rfl⟩
  exact (Run.inv act_inv h h0).once

instance decidableOutlives (s : Server) (t : Torp) (j : Slot) : Decidable (Outlives s t j) :=
  match h : tHits s (atWall t) j with
  | none => decidable_of_iff ((s.player j).status = .palive ∧ s.isIdle j = false) (by unfold Outlives; rw [h])
  | some d =>
    decidable_of_iff (destroyed (inflict (s.player j) d) = false ∧
      (s.modifyPlayer j fun p => inflict p d).isIdle j = false) (by unfold Outlives; rw [h])

instance decidableWallNear (s : Server) (t : Torp) : Decidable (WallNear s t) :=
  inferInstanceAs (Decidable (∃ j, j ≠ t.owner ∧ tNearTo t (s.player j) = true ∧ Outlives s t j))

instance decidableCleanTorp (s : Server) (k : Nat) : Decidable (CleanTorp s k) :=
  inferInstanceAs (Decidable (_ → _ → _ → ¬ _))

instance decidableCleanTorps : ∀ (s : Server) (ks : List Nat), Decidable (CleanTorps s ks)
  | _, [] => isTrue trivial
  | s, k :: ks =>
    have := decidableCleanTorps (udtorp s k) ks
    inferInstanceAs (Decidable (_ ∧ _))

/-- A Romulan ship by the wall, and at `x` a torp that a ship of the Federation fired towards the wall. -/
def byTheWall (x : Int) : Server :=
  let ship : Ship := { (default : Ship) with maxDamage := 100 }
  let owner : Player := { (default : Player) with status := .palive, team := fed, xInternal := spi 5000, ship := ship }
  let target : Player := { (default : Player) with status := .palive, team := rom, ship := ship }
  { (default : Server) with
    setup := { (default : Setup) with cos := fun _ => -1 }
    mem := { (default : Memory) with
      players := Function.update (Function.update default 0 owner) 1 target
      torps := Function.update default 0
        { (default : Torp) with
          status := .tmove, team := fed, war := rom, damage := 40, gspeed := 100, fuse := 30, xInternal := spi x } } }

/-- Short of the wall the torp explodes by the ship, and damages it once. -/
theorem explodes_once_short :
    Once (udtorps (byTheWall 101)) ∧ explosions 0 (udtorps (byTheWall 101)).log = 1 ∧
      hurts 0 1 (udtorps (byTheWall 101)).log = 1 ∧ ((udtorps (byTheWall 101)).player 1).damage = 40 :=
  ⟨@explodes_once _ _ [.frame] rfl (.cons (by unfold Act.clean; decide +kernel) (.nil _)), by decide +kernel,
    by decide +kernel, by decide +kernel⟩

/-- At the wall the torp explodes twice, and damages the ship twice. -/
theorem not_once_near :
    ¬ Once (udtorps (byTheWall 50)) ∧ explosions 0 (udtorps (byTheWall 50)).log = 2 ∧
      hurts 0 1 (udtorps (byTheWall 50)).log = 2 ∧ ((udtorps (byTheWall 50)).player 1).damage = 80 := by
  have h : explosions 0 (udtorps (byTheWall 50)).log = 2 := by decide +kernel
  refine ⟨fun hone => ?_, h, by decide +kernel, by decide +kernel⟩
  have := (hone 0).1
  omega

end Netrek.Daemon
