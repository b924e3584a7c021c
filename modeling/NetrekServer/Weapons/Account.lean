/-
The accounts of torps. `p_ntorp` and `p_nplasmatorp` of a player count the slots of the table that hold
its torps; the counters and the slots are a pool, in which a slot passes to the player who fires, from
one player to another when a phaser sends a plasma torp back, and to nobody when a torp is gone. What
`udtorps`, a launch, a phaser and a detonation do to the pool, slot by slot.
-/
import Mathlib.Order.Interval.Finset.Nat
import NetrekServer.Daemon.Explode
import NetrekServer.Lib.Pool
import NetrekServer.Weapons.Phaser

namespace Netrek.Weapons

open Daemon

/-! ## Counts -/

/-- The slots of the player's own torps that are in use. -/
def torpsInUse (s : Server) (o : Slot) : Nat :=
  ((Finset.Ico (firstTorpOf o) (firstTorpOf o + maxTorp)).filter fun k => (s.torp k).status ≠ .tfree).card

/-- The slots of plasma torps that the player owns and that are in use. -/
def plasmasInUse (s : Server) (o : Slot) : Nat :=
  ((Finset.Ico firstPlasma numTorps).filter fun k => (s.torp k).status ≠ .tfree ∧ (s.torp k).owner = o).card

/-- The counters of all players are right. -/
def TorpsCounted (s : Server) : Prop :=
  ∀ o, (s.player o).ntorp = torpsInUse s o ∧ (s.player o).nplasmatorp = plasmasInUse s o

/-! ## The pool -/

/-- The torps or the plasma torps of a player. -/
abbrev Account := TType × Slot

/-- On whose account a torp is, if it is in use. -/
def account (t : Torp) : Option Account := if t.status = .tfree then none else some (t.type, t.owner)

/-- What a player counts. -/
def inFlight (p : Player) : TType → Int
  | .photon => p.ntorp
  | .plasma => p.nplasmatorp

/-- The counter of an account. -/
def counter (s : Server) (a : Account) : Int := inFlight (s.player a.2) a.1

def pool (s : Server) : Lib.Pool Nat Account := ⟨fun k => account (s.torp k), counter s⟩

/-- Torps are in the slots of their owner, and plasma torps behind all torps. -/
def InPlace (k : Nat) : Account → Prop
  | (.photon, o) => k / maxTorp = o
  | (.plasma, _) => firstPlasma ≤ k

/-- The counters are right, and every torp is where it belongs. -/
structure Kept (s : Server) : Prop where
  balanced : (pool s).Balanced (Finset.range numTorps)
  inPlace : ∀ k < numTorps, ∀ a, account (s.torp k) = some a → InPlace k a

theorem account_eq_none {t : Torp} : account t = none ↔ t.status = .tfree := by
  unfold account
  split <;> simp_all

theorem account_some {t : Torp} (h : t.status ≠ .tfree) : account t = some (t.type, t.owner) := if_neg h

theorem account_of_some {t : Torp} {a : Account} (h : account t = some a) :
    t.status ≠ .tfree ∧ a = (t.type, t.owner) := by
  unfold account at h
  split at h
  · cases h
  · exact ⟨‹_›, (Option.some.inj h).symm⟩

/-! ## Steps of the pool -/

theorem pool_congr {s s' : Server} (ht : ∀ k, account (s'.torp k) = account (s.torp k))
    (hp : ∀ o, (s'.player o).ntorp = (s.player o).ntorp ∧ (s'.player o).nplasmatorp = (s.player o).nplasmatorp) :
    pool s' = pool s := by
  have hcount : counter s' = counter s := by
    funext a
    obtain ⟨ty, o⟩ := a
    cases ty with
    | photon => exact (hp o).1
    | plasma => exact (hp o).2
  unfold pool
  rw [hcount, funext ht]

/-- A slot passes from account to account. -/
theorem pool_pass {s s' : Server} {k : Nat} {new : Option Account}
    (ht : ∀ i, account (s'.torp i) = if i = k then new else account (s.torp i))
    (hp : ∀ a, counter s' a =
      counter s a - (if account (s.torp k) = some a then 1 else 0) + if new = some a then 1 else 0) :
    pool s' = (pool s).pass k new := by
  unfold pool Lib.Pool.pass
  rw [funext hp, funext ht]
  congr 1
  funext i
  rw [Function.update_apply]

theorem counter_modifyPlayer (s : Server) (j : Slot) (f : Player → Player) (ty : TType) (o : Slot) :
    counter (s.modifyPlayer j f) (ty, o) = if o = j then inFlight (f (s.player j)) ty else counter s (ty, o) := by
  unfold counter
  rw [Server.player_modifyPlayer]
  split <;> rfl

@[simp] theorem counter_modifyTorp (s : Server) (k : Nat) (f : Torp → Torp) (a : Account) :
    counter (s.modifyTorp k f) a = counter s a := rfl

/-- A change of one counter by `d`. -/
theorem counter_add {s : Server} {j : Slot} {f : Player → Player} {t : TType} {d : Int}
    (hf : ∀ ty, inFlight (f (s.player j)) ty = inFlight (s.player j) ty + if t = ty then d else 0) (a : Account) :
    counter (s.modifyPlayer j f) a = counter s a + if (t, j) = a then d else 0 := by
  obtain ⟨ty, o⟩ := a
  rw [counter_modifyPlayer]
  by_cases ho : o = j
  · subst o
    rw [if_pos rfl, hf]
    simp only [counter, Prod.mk.injEq, and_true]
  · rw [if_neg ho, if_neg fun he => ho (congrArg Prod.snd he).symm, add_zero]

theorem pool_modifyPlayer (s : Server) (j : Slot) {f : Player → Player}
    (hf : (f (s.player j)).ntorp = (s.player j).ntorp ∧ (f (s.player j)).nplasmatorp = (s.player j).nplasmatorp) :
    pool (s.modifyPlayer j f) = pool s := by
  refine pool_congr (fun _ => rfl) fun o => ?_
  rw [Server.player_modifyPlayer]
  split
  · subst o; exact hf
  · exact ⟨rfl, rfl⟩

theorem pool_modifyTorp (s : Server) (k : Nat) {f : Torp → Torp} (hf : account (f (s.torp k)) = account (s.torp k)) :
    pool (s.modifyTorp k f) = pool s := by
  refine pool_congr (fun i => ?_) fun _ => ⟨rfl, rfl⟩
  rw [Server.torp_modifyTorp]
  split
  · subst i; exact hf
  · rfl

@[simp] theorem pool_record (s : Server) (e : Event) : pool (s.record e) = pool s := rfl
@[simp] theorem pool_warn (s : Server) (j : Slot) (text : String) : pool (s.warn j text) = pool s := rfl
@[simp] theorem pool_draw (s : Server) : pool s.draw.2 = pool s := rfl
@[simp] theorem pool_draw_modifyTorp (s : Server) (k : Nat) (f : Torp → Torp) :
    pool (s.draw.2.modifyTorp k f) = pool (s.modifyTorp k f) := rfl
@[simp] theorem pool_modifyPhaser (s : Server) (j : Slot) (f : Phaser → Phaser) : pool (s.modifyPhaser j f) = pool s := rfl

/-- A free slot becomes a torp, and its owner counts one more. -/
theorem pool_launch {s : Server} {me : Slot} {k : Nat} {ty : TType} {f : Player → Player} {g : Torp → Torp}
    (hfree : (s.torp k).status = .tfree)
    (hf : ∀ ty', inFlight (f (s.player me)) ty' = inFlight (s.player me) ty' + if ty = ty' then 1 else 0)
    (hg : account (g (s.torp k)) = some (ty, me)) :
    pool ((s.modifyPlayer me f).modifyTorp k g) = (pool s).pass k (some (ty, me)) := by
  refine pool_pass (fun i => ?_) fun a => ?_
  · rw [Server.torp_modifyTorp]
    split
    · exact hg
    · rfl
  · rw [account_eq_none.2 hfree]
    rw [counter_modifyTorp, counter_add hf]
    simp only [Option.some.injEq, reduceCtorEq, if_false, sub_zero]

theorem torp_account {s s' : Server} (h : pool s' = pool s) (k : Nat) : account (s'.torp k) = account (s.torp k) :=
  congrFun (congrArg Lib.Pool.holder h) k

theorem in_use {s s' : Server} (h : pool s' = pool s) {k : Nat} (hk : (s.torp k).status ≠ .tfree) :
    (s'.torp k).status ≠ .tfree :=
  fun hfree => hk (account_eq_none.1 ((torp_account h k).symm.trans (account_eq_none.2 hfree)))

namespace Kept

theorem congr {s s' : Server} (h : Kept s) (e : pool s' = pool s) : Kept s' where
  balanced := e ▸ h.balanced
  inPlace k hk a ha := h.inPlace k hk a (torp_account e k ▸ ha)

theorem pass {s s' : Server} (h : Kept s) {k : Nat} {new : Option Account} (hk : k < numTorps)
    (e : pool s' = (pool s).pass k new) (hnew : ∀ a, new = some a → InPlace k a) : Kept s' where
  balanced := e ▸ h.balanced.pass (Finset.mem_range.2 hk) new
  inPlace i hi a ha := by
    have hi' : account (s'.torp i) = Function.update (pool s).holder k new i := congrFun (congrArg Lib.Pool.holder e) i
    rw [hi', Function.update_apply] at ha
    split at ha
    · subst i; exact hnew a ha
    · exact h.inPlace i hi a ha

/-! ## What the invariant says of the counters -/

/-- A torp in a slot of the player is a torp of the player. -/
theorem own {s : Server} (h : Kept s) {o : Slot} {k : Nat} (hk : k ∈ Finset.Ico (firstTorpOf o) (firstTorpOf o + maxTorp))
    {a : Account} (ha : account (s.torp k) = some a) : a = (.photon, o) := by
  have ho := o.isLt
  simp only [Finset.mem_Ico, firstTorpOf, maxTorp, maxPlayer] at hk ho
  have hplace := h.inPlace k (by simp only [numTorps, maxTorp, maxPlayer, maxPlasma]; omega) a ha
  obtain ⟨ty, o'⟩ := a
  cases ty with
  | photon =>
    have hdiv : k / 8 = o' := hplace
    rw [show o' = o from Fin.ext (by omega)]
  | plasma =>
    have hge : 8 * 32 ≤ k := hplace
    omega

theorem slots_subset (o : Slot) : Finset.Ico (firstTorpOf o) (firstTorpOf o + maxTorp) ⊆ Finset.range numTorps := by
  have ho := o.isLt
  intro k hk
  simp only [Finset.mem_Ico, Finset.mem_range, firstTorpOf, numTorps, maxTorp, maxPlayer, maxPlasma] at *
  omega

/-- `p_ntorp` counts the torps of the player. -/
theorem torps {s : Server} (h : Kept s) (o : Slot) : (s.player o).ntorp = torpsInUse s o := by
  have hin : ∀ k ∈ Finset.range numTorps, (pool s).holder k = some (.photon, o) →
      k ∈ Finset.Ico (firstTorpOf o) (firstTorpOf o + maxTorp) := by
    intro k hk ha
    have hplace : k / 8 = o := h.inPlace k (Finset.mem_range.1 hk) _ ha
    simp only [Finset.mem_Ico, firstTorpOf, maxTorp]
    omega
  have hcount := h.balanced.count_block _ (slots_subset o) (fun k hk a ha => h.own hk ha) hin
  rw [show (s.player o).ntorp = (pool s).count (.photon, o) from rfl, hcount]
  unfold torpsInUse
  congr 2
  apply Finset.filter_congr
  intro k _
  exact not_congr account_eq_none

/-- Behind the torps there are only plasma torps. -/
theorem plasma_type {s : Server} (h : Kept s) {k : Nat} (hge : firstPlasma ≤ k) (hlt : k < numTorps)
    (huse : (s.torp k).status ≠ .tfree) : (s.torp k).type = .plasma := by
  have hplace := h.inPlace k hlt _ (account_some huse)
  cases hty : (s.torp k).type with
  | photon =>
    rw [hty] at hplace
    have hdiv : k / 8 = (s.torp k).owner := hplace
    have ho := (s.torp k).owner.isLt
    simp only [firstPlasma, maxTorp, maxPlayer] at hge ho
    omega
  | plasma => rfl

/-- `p_nplasmatorp` counts the plasma torps of the player. -/
theorem plasmas {s : Server} (h : Kept s) (o : Slot) : (s.player o).nplasmatorp = plasmasInUse s o := by
  have hheld : (pool s).held (Finset.range numTorps) (.plasma, o) =
      (Finset.Ico firstPlasma numTorps).filter fun k => (s.torp k).status ≠ .tfree ∧ (s.torp k).owner = o := by
    ext k
    simp only [Lib.Pool.held, Finset.mem_filter, Finset.mem_range, Finset.mem_Ico]
    constructor
    · rintro ⟨hk, ha⟩
      obtain ⟨huse, he⟩ := account_of_some ha
      exact ⟨⟨h.inPlace k hk _ ha, hk⟩, huse, (congrArg Prod.snd he).symm⟩
    · rintro ⟨⟨hge, hk⟩, huse, howner⟩
      refine ⟨hk, ?_⟩
      show account (s.torp k) = _
      rw [account_some huse, h.plasma_type hge hk huse, howner]
  rw [show (s.player o).nplasmatorp = (pool s).count (.plasma, o) from rfl, h.balanced, hheld]
  rfl

theorem counted {s : Server} (h : Kept s) : TorpsCounted s := fun o => ⟨h.torps o, h.plasmas o⟩

end Kept

/-! ## Torps in flight -/

theorem pool_tExplosion {s : Server} {k : Nat} (h : (s.torp k).status ≠ .tfree) : pool (tExplosion s k) = pool s := by
  refine pool_congr (fun i => ?_) fun o => ?_
  · rw [tExplosion_torp]
    split
    · subst i
      rw [account_some h]
      rfl
    · rfl
  · have hcalm := tExplosionLoop_calm k (List.finRange maxPlayer) (s.record (.exploded k))
    unfold tExplosion
    generalize (List.finRange maxPlayer).foldl (tExplosionOn k) (s.record (.exploded k)) = s1 at *
    exact (hcalm.keeps o).2

/-- A player counts one torp less. -/
def oneLess : TType → Player → Player
  | .photon, p => { p with ntorp := p.ntorp - 1 }
  | .plasma, p => { p with nplasmatorp := p.nplasmatorp - 1 }

theorem inFlight_oneLess (ty ty' : TType) (p : Player) :
    inFlight (oneLess ty p) ty' = inFlight p ty' + if ty = ty' then -1 else 0 := by
  cases ty <;> cases ty' <;> simp [oneLess, inFlight, Int.sub_eq_add_neg]

theorem freeTorp_eq (s : Server) (k : Nat) : freeTorp s k =
    (s.modifyTorp k fun t => { t with status := .tfree }).modifyPlayer (s.torp k).owner (oneLess (s.torp k).type) := by
  unfold freeTorp
  simp only
  cases (s.torp k).type <;> rfl

theorem pool_freeTorp {s : Server} {k : Nat} (h : (s.torp k).status ≠ .tfree) :
    pool (freeTorp s k) = (pool s).pass k none := by
  rw [freeTorp_eq]
  refine pool_pass (fun i => ?_) fun a => ?_
  · rw [Server.torp_modifyPlayer, Server.torp_modifyTorp]
    split
    · exact account_eq_none.2 rfl
    · rfl
  · rw [counter_add fun ty => inFlight_oneLess _ ty _, account_some h, counter_modifyTorp]
    simp only [Option.some.injEq, reduceCtorEq, if_false]
    split <;> omega

theorem tAdvance_account (s : Server) (t : Torp) : account (tAdvance s t).1 = account t := by
  unfold tAdvance tCheckWall tMove
  simp only
  split
  · unfold tTrack
    simp only
    split
    · rfl
    · split <;> rfl
  · rfl

theorem pool_tHitWall {s : Server} {k : Nat} (h : (s.torp k).status ≠ .tfree) : pool (tHitWall s k) = pool s := by
  have hwall : pool (s.modifyTorp k fun t => { t with status := .tdet, whodet := some t.owner }) = pool s := by
    refine pool_modifyTorp s k ?_
    rw [account_some h]
    rfl
  unfold tHitWall
  simp only [pool_record]
  rw [pool_tExplosion, hwall]
  simp

/-- A torp that seeks changes its course only. -/
theorem pool_tSeek {s : Server} {k : Nat} (h : (s.torp k).status ≠ .tfree) : pool (tSeek s k) = pool s := by
  have hwob : pool (if (s.torp k).attributes.has Netrek.tWobble then Daemon.tWobble s k else s) = pool s := by
    split
    · show pool (s.draw.2.modifyTorp k _) = pool s
      rw [pool_modifyTorp _ _ rfl, pool_draw]
    · rfl
  have huse : ((if (s.torp k).attributes.has Netrek.tWobble then Daemon.tWobble s k else s).torp k).status ≠ .tfree :=
    in_use hwob h
  unfold tSeek
  generalize (if (s.torp k).attributes.has Netrek.tWobble then Daemon.tWobble s k else s) = s1 at *
  simp only
  split
  · rw [pool_tExplosion (by exact huse)]
    exact hwob
  · exact hwob

/-- `udtorps` at one slot: the pool stays as it is, or the slot becomes free. -/
theorem pool_udtorp (s : Server) (k : Nat) : pool (udtorp s k) = pool s ∨ pool (udtorp s k) = (pool s).pass k none := by
  have hburn : pool (s.modifyTorp k fun t => { t with fuse := t.fuse - 1 }) = pool s := pool_modifyTorp s k rfl
  have hstatus : ((s.modifyTorp k fun t => { t with fuse := t.fuse - 1 }).torp k).status = (s.torp k).status := by
    rw [Server.torp_modifyTorp, if_pos rfl]
  unfold udtorp
  simp only
  split
  · exact .inl rfl
  · rename_i hmove
    split
    · right
      rw [pool_freeTorp (by rw [hstatus, hmove]; simp), hburn]
    · left
      have hacc := tAdvance_account s (s.torp k)
      generalize tAdvance s (s.torp k) = a at *
      obtain ⟨t, hit⟩ := a
      have h1 : pool (s.modifyTorp k fun _ => t) = pool s := pool_modifyTorp s k hacc
      have huse : (s.torp k).status ≠ .tfree := by rw [hmove]; simp
      have h2 : pool (if hit then tHitWall (s.modifyTorp k fun _ => t) k else s.modifyTorp k fun _ => t) = pool s := by
        split
        · rw [pool_tHitWall (in_use h1 huse), h1]
        · exact h1
      simp only
      generalize (if hit then tHitWall (s.modifyTorp k fun _ => t) k else s.modifyTorp k fun _ => t) = s2 at *
      split
      · exact h2
      · rw [pool_tSeek (in_use h2 huse), h2]
  · rename_i hdet
    exact .inl (pool_tExplosion (by rw [hdet]; simp))
  · rename_i hexp
    split
    · exact .inl hburn
    · right
      rw [pool_freeTorp (by rw [hstatus, hexp]; simp), hburn]
  · rename_i hoff
    exact .inr (pool_freeTorp (by rw [hoff]; simp))

theorem Kept.udtorp {s : Server} (h : Kept s) {k : Nat} (hk : k < numTorps) : Kept (udtorp s k) := by
  rcases pool_udtorp s k with he | he
  · exact h.congr he
  · exact h.pass hk he (by simp)

theorem Kept.udtorpsLoop : ∀ {ks : List Nat} {s : Server}, Kept s → (∀ k ∈ ks, k < numTorps) → Kept (ks.foldl Daemon.udtorp s)
  | [], _, h, _ => h
  | _ :: _, _, h, hks => (h.udtorp (hks _ List.mem_cons_self)).udtorpsLoop fun k hk => hks k (List.mem_cons_of_mem _ hk)

theorem Kept.udtorps {s : Server} (h : Kept s) : Kept (udtorps s) :=
  h.udtorpsLoop fun _ hk => List.mem_range.1 hk

end Netrek.Weapons
